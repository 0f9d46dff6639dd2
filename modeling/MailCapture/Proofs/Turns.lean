import MailCapture.Store
/-!
What programs of the operator do, whatever they are answered.  A run is the list of its turns, each
a query with its answer; any answer is possible at every turn.
-/
namespace MailCapture

namespace Prog
variable {Q : Type} {A : Q → Type} {α β σ : Type}

abbrev Turn (A : Q → Type) := (q : Q) × A q

def Runs : Prog Q A α → List (Turn A) → α → Prop
  | .done a, turns, b => turns = [] ∧ b = a
  | .ask q next, turns, b => ∃ a rest, turns = ⟨q, a⟩ :: rest ∧ (next a).Runs rest b

@[simp] theorem runs_ask (q : Q) (next : A q → Prog Q A α) (turns : List (Turn A)) (b : α) :
    (Prog.ask q next).Runs turns b ↔ ∃ a rest, turns = ⟨q, a⟩ :: rest ∧ (next a).Runs rest b :=
  Iff.rfl

theorem runs_bind (p : Prog Q A α) (f : α → Prog Q A β) (turns : List (Turn A)) (b : β) :
    (p.bind f).Runs turns b ↔
      ∃ first a rest, turns = first ++ rest ∧ p.Runs first a ∧ (f a).Runs rest b := by
  induction p generalizing turns with
  | done a =>
    constructor
    · intro h
      exact ⟨[], a, turns, rfl, ⟨rfl, rfl⟩, h⟩
    · rintro ⟨first, a', rest, rfl, ⟨rfl, rfl⟩, h⟩
      exact h
  | ask q next ih =>
    simp only [bind, runs_ask, ih]
    constructor
    · rintro ⟨x, rest, rfl, first, a, last, rfl, hp, hf⟩
      exact ⟨⟨q, x⟩ :: first, a, last, rfl, ⟨x, first, rfl, hp⟩, hf⟩
    · rintro ⟨_, a, last, rfl, ⟨x, first, rfl, hp⟩, hf⟩
      exact ⟨x, first ++ last, rfl, first, a, last, rfl, hp, hf⟩

/-- What is run before a program continues does not matter for how it continues. -/
theorem runs_bind_of_runs {p : Prog Q A α} {f : α → Prog Q A β} {first rest : List (Turn A)} {a : α}
    {b : β} (h : p.Runs first a) :
    (p.bind f).Runs (first ++ rest) b ↔ (f a).Runs rest b := by
  induction p generalizing first with
  | done value =>
    obtain ⟨rfl, rfl⟩ := h
    exact Iff.rfl
  | ask q next ih =>
    obtain ⟨x, later, rfl, hlater⟩ := h
    rw [← ih x hlater]
    constructor
    · rintro ⟨y, more, heq, hmore⟩
      cases heq
      exact hmore
    · intro hmore
      exact ⟨x, later ++ rest, rfl, hmore⟩

/-- A program that ends without a turn is done. -/
theorem Runs.eq_done {p : Prog Q A α} {b : α} (h : p.Runs [] b) : p = .done b := by
  cases p with
  | done a =>
    obtain ⟨_, rfl⟩ := h
    rfl
  | ask q next =>
    obtain ⟨_, _, hturns, _⟩ := h
    cases hturns

def trace (answer : (q : Q) → σ → A q × σ) : Prog Q A α → σ → List (Turn A)
  | .done _, _ => []
  | .ask q next, s =>
    ⟨q, (answer q s).1⟩ :: (next (answer q s).1).trace answer (answer q s).2

theorem runs_trace (answer : (q : Q) → σ → A q × σ) (p : Prog Q A α) (s : σ) :
    p.Runs (p.trace answer s) (p.run answer s).1 := by
  induction p generalizing s with
  | done a => exact ⟨rfl, rfl⟩
  | ask q next ih => exact ⟨(answer q s).1, _, rfl, ih (answer q s).1 (answer q s).2⟩

theorem trace_bind (answer : (q : Q) → σ → A q × σ) (p : Prog Q A α) (f : α → Prog Q A β) (s : σ) :
    (p.bind f).trace answer s =
      p.trace answer s ++ (f (p.run answer s).1).trace answer (p.run answer s).2 := by
  induction p generalizing s with
  | done a => rfl
  | ask q next ih => exact congrArg (_ :: ·) (ih (answer q s).1 (answer q s).2)

/-- Surroundings of any kind answer a program in some turns. -/
theorem exists_runs (answer : (q : Q) → σ → A q × σ) (p : Prog Q A α) (s : σ) :
    ∃ turns, p.Runs turns (p.run answer s).1 := ⟨_, p.runs_trace answer s⟩

end Prog

abbrev Turn := Prog.Turn Query.Answer

/-- Every program of the operator ends in some way. -/
theorem Prog.ends {α : Type} (p : Prog Query Query.Answer α) : ∃ turns a, p.Runs turns a := by
  let answer : (q : Query) → Unit → q.Answer × Unit
    | .call _, s => (.error .serialization, s)
    | .emit _, s => ((), s)
  obtain ⟨turns, h⟩ := p.exists_runs answer ()
  exact ⟨turns, _, h⟩

namespace Action
variable {α β : Type}

theorem run_bind (x : Action α) (f : α → Action β) :
    (x >>= f).run = x.run.bind (fun r => match r with
      | .ok a => (f a).run
      | .error e => .done (.error e)) := by
  show Prog.bind x.run (ExceptT.bindCont f) = _
  congr 1
  funext r
  cases r <;> rfl

theorem run_bind_assoc {γ : Type} (x : Action α) (f : α → Action β) (g : β → Action γ) :
    ((x >>= f) >>= g).run = (x >>= fun a => f a >>= g).run := by
  rw [run_bind, run_bind, run_bind, Prog.bind_assoc]
  congr 1
  funext r
  cases r with
  | ok a => exact (run_bind (f a) g).symm
  | error e => rfl

def Ensures (x : Action α) (P : List Turn → Except Failure α → Prop) : Prop :=
  ∀ turns r, x.run.Runs turns r → P turns r

variable {P P' : List Turn → Except Failure α → Prop} {R : List Turn → Except Failure β → Prop}

theorem Ensures.mono {x : Action α} (h : x.Ensures P) (himp : ∀ turns r, P turns r → P' turns r) :
    x.Ensures P' :=
  fun turns r hr => himp turns r (h turns r hr)

/-- One action after another: a failure of the first is the failure of both. -/
theorem Ensures.bind {x : Action α} {f : α → Action β} (h : x.Ensures P)
    (hfail : ∀ turns e, P turns (.error e) → R turns (.error e))
    (hnext : ∀ turns a, P turns (.ok a) → (f a).Ensures (fun more r => R (turns ++ more) r)) :
    (x >>= f).Ensures R := by
  intro turns r hr
  rw [run_bind, Prog.runs_bind] at hr
  obtain ⟨first, a, rest, rfl, hx, hf⟩ := hr
  have hp := h first a hx
  cases a with
  | ok a => exact hnext first a hp rest r hf
  | error e =>
    obtain ⟨rfl, rfl⟩ := hf
    simpa using hfail first e hp

@[simp] theorem ensures_pure (a : α) : (pure a : Action α).Ensures P ↔ P [] (.ok a) :=
  ⟨fun h => h [] (.ok a) ⟨rfl, rfl⟩, fun h _ _ ⟨ht, hr⟩ => ht ▸ hr ▸ h⟩

@[simp] theorem ensures_fail (e : Failure) : (fail e : Action α).Ensures P ↔ P [] (.error e) :=
  ⟨fun h => h [] (.error e) ⟨rfl, rfl⟩, fun h _ _ ⟨ht, hr⟩ => ht ▸ hr ▸ h⟩

@[simp] theorem ensures_bind_assoc {γ : Type} (x : Action α) (f : α → Action β)
    (g : β → Action γ) {S : List Turn → Except Failure γ → Prop} :
    ((x >>= f) >>= g).Ensures S ↔ (x >>= fun a => f a >>= g).Ensures S := by
  rw [Ensures, run_bind_assoc]
  rfl

@[simp] theorem ensures_fail_bind (e : Failure) (f : α → Action β) :
    ((fail e : Action α) >>= f).Ensures R ↔ R [] (.error e) := by
  rw [Ensures, run_bind]
  exact ensures_fail e

@[simp] theorem ensures_pure_bind (a : α) (f : α → Action β) :
    ((pure a : Action α) >>= f).Ensures R ↔ (f a).Ensures R := by
  rw [Ensures, run_bind]
  rfl

/-- A call is answered at its turn, and a failure of it ends the action. -/
@[simp] theorem ensures_call_bind (c : StoreCall) (f : c.Answer → Action β) :
    (call c >>= f).Ensures R ↔
      (∀ e, R [⟨.call c, .error e⟩] (.error e)) ∧
        ∀ a, (f a).Ensures (fun turns r => R (⟨.call c, .ok a⟩ :: turns) r) := by
  rw [Ensures, run_bind]
  constructor
  · intro h
    refine ⟨fun e => h _ _ ⟨.error e, [], rfl, rfl, rfl⟩, fun a turns r hr => ?_⟩
    exact h _ _ ⟨.ok a, turns, rfl, hr⟩
  · rintro ⟨hfail, hnext⟩ turns r ⟨a, rest, rfl, hr⟩
    cases a with
    | ok a => exact hnext a rest r hr
    | error e =>
      obtain ⟨rfl, rfl⟩ := hr
      exact hfail e

@[simp] theorem ensures_attempt_bind (c : StoreCall)
    (f : Except Failure c.Answer → Action β) :
    (attempt c >>= f).Ensures R ↔
      ∀ a, (f a).Ensures (fun turns r => R (⟨.call c, a⟩ :: turns) r) := by
  rw [Ensures, run_bind]
  constructor
  · intro h a turns r hr
    exact h _ _ ⟨a, turns, rfl, hr⟩
  · rintro h turns r ⟨a, rest, rfl, hr⟩
    exact h a rest r hr

@[simp] theorem ensures_emit_bind (e : Effect) (f : Unit → Action β) :
    (emit e >>= f).Ensures R ↔
      (f ()).Ensures (fun turns r => R (⟨.emit e, ()⟩ :: turns) r) := by
  rw [Ensures, run_bind]
  constructor
  · intro h turns r hr
    exact h _ _ ⟨(), turns, rfl, hr⟩
  · rintro h turns r ⟨a, rest, rfl, hr⟩
    exact h rest r hr

end Action
end MailCapture
