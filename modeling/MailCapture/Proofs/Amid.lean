import MailCapture.Pass
import MailCapture.Proofs.Calls
import MailCapture.Proofs.Sequential
/-!
Passes amid what others do.  One operator runs one pass after the other; before each of its queries
others may change the store, and it may be stopped at any time.  What holds in every state that
comes about is shown once for a program and once for all runs.
-/
namespace MailCapture

namespace Prog
variable {Q : Type} {A : Q → Type} {α β σ : Type}

/-- Whether every state that a program brings about amid what others do is as in `I`, and its result
with the last of them as in `post`. -/
def Keeps (answer : (q : Q) → σ → A q × σ) (others : σ → σ → Prop) (I : σ → Prop) :
    Prog Q A α → (α → σ → Prop) → σ → Prop
  | .done a, post, s => post a s
  | .ask q next, post, s => ∀ t, others s t → I (answer q t).2 ∧
      (next (answer q t).1).Keeps answer others I post (answer q t).2

variable {answer : (q : Q) → σ → A q × σ} {others : σ → σ → Prop} {I : σ → Prop}

theorem Keeps.mono {p : Prog Q A α} {post post' : α → σ → Prop} {s : σ}
    (h : p.Keeps answer others I post s) (himp : ∀ a t, post a t → post' a t) :
    p.Keeps answer others I post' s := by
  induction p generalizing s with
  | done a => exact himp a s h
  | ask q next ih =>
    intro t ht
    obtain ⟨hI, hnext⟩ := h t ht
    exact ⟨hI, ih _ hnext⟩

/-- What is kept amid what others do is kept alone. -/
theorem Keeps.run {p : Prog Q A α} {post : α → σ → Prop} {s : σ}
    (h : p.Keeps answer others I post s) (hrefl : ∀ s, others s s) :
    post (p.run answer s).1 (p.run answer s).2 := by
  induction p generalizing s with
  | done a => exact h
  | ask q next ih => exact ih _ (h s (hrefl s)).2

theorem Keeps.and {p : Prog Q A α} {post post' : α → σ → Prop} {s : σ}
    (h : p.Keeps answer others I post s) (h' : p.Keeps answer others (fun _ => True) post' s) :
    p.Keeps answer others I (fun a t => post a t ∧ post' a t) s := by
  induction p generalizing s with
  | done a => exact ⟨h, h'⟩
  | ask q next ih =>
    intro t ht
    obtain ⟨hI, hnext⟩ := h t ht
    exact ⟨hI, ih _ hnext (h' t ht).2⟩

theorem keeps_of_runs {p : Prog Q A α} {R : α → Prop} (h : ∀ turns a, p.Runs turns a → R a)
    (s : σ) : p.Keeps answer others (fun _ => True) (fun a _ => R a) s := by
  induction p generalizing s with
  | done a => exact h [] a ⟨rfl, rfl⟩
  | ask q next ih =>
    intro t _
    refine ⟨trivial, ih _ (fun turns a hr => ?_) _⟩
    exact h _ a ⟨_, turns, rfl, hr⟩

theorem keeps_bind (p : Prog Q A α) (f : α → Prog Q A β) (post : β → σ → Prop) (s : σ) :
    (p.bind f).Keeps answer others I post s ↔
      p.Keeps answer others I (fun a t => (f a).Keeps answer others I post t) s := by
  induction p generalizing s with
  | done a => exact Iff.rfl
  | ask q next ih =>
    apply forall_congr'
    intro t
    apply imp_congr Iff.rfl
    exact and_congr Iff.rfl (ih (answer q t).1 (answer q t).2)

/-- What others do before the first query makes no difference. -/
theorem Keeps.after {p : Prog Q A α} {post : α → σ → Prop} {s t : σ}
    (h : p.Keeps answer others I post s) (hst : others s t)
    (htrans : ∀ {a b c}, others a b → others b c → others a c)
    (hpost : ∀ a s t, others s t → post a s → post a t) : p.Keeps answer others I post t := by
  cases p with
  | done a => exact hpost a s t hst h
  | ask q next =>
    intro u htu
    exact h u (htrans hst htu)

/-- A program whose queries keep a property keeps it throughout. -/
theorem Asks.keeps {P : Q → Prop} {J : σ → Prop} {p : Prog Q A α} (hp : p.Asks P)
    (hothers : ∀ s t, others s t → J s → J t) (hanswer : ∀ q s, P q → J s → J (answer q s).2)
    (hI : ∀ s, J s → I s) {s : σ} (hs : J s) : p.Keeps answer others I (fun _ t => J t) s := by
  induction p generalizing s with
  | done a => exact hs
  | ask q next ih =>
    intro t ht
    have hafter := hanswer q t hp.1 (hothers s t ht hs)
    exact ⟨hI _ hafter, ih _ (hp.2 _) hafter⟩

inductive Unfolds (answer : (q : Q) → σ → A q × σ) (others : σ → σ → Prop) (p : Prog Q A α)
    (s : σ) : List (Turn A) → Prog Q A α → σ → Prop
  | start : Unfolds answer others p s [] p s
  | turn {turns : List (Turn A)} {q : Q} {next : A q → Prog Q A α} {t u : σ}
      (h : Unfolds answer others p s turns (.ask q next) t) (hothers : others t u) :
      Unfolds answer others p s (turns ++ [⟨q, (answer q u).1⟩]) (next (answer q u).1)
        (answer q u).2

variable {p rest : Prog Q A α} {s t : σ} {turns : List (Turn A)}

/-- The turns so far are the first ones of a run. -/
theorem Unfolds.runs (h : p.Unfolds answer others s turns rest t) {more : List (Turn A)} {a : α}
    (hrest : rest.Runs more a) : p.Runs (turns ++ more) a := by
  induction h generalizing more with
  | start => exact hrest
  | turn _ _ ih =>
    rw [List.append_assoc]
    exact ih ⟨_, more, rfl, hrest⟩

/-- What is kept throughout is kept so far. -/
theorem Keeps.unfolds {post : α → σ → Prop} (h : p.Keeps answer others I post s)
    (hu : p.Unfolds answer others s turns rest t) (hs : I s) :
    I t ∧ rest.Keeps answer others I post t := by
  induction hu with
  | start => exact ⟨hs, h⟩
  | turn _ hothers ih => exact ih.2 _ hothers

/-- The last turn was answered in some state, which it has left as it is now. -/
theorem Unfolds.last {q : Q} {a : A q}
    (h : p.Unfolds answer others s (turns ++ [⟨q, a⟩]) rest t) :
    ∃ u, (answer q u).1 = a ∧ (answer q u).2 = t := by
  generalize hall : turns ++ [(⟨q, a⟩ : Turn A)] = all at h
  cases h with
  | start => simp at hall
  | @turn before query next v u _ _ =>
    obtain ⟨_, hlast⟩ := List.append_inj' hall rfl
    cases hlast
    exact ⟨u, rfl, rfl⟩

/-- What every answer is like in states that are kept, all turns are like. -/
theorem Unfolds.forall_turn {T : Turn A → Prop} {post : α → σ → Prop}
    (hu : p.Unfolds answer others s turns rest t) (h : p.Keeps answer others I post s) (hs : I s)
    (hothers : ∀ s t, others s t → I s → I t) (hT : ∀ q u, I u → T ⟨q, (answer q u).1⟩) :
    ∀ turn ∈ turns, T turn := by
  induction hu with
  | start => simp
  | turn hbefore hchange ih =>
    intro turn hmem
    cases List.mem_append.1 hmem with
    | inl hmem => exact ih turn hmem
    | inr hmem =>
      rw [List.mem_singleton.1 hmem]
      exact hT _ _ (hothers _ _ hchange (h.unfolds hbefore hs).1)

/-- A program that runs alone has the turns of its trace. -/
theorem unfolds_trace (answer : (q : Q) → σ → A q × σ) (hrefl : ∀ s, others s s)
    (p : Prog Q A α) (s : σ) :
    p.Unfolds answer others s (p.trace answer s) (.done (p.run answer s).1) (p.run answer s).2 := by
  -- the turns that came before are carried along
  have hall : ∀ (q : Prog Q A α) (t : σ) (before : List (Turn A)),
      p.Unfolds answer others s before q t →
      p.Unfolds answer others s (before ++ q.trace answer t) (.done (q.run answer t).1)
        (q.run answer t).2 := by
    intro q
    induction q with
    | done a =>
      intro t before h
      rw [trace, List.append_nil]
      exact h
    | ask q next ih =>
      intro t before h
      have hturn := ih (answer q t).1 (answer q t).2 _ (h.turn (hrefl t))
      rw [List.append_assoc] at hturn
      exact hturn
  exact hall p s [] .start

end Prog

namespace Action
variable {α β σ : Type}

def Keeps (w : Surroundings σ) (others : σ → σ → Prop) (I : σ → Prop) (x : Action α)
    (post : Except Failure α → σ → Prop) (s : σ) : Prop :=
  x.run.Keeps w.answer others I post s

variable {w : Surroundings σ} {others : σ → σ → Prop} {I : σ → Prop}
  {post : Except Failure β → σ → Prop}

theorem Keeps.mono {x : Action α} {post post' : Except Failure α → σ → Prop} {s : σ}
    (h : x.Keeps w others I post s) (himp : ∀ r t, post r t → post' r t) :
    x.Keeps w others I post' s := Prog.Keeps.mono h himp

theorem Keeps.exec {x : Action α} {post : Except Failure α → σ → Prop} {s : σ}
    (h : x.Keeps w others I post s) (hrefl : ∀ s, others s s) :
    post (x.exec w s).1 (x.exec w s).2 := Prog.Keeps.run h hrefl

theorem Keeps.and {x : Action α} {post post' : Except Failure α → σ → Prop} {s : σ}
    (h : x.Keeps w others I post s) (h' : x.Keeps w others (fun _ => True) post' s) :
    x.Keeps w others I (fun r t => post r t ∧ post' r t) s := Prog.Keeps.and h h'

/-- One action after another: a failure of the first is the failure of both. -/
theorem keeps_bind (x : Action α) (f : α → Action β) (s : σ) :
    (x >>= f).Keeps w others I post s ↔ x.Keeps w others I (fun r t => match r with
      | .ok a => (f a).Keeps w others I post t
      | .error e => post (.error e) t) s := by
  unfold Keeps
  rw [run_bind, Prog.keeps_bind]
  constructor
  · intro h
    refine Prog.Keeps.mono h fun r t hr => ?_
    cases r <;> exact hr
  · intro h
    refine Prog.Keeps.mono h fun r t hr => ?_
    cases r <;> exact hr

theorem keeps_call_bind (c : StoreCall) (f : c.Answer → Action β) (s : σ) :
    (call c >>= f).Keeps w others I post s ↔ ∀ t, others s t → I (w.reply c t).2 ∧
      match (w.reply c t).1 with
      | .ok a => (f a).Keeps w others I post (w.reply c t).2
      | .error e => post (.error e) (w.reply c t).2 := by
  rw [keeps_bind]
  apply forall_congr'
  intro t
  apply imp_congr Iff.rfl
  apply and_congr Iff.rfl
  have hanswer : w.answer (.call c) t = w.reply c t := rfl
  rw [hanswer]
  cases w.reply c t with
  | mk r u => cases r <;> exact Iff.rfl

theorem keeps_attempt_bind (c : StoreCall) (f : Except Failure c.Answer → Action β) (s : σ) :
    (attempt c >>= f).Keeps w others I post s ↔ ∀ t, others s t → I (w.reply c t).2 ∧
      (f (w.reply c t).1).Keeps w others I post (w.reply c t).2 :=
  keeps_bind (attempt c) f s

theorem Ensures.keeps {x : Action α} {R : Except Failure α → Prop}
    (h : x.Ensures (fun _ r => R r)) (s : σ) :
    x.Keeps w others (fun _ => True) (fun r _ => R r) s := Prog.keeps_of_runs h s

/-- Calls that keep a property keep it throughout. -/
theorem Calls.keeps {P : StoreCall → Prop} {J : σ → Prop} {x : Action α} (hx : x.Calls P)
    (hothers : ∀ s t, others s t → J s → J t) (hemit : ∀ e s, J s → J (w.emit e s))
    (hreply : ∀ c s, P c → J s → J (w.reply c s).2) (hI : ∀ s, J s → I s) {s : σ} (hs : J s) :
    x.Keeps w others I (fun _ t => J t) s := by
  refine Prog.Asks.keeps hx hothers (fun q t hq ht => ?_) hI hs
  cases q with
  | call c => exact hreply c t hq ht
  | emit e => exact hemit e t ht

end Action

/-- A pass keeps what its calls keep, whichever record it reads. -/
theorem Context.pass_keeps {σ : Type} {w : Surroundings σ} {others : σ → σ → Prop} {I : σ → Prop}
    {P : Instance → Prop} {ctx : Context} {key : Key} (hw : w.IsSequential)
    (hothers : ∀ s t, others s t → I s → I t)
    (hsame : ∀ s t, w.contents t = w.contents s → I s → I t)
    (hfound : ∀ s i, I s → (w.contents s).record? key = some i → P i)
    (hcall : ∀ i c s, P i → i.PassCall ctx.unserved c → I s → I (w.reply c s).2) {s : σ}
    (hs : I s) : (ctx.pass key).Keeps w others I (fun _ _ => True) s := by
  refine (Action.keeps_call_bind _ _ _).2 fun t ht => ?_
  have hread := hw.getInstance key t
  have hstart := hothers s t ht hs
  have hafter := hsame t _ hread.2 hstart
  refine ⟨hafter, ?_⟩
  rw [hread.1]
  cases hr : (w.contents t).record? key with
  | none => trivial
  | some i =>
    have hall := (i.pass_calls ctx.unserved).keeps hothers (fun e u => hsame u _ (hw.emit e u))
      (fun c u => hcall i c u (hfound t i hstart hr)) (fun _ => id) hafter
    exact hall.mono fun _ _ _ => trivial

/-- A store, and what is left of the pass that runs over it, if one does. -/
structure Situation (σ : Type) where
  store : σ
  rest : Option (Prog Query Query.Answer (Except Failure PassOutcome))

namespace Situation
variable {σ : Type}

/-- One step: others change the store, a pass over the record of a key starts in a store as in
`calm` or goes on with its next query, or there is no pass any more. -/
inductive Step (w : Surroundings σ) (others : σ → σ → Prop) (calm : σ → Prop) (ctx : Context)
    (key : Key) : Situation σ → Situation σ → Prop
  | others {s : Situation σ} {store : σ} (hothers : others s.store store) :
      Step w others calm ctx key s { s with store := store }
  | start {s : Situation σ} {q : Query}
      {next : q.Answer → Prog Query Query.Answer (Except Failure PassOutcome)}
      (hidle : s.rest = none) (hcalm : calm s.store) (hpass : (ctx.pass key).run = .ask q next) :
      Step w others calm ctx key s ⟨(w.answer q s.store).2, some (next (w.answer q s.store).1)⟩
  | turn {s : Situation σ} {q : Query}
      {next : q.Answer → Prog Query Query.Answer (Except Failure PassOutcome)}
      (hrest : s.rest = some (.ask q next)) :
      Step w others calm ctx key s ⟨(w.answer q s.store).2, some (next (w.answer q s.store).1)⟩
  | stop {s : Situation σ} : Step w others calm ctx key s { s with rest := none }

inductive Reaches (w : Surroundings σ) (others : σ → σ → Prop) (calm : σ → Prop) (ctx : Context)
    (key : Key) (store : σ) : Situation σ → Prop
  | init : Reaches w others calm ctx key store ⟨store, none⟩
  | step {s t : Situation σ} (hreaches : Reaches w others calm ctx key store s)
      (hstep : Step w others calm ctx key s t) : Reaches w others calm ctx key store t

variable {w : Surroundings σ} {others : σ → σ → Prop} {calm : σ → Prop} {ctx : Context} {key : Key}
  {store : σ}

/-- What others keep and every pass keeps holds in all states. -/
theorem Reaches.keeps {I : σ → Prop} (hinit : I store) (hrefl : ∀ s, others s s)
    (htrans : ∀ {a b c}, others a b → others b c → others a c)
    (hothers : ∀ s t, others s t → I s → I t)
    (hpass : ∀ s q next, calm s → I s → (ctx.pass key).run = .ask q next →
      I (w.answer q s).2 ∧ (next (w.answer q s).1).Keeps w.answer others I (fun _ _ => True)
        (w.answer q s).2) {s : Situation σ} (h : Reaches w others calm ctx key store s) :
    I s.store ∧ ∀ p, s.rest = some p → p.Keeps w.answer others I (fun _ _ => True) s.store := by
  induction h with
  | init => exact ⟨hinit, by simp⟩
  | @step s t _ hstep ih =>
    obtain ⟨hI, hrest⟩ := ih
    cases hstep with
    | others hs =>
      refine ⟨hothers _ _ hs hI, fun p hp => ?_⟩
      exact (hrest p hp).after hs htrans fun _ _ _ _ _ => trivial
    | @start q next _ hcalm hp =>
      obtain ⟨hafter, hnext⟩ := hpass s.store q next hcalm hI hp
      refine ⟨hafter, fun p hsome => ?_⟩
      cases hsome
      exact hnext
    | @turn q next hask =>
      obtain ⟨hafter, hnext⟩ := hrest _ hask s.store (hrefl _)
      refine ⟨hafter, fun p hsome => ?_⟩
      cases hsome
      exact hnext
    | stop => exact ⟨hI, by simp⟩

/-- What others keep and every pass keeps holds in all states between passes. -/
theorem Reaches.keeps_of_pass {I : σ → Prop} (hinit : I store) (hrefl : ∀ s, others s s)
    (htrans : ∀ {a b c}, others a b → others b c → others a c)
    (hothers : ∀ s t, others s t → I s → I t)
    (hpass : ∀ s, I s → (ctx.pass key).Keeps w others I (fun _ _ => True) s) {s : Situation σ}
    (h : Reaches w others calm ctx key store s) : I s.store := by
  refine (h.keeps hinit hrefl htrans hothers fun s q next _ hs hask => ?_).1
  have hkeeps := hpass s hs
  rw [Action.Keeps, hask] at hkeeps
  exact hkeeps s (hrefl s)

/-- A program that is under way may go on alone to its end. -/
theorem Reaches.run {s : σ} {p : Prog Query Query.Answer (Except Failure PassOutcome)}
    (h : Reaches w others calm ctx key store ⟨s, some p⟩) : Reaches w others calm ctx key store
      ⟨(p.run w.answer s).2, some (.done (p.run w.answer s).1)⟩ := by
  induction p generalizing s with
  | done a => exact h
  | ask q next ih => exact ih _ (h.step (.turn rfl))

/-- A pass that starts may go on alone to its end. -/
theorem Reaches.pass {s : σ} (h : Reaches w others calm ctx key store ⟨s, none⟩)
    (hcalm : calm s) : Reaches w others calm ctx key store
      ⟨((ctx.pass key).exec w s).2, some (.done ((ctx.pass key).exec w s).1)⟩ :=
  (h.step (.start rfl hcalm rfl)).run

end Situation
end MailCapture
