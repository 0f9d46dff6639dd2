import MailCapture.Controller
import MailCapture.Proofs.Turns
/-!
Stores that are used by one client at a time: reads show what is stored, and what fails changes
nothing.  What a write makes of the stored objects is left open.
-/
namespace MailCapture

structure Contents where
  object? : Kind → Key → Option Manifest
  record? : Key → Option Instance
  pods : String → String → List Manifest

structure Surroundings (σ : Type) where
  reply : (c : StoreCall) → σ → Except Failure c.Answer × σ
  emit : Effect → σ → σ
  contents : σ → Contents

namespace Surroundings
variable {σ : Type}

def answer (w : Surroundings σ) : (q : Query) → σ → q.Answer × σ
  | .call c, s => w.reply c s
  | .emit e, s => ((), w.emit e s)

def Reads (w : Surroundings σ) (c : StoreCall) (s : σ) (a : c.Answer) : Prop :=
  (w.reply c s).1 = .ok a ∧ w.contents (w.reply c s).2 = w.contents s

structure IsSequential (w : Surroundings σ) : Prop where
  get : ∀ kind key s, w.Reads (.get kind key) s ((w.contents s).object? kind key)
  list : ∀ ns selector s, w.Reads (.list .pod ns selector) s ((w.contents s).pods ns selector)
  getInstance : ∀ key s, w.Reads (.getInstance key) s ((w.contents s).record? key)
  emit : ∀ e s, w.contents (w.emit e s) = w.contents s
  /-- a failed call changes nothing -/
  failed : ∀ c s f, (w.reply c s).1 = .error f → w.contents (w.reply c s).2 = w.contents s
  /-- what is stored is found when it is to be deleted -/
  delete : ∀ kind key grace s what, ((w.contents s).object? kind key).isSome = true →
    (w.reply (.delete kind key grace) s).1 ≠ .error (.notFound what)

end Surroundings

def Query.Looks : Query → Prop
  | .call (.get _ _) => True
  | .call (.list kind _ _) => kind = .pod
  | .call (.getInstance _) => True
  | .call _ => False
  | .emit _ => True

theorem Surroundings.IsSequential.contents_answer {σ : Type} {w : Surroundings σ}
    (hw : w.IsSequential) {q : Query} (h : q.Looks) (s : σ) :
    w.contents (w.answer q s).2 = w.contents s := by
  cases q with
  | emit e => exact hw.emit e s
  | call c =>
    cases c with
    | get kind key => exact (hw.get kind key s).2
    | list kind ns selector =>
      cases h
      exact (hw.list ns selector s).2
    | getInstance key => exact (hw.getInstance key s).2
    | _ => exact h.elim

theorem Prog.contents_run {σ α : Type} {w : Surroundings σ} (hw : w.IsSequential)
    (p : Prog Query Query.Answer α) (s : σ) (h : ∀ turn ∈ p.trace w.answer s, turn.1.Looks) :
    w.contents (p.run w.answer s).2 = w.contents s := by
  induction p generalizing s with
  | done a => rfl
  | ask q next ih =>
    obtain ⟨hfirst, hrest⟩ := List.forall_mem_cons.1 h
    exact (ih _ _ hrest).trans (hw.contents_answer hfirst s)

namespace Action
variable {α β σ : Type}

def exec (x : Action α) (w : Surroundings σ) (s : σ) : Except Failure α × σ :=
  x.run.run w.answer s

def turns (x : Action α) (w : Surroundings σ) (s : σ) : List Turn := x.run.trace w.answer s

variable (w : Surroundings σ) (s : σ)

@[simp] theorem exec_call (c : StoreCall) : (call c).exec w s = w.reply c s := rfl

@[simp] theorem exec_attempt (c : StoreCall) :
    (attempt c).exec w s = (.ok (w.reply c s).1, (w.reply c s).2) := rfl

@[simp] theorem exec_emit (e : Effect) : (emit e).exec w s = (.ok (), w.emit e s) := rfl

variable {w s} {x : Action α} {f : α → Action β}

theorem exec_bind_ok {a : α} {s' : σ} (h : x.exec w s = (.ok a, s')) :
    (x >>= f).exec w s = (f a).exec w s' := by
  unfold exec at h ⊢
  rw [run_bind, Prog.run_bind, h]

theorem turns_bind_ok {a : α} {s' : σ} (h : x.exec w s = (.ok a, s')) :
    (x >>= f).turns w s = x.turns w s ++ (f a).turns w s' := by
  unfold exec at h
  unfold turns
  rw [run_bind, Prog.trace_bind, h]

theorem exec_bind_error {e : Failure} {s' : σ} (h : x.exec w s = (.error e, s')) :
    (x >>= f).exec w s = (.error e, s') := by
  unfold exec at h ⊢
  rw [run_bind, Prog.run_bind, h]
  rfl

theorem exec_bind_eq_ok {b : β} {s' : σ} (h : (x >>= f).exec w s = (.ok b, s')) :
    ∃ a t, x.exec w s = (.ok a, t) ∧ (f a).exec w t = (.ok b, s') := by
  cases hx : x.exec w s with
  | mk r t =>
    cases r with
    | ok a => exact ⟨a, t, rfl, by rw [← h, exec_bind_ok hx]⟩
    | error e =>
      rw [exec_bind_error hx] at h
      cases h

/-- What an action ensures whatever it is answered holds in any surroundings. -/
theorem Ensures.turns {P : List Turn → Except Failure α → Prop} (h : x.Ensures P) :
    P (x.turns w s) (x.exec w s).1 := h _ _ (Prog.runs_trace w.answer x.run s)

theorem Ensures.exec {P : List Turn → Except Failure α → Prop} (h : x.Ensures P) :
    ∃ turns, P turns (x.exec w s).1 := ⟨_, h.turns⟩

/-- An action that may end without a turn is done. -/
theorem exec_of_runs_nil {r : Except Failure α} (h : x.run.Runs [] r) :
    x.exec w s = (r, s) ∧ x.turns w s = [] := by
  unfold exec turns
  rw [h.eq_done]
  exact ⟨rfl, rfl⟩

theorem exec_read_bind {c : StoreCall} {a : c.Answer} {f : c.Answer → Action β}
    (h : w.Reads c s a) : (call c >>= f).exec w s = (f a).exec w (w.reply c s).2 :=
  exec_bind_ok (by rw [exec_call, ← h.1])

/-- An action that only looks leaves the store as it is. -/
theorem contents_exec (hw : w.IsSequential) (h : ∀ turn ∈ x.turns w s, turn.1.Looks) :
    w.contents (x.exec w s).2 = w.contents s := Prog.contents_run hw x.run s h

theorem turns_read_bind {c : StoreCall} {a : c.Answer} {f : c.Answer → Action β}
    (h : w.Reads c s a) :
    (call c >>= f).turns w s = ⟨.call c, .ok a⟩ :: (f a).turns w (w.reply c s).2 := by
  unfold turns
  rw [run_bind]
  show ⟨.call c, (w.reply c s).1⟩ ::
    ((Prog.done (w.reply c s).1).bind _).trace w.answer (w.reply c s).2 = _
  rw [h.1]
  rfl

end Action

/-! ### What is written -/

def Query.isWrite : Query → Bool
  | .call c => Shift.isWrite c
  | .emit _ => false

def attempted (turns : List Turn) : List Turn := turns.filter (·.1.isWrite)

namespace Action
variable {α β σ : Type}

/-- What an action does in surroundings: the writes on its way, its value, and the state that it
leaves. -/
structure Does (x : Action α) (w : Surroundings σ) (s : σ) (written : List Turn) (a : α) (t : σ) :
    Prop where
  exec : x.exec w s = (.ok a, t)
  writes : attempted (x.turns w s) = written

variable {w : Surroundings σ} {s t u : σ} {x : Action α} {f : α → Action β}
  {written more : List Turn} {a : α} {b : β}

theorem does_pure (a : α) (w : Surroundings σ) (s : σ) : (pure a : Action α).Does w s [] a s :=
  ⟨rfl, rfl⟩

theorem does_emit (e : Effect) (w : Surroundings σ) (s : σ) :
    (emit e).Does w s [] () (w.emit e s) := ⟨rfl, rfl⟩

theorem does_read {c : StoreCall} {a : c.Answer} (h : w.Reads c s a)
    (hc : Shift.isWrite c = false) : (call c).Does w s [] a (w.reply c s).2 := by
  refine ⟨by rw [exec_call, ← h.1], ?_⟩
  show attempted [⟨.call c, (w.reply c s).1⟩] = []
  simp [attempted, Query.isWrite, hc]

theorem does_attempt {c : StoreCall} {r : Except Failure c.Answer} (h : w.reply c s = (r, t))
    (hc : Shift.isWrite c = true) : (attempt c).Does w s [⟨.call c, r⟩] r t := by
  refine ⟨by rw [exec_attempt, h], ?_⟩
  show attempted [⟨.call c, (w.reply c s).1⟩] = _
  rw [h]
  exact List.filter_cons_of_pos hc

theorem does_write {c : StoreCall} {a : c.Answer} (h : w.reply c s = (.ok a, t))
    (hc : Shift.isWrite c = true) : (call c).Does w s [⟨.call c, .ok a⟩] a t := by
  refine ⟨by rw [exec_call, h], ?_⟩
  show attempted [⟨.call c, (w.reply c s).1⟩] = _
  rw [h]
  exact List.filter_cons_of_pos hc

theorem Does.bind (hx : x.Does w s written a t) (hf : (f a).Does w t more b u) :
    (x >>= f).Does w s (written ++ more) b u := by
  refine ⟨(exec_bind_ok hx.exec).trans hf.exec, ?_⟩
  rw [turns_bind_ok hx.exec]
  rw [attempted, List.filter_append]
  exact congr (congrArg _ hx.writes) hf.writes

end Action
end MailCapture
