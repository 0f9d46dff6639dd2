import MailCapture.Pass
import MailCapture.Proofs.Classify
import MailCapture.Proofs.Turns
/-!
A pass makes at most one write that succeeds, and it makes it last: nothing fails afterwards.  A
failure that the operator has no use for ends the pass at once.  Nothing is assumed of the answers.
-/
namespace MailCapture

namespace Turn

def isWrite : Turn → Bool
  | ⟨.call (.create _ _), .ok _⟩ => true
  | ⟨.call (.replace _ _), .ok _⟩ => true
  | ⟨.call (.delete _ _ _), .ok _⟩ => true
  | ⟨.call (.replaceStatus _), .ok _⟩ => true
  | _ => false

def failure? : Turn → Option Failure
  | ⟨.call _, .error f⟩ => some f
  | _ => none

/-- The failures that tell the operator how to go on: another writer created the child first, an
update is refused, and a child is gone already. -/
def isExpected : Turn → Bool
  | ⟨.call (.create _ _), .error (.alreadyExists _)⟩ => true
  | ⟨.call (.replace _ _), .error (.invalid _)⟩ => true
  | ⟨.call (.delete _ _ _), .error (.notFound _)⟩ => true
  | _ => false

@[simp] theorem isWrite_emit (e : Effect) : isWrite ⟨.emit e, ()⟩ = false := rfl

@[simp] theorem failure?_emit (e : Effect) : failure? ⟨.emit e, ()⟩ = none := rfl

@[simp] theorem isWrite_error (c : StoreCall) (f : Failure) :
    isWrite ⟨.call c, .error f⟩ = false := by cases c <;> rfl

@[simp] theorem failure?_error (c : StoreCall) (f : Failure) :
    failure? ⟨.call c, .error f⟩ = some f := rfl

@[simp] theorem failure?_ok (c : StoreCall) (a : c.Answer) :
    failure? ⟨.call c, .ok a⟩ = none := rfl

end Turn

def writes (turns : List Turn) : Nat := turns.countP Turn.isWrite

@[simp] theorem writes_nil : writes [] = 0 := rfl

@[simp] theorem writes_cons (turn : Turn) (turns : List Turn) :
    writes (turn :: turns) = writes turns + if turn.isWrite then 1 else 0 := List.countP_cons

@[simp] theorem writes_append (first rest : List Turn) :
    writes (first ++ rest) = writes first + writes rest := List.countP_append

def EndsAtFailure {α : Type} (turns : List Turn) (r : Except Failure α) : Prop :=
  ∀ before turn after f, turns = before ++ turn :: after → turn.failure? = some f →
    turn.isExpected = false → after = [] ∧ r = .error f

section
variable {α β : Type} {r : Except Failure α}

@[simp] theorem endsAtFailure_nil : EndsAtFailure [] r := by
  intro before turn after f h
  simp at h

@[simp] theorem endsAtFailure_cons (turn : Turn) (turns : List Turn) :
    EndsAtFailure (turn :: turns) r ↔
      (∀ f, turn.failure? = some f → turn.isExpected = false → turns = [] ∧ r = .error f) ∧
        EndsAtFailure turns r := by
  constructor
  · intro h
    refine ⟨fun f hf he => h [] turn turns f rfl hf he, ?_⟩
    intro before turn' after f ht hf he
    exact h (turn :: before) turn' after f (by rw [ht, List.cons_append]) hf he
  · rintro ⟨hhead, htail⟩ before turn' after f ht hf he
    cases before with
    | nil =>
      obtain ⟨rfl, rfl⟩ := List.cons.inj ht
      exact hhead f hf he
    | cons first before =>
      obtain ⟨rfl, rfl⟩ := List.cons.inj ht
      exact htail before turn' after f rfl hf he

theorem EndsAtFailure.append {turns more : List Turn} {a : β}
    (h : EndsAtFailure turns (.ok a : Except Failure β)) (hmore : EndsAtFailure more r) :
    EndsAtFailure (turns ++ more) r := by
  induction turns with
  | nil => exact hmore
  | cons turn turns ih =>
    rw [endsAtFailure_cons] at h
    rw [List.cons_append, endsAtFailure_cons]
    refine ⟨fun f hf he => ?_, ih h.2⟩
    have hr := (h.1 f hf he).2
    cases hr

end

/-- The turns of a run account for its result: a failure wrote nothing, and a value is as `P` has
it. -/
structure Accounted {α : Type} (P : List Turn → α → Prop) (turns : List Turn)
    (r : Except Failure α) : Prop where
  ends : EndsAtFailure turns r
  failed : ∀ f, r = .error f → writes turns = 0
  done : ∀ a, r = .ok a → P turns a

/-- Whether a relation between turns and values does not mind turns before them that write nothing.
-/
def IgnoresReads {α : Type} (P : List Turn → α → Prop) : Prop :=
  ∀ turns more a, writes turns = 0 → P more a → P (turns ++ more) a

section
variable {α β : Type} {P : List Turn → α → Prop} {turns more : List Turn} {r : Except Failure α}

theorem Accounted.prepend {b : β} (hP : IgnoresReads P)
    (he : EndsAtFailure turns (.ok b : Except Failure β)) (hw : writes turns = 0)
    (h : Accounted P more r) : Accounted P (turns ++ more) r where
  ends := he.append h.ends
  failed := fun f hf => by rw [writes_append, hw, h.failed f hf]
  done := fun a ha => hP turns more a hw (h.done a ha)

/-- A turn that writes nothing and fails only in an expected way may stand in front. -/
theorem Accounted.cons {turn : Turn} (hP : IgnoresReads P) (hw : turn.isWrite = false)
    (he : turn.failure? = none ∨ turn.isExpected = true) (h : Accounted P turns r) :
    Accounted P (turn :: turns) r := by
  have hends : EndsAtFailure [turn] (.ok () : Except Failure Unit) := by
    rw [endsAtFailure_cons]
    refine ⟨fun f hf hx => ?_, endsAtFailure_nil⟩
    cases he with
    | inl hn => rw [hn] at hf; cases hf
    | inr hx' => rw [hx'] at hx; cases hx
  exact Accounted.prepend hP hends (by simp [hw]) h

theorem accounted_pure {a : α} (h : P [] a) : Accounted P [] (.ok a) where
  ends := endsAtFailure_nil
  failed := by simp
  done := fun _ ha => by cases ha; exact h

theorem accounted_fail (f : Failure) : Accounted P [] (.error f) where
  ends := endsAtFailure_nil
  failed := fun _ _ => rfl
  done := by simp

theorem accounted_failed (c : StoreCall) (f : Failure) :
    Accounted P [⟨.call c, .error f⟩] (.error f) where
  ends := by simp
  failed := by simp
  done := by simp

theorem Accounted.error {Q : List Turn → β → Prop} {f : Failure}
    (h : Accounted P turns (.error f)) : Accounted Q turns (.error f) where
  ends := by
    intro before turn after g ht hg hx
    obtain ⟨hafter, hr⟩ := h.ends before turn after g ht hg hx
    cases hr
    exact ⟨hafter, rfl⟩
  failed := fun _ _ => h.failed f rfl
  done := fun _ ha => by cases ha

def ReadsOnly (turns : List Turn) (_ : α) : Prop := writes turns = 0

theorem ignoresReads_readsOnly : IgnoresReads (ReadsOnly (α := α)) := by
  intro turns more a hw h
  rw [ReadsOnly, writes_append, hw, h]

theorem accounted_read (c : StoreCall) (hc : ∀ a, Turn.isWrite ⟨.call c, .ok a⟩ = false) :
    (Action.call c).Ensures (Accounted ReadsOnly) := by
  rintro turns r ⟨_, rest, rfl, rfl, rfl⟩
  cases r with
  | error e => exact accounted_failed c e
  | ok a =>
    refine ⟨by simp, by simp, fun _ _ => ?_⟩
    show writes [⟨.call c, .ok a⟩] = 0
    simp [hc a]

theorem accounted_bind {x : Action β} {f : β → Action α} (hP : IgnoresReads P)
    (hx : x.Ensures (Accounted ReadsOnly)) (hf : ∀ b, (f b).Ensures (Accounted P)) :
    (x >>= f).Ensures (Accounted P) :=
  hx.bind (fun _ _ h => h.error) fun _ b h => (hf b).mono fun _ _ hmore =>
    hmore.prepend hP h.ends (h.done b rfl)

end

namespace Instance

def SawTerminating (i : Instance) (turns : List Turn) : Prop :=
  ∃ (kind : ChildKind) (m : Manifest), kind.isSelected i.spec = true ∧
    (⟨.call (.get kind.kind i.key), .ok (some m)⟩ : Turn) ∈ turns ∧ m.isTerminating = true

def LostRejected (i : Instance) (turns : List Turn) : Prop :=
  ∃ before kind m why what, turns = before ++
    [(⟨.call (.replace kind m), .error (.invalid why)⟩ : Turn),
      ⟨.call (.delete kind i.key graceSeconds), .error (.notFound what)⟩]

def WroteOrWaits (i : Instance) (turns : List Turn) : Prop :=
  writes turns = 1 ∨ (writes turns = 0 ∧ (i.SawTerminating turns ∨ i.LostRejected turns))

def StepAccount (i : Instance) (turns : List Turn) (outcome : SyncOutcome) : Prop :=
  if outcome.endsPass then i.WroteOrWaits turns else writes turns = 0

theorem WroteOrWaits.prepend {i : Instance} {turns more : List Turn} (hw : writes turns = 0)
    (h : i.WroteOrWaits more) : i.WroteOrWaits (turns ++ more) := by
  cases h with
  | inl hone => exact Or.inl (by rw [writes_append, hw, hone])
  | inr hnone =>
    refine Or.inr ⟨by rw [writes_append, hw, hnone.1], ?_⟩
    cases hnone.2 with
    | inl hsaw =>
      obtain ⟨kind, m, hs, hm, ht⟩ := hsaw
      exact Or.inl ⟨kind, m, hs, List.mem_append_right turns hm, ht⟩
    | inr hlost =>
      obtain ⟨before, kind, m, why, what, rfl⟩ := hlost
      exact Or.inr ⟨turns ++ before, kind, m, why, what, by rw [List.append_assoc]⟩

theorem ignoresReads_step (i : Instance) : IgnoresReads i.StepAccount := by
  intro turns more outcome hw h
  unfold StepAccount at h ⊢
  split
  · rename_i he
    rw [if_pos he] at h
    exact h.prepend hw
  · rename_i he
    rw [if_neg he] at h
    rw [writes_append, hw, h]

/-! ### One child -/

theorem accounted_reported (i : Instance) {turn : Turn} (hw : turn.isWrite = true)
    (hf : turn.failure? = none) (e e' : Effect) {outcome : SyncOutcome}
    (ho : outcome.endsPass = true) :
    Accounted i.StepAccount [turn, ⟨.emit e, ()⟩, ⟨.emit e', ()⟩] (.ok outcome) where
  ends := by simp [hf]
  failed := by simp
  done := by
    rintro _ ⟨⟩
    rw [StepAccount, if_pos ho]
    exact Or.inl (by simp [hw])

theorem accounted_unchanged (i : Instance) : Accounted i.StepAccount [] (.ok .unchanged) :=
  accounted_pure rfl

/-- Waiting for a deletion is right when the read just before saw it. -/
theorem accounted_awaitDeletion (i : Instance) {kind : ChildKind} {m : Manifest}
    (ht : m.isTerminating = true) {selected : Bool}
    (hs : selected = true → kind.isSelected i.spec = true) :
    Accounted i.StepAccount [⟨.call (.get kind.kind i.key), .ok (some m)⟩]
      (.ok (awaitDeletion selected)) where
  ends := (endsAtFailure_cons _ _).2 ⟨fun _ hf => (by cases hf), endsAtFailure_nil⟩
  failed := by simp
  done := by
    rintro _ ⟨⟩
    cases selected with
    | false => rfl
    | true => exact Or.inr ⟨rfl, Or.inl ⟨kind, m, hs rfl, List.mem_cons_self, ht⟩⟩

theorem updateChild_accounted (i : Instance) (kind : ChildKind) (m : Manifest) :
    (i.updateChild kind m).Ensures (Accounted i.StepAccount) := by
  unfold updateChild
  rw [Action.ensures_attempt_bind]
  intro a
  cases a with
  | ok stored =>
    simp only [report, Action.ensures_bind_assoc, Action.ensures_emit_bind, Action.ensures_pure]
    exact i.accounted_reported rfl rfl _ _ rfl
  | error f =>
    cases f
    case invalid why =>
      rw [Action.ensures_attempt_bind]
      intro b
      cases b with
      | ok u =>
        simp only [report, Action.ensures_bind_assoc, Action.ensures_emit_bind,
          Action.ensures_pure]
        exact (i.accounted_reported rfl rfl _ _ rfl).cons i.ignoresReads_step rfl (Or.inr rfl)
      | error g =>
        cases g
        case notFound what =>
          rw [Action.ensures_pure]
          refine ⟨by simp [Turn.isExpected], by simp, ?_⟩
          rintro _ ⟨⟩
          exact Or.inr ⟨by simp, Or.inr ⟨[], kind.kind, m, why, what, rfl⟩⟩
        all_goals
          rw [Action.ensures_fail]
          exact (accounted_failed _ _).cons i.ignoresReads_step rfl (Or.inr rfl)
    all_goals
      rw [Action.ensures_fail]
      exact accounted_failed _ _

theorem deleteChild_accounted (i : Instance) (kind : ChildKind) :
    (i.deleteChild kind).Ensures (Accounted i.StepAccount) := by
  unfold deleteChild
  rw [Action.ensures_attempt_bind]
  intro a
  cases a with
  | ok u =>
    simp only [report, Action.ensures_bind_assoc, Action.ensures_emit_bind, Action.ensures_pure]
    exact i.accounted_reported rfl rfl _ _ rfl
  | error f =>
    cases f
    case notFound what =>
      rw [Action.ensures_pure]
      exact i.accounted_unchanged.cons i.ignoresReads_step rfl (Or.inr rfl)
    all_goals
      rw [Action.ensures_fail]
      exact accounted_failed _ _

/-- What follows the second read of a child that another writer created first. -/
theorem afterLostCreate_accounted (i : Instance) (kind : ChildKind) (m d : Manifest)
    (hs : kind.isSelected i.spec = true) :
    (match classify (some m) (some d) with
      | .stale replacement => i.updateChild kind replacement
      | .terminating selected => pure (awaitDeletion selected)
      | _ => pure .unchanged : Action SyncOutcome).Ensures (fun turns r =>
        Accounted i.StepAccount (⟨.call (.get kind.kind i.key), .ok (some m)⟩ :: turns) r) := by
  have hd := classify_describes (some m) (some d)
  cases hc : classify (some m) (some d) with
  | stale replacement =>
    exact (i.updateChild_accounted kind replacement).mono fun _ _ h =>
      h.cons i.ignoresReads_step rfl (Or.inl rfl)
  | terminating selected =>
    rw [hc] at hd
    obtain ⟨_, ⟨⟩, ht, rfl⟩ := hd
    exact (Action.ensures_pure _).2 (i.accounted_awaitDeletion ht fun _ => hs)
  | absent d' =>
    exact (Action.ensures_pure _).2
      (i.accounted_unchanged.cons i.ignoresReads_step rfl (Or.inl rfl))
  | inSync =>
    exact (Action.ensures_pure _).2
      (i.accounted_unchanged.cons i.ignoresReads_step rfl (Or.inl rfl))
  | shouldNotExist =>
    exact (Action.ensures_pure _).2
      (i.accounted_unchanged.cons i.ignoresReads_step rfl (Or.inl rfl))
  | notSelected =>
    exact (Action.ensures_pure _).2
      (i.accounted_unchanged.cons i.ignoresReads_step rfl (Or.inl rfl))

theorem createChild_accounted (i : Instance) (kind : ChildKind) (d : Manifest)
    (hs : kind.isSelected i.spec = true) :
    (i.createChild kind d).Ensures (Accounted i.StepAccount) := by
  unfold createChild
  rw [Action.ensures_attempt_bind]
  intro a
  cases a with
  | ok stored =>
    simp only [report, Action.ensures_bind_assoc, Action.ensures_emit_bind, Action.ensures_pure]
    exact i.accounted_reported rfl rfl _ _ rfl
  | error f =>
    cases f
    case alreadyExists what =>
      refine (Action.ensures_call_bind _ _).2 ⟨fun e => ?_, fun found => ?_⟩
      · exact (accounted_failed _ e).cons i.ignoresReads_step rfl (Or.inr rfl)
      · cases found with
        | none =>
          rw [Action.ensures_fail]
          exact ((accounted_fail _).cons i.ignoresReads_step rfl (Or.inl rfl)).cons
            i.ignoresReads_step rfl (Or.inr rfl)
        | some m =>
          exact (i.afterLostCreate_accounted kind m d.stamp hs).mono fun _ _ h =>
            h.cons i.ignoresReads_step rfl (Or.inr rfl)
    all_goals
      rw [Action.ensures_fail]
      exact accounted_failed _ _

theorem syncChild_accounted (i : Instance) (unserved : List ChildKind) (kind : ChildKind) :
    (i.syncChild unserved kind).Ensures (Accounted i.StepAccount) := by
  unfold syncChild
  by_cases hu : unserved.contains kind = true
  · rw [if_pos hu, Action.ensures_pure]
    exact i.accounted_unchanged
  · rw [if_neg hu]
    cases hd : i.adopted kind with
    | error f => exact (Action.ensures_fail_bind f _).2 (accounted_fail f)
    | ok desired =>
      have hs := isSelected_of_adopted hd
      refine (Action.ensures_pure_bind desired _).2 ?_
      refine (Action.ensures_call_bind _ _).2 ⟨fun e => accounted_failed _ e, fun observed => ?_⟩
      have hread {turns : List Turn} {r : Except Failure SyncOutcome}
          (h : Accounted i.StepAccount turns r) : Accounted i.StepAccount
            (⟨.call (.get kind.kind i.key), .ok observed⟩ :: turns) r :=
        h.cons i.ignoresReads_step rfl (Or.inl rfl)
      have hc := classify_describes observed desired
      cases he : classify observed desired with
      | inSync => exact (Action.ensures_pure _).2 (hread i.accounted_unchanged)
      | notSelected => exact (Action.ensures_pure _).2 (hread i.accounted_unchanged)
      | absent d =>
        rw [he] at hc
        rw [hc.2] at hs
        exact (i.createChild_accounted kind d hs.symm).mono fun _ _ h => hread h
      | stale replacement =>
        exact (i.updateChild_accounted kind replacement).mono fun _ _ h => hread h
      | shouldNotExist => exact (i.deleteChild_accounted kind).mono fun _ _ h => hread h
      | terminating selected =>
        rw [he] at hc
        obtain ⟨m, rfl, ht, rfl⟩ := hc
        exact (Action.ensures_pure _).2 (i.accounted_awaitDeletion ht fun h => hs ▸ h)

/-! ### All children -/

def ChildrenAccount (i : Instance) (turns : List Turn) (ended : Bool) : Prop :=
  if ended then i.WroteOrWaits turns else writes turns = 0

theorem ignoresReads_children (i : Instance) : IgnoresReads i.ChildrenAccount := by
  intro turns more ended hw h
  cases ended with
  | true => exact WroteOrWaits.prepend hw h
  | false =>
    show writes (turns ++ more) = 0
    rw [writes_append, hw]
    simpa [ChildrenAccount] using h

theorem syncChildren_accounted (i : Instance) (unserved kinds : List ChildKind) :
    (i.syncChildren unserved kinds).Ensures (Accounted i.ChildrenAccount) := by
  induction kinds with
  | nil => exact (Action.ensures_pure _).2 (accounted_pure rfl)
  | cons kind rest ih =>
    refine (i.syncChild_accounted unserved kind).bind ?_ ?_
    · intro turns e h
      exact h.error
    · intro turns outcome h
      have hstep := h.done outcome rfl
      unfold StepAccount at hstep
      cases he : outcome.endsPass with
      | true =>
        rw [if_pos he] at hstep
        rw [if_pos rfl, Action.ensures_pure, List.append_nil]
        refine ⟨?_, by simp, ?_⟩
        · have hends : EndsAtFailure (turns ++ []) (.ok true : Except Failure Bool) :=
            h.ends.append endsAtFailure_nil
          simpa using hends
        · rintro _ ⟨⟩
          exact hstep
      | false =>
        rw [if_neg (by simp [he])] at hstep
        exact ih.mono fun more r hmore => hmore.prepend i.ignoresReads_children h.ends hstep

/-! ### The status -/

def StatusAccount (turns : List Turn) : StatusOutcome → Prop
  | .unchanged => writes turns = 0
  | .written => writes turns = 1

theorem ignoresReads_status : IgnoresReads StatusAccount := by
  intro turns more outcome hw h
  cases outcome <;> simpa [StatusAccount, hw] using h

theorem writeStatus_accounted (i : Instance) (status : Status) :
    (i.writeStatus status).Ensures (Accounted StatusAccount) := by
  unfold writeStatus
  by_cases hs : i.status = some status
  · rw [if_pos hs, Action.ensures_pure]
    exact accounted_pure rfl
  · rw [if_neg hs]
    refine (Action.ensures_call_bind _ _).2 ⟨fun e => accounted_failed _ e, fun latest => ?_⟩
    have hread {turns : List Turn} {r : Except Failure StatusOutcome}
        (h : Accounted StatusAccount turns r) : Accounted StatusAccount
          (⟨.call (.getInstance i.key), .ok latest⟩ :: turns) r :=
      h.cons ignoresReads_status rfl (Or.inl rfl)
    cases latest with
    | none => exact (Action.ensures_pure _).2 (hread (accounted_pure rfl))
    | some record =>
      refine (Action.ensures_call_bind _ _).2 ⟨fun e => hread (accounted_failed _ e), ?_⟩
      intro stored
      rw [Action.ensures_emit_bind, Action.ensures_pure]
      refine hread ⟨by simp, by simp, ?_⟩
      rintro _ ⟨⟩
      rfl

theorem decoded_accounted {α : Type} (value : Option α) :
    (decoded value).Ensures (Accounted ReadsOnly) := by
  cases value with
  | none => exact (Action.ensures_fail _).2 (accounted_fail _)
  | some a => exact (Action.ensures_pure _).2 (accounted_pure rfl)

theorem shown_accounted {α : Type} (read : Manifest → Option α) (url : α → Option String)
    (found : Option Manifest) :
    (match found with
      | none => pure none
      | some m => (do return url (← decoded (read m)) : Action (Option String))).Ensures
        (Accounted ReadsOnly) := by
  cases found with
  | none => exact (Action.ensures_pure _).2 (accounted_pure rfl)
  | some m =>
    refine accounted_bind ignoresReads_readsOnly (decoded_accounted (read m)) fun a => ?_
    exact (Action.ensures_pure _).2 (accounted_pure rfl)

theorem exposureUrl_accounted (i : Instance) :
    i.exposureUrl.Ensures (Accounted ReadsOnly) := by
  unfold exposureUrl
  cases i.spec.inlet with
  | closed => exact (Action.ensures_pure _).2 (accounted_pure rfl)
  | route =>
    exact accounted_bind ignoresReads_readsOnly (accounted_read _ fun _ => rfl)
      (shown_accounted Route.ofManifest? (·.url? i.spec.settings.webPath))
  | ingress =>
    exact accounted_bind ignoresReads_readsOnly (accounted_read _ fun _ => rfl)
      (shown_accounted Ingress.ofManifest? (·.url? i.spec))

theorem computeStatus_accounted (i : Instance) :
    i.computeStatus.Ensures (Accounted ReadsOnly) := by
  unfold computeStatus
  refine accounted_bind ignoresReads_readsOnly (accounted_read _ fun _ => rfl) fun found => ?_
  refine accounted_bind ignoresReads_readsOnly (decoded_accounted _) fun pods => ?_
  refine accounted_bind ignoresReads_readsOnly i.exposureUrl_accounted fun url => ?_
  exact (Action.ensures_pure _).2 (accounted_pure rfl)

theorem ensureStatus_accounted (i : Instance) :
    i.ensureStatus.Ensures (Accounted StatusAccount) := by
  unfold ensureStatus
  refine accounted_bind ignoresReads_status i.computeStatus_accounted fun status => ?_
  rw [Action.ensures_emit_bind]
  exact (i.writeStatus_accounted status).mono fun _ _ h =>
    h.cons ignoresReads_status rfl (Or.inl rfl)

/-! ### The pass -/

def PassAccount (i : Instance) (turns : List Turn) : PassOutcome → Prop
  | .missing => writes turns = 0
  | .rejected _ => writes turns ≤ 1
  | .progressing => i.WroteOrWaits turns
  | .quiescent => writes turns = 0

theorem ignoresReads_pass (i : Instance) : IgnoresReads i.PassAccount := by
  intro turns more outcome hw h
  cases outcome with
  | missing => simpa [PassAccount, hw] using h
  | rejected message => simpa [PassAccount, hw] using h
  | progressing => exact WroteOrWaits.prepend hw h
  | quiescent => simpa [PassAccount, hw] using h

theorem reject_accounted (i : Instance) (violation : Violation) :
    (i.reject violation).Ensures (Accounted i.PassAccount) := by
  unfold reject
  refine (i.writeStatus_accounted _).bind (fun _ _ h => h.error) ?_
  intro turns outcome h
  have hw := h.done outcome rfl
  cases outcome with
  | unchanged =>
    refine (Action.ensures_pure _).2 ?_
    refine (accounted_pure ?_).prepend i.ignoresReads_pass h.ends hw
    exact Nat.zero_le 1
  | written =>
    refine (Action.ensures_emit_bind _ _).2 ((Action.ensures_pure _).2 ?_)
    refine ⟨h.ends.append (by simp), by simp, ?_⟩
    rintro _ ⟨⟩
    show writes _ ≤ 1
    rw [writes_append, hw]
    simp

theorem settle_accounted (i : Instance) :
    (do match ← i.ensureStatus with
      | .written => return .progressing
      | .unchanged => return .quiescent : Action PassOutcome).Ensures
        (Accounted i.PassAccount) := by
  refine i.ensureStatus_accounted.bind (fun _ _ h => h.error) ?_
  intro turns outcome h
  have hw := h.done outcome rfl
  have hends {r : Except Failure PassOutcome} : EndsAtFailure (turns ++ []) r :=
    h.ends.append endsAtFailure_nil
  cases outcome with
  | unchanged =>
    refine (Action.ensures_pure _).2 ⟨hends, by simp, ?_⟩
    rintro _ ⟨⟩
    show writes (turns ++ []) = 0
    rw [List.append_nil]
    exact hw
  | written =>
    refine (Action.ensures_pure _).2 ⟨hends, by simp, ?_⟩
    rintro _ ⟨⟩
    refine Or.inl ?_
    rw [List.append_nil]
    exact hw

theorem pass_accounted (i : Instance) (unserved : List ChildKind) :
    (i.pass unserved).Ensures (Accounted i.PassAccount) := by
  unfold pass
  cases i.spec.violation? with
  | some violation => exact i.reject_accounted violation
  | none =>
    refine (i.syncChildren_accounted unserved ChildKind.all).bind (fun _ _ h => h.error) ?_
    intro turns ended h
    have hw := h.done ended rfl
    cases ended with
    | true =>
      refine (Action.ensures_pure _).2 ⟨h.ends.append endsAtFailure_nil, by simp, ?_⟩
      rintro _ ⟨⟩
      rw [List.append_nil]
      exact hw
    | false =>
      exact i.settle_accounted.mono fun _ _ hmore => hmore.prepend i.ignoresReads_pass h.ends hw

end Instance

namespace Context

/-- Whatever a pass is answered, it writes at most once, and not at all if it fails, finds no record
or is quiescent.  A pass that is progressing without a write has seen a wanted child that is being
deleted, or a child of which the update was refused and that was gone before it could be deleted. -/
theorem pass_single_write (ctx : Context) (key : Key) (turns : List Turn)
    (result : Except Failure PassOutcome) (h : (ctx.pass key).run.Runs turns result) :
    writes turns ≤ 1 ∧
      ((∃ f, result = .error f) ∨ result = .ok .missing ∨ result = .ok .quiescent →
        writes turns = 0) ∧
      (result = .ok .progressing → writes turns = 0 → ∃ i rest,
        turns = ⟨.call (.getInstance key), .ok (some i)⟩ :: rest ∧
          (i.SawTerminating rest ∨ i.LostRejected rest)) ∧
      EndsAtFailure turns result := by
  obtain ⟨answer, rest, rfl, hnext⟩ := h
  cases answer with
  | error e =>
    obtain ⟨rfl, rfl⟩ := hnext
    exact ⟨by simp, by simp, by simp, by simp⟩
  | ok found =>
    cases found with
    | none =>
      obtain ⟨rfl, rfl⟩ := hnext
      exact ⟨Nat.zero_le 1, fun _ => rfl, by simp, (endsAtFailure_cons _ _).2
        ⟨fun _ hf => (by cases hf), endsAtFailure_nil⟩⟩
    | some i =>
      have hp := i.pass_accounted ctx.unserved rest result hnext
      have hw : writes (⟨.call (.getInstance key), .ok (some i)⟩ :: rest) = writes rest := rfl
      rw [hw]
      refine ⟨?_, ?_, ?_, (endsAtFailure_cons _ _).2 ⟨fun _ hf => (by cases hf), hp.ends⟩⟩
      · cases result with
        | error f => simp [hp.failed f rfl]
        | ok outcome =>
          have hdone := hp.done outcome rfl
          cases outcome with
          | missing => exact Nat.le_succ_of_le (Nat.le_of_eq hdone)
          | rejected message => exact hdone
          | progressing =>
            cases hdone with
            | inl hone => exact Nat.le_of_eq hone
            | inr hnone => exact Nat.le_succ_of_le (Nat.le_of_eq hnone.1)
          | quiescent => exact Nat.le_succ_of_le (Nat.le_of_eq hdone)
      · rintro (⟨f, rfl⟩ | rfl | rfl)
        · exact hp.failed f rfl
        · exact hp.done .missing rfl
        · exact hp.done .quiescent rfl
      · rintro rfl hnone
        cases hp.done .progressing rfl with
        | inl hone => rw [hone] at hnone; cases hnone
        | inr hwait => exact ⟨i, rest, rfl, hwait.2⟩

/-- A record without children: the pass creates its workload and ends. -/
theorem pass_single_write_creates :
    let record : Instance :=
      ⟨{ name := some "mail", ns := some "dev", uid := some "u1" }, {}, none⟩
    let child := record.deployment.toManifest
    let owner : OwnerReference :=
      ⟨Instance.apiVersion, Instance.kindName, "mail", "u1", some true, some true⟩
    let turns : List Turn := [
      ⟨.call (.getInstance record.key), .ok (some record)⟩,
      ⟨.call (.get .deployment record.key), .ok none⟩,
      ⟨.call (.create .deployment (child.adoptedBy owner).stamp), .ok child⟩,
      ⟨.emit (.childWritten .deployment .create), ()⟩,
      ⟨.emit (.event (record.childEvent .deployment .create "ChildCreated")), ()⟩]
    (Context.pass {} record.key).run.Runs turns (.ok .progressing) ∧ writes turns ≤ 1 := by
  intro record child owner turns
  have h : (Context.pass {} record.key).run.Runs turns (.ok .progressing) :=
    ⟨_, _, rfl, _, _, rfl, _, _, rfl, _, _, rfl, _, _, rfl, rfl, rfl⟩
  exact ⟨h, (pass_single_write {} record.key turns _ h).1⟩

end Context
end MailCapture
