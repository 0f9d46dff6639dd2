import MailCapture.Proofs.Courses
/-!
What a pass reports of its writes.  Each write of a child that succeeds is counted and published
once, each write of a status that succeeds is counted once, and nothing else is; and the outcome of
a step tells which write succeeded.
-/
namespace MailCapture

namespace Turn

def written? : Turn → Option (Kind × Verb)
  | ⟨.call (.create kind _), .ok _⟩ => some (kind, .create)
  | ⟨.call (.replace kind _), .ok _⟩ => some (kind, .update)
  | ⟨.call (.delete kind _ _), .ok _⟩ => some (kind, .delete)
  | _ => none

def counted? : Turn → Option (Kind × Verb)
  | ⟨.emit (.childWritten kind verb), _⟩ => some (kind.kind, verb)
  | _ => none

def event? : Turn → Option Event
  | ⟨.emit (.event e), _⟩ => some e
  | _ => none

def refused? : Turn → Option Kind
  | ⟨.call (.replace kind _), .error (.invalid _)⟩ => some kind
  | _ => none

def removed? : Turn → Option Kind
  | ⟨.call (.delete kind _ _), .ok _⟩ => some kind
  | ⟨.call (.delete kind _ _), .error (.notFound _)⟩ => some kind
  | _ => none

def writesStatus : Turn → Bool
  | ⟨.call (.replaceStatus _), .ok _⟩ => true
  | _ => false

def countsStatus : Turn → Bool
  | ⟨.emit .statusWritten, _⟩ => true
  | _ => false

end Turn

def written (turns : List Turn) : List (Kind × Verb) := turns.filterMap Turn.written?

def Verb.reason (recreates : Bool) : Verb → String
  | .create => "ChildCreated"
  | .update => "ChildUpdated"
  | .delete => if recreates then "ChildRecreating" else "ChildDeleted"

def Recreates (kind : Kind) (turns : List Turn) : Prop :=
  ∃ before refusal removal after, turns = before ++ refusal :: removal :: after ∧
    Turn.refused? refusal = some kind ∧ Turn.removed? removal = some kind

@[simp] theorem not_recreates_nil (kind : Kind) : ¬ Recreates kind [] := by
  rintro ⟨before, refusal, removal, after, h, _⟩
  simp at h

@[simp] theorem recreates_cons (kind : Kind) (turn : Turn) (turns : List Turn) :
    Recreates kind (turn :: turns) ↔ (turn.refused? = some kind ∧
      ∃ removal ∈ turns.head?, Turn.removed? removal = some kind) ∨ Recreates kind turns := by
  constructor
  · rintro ⟨before, refusal, removal, after, h, hrefused, hremoved⟩
    cases before with
    | nil =>
      cases h
      exact Or.inl ⟨hrefused, removal, rfl, hremoved⟩
    | cons first before =>
      cases h
      exact Or.inr ⟨before, refusal, removal, after, rfl, hrefused, hremoved⟩
  · rintro (⟨hrefused, removal, hhead, hremoved⟩ | ⟨before, refusal, removal, after, rfl, h⟩)
    · obtain ⟨after, rfl⟩ := List.head?_eq_some_iff.1 hhead
      exact ⟨[], turn, removal, after, rfl, hrefused, hremoved⟩
    · exact ⟨turn :: before, refusal, removal, after, rfl, h⟩

namespace Instance

def announcement (i : Instance) (refused : Option Kind) (kind : Kind) (verb : Verb) : Event :=
  ⟨verb.reason (refused = some kind), false, verb.action,
    some (kind.name ++ " " ++ i.name ++ " " ++ verb.text ++ "d"), i.reference⟩

def announced (i : Instance) : Option Kind → List Turn → List Event
  | _, [] => []
  | refused, turn :: turns =>
    (turn.written?.map (fun write => i.announcement refused write.1 write.2)).toList ++
      i.announced turn.refused? turns

/-- Whether turns report what was written in them: the counted writes of children are those that
succeeded, in their order, one event beside the warnings is published for each, and a status is
counted as often as the write of one succeeded. -/
structure Audited (i : Instance) (refused : Option Kind) (turns : List Turn) : Prop where
  counted : turns.filterMap Turn.counted? = written turns
  published : (turns.filterMap Turn.event?).filter (!·.isWarning) = i.announced refused turns
  statuses : turns.countP Turn.countsStatus = turns.countP Turn.writesStatus

structure Faithful (kind : Kind) (turns : List Turn) (r : Except Failure SyncOutcome) : Prop where
  created : r = .ok .created ↔ (kind, .create) ∈ written turns
  updated : r = .ok .updated ↔ (kind, .update) ∈ written turns
  deleted : r = .ok .deleted ↔
    (kind, .delete) ∈ written turns ∧ ∀ turn ∈ turns, Turn.refused? turn = none
  recreated : r = .ok .recreated ↔ Recreates kind turns
  settled : r = .ok .unchanged ∨ r = .ok .waiting → written turns = []

variable {i : Instance} {kind : ChildKind} {refused : Option Kind} {turns more : List Turn}

/-! ### Reports -/

theorem announced_append (hmore : ∀ later, i.announced later more = i.announced none more) :
    i.announced refused (turns ++ more) = i.announced refused turns ++ i.announced none more := by
  induction turns generalizing refused with
  | nil => exact hmore refused
  | cons turn turns ih =>
    rw [List.cons_append, announced, announced, ih, List.append_assoc]

theorem Audited.append (h : i.Audited refused turns) (hmore : ∀ later, i.Audited later more) :
    i.Audited refused (turns ++ more) where
  counted := by rw [written, List.filterMap_append, List.filterMap_append, h.counted,
    (hmore none).counted, written, written]
  published := by
    have hsame (later : Option Kind) : i.announced later more = i.announced none more :=
      (hmore later).published.symm.trans (hmore none).published
    rw [List.filterMap_append, List.filter_append, announced_append hsame, h.published,
      (hmore none).published]
  statuses := by rw [List.countP_append, List.countP_append, h.statuses, (hmore none).statuses]

theorem audited_nil : i.Audited refused [] := ⟨rfl, rfl, rfl⟩

/-- A turn before that neither writes nor reports. -/
theorem Audited.cons {turn : Turn} (h : i.Audited turn.refused? turns)
    (hw : turn.written? = none) (hc : turn.counted? = none) (he : turn.event? = none)
    (hs : turn.countsStatus = turn.writesStatus) : i.Audited refused (turn :: turns) where
  counted := by
    rw [written, List.filterMap_cons_none hc, List.filterMap_cons_none hw]
    exact h.counted
  published := by
    rw [List.filterMap_cons_none he, announced, hw]
    exact h.published
  statuses := by rw [List.countP_cons, List.countP_cons, hs, h.statuses]

theorem announcement_of_refused : i.announcement (some kind.kind) kind.kind .delete =
    i.childEvent kind .delete "ChildRecreating" := by
  simp [announcement, Verb.reason, childEvent, ChildKind.name]

section
variable {r : Except Failure SyncOutcome}

theorem UpdateCourse.audited {m : Manifest} (h : i.UpdateCourse kind m turns r) :
    i.Audited refused turns := by
  cases h with
  | recreated why => exact ⟨rfl, (congrArg (fun e => [e]) announcement_of_refused).symm, rfl⟩
  | _ => exact ⟨rfl, rfl, rfl⟩

theorem CreateCourse.audited {d : Manifest} (h : i.CreateCourse kind d turns r) :
    i.Audited refused turns := by
  cases h with
  | updates what o _ _ hupdate =>
    exact (hupdate.audited.cons rfl rfl rfl rfl).cons rfl rfl rfl rfl
  | _ => exact ⟨rfl, rfl, rfl⟩

/-- A deletion that follows no refused update. -/
theorem DeleteCourse.audited (h : i.DeleteCourse kind turns r) : i.Audited none turns := by
  cases h <;> exact ⟨rfl, rfl, rfl⟩

theorem StepCourse.audited {unserved : List ChildKind} (h : i.StepCourse unserved kind turns r) :
    i.Audited refused turns := by
  cases h with
  | creates d _ _ hcreate => exact hcreate.audited.cons rfl rfl rfl rfl
  | updates o d _ _ _ _ hupdate => exact hupdate.audited.cons rfl rfl rfl rfl
  | deletes o _ _ _ hdelete => exact hdelete.audited.cons rfl rfl rfl rfl
  | _ => exact ⟨rfl, rfl, rfl⟩

end

section
variable {unserved : List ChildKind}

theorem ChildrenCourse.audited {kinds : List ChildKind} {r : Except Failure Bool}
    (h : i.ChildrenCourse unserved kinds turns r) : i.Audited refused turns := by
  induction h generalizing refused with
  | done => exact audited_nil
  | failed hstep => exact hstep.audited
  | ended hstep _ => exact hstep.audited
  | next hstep _ ih => exact hstep.audited.append fun _ => ih

theorem WriteCourse.audited {status : Status} {r : Except Failure StatusOutcome}
    (h : i.WriteCourse status turns r) : i.Audited refused turns := by
  cases h <;> exact ⟨rfl, rfl, rfl⟩

theorem StatusCourse.audited {r : Except Failure StatusOutcome} (h : i.StatusCourse turns r) :
    i.Audited refused turns := by
  have hcompute {first : List Turn} {s : Except Failure Status} (hc : i.ComputeCourse first s) :
      i.Audited refused first := by
    cases hc <;> exact ⟨rfl, rfl, rfl⟩
  cases h with
  | uncomputed hc => exact hcompute hc
  | computed hc hwrite =>
    exact (hcompute hc).append fun _ => hwrite.audited.cons rfl rfl rfl rfl

theorem RejectCourse.audited {violation : Violation} {r : Except Failure PassOutcome}
    (h : i.RejectCourse violation turns r) : i.Audited refused turns := by
  cases h with
  | failed hwrite => exact hwrite.audited
  | known hwrite => exact hwrite.audited
  | news hwrite => exact hwrite.audited.append fun _ => ⟨rfl, rfl, rfl⟩

theorem PassCourse.audited {r : Except Failure PassOutcome} (h : i.PassCourse unserved turns r) :
    i.Audited refused turns := by
  cases h with
  | rejected _ hreject => exact hreject.audited
  | admitted _ htail =>
    cases htail with
    | failed hchildren => exact hchildren.audited
    | ended hchildren => exact hchildren.audited
    | settled hchildren hstatus => exact hchildren.audited.append fun _ => hstatus.audited

end

/-! ### Outcomes -/

section
variable {r : Except Failure SyncOutcome}

/-- A turn before that writes nothing and refuses no update changes nothing of it. -/
theorem Faithful.cons {kind : Kind} {turn : Turn} (h : Faithful kind turns r)
    (hw : turn.written? = none) (hr : turn.refused? = none) : Faithful kind (turn :: turns) r := by
  have hsame : written (turn :: turns) = written turns := List.filterMap_cons_none hw
  exact {
    created := by rw [hsame, h.created]
    updated := by rw [hsame, h.updated]
    deleted := by rw [hsame, h.deleted, List.forall_mem_cons, and_iff_right hr]
    recreated := by simp [h.recreated, hr]
    settled := by rw [hsame]; exact h.settled }

theorem UpdateCourse.faithful {m : Manifest} (h : i.UpdateCourse kind m turns r) :
    Faithful kind.kind turns r := by
  cases h with
  | stuck why f hf =>
    have hkept : Turn.removed? ⟨.call (.delete kind.kind i.key graceSeconds), .error f⟩ = none := by
      cases f with
      | notFound what => exact absurd rfl (hf what)
      | _ => rfl
    constructor <;> simp [written, Turn.written?, Turn.refused?, hkept]
  | _ => constructor <;> simp [reported, written, Turn.written?, Turn.refused?, Turn.removed?]

theorem CreateCourse.faithful {d : Manifest} (h : i.CreateCourse kind d turns r) :
    Faithful kind.kind turns r := by
  cases h with
  | updates what o _ _ hupdate => exact (hupdate.faithful.cons rfl rfl).cons rfl rfl
  | _ => constructor <;> simp [reported, written, Turn.written?, Turn.refused?]

theorem DeleteCourse.faithful (h : i.DeleteCourse kind turns r) : Faithful kind.kind turns r := by
  cases h <;> constructor <;> simp [reported, written, Turn.written?, Turn.refused?]

theorem StepCourse.faithful {unserved : List ChildKind} (h : i.StepCourse unserved kind turns r) :
    Faithful kind.kind turns r := by
  cases h with
  | creates d _ _ hcreate => exact hcreate.faithful.cons rfl rfl
  | updates o d _ _ _ _ hupdate => exact hupdate.faithful.cons rfl rfl
  | deletes o _ _ _ hdelete => exact hdelete.faithful.cons rfl rfl
  | waits o _ _ =>
    cases kind.isSelected i.spec <;> constructor <;> simp [awaitDeletion, written, Turn.written?]
  | _ => constructor <;> simp [written, Turn.written?]

end

end Instance

namespace Context

/-- Whatever a pass is answered: it reads its record, and if it finds one, then what it does after
that counts and publishes each successful write of a child once, and counts each successful write of
a status once.  The outcome of each of its steps tells which write of the step succeeded. -/
theorem pass_audited (ctx : Context) (key : Key) {turns : List Turn}
    {result : Except Failure PassOutcome} (hpass : (ctx.pass key).run.Runs turns result) :
    (∃ a rest, turns = ⟨.call (.getInstance key), a⟩ :: rest ∧
      ((∃ i, a = .ok (some i) ∧ i.Audited none rest) ∨ rest = [])) ∧
    ∀ (i : Instance) (kind : ChildKind) (step : List Turn) (r : Except Failure SyncOutcome),
      (i.syncChild ctx.unserved kind).run.Runs step r → Instance.Faithful kind.kind step r := by
  refine ⟨?_, fun i kind step r hstep =>
    (i.syncChild_courses kind ctx.unserved step r hstep).faithful⟩
  obtain ⟨a, rest, rfl, hrest⟩ := ctx.runs_pass key hpass
  refine ⟨a, rest, rfl, ?_⟩
  rcases hrest with ⟨i, rfl, hi⟩ | rfl
  · exact Or.inl ⟨i, rfl, (i.pass_courses ctx.unserved rest result hi).audited⟩
  · exact Or.inr rfl

/-- The update of a deployment is refused: its deletion is published as the start of a new one. -/
theorem pass_audited_recreating :
    let record : Instance :=
      ⟨{ name := some "mh", ns := some "mail", uid := some "u1" }, {}, none⟩
    let o : Manifest := ⟨none, { resourceVersion := some "1" }, []⟩
    let d := record.deployment.toManifest.adoptedBy
      ⟨Instance.apiVersion, Instance.kindName, "mh", "u1", some true, some true⟩
    let turns : List Turn := [
      ⟨.call (.get .deployment record.key), .ok (some o)⟩,
      ⟨.call (.replace .deployment (d.replacementFor o)), .error (.invalid "immutable")⟩,
      ⟨.call (.delete .deployment record.key graceSeconds), .ok ()⟩,
      ⟨.emit (.childWritten .deployment .delete), ()⟩,
      ⟨.emit (.event (record.childEvent .deployment .delete "ChildRecreating")), ()⟩]
    (Context.pass {} record.key).run.Runs
      (⟨.call (.getInstance record.key), .ok (some record)⟩ :: turns) (.ok .progressing) ∧
      record.Audited none turns ∧ Instance.Faithful .deployment turns (.ok .recreated) := by
  intro record o d turns
  have hpass : (Context.pass {} record.key).run.Runs
      (⟨.call (.getInstance record.key), .ok (some record)⟩ :: turns) (.ok .progressing) :=
    ⟨_, _, rfl, _, _, rfl, _, _, rfl, _, _, rfl, _, _, rfl, _, _, rfl, rfl, rfl⟩
  have hstep : (record.syncChild [] .deployment).run.Runs turns (.ok .recreated) :=
    ⟨_, _, rfl, _, _, rfl, _, _, rfl, _, _, rfl, _, _, rfl, rfl, rfl⟩
  obtain ⟨⟨a, rest, heq, haudit⟩, hfaithful⟩ := pass_audited {} record.key hpass
  cases heq
  refine ⟨hpass, ?_, hfaithful record .deployment turns _ hstep⟩
  rcases haudit with ⟨i, hread, haudited⟩ | hnone
  · cases hread
    exact haudited
  · exact absurd hnone (List.cons_ne_nil _ _)

end Context
end MailCapture
