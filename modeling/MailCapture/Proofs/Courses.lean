import MailCapture.Proofs.Unserved
/-!
The courses that a pass can take: for each of its parts the turns with the result they lead to,
whatever it is answered.
-/
namespace MailCapture

namespace Instance

def reported (i : Instance) (kind : ChildKind) (verb : Verb) (reason : String) : List Turn :=
  [⟨.emit (.childWritten kind verb), ()⟩, ⟨.emit (.event (i.childEvent kind verb reason)), ()⟩]

inductive UpdateCourse (i : Instance) (kind : ChildKind) (m : Manifest) :
    List Turn → Except Failure SyncOutcome → Prop
  | updated (stored : Manifest) : UpdateCourse i kind m
      (⟨.call (.replace kind.kind m), .ok stored⟩ :: i.reported kind .update "ChildUpdated")
      (.ok .updated)
  | recreated (why : String) : UpdateCourse i kind m
      (⟨.call (.replace kind.kind m), .error (.invalid why)⟩ ::
        ⟨.call (.delete kind.kind i.key graceSeconds), .ok ()⟩ ::
          i.reported kind .delete "ChildRecreating")
      (.ok .recreated)
  | vanished (why what : String) : UpdateCourse i kind m
      [⟨.call (.replace kind.kind m), .error (.invalid why)⟩,
        ⟨.call (.delete kind.kind i.key graceSeconds), .error (.notFound what)⟩]
      (.ok .recreated)
  | stuck (why : String) (f : Failure) (hf : ∀ what, f ≠ .notFound what) : UpdateCourse i kind m
      [⟨.call (.replace kind.kind m), .error (.invalid why)⟩,
        ⟨.call (.delete kind.kind i.key graceSeconds), .error f⟩]
      (.error f)
  | failed (f : Failure) (hf : ∀ why, f ≠ .invalid why) : UpdateCourse i kind m
      [⟨.call (.replace kind.kind m), .error f⟩] (.error f)

/-- The creation of a child; one that another writer created first is read and brought in line. -/
inductive CreateCourse (i : Instance) (kind : ChildKind) (d : Manifest) :
    List Turn → Except Failure SyncOutcome → Prop
  | created (stored : Manifest) : CreateCourse i kind d
      (⟨.call (.create kind.kind d.stamp), .ok stored⟩ :: i.reported kind .create "ChildCreated")
      (.ok .created)
  | failed (f : Failure) (hf : ∀ what, f ≠ .alreadyExists what) : CreateCourse i kind d
      [⟨.call (.create kind.kind d.stamp), .error f⟩] (.error f)
  | unread (what : String) (f : Failure) : CreateCourse i kind d
      [⟨.call (.create kind.kind d.stamp), .error (.alreadyExists what)⟩,
        ⟨.call (.get kind.kind i.key), .error f⟩]
      (.error f)
  | vanished (what : String) : CreateCourse i kind d
      [⟨.call (.create kind.kind d.stamp), .error (.alreadyExists what)⟩,
        ⟨.call (.get kind.kind i.key), .ok none⟩]
      (.error (.transient
        (kind.name ++ " " ++ i.key.text ++ " already exists but cannot be read")))
  | kept (what : String) (o : Manifest) (hlive : o.isTerminating = false)
      (hfits : o.needsUpdate d = false) : CreateCourse i kind d
      [⟨.call (.create kind.kind d.stamp), .error (.alreadyExists what)⟩,
        ⟨.call (.get kind.kind i.key), .ok (some o)⟩]
      (.ok .unchanged)
  | waits (what : String) (o : Manifest) (hgoing : o.isTerminating = true) : CreateCourse i kind d
      [⟨.call (.create kind.kind d.stamp), .error (.alreadyExists what)⟩,
        ⟨.call (.get kind.kind i.key), .ok (some o)⟩]
      (.ok .waiting)
  | updates (what : String) (o : Manifest) (hlive : o.isTerminating = false)
      (hdrift : o.needsUpdate d = true) {turns : List Turn} {r : Except Failure SyncOutcome}
      (hupdate : i.UpdateCourse kind (d.replacementFor o) turns r) : CreateCourse i kind d
        (⟨.call (.create kind.kind d.stamp), .error (.alreadyExists what)⟩ ::
          ⟨.call (.get kind.kind i.key), .ok (some o)⟩ :: turns)
        r

inductive DeleteCourse (i : Instance) (kind : ChildKind) :
    List Turn → Except Failure SyncOutcome → Prop
  | deleted : DeleteCourse i kind
      (⟨.call (.delete kind.kind i.key graceSeconds), .ok ()⟩ ::
        i.reported kind .delete "ChildDeleted")
      (.ok .deleted)
  | vanished (what : String) : DeleteCourse i kind
      [⟨.call (.delete kind.kind i.key graceSeconds), .error (.notFound what)⟩] (.ok .unchanged)
  | failed (f : Failure) (hf : ∀ what, f ≠ .notFound what) : DeleteCourse i kind
      [⟨.call (.delete kind.kind i.key graceSeconds), .error f⟩] (.error f)

inductive StepCourse (i : Instance) (unserved : List ChildKind) (kind : ChildKind) :
    List Turn → Except Failure SyncOutcome → Prop
  | unserved (hk : kind ∈ unserved) : StepCourse i unserved kind [] (.ok .unchanged)
  | unowned (f : Failure) (hk : kind ∉ unserved) (hd : i.adopted kind = .error f) :
      StepCourse i unserved kind [] (.error f)
  | unread (f : Failure) (hk : kind ∉ unserved) : StepCourse i unserved kind
      [⟨.call (.get kind.kind i.key), .error f⟩] (.error f)
  | absent (hk : kind ∉ unserved) (hd : i.adopted kind = .ok none) : StepCourse i unserved kind
      [⟨.call (.get kind.kind i.key), .ok none⟩] (.ok .unchanged)
  | inSync (o d : Manifest) (hk : kind ∉ unserved) (hd : i.adopted kind = .ok (some d))
      (hlive : o.isTerminating = false) (hfits : o.needsUpdate d = false) :
      StepCourse i unserved kind [⟨.call (.get kind.kind i.key), .ok (some o)⟩] (.ok .unchanged)
  | waits (o : Manifest) (hk : kind ∉ unserved) (hgoing : o.isTerminating = true) :
      StepCourse i unserved kind [⟨.call (.get kind.kind i.key), .ok (some o)⟩]
        (.ok (awaitDeletion (kind.isSelected i.spec)))
  | creates (d : Manifest) (hk : kind ∉ unserved) (hd : i.adopted kind = .ok (some d))
      {turns : List Turn} {r : Except Failure SyncOutcome}
      (hcreate : i.CreateCourse kind d turns r) :
      StepCourse i unserved kind (⟨.call (.get kind.kind i.key), .ok none⟩ :: turns) r
  | updates (o d : Manifest) (hk : kind ∉ unserved) (hd : i.adopted kind = .ok (some d))
      (hlive : o.isTerminating = false) (hdrift : o.needsUpdate d = true)
      {turns : List Turn} {r : Except Failure SyncOutcome}
      (hupdate : i.UpdateCourse kind (d.replacementFor o) turns r) :
      StepCourse i unserved kind (⟨.call (.get kind.kind i.key), .ok (some o)⟩ :: turns) r
  | deletes (o : Manifest) (hk : kind ∉ unserved) (hd : i.adopted kind = .ok none)
      (hlive : o.isTerminating = false) {turns : List Turn} {r : Except Failure SyncOutcome}
      (hdelete : i.DeleteCourse kind turns r) :
      StepCourse i unserved kind (⟨.call (.get kind.kind i.key), .ok (some o)⟩ :: turns) r

inductive ChildrenCourse (i : Instance) (unserved : List ChildKind) :
    List ChildKind → List Turn → Except Failure Bool → Prop
  | done : ChildrenCourse i unserved [] [] (.ok false)
  | failed {kind : ChildKind} {rest : List ChildKind} {turns : List Turn} {f : Failure}
      (hstep : i.StepCourse unserved kind turns (.error f)) :
      ChildrenCourse i unserved (kind :: rest) turns (.error f)
  | ended {kind : ChildKind} {rest : List ChildKind} {turns : List Turn} {outcome : SyncOutcome}
      (hstep : i.StepCourse unserved kind turns (.ok outcome)) (hends : outcome.endsPass = true) :
      ChildrenCourse i unserved (kind :: rest) turns (.ok true)
  | next {kind : ChildKind} {rest : List ChildKind} {turns more : List Turn}
      {r : Except Failure Bool} (hstep : i.StepCourse unserved kind turns (.ok .unchanged))
      (hrest : ChildrenCourse i unserved rest more r) :
      ChildrenCourse i unserved (kind :: rest) (turns ++ more) r

inductive ComputeCourse (i : Instance) : List Turn → Except Failure Status → Prop
  | unlisted (f : Failure) : ComputeCourse i
      [⟨.call (.list .pod i.key.ns i.labelSelector), .error f⟩] (.error f)
  | listed (found : List Manifest) {r : Except Failure Status}
      (hr : ∀ status, r = .ok status → status.error = none) : ComputeCourse i
      [⟨.call (.list .pod i.key.ns i.labelSelector), .ok found⟩] r
  | exposed (found : List Manifest) (kind : ChildKind)
      (a : Query.Answer (.call (.get kind.kind i.key)))
      (hkind : i.spec.inlet.exposing? = some kind) {r : Except Failure Status}
      (hr : ∀ status, r = .ok status → status.error = none) : ComputeCourse i
      [⟨.call (.list .pod i.key.ns i.labelSelector), .ok found⟩,
        ⟨.call (.get kind.kind i.key), a⟩]
      r

inductive WriteCourse (i : Instance) (status : Status) :
    List Turn → Except Failure StatusOutcome → Prop
  | known (hs : i.status = some status) : WriteCourse i status [] (.ok .unchanged)
  | unread (hs : i.status ≠ some status) (f : Failure) : WriteCourse i status
      [⟨.call (.getInstance i.key), .error f⟩] (.error f)
  | vanished (hs : i.status ≠ some status) : WriteCourse i status
      [⟨.call (.getInstance i.key), .ok none⟩] (.ok .unchanged)
  | failed (hs : i.status ≠ some status) (latest : Instance) (f : Failure) : WriteCourse i status
      [⟨.call (.getInstance i.key), .ok (some latest)⟩,
        ⟨.call (.replaceStatus { latest with status := some status }), .error f⟩]
      (.error f)
  | written (hs : i.status ≠ some status) (latest stored : Instance) : WriteCourse i status
      [⟨.call (.getInstance i.key), .ok (some latest)⟩,
        ⟨.call (.replaceStatus { latest with status := some status }), .ok stored⟩,
        ⟨.emit .statusWritten, ()⟩]
      (.ok .written)

def withError (i : Instance) (message : String) : Status :=
  { i.status.getD {} with error := some message }

def rejection (i : Instance) (violation : Violation) : Event :=
  ⟨"ValidationFailed", true, "Validate", some violation.message, i.reference⟩

/-- The rejection of a record: it is news if the status was written. -/
inductive RejectCourse (i : Instance) (violation : Violation) :
    List Turn → Except Failure PassOutcome → Prop
  | failed {turns : List Turn} {f : Failure}
      (hwrite : i.WriteCourse (i.withError violation.message) turns (.error f)) :
      RejectCourse i violation turns (.error f)
  | known {turns : List Turn}
      (hwrite : i.WriteCourse (i.withError violation.message) turns (.ok .unchanged)) :
      RejectCourse i violation turns (.ok (.rejected violation.message))
  | news {turns : List Turn}
      (hwrite : i.WriteCourse (i.withError violation.message) turns (.ok .written)) :
      RejectCourse i violation (turns ++ [⟨.emit (.event (i.rejection violation)), ()⟩])
        (.ok (.rejected violation.message))

inductive StatusCourse (i : Instance) : List Turn → Except Failure StatusOutcome → Prop
  | uncomputed {turns : List Turn} {f : Failure} (hcompute : i.ComputeCourse turns (.error f)) :
      StatusCourse i turns (.error f)
  | computed {turns more : List Turn} {status : Status} {r : Except Failure StatusOutcome}
      (hcompute : i.ComputeCourse turns (.ok status)) (hwrite : i.WriteCourse status more r) :
      StatusCourse i (turns ++
        ⟨.emit (.podsCounted i.key status.podCount status.readyPodCount), ()⟩ :: more) r

inductive TailCourse (i : Instance) (unserved kinds : List ChildKind) :
    List Turn → Except Failure PassOutcome → Prop
  | failed {turns : List Turn} {f : Failure}
      (hchildren : i.ChildrenCourse unserved kinds turns (.error f)) :
      TailCourse i unserved kinds turns (.error f)
  | ended {turns : List Turn} (hchildren : i.ChildrenCourse unserved kinds turns (.ok true)) :
      TailCourse i unserved kinds turns (.ok .progressing)
  | settled {turns more : List Turn} {r : Except Failure StatusOutcome}
      (hchildren : i.ChildrenCourse unserved kinds turns (.ok false))
      (hstatus : i.StatusCourse more r) :
      TailCourse i unserved kinds (turns ++ more) (r.map PassOutcome.ofStatus)

inductive PassCourse (i : Instance) (unserved : List ChildKind) :
    List Turn → Except Failure PassOutcome → Prop
  | rejected {violation : Violation} {turns : List Turn} {r : Except Failure PassOutcome}
      (hv : i.spec.violation? = some violation) (hreject : i.RejectCourse violation turns r) :
      PassCourse i unserved turns r
  | admitted {turns : List Turn} {r : Except Failure PassOutcome}
      (hv : i.spec.violation? = none) (htail : i.TailCourse unserved ChildKind.all turns r) :
      PassCourse i unserved turns r

/-! ### Every run is a course -/

variable (i : Instance) (kind : ChildKind)

theorem ensures_report_bind {P : List Turn → Except Failure SyncOutcome → Prop} (verb : Verb)
    (reason : String) (outcome : SyncOutcome) :
    (i.report kind verb reason >>= fun _ => pure outcome : Action SyncOutcome).Ensures P ↔
      P (i.reported kind verb reason) (.ok outcome) := by
  simp only [report, reported, Action.ensures_bind_assoc, Action.ensures_emit_bind,
    Action.ensures_pure]

theorem updateChild_courses (m : Manifest) :
    (i.updateChild kind m).Ensures (i.UpdateCourse kind m) := by
  unfold updateChild
  rw [Action.ensures_attempt_bind]
  intro a
  cases a with
  | ok stored => exact (i.ensures_report_bind kind _ _ _).2 (.updated stored)
  | error f =>
    cases f
    case invalid why =>
      rw [Action.ensures_attempt_bind]
      intro b
      cases b with
      | ok u => exact (i.ensures_report_bind kind _ _ _).2 (.recreated why)
      | error g =>
        cases g
        case notFound what => exact (Action.ensures_pure _).2 (.vanished why what)
        all_goals exact (Action.ensures_fail _).2 (.stuck why _ (by simp))
    all_goals exact (Action.ensures_fail _).2 (.failed _ (by simp))

theorem createChild_courses (d : Manifest) :
    (i.createChild kind d).Ensures (i.CreateCourse kind d) := by
  unfold createChild
  rw [Action.ensures_attempt_bind]
  intro a
  cases a with
  | ok stored => exact (i.ensures_report_bind kind _ _ _).2 (.created stored)
  | error f =>
    cases f
    case alreadyExists what =>
      refine (Action.ensures_call_bind _ _).2 ⟨fun f => .unread what f, fun found => ?_⟩
      cases found with
      | none => exact (Action.ensures_fail _).2 (.vanished what)
      | some o =>
        have hc := classify_describes (some o) (some d.stamp)
        dsimp only
        cases hclass : classify (some o) (some d.stamp) with
        | stale replacement =>
          rw [hclass] at hc
          obtain ⟨_, _, ⟨⟩, ⟨⟩, hlive, hdrift, rfl⟩ := hc
          rw [Manifest.needsUpdate_stamp] at hdrift
          rw [Manifest.replacementFor_stamp]
          exact (i.updateChild_courses kind _).mono fun _ _ h => .updates what o hlive hdrift h
        | terminating selected =>
          rw [hclass] at hc
          obtain ⟨_, ⟨⟩, hgoing, rfl⟩ := hc
          exact (Action.ensures_pure _).2 (.waits what o hgoing)
        | inSync =>
          rw [hclass] at hc
          obtain ⟨_, _, ⟨⟩, ⟨⟩, hlive, hfits⟩ := hc
          rw [Manifest.needsUpdate_stamp] at hfits
          exact (Action.ensures_pure _).2 (.kept what o hlive hfits)
        | _ =>
          rw [hclass] at hc
          simp [ChildState.Describes] at hc
    all_goals exact (Action.ensures_fail _).2 (.failed _ (by simp))

theorem deleteChild_courses : (i.deleteChild kind).Ensures (i.DeleteCourse kind) := by
  unfold deleteChild
  rw [Action.ensures_attempt_bind]
  intro a
  cases a with
  | ok u => exact (i.ensures_report_bind kind _ _ _).2 .deleted
  | error f =>
    cases f
    case notFound what => exact (Action.ensures_pure _).2 (.vanished what)
    all_goals exact (Action.ensures_fail _).2 (.failed _ (by simp))

theorem syncChild_courses (unserved : List ChildKind) :
    (i.syncChild unserved kind).Ensures (i.StepCourse unserved kind) := by
  unfold syncChild
  by_cases hk : kind ∈ unserved
  · rw [if_pos (by simpa using hk)]
    exact (Action.ensures_pure _).2 (.unserved hk)
  · rw [if_neg (by simpa using hk)]
    cases hd : i.adopted kind with
    | error f => exact (Action.ensures_fail_bind f _).2 (.unowned f hk hd)
    | ok desired =>
      refine (Action.ensures_pure_bind desired _).2 ?_
      refine (Action.ensures_call_bind _ _).2 ⟨fun f => .unread f hk, fun found => ?_⟩
      have hc := classify_describes found desired
      cases hclass : classify found desired with
      | inSync =>
        rw [hclass] at hc
        obtain ⟨o, d, rfl, rfl, hlive, hfits⟩ := hc
        exact (Action.ensures_pure _).2 (.inSync o d hk hd hlive hfits)
      | notSelected =>
        rw [hclass] at hc
        obtain ⟨rfl, rfl⟩ := hc
        exact (Action.ensures_pure _).2 (.absent hk hd)
      | absent d =>
        rw [hclass] at hc
        obtain ⟨rfl, rfl⟩ := hc
        exact (i.createChild_courses kind d).mono fun _ _ h => .creates d hk hd h
      | stale replacement =>
        rw [hclass] at hc
        obtain ⟨o, d, rfl, rfl, hlive, hdrift, rfl⟩ := hc
        exact (i.updateChild_courses kind _).mono fun _ _ h => .updates o d hk hd hlive hdrift h
      | shouldNotExist =>
        rw [hclass] at hc
        obtain ⟨o, rfl, rfl, hlive⟩ := hc
        exact (i.deleteChild_courses kind).mono fun _ _ h => .deletes o hk hd hlive h
      | terminating selected =>
        rw [hclass] at hc
        obtain ⟨o, rfl, hgoing, rfl⟩ := hc
        rw [isSelected_of_adopted hd]
        exact (Action.ensures_pure _).2 (.waits o hk hgoing)

theorem syncChildren_courses (unserved kinds : List ChildKind) :
    (i.syncChildren unserved kinds).Ensures (i.ChildrenCourse unserved kinds) := by
  induction kinds with
  | nil => exact (Action.ensures_pure _).2 .done
  | cons kind rest ih =>
    unfold syncChildren
    refine (i.syncChild_courses kind unserved).bind (fun _ _ h => .failed h) ?_
    intro turns outcome h
    cases hends : outcome.endsPass with
    | true =>
      refine (Action.ensures_pure _).2 ?_
      rw [List.append_nil]
      exact .ended h hends
    | false =>
      have hsame : outcome = .unchanged := by cases outcome <;> first | rfl | cases hends
      subst hsame
      exact ih.mono fun _ _ hrest => .next h hrest

theorem computeStatus_courses : i.computeStatus.Ensures i.ComputeCourse := by
  unfold computeStatus
  refine (Action.ensures_call_bind _ _).2 ⟨fun f => .unlisted f, fun found => ?_⟩
  cases found.mapM Pod.ofManifest? with
  | none => exact (Action.ensures_fail_bind _ _).2 (.listed found (by simp))
  | some pods =>
    have hexposed {turns : List Turn} {r : Except Failure Status}
        (hr : ∀ status, r = .ok status → status.error = none) (h : turns = [] ∨ ∃ kind a,
          i.spec.inlet.exposing? = some kind ∧ turns = [⟨.call (.get kind.kind i.key), a⟩]) :
        i.ComputeCourse (⟨.call (.list .pod i.key.ns i.labelSelector), .ok found⟩ :: turns) r := by
      rcases h with rfl | ⟨kind, a, hkind, rfl⟩
      · exact .listed found hr
      · exact .exposed found kind a hkind hr
    show (i.exposureUrl >>= fun url => pure (i.statusOf pods url) : Action Status).Ensures _
    refine i.exposureUrl_turns.bind (fun turns f h => hexposed (by simp) h) fun turns url h => ?_
    rw [Action.ensures_pure, List.append_nil]
    refine hexposed (fun status hs => ?_) h
    cases hs
    rfl

theorem writeStatus_courses (status : Status) :
    (i.writeStatus status).Ensures (i.WriteCourse status) := by
  unfold writeStatus
  by_cases hs : i.status = some status
  · rw [if_pos hs, Action.ensures_pure]
    exact .known hs
  · rw [if_neg hs]
    refine (Action.ensures_call_bind _ _).2 ⟨fun f => .unread hs f, fun found => ?_⟩
    cases found with
    | none => exact (Action.ensures_pure _).2 (.vanished hs)
    | some latest =>
      refine (Action.ensures_call_bind _ _).2 ⟨fun f => .failed hs latest f, fun stored => ?_⟩
      exact (Action.ensures_emit_bind _ _).2 ((Action.ensures_pure _).2 (.written hs latest stored))

theorem ensureStatus_courses : i.ensureStatus.Ensures i.StatusCourse := by
  unfold ensureStatus
  refine i.computeStatus_courses.bind (fun _ _ h => .uncomputed h) fun turns status h => ?_
  rw [Action.ensures_emit_bind]
  exact (i.writeStatus_courses status).mono fun _ _ hwrite => .computed h hwrite

theorem reject_courses (violation : Violation) :
    (i.reject violation).Ensures (i.RejectCourse violation) := by
  unfold reject
  refine (i.writeStatus_courses _).bind (fun _ _ h => .failed h) fun turns outcome h => ?_
  cases outcome with
  | unchanged =>
    refine (Action.ensures_pure _).2 ?_
    rw [List.append_nil]
    exact .known h
  | written => exact (Action.ensures_emit_bind _ _).2 ((Action.ensures_pure _).2 (.news h))

def passFrom (unserved kinds : List ChildKind) : Action PassOutcome := do
  if ← i.syncChildren unserved kinds then return .progressing
  match ← i.ensureStatus with
  | .written => return .progressing
  | .unchanged => return .quiescent

theorem passFrom_cons (unserved : List ChildKind) (kind : ChildKind)
    (rest : List ChildKind) : i.passFrom unserved (kind :: rest) =
      i.syncChild unserved kind >>= fun outcome =>
        if outcome.endsPass then pure .progressing else i.passFrom unserved rest := by
  unfold passFrom
  rw [syncChildren]
  refine (Action.run_bind_assoc _ _ _).trans (congrArg (i.syncChild unserved kind >>= ·) ?_)
  funext outcome
  split <;> rfl

/-- After steps that did not end it, a pass goes on with the next kinds. -/
theorem passFrom_append (unserved first kinds : List ChildKind) :
    i.passFrom unserved (first ++ kinds) = i.syncChildren unserved first >>= fun ended =>
      if ended then pure .progressing else i.passFrom unserved kinds := by
  induction first with
  | nil => rfl
  | cons kind first ih =>
    rw [List.cons_append, passFrom_cons, ih, syncChildren]
    refine Eq.trans ?_ (Action.run_bind_assoc _ _ _).symm
    apply congrArg (i.syncChild unserved kind >>= ·)
    funext outcome
    split <;> rfl

theorem passFrom_courses (unserved kinds : List ChildKind) :
    (i.passFrom unserved kinds).Ensures (i.TailCourse unserved kinds) := by
  unfold passFrom
  refine (i.syncChildren_courses unserved kinds).bind (fun _ _ h => .failed h)
    fun turns ended h => ?_
  cases ended with
  | true =>
    refine (Action.ensures_pure _).2 ?_
    rw [List.append_nil]
    exact .ended h
  | false =>
    refine i.ensureStatus_courses.bind (fun more f hs => .settled h hs) fun more outcome hs => ?_
    cases outcome with
    | written =>
      refine (Action.ensures_pure _).2 ?_
      rw [List.append_nil]
      exact .settled h hs
    | unchanged =>
      refine (Action.ensures_pure _).2 ?_
      rw [List.append_nil]
      exact .settled h hs

variable {i}

theorem pass_rejected {violation : Violation} (hv : i.spec.violation? = some violation)
    (unserved : List ChildKind) : i.pass unserved = i.reject violation := by
  rw [pass, hv]

theorem pass_admitted (hv : i.spec.violation? = none) (unserved : List ChildKind) :
    i.pass unserved = i.passFrom unserved ChildKind.all := by
  rw [pass, hv]
  rfl

/-- Whatever a pass over a record is answered, it takes one of its courses. -/
theorem pass_courses (i : Instance) (unserved : List ChildKind) :
    (i.pass unserved).Ensures (i.PassCourse unserved) := by
  cases hv : i.spec.violation? with
  | some violation =>
    rw [pass_rejected hv]
    exact (i.reject_courses violation).mono fun _ _ h => .rejected hv h
  | none =>
    rw [pass_admitted hv]
    exact (i.passFrom_courses unserved ChildKind.all).mono fun _ _ h => .admitted hv h

end Instance
end MailCapture
