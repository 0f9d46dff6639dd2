import MailCapture.Pass
import MailCapture.Proofs.Stamped
import MailCapture.Proofs.Turns
/-!
The calls that a pass may make, whatever it is answered: for each child the few that bring it in
line, and for the status the pods, the object that exposes the record and the record itself.
-/
namespace MailCapture

namespace Prog
variable {Q : Type} {A : Q → Type} {α β : Type} {P P' : Q → Prop}

def Asks (P : Q → Prop) : Prog Q A α → Prop
  | .done _ => True
  | .ask q next => P q ∧ ∀ a, (next a).Asks P

theorem Asks.bind {p : Prog Q A α} {f : α → Prog Q A β} (hp : p.Asks P)
    (hf : ∀ a, (f a).Asks P) : (p.bind f).Asks P := by
  induction p with
  | done a => exact hf a
  | ask q next ih => exact ⟨hp.1, fun a => ih a (hp.2 a)⟩

theorem Asks.mono {p : Prog Q A α} (hp : p.Asks P) (himp : ∀ q, P q → P' q) : p.Asks P' := by
  induction p with
  | done a => trivial
  | ask q next ih => exact ⟨himp q hp.1, fun a => ih a (hp.2 a)⟩

theorem Asks.of_runs {p : Prog Q A α} (hp : p.Asks P) {turns : List (Turn A)} {b : α}
    (hr : p.Runs turns b) : ∀ turn ∈ turns, P turn.1 := by
  induction p generalizing turns with
  | done a =>
    obtain ⟨rfl, _⟩ := hr
    simp
  | ask q next ih =>
    obtain ⟨a, rest, rfl, hrest⟩ := hr
    rw [List.forall_mem_cons]
    exact ⟨hp.1, ih a (hp.2 a) hrest⟩

end Prog

def Query.Within (P : StoreCall → Prop) : Query → Prop
  | .call c => P c
  | .emit _ => True

namespace Action
variable {α β : Type} {P P' : StoreCall → Prop}

def Calls (P : StoreCall → Prop) (x : Action α) : Prop := x.run.Asks (Query.Within P)

theorem calls_pure (a : α) : (pure a : Action α).Calls P := trivial

theorem calls_fail (f : Failure) : (fail f : Action α).Calls P := trivial

theorem calls_emit (e : Effect) : (emit e).Calls P := ⟨trivial, fun _ => trivial⟩

theorem calls_call {c : StoreCall} (h : P c) : (call c).Calls P := ⟨h, fun _ => trivial⟩

theorem calls_attempt {c : StoreCall} (h : P c) : (attempt c).Calls P := ⟨h, fun _ => trivial⟩

theorem Calls.bind {x : Action α} {f : α → Action β} (hx : x.Calls P)
    (hf : ∀ a, (f a).Calls P) : (x >>= f).Calls P := by
  unfold Calls
  rw [run_bind]
  refine Prog.Asks.bind hx fun r => ?_
  cases r with
  | ok a => exact hf a
  | error e => trivial

theorem Calls.mono {x : Action α} (hx : x.Calls P) (himp : ∀ c, P c → P' c) : x.Calls P' := by
  refine Prog.Asks.mono hx fun q hq => ?_
  cases q with
  | call c => exact himp c hq
  | emit e => trivial

theorem Calls.of_runs {x : Action α} (hx : x.Calls P) {turns : List Turn} {r : Except Failure α}
    (hr : x.run.Runs turns r) {c : StoreCall} {a : Query.Answer (.call c)}
    (hmem : (⟨.call c, a⟩ : Turn) ∈ turns) : P c := Prog.Asks.of_runs hx hr _ hmem

end Action

def Inlet.exposing? : Inlet → Option ChildKind
  | .closed => none
  | .route => some .route
  | .ingress => some .ingress

namespace Instance

/-- The calls that bring one child in line: it is read, and created, replaced or deleted as the
record asks for it. -/
inductive ChildCall (i : Instance) (kind : ChildKind) : StoreCall → Prop
  | get : ChildCall i kind (.get kind.kind i.key)
  | create (d : Manifest) (hd : i.adopted kind = .ok (some d)) :
      ChildCall i kind (.create kind.kind d.stamp)
  | replace (d o : Manifest) (hd : i.adopted kind = .ok (some d)) :
      ChildCall i kind (.replace kind.kind (d.replacementFor o))
  | delete : ChildCall i kind (.delete kind.kind i.key graceSeconds)

inductive RecordCall (i : Instance) : StoreCall → Prop
  | read : RecordCall i (.getInstance i.key)
  | write (record : Instance) (status : Status) :
      RecordCall i (.replaceStatus { record with status := some status })

inductive StatusCall (i : Instance) : StoreCall → Prop
  | pods : StatusCall i (.list .pod i.key.ns i.labelSelector)
  | exposing (kind : ChildKind) (hkind : i.spec.inlet.exposing? = some kind) :
      StatusCall i (.get kind.kind i.key)
  | record {c : StoreCall} (hcall : RecordCall i c) : StatusCall i c

inductive PassCall (i : Instance) (unserved : List ChildKind) (c : StoreCall) : Prop
  | child (kind : ChildKind) (hserved : kind ∉ unserved) (hcall : i.ChildCall kind c)
  | status (hcall : i.StatusCall c)

variable (i : Instance) (kind : ChildKind)

variable {i kind} in
theorem ChildCall.kind? {c : StoreCall} (h : i.ChildCall kind c) : c.kind? = some kind.kind := by
  cases h <;> rfl

variable {i} in
theorem RecordCall.kind? {c : StoreCall} (h : i.RecordCall c) : c.kind? = none := by
  cases h <;> rfl

theorem report_calls {P : StoreCall → Prop} (verb : Verb) (reason : String) :
    (i.report kind verb reason).Calls P :=
  (Action.calls_emit _).bind fun _ => Action.calls_emit _

theorem updateChild_calls {d o : Manifest} (hd : i.adopted kind = .ok (some d)) :
    (i.updateChild kind (d.replacementFor o)).Calls (i.ChildCall kind) := by
  unfold updateChild
  apply (Action.calls_attempt (.replace d o hd)).bind
  intro a
  cases a with
  | ok stored => exact (i.report_calls kind _ _).bind fun _ => Action.calls_pure _
  | error f =>
    cases f
    case invalid why =>
      apply (Action.calls_attempt .delete).bind
      intro b
      cases b with
      | ok u => exact (i.report_calls kind _ _).bind fun _ => Action.calls_pure _
      | error g =>
        cases g
        case notFound what => exact Action.calls_pure _
        all_goals exact Action.calls_fail _
    all_goals exact Action.calls_fail _

theorem createChild_calls {d : Manifest} (hd : i.adopted kind = .ok (some d)) :
    (i.createChild kind d).Calls (i.ChildCall kind) := by
  unfold createChild
  apply (Action.calls_attempt (.create d hd)).bind
  intro a
  cases a with
  | ok stored => exact (i.report_calls kind _ _).bind fun _ => Action.calls_pure _
  | error f =>
    cases f
    case alreadyExists what =>
      apply (Action.calls_call .get).bind
      intro found
      cases found with
      | none => exact Action.calls_fail _
      | some o =>
        have hc := classify_describes (some o) (some d.stamp)
        dsimp only
        cases hclass : classify (some o) (some d.stamp) with
        | stale replacement =>
          rw [hclass] at hc
          obtain ⟨_, _, ⟨⟩, ⟨⟩, _, _, rfl⟩ := hc
          rw [Manifest.replacementFor_stamp]
          exact i.updateChild_calls kind hd
        | _ => exact Action.calls_pure _
    all_goals exact Action.calls_fail _

theorem deleteChild_calls :
    (i.deleteChild kind).Calls (fun c => c = .delete kind.kind i.key graceSeconds) := by
  unfold deleteChild
  apply (Action.calls_attempt (P := fun c => c = .delete kind.kind i.key graceSeconds) rfl).bind
  intro a
  cases a with
  | ok u => exact (i.report_calls kind _ _).bind fun _ => Action.calls_pure _
  | error f =>
    cases f
    case notFound what => exact Action.calls_pure _
    all_goals exact Action.calls_fail _

/-- Bringing a child in line makes no call at all for a kind that is not served. -/
theorem syncChild_calls (unserved : List ChildKind) : (i.syncChild unserved kind).Calls
    (fun c => kind ∉ unserved ∧ i.ChildCall kind c) := by
  unfold syncChild
  by_cases hk : kind ∈ unserved
  · rw [if_pos (by simpa using hk)]
    exact Action.calls_pure _
  · rw [if_neg (by simpa using hk)]
    refine Action.Calls.mono (P := i.ChildCall kind) ?_ fun c hc => ⟨hk, hc⟩
    cases hd : i.adopted kind with
    | error f => trivial
    | ok desired =>
      show (Action.call (.get kind.kind i.key) >>= _ : Action SyncOutcome).Calls _
      apply (Action.calls_call .get).bind
      intro observed
      have hc := classify_describes observed desired
      cases hclass : classify observed desired with
      | absent d =>
        rw [hclass] at hc
        obtain ⟨_, rfl⟩ := hc
        exact i.createChild_calls kind hd
      | stale replacement =>
        rw [hclass] at hc
        obtain ⟨o, d, _, rfl, _, _, rfl⟩ := hc
        exact i.updateChild_calls kind hd
      | shouldNotExist =>
        refine (i.deleteChild_calls kind).mono fun c hc => ?_
        subst hc
        exact .delete
      | _ => exact Action.calls_pure _

theorem syncChildren_calls (unserved kinds : List ChildKind) :
    (i.syncChildren unserved kinds).Calls
      (fun c => ∃ kind, kind ∉ unserved ∧ i.ChildCall kind c) := by
  induction kinds with
  | nil => exact Action.calls_pure _
  | cons kind rest ih =>
    unfold syncChildren
    apply ((i.syncChild_calls kind unserved).mono fun c hc => ⟨kind, hc⟩).bind
    intro outcome
    split
    · exact Action.calls_pure _
    · exact ih

theorem decoded_calls {P : StoreCall → Prop} {α : Type} (value : Option α) :
    (decoded value).Calls P := by
  cases value with
  | none => exact Action.calls_fail _
  | some a => exact Action.calls_pure a

theorem exposureUrl_calls : i.exposureUrl.Calls i.StatusCall := by
  have hread (kind : ChildKind) (hkind : i.spec.inlet.exposing? = some kind)
      (next : Option Manifest → Action (Option String))
      (hnext : ∀ found, (next found).Calls i.StatusCall) :
      (Action.call (.get kind.kind i.key) >>= next).Calls i.StatusCall :=
    (Action.calls_call (.exposing kind hkind)).bind hnext
  unfold exposureUrl
  cases hi : i.spec.inlet with
  | closed => exact Action.calls_pure _
  | route =>
    apply hread .route (by rw [hi]; rfl)
    intro found
    cases found with
    | none => exact Action.calls_pure _
    | some m => exact (decoded_calls _).bind fun _ => Action.calls_pure _
  | ingress =>
    apply hread .ingress (by rw [hi]; rfl)
    intro found
    cases found with
    | none => exact Action.calls_pure _
    | some m => exact (decoded_calls _).bind fun _ => Action.calls_pure _

theorem writeStatus_calls (status : Status) : (i.writeStatus status).Calls i.RecordCall := by
  unfold writeStatus
  split
  · exact Action.calls_pure _
  · apply (Action.calls_call .read).bind
    intro latest
    cases latest with
    | none => exact Action.calls_pure _
    | some record =>
      apply (Action.calls_call (.write record status)).bind
      intro _
      exact (Action.calls_emit _).bind fun _ => Action.calls_pure _

theorem ensureStatus_calls : i.ensureStatus.Calls i.StatusCall := by
  have hcompute : i.computeStatus.Calls i.StatusCall := by
    unfold computeStatus
    apply (Action.calls_call .pods).bind
    intro found
    apply (decoded_calls _).bind
    intro pods
    exact i.exposureUrl_calls.bind fun _ => Action.calls_pure _
  unfold ensureStatus
  apply hcompute.bind
  intro status
  exact (Action.calls_emit _).bind fun _ => (i.writeStatus_calls status).mono fun _ => .record

theorem reject_calls (violation : Violation) : (i.reject violation).Calls i.RecordCall := by
  unfold reject
  apply (i.writeStatus_calls _).bind
  intro outcome
  dsimp only
  split
  · exact (Action.calls_emit _).bind fun _ => Action.calls_pure _
  · exact Action.calls_pure _

/-- What a pass does from some child on. -/
theorem syncChildren_status_calls (unserved kinds : List ChildKind) : (do
      if ← i.syncChildren unserved kinds then return .progressing
      match ← i.ensureStatus with
      | .written => return .progressing
      | .unchanged => return .quiescent : Action PassOutcome).Calls (i.PassCall unserved) := by
  have hchildren : (i.syncChildren unserved kinds).Calls (i.PassCall unserved) := by
    apply (i.syncChildren_calls unserved kinds).mono
    rintro c ⟨kind, hk, hc⟩
    exact .child kind hk hc
  apply hchildren.bind
  intro ended
  split
  · exact Action.calls_pure _
  · apply (i.ensureStatus_calls.mono fun _ => .status).bind
    intro outcome
    cases outcome with
    | written => exact Action.calls_pure _
    | unchanged => exact Action.calls_pure _

/-- A pass over a record makes only calls that bring its children or its status in line. -/
theorem pass_calls (unserved : List ChildKind) : (i.pass unserved).Calls (i.PassCall unserved) := by
  unfold pass
  split
  · rename_i violation _
    exact (i.reject_calls violation).mono fun _ hc => .status (.record hc)
  · exact i.syncChildren_status_calls unserved ChildKind.all

end Instance
end MailCapture
