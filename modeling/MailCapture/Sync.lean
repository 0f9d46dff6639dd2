import MailCapture.Drift
import MailCapture.Store
/-!
Bringing one child in line with its record.  A step reads the child, compares it with the desired
one and makes at most one write.
-/
namespace MailCapture

/-- Grace for deleted children, so that open mail sessions can end. -/
def graceSeconds : UInt32 := 100

inductive ChildState where
  /-- wanted and missing -/
  | absent (desired : Manifest)
  | inSync
  /-- wanted and drifted, with the object to replace it by -/
  | stale (replacement : Manifest)
  | shouldNotExist
  | notSelected
  /-- already being deleted by the server -/
  | terminating (selected : Bool)

inductive SyncOutcome where
  | unchanged
  | created
  | updated
  /-- an update was refused and the child deleted, so that it can be created anew -/
  | recreated
  | deleted
  /-- a wanted child is still being deleted -/
  | waiting
  deriving DecidableEq, Repr

namespace SyncOutcome

def isMutation : SyncOutcome → Bool
  | .unchanged | .waiting => false
  | _ => true

def endsPass : SyncOutcome → Bool
  | .unchanged => false
  | _ => true

end SyncOutcome

/-- What is known of a child from what is observed and what is desired.  A replacement carries the
version that was observed, and a child that is being deleted is left alone. -/
def classify (observed desired : Option Manifest) : ChildState :=
  match observed, desired with
  | none, none => .notSelected
  | none, some d => .absent d
  | some o, d? =>
    if o.metadata.deletionTimestamp.isSome then .terminating d?.isSome
    else match d? with
      | none => .shouldNotExist
      | some d =>
        if o.needsUpdate d then
          .stale (d.stamp.withMetadata
            (fun m => { m with resourceVersion := o.metadata.resourceVersion }))
        else .inSync

def Manifest.adoptedBy (m : Manifest) (owner : OwnerReference) : Manifest :=
  m.withMetadata (fun metadata => { metadata with ownerReferences := some [owner] })

namespace Instance

def childEvent (i : Instance) (kind : ChildKind) (verb : Verb) (reason : String) : Event :=
  ⟨reason, false, verb.action, some (kind.name ++ " " ++ i.name ++ " " ++ verb.text ++ "d"),
    i.reference⟩

def report (i : Instance) (kind : ChildKind) (verb : Verb) (reason : String) : Action Unit := do
  Action.emit (.childWritten kind verb)
  Action.emit (.event (i.childEvent kind verb reason))

/-- The child that a record asks for, owned by it; a record that was never stored cannot own one. -/
def adopted (i : Instance) (kind : ChildKind) : Except Failure (Option Manifest) :=
  match kind.desired i with
  | none => .ok none
  | some m =>
    match i.ownerReference? with
    | none => .error (.missingField "metadata.uid")
    | some owner => .ok (some (m.adoptedBy owner))

def awaitDeletion (selected : Bool) : SyncOutcome := if selected then .waiting else .unchanged

/-- Replace a child; one whose update is refused is deleted, to be created anew by a later pass. -/
def updateChild (i : Instance) (kind : ChildKind) (replacement : Manifest) :
    Action SyncOutcome := do
  match ← Action.attempt (.replace kind.kind replacement) with
  | .ok _ =>
    i.report kind .update "ChildUpdated"
    return .updated
  | .error (.invalid _) =>
    match ← Action.attempt (.delete kind.kind i.key graceSeconds) with
    | .ok _ =>
      i.report kind .delete "ChildRecreating"
      return .recreated
    | .error (.notFound _) => return .recreated
    | .error f => Action.fail f
  | .error f => Action.fail f

/-- Create a child; if another writer was first, go on from what that one wrote. -/
def createChild (i : Instance) (kind : ChildKind) (desired : Manifest) : Action SyncOutcome := do
  let stamped := desired.stamp
  match ← Action.attempt (.create kind.kind stamped) with
  | .ok _ =>
    i.report kind .create "ChildCreated"
    return .created
  | .error (.alreadyExists _) =>
    let found : Option Manifest ← Action.call (.get kind.kind i.key)
    match found with
    | none =>
      Action.fail (.transient
        (kind.name ++ " " ++ i.key.text ++ " already exists but cannot be read"))
    | some observed =>
      match classify (some observed) (some stamped) with
      | .stale replacement => i.updateChild kind replacement
      | .terminating selected => return awaitDeletion selected
      | _ => return .unchanged
  | .error f => Action.fail f

/-- Delete a child; one that is gone already is no change. -/
def deleteChild (i : Instance) (kind : ChildKind) : Action SyncOutcome := do
  match ← Action.attempt (.delete kind.kind i.key graceSeconds) with
  | .ok _ =>
    i.report kind .delete "ChildDeleted"
    return .deleted
  | .error (.notFound _) => return .unchanged
  | .error f => Action.fail f

/-- Bring one child in line.  A kind that the cluster does not serve is not touched. -/
def syncChild (i : Instance) (unserved : List ChildKind) (kind : ChildKind) :
    Action SyncOutcome := do
  if unserved.contains kind then return .unchanged
  let desired ← ExceptT.mk (.done (i.adopted kind))
  let observed : Option Manifest ← Action.call (.get kind.kind i.key)
  match classify observed desired with
  | .inSync | .notSelected => return .unchanged
  | .absent d => i.createChild kind d
  | .stale replacement => i.updateChild kind replacement
  | .shouldNotExist => i.deleteChild kind
  | .terminating selected => return awaitDeletion selected

end Instance
end MailCapture
