import MailCapture.Admission
import MailCapture.Status
import MailCapture.Sync
/-!
One reconcile pass over a record: check the spec, bring the children in line in a fixed order, write
the status.  The first step that changes the cluster ends the pass, and a later pass goes on.
-/
namespace MailCapture

structure Context where
  /-- kinds whose API group the cluster does not serve -/
  unserved : List ChildKind := []
  /-- seconds until a pass that changed something is followed by the next -/
  requeueSeconds : UInt64 := 10

inductive PassOutcome where
  /-- there is no such record -/
  | missing
  /-- the spec breaks a rule -/
  | rejected (message : String)
  /-- something changed, or is still to change -/
  | progressing
  /-- children and status are as they should be -/
  | quiescent
  deriving DecidableEq, Repr

namespace Instance

/-- Report a broken rule in the status and, when that is news, as an event. -/
def reject (i : Instance) (violation : Violation) : Action PassOutcome := do
  let message := violation.message
  let outcome ← i.writeStatus { i.status.getD {} with error := some message }
  if outcome = .written then
    Action.emit (.event ⟨"ValidationFailed", true, "Validate", some message, i.reference⟩)
  return .rejected message

/-- Bring children in line one kind after the other, up to the first step that ends the pass; the
answer tells whether one did. -/
def syncChildren (i : Instance) (unserved : List ChildKind) : List ChildKind → Action Bool
  | [] => pure false
  | kind :: rest => do
    let outcome ← i.syncChild unserved kind
    if outcome.endsPass then return true else i.syncChildren unserved rest

def pass (i : Instance) (unserved : List ChildKind) : Action PassOutcome := do
  match i.spec.violation? with
  | some violation => i.reject violation
  | none =>
    if ← i.syncChildren unserved ChildKind.all then return .progressing
    match ← i.ensureStatus with
    | .written => return .progressing
    | .unchanged => return .quiescent

end Instance

namespace Context

def pass (ctx : Context) (key : Key) : Action PassOutcome := do
  let found : Option Instance ← Action.call (.getInstance key)
  match found with
  | none => return .missing
  | some i => i.pass ctx.unserved

/-- A pass with its bookkeeping; the answer is the number of seconds until the next one, or none to
wait for a change. -/
def reconcile (ctx : Context) (key : Key) : Action (Option UInt64) := do
  let outcome ← ctx.pass key
  Action.emit (.reconciled key)
  Action.emit .touched
  return if outcome = .progressing then some ctx.requeueSeconds else none

def afterFailure (ctx : Context) (key : Key) (f : Failure) : Prog Query Query.Answer UInt64 :=
  .ask (Query.emit (.failed key)) (fun _ => .done (f.requeueSeconds ctx.requeueSeconds))

end Context
end MailCapture
