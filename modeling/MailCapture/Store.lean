import MailCapture.Child
import MailCapture.Failure
import MailCapture.Prog
/-!
What the operator asks of a cluster, and the effects it reports.
-/
namespace MailCapture

inductive StoreCall where
  | get (kind : Kind) (key : Key)
  | create (kind : Kind) (object : Manifest)
  | replace (kind : Kind) (object : Manifest)
  | delete (kind : Kind) (key : Key) (grace : UInt32)
  | list (kind : Kind) (ns : String) (selector : String)
  | getInstance (key : Key)
  | replaceStatus (record : Instance)

def StoreCall.Answer : StoreCall → Type
  | .get _ _ => Option Manifest
  | .create _ _ => Manifest
  | .replace _ _ => Manifest
  | .delete _ _ _ => Unit
  | .list _ _ _ => List Manifest
  | .getInstance _ => Option Instance
  | .replaceStatus _ => Instance

def StoreCall.kind? : StoreCall → Option Kind
  | .get kind _ => some kind
  | .create kind _ => some kind
  | .replace kind _ => some kind
  | .delete kind _ _ => some kind
  | .list kind _ _ => some kind
  | .getInstance _ => none
  | .replaceStatus _ => none

inductive Verb where
  | create
  | update
  | delete
  deriving DecidableEq, Repr

namespace Verb

def text : Verb → String
  | .create => "create"
  | .update => "update"
  | .delete => "delete"

def action : Verb → String
  | .create => "Create"
  | .update => "Update"
  | .delete => "Delete"

end Verb

structure Reference where
  name : Option String
  ns : Option String
  uid : Option String
  deriving DecidableEq, Repr

structure Event where
  reason : String
  isWarning : Bool
  action : String
  note : Option String
  regarding : Reference
  deriving DecidableEq, Repr

inductive Effect where
  | childWritten (kind : ChildKind) (verb : Verb)
  | statusWritten
  | podsCounted (key : Key) (pods ready : Int32)
  | reconciled (key : Key)
  | failed (key : Key)
  | event (event : Event)
  /-- a reconciliation has just succeeded -/
  | touched

inductive Query where
  | call (call : StoreCall)
  | emit (effect : Effect)

def Query.Answer : Query → Type
  | .call c => Except Failure c.Answer
  | .emit _ => Unit

abbrev Action := ExceptT Failure (Prog Query Query.Answer)

namespace Action
variable {α : Type}

def call (c : StoreCall) : Action c.Answer := ExceptT.mk (Prog.ask (Query.call c) Prog.done)

def attempt (c : StoreCall) : Action (Except Failure c.Answer) :=
  ExceptT.mk (Prog.ask (Query.call c) (fun r => .done (.ok r)))

def emit (e : Effect) : Action Unit :=
  ExceptT.mk (Prog.ask (Query.emit e) (fun _ => .done (.ok ())))

def fail (f : Failure) : Action α := ExceptT.mk (.done (.error f))

end Action

namespace Instance

def reference (i : Instance) : Reference :=
  ⟨i.metadata.name, i.metadata.ns, i.metadata.uid⟩

end Instance
end MailCapture
