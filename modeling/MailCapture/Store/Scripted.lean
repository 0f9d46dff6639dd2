import MailCapture.Sync
/-!
A store whose answers are written down beforehand: for every method a queue of replies, and a plain
answer for all calls beyond its end.
-/
namespace MailCapture

inductive Method where
  | get
  | create
  | replace
  | delete
  | list
  | getInstance
  | replaceStatus
  deriving DecidableEq, Repr

def StoreCall.method : StoreCall → Method
  | .get _ _ => .get
  | .create _ _ => .create
  | .replace _ _ => .replace
  | .delete _ _ _ => .delete
  | .list _ _ _ => .list
  | .getInstance _ => .getInstance
  | .replaceStatus _ => .replaceStatus

inductive ScriptedReply where
  /-- the plain answer -/
  | plain
  | absent
  | failure (f : Failure)
  | object (m : Manifest)
  | items (ms : List Manifest)
  | record (i : Instance)
  /-- the child that a record asks for as a server would return it, with some fields changed -/
  | persisted (i : Instance) (resourceVersion : String) (patch : Option Json)

structure Script where
  /-- the record that is read where no reply says otherwise -/
  record : Instance
  replies : List (Method × List ScriptedReply) := []
  seen : List Query := []
  /-- a changed child was no object any more -/
  isSpoiled : Bool := false

namespace Script

def take (s : Script) (m : Method) : ScriptedReply × Script :=
  match s.replies.lookup m with
  | some (r :: rest) =>
    (r, { s with replies := s.replies.map (fun e => if e.1 = m then (m, rest) else e) })
  | _ => (.plain, s)

def persistedChild (i : Instance) (kind : Kind) (resourceVersion : String) : Option Manifest := do
  let child ← kind.child?
  let desired ← child.desired i
  let owned := match i.ownerReference? with
    | some owner => desired.adoptedBy owner
    | none => desired
  return owned.stamp.withMetadata (fun m => { m with resourceVersion := some resourceVersion })

def readObject (s : Script) (kind : Kind) :
    ScriptedReply → Except Failure (Option Manifest) × Script
  | .failure f => (.error f, s)
  | .object m => (.ok (some m), s)
  | .persisted i resourceVersion patch =>
    match persistedChild i kind resourceVersion, patch with
    | some m, some p =>
      match m.patched? p with
      | some m => (.ok (some m), s)
      | none => (.ok none, { s with isSpoiled := true })
    | m?, _ => (.ok m?, s)
  | _ => (.ok none, s)

def orFailure {α : Type} (plain : α) : ScriptedReply → Except Failure α
  | .failure f => .error f
  | _ => .ok plain

def answer (s : Script) : (c : StoreCall) → Except Failure c.Answer × Script
  | .get kind _ =>
    let (r, s) := s.take .get
    s.readObject kind r
  | .create _ object =>
    let (r, s) := s.take .create
    (orFailure object r, s)
  | .replace _ object =>
    let (r, s) := s.take .replace
    (orFailure object r, s)
  | .delete _ _ _ =>
    let (r, s) := s.take .delete
    (orFailure () r, s)
  | .list _ _ _ =>
    let (r, s) := s.take .list
    let items := match r with
      | .items ms => ms
      | _ => []
    (orFailure items r, s)
  | .getInstance _ =>
    let (r, s) := s.take .getInstance
    let found := match r with
      | .absent => none
      | .record i => some i
      | _ => some s.record
    (orFailure found r, s)
  | .replaceStatus record =>
    let (r, s) := s.take .replaceStatus
    (orFailure record r, s)

def handle (q : Query) (s : Script) : q.Answer × Script :=
  let s := { s with seen := q :: s.seen }
  match q with
  | .call c => s.answer c
  | .emit _ => ((), s)

def play {α : Type} (s : Script) (p : Prog Query Query.Answer α) : α × Script :=
  let (a, s) := p.run handle s
  (a, { s with seen := s.seen.reverse })

end Script
end MailCapture
