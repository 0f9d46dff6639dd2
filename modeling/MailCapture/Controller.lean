import MailCapture.Server
import MailCapture.Watch
/-!
The operator at work on a server: users edit objects, edits wake records, and every record that was
woken gets passes until it is as it should be.

The operator learns of records and pods by listing them once and by the changes that follow.  A list
succeeds only when everything in it is of its type, and is asked for again until it does; a change
is missed when the object in it is not.  Children are followed by their metadata alone.
-/
namespace MailCapture

structure Scope where
  context : Context := {}
  /-- the only namespace that is watched -/
  ns : Option String := none

def Scope.covers (s : Scope) (key : Key) : Bool := s.ns.all (· == key.ns)

def Scope.canList (s : Scope) : Bool := s.ns.all Remote.canList

def enqueue (queue : List Key) (key : Key) : List Key :=
  if queue.contains key then queue else queue ++ [key]

/-- What an operator does to a server in the passes over one record, the latest first: the writes
that succeed and all effects. -/
structure Shift where
  server : Server
  seen : List Query := []
  /-- the owners of the children that were written -/
  woken : List Key := []

namespace Shift

def isWrite : StoreCall → Bool
  | .create _ _ | .replace _ _ | .delete _ _ _ | .replaceStatus _ => true
  | .get _ _ | .list _ _ _ | .getInstance _ => false

def ownersAt (s : Server) (kind : Kind) (key : Key) : List Key :=
  ((s.find? ⟨.object kind, key⟩).map (fun m => m.metadata.owners)).getD []

def wokenBy (before after : Server) : StoreCall → List Key
  | .create kind m | .replace kind m =>
    match m.key? with
    | .ok key => ownersAt after kind key
    | .error _ => []
  | .delete kind key _ => ownersAt before kind key
  | .get _ _ | .list _ _ _ | .getInstance _ | .replaceStatus _ => []

def handle : (q : Query) → Shift → q.Answer × Shift
  | .emit e, w => ((), { w with seen := .emit e :: w.seen })
  | .call c, w =>
    match w.server.answer c with
    | (.ok a, server) => (.ok a, {
        server := server
        seen := if isWrite c then .call c :: w.seen else w.seen
        woken := (wokenBy w.server server c).foldl enqueue w.woken })
    | (.error f, server) => (.error f, { w with server := server })

/-- Passes over one record until one settles; the answer tells whether the record still waits, which
it does after a failure or a pass that had to go on and wrote nothing. -/
def settle (ctx : Context) (key : Key) : Nat → Shift → Bool × Shift
  | 0, w => (true, w)
  | left + 1, w =>
    let (outcome, after) := (ctx.reconcile key).run.run handle w
    match outcome with
    | .ok none => (false, after)
    | .ok (some _) =>
      if after.server.revision = w.server.revision ∧
          after.server.objects.length = w.server.objects.length then (true, after)
      else settle ctx key left after
    | .error f => (true, ((ctx.afterFailure key f).run handle after).2)

end Shift

structure Round where
  server : Server
  logs : List (Key × List Query) := []
  waiting : List Key := []

namespace Round

def passLimit : Nat := 64

def turn (ctx : Context) (key : Key) (r : Round) : Round × List Key :=
  let (waits, w) := Shift.settle ctx key passLimit { server := r.server }
  let earlier := (Entries.get? r.logs key).getD []
  ({ server := w.server
     logs := Entries.put r.logs key (earlier ++ w.seen.reverse)
     waiting := if waits then enqueue r.waiting key else r.waiting.erase key },
    w.woken.filter (· ≠ key))

/-- Give turns to records until nobody is left in the queue; a key that is not that of a known
record is passed over. -/
def turns (ctx : Context) (known : List Key) : Nat → List Key → Round → Round
  | 0, queue, r => { r with waiting := queue.foldl enqueue r.waiting }
  | _, [], r => r
  | left + 1, key :: rest, r =>
    if known.contains key then
      let (r, woken) := r.turn ctx key
      turns ctx known left (woken.foldl enqueue rest) r
    else turns ctx known left rest r

end Round

structure Controller where
  server : Server := {}
  isRunning : Bool := false
  /-- the records that the operator knows, as soon as it could list them -/
  known : Option (List Key) := none
  /-- whether it could list the pods -/
  followsPods : Bool := false
  generations : Generations := []
  /-- records that are to get a pass -/
  pending : List Key := []

namespace Controller

def new (scope : Scope) : Controller := { server := { unserved := scope.context.unserved } }

def wake (c : Controller) (key : Key) : Controller := { c with pending := enqueue c.pending key }

def seeRecord (c : Controller) (key : Key) (m : Manifest) : Controller :=
  match c.known, Instance.ofManifest? m with
  | some known, some _ =>
    let generation := m.metadata.generation
    let noted := { c with
      known := some (known.insert key)
      generations := c.generations.see key generation }
    if c.generations.isNews key generation then noted.wake key else noted
  | _, _ => c

def forgetRecord (c : Controller) (key : Key) (m : Manifest) : Controller :=
  if (Instance.ofManifest? m).isSome then { c with known := c.known.map (·.erase key) } else c

def wakeAll (scope : Scope) (c : Controller) (keys : List Key) : Controller :=
  (keys.filter scope.covers).foldl wake c

def seeObject (scope : Scope) (c : Controller) (kind : Kind) (m : Manifest) : Controller :=
  if kind = .pod then
    if c.followsPods && m.metadata.isPodOfRecord && (Pod.ofManifest? m).isSome then
      wakeAll scope c m.metadata.recordOfPod?.toList
    else c
  else if c.server.serves kind then wakeAll scope c m.metadata.owners
  else c

def put (scope : Scope) (c : Controller) (p : Place) (m : Manifest) : Controller :=
  let c := { c with server := c.server.write p m }
  match c.server.find? p with
  | none => c
  | some written =>
    if !c.isRunning || !scope.covers p.key then c
    else match p.resource with
      | .record => c.seeRecord p.key written
      | .object kind => seeObject scope c kind written

def patch (scope : Scope) (c : Controller) (p : Place) (patch : Json) :
    Except EditFailure Controller :=
  match c.server.find? p with
  | none => .error .noSuchObject
  | some m =>
    match m.patched? patch with
    | none => .error .undecodable
    | some m => .ok (c.put scope p m)

/-- Remove an object for a user; the removal of a record wakes nothing. -/
def remove (scope : Scope) (c : Controller) (p : Place) : Except EditFailure Controller :=
  match c.server.find? p with
  | none => .error .noSuchObject
  | some last =>
    let c := { c with server := c.server.remove p }
    match p.resource with
    | .record => .ok (c.forgetRecord p.key last)
    | .object kind => .ok (if c.isRunning then seeObject scope c kind last else c)

def listRecords (scope : Scope) (c : Controller) : Controller :=
  let found := (c.server.all .record).filter (fun e => scope.covers e.1)
  if c.known.isNone && scope.canList && found.all (fun e => (Instance.ofManifest? e.2).isSome) then
    found.foldl (fun c e => c.seeRecord e.1 e.2) { c with known := some [] }
  else c

def listPods (scope : Scope) (c : Controller) : Controller :=
  let found := (c.server.all (.object .pod)).filter (fun e =>
    scope.covers e.1 && e.2.metadata.isPodOfRecord)
  if !c.followsPods && scope.canList && found.all (fun e => (Pod.ofManifest? e.2).isSome) then
    found.foldl (fun c e => wakeAll scope c e.2.metadata.recordOfPod?.toList)
      { c with followsPods := true }
  else c

def start (scope : Scope) (c : Controller) : Controller :=
  ({ c with isRunning := true }.listRecords scope).listPods scope

def turnLimit (c : Controller) : Nat :=
  Round.passLimit * (c.pending.length + c.server.objects.length)

/-- Let the operator run until nothing is left to do, which it does as soon as it knows the
records. -/
def run (scope : Scope) (c : Controller) : List (Key × List Query) × Controller :=
  let c := c.start scope
  match c.known with
  | none => ([], c)
  | some known =>
    let r := Round.turns scope.context known c.turnLimit c.pending { server := c.server }
    (r.logs, { c with server := r.server, pending := r.waiting })

end Controller
end MailCapture
