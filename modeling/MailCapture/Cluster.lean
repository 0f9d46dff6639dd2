import MailCapture.Pass
import MailCapture.Text.Pieces
/-!
A cluster in memory: objects and records by their keys, with the rules of an API server.  Every
write gives a fresh version, a write based on an older version is refused, the selector of a
deployment is fixed, and the server drops empty values and adds defaults of its own.
-/
namespace MailCapture

structure Slot where
  kind : Kind
  key : Key
  deriving DecidableEq, Repr

instance : LT Slot :=
  ⟨fun a b => a.kind.rank < b.kind.rank ∨ (a.kind.rank = b.kind.rank ∧ a.key < b.key)⟩

instance : DecidableLT Slot := fun a b =>
  inferInstanceAs
    (Decidable (a.kind.rank < b.kind.rank ∨ (a.kind.rank = b.kind.rank ∧ a.key < b.key)))

def Slot.text (s : Slot) : String := s.kind.name ++ " " ++ s.key.text

namespace Json

mutual

/-- A value without the fields that are `false` or the empty text, at every level. -/
def pruned : Json → Json
  | .obj fields => .obj (prunedFields fields)
  | .arr items => .arr (prunedItems items)
  | v => v

def prunedItems : List Json → List Json
  | [] => []
  | v :: rest => pruned v :: prunedItems rest

def prunedFields : List (String × Json) → List (String × Json)
  | [] => []
  | (_, .bool false) :: rest => prunedFields rest
  | (key, .str s) :: rest =>
    if s.isEmpty then prunedFields rest else (key, .str s) :: prunedFields rest
  | (key, v) :: rest => (key, pruned v) :: prunedFields rest

end

def withDefault (key : String) (value : Json) (fields : Entries Json) : Entries Json :=
  if Entries.has fields key then fields else Entries.put fields key value

def withDeploymentDefaults : Json → Json
  | .obj fields =>
    .obj (withDefault "progressDeadlineSeconds" (.int 600)
      (withDefault "revisionHistoryLimit" (.int 10) fields))
  | v => v

def deploymentStatus : Json := .obj [("observedGeneration", .int 1), ("replicas", .int 1)]

end Json

namespace Manifest

def normalized (m : Manifest) (kind : Kind) : Manifest :=
  let fields := Entries.update Json.pruned m.fields "spec"
  if kind = .deployment then
    let defaulted := Entries.update Json.withDeploymentDefaults fields "spec"
    ⟨m.types, m.metadata, Entries.put defaulted "status" Json.deploymentStatus⟩
  else ⟨m.types, m.metadata, fields⟩

def selector (m : Manifest) : Json := (m.field "spec").member "selector"

def meetsSelector (m : Manifest) (selector : String) : Bool :=
  ((Text.split ',' selector).filter (fun t => !t.isEmpty)).all (fun t =>
    match Text.splitOnce? '=' t with
    | some (k, v) => m.metadata.label? k == some v
    | none => false)

def key? (m : Manifest) : Except Failure Key :=
  match m.metadata.name, m.metadata.ns with
  | none, _ => .error (.missingField "metadata.name")
  | some _, none => .error (.missingField "metadata.namespace")
  | some name, some ns => .ok ⟨ns, name⟩

end Manifest

structure Cluster where
  objects : List (Slot × Manifest) := []
  records : List (Key × Instance) := []
  /-- the last version that was given -/
  revision : Nat := 0

namespace Cluster

def nextVersion (c : Cluster) : String := toString (c.revision + 1)

def object? (c : Cluster) (kind : Kind) (key : Key) : Option Manifest :=
  Entries.get? c.objects ⟨kind, key⟩

def record? (c : Cluster) (key : Key) : Option Instance := Entries.get? c.records key

def putObject (c : Cluster) (slot : Slot) (m : Manifest) : Cluster :=
  { c with
    objects := Entries.put c.objects slot
      (m.withMetadata (fun x => { x with resourceVersion := some c.nextVersion }))
    revision := c.revision + 1 }

def putRecord (c : Cluster) (key : Key) (i : Instance) : Cluster :=
  { c with
    records := Entries.put c.records key
      { i with metadata := { i.metadata with resourceVersion := some c.nextVersion } }
    revision := c.revision + 1 }

def removeObject (c : Cluster) (slot : Slot) : Cluster :=
  { c with objects := Entries.remove c.objects slot }

def removeRecord (c : Cluster) (key : Key) : Cluster :=
  { c with records := Entries.remove c.records key }

def stored (c : Cluster) (slot : Slot) (m : Manifest) : Manifest :=
  (Entries.get? c.objects slot).getD m

def uidOf (slot : Slot) : String := slot.kind.name.map Char.toLower ++ "-" ++ slot.key.name

def create (c : Cluster) (kind : Kind) (key : Key) (m : Manifest) :
    Except Failure Manifest × Cluster :=
  let slot : Slot := ⟨kind, key⟩
  if Entries.has c.objects slot then (.error (.alreadyExists slot.text), c)
  else
    let new := (m.withMetadata (fun x => { x with
      uid := some (uidOf slot)
      generation := some 1 })).normalized kind
    let c := c.putObject slot new
    (.ok (c.stored slot new), c)

def replace (c : Cluster) (kind : Kind) (key : Key) (m : Manifest) :
    Except Failure Manifest × Cluster :=
  let slot : Slot := ⟨kind, key⟩
  match Entries.get? c.objects slot with
  | none => (.error (.notFound slot.text), c)
  | some current =>
    if m.metadata.resourceVersion ≠ current.metadata.resourceVersion then
      (.error (.conflict (slot.text ++ ": stale resourceVersion")), c)
    else if kind = .deployment && !m.selector.same current.selector then
      (.error (.invalid (slot.text ++ ": spec.selector: field is immutable")), c)
    else
      let new := (m.withMetadata (fun x => { x with
        uid := current.metadata.uid
        generation := current.metadata.generation.map (· + 1) })).normalized kind
      let c := c.putObject slot new
      (.ok (c.stored slot new), c)

def delete (c : Cluster) (kind : Kind) (key : Key) : Except Failure Unit × Cluster :=
  let slot : Slot := ⟨kind, key⟩
  if Entries.has c.objects slot then (.ok (), c.removeObject slot)
  else (.error (.notFound slot.text), c)

def list (c : Cluster) (kind : Kind) (ns selector : String) : List Manifest :=
  (c.objects.filter (fun e =>
    e.1.kind = kind && e.1.key.ns == ns && e.2.meetsSelector selector)).map Prod.snd

def replaceStatus (c : Cluster) (i : Instance) : Except Failure Instance × Cluster :=
  let what := "MailhogInstance " ++ i.key.text
  match c.record? i.key with
  | none => (.error (.notFound what), c)
  | some current =>
    if i.metadata.resourceVersion ≠ current.metadata.resourceVersion then
      (.error (.conflict (what ++ ": stale resourceVersion")), c)
    else
      let new := { current with status := i.status }
      let c := c.putRecord i.key new
      (.ok ((c.record? i.key).getD new), c)

def answer (c : Cluster) : (call : StoreCall) → Except Failure call.Answer × Cluster
  | .get kind key => (.ok (c.object? kind key), c)
  | .create kind m =>
    match m.key? with
    | .error f => (.error f, c)
    | .ok key => c.create kind key m
  | .replace kind m =>
    match m.key? with
    | .error f => (.error f, c)
    | .ok key => c.replace kind key m
  | .delete kind key _ => c.delete kind key
  | .list kind ns selector => (.ok (c.list kind ns selector), c)
  | .getInstance key => (.ok (c.record? key), c)
  | .replaceStatus i => c.replaceStatus i

def inventory (c : Cluster) : List String :=
  c.objects.map (fun e => e.1.text ++ " rv=" ++ (e.2.metadata.resourceVersion.getD "-"))

end Cluster
end MailCapture
