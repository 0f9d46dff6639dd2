import MailCapture.Cluster
import MailCapture.Store.Remote
/-!
An API server in memory that keeps objects as they are written.  It names them and their types by
their place, gives every write a fresh version, counts changes of the spec, and refuses stale writes
and changed selectors.  Requests about kinds that it does not serve find nothing, though their
objects may be stored.
-/
namespace MailCapture

inductive Resource where
  | record
  | object (kind : Kind)
  deriving DecidableEq, Repr

namespace Resource

def plural : Resource → String
  | .record => Instance.plural
  | .object kind => kind.plural

def types : Resource → TypeNames
  | .record => ⟨Instance.apiVersion, Instance.kindName⟩
  | .object kind => ⟨kind.apiVersion, kind.name⟩

end Resource

structure Place where
  resource : Resource
  key : Key
  deriving DecidableEq, Repr

namespace Place

def text (p : Place) : String := p.resource.plural ++ " " ++ p.key.text

instance : LT Place :=
  ⟨fun a b => a.resource.plural < b.resource.plural ∨
    (a.resource.plural = b.resource.plural ∧ a.key < b.key)⟩

instance : DecidableLT Place := fun a b =>
  inferInstanceAs (Decidable (a.resource.plural < b.resource.plural ∨
    (a.resource.plural = b.resource.plural ∧ a.key < b.key)))

end Place

namespace Manifest

def storedAs (m : Manifest) : Resource → Manifest
  | .record => m
  | .object .pod => m
  | .object kind =>
    let normal := m.normalized kind
    match Entries.get? m.fields "status" with
    | none => normal
    | some status => ⟨normal.types, normal.metadata, Entries.put normal.fields "status" status⟩

end Manifest

def Instance.ofManifest? (m : Manifest) : Option Instance := m.toJson.as? Instance.read?

structure Server where
  objects : List (Place × Manifest) := []
  /-- kinds whose API group is not served -/
  unserved : List ChildKind := []
  /-- the last version that was given -/
  revision : Nat := 0

namespace Server

def find? (s : Server) (p : Place) : Option Manifest := Entries.get? s.objects p

def serves (s : Server) (kind : Kind) : Bool := kind.child?.all (fun k => !s.unserved.contains k)

def served? (s : Server) (kind : Kind) (key : Key) : Option Manifest :=
  if s.serves kind then s.find? ⟨.object kind, key⟩ else none

def all (s : Server) (r : Resource) : List (Key × Manifest) :=
  s.objects.filterMap (fun e => if e.1.resource = r then some (e.1.key, e.2) else none)

/-- The generation of an object after a write: one more whenever the spec is another. -/
def nextGeneration (previous : Option Manifest) (m : Manifest) : Int64 :=
  match previous with
  | none => 1
  | some old =>
    let last := old.metadata.generation.getD 1
    if (old.field "spec").same (m.field "spec") then last else last + 1

def stored (s : Server) (p : Place) (m : Manifest) : Manifest :=
  let kept := (m.storedAs p.resource).withTypes p.resource.types
  kept.withMetadata (fun x => { x with
    name := some p.key.name
    ns := some p.key.ns
    uid := some (p.resource.plural ++ "-" ++ p.key.name)
    resourceVersion := some (toString (s.revision + 1))
    generation := some (nextGeneration (s.find? p) kept) })

def write (s : Server) (p : Place) (m : Manifest) : Server :=
  { s with objects := Entries.put s.objects p (s.stored p m), revision := s.revision + 1 }

def remove (s : Server) (p : Place) : Server := { s with objects := Entries.remove s.objects p }

def subject (kind : Kind) (key : Key) : String := kind.name ++ " " ++ key.text

def create (s : Server) (kind : Kind) (key : Key) (m : Manifest) :
    Except Failure Manifest × Server :=
  let p : Place := ⟨.object kind, key⟩
  if !s.serves kind then (.error (.notFound (subject kind key)), s)
  else if (s.find? p).isSome then (.error (.alreadyExists (subject kind key)), s)
  else (.ok (s.stored p m), s.write p m)

def replace (s : Server) (kind : Kind) (key : Key) (m : Manifest) :
    Except Failure Manifest × Server :=
  let p : Place := ⟨.object kind, key⟩
  let what := subject kind key
  match s.served? kind key with
  | none => (.error (.notFound what), s)
  | some current =>
    let stale := m.metadata.resourceVersion.isSome &&
      m.metadata.resourceVersion != current.metadata.resourceVersion
    if stale then (.error (.conflict (what ++ ": stale resourceVersion")), s)
    else if kind = .deployment && !m.selector.same current.selector then
      (.error (.invalid (what ++ ": spec.selector: field is immutable")), s)
    else (.ok (s.stored p m), s.write p m)

def delete (s : Server) (kind : Kind) (key : Key) : Except Failure Unit × Server :=
  match s.served? kind key with
  | none => (.error (.notFound (subject kind key)), s)
  | some _ => (.ok (), s.remove ⟨.object kind, key⟩)

def list (s : Server) (kind : Kind) (ns selector : String) : List Manifest :=
  (s.all (.object kind)).filterMap (fun e =>
    if e.1.ns = ns ∧ e.2.meetsSelector selector then some e.2 else none)

/-- The record that the address of a key leads to, if there is one; it has to have the form of
one. -/
def record? (s : Server) (key : Key) : Except Failure (Option Instance) :=
  match Remote.recordAt? key with
  | none => .error .badRequest
  | some none => .ok none
  | some (some addressed) =>
    match s.find? ⟨.record, addressed⟩ with
    | none => .ok none
    | some m =>
      match Instance.ofManifest? m with
      | none => .error .unreadableReply
      | some i => .ok (some i)

def replaceStatus (s : Server) (i : Instance) : Except Failure Instance × Server :=
  let p : Place := ⟨.record, i.key⟩
  let what := "MailhogInstance " ++ i.key.text
  match s.find? p with
  | none => (.error (.notFound what), s)
  | some current =>
    if i.metadata.resourceVersion ≠ current.metadata.resourceVersion then
      (.error (.conflict (what ++ ": stale resourceVersion")), s)
    else
      let fields := match i.status with
        | none => Entries.remove current.fields "status"
        | some status => Entries.put current.fields "status" status.toJson
      let s := s.write p ⟨current.types, current.metadata, fields⟩
      match (s.find? p).bind Instance.ofManifest? with
      | some written => (.ok written, s)
      | none => (.error .unreadableReply, s)

def answer (s : Server) : (c : StoreCall) → Except Failure c.Answer × Server
  | .get kind key => (.ok (s.served? kind key), s)
  | .create kind m =>
    match m.key? with
    | .error f => (.error f, s)
    | .ok key => s.create kind key m
  | .replace kind m =>
    match m.key? with
    | .error f => (.error f, s)
    | .ok key => s.replace kind key m
  | .delete kind key _ => s.delete kind key
  | .list kind ns selector => (.ok (s.list kind ns selector), s)
  | .getInstance key => (s.record? key, s)
  | .replaceStatus i => s.replaceStatus i

end Server
end MailCapture
