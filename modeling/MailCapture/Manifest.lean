import MailCapture.Json.MergePatch
import MailCapture.Metadata
/-!
Objects of any kind: type names and metadata are typed, everything else is kept as it is.
-/
namespace MailCapture

structure TypeNames where
  apiVersion : String
  kind : String
  deriving DecidableEq, Repr

/-- An object of any kind; `fields` are those beside type names and metadata. -/
structure Manifest where
  types : Option TypeNames
  metadata : Metadata
  fields : Entries Json

structure TypeNames.Found where
  apiVersion : Option String := none
  kind : Option String := none

namespace TypeNames

/-- Take the type names out of members in their order.  The first member that names a type again, or
by no text, ends the search: then there are none, but what was taken is gone. -/
def take (found : Found) : List (String × Json) → Option TypeNames × List (String × Json)
  | [] =>
    (match found.apiVersion, found.kind with
      | some apiVersion, some kind => some ⟨apiVersion, kind⟩
      | _, _ => none, [])
  | (key, v) :: rest =>
    if key = "apiVersion" then
      match found.apiVersion, v with
      | none, .str s => take { found with apiVersion := some s } rest
      | _, _ => (none, rest)
    else if key = "kind" then
      match found.kind, v with
      | none, .str s => take { found with kind := some s } rest
      | _, _ => (none, rest)
    else
      let (types, others) := take found rest
      (types, (key, v) :: others)

end TypeNames

namespace Manifest

/-- Metadata are read by their type.  All other members have to have values; they are kept, except
for the type names. -/
def read? (v : Document) : Option Manifest := do
  let members ← Wire.object? ["metadata"] v
  let metadata ← Wire.defaulted members "metadata" Metadata.read? {}
  let others ← Document.memberValues? (members.filter (fun m => m.1 ≠ "metadata"))
  let (types, others) := TypeNames.take {} others
  return ⟨types, metadata, Entries.ofPairs others⟩

def toJson (m : Manifest) : Json :=
  let fields := Entries.put m.fields "metadata" m.metadata.toJson
  match m.types with
  | none => .obj fields
  | some t =>
    .obj (Entries.put (Entries.put fields "apiVersion" (.str t.apiVersion)) "kind" (.str t.kind))

def field (m : Manifest) (key : String) : Json := (Entries.get? m.fields key).getD .null

def patched? (m : Manifest) (patch : Json) : Option Manifest :=
  (m.toJson.mergePatch patch).as? read?

def withMetadata (m : Manifest) (change : Metadata → Metadata) : Manifest :=
  { m with metadata := change m.metadata }

def withTypes (m : Manifest) (types : TypeNames) : Manifest :=
  ⟨some types, m.metadata, Entries.remove (Entries.remove m.fields "apiVersion") "kind"⟩

end Manifest
end MailCapture
