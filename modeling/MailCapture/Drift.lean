import MailCapture.Document.Parser
import MailCapture.Json.Printer
import MailCapture.Manifest
/-!
Whether an observed object has drifted from the desired one.

The two are compared field by field.  What the server adds by itself does not count, because the
desired object has no such field.  A field that the operator no longer sets is found through the
last-applied annotation: it was applied, is no longer desired and is still there.  A desired zero
value matches a missing field, since servers leave zero values out.
-/
namespace MailCapture

def lastAppliedAnnotation : String := "mailhog.operators.patrick.mx/last-applied"

def serverMetadata : List String :=
  ["uid", "resourceVersion", "generation", "creationTimestamp", "deletionTimestamp",
    "deletionGracePeriodSeconds", "managedFields", "selfLink"]

namespace Json

/-- Annotations without the last-applied one; nothing when none are left. -/
def comparableAnnotations? : Json → Option Json
  | .obj annotations =>
    let rest := Entries.remove annotations lastAppliedAnnotation
    if rest.isEmpty then none else some (.obj rest)
  | .null => none
  | v => some v

def comparableMetadata (fields : Entries Json) : Entries Json :=
  let own := serverMetadata.foldl Entries.remove fields
  match Entries.get? own "annotations" with
  | none => own
  | some v =>
    match comparableAnnotations? v with
    | none => Entries.remove own "annotations"
    | some kept => Entries.put own "annotations" kept

/-- The part of an object that takes part in a comparison: all but its status, the metadata of the
server and the last-applied annotation. -/
def comparable : Json → Json
  | .obj fields =>
    let root := Entries.remove fields "status"
    match Entries.get? root "metadata" with
    | some (.obj metadata) =>
      .obj (Entries.put root "metadata" (.obj (comparableMetadata metadata)))
    | _ => .obj root
  | v => v

def lastField? (last : Option Json) (key : String) : Option Json :=
  last.bind (·.field? key)

def lastItem? (last : Option Json) (i : Nat) : Option Json :=
  match last with
  | some (.arr items) => items[i]?
  | _ => none

def isDropped (desired current : Entries Json) (last : Option Json) : Bool :=
  match last with
  | some (.obj applied) =>
    applied.any (fun e => !Entries.has desired e.1 && Entries.has current e.1)
  | _ => false

mutual

/-- Whether `current` deviates from `desired`, where `last` is what was applied before. -/
def differs (desired : Json) (current : Json) (last : Option Json) : Bool :=
  match desired, current with
  | .obj d, .obj c => fieldsDiffer d c last || isDropped d c last
  | .arr d, .arr c => d.length != c.length || itemsDiffer d c last 0
  | d, c => !d.same c

def fieldsDiffer : List (String × Json) → Entries Json → Option Json → Bool
  | [], _, _ => false
  | (key, v) :: rest, current, last =>
    (match Entries.get? current key with
      | none => !v.isZero
      | some c => differs v c (lastField? last key)) ||
    fieldsDiffer rest current last

def itemsDiffer : List Json → List Json → Option Json → Nat → Bool
  | d :: ds, c :: cs, last, i =>
    differs d c (lastItem? last i) || itemsDiffer ds cs last (i + 1)
  | _, _, _, _ => false

end

end Json

namespace Manifest

def comparable (m : Manifest) : Json := m.toJson.comparable

/-- The object with its own comparable part in the last-applied annotation. -/
def stamp (m : Manifest) : Manifest :=
  m.withMetadata (fun metadata => { metadata with
    annotations := some (Entries.put (metadata.annotations.getD []) lastAppliedAnnotation
      m.comparable.render) })

def lastApplied? (m : Manifest) : Option Json :=
  (m.metadata.annotation? lastAppliedAnnotation).bind Json.parse?

def needsUpdate (observed desired : Manifest) : Bool :=
  desired.comparable.differs observed.comparable observed.lastApplied?

def settled (observed desired : Manifest) : Manifest :=
  if needsUpdate observed desired then desired.stamp else observed

end Manifest
end MailCapture
