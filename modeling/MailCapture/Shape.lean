import MailCapture.Metadata
/-!
The shapes of cluster objects of which this library uses only parts.  All of a value has to be of
its types, by the lenient rule; what was read is written back without the names that its shape does
not know.
-/
namespace MailCapture

inductive Shape where
  /-- a type with a reader of its own: what is written for a value, and for a missing one -/
  | leaf (read : Document → Option Json) (missing : Json)
  | list (item : Shape)
  | map (value : Shape)
  /-- fields that are always written, and fields that are written only where they are given -/
  | record (always sometimes : List (String × Shape))

namespace Shape

/-! ### Leaves -/

def known {α : Type} (read : Document → Option α) (toJson : α → Json) (missing : α) : Shape :=
  .leaf (fun v => (read v).map toJson) (toJson missing)

def text : Shape := known Wire.string? .str ""

def flag : Shape := known Wire.bool? .bool false

def int32 : Shape := known Wire.int32? Wire.int32 0

def int64 : Shape := known Wire.int64? Wire.int64 0

def time : Shape := known Time.read? Time.toJson ⟨0, 0⟩

def metadata : Shape := known Metadata.read? Metadata.toJson {}

def texts : Shape := .list text

def textMap : Shape := .map text

/-! ### Fields -/

def each (s : Shape) (names : List String) : List (String × Shape) := names.map (fun n => (n, s))

def named (names : List String) : Shape := .record (text.each names) []

def optionalTexts (names : List String) : Shape := .record [] (text.each names)

def typedReference (more : List String) : Shape :=
  .record (text.each ["kind", "name"]) (text.each ("apiGroup" :: more))

/-! ### Reading and writing back -/

mutual

def missing : Shape → Json
  | .leaf _ missing => missing
  | .list _ => .arr []
  | .map _ => .obj []
  | .record always _ => .obj (Entries.ofPairs (missingFields always))

def missingFields : List (String × Shape) → List (String × Json)
  | [] => []
  | (name, s) :: rest => (name, missing s) :: missingFields rest

end

mutual

def read? : Shape → Document → Option Json
  | .leaf read _ => read
  | .list item => fun v => (Wire.list? (read? item) v).map .arr
  | .map value => fun v => (Wire.map? (read? value) v).map .obj
  | .record always sometimes => fun v => do
    let members ← v.members?
    let given ← alwaysFields? always members
    let more ← sometimesFields? sometimes members
    return .obj (Entries.ofPairs (given ++ more))

def alwaysFields? : List (String × Shape) → Members → Option (List (String × Json))
  | [], _ => some []
  | (name, s) :: rest, members => do
    let v ← Wire.lenient members name (read? s) (missing s)
    return (name, v) :: (← alwaysFields? rest members)

def sometimesFields? : List (String × Shape) → Members → Option (List (String × Json))
  | [], _ => some []
  | (name, s) :: rest, members => do
    let found ← Wire.optional members name (read? s)
    let more ← sometimesFields? rest members
    return (found.map (fun v => (name, v))).toList ++ more

end

end Shape
end MailCapture
