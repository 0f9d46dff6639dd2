import MailCapture.Json
/-!
JSON as it is written.  A document keeps fields in their order and repeated names, and marks what
has no value: numbers out of range, texts with half of a pair, and containers that are nested too
deep.  What is marked may stand wherever nobody reads it.
-/
namespace MailCapture

inductive Document where
  | null
  | bool (value : Bool)
  | int (value : Int)
  | double (value : Double)
  | str (value : String)
  | arr (items : List Document)
  | obj (fields : List (String × Document))
  /-- written as JSON, but without a value -/
  | unreadable
  deriving Repr, Inhabited

abbrev Members := List (String × Document)

namespace Document

mutual

def ofJson : Json → Document
  | .null => .null
  | .bool b => .bool b
  | .int n => .int n
  | .double x => .double x
  | .str s => .str s
  | .arr items => .arr (ofItems items)
  | .obj fields => .obj (ofFields fields)

def ofItems : List Json → List Document
  | [] => []
  | v :: rest => ofJson v :: ofItems rest

def ofFields : List (String × Json) → Members
  | [] => []
  | (key, v) :: rest => (key, ofJson v) :: ofFields rest

end

mutual

/-- The value of a document; of two members with one name the later wins. -/
def value? : Document → Option Json
  | .null => some .null
  | .bool b => some (.bool b)
  | .int n => some (.int n)
  | .double x => some (.double x)
  | .str s => some (.str s)
  | .arr items => (itemValues? items).map .arr
  | .obj fields => (memberValues? fields).map (fun es => .obj (Entries.ofPairs es))
  | .unreadable => none

def itemValues? : List Document → Option (List Json)
  | [] => some []
  | d :: rest => do return (← value? d) :: (← itemValues? rest)

def memberValues? : Members → Option (List (String × Json))
  | [] => some []
  | (key, d) :: rest => do return (key, ← value? d) :: (← memberValues? rest)

end

def members? : Document → Option Members
  | .obj members => some members
  | _ => none

end Document

def Json.as? {α : Type} (read : Document → Option α) (v : Json) : Option α :=
  read (Document.ofJson v)

end MailCapture
