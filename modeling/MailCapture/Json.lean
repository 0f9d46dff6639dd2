import MailCapture.Entries
import MailCapture.Decimal.Double
/-!
JSON values.  A number is a whole number or a binary64 value, and the two are never equal; the
fields of an object are in ascending order of their names wherever this library builds one.
-/
namespace MailCapture

inductive Json where
  | null
  | bool (value : Bool)
  | int (value : Int)
  | double (value : Double)
  | str (value : String)
  | arr (items : List Json)
  | obj (fields : List (String × Json))
  deriving Repr, Inhabited

namespace Json

mutual

/-- Equality of values: doubles by number, objects by their fields in order. -/
def same : Json → Json → Bool
  | .null, .null => true
  | .bool a, .bool b => a == b
  | .int a, .int b => a == b
  | .double a, .double b => a.same b
  | .str a, .str b => a == b
  | .arr a, .arr b => sameItems a b
  | .obj a, .obj b => sameFields a b
  | _, _ => false

def sameItems : List Json → List Json → Bool
  | [], [] => true
  | a :: as, b :: bs => same a b && sameItems as bs
  | _, _ => false

def sameFields : List (String × Json) → List (String × Json) → Bool
  | [], [] => true
  | (k, a) :: as, (l, b) :: bs => k == l && same a b && sameFields as bs
  | _, _ => false

end

def empty : Json := .obj []

def fields? : Json → Option (Entries Json)
  | .obj fields => some fields
  | _ => none

def field? (v : Json) (key : String) : Option Json :=
  v.fields?.bind (Entries.get? · key)

def member (v : Json) (key : String) : Json := (v.field? key).getD .null

def ofNat (n : Nat) : Json := .int n

/-- Null, false, zero and everything empty: what a server may leave out. -/
def isZero : Json → Bool
  | .null => true
  | .bool b => !b
  | .int n => n == 0
  | .double x => x.isZero
  | .str s => s.isEmpty
  | .arr items => items.isEmpty
  | .obj fields => fields.isEmpty

mutual

theorem same_refl : (v : Json) → same v v = true
  | .null => rfl
  | .bool _ => by simp [same]
  | .int _ => by simp [same]
  | .double x => by simp [same, Double.same_refl]
  | .str _ => by simp [same]
  | .arr items => by simp [same, sameItems_refl items]
  | .obj fields => by simp [same, sameFields_refl fields]

theorem sameItems_refl : (items : List Json) → sameItems items items = true
  | [] => rfl
  | v :: rest => by simp [sameItems, same_refl v, sameItems_refl rest]

theorem sameFields_refl : (fields : List (String × Json)) → sameFields fields fields = true
  | [] => rfl
  | (k, v) :: rest => by simp [sameFields, same_refl v, sameFields_refl rest]

end

end Json
end MailCapture
