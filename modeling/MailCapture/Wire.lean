import MailCapture.Document
/-!
Reading typed values from documents and writing them as JSON.

Two rules for reading structures stand side by side.  Under the strict rule a structure is an
object that names no field twice, or an array of its fields in order; a field may be left out only
if it has a default, and `null` is a value only for optional fields.  Under the lenient rule a
structure is an object, a field that is missing or `null` has its default, and of a field that is
named more than once every value has to fit and the last one stands.  Names that a structure does
not know are ignored by both, and so is what stands under them.
-/
namespace MailCapture.Wire
variable {α : Type}

def string? : Document → Option String
  | .str s => some s
  | _ => none

def bool? : Document → Option Bool
  | .bool b => some b
  | _ => none

def whole? (low high : Int) : Document → Option Int
  | .int n => if low ≤ n ∧ n ≤ high then some n else none
  | _ => none

def int32? (v : Document) : Option Int32 :=
  (whole? (-2147483648) 2147483647 v).map Int32.ofInt

def int64? (v : Document) : Option Int64 :=
  (whole? (-9223372036854775808) 9223372036854775807 v).map Int64.ofInt

def uint16? (v : Document) : Option UInt16 :=
  (whole? 0 65535 v).map (fun n => UInt16.ofNat n.toNat)

def uint32? (v : Document) : Option UInt32 :=
  (whole? 0 4294967295 v).map (fun n => UInt32.ofNat n.toNat)

def uint64? (v : Document) : Option UInt64 :=
  (whole? 0 18446744073709551615 v).map (fun n => UInt64.ofNat n.toNat)

def double? : Document → Option Double
  | .int n => Double.ofRatio (decide (n < 0)) n.natAbs 1
  | .double x => some x
  | _ => none

def list? (item : Document → Option α) : Document → Option (List α)
  | .arr items => items.mapM item
  | _ => none

/-- A map; of two values under one name the later stands. -/
def map? (value : Document → Option α) : Document → Option (Entries α)
  | .obj members =>
    (members.mapM (fun m => (value m.2).map (fun v => (m.1, v)))).map Entries.ofPairs
  | _ => none

def strings? : Document → Option (List String) := list? string?

def stringMap? : Document → Option (Entries String) := map? string?

def nullable (value : Document → Option α) : Document → Option (Option α)
  | .null => some none
  | v => (value v).map some

/-- A name out of a fixed choice, alone or as the only field of an object with value `null`. -/
def choice? (choices : List (String × α)) : Document → Option α
  | .str s => choices.lookup s
  | .obj [(s, .null)] => choices.lookup s
  | _ => none

/-! ### Fields -/

def occurrences (members : Members) (key : String) : Nat := members.countP (fun m => m.1 = key)

def readings (members : Members) (key : String) (value : Document → Option α) :
    Option (List α) :=
  (members.filter (fun m => m.1 = key)).mapM (fun m => value m.2)

def defaulted (members : Members) (key : String) (value : Document → Option α) (missing : α) :
    Option α :=
  (readings members key value).map (fun vs => vs.getLastD missing)

def optional (members : Members) (key : String) (value : Document → Option α) :
    Option (Option α) :=
  defaulted members key (nullable value) none

/-! ### The strict rule -/

def object? (names : List String) (v : Document) : Option Members :=
  v.members?.filter (fun members => names.all (fun n => occurrences members n ≤ 1))

/-- The fields of a structure given as an object without repetitions, or as an array in the order of
their names. -/
def structure? (names : List String) (v : Document) : Option Members :=
  match v with
  | .arr items => if items.length ≤ names.length then some (names.zip items) else none
  | v => object? names v

def required (members : Members) (key : String) (value : Document → Option α) : Option α :=
  (readings members key value).bind List.getLast?

/-! ### The lenient rule -/

/-- A field whose default stands for `null`, too. -/
def lenient (members : Members) (key : String) (value : Document → Option α) (missing : α) :
    Option α :=
  (optional members key value).map (·.getD missing)

def lenientText (members : Members) (key : String) : Option String :=
  lenient members key string? ""

/-- Type names of an object: each may be missing and otherwise has to be the right one. -/
def typeNames? (members : Members) (apiVersion kind : String) : Option Unit := do
  let right (name : String) (v : Document) : Option Unit :=
    (string? v).bind (fun s => if s = name then some () else none)
  let () ← defaulted members "apiVersion" (right apiVersion) ()
  defaulted members "kind" (right kind) ()

/-! ### Writing -/

/-- The object of the fields that are there, which are given in ascending order of their names. -/
def record (fields : List (String × Option Json)) : Json :=
  .obj (fields.filterMap (fun e => e.2.map (fun v => (e.1, v))))

def unlessEmpty (s : String) : Option Json := if s.isEmpty then none else some (.str s)

def strings (items : List String) : Json := .arr (items.map .str)

def stringMap (m : Entries String) : Json := .obj (m.map (fun e => (e.1, .str e.2)))

def int32 (n : Int32) : Json := .int n.toInt

def int64 (n : Int64) : Json := .int n.toInt

end MailCapture.Wire
