import MailCapture.Document.Token
/-!
From tokens to a document.  Containers that are still open stand on a stack.  A container inside 127
others cannot be read, nor can an object with a name that has no text.
-/
namespace MailCapture

namespace Document

inductive Frame where
  /-- items read so far, in reverse -/
  | array (items : List Document)
  /-- members read so far, in reverse, and the name whose value comes next -/
  | object (members : List (Option String × Document)) (key : Option String)

inductive Phase where
  | value
  | firstItem
  | firstKey
  | key
  | colon
  | afterValue
  | done (v : Document)

structure Builder where
  stack : List Frame
  phase : Phase

def depthLimit : Nat := 127

def Builder.deliver (stack : List Frame) (v : Document) : Builder :=
  match stack with
  | [] => ⟨[], .done v⟩
  | .array items :: rest => ⟨.array (v :: items) :: rest, .afterValue⟩
  | .object members key :: rest => ⟨.object ((key, v) :: members) key :: rest, .afterValue⟩

def Builder.deliverContainer (stack : List Frame) (v : Document) : Builder :=
  deliver stack (if stack.length < depthLimit then v else .unreadable)

def Builder.start (stack : List Frame) : Token → Option Builder
  | .atom v => some (deliver stack v)
  | .text (some s) => some (deliver stack (.str s))
  | .text none => some (deliver stack .unreadable)
  | .openArray => some ⟨.array [] :: stack, .firstItem⟩
  | .openObject => some ⟨.object [] none :: stack, .firstKey⟩
  | _ => none

def ofMembers (members : List (Option String × Document)) : Document :=
  match members.reverse.mapM (fun m => m.1.map (fun key => (key, m.2))) with
  | some members => .obj members
  | none => .unreadable

def Builder.close (stack : List Frame) : Token → Option Builder
  | .closeArray =>
    match stack with
    | .array items :: rest => some (deliverContainer rest (.arr items.reverse))
    | _ => none
  | .closeObject =>
    match stack with
    | .object members _ :: rest => some (deliverContainer rest (ofMembers members))
    | _ => none
  | _ => none

def Builder.named (stack : List Frame) : Token → Option Builder
  | .text s =>
    match stack with
    | .object members _ :: rest => some ⟨.object members s :: rest, .colon⟩
    | _ => none
  | _ => none

def Builder.step (b : Builder) (t : Token) : Option Builder :=
  match b.phase, t with
  | .value, t => start b.stack t
  | .firstItem, .closeArray => close b.stack t
  | .firstItem, t => start b.stack t
  | .firstKey, .closeObject => close b.stack t
  | .firstKey, t => named b.stack t
  | .key, t => named b.stack t
  | .colon, .colon => some ⟨b.stack, .value⟩
  | .afterValue, .comma =>
    match b.stack with
    | .array _ :: _ => some ⟨b.stack, .value⟩
    | .object _ _ :: _ => some ⟨b.stack, .key⟩
    | [] => none
  | .afterValue, t => close b.stack t
  | _, _ => none

def ofTokens? (ts : List Token) : Option Document :=
  (ts.foldlM Builder.step ⟨[], .value⟩).bind (fun b =>
    match b.phase with
    | .done v => some v
    | _ => none)

def parse? (s : String) : Option Document := (tokens? s.toList).bind ofTokens?

end Document

def Json.parse? (s : String) : Option Json := (Document.parse? s).bind Document.value?

end MailCapture
