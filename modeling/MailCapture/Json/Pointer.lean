import MailCapture.Json
import MailCapture.Text.Pieces
/-!
Pointers into a JSON value: slash-separated names, with `~1` for a slash and `~0` for a tilde.
-/
namespace MailCapture.Json

def pointerName : List Char → List Char
  | '~' :: '1' :: rest => '/' :: pointerName rest
  | '~' :: '0' :: rest => '~' :: pointerName rest
  | c :: rest => c :: pointerName rest
  | [] => []

/-- An array position: digits without a leading zero. -/
def position? (cs : List Char) : Option Nat :=
  if cs.isEmpty || !cs.all Char.isDigit || (cs.length > 1 && cs.head? == some '0') then none
  else some (Nat.ofDigitChars 10 cs 0)

def child? (v : Json) (name : List Char) : Option Json :=
  match v with
  | .obj fields => Entries.get? fields (String.ofList name)
  | .arr items => (position? name).bind (items[·]?)
  | _ => none

def pointer? (v : Json) (path : String) : Option Json :=
  match path.toList with
  | [] => some v
  | '/' :: rest => ((Text.pieces '/' rest).map pointerName).foldlM child? v
  | _ => none

end MailCapture.Json
