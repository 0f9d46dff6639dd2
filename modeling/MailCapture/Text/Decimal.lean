/-!
The texts of floating-point numbers: an optional sign before a word for infinity or no number, or
before decimal digits with an optional point and an optional exponent.
-/
namespace MailCapture.Text

def unsigned : List Char → List Char
  | '+' :: rest => rest
  | '-' :: rest => rest
  | cs => cs

def isSpecialNumber (cs : List Char) : Bool :=
  ["inf", "infinity", "nan"].any (fun w => cs.map Char.toLower == w.toList)

def isDigits (cs : List Char) : Bool := !cs.isEmpty && cs.all Char.isDigit

def isExponentPart : List Char → Bool
  | [] => true
  | c :: rest => (c == 'e' || c == 'E') && isDigits (unsigned rest)

/-- Digits with an optional point among or beside them, and an optional exponent. -/
def isDecimalText (cs : List Char) : Bool :=
  let whole := cs.takeWhile Char.isDigit
  match cs.dropWhile Char.isDigit with
  | '.' :: rest =>
    (!whole.isEmpty || !(rest.takeWhile Char.isDigit).isEmpty) &&
      isExponentPart (rest.dropWhile Char.isDigit)
  | rest => !whole.isEmpty && isExponentPart rest

def isFloatText (s : String) : Bool :=
  let cs := unsigned s.toList
  isSpecialNumber cs || isDecimalText cs

end MailCapture.Text
