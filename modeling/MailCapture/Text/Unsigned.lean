/-!
Whole numbers in settings: an optional plus, then ASCII digits, up to a largest value.
-/
namespace MailCapture.Text

def digitsValue? (cs : List Char) : Option Nat :=
  if cs.isEmpty || !cs.all Char.isDigit then none else some (Nat.ofDigitChars 10 cs 0)

def unsigned? (largest : Nat) (s : String) : Option Nat :=
  let n? := match s.toList with
    | '+' :: rest => digitsValue? rest
    | cs => digitsValue? cs
  n?.filter (· ≤ largest)

end MailCapture.Text
