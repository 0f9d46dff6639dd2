import MailCapture.Decimal.Shortest
/-!
How the digits of a binary64 value are laid out.  The choices of a format are one `Layout` value;
`write` follows it.
-/
namespace MailCapture.Decimal

structure Layout where
  /-- positional when `above < point`, the point counted from the first digit -/
  above : Int
  /-- positional when `point ≤ upTo` -/
  upTo : Int
  plus : Bool
  deriving DecidableEq, Repr

def zeros (count : Nat) : List Char := List.replicate count '0'

def writeExponent (plus : Bool) (e : Int) : List Char :=
  (if e < 0 then ['-'] else if plus then ['+'] else []) ++ Nat.toDigits 10 e.natAbs

/-- The digits of a decimal in the notation of a layout; a whole number keeps `.0`. -/
def Layout.place (layout : Layout) (d : Decimal) : List Char :=
  let ds := Nat.toDigits 10 d.digits
  let point : Int := ds.length + d.exponent
  if layout.above < point ∧ point ≤ layout.upTo then
    if point ≤ 0 then ['0', '.'] ++ zeros (-point).toNat ++ ds
    else if d.exponent ≥ 0 then ds ++ zeros d.exponent.toNat ++ ['.', '0']
    else ds.take point.toNat ++ '.' :: ds.drop point.toNat
  else
    let tail := ds.drop 1
    ds.take 1 ++ (if tail.isEmpty then [] else '.' :: tail) ++
      'e' :: writeExponent layout.plus (point - 1)

def Layout.write (layout : Layout) (digits : Double → Decimal) (x : Double) : List Char :=
  (if x.negative then ['-'] else []) ++
    (if x.isZero then ['0', '.', '0'] else layout.place (digits x))

end MailCapture.Decimal
