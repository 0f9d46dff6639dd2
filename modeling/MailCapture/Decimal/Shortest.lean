import MailCapture.Decimal.Double
/-!
The fewest decimal digits that read back to a binary64 value.  The reals that round to the value
form an interval; for one, two, … seventeen digits the two neighbours of the value on that decimal
grid are tested, the first grid with a hit wins and of two hits the nearer.
-/
namespace MailCapture

structure Decimal where
  digits : Nat
  exponent : Int
  deriving DecidableEq, Repr

namespace Double

/-- Compare a · 10 ^ i with n · 2 ^ j. -/
def compareScaled (a : Nat) (i : Int) (n : Nat) (j : Int) : Ordering :=
  compare (a * Nat.pow 10 i.toNat * Nat.pow 2 (-j).toNat)
    (n * Nat.pow 2 j.toNat * Nat.pow 10 (-i).toNat)

/-- Whether a decimal lies among the reals that round to the magnitude of `x`; the ends of that
interval belong to it when the mantissa is even. -/
def readsBack (x : Double) (d : Decimal) : Bool :=
  let narrow := x.mantissa == Nat.pow 2 52 && x.exponent > -1074
  let low := if narrow then 4 * x.mantissa - 1 else 4 * x.mantissa - 2
  let high := 4 * x.mantissa + 2
  let ends := x.mantissa % 2 == 0
  let below := compareScaled d.digits d.exponent low (x.exponent - 2)
  let above := compareScaled d.digits d.exponent high (x.exponent - 2)
  (below == .gt || (ends && below == .eq)) && (above == .lt || (ends && above == .eq))

/-- The least k with magnitude < 10 ^ k, for a value that is not zero. -/
def scale (x : Double) : Int :=
  let bits : Int := x.exponent + (x.mantissa.log2 : Int)
  let guess : Int := bits * 30103 / 100000 - 1
  match (List.range 5).find? (fun (i : Nat) =>
      compareScaled 1 (guess + i) x.mantissa x.exponent == .gt) with
  | some i => guess + (i : Int)
  | none => guess

/-- The neighbours on the grid 10 ^ exponent that read back, the nearer first; of two equally near
ones the even one. -/
def onGrid (x : Double) (exponent : Int) : Option Decimal :=
  let (num, den) := x.ratio
  let n := num * Nat.pow 10 (-exponent).toNat
  let d := den * Nat.pow 10 exponent.toNat
  let low := n / d
  let r := n % d
  let first := if 2 * r < d ∨ (2 * r = d ∧ low % 2 = 0) then low else low + 1
  let second := if first = low then low + 1 else low
  [first, second].findSome? (fun c =>
    let dec : Decimal := ⟨c, exponent⟩
    if x.readsBack dec then some dec else none)

def stripZeros : Nat → Decimal → Decimal
  | 0, d => d
  | fuel + 1, d =>
    if d.digits % 10 = 0 ∧ d.digits ≠ 0 then stripZeros fuel ⟨d.digits / 10, d.exponent + 1⟩ else d

/-- The fewest digits that read back to the magnitude of `x`; zero is one digit. -/
def shortest (x : Double) : Decimal :=
  if x.isZero then ⟨0, 0⟩
  else
    let k := x.scale
    match (List.range 17).findSome? (fun (i : Nat) => x.onGrid (k - (i : Int) - 1)) with
    | some d => stripZeros 20 d
    | none =>
      ⟨x.mantissa * Nat.pow 5 (-x.exponent).toNat * Nat.pow 2 x.exponent.toNat, min x.exponent 0⟩

end Double
end MailCapture
