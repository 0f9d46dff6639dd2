import MailCapture.Decimal.Shortest
/-!
Few decimal digits that read back to a binary64 value, found with products of 64 bits.  The value
and the ends of the interval of reals that round to it are scaled by a rounded power of ten, and the
interval is narrowed by one unit at both ends.  The digits of the upper end are cut as soon as the
cut stays in the interval, and the last digit is lowered while that leads towards the value.
-/
namespace MailCapture

structure Scaled where
  significand : Nat
  exponent : Int
  deriving DecidableEq, Repr

namespace Scaled

def normal (x : Scaled) : Scaled :=
  let shift := 63 - x.significand.log2
  ⟨x.significand * Nat.pow 2 shift, x.exponent - shift⟩

def mul (x y : Scaled) : Scaled :=
  ⟨(x.significand * y.significand + Nat.pow 2 63) / Nat.pow 2 64, x.exponent + y.exponent + 64⟩

def powerOfTen (n : Int) : Scaled :=
  let num := Nat.pow 10 n.toNat
  let den := Nat.pow 10 (-n).toNat
  let guess : Int := (num.log2 : Int) - den.log2 - 63
  let whole := num * Nat.pow 2 (-guess).toNat / (den * Nat.pow 2 guess.toNat)
  let e := if whole < Nat.pow 2 63 then guess - 1 else guess
  ⟨Double.inUnits num den e, e⟩

def scalingPower (exponent : Int) : Int :=
  let k := 347 - Int.fdiv ((61 + exponent) * 30103) 100000
  8 * (k / 8 + 1) - 348

end Scaled

/-- An interval above zero: its upper end, how wide it is, how far below the upper end the value
lies, and the size of one. -/
structure Interval where
  upper : Nat
  width : Nat
  slack : Nat
  one : Nat

namespace Interval

/-- Lower the last digit while the result stays above the value, or comes nearer to it from above,
and within the interval. -/
def lowered (width slack unit : Nat) : Nat → Nat → Nat → Nat
  | 0, _, n => n
  | fuel + 1, rest, n =>
    if rest < slack ∧ rest + unit ≤ width ∧
        (rest + unit < slack ∨ slack - rest > rest + unit - slack) then
      lowered width slack unit fuel (rest + unit) (n - 1)
    else n

def cutAt (i : Interval) (place : Int) : Option Decimal :=
  let scale := Nat.pow 10 (-place).toNat
  let unit := i.one * Nat.pow 10 place.toNat
  let rest := i.upper * scale % unit
  let width := i.width * scale
  let slack := if place ≤ -9 then 0 else i.slack * scale
  if rest < width ∨ (0 ≤ place ∧ rest = width) then
    some ⟨lowered width slack unit 10 rest (i.upper * scale / unit), place⟩
  else none

def cut (i : Interval) : Option Decimal :=
  (List.range 32).findSome? (fun (k : Nat) => i.cutAt (9 - (k : Int)))

end Interval

namespace Double

def interval (x : Double) (power : Scaled) : Interval :=
  let m := x.mantissa
  let high := Scaled.normal ⟨2 * m + 1, x.exponent - 1⟩
  let low : Scaled :=
    if m = Nat.pow 2 52 then ⟨4 * m - 1, x.exponent - 2⟩ else ⟨2 * m - 1, x.exponent - 1⟩
  let low : Scaled :=
    ⟨low.significand * Nat.pow 2 (low.exponent - high.exponent).toNat, high.exponent⟩
  let top := high.mul power
  let upper := top.significand - 1
  ⟨upper, upper - ((low.mul power).significand + 1),
    upper - ((Scaled.normal ⟨m, x.exponent⟩).mul power).significand,
    Nat.pow 2 (-top.exponent).toNat⟩

def cut (x : Double) : Decimal :=
  if x.isZero then ⟨0, 0⟩
  else
    let n := Scaled.scalingPower (Scaled.normal ⟨2 * x.mantissa + 1, x.exponent - 1⟩).exponent
    match (x.interval (Scaled.powerOfTen n)).cut with
    | some d => ⟨d.digits, d.exponent - n⟩
    | none => x.shortest

end Double
end MailCapture
