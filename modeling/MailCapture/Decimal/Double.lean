/-!
Finite binary64 values as sign, whole mantissa and power of two, with exact arithmetic that is
rounded once: to the nearest value, and of two equally near ones to the one with even mantissa.
-/
namespace MailCapture

/-- Each finite binary64 value has exactly one mantissa and exponent of this form. -/
def Canonical (mantissa : Nat) (exponent : Int) : Prop :=
  mantissa < Nat.pow 2 53 ∧ -1074 ≤ exponent ∧ exponent ≤ 971 ∧
    (Nat.pow 2 52 ≤ mantissa ∨ exponent = -1074)

instance (mantissa : Nat) (exponent : Int) : Decidable (Canonical mantissa exponent) :=
  inferInstanceAs (Decidable (_ ∧ _))

/-- The finite binary64 value ± mantissa · 2 ^ exponent; zero has both signs. -/
structure Double where
  negative : Bool
  mantissa : Nat
  exponent : Int
  canonical : Canonical mantissa exponent
  deriving DecidableEq, Repr

namespace Double

def zero : Double := ⟨false, 0, -1074, by decide⟩

def negate (x : Double) : Double := { x with negative := !x.negative }

def isZero (x : Double) : Bool := x.mantissa == 0

/-- Equality of numbers: the two zeros are one number. -/
def same (x y : Double) : Bool := x == y || (x.isZero && y.isZero)

def roundQuotient (num den : Nat) : Nat :=
  let q := num / den
  let r := num % den
  if 2 * r < den ∨ (2 * r = den ∧ q % 2 = 0) then q else q + 1

def inUnits (num den : Nat) (exponent : Int) : Nat :=
  roundQuotient (num * Nat.pow 2 (-exponent).toNat) (den * Nat.pow 2 exponent.toNat)

/-- The power of two that leaves `num / den` a whole part of 53 bits. -/
def unitExponent (num den : Nat) : Int :=
  let guess : Int := (num.log2 : Int) - den.log2 - 52
  let whole := num * Nat.pow 2 (-guess).toNat / (den * Nat.pow 2 guess.toNat)
  max (-1074) (if whole < Nat.pow 2 52 then guess - 1 else guess)

/-- The value nearest to ± num / den, or nothing where that would be infinite. -/
def ofRatio (negative : Bool) (num den : Nat) : Option Double :=
  let e := if num = 0 then -1074 else unitExponent num den
  let m := inUnits num den e
  let (m, e) := if m = Nat.pow 2 53 then (Nat.pow 2 52, e + 1) else (m, e)
  if h : Canonical m e then some ⟨negative, m, e, h⟩ else none

def ofNat (n : Nat) : Option Double := ofRatio false n 1

def ratio (x : Double) : Nat × Nat :=
  (x.mantissa * Nat.pow 2 x.exponent.toNat, Nat.pow 2 (-x.exponent).toNat)

def mul (x y : Double) : Option Double :=
  let (a, b) := x.ratio
  let (c, d) := y.ratio
  ofRatio (x.negative != y.negative) (a * c) (b * d)

def div (x y : Double) : Option Double :=
  let (a, b) := x.ratio
  let (c, d) := y.ratio
  if c = 0 then none else ofRatio (x.negative != y.negative) (a * d) (b * c)

def signedRatio (x : Double) : Int × Nat :=
  let (a, b) := x.ratio
  (if x.negative then -(a : Int) else a, b)

/-- A sum that is zero is negative only if both terms are. -/
def add (x y : Double) : Option Double :=
  let (a, b) := x.signedRatio
  let (c, d) := y.signedRatio
  let num := a * d + c * b
  ofRatio (if num = 0 then x.negative && y.negative else num < 0) num.natAbs (b * d)

def le (x y : Double) : Bool :=
  let (a, b) := x.signedRatio
  let (c, d) := y.signedRatio
  decide (a * d ≤ c * b)

theorem same_refl (x : Double) : same x x = true := by simp [same]

end Double
end MailCapture
