import MailCapture.Document
/-!
Reading the text of a number.  A number without fraction and exponent that fits 64 bits is whole.
Every other one is a double: its digits are collected in 64 bits, as many as fit, rounded, and then
multiplied or divided by a power of ten that is itself a rounded double.  A number that would be
infinite has no value.
-/
namespace MailCapture.Document

def significandLimit : Nat := Nat.pow 2 64 - 1

/-- Digits read so far: the significand, the power of ten it stands at, and whether there is room.
-/
structure Digits where
  significand : Nat
  exponent : Int
  full : Bool
  deriving DecidableEq, Repr

/-- A digit before the point; one that does not fit any more only moves the point. -/
def Digits.whole (d : Digits) (digit : Nat) : Digits :=
  if d.full ∨ significandLimit < d.significand * 10 + digit then
    { d with exponent := d.exponent + 1, full := true }
  else { d with significand := d.significand * 10 + digit }

/-- A digit after the point; one that does not fit is dropped with all that follow it. -/
def Digits.fraction (d : Digits) (digit : Nat) : Digits :=
  if d.full ∨ significandLimit < d.significand * 10 + digit then { d with full := true }
  else { d with significand := d.significand * 10 + digit, exponent := d.exponent - 1 }

def digitValue (c : Char) : Nat := c.toNat - 48

def powerOfTen (n : Nat) : Option Double := Double.ofNat (Nat.pow 10 n)

def scaled : Nat → Double → Int → Option Double
  | 0, _, _ => none
  | steps + 1, x, e =>
    if e.natAbs ≤ 308 then
      (powerOfTen e.natAbs).bind (fun p => if e ≥ 0 then x.mul p else x.div p)
    else if x.isZero then some x
    else if e ≥ 0 then none
    else ((powerOfTen 308).bind x.div).bind (scaled steps · (e + 308))

def doubleOf (negative : Bool) (significand : Nat) (exponent : Int) : Document :=
  match (Double.ofNat significand).bind (scaled 5 · exponent) with
  | some x => .double (if negative then x.negate else x)
  | none => .unreadable

def wholeOf (negative : Bool) (d : Digits) : Document :=
  if d.full then doubleOf negative d.significand d.exponent
  else if !negative then .int d.significand
  else if d.significand = 0 ∨ Nat.pow 2 63 < d.significand then doubleOf true d.significand 0
  else .int (-(d.significand : Int))

def digitSpan (cs : List Char) : List Char × List Char := cs.span Char.isDigit

def exponentOf (cs : List Char) : Option Int :=
  let (negative, ds) := match cs with
    | '-' :: rest => (true, rest)
    | '+' :: rest => (false, rest)
    | rest => (false, rest)
  if ds.isEmpty || !ds.all Char.isDigit then none
  else
    let n : Nat := ds.foldl (fun n c => n * 10 + digitValue c) 0
    some (if negative then -(n : Int) else n)

def withExponent (negative : Bool) (d : Digits) : List Char → Option Document
  | [] => some (doubleOf negative d.significand d.exponent)
  | c :: rest =>
    if c = 'e' ∨ c = 'E' then
      (exponentOf rest).map (fun e => doubleOf negative d.significand (d.exponent + e))
    else none

def unsignedNumber (negative : Bool) (cs : List Char) : Option Document :=
  let (whole, rest) := digitSpan cs
  let leadingZero := whole.length > 1 && whole.head? == some '0'
  if whole.isEmpty || leadingZero then none
  else
    let start : Digits := ⟨0, 0, false⟩
    let d := whole.foldl (fun d c => d.whole (digitValue c)) start
    match rest with
    | [] => some (wholeOf negative d)
    | '.' :: rest =>
      let (part, rest) := digitSpan rest
      if part.isEmpty then none
      else
        -- the collected digits decide anew whether the next one fits
        let d := part.foldl (fun d c => d.fraction (digitValue c)) { d with full := false }
        withExponent negative d rest
    | rest => withExponent negative d rest

def number? : List Char → Option Document
  | '-' :: rest => unsignedNumber true rest
  | cs => unsignedNumber false cs

end MailCapture.Document
