import MailCapture.Text.Blank
import MailCapture.Text.Unsigned
import MailCapture.Wire
/-!
Points in time: whole seconds since 1970 in UTC and nanoseconds.  They are read with any offset and
written in UTC.
-/
namespace MailCapture

/-- A point in time.  A leap second is the second before it with a further 10⁹ nanoseconds. -/
structure Time where
  seconds : Int
  nanos : Nat
  deriving DecidableEq, Repr

namespace Time

/-! ### Calendar -/

/-- Days from 1970-01-01 to a date, counting years from March. -/
def daysOfDate (year : Int) (month day : Nat) : Int :=
  let y := if month ≤ 2 then year - 1 else year
  let era := Int.fdiv y 400
  let yearOfEra := y - era * 400
  let monthFromMarch : Int := ((month + 9) % 12 : Nat)
  let dayOfYear := (153 * monthFromMarch + 2) / 5 + day - 1
  let dayOfEra := yearOfEra * 365 + yearOfEra / 4 - yearOfEra / 100 + dayOfYear
  era * 146097 + dayOfEra - 719468

def dateOfDays (days : Int) : Int × Nat × Nat :=
  let z := days + 719468
  let era := Int.fdiv z 146097
  let dayOfEra := z - era * 146097
  let yearOfEra :=
    (dayOfEra - dayOfEra / 1460 + dayOfEra / 36524 - dayOfEra / 146096) / 365
  let dayOfYear := dayOfEra - (365 * yearOfEra + yearOfEra / 4 - yearOfEra / 100)
  let m := (5 * dayOfYear + 2) / 153
  let day := dayOfYear - (153 * m + 2) / 5 + 1
  let month := if m < 10 then m + 3 else m - 9
  let year := yearOfEra + era * 400 + (if month ≤ 2 then 1 else 0)
  (year, month.toNat, day.toNat)

def isLeapYear (year : Int) : Bool :=
  year % 4 == 0 && (year % 100 != 0 || year % 400 == 0)

def daysInMonth (year : Int) (month : Nat) : Nat :=
  if month = 2 then (if isLeapYear year then 29 else 28)
  else if month = 4 ∨ month = 6 ∨ month = 9 ∨ month = 11 then 30 else 31

/-- Whether a point in time lies in the years from -262143 to 262142 in UTC. -/
def isInRange (t : Time) : Bool :=
  daysOfDate (-262143) 1 1 * 86400 ≤ t.seconds && t.seconds < daysOfDate 262143 1 1 * 86400

/-! ### Reading -/

abbrev Reader (α : Type) := List Char → Option (α × List Char)

def digits (most : Nat) : Reader Nat := fun cs =>
  let ds := (cs.take most).takeWhile Char.isDigit
  if ds.isEmpty then none else some (Nat.ofDigitChars 10 ds 0, cs.drop ds.length)

def component : Reader Nat := fun cs => digits 2 (cs.dropWhile Text.isBlank)

def yearPart : Reader Int := fun cs =>
  match cs.dropWhile Text.isBlank with
  | '-' :: rest => (digits rest.length rest).map (fun p => (-(p.1 : Int), p.2))
  | '+' :: rest => (digits rest.length rest).map (fun p => ((p.1 : Int), p.2))
  | rest => (digits 4 rest).map (fun p => ((p.1 : Int), p.2))

def mark (c : Char) : Reader Unit := fun cs =>
  match cs.dropWhile Text.isBlank with
  | d :: rest => if d = c then some ((), rest) else none
  | [] => none

def separator : Reader Unit
  | 'T' :: rest => some ((), rest)
  | 't' :: rest => some ((), rest)
  | ' ' :: rest => some ((), rest)
  | _ => none

/-- A fraction in nanoseconds, if there is a point; digits after the ninth are skipped. -/
def fraction : Reader Nat
  | '.' :: rest =>
    let ds := (rest.take 9).takeWhile Char.isDigit
    if ds.isEmpty then none
    else
      some (Nat.ofDigitChars 10 ds 0 * Nat.pow 10 (9 - ds.length),
        (rest.drop ds.length).dropWhile Char.isDigit)
  | rest => some (0, rest)

def twoDigits : Reader Nat
  | a :: b :: rest =>
    if a.isDigit ∧ b.isDigit then some ((a.toNat - 48) * 10 + (b.toNat - 48), rest) else none
  | _ => none

def offsetSize : Reader Int := fun cs => do
  let (hours, cs) ← twoDigits cs
  let (minutes, cs) ← twoDigits (cs.dropWhile (fun c => c == ':' || Text.isBlank c))
  if hours < 24 ∧ minutes < 60 then some (hours * 3600 + minutes * 60, cs) else none

def offset : Reader Int := fun cs =>
  let cs := cs.dropWhile Text.isBlank
  if (cs.take 3).map Char.toUpper = ['U', 'T', 'C'] then some (0, cs.drop 3)
  else match cs with
    | 'Z' :: rest => some (0, rest)
    | 'z' :: rest => some (0, rest)
    | '+' :: rest => offsetSize rest
    | '-' :: rest => (offsetSize rest).map (fun p => (-p.1, p.2))
    | '\u2212' :: rest => (offsetSize rest).map (fun p => (-p.1, p.2))
    | _ => none

/-- A date, a time of day and an offset, with blanks allowed between the parts; date and time have
to be in range with the offset and without it. -/
def ofChars? (cs : List Char) : Option Time := do
  let (year, cs) ← yearPart cs
  let ((), cs) ← mark '-' cs
  let (month, cs) ← component cs
  let ((), cs) ← mark '-' cs
  let (day, cs) ← component cs
  let ((), cs) ← separator cs
  let (hour, cs) ← component cs
  let ((), cs) ← mark ':' cs
  let (minute, cs) ← component cs
  let ((), cs) ← mark ':' cs
  let (second, cs) ← component cs
  let (nanos, cs) ← fraction cs
  let (ahead, cs) ← offset cs
  if cs.all Text.isBlank ∧ 1 ≤ month ∧ month ≤ 12 ∧ 1 ≤ day ∧ day ≤ daysInMonth year month ∧
      hour < 24 ∧ minute < 60 ∧ second ≤ 60 ∧ -262143 ≤ year ∧ year ≤ 262142 then
    let ofDay : Int := hour * 3600 + minute * 60 + min second 59
    let t : Time := ⟨daysOfDate year month day * 86400 + ofDay - ahead,
      if second = 60 then nanos + 1000000000 else nanos⟩
    if t.isInRange then some t else none
  else none

def ofText? (s : String) : Option Time := ofChars? s.toList

def read? (v : Document) : Option Time := (Wire.string? v).bind ofText?

/-! ### Writing -/

def padded (width n : Nat) : List Char :=
  let ds := Nat.toDigits 10 n
  List.replicate (width - ds.length) '0' ++ ds

/-- Years from 0 to 9999 have four digits, all others a sign and at least four. -/
def yearChars (year : Int) : List Char :=
  if 0 ≤ year ∧ year ≤ 9999 then padded 4 year.toNat
  else (if year < 0 then '-' else '+') :: padded 4 year.natAbs

def secondsChars (t : Time) : List Char :=
  let (year, month, day) := dateOfDays (Int.fdiv t.seconds 86400)
  let ofDay := (Int.fmod t.seconds 86400).toNat
  let second := ofDay % 60 + (if t.nanos ≥ 1000000000 then 1 else 0)
  yearChars year ++ '-' :: padded 2 month ++ '-' :: padded 2 day ++
    'T' :: padded 2 (ofDay / 3600) ++
    ':' :: padded 2 (ofDay / 60 % 60) ++ ':' :: padded 2 second

def text (t : Time) : String := String.ofList (t.secondsChars ++ ['Z'])

def microText (t : Time) : String :=
  String.ofList (t.secondsChars ++ '.' :: padded 6 (t.nanos % 1000000000 / 1000) ++ ['Z'])

def toJson (t : Time) : Json := .str t.text

def toMicroJson (t : Time) : Json := .str t.microText

/-! ### Durations -/

/-- Nanoseconds from `start` to `stop`; a leap second counts when the later time of day is past it.
-/
def nanosBetween (start stop : Time) : Int :=
  let a := Int.fmod stop.seconds 86400
  let b := Int.fmod start.seconds 86400
  let leap : Int :=
    if b < a then (if start.nanos ≥ 1000000000 then 1 else 0)
    else if a < b then (if stop.nanos ≥ 1000000000 then -1 else 0)
    else 0
  (stop.seconds - start.seconds + leap) * 1000000000 + ((stop.nanos : Int) - start.nanos)

def secondsBetween (start stop : Time) : Int := Int.tdiv (nanosBetween start stop) 1000000000

end Time
end MailCapture
