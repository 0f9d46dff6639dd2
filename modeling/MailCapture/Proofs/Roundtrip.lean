import Mathlib.Data.List.TakeDrop
import Mathlib.Data.List.TakeWhile
import MailCapture.Proofs.Distinct
import MailCapture.Proofs.Reparse
/-!
Values that are read back from their text as they are, with the fields of each object in order: no
double is among them, whole numbers have 64 bits and containers are not nested too deep.
-/
namespace MailCapture

namespace Document

/-! ### Whole numbers -/

theorem le_ofDigitChars (cs : List Char) (n : Nat) : n ≤ Nat.ofDigitChars 10 cs n := by
  induction cs generalizing n with
  | nil => exact Nat.le_refl n
  | cons c cs ih =>
    rw [Nat.ofDigitChars_cons]
    exact Nat.le_trans (by omega) (ih _)

/-- Digits are collected as long as they fit. -/
theorem foldl_whole (cs : List Char) (n : Nat) (exponent : Int)
    (h : Nat.ofDigitChars 10 cs n ≤ significandLimit) :
    cs.foldl (fun d c => d.whole (digitValue c)) (⟨n, exponent, false⟩ : Digits) =
      ⟨Nat.ofDigitChars 10 cs n, exponent, false⟩ := by
  induction cs generalizing n with
  | nil => rfl
  | cons c cs ih =>
    rw [Nat.ofDigitChars_cons] at h ⊢
    have hfits := Nat.le_trans (le_ofDigitChars cs _) h
    have hvalue : n * 10 + digitValue c = 10 * n + (c.toNat - '0'.toNat) := by
      rw [Nat.mul_comm]
      rfl
    have hstep : (⟨n, exponent, false⟩ : Digits).whole (digitValue c) =
        ⟨10 * n + (c.toNat - '0'.toNat), exponent, false⟩ := by
      unfold Digits.whole
      rw [hvalue]
      exact if_neg (by simpa using hfits)
    rw [List.foldl_cons, hstep]
    exact ih _ h

/-- The text of a positive number does not start with a zero. -/
theorem head?_toDigits {n : Nat} (h : 0 < n) : (Nat.toDigits 10 n).head? ≠ some '0' := by
  induction n using Nat.strongRecOn with
  | ind n ih =>
    by_cases hn : n < 10
    · rw [Nat.toDigits_of_lt_base hn]
      have hall : ∀ m < 10, 0 < m → Nat.digitChar m ≠ '0' := by decide
      simpa using hall n hn h
    · rw [Nat.toDigits_of_base_le (by omega) (by omega)]
      have hrest := ih (n / 10) (by omega) (by omega)
      have hsome : (Nat.toDigits 10 (n / 10)).head?.isSome = true := by
        simp [Nat.toDigits_ne_nil]
      rwa [List.head?_append, Option.or_of_isSome hsome]

theorem digitSpan_toDigits (n : Nat) : digitSpan (Nat.toDigits 10 n) = (Nat.toDigits 10 n, []) := by
  have hall := isDigit_toDigits n
  rw [digitSpan, List.span_eq_takeWhile_dropWhile, List.takeWhile_eq_self_iff.2 hall,
    List.dropWhile_eq_nil_iff.2 hall]

theorem unsignedNumber_toDigits (negative : Bool) {n : Nat} (h : n ≤ significandLimit) :
    unsignedNumber negative (Nat.toDigits 10 n) = some (wholeOf negative ⟨n, 0, false⟩) := by
  have hzero : ¬ ((Nat.toDigits 10 n).length > 1 ∧ (Nat.toDigits 10 n).head? = some '0') := by
    rintro ⟨hlength, hhead⟩
    cases n with
    | zero => exact absurd hlength (by decide)
    | succ n => exact head?_toDigits (Nat.succ_pos n) hhead
  have hvalue : Nat.ofDigitChars 10 (Nat.toDigits 10 n) 0 = n := Nat.ofDigitChars_ten_toDigits
  unfold unsignedNumber
  rw [digitSpan_toDigits]
  dsimp only
  rw [if_neg (by simpa [Nat.toDigits_ne_nil] using hzero), foldl_whole _ _ _ (by rwa [hvalue]),
    hvalue]

/-- A whole number of 64 bits is read back from its text. -/
theorem number?_wholeNumber {n : Int} (hlow : -9223372036854775808 ≤ n)
    (hhigh : n ≤ 9223372036854775807) : number? (Json.wholeNumber n) = some (.int n) := by
  have hlimit : significandLimit = 18446744073709551615 := by decide
  have hfits : n.natAbs ≤ significandLimit := by omega
  unfold Json.wholeNumber
  by_cases hneg : n < 0
  · have hpow : Nat.pow 2 63 = 9223372036854775808 := by decide
    rw [if_pos hneg]
    show unsignedNumber true (Nat.toDigits 10 n.natAbs) = _
    rw [unsignedNumber_toDigits true hfits]
    have hvalue : wholeOf true ⟨n.natAbs, 0, false⟩ = .int (-(n.natAbs : Int)) := by
      unfold wholeOf
      rw [if_neg (by simp), if_neg (by simp), if_neg (by dsimp only; omega)]
    rw [hvalue, Int.ofNat_natAbs_of_nonpos (by omega), Int.neg_neg]
  · have hnumber : number? (Nat.toDigits 10 n.natAbs) =
        unsignedNumber false (Nat.toDigits 10 n.natAbs) := by
      unfold number?
      split
      · rename_i rest hminus
        have hdigit := isDigit_toDigits n.natAbs '-' (by rw [hminus]; simp)
        cases hdigit
      · rfl
    rw [if_neg hneg, List.nil_append, hnumber, unsignedNumber_toDigits false hfits]
    have hvalue : wholeOf false ⟨n.natAbs, 0, false⟩ = .int n.natAbs := rfl
    rw [hvalue, Int.natAbs_of_nonneg (by omega)]

end Document

namespace Json

/-! ### Values -/

mutual

/-- Whether a value is read back from its text, with a number of containers that may be nested:
whole numbers have 64 bits, and there are no doubles. -/
def Fits : Nat → Json → Prop
  | _, .int n => -9223372036854775808 ≤ n ∧ n ≤ 9223372036854775807
  | _, .double _ => False
  | n, .arr items => 0 < n ∧ ItemsFit (n - 1) items
  | n, .obj fields => 0 < n ∧ FieldsFit (n - 1) fields
  | _, _ => True

def ItemsFit : Nat → List Json → Prop
  | _, [] => True
  | n, v :: rest => v.Fits n ∧ ItemsFit n rest

def FieldsFit : Nat → List (String × Json) → Prop
  | _, [] => True
  | n, (_, v) :: rest => v.Fits n ∧ FieldsFit n rest

end

theorem itemsFit_iff (n : Nat) (items : List Json) :
    ItemsFit n items ↔ ∀ v ∈ items, v.Fits n := by
  induction items with
  | nil => simp [ItemsFit]
  | cons v rest ih => rw [ItemsFit, ih, List.forall_mem_cons]

theorem fieldsFit_iff (n : Nat) (fields : List (String × Json)) :
    FieldsFit n fields ↔ ∀ e ∈ fields, e.2.Fits n := by
  induction fields with
  | nil => simp [FieldsFit]
  | cons e rest ih => rw [FieldsFit, ih, List.forall_mem_cons]

mutual

def inOrder : Json → Json
  | .arr items => .arr (itemsInOrder items)
  | .obj fields => .obj (Entries.ofPairs (fieldsInOrder fields))
  | v => v

def itemsInOrder : List Json → List Json
  | [] => []
  | v :: rest => v.inOrder :: itemsInOrder rest

def fieldsInOrder : List (String × Json) → List (String × Json)
  | [] => []
  | (key, v) :: rest => (key, v.inOrder) :: fieldsInOrder rest

end

end Json

namespace Document
open Json

mutual

/-- What is spelled for a value that fits is the value as a document. -/
theorem spelled?_of_fits : (v : Json) → {n depth : Nat} → v.Fits n → depth + n ≤ depthLimit →
    spelled? depth v = some (ofJson v)
  | .null, _, _, _, _ => rfl
  | .bool _, _, _, _, _ => rfl
  | .int _, _, _, h, _ => by
    rw [Fits] at h
    rw [spelled?, number?_wholeNumber h.1 h.2]
    rfl
  | .double _, _, _, h, _ => by simp [Fits] at h
  | .str _, _, _, _, _ => rfl
  | .arr items, n, depth, h, hdepth => by
    rw [Fits] at h
    have hinside : depth + 1 + (n - 1) ≤ depthLimit := by omega
    rw [spelled?, spelledItems?_of_fits items h.2 hinside, Option.map_some, if_pos (by omega)]
    rfl
  | .obj fields, n, depth, h, hdepth => by
    rw [Fits] at h
    have hinside : depth + 1 + (n - 1) ≤ depthLimit := by omega
    rw [spelled?, spelledFields?_of_fits fields h.2 hinside, Option.map_some, if_pos (by omega)]
    rfl

theorem spelledItems?_of_fits : (items : List Json) → {n depth : Nat} → ItemsFit n items →
    depth + n ≤ depthLimit → spelledItems? depth items = some (ofItems items)
  | [], _, _, _, _ => rfl
  | v :: rest, _, _, h, hdepth => by
    rw [ItemsFit] at h
    rw [spelledItems?, spelled?_of_fits v h.1 hdepth, spelledItems?_of_fits rest h.2 hdepth]
    rfl

theorem spelledFields?_of_fits : (fields : List (String × Json)) → {n depth : Nat} →
    FieldsFit n fields → depth + n ≤ depthLimit →
    spelledFields? depth fields = some (ofFields fields)
  | [], _, _, _, _ => rfl
  | (key, v) :: rest, _, _, h, hdepth => by
    rw [FieldsFit] at h
    rw [spelledFields?, spelled?_of_fits v h.1 hdepth, spelledFields?_of_fits rest h.2 hdepth]
    rfl

end

mutual

/-- A value as a document has the value, with the fields of its objects in order. -/
theorem value?_ofJson : (v : Json) → (ofJson v).value? = some v.inOrder
  | .null => rfl
  | .bool _ => rfl
  | .int _ => rfl
  | .double _ => rfl
  | .str _ => rfl
  | .arr items => by
    rw [ofJson, value?, itemValues?_ofItems items]
    rfl
  | .obj fields => by
    rw [ofJson, value?, memberValues?_ofFields fields]
    rfl

theorem itemValues?_ofItems : (items : List Json) →
    itemValues? (ofItems items) = some (itemsInOrder items)
  | [] => rfl
  | v :: rest => by
    rw [ofItems, itemValues?, value?_ofJson v, itemValues?_ofItems rest]
    rfl

theorem memberValues?_ofFields : (fields : List (String × Json)) →
    memberValues? (ofFields fields) = some (fieldsInOrder fields)
  | [] => rfl
  | (key, v) :: rest => by
    rw [ofFields, memberValues?, value?_ofJson v, memberValues?_ofFields rest]
    rfl

end

/-- The text of a value that fits is read as the value. -/
theorem parse?_render_of_fits {v : Json} (h : v.Fits depthLimit) :
    parse? v.render = some (ofJson v) := by
  rw [parse?_render, spelled?_of_fits v h (Nat.le_of_eq (Nat.zero_add _))]

end Document

/-- A value that fits is read back from its text. -/
theorem Json.parse?_render {v : Json} (h : v.Fits Document.depthLimit) :
    Json.parse? v.render = some v.inOrder := by
  rw [Json.parse?, Document.parse?_render_of_fits h]
  exact Document.value?_ofJson v

end MailCapture
