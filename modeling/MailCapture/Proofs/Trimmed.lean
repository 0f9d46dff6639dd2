import Mathlib.Data.List.DropRight
import MailCapture.Text.Blank
import MailCapture.Text.Unsigned
import MailCapture.Proofs.Patterns
/-!
Texts as settings hold them: something between white space, and whole numbers with a sign or without
one.  Trimming finds what stands between the white space, and reading finds a positive number as it
is spelled, up to the largest value.
-/
namespace MailCapture.Text

/-! ### White space around a text -/

section Blanks
variable {cs core : List Char}

def AllBlank (cs : List Char) : Prop := ∀ c ∈ cs, isBlank c = true

structure IsBare (cs : List Char) : Prop where
  ne_nil : cs ≠ []
  head : ∀ c ∈ cs.head?, isBlank c = false
  last : ∀ c ∈ cs.getLast?, isBlank c = false

inductive Holds : List Char → List Char → Prop
  | intro {left core right : List Char} (hleft : AllBlank left) (hcore : IsBare core)
      (hright : AllBlank right) : Holds (left ++ core ++ right) core

theorem Holds.isBare (h : Holds cs core) : IsBare core := by
  obtain ⟨-, hcore, -⟩ := h
  exact hcore

theorem Holds.subset (h : Holds cs core) : core ⊆ cs := by
  obtain ⟨-, -, -⟩ := h
  intro c hc
  simp [hc]

theorem IsBare.exists_mem (h : IsBare cs) : ∃ c ∈ cs, isBlank c = false := by
  obtain ⟨c, rest, rfl⟩ := List.exists_cons_of_ne_nil h.ne_nil
  exact ⟨c, List.mem_cons_self, h.head c rfl⟩

theorem not_allBlank {c : Char} (hc : c ∈ cs) (h : isBlank c = false) : ¬ AllBlank cs := by
  intro hall
  rw [hall c hc] at h
  cases h

theorem dropWhile_of_head (h : ∀ c ∈ cs.head?, isBlank c = false) : cs.dropWhile isBlank = cs := by
  cases cs with
  | nil => rfl
  | cons c cs => rw [List.dropWhile_cons, h c rfl, if_neg Bool.false_ne_true]

theorem trimChars_of_holds (h : Holds cs core) : trimChars cs = core := by
  obtain @⟨left, core, right, hleft, hcore, hright⟩ := h
  have hhead : ∀ c ∈ (core ++ right).head?, isBlank c = false := by
    rw [List.head?_append_of_ne_nil _ hcore.ne_nil]
    exact hcore.head
  have hlast : ∀ c ∈ core.reverse.head?, isBlank c = false := by
    rw [List.head?_reverse]
    exact hcore.last
  have hreversed : ∀ c ∈ right.reverse, isBlank c = true :=
    fun c hc => hright c (List.mem_reverse.1 hc)
  rw [trimChars, List.append_assoc, List.dropWhile_append_of_pos hleft, dropWhile_of_head hhead,
    List.reverse_append, List.dropWhile_append_of_pos hreversed, dropWhile_of_head hlast,
    List.reverse_reverse]

theorem isBare_trimChars (hne : trimChars cs ≠ []) : IsBare (trimChars cs) := by
  refine ⟨hne, fun c hc => ?_, fun c hc => ?_⟩
  · obtain ⟨right, hright⟩ : trimChars cs <+: cs.dropWhile isBlank := List.rdropWhile_prefix _ _
    have hhead : (cs.dropWhile isBlank).head? = some c := by
      rw [← hright, List.head?_append_of_ne_nil _ hne]
      exact hc
    have hnot := List.head?_dropWhile_not isBlank cs
    rwa [hhead] at hnot
  · rw [List.getLast?_eq_some_getLast hne] at hc
    cases hc
    exact Bool.not_eq_true _ ▸ List.rdropWhile_last_not isBlank (cs.dropWhile isBlank) hne

theorem holds_trimChars (hne : trimChars cs ≠ []) : Holds cs (trimChars cs) := by
  have hleft : AllBlank (cs.takeWhile isBlank) := fun _ hc => List.mem_takeWhile_imp hc
  have hright : AllBlank ((cs.dropWhile isBlank).rtakeWhile isBlank) :=
    fun _ hc => List.mem_rtakeWhile_imp hc
  have hrest : trimChars cs ++ (cs.dropWhile isBlank).rtakeWhile isBlank = cs.dropWhile isBlank :=
    List.rdropWhile_append_rtakeWhile
  have h := Holds.intro hleft (isBare_trimChars hne) hright
  rwa [List.append_assoc, hrest, List.takeWhile_append_dropWhile] at h

theorem trimChars_eq_nil_iff : trimChars cs = [] ↔ AllBlank cs := by
  constructor
  · intro h
    have hrest : ∀ c ∈ cs.dropWhile isBlank, isBlank c = true := List.rdropWhile_eq_nil_iff.1 h
    rw [AllBlank, ← List.takeWhile_append_dropWhile (p := isBlank) (l := cs)]
    intro c hc
    rcases List.mem_append.1 hc with hc | hc
    · exact List.mem_takeWhile_imp hc
    · exact hrest c hc
  · intro h
    rw [trimChars, List.dropWhile_eq_nil_iff.2 h]
    rfl

/-- A text holds something, or it is white space throughout. -/
theorem holds_or_allBlank (cs : List Char) : (∃ core, Holds cs core) ∨ AllBlank cs := by
  by_cases h : trimChars cs = []
  · exact .inr (trimChars_eq_nil_iff.1 h)
  · exact .inl ⟨_, holds_trimChars h⟩

end Blanks

/-! ### Whole numbers -/

section Numbers
variable {digits cs : List Char} {s : String} {n largest : Nat} {z : Int}

inductive Numeral : List Char → Nat → Prop
  | digit {c : Char} (hc : c.isDigit = true) : Numeral [c] (c.toNat - '0'.toNat)
  | next {digits : List Char} {n : Nat} {c : Char} (hdigits : Numeral digits n)
      (hc : c.isDigit = true) : Numeral (digits ++ [c]) (10 * n + (c.toNat - '0'.toNat))

inductive Spells : List Char → Int → Prop
  | plain {digits : List Char} {n : Nat} (h : Numeral digits n) : Spells digits n
  | plus {digits : List Char} {n : Nat} (h : Numeral digits n) : Spells ('+' :: digits) n
  | minus {digits : List Char} {n : Nat} (h : Numeral digits n) : Spells ('-' :: digits) (-n)

theorem Numeral.allDigits (h : Numeral digits n) : AllDigits digits ∧ digits ≠ [] := by
  induction h with
  | digit hc => exact ⟨fun c hmem => List.mem_singleton.1 hmem ▸ hc, List.cons_ne_nil _ _⟩
  | next _ hc ih =>
    refine ⟨fun c hmem => ?_, by simp⟩
    rcases List.mem_append.1 hmem with hmem | hmem
    · exact ih.1 c hmem
    · exact List.mem_singleton.1 hmem ▸ hc

theorem Numeral.ofDigitChars (h : Numeral digits n) : Nat.ofDigitChars 10 digits 0 = n := by
  induction h with
  | digit hc => simp [Nat.ofDigitChars_cons]
  | next _ hc ih => rw [Nat.ofDigitChars_append, ih, Nat.ofDigitChars_cons, Nat.ofDigitChars_nil]

theorem AllDigits.numeral (h : AllDigits digits) (hne : digits ≠ []) :
    Numeral digits (Nat.ofDigitChars 10 digits 0) := by
  induction digits using List.reverseRecOn with
  | nil => exact absurd rfl hne
  | append_singleton digits c ih =>
    have hc : c.isDigit = true := h c (by simp)
    by_cases hd : digits = []
    · subst hd
      simpa [Nat.ofDigitChars_cons] using Numeral.digit hc
    · have hdigits := ih (fun c hmem => h c (List.mem_append_left _ hmem)) hd
      rw [Nat.ofDigitChars_append, Nat.ofDigitChars_cons, Nat.ofDigitChars_nil]
      exact hdigits.next hc

theorem digitsValue?_eq_some_iff : digitsValue? digits = some n ↔ Numeral digits n := by
  have hunfold : digitsValue? digits =
      if isDigits digits then some (Nat.ofDigitChars 10 digits 0) else none := by
    rw [digitsValue?, isDigits]
    cases digits.isEmpty <;> cases digits.all Char.isDigit <;> rfl
  rw [hunfold]
  constructor
  · intro h
    split at h
    · rename_i hall
      obtain ⟨hall, hne⟩ := isDigits_iff.1 hall
      cases h
      exact hall.numeral hne
    · cases h
  · intro h
    rw [if_pos (isDigits_iff.2 h.allDigits), h.ofDigitChars]

theorem Spells.ne_nil (h : Spells cs z) : cs ≠ [] := by
  cases h with
  | plain h => exact h.allDigits.2
  | plus _ => exact List.cons_ne_nil _ _
  | minus _ => exact List.cons_ne_nil _ _

/-- Without a plus only digits spell a positive number. -/
theorem spells_iff_numeral (hn : 0 < n) (hplus : ∀ rest, cs ≠ '+' :: rest) :
    Spells cs n ↔ Numeral cs n := by
  constructor
  · intro h
    generalize hz : (n : Int) = z at h
    cases h with
    | plain h => exact Int.ofNat.inj hz ▸ h
    | plus _ => exact absurd rfl (hplus _)
    | minus _ => omega
  · exact .plain

theorem spells_plus_iff : Spells ('+' :: digits) n ↔ Numeral digits n := by
  constructor
  · intro h
    generalize hz : (n : Int) = z at h
    cases h with
    | plain h => exact absurd rfl (ne_sign_of_isDigit (h.allDigits.1 '+' List.mem_cons_self)).1
    | plus h => exact Int.ofNat.inj hz ▸ h
  · exact .plus

/-- A positive whole number is read as it is spelled, up to the largest value. -/
theorem unsigned?_eq_some_iff (hn : 0 < n) :
    unsigned? largest s = some n ↔ Spells s.toList n ∧ n ≤ largest := by
  unfold unsigned?
  rw [Option.filter_eq_some_iff, decide_eq_true_eq]
  refine and_congr_left fun _ => ?_
  split
  · rename_i rest hplus
    rw [hplus, spells_plus_iff, digitsValue?_eq_some_iff]
  · rename_i hplus
    rw [spells_iff_numeral hn hplus, digitsValue?_eq_some_iff]

end Numbers
end MailCapture.Text
