import Mathlib.Computability.RegularExpressions
import Mathlib.Data.List.TakeWhile
import MailCapture.Admission
/-!
The texts that a spec is checked for.  The reserved paths are those that a regular expression
matches, and the texts of floating-point numbers are those of a grammar:

    Float  ::= Sign? ( 'inf' | 'infinity' | 'nan' | Number )
    Number ::= ( Digit+ | Digit+ '.' Digit* | Digit* '.' Digit+ ) Exp?
    Exp    ::= 'e' Sign? Digit+

where letters are in any case.
-/
namespace MailCapture

/-! ### Reserved paths -/

namespace Pattern

def word (s : String) : RegularExpression Char := (s.toList.map RegularExpression.char).foldr (· * ·) 1

def maybe (p : RegularExpression Char) : RegularExpression Char := 1 + p

def texts (ts : List String) : Language Char := {cs | ∃ t ∈ ts, t.toList = cs}

variable {cs : List Char} {ts us : List String}

theorem mem_texts : cs ∈ texts ts ↔ ∃ t ∈ ts, t.toList = cs := Iff.rfl

theorem texts_nil_text : texts [""] = 1 := by
  ext cs
  rw [mem_texts, Language.mem_one]
  simp [eq_comm]

theorem texts_append (ts us : List String) : texts (ts ++ us) = texts ts + texts us := by
  ext cs
  simp only [Language.mem_add, mem_texts, List.mem_append, or_and_right, exists_or]

theorem texts_cons_cons (t u : String) (ts : List String) :
    texts (t :: u :: ts) = texts [t] + texts (u :: ts) := texts_append [t] (u :: ts)

/-- A choice out of each list is a word out of the product of their languages. -/
theorem texts_concatenations (choices : List (List String)) :
    texts (concatenations choices) = (choices.map texts).prod := by
  induction choices with
  | nil => exact texts_nil_text
  | cons ts rest ih =>
    rw [List.map_cons, List.prod_cons, ← ih, concatenations]
    ext cs
    rw [mem_texts, Language.mem_mul]
    constructor
    · rintro ⟨t, ht, rfl⟩
      obtain ⟨c, hc, hmem⟩ := List.mem_flatMap.1 ht
      obtain ⟨u, hu, rfl⟩ := List.mem_map.1 hmem
      exact ⟨c.toList, ⟨c, hc, rfl⟩, u.toList, ⟨u, hu, rfl⟩, String.toList_append.symm⟩
    · rintro ⟨_, ⟨c, hc, rfl⟩, _, ⟨u, hu, rfl⟩, rfl⟩
      exact ⟨c ++ u, List.mem_flatMap.2 ⟨c, hc, List.mem_map_of_mem hu⟩, String.toList_append⟩

theorem matches'_word (s : String) : (word s).matches' = texts [s] := by
  have hword (cs ds : List Char) :
      ds ∈ ((cs.map RegularExpression.char).foldr (· * ·) 1).matches' ↔ ds = cs := by
    induction cs generalizing ds with
    | nil => exact Language.mem_one ds
    | cons c rest ih =>
      rw [List.map_cons, List.foldr_cons, RegularExpression.matches'_mul, Language.mem_mul]
      constructor
      · rintro ⟨_, rfl, ds, hds, rfl⟩
        rw [(ih ds).1 hds]
        rfl
      · rintro rfl
        exact ⟨[c], rfl, rest, (ih rest).2 rfl, rfl⟩
  ext cs
  rw [word, hword, mem_texts]
  simp [eq_comm]

theorem matches'_maybe (p : RegularExpression Char) : (maybe p).matches' = 1 + p.matches' := by
  rw [maybe, RegularExpression.matches'_add, RegularExpression.matches'_epsilon]

def reserved : RegularExpression Char :=
  word "/" * maybe (word "usr" + word "mailhog") * maybe (word "/") *
    maybe (word "settings" * maybe (word "/") * maybe (word "files") +
      word "local" * maybe (word "/") * maybe (word "bin") * maybe (word "/") *
        maybe (word "MailHog"))

theorem matches'_reserved : reserved.matches' = texts reservedPaths := by
  simp only [reserved, reservedPaths, reservedEnds, RegularExpression.matches'_mul,
    RegularExpression.matches'_add, matches'_maybe, matches'_word, texts_append,
    texts_concatenations, List.map_cons, List.map_nil, List.prod_cons, List.prod_nil,
    texts_cons_cons, texts_nil_text, mul_assoc, mul_one, add_assoc]

/-- The reserved paths are those that the pattern matches as a whole. -/
theorem mem_reservedPaths_iff {path : String} :
    path ∈ reservedPaths ↔ path.toList ∈ reserved.matches' := by
  rw [matches'_reserved, mem_texts]
  constructor
  · intro h
    exact ⟨path, h, rfl⟩
  · rintro ⟨t, ht, he⟩
    exact String.toList_inj.1 he ▸ ht

end Pattern

/-! ### Floating-point numbers -/

namespace Text
variable {cs digits rest sign tail : List Char}

def IsSign (cs : List Char) : Prop := cs = [] ∨ cs = ['+'] ∨ cs = ['-']

def AllDigits (cs : List Char) : Prop := ∀ c ∈ cs, c.isDigit = true

inductive IsExponent : List Char → Prop
  | none : IsExponent []
  | some {mark : Char} {sign digits : List Char} (hmark : mark = 'e' ∨ mark = 'E')
      (hsign : IsSign sign) (hdigits : AllDigits digits) (hne : digits ≠ []) :
      IsExponent (mark :: (sign ++ digits))

inductive IsNumber : List Char → Prop
  | whole {digits exponent : List Char} (hdigits : AllDigits digits) (hne : digits ≠ [])
      (hexponent : IsExponent exponent) : IsNumber (digits ++ exponent)
  | pointed {digits fraction exponent : List Char} (hdigits : AllDigits digits)
      (hfraction : AllDigits fraction) (hne : digits ≠ [] ∨ fraction ≠ [])
      (hexponent : IsExponent exponent) : IsNumber (digits ++ '.' :: (fraction ++ exponent))

inductive IsFloat : List Char → Prop
  | special {sign word : List Char} (hsign : IsSign sign)
      (hword : ∃ w ∈ ["inf", "infinity", "nan"], word.map Char.toLower = w.toList) :
      IsFloat (sign ++ word)
  | number {sign number : List Char} (hsign : IsSign sign) (hnumber : IsNumber number) :
      IsFloat (sign ++ number)

theorem isDigits_iff : isDigits cs = true ↔ AllDigits cs ∧ cs ≠ [] := by
  simp [isDigits, AllDigits, and_comm]

theorem AllDigits.head (h : AllDigits digits) (hne : digits ≠ []) :
    ∃ c rest, digits = c :: rest ∧ c.isDigit = true := by
  cases digits with
  | nil => exact absurd rfl hne
  | cons c rest => exact ⟨c, rest, rfl, h c List.mem_cons_self⟩

/-- Digits end before what is none. -/
theorem span_digits (h : AllDigits digits) (ht : ∀ c ∈ tail.head?, c.isDigit = false) :
    (digits ++ tail).takeWhile Char.isDigit = digits ∧
      (digits ++ tail).dropWhile Char.isDigit = tail := by
  rw [List.takeWhile_append_of_pos h, List.dropWhile_append_of_pos h]
  cases tail with
  | nil => simp
  | cons c tail => simp [ht c rfl]

theorem takeWhile_allDigits (cs : List Char) : AllDigits (cs.takeWhile Char.isDigit) :=
  fun _ hc => List.mem_takeWhile_imp hc

/-! A sign is cut off, and only one. -/

theorem exists_sign (cs : List Char) : ∃ sign, IsSign sign ∧ cs = sign ++ unsigned cs := by
  unfold unsigned
  split
  · exact ⟨['+'], .inr (.inl rfl), rfl⟩
  · exact ⟨['-'], .inr (.inr rfl), rfl⟩
  · exact ⟨[], .inl rfl, rfl⟩

theorem unsigned_append (hsign : IsSign sign) (h : ∀ c ∈ rest.head?, c ≠ '+' ∧ c ≠ '-') :
    unsigned (sign ++ rest) = rest := by
  rcases hsign with rfl | rfl | rfl
  · rw [List.nil_append]
    unfold unsigned
    split
    · exact absurd rfl (h '+' rfl).1
    · exact absurd rfl (h '-' rfl).2
    · rfl
  · rfl
  · rfl

theorem ne_sign_of_isDigit {c : Char} (h : c.isDigit = true) : c ≠ '+' ∧ c ≠ '-' := by
  constructor <;> rintro rfl <;> cases h

theorem isExponentPart_iff : isExponentPart cs = true ↔ IsExponent cs := by
  constructor
  · intro h
    cases cs with
    | nil => exact .none
    | cons mark rest =>
      rw [isExponentPart, Bool.and_eq_true, isDigits_iff] at h
      obtain ⟨hmark, hdigits, hne⟩ := h
      obtain ⟨sign, hsign, hrest⟩ := exists_sign rest
      rw [hrest]
      exact .some (by simpa using hmark) hsign hdigits hne
  · intro h
    cases h with
    | none => rfl
    | @some _ sign _ hmark hsign hdigits hne =>
      obtain ⟨c, rest, rfl, hc⟩ := hdigits.head hne
      have hcut : unsigned (sign ++ c :: rest) = c :: rest := by
        refine unsigned_append hsign fun d hd => ?_
        cases hd
        exact ne_sign_of_isDigit hc
      rw [isExponentPart, hcut, Bool.and_eq_true, isDigits_iff]
      exact ⟨by simpa using hmark, hdigits, hne⟩

theorem IsExponent.head (h : IsExponent cs) : ∀ c ∈ cs.head?, c.isDigit = false := by
  cases h with
  | none => simp
  | some hmark =>
    rintro c ⟨⟩
    rcases hmark with rfl | rfl <;> rfl

theorem isDecimalText_iff : isDecimalText cs = true ↔ IsNumber cs := by
  constructor
  · intro h
    have hcs : cs.takeWhile Char.isDigit ++ cs.dropWhile Char.isDigit = cs :=
      List.takeWhile_append_dropWhile
    have hdigits := takeWhile_allDigits cs
    unfold isDecimalText at h
    generalize cs.takeWhile Char.isDigit = digits at h hcs hdigits
    generalize cs.dropWhile Char.isDigit = tail at h hcs
    subst hcs
    dsimp only at h
    split at h
    · rename_i rest
      rw [Bool.and_eq_true, isExponentPart_iff] at h
      have hrest : rest.takeWhile Char.isDigit ++ rest.dropWhile Char.isDigit = rest :=
        List.takeWhile_append_dropWhile
      rw [← hrest]
      exact .pointed hdigits (takeWhile_allDigits rest) (by simpa using h.1) h.2
    · rw [Bool.and_eq_true, isExponentPart_iff] at h
      exact .whole hdigits (by simpa using h.1) h.2
  · intro h
    cases h with
    | whole hdigits hne hexponent =>
      obtain ⟨hwhole, hrest⟩ := span_digits hdigits hexponent.head
      have hpart := isExponentPart_iff.2 hexponent
      rw [isDecimalText, hwhole, hrest]
      cases hexponent with
      | none => simpa [isExponentPart] using hne
      | some hmark => rcases hmark with rfl | rfl <;> simpa [hpart] using hne
    | @pointed digits fraction exponent hdigits hfraction hne hexponent =>
      have hpoint : ∀ c ∈ ('.' :: (fraction ++ exponent)).head?, c.isDigit = false := by
        rintro c ⟨⟩
        rfl
      obtain ⟨hwhole, hrest⟩ := span_digits hdigits hpoint
      obtain ⟨hafter, hlast⟩ := span_digits hfraction hexponent.head
      rw [isDecimalText, hwhole, hrest]
      simpa [hafter, hlast, isExponentPart_iff.2 hexponent] using hne

theorem IsNumber.head (h : IsNumber cs) : ∀ c ∈ cs.head?, c ≠ '+' ∧ c ≠ '-' := by
  cases h with
  | whole hdigits hne =>
    obtain ⟨c, rest, rfl, hc⟩ := hdigits.head hne
    rintro d ⟨⟩
    exact ne_sign_of_isDigit hc
  | @pointed digits _ _ hdigits =>
    cases digits with
    | nil =>
      rintro d ⟨⟩
      decide
    | cons c rest =>
      rintro d ⟨⟩
      exact ne_sign_of_isDigit (hdigits c List.mem_cons_self)

theorem isSpecialNumber_iff : isSpecialNumber cs = true ↔
    ∃ w ∈ ["inf", "infinity", "nan"], cs.map Char.toLower = w.toList := by
  simp only [isSpecialNumber, List.any_eq_true, beq_iff_eq]

theorem head_of_special (h : ∃ w ∈ ["inf", "infinity", "nan"], cs.map Char.toLower = w.toList) :
    ∀ c ∈ cs.head?, c ≠ '+' ∧ c ≠ '-' := by
  obtain ⟨w, hw, hlower⟩ := h
  intro c hc
  have hhead := congrArg List.head? hlower
  rw [List.head?_map, hc] at hhead
  have hwords : ∀ w ∈ ["inf", "infinity", "nan"],
      some '+' ≠ w.toList.head? ∧ some '-' ≠ w.toList.head? := by decide
  constructor
  · rintro rfl
    exact (hwords w hw).1 hhead
  · rintro rfl
    exact (hwords w hw).2 hhead

/-- The texts of floating-point numbers are those of the grammar. -/
theorem isFloatText_iff {s : String} : isFloatText s = true ↔ IsFloat s.toList := by
  rw [isFloatText, Bool.or_eq_true, isSpecialNumber_iff, isDecimalText_iff]
  constructor
  · obtain ⟨sign, hsign, hs⟩ := exists_sign s.toList
    rintro (hword | hnumber)
    · rw [hs]
      exact .special hsign hword
    · rw [hs]
      exact .number hsign hnumber
  · intro h
    generalize s.toList = cs at h ⊢
    cases h with
    | special hsign hword =>
      rw [unsigned_append hsign (head_of_special hword)]
      exact .inl hword
    | number hsign hnumber =>
      rw [unsigned_append hsign hnumber.head]
      exact .inr hnumber

end Text
end MailCapture
