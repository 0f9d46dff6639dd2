import MailCapture.Document.Parser
import MailCapture.Json.Printer
/-!
The tokens that are read from the text of a value.  A text between quotes is read back as it is;
what a number is read as is left to the reader of numbers.
-/
namespace MailCapture

namespace Document

def Lexer.readAll (l : Lexer) (cs : List Char) : Option Lexer :=
  (cs.foldlM Lexer.step l).bind Lexer.finish

@[simp] theorem Lexer.readAll_cons (l : Lexer) (c : Char) (cs : List Char) :
    l.readAll (c :: cs) = (l.step c).bind (·.readAll cs) := by
  simp [readAll, List.foldlM_cons, Option.bind_assoc]

theorem tokens?_eq (cs : List Char) :
    tokens? cs = ((⟨.between, []⟩ : Lexer).readAll cs).map (fun l => l.tokens.reverse) := rfl

/-! ### Texts -/

theorem hexValue?_hexDigit : ∀ n < 16, hexValue? (Json.hexDigit n) = some n := by decide

/-- A control character is written by its two hexadecimal digits. -/
theorem readAll_hex {n : Nat} (hn : n < 32) (read : List Nat) (ts : List Token)
    (rest : List Char) :
    (⟨.text read, ts⟩ : Lexer).readAll
        ('\\' :: 'u' :: '0' :: '0' :: Json.hexDigit (n / 16) :: Json.hexDigit (n % 16) :: rest) =
      (⟨.text (n :: read), ts⟩ : Lexer).readAll rest := by
  have hhigh := hexValue?_hexDigit (n / 16) (by omega)
  have hlow := hexValue?_hexDigit (n % 16) (by omega)
  have hvalue : n / 16 * 16 + n % 16 = n := by omega
  show (⟨.hex read 2 0, ts⟩ : Lexer).readAll _ = _
  simp [Lexer.step, hhigh, hlow, hvalue]

theorem readAll_escape (c : Char) (read : List Nat) (ts : List Token) (rest : List Char) :
    (⟨.text read, ts⟩ : Lexer).readAll (Json.escape c ++ rest) =
      (⟨.text (c.toNat :: read), ts⟩ : Lexer).readAll rest := by
  unfold Json.escape
  by_cases hq : c = '"'
  · subst hq
    rfl
  by_cases hb : c = '\\'
  · subst hb
    rfl
  rw [if_neg hq, if_neg hb]
  by_cases hlow : c.toNat < 32
  · rw [if_pos hlow]
    repeat' split
    all_goals first
      | (rename_i h; subst h; rfl)
      | (rename_i h; rw [h]; rfl)
      | exact readAll_hex hlow read ts rest
  · rw [if_neg hlow]
    simp [Lexer.step, hq, hb, hlow]

theorem readAll_text (cs : List Char) (read : List Nat) (ts : List Token) (rest : List Char) :
    (⟨.text read, ts⟩ : Lexer).readAll (cs.flatMap Json.escape ++ rest) =
      (⟨.text ((cs.map Char.toNat).reverse ++ read), ts⟩ : Lexer).readAll rest := by
  induction cs generalizing read with
  | nil => rfl
  | cons c cs ih =>
    rw [List.flatMap_cons, List.append_assoc, readAll_escape, ih]
    simp

/-- No character is half of a pair. -/
theorem not_isHalf (c : Char) : isHighHalf c.toNat = false ∧ isLowHalf c.toNat = false := by
  have hvalid : c.toNat < 0xD800 ∨ (0xDFFF < c.toNat ∧ c.toNat < 0x110000) := c.valid
  simp only [isHighHalf, isLowHalf, Bool.and_eq_false_iff, decide_eq_false_iff_not]
  omega

theorem charsOf?_map_toNat (cs : List Char) : charsOf? (cs.map Char.toNat) = some cs := by
  induction cs with
  | nil => rfl
  | cons c cs ih =>
    obtain ⟨hhigh, hlow⟩ := not_isHalf c
    cases cs with
    | nil => simp [charsOf?, hhigh, hlow, Char.ofNat_toNat]
    | cons d ds =>
      rw [List.map_cons] at ih
      simp [charsOf?, hhigh, hlow, ih, Char.ofNat_toNat]

theorem readAll_quoted (s : String) (ts : List Token) (rest : List Char) :
    (⟨.between, ts⟩ : Lexer).readAll (Json.quoted s ++ rest) =
      (⟨.between, .text (some s) :: ts⟩ : Lexer).readAll rest := by
  show (⟨.text [], ts⟩ : Lexer).readAll ((s.toList.flatMap Json.escape ++ ['"']) ++ rest) = _
  rw [List.append_assoc, readAll_text, List.append_nil]
  show (⟨.between, .text (textOf? _) :: ts⟩ : Lexer).readAll rest = _
  rw [textOf?, List.reverse_reverse, charsOf?_map_toNat, Option.map_some, String.ofList_toList]

/-! ### Numbers and words -/

/-- The text of a number: a digit or a minus first, and then only characters of numbers. -/
def IsNumberText (cs : List Char) : Prop :=
  ∃ c rest, cs = c :: rest ∧ (c.isDigit = true ∨ c = '-') ∧ ∀ d ∈ rest, isNumberChar d = true

theorem isNumberChar_of_isDigit {c : Char} (h : c.isDigit = true) : isNumberChar c = true := by
  simp [isNumberChar, h]

def Delimits (cs : List Char) : Prop :=
  ∀ c rest, cs = c :: rest → c = ',' ∨ c = ']' ∨ c = '\x7d'

theorem readAll_word_delimited (read : List Char) (ts : List Token) {rest : List Char}
    (h : Delimits rest) :
    (⟨.word read, ts⟩ : Lexer).readAll rest = (word? read.reverse).bind
      (fun d => (⟨.between, .atom d :: ts⟩ : Lexer).readAll rest) := by
  cases rest with
  | nil => cases hd : word? read.reverse <;> simp [Lexer.readAll, Lexer.finish, hd]
  | cons c rest =>
    have hc : c.isLower = false := by
      rcases h c rest rfl with rfl | rfl | rfl <;> decide
    cases hd : word? read.reverse <;> simp [Lexer.step, hc, Lexer.finish, hd]

theorem readAll_number_delimited (read : List Char) (ts : List Token) {rest : List Char}
    (h : Delimits rest) :
    (⟨.number read, ts⟩ : Lexer).readAll rest = (number? read.reverse).bind
      (fun d => (⟨.between, .atom d :: ts⟩ : Lexer).readAll rest) := by
  cases rest with
  | nil => cases hd : number? read.reverse <;> simp [Lexer.readAll, Lexer.finish, hd]
  | cons c rest =>
    have hc : isNumberChar c = false := by
      rcases h c rest rfl with rfl | rfl | rfl <;> decide
    cases hd : number? read.reverse <;> simp [Lexer.step, hc, Lexer.finish, hd]

theorem readAll_numberChars {cs : List Char} (h : ∀ c ∈ cs, isNumberChar c = true)
    (read : List Char) (ts : List Token) (rest : List Char) :
    (⟨.number read, ts⟩ : Lexer).readAll (cs ++ rest) =
      (⟨.number (cs.reverse ++ read), ts⟩ : Lexer).readAll rest := by
  induction cs generalizing read with
  | nil => rfl
  | cons c cs ih =>
    obtain ⟨hc, hcs⟩ := List.forall_mem_cons.1 h
    rw [List.cons_append, Lexer.readAll_cons]
    simp [Lexer.step, hc, ih hcs]

/-- A number starts where nothing else does. -/
theorem between_number {c : Char} (h : c.isDigit = true ∨ c = '-') (ts : List Token) :
    Lexer.between ts c = some ⟨.number [c], ts⟩ := by
  have hother : c ≠ ' ' ∧ c ≠ '\t' ∧ c ≠ '\n' ∧ c ≠ '\r' ∧ c ≠ '"' ∧ c ≠ '[' ∧ c ≠ ']' ∧
      c ≠ '\x7b' ∧ c ≠ '\x7d' ∧ c ≠ ',' ∧ c ≠ ':' := by
    refine ⟨?_, ?_, ?_, ?_, ?_, ?_, ?_, ?_, ?_, ?_, ?_⟩ <;>
      (rintro rfl; revert h; decide)
  simp [Lexer.between, isBlank, hother, h]

/-- The characters of a number are collected and read together. -/
theorem readAll_number {cs : List Char} (h : IsNumberText cs) (ts : List Token)
    {rest : List Char} (hrest : Delimits rest) :
    (⟨.between, ts⟩ : Lexer).readAll (cs ++ rest) =
      (number? cs).bind (fun d => (⟨.between, .atom d :: ts⟩ : Lexer).readAll rest) := by
  obtain ⟨c, tail, rfl, hc, htail⟩ := h
  rw [List.cons_append, Lexer.readAll_cons]
  show (Lexer.between ts c).bind _ = _
  rw [between_number hc, Option.bind_some, readAll_numberChars htail,
    readAll_number_delimited _ _ hrest]
  simp

/-! ### The texts of numbers -/

theorem IsNumberText.all {cs : List Char} (h : IsNumberText cs) :
    ∀ c ∈ cs, isNumberChar c = true := by
  obtain ⟨c, rest, rfl, hc, hrest⟩ := h
  refine List.forall_mem_cons.2 ⟨?_, hrest⟩
  cases hc with
  | inl hdigit => exact isNumberChar_of_isDigit hdigit
  | inr hminus => subst hminus; decide

theorem IsNumberText.append {cs more : List Char} (h : IsNumberText cs)
    (hmore : ∀ c ∈ more, isNumberChar c = true) : IsNumberText (cs ++ more) := by
  obtain ⟨c, rest, rfl, hc, hrest⟩ := h
  refine ⟨c, rest ++ more, rfl, hc, fun d hd => ?_⟩
  exact (List.mem_append.1 hd).elim (hrest d) (hmore d)

theorem IsNumberText.minus {cs : List Char} (h : IsNumberText cs) : IsNumberText ('-' :: cs) :=
  ⟨'-', cs, rfl, Or.inr rfl, h.all⟩

theorem isNumberText_digits {cs : List Char} (hne : cs ≠ [])
    (h : ∀ c ∈ cs, c.isDigit = true) : IsNumberText cs := by
  obtain ⟨c, rest, rfl⟩ := List.exists_cons_of_ne_nil hne
  obtain ⟨hc, hrest⟩ := List.forall_mem_cons.1 h
  exact ⟨c, rest, rfl, Or.inl hc, fun d hd => isNumberChar_of_isDigit (hrest d hd)⟩

theorem isDigit_toDigits (n : Nat) : ∀ c ∈ Nat.toDigits 10 n, c.isDigit = true :=
  fun _ hc => Nat.isDigit_of_mem_toDigits (by decide) (by decide) hc

theorem isNumberText_toDigits (n : Nat) : IsNumberText (Nat.toDigits 10 n) :=
  isNumberText_digits Nat.toDigits_ne_nil (isDigit_toDigits n)

theorem isNumberText_wholeNumber (n : Int) : IsNumberText (Json.wholeNumber n) := by
  unfold Json.wholeNumber
  split
  · exact (isNumberText_toDigits n.natAbs).minus
  · exact isNumberText_toDigits n.natAbs

theorem isNumberChar_zeros (n : Nat) : ∀ c ∈ Decimal.zeros n, isNumberChar c = true := by
  intro c hc
  rw [List.eq_of_mem_replicate hc]
  decide

theorem isNumberChar_exponent (plus : Bool) (e : Int) :
    ∀ c ∈ Decimal.writeExponent plus e, isNumberChar c = true := by
  intro c hc
  cases List.mem_append.1 hc with
  | inl hsign =>
    revert hsign
    split
    · intro hsign
      rw [List.mem_singleton.1 hsign]
      decide
    · split
      · intro hsign
        rw [List.mem_singleton.1 hsign]
        decide
      · intro hsign
        cases hsign
  | inr hdigits => exact isNumberChar_of_isDigit (isDigit_toDigits _ c hdigits)

/-- However a decimal is laid out, a digit stands first. -/
theorem isNumberChar_pointZero : ∀ c ∈ ['.', '0'], isNumberChar c = true :=
  List.forall_mem_cons.2 ⟨by decide, List.forall_mem_cons.2 ⟨by decide, by simp⟩⟩

theorem isNumberText_place (layout : Decimal.Layout) (d : Decimal) :
    IsNumberText (layout.place d) := by
  have hdigits := isDigit_toDigits d.digits
  have hne : Nat.toDigits 10 d.digits ≠ [] := Nat.toDigits_ne_nil
  have hchars : ∀ c ∈ Nat.toDigits 10 d.digits, isNumberChar c = true :=
    fun c hc => isNumberChar_of_isDigit (hdigits c hc)
  -- the digits in front of the point, of which there is one at least
  have hfront {n : Nat} (hn : 0 < n) : IsNumberText ((Nat.toDigits 10 d.digits).take n) := by
    refine isNumberText_digits (fun hnil => ?_) fun c hc => hdigits c (List.mem_of_mem_take hc)
    cases List.take_eq_nil_iff.1 hnil with
    | inl hzero => omega
    | inr hempty => exact hne hempty
  have hback (n : Nat) : ∀ c ∈ '.' :: (Nat.toDigits 10 d.digits).drop n, isNumberChar c = true :=
    List.forall_mem_cons.2 ⟨by decide, fun c hc => hchars c (List.mem_of_mem_drop hc)⟩
  unfold Decimal.Layout.place
  dsimp only
  split
  · split
    · have hzero : IsNumberText ['0', '.'] := ⟨'0', ['.'], rfl, Or.inl (by decide),
        List.forall_mem_cons.2 ⟨by decide, by simp⟩⟩
      exact (hzero.append (isNumberChar_zeros _)).append hchars
    · split
      · exact ((isNumberText_digits hne hdigits).append (isNumberChar_zeros _)).append
          isNumberChar_pointZero
      · rename_i hpoint _
        exact (hfront (by omega)).append (hback _)
  · have he : ∀ c ∈ 'e' :: Decimal.writeExponent layout.plus
        (((Nat.toDigits 10 d.digits).length : Int) + d.exponent - 1), isNumberChar c = true :=
      List.forall_mem_cons.2 ⟨by decide, isNumberChar_exponent _ _⟩
    refine IsNumberText.append (IsNumberText.append (hfront (by omega)) ?_) he
    split
    · simp
    · exact hback 1

theorem isNumberText_double (x : Double) :
    IsNumberText (Json.numberLayout.write Double.shortest x) := by
  have hbody : IsNumberText
      (if x.isZero then ['0', '.', '0'] else Json.numberLayout.place (Double.shortest x)) := by
    split
    · exact ⟨'0', ['.', '0'], rfl, Or.inl (by decide), isNumberChar_pointZero⟩
    · exact isNumberText_place _ _
  unfold Decimal.Layout.write
  split
  · exact hbody.minus
  · exact hbody

/-! ### Values -/

mutual

def tokensOf? : Json → Option (List Token)
  | .null => some [.atom .null]
  | .bool b => some [.atom (.bool b)]
  | .int n => (number? (Json.wholeNumber n)).map (fun d => [.atom d])
  | .double x => (number? (Json.numberLayout.write Double.shortest x)).map (fun d => [.atom d])
  | .str s => some [.text (some s)]
  | .arr items => (itemTokens? items).map (fun ts => .openArray :: ts ++ [.closeArray])
  | .obj fields => (fieldTokens? fields).map (fun ts => .openObject :: ts ++ [.closeObject])

def itemTokens? : List Json → Option (List Token)
  | [] => some []
  | [v] => tokensOf? v
  | v :: w :: rest =>
    (tokensOf? v).bind (fun ts => (itemTokens? (w :: rest)).map (fun us => ts ++ .comma :: us))

def fieldTokens? : List (String × Json) → Option (List Token)
  | [] => some []
  | [(k, v)] => (tokensOf? v).map (fun ts => .text (some k) :: .colon :: ts)
  | (k, v) :: e :: rest =>
    (tokensOf? v).bind (fun ts =>
      (fieldTokens? (e :: rest)).map (fun us => .text (some k) :: .colon :: ts ++ .comma :: us))

end

theorem delimits_nil : Delimits [] := by
  intro c rest h
  cases h

theorem delimits_cons {c : Char} (h : c = ',' ∨ c = ']' ∨ c = '\x7d') (rest : List Char) :
    Delimits (c :: rest) := by
  rintro _ _ ⟨⟩
  exact h

mutual

/-- The text of a value is read as its tokens. -/
theorem readAll_value : (v : Json) → (ts : List Token) → {rest : List Char} → Delimits rest →
    (⟨.between, ts⟩ : Lexer).readAll (v.chars ++ rest) =
      (tokensOf? v).bind (fun more => (⟨.between, more.reverse ++ ts⟩ : Lexer).readAll rest)
  | .null, ts, rest, h => readAll_word_delimited ['l', 'l', 'u', 'n'] ts h
  | .bool true, ts, rest, h => readAll_word_delimited ['e', 'u', 'r', 't'] ts h
  | .bool false, ts, rest, h => readAll_word_delimited ['e', 's', 'l', 'a', 'f'] ts h
  | .int n, ts, rest, h => by
    rw [Json.chars, readAll_number (isNumberText_wholeNumber n) ts h, tokensOf?]
    cases number? (Json.wholeNumber n) <;> rfl
  | .double x, ts, rest, h => by
    rw [Json.chars, readAll_number (isNumberText_double x) ts h, tokensOf?]
    cases number? (Json.numberLayout.write Double.shortest x) <;> rfl
  | .str s, ts, rest, _ => by
    rw [Json.chars, readAll_quoted, tokensOf?]
    rfl
  | .arr items, ts, rest, _ => by
    rw [Json.chars, tokensOf?]
    show (⟨.between, .openArray :: ts⟩ : Lexer).readAll
      ((Json.itemChars items ++ [']']) ++ rest) = _
    rw [List.append_assoc, List.singleton_append,
      readAll_items items _ (delimits_cons (by simp) rest)]
    cases itemTokens? items with
    | none => rfl
    | some more =>
      show (⟨.between, .closeArray :: (more.reverse ++ .openArray :: ts)⟩ : Lexer).readAll rest = _
      simp
  | .obj fields, ts, rest, _ => by
    rw [Json.chars, tokensOf?]
    show (⟨.between, .openObject :: ts⟩ : Lexer).readAll
      ((Json.fieldChars fields ++ ['\x7d']) ++ rest) = _
    rw [List.append_assoc, List.singleton_append,
      readAll_fields fields _ (delimits_cons (by simp) rest)]
    cases fieldTokens? fields with
    | none => rfl
    | some more =>
      show (⟨.between, .closeObject :: (more.reverse ++ .openObject :: ts)⟩ : Lexer).readAll rest =
        _
      simp

theorem readAll_items : (items : List Json) → (ts : List Token) → {rest : List Char} →
    Delimits rest → (⟨.between, ts⟩ : Lexer).readAll (Json.itemChars items ++ rest) =
      (itemTokens? items).bind
        (fun more => (⟨.between, more.reverse ++ ts⟩ : Lexer).readAll rest)
  | [], ts, rest, _ => by
    rw [Json.itemChars, itemTokens?]
    rfl
  | [v], ts, rest, h => by
    rw [Json.itemChars, itemTokens?]
    exact readAll_value v ts h
  | v :: w :: items, ts, rest, h => by
    rw [Json.itemChars, itemTokens?, List.append_assoc, List.cons_append,
      readAll_value v ts (delimits_cons (by simp) _)]
    cases tokensOf? v with
    | none => rfl
    | some first =>
      show (⟨.between, .comma :: (first.reverse ++ ts)⟩ : Lexer).readAll
        (Json.itemChars (w :: items) ++ rest) = _
      rw [readAll_items (w :: items) _ h]
      cases itemTokens? (w :: items) with
      | none => rfl
      | some more => simp

theorem readAll_fields : (fields : List (String × Json)) → (ts : List Token) →
    {rest : List Char} → Delimits rest →
    (⟨.between, ts⟩ : Lexer).readAll (Json.fieldChars fields ++ rest) =
      (fieldTokens? fields).bind
        (fun more => (⟨.between, more.reverse ++ ts⟩ : Lexer).readAll rest)
  | [], ts, rest, _ => by
    rw [Json.fieldChars, fieldTokens?]
    rfl
  | [(k, v)], ts, rest, h => by
    rw [Json.fieldChars, fieldTokens?, List.append_assoc, readAll_quoted]
    show (⟨.between, .colon :: .text (some k) :: ts⟩ : Lexer).readAll (v.chars ++ rest) = _
    rw [readAll_value v _ h]
    cases tokensOf? v with
    | none => rfl
    | some more => simp
  | (k, v) :: e :: fields, ts, rest, h => by
    rw [Json.fieldChars, fieldTokens?, List.append_assoc, List.append_assoc, readAll_quoted]
    show (⟨.between, .colon :: .text (some k) :: ts⟩ : Lexer).readAll
      (v.chars ++ ',' :: (Json.fieldChars (e :: fields) ++ rest)) = _
    rw [readAll_value v _ (delimits_cons (by simp) _)]
    cases tokensOf? v with
    | none => rfl
    | some first =>
      show (⟨.between, .comma :: (first.reverse ++ .colon :: .text (some k) :: ts)⟩ : Lexer).readAll
        (Json.fieldChars (e :: fields) ++ rest) = _
      rw [readAll_fields (e :: fields) _ h]
      cases fieldTokens? (e :: fields) with
      | none => rfl
      | some more => simp

end

theorem tokens?_chars (v : Json) : tokens? v.chars = tokensOf? v := by
  have h := readAll_value v [] delimits_nil
  rw [List.append_nil] at h
  rw [tokens?_eq, h]
  cases tokensOf? v with
  | none => rfl
  | some ts => simp [Lexer.readAll, Lexer.finish]

end Document
end MailCapture
