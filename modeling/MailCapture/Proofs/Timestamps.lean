import MailCapture.Proofs.Calendar
/-!
Points in time that are written and read back: the text of a time in range is read as a time in
range, to the second the same.
-/
namespace MailCapture.Time

/-! ### Digits -/

theorem isDigit_padded (width n : Nat) : ∀ c ∈ padded width n, c.isDigit = true := by
  intro c hc
  cases List.mem_append.1 hc with
  | inl hzero =>
    rw [List.eq_of_mem_replicate hzero]
    rfl
  | inr hdigit => exact Nat.isDigit_of_mem_toDigits (by decide) (by decide) hdigit

theorem padded_ne_nil (width n : Nat) : padded width n ≠ [] := by
  simp [padded, Nat.toDigits_ne_nil]

theorem ofDigitChars_padded (width n : Nat) : Nat.ofDigitChars 10 (padded width n) 0 = n := by
  rw [padded, Nat.ofDigitChars_append, Nat.ofDigitChars_replicate_zero, Nat.mul_zero,
    Nat.ofDigitChars_ten_toDigits]

theorem length_padded {width n : Nat} (h : (Nat.toDigits 10 n).length ≤ width) :
    (padded width n).length = width := by
  simp only [padded, List.length_append, List.length_replicate]
  omega

theorem length_padded_two {n : Nat} (hn : n < 100) : (padded 2 n).length = 2 :=
  length_padded ((Nat.length_toDigits_le_iff (by decide) (by decide)).2 hn)

theorem length_padded_four {n : Nat} (hn : n < 10000) : (padded 4 n).length = 4 :=
  length_padded ((Nat.length_toDigits_le_iff (by decide) (by decide)).2 hn)

/-- Digits that nothing follows within the limit of the reader, or something that is none. -/
theorem digits_append {most : Nat} {ds rest : List Char} (hds : ∀ c ∈ ds, c.isDigit = true)
    (hne : ds ≠ []) (hlength : ds.length ≤ most)
    (hrest : (rest.take (most - ds.length)).takeWhile Char.isDigit = []) :
    digits most (ds ++ rest) = some (Nat.ofDigitChars 10 ds 0, rest) := by
  have hspan : ((ds ++ rest).take most).takeWhile Char.isDigit = ds := by
    rw [List.take_append, List.take_of_length_le hlength, List.takeWhile_append_of_pos hds, hrest,
      List.append_nil]
  unfold digits
  dsimp only
  rw [hspan, if_neg (by simpa using hne), List.drop_left]

/-- A digit is neither blank nor a sign. -/
theorem head_of_isDigit {c : Char} (h : c.isDigit = true) :
    Text.isBlank c = false ∧ c ≠ '-' ∧ c ≠ '+' := by
  have hcode : 48 ≤ c.toNat ∧ c.toNat ≤ 57 := by simpa [Char.isDigit_iff_toNat] using h
  refine ⟨?_, ?_, ?_⟩
  · simp [Text.isBlank, Text.blankRanges]
    omega
  · rintro rfl
    cases h
  · rintro rfl
    cases h

theorem dropWhile_padded (width n : Nat) (rest : List Char) :
    (padded width n ++ rest).dropWhile Text.isBlank = padded width n ++ rest := by
  obtain ⟨c, cs, hc⟩ := List.exists_cons_of_ne_nil (padded_ne_nil width n)
  have hdigit := isDigit_padded width n c (by simp [hc])
  rw [hc, List.cons_append, List.dropWhile_cons, (head_of_isDigit hdigit).1]
  rfl

theorem component_padded {n : Nat} (hn : n < 100) (rest : List Char) :
    component (padded 2 n ++ rest) = some (n, rest) := by
  have hlength := length_padded_two hn
  rw [component, dropWhile_padded, digits_append (isDigit_padded 2 n) (padded_ne_nil 2 n)
    (Nat.le_of_eq hlength) (by simp [hlength]), ofDigitChars_padded]

/-- A year behind a sign is read as far as its digits go. -/
theorem digits_signed (n : Nat) (rest : List Char) :
    digits (padded 4 n ++ '-' :: rest).length (padded 4 n ++ '-' :: rest) =
      some (n, '-' :: rest) := by
  have hstop : (('-' :: rest).take ((padded 4 n ++ '-' :: rest).length - (padded 4 n).length)
      ).takeWhile Char.isDigit = [] := by
    simp [List.length_append]
  rw [digits_append (isDigit_padded 4 n) (padded_ne_nil 4 n) (by simp) hstop,
    ofDigitChars_padded]

/-- The year is read up to the mark behind it. -/
theorem yearPart_yearChars (year : Int) (rest : List Char) :
    yearPart (yearChars year ++ '-' :: rest) = some (year, '-' :: rest) := by
  unfold yearChars
  split
  · rename_i hyear
    have hlength := length_padded_four (by omega : year.toNat < 10000)
    have hread : digits 4 (padded 4 year.toNat ++ '-' :: rest) =
        some (year.toNat, '-' :: rest) := by
      rw [digits_append (isDigit_padded _ _) (padded_ne_nil _ _) (Nat.le_of_eq hlength)
        (by simp [hlength]), ofDigitChars_padded]
    obtain ⟨c, cs, hc⟩ := List.exists_cons_of_ne_nil (padded_ne_nil 4 year.toNat)
    obtain ⟨-, hminus, hplus⟩ := head_of_isDigit (isDigit_padded 4 year.toNat c (by simp [hc]))
    rw [yearPart, dropWhile_padded]
    split
    · rename_i hcs
      rw [hc] at hcs
      cases hcs
      exact absurd rfl hminus
    · rename_i hcs
      rw [hc] at hcs
      cases hcs
      exact absurd rfl hplus
    · rw [hread, Option.map_some, Int.toNat_of_nonneg hyear.1]
  · rename_i hyear
    have hread := digits_signed year.natAbs rest
    by_cases hneg : year < 0
    · have hvalue : -(year.natAbs : Int) = year := by omega
      rw [if_pos hneg]
      refine (congrArg (Option.map fun p => (-(p.1 : Int), p.2)) hread).trans ?_
      rw [Option.map_some, hvalue]
    · have hvalue : (year.natAbs : Int) = year := by omega
      rw [if_neg hneg]
      refine (congrArg (Option.map fun p => ((p.1 : Int), p.2)) hread).trans ?_
      rw [Option.map_some, hvalue]

theorem mark_cons {c : Char} (h : Text.isBlank c = false) (rest : List Char) :
    mark c (c :: rest) = some ((), rest) := by
  rw [mark, List.dropWhile_cons, h]
  exact if_pos rfl

theorem separator_cons (rest : List Char) : separator ('T' :: rest) = some ((), rest) := rfl

/-- What follows a reader goes on with what it left. -/
theorem bind_of_read {α β : Type} {front : Option (α × List Char)} {a : α} {rest : List Char}
    {f : α × List Char → Option β} {b : β} (hread : front = some (a, rest))
    (h : f (a, rest) = some b) : front.bind f = some b := by
  rw [hread, Option.bind_some, h]

/-! ### Times -/

/-- A date and a time of day in UTC are read as the time that they tell, if that is in range. -/
theorem ofChars?_written {year : Int} {month day hour minute second : Nat}
    (hmonth : 1 ≤ month ∧ month ≤ 12) (hday : 1 ≤ day ∧ day ≤ daysInMonth year month)
    (hhour : hour < 24) (hminute : minute < 60) (hsecond : second ≤ 60)
    (hyear : -262143 ≤ year ∧ year ≤ 262142) {t : Time} (ht : t.isInRange = true)
    (hseconds : t.seconds = daysOfDate year month day * 86400 +
      (hour * 3600 + minute * 60 + (min second 59 : Nat)))
    (hnanos : t.nanos = if second = 60 then 1000000000 else 0) :
    ofChars? (yearChars year ++ '-' :: (padded 2 month ++ '-' :: (padded 2 day ++
        'T' :: (padded 2 hour ++ ':' :: (padded 2 minute ++ ':' :: (padded 2 second ++ ['Z'])))))) =
      some t := by
  have hlast : daysInMonth year month ≤ 31 := by
    unfold daysInMonth
    repeat' split
    all_goals omega
  have hminus : Text.isBlank '-' = false := by decide
  have hcolon : Text.isBlank ':' = false := by decide
  have hfraction : fraction ['Z'] = some (0, ['Z']) := by decide
  have hoffset : offset ['Z'] = some (0, []) := by decide
  obtain ⟨seconds, nanos⟩ := t
  subst hseconds hnanos
  refine bind_of_read (yearPart_yearChars year _) ?_
  refine bind_of_read (mark_cons hminus _) ?_
  refine bind_of_read (component_padded (by omega : month < 100) _) ?_
  refine bind_of_read (mark_cons hminus _) ?_
  refine bind_of_read (component_padded (by omega : day < 100) _) ?_
  refine bind_of_read (separator_cons _) ?_
  refine bind_of_read (component_padded (by omega : hour < 100) _) ?_
  refine bind_of_read (mark_cons hcolon _) ?_
  refine bind_of_read (component_padded (by omega : minute < 100) _) ?_
  refine bind_of_read (mark_cons hcolon _) ?_
  refine bind_of_read (component_padded (by omega : second < 100) _) ?_
  refine bind_of_read hfraction ?_
  refine bind_of_read hoffset ?_
  refine (if_pos ⟨rfl, hmonth.1, hmonth.2, hday.1, hday.2, hhour, hminute, hsecond, hyear.1,
    hyear.2⟩).trans ?_
  simp only [Int.sub_zero, Nat.zero_add, ht, if_true]

theorem isInRange_iff {t : Time} : t.isInRange = true ↔
    daysOfDate (-262143) 1 1 * 86400 ≤ t.seconds ∧ t.seconds < daysOfDate 262143 1 1 * 86400 := by
  simp [isInRange]

/-- The text of a time in range is read as a time in range, to the second the same unless that is
inside a leap second. -/
theorem ofText?_text {t : Time} (ht : t.isInRange = true) : ∃ u, ofText? t.text = some u ∧
    u.isInRange = true ∧ (t.nanos < 1000000000 → u = ⟨t.seconds, 0⟩) := by
  obtain ⟨days, hdays⟩ : ∃ days, days = Int.fdiv t.seconds 86400 := ⟨_, rfl⟩
  obtain ⟨ofDay, hofDay⟩ : ∃ ofDay, ofDay = (Int.fmod t.seconds 86400).toNat := ⟨_, rfl⟩
  have hsplit : t.seconds = days * 86400 + ofDay ∧ ofDay < 86400 := by
    rw [Int.fdiv_eq_ediv_of_nonneg _ (by decide)] at hdays
    rw [Int.fmod_eq_emod_of_nonneg _ (by decide)] at hofDay
    omega
  obtain ⟨second, hsecond⟩ : ∃ second,
      second = ofDay % 60 + (if t.nanos ≥ 1000000000 then 1 else 0) := ⟨_, rfl⟩
  have hle : second ≤ 60 ∧ ofDay % 60 ≤ second ∧ second ≤ ofDay % 60 + 1 ∧
      (t.nanos < 1000000000 → second = ofDay % 60) := by
    split at hsecond <;> omega
  -- a leap second is told as the second 60, or as the one after it within a minute
  obtain ⟨u, hu⟩ : ∃ u : Time, u = ⟨days * 86400 +
      ((ofDay / 3600 : Nat) * 3600 + (ofDay / 60 % 60 : Nat) * 60 + (min second 59 : Nat)),
      if second = 60 then 1000000000 else 0⟩ := ⟨_, rfl⟩
  have hrange := isInRange_iff.1 ht
  have hfirst : daysOfDate (-262143) 1 1 = -96465292 := rfl
  have hend : daysOfDate 262143 1 1 = 95026237 := rfl
  have hu' : u.isInRange = true := by
    rw [isInRange_iff, hu, hfirst, hend]
    rw [hfirst, hend] at hrange
    dsimp only
    omega
  refine ⟨u, ?_, hu', ?_⟩
  · have hspan : daysOfDate (-262143) 1 1 ≤ days ∧ days < daysOfDate 262143 1 1 := by omega
    have hyear := dateOfDays_year hspan.1 hspan.2
    have hday := daysOfDate_dateOfDays days
    have hread := ofChars?_written (dateOfDays_month days) (dateOfDays_day days)
      (by omega : ofDay / 3600 < 24) (by omega : ofDay / 60 % 60 < 60) hle.1 hyear hu'
      (by rw [hday, hu]) (by rw [hu])
    rw [← hread, ofText?, text, String.toList_ofList, secondsChars, ← hdays, ← hofDay]
    simp only [List.append_assoc, List.cons_append, hsecond]
  · intro hnanos
    have hplain : second ≠ 60 := by omega
    rw [hu, if_neg hplain]
    congr 1
    omega

end MailCapture.Time
