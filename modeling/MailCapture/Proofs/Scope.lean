import MailCapture.Config
import MailCapture.Entries
import MailCapture.Proofs.Credentials
import MailCapture.Proofs.Trimmed
/-!
What the process watches, and how long it waits before it tries again, by the variables that it is
given.  It watches the first entry of one list, or of a second list where the first one is unset or
blank.  A first list of commas and white space is neither unset nor blank and has no entry: the
second list does not count then, and the whole cluster is watched.  The wait is the positive number
in its variable, or else the default.
-/
namespace MailCapture

/-! ### Lists of names -/

namespace Text
variable {cs core entry : List Char}

inductive FirstEntry : List Char → List Char → Prop
  | here {piece entry rest : List Char} (hpiece : Holds piece entry) (hcomma : ',' ∉ piece)
      (hrest : ∀ c ∈ rest.head?, c = ',') : FirstEntry (piece ++ rest) entry
  | later {blank rest entry : List Char} (hblank : AllBlank blank)
      (hrest : FirstEntry rest entry) : FirstEntry (blank ++ ',' :: rest) entry

/-- Every text is one entry, or it has a first one with a comma behind it. -/
theorem comma_induction {P : List Char → Prop} (last : ∀ piece, ',' ∉ piece → P piece)
    (more : ∀ piece rest, ',' ∉ piece → P rest → P (piece ++ ',' :: rest)) (cs : List Char) :
    P cs := by
  induction hn : cs.length using Nat.strongRecOn generalizing cs with
  | ind n ih =>
    by_cases hcomma : ',' ∈ cs
    · obtain ⟨piece, rest, rfl, hpiece⟩ := List.eq_append_cons_of_mem hcomma
      refine more piece rest hpiece (ih rest.length ?_ rest rfl)
      simp only [← hn, List.length_append, List.length_cons]
      omega
    · exact last cs hcomma

theorem not_mem_of_allBlank (h : AllBlank cs) : ',' ∉ cs :=
  fun hmem => not_allBlank hmem (by decide) h

/-- A text without a comma is one entry. -/
theorem Holds.firstEntry (h : Holds cs core) (hcomma : ',' ∉ cs) : FirstEntry cs core := by
  have hend : ∀ c ∈ ([] : List Char).head?, c = ',' := by simp
  simpa using FirstEntry.here h hcomma hend

theorem FirstEntry.isBare (h : FirstEntry cs entry) : IsBare entry ∧ ',' ∉ entry := by
  induction h with
  | here hpiece hcomma _ => exact ⟨hpiece.isBare, fun hmem => hcomma (hpiece.subset hmem)⟩
  | later _ _ ih => exact ih

theorem FirstEntry.exists_mem (h : FirstEntry cs entry) :
    ∃ c ∈ cs, c ≠ ',' ∧ isBlank c = false := by
  induction h with
  | here hpiece hcomma _ =>
    obtain ⟨c, hc, hblank⟩ := hpiece.isBare.exists_mem
    have hmem := hpiece.subset hc
    exact ⟨c, List.mem_append_left _ hmem, fun he => hcomma (he ▸ hmem), hblank⟩
  | later _ _ ih =>
    obtain ⟨c, hc, hbare⟩ := ih
    exact ⟨c, by simp [hc], hbare⟩

theorem exists_firstEntry (h : ∃ c ∈ cs, c ≠ ',' ∧ isBlank c = false) :
    ∃ entry, FirstEntry cs entry := by
  induction cs using comma_induction with
  | last piece hpiece =>
    obtain ⟨c, hc, -, hblank⟩ := h
    rcases holds_or_allBlank piece with ⟨core, hcore⟩ | hall
    · exact ⟨core, hcore.firstEntry hpiece⟩
    · exact absurd hall (not_allBlank hc hblank)
  | more piece rest hpiece ih =>
    rcases holds_or_allBlank piece with ⟨core, hcore⟩ | hall
    · exact ⟨core, .here hcore hpiece (by simp)⟩
    · obtain ⟨c, hc, hne, hblank⟩ := h
      have hrest : c ∈ rest := by
        rcases List.mem_append.1 hc with hc | hc
        · exact absurd hall (not_allBlank hc hblank)
        · exact (List.mem_cons.1 hc).resolve_left hne
      obtain ⟨entry, hentry⟩ := ih ⟨c, hrest, hne, hblank⟩
      exact ⟨entry, .later hall hentry⟩

/-- A list has an entry exactly if there is more in it than commas and white space. -/
theorem exists_firstEntry_iff :
    (∃ entry, FirstEntry cs entry) ↔ ∃ c ∈ cs, c ≠ ',' ∧ isBlank c = false :=
  ⟨fun ⟨_, h⟩ => h.exists_mem, exists_firstEntry⟩

end Text

namespace Config
open Text

section Reading
variable {cs piece rest entry : List Char} {s e : String}

theorem firstEntry?_last (h : ',' ∉ piece) : firstEntry? (String.ofList piece) =
    if trimChars piece = [] then none else some (String.ofList (trimChars piece)) := by
  simp only [ firstEntry?, split, String.toList_ofList, pieces_of_not_mem h]
  split
  · simp [trim, *]
  · simp [trim, *]

theorem firstEntry?_cons (h : ',' ∉ piece) : firstEntry? (String.ofList (piece ++ ',' :: rest)) =
    if trimChars piece = [] then firstEntry? (String.ofList rest)
    else some (String.ofList (trimChars piece)) := by
  simp only [ firstEntry?, split, String.toList_ofList, pieces_append_cons, pieces_of_not_mem h]
  split
  · simp [trim, *]
  · simp [trim, *]

theorem firstEntry_of_eq_some (h : firstEntry? (String.ofList cs) = some e) :
    FirstEntry cs e.toList := by
  induction cs using comma_induction with
  | last piece hpiece =>
    rw [firstEntry?_last hpiece] at h
    split at h
    · cases h
    · rename_i hne
      cases h
      rw [String.toList_ofList]
      exact (holds_trimChars hne).firstEntry hpiece
  | more piece rest hpiece ih =>
    rw [firstEntry?_cons hpiece] at h
    split at h
    · rename_i hnil
      exact .later (trimChars_eq_nil_iff.1 hnil) (ih h)
    · rename_i hne
      cases h
      rw [String.toList_ofList]
      exact .here (holds_trimChars hne) hpiece (by simp)

theorem firstEntry?_of_firstEntry (h : FirstEntry cs entry) :
    firstEntry? (String.ofList cs) = some (String.ofList entry) := by
  induction h with
  | @here piece entry rest hpiece hcomma hrest =>
    have htrim := trimChars_of_holds hpiece
    have hne : trimChars piece ≠ [] := htrim ▸ hpiece.isBare.ne_nil
    -- what stands behind the entry is nothing, or starts with a comma
    cases rest with
    | nil => rw [List.append_nil, firstEntry?_last hcomma, if_neg hne, htrim]
    | cons c rest =>
      cases hrest c rfl
      rw [firstEntry?_cons hcomma, if_neg hne, htrim]
  | later hblank _ ih =>
    rw [firstEntry?_cons (not_mem_of_allBlank hblank), if_pos (trimChars_eq_nil_iff.2 hblank), ih]

theorem firstEntry?_eq_some_iff : firstEntry? s = some e ↔ FirstEntry s.toList e.toList := by
  constructor
  · intro h
    exact firstEntry_of_eq_some (by rwa [String.ofList_toList])
  · intro h
    simpa using firstEntry?_of_firstEntry h

end Reading

/-! ### Variables -/

variable {lookup : String → Option String} {key v ns : String} {largest n : Nat} {z : Int}

def Lists (lookup : String → Option String) (key ns : String) : Prop :=
  ∃ v, lookup key = some v ∧ FirstEntry v.toList ns.toList

def Gives (lookup : String → Option String) (key : String) (z : Int) : Prop :=
  ∃ v core, lookup key = some v ∧ Holds v.toList core ∧ Spells core z

theorem filled?_eq_some_iff :
    filled? lookup key = some v ↔ lookup key = some v ∧ ¬ AllBlank v.toList := by
  rw [filled?, Option.filter_eq_some_iff, ← trimChars_eq_nil_iff, trim]
  simp

theorem lists_iff : Lists lookup key ns ↔ (filled? lookup key).bind firstEntry? = some ns := by
  rw [Option.bind_eq_some_iff]
  refine exists_congr fun v => ?_
  rw [filled?_eq_some_iff, firstEntry?_eq_some_iff, and_assoc]
  refine and_congr_right fun _ => ⟨fun h => ⟨?_, h⟩, And.right⟩
  obtain ⟨c, hc, -, hblank⟩ := h.exists_mem
  exact not_allBlank hc hblank

theorem Lists.isBare (h : Lists lookup key ns) : IsBare ns.toList ∧ ',' ∉ ns.toList := by
  obtain ⟨v, -, hfirst⟩ := h
  exact hfirst.isBare

theorem exists_lists_iff (h : lookup key = some v) :
    (∃ ns, Lists lookup key ns) ↔ ∃ c ∈ v.toList, c ≠ ',' ∧ isBlank c = false := by
  rw [← exists_firstEntry_iff]
  constructor
  · rintro ⟨ns, w, hw, hfirst⟩
    cases h.symm.trans hw
    exact ⟨_, hfirst⟩
  · rintro ⟨entry, hfirst⟩
    exact ⟨String.ofList entry, v, h, by rwa [String.toList_ofList]⟩

theorem gives_iff : Gives lookup key z ↔
    ∃ v, filled? lookup key = some v ∧ Spells (trimChars v.toList) z := by
  refine exists_congr fun v => ?_
  rw [filled?_eq_some_iff, ← trimChars_eq_nil_iff]
  constructor
  · rintro ⟨core, hv, hholds, hspells⟩
    rw [trimChars_of_holds hholds]
    exact ⟨⟨hv, hspells.ne_nil⟩, hspells⟩
  · rintro ⟨⟨hv, hne⟩, hspells⟩
    exact ⟨_, hv, holds_trimChars hne, hspells⟩

theorem number?_eq_some_iff (hn : 0 < n) :
    number? lookup key largest = some n ↔ Gives lookup key n ∧ n ≤ largest := by
  rw [number?, Option.bind_eq_some_iff, gives_iff]
  simp only [unsigned?_eq_some_iff hn, trim, String.toList_ofList, ← and_assoc, exists_and_right]

/-! ### The wait -/

def wait? (lookup : String → Option String) : Option Nat :=
  (number? lookup "REQUEUE_INTERVAL_SECS" 18446744073709551615).filter (· > 0)

theorem requeueSeconds_eq (lookup : String → Option String) :
    (ofLookup lookup).requeueSeconds = (wait? lookup).getD 10 := rfl

theorem wait?_eq_some_iff : wait? lookup = some n ↔
    Gives lookup "REQUEUE_INTERVAL_SECS" n ∧ 0 < n ∧ n ≤ 18446744073709551615 := by
  rw [wait?, Option.filter_eq_some_iff, decide_eq_true_eq]
  constructor
  · rintro ⟨hnumber, hn⟩
    obtain ⟨hgives, hle⟩ := (number?_eq_some_iff hn).1 hnumber
    exact ⟨hgives, hn, hle⟩
  · rintro ⟨hgives, hn, hle⟩
    exact ⟨(number?_eq_some_iff hn).2 ⟨hgives, hle⟩, hn⟩

theorem requeueSeconds_bounds (lookup : String → Option String) :
    0 < (ofLookup lookup).requeueSeconds ∧
      (ofLookup lookup).requeueSeconds ≤ 18446744073709551615 := by
  rw [requeueSeconds_eq]
  cases h : wait? lookup with
  | none => decide
  | some n => exact (wait?_eq_some_iff.1 h).2

theorem requeueSeconds_eq_iff (h : Gives lookup "REQUEUE_INTERVAL_SECS" z) :
    ((ofLookup lookup).requeueSeconds : Int) = z ↔ 0 < z ∧ z ≤ 18446744073709551615 := by
  constructor
  · rintro rfl
    obtain ⟨hpos, hle⟩ := requeueSeconds_bounds lookup
    omega
  · rintro ⟨hpos, hle⟩
    lift z to Nat using Int.le_of_lt hpos
    have hwait := wait?_eq_some_iff.2 ⟨h, by omega, by omega⟩
    rw [requeueSeconds_eq, hwait, Option.getD_some]

theorem requeueSeconds_default
    (h : ∀ z, Gives lookup "REQUEUE_INTERVAL_SECS" z → ¬ (0 < z ∧ z ≤ 18446744073709551615)) :
    (ofLookup lookup).requeueSeconds = 10 := by
  have hwait : wait? lookup = none := by
    refine Option.eq_none_iff_forall_ne_some.2 fun n hn => ?_
    obtain ⟨hgives, hpos, hle⟩ := wait?_eq_some_iff.1 hn
    exact h n hgives ⟨by omega, by omega⟩
  rw [requeueSeconds_eq, hwait, Option.getD_none]

/-! ### The scope -/

def Asks (lookup : String → Option String) (ns : String) : Prop :=
  Lists lookup "WATCH_NAMESPACE" ns ∨
    (∀ other, ¬ Lists lookup "WATCH_NAMESPACE" other) ∧ Lists lookup "OLM_TARGET_NAMESPACE" ns

/-- What is asked for is watched, and the whole cluster only if nothing is asked for. -/
def KeepsScope (lookup : String → Option String) (c : Config) : Prop :=
  ∀ ns, c.watchNamespace = some ns ↔ Asks lookup ns

/-- A namespace is asked for behind a list that has commas and no entry. -/
def IsShadowed (lookup : String → Option String) : Prop :=
  (∃ v, lookup "WATCH_NAMESPACE" = some v ∧ ',' ∈ v.toList ∧
      ∀ c ∈ v.toList, c = ',' ∨ isBlank c = true) ∧
    ∃ ns, Lists lookup "OLM_TARGET_NAMESPACE" ns

/-- The other variable counts where the first one is unset or blank. -/
theorem watchNamespace_eq_some_iff : (ofLookup lookup).watchNamespace = some ns ↔
    Lists lookup "WATCH_NAMESPACE" ns ∨
      filled? lookup "WATCH_NAMESPACE" = none ∧ Lists lookup "OLM_TARGET_NAMESPACE" ns := by
  rw [ofLookup]
  cases h : filled? lookup "WATCH_NAMESPACE" with
  | none => simp [lists_iff, h]
  | some v => simp [lists_iff, h]

/-- A list without entries is not blank if it has a comma. -/
theorem IsShadowed.exists_filled (h : IsShadowed lookup) :
    ∃ v, filled? lookup "WATCH_NAMESPACE" = some v ∧
      ∀ ns, ¬ Lists lookup "WATCH_NAMESPACE" ns := by
  obtain ⟨⟨v, hv, hcomma, hall⟩, -⟩ := h
  refine ⟨v, filled?_eq_some_iff.2 ⟨hv, fun hblank => not_mem_of_allBlank hblank hcomma⟩, ?_⟩
  intro ns hlists
  obtain ⟨c, hc, hne, hblank⟩ := (exists_lists_iff hv).1 ⟨ns, hlists⟩
  simpa [hne, hblank] using hall c hc

theorem IsShadowed.watchNamespace_eq_none (h : IsShadowed lookup) :
    (ofLookup lookup).watchNamespace = none := by
  obtain ⟨v, hfilled, hnone⟩ := h.exists_filled
  refine Option.eq_none_iff_forall_ne_some.2 fun ns hns => ?_
  rcases watchNamespace_eq_some_iff.1 hns with hlists | ⟨hempty, -⟩
  · exact hnone ns hlists
  · rw [hfilled] at hempty
    cases hempty

theorem filled?_eq_none_of_not_isShadowed (h : ¬ IsShadowed lookup)
    (hnone : ∀ other, ¬ Lists lookup "WATCH_NAMESPACE" other)
    (hother : Lists lookup "OLM_TARGET_NAMESPACE" ns) :
    filled? lookup "WATCH_NAMESPACE" = none := by
  by_contra hfilled
  obtain ⟨v, hv⟩ := Option.ne_none_iff_exists'.1 hfilled
  obtain ⟨hvar, hblank⟩ := filled?_eq_some_iff.1 hv
  have hall : ∀ c ∈ v.toList, c = ',' ∨ isBlank c = true := by
    intro c hc
    by_contra hc'
    rw [not_or, Bool.not_eq_true] at hc'
    obtain ⟨other, hlists⟩ := (exists_lists_iff hvar).2 ⟨c, hc, hc'⟩
    exact hnone other hlists
  have hcomma : ',' ∈ v.toList := by
    by_contra hfree
    exact hblank fun c hc => (hall c hc).resolve_left fun he => hfree (he ▸ hc)
  exact h ⟨⟨v, hvar, hcomma, hall⟩, ns, hother⟩

theorem keepsScope_iff (lookup : String → Option String) :
    KeepsScope lookup (ofLookup lookup) ↔ ¬ IsShadowed lookup := by
  constructor
  · intro hkeeps hshadowed
    obtain ⟨ns, hns⟩ := hshadowed.2
    obtain ⟨v, -, hnone⟩ := hshadowed.exists_filled
    have hwatched := (hkeeps ns).2 (.inr ⟨hnone, hns⟩)
    rw [hshadowed.watchNamespace_eq_none] at hwatched
    cases hwatched
  · intro h ns
    rw [watchNamespace_eq_some_iff]
    refine or_congr_right (and_congr_left fun hother => ⟨fun hempty other => ?_, fun hnone => ?_⟩)
    · simp [lists_iff, hempty]
    · exact filled?_eq_none_of_not_isShadowed h hnone hother

/-- Every configuration watches what its variables ask for, and the whole cluster only if they ask
for nothing, exactly where no list without entries stands before a namespace; there it watches the
whole cluster.  What is watched is an entry without white space at its ends and without a comma.
The wait is positive; it is the number of seconds in its variable exactly if that is positive and
fits a word, and ten seconds if the variable gives no such number. -/
theorem scope_kept (lookup : String → Option String) :
    (KeepsScope lookup (ofLookup lookup) ↔ ¬ IsShadowed lookup) ∧
      (IsShadowed lookup → (ofLookup lookup).watchNamespace = none) ∧
      (∀ ns, (ofLookup lookup).watchNamespace = some ns → IsBare ns.toList ∧ ',' ∉ ns.toList) ∧
      0 < (ofLookup lookup).requeueSeconds ∧
      (∀ z, Gives lookup "REQUEUE_INTERVAL_SECS" z →
        (((ofLookup lookup).requeueSeconds : Int) = z ↔ 0 < z ∧ z ≤ 18446744073709551615)) ∧
      ((∀ z, Gives lookup "REQUEUE_INTERVAL_SECS" z → ¬ (0 < z ∧ z ≤ 18446744073709551615)) →
        (ofLookup lookup).requeueSeconds = 10) := by
  refine ⟨keepsScope_iff lookup, IsShadowed.watchNamespace_eq_none, fun ns hns => ?_,
    (requeueSeconds_bounds lookup).1, fun z => requeueSeconds_eq_iff, requeueSeconds_default⟩
  rcases watchNamespace_eq_some_iff.1 hns with h | ⟨-, h⟩
  · exact h.isBare
  · exact h.isBare

/-- The first of two namespaces behind an empty entry is watched, with a wait of seven seconds. -/
theorem scope_kept_listed :
    let lookup := Entries.get? [("OLM_TARGET_NAMESPACE", "post"),
      ("REQUEUE_INTERVAL_SECS", "\t+7\n"), ("WATCH_NAMESPACE", " ,\u2003mail , other")]
    (ofLookup lookup).watchNamespace = some "mail" ∧ (ofLookup lookup).requeueSeconds = 7 := by
  intro lookup
  have hlists : Lists lookup "WATCH_NAMESPACE" "mail" :=
    ⟨_, rfl, firstEntry?_eq_some_iff.1 (by decide)⟩
  have hclear : ¬ IsShadowed lookup := by
    intro h
    obtain ⟨-, -, hnone⟩ := h.exists_filled
    exact hnone "mail" hlists
  have hgives : Gives lookup "REQUEUE_INTERVAL_SECS" 7 :=
    gives_iff.2 ⟨"\t+7\n", by decide, .plus (.digit (by decide))⟩
  obtain ⟨hscope, -, -, -, hwait, -⟩ := scope_kept lookup
  have hwatched := (hscope.2 hclear "mail").2 (.inl hlists)
  have hseconds := (hwait 7 hgives).2 (by decide)
  exact ⟨hwatched, Int.ofNat.inj hseconds⟩

/-- A comma alone hides the namespace that the other variable lists. -/
theorem scope_lost :
    let lookup := Entries.get? [("OLM_TARGET_NAMESPACE", "mail"), ("WATCH_NAMESPACE", ",")]
    Asks lookup "mail" ∧ (ofLookup lookup).watchNamespace = none ∧
      ¬ KeepsScope lookup (ofLookup lookup) := by
  intro lookup
  have hlists : Lists lookup "OLM_TARGET_NAMESPACE" "mail" :=
    ⟨"mail", rfl, firstEntry?_eq_some_iff.1 (by decide)⟩
  have hshadowed : IsShadowed lookup := ⟨⟨",", rfl, by simp, by simp⟩, "mail", hlists⟩
  obtain ⟨-, -, hnone⟩ := hshadowed.exists_filled
  exact ⟨.inr ⟨hnone, hlists⟩, hshadowed.watchNamespace_eq_none,
    fun h => (keepsScope_iff lookup).1 h hshadowed⟩

end Config
end MailCapture
