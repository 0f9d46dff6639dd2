import MailCapture.Proofs.Comparison
import MailCapture.Proofs.Distinct
import MailCapture.Proofs.Reparse
/-!
What is read back from the text of a value names nothing that the value does not name at that place.
So a value whose own text is in the last-applied annotation never seems to have dropped a field.
-/
namespace MailCapture

namespace Entries
variable {κ α : Type} [DecidableEq κ]

theorem mem_foldl_put [LT κ] [DecidableLT κ] {pairs m : List (κ × α)} {e : κ × α}
    (h : e ∈ pairs.foldl (fun m e => put m e.1 e.2) m) : e ∈ m ∨ e ∈ pairs := by
  induction pairs generalizing m with
  | nil => exact Or.inl h
  | cons f rest ih =>
    cases ih h with
    | inr hr => exact Or.inr (List.mem_cons_of_mem f hr)
    | inl hm =>
      cases mem_put hm with
      | inl hf => exact Or.inr (hf ▸ List.mem_cons_self)
      | inr hm' => exact Or.inl hm'

theorem mem_ofPairs [LT κ] [DecidableLT κ] {pairs : List (κ × α)} {e : κ × α}
    (h : e ∈ ofPairs pairs) : e ∈ pairs :=
  (mem_foldl_put h).resolve_left (by simp)

end Entries

namespace Json

mutual

def Covers : Json → Json → Prop
  | .obj d, .obj l => (∀ e ∈ l, Entries.has d e.1 = true) ∧ FieldsCover d l
  | .arr d, .arr l => ItemsCover d l
  | _, _ => True

def FieldsCover : List (String × Json) → Entries Json → Prop
  | [], _ => True
  | (key, v) :: rest, l =>
    (∀ x, Entries.get? l key = some x → v.Covers x) ∧ FieldsCover rest l

def ItemsCover : List Json → List Json → Prop
  | v :: vs, x :: xs => v.Covers x ∧ ItemsCover vs xs
  | _, _ => True

end

theorem fieldsCover_iff (d : List (String × Json)) (l : Entries Json) : FieldsCover d l ↔
    ∀ e ∈ d, ∀ x, Entries.get? l e.1 = some x → e.2.Covers x := by
  induction d with
  | nil => simp [FieldsCover]
  | cons e rest ih =>
    obtain ⟨key, v⟩ := e
    rw [FieldsCover, ih, List.forall_mem_cons]

theorem covers_obj (d : List (String × Json)) (l : Entries Json) : (obj d).Covers (.obj l) ↔
    (∀ e ∈ l, Entries.has d e.1 = true) ∧
      ∀ e ∈ d, ∀ x, Entries.get? l e.1 = some x → e.2.Covers x := by
  rw [Covers, fieldsCover_iff]

end Json

namespace Document
open Json

mutual

/-- A value covers what is read back from its text. -/
theorem covers_of_spelled : (v : Json) → v.Distinct → {depth : Nat} → {doc : Document} →
    spelled? depth v = some doc → {l : Json} → doc.value? = some l → v.Covers l
  | .null, _, _, _, _, _, _ => trivial
  | .bool _, _, _, _, _, _, _ => trivial
  | .int _, _, _, _, _, _, _ => trivial
  | .double _, _, _, _, _, _, _ => trivial
  | .str _, _, _, _, _, _, _ => trivial
  | .arr items, hd, _, _, h, l, hv => by
    rw [spelled?, Option.map_eq_some_iff] at h
    obtain ⟨ds, hds, rfl⟩ := h
    split at hv
    · rw [value?, Option.map_eq_some_iff] at hv
      obtain ⟨xs, hxs, rfl⟩ := hv
      rw [Json.Distinct] at hd
      rw [Covers]
      exact itemsCover_of_spelled items hd hds hxs
    · rw [value?] at hv
      cases hv
  | .obj fields, hd, _, _, h, l, hv => by
    rw [spelled?, Option.map_eq_some_iff] at h
    obtain ⟨ms, hms, rfl⟩ := h
    split at hv
    · rw [value?, Option.map_eq_some_iff] at hv
      obtain ⟨es, hes, rfl⟩ := hv
      rw [Json.Distinct] at hd
      have hmem (e : String × Json) (he : e ∈ Entries.ofPairs es) :=
        fieldsCovered_of_spelled fields hd.2 hms hes e (Entries.mem_ofPairs he)
      rw [covers_obj]
      constructor
      · intro e he
        obtain ⟨v, hv, _⟩ := hmem e he
        exact Entries.has_of_mem hv
      · intro e he x hx
        obtain ⟨v, hv, hc⟩ := hmem (e.1, x) (Entries.mem_of_get? hx)
        exact Entries.eq_of_mem hd.1 hv he ▸ hc
    · rw [value?] at hv
      cases hv

theorem itemsCover_of_spelled : (items : List Json) → ItemsDistinct items → {depth : Nat} →
    {ds : List Document} → spelledItems? depth items = some ds → {xs : List Json} →
    itemValues? ds = some xs → ItemsCover items xs
  | [], _, _, _, _, _, _ => by simp [ItemsCover]
  | v :: rest, hd, depth, ds, h, xs, hx => by
    rw [ItemsDistinct] at hd
    simp only [spelledItems?, Option.bind_eq_some_iff, Option.map_eq_some_iff] at h
    obtain ⟨doc, hdoc, docs, hdocs, rfl⟩ := h
    simp only [itemValues?, Option.pure_def, Option.bind_eq_bind, Option.bind_eq_some_iff] at hx
    obtain ⟨x, hx, xs, hxs, hcons⟩ := hx
    cases hcons
    rw [ItemsCover]
    exact ⟨covers_of_spelled v hd.1 hdoc hx, itemsCover_of_spelled rest hd.2 hdocs hxs⟩

theorem fieldsCovered_of_spelled : (fields : List (String × Json)) → FieldsDistinct fields →
    {depth : Nat} → {ms : Members} → spelledFields? depth fields = some ms →
    {es : List (String × Json)} → memberValues? ms = some es →
    ∀ e ∈ es, ∃ v, (e.1, v) ∈ fields ∧ v.Covers e.2
  | [], _, _, _, h, _, hx => by
    rw [spelledFields?] at h
    cases h
    rw [memberValues?] at hx
    cases hx
    simp
  | (key, v) :: rest, hd, depth, ms, h, es, hx => by
    rw [FieldsDistinct] at hd
    simp only [spelledFields?, Option.bind_eq_some_iff, Option.map_eq_some_iff] at h
    obtain ⟨doc, hdoc, docs, hdocs, rfl⟩ := h
    simp only [memberValues?, Option.pure_def, Option.bind_eq_bind, Option.bind_eq_some_iff] at hx
    obtain ⟨x, hx, xs, hxs, hcons⟩ := hx
    cases hcons
    intro e he
    cases List.mem_cons.1 he with
    | inl hhead =>
      subst hhead
      exact ⟨v, List.mem_cons_self, covers_of_spelled v hd.1 hdoc hx⟩
    | inr htail =>
      obtain ⟨u, hu, hc⟩ := fieldsCovered_of_spelled rest hd.2 hdocs hxs e htail
      exact ⟨u, List.mem_cons_of_mem _ hu, hc⟩

end

end Document

/-- A value without repeated names covers what its own text is read as. -/
theorem Json.covers_of_parse?_render {v l : Json} (hd : v.Distinct)
    (h : Json.parse? v.render = some l) : v.Covers l := by
  rw [Json.parse?, Document.parse?_render] at h
  obtain ⟨doc, hdoc, hl⟩ := Option.bind_eq_some_iff.1 h
  exact Document.covers_of_spelled v hd hdoc hl

end MailCapture
