import MailCapture.Proofs.Roundtrip
import MailCapture.Proofs.Written
/-!
Values without the fields that are zero, and values with their fields in order: what they look up.
-/
namespace MailCapture

namespace Entries
variable {κ α : Type} [DecidableEq κ]

theorem get?_foldl_put [LT κ] [DecidableLT κ] {pairs : List (κ × α)} (h : Distinct pairs)
    (m : List (κ × α)) (key : κ) :
    get? (pairs.foldl (fun m e => put m e.1 e.2) m) key = (get? pairs key).or (get? m key) := by
  induction pairs generalizing m with
  | nil => rfl
  | cons e rest ih =>
    obtain ⟨k, v⟩ := e
    obtain ⟨hhead, htail⟩ := distinct_cons.1 h
    rw [List.foldl_cons, ih htail, get?_put]
    by_cases hk : key = k
    · subst hk
      rw [get?_eq_none_of_forall hhead]
      simp [get?]
    · simp [get?, hk, Ne.symm hk]

theorem get?_ofPairs [LT κ] [DecidableLT κ] {pairs : List (κ × α)} (h : Distinct pairs)
    (key : κ) : get? (ofPairs pairs) key = get? pairs key := by
  rw [ofPairs, get?_foldl_put h]
  simp [get?]

theorem Ascending.ofPairs_eq {m : Entries α} (h : Ascending m) : ofPairs m = m :=
  Ascending.ext (ascending_ofPairs m) h fun key => get?_ofPairs h.distinct key

theorem get?_mapValues {β : Type} (f : κ → α → β) (m : List (κ × α)) (key : κ) :
    get? (m.map (fun e => (e.1, f e.1 e.2))) key = (get? m key).map (f key) := by
  induction m with
  | nil => rfl
  | cons e rest ih =>
    obtain ⟨k, v⟩ := e
    by_cases hk : k = key
    · subst hk
      simp [get?]
    · simp [get?, hk, ih]

end Entries

namespace Json

/-! ### Values without zero fields -/

mutual

/-- A value without the fields that are zero, or become so when those inside them are left out, and
with the rest in order. -/
def condensed : Json → Json
  | .arr items => .arr (condensedItems items)
  | .obj fields => .obj (Entries.ofPairs (condensedFields fields))
  | v => v

def condensedItems : List Json → List Json
  | [] => []
  | v :: rest => v.condensed :: condensedItems rest

def condensedFields : List (String × Json) → List (String × Json)
  | [] => []
  | (key, v) :: rest =>
    if v.condensed.isZero then condensedFields rest
    else (key, v.condensed) :: condensedFields rest

end

def remnant? (v : Json) : Option Json := if v.condensed.isZero then none else some v.condensed

theorem names_condensedFields (fields : List (String × Json)) :
    ((condensedFields fields).map Prod.fst).Sublist (fields.map Prod.fst) := by
  induction fields with
  | nil => exact List.Sublist.refl _
  | cons e rest ih =>
    obtain ⟨key, v⟩ := e
    rw [condensedFields]
    split
    · exact ih.cons key
    · exact ih.cons_cons key

theorem get?_condensedFields {fields : List (String × Json)} (h : Entries.Distinct fields)
    (key : String) :
    Entries.get? (condensedFields fields) key = (Entries.get? fields key).bind remnant? := by
  induction fields with
  | nil => rfl
  | cons e rest ih =>
    obtain ⟨k, v⟩ := e
    obtain ⟨hhead, htail⟩ := Entries.distinct_cons.1 h
    have hrest := ih htail
    rw [condensedFields]
    by_cases hk : k = key
    · subst hk
      rw [Entries.get?_eq_none_of_forall hhead] at hrest
      cases hz : v.condensed.isZero <;> simp [Entries.get?, remnant?, hz, hrest]
    · cases hz : v.condensed.isZero <;> simp [Entries.get?, hk, hrest]

/-- Objects with the same remnants of fields are the same without zero fields. -/
theorem condensed_obj_ext {a b : Entries Json} (ha : Entries.Distinct a) (hb : Entries.Distinct b)
    (h : ∀ key, (Entries.get? a key).bind remnant? = (Entries.get? b key).bind remnant?) :
    (obj a).condensed = (obj b).condensed := by
  rw [condensed, condensed]
  congr 1
  refine Entries.Ascending.ext (Entries.ascending_ofPairs _) (Entries.ascending_ofPairs _) ?_
  intro key
  rw [Entries.get?_ofPairs (ha.sublist (names_condensedFields a)),
    Entries.get?_ofPairs (hb.sublist (names_condensedFields b)), get?_condensedFields ha,
    get?_condensedFields hb, h]

theorem condensedItems_eq (items : List Json) : condensedItems items = items.map condensed := by
  induction items with
  | nil => rfl
  | cons v rest ih => rw [condensedItems, ih, List.map_cons]

/-! ### Values in order -/

theorem fieldsInOrder_eq (fields : List (String × Json)) :
    fieldsInOrder fields = fields.map (fun e => (e.1, e.2.inOrder)) := by
  induction fields with
  | nil => rfl
  | cons e rest ih => rw [fieldsInOrder, ih, List.map_cons]

theorem itemsInOrder_eq (items : List Json) : itemsInOrder items = items.map inOrder := by
  induction items with
  | nil => rfl
  | cons v rest ih => rw [itemsInOrder, ih, List.map_cons]

/-- The fields of an object in order are its fields in order. -/
theorem lastField?_inOrder {fields : List (String × Json)} (h : Entries.Distinct fields)
    (key : String) :
    lastField? (some (obj fields).inOrder) key = (Entries.get? fields key).map inOrder := by
  show Entries.get? (Entries.ofPairs (fieldsInOrder fields)) key = _
  rw [fieldsInOrder_eq, Entries.get?_ofPairs (Entries.distinct_mapValues (fun _ => inOrder) h),
    Entries.get?_mapValues (fun _ => inOrder)]

theorem lastItem?_inOrder (items : List Json) (i : Nat) :
    lastItem? (some (arr items).inOrder) i = items[i]?.map inOrder := by
  show (itemsInOrder items)[i]? = _
  rw [itemsInOrder_eq, List.getElem?_map]

mutual

theorem inOrder_self : (v : Json) → v.Ordered → v.inOrder = v
  | .arr items, h => by
    rw [Ordered, Named] at h
    rw [inOrder, itemsInOrder_self items h]
  | .obj fields, h => by
    rw [Ordered, Named, List.pairwise_map] at h
    rw [inOrder, fieldsInOrder_self fields h.2, Entries.Ascending.ofPairs_eq h.1]
  | .null, _ | .bool _, _ | .int _, _ | .double _, _ | .str _, _ => rfl

theorem itemsInOrder_self : (items : List Json) → ItemsNamed (List.Pairwise (· < ·)) items →
    itemsInOrder items = items
  | [], _ => rfl
  | v :: rest, h => by
    rw [itemsInOrder, inOrder_self v h.1, itemsInOrder_self rest h.2]

theorem fieldsInOrder_self : (fields : List (String × Json)) →
    FieldsNamed (List.Pairwise (· < ·)) fields → fieldsInOrder fields = fields
  | [], _ => rfl
  | (_, v) :: rest, h => by
    rw [fieldsInOrder, inOrder_self v h.1, fieldsInOrder_self rest h.2]

end

end Json
end MailCapture
