import MailCapture.Proofs.Distinct
/-!
What holds of the names of every object inside a value: that none stands twice, or that they are in
ascending order.
-/
namespace MailCapture

/-- A property of the names of an object that all names in ascending order have, and that stays when
some are left out. -/
class Naming (N : List String → Prop) : Prop where
  of_ascending : ∀ {names}, names.Pairwise (· < ·) → N names
  of_sublist : ∀ {names more}, names.Sublist more → N more → N names

instance : Naming List.Nodup where
  of_ascending h := List.Pairwise.imp (S := (· ≠ ·))
    (fun hlt heq => String.lt_irrefl _ (heq ▸ hlt)) h
  of_sublist h := List.Nodup.sublist h

instance : Naming (List.Pairwise (· < ·)) where
  of_ascending := id
  of_sublist h := List.Pairwise.sublist h

def inSequence : List String → Bool
  | a :: b :: rest => decide (a < b) && inSequence (b :: rest)
  | _ => true

theorem pairwise_of_inSequence {names : List String} (h : inSequence names = true) :
    names.Pairwise (· < ·) := by
  fun_induction inSequence names with
  | case1 a b rest ih =>
    rw [Bool.and_eq_true, decide_eq_true_iff] at h
    have hrest := ih h.2
    refine List.pairwise_cons.2 ⟨fun c hc => ?_, hrest⟩
    cases List.mem_cons.1 hc with
    | inl heq => exact heq ▸ h.1
    | inr hmem => exact String.lt_trans h.1 ((List.pairwise_cons.1 hrest).1 c hmem)
  | case2 names hshort =>
    match names, hshort with
    | [], _ => exact List.Pairwise.nil
    | [a], _ => exact List.pairwise_singleton _ a
    | a :: b :: rest, hshort => exact absurd rfl (hshort a b rest)

variable {N : List String → Prop}

theorem Entries.Ascending.named [Naming N] {α : Type} {m : Entries α} (h : Ascending m) :
    N (m.map Prod.fst) := Naming.of_ascending (List.pairwise_map.2 h)

namespace Json

mutual

def Named (N : List String → Prop) : Json → Prop
  | .arr items => ItemsNamed N items
  | .obj fields => N (fields.map Prod.fst) ∧ FieldsNamed N fields
  | _ => True

def ItemsNamed (N : List String → Prop) : List Json → Prop
  | [] => True
  | v :: rest => v.Named N ∧ ItemsNamed N rest

def FieldsNamed (N : List String → Prop) : List (String × Json) → Prop
  | [] => True
  | (_, v) :: rest => v.Named N ∧ FieldsNamed N rest

end

theorem itemsNamed_iff (items : List Json) : ItemsNamed N items ↔ ∀ v ∈ items, v.Named N := by
  induction items with
  | nil => simp [ItemsNamed]
  | cons v rest ih => rw [ItemsNamed, ih, List.forall_mem_cons]

theorem fieldsNamed_iff (fields : List (String × Json)) :
    FieldsNamed N fields ↔ ∀ e ∈ fields, e.2.Named N := by
  induction fields with
  | nil => simp [FieldsNamed]
  | cons e rest ih =>
    obtain ⟨k, v⟩ := e
    rw [FieldsNamed, ih, List.forall_mem_cons]

theorem named_arr (items : List Json) : (arr items).Named N ↔ ∀ v ∈ items, v.Named N := by
  rw [Named, itemsNamed_iff]

theorem named_obj (fields : List (String × Json)) : (obj fields).Named N ↔
    N (fields.map Prod.fst) ∧ ∀ e ∈ fields, e.2.Named N := by
  rw [Named, fieldsNamed_iff]

@[simp] theorem named_str (s : String) : (str s).Named N := by simp [Named]

@[simp] theorem named_bool (b : Bool) : (bool b).Named N := by simp [Named]

@[simp] theorem named_int (n : Int) : (int n).Named N := by simp [Named]

@[simp] theorem named_empty [Naming N] : empty.Named N :=
  (named_obj []).2 ⟨Naming.of_ascending List.Pairwise.nil, by simp⟩

mutual

theorem named_nodup_iff : (v : Json) → (v.Named List.Nodup ↔ v.Distinct)
  | .arr items => by rw [Named, Distinct, itemsNamed_nodup_iff items]
  | .obj fields => by rw [Named, Distinct, fieldsNamed_nodup_iff fields, Entries.Distinct]
  | .null | .bool _ | .int _ | .double _ | .str _ => by simp [Named, Distinct]

theorem itemsNamed_nodup_iff : (items : List Json) →
    (ItemsNamed List.Nodup items ↔ ItemsDistinct items)
  | [] => by simp [ItemsNamed, ItemsDistinct]
  | v :: rest => by rw [ItemsNamed, ItemsDistinct, named_nodup_iff v, itemsNamed_nodup_iff rest]

theorem fieldsNamed_nodup_iff : (fields : List (String × Json)) →
    (FieldsNamed List.Nodup fields ↔ FieldsDistinct fields)
  | [] => by simp [FieldsNamed, FieldsDistinct]
  | (_, v) :: rest => by
    rw [FieldsNamed, FieldsDistinct, named_nodup_iff v, fieldsNamed_nodup_iff rest]

end

theorem distinct_arr (items : List Json) : (arr items).Distinct ↔ ∀ v ∈ items, v.Distinct := by
  simp only [← named_nodup_iff, named_arr]

theorem distinct_obj (fields : List (String × Json)) : (obj fields).Distinct ↔
    Entries.Distinct fields ∧ ∀ e ∈ fields, e.2.Distinct := by
  simp only [← named_nodup_iff, named_obj, Entries.Distinct]

def Ordered (v : Json) : Prop := v.Named (List.Pairwise (· < ·))

end Json
end MailCapture
