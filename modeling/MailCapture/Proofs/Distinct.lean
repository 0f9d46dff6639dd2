import MailCapture.Json
/-!
Values in which no object has a name twice.
-/
namespace MailCapture

namespace Entries
variable {κ α : Type}

def Distinct (m : List (κ × α)) : Prop := (m.map Prod.fst).Nodup

theorem distinct_cons {e : κ × α} {m : List (κ × α)} :
    Distinct (e :: m) ↔ (∀ f ∈ m, f.1 ≠ e.1) ∧ Distinct m := by
  unfold Distinct
  rw [List.map_cons, List.nodup_cons]
  refine and_congr ⟨fun h f hf hfe => h (hfe ▸ List.mem_map_of_mem hf), fun h hm => ?_⟩ Iff.rfl
  obtain ⟨f, hf, hfe⟩ := List.mem_map.1 hm
  exact h f hf hfe

theorem distinct_mapValues {β : Type} (f : κ → α → β) {m : List (κ × α)} (h : Distinct m) :
    Distinct (m.map (fun e => (e.1, f e.1 e.2))) := by
  unfold Distinct at h ⊢
  rwa [List.map_map]

variable [DecidableEq κ]

theorem get?_of_mem {m : List (κ × α)} (hd : Distinct m) {key : κ} {v : α}
    (h : (key, v) ∈ m) : get? m key = some v := by
  induction m with
  | nil => cases h
  | cons e rest ih =>
    obtain ⟨k, a⟩ := e
    obtain ⟨hhead, htail⟩ := distinct_cons.1 hd
    cases List.mem_cons.1 h with
    | inl he =>
      cases he
      exact if_pos rfl
    | inr hr => exact (if_neg (hhead _ hr).symm).trans (ih htail hr)

theorem eq_of_mem {m : List (κ × α)} (hd : Distinct m) {key : κ} {v w : α} (hv : (key, v) ∈ m)
    (hw : (key, w) ∈ m) : v = w :=
  Option.some.inj ((get?_of_mem hd hv).symm.trans (get?_of_mem hd hw))

theorem Ascending.distinct {m : Entries α} (h : Ascending m) : Distinct m := by
  unfold Distinct List.Nodup
  rw [List.pairwise_map]
  refine List.Pairwise.imp (fun hlt heq => ?_) h
  rw [heq] at hlt
  exact String.lt_irrefl _ hlt

theorem names_update (f : α → α) (m : List (κ × α)) (key : κ) :
    (update f m key).map Prod.fst = m.map Prod.fst := by
  rw [update, List.map_map]
  refine List.map_congr_left fun e _ => ?_
  rw [Function.comp_apply]
  split <;> rfl

theorem distinct_update (f : α → α) {m : List (κ × α)} (h : Distinct m) (key : κ) :
    Distinct (update f m key) := by
  unfold Distinct at h ⊢
  rwa [names_update]

/-- A new key keeps the keys apart. -/
theorem distinct_put [LT κ] [DecidableLT κ] {m : List (κ × α)} (h : Distinct m) {key : κ}
    (hkey : get? m key = none) (value : α) : Distinct (put m key value) := by
  induction m with
  | nil => exact List.pairwise_singleton _ _
  | cons e rest ih =>
    obtain ⟨k, v⟩ := e
    obtain ⟨hhead, htail⟩ := distinct_cons.1 h
    have hne : k ≠ key := by
      rintro rfl
      simp [get?] at hkey
    have hrest : get? rest key = none := by simpa [get?, hne] using hkey
    unfold put
    rw [if_neg hne]
    split
    · refine distinct_cons.2 ⟨fun f hf he => ?_, h⟩
      have hfound : get? ((k, v) :: rest) f.1 = some f.2 := get?_of_mem h hf
      rw [he, hkey] at hfound
      cases hfound
    · refine distinct_cons.2 ⟨fun f hf => ?_, ih htail hrest⟩
      cases mem_put hf with
      | inl he => exact he ▸ Ne.symm hne
      | inr hr => exact hhead f hr

end Entries

namespace Json

mutual

def Distinct : Json → Prop
  | .arr items => ItemsDistinct items
  | .obj fields => Entries.Distinct fields ∧ FieldsDistinct fields
  | _ => True

def ItemsDistinct : List Json → Prop
  | [] => True
  | v :: rest => v.Distinct ∧ ItemsDistinct rest

def FieldsDistinct : List (String × Json) → Prop
  | [] => True
  | (_, v) :: rest => v.Distinct ∧ FieldsDistinct rest

end

end Json
end MailCapture
