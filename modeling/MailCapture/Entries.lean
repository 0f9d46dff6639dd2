/-!
Finite maps, kept as lists of pairs in ascending order of their keys.
`put` keeps the order, and the last value written for a key wins.
-/
namespace MailCapture

abbrev Entries (α : Type) := List (String × α)

namespace Entries
variable {κ α β : Type} [DecidableEq κ]

def get? : List (κ × α) → κ → Option α
  | [], _ => none
  | (k, v) :: rest, key => if k = key then some v else get? rest key

def has (m : List (κ × α)) (key : κ) : Bool := (get? m key).isSome

/-- Write a value, over an older one of the same key or at the key's place in the order. -/
def put [LT κ] [DecidableLT κ] : List (κ × α) → κ → α → List (κ × α)
  | [], key, value => [(key, value)]
  | (k, v) :: rest, key, value =>
    if k = key then (key, value) :: rest
    else if key < k then (key, value) :: (k, v) :: rest
    else (k, v) :: put rest key value

def remove (m : List (κ × α)) (key : κ) : List (κ × α) := m.filter (fun e => e.1 ≠ key)

/-- Write pairs one after the other; of two with one key the later wins. -/
def ofPairs [LT κ] [DecidableLT κ] (pairs : List (κ × α)) : List (κ × α) :=
  pairs.foldl (fun m e => put m e.1 e.2) []

def update (f : α → α) (m : List (κ × α)) (key : κ) : List (κ × α) :=
  m.map (fun e => if e.1 = key then (e.1, f e.2) else e)

def Ascending [LT κ] (m : List (κ × α)) : Prop := m.Pairwise (fun a b => a.1 < b.1)

theorem get?_put_self [LT κ] [DecidableLT κ] (m : List (κ × α)) (key : κ) (value : α) :
    get? (put m key value) key = some value := by
  induction m with
  | nil => simp [put, get?]
  | cons e rest ih =>
    obtain ⟨k, v⟩ := e
    by_cases h : k = key
    · simp [put, get?, h]
    · by_cases h' : key < k
      · simp [put, get?, h, h']
      · simp [put, get?, h, h', ih]

theorem get?_put_of_ne [LT κ] [DecidableLT κ] (m : List (κ × α)) {key other : κ} (value : α)
    (h : other ≠ key) :
    get? (put m key value) other = get? m other := by
  induction m with
  | nil => simp [put, get?, Ne.symm h]
  | cons e rest ih =>
    obtain ⟨k, v⟩ := e
    by_cases hk : k = key
    · subst hk
      simp [put, get?, Ne.symm h]
    · by_cases h' : key < k
      · simp [put, get?, hk, h', Ne.symm h]
      · simp [put, get?, hk, h', ih]

theorem get?_remove_self (m : List (κ × α)) (key : κ) : get? (remove m key) key = none := by
  induction m with
  | nil => rfl
  | cons e rest ih =>
    obtain ⟨k, v⟩ := e
    by_cases h : k = key
    · subst h
      simpa [remove] using ih
    · simpa [remove, h, get?] using ih

theorem get?_remove_of_ne (m : List (κ × α)) {key other : κ} (h : other ≠ key) :
    get? (remove m key) other = get? m other := by
  induction m with
  | nil => rfl
  | cons e rest ih =>
    obtain ⟨k, v⟩ := e
    by_cases hk : k = key
    · subst hk
      have hne : ¬ k = other := fun e => h e.symm
      simpa [remove, get?, hne] using ih
    · by_cases ho : k = other
      · subst ho
        simp [remove, get?, hk]
      · simpa [remove, hk, get?, ho] using ih

theorem get?_update (f : α → α) (m : List (κ × α)) (key k : κ) :
    get? (update f m key) k = if k = key then (get? m k).map f else get? m k := by
  induction m with
  | nil => simp [update, get?]
  | cons e rest ih =>
    obtain ⟨l, v⟩ := e
    rw [update] at ih ⊢
    rw [List.map_cons]
    by_cases hl : l = k
    · subst hl
      by_cases hk : l = key <;> simp [get?, hk]
    · by_cases hk : l = key
      · subst hk
        simp only [if_true, get?, if_neg hl, ih]
      · simp only [if_neg hk, get?, if_neg hl, ih]

theorem get?_put [LT κ] [DecidableLT κ] (m : List (κ × α)) (key : κ) (value : α) (k : κ) :
    get? (put m key value) k = if k = key then some value else get? m k := by
  by_cases h : k = key
  · rw [if_pos h, h, get?_put_self]
  · rw [if_neg h, get?_put_of_ne m value h]

theorem get?_remove (m : List (κ × α)) (key k : κ) :
    get? (remove m key) k = if k = key then none else get? m k := by
  by_cases h : k = key
  · rw [if_pos h, h, get?_remove_self]
  · rw [if_neg h, get?_remove_of_ne m h]

/-- A choice of pairs that leaves out a key does not see what is written for it. -/
theorem filter_put [LT κ] [DecidableLT κ] {p : κ × α → Bool} {key : κ}
    (h : ∀ v, p (key, v) = false) (m : List (κ × α)) (value : α) :
    (put m key value).filter p = m.filter p := by
  induction m with
  | nil => simp [put, h]
  | cons e rest ih =>
    obtain ⟨k, v⟩ := e
    unfold put
    split
    · rename_i hk
      subst hk
      simp [h]
    · split
      · simp [h]
      · simp [List.filter_cons, ih]

theorem filter_remove {p : κ × α → Bool} {key : κ} (h : ∀ v, p (key, v) = false)
    (m : List (κ × α)) : (remove m key).filter p = m.filter p := by
  rw [remove, List.filter_filter]
  refine List.filter_congr fun e _ => ?_
  by_cases hk : e.1 = key
  · obtain ⟨k, v⟩ := e
    subst hk
    simp [h]
  · simp [hk]

theorem mem_put [LT κ] [DecidableLT κ] {m : List (κ × α)} {key : κ} {value : α} {e : κ × α}
    (h : e ∈ put m key value) : e = (key, value) ∨ e ∈ m := by
  induction m with
  | nil => exact Or.inl (List.mem_singleton.mp h)
  | cons f rest ih =>
    unfold put at h
    split at h
    · cases List.mem_cons.mp h with
      | inl he => exact Or.inl he
      | inr hr => exact Or.inr (List.mem_cons_of_mem _ hr)
    · split at h
      · exact List.mem_cons.mp h
      · cases List.mem_cons.mp h with
        | inl he => exact Or.inr (he ▸ List.mem_cons_self)
        | inr hr => exact (ih hr).imp id (List.mem_cons_of_mem _)

/-- Writing keeps the order of the keys, given that it is a strict total one. -/
theorem ascending_put [LT κ] [DecidableLT κ] (trans : ∀ {a b c : κ}, a < b → b < c → a < c)
    (total : ∀ {a b : κ}, ¬ a = b → ¬ b < a → a < b) {m : List (κ × α)} (h : Ascending m)
    (key : κ) (value : α) : Ascending (put m key value) := by
  induction m with
  | nil => exact List.pairwise_singleton _ _
  | cons f rest ih =>
    obtain ⟨below, tail⟩ := List.pairwise_cons.mp h
    unfold put
    split
    · rename_i hk
      exact List.pairwise_cons.mpr ⟨fun e he => hk ▸ below e he, tail⟩
    · rename_i hne
      split
      · rename_i hlt
        refine List.pairwise_cons.mpr ⟨fun e he => ?_, h⟩
        cases List.mem_cons.mp he with
        | inl hf => exact hf ▸ hlt
        | inr hr => exact trans hlt (below e hr)
      · rename_i hlt
        refine List.pairwise_cons.mpr ⟨fun e he => ?_, ih tail⟩
        cases mem_put he with
        | inl hf => exact hf ▸ total hne hlt
        | inr hr => exact below e hr

end Entries
end MailCapture
