import MailCapture.Proofs.Condensed
import MailCapture.Proofs.Hosted
/-!
What a server makes of a written value, and what is left of it when nothing has drifted.

A server adds fields of its own and drops empty ones.  When a stored value shows no drift against a
desired one, every field that was applied before and is not desired any more is gone.  So the stored
value is the desired one with the fields of the server, whatever was written before, but for fields
that are zero: those a server may leave out.
-/
namespace MailCapture

/-! ### What a server stores -/

inductive Json.Step where
  | field (name : String)
  | item
  deriving DecidableEq, Repr

/-- The fields that a server adds to the objects at each place of what it stores.  A place is given
by the steps that lead to it. -/
abbrev Defaults := List Json.Step → Entries Json

def Defaults.under (defaults : Defaults) (step : Json.Step) : Defaults :=
  fun place => defaults (step :: place)

namespace Json

def withDefaults (added fields : Entries Json) : Entries Json :=
  added.foldl (fun fields e => withDefault e.1 e.2 fields) fields

mutual

def completed (defaults : Defaults) : Json → Json
  | .arr items => .arr (completedItems (defaults.under .item) items)
  | .obj fields => .obj (withDefaults (defaults []) (completedFields defaults fields))
  | v => v

def completedItems (defaults : Defaults) : List Json → List Json
  | [] => []
  | v :: rest => v.completed defaults :: completedItems defaults rest

def completedFields (defaults : Defaults) : List (String × Json) → List (String × Json)
  | [] => []
  | (key, v) :: rest =>
    (key, v.completed (defaults.under (.field key))) :: completedFields defaults rest

end

mutual

def Lacks (defaults : Defaults) : Json → Prop
  | .arr items => ItemsLack (defaults.under .item) items
  | .obj fields => (∀ e ∈ defaults [], Entries.get? fields e.1 = none) ∧
      (fields = [] → defaults [] = []) ∧ FieldsLack defaults fields
  | _ => True

def ItemsLack (defaults : Defaults) : List Json → Prop
  | [] => True
  | v :: rest => v.Lacks defaults ∧ ItemsLack defaults rest

def FieldsLack (defaults : Defaults) : List (String × Json) → Prop
  | [] => True
  | (key, v) :: rest => v.Lacks (defaults.under (.field key)) ∧ FieldsLack defaults rest

end

theorem itemsLack_iff (defaults : Defaults) (items : List Json) :
    ItemsLack defaults items ↔ ∀ v ∈ items, v.Lacks defaults := by
  induction items with
  | nil => simp [ItemsLack]
  | cons v rest ih => rw [ItemsLack, ih, List.forall_mem_cons]

theorem fieldsLack_iff (defaults : Defaults) (fields : List (String × Json)) :
    FieldsLack defaults fields ↔ ∀ e ∈ fields, e.2.Lacks (defaults.under (.field e.1)) := by
  induction fields with
  | nil => simp [FieldsLack]
  | cons e rest ih => rw [FieldsLack, ih, List.forall_mem_cons]

theorem get?_withDefault (key : String) (value : Json) (fields : Entries Json) (k : String) :
    Entries.get? (withDefault key value fields) k =
      (Entries.get? fields k).or (if k = key then some value else none) := by
  unfold withDefault Entries.has
  cases hf : Entries.get? fields key with
  | some v =>
    by_cases hk : k = key
    · subst hk
      simp [hf]
    · simp [hk]
  | none =>
    rw [Option.isSome_none, if_neg (by simp), Entries.get?_put]
    by_cases hk : k = key
    · subst hk
      simp [hf]
    · simp [hk]

theorem get?_withDefaults (added fields : Entries Json) (key : String) :
    Entries.get? (withDefaults added fields) key =
      (Entries.get? fields key).or (Entries.get? added key) := by
  unfold withDefaults
  induction added generalizing fields with
  | nil => simp [Entries.get?]
  | cons e rest ih =>
    obtain ⟨k, v⟩ := e
    rw [List.foldl_cons, ih, get?_withDefault, Option.or_assoc]
    congr 1
    by_cases hk : key = k
    · subst hk
      simp [Entries.get?]
    · simp [Entries.get?, hk, Ne.symm hk]

theorem completedFields_eq (defaults : Defaults) (fields : List (String × Json)) :
    completedFields defaults fields =
      fields.map (fun e => (e.1, e.2.completed (defaults.under (.field e.1)))) := by
  induction fields with
  | nil => rfl
  | cons e rest ih => rw [completedFields, ih, List.map_cons]

theorem completedItems_eq (defaults : Defaults) (items : List Json) :
    completedItems defaults items = items.map (completed defaults) := by
  induction items with
  | nil => rfl
  | cons v rest ih => rw [completedItems, ih, List.map_cons]

theorem distinct_withDefault {fields : Entries Json} (h : Entries.Distinct fields) (key : String)
    (value : Json) : Entries.Distinct (withDefault key value fields) := by
  unfold withDefault Entries.has
  cases hf : Entries.get? fields key with
  | some v => exact h
  | none => exact Entries.distinct_put h hf value

theorem distinct_withDefaults (added : Entries Json) {fields : Entries Json}
    (h : Entries.Distinct fields) : Entries.Distinct (withDefaults added fields) := by
  unfold withDefaults
  induction added generalizing fields with
  | nil => exact h
  | cons e rest ih => exact ih (distinct_withDefault h e.1 e.2)

/-- The fields of an object after the server added its own. -/
theorem get?_completedFields (defaults : Defaults) (fields : Entries Json) (key : String) :
    Entries.get? (withDefaults (defaults []) (completedFields defaults fields)) key =
      ((Entries.get? fields key).map (completed (defaults.under (.field key)))).or
        (Entries.get? (defaults []) key) := by
  rw [get?_withDefaults, completedFields_eq,
    Entries.get?_mapValues (fun k => completed (defaults.under (.field k)))]

theorem distinct_completedFields (defaults : Defaults) {fields : Entries Json}
    (h : Entries.Distinct fields) :
    Entries.Distinct (withDefaults (defaults []) (completedFields defaults fields)) := by
  rw [completedFields_eq]
  exact distinct_withDefaults _
    (Entries.distinct_mapValues (fun k => completed (defaults.under (.field k))) h)

/-- Whether a value may be what a server stores for a written one: it has no fields but written ones
and those that the server adds, and all of these. -/
inductive StoredFor : Defaults → Json → Json → Prop
  | atom {defaults : Defaults} {w c : Json} (hitems : ∀ items, c ≠ .arr items)
      (hfields : ∀ fields, c ≠ .obj fields) : StoredFor defaults w c
  | arr {defaults : Defaults} {w stored : List Json} (hlength : w.length = stored.length)
      (hitems : ∀ (i : Nat) (v x : Json), w[i]? = some v → stored[i]? = some x →
        StoredFor (defaults.under .item) v x) : StoredFor defaults (.arr w) (.arr stored)
  | obj {defaults : Defaults} {w c : Entries Json} (hnames : Entries.Distinct c)
      (hfields : ∀ (key : String) (v x : Json), Entries.get? w key = some v →
        Entries.get? c key = some x → StoredFor (defaults.under (.field key)) v x)
      (hadded : ∀ key, Entries.get? w key = none →
        Entries.get? c key = Entries.get? (defaults []) key)
      (hunset : ∀ key, (Entries.get? w key).isSome = true →
        Entries.get? (defaults []) key = none) : StoredFor defaults (.obj w) (.obj c)

/-! ### What is kept of a value -/

def kept (drops : Bool) (v : Json) : Json := if drops then v.pruned else v

def prunedSpec : Json → Json
  | .obj fields => .obj (Entries.update pruned fields "spec")
  | v => v

theorem prunedItems_eq (items : List Json) : prunedItems items = items.map pruned := by
  induction items with
  | nil => rfl
  | cons v rest ih => rw [prunedItems, ih, List.map_cons]

theorem kept_arr (drops : Bool) (items : List Json) :
    (arr items).kept drops = arr (items.map (kept drops)) := by
  cases drops with
  | true => exact (congrArg arr (prunedItems_eq items))
  | false => exact congrArg arr (List.map_id items).symm

/-- A field that is set is none of those that are missing. -/
theorem get?_of_missing {added fields : Entries Json}
    (h : ∀ e ∈ added, Entries.get? fields e.1 = none) {key : String}
    (hkey : (Entries.get? fields key).isSome = true) : Entries.get? added key = none := by
  cases ha : Entries.get? added key with
  | none => rfl
  | some v =>
    rw [h _ (Entries.mem_of_get? ha)] at hkey
    cases hkey

theorem storedFor_obj {defaults : Defaults} {w fields : Entries Json}
    (hnames : Entries.Distinct fields) (hunset : ∀ e ∈ defaults [], Entries.get? w e.1 = none)
    (hfields : ∀ key x, Entries.get? fields key = some x → ∃ v, Entries.get? w key = some v ∧
      StoredFor (defaults.under (.field key)) v (x.completed (defaults.under (.field key)))) :
    StoredFor defaults (obj w) ((obj fields).completed defaults) := by
  rw [completed]
  refine .obj (distinct_completedFields defaults hnames) (fun key v x hv hx => ?_)
    (fun key hw => ?_) (fun key hw => get?_of_missing hunset hw)
  · rw [get?_completedFields, get?_of_missing hunset (by rw [hv]; rfl), Option.or_none] at hx
    obtain ⟨y, hy, rfl⟩ := Option.map_eq_some_iff.1 hx
    obtain ⟨u, hu, hstored⟩ := hfields key y hy
    cases hv.symm.trans hu
    exact hstored
  · rw [get?_completedFields]
    cases hy : Entries.get? fields key with
    | none => rfl
    | some y =>
      obtain ⟨u, hu, _⟩ := hfields key y hy
      rw [hw] at hu
      cases hu

theorem names_prunedFields (fields : List (String × Json)) :
    ((prunedFields fields).map Prod.fst).Sublist (fields.map Prod.fst) := by
  induction fields with
  | nil => exact List.Sublist.refl _
  | cons e rest ih =>
    obtain ⟨key, v⟩ := e
    rw [prunedFields_cons]
    split
    · exact ih.cons key
    · exact ih.cons_cons key

theorem exists_kept_obj (drops : Bool) {w : Entries Json} (h : Entries.Distinct w) :
    ∃ fields, (obj w).kept drops = obj fields ∧ Entries.Distinct fields ∧
      ∀ key x, Entries.get? fields key = some x →
        ∃ v, Entries.get? w key = some v ∧ x = v.kept drops := by
  cases drops with
  | false => exact ⟨w, rfl, h, fun key x hx => ⟨x, hx, rfl⟩⟩
  | true =>
    refine ⟨prunedFields w, rfl, h.sublist (names_prunedFields w), fun key x hx => ?_⟩
    rw [get?_prunedFields h] at hx
    obtain ⟨v, hv, hkept⟩ := Option.bind_eq_some_iff.1 hx
    split at hkept
    · cases hkept
    · exact ⟨v, hv, (Option.some.inj hkept).symm⟩

theorem storedFor_scalar (drops : Bool) {v : Json} {defaults : Defaults}
    (hitems : ∀ items, v ≠ .arr items) (hfields : ∀ fields, v ≠ .obj fields) :
    StoredFor defaults v ((v.kept drops).completed defaults) := by
  have hsame : (v.kept drops).completed defaults = v := by
    cases v
    case arr items => exact absurd rfl (hitems items)
    case obj fields => exact absurd rfl (hfields fields)
    all_goals cases drops <;> rfl
  rw [hsame]
  exact .atom hitems hfields

mutual

/-- What a server keeps of a value, with the fields that it adds, may be stored for the value. -/
theorem storedFor_kept (drops : Bool) : (v : Json) → {defaults : Defaults} → v.Distinct →
    v.Lacks defaults → StoredFor defaults v ((v.kept drops).completed defaults)
  | .null, _, _, _ => storedFor_scalar drops (by simp) (by simp)
  | .bool _, _, _, _ => storedFor_scalar drops (by simp) (by simp)
  | .int _, _, _, _ => storedFor_scalar drops (by simp) (by simp)
  | .double _, _, _, _ => storedFor_scalar drops (by simp) (by simp)
  | .str _, _, _, _ => storedFor_scalar drops (by simp) (by simp)
  | .arr items, defaults, h, hl => by
    rw [Distinct] at h
    rw [Lacks] at hl
    rw [kept_arr, completed, completedItems_eq, List.map_map]
    refine .arr (List.length_map _).symm fun i v x hv hx => ?_
    rw [List.getElem?_map, hv] at hx
    cases hx
    exact items_storedFor_kept drops items h hl v (List.mem_of_getElem? hv)
  | .obj fields, defaults, h, hl => by
    rw [Distinct] at h
    rw [Lacks] at hl
    obtain ⟨others, hkept, hnames, hothers⟩ := exists_kept_obj drops h.1
    rw [hkept]
    refine storedFor_obj hnames hl.1 fun key x hx => ?_
    obtain ⟨v, hv, rfl⟩ := hothers key x hx
    exact ⟨v, hv, fields_storedFor_kept drops fields h.2 hl.2.2 _ (Entries.mem_of_get? hv)⟩

theorem items_storedFor_kept (drops : Bool) : (items : List Json) → {defaults : Defaults} →
    ItemsDistinct items → ItemsLack defaults items →
    ∀ v ∈ items, StoredFor defaults v ((v.kept drops).completed defaults)
  | [], _, _, _ => by simp
  | v :: rest, _, h, hl => by
    rw [ItemsDistinct] at h
    rw [ItemsLack] at hl
    rw [List.forall_mem_cons]
    exact ⟨storedFor_kept drops v h.1 hl.1, items_storedFor_kept drops rest h.2 hl.2⟩

theorem fields_storedFor_kept (drops : Bool) : (fields : List (String × Json)) →
    {defaults : Defaults} → FieldsDistinct fields → FieldsLack defaults fields →
    ∀ e ∈ fields, StoredFor (defaults.under (.field e.1)) e.2
      ((e.2.kept drops).completed (defaults.under (.field e.1)))
  | [], _, _, _ => by simp
  | (key, v) :: rest, _, h, hl => by
    rw [FieldsDistinct] at h
    rw [FieldsLack] at hl
    rw [List.forall_mem_cons]
    exact ⟨storedFor_kept drops v h.1 hl.1, fields_storedFor_kept drops rest h.2 hl.2⟩

end

theorem storedFor_prunedSpec {v : Json} {defaults : Defaults} (h : v.Distinct)
    (hl : v.Lacks defaults) : StoredFor defaults v (v.prunedSpec.completed defaults) := by
  cases v
  case obj fields =>
    rw [Distinct] at h
    rw [Lacks] at hl
    refine storedFor_obj (Entries.distinct_update pruned h.1 "spec") hl.1 fun key x hx => ?_
    rw [Entries.get?_update] at hx
    split at hx
    · obtain ⟨v, hv, rfl⟩ := Option.map_eq_some_iff.1 hx
      exact ⟨v, hv, fields_storedFor_kept true fields h.2 hl.2.2 _ (Entries.mem_of_get? hv)⟩
    · exact ⟨x, hx, fields_storedFor_kept false fields h.2 hl.2.2 _ (Entries.mem_of_get? hx)⟩
  all_goals exact storedFor_kept false _ h hl

/-! ### Without drift -/

theorem itemsDiffer_eq_false {desired stored : List Json} {last : Option Json} {start : Nat}
    (h : itemsDiffer desired stored last start = false) (i : Nat) {v x : Json}
    (hv : desired[i]? = some v) (hx : stored[i]? = some x) :
    differs v x (lastItem? last (start + i)) = false :=
  Bool.eq_false_iff.2 fun hdiffers =>
    Bool.eq_false_iff.1 h ((itemsDiffer_iff _ _ _ _).2 ⟨i, v, x, hv, hx, hdiffers⟩)

theorem isDropped_eq_false {d c : Entries Json} {last : Option Json}
    (h : isDropped d c last = false) {key : String} (hl : (lastField? last key).isSome = true)
    (hd : Entries.get? d key = none) : Entries.get? c key = none := by
  obtain ⟨v, hv⟩ := Option.isSome_iff_exists.1 hl
  obtain ⟨applied, rfl, hf⟩ := Option.bind_eq_some_iff.1 hv
  cases applied
  case obj l =>
    have hkey := List.any_eq_false.1 h _ (Entries.mem_of_get? hf)
    simpa [Entries.has, hd] using hkey
  all_goals cases hf

/-- What is zero is so with the fields of the server, if these are not added to empty objects. -/
theorem remnant?_completed {defaults : Defaults} {v : Json} (h : v.Lacks defaults)
    (hz : v.isZero = true) : remnant? (v.completed defaults) = none := by
  have hcompleted : v.completed defaults = v := by
    cases v
    case arr items =>
      cases List.isEmpty_iff.1 hz
      rfl
    case obj fields =>
      cases List.isEmpty_iff.1 hz
      rw [Lacks] at h
      rw [completed, h.2.1 rfl]
      rfl
    all_goals rfl
  have hcondensed : v.condensed = v := by
    cases v
    case arr items =>
      cases List.isEmpty_iff.1 hz
      rfl
    case obj fields =>
      cases List.isEmpty_iff.1 hz
      rfl
    all_goals rfl
  rw [hcompleted, remnant?, hcondensed, if_pos hz]

section Fields
variable {defaults : Defaults} {w c : Entries Json} {key : String}

/-- A stored field that is not desired is a default: what was written and is not desired any more is
gone. -/
theorem get?_of_undesired (hw : Entries.Distinct w)
    (hadded : Entries.get? w key = none → Entries.get? c key = Entries.get? (defaults []) key)
    (hunset : (Entries.get? w key).isSome = true → Entries.get? (defaults []) key = none)
    {fields : Entries Json} (hkey : Entries.get? fields key = none)
    (hdropped : isDropped fields c (some (obj w).inOrder) = false) :
    Entries.get? c key = Entries.get? (defaults []) key := by
  cases hwritten : Entries.get? w key with
  | none => exact hadded hwritten
  | some y =>
    have hlast : (lastField? (some (obj w).inOrder) key).isSome = true := by
      rw [lastField?_inOrder hw, hwritten]
      rfl
    rw [isDropped_eq_false hdropped hlast hkey, hunset (by rw [hwritten]; rfl)]

/-- A desired field is no default, so it is a written one if it is stored, and zero if it is not. -/
theorem remnant?_of_desired (hw : Entries.Distinct w)
    (hadded : Entries.get? w key = none → Entries.get? c key = Entries.get? (defaults []) key)
    (hunset : Entries.get? (defaults []) key = none) {v : Json}
    (hlacks : v.Lacks (defaults.under (.field key)))
    (hsame : match Entries.get? c key with
      | none => v.isZero = true
      | some x => differs v x (lastField? (some (obj w).inOrder) key) = false)
    (heq : ∀ y x, Entries.get? w key = some y → Entries.get? c key = some x →
      differs v x (some y.inOrder) = false →
      x.condensed = (v.completed (defaults.under (.field key))).condensed) :
    (Entries.get? c key).bind remnant? =
      remnant? (v.completed (defaults.under (.field key))) := by
  cases hx : Entries.get? c key with
  | none =>
    rw [hx] at hsame
    exact (remnant?_completed hlacks hsame).symm
  | some x =>
    cases hwritten : Entries.get? w key with
    | none =>
      have hdefault := (hadded hwritten).symm.trans hx
      rw [hunset] at hdefault
      cases hdefault
    | some y =>
      rw [hx, lastField?_inOrder hw, hwritten] at hsame
      rw [Option.bind_some, remnant?, remnant?, heq y x hwritten hx hsame]

end Fields

/-- What is stored for one value and shows no drift against another one is that one with the fields
that the server adds, but for zero fields. -/
theorem StoredFor.condensed_eq {defaults : Defaults} {w c : Json} (h : StoredFor defaults w c)
    (hw : w.Distinct) {n : Nat} {d : Json} (hd : d.Distinct) (hfits : d.Fits n)
    (hlacks : d.Lacks defaults) (hsame : differs d c (some w.inOrder) = false) :
    c.condensed = (d.completed defaults).condensed := by
  induction h generalizing n d with
  | @atom defaults w c hitems hfields =>
    have heq : d = c := by
      cases d <;> cases c <;> simp_all [differs, same, Fits]
    subst heq
    cases d <;> simp_all [completed]
  | @arr defaults w stored hlength hitems ih =>
    cases d
    case arr items =>
      rw [distinct_arr] at hw hd
      rw [Fits, itemsFit_iff] at hfits
      rw [Lacks, itemsLack_iff] at hlacks
      rw [differs, Bool.or_eq_false_iff, bne_eq_false_iff_eq] at hsame
      rw [completed, condensed, condensed, condensedItems_eq, condensedItems_eq, completedItems_eq,
        List.map_map]
      congr 1
      refine List.ext_getElem (by simp [hsame.1]) fun i hi hj => ?_
      rw [List.length_map] at hi hj
      have hwi : i < w.length := hlength ▸ hi
      rw [List.getElem_map, List.getElem_map]
      refine ih i w[i] stored[i] (List.getElem?_eq_getElem hwi) (List.getElem?_eq_getElem hi)
        (hw _ (List.getElem_mem hwi)) (hd _ (List.getElem_mem hj))
        (hfits.2 _ (List.getElem_mem hj)) (hlacks _ (List.getElem_mem hj)) ?_
      have hitem := itemsDiffer_eq_false hsame.2 i (List.getElem?_eq_getElem hj)
        (List.getElem?_eq_getElem hi)
      rwa [Nat.zero_add, lastItem?_inOrder, List.getElem?_eq_getElem hwi] at hitem
    all_goals simp [differs, same] at hsame
  | @obj defaults w c hnames hfields hadded hunset ih =>
    cases d
    case obj fields =>
      rw [distinct_obj] at hw hd
      rw [Fits, fieldsFit_iff] at hfits
      rw [Lacks, fieldsLack_iff] at hlacks
      rw [differs_obj, Bool.or_eq_false_iff, fieldsDiffer_eq_false_iff] at hsame
      rw [completed]
      refine condensed_obj_ext hnames (distinct_completedFields defaults hd.1) fun key => ?_
      rw [get?_completedFields]
      cases hkey : Entries.get? fields key with
      | some v =>
        have hmem := Entries.mem_of_get? hkey
        have hdefault : Entries.get? (defaults []) key = none :=
          get?_of_missing hlacks.1 (by rw [hkey]; rfl)
        rw [Option.map_some, Option.some_or, Option.bind_some]
        refine remnant?_of_desired hw.1 (hadded key) hdefault (hlacks.2.2 _ hmem) (hsame.1 _ hmem)
          fun y x hy hx hfield => ?_
        exact ih key y x hy hx (hw.2 _ (Entries.mem_of_get? hy)) (hd.2 _ hmem) (hfits.2 _ hmem)
          (hlacks.2.2 _ hmem) hfield
      | none =>
        rw [Option.map_none, Option.none_or,
          get?_of_undesired hw.1 (hadded key) (hunset key) hkey hsame.2]
    all_goals simp [differs, same] at hsame

end Json
end MailCapture
