import MailCapture.Sync
/-!
What the comparison of two objects looks at: the fields of their comparable parts, one by one.
-/
namespace MailCapture

namespace Entries
variable {κ α β : Type} [DecidableEq κ]

theorem mem_of_get? {m : List (κ × α)} {key : κ} {v : α} (h : get? m key = some v) :
    (key, v) ∈ m := by
  induction m with
  | nil => cases h
  | cons e rest ih =>
    obtain ⟨k, a⟩ := e
    unfold get? at h
    split at h
    · rename_i hk
      cases h
      exact hk ▸ List.mem_cons_self
    · exact List.mem_cons_of_mem _ (ih h)

theorem get?_eq_none_of_forall {m : List (κ × α)} {key : κ} (h : ∀ e ∈ m, e.1 ≠ key) :
    get? m key = none := by
  cases hg : get? m key with
  | none => rfl
  | some v => exact absurd rfl (h _ (mem_of_get? hg))

theorem has_of_mem {m : List (κ × α)} {key : κ} {v : α} (h : (key, v) ∈ m) :
    has m key = true := by
  unfold has
  cases hg : get? m key with
  | some a => rfl
  | none =>
    induction m with
    | nil => cases h
    | cons e rest ih =>
      obtain ⟨k, a⟩ := e
      unfold get? at hg
      split at hg
      · cases hg
      · rename_i hne
        cases List.mem_cons.1 h with
        | inl he =>
          cases he
          exact absurd rfl hne
        | inr hr => exact ih hr hg

theorem get?_removeAll (keys : List κ) (m : List (κ × α)) (key : κ) :
    get? (keys.foldl remove m) key = if key ∈ keys then none else get? m key := by
  induction keys generalizing m with
  | nil => simp
  | cons k rest ih =>
    rw [List.foldl_cons, ih]
    by_cases hk : key = k
    · subst hk
      simp [get?_remove_self]
    · simp [hk, get?_remove_of_ne m hk]

theorem get?_filterMap {m : List (κ × Option α)} (h : (m.map Prod.fst).Nodup) (key : κ) :
    get? (m.filterMap (fun e => e.2.map (fun v => (e.1, v)))) key = (get? m key).join := by
  induction m with
  | nil => rfl
  | cons e rest ih =>
    obtain ⟨k, v⟩ := e
    obtain ⟨hhead, htail⟩ := List.nodup_cons.1 h
    by_cases hk : k = key
    · subst hk
      cases v with
      | some a => simp [get?]
      | none =>
        have hrest : get? rest k = none :=
          get?_eq_none_of_forall fun e he hek => hhead (List.mem_map.2 ⟨e, he, hek⟩)
        simp [get?, ih htail, hrest]
    · cases v with
      | some a => simp [get?, hk, ih htail]
      | none => simp [get?, hk, ih htail]

end Entries

namespace Wire

theorem field?_record {fields : List (String × Option Json)} (h : (fields.map Prod.fst).Nodup)
    (key : String) : (record fields).field? key = (Entries.get? fields key).join :=
  Entries.get?_filterMap h key

end Wire

namespace Json

/-! ### Comparable parts -/

/-- Only the annotations are treated in a way of their own. -/
theorem get?_comparableMetadata (fields : Entries Json) {key : String} (h : key ≠ "annotations") :
    Entries.get? (comparableMetadata fields) key =
      if key ∈ serverMetadata then none else Entries.get? fields key := by
  rw [← Entries.get?_removeAll]
  unfold comparableMetadata
  dsimp only
  split
  · rfl
  · split
    · exact Entries.get?_remove_of_ne _ h
    · exact Entries.get?_put_of_ne _ _ h

theorem get?_comparableMetadata_annotations (fields : Entries Json) :
    Entries.get? (comparableMetadata fields) "annotations" =
      (Entries.get? fields "annotations").bind comparableAnnotations? := by
  have hown : Entries.get? (serverMetadata.foldl Entries.remove fields) "annotations" =
      Entries.get? fields "annotations" := by
    rw [Entries.get?_removeAll, if_neg (by decide)]
  unfold comparableMetadata
  dsimp only
  rw [hown]
  cases ha : Entries.get? fields "annotations" with
  | none => exact hown.trans ha
  | some v =>
    cases hc : comparableAnnotations? v with
    | none => simp [hc, Entries.get?_remove_self]
    | some kept => simp [hc, Entries.get?_put_self]

theorem comparableAnnotations?_obj {a : Entries Json} {v : Json} :
    comparableAnnotations? (.obj a) = some v ↔
      Entries.remove a lastAppliedAnnotation ≠ [] ∧
        v = .obj (Entries.remove a lastAppliedAnnotation) := by
  unfold comparableAnnotations?
  dsimp only
  cases hr : Entries.remove a lastAppliedAnnotation with
  | nil => simp
  | cons e rest => simp [eq_comm]

theorem comparable_obj {fields metadata : Entries Json}
    (h : Entries.get? fields "metadata" = some (.obj metadata)) :
    comparable (.obj fields) = .obj (Entries.put (Entries.remove fields "status") "metadata"
      (.obj (comparableMetadata metadata))) := by
  have hr : Entries.get? (Entries.remove fields "status") "metadata" = some (.obj metadata) := by
    rw [Entries.get?_remove_of_ne _ (by decide), h]
  simp only [comparable, hr]

end Json

namespace Manifest

def metadataFields (m : Manifest) : Entries Json := (m.metadata.toJson.fields?).getD []

theorem metadata_toJson (m : Manifest) : m.metadata.toJson = .obj m.metadataFields := rfl

def allFields (m : Manifest) : Entries Json := (m.toJson.fields?).getD []

theorem toJson_eq (m : Manifest) : m.toJson = .obj m.allFields := by
  unfold allFields toJson
  cases m.types <;> rfl

theorem get?_allFields_metadata (m : Manifest) :
    Entries.get? m.allFields "metadata" = some (.obj m.metadataFields) := by
  rw [← metadata_toJson]
  unfold allFields toJson
  cases m.types with
  | none => exact Entries.get?_put_self _ _ _
  | some t =>
    show Entries.get? (Entries.put (Entries.put _ "apiVersion" _) "kind" _) "metadata" = _
    rw [Entries.get?_put_of_ne _ _ (by decide), Entries.get?_put_of_ne _ _ (by decide),
      Entries.get?_put_self]

def comparableFields (m : Manifest) : Entries Json :=
  Entries.put (Entries.remove m.allFields "status") "metadata"
    (.obj (Json.comparableMetadata m.metadataFields))

theorem comparable_eq (m : Manifest) : m.comparable = .obj m.comparableFields := by
  rw [comparable, toJson_eq, Json.comparable_obj m.get?_allFields_metadata]
  rfl

theorem field?_comparable_metadata (m : Manifest) : m.comparable.field? "metadata" =
    some (.obj (Json.comparableMetadata m.metadataFields)) := by
  rw [comparable_eq]
  exact Entries.get?_put_self _ _ _

end Manifest

namespace Json

/-! ### Differences -/

theorem fieldsDiffer_iff (d : List (String × Json)) (c : Entries Json) (last : Option Json) :
    fieldsDiffer d c last = true ↔ ∃ e ∈ d, match Entries.get? c e.1 with
      | none => e.2.isZero = false
      | some x => differs e.2 x (lastField? last e.1) = true := by
  induction d with
  | nil => simp [fieldsDiffer]
  | cons e rest ih =>
    obtain ⟨key, v⟩ := e
    simp only [fieldsDiffer, Bool.or_eq_true, ih, List.mem_cons, exists_eq_or_imp]
    refine or_congr ?_ Iff.rfl
    cases Entries.get? c key <;> simp

/-- Desired fields that show no difference are there without one, or missing and zero. -/
theorem fieldsDiffer_eq_false_iff (d : List (String × Json)) (c : Entries Json)
    (last : Option Json) :
    fieldsDiffer d c last = false ↔ ∀ e ∈ d, match Entries.get? c e.1 with
      | none => e.2.isZero = true
      | some x => differs e.2 x (lastField? last e.1) = false := by
  rw [← Bool.not_eq_true, fieldsDiffer_iff, not_exists]
  refine forall_congr' fun e => ?_
  rw [not_and]
  refine imp_congr_right fun _ => ?_
  cases Entries.get? c e.1 <;> simp

theorem itemsDiffer_iff (ds cs : List Json) (last : Option Json) (start : Nat) :
    itemsDiffer ds cs last start = true ↔ ∃ i v x, ds[i]? = some v ∧ cs[i]? = some x ∧
      differs v x (lastItem? last (start + i)) = true := by
  induction ds generalizing cs start with
  | nil => simp [itemsDiffer]
  | cons v ds ih =>
    cases cs with
    | nil => simp [itemsDiffer]
    | cons x cs =>
      rw [itemsDiffer, Bool.or_eq_true, ih]
      constructor
      · rintro (h | ⟨i, v', x', hd, hc, h⟩)
        · exact ⟨0, v, x, rfl, rfl, h⟩
        · exact ⟨i + 1, v', x', hd, hc, by rwa [Nat.add_right_comm, Nat.add_assoc] at h⟩
      · rintro ⟨i, v', x', hd, hc, h⟩
        cases i with
        | zero =>
          cases hd
          cases hc
          exact Or.inl h
        | succ i => exact Or.inr ⟨i, v', x', hd, hc, by rwa [Nat.add_right_comm, Nat.add_assoc]⟩

theorem isDropped_iff (d c : Entries Json) (last : Option Json) :
    isDropped d c last = true ↔ ∃ applied name, last = some (.obj applied) ∧
      Entries.has applied name = true ∧ Entries.has c name = true ∧
        Entries.has d name = false := by
  constructor
  · intro h
    unfold isDropped at h
    split at h
    · rename_i applied
      obtain ⟨e, he, hnames⟩ := List.any_eq_true.1 h
      rw [Bool.and_eq_true, Bool.not_eq_true'] at hnames
      exact ⟨applied, e.1, rfl, Entries.has_of_mem he, hnames.2, hnames.1⟩
    · cases h
  · rintro ⟨applied, name, rfl, hl, hc, hd⟩
    obtain ⟨v, hv⟩ := Option.isSome_iff_exists.1 hl
    refine List.any_eq_true.2 ⟨(name, v), Entries.mem_of_get? hv, ?_⟩
    rw [hc, hd]
    rfl

theorem differs_obj (d c : Entries Json) (last : Option Json) :
    differs (.obj d) (.obj c) last = (fieldsDiffer d c last || isDropped d c last) := by
  rw [differs]

theorem itemsDiffer_singleton (d c : Json) (last : Option Json) (i : Nat) :
    itemsDiffer [d] [c] last i = differs d c (lastItem? last i) := by
  simp [itemsDiffer]

theorem eq_of_not_differs {a b : String} {last : Option Json}
    (h : differs (.str a) (.str b) last = false) : a = b := by
  simpa [differs, same] using h

theorem field_of_not_differs {d c : Json} {last : Option Json} (h : differs d c last = false)
    {key : String} {v : Json} (hv : d.field? key = some v) :
    match c.field? key with
      | none => v.isZero = true
      | some x => differs v x (lastField? last key) = false := by
  cases d
  case obj fields =>
    cases c
    case obj others =>
      rw [differs_obj, Bool.or_eq_false_iff] at h
      exact (fieldsDiffer_eq_false_iff fields others last).1 h.1 _ (Entries.mem_of_get? hv)
    all_goals simp [differs, same] at h
  all_goals cases hv

end Json

theorem OwnerReference.field?_uid (o : OwnerReference) :
    o.toJson.field? "uid" = some (.str o.uid) := by
  refine (Wire.field?_record (by simp) "uid").trans ?_
  simp [Entries.get?]

theorem Metadata.field?_ownerReferences (m : Metadata) : m.toJson.field? "ownerReferences" =
    m.ownerReferences.map (fun os => .arr (os.map OwnerReference.toJson)) := by
  refine (Wire.field?_record (by simp) "ownerReferences").trans ?_
  simp [Entries.get?]

namespace Manifest

/-- The owners take part in the comparison. -/
theorem field?_comparableMetadata_ownerReferences (m : Manifest) :
    (Json.obj (Json.comparableMetadata m.metadataFields)).field? "ownerReferences" =
      m.metadata.ownerReferences.map (fun os => .arr (os.map OwnerReference.toJson)) := by
  rw [← m.metadata.field?_ownerReferences]
  exact (Json.get?_comparableMetadata _ (by decide)).trans (if_neg (by decide))

/-- An object without drift has one owner, the desired one. -/
theorem owner_of_not_needsUpdate {observed m : Manifest} {owner : OwnerReference}
    (h : observed.needsUpdate (m.adoptedBy owner) = false) :
    ∃ r, observed.metadata.ownerReferences = some [r] ∧ r.uid = owner.uid := by
  have hmeta := Json.field_of_not_differs h (m.adoptedBy owner).field?_comparable_metadata
  rw [field?_comparable_metadata] at hmeta
  have howners := Json.field_of_not_differs hmeta
    (m.adoptedBy owner).field?_comparableMetadata_ownerReferences
  rw [field?_comparableMetadata_ownerReferences] at howners
  cases ho : observed.metadata.ownerReferences with
  | none =>
    rw [ho] at howners
    cases howners
  | some os =>
    rw [ho] at howners
    simp only [Option.map_some, Json.differs, Bool.or_eq_false_iff] at howners
    obtain ⟨hlen, hitems⟩ := howners
    match os, hlen, hitems with
    | [r], _, hitems =>
      have hitem := (Json.itemsDiffer_singleton owner.toJson r.toJson _ 0).symm.trans hitems
      have huid := Json.field_of_not_differs hitem owner.field?_uid
      rw [r.field?_uid] at huid
      exact ⟨r, rfl, (Json.eq_of_not_differs huid).symm⟩

end Manifest
end MailCapture
