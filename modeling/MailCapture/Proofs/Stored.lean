import MailCapture.Proofs.Applied
import MailCapture.Proofs.Classify
import MailCapture.Proofs.Named
/-!
A just-written object is no drift, whatever a server adds to it and whichever zero values it leaves
out.
-/
namespace MailCapture

namespace Json

mutual

/-- Whether a stored value is a written one with fields that a server adds at any depth, and without
fields of value zero if the server drops them. -/
def Extends (drops : Bool) : Json → Json → Prop
  | .obj w, .obj c => FieldsExtend drops w c
  | .arr w, .arr c => ItemsExtend drops w c
  | w, c => w.same c = true

def FieldsExtend (drops : Bool) : List (String × Json) → Entries Json → Prop
  | [], _ => True
  | (key, v) :: rest, c =>
    (match Entries.get? c key with
      | none => drops = true ∧ v.isZero = true
      | some x => v.Extends drops x) ∧ FieldsExtend drops rest c

def ItemsExtend (drops : Bool) : List Json → List Json → Prop
  | [], [] => True
  | v :: vs, x :: xs => v.Extends drops x ∧ ItemsExtend drops vs xs
  | _, _ => False

end

theorem fieldsExtend_iff (drops : Bool) (w : List (String × Json)) (c : Entries Json) :
    FieldsExtend drops w c ↔ ∀ e ∈ w, match Entries.get? c e.1 with
      | none => drops = true ∧ e.2.isZero = true
      | some x => e.2.Extends drops x := by
  induction w with
  | nil => simp [FieldsExtend]
  | cons e rest ih =>
    obtain ⟨key, v⟩ := e
    rw [FieldsExtend, ih, List.forall_mem_cons]

theorem extends_obj (drops : Bool) (w c : Entries Json) : (obj w).Extends drops (.obj c) ↔
    ∀ e ∈ w, match Entries.get? c e.1 with
      | none => drops = true ∧ e.2.isZero = true
      | some x => e.2.Extends drops x := by
  rw [Extends, fieldsExtend_iff]

theorem exists_obj_of_extends {drops : Bool} {w : Entries Json} {x : Json}
    (h : (obj w).Extends drops x) : ∃ c, x = .obj c := by
  cases x
  case obj c => exact ⟨c, rfl⟩
  all_goals simp [Extends, same] at h

theorem field_of_extends {w c : Entries Json} (h : (obj w).Extends false (.obj c)) {key : String}
    {v : Json} (hv : Entries.get? w key = some v) :
    ∃ x, Entries.get? c key = some x ∧ v.Extends false x := by
  have he := (extends_obj false w c).1 h _ (Entries.mem_of_get? hv)
  cases hc : Entries.get? c key with
  | none => simp [hc] at he
  | some x =>
    rw [hc] at he
    exact ⟨x, rfl, he⟩

mutual

/-- What nothing is dropped of is allowed where zero values may be dropped. -/
theorem Extends.dropping : (w : Json) → {c : Json} → w.Extends false c → w.Extends true c
  | .null, _, h => by simpa [Extends] using h
  | .bool _, _, h => by simpa [Extends] using h
  | .int _, _, h => by simpa [Extends] using h
  | .double _, _, h => by simpa [Extends] using h
  | .str _, _, h => by simpa [Extends] using h
  | .arr items, c, h => by
    cases c
    case arr others =>
      rw [Extends] at h ⊢
      exact itemsExtend_dropping items h
    all_goals simp [Extends, same] at h
  | .obj fields, c, h => by
    cases c
    case obj others =>
      rw [Extends] at h ⊢
      exact fieldsExtend_dropping fields h
    all_goals simp [Extends, same] at h

theorem itemsExtend_dropping : (w : List Json) → {c : List Json} → ItemsExtend false w c →
    ItemsExtend true w c
  | [], [], _ => by simp [ItemsExtend]
  | v :: vs, x :: xs, h => by
    rw [ItemsExtend] at h ⊢
    exact ⟨h.1.dropping, itemsExtend_dropping vs h.2⟩
  | [], _ :: _, h => by simp [ItemsExtend] at h
  | _ :: _, [], h => by simp [ItemsExtend] at h

theorem fieldsExtend_dropping : (w : List (String × Json)) → {c : Entries Json} →
    FieldsExtend false w c → FieldsExtend true w c
  | [], _, _ => by simp [FieldsExtend]
  | (key, v) :: rest, c, h => by
    rw [FieldsExtend] at h ⊢
    refine ⟨?_, fieldsExtend_dropping rest h.2⟩
    cases hc : Entries.get? c key with
    | none => simp [hc] at h
    | some x =>
      rw [hc] at h
      exact h.1.dropping

end

/-! ### Drift -/

theorem length_of_itemsExtend {drops : Bool} {w c : List Json} (h : ItemsExtend drops w c) :
    w.length = c.length := by
  induction w generalizing c with
  | nil =>
    cases c with
    | nil => rfl
    | cons x xs => simp [ItemsExtend] at h
  | cons v vs ih =>
    cases c with
    | nil => simp [ItemsExtend] at h
    | cons x xs =>
      rw [ItemsExtend] at h
      rw [List.length_cons, List.length_cons, ih h.2]

/-- What covers the values applied has dropped none of them. -/
theorem not_isDropped {d c : Entries Json} {last : Option Json}
    (hl : ∀ l, last = some l → (obj d).Covers l) : isDropped d c last = false := by
  unfold isDropped
  split
  · rename_i applied
    have hnames := ((covers_obj d applied).1 (hl _ rfl)).1
    rw [List.any_eq_false]
    intro e he
    simp [hnames e he]
  · rfl

/-- The items covered from some place on are the one at that place and the ones after it. -/
theorem itemsCover_drop {v : Json} {vs l : List Json} {i : Nat}
    (h : ItemsCover (v :: vs) (l.drop i)) :
    (∀ x, l[i]? = some x → v.Covers x) ∧ ItemsCover vs (l.drop (i + 1)) := by
  by_cases hi : i < l.length
  · rw [List.drop_eq_getElem_cons hi, ItemsCover] at h
    refine ⟨fun x hx => ?_, h.2⟩
    rw [List.getElem?_eq_getElem hi] at hx
    cases hx
    exact h.1
  · rw [List.drop_of_length_le (by omega)]
    refine ⟨fun x hx => ?_, by simp [ItemsCover]⟩
    rw [List.getElem?_eq_none (by omega)] at hx
    cases hx

mutual

/-- A value shows no difference to one that extends it, given that it covers what was applied. -/
theorem not_differs : (d : Json) → {drops : Bool} → {c : Json} → {last : Option Json} →
    d.Extends drops c → (∀ l, last = some l → d.Covers l) → differs d c last = false
  | .null, _, _, _, h, _ => by simpa [Extends, differs] using h
  | .bool _, _, _, _, h, _ => by simpa [Extends, differs] using h
  | .int _, _, _, _, h, _ => by simpa [Extends, differs] using h
  | .double _, _, _, _, h, _ => by simpa [Extends, differs] using h
  | .str _, _, _, _, h, _ => by simpa [Extends, differs] using h
  | .arr items, _, c, last, h, hl => by
    cases c
    case arr others =>
      rw [Extends] at h
      rw [differs, length_of_itemsExtend h, bne_self_eq_false, Bool.false_or]
      refine items_not_differ items h fun l he => ?_
      simpa [Covers] using hl _ he
    all_goals simp [Extends, same] at h
  | .obj fields, _, c, last, h, hl => by
    cases c
    case obj others =>
      rw [Extends] at h
      rw [differs_obj, Bool.or_eq_false_iff]
      constructor
      · refine fields_not_differ fields h fun l he => ?_
        have hc := hl _ he
        rw [Covers] at hc
        exact hc.2
      · exact not_isDropped hl
    all_goals simp [Extends, same] at h

theorem items_not_differ : (ds : List Json) → {drops : Bool} → {cs : List Json} →
    {last : Option Json} → {i : Nat} → ItemsExtend drops ds cs →
    (∀ l, last = some (.arr l) → ItemsCover ds (l.drop i)) → itemsDiffer ds cs last i = false
  | [], _, _, _, _, _, _ => by simp [itemsDiffer]
  | _ :: _, _, [], _, _, _, _ => by simp [itemsDiffer]
  | d :: ds, _, c :: cs, last, i, h, hl => by
    rw [ItemsExtend] at h
    rw [itemsDiffer, Bool.or_eq_false_iff]
    constructor
    · refine not_differs d h.1 fun x hx => ?_
      unfold lastItem? at hx
      split at hx
      · exact (itemsCover_drop (hl _ rfl)).1 x hx
      · cases hx
    · exact items_not_differ ds h.2 fun l he => (itemsCover_drop (hl l he)).2

theorem fields_not_differ : (d : List (String × Json)) → {drops : Bool} → {c : Entries Json} →
    {last : Option Json} → FieldsExtend drops d c →
    (∀ l, last = some (.obj l) → FieldsCover d l) → fieldsDiffer d c last = false
  | [], _, _, _, _, _ => by simp [fieldsDiffer]
  | (key, v) :: rest, _, c, last, h, hl => by
    rw [FieldsExtend] at h
    have hrest := fields_not_differ rest h.2 fun l he => by
      have hc := hl l he
      rw [FieldsCover] at hc
      exact hc.2
    rw [fieldsDiffer, hrest, Bool.or_false]
    cases hx : Entries.get? c key with
    | none =>
      rw [hx] at h
      simp [h.1.2]
    | some x =>
      rw [hx] at h
      refine not_differs v h.1 fun y hy => ?_
      obtain ⟨applied, ha, hf⟩ := Option.bind_eq_some_iff.1 hy
      cases applied
      case obj l =>
        have hc := hl l ha
        rw [FieldsCover] at hc
        exact hc.1 y hf
      all_goals cases hf

end

end Json

/-- What is looked up does not depend on the value of another key. -/
theorem Entries.get?_splice {α : Type} (front back : Entries α) (v w : α) {k key : String}
    (h : k ≠ key) : get? (front ++ (k, v) :: back) key = get? (front ++ (k, w) :: back) key := by
  induction front with
  | nil => exact (if_neg h).trans (if_neg h).symm
  | cons e rest ih =>
    obtain ⟨l, a⟩ := e
    rw [List.cons_append, List.cons_append, get?, get?, ih]

namespace Metadata

theorem field?_annotations (m : Metadata) :
    m.toJson.field? "annotations" = m.annotations.map Wire.stringMap := by
  refine (Wire.field?_record (by simp) "annotations").trans ?_
  simp [Entries.get?]

theorem field?_withAnnotations (m : Metadata) (annotations : Option (Entries String))
    {key : String} (h : key ≠ "annotations") :
    ({ m with annotations := annotations } : Metadata).toJson.field? key = m.toJson.field? key := by
  unfold toJson
  rw [Wire.field?_record (by simp), Wire.field?_record (by simp)]
  exact congrArg Option.join (Entries.get?_splice [] _ _ _ h.symm)

def withServer (m server : Metadata) : Metadata :=
  { m with
    uid := server.uid
    resourceVersion := server.resourceVersion
    generation := server.generation
    creationTimestamp := server.creationTimestamp
    deletionTimestamp := server.deletionTimestamp
    deletionGracePeriodSeconds := server.deletionGracePeriodSeconds
    managedFields := server.managedFields
    selfLink := server.selfLink }

/-- Fields that the server does not set do not depend on what it sets. -/
theorem field?_withServer (m server : Metadata) {key : String} (h : key ∉ serverMetadata) :
    (m.withServer server).toJson.field? key = m.toJson.field? key := by
  have hne (k : String) (hk : k ∈ serverMetadata) : k ≠ key := fun he => h (he ▸ hk)
  unfold toJson
  rw [Wire.field?_record (by simp), Wire.field?_record (by simp)]
  congr 1
  calc
    _ = _ := Entries.get?_splice [_] [_, _, _, _, _, _, _, _, _, _, _, _, _]
      _ (m.creationTimestamp.map Time.toJson) (hne "creationTimestamp" (by decide))
    _ = _ := Entries.get?_splice [_, _] [_, _, _, _, _, _, _, _, _, _, _, _]
      _ (m.deletionGracePeriodSeconds.map Wire.int64)
      (hne "deletionGracePeriodSeconds" (by decide))
    _ = _ := Entries.get?_splice [_, _, _] [_, _, _, _, _, _, _, _, _, _, _]
      _ (m.deletionTimestamp.map Time.toJson) (hne "deletionTimestamp" (by decide))
    _ = _ := Entries.get?_splice [_, _, _, _, _, _] [_, _, _, _, _, _, _, _]
      _ (m.generation.map Wire.int64) (hne "generation" (by decide))
    _ = _ := Entries.get?_splice [_, _, _, _, _, _, _, _] [_, _, _, _, _, _]
      _ (m.managedFields.map fun fs => .arr (fs.map FieldOwnership.toJson))
      (hne "managedFields" (by decide))
    _ = _ := Entries.get?_splice [_, _, _, _, _, _, _, _, _, _, _, _] [_, _]
      _ (m.resourceVersion.map .str) (hne "resourceVersion" (by decide))
    _ = _ := Entries.get?_splice [_, _, _, _, _, _, _, _, _, _, _, _, _] [_]
      _ (m.selfLink.map .str) (hne "selfLink" (by decide))
    _ = _ := Entries.get?_splice [_, _, _, _, _, _, _, _, _, _, _, _, _, _] []
      _ (m.uid.map .str) (hne "uid" (by decide))

end Metadata

theorem Wire.field?_stringMap (m : Entries String) (key : String) :
    (stringMap m).field? key = (Entries.get? m key).map .str := by
  show Entries.get? (m.map (fun e => (e.1, Json.str e.2))) key = _
  induction m with
  | nil => rfl
  | cons e rest ih =>
    obtain ⟨k, v⟩ := e
    by_cases hk : k = key <;> simp [Entries.get?, hk, ih]

def TypeNames.field? (t : TypeNames) (key : String) : Option Json :=
  if key = "kind" then some (.str t.kind)
  else if key = "apiVersion" then some (.str t.apiVersion)
  else none

theorem TypeNames.extends_field? {t : TypeNames} {key : String} {v : Json}
    (h : t.field? key = some v) (drops : Bool) : v.Extends drops v := by
  have hstr : ∃ s, v = .str s := by
    unfold field? at h
    split at h
    · exact ⟨_, (Option.some.inj h).symm⟩
    · split at h
      · exact ⟨_, (Option.some.inj h).symm⟩
      · cases h
  obtain ⟨s, rfl⟩ := hstr
  simp [Json.Extends, Json.same]

def Json.IsKept (v : Json) : Option Json → Prop
  | none => v.isZero = true
  | some x => v.Extends true x

namespace Manifest

/-- Whether a server that is given an object may store another one for it: with metadata of its own,
with more fields at any depth and with any status.  Metadata are kept otherwise; of the rest, what
is zero may be left out. -/
structure StoredAs (m stored : Manifest) : Prop where
  live : stored.isTerminating = false
  types : stored.types = m.types
  metadata : ∀ key v, key ∉ serverMetadata → m.metadata.toJson.field? key = some v →
    ∃ x, stored.metadata.toJson.field? key = some x ∧ v.Extends false x
  fields : ∀ key v, key ≠ "status" → Entries.get? m.fields key = some v →
    v.IsKept (Entries.get? stored.fields key)

variable {m stored : Manifest}

theorem StoredAs.annotation? (h : m.StoredAs stored) {key text : String}
    (ha : m.metadata.annotation? key = some text) :
    stored.metadata.annotation? key = some text := by
  obtain ⟨written, hw, hk⟩ := Option.bind_eq_some_iff.1 ha
  obtain ⟨x, hx, he⟩ := h.metadata "annotations" (Wire.stringMap written) (by decide)
    (by rw [Metadata.field?_annotations, hw]; rfl)
  rw [Metadata.field?_annotations] at hx
  obtain ⟨kept, hs, rfl⟩ := Option.map_eq_some_iff.1 hx
  have hfield : (Wire.stringMap written).field? key = some (.str text) := by
    rw [Wire.field?_stringMap, hk]
    rfl
  obtain ⟨y, hy, hext⟩ := Json.field_of_extends he hfield
  have hfound := (Wire.field?_stringMap kept key).symm.trans hy
  obtain ⟨other, ho, rfl⟩ := Option.map_eq_some_iff.1 hfound
  have hsame : text = other := by simpa [Json.Extends, Json.same] using hext
  rw [Metadata.annotation?, hs, hsame]
  exact ho

/-- The version that a write is based on makes no difference to what is stored. -/
theorem StoredAs.of_replacementFor {d observed : Manifest}
    (h : (d.replacementFor observed).StoredAs stored) : d.stamp.StoredAs stored where
  live := h.live
  types := h.types
  metadata key v hk hv := by
    refine h.metadata key v hk (Eq.trans ?_ hv)
    exact Metadata.field?_withServer d.stamp.metadata
      { d.stamp.metadata with resourceVersion := observed.metadata.resourceVersion } hk
  fields := h.fields

/-! ### The comparable part of what is stored -/

/-- What the metadata of an object and of its stamped form have in common. -/
theorem field?_stamp_metadata (m : Manifest) {key : String} (h : key ≠ "annotations") :
    m.stamp.metadata.toJson.field? key = m.metadata.toJson.field? key :=
  Metadata.field?_withAnnotations m.metadata _ h

theorem comparableAnnotations_extend {d stored : Manifest} (h : d.stamp.StoredAs stored) {v : Json}
    (hd : v.Distinct)
    (hv : (d.metadata.toJson.field? "annotations").bind Json.comparableAnnotations? = some v) :
    ∃ x, (stored.metadata.toJson.field? "annotations").bind Json.comparableAnnotations? = some x ∧
      v.Extends false x := by
  rw [Metadata.field?_annotations] at hv
  obtain ⟨own, ho, hown⟩ := Option.bind_eq_some_iff.1 hv
  obtain ⟨desired, hdes, rfl⟩ := Option.map_eq_some_iff.1 ho
  obtain ⟨hne, rfl⟩ := Json.comparableAnnotations?_obj.1 hown
  let stamped := Entries.put desired lastAppliedAnnotation d.comparable.render
  have hstamped : d.stamp.metadata.toJson.field? "annotations" = some (Wire.stringMap stamped) := by
    rw [Metadata.field?_annotations]
    show some (Wire.stringMap (Entries.put (d.metadata.annotations.getD []) _ _)) = _
    rw [hdes]
    rfl
  obtain ⟨x, hx, he⟩ := h.metadata _ _ (by decide) hstamped
  obtain ⟨c, rfl⟩ := Json.exists_obj_of_extends he
  have hkept : ∀ e ∈ Entries.remove (desired.map (fun e => (e.1, Json.str e.2)))
      lastAppliedAnnotation,
      ∃ y, Entries.get? (Entries.remove c lastAppliedAnnotation) e.1 = some y ∧
        e.2.Extends false y := by
    intro e hmem
    have hk : e.1 ≠ lastAppliedAnnotation := by simpa using (List.mem_filter.1 hmem).2
    have hget := Entries.get?_of_mem ((Json.distinct_obj _).1 hd).1 hmem
    rw [Entries.get?_remove_of_ne _ hk] at hget
    have hwritten : (Wire.stringMap stamped).field? e.1 = some e.2 := by
      rw [Wire.field?_stringMap, Entries.get?_put_of_ne _ _ hk, ← Wire.field?_stringMap]
      exact hget
    obtain ⟨y, hy, hext⟩ := Json.field_of_extends he hwritten
    exact ⟨y, (Entries.get?_remove_of_ne _ hk).trans hy, hext⟩
  refine ⟨.obj (Entries.remove c lastAppliedAnnotation), ?_, ?_⟩
  · rw [hx]
    refine Json.comparableAnnotations?_obj.2 ⟨fun hnil => ?_, rfl⟩
    obtain ⟨e, hmem⟩ := List.exists_mem_of_ne_nil _ hne
    obtain ⟨y, hy, _⟩ := hkept e hmem
    rw [hnil] at hy
    cases hy
  · rw [Json.extends_obj]
    intro e hmem
    obtain ⟨y, hy, hext⟩ := hkept e hmem
    rw [hy]
    exact hext

theorem comparableMetadata_extend {d stored : Manifest} (h : d.stamp.StoredAs stored)
    (hd : (Json.obj (Json.comparableMetadata d.metadataFields)).Distinct) :
    (Json.obj (Json.comparableMetadata d.metadataFields)).Extends false
      (.obj (Json.comparableMetadata stored.metadataFields)) := by
  rw [Json.distinct_obj] at hd
  rw [Json.extends_obj]
  intro e he
  have hget := Entries.get?_of_mem hd.1 he
  by_cases hk : e.1 = "annotations"
  · rw [hk, Json.get?_comparableMetadata_annotations] at hget ⊢
    obtain ⟨x, hx, hext⟩ := comparableAnnotations_extend h (hd.2 e he) hget
    rw [show Entries.get? stored.metadataFields "annotations" =
      stored.metadata.toJson.field? "annotations" from rfl, hx]
    exact hext
  · rw [Json.get?_comparableMetadata _ hk] at hget ⊢
    split at hget
    · cases hget
    · rename_i hs
      obtain ⟨x, hx, hext⟩ := h.metadata e.1 e.2 hs ((field?_stamp_metadata d hk).trans hget)
      rw [if_neg hs, show Entries.get? stored.metadataFields e.1 =
        stored.metadata.toJson.field? e.1 from rfl, hx]
      exact hext

theorem get?_allFields (m : Manifest) {key : String} (h : key ≠ "metadata") :
    Entries.get? m.allFields key =
      (m.types.bind (·.field? key)).or (Entries.get? m.fields key) := by
  unfold allFields toJson
  cases m.types with
  | none => exact Entries.get?_put_of_ne _ _ h
  | some t =>
    show Entries.get? (Entries.put (Entries.put (Entries.put m.fields "metadata" _) "apiVersion" _)
      "kind" _) key = _
    by_cases hk : key = "kind"
    · subst hk
      simp [Entries.get?_put_self, TypeNames.field?]
    · rw [Entries.get?_put_of_ne _ _ hk]
      by_cases ha : key = "apiVersion"
      · subst ha
        simp [Entries.get?_put_self, TypeNames.field?]
      · rw [Entries.get?_put_of_ne _ _ ha, Entries.get?_put_of_ne _ _ h]
        simp [hk, ha, TypeNames.field?]

theorem get?_comparableFields (m : Manifest) {key : String} (h : key ≠ "metadata") :
    Entries.get? m.comparableFields key =
      if key = "status" then none else Entries.get? m.allFields key := by
  unfold comparableFields
  rw [Entries.get?_put_of_ne _ _ h]
  by_cases hs : key = "status"
  · rw [hs, if_pos rfl, Entries.get?_remove_self]
  · rw [if_neg hs, Entries.get?_remove_of_ne _ hs]

/-- The comparable part of a stored object extends the one that is desired. -/
theorem comparable_extends {d stored : Manifest} (h : d.stamp.StoredAs stored)
    (hd : d.comparable.Distinct) : d.comparable.Extends true stored.comparable := by
  rw [comparable_eq] at hd
  rw [comparable_eq, comparable_eq, Json.extends_obj]
  rw [Json.distinct_obj] at hd
  rintro ⟨key, v⟩ he
  have hget := Entries.get?_of_mem hd.1 he
  dsimp only
  by_cases hm : key = "metadata"
  · subst hm
    have hmeta (m : Manifest) : Entries.get? m.comparableFields "metadata" =
        some (.obj (Json.comparableMetadata m.metadataFields)) := Entries.get?_put_self _ _ _
    rw [hmeta] at hget ⊢
    cases hget
    exact (comparableMetadata_extend h (hd.2 _ he)).dropping
  · rw [get?_comparableFields _ hm] at hget ⊢
    by_cases hs : key = "status"
    · rw [if_pos hs] at hget
      cases hget
    · rw [if_neg hs, get?_allFields _ hm] at hget ⊢
      have htypes : stored.types = d.types := h.types
      rw [htypes]
      cases ht : d.types.bind (·.field? key) with
      | some w =>
        rw [ht] at hget
        cases hget
        obtain ⟨t, _, hw⟩ := Option.bind_eq_some_iff.1 ht
        exact TypeNames.extends_field? hw true
      | none =>
        rw [ht, Option.none_or] at hget
        have hkept := h.fields key v hs hget
        rw [Option.none_or]
        cases hx : Entries.get? stored.fields key with
        | none =>
          rw [hx] at hkept
          exact ⟨rfl, hkept⟩
        | some x =>
          rw [hx] at hkept
          exact hkept

/-- A just-written object is no drift. -/
theorem needsUpdate_of_storedAs {d stored : Manifest} (h : d.stamp.StoredAs stored)
    (hd : d.comparable.Distinct) : stored.needsUpdate d = false := by
  refine Json.not_differs d.comparable (comparable_extends h hd) fun l hl => ?_
  have htext : d.stamp.metadata.annotation? lastAppliedAnnotation = some d.comparable.render :=
    Entries.get?_put_self _ _ _
  rw [lastApplied?, h.annotation? htext] at hl
  exact Json.covers_of_parse?_render hd hl

end Manifest
end MailCapture
