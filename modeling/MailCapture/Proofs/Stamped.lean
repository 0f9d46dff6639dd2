import MailCapture.Proofs.Stored
import MailCapture.Proofs.Written
/-!
A stamp is no part of what is compared: a stamped object compares as it did before, and stamping it
again changes nothing.
-/
namespace MailCapture

namespace Entries
variable {α : Type}

theorem put_put_self (m : Entries α) (key : String) (v w : α) :
    put (put m key v) key w = put m key w := by
  induction m with
  | nil => simp [put]
  | cons e rest ih =>
    obtain ⟨k, x⟩ := e
    by_cases hk : k = key
    · simp [put, hk]
    · by_cases hlt : key < k
      · simp [put, hk, hlt]
      · simp [put, hk, hlt, ih]

theorem put_comm_of_lt (m : Entries α) {key other : String} (hlt : key < other) (v w : α) :
    put (put m key v) other w = put (put m other w) key v := by
  have hne : key ≠ other := fun he => String.lt_irrefl other (he ▸ hlt)
  have hgt : ¬ other < key := String.lt_asymm hlt
  -- a smaller key in front is passed by
  have hfront (rest : Entries α) :
      put ((key, v) :: rest) other w = (key, v) :: put rest other w := by
    simp [put, hne, hgt]
  induction m with
  | nil => simp [put, hne, hne.symm, hlt, hgt]
  | cons e rest ih =>
    obtain ⟨k, y⟩ := e
    by_cases hk : k = key
    · subst hk
      simp [put, hne, hgt]
    · by_cases hkey : key < k
      · have hleft : put ((k, y) :: rest) key v = (key, v) :: (k, y) :: rest := by
          simp [put, hk, hkey]
        rw [hleft, hfront]
        by_cases ho : k = other
        · simp [put, ho, hne.symm, hlt]
        · by_cases hol : other < k
          · simp [put, ho, hol, hne.symm, hlt]
          · simp [put, ho, hol, hk, hkey]
      · have ho : k ≠ other := fun he => hkey (he ▸ hlt)
        have hol : ¬ other < k := fun hc => hkey (String.lt_trans hlt hc)
        simp [put, hk, hkey, ho, hol, ih]

/-- Values for two keys may be written in any order. -/
theorem put_comm (m : Entries α) {key other : String} (h : other ≠ key) (v w : α) :
    put (put m key v) other w = put (put m other w) key v := by
  by_cases hlt : key < other
  · exact put_comm_of_lt m hlt v w
  · have hgt : other < key := Decidable.byContradiction fun hng =>
      h (String.le_antisymm (String.not_lt.1 hlt) (String.not_lt.1 hng))
    exact (put_comm_of_lt m hgt w v).symm

/-- A value that is written over is as good as written first. -/
theorem put_put_put (m : Entries α) {key other : String} (h : other ≠ key) (v w x : α) :
    put (put (put m key v) other x) key w = put (put m key w) other x := by
  rw [put_comm m h, put_put_self, put_comm m h]

theorem remove_cons (k : String) (y : α) (rest : Entries α) (other : String) :
    remove ((k, y) :: rest) other =
      if k = other then remove rest other else (k, y) :: remove rest other := by
  by_cases h : k = other <;> simp [remove, h]

theorem put_remove_put (m : Entries α) {key other : String} (h : other ≠ key) (v w : α) :
    put (remove (put m key v) other) key w = remove (put m key w) other := by
  have hbefore (rest : Entries α) : put (remove ((key, v) :: rest) other) key w =
      remove ((key, w) :: rest) other := by
    simp [remove_cons, put, Ne.symm h]
  induction m with
  | nil => exact hbefore []
  | cons e rest ih =>
    obtain ⟨k, y⟩ := e
    by_cases hk : k = key
    · simpa [put, hk] using hbefore rest
    · by_cases hlt : key < k
      · simpa [put, hk, hlt] using hbefore ((k, y) :: rest)
      · by_cases ho : k = other
        · subst ho
          simpa [put, hk, hlt, remove_cons] using ih
        · simp [put, hk, hlt, remove_cons, ho, ih]

theorem remove_put_self (m : Entries α) (key : String) (v : α) :
    remove (put m key v) key = remove m key := filter_put (fun _ => by simp) m v

end Entries

/-- Annotations compare without the stamp. -/
theorem Json.comparableAnnotations?_stringMap (a : Entries String) :
    comparableAnnotations? (Wire.stringMap a) =
      if (Entries.remove a lastAppliedAnnotation).isEmpty then none
      else some (Wire.stringMap (Entries.remove a lastAppliedAnnotation)) := by
  have hmap : Entries.remove (a.map (fun e => (e.1, Json.str e.2))) lastAppliedAnnotation =
      (Entries.remove a lastAppliedAnnotation).map (fun e => (e.1, Json.str e.2)) := by
    rw [Entries.remove, List.filter_map]
    rfl
  unfold comparableAnnotations? Wire.stringMap
  dsimp only
  rw [hmap, List.isEmpty_map]

namespace Manifest

def fieldsUnder (m : Manifest) (metadata : Json) : Entries Json :=
  match m.types with
  | none => Entries.put m.fields "metadata" metadata
  | some t => Entries.put (Entries.put (Entries.put m.fields "metadata" metadata)
      "apiVersion" (.str t.apiVersion)) "kind" (.str t.kind)

theorem allFields_eq (m : Manifest) : m.allFields = m.fieldsUnder m.metadata.toJson := by
  unfold allFields toJson fieldsUnder
  cases m.types <;> rfl

theorem put_fieldsUnder (m : Manifest) (v w : Json) :
    Entries.put (m.fieldsUnder v) "metadata" w = m.fieldsUnder w := by
  unfold fieldsUnder
  cases m.types with
  | none => exact Entries.put_put_self _ _ _ _
  | some t =>
    have hinner (u : Json) := Entries.put_put_put m.fields
      (show "apiVersion" ≠ "metadata" by decide) v u (.str t.apiVersion)
    dsimp only
    rw [← hinner v, Entries.put_put_put _ (by decide), hinner w]

/-- The comparable part of an object is that of its metadata among its other fields. -/
theorem comparableFields_eq (m : Manifest) : m.comparableFields =
    Entries.remove (m.fieldsUnder (.obj (Json.comparableMetadata m.metadataFields))) "status" := by
  have hput (v w : Json) : Entries.put (Entries.remove (m.fieldsUnder v) "status") "metadata" w =
      Entries.remove (m.fieldsUnder w) "status" := by
    rw [← put_fieldsUnder m v v, Entries.put_remove_put _ (by decide), put_fieldsUnder]
  rw [comparableFields, allFields_eq, hput]

/-- Metadata compare by the fields that the server does not set. -/
theorem comparableMetadata_congr {m n : Manifest}
    (hkeys : ∀ key, key ∉ serverMetadata → key ≠ "annotations" →
      m.metadata.toJson.field? key = n.metadata.toJson.field? key)
    (hannotations : (m.metadata.toJson.field? "annotations").bind Json.comparableAnnotations? =
      (n.metadata.toJson.field? "annotations").bind Json.comparableAnnotations?) :
    Json.comparableMetadata m.metadataFields = Json.comparableMetadata n.metadataFields := by
  apply Entries.Ascending.ext
  · exact Json.ascending_comparableMetadata m.ascending_metadataFields
  · exact Json.ascending_comparableMetadata n.ascending_metadataFields
  · intro key
    by_cases hk : key = "annotations"
    · subst hk
      rw [Json.get?_comparableMetadata_annotations, Json.get?_comparableMetadata_annotations]
      exact hannotations
    · rw [Json.get?_comparableMetadata _ hk, Json.get?_comparableMetadata _ hk]
      by_cases hs : key ∈ serverMetadata
      · rw [if_pos hs, if_pos hs]
      · rw [if_neg hs, if_neg hs]
        exact hkeys key hs hk

theorem comparableMetadata_stamp (m : Manifest) :
    Json.comparableMetadata m.stamp.metadataFields = Json.comparableMetadata m.metadataFields := by
  refine comparableMetadata_congr (fun key _ hk => m.field?_stamp_metadata hk) ?_
  rw [Metadata.field?_annotations, Metadata.field?_annotations]
  show Json.comparableAnnotations? (Wire.stringMap (Entries.put _ _ _)) = _
  rw [Json.comparableAnnotations?_stringMap, Entries.remove_put_self]
  cases m.metadata.annotations with
  | none => rfl
  | some a => exact (Json.comparableAnnotations?_stringMap a).symm

/-- What the server sets in the metadata does not count in a comparison. -/
theorem comparable_withServer (m : Manifest) (server : Metadata) :
    (m.withMetadata (·.withServer server)).comparable = m.comparable := by
  have hmetadata : Json.comparableMetadata (m.withMetadata (·.withServer server)).metadataFields =
      Json.comparableMetadata m.metadataFields := by
    refine comparableMetadata_congr (fun key hk _ => m.metadata.field?_withServer server hk) ?_
    exact congrArg (Option.bind · Json.comparableAnnotations?)
      (m.metadata.field?_withServer server (by decide))
  rw [comparable_eq, comparable_eq, comparableFields_eq, comparableFields_eq, hmetadata]
  rfl

/-- An object compares the same with a stamp of its own. -/
theorem comparable_stamp (m : Manifest) : m.stamp.comparable = m.comparable := by
  have hunder (v : Json) : m.stamp.fieldsUnder v = m.fieldsUnder v := rfl
  rw [comparable_eq, comparable_eq, comparableFields_eq, comparableFields_eq,
    comparableMetadata_stamp, hunder]

theorem needsUpdate_stamp (observed desired : Manifest) :
    observed.needsUpdate desired.stamp = observed.needsUpdate desired := by
  rw [needsUpdate, needsUpdate, comparable_stamp]

/-- Stamping again writes the same stamp over. -/
theorem stamp_stamp (m : Manifest) : m.stamp.stamp = m.stamp := by
  have htwice : m.stamp.stamp = m.withMetadata (fun metadata => { metadata with
      annotations := some (Entries.put (Entries.put (metadata.annotations.getD [])
        lastAppliedAnnotation m.comparable.render) lastAppliedAnnotation
          m.stamp.comparable.render) }) := rfl
  rw [htwice, comparable_stamp]
  simp only [Entries.put_put_self]
  rfl

/-- The version that an update is based on does not count in a comparison. -/
theorem comparable_replacementFor (desired observed : Manifest) :
    (desired.replacementFor observed).comparable = desired.comparable := by
  rw [← desired.comparable_stamp]
  exact desired.stamp.comparable_withServer
    { desired.stamp.metadata with resourceVersion := observed.metadata.resourceVersion }

theorem replacementFor_stamp (desired observed : Manifest) :
    desired.stamp.replacementFor observed = desired.replacementFor observed := by
  rw [replacementFor, stamp_stamp, replacementFor]

end Manifest
end MailCapture
