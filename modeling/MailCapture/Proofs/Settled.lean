import MailCapture.Proofs.Hosted
import MailCapture.Proofs.Reading
import MailCapture.Proofs.Stamped
/-!
One write settles the drift.  Whatever a server sets, adds and leaves out when it is given a stamped
object, what it has afterwards is no drift against the object that was desired.
-/
namespace MailCapture

namespace Manifest

/-- Whether a server that is given an object may have another one for it: with status and metadata
of its own, with more fields at any depth and maybe on its way out.  Metadata are kept otherwise; of
the rest, what is zero may be left out. -/
structure ServedAs (m served : Manifest) : Prop where
  types : served.types = m.types
  metadata : ∀ key v, key ∉ serverMetadata → m.metadata.toJson.field? key = some v →
    ∃ x, served.metadata.toJson.field? key = some x ∧ v.Extends false x
  fields : ∀ key v, key ≠ "status" → Entries.get? m.fields key = some v →
    v.IsKept (Entries.get? served.fields key)

variable {m d served : Manifest}

theorem StoredAs.servedAs (h : m.StoredAs served) : m.ServedAs served :=
  ⟨h.types, h.metadata, h.fields⟩

/-- Without the metadata of the server an object is none that is on its way out. -/
theorem ServedAs.storedAs (h : m.ServedAs served) :
    m.StoredAs (served.withMetadata (·.withServer {})) where
  live := rfl
  types := h.types
  metadata key v hk hv := by
    obtain ⟨x, hx, hext⟩ := h.metadata key v hk hv
    exact ⟨x, (served.metadata.field?_withServer {} hk).trans hx, hext⟩
  fields := h.fields

theorem needsUpdate_withServer (served d : Manifest) (server : Metadata) :
    (served.withMetadata (·.withServer server)).needsUpdate d = served.needsUpdate d := by
  rw [needsUpdate, comparable_withServer]
  rfl

theorem needsUpdate_of_servedAs (h : d.stamp.ServedAs served) (hd : d.comparable.Distinct) :
    served.needsUpdate d = false := by
  rw [← needsUpdate_withServer served d {}]
  exact needsUpdate_of_storedAs h.storedAs hd

/-- The version that a write is based on is one of the things that the server sets. -/
theorem ServedAs.of_replacementFor {observed : Manifest}
    (h : (d.replacementFor observed).ServedAs served) : d.stamp.ServedAs served where
  types := h.types
  metadata key v hk hv := by
    refine h.metadata key v hk (Eq.trans ?_ hv)
    exact Metadata.field?_withServer d.stamp.metadata
      { d.stamp.metadata with resourceVersion := observed.metadata.resourceVersion } hk
  fields := h.fields

/-- One write settles the drift: an object that a server has for a stamped one, be it created or
written over an observed one, is no drift.  Stamping twice is stamping once, and it makes no
difference to what has to be replaced.  Whatever is read names nothing twice
(`distinct_of_read?`), and neither does a child of a record that was read
(`Instance.distinct_adopted`). -/
theorem drift_settled_by_write {d : Manifest} (hd : d.comparable.Distinct) :
    (∀ served : Manifest, d.stamp.ServedAs served → served.needsUpdate d = false) ∧
    (∀ observed served : Manifest, observed.needsUpdate d = true →
      (observed.settled d).ServedAs served →
      served.needsUpdate d = false) ∧
    (∀ observed served : Manifest, (d.replacementFor observed).ServedAs served →
      served.needsUpdate d = false) ∧
    d.stamp.stamp = d.stamp ∧
    ∀ observed : Manifest, observed.needsUpdate d.stamp = observed.needsUpdate d := by
  refine ⟨fun served h => needsUpdate_of_servedAs h hd, fun observed served hdrift h => ?_,
    fun observed served h => needsUpdate_of_servedAs h.of_replacementFor hd, d.stamp_stamp,
    fun observed => observed.needsUpdate_stamp d⟩
  rw [settled, if_pos hdrift] at h
  exact needsUpdate_of_servedAs h hd

/-- A deployment without a spec, as it is after a cluster has taken a write for it. -/
theorem drift_settled_by_write_deployment :
    let record : Instance :=
      ⟨{ name := some "mail", ns := some "dev", uid := some "u1" }, {}, none⟩
    ∃ d, record.adopted .deployment = .ok (some d) ∧
      let observed : Manifest := ⟨d.types, d.metadata, []⟩
      observed.needsUpdate d = true ∧
        ((observed.settled d).hosted .deployment (some "u2") (some 2) "7").needsUpdate d =
          false := by
  intro record
  have hs : record.spec.toJson.Distinct :=
    Spec.distinct_toJson (fun r hr => by cases hr) (fun a ha => by cases ha)
  obtain ⟨d, hd⟩ : ∃ d, record.adopted .deployment = .ok (some d) := ⟨_, rfl⟩
  have hdrift : (⟨d.types, d.metadata, []⟩ : Manifest).needsUpdate d = true := by
    cases hd
    decide +kernel
  have hserved : (d.stamp.basedOn d.stamp.metadata.resourceVersion).ServedAs
      (d.stamp.hosted .deployment (some "u2") (some 2) "7") :=
    (Instance.storedAs_stamped hs hd d.stamp.metadata.resourceVersion (some "u2") (some 2)
      "7").servedAs
  refine ⟨d, hd, hdrift, (drift_settled_by_write (Instance.distinct_adopted hs hd)).2.1 _ _
    hdrift ?_⟩
  rw [settled, if_pos hdrift]
  exact hserved

end Manifest
end MailCapture
