import MailCapture.Proofs.Completed
import MailCapture.Proofs.Stamped
/-!
Stores that keep what is written for a child: they leave empty values out of its spec, add fields of
their own and set server metadata, and that is all.  The cluster in memory is one of them.
-/
namespace MailCapture

structure Manifest.KeptAs (defaults : Defaults) (m stored : Manifest) : Prop where
  deletion : stored.metadata.deletionTimestamp = m.metadata.deletionTimestamp
  applied : stored.metadata.annotation? lastAppliedAnnotation =
    m.metadata.annotation? lastAppliedAnnotation
  comparable : stored.comparable = m.comparable.prunedSpec.completed defaults

/-- Whether no record asks for a field that a server adds to objects of a kind, or leaves an object
empty to which it adds some: then what is added depends on the kind alone. -/
def DefaultsUnset (defaults : Kind → Defaults) : Prop :=
  ∀ (i : Instance) (kind : ChildKind) d, i.adopted kind = .ok (some d) →
    d.comparable.Lacks (defaults kind.kind)

namespace Surroundings
variable {σ : Type}

def MayPut (w : Surroundings σ) (defaults : Defaults) (s : σ) (c : StoreCall) (kind : Kind)
    (m : Manifest) : Prop :=
  w.contents (w.reply c s).2 = w.contents s ∨
    ∃ key stored, m.key? = .ok key ∧ m.KeptAs defaults stored ∧
      w.contents (w.reply c s).2 = (w.contents s).withObject kind key (some stored)

/-- The rules of a store that keeps what is written and adds fields by kind.  Any write may be
refused. -/
structure Hosts (w : Surroundings σ) (defaults : Kind → Defaults) : Prop
    extends w.IsSequential where
  create : ∀ s (kind : ChildKind) m, Entries.Ascending m.fields →
    w.MayPut (defaults kind.kind) s (.create kind.kind m) kind.kind m
  replace : ∀ s (kind : ChildKind) m, Entries.Ascending m.fields →
    w.MayPut (defaults kind.kind) s (.replace kind.kind m) kind.kind m
  /-- what is deleted is gone at once -/
  remove : ∀ s (kind : ChildKind) key grace,
    w.contents (w.reply (.delete kind.kind key grace) s).2 = w.contents s ∨
      w.contents (w.reply (.delete kind.kind key grace) s).2 =
        (w.contents s).withObject kind.kind key none
  replaceStatus : ∀ s (record : Instance) status,
    w.contents (w.reply (.replaceStatus { record with status := some status }) s).2 =
        w.contents s ∨
      ∃ current version managed, (w.contents s).record? record.key = some current ∧
        w.contents (w.reply (.replaceStatus { record with status := some status }) s).2 =
          (w.contents s).withRecord record.key (current.rewritten status version managed)

end Surroundings

namespace Json

mutual

/-- Where nothing is added a value stays as it is. -/
theorem completed_none : (v : Json) → v.completed (fun _ => []) = v
  | .null => rfl
  | .bool _ => rfl
  | .int _ => rfl
  | .double _ => rfl
  | .str _ => rfl
  | .arr items => congrArg arr (completedItems_none items)
  | .obj fields => congrArg obj (completedFields_none fields)

theorem completedItems_none : (items : List Json) → completedItems (fun _ => []) items = items
  | [] => rfl
  | v :: rest => by
    rw [completedItems, completed_none v, completedItems_none rest]

theorem completedFields_none : (fields : List (String × Json)) →
    completedFields (fun _ => []) fields = fields
  | [] => rfl
  | (key, v) :: rest => by
    have hv : v.completed (Defaults.under (fun _ => []) (.field key)) = v := completed_none v
    rw [completedFields, hv, completedFields_none rest]

end

end Json

namespace Manifest

/-- The version that an update is based on does not matter for what is kept. -/
theorem KeptAs.of_replacementFor {defaults : Defaults} {d o stored : Manifest}
    (h : (d.replacementFor o).KeptAs defaults stored) : d.stamp.KeptAs defaults stored where
  deletion := h.deletion
  applied := h.applied
  comparable := by
    rw [h.comparable, comparable_replacementFor, comparable_stamp]

end Manifest

namespace Cluster

def defaults (kind : Kind) : Defaults := fun place =>
  if kind = .deployment ∧ place = [.field "spec"] then
    [("revisionHistoryLimit", .int 10), ("progressDeadlineSeconds", .int 600)]
  else []

theorem under_defaults_of_ne (kind : Kind) {key : String} (h : key ≠ "spec") :
    (defaults kind).under (.field key) = fun _ => [] := by
  funext place
  exact if_neg fun hplace => h (by simpa using (List.cons.inj hplace.2).1)

theorem defaults_spec {kind : Kind} (h : kind = .deployment) :
    (defaults kind).under (.field "spec") [] =
      [("revisionHistoryLimit", .int 10), ("progressDeadlineSeconds", .int 600)] :=
  if_pos ⟨h, rfl⟩

theorem under_under_defaults (kind : Kind) (step : Json.Step) :
    ((defaults kind).under (.field "spec")).under step = fun _ => [] := by
  funext place
  exact if_neg (by simp)

theorem completed_defaults_spec (kind : Kind) (v : Json) :
    v.pruned.completed ((defaults kind).under (.field "spec")) = Manifest.storedSpec kind v := by
  unfold Manifest.storedSpec
  by_cases hk : kind = .deployment
  · rw [if_pos hk]
    cases v.pruned
    case arr items =>
      rw [Json.completed, under_under_defaults, Json.completedItems_none]
      rfl
    case obj fields =>
      have hfields : Json.completedFields ((defaults kind).under (.field "spec")) fields =
          fields := by
        rw [Json.completedFields_eq]
        refine (List.map_congr_left fun e _ => ?_).trans (List.map_id fields)
        rw [under_under_defaults, Json.completed_none]
        rfl
      rw [Json.completed, defaults_spec hk, hfields]
      rfl
    all_goals rfl
  · have hnone : (defaults kind).under (.field "spec") = fun _ => [] := by
      funext place
      exact if_neg fun h => hk h.1
    rw [if_neg hk, hnone, Json.completed_none]

end Cluster

namespace Entries
variable {α : Type}

/-- The order of a map is that of its names. -/
theorem Ascending.of_names {β : Type} {m : Entries α} {n : Entries β} (h : Ascending m)
    (hnames : n.map Prod.fst = m.map Prod.fst) : Ascending n := by
  unfold Ascending at h ⊢
  rw [← List.pairwise_map (f := Prod.fst)] at h ⊢
  rwa [hnames]

end Entries

namespace Manifest

theorem ascending_comparableFields {m : Manifest} (h : Entries.Ascending m.fields) :
    Entries.Ascending m.comparableFields :=
  Entries.ascending_putText (Entries.ascending_remove (ascending_allFields h) _) _ _

theorem ascending_normalized {m : Manifest} (h : Entries.Ascending m.fields) (kind : Kind) :
    Entries.Ascending (m.normalized kind).fields := by
  have hpruned := h.of_names (Entries.names_update Json.pruned m.fields "spec")
  unfold normalized
  dsimp only
  split
  · exact Entries.ascending_putText (hpruned.of_names (Entries.names_update _ _ _)) _ _
  · exact hpruned

theorem get?_comparableFields_metadata (m : Manifest) :
    Entries.get? m.comparableFields "metadata" =
      some (.obj (Json.comparableMetadata m.metadataFields)) := Entries.get?_put_self _ _ _

theorem get?_comparableFields_spec (m : Manifest) :
    Entries.get? m.comparableFields "spec" = Entries.get? m.fields "spec" := by
  have htypes : m.types.bind (·.field? "spec") = none := by
    cases m.types <;> rfl
  rw [get?_comparableFields _ (by decide), if_neg (by decide), get?_allFields _ (by decide), htypes,
    Option.none_or]

/-- A field of what the cluster in memory makes of an object, as it is compared. -/
theorem get?_comparableFields_normalized (m : Manifest) (kind : Kind) (key : String) :
    Entries.get? (m.normalized kind).comparableFields key =
      if key = "spec" then (Entries.get? m.comparableFields key).map (storedSpec kind)
      else Entries.get? m.comparableFields key := by
  by_cases hspec : key = "spec"
  · subst hspec
    rw [if_pos rfl, get?_comparableFields_spec, get?_comparableFields_spec,
      get?_normalized _ _ (by decide), if_pos rfl]
  · rw [if_neg hspec]
    by_cases hm : key = "metadata"
    · subst hm
      rw [get?_comparableFields_metadata, get?_comparableFields_metadata, metadataFields,
        metadata_normalized]
      rfl
    · rw [get?_comparableFields _ hm, get?_comparableFields _ hm]
      by_cases hs : key = "status"
      · rw [if_pos hs, if_pos hs]
      · rw [if_neg hs, if_neg hs, get?_allFields _ hm, get?_allFields _ hm, types_normalized,
          get?_normalized _ _ hs, if_neg hspec]

theorem comparable_normalized (m : Manifest) (kind : Kind) (hf : Entries.Ascending m.fields) :
    (m.normalized kind).comparable =
      m.comparable.prunedSpec.completed (Cluster.defaults kind) := by
  have hroot : Cluster.defaults kind [] = [] := if_neg (by simp)
  rw [comparable_eq, comparable_eq, Json.prunedSpec, Json.completed, hroot, Json.completedFields_eq]
  refine congrArg Json.obj (Entries.Ascending.ext ?_ ?_ fun key => ?_)
  · exact ascending_comparableFields (ascending_normalized hf kind)
  · refine (ascending_comparableFields hf).of_names ?_
    rw [← Entries.names_update Json.pruned m.comparableFields "spec"]
    exact List.map_map
  · rw [get?_comparableFields_normalized]
    refine Eq.trans ?_ (Entries.get?_mapValues
      (fun k => Json.completed ((Cluster.defaults kind).under (.field k))) _ key).symm
    rw [Entries.get?_update]
    by_cases hk : key = "spec"
    · subst hk
      rw [if_pos rfl, if_pos rfl, Option.map_map]
      congr 1
      funext v
      exact (Cluster.completed_defaults_spec kind v).symm
    · rw [if_neg hk, if_neg hk, Cluster.under_defaults_of_ne kind hk]
      have hid : Json.completed (fun _ => []) = id := funext Json.completed_none
      rw [hid, Option.map_id]
      rfl

/-- The cluster in memory keeps what is written, with its defaults. -/
theorem keptAs_hosted (m : Manifest) (kind : Kind) (hf : Entries.Ascending m.fields)
    (uid : Option String) (generation : Option Int64) (version : String) :
    m.KeptAs (Cluster.defaults kind) (m.hosted kind uid generation version) where
  deletion := by rw [metadata_hosted]
  applied := by
    rw [metadata_hosted]
    rfl
  comparable := by
    have hserver : m.hosted kind uid generation version =
        (m.normalized kind).withMetadata (·.withServer { m.metadata with
          uid := uid, generation := generation, resourceVersion := some version }) := by
      unfold hosted basedOn identified withMetadata normalized
      dsimp only
      split <;> rfl
    rw [hserver, comparable_withServer, comparable_normalized m kind hf]

end Manifest

namespace Json

mutual

theorem lacks_none : (v : Json) → v.Lacks (fun _ => [])
  | .null => by simp [Lacks]
  | .bool _ => by simp [Lacks]
  | .int _ => by simp [Lacks]
  | .double _ => by simp [Lacks]
  | .str _ => by simp [Lacks]
  | .arr items => by
    rw [Lacks]
    exact itemsLack_none items
  | .obj fields => by
    rw [Lacks]
    exact ⟨by simp, by simp, fieldsLack_none fields⟩

theorem itemsLack_none : (items : List Json) → ItemsLack (fun _ => []) items
  | [] => by simp [ItemsLack]
  | v :: rest => by
    rw [ItemsLack]
    exact ⟨lacks_none v, itemsLack_none rest⟩

theorem fieldsLack_none : (fields : List (String × Json)) → FieldsLack (fun _ => []) fields
  | [] => by simp [FieldsLack]
  | (key, v) :: rest => by
    rw [FieldsLack]
    exact ⟨lacks_none v, fieldsLack_none rest⟩

end

end Json

namespace Cluster

theorem contents_reply {c d : Cluster} {call : StoreCall} {r : Except Failure call.Answer}
    (h : c.answer call = (r, d)) : surroundings.contents (surroundings.reply call c).2 =
      surroundings.contents d := congrArg (surroundings.contents ·.2) h

theorem surroundings_hosts : surroundings.Hosts defaults where
  toIsSequential := surroundings_isSequential
  create c kind m hf := by
    cases hkey : m.key? with
    | error f =>
      have hreply : c.answer (.create kind.kind m) = (.error f, c) := by rw [answer, hkey]
      exact Or.inl (contents_reply hreply)
    | ok key =>
      have hreply : c.answer (.create kind.kind m) = c.create kind.kind key m := by
        rw [answer, hkey]
      by_cases hhas : Entries.has c.objects ⟨kind.kind, key⟩ = true
      · exact Or.inl (contents_reply (hreply.trans (if_pos hhas)))
      · refine Or.inr ⟨key, _, hkey, m.keptAs_hosted kind.kind hf (some (uidOf ⟨kind.kind, key⟩))
          (some 1) c.nextVersion, ?_⟩
        exact (contents_reply (hreply.trans (if_neg hhas))).trans (contents_putObject c kind key _)
  replace c kind m hf := by
    cases hkey : m.key? with
    | error f =>
      have hreply : c.answer (.replace kind.kind m) = (.error f, c) := by rw [answer, hkey]
      exact Or.inl (contents_reply hreply)
    | ok key =>
      have hreply : c.answer (.replace kind.kind m) = c.replace kind.kind key m := by
        rw [answer, hkey]
      unfold replace at hreply
      dsimp only at hreply
      split at hreply
      · exact Or.inl (contents_reply hreply)
      · rename_i current _
        split at hreply
        · exact Or.inl (contents_reply hreply)
        · split at hreply
          · exact Or.inl (contents_reply hreply)
          · refine Or.inr ⟨key, _, hkey, m.keptAs_hosted kind.kind hf current.metadata.uid
              (current.metadata.generation.map (· + 1)) c.nextVersion, ?_⟩
            exact (contents_reply hreply).trans (contents_putObject c kind key _)
  remove c kind key grace := by
    have hreply : c.answer (.delete kind.kind key grace) = c.delete kind.kind key := rfl
    unfold delete at hreply
    dsimp only at hreply
    split at hreply
    · exact Or.inr ((contents_reply hreply).trans (contents_removeObject c kind key))
    · exact Or.inl (contents_reply hreply)
  replaceStatus c record status := by
    let new : Instance := { record with status := some status }
    have hreply : c.answer (.replaceStatus new) = c.replaceStatus new := rfl
    unfold replaceStatus at hreply
    dsimp only at hreply
    split at hreply
    · exact Or.inl (contents_reply hreply)
    · rename_i current hcurrent
      split at hreply
      · exact Or.inl (contents_reply hreply)
      · refine Or.inr ⟨current, some c.nextVersion, current.metadata.managedFields, hcurrent, ?_⟩
        exact (contents_reply hreply).trans (contents_putRecord c _ _)

theorem lacks_deployment_spec (i : Instance) {v : Json}
    (h : Entries.get? i.deployment.toManifest.fields "spec" = some v) :
    v.Lacks ((defaults .deployment).under (.field "spec")) := by
  cases h
  rw [Wire.record, Json.Lacks, Json.fieldsLack_iff, defaults_spec rfl]
  refine ⟨by simp [Entries.get?], by simp, fun e _ => ?_⟩
  rw [under_under_defaults]
  exact Json.lacks_none _

/-- The two fields that the cluster in memory adds to a deployment are asked for by no record. -/
theorem defaults_unset : DefaultsUnset defaults := by
  intro i kind d hd
  by_cases hk : kind = .deployment
  · subst hk
    obtain ⟨m, hm, hf⟩ := Instance.fields_adopted hd
    have hfields : d.fields = i.deployment.toManifest.fields := by
      unfold ChildKind.desired at hm
      split at hm
      · cases hm
        exact hf
      · cases hm
    have hroot : defaults Kind.deployment [] = [] := if_neg (by simp)
    rw [Manifest.comparable_eq, Json.Lacks, Json.fieldsLack_iff]
    show (∀ e ∈ defaults Kind.deployment [], _) ∧ (_ → defaults Kind.deployment [] = []) ∧ _
    rw [hroot]
    refine ⟨by simp, by simp, fun e he => ?_⟩
    by_cases hspec : e.1 = "spec"
    · have hasc : Entries.Ascending d.fields := by
        rw [hf]
        exact Instance.ascending_desired hm
      have hget := Entries.get?_of_mem (Manifest.ascending_comparableFields hasc).distinct he
      rw [hspec, Manifest.get?_comparableFields_spec, hfields] at hget
      exact hspec ▸ lacks_deployment_spec i hget
    · show e.2.Lacks ((defaults Kind.deployment).under (.field e.1))
      rw [under_defaults_of_ne _ hspec]
      exact Json.lacks_none _
  · have hnone : defaults kind.kind = fun _ => [] := by
      funext place
      exact if_neg fun h => hk (ChildKind.kind_inj (b := .deployment) h.1)
    rw [hnone]
    exact Json.lacks_none _

end Cluster
end MailCapture
