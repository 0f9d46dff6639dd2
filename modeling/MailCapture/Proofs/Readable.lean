import MailCapture.Proofs.Roundtrip
import MailCapture.Proofs.Written
/-!
What is applied for a child is read back from its stamp as it was written: no child has a double, a
number of more than 64 bits or containers that are nested too deep.
-/
namespace MailCapture

namespace Json

@[simp] theorem fits_str (s : String) (n : Nat) : (str s).Fits n := by simp [Fits]

@[simp] theorem fits_bool (b : Bool) (n : Nat) : (bool b).Fits n := by simp [Fits]

@[simp] theorem fits_arr (items : List Json) (n : Nat) :
    (arr items).Fits (n + 1) ↔ ∀ v ∈ items, v.Fits n := by
  rw [Fits, itemsFit_iff]
  simp

@[simp] theorem fits_obj (fields : List (String × Json)) (n : Nat) :
    (obj fields).Fits (n + 1) ↔ ∀ e ∈ fields, e.2.Fits n := by
  rw [Fits, fieldsFit_iff]
  simp

end Json

namespace Wire

def FieldFits (n : Nat) (value : Option Json) : Prop := ∀ v, value = some v → v.Fits n

@[simp] theorem fieldFits_none (n : Nat) : FieldFits n none := fun _ h => nomatch h

@[simp] theorem fieldFits_some (n : Nat) (v : Json) : FieldFits n (some v) ↔ v.Fits n :=
  ⟨fun h => h v rfl, fun h _ he => Option.some.inj he ▸ h⟩

@[simp] theorem fieldFits_map {α : Type} (f : α → Json) (n : Nat) (value : Option α) :
    FieldFits n (value.map f) ↔ ∀ a, value = some a → (f a).Fits n := by
  cases value with
  | none => simp
  | some a => simp

@[simp] theorem fieldFits_unlessEmpty (s : String) (n : Nat) : FieldFits n (unlessEmpty s) := by
  cases hs : s.isEmpty <;> simp [unlessEmpty, hs]

theorem fits_record {fields : List (String × Option Json)} {n : Nat}
    (h : ∀ e ∈ fields, FieldFits n e.2) : (record fields).Fits (n + 1) := by
  rw [record, Json.fits_obj]
  intro e he
  obtain ⟨field, hmem, hfield⟩ := List.mem_filterMap.1 he
  obtain ⟨v, hv, rfl⟩ := Option.map_eq_some_iff.1 hfield
  exact h field hmem v hv

@[simp] theorem fits_strings (items : List String) (n : Nat) : (strings items).Fits (n + 1) := by
  simp [strings]

@[simp] theorem fits_stringMap (m : Entries String) (n : Nat) : (stringMap m).Fits (n + 1) := by
  rw [stringMap, Json.fits_obj]
  intro e he
  obtain ⟨f, _, rfl⟩ := List.mem_map.1 he
  exact Json.fits_str _ _

@[simp] theorem fits_int64 (k : Int64) (n : Nat) : (int64 k).Fits n := by
  rw [int64, Json.Fits]
  exact ⟨k.minValue_le_toInt, k.toInt_le⟩

@[simp] theorem fits_int32 (k : Int32) (n : Nat) : (int32 k).Fits n := by
  have hlow : -2147483648 ≤ k.toInt := k.minValue_le_toInt
  have hhigh : k.toInt ≤ 2147483647 := k.toInt_le
  rw [int32, Json.Fits]
  constructor
  · omega
  · omega

end Wire

@[simp] theorem NumberOrText.fits_toJson (v : NumberOrText) (n : Nat) : v.toJson.Fits n := by
  cases v <;> simp [toJson]

/-! ### Scheduling -/

@[simp] theorem Requirement.fits_toJson (r : Requirement) (n : Nat) : r.toJson.Fits (n + 2) :=
  Wire.fits_record (by simp)

@[simp] theorem Requirement.fits_listJson (rs : List Requirement) (n : Nat) :
    (listJson rs).Fits (n + 3) := by
  simp [listJson]

@[simp] theorem NodeSelectorTerm.fits_toJson (t : NodeSelectorTerm) (n : Nat) :
    t.toJson.Fits (n + 4) := Wire.fits_record (by simp)

@[simp] theorem PreferredNodes.fits_toJson (p : PreferredNodes) (n : Nat) :
    p.toJson.Fits (n + 5) := Wire.fits_record (by simp)

@[simp] theorem NodeAffinity.fits_termsJson (ts : List NodeSelectorTerm) (n : Nat) :
    (termsJson ts).Fits (n + 6) := Wire.fits_record (by simp)

@[simp] theorem NodeAffinity.fits_toJson (a : NodeAffinity) (n : Nat) : a.toJson.Fits (n + 7) :=
  Wire.fits_record (by simp)

@[simp] theorem LabelSelector.fits_toJson (s : LabelSelector) (n : Nat) : s.toJson.Fits (n + 4) :=
  Wire.fits_record (by simp)

@[simp] theorem PodAffinityTerm.fits_toJson (t : PodAffinityTerm) (n : Nat) :
    t.toJson.Fits (n + 5) := Wire.fits_record (by simp)

@[simp] theorem PreferredPods.fits_toJson (p : PreferredPods) (n : Nat) : p.toJson.Fits (n + 6) :=
  Wire.fits_record (by simp)

@[simp] theorem PodAffinity.fits_toJson (a : PodAffinity) (n : Nat) : a.toJson.Fits (n + 8) :=
  Wire.fits_record (by simp)

@[simp] theorem Affinity.fits_toJson (a : Affinity) (n : Nat) : a.toJson.Fits (n + 9) :=
  Wire.fits_record (by simp)

@[simp] theorem ResourceClaim.fits_toJson (c : ResourceClaim) (n : Nat) : c.toJson.Fits (n + 1) :=
  Wire.fits_record (by simp)

@[simp] theorem Resources.fits_toJson (r : Resources) (n : Nat) : r.toJson.Fits (n + 3) :=
  Wire.fits_record (by simp)

/-! ### Metadata -/

@[simp] theorem OwnerReference.fits_toJson (o : OwnerReference) (n : Nat) :
    o.toJson.Fits (n + 1) := Wire.fits_record (by simp)

@[simp] theorem Time.fits_toJson (t : Time) (n : Nat) : t.toJson.Fits n := by
  simp [toJson]

theorem Metadata.fits_toJson {m : Metadata} (h : m.managedFields = none) (n : Nat) :
    m.toJson.Fits (n + 3) := by
  refine Wire.fits_record ?_
  rw [h]
  simp

/-! ### Pod templates -/

@[simp] theorem EnvVar.fits_toJson (e : EnvVar) (n : Nat) : e.toJson.Fits (n + 1) :=
  Wire.fits_record (by simp)

@[simp] theorem ContainerPort.fits_toJson (p : ContainerPort) (n : Nat) : p.toJson.Fits (n + 1) :=
  Wire.fits_record (by simp)

@[simp] theorem HttpGet.fits_toJson (g : HttpGet) (n : Nat) : g.toJson.Fits (n + 1) :=
  Wire.fits_record (by simp)

/-- A structure of one field. -/
@[simp] theorem Wire.fits_record_singleton (key : String) (v : Json) (n : Nat) :
    (record [(key, some v)]).Fits (n + 1) ↔ v.Fits n := by
  simp [record]

@[simp] theorem Probe.fits_toJson (p : Probe) (n : Nat) : p.toJson.Fits (n + 2) :=
  Wire.fits_record (by simp)

@[simp] theorem VolumeMount.fits_toJson (m : VolumeMount) (n : Nat) : m.toJson.Fits (n + 1) :=
  Wire.fits_record (by simp)

@[simp] theorem Volume.fits_toJson (v : Volume) (n : Nat) : v.toJson.Fits (n + 2) := by
  refine Wire.fits_record ?_
  cases v.emptyDir <;> simp [Json.empty]

@[simp] theorem Container.fits_toJson (c : Container) (n : Nat) : c.toJson.Fits (n + 4) :=
  Wire.fits_record (by simp)

@[simp] theorem PodSpec.fits_toJson (s : PodSpec) (n : Nat) : s.toJson.Fits (n + 10) :=
  Wire.fits_record (by simp)

theorem PodTemplate.fits_toJson {t : PodTemplate}
    (h : ∀ m, t.metadata = some m → m.managedFields = none) (n : Nat) :
    t.toJson.Fits (n + 11) := by
  refine Wire.fits_record ?_
  have hm (m : Metadata) (hmeta : t.metadata = some m) : m.toJson.Fits (n + 10) :=
    Metadata.fits_toJson (h m hmeta) _
  simpa using hm

/-! ### Other structures -/

@[simp] theorem RollingParams.fits_toJson (p : RollingParams) (n : Nat) : p.toJson.Fits (n + 1) :=
  Wire.fits_record (by simp)

@[simp] theorem RolloutStrategy.fits_toJson (s : RolloutStrategy) (n : Nat) :
    s.toJson.Fits (n + 2) := Wire.fits_record (by simp)

@[simp] theorem ServicePort.fits_toJson (p : ServicePort) (n : Nat) : p.toJson.Fits (n + 1) :=
  Wire.fits_record (by simp)

@[simp] theorem RouteTarget.fits_toJson (t : RouteTarget) (n : Nat) : t.toJson.Fits (n + 1) :=
  Wire.fits_record (by simp)

@[simp] theorem RouteTls.fits_toJson (t : RouteTls) (n : Nat) : t.toJson.Fits (n + 1) :=
  Wire.fits_record (by simp)

@[simp] theorem RouteSpec.fits_toJson (s : RouteSpec) (n : Nat) : s.toJson.Fits (n + 2) :=
  Wire.fits_record (by simp [portJson])

@[simp] theorem IngressTls.fits_toJson (t : IngressTls) (n : Nat) : t.toJson.Fits (n + 2) :=
  Wire.fits_record (by simp)

@[simp] theorem IngressRule.fits_toJson (r : IngressRule) (n : Nat) : r.toJson.Fits (n + 7) := by
  refine Wire.fits_record ?_
  have hpath (backend : Json) (h : backend.Fits (n + 3)) : (Wire.record [
      ("backend", some backend),
      ("path", some (.str r.path)),
      ("pathType", some (.str "Prefix"))]).Fits (n + 4) :=
    Wire.fits_record (by simpa using h)
  have hbackend : (Wire.record [
      ("name", some (.str r.serviceName)),
      ("port", some (Wire.record [("name", some (.str r.portName))]))]).Fits (n + 2) :=
    Wire.fits_record (by simp)
  simp [hpath, hbackend]

/-! ### The children -/

namespace Instance
variable {i : Instance}

theorem fits_childMetadata (i : Instance) (owners : Option (List OwnerReference)) (n : Nat) :
    ({ i.childMetadata with ownerReferences := owners } : Metadata).toJson.Fits (n + 3) :=
  Metadata.fits_toJson rfl n

theorem fits_podTemplate (i : Instance) (n : Nat) : i.podTemplate.toJson.Fits (n + 11) := by
  refine PodTemplate.fits_toJson (fun m hm => ?_) n
  cases hm
  rfl

/-- Whatever child a record asks for, the fields of it fit. -/
theorem fits_desired {kind : ChildKind} {m : Manifest} (hd : kind.desired i = some m) (n : Nat) :
    ∀ e ∈ m.fields, e.2.Fits (n + 12) := by
  have htemplate : i.podTemplate.toJson.Fits (n + 11) := i.fits_podTemplate n
  unfold ChildKind.desired at hd
  split at hd
  · cases kind with
    | deployment =>
      cases hd
      refine List.forall_mem_singleton.2 (Wire.fits_record ?_)
      simpa [deployment] using htemplate
    | deploymentConfig =>
      cases hd
      refine List.forall_mem_singleton.2 (Wire.fits_record ?_)
      simpa [deploymentConfig, DeploymentConfigSpec.triggerJson] using htemplate
    | service =>
      cases hd
      exact List.forall_mem_singleton.2 (Wire.fits_record (by simp))
    | configMap =>
      obtain ⟨c, _, rfl⟩ := Option.map_eq_some_iff.1 hd
      simp [ConfigMap.toManifest]
    | route =>
      cases hd
      exact List.forall_mem_singleton.2 (RouteSpec.fits_toJson _ _)
    | ingress =>
      cases hd
      exact List.forall_mem_singleton.2 (Wire.fits_record (by simp))
  · cases hd

end Instance

/-! ### Comparable parts -/

theorem Json.fits_comparableAnnotations {v kept : Json} {n : Nat} (hv : v.Fits n)
    (h : comparableAnnotations? v = some kept) : kept.Fits n := by
  cases v
  case obj fields =>
    obtain ⟨_, rfl⟩ := comparableAnnotations?_obj.1 h
    rw [Fits, fieldsFit_iff] at hv ⊢
    exact ⟨hv.1, fun e he => hv.2 e (List.mem_filter.1 he).1⟩
  case null => cases h
  all_goals exact Option.some.inj h ▸ hv

theorem Json.fits_comparableMetadata {fields : Entries Json} {n : Nat}
    (h : ∀ e ∈ fields, e.2.Fits n) : ∀ e ∈ comparableMetadata fields, e.2.Fits n := by
  have hsub : ∀ e ∈ serverMetadata.foldl Entries.remove fields, e.2.Fits n :=
    fun e he => h e (Entries.mem_removeAll he)
  unfold comparableMetadata
  dsimp only
  split
  · exact hsub
  · rename_i v hget
    split
    · exact fun e he => hsub e (List.mem_filter.1 he).1
    · rename_i kept hkept
      intro e he
      cases Entries.mem_put he with
      | inl hnew =>
        rw [hnew]
        exact fits_comparableAnnotations (hsub _ (Entries.mem_of_get? hget)) hkept
      | inr hold => exact hsub e hold

/-- The comparable part of an object fits if its fields and metadata do. -/
theorem Manifest.fits_comparable {m : Manifest} {n : Nat} (hf : ∀ e ∈ m.fields, e.2.Fits (n + 1))
    (hm : m.metadata.toJson.Fits (n + 1)) : m.comparable.Fits (n + 2) := by
  rw [comparable_eq, Json.fits_obj]
  intro e he
  cases Entries.mem_put he with
  | inl hnew =>
    rw [hnew, Json.fits_obj]
    exact Json.fits_comparableMetadata ((Json.fits_obj _ _).1 hm)
  | inr hold =>
    rcases mem_allFields (List.mem_filter.1 hold).1 with hfield | hmetadata | ⟨s, hs⟩
    · exact hf e hfield
    · rw [hmetadata]
      exact hm
    · rw [hs]
      exact Json.fits_str _ _

namespace Instance
variable {i : Instance} {kind : ChildKind} {d : Manifest}

theorem fits_adopted (hd : i.adopted kind = .ok (some d)) :
    d.comparable.Fits Document.depthLimit := by
  obtain ⟨owner, hm⟩ := metadata_adopted hd
  obtain ⟨m, hk, hf⟩ := fields_adopted hd
  apply Manifest.fits_comparable
  · rw [hf]
    exact fits_desired hk _
  · rw [hm]
    exact i.fits_childMetadata _ _

/-- What is applied for a child is read back from its text. -/
theorem parse?_adopted (hd : i.adopted kind = .ok (some d)) :
    Json.parse? d.comparable.render = some d.comparable.inOrder :=
  Json.parse?_render (fits_adopted hd)

end Instance
end MailCapture
