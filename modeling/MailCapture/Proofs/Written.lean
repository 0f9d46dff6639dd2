import MailCapture.Proofs.Applied
import MailCapture.Proofs.Named
/-!
What the operator writes for a child has its names in order, given that the spec of the record has,
and names nothing twice, given that the spec does not.
-/
namespace MailCapture

namespace Entries
variable {α : Type}

/-! ### Maps in order -/

theorem ascending_putText {m : Entries α} (h : Ascending m) (key : String) (v : α) :
    Ascending (put m key v) :=
  ascending_put String.lt_trans
    (fun hne hlt => Decidable.byContradiction fun hgt =>
      hne (String.le_antisymm (String.not_lt.1 hlt) (String.not_lt.1 hgt))) h key v

theorem ascending_foldl {β : Type} {f : Entries α → β → Entries α}
    (hf : ∀ m b, Ascending m → Ascending (f m b)) {m : Entries α} (h : Ascending m)
    (items : List β) : Ascending (items.foldl f m) := by
  induction items generalizing m with
  | nil => exact h
  | cons b rest ih => exact ih (hf m b h)

theorem ascending_ofPairs (pairs : Entries α) : Ascending (ofPairs pairs) :=
  ascending_foldl (fun _ e h => ascending_putText h e.1 e.2) List.Pairwise.nil pairs

theorem mem_removeAll {keys : List String} {m : Entries α} {e : String × α}
    (h : e ∈ keys.foldl remove m) : e ∈ m := by
  induction keys generalizing m with
  | nil => exact h
  | cons key rest ih => exact (List.mem_filter.1 (ih h)).1

theorem ascending_remove {m : Entries α} (h : Ascending m) (key : String) :
    Ascending (remove m key) := List.Pairwise.filter _ h

theorem Ascending.get?_eq_none {m : Entries α} {key : String} (h : ∀ e ∈ m, key < e.1) :
    get? m key = none :=
  get?_eq_none_of_forall fun e he hk => String.lt_irrefl key (hk ▸ h e he)

theorem Ascending.lt_of_get? {m : Entries α} {k key : String} {x v : α}
    (h : Ascending ((k, x) :: m)) (hne : key ≠ k) (hv : get? ((k, x) :: m) key = some v) :
    k < key := by
  have hmem : (key, v) ∈ m := by
    rw [get?, if_neg (Ne.symm hne)] at hv
    exact mem_of_get? hv
  exact (List.pairwise_cons.1 h).1 _ hmem

/-- Maps in order that have the same values are the same. -/
theorem Ascending.ext {m n : Entries α} (hm : Ascending m) (hn : Ascending n)
    (h : ∀ key, get? m key = get? n key) : m = n := by
  induction m generalizing n with
  | nil =>
    cases n with
    | nil => rfl
    | cons e rest =>
      have hhead := h e.1
      rw [get?, get?, if_pos rfl] at hhead
      cases hhead
  | cons e rest ih =>
    obtain ⟨k, v⟩ := e
    have hk : get? n k = some v := by rw [← h, get?, if_pos rfl]
    cases n with
    | nil => cases hk
    | cons f others =>
      obtain ⟨l, w⟩ := f
      have hl : get? ((k, v) :: rest) l = some w := by rw [h, get?, if_pos rfl]
      have hkl : k = l := by
        refine Decidable.byContradiction fun hne => ?_
        have hlt := hm.lt_of_get? (Ne.symm hne) hl
        have hgt := hn.lt_of_get? hne hk
        exact String.lt_asymm hlt hgt
      subst hkl
      have hvw : v = w := by simpa [get?] using hl
      subst hvw
      obtain ⟨hbelow, htail⟩ := List.pairwise_cons.1 hm
      obtain ⟨hbelow', htail'⟩ := List.pairwise_cons.1 hn
      have hrest : rest = others := by
        apply ih htail htail'
        intro key
        by_cases hkey : key = k
        · rw [hkey, get?_eq_none hbelow, get?_eq_none hbelow']
        · have hboth := h key
          rwa [get?, get?, if_neg (Ne.symm hkey), if_neg (Ne.symm hkey)] at hboth
      rw [hrest]

end Entries

variable {N : List String → Prop}

theorem Json.Named.field {v x : Json} (h : v.Named N) (key : String)
    (hx : v.field? key = some x) : x.Named N := by
  cases v
  case obj fields => exact ((named_obj fields).1 h).2 _ (Entries.mem_of_get? hx)
  all_goals cases hx

theorem Json.Distinct.field {v x : Json} (h : v.Distinct) (key : String)
    (hx : v.field? key = some x) : x.Distinct :=
  (named_nodup_iff x).1 (((named_nodup_iff v).2 h).field key hx)

namespace Wire

def FieldNamed (N : List String → Prop) (value : Option Json) : Prop :=
  ∀ v, value = some v → v.Named N

@[simp] theorem fieldNamed_none : FieldNamed N none := fun _ h => nomatch h

@[simp] theorem fieldNamed_some (v : Json) : FieldNamed N (some v) ↔ v.Named N :=
  ⟨fun h => h v rfl, fun h _ he => Option.some.inj he ▸ h⟩

@[simp] theorem fieldNamed_map {α : Type} (f : α → Json) (value : Option α) :
    FieldNamed N (value.map f) ↔ ∀ a, value = some a → (f a).Named N := by
  cases value with
  | none => simp
  | some a => simp

/-- The names of the fields that are there, in their order. -/
theorem names_sublist (fields : List (String × Option Json)) :
    ((fields.filterMap (fun e => e.2.map (fun v => (e.1, v)))).map Prod.fst).Sublist
      (fields.map Prod.fst) := by
  induction fields with
  | nil => exact List.Sublist.refl _
  | cons e rest ih =>
    obtain ⟨key, v⟩ := e
    cases v with
    | none => exact ih.cons key
    | some v => exact ih.cons_cons key

@[simp] theorem named_strings (items : List String) : (strings items).Named N := by
  simp [strings, Json.named_arr]

@[simp] theorem named_int32 (n : Int32) : (int32 n).Named N := Json.named_int _

@[simp] theorem named_int64 (n : Int64) : (int64 n).Named N := Json.named_int _

end Wire

@[simp] theorem Time.named_toJson (t : Time) : t.toJson.Named N := by
  simp [toJson]

@[simp] theorem NumberOrText.named_toJson (v : NumberOrText) : v.toJson.Named N := by
  cases v <;> simp [toJson]

variable [Naming N]

namespace Wire

theorem named_record {fields : List (String × Option Json)}
    (h : inSequence (fields.map Prod.fst) = true) (hv : ∀ e ∈ fields, FieldNamed N e.2) :
    (record fields).Named N := by
  have hnames : N (fields.map Prod.fst) := Naming.of_ascending (pairwise_of_inSequence h)
  rw [record, Json.named_obj]
  refine ⟨Naming.of_sublist (names_sublist fields) hnames, ?_⟩
  · intro e he
    obtain ⟨field, hmem, hfield⟩ := List.mem_filterMap.1 he
    obtain ⟨w, hw, rfl⟩ := Option.map_eq_some_iff.1 hfield
    exact hv field hmem w hw

theorem named_stringMap {m : Entries String} (h : Entries.Ascending m) :
    (stringMap m).Named N := by
  rw [stringMap, Json.named_obj]
  constructor
  · rw [List.map_map]
    exact h.named
  · intro e he
    obtain ⟨f, _, rfl⟩ := List.mem_map.1 he
    exact Json.named_str f.2

end Wire

/-! ### Metadata -/

@[simp] theorem OwnerReference.named_toJson (o : OwnerReference) : o.toJson.Named N :=
  Wire.named_record (by simp +decide) (by simp)

theorem Metadata.named_toJson {m : Metadata}
    (ha : ∀ annotations, m.annotations = some annotations → Entries.Ascending annotations)
    (hl : ∀ labels, m.labels = some labels → Entries.Ascending labels)
    (hm : ∀ fs, m.managedFields = some fs → ∀ f ∈ fs, f.toJson.Named N) :
    m.toJson.Named N := by
  have ha' : Wire.FieldNamed N (m.annotations.map Wire.stringMap) :=
    (Wire.fieldNamed_map _ _).2 fun a h => Wire.named_stringMap (ha a h)
  have hl' : Wire.FieldNamed N (m.labels.map Wire.stringMap) :=
    (Wire.fieldNamed_map _ _).2 fun a h => Wire.named_stringMap (hl a h)
  have hm' : Wire.FieldNamed N
      (m.managedFields.map (fun fs => .arr (fs.map FieldOwnership.toJson))) := by
    simpa [Json.named_arr] using hm
  refine Wire.named_record (by simp +decide) ?_
  simp only [List.forall_mem_cons, ha', hl', hm']
  simp [Json.named_arr]

/-! ### Pod templates -/

@[simp] theorem EnvVar.named_toJson (e : EnvVar) : e.toJson.Named N :=
  Wire.named_record (by simp +decide) (by simp)

@[simp] theorem ContainerPort.named_toJson (p : ContainerPort) : p.toJson.Named N :=
  Wire.named_record (by simp +decide) (by simp)

@[simp] theorem HttpGet.named_toJson (g : HttpGet) : g.toJson.Named N :=
  Wire.named_record (by simp +decide) (by simp)

/-- A structure of one field. -/
@[simp] theorem Wire.named_record_singleton (key : String) (v : Json) :
    (record [(key, some v)]).Named N ↔ v.Named N := by
  have hkey : N [key] := Naming.of_ascending (List.pairwise_singleton _ _)
  simp [record, Json.named_obj, hkey]

@[simp] theorem Probe.named_toJson (p : Probe) : p.toJson.Named N :=
  Wire.named_record (by simp +decide) (by simp)

@[simp] theorem VolumeMount.named_toJson (m : VolumeMount) : m.toJson.Named N :=
  Wire.named_record (by simp +decide) (by simp)

@[simp] theorem Volume.named_toJson (v : Volume) : v.toJson.Named N := by
  refine Wire.named_record (by simp +decide) ?_
  cases v.emptyDir <;> simp

theorem Container.named_toJson {c : Container}
    (h : ∀ r, c.resources = some r → r.toJson.Named N) : c.toJson.Named N :=
  Wire.named_record (by simp +decide) (by simpa [Json.named_arr] using h)

theorem PodSpec.named_toJson {s : PodSpec} (hc : ∀ c ∈ s.containers, c.toJson.Named N)
    (ha : ∀ a, s.affinity = some a → a.toJson.Named N) : s.toJson.Named N := by
  refine Wire.named_record (by simp +decide) ?_
  simpa [Json.named_arr] using ⟨ha, hc⟩

theorem PodTemplate.named_toJson {t : PodTemplate}
    (hm : ∀ m, t.metadata = some m → m.toJson.Named N)
    (hs : ∀ s, t.spec = some s → s.toJson.Named N) : t.toJson.Named N := by
  refine Wire.named_record (by simp +decide) ?_
  simpa using ⟨hm, hs⟩

/-! ### Other structures -/

@[simp] theorem RollingParams.named_toJson (p : RollingParams) : p.toJson.Named N :=
  Wire.named_record (by simp +decide) (by simp)

@[simp] theorem RolloutStrategy.named_toJson (s : RolloutStrategy) : s.toJson.Named N :=
  Wire.named_record (by simp +decide) (by simp)

theorem DeploymentConfigSpec.named_toJson {s : DeploymentConfigSpec}
    (hs : Entries.Ascending s.selector) (ht : ∀ t, s.template = some t → t.Named N) :
    s.toJson.Named N := by
  refine Wire.named_record (by simp +decide) ?_
  have htriggers : Wire.FieldNamed N (if s.triggers.isEmpty then none
      else some (.arr (s.triggers.map triggerJson))) := by
    split <;> simp [Json.named_arr, triggerJson]
  simp only [List.forall_mem_cons, htriggers, Wire.fieldNamed_some, Wire.named_stringMap hs]
  simpa [Wire.FieldNamed] using ht

@[simp] theorem ServicePort.named_toJson (p : ServicePort) : p.toJson.Named N :=
  Wire.named_record (by simp +decide) (by simp)

@[simp] theorem RouteTarget.named_toJson (t : RouteTarget) : t.toJson.Named N :=
  Wire.named_record (by simp +decide) (by simp)

@[simp] theorem RouteTls.named_toJson (t : RouteTls) : t.toJson.Named N :=
  Wire.named_record (by simp +decide) (by simp)

@[simp] theorem RouteSpec.named_toJson (s : RouteSpec) : s.toJson.Named N :=
  Wire.named_record (by simp +decide) (by simp [portJson])

@[simp] theorem RouteCondition.named_toJson (c : RouteCondition) : c.toJson.Named N :=
  Wire.named_record (by simp +decide) (by simp)

@[simp] theorem RouteIngress.named_toJson (i : RouteIngress) : i.toJson.Named N :=
  Wire.named_record (by simp +decide) (by simp [Json.named_arr])

@[simp] theorem RouteStatus.named_toJson (s : RouteStatus) : s.toJson.Named N :=
  Wire.named_record (by simp +decide) (by simp [Json.named_arr])

@[simp] theorem IngressRule.named_toJson (r : IngressRule) : r.toJson.Named N := by
  refine Wire.named_record (by simp +decide) ?_
  have hpath (backend : Json) (h : backend.Named N) : (Wire.record [
      ("backend", some backend),
      ("path", some (.str r.path)),
      ("pathType", some (.str "Prefix"))]).Named N :=
    Wire.named_record (by simp +decide) (by simpa using h)
  have hbackend : (Wire.record [
      ("name", some (.str r.serviceName)),
      ("port", some (Wire.record [("name", some (.str r.portName))]))]).Named N :=
    Wire.named_record (by simp +decide) (by simp)
  simp [Json.named_arr, hpath, hbackend]

@[simp] theorem IngressTls.named_toJson (t : IngressTls) : t.toJson.Named N :=
  Wire.named_record (by simp +decide) (by simp)

/-! ### What a record asks for -/

namespace Spec

theorem field?_settings (s : Spec) : s.toJson.field? "settings" = some s.settings.toJson := by
  refine (Wire.field?_record (by simp) "settings").trans ?_
  simp [Entries.get?]

omit [Naming N] in
theorem named_resources {s : Spec} (h : s.toJson.Named N) {r : Resources}
    (hr : s.settings.resources = some r) : r.toJson.Named N := by
  refine (h.field "settings" s.field?_settings).field "resources" ?_
  refine (Wire.field?_record (by simp) "resources").trans ?_
  simp [Entries.get?, hr]

omit [Naming N] in
theorem named_affinity {s : Spec} (h : s.toJson.Named N) {a : Affinity}
    (ha : s.settings.affinity = some a) : a.toJson.Named N := by
  refine (h.field "settings" s.field?_settings).field "affinity" ?_
  refine (Wire.field?_record (by simp) "affinity").trans ?_
  simp [Entries.get?, ha]

end Spec

namespace Instance
variable (i : Instance)

theorem ascending_selectorLabels : Entries.Ascending i.selectorLabels :=
  Entries.ascending_ofPairs _

theorem ascending_labels : Entries.Ascending i.labels := by
  refine Entries.ascending_putText (Entries.ascending_putText ?_ _ _) _ _
  refine Entries.ascending_foldl (fun m key h => ?_) ?_ passthroughLabels
  · split
    · exact Entries.ascending_putText h _ _
    · exact h
  · exact Entries.ascending_putText
      (Entries.ascending_putText i.ascending_selectorLabels _ _) _ _

theorem ascending_podLabels : Entries.Ascending i.podLabels := by
  unfold podLabels
  split
  · exact i.ascending_labels
  · exact Entries.ascending_putText i.ascending_labels _ _

theorem ascending_annotations : Entries.Ascending i.annotations := Entries.ascending_ofPairs _

theorem named_childMetadata (owner : OwnerReference) :
    ({ i.childMetadata with ownerReferences := some [owner] } : Metadata).toJson.Named N := by
  refine Metadata.named_toJson (fun a h => ?_) (fun l h => ?_) (fun _ h => nomatch h)
  · have hown : (if i.annotations.isEmpty then none else some i.annotations) = some a := h
    split at hown
    · cases hown
    · cases hown
      exact i.ascending_annotations
  · cases h
    exact i.ascending_labels

variable {i}

theorem named_container (h : i.spec.toJson.Named N) : i.container.toJson.Named N := by
  refine Container.named_toJson fun r hr => ?_
  have hres : i.spec.settings.resources.getD defaultResources = r := Option.some.inj hr
  cases hs : i.spec.settings.resources with
  | some own =>
    rw [hs] at hres
    exact hres ▸ Spec.named_resources h hs
  | none =>
    rw [hs] at hres
    subst hres
    refine Wire.named_record (by simp +decide) ?_
    have hq : (Wire.stringMap [("cpu", "200m"), ("memory", "150Mi")]).Named N :=
      Wire.named_stringMap (List.pairwise_map.1 (by decide))
    simp [defaultResources, hq]

theorem named_podTemplate (h : i.spec.toJson.Named N) : i.podTemplate.toJson.Named N := by
  refine PodTemplate.named_toJson (fun m hm => ?_) (fun s hs => ?_)
  · cases hm
    refine Metadata.named_toJson (fun a ha => by cases ha) (fun l hl => ?_)
      (fun _ h => nomatch h)
    cases hl
    exact i.ascending_podLabels
  · cases hs
    refine PodSpec.named_toJson (fun c hc => ?_) (fun a ha => Spec.named_affinity h ha)
    cases List.mem_singleton.1 hc
    exact named_container h

/-! ### The children -/

theorem named_deployment (h : i.spec.toJson.Named N) :
    ∀ e ∈ i.deployment.toManifest.fields, e.2.Named N := by
  intro e he
  cases List.mem_singleton.1 he
  refine Wire.named_record (by simp +decide) ?_
  simp only [List.forall_mem_cons, Wire.fieldNamed_some, Wire.named_record_singleton]
  exact ⟨Wire.named_int32 _, Wire.named_stringMap i.ascending_selectorLabels,
    named_podTemplate h, by simp⟩

theorem named_deploymentConfig (h : i.spec.toJson.Named N) :
    ∀ e ∈ i.deploymentConfig.toManifest.fields, e.2.Named N := by
  intro e he
  cases List.mem_singleton.1 he
  refine DeploymentConfigSpec.named_toJson ?_ fun t ht => ?_
  · exact Entries.ascending_putText i.ascending_selectorLabels _ _
  · cases ht
    exact named_podTemplate h

theorem named_service : ∀ e ∈ i.service.toManifest.fields, e.2.Named N := by
  intro e he
  cases List.mem_singleton.1 he
  have hselector : (Wire.stringMap i.service.selector).Named N :=
    Wire.named_stringMap i.ascending_selectorLabels
  refine Wire.named_record (by simp +decide) ?_
  simp [Json.named_arr, hselector]

theorem ascending_contents (f : SettingsFiles) : Entries.Ascending f.contents := by
  unfold SettingsFiles.contents
  have hnames : [relaysFile, usersFile].Pairwise (· < ·) := by decide
  split <;> split <;> simp_all [Entries.Ascending]

theorem named_configMap {c : ConfigMap} (h : i.configMap? = some c) :
    ∀ e ∈ c.toManifest.fields, e.2.Named N := by
  obtain ⟨f, _, rfl⟩ := Option.map_eq_some_iff.1 h
  have hdata : (Wire.stringMap f.contents).Named N :=
    Wire.named_stringMap (ascending_contents f)
  simp [ConfigMap.toManifest, hdata]

theorem named_route : ∀ e ∈ i.route.toManifest.fields, e.2.Named N := by
  intro e he
  cases List.mem_singleton.1 he
  exact i.route.spec.named_toJson

theorem named_ingress : ∀ e ∈ i.ingress.toManifest.fields, e.2.Named N := by
  intro e he
  cases List.mem_singleton.1 he
  refine Wire.named_record (by simp +decide) ?_
  simp [Json.named_arr]

end Instance

/-! ### Comparable parts -/

/-- Metadata are written in the order of their names. -/
theorem Manifest.ascending_metadataFields (m : Manifest) : Entries.Ascending m.metadataFields := by
  have hnames : (m.metadataFields.map Prod.fst).Pairwise (· < ·) :=
    List.Pairwise.sublist (Wire.names_sublist _) (pairwise_of_inSequence (by simp +decide))
  rwa [List.pairwise_map] at hnames

theorem Json.named_comparableAnnotations {v kept : Json} (hv : v.Named N)
    (h : comparableAnnotations? v = some kept) : kept.Named N := by
  cases v
  case obj fields =>
    obtain ⟨_, rfl⟩ := comparableAnnotations?_obj.1 h
    rw [named_obj] at hv ⊢
    exact ⟨Naming.of_sublist (List.filter_sublist.map Prod.fst) hv.1,
      fun e he => hv.2 e (List.mem_filter.1 he).1⟩
  case null => cases h
  all_goals exact Option.some.inj h ▸ hv

theorem Json.ascending_comparableMetadata {fields : Entries Json}
    (h : Entries.Ascending fields) : Entries.Ascending (comparableMetadata fields) := by
  have hown : Entries.Ascending (serverMetadata.foldl Entries.remove fields) :=
    Entries.ascending_foldl (fun _ key h => Entries.ascending_remove h key) h _
  unfold comparableMetadata
  dsimp only
  split
  · exact hown
  · split
    · exact Entries.ascending_remove hown _
    · exact Entries.ascending_putText hown _ _

theorem Json.named_comparableMetadata {fields : Entries Json} (ha : Entries.Ascending fields)
    (hv : ∀ e ∈ fields, e.2.Named N) : (obj (comparableMetadata fields)).Named N := by
  have hown : Entries.Ascending (serverMetadata.foldl Entries.remove fields) :=
    Entries.ascending_foldl (fun _ key h => Entries.ascending_remove h key) ha _
  have hsub : ∀ e ∈ serverMetadata.foldl Entries.remove fields, e.2.Named N :=
    fun e he => hv e (Entries.mem_removeAll he)
  unfold comparableMetadata
  dsimp only
  rw [named_obj]
  split
  · exact ⟨hown.named, hsub⟩
  · rename_i v hget
    split
    · exact ⟨(Entries.ascending_remove hown _).named,
        fun e he => hsub e (List.mem_filter.1 he).1⟩
    · rename_i kept hkept
      refine ⟨(Entries.ascending_putText hown _ _).named, fun e he => ?_⟩
      cases Entries.mem_put he with
      | inl hnew =>
        rw [hnew]
        exact named_comparableAnnotations (hsub _ (Entries.mem_of_get? hget)) hkept
      | inr hold => exact hsub e hold

namespace Manifest

theorem ascending_allFields {m : Manifest} (h : Entries.Ascending m.fields) :
    Entries.Ascending m.allFields := by
  unfold allFields toJson
  cases m.types with
  | none => exact Entries.ascending_putText h _ _
  | some t =>
    exact Entries.ascending_putText (Entries.ascending_putText
      (Entries.ascending_putText h _ _) _ _) _ _

theorem mem_allFields {m : Manifest} {e : String × Json} (h : e ∈ m.allFields) :
    e ∈ m.fields ∨ e.2 = m.metadata.toJson ∨ ∃ s, e.2 = .str s := by
  unfold allFields toJson at h
  cases ht : m.types with
  | none =>
    rw [ht] at h
    cases Entries.mem_put h with
    | inl hm => exact Or.inr (Or.inl (by rw [hm]))
    | inr hf => exact Or.inl hf
  | some t =>
    rw [ht] at h
    cases Entries.mem_put h with
    | inl hk => exact Or.inr (Or.inr ⟨_, by rw [hk]⟩)
    | inr h =>
      cases Entries.mem_put h with
      | inl ha => exact Or.inr (Or.inr ⟨_, by rw [ha]⟩)
      | inr h =>
        cases Entries.mem_put h with
        | inl hm => exact Or.inr (Or.inl (by rw [hm]))
        | inr hf => exact Or.inl hf

/-- The comparable part of an object is named as its fields and metadata are. -/
theorem named_comparable {m : Manifest} (hf : Entries.Ascending m.fields)
    (hv : ∀ e ∈ m.fields, e.2.Named N) (hm : m.metadata.toJson.Named N) :
    m.comparable.Named N := by
  have hmeta : (Json.obj (Json.comparableMetadata m.metadataFields)).Named N :=
    Json.named_comparableMetadata m.ascending_metadataFields ((Json.named_obj _).1 hm).2
  rw [comparable_eq, Json.named_obj]
  refine ⟨(Entries.ascending_putText (Entries.ascending_remove (ascending_allFields hf) _) _
    _).named, fun e he => ?_⟩
  cases Entries.mem_put he with
  | inl hnew =>
    rw [hnew]
    exact hmeta
  | inr hold =>
    rcases mem_allFields (List.mem_filter.1 hold).1 with hfield | hmetadata | ⟨s, hs⟩
    · exact hv e hfield
    · rw [hmetadata]
      exact hm
    · rw [hs]
      exact Json.named_str s

end Manifest

namespace Instance
variable {i : Instance}

theorem metadata_desired {kind : ChildKind} {m : Manifest} (hd : kind.desired i = some m) :
    m.metadata = i.childMetadata := by
  unfold ChildKind.desired at hd
  split at hd
  · cases kind with
    | configMap =>
      obtain ⟨c, hc, rfl⟩ := Option.map_eq_some_iff.1 hd
      obtain ⟨f, _, rfl⟩ := Option.map_eq_some_iff.1 hc
      rfl
    | _ =>
      cases hd
      rfl
  · cases hd

theorem ascending_desired {kind : ChildKind} {m : Manifest} (hd : kind.desired i = some m) :
    Entries.Ascending m.fields := by
  unfold ChildKind.desired at hd
  split at hd
  · cases kind with
    | configMap =>
      obtain ⟨c, hc, rfl⟩ := Option.map_eq_some_iff.1 hd
      have hnames : ["data", "immutable"].Pairwise (· < ·) := by decide
      exact List.pairwise_map.1 hnames
    | _ =>
      cases hd
      exact List.pairwise_singleton _ _
  · cases hd

/-- Whatever child a record asks for, its fields are named as the spec is. -/
theorem named_desired (h : i.spec.toJson.Named N) {kind : ChildKind} {m : Manifest}
    (hd : kind.desired i = some m) : ∀ e ∈ m.fields, e.2.Named N := by
  unfold ChildKind.desired at hd
  split at hd
  · cases kind with
    | deployment =>
      cases hd
      exact named_deployment h
    | deploymentConfig =>
      cases hd
      exact named_deploymentConfig h
    | service =>
      cases hd
      exact named_service
    | configMap =>
      obtain ⟨c, hc, rfl⟩ := Option.map_eq_some_iff.1 hd
      exact named_configMap hc
    | route =>
      cases hd
      exact named_route
    | ingress =>
      cases hd
      exact named_ingress
  · cases hd

/-- A child is what its record asks for, with the record as its owner. -/
theorem exists_of_adopted {kind : ChildKind} {d : Manifest}
    (h : i.adopted kind = .ok (some d)) :
    ∃ m owner, kind.desired i = some m ∧ i.ownerReference? = some owner ∧
      d = m.adoptedBy owner := by
  unfold adopted at h
  cases hk : kind.desired i with
  | none =>
    rw [hk] at h
    cases h
  | some m =>
    rw [hk] at h
    cases ho : i.ownerReference? with
    | none =>
      rw [ho] at h
      cases h
    | some owner =>
      rw [ho] at h
      cases h
      exact ⟨m, owner, rfl, rfl, rfl⟩

theorem metadata_adopted {kind : ChildKind} {d : Manifest} (h : i.adopted kind = .ok (some d)) :
    ∃ owner, d.metadata = { i.childMetadata with ownerReferences := some [owner] } := by
  obtain ⟨m, owner, hk, _, rfl⟩ := exists_of_adopted h
  exact ⟨owner, congrArg
    (fun x : Metadata => { x with ownerReferences := some [owner] }) (metadata_desired hk)⟩

theorem fields_adopted {kind : ChildKind} {d : Manifest} (h : i.adopted kind = .ok (some d)) :
    ∃ m, kind.desired i = some m ∧ d.fields = m.fields := by
  obtain ⟨m, owner, hk, _, rfl⟩ := exists_of_adopted h
  exact ⟨m, hk, rfl⟩

theorem named_adopted (h : i.spec.toJson.Named N) {kind : ChildKind} {d : Manifest}
    (hd : i.adopted kind = .ok (some d)) : d.comparable.Named N := by
  obtain ⟨owner, hm⟩ := metadata_adopted hd
  obtain ⟨m, hk, hf⟩ := fields_adopted hd
  apply Manifest.named_comparable
  · rw [hf]
    exact ascending_desired hk
  · rw [hf]
    exact named_desired h hk
  · rw [hm]
    exact i.named_childMetadata owner

theorem ordered_adopted (h : i.spec.toJson.Ordered) {kind : ChildKind} {d : Manifest}
    (hd : i.adopted kind = .ok (some d)) : d.comparable.Ordered := named_adopted h hd

theorem distinct_desired (h : i.spec.toJson.Distinct) {kind : ChildKind} {m : Manifest}
    (hd : kind.desired i = some m) : ∀ e ∈ m.fields, e.2.Distinct := fun e he =>
  (Json.named_nodup_iff _).1 (named_desired ((Json.named_nodup_iff _).2 h) hd e he)

theorem distinct_adopted (h : i.spec.toJson.Distinct) {kind : ChildKind} {d : Manifest}
    (hd : i.adopted kind = .ok (some d)) : d.comparable.Distinct :=
  (Json.named_nodup_iff _).1 (named_adopted ((Json.named_nodup_iff _).2 h) hd)

end Instance
end MailCapture
