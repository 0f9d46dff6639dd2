import MailCapture.Controller
import MailCapture.Proofs.Condensed
import Mathlib.Data.List.Basic
/-!
What children have of their record beside what its spec asks for: its name and some of its labels
and annotations.  An edit of labels or annotations alone keeps the generation of a record, so that
the operator takes no notice of it.
-/
namespace MailCapture

namespace Instance

def ownAnnotation? (i : Instance) (key : String) : Option String :=
  (i.metadata.annotation? key).filter (fun v => !v.isEmpty)

def givenLabels (i : Instance) : Entries String :=
  Entries.put (Entries.put i.selectorLabels managedByLabel operatorName) createdByLabel operatorName

structure PassesOnLike (i j : Instance) : Prop where
  labels : ∀ key ∈ passthroughLabels, i.ownLabel? key = j.ownLabel? key
  runtime : (i.ownLabel? runtimeLabel).getD defaultRuntime =
    (j.ownLabel? runtimeLabel).getD defaultRuntime
  instanceName : (i.ownLabel? instanceLabel).getD i.name = (j.ownLabel? instanceLabel).getD j.name
  annotations : ∀ key ∈ passthroughAnnotations, i.ownAnnotation? key = j.ownAnnotation? key

variable {i j : Instance}

/-! ### Labels and annotations -/

theorem get?_passed (own : String → Option String) (keys : List String) (m : Entries String)
    (key : String) :
    Entries.get? (keys.foldl (fun m key => match own key with
      | some v => Entries.put m key v
      | none => m) m) key =
      if key ∈ keys then (own key).or (Entries.get? m key) else Entries.get? m key := by
  induction keys generalizing m with
  | nil => simp
  | cons k rest ih =>
    rw [List.foldl_cons, ih]
    cases hk : own k with
    | none =>
      by_cases he : key = k
      · subst he
        simp [hk]
      · simp [he]
    | some v =>
      by_cases he : key = k
      · subst he
        simp [hk, Entries.get?_put_self]
      · simp [he, Entries.get?_put_of_ne m v he]

/-- A label of children: what the record has for it counts where it may pass something on, and
elsewhere what the operator gives. -/
theorem get?_labels (i : Instance) (key : String) :
    Entries.get? i.labels key =
      if key = instanceLabel then some ((i.ownLabel? instanceLabel).getD i.name)
      else if key = runtimeLabel then some ((i.ownLabel? runtimeLabel).getD defaultRuntime)
      else if key ∈ passthroughLabels then (i.ownLabel? key).or (Entries.get? i.givenLabels key)
      else Entries.get? i.givenLabels key := by
  rw [labels, Entries.get?_put, Entries.get?_put, ← givenLabels]
  exact if_congr .rfl rfl (if_congr .rfl rfl (get?_passed i.ownLabel? _ _ key))

theorem get?_givenLabels (i : Instance) (key : String) :
    Entries.get? i.givenLabels key =
      if key ∈ [createdByLabel, managedByLabel] then some operatorName
      else if key = nameLabel then some i.name
      else if key = typeLabel then some typeLabelValue
      else none := by
  rw [givenLabels, Entries.get?_put, Entries.get?_put, selectorLabels, Entries.ofPairs,
    List.foldl_cons, List.foldl_cons, List.foldl_nil, Entries.get?_put, Entries.get?_put]
  by_cases hc : key = createdByLabel <;> by_cases hm : key = managedByLabel <;>
    simp [hc, hm, Entries.get?]

theorem get?_labels_of_passthrough (i : Instance) {key : String} (h : key ∈ passthroughLabels) :
    Entries.get? i.labels key = i.ownLabel? key := by
  have hne : ∀ k ∈ passthroughLabels, k ∉ [instanceLabel, runtimeLabel, createdByLabel,
      managedByLabel, nameLabel, typeLabel] := by decide
  have hkey := hne key h
  simp only [List.mem_cons, List.not_mem_nil, or_false, not_or] at hkey
  obtain ⟨hi, hr, hc, hm, hn, ht⟩ := hkey
  rw [get?_labels, if_neg hi, if_neg hr, if_pos h, get?_givenLabels]
  simp [hc, hm, hn, ht]

theorem get?_labels_runtime (i : Instance) : Entries.get? i.labels runtimeLabel =
    some ((i.ownLabel? runtimeLabel).getD defaultRuntime) := by
  rw [get?_labels, if_neg (by decide), if_pos rfl]

theorem get?_labels_instance (i : Instance) : Entries.get? i.labels instanceLabel =
    some ((i.ownLabel? instanceLabel).getD i.name) := by
  rw [get?_labels, if_pos rfl]

theorem get?_annotations_of_passthrough (i : Instance) {key : String}
    (h : key ∈ passthroughAnnotations) :
    Entries.get? i.annotations key = i.ownAnnotation? key := by
  have hfold : i.annotations = passthroughAnnotations.foldl (fun m key =>
      match i.ownAnnotation? key with
      | some v => Entries.put m key v
      | none => m) [] := by
    unfold annotations Entries.ofPairs
    rw [List.foldl_filterMap]
    refine List.foldl_ext _ _ _ fun m k _ => ?_
    unfold ownAnnotation?
    cases (i.metadata.annotation? k).filter _ <;> rfl
  rw [hfold]
  refine (get?_passed i.ownAnnotation? _ _ key).trans ?_
  rw [if_pos h]
  exact Option.or_none

/-- The labels of children, given that the names are the same. -/
theorem labels_eq_iff (hname : i.name = j.name) : i.labels = j.labels ↔
    (∀ key ∈ passthroughLabels, i.ownLabel? key = j.ownLabel? key) ∧
      (i.ownLabel? runtimeLabel).getD defaultRuntime =
        (j.ownLabel? runtimeLabel).getD defaultRuntime ∧
      (i.ownLabel? instanceLabel).getD i.name = (j.ownLabel? instanceLabel).getD j.name := by
  constructor
  · intro h
    refine ⟨fun key hkey => ?_, ?_, ?_⟩
    · rw [← i.get?_labels_of_passthrough hkey, h, j.get?_labels_of_passthrough hkey]
    · have hget := i.get?_labels_runtime.symm.trans (h ▸ j.get?_labels_runtime)
      exact Option.some.inj hget
    · have hget := i.get?_labels_instance.symm.trans (h ▸ j.get?_labels_instance)
      exact Option.some.inj hget
  · rintro ⟨hlabels, hruntime, hinstance⟩
    have hselector : i.selectorLabels = j.selectorLabels := by
      rw [selectorLabels, selectorLabels, hname]
    unfold labels
    rw [hruntime, hinstance, hselector]
    refine congrArg (fun m => Entries.put (Entries.put m _ _) _ _)
      (List.foldl_ext _ _ _ fun m key hkey => ?_)
    rw [hlabels key hkey]

theorem annotations_eq_iff : i.annotations = j.annotations ↔
    ∀ key ∈ passthroughAnnotations, i.ownAnnotation? key = j.ownAnnotation? key := by
  constructor
  · intro h key hkey
    rw [← i.get?_annotations_of_passthrough hkey, h, j.get?_annotations_of_passthrough hkey]
  · intro h
    refine congrArg Entries.ofPairs (List.filterMap_congr fun key hkey => ?_)
    exact congrArg (Option.map _) (h key hkey)

/-! ### Children -/

theorem labels_of_childMetadata (h : i.childMetadata = j.childMetadata) : i.labels = j.labels :=
  Option.some.inj (congrArg Metadata.labels h)

theorem annotations_of_childMetadata (h : i.childMetadata = j.childMetadata) :
    i.annotations = j.annotations := by
  have hsome : (if i.annotations.isEmpty then none else some i.annotations) =
      (if j.annotations.isEmpty then none else some j.annotations) :=
    congrArg Metadata.annotations h
  cases hi : i.annotations with
  | nil =>
    cases hj : j.annotations with
    | nil => rfl
    | cons e rest => simp [hi, hj] at hsome
  | cons e rest =>
    cases hj : j.annotations with
    | nil => simp [hi, hj] at hsome
    | cons f more => simpa [hi, hj] using hsome

theorem childMetadata_eq_iff (hname : i.name = j.name) (hns : i.metadata.ns = j.metadata.ns) :
    i.childMetadata = j.childMetadata ↔ i.PassesOnLike j := by
  constructor
  · intro h
    obtain ⟨hlabels, hruntime, hinstance⟩ :=
      (labels_eq_iff hname).1 (labels_of_childMetadata h)
    exact ⟨hlabels, hruntime, hinstance,
      annotations_eq_iff.1 (annotations_of_childMetadata h)⟩
  · rintro ⟨hlabels, hruntime, hinstance, hannotations⟩
    rw [childMetadata, childMetadata, (labels_eq_iff hname).2 ⟨hlabels, hruntime, hinstance⟩,
      annotations_eq_iff.2 hannotations, hname, hns]

theorem podTemplate_congr (hspec : i.spec = j.spec) (hname : i.name = j.name)
    (hlabels : i.labels = j.labels) : i.podTemplate = j.podTemplate := by
  have hpod : i.podLabels = j.podLabels := by
    rw [podLabels, podLabels, hspec, hname, hlabels]
  have hcontainer : i.container = j.container := by
    rw [container, container, readinessProbe, readinessProbe, hspec]
  have hvolumes : i.volumes = j.volumes := by
    rw [volumes, volumes, hspec, hname]
  rw [podTemplate, podTemplate, hpod, hcontainer, hvolumes, hspec]

/-- A child depends on the spec of its record, its name and what metadata it passes on. -/
theorem desired_congr (hspec : i.spec = j.spec) (hname : i.name = j.name)
    (hmeta : i.childMetadata = j.childMetadata) (kind : ChildKind) :
    kind.desired i = kind.desired j := by
  have htemplate := podTemplate_congr hspec hname (labels_of_childMetadata hmeta)
  have hselector : i.selectorLabels = j.selectorLabels := by
    rw [selectorLabels, selectorLabels, hname]
  unfold ChildKind.desired
  rw [hspec]
  refine if_congr Iff.rfl ?_ rfl
  cases kind with
  | deployment => rw [deployment, deployment, hmeta, hspec, hselector, htemplate]
  | deploymentConfig =>
    rw [deploymentConfig, deploymentConfig, hmeta, hspec, hselector, hname, htemplate]
  | service => rw [service, service, hmeta, hselector]
  | configMap => rw [configMap?, configMap?, hmeta, hspec]
  | route => rw [route, route, hmeta, hspec, hname]
  | ingress =>
    dsimp only
    rw [ingress, ingress, hmeta, hspec, hname]

/-- Two records with one spec and one name ask for the same children exactly when they pass on the
same labels and annotations. -/
theorem desired_eq_iff (hspec : i.spec = j.spec) (hname : i.name = j.name)
    (hns : i.metadata.ns = j.metadata.ns) :
    (∀ kind : ChildKind, kind.desired i = kind.desired j) ↔ i.PassesOnLike j := by
  rw [← childMetadata_eq_iff hname hns]
  constructor
  · intro h
    have hservice : i.service.toManifest = j.service.toManifest := Option.some.inj (h .service)
    exact congrArg Manifest.metadata hservice
  · exact desired_congr hspec hname

end Instance

/-! ### Versions of a record -/

/-- Whether two objects are versions of one record, read as these: a server keeps its identity and
changes its generation exactly with its spec. -/
structure Manifest.AreVersions (m m' : Manifest) (i j : Instance) : Prop where
  first : Instance.ofManifest? m = some i
  second : Instance.ofManifest? m' = some j
  name : i.metadata.name = j.metadata.name
  generateName : i.metadata.generateName = j.metadata.generateName
  ns : i.metadata.ns = j.metadata.ns
  uid : i.metadata.uid = j.metadata.uid
  generation : m.metadata.generation = m'.metadata.generation ↔ i.spec = j.spec

/-- A record with one label is read back from its object. -/
theorem Instance.ofManifest?_labelled (uid : Option String) (label : String) :
    let record : Instance := ⟨{
      name := some "mh"
      ns := some "mail"
      uid := uid
      generation := some 1
      labels := some [("app", label)] }, {}, none⟩
    Instance.ofManifest? ⟨some ⟨Instance.apiVersion, Instance.kindName⟩, record.metadata,
      [("spec", record.spec.toJson)]⟩ = some record := by
  cases uid <;> rfl

/-- With another label in the same generation the object of a record is a version of it. -/
theorem Manifest.areVersions_relabelled (uid : Option String) (first second : String) :
    let record := fun label : String => (⟨{
      name := some "mh"
      ns := some "mail"
      uid := uid
      generation := some 1
      labels := some [("app", label)] }, {}, none⟩ : Instance)
    let version := fun label : String => (⟨some ⟨Instance.apiVersion, Instance.kindName⟩,
      (record label).metadata, [("spec", (record label).spec.toJson)]⟩ : Manifest)
    (version first).AreVersions (version second) (record first) (record second) :=
  ⟨Instance.ofManifest?_labelled uid first, Instance.ofManifest?_labelled uid second,
    rfl, rfl, rfl, rfl, ⟨fun _ => rfl, fun _ => rfl⟩⟩

theorem Instance.name_congr {i j : Instance} (hname : i.metadata.name = j.metadata.name)
    (hgenerate : i.metadata.generateName = j.metadata.generateName) : i.name = j.name := by
  rw [name, name, Metadata.anyName, Metadata.anyName, hname, hgenerate]

namespace Controller

/-- A record is not woken by a version of the generation in which it was last seen. -/
theorem pending_seeRecord {c : Controller} {key : Key} {m : Manifest} {g : Int64}
    (hseen : Entries.get? c.generations key = some g) (hg : m.metadata.generation = some g) :
    (c.seeRecord key m).pending = c.pending := by
  have hnews : c.generations.isNews key m.metadata.generation = false := by
    rw [hg]
    simp [Generations.isNews, hseen]
  unfold seeRecord
  split
  · dsimp only
    rw [hnews]
    rfl
  · rfl

/-- A version of a record whose generation was seen before wakes nobody, although it asks for the
same children only if it passes on the same labels and annotations. -/
theorem edit_overlooked {c : Controller} {key : Key} {m m' : Manifest} {i j : Instance} {g : Int64}
    (h : m.AreVersions m' i j) (hseen : Entries.get? c.generations key = some g)
    (hg : m.metadata.generation = some g) (hg' : m'.metadata.generation = some g) :
    (c.seeRecord key m').pending = c.pending ∧
      ((∀ kind : ChildKind, kind.desired i = kind.desired j) ↔ i.PassesOnLike j) := by
  have hspec : i.spec = j.spec := h.generation.1 (hg.trans hg'.symm)
  have hname : i.name = j.name := Instance.name_congr h.name h.generateName
  exact ⟨pending_seeRecord hseen hg', Instance.desired_eq_iff hspec hname h.ns⟩

/-- Two versions of a record in one generation, with different labels that children repeat. -/
theorem edit_overlooked_relabelled :
    let record := fun label : String => (⟨{
      name := some "mh"
      ns := some "mail"
      generation := some 1
      labels := some [("app", label)] }, {}, none⟩ : Instance)
    let version := fun label : String => (⟨some ⟨Instance.apiVersion, Instance.kindName⟩,
      (record label).metadata, [("spec", (record label).spec.toJson)]⟩ : Manifest)
    let key : Key := ⟨"mail", "mh"⟩
    let c : Controller := { known := some [key], generations := [(key, 1)] }
    (c.seeRecord key (version "post")).pending = c.pending ∧
      ¬ ∀ kind : ChildKind, kind.desired (record "mail") = kind.desired (record "post") := by
  intro record version key c
  have hversions : (version "mail").AreVersions (version "post") (record "mail") (record "post") :=
    Manifest.areVersions_relabelled none "mail" "post"
  obtain ⟨hpending, hdesired⟩ := @edit_overlooked c key _ _ _ _ 1 hversions rfl rfl rfl
  refine ⟨hpending, fun hall => ?_⟩
  have happ := (hdesired.1 hall).labels "app" (by decide)
  exact absurd happ (by decide)

/-- The generation of a record does not tell whether a child is up to date: with another label in
the same generation the deployment has to be replaced. -/
theorem generation_misses_labels :
    let record := fun label : String => (⟨{
      name := some "mh"
      ns := some "mail"
      uid := some "u1"
      generation := some 1
      labels := some [("app", label)] }, {}, none⟩ : Instance)
    let version := fun label : String => (⟨some ⟨Instance.apiVersion, Instance.kindName⟩,
      (record label).metadata, [("spec", (record label).spec.toJson)]⟩ : Manifest)
    (version "mail").AreVersions (version "post") (record "mail") (record "post") ∧
      (version "mail").metadata.generation = (version "post").metadata.generation ∧
      (ChildKind.deployment.desired (record "mail")).map (·.metadata.label? "app") =
        some (some "mail") ∧
      (ChildKind.deployment.desired (record "post")).map (·.metadata.label? "app") =
        some (some "post") ∧
      (match (record "mail").adopted .deployment, (record "post").adopted .deployment with
        | .ok (some d), .ok (some d') => d.stamp.needsUpdate d'
        | _, _ => false) = true := by
  intro record version
  refine ⟨Manifest.areVersions_relabelled (some "u1") "mail" "post", rfl, ?_, ?_, ?_⟩
  · decide +kernel
  · decide +kernel
  · decide +kernel

end Controller
end MailCapture
