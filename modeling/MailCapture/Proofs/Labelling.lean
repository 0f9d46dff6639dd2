import MailCapture.Child
import MailCapture.Cluster
import MailCapture.Proofs.Credentials
import MailCapture.Proofs.Inherited
/-!
The labels of pods and what selects pods by them.  A pod template carries the selectors of its
workload and of the service, and what the status lists pods by.  Its labels lead back to the record,
and the selectors of a record with another name do not meet them.  No label of the record stands
over those.
-/
namespace MailCapture

/-! ### Selectors as texts -/

namespace Text
variable {sep : Char}

theorem split_append (a b : String) :
    split sep (a ++ String.singleton sep ++ b) = split sep a ++ split sep b := by
  have hlist : (a ++ String.singleton sep ++ b).toList = a.toList ++ sep :: b.toList := by simp
  rw [split, hlist, pieces_append_cons, List.map_append, split, split]

theorem split_of_not_mem {s : String} (h : sep ∉ s.toList) : split sep s = [s] := by
  rw [split, pieces_of_not_mem h, List.map_singleton, String.ofList_toList]

/-- Two texts without the separator are what it separates. -/
theorem split_pair {a b : String} (ha : sep ∉ a.toList) (hb : sep ∉ b.toList) :
    split sep (a ++ String.singleton sep ++ b) = [a, b] := by
  rw [split_append, split_of_not_mem ha, split_of_not_mem hb, List.singleton_append]

end Text

def Entries.Includes (labels others : Entries String) : Prop :=
  ∀ key value, Entries.get? others key = some value → Entries.get? labels key = some value

theorem Entries.Includes.trans {a b c : Entries String} (hab : Entries.Includes a b)
    (hbc : Entries.Includes b c) : Entries.Includes a c :=
  fun key value h => hab key value (hbc key value h)

def Metadata.Carries (m : Metadata) (labels : Entries String) : Prop :=
  Entries.Includes (m.labels.getD []) labels

theorem Metadata.carries_of_labels {m : Metadata} {labels : Entries String}
    (h : m.labels = some labels) : m.Carries labels := by
  rw [Carries, h]
  exact fun _ _ hget => hget

theorem Metadata.label?_eq (m : Metadata) (key : String) :
    m.label? key = Entries.get? (m.labels.getD []) key := by
  rw [label?]
  cases m.labels <;> rfl

def Manifest.templateLabels (m : Manifest) : Json :=
  (((m.field "spec").member "template").member "metadata").member "labels"

def ChildKind.podSelector (kind : ChildKind) (m : Manifest) : Json :=
  match kind with
  | .deployment => m.selector.member "matchLabels"
  | _ => m.selector

def Workload.kind : Workload → ChildKind
  | .deployment => .deployment
  | .deploymentConfig => .deploymentConfig

def PodTemplate.labels (t : PodTemplate) : Entries String :=
  (t.metadata.bind Metadata.labels).getD []

namespace Instance

def workloadSelector (i : Instance) : Entries String :=
  match i.spec.workload with
  | .deployment => i.deployment.selector
  | .deploymentConfig => i.deploymentConfig.spec.selector

variable {i j : Instance}

/-! ### Labels -/

theorem selectorLabels_eq (i : Instance) :
    i.selectorLabels = [(nameLabel, i.name), (typeLabel, typeLabelValue)] := by
  have hne : typeLabel ≠ nameLabel := by decide
  have hlt : nameLabel < typeLabel := by decide
  simp only [selectorLabels, Entries.ofPairs, List.foldl_cons, List.foldl_nil, Entries.put,
    if_neg hne, if_pos hlt]

theorem includes_selectorLabels {labels : Entries String} :
    Entries.Includes labels i.selectorLabels ↔
      Entries.get? labels nameLabel = some i.name ∧
        Entries.get? labels typeLabel = some typeLabelValue := by
  rw [selectorLabels_eq]
  constructor
  · intro h
    exact ⟨h _ _ rfl, h _ _ rfl⟩
  · rintro ⟨hname, htype⟩ key value h
    rw [Entries.get?, Entries.get?, Entries.get?] at h
    split_ifs at h with hn ht
    · exact hn ▸ hname.trans h
    · exact ht ▸ htype.trans h

/-- No label of the record stands over what the operator gives. -/
theorem labels_includes (i : Instance) : Entries.Includes i.labels i.givenLabels := by
  intro key value h
  have hgiven : ∀ k ∈ [createdByLabel, managedByLabel, nameLabel, typeLabel],
      k ∉ instanceLabel :: runtimeLabel :: passthroughLabels := by decide
  have hkey : key ∈ [createdByLabel, managedByLabel, nameLabel, typeLabel] := by
    rw [get?_givenLabels] at h
    split_ifs at h with hoperator hname htype
    · exact List.mem_append_left [nameLabel, typeLabel] hoperator
    · simp [hname]
    · simp [htype]
  have hother := hgiven key hkey
  rw [List.mem_cons, List.mem_cons, not_or, not_or] at hother
  obtain ⟨hinstance, hruntime, hpassed⟩ := hother
  rw [get?_labels, if_neg hinstance, if_neg hruntime, if_neg hpassed, h]

theorem givenLabels_includes (i : Instance) : Entries.Includes i.givenLabels i.selectorLabels := by
  rw [includes_selectorLabels, get?_givenLabels, get?_givenLabels]
  exact ⟨rfl, rfl⟩

theorem podLabels_includes (i : Instance) :
    Entries.Includes i.podLabels i.givenLabels := by
  intro key value h
  have hlabels := i.labels_includes key value h
  unfold podLabels
  split
  · exact hlabels
  · rw [Entries.get?_put, if_neg, hlabels]
    rintro rfl
    rw [get?_givenLabels] at h
    cases h

theorem podLabels_includes_workloadSelector (i : Instance) :
    Entries.Includes i.podLabels i.workloadSelector := by
  have hselector := i.podLabels_includes.trans i.givenLabels_includes
  intro key value h
  unfold workloadSelector at h
  split at h
  · exact hselector key value h
  · rename_i hw
    have hput : Entries.get? (Entries.put i.selectorLabels deploymentConfigLabel i.name) key =
        some value := h
    rw [Entries.get?_put] at hput
    split_ifs at hput with hkey
    · rw [podLabels, hw, hkey]
      exact (Entries.get?_put_self _ _ _).trans hput
    · exact hselector key value hput

theorem workloadSelector_includes (i : Instance) :
    Entries.Includes i.workloadSelector i.selectorLabels := by
  unfold workloadSelector
  split
  · exact fun key value h => h
  · have hput : i.deploymentConfig.spec.selector =
        Entries.put i.selectorLabels deploymentConfigLabel i.name := rfl
    rw [hput, includes_selectorLabels, Entries.get?_put_of_ne _ _ (by decide),
      Entries.get?_put_of_ne _ _ (by decide), selectorLabels_eq]
    exact ⟨rfl, rfl⟩

/-! ### The selector as a text -/

theorem labelSelector_eq (i : Instance) : i.labelSelector =
    nameLabel ++ "=" ++ i.name ++ String.singleton ',' ++ (typeLabel ++ "=" ++ typeLabelValue) := by
  rw [labelSelector, selectorLabels_eq]
  rfl

theorem split_labelSelector (h : ',' ∉ i.name.toList) : Text.split ',' i.labelSelector =
    [nameLabel ++ "=" ++ i.name, typeLabel ++ "=" ++ typeLabelValue] := by
  rw [labelSelector_eq]
  refine Text.split_pair ?_ (by decide)
  have hfixed : ',' ∉ (nameLabel ++ "=").toList := by decide
  rw [String.toList_append, List.mem_append]
  exact fun hor => hor.elim hfixed h

theorem terms_labelSelector (hcomma : ',' ∉ i.name.toList) (hequals : '=' ∉ i.name.toList) :
    (Text.split ',' i.labelSelector).map (Text.split '=') =
      i.selectorLabels.map (fun e => [e.1, e.2]) := by
  have hname : Text.split '=' (nameLabel ++ "=" ++ i.name) = [nameLabel, i.name] :=
    Text.split_pair (by decide) hequals
  have htype : Text.split '=' (typeLabel ++ "=" ++ typeLabelValue) = [typeLabel, typeLabelValue] :=
    Text.split_pair (by decide) (by decide)
  rw [split_labelSelector hcomma, selectorLabels_eq, List.map_cons, List.map_singleton, hname,
    htype]
  rfl

/-- The text selects as the labels do. -/
theorem meetsSelector_labelSelector {m : Manifest} (h : ',' ∉ i.name.toList) :
    m.meetsSelector i.labelSelector = true ↔ m.metadata.Carries i.selectorLabels := by
  have hname : Text.splitOnce? '=' (nameLabel ++ "=" ++ i.name) = some (nameLabel, i.name) :=
    (Text.splitOnce?_eq_some_iff _ _ _).2 ⟨by simp, by decide⟩
  have htype : Text.splitOnce? '=' (typeLabel ++ "=" ++ typeLabelValue) =
      some (typeLabel, typeLabelValue) :=
    (Text.splitOnce?_eq_some_iff _ _ _).2 ⟨by simp, by decide⟩
  rw [Manifest.meetsSelector, split_labelSelector h, Metadata.Carries, includes_selectorLabels]
  simp [hname, htype, Metadata.label?_eq]

/-! ### Pods -/

/-- Who has the labels of a template is selected by the labels of its record. -/
theorem carries_of_template {m : Metadata} (h : m.Carries i.podTemplate.labels) :
    m.Carries i.workloadSelector ∧ m.Carries i.selectorLabels := by
  have hworkload := h.trans i.podLabels_includes_workloadSelector
  exact ⟨hworkload, hworkload.trans i.workloadSelector_includes⟩

theorem recordOfPod?_of_carries {m : Metadata} (h : m.Carries i.selectorLabels) {ns : String}
    (hi : i.metadata.ns = some ns) (hm : m.ns = some ns) : m.recordOfPod? = some i.key := by
  have hlabel := (includes_selectorLabels.1 h).1
  rw [Metadata.recordOfPod?, Metadata.label?_eq, hlabel, hm, key, hi]
  rfl

/-- The name of the record is among its pods' labels, so those of another name are apart. -/
theorem not_carries_of_name_ne {m : Metadata} (h : m.Carries j.selectorLabels)
    (hname : j.name ≠ i.name) : ¬ m.Carries i.selectorLabels := by
  intro hi
  have hlabel := (includes_selectorLabels.1 h).1.symm.trans (includes_selectorLabels.1 hi).1
  exact hname (Option.some.inj hlabel)

/-- The workload is built around the template. -/
theorem exists_workload (i : Instance) : ∃ m, i.spec.workload.kind.desired i = some m ∧
    (m.field "spec").member "template" = i.podTemplate.toJson ∧
    i.spec.workload.kind.podSelector m = Wire.stringMap i.workloadSelector := by
  unfold workloadSelector
  cases hw : i.spec.workload with
  | deployment =>
    have hd : ChildKind.deployment.desired i = some i.deployment.toManifest :=
      if_pos (beq_iff_eq.2 hw)
    exact ⟨_, hd, rfl, rfl⟩
  | deploymentConfig =>
    have hd : ChildKind.deploymentConfig.desired i = some i.deploymentConfig.toManifest :=
      if_pos (beq_iff_eq.2 hw)
    exact ⟨_, hd, rfl, rfl⟩

/-- What selects the pods of a record by their labels, given that nothing in its name is taken for
the grammar of a selector.  Workload and service are built with these selectors, and the text by
which the status lists pods reads as the pairs of the service.  A pod with the labels of the
template is selected by all of them, is known as one of a record and leads back to this one.  A pod
of a record with another name is selected by none.  No label or annotation of the record changes a
selector, a label that is selected by, or who manages and created the children. -/
theorem selectors_agree {ns : String} (hns : i.metadata.ns = some ns)
    (hcomma : ',' ∉ i.name.toList) (hequals : '=' ∉ i.name.toList) :
    (∃ m, i.spec.workload.kind.desired i = some m ∧
      m.templateLabels = Wire.stringMap i.podTemplate.labels ∧
      i.spec.workload.kind.podSelector m = Wire.stringMap i.workloadSelector) ∧
    (∃ m, ChildKind.service.desired i = some m ∧
      ChildKind.service.podSelector m = Wire.stringMap i.service.selector) ∧
    (Text.split ',' i.labelSelector).map (Text.split '=') =
      i.service.selector.map (fun e => [e.1, e.2]) ∧
    (∀ pod : Manifest, pod.metadata.Carries i.podTemplate.labels →
      pod.metadata.Carries i.workloadSelector ∧ pod.metadata.Carries i.service.selector ∧
        pod.meetsSelector i.labelSelector = true ∧ pod.metadata.isPodOfRecord = true ∧
        (pod.metadata.ns = some ns → pod.metadata.recordOfPod? = some i.key)) ∧
    (∀ j : Instance, j.name ≠ i.name → ∀ pod : Manifest,
      pod.metadata.Carries j.podTemplate.labels →
      ¬ pod.metadata.Carries i.workloadSelector ∧ ¬ pod.metadata.Carries i.service.selector ∧
        pod.meetsSelector i.labelSelector = false) ∧
    ∀ labels annotations,
      let j := { i with metadata := { i.metadata with labels, annotations } }
      j.workloadSelector = i.workloadSelector ∧ j.service.selector = i.service.selector ∧
        j.labelSelector = i.labelSelector ∧
        Entries.Includes j.podTemplate.labels i.workloadSelector ∧
        j.childMetadata.Carries i.service.selector ∧
        ∀ key ∈ [managedByLabel, createdByLabel],
          Entries.get? j.podTemplate.labels key = some operatorName ∧
            j.childMetadata.label? key = some operatorName := by
  obtain ⟨m, hdesired, htemplate, hselector⟩ := i.exists_workload
  have hlabels : m.templateLabels = Wire.stringMap i.podTemplate.labels := by
    rw [Manifest.templateLabels, htemplate]
    rfl
  refine ⟨⟨m, hdesired, hlabels, hselector⟩, ⟨_, rfl, rfl⟩,
    terms_labelSelector hcomma hequals, ?_, ?_, ?_⟩
  · intro pod h
    obtain ⟨hworkload, hselector⟩ := carries_of_template h
    refine ⟨hworkload, hselector, (meetsSelector_labelSelector hcomma).2 hselector, ?_,
      recordOfPod?_of_carries hselector hns⟩
    rw [Metadata.isPodOfRecord, Metadata.label?_eq, (includes_selectorLabels.1 hselector).2]
    exact beq_self_eq_true _
  · intro j hname pod h
    have hother := not_carries_of_name_ne (carries_of_template h).2 hname
    refine ⟨fun hworkload => hother (hworkload.trans i.workloadSelector_includes), hother, ?_⟩
    rw [← Bool.not_eq_true, meetsSelector_labelSelector hcomma]
    exact hother
  · intro labels annotations j
    have hgiven (key : String) (hkey : key ∈ [managedByLabel, createdByLabel]) :
        Entries.get? j.givenLabels key = some operatorName := by
      rw [get?_givenLabels, if_pos]
      simpa [or_comm] using hkey
    refine ⟨rfl, rfl, rfl, j.podLabels_includes_workloadSelector,
      j.labels_includes.trans j.givenLabels_includes, fun key hkey => ⟨?_, ?_⟩⟩
    · exact j.podLabels_includes _ _ (hgiven key hkey)
    · rw [Metadata.label?_eq]
      exact j.labels_includes _ _ (hgiven key hkey)

/-- The pod of a record whose labels name another record, another type and another manager. -/
theorem selectors_agree_mislabelled :
    let record : Instance := ⟨{
      name := some "mail", ns := some "dev", labels := some [
        ("app", "web"), (managedByLabel, "me"), (nameLabel, "post"), (typeLabel, "other")] },
      { workload := .deploymentConfig }, none⟩
    let other : Instance := ⟨{ name := some "post", ns := some "dev" }, {}, none⟩
    let pod : Manifest := ⟨none, { ns := some "dev", labels := some record.podTemplate.labels }, []⟩
    pod.metadata.label? "app" = some "web" ∧
      pod.metadata.label? managedByLabel = some operatorName ∧
      pod.metadata.Carries record.workloadSelector ∧ pod.metadata.Carries record.service.selector ∧
      pod.meetsSelector record.labelSelector = true ∧
      pod.metadata.recordOfPod? = some ⟨"dev", "mail"⟩ ∧
      ¬ pod.metadata.Carries other.workloadSelector ∧
      pod.meetsSelector other.labelSelector = false := by
  intro record other pod
  have hns : record.metadata.ns = some "dev" := rfl
  have hother : other.metadata.ns = some "dev" := rfl
  have hcarries : pod.metadata.Carries record.podTemplate.labels := Metadata.carries_of_labels rfl
  obtain ⟨-, -, -, hpods, -, -⟩ := selectors_agree hns (by decide) (by decide)
  obtain ⟨hworkload, hservice, hmeets, -, hrecord⟩ := hpods pod hcarries
  obtain ⟨-, -, -, -, hapart, -⟩ := selectors_agree hother (by decide) (by decide)
  obtain ⟨hnot, -, hmisses⟩ := hapart record (by decide) pod hcarries
  exact ⟨by decide +kernel, by decide +kernel, hworkload, hservice, hmeets, hrecord rfl, hnot,
    hmisses⟩

end Instance
end MailCapture
