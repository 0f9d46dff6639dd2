import MailCapture.DeploymentConfig
import MailCapture.Proofs.Relays
import MailCapture.Route
/-!
Specs and statuses that are written and read back: what comes back is what was written, whatever the
fields hold.  For the parts that hold maps the maps have to be in order, as all maps are that were
read.
-/
namespace MailCapture

namespace Wire
variable {α : Type} {value : Document → Option α} {write : α → Json}

/-- A reader gives back what was written in order, and `null` is nothing that is written. -/
structure Restores (value : Document → Option α) (write : α → Json) : Prop where
  null : value .null = none
  back : ∀ a, (write a).Ordered → value (Document.ofJson (write a)) = some a

theorem restores_stringMap : Restores stringMap? stringMap := by
  refine ⟨rfl, fun m h => ?_⟩
  have hnames := ((Json.named_obj _).1 h).1
  rw [List.map_map] at hnames
  have hascending : Entries.Ascending m := List.pairwise_map.1 hnames
  rw [stringMap?_stringMap, hascending.ofPairs_eq]

theorem Restores.list (h : Restores value write) :
    Restores (list? value) (fun as => .arr (as.map write)) := by
  refine ⟨rfl, fun as ho => list?_arr as fun a ha => h.back a ?_⟩
  exact (Json.named_arr _).1 ho _ (List.mem_map_of_mem ha)

variable {fields : List (String × Option Json)}

/-- What a structure in order holds in its fields is in order. -/
theorem ordered_of_record (h : (record fields).Ordered) (key : String) {v : Json}
    (hv : (key, some v) ∈ fields) : v.Ordered :=
  ((Json.named_obj _).1 h).2 (key, v) (List.mem_filterMap.2 ⟨_, hv, rfl⟩)

/-- An optional field of a structure in order is read back. -/
theorem Restores.readField (h : Restores value write) (ho : (record fields).Ordered) (key : String)
    {o : Option α} (hmem : (key, o.map write) ∈ fields) :
    readField (o.map write) (nullable value) (some none) = some o := by
  refine readField_map_of h.null fun a ha => h.back a (ordered_of_record ho key ?_)
  rwa [ha] at hmem

end Wire

open Wire

/-! ### Resources and affinity rules -/

@[simp] theorem ResourceClaim.inverts : Inverts read? toJson :=
  ⟨rfl, fun c => of_members (by simp [Entries.Distinct]) fun hd => by
    simp [lenientText, lenient, optional_written hd, Entries.get?]⟩

theorem Resources.restores : Restores read? toJson :=
  ⟨rfl, fun r ho => of_members (by simp [Entries.Distinct]) fun hd => by
    have hlimits := restores_stringMap.readField ho "limits" (o := r.limits) (by simp)
    have hrequests := restores_stringMap.readField ho "requests" (o := r.requests) (by simp)
    simp [optional_written hd, Entries.get?, hlimits, hrequests]⟩

@[simp] theorem Requirement.inverts : Inverts read? toJson :=
  ⟨rfl, fun r => of_members (by simp [Entries.Distinct]) fun hd => by
    simp [lenientText, lenient, optional_written hd, Entries.get?]⟩

@[simp] theorem Requirement.inverts_listJson : Inverts (list? read?) listJson :=
  inverts_list Requirement.inverts

@[simp] theorem NodeSelectorTerm.inverts : Inverts read? toJson :=
  ⟨rfl, fun t => of_members (by simp [Entries.Distinct]) fun hd => by
    simp [optional_written hd, Entries.get?]⟩

@[simp] theorem PreferredNodes.inverts : Inverts read? toJson :=
  ⟨rfl, fun p => of_members (by simp [Entries.Distinct]) fun hd => by
    simp [lenient, optional_written hd, Entries.get?]⟩

@[simp] theorem NodeAffinity.inverts_termsJson : Inverts terms? termsJson :=
  ⟨rfl, fun ts => of_members (by simp [Entries.Distinct]) fun hd => by
    simp [lenient, optional_written hd, Entries.get?]⟩

@[simp] theorem NodeAffinity.inverts : Inverts read? toJson :=
  ⟨rfl, fun a => of_members (by simp [Entries.Distinct]) fun hd => by
    simp [optional_written hd, Entries.get?]⟩

theorem LabelSelector.restores : Restores read? toJson :=
  ⟨rfl, fun s ho => of_members (by simp [Entries.Distinct]) fun hd => by
    have hlabels := restores_stringMap.readField ho "matchLabels" (o := s.matchLabels) (by simp)
    simp [optional_written hd, Entries.get?, hlabels]⟩

theorem PodAffinityTerm.restores : Restores read? toJson :=
  ⟨rfl, fun t ho => of_members (by simp [Entries.Distinct]) fun hd => by
    have hlabels := LabelSelector.restores.readField ho "labelSelector" (o := t.labelSelector)
      (by simp)
    have hspaces := LabelSelector.restores.readField ho "namespaceSelector"
      (o := t.namespaceSelector) (by simp)
    simp [lenientText, lenient, optional_written hd, Entries.get?, hlabels, hspaces]⟩

theorem PreferredPods.restores : Restores read? toJson :=
  ⟨rfl, fun p ho => of_members (by simp [Entries.Distinct]) fun hd => by
    have hterm := PodAffinityTerm.restores.readField ho "podAffinityTerm" (o := some p.term)
      (by simp)
    rw [Option.map_some] at hterm
    simp [lenient, optional_written hd, Entries.get?, hterm]⟩

theorem PodAffinity.restores : Restores read? toJson :=
  ⟨rfl, fun a ho => of_members (by simp [Entries.Distinct]) fun hd => by
    have hpreferred := PreferredPods.restores.list.readField ho
      "preferredDuringSchedulingIgnoredDuringExecution" (o := a.preferred) (by simp)
    have hrequired := PodAffinityTerm.restores.list.readField ho
      "requiredDuringSchedulingIgnoredDuringExecution" (o := a.required) (by simp)
    simp [optional_written hd, Entries.get?, hpreferred, hrequired]⟩

theorem Affinity.restores : Restores read? toJson :=
  ⟨rfl, fun a ho => of_members (by simp [Entries.Distinct]) fun hd => by
    have hpods := PodAffinity.restores.readField ho "podAffinity" (o := a.podAffinity) (by simp)
    have hanti := PodAffinity.restores.readField ho "podAntiAffinity" (o := a.podAntiAffinity)
      (by simp)
    simp [optional_written hd, Entries.get?, hpods, hanti]⟩

/-! ### Settings and specs -/

@[simp] theorem Storage.inverts : Inverts read? toJson := ⟨rfl, fun s => by cases s <;> rfl⟩

@[simp] theorem Inlet.inverts : Inverts read? toJson := ⟨rfl, fun i => by cases i <;> rfl⟩

@[simp] theorem Workload.inverts : Inverts read? toJson := ⟨rfl, fun w => by cases w <;> rfl⟩

@[simp] theorem MongoSettings.inverts : Inverts read? toJson :=
  ⟨rfl, fun m => of_structure (by simp [Entries.Distinct]) fun hd => by
    simp [defaulted_written hd, Entries.get?]⟩

@[simp] theorem MaildirSettings.inverts : Inverts read? toJson :=
  ⟨rfl, fun m => of_structure (by simp [Entries.Distinct]) fun hd => by
    simp [defaulted_written hd, Entries.get?]⟩

@[simp] theorem WebUser.inverts : Inverts read? toJson :=
  ⟨rfl, fun u => of_structure (by simp [Entries.Distinct]) fun hd => by
    simp [required_written hd, Entries.get?]⟩

@[simp] theorem SettingsFiles.inverts : Inverts read? toJson :=
  ⟨rfl, fun f => of_structure (by simp [Entries.Distinct]) fun hd => by
    simp [defaulted_written hd, Entries.get?, -List.isEmpty_iff]⟩

@[simp] theorem Jim.inverts : Inverts read? toJson :=
  ⟨rfl, fun j => of_structure (by simp [Entries.Distinct]) fun hd => by
    simp [defaulted_written hd, Entries.get?]⟩

@[simp] theorem IngressSettings.inverts : Inverts read? toJson :=
  ⟨rfl, fun i => of_structure (by simp [Entries.Distinct]) fun hd => by
    simp [defaulted_written hd, Entries.get?]⟩

theorem Settings.restores : Restores read? toJson :=
  ⟨rfl, fun s ho => of_structure (by simp [Entries.Distinct]) fun hd => by
    have hresources := Resources.restores.readField ho "resources" (o := s.resources) (by simp)
    have haffinity := Affinity.restores.readField ho "affinity" (o := s.affinity) (by simp)
    simp [defaulted_written hd, optional_written hd, Entries.get?, hresources, haffinity]⟩

theorem Spec.restores : Restores read? toJson :=
  ⟨rfl, fun s ho => of_structure (by simp [Entries.Distinct]) fun hd => by
    have hsettings : readField (some s.settings.toJson) Settings.read? (some {}) =
        some s.settings :=
      Settings.restores.back s.settings (ordered_of_record ho "settings" (by simp))
    simp [defaulted_written hd, Entries.get?, hsettings]⟩

/-! ### Statuses -/

@[simp] theorem PodBuckets.inverts : Inverts read? toJson :=
  ⟨rfl, fun b => of_structure (by simp [Entries.Distinct]) fun hd => by
    have hbucket (names : List String) :
        readField (bucketJson names) strings? (some []) = some names :=
      readField_unlessNil inverts_string names
    simp [defaulted_written hd, Entries.get?, hbucket]⟩

@[simp] theorem Status.inverts : Inverts read? toJson :=
  ⟨rfl, fun s => of_structure (by simp [Entries.Distinct]) fun hd => by
    simp [defaulted_written hd, optional_written hd, Entries.get?]⟩

/-! ### Routes -/

@[simp] theorem RouteTarget.inverts : Inverts read? toJson :=
  ⟨rfl, fun t => of_structure (by simp [Entries.Distinct]) fun hd => by
    simp [required_written hd, optional_written hd, Entries.get?]⟩

@[simp] theorem RouteTls.inverts : Inverts read? toJson :=
  ⟨rfl, fun t => of_structure (by simp [Entries.Distinct]) fun hd => by
    simp [required_written hd, optional_written hd, Entries.get?]⟩

@[simp] theorem RouteSpec.inverts_portJson : Inverts port? portJson :=
  ⟨rfl, fun p => of_structure (by simp [Entries.Distinct]) fun hd => by
    simp [required_written hd, Entries.get?]⟩

@[simp] theorem RouteSpec.inverts : Inverts read? toJson :=
  ⟨rfl, fun s => of_structure (by simp [Entries.Distinct]) fun hd => by
    simp [required_written hd, optional_written hd, Entries.get?]⟩

@[simp] theorem RouteCondition.inverts : Inverts read? toJson :=
  ⟨rfl, fun c => of_structure (by simp [Entries.Distinct]) fun hd => by
    simp [required_written hd, Entries.get?]⟩

@[simp] theorem RouteIngress.inverts : Inverts read? toJson :=
  ⟨rfl, fun i => of_structure (by simp [Entries.Distinct]) fun hd => by
    simp [defaulted_written hd, optional_written hd, Entries.get?]⟩

@[simp] theorem RouteStatus.inverts : Inverts read? toJson :=
  ⟨rfl, fun s => of_structure (by simp [Entries.Distinct]) fun hd => by
    simp [defaulted_written hd, Entries.get?]⟩

/-! ### Deployment configs -/

@[simp] theorem RollingParams.inverts : Inverts read? toJson :=
  ⟨rfl, fun p => of_structure (by simp [Entries.Distinct]) fun hd => by
    simp [optional_written hd, Entries.get?]⟩

@[simp] theorem RolloutStrategy.inverts : Inverts read? toJson :=
  ⟨rfl, fun s => of_structure (by simp [Entries.Distinct]) fun hd => by
    simp [required_written hd, optional_written hd, Entries.get?]⟩

@[simp] theorem DeploymentConfigSpec.inverts_triggerJson : Inverts trigger? triggerJson :=
  ⟨rfl, fun t => of_structure (by simp [Entries.Distinct]) fun hd => by
    simp [required_written hd, Entries.get?]⟩

/-- The spec of a deployment config is restored if its template is. -/
theorem DeploymentConfigSpec.read?_toJson {s : DeploymentConfigSpec}
    (hselector : Entries.Ascending s.selector)
    (htemplate : ∀ t, s.template = some t → t.as? Shape.podTemplate.read? = some t) :
    s.toJson.as? read? = some s := by
  refine of_structure (by simp [Entries.Distinct]) fun hd => ?_
  have hmap : readField (some (stringMap s.selector)) stringMap? (some []) = some s.selector := by
    rw [readField, Option.elim_some, stringMap?_stringMap, hselector.ofPairs_eq]
  have hread : readField s.template (nullable Shape.podTemplate.read?) (some none) =
      some s.template := by
    cases ht : s.template with
    | none => rfl
    | some t => exact nullable_of_eq_some rfl (htemplate t ht)
  simp [required_written hd, defaulted_written hd, optional_written hd, Entries.get?, hmap, hread,
    -List.isEmpty_iff]

@[simp] theorem DeploymentConfigStatus.inverts : Inverts read? toJson :=
  ⟨rfl, fun s => of_structure (by simp [Entries.Distinct]) fun hd => by
    simp [defaulted_written hd, Entries.get?]⟩

end MailCapture
