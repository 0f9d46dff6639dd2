import MailCapture.Proofs.Reading
import MailCapture.Proofs.Restored
import MailCapture.Proofs.Timestamps
import MailCapture.Status
/-!
Objects that are written and read back, as what they are or as objects of any kind.  Their metadata
may come back changed, since times lose what is smaller than a second and maps are put in order;
specs and statuses come back as they were.
-/
namespace MailCapture

namespace Entries
variable {α : Type}

theorem put_of_lt {k key : String} (h : key < k) (v value : α)
    (rest : Entries α) : put ((k, v) :: rest) key value = (key, value) :: (k, v) :: rest := by
  have hne : ¬ k = key := fun heq => String.lt_irrefl _ (heq ▸ h)
  rw [put, if_neg hne, if_pos h]

theorem put_of_gt {k key : String} (h : k < key) (v value : α)
    (rest : Entries α) : put ((k, v) :: rest) key value = (k, v) :: put rest key value := by
  have hne : ¬ k = key := fun heq => String.lt_irrefl _ (heq ▸ h)
  rw [put, if_neg hne, if_neg (String.lt_asymm h)]

theorem ascending_of_inSequence {m : Entries α}
    (h : inSequence (m.map Prod.fst) = true) : Ascending m :=
  List.pairwise_map.1 (pairwise_of_inSequence h)

end Entries

namespace Wire
variable {α : Type} {value : Document → Option α} {write : α → Json} {P : α → Prop}

/-- A reader makes something of all that is written of the values with a property, and what it makes
has the property. -/
structure Rereads (value : Document → Option α) (write : α → Json) (P : α → Prop) : Prop where
  null : value .null = none
  back : ∀ a, P a → ∃ b, value (Document.ofJson (write a)) = some b ∧ P b

theorem Rereads.list (h : Rereads value write P) :
    Rereads (list? value) (fun as => .arr (as.map write)) (fun as => ∀ a ∈ as, P a) := by
  refine ⟨rfl, fun as has => ?_⟩
  rw [Document.ofJson, list?, Document.ofItems_eq, List.map_map]
  induction as with
  | nil => exact ⟨[], rfl, has⟩
  | cons a rest ih =>
    obtain ⟨hhead, htail⟩ := List.forall_mem_cons.1 has
    obtain ⟨b, hb, hPb⟩ := h.back a hhead
    obtain ⟨bs, hbs, hPbs⟩ := ih htail
    refine ⟨b :: bs, ?_, List.forall_mem_cons.2 ⟨hPb, hPbs⟩⟩
    rw [List.map_cons, List.mapM_cons, Function.comp_apply, hb, hbs]
    rfl

/-- An optional field is read as one, and what it holds has the property still. -/
theorem Rereads.readField (h : Rereads value write P) {o : Option α} (ho : ∀ a, o = some a → P a) :
    ∃ b, readField (o.map write) (nullable value) (some none) = some b ∧ ∀ a, b = some a → P a := by
  cases o with
  | none => exact ⟨none, rfl, by simp⟩
  | some a =>
    obtain ⟨b, hb, hPb⟩ := h.back a (ho a rfl)
    exact ⟨some b, nullable_of_eq_some h.null hb, by simpa using hPb⟩

theorem rereads_stringMap : Rereads stringMap? stringMap (fun _ => True) :=
  ⟨rfl, fun m _ => ⟨Entries.ofPairs m, stringMap?_stringMap m, trivial⟩⟩

end Wire

open Wire

/-! ### Metadata -/

theorem Time.rereads : Rereads read? toJson (fun t => t.isInRange = true) := by
  refine ⟨rfl, fun t ht => ?_⟩
  obtain ⟨u, hu, hrange, -⟩ := ofText?_text ht
  refine ⟨u, ?_, hrange⟩
  rw [toJson, Document.ofJson, read?, string?, Option.bind_some, hu]

def FieldOwnership.IsDated (f : FieldOwnership) : Prop := ∀ t, f.time = some t → t.isInRange = true

theorem FieldOwnership.rereads : Rereads read? toJson IsDated := by
  refine ⟨rfl, fun f hf => ?_⟩
  obtain ⟨fields, hfields⟩ : ∃ v, readField f.fieldsV1 (nullable Document.value?) (some none) =
      some v := by
    -- a value comes back with its names in order, and `null` as nothing
    cases f.fieldsV1 with
    | none => exact ⟨none, rfl⟩
    | some v =>
      rw [readField, Option.elim_some]
      unfold nullable
      split
      · exact ⟨none, rfl⟩
      · exact ⟨some v.inOrder, by rw [Document.value?_ofJson, Option.map_some]⟩
  obtain ⟨time, htime, hdated⟩ := Time.rereads.readField hf
  refine ⟨{ f with fieldsV1 := fields, time := time }, ?_, hdated⟩
  exact of_members (by simp [Entries.Distinct]) fun hd => by
    simp [optional_written hd, Entries.get?, hfields, htime]

@[simp] theorem OwnerReference.inverts : Inverts read? toJson :=
  ⟨rfl, fun o => of_members (by simp [Entries.Distinct]) fun hd => by
    simp [lenientText, lenient, optional_written hd, Entries.get?]⟩

structure Metadata.IsDated (m : Metadata) : Prop where
  created : ∀ t, m.creationTimestamp = some t → t.isInRange = true
  deleted : ∀ t, m.deletionTimestamp = some t → t.isInRange = true
  managed : ∀ fs, m.managedFields = some fs → ∀ f ∈ fs, f.IsDated

theorem Metadata.rereads : Rereads read? toJson IsDated := by
  refine ⟨rfl, fun m hm => ?_⟩
  obtain ⟨annotations, hannotations, -⟩ :=
    rereads_stringMap.readField (o := m.annotations) (by simp)
  obtain ⟨created, hcreated, hcreated'⟩ := Time.rereads.readField hm.created
  obtain ⟨deleted, hdeleted, hdeleted'⟩ := Time.rereads.readField hm.deleted
  obtain ⟨labels, hlabels, -⟩ :=
    rereads_stringMap.readField (o := m.labels) (by simp)
  obtain ⟨managed, hmanaged, hmanaged'⟩ := FieldOwnership.rereads.list.readField hm.managed
  refine ⟨{ m with
    annotations := annotations, creationTimestamp := created, deletionTimestamp := deleted
    labels := labels, managedFields := managed }, ?_, ⟨hcreated', hdeleted', hmanaged'⟩⟩
  exact of_members (by simp [Entries.Distinct]) fun hd => by
    simp [optional_written hd, Entries.get?, hannotations, hcreated, hdeleted, hlabels, hmanaged]

/-! ### Objects -/

/-- The fields that are there ascend if all would. -/
theorem Wire.ascending_fields {fields : List (String × Option Json)}
    (h : inSequence (fields.map Prod.fst) = true) :
    Entries.Ascending (fields.filterMap (fun e => e.2.map (fun v => (e.1, v)))) :=
  List.pairwise_map.1 ((pairwise_of_inSequence h).sublist (names_sublist fields))

section
variable {m back : Metadata}

/-- An object is read as one of any kind, with its spec and status as they were written. -/
theorem Manifest.read?_record (hm : m.toJson.as? Metadata.read? = some back) (types : TypeNames)
    {spec : Json} (hspec : spec.Ordered) {status : Option Json}
    (hstatus : ∀ v, status = some v → v.Ordered) :
    (record [("apiVersion", some (.str types.apiVersion)), ("kind", some (.str types.kind)),
      ("metadata", some m.toJson), ("spec", some spec), ("status", status)]).as? read? =
      some ⟨some types, back, [("spec", some spec), ("status", status)].filterMap
        (fun e => e.2.map (fun v => (e.1, v)))⟩ := by
  obtain ⟨fields, hfields⟩ : ∃ fields, fields = [("apiVersion", some (Json.str types.apiVersion)),
      ("kind", some (.str types.kind)), ("metadata", some m.toJson), ("spec", some spec),
      ("status", status)] := ⟨_, rfl⟩
  have hd : Entries.Distinct fields := by simp [hfields, Entries.Distinct]
  have hmetadata : defaulted (written fields) "metadata" Metadata.read? {} = some back := by
    rw [defaulted_written hd, hfields]
    exact hm
  have hvalue {v : Json} (h : v.Ordered) : (Document.ofJson v).value? = some v := by
    rw [Document.value?_ofJson, Json.inOrder_self v h]
  obtain ⟨others, hothers⟩ : ∃ others, others = [("spec", some spec), ("status", status)].filterMap
      (fun e => e.2.map (fun v => (e.1, v))) := ⟨_, rfl⟩
  have hvalues : Document.memberValues? ((written fields).filter (fun e => e.1 ≠ "metadata")) =
      some (("apiVersion", .str types.apiVersion) :: ("kind", .str types.kind) :: others) := by
    cases status with
    | none =>
      simp [hfields, hothers, written, Document.ofJson, Document.memberValues?, Document.value?,
        hvalue hspec]
    | some v =>
      simp [hfields, hothers, written, Document.ofJson, Document.memberValues?, Document.value?,
        hvalue hspec, hvalue (hstatus v rfl)]
  have htake : TypeNames.take {} (("apiVersion", .str types.apiVersion) ::
      ("kind", .str types.kind) :: others) = (some types, others) := by
    subst hothers
    cases status <;> rfl
  have hascending : Entries.Ascending others :=
    hothers ▸ ascending_fields (show inSequence ["spec", "status"] = true by decide)
  rw [← hfields, ← hothers, Json.as?, read?, object?_record hd]
  simp only [Option.bind_eq_bind, Option.bind_some, hmetadata, hvalues, htake,
    hascending.ofPairs_eq]
  rfl

theorem Wire.of_rootFields {α : Type} {fields : List (String × Option Json)}
    {build : Members → Option α} {a : Option α} (hd : Entries.Distinct fields)
    (h : Entries.Distinct fields → build (written fields) = a) :
    (rootFields? (Document.ofJson (record fields)) >>= build) = a := by
  have hroot : rootFields? (Document.ofJson (record fields)) = some (written fields) := by
    rw [← object?_record hd ["metadata", "spec", "status"], ofJson_record, rootFields?]
    rintro items ⟨⟩
  rw [hroot]
  exact h hd

theorem Instance.read?_toJson {i : Instance} (hspec : i.spec.toJson.Ordered)
    (hm : i.metadata.toJson.as? Metadata.read? = some back) :
    i.toJson.as? read? = some { i with metadata := back } := by
  have hmetadata : readField (some i.metadata.toJson) Metadata.read? none = some back := hm
  have hread : readField (some i.spec.toJson) Spec.read? none = some i.spec :=
    Spec.restores.back i.spec hspec
  refine of_rootFields (by simp [Entries.Distinct]) fun hd => ?_
  simp [required_written hd, optional_written hd, Entries.get?, hmetadata, hread]

theorem Route.read?_toJson {r : Route} (hm : r.metadata.toJson.as? Metadata.read? = some back) :
    r.toJson.as? read? = some { r with metadata := back } := by
  have hmetadata : readField (some r.metadata.toJson) Metadata.read? none = some back := hm
  refine of_rootFields (by simp [Entries.Distinct]) fun hd => ?_
  simp [required_written hd, optional_written hd, Entries.get?, hmetadata]

theorem Route.toJson_toManifest (r : Route) : r.toManifest.toJson = r.toJson := by
  simp only [toManifest, Manifest.toJson, toJson, record, List.filterMap_cons, Option.map_some]
  rw [Entries.put_of_lt (by decide : "metadata" < "spec"),
    Entries.put_of_lt (by decide : "apiVersion" < "metadata"),
    Entries.put_of_gt (by decide : "apiVersion" < "kind"),
    Entries.put_of_lt (by decide : "kind" < "metadata")]

/-- A route as an object of any kind is that route. -/
theorem Route.ofManifest?_toManifest (r : Route) : ofManifest? r.toManifest = some r := by
  obtain ⟨fields, hfields⟩ : ∃ fields, fields =
      [("spec", some r.spec.toJson), ("status", r.status.map RouteStatus.toJson)] := ⟨_, rfl⟩
  have hd : Entries.Distinct fields := by simp [hfields, Entries.Distinct]
  have hwritten : Document.ofFields r.toManifest.fields = written fields := by
    have hrecord := ofJson_record fields
    rw [record, Document.ofJson, hfields] at hrecord
    rw [hfields]
    exact Document.obj.inj hrecord
  rw [ofManifest?, hwritten, required_written hd, optional_written hd, hfields]
  simp [Entries.get?, toManifest]

/-- A route comes back from an object of any kind, and its metadata as what is read of them. -/
theorem Route.reread {r : Route} (hm : r.metadata.IsDated) :
    ∃ m back, r.toJson.as? Manifest.read? = some m ∧ m.toJson.as? Route.read? = some back ∧
      back.spec = r.spec ∧ back.status = r.status := by
  -- the metadata are read on the way there and on the way back
  obtain ⟨first, hfirst, hdated⟩ := Metadata.rereads.back r.metadata hm
  obtain ⟨second, hsecond, -⟩ := Metadata.rereads.back first hdated
  have hstatus : ∀ v, r.status.map RouteStatus.toJson = some v → v.Ordered := by
    intro v hv
    obtain ⟨status, -, rfl⟩ := Option.map_eq_some_iff.1 hv
    exact status.named_toJson
  refine ⟨({ r with metadata := first } : Route).toManifest, { r with metadata := second },
    Manifest.read?_record hfirst types r.spec.named_toJson hstatus, ?_, rfl, rfl⟩
  rw [toJson_toManifest]
  exact read?_toJson hsecond

/-- A status that was written and is read again is the stored one, so that nothing is written. -/
theorem Instance.status_reread {i : Instance} (hspec : i.spec.toJson.Ordered)
    (hm : i.metadata.IsDated) (status : Status) :
    ∃ j, ({ i with status := some status } : Instance).toJson.as? read? = some j ∧
      j.spec = i.spec ∧ j.status = some status ∧ j.writeStatus status = pure .unchanged := by
  obtain ⟨back, hback, -⟩ := Metadata.rereads.back i.metadata hm
  exact ⟨⟨back, i.spec, some status⟩, read?_toJson hspec hback, rfl, rfl,
    by rw [writeStatus, if_pos rfl]⟩

end

/-- Specs and statuses are what is read of them: those of instances, routes and deployment configs,
whatever their fields hold.  Maps are in order, as everywhere in this library, and a pod template is
taken to be one that comes back.  A route comes back with its spec and status from an object of any
kind, and a status that was written is the stored one when it is read again. -/
theorem wire_roundtrip :
    (∀ s : Spec, s.toJson.Ordered → s.toJson.as? Spec.read? = some s) ∧
    (∀ s : Status, s.toJson.as? Status.read? = some s) ∧
    (∀ s : RouteSpec, s.toJson.as? RouteSpec.read? = some s) ∧
    (∀ s : RouteStatus, s.toJson.as? RouteStatus.read? = some s) ∧
    (∀ s : DeploymentConfigSpec, Entries.Ascending s.selector →
      (∀ t, s.template = some t → t.as? Shape.podTemplate.read? = some t) →
        s.toJson.as? DeploymentConfigSpec.read? = some s) ∧
    (∀ s : DeploymentConfigStatus, s.toJson.as? DeploymentConfigStatus.read? = some s) ∧
    (∀ r : Route, r.metadata.IsDated →
      ∃ m back, r.toJson.as? Manifest.read? = some m ∧ m.toJson.as? Route.read? = some back ∧
        back.spec = r.spec ∧ back.status = r.status) ∧
    (∀ r : Route, Route.ofManifest? r.toManifest = some r) ∧
    (∀ (i : Instance) (status : Status), i.spec.toJson.Ordered → i.metadata.IsDated →
      ∃ j, ({ i with status := some status } : Instance).toJson.as? Instance.read? = some j ∧
        j.spec = i.spec ∧ j.status = some status ∧
          j.writeStatus status = pure .unchanged) :=
  ⟨Spec.restores.back, Status.inverts.back, RouteSpec.inverts.back, RouteStatus.inverts.back,
    fun _ => DeploymentConfigSpec.read?_toJson, DeploymentConfigStatus.inverts.back,
    fun _ => Route.reread, Route.ofManifest?_toManifest,
    fun _ status hspec hm => Instance.status_reread hspec hm status⟩

/-- An instance and a route that were created at some time, with limits in the spec, and a
deployment config with a labelled template. -/
theorem wire_roundtrip_limits :
    let metadata : Metadata := { name := some "mh", creationTimestamp := some ⟨1772323200, 7⟩ }
    let resources : Resources := { limits := some [("cpu", "1"), ("memory", "64Mi")] }
    let record : Instance := ⟨metadata, { settings := { resources := some resources } }, none⟩
    let status : Status := { pods := { ready := ["mh-1"] }, podCount := 1, readyPodCount := 1 }
    let route : Route := ⟨metadata, { target := ⟨"Service", "mh", some 100⟩ }, some {}⟩
    let config : DeploymentConfigSpec :=
      { replicas := 1, selector := [("app", "mh"), ("tier", "mail")]
        template := some (.obj [("metadata", .obj [("labels", .obj [("app", .str "mh")])])]) }
    record.spec.toJson.as? Spec.read? = some record.spec ∧
      config.toJson.as? DeploymentConfigSpec.read? = some config ∧
      (∃ m back, route.toJson.as? Manifest.read? = some m ∧ m.toJson.as? Route.read? = some back ∧
        back.spec = route.spec ∧ back.status = route.status) ∧
      ∃ j, ({ record with status := some status } : Instance).toJson.as? Instance.read? = some j ∧
        j.writeStatus status = pure .unchanged := by
  intro metadata resources record status route config
  have hlimits : Entries.Ascending [("cpu", "1"), ("memory", "64Mi")] :=
    Entries.ascending_of_inSequence (by decide)
  have hresources : resources.toJson.Ordered :=
    Resources.named_toJson (fun m hm => by cases hm; exact hlimits) (fun m hm => by cases hm)
  have hspec : record.spec.toJson.Ordered :=
    Spec.named_toJson (fun r hr => by cases hr; exact hresources) (fun a ha => by cases ha)
  have hdated : metadata.IsDated :=
    ⟨fun t ht => (by cases ht; decide), fun t ht => (by cases ht), fun fs hfs => (by cases hfs)⟩
  have hselector : Entries.Ascending config.selector :=
    Entries.ascending_of_inSequence (by decide)
  obtain ⟨hread, -, -, -, hconfig, -, hroute, -, hwritten⟩ := wire_roundtrip
  obtain ⟨j, hj, -, -, hunchanged⟩ := hwritten record status hspec hdated
  exact ⟨hread record.spec hspec,
    hconfig config hselector (fun t ht => by cases ht; rfl), hroute route hdated, j, hj, hunchanged⟩

end MailCapture
