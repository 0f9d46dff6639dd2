import MailCapture.Proofs.Written
/-!
What has been read has its names in order and none of them twice, be it a spec or an object of any
kind: of two members with one name only the later is kept.
-/
namespace MailCapture

namespace Wire
variable {α β : Type} {P : α → Prop}

/-! ### What holds of all values that are read -/

theorem forall_of_mapM {f : β → Option α} (hf : ∀ b a, f b = some a → P a) {items : List β}
    {as : List α} (h : items.mapM f = some as) : ∀ a ∈ as, P a := by
  induction items generalizing as with
  | nil =>
    cases h
    simp
  | cons b rest ih =>
    rw [List.mapM_cons] at h
    obtain ⟨a, ha, hrest⟩ := Option.bind_eq_some_iff.1 h
    obtain ⟨more, hmore, hcons⟩ := Option.bind_eq_some_iff.1 hrest
    cases hcons
    rw [List.forall_mem_cons]
    exact ⟨hf b a ha, ih hmore⟩

theorem of_list? {item : Document → Option α} (hitem : ∀ d a, item d = some a → P a)
    {d : Document} {as : List α} (h : list? item d = some as) : ∀ a ∈ as, P a := by
  cases d
  case arr items => exact forall_of_mapM hitem h
  all_goals cases h

theorem of_defaulted {value : Document → Option α} (hvalue : ∀ d a, value d = some a → P a)
    {missing a : α} (hmissing : P missing) {members : Members} {key : String}
    (h : defaulted members key value missing = some a) : P a := by
  obtain ⟨vs, hvs, rfl⟩ := Option.map_eq_some_iff.1 h
  have hall := forall_of_mapM (fun m a hm => hvalue m.2 a hm) hvs
  have hlast : vs.getLastD missing ∈ missing :: vs := List.getLastD_mem_cons
  cases List.mem_cons.1 hlast with
  | inl hnone =>
    rw [hnone]
    exact hmissing
  | inr hsome => exact hall _ hsome

theorem of_optional {value : Document → Option α} (hvalue : ∀ d a, value d = some a → P a)
    {members : Members} {key : String} {o : Option α}
    (h : optional members key value = some o) : ∀ a, o = some a → P a := by
  refine of_defaulted (P := fun o => ∀ a, o = some a → P a) (fun d o hd => ?_) (by simp) h
  unfold nullable at hd
  split at hd
  · cases hd
    simp
  · obtain ⟨a, ha, rfl⟩ := Option.map_eq_some_iff.1 hd
    intro b hb
    cases hb
    exact hvalue d a ha

theorem of_lenient {value : Document → Option α} (hvalue : ∀ d a, value d = some a → P a)
    {missing a : α} (hmissing : P missing) {members : Members} {key : String}
    (h : lenient members key value missing = some a) : P a := by
  obtain ⟨o, ho, rfl⟩ := Option.map_eq_some_iff.1 h
  have hall := of_optional hvalue ho
  cases o with
  | none => exact hmissing
  | some a => exact hall a rfl

theorem ascending_of_stringMap? {d : Document} {m : Entries String} (h : stringMap? d = some m) :
    Entries.Ascending m := by
  cases d
  case obj members =>
    obtain ⟨pairs, _, rfl⟩ := Option.map_eq_some_iff.1 h
    exact Entries.ascending_ofPairs pairs
  all_goals cases h

@[simp] theorem fieldNamed_unlessEmpty {N : List String → Prop} (s : String) :
    FieldNamed N (unlessEmpty s) := by
  unfold unlessEmpty
  split <;> simp

end Wire

variable {N : List String → Prop}

/-! ### Values -/

namespace Document

mutual

theorem named_of_value? [Naming N] : (d : Document) → {v : Json} → d.value? = some v → v.Named N
  | .null, _, h => by
    cases h
    simp [Json.Named]
  | .bool _, _, h => by
    cases h
    simp
  | .int _, _, h => by
    cases h
    simp
  | .double _, _, h => by
    cases h
    simp [Json.Named]
  | .str _, _, h => by
    cases h
    simp
  | .arr items, v, h => by
    rw [value?, Option.map_eq_some_iff] at h
    obtain ⟨vs, hvs, rfl⟩ := h
    exact (Json.named_arr vs).2 (named_of_itemValues? items hvs)
  | .obj members, v, h => by
    rw [value?, Option.map_eq_some_iff] at h
    obtain ⟨pairs, hpairs, rfl⟩ := h
    exact (Json.named_obj _).2 ⟨(Entries.ascending_ofPairs pairs).named,
      fun e he => named_of_memberValues? members hpairs e (Entries.mem_ofPairs he)⟩
  | .unreadable, _, h => nomatch h

theorem named_of_itemValues? [Naming N] : (items : List Document) → {vs : List Json} →
    itemValues? items = some vs → ∀ v ∈ vs, v.Named N
  | [], _, h => by
    cases h
    simp
  | d :: rest, vs, h => by
    rw [itemValues?] at h
    obtain ⟨v, hv, hrest⟩ := Option.bind_eq_some_iff.1 h
    obtain ⟨more, hmore, hcons⟩ := Option.bind_eq_some_iff.1 hrest
    cases hcons
    rw [List.forall_mem_cons]
    exact ⟨named_of_value? d hv, named_of_itemValues? rest hmore⟩

theorem named_of_memberValues? [Naming N] : (members : Members) → {pairs : List (String × Json)} →
    memberValues? members = some pairs → ∀ e ∈ pairs, e.2.Named N
  | [], _, h => by
    cases h
    simp
  | (key, d) :: rest, pairs, h => by
    rw [memberValues?] at h
    obtain ⟨v, hv, hrest⟩ := Option.bind_eq_some_iff.1 h
    obtain ⟨more, hmore, hcons⟩ := Option.bind_eq_some_iff.1 hrest
    cases hcons
    rw [List.forall_mem_cons]
    exact ⟨named_of_value? d hv, named_of_memberValues? rest hmore⟩

end

end Document

variable [Naming N]

/-! ### Affinity and resources -/

@[simp] theorem Requirement.named_listJson (rs : List Requirement) :
    (listJson rs).Named N := by
  have hreq (r : Requirement) : r.toJson.Named N := Wire.named_record (by simp +decide) (by simp)
  simp [listJson, Json.named_arr, hreq]

@[simp] theorem NodeSelectorTerm.named_toJson (t : NodeSelectorTerm) : t.toJson.Named N :=
  Wire.named_record (by simp +decide) (by simp)

@[simp] theorem PreferredNodes.named_toJson (p : PreferredNodes) : p.toJson.Named N :=
  Wire.named_record (by simp +decide) (by simp)

@[simp] theorem NodeAffinity.named_toJson (a : NodeAffinity) : a.toJson.Named N :=
  Wire.named_record (by simp +decide) (by simp [termsJson, Json.named_arr])

theorem LabelSelector.named_of_read? {d : Document} {s : LabelSelector}
    (h : read? d = some s) : s.toJson.Named N := by
  simp only [read?, Option.bind_eq_bind, Option.bind_eq_some_iff, Option.pure_def] at h
  obtain ⟨members, _, expressions, _, labels, hlabels, hs⟩ := h
  cases hs
  have hdist := Wire.of_optional (fun _ _ => Wire.ascending_of_stringMap?) hlabels
  refine Wire.named_record (by simp +decide) ?_
  simpa using fun a ha => Wire.named_stringMap (hdist a ha)

theorem PodAffinityTerm.named_of_read? {d : Document} {t : PodAffinityTerm}
    (h : read? d = some t) : t.toJson.Named N := by
  simp only [read?, Option.bind_eq_bind, Option.bind_eq_some_iff, Option.pure_def] at h
  obtain ⟨members, _, labels, hlabels, _, _, _, _, spaces, hspaces, _, _, _, _, ht⟩ := h
  cases ht
  have hl := Wire.of_optional (fun _ _ => LabelSelector.named_of_read? (N := N)) hlabels
  have hn := Wire.of_optional (fun _ _ => LabelSelector.named_of_read? (N := N)) hspaces
  refine Wire.named_record (by simp +decide) ?_
  simpa using ⟨hl, hn⟩

theorem PreferredPods.named_of_read? {d : Document} {p : PreferredPods}
    (h : read? d = some p) : p.toJson.Named N := by
  simp only [read?, Option.bind_eq_bind, Option.bind_eq_some_iff, Option.pure_def] at h
  obtain ⟨members, _, term, hterm, _, _, hp⟩ := h
  cases hp
  have hdefault : (PodAffinityTerm.toJson {}).Named N :=
    Wire.named_record (by simp +decide) (by simp)
  have ht : term.toJson.Named N :=
    Wire.of_lenient (fun _ _ => PodAffinityTerm.named_of_read? (N := N)) hdefault hterm
  refine Wire.named_record (by simp +decide) ?_
  simpa using ht

theorem PodAffinity.named_of_read? {d : Document} {a : PodAffinity}
    (h : read? d = some a) : a.toJson.Named N := by
  simp only [read?, Option.bind_eq_bind, Option.bind_eq_some_iff, Option.pure_def] at h
  obtain ⟨members, _, preferred, hpreferred, required, hrequired, ha⟩ := h
  cases ha
  have hp := Wire.of_optional
    (fun _ _ => Wire.of_list? fun _ _ => PreferredPods.named_of_read? (N := N)) hpreferred
  have hr := Wire.of_optional
    (fun _ _ => Wire.of_list? fun _ _ => PodAffinityTerm.named_of_read? (N := N)) hrequired
  refine Wire.named_record (by simp +decide) ?_
  simpa [Json.named_arr] using ⟨hp, hr⟩

theorem Affinity.named_of_read? {d : Document} {a : Affinity} (h : read? d = some a) :
    a.toJson.Named N := by
  simp only [read?, Option.bind_eq_bind, Option.bind_eq_some_iff, Option.pure_def] at h
  obtain ⟨members, _, nodes, _, pods, hpods, anti, hanti, ha⟩ := h
  cases ha
  have hp := Wire.of_optional (fun _ _ => PodAffinity.named_of_read? (N := N)) hpods
  have hn := Wire.of_optional (fun _ _ => PodAffinity.named_of_read? (N := N)) hanti
  refine Wire.named_record (by simp +decide) ?_
  simpa using ⟨hp, hn⟩

@[simp] theorem ResourceClaim.named_toJson (c : ResourceClaim) : c.toJson.Named N :=
  Wire.named_record (by simp +decide) (by simp)

theorem Resources.named_toJson {r : Resources}
    (hl : ∀ limits, r.limits = some limits → Entries.Ascending limits)
    (hq : ∀ requests, r.requests = some requests → Entries.Ascending requests) :
    r.toJson.Named N := by
  refine Wire.named_record (by simp +decide) ?_
  simpa [Json.named_arr] using
    ⟨fun a ha => Wire.named_stringMap (hl a ha), fun a ha => Wire.named_stringMap (hq a ha)⟩

theorem Resources.named_of_read? {d : Document} {r : Resources} (h : read? d = some r) :
    r.toJson.Named N := by
  simp only [read?, Option.bind_eq_bind, Option.bind_eq_some_iff, Option.pure_def] at h
  obtain ⟨members, _, claims, _, limits, hlimits, requests, hrequests, hr⟩ := h
  cases hr
  exact named_toJson (Wire.of_optional (fun _ _ => Wire.ascending_of_stringMap?) hlimits)
    (Wire.of_optional (fun _ _ => Wire.ascending_of_stringMap?) hrequests)

/-! ### Specs -/

@[simp] theorem MongoSettings.named_toJson (m : MongoSettings) : m.toJson.Named N :=
  Wire.named_record (by simp +decide) (by simp)

@[simp] theorem MaildirSettings.named_toJson (m : MaildirSettings) : m.toJson.Named N :=
  Wire.named_record (by simp +decide) (by simp)

@[simp] theorem Relay.named_toJson (u : Relay) : u.toJson.Named N := by
  refine Wire.named_record (by simp +decide) ?_
  cases u.save <;> simp

@[simp] theorem WebUser.named_toJson (u : WebUser) : u.toJson.Named N :=
  Wire.named_record (by simp +decide) (by simp)

@[simp] theorem SettingsFiles.named_toJson (f : SettingsFiles) : f.toJson.Named N := by
  refine Wire.named_record (by simp +decide) ?_
  cases f.relays <;> cases f.webUsers <;> simp [Json.named_arr]

@[simp] theorem Jim.named_toJson (j : Jim) : j.toJson.Named N :=
  Wire.named_record (by simp +decide) (by simp)

@[simp] theorem IngressSettings.named_toJson (i : IngressSettings) : i.toJson.Named N :=
  Wire.named_record (by simp +decide) (by simp)

/-- A spec is named as its resources and its affinity rules are. -/
theorem Spec.named_toJson {s : Spec}
    (hr : ∀ r, s.settings.resources = some r → r.toJson.Named N)
    (ha : ∀ a, s.settings.affinity = some a → a.toJson.Named N) : s.toJson.Named N := by
  have hsettings : s.settings.toJson.Named N := by
    refine Wire.named_record (by simp +decide) ?_
    simpa [Storage.toJson] using ⟨ha, hr⟩
  refine Wire.named_record (by simp +decide) ?_
  simpa [Inlet.toJson, Workload.toJson] using hsettings

theorem Spec.distinct_toJson {s : Spec}
    (hr : ∀ r, s.settings.resources = some r → r.toJson.Distinct)
    (ha : ∀ a, s.settings.affinity = some a → a.toJson.Distinct) : s.toJson.Distinct :=
  (Json.named_nodup_iff _).1 (Spec.named_toJson
    (fun r h => (Json.named_nodup_iff _).2 (hr r h))
    (fun a h => (Json.named_nodup_iff _).2 (ha a h)))

theorem Settings.named_of_read? {d : Document} {s : Settings} (h : read? d = some s) :
    (∀ r, s.resources = some r → r.toJson.Named N) ∧
      ∀ a, s.affinity = some a → a.toJson.Named N := by
  simp only [read?, Option.bind_eq_bind, Option.bind_eq_some_iff, Option.pure_def] at h
  obtain ⟨members, _, _, _, _, _, _, _, _, _, _, _, _, _, resources, hresources, affinity,
    haffinity, _, _, _, _, _, _, hs⟩ := h
  cases hs
  exact ⟨Wire.of_optional (fun _ _ => Resources.named_of_read? (N := N)) hresources,
    Wire.of_optional (fun _ _ => Affinity.named_of_read? (N := N)) haffinity⟩

theorem Spec.named_of_read? {d : Document} {s : Spec} (h : read? d = some s) :
    s.toJson.Named N := by
  simp only [read?, Option.bind_eq_bind, Option.bind_eq_some_iff, Option.pure_def] at h
  obtain ⟨members, _, _, _, _, _, settings, hsettings, _, _, _, _, hs⟩ := h
  cases hs
  have hboth := Wire.of_defaulted
    (P := fun s => (∀ r, s.resources = some r → r.toJson.Named N) ∧
      ∀ a, s.affinity = some a → a.toJson.Named N)
    (fun _ _ => Settings.named_of_read? (N := N)) (by simp) hsettings
  exact Spec.named_toJson hboth.1 hboth.2

/-- A spec that has been read is in order. -/
theorem Spec.ordered_of_read? {d : Document} {s : Spec} (h : read? d = some s) :
    s.toJson.Ordered := named_of_read? h

/-- A spec that has been read names nothing twice. -/
theorem Spec.distinct_of_read? {d : Document} {s : Spec} (h : read? d = some s) :
    s.toJson.Distinct := (Json.named_nodup_iff _).1 (named_of_read? h)

/-! ### Objects -/

theorem FieldOwnership.named_of_read? {d : Document} {f : FieldOwnership}
    (h : read? d = some f) : f.toJson.Named N := by
  simp only [read?, Option.bind_eq_bind, Option.bind_eq_some_iff, Option.pure_def] at h
  obtain ⟨members, _, _, _, _, _, fields, hfields, _, _, _, _, _, _, _, _, hf⟩ := h
  cases hf
  have hv := Wire.of_optional (fun d _ => Document.named_of_value? (N := N) d) hfields
  refine Wire.named_record (by simp +decide) ?_
  simpa [Wire.FieldNamed] using hv

theorem Metadata.named_of_read? {d : Document} {m : Metadata} (h : read? d = some m) :
    m.toJson.Named N := by
  obtain ⟨members, _, h⟩ := Option.bind_eq_some_iff.1 h
  obtain ⟨annotations, hannotations, h⟩ := Option.bind_eq_some_iff.1 h
  iterate 6 obtain ⟨_, _, h⟩ := Option.bind_eq_some_iff.1 h
  obtain ⟨labels, hlabels, h⟩ := Option.bind_eq_some_iff.1 h
  obtain ⟨managed, hmanaged, h⟩ := Option.bind_eq_some_iff.1 h
  iterate 6 obtain ⟨_, _, h⟩ := Option.bind_eq_some_iff.1 h
  cases h
  exact Metadata.named_toJson
    (Wire.of_optional (fun _ _ => Wire.ascending_of_stringMap?) hannotations)
    (Wire.of_optional (fun _ _ => Wire.ascending_of_stringMap?) hlabels)
    (Wire.of_optional (fun _ _ => Wire.of_list? fun _ _ => FieldOwnership.named_of_read?)
      hmanaged)

theorem TypeNames.mem_take {found : Found} {members : List (String × Json)} {e : String × Json}
    (h : e ∈ (take found members).2) : e ∈ members := by
  fun_induction take found members
  case case6 ih => exact List.mem_cons.2 ((List.mem_cons.1 h).imp_right (by simpa [*] using ih))
  all_goals simp_all

theorem Manifest.named_of_read? {d : Document} {m : Manifest} (h : read? d = some m) :
    m.comparable.Named N := by
  simp only [read?, Option.bind_eq_bind, Option.bind_eq_some_iff, Option.pure_def] at h
  obtain ⟨members, _, metadata, hmetadata, others, hothers, hm⟩ := h
  cases hm
  refine named_comparable (Entries.ascending_ofPairs _) (fun e he => ?_) ?_
  · exact Document.named_of_memberValues? _ hothers e
      (TypeNames.mem_take (Entries.mem_ofPairs he))
  · exact Wire.of_defaulted (P := fun m => m.toJson.Named N)
      (fun _ _ => Metadata.named_of_read?)
      (Metadata.named_toJson (by simp) (by simp) (by simp)) hmetadata

/-- An object that has been read names nothing twice in what is compared. -/
theorem Manifest.distinct_of_read? {d : Document} {m : Manifest} (h : read? d = some m) :
    m.comparable.Distinct := (Json.named_nodup_iff _).1 (named_of_read? h)

end MailCapture
