import MailCapture.Proofs.Serving
import MailCapture.Proofs.Written
/-!
The cluster in memory keeps the rules of a store that serves a record: what it drops is zero, and
what it adds is not asked for.
-/
namespace MailCapture

namespace Json

mutual

theorem extends_refl : (v : Json) → v.Distinct → v.Extends false v
  | .null, _ => by simp [Extends, same]
  | .bool _, _ => by simp [Extends, same]
  | .int _, _ => by simp [Extends, same]
  | .double x, _ => by simp [Extends, same_refl]
  | .str _, _ => by simp [Extends, same]
  | .arr items, h => by
    rw [Distinct] at h
    rw [Extends]
    exact itemsExtend_refl items h
  | .obj fields, h => by
    rw [Distinct] at h
    rw [extends_obj]
    intro e he
    rw [Entries.get?_of_mem h.1 he]
    exact fields_extend_refl fields h.2 e he

theorem itemsExtend_refl : (items : List Json) → ItemsDistinct items →
    ItemsExtend false items items
  | [], _ => by simp [ItemsExtend]
  | v :: rest, h => by
    rw [ItemsDistinct] at h
    rw [ItemsExtend]
    exact ⟨extends_refl v h.1, itemsExtend_refl rest h.2⟩

theorem fields_extend_refl : (fields : List (String × Json)) → FieldsDistinct fields →
    ∀ e ∈ fields, e.2.Extends false e.2
  | [], _ => by simp
  | (key, v) :: rest, h => by
    rw [FieldsDistinct] at h
    rw [List.forall_mem_cons]
    exact ⟨extends_refl v h.1, fields_extend_refl rest h.2⟩

end

def isPruned : Json → Bool
  | .bool b => !b
  | .str s => s.isEmpty
  | _ => false

theorem isZero_of_isPruned {v : Json} (h : v.isPruned = true) : v.isZero = true := by
  cases v <;> first | exact h | cases h

theorem prunedFields_cons (key : String) (v : Json) (rest : List (String × Json)) :
    prunedFields ((key, v) :: rest) =
      if v.isPruned then prunedFields rest else (key, v.pruned) :: prunedFields rest := by
  cases v with
  | bool b => cases b <;> simp [prunedFields, isPruned, pruned]
  | str s => simp [prunedFields, isPruned, pruned]
  | _ => simp [prunedFields, isPruned]

theorem get?_prunedFields {fields : Entries Json} (h : Entries.Distinct fields) (key : String) :
    Entries.get? (prunedFields fields) key = (Entries.get? fields key).bind
      (fun v => if v.isPruned then none else some v.pruned) := by
  induction fields with
  | nil => simp [prunedFields, Entries.get?]
  | cons e rest ih =>
    obtain ⟨k, v⟩ := e
    obtain ⟨hhead, htail⟩ := Entries.distinct_cons.1 h
    have hrest := ih htail
    rw [prunedFields_cons]
    by_cases hk : k = key
    · subst hk
      rw [Entries.get?_eq_none_of_forall hhead, Option.bind_none] at hrest
      cases hp : v.isPruned <;> simp [Entries.get?, hrest, hp]
    · cases hp : v.isPruned <;> simp [Entries.get?, hk, hrest]

mutual

theorem extends_pruned : (v : Json) → v.Distinct → v.Extends true v.pruned
  | .null, _ => by simp [pruned, Extends, same]
  | .bool _, _ => by simp [pruned, Extends, same]
  | .int _, _ => by simp [pruned, Extends, same]
  | .double x, _ => by simp [pruned, Extends, same_refl]
  | .str _, _ => by simp [pruned, Extends, same]
  | .arr items, h => by
    rw [Distinct] at h
    rw [pruned, Extends]
    exact itemsExtend_pruned items h
  | .obj fields, h => by
    rw [Distinct] at h
    rw [pruned, extends_obj]
    intro e he
    rw [get?_prunedFields h.1, Entries.get?_of_mem h.1 he]
    cases hp : e.2.isPruned with
    | true => simpa [hp] using isZero_of_isPruned hp
    | false => simpa [hp] using fields_extend_pruned fields h.2 e he

theorem itemsExtend_pruned : (items : List Json) → ItemsDistinct items →
    ItemsExtend true items (prunedItems items)
  | [], _ => by simp [ItemsExtend, prunedItems]
  | v :: rest, h => by
    rw [ItemsDistinct] at h
    rw [prunedItems, ItemsExtend]
    exact ⟨extends_pruned v h.1, itemsExtend_pruned rest h.2⟩

theorem fields_extend_pruned : (fields : List (String × Json)) → FieldsDistinct fields →
    ∀ e ∈ fields, e.2.Extends true e.2.pruned
  | [], _ => by simp
  | (key, v) :: rest, h => by
    rw [FieldsDistinct] at h
    rw [List.forall_mem_cons]
    exact ⟨extends_pruned v h.1, fields_extend_pruned rest h.2⟩

end

/-- A default that the server adds is no part of what was written. -/
theorem extends_withDefault {drops : Bool} {w c : Entries Json} {key : String} {value : Json}
    (h : (obj w).Extends drops (.obj c)) (hkey : ∀ e ∈ w, e.1 ≠ key) :
    (obj w).Extends drops (.obj (withDefault key value c)) := by
  rw [extends_obj] at h ⊢
  intro e he
  have hsame : Entries.get? (withDefault key value c) e.1 = Entries.get? c e.1 := by
    unfold withDefault
    split
    · rfl
    · exact Entries.get?_put_of_ne c value (hkey e he)
  rw [hsame]
  exact h e he

end Json

namespace Manifest

def storedSpec (kind : Kind) (v : Json) : Json :=
  if kind = .deployment then v.pruned.withDeploymentDefaults else v.pruned

theorem get?_normalized (m : Manifest) (kind : Kind) {key : String} (h : key ≠ "status") :
    Entries.get? (m.normalized kind).fields key =
      if key = "spec" then (Entries.get? m.fields key).map (storedSpec kind)
      else Entries.get? m.fields key := by
  unfold normalized
  dsimp only
  by_cases hk : kind = .deployment
  · rw [if_pos hk]
    dsimp only
    rw [Entries.get?_put_of_ne _ _ h, Entries.get?_update, Entries.get?_update]
    by_cases hs : key = "spec"
    · simp only [if_pos hs, Option.map_map]
      congr 1
      funext v
      simp [storedSpec, hk]
    · simp only [if_neg hs]
  · rw [if_neg hk]
    dsimp only
    rw [Entries.get?_update]
    by_cases hs : key = "spec"
    · simp only [if_pos hs]
      congr 1
      funext v
      simp [storedSpec, hk]
    · simp only [if_neg hs]

theorem metadata_normalized (m : Manifest) (kind : Kind) :
    (m.normalized kind).metadata = m.metadata := by
  unfold normalized
  dsimp only
  split <;> rfl

theorem types_normalized (m : Manifest) (kind : Kind) : (m.normalized kind).types = m.types := by
  unfold normalized
  dsimp only
  split <;> rfl

def basedOn (m : Manifest) (version : Option String) : Manifest :=
  m.withMetadata (fun x => { x with resourceVersion := version })

def identified (m : Manifest) (uid : Option String) (generation : Option Int64) : Manifest :=
  m.withMetadata (fun x => { x with uid := uid, generation := generation })

def hosted (m : Manifest) (kind : Kind) (uid : Option String) (generation : Option Int64)
    (version : String) : Manifest :=
  ((m.identified uid generation).normalized kind).basedOn (some version)

theorem metadata_hosted (m : Manifest) (kind : Kind) (uid : Option String)
    (generation : Option Int64) (version : String) :
    (m.hosted kind uid generation version).metadata =
      { m.metadata with
        uid := uid, generation := generation, resourceVersion := some version } := by
  rw [hosted, basedOn, withMetadata, metadata_normalized]
  rfl

/-- What the cluster in memory stores for an object is the object in the eyes of a comparison. -/
theorem storedAs_hosted (m : Manifest) {kind : Kind} (hlive : m.isTerminating = false)
    (hm : m.metadata.toJson.Distinct) (hv : ∀ e ∈ m.fields, e.2.Distinct)
    (hspec : ∀ v, Entries.get? m.fields "spec" = some v → v.Extends true (storedSpec kind v))
    (uid : Option String) (generation : Option Int64) (version : String) :
    m.StoredAs (m.hosted kind uid generation version) where
  live := by
    rw [isTerminating, metadata_hosted]
    exact hlive
  types := types_normalized _ kind
  metadata key v hk hfield := by
    refine ⟨v, ?_, Json.extends_refl v (hm.field key hfield)⟩
    rw [metadata_hosted, ← hfield]
    exact m.metadata.field?_withServer { m.metadata with
      uid := uid, generation := generation, resourceVersion := some version } hk
  fields key v hk hfield := by
    have hget : Entries.get? (m.hosted kind uid generation version).fields key =
        if key = "spec" then (Entries.get? m.fields key).map (storedSpec kind)
        else Entries.get? m.fields key := get?_normalized (m.identified uid generation) kind hk
    rw [hget, hfield]
    by_cases hs : key = "spec"
    · rw [if_pos hs]
      exact hspec v (hs ▸ hfield)
    · rw [if_neg hs]
      exact (Json.extends_refl v (hv _ (Entries.mem_of_get? hfield))).dropping

end Manifest

namespace Instance
variable {i : Instance} {kind : ChildKind} {d : Manifest}

/-- What a child of a record has for its spec extends to what the server stores for it: the defaults
of a server are no fields of a deployment that a record asks for. -/
theorem extends_storedSpec (hs : i.spec.toJson.Distinct) {m : Manifest}
    (hd : kind.desired i = some m) {v : Json} (hv : Entries.get? m.fields "spec" = some v) :
    v.Extends true (Manifest.storedSpec kind.kind v) := by
  have hpruned := Json.extends_pruned v (distinct_desired hs hd _ (Entries.mem_of_get? hv))
  unfold Manifest.storedSpec
  split
  · rename_i hk
    have hdep : kind = .deployment := ChildKind.kind_inj (b := .deployment) hk
    subst hdep
    obtain ⟨fields, rfl, hnames⟩ : ∃ fields, v = .obj fields ∧ ∀ e ∈ fields,
        e.1 ≠ "revisionHistoryLimit" ∧ e.1 ≠ "progressDeadlineSeconds" := by
      unfold ChildKind.desired at hd
      split at hd
      · cases hd
        cases hv
        exact ⟨_, rfl, by simp⟩
      · cases hd
    rw [Json.pruned] at hpruned ⊢
    exact Json.extends_withDefault
      (Json.extends_withDefault hpruned fun e he => (hnames e he).1) fun e he => (hnames e he).2
  · exact hpruned

theorem distinct_stamped (hd : i.adopted kind = .ok (some d)) (version : Option String) :
    (d.stamp.basedOn version).metadata.toJson.Distinct := by
  obtain ⟨owner, hm⟩ := metadata_adopted hd
  rw [Manifest.basedOn, Manifest.withMetadata, Manifest.stamp, Manifest.withMetadata, hm]
  refine (Json.named_nodup_iff _).1
    (Metadata.named_toJson (fun a ha => ?_) (fun l hl => ?_) (fun _ h => nomatch h))
  · cases ha
    refine Entries.ascending_putText ?_ _ _
    unfold childMetadata
    dsimp only
    split
    · exact List.Pairwise.nil
    · exact i.ascending_annotations
  · cases hl
    exact i.ascending_labels

/-- What the cluster in memory stores for a stamped child is one that a server may store. -/
theorem storedAs_stamped (hs : i.spec.toJson.Distinct) (hd : i.adopted kind = .ok (some d))
    (base uid : Option String) (generation : Option Int64) (version : String) :
    (d.stamp.basedOn base).StoredAs
      ((d.stamp.basedOn base).hosted kind.kind uid generation version) := by
  obtain ⟨owner, hmeta⟩ := metadata_adopted hd
  obtain ⟨m, hk, hf⟩ := fields_adopted hd
  have hlive : d.isTerminating = false := by
    rw [Manifest.isTerminating, hmeta]
    rfl
  have hv : ∀ e ∈ d.fields, e.2.Distinct := by
    rw [hf]
    exact distinct_desired hs hk
  have hspec (v : Json) (hget : Entries.get? d.fields "spec" = some v) :
      v.Extends true (Manifest.storedSpec kind.kind v) := by
    rw [hf] at hget
    exact extends_storedSpec hs hk hget
  exact Manifest.storedAs_hosted (d.stamp.basedOn base) hlive (distinct_stamped hd base) hv hspec
    uid generation version

theorem key?_stamped {ns : String} (hns : i.metadata.ns = some ns)
    (hd : i.adopted kind = .ok (some d)) (base : Option String) :
    (d.stamp.basedOn base).key? = .ok i.key := by
  obtain ⟨owner, hm⟩ := metadata_adopted hd
  have hname : (d.stamp.basedOn base).metadata.name = some i.name := congrArg Metadata.name hm
  have hspace : (d.stamp.basedOn base).metadata.ns = some ns := (congrArg Metadata.ns hm).trans hns
  unfold Manifest.key?
  rw [hname, hspace, key, hns]
  rfl

end Instance

namespace Cluster

/-- Clusters that differ in one slot, which is for no pod, show contents that differ in it. -/
theorem contents_eq {c c' : Cluster} {kind : ChildKind} {key : Key} {found : Option Manifest}
    (hget : ∀ slot, Entries.get? c'.objects slot =
      if slot = ⟨kind.kind, key⟩ then found else Entries.get? c.objects slot)
    (hrest : ∀ p : Slot × Manifest → Bool, (∀ m, p (⟨kind.kind, key⟩, m) = false) →
      c'.objects.filter p = c.objects.filter p)
    (hrecords : c'.records = c.records) :
    surroundings.contents c' = (surroundings.contents c).withObject kind.kind key found := by
  have hobject : c'.object? =
      fun k q => if k = kind.kind ∧ q = key then found else c.object? k q := by
    funext k q
    rw [object?, hget]
    simp only [Slot.mk.injEq]
    rfl
  have hpods : c'.list .pod = c.list .pod := by
    funext ns selector
    refine congrArg (List.map Prod.snd) (hrest _ fun m => ?_)
    cases kind <;> rfl
  have hrecord : c'.record? = c.record? := by
    funext key
    rw [record?, record?, hrecords]
  rw [surroundings]
  dsimp only
  rw [hobject, hpods, hrecord]
  rfl

theorem contents_putObject (c : Cluster) (kind : ChildKind) (key : Key) (m : Manifest) :
    surroundings.contents (c.putObject ⟨kind.kind, key⟩ m) =
      (surroundings.contents c).withObject kind.kind key
        (some (m.basedOn (some c.nextVersion))) :=
  contents_eq (Entries.get?_put c.objects _ _) (fun _ h => Entries.filter_put h _ _) rfl

theorem contents_removeObject (c : Cluster) (kind : ChildKind) (key : Key) :
    surroundings.contents (c.removeObject ⟨kind.kind, key⟩) =
      (surroundings.contents c).withObject kind.kind key none :=
  contents_eq (Entries.get?_remove c.objects _) (fun _ h => Entries.filter_remove h _) rfl

theorem contents_putRecord (c : Cluster) (key : Key) (i : Instance) :
    surroundings.contents (c.putRecord key i) = (surroundings.contents c).withRecord key
      { i with metadata := { i.metadata with resourceVersion := some c.nextVersion } } := by
  have hrecord : (c.putRecord key i).record? = fun q => if q = key then
      some { i with metadata := { i.metadata with resourceVersion := some c.nextVersion } }
      else c.record? q := funext (Entries.get?_put c.records key _)
  rw [surroundings]
  dsimp only
  rw [hrecord]
  rfl

variable {i : Instance} {kind : ChildKind} {d : Manifest} {ns : String}

/-- A child that the record does not expose is read by nobody. -/
theorem decodes_of_closed (hin : i.spec.inlet = .closed) (hd : i.adopted kind = .ok (some d))
    (m : Manifest) : m.Decodes kind := by
  have hsel := Instance.isSelected_of_adopted hd
  cases kind
  case route => simp [ChildKind.isSelected, hin] at hsel
  case ingress => simp [ChildKind.isSelected, hin] at hsel
  all_goals trivial

theorem stores_create {c : Cluster} {key : Key} {m : Manifest} (hkey : m.key? = .ok key)
    (hfree : c.object? kind.kind key = none)
    (hst : ∀ uid generation version, m.StoredAs (m.hosted kind.kind uid generation version))
    (hdec : ∀ stored : Manifest, stored.Decodes kind) :
    surroundings.Stores c (.create kind.kind m) kind key m := by
  have hhas : ¬ Entries.has c.objects ⟨kind.kind, key⟩ = true := by
    have hget : Entries.get? c.objects ⟨kind.kind, key⟩ = none := hfree
    simp [Entries.has, hget]
  have hreply : c.answer (.create kind.kind m) = c.create kind.kind key m := by
    rw [answer, hkey]
  exact ⟨_, _, _, hreply.trans (if_neg hhas), hst (some (uidOf ⟨kind.kind, key⟩)) (some 1)
    c.nextVersion, hdec _, contents_putObject c kind key _⟩

/-- An object based on the stored version replaces it, unless a selector that is fixed differs. -/
theorem stores_replace {c : Cluster} {key : Key} {m o : Manifest} (hkey : m.key? = .ok key)
    (hfound : c.object? kind.kind key = some o)
    (hbase : m.metadata.resourceVersion = o.metadata.resourceVersion)
    (hst : ∀ uid generation version, m.StoredAs (m.hosted kind.kind uid generation version))
    (hdec : ∀ stored : Manifest, stored.Decodes kind) :
    surroundings.Stores c (.replace kind.kind m) kind key m ∨
      ∃ why, (surroundings.reply (.replace kind.kind m) c).1 = .error (.invalid why) := by
  have hreply : c.answer (.replace kind.kind m) = c.replace kind.kind key m := by
    rw [answer, hkey]
  have hget : Entries.get? c.objects ⟨kind.kind, key⟩ = some o := hfound
  unfold replace at hreply
  dsimp only at hreply
  rw [hget] at hreply
  dsimp only at hreply
  rw [if_neg (by simp [hbase])] at hreply
  split at hreply
  · exact Or.inr ⟨_, congrArg Prod.fst hreply⟩
  · exact Or.inl ⟨_, _, _, hreply, hst o.metadata.uid (o.metadata.generation.map (· + 1))
      c.nextVersion, hdec _, contents_putObject c kind key _⟩

/-- The cluster in memory keeps the rules for every record that is not exposed. -/
theorem surroundings_serves (hns : i.metadata.ns = some ns) (hin : i.spec.inlet = .closed)
    (hs : i.spec.toJson.Distinct) : surroundings.Serves i where
  toIsSequential := surroundings_isSequential
  create c kind d hd hfree := by
    -- the object to create is based on the version that it has
    have hst : ∀ uid generation version, d.stamp.StoredAs
        (d.stamp.hosted kind.kind uid generation version) :=
      Instance.storedAs_stamped hs hd d.stamp.metadata.resourceVersion
    exact stores_create (Instance.key?_stamped hns hd d.stamp.metadata.resourceVersion) hfree
      hst (decodes_of_closed hin hd)
  replace c kind d o hd hfound :=
    stores_replace (Instance.key?_stamped hns hd o.metadata.resourceVersion) hfound rfl
      (Instance.storedAs_stamped hs hd o.metadata.resourceVersion) (decodes_of_closed hin hd)
  remove c kind o hfound := by
    have hget : Entries.get? c.objects ⟨kind.kind, i.key⟩ = some o := hfound
    have hdelete : c.delete kind.kind i.key = (.ok (), c.removeObject ⟨kind.kind, i.key⟩) :=
      if_pos (by simp [Entries.has, hget])
    exact ⟨_, hdelete, contents_removeObject c kind i.key⟩
  replaceStatus c record status hfound hkey := by
    have hget : c.record? i.key = some record := hfound
    let new : Instance := { record with status := some status }
    have hnew : new.key = i.key := hkey
    obtain ⟨answer, hwrite⟩ : ∃ answer,
        c.replaceStatus new = (.ok answer, c.putRecord i.key new) := by
      unfold replaceStatus
      dsimp only
      rw [hnew, hget]
      dsimp only
      rw [if_neg (by simp [new])]
      exact ⟨_, rfl⟩
    exact ⟨answer, _, some c.nextVersion, record.metadata.managedFields, hwrite,
      contents_putRecord c i.key new⟩

end Cluster
end MailCapture
