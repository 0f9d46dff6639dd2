import MailCapture.Proofs.Convergence
import MailCapture.Proofs.Hosting
import MailCapture.Proofs.Readable
import MailCapture.Proofs.Workloads
/-!
Records leave no trace of what they were.  A record is edited while passes bring its children in
line, and in the end a pass is quiescent: what is stored then for each kind depends on the last
record alone, but for zero fields and what the server sets.
-/
namespace MailCapture

namespace Instance

def core (i : Instance) : Instance :=
  ⟨{ name := i.metadata.name
     generateName := i.metadata.generateName
     ns := i.metadata.ns
     uid := i.metadata.uid
     labels := i.metadata.labels
     annotations := i.metadata.annotations }, i.spec, none⟩

theorem adopted_core (i : Instance) (kind : ChildKind) : i.core.adopted kind = i.adopted kind := by
  cases kind <;> rfl

def settledChild? (i : Instance) (defaults : Kind → Defaults) (unserved : List ChildKind)
    (kind : ChildKind) : Option Json :=
  if kind ∈ unserved then none
  else (i.adopted kind).toOption.join.map
    (fun d => (d.comparable.completed (defaults kind.kind)).condensed)

theorem settledChild?_core (i : Instance) (defaults : Kind → Defaults)
    (unserved : List ChildKind) (kind : ChildKind) :
    i.core.settledChild? defaults unserved kind = i.settledChild? defaults unserved kind := by
  rw [settledChild?, adopted_core, settledChild?]

end Instance

def Manifest.StemsFrom (m : Manifest) (defaults : Kind → Defaults) (kind : ChildKind) : Prop :=
  ∃ (i : Instance) (d : Manifest), i.spec.toJson.Distinct ∧ i.adopted kind = .ok (some d) ∧
    d.stamp.KeptAs (defaults kind.kind) m

namespace Contents

/-- Whether a record is stored under its own key, with a spec that names nothing twice, as every one
that has been read (`Spec.distinct_of_read?`). -/
def IsSound (c : Contents) (key : Key) : Prop :=
  ∀ i, c.record? key = some i → i.key = key ∧ i.spec.toJson.Distinct

structure RevisedTo (key : Key) (c d : Contents) : Prop where
  sound : c.IsSound key → d.IsSound key
  children : ∀ kind : ChildKind, d.object? kind.kind key = c.object? kind.kind key

theorem RevisedTo.refl {key : Key} (c : Contents) : c.RevisedTo key c := ⟨id, fun _ => rfl⟩

theorem RevisedTo.trans {key : Key} {c d e : Contents} (h : c.RevisedTo key d)
    (h' : d.RevisedTo key e) : c.RevisedTo key e where
  sound := fun hc => h'.sound (h.sound hc)
  children kind := (h'.children kind).trans (h.children kind)

/-- What a call of a pass over a record may make of the contents: nothing changes, a child of a
served kind is stored for the record or gone, or a record has a new status. -/
inductive BroughtTo (c : Contents) (defaults : Kind → Defaults) (unserved : List ChildKind)
    (i : Instance) : Contents → Prop
  | same : BroughtTo c defaults unserved i c
  | child (kind : ChildKind) (found : Option Manifest) (hserved : kind ∉ unserved)
      (hfound : ∀ m, found = some m →
        ∃ d, i.adopted kind = .ok (some d) ∧ d.stamp.KeptAs (defaults kind.kind) m) :
      BroughtTo c defaults unserved i (c.withObject kind.kind i.key found)
  | record (q : Key) (current : Instance) (status : Status) (version : Option String)
      (managed : Option (List FieldOwnership)) (hfound : c.record? q = some current) :
      BroughtTo c defaults unserved i (c.withRecord q (current.rewritten status version managed))

structure Stems (c : Contents) (defaults : Kind → Defaults) (unserved : List ChildKind)
    (key : Key) : Prop where
  sound : c.IsSound key
  child : ∀ (kind : ChildKind) m, c.object? kind.kind key = some m →
    kind ∉ unserved ∧ m.StemsFrom defaults kind

variable {c d : Contents} {defaults : Kind → Defaults} {unserved : List ChildKind} {key : Key}

theorem Stems.revised (h : c.Stems defaults unserved key) (hcd : c.RevisedTo key d) :
    d.Stems defaults unserved key where
  sound := hcd.sound h.sound
  child kind m hm := h.child kind m (hcd.children kind ▸ hm)

/-- A child that is written for a record, or deleted. -/
theorem Stems.withObject (h : c.Stems defaults unserved key) {kind : ChildKind}
    {found : Option Manifest}
    (hfound : ∀ m, found = some m → kind ∉ unserved ∧ m.StemsFrom defaults kind) :
    (c.withObject kind.kind key found).Stems defaults unserved key where
  sound := h.sound
  child other m hm := by
    rw [object?_withObject_child] at hm
    by_cases hkind : other = kind
    · subst hkind
      rw [if_pos rfl] at hm
      exact hfound m hm
    · rw [if_neg hkind] at hm
      exact h.child other m hm

/-- A record with a new status is the same record. -/
theorem Stems.rewritten (h : c.Stems defaults unserved key) {q : Key} {current : Instance}
    (hfound : c.record? q = some current) (status : Status) (version : Option String)
    (managed : Option (List FieldOwnership)) :
    (c.withRecord q (current.rewritten status version managed)).Stems defaults unserved key where
  sound i hi := by
    by_cases hq : key = q
    · subst hq
      rw [record?_withRecord_self] at hi
      cases hi
      exact h.sound current hfound
    · rw [record?_withRecord_of_ne _ _ hq] at hi
      exact h.sound i hi
  child := h.child

/-- Every call of a pass leaves children that stem from records. -/
theorem Stems.broughtTo {i : Instance} (h : c.Stems defaults unserved i.key)
    (hs : i.spec.toJson.Distinct) (hcd : c.BroughtTo defaults unserved i d) :
    d.Stems defaults unserved i.key := by
  cases hcd with
  | same => exact h
  | child kind found hk hfound =>
    refine h.withObject fun m hm => ⟨hk, ?_⟩
    obtain ⟨desired, hd, hkept⟩ := hfound m hm
    exact ⟨i, desired, hs, hd, hkept⟩
  | record q current status version managed hfound =>
    exact h.rewritten hfound status version managed

end Contents

namespace Instance
variable {i : Instance} {kind : ChildKind} {d : Manifest}

theorem ascending_adopted (hd : i.adopted kind = .ok (some d)) : Entries.Ascending d.fields := by
  obtain ⟨m, hk, hf⟩ := fields_adopted hd
  rw [hf]
  exact ascending_desired hk

/-- A child is written under the key of its record, if it can be written at all. -/
theorem key_of_stamped (hd : i.adopted kind = .ok (some d)) (base : Option String) {q : Key}
    (h : (d.stamp.basedOn base).key? = .ok q) : q = i.key := by
  cases hns : i.metadata.ns with
  | some ns => exact Except.ok.inj (h.symm.trans (key?_stamped hns hd base))
  | none =>
    obtain ⟨owner, hm⟩ := metadata_adopted hd
    have hname : (d.stamp.basedOn base).metadata.name = some i.name := congrArg Metadata.name hm
    have hspace : (d.stamp.basedOn base).metadata.ns = none :=
      (congrArg Metadata.ns hm).trans hns
    unfold Manifest.key? at h
    rw [hname, hspace] at h
    cases h

end Instance

namespace Surroundings
variable {σ : Type} {w : Surroundings σ} {defaults : Kind → Defaults} {i : Instance}
  {unserved : List ChildKind} {key : Key} {s : σ}

def Revises (w : Surroundings σ) (key : Key) (s t : σ) : Prop :=
  (w.contents s).RevisedTo key (w.contents t)

/-- What is written for the status leaves the children as they are. -/
theorem Hosts.children_statusCall (hw : w.Hosts defaults) {c : StoreCall} (hc : i.StatusCall c)
    (kind : ChildKind) (q : Key) :
    (w.contents (w.reply c s).2).object? kind.kind q = (w.contents s).object? kind.kind q := by
  cases hc with
  | pods => rw [(hw.list i.key.ns i.labelSelector s).2]
  | exposing other _ => rw [(hw.get other.kind i.key s).2]
  | record hrecord =>
    cases hrecord with
    | read => rw [(hw.getInstance i.key s).2]
    | write record status =>
      rcases hw.replaceStatus s record status with h | ⟨_, _, _, _, h⟩
      · rw [h]
      · rw [h]
        rfl

/-- What a call of a pass makes of the contents. -/
theorem Hosts.passCall (hw : w.Hosts defaults) {c : StoreCall} (hc : i.PassCall unserved c)
    (s : σ) :
    (w.contents s).BroughtTo defaults unserved i (w.contents (w.reply c s).2) := by
  cases hc with
  | child kind hk hcall =>
    have hput {m : Manifest} (h : w.MayPut (defaults kind.kind) s c kind.kind m)
        (hkey : ∀ q, m.key? = .ok q → q = i.key) (hkept : ∀ stored,
          m.KeptAs (defaults kind.kind) stored →
            ∃ d, i.adopted kind = .ok (some d) ∧ d.stamp.KeptAs (defaults kind.kind) stored) :
        (w.contents s).BroughtTo defaults unserved i (w.contents (w.reply c s).2) := by
      rcases h with he | ⟨q, stored, hq, hstored, he⟩
      · rw [he]
        exact .same
      · rw [he, hkey q hq]
        exact .child kind _ hk fun m hm => Option.some.inj hm ▸ hkept stored hstored
    cases hcall with
    | get =>
      rw [(hw.get kind.kind i.key s).2]
      exact .same
    | create d hd =>
      refine hput (hw.create s kind d.stamp (Instance.ascending_adopted (d := d) hd))
        (fun q hq => ?_) fun stored hkept => ⟨d, hd, hkept⟩
      exact Instance.key_of_stamped hd d.stamp.metadata.resourceVersion hq
    | replace d o hd =>
      refine hput (hw.replace s kind (d.replacementFor o) (Instance.ascending_adopted (d := d) hd))
        (fun q hq => ?_) fun stored hkept => ⟨d, hd, hkept.of_replacementFor⟩
      exact Instance.key_of_stamped hd o.metadata.resourceVersion hq
    | delete =>
      rcases hw.remove s kind i.key graceSeconds with he | he
      · rw [he]
        exact .same
      · rw [he]
        exact .child kind none hk fun m hm => nomatch hm
  | status hcall =>
    cases hcall with
    | pods =>
      rw [(hw.list i.key.ns i.labelSelector s).2]
      exact .same
    | exposing other _ =>
      rw [(hw.get other.kind i.key s).2]
      exact .same
    | record hrecord =>
      cases hrecord with
      | read =>
        rw [(hw.getInstance i.key s).2]
        exact .same
      | write record status =>
        rcases hw.replaceStatus s record status with he | ⟨current, version, managed, hr, he⟩
        · rw [he]
          exact .same
        · rw [he]
          exact .record _ current status version managed hr

end Surroundings

/-! ### Settled children -/

/-- What is stored for some record and shows no drift against a child is the child with the fields
of the server, but for zero fields. -/
theorem Manifest.StemsFrom.condensed {m d : Manifest} {defaults : Kind → Defaults}
    {kind : ChildKind} (h : m.StemsFrom defaults kind) (hunset : DefaultsUnset defaults)
    {i : Instance} (hs : i.spec.toJson.Distinct) (hd : i.adopted kind = .ok (some d))
    (hn : m.needsUpdate d = false) :
    m.comparable.condensed = (d.comparable.completed (defaults kind.kind)).condensed := by
  obtain ⟨j, written, hsj, hj, hkept⟩ := h
  have hdistinct := Instance.distinct_adopted hsj hj
  have hstored : Json.StoredFor (defaults kind.kind) written.comparable m.comparable := by
    rw [hkept.comparable, comparable_stamp]
    exact Json.storedFor_prunedSpec hdistinct (hunset j kind written hj)
  have hlast : m.lastApplied? = some written.comparable.inOrder := by
    have htext : written.stamp.metadata.annotation? lastAppliedAnnotation =
        some written.comparable.render := Entries.get?_put_self _ _ _
    rw [lastApplied?, hkept.applied, htext]
    exact Instance.parse?_adopted hj
  rw [needsUpdate, hlast] at hn
  exact hstored.condensed_eq hdistinct (Instance.distinct_adopted hs hd)
    (Instance.fits_adopted hd) (hunset i kind d hd) hn

theorem Manifest.StemsFrom.live {m : Manifest} {defaults : Kind → Defaults} {kind : ChildKind}
    (h : m.StemsFrom defaults kind) : m.isTerminating = false := by
  obtain ⟨j, written, _, hj, hkept⟩ := h
  obtain ⟨owner, hm⟩ := Instance.metadata_adopted hj
  have hnone : written.stamp.metadata.deletionTimestamp = none :=
    congrArg Metadata.deletionTimestamp hm
  rw [isTerminating, hkept.deletion, hnone]
  rfl

theorem Contents.Stems.settledChild {c : Contents} {defaults : Kind → Defaults}
    {unserved : List ChildKind} {i : Instance} (h : c.Stems defaults unserved i.key)
    (hunset : DefaultsUnset defaults) (hs : i.spec.toJson.Distinct) {kind : ChildKind}
    (hset : kind ∈ unserved ∨ c.IsSettled i kind) :
    (c.object? kind.kind i.key).map (·.comparable.condensed) =
      i.settledChild? defaults unserved kind := by
  unfold Instance.settledChild?
  by_cases hk : kind ∈ unserved
  · rw [if_pos hk]
    cases ho : c.object? kind.kind i.key with
    | none => rfl
    | some m => exact absurd hk (h.child kind m ho).1
  · have hset := hset.resolve_left hk
    rw [if_neg hk]
    cases hsel : kind.isSelected i.spec with
    | true =>
      obtain ⟨m, d, ho, hd, _, hn⟩ := (Contents.isSettled_selected hsel).1 hset
      rw [ho, hd]
      exact congrArg some ((h.child kind m ho).2.condensed hunset hs hd hn)
    | false =>
      rw [Contents.isSettled_unselected hsel] at hset
      rw [Instance.adopted_of_not_selected hsel]
      cases ho : c.object? kind.kind i.key with
      | none => rfl
      | some m =>
        have hlive := (h.child kind m ho).2.live
        rw [hset m ho] at hlive
        cases hlive

/-- The cluster in memory with one record. -/
theorem Cluster.isSound_of_records {c : Cluster} {key : Key} {i : Instance}
    (hc : c.records = [(key, i)]) (hkey : i.key = key) (hs : i.spec.toJson.Distinct) :
    (surroundings.contents c).IsSound key := by
  intro j hj
  have hself : c.record? key = some i := by
    rw [Cluster.record?, hc]
    exact if_pos rfl
  cases hself.symm.trans hj
  exact ⟨hkey, hs⟩

/-- Passes may follow each other. -/
theorem Situation.Reaches.after {σ : Type} {w : Surroundings σ} {others : σ → σ → Prop}
    {ctx : Context} {key : Key} {store s : σ}
    (h : Reaches w others (fun _ => True) ctx key store ⟨s, none⟩) (n : Nat) :
    Reaches w others (fun _ => True) ctx key store ⟨ctx.after w key n s, none⟩ := by
  induction n generalizing s with
  | zero => exact h
  | succ n ih => exact ih ((h.pass trivial).step .stop)

namespace Context
variable {σ : Type} {w : Surroundings σ} {defaults : Kind → Defaults} {i : Instance}
  {ctx : Context} {key : Key} {s : σ}

/-- A pass leaves children that stem from records, whatever is edited meanwhile. -/
theorem pass_stems (hw : w.Hosts defaults) (hs : (w.contents s).Stems defaults ctx.unserved key) :
    (ctx.pass key).Keeps w (w.Revises key) (fun t => (w.contents t).Stems defaults ctx.unserved key)
      (fun _ _ => True) s := by
  apply pass_keeps (P := fun i => i.key = key ∧ i.spec.toJson.Distinct) hw.toIsSequential
  · intro t u htu ht
    exact ht.revised htu
  · intro t u htu ht
    rwa [htu]
  · intro t i ht hi
    exact ht.sound i hi
  · rintro i c t ⟨rfl, hdistinct⟩ hc ht
    exact ht.broughtTo hdistinct (hw.passCall hc t)
  · exact hs

/-- The status step leaves the children as they are. -/
theorem children_ensureStatus (hw : w.Hosts defaults) (kind : ChildKind) (q : Key) :
    (w.contents (i.ensureStatus.exec w s).2).object? kind.kind q =
      (w.contents s).object? kind.kind q := by
  have hall : i.ensureStatus.Keeps w Eq (fun _ => True) (fun _ t =>
      (w.contents t).object? kind.kind q = (w.contents s).object? kind.kind q) s := by
    apply i.ensureStatus_calls.keeps
    · intro t u htu ht
      exact htu ▸ ht
    · intro e t ht
      rwa [hw.emit]
    · intro c t hc ht
      rwa [hw.children_statusCall hc]
    · intro t _
      trivial
    · rfl
  exact hall.exec fun _ => rfl

/-- Whether a state comes about when a history of a record that has no children at first ends with
this record, and a pass is quiescent then. -/
def Settles (ctx : Context) (w : Surroundings σ) (key : Key) (i : Instance) (t : σ) : Prop :=
  ∃ store s, (w.contents store).IsSound key ∧
    (∀ kind : ChildKind, (w.contents store).object? kind.kind key = none) ∧
    Situation.Reaches w (w.Revises key) (fun _ => True) ctx key store ⟨s, none⟩ ∧
    (w.contents s).record? key = some i ∧ (ctx.pass key).exec w s = (.ok .quiescent, t)

theorem Settles.settledChild {t : σ} (h : ctx.Settles w key i t) (hw : w.Hosts defaults)
    (hunset : DefaultsUnset defaults) (hv : i.spec.violation? = none) (kind : ChildKind) :
    ((w.contents t).object? kind.kind key).map (·.comparable.condensed) =
      i.settledChild? defaults ctx.unserved kind := by
  obtain ⟨store, s, hsound, hbare, hreach, hr, hpass⟩ := h
  have hstart : (w.contents store).Stems defaults ctx.unserved key := by
    refine ⟨hsound, fun kind m hm => ?_⟩
    rw [hbare kind] at hm
    cases hm
  have hstems := hreach.keeps_of_pass
    (I := fun t => (w.contents t).Stems defaults ctx.unserved key) hstart
    (fun t => Contents.RevisedTo.refl _) (fun hab hbc => hab.trans hbc)
    (fun t u htu ht => ht.revised htu) fun t ht => pass_stems hw ht
  obtain ⟨hkey, hdistinct⟩ := hstems.sound i hr
  subst hkey
  obtain ⟨hset, b, hb, hensure⟩ := children_of_pass hw.toIsSequential hr hv hpass
  have hkept := children_ensureStatus (i := i) (s := b) hw kind i.key
  rw [hensure] at hkept
  rw [hkept, hb]
  exact hstems.settledChild hunset hdistinct (hset kind)

/-- Two histories that end with the same record lead to the same children, whatever the record was
before and however passes and edits were interleaved: for each kind there is a child in both stores
or in none, and the two agree but for zero fields and what the server sets.  They are what the last
record asks for, with the fields of the server. -/
theorem settles_regardless_of_history {τ : Type} {v : Surroundings τ} (hv : v.Hosts defaults)
    (hw : w.Hosts defaults) (hunset : DefaultsUnset defaults) {j : Instance}
    (hsame : i.core = j.core) (hvalid : i.spec.violation? = none) {t : τ}
    (ht : ctx.Settles v key i t) (hs : ctx.Settles w key j s) (kind : ChildKind) :
    ((v.contents t).object? kind.kind key).map (·.comparable.condensed) =
        ((w.contents s).object? kind.kind key).map (·.comparable.condensed) ∧
      ((v.contents t).object? kind.kind key).map (·.comparable.condensed) =
        i.settledChild? defaults ctx.unserved kind := by
  have hvalidj : j.spec.violation? = none :=
    (congrArg (·.spec.violation?) hsame).symm.trans hvalid
  have hi := ht.settledChild hv hunset hvalid kind
  have hj := hs.settledChild hw hunset hvalidj kind
  refine ⟨?_, hi⟩
  rw [hi, hj, ← i.settledChild?_core, ← j.settledChild?_core, hsame]

/-- A history that leaves a record ready can go on until a pass is quiescent. -/
theorem exists_settles (hw : w.Serves i) (hs : i.spec.toJson.Distinct) {uid : String}
    (hu : i.metadata.uid = some uid) (hv : i.spec.violation? = none) {store : σ}
    (hsound : (w.contents store).IsSound i.key)
    (hbare : ∀ kind : ChildKind, (w.contents store).object? kind.kind i.key = none)
    (hreach : Situation.Reaches w (w.Revises i.key) (fun _ => True) ctx i.key store ⟨s, none⟩)
    (hc : (w.contents s).IsReady i ctx.unserved) :
    ∃ n j, ctx.outcome w i.key n s = .ok .quiescent ∧ i.core = j.core ∧
      ctx.Settles w i.key j (ctx.after w i.key (n + 1) s) := by
  obtain ⟨n, j, _, _, _, hj, hrest⟩ := exists_atRest hw hs hu hv hc
  rcases hj with rfl | ⟨status, version, managed, rfl⟩
  · obtain ⟨t, _, hpass⟩ := does_pass_atRest hw.toIsSequential hv hrest
    exact ⟨n, _, congrArg Prod.fst hpass.exec, rfl, store, _, hsound, hbare, hreach.after n,
      hrest.record, after_next hpass.exec ▸ hpass.exec⟩
  · obtain ⟨t, _, hpass⟩ :=
      does_pass_atRest (i := i.rewritten status version managed) hw.toIsSequential hv hrest
    exact ⟨n, i.rewritten status version managed, congrArg Prod.fst hpass.exec, rfl, store, _,
      hsound, hbare, hreach.after n, hrest.record, after_next hpass.exec ▸ hpass.exec⟩

/-- A record that first invited the chaos monkey, and one that never did: the arguments that the
container had leave no trace. -/
theorem settles_regardless_of_history_args :
    let first : Instance := ⟨{ name := some "mh", ns := some "mail", uid := some "u1" },
      { settings := { jim := { invite := true } } }, none⟩
    let record : Instance :=
      ⟨{ name := some "mh", ns := some "mail", uid := some "u1" }, {}, none⟩
    let key := record.key
    let start : Cluster := { records := [(key, first)] }
    let created := ((Context.pass {} key).exec Cluster.surroundings start).2
    let edited : Cluster := { created with records := [(key, record)] }
    let fresh : Cluster := { records := [(key, record)] }
    ∃ m n, Context.outcome {} Cluster.surroundings key m edited = .ok .quiescent ∧
      Context.outcome {} Cluster.surroundings key n fresh = .ok .quiescent ∧
      let t := Context.after {} Cluster.surroundings key (m + 1) edited
      let s := Context.after {} Cluster.surroundings key (n + 1) fresh
      (t.object? .deployment key).isSome = true ∧
        (t.object? .deployment key).map (·.comparable.condensed) =
          (s.object? .deployment key).map (·.comparable.condensed) := by
  intro first record key start created edited fresh
  have hsFirst : first.spec.toJson.Distinct :=
    Spec.distinct_toJson (fun r hr => by cases hr) (fun a ha => by cases ha)
  have hs : record.spec.toJson.Distinct :=
    Spec.distinct_toJson (fun r hr => by cases hr) (fun a ha => by cases ha)
  have hserves := Cluster.surroundings_serves (i := record) rfl rfl hs
  -- the first pass creates the deployment with the arguments
  have hserved : ChildKind.deployment ∉ ({} : Context).unserved := by simp
  obtain ⟨stored, hlive, hcreated⟩ := pass_creates
    (Cluster.surroundings_serves (i := first) rfl rfl hsFirst) (s := start) rfl rfl rfl hserved rfl
    (show ChildKind.all = [] ++ .deployment :: _ from rfl) (by simp) rfl
  have hedited : Cluster.surroundings.contents edited =
      (Cluster.surroundings.contents fresh).withObject ChildKind.deployment.kind key
        (some stored) :=
    congrArg (fun c : Contents =>
      { c with record? := (Cluster.surroundings.contents fresh).record? }) hcreated
  have hfresh : (Cluster.surroundings.contents fresh).IsReady record [] :=
    ⟨rfl, ⟨fun m hm => (by cases hm), fun hi => (by cases hi), fun hi => (by cases hi)⟩,
      fun kind _ m hm => (by cases hm)⟩
  have hready : (Cluster.surroundings.contents edited).IsReady record [] :=
    hedited ▸ hfresh.withObject (fun m hm => Option.some.inj hm ▸ hlive) fun _ _ => trivial
  have hreach : Situation.Reaches Cluster.surroundings (Cluster.surroundings.Revises key)
      (fun _ => True) {} key start ⟨edited, none⟩ := by
    refine ((Situation.Reaches.init.pass trivial).step .stop).step (.others ?_)
    exact ⟨fun _ => Cluster.isSound_of_records rfl rfl hs, fun _ => rfl⟩
  have hreachFresh : Situation.Reaches Cluster.surroundings (Cluster.surroundings.Revises key)
      (fun _ => True) {} key fresh ⟨fresh, none⟩ := .init
  obtain ⟨m, i, hm, hi, hsettles⟩ := exists_settles hserves hs rfl rfl
    (Cluster.isSound_of_records (i := first) rfl rfl hsFirst) (fun _ => rfl) hreach hready
  obtain ⟨n, j, hn, hj, hsettles'⟩ := exists_settles hserves hs rfl rfl
    (Cluster.isSound_of_records rfl rfl hs) (fun _ => rfl) hreachFresh hfresh
  have hsame : i.core = j.core := hi.symm.trans hj
  have hvi : i.spec.violation? = none := (congrArg (·.spec.violation?) hi).symm
  have h := settles_regardless_of_history Cluster.surroundings_hosts Cluster.surroundings_hosts
    Cluster.defaults_unset hsame hvi hsettles hsettles' .deployment
  refine ⟨m, n, hm, hn, ?_, h.1⟩
  have hsome := congrArg Option.isSome h.2
  rw [← i.settledChild?_core, ← hi, Option.isSome_map] at hsome
  exact hsome

end Context
end MailCapture
