import Mathlib.Data.List.Nodup
import Mathlib.Data.List.Perm.Basic
import MailCapture.Proofs.Bytes
import MailCapture.Proofs.Rejection
/-!
Pods in the buckets of their health.  A pod counts for the first health that it shows, so that its
name is in one bucket only.  The order in which pods, their containers and their conditions are
listed does not matter: there is one way only to fill the buckets in ascending order.  So a status
that was written is found again by the next pass, however the pods are listed then.
-/
namespace MailCapture

/-! ### Health -/

def PodHealth.rank : PodHealth → Nat
  | .pending => 0
  | .failed => 1
  | .restarting => 2
  | .ready => 3
  | .other => 4

theorem PodHealth.rank_inj {h k : PodHealth} (heq : h.rank = k.rank) : h = k := by
  cases h <;> cases k <;> first | rfl | cases heq

namespace Pod

/-- What a pod shows of a health, whether or not another one comes first. -/
def Shows (p : Pod) : PodHealth → Prop
  | .pending => ∃ s, p.status = some s ∧ s.phase = some "Pending"
  | .failed => ∃ s, p.status = some s ∧ s.phase = some "Failed"
  | .restarting => ∃ s, p.status = some s ∧ ∃ c ∈ s.containerStatuses, 3 < c.restartCount.toInt
  | .ready => ∃ s, p.status = some s ∧ ∃ c ∈ s.conditions, c.type = "Ready" ∧ c.status = "True"
  | .other => True

variable {p q : Pod} {h : PodHealth}

theorem restarts_iff {c : ContainerStatus} :
    c.restartCount > restartThreshold ↔ 3 < c.restartCount.toInt := Int32.lt_iff_toInt_lt

/-- A pod shows the health that it counts for. -/
theorem shows_health (p : Pod) : p.Shows p.health := by
  unfold health
  cases hs : p.status with
  | none => trivial
  | some s =>
    dsimp only [healthOf]
    split_ifs with hpending hfailed hrestarting hready
    · exact ⟨s, hs, hpending⟩
    · exact ⟨s, hs, hfailed⟩
    · obtain ⟨c, hc, hmany⟩ := List.any_eq_true.1 hrestarting
      exact ⟨s, hs, c, hc, restarts_iff.1 (of_decide_eq_true hmany)⟩
    · obtain ⟨c, hc, htrue⟩ := List.any_eq_true.1 hready
      exact ⟨s, hs, c, hc, by simpa using htrue⟩
    · trivial

/-- A pod counts for nothing that comes after what it shows. -/
theorem rank_health_le (hshows : p.Shows h) : p.health.rank ≤ h.rank := by
  cases h with
  | pending =>
    obtain ⟨s, hs, hphase⟩ := hshows
    simp [health, hs, healthOf, hphase]
  | failed =>
    obtain ⟨s, hs, hphase⟩ := hshows
    simp [health, hs, healthOf, hphase]
  | restarting =>
    obtain ⟨s, hs, c, hc, hmany⟩ := hshows
    have hany : s.containerStatuses.any (fun c => c.restartCount > restartThreshold) = true :=
      List.any_eq_true.2 ⟨c, hc, decide_eq_true (restarts_iff.2 hmany)⟩
    simp only [health, hs, healthOf, if_pos hany]
    split_ifs <;> decide
  | ready =>
    obtain ⟨s, hs, c, hc, htrue⟩ := hshows
    have hany : s.conditions.any (fun c => c.type == "Ready" && c.status == "True") = true :=
      List.any_eq_true.2 ⟨c, hc, by simpa using htrue⟩
    simp only [health, hs, healthOf, if_pos hany]
    split_ifs <;> decide
  | other => cases p.health <;> decide

/-- A pod counts for the first health that it shows. -/
theorem health_eq_iff :
    p.health = h ↔ p.Shows h ∧ ∀ k : PodHealth, k.rank < h.rank → ¬ p.Shows k := by
  constructor
  · rintro rfl
    exact ⟨p.shows_health, fun k hlt hshows => Nat.not_le.2 hlt (rank_health_le hshows)⟩
  · rintro ⟨hshows, hfirst⟩
    refine PodHealth.rank_inj (Nat.le_antisymm (rank_health_le hshows) ?_)
    exact Nat.le_of_not_lt fun hlt => hfirst _ hlt p.shows_health

end Pod

/-! ### Buckets -/

namespace PodBuckets

def names (b : PodBuckets) : PodHealth → List String
  | .pending => b.pending
  | .failed => b.failed
  | .restarting => b.restarting
  | .ready => b.ready
  | .other => b.other

def allNames (b : PodBuckets) : List String :=
  b.pending ++ b.failed ++ b.restarting ++ b.ready ++ b.other

/-- Whether buckets hold the names of pods, each in the bucket of its health, in the order of their
bytes. -/
structure Sorts (b : PodBuckets) (pods : List Pod) : Prop where
  perm : ∀ h, (b.names h).Perm ((pods.filter (fun p => p.health = h)).map Pod.name)
  ascending : ∀ h, (b.names h).Pairwise (fun s t => Text.bytes s ≤ Text.bytes t)

variable {b c : PodBuckets} {pods : List Pod}

theorem ext_names (h : ∀ k, b.names k = c.names k) : b = c := by
  cases b
  cases c
  rw [mk.injEq]
  exact ⟨h .pending, h .failed, h .restarting, h .ready, h .other⟩

theorem length_allNames (b : PodBuckets) : b.allNames.length = b.total := by
  simp only [allNames, List.length_append, total]

/-- There is one way only to sort pods into buckets. -/
theorem Sorts.unique (hb : b.Sorts pods) (hc : c.Sorts pods) : b = c := by
  refine ext_names fun h => ?_
  refine List.Perm.eq_of_pairwise (fun s t _ _ hst hts => ?_) (hb.ascending h) (hc.ascending h)
    ((hb.perm h).trans (hc.perm h).symm)
  exact Std.le_antisymm (Text.bytes_le_iff.1 hst) (Text.bytes_le_iff.1 hts)

end PodBuckets

/-- The parts of a list by their keys make up the list. -/
theorem flatMap_filter_perm {α κ : Type} [DecidableEq κ] (f : α → κ) {keys : List κ}
    (hkeys : keys.Nodup) {items : List α} (hall : ∀ a ∈ items, f a ∈ keys) :
    (keys.flatMap (fun k => items.filter (fun a => f a = k))).Perm items := by
  induction keys generalizing items with
  | nil => exact List.eq_nil_iff_forall_not_mem.2 (fun a ha => by simpa using hall a ha) ▸ .refl _
  | cons k rest ih =>
    obtain ⟨hk, hrest⟩ := List.nodup_cons.1 hkeys
    have hothers : ∀ a ∈ items.filter (fun a => !decide (f a = k)), f a ∈ rest := by
      intro a ha
      obtain ⟨hmem, hne⟩ := List.mem_filter.1 ha
      exact (List.mem_cons.1 (hall a hmem)).resolve_left (by simpa using hne)
    have hsame : rest.flatMap (fun l => items.filter (fun a => f a = l)) = rest.flatMap
        (fun l => (items.filter (fun a => !decide (f a = k))).filter (fun a => f a = l)) := by
      refine List.flatMap_congr fun l hl => ?_
      rw [List.filter_filter]
      refine List.filter_congr fun a _ => ?_
      by_cases ha : f a = l
      · have hne : f a ≠ k := fun he => hk (he ▸ ha ▸ hl)
        simp [ha, ha ▸ hne]
      · simp [ha]
    rw [List.flatMap_cons, hsame]
    exact ((ih hrest hothers).append_left _).trans (List.filter_append_perm _ _)

namespace Pod
variable {pods : List Pod}

theorem names_buckets (pods : List Pod) (h : PodHealth) :
    (buckets pods).names h = bucket pods h := by
  cases h <;> rfl

theorem buckets_sorts (pods : List Pod) : (buckets pods).Sorts pods where
  perm h := by
    rw [names_buckets]
    exact Text.perm_sorted _
  ascending h := by
    rw [names_buckets]
    exact (Text.pairwise_sorted _).imp Text.bytes_le_iff.2

theorem sorts_iff {b : PodBuckets} : b.Sorts pods ↔ b = buckets pods := by
  constructor
  · intro h
    exact h.unique (buckets_sorts pods)
  · rintro rfl
    exact buckets_sorts pods

/-- The buckets hold the name of each pod as often as it is listed. -/
theorem allNames_buckets (pods : List Pod) : (buckets pods).allNames.Perm (pods.map name) := by
  let keys : List PodHealth := [.pending, .failed, .restarting, .ready, .other]
  have hparts : (keys.flatMap (fun h => (pods.filter (fun p => p.health = h)))).Perm pods :=
    flatMap_filter_perm health (by decide) (fun p _ => by cases p.health <;> decide)
  have hbuckets : (buckets pods).allNames = keys.flatMap (fun h => (buckets pods).names h) := by
    simp [PodBuckets.allNames, PodBuckets.names, keys]
  rw [hbuckets]
  refine List.Perm.trans ?_ (hparts.map name)
  rw [List.map_flatMap]
  exact List.Perm.flatMap_left _ fun h _ => (buckets_sorts pods).perm h

theorem total_buckets (pods : List Pod) : (buckets pods).total = pods.length := by
  rw [← PodBuckets.length_allNames, (allNames_buckets pods).length_eq, List.length_map]

theorem mem_buckets_iff (hnames : (pods.map name).Nodup) {p : Pod} (hp : p ∈ pods)
    {h : PodHealth} : p.name ∈ (buckets pods).names h ↔ h = p.health := by
  rw [((buckets_sorts pods).perm h).mem_iff, List.mem_map]
  constructor
  · rintro ⟨q, hq, hname⟩
    obtain ⟨hmem, hhealth⟩ := List.mem_filter.1 hq
    rw [List.inj_on_of_nodup_map hnames hmem hp hname] at hhealth
    exact (of_decide_eq_true hhealth).symm
  · rintro rfl
    exact ⟨p, List.mem_filter.2 ⟨hp, decide_eq_true rfl⟩, rfl⟩

end Pod

/-! ### The order in which pods are listed -/

structure PodStatus.Reorders (s t : PodStatus) : Prop where
  phase : s.phase = t.phase
  containers : s.containerStatuses.Perm t.containerStatuses
  conditions : s.conditions.Perm t.conditions

namespace Pod

structure Reorders (p q : Pod) : Prop where
  metadata : p.metadata = q.metadata
  status : Option.Rel PodStatus.Reorders p.status q.status

/-- Whether two lists show the same pods, in whatever order they and their parts are listed. -/
def Relists (pods others : List Pod) : Prop :=
  ∃ between, pods.Perm between ∧ List.Forall₂ Reorders between others

variable {p q : Pod} {pods others : List Pod}

theorem Reorders.refl (p : Pod) : p.Reorders p := by
  refine ⟨rfl, ?_⟩
  cases p.status with
  | none => exact .none
  | some s => exact .some ⟨rfl, .refl _, .refl _⟩

theorem Reorders.name (h : p.Reorders q) : p.name = q.name := by
  rw [Pod.name, Pod.name, h.metadata]

theorem Reorders.health (h : p.Reorders q) : p.health = q.health := by
  obtain ⟨-, hstatus⟩ := h
  unfold Pod.health
  generalize p.status = s at hstatus ⊢
  generalize q.status = t at hstatus ⊢
  cases hstatus with
  | none => rfl
  | some hs =>
    dsimp only [healthOf]
    rw [hs.phase, hs.containers.any_eq, hs.conditions.any_eq]

/-- Part by part, lists of reordered pods have the same names. -/
theorem names_of_reorders (h : List.Forall₂ Reorders pods others) (k : PodHealth) :
    (pods.filter (fun p => p.health = k)).map name =
      (others.filter (fun p => p.health = k)).map name := by
  induction h with
  | nil => rfl
  | cons hpq _ ih =>
    rw [List.filter_cons, List.filter_cons, hpq.health]
    split
    · rw [List.map_cons, List.map_cons, hpq.name, ih]
    · exact ih

/-- The order in which pods and their parts are listed does not change the buckets. -/
theorem buckets_of_relists (h : Relists pods others) : buckets others = buckets pods := by
  obtain ⟨between, hperm, hreorders⟩ := h
  refine sorts_iff.1 ⟨fun k => ?_, (buckets_sorts others).ascending⟩
  have hsorted := (buckets_sorts others).perm k
  rw [← names_of_reorders hreorders k] at hsorted
  exact hsorted.trans ((hperm.symm.filter _).map _)

end Pod

/-! ### Statuses -/

theorem toInt_clampCount (n : Nat) : (clampCount n).toInt = min n 2147483647 := by
  rw [clampCount, Int32.toInt_ofNat_of_lt (by omega)]

namespace Instance
variable {i : Instance} {pods others : List Pod} {url : Option String}

theorem statusOf_of_relists (h : Pod.Relists pods others) :
    i.statusOf others url = i.statusOf pods url := by
  rw [statusOf, statusOf, Pod.buckets_of_relists h]

theorem toInt_podCount (i : Instance) (pods : List Pod) (url : Option String) :
    (i.statusOf pods url).podCount.toInt = min pods.length 2147483647 := by
  rw [statusOf, toInt_clampCount, Pod.total_buckets]

theorem toInt_readyPodCount (i : Instance) (pods : List Pod) (url : Option String) :
    (i.statusOf pods url).readyPodCount.toInt =
      min (i.statusOf pods url).pods.ready.length 2147483647 :=
  toInt_clampCount _

theorem readyPodCount_le (i : Instance) (pods : List Pod) (url : Option String) :
    (i.statusOf pods url).readyPodCount ≤ (i.statusOf pods url).podCount := by
  have hready : (Pod.buckets pods).ready.length ≤ (Pod.buckets pods).total := by
    rw [PodBuckets.total]
    omega
  rw [Int32.le_iff_toInt_le, statusOf, toInt_clampCount, toInt_clampCount]
  omega

end Instance

/-! ### Listed objects -/

theorem isSome_of_mapM {α β : Type} {f : α → Option β} {items : List α} {read : List β}
    (h : items.mapM f = some read) : ∀ a ∈ items, (f a).isSome = true := by
  induction items generalizing read with
  | nil => simp
  | cons a rest ih =>
    rw [List.mapM_cons] at h
    obtain ⟨b, hb, hrest⟩ := Option.bind_eq_some_iff.1 h
    obtain ⟨more, hmore, -⟩ := Option.bind_eq_some_iff.1 hrest
    rw [List.forall_mem_cons, hb]
    exact ⟨rfl, ih hmore⟩

/-- What is read of a list in another order is the same in another order. -/
theorem exists_perm_of_mapM {α β : Type} {f : α → Option β} {items others : List α}
    (h : items.Perm others) {read : List β} (hread : items.mapM f = some read) :
    ∃ more, others.mapM f = some more ∧ read.Perm more := by
  induction h generalizing read with
  | nil => exact ⟨read, hread, .refl _⟩
  | cons a _ ih =>
    rw [List.mapM_cons] at hread
    obtain ⟨b, hb, hrest⟩ := Option.bind_eq_some_iff.1 hread
    obtain ⟨bs, hbs, hcons⟩ := Option.bind_eq_some_iff.1 hrest
    cases hcons
    obtain ⟨more, hmore, hperm⟩ := ih hbs
    exact ⟨b :: more, by rw [List.mapM_cons, hb, hmore]; rfl, hperm.cons b⟩
  | swap a b rest =>
    rw [List.mapM_cons, List.mapM_cons] at hread
    obtain ⟨y, hy, hfirst⟩ := Option.bind_eq_some_iff.1 hread
    obtain ⟨more, hmore, hcons⟩ := Option.bind_eq_some_iff.1 hfirst
    obtain ⟨x, hx, hsecond⟩ := Option.bind_eq_some_iff.1 hmore
    obtain ⟨zs, hzs, hlast⟩ := Option.bind_eq_some_iff.1 hsecond
    cases hlast
    cases hcons
    exact ⟨x :: y :: zs, by rw [List.mapM_cons, List.mapM_cons, hx, hy, hzs]; rfl, .swap x y zs⟩
  | trans _ _ ih ih' =>
    obtain ⟨more, hmore, hperm⟩ := ih hread
    obtain ⟨last, hlast, hperm'⟩ := ih' hmore
    exact ⟨last, hlast, hperm.trans hperm'⟩

def Manifest.RelistsPods (found others : List Manifest) : Prop :=
  ∃ pods read, found.mapM Pod.ofManifest? = some pods ∧ others.mapM Pod.ofManifest? = some read ∧
    Pod.Relists pods read

theorem Manifest.relistsPods_of_perm {found others : List Manifest} {pods : List Pod}
    (hread : found.mapM Pod.ofManifest? = some pods) (h : found.Perm others) :
    RelistsPods found others := by
  obtain ⟨read, hothers, hperm⟩ := exists_perm_of_mapM h hread
  exact ⟨pods, read, hread, hothers, read, hperm, List.forall₂_same.2 fun p _ => .refl p⟩

/-- The cluster in memory lists pods in the order of its objects. -/
theorem Cluster.perm_pods {c d : Cluster} (h : c.objects.Perm d.objects) (ns selector : String) :
    ((surroundings.contents c).pods ns selector).Perm
      ((surroundings.contents d).pods ns selector) :=
  (h.filter _).map _

structure Contents.Relists (c d : Contents) (i : Instance) : Prop where
  object : ∀ kind : ChildKind, d.object? kind.kind i.key = c.object? kind.kind i.key
  pods : Manifest.RelistsPods (c.pods i.key.ns i.labelSelector) (d.pods i.key.ns i.labelSelector)

namespace Contents.Relists
variable {c d : Contents} {i : Instance}

theorem decodes (h : c.Relists d i) (hc : c.Decodes i) : d.Decodes i where
  pods := by
    obtain ⟨pods, read, -, hread, -⟩ := h.pods
    exact isSome_of_mapM hread
  route hi m hm := hc.route hi m ((h.object .route).symm.trans hm)
  ingress hi m hm := hc.ingress hi m ((h.object .ingress).symm.trans hm)

theorem address (h : c.Relists d i) : d.address? i = c.address? i := by
  have hroute : d.object? .route i.key = c.object? .route i.key := h.object .route
  have hingress : d.object? .ingress i.key = c.object? .ingress i.key := h.object .ingress
  rw [address?, address?, hroute, hingress]

theorem statusOf (h : c.Relists d i) : d.statusOf i = c.statusOf i := by
  obtain ⟨pods, read, hpods, hread, hrelists⟩ := h.pods
  rw [Contents.statusOf, Contents.statusOf, h.address, hpods, hread]
  exact Instance.statusOf_of_relists hrelists

theorem isSettled (h : c.Relists d i) {kind : ChildKind} (hc : c.IsSettled i kind) :
    d.IsSettled i kind := by
  unfold Contents.IsSettled at hc ⊢
  rwa [h.object kind]

end Contents.Relists

/-! ### Passes -/

namespace Context
variable {σ : Type} {w : Surroundings σ} {i : Instance} {s t : σ} {ctx : Context}

/-- A pass over settled children changes the status of the stored record at most. -/
theorem contents_of_pass_settled (hw : w.KeepsStatus) (hr : (w.contents s).record? i.key = some i)
    (hv : i.spec.violation? = none) (hd : (w.contents s).Decodes i)
    (hset : ∀ kind, kind ∉ ctx.unserved → (w.contents s).IsSettled i kind) {outcome : PassOutcome}
    (h : (ctx.pass i.key).exec w s = (.ok outcome, t)) :
    (i.status = some ((w.contents s).statusOf i) ∧ w.contents t = w.contents s) ∨
      ∃ version managed, w.contents t = (w.contents s).withRecord i.key
        (i.rewritten ((w.contents s).statusOf i) version managed) := by
  obtain ⟨a, ha, hpass⟩ := exec_pass ctx hw.toIsSequential hr hv
  rw [← ha] at hr hd hset ⊢
  have hkinds : ∀ kind ∈ ChildKind.all, kind ∈ ctx.unserved ∨ (w.contents a).IsSettled i kind :=
    fun kind _ => Classical.or_iff_not_imp_left.2 (hset kind)
  obtain ⟨b, hb, hchildren⟩ := Instance.does_syncChildren_settled hw.toIsSequential hkinds
  rw [← hb] at hr hd ⊢
  have hrest := (Action.exec_bind_ok hchildren.exec).symm.trans (hpass.symm.trans h)
  obtain ⟨update, c, hensure, hlast⟩ := Action.exec_bind_eq_ok hrest
  have hct : w.contents t = w.contents c := by cases update <;> cases hlast <;> rfl
  obtain ⟨u, hu, hcompute⟩ := Instance.does_computeStatus hw.toIsSequential hd
  have hwrite := (Action.exec_bind_ok hcompute.exec).symm.trans hensure
  rw [Action.exec_bind_ok (Action.exec_emit w u _)] at hwrite
  have hcounted := (hw.emit (.podsCounted i.key ((w.contents b).statusOf i).podCount
    ((w.contents b).statusOf i).readyPodCount) u).trans hu
  have hkept := Instance.contents_of_written hw (by rw [hcounted, hr]) hwrite
  rw [hcounted] at hkept
  rwa [hct]

/-- However the pods are listed, the status that a record has is computed again, and the record is
left alone. -/
theorem does_pass_relisted (hw : w.IsSequential) {c : Contents} (h : c.Relists (w.contents t) i)
    (hr : (w.contents t).record? i.key = some i) (hv : i.spec.violation? = none)
    (hd : c.Decodes i) (hset : ∀ kind, kind ∉ ctx.unserved → c.IsSettled i kind)
    (hs : i.status = some (c.statusOf i)) :
    (i.computeStatus.exec w t).1 = .ok (c.statusOf i) ∧
      ∃ u, w.contents u = w.contents t ∧ (ctx.pass i.key).Does w t [] .quiescent u := by
  obtain ⟨v, -, hcompute⟩ := Instance.does_computeStatus hw (h.decodes hd)
  rw [h.statusOf] at hcompute
  have hcomputed : (i.computeStatus.exec w t).1 = .ok (c.statusOf i) := by rw [hcompute.exec]
  exact ⟨hcomputed, does_pass_nothing hw hr hv (h.decodes hd)
    ⟨fun kind hk => h.isSettled (hset kind hk), c.statusOf i, hcomputed, hs⟩⟩

/-- The pass after one that found the children settled computes the status that the record has by
then, and writes nothing, however the pods are listed. -/
theorem does_pass_after_settled (hw : w.KeepsStatus)
    (hr : (w.contents s).record? i.key = some i) (hv : i.spec.violation? = none)
    (hd : (w.contents s).Decodes i)
    (hset : ∀ kind, kind ∉ ctx.unserved → (w.contents s).IsSettled i kind) {outcome : PassOutcome}
    {between : σ} (hpass : (ctx.pass i.key).exec w s = (.ok outcome, between))
    (h : (w.contents s).Relists (w.contents t) i)
    (hstored : (w.contents t).record? i.key = (w.contents between).record? i.key) :
    ∃ j u, (w.contents t).record? i.key = some j ∧
      j.status = some ((w.contents s).statusOf i) ∧
      (j.computeStatus.exec w t).1 = .ok ((w.contents s).statusOf i) ∧
      w.contents u = w.contents t ∧ (ctx.pass i.key).Does w t [] .quiescent u := by
  rcases contents_of_pass_settled hw hr hv hd hset hpass with
    ⟨hs, hkept⟩ | ⟨version, managed, hkept⟩
  · rw [hkept, hr] at hstored
    obtain ⟨hcompute, u, hu, hpass⟩ :=
      does_pass_relisted hw.toIsSequential h hstored hv hd hset hs
    exact ⟨i, u, hstored, hs, hcompute, hu, hpass⟩
  · let j := i.rewritten ((w.contents s).statusOf i) version managed
    rw [hkept, Contents.record?_withRecord_self] at hstored
    obtain ⟨hcompute, u, hu, hpass⟩ := does_pass_relisted (i := j) hw.toIsSequential
      ⟨h.object, h.pods⟩ hstored hv ⟨hd.pods, hd.route, hd.ingress⟩ hset rfl
    exact ⟨j, u, hstored, rfl, hcompute, hu, hpass⟩

end Context

namespace Pod

/-- Pods in buckets.  A pod counts for the first health that it shows, and its name is in the bucket
of this health and, unless another pod has the same name, in no other one.  All buckets together
hold the names as often as they are listed, each bucket is in the order of bytes, and there is no
other way to fill them.  In whatever order pods, their containers and their conditions are listed,
the buckets are the same.  Counts stay at the largest number when they exceed it, and there are no
more ready pods than pods.  So where nobody else uses the store, the pass after one that found the
children settled computes the same status, which the record has by then, and writes nothing. -/
theorem buckets_order_free (pods : List Pod) :
    (∀ (p : Pod) h, p.health = h ↔
      p.Shows h ∧ ∀ k : PodHealth, k.rank < h.rank → ¬ p.Shows k) ∧
    (∀ b : PodBuckets, b.Sorts pods ↔ b = buckets pods) ∧
    (buckets pods).allNames.Perm (pods.map name) ∧
    ((pods.map name).Nodup →
      ∀ p ∈ pods, ∀ h, p.name ∈ (buckets pods).names h ↔ h = p.health) ∧
    (∀ others, Relists pods others → buckets others = buckets pods) ∧
    (∀ (i : Instance) url, let status := i.statusOf pods url
      status.podCount.toInt = min pods.length 2147483647 ∧
      status.readyPodCount.toInt = min status.pods.ready.length 2147483647 ∧
      status.readyPodCount ≤ status.podCount) ∧
    ∀ {σ : Type} (w : Surroundings σ), w.KeepsStatus → ∀ (ctx : Context) (i : Instance) s,
      (w.contents s).record? i.key = some i → i.spec.violation? = none →
      (w.contents s).Decodes i →
      (∀ kind, kind ∉ ctx.unserved → (w.contents s).IsSettled i kind) →
      ∀ outcome between, (ctx.pass i.key).exec w s = (.ok outcome, between) →
      ∀ t, (w.contents s).Relists (w.contents t) i →
        (w.contents t).record? i.key = (w.contents between).record? i.key →
        ∃ status, (i.computeStatus.exec w s).1 = .ok status ∧
          ∃ j u, (w.contents t).record? i.key = some j ∧ j.status = some status ∧
            (j.computeStatus.exec w t).1 = .ok status ∧
            w.contents u = w.contents t ∧ (ctx.pass i.key).Does w t [] .quiescent u := by
  refine ⟨fun p h => health_eq_iff, fun b => sorts_iff, allNames_buckets pods,
    fun hnames p hp h => mem_buckets_iff hnames hp, fun others => buckets_of_relists,
    fun i url => ⟨i.toInt_podCount pods url, i.toInt_readyPodCount pods url,
      i.readyPodCount_le pods url⟩, ?_⟩
  intro σ w hw ctx i s hr hv hd hset outcome between hpass t h hstored
  obtain ⟨v, -, hcompute⟩ := Instance.does_computeStatus hw.toIsSequential hd
  exact ⟨(w.contents s).statusOf i, by rw [hcompute.exec],
    Context.does_pass_after_settled hw hr hv hd hset hpass h hstored⟩

/-- Two pods of a settled record, one of them ready.  Turned round, also the conditions of the ready
one, they are in the same buckets.  A pass counts them and writes the status; the next one finds
the objects turned round and writes nothing. -/
theorem buckets_order_free_turned :
    let record : Instance :=
      ⟨{ name := some "mail", ns := some "dev", uid := some "u1" }, {}, none⟩
    let initialized : PodCondition := ⟨"Initialized", "True"⟩
    let ready : PodCondition := ⟨"Ready", "True"⟩
    let first (conditions : List PodCondition) : Pod :=
      ⟨{ name := some "a" }, some { phase := some "Running", conditions := conditions }⟩
    let second : Pod := ⟨{ name := some "b" }, none⟩
    let owned (m : Manifest) : Manifest := m.adoptedBy (record.ownerReference?.getD {})
    let observed (name : String) : Manifest :=
      ⟨none, { name := some name, ns := some "dev", labels := record.selectorLabels }, []⟩
    let cluster : Cluster := {
      records := [(record.key, record)]
      objects := [(⟨.deployment, record.key⟩, owned record.deployment.toManifest),
        (⟨.service, record.key⟩, owned record.service.toManifest),
        (⟨.pod, ⟨"dev", "a"⟩⟩, observed "a"), (⟨.pod, ⟨"dev", "b"⟩⟩, observed "b")] }
    let ctx : Context := {}
    let pass := ctx.pass record.key
    "a" ∈ (buckets [first [initialized, ready], second]).names .ready ∧
      buckets [second, first [ready, initialized]] = buckets [first [initialized, ready], second] ∧
      ∃ between, pass.exec Cluster.surroundings cluster = (.ok .progressing, between) ∧
        ∃ status u, (record.computeStatus.exec Cluster.surroundings cluster).1 = .ok status ∧
          pass.Does Cluster.surroundings
            { between with objects := cluster.objects.reverse } [] .quiescent u := by
  intro record initialized ready first second owned observed cluster ctx pass
  have hrelists :
      Relists [first [initialized, ready], second] [second, first [ready, initialized]] :=
    ⟨[second, first [initialized, ready]], .swap _ _ _,
      .cons (.refl _) (.cons ⟨rfl, .some ⟨rfl, .refl _, .swap _ _ _⟩⟩ .nil)⟩
  obtain ⟨-, -, -, hmem, hturned, -, hpasses⟩ :=
    buckets_order_free [first [initialized, ready], second]
  have hready : "a" ∈ (buckets [first [initialized, ready], second]).names .ready :=
    (hmem (by decide) _ List.mem_cons_self .ready).2 (by decide)
  refine ⟨hready, hturned _ hrelists, ?_⟩
  let contents := Cluster.surroundings.contents cluster
  have hdecodes : contents.Decodes record :=
    ⟨by decide +kernel, fun hi => (by cases hi), fun hi => (by cases hi)⟩
  have hsettled : ∀ kind, kind ∉ ctx.unserved → contents.IsSettled record kind := by
    intro kind _
    cases kind with
    | deployment => exact ⟨_, _, rfl, rfl, rfl, by decide +kernel⟩
    | service => exact ⟨_, _, rfl, rfl, rfl, by decide +kernel⟩
    | _ => intro m hm; cases hm
  have hlive : ∀ kind : ChildKind, kind ∉ ctx.unserved → ∀ m,
      contents.object? kind.kind record.key = some m → m.isTerminating = false := by
    intro kind _ m hm
    cases kind <;> cases hm <;> rfl
  have hserves : Cluster.surroundings.Serves record :=
    Cluster.surroundings_serves rfl rfl
      (Spec.distinct_toJson (fun r hr => by cases hr) (fun a ha => by cases ha))
  obtain ⟨between, answer, version, managed, hpass, -, hbetween⟩ :=
    Context.does_pass_writes_status hserves rfl ⟨rfl, hdecodes, hlive⟩ hsettled
      (fun hs => by cases hs)
  refine ⟨between, hpass.exec, ?_⟩
  -- the objects are turned round, the record is the one that the pass left
  have hsame : contents.Relists
      (Cluster.surroundings.contents { between with objects := cluster.objects.reverse }) record := by
    obtain ⟨pods, hpods⟩ := Option.isSome_iff_exists.1 (Instance.isSome_mapM hdecodes.pods)
    refine ⟨fun kind => ?_, Manifest.relistsPods_of_perm hpods
      (Cluster.perm_pods (List.reverse_perm cluster.objects).symm _ _)⟩
    cases kind with
    | deployment => exact .trans (b := some (owned record.deployment.toManifest)) rfl rfl
    | service => exact .trans (b := some (owned record.service.toManifest)) rfl rfl
    | _ => exact .trans (b := none) rfl rfl
  obtain ⟨status, hstatus, j, u, -, -, -, -, hsecond⟩ := hpasses Cluster.surroundings
    Cluster.surroundings_keepsStatus ctx record cluster rfl rfl hdecodes hsettled _ between
    hpass.exec _ hsame rfl
  exact ⟨status, u, hstatus, hsecond⟩

end Pod
end MailCapture
