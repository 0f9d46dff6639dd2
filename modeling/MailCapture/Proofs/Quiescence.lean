import MailCapture.Pass
import MailCapture.Proofs.Classify
import MailCapture.Proofs.Comparison
import MailCapture.Proofs.InMemory
/-!
A pass is quiescent exactly when there is nothing to do: all children are as the record asks for
them and its status is the one that the cluster shows.
-/
namespace MailCapture

/-- Whether a child is as its record asks for it: it is there, stays and has not drifted if it is
selected, and is gone or going if it is not. -/
def Contents.IsSettled (c : Contents) (i : Instance) (kind : ChildKind) : Prop :=
  if kind.isSelected i.spec then
    ∃ m d, c.object? kind.kind i.key = some m ∧ i.adopted kind = .ok (some d) ∧
      m.isTerminating = false ∧ m.needsUpdate d = false
  else ∀ m, c.object? kind.kind i.key = some m → m.isTerminating = true

theorem Contents.isSettled_selected {c : Contents} {i : Instance} {kind : ChildKind}
    (h : kind.isSelected i.spec = true) :
    c.IsSettled i kind ↔ ∃ m d, c.object? kind.kind i.key = some m ∧
      i.adopted kind = .ok (some d) ∧ m.isTerminating = false ∧ m.needsUpdate d = false := by
  rw [IsSettled, if_pos h]

theorem Contents.isSettled_unselected {c : Contents} {i : Instance} {kind : ChildKind}
    (h : kind.isSelected i.spec = false) :
    c.IsSettled i kind ↔ ∀ m, c.object? kind.kind i.key = some m → m.isTerminating = true := by
  rw [IsSettled, if_neg (by simp [h])]

structure Contents.Decodes (c : Contents) (i : Instance) : Prop where
  pods : ∀ m ∈ c.pods i.key.ns i.labelSelector, (Pod.ofManifest? m).isSome = true
  route : i.spec.inlet = .route → ∀ m, c.object? .route i.key = some m →
    (Route.ofManifest? m).isSome = true
  ingress : i.spec.inlet = .ingress → ∀ m, c.object? .ingress i.key = some m →
    (Ingress.ofManifest? m).isSome = true

def Contents.address? (c : Contents) (i : Instance) : Option String :=
  match i.spec.inlet with
  | .closed => none
  | .route =>
    ((c.object? .route i.key).bind Route.ofManifest?).bind (·.url? i.spec.settings.webPath)
  | .ingress => ((c.object? .ingress i.key).bind Ingress.ofManifest?).bind (·.url? i.spec)

def Contents.statusOf (c : Contents) (i : Instance) : Status :=
  i.statusOf (((c.pods i.key.ns i.labelSelector).mapM Pod.ofManifest?).getD []) (c.address? i)

namespace Instance
variable {σ : Type} {w : Surroundings σ} {i : Instance} {s : σ} {unserved : List ChildKind}

/-! ### Children -/

theorem exists_adopted {uid : String} (hu : i.metadata.uid = some uid) (kind : ChildKind) :
    ∃ d, i.adopted kind = .ok d ∧ d.isSome = kind.isSelected i.spec := by
  have ho : i.adopted kind =
      .ok ((kind.desired i).map (·.adoptedBy (i.ownerReference?.getD {}))) := by
    unfold adopted ownerReference?
    rw [hu]
    cases kind.desired i <;> rfl
  exact ⟨_, ho, isSelected_of_adopted ho⟩

theorem adopted_of_not_selected {kind : ChildKind} (h : kind.isSelected i.spec = false) :
    i.adopted kind = .ok none := by
  have hnone : kind.desired i = none := if_neg (by simp [h])
  unfold adopted
  rw [hnone]

theorem owner_of_adopted {uid : String} (hu : i.metadata.uid = some uid) {kind : ChildKind}
    {m d : Manifest} (hd : i.adopted kind = .ok (some d)) (hn : m.needsUpdate d = false) :
    ∃ r, m.metadata.ownerReferences = some [r] ∧ r.uid = uid := by
  unfold adopted ownerReference? at hd
  rw [hu] at hd
  cases hk : kind.desired i with
  | none =>
    rw [hk] at hd
    cases hd
  | some child =>
    rw [hk] at hd
    cases hd
    exact Manifest.owner_of_not_needsUpdate hn

theorem updateChild_ne_unchanged (kind : ChildKind) (m : Manifest) :
    (i.updateChild kind m).Ensures (fun _ r => r ≠ .ok .unchanged) := by
  unfold updateChild
  rw [Action.ensures_attempt_bind]
  intro a
  cases a with
  | ok stored => simp [report]
  | error f =>
    cases f
    case invalid why =>
      rw [Action.ensures_attempt_bind]
      intro b
      cases b with
      | ok u => simp [report]
      | error g => cases g <;> simp
    all_goals simp

theorem createChild_ne_unchanged (hw : w.IsSequential) {kind : ChildKind} (d : Manifest)
    (hm : (w.contents s).object? kind.kind i.key = none) (t : σ) :
    (i.createChild kind d).exec w s ≠ (.ok .unchanged, t) := by
  intro h
  unfold createChild at h
  obtain ⟨a, u, ha, hnext⟩ := Action.exec_bind_eq_ok h
  cases ha
  cases hr : (w.reply (.create kind.kind d.stamp) s).1 with
  | ok stored =>
    rw [hr] at hnext
    cases hnext
  | error f =>
    rw [hr] at hnext
    have hkept := hw.failed _ _ _ hr
    cases f
    case alreadyExists what =>
      -- the second read finds as little as the first
      have hread := hw.get kind.kind i.key (w.reply (.create kind.kind d.stamp) s).2
      rw [hkept, hm] at hread
      cases (Action.exec_read_bind hread).symm.trans hnext
    all_goals cases hnext

theorem deleteChild_ne_unchanged (hw : w.IsSequential) {kind : ChildKind}
    (hm : ((w.contents s).object? kind.kind i.key).isSome = true) (t : σ) :
    (i.deleteChild kind).exec w s ≠ (.ok .unchanged, t) := by
  intro h
  unfold deleteChild at h
  obtain ⟨a, u, ha, hnext⟩ := Action.exec_bind_eq_ok h
  cases ha
  cases hr : (w.reply (.delete kind.kind i.key graceSeconds) s).1 with
  | ok u =>
    rw [hr] at hnext
    cases hnext
  | error f =>
    rw [hr] at hnext
    cases f
    case notFound what => exact hw.delete kind.kind i.key graceSeconds s what hm hr
    all_goals cases hnext

def proceed (i : Instance) (kind : ChildKind) : ChildState → Action SyncOutcome
  | .inSync | .notSelected => pure .unchanged
  | .absent d => i.createChild kind d
  | .stale replacement => i.updateChild kind replacement
  | .shouldNotExist => i.deleteChild kind
  | .terminating selected => pure (awaitDeletion selected)

/-- A step over a child of a kind that is served classifies what is stored and goes on. -/
theorem exec_syncChild (hw : w.IsSequential) {kind : ChildKind} {desired : Option Manifest}
    (hk : kind ∉ unserved) (hd : i.adopted kind = .ok desired) :
    ∃ t, w.contents t = w.contents s ∧ (i.syncChild unserved kind).exec w s =
      (i.proceed kind
        (classify ((w.contents s).object? kind.kind i.key) desired)).exec w t := by
  have hread := hw.get kind.kind i.key s
  refine ⟨_, hread.2, ?_⟩
  unfold syncChild
  rw [if_neg (by simpa using hk), hd]
  exact Action.exec_read_bind hread

theorem does_syncChild (hw : w.IsSequential) {kind : ChildKind} (hk : kind ∉ unserved)
    {desired : Option Manifest} (hd : i.adopted kind = .ok desired) {written : List Turn}
    {outcome : SyncOutcome} {t : σ}
    (h : (i.proceed kind (classify ((w.contents s).object? kind.kind i.key) desired)).Does w
      (w.reply (.get kind.kind i.key) s).2 written outcome t) :
    (i.syncChild unserved kind).Does w s written outcome t := by
  unfold syncChild
  rw [if_neg (by simpa using hk), hd]
  exact (Action.does_read (hw.get kind.kind i.key s) rfl).bind h

/-- A child that is as it should be, or of a kind that is not served, is left alone. -/
theorem does_syncChild_settled (hw : w.IsSequential) {kind : ChildKind}
    (hs : kind ∈ unserved ∨ (w.contents s).IsSettled i kind) :
    ∃ t, w.contents t = w.contents s ∧ (i.syncChild unserved kind).Does w s [] .unchanged t := by
  by_cases hk : kind ∈ unserved
  · unfold syncChild
    rw [if_pos (by simpa using hk)]
    exact ⟨s, rfl, Action.does_pure _ w s⟩
  · have hset := hs.resolve_left hk
    refine ⟨_, (hw.get kind.kind i.key s).2, ?_⟩
    cases hsel : kind.isSelected i.spec with
    | true =>
      obtain ⟨m, d, ho, hd, hlive, hn⟩ := (Contents.isSettled_selected hsel).1 hset
      refine does_syncChild hw hk hd ?_
      rw [ho, classify_inSync hlive hn]
      exact Action.does_pure _ w _
    | false =>
      rw [Contents.isSettled_unselected hsel] at hset
      refine does_syncChild hw hk (adopted_of_not_selected hsel) ?_
      cases ho : (w.contents s).object? kind.kind i.key with
      | none => exact Action.does_pure _ w _
      | some m =>
        rw [classify_terminating (hset m ho)]
        exact Action.does_pure _ w _

/-- A child that a step leaves alone is as it should be, or of a kind that is not served. -/
theorem settled_of_syncChild (hw : w.IsSequential) {kind : ChildKind} {t : σ}
    (h : (i.syncChild unserved kind).exec w s = (.ok .unchanged, t)) :
    kind ∈ unserved ∨ (w.contents s).IsSettled i kind := by
  by_cases hk : kind ∈ unserved
  · exact Or.inl hk
  · cases hd : i.adopted kind with
    | error f =>
      unfold syncChild at h
      rw [if_neg (by simpa using hk), hd] at h
      cases h
    | ok desired =>
      obtain ⟨u, hkept, he⟩ := exec_syncChild hw (s := s) hk hd
      have hnext := he.symm.trans h
      have hsel := isSelected_of_adopted hd
      generalize ho : (w.contents s).object? kind.kind i.key = observed at hnext
      have hc := classify_describes observed desired
      cases hclass : classify observed desired with
      | inSync =>
        rw [hclass] at hc
        obtain ⟨m, d, rfl, rfl, hlive, hn⟩ := hc
        exact Or.inr ((Contents.isSettled_selected hsel.symm).2 ⟨m, d, ho, hd, hlive, hn⟩)
      | notSelected =>
        rw [hclass] at hc
        obtain ⟨rfl, rfl⟩ := hc
        rw [Contents.isSettled_unselected hsel.symm, ho]
        exact Or.inr (by simp)
      | terminating selected =>
        rw [hclass] at hc hnext
        obtain ⟨m, rfl, hgoing, rfl⟩ := hc
        cases desired with
        | some d => cases hnext
        | none =>
          rw [Contents.isSettled_unselected hsel.symm, ho]
          refine Or.inr fun m' hm' => ?_
          cases hm'
          exact hgoing
      | absent d =>
        rw [hclass] at hc hnext
        rw [hc.1, ← hkept] at ho
        exact absurd hnext (createChild_ne_unchanged hw d ho t)
      | stale replacement =>
        rw [hclass] at hnext
        obtain ⟨_, hne⟩ := (i.updateChild_ne_unchanged kind replacement).exec
        exact absurd (congrArg Prod.fst hnext) hne
      | shouldNotExist =>
        rw [hclass] at hc hnext
        obtain ⟨m, rfl, _, _⟩ := hc
        rw [← hkept] at ho
        exact absurd hnext (deleteChild_ne_unchanged hw (by rw [ho]; rfl) t)

theorem does_syncChildren_settled (hw : w.IsSequential) {kinds : List ChildKind}
    (hs : ∀ kind ∈ kinds, kind ∈ unserved ∨ (w.contents s).IsSettled i kind) :
    ∃ t, w.contents t = w.contents s ∧
      (i.syncChildren unserved kinds).Does w s [] false t := by
  induction kinds generalizing s with
  | nil => exact ⟨s, rfl, Action.does_pure _ w s⟩
  | cons kind rest ih =>
    obtain ⟨t, ht, hfirst⟩ := does_syncChild_settled hw (hs kind List.mem_cons_self)
    obtain ⟨u, hu, hrest⟩ := ih (s := t) fun k hk => ht ▸ hs k (List.mem_cons_of_mem kind hk)
    exact ⟨u, hu.trans ht, hfirst.bind hrest⟩

/-- Steps of which none ends the pass find every kind settled. -/
theorem settled_of_syncChildren (hw : w.IsSequential) {kinds : List ChildKind} {t : σ}
    (h : (i.syncChildren unserved kinds).exec w s = (.ok false, t)) :
    ∀ kind ∈ kinds, kind ∈ unserved ∨ (w.contents s).IsSettled i kind := by
  induction kinds generalizing s with
  | nil => simp
  | cons kind rest ih =>
    obtain ⟨outcome, u, hstep, hnext⟩ := Action.exec_bind_eq_ok h
    cases he : outcome.endsPass with
    | true =>
      rw [if_pos he] at hnext
      cases hnext
    | false =>
      have ho : outcome = .unchanged := by cases outcome <;> first | rfl | cases he
      subst ho
      have hkind := settled_of_syncChild hw hstep
      -- a settled kind is left alone, so that the next step sees the same contents
      obtain ⟨u', hkept, hsame⟩ := does_syncChild_settled hw hkind
      cases hstep.symm.trans hsame.exec
      intro k hk
      cases List.mem_cons.1 hk with
      | inl hhead => exact hhead ▸ hkind
      | inr htail => exact hkept ▸ ih hnext k htail

/-! ### The status -/

theorem decoded_isSome {α : Type} {value : Option α} (h : value.isSome = true) :
    ∃ a, value = some a ∧ decoded value = pure a := by
  obtain ⟨a, rfl⟩ := Option.isSome_iff_exists.1 h
  exact ⟨a, rfl, rfl⟩

theorem isSome_mapM {α β : Type} {f : α → Option β} {items : List α}
    (h : ∀ a ∈ items, (f a).isSome = true) : (items.mapM f).isSome = true := by
  induction items with
  | nil => rfl
  | cons a rest ih =>
    obtain ⟨b, hb⟩ := Option.isSome_iff_exists.1 (h a List.mem_cons_self)
    obtain ⟨bs, hbs⟩ := Option.isSome_iff_exists.1 (ih fun x hx => h x (List.mem_cons_of_mem a hx))
    rw [List.mapM_cons, hb, hbs]
    rfl

theorem does_shown {α : Type} (read : Manifest → Option α) (url : α → Option String)
    {found : Option Manifest} (h : ∀ m, found = some m → (read m).isSome = true) :
    (match found with
      | none => (pure none : Action (Option String))
      | some m => do return url (← decoded (read m))).Does w s []
        ((found.bind read).bind url) s := by
  cases found with
  | none => exact Action.does_pure none w s
  | some m =>
    obtain ⟨a, hr, ha⟩ := decoded_isSome (h m rfl)
    show (decoded (read m) >>= fun a => pure (url a) : Action (Option String)).Does w s [] _ s
    rw [ha, Option.bind_some, hr]
    exact Action.does_pure (url a) w s

theorem does_exposureUrl (hw : w.IsSequential) (hd : (w.contents s).Decodes i) :
    ∃ t, w.contents t = w.contents s ∧
      i.exposureUrl.Does w s [] ((w.contents s).address? i) t := by
  unfold exposureUrl Contents.address?
  cases hi : i.spec.inlet with
  | closed => exact ⟨s, rfl, Action.does_pure none w s⟩
  | route =>
    have hread := hw.get .route i.key s
    exact ⟨_, hread.2, (Action.does_read hread rfl).bind
      (does_shown Route.ofManifest? (·.url? i.spec.settings.webPath) (hd.route hi))⟩
  | ingress =>
    have hread := hw.get .ingress i.key s
    exact ⟨_, hread.2, (Action.does_read hread rfl).bind
      (does_shown Ingress.ofManifest? (·.url? i.spec) (hd.ingress hi))⟩

theorem does_computeStatus (hw : w.IsSequential) (hd : (w.contents s).Decodes i) :
    ∃ t, w.contents t = w.contents s ∧
      i.computeStatus.Does w s [] ((w.contents s).statusOf i) t := by
  unfold computeStatus Contents.statusOf
  have hread := hw.list i.key.ns i.labelSelector s
  obtain ⟨pods, hpods, hp⟩ := decoded_isSome (isSome_mapM hd.pods)
  obtain ⟨t, ht, hurl⟩ := does_exposureUrl hw
    (s := (w.reply (.list .pod i.key.ns i.labelSelector) s).2) (hread.2.symm ▸ hd)
  refine ⟨t, ht.trans hread.2, (Action.does_read hread rfl).bind ?_⟩
  rw [hp, hpods]
  rw [hread.2] at hurl
  exact (Action.does_pure pods w _).bind (hurl.bind (Action.does_pure _ w t))

theorem writeStatus_of_stored {status : Status} (h : i.status = some status) :
    (i.writeStatus status).exec w s = (.ok .unchanged, s) := by
  rw [writeStatus, if_pos h]
  rfl

theorem stored_of_writeStatus (hw : w.IsSequential)
    (hr : (w.contents s).record? i.key = some i) {status : Status} {t : σ}
    (h : (i.writeStatus status).exec w s = (.ok .unchanged, t)) : i.status = some status := by
  unfold writeStatus at h
  by_cases hs : i.status = some status
  · exact hs
  · rw [if_neg hs] at h
    have hread := hw.getInstance i.key s
    rw [hr] at hread
    have hnext := (Action.exec_read_bind hread).symm.trans h
    obtain ⟨record, u, _, hlast⟩ := Action.exec_bind_eq_ok hnext
    cases hlast

/-- A record with the status that the cluster shows is left alone. -/
theorem does_ensureStatus_stored (hw : w.IsSequential) (hd : (w.contents s).Decodes i)
    (hs : i.status = some ((w.contents s).statusOf i)) :
    ∃ t, w.contents t = w.contents s ∧ i.ensureStatus.Does w s [] .unchanged t := by
  obtain ⟨t, ht, hcompute⟩ := does_computeStatus hw hd
  have hcounted := hw.emit (.podsCounted i.key ((w.contents s).statusOf i).podCount
    ((w.contents s).statusOf i).readyPodCount) t
  have hwrite {u : σ} : (i.writeStatus ((w.contents s).statusOf i)).Does w u [] .unchanged u := by
    rw [writeStatus, if_pos hs]
    exact Action.does_pure _ w u
  exact ⟨_, hcounted.trans ht, hcompute.bind ((Action.does_emit _ w t).bind hwrite)⟩

theorem stored_of_ensureStatus (hw : w.IsSequential)
    (hr : (w.contents s).record? i.key = some i) (hd : (w.contents s).Decodes i) {t : σ}
    (h : i.ensureStatus.exec w s = (.ok .unchanged, t)) :
    i.status = some ((w.contents s).statusOf i) := by
  obtain ⟨u, hu, hcompute⟩ := does_computeStatus hw hd
  have hwrite := (Action.exec_bind_ok hcompute.exec).symm.trans h
  rw [Action.exec_bind_ok (Action.exec_emit w u _)] at hwrite
  refine stored_of_writeStatus hw ?_ hwrite
  rw [hw.emit, hu, hr]

end Instance

/-! ### The pass -/

def PassOutcome.ofStatus : StatusOutcome → PassOutcome
  | .written => .progressing
  | .unchanged => .quiescent

/-- Whether nothing is left to do for a record: the children of all served kinds are settled and the
record has the status that is computed for it. -/
structure Surroundings.IsSettled {σ : Type} (w : Surroundings σ) (s : σ) (i : Instance)
    (unserved : List ChildKind) : Prop where
  children : ∀ kind, kind ∉ unserved → (w.contents s).IsSettled i kind
  status : ∃ status, (i.computeStatus.exec w s).1 = .ok status ∧ i.status = some status

namespace Context
variable {σ : Type} {w : Surroundings σ} {i : Instance} {s : σ} {ctx : Context}

theorem exec_pass (ctx : Context) (hw : w.IsSequential) {key : Key}
    (hr : (w.contents s).record? key = some i) (hv : i.spec.violation? = none) :
    ∃ t, w.contents t = w.contents s ∧
      (ctx.pass key).exec w s = (do
        if ← i.syncChildren ctx.unserved ChildKind.all then return .progressing
        match ← i.ensureStatus with
        | .written => return .progressing
        | .unchanged => return .quiescent : Action PassOutcome).exec w t := by
  have hread := hw.getInstance key s
  rw [hr] at hread
  refine ⟨_, hread.2, (Action.exec_read_bind hread).trans ?_⟩
  show (i.pass ctx.unserved).exec w _ = _
  unfold Instance.pass
  split
  · rename_i violation hsome
    cases hv.symm.trans hsome
  · rfl

theorem does_pass (hw : w.IsSequential) (hr : (w.contents s).record? i.key = some i)
    {written : List Turn} {outcome : PassOutcome} {t : σ}
    (h : (i.pass ctx.unserved).Does w (w.reply (.getInstance i.key) s).2 written outcome t) :
    (ctx.pass i.key).Does w s written outcome t := by
  have hread := hw.getInstance i.key s
  rw [hr] at hread
  exact (Action.does_read hread rfl).bind h

/-- A pass over settled children comes down to its status step. -/
theorem does_pass_settled (hw : w.IsSequential) (hr : (w.contents s).record? i.key = some i)
    (hv : i.spec.violation? = none)
    (hset : ∀ kind, kind ∉ ctx.unserved → (w.contents s).IsSettled i kind) :
    ∃ u, w.contents u = w.contents s ∧ ∀ {written : List Turn} {outcome : StatusOutcome} {t : σ},
      i.ensureStatus.Does w u written outcome t →
        (ctx.pass i.key).Does w s written (.ofStatus outcome) t := by
  have hread := hw.getInstance i.key s
  rw [← hread.2] at hset
  have hkinds : ∀ kind ∈ ChildKind.all, kind ∈ ctx.unserved ∨
      (w.contents (w.reply (.getInstance i.key) s).2).IsSettled i kind :=
    fun kind _ => Classical.or_iff_not_imp_left.2 (hset kind)
  obtain ⟨u, hu, hchildren⟩ := Instance.does_syncChildren_settled hw hkinds
  refine ⟨u, hu.trans hread.2, fun {written outcome t} hensure => does_pass hw hr ?_⟩
  rw [Instance.pass, hv, ← List.append_nil written]
  refine hchildren.bind (hensure.bind ?_)
  cases outcome <;> exact Action.does_pure _ w t

/-- A pass that finds nothing to do leaves the store as it is. -/
theorem does_pass_nothing (hw : w.IsSequential) (hr : (w.contents s).record? i.key = some i)
    (hv : i.spec.violation? = none) (hd : (w.contents s).Decodes i)
    (hs : w.IsSettled s i ctx.unserved) :
    ∃ t, w.contents t = w.contents s ∧ (ctx.pass i.key).Does w s [] .quiescent t := by
  obtain ⟨u, hu, hpass⟩ := does_pass_settled hw hr hv hs.children
  obtain ⟨status, hstatus, hstored⟩ := hs.status
  obtain ⟨_, _, hcompute⟩ := Instance.does_computeStatus hw hd
  rw [hcompute.exec] at hstatus
  cases hstatus
  rw [← hu] at hd hstored ⊢
  obtain ⟨t, ht, hensure⟩ := Instance.does_ensureStatus_stored hw hd hstored
  exact ⟨t, ht, hpass hensure⟩

theorem pass_of_settled (hw : w.IsSequential) (hr : (w.contents s).record? i.key = some i)
    (hv : i.spec.violation? = none) (hd : (w.contents s).Decodes i)
    (hs : w.IsSettled s i ctx.unserved) :
    ∃ t, w.contents t = w.contents s ∧ (ctx.pass i.key).exec w s = (.ok .quiescent, t) := by
  obtain ⟨t, ht, hpass⟩ := does_pass_nothing hw hr hv hd hs
  exact ⟨t, ht, hpass.exec⟩

/-- A pass that ends quiescent has found all children settled, and then looked at the status. -/
theorem children_of_pass (hw : w.IsSequential) {key : Key}
    (hr : (w.contents s).record? key = some i) (hv : i.spec.violation? = none) {t : σ}
    (h : (ctx.pass key).exec w s = (.ok .quiescent, t)) :
    (∀ kind, kind ∈ ctx.unserved ∨ (w.contents s).IsSettled i kind) ∧
      ∃ b, w.contents b = w.contents s ∧ i.ensureStatus.exec w b = (.ok .unchanged, t) := by
  obtain ⟨a, ha, hpass⟩ := exec_pass ctx hw hr hv
  obtain ⟨ended, b, hchildren, hnext⟩ := Action.exec_bind_eq_ok (hpass.symm.trans h)
  cases ended with
  | true => cases hnext
  | false =>
    have hkinds := Instance.settled_of_syncChildren hw hchildren
    -- with all kinds settled the steps changed nothing
    obtain ⟨b', hb, hsame⟩ := Instance.does_syncChildren_settled hw hkinds
    cases hchildren.symm.trans hsame.exec
    obtain ⟨outcome, c, hensure, hlast⟩ := Action.exec_bind_eq_ok hnext
    cases outcome with
    | written => cases hlast
    | unchanged =>
      cases hlast
      exact ⟨fun kind => ha ▸ hkinds kind (ChildKind.mem_all kind), b, hb.trans ha, hensure⟩

/-- A pass that ends quiescent has found nothing to do. -/
theorem settled_of_pass (hw : w.IsSequential) (hr : (w.contents s).record? i.key = some i)
    (hv : i.spec.violation? = none) (hd : (w.contents s).Decodes i) {t : σ}
    (h : (ctx.pass i.key).exec w s = (.ok .quiescent, t)) : w.IsSettled s i ctx.unserved := by
  obtain ⟨hkinds, b, hb, hensure⟩ := children_of_pass hw hr hv h
  have hstored := Instance.stored_of_ensureStatus hw (hb.symm ▸ hr) (hb.symm ▸ hd) hensure
  obtain ⟨_, _, hcompute⟩ := Instance.does_computeStatus hw hd
  exact ⟨fun kind hk => (hkinds kind).resolve_left hk, _, by rw [hcompute.exec],
    by rw [hstored, hb]⟩

/-- A reconciliation waits for a change after a quiescent pass, and asks for the next pass after a
progressing one. -/
theorem exec_reconcile {key : Key} {outcome : PassOutcome} {t : σ}
    (h : (ctx.pass key).exec w s = (.ok outcome, t)) :
    (ctx.reconcile key).exec w s =
      (.ok (if outcome = .progressing then some ctx.requeueSeconds else none),
        w.emit .touched (w.emit (.reconciled key) t)) :=
  (Action.exec_bind_ok h).trans rfl

/-- A pass over a record that is found and keeps the rules is progressing or quiescent, or fails. -/
theorem pass_outcome (hw : w.IsSequential) {key : Key} (hr : (w.contents s).record? key = some i)
    (hv : i.spec.violation? = none) {outcome : PassOutcome} {t : σ}
    (h : (ctx.pass key).exec w s = (.ok outcome, t)) :
    outcome = .progressing ∨ outcome = .quiescent := by
  obtain ⟨a, _, hpass⟩ := exec_pass ctx hw hr hv
  obtain ⟨ended, b, _, hnext⟩ := Action.exec_bind_eq_ok (hpass.symm.trans h)
  cases ended with
  | true =>
    cases hnext
    exact Or.inl rfl
  | false =>
    obtain ⟨update, c, _, hlast⟩ := Action.exec_bind_eq_ok hnext
    cases update with
    | written =>
      cases hlast
      exact Or.inl rfl
    | unchanged =>
      cases hlast
      exact Or.inr rfl

/-- A pass is quiescent exactly when the record is settled.  Then the store stays as it is, nothing
is to follow until a change, and every wanted child has the record as its only owner.  Otherwise
another pass follows, or the failure is returned. -/
theorem pass_quiescent_iff_settled (hw : w.IsSequential)
    (hr : (w.contents s).record? i.key = some i) {uid : String}
    (hu : i.metadata.uid = some uid) (hv : i.spec.violation? = none)
    (hd : (w.contents s).Decodes i) :
    (((ctx.pass i.key).exec w s).1 = .ok .quiescent ↔ w.IsSettled s i ctx.unserved) ∧
      (w.IsSettled s i ctx.unserved →
        w.contents ((ctx.pass i.key).exec w s).2 = w.contents s ∧
        w.contents ((ctx.reconcile i.key).exec w s).2 = w.contents s ∧
        ((ctx.reconcile i.key).exec w s).1 = .ok none ∧
        ∀ kind, kind ∉ ctx.unserved → kind.isSelected i.spec = true →
          ∃ m r, (w.contents s).object? kind.kind i.key = some m ∧
            m.metadata.ownerReferences = some [r] ∧ r.uid = uid) ∧
      (¬ w.IsSettled s i ctx.unserved →
        ((ctx.reconcile i.key).exec w s).1 = .ok (some ctx.requeueSeconds) ∨
          ∃ f, ((ctx.reconcile i.key).exec w s).1 = .error f) := by
  have hiff : ((ctx.pass i.key).exec w s).1 = .ok .quiescent ↔ w.IsSettled s i ctx.unserved := by
    constructor
    · intro h
      exact settled_of_pass hw hr hv hd (Prod.ext h rfl)
    · intro h
      obtain ⟨t, _, ht⟩ := pass_of_settled hw hr hv hd h
      rw [ht]
  refine ⟨hiff, fun hs => ?_, fun hs => ?_⟩
  · obtain ⟨t, hkept, ht⟩ := pass_of_settled hw hr hv hd hs
    have hreconcile := exec_reconcile ht
    refine ⟨by rw [ht, hkept], ?_, by rw [hreconcile]; rfl, fun kind hk hsel => ?_⟩
    · rw [hreconcile, hw.emit, hw.emit, hkept]
    · obtain ⟨m, d, ho, had, _, hn⟩ :=
        (Contents.isSettled_selected hsel).1 (hs.children kind hk)
      obtain ⟨r, howner, huid⟩ := Instance.owner_of_adopted hu had hn
      exact ⟨m, r, ho, howner, huid⟩
  · cases hp : (ctx.pass i.key).exec w s with
    | mk r t =>
      cases r with
      | error f => exact Or.inr ⟨f, by rw [reconcile, Action.exec_bind_error hp]⟩
      | ok outcome =>
        rw [exec_reconcile hp]
        cases pass_outcome hw hr hv hp with
        | inl ho => exact Or.inl (by rw [ho]; rfl)
        | inr ho =>
          subst ho
          exact absurd (hiff.1 (by rw [hp])) hs

/-- A record with its deployment, its service and the config map of its settings files has come to
rest, and each of the three has it as the only owner.  Without its status it has not. -/
theorem pass_quiescent_iff_settled_served :
    let fresh : Instance := ⟨{ name := some "mail", ns := some "dev", uid := some "u1" },
      { settings := { files := some { webUsers := [⟨"ann", "hash"⟩] } } }, none⟩
    let record : Instance := { fresh with status := some (fresh.statusOf [] none) }
    let cluster (i : Instance) : Cluster := {
      records := [(record.key, i)]
      objects := ChildKind.all.filterMap (fun kind =>
        ((record.adopted kind).toOption.bind id).map (⟨⟨kind.kind, record.key⟩, ·⟩)) }
    let reconcile := (Context.reconcile {} record.key).exec Cluster.surroundings
    ((Context.pass {} record.key).exec Cluster.surroundings (cluster record)).1 =
        .ok .quiescent ∧
      (reconcile (cluster record)).1 = .ok none ∧
      (∀ kind ∈ [ChildKind.deployment, .service, .configMap], ∃ m r,
        (cluster record).object? kind.kind record.key = some m ∧
          m.metadata.ownerReferences = some [r] ∧ r.uid = "u1") ∧
      (reconcile (cluster fresh)).1 ≠ .ok none := by
  intro fresh record cluster reconcile
  have hd (i : Instance) (hi : i.spec = fresh.spec) :
      (Cluster.surroundings.contents (cluster i)).Decodes i := by
    refine ⟨fun m hm => ?_, fun hin => ?_, fun hin => ?_⟩
    · cases hm
    · rw [hi] at hin
      cases hin
    · rw [hi] at hin
      cases hin
  have hsettled : Cluster.surroundings.IsSettled (cluster record) record [] := by
    refine ⟨fun kind _ => ?_, _, rfl, rfl⟩
    cases kind with
    | deployment => exact ⟨_, _, rfl, rfl, rfl, by decide +kernel⟩
    | service => exact ⟨_, _, rfl, rfl, rfl, by decide +kernel⟩
    | configMap => exact ⟨_, _, rfl, rfl, rfl, by decide +kernel⟩
    | _ => intro m hm; cases hm
  have hunsettled : ¬ Cluster.surroundings.IsSettled (cluster fresh) fresh [] := by
    rintro ⟨_, status, _, hstatus⟩
    cases hstatus
  obtain ⟨hquiet, hrest, _⟩ := @pass_quiescent_iff_settled Cluster Cluster.surroundings record
    (cluster record) {} Cluster.surroundings_isSequential rfl "u1" rfl rfl (hd record rfl)
  obtain ⟨_, _, hgoes⟩ := @pass_quiescent_iff_settled Cluster Cluster.surroundings fresh
    (cluster fresh) {} Cluster.surroundings_isSequential rfl "u1" rfl rfl (hd fresh rfl)
  obtain ⟨_, _, hnone, howners⟩ := hrest hsettled
  refine ⟨hquiet.2 hsettled, hnone, fun kind hk => ?_, fun h => ?_⟩
  · simp only [List.mem_cons, List.not_mem_nil, or_false] at hk
    exact howners kind List.not_mem_nil (by rcases hk with rfl | rfl | rfl <;> rfl)
  · rcases hgoes hunsettled with hagain | ⟨f, hfails⟩
    · cases hagain.symm.trans h
    · cases hfails.symm.trans h

end Context
end MailCapture
