import MailCapture.Proofs.Amid
import MailCapture.Proofs.Debt
import MailCapture.Proofs.Hosted
import MailCapture.Proofs.Reading
/-!
The two workloads of a record.  The deployment comes first in the order of synchronization: it is
deleted before a deployment config is created, but a deployment is created before a deployment
config is deleted.
-/
namespace MailCapture

namespace Contents

def HasLive (c : Contents) (kind : ChildKind) (key : Key) : Prop :=
  ∃ m, c.object? kind.kind key = some m ∧ m.isTerminating = false

theorem hasLive_iff {c : Contents} {kind : ChildKind} {key : Key} : c.HasLive kind key ↔
    (c.object? kind.kind key).map Manifest.isTerminating = some false := by
  rw [Option.map_eq_some_iff, HasLive]

def IsKeyed (c : Contents) (key : Key) : Prop := ∀ i, c.record? key = some i → i.key = key

/-- What others do to the record of a key and to its children: the record is edited, and deletions
come to their end. -/
structure EditedTo (key : Key) (c d : Contents) : Prop where
  keyed : c.IsKeyed key → d.IsKeyed key
  objects : ∀ kind q, d.object? kind q = c.object? kind q ∨
    d.object? kind q = none ∧ ∃ m, c.object? kind q = some m ∧ m.isTerminating = true

theorem EditedTo.refl {key : Key} (c : Contents) : c.EditedTo key c :=
  ⟨id, fun _ _ => Or.inl rfl⟩

theorem EditedTo.trans {key : Key} {c d e : Contents} (h : c.EditedTo key d)
    (h' : d.EditedTo key e) : c.EditedTo key e where
  keyed := fun hc => h'.keyed (h.keyed hc)
  objects kind q := by
    rcases h'.objects kind q with he | ⟨he, m, hm, ht⟩
    · rw [he]
      exact h.objects kind q
    · rcases h.objects kind q with hd | ⟨hd, _⟩
      · exact Or.inr ⟨he, m, hd ▸ hm, ht⟩
      · rw [hd] at hm
        cases hm

/-- Others neither create nor revive a child, and they delete none. -/
theorem EditedTo.object? {key : Key} {c d : Contents} (h : c.EditedTo key d) {kind : Kind} {q : Key}
    {m : Manifest} (hlive : m.isTerminating = false) :
    d.object? kind q = some m ↔ c.object? kind q = some m := by
  rcases h.objects kind q with he | ⟨he, o, ho, ht⟩
  · rw [he]
  · rw [he, ho]
    constructor
    · intro hm
      cases hm
    · intro hm
      cases hm
      rw [hlive] at ht
      cases ht

theorem EditedTo.hasLive {key q : Key} {c d : Contents} (h : c.EditedTo key d) (kind : ChildKind) :
    d.HasLive kind q ↔ c.HasLive kind q := by
  apply exists_congr
  intro m
  constructor
  · rintro ⟨hm, hlive⟩
    exact ⟨(h.object? hlive).1 hm, hlive⟩
  · rintro ⟨hm, hlive⟩
    exact ⟨(h.object? hlive).2 hm, hlive⟩

end Contents

namespace Surroundings
variable {σ : Type}

/-- The rules of a store that keeps things apart: a call changes objects of its own kind only, what
was deleted is gone or going, and a record stays under its own key. -/
structure IsOrderly (w : Surroundings σ) : Prop extends w.IsSequential where
  others : ∀ c s (kind : ChildKind), c.kind? ≠ some kind.kind → ∀ q,
    (w.contents (w.reply c s).2).object? kind.kind q = (w.contents s).object? kind.kind q
  deleted : ∀ (kind : ChildKind) key grace s, (w.reply (.delete kind.kind key grace) s).1 = .ok () →
    ¬ (w.contents (w.reply (.delete kind.kind key grace) s).2).HasLive kind key
  keyed : ∀ c s key, (w.contents s).IsKeyed key → (w.contents (w.reply c s).2).IsKeyed key

variable {w : Surroundings σ} {i : Instance} {unserved : List ChildKind}

/-- What the status step calls leaves the children as they are. -/
theorem IsOrderly.statusCall (hw : w.IsOrderly) {c : StoreCall} (hc : i.StatusCall c) (s : σ)
    (kind : ChildKind) (q : Key) :
    (w.contents (w.reply c s).2).object? kind.kind q = (w.contents s).object? kind.kind q := by
  cases hc with
  | pods => rw [(hw.list i.key.ns i.labelSelector s).2]
  | exposing other _ => rw [(hw.get other.kind i.key s).2]
  | record hrecord =>
    apply hw.others
    rw [hrecord.kind?]
    intro he
    cases he

/-- A child that is not selected does not come to life. -/
theorem IsOrderly.not_hasLive (hw : w.IsOrderly) {kind : ChildKind}
    (hsel : kind.isSelected i.spec = false) {c : StoreCall} (hc : i.PassCall unserved c) {s : σ}
    (hs : ¬ (w.contents s).HasLive kind i.key) :
    ¬ (w.contents (w.reply c s).2).HasLive kind i.key := by
  have hsame (h : (w.contents (w.reply c s).2).object? kind.kind i.key =
      (w.contents s).object? kind.kind i.key) :
      ¬ (w.contents (w.reply c s).2).HasLive kind i.key := by
    unfold Contents.HasLive
    rw [h]
    exact hs
  have hwanted {d : Manifest} (hd : i.adopted kind = .ok (some d)) : False := by
    have h := Instance.isSelected_of_adopted hd
    rw [hsel] at h
    cases h
  cases hc with
  | status hcall => exact hsame (hw.statusCall hcall s kind i.key)
  | child other _ hcall =>
    by_cases hk : other = kind
    · subst hk
      cases hcall with
      | get => exact hsame (by rw [(hw.get other.kind i.key s).2])
      | create d hd => exact (hwanted hd).elim
      | replace d o hd => exact (hwanted hd).elim
      | delete =>
        cases hr : (w.reply (.delete other.kind i.key graceSeconds) s).1 with
        | ok u => exact hw.deleted other i.key graceSeconds s hr
        | error f => exact hsame (by rw [hw.failed _ s f hr])
    · apply hsame
      apply hw.others
      rw [hcall.kind?]
      intro he
      exact hk (ChildKind.kind_inj (Option.some.inj he))

end Surroundings

namespace Cluster

/-- A call leaves the objects of other kinds. -/
theorem Changes.object? {c d : Cluster} {call : StoreCall} (h : c.Changes call d) {kind : Kind}
    (hk : call.kind? ≠ some kind) (q : Key) : d.object? kind q = c.object? kind q := by
  have hslot (k : Kind) (key : Key) (hne : some k ≠ some kind) :
      (⟨kind, q⟩ : Slot) ≠ ⟨k, key⟩ := by
    intro he
    cases he
    exact hne rfl
  cases h with
  | stays => rfl
  | creates k key m new => exact Entries.get?_put_of_ne _ _ (hslot k key hk)
  | replaces k key m new => exact Entries.get?_put_of_ne _ _ (hslot k key hk)
  | deletes k key grace => exact Entries.get?_remove_of_ne _ (hslot k key hk)
  | writes record current hfound => rfl

theorem Changes.isKeyed {c d : Cluster} {call : StoreCall} (h : c.Changes call d) {key : Key}
    (hk : (surroundings.contents c).IsKeyed key) : (surroundings.contents d).IsKeyed key := by
  cases h with
  | writes record current hfound =>
    rw [contents_putRecord]
    intro i hi
    by_cases hq : key = record.key
    · subst hq
      rw [Contents.record?_withRecord_self] at hi
      cases hi
      exact hk current hfound
    · rw [Contents.record?_withRecord_of_ne _ _ hq] at hi
      exact hk i hi
  | _ => exact hk

theorem surroundings_isOrderly : surroundings.IsOrderly where
  toIsSequential := surroundings_isSequential
  others c s kind h q := (s.changes_answer c).object? h q
  deleted kind key grace s h := by
    rintro ⟨m, hm, _⟩
    have hreply : surroundings.reply (.delete kind.kind key grace) s = s.delete kind.kind key := rfl
    rw [hreply] at h hm
    unfold delete at h hm
    dsimp only at h hm
    split at h
    · rename_i hfound
      rw [if_pos hfound, contents_removeObject, Contents.object?_withObject_self] at hm
      cases hm
    · cases h
  keyed c s key h := (s.changes_answer c).isKeyed h

end Cluster

def Contents.HasBothWorkloads (c : Contents) (key : Key) : Prop :=
  c.HasLive .deployment key ∧ c.HasLive .deploymentConfig key

def Contents.SwitchesBack (c : Contents) (key : Key) : Prop :=
  ∃ i, c.record? key = some i ∧ i.spec.violation? = none ∧ i.spec.workload = .deployment ∧
    c.HasLive .deploymentConfig key

theorem SyncOutcome.endsPass_of_ne {outcome : SyncOutcome} (h : outcome ≠ .unchanged) :
    outcome.endsPass = true := by
  cases outcome <;> first | rfl | exact absurd rfl h

namespace Instance
variable {σ : Type} {w : Surroundings σ} {i : Instance} {unserved : List ChildKind} {key : Key}

def Apart (w : Surroundings σ) (key : Key) (s : σ) : Prop :=
  (w.contents s).IsKeyed key ∧ ¬ (w.contents s).HasBothWorkloads key

def Edits (w : Surroundings σ) (key : Key) (s t : σ) : Prop :=
  (w.contents s).EditedTo key (w.contents t)

theorem Apart.edited {s t : σ} (h : Apart w key s) (hst : Edits w key s t) : Apart w key t := by
  refine ⟨hst.keyed h.1, fun hboth => h.2 ?_⟩
  exact ⟨(hst.hasLive .deployment).1 hboth.1, (hst.hasLive .deploymentConfig).1 hboth.2⟩

/-- An unwanted child that is there to stay is deleted, and that ends the pass. -/
theorem syncChild_deletes (hw : w.IsOrderly) {kind : ChildKind} (hk : kind ∉ unserved)
    (hsel : kind.isSelected i.spec = false) {s : σ} (hlive : (w.contents s).HasLive kind i.key) :
    (i.syncChild unserved kind).Keeps w (Edits w key) (fun _ => True)
      (fun r _ => r ≠ .ok .unchanged) s := by
  obtain ⟨m, hm, ht⟩ := hlive
  unfold syncChild
  rw [if_neg (by simpa using hk), adopted_of_not_selected hsel]
  refine (Action.keeps_call_bind _ _ _).2 fun t hst => ⟨trivial, ?_⟩
  have hfound : (w.contents t).object? kind.kind i.key = some m := (hst.object? ht).2 hm
  have hread := hw.get kind.kind i.key t
  rw [hfound] at hread
  rw [hread.1]
  show (i.proceed kind (classify (some m) none)).Keeps _ _ _ _ _
  rw [classify_shouldNotExist ht]
  show (i.deleteChild kind).Keeps _ _ _ _ _
  unfold deleteChild
  refine (Action.keeps_attempt_bind _ _ _).2 fun u hu => ⟨trivial, ?_⟩
  cases hr : (w.reply (.delete kind.kind i.key graceSeconds) u).1 with
  | ok x =>
    apply Action.Ensures.keeps
    simp [report]
  | error f =>
    cases f
    case notFound what =>
      -- the child is still there when it is deleted
      have hthere : (w.contents u).object? kind.kind i.key = some m := by
        refine (hu.object? ht).2 ?_
        rw [hread.2]
        exact hfound
      exact absurd hr (hw.delete kind.kind i.key graceSeconds u what (by rw [hthere]; rfl))
    all_goals
      apply Action.Ensures.keeps
      simp

/-- While a workload that is not wanted is gone, a pass cannot bring it back. -/
theorem keeps_of_not_hasLive (hw : w.IsOrderly) {kind : ChildKind}
    (hkind : kind = .deployment ∨ kind = .deploymentConfig)
    (hsel : kind.isSelected i.spec = false) {x : Action PassOutcome}
    (hx : x.Calls (i.PassCall unserved)) {s : σ} (hkeyed : (w.contents s).IsKeyed i.key)
    (hs : ¬ (w.contents s).HasLive kind i.key) :
    x.Keeps w (Edits w i.key) (Apart w i.key) (fun _ _ => True) s := by
  have hall : x.Keeps w (Edits w i.key) (Apart w i.key) (fun _ t =>
      (w.contents t).IsKeyed i.key ∧ ¬ (w.contents t).HasLive kind i.key) s := by
    apply hx.keeps
    · intro t u htu ht
      exact ⟨htu.keyed ht.1, fun hu => ht.2 ((htu.hasLive kind).1 hu)⟩
    · intro e t ht
      rw [hw.emit]
      exact ht
    · intro c t hc ht
      exact ⟨hw.keyed c t i.key ht.1, hw.not_hasLive hsel hc ht.2⟩
    · intro t ht
      refine ⟨ht.1, fun hboth => ht.2 ?_⟩
      rcases hkind with rfl | rfl
      · exact hboth.1
      · exact hboth.2
    · exact ⟨hkeyed, hs⟩
  exact hall.mono fun _ _ _ => trivial

theorem reject_apart (hw : w.IsOrderly) (violation : Violation) {s : σ} (hs : Apart w i.key s) :
    (i.reject violation).Keeps w (Edits w i.key) (Apart w i.key) (fun _ _ => True) s := by
  have hall : (i.reject violation).Keeps w (Edits w i.key) (Apart w i.key)
      (fun _ t => Apart w i.key t) s := by
    apply (i.reject_calls violation).keeps
    · intro t u htu ht
      exact ht.edited htu
    · intro e t ht
      rw [Apart, hw.emit]
      exact ht
    · intro c t hc ht
      refine ⟨hw.keyed c t i.key ht.1, fun hboth => ht.2 ?_⟩
      have hsame (kind : ChildKind) : (w.contents (w.reply c t).2).HasLive kind i.key →
          (w.contents t).HasLive kind i.key := by
        unfold Contents.HasLive
        rw [hw.statusCall (.record hc) t kind i.key]
        exact id
      exact ⟨hsame _ hboth.1, hsame _ hboth.2⟩
    · intro t ht
      exact ht
    · exact hs
  exact hall.mono fun _ _ _ => trivial

/-- A deployment that is not wanted any more is dealt with before any other child. -/
theorem pass_deletes_first (hw : w.IsOrderly) (hserved : .deployment ∉ unserved)
    (hv : i.spec.violation? = none) (hsel : ChildKind.deployment.isSelected i.spec = false) {s : σ}
    (hs : Apart w i.key s) (hlive : (w.contents s).HasLive .deployment i.key) :
    (i.pass unserved).Keeps w (Edits w i.key) (Apart w i.key) (fun _ _ => True) s := by
  have hkept : (i.syncChild unserved .deployment).Keeps w (Edits w i.key) (Apart w i.key)
      (fun _ t => (w.contents t).IsKeyed i.key ∧
        ¬ (w.contents t).HasLive .deploymentConfig i.key) s := by
    apply (i.syncChild_calls .deployment unserved).keeps
    · intro t u htu ht
      exact ⟨htu.keyed ht.1, fun hu => ht.2 ((htu.hasLive _).1 hu)⟩
    · intro e t ht
      rw [hw.emit]
      exact ht
    · intro c t hc ht
      have hkind : c.kind? ≠ some ChildKind.deploymentConfig.kind := by
        rw [hc.2.kind?]
        decide
      refine ⟨hw.keyed c t i.key ht.1, ?_⟩
      unfold Contents.HasLive
      rw [hw.others c t .deploymentConfig hkind]
      exact ht.2
    · intro t ht
      exact ⟨ht.1, fun hboth => ht.2 hboth.2⟩
    · exact ⟨hs.1, fun hconfig => hs.2 ⟨hlive, hconfig⟩⟩
  have hstep := hkept.and (syncChild_deletes hw hserved hsel hlive)
  unfold pass
  rw [hv]
  show ((i.syncChild unserved .deployment >>= fun outcome =>
    if outcome.endsPass then pure true else i.syncChildren unserved _) >>= _ :
      Action PassOutcome).Keeps _ _ _ _ _
  rw [Action.keeps_bind, Action.keeps_bind]
  refine hstep.mono fun r t hr => ?_
  cases r with
  | error e => trivial
  | ok outcome =>
    have hne : outcome ≠ .unchanged := fun he => hr.2 (by rw [he])
    dsimp only
    rw [if_pos (SyncOutcome.endsPass_of_ne hne)]
    trivial

/-- A pass that does not ask for a deployment beside a deployment config keeps them apart. -/
theorem pass_apart (hw : w.IsOrderly) (hserved : .deployment ∉ unserved) {s : σ}
    (hs : Apart w i.key s) (hcalm : i.spec.violation? = none → i.spec.workload = .deployment →
      ¬ (w.contents s).HasLive .deploymentConfig i.key) :
    (i.pass unserved).Keeps w (Edits w i.key) (Apart w i.key) (fun _ _ => True) s := by
  cases hv : i.spec.violation? with
  | some violation =>
    have hpass : i.pass unserved = i.reject violation := by
      unfold pass
      rw [hv]
    rw [hpass]
    exact reject_apart hw violation hs
  | none =>
    cases hwork : i.spec.workload with
    | deployment =>
      have hsel : ChildKind.deploymentConfig.isSelected i.spec = false := by
        simp [ChildKind.isSelected, hwork]
      exact keeps_of_not_hasLive hw (Or.inr rfl) hsel (i.pass_calls unserved) hs.1
        (hcalm hv hwork)
    | deploymentConfig =>
      have hsel : ChildKind.deployment.isSelected i.spec = false := by
        simp [ChildKind.isSelected, hwork]
      by_cases hlive : (w.contents s).HasLive .deployment i.key
      · exact pass_deletes_first hw hserved hv hsel hs hlive
      · exact keeps_of_not_hasLive hw (Or.inl rfl) hsel (i.pass_calls unserved) hs.1 hlive

end Instance

namespace Context
variable {σ : Type} {w : Surroundings σ} {i : Instance} {ctx : Context} {key : Key}

theorem pass_creates (hw : w.Serves i) {s : σ} (hr : (w.contents s).record? i.key = some i)
    {uid : String} (hu : i.metadata.uid = some uid) (hv : i.spec.violation? = none)
    {kind : ChildKind} (hk : kind ∉ ctx.unserved) (hsel : kind.isSelected i.spec = true)
    {before after : List ChildKind} (hall : ChildKind.all = before ++ kind :: after)
    (hbefore : ∀ k ∈ before, k ∈ ctx.unserved ∨ (w.contents s).IsSettled i k)
    (hnone : (w.contents s).object? kind.kind i.key = none) :
    ∃ stored, stored.isTerminating = false ∧ w.contents ((ctx.pass i.key).exec w s).2 =
      (w.contents s).withObject kind.kind i.key (some stored) := by
  obtain ⟨desired, hd, hsome⟩ := Instance.exists_adopted hu kind
  rw [hsel] at hsome
  obtain ⟨d, rfl⟩ := Option.isSome_iff_exists.1 hsome
  obtain ⟨t, ht, hpass⟩ := exec_pass ctx hw.toIsSequential hr hv
  rw [← ht] at hbefore hnone ⊢
  obtain ⟨u, _, stored, hcreates, hst, _, hc⟩ :=
    Instance.does_syncChildren_creates hw hk hd hnone after hbefore
  rw [← hall] at hcreates
  refine ⟨stored, hst.live, ?_⟩
  rw [hpass, Action.exec_bind_ok hcreates.exec, ← hc]
  rfl

/-- After the read of a record that does not ask for a deployment beside a deployment config, a pass
keeps the workloads apart. -/
theorem pass_apart (hw : w.IsOrderly) (hserved : .deployment ∉ ctx.unserved) {s : σ}
    (hcalm : ¬ (w.contents s).SwitchesBack key) (hs : Instance.Apart w key s) {q : Query}
    {next : q.Answer → Prog Query Query.Answer (Except Failure PassOutcome)}
    (hpass : (ctx.pass key).run = .ask q next) :
    Instance.Apart w key (w.answer q s).2 ∧ (next (w.answer q s).1).Keeps w.answer
      (Instance.Edits w key) (Instance.Apart w key) (fun _ _ => True) (w.answer q s).2 := by
  cases hpass
  have hread := hw.getInstance key s
  have hafter : Instance.Apart w key (w.reply (.getInstance key) s).2 := by
    rw [Instance.Apart, hread.2]
    exact hs
  refine ⟨hafter, ?_⟩
  have hanswer : w.answer (.call (.getInstance key)) s =
      (.ok ((w.contents s).record? key), (w.reply (.getInstance key) s).2) := Prod.ext hread.1 rfl
  rw [hanswer]
  cases hfound : (w.contents s).record? key with
  | none => trivial
  | some i =>
    have hkey : i.key = key := hs.1 i hfound
    subst hkey
    apply Instance.pass_apart hw hserved hafter
    intro hv hwork hlive
    rw [hread.2] at hlive
    exact hcalm ⟨i, hfound, hv, hwork, hlive⟩

/-- A pass that starts with a record that switches back creates the deployment first. -/
theorem pass_switchesBack (hw : w.Serves i) {s : σ} (hserved : .deployment ∉ ctx.unserved)
    (hr : (w.contents s).record? i.key = some i) {uid : String} (hu : i.metadata.uid = some uid)
    (hs : (w.contents s).SwitchesBack i.key)
    (hnone : (w.contents s).object? Kind.deployment i.key = none) :
    (w.contents ((ctx.pass i.key).exec w s).2).HasBothWorkloads i.key := by
  obtain ⟨record, hfound, hv, hwork, m, hm, hlive⟩ := hs
  rw [hr] at hfound
  cases hfound
  have hsel : ChildKind.deployment.isSelected i.spec = true := by
    simp [ChildKind.isSelected, hwork]
  obtain ⟨stored, hstored, hc⟩ := pass_creates hw hr hu hv hserved hsel
    (show ChildKind.all = [] ++ .deployment :: _ from rfl) (by simp) hnone
  rw [hc]
  constructor
  · exact ⟨stored, Contents.object?_withObject_self _ _ _ _, hstored⟩
  · refine ⟨m, ?_, hlive⟩
    rw [Contents.object?_withObject_of_ne]
    · exact hm
    · intro hkind
      cases hkind

/-- However passes, edits of the record and the ends of deletions follow each other: as long as no
pass starts over a record that asks for a deployment while its deployment config is there to stay,
the record never has both workloads.  A pass that does start so, with no deployment stored, leads to
both. -/
theorem workloads_apart (hw : w.IsOrderly) (hserved : .deployment ∉ ctx.unserved) {store : σ}
    (hkeyed : (w.contents store).IsKeyed key)
    (hstart : ¬ (w.contents store).HasBothWorkloads key) :
    (∀ s, Situation.Reaches w (Instance.Edits w key) (fun t => ¬ (w.contents t).SwitchesBack key)
        ctx key store s → ¬ (w.contents s.store).HasBothWorkloads key) ∧
    ∀ (i : Instance) (uid : String) (t : σ), w.Serves i → i.key = key → i.metadata.uid = some uid →
      Situation.Reaches w (Instance.Edits w key) (fun _ => True) ctx key store ⟨t, none⟩ →
      (w.contents t).record? key = some i → (w.contents t).SwitchesBack key →
      (w.contents t).object? Kind.deployment key = none →
      ∃ u, Situation.Reaches w (Instance.Edits w key) (fun _ => True) ctx key store u ∧
        (w.contents u.store).HasBothWorkloads key := by
  constructor
  · intro s hreach
    have hkept := hreach.keeps (I := Instance.Apart w key) ⟨hkeyed, hstart⟩
      (fun t => Contents.EditedTo.refl _) (fun hab hbc => hab.trans hbc)
      (fun t u htu ht => ht.edited htu)
      (fun t q next hcalm ht hpass => pass_apart hw hserved hcalm ht hpass)
    exact hkept.1.2
  · intro i uid t hserves hkey hu hreach hr hs hnone
    subst hkey
    exact ⟨_, hreach.pass trivial, pass_switchesBack hserves hserved hr hu hs hnone⟩

/-- A record that turns from a deployment to a deployment config has its deployment deleted first,
and the two are never there together.  When it turns back they are. -/
theorem workloads_apart_switched :
    let record (workload : Workload) : Instance :=
      ⟨{ name := some "mh", ns := some "mail", uid := some "u1" }, { workload := workload }, none⟩
    let key := (record .deployment).key
    let edit (c : Cluster) (workload : Workload) : Cluster :=
      { c with records := [(key, record workload)] }
    let pass (c : Cluster) : Cluster := ((Context.pass {} key).exec Cluster.surroundings c).2
    let first := pass (edit {} .deployment)
    let second := pass (edit first .deploymentConfig)
    let third := pass second
    let contents := Cluster.surroundings.contents
    let Reaches (calm : Cluster → Prop) (s : Situation Cluster) : Prop :=
      Situation.Reaches Cluster.surroundings (Instance.Edits Cluster.surroundings key) calm {} key
        (edit {} .deployment) s
    (contents first).HasLive .deployment key ∧ ¬ (contents second).HasLive .deployment key ∧
      (contents third).HasLive .deploymentConfig key ∧
      (∀ c ∈ [first, second, third], ¬ (contents c).HasBothWorkloads key) ∧
      ∃ u, Reaches (fun _ => True) u ∧ (contents u.store).HasBothWorkloads key := by
  intro record key edit pass first second third contents Reaches
  have hfirst : (contents first).HasLive .deployment key :=
    Contents.hasLive_iff.2 (by decide +kernel)
  have hsecond (kind : ChildKind) (hk : kind = .deployment ∨ kind = .deploymentConfig) :
      ¬ (contents second).HasLive kind key := by
    rw [Contents.hasLive_iff]
    rcases hk with rfl | rfl <;> decide +kernel
  have hthird : (contents third).HasLive .deploymentConfig key :=
    Contents.hasLive_iff.2 (by decide +kernel)
  have hgone : (contents third).object? Kind.deployment key = none :=
    Option.isNone_iff_eq_none.1 (by decide +kernel)
  have hfound (c : Cluster) (workload : Workload) :
      (contents (edit c workload)).record? key = some (record workload) := rfl
  have hedit (c : Cluster) (workload : Workload) :
      Instance.Edits Cluster.surroundings key c (edit c workload) := by
    refine ⟨fun _ i hi => ?_, fun _ _ => Or.inl rfl⟩
    cases (hfound c workload).symm.trans hi
    rfl
  have hempty (kind : ChildKind) : ¬ (contents (edit {} .deployment)).HasLive kind key := by
    rintro ⟨m, hm, _⟩
    cases hm
  have hnext {calm : Cluster → Prop} {c : Cluster} (h : Reaches calm ⟨c, none⟩) (hc : calm c) :
      Reaches calm ⟨pass c, none⟩ := (Situation.Reaches.pass h hc).step .stop
  have hrun (calm : Cluster → Prop) (h0 : calm (edit {} .deployment))
      (h1 : calm (edit first .deploymentConfig)) (h2 : calm second) :
      Reaches calm ⟨first, none⟩ ∧ Reaches calm ⟨second, none⟩ ∧ Reaches calm ⟨third, none⟩ := by
    have r1 : Reaches calm ⟨first, none⟩ := hnext .init h0
    have r2 : Reaches calm ⟨second, none⟩ := hnext (r1.step (.others (hedit _ _))) h1
    exact ⟨r1, r2, hnext r2 h2⟩
  have hserved : ChildKind.deployment ∉ ({} : Context).unserved := by simp
  have hkeyed : (contents (edit {} .deployment)).IsKeyed key :=
    (hedit {} .deployment).keyed (fun _ hi => by cases hi)
  obtain ⟨hapart, hboth⟩ := workloads_apart Cluster.surroundings_isOrderly hserved hkeyed
    (fun hboth => hempty _ hboth.1)
  clear_value third second first
  refine ⟨hfirst, hsecond _ (Or.inl rfl), hthird, fun c hc => ?_, ?_⟩
  · obtain ⟨r1, r2, r3⟩ := hrun (fun t => ¬ (contents t).SwitchesBack key)
      (fun ⟨_, _, _, _, hlive⟩ => hempty _ hlive)
      (fun ⟨i, hi, _, hwork, _⟩ => by
        cases (hfound first .deploymentConfig).symm.trans hi
        cases hwork)
      (fun ⟨_, _, _, _, hlive⟩ => hsecond _ (Or.inr rfl) hlive)
    simp only [List.mem_cons, List.not_mem_nil, or_false] at hc
    rcases hc with rfl | rfl | rfl
    · exact hapart _ r1
    · exact hapart _ r2
    · exact hapart _ r3
  · have hs : (record .deployment).spec.toJson.Distinct :=
      Spec.distinct_toJson (fun r hr => by cases hr) (fun a ha => by cases ha)
    obtain ⟨_, _, r3⟩ := hrun (fun _ => True) trivial trivial trivial
    have hswitch : (contents (edit third .deployment)).SwitchesBack key :=
      ⟨_, hfound third .deployment, rfl, rfl,
        ((hedit third .deployment).hasLive .deploymentConfig).2 hthird⟩
    exact hboth (record .deployment) "u1" _ (Cluster.surroundings_serves rfl rfl hs) rfl rfl
      (r3.step (.others (hedit third .deployment))) (hfound third .deployment) hswitch hgone

/-- A record that first asks for a deployment config and then for a deployment has both. -/
theorem both_workloads_after_switch :
    let config : Instance := ⟨{ name := some "mh", ns := some "mail", uid := some "u1" },
      { workload := .deploymentConfig }, none⟩
    let cluster : Cluster := { records := [(config.key, config)] }
    ∃ s, Situation.Reaches Cluster.surroundings (Instance.Edits Cluster.surroundings config.key)
        (fun _ => True) {} config.key cluster s ∧
      (Cluster.surroundings.contents s.store).HasBothWorkloads config.key := by
  intro config cluster
  let record : Instance :=
    ⟨{ name := some "mh", ns := some "mail", uid := some "u1" }, {}, none⟩
  let pass (c : Cluster) : Cluster := ((Context.pass {} config.key).exec Cluster.surroundings c).2
  -- the first pass creates the deployment config, and the edit leaves the objects
  let first := pass cluster
  let edited : Cluster := { first with records := [(config.key, record)] }
  have hedit : Instance.Edits Cluster.surroundings config.key first edited := by
    refine ⟨fun _ i hi => ?_, fun _ _ => Or.inl rfl⟩
    have hself : edited.record? config.key = some record := rfl
    cases hself.symm.trans hi
    rfl
  have hreach : Situation.Reaches Cluster.surroundings
      (Instance.Edits Cluster.surroundings config.key) (fun _ => True) {} config.key cluster
      ⟨first, none⟩ := (Situation.Reaches.init.pass trivial).step .stop
  have hboth : (Cluster.surroundings.contents (pass edited)).HasBothWorkloads config.key :=
    ⟨Contents.hasLive_iff.2 (by decide +kernel), Contents.hasLive_iff.2 (by decide +kernel)⟩
  exact ⟨_, (hreach.step (.others hedit)).pass trivial, hboth⟩

end Context
end MailCapture
