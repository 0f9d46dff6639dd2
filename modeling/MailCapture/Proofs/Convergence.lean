import MailCapture.Proofs.Debt
import MailCapture.Proofs.Hosted
import MailCapture.Proofs.Reading
/-!
Passes come to rest: while a write is missing each pass makes one, then one more may write the
status, and all further ones find nothing to do.
-/
namespace MailCapture

structure Contents.AtRest (c : Contents) (i : Instance) (unserved : List ChildKind) : Prop
    extends c.IsReady i unserved where
  children : ∀ kind, kind ∉ unserved → c.IsSettled i kind
  status : i.status = some (c.statusOf i)

theorem Contents.AtRest.child {c : Contents} {i : Instance} {unserved : List ChildKind}
    (h : c.AtRest i unserved) {kind : ChildKind} (hk : kind ∉ unserved) :
    (c.object? kind.kind i.key).isSome = kind.isSelected i.spec ∧
      ∀ m, c.object? kind.kind i.key = some m →
        ∃ d, i.adopted kind = .ok (some d) ∧ m.needsUpdate d = false := by
  have hset := h.children kind hk
  cases hsel : kind.isSelected i.spec with
  | true =>
    obtain ⟨m, d, ho, hd, _, hn⟩ := (Contents.isSettled_selected hsel).1 hset
    rw [ho]
    refine ⟨rfl, fun m' hm => ?_⟩
    cases hm
    exact ⟨d, hd, hn⟩
  | false =>
    rw [Contents.isSettled_unselected hsel] at hset
    -- what is not asked for could only be on its way out
    have hnone : c.object? kind.kind i.key = none := by
      cases ho : c.object? kind.kind i.key with
      | none => rfl
      | some m =>
        have hlive := h.live kind hk m ho
        rw [hset m ho] at hlive
        cases hlive
    rw [hnone]
    exact ⟨rfl, by simp⟩

namespace Instance
variable {σ : Type} {w : Surroundings σ} {i : Instance} {s : σ}

/-- A status that is out of date is written, and nothing else is. -/
theorem does_ensureStatus_writes (hw : w.Serves i) (hr : (w.contents s).record? i.key = some i)
    (hd : (w.contents s).Decodes i) (hs : i.status ≠ some ((w.contents s).statusOf i)) :
    ∃ t answer version managed, i.ensureStatus.Does w s
        [⟨.call (.replaceStatus { i with status := some ((w.contents s).statusOf i) }),
          .ok answer⟩] .written t ∧
      w.contents t = (w.contents s).withRecord i.key
        (i.rewritten ((w.contents s).statusOf i) version managed) := by
  obtain ⟨u, hu, hcompute⟩ := does_computeStatus hw.toIsSequential hd
  generalize (w.contents s).statusOf i = status at hcompute hs ⊢
  let counted := w.emit (.podsCounted i.key status.podCount status.readyPodCount) u
  have hcounted : w.contents counted = w.contents s := (hw.emit _ _).trans hu
  have hread := hw.getInstance i.key counted
  rw [hcounted, hr] at hread
  have hkept := hread.2.trans hcounted
  obtain ⟨answer, v, version, managed, hreply, hv⟩ :=
    hw.replaceStatus _ i status (hkept.symm ▸ hr) rfl
  refine ⟨w.emit .statusWritten v, answer, version, managed, ?_, ?_⟩
  · refine hcompute.bind ((Action.does_emit _ w u).bind ?_)
    rw [writeStatus, if_neg hs]
    refine (Action.does_read hread rfl).bind ((Action.does_write hreply rfl).bind ?_)
    exact (Action.does_emit _ w v).bind (Action.does_pure _ w _)
  · rw [hw.emit, hv, hkept]

end Instance

namespace Context
variable {σ : Type} {w : Surroundings σ} {i : Instance} {s : σ} {ctx : Context} {uid : String}

/-- A pass while a write is missing makes one that is, and nothing else. -/
theorem pass_pays (hw : w.Serves i) (hs : i.spec.toJson.Distinct)
    (hu : i.metadata.uid = some uid) (hv : i.spec.violation? = none)
    (hc : (w.contents s).IsReady i ctx.unserved)
    (hdebt : (w.contents s).debt i ctx.unserved ≠ 0) :
    ∃ t, (ctx.pass i.key).exec w s = (.ok .progressing, t) ∧
      (w.contents t).IsReady i ctx.unserved ∧
      (w.contents t).debt i ctx.unserved < (w.contents s).debt i ctx.unserved ∧
      (w.contents s).AgreesBeside (w.contents t) i ctx.unserved := by
  obtain ⟨u, hkept, he⟩ := exec_pass ctx hw.toIsSequential hc.record hv
  rw [← hkept] at hc hdebt ⊢
  obtain ⟨kind, hk, hne⟩ : ∃ kind, kind ∉ ctx.unserved ∧
      i.debt kind ((w.contents u).object? kind.kind i.key) ≠ 0 := by
    rw [Ne, Contents.debt_eq_zero_iff] at hdebt
    simpa using hdebt
  obtain ⟨k, t, found, hserved, hchildren, hpays⟩ := Instance.syncChildren_pays hw hs hu hc
    ⟨kind, ChildKind.mem_all kind, hk, hne⟩
  exact ⟨t, he.trans (Action.exec_bind_ok hchildren), hpays.isReady hc, hpays.debt_lt hserved,
    hpays.agreesBeside hserved⟩

/-- A pass that finds all children settled and the status out of date writes the status, and nothing
is left to do. -/
theorem does_pass_writes_status (hw : w.Serves i) (hv : i.spec.violation? = none)
    (hc : (w.contents s).IsReady i ctx.unserved)
    (hset : ∀ kind, kind ∉ ctx.unserved → (w.contents s).IsSettled i kind)
    (hs : i.status ≠ some ((w.contents s).statusOf i)) :
    ∃ t answer version managed,
      let j := i.rewritten ((w.contents s).statusOf i) version managed
      (ctx.pass i.key).Does w s
        [⟨.call (.replaceStatus { i with status := some ((w.contents s).statusOf i) }),
          .ok answer⟩] .progressing t ∧
      (w.contents t).AtRest j ctx.unserved ∧
      w.contents t = (w.contents s).withRecord i.key j := by
  obtain ⟨u, hu, hpass⟩ := does_pass_settled hw.toIsSequential hc.record hv hset
  rw [← hu] at hc hset hs ⊢
  obtain ⟨t, answer, version, managed, hensure, ht⟩ :=
    Instance.does_ensureStatus_writes hw hc.record hc.decodes hs
  refine ⟨t, answer, version, managed, hpass hensure, ?_, ht⟩
  rw [ht]
  exact ⟨⟨Contents.record?_withRecord_self _ _ _,
    ⟨hc.decodes.pods, hc.decodes.route, hc.decodes.ingress⟩, hc.live⟩, hset, rfl⟩

/-- A pass with nothing left to do writes nothing. -/
theorem does_pass_atRest (hw : w.IsSequential) (hv : i.spec.violation? = none)
    (h : (w.contents s).AtRest i ctx.unserved) :
    ∃ t, w.contents t = w.contents s ∧ (ctx.pass i.key).Does w s [] .quiescent t := by
  obtain ⟨_, _, hcompute⟩ := Instance.does_computeStatus hw h.decodes
  exact does_pass_nothing hw h.record hv h.decodes
    ⟨h.children, _, by rw [hcompute.exec], h.status⟩

/-! ### Passes in a row -/

def after (ctx : Context) (w : Surroundings σ) (key : Key) : Nat → σ → σ
  | 0, s => s
  | n + 1, s => ctx.after w key n ((ctx.pass key).exec w s).2

def outcome (ctx : Context) (w : Surroundings σ) (key : Key) (n : Nat) (s : σ) :
    Except Failure PassOutcome := ((ctx.pass key).exec w (ctx.after w key n s)).1

theorem after_succ {key : Key} {r : Except Failure PassOutcome} {t : σ}
    (h : (ctx.pass key).exec w s = (r, t)) (n : Nat) :
    ctx.after w key (n + 1) s = ctx.after w key n t := by
  rw [after, h]

theorem outcome_succ {key : Key} {r : Except Failure PassOutcome} {t : σ}
    (h : (ctx.pass key).exec w s = (r, t)) (n : Nat) :
    ctx.outcome w key (n + 1) s = ctx.outcome w key n t := by
  rw [outcome, after_succ h, outcome]

/-- Once nothing is left to do, all passes are quiescent and the store stays as it is. -/
theorem rests (hw : w.IsSequential) (hv : i.spec.violation? = none)
    (h : (w.contents s).AtRest i ctx.unserved) (n : Nat) :
    ctx.outcome w i.key n s = .ok .quiescent ∧
      w.contents (ctx.after w i.key n s) = w.contents s := by
  induction n generalizing s with
  | zero =>
    obtain ⟨t, _, hpass⟩ := does_pass_atRest hw hv h
    exact ⟨congrArg Prod.fst hpass.exec, rfl⟩
  | succ n ih =>
    obtain ⟨t, ht, hpass⟩ := does_pass_atRest hw hv h
    have hnext := ih (s := t) (ht ▸ h)
    rw [outcome_succ hpass.exec, after_succ hpass.exec]
    exact ⟨hnext.1, hnext.2.trans ht⟩

/-- Passes make the writes that are missing, until none is. -/
theorem pays_all (hw : w.Serves i) (hs : i.spec.toJson.Distinct)
    (hu : i.metadata.uid = some uid) (hv : i.spec.violation? = none) {bound : Nat}
    (hc : (w.contents s).IsReady i ctx.unserved)
    (hbound : (w.contents s).debt i ctx.unserved ≤ bound) :
    ∃ n, n ≤ bound ∧ (∀ k, k < n → ctx.outcome w i.key k s = .ok .progressing) ∧
      (w.contents (ctx.after w i.key n s)).IsReady i ctx.unserved ∧
      (w.contents (ctx.after w i.key n s)).debt i ctx.unserved = 0 ∧
      (w.contents s).AgreesBeside (w.contents (ctx.after w i.key n s)) i ctx.unserved := by
  induction bound generalizing s with
  | zero =>
    exact ⟨0, Nat.le_refl 0, by simp, hc, Nat.le_zero.1 hbound, .refl _ _ _⟩
  | succ bound ih =>
    by_cases hdebt : (w.contents s).debt i ctx.unserved = 0
    · exact ⟨0, Nat.zero_le _, by simp, hc, hdebt, .refl _ _ _⟩
    · obtain ⟨t, hpass, hready, hlt, hbeside⟩ := pass_pays hw hs hu hv hc hdebt
      obtain ⟨n, hn, hprog, hready', hdone, hbeside'⟩ := ih hready (by omega)
      refine ⟨n + 1, by omega, fun k hk => ?_, ?_⟩
      · cases k with
        | zero => exact congrArg Prod.fst hpass
        | succ k =>
          rw [outcome_succ hpass]
          exact hprog k (by omega)
      · rw [after_succ hpass]
        exact ⟨hready', hdone, hbeside.trans hbeside'⟩

theorem after_add (key : Key) (n m : Nat) (s : σ) :
    ctx.after w key (n + m) s = ctx.after w key m (ctx.after w key n s) := by
  induction n generalizing s with
  | zero => rw [Nat.zero_add, after]
  | succ n ih => rw [Nat.add_right_comm, after, after, ih]

theorem outcome_add (key : Key) (n m : Nat) (s : σ) :
    ctx.outcome w key (n + m) s = ctx.outcome w key m (ctx.after w key n s) := by
  rw [outcome, after_add, outcome]

theorem after_next {key : Key} {n : Nat} {r : Except Failure PassOutcome} {t : σ}
    (h : (ctx.pass key).exec w (ctx.after w key n s) = (r, t)) :
    ctx.after w key (n + 1) s = t := by
  rw [after_add, after_succ h, after]

/-- Passes make writes until nothing is left to do for the record, which is then stored with another
status at most. -/
theorem exists_atRest (hw : w.Serves i) (hs : i.spec.toJson.Distinct)
    (hu : i.metadata.uid = some uid) (hv : i.spec.violation? = none)
    (hc : (w.contents s).IsReady i ctx.unserved) :
    ∃ n j, n ≤ (w.contents s).debt i ctx.unserved + 1 ∧
      (∀ k, k < n → ctx.outcome w i.key k s = .ok .progressing) ∧
      (w.contents s).AgreesBeside (w.contents (ctx.after w i.key n s)) i ctx.unserved ∧
      (j = i ∨ ∃ status version managed, j = i.rewritten status version managed) ∧
      (w.contents (ctx.after w i.key n s)).AtRest j ctx.unserved := by
  obtain ⟨n, hn, hprog, hready, hdone, hbeside⟩ := pays_all hw hs hu hv hc (Nat.le_refl _)
  generalize hat : ctx.after w i.key n s = a at hready hdone hbeside
  have hset : ∀ kind, kind ∉ ctx.unserved → (w.contents a).IsSettled i kind := fun kind hk =>
    Instance.settled_of_debt hu (hready.live kind hk) (Contents.debt_eq_zero_iff.1 hdone kind hk)
  by_cases hst : i.status = some ((w.contents a).statusOf i)
  · exact ⟨n, i, by omega, hprog, hat ▸ hbeside, Or.inl rfl, hat ▸ ⟨hready, hset, hst⟩⟩
  · obtain ⟨t, _, version, managed, hpass, hrest, ht⟩ :=
      does_pass_writes_status hw hv hready hset hst
    have hlast : ctx.after w i.key (n + 1) s = t := after_next (hat ▸ hpass.exec)
    refine ⟨n + 1, i.rewritten ((w.contents a).statusOf i) version managed, by omega,
      fun k hk => ?_, ?_, Or.inr ⟨_, version, managed, rfl⟩, ?_⟩
    · by_cases hkn : k < n
      · exact hprog k hkn
      · have hk' : k = n + 0 := by omega
        rw [hk', outcome_add, hat]
        exact congrArg Prod.fst hpass.exec
    · rw [hlast, ht]
      exact hbeside.trans ⟨fun _ _ _ => rfl, fun key hk => if_neg hk, rfl⟩
    · rw [hlast]
      exact hrest

/-- Passes over a record come to rest, from whatever children there are, after at most two for each
kind that is served and one more.  None of them fails.  Afterwards all passes are quiescent and the
store stays as it is: of the kinds that are served there are the children that the record asks for,
without drift, and nothing beside them was touched.  That the spec names nothing twice holds of
every spec that has been read (`Spec.distinct_of_read?`). -/
theorem passes_converge (hw : w.Serves i) (hs : i.spec.toJson.Distinct)
    (hu : i.metadata.uid = some uid) (hv : i.spec.violation? = none)
    (hc : (w.contents s).IsReady i ctx.unserved) :
    ∃ n, n ≤ 2 * (ChildKind.served ctx.unserved).length + 1 ∧
      (∀ k, k < n → ctx.outcome w i.key k s = .ok .progressing) ∧
      (∀ k, n ≤ k → ctx.outcome w i.key k s = .ok .quiescent ∧
        w.contents (ctx.after w i.key k s) = w.contents (ctx.after w i.key n s)) ∧
      (∀ kind, kind ∉ ctx.unserved →
        ((w.contents (ctx.after w i.key n s)).object? kind.kind i.key).isSome =
          kind.isSelected i.spec ∧
        ∀ m, (w.contents (ctx.after w i.key n s)).object? kind.kind i.key = some m →
          ∃ d, i.adopted kind = .ok (some d) ∧ m.needsUpdate d = false) ∧
      (w.contents s).AgreesBeside (w.contents (ctx.after w i.key n s)) i ctx.unserved := by
  obtain ⟨n, j, hn, hprog, hbeside, hj, hrest⟩ := exists_atRest hw hs hu hv hc
  have hbound := (w.contents s).debt_le i ctx.unserved
  refine ⟨n, by omega, hprog, fun k hk => ?_, fun kind hk => ?_, hbeside⟩
  · obtain ⟨m, rfl⟩ := Nat.exists_eq_add_of_le hk
    rw [outcome_add, after_add]
    rcases hj with rfl | ⟨status, version, managed, rfl⟩
    · exact rests hw.toIsSequential hv hrest m
    · exact rests (i := i.rewritten status version managed) hw.toIsSequential hv hrest m
  · rcases hj with rfl | ⟨status, version, managed, rfl⟩
    · exact hrest.child hk
    · exact hrest.child hk

/-- A record in a cluster with a service that has drifted and a config map that is not asked for. -/
theorem passes_converge_stray :
    let record : Instance :=
      ⟨{ name := some "mail", ns := some "dev", uid := some "u1" }, {}, none⟩
    let stray : Manifest := ⟨none, {}, []⟩
    let cluster : Cluster := {
      objects := [(⟨.service, record.key⟩, stray), (⟨.configMap, record.key⟩, stray)]
      records := [(record.key, record)] }
    ∃ n, n ≤ 13 ∧
      Context.outcome {} Cluster.surroundings record.key n cluster = .ok .quiescent ∧
      ((Context.after {} Cluster.surroundings record.key n cluster).object? .deployment
        record.key).isSome = true ∧
      ((Context.after {} Cluster.surroundings record.key n cluster).object? .configMap
        record.key).isSome = false := by
  intro record stray cluster
  have hs : record.spec.toJson.Distinct :=
    Spec.distinct_toJson (fun r hr => by cases hr) (fun a ha => by cases ha)
  have hready : (Cluster.surroundings.contents cluster).IsReady record [] := by
    refine ⟨rfl, ⟨fun m hm => (by cases hm), fun hi => (by cases hi), fun hi => (by cases hi)⟩,
      fun kind _ m hm => ?_⟩
    have hmem := Entries.mem_of_get? hm
    simp only [cluster, List.mem_cons, List.not_mem_nil, or_false, Prod.mk.injEq] at hmem
    rcases hmem with ⟨_, rfl⟩ | ⟨_, rfl⟩ <;> rfl
  obtain ⟨n, hn, _, hrest, hchildren, _⟩ := @passes_converge Cluster Cluster.surroundings record
    cluster {} "u1" (Cluster.surroundings_serves rfl rfl hs) hs rfl rfl hready
  exact ⟨n, hn, (hrest n (Nat.le_refl n)).1, (hchildren .deployment (by simp)).1,
    (hchildren .configMap (by simp)).1⟩

end Context
end MailCapture
