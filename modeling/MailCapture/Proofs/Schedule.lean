import MailCapture.Proofs.Convergence
/-!
The schedule of a cold start.  In a cluster without children each pass creates one of them, in the
order of synchronization, then one pass writes the status, and from then on nothing is written.
-/
namespace MailCapture

/-! ### Passes -/

/-- Whether of the children of a record that are served these are there and in line, and no others
are there, while the record is stored as it was read. -/
structure Contents.HasMade (c : Contents) (i : Instance) (unserved made : List ChildKind) : Prop
    extends c.IsReady i unserved where
  settled : ∀ kind ∈ made, c.IsSettled i kind
  missing : ∀ kind, kind ∉ unserved → kind ∉ made → c.object? kind.kind i.key = none

def Instance.schedule (i : Instance) (unserved : List ChildKind) : List ChildKind :=
  i.spec.selected.filter (fun kind => !unserved.contains kind)

theorem Instance.mem_schedule {i : Instance} {unserved : List ChildKind} {kind : ChildKind} :
    kind ∈ i.schedule unserved ↔ kind.isSelected i.spec = true ∧ kind ∉ unserved := by
  simp [Instance.schedule, Spec.mem_selected]

theorem Instance.nodup_schedule (i : Instance) (unserved : List ChildKind) :
    (i.schedule unserved).Nodup :=
  (by decide : ChildKind.all.Nodup).sublist (List.filter_sublist.trans List.filter_sublist)

/-- Of the kinds before one of a choice, those of the choice come before it there, too. -/
theorem ChildKind.exists_split {p : ChildKind → Bool} {made rest : List ChildKind}
    {kind : ChildKind} (h : all.filter p = made ++ kind :: rest) :
    ∃ before after, all = before ++ kind :: after ∧ ∀ k ∈ before, p k = true → k ∈ made := by
  obtain ⟨first, last, hall, hfirst, hlast⟩ := List.filter_eq_append_iff.1 h
  obtain ⟨gap, after, rfl, hgap, _, _⟩ := List.filter_eq_cons_iff.1 hlast
  refine ⟨first ++ gap, after, by rw [hall, List.append_assoc], fun k hk hp => ?_⟩
  cases List.mem_append.1 hk with
  | inl hk => exact hfirst ▸ List.mem_filter.2 ⟨hk, hp⟩
  | inr hk => exact absurd hp (hgap k hk)

namespace Contents
variable {c : Contents} {i : Instance} {unserved made rest : List ChildKind} {kind : ChildKind}

theorem isSettled_congr {c' : Contents}
    (h : c'.object? kind.kind i.key = c.object? kind.kind i.key) :
    c'.IsSettled i kind ↔ c.IsSettled i kind := by
  unfold IsSettled
  rw [h]

/-- What is not asked for and not there is settled. -/
theorem HasMade.settled_of (h : c.HasMade i unserved made) (hk : kind ∉ unserved)
    (hmade : kind ∈ i.schedule unserved → kind ∈ made) : c.IsSettled i kind := by
  by_cases hin : kind ∈ made
  · exact h.settled kind hin
  · have hsel : kind.isSelected i.spec = false := by
      rw [← Bool.not_eq_true]
      exact fun hsel => hin (hmade (Instance.mem_schedule.2 ⟨hsel, hk⟩))
    rw [isSettled_unselected hsel, h.missing kind hk hin]
    simp

/-- The next kind of the schedule comes after kinds that are settled. -/
theorem HasMade.exists_split (h : c.HasMade i unserved made)
    (hnext : i.schedule unserved = made ++ kind :: rest) :
    ∃ before after, ChildKind.all = before ++ kind :: after ∧
      ∀ k ∈ before, k ∈ unserved ∨ c.IsSettled i k := by
  rw [Instance.schedule, Spec.selected, List.filter_filter] at hnext
  obtain ⟨before, after, hall, hbefore⟩ := ChildKind.exists_split hnext
  refine ⟨before, after, hall, fun k hk => ?_⟩
  by_cases hserved : k ∈ unserved
  · exact Or.inl hserved
  · refine Or.inr (h.settled_of hserved fun hmem => hbefore k hk ?_)
    simp [(Instance.mem_schedule.1 hmem).1, hserved]

/-- A child that is stored as it was wanted is one more that is made. -/
theorem HasMade.withObject (h : c.HasMade i unserved made) (hs : i.spec.toJson.Distinct)
    {d stored : Manifest} (hd : i.adopted kind = .ok (some d)) (hst : d.stamp.StoredAs stored)
    (hdec : stored.Decodes kind) :
    (c.withObject kind.kind i.key (some stored)).HasMade i unserved (made ++ [kind]) where
  toIsReady := by
    refine h.toIsReady.withObject (fun m hm => ?_) fun m hm => ?_
    · exact Option.some.inj hm ▸ hst.live
    · exact Option.some.inj hm ▸ hdec
  settled k hk := by
    by_cases he : k = kind
    · subst he
      refine (isSettled_selected (Instance.isSelected_of_adopted hd).symm).2 ⟨stored, d, ?_, hd,
        hst.live, Manifest.needsUpdate_of_storedAs hst (Instance.distinct_adopted hs hd)⟩
      rw [object?_withObject_self]
    · have hkept := c.object?_withObject_child kind k i.key (some stored)
      rw [if_neg he] at hkept
      rw [isSettled_congr hkept]
      refine h.settled k ?_
      simpa [he] using hk
  missing k hk hmade := by
    rw [List.mem_append, List.mem_singleton, not_or] at hmade
    rw [object?_withObject_child, if_neg hmade.2]
    exact h.missing k hk hmade.1

end Contents

namespace Context
variable {σ : Type} {w : Surroundings σ} {i : Instance} {s : σ} {ctx : Context} {uid : String}

/-- A pass creates the next child of the schedule. -/
theorem does_pass_creates (hw : w.Serves i) (hs : i.spec.toJson.Distinct)
    (hu : i.metadata.uid = some uid) (hv : i.spec.violation? = none) {made rest : List ChildKind}
    {kind : ChildKind} (hc : (w.contents s).HasMade i ctx.unserved made)
    (hnext : i.schedule ctx.unserved = made ++ kind :: rest) :
    ∃ d answer t, i.adopted kind = .ok (some d) ∧
      (ctx.pass i.key).Does w s [⟨.call (.create kind.kind d.stamp), .ok answer⟩] .progressing t ∧
      (w.contents t).HasMade i ctx.unserved (made ++ [kind]) := by
  have hmem : kind ∈ i.schedule ctx.unserved := by simp [hnext]
  obtain ⟨hsel, hk⟩ := Instance.mem_schedule.1 hmem
  have hfresh : kind ∉ made := by
    have hnodup := i.nodup_schedule ctx.unserved
    rw [hnext, List.nodup_append] at hnodup
    exact fun hin => hnodup.2.2 kind hin kind List.mem_cons_self rfl
  obtain ⟨desired, hd, hsome⟩ := Instance.exists_adopted hu kind
  rw [hsel] at hsome
  obtain ⟨d, rfl⟩ := Option.isSome_iff_exists.1 hsome
  have hread := hw.getInstance i.key s
  obtain ⟨before, after, hall, hbefore⟩ := hc.exists_split hnext
  have hnone := hc.missing kind hk hfresh
  have hrecord := hc.record
  rw [← hread.2] at hc hbefore hnone
  obtain ⟨t, answer, stored, hdoes, hst, hdec, ht⟩ :=
    Instance.does_syncChildren_creates hw hk hd hnone after hbefore
  rw [← hall] at hdoes
  refine ⟨d, answer, t, hd, ?_, ?_⟩
  · refine does_pass hw.toIsSequential hrecord ?_
    rw [Instance.pass, hv]
    exact hdoes.bind (Action.does_pure _ w t)
  · rw [ht]
    exact hc.withObject hs hd hst hdec

/-! ### Passes in a row -/

/-- As many children are made as there were passes, up to the last of the schedule. -/
theorem hasMade_after (hw : w.Serves i) (hs : i.spec.toJson.Distinct)
    (hu : i.metadata.uid = some uid) (hv : i.spec.violation? = none)
    (hc : (w.contents s).HasMade i ctx.unserved []) {n : Nat}
    (hn : n ≤ (i.schedule ctx.unserved).length) :
    (w.contents (ctx.after w i.key n s)).HasMade i ctx.unserved
      ((i.schedule ctx.unserved).take n) := by
  induction n with
  | zero => exact hc
  | succ n ih =>
    have hnext : i.schedule ctx.unserved = (i.schedule ctx.unserved).take n ++
        (i.schedule ctx.unserved)[n] :: (i.schedule ctx.unserved).drop (n + 1) := by
      rw [← List.drop_eq_getElem_cons hn, List.take_append_drop]
    obtain ⟨d, answer, t, hd, hdoes, hmade⟩ :=
      does_pass_creates hw hs hu hv (ih (Nat.le_of_lt hn)) hnext
    rw [← after_next hdoes.exec] at hmade
    rw [List.take_succ_eq_append_getElem hn]
    exact hmade

/-- The schedule of a cold start.  The record is stored without a status and none of its children
is there.  Then each pass up to the number of kinds that are asked for and served creates the child
of the next one and does not write otherwise; one more pass writes the status and nothing else; and
all later passes are quiescent, write nothing and leave the store as it is. -/
theorem passes_from_cold (hw : w.Serves i) (hs : i.spec.toJson.Distinct)
    (hu : i.metadata.uid = some uid) (hv : i.spec.violation? = none) (hstatus : i.status = none)
    (hr : (w.contents s).record? i.key = some i) (hd : (w.contents s).Decodes i)
    (hbare : ∀ kind, kind ∉ ctx.unserved → (w.contents s).object? kind.kind i.key = none) :
    let kinds := i.schedule ctx.unserved
    let state := fun n => ctx.after w i.key n s
    (∀ n (hn : n < kinds.length), ∃ d answer, i.adopted kinds[n] = .ok (some d) ∧
      (ctx.pass i.key).Does w (state n) [⟨.call (.create kinds[n].kind d.stamp), .ok answer⟩]
        .progressing (state (n + 1))) ∧
    (∃ answer, (ctx.pass i.key).Does w (state kinds.length)
      [⟨.call (.replaceStatus
        { i with status := some ((w.contents (state kinds.length)).statusOf i) }), .ok answer⟩]
        .progressing (state (kinds.length + 1))) ∧
    ∀ n, kinds.length < n → (ctx.pass i.key).Does w (state n) [] .quiescent (state (n + 1)) ∧
      w.contents (state n) = w.contents (state (kinds.length + 1)) := by
  intro kinds state
  have hcold : (w.contents s).HasMade i ctx.unserved [] := by
    refine ⟨⟨hr, hd, fun kind hk m hm => ?_⟩, by simp, fun kind hk _ => hbare kind hk⟩
    rw [hbare kind hk] at hm
    cases hm
  have hmade {n : Nat} (hn : n ≤ kinds.length) := hasMade_after hw hs hu hv hcold hn
  have hlast := hmade (Nat.le_refl kinds.length)
  rw [List.take_length] at hlast
  have hset : ∀ kind, kind ∉ ctx.unserved →
      (w.contents (state kinds.length)).IsSettled i kind :=
    fun kind hk => hlast.settled_of hk id
  obtain ⟨t, answer, version, managed, hdoes, hrest, _⟩ :=
    does_pass_writes_status hw hv hlast.toIsReady hset (by simp [hstatus])
  cases after_next hdoes.exec
  let j := i.rewritten ((w.contents (state kinds.length)).statusOf i) version managed
  refine ⟨fun n hn => ?_, ⟨answer, hdoes⟩, fun n hn => ?_⟩
  · have hnext : kinds = kinds.take n ++ kinds[n] :: kinds.drop (n + 1) := by
      rw [← List.drop_eq_getElem_cons hn, List.take_append_drop]
    obtain ⟨d, answer, t, had, hcreate, _⟩ :=
      does_pass_creates hw hs hu hv (hmade (Nat.le_of_lt hn)) hnext
    cases after_next hcreate.exec
    exact ⟨d, answer, had, hcreate⟩
  · obtain ⟨m, rfl⟩ := Nat.exists_eq_add_of_le hn
    have hkept : w.contents (state (kinds.length + 1 + m)) =
        w.contents (state (kinds.length + 1)) := by
      have hrests := rests (i := j) hw.toIsSequential hv hrest m
      simp only [state]
      rw [after_add]
      exact hrests.2
    rw [← hkept] at hrest
    obtain ⟨t, _, hquiet⟩ := does_pass_atRest (i := j) hw.toIsSequential hv hrest
    cases after_next hquiet.exec
    exact ⟨hquiet, hkept⟩

/-- A record without settings in an empty cluster: the deployment, the service, the status, and
then nothing. -/
theorem passes_from_cold_default :
    let record : Instance :=
      ⟨{ name := some "mh", ns := some "mail", uid := some "u1" }, {}, none⟩
    let cluster : Cluster := { records := [(record.key, record)] }
    let pass := Context.pass {} record.key
    let state := fun n => Context.after {} Cluster.surroundings record.key n cluster
    record.schedule [] = [.deployment, .service] ∧
      (∃ d answer, record.adopted .deployment = .ok (some d) ∧
        pass.Does Cluster.surroundings cluster
          [⟨.call (.create .deployment d.stamp), .ok answer⟩] .progressing (state 1)) ∧
      (∃ d answer, record.adopted .service = .ok (some d) ∧
        pass.Does Cluster.surroundings (state 1)
          [⟨.call (.create .service d.stamp), .ok answer⟩] .progressing (state 2)) ∧
      ∀ n, 2 < n → pass.Does Cluster.surroundings (state n) [] .quiescent (state (n + 1)) := by
  intro record cluster pass state
  have hs : record.spec.toJson.Distinct :=
    Spec.distinct_toJson (fun r hr => by cases hr) (fun a ha => by cases ha)
  have hschedule : record.schedule [] = [.deployment, .service] := by decide
  have hdecodes : (Cluster.surroundings.contents cluster).Decodes record :=
    ⟨fun m hm => (by cases hm), fun hi => (by cases hi), fun hi => (by cases hi)⟩
  obtain ⟨hcreates, _, hquiet⟩ := @passes_from_cold Cluster Cluster.surroundings record cluster {}
    "u1" (Cluster.surroundings_serves rfl rfl hs) hs rfl rfl rfl rfl hdecodes fun _ _ => rfl
  exact ⟨hschedule, hcreates 0 (by decide), hcreates 1 (by decide), fun n hn => (hquiet n hn).1⟩

end Context
end MailCapture
