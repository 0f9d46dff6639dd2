import MailCapture.Proofs.Serving
import MailCapture.Proofs.Written
/-!
The number of writes that the children of a record are away from what it asks for.  A pass over a
record makes one of them, so that the number goes down, and touches nothing else.
-/
namespace MailCapture

namespace Instance

/-- The number of writes that the child of a kind is away from what its record asks for: a drifted
one may have to be deleted and created anew. -/
def debt (i : Instance) (kind : ChildKind) (found : Option Manifest) : Nat :=
  match i.adopted kind, found with
  | .ok (some _), none => 1
  | .ok (some d), some m => if m.needsUpdate d then 2 else 0
  | .ok none, some _ => 1
  | _, _ => 0

theorem debt_le (i : Instance) (kind : ChildKind) (found : Option Manifest) :
    i.debt kind found ≤ 2 := by
  unfold debt
  split
  · omega
  · split <;> omega
  · omega
  · omega

variable {σ : Type} {w : Surroundings σ} {i : Instance} {s : σ} {unserved : List ChildKind}
  {kind : ChildKind} {uid : String}

theorem settled_of_debt (hu : i.metadata.uid = some uid) {c : Contents}
    (hlive : ∀ m, c.object? kind.kind i.key = some m → m.isTerminating = false)
    (h : i.debt kind (c.object? kind.kind i.key) = 0) : c.IsSettled i kind := by
  obtain ⟨desired, hd, hsel⟩ := exists_adopted hu kind
  unfold debt at h
  rw [hd] at h
  cases ho : c.object? kind.kind i.key with
  | none =>
    cases desired with
    | some d => simp [ho] at h
    | none =>
      rw [Contents.isSettled_unselected hsel.symm, ho]
      simp
  | some m =>
    cases desired with
    | none => simp [ho] at h
    | some d =>
      rw [Contents.isSettled_selected hsel.symm]
      exact ⟨m, d, ho, hd, hlive m ho, by simpa [ho] using h⟩

theorem debt_of_stored (hs : i.spec.toJson.Distinct) {d stored : Manifest}
    (hd : i.adopted kind = .ok (some d)) (h : d.stamp.StoredAs stored) :
    i.debt kind (some stored) = 0 := by
  unfold debt
  rw [hd]
  exact if_neg (by simp [Manifest.needsUpdate_of_storedAs h (distinct_adopted hs hd)])

end Instance

/-- Whether contents follow on others by one write of a child, after which fewer are left. -/
structure Contents.Pays (c c' : Contents) (i : Instance) (kind : ChildKind)
    (found : Option Manifest) : Prop where
  written : c' = c.withObject kind.kind i.key found
  debt : i.debt kind found < i.debt kind (c.object? kind.kind i.key)
  live : ∀ m, found = some m → m.isTerminating = false
  decodes : ∀ m, found = some m → m.Decodes kind

namespace Instance
variable {σ : Type} {w : Surroundings σ} {i : Instance} {s : σ} {unserved : List ChildKind}
  {kind : ChildKind} {uid : String}

/-- The report of a write changes nothing that is stored. -/
theorem does_report (hw : w.IsSequential) (verb : Verb) (reason : String) (outcome : SyncOutcome)
    (t : σ) : ∃ u, w.contents u = w.contents t ∧
      (do i.report kind verb reason; return outcome : Action SyncOutcome).Does w t [] outcome u :=
  ⟨_, (hw.emit _ _).trans (hw.emit _ _), rfl, rfl⟩

theorem does_createChild (hw : w.Serves i) {d : Manifest} (hd : i.adopted kind = .ok (some d))
    (ho : (w.contents s).object? kind.kind i.key = none) :
    ∃ t answer stored, (i.createChild kind d).Does w s
        [⟨.call (.create kind.kind d.stamp), .ok answer⟩] .created t ∧
      d.stamp.StoredAs stored ∧ stored.Decodes kind ∧
      w.contents t = (w.contents s).withObject kind.kind i.key (some stored) := by
  obtain ⟨answer, u, stored, hr, hst, hdec, hc⟩ := hw.create s kind d hd ho
  obtain ⟨t, ht, hreport⟩ := i.does_report hw.toIsSequential .create "ChildCreated" .created u
  exact ⟨t, answer, stored, (Action.does_attempt hr rfl).bind hreport, hst, hdec, ht.trans hc⟩

/-- A wanted child that is missing is created. -/
theorem does_syncChild_creates (hw : w.Serves i) (hk : kind ∉ unserved) {d : Manifest}
    (hd : i.adopted kind = .ok (some d)) (hnone : (w.contents s).object? kind.kind i.key = none) :
    ∃ t answer stored, (i.syncChild unserved kind).Does w s
        [⟨.call (.create kind.kind d.stamp), .ok answer⟩] .created t ∧
      d.stamp.StoredAs stored ∧ stored.Decodes kind ∧
      w.contents t = (w.contents s).withObject kind.kind i.key (some stored) := by
  have hkept := (hw.get kind.kind i.key s).2
  obtain ⟨t, answer, stored, hcreate, hst, hdec, hc⟩ :=
    does_createChild hw hd (by rw [hkept]; exact hnone)
  refine ⟨t, answer, stored, ?_, hst, hdec, by rw [hc, hkept]⟩
  refine does_syncChild hw.toIsSequential hk hd ?_
  rw [hnone]
  exact hcreate

/-- Of kinds the first that is wanted and missing is created, given that those before it are
settled. -/
theorem does_syncChildren_creates (hw : w.Serves i) (hk : kind ∉ unserved) {d : Manifest}
    (hd : i.adopted kind = .ok (some d)) (hnone : (w.contents s).object? kind.kind i.key = none)
    {before : List ChildKind} (after : List ChildKind)
    (hbefore : ∀ k ∈ before, k ∈ unserved ∨ (w.contents s).IsSettled i k) :
    ∃ t answer stored, (i.syncChildren unserved (before ++ kind :: after)).Does w s
        [⟨.call (.create kind.kind d.stamp), .ok answer⟩] true t ∧
      d.stamp.StoredAs stored ∧ stored.Decodes kind ∧
      w.contents t = (w.contents s).withObject kind.kind i.key (some stored) := by
  induction before generalizing s with
  | nil =>
    obtain ⟨t, answer, stored, hstep, hrest⟩ := does_syncChild_creates hw hk hd hnone
    exact ⟨t, answer, stored, hstep.bind (Action.does_pure _ w t), hrest⟩
  | cons first rest ih =>
    obtain ⟨u, hu, hfirst⟩ := does_syncChild_settled hw.toIsSequential
      (hbefore first List.mem_cons_self)
    rw [← hu] at hbefore hnone ⊢
    obtain ⟨t, answer, stored, hmore, hst⟩ :=
      ih hnone fun k hk => hbefore k (List.mem_cons_of_mem _ hk)
    exact ⟨t, answer, stored, hfirst.bind hmore, hst⟩

theorem createChild_pays (hw : w.Serves i) (hs : i.spec.toJson.Distinct) {d : Manifest}
    (hd : i.adopted kind = .ok (some d)) (ho : (w.contents s).object? kind.kind i.key = none) :
    ∃ t found, (i.createChild kind d).exec w s = (.ok .created, t) ∧
      (w.contents s).Pays (w.contents t) i kind found := by
  obtain ⟨t, _, stored, hcreate, hst, hdec, hc⟩ := does_createChild hw hd ho
  have hbefore : i.debt kind none = 1 := by
    unfold debt
    rw [hd]
  refine ⟨t, some stored, hcreate.exec, hc, ?_, fun m hm => ?_, fun m hm => ?_⟩
  · rw [ho, debt_of_stored hs hd hst, hbefore]
    omega
  · cases hm
    exact hst.live
  · cases hm
    exact hdec

/-- A drifted child is replaced, or deleted to be created anew. -/
theorem updateChild_pays (hw : w.Serves i) (hs : i.spec.toJson.Distinct) {d o : Manifest}
    (hd : i.adopted kind = .ok (some d)) (ho : (w.contents s).object? kind.kind i.key = some o)
    (hn : o.needsUpdate d = true) :
    ∃ outcome t found, (i.updateChild kind (d.replacementFor o)).exec w s = (.ok outcome, t) ∧
      outcome.endsPass = true ∧ (w.contents s).Pays (w.contents t) i kind found := by
  have hbefore : i.debt kind (some o) = 2 := by
    unfold debt
    rw [hd]
    exact if_pos hn
  cases hw.replace s kind d o hd ho with
  | inl hstores =>
    obtain ⟨answer, u, stored, hr, hst, hdec, hc⟩ := hstores
    obtain ⟨t, ht, hreport⟩ := i.does_report hw.toIsSequential .update "ChildUpdated" .updated u
    refine ⟨.updated, t, some stored, ((Action.does_attempt hr rfl).bind hreport).exec, rfl, ?_⟩
    refine ⟨ht.trans hc, ?_, fun m hm => ?_, fun m hm => ?_⟩
    · rw [ho, debt_of_stored hs hd hst.of_replacementFor, hbefore]
      omega
    · cases hm
      exact hst.live
    · cases hm
      exact hdec
  | inr hinvalid =>
    obtain ⟨why, hr⟩ := hinvalid
    have hkept := hw.failed _ _ _ hr
    obtain ⟨u, hdel, hc⟩ := hw.remove _ kind o (by rw [hkept]; exact ho)
    obtain ⟨t, ht, hreport⟩ :=
      i.does_report hw.toIsSequential .delete "ChildRecreating" .recreated u
    refine ⟨.recreated, t, none, ?_, rfl, ?_⟩
    · exact ((Action.does_attempt (Prod.ext hr rfl) rfl).bind
        ((Action.does_attempt hdel rfl).bind hreport)).exec
    · have hafter : i.debt kind none = 1 := by
        unfold debt
        rw [hd]
      refine ⟨ht.trans (hc.trans (by rw [hkept])), ?_, by simp, by simp⟩
      rw [ho, hbefore, hafter]
      omega

theorem deleteChild_pays (hw : w.Serves i) {o : Manifest} (hd : i.adopted kind = .ok none)
    (ho : (w.contents s).object? kind.kind i.key = some o) :
    ∃ t found, (i.deleteChild kind).exec w s = (.ok .deleted, t) ∧
      (w.contents s).Pays (w.contents t) i kind found := by
  obtain ⟨u, hdel, hc⟩ := hw.remove s kind o ho
  obtain ⟨t, ht, hreport⟩ := i.does_report hw.toIsSequential .delete "ChildDeleted" .deleted u
  refine ⟨t, none, ((Action.does_attempt hdel rfl).bind hreport).exec, ht.trans hc, ?_, by simp,
    by simp⟩
  have hbefore : i.debt kind (some o) = 1 := by
    unfold debt
    rw [hd]
  have hafter : i.debt kind none = 0 := by
    unfold debt
    rw [hd]
  rw [ho, hbefore, hafter]
  omega

/-- A step over a child that is not as it should be makes a write that is missing. -/
theorem syncChild_pays (hw : w.Serves i) (hs : i.spec.toJson.Distinct)
    (hu : i.metadata.uid = some uid) (hk : kind ∉ unserved)
    (hlive : ∀ m, (w.contents s).object? kind.kind i.key = some m → m.isTerminating = false)
    (hdebt : i.debt kind ((w.contents s).object? kind.kind i.key) ≠ 0) :
    ∃ outcome t found, (i.syncChild unserved kind).exec w s = (.ok outcome, t) ∧
      outcome.endsPass = true ∧ (w.contents s).Pays (w.contents t) i kind found := by
  obtain ⟨desired, hd, _⟩ := exists_adopted hu kind
  obtain ⟨u, hkept, he⟩ := exec_syncChild hw.toIsSequential (s := s) hk hd
  rw [he]
  rw [← hkept] at hlive hdebt ⊢
  generalize ho : (w.contents u).object? kind.kind i.key = observed at hlive hdebt ⊢
  have hc := classify_describes observed desired
  cases hclass : classify observed desired with
  | inSync =>
    rw [hclass] at hc
    obtain ⟨m, d, rfl, rfl, _, hn⟩ := hc
    exact absurd (by simp [debt, hd, hn]) hdebt
  | notSelected =>
    rw [hclass] at hc
    obtain ⟨rfl, rfl⟩ := hc
    exact absurd (by simp [debt, hd]) hdebt
  | terminating selected =>
    rw [hclass] at hc
    obtain ⟨m, rfl, hgoing, _⟩ := hc
    rw [hlive m rfl] at hgoing
    cases hgoing
  | absent d =>
    rw [hclass] at hc
    obtain ⟨rfl, rfl⟩ := hc
    obtain ⟨t, found, hexec, hpays⟩ := createChild_pays hw hs hd ho
    exact ⟨_, t, found, hexec, rfl, hpays⟩
  | stale replacement =>
    rw [hclass] at hc
    obtain ⟨o, d, rfl, rfl, _, hn, rfl⟩ := hc
    exact updateChild_pays hw hs hd ho hn
  | shouldNotExist =>
    rw [hclass] at hc
    obtain ⟨o, rfl, rfl, _⟩ := hc
    obtain ⟨t, found, hexec, hpays⟩ := deleteChild_pays hw hd ho
    exact ⟨_, t, found, hexec, rfl, hpays⟩

end Instance

/-! ### All kinds -/

namespace ChildKind

def served (unserved : List ChildKind) : List ChildKind :=
  all.filter (fun kind => !unserved.contains kind)

theorem mem_served {unserved : List ChildKind} {kind : ChildKind} :
    kind ∈ served unserved ↔ kind ∉ unserved := by
  simp [served, mem_all]

end ChildKind

def total {α : Type} (f : α → Nat) : List α → Nat
  | [] => 0
  | a :: rest => f a + total f rest

section
variable {α : Type} {f g : α → Nat} {items : List α}

theorem total_le {bound : Nat} (h : ∀ a ∈ items, f a ≤ bound) :
    total f items ≤ bound * items.length := by
  induction items with
  | nil => exact Nat.zero_le _
  | cons a rest ih =>
    rw [List.forall_mem_cons] at h
    rw [total, List.length_cons, Nat.mul_succ, Nat.add_comm]
    exact Nat.add_le_add (ih h.2) h.1

theorem total_mono (h : ∀ a ∈ items, f a ≤ g a) : total f items ≤ total g items := by
  induction items with
  | nil => exact Nat.le_refl _
  | cons a rest ih =>
    rw [List.forall_mem_cons] at h
    exact Nat.add_le_add h.1 (ih h.2)

theorem total_lt (h : ∀ a ∈ items, f a ≤ g a) {a : α} (ha : a ∈ items) (hlt : f a < g a) :
    total f items < total g items := by
  induction items with
  | nil => cases ha
  | cons b rest ih =>
    rw [List.forall_mem_cons] at h
    cases List.mem_cons.1 ha with
    | inl hhead =>
      subst hhead
      exact Nat.add_lt_add_of_lt_of_le hlt (total_mono h.2)
    | inr htail => exact Nat.add_lt_add_of_le_of_lt h.1 (ih h.2 htail)

theorem total_eq_zero_iff : total f items = 0 ↔ ∀ a ∈ items, f a = 0 := by
  induction items with
  | nil => simp [total]
  | cons a rest ih => rw [total, Nat.add_eq_zero_iff, ih, List.forall_mem_cons]

end

namespace Contents
variable {c c' : Contents} {i : Instance} {kind : ChildKind} {found : Option Manifest}
  {unserved : List ChildKind}

def debt (c : Contents) (i : Instance) (unserved : List ChildKind) : Nat :=
  total (fun kind => i.debt kind (c.object? kind.kind i.key)) (ChildKind.served unserved)

theorem debt_le (c : Contents) (i : Instance) (unserved : List ChildKind) :
    c.debt i unserved ≤ 2 * (ChildKind.served unserved).length :=
  total_le fun kind _ => i.debt_le kind _

theorem debt_eq_zero_iff : c.debt i unserved = 0 ↔
    ∀ kind, kind ∉ unserved → i.debt kind (c.object? kind.kind i.key) = 0 := by
  unfold debt
  rw [total_eq_zero_iff]
  exact forall_congr' fun kind => imp_congr ChildKind.mem_served Iff.rfl

theorem Pays.object? (h : c.Pays c' i kind found) (k : ChildKind) :
    c'.object? k.kind i.key = if k = kind then found else c.object? k.kind i.key := by
  rw [h.written, object?_withObject_child]

/-- A write that is missing is made, and no other one is needed for it. -/
theorem Pays.debt_lt (h : c.Pays c' i kind found) (hk : kind ∉ unserved) :
    c'.debt i unserved < c.debt i unserved := by
  refine total_lt (fun k _ => ?_) (ChildKind.mem_served.2 hk) ?_
  · rw [h.object?]
    by_cases he : k = kind
    · subst he
      rw [if_pos rfl]
      exact Nat.le_of_lt h.debt
    · exact Nat.le_of_eq (congrArg (i.debt k) (if_neg he))
  · rw [h.object?, if_pos rfl]
    exact h.debt

/-- Whether a record is stored as it was read, its children can be read, and none of those that are
served is on its way out. -/
structure IsReady (c : Contents) (i : Instance) (unserved : List ChildKind) : Prop where
  record : c.record? i.key = some i
  decodes : c.Decodes i
  live : ∀ kind, kind ∉ unserved → ∀ m, c.object? kind.kind i.key = some m →
    m.isTerminating = false

/-- A child that can be read and is not on its way out may be stored or deleted. -/
theorem IsReady.withObject (h : c.IsReady i unserved)
    (hlive : ∀ m, found = some m → m.isTerminating = false)
    (hdec : ∀ m, found = some m → m.Decodes kind) :
    (c.withObject kind.kind i.key found).IsReady i unserved where
  record := h.record
  decodes := by
    refine ⟨h.decodes.pods, fun hi m hm => ?_, fun hi m hm => ?_⟩
    · have hroute := (c.object?_withObject_child kind .route i.key found).symm.trans hm
      by_cases hk : .route = kind
      · subst hk
        rw [if_pos rfl] at hroute
        exact hdec m hroute
      · rw [if_neg hk] at hroute
        exact h.decodes.route hi m hroute
    · have hingress := (c.object?_withObject_child kind .ingress i.key found).symm.trans hm
      by_cases hk : .ingress = kind
      · subst hk
        rw [if_pos rfl] at hingress
        exact hdec m hingress
      · rw [if_neg hk] at hingress
        exact h.decodes.ingress hi m hingress
  live k hk m hm := by
    rw [object?_withObject_child] at hm
    by_cases he : k = kind
    · rw [if_pos he] at hm
      exact hlive m hm
    · rw [if_neg he] at hm
      exact h.live k hk m hm

/-- A write leaves everything ready for the next one. -/
theorem Pays.isReady (h : c.Pays c' i kind found) (hc : c.IsReady i unserved) :
    c'.IsReady i unserved := h.written ▸ hc.withObject h.live h.decodes

/-- Whether contents differ at most in a record and in its children of the kinds that are served. -/
structure AgreesBeside (c c' : Contents) (i : Instance) (unserved : List ChildKind) : Prop where
  objects : ∀ kind key, (∀ child, child ∉ unserved → child.kind = kind → key ≠ i.key) →
    c'.object? kind key = c.object? kind key
  records : ∀ key, key ≠ i.key → c'.record? key = c.record? key
  pods : c'.pods = c.pods

theorem AgreesBeside.refl (c : Contents) (i : Instance) (unserved : List ChildKind) :
    c.AgreesBeside c i unserved := ⟨fun _ _ _ => rfl, fun _ _ => rfl, rfl⟩

theorem AgreesBeside.trans {c'' : Contents} (h : c.AgreesBeside c' i unserved)
    (h' : c'.AgreesBeside c'' i unserved) : c.AgreesBeside c'' i unserved where
  objects kind key hk := (h'.objects kind key hk).trans (h.objects kind key hk)
  records key hk := (h'.records key hk).trans (h.records key hk)
  pods := h'.pods.trans h.pods

theorem Pays.agreesBeside (h : c.Pays c' i kind found) (hk : kind ∉ unserved) :
    c.AgreesBeside c' i unserved where
  objects k key hbeside := by
    rw [h.written, object?_withObject_of_ne]
    exact fun he => hbeside kind hk he.symm
  records key _ := by rw [h.written]; rfl
  pods := by rw [h.written]; rfl

end Contents

/-! ### Steps in a row -/

namespace Instance
variable {σ : Type} {w : Surroundings σ} {i : Instance} {s : σ} {unserved : List ChildKind}
  {uid : String}

/-- Of kinds of which one is not as it should be, the first such one gets its write. -/
theorem syncChildren_pays (hw : w.Serves i) (hs : i.spec.toJson.Distinct)
    (hu : i.metadata.uid = some uid) (hc : (w.contents s).IsReady i unserved)
    {kinds : List ChildKind} (hdebt : ∃ kind ∈ kinds, kind ∉ unserved ∧
      i.debt kind ((w.contents s).object? kind.kind i.key) ≠ 0) :
    ∃ kind t found, kind ∉ unserved ∧
      (i.syncChildren unserved kinds).exec w s = (.ok true, t) ∧
      (w.contents s).Pays (w.contents t) i kind found := by
  induction kinds generalizing s with
  | nil => simp at hdebt
  | cons kind rest ih =>
    by_cases hhead : kind ∉ unserved ∧
        i.debt kind ((w.contents s).object? kind.kind i.key) ≠ 0
    · obtain ⟨outcome, t, found, he, hends, hpays⟩ :=
        syncChild_pays hw hs hu hhead.1 (hc.live kind hhead.1) hhead.2
      refine ⟨kind, t, found, hhead.1, (Action.exec_bind_ok he).trans ?_, hpays⟩
      rw [if_pos hends]
      rfl
    · have hset : kind ∈ unserved ∨ (w.contents s).IsSettled i kind := by
        by_cases hk : kind ∈ unserved
        · exact Or.inl hk
        · refine Or.inr (settled_of_debt hu (hc.live kind hk) ?_)
          exact Decidable.byContradiction fun hne => hhead ⟨hk, hne⟩
      obtain ⟨t, ht, hfirst⟩ := does_syncChild_settled hw.toIsSequential hset
      rw [← ht] at hc hdebt hhead ⊢
      obtain ⟨k, hk, hrest⟩ := hdebt
      have htail : k ∈ rest := by
        cases List.mem_cons.1 hk with
        | inl hself => exact absurd (hself ▸ hrest) hhead
        | inr htail => exact htail
      obtain ⟨k', u, found, hserved, he', hpays⟩ := ih hc ⟨k, htail, hrest⟩
      exact ⟨k', u, found, hserved, (Action.exec_bind_ok hfirst.exec).trans he', hpays⟩

end Instance

end MailCapture
