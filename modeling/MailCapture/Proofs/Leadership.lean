import MailCapture.Proofs.Race
/-!
At most one candidate leads: whoever writes the lease does so when the lease of every other
candidate that has not given up its own is over.

The invariant ties the latest write of each candidate to the stored lease: it is what is stored, or
it is over.  A program that goes on from a lease it read long ago does no harm, because its write is
based on the version of that lease and a version stands for one lease only.
-/
namespace MailCapture
variable {ι : Type}

/-! ### Leases that were read -/

/-- Whether a lease was read from the server: its version was given, and as long as that version is
stored the lease is. -/
def LeaseWorld.HasShown (s : LeaseWorld) (lease : Lease) : Prop :=
  ∃ version ∈ s.versions, lease.metadata.resourceVersion = some version ∧
    ∀ l, s.stored = some l → l.metadata.resourceVersion = some version → l = lease

def LeaseWorld.IsVersioned (s : LeaseWorld) : Prop :=
  ∀ l, s.stored = some l → ∃ version ∈ s.versions, l.metadata.resourceVersion = some version

inductive LeaseWorld.GoesOn (s : LeaseWorld) : LeaseWorld → Prop
  | wait (now : Int) (hnow : s.now ≤ now) : GoesOn s { s with now := now }
  | store (written : Lease) (t : LeaseWorld) (h : s.Stores written t) : GoesOn s t

namespace LeaseWorld
variable {s t : LeaseWorld}

theorem GoesOn.refl (s : LeaseWorld) : s.GoesOn s := .wait s.now (Int.le_refl _)

theorem GoesOn.now_le (h : s.GoesOn t) : s.now ≤ t.now := by
  cases h with
  | wait now hnow => exact hnow
  | store written t h =>
    cases h
    exact Int.le_refl _

theorem IsVersioned.goesOn (hv : s.IsVersioned) (h : s.GoesOn t) : t.IsVersioned := by
  cases h with
  | wait now hnow => exact hv
  | store written t h =>
    cases h with
    | store stored version hkept hversion hfresh =>
      rintro l ⟨⟩
      exact ⟨version, List.mem_cons_self, hversion⟩

theorem IsVersioned.hasShown (hv : s.IsVersioned) {lease : Lease} (h : s.stored = some lease) :
    s.HasShown lease := by
  obtain ⟨version, hmem, hversion⟩ := hv lease h
  refine ⟨version, hmem, hversion, fun l hl _ => ?_⟩
  rw [h] at hl
  cases hl
  rfl

/-- A fresh version is none that was read before. -/
theorem HasShown.goesOn {lease : Lease} (hs : s.HasShown lease) (h : s.GoesOn t) :
    t.HasShown lease := by
  obtain ⟨version, hmem, hversion, hsame⟩ := hs
  cases h with
  | wait now hnow => exact ⟨version, hmem, hversion, hsame⟩
  | store written t h =>
    cases h with
    | store stored fresh hkept hstored hfresh =>
      refine ⟨version, List.mem_cons_of_mem fresh hmem, hversion, ?_⟩
      rintro l ⟨⟩ hl
      rw [hstored] at hl
      cases hl
      exact absurd hmem hfresh

/-- A write that is based on a lease that was read succeeds only on that lease. -/
theorem HasShown.eq_of_version {lease current : Lease} (hs : s.HasShown lease)
    (hcurrent : s.stored = some current)
    (h : lease.metadata.resourceVersion = current.metadata.resourceVersion) : current = lease := by
  obtain ⟨version, _, hversion, hsame⟩ := hs
  exact hsame current hcurrent (h ▸ hversion)

end LeaseWorld

/-! ### Programs under way -/

namespace Candidate

def afterClock (c : Candidate) (now : Time) : Step Bool :=
  .ask (.get c.leaseName) (fun
    | .error f => .done (.error (.failed f))
    | .ok current => c.write current now)

def giveUp (lease : Lease) : Step Unit :=
  .ask (.replace lease.metadata.anyName
      { lease with spec := lease.spec.map (fun s => { s with holderIdentity := none }) })
    (fun r => .done ((r.mapError .failed).map (fun _ => ())))

inductive IsAcquiring (c : Candidate) (s : LeaseWorld) : Step Bool → Prop
  | start : IsAcquiring c s c.acquire
  | sampled (now : Int) (hnow : now ≤ s.now) : IsAcquiring c s (c.afterClock (Time.ofTotal now))
  | read (now : Int) (hnow : now ≤ s.now) (current : Option Lease)
      (hshown : ∀ l, current = some l → s.HasShown l) :
      IsAcquiring c s (c.write current (Time.ofTotal now))
  | done (r : Except LeaseFailure Bool) : IsAcquiring c s (.done r)

inductive IsReleasing (c : Candidate) (s : LeaseWorld) : Step Unit → Prop
  | start : IsReleasing c s c.release
  | read (lease : Lease) (hshown : s.HasShown lease) (hown : lease.holder? = some c.holder) :
      IsReleasing c s (giveUp lease)
  | done (r : Except LeaseFailure Unit) : IsReleasing c s (.done r)

def Pursues (c : Candidate) (s : LeaseWorld) : Activity → Prop
  | .idle => True
  | .acquiring rest => c.IsAcquiring s rest
  | .releasing rest => c.IsReleasing s rest

theorem Pursues.goesOn {c : Candidate} {s t : LeaseWorld} {a : Activity} (h : c.Pursues s a)
    (hgo : s.GoesOn t) : c.Pursues t a := by
  have hle := hgo.now_le
  cases a with
  | idle => trivial
  | acquiring rest =>
    cases h with
    | start => exact .start
    | sampled now hnow => exact .sampled now (Int.le_trans hnow hle)
    | read now hnow current hshown =>
      exact .read now (Int.le_trans hnow hle) current fun l hl => (hshown l hl).goesOn hgo
    | done r => exact .done r
  | releasing rest =>
    cases h with
    | start => exact .start
    | read lease hshown hown => exact .read lease (hshown.goesOn hgo) hown
    | done r => exact .done r

end Candidate

def Claim.Describes (current : Option Lease) (holder : String) (now : Time) : Claim → Prop
  | .create => current = none
  | .renew => ∃ l, current = some l ∧ l.holder? = some holder
  | .takeOver => ∃ l, current = some l ∧ (l.holder? = none ∨ l.isExpired now = true)
  | .heldBy other => ∃ l, current = some l ∧ l.holder? = some other

theorem Lease.claim_describes (current : Option Lease) (holder : String) (now : Time) :
    (Lease.claim current holder now).Describes current holder now := by
  unfold claim
  cases current with
  | none => exact rfl
  | some l =>
    dsimp only
    cases hh : l.holder? with
    | none => exact ⟨l, rfl, Or.inl hh⟩
    | some other =>
      dsimp only
      split
      · rename_i he
        exact ⟨l, rfl, he ▸ hh⟩
      · split
        · rename_i hx
          exact ⟨l, rfl, Or.inr hx⟩
        · exact ⟨l, rfl, hh⟩

/-- A candidate writes the lease in its own name, for its own duration and from now on. -/
theorem Lease.next?_own {current : Option Lease} {name holder : String} {duration : Int32}
    {now : Time} {lease : Lease} (h : next? current name holder duration now = some lease) :
    lease.holder? = some holder ∧ lease.duration? = some duration ∧
      lease.renewed? = some now := by
  obtain ⟨transitions, _, rfl⟩ := Option.map_eq_some_iff.1 h
  exact ⟨rfl, rfl, rfl⟩

namespace Candidate

inductive Responds (c : Candidate) (current : Option Lease) (now : Time) : Step Bool → Prop
  | held (other : String) (hclaim : Lease.claim current c.holder now = .heldBy other) :
      Responds c current now (.done (.ok false))
  | exhausted (hfree : ∀ other, Lease.claim current c.holder now ≠ .heldBy other)
      (hlease : Lease.next? current c.leaseName c.holder c.duration now = none) :
      Responds c current now (.done (.error .exhausted))
  | created (hnone : current = none) (hclaim : Lease.claim current c.holder now = .create)
      (lease : Lease)
      (hlease : Lease.next? current c.leaseName c.holder c.duration now = some lease) :
      Responds c current now (.ask (.create lease) (fun r => .done (gained r)))
  | replaced (l : Lease) (hl : current = some l)
      (hfree : ∀ other, Lease.claim current c.holder now ≠ .heldBy other) (lease : Lease)
      (hlease : Lease.next? current c.leaseName c.holder c.duration now = some lease) :
      Responds c current now (.ask (.replace c.leaseName lease) (fun r => .done (gained r)))

theorem write_responds (c : Candidate) (current : Option Lease) (now : Time) :
    c.Responds current now (c.write current now) := by
  have hc := Lease.claim_describes current c.holder now
  unfold write
  cases hlease : Lease.next? current c.leaseName c.holder c.duration now with
  | none =>
    cases hclaim : Lease.claim current c.holder now with
    | heldBy other => exact .held other hclaim
    | _ => exact .exhausted (by simp [hclaim]) hlease
  | some lease =>
    cases hclaim : Lease.claim current c.holder now with
    | heldBy other => exact .held other hclaim
    | create =>
      rw [hclaim] at hc
      exact .created hc hclaim lease hlease
    | _ =>
      rw [hclaim] at hc
      obtain ⟨l, hl, _⟩ := hc
      exact .replaced l hl (by simp [hclaim]) lease hlease

variable {c : Candidate} {s t : LeaseWorld}

/-- A write that acquires a lease: under which holder, since when and for how long, and what was
stored before. -/
structure Takes (c : Candidate) (s : LeaseWorld) (lease : Lease) : Prop where
  holder : lease.holder? = some c.holder
  duration : lease.duration? = some c.duration
  renewed : ∃ now, now ≤ s.now ∧ lease.renewed? = some (Time.ofTotal now)
  free : ∀ l, s.stored = some l → l.holder? = some c.holder ∨ l.holder? = none ∨
    ∃ now, now ≤ s.now ∧ l.isExpired (Time.ofTotal now) = true

/-- A write that acquires a lease is made from what is stored, at a time when no other candidate
held that. -/
def Acquires (c : Candidate) (s : LeaseWorld) (lease : Lease) : Prop :=
  ∃ now, now ≤ s.now ∧
    Lease.next? s.stored c.leaseName c.holder c.duration (Time.ofTotal now) = some lease ∧
    ∀ other, Lease.claim s.stored c.holder (Time.ofTotal now) ≠ .heldBy other

theorem Acquires.takes {lease : Lease} (h : c.Acquires s lease) : c.Takes s lease := by
  obtain ⟨now, hnow, hnext, hfree⟩ := h
  obtain ⟨hholder, hduration, hrenewed⟩ := Lease.next?_own hnext
  refine ⟨hholder, hduration, ⟨now, hnow, hrenewed⟩, fun l hl => ?_⟩
  have hc := Lease.claim_describes s.stored c.holder (Time.ofTotal now)
  cases hclaim : Lease.claim s.stored c.holder (Time.ofTotal now) with
  | heldBy other => exact absurd hclaim (hfree other)
  | create =>
    rw [hclaim] at hc
    cases hl.symm.trans hc
  | renew =>
    rw [hclaim] at hc
    obtain ⟨read, hread, hown⟩ := hc
    cases hl.symm.trans hread
    exact Or.inl hown
  | takeOver =>
    rw [hclaim] at hc
    obtain ⟨read, hread, hopen⟩ := hc
    cases hl.symm.trans hread
    exact Or.inr (hopen.imp id fun hx => ⟨now, hnow, hx⟩)

/-- How a program that acquires a lease goes on, and what it writes. -/
theorem IsAcquiring.acquires {q : LeaseCall} {next : q.Answer → Step Bool} {a : q.Answer}
    {written : Option Lease} (hv : s.IsVersioned) (h : c.IsAcquiring s (.ask q next))
    (ha : s.Answers q a t written) :
    s.GoesOn t ∧ c.IsAcquiring t (next a) ∧
      ∀ lease, written = some lease → s.Stores lease t ∧ c.Acquires s lease := by
  generalize hp : Prog.ask q next = p at h
  cases h with
  | start =>
    cases hp
    cases ha with
    | clock => exact ⟨.refl s, .sampled s.now (Int.le_refl _), by simp⟩
  | sampled now hnow =>
    cases hp
    cases ha with
    | get name =>
      refine ⟨.refl s, .read now hnow s.stored fun l hl => hv.hasShown hl, by simp⟩
    | getFails name f => exact ⟨.refl s, .done _, by simp⟩
  | done r => cases hp
  | read now hnow current hshown =>
    have hresponds := c.write_responds current (Time.ofTotal now)
    rw [← hp] at hresponds
    cases hresponds with
    | created hnone hclaim lease hlease =>
      cases ha with
      | create _ reply t hfree hstores =>
        have hopen : current = s.stored := hnone.trans hfree.symm
        refine ⟨.store _ t hstores, .done _, ?_⟩
        rintro _ ⟨⟩
        exact ⟨hstores, now, hnow, hopen ▸ hlease, by simp [← hopen, hclaim]⟩
      | createFails _ f => exact ⟨.refl s, .done _, by simp⟩
    | replaced l hl hfree lease hlease =>
      cases ha with
      | replace name _ stored reply t hstored hversion hstores =>
        -- the write succeeds only on the lease it was made from
        have hshows : lease.metadata.resourceVersion = l.metadata.resourceVersion := by
          obtain ⟨_, _, rfl⟩ := Option.map_eq_some_iff.1 hlease
          rw [hl]
          rfl
        have hopen : current = s.stored := by
          rw [hl, hstored, (hshown l hl).eq_of_version hstored (hshows.symm.trans hversion)]
        refine ⟨.store _ t hstores, .done _, ?_⟩
        rintro _ ⟨⟩
        exact ⟨hstores, now, hnow, hopen ▸ hlease, hopen ▸ hfree⟩
      | replaceFails name _ f => exact ⟨.refl s, .done _, by simp⟩

theorem IsAcquiring.answered {q : LeaseCall} {next : q.Answer → Step Bool} {a : q.Answer}
    {written : Option Lease} (hv : s.IsVersioned) (h : c.IsAcquiring s (.ask q next))
    (ha : s.Answers q a t written) :
    s.GoesOn t ∧ c.IsAcquiring t (next a) ∧
      ∀ lease, written = some lease → s.Stores lease t ∧ c.Takes s lease := by
  obtain ⟨hgo, hnext, hwritten⟩ := h.acquires hv ha
  exact ⟨hgo, hnext, fun lease hl => (hwritten lease hl).imp id Acquires.takes⟩

def GivesUp (c : Candidate) (s : LeaseWorld) (lease : Lease) : Prop :=
  ∃ l, s.stored = some l ∧ l.holder? = some c.holder ∧
    lease = { l with spec := l.spec.map (fun s => { s with holderIdentity := none }) }

/-- How a program that gives a lease up goes on, and what it writes. -/
theorem IsReleasing.givesUp {q : LeaseCall} {next : q.Answer → Step Unit} {a : q.Answer}
    {written : Option Lease} (hv : s.IsVersioned) (h : c.IsReleasing s (.ask q next))
    (ha : s.Answers q a t written) :
    s.GoesOn t ∧ c.IsReleasing t (next a) ∧
      ∀ lease, written = some lease → s.Stores lease t ∧ c.GivesUp s lease := by
  generalize hp : Prog.ask q next = p at h
  cases h with
  | start =>
    cases hp
    cases ha with
    | get name =>
      refine ⟨.refl s, ?_, by simp⟩
      cases hs : s.stored with
      | none => exact .done _
      | some l =>
        by_cases hown : l.holder? = some c.holder
        · dsimp only
          rw [if_pos hown]
          exact .read l (hv.hasShown hs) hown
        · dsimp only
          rw [if_neg hown]
          exact .done _
    | getFails name f => exact ⟨.refl s, .done _, by simp⟩
  | done r => cases hp
  | read lease hshown hown =>
    cases hp
    cases ha with
    | replace name _ stored reply t hstored hversion hstores =>
      refine ⟨.store _ t hstores, .done _, ?_⟩
      rintro _ ⟨⟩
      have hsame := hshown.eq_of_version hstored hversion
      exact ⟨hstores, lease, hsame ▸ hstored, hown, rfl⟩
    | replaceFails name _ f => exact ⟨.refl s, .done _, by simp⟩

theorem IsReleasing.answered {q : LeaseCall} {next : q.Answer → Step Unit} {a : q.Answer}
    {written : Option Lease} (hv : s.IsVersioned) (h : c.IsReleasing s (.ask q next))
    (ha : s.Answers q a t written) :
    s.GoesOn t ∧ c.IsReleasing t (next a) ∧ ∀ lease, written = some lease →
      s.Stores lease t ∧ ∃ l, s.stored = some l ∧ l.holder? = some c.holder := by
  obtain ⟨hgo, hnext, hwritten⟩ := h.givesUp hv ha
  refine ⟨hgo, hnext, fun lease hl => ?_⟩
  obtain ⟨hstores, l, hstored, hown, _⟩ := hwritten lease hl
  exact ⟨hstores, l, hstored, hown⟩

end Candidate

/-! ### The invariant -/

def Lease.IsOver (lease : Lease) (now : Int) : Prop :=
  ∃ renewed duration, lease.renewed? = some renewed ∧ lease.duration? = some duration ∧
    renewed.total + duration.toInt * 1000000000 < now

namespace Race
variable {r : Race ι}

theorem duration_nonneg (r : Race ι) (i : ι) : 0 ≤ (r.candidate i).duration.toInt := by
  show 0 ≤ (Int32.ofNat (min (r.seconds i).toNat 2147483647)).toInt
  rw [Int32.toInt_ofNat_of_lt (by omega)]
  omega

structure Leads (r : Race ι) (j : ι) (lease : Lease) (w : LeaseWorld) : Prop where
  holder : lease.holder? = some (r.holder j)
  duration : lease.duration? = some (r.candidate j).duration
  renewed : ∃ sampled, lease.renewed? = some (Time.ofTotal sampled)
  kept : lease.IsOver w.now ∨ ∃ l, w.stored = some l ∧ lease.KeptAs l

/-- The lease of one candidate is over when another one acquires it. -/
theorem Leads.isOver_of_takes {w : LeaseWorld} {i j : ι} {lease taken : Lease}
    (h : r.Leads j lease w) (ht : (r.candidate i).Takes w taken) (hij : j ≠ i) :
    lease.IsOver w.now := by
  cases h.kept with
  | inl hover => exact hover
  | inr hstored =>
    obtain ⟨l, hl, hkept⟩ := hstored
    have hholder : l.holder? = some (r.holder j) := hkept.holder.trans h.holder
    rcases ht.free l hl with hown | hnone | ⟨now, hnow, hexpired⟩
    · rw [hholder] at hown
      exact absurd (r.distinct j i (Option.some.inj hown)) hij
    · rw [hholder] at hnone
      cases hnone
    · obtain ⟨sampled, hr⟩ := h.renewed
      have helapsed := hkept.elapsed hr h.duration (r.duration_nonneg j) hexpired
      refine ⟨_, _, hr, h.duration, ?_⟩
      rw [Time.total_ofTotal]
      omega

/-- The lease of one candidate is over while another one holds what is stored. -/
theorem Leads.isOver_of_holder {w : LeaseWorld} {i j : ι} {lease l : Lease}
    (h : r.Leads j lease w) (hl : w.stored = some l) (ho : l.holder? = some (r.holder i))
    (hij : j ≠ i) : lease.IsOver w.now := by
  cases h.kept with
  | inl hover => exact hover
  | inr hstored =>
    obtain ⟨l', hl', hkept⟩ := hstored
    rw [hl] at hl'
    cases hl'
    rw [hkept.holder, h.holder] at ho
    exact absurd (r.distinct j i (Option.some.inj ho)) hij

theorem Leads.isOver_mono {lease : Lease} {a b : Int} (h : lease.IsOver a) (hab : a ≤ b) :
    lease.IsOver b := by
  obtain ⟨renewed, duration, hr, hd, hlt⟩ := h
  exact ⟨renewed, duration, hr, hd, Int.lt_of_lt_of_le hlt hab⟩

variable [DecidableEq ι] {s t : RaceState ι} {events new : List (LeaseEvent ι)}

/-- What holds after every step: versions and programs are as they should be, and every lease that
is outstanding is stored or over. -/
structure Invariant (r : Race ι) (events : List (LeaseEvent ι)) (s : RaceState ι) : Prop where
  version : s.world.IsVersioned
  pursues : ∀ i, (r.candidate i).Pursues s.world (s.activity i)
  leads : ∀ j lease, outstanding j events = some lease → r.Leads j lease s.world

theorem Invariant.start (h : Starts s) : r.Invariant [] s where
  version := h.version
  pursues i := by
    rw [h.idle]
    trivial
  leads j lease hl := by cases hl

theorem Invariant.pursues_turn (h : r.Invariant events s) {i : ι} {a : Activity} {w : LeaseWorld}
    (hgo : s.world.GoesOn w) (ha : (r.candidate i).Pursues w a) (j : ι) :
    (r.candidate j).Pursues w ((s.turn i a w).activity j) := by
  unfold RaceState.turn
  dsimp only
  split
  · rename_i hj
    exact hj ▸ ha
  · exact (h.pursues j).goesOn hgo

theorem Invariant.quiet (h : r.Invariant events s) {i : ι} {a : Activity} {w : LeaseWorld}
    (hgo : s.world.GoesOn w) (hstored : w.stored = s.world.stored)
    (ha : (r.candidate i).Pursues w a) : r.Invariant events (s.turn i a w) where
  version := h.version.goesOn hgo
  pursues := h.pursues_turn hgo ha
  leads j lease hl := by
    have hj := h.leads j lease hl
    refine ⟨hj.holder, hj.duration, hj.renewed, ?_⟩
    show lease.IsOver w.now ∨ ∃ l, w.stored = some l ∧ lease.KeptAs l
    rw [hstored]
    exact hj.kept.imp (fun hover => Leads.isOver_mono hover hgo.now_le) id

/-- When a candidate acquires the lease, those of all others are over. -/
theorem Invariant.acquired (h : r.Invariant events s) {i : ι} {a : Activity} {w : LeaseWorld}
    {lease : Lease} (hstores : s.world.Stores lease w) (ht : (r.candidate i).Takes s.world lease)
    (ha : (r.candidate i).Pursues w a) :
    r.Invariant (.acquired i lease :: events) (s.turn i a w) where
  version := h.version.goesOn (.store lease w hstores)
  pursues := h.pursues_turn (.store lease w hstores) ha
  leads j lease' hl := by
    cases hstores with
    | store stored version hkept hversion hfresh =>
      unfold outstanding at hl
      split at hl
      · rename_i hij
        subst hij
        cases hl
        obtain ⟨now, _, hr⟩ := ht.renewed
        exact ⟨ht.holder, ht.duration, ⟨now, hr⟩, Or.inr ⟨stored, rfl, hkept⟩⟩
      · rename_i hij
        have hj := h.leads j lease' hl
        exact ⟨hj.holder, hj.duration, hj.renewed,
          Or.inl (hj.isOver_of_takes ht fun hji => hij hji.symm)⟩

/-- When a candidate gives the lease up, those of all others are over. -/
theorem Invariant.released (h : r.Invariant events s) {i : ι} {a : Activity} {w : LeaseWorld}
    {lease l : Lease} (hstores : s.world.Stores lease w) (hl : s.world.stored = some l)
    (ho : l.holder? = some (r.holder i)) (ha : (r.candidate i).Pursues w a) :
    r.Invariant (.released i lease :: events) (s.turn i a w) where
  version := h.version.goesOn (.store lease w hstores)
  pursues := h.pursues_turn (.store lease w hstores) ha
  leads j lease' hl' := by
    cases hstores with
    | store stored version hkept hversion hfresh =>
      unfold outstanding at hl'
      split at hl'
      · cases hl'
      · rename_i hij
        have hj := h.leads j lease' hl'
        exact ⟨hj.holder, hj.duration, hj.renewed,
          Or.inl (hj.isOver_of_holder hl ho fun hji => hij hji.symm)⟩

theorem answers_quiet {s t : LeaseWorld} {q : LeaseCall} {a : q.Answer}
    (h : s.Answers q a t none) : t = s := by
  cases h <;> rfl

theorem Invariant.step (h : r.Invariant events s) (hstep : r.Step s new t) :
    r.Invariant (new ++ events) t := by
  cases hstep with
  | wait now hnow =>
    have hgo : s.world.GoesOn { s.world with now := now } := .wait now hnow
    refine ⟨h.version.goesOn hgo, fun i => (h.pursues i).goesOn hgo, fun j lease hl => ?_⟩
    have hj := h.leads j lease hl
    exact ⟨hj.holder, hj.duration, hj.renewed,
      hj.kept.imp (fun hover => Leads.isOver_mono hover hnow) id⟩
  | acquire i hidle => exact h.quiet (.refl _) rfl Candidate.IsAcquiring.start
  | release i hidle => exact h.quiet (.refl _) rfl Candidate.IsReleasing.start
  | stop i => exact h.quiet (.refl _) rfl trivial
  | whileAcquiring i q next a w written hrest hanswer =>
    have hp : (r.candidate i).IsAcquiring s.world (.ask q next) := by
      simpa [hrest, Candidate.Pursues] using h.pursues i
    obtain ⟨hgo, hnext, hwritten⟩ := hp.answered h.version hanswer
    cases written with
    | none => exact h.quiet hgo (answers_quiet hanswer ▸ rfl) hnext
    | some lease =>
      obtain ⟨hstores, htakes⟩ := hwritten lease rfl
      exact h.acquired hstores htakes hnext
  | whileReleasing i q next a w written hrest hanswer =>
    have hp : (r.candidate i).IsReleasing s.world (.ask q next) := by
      simpa [hrest, Candidate.Pursues] using h.pursues i
    obtain ⟨hgo, hnext, hwritten⟩ := hp.answered h.version hanswer
    cases written with
    | none => exact h.quiet hgo (answers_quiet hanswer ▸ rfl) hnext
    | some lease =>
      obtain ⟨hstores, l, hl, ho⟩ := hwritten lease rfl
      exact h.released hstores hl ho hnext

theorem Reaches.invariant (h : r.Reaches events s) : r.Invariant events s := by
  induction h with
  | start s hstarts => exact .start hstarts
  | step hreaches hstep ih => exact ih.step hstep

/-- When a candidate writes the lease, the lease of every other candidate that has not given up its
own is over: more than its duration has passed since it was renewed.  And who gives the lease up is
the one who holds it. -/
theorem leader_exclusion (h : r.Reaches events s) (hstep : r.Step s new t) :
    (∀ e ∈ new, ∀ j, j ≠ e.writer → ∀ lease, outstanding j events = some lease →
      ∃ renewed duration, lease.renewed? = some renewed ∧ lease.duration? = some duration ∧
        renewed.total + duration.toInt * 1000000000 < s.world.now) ∧
    (∀ i lease, .released i lease ∈ new →
      ∃ l, s.world.stored = some l ∧ l.holder? = some (r.holder i)) := by
  have hinv := h.invariant
  cases hstep with
  | wait now hnow => exact ⟨by simp, by simp⟩
  | acquire i hidle => exact ⟨by simp, by simp⟩
  | release i hidle => exact ⟨by simp, by simp⟩
  | stop i => exact ⟨by simp, by simp⟩
  | whileAcquiring i q next a w written hrest hanswer =>
    have hp : (r.candidate i).IsAcquiring s.world (.ask q next) := by
      simpa [hrest, Candidate.Pursues] using hinv.pursues i
    obtain ⟨_, _, hwritten⟩ := hp.answered hinv.version hanswer
    refine ⟨?_, by simp⟩
    intro e he j hj lease hl
    obtain ⟨taken, htaken, rfl⟩ := List.mem_map.1 he
    obtain ⟨_, htakes⟩ := hwritten taken (by simpa using htaken)
    exact (hinv.leads j lease hl).isOver_of_takes htakes hj
  | whileReleasing i q next a w written hrest hanswer =>
    have hp : (r.candidate i).IsReleasing s.world (.ask q next) := by
      simpa [hrest, Candidate.Pursues] using hinv.pursues i
    obtain ⟨_, _, hwritten⟩ := hp.answered hinv.version hanswer
    constructor
    · intro e he j hj lease hl
      obtain ⟨given, hgiven, rfl⟩ := List.mem_map.1 he
      obtain ⟨_, l, hstored, ho⟩ := hwritten given (by simpa using hgiven)
      exact (hinv.leads j lease hl).isOver_of_holder hstored ho hj
    · intro k lease hk
      obtain ⟨given, hgiven, hke⟩ := List.mem_map.1 hk
      cases hke
      obtain ⟨_, l, hstored, ho⟩ := hwritten lease (by simpa using hgiven)
      exact ⟨l, hstored, ho⟩

/-- One of two candidates creates the lease, and after sixteen seconds the other takes it over. -/
theorem leader_exclusion_takeover :
    ∃ (r : Race Bool) (events : List (LeaseEvent Bool)) (s t : RaceState Bool)
        (lease first : Lease),
      r.Reaches events s ∧ r.Step s [.acquired false lease] t ∧
        outstanding true events = some first ∧
        ∃ renewed duration, first.renewed? = some renewed ∧ first.duration? = some duration ∧
          renewed.total + duration.toInt * 1000000000 < s.world.now := by
  let r : Race Bool := ⟨"leader", fun i => if i then "a" else "b", fun _ => 15, by decide⟩
  let version (l : Lease) (v : String) : Lease :=
    { l with metadata := { l.metadata with resourceVersion := some v } }
  let tenure (holder : String) (transitions : Int32) (since : Int) : Lease :=
    ⟨{ name := some "leader" }, some {
      acquireTime := some (Time.ofTotal since), holderIdentity := some holder
      leaseDurationSeconds := some 15, leaseTransitions := some transitions
      renewTime := some (Time.ofTotal since) }⟩
  let first := tenure "a" 0 0
  let second := version (tenure "b" 1 16000000000) "1"
  let free : LeaseWorld := ⟨0, none, []⟩
  let held : LeaseWorld := ⟨0, some (version first "1"), ["1"]⟩
  let late : LeaseWorld := ⟨16000000000, some (version first "1"), ["1"]⟩
  let s0 : RaceState Bool := ⟨free, fun _ => .idle⟩
  let s1 := s0.turn true (.acquiring (r.candidate true).acquire) free
  let s2 := s1.turn true (.acquiring ((r.candidate true).afterClock (Time.ofTotal 0))) free
  let s3 := s2.turn true (.acquiring ((r.candidate true).write none (Time.ofTotal 0))) free
  let s4 := s3.turn true (.acquiring (.done (.ok true))) held
  let s5 : RaceState Bool := { s4 with world := late }
  let s6 := s5.turn false (.acquiring (r.candidate false).acquire) late
  let s7 := s6.turn false
    (.acquiring ((r.candidate false).afterClock (Time.ofTotal 16000000000))) late
  let s8 := s7.turn false
    (.acquiring ((r.candidate false).write late.stored (Time.ofTotal 16000000000))) late
  have h0 : r.Reaches [] s0 := .start s0 ⟨fun _ => rfl, fun _ hl => by cases hl⟩
  have h1 : r.Reaches [] s1 := h0.step (.acquire s0 true rfl)
  have h2 : r.Reaches [] s2 := h1.step (.whileAcquiring s1 true .clock _ _ _ none rfl .clock)
  have h3 : r.Reaches [] s3 :=
    h2.step (.whileAcquiring s2 true (.get "leader") _ _ _ none rfl (.get "leader"))
  have h4 : r.Reaches [.acquired true first] s4 :=
    h3.step (.whileAcquiring s3 true (.create first) _ (.ok first) held (some first) rfl
      (.create first _ _ rfl
        (.store (version first "1") "1" ⟨rfl, rfl, Or.inl rfl⟩ rfl List.not_mem_nil)))
  have h5 : r.Reaches [.acquired true first] s5 := h4.step (.wait s4 16000000000 (by decide))
  have h6 : r.Reaches [.acquired true first] s6 := h5.step (.acquire s5 false rfl)
  have h7 : r.Reaches [.acquired true first] s7 :=
    h6.step (.whileAcquiring s6 false .clock _ _ _ none rfl .clock)
  have h8 : r.Reaches [.acquired true first] s8 :=
    h7.step (.whileAcquiring s7 false (.get "leader") _ _ _ none rfl (.get "leader"))
  have hstep := Step.whileAcquiring (r := r) s8 false (.replace "leader" second) _ (.ok second) _
    (some second) rfl (.replace "leader" second (version first "1") _ _ rfl rfl
      (.store (version second "2") "2" ⟨rfl, rfl, Or.inl rfl⟩ rfl (by decide)))
  exact ⟨r, _, s8, _, second, first, h8, hstep, rfl,
    (leader_exclusion h8 hstep).1 _ List.mem_cons_self true (by decide) first rfl⟩

end Race
end MailCapture
