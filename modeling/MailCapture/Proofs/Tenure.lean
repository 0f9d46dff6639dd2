import MailCapture.Proofs.Leadership
/-!
The books of a lease: how often it changed its holder, and since when it is held.  A candidate that
takes a lease over counts one on and starts the tenure anew; who renews the lease or gives it up
keeps both.  The count has an end, and a lease that has come to it is taken over no more.
-/
namespace MailCapture

namespace Lease

def count (current : Option Lease) : Int :=
  (((current.bind (·.spec)).bind (·.leaseTransitions)).getD 0).toInt

def acquired? (l : Lease) : Option Time := l.spec.bind (·.acquireTime)

theorem increment?_eq_none_iff (n : Int32) : increment? n = none ↔ n.toInt = 2147483647 := by
  unfold increment?
  rw [show (2147483647 : Int) = (2147483647 : Int32).toInt from rfl, Int32.toInt_inj]
  split <;> simp_all

theorem toInt_of_increment? {n m : Int32} (h : increment? n = some m) : m.toInt = n.toInt + 1 := by
  have hend : n.toInt ≠ 2147483647 := fun hend => by
    rw [(increment?_eq_none_iff n).2 hend] at h
    cases h
  unfold increment? at h
  split at h
  · cases h
  · cases h
    have hle : n.toInt ≤ 2147483647 := Int32.toInt_le n
    have hge : -2147483648 ≤ n.toInt := Int32.le_toInt n
    rw [Int32.toInt_add, Int32.toInt_one, Int.bmod_eq_of_le (by omega) (by omega)]

/-- The books of a lease as a candidate writes it: they are opened, kept, or one takeover is
counted. -/
inductive Books (current : Option Lease) (holder : String) (now : Time) (written : Lease) : Prop
  | created (hnone : current = none) (hcount : count (some written) = 0)
      (hsince : written.acquired? = some now)
  | renewed (l : Lease) (hl : current = some l) (hown : l.holder? = some holder)
      (hcount : count (some written) = count current) (hsince : written.acquired? = l.acquired?)
  | takenOver (l : Lease) (hl : current = some l) (hother : l.holder? ≠ some holder)
      (hcount : count (some written) = count current + 1)
      (hsince : written.acquired? = some now)

theorem count_some (l : Lease) :
    count (some l) = ((l.spec.getD {}).leaseTransitions.getD 0).toInt := by
  unfold count
  cases hs : l.spec <;> simp [hs]

theorem holder?_eq (l : Lease) : l.holder? = (l.spec.getD {}).holderIdentity := by
  unfold holder?
  cases l.spec <;> rfl

theorem acquired?_eq (l : Lease) : l.acquired? = (l.spec.getD {}).acquireTime := by
  unfold acquired?
  cases l.spec <;> rfl

section Next
variable {current : Option Lease} {name holder : String} {duration : Int32} {now : Time}
  {written : Lease}

/-- Only a takeover at the end of the count cannot be written. -/
theorem next?_eq_none_iff : next? current name holder duration now = none ↔
    (∃ l, current = some l ∧ l.holder? ≠ some holder) ∧ count current = 2147483647 := by
  cases current with
  | none => simp [next?]
  | some l =>
    rw [count_some]
    by_cases hown : l.holder? = some holder
    · simp [next?, ← holder?_eq, hown]
    · simp [next?, ← holder?_eq, hown, increment?_eq_none_iff]

theorem books_of_next? (h : next? current name holder duration now = some written) :
    Books current holder now written := by
  obtain ⟨transitions, hcounted, rfl⟩ := Option.map_eq_some_iff.1 h
  cases current with
  | none =>
    cases hcounted
    exact .created rfl rfl rfl
  | some l =>
    by_cases hown : l.holder? = some holder
    · have hkept : (l.spec.getD {}).leaseTransitions.getD 0 = transitions := by
        simpa [← holder?_eq, hown] using hcounted
      refine .renewed l rfl hown ?_ ?_
      · rw [count_some, count_some, hkept]
        rfl
      · rw [acquired?_eq l]
        simp [acquired?, ← holder?_eq, hown]
    · have hcounts : increment? ((l.spec.getD {}).leaseTransitions.getD 0) = some transitions := by
        simpa [← holder?_eq, hown] using hcounted
      refine .takenOver l rfl hown ?_ ?_
      · rw [count_some, count_some, ← toInt_of_increment? hcounts]
        rfl
      · simp [acquired?, ← holder?_eq, hown]

/-- What a candidate writes is the lease it observed, with its name and its own fields set. -/
theorem keeps_of_next? (h : next? current name holder duration now = some written) :
    written.metadata = { (current.map (·.metadata)).getD {} with name := some name } ∧
      written.spec = some { (current.bind (·.spec)).getD {} with
        holderIdentity := some holder
        leaseDurationSeconds := some duration
        renewTime := some now
        acquireTime := written.acquired?
        leaseTransitions := some (Int32.ofInt (count (some written))) } := by
  obtain ⟨transitions, _, rfl⟩ := Option.map_eq_some_iff.1 h
  have hcount : Int32.ofInt transitions.toInt = transitions := Int32.ofInt_toInt transitions
  simp [acquired?, count, hcount]

end Next

structure RecordedAs (written stored : Lease) : Prop where
  count : Lease.count (some stored) = Lease.count (some written)
  since : stored.acquired? = written.acquired? ∨
    stored.acquired? = written.acquired?.map Time.toMicros

theorem claim_of_own {l : Lease} {holder : String} (h : l.holder? = some holder) (now : Time) :
    claim (some l) holder now = .renew := by
  simp [claim, h]

end Lease

/-- A candidate breaks off where the lease is free but the count is at its end. -/
theorem Candidate.write_exhausted_iff (c : Candidate) (current : Option Lease) (now : Time) :
    c.write current now = .done (.error .exhausted) ↔
      Lease.claim current c.holder now = .takeOver ∧ Lease.count current = 2147483647 := by
  have hc := Lease.claim_describes current c.holder now
  have hresponds := c.write_responds current now
  generalize c.write current now = p at hresponds
  constructor
  · rintro rfl
    cases hresponds with
    | exhausted hfree hlease =>
      obtain ⟨⟨l, rfl, hother⟩, hcount⟩ := Lease.next?_eq_none_iff.1 hlease
      refine ⟨?_, hcount⟩
      cases hclaim : Lease.claim (some l) c.holder now with
      | takeOver => rfl
      | heldBy other => exact absurd hclaim (hfree other)
      | create =>
        rw [hclaim] at hc
        cases hc
      | renew =>
        rw [hclaim] at hc
        obtain ⟨_, ⟨⟩, hown⟩ := hc
        exact absurd hown hother
  · rintro ⟨hclaim, hcount⟩
    rw [hclaim] at hc
    obtain ⟨l, rfl, _⟩ := hc
    have hother : l.holder? ≠ some c.holder := fun hown => by
      rw [Lease.claim_of_own hown] at hclaim
      cases hclaim
    have hnone : Lease.next? (some l) c.leaseName c.holder c.duration now = none :=
      Lease.next?_eq_none_iff.2 ⟨⟨l, rfl, hother⟩, hcount⟩
    cases hresponds with
    | exhausted hfree hlease => rfl
    | held other hheld => cases hclaim.symm.trans hheld
    | created hcreated _ _ _ => cases hcreated
    | replaced _ _ _ lease hlease => cases hnone.symm.trans hlease

/-! ### Runs -/

variable {ι : Type}

def LeaseEvent.lease : LeaseEvent ι → Lease
  | .acquired _ lease => lease
  | .released _ lease => lease

structure LeaseWrite (ι : Type) where
  before : Option Lease
  event : LeaseEvent ι

namespace LeaseWrite

def isTakeover (r : Race ι) (w : LeaseWrite ι) : Bool :=
  match w.event, w.before with
  | .acquired i _, some l => l.holder? != some (r.holder i)
  | _, _ => false

/-- A write keeps the books: who acquires a lease as `Lease.Books` says, and who gives it up leaves
them as they are. -/
inductive Keeps (r : Race ι) : LeaseWrite ι → Prop
  | acquired (before : Option Lease) (i : ι) (lease : Lease) (now : Time)
      (hnow : lease.renewed? = some now) (hbooks : Lease.Books before (r.holder i) now lease) :
      Keeps r ⟨before, .acquired i lease⟩
  | released (l : Lease) (i : ι) (lease : Lease) (hown : l.holder? = some (r.holder i))
      (hcount : Lease.count (some lease) = Lease.count (some l))
      (hsince : lease.acquired? = l.acquired?) : Keeps r ⟨some l, .released i lease⟩

/-- A takeover is counted, and no other write is. -/
theorem Keeps.count_eq {r : Race ι} {w : LeaseWrite ι} (h : w.Keeps r) :
    Lease.count (some w.event.lease) =
      if w.isTakeover r then Lease.count w.before + 1 else Lease.count w.before := by
  cases h with
  | acquired before i lease now hnow hbooks =>
    cases hbooks with
    | created hnone hcount hsince =>
      subst hnone
      exact hcount
    | renewed l hl hown hcount hsince =>
      subst hl
      rw [if_neg (by simp [isTakeover, hown])]
      exact hcount
    | takenOver l hl hother hcount hsince =>
      subst hl
      rw [if_pos (by simpa [isTakeover] using hother)]
      exact hcount
  | released l i lease hown hcount hsince => exact hcount

theorem Keeps.count_le {r : Race ι} {w : LeaseWrite ι} (h : w.Keeps r) :
    Lease.count w.before ≤ Lease.count (some w.event.lease) := by
  rw [h.count_eq]
  split <;> omega

end LeaseWrite

namespace Race
variable [DecidableEq ι]

/-- The runs of a race from a state, at a server that keeps the books: their writes, the last one
first, and where they lead. -/
inductive Course (r : Race ι) (s : RaceState ι) : List (LeaseWrite ι) → RaceState ι → Prop
  | start : Course r s [] s
  | step {writes : List (LeaseWrite ι)} {t : RaceState ι} (hcourse : Course r s writes t)
      {new : List (LeaseEvent ι)} {u : RaceState ι} (hstep : r.Step t new u)
      (hrecorded : ∀ e ∈ new, ∀ l, u.world.stored = some l → e.lease.RecordedAs l) :
      Course r s (new.map (⟨t.world.stored, ·⟩) ++ writes) u

variable {r : Race ι} {s t u : RaceState ι} {writes : List (LeaseWrite ι)}

theorem Course.reaches (hs : Starts s) (h : r.Course s writes t) :
    r.Reaches (writes.map (·.event)) t := by
  induction h with
  | start => exact .start s hs
  | step hcourse hstep hrecorded ih =>
    simpa [Function.comp_def] using ih.step hstep

/-- What a step writes keeps the books, and it is what is stored afterwards; without a write the
stored lease stays. -/
theorem Invariant.keeps {events new : List (LeaseEvent ι)} (h : r.Invariant events s)
    (hstep : r.Step s new t) : new = [] ∧ t.world.stored = s.world.stored ∨
      ∃ e stored, new = [e] ∧ t.world.stored = some stored ∧
        LeaseWrite.Keeps r ⟨s.world.stored, e⟩ := by
  cases hstep with
  | wait now hnow => exact Or.inl ⟨rfl, rfl⟩
  | acquire i hidle => exact Or.inl ⟨rfl, rfl⟩
  | release i hidle => exact Or.inl ⟨rfl, rfl⟩
  | stop i => exact Or.inl ⟨rfl, rfl⟩
  | whileAcquiring i q next a w written hrest hanswer =>
    have hp : (r.candidate i).IsAcquiring s.world (.ask q next) := by
      simpa [hrest, Candidate.Pursues] using h.pursues i
    cases written with
    | none => exact Or.inl ⟨rfl, congrArg _ (answers_quiet hanswer)⟩
    | some lease =>
      obtain ⟨_, _, hwritten⟩ := hp.acquires h.version hanswer
      obtain ⟨hstores, now, _, hlease, _⟩ := hwritten lease rfl
      cases hstores with
      | store stored version hkept hversion hfresh =>
        exact Or.inr ⟨_, stored, rfl, rfl, .acquired _ i _ _ (Lease.next?_own hlease).2.2
          (Lease.books_of_next? hlease)⟩
  | whileReleasing i q next a w written hrest hanswer =>
    have hp : (r.candidate i).IsReleasing s.world (.ask q next) := by
      simpa [hrest, Candidate.Pursues] using h.pursues i
    cases written with
    | none => exact Or.inl ⟨rfl, congrArg _ (answers_quiet hanswer)⟩
    | some lease =>
      obtain ⟨_, _, hwritten⟩ := hp.givesUp h.version hanswer
      obtain ⟨hstores, l, hl, hown, rfl⟩ := hwritten lease rfl
      cases hstores with
      | store stored version hkept hversion hfresh =>
        refine Or.inr ⟨_, stored, rfl, rfl, ?_⟩
        rw [hl]
        obtain ⟨metadata, spec⟩ := l
        cases spec <;> exact .released _ i _ hown rfl rfl

theorem Course.keeps (hs : Starts s) (h : r.Course s writes t) : ∀ w ∈ writes, w.Keeps r := by
  induction h with
  | start => simp
  | step hcourse hstep hrecorded ih =>
    rcases (hcourse.reaches hs).invariant.keeps hstep with
      ⟨rfl, -⟩ | ⟨e, stored, rfl, -, hkeeps⟩
    · exact ih
    · exact List.forall_mem_cons.2 ⟨hkeeps, ih⟩

def takeovers (r : Race ι) (writes : List (LeaseWrite ι)) : Int :=
  (writes.filter (·.isTakeover r)).length

theorem Course.count_eq (hs : Starts s) (h : r.Course s writes t) :
    Lease.count t.world.stored = Lease.count s.world.stored + r.takeovers writes := by
  induction h with
  | start => exact (Int.add_zero _).symm
  | @step writes t hcourse new u hstep hrecorded ih =>
    have hinv := (hcourse.reaches hs).invariant
    rcases hinv.keeps hstep with ⟨rfl, hsame⟩ | ⟨e, stored, rfl, hstored, hkeeps⟩
    · rw [hsame]
      exact ih
    · have hcount := hkeeps.count_eq
      -- the server may round the times of what is written, but the count is kept
      have hkept := (hrecorded e List.mem_cons_self stored hstored).count
      rw [hstored, hkept, hcount]
      cases htakes : LeaseWrite.isTakeover r ⟨t.world.stored, e⟩ with
      | false => simpa [takeovers, htakes] using ih
      | true =>
        rw [if_pos rfl, ih, Int.add_assoc]
        simp [takeovers, htakes]

/-- A candidate keeps of the lease it observed what is not its own, and its books: the count goes
one on with each takeover and stays otherwise, and the tenure starts anew when the lease is created
or taken over.  Only at the end of the count there is no lease to write, and a candidate that might
take it over breaks off.  Along every run the count never goes back: it is the one of the start and
the takeovers since. -/
theorem lease_bookkeeping (r : Race ι) :
    (∀ current name holder duration now,
      (∀ written, Lease.next? current name holder duration now = some written →
        written.metadata = { (current.map (·.metadata)).getD {} with name := some name } ∧
          written.spec = some { (current.bind (·.spec)).getD {} with
            holderIdentity := some holder
            leaseDurationSeconds := some duration
            renewTime := some now
            acquireTime := written.acquired?
            leaseTransitions := some (Int32.ofInt (Lease.count (some written))) } ∧
          Lease.Books current holder now written) ∧
      (Lease.next? current name holder duration now = none ↔
        (∃ l, current = some l ∧ l.holder? ≠ some holder) ∧
          Lease.count current = 2147483647)) ∧
    (∀ (c : Candidate) current now, c.write current now = .done (.error .exhausted) ↔
      Lease.claim current c.holder now = .takeOver ∧ Lease.count current = 2147483647) ∧
    ∀ s writes t, Starts s → r.Course s writes t →
      (∀ w ∈ writes,
        w.Keeps r ∧ Lease.count w.before ≤ Lease.count (some w.event.lease)) ∧
      Lease.count t.world.stored = Lease.count s.world.stored + r.takeovers writes := by
  refine ⟨fun current name holder duration now => ⟨fun written hnext => ?_, ?_⟩,
    fun c current now => c.write_exhausted_iff current now, fun s writes t hs h => ⟨?_, ?_⟩⟩
  · obtain ⟨hmetadata, hspec⟩ := Lease.keeps_of_next? hnext
    exact ⟨hmetadata, hspec, Lease.books_of_next? hnext⟩
  · exact Lease.next?_eq_none_iff
  · exact fun w hw => ⟨h.keeps hs w hw, (h.keeps hs w hw).count_le⟩
  · exact h.count_eq hs

/-- A lease that was taken over six times has expired, and another candidate takes it over. -/
theorem lease_bookkeeping_takeover :
    ∃ (r : Race Bool) (s t : RaceState Bool) (first second : Lease),
      Starts s ∧ r.Course s [⟨some first, .acquired false second⟩] t ∧
        Lease.count (some first) = 6 ∧
        LeaseWrite.Keeps r ⟨some first, .acquired false second⟩ ∧
        Lease.count t.world.stored = 7 := by
  let r : Race Bool := ⟨"leader", fun i => if i then "a" else "b", fun _ => 15, by decide⟩
  let now := Time.ofTotal 16000000000
  let first : Lease := ⟨{ name := some "leader", resourceVersion := some "1" }, some {
    acquireTime := some (Time.ofTotal 0), holderIdentity := some "a"
    leaseDurationSeconds := some 15, leaseTransitions := some 6
    renewTime := some (Time.ofTotal 0) }⟩
  let second : Lease := ⟨first.metadata, some {
    acquireTime := some now, holderIdentity := some "b", leaseDurationSeconds := some 15
    leaseTransitions := some 7, renewTime := some now }⟩
  let stored : Lease :=
    { second with metadata := { second.metadata with resourceVersion := some "2" } }
  let before : LeaseWorld := ⟨16000000000, some first, ["1"]⟩
  let s0 : RaceState Bool := ⟨before, fun _ => .idle⟩
  let s1 := s0.turn false (.acquiring (r.candidate false).acquire) before
  let s2 := s1.turn false (.acquiring ((r.candidate false).afterClock now)) before
  let s3 := s2.turn false (.acquiring ((r.candidate false).write (some first) now)) before
  have hstarts : Starts s0 := ⟨fun _ => rfl, fun l hl => by
    cases hl
    exact ⟨"1", List.mem_cons_self, rfl⟩⟩
  have h1 : r.Course s0 [] s1 := Course.start.step (.acquire s0 false rfl) (by simp)
  have h2 : r.Course s0 [] s2 :=
    h1.step (.whileAcquiring s1 false .clock _ _ _ none rfl .clock) (by simp)
  have h3 : r.Course s0 [] s3 :=
    h2.step (.whileAcquiring s2 false (.get "leader") _ _ _ none rfl (.get "leader")) (by simp)
  have hrecorded : second.RecordedAs stored := ⟨rfl, Or.inl rfl⟩
  have hwrite : (r.candidate false).write (some first) now =
      .ask (.replace "leader" second) (fun reply => .done (Candidate.gained reply)) := by
    have hclaim : Lease.claim (some first) (r.candidate false).holder now = .takeOver := by decide
    unfold Candidate.write
    rw [hclaim]
    rfl
  have hstep := Step.whileAcquiring (r := r) s3 false (.replace "leader" second) _ (.ok second) _
    (some second) (congrArg Activity.acquiring hwrite) (.replace "leader" second first _ _ rfl rfl
      (.store stored "2" ⟨rfl, rfl, Or.inl rfl⟩ rfl (by decide)))
  have h4 : r.Course s0 [⟨some first, .acquired false second⟩] _ := h3.step hstep (by
    rintro e he l ⟨⟩
    cases List.mem_singleton.1 he
    exact hrecorded)
  obtain ⟨hkeeps, hcount⟩ := (lease_bookkeeping r).2.2 s0 _ _ hstarts h4
  exact ⟨r, s0, _, first, second, hstarts, h4, rfl, (hkeeps _ List.mem_cons_self).1, hcount⟩

/-- At the end of the count a lease that has expired is taken over by nobody. -/
theorem takeover_exhausted :
    let observed : Lease := ⟨{ name := some "l", resourceVersion := some "41" }, some {
      holderIdentity := some "other", leaseDurationSeconds := some 15
      leaseTransitions := some 2147483647, renewTime := some ⟨1772323200, 0⟩ }⟩
    let now : Time := ⟨1772326800, 0⟩
    Lease.claim (some observed) "me" now = .takeOver ∧
      ¬ ∃ written, Lease.next? (some observed) "l" "me" 15 now = some written ∧
        Lease.count (some written) = Lease.count (some observed) + 1 := by
  intro observed now
  refine ⟨by decide, ?_⟩
  rintro ⟨written, hwritten, _⟩
  cases hwritten

end Race
end MailCapture
