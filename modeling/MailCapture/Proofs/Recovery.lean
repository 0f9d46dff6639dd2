import MailCapture.Proofs.Audit
import MailCapture.Proofs.Overwriting
import MailCapture.Proofs.Quiescence
import MailCapture.Proofs.Replies
/-!
How a pass gets over races and over a server in trouble.  A refused update is answered by a deletion
and every other failed one ends the pass; what a pass fails with is what a call failed with, or is
retried anyway.  So as long as requests fail only by being lost, by a race or because the server is
overloaded or broken, every failure of a pass is retried after the configured interval, save for
objects that cannot be read.
-/
namespace MailCapture

namespace StoreCall

def isRead : StoreCall → Bool
  | .get _ _ | .list _ _ _ | .getInstance _ => true
  | _ => false

def isReplace : StoreCall → Bool
  | .replace _ _ => true
  | _ => false

end StoreCall

inductive Cause (turns : List Turn) : Failure → Prop
  | undecoded : Cause turns .serialization
  | gone (what : String) : Cause turns (.transient what)
  | call {c : StoreCall} {f : Failure} (hmem : (⟨.call c, .error f⟩ : Turn) ∈ turns)
      (hc : c.isReplace = true → ∀ why, f ≠ .invalid why) : Cause turns f

theorem Cause.mono {turns more : List Turn} {f : Failure} (h : Cause turns f)
    (hsub : turns ⊆ more) : Cause more f := by
  cases h with
  | undecoded => exact .undecoded
  | gone what => exact .gone what
  | call hmem hc => exact .call (hsub hmem) hc

namespace Instance
variable {α β : Type} {i : Instance} {kind : ChildKind} {turns more : List Turn}

def Mends (i : Instance) : List Turn → Prop
  | [] => True
  | turn :: turns =>
    (∀ kind, turn.refused? = some kind →
      ∃ next ∈ turns.head?, next.1 = .call (.delete kind i.key graceSeconds)) ∧ i.Mends turns

@[simp] theorem mends_nil : i.Mends [] := trivial

@[simp] theorem mends_cons (turn : Turn) : i.Mends (turn :: turns) ↔
    (∀ kind, turn.refused? = some kind →
      ∃ next ∈ turns.head?, next.1 = .call (.delete kind i.key graceSeconds)) ∧ i.Mends turns :=
  Iff.rfl

theorem Mends.append (h : i.Mends turns) (hmore : i.Mends more) : i.Mends (turns ++ more) := by
  induction turns with
  | nil => exact hmore
  | cons turn turns ih =>
    obtain ⟨hturn, hrest⟩ := h
    refine ⟨fun kind he => ?_, ih hrest⟩
    obtain ⟨next, hnext, hdelete⟩ := hturn kind he
    obtain ⟨rest, rfl⟩ := List.head?_eq_some_iff.1 hnext
    exact ⟨next, rfl, hdelete⟩

/-- What follows a refused update. -/
theorem Mends.delete {turn : Turn} {earlier later : List Turn} {kind : Kind}
    (h : i.Mends (earlier ++ turn :: later)) (hturn : turn.refused? = some kind) :
    ∃ next rest, later = next :: rest ∧ next.1 = .call (.delete kind i.key graceSeconds) := by
  induction earlier with
  | nil =>
    obtain ⟨next, hnext, hdelete⟩ := h.1 kind hturn
    obtain ⟨rest, hrest⟩ := List.head?_eq_some_iff.1 hnext
    exact ⟨next, rest, hrest, hdelete⟩
  | cons first earlier ih => exact ih h.2

structure Recovers (i : Instance) (turns : List Turn) (r : Except Failure α) : Prop where
  cause : ∀ f, r = .error f → Cause turns f
  mends : i.Mends turns

theorem Mends.succeeds (h : i.Mends turns) (a : α) : i.Recovers turns (.ok a : Except Failure α) :=
  ⟨nofun, h⟩

theorem Mends.fails (h : i.Mends turns) {c : StoreCall} {f : Failure}
    (hmem : (⟨.call c, .error f⟩ : Turn) ∈ turns) (hc : c.isReplace = false) :
    i.Recovers turns (.error f : Except Failure α) := by
  refine ⟨fun g hg => ?_, h⟩
  cases hg
  exact .call hmem (by simp [hc])

theorem recovers_pure (a : α) : (pure a : Action α).Ensures i.Recovers := by
  rw [Action.ensures_pure]
  exact mends_nil.succeeds a

theorem recovers_call {c : StoreCall} (hc : c.isReplace = false) :
    (Action.call c).Ensures i.Recovers := by
  have hmends (a : Query.Answer (.call c)) : i.Mends [⟨.call c, a⟩] := by
    refine ⟨fun kind hrefused => ?_, trivial⟩
    cases c with
    | replace k m => cases hc
    | _ => cases hrefused
  rintro turns r ⟨a, rest, rfl, rfl, rfl⟩
  cases r with
  | ok a => exact (hmends _).succeeds a
  | error f => exact (hmends _).fails List.mem_cons_self hc

theorem recovers_emit (e : Effect) : (Action.emit e).Ensures i.Recovers := by
  rintro turns r ⟨a, rest, rfl, rfl, rfl⟩
  have hmends : i.Mends [⟨.emit e, ()⟩] := by simp [Turn.refused?]
  exact hmends.succeeds ()

theorem recovers_bind {x : Action β} {f : β → Action α} (hx : x.Ensures i.Recovers)
    (hf : ∀ b, (f b).Ensures i.Recovers) : (x >>= f).Ensures i.Recovers := by
  refine hx.bind (fun turns e h => ⟨fun f hf => ?_, h.mends⟩) fun turns b h => ?_
  · cases hf
    exact h.cause e rfl
  · refine (hf b).mono fun more r hmore => ⟨fun e he => ?_, h.mends.append hmore.mends⟩
    exact (hmore.cause e he).mono (List.subset_append_right turns more)

/-! ### Children -/

theorem UpdateCourse.recovers {m : Manifest} {r : Except Failure SyncOutcome}
    (h : i.UpdateCourse kind m turns r) : i.Recovers turns r := by
  cases h with
  | updated stored => exact Mends.succeeds (by simp [reported, Turn.refused?]) _
  | recreated why => exact Mends.succeeds (by simp [reported, Turn.refused?]) _
  | vanished why what => exact Mends.succeeds (by simp [Turn.refused?]) _
  | stuck why f hf =>
    exact Mends.fails (by simp [Turn.refused?]) (List.mem_cons_of_mem _ List.mem_cons_self) rfl
  | failed f hf =>
    -- only this failure is one of the update itself, and it is none that is called invalid
    refine ⟨fun g hg => ?_, ?_, trivial⟩
    · cases hg
      exact .call List.mem_cons_self fun _ => hf
    · intro k hrefused
      cases f
      case invalid why => exact absurd rfl (hf why)
      all_goals cases hrefused

/-- A turn before that is no refused update. -/
theorem Recovers.cons {turn : Turn} {r : Except Failure α} (h : i.Recovers turns r)
    (hturn : turn.refused? = none) : i.Recovers (turn :: turns) r where
  cause f hf := (h.cause f hf).mono (List.subset_cons_self turn turns)
  mends := ⟨by simp [hturn], h.mends⟩

theorem CreateCourse.recovers {d : Manifest} {r : Except Failure SyncOutcome}
    (h : i.CreateCourse kind d turns r) : i.Recovers turns r := by
  cases h with
  | created stored => exact Mends.succeeds (by simp [reported, Turn.refused?]) _
  | failed f hf => exact Mends.fails (by simp [Turn.refused?]) List.mem_cons_self rfl
  | unread what f =>
    exact Mends.fails (by simp [Turn.refused?]) (List.mem_cons_of_mem _ List.mem_cons_self) rfl
  | vanished what =>
    refine ⟨fun g hg => ?_, by simp [Turn.refused?]⟩
    cases hg
    exact .gone _
  | kept what o hlive hfits => exact Mends.succeeds (by simp [Turn.refused?]) _
  | waits what o hgoing => exact Mends.succeeds (by simp [Turn.refused?]) _
  | updates what o hlive hdrift hupdate => exact (hupdate.recovers.cons rfl).cons rfl

theorem DeleteCourse.recovers {r : Except Failure SyncOutcome}
    (h : i.DeleteCourse kind turns r) : i.Recovers turns r := by
  cases h with
  | deleted => exact Mends.succeeds (by simp [reported, Turn.refused?]) _
  | vanished what => exact Mends.succeeds (by simp [Turn.refused?]) _
  | failed f hf => exact Mends.fails (by simp [Turn.refused?]) List.mem_cons_self rfl

theorem StepCourse.recovers {unserved : List ChildKind} {r : Except Failure SyncOutcome}
    (hu : i.metadata.uid ≠ none) (h : i.StepCourse unserved kind turns r) :
    i.Recovers turns r := by
  cases h with
  | unserved hk => exact mends_nil.succeeds _
  | unowned f hk hd =>
    obtain ⟨uid, huid⟩ := Option.ne_none_iff_exists'.1 hu
    obtain ⟨d, hadopted, _⟩ := exists_adopted huid kind
    rw [hadopted] at hd
    cases hd
  | unread f hk => exact Mends.fails (by simp [Turn.refused?]) List.mem_cons_self rfl
  | absent hk hd => exact Mends.succeeds (by simp [Turn.refused?]) _
  | inSync o d hk hd hlive hfits => exact Mends.succeeds (by simp [Turn.refused?]) _
  | waits o hk hgoing => exact Mends.succeeds (by simp [Turn.refused?]) _
  | creates d hk hd hcreate => exact hcreate.recovers.cons rfl
  | updates o d hk hd hlive hdrift hupdate => exact hupdate.recovers.cons rfl
  | deletes o hk hd hlive hdelete => exact hdelete.recovers.cons rfl

theorem syncChildren_recovers (hu : i.metadata.uid ≠ none) (unserved kinds : List ChildKind) :
    (i.syncChildren unserved kinds).Ensures i.Recovers := by
  induction kinds with
  | nil => exact recovers_pure _
  | cons kind rest ih =>
    unfold syncChildren
    have hstep : (i.syncChild unserved kind).Ensures i.Recovers :=
      (i.syncChild_courses kind unserved).mono fun _ _ h => h.recovers hu
    refine recovers_bind hstep fun outcome => ?_
    split
    · exact recovers_pure _
    · exact ih

/-! ### The status and the whole pass -/

theorem decoded_recovers (value : Option α) : (decoded value).Ensures i.Recovers := by
  cases value with
  | none =>
    rw [decoded, Action.ensures_fail]
    refine ⟨fun f hf => ?_, trivial⟩
    cases hf
    exact .undecoded
  | some a => exact recovers_pure a

theorem exposureUrl_recovers : i.exposureUrl.Ensures i.Recovers := by
  unfold exposureUrl
  split
  · exact recovers_pure _
  all_goals
    refine recovers_bind (recovers_call rfl) fun found => ?_
    cases found with
    | none => exact recovers_pure _
    | some m => exact recovers_bind (decoded_recovers _) fun _ => recovers_pure _

theorem writeStatus_recovers (status : Status) : (i.writeStatus status).Ensures i.Recovers := by
  unfold writeStatus
  split
  · exact recovers_pure _
  · refine recovers_bind (recovers_call rfl) fun latest => ?_
    cases latest with
    | none => exact recovers_pure _
    | some record =>
      refine recovers_bind (recovers_call rfl) fun _ => ?_
      exact recovers_bind (recovers_emit _) fun _ => recovers_pure _

theorem ensureStatus_recovers : i.ensureStatus.Ensures i.Recovers := by
  have hcompute : i.computeStatus.Ensures i.Recovers := by
    unfold computeStatus
    refine recovers_bind (recovers_call rfl) fun found => ?_
    refine recovers_bind (decoded_recovers _) fun pods => ?_
    exact recovers_bind exposureUrl_recovers fun url => recovers_pure _
  unfold ensureStatus
  refine recovers_bind hcompute fun status => ?_
  exact recovers_bind (recovers_emit _) fun _ => writeStatus_recovers status

theorem reject_recovers (violation : Violation) : (i.reject violation).Ensures i.Recovers := by
  unfold reject
  refine recovers_bind (writeStatus_recovers _) fun outcome => ?_
  dsimp only
  split
  · exact recovers_bind (recovers_emit _) fun _ => recovers_pure _
  · exact recovers_pure _

/-- A pass over a record with a uid mends every refused update, and fails for a cause. -/
theorem pass_recovers (hu : i.metadata.uid ≠ none) (unserved : List ChildKind) :
    (i.pass unserved).Ensures i.Recovers := by
  unfold pass
  split
  · exact reject_recovers _
  · refine recovers_bind (syncChildren_recovers hu unserved ChildKind.all) fun ended => ?_
    split
    · exact recovers_pure _
    · refine recovers_bind ensureStatus_recovers fun outcome => ?_
      cases outcome with
      | written => exact recovers_pure _
      | unchanged => exact recovers_pure _

end Instance

/-! ### Races and trouble that passes -/

def Refusal.isPassing (r : Refusal) : Bool :=
  r.code == 404 || r.code == 409 || r.code == 429 || r.code ≥ 500

namespace Failure

def isUndecoded : Failure → Bool
  | .serialization | .unreadableReply => true
  | _ => false

theorem isRetryable_about {r : Refusal} (h : r.isPassing = true) (what : String) :
    (about what (.refused r)).isRetryable = true := by
  have hcodes : ((r.code = 404 ∨ r.code = 409) ∨ r.code = 429) ∨ 500 ≤ r.code := by
    simpa [Refusal.isPassing] using h
  rcases hcodes with ((hunknown | hconflict) | hbusy) | hbroken
  · simp [about, hunknown, isRetryable]
  · by_cases hreason : r.reason = "AlreadyExists" <;>
      simp [about, hconflict, hreason, isRetryable]
  · simp [about, hbusy, isRetryable]
  · have hother (code : UInt16) (hcode : ¬ 500 ≤ code) : r.code ≠ code :=
      fun he => hcode (he ▸ hbroken)
    have h404 := hother 404 (by decide)
    have h409 := hother 409 (by decide)
    have h422 := hother 422 (by decide)
    simp [about, h404, h409, h422, isRetryable, hbroken]

theorem about_eq_invalid_iff (r : Refusal) (what : String) :
    (∃ why, about what (.refused r) = .invalid why) ↔ r.code = 422 := by
  by_cases hinvalid : r.code = 422
  · simp [about, hinvalid]
  · by_cases hunknown : r.code = 404
    · simp [about, hunknown]
    · by_cases hconflict : r.code = 409
      · by_cases hreason : r.reason = "AlreadyExists" <;> simp [about, hconflict, hreason]
      · simp [about, hunknown, hconflict, hinvalid]

theorem about_ne_missingField (r : Refusal) (what field : String) :
    about what (.refused r) ≠ .missingField field := by
  grind [about]

end Failure

namespace Remote.Trip
variable {t : Trip} {f : Failure}

/-- Whether a call fails in a way that passes: its request or its reply is lost, a refusal tells of
a race or of a server in trouble, an update of a child is refused as invalid, or something that is
read is no object of its type.  What lacks a name is not sent, so that it is no failing request. -/
inductive Mild (t : Trip) : Failure → Prop
  | lost {f : Failure} {text : String} (h : t.reply? = some (.lost text)) : Mild t f
  | refused {f : Failure} {r : Refusal} (h : t.refusal? = some r) (hr : r.isPassing = true) :
      Mild t f
  | invalid {f : Failure} (h : t.code? = some 422) (hc : t.call.isReplace = true) : Mild t f
  | unreadable (hc : t.call.isRead = true) : Mild t .unreadableReply
  | unsent (field : String) : Mild t (.missingField field)

theorem eq_invalid_iff (h : IsAddressed t.call) (hf : t.answer = .error f) :
    (∃ why, f = .invalid why) ↔ t.code? = some 422 := by
  rcases t.failures h hf with ⟨hnone, rfl⟩ | ⟨text, hlost, rfl⟩ | ⟨r, what, hr, rfl⟩ | ⟨hnone, rfl⟩
  · simp [code?, refusal?, hnone]
  · simp [code?, refusal?, hlost, Reply.refusal?]
  · rw [Failure.about_eq_invalid_iff, code?, hr]
    simp
  · simp [code?, hnone]

/-- A failure that passes is retried, unless it is an update that is refused or something that could
not be read. -/
theorem Mild.isRetryable (hmild : t.Mild f) (h : IsAddressed t.call) (hf : t.answer = .error f)
    (hinvalid : t.call.isReplace = true → ∀ why, f ≠ .invalid why) (hread : f.isUndecoded = false) :
    f.isRetryable = true := by
  rcases t.failures h hf with ⟨hnone, he⟩ | ⟨text, hlost, rfl⟩ | ⟨r, what, hr, he⟩ | ⟨hnone, rfl⟩
  · cases hmild with
    | lost hlost => cases hnone.symm.trans hlost
    | refused hr => simp [refusal?, hnone] at hr
    | invalid hcode => simp [code?, refusal?, hnone] at hcode
    | unreadable => cases he
    | unsent => cases he
  · rfl
  · cases hmild with
    | lost hlost => simp [refusal?, hlost, Reply.refusal?] at hr
    | refused hr' hpassing =>
      obtain rfl := Option.some.inj (hr'.symm.trans hr)
      exact he ▸ Failure.isRetryable_about hpassing what
    | invalid hcode hcall =>
      obtain ⟨why, hwhy⟩ := (eq_invalid_iff h hf).2 hcode
      exact absurd hwhy (hinvalid hcall why)
    | unreadable => cases hread
    | unsent field => exact absurd he.symm (Failure.about_ne_missingField r what field)
  · cases hread

end Remote.Trip
namespace Instance
variable {i : Instance}

structure IsStored (i : Instance) : Prop where
  uid : i.metadata.uid ≠ none
  name : i.metadata.name ≠ none
  ns : i.metadata.ns ≠ none

/-- The children of a stored record name themselves as they have to. -/
theorem IsStored.target (h : i.IsStored) {child : ChildKind} {d m : Manifest}
    (hd : i.adopted child = .ok (some d)) (hname : m.metadata.name = d.metadata.name)
    (hns : m.metadata.ns = d.metadata.ns) (kind : Kind) : Remote.target kind m = .ok i.key := by
  obtain ⟨owner, hmetadata⟩ := metadata_adopted hd
  obtain ⟨ns, hrecord⟩ := Option.ne_none_iff_exists'.1 h.ns
  have hnamed : m.metadata.name = some i.name := by rw [hname, hmetadata]; rfl
  have hplaced : m.metadata.ns = some ns := by rw [hns, hmetadata, ← hrecord]; rfl
  rw [Remote.target, hnamed, hplaced, key, hrecord]
  rfl

theorem IsStored.isAddressed (h : i.IsStored) {unserved : List ChildKind} {c : StoreCall}
    (hc : i.PassCall unserved c) : Remote.IsAddressed c := by
  cases hc with
  | child child hserved hcall =>
    cases hcall with
    | get => trivial
    | create d hd => exact ⟨i.key, h.target hd rfl rfl _⟩
    | replace d o hd => exact ⟨i.key, h.target hd rfl rfl _⟩
    | delete => trivial
  | status hcall =>
    cases hcall with
    | pods => trivial
    | exposing child hchild => trivial
    | record hcall => cases hcall <;> trivial

end Instance

namespace Context
variable {ctx : Context} {key : Key} {turns : List Turn} {r : Except Failure PassOutcome}

def FindsStored (key : Key) (turns : List Turn) : Prop :=
  ∀ i rest, turns = ⟨.call (.getInstance key), .ok (some i)⟩ :: rest → i.IsStored

/-- A pass that does not find its record ends there. -/
theorem pass_begins (h : (ctx.pass key).run.Runs turns r) :
    (∃ e, turns = [⟨.call (.getInstance key), .error e⟩] ∧ r = .error e) ∨
    (turns = [⟨.call (.getInstance key), .ok none⟩] ∧ r = .ok .missing) ∨
    ∃ i rest, turns = ⟨.call (.getInstance key), .ok (some i)⟩ :: rest ∧
      (i.pass ctx.unserved).run.Runs rest r := by
  obtain ⟨a, rest, rfl, hrest⟩ := h
  cases a with
  | error e =>
    obtain ⟨rfl, rfl⟩ := hrest
    exact Or.inl ⟨e, rfl, rfl⟩
  | ok found =>
    cases found with
    | none =>
      obtain ⟨rfl, rfl⟩ := hrest
      exact Or.inr (Or.inl ⟨rfl, rfl⟩)
    | some i => exact Or.inr (Or.inr ⟨i, rest, rfl, hrest⟩)

theorem pass_cause (h : (ctx.pass key).run.Runs turns r) (hstored : FindsStored key turns)
    {f : Failure} (hf : r = .error f) : Cause turns f := by
  rcases ctx.pass_begins h with ⟨e, rfl, rfl⟩ | ⟨rfl, rfl⟩ | ⟨i, rest, rfl, hrest⟩
  · cases hf
    exact .call List.mem_cons_self nofun
  · cases hf
  · have hrecovers := Instance.pass_recovers (hstored i rest rfl).uid ctx.unserved rest r hrest
    exact (hrecovers.cause f hf).mono (List.subset_cons_self _ rest)

theorem pass_isAddressed (h : (ctx.pass key).run.Runs turns r) (hstored : FindsStored key turns)
    {c : StoreCall} {a : Query.Answer (.call c)} (hmem : (⟨.call c, a⟩ : Turn) ∈ turns) :
    Remote.IsAddressed c := by
  rcases ctx.pass_begins h with ⟨e, rfl, rfl⟩ | ⟨rfl, rfl⟩ | ⟨i, rest, rfl, hrest⟩
  · cases List.mem_singleton.1 hmem
    trivial
  · cases List.mem_singleton.1 hmem
    trivial
  · cases List.mem_cons.1 hmem with
    | inl he =>
      cases he
      trivial
    | inr hlater =>
      have hcall := (i.pass_calls ctx.unserved).of_runs hrest hlater
      exact (hstored i rest rfl).isAddressed hcall

/-- A refused update is followed by the deletion of what was to be replaced. -/
theorem pass_mends (h : (ctx.pass key).run.Runs turns r) (hstored : FindsStored key turns)
    {kind : Kind} {m : Manifest} {why : String} {earlier later : List Turn}
    (hturns : turns = earlier ++ ⟨.call (.replace kind m), .error (.invalid why)⟩ :: later) :
    ∃ place a rest, Remote.target kind m = .ok place ∧
      later = ⟨.call (.delete kind place graceSeconds), a⟩ :: rest := by
  rw [hturns] at h hstored
  obtain ⟨i, first, rfl, ⟨child, o, d, rfl, -, -, hd, -, rfl⟩, -⟩ := pass_replace h
  have hi := hstored i _ rfl
  have hrest := (ctx.runs_pass_of_found key i _ r).1 h
  have hmends := (Instance.pass_recovers hi.uid ctx.unserved _ r hrest).mends
  obtain ⟨⟨q, a⟩, rest, rfl, rfl⟩ := hmends.delete rfl
  exact ⟨i.key, a, rest, hi.target hd rfl rfl _, rfl⟩

variable {steps : List Remote.Step}

/-- The requests of a pass may be lost, be refused because of a race or of a server in trouble, or
be refused as updates of children, and what is read may be no such object: then a pass over a stored
record fails only with what is retried after the configured interval, unless something could not be
read.  Of the updates that fail, those with code 422 are followed by the deletion of what was to be
replaced, and all others end the pass; what is looked up and answered with code 404 is absent. -/
theorem races_are_retried (h : (ctx.pass key).run.Runs (steps.map Remote.Step.turn) r)
    (hstored : FindsStored key (steps.map Remote.Step.turn))
    (hmild : ∀ t f, Remote.Step.trip t ∈ steps → t.answer = .error f → t.Mild f) :
    (∀ f, r = .error f → f.isUndecoded = false → f.isRetryable = true ∧
      ∀ turns seconds, (ctx.afterFailure key f).Runs turns seconds →
        seconds = ctx.requeueSeconds) ∧
    (∀ earlier t later kind m f, steps = earlier ++ .trip t :: later →
      t.call = .replace kind m → t.answer = .error f →
      (t.code? = some 422 → ∃ place next rest, Remote.target kind m = .ok place ∧
        later = .trip next :: rest ∧ next.call = .delete kind place graceSeconds) ∧
      (t.code? ≠ some 422 → later = [] ∧ r = .error f)) ∧
    (∀ t a, Remote.Step.trip t ∈ steps → t.code? = some 404 → Remote.absent? t.call = some a →
      t.answer = .ok a) := by
  have haddressed (t : Remote.Trip) (ht : Remote.Step.trip t ∈ steps) :
      Remote.IsAddressed t.call :=
    pass_isAddressed h hstored (List.mem_map_of_mem ht)
  refine ⟨fun f hf hread => ?_, fun earlier t later kind m f hsteps hcall hanswer => ?_,
    fun t a ht hcode habsent => ?_⟩
  · have hretryable : f.isRetryable = true := by
      cases pass_cause h hstored hf with
      | undecoded => cases hread
      | gone what => rfl
      | call hmem hc =>
        obtain ⟨step, hstep, hturn⟩ := List.mem_map.1 hmem
        obtain ⟨exchanges, made, rfl⟩ := Remote.Step.exists_of_turn hturn
        exact (hmild _ f hstep rfl).isRetryable (haddressed _ hstep) rfl hc hread
    refine ⟨hretryable, ?_⟩
    rintro turns seconds ⟨_, rest, rfl, rfl, rfl⟩
    exact if_pos hretryable
  · obtain ⟨c, exchanges, answer, made⟩ := t
    subst hcall
    obtain rfl : answer = (.error f : Except Failure Manifest) := hanswer
    have hmem : Remote.Step.trip ⟨.replace kind m, exchanges, .error f, made⟩ ∈ steps := by
      rw [hsteps]
      exact List.mem_append_right earlier List.mem_cons_self
    have hcode := Remote.Trip.eq_invalid_iff (haddressed _ hmem) rfl
    have hturns : steps.map Remote.Step.turn = earlier.map Remote.Step.turn ++
        ⟨.call (.replace kind m), .error f⟩ :: later.map Remote.Step.turn := by
      rw [hsteps, List.map_append, List.map_cons]
      rfl
    constructor
    · intro hrefused
      obtain ⟨why, rfl⟩ := hcode.2 hrefused
      obtain ⟨place, a, rest, htarget, hlater⟩ := pass_mends h hstored hturns
      obtain ⟨step, more, rfl, hstep, -⟩ := List.map_eq_cons_iff.1 hlater
      obtain ⟨_, _, rfl⟩ := Remote.Step.exists_of_turn hstep
      exact ⟨place, _, more, htarget, rfl, rfl⟩
    · intro hother
      rw [hturns] at h
      obtain ⟨_, _, -, -, hends⟩ := pass_replace h
      obtain ⟨hnil, hr⟩ := hends f rfl fun why he => hother (hcode.1 ⟨why, he⟩)
      exact ⟨List.map_eq_nil_iff.1 hnil, hr⟩
  · obtain ⟨refusal, hrefusal, hr⟩ := Option.map_eq_some_iff.1 hcode
    exact (t.refused (haddressed t ht) hrefusal).eq_absent hr habsent

/-- An update of the deployment is refused, and so is its deletion, since another writer is at work:
the pass fails and is run again ten seconds later. -/
theorem races_are_retried_refusedUpdate :
    let record : Instance :=
      ⟨{ name := some "mh", ns := some "mail", uid := some "u1" }, {}, none⟩
    let o : Manifest := ⟨none, {}, []⟩
    let d := record.deployment.toManifest.adoptedBy
      ⟨Instance.apiVersion, Instance.kindName, record.name, "u1", some true, some true⟩
    let turns : List Turn := [
      ⟨.call (.getInstance record.key), .ok (some record)⟩,
      ⟨.call (.get .deployment record.key), .ok (some o)⟩,
      ⟨.call (.replace .deployment (d.replacementFor o)),
        .error (.invalid "Deployment mail/mh: \"fixed\"")⟩,
      ⟨.call (.delete .deployment record.key graceSeconds),
        .error (.conflict "Deployment mail/mh: \"busy\"")⟩]
    let f : Failure := .conflict "Deployment mail/mh: \"busy\""
    record.IsStored ∧ (Context.pass {} record.key).run.Runs turns (.error f) ∧
      ∃ found seen refused kept : Remote.Trip,
        [.trip found, .trip seen, .trip refused, .trip kept].map Remote.Step.turn = turns ∧
        refused.code? = some 422 ∧ kept.code? = some 409 ∧ kept.Mild f ∧
        (∃ place, Remote.target .deployment (d.replacementFor o) = .ok place ∧
          kept.call = .delete .deployment place graceSeconds) ∧
        f.isRetryable = true ∧ ∀ turns seconds,
          (Context.afterFailure {} record.key f).Runs turns seconds → seconds = 10 := by
  have hfound : (Remote.client (.getInstance ⟨"mail", "mh"⟩)).run.Runs
      [⟨.send ⟨.get,
          "/apis/mailhog.operators.patrick.mx/v1alpha1/namespaces/mail/mailhoginstances/mh", none⟩,
        .received 200
          ("\x7b\"metadata\":\x7b\"name\":\"mh\",\"namespace\":\"mail\",\"uid\":\"u1\"\x7d," ++
            "\"spec\":\x7b\x7d\x7d")⟩]
      (.ok (some ⟨{ name := some "mh", ns := some "mail", uid := some "u1" }, {}, none⟩)) :=
    ⟨_, [], rfl, rfl, rfl⟩
  have hseen : (Remote.client (.get .deployment ⟨"mail", "mh"⟩)).run.Runs
      [⟨.send ⟨.get, "/apis/apps/v1/namespaces/mail/deployments/mh", none⟩,
        .received 200 "\x7b\x7d"⟩]
      (.ok (some ⟨none, {}, []⟩)) := ⟨_, [], rfl, rfl, rfl⟩
  have hrefused (m : Manifest) (hm : Remote.target .deployment m = .ok ⟨"mail", "mh"⟩) :
      ∃ t : Remote.Trip, Remote.Step.turn (.trip t) = ⟨.call (.replace .deployment m),
        .error (.invalid "Deployment mail/mh: \"fixed\"")⟩ ∧ t.call = .replace .deployment m ∧
        t.answer = .error (.invalid "Deployment mail/mh: \"fixed\"") ∧ t.code? = some 422 := by
    have hsent : (Remote.client (.replace .deployment m)).run.Runs
        [⟨.send ⟨.put, "/apis/apps/v1/namespaces/mail/deployments/mh?", some m.toJson⟩,
          .received 422 "fixed"⟩]
        (.error (.invalid "Deployment mail/mh: \"fixed\"")) := by
      rw [Remote.client, hm]
      exact ⟨_, [], rfl, rfl, rfl⟩
    exact ⟨⟨_, _, _, hsent⟩, rfl, rfl, rfl, rfl⟩
  have hkept : (Remote.client (.delete .deployment ⟨"mail", "mh"⟩ graceSeconds)).run.Runs
      [⟨.send ⟨.delete, "/apis/apps/v1/namespaces/mail/deployments/mh?",
          some (.obj [("gracePeriodSeconds", .int 100)])⟩,
        .received 409 "busy"⟩]
      (.error (.conflict "Deployment mail/mh: \"busy\"")) := ⟨_, [], rfl, rfl, rfl⟩
  intro record o d turns f
  have hstored : record.IsStored := ⟨by simp [record], by simp [record], by simp [record]⟩
  have hd : record.adopted .deployment = .ok (some d) := rfl
  have htarget : Remote.target .deployment (d.replacementFor o) = .ok record.key :=
    hstored.target hd rfl rfl .deployment
  let found : Remote.Trip := ⟨_, _, _, hfound⟩
  let seen : Remote.Trip := ⟨_, _, _, hseen⟩
  obtain ⟨refused, hturn, hcall, hanswer, hcode⟩ := hrefused _ htarget
  let kept : Remote.Trip := ⟨_, _, _, hkept⟩
  have hrun : (Context.pass {} record.key).run.Runs turns (.error f) := by
    have hdrift : o.needsUpdate d = true := by decide +kernel
    have hclass : classify (some o) (some d) = .stale (d.replacementFor o) := by
      show (if o.needsUpdate d then ChildState.stale _ else .inSync) = _
      rw [if_pos hdrift]
      rfl
    refine ⟨_, _, rfl, _, _, rfl, ?_⟩
    simp only [d] at hclass
    simp only [Prog.bind, ExceptT.bindCont, hclass]
    exact ⟨_, _, rfl, _, _, rfl, rfl, rfl⟩
  let steps : List Remote.Step := [.trip found, .trip seen, .trip refused, .trip kept]
  have hsteps : steps.map Remote.Step.turn = turns := by
    rw [List.map_cons, List.map_cons, List.map_cons, hturn]
    rfl
  have hkeptMild : kept.Mild f := .refused (r := Refusal.ofReply 409 "busy") rfl (by decide +kernel)
  have hmild (t : Remote.Trip) (g : Failure) (ht : Remote.Step.trip t ∈ steps)
      (hfails : t.answer = .error g) : t.Mild g := by
    simp only [steps, List.mem_cons, Remote.Step.trip.injEq, List.not_mem_nil, or_false] at ht
    rcases ht with rfl | rfl | rfl | rfl
    · cases hfails
    · cases hfails
    · exact .invalid hcode (by rw [hcall]; rfl)
    · cases hfails
      exact hkeptMild
  have hfinds : FindsStored record.key (steps.map Remote.Step.turn) := by
    rw [hsteps]
    intro i rest hturns
    obtain ⟨hread, -⟩ := List.cons.inj hturns
    have hi : record = i :=
      Option.some.inj (Except.ok.inj (eq_of_heq (Sigma.mk.inj hread).2))
    exact hi ▸ hstored
  obtain ⟨hretried, hdeleted, -⟩ := races_are_retried (hsteps ▸ hrun) hfinds hmild
  obtain ⟨hretryable, hafter⟩ := hretried f rfl rfl
  obtain ⟨place, next, rest, hplace, hnext, hdelete⟩ :=
    (hdeleted [.trip found, .trip seen] refused [.trip kept] _ _ _ rfl hcall hanswer).1 hcode
  obtain rfl : kept = next := Remote.Step.trip.inj (List.cons.inj hnext).1
  exact ⟨hstored, hrun, found, seen, refused, kept, hsteps, hcode, rfl, hkeptMild,
    ⟨place, hplace, hdelete⟩, hretryable, hafter⟩

end Context
end MailCapture
