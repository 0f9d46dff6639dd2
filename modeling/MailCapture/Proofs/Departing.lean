import MailCapture.Proofs.Courses
import MailCapture.Proofs.Overwriting
/-!
Children that the server is deleting.  Once a step has seen that its child is being deleted, the
pass neither writes nor reports that child any more: it waits if the child is wanted and goes on to
the next one otherwise.
-/
namespace MailCapture

/-! ### Turns about a child -/

namespace Query

def Writes (kind : Kind) : Query → Prop
  | .call (.create k _) => k = kind
  | .call (.replace k _) => k = kind
  | .call (.delete k _ _) => k = kind
  | _ => False

def Reports (i : Instance) (kind : ChildKind) : Query → Prop
  | .emit (.childWritten k _) => k = kind
  | .emit (.event e) => ∃ verb reason, e = i.childEvent kind verb reason
  | _ => False

def Treats (i : Instance) (kind : ChildKind) : Query → Prop
  | .call c => c.kind? = some kind.kind
  | .emit e => (∃ verb, e = .childWritten kind verb) ∨
      ∃ verb reason, e = .event (i.childEvent kind verb reason)

end Query

/-- The name of a kind is what stands before the first blank of a note. -/
theorem ChildKind.takeWhile_name (kind : ChildKind) (rest : List Char) :
    (kind.name.toList ++ ' ' :: rest).takeWhile (· ≠ ' ') = kind.name.toList := by
  cases kind <;> rfl

theorem ChildKind.name_inj {a b : ChildKind} (h : a.name = b.name) : a = b := by
  cases a <;> cases b <;> first | rfl | exact absurd h (by decide)

namespace Instance
variable {i : Instance} {kind : ChildKind} {unserved : List ChildKind} {turns : List Turn}

/-- An event tells of which kind the child is that was written. -/
theorem kind_of_childEvent {k : ChildKind} {verb v : Verb} {reason why : String}
    (h : i.childEvent kind verb reason = i.childEvent k v why) : kind = k := by
  have hnote : kind.name ++ " " ++ i.name ++ " " ++ verb.text ++ "d" =
      k.name ++ " " ++ i.name ++ " " ++ v.text ++ "d" := Option.some.inj (congrArg Event.note h)
  obtain ⟨rest, hrest⟩ : ∃ rest, (kind.name ++ " " ++ i.name ++ " " ++ verb.text ++ "d").toList =
      kind.name.toList ++ ' ' :: rest :=
    ⟨i.name.toList ++ ' ' :: (verb.text.toList ++ ['d']), by simp⟩
  obtain ⟨last, hlast⟩ : ∃ last, (k.name ++ " " ++ i.name ++ " " ++ v.text ++ "d").toList =
      k.name.toList ++ ' ' :: last :=
    ⟨i.name.toList ++ ' ' :: (v.text.toList ++ ['d']), by simp⟩
  apply ChildKind.name_inj
  apply String.toList_inj.1
  rw [← kind.takeWhile_name rest, ← k.takeWhile_name last, ← hrest, ← hlast, hnote]

@[simp] theorem treats_call (c : StoreCall) :
    (Query.call c).Treats i kind ↔ c.kind? = some kind.kind := Iff.rfl

@[simp] theorem treats_childWritten (verb : Verb) :
    (Query.emit (.childWritten kind verb)).Treats i kind := Or.inl ⟨verb, rfl⟩

@[simp] theorem treats_childEvent (verb : Verb) (reason : String) :
    (Query.emit (.event (i.childEvent kind verb reason))).Treats i kind :=
  Or.inr ⟨verb, reason, rfl⟩

/-- What treats the child of one kind neither writes nor reports that of another. -/
theorem not_writes_of_treats {k : ChildKind} {q : Query} (h : q.Treats i k) (hne : k ≠ kind) :
    ¬ q.Writes kind.kind ∧ ¬ q.Reports i kind := by
  cases q with
  | call c =>
    refine ⟨fun hwrites => hne (ChildKind.kind_inj ?_), id⟩
    have hkind : c.kind? = some kind.kind := by
      cases c <;> first | exact congrArg some hwrites | exact hwrites.elim
    exact Option.some.inj (h.symm.trans hkind)
  | emit e =>
    refine ⟨id, fun hreports => hne ?_⟩
    rcases h with ⟨verb, rfl⟩ | ⟨verb, reason, rfl⟩
    · exact hreports
    · obtain ⟨v, why, he⟩ := hreports
      exact kind_of_childEvent he

section
variable {r : Except Failure SyncOutcome}

theorem UpdateCourse.treats {m : Manifest} (h : i.UpdateCourse kind m turns r) :
    ∀ turn ∈ turns, turn.1.Treats i kind := by
  cases h <;> simp [reported, StoreCall.kind?]

theorem CreateCourse.treats {d : Manifest} (h : i.CreateCourse kind d turns r) :
    ∀ turn ∈ turns, turn.1.Treats i kind := by
  cases h with
  | updates what o _ _ hupdate =>
    rw [List.forall_mem_cons, List.forall_mem_cons]
    exact ⟨rfl, rfl, hupdate.treats⟩
  | _ => simp [reported, StoreCall.kind?]

theorem DeleteCourse.treats (h : i.DeleteCourse kind turns r) :
    ∀ turn ∈ turns, turn.1.Treats i kind := by
  cases h <;> simp [reported, StoreCall.kind?]

theorem UpdateCourse.no_gets {m : Manifest} (h : i.UpdateCourse kind m turns r) (k : Kind) :
    ∀ turn ∈ turns, ¬ Turn.Gets turn k := by
  cases h <;> simp [reported, Turn.gets_iff]

theorem DeleteCourse.no_gets (h : i.DeleteCourse kind turns r) (k : Kind) :
    ∀ turn ∈ turns, ¬ Turn.Gets turn k := by
  cases h <;> simp [reported, Turn.gets_iff]

theorem StepCourse.treats (h : i.StepCourse unserved kind turns r) :
    ∀ turn ∈ turns, turn.1.Treats i kind := by
  cases h with
  | creates d _ _ hcreate => exact List.forall_mem_cons.2 ⟨rfl, hcreate.treats⟩
  | updates o d _ _ _ _ hupdate => exact List.forall_mem_cons.2 ⟨rfl, hupdate.treats⟩
  | deletes o _ _ _ hdelete => exact List.forall_mem_cons.2 ⟨rfl, hdelete.treats⟩
  | _ => simp [StoreCall.kind?]

end

theorem ChildrenCourse.treats {kinds : List ChildKind} {r : Except Failure Bool}
    (h : i.ChildrenCourse unserved kinds turns r) :
    ∀ turn ∈ turns, ∃ k ∈ kinds, turn.1.Treats i k := by
  induction h with
  | done => simp
  | failed hstep =>
    intro turn hmem
    exact ⟨_, List.mem_cons_self, hstep.treats turn hmem⟩
  | ended hstep _ =>
    intro turn hmem
    exact ⟨_, List.mem_cons_self, hstep.treats turn hmem⟩
  | next hstep _ ih =>
    intro turn hmem
    cases List.mem_append.1 hmem with
    | inl hfirst => exact ⟨_, List.mem_cons_self, hstep.treats turn hfirst⟩
    | inr hmore =>
      obtain ⟨k, hk, htreats⟩ := ih turn hmore
      exact ⟨k, List.mem_cons_of_mem _ hk, htreats⟩

/-- The status step neither writes nor reports a child. -/
theorem StatusCourse.not_writes {r : Except Failure StatusOutcome} (h : i.StatusCourse turns r)
    (kind : ChildKind) : ∀ turn ∈ turns, ¬ turn.1.Writes kind.kind ∧ ¬ turn.1.Reports i kind := by
  have hcompute {first : List Turn} {s : Except Failure Status} (hc : i.ComputeCourse first s) :
      ∀ turn ∈ first, ¬ turn.1.Writes kind.kind ∧ ¬ turn.1.Reports i kind := by
    cases hc <;> simp [Query.Writes, Query.Reports]
  cases h with
  | uncomputed hc => exact hcompute hc
  | computed hc hwrite =>
    rw [List.forall_mem_append]
    refine ⟨hcompute hc, ?_⟩
    cases hwrite <;> simp [Query.Writes, Query.Reports]

/-- From some kinds on the children of all others are left alone. -/
theorem TailCourse.not_writes {kinds : List ChildKind} {r : Except Failure PassOutcome}
    (h : i.TailCourse unserved kinds turns r) (hk : kind ∉ kinds) :
    ∀ turn ∈ turns, ¬ turn.1.Writes kind.kind ∧ ¬ turn.1.Reports i kind := by
  have hothers {first : List Turn} {s : Except Failure Bool}
      (hc : i.ChildrenCourse unserved kinds first s) :
      ∀ turn ∈ first, ¬ turn.1.Writes kind.kind ∧ ¬ turn.1.Reports i kind := by
    intro turn hmem
    obtain ⟨k, hmem', htreats⟩ := hc.treats turn hmem
    exact not_writes_of_treats htreats fun he => hk (he ▸ hmem')
  cases h with
  | failed hc => exact hothers hc
  | ended hc => exact hothers hc
  | settled hc hstatus =>
    intro turn hmem
    cases List.mem_append.1 hmem with
    | inl hfirst => exact hothers hc turn hfirst
    | inr hmore => exact hstatus.not_writes kind turn hmore

/-! ### The step that sees a deletion -/

section
variable {o : Manifest} {r : Except Failure SyncOutcome}

/-- Whether the turns of a step end with the read of an object and report nothing. -/
structure EndsWithRead (i : Instance) (kind : ChildKind) (o : Manifest) (turns : List Turn) :
    Prop where
  read : ∃ earlier, turns = earlier ++ [⟨.call (.get kind.kind i.key), .ok (some o)⟩]
  silent : ∀ turn ∈ turns, ¬ turn.1.Reports i kind

theorem CreateCourse.of_going {d : Manifest} (h : i.CreateCourse kind d turns r)
    (hlast : LastGet kind.kind i.key o turns) (hgoing : o.isTerminating = true) :
    i.EndsWithRead kind o turns ∧ r = .ok .waiting := by
  have hone (what : String) (found : Option Manifest) (more : List Turn)
      (hmore : ∀ turn ∈ more, ¬ Turn.Gets turn kind.kind)
      (hl : LastGet kind.kind i.key o
        (⟨.call (.create kind.kind d.stamp), .error (.alreadyExists what)⟩ ::
          ⟨.call (.get kind.kind i.key), .ok found⟩ :: more)) : found = some o := by
    rw [lastGet_cons, lastGet_cons_of_no_gets hmore] at hl
    rcases hl with hl | ⟨hl, _⟩
    · cases hl
      rfl
    · cases hl
  cases h with
  | created stored =>
    rw [lastGet_cons_of_no_gets (by simp [reported, Turn.gets_iff])] at hlast
    cases hlast
  | failed f _ =>
    rw [lastGet_cons_of_no_gets (by simp)] at hlast
    cases hlast
  | unread what f =>
    rw [lastGet_cons, lastGet_cons_of_no_gets (by simp)] at hlast
    rcases hlast with hlast | ⟨hlast, _⟩ <;> cases hlast
  | vanished what => cases hone what none [] (by simp) hlast
  | kept what found hlive _ =>
    cases hone what (some found) [] (by simp) hlast
    rw [hgoing] at hlive
    cases hlive
  | waits what found _ =>
    cases hone what (some found) [] (by simp) hlast
    exact ⟨⟨⟨[_], rfl⟩, by simp [Query.Reports]⟩, rfl⟩
  | updates what found hlive _ hupdate =>
    cases hone what (some found) _ (hupdate.no_gets kind.kind) hlast
    rw [hgoing] at hlive
    cases hlive

/-- A step that has seen last that its child is being deleted ends there, without a report. -/
theorem StepCourse.of_going (h : i.StepCourse unserved kind turns r)
    (hlast : LastGet kind.kind i.key o turns) (hgoing : o.isTerminating = true) :
    i.EndsWithRead kind o turns ∧ r = .ok (awaitDeletion (kind.isSelected i.spec)) := by
  have hlive {found : Manifest} {more : List Turn} (hlive : found.isTerminating = false)
      (hmore : ∀ turn ∈ more, ¬ Turn.Gets turn kind.kind)
      (hl : LastGet kind.kind i.key o
        (⟨.call (.get kind.kind i.key), .ok (some found)⟩ :: more)) : False := by
    rw [lastGet_cons_of_no_gets hmore] at hl
    cases hl
    rw [hgoing] at hlive
    cases hlive
  cases h with
  | unserved _ => exact absurd hlast lastGet_nil
  | unowned f _ _ => exact absurd hlast lastGet_nil
  | unread f _ =>
    rw [lastGet_cons_of_no_gets (by simp)] at hlast
    cases hlast
  | absent _ _ =>
    rw [lastGet_cons_of_no_gets (by simp)] at hlast
    cases hlast
  | inSync found d _ _ hl _ => exact (hlive hl (by simp) hlast).elim
  | waits found _ _ =>
    rw [lastGet_cons_of_no_gets (by simp)] at hlast
    cases hlast
    exact ⟨⟨⟨[], rfl⟩, by simp [Query.Reports]⟩, rfl⟩
  | creates d _ hd hcreate =>
    rw [lastGet_cons] at hlast
    rcases hlast with hlast | ⟨hlast, _⟩
    · obtain ⟨⟨⟨earlier, hread⟩, hsilent⟩, rfl⟩ := hcreate.of_going hlast hgoing
      refine ⟨⟨⟨_ :: earlier, by rw [hread, List.cons_append]⟩, ?_⟩, ?_⟩
      · exact List.forall_mem_cons.2 ⟨id, hsilent⟩
      · rw [← isSelected_of_adopted hd]
        rfl
    · cases hlast
  | updates found d _ _ hl _ hupdate => exact (hlive hl (hupdate.no_gets kind.kind) hlast).elim
  | deletes found _ _ hl hdelete => exact (hlive hl (hdelete.no_gets kind.kind) hlast).elim

end

/-! ### The pass -/

/-- Whether a pass over a record takes the step of a kind: the kinds before are brought in line in
other turns without an end of the pass, and then come the turns of the step. -/
structure TakesStep (i : Instance) (unserved first : List ChildKind) (kind : ChildKind)
    (before step : List Turn) (r : Except Failure SyncOutcome) : Prop where
  earlier : (i.syncChildren unserved first).Yields before false
  run : (i.syncChild unserved kind).run.Runs step r

/-- A pass takes the step of a kind unless it ended before. -/
theorem exists_takesStep {first rest : List ChildKind} {kind : ChildKind} {turns : List Turn}
    {result : Except Failure PassOutcome}
    (h : (i.passFrom unserved (first ++ kind :: rest)).run.Runs turns result) :
    (∃ stop, (i.syncChildren unserved first).run.Runs turns stop ∧ stop ≠ .ok false) ∨
      ∃ before step after r, turns = before ++ (step ++ after) ∧
        i.TakesStep unserved first kind before step r := by
  rw [passFrom_append, Action.run_bind, Prog.runs_bind] at h
  obtain ⟨before, stop, more, rfl, hfirst, hmore⟩ := h
  by_cases hstop : stop = .ok false
  · subst hstop
    have hnext : (i.passFrom unserved (kind :: rest)).run.Runs more result := hmore
    rw [passFrom_cons, Action.run_bind, Prog.runs_bind] at hnext
    obtain ⟨step, r, after, rfl, hstep, _⟩ := hnext
    exact Or.inr ⟨before, step, after, r, rfl, hfirst, hstep⟩
  · have hnil : more = [] := by
      cases stop with
      | error f => exact hmore.1
      | ok ended =>
        cases ended with
        | true => exact hmore.1
        | false => exact absurd rfl hstop
    rw [hnil, List.append_nil]
    exact Or.inl ⟨stop, hfirst, hstop⟩

end Instance

namespace Context
variable {i : Instance} {kind : ChildKind} {first rest : List ChildKind}

/-- A pass over a record with a valid spec takes the step of each kind unless it ended before.  When
the latest read of a step shows that the server is deleting the child, then the step ends with that
read, and the pass neither writes the child afterwards nor reports it at all.  If the child is
wanted, the step waits and the pass is progressing; otherwise nothing has changed, and the pass goes
on with the next kinds. -/
theorem pass_spares_terminating (ctx : Context) (key : Key) {turns : List Turn}
    {result : Except Failure PassOutcome} (hv : i.spec.violation? = none)
    (hall : ChildKind.all = first ++ kind :: rest)
    (hpass : (ctx.pass key).run.Runs (⟨.call (.getInstance key), .ok (some i)⟩ :: turns) result) :
    ((∃ stop, (i.syncChildren ctx.unserved first).run.Runs turns stop ∧ stop ≠ .ok false) ∨
      ∃ before step after r, turns = before ++ (step ++ after) ∧
        i.TakesStep ctx.unserved first kind before step r) ∧
    ∀ before step after r o, turns = before ++ (step ++ after) →
      i.TakesStep ctx.unserved first kind before step r →
      LastGet kind.kind i.key o step → o.isTerminating = true →
      (∃ earlier, step = earlier ++ [⟨.call (.get kind.kind i.key), .ok (some o)⟩]) ∧
        (∀ turn ∈ after, ¬ turn.1.Writes kind.kind) ∧
        (∀ turn ∈ turns, ¬ turn.1.Reports i kind) ∧
        (kind.isSelected i.spec = true →
          r = .ok .waiting ∧ after = [] ∧ result = .ok .progressing) ∧
        (kind.isSelected i.spec = false →
          r = .ok .unchanged ∧ (i.passFrom ctx.unserved rest).run.Runs after result) := by
  rw [ctx.runs_pass_of_found, Instance.pass_admitted hv, hall] at hpass
  refine ⟨Instance.exists_takesStep hpass, ?_⟩
  rintro before step after r o rfl hstep hlast hgoing
  have hnodup : (first ++ kind :: rest).Nodup := hall ▸ by decide
  obtain ⟨_, hlater, hapart⟩ := List.nodup_append.1 hnodup
  rw [Instance.passFrom_append, hstep.earlier.runs_bind, if_neg (by simp),
    Instance.passFrom_cons] at hpass
  obtain ⟨⟨hread, hsilent⟩, rfl⟩ :=
    (i.syncChild_courses kind ctx.unserved step r hstep.run).of_going hlast hgoing
  have hbefore : ∀ turn ∈ before, ¬ turn.1.Reports i kind := by
    intro turn hmem
    obtain ⟨k, hk, htreats⟩ :=
      (i.syncChildren_courses ctx.unserved first before _ hstep.earlier).treats turn hmem
    exact (Instance.not_writes_of_treats htreats (hapart k hk kind List.mem_cons_self)).2
  rw [Action.Yields.runs_bind hstep.run] at hpass
  refine ⟨hread, ?_⟩
  cases hsel : kind.isSelected i.spec with
  | true =>
    rw [hsel] at hpass
    obtain ⟨rfl, rfl⟩ := hpass
    refine ⟨by simp, ?_, fun _ => ⟨rfl, rfl, rfl⟩, (fun h => nomatch h)⟩
    rw [List.append_nil, List.forall_mem_append]
    exact ⟨hbefore, hsilent⟩
  | false =>
    rw [hsel] at hpass
    have hafter := (i.passFrom_courses ctx.unserved rest after result hpass).not_writes
      (List.nodup_cons.1 hlater).1
    refine ⟨fun turn hmem => (hafter turn hmem).1, ?_, (fun h => nomatch h), fun _ => ⟨rfl, hpass⟩⟩
    rw [List.forall_mem_append, List.forall_mem_append]
    exact ⟨hbefore, hsilent, fun turn hmem => (hafter turn hmem).2⟩

/-- Another writer creates the deployment first and deletes it again: the pass waits. -/
theorem pass_spares_terminating_lostCreate :
    let record : Instance :=
      ⟨{ name := some "mh", ns := some "mail", uid := some "u1" }, {}, none⟩
    let child := record.deployment.toManifest
    let owner : OwnerReference :=
      ⟨Instance.apiVersion, Instance.kindName, "mh", "u1", some true, some true⟩
    let going : Manifest := ⟨none, { deletionTimestamp := some ⟨0, 0⟩ }, []⟩
    let step : List Turn := [
      ⟨.call (.get .deployment record.key), .ok none⟩,
      ⟨.call (.create .deployment (child.adoptedBy owner).stamp), .error (.alreadyExists "")⟩,
      ⟨.call (.get .deployment record.key), .ok (some going)⟩]
    (Context.pass {} record.key).run.Runs
      (⟨.call (.getInstance record.key), .ok (some record)⟩ :: step) (.ok .progressing) ∧
      ∀ turn ∈ step, ¬ turn.1.Reports record .deployment := by
  intro record child owner going step
  have hrun : (Context.pass {} record.key).run.Runs
      (⟨.call (.getInstance record.key), .ok (some record)⟩ :: step) (.ok .progressing) :=
    ⟨_, _, rfl, _, _, rfl, _, _, rfl, _, _, rfl, rfl, rfl⟩
  have hstep : record.TakesStep [] [] .deployment [] step (.ok .waiting) :=
    ⟨⟨rfl, rfl⟩, _, _, rfl, _, _, rfl, _, _, rfl, rfl, rfl⟩
  have hlast : LastGet .deployment record.key going step := ⟨[_, _], [], rfl, by simp⟩
  have hgoing := (pass_spares_terminating {} record.key rfl rfl hrun).2 [] step [] _ going rfl hstep
    hlast rfl
  exact ⟨hrun, hgoing.2.2.1⟩

end Context
end MailCapture
