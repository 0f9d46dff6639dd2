import MailCapture.Proofs.Departing
import MailCapture.Proofs.Inherited
/-!
What is observed of a record does not feed back.  Two records that agree in what their children are
made from are treated alike, whatever else is in their metadata and their status: as long as the
calls on children are answered alike, both passes go the same way up to the status step.
-/
namespace MailCapture

namespace Prog
variable {Q : Type} {A : Q → Type} {α : Type}

/-- Runs of one program that are answered alike are the same. -/
theorem Runs.unique {p : Prog Q A α} {turns others : List (Turn A)} {a b : α} (h : p.Runs turns a)
    (h' : p.Runs others b)
    (halike : ∀ past q x y rest more, turns = past ++ ⟨q, x⟩ :: rest →
      others = past ++ ⟨q, y⟩ :: more → x = y) : turns = others ∧ a = b := by
  induction p generalizing turns others with
  | done value =>
    obtain ⟨rfl, rfl⟩ := h
    obtain ⟨rfl, rfl⟩ := h'
    exact ⟨rfl, rfl⟩
  | ask q next ih =>
    obtain ⟨x, rest, rfl, hrest⟩ := h
    obtain ⟨y, more, rfl, hmore⟩ := h'
    cases halike [] q x y rest more rfl rfl
    obtain ⟨rfl, rfl⟩ := ih x hrest hmore fun past r u v later after hl ha =>
      halike (⟨q, x⟩ :: past) r u v later after (congrArg _ hl) (congrArg _ ha)
    exact ⟨rfl, rfl⟩

end Prog

/-! ### Calls on children -/

def Query.isOnChild : Query → Bool
  | .call c => (c.kind?.bind Kind.child?).isSome
  | .emit _ => false

def Query.isList : Query → Bool
  | .call (.list _ _ _) => true
  | _ => false

def onChildren (turns : List Turn) : List Turn := turns.filter (·.1.isOnChild)

def beforeStatus (turns : List Turn) : List Turn := turns.takeWhile (!·.1.isList)

def AnsweredBy (store : List Turn → (q : Query) → q.Answer) (turns : List Turn) : Prop :=
  ∀ past q a rest, turns = past ++ ⟨q, a⟩ :: rest → q.isOnChild = true →
    a = store (onChildren past) q

namespace Instance

/-- Whether two records agree in what their children are made from. -/
structure Concurs (i j : Instance) : Prop where
  spec : i.spec = j.spec
  name : i.metadata.name = j.metadata.name
  generateName : i.metadata.generateName = j.metadata.generateName
  ns : i.metadata.ns = j.metadata.ns
  uid : i.metadata.uid = j.metadata.uid
  label : ∀ key ∈ instanceLabel :: runtimeLabel :: passthroughLabels,
    i.metadata.label? key = j.metadata.label? key
  annotation : ∀ key ∈ passthroughAnnotations,
    i.metadata.annotation? key = j.metadata.annotation? key

namespace Concurs
variable {i j : Instance} {unserved : List ChildKind} {kind : ChildKind}

theorem symm (h : i.Concurs j) : j.Concurs i where
  spec := h.spec.symm
  name := h.name.symm
  generateName := h.generateName.symm
  ns := h.ns.symm
  uid := h.uid.symm
  label key hkey := (h.label key hkey).symm
  annotation key hkey := (h.annotation key hkey).symm

theorem anyName (h : i.Concurs j) : i.name = j.name := name_congr h.name h.generateName

theorem key (h : i.Concurs j) : i.key = j.key := by
  rw [Instance.key, Instance.key, h.ns, h.anyName]

theorem passesOnLike (h : i.Concurs j) : i.PassesOnLike j := by
  have hown : ∀ key ∈ instanceLabel :: runtimeLabel :: passthroughLabels,
      i.ownLabel? key = j.ownLabel? key := by
    intro key hkey
    rw [ownLabel?, ownLabel?, h.label key hkey]
  rw [List.forall_mem_cons, List.forall_mem_cons] at hown
  obtain ⟨hinstance, hruntime, hpassed⟩ := hown
  refine ⟨hpassed, by rw [hruntime], by rw [hinstance, h.anyName], fun key hkey => ?_⟩
  rw [ownAnnotation?, ownAnnotation?, h.annotation key hkey]

theorem adopted (h : i.Concurs j) (kind : ChildKind) : i.adopted kind = j.adopted kind := by
  have howner : i.ownerReference? = j.ownerReference? := by
    rw [ownerReference?, ownerReference?, h.uid, h.anyName]
  rw [Instance.adopted, Instance.adopted,
    (desired_eq_iff h.spec h.anyName h.ns).2 h.passesOnLike kind, howner]

theorem report (h : i.Concurs j) (kind : ChildKind) (verb : Verb) (reason : String) :
    i.report kind verb reason = j.report kind verb reason := by
  have hreference : i.reference = j.reference := by
    rw [reference, reference, h.name, h.ns, h.uid]
  rw [Instance.report, Instance.report, childEvent, childEvent, h.anyName, hreference]

theorem updateChild (h : i.Concurs j) (kind : ChildKind) (m : Manifest) :
    i.updateChild kind m = j.updateChild kind m := by
  unfold Instance.updateChild
  refine bind_congr fun a => ?_
  cases a with
  | ok stored => exact congrArg (· >>= _) (h.report kind _ _)
  | error f =>
    cases f
    case invalid why =>
      dsimp only
      rw [h.key]
      refine bind_congr fun b => ?_
      cases b with
      | ok u => exact congrArg (· >>= _) (h.report kind _ _)
      | error g => cases g <;> rfl
    all_goals rfl

theorem createChild (h : i.Concurs j) (kind : ChildKind) (d : Manifest) :
    i.createChild kind d = j.createChild kind d := by
  unfold Instance.createChild
  rw [h.key]
  refine bind_congr fun a => ?_
  cases a with
  | ok stored => exact congrArg (· >>= _) (h.report kind _ _)
  | error f =>
    cases f
    case alreadyExists what =>
      refine bind_congr fun found => ?_
      cases found with
      | none => rfl
      | some o =>
        dsimp only
        cases classify (some o) (some d.stamp)
        case stale replacement => exact h.updateChild kind replacement
        all_goals rfl
    all_goals rfl

theorem deleteChild (h : i.Concurs j) (kind : ChildKind) :
    i.deleteChild kind = j.deleteChild kind := by
  unfold Instance.deleteChild
  rw [h.key]
  refine bind_congr fun a => ?_
  cases a with
  | ok u => exact congrArg (· >>= _) (h.report kind _ _)
  | error f => cases f <;> rfl

/-- The step of a child is the same program for both. -/
theorem syncChild (h : i.Concurs j) (unserved : List ChildKind) (kind : ChildKind) :
    i.syncChild unserved kind = j.syncChild unserved kind := by
  unfold Instance.syncChild
  rw [h.adopted, h.key]
  simp only [h.createChild, h.updateChild, h.deleteChild]

theorem syncChildren (h : i.Concurs j) (unserved kinds : List ChildKind) :
    i.syncChildren unserved kinds = j.syncChildren unserved kinds := by
  induction kinds with
  | nil => rfl
  | cons kind rest ih => rw [Instance.syncChildren, Instance.syncChildren, h.syncChild, ih]

theorem computeStatus (h : i.Concurs j) : i.computeStatus = j.computeStatus := by
  have hselector : i.labelSelector = j.labelSelector := by
    rw [labelSelector, labelSelector, selectorLabels, selectorLabels, h.anyName]
  have hstatus : i.statusOf = j.statusOf := by
    funext pods url
    rw [statusOf, statusOf, hselector]
  have hurl : i.exposureUrl = j.exposureUrl := by
    unfold exposureUrl
    rw [h.spec, h.key]
  rw [Instance.computeStatus, Instance.computeStatus, h.key, hselector, hurl, hstatus]

end Concurs

/-! ### Runs that are answered alike -/

section
variable {i j : Instance} {unserved : List ChildKind} {kind : ChildKind} {α : Type}
  {store : List Turn → (q : Query) → q.Answer}

theorem ChildCall.isOnChild {c : StoreCall} (h : i.ChildCall kind c) :
    (Query.call c).isOnChild = true := by
  show (c.kind?.bind Kind.child?).isSome = true
  rw [h.kind?]
  exact congrArg Option.isSome kind.child?_kind

theorem onChildren_append (turns more : List Turn) :
    onChildren (turns ++ more) = onChildren turns ++ onChildren more := List.filter_append _ _

/-- Two runs of one action, after the same turns of two passes, are the same if its other calls are
answered alike, too. -/
theorem runs_unique {x : Action α} (past : List Turn) {turns others rest more : List Turn}
    {r s : Except Failure α} (h : x.run.Runs turns r) (h' : x.run.Runs others s)
    (hturns : AnsweredBy store (past ++ (turns ++ rest)))
    (hothers : AnsweredBy store (past ++ (others ++ more)))
    (hcalls : ∀ c (a b : Query.Answer (.call c)), ⟨.call c, a⟩ ∈ turns → ⟨.call c, b⟩ ∈ others →
      (Query.call c).isOnChild = true ∨ a = b) : turns = others ∧ r = s := by
  refine h.unique h' fun between q a b later after ht ho => ?_
  cases q with
  | emit e => rfl
  | call c =>
    rcases hcalls c a b (by simp [ht]) (by simp [ho]) with hon | hab
    · rw [hturns (past ++ between) (.call c) a (later ++ rest) (by simp [ht]) hon,
        hothers (past ++ between) (.call c) b (after ++ more) (by simp [ho]) hon]
    · exact hab

theorem runs_unique_onChild {x : Action α}
    (hx : x.Calls fun c => (Query.call c).isOnChild = true) (past : List Turn)
    {turns others rest more : List Turn} {r s : Except Failure α}
    (h : x.run.Runs turns r) (h' : x.run.Runs others s)
    (hturns : AnsweredBy store (past ++ (turns ++ rest)))
    (hothers : AnsweredBy store (past ++ (others ++ more))) : turns = others ∧ r = s :=
  runs_unique past h h' hturns hothers fun _ _ _ hmem _ => Or.inl (hx.of_runs h hmem)

theorem syncChild_onChild (i : Instance) (unserved : List ChildKind) (kind : ChildKind) :
    (i.syncChild unserved kind).Calls fun c => (Query.call c).isOnChild = true :=
  (i.syncChild_calls kind unserved).mono fun _ hc => hc.2.isOnChild

theorem syncChildren_onChild (i : Instance) (unserved kinds : List ChildKind) :
    (i.syncChildren unserved kinds).Calls fun c => (Query.call c).isOnChild = true :=
  (i.syncChildren_calls unserved kinds).mono fun _ ⟨_, _, hc⟩ => hc.isOnChild

def ComesTo (i : Instance) (unserved : List ChildKind) (turns : List Turn) (kind : ChildKind)
    (r : Except Failure SyncOutcome) : Prop :=
  i.spec.violation? = none ∧ ∃ first rest before step after,
    ChildKind.all = first ++ kind :: rest ∧ turns = before ++ (step ++ after) ∧
      i.TakesStep unserved first kind before step r

theorem Concurs.comesTo (h : i.Concurs j) {turns others : List Turn}
    {r : Except Failure SyncOutcome} {b : Except Failure PassOutcome}
    (hturns : AnsweredBy store turns) (hothers : AnsweredBy store others)
    (hj : (j.pass unserved).run.Runs others b) (hi : i.ComesTo unserved turns kind r) :
    j.ComesTo unserved others kind r := by
  obtain ⟨hv, first, rest, before, step, after, hall, rfl, hearlier, hstep⟩ := hi
  rw [h.spec] at hv
  rw [pass_admitted hv, hall] at hj
  rw [h.syncChildren] at hearlier
  rw [h.syncChild] at hstep
  rcases exists_takesStep hj with ⟨stop, hstop, hne⟩ |
    ⟨before', step', after', r', rfl, hearlier', hstep'⟩
  · -- the steps before the kind came to the same end, which is none
    rw [← List.append_nil others] at hothers
    obtain ⟨_, rfl⟩ := runs_unique_onChild (j.syncChildren_onChild unserved first) [] hearlier hstop
      hturns hothers
    exact absurd rfl hne
  · obtain ⟨rfl, _⟩ := runs_unique_onChild (j.syncChildren_onChild unserved first) [] hearlier
      hearlier' hturns hothers
    obtain ⟨rfl, rfl⟩ := runs_unique_onChild (j.syncChild_onChild unserved kind) before hstep hstep'
      hturns hothers
    exact ⟨hv, first, rest, before, step, after', hall, rfl, hearlier', hstep'⟩

/-! ### The parts of a pass -/

/-- A pass over a record with a valid spec takes the steps of its children, and then maybe that of
its status. -/
theorem exists_steps {turns : List Turn} {a : Except Failure PassOutcome}
    (hv : i.spec.violation? = none) (h : (i.pass unserved).run.Runs turns a) :
    ∃ steps ended rest, turns = steps ++ rest ∧
      (i.syncChildren unserved ChildKind.all).run.Runs steps ended ∧
      (ended ≠ .ok false ∧ rest = [] ∨
        ended = .ok false ∧ ∃ r, i.ensureStatus.run.Runs rest r) := by
  rw [pass_admitted hv, passFrom, Action.run_bind, Prog.runs_bind] at h
  obtain ⟨steps, ended, rest, rfl, hsteps, hrest⟩ := h
  refine ⟨steps, ended, rest, rfl, hsteps, ?_⟩
  cases ended with
  | error f => exact Or.inl ⟨by simp, hrest.1⟩
  | ok stop =>
    cases stop with
    | true => exact Or.inl ⟨by simp, hrest.1⟩
    | false =>
      have hstatus : (i.ensureStatus >>= _ : Action PassOutcome).run.Runs rest a := hrest
      rw [Action.run_bind, Prog.runs_bind] at hstatus
      obtain ⟨first, r, more, rfl, hfirst, hmore⟩ := hstatus
      have hnil : more = [] := by
        cases r with
        | error f => exact hmore.1
        | ok outcome => cases outcome <;> exact hmore.1
      rw [hnil, List.append_nil]
      exact Or.inr ⟨rfl, r, hfirst⟩

theorem beforeStatus_steps {steps : List Turn} {ended : Except Failure Bool}
    (h : (i.syncChildren unserved ChildKind.all).run.Runs steps ended) (rest : List Turn) :
    beforeStatus (steps ++ rest) = steps ++ beforeStatus rest := by
  refine List.takeWhile_append_of_pos fun turn hmem => ?_
  obtain ⟨q, a⟩ := turn
  cases q with
  | emit e => rfl
  | call c =>
    obtain ⟨kind, _, hc⟩ := (i.syncChildren_calls unserved ChildKind.all).of_runs h hmem
    cases hc <;> rfl

theorem beforeStatus_ensureStatus {rest : List Turn} {r : Except Failure StatusOutcome}
    (h : i.ensureStatus.run.Runs rest r) : beforeStatus rest = [] := by
  obtain ⟨a, more, rfl, _⟩ := h
  rfl

theorem onChildren_records {x : Action α} (hx : x.Calls i.RecordCall) {turns : List Turn}
    {r : Except Failure α} (h : x.run.Runs turns r) : onChildren turns = [] := by
  refine List.filter_eq_nil_iff.2 fun turn hmem => ?_
  obtain ⟨q, a⟩ := turn
  cases q with
  | emit e => simp [Query.isOnChild]
  | call c => simp [Query.isOnChild, (hx.of_runs h hmem).kind?]

theorem ComputeCourse.asks {turns : List Turn} {r : Except Failure Status}
    (h : i.ComputeCourse turns r) :
    ∀ turn ∈ turns, turn.1.isList = true ∨ turn.1.isOnChild = true := by
  cases h with
  | exposed found kind a _ _ =>
    rw [List.forall_mem_cons, List.forall_mem_singleton]
    exact ⟨Or.inl rfl, Or.inr ChildCall.get.isOnChild⟩
  | _ => simp [Query.isList]

/-- The calls on children in two status steps are the same if the pods are answered alike. -/
theorem Concurs.ensureStatus (h : i.Concurs j) {past turns others : List Turn}
    {r s : Except Failure StatusOutcome} (hi : i.ensureStatus.run.Runs turns r)
    (hj : j.ensureStatus.run.Runs others s) (hturns : AnsweredBy store (past ++ turns))
    (hothers : AnsweredBy store (past ++ others))
    (hpods : ∀ c (a b : Query.Answer (.call c)), (Query.call c).isList = true →
      ⟨.call c, a⟩ ∈ turns → ⟨.call c, b⟩ ∈ others → a = b) :
    onChildren turns = onChildren others := by
  have hparts {k : Instance} {ts : List Turn} {t : Except Failure StatusOutcome}
      (hk : k.ensureStatus.run.Runs ts t) : ∃ first status rest, ts = first ++ rest ∧
        k.computeStatus.run.Runs first status ∧ onChildren rest = [] := by
    rw [Instance.ensureStatus, Action.run_bind, Prog.runs_bind] at hk
    obtain ⟨first, status, rest, rfl, hfirst, hrest⟩ := hk
    refine ⟨first, status, rest, rfl, hfirst, ?_⟩
    cases status with
    | error f =>
      rw [hrest.1]
      rfl
    | ok status => exact onChildren_records ((Action.calls_emit _).bind fun _ =>
        k.writeStatus_calls status) hrest
  obtain ⟨first, status, rest, rfl, hfirst, hrest⟩ := hparts hi
  obtain ⟨first', status', rest', rfl, hfirst', hrest'⟩ := hparts hj
  rw [h.computeStatus] at hfirst
  have hsame : first = first' ∧ status = status' := by
    refine runs_unique past hfirst hfirst' hturns hothers fun c a b ha hb => ?_
    cases (j.computeStatus_courses first status hfirst).asks _ ha with
    | inl hlist =>
      exact Or.inr (hpods c a b hlist (List.mem_append_left _ ha) (List.mem_append_left _ hb))
    | inr hon => exact Or.inl hon
  rw [onChildren_append, onChildren_append, hrest, hrest', hsame.1]

/-- Up to the status step the passes over two records that agree take the same turns. -/
theorem Concurs.pass (h : i.Concurs j) {turns others : List Turn}
    {a b : Except Failure PassOutcome} (hi : (i.pass unserved).run.Runs turns a)
    (hj : (j.pass unserved).run.Runs others b) (hturns : AnsweredBy store turns)
    (hothers : AnsweredBy store others) :
    onChildren (beforeStatus turns) = onChildren (beforeStatus others) ∧
      ((∀ c (a b : Query.Answer (.call c)), (Query.call c).isList = true →
          ⟨.call c, a⟩ ∈ turns → ⟨.call c, b⟩ ∈ others → a = b) →
        onChildren turns = onChildren others) := by
  cases hv : i.spec.violation? with
  | some violation =>
    have hsilent {k : Instance} {ts : List Turn} {t : Except Failure PassOutcome}
        (hk : k.spec.violation? = some violation) (hr : (k.pass unserved).run.Runs ts t) :
        onChildren ts = [] ∧ onChildren (beforeStatus ts) = [] := by
      rw [pass_rejected hk] at hr
      have hnone := onChildren_records (k.reject_calls violation) hr
      refine ⟨hnone, List.eq_nil_of_sublist_nil ?_⟩
      rw [← hnone]
      exact (List.takeWhile_sublist _).filter _
    obtain ⟨hts, hbefore⟩ := hsilent hv hi
    obtain ⟨hus, hbefore'⟩ := hsilent (h.spec ▸ hv) hj
    exact ⟨hbefore.trans hbefore'.symm, fun _ => hts.trans hus.symm⟩
  | none =>
    obtain ⟨steps, ended, rest, rfl, hsteps, hrest⟩ := exists_steps hv hi
    obtain ⟨steps', ended', rest', rfl, hsteps', hrest'⟩ := exists_steps (h.spec ▸ hv) hj
    rw [beforeStatus_steps hsteps, beforeStatus_steps hsteps']
    rw [h.syncChildren] at hsteps
    obtain ⟨rfl, rfl⟩ := runs_unique_onChild (j.syncChildren_onChild unserved _) [] hsteps hsteps'
      hturns hothers
    rcases hrest with ⟨hne, rfl⟩ | ⟨rfl, r, hstatus⟩
    · obtain ⟨-, rfl⟩ := hrest'.resolve_right fun he => hne he.1
      exact ⟨rfl, fun _ => rfl⟩
    · obtain ⟨-, r', hstatus'⟩ := hrest'.resolve_left fun he => he.1 rfl
      rw [beforeStatus_ensureStatus hstatus, beforeStatus_ensureStatus hstatus']
      refine ⟨rfl, fun hpods => ?_⟩
      rw [onChildren_append, onChildren_append]
      congr 1
      refine h.ensureStatus hstatus hstatus' hturns hothers fun c x y hlist hx hy => ?_
      exact hpods c x y hlist (List.mem_append_right _ hx) (List.mem_append_right _ hy)

end
end Instance

namespace Context

/-- Status does not feed back.  Take a pass over each of two records that agree in spec, name,
namespace, uid and in the labels and annotations that are passed on, whatever they are otherwise,
and let calls on children be answered as by one store that knows the earlier ones.  Then the
records break the same rule or none, each kind comes to the same result in both passes, and the
calls on children up to the status step are the same.  If the pods are listed alike, too, then so
are the calls of the status step on children. -/
theorem pass_ignores_status {i j : Instance} (h : i.Concurs j) (ctx : Context) (key : Key)
    {store : List Turn → (q : Query) → q.Answer} {turns others : List Turn}
    {a b : Except Failure PassOutcome}
    (hi : (ctx.pass key).run.Runs (⟨.call (.getInstance key), .ok (some i)⟩ :: turns) a)
    (hj : (ctx.pass key).run.Runs (⟨.call (.getInstance key), .ok (some j)⟩ :: others) b)
    (hturns : AnsweredBy store turns) (hothers : AnsweredBy store others) :
    i.spec.violation? = j.spec.violation? ∧
      (∀ kind r, i.ComesTo ctx.unserved turns kind r ↔ j.ComesTo ctx.unserved others kind r) ∧
      onChildren (beforeStatus turns) = onChildren (beforeStatus others) ∧
      ((∀ c (x y : Query.Answer (.call c)), (Query.call c).isList = true →
          ⟨.call c, x⟩ ∈ turns → ⟨.call c, y⟩ ∈ others → x = y) →
        onChildren turns = onChildren others) := by
  rw [ctx.runs_pass_of_found] at hi hj
  have hcalls := h.pass hi hj hturns hothers
  refine ⟨congrArg Spec.violation? h.spec, fun kind r => ⟨?_, ?_⟩, hcalls⟩
  · exact h.comesTo hturns hothers hj
  · exact h.symm.comesTo hothers hturns hi

/-- A record as it was first applied, and with a status, a version and a label of no concern: both
passes create the same deployment. -/
theorem pass_ignores_status_created :
    let first : Instance :=
      ⟨{ name := some "mh", ns := some "mail", uid := some "u1" }, {}, none⟩
    let later : Instance :=
      ⟨{ first.metadata with resourceVersion := some "7", labels := some [("team", "post")] },
        first.spec, some { podCount := 2 }⟩
    let owner : OwnerReference :=
      ⟨Instance.apiVersion, Instance.kindName, "mh", "u1", some true, some true⟩
    let child := (first.deployment.toManifest.adoptedBy owner).stamp
    let turns : List Turn := [
      ⟨.call (.get .deployment first.key), .ok none⟩,
      ⟨.call (.create .deployment child), .ok child⟩,
      ⟨.emit (.childWritten .deployment .create), ()⟩,
      ⟨.emit (.event (first.childEvent .deployment .create "ChildCreated")), ()⟩]
    first.Concurs later ∧ first.ComesTo [] turns .deployment (.ok .created) ∧
      later.ComesTo [] turns .deployment (.ok .created) := by
  intro first later owner child turns
  have hagree : first.Concurs later := ⟨rfl, rfl, rfl, rfl, rfl, by decide, by decide⟩
  have hstep : (first.syncChild [] .deployment).run.Runs turns (.ok .created) :=
    ⟨_, _, rfl, _, _, rfl, _, _, rfl, _, _, rfl, rfl, rfl⟩
  have hchildren : (first.syncChildren [] ChildKind.all).run.Runs turns (.ok true) :=
    ⟨_, _, rfl, _, _, rfl, _, _, rfl, _, _, rfl, rfl, rfl⟩
  have hpass (i : Instance) (hv : i.spec.violation? = none)
      (hi : (i.syncChildren [] ChildKind.all).run.Runs turns (.ok true)) :
      (Context.pass {} first.key).run.Runs
        (⟨.call (.getInstance first.key), .ok (some i)⟩ :: turns) (.ok .progressing) := by
    rw [runs_pass_of_found, Instance.pass_admitted hv, Instance.passFrom, Action.run_bind,
      Prog.runs_bind]
    exact ⟨turns, .ok true, [], (List.append_nil turns).symm, hi, rfl, rfl⟩
  have hanswered : AnsweredBy (fun _ q => match q with
      | .call (.create _ m) => .ok m
      | .call (.get _ _) => .ok none
      | .call _ => .error .serialization
      | .emit _ => ()) turns := by
    intro past q a rest heq _
    have hmem : (⟨q, a⟩ : Turn) ∈ turns := by simp [heq]
    simp only [turns, List.mem_cons] at hmem
    rcases hmem with he | he | he | he | he <;> cases he <;> rfl
  have hlater := hagree.syncChildren [] ChildKind.all ▸ hchildren
  have hsame := pass_ignores_status hagree {} first.key (hpass first rfl hchildren)
    (hpass later rfl hlater) hanswered hanswered
  have hfirst : first.ComesTo [] turns .deployment (.ok .created) :=
    ⟨rfl, [], _, [], turns, [], rfl, (List.append_nil turns).symm, ⟨rfl, rfl⟩, hstep⟩
  exact ⟨hagree, hfirst, (hsame.2.1 _ _).1 hfirst⟩

end Context
end MailCapture
