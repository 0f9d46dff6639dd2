import MailCapture.Proofs.Calls
/-!
What a pass replaces.  A replace follows the latest read of its kind, which showed an object that
stays and has drifted, and is based on the version of that object.  A replace that fails otherwise
than as invalid ends the pass.
-/
namespace MailCapture

def Turn.Gets (turn : Turn) (kind : Kind) : Prop := ∃ key a, turn = ⟨.call (.get kind key), a⟩

theorem Turn.gets_iff (turn : Turn) (kind : Kind) :
    Turn.Gets turn kind ↔ ∃ key, turn.1 = .call (.get kind key) := by
  constructor
  · rintro ⟨key, a, rfl⟩
    exact ⟨key, rfl⟩
  · obtain ⟨q, a⟩ := turn
    rintro ⟨key, rfl⟩
    exact ⟨key, a, rfl⟩

def LastGet (kind : Kind) (key : Key) (o : Manifest) (turns : List Turn) : Prop :=
  ∃ earlier later, turns = earlier ++ (⟨.call (.get kind key), .ok (some o)⟩ : Turn) :: later ∧
    ∀ turn ∈ later, ¬ Turn.Gets turn kind

theorem lastGet_append (kind : Kind) (key : Key) (o : Manifest) (turns : List Turn) :
    LastGet kind key o (turns ++ [⟨.call (.get kind key), .ok (some o)⟩]) :=
  ⟨turns, [], rfl, by simp⟩

section
variable {kind : Kind} {key : Key} {o : Manifest}

@[simp] theorem lastGet_nil : ¬ LastGet kind key o [] := by
  rintro ⟨earlier, later, h, _⟩
  simp at h

theorem lastGet_cons (turn : Turn) (turns : List Turn) :
    LastGet kind key o (turn :: turns) ↔ LastGet kind key o turns ∨
      turn = ⟨.call (.get kind key), .ok (some o)⟩ ∧ ∀ t ∈ turns, ¬ Turn.Gets t kind := by
  constructor
  · rintro ⟨earlier, later, h, hlater⟩
    cases earlier with
    | nil =>
      cases h
      exact Or.inr ⟨rfl, hlater⟩
    | cons first earlier =>
      cases h
      exact Or.inl ⟨earlier, later, rfl, hlater⟩
  · rintro (⟨earlier, later, rfl, hlater⟩ | ⟨rfl, hlater⟩)
    · exact ⟨turn :: earlier, later, rfl, hlater⟩
    · exact ⟨[], turns, rfl, hlater⟩

/-- Turns that read nothing of a kind leave the latest read of it as it was. -/
theorem lastGet_cons_of_no_gets {turn : Turn} {turns : List Turn}
    (h : ∀ t ∈ turns, ¬ Turn.Gets t kind) : LastGet kind key o (turn :: turns) ↔
      turn = ⟨.call (.get kind key), .ok (some o)⟩ := by
  rw [lastGet_cons]
  constructor
  · rintro (⟨earlier, later, rfl, _⟩ | ⟨heq, _⟩)
    · exact absurd ⟨key, _, rfl⟩ (h _ (List.mem_append_right earlier List.mem_cons_self))
    · exact heq
  · intro heq
    exact Or.inr ⟨heq, h⟩

end

namespace Instance

def MayReplace (i : Instance) (turns : List Turn) (kind : Kind) (m : Manifest) : Prop :=
  ∃ (child : ChildKind) (o d : Manifest), kind = child.kind ∧ LastGet kind i.key o turns ∧
    o.isTerminating = false ∧ i.adopted child = .ok (some d) ∧ o.needsUpdate d = true ∧
    m = d.replacementFor o

/-- Whether all replaces of turns are as they may be, given the turns before, and a failure of one
ends the run unless it is called invalid. -/
def Overwrites {α : Type} (i : Instance) (before : List Turn) :
    List Turn → Except Failure α → Prop
  | [], _ => True
  | turn :: turns, r =>
    (∀ kind m a, turn = ⟨.call (.replace kind m), a⟩ → i.MayReplace before kind m ∧
      ∀ f, a = .error f → (∀ why, f ≠ .invalid why) → turns = [] ∧ r = .error f) ∧
    i.Overwrites (before ++ [turn]) turns r

variable {α β : Type} {i : Instance} {before turns more : List Turn} {r : Except Failure α}

@[simp] theorem overwrites_nil : i.Overwrites before [] r := trivial

theorem Overwrites.append {b : β} (h : i.Overwrites before turns (.ok b : Except Failure β))
    (hmore : i.Overwrites (before ++ turns) more r) :
    i.Overwrites before (turns ++ more) r := by
  induction turns generalizing before with
  | nil => simpa using hmore
  | cons turn turns ih =>
    obtain ⟨hturn, hrest⟩ := h
    refine ⟨fun kind m a ht => ?_, ih hrest (by simpa using hmore)⟩
    obtain ⟨hmay, hfails⟩ := hturn kind m a ht
    refine ⟨hmay, fun f hf hinvalid => ?_⟩
    cases (hfails f hf hinvalid).2

theorem Overwrites.error {e : Failure}
    (h : i.Overwrites before turns (.error e : Except Failure β)) :
    i.Overwrites before turns (.error e : Except Failure α) := by
  induction turns generalizing before with
  | nil => trivial
  | cons turn turns ih =>
    obtain ⟨hturn, hrest⟩ := h
    refine ⟨fun kind m a ht => ?_, ih hrest⟩
    obtain ⟨hmay, hfails⟩ := hturn kind m a ht
    refine ⟨hmay, fun f hf hinvalid => ?_⟩
    obtain ⟨hnil, hr⟩ := hfails f hf hinvalid
    cases hr
    exact ⟨hnil, rfl⟩

/-- What holds of each replace of a run. -/
theorem Overwrites.replace {earlier later : List Turn} {kind : Kind} {m : Manifest}
    {a : Query.Answer (.call (.replace kind m))}
    (h : i.Overwrites before (earlier ++ ⟨.call (.replace kind m), a⟩ :: later) r) :
    i.MayReplace (before ++ earlier) kind m ∧
      ∀ f, a = .error f → (∀ why, f ≠ .invalid why) → later = [] ∧ r = .error f := by
  induction earlier generalizing before with
  | nil => simpa using h.1 kind m a rfl
  | cons turn earlier ih => simpa using ih h.2

theorem overwrites_bind {x : Action β} {f : β → Action α} (hx : x.Ensures (i.Overwrites before))
    (hf : ∀ first b, (f b).Ensures (i.Overwrites (before ++ first))) :
    (x >>= f).Ensures (i.Overwrites before) :=
  hx.bind (fun _ _ h => h.error) fun first b h => (hf first b).mono fun _ _ hmore => h.append hmore

/-- What replaces nothing may follow any turns. -/
theorem overwrites_of_calls {x : Action α} (hx : x.Calls (fun c => ∀ kind m, c ≠ .replace kind m)) :
    x.Ensures (i.Overwrites before) := by
  intro turns r hr
  have hnone : ∀ turn ∈ turns, ∀ kind m a, turn ≠ ⟨.call (.replace kind m), a⟩ := by
    intro turn hmem kind m a ht
    subst ht
    exact hx.of_runs hr hmem kind m rfl
  clear hr
  induction turns generalizing before with
  | nil => trivial
  | cons turn turns ih =>
    refine ⟨fun kind m a ht => absurd ht (hnone turn List.mem_cons_self kind m a), ?_⟩
    exact ih fun t ht => hnone t (List.mem_cons_of_mem turn ht)

/-- A call that replaces nothing is one turn more before what follows. -/
theorem overwrites_attempt {c : StoreCall} (hc : ∀ kind m, c ≠ .replace kind m)
    {f : Except Failure c.Answer → Action α}
    (hf : ∀ a, (f a).Ensures (i.Overwrites (before ++ [⟨.call c, a⟩]))) :
    (Action.attempt c >>= f).Ensures (i.Overwrites before) := by
  rw [Action.ensures_attempt_bind]
  intro a turns r hr
  refine ⟨fun kind m b ht => ?_, hf a turns r hr⟩
  cases ht
  exact absurd rfl (hc kind m)

theorem overwrites_call {c : StoreCall} (hc : ∀ kind m, c ≠ .replace kind m)
    {f : c.Answer → Action α}
    (hf : ∀ a, (f a).Ensures (i.Overwrites (before ++ [⟨.call c, .ok a⟩]))) :
    (Action.call c >>= f).Ensures (i.Overwrites before) := by
  have hturn (a : Query.Answer (.call c)) (kind : Kind) (m : Manifest)
      (b : Query.Answer (.call (.replace kind m))) :
      (⟨.call c, a⟩ : Turn) ≠ ⟨.call (.replace kind m), b⟩ := by
    intro ht
    cases ht
    exact hc kind m rfl
  rw [Action.ensures_call_bind]
  refine ⟨fun e => ⟨fun kind m b ht => absurd ht (hturn _ kind m b), trivial⟩, ?_⟩
  intro a turns r hr
  exact ⟨fun kind m b ht => absurd ht (hturn _ kind m b), hf a turns r hr⟩

/-- A replace whose failures end the run, the invalid ones apart. -/
theorem overwrites_replace {kind : Kind} {m : Manifest}
    {f : Except Failure (StoreCall.replace kind m).Answer → Action α}
    (hmay : i.MayReplace before kind m)
    (hfail : ∀ e, (∀ why, e ≠ .invalid why) → f (.error e) = Action.fail e)
    (hnext : ∀ a, (f a).Ensures (i.Overwrites (before ++ [⟨.call (.replace kind m), a⟩]))) :
    (Action.attempt (.replace kind m) >>= f).Ensures (i.Overwrites before) := by
  rw [Action.ensures_attempt_bind]
  intro a turns r hr
  refine ⟨fun kind' m' a' ht => ?_, hnext a turns r hr⟩
  cases ht
  refine ⟨hmay, fun e he hinvalid => ?_⟩
  subst he
  rw [hfail e hinvalid] at hr
  exact hr

/-! ### The functions of a pass -/

variable {kind : ChildKind} {o d : Manifest}

/-- A child that was read last, stays and has drifted may be replaced. -/
theorem updateChild_overwrites (hlast : LastGet kind.kind i.key o before)
    (hlive : o.isTerminating = false) (hd : i.adopted kind = .ok (some d))
    (hdrift : o.needsUpdate d = true) :
    (i.updateChild kind (d.replacementFor o)).Ensures (i.Overwrites before) := by
  have hmay : i.MayReplace before kind.kind (d.replacementFor o) :=
    ⟨kind, o, d, rfl, hlast, hlive, hd, hdrift, rfl⟩
  have hreport (verb : Verb) (reason : String) (outcome : SyncOutcome) :
      (i.report kind verb reason >>= fun _ => pure outcome).Calls
        (fun c => ∀ kind m, c ≠ .replace kind m) :=
    (i.report_calls kind verb reason).bind fun _ => Action.calls_pure outcome
  unfold updateChild
  refine overwrites_replace hmay (fun e he => ?_) fun a => overwrites_of_calls ?_
  · cases e with
    | invalid why => exact absurd rfl (he why)
    | _ => rfl
  · cases a with
    | ok stored => exact hreport _ _ _
    | error e =>
      cases e with
      | invalid why =>
        refine (Action.calls_attempt fun kind m hc => ?_).bind fun b => ?_
        · cases hc
        · cases b with
          | ok u => exact hreport _ _ _
          | error g =>
            cases g with
            | notFound what => exact Action.calls_pure _
            | _ => exact Action.calls_fail _
      | _ => exact Action.calls_fail _

/-- A child that another writer created first is read before it is replaced. -/
theorem createChild_overwrites (hd : i.adopted kind = .ok (some d)) :
    (i.createChild kind d).Ensures (i.Overwrites before) := by
  unfold createChild
  refine overwrites_attempt (fun _ _ hc => by cases hc) fun a => ?_
  cases a with
  | ok stored => exact overwrites_of_calls ((i.report_calls kind _ _).bind fun _ =>
      Action.calls_pure _)
  | error f =>
    cases f with
    | alreadyExists what =>
      refine overwrites_call (fun _ _ hc => by cases hc) fun found => ?_
      cases found with
      | none => exact overwrites_of_calls (Action.calls_fail _)
      | some o =>
        have hc := classify_describes (some o) (some d.stamp)
        dsimp only
        cases hclass : classify (some o) (some d.stamp) with
        | stale replacement =>
          rw [hclass] at hc
          obtain ⟨_, _, ⟨⟩, ⟨⟩, hlive, hdrift, rfl⟩ := hc
          rw [Manifest.needsUpdate_stamp] at hdrift
          rw [Manifest.replacementFor_stamp]
          exact updateChild_overwrites (lastGet_append _ _ _ _) hlive hd hdrift
        | _ => exact overwrites_of_calls (Action.calls_pure _)
    | _ => exact overwrites_of_calls (Action.calls_fail _)

theorem syncChild_overwrites (unserved : List ChildKind) :
    (i.syncChild unserved kind).Ensures (i.Overwrites before) := by
  unfold syncChild
  split
  · exact overwrites_of_calls (Action.calls_pure _)
  · cases hd : i.adopted kind with
    | error f => exact overwrites_of_calls (Action.calls_fail f)
    | ok desired =>
      show (Action.call (.get kind.kind i.key) >>= _ : Action SyncOutcome).Ensures _
      refine overwrites_call (fun _ _ hc => by cases hc) fun observed => ?_
      have hc := classify_describes observed desired
      cases hclass : classify observed desired with
      | absent d =>
        rw [hclass] at hc
        obtain ⟨_, rfl⟩ := hc
        exact createChild_overwrites hd
      | stale replacement =>
        rw [hclass] at hc
        obtain ⟨o, d, rfl, rfl, hlive, hdrift, rfl⟩ := hc
        exact updateChild_overwrites (lastGet_append _ _ _ _) hlive hd hdrift
      | shouldNotExist =>
        refine overwrites_of_calls ((i.deleteChild_calls kind).mono fun c hc kind m hm => ?_)
        rw [hc] at hm
        cases hm
      | _ => exact overwrites_of_calls (Action.calls_pure _)

theorem syncChildren_overwrites (unserved kinds : List ChildKind) :
    (i.syncChildren unserved kinds).Ensures (i.Overwrites before) := by
  induction kinds generalizing before with
  | nil => exact overwrites_of_calls (Action.calls_pure false)
  | cons kind rest ih =>
    unfold syncChildren
    apply overwrites_bind (syncChild_overwrites unserved)
    intro first outcome
    split
    · exact overwrites_of_calls (Action.calls_pure true)
    · exact ih

theorem StatusCall.not_replace {c : StoreCall} (h : i.StatusCall c) (kind : Kind) (m : Manifest) :
    c ≠ .replace kind m := by
  rintro rfl
  cases h with
  | record hcall => cases hcall

/-- Whatever a pass over a record is answered, it replaces only what it may. -/
theorem pass_overwrites (unserved : List ChildKind) :
    (i.pass unserved).Ensures (i.Overwrites before) := by
  unfold pass
  cases i.spec.violation? with
  | some violation =>
    refine overwrites_of_calls ((i.reject_calls violation).mono fun c hc => ?_)
    exact StatusCall.not_replace (.record hc)
  | none =>
    apply overwrites_bind (syncChildren_overwrites unserved ChildKind.all)
    intro first ended
    cases ended with
    | true => exact overwrites_of_calls (Action.calls_pure _)
    | false =>
      have hstatus : i.ensureStatus.Calls (fun c => ∀ kind m, c ≠ .replace kind m) :=
        i.ensureStatus_calls.mono fun c hc => StatusCall.not_replace hc
      refine overwrites_of_calls (hstatus.bind fun outcome => ?_)
      cases outcome with
      | written => exact Action.calls_pure _
      | unchanged => exact Action.calls_pure _

end Instance

namespace Context

/-- The first turn of a pass reads the record of its key, and what follows replaces what a pass over
that record may. -/
theorem pass_overwrites (ctx : Context) (key : Key) : (ctx.pass key).Ensures fun turns r =>
    ∃ a rest, turns = ⟨.call (.getInstance key), a⟩ :: rest ∧
      (rest ≠ [] → ∃ i, a = .ok (some i) ∧
        i.Overwrites [⟨.call (.getInstance key), a⟩] rest r) := by
  unfold pass
  refine (Action.ensures_call_bind _ _).2 ⟨fun e => ⟨_, [], rfl, by simp⟩, fun found => ?_⟩
  cases found with
  | none => exact (Action.ensures_pure _).2 ⟨_, [], rfl, by simp⟩
  | some i =>
    intro turns r hr
    exact ⟨_, turns, rfl, fun _ => ⟨i, rfl, Instance.pass_overwrites ctx.unserved turns r hr⟩⟩

/-- A replace of a pass comes after the record was read, and is one that a pass over that record may
make; unless it is called invalid, its failure is that of the pass. -/
theorem pass_replace {ctx : Context} {key : Key} {earlier later : List Turn} {kind : Kind}
    {m : Manifest} {a : Query.Answer (.call (.replace kind m))} {r : Except Failure PassOutcome}
    (h : (ctx.pass key).run.Runs (earlier ++ ⟨.call (.replace kind m), a⟩ :: later) r) :
    ∃ i rest, earlier = ⟨.call (.getInstance key), .ok (some i)⟩ :: rest ∧
      i.MayReplace earlier kind m ∧
      ∀ f, a = .error f → (∀ why, f ≠ .invalid why) → later = [] ∧ r = .error f := by
  obtain ⟨b, turns, hturns, hover⟩ := ctx.pass_overwrites key _ r h
  cases earlier with
  | nil => cases hturns
  | cons turn rest =>
    obtain ⟨rfl, rfl⟩ := List.cons.inj hturns
    obtain ⟨i, rfl, hall⟩ := hover (by simp)
    exact ⟨i, rest, rfl, hall.replace⟩

end Context
end MailCapture
