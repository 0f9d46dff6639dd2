import MailCapture.Proofs.Calls
import MailCapture.Proofs.Hosted
import MailCapture.Proofs.Reading
/-!
Kinds that a cluster does not serve.  No child of such a kind is read or written while children are
brought in line, and the others are brought in line as if it were not wanted.  The status step does
not look at what is served: it reads the object that exposes the record whatever its kind.
-/
namespace MailCapture

def StoreCall.Spares (kinds : List ChildKind) (c : StoreCall) : Prop :=
  ∀ kind ∈ kinds, c.kind? ≠ some kind.kind

def Spared (kinds : List ChildKind) (turns : List Turn) : Prop :=
  ∀ c a, (⟨.call c, a⟩ : Turn) ∈ turns → c.Spares kinds

section
variable {kinds : List ChildKind}

theorem spared_nil : Spared kinds [] := fun _ _ h => absurd h List.not_mem_nil

theorem spared_cons (turn : Turn) (turns : List Turn) : Spared kinds (turn :: turns) ↔
    (∀ c a, turn = ⟨.call c, a⟩ → c.Spares kinds) ∧ Spared kinds turns := by
  constructor
  · intro h
    refine ⟨fun c a ht => h c a ?_, fun c a ht => h c a (List.mem_cons_of_mem _ ht)⟩
    rw [ht]
    exact List.mem_cons_self
  · rintro ⟨hhead, htail⟩ c a ht
    cases List.mem_cons.1 ht with
    | inl he => exact hhead c a he.symm
    | inr hr => exact htail c a hr

theorem Spared.append {turns more : List Turn} (h : Spared kinds turns)
    (hmore : Spared kinds more) : Spared kinds (turns ++ more) := by
  intro c a ht
  cases List.mem_append.1 ht with
  | inl hf => exact h c a hf
  | inr hm => exact hmore c a hm

theorem spared_call {c : StoreCall} (h : c.Spares kinds) (a : Query.Answer (.call c)) :
    Spared kinds [⟨.call c, a⟩] := by
  rw [spared_cons]
  refine ⟨fun _ _ hc => ?_, spared_nil⟩
  cases hc
  exact h

theorem Action.Calls.spared {α : Type} {x : Action α} (hx : x.Calls (StoreCall.Spares kinds)) :
    x.Ensures (fun turns _ => Spared kinds turns) :=
  fun _ _ hr _ _ hmem => hx.of_runs hr hmem

end

def Action.Yields {α : Type} (x : Action α) (turns : List Turn) (a : α) : Prop :=
  x.run.Runs turns (.ok a)

theorem Action.Yields.bind_runs {α β : Type} {x : Action α} {f : α → Action β}
    {first rest : List Turn} {a : α} {r : Except Failure β} (hx : x.Yields first a)
    (hf : (f a).run.Runs rest r) : (x >>= f).run.Runs (first ++ rest) r := by
  rw [run_bind, Prog.runs_bind]
  exact ⟨first, .ok a, rest, rfl, hx, hf⟩

/-- One action after another, the first of which came to a value. -/
theorem Action.Yields.runs_bind {α β : Type} {x : Action α} {f : α → Action β}
    {first rest : List Turn} {a : α} {r : Except Failure β} (hx : x.Yields first a) :
    (x >>= f).run.Runs (first ++ rest) r ↔ (f a).run.Runs rest r := by
  rw [run_bind]
  exact Prog.runs_bind_of_runs hx

theorem Action.Yields.bind {α β : Type} {x : Action α} {f : α → Action β} {first rest : List Turn}
    {a : α} {b : β} (hx : x.Yields first a) (hf : (f a).Yields rest b) :
    (x >>= f).Yields (first ++ rest) b := hx.bind_runs hf

theorem Action.yields_call (c : StoreCall) (a : c.Answer) :
    (call c).Yields [⟨.call c, .ok a⟩] a := ⟨.ok a, [], rfl, rfl, rfl⟩

namespace Instance
variable {i : Instance} {kinds : List ChildKind}

theorem RecordCall.spares {c : StoreCall} (h : i.RecordCall c) : c.Spares kinds := by
  intro kind _ hk
  rw [h.kind?] at hk
  cases hk

theorem spares_pods (i : Instance) (kinds : List ChildKind) :
    (StoreCall.list .pod i.key.ns i.labelSelector).Spares kinds := by
  intro kind _ hk
  cases kind <;> cases hk

/-! ### Children -/

/-- Bringing children in line is about the served kinds only. -/
theorem syncChildren_spared (i : Instance) (unserved kinds : List ChildKind) :
    (i.syncChildren unserved kinds).Ensures (fun turns _ => Spared unserved turns) := by
  apply Action.Calls.spared
  refine (i.syncChildren_calls unserved kinds).mono ?_
  rintro c ⟨kind, hk, hc⟩ other ho he
  rw [hc.kind?] at he
  have hkind : kind = other := ChildKind.kind_inj (Option.some.inj he)
  exact hk (hkind ▸ ho)

/-- The kinds that are not served might as well not be in the list. -/
theorem syncChildren_served (i : Instance) (unserved kinds : List ChildKind) :
    i.syncChildren unserved kinds =
      i.syncChildren [] (kinds.filter (fun kind => kind ∉ unserved)) := by
  induction kinds with
  | nil => rfl
  | cons kind rest ih =>
    by_cases hk : kind ∈ unserved
    · have hstep : i.syncChild unserved kind = pure .unchanged := by
        unfold syncChild
        exact if_pos (by simpa using hk)
      rw [List.filter_cons_of_neg (by simpa using hk), ← ih, syncChildren, hstep]
      rfl
    · have hstep : i.syncChild unserved kind = i.syncChild [] kind := by
        unfold syncChild
        rw [if_neg (by simpa using hk), if_neg (by simp)]
      rw [List.filter_cons_of_pos (by simpa using hk), syncChildren, syncChildren, hstep, ih]

/-! ### The status -/

/-- Whether the only call of these turns about one of the kinds is the read of the object that
exposes the record, just after its pods. -/
def ReadsExposing (i : Instance) (kinds : List ChildKind) (turns : List Turn) : Prop :=
  ∃ kind ∈ kinds, i.spec.inlet.exposing? = some kind ∧ ∃ before pods a after,
    turns = before ++ (⟨.call (.list .pod i.key.ns i.labelSelector), .ok pods⟩ : Turn) ::
      ⟨.call (.get kind.kind i.key), a⟩ :: after ∧ Spared kinds before ∧ Spared kinds after

theorem ReadsExposing.prepend {turns more : List Turn} (h : i.ReadsExposing kinds more)
    (hspared : Spared kinds turns) : i.ReadsExposing kinds (turns ++ more) := by
  obtain ⟨kind, hk, hi, before, pods, a, after, rfl, hbefore, hafter⟩ := h
  refine ⟨kind, hk, hi, turns ++ before, pods, a, after, ?_, hspared.append hbefore, hafter⟩
  rw [List.append_assoc]

theorem ReadsExposing.append {turns more : List Turn} (h : i.ReadsExposing kinds turns)
    (hspared : Spared kinds more) : i.ReadsExposing kinds (turns ++ more) := by
  obtain ⟨kind, hk, hi, before, pods, a, after, rfl, hbefore, hafter⟩ := h
  refine ⟨kind, hk, hi, before, pods, a, after ++ more, ?_, hbefore, hafter.append hspared⟩
  simp

theorem shown_turns {α β : Type} (found : Option Manifest) (read : Manifest → Option α)
    (url : α → Option β) : (match found with
      | none => pure none
      | some m => do return url (← decoded (read m)) : Action (Option β)).Ensures
        (fun turns _ => turns = []) := by
  cases found with
  | none => exact (Action.ensures_pure _).2 rfl
  | some m =>
    show (decoded (read m) >>= fun a => pure (url a) : Action (Option β)).Ensures _
    cases read m with
    | none => exact (Action.ensures_fail_bind _ _).2 rfl
    | some a => exact (Action.ensures_pure _).2 rfl

theorem exposureUrl_turns (i : Instance) : i.exposureUrl.Ensures (fun turns _ => turns = [] ∨
    ∃ kind a, i.spec.inlet.exposing? = some kind ∧
      turns = [⟨.call (.get kind.kind i.key), a⟩]) := by
  have hread (kind : ChildKind) (hkind : i.spec.inlet.exposing? = some kind)
      (next : Option Manifest → Action (Option String))
      (hnext : ∀ found, (next found).Ensures (fun turns _ => turns = [])) :
      (Action.call (.get kind.kind i.key) >>= next).Ensures (fun turns _ => turns = [] ∨
        ∃ kind a, i.spec.inlet.exposing? = some kind ∧
          turns = [⟨.call (.get kind.kind i.key), a⟩]) := by
    refine (Action.ensures_call_bind _ _).2 ⟨fun e => Or.inr ⟨kind, _, hkind, rfl⟩, fun found => ?_⟩
    refine (hnext found).mono fun turns r ht => Or.inr ⟨kind, .ok found, hkind, ?_⟩
    rw [ht]
  unfold exposureUrl
  split
  · exact (Action.ensures_pure _).2 (Or.inl rfl)
  · rename_i hi
    exact hread .route (by rw [hi]; rfl) _ fun found => shown_turns found Route.ofManifest? _
  · rename_i hi
    exact hread .ingress (by rw [hi]; rfl) _ fun found => shown_turns found Ingress.ofManifest? _

theorem spares_get {kind : ChildKind} (hk : kind ∉ kinds) (key : Key) :
    (StoreCall.get kind.kind key).Spares kinds := by
  intro other ho he
  have hkind : kind = other := ChildKind.kind_inj (Option.some.inj he)
  exact hk (hkind ▸ ho)

theorem computeStatus_turns (i : Instance) (kinds : List ChildKind) : i.computeStatus.Ensures
    (fun turns _ => Spared kinds turns ∨ i.ReadsExposing kinds turns) := by
  have hpods (a : Query.Answer (.call (.list .pod i.key.ns i.labelSelector))) :
      Spared kinds [⟨.call (.list .pod i.key.ns i.labelSelector), a⟩] :=
    spared_call (i.spares_pods kinds) a
  unfold computeStatus
  refine (Action.ensures_call_bind _ _).2 ⟨fun e => Or.inl (hpods _), fun found => ?_⟩
  cases found.mapM Pod.ofManifest? with
  | none => exact (Action.ensures_fail_bind _ _).2 (Or.inl (hpods _))
  | some pods =>
    have hafter (turns : List Turn) (h : turns = [] ∨ ∃ kind a,
        i.spec.inlet.exposing? = some kind ∧ turns = [⟨.call (.get kind.kind i.key), a⟩]) :
        Spared kinds (⟨.call (.list .pod i.key.ns i.labelSelector), .ok found⟩ :: turns) ∨
          i.ReadsExposing kinds
            (⟨.call (.list .pod i.key.ns i.labelSelector), .ok found⟩ :: turns) := by
      rcases h with rfl | ⟨kind, a, hi, rfl⟩
      · exact Or.inl (hpods _)
      · by_cases hk : kind ∈ kinds
        · exact Or.inr ⟨kind, hk, hi, [], found, a, [], rfl, spared_nil, spared_nil⟩
        · exact Or.inl ((hpods _).append (spared_call (spares_get hk i.key) a))
    show (i.exposureUrl >>= fun url => pure (i.statusOf pods url) : Action Status).Ensures _
    refine i.exposureUrl_turns.bind (fun turns e h => hafter turns h) fun turns url h => ?_
    rw [Action.ensures_pure, List.append_nil]
    exact hafter turns h

theorem ensureStatus_turns (i : Instance) (kinds : List ChildKind) : i.ensureStatus.Ensures
    (fun turns _ => Spared kinds turns ∨ i.ReadsExposing kinds turns) := by
  unfold ensureStatus
  refine (i.computeStatus_turns kinds).bind (fun _ _ h => h) fun turns status h => ?_
  have hwrite : (Action.emit (.podsCounted i.key status.podCount status.readyPodCount) >>=
      fun _ => i.writeStatus status : Action StatusOutcome).Calls (StoreCall.Spares kinds) := by
    apply (Action.calls_emit _).bind
    intro _
    exact (i.writeStatus_calls status).mono fun c hc => hc.spares
  refine hwrite.spared.mono fun more _ hmore => ?_
  cases h with
  | inl hs => exact Or.inl (hs.append hmore)
  | inr hr => exact Or.inr (hr.append hmore)

/-! ### The pass -/

/-- A pass over a record is about served kinds only, but for the read of the object that exposes a
record with a valid spec. -/
theorem pass_turns (i : Instance) (unserved : List ChildKind) : (i.pass unserved).Ensures
    (fun turns _ => Spared unserved turns ∨
      (i.spec.violation? = none ∧ i.ReadsExposing unserved turns)) := by
  unfold pass
  split
  · rename_i violation _
    have hreject : (i.reject violation).Calls (StoreCall.Spares unserved) :=
      (i.reject_calls violation).mono fun c hc => hc.spares
    exact hreject.spared.mono fun _ _ h => Or.inl h
  · rename_i hv
    have hchildren := i.syncChildren_spared unserved ChildKind.all
    refine hchildren.bind (fun _ _ h => Or.inl h) fun turns ended h => ?_
    cases ended with
    | true => exact (Action.ensures_pure _).2 (Or.inl (by simpa using h))
    | false =>
      have hstatus (more : List Turn)
          (hmore : Spared unserved more ∨ i.ReadsExposing unserved more) :
          Spared unserved (turns ++ more) ∨
            (i.spec.violation? = none ∧ i.ReadsExposing unserved (turns ++ more)) := by
        cases hmore with
        | inl hs => exact Or.inl (h.append hs)
        | inr hr => exact Or.inr ⟨hv, hr.prepend h⟩
      refine (i.ensureStatus_turns unserved).bind (fun more _ hmore => hstatus more hmore)
        fun more outcome hmore => ?_
      cases outcome with
      | written => exact (Action.ensures_pure _).2 (by simpa using hstatus more hmore)
      | unchanged => exact (Action.ensures_pure _).2 (by simpa using hstatus more hmore)

/-- A child that a server stores as it was written shows no drift. -/
theorem exists_inSync (hs : i.spec.toJson.Distinct) {kind : ChildKind} {d : Manifest}
    (hd : i.adopted kind = .ok (some d)) :
    ∃ o : Manifest, o.isTerminating = false ∧ o.needsUpdate d = false := by
  have hstored : d.stamp.StoredAs (d.stamp.hosted kind.kind none none "") :=
    storedAs_stamped hs hd d.stamp.metadata.resourceVersion none none ""
  exact ⟨_, hstored.live, Manifest.needsUpdate_of_storedAs hstored (distinct_adopted hs hd)⟩

/-- A child of any kind may be found in line. -/
theorem syncChild_yields {uid : String} (hu : i.metadata.uid = some uid)
    (hs : i.spec.toJson.Distinct) (unserved : List ChildKind) (kind : ChildKind) :
    ∃ turns, (i.syncChild unserved kind).Yields turns .unchanged := by
  unfold syncChild
  by_cases hk : kind ∈ unserved
  · rw [if_pos (by simpa using hk)]
    exact ⟨[], rfl, rfl⟩
  · rw [if_neg (by simpa using hk)]
    obtain ⟨desired, hd, _⟩ := exists_adopted hu kind
    rw [hd]
    have hfound (found : Option Manifest)
        (h : (i.proceed kind (classify found desired)).Yields [] .unchanged) :
        ∃ turns, (Action.call (.get kind.kind i.key) >>= fun observed =>
          i.proceed kind (classify observed desired) : Action SyncOutcome).Yields turns
            .unchanged :=
      ⟨_, (Action.yields_call (.get kind.kind i.key) found).bind h⟩
    cases desired with
    | none => exact hfound none ⟨rfl, rfl⟩
    | some d =>
      obtain ⟨o, hlive, hn⟩ := exists_inSync hs hd
      refine hfound (some o) ?_
      rw [classify_inSync hlive hn]
      exact ⟨rfl, rfl⟩

theorem syncChildren_yields {uid : String} (hu : i.metadata.uid = some uid)
    (hs : i.spec.toJson.Distinct) (unserved kinds : List ChildKind) :
    ∃ turns, (i.syncChildren unserved kinds).Yields turns false := by
  induction kinds with
  | nil => exact ⟨[], rfl, rfl⟩
  | cons kind rest ih =>
    obtain ⟨first, hfirst⟩ := syncChild_yields hu hs unserved kind
    obtain ⟨more, hmore⟩ := ih
    exact ⟨first ++ more, hfirst.bind hmore⟩

theorem computeStatus_yields {kind : ChildKind} (hkind : i.spec.inlet.exposing? = some kind) :
    ∃ status, i.computeStatus.Yields [⟨.call (.list .pod i.key.ns i.labelSelector), .ok []⟩,
      ⟨.call (.get kind.kind i.key), .ok none⟩] status := by
  have hurl : i.exposureUrl.Yields [⟨.call (.get kind.kind i.key), .ok none⟩] none := by
    unfold exposureUrl
    split
    · rename_i hi
      rw [hi] at hkind
      cases hkind
    · rename_i hi
      rw [hi] at hkind
      cases hkind
      exact (Action.yields_call (.get .route i.key) none).bind ⟨rfl, rfl⟩
    · rename_i hi
      rw [hi] at hkind
      cases hkind
      exact (Action.yields_call (.get .ingress i.key) none).bind ⟨rfl, rfl⟩
  have hstatus : (pure (i.statusOf [] none) : Action Status).Yields [] (i.statusOf [] none) :=
    ⟨rfl, rfl⟩
  exact ⟨_, (Action.yields_call (.list .pod i.key.ns i.labelSelector) []).bind (hurl.bind hstatus)⟩

theorem ensureStatus_runs {α : Type} {kind : ChildKind}
    (hkind : i.spec.inlet.exposing? = some kind) (next : StatusOutcome → Action α) :
    ∃ turns r, (i.ensureStatus >>= next).run.Runs turns r ∧
      ∃ a, (⟨.call (.get kind.kind i.key), a⟩ : Turn) ∈ turns := by
  obtain ⟨status, hstatus⟩ := computeStatus_yields hkind
  unfold ensureStatus
  rw [Action.run_bind_assoc]
  obtain ⟨rest, r, hrest⟩ := Prog.ends _
  exact ⟨_, r, hstatus.bind_runs hrest, .ok none, by simp⟩

/-- A pass over a record with a valid spec may read the object that exposes it, served or not. -/
theorem exists_run_exposing {uid : String} (hu : i.metadata.uid = some uid)
    (hs : i.spec.toJson.Distinct) (hv : i.spec.violation? = none) {kind : ChildKind}
    (hkind : i.spec.inlet.exposing? = some kind) (unserved : List ChildKind) :
    ∃ turns r, (i.pass unserved).run.Runs turns r ∧
      ∃ a, (⟨.call (.get kind.kind i.key), a⟩ : Turn) ∈ turns := by
  obtain ⟨first, hchildren⟩ := syncChildren_yields hu hs unserved ChildKind.all
  unfold pass
  split
  · rename_i violation hsome
    cases hv.symm.trans hsome
  · obtain ⟨rest, r, hrest, a, hmem⟩ := ensureStatus_runs hkind _
    exact ⟨_, r, hchildren.bind_runs hrest, a, List.mem_append_right first hmem⟩

end Instance

namespace Context

/-- A pass starts with the read of the record; what follows is the pass over the record. -/
theorem runs_pass (ctx : Context) (key : Key) {turns : List Turn} {r : Except Failure PassOutcome}
    (h : (ctx.pass key).run.Runs turns r) :
    ∃ a rest, turns = ⟨.call (.getInstance key), a⟩ :: rest ∧
      ((∃ i, a = .ok (some i) ∧ (i.pass ctx.unserved).run.Runs rest r) ∨ rest = []) := by
  obtain ⟨a, rest, rfl, hrest⟩ := h
  refine ⟨a, rest, rfl, ?_⟩
  cases a with
  | error e => exact Or.inr hrest.1
  | ok found =>
    cases found with
    | none => exact Or.inr hrest.1
    | some i => exact Or.inl ⟨i, rfl, hrest⟩

theorem runs_pass_of_found (ctx : Context) (key : Key) (i : Instance) (rest : List Turn)
    (r : Except Failure PassOutcome) :
    (ctx.pass key).run.Runs (⟨.call (.getInstance key), .ok (some i)⟩ :: rest) r ↔
      (i.pass ctx.unserved).run.Runs rest r := by
  constructor
  · rintro ⟨a, more, heq, hrest⟩
    cases heq
    exact hrest
  · intro h
    exact ⟨.ok (some i), rest, rfl, h⟩

/-- Whatever a pass is answered, it makes no call for a kind that is not served, but for one: if the
spec is valid and an object of such a kind exposes the record, that object is read after the pods.
All passes over a record spare the kinds that are not served exactly if its spec is invalid or its
exposing object is of a served kind.  The served kinds are brought in line as if there were no
others. -/
theorem pass_unserved (ctx : Context) (key : Key) :
    (∀ turns r, (ctx.pass key).run.Runs turns r → Spared ctx.unserved turns ∨
      ∃ i rest, turns = ⟨.call (.getInstance key), .ok (some i)⟩ :: rest ∧
        i.spec.violation? = none ∧ i.ReadsExposing ctx.unserved rest) ∧
    (∀ (i : Instance) (uid : String), i.metadata.uid = some uid → i.spec.toJson.Distinct →
      ((∀ rest r, (ctx.pass key).run.Runs (⟨.call (.getInstance key), .ok (some i)⟩ :: rest) r →
          Spared ctx.unserved rest) ↔
        i.spec.violation? ≠ none ∨
          ∀ kind ∈ ctx.unserved, i.spec.inlet.exposing? ≠ some kind)) ∧
    ∀ i : Instance, i.syncChildren ctx.unserved ChildKind.all =
      i.syncChildren [] (ChildKind.all.filter (fun kind => kind ∉ ctx.unserved)) := by
  refine ⟨fun turns r hrun => ?_, fun i uid hu hs => ⟨fun hspared => ?_, fun hserved => ?_⟩,
    fun i => i.syncChildren_served ctx.unserved ChildKind.all⟩
  · obtain ⟨a, rest, rfl, hrest⟩ := ctx.runs_pass key hrun
    have hread : Spared ctx.unserved [⟨.call (.getInstance key), a⟩] :=
      spared_call (fun _ _ hk => by cases hk) a
    rcases hrest with ⟨i, rfl, hpass⟩ | rfl
    · cases i.pass_turns ctx.unserved rest r hpass with
      | inl h => exact Or.inl (hread.append h)
      | inr h => exact Or.inr ⟨i, rest, rfl, h⟩
    · exact Or.inl hread
  · by_cases hv : i.spec.violation? = none
    · refine Or.inr fun kind hk hkind => ?_
      obtain ⟨rest, r, hrun, a, hmem⟩ :=
        Instance.exists_run_exposing hu hs hv hkind ctx.unserved
      have hrest := hspared rest r ((ctx.runs_pass_of_found key i rest r).2 hrun)
      exact hrest _ a hmem kind hk rfl
    · exact Or.inl hv
  · intro rest r hrun
    have hpass := (ctx.runs_pass_of_found key i rest r).1 hrun
    cases i.pass_turns ctx.unserved rest r hpass with
    | inl h => exact h
    | inr h =>
      obtain ⟨hv, kind, hk, hkind, _⟩ := h
      cases hserved with
      | inl hinvalid => exact absurd hv hinvalid
      | inr hother => exact absurd hkind (hother kind hk)

/-- Every pass over a record that an ingress exposes spares a cluster without routes. -/
theorem pass_unserved_ingress :
    let record : Instance :=
      ⟨{ name := some "mh", ns := some "mail", uid := some "u1" }, { inlet := .ingress }, none⟩
    let unserved : List ChildKind := [.deploymentConfig, .route]
    record.spec.violation? = none ∧
      ∀ rest r, (Context.pass { unserved := unserved } record.key).run.Runs
        (⟨.call (.getInstance record.key), .ok (some record)⟩ :: rest) r →
          Spared unserved rest := by
  intro record unserved
  have hs : record.spec.toJson.Distinct :=
    Spec.distinct_toJson (fun r hr => by cases hr) (fun a ha => by cases ha)
  have hserved : ∀ kind ∈ unserved, record.spec.inlet.exposing? ≠ some kind := by decide
  exact ⟨rfl, ((pass_unserved { unserved := unserved } record.key).2.1 record "u1" rfl hs).2
    (Or.inr hserved)⟩

/-- On a cluster without routes a pass may read a route. -/
theorem pass_reads_unserved_route :
    ¬ ∀ (ctx : Context) (key : Key) (turns : List Turn) (r : Except Failure PassOutcome),
      (ctx.pass key).run.Runs turns r → Spared ctx.unserved turns := by
  intro h
  let record : Instance :=
    ⟨{ name := some "mh", ns := some "mail", uid := some "u1" }, { inlet := .route }, none⟩
  let ctx : Context := { unserved := [.deploymentConfig, .route] }
  have hs : record.spec.toJson.Distinct :=
    Spec.distinct_toJson (fun r hr => by cases hr) (fun a ha => by cases ha)
  have hinlet : record.spec.inlet.exposing? = some .route := rfl
  obtain ⟨rest, r, hrun, a, hmem⟩ :=
    Instance.exists_run_exposing rfl hs rfl hinlet ctx.unserved
  have hspared := h ctx record.key _ r ((ctx.runs_pass_of_found record.key record rest r).2 hrun)
  exact hspared _ a (List.mem_cons_of_mem _ hmem) .route (by simp [ctx]) rfl

end Context
end MailCapture
