import MailCapture.Proofs.Hosted
import MailCapture.Proofs.Overwriting
/-!
Passes over one record that compete with each other and with other writers.  Each asks its queries
one after the other, the queries of all of them stand in any order, and between two queries anyone
may write or delete any object.

An object that was read is what is stored until it changes, and then its version is stored no more:
a version is never given twice.  A replace is based on the version that was read last, so it
overwrites that object or nothing.
-/
namespace MailCapture

structure Objects where
  object? : Kind → Key → Option Manifest
  versions : Kind → Key → List String

namespace Objects

structure Changes (w : Objects) (kind : Kind) (key : Key) (t : Objects) : Prop where
  others : ∀ k q, ¬ (k = kind ∧ q = key) →
    t.object? k q = w.object? k q ∧ t.versions k q = w.versions k q
  kept : ∀ version ∈ w.versions kind key, version ∈ t.versions kind key
  fresh : ∀ o, t.object? kind key = some o → ∃ version ∈ t.versions kind key,
    o.metadata.resourceVersion = some version ∧ version ∉ w.versions kind key

def IsCurrent (w : Objects) (kind : Kind) (m : Manifest) : Prop :=
  ∃ key current, m.key? = .ok key ∧ w.object? kind key = some current ∧
    m.metadata.resourceVersion = current.metadata.resourceVersion

/-- A query, an answer to it, the objects afterwards and which of them the query changed, if any.
Every call may fail, and the reply to a write may be lost; but an object is found invalid only when
it is based on what is stored. -/
inductive Answers (w : Objects) : (q : Query) → q.Answer → Objects → Option (Kind × Key) → Prop
  | emit (e : Effect) : Answers w (.emit e) () w none
  | fails (c : StoreCall) (f : Failure)
      (hinvalid : ∀ kind m why, c = .replace kind m → f = .invalid why → w.IsCurrent kind m) :
      Answers w (.call c) (.error f) w none
  | get (kind : Kind) (key : Key) :
      Answers w (.call (.get kind key)) (.ok (w.object? kind key)) w none
  | list (kind : Kind) (ns selector : String) (found : List Manifest) :
      Answers w (.call (.list kind ns selector)) (.ok found) w none
  | getInstance (key : Key) (found : Option Instance) :
      Answers w (.call (.getInstance key)) (.ok found) w none
  | replaceStatus (record stored : Instance) :
      Answers w (.call (.replaceStatus record)) (.ok stored) w none
  | create (kind : Kind) (m : Manifest) (key : Key) (reply : Except Failure Manifest) (t : Objects)
      (hkey : m.key? = .ok key) (hchanges : w.Changes kind key t) :
      Answers w (.call (.create kind m)) reply t (some (kind, key))
  | replace (kind : Kind) (m : Manifest) (key : Key) (current : Manifest)
      (reply : Except Failure Manifest) (t : Objects) (hkey : m.key? = .ok key)
      (hcurrent : w.object? kind key = some current)
      (hversion : m.metadata.resourceVersion = current.metadata.resourceVersion)
      (hchanges : w.Changes kind key t) :
      Answers w (.call (.replace kind m)) reply t (some (kind, key))
  | delete (kind : Kind) (key : Key) (grace : UInt32) (reply : Except Failure Unit) (t : Objects)
      (hchanges : w.Changes kind key t) :
      Answers w (.call (.delete kind key grace)) reply t (some (kind, key))

end Objects

structure Writers (ι : Type) where
  key : Key
  context : ι → Context

inductive WriteEvent (ι : Type) where
  | asked (j : ι) (turn : Turn) (change : Option (Kind × Key))
  | others (kind : Kind) (key : Key)

def WriteEvent.change? {ι : Type} : WriteEvent ι → Option (Kind × Key)
  | .asked _ _ change => change
  | .others kind key => some (kind, key)

structure WritersState (ι : Type) where
  world : Objects
  /-- what is left of each pass -/
  rest : ι → Prog Query Query.Answer (Except Failure PassOutcome)

namespace Writers
variable {ι : Type} [DecidableEq ι]

inductive Step : WritersState ι → WriteEvent ι → WritersState ι → Prop
  | others (s : WritersState ι) (kind : Kind) (key : Key) (w : Objects)
      (hchanges : s.world.Changes kind key w) : Step s (.others kind key) { s with world := w }
  | asked (s : WritersState ι) (j : ι) (q : Query)
      (next : q.Answer → Prog Query Query.Answer (Except Failure PassOutcome)) (a : q.Answer)
      (w : Objects) (change : Option (Kind × Key)) (hrest : s.rest j = .ask q next)
      (hanswer : s.world.Answers q a w change) :
      Step s (.asked j ⟨q, a⟩ change) ⟨w, fun k => if k = j then next a else s.rest k⟩

structure Starts (r : Writers ι) (s : WritersState ι) : Prop where
  rest : ∀ j, s.rest j = ((r.context j).pass r.key).run
  version : ∀ kind key o, s.world.object? kind key = some o →
    ∃ version ∈ s.world.versions kind key, o.metadata.resourceVersion = some version

inductive Reaches (r : Writers ι) : List (WriteEvent ι) → WritersState ι → Prop
  | start {s : WritersState ι} (hstarts : r.Starts s) : Reaches r [] s
  | step {events : List (WriteEvent ι)} {s t : WritersState ι} {e : WriteEvent ι}
      (hreaches : Reaches r events s) (hstep : Step s e t) : Reaches r (e :: events) t

def turnsOf (j : ι) : List (WriteEvent ι) → List Turn
  | [] => []
  | .asked k turn _ :: earlier => if k = j then turnsOf j earlier ++ [turn] else turnsOf j earlier
  | .others _ _ :: earlier => turnsOf j earlier

end Writers

/-! ### Objects that were read -/

def Objects.IsVersioned (w : Objects) : Prop :=
  ∀ kind key o, w.object? kind key = some o →
    ∃ version ∈ w.versions kind key, o.metadata.resourceVersion = some version

/-- Whether an object was read under a version that was given: it is what is stored, or it was
changed since and its version is stored no more. -/
def Objects.HasShown (w : Objects) (kind : Kind) (key : Key) (o : Manifest) (changed : Prop) :
    Prop :=
  ∃ version ∈ w.versions kind key, o.metadata.resourceVersion = some version ∧
    (¬ changed ∧ w.object? kind key = some o ∨
      changed ∧ ∀ current, w.object? kind key = some current →
        current.metadata.resourceVersion ≠ some version)

namespace Objects
variable {w t : Objects} {kind : Kind} {key : Key} {o : Manifest} {changed : Prop}

theorem IsVersioned.changes (hv : w.IsVersioned) (h : w.Changes kind key t) : t.IsVersioned := by
  intro k q o ho
  by_cases hk : k = kind ∧ q = key
  · obtain ⟨rfl, rfl⟩ := hk
    obtain ⟨version, hmem, hversion, _⟩ := h.fresh o ho
    exact ⟨version, hmem, hversion⟩
  · obtain ⟨hobject, hversions⟩ := h.others k q hk
    rw [hobject] at ho
    rw [hversions]
    exact hv k q o ho

theorem IsVersioned.hasShown (hv : w.IsVersioned) (h : w.object? kind key = some o) :
    w.HasShown kind key o False := by
  obtain ⟨version, hmem, hversion⟩ := hv kind key o h
  exact ⟨version, hmem, hversion, Or.inl ⟨id, h⟩⟩

/-- A change of another object makes no difference. -/
theorem HasShown.of_others (hs : w.HasShown kind key o changed) {k : Kind} {q : Key}
    (h : w.Changes k q t) (hne : ¬ (kind = k ∧ key = q)) : t.HasShown kind key o changed := by
  obtain ⟨hobject, hversions⟩ := h.others kind key hne
  unfold HasShown
  rw [hobject, hversions]
  exact hs

/-- After a change a fresh version is stored, if any. -/
theorem HasShown.of_changes (hs : w.HasShown kind key o changed) (h : w.Changes kind key t) :
    t.HasShown kind key o True := by
  obtain ⟨version, hmem, hversion, _⟩ := hs
  refine ⟨version, h.kept version hmem, hversion, Or.inr ⟨trivial, ?_⟩⟩
  intro current hcurrent hsame
  obtain ⟨fresh, _, hfresh, hnew⟩ := h.fresh current hcurrent
  rw [hfresh] at hsame
  cases hsame
  exact hnew hmem

theorem HasShown.congr {changed' : Prop} (hs : w.HasShown kind key o changed)
    (h : changed ↔ changed') : w.HasShown kind key o changed' := by
  rwa [propext h] at hs

/-- What is based on an object that was read is current only if the object is still stored. -/
theorem HasShown.of_current (hs : w.HasShown kind key o changed) {current m : Manifest}
    (hcurrent : w.object? kind key = some current)
    (hbased : m.metadata.resourceVersion = o.metadata.resourceVersion)
    (hversion : m.metadata.resourceVersion = current.metadata.resourceVersion) :
    ¬ changed ∧ w.object? kind key = some o := by
  obtain ⟨version, _, ho, hstored | ⟨_, hgone⟩⟩ := hs
  · exact hstored
  · exact absurd (hversion.symm.trans (hbased.trans ho)) (hgone current hcurrent)

/-- A read changes nothing and shows what is stored. -/
theorem Answers.get_inv {a : Query.Answer (.call (.get kind key))} {change : Option (Kind × Key)}
    (h : w.Answers (.call (.get kind key)) a t change) :
    t = w ∧ ∀ found, a = .ok found → found = w.object? kind key := by
  cases h with
  | fails c f hinvalid => exact ⟨rfl, fun found hf => by cases hf⟩
  | get kind key =>
    refine ⟨rfl, fun found hf => ?_⟩
    cases hf
    rfl

/-- A replace fails and changes nothing, or it takes effect on what it is based on. -/
theorem Answers.replace_inv {m : Manifest} {a : Query.Answer (.call (.replace kind m))}
    {change : Option (Kind × Key)} (h : w.Answers (.call (.replace kind m)) a t change) :
    (change = none ∧ t = w ∧ ∃ f, a = .error f ∧ ∀ why, f = .invalid why → w.IsCurrent kind m) ∨
      ∃ key, change = some (kind, key) ∧ m.key? = .ok key ∧ w.IsCurrent kind m := by
  cases h with
  | fails c f hinvalid =>
    exact Or.inl ⟨rfl, rfl, f, rfl, fun why hwhy => hinvalid kind m why rfl hwhy⟩
  | replace kind m key current reply t hkey hcurrent hversion hchanges =>
    exact Or.inr ⟨key, rfl, hkey, key, current, hkey, hcurrent, hversion⟩

end Objects

/-- A child is replaced under the key of its record. -/
theorem Instance.key_of_replacementFor {i : Instance} {kind : ChildKind} {d o : Manifest}
    {key : Key} (hd : i.adopted kind = .ok (some d)) (h : (d.replacementFor o).key? = .ok key) :
    key = i.key := by
  cases hns : i.metadata.ns with
  | some ns =>
    have hself := Instance.key?_stamped hns hd o.metadata.resourceVersion
    exact Except.ok.inj (h.symm.trans hself)
  | none =>
    obtain ⟨owner, hm⟩ := metadata_adopted hd
    have hspace : (d.replacementFor o).metadata.ns = none := (congrArg Metadata.ns hm).trans hns
    have hname : (d.replacementFor o).metadata.name = some i.name := congrArg Metadata.name hm
    unfold Manifest.key? at h
    rw [hspace, hname] at h
    cases h

namespace Writers
variable {ι : Type} [DecidableEq ι] {r : Writers ι} {s t : WritersState ι} {e : WriteEvent ι}
  {events : List (WriteEvent ι)}

/-- The objects after a step differ by what the event changed. -/
theorem Step.world (h : Step s e t) : (e.change? = none ∧ t.world = s.world) ∨
    ∃ kind key, e.change? = some (kind, key) ∧ s.world.Changes kind key t.world := by
  cases h with
  | others kind key w hchanges => exact Or.inr ⟨kind, key, rfl, hchanges⟩
  | asked j q next a w change hrest hanswer =>
    cases hanswer with
    | create kind m key reply t hkey hchanges => exact Or.inr ⟨kind, key, rfl, hchanges⟩
    | replace kind m key current reply t hkey hcurrent hversion hchanges =>
      exact Or.inr ⟨kind, key, rfl, hchanges⟩
    | delete kind key grace reply t hchanges => exact Or.inr ⟨kind, key, rfl, hchanges⟩
    | _ => exact Or.inl ⟨rfl, rfl⟩

/-- A pass that is answered goes on. -/
theorem Step.asked_inv {j : ι} {q : Query} {a : q.Answer} {change : Option (Kind × Key)}
    (h : Step s (.asked j ⟨q, a⟩ change) t) :
    ∃ next, s.rest j = .ask q next ∧ t.rest j = next a ∧ s.world.Answers q a t.world change := by
  cases h with
  | asked _ _ next _ w _ hrest hanswer => exact ⟨next, hrest, if_pos rfl, hanswer⟩

theorem turnsOf_append (j : ι) (later earlier : List (WriteEvent ι)) :
    turnsOf j (later ++ earlier) = turnsOf j earlier ++ turnsOf j later := by
  induction later with
  | nil => simp [turnsOf]
  | cons e later ih =>
    cases e with
    | others kind key => exact ih
    | asked k turn change =>
      by_cases hk : k = j <;> simp [turnsOf, hk, ih]

/-- Each turn of a pass is an event. -/
theorem exists_of_turnsOf {j : ι} {turn : Turn} {first last : List Turn}
    (h : turnsOf j events = first ++ turn :: last) : ∃ later change earlier,
      events = later ++ .asked j turn change :: earlier ∧ turnsOf j later = last := by
  induction events generalizing last with
  | nil => simp [turnsOf] at h
  | cons e events ih =>
    have hskip (hlast : turnsOf j events = first ++ turn :: last) (hnone : turnsOf j [e] = []) :
        ∃ later change earlier,
          e :: events = later ++ .asked j turn change :: earlier ∧ turnsOf j later = last := by
      obtain ⟨later, change, earlier, rfl, hturns⟩ := ih hlast
      refine ⟨e :: later, change, earlier, rfl, ?_⟩
      rw [← List.singleton_append, turnsOf_append, hturns, hnone, List.append_nil]
    cases e with
    | others kind key => exact hskip h rfl
    | asked k turn' change =>
      by_cases hk : k = j
      · subst hk
        simp only [turnsOf, if_true] at h
        obtain rfl | ⟨last, turn'', rfl⟩ := List.eq_nil_or_concat last
        · obtain ⟨_, hturn⟩ := List.append_inj' h rfl
          cases hturn
          exact ⟨[], change, events, rfl, rfl⟩
        · rw [List.concat_eq_append, ← List.cons_append, ← List.append_assoc] at h
          obtain ⟨hlast, hturn⟩ := List.append_inj' h rfl
          cases hturn
          obtain ⟨later, change', earlier, rfl, hturns⟩ := ih hlast
          refine ⟨.asked k turn' change :: later, change', earlier, rfl, ?_⟩
          simp [turnsOf, hturns, List.concat_eq_append]
      · exact hskip (by simpa [turnsOf, hk] using h) (by simp [turnsOf, hk])

/-! ### The invariant -/

/-- What holds after every step: versions are as they should be, what is left of a pass continues
its turns, and every object that was read is what is stored or was changed since. -/
structure Invariant (r : Writers ι) (events : List (WriteEvent ι)) (s : WritersState ι) : Prop where
  version : s.world.IsVersioned
  runs : ∀ j more b, (s.rest j).Runs more b →
    ((r.context j).pass r.key).run.Runs (turnsOf j events ++ more) b
  shown : ∀ later earlier j kind key o change,
    events = later ++ .asked j ⟨.call (.get kind key), .ok (some o)⟩ change :: earlier →
      s.world.HasShown kind key o (∃ e ∈ later, e.change? = some (kind, key))

theorem Invariant.start (h : r.Starts s) : r.Invariant [] s where
  version := h.version
  runs j more b hr := by
    rw [h.rest] at hr
    exact hr
  shown later earlier j kind key o change he := by simp at he

theorem Invariant.version_step (h : r.Invariant events s) (hstep : Step s e t) :
    t.world.IsVersioned := by
  rcases hstep.world with ⟨_, hw⟩ | ⟨kind, key, _, hchanges⟩
  · exact hw ▸ h.version
  · exact h.version.changes hchanges

theorem Invariant.runs_step (h : r.Invariant events s) (hstep : Step s e t) (j : ι)
    (more : List Turn) (b : Except Failure PassOutcome) (hr : (t.rest j).Runs more b) :
    ((r.context j).pass r.key).run.Runs (turnsOf j (e :: events) ++ more) b := by
  cases hstep with
  | others kind key w hchanges => exact h.runs j more b hr
  | asked k q next a w change hrest hanswer =>
    by_cases hk : k = j
    · subst hk
      simp only [turnsOf, if_true, List.append_assoc] at hr ⊢
      apply h.runs
      rw [hrest]
      exact ⟨a, more, rfl, hr⟩
    · have hjk : ¬ j = k := fun hj => hk hj.symm
      simp only [turnsOf, if_neg hk, if_neg hjk] at hr ⊢
      exact h.runs j more b hr

theorem Invariant.shown_step (h : r.Invariant events s) (hstep : Step s e t)
    (later earlier : List (WriteEvent ι)) (j : ι) (kind : Kind) (key : Key) (o : Manifest)
    (change : Option (Kind × Key))
    (he : e :: events = later ++ .asked j ⟨.call (.get kind key), .ok (some o)⟩ change :: earlier) :
    t.world.HasShown kind key o (∃ e ∈ later, e.change? = some (kind, key)) := by
  cases later with
  | nil =>
    obtain ⟨rfl, _⟩ := List.cons.inj he
    obtain ⟨next, _, _, hanswer⟩ := hstep.asked_inv
    obtain ⟨hw, hfound⟩ := hanswer.get_inv
    rw [hw]
    refine (h.version.hasShown (hfound _ rfl).symm).congr ?_
    simp
  | cons e' later =>
    obtain ⟨rfl, hevents⟩ := List.cons.inj he
    have hshown := h.shown later earlier j kind key o change hevents
    rcases hstep.world with ⟨hnone, hw⟩ | ⟨k, q, hsome, hchanges⟩
    · rw [hw]
      refine hshown.congr ?_
      simp [hnone]
    · by_cases hk : kind = k ∧ key = q
      · obtain ⟨rfl, rfl⟩ := hk
        refine (hshown.of_changes hchanges).congr ?_
        simp [hsome]
      · refine (hshown.of_others hchanges hk).congr ?_
        have hother : e.change? ≠ some (kind, key) := by
          rw [hsome]
          rintro ⟨⟩
          exact hk ⟨rfl, rfl⟩
        simp [hother]

theorem Reaches.invariant (h : r.Reaches events s) : r.Invariant events s := by
  induction h with
  | start hstarts => exact .start hstarts
  | step hreaches hstep ih =>
    exact ⟨ih.version_step hstep, ih.runs_step hstep, ih.shown_step hstep⟩

/-! ### The theorem -/

/-- When a pass replaces an object, it sends what the record that it read asks for, based on the
version that it obtained in its last read of that kind; what it read stays and has drifted.  If the
replace takes effect, then what it overwrites is what was read, and nobody changed it in between.
If somebody did, then nothing is overwritten, and the pass ends with the failure of the replace. -/
theorem no_lost_update (h : r.Reaches events s) {j : ι} {kind : Kind} {m : Manifest}
    {a : Query.Answer (.call (.replace kind m))} {change : Option (Kind × Key)}
    (hstep : Step s (.asked j ⟨.call (.replace kind m), a⟩ change) t) :
    ∃ i rest child o d later read earlier,
      turnsOf j events = ⟨.call (.getInstance r.key), .ok (some i)⟩ :: rest ∧
      events = later ++ .asked j ⟨.call (.get kind i.key), .ok (some o)⟩ read :: earlier ∧
      (∀ turn ∈ turnsOf j later, ¬ Turn.Gets turn kind) ∧
      kind = child.kind ∧ i.adopted child = .ok (some d) ∧
      o.isTerminating = false ∧ o.needsUpdate d = true ∧ m = d.replacementFor o ∧
      ((∃ stored, a = .ok stored) ∨ change ≠ none →
        change = some (kind, i.key) ∧ s.world.object? kind i.key = some o ∧
          ∀ e ∈ later, e.change? ≠ some (kind, i.key)) ∧
      ((∃ e ∈ later, e.change? = some (kind, i.key)) →
        change = none ∧ t.world = s.world ∧
          ∃ f, a = .error f ∧ t.rest j = .done (.error f)) := by
  have hinv := h.invariant
  obtain ⟨next, hrest, hafter, hanswer⟩ := hstep.asked_inv
  -- the pass may be brought to an end, so all that holds of whole runs holds of its turns so far
  obtain ⟨more, b, hmore⟩ := Prog.ends (next a)
  have hrun := hinv.runs j (⟨_, a⟩ :: more) b (by rw [hrest]; exact ⟨a, more, rfl, hmore⟩)
  obtain ⟨i, rest, hturns, ⟨child, o, d, hkind, hlast, hlive, hd, hdrift, rfl⟩, hfails⟩ :=
    Context.pass_replace hrun
  obtain ⟨first, last, hsplit, hnoget⟩ := hlast
  obtain ⟨later, read, earlier, hevents, hlater⟩ := exists_of_turnsOf hsplit
  have hshown := hinv.shown later earlier j kind i.key o read hevents
  have hcurrent (hc : s.world.IsCurrent kind (d.replacementFor o)) :
      ¬ (∃ e ∈ later, e.change? = some (kind, i.key)) ∧ s.world.object? kind i.key = some o := by
    obtain ⟨key, current, hkey, hstored, hversion⟩ := hc
    have hsame := Instance.key_of_replacementFor hd hkey
    subst hsame
    exact hshown.of_current hstored rfl hversion
  refine ⟨i, rest, child, o, d, later, read, earlier, hturns, hevents, by rwa [hlater], hkind, hd,
    hlive, hdrift, rfl, ?_⟩
  rcases hanswer.replace_inv with ⟨hnone, hworld, f, hf, hinvalid⟩ | ⟨key, hsome, hkey, hc⟩
  · constructor
    · rintro (⟨stored, hok⟩ | hne)
      · rw [hf] at hok
        cases hok
      · exact absurd hnone hne
    · intro hchanged
      have hnot : ∀ why, f ≠ .invalid why := by
        intro why hwhy
        exact (hcurrent (hinvalid why hwhy)).1 hchanged
      obtain ⟨rfl, rfl⟩ := hfails f hf hnot
      refine ⟨hnone, hworld, f, hf, ?_⟩
      exact hafter.trans hmore.eq_done
  · obtain ⟨hunchanged, hstored⟩ := hcurrent hc
    constructor
    · intro _
      refine ⟨?_, hstored, fun e he hchange => hunchanged ⟨e, he, hchange⟩⟩
      rw [hsome, Instance.key_of_replacementFor hd hkey]
    · intro hchanged
      exact absurd hchanged hunchanged

/-- Two passes read the same deployment.  The first to replace it overwrites what it read; the other
one fails, and what the first wrote stays. -/
theorem no_lost_update_race :
    ∃ (r : Writers Bool) (events : List (WriteEvent Bool)) (s t : WritersState Bool)
      (m stored : Manifest) (f : Failure),
      r.Reaches (.asked true ⟨.call (.replace .deployment m), .ok stored⟩
        (some (.deployment, r.key)) :: events) s ∧
      Step s (.asked false ⟨.call (.replace .deployment m), .error f⟩ none) t ∧
      s.world.object? .deployment r.key = some stored ∧ t.world = s.world ∧
      t.rest false = .done (.error f) := by
  let record : Instance :=
    ⟨{ name := some "mh", ns := some "mail", uid := some "u1" }, {}, none⟩
  let key : Key := record.key
  let o : Manifest :=
    ⟨none, { name := some "mh", ns := some "mail", resourceVersion := some "1" }, []⟩
  let d : Manifest := record.deployment.toManifest.adoptedBy
    ⟨Instance.apiVersion, Instance.kindName, "mh", "u1", some true, some true⟩
  let m := d.replacementFor o
  let stored : Manifest := m.withMetadata fun x => { x with resourceVersion := some "2" }
  let holding (x : Manifest) (versions : List String) : Objects :=
    ⟨fun k q => if k = .deployment ∧ q = key then some x else none,
      fun k q => if k = .deployment ∧ q = key then versions else []⟩
  let w := holding o ["1"]
  let w' := holding stored ["2", "1"]
  let r : Writers Bool := ⟨key, fun _ => {}⟩
  have hheld {k : Kind} {q : Key} {x y : Manifest} {versions : List String}
      (hx : (holding x versions).object? k q = some y) :
      (holding x versions).versions k q = versions ∧ x = y := by
    by_cases hk : k = .deployment ∧ q = key
    · simpa [holding, hk] using hx
    · simp [holding, hk] at hx
  have hchanges : w.Changes .deployment key w' := by
    refine ⟨fun k q hk => ?_, fun version hv => ?_, fun x hx => ?_⟩
    · simp [w, w', holding, hk]
    · exact List.mem_cons_of_mem _ hv
    · obtain ⟨hversions, rfl⟩ := hheld hx
      exact ⟨"2", hversions ▸ List.mem_cons_self, rfl, by decide⟩
  let s0 : WritersState Bool := ⟨w, fun _ => (Context.pass {} key).run⟩
  have h0 : r.Reaches [] s0 := by
    refine .start ⟨fun _ => rfl, fun k q x hx => ?_⟩
    obtain ⟨hversions, rfl⟩ := hheld hx
    exact ⟨"1", hversions ▸ List.mem_cons_self, rfl⟩
  have h1 := h0.step (.asked _ true (.call (.getInstance key)) _ (.ok (some record)) w none rfl
    (.getInstance key (some record)))
  have h2 := h1.step (.asked _ true (.call (.get .deployment key)) _ (.ok (some o)) w none rfl
    (.get .deployment key))
  have h3 := h2.step (.asked _ false (.call (.getInstance key)) _ (.ok (some record)) w none rfl
    (.getInstance key (some record)))
  have h4 := h3.step (.asked _ false (.call (.get .deployment key)) _ (.ok (some o)) w none rfl
    (.get .deployment key))
  have h5 := h4.step (.asked _ true (.call (.replace .deployment m)) _ (.ok stored) w' _ rfl
    (.replace .deployment m key o (.ok stored) w' rfl rfl rfl hchanges))
  refine ⟨r, _, _, _, m, stored, .conflict "stale", h5, .asked _ false _ _ _ w' none rfl
    (.fails _ _ fun _ _ _ _ hf => by cases hf), rfl, ?_⟩
  have hsecond := no_lost_update h5 (.asked _ false (.call (.replace .deployment m)) _
    (.error (.conflict "stale")) w' none rfl (.fails _ _ fun _ _ _ _ hf => by cases hf))
  obtain ⟨i, rest, child, x, y, later, read, earlier, hturns, hevents, _, _, _, _, _, _, _,
    hrefused⟩ := hsecond
  cases hturns
  have hchanged : ∃ e ∈ later, e.change? = some (.deployment, record.key) := by
    cases later with
    | nil => cases hevents
    | cons e later =>
      obtain ⟨rfl, _⟩ := List.cons.inj hevents
      exact ⟨_, List.mem_cons_self, rfl⟩
  obtain ⟨_, hworld, f, hf, hend⟩ := hrefused hchanged
  cases hf
  exact ⟨hworld, hend⟩
end Writers
end MailCapture
