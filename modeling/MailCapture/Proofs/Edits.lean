import MailCapture.Proofs.Audit
import MailCapture.Proofs.Departing
import MailCapture.Proofs.SingleWrite
/-!
Records that are edited while passes write their statuses.  A pass sends the record that it has just
read again, with another status, so a store that refuses what is based on an old version keeps every
edit, and nothing brings a deleted record back.
-/
namespace MailCapture

def Query.OnRecord : Query → Prop
  | .call c => c.kind? = none
  | .emit _ => False

/-- Lists that are equal are cut alike at an element that is not in the first part. -/
theorem exists_of_append {α : Type} {first rest before after : List α} {x : α} (hx : x ∉ first)
    (h : first ++ rest = before ++ x :: after) :
    ∃ middle, before = first ++ middle ∧ rest = middle ++ x :: after := by
  rcases List.append_eq_append_iff.1 h with ⟨middle, hbefore, hrest⟩ | ⟨middle, hfirst, hrest⟩
  · exact ⟨middle, hbefore, hrest⟩
  · cases middle with
    | nil => exact ⟨[], by rw [hfirst, List.append_nil, List.append_nil], hrest.symm⟩
    | cons y middle =>
      obtain ⟨rfl, _⟩ := List.cons.inj hrest
      exact absurd (hfirst ▸ List.mem_append_right before List.mem_cons_self) hx

namespace Instance
variable {i : Instance} {unserved : List ChildKind} {turns before after : List Turn}

/-! ### What a pass does with its record -/

/-- What a pass does with its record after it has read it: nothing, or it reads the record again and
then, if that shows a record, sends that one with another status. -/
inductive RecordCourse (i : Instance) : List Turn → Except Failure PassOutcome → Prop
  | spared {turns : List Turn} {r : Except Failure PassOutcome}
      (hspared : ∀ turn ∈ turns, ¬ turn.1.OnRecord) : RecordCourse i turns r
  | unread {first : List Turn} {f : Failure} {r : Except Failure PassOutcome}
      (hfirst : ∀ turn ∈ first, ¬ turn.1.OnRecord) :
      RecordCourse i (first ++ [⟨.call (.getInstance i.key), .error f⟩]) r
  | gone {first : List Turn} {r : Except Failure PassOutcome}
      (hfirst : ∀ turn ∈ first, ¬ turn.1.OnRecord) (hquiet : first = [] ∨ r = .ok .quiescent) :
      RecordCourse i (first ++ [⟨.call (.getInstance i.key), .ok none⟩]) r
  | sent {first rest : List Turn} {latest : Instance} {status : Status}
      {a : Query.Answer (.call (.replaceStatus { latest with status := some status }))}
      {r : Except Failure PassOutcome} (hfirst : ∀ turn ∈ first, ¬ turn.1.OnRecord)
      (hrest : ∀ turn ∈ rest, ¬ turn.1.OnRecord) :
      RecordCourse i (first ++ ⟨.call (.getInstance i.key), .ok (some latest)⟩ ::
        ⟨.call (.replaceStatus { latest with status := some status }), a⟩ :: rest) r

theorem WriteCourse.record {first more rest : List Turn} {status : Status}
    {s : Except Failure StatusOutcome} {r : Except Failure PassOutcome}
    (hfirst : ∀ turn ∈ first, ¬ turn.1.OnRecord) (h : i.WriteCourse status more s)
    (hrest : ∀ turn ∈ rest, ¬ turn.1.OnRecord) (hmore : rest = [] ∨ s = .ok .written)
    (hquiet : s = .ok .unchanged → first = [] ∨ r = .ok .quiescent) :
    i.RecordCourse (first ++ (more ++ rest)) r := by
  cases h with
  | known hs =>
    refine .spared ?_
    rw [List.forall_mem_append]
    exact ⟨hfirst, hrest⟩
  | unread hs f =>
    rw [hmore.resolve_right (by simp)]
    exact .unread hfirst
  | vanished hs =>
    rw [hmore.resolve_right (by simp)]
    exact .gone hfirst (hquiet rfl)
  | failed hs latest f => exact .sent hfirst hrest
  | written hs latest stored =>
    refine .sent hfirst ?_
    simpa [Query.OnRecord] using hrest

theorem ChildrenCourse.not_onRecord {kinds : List ChildKind} {r : Except Failure Bool}
    (h : i.ChildrenCourse unserved kinds turns r) : ∀ turn ∈ turns, ¬ turn.1.OnRecord := by
  rintro ⟨q, a⟩ hmem
  obtain ⟨k, _, htreats⟩ := h.treats _ hmem
  cases q with
  | call c =>
    intro hnone
    cases hnone.symm.trans htreats
  | emit e => exact id

theorem ComputeCourse.not_onRecord {r : Except Failure Status} (h : i.ComputeCourse turns r) :
    ∀ turn ∈ turns, ¬ turn.1.OnRecord := by
  cases h <;> simp [Query.OnRecord, StoreCall.kind?]

theorem RejectCourse.record {violation : Violation} {r : Except Failure PassOutcome}
    (h : i.RejectCourse violation turns r) : i.RecordCourse turns r := by
  have hnone : ∀ turn ∈ ([] : List Turn), ¬ turn.1.OnRecord := by simp
  cases h with
  | failed hwrite =>
    simpa using hwrite.record hnone hnone (Or.inl rfl) fun _ => Or.inl rfl
  | known hwrite =>
    simpa using hwrite.record hnone hnone (Or.inl rfl) fun _ => Or.inl rfl
  | news hwrite =>
    exact hwrite.record hnone (by simp [Query.OnRecord]) (Or.inr rfl) fun _ => Or.inl rfl

theorem PassCourse.record {r : Except Failure PassOutcome} (h : i.PassCourse unserved turns r) :
    i.RecordCourse turns r := by
  cases h with
  | rejected _ hreject => exact hreject.record
  | admitted _ htail =>
    cases htail with
    | failed hchildren => exact .spared hchildren.not_onRecord
    | ended hchildren => exact .spared hchildren.not_onRecord
    | @settled children _ s hchildren hstatus =>
      cases hstatus with
      | uncomputed hcompute =>
        refine .spared ?_
        rw [List.forall_mem_append]
        exact ⟨hchildren.not_onRecord, hcompute.not_onRecord⟩
      | @computed pods _ status _ hcompute hwrite =>
        let counted : Turn :=
          ⟨.emit (.podsCounted i.key status.podCount status.readyPodCount), ()⟩
        have hfirst : ∀ turn ∈ children ++ (pods ++ [counted]), ¬ turn.1.OnRecord := by
          rw [List.forall_mem_append, List.forall_mem_append]
          exact ⟨hchildren.not_onRecord, hcompute.not_onRecord, by simp [counted, Query.OnRecord]⟩
        have hnone : ∀ turn ∈ ([] : List Turn), ¬ turn.1.OnRecord := by simp
        have hquiet (hs : s = .ok .unchanged) :
            s.map PassOutcome.ofStatus = .ok .quiescent := by
          rw [hs]
          rfl
        have hcourse := hwrite.record hfirst hnone (Or.inl rfl) fun hs => Or.inr (hquiet hs)
        simpa [counted] using hcourse

/-! ### Turns on the record -/

/-- A turn on the record reads it, and nothing follows when it has gone, or sends what the turn
before has read. -/
theorem RecordCourse.of_onRecord {r : Except Failure PassOutcome} {turn : Turn}
    (h : i.RecordCourse turns r) (hturns : turns = before ++ turn :: after)
    (hon : turn.1.OnRecord) :
    (∃ a, turn = ⟨.call (.getInstance i.key), a⟩ ∧
      (a = .ok none → after = [] ∧ (before = [] ∨ r = .ok .quiescent))) ∨
    ∃ earlier latest status a,
      before = earlier ++ [⟨.call (.getInstance i.key), .ok (some latest)⟩] ∧
      turn = ⟨.call (.replaceStatus { latest with status := some status }), a⟩ := by
  have hnot {first : List Turn} (hfirst : ∀ turn ∈ first, ¬ turn.1.OnRecord) : turn ∉ first :=
    fun hmem => hfirst turn hmem hon
  cases h with
  | spared hspared => exact absurd (hturns ▸ by simp) (hnot hspared)
  | unread hfirst =>
    obtain ⟨middle, rfl, hmiddle⟩ := exists_of_append (hnot hfirst) hturns
    cases middle with
    | nil =>
      cases hmiddle
      exact Or.inl ⟨_, rfl, by simp⟩
    | cons _ _ => simp at hmiddle
  | gone hfirst hquiet =>
    obtain ⟨middle, rfl, hmiddle⟩ := exists_of_append (hnot hfirst) hturns
    cases middle with
    | nil =>
      cases hmiddle
      exact Or.inl ⟨_, rfl, fun _ => ⟨rfl, by simpa using hquiet⟩⟩
    | cons _ _ => simp at hmiddle
  | @sent first rest latest status _ _ hfirst hrest =>
    -- the turn is the read, the write that follows it, or one of the rest
    obtain ⟨middle, rfl, hmiddle⟩ := exists_of_append (hnot hfirst) hturns
    cases middle with
    | nil =>
      cases hmiddle
      exact Or.inl ⟨_, rfl, fun hnone => by cases hnone⟩
    | cons read middle =>
      obtain ⟨rfl, hlater⟩ := List.cons.inj hmiddle
      cases middle with
      | nil =>
        cases hlater
        exact Or.inr ⟨first, latest, status, _, rfl, rfl⟩
      | cons write middle =>
        obtain ⟨rfl, hlast⟩ := List.cons.inj hlater
        exact absurd (hlast ▸ by simp) (hnot hrest)

end Instance

namespace Context
variable {ctx : Context} {key : Key} {turns before after : List Turn}
  {r : Except Failure PassOutcome}

/-- A pass sends the record that it has just read for the second time, with another status. -/
theorem sent_of_pass (hpass : (ctx.pass key).run.Runs turns r) {record : Instance}
    {a : Query.Answer (.call (.replaceStatus record))}
    (hturns : turns = before ++ ⟨.call (.replaceStatus record), a⟩ :: after) :
    ∃ i earlier latest status, before = ⟨.call (.getInstance key), .ok (some i)⟩ ::
        (earlier ++ [⟨.call (.getInstance i.key), .ok (some latest)⟩]) ∧
      record = { latest with status := some status } := by
  obtain ⟨b, rest, rfl, hrest⟩ := ctx.runs_pass key hpass
  cases before with
  | nil => cases hturns
  | cons first before =>
    obtain ⟨rfl, hsplit⟩ := List.cons.inj hturns
    rcases hrest with ⟨i, rfl, hi⟩ | rfl
    · have hcourse := (i.pass_courses ctx.unserved rest r hi).record
      rcases hcourse.of_onRecord hsplit rfl with
        ⟨_, hread, _⟩ | ⟨earlier, latest, status, _, rfl, hsent⟩
      · cases hread
      · cases hsent
        exact ⟨i, earlier, latest, status, rfl, rfl⟩
    · simp at hsplit

/-- A pass whose record has gone does nothing more, and has written nothing. -/
theorem gone_of_pass (hpass : (ctx.pass key).run.Runs turns r) {q : Key}
    (hturns : turns = before ++ ⟨.call (.getInstance q), .ok none⟩ :: after) :
    after = [] ∧ writes turns = 0 := by
  obtain ⟨b, rest, rfl, hrest⟩ := ctx.runs_pass key hpass
  cases before with
  | nil =>
    cases hturns
    rcases hrest with ⟨i, hread, _⟩ | rfl
    · cases hread
    · exact ⟨rfl, rfl⟩
  | cons first before =>
    obtain ⟨rfl, hsplit⟩ := List.cons.inj hturns
    rcases hrest with ⟨i, rfl, hi⟩ | rfl
    · have hcourse := (i.pass_courses ctx.unserved rest r hi).record
      rcases hcourse.of_onRecord hsplit rfl with ⟨a, hread, hgone⟩ | ⟨_, _, _, _, _, hsent⟩
      · cases hread
        obtain ⟨rfl, hquiet⟩ := hgone rfl
        refine ⟨rfl, ?_⟩
        -- there is nothing before the read, or the pass was quiescent
        rcases hquiet with rfl | rfl
        · rw [hsplit]
          rfl
        · exact (i.pass_accounted ctx.unserved rest _ hi).done .quiescent rfl
      · cases hsent
    · simp at hsplit

end Context

/-! ### Stores that refuse what is based on an old version -/

/-- A record without its version, the managers of its fields and its status. -/
def Instance.bare (i : Instance) : Instance :=
  ⟨{ i.metadata with resourceVersion := none, managedFields := none }, i.spec, none⟩

theorem Instance.key_eq_of_bare {i j : Instance} (h : i.bare = j.bare) : i.key = j.key := by
  show i.bare.key = j.bare.key
  rw [h]

structure Records where
  record? : Key → Option Instance
  versions : Key → List String

namespace Records

/-- The record of a key is written, under a version that it never had, or deleted. -/
structure Changes (w : Records) (key : Key) (t : Records) : Prop where
  others : ∀ q, q ≠ key → t.record? q = w.record? q ∧ t.versions q = w.versions q
  kept : ∀ version ∈ w.versions key, version ∈ t.versions key
  fresh : ∀ i, t.record? key = some i → ∃ version ∈ t.versions key,
    i.metadata.resourceVersion = some version ∧ version ∉ w.versions key

def Accepts (w : Records) (record : Instance) : Prop :=
  ∀ version, record.metadata.resourceVersion = some version → ∃ current,
    w.record? record.key = some current ∧ current.metadata.resourceVersion = some version

/-- A query, an answer to it and the records afterwards.  Every call may fail, and the reply to a
write may be lost.  A write of a status takes effect only if it is not based on an old version; then
all of the record that is sent may be stored, or only its status. -/
inductive Answers (w : Records) : (q : Query) → q.Answer → Records → Prop
  | emit (e : Effect) : Answers w (.emit e) () w
  | fails (c : StoreCall) (f : Failure) : Answers w (.call c) (.error f) w
  | object (c : StoreCall) (a : c.Answer) (hkind : c.kind? ≠ none) : Answers w (.call c) (.ok a) w
  | getInstance (key : Key) : Answers w (.call (.getInstance key)) (.ok (w.record? key)) w
  | replaceStatus (record stored : Instance) (reply : Except Failure Instance) (t : Records)
      (haccepts : w.Accepts record) (hchanges : w.Changes record.key t)
      (hstored : t.record? record.key = some stored) (hstatus : stored.status = record.status)
      (hbare : stored.bare = record.bare ∨
        ∃ current, w.record? record.key = some current ∧ stored.bare = current.bare) :
      Answers w (.call (.replaceStatus record)) reply t

def IsSound (w : Records) : Prop :=
  ∀ key i, w.record? key = some i →
    i.key = key ∧ ∃ version ∈ w.versions key, i.metadata.resourceVersion = some version

/-- Whether a record was read under its key: while its version is stored, it is what is stored. -/
def HasShown (w : Records) (key : Key) (o : Instance) : Prop :=
  o.key = key ∧ ∃ version ∈ w.versions key, o.metadata.resourceVersion = some version ∧
    ∀ current, w.record? key = some current →
      current.metadata.resourceVersion = some version → current = o

variable {w t : Records} {key q : Key} {o : Instance}

/-- A read changes nothing and shows what is stored. -/
theorem Answers.getInstance_inv {found : Option Instance}
    (h : w.Answers (.call (.getInstance key)) (.ok found) t) : t = w ∧ found = w.record? key := by
  cases h with
  | object _ _ hkind => exact absurd rfl hkind
  | getInstance _ => exact ⟨rfl, rfl⟩

theorem IsSound.hasShown (hs : w.IsSound) (h : w.record? key = some o) : w.HasShown key o := by
  obtain ⟨hkey, version, hmem, hversion⟩ := hs key o h
  refine ⟨hkey, version, hmem, hversion, fun current hcurrent _ => ?_⟩
  exact Option.some.inj (hcurrent.symm.trans h)

theorem IsSound.changes (hs : w.IsSound) (h : w.Changes key t)
    (hkey : ∀ i, t.record? key = some i → i.key = key) : t.IsSound := by
  intro q i hi
  by_cases hq : q = key
  · subst hq
    obtain ⟨version, hmem, hversion, _⟩ := h.fresh i hi
    exact ⟨hkey i hi, version, hmem, hversion⟩
  · obtain ⟨hrecord, hversions⟩ := h.others q hq
    rw [hversions]
    exact hs q i (hrecord ▸ hi)

/-- What was read stays so: a version is never given twice. -/
theorem HasShown.changes (hs : w.HasShown q o) (h : w.Changes key t) : t.HasShown q o := by
  obtain ⟨hkey, version, hmem, hversion, hsame⟩ := hs
  by_cases hq : q = key
  · subst hq
    refine ⟨hkey, version, h.kept version hmem, hversion, fun current hcurrent hold => ?_⟩
    obtain ⟨fresh, _, hfresh, hnew⟩ := h.fresh current hcurrent
    cases hfresh.symm.trans hold
    exact absurd hmem hnew
  · obtain ⟨hrecord, hversions⟩ := h.others q hq
    refine ⟨hkey, version, hversions ▸ hmem, hversion, fun current hcurrent hold => ?_⟩
    exact hsame current (hrecord ▸ hcurrent) hold

/-- What is based on a record that was read is accepted only while that record is stored. -/
theorem HasShown.of_accepts (hs : w.HasShown q o) (status : Option Status)
    (h : w.Accepts { o with status := status }) : w.record? q = some o := by
  obtain ⟨hkey, version, _, hversion, hsame⟩ := hs
  obtain ⟨current, hcurrent, hstored⟩ := h version hversion
  have hq : w.record? q = some current := hkey ▸ hcurrent
  rw [hq, hsame current hq hstored]

end Records

/-! ### Passes between edits -/

structure Editing (ι : Type) where
  key : ι → Key
  context : ι → Context

inductive RecordEdit where
  | write (record : Instance)
  | delete (key : Key)

namespace RecordEdit

def key : RecordEdit → Key
  | .write record => record.key
  | .delete key => key

def record? : RecordEdit → Option Instance
  | .write record => some record
  | .delete _ => none

end RecordEdit

/-- What the last edit of a key has left, the last one first; without any it is what there was. -/
def lastEdit (start : Records) (key : Key) : List RecordEdit → Option Instance
  | [] => start.record? key
  | e :: earlier => if e.key = key then e.record? else lastEdit start key earlier

structure EditingState (ι : Type) where
  world : Records
  /-- what is left of each pass -/
  rest : ι → Prog Query Query.Answer (Except Failure PassOutcome)
  /-- the turns of each pass so far -/
  turns : ι → List Turn

namespace Editing
variable {ι : Type}

inductive Step [DecidableEq ι] : EditingState ι → List RecordEdit → EditingState ι → Prop
  | edited (s : EditingState ι) (e : RecordEdit) (w : Records) (hchanges : s.world.Changes e.key w)
      (hrecord : w.record? e.key = e.record?) : Step s [e] { s with world := w }
  | asked (s : EditingState ι) (j : ι) (q : Query)
      (next : q.Answer → Prog Query Query.Answer (Except Failure PassOutcome)) (a : q.Answer)
      (w : Records) (hrest : s.rest j = .ask q next) (hanswer : s.world.Answers q a w) :
      Step s [] ⟨w, fun k => if k = j then next a else s.rest k,
        fun k => if k = j then s.turns k ++ [⟨q, a⟩] else s.turns k⟩

inductive Reaches [DecidableEq ι] (p : Editing ι) (start : Records) :
    List RecordEdit → EditingState ι → Prop
  | start (hsound : start.IsSound) :
      Reaches p start [] ⟨start, fun j => ((p.context j).pass (p.key j)).run, fun _ => []⟩
  | step {edits more : List RecordEdit} {s t : EditingState ι} (hreaches : Reaches p start edits s)
      (hstep : Step s more t) : Reaches p start (more ++ edits) t

/-- What holds after every step: versions are as they should be, what is left of a pass continues
its turns, what it has read was stored, and what is stored is what the user has left. -/
structure Invariant (p : Editing ι) (start : Records) (edits : List RecordEdit)
    (s : EditingState ι) : Prop where
  sound : s.world.IsSound
  runs : ∀ j more b, (s.rest j).Runs more b →
    ((p.context j).pass (p.key j)).run.Runs (s.turns j ++ more) b
  shown : ∀ j q o, (⟨.call (.getInstance q), .ok (some o)⟩ : Turn) ∈ s.turns j →
    s.world.HasShown q o
  kept : ∀ key, (s.world.record? key).map Instance.bare =
    (lastEdit start key edits).map Instance.bare

variable {p : Editing ι} {start : Records} {edits : List RecordEdit} {s t : EditingState ι}

theorem Invariant.edited (h : p.Invariant start edits s) {e : RecordEdit} {w : Records}
    (hchanges : s.world.Changes e.key w) (hrecord : w.record? e.key = e.record?) :
    p.Invariant start (e :: edits) { s with world := w } where
  sound := by
    refine h.sound.changes hchanges fun i hi => ?_
    rw [hrecord] at hi
    cases e with
    | write record =>
      cases hi
      rfl
    | delete key => cases hi
  runs := h.runs
  shown j q o hmem := (h.shown j q o hmem).changes hchanges
  kept key := by
    by_cases hkey : e.key = key
    · rw [lastEdit, if_pos hkey, ← hkey, hrecord]
    · rw [lastEdit, if_neg hkey, (hchanges.others key (Ne.symm hkey)).1]
      exact h.kept key

/-- What a pass is answered leaves the records as they are, or it replaces one by another that
differs in its status only. -/
theorem Invariant.world (h : p.Invariant start edits s) {j : ι} {q : Query}
    {next : q.Answer → Prog Query Query.Answer (Except Failure PassOutcome)} {a : q.Answer}
    {w : Records} (hrest : s.rest j = .ask q next) (hanswer : s.world.Answers q a w) :
    w = s.world ∨ ∃ key old new, s.world.Changes key w ∧ s.world.record? key = some old ∧
      w.record? key = some new ∧ new.bare = old.bare := by
  cases hanswer with
  | replaceStatus record stored reply t haccepts hchanges hstored hstatus hbare =>
    obtain ⟨more, b, hmore⟩ := (next reply).ends
    have hrun := h.runs j (⟨.call (.replaceStatus record), reply⟩ :: more) b
      (by rw [hrest]; exact ⟨reply, more, rfl, hmore⟩)
    obtain ⟨i, earlier, latest, status, hturns, rfl⟩ := Context.sent_of_pass hrun rfl
    -- the record that is sent was read before, so it is accepted only if it is still there
    have hshown := h.shown j i.key latest (by rw [hturns]; simp)
    have hold : s.world.record? latest.key = some latest :=
      hshown.1.symm ▸ hshown.of_accepts (some status) haccepts
    refine Or.inr ⟨latest.key, latest, stored, hchanges, hold, hstored, ?_⟩
    rcases hbare with hsent | ⟨current, hcurrent, hkept⟩
    · exact hsent
    · cases hold.symm.trans hcurrent
      exact hkept
  | _ => exact Or.inl rfl

theorem Invariant.asked [DecidableEq ι] (h : p.Invariant start edits s) {j : ι} {q : Query}
    {next : q.Answer → Prog Query Query.Answer (Except Failure PassOutcome)} {a : q.Answer}
    {w : Records} (hrest : s.rest j = .ask q next) (hanswer : s.world.Answers q a w) :
    p.Invariant start edits ⟨w, fun k => if k = j then next a else s.rest k,
      fun k => if k = j then s.turns k ++ [⟨q, a⟩] else s.turns k⟩ where
  sound := by
    rcases h.world hrest hanswer with rfl | ⟨key, old, new, hchanges, hold, hnew, hbare⟩
    · exact h.sound
    · refine h.sound.changes hchanges fun i hi => ?_
      cases hnew.symm.trans hi
      rw [Instance.key_eq_of_bare hbare]
      exact (h.sound key old hold).1
  runs k more b hr := by
    by_cases hk : k = j
    · subst hk
      simp only [if_true, List.append_assoc] at hr ⊢
      apply h.runs
      rw [hrest]
      exact ⟨a, more, rfl, hr⟩
    · simp only [if_neg hk] at hr ⊢
      exact h.runs k more b hr
  shown k key o hmem := by
    have hcases : (⟨.call (.getInstance key), .ok (some o)⟩ : Turn) ∈ s.turns k ∨
        (⟨q, a⟩ : Turn) = ⟨.call (.getInstance key), .ok (some o)⟩ := by
      by_cases hk : k = j
      · simp only [if_pos hk, List.mem_append, List.mem_singleton] at hmem
        exact hmem.imp_right Eq.symm
      · simp only [if_neg hk] at hmem
        exact Or.inl hmem
    rcases hcases with hearlier | hnow
    · rcases h.world hrest hanswer with rfl | ⟨_, _, _, hchanges, _⟩
      · exact h.shown k key o hearlier
      · exact (h.shown k key o hearlier).changes hchanges
    · cases hnow
      obtain ⟨rfl, hfound⟩ := hanswer.getInstance_inv
      exact h.sound.hasShown hfound.symm
  kept key := by
    rcases h.world hrest hanswer with rfl | ⟨q, old, new, hchanges, hold, hnew, hbare⟩
    · exact h.kept key
    · by_cases hkey : key = q
      · subst hkey
        rw [← h.kept key, hold, hnew, Option.map_some, Option.map_some, hbare]
      · rw [← h.kept key, (hchanges.others key hkey).1]

theorem Reaches.invariant [DecidableEq ι] (h : p.Reaches start edits s) :
    p.Invariant start edits s := by
  induction h with
  | start hsound => exact ⟨hsound, fun _ _ _ hr => hr, by simp, fun _ => rfl⟩
  | step hreaches hstep ih =>
    cases hstep with
    | edited e w hchanges hrecord => exact ih.edited hchanges hrecord
    | asked j q next a w hrest hanswer => exact ih.asked hrest hanswer

/-- What a pass sends to have a status written is the record that its second read has shown right
before, with another status, whatever the first read has shown; when a read shows no record, the
pass does nothing more and has written nothing.  So wherever edits come between the turns of passes,
what is stored for a key is what the last edit has left, but for its version, the managers of its
fields and its status: no edit is undone, and a deleted record does not come back. -/
theorem record_not_clobbered [DecidableEq ι] (p : Editing ι) :
    (∀ (ctx : Context) key turns r, (ctx.pass key).run.Runs turns r →
      (∀ before record a after, turns = before ++ ⟨.call (.replaceStatus record), a⟩ :: after →
        ∃ i earlier latest status, before = ⟨.call (.getInstance key), .ok (some i)⟩ ::
            (earlier ++ [⟨.call (.getInstance i.key), .ok (some latest)⟩]) ∧
          record = { latest with status := some status }) ∧
      ∀ before q after, turns = before ++ ⟨.call (.getInstance q), .ok none⟩ :: after →
        after = [] ∧ writes turns = 0) ∧
    ∀ start edits s, p.Reaches start edits s → ∀ key,
      (s.world.record? key).map Instance.bare = (lastEdit start key edits).map Instance.bare := by
  refine ⟨fun ctx key turns r hrun => ⟨fun before record a after hturns => ?_,
    fun before q after hturns => ?_⟩, fun start edits s hreaches => hreaches.invariant.kept⟩
  · exact Context.sent_of_pass hrun hturns
  · exact Context.gone_of_pass hrun hturns

/-- The user edits a record between the two reads of a pass that rejects it: the pass writes the
status, and the edit stays. -/
theorem record_not_clobbered_race :
    let record (path version : String) : Instance :=
      ⟨{ name := some "mh", ns := some "mail", resourceVersion := some version },
        { settings := { webPath := path } }, none⟩
    let first := record "/mail" "1"
    let edited := record "/post" "2"
    let p : Editing Unit := ⟨fun _ => first.key, fun _ => {}⟩
    ∃ start s stored, p.Reaches start [.write edited] s ∧ start.record? first.key = some first ∧
      s.world.record? first.key = some stored ∧ stored.bare = edited.bare ∧
      stored.status = some (first.withError Violation.absoluteWebPath.message) := by
  intro record first edited p
  have hv : Spec.violation? { settings := { webPath := "/mail" } } = some .absoluteWebPath := rfl
  let key : Key := first.key
  let holding (i : Instance) (versions : List String) : Records :=
    ⟨fun q => if q = key then some i else none, fun q => if q = key then versions else []⟩
  have hchanges {i j : Instance} {versions : List String} {version : String}
      (hj : j.metadata.resourceVersion = some version) (hnew : version ∉ versions) :
      (holding i versions).Changes key (holding j (version :: versions)) := by
    refine ⟨fun q hq => ?_, fun v hmem => ?_, fun x hx => ?_⟩
    · simp [holding, hq]
    · simp only [holding, if_true] at hmem ⊢
      exact List.mem_cons_of_mem _ hmem
    · simp only [holding, if_true, Option.some.injEq] at hx
      subst hx
      exact ⟨version, by simp [holding], hj, by simpa [holding] using hnew⟩
  let start := holding first ["1"]
  let w := holding edited ["2", "1"]
  let status := first.withError Violation.absoluteWebPath.message
  let sent : Instance := { edited with status := some status }
  let stored : Instance := edited.rewritten status (some "3") none
  let w' := holding stored ["3", "2", "1"]
  have hsound : start.IsSound := by
    intro q i hi
    by_cases hq : q = key
    · subst hq
      simp only [start, holding, if_true, Option.some.injEq] at hi
      subst hi
      exact ⟨rfl, "1", by simp [start, holding], rfl⟩
    · simp [start, holding, hq] at hi
  have haccepts : w.Accepts sent := fun version hversion => ⟨edited, rfl, hversion⟩
  obtain ⟨next, hnext, later, hlater⟩ : ∃ next,
      (first.pass []).run = .ask (.call (.getInstance key)) next ∧
        ∃ later, next (.ok (some edited)) = .ask (.call (.replaceStatus sent)) later := by
    rw [Instance.pass_rejected hv]
    exact ⟨_, rfl, _, rfl⟩
  have h1 := (Reaches.start (p := p) hsound).step (.asked _ () (.call (.getInstance key)) _
    (.ok (some first)) start rfl (.getInstance key))
  have h2 := h1.step (.edited _ (.write edited) w (hchanges rfl (by decide)) rfl)
  have h3 := h2.step (.asked _ () (.call (.getInstance key)) next (.ok (some edited)) w hnext
    (.getInstance key))
  have h4 := h3.step (.asked _ () (.call (.replaceStatus sent)) later (.ok stored) w' hlater
    (.replaceStatus sent stored (.ok stored) w' haccepts (hchanges rfl (by decide)) rfl rfl
      (Or.inl rfl)))
  have hkept := (record_not_clobbered p).2 start _ _ h4 key
  exact ⟨start, _, stored, h4, rfl, rfl, Option.some.inj hkept, rfl⟩

end Editing
end MailCapture
