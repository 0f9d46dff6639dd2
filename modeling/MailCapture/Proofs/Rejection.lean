import MailCapture.Proofs.Audit
import MailCapture.Proofs.Convergence
import MailCapture.Proofs.Hosted
import MailCapture.Proofs.SingleWrite
/-!
Records whose spec breaks a rule.  A pass over one leaves the children alone and reports the rule in
the status; the report is news once, and it is gone again when the record has settled with a spec
that keeps the rules.
-/
namespace MailCapture

def Spec.findings (s : Spec) : List (Option Violation) :=
  [s.maildirViolation?, s.storageViolation?, s.relayViolation?, s.jimViolation?,
    s.webPathViolation?]

/-- The violation of a spec is that of the first rule that is broken. -/
theorem Spec.violation?_eq_some_iff {s : Spec} {violation : Violation} :
    s.violation? = some violation ↔ ∃ before after,
      s.findings = before ++ some violation :: after ∧ ∀ finding ∈ before, finding = none := by
  show s.findings.findSome? id = some violation ↔ _
  rw [List.findSome?_eq_some_iff]
  constructor
  · rintro ⟨before, _, after, h, rfl, hnone⟩
    exact ⟨before, after, h, hnone⟩
  · rintro ⟨before, after, h, hnone⟩
    exact ⟨before, _, after, h, rfl, hnone⟩

def Turn.sent? : Turn → Option Instance
  | ⟨.call (.replaceStatus record), _⟩ => some record
  | _ => none

namespace Instance
variable {i : Instance} {violation : Violation} {unserved : List ChildKind} {turns : List Turn}

/-! ### One rejection -/

/-- Whether turns do no more than reject a record: they call for no child and no pod and count no
child as written, they write the status at most once, with the error and all else as it was, they
publish one warning for each such write that succeeded, and they end with the message of the
violation or with the failure of a call. -/
structure OnlyRejects (i : Instance) (violation : Violation) (turns : List Turn)
    (r : Except Failure PassOutcome) : Prop where
  calls : ∀ turn ∈ turns, ∀ c, turn.1 = .call c → c.kind? = none
  counted : turns.filterMap Turn.counted? = []
  once : (turns.filterMap Turn.sent?).length ≤ 1
  status : ∀ record ∈ turns.filterMap Turn.sent?,
    record.status = some (i.withError violation.message)
  warned : turns.filterMap Turn.event? =
    List.replicate (turns.countP Turn.writesStatus) (i.rejection violation)
  result : r = .ok (.rejected violation.message) ∨
    ∃ f, r = .error f ∧ ∃ turn ∈ turns, Turn.failure? turn = some f

theorem RejectCourse.onlyRejects {r : Except Failure PassOutcome}
    (h : i.RejectCourse violation turns r) : i.OnlyRejects violation turns r := by
  cases h with
  | failed hwrite =>
    cases hwrite <;> constructor <;> simp [StoreCall.kind?, List.filterMap_cons, Turn.counted?,
      Turn.sent?, Turn.event?, Turn.writesStatus]
  | known hwrite =>
    cases hwrite <;> constructor <;> simp [StoreCall.kind?, List.filterMap_cons, Turn.counted?,
      Turn.sent?, Turn.event?, Turn.writesStatus]
  | news hwrite =>
    cases hwrite
    constructor
    case warned => rfl
    all_goals simp [StoreCall.kind?, List.filterMap_cons, Turn.counted?, Turn.sent?]

/-! ### Rejections in a row -/

def Reports (i : Instance) (violation : Violation) : Prop :=
  ∃ status, i.status = some status ∧ status.error = some violation.message

theorem Reports.withError (h : i.Reports violation) :
    i.status = some (i.withError violation.message) := by
  obtain ⟨status, hs, herror⟩ := h
  rw [Instance.withError, hs, Option.getD_some, ← herror]

/-- The rejection of a record that tells of the violation is no news. -/
theorem pass_of_reports (hv : i.spec.violation? = some violation) (h : i.Reports violation)
    (unserved : List ChildKind) :
    (i.pass unserved).run = .done (.ok (.rejected violation.message)) := by
  have hwrite : i.writeStatus (i.withError violation.message) = pure .unchanged :=
    if_pos h.withError
  rw [pass_rejected hv]
  show (i.writeStatus (i.withError violation.message) >>= _ : Action PassOutcome).run = _
  rw [hwrite]
  rfl

end Instance

namespace Surroundings
variable {σ : Type}

/-- The rules of a store that keeps the statuses that it is given while nobody else writes: a write
that succeeds changes the status of the stored record, its version and who manages it. -/
structure KeepsStatus (w : Surroundings σ) : Prop extends w.IsSequential where
  replaceStatus : ∀ s (record : Instance) status answer,
    (w.reply (.replaceStatus { record with status := some status }) s).1 = .ok answer →
    ∃ current version managed, (w.contents s).record? record.key = some current ∧
      w.contents (w.reply (.replaceStatus { record with status := some status }) s).2 =
        (w.contents s).withRecord record.key (current.rewritten status version managed)

end Surroundings

theorem Cluster.surroundings_keepsStatus : Cluster.surroundings.KeepsStatus where
  toIsSequential := surroundings_isSequential
  replaceStatus c record status answer h := by
    let new : Instance := { record with status := some status }
    have hreply : surroundings.reply (.replaceStatus new) c = c.replaceStatus new := rfl
    have hok : (c.replaceStatus new).1 = .ok answer := h
    unfold replaceStatus at hreply hok
    dsimp only at hreply hok
    split at hreply
    · rename_i hnone
      rw [hnone] at hok
      cases hok
    · rename_i current hcurrent
      rw [hcurrent] at hok
      dsimp only at hok
      split at hreply
      · rename_i hstale
        rw [if_pos hstale] at hok
        cases hok
      · refine ⟨current, some c.nextVersion, current.metadata.managedFields, hcurrent, ?_⟩
        exact (congrArg (surroundings.contents ·.2) hreply).trans (contents_putRecord c _ _)

namespace Instance
variable {σ : Type} {w : Surroundings σ} {i : Instance} {s t : σ}

/-- A status that was there before is left, and another one changes the stored record only. -/
theorem contents_of_written (hw : w.KeepsStatus) (hr : (w.contents s).record? i.key = some i)
    {status : Status} {outcome : StatusOutcome}
    (h : (i.writeStatus status).exec w s = (.ok outcome, t)) :
    (i.status = some status ∧ w.contents t = w.contents s) ∨ ∃ version managed,
      w.contents t = (w.contents s).withRecord i.key (i.rewritten status version managed) := by
  by_cases hs : i.status = some status
  · rw [writeStatus_of_stored hs] at h
    cases h
    exact Or.inl ⟨hs, rfl⟩
  · unfold writeStatus at h
    rw [if_neg hs] at h
    have hread := hw.getInstance i.key s
    rw [hr] at hread
    obtain ⟨answer, u, hcall, hlast⟩ :=
      Action.exec_bind_eq_ok ((Action.exec_read_bind hread).symm.trans h)
    cases hlast
    obtain ⟨current, version, managed, hcurrent, hkept⟩ :=
      hw.replaceStatus _ i status answer (congrArg Prod.fst hcall)
    rw [hread.2, hr] at hcurrent
    cases hcurrent
    have hu : w.contents u = _ := (congrArg (w.contents ·.2) hcall).symm.trans hkept
    exact Or.inr ⟨version, managed, by rw [hw.emit, hu, hread.2]⟩

/-- A status that was written, or was there before, is the status of the stored record. -/
theorem stored_of_written (hw : w.KeepsStatus) (hr : (w.contents s).record? i.key = some i)
    {status : Status} {outcome : StatusOutcome}
    (h : (i.writeStatus status).exec w s = (.ok outcome, t)) :
    ∃ j, (w.contents t).record? i.key = some j ∧ j.spec = i.spec ∧ j.status = some status := by
  rcases contents_of_written hw hr h with ⟨hs, hkept⟩ | ⟨version, managed, hkept⟩
  · exact ⟨i, by rw [hkept, hr], rfl, hs⟩
  · refine ⟨i.rewritten status version managed, ?_, rfl, rfl⟩
    rw [hkept, Contents.record?_withRecord_self]

theorem ComputeCourse.looks {turns : List Turn} {r : Except Failure Status}
    (h : i.ComputeCourse turns r) : ∀ turn ∈ turns, turn.1.Looks := by
  cases h <;> simp [Query.Looks]

theorem ComputeCourse.error_eq_none {turns : List Turn} {status : Status}
    (h : i.ComputeCourse turns (.ok status)) : status.error = none := by
  cases h with
  | listed found hr => exact hr status rfl
  | exposed found kind a _ hr => exact hr status rfl

end Instance

namespace Context
variable {σ : Type} {w : Surroundings σ} {i : Instance} {violation : Violation} {ctx : Context}
  {s t : σ}

/-- A pass over a record that tells of its violation only reads the record. -/
theorem pass_of_reports (ctx : Context) (hw : w.IsSequential) {key : Key}
    (hr : (w.contents s).record? key = some i) (hv : i.spec.violation? = some violation)
    (h : i.Reports violation) :
    (ctx.pass key).turns w s = [⟨.call (.getInstance key), .ok (some i)⟩] ∧
      ∃ t, (ctx.pass key).exec w s = (.ok (.rejected violation.message), t) ∧
        w.contents t = w.contents s := by
  have hread := hw.getInstance key s
  rw [hr] at hread
  have hdone : (i.pass ctx.unserved).run.Runs [] (.ok (.rejected violation.message)) := by
    rw [Instance.pass_of_reports hv h]
    exact ⟨rfl, rfl⟩
  refine ⟨(Action.turns_read_bind hread).trans ?_, _, ?_, hread.2⟩
  · exact congrArg _ (Action.exec_of_runs_nil hdone).2
  · exact (Action.exec_read_bind hread).trans (Action.exec_of_runs_nil hdone).1

/-- A pass that has rejected a record leaves it with the error in its status. -/
theorem stored_of_rejected (hw : w.KeepsStatus) (hr : (w.contents s).record? i.key = some i)
    (hv : i.spec.violation? = some violation) {message : String}
    (h : (ctx.pass i.key).exec w s = (.ok (.rejected message), t)) :
    ∃ j, (w.contents t).record? i.key = some j ∧ j.spec = i.spec ∧
      j.status = some (i.withError violation.message) := by
  have hread := hw.getInstance i.key s
  rw [hr] at hread
  have hpass : (i.pass ctx.unserved).exec w (w.reply (.getInstance i.key) s).2 =
      (.ok (.rejected message), t) := (Action.exec_read_bind hread).symm.trans h
  rw [Instance.pass_rejected hv] at hpass
  obtain ⟨outcome, u, hwrite, hlast⟩ := Action.exec_bind_eq_ok hpass
  obtain ⟨j, hj, hspec, hstatus⟩ := Instance.stored_of_written hw (by rw [hread.2, hr]) hwrite
  refine ⟨j, ?_, hspec, hstatus⟩
  cases outcome with
  | unchanged =>
    cases hlast
    exact hj
  | written =>
    cases hlast
    rwa [hw.emit]

/-- A pass that is quiescent has found a status without an error. -/
theorem status_of_quiescent (hw : w.IsSequential) (hr : (w.contents s).record? i.key = some i)
    (hv : i.spec.violation? = none) (h : (ctx.pass i.key).exec w s = (.ok .quiescent, t)) :
    (w.contents t).record? i.key = some i ∧ ∃ status, i.status = some status ∧
      status.error = none := by
  obtain ⟨_, b, hb, hensure⟩ := children_of_pass hw hr hv h
  obtain ⟨status, c, hcompute, hnext⟩ := Action.exec_bind_eq_ok hensure
  have hcourse : i.ComputeCourse (i.computeStatus.turns w b) (i.computeStatus.exec w b).1 :=
    i.computeStatus_courses.turns
  have hc : w.contents c = w.contents s := by
    have hsame := Action.contents_exec hw hcourse.looks
    rw [hcompute] at hsame
    exact hsame.trans hb
  rw [hcompute] at hcourse
  let counted := Effect.podsCounted i.key status.podCount status.readyPodCount
  have hemit : w.contents (w.emit counted c) = w.contents s := (hw.emit counted c).trans hc
  have hwrite : (i.writeStatus status).exec w (w.emit counted c) = (.ok .unchanged, t) :=
    (Action.exec_bind_ok (Action.exec_emit w c counted)).symm.trans hnext
  have hstored := Instance.stored_of_writeStatus hw (by rw [hemit, hr]) hwrite
  rw [Instance.writeStatus_of_stored hstored] at hwrite
  cases hwrite
  exact ⟨by rw [hemit, hr], status, hstored, hcourse.error_eq_none⟩

theorem passes_of_reports (hw : w.IsSequential) {key : Key}
    (hr : (w.contents s).record? key = some i) (hv : i.spec.violation? = some violation)
    (h : i.Reports violation) (n : Nat) :
    (ctx.pass key).turns w (ctx.after w key n s) = [⟨.call (.getInstance key), .ok (some i)⟩] ∧
      ctx.outcome w key n s = .ok (.rejected violation.message) ∧
      w.contents (ctx.after w key n s) = w.contents s := by
  induction n generalizing s with
  | zero =>
    obtain ⟨hturns, t, hpass, _⟩ := pass_of_reports ctx hw hr hv h
    exact ⟨hturns, congrArg Prod.fst hpass, rfl⟩
  | succ n ih =>
    obtain ⟨_, t, hpass, ht⟩ := pass_of_reports ctx hw hr hv h
    have hnext := ih (s := t) (ht ▸ hr)
    rw [outcome_succ hpass, after_succ hpass]
    exact ⟨hnext.1, hnext.2.1, hnext.2.2.trans ht⟩

/-- A record whose spec breaks a rule.  The violation is that of the first broken rule.  Whatever a
pass over the record is answered, it does no more than reject it.  Where nobody else uses the store,
a pass that has rejected it leaves the error in its status, and as long as the record stays so all
further passes only read it.  A pass that is quiescent, which takes a spec that keeps the rules,
leaves a status without an error. -/
theorem rejection_isolated (hv : i.spec.violation? = some violation) :
    (∃ before after, i.spec.findings = before ++ some violation :: after ∧
      ∀ finding ∈ before, finding = none) ∧
    (∀ (ctx : Context) key turns r,
      (ctx.pass key).run.Runs (⟨.call (.getInstance key), .ok (some i)⟩ :: turns) r →
        i.OnlyRejects violation turns r) ∧
    ∀ {σ : Type} (w : Surroundings σ), w.KeepsStatus →
      (∀ (ctx : Context) s message t, (w.contents s).record? i.key = some i →
        (ctx.pass i.key).exec w s = (.ok (.rejected message), t) →
        ∃ stored, (w.contents t).record? i.key = some stored ∧ stored.spec = i.spec ∧
          stored.status = some (i.withError violation.message) ∧
          ∀ u (later : Context) n, (w.contents u).record? i.key = some stored →
            (later.pass i.key).turns w (later.after w i.key n u) =
                [⟨.call (.getInstance i.key), .ok (some stored)⟩] ∧
              later.outcome w i.key n u = .ok (.rejected violation.message) ∧
              w.contents (later.after w i.key n u) = w.contents u) ∧
      ∀ (ctx : Context) s (j : Instance) t, (w.contents s).record? j.key = some j →
        j.spec.violation? = none → (ctx.pass j.key).exec w s = (.ok .quiescent, t) →
        ∃ stored status, (w.contents t).record? j.key = some stored ∧
          stored.status = some status ∧ status.error = none := by
  refine ⟨Spec.violation?_eq_some_iff.1 hv, fun ctx key turns r hrun => ?_, fun w hw =>
    ⟨fun ctx s message t hr hpass => ?_, fun ctx s j t hr hvalid hpass => ?_⟩⟩
  · rw [ctx.runs_pass_of_found] at hrun
    cases i.pass_courses ctx.unserved turns r hrun with
    | rejected hfound hreject =>
      cases hv.symm.trans hfound
      exact hreject.onlyRejects
    | admitted hnone _ => cases hv.symm.trans hnone
  · obtain ⟨stored, hstored, hspec, hstatus⟩ := stored_of_rejected hw hr hv hpass
    refine ⟨stored, hstored, hspec, hstatus, fun u later n hu => ?_⟩
    exact passes_of_reports hw.toIsSequential hu (hspec ▸ hv) ⟨_, hstatus, rfl⟩ n
  · obtain ⟨hkept, status, hstatus, herror⟩ :=
      status_of_quiescent hw.toIsSequential hr hvalid hpass
    exact ⟨j, status, hkept, hstatus, herror⟩

/-- A web path with a slash: the second pass reads the record that tells so, and does nothing. -/
theorem rejection_isolated_webPath :
    let record : Instance := ⟨{ name := some "mh", ns := some "mail", uid := some "u1" },
      { settings := { webPath := "/mail" } }, none⟩
    let first := (Context.pass {} record.key).exec Cluster.surroundings
      { records := [(record.key, record)] }
    first.1 = .ok (.rejected Violation.absoluteWebPath.message) ∧
      ∃ stored, stored.status = some (record.withError Violation.absoluteWebPath.message) ∧
        (Context.pass {} record.key).turns Cluster.surroundings first.2 =
          [⟨.call (.getInstance record.key), .ok (some stored)⟩] := by
  intro record first
  have hv : Spec.violation? { settings := { webPath := "/mail" } } = some .absoluteWebPath := rfl
  have hfirst : first.1 = .ok (.rejected Violation.absoluteWebPath.message) := by
    show ((record.pass []).exec Cluster.surroundings _).1 = _
    rw [Instance.pass_rejected hv]
    rfl
  obtain ⟨stored, hstored, _, hstatus, hlater⟩ :=
    ((rejection_isolated (i := record) hv).2.2 _ Cluster.surroundings_keepsStatus).1 {} _ _ first.2
      rfl (Prod.ext hfirst rfl)
  exact ⟨hfirst, stored, hstatus, (hlater first.2 {} 0 hstored).1⟩

end Context
end MailCapture
