import MailCapture.Pass
/-!
The operations of the operator that can be run one at a time, with their results.
-/
namespace MailCapture

inductive Operation where
  | sync (kind : ChildKind)
  | pass
  | computeStatus
  | ensureStatus
  | writeStatus (status : Status)
  | reconcile
  | afterFailure (f : Failure)
  /-- publish one event of each type -/
  | publish (note : Option String)

inductive Result where
  | synced (outcome : SyncOutcome)
  | passed (outcome : PassOutcome)
  | computed (status : Status)
  | status (outcome : StatusOutcome)
  /-- seconds until the next pass, or none to wait for a change -/
  | requeue (seconds : Option UInt64)
  | published
  | failed (f : Failure)

namespace Result

def ofExcept {α : Type} (f : α → Result) : Except Failure α → Result
  | .ok a => f a
  | .error e => .failed e

end Result

namespace Operation

def program (op : Operation) (ctx : Context) (i : Instance) : Prog Query Query.Answer Result :=
  match op with
  | .sync kind => (i.syncChild ctx.unserved kind).run.bind (.done ∘ Result.ofExcept .synced)
  | .pass => (ctx.pass i.key).run.bind (.done ∘ Result.ofExcept .passed)
  | .computeStatus => i.computeStatus.run.bind (.done ∘ Result.ofExcept .computed)
  | .ensureStatus => i.ensureStatus.run.bind (.done ∘ Result.ofExcept .status)
  | .writeStatus s => (i.writeStatus s).run.bind (.done ∘ Result.ofExcept .status)
  | .reconcile => (ctx.reconcile i.key).run.bind (.done ∘ Result.ofExcept .requeue)
  | .afterFailure f => (ctx.afterFailure i.key f).bind (.done ∘ Result.requeue ∘ some)
  | .publish note =>
    .ask (Query.emit (.event ⟨"R1", false, "A1", note, i.reference⟩)) (fun _ =>
      .ask (Query.emit (.event ⟨"R2", true, "A2", note, i.reference⟩)) (fun _ => .done .published))

end Operation
end MailCapture
