import MailCapture.Cluster
import MailCapture.Operation
import MailCapture.Store.Scripted
/-!
Scenarios: users edit a cluster, faults are laid into the way of coming calls, and the operator
runs.
-/
namespace MailCapture

inductive Edit where
  | putInstance (record : Instance)
  | patchInstance (key : Key) (patch : Json)
  | removeInstance (key : Key)
  | put (kind : Kind) (object : Manifest)
  | patch (kind : Kind) (key : Key) (patch : Json)
  | remove (kind : Kind) (key : Key)

structure Fault where
  method : Method
  kind : Option Kind
  failure : Option Failure
  edits : List Edit

namespace Cluster

def edit (c : Cluster) : Edit → Except EditFailure Cluster
  | .putInstance i => .ok (c.putRecord i.key i)
  | .patchInstance key patch =>
    match c.record? key with
    | none => .error .noSuchObject
    | some i =>
      match i.patched? patch with
      | none => .error .undecodable
      | some i => .ok (c.putRecord key i)
  | .removeInstance key =>
    if Entries.has c.records key then .ok (c.removeRecord key) else .error .noSuchObject
  | .put kind m =>
    match m.key? with
    | .error f => .error (.failed f)
    | .ok key => .ok (c.putObject ⟨kind, key⟩ m)
  | .patch kind key patch =>
    match c.object? kind key with
    | none => .error .noSuchObject
    | some m =>
      match m.patched? patch with
      | none => .error .undecodable
      | some m => .ok (c.putObject ⟨kind, key⟩ m)
  | .remove kind key =>
    if Entries.has c.objects (⟨kind, key⟩ : Slot) then .ok (c.removeObject ⟨kind, key⟩)
    else .error .noSuchObject

def editAll (c : Cluster) (edits : List Edit) : Cluster :=
  edits.foldl (fun c e => (c.edit e).toOption.getD c) c

end Cluster

/-- A call that names no object never reaches the cluster. -/
def StoreCall.unnamed? : StoreCall → Option Failure
  | .create _ m => match m.key? with
    | .error f => some f
    | .ok _ => none
  | .replace _ m => match m.key? with
    | .error f => some f
    | .ok _ => none
  | _ => none

namespace Fault

def concerns (f : Fault) (c : StoreCall) : Bool :=
  f.method = c.method && (f.kind.isNone || f.kind == c.kind?)

def take? (c : StoreCall) : List Fault → Option (Fault × List Fault)
  | [] => none
  | f :: rest =>
    if f.concerns c then some (f, rest) else (take? c rest).map (fun p => (p.1, f :: p.2))

end Fault

/-- A cluster, the faults still to come, and what the operator did since the last run, the latest
first. -/
structure World where
  cluster : Cluster := {}
  faults : List Fault := []
  seen : List Query := []

namespace World

def handle : (q : Query) → World → q.Answer × World
  | .emit e, w => ((), { w with seen := .emit e :: w.seen })
  | .call c, w =>
    match c.unnamed? with
    | some f => (.error f, w)
    | none =>
      let w := { w with seen := .call c :: w.seen }
      match Fault.take? c w.faults with
      | none =>
        let (answer, cluster) := w.cluster.answer c
        (answer, { w with cluster := cluster })
      | some (fault, rest) =>
        let cluster := w.cluster.editAll fault.edits
        match fault.failure with
        | some f => (.error f, { w with cluster := cluster, faults := rest })
        | none =>
          let (answer, cluster) := cluster.answer c
          (answer, { w with cluster := cluster, faults := rest })

def play {α : Type} (w : World) (p : Prog Query Query.Answer α) : α × World := p.run handle w

end World

inductive Step where
  | edit (e : Edit)
  | fault (f : Fault) (times : Nat)
  | pass (key : Key)
  | converge (key : Key)
  | reconcile (key : Key)
  /-- an operation on a record as it is stored -/
  | operate (key : Key) (op : Operation)
  /-- show what is stored -/
  | dump

inductive StepAnswer where
  | done
  | failed (f : EditFailure)
  /-- one result, what the operator did, and the objects that are stored -/
  | ran (result : Result) (seen : List Query) (objects : List String)
  /-- the results of several passes -/
  | converged (results : List Result) (seen : List Query) (objects : List String)
  | dumped (cluster : Cluster)

namespace World

def isProgressing : Result → Bool
  | .passed .progressing => true
  | _ => false

def converge (ctx : Context) (key : Key) : Nat → World → List Result × World
  | 0, w => ([], w)
  | left + 1, w =>
    let (outcome, w) := w.play (ctx.pass key).run
    let result := Result.ofExcept .passed outcome
    if isProgressing result then
      let (results, w) := converge ctx key left w
      (result :: results, w)
    else ([result], w)

def passLimit : Nat := 20

def report (result : Result) (w : World) : StepAnswer × World :=
  (.ran result w.seen.reverse w.cluster.inventory, { w with seen := [] })

def operate (ctx : Context) (op : Operation) (i : Instance) (w : World) : StepAnswer × World :=
  let (result, w) := w.play (op.program ctx i)
  report result w

def step (ctx : Context) (w : World) : Step → StepAnswer × World
  | .edit e =>
    match w.cluster.edit e with
    | .ok cluster => (.done, { w with cluster := cluster })
    | .error f => (.failed f, w)
  | .fault f times => (.done, { w with faults := w.faults ++ List.replicate times f })
  | .pass key =>
    let (outcome, w) := w.play (ctx.pass key).run
    report (Result.ofExcept .passed outcome) w
  | .converge key =>
    let (results, w) := converge ctx key passLimit w
    (.converged results w.seen.reverse w.cluster.inventory, { w with seen := [] })
  | .reconcile key =>
    match w.cluster.record? key with
    | none => (.failed .noSuchObject, w)
    | some i => operate ctx .reconcile i w
  | .operate key op =>
    match w.cluster.record? key with
    | none => (.failed .noSuchObject, w)
    | some i => operate ctx op i w
  | .dump => (.dumped w.cluster, w)

end World
end MailCapture
