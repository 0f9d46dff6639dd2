import MailCapture.Instance
import MailCapture.Manifest
import MailCapture.Pod.Shape.Spec
import MailCapture.Pod.Shape.Status
import MailCapture.Text.Sorted
/-!
Pods as they are observed, and the buckets of their health.
-/
namespace MailCapture

structure ContainerStatus where
  name : String := ""
  restartCount : Int32 := 0
  deriving DecidableEq, Repr

structure PodCondition where
  type : String := ""
  status : String := ""
  deriving DecidableEq, Repr

structure PodStatus where
  phase : Option String := none
  conditions : List PodCondition := []
  containerStatuses : List ContainerStatus := []
  deriving DecidableEq, Repr

structure Pod where
  metadata : Metadata
  status : Option PodStatus

open Wire

namespace ContainerStatus

def read? (v : Document) : Option ContainerStatus := do
  let fields ← v.members?
  return {
    name := ← lenientText fields "name"
    restartCount := ← lenient fields "restartCount" int32? 0 }

end ContainerStatus

namespace PodCondition

def read? (v : Document) : Option PodCondition := do
  let fields ← v.members?
  return { type := ← lenientText fields "type", status := ← lenientText fields "status" }

end PodCondition

namespace PodStatus

def read? (v : Document) : Option PodStatus := do
  let fields ← v.members?
  return {
    phase := ← optional fields "phase" string?
    conditions := ← lenient fields "conditions" (list? PodCondition.read?) []
    containerStatuses := ← lenient fields "containerStatuses" (list? ContainerStatus.read?) [] }

end PodStatus

/-- The health of a pod; the first that applies counts. -/
inductive PodHealth where
  | pending
  | failed
  | restarting
  | ready
  | other
  deriving DecidableEq, Repr

namespace Pod

/-- All of a pod has to be of its types, also what its health does not show. -/
def read? (v : Document) : Option Pod := do
  let fields ← v.members?
  let () ← typeNames? fields "v1" "Pod"
  let _ ← optional fields "spec" Shape.podSpec.read?
  let _ ← optional fields "status" Shape.podStatus.read?
  return {
    metadata := ← lenient fields "metadata" Metadata.read? {}
    status := ← optional fields "status" PodStatus.read? }

def ofManifest? (m : Manifest) : Option Pod := m.toJson.as? read?

def name (p : Pod) : String := p.metadata.anyName

/-- A container that restarted more often than this makes its pod a restarting one. -/
def restartThreshold : Int32 := 3

def healthOf (s : PodStatus) : PodHealth :=
  if s.phase = some "Pending" then .pending
  else if s.phase = some "Failed" then .failed
  else if s.containerStatuses.any (fun c => c.restartCount > restartThreshold) then .restarting
  else if s.conditions.any (fun c => c.type == "Ready" && c.status == "True") then .ready
  else .other

def health (p : Pod) : PodHealth :=
  match p.status with
  | none => .other
  | some s => healthOf s

def bucket (pods : List Pod) (h : PodHealth) : List String :=
  Text.sorted ((pods.filter (fun p => p.health = h)).map name)

def buckets (pods : List Pod) : PodBuckets := {
  pending := bucket pods .pending
  failed := bucket pods .failed
  restarting := bucket pods .restarting
  ready := bucket pods .ready
  other := bucket pods .other }

end Pod
end MailCapture
