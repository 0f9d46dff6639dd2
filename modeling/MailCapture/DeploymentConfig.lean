import MailCapture.Instance
import MailCapture.Manifest
import MailCapture.NumberOrText
import MailCapture.Pod.Shape.Spec
/-!
Deployment configs: the workload that keeps its own rollout strategy and triggers.
-/
namespace MailCapture

structure RollingParams where
  timeoutSeconds : Option Int64 := none
  maxUnavailable : Option NumberOrText := none
  maxSurge : Option NumberOrText := none
  deriving DecidableEq, Repr

structure RolloutStrategy where
  type : String
  rollingParams : Option RollingParams := none
  deriving DecidableEq, Repr

structure DeploymentConfigSpec where
  replicas : Int32
  selector : Entries String := []
  minReadySeconds : Option Int32 := none
  /-- a pod template, written by its shape -/
  template : Option Json := none
  strategy : Option RolloutStrategy := none
  /-- the types of the triggers that start a rollout -/
  triggers : List String := []

structure DeploymentConfigStatus where
  replicas : Int32 := 0
  readyReplicas : Int32 := 0
  availableReplicas : Int32 := 0
  deriving DecidableEq, Repr

structure DeploymentConfig where
  metadata : Metadata
  spec : DeploymentConfigSpec
  status : Option DeploymentConfigStatus := none

open Wire

namespace RollingParams

def read? (v : Document) : Option RollingParams := do
  let fields ← structure? ["timeoutSeconds", "maxUnavailable", "maxSurge"] v
  return {
    timeoutSeconds := ← optional fields "timeoutSeconds" int64?
    maxUnavailable := ← optional fields "maxUnavailable" NumberOrText.read?
    maxSurge := ← optional fields "maxSurge" NumberOrText.read? }

def toJson (p : RollingParams) : Json :=
  record [
    ("maxSurge", p.maxSurge.map NumberOrText.toJson),
    ("maxUnavailable", p.maxUnavailable.map NumberOrText.toJson),
    ("timeoutSeconds", p.timeoutSeconds.map int64)]

end RollingParams

namespace RolloutStrategy

def read? (v : Document) : Option RolloutStrategy := do
  let fields ← structure? ["type", "rollingParams"] v
  return {
    type := ← required fields "type" string?
    rollingParams := ← optional fields "rollingParams" RollingParams.read? }

def toJson (s : RolloutStrategy) : Json :=
  record [
    ("rollingParams", s.rollingParams.map RollingParams.toJson),
    ("type", some (.str s.type))]

end RolloutStrategy

namespace DeploymentConfigSpec

def trigger? (v : Document) : Option String := do
  let fields ← structure? ["type"] v
  required fields "type" string?

def triggerJson (type : String) : Json := record [("type", some (.str type))]

def read? (v : Document) : Option DeploymentConfigSpec := do
  let fields ← structure?
    ["replicas", "selector", "minReadySeconds", "template", "strategy", "triggers"] v
  return {
    replicas := ← required fields "replicas" int32?
    selector := ← defaulted fields "selector" stringMap? []
    minReadySeconds := ← optional fields "minReadySeconds" int32?
    template := ← optional fields "template" Shape.podTemplate.read?
    strategy := ← optional fields "strategy" RolloutStrategy.read?
    triggers := ← defaulted fields "triggers" (list? trigger?) [] }

def toJson (s : DeploymentConfigSpec) : Json :=
  record [
    ("minReadySeconds", s.minReadySeconds.map int32),
    ("replicas", some (int32 s.replicas)),
    ("selector", some (stringMap s.selector)),
    ("strategy", s.strategy.map RolloutStrategy.toJson),
    ("template", s.template),
    ("triggers", if s.triggers.isEmpty then none else some (.arr (s.triggers.map triggerJson)))]

end DeploymentConfigSpec

namespace DeploymentConfigStatus

def read? (v : Document) : Option DeploymentConfigStatus := do
  let fields ← structure? ["replicas", "readyReplicas", "availableReplicas"] v
  return {
    replicas := ← defaulted fields "replicas" int32? 0
    readyReplicas := ← defaulted fields "readyReplicas" int32? 0
    availableReplicas := ← defaulted fields "availableReplicas" int32? 0 }

def toJson (s : DeploymentConfigStatus) : Json :=
  record [
    ("availableReplicas", some (int32 s.availableReplicas)),
    ("readyReplicas", some (int32 s.readyReplicas)),
    ("replicas", some (int32 s.replicas))]

end DeploymentConfigStatus

namespace DeploymentConfig

def types : TypeNames := ⟨"apps.openshift.io/v1", "DeploymentConfig"⟩

def read? (v : Document) : Option DeploymentConfig := do
  let fields ← rootFields? v
  return {
    metadata := ← required fields "metadata" Metadata.read?
    spec := ← required fields "spec" DeploymentConfigSpec.read?
    status := ← optional fields "status" DeploymentConfigStatus.read? }

def toJson (d : DeploymentConfig) : Json :=
  record [
    ("apiVersion", some (.str types.apiVersion)),
    ("kind", some (.str types.kind)),
    ("metadata", some d.metadata.toJson),
    ("spec", some d.spec.toJson),
    ("status", d.status.map DeploymentConfigStatus.toJson)]

def toManifest (d : DeploymentConfig) : Manifest :=
  ⟨some types, d.metadata,
    [("spec", some d.spec.toJson),
      ("status", d.status.map DeploymentConfigStatus.toJson)].filterMap
      (fun e => e.2.map (fun v => (e.1, v)))⟩

end DeploymentConfig
end MailCapture
