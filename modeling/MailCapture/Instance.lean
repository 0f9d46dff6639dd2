import MailCapture.Instance.Settings
import MailCapture.Json.MergePatch
import MailCapture.Kind
import MailCapture.Metadata
/-!
The record of a mail-capture instance: what a user asks for and what was last observed.
-/
namespace MailCapture

inductive Inlet where
  | closed
  | route
  | ingress
  deriving DecidableEq, Repr

inductive Workload where
  | deployment
  | deploymentConfig
  deriving DecidableEq, Repr

structure Spec where
  image : String := "mailhog/mailhog:latest"
  replicas : Int32 := 1
  settings : Settings := {}
  inlet : Inlet := .closed
  workload : Workload := .deployment
  deriving DecidableEq, Repr

structure PodBuckets where
  pending : List String := []
  failed : List String := []
  restarting : List String := []
  ready : List String := []
  other : List String := []
  deriving DecidableEq, Repr

/-- What was last observed of an instance; it is always written as a whole. -/
structure Status where
  pods : PodBuckets := {}
  podCount : Int32 := 0
  readyPodCount : Int32 := 0
  labelSelector : String := ""
  url : Option String := none
  error : Option String := none
  deriving DecidableEq, Repr

structure Instance where
  metadata : Metadata
  spec : Spec
  status : Option Status

open Wire

namespace Inlet

def text : Inlet → String
  | .closed => "none"
  | .route => "route"
  | .ingress => "ingress"

def read? : Document → Option Inlet :=
  choice? [("none", .closed), ("route", .route), ("ingress", .ingress)]

def toJson (i : Inlet) : Json := .str i.text

end Inlet

namespace Workload

def text : Workload → String
  | .deployment => "deployment"
  | .deploymentConfig => "deploymentConfig"

def read? : Document → Option Workload :=
  choice? [("deployment", .deployment), ("deploymentConfig", .deploymentConfig)]

def toJson (w : Workload) : Json := .str w.text

end Workload

namespace Spec

def read? (v : Document) : Option Spec := do
  let fields ← structure? ["image", "replicas", "settings", "webTrafficInlet", "backingResource"] v
  let default : Spec := {}
  return {
    image := ← defaulted fields "image" string? default.image
    replicas := ← defaulted fields "replicas" int32? default.replicas
    settings := ← defaulted fields "settings" Settings.read? {}
    inlet := ← defaulted fields "webTrafficInlet" Inlet.read? .closed
    workload := ← defaulted fields "backingResource" Workload.read? .deployment }

def toJson (s : Spec) : Json :=
  record [
    ("backingResource", some s.workload.toJson),
    ("image", some (.str s.image)),
    ("replicas", some (int32 s.replicas)),
    ("settings", some s.settings.toJson),
    ("webTrafficInlet", some s.inlet.toJson)]

end Spec

namespace PodBuckets

def read? (v : Document) : Option PodBuckets := do
  let fields ← structure? ["pending", "failed", "restarting", "ready", "other"] v
  return {
    pending := ← defaulted fields "pending" strings? []
    failed := ← defaulted fields "failed" strings? []
    restarting := ← defaulted fields "restarting" strings? []
    ready := ← defaulted fields "ready" strings? []
    other := ← defaulted fields "other" strings? [] }

def bucketJson (names : List String) : Option Json :=
  if names.isEmpty then none else some (strings names)

def toJson (b : PodBuckets) : Json :=
  record [
    ("failed", bucketJson b.failed),
    ("other", bucketJson b.other),
    ("pending", bucketJson b.pending),
    ("ready", bucketJson b.ready),
    ("restarting", bucketJson b.restarting)]

def total (b : PodBuckets) : Nat :=
  b.pending.length + b.failed.length + b.restarting.length + b.ready.length + b.other.length

end PodBuckets

namespace Status

def read? (v : Document) : Option Status := do
  let fields ← structure? ["pods", "podCount", "readyPodCount", "labelSelector", "url", "error"] v
  return {
    pods := ← defaulted fields "pods" PodBuckets.read? {}
    podCount := ← defaulted fields "podCount" int32? 0
    readyPodCount := ← defaulted fields "readyPodCount" int32? 0
    labelSelector := ← defaulted fields "labelSelector" string? ""
    url := ← optional fields "url" string?
    error := ← optional fields "error" string? }

def toJson (s : Status) : Json :=
  record [
    ("error", s.error.map .str),
    ("labelSelector", unlessEmpty s.labelSelector),
    ("podCount", some (int32 s.podCount)),
    ("pods", some s.pods.toJson),
    ("readyPodCount", some (int32 s.readyPodCount)),
    ("url", s.url.map .str)]

end Status

/-- Metadata, spec and status of an object, as an object that holds the first two or as an array of
all three. -/
def rootFields? (v : Document) : Option Members :=
  let names := ["metadata", "spec", "status"]
  match v with
  | .arr items => if items.length = names.length then some (names.zip items) else none
  | v => object? names v

namespace Instance

def group : String := "mailhog.operators.patrick.mx"

def apiVersion : String := "mailhog.operators.patrick.mx/v1alpha1"

def kindName : String := "MailhogInstance"

def plural : String := "mailhoginstances"

def read? (v : Document) : Option Instance := do
  let fields ← rootFields? v
  return {
    metadata := ← required fields "metadata" Metadata.read?
    spec := ← required fields "spec" Spec.read?
    status := ← optional fields "status" Status.read? }

def toJson (i : Instance) : Json :=
  record [
    ("apiVersion", some (.str apiVersion)),
    ("kind", some (.str kindName)),
    ("metadata", some i.metadata.toJson),
    ("spec", some i.spec.toJson),
    ("status", i.status.map Status.toJson)]

def patched? (i : Instance) (patch : Json) : Option Instance :=
  (i.toJson.mergePatch patch).as? read?

def name (i : Instance) : String := i.metadata.anyName

def key (i : Instance) : Key := ⟨i.metadata.ns.getD "default", i.name⟩

end Instance
end MailCapture
