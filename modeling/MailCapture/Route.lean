import MailCapture.Instance
import MailCapture.Manifest
import MailCapture.NumberOrText
/-!
Routes: public names of a service at the routers of a cluster.
-/
namespace MailCapture

structure RouteTarget where
  kind : String
  name : String
  weight : Option Int32 := none
  deriving DecidableEq, Repr

structure RouteTls where
  termination : String
  insecurePolicy : Option String := none
  deriving DecidableEq, Repr

structure RouteSpec where
  host : Option String := none
  path : Option String := none
  target : RouteTarget
  /-- the port of the target -/
  port : Option NumberOrText := none
  tls : Option RouteTls := none
  deriving DecidableEq, Repr

structure RouteCondition where
  type : String
  status : String
  deriving DecidableEq, Repr

structure RouteIngress where
  host : Option String := none
  routerName : Option String := none
  conditions : List RouteCondition := []
  deriving DecidableEq, Repr

structure RouteStatus where
  ingress : List RouteIngress := []
  deriving DecidableEq, Repr

structure Route where
  metadata : Metadata
  spec : RouteSpec
  status : Option RouteStatus := none

open Wire

namespace RouteTarget

def read? (v : Document) : Option RouteTarget := do
  let fields ← structure? ["kind", "name", "weight"] v
  return {
    kind := ← required fields "kind" string?
    name := ← required fields "name" string?
    weight := ← optional fields "weight" int32? }

def toJson (t : RouteTarget) : Json :=
  record [
    ("kind", some (.str t.kind)),
    ("name", some (.str t.name)),
    ("weight", t.weight.map int32)]

end RouteTarget

namespace RouteTls

def read? (v : Document) : Option RouteTls := do
  let fields ← structure? ["termination", "insecureEdgeTerminationPolicy"] v
  return {
    termination := ← required fields "termination" string?
    insecurePolicy := ← optional fields "insecureEdgeTerminationPolicy" string? }

def toJson (t : RouteTls) : Json :=
  record [
    ("insecureEdgeTerminationPolicy", t.insecurePolicy.map .str),
    ("termination", some (.str t.termination))]

end RouteTls

namespace RouteSpec

def port? (v : Document) : Option NumberOrText := do
  let fields ← structure? ["targetPort"] v
  required fields "targetPort" NumberOrText.read?

def portJson (port : NumberOrText) : Json := record [("targetPort", some port.toJson)]

def read? (v : Document) : Option RouteSpec := do
  let fields ← structure? ["host", "path", "to", "port", "tls"] v
  return {
    host := ← optional fields "host" string?
    path := ← optional fields "path" string?
    target := ← required fields "to" RouteTarget.read?
    port := ← optional fields "port" port?
    tls := ← optional fields "tls" RouteTls.read? }

def toJson (s : RouteSpec) : Json :=
  record [
    ("host", s.host.map .str),
    ("path", s.path.map .str),
    ("port", s.port.map portJson),
    ("tls", s.tls.map RouteTls.toJson),
    ("to", some s.target.toJson)]

end RouteSpec

namespace RouteCondition

def read? (v : Document) : Option RouteCondition := do
  let fields ← structure? ["type", "status"] v
  return {
    type := ← required fields "type" string?
    status := ← required fields "status" string? }

def toJson (c : RouteCondition) : Json :=
  record [("status", some (.str c.status)), ("type", some (.str c.type))]

end RouteCondition

namespace RouteIngress

def read? (v : Document) : Option RouteIngress := do
  let fields ← structure? ["host", "routerName", "conditions"] v
  return {
    host := ← optional fields "host" string?
    routerName := ← optional fields "routerName" string?
    conditions := ← defaulted fields "conditions" (list? RouteCondition.read?) [] }

def toJson (i : RouteIngress) : Json :=
  record [
    ("conditions", some (.arr (i.conditions.map RouteCondition.toJson))),
    ("host", i.host.map .str),
    ("routerName", i.routerName.map .str)]

def isAdmitted (i : RouteIngress) : Bool :=
  i.conditions.any (fun c => c.type == "Admitted" && c.status == "True")

end RouteIngress

namespace RouteStatus

def read? (v : Document) : Option RouteStatus := do
  let fields ← structure? ["ingress"] v
  return { ingress := ← defaulted fields "ingress" (list? RouteIngress.read?) [] }

def toJson (s : RouteStatus) : Json :=
  record [("ingress", some (.arr (s.ingress.map RouteIngress.toJson)))]

end RouteStatus

namespace Route

def types : TypeNames := ⟨"route.openshift.io/v1", "Route"⟩

def read? (v : Document) : Option Route := do
  let fields ← rootFields? v
  return {
    metadata := ← required fields "metadata" Metadata.read?
    spec := ← required fields "spec" RouteSpec.read?
    status := ← optional fields "status" RouteStatus.read? }

def toJson (r : Route) : Json :=
  record [
    ("apiVersion", some (.str types.apiVersion)),
    ("kind", some (.str types.kind)),
    ("metadata", some r.metadata.toJson),
    ("spec", some r.spec.toJson),
    ("status", r.status.map RouteStatus.toJson)]

def toManifest (r : Route) : Manifest :=
  ⟨some types, r.metadata,
    [("spec", some r.spec.toJson), ("status", r.status.map RouteStatus.toJson)].filterMap
      (fun e => e.2.map (fun v => (e.1, v)))⟩

def ofManifest? (m : Manifest) : Option Route := do
  let fields := Document.ofFields m.fields
  return {
    metadata := m.metadata
    spec := ← required fields "spec" RouteSpec.read?
    status := ← optional fields "status" RouteStatus.read? }

end Route
end MailCapture
