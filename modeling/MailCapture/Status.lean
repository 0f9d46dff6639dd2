import MailCapture.Ingress
import MailCapture.Pod
import MailCapture.Store
/-!
The status of an instance: the health of its pods and the address of its web interface.  It is
computed as a whole and written only when it differs from the one that is stored.
-/
namespace MailCapture

def clampCount (n : Nat) : Int32 := Int32.ofNat (min n 2147483647)

def urlOf (scheme host path : String) : String :=
  if path.isEmpty then scheme ++ "://" ++ host else scheme ++ "://" ++ host ++ "/" ++ path

def Route.url? (r : Route) (webPath : String) : Option String := do
  let status ← r.status
  let first ← status.ingress.find? RouteIngress.isAdmitted
  let host ← first.host.filter (fun h => !h.isEmpty)
  return urlOf "https" host webPath

/-- The address of an ingress that a load balancer serves: the host of the spec, or the address of
the first balancer. -/
def Ingress.url? (i : Ingress) (spec : Spec) : Option String := do
  let first ← i.balancers.head?
  let settings := spec.settings.ingress
  let host ←
    if settings.host.isEmpty then first.hostname.orElse (fun _ => first.ip) else some settings.host
  let scheme := if settings.tlsSecretName.isEmpty then "http" else "https"
  return urlOf scheme host spec.settings.webPath

inductive StatusOutcome where
  | unchanged
  | written
  deriving DecidableEq, Repr

namespace Instance

def decoded {α : Type} (value : Option α) : Action α :=
  match value with
  | some a => pure a
  | none => Action.fail .serialization

def exposureUrl (i : Instance) : Action (Option String) := do
  match i.spec.inlet with
  | .closed => return none
  | .route =>
    let found : Option Manifest ← Action.call (.get .route i.key)
    match found with
    | none => return none
    | some m => return (← decoded (Route.ofManifest? m)).url? i.spec.settings.webPath
  | .ingress =>
    let found : Option Manifest ← Action.call (.get .ingress i.key)
    match found with
    | none => return none
    | some m => return (← decoded (Ingress.ofManifest? m)).url? i.spec

def statusOf (i : Instance) (pods : List Pod) (url : Option String) : Status :=
  let buckets := Pod.buckets pods
  { pods := buckets
    podCount := clampCount buckets.total
    readyPodCount := clampCount buckets.ready.length
    labelSelector := i.labelSelector
    url := url
    error := none }

def computeStatus (i : Instance) : Action Status := do
  let found : List Manifest ← Action.call (.list .pod i.key.ns i.labelSelector)
  let pods ← decoded (found.mapM Pod.ofManifest?)
  let url ← i.exposureUrl
  return i.statusOf pods url

/-- Write a status unless it is the stored one.  The record is read again first, so that an edit
made meanwhile is kept. -/
def writeStatus (i : Instance) (status : Status) : Action StatusOutcome := do
  if i.status = some status then return .unchanged
  let latest : Option Instance ← Action.call (.getInstance i.key)
  match latest with
  | none => return .unchanged
  | some record =>
    let _ ← Action.call (.replaceStatus { record with status := some status })
    Action.emit .statusWritten
    return .written

def ensureStatus (i : Instance) : Action StatusOutcome := do
  let status ← i.computeStatus
  Action.emit (.podsCounted i.key status.podCount status.readyPodCount)
  i.writeStatus status

end Instance
end MailCapture
