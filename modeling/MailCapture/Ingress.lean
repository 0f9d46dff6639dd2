import MailCapture.Ingress.Shape
import MailCapture.Manifest
/-!
Ingresses as they are observed: the addresses at which load balancers serve them.
-/
namespace MailCapture

structure Balancer where
  hostname : Option String := none
  ip : Option String := none
  deriving DecidableEq, Repr

/-- An ingress, as far as it can be reached; `balancers` is empty until one serves it. -/
structure Ingress where
  metadata : Metadata
  balancers : List Balancer

open Wire

namespace Balancer

def read? (v : Document) : Option Balancer := do
  let fields ← v.members?
  return {
    hostname := ← optional fields "hostname" string?
    ip := ← optional fields "ip" string? }

end Balancer

namespace Ingress

def balancers? (v : Document) : Option (List Balancer) := do
  let status ← v.members?
  lenient status "loadBalancer" (fun b => do
    let fields ← b.members?
    lenient fields "ingress" (list? Balancer.read?) []) []

/-- All of an ingress has to be of its types, also what its addresses do not need. -/
def read? (v : Document) : Option Ingress := do
  let fields ← v.members?
  let () ← typeNames? fields "networking.k8s.io/v1" "Ingress"
  let _ ← optional fields "spec" Shape.ingressSpec.read?
  let _ ← optional fields "status" Shape.ingressStatus.read?
  return {
    metadata := ← lenient fields "metadata" Metadata.read? {}
    balancers := ← lenient fields "status" balancers? [] }

def ofManifest? (m : Manifest) : Option Ingress := m.toJson.as? read?

end Ingress
end MailCapture
