/-!
The kinds of cluster objects, which of them are children of a record, and the keys of objects.
-/
namespace MailCapture

inductive Kind where
  | deployment
  | deploymentConfig
  | service
  | configMap
  | route
  | ingress
  | pod
  deriving DecidableEq, Repr

inductive ChildKind where
  | deployment
  | deploymentConfig
  | service
  | configMap
  | route
  | ingress
  deriving DecidableEq, Repr

namespace Kind

def all : List Kind :=
  [.deployment, .deploymentConfig, .service, .configMap, .route, .ingress, .pod]

def name : Kind → String
  | .deployment => "Deployment"
  | .deploymentConfig => "DeploymentConfig"
  | .service => "Service"
  | .configMap => "ConfigMap"
  | .route => "Route"
  | .ingress => "Ingress"
  | .pod => "Pod"

def group : Kind → String
  | .deployment => "apps"
  | .deploymentConfig => "apps.openshift.io"
  | .service => ""
  | .configMap => ""
  | .route => "route.openshift.io"
  | .ingress => "networking.k8s.io"
  | .pod => ""

def version (_ : Kind) : String := "v1"

def apiVersion (k : Kind) : String :=
  if k.group.isEmpty then k.version else k.group ++ "/" ++ k.version

def plural : Kind → String
  | .deployment => "deployments"
  | .deploymentConfig => "deploymentconfigs"
  | .service => "services"
  | .configMap => "configmaps"
  | .route => "routes"
  | .ingress => "ingresses"
  | .pod => "pods"

def rank : Kind → Nat
  | .deployment => 0
  | .deploymentConfig => 1
  | .service => 2
  | .configMap => 3
  | .route => 4
  | .ingress => 5
  | .pod => 6

def child? : Kind → Option ChildKind
  | .deployment => some .deployment
  | .deploymentConfig => some .deploymentConfig
  | .service => some .service
  | .configMap => some .configMap
  | .route => some .route
  | .ingress => some .ingress
  | .pod => none

def ofName? (s : String) : Option Kind := all.find? (fun k => k.name == s)

end Kind

namespace ChildKind

/-- The order of synchronization: the workload first, so that pods start early. -/
def all : List ChildKind :=
  [.deployment, .deploymentConfig, .service, .configMap, .route, .ingress]

def kind : ChildKind → Kind
  | .deployment => .deployment
  | .deploymentConfig => .deploymentConfig
  | .service => .service
  | .configMap => .configMap
  | .route => .route
  | .ingress => .ingress

def name (k : ChildKind) : String := k.kind.name

def span : ChildKind → String
  | .deployment => "deployment"
  | .deploymentConfig => "deploymentConfig"
  | .service => "service"
  | .configMap => "configMap"
  | .route => "route"
  | .ingress => "ingress"

def ofName? (s : String) : Option ChildKind := (Kind.ofName? s).bind Kind.child?

theorem mem_all (k : ChildKind) : k ∈ all := by cases k <;> decide

theorem child?_kind (k : ChildKind) : k.kind.child? = some k := by cases k <;> rfl

end ChildKind

structure Key where
  ns : String
  name : String
  deriving DecidableEq, Repr

namespace Key

def text (k : Key) : String := k.ns ++ "/" ++ k.name

instance : LT Key := ⟨fun a b => a.ns < b.ns ∨ (a.ns = b.ns ∧ a.name < b.name)⟩

instance : DecidableLT Key := fun a b =>
  inferInstanceAs (Decidable (a.ns < b.ns ∨ (a.ns = b.ns ∧ a.name < b.name)))

end Key
end MailCapture
