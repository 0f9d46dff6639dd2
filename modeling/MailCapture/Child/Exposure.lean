import MailCapture.Child.PodTemplate
import MailCapture.Route
/-!
How an instance is reached from outside: a route, or an ingress.
-/
namespace MailCapture

structure IngressRule where
  host : Option String
  path : String
  serviceName : String
  portName : String
  deriving DecidableEq, Repr

structure IngressTls where
  hosts : Option (List String)
  secretName : String
  deriving DecidableEq, Repr

structure IngressPlan where
  metadata : Metadata
  className : Option String
  rule : IngressRule
  tls : Option IngressTls

namespace IngressRule

def toJson (r : IngressRule) : Json :=
  let backend := Wire.record [("service", some (Wire.record [
    ("name", some (.str r.serviceName)),
    ("port", some (Wire.record [("name", some (.str r.portName))]))]))]
  Wire.record [
    ("host", r.host.map .str),
    ("http", some (Wire.record [("paths", some (.arr [Wire.record [
      ("backend", some backend),
      ("path", some (.str r.path)),
      ("pathType", some (.str "Prefix"))]]))]))]

end IngressRule

namespace IngressTls

def toJson (t : IngressTls) : Json :=
  Wire.record [("hosts", t.hosts.map Wire.strings), ("secretName", some (.str t.secretName))]

end IngressTls

namespace IngressPlan

def types : TypeNames := ⟨"networking.k8s.io/v1", "Ingress"⟩

def toManifest (p : IngressPlan) : Manifest :=
  ⟨some types, p.metadata, [("spec", Wire.record [
    ("ingressClassName", p.className.map .str),
    ("rules", some (.arr [p.rule.toJson])),
    ("tls", p.tls.map (fun t => .arr [t.toJson]))])]⟩

end IngressPlan

def textUnlessEmpty (s : String) : Option String := if s.isEmpty then none else some s

namespace Instance

def route (i : Instance) : Route := {
  metadata := i.childMetadata
  spec := {
    path := (textUnlessEmpty i.spec.settings.webPath).map ("/" ++ ·)
    target := { kind := "Service", name := i.name }
    port := some (.number webPort)
    tls := some { termination := "edge", insecurePolicy := some "Redirect" } } }

def ingress (i : Instance) : IngressPlan :=
  let s := i.spec.settings
  { metadata := i.childMetadata
    className := textUnlessEmpty s.ingress.className
    rule := ⟨textUnlessEmpty s.ingress.host, "/" ++ s.webPath, i.name, webPortName⟩
    tls := (textUnlessEmpty s.ingress.tlsSecretName).map (fun secret =>
      ⟨(textUnlessEmpty s.ingress.host).map (fun host => [host]), secret⟩) }

end Instance
end MailCapture
