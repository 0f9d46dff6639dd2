import MailCapture.Child.PodTemplate
/-!
The service of an instance: its mail and web ports inside the cluster.
-/
namespace MailCapture

structure ServicePort where
  name : String
  port : Int32
  targetPort : Int32
  deriving DecidableEq, Repr

structure Service where
  metadata : Metadata
  selector : Entries String
  ports : List ServicePort

namespace ServicePort

def toJson (p : ServicePort) : Json :=
  Wire.record [
    ("name", some (.str p.name)),
    ("port", some (Wire.int32 p.port)),
    ("protocol", some (.str "TCP")),
    ("targetPort", some (Wire.int32 p.targetPort))]

end ServicePort

namespace Service

def types : TypeNames := ⟨"v1", "Service"⟩

def toManifest (s : Service) : Manifest :=
  ⟨some types, s.metadata, [("spec", Wire.record [
    ("ports", some (.arr (s.ports.map ServicePort.toJson))),
    ("selector", some (Wire.stringMap s.selector)),
    ("type", some (.str "ClusterIP"))])]⟩

end Service

def Instance.service (i : Instance) : Service :=
  ⟨i.childMetadata, i.selectorLabels,
    [⟨smtpPortName, smtpPort, smtpPort⟩, ⟨webPortName, webPort, webPort⟩]⟩

end MailCapture
