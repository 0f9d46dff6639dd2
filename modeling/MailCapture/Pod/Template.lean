import MailCapture.Metadata
import MailCapture.NumberOrText
import MailCapture.Pod.Scheduling
/-!
Pod templates: the container of an instance with its environment, ports, probes and volumes.
-/
namespace MailCapture

structure EnvVar where
  name : String := ""
  value : Option String := none
  deriving DecidableEq, Repr

structure ContainerPort where
  number : Int32 := 0
  name : Option String := none
  protocol : Option String := none
  deriving DecidableEq, Repr

structure HttpGet where
  path : Option String := none
  port : NumberOrText := .number 0
  scheme : Option String := none
  deriving DecidableEq, Repr

structure Probe where
  httpGet : Option HttpGet := none
  /-- the port that has to accept a connection -/
  tcpSocket : Option NumberOrText := none
  initialDelaySeconds : Option Int32 := none
  timeoutSeconds : Option Int32 := none
  periodSeconds : Option Int32 := none
  successThreshold : Option Int32 := none
  failureThreshold : Option Int32 := none
  deriving DecidableEq, Repr

structure VolumeMount where
  name : String := ""
  mountPath : String := ""
  deriving DecidableEq, Repr

structure Volume where
  name : String := ""
  /-- the name of a config map whose entries are the files -/
  configMap : Option String := none
  emptyDir : Bool := false
  /-- the name of a claim on an existing volume -/
  volumeClaim : Option String := none
  deriving DecidableEq, Repr

structure Container where
  name : String := ""
  image : Option String := none
  args : Option (List String) := none
  env : Option (List EnvVar) := none
  ports : Option (List ContainerPort) := none
  resources : Option Resources := none
  livenessProbe : Option Probe := none
  readinessProbe : Option Probe := none
  startupProbe : Option Probe := none
  volumeMounts : Option (List VolumeMount) := none
  deriving DecidableEq, Repr

structure PodSpec where
  containers : List Container := []
  affinity : Option Affinity := none
  automountServiceAccountToken : Option Bool := none
  volumes : Option (List Volume) := none
  deriving DecidableEq, Repr

structure PodTemplate where
  metadata : Option Metadata := none
  spec : Option PodSpec := none

open Wire

namespace EnvVar

def toJson (e : EnvVar) : Json :=
  record [("name", some (.str e.name)), ("value", e.value.map .str)]

end EnvVar

namespace ContainerPort

def toJson (p : ContainerPort) : Json :=
  record [
    ("containerPort", some (int32 p.number)),
    ("name", p.name.map .str),
    ("protocol", p.protocol.map .str)]

end ContainerPort

namespace HttpGet

def toJson (g : HttpGet) : Json :=
  record [
    ("path", g.path.map .str),
    ("port", some g.port.toJson),
    ("scheme", g.scheme.map .str)]

end HttpGet

namespace Probe

def toJson (p : Probe) : Json :=
  record [
    ("failureThreshold", p.failureThreshold.map int32),
    ("httpGet", p.httpGet.map HttpGet.toJson),
    ("initialDelaySeconds", p.initialDelaySeconds.map int32),
    ("periodSeconds", p.periodSeconds.map int32),
    ("successThreshold", p.successThreshold.map int32),
    ("tcpSocket", p.tcpSocket.map (fun port => record [("port", some port.toJson)])),
    ("timeoutSeconds", p.timeoutSeconds.map int32)]

end Probe

namespace VolumeMount

def toJson (m : VolumeMount) : Json :=
  record [("mountPath", some (.str m.mountPath)), ("name", some (.str m.name))]

end VolumeMount

namespace Volume

def toJson (v : Volume) : Json :=
  record [
    ("configMap", v.configMap.map (fun name => record [("name", some (.str name))])),
    ("emptyDir", if v.emptyDir then some Json.empty else none),
    ("name", some (.str v.name)),
    ("persistentVolumeClaim",
      v.volumeClaim.map (fun claim => record [("claimName", some (.str claim))]))]

end Volume

namespace Container

def toJson (c : Container) : Json :=
  record [
    ("args", c.args.map strings),
    ("env", c.env.map (fun es => .arr (es.map EnvVar.toJson))),
    ("image", c.image.map .str),
    ("livenessProbe", c.livenessProbe.map Probe.toJson),
    ("name", some (.str c.name)),
    ("ports", c.ports.map (fun ps => .arr (ps.map ContainerPort.toJson))),
    ("readinessProbe", c.readinessProbe.map Probe.toJson),
    ("resources", c.resources.map Resources.toJson),
    ("startupProbe", c.startupProbe.map Probe.toJson),
    ("volumeMounts", c.volumeMounts.map (fun ms => .arr (ms.map VolumeMount.toJson)))]

end Container

namespace PodSpec

def toJson (s : PodSpec) : Json :=
  record [
    ("affinity", s.affinity.map Affinity.toJson),
    ("automountServiceAccountToken", s.automountServiceAccountToken.map .bool),
    ("containers", some (.arr (s.containers.map Container.toJson))),
    ("volumes", s.volumes.map (fun vs => .arr (vs.map Volume.toJson)))]

end PodSpec

namespace PodTemplate

def toJson (t : PodTemplate) : Json :=
  record [("metadata", t.metadata.map Metadata.toJson), ("spec", t.spec.map PodSpec.toJson)]

end PodTemplate
end MailCapture
