import MailCapture.NumberOrText
import MailCapture.Pod.Scheduling
import MailCapture.Shape
/-!
The shapes of containers: environment, ports, probes and rights.
-/
namespace MailCapture.Shape

def numberOrText : Shape := known NumberOrText.read? NumberOrText.toJson (.number 0)

def labelSelector : Shape := known LabelSelector.read? LabelSelector.toJson {}

def resources : Shape := known Resources.read? Resources.toJson {}

/-! ### Environment -/

def entryReference : Shape := .record (text.each ["key", "name"]) (flag.each ["optional"])

def objectReference : Shape := .record (text.each ["name"]) (flag.each ["optional"])

def fieldReference : Shape := .record (text.each ["fieldPath"]) (text.each ["apiVersion"])

def resourceReference : Shape :=
  .record (text.each ["resource"]) (text.each ["containerName", "divisor"])

def envSource : Shape := .record []
  (entryReference.each ["configMapKeyRef", "secretKeyRef"] ++
    [("fieldRef", fieldReference), ("resourceFieldRef", resourceReference)])

def envVar : Shape :=
  .record (text.each ["name"]) (text.each ["value"] ++ [("valueFrom", envSource)])

def envFrom : Shape := .record []
  (objectReference.each ["configMapRef", "secretRef"] ++ text.each ["prefix"])

/-! ### Probes and hooks -/

def command : Shape := .record [] (texts.each ["command"])

def httpGet : Shape := .record [("port", numberOrText)]
  (text.each ["host", "path", "scheme"] ++ [("httpHeaders", .list (named ["name", "value"]))])

def tcpSocket : Shape := .record [("port", numberOrText)] (text.each ["host"])

def probe : Shape := .record []
  (int32.each ["failureThreshold", "initialDelaySeconds", "periodSeconds", "successThreshold",
      "timeoutSeconds"] ++
    int64.each ["terminationGracePeriodSeconds"] ++
    [("exec", command), ("grpc", .record (int32.each ["port"]) (text.each ["service"])),
      ("httpGet", httpGet), ("tcpSocket", tcpSocket)])

def hook : Shape := .record [] [
  ("exec", command), ("httpGet", httpGet), ("sleep", .record (int64.each ["seconds"]) []),
  ("tcpSocket", tcpSocket)]

def lifecycle : Shape := .record [] (hook.each ["postStart", "preStop"] ++ text.each ["stopSignal"])

/-! ### Rights -/

def profile : Shape := .record (text.each ["type"]) (text.each ["localhostProfile"])

def seLinux : Shape := optionalTexts ["level", "role", "type", "user"]

def windows : Shape := .record []
  (text.each ["gmsaCredentialSpec", "gmsaCredentialSpecName", "runAsUserName"] ++
    flag.each ["hostProcess"])

def rights : List (String × Shape) :=
  int64.each ["runAsGroup", "runAsUser"] ++ flag.each ["runAsNonRoot"] ++
    profile.each ["appArmorProfile", "seccompProfile"] ++
    [("seLinuxOptions", seLinux), ("windowsOptions", windows)]

def containerRights : Shape := .record []
  (rights ++ flag.each ["allowPrivilegeEscalation", "privileged", "readOnlyRootFilesystem"] ++
    text.each ["procMount"] ++ [("capabilities", .record [] (texts.each ["add", "drop"]))])

/-! ### Containers -/

def containerPort : Shape :=
  .record (int32.each ["containerPort"])
    (int32.each ["hostPort"] ++ text.each ["hostIP", "name", "protocol"])

def volumeMount : Shape := .record (text.each ["mountPath", "name"])
  (text.each ["mountPropagation", "recursiveReadOnly", "subPath", "subPathExpr"] ++
    flag.each ["readOnly"])

def containerFields : List (String × Shape) :=
  texts.each ["args", "command"] ++
    text.each ["image", "imagePullPolicy", "restartPolicy", "terminationMessagePath",
      "terminationMessagePolicy", "workingDir"] ++
    flag.each ["stdin", "stdinOnce", "tty"] ++
    probe.each ["livenessProbe", "readinessProbe", "startupProbe"] ++
    [("env", .list envVar), ("envFrom", .list envFrom), ("lifecycle", lifecycle),
      ("ports", .list containerPort),
      ("resizePolicy", .list (named ["resourceName", "restartPolicy"])),
      ("resources", resources), ("securityContext", containerRights),
      ("volumeDevices", .list (named ["devicePath", "name"])),
      ("volumeMounts", .list volumeMount)]

def container : Shape := .record (text.each ["name"]) containerFields

def ephemeralContainer : Shape :=
  .record (text.each ["name"]) (containerFields ++ text.each ["targetContainerName"])

end MailCapture.Shape
