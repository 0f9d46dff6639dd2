import MailCapture.Pod.Shape.Container
/-!
The shape of a pod's status.
-/
namespace MailCapture.Shape

def podCondition : Shape := .record (text.each ["status", "type"])
  (text.each ["message", "reason"] ++ time.each ["lastProbeTime", "lastTransitionTime"] ++
    int64.each ["observedGeneration"])

def terminated : Shape := .record (int32.each ["exitCode"])
  (text.each ["containerID", "message", "reason"] ++ int32.each ["signal"] ++
    time.each ["finishedAt", "startedAt"])

def containerState : Shape := .record [] [
  ("running", .record [] (time.each ["startedAt"])), ("terminated", terminated),
  ("waiting", optionalTexts ["message", "reason"])]

def deviceHealth : Shape := .record (text.each ["name"])
  [("resources", .list (.record (text.each ["resourceID"]) (text.each ["health"])))]

def containerUser : Shape := .record []
  [("linux", .record (int64.each ["gid", "uid"]) [("supplementalGroups", .list int64)])]

def mountStatus : Shape := .record (text.each ["mountPath", "name"])
  (text.each ["recursiveReadOnly"] ++ flag.each ["readOnly"])

def containerStatus : Shape :=
  .record (text.each ["image", "imageID", "name"] ++ flag.each ["ready"] ++
      int32.each ["restartCount"])
    (text.each ["containerID", "stopSignal"] ++ flag.each ["started"] ++
      textMap.each ["allocatedResources"] ++ containerState.each ["lastState", "state"] ++
      [("allocatedResourcesStatus", .list deviceHealth), ("resources", resources),
        ("user", containerUser), ("volumeMounts", .list mountStatus)])

def podStatus : Shape := .record []
  (text.each ["hostIP", "message", "nominatedNodeName", "phase", "podIP", "qosClass", "reason",
      "resize"] ++
    int64.each ["observedGeneration"] ++ time.each ["startTime"] ++
    (Shape.list (named ["ip"])).each ["hostIPs", "podIPs"] ++
    (Shape.list containerStatus).each ["containerStatuses", "ephemeralContainerStatuses",
      "initContainerStatuses"] ++
    [("conditions", .list podCondition),
      ("resourceClaimStatuses", .list (.record (text.each ["name"])
        (text.each ["resourceClaimName"])))])

end MailCapture.Shape
