import MailCapture.Pod.Shape.Volume
/-!
The shapes of pod specs and pod templates.
-/
namespace MailCapture.Shape

def affinity : Shape := known Affinity.read? Affinity.toJson {}

def podRights : Shape := .record []
  (rights ++ int64.each ["fsGroup"] ++
    text.each ["fsGroupChangePolicy", "seLinuxChangePolicy", "supplementalGroupsPolicy"] ++
    [("supplementalGroups", .list int64), ("sysctls", .list (named ["name", "value"]))])

def nameService : Shape := .record []
  (texts.each ["nameservers", "searches"] ++
    [("options", .list (optionalTexts ["name", "value"]))])

def toleration : Shape := .record []
  (text.each ["effect", "key", "operator", "value"] ++ int64.each ["tolerationSeconds"])

def spreadConstraint : Shape :=
  .record (text.each ["topologyKey", "whenUnsatisfiable"] ++ int32.each ["maxSkew"])
    (text.each ["nodeAffinityPolicy", "nodeTaintsPolicy"] ++ int32.each ["minDomains"] ++
      texts.each ["matchLabelKeys"] ++ [("labelSelector", labelSelector)])

def podSpec : Shape := .record [("containers", .list container)]
  (int32.each ["priority"] ++
    int64.each ["activeDeadlineSeconds", "terminationGracePeriodSeconds"] ++
    flag.each ["automountServiceAccountToken", "enableServiceLinks", "hostIPC", "hostNetwork",
      "hostPID", "hostUsers", "setHostnameAsFQDN", "shareProcessNamespace"] ++
    text.each ["dnsPolicy", "hostname", "nodeName", "preemptionPolicy", "priorityClassName",
      "restartPolicy", "runtimeClassName", "schedulerName", "serviceAccount",
      "serviceAccountName", "subdomain"] ++
    textMap.each ["nodeSelector", "overhead"] ++
    [("affinity", affinity), ("dnsConfig", nameService),
      ("ephemeralContainers", .list ephemeralContainer),
      ("hostAliases", .list (.record (text.each ["ip"]) (texts.each ["hostnames"]))),
      ("imagePullSecrets", .list secretReference), ("initContainers", .list container),
      ("os", named ["name"]), ("readinessGates", .list (named ["conditionType"])),
      ("resourceClaims", .list (.record (text.each ["name"])
        (text.each ["resourceClaimName", "resourceClaimTemplateName"]))),
      ("resources", resources), ("schedulingGates", .list (named ["name"])),
      ("securityContext", podRights), ("tolerations", .list toleration),
      ("topologySpreadConstraints", .list spreadConstraint), ("volumes", .list volume)])

def podTemplate : Shape := .record [] [("metadata", metadata), ("spec", podSpec)]

end MailCapture.Shape
