import MailCapture.Instance
import MailCapture.Schema
/-!
The schema of instance records.  A field that is always written has its default in the schema; one
that may be left out has none.
-/
namespace MailCapture

open Schema

namespace MongoSettings

def schema : Schema := .record [
  ("uri", described "MongoDB host and port." .string),
  ("db", described "Database name." .string),
  ("collection", described "Collection name." .string)] []

end MongoSettings

namespace MaildirSettings

def schema : Schema := .record [
  ("path", described "Directory inside the container." .string),
  ("pvName", described
    "Pre-existing PersistentVolumeClaim to mount; an emptyDir is used when unset." .string)] []

end MaildirSettings

namespace Relay

def schema : Schema :=
  described "Upstream SMTP relay. Field names match MailHog's outgoing server file." (.record [
    ("name", .string),
    ("save", .boolean),
    ("email", .string),
    ("host", .string),
    ("port", .string),
    ("username", .string),
    ("password", .string),
    ("mechanism", described "SMTP auth mechanism, required when credentials are given." .string)]
    [])

end Relay

namespace WebUser

def schema : Schema :=
  described "Basic-auth user." (.record [
    ("name", .string),
    ("passwordHash", described "bcrypt hash of the password." .string)]
    ["name", "passwordHash"])

end WebUser

namespace SettingsFiles

def schema : Schema := .record [
  ("smtpUpstreams", described "Upstream SMTP servers captured mail can be released to."
    (.list Relay.schema)),
  ("webUsers", described "Basic-auth users for the UI and API." (.list WebUser.schema))] []

end SettingsFiles

namespace Jim

def schema : Schema := .record [
  ("invite", withDefault (.bool false) .boolean),
  ("disconnect", .string),
  ("accept", .string),
  ("linkspeedAffect", .string),
  ("linkspeedMin", .string),
  ("linkspeedMax", .string),
  ("rejectSender", .string),
  ("rejectRecipient", .string),
  ("rejectAuth", .string)] []

end Jim

namespace IngressSettings

def schema : Schema := .record [
  ("class", described "IngressClass name." .string),
  ("host", described "Rule host." .string),
  ("tlsSecretName", described "TLS secret; when set the ingress terminates TLS for `host`."
    .string)] []

end IngressSettings

namespace Settings

/-- The schema of the settings; what they hold of the cluster's own types is any object. -/
def schema : Schema := .record [
  ("hostname", described "Hostname used for SMTP EHLO/HELO." .string),
  ("corsOrigin", described "Value for the API's Access-Control-Allow-Origin header." .string),
  ("storage", withDefault Storage.memory.toJson (described "Storage backend."
    (.choice ["memory", "maildir", "mongodb"]))),
  ("storageMongoDb", withDefault (MongoSettings.toJson {})
    (described "Only used when storage is `mongodb`." MongoSettings.schema)),
  ("storageMaildir", withDefault (MaildirSettings.toJson {})
    (described "Only used when storage is `maildir`." MaildirSettings.schema)),
  ("files", nullable (described "Settings delivered as files through a ConfigMap."
    SettingsFiles.schema)),
  ("resources", nullable (described "Overrides the default container resources." .object)),
  ("affinity", nullable (described "Overrides the pod affinity." .object)),
  ("jim", withDefault (Jim.toJson {})
    (described "Jim, the built-in chaos monkey." Jim.schema)),
  ("webPath", described "Context root for web resources, without leading or trailing slash."
    .string),
  ("ingress", withDefault (IngressSettings.toJson {})
    (described "Ingress settings, only used when the inlet is `ingress`."
      IngressSettings.schema))] []

end Settings

namespace Spec

def description : String :=
  "MailhogInstance is a custom resource for deploying MailHog.\n\nExample: ```yaml " ++
    "apiVersion: mailhog.operators.patrick.mx/v1alpha1 kind: MailhogInstance metadata: name: " ++
    "mailhog spec: image: mailhog/mailhog:latest replicas: 1 webTrafficInlet: route " ++
    "backingResource: deployment settings: storage: maildir storageMaildir: path: /maildir ```"

def schema : Schema :=
  let default : Spec := {}
  described description (.record [
    ("image", withDefault (.str default.image) (described "MailHog container image." .string)),
    ("replicas", withDefault (Wire.int32 default.replicas)
      (described "Number of pods to run." .int32)),
    ("settings", withDefault default.settings.toJson
      (described "MailHog configuration options." Settings.schema)),
    ("webTrafficInlet", withDefault default.inlet.toJson
      (described "How the web interface is exposed outside the cluster."
        (.choice ["none", "route", "ingress"]))),
    ("backingResource", withDefault default.workload.toJson
      (described "Which workload type runs the pods."
        (.choice ["deployment", "deploymentConfig"])))] [])

end Spec

namespace PodBuckets

def schema : Schema := .record [
  ("pending", .list .string),
  ("failed", .list .string),
  ("restarting", .list .string),
  ("ready", .list .string),
  ("other", .list .string)] []

end PodBuckets

namespace Status

def schema : Schema :=
  let default : Status := {}
  described "Observed state, overwritten as a whole on every status write." (.record [
    ("pods", withDefault default.pods.toJson (described "Pod names by health." PodBuckets.schema)),
    ("podCount", withDefault (Wire.int32 default.podCount)
      (described "Number of pods last seen." .int32)),
    ("readyPodCount", withDefault (Wire.int32 default.readyPodCount)
      (described "Number of pods last seen ready." .int32)),
    ("labelSelector", described "Label selector for the pods, usable by an autoscaler." .string),
    ("url", nullable (described "Externally reachable URL of the web interface." .string)),
    ("error", nullable (described "Reason the spec was rejected." .string))] [])

end Status

namespace Instance

def schema : Schema :=
  described "Auto-generated derived type for MailhogInstanceSpec via `CustomResource`" (.record [
    ("spec", Spec.schema),
    ("status", nullable Status.schema)] ["spec"])

end Instance
end MailCapture
