import MailCapture.Child.Files
import MailCapture.Pod.Template
/-!
The pod template of an instance: its settings as environment, arguments, volumes and probes of one
container.
-/
namespace MailCapture

def webPort : Int32 := 8025
def webPortName : String := "http"
def smtpPort : Int32 := 1025
def smtpPortName : String := "smtp"

def containerName : String := "mailhog"
def maildirVolume : String := "maildir-storage"
def filesVolume : String := "settings-files"

def healthPath : String := "/api/v2/messages?limit=1"

def defaultResources : Resources :=
  let quantities : Entries String := [("cpu", "200m"), ("memory", "150Mi")]
  { limits := some quantities, requests := some quantities }

namespace Jim

def flags (j : Jim) : List (String × String) := [
  ("jim-disconnect", j.disconnect),
  ("jim-accept", j.accept),
  ("jim-linkspeed-affect", j.linkspeedAffect),
  ("jim-linkspeed-min", j.linkspeedMin),
  ("jim-linkspeed-max", j.linkspeedMax),
  ("jim-reject-sender", j.rejectSender),
  ("jim-reject-recipient", j.rejectRecipient),
  ("jim-reject-auth", j.rejectAuth)]

def args (j : Jim) : List String :=
  if j.invite then
    "-invite-jim" ::
      (j.flags.filter (fun f => !f.2.isEmpty)).map (fun f => "-" ++ f.1 ++ "=" ++ f.2)
  else []

end Jim

namespace Settings

def envUnlessEmpty (name value : String) : List EnvVar :=
  if value.isEmpty then [] else [⟨name, some value⟩]

def storageEnv (s : Settings) : List EnvVar :=
  match s.storage with
  | .memory => []
  | .maildir => envUnlessEmpty "MH_MAILDIR_PATH" s.maildir.path
  | .mongodb =>
    envUnlessEmpty "MH_MONGO_URI" s.mongo.uri ++ envUnlessEmpty "MH_MONGO_DB" s.mongo.db ++
      envUnlessEmpty "MH_MONGO_COLLECTION" s.mongo.collection

def hasRelays (s : Settings) : Bool := s.files.any (fun f => !f.relays.isEmpty)

def hasWebUsers (s : Settings) : Bool := s.files.any (fun f => !f.webUsers.isEmpty)

def filesEnv (s : Settings) : List EnvVar :=
  (if s.hasRelays then
    [⟨"MH_OUTGOING_SMTP", some (settingsMount ++ "/" ++ relaysFile)⟩] else []) ++
  (if s.hasWebUsers then [⟨"MH_AUTH_FILE", some (settingsMount ++ "/" ++ usersFile)⟩] else [])

def env (s : Settings) : List EnvVar :=
  [⟨"MH_SMTP_BIND_ADDR", some "0.0.0.0:1025"⟩,
    ⟨"MH_API_BIND_ADDR", some "0.0.0.0:8025"⟩,
    ⟨"MH_UI_BIND_ADDR", some "0.0.0.0:8025"⟩,
    ⟨"MH_STORAGE", some s.storage.text⟩] ++
  s.storageEnv ++
  envUnlessEmpty "MH_HOSTNAME" s.hostname ++
  envUnlessEmpty "MH_CORS_ORIGIN" s.corsOrigin ++
  envUnlessEmpty "MH_UI_WEB_PATH" s.webPath ++
  s.filesEnv

def mountsMaildir (s : Settings) : Bool :=
  s.storage == .maildir && !s.maildir.path.isEmpty

def maildirVolumes (s : Settings) : List Volume :=
  if s.mountsMaildir then
    if s.maildir.pvName.isEmpty then [{ name := maildirVolume, emptyDir := true }]
    else [{ name := maildirVolume, volumeClaim := some s.maildir.pvName }]
  else []

def mounts (s : Settings) : List VolumeMount :=
  (if s.mountsMaildir then [⟨maildirVolume, s.maildir.path⟩] else []) ++
    (if s.files.isSome then [⟨filesVolume, settingsMount⟩] else [])

def probePath (s : Settings) : String :=
  if s.webPath.isEmpty then healthPath else "/" ++ s.webPath ++ healthPath

end Settings

namespace Probe

def timed (p : Probe) : Probe :=
  { p with
    initialDelaySeconds := some 10
    timeoutSeconds := some 2
    periodSeconds := some 5
    successThreshold := some 1
    failureThreshold := some 3 }

def tcp : Probe := timed { tcpSocket := some (.number webPort) }

def http (path : String) : Probe :=
  timed { httpGet := some ⟨some path, .number webPort, some "HTTP"⟩ }

end Probe

def someUnlessEmpty {α : Type} (items : List α) : Option (List α) :=
  if items.isEmpty then none else some items

namespace Instance

def volumes (i : Instance) : List Volume :=
  i.spec.settings.maildirVolumes ++
    (if i.spec.settings.files.isSome then [{ name := filesVolume, configMap := some i.name }]
      else [])

/-- Ready by an HTTP answer; behind a password only an open port can be asked for. -/
def readinessProbe (i : Instance) : Probe :=
  if i.spec.settings.hasWebUsers then Probe.tcp else Probe.http i.spec.settings.probePath

def container (i : Instance) : Container :=
  let s := i.spec.settings
  { name := containerName
    image := some i.spec.image
    args := someUnlessEmpty s.jim.args
    env := some s.env
    ports := some [
      ⟨webPort, some webPortName, some "TCP"⟩,
      ⟨smtpPort, some smtpPortName, some "TCP"⟩]
    resources := some (s.resources.getD defaultResources)
    livenessProbe := some Probe.tcp
    startupProbe := some Probe.tcp
    readinessProbe := some i.readinessProbe
    volumeMounts := someUnlessEmpty s.mounts }

def podTemplate (i : Instance) : PodTemplate := {
  metadata := some { labels := some i.podLabels }
  spec := some {
    containers := [i.container]
    affinity := i.spec.settings.affinity
    automountServiceAccountToken := some false
    volumes := someUnlessEmpty i.volumes } }

end Instance
end MailCapture
