import MailCapture.Pod.Scheduling
/-!
Settings of a mail-capture instance: where mail is stored, files, chaos rates, web path and ingress.
-/
namespace MailCapture

inductive Storage where
  | memory
  | maildir
  | mongodb
  deriving DecidableEq, Repr

structure MongoSettings where
  uri : String := ""
  db : String := ""
  collection : String := ""
  deriving DecidableEq, Repr

structure MaildirSettings where
  path : String := ""
  /-- a claim on an existing volume; without one the directory lives as long as the pod -/
  pvName : String := ""
  deriving DecidableEq, Repr

structure Relay where
  name : String := ""
  save : Bool := false
  email : String := ""
  host : String := ""
  port : String := ""
  username : String := ""
  password : String := ""
  mechanism : String := ""
  deriving DecidableEq, Repr

structure WebUser where
  name : String
  passwordHash : String
  deriving DecidableEq, Repr

structure SettingsFiles where
  relays : List Relay := []
  webUsers : List WebUser := []
  deriving DecidableEq, Repr

/-- The chaos monkey; rates are texts that hold floating-point numbers. -/
structure Jim where
  invite : Bool := false
  disconnect : String := ""
  accept : String := ""
  linkspeedAffect : String := ""
  linkspeedMin : String := ""
  linkspeedMax : String := ""
  rejectSender : String := ""
  rejectRecipient : String := ""
  rejectAuth : String := ""
  deriving DecidableEq, Repr

structure IngressSettings where
  className : String := ""
  host : String := ""
  tlsSecretName : String := ""
  deriving DecidableEq, Repr

structure Settings where
  hostname : String := ""
  corsOrigin : String := ""
  storage : Storage := .memory
  mongo : MongoSettings := {}
  maildir : MaildirSettings := {}
  files : Option SettingsFiles := none
  resources : Option Resources := none
  affinity : Option Affinity := none
  jim : Jim := {}
  webPath : String := ""
  ingress : IngressSettings := {}
  deriving DecidableEq, Repr

open Wire

namespace Storage

def text : Storage → String
  | .memory => "memory"
  | .maildir => "maildir"
  | .mongodb => "mongodb"

def read? : Document → Option Storage :=
  choice? [("memory", .memory), ("maildir", .maildir), ("mongodb", .mongodb)]

def toJson (s : Storage) : Json := .str s.text

end Storage

namespace MongoSettings

def read? (v : Document) : Option MongoSettings := do
  let fields ← structure? ["uri", "db", "collection"] v
  return {
    uri := ← defaulted fields "uri" string? ""
    db := ← defaulted fields "db" string? ""
    collection := ← defaulted fields "collection" string? "" }

def toJson (m : MongoSettings) : Json :=
  record [
    ("collection", unlessEmpty m.collection),
    ("db", unlessEmpty m.db),
    ("uri", unlessEmpty m.uri)]

end MongoSettings

namespace MaildirSettings

def read? (v : Document) : Option MaildirSettings := do
  let fields ← structure? ["path", "pvName"] v
  return {
    path := ← defaulted fields "path" string? ""
    pvName := ← defaulted fields "pvName" string? "" }

def toJson (m : MaildirSettings) : Json :=
  record [("path", unlessEmpty m.path), ("pvName", unlessEmpty m.pvName)]

end MaildirSettings

namespace Relay

def read? (v : Document) : Option Relay := do
  let fields ← structure?
    ["name", "save", "email", "host", "port", "username", "password", "mechanism"] v
  return {
    name := ← defaulted fields "name" string? ""
    save := ← defaulted fields "save" bool? false
    email := ← defaulted fields "email" string? ""
    host := ← defaulted fields "host" string? ""
    port := ← defaulted fields "port" string? ""
    username := ← defaulted fields "username" string? ""
    password := ← defaulted fields "password" string? ""
    mechanism := ← defaulted fields "mechanism" string? "" }

def toJson (u : Relay) : Json :=
  record [
    ("email", unlessEmpty u.email),
    ("host", unlessEmpty u.host),
    ("mechanism", unlessEmpty u.mechanism),
    ("name", unlessEmpty u.name),
    ("password", unlessEmpty u.password),
    ("port", unlessEmpty u.port),
    ("save", if u.save then some (.bool true) else none),
    ("username", unlessEmpty u.username)]

end Relay

namespace WebUser

def read? (v : Document) : Option WebUser := do
  let fields ← structure? ["name", "passwordHash"] v
  return {
    name := ← required fields "name" string?
    passwordHash := ← required fields "passwordHash" string? }

def toJson (u : WebUser) : Json :=
  record [("name", some (.str u.name)), ("passwordHash", some (.str u.passwordHash))]

end WebUser

namespace SettingsFiles

def read? (v : Document) : Option SettingsFiles := do
  let fields ← structure? ["smtpUpstreams", "webUsers"] v
  return {
    relays := ← defaulted fields "smtpUpstreams" (list? Relay.read?) []
    webUsers := ← defaulted fields "webUsers" (list? WebUser.read?) [] }

def toJson (f : SettingsFiles) : Json :=
  record [
    ("smtpUpstreams",
      if f.relays.isEmpty then none else some (.arr (f.relays.map Relay.toJson))),
    ("webUsers", if f.webUsers.isEmpty then none else some (.arr (f.webUsers.map WebUser.toJson)))]

end SettingsFiles

namespace Jim

def read? (v : Document) : Option Jim := do
  let fields ← structure?
    ["invite", "disconnect", "accept", "linkspeedAffect", "linkspeedMin", "linkspeedMax",
      "rejectSender", "rejectRecipient", "rejectAuth"] v
  return {
    invite := ← defaulted fields "invite" bool? false
    disconnect := ← defaulted fields "disconnect" string? ""
    accept := ← defaulted fields "accept" string? ""
    linkspeedAffect := ← defaulted fields "linkspeedAffect" string? ""
    linkspeedMin := ← defaulted fields "linkspeedMin" string? ""
    linkspeedMax := ← defaulted fields "linkspeedMax" string? ""
    rejectSender := ← defaulted fields "rejectSender" string? ""
    rejectRecipient := ← defaulted fields "rejectRecipient" string? ""
    rejectAuth := ← defaulted fields "rejectAuth" string? "" }

def toJson (j : Jim) : Json :=
  record [
    ("accept", unlessEmpty j.accept),
    ("disconnect", unlessEmpty j.disconnect),
    ("invite", some (.bool j.invite)),
    ("linkspeedAffect", unlessEmpty j.linkspeedAffect),
    ("linkspeedMax", unlessEmpty j.linkspeedMax),
    ("linkspeedMin", unlessEmpty j.linkspeedMin),
    ("rejectAuth", unlessEmpty j.rejectAuth),
    ("rejectRecipient", unlessEmpty j.rejectRecipient),
    ("rejectSender", unlessEmpty j.rejectSender)]

def probabilities (j : Jim) : List String :=
  [j.rejectRecipient, j.rejectAuth, j.rejectSender, j.disconnect, j.accept, j.linkspeedAffect]

end Jim

namespace IngressSettings

def read? (v : Document) : Option IngressSettings := do
  let fields ← structure? ["class", "host", "tlsSecretName"] v
  return {
    className := ← defaulted fields "class" string? ""
    host := ← defaulted fields "host" string? ""
    tlsSecretName := ← defaulted fields "tlsSecretName" string? "" }

def toJson (i : IngressSettings) : Json :=
  record [
    ("class", unlessEmpty i.className),
    ("host", unlessEmpty i.host),
    ("tlsSecretName", unlessEmpty i.tlsSecretName)]

end IngressSettings

namespace Settings

def read? (v : Document) : Option Settings := do
  let fields ← structure?
    ["hostname", "corsOrigin", "storage", "storageMongoDb", "storageMaildir", "files", "resources",
      "affinity", "jim", "webPath", "ingress"] v
  return {
    hostname := ← defaulted fields "hostname" string? ""
    corsOrigin := ← defaulted fields "corsOrigin" string? ""
    storage := ← defaulted fields "storage" Storage.read? .memory
    mongo := ← defaulted fields "storageMongoDb" MongoSettings.read? {}
    maildir := ← defaulted fields "storageMaildir" MaildirSettings.read? {}
    files := ← optional fields "files" SettingsFiles.read?
    resources := ← optional fields "resources" Resources.read?
    affinity := ← optional fields "affinity" Affinity.read?
    jim := ← defaulted fields "jim" Jim.read? {}
    webPath := ← defaulted fields "webPath" string? ""
    ingress := ← defaulted fields "ingress" IngressSettings.read? {} }

def toJson (s : Settings) : Json :=
  record [
    ("affinity", s.affinity.map Affinity.toJson),
    ("corsOrigin", unlessEmpty s.corsOrigin),
    ("files", s.files.map SettingsFiles.toJson),
    ("hostname", unlessEmpty s.hostname),
    ("ingress", some s.ingress.toJson),
    ("jim", some s.jim.toJson),
    ("resources", s.resources.map Resources.toJson),
    ("storage", some s.storage.toJson),
    ("storageMaildir", some s.maildir.toJson),
    ("storageMongoDb", some s.mongo.toJson),
    ("webPath", unlessEmpty s.webPath)]

end Settings
end MailCapture
