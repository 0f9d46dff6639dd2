import MailCapture.Child.Labels
import MailCapture.Manifest
import MailCapture.Json.Printer
/-!
The settings files of an instance and the config map that holds them.
-/
namespace MailCapture

def settingsMount : String := "/mailhog/settings/files"

def relaysFile : String := "upstream.servers.json"

def usersFile : String := "users.list.bcrypt"

namespace SettingsFiles

/-- The relays by name; of two with one name the later is kept. -/
def servers (f : SettingsFiles) : Json :=
  .obj (Entries.ofPairs (f.relays.map (fun u => (u.name, u.toJson))))

/-- One line for each user: the name, a colon and the hash. -/
def userLines (f : SettingsFiles) : String :=
  String.join (f.webUsers.map (fun u => u.name ++ ":" ++ u.passwordHash ++ "\n"))

/-- The files by name; one with nothing to hold is left out. -/
def contents (f : SettingsFiles) : Entries String :=
  (if f.relays.isEmpty then [] else [(relaysFile, f.servers.render)]) ++
    (if f.webUsers.isEmpty then [] else [(usersFile, f.userLines)])

end SettingsFiles

structure ConfigMap where
  metadata : Metadata
  isImmutable : Bool
  data : Entries String

namespace ConfigMap

def types : TypeNames := ⟨"v1", "ConfigMap"⟩

def toManifest (c : ConfigMap) : Manifest :=
  ⟨some types, c.metadata, [
    ("data", Wire.stringMap c.data),
    ("immutable", .bool c.isImmutable)]⟩

end ConfigMap

def Instance.configMap? (i : Instance) : Option ConfigMap :=
  i.spec.settings.files.map (fun f => ⟨i.childMetadata, false, f.contents⟩)

end MailCapture
