import Mathlib.Data.List.Nodup
import MailCapture.Child
import MailCapture.Proofs.Labelling
import MailCapture.Proofs.Mounts
/-!
What the container of an instance is told: its environment, and how it shows that it is ready.  The
environment is read off one table of variables, each with its value or with none.  Where settings
files are asked for, the config map, the volume, the mount, the environment and the probe agree on
them.
-/
namespace MailCapture

/-! ### Variables -/

theorem textUnlessEmpty_eq_some {s value : String} :
    textUnlessEmpty s = some value ↔ s = value ∧ value ≠ "" := by
  by_cases hs : s = ""
  · subst hs
    simp [textUnlessEmpty]
  · rw [textUnlessEmpty, if_neg (by simpa using hs), Option.some.injEq]
    constructor
    · rintro rfl
      exact ⟨rfl, hs⟩
    · exact And.left

def EnvVar.given (name : String) (value : Option String) : List EnvVar :=
  (value.map (fun v => ⟨name, some v⟩)).toList

namespace Settings

/-- All variables that a container may be given, those that are not without a value. -/
def envTable (s : Settings) : List (String × Option String) := [
  ("MH_SMTP_BIND_ADDR", some "0.0.0.0:1025"),
  ("MH_API_BIND_ADDR", some "0.0.0.0:8025"),
  ("MH_UI_BIND_ADDR", some "0.0.0.0:8025"),
  ("MH_STORAGE", some s.storage.text),
  ("MH_MAILDIR_PATH", if s.storage = .maildir then textUnlessEmpty s.maildir.path else none),
  ("MH_MONGO_URI", if s.storage = .mongodb then textUnlessEmpty s.mongo.uri else none),
  ("MH_MONGO_DB", if s.storage = .mongodb then textUnlessEmpty s.mongo.db else none),
  ("MH_MONGO_COLLECTION",
    if s.storage = .mongodb then textUnlessEmpty s.mongo.collection else none),
  ("MH_HOSTNAME", textUnlessEmpty s.hostname),
  ("MH_CORS_ORIGIN", textUnlessEmpty s.corsOrigin),
  ("MH_UI_WEB_PATH", textUnlessEmpty s.webPath),
  ("MH_OUTGOING_SMTP", if s.hasRelays then some (settingsMount ++ "/" ++ relaysFile) else none),
  ("MH_AUTH_FILE", if s.hasWebUsers then some (settingsMount ++ "/" ++ usersFile) else none)]

variable {s : Settings} {name : String} {value : Option String}

theorem envUnlessEmpty_eq (name value : String) :
    envUnlessEmpty name value = EnvVar.given name (textUnlessEmpty value) := by
  unfold envUnlessEmpty textUnlessEmpty
  split <;> rfl

theorem env_eq (s : Settings) : s.env = s.envTable.flatMap (fun e => EnvVar.given e.1 e.2) := by
  have hfiles : s.filesEnv =
      EnvVar.given "MH_OUTGOING_SMTP"
          (if s.hasRelays then some (settingsMount ++ "/" ++ relaysFile) else none) ++
        EnvVar.given "MH_AUTH_FILE"
          (if s.hasWebUsers then some (settingsMount ++ "/" ++ usersFile) else none) := by
    unfold filesEnv
    cases s.hasRelays <;> cases s.hasWebUsers <;> rfl
  have hnone (name : String) : EnvVar.given name none = [] := rfl
  have hsome (name value : String) : EnvVar.given name (some value) = [⟨name, some value⟩] := rfl
  simp only [env, envUnlessEmpty_eq, hfiles, envTable, List.flatMap_cons, List.flatMap_nil, hsome]
  cases hs : s.storage <;> simp [storageEnv, hs, envUnlessEmpty_eq, hnone]

theorem mem_env_iff : ⟨name, value⟩ ∈ s.env ↔ (name, value) ∈ s.envTable ∧ value.isSome = true := by
  rw [env_eq, List.mem_flatMap]
  constructor
  · rintro ⟨⟨n, v⟩, hmem, hgiven⟩
    cases v with
    | none => cases hgiven
    | some v =>
      cases List.mem_singleton.1 hgiven
      exact ⟨hmem, rfl⟩
  · rintro ⟨hmem, hsome⟩
    obtain ⟨v, rfl⟩ := Option.isSome_iff_exists.1 hsome
    exact ⟨_, hmem, List.mem_singleton_self _⟩

theorem nodup_envTable (s : Settings) : (s.envTable.map Prod.fst).Nodup := by
  simp [envTable]

/-- A variable is given with the value that the table has for it. -/
theorem mem_env_of_entry {v : Option String} (h : (name, v) ∈ s.envTable) :
    ⟨name, value⟩ ∈ s.env ↔ value = v ∧ v.isSome = true := by
  rw [mem_env_iff]
  constructor
  · rintro ⟨hmem, hsome⟩
    cases List.inj_on_of_nodup_map s.nodup_envTable hmem h rfl
    exact ⟨rfl, hsome⟩
  · rintro ⟨rfl, hsome⟩
    exact ⟨h, hsome⟩

/-- No variable is given twice. -/
theorem nodup_env (s : Settings) : (s.env.map EnvVar.name).Nodup := by
  refine List.Nodup.sublist ?_ s.nodup_envTable
  rw [env_eq]
  generalize s.envTable = table
  induction table with
  | nil => exact .refl _
  | cons e rest ih =>
    rw [List.flatMap_cons, List.map_append, List.map_cons]
    cases he : e.2 with
    | none => exact ih.cons _
    | some v => exact ih.cons_cons _

end Settings

namespace PodTemplate

def env (t : PodTemplate) : List EnvVar :=
  (t.spec.elim [] PodSpec.containers).flatMap (fun c => c.env.getD [])

def readinessProbes (t : PodTemplate) : List Probe :=
  (t.spec.elim [] PodSpec.containers).filterMap Container.readinessProbe

end PodTemplate

/-! ### Settings files -/

namespace SettingsFiles

/-- Each file is there exactly if it has something to hold. -/
theorem get?_contents (f : SettingsFiles) :
    Entries.get? f.contents relaysFile =
        (if f.relays.isEmpty then none else some f.servers.render) ∧
      Entries.get? f.contents usersFile =
        if f.webUsers.isEmpty then none else some f.userLines := by
  unfold contents
  cases f.relays.isEmpty <;> cases f.webUsers.isEmpty <;> exact ⟨rfl, rfl⟩

end SettingsFiles

namespace Instance
variable {i : Instance}

theorem env_podTemplate : i.podTemplate.env = i.spec.settings.env := by
  simp [PodTemplate.env, podTemplate, container]

def file? (i : Instance) (name : String) : Option Json :=
  (ChildKind.configMap.desired i).bind (fun m => (m.field "data").field? name)

theorem desired_configMap {f : SettingsFiles} (hf : i.spec.settings.files = some f) :
    ChildKind.configMap.desired i =
      some (ConfigMap.toManifest ⟨i.childMetadata, false, f.contents⟩) := by
  simp [ChildKind.desired, ChildKind.isSelected, configMap?, hf]

theorem file?_eq (i : Instance) (name : String) : i.file? name =
    (i.spec.settings.files.bind (fun f => Entries.get? f.contents name)).map .str := by
  cases hf : i.spec.settings.files with
  | none => simp [file?, ChildKind.desired, ChildKind.isSelected, hf]
  | some f =>
    rw [file?, desired_configMap hf]
    exact Entries.get?_mapValues (fun _ => Json.str) f.contents name

theorem files_of_file? {name : String} (h : (i.file? name).isSome = true) :
    i.spec.settings.files.isSome = true := by
  rw [file?_eq, Option.isSome_map] at h
  cases hf : i.spec.settings.files with
  | none => simp [hf] at h
  | some f => rfl

/-- The config map has a file exactly where the container is told of it. -/
theorem isSome_file? (i : Instance) :
    (i.file? relaysFile).isSome = i.spec.settings.hasRelays ∧
      (i.file? usersFile).isSome = i.spec.settings.hasWebUsers := by
  rw [file?_eq, file?_eq, Option.isSome_map, Option.isSome_map, Settings.hasRelays,
    Settings.hasWebUsers]
  cases i.spec.settings.files with
  | none => exact ⟨rfl, rfl⟩
  | some f =>
    rw [Option.bind_some, Option.bind_some, Option.any_some, Option.any_some,
      f.get?_contents.1, f.get?_contents.2]
    cases f.relays.isEmpty <;> cases f.webUsers.isEmpty <;> exact ⟨rfl, rfl⟩

/-- The container is told of a file by its path exactly if the config map has the file. -/
theorem mem_env_file (i : Instance) :
    ∀ e ∈ [("MH_OUTGOING_SMTP", relaysFile), ("MH_AUTH_FILE", usersFile)], ∀ value,
      ⟨e.1, value⟩ ∈ i.podTemplate.env ↔
        (i.file? e.2).isSome = true ∧ value = some (settingsMount ++ "/" ++ e.2) := by
  have hentry {name file : String} {present : Bool} (h : (name,
      if present then some (settingsMount ++ "/" ++ file) else none) ∈ i.spec.settings.envTable)
      (value : Option String) : ⟨name, value⟩ ∈ i.spec.settings.env ↔
        present = true ∧ value = some (settingsMount ++ "/" ++ file) := by
    rw [Settings.mem_env_of_entry h]
    cases present <;> simp
  obtain ⟨hrelays, husers⟩ := i.isSome_file?
  rw [env_podTemplate, List.forall_mem_cons, List.forall_mem_singleton, hrelays, husers]
  exact ⟨hentry (by simp [Settings.envTable]), hentry (by simp [Settings.envTable])⟩

theorem mem_volumes_files {v : Volume} : v ∈ i.podTemplate.volumes ∧ v.name = filesVolume ↔
    i.spec.settings.files.isSome = true ∧ v = { name := filesVolume, configMap := some i.name } := by
  have hmail : ∀ v ∈ i.spec.settings.maildirVolumes, v.name ≠ filesVolume := by
    intro v hv
    have hname := List.mem_map_of_mem (f := Volume.name) hv
    rw [Settings.names_maildirVolumes] at hname
    split at hname
    · rw [List.mem_singleton.1 hname]
      decide
    · cases hname
  rw [volumes_podTemplate, volumes, List.mem_append]
  constructor
  · rintro ⟨hv | hv, hname⟩
    · exact absurd hname (hmail v hv)
    · split at hv
      · rename_i hf
        exact ⟨hf, List.mem_singleton.1 hv⟩
      · cases hv
  · rintro ⟨hf, rfl⟩
    exact ⟨Or.inr (by simp [hf]), rfl⟩

theorem mem_mounts_files {m : VolumeMount} : m ∈ i.podTemplate.mounts ∧ m.name = filesVolume ↔
    i.spec.settings.files.isSome = true ∧ m = ⟨filesVolume, settingsMount⟩ := by
  have hother : maildirVolume ≠ filesVolume := by decide
  rw [mounts_podTemplate, Settings.mounts, List.mem_append]
  constructor
  · rintro ⟨hm | hm, hname⟩
    · split at hm
      · rw [List.mem_singleton.1 hm] at hname
        exact absurd hname hother
      · cases hm
    · split at hm
      · rename_i hf
        exact ⟨hf, List.mem_singleton.1 hm⟩
      · cases hm
  · rintro ⟨hf, rfl⟩
    exact ⟨Or.inr (by simp [hf]), rfl⟩

/-- What the children of a record know of its settings files.  The workload, of either kind, runs
the template.  It has the volume and its mount exactly if a config map is asked for, and the volume
holds the files of that one.  The container is told of the relays and of the web users exactly if
their file is there, by the path where it is mounted.  It shows that it is ready by an open port if
there are web users, and by an HTTP answer otherwise.  No variable is given twice. -/
theorem settings_files_agree (i : Instance) :
    let template := i.podTemplate
    (∃ m, i.spec.workload.kind.desired i = some m ∧
      (m.field "spec").member "template" = template.toJson) ∧
    (ChildKind.configMap.isSelected i.spec = true ↔
      ∃ v ∈ template.volumes, v.name = filesVolume) ∧
    (ChildKind.configMap.isSelected i.spec = true ↔
      ∃ m ∈ template.mounts, m.name = filesVolume) ∧
    (∀ v ∈ template.volumes, v.name = filesVolume →
      ∃ m name, ChildKind.configMap.desired i = some m ∧ m.metadata.name = some name ∧
        v = { name := filesVolume, configMap := some name }) ∧
    (∀ e ∈ [("MH_OUTGOING_SMTP", relaysFile), ("MH_AUTH_FILE", usersFile)],
      ((∃ value, ⟨e.1, value⟩ ∈ template.env) ↔ (i.file? e.2).isSome = true) ∧
      ∀ value, ⟨e.1, value⟩ ∈ template.env →
        ∃ m ∈ template.mounts, m.name = filesVolume ∧
          value = some (m.mountPath ++ "/" ++ e.2)) ∧
    (∃ p, template.readinessProbes = [p] ∧
      p.tcpSocket = (if (i.file? usersFile).isSome then some (.number webPort) else none) ∧
      p.httpGet = if (i.file? usersFile).isSome then none
        else some ⟨some i.spec.settings.probePath, .number webPort, some "HTTP"⟩) ∧
    (template.env.map EnvVar.name).Nodup := by
  intro template
  obtain ⟨m, hdesired, htemplate, -⟩ := i.exists_workload
  obtain ⟨-, husers⟩ := i.isSome_file?
  refine ⟨⟨m, hdesired, htemplate⟩, ?_, ?_, ?_, ?_, ?_, ?_⟩
  · constructor
    · intro h
      exact ⟨_, mem_volumes_files.2 ⟨h, rfl⟩⟩
    · rintro ⟨v, hv⟩
      exact (mem_volumes_files.1 hv).1
  · constructor
    · intro h
      exact ⟨_, mem_mounts_files.2 ⟨h, rfl⟩⟩
    · rintro ⟨m, hm⟩
      exact (mem_mounts_files.1 hm).1
  · intro v hv hname
    obtain ⟨hf, rfl⟩ := mem_volumes_files.1 ⟨hv, hname⟩
    obtain ⟨f, hsome⟩ := Option.isSome_iff_exists.1 hf
    exact ⟨_, i.name, desired_configMap hsome, rfl, rfl⟩
  · intro e he
    have htold := i.mem_env_file e he
    refine ⟨⟨fun ⟨value, h⟩ => ((htold value).1 h).1, fun h => ⟨_, (htold _).2 ⟨h, rfl⟩⟩⟩, ?_⟩
    intro value h
    obtain ⟨hfile, rfl⟩ := (htold value).1 h
    have hmount := mem_mounts_files.2 ⟨files_of_file? hfile, rfl⟩
    exact ⟨_, hmount.1, rfl, rfl⟩
  · refine ⟨i.readinessProbe, rfl, ?_⟩
    rw [husers, readinessProbe]
    cases i.spec.settings.hasWebUsers <;> exact ⟨rfl, rfl⟩
  · rw [env_podTemplate]
    exact i.spec.settings.nodup_env

end Instance
end MailCapture
