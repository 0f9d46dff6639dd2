import Mathlib.Data.List.Nodup
import MailCapture.Admission
import MailCapture.Child.PodTemplate
/-!
What the pods of an instance mount, and where.  Every mount has its volume.  Directories are told by
paths that differ in spare slashes, and the rule on the mail directory knows the reserved ones under
few of these spellings: the mounts of an admitted spec are apart exactly when the mail directory is
not a reserved one under a spelling that the rule misses.
-/
namespace MailCapture

/-! ### Directories -/

namespace Text

def collapsed : List Char → List Char
  | [] => []
  | c :: rest => if c = '/' ∧ rest.head? = some '/' then collapsed rest else c :: collapsed rest

/-- The directory that a path names: no slash is repeated, and none but that of the root stands at
the end. -/
def directory (path : String) : String :=
  let cs := collapsed path.toList
  String.ofList (if 1 < cs.length ∧ cs.getLast? = some '/' then cs.dropLast else cs)

end Text

def reservedDirectories : List String :=
  ["/", "/usr", "/usr/local", "/usr/local/bin", "/usr/local/bin/MailHog",
    "/mailhog", "/mailhog/settings", "/mailhog/settings/files"]

def reservedSpellings : List String :=
  ["/", "//", "/usr", "/usr/", "/usr/local", "/usr/local/", "/usr/local//", "/usr/local/bin",
    "/usr/local/bin/", "/usr/local/bin/MailHog", "/mailhog", "/mailhog/", "/mailhog/settings",
    "/mailhog/settings/", "/mailhog/settings/files"]

def IsRespelled (path : String) : Prop :=
  Text.directory path ∈ reservedDirectories ∧ path ∉ reservedSpellings

instance (path : String) : Decidable (IsRespelled path) := inferInstanceAs (Decidable (_ ∧ _))

theorem reservedSpellings_subset : reservedSpellings ⊆ reservedPaths := by
  decide +kernel

theorem not_isRespelled_reservedPaths : ∀ path ∈ reservedPaths, ¬ IsRespelled path := by
  decide +kernel

/-- The rule misses all spellings but those. -/
theorem isRespelled_iff {path : String} :
    IsRespelled path ↔ Text.directory path ∈ reservedDirectories ∧ path ∉ reservedPaths := by
  constructor
  · intro h
    exact ⟨h.1, fun hmem => not_isRespelled_reservedPaths path hmem h⟩
  · rintro ⟨hd, hmem⟩
    exact ⟨hd, fun hspelling => hmem (reservedSpellings_subset hspelling)⟩

theorem Spec.maildirViolation?_eq_none_iff {s : Spec} :
    s.maildirViolation? = none ↔
      s.settings.maildir.path = "" ∨ s.settings.maildir.path ∉ reservedPaths := by
  by_cases hp : s.settings.maildir.path = ""
  · simp [maildirViolation?, hp]
  · simp [maildirViolation?, hp]

theorem Spec.maildirViolation?_of_admitted {s : Spec} (h : s.violation? = none) :
    s.maildirViolation? = none := by
  rw [violation?, List.findSome?_eq_none_iff] at h
  exact h _ List.mem_cons_self

/-! ### Volumes and mounts -/

namespace PodTemplate

def volumes (t : PodTemplate) : List Volume := (t.spec.bind PodSpec.volumes).getD []

def mounts (t : PodTemplate) : List VolumeMount :=
  (t.spec.elim [] PodSpec.containers).flatMap (fun c => c.volumeMounts.getD [])

end PodTemplate

theorem getD_someUnlessEmpty {α : Type} (items : List α) :
    (someUnlessEmpty items).getD [] = items := by
  cases items <;> simp [someUnlessEmpty]

namespace Instance
variable {i : Instance}

theorem volumes_podTemplate : i.podTemplate.volumes = i.volumes := by
  simp [PodTemplate.volumes, podTemplate, getD_someUnlessEmpty]

theorem mounts_podTemplate : i.podTemplate.mounts = i.spec.settings.mounts := by
  simp [PodTemplate.mounts, podTemplate, container, getD_someUnlessEmpty]

end Instance

namespace Settings
variable {s : Settings}

theorem names_maildirVolumes :
    s.maildirVolumes.map Volume.name = if s.mountsMaildir then [maildirVolume] else [] := by
  unfold maildirVolumes
  split
  · split <;> rfl
  · rfl

/-- What holds of the path where mail is kept is what holds of all mounts of its volume. -/
theorem forall_maildir_iff (P : String → Prop) :
    (∀ m ∈ s.mounts, m.name = maildirVolume → P m.mountPath) ↔
      (s.mountsMaildir = true → P s.maildir.path) := by
  have hother : filesVolume ≠ maildirVolume := by decide
  cases hm : s.mountsMaildir <;> cases hf : s.files <;> simp [mounts, hm, hf, hother]

theorem nodup_mounts {α : Type} (f : VolumeMount → α) :
    (s.mounts.map f).Nodup ↔ (s.mountsMaildir = true → s.files.isSome = true →
      f ⟨maildirVolume, s.maildir.path⟩ ≠ f ⟨filesVolume, settingsMount⟩) := by
  cases hm : s.mountsMaildir <;> cases hf : s.files <;> simp [mounts, hm, hf]

end Settings

namespace Instance
variable {i : Instance}

theorem names_volumes :
    i.podTemplate.volumes.map Volume.name = i.podTemplate.mounts.map VolumeMount.name := by
  rw [volumes_podTemplate, mounts_podTemplate, volumes, List.map_append,
    Settings.names_maildirVolumes, Settings.mounts, List.map_append]
  cases i.spec.settings.mountsMaildir <;> cases i.spec.settings.files <;> rfl

/-- Of an admitted spec every mount has its volume, the volumes have different names, and nothing is
mounted at one path twice.  The mounts are in different directories, and the mail is in none that is
reserved, exactly when the mail is not in a reserved directory under a spelling that is missed. -/
theorem mounts_apart (h : i.spec.violation? = none) :
    let mounts := i.podTemplate.mounts
    (∀ m ∈ mounts, ∃ v ∈ i.podTemplate.volumes, v.name = m.name) ∧
      (i.podTemplate.volumes.map Volume.name).Nodup ∧
      (mounts.map VolumeMount.mountPath).Nodup ∧
      (((mounts.map (fun m => Text.directory m.mountPath)).Nodup ∧
          ∀ m ∈ mounts, m.name = maildirVolume →
            Text.directory m.mountPath ∉ reservedDirectories) ↔
        ∀ m ∈ mounts, m.name = maildirVolume → ¬ IsRespelled m.mountPath) := by
  intro mounts
  have hmounts : mounts = i.spec.settings.mounts := mounts_podTemplate
  have hpath : i.spec.settings.mountsMaildir = true →
      i.spec.settings.maildir.path ∉ reservedPaths := by
    intro hm
    have hboth : i.spec.settings.storage = .maildir ∧ i.spec.settings.maildir.path ≠ "" := by
      simpa [Settings.mountsMaildir] using hm
    have hrule := Spec.maildirViolation?_eq_none_iff.1 (Spec.maildirViolation?_of_admitted h)
    exact hrule.resolve_left hboth.2
  refine ⟨fun m hm => ?_, ?_, ?_, ?_⟩
  · have hname : m.name ∈ i.podTemplate.volumes.map Volume.name := by
      rw [names_volumes]
      exact List.mem_map_of_mem hm
    exact List.mem_map.1 hname
  · have hother : maildirVolume ≠ filesVolume := by decide
    rw [names_volumes, mounts_podTemplate, Settings.nodup_mounts]
    exact fun _ _ => hother
  · have hsettings : settingsMount ∈ reservedPaths := by decide +kernel
    rw [hmounts, Settings.nodup_mounts]
    intro hm _ he
    have hsame : i.spec.settings.maildir.path = settingsMount := he
    have hfree := hpath hm
    rw [hsame] at hfree
    exact hfree hsettings
  · have hsettings : Text.directory settingsMount ∈ reservedDirectories := by decide +kernel
    rw [hmounts, Settings.nodup_mounts,
      Settings.forall_maildir_iff (fun path => Text.directory path ∉ reservedDirectories),
      Settings.forall_maildir_iff (fun path => ¬ IsRespelled path)]
    constructor
    · rintro ⟨-, hreserved⟩ hm hspelled
      exact hreserved hm hspelled.1
    · intro hspelled
      have hreserved (hm : i.spec.settings.mountsMaildir = true) :
          Text.directory i.spec.settings.maildir.path ∉ reservedDirectories := by
        intro hd
        exact hspelled hm (isRespelled_iff.2 ⟨hd, hpath hm⟩)
      refine ⟨fun hm _ he => ?_, hreserved⟩
      have hsame : Text.directory i.spec.settings.maildir.path = Text.directory settingsMount := he
      have hfree := hreserved hm
      rw [hsame] at hfree
      exact hfree hsettings

theorem mounts_apart_mail :
    ∃ i : Instance, i.spec.violation? = none ∧
      i.podTemplate.mounts =
        [⟨maildirVolume, "/var//mail/"⟩, ⟨filesVolume, "/mailhog/settings/files"⟩] ∧
      (i.podTemplate.mounts.map (fun m => Text.directory m.mountPath)).Nodup ∧
      Text.directory "/var//mail/" ∉ reservedDirectories := by
  let i : Instance := ⟨{}, { settings := {
    storage := .maildir, maildir := { path := "/var//mail/" }, files := some {} } }, none⟩
  have hadmitted : i.spec.violation? = none := by decide +kernel
  have hmounts : i.podTemplate.mounts =
      [⟨maildirVolume, "/var//mail/"⟩, ⟨filesVolume, "/mailhog/settings/files"⟩] := by
    rw [mounts_podTemplate]
    decide
  have hspelled : ∀ m ∈ i.podTemplate.mounts, m.name = maildirVolume →
      ¬ IsRespelled m.mountPath := by
    rw [hmounts]
    decide +kernel
  obtain ⟨-, -, -, hall⟩ := mounts_apart hadmitted
  obtain ⟨hapart, hreserved⟩ := hall.2 hspelled
  have hmail := hreserved ⟨maildirVolume, "/var//mail/"⟩ (by simp [hmounts]) rfl
  exact ⟨i, hadmitted, hmounts, hapart, hmail⟩

/-- With a slash at its end the directory of the settings is admitted for mail, and both are
mounted there. -/
theorem mounts_apart_twice :
    ∃ i : Instance, i.spec.violation? = none ∧
      i.podTemplate.mounts =
        [⟨maildirVolume, "/mailhog/settings/files/"⟩, ⟨filesVolume, "/mailhog/settings/files"⟩] ∧
      ¬ (i.podTemplate.mounts.map (fun m => Text.directory m.mountPath)).Nodup ∧
      Text.directory "/mailhog/settings/files/" ∈ reservedDirectories := by
  let i : Instance := ⟨{}, { settings := {
    storage := .maildir, maildir := { path := "/mailhog/settings/files/" }, files := some {} } },
    none⟩
  have hadmitted : i.spec.violation? = none := by decide +kernel
  have hmounts : i.podTemplate.mounts =
      [⟨maildirVolume, "/mailhog/settings/files/"⟩, ⟨filesVolume, "/mailhog/settings/files"⟩] := by
    rw [mounts_podTemplate]
    decide
  refine ⟨i, hadmitted, hmounts, ?_, by decide +kernel⟩
  rw [hmounts]
  decide +kernel

end Instance
end MailCapture
