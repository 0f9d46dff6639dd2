import MailCapture.Proofs.Environment
import MailCapture.Proofs.Patterns
import MailCapture.Proofs.Rejection
import MailCapture.Proofs.Relays
/-!
What the rules on a spec are for.  The violation of a spec is that of the first rule that it breaks,
and the children of a spec that breaks none are complete: the storage has its settings, mail has its
mount, the rates of the chaos monkey are numbers, relays can present their credentials, and what
exposes the web interface leads to the path where it is served.
-/
namespace MailCapture

/-! ### Rules -/

def Violation.rank : Violation → Nat
  | .reservedMaildirPath => 0
  | .incompleteMongoDb => 1
  | .missingMaildirPath => 1
  | .relayWithoutMechanism => 2
  | .unparsableProbability => 3
  | .absoluteWebPath => 4

namespace Spec
variable {s : Spec} {v : Violation}

def Breaks (s : Spec) : Violation → Prop
  | .reservedMaildirPath =>
    s.settings.maildir.path ≠ "" ∧ s.settings.maildir.path.toList ∈ Pattern.reserved.matches'
  | .incompleteMongoDb => s.settings.storage = .mongodb ∧
    (s.settings.mongo.uri = "" ∨ s.settings.mongo.db = "" ∨ s.settings.mongo.collection = "")
  | .missingMaildirPath => s.settings.storage = .maildir ∧ s.settings.maildir.path = ""
  | .relayWithoutMechanism => ∃ f, s.settings.files = some f ∧ ∃ u ∈ f.relays,
    (u.username ≠ "" ∨ u.password ≠ "") ∧ u.mechanism = ""
  | .unparsableProbability => s.settings.jim.invite = true ∧
    ∃ p ∈ s.settings.jim.probabilities, p ≠ "" ∧ ¬ Text.IsFloat p.toList
  | .absoluteWebPath => ∃ rest, s.settings.webPath.toList = '/' :: rest ∨
    s.settings.webPath.toList = rest ++ ['/']

theorem maildirViolation?_iff :
    s.maildirViolation? = some v ↔ v.rank = 0 ∧ s.Breaks v := by
  rw [maildirViolation?]
  cases v <;> simp [Violation.rank, Breaks, Pattern.mem_reservedPaths_iff]

theorem storageViolation?_iff :
    s.storageViolation? = some v ↔ v.rank = 1 ∧ s.Breaks v := by
  rw [storageViolation?]
  cases v <;> cases hs : s.settings.storage <;> simp [Violation.rank, Breaks, hs,
    or_iff_not_imp_left]

theorem relayViolation?_iff :
    s.relayViolation? = some v ↔ v.rank = 2 ∧ s.Breaks v := by
  rw [relayViolation?]
  cases v <;> cases hf : s.settings.files <;> simp [Violation.rank, Breaks, hf, lacksMechanism]

theorem jimViolation?_iff :
    s.jimViolation? = some v ↔ v.rank = 3 ∧ s.Breaks v := by
  rw [jimViolation?]
  cases v <;> simp [Violation.rank, Breaks, ← Text.isFloatText_iff]

theorem webPathViolation?_iff :
    s.webPathViolation? = some v ↔ v.rank = 4 ∧ s.Breaks v := by
  rw [webPathViolation?]
  have hends : (s.settings.webPath.toList.head? == some '/' ||
      s.settings.webPath.toList.getLast? == some '/') = true ↔ s.Breaks .absoluteWebPath := by
    simp only [Breaks, Bool.or_eq_true, beq_iff_eq, List.head?_eq_some_iff,
      List.getLast?_eq_some_iff, exists_or]
  rw [Option.ite_none_right_eq_some, hends]
  cases v <;> simp [Violation.rank]

/-- The findings are on the violations in their order. -/
theorem findings_iff {k : Nat} :
    s.findings[k]? = some (some v) ↔ v.rank = k ∧ s.Breaks v := by
  rcases k with _ | _ | _ | _ | _ | k
  · exact Option.some_inj.trans maildirViolation?_iff
  · exact Option.some_inj.trans storageViolation?_iff
  · exact Option.some_inj.trans relayViolation?_iff
  · exact Option.some_inj.trans jimViolation?_iff
  · exact Option.some_inj.trans webPathViolation?_iff
  · have hrank : v.rank ≠ k + 5 := by cases v <;> simp [Violation.rank]
    simp [findings, hrank]

/-- The violation of a spec is that of the first rule that it breaks. -/
theorem violation?_iff_first : s.violation? = some v ↔
    s.Breaks v ∧ ∀ w : Violation, w.rank < v.rank → ¬ s.Breaks w := by
  rw [violation?_eq_some_iff]
  constructor
  · rintro ⟨before, after, hfindings, hnone⟩
    have hv : s.findings[before.length]? = some (some v) := by simp [hfindings]
    obtain ⟨hrank, hbreaks⟩ := findings_iff.1 hv
    refine ⟨hbreaks, fun w hlt hw => ?_⟩
    have hfound := findings_iff.2 ⟨rfl, hw⟩
    rw [hfindings, List.getElem?_append_left (hrank ▸ hlt)] at hfound
    cases hnone _ (List.mem_of_getElem? hfound)
  · rintro ⟨hbreaks, hfirst⟩
    obtain ⟨hlt, hfound⟩ := List.getElem?_eq_some_iff.1 (findings_iff.2 ⟨rfl, hbreaks⟩)
    refine ⟨s.findings.take v.rank, s.findings.drop (v.rank + 1), ?_, fun finding hmem => ?_⟩
    · rw [← hfound, List.cons_getElem_drop_succ, List.take_append_drop]
    · obtain ⟨k, hk, hget⟩ := List.mem_take_iff_getElem.1 hmem
      cases finding with
      | none => rfl
      | some w =>
        have hw := findings_iff.1 ((List.getElem?_eq_getElem _).trans (congrArg some hget))
        exact absurd hw.2 (hfirst w (by omega))

theorem violation?_eq_none_iff : s.violation? = none ↔ ∀ v, ¬ s.Breaks v := by
  constructor
  · intro h v hv
    have hmem := List.mem_of_getElem? (findings_iff.2 ⟨rfl, hv⟩)
    cases List.findSome?_eq_none_iff.1 h _ hmem
  · intro h
    cases hv : s.violation? with
    | none => rfl
    | some v => exact absurd (violation?_iff_first.1 hv).1 (h v)

end Spec

/-! ### Arguments -/

def PodTemplate.args (t : PodTemplate) : List String :=
  (t.spec.elim [] PodSpec.containers).flatMap (fun c => c.args.getD [])

namespace Jim
variable {j : Jim} {flag value : String}

def probabilityFlags : List String :=
  ["jim-disconnect", "jim-accept", "jim-linkspeed-affect", "jim-reject-sender",
    "jim-reject-recipient", "jim-reject-auth"]

theorem mem_probabilities (h : (flag, value) ∈ j.flags) (hflag : flag ∈ probabilityFlags) :
    value ∈ j.probabilities := by
  have hall : ∀ f ∈ j.flags, f.1 ∈ probabilityFlags → f.2 ∈ j.probabilities := by
    simp [flags, probabilityFlags, probabilities]
  exact hall _ h hflag

/-- An argument tells of a flag and of its value. -/
theorem of_mem_args (hflag : '=' ∉ flag.toList) (h : "-" ++ flag ++ "=" ++ value ∈ j.args) :
    j.invite = true ∧ (flag, value) ∈ j.flags ∧ value ≠ "" := by
  have hcut (flag value : String) (hflag : '=' ∉ flag.toList) :
      Text.splitOnce? '=' ("-" ++ flag ++ "=" ++ value) = some ("-" ++ flag, value) :=
    (Text.splitOnce?_eq_some_iff _ _ _).2 ⟨by simp, by simpa using hflag⟩
  have hflags : ∀ f ∈ j.flags, '=' ∉ f.1.toList := by
    simp only [flags, List.forall_mem_cons]
    decide
  unfold args at h
  split at h
  · rename_i hinvite
    rcases List.mem_cons.1 h with hfirst | hrest
    · have hword : '=' ∉ "-invite-jim".toList := by decide
      rw [← hfirst] at hword
      simp at hword
    · obtain ⟨f, hf, heq⟩ := List.mem_map.1 hrest
      obtain ⟨hmem, hvalue⟩ := List.mem_filter.1 hf
      have hsame := (hcut f.1 f.2 (hflags f hmem)).symm.trans (heq ▸ hcut flag value hflag)
      obtain ⟨hname, rfl⟩ := Prod.mk.inj (Option.some.inj hsame)
      have hnamed : f.1 = flag := by simpa using hname
      exact ⟨hinvite, hnamed ▸ hmem, by simpa using hvalue⟩
  · cases h

end Jim

/-! ### Children of an admitted spec -/

namespace Instance

structure IsComplete (i : Instance) : Prop where
  mongo : i.spec.settings.storage = .mongodb →
    ∀ name ∈ ["MH_MONGO_URI", "MH_MONGO_DB", "MH_MONGO_COLLECTION"],
      ∃ value, value ≠ "" ∧ ⟨name, some value⟩ ∈ i.podTemplate.env
  mail : i.spec.settings.storage = .maildir → ∃ path, path ≠ "" ∧
    ⟨"MH_MAILDIR_PATH", some path⟩ ∈ i.podTemplate.env ∧
    i.podTemplate.mounts.filter (fun m => m.name = maildirVolume) = [⟨maildirVolume, path⟩] ∧
    ∃ v ∈ i.podTemplate.volumes, v.name = maildirVolume
  /-- the values of probabilities are numbers -/
  rates : ∀ flag ∈ Jim.probabilityFlags, ∀ value,
    "-" ++ flag ++ "=" ++ value ∈ i.podTemplate.args → Text.IsFloat value.toList
  /-- the file of relays can be read, and who has credentials can present them -/
  relays : ∀ file, i.file? relaysFile = some file → ∃ text es, file = .str text ∧
    relaysIn text = some es ∧ ∀ name u, Entries.get? es name = some u →
      u.username ≠ "" ∨ u.password ≠ "" → u.mechanism ≠ ""
  /-- what exposes the web interface leads to where it is served, by a path with one slash at its
  start and none at its end -/
  address : i.spec.settings.webPath ≠ "" →
    ⟨"MH_UI_WEB_PATH", some i.spec.settings.webPath⟩ ∈ i.podTemplate.env ∧
    ∃ path, path = "/" ++ i.spec.settings.webPath ∧ i.route.spec.path = some path ∧
      i.ingress.rule.path = path ∧ (∃ c rest, path.toList = '/' :: c :: rest ∧ c ≠ '/') ∧
      path.toList.getLast? ≠ some '/'

variable {i : Instance}

theorem args_podTemplate : i.podTemplate.args = i.spec.settings.jim.args := by
  simp [PodTemplate.args, podTemplate, container, getD_someUnlessEmpty]

theorem mem_env_of_text {name value : String}
    (h : (name, textUnlessEmpty value) ∈ i.spec.settings.envTable) (hne : value ≠ "") :
    ⟨name, some value⟩ ∈ i.podTemplate.env := by
  have hsome := textUnlessEmpty_eq_some.2 ⟨rfl, hne⟩
  rw [env_podTemplate, Settings.mem_env_of_entry h, hsome]
  exact ⟨rfl, rfl⟩

/-- The children of a spec that breaks no rule are complete. -/
theorem isComplete_of_not_breaks (h : ∀ v, ¬ i.spec.Breaks v) : i.IsComplete where
  mongo hs := by
    have hset := h .incompleteMongoDb
    simp only [Spec.Breaks, hs, true_and, not_or] at hset
    obtain ⟨huri, hdb, hcollection⟩ := hset
    rw [List.forall_mem_cons, List.forall_mem_cons, List.forall_mem_singleton]
    refine ⟨⟨_, huri, mem_env_of_text ?_ huri⟩, ⟨_, hdb, mem_env_of_text ?_ hdb⟩,
      _, hcollection, mem_env_of_text ?_ hcollection⟩ <;> simp [Settings.envTable, hs]
  mail hs := by
    have hpath : i.spec.settings.maildir.path ≠ "" := fun he => h .missingMaildirPath ⟨hs, he⟩
    have hmounts : i.spec.settings.mountsMaildir = true := by
      simp [Settings.mountsMaildir, hs, hpath]
    have hother : filesVolume ≠ maildirVolume := by decide
    have hmount : i.podTemplate.mounts.filter (fun m => m.name = maildirVolume) =
        [⟨maildirVolume, i.spec.settings.maildir.path⟩] := by
      rw [mounts_podTemplate, Settings.mounts, if_pos hmounts]
      cases i.spec.settings.files <;> simp [hother]
    refine ⟨_, hpath, mem_env_of_text (by simp [Settings.envTable, hs]) hpath, hmount, ?_⟩
    have hnamed : maildirVolume ∈ i.podTemplate.volumes.map Volume.name := by
      rw [volumes_podTemplate, volumes, List.map_append, Settings.names_maildirVolumes,
        if_pos hmounts]
      exact List.mem_append_left _ (List.mem_singleton_self _)
    exact List.mem_map.1 hnamed
  rates flag hflag value harg := by
    have hplain : ∀ f ∈ Jim.probabilityFlags, '=' ∉ f.toList := by decide
    rw [args_podTemplate] at harg
    obtain ⟨hinvite, hmem, hvalue⟩ := Jim.of_mem_args (hplain flag hflag) harg
    by_contra hfloat
    exact h .unparsableProbability
      ⟨hinvite, value, Jim.mem_probabilities hmem hflag, hvalue, hfloat⟩
  relays file hfile := by
    rw [file?_eq] at hfile
    obtain ⟨text, htext, rfl⟩ := Option.map_eq_some_iff.1 hfile
    obtain ⟨f, hf, hget⟩ := Option.bind_eq_some_iff.1 htext
    rw [f.get?_contents.1, Option.ite_none_left_eq_some] at hget
    obtain rfl : f.servers.render = text := Option.some.inj hget.2
    refine ⟨_, _, rfl, f.relaysIn_servers, fun name u hu hcredentials hnone => ?_⟩
    rw [SettingsFiles.get?_relaysByName] at hu
    have hmem : u ∈ f.relays := (List.mem_filter.1 (List.mem_of_getLast? hu)).1
    exact h .relayWithoutMechanism ⟨f, hf, u, hmem, hcredentials, hnone⟩
  address hpath := by
    have hslash := h .absoluteWebPath
    have hlist : ("/" ++ i.spec.settings.webPath).toList =
        '/' :: i.spec.settings.webPath.toList := by simp
    have hne : i.spec.settings.webPath.toList ≠ [] := by simpa using hpath
    refine ⟨mem_env_of_text (by simp [Settings.envTable]) hpath, _, rfl, ?_, rfl, ?_, ?_⟩
    · rw [route, textUnlessEmpty_eq_some.2 ⟨rfl, hpath⟩]
      rfl
    · obtain ⟨c, rest, hcs⟩ := List.exists_cons_of_ne_nil hne
      refine ⟨c, rest, by rw [hlist, hcs], ?_⟩
      rintro rfl
      exact hslash ⟨rest, .inl hcs⟩
    · rw [hlist, List.getLast?_cons_of_ne_nil hne]
      intro hlast
      obtain ⟨rest, hcs⟩ := List.getLast?_eq_some_iff.1 hlast
      exact hslash ⟨rest, .inr hcs⟩

/-- The rules on a spec.  They report the first violation in their order, if there is one.  If there
is none, the children are complete. -/
theorem admission_completes (i : Instance) :
    (∀ v, i.spec.violation? = some v ↔
      i.spec.Breaks v ∧ ∀ w : Violation, w.rank < v.rank → ¬ i.spec.Breaks w) ∧
    (i.spec.violation? = none ↔ ∀ v, ¬ i.spec.Breaks v) ∧
    (i.spec.violation? = none → i.IsComplete) := by
  refine ⟨fun v => Spec.violation?_iff_first, Spec.violation?_eq_none_iff, fun h => ?_⟩
  exact isComplete_of_not_breaks (Spec.violation?_eq_none_iff.1 h)

/-- Mail in a directory, a chaos monkey with a rate in an unusual spelling and a speed that nobody
checks, a relay with credentials, and a web path. -/
theorem admission_completes_maildir :
    let i : Instance := ⟨{ name := some "mail", ns := some "dev" }, { settings := {
      storage := .maildir, maildir := { path := "/var/mail" }, webPath := "mail"
      jim := { invite := true, disconnect := "-.5E3", linkspeedMin := "fast" }
      files := some { relays := [{ name := "mx", username := "me", mechanism := "PLAIN" }] } } },
      none⟩
    i.spec.violation? = none ∧ i.IsComplete ∧
      i.podTemplate.args = ["-invite-jim", "-jim-disconnect=-.5E3", "-jim-linkspeed-min=fast"] ∧
      Text.IsFloat "-.5E3".toList ∧ i.ingress.rule.path = "/mail" := by
  intro i
  have hadmitted : i.spec.violation? = none := by decide +kernel
  have hcomplete : i.IsComplete := (admission_completes i).2.2 hadmitted
  have hargs : i.podTemplate.args =
      ["-invite-jim", "-jim-disconnect=-.5E3", "-jim-linkspeed-min=fast"] := by
    rw [args_podTemplate]
    decide +kernel
  have hfloat := hcomplete.rates "jim-disconnect" (by decide) "-.5E3" (by rw [hargs]; decide)
  exact ⟨hadmitted, hcomplete, hargs, hfloat, rfl⟩

end Instance
end MailCapture
