import Mathlib.Data.List.Dedup
import Mathlib.Data.List.Induction
import MailCapture.Child.Files
import MailCapture.Admission
import MailCapture.Proofs.Condensed
import MailCapture.Proofs.Fields
import MailCapture.Proofs.Readable
/-!
The file of relays as it is read: an object of relays by name.  It has one relay for each name that
was configured, the last one of that name; no relay is lost exactly when the names are apart.
-/
namespace MailCapture

namespace Entries
variable {κ α β : Type} [DecidableEq κ]

theorem mem_names_iff {m : List (κ × α)} {key : κ} :
    key ∈ m.map Prod.fst ↔ get? m key ≠ none := by
  induction m with
  | nil => simp [get?]
  | cons e rest ih =>
    obtain ⟨k, v⟩ := e
    by_cases hk : k = key
    · simp [get?, hk]
    · simp [get?, hk, Ne.symm hk, ← ih]

variable [LT κ] [DecidableLT κ]

theorem put_mapValues (f : κ → α → β) (m : List (κ × α)) (key : κ) (value : α) :
    put (m.map (fun e => (e.1, f e.1 e.2))) key (f key value) =
      (put m key value).map (fun e => (e.1, f e.1 e.2)) := by
  induction m with
  | nil => rfl
  | cons e rest ih =>
    obtain ⟨k, v⟩ := e
    by_cases hk : k = key
    · simp [put, hk]
    · by_cases hlt : key < k
      · simp [put, hk, hlt]
      · simp [put, hk, hlt, ih]

theorem ofPairs_concat (pairs : List (κ × α)) (e : κ × α) :
    ofPairs (pairs ++ [e]) = put (ofPairs pairs) e.1 e.2 := by
  simp [ofPairs]

theorem ofPairs_mapValues (f : κ → α → β) (pairs : List (κ × α)) :
    ofPairs (pairs.map (fun e => (e.1, f e.1 e.2))) =
      (ofPairs pairs).map (fun e => (e.1, f e.1 e.2)) := by
  induction pairs using List.reverseRecOn with
  | nil => rfl
  | append_singleton pairs e ih =>
    rw [List.map_append, List.map_singleton, ofPairs_concat, ofPairs_concat, ih, put_mapValues]

/-- Of the pairs of one key the last one counts. -/
theorem get?_ofPairs_eq_getLast? (pairs : List (κ × α)) (key : κ) :
    get? (ofPairs pairs) key = ((pairs.filter (fun e => e.1 = key)).getLast?).map Prod.snd := by
  induction pairs using List.reverseRecOn with
  | nil => rfl
  | append_singleton pairs e ih =>
    rw [ofPairs_concat, get?_put, List.filter_append, ih]
    by_cases hk : e.1 = key
    · simp [hk]
    · simp [hk, Ne.symm hk]

end Entries

/-! ### A relay -/

namespace Relay
open Wire

@[simp] theorem inverts : Inverts read? toJson :=
  ⟨rfl, fun u => of_structure (by simp [Entries.Distinct]) fun hd => by
    simp [defaulted_written hd, Entries.get?]⟩

@[simp] theorem fits_toJson (u : Relay) (n : Nat) : u.toJson.Fits (n + 1) :=
  fits_record (by cases u.save <;> simp)

end Relay

/-! ### The file of relays -/

def relaysIn (text : String) : Option (Entries Relay) :=
  (Document.parse? text).bind (Wire.map? Relay.read?)

namespace SettingsFiles

def relaysByName (f : SettingsFiles) : Entries Relay :=
  Entries.ofPairs (f.relays.map (fun u => (u.name, u)))

theorem servers_eq (f : SettingsFiles) :
    f.servers = .obj (f.relaysByName.map (fun e => (e.1, e.2.toJson))) := by
  rw [relaysByName, ← Entries.ofPairs_mapValues (fun _ u => Relay.toJson u), List.map_map]
  rfl

theorem fits_servers (f : SettingsFiles) (n : Nat) : f.servers.Fits (n + 2) := by
  rw [servers_eq, Json.fits_obj]
  intro e he
  obtain ⟨r, -, rfl⟩ := List.mem_map.1 he
  exact r.2.fits_toJson n

theorem relaysIn_servers (f : SettingsFiles) :
    relaysIn f.servers.render = some f.relaysByName := by
  have hfits : f.servers.Fits Document.depthLimit := f.fits_servers _
  have hascending : Entries.Ascending f.relaysByName := Entries.ascending_ofPairs _
  rw [relaysIn, Document.parse?_render_of_fits hfits, servers_eq, Option.bind_some,
    Wire.map?_obj Relay.inverts, hascending.ofPairs_eq]

theorem get?_relaysByName (f : SettingsFiles) (name : String) :
    Entries.get? f.relaysByName name =
      (f.relays.filter (fun u => u.name = name)).getLast? := by
  rw [relaysByName, Entries.get?_ofPairs_eq_getLast?, List.filter_map, List.getLast?_map,
    Option.map_map]
  simp [Function.comp_def]

theorem mem_names_relaysByName {f : SettingsFiles} {name : String} :
    name ∈ f.relaysByName.map Prod.fst ↔ name ∈ f.relays.map Relay.name := by
  rw [Entries.mem_names_iff, get?_relaysByName, ne_eq, List.getLast?_eq_none_iff,
    List.filter_eq_nil_iff]
  simp

/-- There are as many relays as different names. -/
theorem length_relaysByName (f : SettingsFiles) :
    f.relaysByName.length = (f.relays.map Relay.name).dedup.length := by
  have hnodup : (f.relaysByName.map Prod.fst).Nodup := (Entries.ascending_ofPairs _).distinct
  have hperm : (f.relaysByName.map Prod.fst).Perm (f.relays.map Relay.name).dedup :=
    (List.perm_ext_iff_of_nodup hnodup (List.nodup_dedup _)).2 fun name => by
      rw [List.mem_dedup, mem_names_relaysByName]
  rw [← hperm.length_eq, List.length_map]

/-- The file of relays reads as one relay for each name that was configured, the last one of that
name.  It has all relays that were configured exactly when their names are apart. -/
theorem relays_read_back {f : SettingsFiles} (hf : f.relays ≠ []) :
    ∃ text es, Entries.get? f.contents relaysFile = some text ∧ relaysIn text = some es ∧
      (es.map Prod.fst).Nodup ∧
      (∀ name, Entries.get? es name = (f.relays.filter (fun u => u.name = name)).getLast?) ∧
      ((es.length = f.relays.length ∧ ∀ u ∈ f.relays, Entries.get? es u.name = some u) ↔
        (f.relays.map Relay.name).Nodup) := by
  have hrelays : f.relays.isEmpty = false := by simpa using hf
  have hfile : Entries.get? f.contents relaysFile = some f.servers.render := by
    simp [contents, hrelays, Entries.get?]
  refine ⟨f.servers.render, f.relaysByName, hfile, relaysIn_servers f,
    (Entries.ascending_ofPairs _).distinct, get?_relaysByName f, ?_⟩
  rw [length_relaysByName]
  constructor
  · rintro ⟨hlength, -⟩
    rw [← List.length_map Relay.name] at hlength
    exact List.dedup_eq_self.1 ((List.dedup_sublist _).eq_of_length hlength)
  · intro hnodup
    refine ⟨by rw [hnodup.dedup, List.length_map], fun u hu => ?_⟩
    have hd : Entries.Distinct (f.relays.map (fun u => (u.name, u))) := by
      rwa [Entries.Distinct, List.map_map]
    rw [relaysByName, Entries.get?_ofPairs hd]
    exact Entries.get?_of_mem hd (List.mem_map_of_mem hu)

theorem relays_read_back_two :
    let first : Relay := { name := "a\"b", host := "mx1", save := true }
    let second : Relay := { name := "", mechanism := "PLAIN" }
    let f : SettingsFiles := { relays := [first, second] }
    f.relays ≠ [] ∧ ∃ text es, Entries.get? f.contents relaysFile = some text ∧
      relaysIn text = some es ∧ es.length = 2 ∧
      Entries.get? es "a\"b" = some first ∧ Entries.get? es "" = some second := by
  intro first second f
  have hne : f.relays ≠ [] := by simp [f]
  have hnodup : (f.relays.map Relay.name).Nodup := by simp [f, first, second]
  obtain ⟨text, es, hfile, hread, -, -, hall⟩ := relays_read_back hne
  obtain ⟨hlength, hkept⟩ := hall.2 hnodup
  have hfirst := hkept first (by simp [f])
  have hsecond := hkept second (by simp [f])
  exact ⟨hne, text, es, hfile, hread, hlength, hfirst, hsecond⟩

/-- Of two relays of one name the first is lost, in a spec that is admitted. -/
theorem relays_read_back_lost :
    ∃ s : Spec, s.violation? = none ∧ ∃ f, s.settings.files = some f ∧
      f.relays = [{ name := "relay", host := "a" }, { name := "relay", host := "b" }] ∧
      ∃ text es, Entries.get? f.contents relaysFile = some text ∧ relaysIn text = some es ∧
        es = [("relay", { name := "relay", host := "b" })] ∧
        ¬ ∀ u ∈ f.relays, Entries.get? es u.name = some u := by
  let f : SettingsFiles :=
    { relays := [{ name := "relay", host := "a" }, { name := "relay", host := "b" }] }
  let s : Spec := { settings := { files := some f } }
  have hs : s.violation? = none := by decide
  have hread : relaysIn f.servers.render = some f.relaysByName := relaysIn_servers f
  refine ⟨s, hs, f, rfl, rfl, f.servers.render, f.relaysByName, rfl, hread, by decide, ?_⟩
  intro hkept
  have hfirst := hkept { name := "relay", host := "a" } (by simp [f])
  revert hfirst
  decide

end SettingsFiles
end MailCapture
