import Mathlib.Data.List.Basic
import MailCapture.Admission
import MailCapture.Child.Files
import MailCapture.Text.Pieces
/-!
The file of web users as it is read: line by line, and each line cut at its first colon.  The file
reads as the lines of its users read one by one, so no user hides or changes another one.  A line
reads as its user and as nobody else exactly when neither the name nor the hash breaks the line and
the name has no colon.
-/
namespace MailCapture

namespace Text
variable {sep : Char}

theorem pieces_append_cons (a b : List Char) :
    pieces sep (a ++ sep :: b) = pieces sep a ++ pieces sep b := by
  induction a with
  | nil => simp [pieces]
  | cons c a ih =>
    by_cases hc : c = sep
    · simp [pieces, hc, ih]
    · cases ha : pieces sep a with
      | nil => exact absurd ha (pieces_ne_nil sep a)
      | cons p ps => simp [pieces, hc, ih, ha]

theorem length_pieces (cs : List Char) : (pieces sep cs).length = cs.count sep + 1 := by
  induction cs with
  | nil => rfl
  | cons c cs ih =>
    by_cases hc : c = sep
    · simp [pieces, hc, ih]
    · cases hp : pieces sep cs with
      | nil => exact absurd hp (pieces_ne_nil sep cs)
      | cons p ps =>
        rw [hp] at ih
        simp [pieces, hc, hp, ← ih]

theorem pieces_of_not_mem {cs : List Char} (h : sep ∉ cs) : pieces sep cs = [cs] := by
  induction cs with
  | nil => rfl
  | cons c cs ih =>
    have hc : c ≠ sep := fun he => h (by simp [he])
    have hrest : pieces sep cs = [cs] := ih (fun hm => h (List.mem_cons_of_mem c hm))
    simp [pieces, hc, hrest]

/-- A text is cut at its first separator. -/
theorem cut?_eq_some_iff (cs a b : List Char) :
    cut? sep cs = some (a, b) ↔ cs = a ++ sep :: b ∧ sep ∉ a := by
  induction cs generalizing a with
  | nil => simp [cut?]
  | cons c cs ih =>
    by_cases hc : c = sep
    · cases a with
      | nil => simp [cut?, hc, eq_comm]
      | cons d a =>
        have hd : c = d → sep ∈ d :: a := fun he => by simp [← he, hc]
        simp [cut?, hc]
        grind
    · cases a with
      | nil => simp [cut?, hc]
      | cons d a =>
        simp [cut?, hc, ih]
        grind

theorem splitOnce?_eq_some_iff (s a b : String) :
    splitOnce? sep s = some (a, b) ↔ s.toList = a.toList ++ sep :: b.toList ∧ sep ∉ a.toList := by
  rw [← cut?_eq_some_iff]
  constructor
  · intro h
    obtain ⟨p, hp, hab⟩ := Option.map_eq_some_iff.1 h
    obtain ⟨rfl, rfl⟩ := Prod.mk.inj hab
    simpa using hp
  · intro h
    simp [splitOnce?, h]

/-- The lines of a text; what stands behind the last line break is one unless it is empty. -/
def lines (s : String) : List String :=
  let all := pieces '\n' s.toList
  (if all.getLast? = some [] then all.dropLast else all).map String.ofList

/-- Behind a line break the lines begin anew. -/
theorem lines_append (a b : List Char) :
    lines (String.ofList (a ++ '\n' :: b)) =
      (pieces '\n' a).map String.ofList ++ lines (String.ofList b) := by
  have hb : pieces '\n' b ≠ [] := pieces_ne_nil '\n' b
  simp only [lines, String.toList_ofList, pieces_append_cons]
  rw [List.getLast?_append_of_ne_nil _ hb, List.dropLast_append_of_ne_nil hb, ← List.map_append]
  congr 1
  split <;> rfl

end Text

namespace WebUser

def line (u : WebUser) : String := u.name ++ ":" ++ u.passwordHash ++ "\n"

/-- Neither the name nor the hash breaks the line, and the name ends at the colon. -/
def IsPlain (u : WebUser) : Prop :=
  ':' ∉ u.name.toList ∧ '\n' ∉ u.name.toList ∧ '\n' ∉ u.passwordHash.toList

/-- The lines of a user come before those of the rest. -/
theorem lines_line_append (u : WebUser) (rest : String) : Text.lines (u.line ++ rest) =
    (Text.pieces '\n' (u.name.toList ++ ':' :: u.passwordHash.toList)).map String.ofList ++
      Text.lines rest := by
  have htext : u.line ++ rest = String.ofList
      ((u.name.toList ++ ':' :: u.passwordHash.toList) ++ '\n' :: rest.toList) := by
    apply String.toList_inj.1
    simp [line]
  rw [htext, Text.lines_append, String.ofList_toList]

theorem lines_line (u : WebUser) : Text.lines u.line =
    (Text.pieces '\n' (u.name.toList ++ ':' :: u.passwordHash.toList)).map String.ofList := by
  have hnone : Text.lines "" = [] := by decide
  have hline := u.lines_line_append ""
  rwa [String.append_empty, hnone, List.append_nil] at hline

end WebUser

/-- The names and hashes in a file of web users, one for each line; a line without a colon has
none. -/
def credentialsIn (text : String) : List (Option (String × String)) :=
  (Text.lines text).map (Text.splitOnce? ':')

theorem credentialsIn_line_append (u : WebUser) (rest : String) :
    credentialsIn (u.line ++ rest) = credentialsIn u.line ++ credentialsIn rest := by
  simp only [credentialsIn, u.lines_line_append, u.lines_line, List.map_append]

/-- The file reads as the lines of its users, one by one. -/
theorem credentialsIn_userLines (f : SettingsFiles) :
    credentialsIn f.userLines = f.webUsers.flatMap (fun u => credentialsIn u.line) := by
  show credentialsIn (String.join (f.webUsers.map WebUser.line)) = _
  induction f.webUsers with
  | nil => decide
  | cons u users ih =>
    rw [List.map_cons, List.flatMap_cons, ← ih, ← credentialsIn_line_append]
    simp

theorem credentialsIn_line (u : WebUser) :
    credentialsIn u.line = (Text.pieces '\n' (u.name.toList ++ ':' :: u.passwordHash.toList)).map
      (fun p => Text.splitOnce? ':' (String.ofList p)) := by
  rw [credentialsIn, u.lines_line, List.map_map]
  rfl

theorem credentialsIn_line_ne_nil (u : WebUser) : credentialsIn u.line ≠ [] := by
  rw [credentialsIn_line, Ne, List.map_eq_nil_iff]
  exact Text.pieces_ne_nil _ _

/-- A line reads as its user, and as nobody else, exactly when the user is plain. -/
theorem credentialsIn_line_iff (u : WebUser) :
    credentialsIn u.line = [some (u.name, u.passwordHash)] ↔ u.IsPlain := by
  have hcut : Text.splitOnce? ':' (String.ofList (u.name.toList ++ ':' :: u.passwordHash.toList)) =
      some (u.name, u.passwordHash) ↔ ':' ∉ u.name.toList := by
    rw [Text.splitOnce?_eq_some_iff]
    simp
  rw [credentialsIn_line]
  constructor
  · intro h
    have hlength := congrArg List.length h
    rw [List.length_map, Text.length_pieces] at hlength
    have hcount : List.count '\n' (u.name.toList ++ ':' :: u.passwordHash.toList) = 0 := by
      simpa using hlength
    have hbreak := List.count_eq_zero.1 hcount
    rw [Text.pieces_of_not_mem hbreak] at h
    have hcolon := hcut.1 (by simpa using h)
    simp at hbreak
    exact ⟨hcolon, hbreak.1, hbreak.2⟩
  · rintro ⟨hcolon, hname, hhash⟩
    have hbreak : '\n' ∉ u.name.toList ++ ':' :: u.passwordHash.toList := by
      simp [hname, hhash]
    rw [Text.pieces_of_not_mem hbreak, List.map_singleton, hcut.2 hcolon]

/-- One list out of another that could be more is as long only where each part is a single item. -/
theorem flatMap_eq_map_iff {α β : Type} {g : α → List β} {h : α → β} (hg : ∀ a, g a ≠ [])
    (as : List α) : as.flatMap g = as.map h ↔ ∀ a ∈ as, g a = [h a] := by
  have hlong : ∀ bs : List α, bs.length ≤ (bs.flatMap g).length := by
    intro bs
    induction bs with
    | nil => simp
    | cons b bs ih =>
      have hb := List.length_pos_iff.2 (hg b)
      rw [List.flatMap_cons, List.length_append, List.length_cons]
      omega
  induction as with
  | nil => simp
  | cons a as ih =>
    rw [List.forall_mem_cons, List.flatMap_cons, List.map_cons]
    constructor
    · intro heq
      obtain ⟨x, xs, hx⟩ := List.exists_cons_of_ne_nil (hg a)
      rw [hx, List.cons_append] at heq
      obtain ⟨hhead, htail⟩ := List.cons.inj heq
      have hlength := congrArg List.length htail
      rw [List.length_append, List.length_map] at hlength
      have hxs : xs = [] := List.length_eq_zero_iff.1 (by have := hlong as; omega)
      rw [hxs, List.nil_append] at htail
      exact ⟨by rw [hx, hhead, hxs], ih.1 htail⟩
    · rintro ⟨ha, htail⟩
      rw [ha, ih.2 htail, List.singleton_append]

namespace SettingsFiles

/-- The file of web users reads as the lines of the users, one by one and in order, whatever they
hold.  It reads as the names and hashes that were configured exactly when all users are plain. -/
theorem users_read_back {f : SettingsFiles} (hf : f.webUsers ≠ []) :
    ∃ text, Entries.get? f.contents usersFile = some text ∧
      credentialsIn text = f.webUsers.flatMap (fun u => credentialsIn u.line) ∧
      (∀ u ∈ f.webUsers, credentialsIn u.line = [some (u.name, u.passwordHash)] ↔ u.IsPlain) ∧
      (credentialsIn text = f.webUsers.map (fun u => some (u.name, u.passwordHash)) ↔
        ∀ u ∈ f.webUsers, u.IsPlain) := by
  have hother : relaysFile ≠ usersFile := by decide
  have hfile : Entries.get? f.contents usersFile = some f.userLines := by
    have husers : f.webUsers.isEmpty = false := by simpa using hf
    cases hr : f.relays.isEmpty <;> simp [contents, hr, husers, Entries.get?, hother]
  have hread := credentialsIn_userLines f
  refine ⟨f.userLines, hfile, hread, fun u _ => credentialsIn_line_iff u, ?_⟩
  rw [hread, flatMap_eq_map_iff credentialsIn_line_ne_nil]
  exact forall₂_congr fun u _ => credentialsIn_line_iff u

theorem users_read_back_two :
    let f : SettingsFiles := { webUsers := [⟨"eve", "$2a$04$h1:x"⟩, ⟨"", "$2a$04$h2"⟩] }
    f.webUsers ≠ [] ∧ ∃ text, Entries.get? f.contents usersFile = some text ∧
      credentialsIn text = [some ("eve", "$2a$04$h1:x"), some ("", "$2a$04$h2")] := by
  intro f
  have hne : f.webUsers ≠ [] := by simp [f]
  have hplain : ∀ u ∈ f.webUsers, u.IsPlain := by simp [f, WebUser.IsPlain]
  obtain ⟨text, hfile, -, -, hall⟩ := users_read_back hne
  exact ⟨hne, text, hfile, hall.2 hplain⟩

/-- A hash that breaks its line brings in a user whom nobody configured, in a spec that is
admitted. -/
theorem users_read_back_another :
    ∃ s : Spec, s.violation? = none ∧ ∃ f, s.settings.files = some f ∧
      f.webUsers = [⟨"eve", "h1\nroot:h2"⟩] ∧
      ∃ text, Entries.get? f.contents usersFile = some text ∧
        credentialsIn text = [some ("eve", "h1"), some ("root", "h2")] ∧
        credentialsIn text ≠ f.webUsers.map (fun u => some (u.name, u.passwordHash)) := by
  let f : SettingsFiles := { webUsers := [⟨"eve", "h1\nroot:h2"⟩] }
  let s : Spec := { settings := { files := some f } }
  have hs : s.violation? = none := by decide
  have hread : credentialsIn f.userLines = [some ("eve", "h1"), some ("root", "h2")] := by
    decide +kernel
  have hconfigured : credentialsIn f.userLines ≠ [some ("eve", "h1\nroot:h2")] := by
    rw [hread]
    decide
  exact ⟨s, hs, f, rfl, rfl, f.userLines, rfl, hread, hconfigured⟩

end SettingsFiles
end MailCapture
