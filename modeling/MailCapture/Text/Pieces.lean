/-!
Cutting texts at a separator.
-/
namespace MailCapture.Text

/-- The pieces between the occurrences of a separator; there is always one more than of those. -/
def pieces (sep : Char) : List Char → List (List Char)
  | [] => [[]]
  | c :: rest =>
    if c = sep then [] :: pieces sep rest
    else match pieces sep rest with
      | [] => [[c]]
      | p :: ps => (c :: p) :: ps

def cut? (sep : Char) : List Char → Option (List Char × List Char)
  | [] => none
  | c :: rest =>
    if c = sep then some ([], rest) else (cut? sep rest).map (fun p => (c :: p.1, p.2))

def split (sep : Char) (s : String) : List String := (pieces sep s.toList).map String.ofList

def splitOnce? (sep : Char) (s : String) : Option (String × String) :=
  (cut? sep s.toList).map (fun p => (String.ofList p.1, String.ofList p.2))

def withoutReturn (line : String) : String :=
  if line.toList.getLast? = some '\r' then String.ofList line.toList.dropLast else line

theorem pieces_ne_nil (sep : Char) (cs : List Char) : pieces sep cs ≠ [] := by
  cases cs with
  | nil => simp [pieces]
  | cons c rest =>
    unfold pieces
    split
    · simp
    · split <;> simp

end MailCapture.Text
