import MailCapture.Json
/-!
Merge patches: an object changes the fields it names, `null` removes one, and anything else replaces
the target as a whole.
-/
namespace MailCapture.Json

mutual

/-- The target, given last, after a merge patch. -/
def applyPatch : Json → Json → Json
  | .obj changes, target => .obj (mergeFields changes (target.fields?.getD []))
  | patch, _ => patch

def mergeFields : List (String × Json) → Entries Json → Entries Json
  | [], target => target
  | (key, .null) :: rest, target => mergeFields rest (Entries.remove target key)
  | (key, change) :: rest, target =>
    mergeFields rest
      (Entries.put target key (applyPatch change ((Entries.get? target key).getD .null)))

end

def mergePatch (target patch : Json) : Json := applyPatch patch target

end MailCapture.Json
