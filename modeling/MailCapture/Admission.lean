import MailCapture.Instance
import MailCapture.Text.Decimal
/-!
Rules that a spec has to meet before any child is touched.  They are checked in a fixed order, and
the first one broken is reported.
-/
namespace MailCapture

inductive Violation where
  | reservedMaildirPath
  | incompleteMongoDb
  | missingMaildirPath
  | relayWithoutMechanism
  | unparsableProbability
  | absoluteWebPath
  deriving DecidableEq, Repr

namespace Violation

def message : Violation → String
  | .reservedMaildirPath =>
    "the chosen maildir path conflicts with other paths needed " ++
      "(/usr/local/bin or /mailhog/settings/files)"
  | .incompleteMongoDb =>
    "mongodb was specified as data storage but not all mongodb params have been specified"
  | .missingMaildirPath =>
    "maildir was specified as data storage but no path has been specified"
  | .relayWithoutMechanism =>
    "an upstream smtp server has username / password specified but no auth mechanism"
  | .unparsableProbability =>
    "a chaos monkey probability rate cannot be unpacked as a float"
  | .absoluteWebPath =>
    "web path must be relative (not starting or ending with slash)"

end Violation

def concatenations : List (List String) → List String
  | [] => [""]
  | choices :: rest => choices.flatMap (fun c => (concatenations rest).map (c ++ ·))

def reservedEnds : List String :=
  [""] ++
    concatenations [["settings"], ["", "/"], ["", "files"]] ++
    concatenations [["local"], ["", "/"], ["", "bin"], ["", "/"], ["", "MailHog"]]

def reservedPaths : List String :=
  concatenations [["/"], ["", "usr", "mailhog"], ["", "/"], reservedEnds]

namespace Spec

def maildirViolation? (s : Spec) : Option Violation :=
  let path := s.settings.maildir.path
  if !path.isEmpty && reservedPaths.contains path then some .reservedMaildirPath else none

def storageViolation? (s : Spec) : Option Violation :=
  match s.settings.storage with
  | .memory => none
  | .maildir => if s.settings.maildir.path.isEmpty then some .missingMaildirPath else none
  | .mongodb =>
    let m := s.settings.mongo
    if m.uri.isEmpty || m.db.isEmpty || m.collection.isEmpty then some .incompleteMongoDb else none

def lacksMechanism (u : Relay) : Bool :=
  (!u.username.isEmpty || !u.password.isEmpty) && u.mechanism.isEmpty

def relayViolation? (s : Spec) : Option Violation :=
  if s.settings.files.any (fun f => f.relays.any lacksMechanism) then
    some .relayWithoutMechanism
  else none

def jimViolation? (s : Spec) : Option Violation :=
  let j := s.settings.jim
  if j.invite && j.probabilities.any (fun p => !p.isEmpty && !Text.isFloatText p) then
    some .unparsableProbability
  else none

def webPathViolation? (s : Spec) : Option Violation :=
  let cs := s.settings.webPath.toList
  if cs.head? == some '/' || cs.getLast? == some '/' then some .absoluteWebPath else none

def violation? (s : Spec) : Option Violation :=
  [s.maildirViolation?, s.storageViolation?, s.relayViolation?, s.jimViolation?,
    s.webPathViolation?].findSome? id

end Spec
end MailCapture
