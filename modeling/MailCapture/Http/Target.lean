import MailCapture.Http.Address
/-!
Targets of requests as a server receives them: a path with a query, the same behind a scheme and an
authority, an authority alone, or an asterisk.
-/
namespace MailCapture.Target

/-! ### Authorities -/

/-- What a reader of an authority remembers.  A colon or a percent sign is forgotten once a later
character shows that it belongs to a user or stands in brackets. -/
structure Authority where
  colons : Nat := 0
  isOpened : Bool := false
  isClosed : Bool := false
  hasPercent : Bool := false
  endsUser : Bool := false
  deriving DecidableEq, Repr

namespace Authority

def colonLimit : Nat := 8

def isPlain (c : Char) : Bool := c.isAlphanum || "!$&'()*+,-.;=_~".contains c

def next (a : Authority) (c : Char) : Option Authority :=
  let a := { a with endsUser := false }
  match c with
  | ':' => if a.colons < colonLimit then some { a with colons := a.colons + 1 } else none
  | '[' => if a.hasPercent || a.isOpened then none else some { a with isOpened := true }
  | ']' =>
    if !a.isOpened || a.isClosed then none
    else some { a with isClosed := true, colons := 0, hasPercent := false }
  | '@' => some { a with colons := 0, hasPercent := false, endsUser := true }
  | '%' => some { a with hasPercent := true }
  | c => if isPlain c then some a else none

/-- Whether an authority may end here: brackets are in pairs, at most one colon stands before a
port, and there is something behind a user. -/
def mayEnd (a : Authority) : Bool :=
  a.isOpened == a.isClosed && a.colons ≤ 1 && !a.hasPercent && !a.endsUser

def accepts (cs : List Char) : Bool := (cs.foldlM next {}).any mayEnd

end Authority

def endsAuthority (c : Char) : Bool := c == '/' || c == '?' || c == '#'

/-! ### Schemes -/

def isInScheme (c : Char) : Bool :=
  c.isAlphanum || c == '+' || c == '-' || c == '.' || c == '~'

def schemeLimit : Nat := 64

def scheme? (cs : List Char) : Option (List Char × List Char) :=
  match cs.dropWhile isInScheme with
  | ':' :: '/' :: '/' :: rest => some (cs.takeWhile isInScheme, rest)
  | _ => none

/-! ### Paths -/

def pathBehindAuthority? (cs : List Char) : Option (List Char) :=
  let authority := cs.takeWhile (fun c => !endsAuthority c)
  let rest := cs.dropWhile (fun c => !endsAuthority c)
  if !authority.isEmpty && Authority.accepts authority && Address.isWritable rest then
    some (if (Address.path rest).isEmpty then ['/'] else Address.path rest)
  else none

/-- The path that a target names, if it is one; an authority alone names the empty path. -/
def pathOf? (cs : List Char) : Option (List Char) :=
  match cs with
  | [] => none
  | ['*'] => some ['*']
  | '/' :: _ => if Address.isWritable cs then some (Address.path cs) else none
  | cs =>
    match scheme? cs with
    | some (scheme, rest) =>
      if scheme.length ≤ schemeLimit then pathBehindAuthority? rest else none
    | none => if Authority.accepts cs then some [] else none

def path? (target : String) : Option String :=
  if target.utf8ByteSize ≤ Address.limit then (pathOf? target.toList).map String.ofList else none

end MailCapture.Target
