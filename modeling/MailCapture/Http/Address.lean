import MailCapture.Text.Pieces
/-!
Addresses of requests: which characters they may hold, how values are written into them, and the
paths of an API server.
-/
namespace MailCapture.Address

def isForbidden (c : Char) : Bool :=
  c.toNat ≤ 32 || c.toNat == 127 || c == '<' || c == '>'

def limit : Nat := 65534

def sentPart (cs : List Char) : List Char := cs.takeWhile (· != '#')

def path (cs : List Char) : List Char := (sentPart cs).takeWhile (· != '?')

def query (cs : List Char) : List Char := ((sentPart cs).dropWhile (· != '?')).drop 1

def isWritable (cs : List Char) : Bool :=
  !(path cs).any (fun c => isForbidden c || c == '\x60') &&
    !(query cs).any (fun c => isForbidden c || c == '\x22')

def sent? (address : String) : Option String :=
  if address.utf8ByteSize ≤ limit ∧ isWritable address.toList then
    some (String.ofList (sentPart address.toList))
  else none

def percentEncoded (c : Char) : List Char :=
  let digit (n : Nat) : Char := if n < 10 then Char.ofNat (48 + n) else Char.ofNat (55 + n)
  (String.singleton c).toUTF8.toList.flatMap (fun b =>
    ['%', digit (b.toNat / 16), digit (b.toNat % 16)])

/-- A text as the value of a form: blanks as plus signs, everything but letters, digits and `*-._`
by its bytes. -/
def formEncoded (s : String) : String :=
  String.ofList (s.toList.flatMap (fun c =>
    if c = ' ' then ['+']
    else if c.isAlphanum || c == '*' || c == '-' || c == '.' || c == '_' then [c]
    else percentEncoded c))

def collection (group version plural ns : String) : String :=
  (if group.isEmpty then "/api/" else "/apis/" ++ group ++ "/") ++ version ++
    "/namespaces/" ++ ns ++ "/" ++ plural

def pieces? (address : String) : Option (List String) :=
  (sent? address).map (fun sent => Text.split '/' (String.ofList (path sent.toList)))

end MailCapture.Address
