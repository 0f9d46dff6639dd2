import MailCapture.Text.Quoted
/-!
Why an operation on the cluster failed, what the failure says, and when to try again.
-/
namespace MailCapture

structure Refusal where
  status : String
  message : String
  reason : String
  code : UInt16
  deriving DecidableEq, Repr

inductive Failure where
  /-- an object vanished between being read and being written -/
  | notFound (what : String)
  /-- another writer created the object first -/
  | alreadyExists (what : String)
  /-- another writer changed the object first -/
  | conflict (what : String)
  /-- the server does not accept the object, typically because a fixed field changed -/
  | invalid (what : String)
  | missingField (field : String)
  | transient (what : String)
  | serialization
  /-- the server refused the request in a way that has no meaning of its own here -/
  | refused (refusal : Refusal)
  /-- the request or its reply was lost -/
  | transport (text : String)
  /-- the reply holds no value of the expected type -/
  | unreadableReply
  /-- the request cannot be written down -/
  | badRequest
  /-- any other failure of the connection -/
  | connection
  deriving DecidableEq, Repr

namespace Refusal

def text (r : Refusal) : String :=
  "ApiError: " ++ r.message ++ ": " ++ r.reason ++ " (ErrorResponse \x7b status: " ++
    Text.quoted r.status ++ ", message: " ++ Text.quoted r.message ++ ", reason: " ++
    Text.quoted r.reason ++ ", code: " ++ toString r.code.toNat ++ " \x7d)"

end Refusal

namespace Failure

def message? : Failure → Option String
  | .notFound s => some ("Not found: " ++ s)
  | .alreadyExists s => some ("Already exists: " ++ s)
  | .conflict s => some ("Conflict: " ++ s)
  | .invalid s => some ("Invalid object: " ++ s)
  | .missingField s => some ("Missing required field: " ++ s)
  | .transient s => some ("Transient error: " ++ s)
  | .refused r => some ("Kubernetes API error: " ++ r.text)
  | .transport s => some ("Kubernetes API error: ServiceError: " ++ s)
  | .serialization | .unreadableReply | .badRequest | .connection => none

def isNotFound : Failure → Bool
  | .notFound _ => true
  | .refused r => r.code == 404
  | _ => false

/-- Whether the same operation may succeed later: lost messages, races, and a server that is
overloaded or broken. -/
def isRetryable : Failure → Bool
  | .refused r => r.code ≥ 500 || r.code == 429
  | .transport _ | .notFound _ | .alreadyExists _ | .conflict _ | .transient _ => true
  | .invalid _ | .missingField _ | .serialization | .unreadableReply | .badRequest
  | .connection => false

/-- Seconds until a failure that will not pass by itself is looked at again. -/
def recheckSeconds : UInt64 := 300

def requeueSeconds (f : Failure) (interval : UInt64) : UInt64 :=
  if f.isRetryable then interval else recheckSeconds

end Failure

inductive EditFailure where
  | noSuchObject
  /-- what a patch makes of its object is no object of that type -/
  | undecodable
  | failed (f : Failure)

inductive LeaseFailure where
  /-- no further change of the holder can be counted -/
  | exhausted
  | failed (f : Failure)

end MailCapture
