import MailCapture.Document.Parser
import MailCapture.Failure
import MailCapture.Http.Address
import MailCapture.Prog
import MailCapture.Time
/-!
Requests to an API server and what its replies mean.
-/
namespace MailCapture

inductive HttpMethod where
  | get
  | post
  | put
  | delete
  deriving DecidableEq, Repr

namespace HttpMethod

def text : HttpMethod → String
  | .get => "GET"
  | .post => "POST"
  | .put => "PUT"
  | .delete => "DELETE"

end HttpMethod

structure Request where
  method : HttpMethod
  uri : String
  body : Option Json

inductive Reply where
  | received (status : UInt16) (body : String)
  /-- no reply came back -/
  | lost (text : String)
  deriving DecidableEq, Repr

inductive Exchange where
  | clock
  | send (request : Request)

def Exchange.Answer : Exchange → Type
  | .clock => Time
  | .send _ => Reply

def reasonPhrase? : UInt16 → Option String
  | 400 => some "Bad Request"
  | 401 => some "Unauthorized"
  | 402 => some "Payment Required"
  | 403 => some "Forbidden"
  | 404 => some "Not Found"
  | 405 => some "Method Not Allowed"
  | 406 => some "Not Acceptable"
  | 407 => some "Proxy Authentication Required"
  | 408 => some "Request Timeout"
  | 409 => some "Conflict"
  | 410 => some "Gone"
  | 411 => some "Length Required"
  | 412 => some "Precondition Failed"
  | 413 => some "Payload Too Large"
  | 414 => some "URI Too Long"
  | 415 => some "Unsupported Media Type"
  | 416 => some "Range Not Satisfiable"
  | 417 => some "Expectation Failed"
  | 418 => some "I'm a teapot"
  | 421 => some "Misdirected Request"
  | 422 => some "Unprocessable Entity"
  | 423 => some "Locked"
  | 424 => some "Failed Dependency"
  | 425 => some "Too Early"
  | 426 => some "Upgrade Required"
  | 428 => some "Precondition Required"
  | 429 => some "Too Many Requests"
  | 431 => some "Request Header Fields Too Large"
  | 451 => some "Unavailable For Legal Reasons"
  | 500 => some "Internal Server Error"
  | 501 => some "Not Implemented"
  | 502 => some "Bad Gateway"
  | 503 => some "Service Unavailable"
  | 504 => some "Gateway Timeout"
  | 505 => some "HTTP Version Not Supported"
  | 506 => some "Variant Also Negotiates"
  | 507 => some "Insufficient Storage"
  | 508 => some "Loop Detected"
  | 510 => some "Not Extended"
  | 511 => some "Network Authentication Required"
  | _ => none

namespace Refusal

def read? (v : Document) : Option Refusal := do
  let fields ← Wire.structure? ["status", "message", "reason", "code"] v
  return {
    status := ← Wire.required fields "status" Wire.string?
    message := ← Wire.defaulted fields "message" Wire.string? ""
    reason := ← Wire.defaulted fields "reason" Wire.string? ""
    code := ← Wire.required fields "code" Wire.uint16? }

def ofReply (status : UInt16) (body : String) : Refusal :=
  match (Document.parse? body).bind read? with
  | some r => r
  | none => {
      status := toString status.toNat ++ " " ++
        (reasonPhrase? status).getD "<unknown status code>"
      message := Text.quoted body
      reason := "Failed to parse error data"
      code := status }

end Refusal

namespace Reply

def read {α : Type} (decode : Document → Option α) : Reply → Except Failure α
  | .lost text => .error (.transport text)
  | .received status body =>
    if 400 ≤ status ∧ status < 600 then .error (.refused (Refusal.ofReply status body))
    else match (Document.parse? body).bind decode with
      | some a => .ok a
      | none => .error .unreadableReply

end Reply

abbrev Client := ExceptT Failure (Prog Exchange Exchange.Answer)

namespace Client
variable {α : Type}

def fail (f : Failure) : Client α := ExceptT.mk (.done (.error f))

def send (method : HttpMethod) (uri : String) (body : Option Json) (decode : Document → Option α) :
    Client α :=
  match Address.sent? uri with
  | none => fail .badRequest
  | some sent =>
    ExceptT.mk (.ask (Exchange.send ⟨method, sent, body⟩) (fun reply => .done (reply.read decode)))

def sendNamed (method : HttpMethod) (path name ending : String) (body : Option Json)
    (decode : Document → Option α) : Client α :=
  if name.isEmpty then fail .badRequest
  else send method (path ++ "/" ++ name ++ ending) body decode

def find (path name : String) (decode : Document → Option α) : Client (Option α) :=
  ExceptT.mk ((sendNamed .get path name "" none decode).run.bind (fun
    | .ok a => .done (.ok (some a))
    | .error (.refused r) =>
      if r.reason = "NotFound" then .done (.ok none) else .done (.error (.refused r))
    | .error f => .done (.error f)))

def create (path : String) (object : Json) (decode : Document → Option α) : Client α :=
  send .post (path ++ "?") (some object) decode

def replace (path name : String) (object : Json) (decode : Document → Option α) : Client α :=
  sendNamed .put path name "?" (some object) decode

def now : Client Time := ExceptT.mk (.ask Exchange.clock (fun t => .done (.ok t)))

end Client
end MailCapture
