import MailCapture.Http.Target
import MailCapture.Metrics.Exposition
import MailCapture.Time
/-!
Health of the operator as its probes show it.
-/
namespace MailCapture

structure Health where
  isReady : Bool := false
  /-- when a reconciliation last succeeded -/
  lastSuccess : Option Time := none
  metrics : Metrics := {}

structure ProbeReply where
  status : Nat
  contentType : Option String
  body : String
  deriving DecidableEq, Repr

namespace ProbeReply

def plain (status : Nat) (body : String) : ProbeReply :=
  ⟨status, some "text/plain; charset=utf-8", body⟩

def bare (status : Nat) : ProbeReply := ⟨status, none, ""⟩

end ProbeReply

namespace Health

def touch (h : Health) (now : Time) : Health := { h with lastSuccess := some now }

def page? (h : Health) : String → Option ProbeReply
  | "/healthz" => some (.plain 200 "ok")
  | "/readyz" => some (if h.isReady then .plain 200 "ready" else .plain 503 "not ready")
  | "/metrics" => some ⟨200, some "text/plain; version=0.0.4; charset=utf-8", h.metrics.text⟩
  | _ => none

def isMethod (s : String) : Bool :=
  !s.isEmpty && s.toList.all (fun c => c.isAlphanum || "!#$%&'*+-.^_\x60|~".contains c)

/-- Answer a request for a page; pages can be read and, without their body, asked for. -/
def answerPage (page : ProbeReply) (method : String) : ProbeReply :=
  if method = "GET" then page
  else if method = "HEAD" then { page with body := "" }
  else .bare 405

def answer? (h : Health) (method target : String) : Option ProbeReply :=
  if isMethod method then
    (Target.path? target).map (fun path =>
      match h.page? path with
      | none => .bare 404
      | some page => answerPage page method)
  else none

end Health
end MailCapture
