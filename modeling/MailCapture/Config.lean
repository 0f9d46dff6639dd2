import MailCapture.Text.Blank
import MailCapture.Text.Pieces
import MailCapture.Text.Unsigned
/-!
The configuration of the operator process, looked up by the names of its variables.
-/
namespace MailCapture

structure Config where
  /-- the one namespace to watch; none is the whole cluster -/
  watchNamespace : Option String := none
  podName : Option String := none
  podNamespace : Option String := none
  requeueSeconds : Nat := 10
  healthPort : Nat := 8080
  deriving DecidableEq, Repr

namespace Config

def filled? (lookup : String → Option String) (key : String) : Option String :=
  (lookup key).filter (fun v => !(Text.trim v).isEmpty)

/-- The first entry of a comma-separated list that holds more than white space, trimmed. -/
def firstEntry? (s : String) : Option String :=
  ((Text.split ',' s).map Text.trim).find? (fun e => !e.isEmpty)

def number? (lookup : String → Option String) (key : String) (largest : Nat) : Option Nat :=
  (filled? lookup key).bind (fun v => Text.unsigned? largest (Text.trim v))

def ofLookup (lookup : String → Option String) : Config :=
  let default : Config := {}
  { watchNamespace :=
      ((filled? lookup "WATCH_NAMESPACE").orElse
        (fun _ => filled? lookup "OLM_TARGET_NAMESPACE")).bind firstEntry?
    podName := filled? lookup "POD_NAME"
    podNamespace := filled? lookup "POD_NAMESPACE"
    requeueSeconds :=
      ((number? lookup "REQUEUE_INTERVAL_SECS" 18446744073709551615).filter (· > 0)).getD
        default.requeueSeconds
    healthPort := (number? lookup "HEALTH_PORT" 65535).getD default.healthPort }

end Config
end MailCapture
