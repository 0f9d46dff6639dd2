import MailCapture.Http
/-!
A server whose replies are written down beforehand, and a clock that stands still.
-/
namespace MailCapture

structure ScriptedServer where
  now : Time
  replies : List Reply
  seen : List Request := []

namespace ScriptedServer

/-- Answer the clock by the time and a request by the next reply; beyond the last one replies are
lost. -/
def handle : (e : Exchange) → ScriptedServer → e.Answer × ScriptedServer
  | .clock, s => (s.now, s)
  | .send r, s =>
    match s.replies with
    | [] => (.lost "no reply", { s with seen := r :: s.seen })
    | reply :: rest => (reply, { s with replies := rest, seen := r :: s.seen })

def play {α : Type} (s : ScriptedServer) (c : Client α) : Except Failure α × List Request :=
  let (a, s) := c.run.run handle s
  (a, s.seen.reverse)

end ScriptedServer
end MailCapture
