import MailCapture.Http
import MailCapture.Lease
/-!
Candidates that compete for a lease.  A write carries the version that was observed, so of two
candidates that race for an expired lease only one succeeds.
-/
namespace MailCapture

inductive LeaseCall where
  | clock
  | get (name : String)
  | create (lease : Lease)
  | replace (name : String) (lease : Lease)

def LeaseCall.Answer : LeaseCall → Type
  | .clock => Time
  | .get _ => Except Failure (Option Lease)
  | .create _ => Except Failure Lease
  | .replace _ _ => Except Failure Lease

structure Candidate where
  leaseName : String
  holder : String
  duration : Int32

namespace Candidate

def new (leaseName holder : String) (seconds : UInt64) : Candidate :=
  ⟨leaseName, holder, Int32.ofNat (min seconds.toNat 2147483647)⟩

abbrev Step (α : Type) := Prog LeaseCall LeaseCall.Answer (Except LeaseFailure α)

/-- Whether a write gained the lease; one that came too late did not. -/
def gained : Except Failure Lease → Except LeaseFailure Bool
  | .ok _ => .ok true
  | .error (.refused r) => if r.code = 409 then .ok false else .error (.failed (.refused r))
  | .error f => .error (.failed f)

def write (c : Candidate) (current : Option Lease) (now : Time) : Step Bool :=
  match Lease.claim current c.holder now,
      Lease.next? current c.leaseName c.holder c.duration now with
  | .heldBy _, _ => .done (.ok false)
  | _, none => .done (.error .exhausted)
  | .create, some lease => .ask (.create lease) (fun r => .done (gained r))
  | .renew, some lease | .takeOver, some lease =>
    .ask (.replace c.leaseName lease) (fun r => .done (gained r))

def acquire (c : Candidate) : Step Bool :=
  .ask .clock (fun now => .ask (.get c.leaseName) (fun
    | .error f => .done (.error (.failed f))
    | .ok current => c.write current now))

def release (c : Candidate) : Step Unit :=
  .ask (.get c.leaseName) (fun
    | .error f => .done (.error (.failed f))
    | .ok none => .done (.ok ())
    | .ok (some lease) =>
      if lease.holder? = some c.holder then
        let released : Lease :=
          { lease with spec := lease.spec.map (fun s => { s with holderIdentity := none }) }
        .ask (.replace lease.metadata.anyName released)
          (fun r => .done ((r.mapError .failed).map (fun _ => ())))
      else .done (.ok ()))

end Candidate

namespace LeaseCall

def exchange (ns : String) : (c : LeaseCall) → Prog Exchange Exchange.Answer c.Answer
  | .clock => .ask Exchange.clock .done
  | .get name => (Client.find (path ns) name Lease.read?).run
  | .create lease => (Client.create (path ns) lease.toJson Lease.read?).run
  | .replace name lease => (Client.replace (path ns) name lease.toJson Lease.read?).run
where
  path (ns : String) : String := Address.collection "coordination.k8s.io" "v1" "leases" ns

end LeaseCall
end MailCapture
