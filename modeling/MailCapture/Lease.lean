import MailCapture.Metadata
/-!
Leases: which of several candidates leads, since when, and until when unless it renews.
-/
namespace MailCapture

structure LeaseSpec where
  acquireTime : Option Time := none
  holderIdentity : Option String := none
  leaseDurationSeconds : Option Int32 := none
  leaseTransitions : Option Int32 := none
  preferredHolder : Option String := none
  renewTime : Option Time := none
  strategy : Option String := none
  deriving DecidableEq, Repr

structure Lease where
  metadata : Metadata := {}
  spec : Option LeaseSpec := none

inductive Claim where
  /-- there is none yet -/
  | create
  /-- it is the candidate's own -/
  | renew
  /-- it has expired or was given up -/
  | takeOver
  /-- another candidate holds it -/
  | heldBy (holder : String)
  deriving DecidableEq, Repr

open Wire

namespace LeaseSpec

def read? (v : Document) : Option LeaseSpec := do
  let fields ← v.members?
  return {
    acquireTime := ← optional fields "acquireTime" Time.read?
    holderIdentity := ← optional fields "holderIdentity" string?
    leaseDurationSeconds := ← optional fields "leaseDurationSeconds" int32?
    leaseTransitions := ← optional fields "leaseTransitions" int32?
    preferredHolder := ← optional fields "preferredHolder" string?
    renewTime := ← optional fields "renewTime" Time.read?
    strategy := ← optional fields "strategy" string? }

def toJson (s : LeaseSpec) : Json :=
  record [
    ("acquireTime", s.acquireTime.map Time.toMicroJson),
    ("holderIdentity", s.holderIdentity.map .str),
    ("leaseDurationSeconds", s.leaseDurationSeconds.map int32),
    ("leaseTransitions", s.leaseTransitions.map int32),
    ("preferredHolder", s.preferredHolder.map .str),
    ("renewTime", s.renewTime.map Time.toMicroJson),
    ("strategy", s.strategy.map .str)]

end LeaseSpec

namespace Lease

def apiVersion : String := "coordination.k8s.io/v1"

def kindName : String := "Lease"

def read? (v : Document) : Option Lease := do
  let fields ← v.members?
  let () ← typeNames? fields apiVersion kindName
  return {
    metadata := ← lenient fields "metadata" Metadata.read? {}
    spec := ← optional fields "spec" LeaseSpec.read? }

def toJson (l : Lease) : Json :=
  record [
    ("apiVersion", some (.str apiVersion)),
    ("kind", some (.str kindName)),
    ("metadata", some l.metadata.toJson),
    ("spec", l.spec.map LeaseSpec.toJson)]

def holder? (l : Lease) : Option String := l.spec.bind (·.holderIdentity)

/-- Whether the last renewal is longer ago than the lease lasts; a lease that lacks either has
expired. -/
def isExpired (l : Lease) (now : Time) : Bool :=
  match l.spec with
  | some { renewTime := some renewed, leaseDurationSeconds := some duration, .. } =>
    renewed.secondsBetween now > duration.toInt
  | _ => true

def claim (lease : Option Lease) (holder : String) (now : Time) : Claim :=
  match lease with
  | none => .create
  | some l =>
    match l.holder? with
    | none => .takeOver
    | some current =>
      if current = holder then .renew
      else if l.isExpired now then .takeOver
      else .heldBy current

def increment? (n : Int32) : Option Int32 :=
  if n = 2147483647 then none else some (n + 1)

/-- The lease as a candidate writes it: what is not its own is kept, and a change of the holder is
counted.  Where the count is at its end there is none. -/
def next? (current : Option Lease) (name holder : String) (duration : Int32) (now : Time) :
    Option Lease :=
  let previous := (current.bind (·.spec)).getD {}
  let isRenewal := previous.holderIdentity = some holder
  let transitions := previous.leaseTransitions.getD 0
  let counted := if current.isSome ∧ ¬ isRenewal then increment? transitions else some transitions
  counted.map (fun transitions =>
    { metadata := { (current.map (·.metadata)).getD {} with name := some name }
      spec := some { previous with
        holderIdentity := some holder
        leaseDurationSeconds := some duration
        acquireTime := if isRenewal then previous.acquireTime else some now
        renewTime := some now
        leaseTransitions := some transitions } })

end Lease
end MailCapture
