import MailCapture.Lease.Election
import MailCapture.Proofs.Expiry
/-!
Candidates that compete for one lease.  Each asks its queries one after the other, the queries of
all of them stand in any order, and between two queries any time may pass.
-/
namespace MailCapture

structure Race (ι : Type) where
  leaseName : String
  holder : ι → String
  seconds : ι → UInt64
  distinct : ∀ i j, holder i = holder j → i = j

def Race.candidate {ι : Type} (r : Race ι) (i : ι) : Candidate :=
  Candidate.new r.leaseName (r.holder i) (r.seconds i)

inductive Activity where
  | idle
  | acquiring (rest : Candidate.Step Bool)
  | releasing (rest : Candidate.Step Unit)

structure LeaseWorld where
  /-- nanoseconds since 1970 -/
  now : Int
  stored : Option Lease
  /-- the versions that have been given so far -/
  versions : List String

namespace LeaseWorld

/-- A lease is stored under a version that was never given before. -/
inductive Stores (s : LeaseWorld) (written : Lease) : LeaseWorld → Prop
  | store (stored : Lease) (version : String) (hkept : written.KeptAs stored)
      (hversion : stored.metadata.resourceVersion = some version)
      (hfresh : version ∉ s.versions) :
      Stores s written { s with stored := some stored, versions := version :: s.versions }

/-- A query, an answer to it, the surroundings afterwards and the lease that was written, if any.
Every call may fail, and the reply to a write may be lost. -/
inductive Answers (s : LeaseWorld) :
    (q : LeaseCall) → q.Answer → LeaseWorld → Option Lease → Prop
  | clock : Answers s .clock (Time.ofTotal s.now) s none
  | get (name : String) : Answers s (.get name) (.ok s.stored) s none
  | getFails (name : String) (f : Failure) : Answers s (.get name) (.error f) s none
  | create (lease : Lease) (reply : Except Failure Lease) (t : LeaseWorld)
      (hnone : s.stored = none) (hstores : s.Stores lease t) :
      Answers s (.create lease) reply t (some lease)
  | createFails (lease : Lease) (f : Failure) : Answers s (.create lease) (.error f) s none
  | replace (name : String) (lease current : Lease) (reply : Except Failure Lease)
      (t : LeaseWorld) (hcurrent : s.stored = some current)
      (hversion : lease.metadata.resourceVersion = current.metadata.resourceVersion)
      (hstores : s.Stores lease t) : Answers s (.replace name lease) reply t (some lease)
  | replaceFails (name : String) (lease : Lease) (f : Failure) :
      Answers s (.replace name lease) (.error f) s none

end LeaseWorld

inductive LeaseEvent (ι : Type) where
  | acquired (i : ι) (lease : Lease)
  | released (i : ι) (lease : Lease)

def LeaseEvent.writer {ι : Type} : LeaseEvent ι → ι
  | .acquired i _ => i
  | .released i _ => i

structure RaceState (ι : Type) where
  world : LeaseWorld
  activity : ι → Activity

variable {ι : Type} [DecidableEq ι]

def RaceState.turn (s : RaceState ι) (i : ι) (a : Activity) (w : LeaseWorld) : RaceState ι :=
  ⟨w, fun j => if j = i then a else s.activity j⟩

namespace Race

inductive Step (r : Race ι) : RaceState ι → List (LeaseEvent ι) → RaceState ι → Prop
  | wait (s : RaceState ι) (now : Int) (hnow : s.world.now ≤ now) :
      Step r s [] { s with world := { s.world with now := now } }
  | acquire (s : RaceState ι) (i : ι) (hidle : s.activity i = .idle) :
      Step r s [] (s.turn i (.acquiring (r.candidate i).acquire) s.world)
  | release (s : RaceState ι) (i : ι) (hidle : s.activity i = .idle) :
      Step r s [] (s.turn i (.releasing (r.candidate i).release) s.world)
  | stop (s : RaceState ι) (i : ι) : Step r s [] (s.turn i .idle s.world)
  | whileAcquiring (s : RaceState ι) (i : ι) (q : LeaseCall)
      (next : q.Answer → Candidate.Step Bool) (a : q.Answer) (w : LeaseWorld)
      (written : Option Lease) (hrest : s.activity i = .acquiring (.ask q next))
      (hanswer : s.world.Answers q a w written) :
      Step r s (written.toList.map (.acquired i)) (s.turn i (.acquiring (next a)) w)
  | whileReleasing (s : RaceState ι) (i : ι) (q : LeaseCall)
      (next : q.Answer → Candidate.Step Unit) (a : q.Answer) (w : LeaseWorld)
      (written : Option Lease) (hrest : s.activity i = .releasing (.ask q next))
      (hanswer : s.world.Answers q a w written) :
      Step r s (written.toList.map (.released i)) (s.turn i (.releasing (next a)) w)

structure Starts (s : RaceState ι) : Prop where
  idle : ∀ i, s.activity i = .idle
  version : ∀ l, s.world.stored = some l →
    ∃ version ∈ s.world.versions, l.metadata.resourceVersion = some version

/-- The runs of a race: their successful writes, the last one first, and where they lead. -/
inductive Reaches (r : Race ι) : List (LeaseEvent ι) → RaceState ι → Prop
  | start (s : RaceState ι) (hstarts : Starts s) : Reaches r [] s
  | step {events : List (LeaseEvent ι)} {s : RaceState ι} (hreaches : Reaches r events s)
      {new : List (LeaseEvent ι)} {t : RaceState ι} (hstep : r.Step s new t) :
      Reaches r (new ++ events) t

/-- The lease by which a candidate leads: its latest successful write, unless that gave the lease
up. -/
def outstanding (j : ι) : List (LeaseEvent ι) → Option Lease
  | [] => none
  | .acquired i lease :: earlier => if i = j then some lease else outstanding j earlier
  | .released i _ :: earlier => if i = j then none else outstanding j earlier

end Race
end MailCapture
