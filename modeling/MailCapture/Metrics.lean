import MailCapture.Decimal.Double
import MailCapture.Store
/-!
What the operator counts and measures.
-/
namespace MailCapture

/-- A sum of finite values; once it is beyond all of them it stays there. -/
inductive Total where
  | finite (value : Double)
  | infinite (negative : Bool)
  deriving DecidableEq, Repr

/-- A sum with one more term; two terms whose sum is beyond all values have one sign. -/
def Total.add : Total → Double → Total
  | .finite x, y => (x.add y).elim (.infinite y.negative) .finite
  | .infinite negative, _ => .infinite negative

/-- Durations by upper bounds: how many there are, their sum, and how many are within each bound. -/
structure Histogram where
  count : Nat := 0
  sum : Total := .finite .zero
  within : List Nat := []

namespace Histogram

/-- The upper bounds in seconds, each twice the one before. -/
def bounds : List Double :=
  (List.range 15).filterMap (fun i => Double.ofRatio false (Nat.pow 2 i) 1000)

def empty : Histogram := ⟨0, .finite .zero, bounds.map (fun _ => 0)⟩

def observe (h : Histogram) (seconds : Double) : Histogram where
  count := h.count + 1
  sum := h.sum.add seconds
  within := List.zipWith (fun b n => if seconds.le b then n + 1 else n) bounds h.within

end Histogram

structure Metrics where
  reconciliations : List (Key × Nat) := []
  failures : List (Key × Nat) := []
  durations : List (Key × Histogram) := []
  childWrites : List ((ChildKind × Verb) × Nat) := []
  statusWrites : Nat := 0
  pods : List (Key × Int64) := []
  readyPods : List (Key × Int64) := []

namespace Metrics
variable {κ α : Type} [DecidableEq κ]

def change (f : α → α) (start : α) : List (κ × α) → κ → List (κ × α)
  | [], key => [(key, f start)]
  | (k, v) :: rest, key => if k = key then (k, f v) :: rest else (k, v) :: change f start rest key

def increment (m : List (κ × Nat)) (key : κ) : List (κ × Nat) := change (· + 1) 0 m key

def childWritten (m : Metrics) (kind : ChildKind) (verb : Verb) : Metrics :=
  { m with childWrites := increment m.childWrites (kind, verb) }

def statusWritten (m : Metrics) : Metrics := { m with statusWrites := m.statusWrites + 1 }

def podsCounted (m : Metrics) (key : Key) (pods ready : Int64) : Metrics :=
  { m with
    pods := change (fun _ => pods) 0 m.pods key
    readyPods := change (fun _ => ready) 0 m.readyPods key }

def reconciled (m : Metrics) (key : Key) (seconds : Double) : Metrics :=
  { m with
    reconciliations := increment m.reconciliations key
    durations := change (fun h => h.observe seconds) .empty m.durations key }

def failed (m : Metrics) (key : Key) : Metrics :=
  { m with failures := increment m.failures key }

end Metrics
end MailCapture
