import MailCapture.Child.Labels
import MailCapture.Manifest
/-!
Which changes concern which records: a record's own, where its generation is another than the last
one seen, those of its children, and those of its pods.
-/
namespace MailCapture

namespace Metadata

def owners (m : Metadata) : List Key :=
  (m.ownerReferences.getD []).filterMap (fun o =>
    if o.apiVersion = Instance.apiVersion ∧ o.kind = Instance.kindName then
      m.ns.map (fun ns => ⟨ns, o.name⟩)
    else none)

/-- The record that a pod names in its labels, which is in the pod's namespace. -/
def recordOfPod? (m : Metadata) : Option Key := do
  let name ← m.label? nameLabel
  let ns ← m.ns
  return ⟨ns, name⟩

def isPodOfRecord (m : Metadata) : Bool := m.label? typeLabel == some typeLabelValue

end Metadata

def unservedKinds (groups : List String) : List ChildKind :=
  [ChildKind.deploymentConfig, ChildKind.route].filter (fun k => !groups.contains k.kind.group)

abbrev Generations := List (Key × Int64)

namespace Generations

/-- Whether a version of a record is news: it has no generation, or another one than last time. -/
def isNews (seen : Generations) (key : Key) (generation : Option Int64) : Bool :=
  match generation with
  | none => true
  | some g => Entries.get? seen key != some g

def see (seen : Generations) (key : Key) (generation : Option Int64) : Generations :=
  match generation with
  | none => seen
  | some g => Entries.put seen key g

end Generations
end MailCapture
