import MailCapture.Wire
/-!
Where pods may run and what they may use: affinity rules and resource requirements.
-/
namespace MailCapture

structure Requirement where
  key : String := ""
  operator : String := ""
  values : Option (List String) := none
  deriving DecidableEq, Repr

structure NodeSelectorTerm where
  matchExpressions : Option (List Requirement) := none
  matchFields : Option (List Requirement) := none
  deriving DecidableEq, Repr

structure PreferredNodes where
  preference : NodeSelectorTerm := {}
  weight : Int32 := 0
  deriving DecidableEq, Repr

structure NodeAffinity where
  preferred : Option (List PreferredNodes) := none
  /-- the terms of the node selector that has to match -/
  required : Option (List NodeSelectorTerm) := none
  deriving DecidableEq, Repr

structure LabelSelector where
  matchExpressions : Option (List Requirement) := none
  matchLabels : Option (Entries String) := none
  deriving DecidableEq, Repr

structure PodAffinityTerm where
  labelSelector : Option LabelSelector := none
  matchLabelKeys : Option (List String) := none
  mismatchLabelKeys : Option (List String) := none
  namespaceSelector : Option LabelSelector := none
  namespaces : Option (List String) := none
  topologyKey : String := ""
  deriving DecidableEq, Repr

structure PreferredPods where
  term : PodAffinityTerm := {}
  weight : Int32 := 0
  deriving DecidableEq, Repr

structure PodAffinity where
  preferred : Option (List PreferredPods) := none
  required : Option (List PodAffinityTerm) := none
  deriving DecidableEq, Repr

structure Affinity where
  nodeAffinity : Option NodeAffinity := none
  podAffinity : Option PodAffinity := none
  podAntiAffinity : Option PodAffinity := none
  deriving DecidableEq, Repr

structure ResourceClaim where
  name : String := ""
  request : Option String := none
  deriving DecidableEq, Repr

structure Resources where
  claims : Option (List ResourceClaim) := none
  limits : Option (Entries String) := none
  requests : Option (Entries String) := none
  deriving DecidableEq, Repr

open Wire

namespace Requirement

def read? (v : Document) : Option Requirement := do
  let fields ← v.members?
  return {
    key := ← lenientText fields "key"
    operator := ← lenientText fields "operator"
    values := ← optional fields "values" strings? }

def toJson (r : Requirement) : Json :=
  record [
    ("key", some (.str r.key)),
    ("operator", some (.str r.operator)),
    ("values", r.values.map strings)]

def listJson (rs : List Requirement) : Json := .arr (rs.map toJson)

end Requirement

namespace NodeSelectorTerm

def read? (v : Document) : Option NodeSelectorTerm := do
  let fields ← v.members?
  return {
    matchExpressions := ← optional fields "matchExpressions" (list? Requirement.read?)
    matchFields := ← optional fields "matchFields" (list? Requirement.read?) }

def toJson (t : NodeSelectorTerm) : Json :=
  record [
    ("matchExpressions", t.matchExpressions.map Requirement.listJson),
    ("matchFields", t.matchFields.map Requirement.listJson)]

end NodeSelectorTerm

namespace PreferredNodes

def read? (v : Document) : Option PreferredNodes := do
  let fields ← v.members?
  return {
    preference := ← lenient fields "preference" NodeSelectorTerm.read? {}
    weight := ← lenient fields "weight" int32? 0 }

def toJson (p : PreferredNodes) : Json :=
  record [("preference", some p.preference.toJson), ("weight", some (int32 p.weight))]

end PreferredNodes

namespace NodeAffinity

def terms? (v : Document) : Option (List NodeSelectorTerm) := do
  let fields ← v.members?
  lenient fields "nodeSelectorTerms" (list? NodeSelectorTerm.read?) []

def termsJson (ts : List NodeSelectorTerm) : Json :=
  record [("nodeSelectorTerms", some (.arr (ts.map NodeSelectorTerm.toJson)))]

def read? (v : Document) : Option NodeAffinity := do
  let fields ← v.members?
  return {
    preferred := ← optional fields "preferredDuringSchedulingIgnoredDuringExecution"
      (list? PreferredNodes.read?)
    required := ← optional fields "requiredDuringSchedulingIgnoredDuringExecution" terms? }

def toJson (a : NodeAffinity) : Json :=
  record [
    ("preferredDuringSchedulingIgnoredDuringExecution",
      a.preferred.map (fun ps => .arr (ps.map PreferredNodes.toJson))),
    ("requiredDuringSchedulingIgnoredDuringExecution", a.required.map termsJson)]

end NodeAffinity

namespace LabelSelector

def read? (v : Document) : Option LabelSelector := do
  let fields ← v.members?
  return {
    matchExpressions := ← optional fields "matchExpressions" (list? Requirement.read?)
    matchLabels := ← optional fields "matchLabels" stringMap? }

def toJson (s : LabelSelector) : Json :=
  record [
    ("matchExpressions", s.matchExpressions.map Requirement.listJson),
    ("matchLabels", s.matchLabels.map stringMap)]

end LabelSelector

namespace PodAffinityTerm

def read? (v : Document) : Option PodAffinityTerm := do
  let fields ← v.members?
  return {
    labelSelector := ← optional fields "labelSelector" LabelSelector.read?
    matchLabelKeys := ← optional fields "matchLabelKeys" strings?
    mismatchLabelKeys := ← optional fields "mismatchLabelKeys" strings?
    namespaceSelector := ← optional fields "namespaceSelector" LabelSelector.read?
    namespaces := ← optional fields "namespaces" strings?
    topologyKey := ← lenientText fields "topologyKey" }

def toJson (t : PodAffinityTerm) : Json :=
  record [
    ("labelSelector", t.labelSelector.map LabelSelector.toJson),
    ("matchLabelKeys", t.matchLabelKeys.map strings),
    ("mismatchLabelKeys", t.mismatchLabelKeys.map strings),
    ("namespaceSelector", t.namespaceSelector.map LabelSelector.toJson),
    ("namespaces", t.namespaces.map strings),
    ("topologyKey", some (.str t.topologyKey))]

end PodAffinityTerm

namespace PreferredPods

def read? (v : Document) : Option PreferredPods := do
  let fields ← v.members?
  return {
    term := ← lenient fields "podAffinityTerm" PodAffinityTerm.read? {}
    weight := ← lenient fields "weight" int32? 0 }

def toJson (p : PreferredPods) : Json :=
  record [("podAffinityTerm", some p.term.toJson), ("weight", some (int32 p.weight))]

end PreferredPods

namespace PodAffinity

def read? (v : Document) : Option PodAffinity := do
  let fields ← v.members?
  return {
    preferred := ← optional fields "preferredDuringSchedulingIgnoredDuringExecution"
      (list? PreferredPods.read?)
    required := ← optional fields "requiredDuringSchedulingIgnoredDuringExecution"
      (list? PodAffinityTerm.read?) }

def toJson (a : PodAffinity) : Json :=
  record [
    ("preferredDuringSchedulingIgnoredDuringExecution",
      a.preferred.map (fun ps => .arr (ps.map PreferredPods.toJson))),
    ("requiredDuringSchedulingIgnoredDuringExecution",
      a.required.map (fun ts => .arr (ts.map PodAffinityTerm.toJson)))]

end PodAffinity

namespace Affinity

def read? (v : Document) : Option Affinity := do
  let fields ← v.members?
  return {
    nodeAffinity := ← optional fields "nodeAffinity" NodeAffinity.read?
    podAffinity := ← optional fields "podAffinity" PodAffinity.read?
    podAntiAffinity := ← optional fields "podAntiAffinity" PodAffinity.read? }

def toJson (a : Affinity) : Json :=
  record [
    ("nodeAffinity", a.nodeAffinity.map NodeAffinity.toJson),
    ("podAffinity", a.podAffinity.map PodAffinity.toJson),
    ("podAntiAffinity", a.podAntiAffinity.map PodAffinity.toJson)]

end Affinity

namespace ResourceClaim

def read? (v : Document) : Option ResourceClaim := do
  let fields ← v.members?
  return {
    name := ← lenientText fields "name"
    request := ← optional fields "request" string? }

def toJson (c : ResourceClaim) : Json :=
  record [("name", some (.str c.name)), ("request", c.request.map .str)]

end ResourceClaim

namespace Resources

def read? (v : Document) : Option Resources := do
  let fields ← v.members?
  return {
    claims := ← optional fields "claims" (list? ResourceClaim.read?)
    limits := ← optional fields "limits" stringMap?
    requests := ← optional fields "requests" stringMap? }

def toJson (r : Resources) : Json :=
  record [
    ("claims", r.claims.map (fun cs => .arr (cs.map ResourceClaim.toJson))),
    ("limits", r.limits.map stringMap),
    ("requests", r.requests.map stringMap)]

end Resources
end MailCapture
