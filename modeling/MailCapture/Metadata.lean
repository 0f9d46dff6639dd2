import MailCapture.Time
/-!
Metadata of cluster objects.
-/
namespace MailCapture

structure OwnerReference where
  apiVersion : String := ""
  kind : String := ""
  name : String := ""
  uid : String := ""
  controller : Option Bool := none
  blockOwnerDeletion : Option Bool := none
  deriving DecidableEq, Repr

structure FieldOwnership where
  apiVersion : Option String := none
  fieldsType : Option String := none
  fieldsV1 : Option Json := none
  manager : Option String := none
  operation : Option String := none
  subresource : Option String := none
  time : Option Time := none
  deriving Repr

structure Metadata where
  annotations : Option (Entries String) := none
  creationTimestamp : Option Time := none
  deletionGracePeriodSeconds : Option Int64 := none
  deletionTimestamp : Option Time := none
  finalizers : Option (List String) := none
  generateName : Option String := none
  generation : Option Int64 := none
  labels : Option (Entries String) := none
  managedFields : Option (List FieldOwnership) := none
  name : Option String := none
  ns : Option String := none
  ownerReferences : Option (List OwnerReference) := none
  resourceVersion : Option String := none
  selfLink : Option String := none
  uid : Option String := none

open Wire

namespace OwnerReference

def read? (v : Document) : Option OwnerReference := do
  let fields ← v.members?
  return {
    apiVersion := ← lenientText fields "apiVersion"
    kind := ← lenientText fields "kind"
    name := ← lenientText fields "name"
    uid := ← lenientText fields "uid"
    controller := ← optional fields "controller" bool?
    blockOwnerDeletion := ← optional fields "blockOwnerDeletion" bool? }

def toJson (o : OwnerReference) : Json :=
  record [
    ("apiVersion", some (.str o.apiVersion)),
    ("blockOwnerDeletion", o.blockOwnerDeletion.map .bool),
    ("controller", o.controller.map .bool),
    ("kind", some (.str o.kind)),
    ("name", some (.str o.name)),
    ("uid", some (.str o.uid))]

end OwnerReference

namespace FieldOwnership

def read? (v : Document) : Option FieldOwnership := do
  let fields ← v.members?
  return {
    apiVersion := ← optional fields "apiVersion" string?
    fieldsType := ← optional fields "fieldsType" string?
    fieldsV1 := ← optional fields "fieldsV1" Document.value?
    manager := ← optional fields "manager" string?
    operation := ← optional fields "operation" string?
    subresource := ← optional fields "subresource" string?
    time := ← optional fields "time" Time.read? }

def toJson (o : FieldOwnership) : Json :=
  record [
    ("apiVersion", o.apiVersion.map .str),
    ("fieldsType", o.fieldsType.map .str),
    ("fieldsV1", o.fieldsV1),
    ("manager", o.manager.map .str),
    ("operation", o.operation.map .str),
    ("subresource", o.subresource.map .str),
    ("time", o.time.map Time.toJson)]

end FieldOwnership

namespace Metadata

def read? (v : Document) : Option Metadata := do
  let fields ← v.members?
  return {
    annotations := ← optional fields "annotations" stringMap?
    creationTimestamp := ← optional fields "creationTimestamp" Time.read?
    deletionGracePeriodSeconds := ← optional fields "deletionGracePeriodSeconds" int64?
    deletionTimestamp := ← optional fields "deletionTimestamp" Time.read?
    finalizers := ← optional fields "finalizers" strings?
    generateName := ← optional fields "generateName" string?
    generation := ← optional fields "generation" int64?
    labels := ← optional fields "labels" stringMap?
    managedFields := ← optional fields "managedFields" (list? FieldOwnership.read?)
    name := ← optional fields "name" string?
    ns := ← optional fields "namespace" string?
    ownerReferences := ← optional fields "ownerReferences" (list? OwnerReference.read?)
    resourceVersion := ← optional fields "resourceVersion" string?
    selfLink := ← optional fields "selfLink" string?
    uid := ← optional fields "uid" string? }

def toJson (m : Metadata) : Json :=
  record [
    ("annotations", m.annotations.map stringMap),
    ("creationTimestamp", m.creationTimestamp.map Time.toJson),
    ("deletionGracePeriodSeconds", m.deletionGracePeriodSeconds.map int64),
    ("deletionTimestamp", m.deletionTimestamp.map Time.toJson),
    ("finalizers", m.finalizers.map strings),
    ("generateName", m.generateName.map .str),
    ("generation", m.generation.map int64),
    ("labels", m.labels.map stringMap),
    ("managedFields", m.managedFields.map (fun fs => .arr (fs.map FieldOwnership.toJson))),
    ("name", m.name.map .str),
    ("namespace", m.ns.map .str),
    ("ownerReferences", m.ownerReferences.map (fun os => .arr (os.map OwnerReference.toJson))),
    ("resourceVersion", m.resourceVersion.map .str),
    ("selfLink", m.selfLink.map .str),
    ("uid", m.uid.map .str)]

def anyName (m : Metadata) : String := (m.name.orElse (fun _ => m.generateName)).getD ""

def label? (m : Metadata) (key : String) : Option String := m.labels.bind (Entries.get? · key)

def annotation? (m : Metadata) (key : String) : Option String :=
  m.annotations.bind (Entries.get? · key)

end Metadata
end MailCapture
