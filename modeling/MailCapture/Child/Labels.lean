import MailCapture.Instance
/-!
Labels, annotations, metadata and the owner reference that every child of a record carries.
-/
namespace MailCapture

def operatorName : String := "mailhog.operators.patrick.mx"

def nameLabel : String := "mailhoginstance_cr"
def typeLabel : String := "mailhogtype"
def typeLabelValue : String := "mailhoginstance"
def deploymentConfigLabel : String := "deploymentconfig"
def managedByLabel : String := "app.kubernetes.io/managed-by"
def createdByLabel : String := "app.kubernetes.io/created-by"
def instanceLabel : String := "app.kubernetes.io/instance"
def runtimeLabel : String := "app.openshift.io/runtime"
def defaultRuntime : String := "golang"

def passthroughLabels : List String :=
  ["app.kubernetes.io/part-of", "app", "app.kubernetes.io/component", "app.kubernetes.io/name"]

def passthroughAnnotations : List String :=
  ["app.openshift.io/connects-to", "app.openshift.io/vcs-uri"]

namespace Instance

def selectorLabels (i : Instance) : Entries String :=
  Entries.ofPairs [(typeLabel, typeLabelValue), (nameLabel, i.name)]

def labelSelector (i : Instance) : String :=
  ",".intercalate (i.selectorLabels.map (fun e => e.1 ++ "=" ++ e.2))

def ownLabel? (i : Instance) (key : String) : Option String :=
  (i.metadata.label? key).filter (fun v => !v.isEmpty)

def labels (i : Instance) : Entries String :=
  let base := Entries.put (Entries.put i.selectorLabels managedByLabel operatorName)
    createdByLabel operatorName
  let passed := passthroughLabels.foldl (fun m key =>
    match i.ownLabel? key with
    | some v => Entries.put m key v
    | none => m) base
  Entries.put
    (Entries.put passed runtimeLabel ((i.ownLabel? runtimeLabel).getD defaultRuntime))
    instanceLabel ((i.ownLabel? instanceLabel).getD i.name)

/-- The labels of the pods; those of a deployment config name it, too. -/
def podLabels (i : Instance) : Entries String :=
  match i.spec.workload with
  | .deployment => i.labels
  | .deploymentConfig => Entries.put i.labels deploymentConfigLabel i.name

def annotations (i : Instance) : Entries String :=
  Entries.ofPairs (passthroughAnnotations.filterMap (fun key =>
    ((i.metadata.annotation? key).filter (fun v => !v.isEmpty)).map (fun v => (key, v))))

def childMetadata (i : Instance) : Metadata := {
  name := some i.name
  ns := i.metadata.ns
  labels := some i.labels
  annotations := if i.annotations.isEmpty then none else some i.annotations }

/-- The controlling reference from a child to its record, once the record has a uid. -/
def ownerReference? (i : Instance) : Option OwnerReference :=
  i.metadata.uid.map (fun uid => {
    apiVersion := apiVersion
    kind := kindName
    name := i.name
    uid := uid
    controller := some true
    blockOwnerDeletion := some true })

end Instance
end MailCapture
