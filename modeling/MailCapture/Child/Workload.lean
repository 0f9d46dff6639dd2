import MailCapture.Child.PodTemplate
import MailCapture.DeploymentConfig
/-!
The workload of an instance: a deployment or a deployment config around the same pod template.
-/
namespace MailCapture

structure Deployment where
  metadata : Metadata
  replicas : Int32
  selector : Entries String
  template : PodTemplate

namespace Deployment

def types : TypeNames := ⟨"apps/v1", "Deployment"⟩

def toManifest (d : Deployment) : Manifest :=
  ⟨some types, d.metadata, [("spec", Wire.record [
    ("replicas", some (Wire.int32 d.replicas)),
    ("selector", some (Wire.record [("matchLabels", some (Wire.stringMap d.selector))])),
    ("template", some d.template.toJson)])]⟩

end Deployment

namespace Instance

def deployment (i : Instance) : Deployment :=
  ⟨i.childMetadata, i.spec.replicas, i.selectorLabels, i.podTemplate⟩

def deploymentConfig (i : Instance) : DeploymentConfig := {
  metadata := i.childMetadata
  spec := {
    replicas := i.spec.replicas
    selector := Entries.put i.selectorLabels deploymentConfigLabel i.name
    minReadySeconds := some 30
    template := some i.podTemplate.toJson
    strategy := some {
      type := "Rolling"
      rollingParams := some {
        timeoutSeconds := some 600
        maxUnavailable := some (.number 0)
        maxSurge := some (.number 2) } }
    triggers := ["ConfigChange"] } }

end Instance
end MailCapture
