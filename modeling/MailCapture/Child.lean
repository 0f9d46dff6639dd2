import MailCapture.Child.Exposure
import MailCapture.Child.Files
import MailCapture.Child.Service
import MailCapture.Child.Workload
/-!
Which children a record asks for, and what each of them has to be.
-/
namespace MailCapture.ChildKind

def isSelected (k : ChildKind) (spec : Spec) : Bool :=
  match k with
  | .deployment => spec.workload == .deployment
  | .deploymentConfig => spec.workload == .deploymentConfig
  | .service => true
  | .configMap => spec.settings.files.isSome
  | .route => spec.inlet == .route
  | .ingress => spec.inlet == .ingress

def desired (k : ChildKind) (i : Instance) : Option Manifest :=
  if k.isSelected i.spec then
    match k with
    | .deployment => some i.deployment.toManifest
    | .deploymentConfig => some i.deploymentConfig.toManifest
    | .service => some i.service.toManifest
    | .configMap => i.configMap?.map ConfigMap.toManifest
    | .route => some i.route.toManifest
    | .ingress => some i.ingress.toManifest
  else none

theorem isSome_desired (k : ChildKind) (i : Instance) :
    (k.desired i).isSome = k.isSelected i.spec := by
  unfold desired
  split
  · rename_i h
    cases k <;> simp_all [isSelected, Instance.configMap?]
  · simp_all

end MailCapture.ChildKind

namespace MailCapture.Spec

def selected (s : Spec) : List ChildKind := ChildKind.all.filter (fun k => k.isSelected s)

theorem mem_selected (s : Spec) (k : ChildKind) : k ∈ s.selected ↔ k.isSelected s = true := by
  simp [selected, ChildKind.mem_all]

end MailCapture.Spec
