import MailCapture.Sync
/-!
What the classification of a child says of the object that was read and of the desired one.
-/
namespace MailCapture

def Manifest.isTerminating (m : Manifest) : Bool := m.metadata.deletionTimestamp.isSome

/-- The object that an observed one is replaced by: the stamped desired one under the version that
was observed. -/
def Manifest.replacementFor (desired observed : Manifest) : Manifest :=
  desired.stamp.withMetadata
    (fun m => { m with resourceVersion := observed.metadata.resourceVersion })

def ChildState.Describes (observed desired : Option Manifest) : ChildState → Prop
  | .absent d => observed = none ∧ desired = some d
  | .notSelected => observed = none ∧ desired = none
  | .inSync => ∃ o d, observed = some o ∧ desired = some d ∧ o.isTerminating = false ∧
      o.needsUpdate d = false
  | .stale replacement => ∃ o d, observed = some o ∧ desired = some d ∧
      o.isTerminating = false ∧ o.needsUpdate d = true ∧ replacement = d.replacementFor o
  | .shouldNotExist => ∃ o, observed = some o ∧ desired = none ∧ o.isTerminating = false
  | .terminating selected => ∃ o, observed = some o ∧ o.isTerminating = true ∧
      selected = desired.isSome

theorem classify_inSync {o d : Manifest} (ht : o.isTerminating = false)
    (hn : o.needsUpdate d = false) : classify (some o) (some d) = .inSync := by
  have h : classify (some o) (some d) =
      if o.isTerminating then .terminating true
      else if o.needsUpdate d then .stale (d.replacementFor o) else .inSync := rfl
  rw [h, ht, hn]
  rfl

theorem classify_terminating {o : Manifest} {desired : Option Manifest}
    (ht : o.isTerminating = true) :
    classify (some o) desired = .terminating desired.isSome := if_pos ht

theorem classify_shouldNotExist {o : Manifest} (ht : o.isTerminating = false) :
    classify (some o) none = .shouldNotExist := by
  have hf : ¬ o.isTerminating = true := by simp [ht]
  exact if_neg hf

theorem classify_describes (observed desired : Option Manifest) :
    (classify observed desired).Describes observed desired := by
  cases observed with
  | none => cases desired <;> exact ⟨rfl, rfl⟩
  | some o =>
    by_cases ht : o.isTerminating = true
    · rw [classify_terminating ht]
      exact ⟨o, rfl, ht, rfl⟩
    · have hf : o.isTerminating = false := by simpa using ht
      cases desired with
      | none =>
        rw [classify_shouldNotExist hf]
        exact ⟨o, rfl, rfl, hf⟩
      | some d =>
        have h : classify (some o) (some d) =
            if o.needsUpdate d then .stale (d.replacementFor o) else .inSync := if_neg ht
        rw [h]
        by_cases hn : o.needsUpdate d = true
        · rw [if_pos hn]
          exact ⟨o, d, rfl, rfl, hf, hn, rfl⟩
        · rw [if_neg hn]
          exact ⟨o, d, rfl, rfl, hf, by simpa using hn⟩

namespace Instance

theorem isSelected_of_adopted {i : Instance} {kind : ChildKind} {d : Option Manifest}
    (h : i.adopted kind = .ok d) : d.isSome = kind.isSelected i.spec := by
  rw [← ChildKind.isSome_desired]
  unfold adopted at h
  cases hd : kind.desired i with
  | none =>
    rw [hd] at h
    cases h
    rfl
  | some m =>
    rw [hd] at h
    cases ho : i.ownerReference? with
    | none =>
      rw [ho] at h
      cases h
    | some owner =>
      rw [ho] at h
      cases h
      rfl

end Instance
end MailCapture
