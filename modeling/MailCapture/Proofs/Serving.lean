import MailCapture.Proofs.Quiescence
import MailCapture.Proofs.Stored
/-!
What a store makes of the writes of the operator while nobody else writes: it keeps what it is
given, decorated in its own way, or calls an update invalid.
-/
namespace MailCapture

theorem ChildKind.kind_inj {a b : ChildKind} (h : a.kind = b.kind) : a = b :=
  Option.some.inj (by rw [← child?_kind a, h, child?_kind])

namespace Contents

def withObject (c : Contents) (kind : Kind) (key : Key) (found : Option Manifest) : Contents :=
  { c with object? := fun k q => if k = kind ∧ q = key then found else c.object? k q }

def withRecord (c : Contents) (key : Key) (record : Instance) : Contents :=
  { c with record? := fun q => if q = key then some record else c.record? q }

@[simp] theorem object?_withObject_self (c : Contents) (kind : Kind) (key : Key)
    (found : Option Manifest) : (c.withObject kind key found).object? kind key = found :=
  if_pos ⟨rfl, rfl⟩

theorem object?_withObject_of_ne (c : Contents) {kind k : Kind} {key q : Key}
    (found : Option Manifest) (h : k = kind → q ≠ key) :
    (c.withObject kind key found).object? k q = c.object? k q :=
  if_neg fun he => h he.1 he.2

/-- A write touches the child of one kind only. -/
theorem object?_withObject_child (c : Contents) (kind k : ChildKind) (key : Key)
    (found : Option Manifest) : (c.withObject kind.kind key found).object? k.kind key =
      if k = kind then found else c.object? k.kind key := by
  by_cases hk : k = kind
  · subst hk
    rw [if_pos rfl, object?_withObject_self]
  · rw [if_neg hk, object?_withObject_of_ne]
    exact fun he => absurd (ChildKind.kind_inj he) hk

@[simp] theorem record?_withRecord_self (c : Contents) (key : Key) (record : Instance) :
    (c.withRecord key record).record? key = some record := if_pos rfl

theorem record?_withRecord_of_ne (c : Contents) {key q : Key} (record : Instance) (h : q ≠ key) :
    (c.withRecord key record).record? q = c.record? q := if_neg h

end Contents

def Manifest.Decodes (m : Manifest) : ChildKind → Prop
  | .route => (Route.ofManifest? m).isSome = true
  | .ingress => (Ingress.ofManifest? m).isSome = true
  | _ => True

def Instance.rewritten (i : Instance) (status : Status) (version : Option String)
    (managed : Option (List FieldOwnership)) : Instance :=
  ⟨{ i.metadata with resourceVersion := version, managedFields := managed }, i.spec, some status⟩

namespace Surroundings
variable {σ : Type}

/-- Whether a write of an object is answered with success and leads to an object that a server may
store for it, and to no other change. -/
def Stores (w : Surroundings σ) (s : σ) (c : StoreCall) (kind : ChildKind) (key : Key)
    (m : Manifest) : Prop :=
  ∃ answer t stored, w.reply c s = (.ok answer, t) ∧ m.StoredAs stored ∧ stored.Decodes kind ∧
    w.contents t = (w.contents s).withObject kind.kind key (some stored)

structure Serves (w : Surroundings σ) (i : Instance) : Prop extends w.IsSequential where
  create : ∀ s (kind : ChildKind) d, i.adopted kind = .ok (some d) →
    (w.contents s).object? kind.kind i.key = none →
    w.Stores s (.create kind.kind d.stamp) kind i.key d.stamp
  /-- an update of what is stored succeeds or is invalid -/
  replace : ∀ s (kind : ChildKind) d o, i.adopted kind = .ok (some d) →
    (w.contents s).object? kind.kind i.key = some o →
    w.Stores s (.replace kind.kind (d.replacementFor o)) kind i.key (d.replacementFor o) ∨
      ∃ why, (w.reply (.replace kind.kind (d.replacementFor o)) s).1 = .error (.invalid why)
  /-- what is deleted is gone at once -/
  remove : ∀ s (kind : ChildKind) o, (w.contents s).object? kind.kind i.key = some o →
    ∃ t, w.reply (.delete kind.kind i.key graceSeconds) s = (.ok (), t) ∧
      w.contents t = (w.contents s).withObject kind.kind i.key none
  replaceStatus : ∀ s record status, (w.contents s).record? i.key = some record →
    record.key = i.key → ∃ answer t version managed,
      w.reply (.replaceStatus { record with status := some status }) s = (.ok answer, t) ∧
      w.contents t = (w.contents s).withRecord i.key (record.rewritten status version managed)

end Surroundings
end MailCapture
