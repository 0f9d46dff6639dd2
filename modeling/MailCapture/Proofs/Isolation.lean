import MailCapture.Proofs.Sequential
import MailCapture.Proofs.SingleWrite
import MailCapture.Proofs.Written
/-!
A pass keeps to its record.  Whatever it is answered, as long as a record that is read is one of the
key that was asked for: each call is about that key, or lists pods of its namespace, and after a
write, or a failure that it has no use for, a pass makes no call any more and ends in a way that was
settled before the answer.
-/
namespace MailCapture

structure Metadata.IsUnder (m : Metadata) (key : Key) : Prop where
  name : m.name = some key.name
  ns : m.ns = some key.ns

theorem Instance.key_of_isUnder {i : Instance} {key : Key} (h : i.metadata.IsUnder key) :
    i.key = key := by
  rw [Instance.key, Instance.name, Metadata.anyName, h.name, h.ns]
  rfl

theorem ChildKind.kind_ne_pod (kind : ChildKind) : kind.kind ≠ .pod := by cases kind <;> decide

namespace StoreCall

/-- Whether a call is about what is stored under a key.  Pods are only listed. -/
def IsAt (key : Key) : StoreCall → Prop
  | .get _ q => q = key
  | .create kind m => kind ≠ .pod ∧ m.metadata.IsUnder key
  | .replace kind m => kind ≠ .pod ∧ m.metadata.IsUnder key
  | .delete kind q _ => kind ≠ .pod ∧ q = key
  | .list kind ns _ => kind = .pod ∧ ns = key.ns
  | .getInstance q => q = key
  | .replaceStatus record => record.metadata.IsUnder key

def Shows (key : Key) : (c : StoreCall) → Query.Answer (.call c) → Prop
  | .getInstance _, a => ∀ i, a = .ok (some i) → i.metadata.IsUnder key
  | _, _ => True

def Expects (c : StoreCall) (f : Failure) : Prop := Turn.isExpected ⟨.call c, .error f⟩ = true

end StoreCall

namespace Prog
variable {α β : Type}

def Concludes (b : α) : Prog Query Query.Answer α → Prop
  | .done a => a = b
  | .ask (.emit _) next => (next ()).Concludes b
  | .ask (.call _) _ => False

/-- Whether a program makes only calls at a key, and concludes after a write that did not fail in a
way that it expects, with a value that does not depend on the answer. -/
def Confined (key : Key) (P : α → Prop) : Prog Query Query.Answer α → Prop
  | .done _ => True
  | .ask (.emit _) next => (next ()).Confined key P
  | .ask (.call c) next => c.IsAt key ∧
      ((Query.call c).Looks → ∀ a, c.Shows key a → (next a).Confined key P) ∧
      (¬ (Query.call c).Looks →
        (∃ b, P b ∧ ∀ a, (next (.ok a)).Concludes b) ∧
        ∀ f, (c.Expects f → (next (.error f)).Confined key P) ∧
          (¬ c.Expects f → ∃ b, P b ∧ (next (.error f)).Concludes b))

variable {key : Key} {P : α → Prop} {R : β → Prop}

theorem Concludes.bind {p : Prog Query Query.Answer α} {f : α → Prog Query Query.Answer β} {a : α}
    {b : β} (hp : p.Concludes a) (hf : (f a).Concludes b) : (p.bind f).Concludes b := by
  induction p with
  | done x =>
    cases hp
    exact hf
  | ask q next ih =>
    cases q with
    | emit e => exact ih () hp
    | call c => exact hp.elim

theorem Confined.bind {p : Prog Query Query.Answer α} {f : α → Prog Query Query.Answer β}
    (hp : p.Confined key P) (hf : ∀ a, (f a).Confined key R)
    (hend : ∀ a, P a → ∃ b, R b ∧ (f a).Concludes b) : (p.bind f).Confined key R := by
  have hconcludes {p : Prog Query Query.Answer α} (h : ∃ a, P a ∧ p.Concludes a) :
      ∃ b, R b ∧ (p.bind f).Concludes b := by
    obtain ⟨a, ha, hpa⟩ := h
    obtain ⟨b, hb, hfb⟩ := hend a ha
    exact ⟨b, hb, hpa.bind hfb⟩
  induction p with
  | done a => exact hf a
  | ask q next ih =>
    cases q with
    | emit e => exact ih () hp
    | call c =>
      obtain ⟨hat, hlooks, hwrites⟩ := hp
      refine ⟨hat, fun h a ha => ih a (hlooks h a ha), fun h => ?_⟩
      obtain ⟨⟨a, ha, hdone⟩, hfailed⟩ := hwrites h
      obtain ⟨b, hb, hfb⟩ := hend a ha
      exact ⟨⟨b, hb, fun x => (hdone x).bind hfb⟩, fun e =>
        ⟨fun he => ih _ ((hfailed e).1 he), fun he => hconcludes ((hfailed e).2 he)⟩⟩

/-- What is run to a conclusion makes no call. -/
theorem Concludes.not_call {p : Prog Query Query.Answer α} {a b : α}
    {turns : List (Turn Query.Answer)} (hp : p.Concludes b) (hr : p.Runs turns a) (c : StoreCall)
    (x : Query.Answer (.call c)) : (⟨.call c, x⟩ : Turn Query.Answer) ∉ turns := by
  induction p generalizing turns with
  | done value =>
    obtain ⟨rfl, _⟩ := hr
    simp
  | ask q next ih =>
    obtain ⟨y, rest, rfl, hrest⟩ := hr
    cases q with
    | emit e =>
      intro hmem
      cases hmem with
      | tail _ hmem => exact ih () hp hrest hmem
    | call c => exact hp.elim

theorem Confined.isAt {p : Prog Query Query.Answer α} {a : α} {turns : List (Turn Query.Answer)}
    (hp : p.Confined key P) (hr : p.Runs turns a)
    (hshows : ∀ i, (⟨.call (.getInstance key), .ok (some i)⟩ : Turn Query.Answer) ∈ turns →
      i.metadata.IsUnder key) (c : StoreCall) (x : Query.Answer (.call c))
    (hmem : (⟨.call c, x⟩ : Turn Query.Answer) ∈ turns) : c.IsAt key := by
  induction p generalizing turns with
  | done value =>
    obtain ⟨rfl, _⟩ := hr
    cases hmem
  | ask q next ih =>
    obtain ⟨y, rest, rfl, hrest⟩ := hr
    have hlater (i) (h : (⟨.call (.getInstance key), .ok (some i)⟩ : Turn Query.Answer) ∈ rest) :
        i.metadata.IsUnder key := hshows i (List.mem_cons_of_mem _ h)
    cases q with
    | emit e =>
      cases hmem with
      | tail _ hmem => exact ih () hp hrest hlater hmem
    | call c' =>
      obtain ⟨hat, hlooks, hwrites⟩ := hp
      cases hmem with
      | head => exact hat
      | tail _ hmem =>
        by_cases hl : (Query.call c').Looks
        · refine ih y (hlooks hl y ?_) hrest hlater hmem
          cases c' with
          | getInstance q =>
            cases hat
            rintro i rfl
            exact hshows i List.mem_cons_self
          | _ => trivial
        · obtain ⟨⟨b, _, hdone⟩, hfailed⟩ := hwrites hl
          cases y with
          | ok stored => exact absurd hmem ((hdone stored).not_call hrest c x)
          | error f =>
            by_cases hf : c'.Expects f
            · exact ih _ ((hfailed f).1 hf) hrest hlater hmem
            · obtain ⟨b, _, hconcludes⟩ := (hfailed f).2 hf
              exact absurd hmem (hconcludes.not_call hrest c x)

end Prog

namespace Action
variable {α β : Type} {key : Key} {Q : α → Prop} {R : β → Prop}

def Concludes (a : α) (x : Action α) : Prop := x.run.Concludes (.ok a)

def Confined (key : Key) (Q : α → Prop) (x : Action α) : Prop :=
  x.run.Confined key (fun r => ∀ a, r = .ok a → Q a)

theorem concludes_pure (a : α) : (pure a : Action α).Concludes a := rfl

theorem concludes_emit (e : Effect) : (emit e).Concludes () := rfl

theorem Concludes.bind {x : Action α} {f : α → Action β} {a : α} {b : β} (hx : x.Concludes a)
    (hf : (f a).Concludes b) : (x >>= f).Concludes b := by
  unfold Concludes
  rw [run_bind]
  exact Prog.Concludes.bind hx hf

theorem confined_pure (a : α) : (pure a : Action α).Confined key Q := trivial

theorem confined_fail (f : Failure) : (fail f : Action α).Confined key Q := trivial

theorem confined_emit (e : Effect) {Q : Unit → Prop} : (emit e).Confined key Q := trivial

theorem Confined.bind {x : Action α} {f : α → Action β} (hx : x.Confined key Q)
    (hf : ∀ a, (f a).Confined key R) (hend : ∀ a, Q a → ∃ b, R b ∧ (f a).Concludes b) :
    (x >>= f).Confined key R := by
  unfold Confined
  rw [run_bind]
  refine Prog.Confined.bind hx (fun r => ?_) fun r hr => ?_
  · cases r with
    | ok a => exact hf a
    | error e => trivial
  · cases r with
    | ok a =>
      obtain ⟨b, hb, hconcludes⟩ := hend a (hr a rfl)
      exact ⟨.ok b, fun _ he => Except.ok.inj he ▸ hb, hconcludes⟩
    | error e => exact ⟨.error e, by simp, rfl⟩

/-- What writes nothing may be followed by anything. -/
theorem Confined.bind_looking {x : Action α} {f : α → Action β}
    (hx : x.Confined key (fun _ => False)) (hf : ∀ a, (f a).Confined key R) :
    (x >>= f).Confined key R := hx.bind hf fun _ h => h.elim

theorem confined_look {c : StoreCall} {f : c.Answer → Action β} (hc : c.IsAt key)
    (hlooks : (Query.call c).Looks) (hf : ∀ a, c.Shows key (.ok a) → (f a).Confined key R) :
    (call c >>= f).Confined key R := by
  unfold Confined
  rw [run_bind]
  refine ⟨hc, fun _ a ha => ?_, fun h => absurd hlooks h⟩
  cases a with
  | ok a => exact hf a ha
  | error e => trivial

/-- A write whose failures end the action, the expected ones apart. -/
theorem confined_write {c : StoreCall} {f : Except Failure c.Answer → Action β}
    (hc : c.IsAt key) (hwrites : ¬ (Query.call c).Looks)
    (hdone : ∃ b, R b ∧ ∀ a, (f (.ok a)).Concludes b)
    (hexpected : ∀ e, c.Expects e → (f (.error e)).Confined key R)
    (hfailed : ∀ e, ¬ c.Expects e → f (.error e) = fail e) :
    (attempt c >>= f).Confined key R := by
  unfold Confined
  rw [run_bind]
  refine ⟨hc, fun h => absurd h hwrites, fun _ => ⟨?_, fun e => ⟨hexpected e, fun he => ?_⟩⟩⟩
  · obtain ⟨b, hb, hconcludes⟩ := hdone
    exact ⟨.ok b, fun _ hok => Except.ok.inj hok ▸ hb, hconcludes⟩
  · refine ⟨.error e, by simp, ?_⟩
    show (f (.error e)).run.Concludes (.error e)
    rw [hfailed e he]
    rfl

/-- A write whose failures all end the action. -/
theorem confined_write_call {c : StoreCall} {f : c.Answer → Action β} (hc : c.IsAt key)
    (hwrites : ¬ (Query.call c).Looks) (hdone : ∃ b, R b ∧ ∀ a, (f a).Concludes b) :
    (call c >>= f).Confined key R := by
  unfold Confined
  rw [run_bind]
  refine ⟨hc, fun h => absurd h hwrites, fun _ => ⟨?_, fun e =>
    ⟨fun _ => trivial, fun _ => ⟨.error e, by simp, rfl⟩⟩⟩⟩
  obtain ⟨b, hb, hconcludes⟩ := hdone
  exact ⟨.ok b, fun _ hok => Except.ok.inj hok ▸ hb, hconcludes⟩

end Action

namespace Instance
variable {i : Instance} {kind : ChildKind} {d : Manifest} {key : Key}

theorem isUnder_adopted (hi : i.metadata.IsUnder key) (hd : i.adopted kind = .ok (some d)) :
    d.metadata.IsUnder key := by
  have hkey : i.key.name = key.name := congrArg Key.name (key_of_isUnder hi)
  obtain ⟨owner, hm⟩ := metadata_adopted hd
  refine ⟨?_, ?_⟩
  · rw [hm, ← hkey]
    rfl
  · rw [hm]
    exact hi.ns

theorem report_concludes (i : Instance) (kind : ChildKind) (verb : Verb) (reason : String) :
    (i.report kind verb reason).Concludes () := rfl

/-! ### The functions of a pass -/

theorem updateChild_confined {m : Manifest} (hi : i.key = key) (hm : m.metadata.IsUnder key) :
    (i.updateChild kind m).Confined key (fun outcome => outcome.endsPass = true) := by
  unfold updateChild
  refine Action.confined_write ⟨kind.kind_ne_pod, hm⟩ id ?_ (fun e he => ?_) fun e he => ?_
  · exact ⟨.updated, rfl, fun a => (i.report_concludes kind _ _).bind (Action.concludes_pure _)⟩
  · cases e with
    | invalid why =>
      refine Action.confined_write ⟨kind.kind_ne_pod, hi⟩ id ?_ (fun f hf => ?_) fun f hf => ?_
      · exact ⟨.recreated, rfl,
          fun a => (i.report_concludes kind _ _).bind (Action.concludes_pure _)⟩
      · cases f with
        | notFound what => exact Action.confined_pure _
        | _ => cases hf
      · cases f with
        | notFound what => exact absurd rfl hf
        | _ => rfl
    | _ => cases he
  · cases e with
    | invalid why => exact absurd rfl he
    | _ => rfl

theorem createChild_confined (hi : i.metadata.IsUnder key) (hd : i.adopted kind = .ok (some d)) :
    (i.createChild kind d).Confined key (fun outcome => outcome.endsPass = true) := by
  have hkey := key_of_isUnder hi
  obtain ⟨hname, hns⟩ := isUnder_adopted hi hd
  unfold createChild
  refine Action.confined_write ⟨kind.kind_ne_pod, hname, hns⟩ id ?_ (fun e he => ?_) fun e he => ?_
  · exact ⟨.created, rfl, fun a => (i.report_concludes kind _ _).bind (Action.concludes_pure _)⟩
  · cases e with
    | alreadyExists what =>
      refine Action.confined_look hkey trivial fun found _ => ?_
      cases found with
      | none => exact Action.confined_fail _
      | some o =>
        have hc := classify_describes (some o) (some d.stamp)
        dsimp only
        cases hclass : classify (some o) (some d.stamp) with
        | stale replacement =>
          rw [hclass] at hc
          obtain ⟨_, _, ⟨⟩, ⟨⟩, _, _, rfl⟩ := hc
          exact updateChild_confined hkey ⟨hname, hns⟩
        | _ => exact Action.confined_pure _
    | _ => cases he
  · cases e with
    | alreadyExists what => exact absurd rfl he
    | _ => rfl

theorem deleteChild_confined (hi : i.key = key) :
    (i.deleteChild kind).Confined key (fun outcome => outcome.endsPass = true) := by
  unfold deleteChild
  refine Action.confined_write ⟨kind.kind_ne_pod, hi⟩ id ?_ (fun e he => ?_) fun e he => ?_
  · exact ⟨.deleted, rfl, fun a => (i.report_concludes kind _ _).bind (Action.concludes_pure _)⟩
  · cases e with
    | notFound what => exact Action.confined_pure _
    | _ => cases he
  · cases e with
    | notFound what => exact absurd rfl he
    | _ => rfl

theorem syncChild_confined (hi : i.metadata.IsUnder key) (unserved : List ChildKind) :
    (i.syncChild unserved kind).Confined key (fun outcome => outcome.endsPass = true) := by
  have hkey := key_of_isUnder hi
  unfold syncChild
  split
  · exact Action.confined_pure _
  · cases hd : i.adopted kind with
    | error f => exact Action.confined_fail f
    | ok desired =>
      show (Action.call (.get kind.kind i.key) >>= _ : Action SyncOutcome).Confined key _
      refine Action.confined_look hkey trivial fun observed _ => ?_
      have hc := classify_describes observed desired
      cases hclass : classify observed desired with
      | absent d =>
        rw [hclass] at hc
        obtain ⟨_, rfl⟩ := hc
        exact createChild_confined hi hd
      | stale replacement =>
        rw [hclass] at hc
        obtain ⟨o, d, _, rfl, _, _, rfl⟩ := hc
        obtain ⟨hname, hns⟩ := isUnder_adopted hi hd
        exact updateChild_confined hkey ⟨hname, hns⟩
      | shouldNotExist => exact deleteChild_confined hkey
      | _ => exact Action.confined_pure _

/-- The first step that writes ends the steps of children. -/
theorem syncChildren_confined (hi : i.metadata.IsUnder key) (unserved kinds : List ChildKind) :
    (i.syncChildren unserved kinds).Confined key (fun ended => ended = true) := by
  induction kinds with
  | nil => exact Action.confined_pure _
  | cons kind rest ih =>
    unfold syncChildren
    refine (syncChild_confined hi unserved).bind (fun outcome => ?_) fun outcome hends => ?_
    · split
      · exact Action.confined_pure _
      · exact ih
    · rw [if_pos hends]
      exact ⟨true, rfl, Action.concludes_pure _⟩

theorem decoded_confined {α : Type} {Q : α → Prop} (value : Option α) :
    (decoded value).Confined key Q := by
  cases value with
  | none => exact Action.confined_fail _
  | some a => exact Action.confined_pure a

theorem exposureUrl_confined (hi : i.key = key) :
    i.exposureUrl.Confined key (fun _ => False) := by
  have hread (kind : Kind) (next : Option Manifest → Action (Option String))
      (hnext : ∀ found, (next found).Confined key (fun _ => False)) :
      (Action.call (.get kind i.key) >>= next).Confined key (fun _ => False) :=
    Action.confined_look hi trivial fun found _ => hnext found
  unfold exposureUrl
  split
  · exact Action.confined_pure _
  all_goals
    refine hread _ _ fun found => ?_
    cases found with
    | none => exact Action.confined_pure _
    | some m => exact (decoded_confined _).bind_looking fun _ => Action.confined_pure _

theorem computeStatus_confined (hi : i.key = key) :
    i.computeStatus.Confined key (fun _ => False) := by
  unfold computeStatus
  refine Action.confined_look ⟨rfl, congrArg Key.ns hi⟩ rfl fun found _ => ?_
  refine (decoded_confined _).bind_looking fun pods => ?_
  exact (exposureUrl_confined hi).bind_looking fun _ => Action.confined_pure _

/-- The record that is written is the one that was read last, under the same key. -/
theorem writeStatus_confined (hi : i.key = key) (status : Status) :
    (i.writeStatus status).Confined key (fun outcome => outcome = .written) := by
  unfold writeStatus
  split
  · exact Action.confined_pure _
  · refine Action.confined_look hi trivial fun latest hlatest => ?_
    cases latest with
    | none => exact Action.confined_pure _
    | some record =>
      have hrecord : record.metadata.IsUnder key := hlatest record rfl
      refine Action.confined_write_call hrecord id ⟨.written, rfl, fun _ => ?_⟩
      exact (Action.concludes_emit _).bind (Action.concludes_pure _)

theorem ensureStatus_confined (hi : i.key = key) :
    i.ensureStatus.Confined key (fun outcome => outcome = .written) := by
  unfold ensureStatus
  refine (computeStatus_confined hi).bind_looking fun status => ?_
  exact (Action.confined_emit _).bind_looking fun _ => writeStatus_confined hi status

theorem reject_confined (hi : i.key = key) (violation : Violation) :
    (i.reject violation).Confined key (fun _ => True) := by
  unfold reject
  refine (writeStatus_confined hi _).bind (fun outcome => ?_) fun outcome hwritten => ?_
  · dsimp only
    split
    · exact (Action.confined_emit _).bind_looking fun _ => Action.confined_pure _
    · exact Action.confined_pure _
  · rw [if_pos hwritten]
    exact ⟨_, trivial, (Action.concludes_emit _).bind (Action.concludes_pure _)⟩

theorem pass_confined (hi : i.metadata.IsUnder key) (unserved : List ChildKind) :
    (i.pass unserved).Confined key (fun _ => True) := by
  have hkey := key_of_isUnder hi
  unfold pass
  cases i.spec.violation? with
  | some violation => exact reject_confined hkey violation
  | none =>
    refine (syncChildren_confined hi unserved _).bind (fun ended => ?_) fun ended hended => ?_
    · split
      · exact Action.confined_pure _
      · refine (ensureStatus_confined hkey).bind (fun outcome => ?_) fun outcome hwritten => ?_
        · cases outcome <;> exact Action.confined_pure _
        · rw [hwritten]
          exact ⟨_, trivial, Action.concludes_pure _⟩
    · rw [if_pos hended]
      exact ⟨_, trivial, Action.concludes_pure _⟩

end Instance

namespace Context

/-- A pass keeps to the key that it is asked for. -/
theorem pass_confined (ctx : Context) (key : Key) :
    (ctx.pass key).Confined key (fun _ => True) := by
  unfold pass
  refine Action.confined_look rfl trivial fun found hfound => ?_
  cases found with
  | none => exact Action.confined_pure _
  | some i => exact Instance.pass_confined (hfound i rfl) ctx.unserved

end Context
end MailCapture
