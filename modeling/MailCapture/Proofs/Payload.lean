import MailCapture.Proofs.Condensed
import MailCapture.Proofs.Departing
import MailCapture.Proofs.Overwriting
import MailCapture.Proofs.Readable
import MailCapture.Proofs.Reading
/-!
What a pass sends.  Whichever way an object takes to be created or replaced, it is a child of the
record that is stamped last: it has the name of the record, its record as only owner and a stamp
that tells of the object as it is sent.  A record without a uid sends nothing.
-/
namespace MailCapture

namespace Instance

/-- Whether an object is a child as a record sends it: under the name and namespace of the record,
owned by it alone and stamped with the text of its own comparable part.  The text is read back as
that part with its fields in order, which is what they are in from the start where the spec of the
record has been read (`Spec.ordered_of_read?`). -/
structure Payload (i : Instance) (m : Manifest) : Prop where
  name : m.metadata.name = some i.name
  ns : m.metadata.ns = i.metadata.ns
  owner : ∃ uid, i.metadata.uid = some uid ∧ m.metadata.ownerReferences = some [{
    apiVersion := apiVersion
    kind := kindName
    name := i.name
    uid := uid
    controller := some true
    blockOwnerDeletion := some true }]
  stamp : m.metadata.annotation? lastAppliedAnnotation = some m.comparable.render
  readable : Json.parse? m.comparable.render = some m.comparable.inOrder
  faithful : i.spec.toJson.Ordered → Json.parse? m.comparable.render = some m.comparable

variable {i : Instance} {kind : ChildKind} {d : Manifest}

theorem payload_stamp (hd : i.adopted kind = .ok (some d)) : i.Payload d.stamp := by
  obtain ⟨_, hm⟩ := metadata_adopted hd
  obtain ⟨m, owner, _, ho, hown⟩ := exists_of_adopted hd
  have hname : d.metadata.name = some i.name := by rw [hm]; rfl
  have hns : d.metadata.ns = i.metadata.ns := by rw [hm]; rfl
  have howners : d.metadata.ownerReferences = some [owner] := by rw [hown]; rfl
  obtain ⟨uid, hu, rfl⟩ := Option.map_eq_some_iff.1 ho
  have hread := parse?_adopted hd
  refine ⟨hname, hns, ⟨uid, hu, howners⟩, ?_, ?_, fun hs => ?_⟩ <;> rw [Manifest.comparable_stamp]
  · exact Entries.get?_put_self _ _ _
  · exact hread
  · rwa [Json.inOrder_self _ (ordered_adopted hs hd)] at hread

/-- The version that an update is based on is no part of what is stamped. -/
theorem payload_replacementFor (hd : i.adopted kind = .ok (some d)) (observed : Manifest) :
    i.Payload (d.replacementFor observed) := by
  have hsame : (d.replacementFor observed).comparable = d.stamp.comparable := by
    rw [Manifest.comparable_replacementFor, Manifest.comparable_stamp]
  obtain ⟨hname, hns, howner, hstamp, hreadable, hfaithful⟩ := payload_stamp hd
  exact ⟨hname, hns, howner, hsame ▸ hstamp, hsame ▸ hreadable, hsame ▸ hfaithful⟩

/-! ### Records without a uid -/

theorem adopted_of_no_uid (hu : i.metadata.uid = none) (hsel : kind.isSelected i.spec = true) :
    i.adopted kind = .error (.missingField "metadata.uid") := by
  have hsome := ChildKind.isSome_desired kind i
  have hnone : i.ownerReference? = none := congrArg (Option.map _) hu
  unfold adopted
  cases hd : kind.desired i with
  | none =>
    rw [hd, hsel] at hsome
    cases hsome
  | some m =>
    rw [hnone]

/-- A record without a uid fails at each child that it asks for, before any call. -/
theorem syncChild_of_no_uid (hu : i.metadata.uid = none) {unserved : List ChildKind}
    (hk : kind ∉ unserved) (hsel : kind.isSelected i.spec = true) :
    i.syncChild unserved kind = Action.fail (.missingField "metadata.uid") := by
  unfold syncChild
  rw [if_neg (by simpa using hk), adopted_of_no_uid hu hsel]
  rfl

/-- So the steps of its children end there at the latest. -/
theorem syncChildren_of_no_uid (hu : i.metadata.uid = none) {unserved kinds : List ChildKind}
    (hk : kind ∉ unserved) (hsel : kind.isSelected i.spec = true) (hmem : kind ∈ kinds) :
    (i.syncChildren unserved kinds).Ensures (fun turns r => r ≠ .ok false ∧
      ∀ c a, (⟨.call c, a⟩ : Turn) ∈ turns → c.kind? ≠ some kind.kind) := by
  induction kinds with
  | nil => cases hmem
  | cons first rest ih =>
    unfold syncChildren
    by_cases hfirst : first = kind
    · subst hfirst
      rw [syncChild_of_no_uid hu hk hsel]
      exact (Action.ensures_fail_bind _ _).2 ⟨by simp, by simp⟩
    · have hother : (i.syncChild unserved first).Ensures (fun turns _ =>
          ∀ c a, (⟨.call c, a⟩ : Turn) ∈ turns → c.kind? ≠ some kind.kind) := by
        intro turns r hr c a hc
        have hcall := ((i.syncChild_calls first unserved).of_runs hr hc).2.kind?
        rw [hcall]
        exact fun he => hfirst (ChildKind.kind_inj (Option.some.inj he))
      refine hother.bind (fun turns f h => ⟨by simp, h⟩) fun turns outcome h => ?_
      split
      · rw [Action.ensures_pure, List.append_nil]
        exact ⟨by simp, h⟩
      · have hrest := ih ((List.mem_cons.1 hmem).resolve_left (Ne.symm hfirst))
        refine hrest.mono fun more r hmore => ⟨hmore.1, fun c a hc => ?_⟩
        cases List.mem_append.1 hc with
        | inl hc => exact h c a hc
        | inr hc => exact hmore.2 c a hc

theorem pass_of_no_uid (hu : i.metadata.uid = none) {unserved : List ChildKind}
    (hk : kind ∉ unserved) (hsel : kind.isSelected i.spec = true) :
    (i.pass unserved).Ensures
      (fun turns _ => ∀ c a, (⟨.call c, a⟩ : Turn) ∈ turns → c.kind? ≠ some kind.kind) := by
  cases hv : i.spec.violation? with
  | some violation =>
    rw [pass_rejected hv]
    intro turns r hr c a hc
    rw [((i.reject_calls violation).of_runs hr hc).kind?]
    simp
  | none =>
    rw [pass_admitted hv]
    unfold passFrom
    refine (syncChildren_of_no_uid hu hk hsel kind.mem_all).bind (fun _ _ h => h.2)
      fun turns ended h => ?_
    cases ended with
    | true =>
      rw [if_pos rfl, Action.ensures_pure, List.append_nil]
      exact h.2
    | false => exact absurd rfl h.1

end Instance

namespace Context

/-- What a pass over a record sends is a payload of it, without a version where it creates, and with
the version that was read last of its kind where it replaces.  Over a record without a uid it sends
nothing: each child that is asked for and served fails before any call for its kind. -/
theorem pass_payloads {ctx : Context} {key : Key} {i : Instance} {turns : List Turn}
    {r : Except Failure PassOutcome}
    (h : (ctx.pass key).run.Runs (⟨.call (.getInstance key), .ok (some i)⟩ :: turns) r) :
    (∀ kind m a, (⟨.call (.create kind m), a⟩ : Turn) ∈ turns →
      i.Payload m ∧ m.metadata.resourceVersion = none) ∧
    (∀ kind m a earlier later, turns = earlier ++ (⟨.call (.replace kind m), a⟩ : Turn) :: later →
      i.Payload m ∧ ∃ o, LastGet kind i.key o earlier ∧
        m.metadata.resourceVersion = o.metadata.resourceVersion) ∧
    (i.metadata.uid = none →
      (∀ kind m a, (⟨.call (.create kind m), a⟩ : Turn) ∉ turns) ∧
      (∀ kind m a, (⟨.call (.replace kind m), a⟩ : Turn) ∉ turns) ∧
      ∀ kind : ChildKind, kind ∉ ctx.unserved → kind.isSelected i.spec = true →
        i.syncChild ctx.unserved kind = Action.fail (.missingField "metadata.uid") ∧
        ∀ c a, (⟨.call c, a⟩ : Turn) ∈ turns → c.kind? ≠ some kind.kind) := by
  have hpass : (i.pass ctx.unserved).run.Runs turns r := (ctx.runs_pass_of_found key i turns r).1 h
  have hcreate (kind m a) (hmem : (⟨.call (.create kind m), a⟩ : Turn) ∈ turns) :
      i.Payload m ∧ m.metadata.resourceVersion = none := by
    cases (i.pass_calls ctx.unserved).of_runs hpass hmem with
    | child k _ hcall =>
      cases hcall with
      | create d hd =>
        obtain ⟨owner, hm⟩ := Instance.metadata_adopted hd
        exact ⟨Instance.payload_stamp hd, congrArg Metadata.resourceVersion hm⟩
    | status hcall =>
      cases hcall with
      | record hcall => cases hcall
  have hreplace (kind m a earlier later)
      (hturns : turns = earlier ++ (⟨.call (.replace kind m), a⟩ : Turn) :: later) :
      i.Payload m ∧ ∃ o, LastGet kind i.key o earlier ∧
        m.metadata.resourceVersion = o.metadata.resourceVersion := by
    have hover : i.Overwrites [] turns r := Instance.pass_overwrites ctx.unserved turns r hpass
    rw [hturns] at hover
    obtain ⟨child, o, d, _, hlast, _, hd, _, rfl⟩ := hover.replace.1
    exact ⟨Instance.payload_replacementFor hd o, o, hlast, rfl⟩
  refine ⟨hcreate, hreplace, fun hu => ⟨fun kind m a hmem => ?_, fun kind m a hmem => ?_,
    fun kind hk hsel => ⟨Instance.syncChild_of_no_uid hu hk hsel, ?_⟩⟩⟩
  · obtain ⟨uid, huid, _⟩ := (hcreate kind m a hmem).1.owner
    rw [hu] at huid
    cases huid
  · obtain ⟨earlier, later, hturns⟩ := List.append_of_mem hmem
    obtain ⟨uid, huid, _⟩ := (hreplace kind m a earlier later hturns).1.owner
    rw [hu] at huid
    cases huid
  · exact Instance.pass_of_no_uid hu hk hsel turns r hpass

/-- Another writer creates the deployment first: it is created without a version and then replaced
under the version of the other one.  A record without a uid fails at its deployment. -/
theorem pass_payloads_lostCreate :
    let record : Instance :=
      ⟨{ name := some "mh", ns := some "mail", uid := some "u1" }, {}, none⟩
    let o : Manifest := ⟨none, { resourceVersion := some "7" }, []⟩
    let d := record.deployment.toManifest.adoptedBy
      ⟨Instance.apiVersion, Instance.kindName, record.name, "u1", some true, some true⟩
    let race : List Turn := [
      ⟨.call (.get .deployment record.key), .ok none⟩,
      ⟨.call (.create .deployment d.stamp), .error (.alreadyExists "")⟩,
      ⟨.call (.get .deployment record.key), .ok (some o)⟩]
    let turns := race ++ [⟨.call (.replace .deployment (d.replacementFor o)), .error .serialization⟩]
    let bare : Instance := ⟨{ name := some "mh", ns := some "mail" }, {}, none⟩
    (Context.pass {} record.key).run.Runs
      (⟨.call (.getInstance record.key), .ok (some record)⟩ :: turns) (.error .serialization) ∧
      (record.Payload d.stamp ∧ d.stamp.metadata.resourceVersion = none) ∧
      Json.parse? d.stamp.comparable.render = some d.stamp.comparable ∧
      (record.Payload (d.replacementFor o) ∧ ∃ o', LastGet .deployment record.key o' race ∧
        (d.replacementFor o).metadata.resourceVersion = o'.metadata.resourceVersion) ∧
      (Context.pass {} bare.key).run.Runs [⟨.call (.getInstance bare.key), .ok (some bare)⟩]
        (.error (.missingField "metadata.uid")) ∧
      bare.syncChild [] .deployment = Action.fail (.missingField "metadata.uid") := by
  intro record o d race turns bare
  have hdrift : o.needsUpdate d.stamp = true := by decide +kernel
  have hclass : classify (some o) (some d.stamp) = .stale (d.replacementFor o) := by
    show (if o.needsUpdate d.stamp then ChildState.stale _ else .inSync) = _
    rw [if_pos hdrift, Manifest.stamp_stamp]
    rfl
  have hrun : (Context.pass {} record.key).run.Runs
      (⟨.call (.getInstance record.key), .ok (some record)⟩ :: turns) (.error .serialization) := by
    refine ⟨_, _, rfl, _, _, rfl, _, _, rfl, _, _, rfl, ?_⟩
    simp only [d] at hclass
    simp only [Prog.bind, ExceptT.bindCont, hclass]
    exact ⟨_, _, rfl, rfl, rfl⟩
  have hbare : (Context.pass {} bare.key).run.Runs
      [⟨.call (.getInstance bare.key), .ok (some bare)⟩]
      (.error (.missingField "metadata.uid")) := ⟨_, _, rfl, rfl, rfl⟩
  have hsent : (⟨.call (.create .deployment d.stamp), .error (.alreadyExists "")⟩ : Turn) ∈ turns :=
    List.mem_cons_of_mem _ List.mem_cons_self
  have hordered : record.spec.toJson.Ordered :=
    Spec.named_toJson (fun r hr => by cases hr) (fun a ha => by cases ha)
  obtain ⟨hcreate, hreplace, -⟩ := pass_payloads hrun
  obtain ⟨-, -, hfails⟩ := (pass_payloads hbare).2.2 rfl
  have hcreated := hcreate _ _ _ hsent
  exact ⟨hrun, hcreated, hcreated.1.faithful hordered, hreplace _ _ _ race [] rfl, hbare,
    (hfails .deployment (by simp) rfl).1⟩

end Context
end MailCapture
