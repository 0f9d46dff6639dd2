import MailCapture.Proofs.Courses
import MailCapture.Proofs.History
import MailCapture.Proofs.Independent
import MailCapture.Proofs.Labelling
/-!
The selector of a deployment is fixed by its server.  The operator selects the pods of a record by
its name, so no edit of the record changes the selector: no replacement is refused, and nothing is
deleted but what the record does not ask for.
-/
namespace MailCapture

def Failure.isRefusal : Failure → Bool
  | .notFound _ | .alreadyExists _ | .conflict _ | .invalid _ | .refused _ => true
  | _ => false

namespace Surroundings
variable {σ : Type}

/-- The rules of a store that fixes the selectors of deployments: a replacement on the base of the
stored version is refused only as invalid, and just when it changes the selector of a deployment.
Of its own the server adds nothing to a selector. -/
structure FixesSelectors (w : Surroundings σ) (defaults : Kind → Defaults) : Prop
    extends w.Hosts defaults where
  plain : ∀ place, defaults .deployment (.field "spec" :: .field "selector" :: place) = []
  invalid_iff : ∀ s (kind : ChildKind) key m o, m.key? = .ok key →
    (w.contents s).object? kind.kind key = some o →
    m.metadata.resourceVersion = o.metadata.resourceVersion →
    ((∃ why, (w.reply (.replace kind.kind m) s).1 = .error (.invalid why)) ↔
      kind = .deployment ∧ m.selector.same o.selector = false)
  refused : ∀ s (kind : ChildKind) key m o, m.key? = .ok key →
    (w.contents s).object? kind.kind key = some o →
    m.metadata.resourceVersion = o.metadata.resourceVersion →
    ∀ f, (w.reply (.replace kind.kind m) s).1 = .error f → f.isRefusal = true →
      ∃ why, f = .invalid why

end Surroundings

/-! ### The stored selector -/

def deploymentSelector (name : String) : Json :=
  .obj [("matchLabels", .obj [(nameLabel, .str name), (typeLabel, .str typeLabelValue)])]

theorem pruned_deploymentSelector {name : String} (h : name ≠ "") :
    (deploymentSelector name).pruned = deploymentSelector name := by
  simp [deploymentSelector, Json.pruned, Json.prunedFields, h, typeLabelValue]

namespace Manifest

theorem field_spec (m : Manifest) :
    m.field "spec" = (Entries.get? m.comparableFields "spec").getD .null := by
  rw [get?_comparableFields_spec]
  rfl

/-- The spec of what is kept of an object, without empty fields and with those of the server. -/
theorem KeptAs.spec {defaults : Defaults} {m stored : Manifest} (h : m.KeptAs defaults stored)
    {v : Json} (hv : Entries.get? m.fields "spec" = some v) :
    stored.field "spec" = v.pruned.completed (defaults.under (.field "spec")) := by
  have hcomparable := h.comparable
  rw [comparable_eq, comparable_eq, Json.prunedSpec, Json.completed] at hcomparable
  rw [field_spec, Json.obj.inj hcomparable, Json.get?_completedFields, Entries.get?_update,
    if_pos rfl, get?_comparableFields_spec, hv]
  rfl

end Manifest

namespace Instance
variable {i : Instance} {d : Manifest}

theorem spec_deployment (hd : i.adopted .deployment = .ok (some d)) :
    ∃ replicas template, Entries.get? d.fields "spec" = some (.obj [("replicas", replicas),
      ("selector", deploymentSelector i.name), ("template", template)]) := by
  obtain ⟨m, hm, hf⟩ := fields_adopted hd
  unfold ChildKind.desired at hm
  split at hm
  · cases hm
    have hselector : deploymentSelector i.name =
        .obj [("matchLabels", Wire.stringMap i.selectorLabels)] := by
      rw [selectorLabels_eq]
      rfl
    rw [hf, hselector]
    exact ⟨_, _, rfl⟩
  · cases hm

theorem selector_adopted (hd : i.adopted .deployment = .ok (some d)) :
    d.selector = deploymentSelector i.name := by
  obtain ⟨replicas, template, hspec⟩ := spec_deployment hd
  rw [Manifest.selector, Manifest.field, hspec]
  rfl

/-- The selector of a deployment is stored as it was built. -/
theorem selector_kept {defaults : Defaults} {stored : Manifest}
    (hd : i.adopted .deployment = .ok (some d)) (hkept : d.stamp.KeptAs defaults stored)
    (hplain : ∀ place, defaults (.field "spec" :: .field "selector" :: place) = [])
    (hname : i.name ≠ "") : stored.selector = deploymentSelector i.name := by
  obtain ⟨replicas, template, hspec⟩ := spec_deployment hd
  have hnone : (defaults.under (.field "spec")).under (.field "selector") = fun _ => [] :=
    funext hplain
  have hpruned : Entries.get? (Json.prunedFields [("replicas", replicas),
      ("selector", deploymentSelector i.name), ("template", template)]) "selector" =
      some (deploymentSelector i.name) := by
    rw [Json.get?_prunedFields (by simp [Entries.Distinct])]
    exact congrArg some (pruned_deploymentSelector hname)
  rw [Manifest.selector, hkept.spec (m := d.stamp) hspec, Json.pruned, Json.completed, Json.member,
    Json.field?, Json.fields?, Option.bind_some, Json.get?_completedFields, hpruned,
    Option.map_some, hnone, Json.completed_none]
  rfl

end Instance

theorem Instance.name_of_isUnder {i : Instance} {key : Key} (h : i.metadata.IsUnder key) :
    i.name = key.name := congrArg Key.name (Instance.key_of_isUnder h)

namespace Contents
variable {c d : Contents} {key : Key}

structure ReworkedTo (key : Key) (c d : Contents) : Prop where
  named : c.IsNamed key → d.IsNamed key
  children : ∀ kind : ChildKind, d.object? kind.kind key = c.object? kind.kind key

theorem ReworkedTo.refl {key : Key} (c : Contents) : c.ReworkedTo key c := ⟨id, fun _ => rfl⟩

theorem ReworkedTo.trans {e : Contents} (h : c.ReworkedTo key d) (h' : d.ReworkedTo key e) :
    c.ReworkedTo key e where
  named := fun hc => h'.named (h.named hc)
  children kind := (h'.children kind).trans (h.children kind)

structure SelectsByName (c : Contents) (key : Key) : Prop where
  named : c.IsNamed key
  selector : ∀ m, c.object? ChildKind.deployment.kind key = some m →
    m.selector = deploymentSelector key.name

theorem SelectsByName.reworked (h : c.SelectsByName key) (hcd : c.ReworkedTo key d) :
    d.SelectsByName key where
  named := hcd.named h.named
  selector m hm := h.selector m (hcd.children .deployment ▸ hm)

variable {defaults : Kind → Defaults} {unserved : List ChildKind} {i : Instance}

/-- Every call of a pass leaves a deployment that selects by name. -/
theorem SelectsByName.broughtTo (h : c.SelectsByName key) (hi : i.metadata.IsUnder key)
    (hname : key.name ≠ "")
    (hplain : ∀ place, defaults .deployment (.field "spec" :: .field "selector" :: place) = [])
    (hcd : c.BroughtTo defaults unserved i d) : d.SelectsByName key := by
  cases hcd with
  | same => exact h
  | child kind found _ hfound =>
    refine ⟨h.named, fun m hm => ?_⟩
    rw [Instance.key_of_isUnder hi, object?_withObject_child] at hm
    split at hm
    · rename_i hkind
      subst hkind
      obtain ⟨desired, hd, hkept⟩ := hfound m hm
      rw [← Instance.name_of_isUnder hi] at hname ⊢
      exact Instance.selector_kept hd hkept hplain hname
    · exact h.selector m hm
  | record q current status version managed hfound =>
    refine ⟨fun j hj => ?_, h.selector⟩
    by_cases hq : key = q
    · subst hq
      rw [record?_withRecord_self] at hj
      cases hj
      have hcurrent := h.named current hfound
      exact ⟨hcurrent.name, hcurrent.ns⟩
    · rw [record?_withRecord_of_ne _ _ hq] at hj
      exact h.named j hj

end Contents

/-! ### What comes before a write -/

namespace Instance

/-- Whether a query of a pass is warranted by the turns before it: an object is replaced right after
it was read, and deleted if it is not asked for or could not be replaced just before. -/
def Warrants (i : Instance) (before : List Turn) : Query → Prop
  | .call (.replace kind m) => ∃ (child : ChildKind) (o d : Manifest), kind = child.kind ∧
      i.adopted child = .ok (some d) ∧ m = d.replacementFor o ∧
      [(⟨.call (.get kind i.key), .ok (some o)⟩ : Turn)] <:+ before
  | .call (.delete kind _ _) => ∃ child : ChildKind, kind = child.kind ∧
      (child.isSelected i.spec = false ∨ ∃ m why,
        [(⟨.call (.replace kind m), .error (.invalid why)⟩ : Turn)] <:+ before)
  | _ => True

def Warranted (i : Instance) (before : List Turn) : List Turn → Prop
  | [] => True
  | turn :: turns => i.Warrants before turn.1 ∧ i.Warranted (before ++ [turn]) turns

variable {i : Instance} {before turns more : List Turn} {kind : ChildKind}
  {unserved : List ChildKind}

theorem Warrants.after {q : Query} (h : i.Warrants before q) (first : List Turn) :
    i.Warrants (first ++ before) q := by
  unfold Warrants at h ⊢
  split
  · obtain ⟨child, o, d, hkind, hd, hm, hread⟩ := h
    exact ⟨child, o, d, hkind, hd, hm, hread.trans (List.suffix_append first before)⟩
  · obtain ⟨child, hkind, hsel | ⟨m, why, hrefused⟩⟩ := h
    · exact ⟨child, hkind, Or.inl hsel⟩
    · exact ⟨child, hkind, Or.inr ⟨m, why, hrefused.trans (List.suffix_append first before)⟩⟩
  · trivial

theorem Warranted.after (h : i.Warranted before turns) (first : List Turn) :
    i.Warranted (first ++ before) turns := by
  induction turns generalizing before with
  | nil => trivial
  | cons turn turns ih =>
    refine ⟨h.1.after first, ?_⟩
    rw [List.append_assoc]
    exact ih h.2

theorem Warranted.append (h : i.Warranted before turns) (hmore : i.Warranted [] more) :
    i.Warranted before (turns ++ more) := by
  induction turns generalizing before with
  | nil => simpa using hmore.after before
  | cons turn turns ih => exact ⟨h.1, ih h.2⟩

/-- What holds of a query in the midst of turns. -/
theorem Warranted.warrants {turn : Turn} (h : i.Warranted before (turns ++ turn :: more)) :
    i.Warrants (before ++ turns) turn.1 := by
  induction turns generalizing before with
  | nil => simpa using h.1
  | cons first turns ih => simpa using ih h.2

theorem reported_warranted (verb : Verb) (reason : String) :
    i.Warranted before (i.reported kind verb reason) := ⟨trivial, trivial, trivial⟩

theorem UpdateCourse.warranted {d o : Manifest} {r : Except Failure SyncOutcome}
    (h : i.UpdateCourse kind (d.replacementFor o) turns r) (hd : i.adopted kind = .ok (some d))
    (hread : [(⟨.call (.get kind.kind i.key), .ok (some o)⟩ : Turn)] <:+ before) :
    i.Warranted before turns := by
  have hreplace : i.Warrants before (.call (.replace kind.kind (d.replacementFor o))) :=
    ⟨kind, o, d, rfl, hd, rfl, hread⟩
  have hdelete (why : String) : i.Warrants
      (before ++ [⟨.call (.replace kind.kind (d.replacementFor o)), .error (.invalid why)⟩])
      (.call (.delete kind.kind i.key graceSeconds)) :=
    ⟨kind, rfl, Or.inr ⟨_, why, List.suffix_append _ _⟩⟩
  cases h with
  | updated stored => exact ⟨hreplace, reported_warranted _ _⟩
  | recreated why => exact ⟨hreplace, hdelete why, reported_warranted _ _⟩
  | vanished why what => exact ⟨hreplace, hdelete why, trivial⟩
  | stuck why f _ => exact ⟨hreplace, hdelete why, trivial⟩
  | failed f _ => exact ⟨hreplace, trivial⟩

theorem CreateCourse.warranted {d : Manifest} {r : Except Failure SyncOutcome}
    (h : i.CreateCourse kind d turns r) (hd : i.adopted kind = .ok (some d)) :
    i.Warranted before turns := by
  cases h with
  | created stored => exact ⟨trivial, reported_warranted _ _⟩
  | updates what o _ _ hupdate =>
    exact ⟨trivial, trivial, hupdate.warranted hd (List.suffix_append _ _)⟩
  | failed f _ => exact ⟨trivial, trivial⟩
  | _ => exact ⟨trivial, trivial, trivial⟩

theorem DeleteCourse.warranted {r : Except Failure SyncOutcome} (h : i.DeleteCourse kind turns r)
    (hsel : kind.isSelected i.spec = false) : i.Warranted before turns := by
  have hdelete : i.Warrants before (.call (.delete kind.kind i.key graceSeconds)) :=
    ⟨kind, rfl, Or.inl hsel⟩
  cases h with
  | deleted => exact ⟨hdelete, reported_warranted _ _⟩
  | _ => exact ⟨hdelete, trivial⟩

theorem StepCourse.warranted {r : Except Failure SyncOutcome}
    (h : i.StepCourse unserved kind turns r) : i.Warranted before turns := by
  cases h with
  | unserved _ => trivial
  | unowned f _ _ => trivial
  | creates d _ hd hcreate => exact ⟨trivial, hcreate.warranted hd⟩
  | updates o d _ hd _ _ hupdate =>
    exact ⟨trivial, hupdate.warranted hd (List.suffix_append _ _)⟩
  | deletes o _ hd _ hdelete =>
    exact ⟨trivial, hdelete.warranted (isSelected_of_adopted hd).symm⟩
  | _ => exact ⟨trivial, trivial⟩

theorem ChildrenCourse.warranted {kinds : List ChildKind} {r : Except Failure Bool}
    (h : i.ChildrenCourse unserved kinds turns r) : i.Warranted before turns := by
  induction h generalizing before with
  | done => trivial
  | failed hstep => exact hstep.warranted
  | ended hstep _ => exact hstep.warranted
  | next hstep _ ih => exact hstep.warranted.append ih

theorem ComputeCourse.warranted {r : Except Failure Status} (h : i.ComputeCourse turns r) :
    i.Warranted before turns := by
  cases h with
  | exposed found k a _ _ => exact ⟨trivial, trivial, trivial⟩
  | _ => exact ⟨trivial, trivial⟩

theorem WriteCourse.warranted {status : Status} {r : Except Failure StatusOutcome}
    (h : i.WriteCourse status turns r) : i.Warranted before turns := by
  cases h with
  | known _ => trivial
  | unread _ f => exact ⟨trivial, trivial⟩
  | vanished _ => exact ⟨trivial, trivial⟩
  | failed _ latest f => exact ⟨trivial, trivial, trivial⟩
  | written _ latest stored => exact ⟨trivial, trivial, trivial, trivial⟩

/-- Whatever a pass over a record is answered, what it replaces and deletes is warranted. -/
theorem PassCourse.warranted {r : Except Failure PassOutcome} (h : i.PassCourse unserved turns r) :
    i.Warranted before turns := by
  cases h with
  | rejected _ hreject =>
    cases hreject with
    | failed hwrite => exact hwrite.warranted
    | known hwrite => exact hwrite.warranted
    | news hwrite => exact hwrite.warranted.append ⟨trivial, trivial⟩
  | admitted _ htail =>
    cases htail with
    | failed hchildren => exact hchildren.warranted
    | ended hchildren => exact hchildren.warranted
    | settled hchildren hstatus =>
      refine hchildren.warranted.append ?_
      cases hstatus with
      | uncomputed hcompute => exact hcompute.warranted
      | computed hcompute hwrite =>
        exact hcompute.warranted.append ⟨trivial, hwrite.warranted⟩

end Instance

/-! ### Passes between edits -/

namespace Surroundings
variable {σ : Type} {w : Surroundings σ} {defaults : Kind → Defaults} {s : σ} {key : Key}

def Reworks (w : Surroundings σ) (key : Key) (s t : σ) : Prop :=
  (w.contents s).ReworkedTo key (w.contents t)

/-- A replacement of what is stored is not refused: it has the selector of the name, too. -/
theorem FixesSelectors.accepts (hw : w.FixesSelectors defaults) {i : Instance}
    (hi : i.metadata.IsUnder key) {kind : ChildKind} {d o : Manifest}
    (hd : i.adopted kind = .ok (some d))
    (hs : (w.contents s).SelectsByName key) (ho : (w.contents s).object? kind.kind key = some o)
    {f : Failure} (hf : (w.reply (.replace kind.kind (d.replacementFor o)) s).1 = .error f) :
    f.isRefusal = false := by
  have hkey : (d.replacementFor o).key? = .ok key := by
    have hstamped := Instance.key?_stamped hi.ns hd o.metadata.resourceVersion
    rwa [Instance.key_of_isUnder hi] at hstamped
  rw [← Bool.not_eq_true]
  intro hrefused
  obtain ⟨why, rfl⟩ := hw.refused s kind key _ o hkey ho rfl f hf hrefused
  obtain ⟨rfl, hchanged⟩ := (hw.invalid_iff s kind key _ o hkey ho rfl).1 ⟨why, hf⟩
  have hselector : (d.replacementFor o).selector = o.selector := by
    rw [hs.selector o ho, ← Instance.name_of_isUnder hi, ← Instance.selector_adopted hd]
    rfl
  rw [hselector, Json.same_refl] at hchanged
  cases hchanged

end Surroundings

namespace Context
variable {σ : Type} {w : Surroundings σ} {defaults : Kind → Defaults} {ctx : Context} {key : Key}
  {s t : σ} {turns : List Turn} {rest : Prog Query Query.Answer (Except Failure PassOutcome)}

/-- A pass leaves a deployment that selects by name, whatever is edited meanwhile. -/
theorem pass_selects (hw : w.FixesSelectors defaults) (hname : key.name ≠ "")
    (hs : (w.contents s).SelectsByName key) :
    (ctx.pass key).Keeps w (w.Reworks key) (fun t => (w.contents t).SelectsByName key)
      (fun _ _ => True) s := by
  apply pass_keeps (P := fun i => i.metadata.IsUnder key) hw.toIsSequential
  · intro t u htu ht
    exact ht.reworked htu
  · intro t u htu ht
    rwa [htu]
  · intro t i ht hi
    exact ht.named i hi
  · intro i c t hi hc ht
    exact ht.broughtTo hi hname hw.plain (hw.passCall hc t)
  · exact hs

/-- The next query of a pass reads the record of its key, or it is one over the record that was read
first. -/
theorem warrants_of_unfolds {answer : (q : Query) → σ → q.Answer × σ} {others : σ → σ → Prop}
    {q : Query} {next : q.Answer → Prog Query Query.Answer (Except Failure PassOutcome)}
    (h : (ctx.pass key).run.Unfolds answer others s turns (.ask q next) t) :
    turns = [] ∧ q = .call (.getInstance key) ∨ ∃ i more,
      turns = ⟨.call (.getInstance key), .ok (some i)⟩ :: more ∧ i.Warrants more q := by
  obtain ⟨_, b, a, later, rfl, hlater⟩ := (Prog.ask q next).ends
  have hruns := h.runs ⟨a, later, rfl, hlater⟩
  obtain ⟨found, tail, heq, htail⟩ := ctx.runs_pass key hruns
  cases turns with
  | nil =>
    cases heq
    exact Or.inl ⟨rfl, rfl⟩
  | cons first more =>
    obtain ⟨rfl, rfl⟩ := List.cons.inj heq
    obtain ⟨i, rfl, hi⟩ | hnil := htail
    · have hall : i.Warranted [] (more ++ ⟨q, a⟩ :: later) :=
        (i.pass_courses ctx.unserved _ _ hi).warranted
      exact Or.inr ⟨i, more, rfl, hall.warrants⟩
    · simp at hnil

/-- The record that a pass has read is one of its key. -/
theorem isUnder_of_unfolds (hw : w.FixesSelectors defaults) (hname : key.name ≠ "")
    (hs : (w.contents s).SelectsByName key)
    (h : (ctx.pass key).run.Unfolds w.answer (w.Reworks key) s turns rest t) {i : Instance}
    (hmem : (⟨.call (.getInstance key), .ok (some i)⟩ : Turn) ∈ turns) :
    i.metadata.IsUnder key := by
  have hall := h.forall_turn (T := fun turn =>
    ∀ i, turn = ⟨.call (.getInstance key), .ok (some i)⟩ → i.metadata.IsUnder key)
    (pass_selects hw hname hs) hs (fun t u htu ht => ht.reworked htu) fun q u hu i hturn => ?_
  · exact hall _ hmem i rfl
  · cases q with
    | emit e => cases hturn
    | call c =>
      obtain ⟨hcall, hanswer⟩ := Sigma.mk.inj hturn
      cases hcall
      have hread := (hw.getInstance key u).1.symm.trans (eq_of_heq hanswer)
      exact hu.named i (Except.ok.inj hread)

/-- What a pass is about to replace is stored as it was read, so the replacement is not refused. -/
theorem accepts_of_unfolds (hw : w.FixesSelectors defaults) (hname : key.name ≠ "")
    (hs : (w.contents s).SelectsByName key) {kind : Kind} {m : Manifest}
    {next : Query.Answer (.call (.replace kind m)) →
      Prog Query Query.Answer (Except Failure PassOutcome)}
    (h : (ctx.pass key).run.Unfolds w.answer (w.Reworks key) s turns
      (.ask (.call (.replace kind m)) next) t) {u : σ} (htu : w.Reworks key t u) {f : Failure}
    (hf : (w.reply (.replace kind m) u).1 = .error f) : f.isRefusal = false := by
  obtain ⟨_, hread⟩ | ⟨i, more, rfl, child, o, d, rfl, hd, rfl, earlier, rfl⟩ :=
    warrants_of_unfolds h
  · cases hread
  · have hi := isUnder_of_unfolds hw hname hs h List.mem_cons_self
    have ht := ((pass_selects hw hname hs).unfolds h hs).1
    have hlast : (ctx.pass key).run.Unfolds w.answer (w.Reworks key) s
        ((⟨.call (.getInstance key), .ok (some i)⟩ :: earlier) ++
          [⟨.call (.get child.kind i.key), .ok (some o)⟩]) _ t := h
    obtain ⟨v, hfound, rfl⟩ := hlast.last
    rw [Instance.key_of_isUnder hi] at hfound ht htu
    have hread := hw.get child.kind key v
    have ho : (w.contents v).object? child.kind key = some o :=
      Except.ok.inj (hread.1.symm.trans hfound)
    refine hw.accepts hi hd (ht.reworked htu) ?_ hf
    rw [htu.children child]
    exact (congrArg (·.object? child.kind key) hread.2).trans ho

/-- Edits never force a recreation.  The record of a key is edited as one likes between and during
passes, its name and namespace apart, and its children are left to the operator; at first there are
none.  Then in no pass a replacement is refused, and what a pass deletes is of a kind that the
record it has read does not ask for. -/
theorem pass_never_recreates (hw : w.FixesSelectors defaults) (hname : key.name ≠ "") {store : σ}
    (hnamed : (w.contents store).IsNamed key)
    (hbare : ∀ kind : ChildKind, (w.contents store).object? kind.kind key = none)
    (hreach : Situation.Reaches w (w.Reworks key) (fun _ => True) ctx key store ⟨s, none⟩)
    (hrun : (ctx.pass key).run.Unfolds w.answer (w.Reworks key) s turns rest t) :
    (∀ kind m a, (⟨.call (.replace kind m), a⟩ : Turn) ∈ turns →
      ∀ f, a = .error f → f.isRefusal = false) ∧
    ∀ kind q grace a, (⟨.call (.delete kind q grace), a⟩ : Turn) ∈ turns →
      ∃ i more, turns = ⟨.call (.getInstance key), .ok (some i)⟩ :: more ∧
        ∃ child : ChildKind, kind = child.kind ∧ child.isSelected i.spec = false := by
  have hstart : (w.contents store).SelectsByName key := by
    refine ⟨hnamed, fun m hm => ?_⟩
    rw [hbare .deployment] at hm
    cases hm
  have hs := hreach.keeps_of_pass (I := fun t => (w.contents t).SelectsByName key) hstart
    (fun t => Contents.ReworkedTo.refl _) (fun hab hbc => hab.trans hbc)
    (fun t u htu ht => ht.reworked htu) fun t ht => pass_selects hw hname ht
  induction hrun with
  | start => simp
  | @turn turns q next t u hbefore htu ih =>
    obtain ⟨hreplaces, hdeletes⟩ := ih
    refine ⟨fun kind m a hmem f hf => ?_, fun kind q' grace a hmem => ?_⟩
    · cases List.mem_append.1 hmem with
      | inl hmem => exact hreplaces kind m a hmem f hf
      | inr hmem =>
        cases List.mem_singleton.1 hmem
        exact accepts_of_unfolds hw hname hs hbefore htu hf
    · cases List.mem_append.1 hmem with
      | inl hmem =>
        obtain ⟨i, more, rfl, hchild⟩ := hdeletes kind q' grace a hmem
        exact ⟨i, _, rfl, hchild⟩
      | inr hmem =>
        cases List.mem_singleton.1 hmem
        obtain ⟨_, hread⟩ | ⟨i, more, rfl, child, hkind, hwhy⟩ := warrants_of_unfolds hbefore
        · cases hread
        · obtain hsel | ⟨m, why, hrefused⟩ := hwhy
          · exact ⟨i, _, rfl, child, hkind, hsel⟩
          · have hmem := List.mem_cons_of_mem ⟨.call (.getInstance key), .ok (some i)⟩
              (hrefused.subset List.mem_cons_self)
            have hnot := hreplaces kind m _ hmem _ rfl
            cases hnot

end Context

/-! ### The cluster in memory -/

namespace Cluster

/-- On the base of the stored version an object is replaced, unless the selector of a deployment
would change. -/
theorem replace_current {c : Cluster} {kind : ChildKind} {key : Key} {m o : Manifest}
    (hkey : m.key? = .ok key) (ho : c.object? kind.kind key = some o)
    (hversion : m.metadata.resourceVersion = o.metadata.resourceVersion) :
    ((kind = .deployment ∧ m.selector.same o.selector = false) ∧
      ∃ why, (c.answer (.replace kind.kind m)).1 = .error (.invalid why)) ∨
    (¬ (kind = .deployment ∧ m.selector.same o.selector = false) ∧
      ∃ stored, (c.answer (.replace kind.kind m)).1 = .ok stored) := by
  have hreply : c.answer (.replace kind.kind m) = c.replace kind.kind key m := by
    rw [answer, hkey]
  have hfound : Entries.get? c.objects ⟨kind.kind, key⟩ = some o := ho
  have hkind : kind.kind = .deployment ↔ kind = .deployment :=
    ⟨fun h => ChildKind.kind_inj (b := .deployment) h, fun h => h ▸ rfl⟩
  rw [hreply, replace]
  simp only [hfound, hversion, ne_eq, not_true_eq_false, if_false, Bool.and_eq_true,
    decide_eq_true_eq, Bool.not_eq_true', hkind]
  split
  · rename_i hchanged
    exact Or.inl ⟨hchanged, _, rfl⟩
  · rename_i hsame
    exact Or.inr ⟨hsame, _, rfl⟩

theorem surroundings_fixesSelectors : surroundings.FixesSelectors defaults where
  toHosts := surroundings_hosts
  plain place := if_neg (by simp)
  invalid_iff c kind key m o hkey ho hversion := by
    show (∃ why, (c.answer (.replace kind.kind m)).1 = _) ↔ _
    obtain ⟨hchanged, hinvalid⟩ | ⟨hsame, stored, hok⟩ := replace_current hkey ho hversion
    · exact ⟨fun _ => hchanged, fun _ => hinvalid⟩
    · refine ⟨fun ⟨why, hinvalid⟩ => ?_, fun h => absurd h hsame⟩
      cases hok.symm.trans hinvalid
  refused c kind key m o hkey ho hversion f hf _ := by
    have herror : (c.answer (.replace kind.kind m)).1 = .error f := hf
    obtain ⟨_, why, hinvalid⟩ | ⟨_, stored, hok⟩ := replace_current hkey ho hversion
    · cases herror.symm.trans hinvalid
      exact ⟨why, rfl⟩
    · cases hok.symm.trans herror

end Cluster

/-- A record whose label is edited after its deployment was created: the deployment is replaced, and
its server accepts that. -/
theorem Context.pass_never_recreates_relabelled :
    let metadata : Metadata := { name := some "mh", ns := some "mail", uid := some "u1" }
    let first : Instance := ⟨{ metadata with labels := some [("app", "mail")] }, {}, none⟩
    let record : Instance := ⟨{ metadata with labels := some [("app", "post")] }, {}, none⟩
    let key := record.key
    let start : Cluster := { records := [(key, first)] }
    let created := ((Context.pass {} key).exec Cluster.surroundings start).2
    let edited : Cluster := { created with records := [(key, record)] }
    let turns := (Context.pass {} key).turns Cluster.surroundings edited
    turns.any (fun turn => match turn with
      | ⟨.call (.replace .deployment _), .ok _⟩ => true
      | _ => false) = true ∧
    (∀ kind m a, (⟨.call (.replace kind m), a⟩ : Turn) ∈ turns →
      ∀ f, a = .error f → f.isRefusal = false) ∧
    ∀ kind q grace a, (⟨.call (.delete kind q grace), a⟩ : Turn) ∈ turns →
      ∃ i more, turns = ⟨.call (.getInstance key), .ok (some i)⟩ :: more ∧
        ∃ child : ChildKind, kind = child.kind ∧ child.isSelected i.spec = false := by
  intro metadata first record key start created edited turns
  have hnamed {c : Cluster} {i : Instance} (hc : c.records = [(key, i)])
      (hi : i.metadata.IsUnder key) : (Cluster.surroundings.contents c).IsNamed key := by
    intro j hj
    have hself : c.record? key = some i := by
      rw [Cluster.record?, hc]
      exact if_pos rfl
    cases hself.symm.trans hj
    exact hi
  have hreach : Situation.Reaches Cluster.surroundings (Cluster.surroundings.Reworks key)
      (fun _ => True) {} key start ⟨edited, none⟩ := by
    refine ((Situation.Reaches.init.pass trivial).step .stop).step (.others ?_)
    exact ⟨fun _ => hnamed rfl ⟨rfl, rfl⟩, fun _ => rfl⟩
  have hrefl (c : Cluster) : Cluster.surroundings.Reworks key c c := Contents.ReworkedTo.refl _
  have hrun := Prog.unfolds_trace Cluster.surroundings.answer hrefl (Context.pass {} key).run edited
  exact ⟨by decide +kernel, pass_never_recreates Cluster.surroundings_fixesSelectors (by decide)
    (hnamed (i := first) rfl ⟨rfl, rfl⟩) (fun _ => rfl) hreach hrun⟩

end MailCapture
