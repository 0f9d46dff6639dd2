import MailCapture.Proofs.Hosted
import MailCapture.Proofs.Isolation
/-!
Passes over two records do not get into each other's way.  In a store whose operations on different
keys are independent, but for the versions that it gives, one pass for each can be made in either
order: both end as they would alone, and what is stored is the same up to versions.
-/
namespace MailCapture

def Metadata.unversioned (m : Metadata) : Metadata := { m with resourceVersion := none }

def Manifest.unversioned (m : Manifest) : Manifest := m.withMetadata Metadata.unversioned

def Instance.unversioned (i : Instance) : Instance := { i with metadata := i.metadata.unversioned }

namespace Contents

structure AgreesAt (key : Key) (c d : Contents) : Prop where
  object : ∀ kind, c.object? kind key = d.object? kind key
  record : c.record? key = d.record? key
  pods : c.pods key.ns = d.pods key.ns

structure MatchesAt (key : Key) (c d : Contents) : Prop where
  object : ∀ kind, (c.object? kind key).map Manifest.unversioned =
    (d.object? kind key).map Manifest.unversioned
  record : (c.record? key).map Instance.unversioned = (d.record? key).map Instance.unversioned

structure SameBeside (key : Key) (c d : Contents) : Prop where
  object : ∀ kind q, q ≠ key → c.object? kind q = d.object? kind q
  record : ∀ q, q ≠ key → c.record? q = d.record? q
  pods : c.pods = d.pods

structure Matches (c d : Contents) : Prop where
  under : ∀ key, c.MatchesAt key d
  pods : c.pods = d.pods

def IsNamed (c : Contents) (key : Key) : Prop :=
  ∀ i, c.record? key = some i → i.metadata.IsUnder key

variable {key other : Key} {c d e : Contents}

theorem AgreesAt.matches (h : c.AgreesAt key d) : c.MatchesAt key d where
  object kind := congrArg _ (h.object kind)
  record := congrArg _ h.record

theorem AgreesAt.symm (h : c.AgreesAt key d) : d.AgreesAt key c where
  object kind := (h.object kind).symm
  record := h.record.symm
  pods := h.pods.symm

theorem MatchesAt.symm (h : c.MatchesAt key d) : d.MatchesAt key c where
  object kind := (h.object kind).symm
  record := h.record.symm

theorem MatchesAt.trans (h : c.MatchesAt key d) (h' : d.MatchesAt key e) : c.MatchesAt key e where
  object kind := (h.object kind).trans (h'.object kind)
  record := h.record.trans h'.record

theorem SameBeside.refl (c : Contents) : c.SameBeside key c :=
  ⟨fun _ _ _ => rfl, fun _ _ => rfl, rfl⟩

theorem SameBeside.trans (h : c.SameBeside key d) (h' : d.SameBeside key e) :
    c.SameBeside key e where
  object kind q hq := (h.object kind q hq).trans (h'.object kind q hq)
  record q hq := (h.record q hq).trans (h'.record q hq)
  pods := h.pods.trans h'.pods

theorem SameBeside.agreesAt (h : c.SameBeside key d) (hne : other ≠ key) : c.AgreesAt other d where
  object kind := h.object kind other hne
  record := h.record other hne
  pods := congrArg (fun pods => pods other.ns) h.pods

theorem IsNamed.of_agreesAt (h : c.IsNamed key) (hcd : c.AgreesAt key d) : d.IsNamed key :=
  fun i hi => h i (hcd.record.trans hi)

theorem sameBeside_withObject (c : Contents) (kind : Kind) (key : Key) (found : Option Manifest) :
    c.SameBeside key (c.withObject kind key found) where
  object _ _ hq := (c.object?_withObject_of_ne found fun _ => hq).symm
  record _ _ := rfl
  pods := rfl

theorem sameBeside_withRecord (c : Contents) (key : Key) (record : Instance) :
    c.SameBeside key (c.withRecord key record) where
  object _ _ _ := rfl
  record _ hq := (c.record?_withRecord_of_ne record hq).symm
  pods := rfl

theorem MatchesAt.withObject (h : c.MatchesAt key d) (kind : Kind) {found found' : Option Manifest}
    (hfound : found.map Manifest.unversioned = found'.map Manifest.unversioned) :
    (c.withObject kind key found).MatchesAt key (d.withObject kind key found') where
  object k := by
    by_cases hk : k = kind
    · subst hk
      simpa using hfound
    · rw [object?_withObject_of_ne _ _ fun he => absurd he hk,
        object?_withObject_of_ne _ _ fun he => absurd he hk]
      exact h.object k
  record := h.record

theorem MatchesAt.withRecord (h : c.MatchesAt key d) {record record' : Instance}
    (hrecord : record.unversioned = record'.unversioned) :
    (c.withRecord key record).MatchesAt key (d.withRecord key record') where
  object := h.object
  record := by simpa using hrecord

end Contents

namespace Surroundings
variable {σ : Type}

/-- A store whose operations on different keys are independent.  What a call at a key leads to
depends on what is stored there alone, but for the versions that are given, and nothing else is
changed by it.  Reads and expected failures change nothing at all. -/
structure IsIndependent (w : Surroundings σ) : Prop where
  emit : ∀ e s, w.contents (w.emit e s) = w.contents s
  look : ∀ c s, (Query.call c).Looks → w.contents (w.reply c s).2 = w.contents s
  expected : ∀ c s f, (w.reply c s).1 = .error f → c.Expects f →
    w.contents (w.reply c s).2 = w.contents s
  getInstance : ∀ key s found, (w.reply (.getInstance key) s).1 = .ok found →
    found = (w.contents s).record? key
  beside : ∀ c key s, c.IsAt key → (w.contents s).SameBeside key (w.contents (w.reply c s).2)
  shown : ∀ c key s t, c.IsAt key → (Query.call c).Looks →
    (w.contents s).AgreesAt key (w.contents t) → (w.reply c s).1 = (w.reply c t).1
  failed : ∀ c key s t f, c.IsAt key → (w.contents s).AgreesAt key (w.contents t) →
    (w.reply c s).1 = .error f → (w.reply c t).1 = .error f
  stored : ∀ c key s t, c.IsAt key → (w.contents s).AgreesAt key (w.contents t) →
    (w.contents (w.reply c s).2).MatchesAt key (w.contents (w.reply c t).2)

variable {w : Surroundings σ} {key : Key} {s t : σ}

/-- What is shown of a record that is stored under its own key. -/
theorem IsIndependent.shows (hw : w.IsIndependent) (hs : (w.contents s).IsNamed key) {c : StoreCall}
    (hc : c.IsAt key) : c.Shows key (w.reply c s).1 := by
  cases c with
  | getInstance q =>
    cases hc
    intro i hi
    exact hs i (hw.getInstance key s _ hi).symm
  | _ => trivial

end Surroundings

namespace Prog
variable {σ α : Type} {w : Surroundings σ} {key : Key} {P : α → Prop} {s t : σ}

theorem Concludes.run {p : Prog Query Query.Answer α} {b : α} (hp : p.Concludes b)
    (hw : w.IsIndependent) (s : σ) :
    (p.run w.answer s).1 = b ∧ w.contents (p.run w.answer s).2 = w.contents s := by
  induction p generalizing s with
  | done a => exact ⟨hp, rfl⟩
  | ask q next ih =>
    cases q with
    | emit e =>
      have hrest := ih () hp (w.emit e s)
      exact ⟨hrest.1, hrest.2.trans (hw.emit e s)⟩
    | call c => exact hp.elim

theorem Concludes.alike {p q : Prog Query Query.Answer α} {b : α} (hp : p.Concludes b)
    (hq : q.Concludes b) (hw : w.IsIndependent)
    (hst : (w.contents s).MatchesAt key (w.contents t)) :
    (p.run w.answer s).1 = (q.run w.answer t).1 ∧
      (w.contents (p.run w.answer s).2).MatchesAt key (w.contents (q.run w.answer t).2) := by
  obtain ⟨hb, hs⟩ := hp.run hw s
  obtain ⟨hb', ht⟩ := hq.run hw t
  rw [hs, ht]
  exact ⟨hb.trans hb'.symm, hst⟩

/-- A program that keeps to a key changes nothing beside it. -/
theorem Confined.sameBeside {p : Prog Query Query.Answer α} (hp : p.Confined key P)
    (hw : w.IsIndependent) (hs : (w.contents s).IsNamed key) :
    (w.contents s).SameBeside key (w.contents (p.run w.answer s).2) := by
  induction p generalizing s with
  | done a => exact .refl _
  | ask q next ih =>
    cases q with
    | emit e =>
      have hsame := hw.emit e s
      have hrest := ih () hp (s := w.emit e s) (hsame ▸ hs)
      rwa [hsame] at hrest
    | call c =>
      obtain ⟨hat, hlooks, hwrites⟩ := hp
      have hstep := hw.beside c key s hat
      have hshows := hw.shows hs hat
      show (w.contents s).SameBeside key
        (w.contents ((next (w.reply c s).1).run w.answer (w.reply c s).2).2)
      by_cases hl : (Query.call c).Looks
      · have hsame := hw.look c s hl
        exact hstep.trans (ih _ (hlooks hl _ hshows) (hsame ▸ hs))
      · obtain ⟨⟨b, _, hdone⟩, hfailed⟩ := hwrites hl
        cases ha : (w.reply c s).1 with
        | ok stored => rwa [((hdone stored).run hw _).2]
        | error f =>
          by_cases hf : c.Expects f
          · have hsame := hw.expected c s f ha hf
            exact hstep.trans (ih _ ((hfailed f).1 hf) (hsame ▸ hs))
          · obtain ⟨b, _, hconcludes⟩ := (hfailed f).2 hf
            rwa [(hconcludes.run hw _).2]

/-- A program that keeps to a key ends alike from states that agree there. -/
theorem Confined.alike {p : Prog Query Query.Answer α} (hp : p.Confined key P)
    (hw : w.IsIndependent) (hs : (w.contents s).IsNamed key)
    (hst : (w.contents s).AgreesAt key (w.contents t)) :
    (p.run w.answer s).1 = (p.run w.answer t).1 ∧
      (w.contents (p.run w.answer s).2).MatchesAt key (w.contents (p.run w.answer t).2) := by
  induction p generalizing s t with
  | done a => exact ⟨rfl, hst.matches⟩
  | ask q next ih =>
    cases q with
    | emit e =>
      refine ih () hp (s := w.emit e s) (t := w.emit e t) ?_ ?_
      · rwa [hw.emit e s]
      · rwa [hw.emit e s, hw.emit e t]
    | call c =>
      obtain ⟨hat, hlooks, hwrites⟩ := hp
      have hshows := hw.shows hs hat
      have hstored := hw.stored c key s t hat hst
      show ((next (w.reply c s).1).run w.answer (w.reply c s).2).1 =
          ((next (w.reply c t).1).run w.answer (w.reply c t).2).1 ∧
        (w.contents ((next (w.reply c s).1).run w.answer (w.reply c s).2).2).MatchesAt key
          (w.contents ((next (w.reply c t).1).run w.answer (w.reply c t).2).2)
      by_cases hl : (Query.call c).Looks
      · rw [← hw.shown c key s t hat hl hst]
        refine ih _ (hlooks hl _ hshows) ?_ ?_
        · rwa [hw.look c s hl]
        · rwa [hw.look c s hl, hw.look c t hl]
      · obtain ⟨⟨b, _, hdone⟩, hfailed⟩ := hwrites hl
        cases ha : (w.reply c s).1 with
        | ok a =>
          cases hb : (w.reply c t).1 with
          | ok b => exact (hdone a).alike (hdone b) hw hstored
          | error f =>
            rw [hw.failed c key t s f hat hst.symm hb] at ha
            cases ha
        | error f =>
          have hb := hw.failed c key s t f hat hst ha
          rw [hb]
          by_cases hf : c.Expects f
          · refine ih _ ((hfailed f).1 hf) ?_ ?_
            · rwa [hw.expected c s f ha hf]
            · rwa [hw.expected c s f ha hf, hw.expected c t f hb hf]
          · obtain ⟨b, _, hconcludes⟩ := (hfailed f).2 hf
            exact hconcludes.alike hconcludes hw hstored

end Prog

/-! ### The cluster in memory -/

/-- All kinds but that of pods are kinds of children. -/
theorem Kind.exists_child {kind : Kind} (h : kind ≠ .pod) :
    ∃ child : ChildKind, child.kind = kind := by
  cases kind with
  | deployment => exact ⟨.deployment, rfl⟩
  | deploymentConfig => exact ⟨.deploymentConfig, rfl⟩
  | service => exact ⟨.service, rfl⟩
  | configMap => exact ⟨.configMap, rfl⟩
  | route => exact ⟨.route, rfl⟩
  | ingress => exact ⟨.ingress, rfl⟩
  | pod => exact absurd rfl h

theorem Manifest.key?_of_isUnder {m : Manifest} {key : Key} (h : m.metadata.IsUnder key) :
    m.key? = .ok key := by
  unfold key?
  rw [h.name, h.ns]

namespace Cluster
variable {key : Key} {c d : Cluster}

structure Alike {α : Type} (key : Key) (r r' : Except Failure α × Cluster) : Prop where
  failed : ∀ f, r.1 = .error f → r'.1 = .error f
  stored : (surroundings.contents r.2).MatchesAt key (surroundings.contents r'.2)

theorem Alike.of_success {α : Type} (a b : α)
    (h : (surroundings.contents c).MatchesAt key (surroundings.contents d)) :
    Alike key (.ok a, c) (.ok b, d) := ⟨by simp, h⟩

section
variable (hcd : (surroundings.contents c).AgreesAt key (surroundings.contents d))
include hcd

theorem Alike.of_failure {α : Type} (f : Failure) :
    Alike (α := α) key (.error f, c) (.error f, d) := ⟨fun _ => id, hcd.matches⟩

theorem alike_put {α : Type} {kind : Kind} (hkind : kind ≠ .pod) (new : Manifest) (a b : α) :
    Alike key (.ok a, c.putObject ⟨kind, key⟩ new) (.ok b, d.putObject ⟨kind, key⟩ new) := by
  obtain ⟨child, rfl⟩ := Kind.exists_child hkind
  refine .of_success a b ?_
  rw [contents_putObject, contents_putObject]
  exact hcd.matches.withObject child.kind rfl

theorem alike_create {kind : Kind} (hkind : kind ≠ .pod) (m : Manifest) :
    Alike key (c.create kind key m) (d.create kind key m) := by
  have hobject : Entries.get? c.objects ⟨kind, key⟩ = Entries.get? d.objects ⟨kind, key⟩ :=
    hcd.object kind
  unfold create Entries.has
  dsimp only
  rw [hobject]
  split
  · exact .of_failure hcd _
  · exact alike_put hcd hkind _ _ _

theorem alike_replace {kind : Kind} (hkind : kind ≠ .pod) (m : Manifest) :
    Alike key (c.replace kind key m) (d.replace kind key m) := by
  have hobject : Entries.get? c.objects ⟨kind, key⟩ = Entries.get? d.objects ⟨kind, key⟩ :=
    hcd.object kind
  unfold replace
  dsimp only
  rw [hobject]
  split
  · exact .of_failure hcd _
  · split
    · exact .of_failure hcd _
    · split
      · exact .of_failure hcd _
      · exact alike_put hcd hkind _ _ _

theorem alike_delete {kind : Kind} (hkind : kind ≠ .pod) :
    Alike key (c.delete kind key) (d.delete kind key) := by
  have hobject : Entries.get? c.objects ⟨kind, key⟩ = Entries.get? d.objects ⟨kind, key⟩ :=
    hcd.object kind
  unfold delete Entries.has
  dsimp only
  rw [hobject]
  split
  · obtain ⟨child, rfl⟩ := Kind.exists_child hkind
    refine .of_success _ _ ?_
    rw [contents_removeObject, contents_removeObject]
    exact hcd.matches.withObject child.kind rfl
  · exact .of_failure hcd _

theorem alike_replaceStatus {record : Instance} (hkey : record.key = key) :
    Alike key (c.replaceStatus record) (d.replaceStatus record) := by
  have hrecord : c.record? key = d.record? key := hcd.record
  unfold replaceStatus
  dsimp only
  rw [hkey, hrecord]
  split
  · exact .of_failure hcd _
  · split
    · exact .of_failure hcd _
    · refine .of_success _ _ ?_
      rw [contents_putRecord, contents_putRecord]
      exact hcd.matches.withRecord rfl

theorem alike_answer {call : StoreCall} (hat : call.IsAt key) :
    Alike key (c.answer call) (d.answer call) := by
  cases call with
  | get kind q =>
    cases hat
    exact .of_success _ _ hcd.matches
  | list kind ns selector => exact .of_success _ _ hcd.matches
  | getInstance q => exact .of_success _ _ hcd.matches
  | create kind m =>
    simp only [answer, Manifest.key?_of_isUnder hat.2]
    exact alike_create hcd hat.1 m
  | replace kind m =>
    simp only [answer, Manifest.key?_of_isUnder hat.2]
    exact alike_replace hcd hat.1 m
  | delete kind q grace =>
    obtain ⟨hkind, rfl⟩ := hat
    exact alike_delete hcd hkind
  | replaceStatus record => exact alike_replaceStatus hcd (Instance.key_of_isUnder hat)

end

/-- What a call at a key changes is under that key. -/
theorem sameBeside_answer (c : Cluster) {call : StoreCall} (hat : call.IsAt key) :
    (surroundings.contents c).SameBeside key (surroundings.contents (c.answer call).2) := by
  have hput {kind : Kind} (hkind : kind ≠ .pod) (new : Manifest) :
      (surroundings.contents c).SameBeside key
        (surroundings.contents (c.putObject ⟨kind, key⟩ new)) := by
    obtain ⟨child, rfl⟩ := Kind.exists_child hkind
    rw [contents_putObject]
    exact Contents.sameBeside_withObject _ _ _ _
  cases call with
  | create kind m =>
    simp only [answer, Manifest.key?_of_isUnder hat.2]
    unfold create
    dsimp only
    split
    · exact .refl _
    · exact hput hat.1 _
  | replace kind m =>
    simp only [answer, Manifest.key?_of_isUnder hat.2]
    unfold replace
    dsimp only
    split
    · exact .refl _
    · split
      · exact .refl _
      · split
        · exact .refl _
        · exact hput hat.1 _
  | delete kind q grace =>
    obtain ⟨hkind, rfl⟩ := hat
    obtain ⟨child, rfl⟩ := Kind.exists_child hkind
    show (surroundings.contents c).SameBeside q (surroundings.contents (c.delete child.kind q).2)
    unfold delete
    dsimp only
    split
    · rw [contents_removeObject]
      exact Contents.sameBeside_withObject _ _ _ _
    · exact .refl _
  | replaceStatus record =>
    show (surroundings.contents c).SameBeside key
      (surroundings.contents (c.replaceStatus record).2)
    unfold replaceStatus
    dsimp only
    rw [Instance.key_of_isUnder hat]
    split
    · exact .refl _
    · split
      · exact .refl _
      · rw [contents_putRecord]
        exact Contents.sameBeside_withRecord _ _ _
  | _ => exact .refl _

theorem surroundings_isIndependent : surroundings.IsIndependent where
  emit _ _ := rfl
  look c s hl := by
    cases c with
    | get kind key => rfl
    | list kind ns selector => rfl
    | getInstance key => rfl
    | _ => exact hl.elim
  expected c s f hf _ := congrArg surroundings.contents (answer_failed hf)
  getInstance key s found h := (Except.ok.inj h).symm
  beside c key s hat := sameBeside_answer s hat
  shown c key s t hat hl hst := by
    cases c with
    | get kind q =>
      cases hat
      exact congrArg Except.ok (hst.object kind)
    | list kind ns selector =>
      obtain ⟨rfl, rfl⟩ := hat
      exact congrArg Except.ok (congrFun hst.pods selector)
    | getInstance q =>
      cases hat
      exact congrArg Except.ok hst.record
    | _ => exact hl.elim
  failed c key s t f hat hst := (alike_answer hst hat).failed f
  stored c key s t hat hst := (alike_answer hst hat).stored

end Cluster

namespace Context
variable {σ : Type} {w : Surroundings σ} {key other : Key} {s : σ}

/-- Passes over two records are isolated.  Whatever a pass is answered, given that a record it is
shown is one of its key, it calls only for what is under that key and for the pods around it, and it
writes under that key.  In a store whose operations on different keys are independent, a pass over
one record and one over another end alike in both orders, with the same contents up to versions. -/
theorem passes_isolated (ctx : Context) (hw : w.IsIndependent) (hne : other ≠ key)
    (hkey : (w.contents s).IsNamed key) (hother : (w.contents s).IsNamed other) :
    (∀ q turns r, (ctx.pass q).run.Runs turns r →
      (∀ i, (⟨.call (.getInstance q), .ok (some i)⟩ : Turn) ∈ turns → i.metadata.IsUnder q) →
      ∀ c a, (⟨.call c, a⟩ : Turn) ∈ turns → c.IsAt q) ∧
    let first := (ctx.pass key).exec w s
    let second := (ctx.pass other).exec w s
    ((ctx.pass other).exec w first.2).1 = second.1 ∧
    ((ctx.pass key).exec w second.2).1 = first.1 ∧
    (w.contents ((ctx.pass other).exec w first.2).2).Matches
      (w.contents ((ctx.pass key).exec w second.2).2) := by
  refine ⟨fun q turns r hr hshows c a hmem => (ctx.pass_confined q).isAt hr hshows c a hmem, ?_⟩
  intro first second
  have hfirst : (w.contents s).SameBeside key (w.contents first.2) :=
    (ctx.pass_confined key).sameBeside hw hkey
  have hsecond : (w.contents s).SameBeside other (w.contents second.2) :=
    (ctx.pass_confined other).sameBeside hw hother
  have hkey' : (w.contents second.2).IsNamed key := hkey.of_agreesAt (hsecond.agreesAt hne.symm)
  have hother' : (w.contents first.2).IsNamed other := hother.of_agreesAt (hfirst.agreesAt hne)
  have hthen := (ctx.pass_confined other).sameBeside hw hother'
  have hthen' := (ctx.pass_confined key).sameBeside hw hkey'
  obtain ⟨hends, hunder⟩ := (ctx.pass_confined key).alike hw hkey (hsecond.agreesAt hne.symm)
  obtain ⟨hends', hunder'⟩ := (ctx.pass_confined other).alike hw hother (hfirst.agreesAt hne)
  refine ⟨hends'.symm, hends.symm, fun q => ?_, ?_⟩
  · by_cases hq : q = key
    · subst hq
      exact (hthen.agreesAt hne.symm).symm.matches.trans hunder
    · by_cases ho : q = other
      · subst ho
        exact hunder'.symm.trans (hthen'.agreesAt hne).matches
      · have hback := ((hfirst.agreesAt hq).matches.trans (hthen.agreesAt ho).matches).symm
        exact hback.trans ((hsecond.agreesAt ho).matches.trans (hthen'.agreesAt hq).matches)
  · exact (hfirst.pods.trans hthen.pods).symm.trans (hsecond.pods.trans hthen'.pods)

/-- Two records of one name in two namespaces, the second with a service that has drifted. -/
theorem passes_isolated_namesakes :
    let dev : Instance := ⟨{ name := some "mail", ns := some "dev", uid := some "u1" }, {}, none⟩
    let prod : Instance := ⟨{ name := some "mail", ns := some "prod", uid := some "u2" }, {}, none⟩
    let cluster : Cluster := {
      objects := [(⟨.service, prod.key⟩, ⟨none, { resourceVersion := some "1" }, []⟩)]
      records := [(dev.key, dev), (prod.key, prod)]
      revision := 1 }
    let w := Cluster.surroundings
    let first := (Context.pass {} dev.key).exec w cluster
    let second := (Context.pass {} prod.key).exec w cluster
    ((Context.pass {} prod.key).exec w first.2).1 = second.1 ∧
      ((Context.pass {} dev.key).exec w second.2).1 = first.1 ∧
      (w.contents ((Context.pass {} prod.key).exec w first.2).2).Matches
        (w.contents ((Context.pass {} dev.key).exec w second.2).2) := by
  intro dev prod cluster w first second
  have hdev : (w.contents cluster).IsNamed dev.key := by
    intro i hi
    cases hi
    exact ⟨rfl, rfl⟩
  have hprod : (w.contents cluster).IsNamed prod.key := by
    intro i hi
    cases hi
    exact ⟨rfl, rfl⟩
  exact (passes_isolated {} Cluster.surroundings_isIndependent (by decide) hdev hprod).2

end Context
end MailCapture
