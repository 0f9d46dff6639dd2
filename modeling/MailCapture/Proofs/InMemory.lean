import MailCapture.Cluster
import MailCapture.Proofs.Sequential
/-!
The cluster in memory as a store that nobody else uses.
-/
namespace MailCapture

def Cluster.surroundings : Surroundings Cluster where
  reply c s := s.answer c
  emit _ s := s
  contents s := ⟨s.object?, s.record?, s.list .pod⟩

namespace Cluster

theorem create_failed {c : Cluster} {kind : Kind} {key : Key} {m : Manifest} {f : Failure}
    (h : (c.create kind key m).1 = .error f) : (c.create kind key m).2 = c := by
  unfold create at h ⊢
  dsimp only at h ⊢
  split
  · rfl
  · rename_i hfree
    rw [if_neg hfree] at h
    cases h

theorem replace_failed {c : Cluster} {kind : Kind} {key : Key} {m : Manifest} {f : Failure}
    (h : (c.replace kind key m).1 = .error f) : (c.replace kind key m).2 = c := by
  unfold replace at h ⊢
  dsimp only at h ⊢
  split
  · rfl
  · rename_i current hc
    rw [hc] at h
    dsimp only at h
    split
    · rfl
    · rename_i hv
      rw [if_neg hv] at h
      split
      · rfl
      · rename_i hs
        rw [if_neg hs] at h
        cases h

theorem delete_failed {c : Cluster} {kind : Kind} {key : Key} {f : Failure}
    (h : (c.delete kind key).1 = .error f) : (c.delete kind key).2 = c := by
  unfold delete at h ⊢
  dsimp only at h ⊢
  split
  · rename_i hfound
    rw [if_pos hfound] at h
    cases h
  · rfl

theorem replaceStatus_failed {c : Cluster} {i : Instance} {f : Failure}
    (h : (c.replaceStatus i).1 = .error f) : (c.replaceStatus i).2 = c := by
  unfold replaceStatus at h ⊢
  dsimp only at h ⊢
  split
  · rfl
  · rename_i current hc
    rw [hc] at h
    dsimp only at h
    split
    · rfl
    · rename_i hv
      rw [if_neg hv] at h
      cases h

theorem answer_failed {c : Cluster} {call : StoreCall} {f : Failure}
    (h : (c.answer call).1 = .error f) : (c.answer call).2 = c := by
  cases call with
  | get kind key => rfl
  | list kind ns selector => rfl
  | getInstance key => rfl
  | create kind m =>
    cases hk : m.key? with
    | error g => simp only [answer, hk]
    | ok key =>
      simp only [answer, hk] at h ⊢
      exact create_failed h
  | replace kind m =>
    cases hk : m.key? with
    | error g => simp only [answer, hk]
    | ok key =>
      simp only [answer, hk] at h ⊢
      exact replace_failed h
  | delete kind key grace => exact delete_failed h
  | replaceStatus i => exact replaceStatus_failed h

inductive Changes (c : Cluster) : StoreCall → Cluster → Prop
  | stays (call : StoreCall) : Changes c call c
  | creates (kind : Kind) (key : Key) (m new : Manifest) :
      Changes c (.create kind m) (c.putObject ⟨kind, key⟩ new)
  | replaces (kind : Kind) (key : Key) (m new : Manifest) :
      Changes c (.replace kind m) (c.putObject ⟨kind, key⟩ new)
  | deletes (kind : Kind) (key : Key) (grace : UInt32) :
      Changes c (.delete kind key grace) (c.removeObject ⟨kind, key⟩)
  | writes (record current : Instance) (hfound : c.record? record.key = some current) :
      Changes c (.replaceStatus record)
        (c.putRecord record.key { current with status := record.status })

theorem changes_answer (c : Cluster) (call : StoreCall) : c.Changes call (c.answer call).2 := by
  cases call with
  | create kind m =>
    cases hk : m.key? with
    | error f =>
      simp only [answer, hk]
      exact .stays _
    | ok key =>
      simp only [answer, hk]
      unfold create
      dsimp only
      split
      · exact .stays _
      · exact .creates kind key m _
  | replace kind m =>
    cases hk : m.key? with
    | error f =>
      simp only [answer, hk]
      exact .stays _
    | ok key =>
      simp only [answer, hk]
      unfold replace
      dsimp only
      split
      · exact .stays _
      · split
        · exact .stays _
        · split
          · exact .stays _
          · exact .replaces kind key m _
  | delete kind key grace =>
    show c.Changes _ (c.delete kind key).2
    unfold delete
    dsimp only
    split
    · exact .deletes kind key grace
    · exact .stays _
  | replaceStatus record =>
    show c.Changes _ (c.replaceStatus record).2
    unfold replaceStatus
    dsimp only
    split
    · exact .stays _
    · rename_i current hfound
      split
      · exact .stays _
      · exact .writes record current hfound
  | _ => exact .stays _

theorem surroundings_isSequential : surroundings.IsSequential where
  get _ _ _ := ⟨rfl, rfl⟩
  list _ _ _ := ⟨rfl, rfl⟩
  getInstance _ _ := ⟨rfl, rfl⟩
  emit _ _ := rfl
  failed c s f h := congrArg surroundings.contents (answer_failed h)
  delete kind key grace s what hfound h := by
    have hd : s.delete kind key = (.ok (), s.removeObject ⟨kind, key⟩) := if_pos hfound
    have hok := (congrArg Prod.fst hd).symm.trans h
    cases hok

end Cluster

end MailCapture
