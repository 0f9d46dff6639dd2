/-!
Texts in ascending order.
-/
namespace MailCapture.Text

def insertSorted (s : String) : List String → List String
  | [] => [s]
  | t :: rest => if s ≤ t then s :: t :: rest else t :: insertSorted s rest

def sorted (texts : List String) : List String := texts.foldr insertSorted []

theorem perm_insertSorted (s : String) (texts : List String) :
    (insertSorted s texts).Perm (s :: texts) := by
  induction texts with
  | nil => exact List.Perm.refl _
  | cons t rest ih =>
    unfold insertSorted
    split
    · exact List.Perm.refl _
    · exact (List.Perm.cons t ih).trans (List.Perm.swap s t rest)

theorem perm_sorted (texts : List String) : (sorted texts).Perm texts := by
  induction texts with
  | nil => exact List.Perm.refl _
  | cons t rest ih => exact (perm_insertSorted t (sorted rest)).trans (List.Perm.cons t ih)

theorem pairwise_insertSorted (s : String) {texts : List String} (h : texts.Pairwise (· ≤ ·)) :
    (insertSorted s texts).Pairwise (· ≤ ·) := by
  induction texts with
  | nil => exact List.pairwise_singleton _ _
  | cons t rest ih =>
    obtain ⟨below, tail⟩ := List.pairwise_cons.mp h
    unfold insertSorted
    split
    · rename_i hst
      refine List.pairwise_cons.mpr ⟨fun u hu => ?_, h⟩
      cases List.mem_cons.mp hu with
      | inl he => exact he ▸ hst
      | inr hu => exact Std.le_trans hst (below u hu)
    · rename_i hst
      have hts : t ≤ s := Std.le_of_lt (Std.not_le.mp hst)
      refine List.pairwise_cons.mpr ⟨fun u hu => ?_, ih tail⟩
      cases List.mem_cons.mp ((perm_insertSorted s rest).mem_iff.mp hu) with
      | inl he => exact he ▸ hts
      | inr hu => exact below u hu

theorem pairwise_sorted (texts : List String) : (sorted texts).Pairwise (· ≤ ·) := by
  induction texts with
  | nil => exact List.Pairwise.nil
  | cons t rest ih => exact pairwise_insertSorted t ih

end MailCapture.Text
