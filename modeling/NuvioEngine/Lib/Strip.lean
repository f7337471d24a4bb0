import Mathlib.Data.List.DropRight
import Mathlib.Data.List.TakeWhile

/-! Stripping a list of the items of a kind at both of its ends. -/

namespace Strip

variable {α : Type*} {p : α → Bool} {left value right : List α}

def strip (p : α → Bool) (value : List α) : List α := (value.dropWhile p).rdropWhile p

theorem rdropWhile_append_of_pos (padded : ∀ item ∈ right, p item = true) :
    (value ++ right).rdropWhile p = value.rdropWhile p := by
  unfold List.rdropWhile
  rw [List.reverse_append, List.dropWhile_append_of_pos]
  intro item member
  exact padded item (List.mem_reverse.mp member)

theorem rdropWhile_append_cons {item : α} (solid : p item = false) :
    (left ++ item :: value).rdropWhile p = left ++ item :: value.rdropWhile p := by
  unfold List.rdropWhile
  rw [List.reverse_append, List.reverse_cons, List.append_assoc, List.singleton_append,
    List.dropWhile_append]
  split
  · rename_i empty
    rw [List.isEmpty_iff] at empty
    simp [empty, solid]
  · simp

theorem exists_rdropWhile (p : α → Bool) (value : List α) :
    ∃ right, (∀ item ∈ right, p item = true) ∧ value = value.rdropWhile p ++ right := by
  refine ⟨(value.reverse.takeWhile p).reverse, ?_, ?_⟩
  · intro item member
    exact List.mem_takeWhile_imp (List.mem_reverse.mp member)
  · rw [List.rdropWhile, ← List.reverse_append, List.takeWhile_append_dropWhile, List.reverse_reverse]

theorem exists_strip (p : α → Bool) (value : List α) :
    ∃ left right, (∀ item ∈ left, p item = true) ∧ (∀ item ∈ right, p item = true) ∧
      value = left ++ strip p value ++ right := by
  obtain ⟨right, padded, same⟩ := exists_rdropWhile p (value.dropWhile p)
  refine ⟨value.takeWhile p, right, fun item member => List.mem_takeWhile_imp member, padded, ?_⟩
  rw [List.append_assoc, strip, ← same, List.takeWhile_append_dropWhile]

theorem strip_pad (before : ∀ item ∈ left, p item = true) (after : ∀ item ∈ right, p item = true) :
    strip p (left ++ value ++ right) = strip p value := by
  unfold strip
  rw [List.append_assoc, List.dropWhile_append_of_pos before, List.dropWhile_append]
  split
  · rename_i empty
    have all : right.dropWhile p = [] := List.dropWhile_eq_nil_iff.mpr after
    rw [List.isEmpty_iff.mp empty, all]
  · exact rdropWhile_append_of_pos after

theorem strip_append_cons {item : α} (solid : p item = false) :
    strip p (left ++ item :: value) = left.dropWhile p ++ item :: value.rdropWhile p := by
  unfold strip
  rw [List.dropWhile_append]
  split
  · rename_i empty
    rw [List.isEmpty_iff.mp empty, List.dropWhile_cons_of_neg (by simp [solid])]
    exact @rdropWhile_append_cons _ p [] value item solid
  · exact rdropWhile_append_cons solid

theorem strip_dropWhile (value : List α) : strip p (value.dropWhile p) = strip p value := by
  unfold strip
  rw [List.dropWhile_idempotent]

theorem strip_rdropWhile (value : List α) : strip p (value.rdropWhile p) = strip p value := by
  obtain ⟨right, padded, same⟩ := exists_rdropWhile p value
  have dropped := @strip_pad _ p [] (value.rdropWhile p) right (by simp) padded
  rw [List.nil_append, ← same] at dropped
  exact dropped.symm

theorem strip_strip (value : List α) : strip p (strip p value) = strip p value :=
  (strip_rdropWhile (value.dropWhile p)).trans (strip_dropWhile value)

theorem strip_of_none (solid : ∀ item ∈ value, p item = false) : strip p value = value := by
  unfold strip
  rw [List.dropWhile_eq_self_iff.mpr, List.rdropWhile_eq_self_iff.mpr]
  · intro filled
    simp [solid _ (List.getLast_mem filled)]
  · intro filled
    simp [solid _ (List.getElem_mem filled)]

theorem strip_eq_nil_iff : strip p value = [] ↔ ∀ item ∈ value, p item = true := by
  constructor
  · intro empty
    obtain ⟨left, right, before, after, same⟩ := exists_strip p value
    rw [empty, List.append_nil] at same
    intro item member
    rw [same] at member
    exact (List.mem_append.mp member).elim (before item) (after item)
  · intro all
    have dropped := @strip_pad _ p value [] [] all (by simp)
    rw [List.append_nil, List.append_nil] at dropped
    exact dropped

theorem mem_strip_iff {item : α} (solid : p item = false) : item ∈ strip p value ↔ item ∈ value := by
  obtain ⟨left, right, before, after, same⟩ := exists_strip p value
  constructor
  · intro member
    rw [same]
    simp [member]
  · intro member
    rw [same] at member
    simp only [List.mem_append] at member
    rcases member with (first | kept) | last
    · rw [before item first] at solid
      simp at solid
    · exact kept
    · rw [after item last] at solid
      simp at solid

end Strip
