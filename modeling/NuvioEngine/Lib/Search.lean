import Mathlib.Data.List.Infix

/-! The first place of a list where another one stands, and the cut it makes. -/

namespace Search

variable {α : Type*} [DecidableEq α]

def indexOf (needle : List α) : List α → Option ℕ
  | [] => none
  | item :: rest =>
      if needle.isPrefixOf (item :: rest) then some 0 else (indexOf needle rest).map (· + 1)

variable {needle text before after : List α} {index : ℕ}

theorem indexOf_eq_some (nonempty : needle ≠ []) (found : indexOf needle text = some index) :
    ∃ before after, text = before ++ needle ++ after ∧ before.length = index ∧
      ¬ needle <:+: before := by
  induction text generalizing index with
  | nil => simp [indexOf] at found
  | cons item rest ih =>
      rw [indexOf] at found
      split at found
      · rename_i here
        obtain rfl := Option.some.inj found
        obtain ⟨tail, same⟩ := List.isPrefixOf_iff_prefix.mp here
        exact ⟨[], tail, same.symm, rfl, fun inside => nonempty (List.eq_nil_of_infix_nil inside)⟩
      · rename_i apart
        obtain ⟨place, later, rfl⟩ := Option.map_eq_some_iff.mp found
        obtain ⟨before, after, rfl, rfl, outside⟩ := ih later
        refine ⟨item :: before, after, rfl, rfl, fun inside => ?_⟩
        rcases List.infix_cons_iff.mp inside with start | within
        · apply apart
          rw [List.isPrefixOf_iff_prefix, List.append_assoc]
          exact start.trans (List.prefix_append (item :: before) (needle ++ after))
        · exact outside within

theorem indexOf_append {first : α} {others : List α} (absent : first ∉ before) :
    indexOf (first :: others) (before ++ (first :: others) ++ after) = some before.length := by
  induction before with
  | nil => simp [indexOf]
  | cons item rest ih =>
      obtain ⟨different, later⟩ := not_or.mp (List.mem_cons.not.mp absent)
      have apart : (first :: others).isPrefixOf (item :: (rest ++ (first :: others) ++ after)) = false := by
        simp [List.isPrefixOf, different]
      rw [List.cons_append, List.cons_append, indexOf, apart, ih later]
      rfl

theorem indexOf_eq_none {first : α} (absent : first ∉ text) : indexOf [first] text = none := by
  induction text with
  | nil => rfl
  | cons item rest ih =>
      obtain ⟨different, later⟩ := not_or.mp (List.mem_cons.not.mp absent)
      simp [indexOf, different, ih later]

theorem not_infix_of_indexOf (nonempty : needle ≠ []) (missing : indexOf needle text = none) :
    ¬ needle <:+: text := by
  induction text with
  | nil => exact fun inside => nonempty (List.eq_nil_of_infix_nil inside)
  | cons item rest ih =>
      rw [indexOf] at missing
      split at missing
      · simp at missing
      · rename_i apart
        intro inside
        rcases List.infix_cons_iff.mp inside with start | within
        · exact apart (List.isPrefixOf_iff_prefix.mpr start)
        · exact ih (Option.map_eq_none_iff.mp missing) within

theorem indexOf_le (nonempty : needle ≠ []) (found : indexOf needle (before ++ needle ++ after) = some index) :
    index ≤ before.length := by
  induction before generalizing index with
  | nil =>
      cases needle with
      | nil => exact absurd rfl nonempty
      | cons first others =>
          rw [List.nil_append, List.cons_append, indexOf, if_pos] at found
          · exact Nat.le_of_eq (Option.some.inj found).symm
          · rw [List.isPrefixOf_iff_prefix, ← List.cons_append]
            exact List.prefix_append _ _
  | cons item rest ih =>
      rw [List.cons_append, List.cons_append, indexOf] at found
      split at found
      · rw [← Option.some.inj found]
        exact Nat.zero_le _
      · obtain ⟨place, later, rfl⟩ := Option.map_eq_some_iff.mp found
        exact Nat.succ_le_succ (ih later)

theorem indexOf_append_right (nonempty : needle ≠ []) (more : List α)
    (found : indexOf needle text = some index) :
    indexOf needle (text ++ more) = some index := by
  induction text generalizing index with
  | nil => simp [indexOf] at found
  | cons item rest ih =>
      rw [indexOf] at found
      rw [List.cons_append, indexOf]
      split at found
      · rename_i here
        rw [List.isPrefixOf_iff_prefix] at here
        rw [if_pos]
        · exact found
        · rw [List.isPrefixOf_iff_prefix, ← List.cons_append]
          exact here.trans (List.prefix_append _ _)
      · rename_i apart
        obtain ⟨place, later, rfl⟩ := Option.map_eq_some_iff.mp found
        rw [if_neg, ih later]
        · rfl
        · obtain ⟨before, after, rfl, _⟩ := indexOf_eq_some nonempty later
          intro start
          apply apart
          rw [List.isPrefixOf_iff_prefix] at start ⊢
          refine List.prefix_of_prefix_length_le start (List.prefix_append _ more) ?_
          simp only [List.length_cons, List.length_append]
          omega

theorem indexOf_eq_none_iff (nonempty : needle ≠ []) : indexOf needle text = none ↔ ¬ needle <:+: text := by
  constructor
  · exact not_infix_of_indexOf nonempty
  · intro outside
    cases found : indexOf needle text with
    | none => rfl
    | some place =>
        obtain ⟨before, after, cut, _⟩ := indexOf_eq_some nonempty found
        exact absurd ⟨before, after, cut.symm⟩ outside

end Search
