import Mathlib.Data.Set.Insert
import Mathlib.Data.List.Basic

/-!
Lists as the sets of their members.
-/

namespace Members

variable {α : Type*}

theorem nil_union (set : Set α) : {item | item ∈ ([] : List α)} ∪ set = set := by
  simp

theorem cons_union (first : α) (rest : List α) (set : Set α) :
    {item | item ∈ first :: rest} ∪ set = {item | item ∈ rest} ∪ insert first set := by
  ext item
  simp only [List.mem_cons, Set.mem_union, Set.mem_ofPred_eq, Set.mem_insert_iff]
  tauto

variable [DecidableEq α]

theorem sdiff_singleton (items : List α) (dropped : α) :
    {item | item ∈ items} \ {dropped} = {item | item ∈ items.filter fun item => item ≠ dropped} := by
  ext item
  simp

theorem filter_ne_self {items : List α} {dropped : α} (absent : dropped ∉ items) :
    (items.filter fun item => item ≠ dropped) = items := by
  rw [List.filter_eq_self]
  intro item member
  exact decide_eq_true fun same => absent (same ▸ member)

theorem filter_absent (items : List α) : (items.filter fun item => item ∉ items) = [] := by
  simp

/-- A list that another one extends, and what is new in the other. -/
theorem filter_union {before after : List α} (grown : before ⊆ after) :
    {item | item ∈ after.filter fun item => item ∉ before} ∪ {item | item ∈ before} =
      {item | item ∈ after} := by
  ext item
  simp only [List.mem_filter, decide_eq_true_eq, Set.mem_union, Set.mem_ofPred_eq]
  constructor
  · rintro (⟨member, _⟩ | member)
    · exact member
    · exact grown member
  · intro member
    by_cases early : item ∈ before
    · exact Or.inr early
    · exact Or.inl ⟨member, early⟩

end Members
