import Mathlib.Data.List.Infix

/-! The shortest prefix of a list that is enough for a purpose, or the whole list when none is. -/

variable {α : Type*}

structure ShortestPrefix (enough : List α → Prop) (all taken : List α) : Prop where
  isPrefix : taken <+: all
  reaches : enough taken ∨ taken = all
  shortest : ∀ fewer, fewer <+: taken → enough fewer → fewer = taken

namespace ShortestPrefix

variable {enough : List α → Prop}

/-- A loop that takes one item after the other while it is not enough takes the shortest prefix. -/
theorem of_loop {front back : List α}
    (lacking : ∀ before item after, front = before ++ item :: after → ¬ enough before)
    (stops : back = [] ∨ enough front) : ShortestPrefix enough (front ++ back) front where
  isPrefix := List.prefix_append front back
  reaches := by
    rcases stops with rfl | met
    · exact Or.inr (List.append_nil front).symm
    · exact Or.inl met
  shortest := by
    rintro fewer ⟨rest, rfl⟩ met
    cases rest with
    | nil => exact (List.append_nil fewer).symm
    | cons item after => exact absurd met (lacking fewer item after rfl)

end ShortestPrefix
