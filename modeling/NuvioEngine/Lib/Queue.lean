import Mathlib.Data.List.Basic

/-!
What stands ahead of what in a queue that is filled at its end and emptied at its front.
-/

namespace Queue

variable {α : Type*}

/-- Some place of the first item is ahead of some place of the second. -/
def Ahead (first second : α) : List α → Prop
  | [] => False
  | item :: rest => (first = item ∧ second ∈ rest) ∨ Ahead first second rest

variable {first second item : α} {queue : List α}

theorem not_ahead_nil : ¬ Ahead first second [] := id

theorem ahead_cons : Ahead first second (item :: queue) ↔
    (first = item ∧ second ∈ queue) ∨ Ahead first second queue := Iff.rfl

theorem Ahead.mem_first (ahead : Ahead first second queue) : first ∈ queue := by
  induction queue with
  | nil => exact absurd ahead not_ahead_nil
  | cons head rest ih =>
      rcases ahead with ⟨rfl, _⟩ | later
      · exact List.mem_cons_self
      · exact List.mem_cons_of_mem head (ih later)

theorem ahead_concat : Ahead first second (queue ++ [item]) ↔
    Ahead first second queue ∨ (first ∈ queue ∧ second = item) := by
  induction queue with
  | nil => simp [Ahead]
  | cons head rest ih =>
      simp only [List.cons_append, ahead_cons, ih, List.mem_append, List.mem_cons]
      tauto

end Queue
