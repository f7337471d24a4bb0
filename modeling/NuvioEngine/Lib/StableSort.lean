import Mathlib.Data.List.Sort

/-!
Insertion sort is stable: elements the order does not separate keep whatever relation the
input had them in.
-/

namespace StableSort

variable {α : Type*} (order tie : α → α → Prop) [DecidableRel order] [Std.Total order]
  [IsTrans α order]

theorem orderedInsert_pairwise {value : α} {values : List α}
    (sorted : values.Pairwise fun left right => order left right ∧ (order right left → tie left right))
    (before : ∀ other ∈ values, tie value other) :
    (values.orderedInsert order value).Pairwise
      fun left right => order left right ∧ (order right left → tie left right) := by
  induction values with
  | nil => simp [List.orderedInsert]
  | cons first rest ih =>
      have parts := List.pairwise_cons.mp sorted
      simp only [List.orderedInsert]
      split
      · rename_i smaller
        refine List.pairwise_cons.mpr ⟨?_, sorted⟩
        intro other member
        refine ⟨?_, fun _ => before other member⟩
        rcases List.mem_cons.mp member with same | later
        · exact same ▸ smaller
        · exact IsTrans.trans _ _ _ smaller (parts.1 other later).1
      · rename_i notSmaller
        refine List.pairwise_cons.mpr ⟨?_, ?_⟩
        · intro other member
          rcases (List.mem_orderedInsert order).mp member with same | later
          · subst other
            exact ⟨(Std.Total.total value first).resolve_left notSmaller,
              fun impossible => absurd impossible notSmaller⟩
          · exact parts.1 other later
        · exact ih parts.2 fun other member => before other (List.mem_cons_of_mem _ member)

theorem insertionSort_pairwise {values : List α} (related : values.Pairwise tie) :
    (values.insertionSort order).Pairwise
      fun left right => order left right ∧ (order right left → tie left right) := by
  induction values with
  | nil => simp
  | cons first rest ih =>
      have parts := List.pairwise_cons.mp related
      rw [List.insertionSort_cons]
      apply orderedInsert_pairwise order tie (ih parts.2)
      intro other member
      exact parts.1 other ((List.mem_insertionSort order).mp member)

end StableSort
