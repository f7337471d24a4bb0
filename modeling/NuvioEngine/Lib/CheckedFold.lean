import Mathlib.Algebra.Ring.Nat
import Mathlib.Algebra.BigOperators.Group.List.Basic

/-!
Loops that check every item before they take it, and what such a check comes to when it is about
the item itself and about a counter with a limit.
-/

namespace CheckedFold

variable {σ α : Type*} (good : σ → α → Prop) (next : σ → α → σ)

def Accepts : List α → σ → Prop
  | [], _ => True
  | item :: rest, state => good state item ∧ Accepts rest (next state item)

variable {good next}

theorem accepts_iff_counted (count : σ → ℕ) (weight : α → ℕ) {passes : α → Prop} {limit : ℕ}
    {items : List α}
    (checks : ∀ state, ∀ item ∈ items, count state ≤ limit →
      (good state item ↔ passes item ∧ count state + weight item ≤ limit))
    (counts : ∀ state item, count (next state item) = count state + weight item) {state : σ}
    (within : count state ≤ limit) :
    Accepts good next items state ↔
      (∀ item ∈ items, passes item) ∧ count state + (items.map weight).sum ≤ limit := by
  induction items generalizing state with
  | nil => simpa [Accepts] using within
  | cons item rest ih =>
      have first := checks state item List.mem_cons_self within
      have others := fun (bound : count (next state item) ≤ limit) =>
        ih (fun other later member => checks other later (List.mem_cons_of_mem _ member)) bound
      simp only [Accepts, List.forall_mem_cons, List.map_cons, List.sum_cons]
      rw [first]
      constructor
      · rintro ⟨⟨own, bound⟩, later⟩
        obtain ⟨all, total⟩ := (others (by rw [counts]; exact bound)).mp later
        rw [counts] at total
        exact ⟨⟨own, all⟩, by omega⟩
      · rintro ⟨⟨own, all⟩, total⟩
        have bound : count state + weight item ≤ limit := by omega
        refine ⟨⟨own, bound⟩, (others (by rw [counts]; exact bound)).mpr ⟨all, ?_⟩⟩
        rw [counts]
        omega

end CheckedFold
