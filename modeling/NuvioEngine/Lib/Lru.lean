import Mathlib.Algebra.Ring.Nat
import Mathlib.Algebra.BigOperators.Group.List.Basic
import Mathlib.Data.List.Induction

/-!
A map whose values have sizes and which keeps the most recently used entries within a capacity, as a
list of its entries, most recent first.
-/

namespace Lru

section Fit

variable {α β : Type*} (weight : α → ℕ)

def total (entries : List α) : ℕ := (entries.map weight).sum

/-- The longest prefix with a total weight within a budget. -/
def fit (budget : ℕ) : List α → List α
  | [] => []
  | entry :: rest => if weight entry ≤ budget then entry :: fit (budget - weight entry) rest else []

variable {weight} {budget : ℕ}

@[simp]
theorem total_nil : total weight [] = 0 := rfl

@[simp]
theorem total_cons (entry : α) (rest : List α) :
    total weight (entry :: rest) = weight entry + total weight rest := by
  simp [total]

@[simp]
theorem total_append (left right : List α) :
    total weight (left ++ right) = total weight left + total weight right := by
  simp [total]

theorem total_map (change : β → α) (entries : List β) :
    total weight (entries.map change) = total (fun entry => weight (change entry)) entries := by
  simp [total, Function.comp_def]

theorem fit_isPrefix (entries : List α) : fit weight budget entries <+: entries := by
  induction entries generalizing budget with
  | nil => exact List.prefix_rfl
  | cons entry rest ih =>
      rw [fit]
      split
      · exact (List.prefix_cons_inj entry).mpr ih
      · exact List.nil_prefix

theorem total_fit_le (entries : List α) : total weight (fit weight budget entries) ≤ budget := by
  induction entries generalizing budget with
  | nil => exact Nat.zero_le _
  | cons entry rest ih =>
      rw [fit]
      split
      · rename_i light
        have rest := @ih (budget - weight entry)
        rw [total_cons]
        omega
      · exact Nat.zero_le _

theorem prefix_fit {entries front : List α} (part : front <+: entries)
    (light : total weight front ≤ budget) : front <+: fit weight budget entries := by
  induction entries generalizing front budget with
  | nil => exact List.prefix_nil.mp part ▸ List.nil_prefix
  | cons entry rest ih =>
      cases front with
      | nil => exact List.nil_prefix
      | cons first front =>
          obtain ⟨rfl, inner⟩ := List.cons_prefix_cons.mp part
          rw [total_cons] at light
          rw [fit, if_pos (by omega)]
          exact (List.prefix_cons_inj first).mpr (ih inner (by omega))

theorem fit_of_le {entries : List α} (light : total weight entries ≤ budget) :
    fit weight budget entries = entries :=
  (fit_isPrefix entries).eq_of_length_le (prefix_fit List.prefix_rfl light).length_le

theorem fit_concat {entries : List α} {last : α} (heavy : budget < total weight (entries ++ [last])) :
    fit weight budget (entries ++ [last]) = fit weight budget entries := by
  induction entries generalizing budget with
  | nil =>
      simp only [List.nil_append, total_cons, total_nil, Nat.add_zero] at heavy
      simp [fit, heavy]
  | cons entry rest ih =>
      rw [List.cons_append, total_cons] at heavy
      rw [List.cons_append, fit, fit]
      split
      · rw [ih (by omega)]
      · rfl

theorem fit_map (change : β → α) (entries : List β) :
    fit weight budget (entries.map change) =
      (fit (fun entry => weight (change entry)) budget entries).map change := by
  induction entries generalizing budget with
  | nil => rfl
  | cons entry rest ih =>
      rw [List.map_cons, fit, fit]
      split
      · rw [ih, List.map_cons]
      · rfl

end Fit

end Lru

/-- The entries, most recent first, and how many were dropped for their size. -/
structure Lru (κ ν : Type*) where
  entries : List (κ × ν) := []
  evictions : ℕ := 0

namespace Lru

variable {κ ν : Type*} [DecidableEq κ]

def find (lru : Lru κ ν) (key : κ) : Option ν :=
  (lru.entries.find? fun entry => entry.1 = key).map Prod.snd

def removeIf (lru : Lru κ ν) (dropped : κ → Bool) : Lru κ ν :=
  { lru with entries := lru.entries.filter fun entry => !dropped entry.1 }

def get (lru : Lru κ ν) (key : κ) : Option ν × Lru κ ν :=
  match lru.find key with
  | none => (none, lru)
  | some value =>
      (some value, { lru with entries := (key, value) :: (lru.removeIf fun other => other = key).entries })

/-- Put a value that fits into the capacity in front of the entries that fit behind it. -/
def insert (lru : Lru κ ν) (size : ν → ℕ) (capacity : ℕ) (key : κ) (value : ν) : Lru κ ν :=
  let kept := fit (fun entry => size entry.2) (capacity - size value) lru.entries
  { entries := (key, value) :: kept, evictions := lru.evictions + (lru.entries.length - kept.length) }

end Lru
