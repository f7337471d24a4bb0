import Mathlib.Order.WellFounded

/-!
Runs of a system that takes one action after the other, the rule that what one action preserves
holds in every state a run reaches, and the rule that a rank brings an infinite run to a goal.
-/

namespace Transition

variable {σ α : Type*}

/-- The states reached from an initial one by actions that are possible where they are taken. -/
inductive Reachable (initial : σ → Prop) (possible : σ → α → Prop) (perform : σ → α → σ) : σ → Prop
  | start {state : σ} (begins : initial state) : Reachable initial possible perform state
  | step {state : σ} (action : α) (reached : Reachable initial possible perform state)
      (enabled : possible state action) : Reachable initial possible perform (perform state action)

variable {initial : σ → Prop} {possible : σ → α → Prop} {perform : σ → α → σ}

theorem Reachable.invariant {holds : σ → Prop} (starts : ∀ state, initial state → holds state)
    (keeps : ∀ state action, holds state → possible state action → holds (perform state action))
    {state : σ} (reached : Reachable initial possible perform state) : holds state := by
  induction reached with
  | start begins => exact starts _ begins
  | step action _ enabled ih => exact keeps _ action ih enabled

theorem Reachable.mono {wider : σ → α → Prop}
    (covered : ∀ state action, possible state action → wider state action) {state : σ}
    (reached : Reachable initial possible perform state) : Reachable initial wider perform state := by
  induction reached with
  | start begins => exact .start begins
  | step action _ enabled ih => exact ih.step action (covered _ action enabled)

/-- Every action of a list is possible where it is taken. -/
def Runs (possible : σ → α → Prop) (perform : σ → α → σ) : σ → List α → Prop
  | _, [] => True
  | state, action :: rest => possible state action ∧ Runs possible perform (perform state action) rest

instance Runs.decidable (possible : σ → α → Prop) (perform : σ → α → σ)
    [∀ state, DecidablePred (possible state)] (state : σ) (actions : List α) :
    Decidable (Runs possible perform state actions) :=
  match actions with
  | [] => instDecidableTrue
  | action :: rest =>
      have := Runs.decidable possible perform (perform state action) rest
      inferInstanceAs (Decidable (possible state action ∧ Runs possible perform _ rest))

theorem runs_append {before after : List α} {state : σ} :
    Runs possible perform state (before ++ after) ↔
      Runs possible perform state before ∧ Runs possible perform (before.foldl perform state) after := by
  induction before generalizing state with
  | nil => simp [Runs]
  | cons action rest ih =>
      simp only [List.cons_append, Runs, List.foldl_cons, ih]
      exact and_assoc.symm

theorem runs_concat {before : List α} {action : α} {state : σ} :
    Runs possible perform state (before ++ [action]) ↔
      Runs possible perform state before ∧ possible (before.foldl perform state) action := by
  rw [runs_append]
  simp [Runs]

theorem Runs.mono {other : σ → α → Prop} {actions : List α}
    (covered : ∀ state, ∀ action ∈ actions, possible state action → other state action) {state : σ}
    (runs : Runs possible perform state actions) : Runs other perform state actions := by
  induction actions generalizing state with
  | nil => trivial
  | cons action rest ih =>
      exact ⟨covered state action List.mem_cons_self runs.1,
        ih (fun later next member => covered later next (List.mem_cons_of_mem _ member)) runs.2⟩

theorem Reachable.run {actions : List α} {state : σ} (reached : Reachable initial possible perform state)
    (runs : Runs possible perform state actions) :
    Reachable initial possible perform (actions.foldl perform state) := by
  induction actions generalizing state with
  | nil => exact reached
  | cons action rest ih => exact ih (reached.step action runs.1) runs.2

/-- The state after actions that are chosen from the states they are taken in. -/
def follow (perform : σ → α → σ) (script : List (σ → α)) (state : σ) : σ :=
  script.foldl (fun current choose => perform current (choose current)) state

/-- Every chosen action is possible where it is taken. -/
def Follows (possible : σ → α → Prop) (perform : σ → α → σ) : σ → List (σ → α) → Prop
  | _, [] => True
  | state, choose :: rest => possible state (choose state) ∧
      Follows possible perform (perform state (choose state)) rest

theorem Reachable.follow {script : List (σ → α)} {state : σ}
    (reached : Reachable initial possible perform state)
    (follows : Follows possible perform state script) :
    Reachable initial possible perform (follow perform script state) := by
  induction script generalizing state with
  | nil => exact reached
  | cons choose rest ih => exact ih (reached.step (choose state) follows.1) follows.2

/-- An infinite run. -/
structure Behaves (possible : σ → α → Prop) (perform : σ → α → σ) (states : ℕ → σ) (actions : ℕ → α) :
    Prop where
  enabled : ∀ time, possible (states time) (actions time)
  next : ∀ time, states (time + 1) = perform (states time) (actions time)

theorem Behaves.reachable {states : ℕ → σ} {actions : ℕ → α}
    (behaves : Behaves possible perform states actions)
    (reached : Reachable initial possible perform (states 0)) (time : ℕ) :
    Reachable initial possible perform (states time) := by
  induction time with
  | zero => exact reached
  | succ time ih =>
      rw [behaves.next]
      exact ih.step (actions time) (behaves.enabled time)

/-- A goal is reached when no action raises a rank, helpful actions lower it until the goal is
reached, and helpful actions come again and again. -/
theorem Behaves.eventually {states : ℕ → σ} {actions : ℕ → α} {ρ : Type*} [Preorder ρ] [WellFoundedLT ρ]
    (behaves : Behaves possible perform states actions) (rank : σ → ρ) (holds goal : σ → Prop)
    (helpful : α → Prop) (invariant : ∀ time, holds (states time))
    (fair : ∀ time, ∃ later, time ≤ later ∧ helpful (actions later))
    (descends : ∀ state action, holds state → possible state action → ¬ goal state →
      rank (perform state action) < rank state ∨
        (rank (perform state action) = rank state ∧ ¬ helpful action)) (time : ℕ) :
    ∃ later, goal (states later) := by
  generalize here : rank (states time) = height
  induction height using WellFoundedLT.induction generalizing time with
  | ind height lower =>
      obtain ⟨later, after, helps⟩ := fair time
      induction gap : later - time generalizing time with
      | zero =>
          obtain rfl : later = time := by omega
          by_cases reached : goal (states later)
          · exact ⟨later, reached⟩
          · rcases descends _ _ (invariant later) (behaves.enabled later) reached with less | ⟨_, idle⟩
            · exact lower _ (here ▸ less) (later + 1) (by rw [behaves.next])
            · exact absurd helps idle
      | succ gap ih =>
          by_cases reached : goal (states time)
          · exact ⟨time, reached⟩
          · rcases descends _ _ (invariant time) (behaves.enabled time) reached with less | ⟨same, _⟩
            · exact lower _ (here ▸ less) (time + 1) (by rw [behaves.next])
            · exact ih (time + 1) (by rw [behaves.next, same, here]) (by omega) (by omega)

end Transition
