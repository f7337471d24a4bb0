import Mathlib.Tactic.TypeStar

/-!
Programs that act on a state, can throw, and show every state they pass through. A program may also
stay unfinished, when the outcomes it is run on end before it does.
-/

namespace Traced

inductive Ending (ε α : Type) where
  | returned (value : α)
  | thrown (error : ε)
  | unfinished
  deriving DecidableEq, Repr

/-- The states a run passes through, the last of them, and how it ends. -/
structure Trace (σ ε α : Type) where
  visited : List σ
  last : σ
  ending : Ending ε α

/-- A program. -/
def Act (σ ε α : Type) := σ → Trace σ ε α

variable {σ ε α β : Type}

namespace Act

def return_ (value : α) : Act σ ε α := fun state => ⟨[], state, .returned value⟩

def throw_ (error : ε) : Act σ ε α := fun state => ⟨[], state, .thrown error⟩

def wait : Act σ ε α := fun state => ⟨[], state, .unfinished⟩

/-- One change of the state, which the trace shows, and the value it gives. -/
def step (change : σ → σ) (value : σ → α) : Act σ ε α := fun state =>
  ⟨[change state], change state, .returned (value state)⟩

def andThen (first : Act σ ε α) (next : α → Act σ ε β) : Act σ ε β := fun state =>
  let run := first state
  match run.ending with
  | .returned value =>
      let rest := next value run.last
      ⟨run.visited ++ rest.visited, rest.last, rest.ending⟩
  | .thrown error => ⟨run.visited, run.last, .thrown error⟩
  | .unfinished => ⟨run.visited, run.last, .unfinished⟩

def catching (first : Act σ ε α) (handler : ε → Act σ ε α) : Act σ ε α := fun state =>
  let run := first state
  match run.ending with
  | .thrown error =>
      let rest := handler error run.last
      ⟨run.visited ++ rest.visited, rest.last, rest.ending⟩
  | .returned value => ⟨run.visited, run.last, .returned value⟩
  | .unfinished => ⟨run.visited, run.last, .unfinished⟩

end Act

instance : Monad (Act σ ε) where
  pure := Act.return_
  bind := Act.andThen

instance : MonadExceptOf ε (Act σ ε) where
  throw := Act.throw_
  tryCatch := Act.catching

@[simp]
theorem pure_apply (value : α) (state : σ) :
    (pure value : Act σ ε α) state = ⟨[], state, .returned value⟩ := rfl

@[simp]
theorem throw_apply (error : ε) (state : σ) :
    (throw error : Act σ ε α) state = ⟨[], state, .thrown error⟩ := rfl

@[simp]
theorem wait_apply (state : σ) : (Act.wait : Act σ ε α) state = ⟨[], state, .unfinished⟩ := rfl

@[simp]
theorem step_apply (change : σ → σ) (value : σ → α) (state : σ) :
    (Act.step change value : Act σ ε α) state = ⟨[change state], change state, .returned (value state)⟩ := rfl

/-- From a state of the first kind, the run keeps to the states of the second kind and ends as the
other two say. -/
structure Meets (before : σ → Prop) (act : Act σ ε α) (during : σ → Prop) (returned : α → σ → Prop)
    (thrown : ε → σ → Prop) : Prop where
  visited : ∀ state, before state → ∀ passed ∈ (act state).visited, during passed
  returns : ∀ state, before state → ∀ value, (act state).ending = .returned value →
    returned value (act state).last
  throws : ∀ state, before state → ∀ error, (act state).ending = .thrown error →
    thrown error (act state).last

variable {before middle during : σ → Prop} {returned : α → σ → Prop} {thrown caught : ε → σ → Prop}

theorem Meets.mono {weaker : σ → Prop} {kept : σ → Prop} {given : α → σ → Prop} {raised : ε → σ → Prop}
    {act : Act σ ε α} (meets : Meets weaker act kept given raised) (enough : ∀ state, before state → weaker state)
    (keeps : ∀ state, kept state → during state) (returns : ∀ value state, given value state → returned value state)
    (throws : ∀ error state, raised error state → thrown error state) :
    Meets before act during returned thrown where
  visited := fun state holds passed member => keeps passed (meets.visited state (enough state holds) passed member)
  returns := fun state holds value same => returns value _ (meets.returns state (enough state holds) value same)
  throws := fun state holds error same => throws error _ (meets.throws state (enough state holds) error same)

theorem meets_pure (value : α) (holds : ∀ state, before state → returned value state) :
    Meets before (pure value : Act σ ε α) during returned thrown := by
  constructor
  · simp
  · intro state started other same
    simp only [pure_apply, Ending.returned.injEq] at same ⊢
    rw [← same]
    exact holds state started
  · simp

theorem meets_throw (error : ε) (holds : ∀ state, before state → thrown error state) :
    Meets before (throw error : Act σ ε α) during returned thrown := by
  constructor
  · simp
  · simp
  · intro state started other same
    simp only [throw_apply, Ending.thrown.injEq] at same ⊢
    rw [← same]
    exact holds state started

theorem meets_wait : Meets before (Act.wait : Act σ ε α) during returned thrown := by
  constructor <;> simp

theorem meets_step {change : σ → σ} {value : σ → α} (keeps : ∀ state, before state → during (change state))
    (holds : ∀ state, before state → returned (value state) (change state)) :
    Meets before (Act.step change value : Act σ ε α) during returned thrown := by
  constructor
  · intro state started passed member
    obtain rfl := List.mem_singleton.mp member
    exact keeps state started
  · intro state started other same
    simp only [step_apply, Ending.returned.injEq] at same ⊢
    rw [← same]
    exact holds state started
  · simp

theorem meets_bind {first : Act σ ε α} {next : α → Act σ ε β} {given : α → σ → Prop} {final : β → σ → Prop}
    (starts : Meets before first during given thrown) (goes : ∀ value, Meets (given value) (next value) during final thrown) :
    Meets before (first >>= next) during final thrown := by
  have unfolded : ∀ state, (first >>= next) state = Act.andThen first next state := fun _ => rfl
  constructor
  · intro state started passed member
    rw [unfolded, Act.andThen] at member
    cases ended : (first state).ending with
    | returned value =>
        simp only [ended, List.mem_append] at member
        rcases member with early | late
        · exact starts.visited state started passed early
        · exact (goes value).visited _ (starts.returns state started value ended) passed late
    | thrown error =>
        simp only [ended] at member
        exact starts.visited state started passed member
    | unfinished =>
        simp only [ended] at member
        exact starts.visited state started passed member
  · intro state started value same
    rw [unfolded, Act.andThen] at same ⊢
    cases ended : (first state).ending with
    | returned middle =>
        simp only [ended] at same ⊢
        exact (goes middle).returns _ (starts.returns state started middle ended) value same
    | thrown error => simp [ended] at same
    | unfinished => simp [ended] at same
  · intro state started error same
    rw [unfolded, Act.andThen] at same ⊢
    cases ended : (first state).ending with
    | returned middle =>
        simp only [ended] at same ⊢
        exact (goes middle).throws _ (starts.returns state started middle ended) error same
    | thrown other =>
        simp only [ended, Ending.thrown.injEq] at same ⊢
        obtain rfl := same
        exact starts.throws state started other ended
    | unfinished => simp [ended] at same

theorem meets_catch {first : Act σ ε α} {handler : ε → Act σ ε α}
    (starts : Meets before first during returned caught)
    (handles : ∀ error, Meets (caught error) (handler error) during returned thrown) :
    Meets before (tryCatch first handler) during returned thrown := by
  have unfolded : ∀ state, (tryCatch first handler) state = Act.catching first handler state := fun _ => rfl
  constructor
  · intro state started passed member
    rw [unfolded, Act.catching] at member
    cases ended : (first state).ending with
    | returned value =>
        simp only [ended] at member
        exact starts.visited state started passed member
    | thrown error =>
        simp only [ended, List.mem_append] at member
        rcases member with early | late
        · exact starts.visited state started passed early
        · exact (handles error).visited _ (starts.throws state started error ended) passed late
    | unfinished =>
        simp only [ended] at member
        exact starts.visited state started passed member
  · intro state started value same
    rw [unfolded, Act.catching] at same ⊢
    cases ended : (first state).ending with
    | returned middle =>
        simp only [ended, Ending.returned.injEq] at same ⊢
        obtain rfl := same
        exact starts.returns state started middle ended
    | thrown error =>
        simp only [ended] at same ⊢
        exact (handles error).returns _ (starts.throws state started error ended) value same
    | unfinished => simp [ended] at same
  · intro state started error same
    rw [unfolded, Act.catching] at same ⊢
    cases ended : (first state).ending with
    | returned middle => simp [ended] at same
    | thrown other =>
        simp only [ended] at same ⊢
        exact (handles other).throws _ (starts.throws state started other ended) error same
    | unfinished => simp [ended] at same

end Traced
