import NuvioEngine.Api.OutputStructCore

/-!
When calls that reuse a caller's buffer stay inside it: the first delivered struct replaces the
caller's size by the library's own, so the second one is copied whole.
-/

namespace NuvioEngine.Api

/-- The call finds something to deliver. -/
def Call.Delivers (struct : OutputStruct) (call : Call) : Prop :=
  ∃ runtime snapshot, call.engine = some runtime ∧ available struct call runtime = .ok snapshot

instance (struct : OutputStruct) (call : Call) : Decidable (call.Delivers struct) :=
  match engine : call.engine with
  | none => .isFalse fun ⟨_, _, present, _⟩ => by simp [engine] at present
  | some runtime =>
      match found : available struct call runtime with
      | .error _ => .isFalse fun ⟨_, _, present, ok⟩ => by
          rw [engine, Option.some.injEq] at present
          simp [← present, found] at ok
      | .ok snapshot => .isTrue ⟨runtime, snapshot, engine, found⟩

theorem le32_structSize {value : Nat} (fits : value < 2 ^ 32) (memory : Memory)
    (bytes : List UInt8) : (memory.store 0 (le32 value ++ bytes)).structSize = value := by
  simp [Memory.structSize, Memory.store, le32]
  omega

theorem v1Size_le_size (struct : OutputStruct) : struct.v1Size ≤ struct.size := by
  cases struct <;> decide +kernel

theorem size_lt (struct : OutputStruct) : struct.size < 2 ^ 32 := by
  cases struct <;> decide +kernel

theorem four_le_v1Size (struct : OutputStruct) : 4 ≤ struct.v1Size := by
  cases struct <;> decide

theorem snapshot_length {struct : OutputStruct} (snapshot : Snapshot struct) :
    snapshot.bytes.length = struct.size := by
  rw [← snapshot.sized, Snapshot.bytes, List.length_append]
  rfl

theorem function_eq (struct : OutputStruct) : struct.function = fillBuffer struct := by
  cases struct <;> rfl

theorem fillBuffer_delivers {struct : OutputStruct} {call : Call} {buffer : Buffer}
    (accepted : struct.v1Size ≤ buffer.memory.structSize) (delivers : call.Delivers struct) :
    (fillBuffer struct call buffer).1.memory.structSize = struct.size ∧
      (fillBuffer struct call buffer).1.writes =
        buffer.writes ++ [(0, min buffer.memory.structSize struct.size)] := by
  obtain ⟨runtime, snapshot, engine, found⟩ := delivers
  have head := four_le_v1Size struct
  have newer := v1Size_le_size struct
  have length := snapshot_length snapshot
  simp only [fillBuffer, engine, Nat.not_lt.mpr accepted, if_false, found, memcpy]
  constructor
  · have split : snapshot.bytes.take (min buffer.memory.structSize struct.size) =
        le32 struct.size ++ snapshot.body.take (min buffer.memory.structSize struct.size - 4) := by
      rw [Snapshot.bytes, List.take_append, List.take_of_length_le (by simp [le32]; omega)]
      rfl
    rw [split]
    exact le32_structSize (size_lt struct) _ _
  · simp only [List.length_take, length]
    congr 3
    omega

theorem fillBuffer_keeps {struct : OutputStruct} {call : Call} (buffer : Buffer)
    (nothing : ¬ call.Delivers struct) : (fillBuffer struct call buffer).1 = buffer := by
  unfold fillBuffer
  split
  · rfl
  · rename_i runtime engine
    simp only
    split
    · rfl
    · split
      · rfl
      · rename_i snapshot found
        exact absurd ⟨runtime, snapshot, engine, found⟩ nothing

theorem runCalls_cons (struct : OutputStruct) (call : Call) (rest : List Call) (buffer : Buffer) :
    runCalls struct (call :: rest) buffer =
      runCalls struct rest (fillBuffer struct call buffer).1 := by
  rw [runCalls, List.foldl_cons, function_eq, runCalls, function_eq]

/-- How many of the calls find something to deliver. -/
def delivered (struct : OutputStruct) (calls : List Call) : Nat :=
  calls.countP fun call => call.Delivers struct

/-- The writes of a run: the first delivered struct is cut to the size the caller set, all later
ones have the size of the library's struct. -/
def deliveryWrites (callerSize librarySize : Nat) : Nat → List (Nat × Nat)
  | 0 => []
  | later + 1 => (0, min callerSize librarySize) :: List.replicate later (0, librarySize)

theorem runCalls_writes (struct : OutputStruct) (calls : List Call) (buffer : Buffer)
    (accepted : struct.v1Size ≤ buffer.memory.structSize) :
    (runCalls struct calls buffer).writes =
      buffer.writes ++ deliveryWrites buffer.memory.structSize struct.size (delivered struct calls) := by
  induction calls generalizing buffer with
  | nil => simp [runCalls, delivered, deliveryWrites]
  | cons call rest ih =>
      rw [runCalls_cons]
      by_cases delivers : call.Delivers struct
      · obtain ⟨size, writes⟩ := fillBuffer_delivers accepted delivers
        have more : delivered struct (call :: rest) = delivered struct rest + 1 := by
          simp [delivered, delivers]
        rw [ih _ (size ▸ v1Size_le_size struct), writes, size, more]
        cases delivered struct rest with
        | zero => simp [deliveryWrites]
        | succ later => simp [deliveryWrites, List.replicate_succ]
      · have same : delivered struct (call :: rest) = delivered struct rest := by
          simp [delivered, delivers]
        rw [fillBuffer_keeps buffer delivers, ih buffer accepted, same]

theorem store_head (memory : Memory) {offset : Nat} (bytes : List UInt8) (later : 4 ≤ offset) :
    (memory.store offset bytes).structSize = memory.structSize := by
  unfold Memory.structSize Memory.store
  simp only [show ¬ offset ≤ 0 by omega, show ¬ offset ≤ 1 by omega, show ¬ offset ≤ 2 by omega,
    show ¬ offset ≤ 3 by omega, if_false]

theorem initSized_structSize (struct : OutputStruct) (memory : Memory) {structSize : Nat}
    (head : 4 ≤ structSize) (fits : structSize < 2 ^ 32) :
    (initSized struct memory structSize).structSize = structSize := by
  have initialized : (initializeStructure memory structSize).structSize = structSize := by
    simp only [initializeStructure, Nat.not_lt.mpr head, if_false]
    simpa using le32_structSize fits (memory.store 0 (List.replicate structSize 0)) []
  unfold initSized
  cases struct with
  | event =>
      simp only
      split
      · rw [store_head _ _ (by decide)]
        exact initialized
      · exact initialized
  | file => exact initialized
  | stats => exact initialized
  | streamStats => exact initialized

/-- Every call stays inside a buffer of `structSize` bytes exactly when the library's struct is no
larger than the buffer or at most one of the calls delivers something. -/
theorem runCalls_inside_iff (struct : OutputStruct) (memory : Memory) (structSize : Nat)
    (versioned : struct.v1Size ≤ structSize) (fits : structSize < 2 ^ 32) (calls : List Call) :
    (∀ write ∈ (runCalls struct calls ⟨initSized struct memory structSize, []⟩).writes,
        write.1 + write.2 ≤ structSize) ↔
      struct.size ≤ structSize ∨ delivered struct calls ≤ 1 := by
  have head := four_le_v1Size struct
  have held := initSized_structSize struct memory (le_trans head versioned) fits
  rw [runCalls_writes struct calls _ (by simpa only [held] using versioned)]
  simp only [held, List.nil_append]
  rcases delivered struct calls with _ | _ | more
  · simp [deliveryWrites]
  · simp [deliveryWrites]
  · simp only [deliveryWrites, List.mem_cons, List.mem_replicate, forall_eq_or_imp]
    constructor
    · rintro ⟨_, inside⟩
      exact Or.inl (by simpa using inside (0, struct.size))
    · rintro (small | few)
      · refine ⟨by simp, ?_⟩
        rintro write ⟨_, rfl⟩
        simpa using small
      · omega

/-- A runtime that has nothing but statistics. -/
def quietRuntime : Runtime where
  events := []
  files := fun _ => none
  stats := ⟨List.replicate 324 0, by rw [List.length_replicate]; decide +kernel⟩
  streamStats := fun _ => none

/-- A buffer of the first version's size that is used for one call stays intact. -/
theorem runCalls_inside_once :
    OutputStruct.stats.v1Size ≤ 112 ∧
    ∀ write ∈ (runCalls .stats [{ engine := some quietRuntime }]
      ⟨initSized .stats (fun _ => 0) 112, []⟩).writes, write.1 + write.2 ≤ 112 :=
  ⟨by decide +kernel, (runCalls_inside_iff .stats (fun _ => 0) 112 (by decide +kernel) (by decide)
    [{ engine := some quietRuntime }]).mpr (Or.inr List.countP_le_length)⟩

/-- Two statistics calls on one buffer of the first version's size: the second writes 328 bytes. -/
theorem getStats_overruns :
    ¬ ∀ (struct : OutputStruct) (memory : Memory) (structSize : Nat), struct.v1Size ≤ structSize →
      structSize < 2 ^ 32 → ∀ calls : List Call,
        ∀ write ∈ (runCalls struct calls ⟨initSized struct memory structSize, []⟩).writes,
          write.1 + write.2 ≤ structSize := by
  intro always
  have inside := always .stats (fun _ => 0) 112 (by decide +kernel) (by decide)
    [{ engine := some quietRuntime }, { engine := some quietRuntime }]
  have held := initSized_structSize .stats (fun _ => 0) (show 4 ≤ 112 by decide) (by decide)
  rw [runCalls_writes .stats _ _ (by rw [held]; decide +kernel)] at inside
  have second := inside (0, OutputStruct.stats.size) (by
    rw [List.nil_append, show delivered .stats [{ engine := some quietRuntime },
      { engine := some quietRuntime }] = 2 by decide +kernel]
    simp [deliveryWrites])
  exact absurd second (by decide +kernel)

end NuvioEngine.Api
