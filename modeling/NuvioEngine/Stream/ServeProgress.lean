import Mathlib.Data.List.TakeDrop
import NuvioEngine.Stream.StreamBody

/-!
The loop that serves a piece makes progress: whatever the worker publishes, withdraws or
completes, whatever the payload file and the client do, each turn returns, moves the cursor to the
end of a block or of the slice, or gives up the payload file for good.
-/

namespace NuvioEngine.Stream

/-- The worker completes a waiter with data or with an error. -/
def Round.Complete (round : Round) : Prop :=
  ∀ data error, WorkerAction.complete data error ∈ round.actions → data.isSome ∨ error ≠ ""

/-- A waiter that is done has data or an error. -/
def PieceWaiter.Answered (waiter : PieceWaiter) : Prop :=
  waiter.done = true → waiter.data.isSome ∨ waiter.error ≠ ""

/-- What a read of the payload file up to `unverifiedEnd` offers the writer. -/
def offeredUnverified (route : StreamRoute) (slice : PieceSlice) (round : Round)
    (unverifiedEnd : Nat) (state : ServeState) : Option (List Source) :=
  let absolute := add64 slice.pieceStart state.cursor
  if absolute < route.fileOffset then none
  else readExact (state.payload.getD round.opens) round.file (sub64 absolute route.fileOffset)
    (unverifiedEnd - state.cursor)

/-- The chunk that a turn of the loop gives to the writer, if it calls it. -/
def offered (route : StreamRoute) (slice : PieceSlice) (round : Round) (before : ServeState) :
    Option (List Source) :=
  let state := { before with waiter := round.actions.foldl WorkerAction.apply before.waiter }
  let runEnd := finishedRunEnd state.waiter.finishedBlocks state.cursor slice.stop
  if round.stopRequested || round.demandCancelled ||
      (state.waiter.done && state.waiter.error != "") then none
  else if state.waiter.done then
    match state.waiter.data with
    | some verified =>
        if slice.stop > verified.length then none
        else some ((List.range (slice.stop - state.cursor)).map fun k =>
          .verified verified (state.cursor + k))
    | none => offeredUnverified route slice round state.cursor state
  else if state.payloadReadable && runEnd > state.cursor then
    offeredUnverified route slice round runEnd state
  else none

theorem serveRound_delivered (route : StreamRoute) (slice : PieceSlice) (round : Round)
    (before : ServeState) :
    (serveRound route slice round before).1.log.delivered = before.log.delivered ++
      if round.writerAccepts then (offered route slice round before).getD [] else [] := by
  have unverified : ∀ unverifiedEnd state,
      (serveUnverified route slice round unverifiedEnd state).1.log.delivered =
        state.log.delivered ++ if round.writerAccepts then
          (offeredUnverified route slice round unverifiedEnd state).getD [] else [] := by
    intro unverifiedEnd state
    unfold serveUnverified offeredUnverified
    simp only
    split
    · simp
    · split
      · rename_i unread
        simp [unread]
      · rename_i buffer read
        cases accepts : round.writerAccepts <;> simp [read, StreamLog.deliver, ServeState.abandon]
  unfold serveRound offered
  simp only
  split
  · simp [ServeState.abandon]
  · split
    · cases data : (round.actions.foldl WorkerAction.apply before.waiter).data with
      | some verified =>
          simp only
          unfold serveVerified
          split
          · simp
          · cases accepts : round.writerAccepts <;> simp [StreamLog.deliver]
      | none => exact unverified _ _
    · split
      · exact unverified _ _
      · simp [ServeState.abandon]

/-- The number of turns that the loop takes. -/
def serveTurns (route : StreamRoute) (slice : PieceSlice) : List Round → ServeState → Nat
  | [], _ => 0
  | round :: rest, state =>
      if state.cursor < slice.stop then
        match serveRound route slice round state with
        | (next, none) => serveTurns route slice rest next + 1
        | (_, some _) => 1
      else 0

/-- The number of blocks that the positions from `start` to before `stop` meet. -/
def blocksMet (start stop : Nat) : Nat :=
  if start < stop then (stop - 1) / blockBytes - start / blockBytes + 1 else 0

/-- A turn returns, moves the cursor within the slice, or gives up the payload file. -/
def Progresses (slice : PieceSlice) (before : ServeState) (after : ServeState × Option Bool) :
    Prop :=
  after.2.isSome ∨
    (before.cursor < after.1.cursor ∧ after.1.cursor ≤ slice.stop) ∨
    (before.payloadReadable = true ∧ after.1.payloadReadable = false)

theorem apply_answered (actions : List WorkerAction) {waiter : PieceWaiter}
    (answered : waiter.Answered)
    (complete : ∀ data error, WorkerAction.complete data error ∈ actions →
      data.isSome ∨ error ≠ "") :
    (actions.foldl WorkerAction.apply waiter).Answered := by
  induction actions generalizing waiter with
  | nil => exact answered
  | cons action rest ih =>
      rw [List.foldl_cons]
      refine ih ?_ fun data error member => complete data error (List.mem_cons_of_mem _ member)
      cases action with
      | publish blocks =>
          simp only [WorkerAction.apply, publishBlocks]
          split <;> exact answered
      | complete data error =>
          simp only [WorkerAction.apply, completeWaiter]
          split
          · exact answered
          · exact fun _ => complete data error List.mem_cons_self

theorem finishedRunEnd_aligned (blocks : List Bool) (cursor limit : Nat) :
    finishedRunEnd blocks cursor limit = limit ∨
      blockBytes ∣ finishedRunEnd blocks cursor limit := by
  unfold finishedRunEnd
  rcases min_choice (mul64 (skipFinished (blocks.drop (cursor / blockBytes))
    (cursor / blockBytes)) blockBytes) limit with first | second
  · right
    rw [first, mul64, Nat.dvd_mod_iff (by decide)]
    exact Nat.dvd_mul_left _ _
  · exact .inl second

theorem blocksMet_lt {cursor next stop : Nat} (forward : cursor < next)
    (within : next ≤ stop) (aligned : next = stop ∨ blockBytes ∣ next) :
    blocksMet next stop < blocksMet cursor stop := by
  have width : 0 < blockBytes := by decide
  have below : cursor / blockBytes ≤ (stop - 1) / blockBytes := Nat.div_le_div_right (by omega)
  unfold blocksMet
  rw [if_pos (Nat.lt_of_lt_of_le forward within)]
  split
  · rename_i short
    obtain ⟨block, rfl⟩ : blockBytes ∣ next := aligned.resolve_left (Nat.ne_of_lt short)
    have later : cursor / blockBytes < block :=
      (Nat.div_lt_iff_lt_mul width).mpr (Nat.mul_comm blockBytes block ▸ forward)
    have upto : block ≤ (stop - 1) / blockBytes := by
      rw [Nat.le_div_iff_mul_le width, Nat.mul_comm]
      omega
    rw [Nat.mul_div_cancel_left _ width]
    omega
  · exact Nat.succ_pos _

section Turns

variable {route : StreamRoute} {slice : PieceSlice} {round : Round} {state : ServeState}

/-- A read of the payload file moves the cursor to the end of the read, gives the file up, or
ends the loop; the waiter is left alone while the loop goes on. -/
theorem serveUnverified_going {unverifiedEnd : Nat} {next : ServeState}
    (going : serveUnverified route slice round unverifiedEnd state = (next, none)) :
    next.waiter = state.waiter ∧
      (next.cursor = unverifiedEnd ∧ next.payloadReadable = state.payloadReadable ∨
        next.cursor = state.cursor ∧ next.payloadReadable = false) := by
  unfold serveUnverified at going
  simp only at going
  split at going
  · simp only [Prod.mk.injEq, and_true] at going
    subst going
    exact ⟨rfl, .inr ⟨rfl, rfl⟩⟩
  · split at going
    · simp only [Prod.mk.injEq, and_true] at going
      subst going
      exact ⟨rfl, .inr ⟨rfl, rfl⟩⟩
    · split at going
      · simp at going
      · simp only [Prod.mk.injEq, and_true] at going
        subst going
        exact ⟨rfl, .inl ⟨rfl, rfl⟩⟩

/-- The loop goes on only from the unverified path: a waiter that is done has an error or data,
and both end the loop. -/
theorem serveRound_going (answered : state.waiter.Answered) (complete : round.Complete)
    {next : ServeState} (going : serveRound route slice round state = (next, none)) :
    next.waiter.Answered ∧ state.payloadReadable = true ∧
      (state.cursor < next.cursor ∧ next.cursor ≤ slice.stop ∧
          (next.cursor = slice.stop ∨ blockBytes ∣ next.cursor) ∧ next.payloadReadable = true ∨
        next.cursor = state.cursor ∧ next.payloadReadable = false) := by
  have kept := apply_answered round.actions answered complete
  unfold serveRound at going
  simp only at going
  split at going
  · simp at going
  · rename_i calm
    split at going
    · rename_i finished
      split at going
      · unfold serveVerified at going
        split at going
        · simp at going
        · split at going <;> simp at going
      · rename_i missing
        rcases kept finished with given | failed
        · simp [missing] at given
        · simp [finished, failed] at calm
    · split at going
      · rename_i ready
        simp only [Bool.and_eq_true, decide_eq_true_eq] at ready
        obtain ⟨waiter, moved⟩ := serveUnverified_going going
        refine ⟨waiter ▸ kept, ready.1, ?_⟩
        rcases moved with ⟨cursor, readable⟩ | ⟨cursor, unreadable⟩
        · exact .inl ⟨cursor ▸ ready.2, cursor ▸ finishedRunEnd_le _ _ _,
            cursor ▸ finishedRunEnd_aligned _ _ _, readable.trans ready.1⟩
        · exact .inr ⟨cursor, unreadable⟩
      · simp at going

theorem serveRound_progresses (answered : state.waiter.Answered) (complete : round.Complete) :
    Progresses slice state (serveRound route slice round state) := by
  cases result : (serveRound route slice round state).2 with
  | some ok => exact .inl (by rw [result]; rfl)
  | none =>
      obtain ⟨_, readable, moved⟩ := serveRound_going answered complete (Prod.ext rfl result)
      rcases moved with ⟨forward, within, _⟩ | ⟨_, unreadable⟩
      · exact .inr (.inl ⟨forward, within⟩)
      · exact .inr (.inr ⟨readable, unreadable⟩)

theorem readExact_sources {isOpen : Bool} {file : Option (Nat → UInt8)} {offset size : Nat}
    {buffer : List Source} (filled : readExact isOpen file offset size = some buffer) :
    buffer.length = size ∧ ∀ data index, Source.verified data index ∉ buffer := by
  unfold readExact at filled
  split at filled
  · simp at filled
  · split at filled
    · rename_i empty
      rw [Option.some.injEq] at filled
      subst filled
      exact ⟨empty.symm, fun _ _ => List.not_mem_nil⟩
    · obtain ⟨contents, _, rfl⟩ := Option.map_eq_some_iff.mp filled
      exact ⟨by simp, by simp⟩

/-- The bytes given to the writer are never none, and they lie inside the verified buffer. -/
theorem offered_sound (answered : state.waiter.Answered) (complete : round.Complete)
    (unfinished : state.cursor < slice.stop) {chunk : List Source}
    (given : offered route slice round state = some chunk) :
    chunk ≠ [] ∧ ∀ data index, Source.verified data index ∈ chunk → index < data.length := by
  have kept := apply_answered round.actions answered complete
  unfold offered at given
  simp only at given
  split at given
  · simp at given
  · rename_i calm
    split at given
    · rename_i finished
      split at given
      · rename_i verified _
        split at given
        · simp at given
        · rename_i long
          rw [Option.some.injEq] at given
          subst given
          refine ⟨by simp; omega, ?_⟩
          intro data index member
          simp only [List.mem_map, List.mem_range, Source.verified.injEq] at member
          obtain ⟨k, below, rfl, rfl⟩ := member
          omega
      · rename_i missing
        rcases kept finished with data | failed
        · simp [missing] at data
        · simp [finished, failed] at calm
    · split at given
      · rename_i ready
        simp only [Bool.and_eq_true, decide_eq_true_eq] at ready
        unfold offeredUnverified at given
        simp only at given
        split at given
        · simp at given
        · obtain ⟨size, unverified⟩ := readExact_sources given
          refine ⟨?_, fun data index member => absurd member (unverified data index)⟩
          rintro rfl
          rw [List.length_nil] at size
          omega
      · simp at given

end Turns

/-- Every turn that does not return lowers the number of blocks ahead or the one-way flag. -/
def turnsLeft (slice : PieceSlice) (state : ServeState) : Nat :=
  blocksMet state.cursor slice.stop + if state.payloadReadable then 1 else 0

section Loop

variable {route : StreamRoute} {slice : PieceSlice} {state : ServeState}

theorem turnsLeft_lt {round : Round} (answered : state.waiter.Answered) (complete : round.Complete)
    {next : ServeState} (going : serveRound route slice round state = (next, none)) :
    turnsLeft slice next < turnsLeft slice state := by
  obtain ⟨_, readable, moved⟩ := serveRound_going answered complete going
  unfold turnsLeft
  rcases moved with ⟨forward, within, aligned, kept⟩ | ⟨cursor, unreadable⟩
  · have fewer := blocksMet_lt forward within aligned
    rw [readable, kept]
    omega
  · rw [readable, cursor, unreadable]
    simp

theorem serveTurns_le (rounds : List Round) (answered : state.waiter.Answered)
    (complete : ∀ round ∈ rounds, round.Complete) :
    serveTurns route slice rounds state ≤ turnsLeft slice state + 1 := by
  induction rounds generalizing state with
  | nil => exact Nat.zero_le _
  | cons round rest ih =>
      unfold serveTurns
      split
      · split
        · rename_i next going
          have first := complete round List.mem_cons_self
          have fewer := turnsLeft_lt answered first going
          have later := ih (serveRound_going answered first going).1
            fun other member => complete other (List.mem_cons_of_mem _ member)
          omega
        · exact Nat.le_add_left _ _
      · exact Nat.zero_le _

theorem serveLoop_returns (rounds : List Round) (answered : state.waiter.Answered)
    (complete : ∀ round ∈ rounds, round.Complete) (enough : turnsLeft slice state < rounds.length) :
    (serveLoop route slice rounds state).2.isSome := by
  induction rounds generalizing state with
  | nil => exact absurd enough (Nat.not_lt_zero _)
  | cons round rest ih =>
      unfold serveLoop
      split
      · split
        · rename_i next going
          have first := complete round List.mem_cons_self
          have fewer := turnsLeft_lt answered first going
          rw [List.length_cons] at enough
          exact ih (serveRound_going answered first going).1
            (fun other member => complete other (List.mem_cons_of_mem _ member)) (by omega)
        · rename_i finished
          cases result : serveRound route slice round state with
          | mk next outcome =>
              cases outcome with
              | some ok => rfl
              | none => exact absurd result (finished next)
      · rfl

/-- While the loop goes on its waiter is answered once it is done, and the cursor is before the
end of the slice. -/
theorem serveLoop_going (rounds : List Round) (answered : state.waiter.Answered)
    (complete : ∀ round ∈ rounds, round.Complete) {after : ServeState}
    (going : serveLoop route slice rounds state = (after, none)) :
    after.waiter.Answered ∧ after.cursor < slice.stop := by
  induction rounds generalizing state with
  | nil =>
      unfold serveLoop at going
      split at going
      · rename_i unfinished
        rw [Prod.mk.injEq] at going
        exact going.1 ▸ ⟨answered, unfinished⟩
      · simp at going
  | cons round rest ih =>
      unfold serveLoop at going
      split at going
      · split at going
        · rename_i next turn
          exact ih (serveRound_going answered (complete round List.mem_cons_self) turn).1
            (fun other member => complete other (List.mem_cons_of_mem _ member)) going
        · rename_i finished
          exact absurd going (finished _)
      · simp at going

end Loop

/-- For every slice, payload reader and script of the worker, the payload file, the flags and the
client: each turn that the loop takes returns, moves the cursor within the slice or gives up the
payload file, and offers the writer no empty chunk and no byte outside the verified buffer; the
loop takes at most two turns more than the slice meets blocks, and it returns once it gets them. -/
theorem serveLoop_progresses (route : StreamRoute) (slice : PieceSlice) (demandId : Nat)
    (payload : Option Bool) (log : StreamLog) (rounds : List Round)
    (complete : ∀ round ∈ rounds, round.Complete) :
    let initial := ServeState.initial demandId slice payload log
    (∀ k round state, rounds[k]? = some round →
      serveLoop route slice (rounds.take k) initial = (state, none) →
        Progresses slice state (serveRound route slice round state) ∧
        ∀ chunk, offered route slice round state = some chunk →
          chunk ≠ [] ∧ ∀ data index, Source.verified data index ∈ chunk → index < data.length) ∧
    serveTurns route slice rounds initial ≤ blocksMet slice.start slice.stop + 2 ∧
    (blocksMet slice.start slice.stop + 2 ≤ rounds.length →
      (serveLoop route slice rounds initial).2.isSome) := by
  intro initial
  have answered : initial.waiter.Answered := fun finished => absurd finished Bool.false_ne_true
  have left : turnsLeft slice initial ≤ blocksMet slice.start slice.stop + 1 := by
    unfold turnsLeft
    split <;> exact Nat.add_le_add_left (by decide) _
  refine ⟨?_, ?_, ?_⟩
  · intro k round state found going
    have listed : round.Complete := complete round (List.mem_of_getElem? found)
    obtain ⟨waiting, unfinished⟩ := serveLoop_going (rounds.take k) answered
      (fun other member => complete other (List.mem_of_mem_take member)) going
    exact ⟨serveRound_progresses waiting listed,
      fun chunk given => offered_sound waiting listed unfinished given⟩
  · have turns : serveTurns route slice rounds initial ≤ turnsLeft slice initial + 1 :=
      serveTurns_le rounds answered complete
    omega
  · intro enough
    exact serveLoop_returns rounds answered complete (by omega)

/-- A block is published and read, the next one cannot be read, and the worker's buffer ends the
loop: three of at most four turns. -/
theorem serveLoop_progresses_threeTurns :
    let route : StreamRoute := ⟨0, "", "", "", "", 0, 32768, 0, 32768, ""⟩
    let slice : PieceSlice := ⟨0, 0, 32768⟩
    let rounds : List Round := [
      { actions := [.publish [true, false]], file := some fun _ => 0 },
      { actions := [.publish [true, true]], file := none },
      { actions := [.complete (some []) "", .publish [false]] }]
    (∀ round ∈ rounds, round.Complete) ∧
      serveTurns route slice rounds (.initial 1 slice none {}) ≤ blocksMet 0 32768 + 2 := by
  intro route slice rounds
  have complete : ∀ round ∈ rounds, round.Complete := by
    intro round member data error
    simp only [rounds, List.mem_cons, List.not_mem_nil, or_false] at member
    rcases member with rfl | rfl | rfl <;> simp +contextual
  exact ⟨complete, (serveLoop_progresses route slice 1 none {} rounds complete).2.1⟩

end NuvioEngine.Stream
