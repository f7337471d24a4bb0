import NuvioEngine.Scheduler.PieceSchedule
import NuvioEngine.Stream.StreamBodyCore

/-!
Delivery is exact: the bytes a request writes are those of consecutive file positions, each
taken from the verified buffer of its piece or from the payload file at its own position, for
every script of the worker, the payload file and the client.
-/

namespace NuvioEngine.Stream

open Scheduler

/-- The byte at a file position: the index in its piece's buffer, or the position in the file. -/
def Source.At (route : StreamRoute) (handed : Nat → List UInt8 → Prop) (position : Nat) :
    Source → Prop
  | .verified data index =>
      index = route.fileOffset + position -
          (route.fileOffset + position) / route.pieceSize * route.pieceSize ∧
        index < data.length ∧ handed ((route.fileOffset + position) / route.pieceSize) data
  | .payload _ offset => offset = position

/-- The list holds the bytes of the file positions from `first` on, in order. -/
def Consecutive (route : StreamRoute) (handed : Nat → List UInt8 → Prop) (first : Nat)
    (bytes : List Source) : Prop :=
  ∀ k (below : k < bytes.length), (bytes.get ⟨k, below⟩).At route handed (first + k)

section Consecutive

variable {route : StreamRoute} {handed : Nat → List UInt8 → Prop} {first : Nat}

theorem consecutive_nil : Consecutive route handed first [] :=
  fun _ below => absurd below (Nat.not_lt_zero _)

theorem Consecutive.append {left right : List Source} (leftward : Consecutive route handed first left)
    (rightward : Consecutive route handed (first + left.length) right) :
    Consecutive route handed first (left ++ right) := by
  intro k below
  rw [List.length_append] at below
  simp only [List.get_eq_getElem]
  by_cases early : k < left.length
  · rw [List.getElem_append_left early]
    exact leftward k early
  · rw [List.getElem_append_right (Nat.le_of_not_lt early)]
    have placed := rightward (k - left.length) (by omega)
    rwa [show first + left.length + (k - left.length) = first + k by omega] at placed

theorem consecutive_map_range {count : Nat} {byte : Nat → Source}
    (placed : ∀ k < count, (byte k).At route handed (first + k)) :
    Consecutive route handed first ((List.range count).map byte) := by
  intro k below
  simp only [List.length_map, List.length_range] at below
  simpa using placed k below

end Consecutive

/-- The slice of a piece that lies in the requested range; nothing here leaves 64 bits. -/
structure PieceSlice.Inside (slice : PieceSlice) (route : StreamRoute) (range : ByteRange)
    (piece : Nat) : Prop where
  aligned : slice.pieceStart = piece * route.pieceSize
  narrow : slice.stop ≤ route.pieceSize
  nonempty : slice.start < slice.stop
  above : route.fileOffset + range.start ≤ slice.pieceStart + slice.start
  upto : slice.pieceStart + slice.stop ≤ route.fileOffset + range.last + 1
  bounded : route.fileOffset + range.last + 1 ≤ uint64Max

/-- What a request's log promises so far. -/
structure StreamLog.Exact (log : StreamLog) (route : StreamRoute) (range : ByteRange)
    (handed : Nat → List UInt8 → Prop) : Prop where
  consecutive : Consecutive route handed range.start log.delivered
  limited : range.start + log.delivered.length ≤ range.last + 1
  reads : ∀ read ∈ log.reads, range.start ≤ read.1 ∧ read.1 + read.2 ≤ range.last + 1

/-- The next byte to deliver is the one at the cursor. -/
structure ServeState.Exact (state : ServeState) (route : StreamRoute) (range : ByteRange)
    (slice : PieceSlice) (handed : Nat → List UInt8 → Prop) (piece : Nat) : Prop where
  log : state.log.Exact route range handed
  lower : slice.start ≤ state.cursor
  upper : state.cursor ≤ slice.stop
  next : route.fileOffset + range.start + state.log.delivered.length = slice.pieceStart + state.cursor
  data : ∀ data, state.waiter.data = some data → handed piece data

/-- The worker hands the waiter only buffers of its piece. -/
def Round.Hands (round : Round) (handed : List UInt8 → Prop) : Prop :=
  ∀ data error, WorkerAction.complete (some data) error ∈ round.actions → handed data

theorem apply_data {handed : List UInt8 → Prop} (actions : List WorkerAction) {waiter : PieceWaiter}
    (held : ∀ data, waiter.data = some data → handed data)
    (hands : ∀ data error, WorkerAction.complete (some data) error ∈ actions → handed data) :
    ∀ data, (actions.foldl WorkerAction.apply waiter).data = some data → handed data := by
  induction actions generalizing waiter with
  | nil => exact held
  | cons action rest ih =>
      rw [List.foldl_cons]
      refine ih ?_ fun data error member => hands data error (List.mem_cons_of_mem _ member)
      cases action with
      | publish blocks =>
          simp only [WorkerAction.apply, publishBlocks]
          split <;> exact held
      | complete given error =>
          simp only [WorkerAction.apply, completeWaiter]
          split
          · exact held
          · intro data same
            exact hands data error (by simp [← same])

theorem finishedRunEnd_le (blocks : List Bool) (cursor limit : Nat) :
    finishedRunEnd blocks cursor limit ≤ limit :=
  Nat.min_le_right _ _

section Serve

variable {route : StreamRoute} {range : ByteRange} {slice : PieceSlice} {piece : Nat}
  {handed : Nat → List UInt8 → Prop}

theorem StreamLog.Exact.deliver {log : StreamLog} (exact : log.Exact route range handed)
    {bytes : List Source}
    (placed : Consecutive route handed (range.start + log.delivered.length) bytes)
    (limited : range.start + log.delivered.length + bytes.length ≤ range.last + 1) :
    (log.deliver bytes).Exact route range handed :=
  ⟨exact.consecutive.append placed, by simpa [StreamLog.deliver, Nat.add_assoc] using limited,
    exact.reads⟩

theorem serveVerified_exact (inside : slice.Inside route range piece) {state : ServeState}
    (exact : state.Exact route range slice handed piece) (unfinished : state.cursor < slice.stop)
    {verified : List UInt8} (given : handed piece verified) (round : Round) :
    let after := serveVerified slice round verified state
    after.1.log.Exact route range handed ∧ after.2.isSome ∧
      (after.2 = some true →
        route.fileOffset + range.start + after.1.log.delivered.length =
          slice.pieceStart + slice.stop) := by
  unfold serveVerified
  split
  · exact ⟨exact.log, rfl, by simp⟩
  · rename_i long
    split
    · exact ⟨exact.log, rfl, by simp⟩
    · have upto := inside.upto
      refine ⟨exact.log.deliver (consecutive_map_range ?_) ?_, rfl, fun _ => ?_⟩
      · intro k below
        have pieceIs : (route.fileOffset + (range.start + state.log.delivered.length + k)) /
            route.pieceSize = piece := by
          rw [show route.fileOffset + (range.start + state.log.delivered.length + k) =
            state.cursor + k + piece * route.pieceSize by
              have := exact.next
              have := inside.aligned
              omega]
          have narrow := inside.narrow
          rw [Nat.add_mul_div_right _ _ (by omega), Nat.div_eq_of_lt (by omega), Nat.zero_add]
        have next := exact.next
        have aligned := inside.aligned
        refine ⟨?_, by omega, pieceIs ▸ given⟩
        rw [pieceIs]
        omega
      · have next := exact.next
        simp only [List.length_map, List.length_range]
        omega
      · have next := exact.next
        simp only [StreamLog.deliver, List.length_append, List.length_map, List.length_range]
        omega

theorem readExact_filled {isOpen : Bool} {file : Option (Nat → UInt8)} {offset size : Nat}
    {buffer : List Source} (filled : readExact isOpen file offset size = some buffer) :
    buffer.length = size ∧ Consecutive route handed offset buffer := by
  unfold readExact at filled
  split at filled
  · simp at filled
  · split at filled
    · rename_i empty
      simp only [Option.some.injEq] at filled
      subst filled
      exact ⟨empty.symm, consecutive_nil⟩
    · obtain ⟨contents, _, rfl⟩ := Option.map_eq_some_iff.mp filled
      exact ⟨by simp, consecutive_map_range fun k _ => rfl⟩

theorem serveUnverified_exact (inside : slice.Inside route range piece) {state : ServeState}
    (exact : state.Exact route range slice handed piece) {unverifiedEnd : Nat}
    (forward : state.cursor ≤ unverifiedEnd) (limited : unverifiedEnd ≤ slice.stop) (round : Round) :
    let after := serveUnverified route slice round unverifiedEnd state
    after.1.Exact route range slice handed piece ∧ after.2 ≠ some true := by
  have next := exact.next
  have upto := inside.upto
  have bounded := inside.bounded
  have lower := exact.lower
  have absolute : add64 slice.pieceStart state.cursor = slice.pieceStart + state.cursor :=
    Nat.mod_eq_of_lt (by unfold uint64Max at bounded; omega)
  have offset : sub64 (slice.pieceStart + state.cursor) route.fileOffset =
      range.start + state.log.delivered.length := by
    unfold sub64 uint64Max at *
    omega
  unfold serveUnverified
  simp only [absolute, offset, next ▸ Nat.not_lt.mpr (show route.fileOffset ≤
    route.fileOffset + range.start + state.log.delivered.length by omega), if_false]
  have asked : StreamLog.Exact { state.log with reads := state.log.reads ++
      [(range.start + state.log.delivered.length, unverifiedEnd - state.cursor)] }
      route range handed := by
    refine ⟨exact.log.consecutive, exact.log.limited, ?_⟩
    intro read member
    rcases List.mem_append.mp member with old | new
    · exact exact.log.reads read old
    · rw [List.mem_singleton.mp new]
      simp only
      omega
  cases result : readExact (state.payload.getD round.opens) round.file
      (range.start + state.log.delivered.length) (unverifiedEnd - state.cursor) with
  | none => exact ⟨⟨asked, exact.lower, exact.upper, next, exact.data⟩, by simp⟩
  | some buffer =>
      simp only
      split
      · exact ⟨⟨asked, exact.lower, exact.upper, next, exact.data⟩, by simp⟩
      · have filled : buffer.length = unverifiedEnd - state.cursor ∧
            Consecutive route handed (range.start + state.log.delivered.length) buffer :=
          readExact_filled result
        refine ⟨⟨asked.deliver filled.2 (by simp only [filled.1]; omega), by simp only; omega, limited,
          ?_, exact.data⟩, by simp⟩
        simp only [StreamLog.deliver, List.length_append, filled.1]
        omega

/-- What a turn of the loop or the whole loop leaves behind: an exact log, a cursor that still
points at the next byte while the loop goes on, and the end of the slice on success. -/
structure Outcome (route : StreamRoute) (range : ByteRange) (slice : PieceSlice) (piece : Nat)
    (handed : Nat → List UInt8 → Prop) (after : ServeState × Option Bool) : Prop where
  log : after.1.log.Exact route range handed
  going : after.2 = none → after.1.Exact route range slice handed piece
  finished : after.2 = some true →
    route.fileOffset + range.start + after.1.log.delivered.length = slice.pieceStart + slice.stop

theorem serveRound_outcome (inside : slice.Inside route range piece) {state : ServeState}
    (exact : state.Exact route range slice handed piece) (unfinished : state.cursor < slice.stop)
    {round : Round} (hands : round.Hands (handed piece)) :
    Outcome route range slice piece handed (serveRound route slice round state) := by
  have data := apply_data round.actions exact.data hands
  have seen : ServeState.Exact { state with
      waiter := round.actions.foldl WorkerAction.apply state.waiter } route range slice handed piece :=
    ⟨exact.log, exact.lower, exact.upper, exact.next, data⟩
  unfold serveRound
  simp only
  split
  · exact ⟨exact.log, by simp, by simp⟩
  · split
    · split
      · rename_i verified given
        obtain ⟨log, returned, finished⟩ :=
          serveVerified_exact inside seen unfinished (data verified given) round
        exact ⟨log, fun none => by simp [none] at returned, finished⟩
      · obtain ⟨after, notTrue⟩ := serveUnverified_exact inside seen (le_refl _) exact.upper round
        exact ⟨after.log, fun _ => after, fun finished => absurd finished notTrue⟩
    · split
      · rename_i ready
        simp only [Bool.and_eq_true, decide_eq_true_eq] at ready
        obtain ⟨after, notTrue⟩ := serveUnverified_exact inside seen (Nat.le_of_lt ready.2)
          (finishedRunEnd_le _ _ _) round
        exact ⟨after.log, fun _ => after, fun finished => absurd finished notTrue⟩
      · exact ⟨exact.log, by simp, by simp⟩

theorem serveLoop_outcome (inside : slice.Inside route range piece) (rounds : List Round)
    {state : ServeState} (exact : state.Exact route range slice handed piece)
    (hands : ∀ round ∈ rounds, round.Hands (handed piece)) :
    Outcome route range slice piece handed (serveLoop route slice rounds state) := by
  have complete : ∀ state : ServeState, state.Exact route range slice handed piece →
      ¬ state.cursor < slice.stop →
      Outcome route range slice piece handed (state.abandon, some true) := by
    intro state exact reached
    have upper := exact.upper
    have next := exact.next
    exact ⟨exact.log, by simp, fun _ => by simp only [ServeState.abandon]; omega⟩
  induction rounds generalizing state with
  | nil =>
      unfold serveLoop
      split
      · exact ⟨exact.log, fun _ => exact, by simp⟩
      · rename_i reached
        exact complete state exact reached
  | cons round rest ih =>
      unfold serveLoop
      split
      · rename_i unfinished
        have turn := serveRound_outcome inside exact unfinished (hands round List.mem_cons_self)
        split
        · rename_i next result
          rw [result] at turn
          exact ih (turn.going rfl) fun later member => hands later (List.mem_cons_of_mem _ member)
        · exact turn
      · rename_i reached
        exact complete state exact reached

end Serve

theorem serveRound_kept (route : StreamRoute) (slice : PieceSlice) (round : Round)
    (state : ServeState) :
    (serveRound route slice round state).1.log.served = state.log.served ∧
      (serveRound route slice round state).1.log.commands = state.log.commands := by
  unfold serveRound serveVerified serveUnverified StreamLog.deliver ServeState.abandon
  grind

theorem serveLoop_kept (route : StreamRoute) (slice : PieceSlice) (rounds : List Round)
    (state : ServeState) :
    (serveLoop route slice rounds state).1.log.served = state.log.served ∧
      (serveLoop route slice rounds state).1.log.commands = state.log.commands := by
  induction rounds generalizing state with
  | nil =>
      unfold serveLoop
      split <;> exact ⟨rfl, rfl⟩
  | cons round rest ih =>
      unfold serveLoop
      split
      · have turn := serveRound_kept route slice round state
        split
        · rename_i next result
          rw [result] at turn
          exact ⟨(ih next).1.trans turn.1, (ih next).2.trans turn.2⟩
        · exact turn
      · exact ⟨rfl, rfl⟩

/-- The worker hands a piece's waiter, in the script of that piece, the buffers `handed` allows. -/
def PieceScript.Hands (script : PieceScript) (handed : List UInt8 → Prop) : Prop :=
  ∀ round ∈ script.rounds, round.Hands handed

theorem servePiece_exact (demandId : Nat) {route : StreamRoute} {range : ByteRange}
    (demandRange : ByteRange) {slice : PieceSlice} {piece : Nat} {handed : Nat → List UInt8 → Prop}
    {script : PieceScript} (payload : Option Bool) {log : StreamLog} (inside : slice.Inside route range piece)
    (exact : log.Exact route range handed)
    (next : route.fileOffset + range.start + log.delivered.length = slice.pieceStart + slice.start)
    (hands : script.Hands (handed piece)) :
    let after := servePiece demandId route piece slice demandRange script payload log
    after.1.Exact route range handed ∧
      (after.2.2 = some true → after.1.served = log.served ++ [(piece, true)] ∧
        route.fileOffset + range.start + after.1.delivered.length = slice.pieceStart + slice.stop) ∧
      (after.2.2 ≠ some true → ∀ query, (query, true) ∈ after.1.served → (query, true) ∈ log.served) := by
  unfold servePiece
  split
  · exact ⟨⟨exact.consecutive, exact.limited, exact.reads⟩, by simp, by simp⟩
  · have started : ServeState.Exact (.initial demandId slice payload
        { log with commands := log.commands ++ [(piece, demandRange)] })
        route range slice handed piece :=
      ⟨⟨exact.consecutive, exact.limited, exact.reads⟩, le_refl _, Nat.le_of_lt inside.nonempty, next,
        by simp [ServeState.initial]⟩
    have outcome := serveLoop_outcome inside script.rounds started hands
    have kept := (serveLoop_kept route slice script.rounds (.initial demandId slice payload
      { log with commands := log.commands ++ [(piece, demandRange)] })).1
    simp only [ServeState.initial] at outcome kept ⊢
    split
    · rename_i state result
      rw [result] at outcome kept
      exact ⟨outcome.log, by simp, fun _ query member => kept ▸ member⟩
    · rename_i state ok result
      rw [result] at outcome kept
      refine ⟨⟨outcome.log.consecutive, outcome.log.limited, outcome.log.reads⟩, ?_, ?_⟩
      · intro returned
        obtain rfl : ok = true := Option.some.inj returned
        exact ⟨by rw [← kept], outcome.finished rfl⟩
      · intro returned query member
        have failed : ok = false := by simpa using returned
        have listed : (query, true) ∈ state.log.served := by simpa [failed] using member
        exact kept ▸ listed

/-- The place a range has in the torrent: 32-bit piece sizes and indices, and an end below the
last 64-bit position. -/
structure Addressed (route : StreamRoute) (range : ByteRange) : Prop where
  pieceSize : 1 ≤ route.pieceSize
  pieceWidth : route.pieceSize ≤ uint32Max
  ordered : range.start ≤ range.last
  bounded : route.fileOffset + range.last < uint64Max
  indexed : (route.fileOffset + range.last) / route.pieceSize ≤ uint32Max

/-- A range with a place in the torrent that lies in its file. -/
structure Requested (route : StreamRoute) (range : ByteRange) : Prop where
  pieceSize : 1 ≤ route.pieceSize
  pieceWidth : route.pieceSize ≤ uint32Max
  ordered : range.start ≤ range.last
  inside : range.last < route.fileSize
  bounded : route.fileOffset + range.last < uint64Max
  indexed : (route.fileOffset + range.last) / route.pieceSize ≤ uint32Max

theorem Requested.addressed {route : StreamRoute} {range : ByteRange}
    (requested : Requested route range) : Addressed route range :=
  ⟨requested.pieceSize, requested.pieceWidth, requested.ordered, requested.bounded,
    requested.indexed⟩

/-- What the loop over the pieces computes for a piece that meets the range. -/
structure Cut (route : StreamRoute) (range : ByteRange) (piece : Nat) : Prop where
  pieceStart : mul64 piece route.pieceSize = piece * route.pieceSize
  pieceEnd : add64 (piece * route.pieceSize) route.pieceSize = (piece + 1) * route.pieceSize
  starts : route.fileOffset + range.start < (piece + 1) * route.pieceSize
  meets : piece * route.pieceSize ≤ route.fileOffset + range.last
  short : (piece + 1) * route.pieceSize < 2 ^ 64
  counted : add64 piece 1 = piece + 1
  narrow : piece % 2 ^ 32 = piece

/-- The slice of a piece as the loop over the pieces computes it. -/
def sliceAt (route : StreamRoute) (absoluteStart absoluteEndExclusive piece : Nat) : PieceSlice :=
  let pieceStart := mul64 piece route.pieceSize
  { pieceStart := pieceStart
    start := sub64 (max absoluteStart pieceStart) pieceStart
    stop := sub64 (min absoluteEndExclusive (add64 pieceStart route.pieceSize)) pieceStart }

/-- The position of the file that the loop over the pieces demands a range for. -/
def positionAt (route : StreamRoute) (absoluteStart piece : Nat) : Nat :=
  sub64 (max absoluteStart (mul64 piece route.pieceSize)) route.fileOffset

/-- The part of the response that lies in a piece. -/
def partAt (route : StreamRoute) (range : ByteRange) (piece : Nat) : ByteRange where
  start := max (route.fileOffset + range.start) (piece * route.pieceSize) - route.fileOffset
  last := min (route.fileOffset + range.last) ((piece + 1) * route.pieceSize - 1) - route.fileOffset

section Addressed

variable {route : StreamRoute} {range : ByteRange} {piece : Nat}

theorem Addressed.cut (addressed : Addressed route range)
    (first : (route.fileOffset + range.start) / route.pieceSize ≤ piece)
    (last : piece ≤ (route.fileOffset + range.last) / route.pieceSize) : Cut route range piece := by
  have positive := addressed.pieceSize
  have index : piece ≤ uint32Max := le_trans last addressed.indexed
  have short : (piece + 1) * route.pieceSize < 2 ^ 64 := by
    have product : (piece + 1) * route.pieceSize ≤ (uint32Max + 1) * uint32Max :=
      Nat.mul_le_mul (by omega) addressed.pieceWidth
    have bound : (uint32Max + 1) * uint32Max < 2 ^ 64 := by decide
    omega
  have expand : (piece + 1) * route.pieceSize = piece * route.pieceSize + route.pieceSize :=
    Nat.succ_mul _ _
  refine ⟨Nat.mod_eq_of_lt (by omega), ?_, ?_, ?_, short, ?_, ?_⟩
  · rw [expand]
    exact Nat.mod_eq_of_lt (by omega)
  · exact (Nat.div_lt_iff_lt_mul positive).mp (Nat.lt_succ_of_le first)
  · exact (Nat.le_div_iff_mul_le positive).mp last
  · unfold add64 uint32Max at *
    omega
  · unfold uint32Max at index
    omega

theorem Cut.slice (cut : Cut route range piece) (addressed : Addressed route range) :
    sliceAt route (route.fileOffset + range.start) (route.fileOffset + range.last + 1) piece = {
      pieceStart := piece * route.pieceSize
      start := max (route.fileOffset + range.start) (piece * route.pieceSize) -
        piece * route.pieceSize
      stop := min (route.fileOffset + range.last + 1) ((piece + 1) * route.pieceSize) -
        piece * route.pieceSize } := by
  have starts := cut.starts
  have meets := cut.meets
  have short := cut.short
  have bounded := addressed.bounded
  have ordered := addressed.ordered
  have expand : (piece + 1) * route.pieceSize = piece * route.pieceSize + route.pieceSize :=
    Nat.succ_mul _ _
  unfold uint64Max at bounded
  simp only [sliceAt, cut.pieceStart, cut.pieceEnd, sub64, PieceSlice.mk.injEq, true_and]
  omega

theorem Cut.inside (cut : Cut route range piece) (addressed : Addressed route range) :
    (sliceAt route (route.fileOffset + range.start) (route.fileOffset + range.last + 1)
      piece).Inside route range piece := by
  have expand : (piece + 1) * route.pieceSize = piece * route.pieceSize + route.pieceSize :=
    Nat.succ_mul _ _
  have starts := cut.starts
  have meets := cut.meets
  have ordered := addressed.ordered
  have bounded := addressed.bounded
  have positive := addressed.pieceSize
  rw [cut.slice addressed]
  refine ⟨rfl, ?_, ?_, ?_, ?_, bounded⟩
  all_goals
    simp only
    omega

theorem Cut.ends (cut : Cut route range piece) (addressed : Addressed route range) :
    let slice := sliceAt route (route.fileOffset + range.start) (route.fileOffset + range.last + 1)
      piece
    slice.pieceStart + slice.start =
        max (route.fileOffset + range.start) (piece * route.pieceSize) ∧
      slice.pieceStart + slice.stop =
        min (route.fileOffset + range.last + 1) ((piece + 1) * route.pieceSize) := by
  have expand : (piece + 1) * route.pieceSize = piece * route.pieceSize + route.pieceSize :=
    Nat.succ_mul _ _
  have meets := cut.meets
  rw [cut.slice addressed]
  simp only
  omega

theorem Cut.position (cut : Cut route range piece) (addressed : Addressed route range) :
    positionAt route (route.fileOffset + range.start) piece = (partAt route range piece).start := by
  have short := cut.short
  have meets := cut.meets
  have ordered := addressed.ordered
  have bounded := addressed.bounded
  unfold uint64Max at bounded
  simp only [positionAt, partAt, cut.pieceStart, sub64]
  omega

theorem Cut.start (cut : Cut route range piece) (addressed : Addressed route range) :
    route.fileOffset + (partAt route range piece).start =
      piece * route.pieceSize + (sliceAt route (route.fileOffset + range.start)
        (route.fileOffset + range.last + 1) piece).start := by
  rw [cut.slice addressed]
  simp only [partAt]
  omega

theorem Cut.offset (cut : Cut route range piece) (addressed : Addressed route range) :
    (route.fileOffset + (partAt route range piece).start) % route.pieceSize =
      (sliceAt route (route.fileOffset + range.start) (route.fileOffset + range.last + 1)
        piece).start := by
  have inside := cut.inside addressed
  rw [cut.start addressed, Nat.mul_add_mod_self_right, Nat.mod_eq_of_lt]
  exact Nat.lt_of_lt_of_le inside.nonempty inside.narrow

theorem Cut.demandRange (cut : Cut route range piece) (addressed : Addressed route range) :
    blockingDemandRange range (partAt route range piece).start route.fileOffset route.pieceSize =
      .ok (partAt route range piece) := by
  have expand : (piece + 1) * route.pieceSize = piece * route.pieceSize + route.pieceSize :=
    Nat.succ_mul _ _
  have positive := addressed.pieceSize
  have starts := cut.starts
  have meets := cut.meets
  have ordered := addressed.ordered
  have bounded := addressed.bounded
  obtain ⟨part, accepted⟩ : ∃ part, blockingDemandRange range (partAt route range piece).start
      route.fileOffset route.pieceSize = .ok part := by
    have placed : range.start ≤ (partAt route range piece).start ∧
        (partAt route range piece).start ≤ range.last := by
      simp only [partAt]
      omega
    unfold blockingDemandRange
    rw [if_neg (by omega), if_neg (by omega)]
    exact ⟨_, rfl⟩
  obtain ⟨_, _, result⟩ := Scheduler.blockingDemandRange_ok (by omega) accepted
  rw [accepted, result, cut.offset addressed, cut.slice addressed]
  simp only [partAt, Except.ok.injEq, ByteRange.mk.injEq, true_and]
  omega

end Addressed

theorem streamPieces_cons (demandId : Nat) (route : StreamRoute) (range : ByteRange)
    (absoluteStart absoluteEndExclusive lastPiece : Nat) (script : PieceScript)
    (rest : List PieceScript) (piece : Nat) (payload : Option Bool) (log : StreamLog) :
    streamPieces demandId route range absoluteStart absoluteEndExclusive lastPiece (script :: rest)
        piece payload log =
      if piece ≤ lastPiece ∧ !script.stopRequested ∧ !script.demandCancelled then
        if max absoluteStart (mul64 piece route.pieceSize) < route.fileOffset then log
        else
          match blockingDemandRange range (positionAt route absoluteStart piece) route.fileOffset
              route.pieceSize with
          | .error _ => log
          | .ok demandRange =>
              match servePiece demandId route (piece % 2 ^ 32)
                  (sliceAt route absoluteStart absoluteEndExclusive piece) demandRange script payload
                  log with
              | (next, nextPayload, some true) =>
                  streamPieces demandId route range absoluteStart absoluteEndExclusive lastPiece rest
                    (add64 piece 1) nextPayload next
              | (next, _, _) => next
      else log := rfl

theorem streamPieces_step (demandId : Nat) {route : StreamRoute} {range : ByteRange}
    (addressed : Addressed route range) {piece : Nat} (cut : Cut route range piece)
    (last : piece ≤ (route.fileOffset + range.last) / route.pieceSize) (script : PieceScript)
    (running : (!script.stopRequested) = true ∧ (!script.demandCancelled) = true)
    (rest : List PieceScript) (payload : Option Bool) (log : StreamLog) :
    streamPieces demandId route range (route.fileOffset + range.start)
        (route.fileOffset + range.last + 1) ((route.fileOffset + range.last) / route.pieceSize)
        (script :: rest) piece payload log =
      match servePiece demandId route piece
          (sliceAt route (route.fileOffset + range.start) (route.fileOffset + range.last + 1) piece)
          (partAt route range piece) script payload log with
      | (next, nextPayload, some true) =>
          streamPieces demandId route range (route.fileOffset + range.start)
            (route.fileOffset + range.last + 1)
            ((route.fileOffset + range.last) / route.pieceSize) rest (piece + 1) nextPayload next
      | (next, _, _) => next := by
  rw [streamPieces_cons, if_pos ⟨last, running⟩, if_neg (by omega), cut.position addressed,
    cut.demandRange addressed, cut.counted, cut.narrow]

theorem Addressed.streamBody {route : StreamRoute} {range : ByteRange}
    (addressed : Addressed route range) (demandId : Nat) (scripts : List PieceScript)
    (deliveredBytes : Nat) :
    streamBody demandId route range scripts deliveredBytes =
      streamPieces demandId route range (route.fileOffset + range.start)
        (route.fileOffset + range.last + 1) ((route.fileOffset + range.last) / route.pieceSize) scripts
        ((route.fileOffset + range.start) / route.pieceSize) none
        { deliveredBytes := deliveredBytes } := by
  have bounded := addressed.bounded
  have ordered := addressed.ordered
  have absoluteStart : add64 route.fileOffset range.start = route.fileOffset + range.start :=
    Nat.mod_eq_of_lt (by unfold uint64Max at bounded; omega)
  have absoluteEnd : add64 route.fileOffset range.last = route.fileOffset + range.last :=
    Nat.mod_eq_of_lt (by unfold uint64Max at bounded; omega)
  have absoluteEndExclusive : add64 (route.fileOffset + range.last) 1 =
      route.fileOffset + range.last + 1 :=
    Nat.mod_eq_of_lt (by unfold uint64Max at bounded; omega)
  unfold Stream.streamBody
  simp only [absoluteStart, absoluteEnd, absoluteEndExclusive]
  rw [if_neg (by omega), if_neg (by omega), if_neg (Nat.not_lt.mpr addressed.indexed)]

/-- Where the loop over the pieces stops, either all pieces are behind it or the current one was
not served. -/
theorem delivered_all {route : StreamRoute} {range : ByteRange} (requested : Requested route range)
    {piece : Nat} {log : StreamLog}
    (next : route.fileOffset + range.start + log.delivered.length =
      min (route.fileOffset + range.last + 1)
        (max (route.fileOffset + range.start) (piece * route.pieceSize)))
    (earlier : ∀ query, (query, true) ∈ log.served → query < piece)
    (all : ∀ query, piece ≤ query → query ≤ (route.fileOffset + range.last) / route.pieceSize →
      (query, true) ∈ log.served) :
    range.start + log.delivered.length = range.last + 1 := by
  by_cases remaining : piece ≤ (route.fileOffset + range.last) / route.pieceSize
  · exact absurd (earlier piece (all piece (le_refl piece) remaining)) (lt_irrefl piece)
  · have beyond : route.fileOffset + range.last < piece * route.pieceSize :=
      (Nat.div_lt_iff_lt_mul requested.pieceSize).mp (Nat.lt_of_not_le remaining)
    omega

theorem streamPieces_exact (demandId : Nat) {route : StreamRoute} {range : ByteRange}
    (requested : Requested route range) (handed : Nat → List UInt8 → Prop)
    (scripts : List PieceScript) {piece : Nat} (payload : Option Bool) (log : StreamLog)
    (first : (route.fileOffset + range.start) / route.pieceSize ≤ piece)
    (exact : log.Exact route range handed)
    (next : route.fileOffset + range.start + log.delivered.length =
      min (route.fileOffset + range.last + 1)
        (max (route.fileOffset + range.start) (piece * route.pieceSize)))
    (earlier : ∀ query, (query, true) ∈ log.served → query < piece)
    (hands : ∀ k (below : k < scripts.length),
      (scripts.get ⟨k, below⟩).Hands (handed (piece + k))) :
    let after := streamPieces demandId route range (route.fileOffset + range.start)
      (route.fileOffset + range.last + 1) ((route.fileOffset + range.last) / route.pieceSize)
      scripts piece payload log
    after.Exact route range handed ∧
      ((∀ query, piece ≤ query → query ≤ (route.fileOffset + range.last) / route.pieceSize →
          (query, true) ∈ after.served) →
        range.start + after.delivered.length = range.last + 1) := by
  induction scripts generalizing piece payload log with
  | nil => exact ⟨exact, delivered_all requested next earlier⟩
  | cons script rest ih =>
      by_cases running : piece ≤ (route.fileOffset + range.last) / route.pieceSize ∧
          (!script.stopRequested) = true ∧ (!script.demandCancelled) = true
      · have addressed := requested.addressed
        have cut := addressed.cut first running.1
        have inside := cut.inside addressed
        have step := streamPieces_step demandId addressed cut running.1 script running.2 rest payload
          log
        obtain ⟨starts, stops⟩ := cut.ends addressed
        have below := cut.starts
        have meets := cut.meets
        have ordered := requested.ordered
        have own : script.Hands (handed piece) := hands 0 (Nat.zero_lt_succ _)
        obtain ⟨servedExact, success, failure⟩ :=
          servePiece_exact demandId (partAt route range piece) payload inside exact (by omega) own
        simp only [step]
        split
        · rename_i nextLog nextPayload result
          rw [result] at servedExact success
          obtain ⟨served, reached⟩ := success rfl
          have onward : (route.fileOffset + range.start) / route.pieceSize ≤ piece + 1 := by omega
          have later := ih nextPayload nextLog onward servedExact (by simp only at reached ⊢; omega)
            (by
              intro query member
              rcases List.mem_append.mp (served ▸ member) with old | new
              · exact Nat.lt_succ_of_lt (earlier query old)
              · simp only [List.mem_singleton, Prod.mk.injEq, and_true] at new
                omega)
            (by
              intro k bound
              have shifted := hands (k + 1) (Nat.succ_lt_succ bound)
              rwa [show piece + (k + 1) = piece + 1 + k by omega] at shifted)
          refine ⟨later.1, fun all => later.2 ?_⟩
          exact fun query lower upper => all query (by omega) upper
        · rename_i failed result
          rw [result] at servedExact failure
          refine ⟨servedExact, ?_⟩
          intro all
          have unserved := failure (by simpa using failed) piece (all piece (le_refl piece) running.1)
          exact absurd (earlier piece unserved) (lt_irrefl piece)
      · simp only [streamPieces, running, if_false]
        exact ⟨exact, delivered_all requested next earlier⟩

/-- The worker completed the waiter of the piece with this buffer. -/
def Handed (first : Nat) (scripts : List PieceScript) (piece : Nat) (data : List UInt8) : Prop :=
  ∃ k script, piece = first + k ∧ scripts[k]? = some script ∧
    ∃ round ∈ script.rounds, ∃ error, WorkerAction.complete (some data) error ∈ round.actions

/-- For every script of the worker, the payload file, the stop token and the client: the bytes
written are those of the file positions `start`, `start + 1`, ..., each taken from the verified
buffer of its piece or from the payload file at its position, no payload read leaves the range,
and when every piece of the range was served the whole range has been written. -/
theorem streamBody_exact (demandId : Nat) (route : StreamRoute) (range : ByteRange)
    (scripts : List PieceScript) (deliveredBytes : Nat) (requested : Requested route range) :
    let log := streamBody demandId route range scripts deliveredBytes
    let firstPiece := (route.fileOffset + range.start) / route.pieceSize
    let lastPiece := (route.fileOffset + range.last) / route.pieceSize
    Consecutive route (Handed firstPiece scripts) range.start log.delivered ∧
      (∀ read ∈ log.reads, range.start ≤ read.1 ∧ read.1 + read.2 ≤ range.last + 1) ∧
      log.delivered.length ≤ range.last - range.start + 1 ∧
      ((∀ piece, firstPiece ≤ piece → piece ≤ lastPiece → (piece, true) ∈ log.served) →
        log.delivered.length = range.last - range.start + 1) := by
  have bounded := requested.bounded
  have ordered := requested.ordered
  have firstStart : (route.fileOffset + range.start) / route.pieceSize * route.pieceSize ≤
      route.fileOffset + range.start :=
    Nat.div_mul_le_self _ _
  obtain ⟨exact, all⟩ := streamPieces_exact demandId requested
    (Handed ((route.fileOffset + range.start) / route.pieceSize) scripts) scripts none
    { deliveredBytes := deliveredBytes } (le_refl _)
    ⟨consecutive_nil, by simp only [List.length_nil]; omega, by simp⟩
    (by simp only [List.length_nil]; omega) (by simp)
    (by
      intro k below round member data error completed
      exact ⟨k, _, rfl, List.getElem?_eq_getElem below, round, member, error, completed⟩)
  simp only [requested.addressed.streamBody]
  refine ⟨exact.consecutive, exact.reads, ?_, fun served => ?_⟩
  · have limited := exact.limited
    omega
  · have whole := all served
    omega

/-- A file that straddles three pieces: the first and the last come verified, the middle one from
the payload file. -/
theorem streamBody_straddling :
    Requested ⟨0, "", "", "", "", 0, 4, 3, 8, ""⟩ ⟨0, 7⟩ ∧
    (streamBody 1 ⟨0, "", "", "", "", 0, 4, 3, 8, ""⟩ ⟨0, 7⟩
      [{ rounds := [{ actions := [.complete (some [9, 9, 9, 0]) ""] }] },
        { rounds := [{ actions := [.publish [true]], file := some fun offset => .ofNat offset }] },
        { rounds := [{ actions := [.publish [false], .complete (some [5, 6, 7, 9]) ""] }] }]
      0).delivered.length = 8 := by
  have requested : Requested ⟨0, "", "", "", "", 0, 4, 3, 8, ""⟩ ⟨0, 7⟩ := by
    constructor <;> decide
  refine ⟨requested, (streamBody_exact 1 _ _ _ 0 requested).2.2.2 ?_⟩
  intro piece lower upper
  have cases : piece = 0 ∨ piece = 1 ∨ piece = 2 := by
    simp only at lower upper
    omega
  rcases cases with rfl | rfl | rfl <;> decide

end NuvioEngine.Stream
