import NuvioEngine.Bridge.Ordering
import NuvioEngine.Stream.StreamBody

/-!
One response is cut into pieces three times: by the demand windows of the scheduler, by the loop
of the response body and by the worker, which recomputes the piece and the block of a demand.
The cuts are the same one.
-/

namespace NuvioEngine.Bridge

open Scheduler NuvioEngine.Stream

/-- The ranges demanded from a position on, each from the position after the one before. -/
inductive Demanded (range : ByteRange) (fileOffset pieceSize : Nat) : Nat → List ByteRange → Prop
  | done {position} : range.last < position → Demanded range fileOffset pieceSize position []
  | next {position part rest} : position ≤ range.last →
      blockingDemandRange range position fileOffset pieceSize = .ok part →
      Demanded range fileOffset pieceSize (add64 part.last 1) rest →
      Demanded range fileOffset pieceSize position (part :: rest)

theorem Demanded.unique {range : ByteRange} {fileOffset pieceSize position : Nat}
    {left right : List ByteRange} (leftward : Demanded range fileOffset pieceSize position left)
    (rightward : Demanded range fileOffset pieceSize position right) : left = right := by
  induction leftward generalizing right with
  | done beyond =>
      cases rightward with
      | done => rfl
      | next within => omega
  | next within demanded _ ih =>
      cases rightward with
      | done beyond => omega
      | next _ again later =>
          rw [demanded, Except.ok.injEq] at again
          subst again
          rw [ih later]

def positionsOf (range : ByteRange) : List Nat :=
  List.range' range.start (range.last + 1 - range.start)

/-- No operation on the way to the slice and the demanded range of a piece leaves 64 bits. -/
structure Unwrapped (route : StreamRoute) (range part : ByteRange) (piece : Nat) : Prop where
  absoluteStart : add64 route.fileOffset range.start = route.fileOffset + range.start
  absoluteEnd : add64 route.fileOffset range.last = route.fileOffset + range.last
  exclusive : add64 (route.fileOffset + range.last) 1 = route.fileOffset + range.last + 1
  pieceStart : mul64 piece route.pieceSize = piece * route.pieceSize
  pieceEnd : add64 (piece * route.pieceSize) route.pieceSize =
    piece * route.pieceSize + route.pieceSize
  fileStart : route.fileOffset ≤ max (route.fileOffset + range.start) (piece * route.pieceSize)
  meets : piece * route.pieceSize ≤
    min (route.fileOffset + range.last + 1) (piece * route.pieceSize + route.pieceSize)
  remaining : saturatingAdd part.start
      (route.pieceSize - (route.fileOffset + part.start) % route.pieceSize - 1) =
    part.start + (route.pieceSize - (route.fileOffset + part.start) % route.pieceSize - 1)
  demanded : add64 route.fileOffset part.start = route.fileOffset + part.start
  continued : add64 part.last 1 = part.last + 1
  counted : add64 piece 1 = piece + 1
  narrow : piece % 2 ^ 32 = piece

/-- A part of the response is what a slice of one piece holds, and the piece and the block that
the worker computes for a demand of the part are those of the slice's first byte. -/
structure Shares (route : StreamRoute) (part : ByteRange) (slice : PieceSlice) (piece : Nat) :
    Prop where
  nonempty : slice.start < slice.stop
  narrow : slice.stop ≤ route.pieceSize
  aligned : slice.pieceStart = piece * route.pieceSize
  first : slice.pieceStart + slice.start = route.fileOffset + part.start
  last : slice.pieceStart + slice.stop = route.fileOffset + part.last + 1
  blocking : ∀ demand : ActiveDemand, demand.route = route → demand.range = part →
    demand.blockingPiece = piece
  block : ∀ (others : List StreamDemand) (demand : StreamDemand),
    demand.fileOffset = route.fileOffset → demand.pieceSize = route.pieceSize →
    demand.range = part → ∃ block, (firstBlocksOf (others ++ [demand])).lookup piece = some block ∧
      block * blockBytes ≤ slice.start ∧ slice.start < (block + 1) * blockBytes

section Addressed

variable {route : StreamRoute} {range : ByteRange} {piece : Nat}

theorem unwrapped (addressed : Addressed route range) (cut : Cut route range piece) :
    Unwrapped route range (partAt route range piece) piece := by
  have expand : (piece + 1) * route.pieceSize = piece * route.pieceSize + route.pieceSize :=
    Nat.succ_mul _ _
  have ordered := addressed.ordered
  have bounded := addressed.bounded
  have meets := cut.meets
  have starts := cut.starts
  have short := cut.short
  have ends := cut.pieceEnd
  rw [expand] at ends
  unfold uint64Max at bounded
  have remaining : (partAt route range piece).start +
      (route.pieceSize - (route.fileOffset + (partAt route range piece).start) % route.pieceSize - 1) ≤
        uint64Max := by
    rw [cut.offset addressed, cut.slice addressed]
    simp only [partAt, uint64Max]
    omega
  refine ⟨Nat.mod_eq_of_lt (by omega), Nat.mod_eq_of_lt (by omega), Nat.mod_eq_of_lt (by omega),
    cut.pieceStart, ends, le_max_of_le_left (Nat.le_add_right _ _), ?_,
    saturatingAdd_eq remaining, Nat.mod_eq_of_lt ?_, Nat.mod_eq_of_lt ?_, cut.counted, cut.narrow⟩
  · omega
  · simp only [partAt]
    omega
  · simp only [partAt]
    omega

theorem shares (addressed : Addressed route range) (cut : Cut route range piece) :
    Shares route (partAt route range piece)
      (sliceAt route (route.fileOffset + range.start) (route.fileOffset + range.last + 1) piece)
      piece := by
  have inside := cut.inside addressed
  have start := cut.start addressed
  have offset := cut.offset addressed
  have fits := (unwrapped addressed cut).demanded
  have upto := inside.upto
  have positive := addressed.pieceSize
  have named : add64 route.fileOffset (partAt route range piece).start / route.pieceSize % 2 ^ 32 =
      piece := by
    have short : (sliceAt route (route.fileOffset + range.start) (route.fileOffset + range.last + 1)
        piece).start < route.pieceSize := Nat.lt_of_lt_of_le inside.nonempty inside.narrow
    rw [fits, start, Nat.mul_comm, Nat.mul_add_div positive, Nat.div_eq_of_lt short, Nat.add_zero,
      cut.narrow]
  refine ⟨inside.nonempty, inside.narrow, inside.aligned, by rw [inside.aligned, start], ?_, ?_, ?_⟩
  · have starts := cut.starts
    have meets := cut.meets
    have ordered := addressed.ordered
    rw [(cut.ends addressed).2]
    simp only [partAt]
    omega
  · intro demand same part
    rw [ActiveDemand.blockingPiece, pieceAt, same, part, named]
  · intro others demand placed sized part
    refine ⟨startBlock demand, ?_, ?_⟩
    · have last := lookup_firstBlocksOf_concat others demand
      rwa [startPiece, pieceAt, placed, sized, part, named] at last
    · rw [startBlock, placed, sized, part, fits, offset]
      have width : 0 < blockBytes := by decide
      exact ⟨Nat.div_mul_le_self _ _, Nat.lt_mul_of_div_lt (Nat.lt_succ_self _) width⟩

/-- The position at which the parts from a piece on start; behind the last piece it is the
position after the response. -/
def boundaryAt (route : StreamRoute) (range : ByteRange) (piece : Nat) : Nat :=
  min (route.fileOffset + range.last + 1)
    (max (route.fileOffset + range.start) (piece * route.pieceSize)) - route.fileOffset

theorem boundaryAt_step (cut : Cut route range piece) (addressed : Addressed route range) :
    (partAt route range piece).start = boundaryAt route range piece ∧
      (partAt route range piece).last + 1 = boundaryAt route range (piece + 1) ∧
      boundaryAt route range piece < boundaryAt route range (piece + 1) ∧
      boundaryAt route range (piece + 1) ≤ range.last + 1 := by
  have expand : (piece + 1) * route.pieceSize = piece * route.pieceSize + route.pieceSize :=
    Nat.succ_mul _ _
  have positive := addressed.pieceSize
  have ordered := addressed.ordered
  have meets := cut.meets
  have starts := cut.starts
  simp only [partAt, boundaryAt]
  omega

theorem boundaryAt_beyond (addressed : Addressed route range)
    (beyond : (route.fileOffset + range.last) / route.pieceSize < piece) :
    boundaryAt route range piece = range.last + 1 := by
  have past : route.fileOffset + range.last < piece * route.pieceSize :=
    (Nat.div_lt_iff_lt_mul addressed.pieceSize).mp beyond
  unfold boundaryAt
  omega

theorem boundaryAt_first (addressed : Addressed route range) :
    boundaryAt route range ((route.fileOffset + range.start) / route.pieceSize) = range.start := by
  have below : (route.fileOffset + range.start) / route.pieceSize * route.pieceSize ≤
      route.fileOffset + range.start :=
    Nat.div_mul_le_self _ _
  have ordered := addressed.ordered
  unfold boundaryAt
  omega

/-- The parts of the pieces from one on are demanded in turn, and they are the rest of the
response in order. -/
theorem demanded_parts (addressed : Addressed route range) (count : Nat)
    (first : (route.fileOffset + range.start) / route.pieceSize ≤ piece)
    (last : piece + count = (route.fileOffset + range.last) / route.pieceSize + 1) :
    Demanded range route.fileOffset route.pieceSize (boundaryAt route range piece)
        ((List.range' piece count).map (partAt route range)) ∧
      ((List.range' piece count).map (partAt route range)).flatMap positionsOf =
        List.range' (boundaryAt route range piece)
          (range.last + 1 - boundaryAt route range piece) := by
  induction count generalizing piece with
  | zero =>
      rw [boundaryAt_beyond addressed (by omega)]
      exact ⟨.done (Nat.lt_succ_self _), by simp⟩
  | succ count ih =>
      have cut := addressed.cut first (by omega)
      obtain ⟨start, next, onward, upto⟩ := boundaryAt_step cut addressed
      obtain ⟨later, rest⟩ := @ih (piece + 1) (by omega) (by omega)
      rw [List.range'_succ, List.map_cons, List.flatMap_cons, rest]
      constructor
      · refine .next (by omega) (start ▸ cut.demandRange addressed) ?_
        rwa [(unwrapped addressed cut).continued, next]
      · have width : range.last + 1 - boundaryAt route range piece =
            (boundaryAt route range (piece + 1) - boundaryAt route range piece) +
              (range.last + 1 - boundaryAt route range (piece + 1)) := by
          omega
        have reached : boundaryAt route range (piece + 1) = boundaryAt route range piece +
            (boundaryAt route range (piece + 1) - boundaryAt route range piece) := by
          omega
        rw [positionsOf, start, next, width, ← List.range'_append_1, ← reached]

end Addressed

theorem servePiece_commands (demandId : Nat) (route : StreamRoute) (piece : Nat)
    (slice : PieceSlice) (demandRange : ByteRange) (script : PieceScript) (payload : Option Bool)
    (log : StreamLog) :
    let after := servePiece demandId route piece slice demandRange script payload log
    after.1.commands = log.commands ++ [(piece, demandRange)] ∨
      after.1.commands = log.commands ∧ after.2.2 ≠ some true := by
  unfold servePiece
  split
  · exact .inr ⟨rfl, by simp⟩
  · left
    have kept := (serveLoop_kept route slice script.rounds (.initial demandId slice payload
      { log with commands := log.commands ++ [(piece, demandRange)] })).2
    simp only [ServeState.initial] at kept ⊢
    split
    all_goals
      rename_i result
      rw [result] at kept
      exact kept

theorem streamPieces_commands (demandId : Nat) {route : StreamRoute} {range : ByteRange}
    (addressed : Addressed route range) (scripts : List PieceScript) {piece : Nat}
    (payload : Option Bool) (log : StreamLog)
    (first : (route.fileOffset + range.start) / route.pieceSize ≤ piece) :
    (streamPieces demandId route range (route.fileOffset + range.start)
        (route.fileOffset + range.last + 1) ((route.fileOffset + range.last) / route.pieceSize)
        scripts piece payload log).commands <+:
      log.commands ++ (List.range' piece
        ((route.fileOffset + range.last) / route.pieceSize + 1 - piece)).map
          fun query => (query, partAt route range query) := by
  induction scripts generalizing piece payload log with
  | nil => exact List.prefix_append _ _
  | cons script rest ih =>
      by_cases running : piece ≤ (route.fileOffset + range.last) / route.pieceSize ∧
          (!script.stopRequested) = true ∧ (!script.demandCancelled) = true
      · have cut := addressed.cut first running.1
        have sent := servePiece_commands demandId route piece (sliceAt route
          (route.fileOffset + range.start) (route.fileOffset + range.last + 1) piece)
          (partAt route range piece) script payload log
        rw [streamPieces_step demandId addressed cut running.1 script running.2 rest payload log,
          show (route.fileOffset + range.last) / route.pieceSize + 1 - piece =
            (route.fileOffset + range.last) / route.pieceSize + 1 - (piece + 1) + 1 by omega,
          List.range'_succ, List.map_cons, ← List.singleton_append, ← List.append_assoc]
        split
        · rename_i next nextPayload result
          rw [result] at sent
          have asked : next.commands = log.commands ++ [(piece, partAt route range piece)] := by
            simpa using sent
          rw [← asked]
          exact ih nextPayload next (by omega)
        · rename_i next nextPayload served result
          rw [result] at sent
          rcases sent with sent | ⟨sent, _⟩
          · rw [sent]
            exact List.prefix_append _ _
          · rw [sent, List.append_assoc]
            exact List.prefix_append _ _
      · rw [streamPieces_cons, if_neg running]
        exact List.prefix_append _ _

/-- For every response with a place in the torrent, the demands that follow one another from its
start are its parts, one for each piece it meets, in order and without gap or overlap. Each part
is what the body loop's slice of that piece holds, computed without a 64-bit wrap, the worker
names the piece and the block of the slice's first byte, and the loop asks for these parts. For
all 64-bit arguments, a demanded range holds the positions from its start to the end of the
response whose byte lies in the same piece, in exact arithmetic. -/
theorem demands_cut_response :
    (∀ (route : StreamRoute) (range : ByteRange), Addressed route range →
      let firstPiece := (route.fileOffset + range.start) / route.pieceSize
      let lastPiece := (route.fileOffset + range.last) / route.pieceSize
      ∃ parts : List ByteRange,
        (∀ other, Demanded range route.fileOffset route.pieceSize range.start other ↔
          other = parts) ∧
        parts.length = lastPiece + 1 - firstPiece ∧
        parts.flatMap positionsOf = positionsOf range ∧
        (∀ k part, parts[k]? = some part →
          Unwrapped route range part (firstPiece + k) ∧
          Shares route part (sliceAt route (add64 route.fileOffset range.start)
            (add64 (add64 route.fileOffset range.last) 1) (firstPiece + k)) (firstPiece + k)) ∧
        ∀ demandId scripts deliveredBytes,
          (streamBody demandId route range scripts deliveredBytes).commands <+:
            (List.range' firstPiece parts.length).zip parts) ∧
    ∀ (range : ByteRange) (position fileOffset pieceSize : Nat) (result : ByteRange),
      range.last ≤ uint64Max →
      blockingDemandRange range position fileOffset pieceSize = .ok result →
      result.start = position ∧
        ∀ query, result.Covers query ↔ position ≤ query ∧ query ≤ range.last ∧
          (fileOffset + query) / pieceSize = (fileOffset + position) / pieceSize := by
  constructor
  · intro route range addressed firstPiece lastPiece
    have ordered := addressed.ordered
    have across : firstPiece ≤ lastPiece := Nat.div_le_div_right (by omega)
    obtain ⟨demanded, whole⟩ := demanded_parts addressed (lastPiece + 1 - firstPiece)
      (le_refl firstPiece) (by omega)
    rw [boundaryAt_first addressed] at demanded whole
    refine ⟨(List.range' firstPiece (lastPiece + 1 - firstPiece)).map (partAt route range), ?_, ?_,
      whole, ?_, ?_⟩
    · intro other
      exact ⟨fun again => again.unique demanded, fun same => same ▸ demanded⟩
    · rw [List.length_map, List.length_range']
    · intro k part found
      rw [List.getElem?_map, Option.map_eq_some_iff] at found
      obtain ⟨piece, listed, rfl⟩ := found
      obtain ⟨below, rfl⟩ := List.getElem?_eq_some_iff.mp listed
      rw [List.getElem_range', Nat.one_mul]
      rw [List.length_range'] at below
      have cut := addressed.cut (Nat.le_add_right firstPiece k) (by omega)
      have exact64 := unwrapped addressed cut
      rw [exact64.absoluteStart, exact64.absoluteEnd, exact64.exclusive]
      exact ⟨exact64, shares addressed cut⟩
    · intro demandId scripts deliveredBytes
      have sent := streamPieces_commands demandId addressed scripts none
        { deliveredBytes := deliveredBytes } (le_refl firstPiece)
      rw [addressed.streamBody, List.length_map, List.length_range', ← List.map_prod_left_eq_zip]
      simpa using sent
  · intro range position fileOffset pieceSize result bounded accepted
    refine ⟨?_, blockingDemandRange_covers bounded accepted⟩
    rw [(blockingDemandRange_ok bounded accepted).2.2]

/-- A file that starts at the last byte of a piece, and a piece that holds the position 2 ^ 64. -/
theorem demands_cut_response_straddling :
    Addressed ⟨0, "", "", "", "", 0, 4, 3, 8, ""⟩ ⟨0, 7⟩ ∧
    Demanded ⟨0, 7⟩ 3 4 0 [⟨0, 0⟩, ⟨1, 4⟩, ⟨5, 7⟩] ∧
    [ByteRange.mk 0 0, ⟨1, 4⟩, ⟨5, 7⟩].flatMap positionsOf = positionsOf ⟨0, 7⟩ ∧
    ∀ query, (ByteRange.mk 3 5).Covers query ↔
      3 ≤ query ∧ query ≤ 7 ∧ (2 ^ 64 - 2 + query) / 4 = (2 ^ 64 - 2 + 3) / 4 := by
  have addressed : Addressed ⟨0, "", "", "", "", 0, 4, 3, 8, ""⟩ ⟨0, 7⟩ := by
    constructor <;> decide
  have demanded : Demanded ⟨0, 7⟩ 3 4 0 [⟨0, 0⟩, ⟨1, 4⟩, ⟨5, 7⟩] :=
    .next (by decide) rfl (.next (by decide) rfl (.next (by decide) rfl (.done (by decide))))
  obtain ⟨parts, unique, _, whole, _⟩ := demands_cut_response.1 _ _ addressed
  obtain rfl := (unique _).mp demanded
  exact ⟨addressed, demanded, whole,
    (demands_cut_response.2 ⟨0, 7⟩ 3 (2 ^ 64 - 2) 4 ⟨3, 5⟩ (by decide) (by decide)).2⟩

end NuvioEngine.Bridge
