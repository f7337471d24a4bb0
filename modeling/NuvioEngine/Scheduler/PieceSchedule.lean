import NuvioEngine.Lib.Blocks
import NuvioEngine.Lib.StableSort
import NuvioEngine.Scheduler.SchedulerCore

/-!
The piece schedule of one request: every listed piece has the most urgent class among the
byte windows it reaches, and exactly the reached pieces are listed.
-/

namespace NuvioEngine.Scheduler

theorem min_saturatingAdd (left right : Nat) {bound : Nat} (fits : bound ≤ uint64Max) :
    min (saturatingAdd left right) bound = min (left + right) bound := by
  unfold saturatingAdd
  split <;> omega

theorem saturatingAdd_eq {left right : Nat} (fits : left + right ≤ uint64Max) :
    saturatingAdd left right = left + right := by
  unfold saturatingAdd
  split <;> omega

/-- The offset in the piece is a sum of remainders, and the piece's end may saturate: neither is
seen in the result. -/
theorem blockingDemandRange_ok {range result : ByteRange} {position fileOffset pieceSize : Nat}
    (bounded : range.last ≤ uint64Max)
    (accepted : blockingDemandRange range position fileOffset pieceSize = .ok result) :
    0 < pieceSize ∧ position ≤ range.last ∧
      result = ⟨position,
        min (position + (pieceSize - 1 - (fileOffset + position) % pieceSize)) range.last⟩ := by
  unfold blockingDemandRange at accepted
  split at accepted
  · simp at accepted
  · rename_i sized
    have positive : 0 < pieceSize := by omega
    split at accepted
    · simp at accepted
    · have remaining := Nat.mod_lt (fileOffset + position) positive
      rw [← Nat.add_mod, Except.ok.injEq] at accepted
      rw [min_saturatingAdd _ _ bounded, Nat.sub_right_comm] at accepted
      exact ⟨positive, by omega, accepted.symm⟩

theorem blockingDemandRange_covers {range result : ByteRange} {position fileOffset pieceSize : Nat}
    (bounded : range.last ≤ uint64Max)
    (accepted : blockingDemandRange range position fileOffset pieceSize = .ok result)
    (query : Nat) :
    result.Covers query ↔ position ≤ query ∧ query ≤ range.last ∧
      (fileOffset + query) / pieceSize = (fileOffset + position) / pieceSize := by
  obtain ⟨positive, within, rfl⟩ := blockingDemandRange_ok bounded accepted
  by_cases after : position ≤ query
  · have same : (fileOffset + query) / pieceSize = (fileOffset + position) / pieceSize ↔ _ :=
      Blocks.sameBlock_iff positive after
    simp only [ByteRange.Covers]
    omega
  · simp only [ByteRange.Covers]
    omega

/-- The pieces of the file have 32-bit indices and its bytes 64-bit positions. -/
structure ScheduleRequest.Placed (request : ScheduleRequest) : Prop where
  pieceSize : 0 < request.pieceSize
  fileSize : 0 < request.fileSize
  sized : request.fileSize ≤ uint64Max
  fits : request.fileOffset + request.fileSize ≤ 2 ^ 64
  indexed : (request.fileOffset + request.fileSize - 1) / request.pieceSize ≤ uint32Max

/-- The piece holds some byte of the file that lies in the window. -/
def ScheduleRequest.Reaches (request : ScheduleRequest) (window : Nat → Prop) (piece : Nat) : Prop :=
  ∃ position, window position ∧ position < request.fileSize ∧
    (request.fileOffset + position) / request.pieceSize = piece

/-- The byte windows of a request, as sets of file positions. -/
def ScheduleRequest.Window (request : ScheduleRequest) : PriorityClass → Nat → Prop
  | .blocking, position => request.demand.start ≤ position ∧ position ≤ request.demand.last
  | .critical, position =>
      request.demand.last + 1 ≤ position ∧
        position < request.demand.last + 1 + request.criticalBytes
  | .playback, position =>
      request.demand.last + 1 + request.criticalBytes ≤ position ∧
        position < request.demand.last + 1 + request.criticalBytes + request.playbackBytes
  | .readahead, position =>
      request.demand.last + 1 + request.criticalBytes + request.playbackBytes ≤ position ∧
        position < request.demand.last + 1 + request.criticalBytes + request.playbackBytes +
          request.readaheadBytes
  | .metadataTail, position => request.fileSize - request.metadataTailBytes ≤ position

theorem addRange_least {request : ScheduleRequest} (placed : request.Placed)
    {priorities : Priorities} {allowed : Nat → PriorityClass → Prop}
    (held : priorities.Least allowed) (range : ByteRange) (ordered : range.start ≤ range.last)
    (priority : PriorityClass) :
    ∃ next, addRange priorities request range priority = .ok next ∧
      next.Least (fun piece value => allowed piece value ∨ (value = priority ∧
        request.Reaches (fun position => range.start ≤ position ∧ position ≤ range.last) piece)) := by
  have sizes := placed.fileSize
  unfold addRange
  by_cases outside : request.fileSize = 0 ∨ range.start ≥ request.fileSize
  · refine ⟨priorities, by simp [outside], held.congr ?_⟩
    intro piece value
    constructor
    · exact Or.inl
    · rintro (old | ⟨_, position, window, below, _⟩)
      · exact old
      · omega
  · have fits := placed.fits
    have lastFits : request.fileOffset + min range.last (request.fileSize - 1) ≤ uint64Max := by
      unfold uint64Max
      omega
    have startFits : request.fileOffset + range.start ≤ uint64Max := by
      unfold uint64Max
      omega
    have indexed : (request.fileOffset + min range.last (request.fileSize - 1)) / request.pieceSize ≤
        uint32Max :=
      le_trans (Nat.div_le_div_right (by omega)) placed.indexed
    simp only [outside, if_false, saturatingAdd_eq startFits, saturatingAdd_eq lastFits,
      not_lt.mpr indexed]
    refine ⟨_, rfl, (held.foldl_lower id (fun _ => priority) _).congr ?_⟩
    intro piece value
    have reached : request.Reaches
        (fun position => range.start ≤ position ∧ position ≤ range.last) piece ↔
        Blocks.Meets request.fileOffset request.pieceSize range.start
          (min range.last (request.fileSize - 1)) piece := by
      constructor
      · rintro ⟨position, window, below, found⟩
        exact ⟨position, window.1, by omega, found⟩
      · rintro ⟨position, lower, upper, found⟩
        exact ⟨position, ⟨lower, by omega⟩, by omega, found⟩
    rw [reached, Blocks.meets_iff placed.pieceSize (by omega)]
    simp only [List.mem_range'_1, id_eq]
    constructor
    · rintro (old | ⟨item, member, same, matched⟩)
      · exact Or.inl old
      · exact Or.inr ⟨matched, by omega⟩
    · rintro (old | ⟨matched, bounds⟩)
      · exact Or.inl old
      · exact Or.inr ⟨piece, by omega, rfl, matched⟩

theorem addWindow_least {request : ScheduleRequest} (placed : request.Placed)
    {priorities : Priorities} {allowed : Nat → PriorityClass → Prop}
    (held : priorities.Least allowed) (bytes start : Nat) (priority : PriorityClass) :
    ∃ next, addWindow request bytes priority (priorities, min start request.fileSize) =
        .ok (next, min (start + bytes) request.fileSize) ∧
      next.Least (fun piece value => allowed piece value ∨ (value = priority ∧
        request.Reaches (fun position => start ≤ position ∧ position < start + bytes) piece)) := by
  unfold addWindow
  by_cases used : min start request.fileSize < request.fileSize ∧ bytes > 0
  · have startEq : min start request.fileSize = start := by omega
    simp only [startEq] at used ⊢
    have extended : extendFrom start bytes request.fileSize =
        ⟨start, min (start + bytes) request.fileSize - 1⟩ := by
      unfold extendFrom
      simp only [min_saturatingAdd start bytes placed.sized]
      rw [if_pos (by omega)]
    obtain ⟨next, added, least⟩ := addRange_least placed held
      ⟨start, min (start + bytes) request.fileSize - 1⟩ (by simp only; omega) priority
    refine ⟨next, ?_, least.congr ?_⟩
    · simp only [used, and_self, if_true, extended, added, min_saturatingAdd _ 1 placed.sized, bind,
        Except.bind, pure, Except.pure]
      congr 2
      omega
    · intro piece value
      have same : request.Reaches
          (fun position => start ≤ position ∧
            position ≤ min (start + bytes) request.fileSize - 1) piece ↔
          request.Reaches (fun position => start ≤ position ∧ position < start + bytes) piece := by
        constructor
        · rintro ⟨position, window, below, found⟩
          exact ⟨position, ⟨window.1, by omega⟩, below, found⟩
        · rintro ⟨position, window, below, found⟩
          exact ⟨position, ⟨window.1, by omega⟩, below, found⟩
      simp only [same]
  · refine ⟨priorities, ?_, held.congr ?_⟩
    · simp only [used, if_false, Except.ok.injEq, Prod.mk.injEq, true_and]
      omega
    · intro piece value
      constructor
      · exact Or.inl
      · rintro (old | ⟨_, position, window, below, _⟩)
        · exact old
        · omega

/-- The demand lies in the file. -/
structure ScheduleRequest.Demanded (request : ScheduleRequest) : Prop where
  ordered : request.demand.start ≤ request.demand.last
  inside : request.demand.start < request.fileSize

theorem addTail_least {request : ScheduleRequest} (placed : request.Placed)
    {priorities : Priorities} {allowed : Nat → PriorityClass → Prop}
    (held : priorities.Least allowed) :
    ∃ next, addTail request priorities = .ok next ∧
      next.Least (fun piece value => allowed piece value ∨ (value = .metadataTail ∧
        request.Reaches (request.Window .metadataTail) piece)) := by
  have sizes := placed.fileSize
  unfold addTail
  split
  · rename_i used
    obtain ⟨next, added, least⟩ := addRange_least placed held
      ⟨request.fileSize - min request.metadataTailBytes request.fileSize, request.fileSize - 1⟩
      (by simp only; omega) .metadataTail
    refine ⟨next, added, least.congr ?_⟩
    intro piece value
    have same : ∀ position, position < request.fileSize →
        ((request.fileSize - min request.metadataTailBytes request.fileSize ≤ position ∧
          position ≤ request.fileSize - 1) ↔ request.Window .metadataTail position) := by
      intro position below
      simp only [ScheduleRequest.Window]
      omega
    constructor
    · rintro (old | ⟨matched, position, window, below, found⟩)
      · exact Or.inl old
      · exact Or.inr ⟨matched, position, (same position below).mp window, below, found⟩
    · rintro (old | ⟨matched, position, window, below, found⟩)
      · exact Or.inl old
      · exact Or.inr ⟨matched, position, (same position below).mpr window, below, found⟩
  · rename_i unused
    refine ⟨priorities, rfl, held.congr ?_⟩
    intro piece value
    constructor
    · exact Or.inl
    · rintro (old | ⟨_, position, window, below, _⟩)
      · exact old
      · simp only [ScheduleRequest.Window] at window
        omega

/-- The schedule is the list of a map that holds, for every piece reached by some window, the
most urgent class among the windows that reach it. -/
theorem buildPieceSchedule_least {request : ScheduleRequest} (placed : request.Placed)
    (demanded : request.Demanded) :
    ∃ priorities : Priorities, buildPieceSchedule request = .ok (listByPriority priorities) ∧
      priorities.Least (fun piece value => request.Reaches (request.Window value) piece) := by
  obtain ⟨first, firstEq, firstLeast⟩ := addRange_least placed SortedMap.least_empty
    request.demand demanded.ordered .blocking
  obtain ⟨second, secondEq, secondLeast⟩ := addWindow_least placed firstLeast
    request.criticalBytes (request.demand.last + 1) .critical
  obtain ⟨third, thirdEq, thirdLeast⟩ := addWindow_least placed secondLeast
    request.playbackBytes (request.demand.last + 1 + request.criticalBytes) .playback
  obtain ⟨fourth, fourthEq, fourthLeast⟩ := addWindow_least placed thirdLeast
    request.readaheadBytes
    (request.demand.last + 1 + request.criticalBytes + request.playbackBytes) .readahead
  obtain ⟨last, lastEq, lastLeast⟩ := addTail_least placed fourthLeast
  have sizes := placed.fileSize
  have pieces := placed.pieceSize
  refine ⟨last, ?_, lastLeast.congr ?_⟩
  · unfold buildPieceSchedule
    rw [if_neg (by omega), if_neg (by omega), if_neg (by
      have := demanded.ordered
      have := demanded.inside
      omega)]
    simp only [firstEq, min_saturatingAdd _ 1 placed.sized, secondEq, thirdEq, fourthEq, lastEq,
      bind, Except.bind, pure, Except.pure]
  · intro piece value
    cases value <;> simp only [reduceCtorEq, false_and, or_false, false_or, true_and] <;> rfl

theorem mem_listByPriority (priorities : Priorities) (entry : PiecePriority) :
    entry ∈ listByPriority priorities ↔ priorities.lookup entry.piece = some entry.priority := by
  rw [SortedMap.lookup_eq_some_iff, listByPriority, List.mem_insertionSort]
  simp only [List.mem_map]
  constructor
  · rintro ⟨pair, member, rfl⟩
    exact member
  · intro member
    exact ⟨(entry.piece, entry.priority), member, rfl⟩

theorem listByPriority_nodup (priorities : Priorities) :
    ((listByPriority priorities).map PiecePriority.piece).Nodup := by
  have perm := (List.perm_insertionSort PiecePriority.before
    (priorities.entries.map fun entry => (⟨entry.1, entry.2⟩ : PiecePriority))).map PiecePriority.piece
  rw [listByPriority, perm.nodup_iff, List.map_map]
  exact priorities.keys_nodup

instance : Std.Total PiecePriority.before := ⟨fun left right => le_total left.priority right.priority⟩

instance : IsTrans PiecePriority PiecePriority.before :=
  ⟨fun _ _ _ first second => le_trans first second⟩

/-- First by class, then by piece index. -/
def PiecePriority.Precedes (left right : PiecePriority) : Prop :=
  left.priority < right.priority ∨ (left.priority = right.priority ∧ left.piece < right.piece)

theorem listByPriority_sorted (priorities : Priorities) :
    (listByPriority priorities).Pairwise PiecePriority.Precedes := by
  have keyed : (priorities.entries.map fun entry =>
      (⟨entry.1, entry.2⟩ : PiecePriority)).Pairwise fun left right => left.piece < right.piece := by
    rw [List.pairwise_map]
    exact priorities.ordered
  refine (StableSort.insertionSort_pairwise PiecePriority.before
    (fun left right => left.piece < right.piece) keyed).imp ?_
  rintro left right ⟨below, tie⟩
  rcases lt_or_eq_of_le below with smaller | same
  · exact Or.inl smaller
  · exact Or.inr ⟨same, tie (le_of_eq same.symm)⟩

/-- The piece's bytes in the torrent meet the window's bytes, shifted by the file's offset. -/
def ScheduleRequest.Spans (request : ScheduleRequest) (value : PriorityClass) (piece : Nat) : Prop :=
  ∃ position, request.Window value position ∧ position < request.fileSize ∧
    piece * request.pieceSize ≤ request.fileOffset + position ∧
    request.fileOffset + position < (piece + 1) * request.pieceSize

theorem ScheduleRequest.Placed.spans_iff {request : ScheduleRequest} (placed : request.Placed)
    (value : PriorityClass) (piece : Nat) :
    request.Spans value piece ↔ request.Reaches (request.Window value) piece := by
  have divides : ∀ position, (piece * request.pieceSize ≤ request.fileOffset + position ∧
      request.fileOffset + position < (piece + 1) * request.pieceSize) ↔
        (request.fileOffset + position) / request.pieceSize = piece := by
    intro position
    rw [Nat.div_eq_iff placed.pieceSize]
    have next : (piece + 1) * request.pieceSize = piece * request.pieceSize + request.pieceSize :=
      Nat.succ_mul _ _
    have positive := placed.pieceSize
    omega
  simp only [ScheduleRequest.Spans, ScheduleRequest.Reaches, divides]

/-- The schedule lists the pieces that meet a window, each once, with the most urgent class among the
windows it meets, by class and then by index. -/
theorem buildPieceSchedule_windows (request : ScheduleRequest) (pieceSize : 1 ≤ request.pieceSize)
    (fileSize : 0 < request.fileSize) (sized : request.fileSize < 2 ^ 64)
    (ordered : request.demand.start ≤ request.demand.last)
    (inside : request.demand.start < request.fileSize)
    (fits : request.fileOffset + request.fileSize ≤ 2 ^ 64)
    (indexed : (request.fileOffset + request.fileSize - 1) / request.pieceSize < 2 ^ 32) :
    ∃ schedule, buildPieceSchedule request = .ok schedule ∧
      (∀ piece, (∃ value, ⟨piece, value⟩ ∈ schedule) ↔ ∃ value, request.Spans value piece) ∧
      (schedule.map PiecePriority.piece).Nodup ∧
      (∀ entry ∈ schedule, request.Spans entry.priority entry.piece ∧
        ∀ value, request.Spans value entry.piece → entry.priority ≤ value) ∧
      schedule.Pairwise PiecePriority.Precedes := by
  have placed : request.Placed :=
    ⟨pieceSize, fileSize, by simp only [uint64Max]; omega, fits, by simp only [uint32Max]; omega⟩
  obtain ⟨priorities, built, least⟩ := buildPieceSchedule_least placed ⟨ordered, inside⟩
  refine ⟨_, built, ?_, listByPriority_nodup priorities, ?_, listByPriority_sorted priorities⟩
  · intro piece
    simp only [mem_listByPriority, placed.spans_iff]
    constructor
    · rintro ⟨value, found⟩
      exact ⟨value, least.sound piece value found⟩
    · rintro ⟨value, reached⟩
      obtain ⟨held, found, _⟩ := least.least piece value reached
      exact ⟨held, found⟩
  · intro entry member
    rw [mem_listByPriority] at member
    simp only [placed.spans_iff]
    refine ⟨least.sound _ _ member, fun value reached => ?_⟩
    obtain ⟨held, found, below⟩ := least.least _ value reached
    rw [member, Option.some.injEq] at found
    rw [found]
    exact below

/-- A demand in the second of ten pieces, with the windows behind it. -/
theorem buildPieceSchedule_windows_second_piece :
    ∃ schedule, buildPieceSchedule ⟨0, 100, 10, ⟨12, 17⟩, 10, 10, 10, 5⟩ = .ok schedule ∧
      schedule.Pairwise PiecePriority.Precedes ∧ ⟨1, .blocking⟩ ∈ schedule := by
  obtain ⟨schedule, built, _, _, _, sorted⟩ := buildPieceSchedule_windows
    ⟨0, 100, 10, ⟨12, 17⟩, 10, 10, 10, 5⟩ (by decide) (by decide) (by decide) (by decide) (by decide)
    (by decide) (by decide)
  have computed : buildPieceSchedule ⟨0, 100, 10, ⟨12, 17⟩, 10, 10, 10, 5⟩ =
      .ok [⟨1, .blocking⟩, ⟨2, .critical⟩, ⟨3, .playback⟩, ⟨9, .metadataTail⟩, ⟨4, .readahead⟩] := by
    decide
  refine ⟨schedule, built, sorted, ?_⟩
  rw [computed] at built
  rw [← Except.ok.inj built]
  exact List.mem_cons_self

end NuvioEngine.Scheduler
