import NuvioEngine.Scheduler.PieceSchedule
import Mathlib.Order.Bounds.Basic
import Mathlib.Data.Finset.Max

/-!
The plan that merges all demands of a torrent: which class every piece gets, which pieces are
blocking, and which pieces are given a deadline.
-/

namespace NuvioEngine.Scheduler

theorem mem_pushUnseen {order : List Nat} {piece query : Nat} :
    query ∈ pushUnseen order piece ↔ query ∈ order ∨ query = piece := by
  unfold pushUnseen
  split
  · rename_i seen
    constructor
    · exact Or.inl
    · rintro (old | rfl)
      · exact old
      · exact seen
  · simp

theorem pushUnseen_nodup {order : List Nat} (unique : order.Nodup) (piece : Nat) :
    (pushUnseen order piece).Nodup := by
  unfold pushUnseen
  split
  · exact unique
  · rename_i unseen
    rw [List.nodup_append]
    refine ⟨unique, by simp, ?_⟩
    intro left leftMem right rightMem same
    simp only [List.mem_singleton] at rightMem
    exact unseen (rightMem ▸ same ▸ leftMem)

section PushSelected

variable {α : Type} (selected : α → Prop) [DecidablePred selected] (piece : α → Nat)

/-- Both loops that fill the deadline order push the unseen pieces of the selected entries. -/
theorem mem_foldl_pushUnseen (entries : List α) (order : List Nat) (query : Nat) :
    query ∈ entries.foldl (fun current entry =>
        if selected entry then pushUnseen current (piece entry) else current) order ↔
      query ∈ order ∨ ∃ entry ∈ entries, selected entry ∧ piece entry = query := by
  induction entries generalizing order with
  | nil => simp
  | cons entry rest ih =>
      rw [List.foldl_cons, ih]
      by_cases chosen : selected entry
      · simp only [chosen, if_true, mem_pushUnseen, List.mem_cons, exists_eq_or_imp, true_and,
          or_assoc, eq_comm (a := query)]
      · simp only [chosen, if_false, List.mem_cons, exists_eq_or_imp, false_and, false_or]

theorem foldl_pushUnseen_nodup (entries : List α) {order : List Nat} (unique : order.Nodup) :
    (entries.foldl (fun current entry =>
      if selected entry then pushUnseen current (piece entry) else current) order).Nodup := by
  induction entries generalizing order with
  | nil => exact unique
  | cons entry rest ih =>
      rw [List.foldl_cons]
      apply ih
      split
      · exact pushUnseen_nodup unique _
      · exact unique

end PushSelected

theorem mem_pushBlocking (order : List Nat) (schedule : List PiecePriority) (query : Nat) :
    query ∈ pushBlocking order schedule ↔ query ∈ order ∨ ⟨query, .blocking⟩ ∈ schedule := by
  rw [pushBlocking, mem_foldl_pushUnseen]
  constructor
  · rintro (old | ⟨⟨piece, priority⟩, member, chosen, same⟩)
    · exact Or.inl old
    · simp only at chosen same
      exact Or.inr (chosen ▸ same ▸ member)
  · rintro (old | member)
    · exact Or.inl old
    · exact Or.inr ⟨_, member, rfl, rfl⟩

theorem pushBlocking_nodup {order : List Nat} (unique : order.Nodup)
    (schedule : List PiecePriority) : (pushBlocking order schedule).Nodup :=
  foldl_pushUnseen_nodup _ _ schedule unique

theorem mem_pushCritical (order : List Nat) (combined : Priorities) (query : Nat) :
    query ∈ pushCritical order combined ↔ query ∈ order ∨ combined.lookup query = some .critical := by
  rw [pushCritical, mem_foldl_pushUnseen, SortedMap.lookup_eq_some_iff]
  constructor
  · rintro (old | ⟨⟨piece, priority⟩, member, chosen, same⟩)
    · exact Or.inl old
    · simp only at chosen same
      exact Or.inr (chosen ▸ same ▸ member)
  · rintro (old | member)
    · exact Or.inl old
    · exact Or.inr ⟨_, member, rfl, rfl⟩

theorem pushCritical_nodup {order : List Nat} (unique : order.Nodup) (combined : Priorities) :
    (pushCritical order combined).Nodup :=
  foldl_pushUnseen_nodup _ _ combined.entries unique

theorem mergeSchedule_least {combined : Priorities} {allowed : Nat → PriorityClass → Prop}
    (held : combined.Least allowed) (schedule : List PiecePriority) :
    (mergeSchedule combined schedule).Least
      (fun piece value => allowed piece value ∨ ⟨piece, value⟩ ∈ schedule) := by
  refine (held.foldl_lower PiecePriority.piece PiecePriority.priority schedule).congr ?_
  intro piece value
  constructor
  · rintro (old | ⟨entry, member, rfl, rfl⟩)
    · exact Or.inl old
    · exact Or.inr member
  · rintro (old | member)
    · exact Or.inl old
    · exact Or.inr ⟨_, member, rfl, rfl⟩

theorem mergeSchedule_relabel_least {combined priorities : Priorities}
    {allowed inner : Nat → PriorityClass → Prop} (held : combined.Least allowed)
    (source : priorities.Least inner) (change : PriorityClass → PriorityClass)
    (monotone : ∀ left right, left ≤ right → change left ≤ change right) :
    (mergeSchedule combined ((listByPriority priorities).map (PiecePriority.relabel change))).Least
      (fun piece value => allowed piece value ∨ ∃ kept, inner piece kept ∧ value = change kept) := by
  apply SortedMap.Least.absorb monotone source
  refine (mergeSchedule_least held _).congr ?_
  intro piece value
  constructor
  · rintro (old | member)
    · exact Or.inl old
    · obtain ⟨entry, listed, same⟩ := List.mem_map.mp member
      simp only [PiecePriority.relabel, PiecePriority.mk.injEq] at same
      exact Or.inr ⟨entry.priority, same.1 ▸ (mem_listByPriority priorities entry).mp listed,
        same.2.symm⟩
  · rintro (old | ⟨kept, present, rfl⟩)
    · exact Or.inl old
    · refine Or.inr (List.mem_map.mpr ⟨⟨piece, kept⟩, ?_, rfl⟩)
      exact (mem_listByPriority priorities _).mpr present

theorem relabel_id (schedule : List PiecePriority) :
    schedule.map (PiecePriority.relabel id) = schedule :=
  List.map_id schedule

theorem demoteBlocking_monotone (left right : PriorityClass) (below : left ≤ right) :
    demoteBlocking left ≤ demoteBlocking right := by
  rw [PriorityClass.le_iff] at below ⊢
  cases left <;> cases right <;> simp_all [demoteBlocking, PriorityClass.value]

/-- What the focused demand does to the classes of its own windows. -/
def StreamDemand.windowClass (focused : StreamDemand) (value : PriorityClass) : PriorityClass :=
  if focused.kind = .reader then value else demoteBlocking value

theorem StreamDemand.windowClass_monotone (focused : StreamDemand) (left right : PriorityClass)
    (below : left ≤ right) : focused.windowClass left ≤ focused.windowClass right := by
  unfold StreamDemand.windowClass
  split
  · exact below
  · exact demoteBlocking_monotone left right below

theorem focusedSchedule_eq {focused : StreamDemand} {window : StreamWindow} {priorities : Priorities}
    (built : buildPieceSchedule (focused.focusedRequest window) = .ok (listByPriority priorities)) :
    focusedSchedule focused window =
      .ok ((listByPriority priorities).map (PiecePriority.relabel focused.windowClass)) := by
  unfold focusedSchedule
  simp only [built, bind, Except.bind, pure, Except.pure, Except.ok.injEq]
  split
  · rename_i reader
    have same : focused.windowClass = id := by
      funext value
      simp [StreamDemand.windowClass, reader]
    rw [same, relabel_id]
  · rename_i other
    have same : focused.windowClass = demoteBlocking := by
      funext value
      simp [StreamDemand.windowClass, other]
    rw [same]

/-- A demand of a stream: its range starts in the file and its pieces have 32-bit indices. -/
structure StreamDemand.Valid (demand : StreamDemand) : Prop where
  pieceSize : 0 < demand.pieceSize
  pieceWidth : demand.pieceSize ≤ uint32Max
  fileSize : 0 < demand.fileSize
  sized : demand.fileSize ≤ uint64Max
  ordered : demand.range.start ≤ demand.range.last
  inside : demand.range.start < demand.fileSize
  indexed : (demand.fileOffset + demand.fileSize - 1) / demand.pieceSize ≤ uint32Max

/-- The piece holds a byte of the demand's file that is among `bytes`. -/
def StreamDemand.Meets (demand : StreamDemand) (bytes : Nat → Prop) (piece : Nat) : Prop :=
  ∃ position, bytes position ∧ position < demand.fileSize ∧
    (demand.fileOffset + position) / demand.pieceSize = piece

theorem StreamDemand.Valid.fits {demand : StreamDemand} (valid : demand.Valid) :
    demand.fileOffset + demand.fileSize ≤ 2 ^ 64 := by
  have below : demand.fileOffset + demand.fileSize - 1 < (uint32Max + 1) * demand.pieceSize :=
    (Nat.div_lt_iff_lt_mul valid.pieceSize).mp (Nat.lt_succ_of_le valid.indexed)
  have narrow : (uint32Max + 1) * demand.pieceSize ≤ (uint32Max + 1) * uint32Max :=
    Nat.mul_le_mul_left _ valid.pieceWidth
  have product : (uint32Max + 1) * uint32Max < 2 ^ 64 := by decide
  have := valid.fileSize
  omega

theorem StreamDemand.Valid.placed {demand : StreamDemand} (valid : demand.Valid) (range : ByteRange)
    (critical playback readahead tail : Nat) :
    ScheduleRequest.Placed ⟨demand.fileOffset, demand.fileSize, demand.pieceSize, range, critical,
      playback, readahead, tail⟩ :=
  ⟨valid.pieceSize, valid.fileSize, valid.sized, valid.fits, valid.indexed⟩

/-- A request for a bare range makes the pieces the range meets blocking and lists no others. -/
theorem rangeSchedule_least {demand : StreamDemand} (valid : demand.Valid) (range : ByteRange)
    (ordered : range.start ≤ range.last) (inside : range.start < demand.fileSize) :
    ∃ priorities : Priorities,
      buildPieceSchedule (demand.rangeRequest range) = .ok (listByPriority priorities) ∧
      priorities.Least (fun piece value => value = .blocking ∧ demand.Meets range.Covers piece) := by
  obtain ⟨priorities, built, least⟩ :=
    buildPieceSchedule_least (valid.placed range 0 0 0 0) ⟨ordered, inside⟩
  refine ⟨priorities, built, least.congr ?_⟩
  intro piece value
  constructor
  · rintro ⟨position, window, below, found⟩
    cases value <;> simp only [ScheduleRequest.Window] at window
    case blocking => exact ⟨rfl, position, window, below, found⟩
    all_goals
      simp only at below
      omega
  · rintro ⟨rfl, position, window, below, found⟩
    exact ⟨position, window, below, found⟩

/-- Some reader among the demands asks for a byte of the piece. -/
def ReaderMeets (demands : List StreamDemand) (piece : Nat) : Prop :=
  ∃ reader ∈ demands, reader.kind = .reader ∧ reader.Meets reader.range.Covers piece

theorem readerMeets_cons (demand : StreamDemand) (rest : List StreamDemand) (piece : Nat) :
    ReaderMeets (demand :: rest) piece ↔
      (demand.kind = .reader ∧ demand.Meets demand.range.Covers piece) ∨ ReaderMeets rest piece := by
  simp [ReaderMeets]

theorem mergeReaders_least (others : List StreamDemand)
    (valid : ∀ demand ∈ others, demand.kind = .reader → demand.Valid)
    {combined : Priorities} {order : List Nat} {allowed : Nat → PriorityClass → Prop}
    (held : combined.Least allowed) (unique : order.Nodup) :
    ∃ next : Priorities × List Nat, mergeReaders others (combined, order) = .ok next ∧
      next.1.Least (fun piece value =>
        allowed piece value ∨ (value = .blocking ∧ ReaderMeets others piece)) ∧
      next.2.Nodup ∧
      ∀ query, query ∈ next.2 ↔ query ∈ order ∨ ReaderMeets others query := by
  induction others generalizing combined order allowed with
  | nil =>
      refine ⟨(combined, order), rfl, held.congr ?_, unique, ?_⟩
      · simp [ReaderMeets]
      · simp [ReaderMeets]
  | cons demand rest ih =>
      have restValid : ∀ other ∈ rest, other.kind = .reader → other.Valid :=
        fun other member => valid other (List.mem_cons_of_mem _ member)
      simp only [readerMeets_cons]
      by_cases reader : demand.kind = .reader
      · have own := valid demand List.mem_cons_self reader
        obtain ⟨priorities, built, least⟩ := rangeSchedule_least own demand.range own.ordered own.inside
        have merged := mergeSchedule_relabel_least held least id fun _ _ below => below
        rw [relabel_id] at merged
        obtain ⟨next, nextEq, nextLeast, nextNodup, nextMem⟩ :=
          ih restValid merged (pushBlocking_nodup unique (listByPriority priorities))
        refine ⟨next, ?_, nextLeast.congr ?_, nextNodup, ?_⟩
        · simp only [mergeReaders, reader, ne_eq, not_true_eq_false, if_false, built, bind,
            Except.bind]
          exact nextEq
        · intro piece value
          simp only [reader, true_and, id_eq, and_or_left, or_assoc]
          constructor
          · rintro (old | ⟨kept, ⟨rfl, met⟩, rfl⟩ | later)
            · exact Or.inl old
            · exact Or.inr (Or.inl ⟨rfl, met⟩)
            · exact Or.inr (Or.inr later)
          · rintro (old | ⟨rfl, met⟩ | later)
            · exact Or.inl old
            · exact Or.inr (Or.inl ⟨.blocking, ⟨rfl, met⟩, rfl⟩)
            · exact Or.inr (Or.inr later)
        · intro query
          have listed : (⟨query, .blocking⟩ : PiecePriority) ∈ listByPriority priorities ↔
              demand.Meets demand.range.Covers query := by
            rw [mem_listByPriority]
            constructor
            · intro found
              exact (least.sound query .blocking found).2
            · intro met
              obtain ⟨other, found, _⟩ := least.least query .blocking ⟨rfl, met⟩
              rwa [(least.sound query other found).1] at found
          rw [nextMem, mem_pushBlocking, listed]
          simp only [reader, true_and, or_assoc]
      · obtain ⟨next, nextEq, nextLeast, nextNodup, nextMem⟩ := ih restValid held unique
        refine ⟨next, ?_, nextLeast.congr ?_, nextNodup, ?_⟩
        · simpa [mergeReaders, reader] using nextEq
        · simp [reader]
        · simpa [reader] using nextMem

/-- The focused range starts in the last `max tailBytes (fileSize / 64)` bytes of the file. -/
def StreamDemand.InIndexTail (focused : StreamDemand) (window : StreamWindow) : Prop :=
  0 < window.tailBytes ∧
    focused.fileSize ≤ focused.range.start + max window.tailBytes (focused.fileSize / 64)

theorem readsIndexTail_iff (focused : StreamDemand) (window : StreamWindow) :
    focused.readsIndexTail window = true ↔ focused.InIndexTail window := by
  simp only [StreamDemand.readsIndexTail, StreamDemand.InIndexTail, Bool.and_eq_true,
    decide_eq_true_eq]
  omega

theorem criticalBytes_le (focused : StreamDemand) (window : StreamWindow) :
    focused.criticalBytes window ≤ window.criticalBytes := by
  unfold StreamDemand.criticalBytes
  split
  · exact Nat.zero_le _
  · exact Nat.min_le_left _ _

/-- The bytes at the head of the file that an index read keeps downloading. -/
def StreamDemand.Head (focused : StreamDemand) (window : StreamWindow) (position : Nat) : Prop :=
  position < min (focused.criticalBytes window + window.playbackBytes) focused.fileSize

theorem headBytes_eq (focused : StreamDemand) {window : StreamWindow}
    (sum : window.criticalBytes + window.playbackBytes < 2 ^ 64) :
    focused.headBytes window =
      min (focused.criticalBytes window + window.playbackBytes) focused.fileSize := by
  have below := criticalBytes_le focused window
  rw [StreamDemand.headBytes, add64, Nat.mod_eq_of_lt (by omega)]

theorem headSchedule_least {focused : StreamDemand} (valid : focused.Valid) {window : StreamWindow}
    (sum : window.criticalBytes + window.playbackBytes < 2 ^ 64) {combined : Priorities}
    {allowed : Nat → PriorityClass → Prop} (held : combined.Least allowed) :
    ∃ head, headSchedule focused window = .ok head ∧
      (mergeSchedule combined head).Least (fun piece value => allowed piece value ∨
        (value = .playback ∧ focused.InIndexTail window ∧
          focused.Meets (focused.Head window) piece)) := by
  unfold headSchedule
  by_cases used : focused.readsIndexTail window = true ∧ focused.headBytes window > 0
  · have headLe : focused.headBytes window ≤ focused.fileSize := by
      rw [headBytes_eq focused sum]
      exact Nat.min_le_right _ _
    obtain ⟨priorities, built, least⟩ := rangeSchedule_least valid
      ⟨0, focused.headBytes window - 1⟩ (Nat.zero_le _) valid.fileSize
    simp only [used, and_self, if_true, built, bind, Except.bind, pure, Except.pure]
    refine ⟨_, rfl, (mergeSchedule_relabel_least held least _ fun _ _ _ => le_refl _).congr ?_⟩
    intro piece value
    have tail := (readsIndexTail_iff focused window).mp used.1
    have covered : ∀ position, ByteRange.Covers ⟨0, focused.headBytes window - 1⟩ position ↔
        focused.Head window position := by
      intro position
      simp only [ByteRange.Covers, StreamDemand.Head, ← headBytes_eq focused sum]
      omega
    simp only [funext fun position => propext (covered position), tail, true_and]
    constructor
    · rintro (old | ⟨kept, ⟨_, met⟩, rfl⟩)
      · exact Or.inl old
      · exact Or.inr ⟨rfl, met⟩
    · rintro (old | ⟨rfl, met⟩)
      · exact Or.inl old
      · exact Or.inr ⟨.blocking, ⟨rfl, met⟩, rfl⟩
  · refine ⟨[], by simp [used], held.congr ?_⟩
    intro piece value
    constructor
    · exact Or.inl
    · rintro (old | ⟨_, tail, position, window, _⟩)
      · exact old
      · refine absurd ⟨(readsIndexTail_iff focused _).mpr tail, ?_⟩ used
        rw [headBytes_eq focused sum]
        exact Nat.lt_of_le_of_lt (Nat.zero_le _) window

instance : Std.Total StreamDemand.older := ⟨fun left right => Nat.le_total left.id right.id⟩

instance : IsTrans StreamDemand StreamDemand.older :=
  ⟨fun _ _ _ first second => Nat.le_trans first second⟩

theorem exists_highest {demands : List StreamDemand} (some : demands ≠ []) :
    ∃ focused ∈ demands, ∀ demand ∈ demands, demand.id ≤ focused.id := by
  obtain ⟨focused, member, largest⟩ :=
    demands.toFinset.exists_max_image StreamDemand.id (by simpa using some)
  exact ⟨focused, by simpa using member, fun demand listed => largest demand (by simpa using listed)⟩

theorem focused_first {demands : List StreamDemand} (distinct : (demands.map StreamDemand.id).Nodup)
    {focused : StreamDemand} (member : focused ∈ demands)
    (highest : ∀ demand ∈ demands, demand.id ≤ focused.id) :
    ∃ others, (demands.insertionSort StreamDemand.older).reverse = focused :: others ∧
      ∀ demand, demand ∈ others ↔ demand ∈ demands ∧ demand.id ≠ focused.id := by
  have perm : (demands.insertionSort StreamDemand.older).reverse.Perm demands :=
    (List.reverse_perm _).trans (List.perm_insertionSort _ demands)
  have sorted : (demands.insertionSort StreamDemand.older).reverse.Pairwise
      fun left right => right.id ≤ left.id := by
    rw [List.pairwise_reverse]
    exact List.pairwise_insertionSort StreamDemand.older demands
  cases listed : (demands.insertionSort StreamDemand.older).reverse with
  | nil =>
      rw [listed] at perm
      exact absurd (perm.mem_iff.mpr member) List.not_mem_nil
  | cons first others =>
      rw [listed] at perm sorted
      have ids := (perm.map StreamDemand.id).nodup_iff.mpr distinct
      rw [List.map_cons, List.nodup_cons] at ids
      have firstEq : first = focused := by
        rcases List.mem_cons.mp (perm.mem_iff.mpr member) with same | later
        · exact same.symm
        · have below := (List.pairwise_cons.mp sorted).1 focused later
          have above := highest first (perm.mem_iff.mp List.mem_cons_self)
          exact absurd (List.mem_map.mpr ⟨focused, later, by omega⟩) ids.1
      subst firstEq
      refine ⟨others, rfl, ?_⟩
      intro demand
      rw [← perm.mem_iff, List.mem_cons]
      constructor
      · intro later
        refine ⟨Or.inr later, ?_⟩
        intro same
        exact ids.1 (List.mem_map.mpr ⟨demand, later, same⟩)
      · rintro ⟨same | later, different⟩
        · exact absurd (congrArg StreamDemand.id same) different
        · exact later

/-- Why a piece is in the plan, and under which class. -/
inductive Wanted (demands : List StreamDemand) (window : StreamWindow) (focused : StreamDemand)
    (piece : Nat) : PriorityClass → Prop
  | window (value : PriorityClass)
      (reached : focused.Meets ((focused.focusedRequest window).Window value) piece) :
      Wanted demands window focused piece (focused.windowClass value)
  | head (tail : focused.InIndexTail window)
      (reached : focused.Meets (focused.Head window) piece) :
      Wanted demands window focused piece .playback
  | reader (other : StreamDemand) (member : other ∈ demands) (different : other.id ≠ focused.id)
      (kind : other.kind = .reader) (reached : other.Meets other.range.Covers piece) :
      Wanted demands window focused piece .blocking

/-- What a plan promises about the demands it was built from. -/
structure StreamDemandPlan.Correct (plan : StreamDemandPlan) (demands : List StreamDemand)
    (window : StreamWindow) (focused : StreamDemand) : Prop where
  focus : plan.focusedDemandId = focused.id
  cold : plan.cold = focused.isCold
  once : (plan.pieces.map PiecePriority.piece).Nodup
  sorted : plan.pieces.Pairwise PiecePriority.Precedes
  classes : ∀ piece value, ⟨piece, value⟩ ∈ plan.pieces ↔
    IsLeast {wanted | Wanted demands window focused piece wanted} value
  blocking : ∀ piece, ⟨piece, .blocking⟩ ∈ plan.pieces ↔ ReaderMeets demands piece
  deadlinesOnce : plan.deadlineOrder.Nodup
  deadlines : ∀ piece, piece ∈ plan.deadlineOrder ↔
    ⟨piece, .blocking⟩ ∈ plan.pieces ∨ ⟨piece, .critical⟩ ∈ plan.pieces
  readers : ∀ reader ∈ demands, reader.kind = .reader →
    ∃ piece, reader.Meets reader.range.Covers piece ∧ ⟨piece, .blocking⟩ ∈ plan.pieces ∧
      piece ∈ plan.deadlineOrder

/-- The map behind the plan's pieces, with the order in which the readers' pieces were found. -/
structure PlanState (demands : List StreamDemand) (window : StreamWindow) (focused : StreamDemand)
    (combined : Priorities) (order : List Nat) : Prop where
  least : combined.Least (Wanted demands window focused)
  once : order.Nodup
  listed : ∀ piece, piece ∈ order ↔ ReaderMeets demands piece

theorem windowClass_eq_blocking {focused : StreamDemand} {value : PriorityClass} :
    focused.windowClass value = .blocking ↔ focused.kind = .reader ∧ value = .blocking := by
  unfold StreamDemand.windowClass
  split
  · simp [*]
  · cases value <;> simp [*, demoteBlocking]

theorem relabelled_blocking_iff (focused : StreamDemand) {priorities : Priorities}
    {allowed : Nat → PriorityClass → Prop} (least : priorities.Least allowed) (piece : Nat) :
    ⟨piece, .blocking⟩ ∈ (listByPriority priorities).map (PiecePriority.relabel focused.windowClass) ↔
      focused.kind = .reader ∧ allowed piece .blocking := by
  rw [List.mem_map]
  constructor
  · rintro ⟨entry, listed, same⟩
    simp only [PiecePriority.relabel, PiecePriority.mk.injEq] at same
    obtain ⟨reader, blocking⟩ := windowClass_eq_blocking.mp same.2
    have found := (mem_listByPriority priorities entry).mp listed
    rw [blocking, same.1] at found
    exact ⟨reader, least.sound piece .blocking found⟩
  · rintro ⟨reader, permitted⟩
    obtain ⟨held, found, below⟩ := least.least piece .blocking permitted
    have heldEq : held = .blocking := le_antisymm below (PriorityClass.blocking_le held)
    refine ⟨⟨piece, .blocking⟩, (mem_listByPriority priorities _).mpr (heldEq ▸ found), ?_⟩
    rw [PiecePriority.relabel, windowClass_eq_blocking.mpr ⟨reader, rfl⟩]

theorem wanted_blocking_iff {demands : List StreamDemand} (window : StreamWindow)
    {focused : StreamDemand} (member : focused ∈ demands)
    (distinct : (demands.map StreamDemand.id).Nodup) (piece : Nat) :
    Wanted demands window focused piece .blocking ↔ ReaderMeets demands piece := by
  constructor
  · intro wanted
    generalize asked : PriorityClass.blocking = value at wanted
    cases wanted with
    | window value reached =>
        obtain ⟨reader, rfl⟩ := windowClass_eq_blocking.mp asked.symm
        exact ⟨focused, member, reader, reached⟩
    | head tail reached => simp at asked
    | reader other listed different kind reached => exact ⟨other, listed, kind, reached⟩
  · rintro ⟨other, listed, kind, reached⟩
    by_cases same : other.id = focused.id
    · have equal : other = focused := List.inj_on_of_nodup_map distinct listed member same
      subst equal
      have class_eq : other.windowClass .blocking = .blocking :=
        windowClass_eq_blocking.mpr ⟨kind, rfl⟩
      exact class_eq ▸ Wanted.window .blocking reached
    · exact Wanted.reader other listed same kind reached

theorem buildStreamDemandPlan_state {demands : List StreamDemand} {window : StreamWindow}
    (sum : window.criticalBytes + window.playbackBytes < 2 ^ 64)
    (distinct : (demands.map StreamDemand.id).Nodup) {focused : StreamDemand}
    (member : focused ∈ demands) (highest : ∀ demand ∈ demands, demand.id ≤ focused.id)
    (focusedValid : focused.Valid)
    (readersValid : ∀ demand ∈ demands, demand.kind = .reader → demand.Valid) :
    ∃ combined order, PlanState demands window focused combined order ∧
      buildStreamDemandPlan demands window = .ok {
        focusedDemandId := focused.id
        pieces := listByPriority combined
        deadlineOrder := pushCritical order combined
        cold := focused.isCold } := by
  obtain ⟨others, sorted, othersMem⟩ := focused_first distinct member highest
  obtain ⟨priorities, built, least⟩ := buildPieceSchedule_least
    (focusedValid.placed focused.range (focused.criticalBytes window) window.playbackBytes
      window.readaheadBytes window.tailBytes) ⟨focusedValid.ordered, focusedValid.inside⟩
  have schedule := focusedSchedule_eq built
  have first := mergeSchedule_relabel_least SortedMap.least_empty least focused.windowClass
    focused.windowClass_monotone
  obtain ⟨head, headEq, second⟩ := headSchedule_least focusedValid sum first
  obtain ⟨merged, mergedEq, mergedLeast, mergedNodup, mergedMem⟩ := mergeReaders_least others
    (fun demand later => readersValid demand ((othersMem demand).mp later).1) second
    (pushBlocking_nodup List.nodup_nil
      ((listByPriority priorities).map (PiecePriority.relabel focused.windowClass)))
  refine ⟨merged.1, merged.2, ⟨mergedLeast.congr ?_, mergedNodup, ?_⟩, ?_⟩
  · intro piece value
    constructor
    · rintro (((impossible | ⟨kept, reached, rfl⟩) | ⟨rfl, tail, reached⟩) | ⟨rfl, other, later, kind, reached⟩)
      · exact impossible.elim
      · exact Wanted.window kept reached
      · exact Wanted.head tail reached
      · obtain ⟨listed, different⟩ := (othersMem other).mp later
        exact Wanted.reader other listed different kind reached
    · intro wanted
      cases wanted with
      | window kept reached => exact Or.inl (Or.inl (Or.inr ⟨kept, reached, rfl⟩))
      | head tail reached => exact Or.inl (Or.inr ⟨rfl, tail, reached⟩)
      | reader other listed different kind reached =>
          exact Or.inr ⟨rfl, other, (othersMem other).mpr ⟨listed, different⟩, kind, reached⟩
  · intro piece
    rw [mergedMem, mem_pushBlocking, relabelled_blocking_iff focused least, ReaderMeets]
    constructor
    · rintro ((impossible | ⟨reader, reached⟩) | ⟨other, later, kind, reached⟩)
      · exact absurd impossible List.not_mem_nil
      · exact ⟨focused, member, reader, reached⟩
      · exact ⟨other, ((othersMem other).mp later).1, kind, reached⟩
    · rintro ⟨other, listed, kind, reached⟩
      by_cases same : other.id = focused.id
      · have equal : other = focused := List.inj_on_of_nodup_map distinct listed member same
        exact Or.inl (Or.inr ⟨equal ▸ kind, equal ▸ reached⟩)
      · exact Or.inr ⟨other, (othersMem other).mpr ⟨listed, same⟩, kind, reached⟩
  · unfold buildStreamDemandPlan
    simp only [sorted, schedule, headEq, mergedEq, bind, Except.bind, pure, Except.pure]

theorem least_mem_iff {priorities : Priorities} {allowed : Nat → PriorityClass → Prop}
    (least : priorities.Least allowed) (piece : Nat) (value : PriorityClass) :
    ⟨piece, value⟩ ∈ listByPriority priorities ↔ IsLeast {wanted | allowed piece wanted} value := by
  rw [mem_listByPriority]
  constructor
  · intro found
    refine ⟨least.sound piece value found, ?_⟩
    intro other permitted
    obtain ⟨held, heldFound, below⟩ := least.least piece other permitted
    have same : value = held := Option.some.inj (found.symm.trans heldFound)
    exact same ▸ below
  · rintro ⟨permitted, smallest⟩
    obtain ⟨held, found, below⟩ := least.least piece value permitted
    have same : held = value := le_antisymm below (smallest (least.sound piece held found))
    exact same ▸ found

theorem PlanState.correct {demands : List StreamDemand} {window : StreamWindow}
    {focused : StreamDemand} {combined : Priorities} {order : List Nat}
    (state : PlanState demands window focused combined order) (member : focused ∈ demands)
    (distinct : (demands.map StreamDemand.id).Nodup)
    (readersValid : ∀ demand ∈ demands, demand.kind = .reader → demand.Valid) :
    StreamDemandPlan.Correct {
      focusedDemandId := focused.id
      pieces := listByPriority combined
      deadlineOrder := pushCritical order combined
      cold := focused.isCold } demands window focused := by
  have blocking : ∀ piece, ⟨piece, .blocking⟩ ∈ listByPriority combined ↔
      ReaderMeets demands piece := by
    intro piece
    rw [least_mem_iff state.least, ← wanted_blocking_iff window member distinct]
    exact ⟨fun least => least.1, fun wanted => ⟨wanted, fun other _ => other.blocking_le⟩⟩
  have deadlines : ∀ piece, piece ∈ pushCritical order combined ↔
      ⟨piece, .blocking⟩ ∈ listByPriority combined ∨
        ⟨piece, .critical⟩ ∈ listByPriority combined := by
    intro piece
    rw [mem_pushCritical, state.listed, blocking, mem_listByPriority]
  refine ⟨rfl, rfl, listByPriority_nodup combined, listByPriority_sorted combined,
    fun piece value => least_mem_iff state.least piece value, blocking,
    pushCritical_nodup state.once combined, deadlines, ?_⟩
  intro reader listed kind
  have valid := readersValid reader listed kind
  have met : reader.Meets reader.range.Covers
      ((reader.fileOffset + reader.range.start) / reader.pieceSize) :=
    ⟨reader.range.start, ⟨le_refl _, valid.ordered⟩, valid.inside, rfl⟩
  have found := (blocking _).mpr ⟨reader, listed, kind, met⟩
  exact ⟨_, met, found, (deadlines _).mpr (Or.inl found)⟩

/-- Every list of demands with distinct ids whose focused demand and readers are valid has a
plan, and the plan is correct; without demands it is the empty plan. -/
theorem buildStreamDemandPlan_correct (demands : List StreamDemand) (window : StreamWindow)
    (sum : window.criticalBytes + window.playbackBytes < 2 ^ 64)
    (distinct : (demands.map StreamDemand.id).Nodup)
    (valid : ∀ demand ∈ demands,
      (demand.kind = .reader ∨ ∀ other ∈ demands, other.id ≤ demand.id) → demand.Valid) :
    ∃ plan, buildStreamDemandPlan demands window = .ok plan ∧
      (demands = [] → plan = {}) ∧
      ∀ focused ∈ demands, (∀ demand ∈ demands, demand.id ≤ focused.id) →
        plan.Correct demands window focused := by
  have readersValid : ∀ demand ∈ demands, demand.kind = .reader → demand.Valid :=
    fun demand member kind => valid demand member (Or.inl kind)
  by_cases empty : demands = []
  · subst empty
    exact ⟨{}, rfl, fun _ => rfl, fun focused member => absurd member List.not_mem_nil⟩
  · obtain ⟨highest, highestMem, highestLe⟩ := exists_highest empty
    obtain ⟨combined, order, state, built⟩ := buildStreamDemandPlan_state sum distinct highestMem
      highestLe (valid highest highestMem (Or.inr highestLe)) readersValid
    refine ⟨_, built, fun none => absurd none empty, ?_⟩
    intro focused member largest
    have same : focused = highest := List.inj_on_of_nodup_map distinct member highestMem
      (Nat.le_antisymm (highestLe focused member) (largest highest highestMem))
    subst same
    exact state.correct member distinct readersValid

theorem buildStreamDemandPlan_two_readers :
    ∃ plan, buildStreamDemandPlan
        [⟨1, 100, 4096, 1024, ⟨0, 1023⟩, .reader, false⟩,
          ⟨2, 100, 4096, 1024, ⟨2048, 3071⟩, .reader, false⟩] ⟨1024, 4, 1024, 1024, 0⟩ = .ok plan ∧
      plan.Correct
        [⟨1, 100, 4096, 1024, ⟨0, 1023⟩, .reader, false⟩,
          ⟨2, 100, 4096, 1024, ⟨2048, 3071⟩, .reader, false⟩] ⟨1024, 4, 1024, 1024, 0⟩
        ⟨2, 100, 4096, 1024, ⟨2048, 3071⟩, .reader, false⟩ := by
  obtain ⟨plan, built, _, correct⟩ := buildStreamDemandPlan_correct
    [⟨1, 100, 4096, 1024, ⟨0, 1023⟩, .reader, false⟩,
      ⟨2, 100, 4096, 1024, ⟨2048, 3071⟩, .reader, false⟩] ⟨1024, 4, 1024, 1024, 0⟩
    (by decide) (by decide) (by
      simp only [List.mem_cons, List.not_mem_nil, or_false, forall_eq_or_imp, forall_eq]
      exact ⟨fun _ => by constructor <;> decide, fun _ => by constructor <;> decide⟩)
  exact ⟨plan, built, correct _ (by decide) (by decide)⟩

theorem mergeSchedule_blocking {combined : Priorities} {schedule : List PiecePriority} {piece : Nat}
    (asked : combined.lookup piece = some .blocking ∨ ⟨piece, .blocking⟩ ∈ schedule) :
    (mergeSchedule combined schedule).lookup piece = some .blocking := by
  have self : combined.Least fun key value => combined.lookup key = some value :=
    ⟨fun _ _ found => found, fun _ value found => ⟨value, found, le_refl value⟩⟩
  obtain ⟨held, found, below⟩ := (mergeSchedule_least self schedule).least piece .blocking asked
  rw [found, le_antisymm below (PriorityClass.blocking_le held)]

theorem mergeReaders_ordered (others : List StreamDemand) {state next : Priorities × List Nat}
    (merged : mergeReaders others state = .ok next) (once : state.2.Nodup)
    (held : ∀ piece ∈ state.2, state.1.lookup piece = some .blocking) :
    next.2.Nodup ∧ ∀ piece ∈ next.2, next.1.lookup piece = some .blocking := by
  induction others generalizing state with
  | nil =>
      simp only [mergeReaders, Except.ok.injEq] at merged
      subst merged
      exact ⟨once, held⟩
  | cons demand rest ih =>
      simp only [mergeReaders] at merged
      split at merged
      · exact ih merged once held
      · cases built : buildPieceSchedule (demand.rangeRequest demand.range) with
        | error message => simp [built, bind, Except.bind] at merged
        | ok schedule =>
            simp only [built, bind, Except.bind] at merged
            refine ih merged (pushBlocking_nodup once schedule) ?_
            intro piece listed
            rcases (mem_pushBlocking _ _ _).mp listed with old | new
            · exact mergeSchedule_blocking (Or.inl (held piece old))
            · exact mergeSchedule_blocking (Or.inr new)

/-- Whatever the demands are, a plan orders no piece twice and only pieces it lists as blocking
or critical. -/
theorem buildStreamDemandPlan_deadlines {demands : List StreamDemand} {window : StreamWindow}
    {plan : StreamDemandPlan} (built : buildStreamDemandPlan demands window = .ok plan) :
    (plan.pieces.map PiecePriority.piece).Nodup ∧ plan.deadlineOrder.Nodup ∧
      ∀ piece ∈ plan.deadlineOrder,
        ⟨piece, .blocking⟩ ∈ plan.pieces ∨ ⟨piece, .critical⟩ ∈ plan.pieces := by
  unfold buildStreamDemandPlan at built
  split at built
  · simp only [Except.ok.injEq] at built
    subst built
    simp
  · rename_i focused others sorted
    cases first : focusedSchedule focused window with
    | error message => simp [first, bind, Except.bind] at built
    | ok schedule =>
        cases second : headSchedule focused window with
        | error message => simp [first, second, bind, Except.bind] at built
        | ok head =>
            cases third : mergeReaders others (mergeSchedule (mergeSchedule SortedMap.empty schedule)
                head, pushBlocking [] schedule) with
            | error message => simp [first, second, third, bind, Except.bind] at built
            | ok merged =>
                simp only [first, second, third, bind, Except.bind, pure, Except.pure,
                  Except.ok.injEq] at built
                subst built
                obtain ⟨once, held⟩ := mergeReaders_ordered others third
                  (pushBlocking_nodup List.nodup_nil schedule) (by
                    intro piece listed
                    rcases (mem_pushBlocking _ _ _).mp listed with old | new
                    · exact absurd old List.not_mem_nil
                    · exact mergeSchedule_blocking (Or.inl (mergeSchedule_blocking (Or.inr new))))
                refine ⟨listByPriority_nodup _, pushCritical_nodup once _, ?_⟩
                intro piece listed
                simp only [mem_listByPriority]
                rcases (mem_pushCritical _ _ _).mp listed with old | critical
                · exact Or.inl (held piece old)
                · exact Or.inr critical

theorem buildStreamDemandPlan_focused {demands : List StreamDemand} {window : StreamWindow}
    {plan : StreamDemandPlan} (built : buildStreamDemandPlan demands window = .ok plan) :
    (demands = [] ∧ plan = {}) ∨ ∃ focused ∈ demands, plan.focusedDemandId = focused.id := by
  unfold buildStreamDemandPlan at built
  split at built
  · rename_i sorted
    have empty : demands = [] := by
      rw [List.reverse_eq_nil_iff] at sorted
      exact List.Perm.nil_eq (sorted ▸ List.perm_insertionSort StreamDemand.older demands) |>.symm
    simp only [Except.ok.injEq] at built
    exact Or.inl ⟨empty, built.symm⟩
  · rename_i focused others sorted
    have member : focused ∈ demands := by
      rw [← List.mem_insertionSort StreamDemand.older, ← List.mem_reverse, sorted]
      exact List.mem_cons_self
    refine Or.inr ⟨focused, member, ?_⟩
    cases first : focusedSchedule focused window with
    | error message => simp [first, bind, Except.bind] at built
    | ok schedule =>
        cases second : headSchedule focused window with
        | error message => simp [first, second, bind, Except.bind] at built
        | ok head =>
            simp only [first, second, bind, Except.bind, pure, Except.pure] at built
            split at built
            · simp at built
            · simp only [Except.ok.injEq] at built
              rw [← built]

section Order

variable {left right : List StreamDemand}

theorem sortedDemands_unique {demands : List StreamDemand}
    (distinct : (demands.map StreamDemand.id).Nodup) (leftPerm : left.Perm demands)
    (rightPerm : right.Perm demands) (leftSorted : left.Pairwise StreamDemand.older)
    (rightSorted : right.Pairwise StreamDemand.older) : left = right := by
  refine List.Perm.eq_of_pairwise ?_ leftSorted rightSorted (leftPerm.trans rightPerm.symm)
  intro first second firstMem secondMem below above
  exact List.inj_on_of_nodup_map distinct (leftPerm.subset firstMem) (rightPerm.subset secondMem)
    (Nat.le_antisymm below above)

theorem insertionSort_older (demands : List StreamDemand) :
    (demands.insertionSort StreamDemand.older).Pairwise StreamDemand.older := by
  have total : Std.Total StreamDemand.older := ⟨fun first second => Nat.le_total first.id second.id⟩
  have transitive : IsTrans StreamDemand StreamDemand.older :=
    ⟨fun _ _ _ => @Nat.le_trans _ _ _⟩
  exact List.pairwise_insertionSort _ demands

theorem buildStreamDemandPlan_perm (same : left.Perm right)
    (distinct : (left.map StreamDemand.id).Nodup) (window : StreamWindow) :
    buildStreamDemandPlan left window = buildStreamDemandPlan right window := by
  have sorted : left.insertionSort StreamDemand.older = right.insertionSort StreamDemand.older :=
    sortedDemands_unique distinct (List.perm_insertionSort _ left)
      ((List.perm_insertionSort _ right).trans same.symm) (insertionSort_older left)
      (insertionSort_older right)
  unfold buildStreamDemandPlan
  rw [sorted]

/-- Both orders of the demands fail, or give the same plan. `std::ranges::sort` is not stable, but it
has only one result to choose from. -/
theorem buildStreamDemandPlan_order_independent {demands other : List StreamDemand}
    (distinct : (demands.map StreamDemand.id).Nodup) (permuted : demands.Perm other)
    (window : StreamWindow) :
    (∀ sorted : List StreamDemand, sorted.Perm other → sorted.Pairwise StreamDemand.older →
      sorted = other.insertionSort StreamDemand.older) ∧
    (((∃ error, buildStreamDemandPlan demands window = .error error) ∧
        ∃ error, buildStreamDemandPlan other window = .error error) ∨
      ∃ plan, buildStreamDemandPlan demands window = .ok plan ∧
        buildStreamDemandPlan other window = .ok plan) := by
  constructor
  · intro sorted same ordered
    exact sortedDemands_unique ((permuted.map StreamDemand.id).nodup_iff.mp distinct) same
      (List.perm_insertionSort _ other) ordered (insertionSort_older other)
  · rw [buildStreamDemandPlan_perm permuted distinct window]
    cases built : buildStreamDemandPlan other window with
    | error message => exact Or.inl ⟨⟨message, rfl⟩, message, rfl⟩
    | ok plan => exact Or.inr ⟨plan, rfl, rfl⟩

/-- Two readers of one file, in both orders. -/
theorem buildStreamDemandPlan_order_independent_two :
    ∃ plan, plan.focusedDemandId = 2 ∧
      buildStreamDemandPlan [⟨1, 0, 100, 10, ⟨0, 9⟩, .reader, false⟩, ⟨2, 0, 100, 10, ⟨50, 59⟩, .reader, false⟩]
        ⟨10, 1, 10, 10, 0⟩ = .ok plan ∧
      buildStreamDemandPlan [⟨2, 0, 100, 10, ⟨50, 59⟩, .reader, false⟩, ⟨1, 0, 100, 10, ⟨0, 9⟩, .reader, false⟩]
        ⟨10, 1, 10, 10, 0⟩ = .ok plan := by
  have swapped := (buildStreamDemandPlan_order_independent
    (show ([⟨1, 0, 100, 10, ⟨0, 9⟩, .reader, false⟩, ⟨2, 0, 100, 10, ⟨50, 59⟩, .reader, false⟩].map
      StreamDemand.id).Nodup by decide) (List.Perm.swap _ _ []) ⟨10, 1, 10, 10, 0⟩).2
  rcases swapped with ⟨⟨message, failed⟩, _⟩ | ⟨plan, first, second⟩
  · exact absurd failed (by
      intro same
      have built : (buildStreamDemandPlan [⟨1, 0, 100, 10, ⟨0, 9⟩, .reader, false⟩,
        ⟨2, 0, 100, 10, ⟨50, 59⟩, .reader, false⟩] ⟨10, 1, 10, 10, 0⟩).toOption.isSome = true := by decide
      rw [same] at built
      simp [Except.toOption] at built)
  · refine ⟨plan, ?_, first, second⟩
    have focused : ((buildStreamDemandPlan [⟨1, 0, 100, 10, ⟨0, 9⟩, .reader, false⟩,
      ⟨2, 0, 100, 10, ⟨50, 59⟩, .reader, false⟩] ⟨10, 1, 10, 10, 0⟩).map
        StreamDemandPlan.focusedDemandId).toOption = some 2 := by decide
    rw [first] at focused
    exact Option.some.inj focused

end Order

end NuvioEngine.Scheduler
