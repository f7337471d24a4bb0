import NuvioEngine.Scheduler.DemandPlan

/-!
A demand in a file that is not empty gives a plan that is not empty.
-/

namespace NuvioEngine.Scheduler

section Filled

theorem lower_entries_ne_nil (map : Priorities) (piece : Nat) (priority : PriorityClass) :
    (map.lower piece priority).entries ≠ [] := by
  have found := SortedMap.lookup_lower map piece piece priority
  rw [if_pos rfl, SortedMap.lookup_eq_some_iff] at found
  exact List.ne_nil_of_mem found

theorem foldl_lower_entries {α : Type} (piece : α → Nat) (priority : α → PriorityClass)
    (items : List α) (map : Priorities) (filled : items ≠ [] ∨ map.entries ≠ []) :
    (items.foldl (fun current item => current.lower (piece item) (priority item)) map).entries ≠ [] := by
  induction items generalizing map with
  | nil => simpa using filled
  | cons item rest ih => exact ih _ (.inr (lower_entries_ne_nil map _ _))

theorem saturatingAdd_mono {left first second : Nat} (fits : left ≤ uint64Max) (below : first ≤ second) :
    saturatingAdd left first ≤ saturatingAdd left second := by
  unfold saturatingAdd
  split <;> split <;> omega

theorem addRange_entries {map next : Priorities} {request : ScheduleRequest} {range : ByteRange}
    {priority : PriorityClass} (added : addRange map request range priority = .ok next)
    (filled : map.entries ≠ [] ∨
      request.fileOffset ≤ uint64Max ∧ range.start < request.fileSize ∧ range.start ≤ range.last) :
    next.entries ≠ [] := by
  unfold addRange at added
  split at added
  · rename_i outside
    obtain rfl := Except.ok.inj added
    rcases filled with some | inside
    · exact some
    · omega
  · simp only at added
    split at added
    · simp at added
    · obtain rfl := Except.ok.inj added
      refine foldl_lower_entries id (fun _ => priority) _ map ?_
      rcases filled with some | ⟨fits, inside, ordered⟩
      · exact .inr some
      · refine .inl ?_
        have clamped : range.start ≤ min range.last (request.fileSize - 1) := le_min ordered (by omega)
        have first := saturatingAdd_mono fits clamped
        have pieces := Nat.div_le_div_right (c := request.pieceSize) first
        simp only [ne_eq, List.range'_eq_nil_iff]
        omega

theorem addWindow_entries {request : ScheduleRequest} {size : Nat} {priority : PriorityClass}
    {state next : Priorities × Nat} (added : addWindow request size priority state = .ok next)
    (filled : state.1.entries ≠ []) : next.1.entries ≠ [] := by
  unfold addWindow at added
  split at added
  · cases ranged : addRange state.1 request (extendFrom state.2 size request.fileSize) priority with
    | error message => simp [ranged, bind, Except.bind] at added
    | ok map =>
        simp only [ranged, bind, Except.bind, pure, Except.pure, Except.ok.injEq] at added
        rw [← added]
        exact addRange_entries ranged (.inl filled)
  · obtain rfl := Except.ok.inj added
    exact filled

theorem addTail_entries {request : ScheduleRequest} {map next : Priorities}
    (added : addTail request map = .ok next) (filled : map.entries ≠ []) : next.entries ≠ [] := by
  unfold addTail at added
  split at added
  · exact addRange_entries added (.inl filled)
  · obtain rfl := Except.ok.inj added
    exact filled

theorem listByPriority_ne_nil {map : Priorities} (filled : map.entries ≠ []) :
    listByPriority map ≠ [] := by
  intro empty
  have length := congrArg List.length empty
  simp only [listByPriority, List.length_insertionSort, List.length_map, List.length_nil] at length
  exact filled (List.eq_nil_of_length_eq_zero length)

theorem bind_eq_ok {ε α β : Type} {first : Except ε α} {next : α → Except ε β} {result : β}
    (same : (first >>= next) = .ok result) : ∃ middle, first = .ok middle ∧ next middle = .ok result := by
  cases first with
  | error message => simp [bind, Except.bind] at same
  | ok middle => exact ⟨middle, rfl, same⟩

theorem buildPieceSchedule_ne_nil {request : ScheduleRequest} {schedule : List PiecePriority}
    (built : buildPieceSchedule request = .ok schedule) (sized : 0 < request.fileSize)
    (fits : request.fileOffset ≤ uint64Max) : schedule ≠ [] := by
  unfold buildPieceSchedule at built
  split at built
  · simp at built
  rw [if_neg (by omega)] at built
  split at built
  · simp at built
  rename_i inside
  obtain ⟨blocking, first, built⟩ := bind_eq_ok built
  obtain ⟨critical, second, built⟩ := bind_eq_ok built
  obtain ⟨playback, third, built⟩ := bind_eq_ok built
  obtain ⟨readahead, fourth, built⟩ := bind_eq_ok built
  obtain ⟨all, last, built⟩ := bind_eq_ok built
  obtain rfl := Except.ok.inj built
  have blockingFilled := addRange_entries first (.inr ⟨fits, by omega⟩)
  have readaheadFilled := addWindow_entries fourth (addWindow_entries third
    (addWindow_entries second blockingFilled))
  exact listByPriority_ne_nil (addTail_entries last readaheadFilled)

theorem focusedSchedule_ne_nil {focused : StreamDemand} {window : StreamWindow}
    {schedule : List PiecePriority} (built : focusedSchedule focused window = .ok schedule)
    (sized : 0 < focused.fileSize) (fits : focused.fileOffset ≤ uint64Max) : schedule ≠ [] := by
  obtain ⟨windows, first, built⟩ := bind_eq_ok built
  have filled := buildPieceSchedule_ne_nil first sized fits
  obtain rfl := Except.ok.inj built
  split
  · exact filled
  · simpa using filled

theorem mergeSchedule_entries (combined : Priorities) {schedule : List PiecePriority}
    (filled : schedule ≠ [] ∨ combined.entries ≠ []) :
    (mergeSchedule combined schedule).entries ≠ [] :=
  foldl_lower_entries PiecePriority.piece PiecePriority.priority schedule combined filled

theorem mergeReaders_entries (others : List StreamDemand) {state next : Priorities × List Nat}
    (merged : mergeReaders others state = .ok next) (filled : state.1.entries ≠ []) :
    next.1.entries ≠ [] := by
  induction others generalizing state with
  | nil =>
      obtain rfl := Except.ok.inj merged
      exact filled
  | cons demand rest ih =>
      rw [mergeReaders] at merged
      split at merged
      · exact ih merged filled
      · obtain ⟨schedule, _, merged⟩ := bind_eq_ok merged
        exact ih merged (mergeSchedule_entries _ (.inr filled))

theorem buildStreamDemandPlan_ne_nil {demands : List StreamDemand} {window : StreamWindow}
    {plan : StreamDemandPlan} (built : buildStreamDemandPlan demands window = .ok plan)
    (sized : ∀ demand ∈ demands, 0 < demand.fileSize ∧ demand.fileOffset ≤ uint64Max)
    (some : demands ≠ []) : plan.pieces ≠ [] := by
  unfold buildStreamDemandPlan at built
  split at built
  · rename_i none
    have length := congrArg List.length none
    simp only [List.length_reverse, List.length_insertionSort, List.length_nil] at length
    exact absurd (List.eq_nil_of_length_eq_zero length) some
  · rename_i focused others sorted
    have listed : focused ∈ demands := by
      have member : focused ∈ (demands.insertionSort StreamDemand.older).reverse := by simp [sorted]
      simpa using member
    obtain ⟨schedule, first, built⟩ := bind_eq_ok built
    obtain ⟨head, _, built⟩ := bind_eq_ok built
    obtain ⟨merged, last, built⟩ := bind_eq_ok built
    obtain rfl := Except.ok.inj built
    have scheduled := mergeSchedule_entries SortedMap.empty
      (.inl (focusedSchedule_ne_nil first (sized focused listed).1 (sized focused listed).2))
    have all := mergeReaders_entries others last (mergeSchedule_entries _ (.inr scheduled))
    exact listByPriority_ne_nil all

end Filled

end NuvioEngine.Scheduler
