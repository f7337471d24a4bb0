import NuvioEngine.Bridge.Served

/-!
The operations that clean up after readers keep the remaining ones served, and so does asking
libtorrent for one more piece.
-/

namespace NuvioEngine.Bridge

open NuvioEngine.Scheduler NuvioEngine.Stream NuvioEngine.Cache BridgeState

section Ease

variable (state : BridgeState)

theorem Eases.congr {first second third : BridgeState} (eases : Eases first second)
    (waiters : third.waiters = second.waiters) (pieceWaiters : third.pieceWaiters = second.pieceWaiters)
    (demands : third.activeDemands = second.activeDemands)
    (schedules : third.currentSchedules = second.currentSchedules)
    (calls : third.calls = second.calls) (reads : third.requestedReads = second.requestedReads) :
    Eases first third :=
  eases.trans (Eases.ofHolds (Holds.same waiters pieceWaiters demands) schedules calls reads)

theorem updateWaiter_eases (waiter : Nat) {changed : PieceWaiter}
    (owner : changed.demandId = (state.waiters waiter).demandId)
    (past : finished (state.waiters waiter) = true → finished changed = true) :
    Eases state { state with waiters := Function.update state.waiters waiter changed } := by
  refine Eases.ofHolds ⟨?_, fun _ _ held => held, fun _ demand found => ⟨demand, found, rfl, rfl, id⟩⟩
    rfl rfl rfl
  intro other
  by_cases same : other = waiter
  · subst same
    simp only [Function.update_self]
    exact ⟨owner, past⟩
  · simp [same]

theorem completeWaiter_eases (data : Option (List UInt8)) (error : String) (waiter : Nat) :
    Eases state (state.completeWaiter data error waiter) := by
  refine updateWaiter_eases state waiter ?_ ?_
  · unfold Stream.completeWaiter
    split <;> rfl
  · intro past
    unfold Stream.completeWaiter
    split
    · exact past
    · rfl

theorem completeWaiters_eases (data : Option (List UInt8)) (error : String) (waiters : List Nat) :
    Eases state (state.completeWaiters data error waiters) :=
  Eases.foldl (fun current waiter => completeWaiter_eases current data error waiter) waiters state

theorem publishBlocks_eases (blocks : List Bool) (waiter : Nat) :
    Eases state (state.publishBlocks blocks waiter) := by
  refine updateWaiter_eases state waiter ?_ ?_
  · unfold Stream.publishBlocks
    split <;> rfl
  · intro past
    unfold Stream.publishBlocks
    split
    · exact past
    · exact past

theorem publishPartial_eases (key : PieceKey) : Eases state (state.publishPartial key) := by
  unfold publishPartial
  split
  · exact Eases.foldl (fun current waiter => publishBlocks_eases current _ waiter) _ state
  · exact Eases.refl state

theorem dropHeld_eases {next : BridgeState} (waiters : next.waiters = state.waiters)
    (demands : next.activeDemands = state.activeDemands)
    (schedules : next.currentSchedules = state.currentSchedules) (calls : next.calls = state.calls)
    (reads : next.requestedReads = state.requestedReads)
    (held : ∀ key waiter, Held next key waiter → Held state key waiter) : Eases state next := by
  refine Eases.ofHolds ⟨fun waiter => by rw [waiters]; exact ⟨rfl, id⟩, held, ?_⟩ schedules calls reads
  intro demandId demand found
  exact ⟨demand, demands ▸ found, rfl, rfl, id⟩

theorem dropWaiters_eases (dropped : Nat → Bool) : Eases state (state.dropWaiters dropped) := by
  refine dropHeld_eases state rfl rfl rfl rfl rfl ?_
  rintro key waiter ⟨list, found, member⟩
  simp only [dropWaiters, AList.lookup_filterMapEntries, Option.bind_eq_some_iff] at found
  obtain ⟨old, present, kept⟩ := found
  split at kept
  · simp at kept
  · obtain rfl := Option.some.inj kept
    exact ⟨old, present, (List.mem_filter.mp member).1⟩

theorem eraseHeld_eases (key : PieceKey) :
    Eases state { state with pieceWaiters := state.pieceWaiters.erase key } := by
  refine dropHeld_eases state rfl rfl rfl rfl rfl ?_
  rintro query waiter ⟨list, found, member⟩
  simp only [AList.lookup_erase_ite] at found
  split at found
  · simp at found
  · exact ⟨list, found, member⟩

theorem failPiece_eases (key : PieceKey) (error : String) : Eases state (state.failPiece key error) := by
  have cleared : Eases state { state with partialBlocks := state.partialBlocks.erase key } :=
    (Eases.refl state).congr rfl rfl rfl rfl rfl rfl
  unfold failPiece
  simp only
  split
  · exact cleared
  · exact (cleared.trans (completeWaiters_eases _ none error _)).trans (eraseHeld_eases _ key)

theorem dropDemands_eases {next : BridgeState} (waiters : next.waiters = state.waiters)
    (pieceWaiters : next.pieceWaiters = state.pieceWaiters)
    (schedules : next.currentSchedules = state.currentSchedules) (calls : next.calls = state.calls)
    (reads : next.requestedReads = state.requestedReads)
    (demands : ∀ demandId demand, next.activeDemands.lookup demandId = some demand →
      ∃ old, state.activeDemands.lookup demandId = some old ∧ old.route = demand.route ∧
        old.range = demand.range ∧ (demand.needsData = true → old.needsData = true)) :
    Eases state next := by
  refine Eases.ofHolds ⟨fun waiter => by rw [waiters]; exact ⟨rfl, id⟩, ?_, demands⟩ schedules calls reads
  rintro key waiter ⟨list, found, member⟩
  exact ⟨list, pieceWaiters ▸ found, member⟩

theorem eraseDemand_eases (demandId : Nat) :
    Eases state { state with activeDemands := state.activeDemands.erase demandId } := by
  refine dropDemands_eases state rfl rfl rfl rfl rfl ?_
  intro query demand found
  simp only [AList.lookup_erase_ite] at found
  split at found
  · simp at found
  · exact ⟨demand, found, rfl, rfl, id⟩

theorem setNeedsData_false_eases (demandId : Nat) :
    Eases state (state.setNeedsData demandId false) := by
  unfold setNeedsData
  split
  · exact Eases.refl state
  · rename_i demand present
    refine dropDemands_eases state rfl rfl rfl rfl rfl ?_
    intro query other found
    simp only [AList.lookup_insert_ite] at found
    split at found
    · rename_i same
      obtain rfl := Option.some.inj found
      exact ⟨demand, same ▸ present, rfl, rfl, by simp⟩
    · exact ⟨other, found, rfl, rfl, id⟩

theorem cancelDemandState_eases (demandState : Option Nat) :
    Eases state (state.cancelDemandState demandState) := by
  unfold cancelDemandState
  split
  · exact Eases.refl state
  · exact (Eases.refl state).congr rfl rfl rfl rfl rfl rfl

theorem cancelDemandWaiters_eases (demandId : Nat) (error : String) :
    Eases state (state.cancelDemandWaiters demandId error) :=
  (completeWaiters_eases state none error _).trans (dropWaiters_eases _ _)

theorem stopDemand_eases (demandId : Nat) (demand : ActiveDemand) :
    Eases state (state.stopDemand demandId demand) :=
  ((cancelDemandState_eases state demand.state).trans
    (cancelDemandWaiters_eases _ demandId "stream was stopped")).trans (eraseDemand_eases _ demandId)

theorem stopped_eases (streamId : String) : Eases state (stopped state streamId) := by
  refine Eases.trans ?_ (Eases.foldl (fun current (entry : Sigma fun _ : Nat => ActiveDemand) =>
    stopDemand_eases current entry.1 entry.2) _ _)
  exact (Eases.refl state).congr rfl rfl rfl rfl rfl rfl

theorem removed_eases (id : String) : Eases state (removed state id) := by
  have cancels := removed_cancels state id
  have waiters : (removed state id).waiters = state.waiters :=
    (congrArg BridgeState.waiters cancels).trans rfl
  have reads : ∀ other piece, requested (removed state id) other piece = true ↔
      requested state other piece = true ∧ other ≠ id := by
    intro other piece
    rw [requested, show (removed state id).requestedReads = _ from
      congrArg BridgeState.requestedReads cancels]
    simp [requested, Option.isSome_iff_exists, AList.lookup_eraseIf]
  refine ⟨⟨fun waiter => by rw [waiters]; exact ⟨rfl, fun past => past⟩, ?_, ?_⟩, ?_, ?_, ?_, ?_⟩
  · rintro key waiter ⟨list, found, member⟩
    rw [show (removed state id).pieceWaiters = state.pieceWaiters from
      (congrArg BridgeState.pieceWaiters cancels).trans rfl] at found
    exact ⟨list, found, member⟩
  · intro demandId demand found
    exact ⟨demand, ((lookup_removed_demands id demandId demand).mp found).1, rfl, rfl,
      fun needs => needs⟩
  · exact (congrArg BridgeState.currentSchedules cancels).trans rfl
  · exact (congrArg BridgeState.calls cancels).trans rfl
  · intro other piece read
    exact ((reads other piece).mp read).1
  · intro key waiter demand _ active torrent read
    exact (reads _ _).mpr ⟨read, torrent ▸ ((lookup_removed_demands id _ demand).mp active).2⟩

theorem eraseTorrent_eases (id error : String) (waiting : List Nat) :
    Eases state { state.completeWaiters none error waiting with
      pieceWaiters := (state.completeWaiters none error waiting).pieceWaiters.eraseIf
        fun key _ => key.torrentId = id } := by
  refine (completeWaiters_eases state none error waiting).trans ?_
  refine dropHeld_eases _ rfl rfl rfl rfl rfl ?_
  rintro key waiter ⟨list, found, member⟩
  exact ⟨list, ((AList.lookup_eraseIf _ _ _ _).mp found).1, member⟩

theorem completeWaiters_eq (data : Option (List UInt8)) (error : String) (waiters : List Nat) :
    state.completeWaiters data error waiters = { state with
      waiters := waiters.foldl (fun heap waiter =>
        Function.update heap waiter (Stream.completeWaiter (heap waiter) data error)) state.waiters } := by
  unfold completeWaiters
  induction waiters generalizing state with
  | nil => rfl
  | cons waiter rest ih =>
      rw [List.foldl_cons, ih]
      rfl

theorem answered_eases (key : PieceKey) (data : Option (List UInt8)) (error : String)
    (waiters : List Nat) {next : BridgeState}
    (heap : next.waiters = (state.completeWaiters data error waiters).waiters)
    (pieceWaiters : ∀ query, next.pieceWaiters.lookup query =
      if query = key then none else state.pieceWaiters.lookup query)
    (demands : next.activeDemands = state.activeDemands)
    (schedules : next.currentSchedules = state.currentSchedules) (calls : next.calls = state.calls)
    (reads : next.requestedReads = state.requestedReads.erase key) : Eases state next := by
  have completes := (completeWaiters_eases state data error waiters).holds
  have same : ∀ id piece, requested next id piece =
      if (⟨id, piece⟩ : PieceKey) = key then false else requested state id piece := by
    intro id piece
    rw [requested, reads, AList.lookup_erase_ite]
    split
    · rfl
    · rfl
  have held : ∀ query waiter, Held next query waiter → query ≠ key ∧ Held state query waiter := by
    rintro query waiter ⟨list, found, member⟩
    rw [pieceWaiters] at found
    split at found
    · simp at found
    · rename_i different
      exact ⟨different, list, found, member⟩
  refine ⟨⟨fun waiter => by rw [heap]; exact completes.heap waiter,
    fun query waiter waits => (held query waiter waits).2, ?_⟩, schedules, calls, ?_, ?_⟩
  · intro demandId demand found
    exact ⟨demand, demands ▸ found, rfl, rfl, fun needs => needs⟩
  · intro id piece read
    rw [same] at read
    split at read
    · simp at read
    · exact read
  · intro query waiter demand waits _ _ read
    rw [same, if_neg (held query waiter waits).1]
    exact read

theorem failForgotten_eases (key : PieceKey) (error : String) :
    Eases state ((state.forgetRead key).failPiece key error) := by
  unfold failPiece forgetRead
  simp only
  split
  · rename_i found
    refine answered_eases state key none error [] rfl ?_ rfl rfl rfl rfl
    intro query
    by_cases same : query = key
    · rw [if_pos same, same]
      exact found
    · rw [if_neg same]
  · rename_i waiters found
    simp only [completeWaiters_eq]
    exact answered_eases state key none error waiters (by rw [completeWaiters_eq])
      (fun query => AList.lookup_erase_ite _ _ _) rfl rfl rfl rfl

theorem deliverForgotten_eases (key : PieceKey) (buffer : List UInt8) :
    Eases state ((state.forgetRead key).deliverPiece key buffer) := by
  unfold deliverPiece keepPiece forgetRead
  simp only
  split
  · rename_i found
    refine answered_eases state key none "" [] rfl ?_ rfl rfl rfl rfl
    intro query
    by_cases same : query = key
    · rw [if_pos same, same]
      exact found
    · rw [if_neg same]
  · rename_i waiters found
    simp only [completeWaiters_eq]
    exact answered_eases state key (some buffer) "" waiters (by rw [completeWaiters_eq])
      (fun query => AList.lookup_erase_ite _ _ _) rfl rfl rfl rfl

theorem handleReadPiece_eases (alert : ReadPieceAlert) : Eases state (state.handleReadPiece alert) := by
  unfold handleReadPiece
  simp only
  split
  · exact failForgotten_eases state _ _
  · exact failForgotten_eases state _ _
  · split
    · exact failForgotten_eases state _ _
    · exact deliverForgotten_eases state _ _

theorem handleHashFailed_eases (torrentId : String) (piece : Nat) :
    Eases state (state.handleHashFailed torrentId piece) := by
  unfold handleHashFailed
  simp only
  split
  · exact Eases.refl state
  · refine Eases.trans ?_ (publishPartial_eases _ _)
    exact (Eases.refl state).congr rfl rfl rfl rfl rfl rfl

end Ease

section Serve

variable {handles : Handles} {loose : String → Prop} {state : BridgeState}

theorem Served.read (served : Served handles loose state) {handle : Nat} {key : PieceKey}
    (named : handles.torrentOf handle = key.torrentId)
    (agrees : ∀ schedule, state.currentSchedules.lookup key.torrentId = some schedule →
      schedule.handle = handle) (now : Nat) :
    Served handles loose { state with
      calls := state.calls ++ [(handle, .readPiece key.piece)]
      requestedReads := state.requestedReads.insert key now } := by
  refine ⟨served.named, ?_, served.placed, ?_⟩
  · intro id schedule found valid piece listed read
    by_cases torrent : id = key.torrentId
    · obtain rfl : schedule.handle = handle := agrees schedule (torrent ▸ found)
      by_cases same : piece = key.piece
      · rw [same]
        exact asked_append_read state.calls
      · have unrelated : Unrelated piece (.readPiece key.piece) := Ne.symm same
        rw [asked_append_unrelated _ unrelated]
        refine served.asked id schedule found valid piece listed ?_
        have different : (⟨id, piece⟩ : PieceKey) ≠ key := by
          rintro rfl
          exact same rfl
        rw [requested, AList.lookup_insert_ite, if_neg different] at read
        exact read
    · have different : (⟨id, piece⟩ : PieceKey) ≠ key := by
        rintro rfl
        exact torrent rfl
      rw [requested, AList.lookup_insert_ite, if_neg different] at read
      rw [asked_append_other]
      · exact served.asked id schedule found valid piece listed read
      · rintro rfl
        exact torrent ((served.named id schedule found).symm.trans named)
  · intro query waiter demand held past active needs valid tight
    obtain ⟨schedule, found, blocking, listed, read⟩ :=
      served.awaited query waiter demand held past active needs valid tight
    refine ⟨schedule, found, blocking, listed, ?_⟩
    rw [requested, AList.lookup_insert_ite]
    split
    · rfl
    · exact read

theorem Served.requestRead (served : Served handles loose state) {lt : Libtorrent}
    (accepts : ∀ handle call, lt.fails handle call = none) {handle : Nat} {key : PieceKey}
    (named : handles.torrentOf handle = key.torrentId)
    (agrees : ∀ schedule, state.currentSchedules.lookup key.torrentId = some schedule →
      schedule.handle = handle) :
    Served handles loose (state.requestRead lt handle key) := by
  unfold BridgeState.requestRead
  split
  · exact served
  · rw [attempt_accepted (accepts _ _)]
    exact served.read named agrees lt.now

theorem Served.insertDemand (served : Served handles loose state) {demandId : Nat}
    (idle : ∀ key waiter, Held state key waiter → (state.waiters waiter).demandId = demandId →
      finished (state.waiters waiter) = true) (demand : ActiveDemand) :
    Served handles loose { state with
      activeDemands := state.activeDemands.insert demandId demand } := by
  have other : ∀ key waiter found, Held state key waiter → finished (state.waiters waiter) = false →
      (state.activeDemands.insert demandId demand).lookup (state.waiters waiter).demandId = some found →
      state.activeDemands.lookup (state.waiters waiter).demandId = some found := by
    intro key waiter found held past active
    rw [AList.lookup_insert_ite] at active
    split at active
    · rename_i same
      rw [idle key waiter held same] at past
      simp at past
    · exact active
  refine ⟨served.named, served.asked, ?_, ?_⟩
  · intro key waiter found held past active
    exact served.placed key waiter found held past (other key waiter found held past active)
  · intro key waiter found held past active
    exact served.awaited key waiter found held past (other key waiter found held past active)

theorem Served.setNeedsData (served : Served handles loose state) {demandId : Nat}
    (waits : ∀ demand, state.activeDemands.lookup demandId = some demand →
      loose demand.route.torrentId) (needsData : Bool) :
    Served handles loose (state.setNeedsData demandId needsData) := by
  unfold BridgeState.setNeedsData
  split
  · exact served
  · rename_i demand present
    refine ⟨served.named, served.asked, ?_, ?_⟩
    · intro key waiter found held past active
      simp only [AList.lookup_insert_ite] at active
      split at active
      · rename_i same
        obtain rfl := Option.some.inj active
        exact served.placed key waiter demand held past (same ▸ present)
      · exact served.placed key waiter found held past active
    · intro key waiter found held past active needs valid tight
      simp only [AList.lookup_insert_ite] at active
      split at active
      · rename_i same
        have torrent := (served.placed key waiter demand held past (same ▸ present)).1
        exact absurd (torrent ▸ waits demand present) tight
      · exact served.awaited key waiter found held past active needs valid tight

theorem held_holdWaiter {key query : PieceKey} {waiter other : Nat}
    (held : Held (state.holdWaiter key waiter) query other) :
    Held state query other ∨ (query = key ∧ other = waiter) := by
  obtain ⟨list, found, member⟩ := held
  simp only [holdWaiter, AList.lookup_insert_ite] at found
  split at found
  · rename_i same
    obtain rfl := Option.some.inj found
    rcases List.mem_append.mp member with old | new
    · cases present : state.pieceWaiters.lookup key with
      | none => simp [present] at old
      | some waiters =>
          rw [present] at old
          exact Or.inl ⟨waiters, same ▸ present, old⟩
    · exact Or.inr ⟨same, List.mem_singleton.mp new⟩
  · exact Or.inl ⟨list, found, member⟩

/-- A waiter for the piece its demand blocks on, in a torrent that waits for its recomputation. -/
theorem Served.holdWaiter (served : Served handles loose state) {key : PieceKey} {waiter : Nat}
    (placed : ∀ demand, state.activeDemands.lookup (state.waiters waiter).demandId = some demand →
      demand.route.torrentId = key.torrentId ∧ demand.blockingPiece = key.piece)
    (waits : loose key.torrentId) : Served handles loose (state.holdWaiter key waiter) := by
  refine ⟨served.named, served.asked, ?_, ?_⟩
  · intro query other demand held past active
    rcases held_holdWaiter held with old | ⟨rfl, rfl⟩
    · exact served.placed query other demand old past active
    · exact placed demand active
  · intro query other demand held past active needs valid tight
    rcases held_holdWaiter held with old | ⟨rfl, rfl⟩
    · exact served.awaited query other demand old past active needs valid tight
    · exact absurd waits tight

end Serve

end NuvioEngine.Bridge
