import NuvioEngine.Bridge.Mirror
import NuvioEngine.Bridge.Ranges

/-!
What `recompute_schedule` takes from the order in which `active_demands` is iterated. The plan, the
anchor and the priorities do not depend on it; the first block of a piece is that of the last reader
who waits for the piece.
-/

namespace NuvioEngine.Bridge

open NuvioEngine.Scheduler NuvioEngine.Stream NuvioEngine.Cache BridgeState

/-- The same bridge with its demands in another order of iteration. -/
def BridgeState.reorder (state : BridgeState) (order : HashMap Nat ActiveDemand) : BridgeState :=
  { state with activeDemands := order }

/-- The piece and the block of it in which a demand starts. -/
def startPiece (demand : StreamDemand) : Nat :=
  pieceAt demand.fileOffset demand.pieceSize demand.range.start

def startBlock (demand : StreamDemand) : Nat :=
  add64 demand.fileOffset demand.range.start % demand.pieceSize / blockBytes

section Ignores

variable (order : HashMap Nat ActiveDemand)

theorem attempt_reorder (state : BridgeState) (lt : Libtorrent) (handle : Nat) (call : LtCall) :
    (state.reorder order).attempt lt handle call =
      (state.attempt lt handle call).map fun sent => sent.reorder order := by
  unfold attempt
  split <;> rfl

theorem attemptQuietly_reorder (state : BridgeState) (lt : Libtorrent) (handle : Nat) (call : LtCall) :
    (state.reorder order).attemptQuietly lt handle call =
      (state.attemptQuietly lt handle call).reorder order := by
  unfold attemptQuietly
  rw [attempt_reorder]
  cases state.attempt lt handle call <;> rfl

theorem foldl_reorder {α : Type} {step : BridgeState → α → BridgeState}
    (each : ∀ state item, step (state.reorder order) item = (step state item).reorder order)
    (items : List α) (state : BridgeState) :
    items.foldl step (state.reorder order) = (items.foldl step state).reorder order := by
  induction items generalizing state with
  | nil => rfl
  | cons item rest ih => rw [List.foldl_cons, List.foldl_cons, each, ih]

theorem completeWaiters_reorder (state : BridgeState) (data : Option (List UInt8)) (error : String)
    (waiters : List Nat) : (state.reorder order).completeWaiters data error waiters =
      (state.completeWaiters data error waiters).reorder order :=
  foldl_reorder order (fun _ _ => rfl) waiters state

theorem failPiece_reorder (state : BridgeState) (key : PieceKey) (error : String) :
    (state.reorder order).failPiece key error = (state.failPiece key error).reorder order := by
  unfold failPiece
  simp only [BridgeState.reorder]
  split
  · rfl
  · rename_i waiters found
    have completed := completeWaiters_reorder order
      { state with partialBlocks := state.partialBlocks.erase key } none error waiters
    simp only [BridgeState.reorder] at completed
    rw [completed]

theorem sendPriorities_reorder (state : BridgeState) (lt : Libtorrent) (handle : Nat)
    (previous : Option CurrentSchedule) (combined : Priorities) (cold : Bool) :
    sendPriorities (state.reorder order) lt handle previous combined cold =
      (sendPriorities state lt handle previous combined cold).reorder order := by
  unfold sendPriorities
  split
  · rfl
  · exact attemptQuietly_reorder order state lt handle _

theorem resetDeadline_reorder (lt : Libtorrent) (id : String) (handle : Nat) (state : BridgeState)
    (piece : Nat) : resetDeadline lt id handle (state.reorder order) piece =
      (resetDeadline lt id handle state piece).reorder order := by
  unfold resetDeadline
  rw [attemptQuietly_reorder]
  rfl

theorem setDeadline_reorder (lt : Libtorrent) (id : String) (handle : Nat) (unchanged : Bool)
    (ordinal piece : Nat) (state : BridgeState) :
    setDeadline lt id handle unchanged ordinal piece (state.reorder order) =
      (setDeadline lt id handle unchanged ordinal piece state).reorder order := by
  have requested : (state.reorder order).requestedReads = state.requestedReads := rfl
  have waiting : (state.reorder order).pieceWaiters = state.pieceWaiters := rfl
  unfold setDeadline
  simp only [attempt_reorder, requested, waiting]
  split
  · rfl
  · cases state.attempt lt handle (.setPieceDeadline piece (deadlineFor ordinal) _) with
    | error thrown => exact failPiece_reorder order state _ _
    | ok sent =>
        simp only [Except.map]
        split <;> rfl

theorem setDeadlines_reorder (lt : Libtorrent) (id : String) (handle : Nat)
    (previousDeadlines : List Nat) (jumped : Bool) (ordinal : Nat) (pieces : List Nat)
    (state : BridgeState) :
    setDeadlines lt id handle previousDeadlines jumped ordinal pieces (state.reorder order) =
      (setDeadlines lt id handle previousDeadlines jumped ordinal pieces state).reorder order := by
  induction pieces generalizing ordinal state with
  | nil => rfl
  | cons piece rest ih =>
      simp only [setDeadlines]
      rw [setDeadline_reorder, ih]

theorem sendDeadlines_reorder (state : BridgeState) (lt : Libtorrent) (id : String) (handle : Nat)
    (previousDeadlines nextDeadlines : List Nat) :
    sendDeadlines (state.reorder order) lt id handle previousDeadlines nextDeadlines =
      (sendDeadlines state lt id handle previousDeadlines nextDeadlines).reorder order := by
  have resets := foldl_reorder order (resetDeadline_reorder order lt id handle)
  unfold sendDeadlines
  simp only
  split
  · rw [resets, setDeadlines_reorder]
  · rw [setDeadlines_reorder, resets]

theorem sendFirstBlocks_reorder (lt : Libtorrent) (handle : Nat) (previous : Option CurrentSchedule)
    (jumped : Bool) (wanted : SortedMap Nat Nat) (pieces : List Nat) (state : BridgeState)
    (applied : SortedMap Nat Nat) :
    sendFirstBlocks lt handle previous jumped wanted pieces (state.reorder order, applied) =
      ((sendFirstBlocks lt handle previous jumped wanted pieces (state, applied)).1.reorder order,
        (sendFirstBlocks lt handle previous jumped wanted pieces (state, applied)).2) := by
  induction pieces generalizing state applied with
  | nil => rfl
  | cons piece rest ih =>
      simp only [sendFirstBlocks]
      rw [attemptQuietly_reorder, ← ih]
      congr 2
      split <;> rfl

theorem applyPlan_reorder (state : BridgeState) (lt : Libtorrent) (id : String) (handle : Nat)
    (wanted : SortedMap Nat Nat) (plan : StreamDemandPlan) :
    applyPlan (state.reorder order) lt id handle wanted plan =
      (applyPlan state lt id handle wanted plan).reorder order := by
  have schedules : (state.reorder order).currentSchedules = state.currentSchedules := rfl
  have kept : ∀ previous combined,
      fallback (state.reorder order) id previous combined = fallback state id previous combined :=
    fun _ _ => rfl
  unfold applyPlan
  simp only [schedules, kept]
  rw [sendPriorities_reorder, sendDeadlines_reorder, sendFirstBlocks_reorder]
  rfl

end Ignores

section Orders

variable {state : BridgeState} {order : HashMap Nat ActiveDemand} {id : String}

/-- Demands that start in the same piece start in the same block of it. -/
def SameBlocks (demands : List StreamDemand) : Prop :=
  ∀ left ∈ demands, ∀ right ∈ demands, startPiece left = startPiece right →
    startBlock left = startBlock right

theorem firstBlocksOf_perm {left right : List StreamDemand} (same : left.Perm right)
    (agree : SameBlocks left) : firstBlocksOf left = firstBlocksOf right :=
  same.foldl_eq' (fun first firstMem second secondMem blocks =>
    SortedMap.insert_comm blocks (agree first firstMem second secondMem)) _

theorem readersOf_perm (same : order.entries.Perm state.activeDemands.entries) :
    (readersOf (state.reorder order) id).Perm (readersOf state id) :=
  (same.filter _).map _

theorem collectDemands_reorder (same : order.entries.Perm state.activeDemands.entries)
    (handles : ∀ left ∈ readersOf state id, ∀ right ∈ readersOf state id,
      left.2.route.handle = right.2.route.handle) :
    (collectDemands (state.reorder order) id).1.Perm (collectDemands state id).1 ∧
      (collectDemands (state.reorder order) id).2 = (collectDemands state id).2 := by
  have readers : (readersOf (state.reorder order) id).Perm (readersOf state id) := readersOf_perm same
  by_cases empty : readersOf state id = []
  · have none : readersOf (state.reorder order) id = [] := (empty ▸ readers).eq_nil
    have reordered : collectDemands (state.reorder order) id = collectDemands state id := by
      unfold collectDemands
      simp only [empty, none, List.getLast?_nil]
      rfl
    rw [reordered]
    exact ⟨List.Perm.refl _, rfl⟩
  · have some : readersOf (state.reorder order) id ≠ [] := fun none => empty (none ▸ readers).nil_eq.symm
    rcases collectDemands_cases state id with ⟨lastId, last, listed, collected⟩ | idle | idle
    · rcases collectDemands_cases (state.reorder order) id with
        ⟨otherId, other, otherListed, reordered⟩ | idle | idle
      · rw [collected, reordered]
        exact ⟨readers.map _, congrArg Option.some (handles _ (readers.subset otherListed) _ listed)⟩
      · exact absurd idle.1 some
      · exact absurd idle.1 some
    · exact absurd idle.1 empty
    · exact absurd idle.1 empty

theorem collectDemands_distinct (state : BridgeState) (id : String) :
    ((collectDemands state id).1.map StreamDemand.id).Nodup := by
  rcases collectDemands_cases state id with ⟨_, _, _, same⟩ | ⟨_, _, _, same⟩ | ⟨_, _, same⟩
  · rw [same, List.map_map]
    exact readersOf_ids_nodup state id
  · rw [same]
    exact List.nodup_singleton _
  · rw [same]
    exact List.nodup_nil

theorem keepAnchor_reorder (same : order.entries.Perm state.activeDemands.entries)
    (plan : StreamDemandPlan) :
    keepAnchor (state.reorder order) id plan = (keepAnchor state id plan).reorder order := by
  have found : (state.reorder order).activeDemands.lookup plan.focusedDemandId =
      state.activeDemands.lookup plan.focusedDemandId := AList.perm_lookup same
  unfold keepAnchor
  rw [found]
  cases state.activeDemands.lookup plan.focusedDemandId <;> rfl

theorem recomputeSchedule_reorder (lt : Libtorrent)
    (same : order.entries.Perm state.activeDemands.entries)
    (handles : ∀ left ∈ readersOf state id, ∀ right ∈ readersOf state id,
      left.2.route.handle = right.2.route.handle)
    (agree : ∀ handle, chosenHandle state id = some handle → lt.isValid handle = true →
      SameBlocks (collectDemands state id).1) :
    recomputeSchedule lt (state.reorder order) id = (recomputeSchedule lt state id).reorder order := by
  obtain ⟨demands, handle⟩ := collectDemands_reorder same handles
  have window : (state.reorder order).window = state.window := rfl
  have plan := buildStreamDemandPlan_perm demands (collectDemands_distinct _ _) state.window
  unfold recomputeSchedule
  simp only [window, plan, handle, keepAnchor_reorder same, applyPlan_reorder]
  cases buildStreamDemandPlan (collectDemands state id).1 state.window with
  | error message => rfl
  | ok plan =>
      have schedules : ((keepAnchor state id plan).reorder order).currentSchedules =
          (keepAnchor state id plan).currentSchedules := rfl
      have kept : (keepAnchor state id plan).currentSchedules = state.currentSchedules := by
        unfold keepAnchor
        split <;> rfl
      simp only [schedules, kept]
      cases chosen : (collectDemands state id).2.or ((state.currentSchedules.lookup id).map
          CurrentSchedule.handle) with
      | none => rfl
      | some handle =>
          simp only
          split
          · rename_i valid
            have agreeing : SameBlocks (collectDemands (state.reorder order) id).1 :=
              fun left leftMem right rightMem => agree handle chosen valid left (demands.subset leftMem)
                right (demands.subset rightMem)
            rw [firstBlocksOf_perm demands agreeing]
          · rfl

/-- The order of iteration in which one demand comes last. -/
def lastly (demands : HashMap Nat ActiveDemand) (demandId : Nat) (demand : ActiveDemand) :
    HashMap Nat ActiveDemand where
  entries := (demands.insert demandId demand).entries.reverse
  nodupKeys := by
    rw [List.NodupKeys, List.keys, List.map_reverse, List.nodup_reverse]
    exact (demands.insert demandId demand).nodupKeys

theorem lastly_perm {demands : HashMap Nat ActiveDemand} {demandId : Nat} {demand : ActiveDemand}
    (found : demands.lookup demandId = some demand) :
    (lastly demands demandId demand).entries.Perm demands.entries := by
  refine (List.reverse_perm _).trans ?_
  refine List.lookup_ext (demands.insert demandId demand).nodupKeys demands.nodupKeys fun key value => ?_
  change (demands.insert demandId demand).lookup key = some value ↔ demands.lookup key = some value
  rw [AList.lookup_insert_ite]
  split
  · rename_i same
    rw [same, found]
  · rfl

theorem readersOf_lastly {demandId : Nat} {demand : ActiveDemand}
    (listed : (demandId, demand) ∈ readersOf state id) :
    ∃ others, readersOf (state.reorder (lastly state.activeDemands demandId demand)) id =
      others ++ [(demandId, demand)] := by
  obtain ⟨_, torrent, needs⟩ := mem_readersOf.mp listed
  have waits : demand.waitsFor id = true := by simp [ActiveDemand.waitsFor, torrent, needs]
  have entries : (lastly state.activeDemands demandId demand).entries =
      (List.kerase demandId state.activeDemands.entries).reverse ++ [⟨demandId, demand⟩] := by
    exact List.reverse_cons
  refine ⟨((List.kerase demandId state.activeDemands.entries).reverse.filter fun entry =>
    entry.2.waitsFor id).map fun entry => (entry.1, entry.2), ?_⟩
  unfold readersOf
  simp only [BridgeState.reorder, entries, List.filter_append, List.map_append, List.filter_cons, waits,
    if_true, List.filter_nil, List.map_cons, List.map_nil]

theorem lookup_firstBlocksOf_concat (others : List StreamDemand) (last : StreamDemand) :
    (firstBlocksOf (others ++ [last])).lookup (startPiece last) = some (startBlock last) := by
  unfold firstBlocksOf
  rw [List.foldl_append, List.foldl_cons, List.foldl_nil, SortedMap.lookup_insert]
  exact if_pos rfl

theorem applied_sendFirstBlocks (lt : Libtorrent) (handle : Nat) (previous : Option CurrentSchedule)
    (jumped : Bool) (wanted : SortedMap Nat Nat) (pieces : List Nat)
    (current : BridgeState × SortedMap Nat Nat) (piece : Nat) :
    (sendFirstBlocks lt handle previous jumped wanted pieces current).2.lookup piece =
      if piece ∈ pieces ∧ 0 < (wanted.lookup piece).getD 0 then some ((wanted.lookup piece).getD 0)
      else current.2.lookup piece := by
  induction pieces generalizing current with
  | nil => simp [sendFirstBlocks]
  | cons first rest ih =>
      obtain ⟨state, applied⟩ := current
      rw [sendFirstBlocks, ih]
      by_cases same : piece = first
      · subst same
        by_cases positive : 0 < (wanted.lookup piece).getD 0
        · simp [positive, SortedMap.lookup_insert]
        · simp [positive]
      · by_cases positive : 0 < (wanted.lookup first).getD 0
        · simp [same, positive, SortedMap.lookup_insert, Ne.symm same]
        · simp [same, positive]

theorem combinedOf_filled {plan : StreamDemandPlan} (planned : plan.pieces ≠ []) :
    (combinedOf plan).entries.isEmpty = false := by
  have inserted : ∀ (map : Priorities) piece priority,
      (map.insert piece priority).entries.isEmpty = false := by
    intro map piece priority
    have found : (map.insert piece priority).lookup piece = some priority := by
      rw [SortedMap.lookup_insert, if_pos rfl]
    have member := (SortedMap.lookup_eq_some_iff _ _ _).mp found
    exact List.isEmpty_eq_false_iff.mpr (List.ne_nil_of_mem member)
  obtain ⟨front, last, cut⟩ := (List.eq_nil_or_concat' plan.pieces).resolve_left planned
  unfold combinedOf
  rw [cut, List.foldl_append, List.foldl_cons, List.foldl_nil]
  exact inserted _ _ _

theorem recomputeSchedule_firstBlock {unrouted : String → Prop} (routing : Routing unrouted state)
    (sum : state.window.criticalBytes + state.window.playbackBytes < 2 ^ 64)
    (readable : ∀ demandId demand, state.activeDemands.lookup demandId = some demand →
      Readable demand.route demand.range) {demandId : Nat} {demand : ActiveDemand}
    (listed : (demandId, demand) ∈ readersOf state id) {lt : Libtorrent}
    (valid : lt.isValid demand.route.handle = true) :
    ∃ schedule, (recomputeSchedule lt state id).currentSchedules.lookup id = some schedule ∧
      (schedule.firstBlocks.lookup demand.blockingPiece).getD 0 =
        ((firstBlocksOf (collectDemands state id).1).lookup demand.blockingPiece).getD 0 := by
  obtain ⟨plan, built, planned, dated⟩ := readers_planned sum readable listed
  have chosen := chosenHandle_reader routing listed
  have schedules : (keepAnchor state id plan).currentSchedules = state.currentSchedules := by
    unfold keepAnchor
    split <;> rfl
  have filled := combinedOf_filled (List.ne_nil_of_mem planned)
  have combined : ∀ previous,
      fallback (keepAnchor state id plan) id previous (combinedOf plan) = combinedOf plan := by
    intro previous
    unfold fallback
    split
    · rfl
    · simp [filled]
  rw [chosenHandle] at chosen
  unfold recomputeSchedule
  simp only [built, schedules, chosen, valid, if_true]
  unfold applyPlan
  simp only [combined, lookup_storeSchedule, filled, Bool.false_eq_true, if_false]
  refine ⟨_, rfl, ?_⟩
  simp only [applied_sendFirstBlocks, dated, true_and, SortedMap.lookup_empty]
  split
  · rfl
  · rename_i zero
    exact (Nat.eq_zero_of_not_pos zero).symm

theorem Routing.reorder {unrouted : String → Prop} (routing : Routing unrouted state)
    (same : order.entries.Perm state.activeDemands.entries) : Routing unrouted (state.reorder order) where
  targets := routing.targets
  unique := routing.unique
  demands demandId demand found := routing.demands demandId demand (AList.perm_lookup same ▸ found)
  anchors := routing.anchors
  anchored := routing.anchored
  schedules := routing.schedules

end Orders

/-- The block of its blocking piece at which a reader waits. -/
def ActiveDemand.firstBlock (demand : ActiveDemand) : Nat :=
  add64 demand.route.fileOffset demand.range.start % demand.route.pieceSize / blockBytes

/-- No two readers of a torrent with a valid handle wait for different blocks of the same piece. -/
def Unanimous (lt : Libtorrent) (state : BridgeState) (id : String) : Prop :=
  ∀ leftId left rightId right, state.activeDemands.lookup leftId = some left →
    state.activeDemands.lookup rightId = some right → left.waitsFor id = true →
    right.waitsFor id = true → lt.isValid left.route.handle = true →
    left.blockingPiece = right.blockingPiece → left.firstBlock = right.firstBlock

/-- Two recomputations store the same schedule and anchor and make the same calls, after `made`. -/
structure SameOutcome (id : String) (made : Nat) (left right : BridgeState) : Prop where
  schedule : left.currentSchedules.lookup id = right.currentSchedules.lookup id
  anchor : left.anchors.lookup id = right.anchors.lookup id
  calls : ∀ call, call ∈ left.calls.drop made ↔ call ∈ right.calls.drop made

/-- The outcome is the same for any two orders of iteration. -/
def OrderFree (lt : Libtorrent) (state : BridgeState) (id : String) : Prop :=
  ∀ left right : HashMap Nat ActiveDemand, left.entries.Perm state.activeDemands.entries →
    right.entries.Perm state.activeDemands.entries → SameOutcome id state.calls.length
      (recomputeSchedule lt (state.reorder left) id) (recomputeSchedule lt (state.reorder right) id)

section Unanimity

variable {unrouted : String → Prop} {state : BridgeState} {id : String} {lt : Libtorrent}

theorem readers_handle (routing : Routing unrouted state) :
    ∀ left ∈ readersOf state id, ∀ right ∈ readersOf state id,
      left.2.route.handle = right.2.route.handle := by
  intro left leftListed right rightListed
  have chosen := chosenHandle_reader routing leftListed
  rw [chosenHandle_reader routing rightListed] at chosen
  exact (Option.some.inj chosen).symm

theorem sameBlocks_of_length {demands : List StreamDemand} (few : demands.length ≤ 1) :
    SameBlocks demands := by
  intro left leftMem right rightMem _
  obtain ⟨first, firstAt⟩ := List.mem_iff_getElem.mp leftMem
  obtain ⟨second, secondAt⟩ := List.mem_iff_getElem.mp rightMem
  obtain ⟨firstBound, rfl⟩ := firstAt
  obtain ⟨secondBound, rfl⟩ := secondAt
  obtain rfl : first = second := by omega
  rfl

theorem Unanimous.orderFree (routing : Routing unrouted state) (unanimous : Unanimous lt state id) :
    OrderFree lt state id := by
  have agree : ∀ handle, chosenHandle state id = some handle → lt.isValid handle = true →
      SameBlocks (collectDemands state id).1 := by
    intro handle chosen valid
    rcases collectDemands_cases state id with ⟨_, _, _, same⟩ | ⟨_, _, _, same⟩ | ⟨_, _, same⟩
    · rw [same]
      rintro _ leftMem _ rightMem piece
      obtain ⟨⟨leftId, left⟩, leftListed, rfl⟩ := List.mem_map.mp leftMem
      obtain ⟨⟨rightId, right⟩, rightListed, rfl⟩ := List.mem_map.mp rightMem
      obtain ⟨leftActive, leftTorrent, leftNeeds⟩ := mem_readersOf.mp leftListed
      obtain ⟨rightActive, rightTorrent, rightNeeds⟩ := mem_readersOf.mp rightListed
      rw [chosenHandle_reader routing leftListed] at chosen
      rw [← Option.some.inj chosen] at valid
      exact unanimous leftId left rightId right leftActive rightActive
        (by simp [ActiveDemand.waitsFor, leftTorrent, leftNeeds])
        (by simp [ActiveDemand.waitsFor, rightTorrent, rightNeeds]) valid piece
    · rw [same]
      exact sameBlocks_of_length (by simp)
    · rw [same]
      exact sameBlocks_of_length (by simp)
  intro left right leftSame rightSame
  rw [recomputeSchedule_reorder lt leftSame (readers_handle routing) agree,
    recomputeSchedule_reorder lt rightSame (readers_handle routing) agree]
  exact ⟨rfl, rfl, fun _ => Iff.rfl⟩

theorem lastly_firstBlock (routing : Routing unrouted state)
    (sum : state.window.criticalBytes + state.window.playbackBytes < 2 ^ 64)
    (readable : ∀ demandId demand, state.activeDemands.lookup demandId = some demand →
      Readable demand.route demand.range) {demandId : Nat} {demand : ActiveDemand}
    (listed : (demandId, demand) ∈ readersOf state id) (valid : lt.isValid demand.route.handle = true) :
    ∃ schedule, (recomputeSchedule lt (state.reorder (lastly state.activeDemands demandId demand))
      id).currentSchedules.lookup id = some schedule ∧
        (schedule.firstBlocks.lookup demand.blockingPiece).getD 0 = demand.firstBlock := by
  have same := lastly_perm (mem_readersOf.mp listed).1
  obtain ⟨others, readers⟩ := readersOf_lastly listed
  have last : (demandId, demand) ∈
      readersOf (state.reorder (lastly state.activeDemands demandId demand)) id := by
    rw [readers]
    exact List.mem_append_right _ List.mem_cons_self
  have demands : (collectDemands (state.reorder (lastly state.activeDemands demandId demand)) id).1 =
      (others.map fun reader => reader.2.toDemand reader.1 id state) ++
        [demand.toDemand demandId id state] := by
    rcases collectDemands_cases (state.reorder (lastly state.activeDemands demandId demand)) id with
      ⟨_, _, _, collected⟩ | ⟨empty, _⟩ | ⟨empty, _⟩
    · rw [collected, readers, List.map_append]
      rfl
    · rw [empty] at last
      simp at last
    · rw [empty] at last
      simp at last
  obtain ⟨schedule, stored, blocks⟩ := recomputeSchedule_firstBlock (routing.reorder same) sum
    (fun otherId other found => readable otherId other (AList.perm_lookup same ▸ found)) last valid
  refine ⟨schedule, stored, ?_⟩
  have wanted := lookup_firstBlocksOf_concat
    (others.map fun reader => reader.2.toDemand reader.1 id state) (demand.toDemand demandId id state)
  rw [← demands] at wanted
  change (firstBlocksOf _).lookup demand.blockingPiece = some demand.firstBlock at wanted
  rw [blocks, wanted]
  rfl

theorem OrderFree.unanimous (routing : Routing unrouted state)
    (sum : state.window.criticalBytes + state.window.playbackBytes < 2 ^ 64)
    (readable : ∀ demandId demand, state.activeDemands.lookup demandId = some demand →
      Readable demand.route demand.range) (free : OrderFree lt state id) : Unanimous lt state id := by
  intro leftId left rightId right leftActive rightActive leftWaits rightWaits valid piece
  have leftListed : (leftId, left) ∈ readersOf state id :=
    mem_readersOf.mpr ⟨leftActive, by simpa [ActiveDemand.waitsFor] using leftWaits⟩
  have rightListed : (rightId, right) ∈ readersOf state id :=
    mem_readersOf.mpr ⟨rightActive, by simpa [ActiveDemand.waitsFor] using rightWaits⟩
  have handle := readers_handle routing _ leftListed _ rightListed
  obtain ⟨first, firstStored, firstBlock⟩ := lastly_firstBlock routing sum readable leftListed valid
  obtain ⟨second, secondStored, secondBlock⟩ :=
    lastly_firstBlock routing sum readable rightListed (handle ▸ valid)
  have same := (free _ _ (lastly_perm leftActive) (lastly_perm rightActive)).schedule
  rw [firstStored, secondStored] at same
  rw [← firstBlock, ← secondBlock, Option.some.inj same, piece]

end Unanimity

/-- In every state of the bridge, the schedule does not depend on the order of iteration exactly when
no two readers of the torrent wait for different blocks of the same piece. -/
theorem reachable_orderFree_iff {session : Session} (reached : session.Reachable) (lt : Libtorrent)
    (id : String) : OrderFree lt session.bridge id ↔ Unanimous lt session.bridge id := by
  have ranged := reached.ranged
  have routing := ranged.consistent.routing
  obtain ⟨capacity, window⟩ := ranged.window
  have sum : session.bridge.window.criticalBytes + session.bridge.window.playbackBytes < 2 ^ 64 := by
    rw [window]
    exact streamWindow_sum capacity
  exact ⟨OrderFree.unanimous routing sum ranged.readable, Unanimous.orderFree routing⟩

/-- A torrent with one file of two pieces of four blocks. -/
def fourBlocks : TorrentInfo :=
  ⟨2, 65536, by decide, fun _ => 65536, fun _ savePath => savePath ++ "/video.mp4"⟩

def fourBlocksRoute : StreamRoute :=
  newRoute "a" 7 "t" 0 ⟨"video.mp4", 0, 131072⟩ fourBlocks "/data"

def fourBlocksAnswers : PollAnswers :=
  ⟨fun _ => .accepting fourBlocks, fun _ => .accepting fourBlocks, .accepting fourBlocks, 0,
    fun _ => .accepting fourBlocks⟩

/-- Two threads ask for the file, one from its start and one from a later position. -/
def twoThreads (position : Nat) : List SessionAction := [
  .work (.register (.accepting fourBlocks) "a" 7 "t" 0 ⟨"video.mp4", 0, 131072⟩),
  .beginRequest fourBlocksRoute ⟨0, 131071⟩,
  .beginRequest fourBlocksRoute ⟨position, 131071⟩,
  .work (.poll fourBlocksAnswers)]

def twoThreadSession (position steps : Nat) : Session :=
  ((twoThreads position).take steps).foldl Session.perform
    { system := { bridge := .create 1024 1024 0 } }

theorem twoThreadSession_reachable {position : Nat}
    (known : fourBlocksRoute ∈ (twoThreadSession position 2).system.registered)
    (inside : position ≤ 131071)
    (quiet : ((twoThreadSession position 3).bridge.poll fourBlocksAnswers).2 = false) :
    (twoThreadSession position 4).Reachable := by
  have started : (twoThreadSession position 0).Reachable := .start ⟨_, ⟨1024, 1024, 0, rfl⟩, rfl⟩
  have registers : (twoThreadSession position 0).Possible
      (.work (.register (.accepting fourBlocks) "a" 7 "t" 0 ⟨"video.mp4", 0, 131072⟩)) := by
    refine ⟨⟨List.not_mem_nil, by decide⟩, fun route made => ?_⟩
    obtain rfl : fourBlocksRoute = route := Except.ok.inj made
    exact ⟨by decide, by decide⟩
  have registered : (twoThreadSession position 1).Reachable := started.step _ registers
  have begins : (twoThreadSession position 1).Possible (.beginRequest fourBlocksRoute ⟨0, 131071⟩) :=
    ⟨known, by decide, by decide⟩
  have begun : (twoThreadSession position 2).Reachable := registered.step _ begins
  have sized : 131071 < fourBlocksRoute.fileSize := by decide
  have joins : (twoThreadSession position 2).Possible
      (.beginRequest fourBlocksRoute ⟨position, 131071⟩) := ⟨known, inside, sized⟩
  have joined : (twoThreadSession position 3).Reachable := begun.step _ joins
  have polls : (twoThreadSession position 3).Possible (.work (.poll fourBlocksAnswers)) :=
    ⟨quiet, trivial⟩
  exact joined.step _ polls

theorem reachable_orderFree_next_piece :
    ∃ session : Session, session.Reachable ∧ session.bridge.activeDemands.keys.length = 2 ∧
      OrderFree (.accepting fourBlocks) session.bridge "t" := by
  have reached : (twoThreadSession 65536 4).Reachable :=
    twoThreadSession_reachable (by decide +kernel) (by decide) (by decide +kernel)
  have demands : (twoThreadSession 65536 4).bridge.activeDemands.entries =
      [⟨2, 2, fourBlocksRoute, ⟨65536, 131071⟩, some 2, true⟩,
        ⟨1, 1, fourBlocksRoute, ⟨0, 65535⟩, some 1, true⟩] := by decide +kernel
  have unanimous : Unanimous (.accepting fourBlocks) (twoThreadSession 65536 4).bridge "t" := by
    intro leftId left rightId right leftActive rightActive _ _ _ piece
    rw [AList.lookup_eq_some_iff, demands] at leftActive rightActive
    simp only [List.mem_cons, List.not_mem_nil, or_false, Sigma.mk.injEq, heq_eq_eq] at leftActive rightActive
    rcases leftActive with ⟨rfl, rfl⟩ | ⟨rfl, rfl⟩
    · rcases rightActive with ⟨rfl, rfl⟩ | ⟨rfl, rfl⟩
      · rfl
      · exact absurd piece (by decide +kernel)
    · rcases rightActive with ⟨rfl, rfl⟩ | ⟨rfl, rfl⟩
      · exact absurd piece (by decide +kernel)
      · rfl
  exact ⟨_, reached, by decide +kernel, (reachable_orderFree_iff reached _ _).mpr unanimous⟩

theorem orderFree_fails_same_piece :
    ∃ session : Session, session.Reachable ∧
      ¬ OrderFree (.accepting fourBlocks) session.bridge "t" := by
  have reached : (twoThreadSession 32768 4).Reachable :=
    twoThreadSession_reachable (by decide +kernel) (by decide) (by decide +kernel)
  refine ⟨_, reached, fun free => ?_⟩
  have first : (twoThreadSession 32768 4).bridge.activeDemands.lookup 1 =
      some ⟨1, fourBlocksRoute, ⟨0, 65535⟩, some 1, true⟩ := by decide +kernel
  have second : (twoThreadSession 32768 4).bridge.activeDemands.lookup 2 =
      some ⟨2, fourBlocksRoute, ⟨32768, 65535⟩, some 2, true⟩ := by decide +kernel
  have same := (free _ _ (lastly_perm first) (lastly_perm second)).schedule
  have blocks := congrArg (Option.map fun schedule => schedule.firstBlocks.entries) same
  exact absurd blocks (by decide +kernel)

end NuvioEngine.Bridge
