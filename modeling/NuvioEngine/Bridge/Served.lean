import NuvioEngine.Bridge.Asked
import NuvioEngine.Bridge.Consistency

/-!
Every open waiter is served: the piece it waits for is the one its demand blocks on, has a deadline
in the schedule of its torrent, and is requested from libtorrent. Recomputing the schedule of a
torrent serves the waiters of its readers, and the bridge's cleaning up never leaves one unserved.
-/

namespace NuvioEngine.Bridge

open NuvioEngine.Scheduler NuvioEngine.Stream NuvioEngine.Cache BridgeState

def Held (state : BridgeState) (key : PieceKey) (waiter : Nat) : Prop :=
  ∃ waiters, state.pieceWaiters.lookup key = some waiters ∧ waiter ∈ waiters

/-- The piece has a blocking deadline in the torrent's schedule and is requested. -/
def Scheduled (state : BridgeState) (key : PieceKey) : Prop :=
  ∃ schedule, state.currentSchedules.lookup key.torrentId = some schedule ∧
    schedule.priorities.lookup key.piece = some .blocking ∧ key.piece ∈ schedule.deadlineOrder ∧
    requested state key.torrentId key.piece = true

/-- The readers of the torrents in `loose` still wait for a recomputation. -/
structure Served (handles : Handles) (loose : String → Prop) (state : BridgeState) : Prop where
  named : ∀ id schedule, state.currentSchedules.lookup id = some schedule →
    handles.torrentOf schedule.handle = id
  asked : ∀ id schedule, state.currentSchedules.lookup id = some schedule →
    handles.valid schedule.handle → ∀ piece ∈ schedule.deadlineOrder,
    requested state id piece = true → asked schedule.handle piece state.calls = true
  placed : ∀ key waiter demand, Held state key waiter → finished (state.waiters waiter) = false →
    state.activeDemands.lookup (state.waiters waiter).demandId = some demand →
    demand.route.torrentId = key.torrentId ∧ demand.blockingPiece = key.piece
  awaited : ∀ key waiter demand, Held state key waiter → finished (state.waiters waiter) = false →
    state.activeDemands.lookup (state.waiters waiter).demandId = some demand →
    demand.needsData = true → handles.valid demand.route.handle → ¬ loose key.torrentId →
    Scheduled state key

/-- Waiters and demands only go, and waiters only finish. -/
structure Holds (before after : BridgeState) : Prop where
  heap : ∀ waiter, (after.waiters waiter).demandId = (before.waiters waiter).demandId ∧
    (finished (before.waiters waiter) = true → finished (after.waiters waiter) = true)
  held : ∀ key waiter, Held after key waiter → Held before key waiter
  demands : ∀ demandId demand, after.activeDemands.lookup demandId = some demand →
    ∃ old, before.activeDemands.lookup demandId = some old ∧ old.route = demand.route ∧
      old.range = demand.range ∧ (demand.needsData = true → old.needsData = true)

namespace Holds

variable {first second third : BridgeState}

theorem refl (state : BridgeState) : Holds state state :=
  ⟨fun _ => ⟨rfl, id⟩, fun _ _ held => held, fun _ demand found => ⟨demand, found, rfl, rfl, id⟩⟩

theorem trans (left : Holds first second) (right : Holds second third) : Holds first third := by
  refine ⟨fun waiter => ⟨(right.heap waiter).1.trans (left.heap waiter).1,
    fun past => (right.heap waiter).2 ((left.heap waiter).2 past)⟩,
    fun key waiter held => left.held key waiter (right.held key waiter held), ?_⟩
  intro demandId demand found
  obtain ⟨middle, middleFound, middleRoute, middleRange, middleNeeds⟩ :=
    right.demands demandId demand found
  obtain ⟨old, oldFound, oldRoute, oldRange, oldNeeds⟩ := left.demands demandId middle middleFound
  exact ⟨old, oldFound, oldRoute.trans middleRoute, oldRange.trans middleRange,
    fun needs => oldNeeds (middleNeeds needs)⟩

theorem same (waiters : second.waiters = first.waiters)
    (pieceWaiters : second.pieceWaiters = first.pieceWaiters)
    (demands : second.activeDemands = first.activeDemands) : Holds first second := by
  refine ⟨fun waiter => by rw [waiters]; exact ⟨rfl, id⟩, ?_, ?_⟩
  · rintro key waiter ⟨list, found, member⟩
    exact ⟨list, pieceWaiters ▸ found, member⟩
  · intro demandId demand found
    exact ⟨demand, demands ▸ found, rfl, rfl, id⟩

theorem unfinished (holds : Holds first second) {waiter : Nat}
    (past : finished (second.waiters waiter) = false) : finished (first.waiters waiter) = false := by
  by_contra isOver
  rw [Bool.not_eq_false] at isOver
  rw [(holds.heap waiter).2 isOver] at past
  simp at past

end Holds

/-- Besides, schedules and calls stay, and a read is forgotten only where nobody waits for it. -/
structure Eases (before after : BridgeState) : Prop where
  holds : Holds before after
  schedules : after.currentSchedules = before.currentSchedules
  calls : after.calls = before.calls
  fewer : ∀ id piece, requested after id piece = true → requested before id piece = true
  kept : ∀ key waiter demand, Held after key waiter →
    after.activeDemands.lookup (after.waiters waiter).demandId = some demand →
    demand.route.torrentId = key.torrentId → requested before key.torrentId key.piece = true →
    requested after key.torrentId key.piece = true

namespace Eases

variable {first second third : BridgeState}

theorem refl (state : BridgeState) : Eases state state :=
  ⟨Holds.refl state, rfl, rfl, fun _ _ read => read, fun _ _ _ _ _ _ read => read⟩

theorem ofHolds (holds : Holds first second)
    (schedules : second.currentSchedules = first.currentSchedules) (calls : second.calls = first.calls)
    (reads : second.requestedReads = first.requestedReads) : Eases first second := by
  have same : ∀ id piece, requested second id piece = requested first id piece := by
    intro id piece
    rw [requested, reads]
    rfl
  refine ⟨holds, schedules, calls, fun id piece read => (same id piece) ▸ read, ?_⟩
  intro key waiter demand _ _ _ read
  rw [same]
  exact read

theorem trans (left : Eases first second) (right : Eases second third) : Eases first third := by
  refine ⟨left.holds.trans right.holds, right.schedules.trans left.schedules,
    right.calls.trans left.calls, fun id piece read => left.fewer id piece (right.fewer id piece read), ?_⟩
  intro key waiter demand held active torrent read
  refine right.kept key waiter demand held active torrent ?_
  obtain ⟨middle, present, route, _, _⟩ := right.holds.demands _ demand active
  rw [(right.holds.heap waiter).1] at present
  exact left.kept key waiter middle (right.holds.held key waiter held) present
    ((congrArg StreamRoute.torrentId route).trans torrent) read

theorem foldl {α : Type} {step : BridgeState → α → BridgeState}
    (each : ∀ state item, Eases state (step state item)) (items : List α) (state : BridgeState) :
    Eases state (items.foldl step state) := by
  induction items generalizing state with
  | nil => exact refl state
  | cons item rest ih => exact (each state item).trans (ih (step state item))

end Eases

section Frames

variable {handles : Handles} {loose : String → Prop} {before after : BridgeState}

theorem Served.eases (served : Served handles loose before) (eases : Eases before after) :
    Served handles loose after := by
  have holds := eases.holds
  constructor
  · rw [eases.schedules]
    exact served.named
  · rw [eases.schedules, eases.calls]
    intro id schedule found valid piece listed read
    exact served.asked id schedule found valid piece listed (eases.fewer id piece read)
  · intro key waiter demand held past active
    obtain ⟨old, present, route, range, _⟩ := holds.demands _ demand active
    rw [(holds.heap waiter).1] at present
    obtain ⟨torrent, piece⟩ :=
      served.placed key waiter old (holds.held key waiter held) (holds.unfinished past) present
    rw [← route]
    refine ⟨torrent, ?_⟩
    rw [← piece, ActiveDemand.blockingPiece, ActiveDemand.blockingPiece, route, range]
  · intro key waiter demand held past active needs valid tight
    obtain ⟨old, present, route, range, oldNeeds⟩ := holds.demands _ demand active
    rw [(holds.heap waiter).1] at present
    have oldHeld := holds.held key waiter held
    have oldOver := holds.unfinished past
    have torrent := (served.placed key waiter old oldHeld oldOver present).1
    rw [route] at torrent
    obtain ⟨schedule, found, blocking, listed, read⟩ := served.awaited key waiter old oldHeld oldOver
      present (oldNeeds needs) (route ▸ valid) tight
    exact ⟨schedule, eases.schedules ▸ found, blocking, listed,
      eases.kept key waiter demand held active torrent read⟩

theorem Served.loosen {looser : String → Prop} (served : Served handles loose before)
    (covered : ∀ id, loose id → looser id) : Served handles looser before :=
  ⟨served.named, served.asked, served.placed, fun key waiter demand held past active needs valid tight =>
    served.awaited key waiter demand held past active needs valid fun isLoose =>
      tight (covered _ isLoose)⟩

end Frames

section Plan

/-- A range of a route's file that can be planned for. -/
structure Readable (route : StreamRoute) (range : ByteRange) : Prop where
  sliced : 0 < route.pieceSize
  narrow : route.pieceSize ≤ uint32Max
  indexed : Indexed route
  ordered : range.start ≤ range.last
  inside : range.start < route.fileSize

theorem toDemand_valid {demand : ActiveDemand} (readable : Readable demand.route demand.range)
    (demandId : Nat) (id : String) (state : BridgeState) :
    (demand.toDemand demandId id state).Valid :=
  ⟨readable.sliced, readable.narrow, Nat.zero_lt_of_lt readable.inside, readable.indexed.1,
    readable.ordered, readable.inside, readable.indexed.2⟩

theorem blockingPiece_eq {demand : ActiveDemand} (readable : Readable demand.route demand.range) :
    demand.blockingPiece =
      (demand.route.fileOffset + demand.range.start) / demand.route.pieceSize := by
  have fits := (toDemand_valid readable 0 "" (.create 0 0 0)).fits
  have inside := readable.inside
  have indexed : (demand.route.fileOffset + demand.range.start) / demand.route.pieceSize ≤
      uint32Max := by
    refine le_trans (Nat.div_le_div_right ?_) readable.indexed.2
    omega
  simp only [ActiveDemand.toDemand] at fits
  have sum : (demand.route.fileOffset + demand.range.start) % 2 ^ 64 =
      demand.route.fileOffset + demand.range.start := Nat.mod_eq_of_lt (by omega)
  rw [ActiveDemand.blockingPiece, pieceAt, add64, sum, Nat.mod_eq_of_lt]
  simp only [uint32Max] at indexed
  omega

theorem readersOf_ids_nodup (state : BridgeState) (id : String) :
    ((readersOf state id).map Prod.fst).Nodup := by
  have keys : (state.activeDemands.entries.map Sigma.fst).Nodup := state.activeDemands.nodupKeys
  rw [readersOf, List.map_map]
  exact keys.sublist (List.Sublist.map _ List.filter_sublist)

theorem readers_planned {state : BridgeState} {id : String}
    (sum : state.window.criticalBytes + state.window.playbackBytes < 2 ^ 64)
    (readable : ∀ demandId demand, state.activeDemands.lookup demandId = some demand →
      Readable demand.route demand.range) {demandId : Nat} {demand : ActiveDemand}
    (listed : (demandId, demand) ∈ readersOf state id) :
    ∃ plan, buildStreamDemandPlan (collectDemands state id).1 state.window = .ok plan ∧
      ⟨demand.blockingPiece, .blocking⟩ ∈ plan.pieces ∧ demand.blockingPiece ∈ plan.deadlineOrder := by
  have collected : (collectDemands state id).1 =
      (readersOf state id).map fun reader => reader.2.toDemand reader.1 id state := by
    rcases collectDemands_cases state id with ⟨_, _, _, same⟩ | ⟨empty, _⟩ | ⟨empty, _⟩
    · rw [same]
    · simp [empty] at listed
    · simp [empty] at listed
  have distinct : ((collectDemands state id).1.map StreamDemand.id).Nodup := by
    rw [collected, List.map_map]
    exact readersOf_ids_nodup state id
  have valid : ∀ other ∈ (collectDemands state id).1, other.Valid := by
    rw [collected]
    intro other member
    obtain ⟨⟨otherId, reader⟩, present, rfl⟩ := List.mem_map.mp member
    exact toDemand_valid (readable otherId reader (mem_readersOf.mp present).1) otherId id state
  have member : demand.toDemand demandId id state ∈ (collectDemands state id).1 := by
    rw [collected]
    exact List.mem_map.mpr ⟨(demandId, demand), listed, rfl⟩
  obtain ⟨plan, built, _, correct⟩ := buildStreamDemandPlan_correct (collectDemands state id).1
    state.window sum distinct (fun other present _ => valid other present)
  obtain ⟨focused, focusedMember, highest⟩ := exists_highest (List.ne_nil_of_mem member)
  have promised := correct focused focusedMember highest
  have own := readable demandId demand (mem_readersOf.mp listed).1
  have blocking : ⟨demand.blockingPiece, .blocking⟩ ∈ plan.pieces := by
    refine (promised.blocking _).mpr ⟨demand.toDemand demandId id state, member, rfl,
      demand.range.start, ⟨le_rfl, own.ordered⟩, own.inside, ?_⟩
    exact (blockingPiece_eq own).symm
  exact ⟨plan, built, blocking, (promised.deadlines _).mpr (Or.inl blocking)⟩

end Plan

section Recompute

variable {handles : Handles} {loose unrouted : String → Prop} {state : BridgeState} {id : String}

theorem chosenHandle_named (served : Served handles loose state) (routing : Routing unrouted state)
    (stale : unrouted id → state.anchors.lookup id = none ∧
      ∀ target route, state.routes.lookup target = some route → route.torrentId ≠ id)
    (named : ∀ target route, state.routes.lookup target = some route →
      handles.torrentOf route.handle = route.torrentId) :
    (∀ schedule, state.currentSchedules.lookup id = some schedule →
      chosenHandle state id = some schedule.handle) ∧
    ∀ handle, chosenHandle state id = some handle → handles.torrentOf handle = id := by
  by_cases isUnrouted : unrouted id
  · obtain ⟨unanchored, streamless⟩ := stale isUnrouted
    have idle := routing.idle streamless unanchored
    constructor
    · intro schedule found
      simp [chosenHandle, idle, found]
    · intro handle chosen
      simp only [chosenHandle, idle, Option.none_or, Option.map_eq_some_iff] at chosen
      obtain ⟨schedule, found, rfl⟩ := chosen
      exact served.named id schedule found
  · have own : ∀ handle, Streams state id handle → handles.torrentOf handle = id := by
      rintro handle ⟨target, route, registered, torrent, rfl⟩
      rw [named target route registered, torrent]
    have unique : ∀ left right, Streams state id left → Streams state id right → left = right := by
      rintro left right ⟨leftTarget, leftRoute, leftFound, leftTorrent, rfl⟩
        ⟨rightTarget, rightRoute, rightFound, rightTorrent, rfl⟩
      have same := routing.unique _ _ _ _ leftFound rightFound (leftTorrent.trans rightTorrent.symm)
      rw [same, rightFound] at leftFound
      rw [Option.some.inj leftFound]
    constructor
    · intro schedule found
      rw [chosenHandle, found]
      cases collected : (collectDemands state id).2 with
      | none => rfl
      | some handle =>
          have streams := routing.collected isUnrouted collected
          rw [unique handle schedule.handle streams (routing.schedules id schedule isUnrouted found)]
          rfl
    · intro handle chosen
      rcases Option.or_eq_some_iff.mp chosen with collected | ⟨_, previous⟩
      · exact own handle (routing.collected isUnrouted collected)
      · obtain ⟨schedule, found, rfl⟩ := Option.map_eq_some_iff.mp previous
        exact served.named id schedule found

theorem chosenHandle_reader (routing : Routing unrouted state) {demandId : Nat}
    {demand : ActiveDemand} (listed : (demandId, demand) ∈ readersOf state id) :
    chosenHandle state id = some demand.route.handle := by
  obtain ⟨active, torrent, _⟩ := mem_readersOf.mp listed
  have registered := (routing.demands demandId demand active).2.2.2
  rcases collectDemands_cases state id with ⟨lastId, last, lastListed, same⟩ | ⟨empty, _⟩ | ⟨empty, _⟩
  · obtain ⟨lastActive, lastTorrent, _⟩ := mem_readersOf.mp lastListed
    have lastRegistered := (routing.demands lastId last lastActive).2.2.2
    have target := routing.unique _ _ _ _ lastRegistered registered
      (lastTorrent.trans torrent.symm)
    rw [target, registered] at lastRegistered
    rw [chosenHandle, same, Option.some.inj lastRegistered]
    rfl
  · simp [empty] at listed
  · simp [empty] at listed

theorem Served.reschedule (served : Served handles loose state) {next : BridgeState}
    (waiters : next.waiters = state.waiters) (pieceWaiters : next.pieceWaiters = state.pieceWaiters)
    (demands : next.activeDemands = state.activeDemands)
    (others : ∀ query, query ≠ id →
      next.currentSchedules.lookup query = state.currentSchedules.lookup query)
    (reads : ∀ query piece, query ≠ id → requested next query piece = requested state query piece)
    (asks : ∀ handle piece, handles.torrentOf handle ≠ id →
      Bridge.asked handle piece next.calls = Bridge.asked handle piece state.calls)
    (own : ∀ schedule, next.currentSchedules.lookup id = some schedule →
      handles.torrentOf schedule.handle = id ∧ (handles.valid schedule.handle →
        ∀ piece ∈ schedule.deadlineOrder, requested next id piece = true →
          Bridge.asked schedule.handle piece next.calls = true))
    (serves : ∀ key waiter demand, Held state key waiter →
      finished (state.waiters waiter) = false →
      state.activeDemands.lookup (state.waiters waiter).demandId = some demand →
      demand.needsData = true → handles.valid demand.route.handle → key.torrentId = id →
      Scheduled next key) :
    Served handles (fun other => loose other ∧ other ≠ id) next := by
  have held : ∀ key waiter, Held next key waiter → Held state key waiter := by
    rintro key waiter ⟨list, found, member⟩
    exact ⟨list, pieceWaiters ▸ found, member⟩
  constructor
  · intro query schedule found
    by_cases here : query = id
    · rw [here] at found ⊢
      exact (own schedule found).1
    · rw [others query here] at found
      exact served.named query schedule found
  · intro query schedule found valid piece listed read
    by_cases here : query = id
    · rw [here] at found read
      exact (own schedule found).2 valid piece listed read
    · rw [others query here] at found
      rw [reads query piece here] at read
      rw [asks _ _ (served.named query schedule found ▸ here)]
      exact served.asked query schedule found valid piece listed read
  · rw [waiters, demands]
    intro key waiter demand holds past active
    exact served.placed key waiter demand (held key waiter holds) past active
  · rw [waiters, demands]
    intro key waiter demand holds past active needs valid tight
    by_cases here : key.torrentId = id
    · exact serves key waiter demand (held key waiter holds) past active needs valid here
    · obtain ⟨schedule, found, blocking, listed, read⟩ := served.awaited key waiter demand
        (held key waiter holds) past active needs valid fun isLoose => tight ⟨isLoose, here⟩
      exact ⟨schedule, (others _ here).trans found, blocking, listed, (reads _ _ here).trans read⟩

theorem Served.recompute (served : Served handles loose state) (routing : Routing unrouted state)
    (stale : unrouted id → state.anchors.lookup id = none ∧
      ∀ target route, state.routes.lookup target = some route → route.torrentId ≠ id)
    (named : ∀ target route, state.routes.lookup target = some route →
      handles.torrentOf route.handle = route.torrentId)
    (sum : state.window.criticalBytes + state.window.playbackBytes < 2 ^ 64)
    (readable : ∀ demandId demand, state.activeDemands.lookup demandId = some demand →
      Readable demand.route demand.range) {lt : Libtorrent} (calm : handles.Calm lt) :
    Holds state (recomputeSchedule lt state id) ∧
    Served handles (fun other => loose other ∧ other ≠ id) (recomputeSchedule lt state id) := by
  obtain ⟨agrees, owned⟩ := chosenHandle_named served routing stale named
  -- an open waiter of the torrent belongs to a reader for which a plan is made
  have reading : ∀ key waiter demand, Held state key waiter →
      finished (state.waiters waiter) = false →
      state.activeDemands.lookup (state.waiters waiter).demandId = some demand →
      demand.needsData = true → key.torrentId = id →
      demand.blockingPiece = key.piece ∧ chosenHandle state id = some demand.route.handle ∧
        ∃ plan, buildStreamDemandPlan (collectDemands state id).1 state.window = .ok plan ∧
          ⟨key.piece, .blocking⟩ ∈ plan.pieces ∧ key.piece ∈ plan.deadlineOrder := by
    intro key waiter demand held past active needs torrent
    obtain ⟨own, piece⟩ := served.placed key waiter demand held past active
    have listed := mem_readersOf.mpr ⟨active, own.trans torrent, needs⟩
    exact ⟨piece, chosenHandle_reader routing listed, piece ▸ readers_planned sum readable listed⟩
  have computes := recomputeSchedule_recomputes lt state id
  have others := fun query (different : query ≠ id) => recomputeSchedule_other lt state different
  rcases recomputeSchedule_outcomes id calm.accepts state with ⟨message, failed, same⟩ |
    ⟨plan, built, ⟨invalid, same⟩ | ⟨handle, sent, applied, chosen, confined, dated, same⟩⟩
  · rw [same]
    refine ⟨Holds.refl state, served.reschedule rfl rfl rfl (fun _ _ => rfl) (fun _ _ _ => rfl)
      (fun _ _ _ => rfl) (fun schedule found => ⟨served.named id schedule found,
        served.asked id schedule found⟩) ?_⟩
    intro key waiter demand held past active needs valid torrent
    obtain ⟨_, _, plan, built, _⟩ := reading key waiter demand held past active needs torrent
    rw [failed] at built
    simp at built
  · obtain ⟨reads, calls, pieceWaiters, waiters⟩ := keepAnchor_confined id state plan
    generalize recomputeSchedule lt state id = next at same computes others ⊢
    have nextWaiters : next.waiters = state.waiters := (congrArg BridgeState.waiters same).trans waiters
    have nextHeld : next.pieceWaiters = state.pieceWaiters :=
      (congrArg BridgeState.pieceWaiters same).trans pieceWaiters
    have nextCalls : next.calls = state.calls := (congrArg BridgeState.calls same).trans calls
    have nextReads : ∀ query piece, requested next query piece = requested state query piece := by
      intro query piece
      rw [← reads, requested, congrArg BridgeState.requestedReads same]
      rfl
    have erased : next.currentSchedules.lookup id = none := by
      rw [congrArg BridgeState.currentSchedules same]
      exact AList.lookup_erase _ _
    refine ⟨Holds.same nextWaiters nextHeld computes.activeDemands, served.reschedule nextWaiters
      nextHeld computes.activeDemands others (fun query piece _ => nextReads query piece)
      (fun _ _ _ => by rw [nextCalls]) (by simp [erased]) ?_⟩
    intro key waiter demand held past active needs valid torrent
    obtain ⟨_, used, _⟩ := reading key waiter demand held past active needs torrent
    have isValid := calm.valid _ valid
    rw [invalid _ used] at isValid
    simp at isValid
  · obtain ⟨reads, calls, pieceWaiters, waiters⟩ := keepAnchor_confined id state plan
    have known : handles.valid handle → ∀ piece ∈ deadlinesOf (state.currentSchedules.lookup id),
        requested state id piece = true → Bridge.asked handle piece state.calls = true := by
      intro valid piece listed read
      cases previous : state.currentSchedules.lookup id with
      | none => simp [previous, deadlinesOf] at listed
      | some schedule =>
          rw [previous] at listed
          obtain rfl : handle = schedule.handle :=
            Option.some.inj (chosen.symm.trans (agrees schedule previous))
          exact served.asked id schedule previous valid piece listed read
    have stored := lookup_storeSchedule sent id handle (state.currentSchedules.lookup id)
      (fallback (keepAnchor state id plan) id (state.currentSchedules.lookup id) (combinedOf plan))
      plan applied
    generalize recomputeSchedule lt state id = next at same computes others ⊢
    rw [← same] at stored
    have nextWaiters : next.waiters = state.waiters :=
      ((congrArg BridgeState.waiters same).trans
        ((congrArg BridgeState.waiters confined.requests).trans rfl)).trans waiters
    have sentHeld : sent.pieceWaiters = state.pieceWaiters := confined.pieceWaiters.trans pieceWaiters
    have nextHeld : next.pieceWaiters = state.pieceWaiters :=
      (congrArg BridgeState.pieceWaiters same).trans sentHeld
    have nextCalls : next.calls = sent.calls := (congrArg BridgeState.calls same).trans rfl
    have nextReads : ∀ query piece, requested next query piece = requested sent query piece := by
      intro query piece
      rw [requested, congrArg BridgeState.requestedReads same]
      rfl
    refine ⟨Holds.same nextWaiters nextHeld computes.activeDemands, served.reschedule nextWaiters
      nextHeld computes.activeDemands others ?_ ?_ ?_ ?_⟩
    · intro query piece different
      rw [nextReads, confined.reads query piece different, reads]
    · intro other piece different
      rw [nextCalls, confined.asked other piece, calls]
      rintro rfl
      exact different (owned other chosen)
    · intro schedule found
      rw [stored] at found
      split at found
      · simp at found
      · obtain rfl := Option.some.inj found
        refine ⟨owned handle chosen, fun valid piece listed read => ?_⟩
        rw [nextReads] at read
        rw [nextCalls]
        exact (dated (known valid) piece listed).asked read
    · intro key waiter demand held past active needs valid torrent
      obtain ⟨_, used, planned, alsoBuilt, blocking, listed⟩ :=
        reading key waiter demand held past active needs torrent
      obtain rfl : plan = planned := Except.ok.inj (built.symm.trans alsoBuilt)
      obtain rfl : handle = demand.route.handle := Option.some.inj (chosen.symm.trans used)
      have once := (buildStreamDemandPlan_deadlines built).1
      have found := (lookup_combinedOf once _ _).mpr blocking
      rw [fallback_eq_combinedOf once blocking, if_neg] at stored
      · refine ⟨_, torrent ▸ stored, found, listed, ?_⟩
        rw [nextReads, torrent]
        refine (dated (known valid) key.piece listed).requested ?_
        obtain ⟨list, present, _⟩ := held
        rw [sentHeld, ← torrent, present]
        rfl
      · intro empty
        rw [SortedMap.lookup, List.isEmpty_iff.mp empty] at found
        simp [SortedMap.findEntry] at found

end Recompute

end NuvioEngine.Bridge
