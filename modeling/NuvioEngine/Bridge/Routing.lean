import NuvioEngine.Bridge.Recompute
import NuvioEngine.Bridge.SystemCore

/-!
Routes, demands, anchors and schedules agree: one route per torrent, demands and anchors only for
registered routes, and schedules only for torrents with a stream. Stopping, removing and
registering streams keep it so.
-/

namespace NuvioEngine.Bridge

open NuvioEngine.Scheduler NuvioEngine.Stream NuvioEngine.Cache BridgeState

/-- Some registered stream belongs to the torrent and comes with this handle. -/
def Streams (state : BridgeState) (id : String) (handle : Nat) : Prop :=
  ∃ target route, state.routes.lookup target = some route ∧ route.torrentId = id ∧
    route.handle = handle

/-- Routes, demands, anchors and schedules agree. The torrents in `loose` have lost their streams
and may still have an anchor or a schedule. -/
structure Routing (loose : String → Prop) (state : BridgeState) : Prop where
  targets : ∀ target route, state.routes.lookup target = some route →
    route.target = target ∧ target = "/stream/" ++ route.streamId ∧ route.torrentId ≠ ""
  unique : ∀ first second left right, state.routes.lookup first = some left →
    state.routes.lookup second = some right → left.torrentId = right.torrentId → first = second
  demands : ∀ demandId demand, state.activeDemands.lookup demandId = some demand →
    0 < demandId ∧ 0 < demand.route.fileSize ∧ demand.route.torrentId ∉ state.revokedTorrents ∧
      state.routes.lookup demand.route.target = some demand.route
  anchors : ∀ id anchor, ¬ loose id → state.anchors.lookup id = some anchor →
    anchor.route.torrentId = id ∧ 0 < anchor.route.fileSize ∧
      state.routes.lookup anchor.route.target = some anchor.route
  anchored : ∀ target route, state.routes.lookup target = some route → 0 < route.fileSize →
    (state.anchors.lookup route.torrentId).isSome
  schedules : ∀ id schedule, ¬ loose id → state.currentSchedules.lookup id = some schedule →
    Streams state id schedule.handle

section Routing

variable {loose : String → Prop} {first second : BridgeState}

theorem Routing.congr (routing : Routing loose first) (routes : second.routes = first.routes)
    (demands : second.activeDemands = first.activeDemands) (anchors : second.anchors = first.anchors)
    (schedules : second.currentSchedules = first.currentSchedules)
    (revoked : second.revokedTorrents = first.revokedTorrents) : Routing loose second := by
  constructor
  · rw [routes]
    exact routing.targets
  · rw [routes]
    exact routing.unique
  · rw [routes, demands, revoked]
    exact routing.demands
  · rw [routes, anchors]
    exact routing.anchors
  · rw [routes, anchors]
    exact routing.anchored
  · rw [schedules]
    intro id schedule tight found
    obtain ⟨target, route, registered, same⟩ := routing.schedules id schedule tight found
    exact ⟨target, route, routes ▸ registered, same⟩

theorem Routing.sends (routing : Routing loose first) (sends : Sends first second) :
    Routing loose second :=
  routing.congr sends.routes sends.activeDemands sends.anchors sends.currentSchedules
    sends.revokedTorrents

theorem Routing.tighten {tight : String → Prop} (routing : Routing loose first)
    (covered : ∀ id, loose id → tight id) : Routing tight first :=
  ⟨routing.targets, routing.unique, routing.demands,
    fun id anchor notTight => routing.anchors id anchor fun isLoose => notTight (covered id isLoose),
    routing.anchored,
    fun id schedule notTight => routing.schedules id schedule fun isLoose =>
      notTight (covered id isLoose)⟩

theorem hasStreamForTorrent_eq_false {state : BridgeState} {id : String}
    (none : ∀ target route, state.routes.lookup target = some route → route.torrentId ≠ id) :
    state.hasStreamForTorrent id = false := by
  rw [BridgeState.hasStreamForTorrent, List.any_eq_false]
  rintro ⟨target, route⟩ member
  simpa using none target route ((AList.lookup_eq_some_iff _ _ _).mpr member)

theorem Routing.collected (routing : Routing loose first) {id : String} (tight : ¬ loose id)
    {handle : Nat} (found : (collectDemands first id).2 = some handle) : Streams first id handle := by
  rcases collectDemands_cases first id with ⟨demandId, demand, listed, collected⟩ |
    ⟨_, anchor, present, collected⟩ | ⟨_, _, collected⟩
  · obtain ⟨active, torrent, _⟩ := mem_readersOf.mp listed
    have registered := (routing.demands demandId demand active).2.2.2
    rw [collected] at found
    exact ⟨_, _, registered, torrent, Option.some.inj found⟩
  · obtain ⟨torrent, _, registered⟩ := routing.anchors id anchor tight present
    rw [collected] at found
    exact ⟨_, _, registered, torrent, Option.some.inj found⟩
  · rw [collected] at found
    simp at found

theorem Routing.idle (routing : Routing loose first) {id : String}
    (none : ∀ target route, first.routes.lookup target = some route → route.torrentId ≠ id)
    (unanchored : first.anchors.lookup id = .none) :
    collectDemands first id = ([], .none) := by
  rcases collectDemands_cases first id with ⟨demandId, demand, listed, _⟩ |
    ⟨_, anchor, present, _⟩ | ⟨_, _, collected⟩
  · obtain ⟨active, torrent, _⟩ := mem_readersOf.mp listed
    exact absurd torrent (none _ _ (routing.demands demandId demand active).2.2.2)
  · rw [unanchored] at present
    simp at present
  · exact collected

/-- Recomputing a torrent's schedule settles it: either the torrent has a stream, or the schedule
is erased. -/
theorem Routing.recompute (routing : Routing loose first) (lt : Libtorrent) (id : String)
    (stale : loose id → first.anchors.lookup id = none ∧
      ∀ target route, first.routes.lookup target = some route → route.torrentId ≠ id) :
    Routing (fun other => loose other ∧ other ≠ id) (recomputeSchedule lt first id) := by
  have computes := recomputeSchedule_recomputes lt first id
  have positive : ∀ demandId demand, first.activeDemands.lookup demandId = some demand →
      0 < demandId := fun demandId demand found => (routing.demands demandId demand found).1
  constructor
  · rw [computes.routes]
    exact routing.targets
  · rw [computes.routes]
    exact routing.unique
  · rw [computes.routes, computes.activeDemands, computes.revokedTorrents]
    exact routing.demands
  · rw [computes.routes]
    rcases recomputeSchedule_anchors lt first id positive with same |
      ⟨demandId, demand, active, torrent, same⟩
    · rw [same]
      intro query anchor settled found
      refine routing.anchors query anchor (fun isLoose => settled ⟨isLoose, ?_⟩) found
      rintro rfl
      simp [(stale isLoose).1] at found
    · rw [same]
      intro query anchor settled found
      rw [AList.lookup_insert_ite] at found
      split at found
      · rename_i matched
        obtain rfl := Option.some.inj found
        obtain ⟨_, sized, _, registered⟩ := routing.demands demandId demand active
        exact ⟨torrent.trans matched.symm, sized, registered⟩
      · rename_i different
        exact routing.anchors query anchor (fun isLoose => settled ⟨isLoose, different⟩) found
  · rw [computes.routes]
    intro target route registered sized
    have before := routing.anchored target route registered sized
    rcases recomputeSchedule_anchors lt first id positive with same | ⟨_, demand, _, _, same⟩
    · rw [same]
      exact before
    · rw [same, AList.lookup_insert_ite]
      split
      · rfl
      · exact before
  · intro query schedule settled found
    have moved : ∀ handle, Streams first query handle →
        Streams (recomputeSchedule lt first id) query handle := by
      rintro handle ⟨target, route, registered, same⟩
      exact ⟨target, route, computes.routes ▸ registered, same⟩
    by_cases own : query = id
    · subst own
      by_cases isLoose : loose query
      · obtain ⟨unanchored, none⟩ := stale isLoose
        rw [recomputeSchedule_erases lt first query (routing.idle none unanchored)
          (hasStreamForTorrent_eq_false none)] at found
        simp at found
      · rcases recomputeSchedule_own lt first query with same | gone | ⟨next, present, chosen⟩
        · exact moved _ (routing.schedules query schedule isLoose (same ▸ found))
        · rw [gone] at found
          simp at found
        · obtain rfl : next = schedule := Option.some.inj (present.symm.trans found)
          unfold chosenHandle at chosen
          rcases Option.or_eq_some_iff.mp chosen with collected | ⟨_, previous⟩
          · exact moved _ (routing.collected isLoose collected)
          · obtain ⟨old, before, same⟩ := Option.map_eq_some_iff.mp previous
            exact moved _ (same ▸ routing.schedules query old isLoose before)
    · rw [recomputeSchedule_other lt first own] at found
      exact moved _ (routing.schedules query schedule (fun isLoose => settled ⟨isLoose, own⟩) found)

theorem Routing.recompute_settled (routing : Routing (fun _ => False) first) (lt : Libtorrent)
    (id : String) : Routing (fun _ => False) (recomputeSchedule lt first id) :=
  (routing.recompute lt id False.elim).tighten fun _ both => both.1

end Routing

/-- Only demands, their shared states and waiters change. -/
def Stops (before after : BridgeState) : Prop :=
  after = { before with
    activeDemands := after.activeDemands
    demandCancelled := after.demandCancelled
    calls := after.calls
    requestedReads := after.requestedReads
    pieceWaiters := after.pieceWaiters
    partialBlocks := after.partialBlocks
    waiters := after.waiters }

namespace Stops

variable {first second third : BridgeState}

theorem trans (left : Stops first second) (right : Stops second third) : Stops first third := by
  unfold Stops at *
  rw [right, left]

theorem ofSends (sends : Sends first second) : Stops first second := by
  unfold Stops
  unfold Sends at sends
  rw [sends]

theorem routes (stops : Stops first second) : second.routes = first.routes :=
  (congrArg BridgeState.routes stops).trans rfl

theorem anchors (stops : Stops first second) : second.anchors = first.anchors :=
  (congrArg BridgeState.anchors stops).trans rfl

theorem currentSchedules (stops : Stops first second) :
    second.currentSchedules = first.currentSchedules :=
  (congrArg BridgeState.currentSchedules stops).trans rfl

theorem revokedTorrents (stops : Stops first second) :
    second.revokedTorrents = first.revokedTorrents :=
  (congrArg BridgeState.revokedTorrents stops).trans rfl

end Stops

theorem cancelDemandState_stops (state : BridgeState) (demandState : Option Nat) :
    Stops state (state.cancelDemandState demandState) := by
  unfold cancelDemandState
  split <;> rfl

theorem cancelDemandState_activeDemands (state : BridgeState) (demandState : Option Nat) :
    (state.cancelDemandState demandState).activeDemands = state.activeDemands := by
  unfold cancelDemandState
  split <;> rfl

theorem stopDemand_stops (state : BridgeState) (demandId : Nat) (demand : ActiveDemand) :
    Stops state (state.stopDemand demandId demand) :=
  ((cancelDemandState_stops state demand.state).trans
    (Stops.ofSends (cancelDemandWaiters_sends _ demandId "stream was stopped"))).trans rfl

theorem stopDemand_activeDemands (state : BridgeState) (demandId : Nat) (demand : ActiveDemand) :
    (state.stopDemand demandId demand).activeDemands = state.activeDemands.erase demandId := by
  unfold stopDemand
  simp only [(cancelDemandWaiters_sends _ demandId "stream was stopped").activeDemands,
    cancelDemandState_activeDemands]

theorem stopDemands_stops (owned : List (Sigma fun _ : Nat => ActiveDemand)) (state : BridgeState) :
    Stops state (owned.foldl (fun current entry => current.stopDemand entry.1 entry.2) state) := by
  induction owned generalizing state with
  | nil => rfl
  | cons entry rest ih => exact (stopDemand_stops state entry.1 entry.2).trans (ih _)

theorem stopDemands_lookup (owned : List (Sigma fun _ : Nat => ActiveDemand)) (state : BridgeState)
    (demandId : Nat) :
    (owned.foldl (fun current entry => current.stopDemand entry.1 entry.2) state).activeDemands.lookup
        demandId =
      if demandId ∈ owned.map Sigma.fst then none else state.activeDemands.lookup demandId := by
  induction owned generalizing state with
  | nil => simp
  | cons entry rest ih =>
      rw [List.foldl_cons, ih, stopDemand_activeDemands, AList.lookup_erase_ite]
      by_cases here : demandId = entry.1
      · simp [here]
      · simp only [List.map_cons, List.mem_cons, here, false_or, if_false]

theorem stopDemands_owned (state : BridgeState) (streamId : String) (demandId : Nat)
    (demand : ActiveDemand) :
    ((state.activeDemands.entries.filter fun entry => entry.2.route.streamId = streamId).foldl
        (fun current entry => current.stopDemand entry.1 entry.2) state).activeDemands.lookup demandId =
          some demand →
      state.activeDemands.lookup demandId = some demand ∧ demand.route.streamId ≠ streamId := by
  rw [stopDemands_lookup]
  intro found
  split at found
  · simp at found
  · rename_i other
    refine ⟨found, fun same => other ?_⟩
    rw [AList.lookup_eq_some_iff] at found
    exact List.mem_map.mpr ⟨⟨demandId, demand⟩, List.mem_filter.mpr ⟨found, by simpa using same⟩, rfl⟩

/-- The state in which `stop_stream` recomputes the schedule. -/
def stopped (state : BridgeState) (streamId : String) : BridgeState :=
  let unanchored := state.eraseAnchor streamId
  let unrouted := { unanchored with routes := unanchored.routes.erase ("/stream/" ++ streamId) }
  (unrouted.activeDemands.entries.filter fun entry => entry.2.route.streamId = streamId).foldl
    (fun current entry => current.stopDemand entry.1 entry.2) unrouted

theorem stopped_stops (state : BridgeState) (streamId : String) :
    Stops { state.eraseAnchor streamId with routes := state.routes.erase ("/stream/" ++ streamId) }
      (stopped state streamId) :=
  stopDemands_stops _ _

theorem lookup_stopped_routes (state : BridgeState) (streamId target : String) :
    (stopped state streamId).routes.lookup target =
      if target = "/stream/" ++ streamId then none else state.routes.lookup target := by
  rw [(stopped_stops state streamId).routes]
  exact AList.lookup_erase_ite _ _ _

theorem stopped_routes_sub {state : BridgeState} {streamId target : String} {route : StreamRoute}
    (found : (stopped state streamId).routes.lookup target = some route) :
    state.routes.lookup target = some route ∧ target ≠ "/stream/" ++ streamId := by
  rw [lookup_stopped_routes] at found
  split at found
  · simp at found
  · rename_i different
    exact ⟨found, different⟩

theorem lookup_stopped_anchors (state : BridgeState) (streamId id : String) (anchor : StreamAnchor) :
    (stopped state streamId).anchors.lookup id = some anchor ↔
      state.anchors.lookup id = some anchor ∧ anchor.route.streamId ≠ streamId := by
  rw [(stopped_stops state streamId).anchors]
  simp [eraseAnchor, AList.lookup_eraseIf]

theorem lookup_stopped_demands {state : BridgeState} {streamId : String} {demandId : Nat}
    {demand : ActiveDemand} (found : (stopped state streamId).activeDemands.lookup demandId = some demand) :
    state.activeDemands.lookup demandId = some demand ∧ demand.route.streamId ≠ streamId :=
  stopDemands_owned { state.eraseAnchor streamId with
    routes := state.routes.erase ("/stream/" ++ streamId) } streamId demandId demand found

section Stop

variable {state : BridgeState} {loose : String → Prop}

theorem Routing.stopped (routing : Routing (fun _ => False) state) (streamId : String) :
    Routing (fun id => ∃ route, state.routes.lookup ("/stream/" ++ streamId) = some route ∧
      route.torrentId = id) (stopped state streamId) := by
  have kept : ∀ route : StreamRoute, state.routes.lookup route.target = some route →
      route.streamId ≠ streamId →
      (Bridge.stopped state streamId).routes.lookup route.target = some route := by
    intro route registered different
    obtain ⟨_, named, _⟩ := routing.targets _ _ registered
    rw [lookup_stopped_routes, if_neg, registered]
    rw [named]
    intro same
    exact different ((String.append_right_inj _).mp same)
  constructor
  · intro target route found
    exact routing.targets target route (stopped_routes_sub found).1
  · intro left right leftRoute rightRoute leftFound rightFound
    exact routing.unique left right leftRoute rightRoute (stopped_routes_sub leftFound).1
      (stopped_routes_sub rightFound).1
  · intro demandId demand found
    obtain ⟨active, different⟩ := lookup_stopped_demands found
    obtain ⟨positive, sized, trusted, registered⟩ := routing.demands demandId demand active
    exact ⟨positive, sized, (stopped_stops state streamId).revokedTorrents ▸ trusted,
      kept demand.route registered different⟩
  · intro id anchor _ found
    obtain ⟨present, different⟩ := (lookup_stopped_anchors state streamId id anchor).mp found
    obtain ⟨torrent, sized, registered⟩ := routing.anchors id anchor (fun impossible => impossible) present
    exact ⟨torrent, sized, kept anchor.route registered different⟩
  · intro target route found sized
    obtain ⟨registered, different⟩ := stopped_routes_sub found
    obtain ⟨anchor, present⟩ := Option.isSome_iff_exists.mp
      (routing.anchored target route registered sized)
    refine Option.isSome_iff_exists.mpr ⟨anchor, (lookup_stopped_anchors _ _ _ _).mpr ⟨present, ?_⟩⟩
    -- the anchor belongs to the torrent's only stream, which is another one
    obtain ⟨torrent, _, anchorRegistered⟩ :=
      routing.anchors _ _ (fun impossible => impossible) present
    have same := routing.unique _ _ _ _ anchorRegistered registered torrent
    obtain ⟨_, named, _⟩ := routing.targets _ _ anchorRegistered
    intro stoppedStream
    exact different (by rw [← same, named, stoppedStream])
  · intro id schedule tight found
    rw [(stopped_stops state streamId).currentSchedules] at found
    obtain ⟨target, route, registered, torrent, handle⟩ :=
      routing.schedules id schedule (fun impossible => impossible) found
    refine ⟨target, route, ?_, torrent, handle⟩
    rw [lookup_stopped_routes, if_neg, registered]
    intro same
    exact tight ⟨route, same ▸ registered, torrent⟩

theorem foldl_found (owned : List (Sigma fun _ : Nat => ActiveDemand)) {found : String}
    (known : found ≠ "") :
    owned.foldl (fun found entry => if found.isEmpty then entry.2.route.torrentId else found) found =
      found := by
  induction owned with
  | nil => rfl
  | cons entry rest ih =>
      have nonempty : found.isEmpty = false := by simpa using known
      rw [List.foldl_cons, nonempty]
      exact ih

theorem Routing.unowned (routing : Routing loose state) {streamId : String}
    (found : state.routes.lookup ("/stream/" ++ streamId) = none) :
    (state.activeDemands.entries.filter fun entry => entry.2.route.streamId = streamId) = [] := by
  rw [List.filter_eq_nil_iff]
  rintro ⟨demandId, demand⟩ member same
  have registered := (routing.demands demandId demand
    ((AList.lookup_eq_some_iff _ _ _).mpr member)).2.2.2
  obtain ⟨_, target, _⟩ := routing.targets _ _ registered
  rw [target, of_decide_eq_true same, found] at registered
  simp at registered

/-- `stop_stream` recomputes the schedule of the stream's torrent, and nothing when there is no
such stream. -/
theorem Routing.stopStream_eq (routing : Routing loose state) (lt : Libtorrent) (streamId : String) :
    (stopStream lt state streamId).1 =
      match state.routes.lookup ("/stream/" ++ streamId) with
      | none => Bridge.stopped state streamId
      | some route => recomputeSchedule lt (Bridge.stopped state streamId) route.torrentId := by
  have routes : (state.eraseAnchor streamId).routes = state.routes := rfl
  have demands : (state.eraseAnchor streamId).activeDemands = state.activeDemands := rfl
  cases found : state.routes.lookup ("/stream/" ++ streamId) with
  | some route =>
      obtain ⟨_, _, named⟩ := routing.targets _ _ found
      have nonempty : route.torrentId.isEmpty = false := by simpa using named
      simp only [stopStream, routes, found, Option.elim_some, foldl_found _ named, nonempty]
      rfl
  | none =>
      simp only [stopStream, routes, demands, found, Option.elim_none, routing.unowned found,
        List.foldl_nil]
      simp only [Bridge.stopped, demands, routes, routing.unowned found, List.foldl_nil]
      rfl

theorem Routing.stopped_stale (routing : Routing (fun _ => False) state) {streamId : String}
    {route : StreamRoute} (found : state.routes.lookup ("/stream/" ++ streamId) = some route) :
    (Bridge.stopped state streamId).anchors.lookup route.torrentId = none ∧
      ∀ target other, (Bridge.stopped state streamId).routes.lookup target = some other →
        other.torrentId ≠ route.torrentId := by
  constructor
  · rw [Option.eq_none_iff_forall_ne_some]
    intro anchor present
    obtain ⟨held, different⟩ := (lookup_stopped_anchors _ _ _ _).mp present
    obtain ⟨torrent, _, registered⟩ := routing.anchors _ anchor (fun impossible => impossible) held
    have same := routing.unique _ _ _ _ registered found torrent
    rw [same, found] at registered
    obtain ⟨_, target, _⟩ := routing.targets _ _ found
    rw [String.append_right_inj] at target
    exact different (by rw [← Option.some.inj registered, target])
  · intro target other present same
    obtain ⟨registered, different⟩ := stopped_routes_sub present
    exact different (routing.unique _ _ _ _ registered found same)

theorem Routing.stopStream (routing : Routing (fun _ => False) state) (lt : Libtorrent)
    (streamId : String) : Routing (fun _ => False) (stopStream lt state streamId).1 := by
  rw [routing.stopStream_eq lt streamId]
  have after := routing.stopped streamId
  cases found : state.routes.lookup ("/stream/" ++ streamId) with
  | none =>
      refine after.tighten ?_
      rintro id ⟨route, registered, _⟩
      simp [found] at registered
  | some route =>
      refine (after.recompute lt route.torrentId fun _ => routing.stopped_stale found).tighten ?_
      rintro id ⟨⟨other, registered, torrent⟩, different⟩
      obtain rfl : route = other := Option.some.inj (found.symm.trans registered)
      exact different torrent.symm

end Stop

/-- The state in which `remove_torrent` recomputes the schedule. -/
def removed (state : BridgeState) (id : String) : BridgeState :=
  let owned := state.activeDemands.entries.filter fun entry => entry.2.route.torrentId = id
  owned.foldl (fun current entry => current.cancelDemandState entry.2.state) { state with
    revokedTorrents := state.revokedTorrents.insert id
    anchors := state.anchors.erase id
    pieceCache := state.pieceCache.eraseTorrent id
    lastReadyPieces := state.lastReadyPieces.erase id
    requestedReads := state.requestedReads.eraseIf fun key _ => key.torrentId = id
    partialBlocks := state.partialBlocks.eraseIf fun key _ => key.torrentId = id
    routes := state.routes.eraseIf fun _ route => route.torrentId = id
    activeDemands := state.activeDemands.eraseIf fun _ demand => demand.route.torrentId = id }

/-- Cancelling demands changes nothing but their shared flags. -/
def Cancels (before after : BridgeState) : Prop :=
  after = { before with demandCancelled := after.demandCancelled }

theorem cancelDemandStates_cancels (owned : List (Sigma fun _ : Nat => ActiveDemand))
    (state : BridgeState) :
    Cancels state (owned.foldl (fun current entry => current.cancelDemandState entry.2.state) state) := by
  induction owned generalizing state with
  | nil => rfl
  | cons entry rest ih =>
      have here : Cancels state (state.cancelDemandState entry.2.state) := by
        unfold cancelDemandState
        split <;> rfl
      have later := ih (state.cancelDemandState entry.2.state)
      unfold Cancels at *
      rw [List.foldl_cons, later, here]

theorem removed_cancels (state : BridgeState) (id : String) :
    Cancels { state with
      revokedTorrents := state.revokedTorrents.insert id
      anchors := state.anchors.erase id
      pieceCache := state.pieceCache.eraseTorrent id
      lastReadyPieces := state.lastReadyPieces.erase id
      requestedReads := state.requestedReads.eraseIf fun key _ => key.torrentId = id
      partialBlocks := state.partialBlocks.eraseIf fun key _ => key.torrentId = id
      routes := state.routes.eraseIf fun _ route => route.torrentId = id
      activeDemands := state.activeDemands.eraseIf fun _ demand => demand.route.torrentId = id }
      (removed state id) :=
  cancelDemandStates_cancels _ _

section Remove

variable {state : BridgeState} (id : String)

theorem lookup_removed_routes (target : String) (route : StreamRoute) :
    (removed state id).routes.lookup target = some route ↔
      state.routes.lookup target = some route ∧ route.torrentId ≠ id := by
  rw [show (removed state id).routes = _ from congrArg BridgeState.routes (removed_cancels state id)]
  simp [AList.lookup_eraseIf]

theorem lookup_removed_demands (demandId : Nat) (demand : ActiveDemand) :
    (removed state id).activeDemands.lookup demandId = some demand ↔
      state.activeDemands.lookup demandId = some demand ∧ demand.route.torrentId ≠ id := by
  rw [show (removed state id).activeDemands = _ from
    congrArg BridgeState.activeDemands (removed_cancels state id)]
  simp [AList.lookup_eraseIf]

theorem lookup_removed_anchors (query : String) :
    (removed state id).anchors.lookup query =
      if query = id then none else state.anchors.lookup query := by
  rw [show (removed state id).anchors = _ from
    congrArg BridgeState.anchors (removed_cancels state id)]
  exact AList.lookup_erase_ite _ _ _

theorem Routing.removed (routing : Routing (fun _ => False) state) :
    Routing (fun other => other = id) (removed state id) := by
  have revoked : (Bridge.removed state id).revokedTorrents = state.revokedTorrents.insert id :=
    congrArg BridgeState.revokedTorrents (removed_cancels state id)
  constructor
  · intro target route found
    exact routing.targets target route ((lookup_removed_routes id target route).mp found).1
  · intro left right leftRoute rightRoute leftFound rightFound
    exact routing.unique left right leftRoute rightRoute
      ((lookup_removed_routes id _ _).mp leftFound).1 ((lookup_removed_routes id _ _).mp rightFound).1
  · intro demandId demand found
    obtain ⟨active, different⟩ := (lookup_removed_demands id demandId demand).mp found
    obtain ⟨positive, sized, trusted, registered⟩ := routing.demands demandId demand active
    refine ⟨positive, sized, ?_, (lookup_removed_routes id _ _).mpr ⟨registered, different⟩⟩
    rw [revoked]
    intro member
    rcases List.mem_insert_iff.mp member with same | old
    · exact different same
    · exact trusted old
  · intro query anchor _ found
    rw [lookup_removed_anchors] at found
    split at found
    · simp at found
    · rename_i different
      obtain ⟨torrent, sized, registered⟩ :=
        routing.anchors query anchor (fun impossible => impossible) found
      exact ⟨torrent, sized, (lookup_removed_routes id _ _).mpr
        ⟨registered, fun same => different (torrent.symm.trans same)⟩⟩
  · intro target route found sized
    obtain ⟨registered, different⟩ := (lookup_removed_routes id target route).mp found
    rw [lookup_removed_anchors, if_neg different]
    exact routing.anchored target route registered sized
  · intro query schedule different found
    rw [show (Bridge.removed state id).currentSchedules = state.currentSchedules from
      (congrArg BridgeState.currentSchedules (removed_cancels state id)).trans rfl] at found
    obtain ⟨target, route, registered, torrent, handle⟩ :=
      routing.schedules query schedule (fun impossible => impossible) found
    exact ⟨target, route, (lookup_removed_routes id _ _).mpr
      ⟨registered, fun same => different (torrent.symm.trans same)⟩, torrent, handle⟩

theorem removeTorrent_sends (lt : Libtorrent) :
    Sends (recomputeSchedule lt (removed state id) id) (removeTorrent lt state id) := by
  unfold BridgeState.removeTorrent
  exact (completeWaiters_sends _ none "torrent was removed" _).trans rfl

theorem Routing.removeTorrent (routing : Routing (fun _ => False) state) (lt : Libtorrent) :
    Routing (fun _ => False) (removeTorrent lt state id) := by
  have unanchored : (Bridge.removed state id).anchors.lookup id = none := by
    rw [lookup_removed_anchors, if_pos rfl]
  have computed := (routing.removed id).recompute lt id fun _ => ⟨unanchored, fun target route found =>
    ((lookup_removed_routes id target route).mp found).2⟩
  refine (computed.sends (removeTorrent_sends id lt)).tighten ?_
  rintro other ⟨same, different⟩
  exact different same

end Remove

theorem stopStream_routes_sub {state : BridgeState} {lt : Libtorrent} {streamId target : String}
    {route : StreamRoute} (routing : Routing (fun _ => False) state)
    (found : (stopStream lt state streamId).1.routes.lookup target = some route) :
    state.routes.lookup target = some route ∧ target ≠ "/stream/" ++ streamId := by
  rw [routing.stopStream_eq lt streamId] at found
  split at found
  · exact stopped_routes_sub found
  · rw [(recomputeSchedule_recomputes lt _ _).routes] at found
    exact stopped_routes_sub found

theorem Routing.stopStreams (lt : Libtorrent) (streams : List String) {state : BridgeState}
    (routing : Routing (fun _ => False) state) :
    Routing (fun _ => False) (streams.foldl (fun current streamId =>
      (BridgeState.stopStream lt current streamId).1) state) ∧
    ∀ target route, (streams.foldl (fun current streamId =>
        (BridgeState.stopStream lt current streamId).1) state).routes.lookup target = some route →
      state.routes.lookup target = some route ∧ ∀ streamId ∈ streams, target ≠ "/stream/" ++ streamId := by
  induction streams generalizing state with
  | nil => exact ⟨routing, fun _ _ found => ⟨found, by simp⟩⟩
  | cons streamId rest ih =>
      obtain ⟨after, routes⟩ := ih (routing.stopStream lt streamId)
      refine ⟨after, ?_⟩
      intro target route found
      obtain ⟨middle, others⟩ := routes target route found
      obtain ⟨before, different⟩ := stopStream_routes_sub routing middle
      refine ⟨before, ?_⟩
      intro other member
      rcases List.mem_cons.mp member with rfl | later
      · exact different
      · exact others other later

section Register

variable {state : BridgeState} {route : StreamRoute}

theorem Routing.registered (routing : Routing (fun _ => False) state)
    (target : route.target = "/stream/" ++ route.streamId) (named : route.torrentId ≠ "")
    (fresh : state.routes.lookup route.target = none)
    (alone : ∀ target other, state.routes.lookup target = some other →
      other.torrentId ≠ route.torrentId) {next : BridgeState}
    (routes : next.routes = state.routes.insert route.target route)
    (demands : next.activeDemands = state.activeDemands)
    (schedules : next.currentSchedules = state.currentSchedules)
    (revoked : ∀ id, id ∈ next.revokedTorrents → id ∈ state.revokedTorrents)
    (anchors : ∀ id anchor, next.anchors.lookup id = some anchor →
      state.anchors.lookup id = some anchor ∨
        (id = route.torrentId ∧ anchor.route = route ∧ 0 < route.fileSize))
    (kept : ∀ id, (state.anchors.lookup id).isSome → (next.anchors.lookup id).isSome)
    (anchored : 0 < route.fileSize → (next.anchors.lookup route.torrentId).isSome) :
    Routing (fun _ => False) next := by
  have lookupNew : next.routes.lookup route.target = some route := by
    rw [routes, AList.lookup_insert]
  have lookupOld : ∀ (other : StreamRoute), state.routes.lookup other.target = some other →
      next.routes.lookup other.target = some other := by
    intro other found
    rw [routes, AList.lookup_insert_ite, if_neg, found]
    intro same
    rw [same, fresh] at found
    simp at found
  have lookupCases : ∀ target other, next.routes.lookup target = some other →
      (target = route.target ∧ other = route) ∨ state.routes.lookup target = some other := by
    intro target other found
    rw [routes, AList.lookup_insert_ite] at found
    split at found
    · rename_i same
      exact Or.inl ⟨same, (Option.some.inj found).symm⟩
    · exact Or.inr found
  constructor
  · intro query other found
    rcases lookupCases query other found with ⟨same, rfl⟩ | old
    · exact ⟨same.symm, same.trans target, named⟩
    · exact routing.targets query other old
  · intro left right leftRoute rightRoute leftFound rightFound torrent
    rcases lookupCases _ _ leftFound with ⟨leftSame, rfl⟩ | leftOld
    · rcases lookupCases _ _ rightFound with ⟨rightSame, _⟩ | rightOld
      · exact leftSame.trans rightSame.symm
      · exact absurd torrent.symm (alone _ _ rightOld)
    · rcases lookupCases _ _ rightFound with ⟨rightSame, rfl⟩ | rightOld
      · exact absurd torrent (alone _ _ leftOld)
      · exact routing.unique _ _ _ _ leftOld rightOld torrent
  · intro demandId demand found
    rw [demands] at found
    obtain ⟨positive, sized, trusted, registered⟩ := routing.demands demandId demand found
    exact ⟨positive, sized, fun member => trusted (revoked _ member), lookupOld _ registered⟩
  · intro id anchor tight found
    rcases anchors id anchor found with old | ⟨rfl, same, sized⟩
    · obtain ⟨torrent, sized, registered⟩ := routing.anchors id anchor tight old
      exact ⟨torrent, sized, lookupOld _ registered⟩
    · rw [same]
      exact ⟨rfl, sized, lookupNew⟩
  · intro query other found sized
    rcases lookupCases query other found with ⟨_, rfl⟩ | old
    · exact anchored sized
    · exact kept _ (routing.anchored query other old sized)
  · intro id schedule tight found
    rw [schedules] at found
    obtain ⟨query, other, registered, torrent, handle⟩ := routing.schedules id schedule tight found
    obtain ⟨own, _, _⟩ := routing.targets _ _ registered
    refine ⟨query, other, ?_, torrent, handle⟩
    rw [← own] at registered ⊢
    exact lookupOld other registered

/-- The state in which the streams of the route's torrent have stopped. -/
def vacated (lt : Libtorrent) (state : BridgeState) (route : StreamRoute) : BridgeState :=
  ((state.routes.entries.filter fun entry => entry.2.torrentId = route.torrentId).map
    fun entry => entry.2.streamId).foldl
      (fun current streamId => (BridgeState.stopStream lt current streamId).1) state

/-- The state in which `register_stream` recomputes the schedule. -/
def joined (lt : Libtorrent) (state : BridgeState) (route : StreamRoute) : BridgeState :=
  { vacated lt state route with
    routes := (vacated lt state route).routes.insert route.target route
    lastReadyPieces := (vacated lt state route).lastReadyPieces.erase route.torrentId
    revokedTorrents := (vacated lt state route).revokedTorrents.filter fun id => id ≠ route.torrentId
    activities := Function.update (vacated lt state route).activities route.streamId
      { lastActivity := lt.now }
    anchors :=
      match blockingDemandRange ⟨0, route.fileSize - 1⟩ 0 route.fileOffset route.pieceSize with
      | .ok range =>
          if 0 < route.fileSize then
            (vacated lt state route).anchors.insert route.torrentId ⟨route, range, true⟩
          else (vacated lt state route).anchors
      | .error _ => (vacated lt state route).anchors }

theorem firstRange (route : StreamRoute) (sliced : 0 < route.pieceSize) :
    ∃ range, blockingDemandRange ⟨0, route.fileSize - 1⟩ 0 route.fileOffset route.pieceSize =
      .ok range := by
  unfold blockingDemandRange
  rw [if_neg (by omega), if_neg (by simp only; omega)]
  exact ⟨_, rfl⟩

theorem addRoute_eq (lt : Libtorrent) (sliced : 0 < route.pieceSize) :
    addRoute lt state route =
      if 0 < route.fileSize then recomputeSchedule lt (joined lt state route) route.torrentId
      else joined lt state route := by
  obtain ⟨range, ranged⟩ := firstRange route sliced
  unfold BridgeState.addRoute joined
  simp only [ranged]
  split
  · rfl
  · rfl

theorem Routing.vacated (routing : Routing (fun _ => False) state) (lt : Libtorrent)
    (route : StreamRoute) :
    Routing (fun _ => False) (vacated lt state route) ∧
      ∀ target other, (vacated lt state route).routes.lookup target = some other →
        state.routes.lookup target = some other ∧ other.torrentId ≠ route.torrentId := by
  obtain ⟨stopped, routes⟩ := Routing.stopStreams lt ((state.routes.entries.filter fun entry =>
    entry.2.torrentId = route.torrentId).map fun entry => entry.2.streamId) routing
  refine ⟨stopped, ?_⟩
  intro target other found
  obtain ⟨registered, others⟩ := routes target other found
  obtain ⟨_, named, _⟩ := routing.targets _ _ registered
  refine ⟨registered, fun same => ?_⟩
  exact others other.streamId (List.mem_map.mpr ⟨⟨target, other⟩, List.mem_filter.mpr
    ⟨(AList.lookup_eq_some_iff _ _ _).mp registered, by simpa using same⟩, rfl⟩) named

theorem Routing.joined (routing : Routing (fun _ => False) state) (lt : Libtorrent)
    (target : route.target = "/stream/" ++ route.streamId) (named : route.torrentId ≠ "")
    (fresh : state.routes.lookup route.target = none) (sliced : 0 < route.pieceSize) :
    Routing (fun _ => False) (joined lt state route) := by
  obtain ⟨stopped, routes⟩ := routing.vacated lt route
  have freshStill : (Bridge.vacated lt state route).routes.lookup route.target = none := by
    rw [Option.eq_none_iff_forall_ne_some]
    intro other found
    rw [(routes _ _ found).1] at fresh
    simp at fresh
  obtain ⟨range, ranged⟩ := firstRange route sliced
  refine stopped.registered target named freshStill (fun target other found =>
    (routes target other found).2) rfl rfl rfl ?_ ?_ ?_ ?_
  · intro id member
    exact (List.mem_filter.mp member).1
  · intro id anchor found
    simp only [Bridge.joined, ranged] at found
    split at found
    · rename_i sized
      rw [AList.lookup_insert_ite] at found
      split at found
      · rename_i same
        exact Or.inr ⟨same, by rw [← Option.some.inj found], sized⟩
      · exact Or.inl found
    · exact Or.inl found
  · intro id present
    simp only [Bridge.joined, ranged]
    split
    · rw [AList.lookup_insert_ite]
      split
      · rfl
      · exact present
    · exact present
  · intro sized
    simp only [Bridge.joined, ranged, if_pos sized]
    rw [AList.lookup_insert]
    rfl

theorem Routing.addRoute (routing : Routing (fun _ => False) state) (lt : Libtorrent)
    (target : route.target = "/stream/" ++ route.streamId) (named : route.torrentId ≠ "")
    (fresh : state.routes.lookup route.target = none) (sliced : 0 < route.pieceSize) :
    Routing (fun _ => False) (addRoute lt state route) := by
  have ready := routing.joined lt target named fresh sliced
  rw [addRoute_eq lt sliced]
  split
  · exact ready.recompute_settled lt route.torrentId
  · exact ready

end Register

end NuvioEngine.Bridge
