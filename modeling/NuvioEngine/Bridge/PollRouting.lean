import NuvioEngine.Bridge.Routing

/-!
`poll` and the alert handlers keep routes, demands, anchors and schedules in agreement, for every
batch of commands in which a demand begins with a copy of a registered route.
-/

namespace NuvioEngine.Bridge

open NuvioEngine.Scheduler NuvioEngine.Stream NuvioEngine.Cache BridgeState

/-- Routes, anchors, schedules and revocations stay, and every demand was there with its route. -/
structure KeepsRouting (before after : BridgeState) : Prop where
  routes : after.routes = before.routes
  anchors : after.anchors = before.anchors
  currentSchedules : after.currentSchedules = before.currentSchedules
  revokedTorrents : after.revokedTorrents = before.revokedTorrents
  demands : ∀ demandId demand, after.activeDemands.lookup demandId = some demand →
    ∃ old, before.activeDemands.lookup demandId = some old ∧ old.route = demand.route

namespace KeepsRouting

variable {first second third : BridgeState}

theorem trans (left : KeepsRouting first second) (right : KeepsRouting second third) :
    KeepsRouting first third := by
  refine ⟨right.routes.trans left.routes, right.anchors.trans left.anchors,
    right.currentSchedules.trans left.currentSchedules,
    right.revokedTorrents.trans left.revokedTorrents, ?_⟩
  intro demandId demand found
  obtain ⟨middle, middleFound, middleRoute⟩ := right.demands demandId demand found
  obtain ⟨old, oldFound, oldRoute⟩ := left.demands demandId middle middleFound
  exact ⟨old, oldFound, oldRoute.trans middleRoute⟩

theorem same (routes : second.routes = first.routes) (anchors : second.anchors = first.anchors)
    (schedules : second.currentSchedules = first.currentSchedules)
    (revoked : second.revokedTorrents = first.revokedTorrents)
    (demands : second.activeDemands = first.activeDemands) : KeepsRouting first second :=
  ⟨routes, anchors, schedules, revoked, fun _ demand found => ⟨demand, demands ▸ found, rfl⟩⟩

theorem ofSends (sends : Sends first second) : KeepsRouting first second :=
  same sends.routes sends.anchors sends.currentSchedules sends.revokedTorrents sends.activeDemands

theorem routing {loose : String → Prop} (keeps : KeepsRouting first second)
    (routing : Routing loose first) : Routing loose second := by
  constructor
  · rw [keeps.routes]
    exact routing.targets
  · rw [keeps.routes]
    exact routing.unique
  · intro demandId demand found
    obtain ⟨old, present, route⟩ := keeps.demands demandId demand found
    rw [keeps.routes, keeps.revokedTorrents, ← route]
    exact routing.demands demandId old present
  · rw [keeps.routes, keeps.anchors]
    exact routing.anchors
  · rw [keeps.routes, keeps.anchors]
    exact routing.anchored
  · rw [keeps.currentSchedules]
    intro id schedule tight found
    obtain ⟨target, route, registered, same⟩ := routing.schedules id schedule tight found
    exact ⟨target, route, keeps.routes ▸ registered, same⟩

end KeepsRouting

theorem updateDemand_keeps (state : BridgeState) (demandId : Nat) {demand updated : ActiveDemand}
    (found : state.activeDemands.lookup demandId = some demand) (route : updated.route = demand.route) :
    KeepsRouting state
      { state with activeDemands := state.activeDemands.insert demandId updated } := by
  refine ⟨rfl, rfl, rfl, rfl, ?_⟩
  intro query other present
  rw [AList.lookup_insert_ite] at present
  split at present
  · rename_i same
    obtain rfl := Option.some.inj present
    exact ⟨demand, same ▸ found, route.symm⟩
  · exact ⟨other, present, rfl⟩

theorem setNeedsData_keeps (state : BridgeState) (demandId : Nat) (needsData : Bool) :
    KeepsRouting state (state.setNeedsData demandId needsData) := by
  unfold setNeedsData
  split
  · exact KeepsRouting.ofSends (Sends.refl state)
  · rename_i demand found
    exact updateDemand_keeps state demandId found rfl

theorem requestRead_sends (state : BridgeState) (lt : Libtorrent) (handle : Nat) (key : PieceKey) :
    Sends state (state.requestRead lt handle key) := by
  unfold requestRead
  split
  · exact Sends.refl state
  · split
    · rename_i sent accepted
      exact (attempt_sends accepted).trans rfl
    · exact failPiece_sends state key _

theorem publishWritten_sends (state : BridgeState) (lt : Libtorrent) (handle : Nat)
    (metadata : TorrentInfo) (key : PieceKey) (waiter : Nat) :
    Sends state (state.publishWritten lt handle metadata key waiter) := by
  unfold publishWritten
  split
  · exact publishBlocks_sends state _ waiter
  · rfl

theorem awaitPiece_keeps (state : BridgeState) (lt : Libtorrent) (metadata : TorrentInfo)
    (command : HttpCommand) (waiter : Nat) :
    KeepsRouting state (state.awaitPiece lt metadata command waiter) := by
  unfold awaitPiece
  simp only
  have held : KeepsRouting state
      (state.holdWaiter ⟨command.route.torrentId, command.piece⟩ waiter) :=
    KeepsRouting.same rfl rfl rfl rfl rfl
  split
  · exact (held.trans (setNeedsData_keeps _ _ _)).trans
      (KeepsRouting.ofSends (requestRead_sends _ _ _ _))
  · exact (held.trans (setNeedsData_keeps _ _ _)).trans
      (KeepsRouting.ofSends (publishWritten_sends _ _ _ _ _ _))

theorem processPieceRequest_keeps (state : BridgeState) (lt : Libtorrent) (command : HttpCommand) :
    KeepsRouting state (state.processPieceRequest lt command).1 := by
  have completed : ∀ error waiter, KeepsRouting state (state.completeWaiter none error waiter) :=
    fun error waiter => KeepsRouting.ofSends (completeWaiter_sends state none error waiter)
  unfold processPieceRequest
  split
  · exact KeepsRouting.ofSends (Sends.refl state)
  · split
    · exact completed _ _
    · split
      · exact KeepsRouting.ofSends (Sends.refl state)
      · exact completed _ _
      · split
        · exact completed _ _
        · split
          · refine (KeepsRouting.trans ?_ (setNeedsData_keeps _ command.demandId false)).trans
              (KeepsRouting.ofSends (completeWaiter_sends _ _ _ _))
            exact KeepsRouting.same rfl rfl rfl rfl rfl
          · refine KeepsRouting.trans ?_ (awaitPiece_keeps _ lt _ command _)
            exact KeepsRouting.same rfl rfl rfl rfl rfl

/-- A begin command is for a file with bytes and carries the route registered under its target,
if there still is one. -/
def Issued (state : BridgeState) (command : HttpCommand) : Prop :=
  command.type = .beginDemand → 0 < command.demandId ∧ 0 < command.route.fileSize ∧
    ∀ route, state.routes.lookup command.route.target = some route → route = command.route

theorem beginDemand_routing {state : BridgeState} {loose : String → Prop}
    (routing : Routing loose state) (lt : Libtorrent) {command : HttpCommand}
    (positive : 0 < command.demandId) (sized : 0 < command.route.fileSize)
    (copied : ∀ route, state.routes.lookup command.route.target = some route → route = command.route) :
    Routing loose (state.beginDemand lt command).1 := by
  unfold beginDemand
  split
  · rename_i accepted
    obtain ⟨trusted, active⟩ := accepted
    have registered : state.routes.lookup command.route.target = some command.route := by
      unfold routeIsActive at active
      split at active
      · simp at active
      · rename_i route found
        rw [found, copied route found]
    refine ⟨routing.targets, routing.unique, ?_, routing.anchors, routing.anchored, routing.schedules⟩
    intro demandId demand found
    rw [AList.lookup_insert_ite] at found
    split at found
    · rename_i same
      obtain rfl := Option.some.inj found
      exact ⟨same ▸ positive, sized, trusted, registered⟩
    · exact routing.demands demandId demand found
  · have stops := cancelDemandState_stops state command.demandState
    exact (KeepsRouting.same stops.routes stops.anchors stops.currentSchedules stops.revokedTorrents
      (cancelDemandState_activeDemands state command.demandState)).routing routing

theorem endDemand_keeps (state : BridgeState) (command : HttpCommand) :
    KeepsRouting state (state.endDemand command).1 := by
  unfold endDemand
  split
  · exact KeepsRouting.ofSends (Sends.refl state)
  · refine ⟨rfl, rfl, rfl, rfl, ?_⟩
    intro demandId demand found
    rw [AList.lookup_erase_ite] at found
    split at found
    · simp at found
    · exact ⟨demand, found, rfl⟩

theorem readerOf_eq_some {state : BridgeState} {demandId : Nat} {demand : ActiveDemand}
    (found : state.readerOf demandId = some demand) :
    state.activeDemands.lookup demandId = some demand := by
  unfold readerOf at found
  exact (Option.filter_eq_some_iff.mp found).1

theorem readPiece_keeps (state : BridgeState) (lt : Libtorrent) (command : HttpCommand) :
    KeepsRouting state (state.readPiece lt command).1 := by
  unfold readPiece
  split
  · split
    · exact KeepsRouting.ofSends (Sends.refl state)
    · exact KeepsRouting.ofSends (completeWaiter_sends state _ _ _)
  · rename_i demand found
    have moved : KeepsRouting state (state.moveDemand command.demandId demand command.range) :=
      updateDemand_keeps state command.demandId (readerOf_eq_some found) rfl
    exact moved.trans (processPieceRequest_keeps _ lt command)

theorem processCommand_routing {state : BridgeState} {loose : String → Prop}
    (routing : Routing loose state) (lt : Libtorrent) {command : HttpCommand}
    (issued : Issued state command) :
    Routing loose (state.processCommand lt command).1 ∧
      (state.processCommand lt command).1.routes = state.routes := by
  unfold processCommand
  cases kind : command.type with
  | beginDemand =>
      obtain ⟨positive, sized, copied⟩ := issued kind
      refine ⟨beginDemand_routing routing lt positive sized copied, ?_⟩
      unfold beginDemand
      simp only
      split
      · rfl
      · exact (cancelDemandState_stops state command.demandState).routes
  | endDemand =>
      have keeps := endDemand_keeps state command
      exact ⟨keeps.routing routing, keeps.routes⟩
  | readPiece =>
      have keeps := readPiece_keeps state lt command
      exact ⟨keeps.routing routing, keeps.routes⟩

theorem processCommands_routing (answers : Nat → Libtorrent) (commands : List HttpCommand)
    {state : BridgeState} {loose : String → Prop} (routing : Routing loose state)
    (issued : ∀ command ∈ commands, Issued state command) (position : Nat) (changed : List String) :
    Routing loose (processCommands answers position commands state changed).1 ∧
      (processCommands answers position commands state changed).1.routes = state.routes := by
  induction commands generalizing state position changed with
  | nil => exact ⟨routing, rfl⟩
  | cons command rest ih =>
      obtain ⟨after, routes⟩ :=
        processCommand_routing routing (answers position) (issued command List.mem_cons_self)
      rw [processCommands]
      split
      · exact ⟨after, routes⟩
      · have later : ∀ other ∈ rest, Issued (state.processCommand (answers position) command).1 other := by
          intro other member
          unfold Issued
          rw [routes]
          exact issued other (List.mem_cons_of_mem _ member)
        obtain ⟨final, finalRoutes⟩ := ih after later (position + 1) _
        exact ⟨final, finalRoutes.trans routes⟩

theorem recomputeAll_routing (answers : String → Libtorrent) (changed : List String)
    {state : BridgeState} (routing : Routing (fun _ => False) state) :
    Routing (fun _ => False)
      (changed.foldl (fun current id => recomputeSchedule (answers id) current id) state) := by
  induction changed generalizing state with
  | nil => exact routing
  | cons id rest ih => exact ih (routing.recompute_settled (answers id) id)

theorem reissueRead_sends (lt : Libtorrent) (state : BridgeState) (key : PieceKey) :
    Sends state (reissueRead lt state key) := by
  unfold reissueRead
  split
  · exact Sends.refl state
  · split
    · exact Sends.refl state
    · split
      · split
        · rename_i sent accepted
          exact (attempt_sends accepted).trans rfl
        · exact Sends.refl state
      · exact Sends.refl state

theorem reissueStalledReads_routing {state : BridgeState} {loose : String → Prop}
    (routing : Routing loose state) (lt : Libtorrent) :
    Routing loose (state.reissueStalledReads lt) := by
  unfold reissueStalledReads
  split
  · exact routing
  · refine Routing.sends ?_ (Sends.foldl (fun current key => reissueRead_sends lt current key) _ _)
    exact routing.congr rfl rfl rfl rfl rfl

section Expire

variable {state : BridgeState}

/-- The streams in `pending` have lost their routes; their torrents stay loose until their anchors
are gone and their schedules recomputed. -/
structure Expiring (pending : List StoppedStream) (state : BridgeState) : Prop where
  routing : Routing (fun id => ∃ stream ∈ pending, stream.torrentId = id) state
  streamless : ∀ stream ∈ pending, ∀ target route, state.routes.lookup target = some route →
    route.torrentId ≠ stream.torrentId ∧ route.streamId ≠ stream.streamId
  owned : ∀ stream ∈ pending, ∀ anchor, state.anchors.lookup stream.torrentId = some anchor →
    anchor.route.streamId = stream.streamId

theorem eraseAnchor_lookup (streamId id : String) (anchor : StreamAnchor) :
    (state.eraseAnchor streamId).anchors.lookup id = some anchor ↔
      state.anchors.lookup id = some anchor ∧ anchor.route.streamId ≠ streamId := by
  simp [eraseAnchor, AList.lookup_eraseIf]

theorem Expiring.eraseAnchor {stream : StoppedStream} {pending : List StoppedStream}
    (expiring : Expiring (stream :: pending) state) :
    Expiring (stream :: pending) (state.eraseAnchor stream.streamId) ∧
      (state.eraseAnchor stream.streamId).anchors.lookup stream.torrentId = none := by
  have routing := expiring.routing
  refine ⟨⟨⟨routing.targets, routing.unique, routing.demands, ?_, ?_, routing.schedules⟩,
    expiring.streamless, ?_⟩, ?_⟩
  · intro id anchor tight found
    exact routing.anchors id anchor tight ((eraseAnchor_lookup _ _ _).mp found).1
  · intro target route registered sized
    obtain ⟨anchor, found⟩ := Option.isSome_iff_exists.mp
      (routing.anchored target route registered sized)
    refine Option.isSome_iff_exists.mpr ⟨anchor, (eraseAnchor_lookup _ _ _).mpr ⟨found, ?_⟩⟩
    -- a registered stream's anchor is not the expired stream's
    have tight : ¬ ∃ other ∈ stream :: pending, other.torrentId = route.torrentId := by
      rintro ⟨other, member, same⟩
      exact (expiring.streamless other member target route registered).1 same.symm
    obtain ⟨_, _, anchorRegistered⟩ := routing.anchors _ anchor tight found
    exact (expiring.streamless stream List.mem_cons_self _ _ anchorRegistered).2
  · intro other member anchor found
    exact expiring.owned other member anchor ((eraseAnchor_lookup _ _ _).mp found).1
  · rw [Option.eq_none_iff_forall_ne_some]
    intro anchor found
    obtain ⟨held, different⟩ := (eraseAnchor_lookup _ _ _).mp found
    exact different (expiring.owned stream List.mem_cons_self anchor held)

theorem Expiring.recompute {stream : StoppedStream} {pending : List StoppedStream}
    (expiring : Expiring (stream :: pending) state)
    (unanchored : state.anchors.lookup stream.torrentId = none) (lt : Libtorrent) :
    Expiring pending (recomputeSchedule lt state stream.torrentId) := by
  have computes := recomputeSchedule_recomputes lt state stream.torrentId
  have later : ∀ other ∈ pending, other ∈ stream :: pending :=
    fun other member => List.mem_cons_of_mem _ member
  refine ⟨(expiring.routing.recompute lt stream.torrentId fun _ => ⟨unanchored, fun target route found =>
    (expiring.streamless stream List.mem_cons_self target route found).1⟩).tighten ?_, ?_, ?_⟩
  · rintro id ⟨⟨other, member, same⟩, different⟩
    rcases List.mem_cons.mp member with rfl | rest
    · exact absurd same.symm different
    · exact ⟨other, rest, same⟩
  · rw [computes.routes]
    exact fun other member => expiring.streamless other (later other member)
  · intro other member anchor found
    have positive : ∀ demandId demand, state.activeDemands.lookup demandId = some demand →
        0 < demandId := fun demandId demand active => (expiring.routing.demands demandId demand active).1
    rcases recomputeSchedule_anchors lt state stream.torrentId positive with same |
      ⟨demandId, demand, active, torrent, _⟩
    · exact expiring.owned other (later other member) anchor (same ▸ found)
    · have registered := (expiring.routing.demands demandId demand active).2.2.2
      exact absurd torrent (expiring.streamless stream List.mem_cons_self _ _ registered).1

theorem expireStreams_routing (answers : String → Libtorrent) (pending : List StoppedStream)
    {state : BridgeState} (expiring : Expiring pending state) :
    Routing (fun _ => False) (pending.foldl (expireStream answers) state) := by
  induction pending generalizing state with
  | nil => exact expiring.routing.tighten fun _ ⟨_, impossible, _⟩ => by simp at impossible
  | cons stream rest ih =>
      obtain ⟨erased, unanchored⟩ := expiring.eraseAnchor
      have computed := erased.recompute unanchored (answers stream.torrentId)
      refine ih ⟨computed.routing.congr rfl rfl rfl rfl rfl, computed.streamless, computed.owned⟩

/-- The streams that expire and the state in which their cleanup starts. -/
def expiredStreamsOf (state : BridgeState) (now : Nat) : List StoppedStream :=
  (state.routes.entries.filter fun entry => state.isExpired now entry.2).map
    fun entry => ⟨entry.2.torrentId, entry.2.streamId⟩

theorem mem_expiredStreamsOf {now : Nat} {stream : StoppedStream} :
    stream ∈ expiredStreamsOf state now ↔ ∃ target route, state.routes.lookup target = some route ∧
      state.isExpired now route = true ∧ stream = ⟨route.torrentId, route.streamId⟩ := by
  simp only [expiredStreamsOf, List.mem_map, List.mem_filter, AList.lookup_eq_some_iff]
  constructor
  · rintro ⟨⟨target, route⟩, ⟨registered, idle⟩, same⟩
    exact ⟨target, route, registered, idle, same.symm⟩
  · rintro ⟨target, route, registered, idle, same⟩
    exact ⟨⟨target, route⟩, ⟨registered, idle⟩, same.symm⟩

theorem Routing.expiring (routing : Routing (fun _ => False) state) (now nextCheck : Nat) :
    Expiring (expiredStreamsOf state now) { state with
      nextInactivityCheck := nextCheck
      routes := state.routes.eraseIf fun _ route => state.isExpired now route } := by
  have anchorsOf := fun id anchor => routing.anchors id anchor fun impossible => impossible
  have kept : ∀ target route, state.routes.lookup target = some route →
      (¬ ∃ stream ∈ expiredStreamsOf state now, stream.torrentId = route.torrentId) →
      (state.routes.eraseIf fun _ route => state.isExpired now route).lookup target = some route := by
    intro target route registered tight
    rw [AList.lookup_eraseIf]
    refine ⟨registered, Bool.not_eq_true _ ▸ fun idle => tight ?_⟩
    exact ⟨_, mem_expiredStreamsOf.mpr ⟨target, route, registered, idle, rfl⟩, rfl⟩
  refine ⟨⟨?_, ?_, ?_, ?_, ?_, ?_⟩, ?_, ?_⟩
  · intro target route found
    exact routing.targets target route ((AList.lookup_eraseIf _ _ _ _).mp found).1
  · intro left right leftRoute rightRoute leftFound rightFound
    exact routing.unique left right leftRoute rightRoute
      ((AList.lookup_eraseIf _ _ _ _).mp leftFound).1 ((AList.lookup_eraseIf _ _ _ _).mp rightFound).1
  · intro demandId demand found
    obtain ⟨positive, sized, trusted, registered⟩ := routing.demands demandId demand found
    refine ⟨positive, sized, trusted, (AList.lookup_eraseIf _ _ _ _).mpr ⟨registered, ?_⟩⟩
    have used : (state.activeDemands.entries.any fun entry =>
        entry.2.route.streamId = demand.route.streamId) = true :=
      List.any_eq_true.mpr ⟨⟨demandId, demand⟩, (AList.lookup_eq_some_iff _ _ _).mp found, by simp⟩
    simp [isExpired, used]
  · intro id anchor tight found
    obtain ⟨torrent, sized, registered⟩ := anchorsOf id anchor found
    exact ⟨torrent, sized, kept _ _ registered (torrent ▸ tight)⟩
  · intro target route found sized
    exact routing.anchored target route ((AList.lookup_eraseIf _ _ _ _).mp found).1 sized
  · intro id schedule tight found
    obtain ⟨target, route, registered, torrent, handle⟩ :=
      routing.schedules id schedule (fun impossible => impossible) found
    exact ⟨target, route, kept _ _ registered (torrent ▸ tight), torrent, handle⟩
  · intro stream member target route found
    obtain ⟨expiredTarget, expired, registered, idle, rfl⟩ := mem_expiredStreamsOf.mp member
    obtain ⟨present, active⟩ := (AList.lookup_eraseIf _ _ _ _).mp found
    have different : target ≠ expiredTarget := by
      rintro rfl
      obtain rfl := Option.some.inj (present.symm.trans registered)
      simp [idle] at active
    refine ⟨fun same => different (routing.unique _ _ _ _ present registered same), ?_⟩
    intro same
    refine different ?_
    rw [(routing.targets _ _ present).2.1, (routing.targets _ _ registered).2.1, same]
  · intro stream member anchor found
    obtain ⟨expiredTarget, expired, registered, idle, rfl⟩ := mem_expiredStreamsOf.mp member
    obtain ⟨torrent, _, anchorRegistered⟩ := anchorsOf _ anchor found
    have same := routing.unique _ _ _ _ anchorRegistered registered torrent
    rw [same, registered] at anchorRegistered
    rw [Option.some.inj anchorRegistered]

theorem expireInactiveStreams_routing (routing : Routing (fun _ => False) state) (now : Nat)
    (answers : String → Libtorrent) :
    Routing (fun _ => False) (state.expireInactiveStreams now answers) := by
  unfold expireInactiveStreams
  split
  · exact routing
  · exact expireStreams_routing answers _ (routing.expiring now _)

end Expire

/-- The state in which `poll` looks for inactive streams. -/
def polled (state : BridgeState) (answers : PollAnswers) : BridgeState :=
  let processed := processCommands answers.command 0 state.commands { state with commands := [] } []
  (processed.2.1.foldl (fun current id => recomputeSchedule (answers.recompute id) current id)
    processed.1.pruneCancelledWaiters).reissueStalledReads answers.watchdog

theorem poll_eq {state : BridgeState} {answers : PollAnswers} (quiet : (state.poll answers).2 = false) :
    (state.poll answers).1 =
      (polled state answers).expireInactiveStreams answers.expiry answers.expired := by
  unfold poll at quiet ⊢
  simp only at quiet ⊢
  split
  · rename_i threw
    simp [threw] at quiet
  · rfl

theorem polled_routing {state : BridgeState} (routing : Routing (fun _ => False) state)
    (issued : ∀ command ∈ state.commands, Issued state command) (answers : PollAnswers) :
    Routing (fun _ => False) (polled state answers) := by
  have emptied : Routing (fun _ => False) { state with commands := [] } :=
    routing.congr rfl rfl rfl rfl rfl
  have processed := (processCommands_routing answers.command state.commands emptied issued 0 []).1
  apply reissueStalledReads_routing
  apply recomputeAll_routing
  exact processed.sends (dropWaiters_sends _ _)

theorem poll_routing {state : BridgeState} (routing : Routing (fun _ => False) state)
    (issued : ∀ command ∈ state.commands, Issued state command) (answers : PollAnswers)
    (quiet : (state.poll answers).2 = false) :
    Routing (fun _ => False) (state.poll answers).1 := by
  rw [poll_eq quiet]
  exact expireInactiveStreams_routing (polled_routing routing issued answers) _ _

theorem deliverPiece_keeps (state : BridgeState) (key : PieceKey) (buffer : List UInt8) :
    KeepsRouting state (state.deliverPiece key buffer) := by
  unfold deliverPiece
  simp only
  split
  · exact KeepsRouting.same rfl rfl rfl rfl rfl
  · rename_i waiters found
    refine KeepsRouting.trans ?_ (KeepsRouting.ofSends
      ((completeWaiters_sends _ (some buffer) "" waiters).trans rfl))
    exact KeepsRouting.same rfl rfl rfl rfl rfl

theorem handleReadPiece_keeps (state : BridgeState) (alert : ReadPieceAlert) :
    KeepsRouting state (state.handleReadPiece alert) := by
  have cleared : ∀ key, KeepsRouting state (state.forgetRead key) :=
    fun key => KeepsRouting.same rfl rfl rfl rfl rfl
  have failed : ∀ key error, KeepsRouting state ((state.forgetRead key).failPiece key error) :=
    fun key error => (cleared key).trans (KeepsRouting.ofSends (failPiece_sends _ key error))
  unfold handleReadPiece
  simp only
  split
  · exact failed _ _
  · exact failed _ _
  · split
    · exact failed _ _
    · exact (cleared _).trans (deliverPiece_keeps _ _ _)

theorem handleBlockFinished_routing {state : BridgeState} (routing : Routing (fun _ => False) state)
    (lt : Libtorrent) (torrentId : String) (piece block : Nat) :
    Routing (fun _ => False) (handleBlockFinished lt state torrentId piece block) := by
  have published : ∀ key blocks,
      Routing (fun _ => False) ((state.setBlocks key blocks).publishPartial key) :=
    fun key blocks => Routing.sends (routing.congr rfl rfl rfl rfl rfl) (publishPartial_sends _ key)
  unfold handleBlockFinished
  simp only
  split
  · exact routing
  · split
    · exact routing
    · split
      · exact published _ _
      · exact (published _ _).recompute_settled lt torrentId

theorem handleHashFailed_keeps (state : BridgeState) (torrentId : String) (piece : Nat) :
    KeepsRouting state (state.handleHashFailed torrentId piece) := by
  unfold handleHashFailed
  simp only
  split
  · exact KeepsRouting.ofSends (Sends.refl state)
  · refine KeepsRouting.trans ?_ (KeepsRouting.ofSends (publishPartial_sends _ _))
    exact KeepsRouting.same rfl rfl rfl rfl rfl

end NuvioEngine.Bridge
