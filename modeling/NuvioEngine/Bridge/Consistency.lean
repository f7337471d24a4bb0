import NuvioEngine.Bridge.Waiting

/-!
The representation invariant of the stream bridge, in every state that any sequence of
registrations, stops, removals, polls and alerts reaches.
-/

namespace NuvioEngine.Bridge

open NuvioEngine.Scheduler NuvioEngine.Stream NuvioEngine.Cache BridgeState

/-- Routes, the queue, the activities of streams and the expired streams stay as they are. -/
def Leaves (before after : BridgeState) : Prop :=
  after = { before with
    activeDemands := after.activeDemands
    anchors := after.anchors
    currentSchedules := after.currentSchedules
    lastReadyPieces := after.lastReadyPieces
    pieceWaiters := after.pieceWaiters
    requestedReads := after.requestedReads
    nextReadWatchdog := after.nextReadWatchdog
    partialBlocks := after.partialBlocks
    pieceCache := after.pieceCache
    waiters := after.waiters
    demandCancelled := after.demandCancelled
    calls := after.calls }

namespace Leaves

variable {first second third : BridgeState}

theorem trans (left : Leaves first second) (right : Leaves second third) : Leaves first third := by
  unfold Leaves at *
  rw [right, left]

theorem ofSends (sends : Sends first second) : Leaves first second := by
  unfold Leaves
  unfold Sends at sends
  rw [sends]

theorem ofRecomputes (computes : Recomputes first second) : Leaves first second := by
  unfold Leaves
  unfold Recomputes at computes
  rw [computes]

theorem ofStops (stops : Stops first second) : Leaves first second := by
  unfold Leaves
  unfold Stops at stops
  rw [stops]

theorem routes (leaves : Leaves first second) : second.routes = first.routes :=
  (congrArg BridgeState.routes leaves).trans rfl

theorem expiredStreams (leaves : Leaves first second) : second.expiredStreams = first.expiredStreams :=
  (congrArg BridgeState.expiredStreams leaves).trans rfl

theorem foldl {α : Type} {step : BridgeState → α → BridgeState}
    (each : ∀ state item, Leaves state (step state item)) (items : List α) (state : BridgeState) :
    Leaves state (items.foldl step state) := by
  induction items generalizing state with
  | nil => rfl
  | cons item rest ih => exact (each state item).trans (ih (step state item))

end Leaves

theorem recomputeSchedule_leaves (lt : Libtorrent) (state : BridgeState) (id : String) :
    Leaves state (recomputeSchedule lt state id) :=
  Leaves.ofRecomputes (recomputeSchedule_recomputes lt state id)

theorem setNeedsData_leaves (state : BridgeState) (demandId : Nat) (needsData : Bool) :
    Leaves state (state.setNeedsData demandId needsData) := by
  unfold setNeedsData
  split <;> rfl

theorem awaitPiece_leaves (state : BridgeState) (lt : Libtorrent) (metadata : TorrentInfo)
    (command : HttpCommand) (waiter : Nat) :
    Leaves state (state.awaitPiece lt metadata command waiter) := by
  unfold awaitPiece
  simp only
  have held : Leaves state (state.holdWaiter ⟨command.route.torrentId, command.piece⟩ waiter) := rfl
  split
  · exact (held.trans (setNeedsData_leaves _ _ _)).trans (Leaves.ofSends (requestRead_sends _ _ _ _))
  · exact (held.trans (setNeedsData_leaves _ _ _)).trans
      (Leaves.ofSends (publishWritten_sends _ _ _ _ _ _))

theorem processPieceRequest_leaves (state : BridgeState) (lt : Libtorrent) (command : HttpCommand) :
    Leaves state (state.processPieceRequest lt command).1 := by
  have completed : ∀ error waiter, Leaves state (state.completeWaiter none error waiter) :=
    fun error waiter => Leaves.ofSends (completeWaiter_sends state none error waiter)
  unfold processPieceRequest
  split
  · rfl
  · split
    · exact completed _ _
    · split
      · rfl
      · exact completed _ _
      · split
        · exact completed _ _
        · split
          · refine (Leaves.trans ?_ (setNeedsData_leaves _ command.demandId false)).trans
              (Leaves.ofSends (completeWaiter_sends _ _ _ _))
            rfl
          · refine Leaves.trans ?_ (awaitPiece_leaves _ lt _ command _)
            rfl

theorem processCommand_leaves (state : BridgeState) (lt : Libtorrent) (command : HttpCommand) :
    Leaves state (state.processCommand lt command).1 := by
  unfold processCommand
  split
  · simp only [beginDemand]
    split
    · rfl
    · exact Leaves.ofStops (cancelDemandState_stops _ _)
  · simp only [endDemand]
    split <;> rfl
  · unfold BridgeState.readPiece
    split
    · split
      · rfl
      · exact Leaves.ofSends (completeWaiter_sends state _ _ _)
    · rename_i demand found
      refine Leaves.trans ?_ (processPieceRequest_leaves _ lt command)
      rfl

theorem processCommands_leaves (answers : Nat → Libtorrent) (commands : List HttpCommand)
    (state : BridgeState) (position : Nat) (changed : List String) :
    Leaves state (processCommands answers position commands state changed).1 := by
  induction commands generalizing state position changed with
  | nil => rfl
  | cons command rest ih =>
      have here := processCommand_leaves state (answers position) command
      rw [processCommands]
      split
      · exact here
      · exact here.trans (ih _ _ _)

theorem reissueStalledReads_leaves (state : BridgeState) (lt : Libtorrent) :
    Leaves state (state.reissueStalledReads lt) := by
  unfold reissueStalledReads
  split
  · rfl
  · refine Leaves.trans ?_
      (Leaves.ofSends (Sends.foldl (fun current key => reissueRead_sends lt current key) _ _))
    rfl

theorem handleReadPiece_leaves (state : BridgeState) (alert : ReadPieceAlert) :
    Leaves state (state.handleReadPiece alert) := by
  have failed : ∀ key error, Leaves state ((state.forgetRead key).failPiece key error) := by
    intro key error
    have forgotten : Leaves state (state.forgetRead key) := rfl
    exact forgotten.trans (Leaves.ofSends (failPiece_sends _ key error))
  unfold handleReadPiece
  simp only
  split
  · exact failed _ _
  · exact failed _ _
  · split
    · exact failed _ _
    · rename_i buffer _ _ _
      have kept : ∀ key, Leaves state ((state.forgetRead key).keepPiece key buffer) := fun key => rfl
      unfold deliverPiece
      simp only
      split
      · exact kept _
      · exact (kept _).trans (Leaves.ofSends ((completeWaiters_sends _ (some buffer) "" _).trans rfl))

theorem setBlocks_leaves (state : BridgeState) (key : PieceKey) (blocks : List Bool) :
    Leaves state ((state.setBlocks key blocks).publishPartial key) := by
  have stored : Leaves state (state.setBlocks key blocks) := rfl
  exact stored.trans (Leaves.ofSends (publishPartial_sends (state.setBlocks key blocks) key))

theorem handleBlockFinished_leaves (lt : Libtorrent) (state : BridgeState) (torrentId : String)
    (piece block : Nat) : Leaves state (handleBlockFinished lt state torrentId piece block) := by
  unfold handleBlockFinished
  simp only
  split
  · rfl
  · split
    · rfl
    · split
      · exact setBlocks_leaves state _ _
      · exact (setBlocks_leaves state _ _).trans (recomputeSchedule_leaves lt _ torrentId)

theorem handleHashFailed_leaves (state : BridgeState) (torrentId : String) (piece : Nat) :
    Leaves state (state.handleHashFailed torrentId piece) := by
  unfold handleHashFailed
  simp only
  split
  · rfl
  · exact setBlocks_leaves state _ _

/-- The worker adds no route, and leaves the queue, the demand counter and the window alone. -/
structure Works (before after : BridgeState) : Prop where
  routes : ∀ target route, after.routes.lookup target = some route →
    before.routes.lookup target = some route
  commands : after.commands = before.commands
  nextDemandId : after.nextDemandId = before.nextDemandId
  window : after.window = before.window

namespace Works

variable {first second third : BridgeState}

theorem refl (state : BridgeState) : Works state state := ⟨fun _ _ found => found, rfl, rfl, rfl⟩

theorem trans (left : Works first second) (right : Works second third) : Works first third :=
  ⟨fun target route found => left.routes target route (right.routes target route found),
    right.commands.trans left.commands, right.nextDemandId.trans left.nextDemandId,
    right.window.trans left.window⟩

theorem congr (works : Works first second) (routes : third.routes = second.routes)
    (commands : third.commands = second.commands)
    (nextDemandId : third.nextDemandId = second.nextDemandId)
    (window : third.window = second.window) : Works first third :=
  works.trans ⟨fun _ _ found => routes ▸ found, commands, nextDemandId, window⟩

theorem ofLeaves (leaves : Leaves first second) : Works first second :=
  ⟨fun _ _ found => leaves.routes ▸ found, (congrArg BridgeState.commands leaves).trans rfl,
    (congrArg BridgeState.nextDemandId leaves).trans rfl,
    (congrArg BridgeState.window leaves).trans rfl⟩

theorem foldl {α : Type} {step : BridgeState → α → BridgeState}
    (each : ∀ state item, Works state (step state item)) (items : List α) (state : BridgeState) :
    Works state (items.foldl step state) := by
  induction items generalizing state with
  | nil => exact refl state
  | cons item rest ih => exact (each state item).trans (ih (step state item))

end Works

theorem recomputeSchedule_works (lt : Libtorrent) (state : BridgeState) (id : String) :
    Works state (recomputeSchedule lt state id) :=
  Works.ofLeaves (recomputeSchedule_leaves lt state id)

theorem expireStream_works (answers : String → Libtorrent) (state : BridgeState)
    (stream : StoppedStream) : Works state (expireStream answers state stream) := by
  have unanchored : Works state (state.eraseAnchor stream.streamId) :=
    (Works.refl state).congr rfl rfl rfl rfl
  exact (unanchored.trans (recomputeSchedule_works (answers stream.torrentId) _
    stream.torrentId)).congr rfl rfl rfl rfl

theorem expireInactiveStreams_works (state : BridgeState) (now : Nat) (answers : String → Libtorrent) :
    Works state (state.expireInactiveStreams now answers) := by
  unfold expireInactiveStreams
  split
  · exact Works.refl state
  · refine Works.trans ?_ (Works.foldl (expireStream_works answers) _ _)
    exact ⟨fun _ _ found => ((AList.lookup_eraseIf _ _ _ _).mp found).1, rfl, rfl, rfl⟩

theorem polled_leaves (state : BridgeState) (answers : PollAnswers) :
    Leaves { state with commands := [] } (polled state answers) := by
  have processed := processCommands_leaves answers.command state.commands
    { state with commands := [] } 0 []
  refine ((processed.trans (Leaves.ofSends (pruneCancelledWaiters_sends _))).trans ?_).trans
    (reissueStalledReads_leaves _ _)
  exact Leaves.foldl (fun current id => recomputeSchedule_leaves _ current id) _ _

theorem poll_works (state : BridgeState) (answers : PollAnswers) :
    Works { state with commands := [] } (state.poll answers).1 := by
  unfold poll
  simp only
  split
  · exact Works.ofLeaves (processCommands_leaves _ _ _ _ _)
  · exact (Works.ofLeaves (polled_leaves state answers)).trans (expireInactiveStreams_works _ _ _)

theorem stopped_works (state : BridgeState) (streamId : String) :
    Works state (stopped state streamId) := by
  refine Works.trans ?_ (Works.ofLeaves (Leaves.ofStops (stopped_stops state streamId)))
  refine ⟨fun target route found => ?_, rfl, rfl, rfl⟩
  simp only [AList.lookup_erase_ite] at found
  split at found
  · simp at found
  · exact found

theorem stopStream_works (lt : Libtorrent) (state : BridgeState) (streamId : String) :
    Works state (stopStream lt state streamId).1 := by
  have stops := stopped_works state streamId
  unfold stopStream
  simp only
  split
  · exact stops
  · exact stops.trans (recomputeSchedule_works _ _ _)

theorem removed_works (state : BridgeState) (id : String) : Works state (removed state id) := by
  have cancels := removed_cancels state id
  refine ⟨fun target route found => ((lookup_removed_routes id target route).mp found).1, ?_, ?_, ?_⟩
  · exact (congrArg BridgeState.commands cancels).trans rfl
  · exact (congrArg BridgeState.nextDemandId cancels).trans rfl
  · exact (congrArg BridgeState.window cancels).trans rfl

theorem removeTorrent_works (lt : Libtorrent) (state : BridgeState) (id : String) :
    Works state (removeTorrent lt state id) :=
  ((removed_works state id).trans (recomputeSchedule_works lt _ id)).trans
    (Works.ofLeaves (Leaves.ofSends (removeTorrent_sends id lt)))

theorem vacated_works (lt : Libtorrent) (state : BridgeState) (route : StreamRoute) :
    Works state (vacated lt state route) :=
  Works.foldl (fun current streamId => stopStream_works lt current streamId) _ _

theorem addRoute_works (lt : Libtorrent) (state : BridgeState) {route : StreamRoute}
    (sliced : 0 < route.pieceSize) :
    Works { vacated lt state route with
      routes := (vacated lt state route).routes.insert route.target route }
        (addRoute lt state route) := by
  have joins : Works { vacated lt state route with
      routes := (vacated lt state route).routes.insert route.target route } (joined lt state route) :=
    (Works.refl _).congr rfl rfl rfl rfl
  rw [addRoute_eq lt sliced]
  split
  · exact joins.trans (recomputeSchedule_works lt _ route.torrentId)
  · exact joins

theorem routeFor_eq_ok {lt : Libtorrent} {state : BridgeState} {token : String} {handle : Nat}
    {id : String} {fileIndex : Nat} {file : TorrentFileInfo} {route : StreamRoute}
    (made : routeFor lt state token handle id fileIndex file = .ok route) :
    ∃ metadata savePath, 0 < metadata.pieceLength ∧
      lt.torrentFile handle = .ok (some metadata) ∧
      route = newRoute token handle id fileIndex file metadata savePath := by
  unfold routeFor at made
  split at made
  · simp at made
  · split at made
    · rename_i metadata found
      split at made
      · simp at made
      · rename_i sliced
        split at made
        · simp at made
        · rename_i savePath _
          simp only [Except.ok.injEq] at made
          exact ⟨metadata, savePath, Nat.pos_of_ne_zero sliced, found, made.symm⟩
    · simp at made
    · simp at made

/-- A begin command is for a file with bytes and carries a route that was registered. -/
def Queued (system : System) (command : HttpCommand) : Prop :=
  command.type = .beginDemand →
    0 < command.demandId ∧ 0 < command.route.fileSize ∧ command.route ∈ system.registered

/-- The invariant behind the representation invariant: the maps agree, no two routes were ever
registered for one stream, and the queued begin commands can be trusted. -/
structure Consistent (system : System) : Prop where
  routing : Routing (fun _ => False) system.bridge
  waiting : Waiting (fun _ => False) system.bridge
  known : ∀ target route, system.bridge.routes.lookup target = some route →
    route ∈ system.registered
  targets : ∀ route ∈ system.registered, route.target = "/stream/" ++ route.streamId
  once : ∀ left ∈ system.registered, ∀ right ∈ system.registered,
    left.streamId = right.streamId → left = right
  queued : ∀ command ∈ system.bridge.commands, Queued system command
  numbered : 0 < system.bridge.nextDemandId

namespace Consistent

variable {system : System}

theorem initial (begins : system.Initial) : Consistent system := by
  obtain ⟨memoryCapacityBytes, diskCapacityBytes, inactivity, rfl⟩ := begins
  refine ⟨⟨?_, ?_, ?_, ?_, ?_, ?_⟩, ⟨?_, ?_⟩, ?_, by simp, by simp, ?_, Nat.one_pos⟩
  · intro target route found
    simp [BridgeState.create] at found
  · intro first second left right found
    simp [BridgeState.create] at found
  · intro demandId demand found
    simp [BridgeState.create] at found
  · intro id anchor _ found
    simp [BridgeState.create] at found
  · intro target route found
    simp [BridgeState.create] at found
  · intro id schedule _ found
    simp [BridgeState.create] at found
  · intro key blocks found
    simp [BridgeState.create] at found
  · intro key waiters found
    simp [BridgeState.create] at found
  · intro target route found
    simp [BridgeState.create] at found
  · intro command member
    simp [BridgeState.create] at member

theorem registered_eq (consistent : Consistent system) {route other : StreamRoute}
    (known : route ∈ system.registered)
    (found : system.bridge.routes.lookup route.target = some other) : other = route := by
  obtain ⟨_, target, _⟩ := consistent.routing.targets _ _ found
  rw [consistent.targets route known, String.append_right_inj] at target
  exact consistent.once other (consistent.known _ _ found) route known target.symm

theorem issued (consistent : Consistent system) {command : HttpCommand}
    (queued : command ∈ system.bridge.commands) : Issued system.bridge command := by
  intro kind
  obtain ⟨positive, sized, known⟩ := consistent.queued command queued kind
  exact ⟨positive, sized, fun route found => consistent.registered_eq known found⟩

theorem works (consistent : Consistent system) {next : BridgeState}
    (works : Works system.bridge next) (routing : Routing (fun _ => False) next)
    (waiting : Waiting (fun _ => False) next) : Consistent { system with bridge := next } := by
  refine ⟨routing, waiting, ?_, consistent.targets, consistent.once, ?_, ?_⟩
  · intro target route found
    exact consistent.known target route (works.routes target route found)
  · intro command member
    rw [works.commands] at member
    exact consistent.queued command member
  · rw [works.nextDemandId]
    exact consistent.numbered

theorem poll (consistent : Consistent system) (answers : PollAnswers)
    (quiet : (system.bridge.poll answers).2 = false) :
    Consistent { system with bridge := (system.bridge.poll answers).1 } := by
  have emptied : Consistent { system with bridge := { system.bridge with commands := [] } } :=
    ⟨consistent.routing.congr rfl rfl rfl rfl rfl, consistent.waiting.congr rfl rfl,
      consistent.known, consistent.targets, consistent.once, by simp, consistent.numbered⟩
  exact emptied.works (poll_works system.bridge answers)
    (poll_routing consistent.routing (fun _ member => consistent.issued member) answers quiet)
    (consistent.waiting.poll answers)

theorem fresh (consistent : Consistent system) {token : String}
    (unused : token ∉ system.registered.map StreamRoute.streamId) :
    system.bridge.routes.lookup ("/stream/" ++ token) = none := by
  rw [Option.eq_none_iff_forall_ne_some]
  intro route found
  obtain ⟨_, target, _⟩ := consistent.routing.targets _ _ found
  rw [String.append_right_inj] at target
  exact unused (target ▸ List.mem_map.mpr ⟨route, consistent.known _ _ found, rfl⟩)

theorem addRoute (consistent : Consistent system) (lt : Libtorrent) {route : StreamRoute}
    (target : route.target = "/stream/" ++ route.streamId) (named : route.torrentId ≠ "")
    (unused : route.streamId ∉ system.registered.map StreamRoute.streamId)
    (sliced : 0 < route.pieceSize) :
    Consistent ⟨addRoute lt system.bridge route, route :: system.registered⟩ := by
  have stops := vacated_works lt system.bridge route
  have adds := addRoute_works lt system.bridge sliced
  have different : ∀ other ∈ system.registered, other.streamId ≠ route.streamId :=
    fun other known same => unused (List.mem_map.mpr ⟨other, known, same⟩)
  refine ⟨consistent.routing.addRoute lt target named (target ▸ consistent.fresh unused) sliced,
    consistent.waiting.withdraws (addRoute_withdraws lt _ route), ?_, ?_, ?_, ?_, ?_⟩
  · intro query other found
    have inserted := adds.routes query other found
    simp only [AList.lookup_insert_ite] at inserted
    split at inserted
    · rw [← Option.some.inj inserted]
      exact List.mem_cons_self
    · exact List.mem_cons_of_mem _ (consistent.known query other (stops.routes query other inserted))
  · intro other member
    rcases List.mem_cons.mp member with rfl | old
    · exact target
    · exact consistent.targets other old
  · intro left leftMember right rightMember same
    rcases List.mem_cons.mp leftMember with rfl | leftOld
    · rcases List.mem_cons.mp rightMember with rfl | rightOld
      · rfl
      · exact absurd same.symm (different right rightOld)
    · rcases List.mem_cons.mp rightMember with rfl | rightOld
      · exact absurd same (different left leftOld)
      · exact consistent.once left leftOld right rightOld same
  · intro command member kind
    rw [adds.commands, stops.commands] at member
    obtain ⟨positive, sized, known⟩ := consistent.queued command member kind
    exact ⟨positive, sized, List.mem_cons_of_mem _ known⟩
  · rw [adds.nextDemandId, stops.nextDemandId]
    exact consistent.numbered

theorem register (consistent : Consistent system) (lt : Libtorrent) {token : String} (handle : Nat)
    {id : String} (fileIndex : Nat) (file : TorrentFileInfo)
    (unused : token ∉ system.registered.map StreamRoute.streamId) (named : id ≠ "") :
    Consistent (system.perform (.register lt token handle id fileIndex file)) := by
  simp only [System.perform, BridgeState.perform, registerStream]
  cases result : routeFor lt system.bridge token handle id fileIndex file with
  | error thrown => exact consistent
  | ok route =>
      obtain ⟨metadata, savePath, sliced, _, rfl⟩ := routeFor_eq_ok result
      exact consistent.addRoute lt rfl named unused sliced

theorem enqueue (consistent : Consistent system) {command : HttpCommand} {next : BridgeState}
    (accepted : next = { system.bridge with
      nextDemandId := next.nextDemandId
      waiters := next.waiters
      commands := system.bridge.commands ++ [command] })
    (numbered : 0 < next.nextDemandId) (queued : Queued system command) :
    Consistent { system with bridge := next } := by
  rw [accepted]
  refine ⟨consistent.routing.congr rfl rfl rfl rfl rfl, consistent.waiting.congr rfl rfl,
    consistent.known, consistent.targets, consistent.once, ?_, numbered⟩
  intro other member
  rcases List.mem_append.mp member with old | new
  · exact consistent.queued other old
  · rw [List.mem_singleton.mp new]
    exact queued

theorem congr (consistent : Consistent system) {next : BridgeState} (kept : next = { system.bridge with
      nextDemandId := next.nextDemandId
      waiters := next.waiters
      expiredStreams := next.expiredStreams
      activities := next.activities }) (numbered : 0 < next.nextDemandId) :
    Consistent { system with bridge := next } := by
  rw [kept]
  exact ⟨consistent.routing.congr rfl rfl rfl rfl rfl, consistent.waiting.congr rfl rfl,
    consistent.known, consistent.targets, consistent.once, consistent.queued, numbered⟩

theorem beginRequest (consistent : Consistent system) {route : StreamRoute} (bodyRange : ByteRange)
    (known : route ∈ system.registered) (sized : 0 < route.fileSize) :
    Consistent { system with bridge := system.bridge.beginRequest route bodyRange } := by
  have numbered : Consistent { system with bridge :=
      { system.bridge with nextDemandId := system.bridge.nextDemandId + 1 } } :=
    consistent.congr rfl (Nat.succ_pos _)
  unfold BridgeState.beginRequest
  simp only
  split
  · exact numbered
  · unfold BridgeState.enqueue
    split
    · exact numbered
    · split
      · exact numbered
      · exact consistent.enqueue rfl (Nat.succ_pos _) fun _ => ⟨consistent.numbered, sized, known⟩

theorem readRequest (consistent : Consistent system) {command : HttpCommand}
    (kind : command.type = .readPiece) :
    Consistent { system with bridge := system.bridge.readRequest command } := by
  unfold BridgeState.readRequest BridgeState.enqueue
  simp only
  split
  · exact consistent.congr rfl consistent.numbered
  · split
    · exact consistent.congr rfl consistent.numbered
    · refine consistent.enqueue rfl consistent.numbered ?_
      intro begins
      simp [kind] at begins

theorem perform (consistent : Consistent system) {action : Action} (possible : system.Possible action) :
    Consistent (system.perform action) := by
  have routing := consistent.routing
  have waiting := consistent.waiting
  cases action with
  | register lt token handle id fileIndex file =>
      exact consistent.register lt handle fileIndex file possible.1 possible.2
  | stop lt streamId =>
      exact consistent.works (stopStream_works lt _ streamId) (routing.stopStream lt streamId)
        (waiting.withdraws (stopStream_withdraws lt _ streamId))
  | remove lt id =>
      exact consistent.works (removeTorrent_works lt _ id) (routing.removeTorrent id lt)
        (waiting.removeTorrent lt id)
  | poll answers => exact consistent.poll answers possible
  | popExpired => exact consistent.congr rfl consistent.numbered
  | readPieceAlert alert =>
      exact consistent.works (Works.ofLeaves (handleReadPiece_leaves _ alert))
        ((handleReadPiece_keeps _ alert).routing routing) (waiting.handleReadPiece alert)
  | blockFinished lt torrentId piece block =>
      exact consistent.works (Works.ofLeaves (handleBlockFinished_leaves lt _ torrentId piece block))
        (handleBlockFinished_routing routing lt torrentId piece block)
        (waiting.handleBlockFinished lt torrentId piece block)
  | hashFailed torrentId piece =>
      exact consistent.works (Works.ofLeaves (handleHashFailed_leaves _ torrentId piece))
        ((handleHashFailed_keeps _ torrentId piece).routing routing)
        (waiting.handleHashFailed torrentId piece)
  | acquireRequest streamId => exact consistent.congr rfl consistent.numbered
  | releaseRequest streamId now => exact consistent.congr rfl consistent.numbered
  | beginRequest route bodyRange => exact consistent.beginRequest bodyRange possible.1 possible.2
  | readRequest command => exact consistent.readRequest possible
  | endRequest demandId =>
      refine consistent.enqueue rfl consistent.numbered ?_
      intro begins
      simp at begins
  | abandonWaiter waiter => exact consistent.congr rfl consistent.numbered

end Consistent

theorem reachable_consistent {system : System} (reached : system.Reachable) : Consistent system :=
  reached.invariant (fun _ begins => Consistent.initial begins)
    (fun _ _ consistent possible => consistent.perform possible)

/-- The representation invariant of the bridge. -/
structure Representation (state : BridgeState) : Prop where
  oneRoute : ∀ first second left right, state.routes.lookup first = some left →
    state.routes.lookup second = some right → left.torrentId = right.torrentId → first = second
  demands : ∀ demandId demand, state.activeDemands.lookup demandId = some demand →
    (∃ route, state.routes.lookup demand.route.target = some route ∧
      route.target = demand.route.target ∧ route.streamId = demand.route.streamId ∧
      route.torrentId = demand.route.torrentId) ∧
    demand.route.torrentId ∉ state.revokedTorrents
  anchored : ∀ id, (state.anchors.lookup id).isSome ↔
    ∃ target route, state.routes.lookup target = some route ∧ route.torrentId = id ∧
      0 < route.fileSize
  anchors : ∀ id anchor, state.anchors.lookup id = some anchor →
    anchor.route.torrentId = id ∧ state.routes.lookup anchor.route.target = some anchor.route
  schedules : ∀ id, (state.currentSchedules.lookup id).isSome →
    ∃ target route, state.routes.lookup target = some route ∧ route.torrentId = id
  blocks : ∀ key, (state.partialBlocks.lookup key).isSome → (state.pieceWaiters.lookup key).isSome
  waiters : ∀ key waiters, state.pieceWaiters.lookup key = some waiters → waiters ≠ []

/-- Every state that the bridge reaches satisfies the representation invariant. -/
theorem reachable_representation {system : System} (reached : system.Reachable) :
    Representation system.bridge := by
  have consistent := reachable_consistent reached
  have routing := consistent.routing
  have anchorsOf := fun id anchor => routing.anchors id anchor fun impossible => impossible
  refine ⟨routing.unique, ?_, ?_, ?_, ?_, ?_, consistent.waiting.nonempty⟩
  · intro demandId demand found
    obtain ⟨_, _, trusted, registered⟩ := routing.demands demandId demand found
    exact ⟨⟨demand.route, registered, rfl, rfl, rfl⟩, trusted⟩
  · intro id
    constructor
    · intro present
      obtain ⟨anchor, found⟩ := Option.isSome_iff_exists.mp present
      obtain ⟨torrent, sized, registered⟩ := anchorsOf id anchor found
      exact ⟨_, _, registered, torrent, sized⟩
    · rintro ⟨target, route, registered, rfl, sized⟩
      exact routing.anchored target route registered sized
  · intro id anchor found
    obtain ⟨torrent, _, registered⟩ := anchorsOf id anchor found
    exact ⟨torrent, registered⟩
  · intro id present
    obtain ⟨schedule, found⟩ := Option.isSome_iff_exists.mp present
    obtain ⟨target, route, registered, torrent, _⟩ :=
      routing.schedules id schedule (fun impossible => impossible) found
    exact ⟨target, route, registered, torrent⟩
  · intro key present
    obtain ⟨blocks, found⟩ := Option.isSome_iff_exists.mp present
    exact (consistent.waiting.held key blocks found).1

def twoPiecesRoute : StreamRoute :=
  newRoute "a" 7 "t" 0 ⟨"video.mp4", 0, 32768⟩ twoPieces "/data"

/-- A stream of the torrent with one reader that waits for the first piece. -/
def oneReader : List Action := [
  .register (.accepting twoPieces) "a" 7 "t" 0 ⟨"video.mp4", 0, 32768⟩,
  .beginRequest twoPiecesRoute ⟨0, 32767⟩,
  .readRequest ⟨.readPiece, 1, twoPiecesRoute, ⟨0, 16383⟩, 0, some 0, some 1⟩,
  .poll ⟨fun _ => .accepting twoPieces, fun _ => .accepting twoPieces, .accepting twoPieces, 0,
    fun _ => .accepting twoPieces⟩]

theorem reachable_representation_oneReader :
    ∃ system : System, system.Reachable ∧ Representation system.bridge ∧
      (system.bridge.activeDemands.lookup 1).isSome ∧
      (system.bridge.currentSchedules.lookup "t").isSome ∧
      (system.bridge.partialBlocks.lookup ⟨"t", 0⟩).isSome := by
  have reached : (oneReader.foldl System.perform { bridge := .create 1024 1024 0 }).Reachable :=
    (((Transition.Reachable.start ⟨1024, 1024, 0, rfl⟩).step _ (by decide +kernel)).step _
      (by decide +kernel)).step _ (by decide +kernel) |>.step _ (by decide +kernel)
  exact ⟨_, reached, reachable_representation reached, by decide +kernel⟩

end NuvioEngine.Bridge
