import NuvioEngine.Bridge.Discipline

/-!
Nobody waits for a piece that was not asked for: in every state that the HTTP threads, the worker
and the alerts reach together, every open waiter of a reader that needs data is served.
-/

namespace NuvioEngine.Bridge

open NuvioEngine.Scheduler NuvioEngine.Stream NuvioEngine.Cache BridgeState

section Command

variable {handles : Handles} {loose : String → Prop} {state : BridgeState} {lt : Libtorrent}
  {command : HttpCommand}

theorem Served.congr (served : Served handles loose state) {next : BridgeState}
    (waiters : next.waiters = state.waiters) (pieceWaiters : next.pieceWaiters = state.pieceWaiters)
    (demands : next.activeDemands = state.activeDemands)
    (schedules : next.currentSchedules = state.currentSchedules) (calls : next.calls = state.calls)
    (reads : next.requestedReads = state.requestedReads) : Served handles loose next :=
  served.eases ((Eases.refl state).congr waiters pieceWaiters demands schedules calls reads)

theorem setNeedsData_schedules (state : BridgeState) (demandId : Nat) (needsData : Bool) :
    (state.setNeedsData demandId needsData).currentSchedules = state.currentSchedules :=
  (setNeedsData_keeps state demandId needsData).currentSchedules

/-- What a read command carries when its reader is active and its waiter is not held yet. -/
structure Reads (handles : Handles) (loose : String → Prop) (state : BridgeState)
    (command : HttpCommand) : Prop where
  demand : ∃ demand, state.activeDemands.lookup command.demandId = some demand ∧
    demand.route = command.route ∧ demand.range = command.range
  piece : command.piece =
    pieceAt command.route.fileOffset command.route.pieceSize command.range.start
  owner : ∀ waiter, command.waiter = some waiter →
    (state.waiters waiter).demandId = command.demandId
  named : handles.torrentOf command.route.handle = command.route.torrentId
  agrees : ∀ schedule, state.currentSchedules.lookup command.route.torrentId = some schedule →
    schedule.handle = command.route.handle
  waits : loose command.route.torrentId

theorem Served.awaitPiece (served : Served handles loose state)
    (reads : Reads handles loose state command) (calm : handles.Calm lt) (metadata : TorrentInfo)
    {waiter : Nat} (own : command.waiter = some waiter) :
    Served handles loose (state.awaitPiece lt metadata command waiter) := by
  obtain ⟨demand, present, route, range⟩ := reads.demand
  have held : Served handles loose
      (state.holdWaiter ⟨command.route.torrentId, command.piece⟩ waiter) := by
    refine served.holdWaiter ?_ reads.waits
    intro other active
    rw [reads.owner waiter own, present] at active
    rw [← Option.some.inj active, ActiveDemand.blockingPiece, route, range, reads.piece]
    exact ⟨rfl, rfl⟩
  have marked : ∀ needsData, Served handles loose ((state.holdWaiter
      ⟨command.route.torrentId, command.piece⟩ waiter).setNeedsData command.demandId needsData) := by
    refine held.setNeedsData ?_
    intro other active
    obtain rfl : demand = other := Option.some.inj (present.symm.trans active)
    rw [route]
    exact reads.waits
  unfold BridgeState.awaitPiece
  simp only
  split
  · refine (marked _).requestRead calm.accepts reads.named ?_
    rw [setNeedsData_schedules]
    exact reads.agrees
  · exact (marked _).eases (publishWritten_eases _ _ _ _ _ _)

theorem Served.processPieceRequest (served : Served handles loose state)
    (reads : Reads handles loose state command) (calm : handles.Calm lt) :
    Served handles loose (state.processPieceRequest lt command).1 := by
  have completed : ∀ error waiter, Served handles loose (state.completeWaiter none error waiter) :=
    fun error waiter => served.eases (completeWaiter_eases state none error waiter)
  unfold BridgeState.processPieceRequest
  split
  · exact served
  · rename_i waiter own
    split
    · exact completed _ _
    · split
      · exact served
      · exact completed _ _
      · split
        · exact completed _ _
        · split
          · refine Served.eases ?_ ((setNeedsData_false_eases _ command.demandId).trans
              (completeWaiter_eases _ _ _ _))
            exact served.congr rfl rfl rfl rfl rfl rfl
          · rename_i cache _
            have cached : Served handles loose { state with pieceCache := cache } :=
              served.congr rfl rfl rfl rfl rfl rfl
            exact cached.awaitPiece ⟨reads.demand, reads.piece, reads.owner, reads.named,
              reads.agrees, reads.waits⟩ calm _ own

variable {session : Session} {rest : List HttpCommand}

theorem schedule_handle (routing : Routing (fun _ => False) state) {demandId : Nat}
    {demand : ActiveDemand} (active : state.activeDemands.lookup demandId = some demand)
    {schedule : CurrentSchedule}
    (found : state.currentSchedules.lookup demand.route.torrentId = some schedule) :
    schedule.handle = demand.route.handle := by
  obtain ⟨target, route, registered, torrent, handle⟩ :=
    routing.schedules _ schedule (fun impossible => impossible) found
  have own := (routing.demands demandId demand active).2.2.2
  have same := routing.unique _ _ _ _ registered own torrent
  rw [same, own] at registered
  rw [← handle, Option.some.inj registered]

theorem Served.processCommand (served : Served handles loose state)
    (disciplined : Disciplined handles session state (command :: rest))
    (routing : Routing (fun _ => False) state) (calm : handles.Calm lt) :
    Served handles (fun id => loose id ∨ id ∈ (state.processCommand lt command).2.1)
      (state.processCommand lt command).1 := by
  have proper := disciplined.queued command List.mem_cons_self
  have before : ∀ changed : List String, Served handles (fun id => loose id ∨ id ∈ changed) state :=
    fun changed => served.loosen fun _ isLoose => Or.inl isLoose
  unfold BridgeState.processCommand
  cases kind : command.type with
  | beginDemand =>
      simp only [beginDemand]
      split
      · refine (before _).insertDemand ?_ _
        intro key waiter held same
        rw [Proper, kind] at proper
        obtain ⟨_, _, _, _, unused⟩ := proper
        exact absurd same (unused key waiter held)
      · exact (before _).eases (cancelDemandState_eases state command.demandState)
  | endDemand =>
      simp only [endDemand]
      split
      · exact before _
      · exact (before _).eases (eraseDemand_eases state command.demandId)
  | readPiece =>
      obtain ⟨piece, waiter, own, _, owner, _⟩ := proper.reads kind
      simp only [BridgeState.readPiece]
      split
      · rw [own]
        exact (before _).eases (completeWaiter_eases state _ _ _)
      · rename_i demand reading
        have active := readerOf_eq_some reading
        obtain ⟨request, known, route, _⟩ := disciplined.demands _ demand active
        obtain ⟨other, alsoKnown, commandRoute, _⟩ := proper.carries (by simp [kind])
        obtain rfl : request = other := Option.some.inj (known.symm.trans alsoKnown)
        have same : demand.route = command.route := route.trans commandRoute.symm
        have registered := (disciplined.requests _ request known).2.1
        have moved : Served handles (fun id => loose id ∨ id ∈ [demand.route.torrentId])
            (state.moveDemand command.demandId demand command.range) :=
          (before _).insertDemand (fun key waiter held => disciplined.finished_before kind held) _
        refine moved.processPieceRequest ⟨⟨_, AList.lookup_insert _, same, rfl⟩, piece, ?_, ?_, ?_, ?_⟩
          calm
        · intro found also
          obtain rfl : waiter = found := Option.some.inj (own.symm.trans also)
          exact owner
        · rw [commandRoute]
          exact (disciplined.routes _ registered).2.2.2
        · intro schedule found
          rw [← same] at found ⊢
          exact schedule_handle routing active found
        · rw [same]
          exact Or.inr (List.mem_singleton.mpr rfl)

/-- A batch that nothing throws out of leaves only readers of the changed torrents unserved. -/
theorem Served.processCommands (answers : Nat → Libtorrent)
    (calm : ∀ position, handles.Calm (answers position)) (commands : List HttpCommand)
    {state : BridgeState} {changed : List String} (served : Served handles (fun id => id ∈ changed) state)
    (disciplined : Disciplined handles session state commands)
    (routing : Routing (fun _ => False) state) (issued : ∀ command ∈ commands, Issued state command)
    (position : Nat)
    (quiet : (BridgeState.processCommands answers position commands state changed).2.2 = false) :
    Served handles
        (fun id => id ∈ (BridgeState.processCommands answers position commands state changed).2.1)
        (BridgeState.processCommands answers position commands state changed).1 ∧
      Disciplined handles session
        (BridgeState.processCommands answers position commands state changed).1 [] := by
  induction commands generalizing state changed position with
  | nil => exact ⟨served, disciplined⟩
  | cons command rest ih =>
      have taken := served.processCommand disciplined routing (calm position)
      obtain ⟨after, routes⟩ :=
        processCommand_routing routing (answers position) (issued command List.mem_cons_self)
      rw [BridgeState.processCommands] at quiet ⊢
      split at quiet
      · simp at quiet
      · rename_i accepted
        rw [if_neg accepted]
        refine ih ?_ (disciplined.takes (processCommand_takes _ _ _)) after ?_ (position + 1) quiet
        · refine taken.loosen ?_
          intro id known
          exact List.mem_union_iff.mpr known
        · intro other member
          unfold Issued
          rw [routes]
          exact issued other (List.mem_cons_of_mem _ member)

end Command

/-- The maps agree, the readers can be planned for, and those outside `loose` are served. -/
structure Tended (handles : Handles) (unrouted loose : String → Prop) (state : BridgeState) : Prop where
  routing : Routing unrouted state
  served : Served handles loose state
  named : ∀ target route, state.routes.lookup target = some route →
    handles.torrentOf route.handle = route.torrentId
  sum : state.window.criticalBytes + state.window.playbackBytes < 2 ^ 64
  readable : ∀ demandId demand, state.activeDemands.lookup demandId = some demand →
    Readable demand.route demand.range

section Tend

variable {handles : Handles} {unrouted loose : String → Prop} {state next : BridgeState}
  {lt : Libtorrent} {id : String}

theorem Tended.step {stale tight : String → Prop} (tended : Tended handles unrouted loose state)
    (works : Works state next) (holds : Holds state next) (routing : Routing stale next)
    (served : Served handles tight next) : Tended handles stale tight next := by
  refine ⟨routing, served, ?_, ?_, ?_⟩
  · intro target route found
    exact tended.named target route (works.routes target route found)
  · rw [works.window]
    exact tended.sum
  · intro demandId demand found
    obtain ⟨old, present, route, range, _⟩ := holds.demands demandId demand found
    rw [← route, ← range]
    exact tended.readable demandId old present

theorem Tended.recompute (tended : Tended handles unrouted loose state) (calm : handles.Calm lt)
    (stale : unrouted id → state.anchors.lookup id = none ∧
      ∀ target route, state.routes.lookup target = some route → route.torrentId ≠ id) :
    Holds state (recomputeSchedule lt state id) ∧
      Tended handles (fun other => unrouted other ∧ other ≠ id) (fun other => loose other ∧ other ≠ id)
        (recomputeSchedule lt state id) := by
  obtain ⟨holds, served⟩ :=
    tended.served.recompute tended.routing stale tended.named tended.sum tended.readable calm
  exact ⟨holds, tended.step (recomputeSchedule_works lt state id) holds
    (tended.routing.recompute lt id stale) served⟩

theorem Tended.recompute_settled (tended : Tended handles (fun _ => False) loose state)
    (calm : handles.Calm lt) (id : String) :
    Holds state (recomputeSchedule lt state id) ∧
      Tended handles (fun _ => False) (fun other => loose other ∧ other ≠ id)
        (recomputeSchedule lt state id) := by
  have routed : False → state.anchors.lookup id = none ∧
      ∀ target route, state.routes.lookup target = some route → route.torrentId ≠ id := False.elim
  obtain ⟨holds, computed⟩ := tended.recompute calm routed
  exact ⟨holds, { computed with routing := computed.routing.tighten fun _ both => both.1 }⟩

theorem Tended.recomputeAll (answers : String → Libtorrent) (calm : ∀ id, handles.Calm (answers id))
    (changed : List String) {state : BridgeState}
    (tended : Tended handles (fun _ => False) (fun id => id ∈ changed) state) :
    Holds state (changed.foldl (fun current id => recomputeSchedule (answers id) current id) state) ∧
      Tended handles (fun _ => False) (fun _ => False)
        (changed.foldl (fun current id => recomputeSchedule (answers id) current id) state) := by
  induction changed generalizing state with
  | nil => exact ⟨Holds.refl state, { tended with served := tended.served.loosen (by simp) }⟩
  | cons id rest ih =>
      obtain ⟨first, computed⟩ := tended.recompute_settled (calm id) id
      have shrunk : Served handles (fun other => other ∈ rest)
          (recomputeSchedule (answers id) state id) := by
        refine computed.served.loosen ?_
        rintro other ⟨member, different⟩
        exact (List.mem_cons.mp member).resolve_left different
      obtain ⟨second, final⟩ := ih { computed with served := shrunk }
      exact ⟨first.trans second, final⟩

theorem Tended.reissueRead (tended : Tended handles (fun _ => False) loose state)
    (calm : handles.Calm lt) (key : PieceKey) :
    Holds state (reissueRead lt state key) ∧
      Tended handles (fun _ => False) loose (reissueRead lt state key) := by
  have sends := reissueRead_sends lt state key
  have unchanged : ∀ {after : BridgeState}, after = state → Holds state after ∧
      Served handles loose after := by
    rintro after rfl
    exact ⟨Holds.refl after, tended.served⟩
  have both : Holds state (BridgeState.reissueRead lt state key) ∧
      Served handles loose (BridgeState.reissueRead lt state key) := by
    unfold BridgeState.reissueRead
    split
    · exact unchanged rfl
    · split
      · exact unchanged rfl
      · rename_i entry found
        obtain ⟨demandId, demand⟩ := entry
        have active := (AList.lookup_eq_some_iff _ _ _).mpr (List.mem_of_find?_eq_some found)
        have torrent : demand.route.torrentId = key.torrentId := by
          simpa using List.find?_some found
        split
        · rw [attempt_accepted (calm.accepts _ _)]
          refine ⟨Holds.same rfl rfl rfl, tended.served.read ?_ ?_ lt.now⟩
          · rw [← torrent]
            exact tended.named _ _ (tended.routing.demands demandId demand active).2.2.2
          · rw [← torrent]
            intro schedule present
            exact schedule_handle tended.routing active present
        · exact unchanged rfl
  exact ⟨both.1, tended.step (Works.ofLeaves (Leaves.ofSends sends)) both.1 (tended.routing.sends sends) both.2⟩

theorem Tended.reissueReads (calm : handles.Calm lt) (keys : List PieceKey) {state : BridgeState}
    (tended : Tended handles (fun _ => False) loose state) :
    Holds state (keys.foldl (BridgeState.reissueRead lt) state) ∧
      Tended handles (fun _ => False) loose (keys.foldl (BridgeState.reissueRead lt) state) := by
  induction keys generalizing state with
  | nil => exact ⟨Holds.refl state, tended⟩
  | cons key rest ih =>
      obtain ⟨first, reissued⟩ := tended.reissueRead calm key
      obtain ⟨second, final⟩ := ih reissued
      exact ⟨first.trans second, final⟩

theorem Tended.eases (tended : Tended handles unrouted loose state) (works : Works state next)
    (eases : Eases state next) (routing : Routing unrouted next) :
    Tended handles unrouted loose next :=
  tended.step works eases.holds routing (tended.served.eases eases)

theorem Tended.reissueStalledReads (tended : Tended handles (fun _ => False) loose state)
    (calm : handles.Calm lt) :
    Holds state (state.reissueStalledReads lt) ∧
      Tended handles (fun _ => False) loose (state.reissueStalledReads lt) := by
  unfold BridgeState.reissueStalledReads
  split
  · exact ⟨Holds.refl state, tended⟩
  · have watched : Tended handles (fun _ => False) loose
        { state with nextReadWatchdog := lt.now + 1000 } :=
      tended.eases ((Works.refl state).congr rfl rfl rfl rfl)
        ((Eases.refl state).congr rfl rfl rfl rfl rfl rfl) (tended.routing.congr rfl rfl rfl rfl rfl)
    obtain ⟨holds, reissued⟩ := Tended.reissueReads calm state.pieceWaiters.keys watched
    refine ⟨Holds.trans ?_ holds, reissued⟩
    exact Holds.same rfl rfl rfl

theorem Tended.expireStreams (answers : String → Libtorrent) (calm : ∀ id, handles.Calm (answers id))
    (pending : List StoppedStream) {state : BridgeState}
    (tended : Tended handles (fun id => ∃ stream ∈ pending, stream.torrentId = id)
      (fun _ => False) state) (expiring : Expiring pending state) :
    Holds state (pending.foldl (expireStream answers) state) ∧
      Served handles (fun _ => False) (pending.foldl (expireStream answers) state) := by
  induction pending generalizing state with
  | nil => exact ⟨Holds.refl state, tended.served⟩
  | cons stream rest ih =>
      obtain ⟨erased, unanchored⟩ := expiring.eraseAnchor
      have cleared : Tended handles (fun id => ∃ other ∈ stream :: rest, other.torrentId = id)
          (fun _ => False) (state.eraseAnchor stream.streamId) :=
        tended.eases ((Works.refl state).congr rfl rfl rfl rfl)
          ((Eases.refl state).congr rfl rfl rfl rfl rfl rfl) erased.routing
      obtain ⟨first, computed⟩ := cleared.recompute (calm stream.torrentId) fun _ =>
        ⟨unanchored, fun target route found =>
          (erased.streamless stream List.mem_cons_self target route found).1⟩
      have left := erased.recompute unanchored (answers stream.torrentId)
      have noted : Expiring rest (expireStream answers state stream) :=
        ⟨left.routing.congr rfl rfl rfl rfl rfl, left.streamless, left.owned⟩
      have here : Holds state (expireStream answers state stream) := by
        refine Holds.trans (Holds.trans ?_ first) ?_
        · exact Holds.same rfl rfl rfl
        · exact Holds.same rfl rfl rfl
      have served : Served handles (fun _ => False) (expireStream answers state stream) :=
        (computed.served.loosen fun _ both => both.1).congr rfl rfl rfl rfl rfl rfl
      have works := expireStream_works answers state stream
      obtain ⟨later, final⟩ := ih (tended.step works here noted.routing served) noted
      exact ⟨here.trans later, final⟩

theorem Tended.expireInactiveStreams (tended : Tended handles (fun _ => False) (fun _ => False) state)
    (now : Nat) (answers : String → Libtorrent) (calm : ∀ id, handles.Calm (answers id)) :
    Holds state (state.expireInactiveStreams now answers) ∧
      Served handles (fun _ => False) (state.expireInactiveStreams now answers) := by
  unfold BridgeState.expireInactiveStreams
  split
  · exact ⟨Holds.refl state, tended.served⟩
  · have expiring := tended.routing.expiring now
      (now + min (max (state.inactivityTimeout / 2) 25) 1000)
    have works : Works state { state with
        nextInactivityCheck := now + min (max (state.inactivityTimeout / 2) 25) 1000
        routes := state.routes.eraseIf fun _ route => state.isExpired now route } :=
      ⟨fun _ _ found => ((AList.lookup_eraseIf _ _ _ _).mp found).1, rfl, rfl, rfl⟩
    have checked := tended.step works (Holds.same rfl rfl rfl) expiring.routing
      (tended.served.congr rfl rfl rfl rfl rfl rfl)
    obtain ⟨holds, served⟩ := Tended.expireStreams answers calm _ checked expiring
    refine ⟨Holds.trans ?_ holds, served⟩
    exact Holds.same rfl rfl rfl

theorem Tended.stopStream (tended : Tended handles (fun _ => False) (fun _ => False) state)
    (calm : handles.Calm lt) (streamId : String) :
    Holds state (stopStream lt state streamId).1 ∧
      Tended handles (fun _ => False) (fun _ => False) (stopStream lt state streamId).1 := by
  have routing := tended.routing.stopStream lt streamId
  have works := stopStream_works lt state streamId
  have eases := stopped_eases state streamId
  have stops := tended.step (stopped_works state streamId) eases.holds (tended.routing.stopped streamId)
    (tended.served.eases eases)
  rw [tended.routing.stopStream_eq lt streamId] at routing works ⊢
  cases found : state.routes.lookup ("/stream/" ++ streamId) with
  | none =>
      rw [found] at routing works
      exact ⟨eases.holds, tended.step works eases.holds routing stops.served⟩
  | some route =>
      rw [found] at routing works
      obtain ⟨holds, computed⟩ := stops.recompute calm fun _ => tended.routing.stopped_stale found
      exact ⟨eases.holds.trans holds, tended.step works (eases.holds.trans holds) routing
        (computed.served.loosen fun _ both => both.1)⟩

theorem Tended.stopStreams (calm : handles.Calm lt) (streams : List String) {state : BridgeState}
    (tended : Tended handles (fun _ => False) (fun _ => False) state) :
    Holds state (streams.foldl (fun current streamId =>
        (BridgeState.stopStream lt current streamId).1) state) ∧
      Tended handles (fun _ => False) (fun _ => False) (streams.foldl (fun current streamId =>
        (BridgeState.stopStream lt current streamId).1) state) := by
  induction streams generalizing state with
  | nil => exact ⟨Holds.refl state, tended⟩
  | cons streamId rest ih =>
      obtain ⟨first, stopped⟩ := tended.stopStream calm streamId
      obtain ⟨second, final⟩ := ih stopped
      exact ⟨first.trans second, final⟩

theorem Tended.removeTorrent (tended : Tended handles (fun _ => False) (fun _ => False) state)
    (calm : handles.Calm lt) (id : String) :
    Holds state (removeTorrent lt state id) ∧
      Served handles (fun _ => False) (removeTorrent lt state id) := by
  have eases := removed_eases state id
  have cleared := tended.step (removed_works state id) eases.holds (tended.routing.removed id)
    (tended.served.eases eases)
  have unanchored : (removed state id).anchors.lookup id = none := by
    rw [lookup_removed_anchors, if_pos rfl]
  obtain ⟨holds, computed⟩ := cleared.recompute calm fun _ => ⟨unanchored, fun target route found =>
    ((lookup_removed_routes id target route).mp found).2⟩
  have served : Served handles (fun _ => False) (recomputeSchedule lt (removed state id) id) :=
    computed.served.loosen fun _ both => both.1
  have answered : Eases (recomputeSchedule lt (removed state id) id)
      (BridgeState.removeTorrent lt state id) := eraseTorrent_eases _ id "torrent was removed" _
  exact ⟨(eases.holds.trans holds).trans answered.holds, served.eases answered⟩

theorem Tended.addRoute (tended : Tended handles (fun _ => False) (fun _ => False) state)
    (calm : handles.Calm lt) (route : StreamRoute)
    (target : route.target = "/stream/" ++ route.streamId) (named : route.torrentId ≠ "")
    (fresh : state.routes.lookup route.target = none) (sliced : 0 < route.pieceSize)
    (owned : handles.torrentOf route.handle = route.torrentId) :
    Holds state (addRoute lt state route) ∧
      Served handles (fun _ => False) (addRoute lt state route) := by
  obtain ⟨stops, stopped⟩ := Tended.stopStreams calm ((state.routes.entries.filter fun entry =>
    entry.2.torrentId = route.torrentId).map fun entry => entry.2.streamId) tended
  have joins : Holds (vacated lt state route) (joined lt state route) := Holds.same rfl rfl rfl
  have ready : Tended handles (fun _ => False) (fun _ => False) (joined lt state route) := by
    refine ⟨tended.routing.joined lt target named fresh sliced,
      stopped.served.congr rfl rfl rfl rfl rfl rfl, ?_, stopped.sum, stopped.readable⟩
    intro query other found
    simp only [joined, AList.lookup_insert_ite] at found
    split at found
    · rw [← Option.some.inj found]
      exact owned
    · exact stopped.named query other found
  rw [addRoute_eq lt sliced]
  split
  · obtain ⟨holds, computed⟩ := ready.recompute_settled calm route.torrentId
    exact ⟨(stops.trans joins).trans holds, computed.served.loosen fun _ both => both.1⟩
  · exact ⟨stops.trans joins, ready.served⟩

theorem Tended.handleBlockFinished (tended : Tended handles (fun _ => False) (fun _ => False) state)
    (calm : handles.Calm lt) (torrentId : String) (piece block : Nat) :
    Holds state (handleBlockFinished lt state torrentId piece block) ∧
      Served handles (fun _ => False) (handleBlockFinished lt state torrentId piece block) := by
  have published : ∀ key blocks, Eases state ((state.setBlocks key blocks).publishPartial key) := by
    intro key blocks
    refine Eases.trans ?_ (publishPartial_eases _ key)
    exact (Eases.refl state).congr rfl rfl rfl rfl rfl rfl
  unfold BridgeState.handleBlockFinished
  simp only
  split
  · exact ⟨Holds.refl state, tended.served⟩
  · split
    · exact ⟨Holds.refl state, tended.served⟩
    · split
      · exact ⟨(published _ _).holds, tended.served.eases (published _ _)⟩
      · rename_i blocks _ _ _
        have sends := publishPartial_sends
          (state.setBlocks ⟨torrentId, piece⟩ (blocks.set block true)) ⟨torrentId, piece⟩
        have shown := tended.eases (Works.trans ((Works.refl state).congr rfl rfl rfl rfl)
          (Works.ofLeaves (Leaves.ofSends sends))) (published _ _)
          (Routing.sends (tended.routing.congr rfl rfl rfl rfl rfl) sends)
        obtain ⟨holds, computed⟩ := shown.recompute_settled calm torrentId
        exact ⟨(published _ _).holds.trans holds, computed.served.loosen fun _ both => both.1⟩

theorem Tended.poll {session : Session} (tended : Tended handles (fun _ => False) (fun _ => False) state)
    (disciplined : Disciplined handles session state state.commands)
    (issued : ∀ command ∈ state.commands, Issued state command) (answers : PollAnswers)
    (command : ∀ position, handles.Calm (answers.command position))
    (recompute : ∀ id, handles.Calm (answers.recompute id)) (watchdog : handles.Calm answers.watchdog)
    (expired : ∀ id, handles.Calm (answers.expired id)) (quiet : (state.poll answers).2 = false) :
    Disciplined handles session (state.poll answers).1 [] ∧
      Served handles (fun _ => False) (state.poll answers).1 := by
  have emptied : Served handles (fun id => id ∈ ([] : List String)) { state with commands := [] } :=
    (tended.served.loosen fun _ => False.elim).congr rfl rfl rfl rfl rfl rfl
  have ordered : Disciplined handles session { state with commands := [] } state.commands :=
    disciplined.holds (Holds.same rfl rfl rfl) rfl
  have routed : Routing (fun _ => False) { state with commands := [] } :=
    tended.routing.congr rfl rfl rfl rfl rfl
  have works := Works.ofLeaves (processCommands_leaves answers.command state.commands
    { state with commands := [] } 0 [])
  obtain ⟨routing, _⟩ := processCommands_routing answers.command state.commands routed issued 0 []
  have later := poll_works state answers
  unfold BridgeState.poll at quiet later ⊢
  simp only at quiet later ⊢
  split
  · rename_i threw
    simp [threw] at quiet
  · rename_i accepted
    rw [if_neg accepted] at later
    obtain ⟨served, processed⟩ := emptied.processCommands answers.command command state.commands
      ordered routed issued 0 (by simpa using accepted)
    generalize BridgeState.processCommands answers.command 0 state.commands
      { state with commands := [] } [] = batch at works routing later served processed ⊢
    have pruned := dropWaiters_eases batch.1 fun waiter => (batch.1.waiters waiter).cancelled
    have handled : Tended handles (fun _ => False) (fun id => id ∈ batch.2.1)
        batch.1.pruneCancelledWaiters := by
      refine ⟨routing.sends (pruneCancelledWaiters_sends _), served.eases pruned, ?_, ?_, ?_⟩
      · intro target route found
        exact tended.named target route (works.routes target route found)
      · have window : batch.1.pruneCancelledWaiters.window = state.window := works.window
        rw [window]
        exact tended.sum
      · intro demandId demand found
        obtain ⟨_, _, _, readable⟩ := processed.demands demandId demand found
        exact readable
    obtain ⟨first, computed⟩ := Tended.recomputeAll answers.recompute recompute batch.2.1 handled
    obtain ⟨second, watched⟩ := computed.reissueStalledReads watchdog
    obtain ⟨third, final⟩ := watched.expireInactiveStreams answers.expiry answers.expired expired
    refine ⟨processed.holds (((pruned.holds.trans first).trans second).trans third) ?_, final⟩
    exact later.nextDemandId.trans works.nextDemandId.symm

end Tend

end NuvioEngine.Bridge
