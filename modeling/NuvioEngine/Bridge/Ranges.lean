import NuvioEngine.Bridge.Attendance

/-!
Every reader is at a range of its file that can be planned for, in every run of the bridge with its
HTTP threads, whatever libtorrent throws.
-/

namespace NuvioEngine.Bridge

open NuvioEngine.Scheduler NuvioEngine.Stream NuvioEngine.Cache BridgeState

/-- A thread reads inside the range of its response, and libtorrent's pieces have 32-bit indices. -/
def Session.Possible (session : Session) : SessionAction → Prop
  | .beginRequest route bodyRange => route ∈ session.system.registered ∧
      bodyRange.start ≤ bodyRange.last ∧ bodyRange.last < route.fileSize
  | .readRequest demandId position => ∃ request, session.requests demandId = some request ∧
      request.bodyRange.start ≤ position ∧ position ≤ request.bodyRange.last
  | .work action => session.system.Possible action ∧
      match action with
      | .register lt token handle id fileIndex file => ∀ route,
          routeFor lt session.bridge token handle id fileIndex file = .ok route → Indexed route
      | .beginRequest .. | .readRequest .. => False
      | _ => True

def Session.Reachable : Session → Prop :=
  Transition.Reachable Session.Initial Session.Possible Session.perform

/-- Every demand was there, with its route and its range. -/
def Thins (before after : BridgeState) : Prop :=
  ∀ demandId demand, after.activeDemands.lookup demandId = some demand →
    ∃ old, before.activeDemands.lookup demandId = some old ∧ old.route = demand.route ∧
      old.range = demand.range

namespace Thins

variable {first second third : BridgeState}

theorem same (demands : second.activeDemands = first.activeDemands) : Thins first second :=
  fun _ demand found => ⟨demand, demands ▸ found, rfl, rfl⟩

theorem trans (left : Thins first second) (right : Thins second third) : Thins first third := by
  intro demandId demand found
  obtain ⟨middle, middleFound, middleRoute, middleRange⟩ := right demandId demand found
  obtain ⟨old, oldFound, oldRoute, oldRange⟩ := left demandId middle middleFound
  exact ⟨old, oldFound, oldRoute.trans middleRoute, oldRange.trans middleRange⟩

theorem ofSends (sends : Sends first second) : Thins first second := same sends.activeDemands

theorem foldl {α : Type} {step : BridgeState → α → BridgeState}
    (each : ∀ state item, Thins state (step state item)) (items : List α) (state : BridgeState) :
    Thins state (items.foldl step state) := by
  induction items generalizing state with
  | nil => exact same rfl
  | cons item rest ih => exact (each state item).trans (ih (step state item))

end Thins

theorem recomputeSchedule_thins (lt : Libtorrent) (state : BridgeState) (id : String) :
    Thins state (recomputeSchedule lt state id) :=
  Thins.same (recomputeSchedule_recomputes lt state id).activeDemands

theorem stopStream_thins (lt : Libtorrent) (state : BridgeState) (streamId : String) :
    Thins state (stopStream lt state streamId).1 := by
  have stops : Thins state (stopped state streamId) := fun _ demand found =>
    ⟨demand, (lookup_stopped_demands found).1, rfl, rfl⟩
  unfold stopStream
  simp only
  split
  · exact stops
  · exact stops.trans (recomputeSchedule_thins lt _ _)

theorem removeTorrent_thins (lt : Libtorrent) (state : BridgeState) (id : String) :
    Thins state (removeTorrent lt state id) := by
  have removes : Thins state (removed state id) := fun demandId demand found =>
    ⟨demand, ((lookup_removed_demands id demandId demand).mp found).1, rfl, rfl⟩
  exact (removes.trans (recomputeSchedule_thins lt _ id)).trans
    (Thins.ofSends (removeTorrent_sends id lt))

theorem addRoute_thins (lt : Libtorrent) (state : BridgeState) {route : StreamRoute}
    (sliced : 0 < route.pieceSize) : Thins state (addRoute lt state route) := by
  have stops : Thins state (vacated lt state route) :=
    Thins.foldl (fun current streamId => stopStream_thins lt current streamId) _ _
  have joins : Thins state (joined lt state route) := stops.trans (Thins.same rfl)
  rw [addRoute_eq lt sliced]
  split
  · exact joins.trans (recomputeSchedule_thins lt _ _)
  · exact joins

theorem handleBlockFinished_thins (lt : Libtorrent) (state : BridgeState) (torrentId : String)
    (piece block : Nat) : Thins state (handleBlockFinished lt state torrentId piece block) := by
  have published : ∀ key blocks, Thins state ((state.setBlocks key blocks).publishPartial key) :=
    fun key blocks => Thins.trans (Thins.same rfl) (Thins.ofSends (publishPartial_sends _ key))
  unfold handleBlockFinished
  simp only
  split
  · exact Thins.same rfl
  · split
    · exact Thins.same rfl
    · split
      · exact published _ _
      · exact (published _ _).trans (recomputeSchedule_thins lt _ torrentId)

theorem setNeedsData_thins (state : BridgeState) (demandId : Nat) (needsData : Bool) :
    Thins state (state.setNeedsData demandId needsData) := by
  unfold setNeedsData
  split
  · exact Thins.same rfl
  · rename_i demand found
    intro query other present
    rw [AList.lookup_insert_ite] at present
    split at present
    · rename_i same
      obtain rfl := Option.some.inj present
      exact ⟨demand, same ▸ found, rfl, rfl⟩
    · exact ⟨other, present, rfl, rfl⟩

theorem awaitPiece_thins (state : BridgeState) (lt : Libtorrent) (metadata : TorrentInfo)
    (command : HttpCommand) (waiter : Nat) :
    Thins state (state.awaitPiece lt metadata command waiter) := by
  unfold awaitPiece
  simp only
  have held : Thins state (state.holdWaiter ⟨command.route.torrentId, command.piece⟩ waiter) :=
    Thins.same rfl
  split
  · exact (held.trans (setNeedsData_thins _ _ _)).trans (Thins.ofSends (requestRead_sends _ _ _ _))
  · exact (held.trans (setNeedsData_thins _ _ _)).trans
      (Thins.ofSends (publishWritten_sends _ _ _ _ _ _))

theorem processPieceRequest_thins (state : BridgeState) (lt : Libtorrent) (command : HttpCommand) :
    Thins state (state.processPieceRequest lt command).1 := by
  have completed : ∀ error waiter, Thins state (state.completeWaiter none error waiter) :=
    fun error waiter => Thins.ofSends (completeWaiter_sends state none error waiter)
  unfold processPieceRequest
  split
  · exact Thins.same rfl
  · split
    · exact completed _ _
    · split
      · exact Thins.same rfl
      · exact completed _ _
      · split
        · exact completed _ _
        · split
          · refine (Thins.trans ?_ (setNeedsData_thins _ command.demandId false)).trans
              (Thins.ofSends (completeWaiter_sends _ _ _ _))
            exact Thins.same rfl
          · refine Thins.trans ?_ (awaitPiece_thins _ lt _ command _)
            exact Thins.same rfl

/-- The demands of a state are those of requests, at ranges of their files. -/
def Reading (session : Session) (state : BridgeState) : Prop :=
  ∀ demandId demand, state.activeDemands.lookup demandId = some demand →
    ∃ request, session.requests demandId = some request ∧ demand.route = request.route ∧
      Readable demand.route demand.range

/-- So are the commands that begin or move a demand. -/
def Carries (session : Session) (command : HttpCommand) : Prop :=
  command.type ≠ .endDemand → ∃ request, session.requests command.demandId = some request ∧
    command.route = request.route ∧ Readable command.route command.range

section Reading

variable {session : Session} {state next : BridgeState}

theorem Reading.thins (reads : Reading session state) (thins : Thins state next) : Reading session next := by
  intro demandId demand found
  obtain ⟨old, present, route, range⟩ := thins demandId demand found
  rw [← route, ← range]
  exact reads demandId old present

theorem Reading.processCommand (reads : Reading session state) (lt : Libtorrent) {command : HttpCommand}
    (carries : Carries session command) : Reading session (state.processCommand lt command).1 := by
  unfold BridgeState.processCommand
  cases kind : command.type with
  | beginDemand =>
      obtain ⟨request, known, route, readable⟩ := carries (by rw [kind]; decide)
      simp only [BridgeState.beginDemand]
      split
      · intro demandId demand found
        rw [AList.lookup_insert_ite] at found
        split at found
        · rename_i same
          obtain rfl := Option.some.inj found
          exact ⟨request, same ▸ known, route, readable⟩
        · exact reads demandId demand found
      · exact reads.thins (Thins.same (cancelDemandState_activeDemands state command.demandState))
  | endDemand =>
      simp only [BridgeState.endDemand]
      split
      · exact reads
      · intro demandId demand found
        rw [AList.lookup_erase_ite] at found
        split at found
        · simp at found
        · exact reads demandId demand found
  | readPiece =>
      obtain ⟨request, known, route, readable⟩ := carries (by rw [kind]; decide)
      simp only [BridgeState.readPiece]
      split
      · split
        · exact reads
        · exact reads.thins (Thins.ofSends (completeWaiter_sends state _ _ _))
      · rename_i demand found
        refine Reading.thins ?_ (processPieceRequest_thins _ lt command)
        intro demandId other present
        simp only [moveDemand, AList.lookup_insert_ite] at present
        split at present
        · rename_i same
          obtain rfl := Option.some.inj present
          obtain ⟨own, ownKnown, ownRoute, _⟩ := reads _ demand (readerOf_eq_some found)
          rw [known] at ownKnown
          obtain rfl := Option.some.inj ownKnown
          refine ⟨request, same ▸ known, ownRoute, ?_⟩
          rw [route] at readable
          simp only [ownRoute]
          exact readable
        · exact reads demandId other present

theorem Reading.processCommands (answers : Nat → Libtorrent) (commands : List HttpCommand)
    (reads : Reading session state) (carries : ∀ command ∈ commands, Carries session command)
    (position : Nat) (changed : List String) :
    Reading session (processCommands answers position commands state changed).1 := by
  induction commands generalizing state position changed with
  | nil => exact reads
  | cons command rest ih =>
      have processed := reads.processCommand (answers position) (carries command List.mem_cons_self)
      rw [BridgeState.processCommands]
      split
      · exact processed
      · exact ih processed (fun other member => carries other (List.mem_cons_of_mem _ member)) _ _

theorem reissueStalledReads_thins (state : BridgeState) (lt : Libtorrent) :
    Thins state (state.reissueStalledReads lt) := by
  unfold reissueStalledReads
  split
  · exact Thins.same rfl
  · refine Thins.trans ?_
      (Thins.ofSends (Sends.foldl (fun current key => reissueRead_sends lt current key) _ _))
    exact Thins.same rfl

theorem expireInactiveStreams_thins (state : BridgeState) (now : Nat) (answers : String → Libtorrent) :
    Thins state (state.expireInactiveStreams now answers) := by
  unfold expireInactiveStreams
  split
  · exact Thins.same rfl
  · refine Thins.trans (Thins.same rfl) (Thins.foldl (fun current stream => ?_) _ _)
    exact Thins.trans (Thins.same rfl) (recomputeSchedule_thins (answers stream.torrentId) _ _)

theorem Reading.poll (reads : Reading session state)
    (carries : ∀ command ∈ state.commands, Carries session command) (answers : PollAnswers) :
    Reading session (state.poll answers).1 := by
  have processed : Reading session (BridgeState.processCommands answers.command 0 state.commands
      { state with commands := [] } []).1 :=
    @Reading.processCommands session { state with commands := [] } answers.command state.commands reads
      carries 0 []
  unfold BridgeState.poll
  simp only
  split
  · exact processed
  · refine Reading.thins ?_ (expireInactiveStreams_thins _ _ _)
    refine Reading.thins ?_ (reissueStalledReads_thins _ _)
    refine Reading.thins ?_ (Thins.foldl (fun current id =>
      recomputeSchedule_thins (answers.recompute id) current id) _ _)
    exact processed.thins (Thins.ofSends (pruneCancelledWaiters_sends _))

end Reading

/-- What holds between the requests, the queue and the demands. -/
structure Ranged (session : Session) : Prop where
  consistent : Consistent session.system
  routes : ∀ route ∈ session.system.registered, 0 < route.pieceSize ∧ route.pieceSize ≤ uint32Max ∧
    Indexed route
  requests : ∀ demandId request, session.requests demandId = some request →
    demandId < session.bridge.nextDemandId ∧ request.route ∈ session.system.registered ∧
      request.bodyRange.last < request.route.fileSize
  demands : Reading session session.bridge
  queued : ∀ command ∈ session.bridge.commands, Carries session command
  window : ∃ capacity, session.bridge.window = streamWindow capacity

namespace Ranged

variable {session : Session}

theorem initial (begins : session.Initial) : Ranged session := by
  obtain ⟨system, starts, rfl⟩ := begins
  have consistent := Consistent.initial starts
  obtain ⟨memoryCapacityBytes, diskCapacityBytes, inactivity, rfl⟩ := starts
  refine ⟨consistent, by simp, by simp, ?_, ?_, diskCapacityBytes, rfl⟩
  · intro demandId demand found
    simp [Session.bridge, BridgeState.create] at found
  · intro command member
    simp [Session.bridge, BridgeState.create] at member

theorem works (ranged : Ranged session) {next : BridgeState}
    (consistent : Consistent ⟨next, session.system.registered⟩) (works : Works session.bridge next)
    (thins : Thins session.bridge next) :
    Ranged { session with system := ⟨next, session.system.registered⟩ } := by
  obtain ⟨capacity, window⟩ := ranged.window
  refine ⟨consistent, ranged.routes, ?_, ranged.demands.thins thins, ?_, capacity,
    works.window.trans window⟩
  · intro demandId request found
    simp only [Session.bridge]
    rw [works.nextDemandId]
    exact ranged.requests demandId request found
  · intro command member
    simp only [Session.bridge] at member
    rw [works.commands] at member
    exact ranged.queued command member

theorem readable_range {route : StreamRoute} {bodyRange range : ByteRange} {position : Nat}
    (known : 0 < route.pieceSize ∧ route.pieceSize ≤ uint32Max ∧ Indexed route)
    (inside : bodyRange.last < route.fileSize)
    (made : blockingDemandRange bodyRange position route.fileOffset route.pieceSize = .ok range) :
    Readable route range :=
  (@blockingRange_readable ⟨fun _ => route.torrentId, fun _ => True⟩ route bodyRange range position
    ⟨known.1, known.2.1, known.2.2, rfl⟩ inside made).1

theorem enqueue_member {state : BridgeState} {command other : HttpCommand}
    (member : other ∈ ((state.enqueue command).getD state).commands) :
    other ∈ state.commands ∨ other = command := by
  unfold BridgeState.enqueue at member
  split at member
  · exact .inl member
  · split at member
    · exact .inl member
    · rcases List.mem_append.mp member with old | new
      · exact .inl old
      · exact .inr (List.mem_singleton.mp new)

theorem enqueue_thins (state : BridgeState) (command : HttpCommand) :
    Thins state ((state.enqueue command).getD state) := by
  unfold BridgeState.enqueue
  split
  · exact Thins.same rfl
  · split
    · exact Thins.same rfl
    · exact Thins.same rfl

theorem enqueue_nextDemandId (state : BridgeState) (command : HttpCommand) :
    ((state.enqueue command).getD state).nextDemandId = state.nextDemandId := by
  unfold BridgeState.enqueue
  split
  · rfl
  · split <;> rfl

theorem queue (ranged : Ranged session) {next : Session} {command : HttpCommand} {state : BridgeState}
    (bridge : next.bridge = (state.enqueue command).getD state)
    (registered : next.system.registered = session.system.registered)
    (consistent : Consistent next.system) (window : state.window = session.bridge.window)
    (commands : state.commands = session.bridge.commands)
    (demands : state.activeDemands = session.bridge.activeDemands)
    (requests : ∀ demandId request, session.requests demandId = some request →
      next.requests demandId = some request)
    (known : ∀ demandId request, next.requests demandId = some request →
      demandId < state.nextDemandId ∧ request.route ∈ session.system.registered ∧
        request.bodyRange.last < request.route.fileSize)
    (carries : Carries next command) : Ranged next := by
  obtain ⟨capacity, same⟩ := ranged.window
  have grown : ∀ {other}, Carries session other → Carries next other := by
    intro other carried kind
    obtain ⟨request, found, rest⟩ := carried kind
    exact ⟨request, requests _ request found, rest⟩
  refine ⟨consistent, registered ▸ ranged.routes, ?_, ?_, ?_, capacity, ?_⟩
  · intro demandId request found
    rw [bridge, enqueue_nextDemandId, registered]
    exact known demandId request found
  · rw [bridge]
    intro demandId demand found
    obtain ⟨old, present, route, range⟩ := enqueue_thins state command demandId demand found
    rw [demands] at present
    obtain ⟨request, asked, own, readable⟩ := ranged.demands demandId old present
    exact ⟨request, requests _ request asked, route.symm.trans own, route ▸ range ▸ readable⟩
  · intro other member
    rw [bridge] at member
    rcases enqueue_member member with old | rfl
    · rw [commands] at old
      exact grown (ranged.queued other old)
    · exact carries
  · rw [bridge, enqueue_window, window]
    exact same

theorem beginRequest (ranged : Ranged session) {route : StreamRoute} {bodyRange : ByteRange}
    (member : route ∈ session.system.registered) (inside : bodyRange.last < route.fileSize) :
    Ranged (session.perform (.beginRequest route bodyRange)) := by
  have consistent := ranged.consistent.beginRequest bodyRange member (Nat.zero_lt_of_lt inside)
  have requests : ∀ demandId request, session.requests demandId = some request →
      Function.update session.requests session.bridge.nextDemandId (some ⟨route, bodyRange⟩) demandId =
        some request := by
    intro demandId request found
    rw [Function.update_of_ne, found]
    exact Nat.ne_of_lt (ranged.requests demandId request found).1
  have known : ∀ demandId request,
      Function.update session.requests session.bridge.nextDemandId (some ⟨route, bodyRange⟩) demandId =
        some request → demandId < session.bridge.nextDemandId + 1 ∧
        request.route ∈ session.system.registered ∧ request.bodyRange.last < request.route.fileSize := by
    intro demandId request found
    rw [Function.update_apply] at found
    split at found
    · rename_i same
      obtain rfl := Option.some.inj found
      exact ⟨by omega, member, inside⟩
    · obtain ⟨number, rest⟩ := ranged.requests demandId request found
      exact ⟨by omega, rest⟩
  obtain ⟨capacity, window⟩ := ranged.window
  rcases beginRequest_cases session.bridge route bodyRange with same | ⟨range, made, same⟩
  · refine ⟨consistent, ranged.routes, ?_, ?_, ?_, capacity, ?_⟩
    · intro demandId request found
      change demandId < (session.bridge.beginRequest route bodyRange).nextDemandId ∧ _
      rw [same]
      exact known demandId request found
    · change Reading _ (session.bridge.beginRequest route bodyRange)
      rw [same]
      intro demandId demand found
      obtain ⟨request, asked, rest⟩ := ranged.demands demandId demand found
      exact ⟨request, requests _ request asked, rest⟩
    · intro command queued kind
      change command ∈ (session.bridge.beginRequest route bodyRange).commands at queued
      rw [same] at queued
      obtain ⟨request, asked, rest⟩ := ranged.queued command queued kind
      exact ⟨request, requests _ request asked, rest⟩
    · change (session.bridge.beginRequest route bodyRange).window = _
      rw [same]
      exact window
  · exact ranged.queue same rfl consistent rfl rfl rfl requests known fun _ =>
      ⟨_, Function.update_self _ _ _, rfl, readable_range (ranged.routes route member) inside made⟩

theorem readRequest (ranged : Ranged session) {request : StreamRequest} {demandId position : Nat}
    (asked : session.requests demandId = some request) :
    Ranged (session.perform (.readRequest demandId position)) := by
  simp only [Session.perform, asked, Option.bind_some, StreamRequest.command]
  cases made : blockingDemandRange request.bodyRange position request.route.fileOffset
      request.route.pieceSize with
  | error message => exact ranged
  | ok range =>
      obtain ⟨_, member, inside⟩ := ranged.requests demandId request asked
      refine ranged.queue rfl rfl (ranged.consistent.readRequest rfl) rfl rfl rfl (fun _ _ found => found)
        ranged.requests fun _ => ⟨request, asked, rfl, ?_⟩
      exact readable_range (ranged.routes request.route member) inside made

theorem register (ranged : Ranged session) {lt : Libtorrent} {token : String} {handle : Nat}
    {id : String} {fileIndex : Nat} {file : TorrentFileInfo}
    (unused : token ∉ session.system.registered.map StreamRoute.streamId) (named : id ≠ "")
    (indexed : ∀ route, routeFor lt session.bridge token handle id fileIndex file = .ok route →
      Indexed route) :
    Ranged (session.perform (.work (.register lt token handle id fileIndex file))) := by
  have consistent := ranged.consistent.register lt handle fileIndex file unused named
  obtain ⟨capacity, window⟩ := ranged.window
  simp only [Session.perform, System.perform, BridgeState.perform, registerStream] at consistent ⊢
  cases made : routeFor lt session.system.bridge token handle id fileIndex file with
  | error thrown => exact ranged
  | ok route =>
      rw [made] at consistent
      obtain ⟨metadata, savePath, positive, _, same⟩ := routeFor_eq_ok made
      have sliced : 0 < route.pieceSize := by
        rw [same]
        exact positive
      have narrow : route.pieceSize ≤ uint32Max := by
        have fits := metadata.pieceLengthFits
        rw [same]
        simp only [newRoute, uint32Max]
        omega
      have stops := vacated_works lt session.system.bridge route
      have adds := addRoute_works lt session.system.bridge sliced
      have commands := adds.commands.trans stops.commands
      have number := adds.nextDemandId.trans stops.nextDemandId
      refine ⟨consistent, ?_, ?_, ranged.demands.thins (addRoute_thins lt _ sliced), ?_, capacity,
        (adds.window.trans stops.window).trans window⟩
      · intro other member
        rcases List.mem_cons.mp member with rfl | old
        · exact ⟨sliced, narrow, indexed _ made⟩
        · exact ranged.routes other old
      · intro demandId request found
        obtain ⟨below, member, inside⟩ := ranged.requests demandId request found
        refine ⟨?_, List.mem_cons_of_mem _ member, inside⟩
        simp only [Session.bridge]
        rw [number]
        exact below
      · intro command member
        simp only [Session.bridge] at member
        rw [commands] at member
        exact ranged.queued command member

theorem poll (ranged : Ranged session) {answers : PollAnswers}
    (quiet : (session.bridge.poll answers).2 = false) :
    Ranged (session.perform (.work (.poll answers))) := by
  obtain ⟨capacity, window⟩ := ranged.window
  have works := poll_works session.bridge answers
  have emptied : (session.bridge.poll answers).1.commands = [] := works.commands
  refine ⟨ranged.consistent.poll answers quiet, ranged.routes, ?_,
    ranged.demands.poll ranged.queued answers, ?_, capacity, works.window.trans window⟩
  · intro demandId request found
    change demandId < (session.bridge.poll answers).1.nextDemandId ∧ _
    rw [works.nextDemandId]
    exact ranged.requests demandId request found
  · intro command member
    change command ∈ (session.bridge.poll answers).1.commands at member
    rw [emptied] at member
    simp at member

theorem endRequest (ranged : Ranged session) (demandId : Nat) :
    Ranged (session.perform (.work (.endRequest demandId))) := by
  have possible : session.system.Possible (.endRequest demandId) := trivial
  refine ⟨ranged.consistent.perform possible, ranged.routes, ranged.requests, ranged.demands, ?_,
    ranged.window⟩
  intro command member
  rcases List.mem_append.mp member with old | new
  · exact ranged.queued command old
  · intro kind
    rw [List.mem_singleton.mp new] at kind
    exact absurd rfl kind

theorem work (ranged : Ranged session) {action : Action}
    (possible : session.Possible (.work action)) : Ranged (session.perform (.work action)) := by
  obtain ⟨allowed, promised⟩ := possible
  have consistent := ranged.consistent.perform allowed
  cases action with
  | register lt token handle id fileIndex file => exact ranged.register allowed.1 allowed.2 promised
  | stop lt streamId =>
      exact ranged.works consistent (stopStream_works lt _ streamId) (stopStream_thins lt _ streamId)
  | remove lt id =>
      exact ranged.works consistent (removeTorrent_works lt _ id) (removeTorrent_thins lt _ id)
  | poll answers => exact ranged.poll allowed
  | readPieceAlert alert =>
      refine ranged.works consistent (Works.ofLeaves (handleReadPiece_leaves _ alert)) ?_
      intro demandId demand found
      obtain ⟨old, present, route, range, _⟩ :=
        (handleReadPiece_eases _ alert).holds.demands demandId demand found
      exact ⟨old, present, route, range⟩
  | blockFinished lt torrentId piece block =>
      exact ranged.works consistent
        (Works.ofLeaves (handleBlockFinished_leaves lt _ torrentId piece block))
        (handleBlockFinished_thins lt _ torrentId piece block)
  | hashFailed torrentId piece =>
      refine ranged.works consistent (Works.ofLeaves (handleHashFailed_leaves _ torrentId piece)) ?_
      intro demandId demand found
      obtain ⟨old, present, route, range, _⟩ :=
        (handleHashFailed_eases _ torrentId piece).holds.demands demandId demand found
      exact ⟨old, present, route, range⟩
  | beginRequest route bodyRange => exact absurd promised id
  | readRequest command => exact absurd promised id
  | endRequest demandId => exact ranged.endRequest demandId
  | popExpired | acquireRequest streamId | releaseRequest streamId now | abandonWaiter waiter =>
      exact ranged.works consistent ((Works.refl _).congr rfl rfl rfl rfl) (Thins.same rfl)

end Ranged

theorem Session.Reachable.ranged {session : Session} (reached : session.Reachable) : Ranged session := by
  have starts : ∀ session : Session, session.Initial → Ranged session := fun _ begins =>
    .initial begins
  have keeps : ∀ (session : Session) action, Ranged session → session.Possible action →
      Ranged (session.perform action) := by
    intro session action ranged possible
    cases action with
    | beginRequest route bodyRange => exact ranged.beginRequest possible.1 possible.2.2
    | readRequest demandId position =>
        obtain ⟨request, asked, _⟩ := possible
        exact ranged.readRequest asked
    | work action => exact ranged.work possible
  exact Transition.Reachable.invariant starts keeps reached

theorem Ranged.readable {session : Session} (ranged : Ranged session) :
    ∀ demandId demand, session.bridge.activeDemands.lookup demandId = some demand →
      Readable demand.route demand.range := by
  intro demandId demand found
  obtain ⟨_, _, _, readable⟩ := ranged.demands demandId demand found
  exact readable

end NuvioEngine.Bridge
