import NuvioEngine.Bridge.Readers

/-!
Runs of the bridge together with its HTTP threads. In every state they reach, the piece that an open
waiter of a hungry reader waits for was asked of libtorrent.
-/

namespace NuvioEngine.Bridge

open NuvioEngine.Scheduler NuvioEngine.Stream NuvioEngine.Cache BridgeState

/-- What holds between the worker, its queue and the HTTP threads. -/
structure Attended (handles : Handles) (session : Session) : Prop where
  consistent : Consistent session.system
  disciplined : Disciplined handles session session.bridge session.bridge.commands
  served : Served handles (fun _ => False) session.bridge
  window : ∃ capacity, session.bridge.window = streamWindow capacity

theorem streamWindow_sum (diskCapacityBytes : Nat) :
    (streamWindow diskCapacityBytes).criticalBytes + (streamWindow diskCapacityBytes).playbackBytes <
      2 ^ 64 := by
  have critical : (streamWindow diskCapacityBytes).criticalBytes = 8388608 := rfl
  have playback : (streamWindow diskCapacityBytes).playbackBytes = 33554432 := rfl
  omega

section Attend

variable {handles : Handles} {session : Session}

theorem Attended.tended (attended : Attended handles session) :
    Tended handles (fun _ => False) (fun _ => False) session.bridge := by
  obtain ⟨capacity, window⟩ := attended.window
  refine ⟨attended.consistent.routing, attended.served, ?_, ?_, ?_⟩
  · intro target route found
    exact (attended.disciplined.routes route (attended.consistent.known target route found)).2.2.2
  · rw [window]
    exact streamWindow_sum capacity
  · intro demandId demand found
    obtain ⟨_, _, _, readable⟩ := attended.disciplined.demands demandId demand found
    exact readable

theorem Attended.initial (begins : session.Initial) : Attended handles session := by
  obtain ⟨system, starts, rfl⟩ := begins
  have consistent := Consistent.initial starts
  obtain ⟨memoryCapacityBytes, diskCapacityBytes, inactivity, rfl⟩ := starts
  have none : ∀ key waiter, ¬ Held (.create memoryCapacityBytes diskCapacityBytes inactivity) key
      waiter := by
    rintro key waiter ⟨list, found, _⟩
    simp [BridgeState.create] at found
  refine ⟨consistent, ⟨by simp, by simp, ?_, fun key waiter held => absurd held (none key waiter),
    by simp, ?_, List.Pairwise.nil⟩, ⟨?_, ?_, fun key waiter _ held => absurd held (none key waiter),
    fun key waiter _ held => absurd held (none key waiter)⟩, diskCapacityBytes, rfl⟩
  · intro demandId demand found
    simp [Session.bridge, BridgeState.create] at found
  · intro command member
    simp [Session.bridge, BridgeState.create] at member
  · intro id schedule found
    simp [Session.bridge, BridgeState.create] at found
  · intro id schedule found
    simp [Session.bridge, BridgeState.create] at found

theorem blockingRange_readable {route : StreamRoute} {bodyRange range : ByteRange} {position : Nat}
    (known : 0 < route.pieceSize ∧ route.pieceSize ≤ uint32Max ∧ Indexed route ∧
      handles.torrentOf route.handle = route.torrentId)
    (inside : bodyRange.last < route.fileSize)
    (made : blockingDemandRange bodyRange position route.fileOffset route.pieceSize = .ok range) :
    Readable route range ∧ range.start = position := by
  obtain ⟨sliced, narrow, indexed, _⟩ := known
  have fits := indexed.1
  unfold blockingDemandRange at made
  split at made
  · simp at made
  · split at made
    · simp at made
    · rename_i within
      simp only [not_or, not_lt, gt_iff_lt] at within
      simp only [Except.ok.injEq] at made
      subst made
      refine ⟨⟨sliced, narrow, indexed, ?_, ?_⟩, rfl⟩
      · simp only [saturatingAdd]
        split
        · omega
        · omega
      · simp only
        omega

theorem Attended.works (attended : Attended handles session) {system : System}
    (registered : system.registered = session.system.registered) (consistent : Consistent system)
    (works : Works session.bridge system.bridge) (holds : Holds session.bridge system.bridge)
    (served : Served handles (fun _ => False) system.bridge) :
    Attended handles { session with system := system } := by
  obtain ⟨capacity, window⟩ := attended.window
  have disciplined := attended.disciplined.holds holds works.nextDemandId
  refine ⟨consistent, ⟨?_, ?_, disciplined.demands, disciplined.held, disciplined.ordered, ?_, ?_⟩,
    served, capacity, works.window.trans window⟩
  · rw [registered]
    exact disciplined.routes
  · rw [registered]
    exact disciplined.requests
  · have commands : system.bridge.commands = session.bridge.commands := works.commands
    rw [Session.bridge, commands]
    exact disciplined.queued
  · have commands : system.bridge.commands = session.bridge.commands := works.commands
    rw [Session.bridge, commands]
    exact disciplined.sequence

theorem Proper.grow {state : BridgeState} {command : HttpCommand} (proper : Proper session state command)
    {later : Session} {next : BridgeState}
    (requests : ∀ demandId request, session.requests demandId = some request →
      later.requests demandId = some request) (fewer : session.nextWaiter ≤ later.nextWaiter)
    (heap : ∀ waiter < session.nextWaiter, (next.waiters waiter).demandId =
      (state.waiters waiter).demandId)
    (held : ∀ key waiter, Held next key waiter → Held state key waiter ∧ waiter < session.nextWaiter) :
    Proper later next command := by
  unfold Proper at proper ⊢
  split at proper
  · obtain ⟨request, known, route, readable, unused⟩ := proper
    refine ⟨request, requests _ _ known, route, readable, ?_⟩
    intro key waiter waits
    obtain ⟨before, old⟩ := held key waiter waits
    rw [heap waiter old]
    exact unused key waiter before
  · trivial
  · obtain ⟨request, waiter, known, route, readable, piece, own, fresh, demand, newest⟩ := proper
    refine ⟨request, waiter, requests _ _ known, route, readable, piece, own,
      Nat.lt_of_lt_of_le fresh fewer, (heap waiter fresh).trans demand, ?_⟩
    intro key other waits
    exact newest key other (held key other waits).1

theorem Disciplined.append {state : BridgeState} {queue : List HttpCommand}
    (disciplined : Disciplined handles session state queue) (command : HttpCommand) (proper : Proper session state command)
    (last : ∀ first ∈ queue, Precedes first command) :
    Disciplined handles session state (queue ++ [command]) := by
  refine ⟨disciplined.routes, disciplined.requests, disciplined.demands, disciplined.held,
    disciplined.ordered, ?_, ?_⟩
  · intro other member
    rcases List.mem_append.mp member with old | new
    · exact disciplined.queued other old
    · rw [List.mem_singleton.mp new]
      exact proper
  · rw [List.pairwise_append]
    refine ⟨disciplined.sequence, List.pairwise_singleton _ _, ?_⟩
    intro first member other new
    rw [List.mem_singleton.mp new]
    exact last first member

theorem Disciplined.number {state : BridgeState} {queue : List HttpCommand}
    (disciplined : Disciplined handles session state queue) {route : StreamRoute}
    {bodyRange : ByteRange} (known : route ∈ session.system.registered)
    (ordered : bodyRange.start ≤ bodyRange.last) (inside : bodyRange.last < route.fileSize)
    (system : System) (registered : system.registered = session.system.registered) :
    Disciplined handles { session with
        system := system
        requests := Function.update session.requests state.nextDemandId (some ⟨route, bodyRange⟩) }
      { state with nextDemandId := state.nextDemandId + 1 } queue := by
  have requests : ∀ demandId request, session.requests demandId = some request →
      Function.update session.requests state.nextDemandId (some ⟨route, bodyRange⟩) demandId =
        some request := by
    intro demandId request found
    rw [Function.update_of_ne, found]
    exact Nat.ne_of_lt (disciplined.requests demandId request found).1
  refine ⟨?_, ?_, ?_, ?_, disciplined.ordered, ?_, disciplined.sequence⟩
  · rw [registered]
    exact disciplined.routes
  · rw [registered]
    intro demandId request found
    by_cases same : demandId = state.nextDemandId
    · simp only [same, Function.update_self, Option.some.injEq] at found
      subst found
      exact ⟨by simp only; omega, known, ordered, inside⟩
    · simp only [Function.update_of_ne same] at found
      obtain ⟨before, rest⟩ := disciplined.requests demandId request found
      exact ⟨Nat.lt_succ_of_lt before, rest⟩
  · intro demandId demand found
    obtain ⟨request, present, route, readable⟩ := disciplined.demands demandId demand found
    exact ⟨request, requests demandId request present, route, readable⟩
  · intro key waiter held
    obtain ⟨old, request⟩ := disciplined.held key waiter held
    obtain ⟨request, present⟩ := Option.isSome_iff_exists.mp request
    exact ⟨old, Option.isSome_iff_exists.mpr ⟨request, requests _ request present⟩⟩
  · intro command member
    exact (disciplined.queued command member).grow requests le_rfl (fun _ _ => rfl)
      fun key waiter held => ⟨held, (disciplined.held key waiter held).1⟩

theorem Disciplined.enqueue {state : BridgeState} {command : HttpCommand}
    (disciplined : Disciplined handles session state state.commands)
    (proper : Proper session state command)
    (last : ∀ first ∈ state.commands, Precedes first command) :
    Disciplined handles session ((state.enqueue command).getD state)
      ((state.enqueue command).getD state).commands := by
  unfold BridgeState.enqueue
  split
  · exact disciplined
  · split
    · exact disciplined
    · exact (disciplined.append command proper last).holds (Holds.same rfl rfl rfl) rfl

theorem Served.enqueue {state : BridgeState} {command : HttpCommand}
    (served : Served handles (fun _ => False) state) :
    Served handles (fun _ => False) ((state.enqueue command).getD state) := by
  unfold BridgeState.enqueue
  split
  · exact served
  · split
    · exact served
    · exact served.congr rfl rfl rfl rfl rfl rfl

theorem enqueue_window (state : BridgeState) (command : HttpCommand) :
    ((state.enqueue command).getD state).window = state.window := by
  unfold BridgeState.enqueue
  split
  · rfl
  · split <;> rfl

theorem beginRequest_cases (state : BridgeState) (route : StreamRoute) (bodyRange : ByteRange) :
    state.beginRequest route bodyRange = { state with nextDemandId := state.nextDemandId + 1 } ∨
      ∃ range, blockingDemandRange bodyRange bodyRange.start route.fileOffset route.pieceSize =
          .ok range ∧
        state.beginRequest route bodyRange =
          ({ state with nextDemandId := state.nextDemandId + 1 }.enqueue
            ⟨.beginDemand, state.nextDemandId, route, range, 0, none, some state.nextDemandId⟩).getD
            { state with nextDemandId := state.nextDemandId + 1 } := by
  unfold BridgeState.beginRequest
  simp only
  split
  · exact Or.inl rfl
  · rename_i range made
    exact Or.inr ⟨range, made, rfl⟩

theorem Attended.beginRequest (attended : Attended handles session) {route : StreamRoute}
    {bodyRange : ByteRange} (known : route ∈ session.system.registered)
    (ordered : bodyRange.start ≤ bodyRange.last) (inside : bodyRange.last < route.fileSize) :
    Attended handles (session.perform (.beginRequest route bodyRange)) := by
  have consistent := attended.consistent.beginRequest bodyRange known (Nat.zero_lt_of_lt inside)
  have disciplined := attended.disciplined
  obtain ⟨capacity, window⟩ := attended.window
  have numbered := fun bridge => disciplined.number known ordered inside
    ⟨bridge, session.system.registered⟩ rfl
  have served : Served handles (fun _ => False)
      { session.bridge with nextDemandId := session.bridge.nextDemandId + 1 } :=
    attended.served.congr rfl rfl rfl rfl rfl rfl
  change Attended handles { session with
    system := ⟨session.system.bridge.beginRequest route bodyRange, session.system.registered⟩
    requests := Function.update session.requests session.bridge.nextDemandId (some ⟨route, bodyRange⟩) }
  rcases beginRequest_cases session.system.bridge route bodyRange with same | ⟨range, made, same⟩
  · rw [same] at consistent ⊢
    exact ⟨consistent, numbered _, served, capacity, window⟩
  · rw [same] at consistent ⊢
    have readable := (blockingRange_readable (disciplined.routes route known) inside made).1
    refine ⟨consistent, Disciplined.enqueue (numbered _)
      ⟨_, Function.update_self _ _ _, rfl, readable, ?_⟩ ?_, served.enqueue, capacity,
      (enqueue_window _ _).trans window⟩
    · intro key waiter held same
      obtain ⟨_, present⟩ := disciplined.held key waiter held
      obtain ⟨request, found⟩ := Option.isSome_iff_exists.mp present
      exact absurd same (Nat.ne_of_lt (disciplined.requests _ request found).1)
    · intro first member kind
      refine ⟨by simp, fun _ => ?_⟩
      obtain ⟨request, found, _⟩ := (disciplined.queued first member).carries (by simp [kind])
      exact Nat.ne_of_lt (disciplined.requests _ request found).1

theorem Disciplined.create {state : BridgeState} {queue : List HttpCommand}
    (disciplined : Disciplined handles session state queue) {demandId : Nat}
    (closed : ∀ waiter < session.nextWaiter, (state.waiters waiter).demandId = demandId →
      finished (state.waiters waiter) = true) (system : System)
    (registered : system.registered = session.system.registered) :
    Disciplined handles { session with system := system, nextWaiter := session.nextWaiter + 1 }
      { state with waiters :=
          Function.update state.waiters session.nextWaiter { demandId := demandId } } queue := by
  have older : ∀ waiter < session.nextWaiter, Function.update state.waiters session.nextWaiter
      { demandId := demandId } waiter = state.waiters waiter :=
    fun waiter old => Function.update_of_ne (Nat.ne_of_lt old) _ _
  refine ⟨?_, ?_, disciplined.demands, ?_, ?_, ?_, disciplined.sequence⟩
  · rw [registered]
    exact disciplined.routes
  · rw [registered]
    exact disciplined.requests
  · intro key waiter held
    obtain ⟨old, request⟩ := disciplined.held key waiter held
    simp only [older waiter old]
    exact ⟨Nat.lt_succ_of_lt old, request⟩
  · intro first second below fresh same
    have firstOld : first < session.nextWaiter := by
      simp only at fresh
      omega
    simp only [older first firstOld] at same ⊢
    by_cases newest : second = session.nextWaiter
    · simp only [newest, Function.update_self] at same
      exact closed first firstOld same
    · have secondOld : second < session.nextWaiter := by
        simp only at fresh
        omega
      simp only [older second secondOld] at same
      exact disciplined.ordered first second below secondOld same
  · intro command member
    refine (disciplined.queued command member).grow (fun _ _ found => found) (Nat.le_succ _) ?_ ?_
    · intro waiter old
      simp only [older waiter old]
    · intro key waiter held
      exact ⟨held, (disciplined.held key waiter held).1⟩

theorem Served.create {state : BridgeState} (served : Served handles (fun _ => False) state)
    (fresh : Nat) (unheld : ∀ key waiter, Held state key waiter → waiter ≠ fresh)
    (waiter : PieceWaiter) :
    Served handles (fun _ => False)
      { state with waiters := Function.update state.waiters fresh waiter } := by
  have older : ∀ key other, Held state key other →
      Function.update state.waiters fresh waiter other = state.waiters other :=
    fun key other held => Function.update_of_ne (unheld key other held) _ _
  refine ⟨served.named, served.asked, ?_, ?_⟩
  · intro key other demand held past active
    simp only at past active
    rw [older key other held] at past active
    exact served.placed key other demand held past active
  · intro key other demand held past active
    simp only at past active
    rw [older key other held] at past active
    exact served.awaited key other demand held past active

theorem Attended.readRequest (attended : Attended handles session) {request : StreamRequest}
    {demandId position : Nat} (asked : session.requests demandId = some request)
    (closed : ∀ waiter < session.nextWaiter, (session.bridge.waiters waiter).demandId = demandId →
      finished (session.bridge.waiters waiter) = true) :
    Attended handles (session.perform (.readRequest demandId position)) := by
  have disciplined := attended.disciplined
  obtain ⟨_, known, _, inside⟩ := disciplined.requests demandId request asked
  obtain ⟨capacity, window⟩ := attended.window
  simp only [Session.perform, asked, Option.bind_some]
  split
  · exact attended
  · rename_i command made
    unfold StreamRequest.command at made
    split at made
    · simp at made
    · rename_i range ranged
      obtain rfl := Option.some.inj made
      obtain ⟨readable, start⟩ :=
        blockingRange_readable (disciplined.routes request.route known) inside ranged
      have created := fun bridge => disciplined.create closed ⟨bridge, session.system.registered⟩ rfl
      have served := attended.served.create session.nextWaiter
        (fun key waiter held => Nat.ne_of_lt (disciplined.held key waiter held).1)
        { demandId := demandId }
      refine ⟨attended.consistent.readRequest rfl, Disciplined.enqueue (created _) ⟨request, session.nextWaiter, asked, rfl,
        readable, ?_, rfl, Nat.lt_succ_self _, ?_, ?_⟩ ?_, served.enqueue, capacity,
        (enqueue_window _ _).trans window⟩
      · rw [start]
      · simp only [Function.update_self]
      · intro key other held
        exact (disciplined.held key other held).1
      · intro first member kind
        refine ⟨?_, by simp⟩
        intro _ left right leftOwn rightOwn
        obtain ⟨_, waiter, own, fresh, _⟩ := (disciplined.queued first member).reads kind
        obtain rfl : waiter = left := Option.some.inj (own.symm.trans leftOwn)
        obtain rfl : session.nextWaiter = right := Option.some.inj rightOwn
        exact fresh

theorem Disciplined.register {state : BridgeState} {queue : List HttpCommand}
    (disciplined : Disciplined handles session state queue) {route : StreamRoute}
    (known : 0 < route.pieceSize ∧ route.pieceSize ≤ uint32Max ∧ Indexed route ∧
      handles.torrentOf route.handle = route.torrentId) (bridge : BridgeState) :
    Disciplined handles { session with system := ⟨bridge, route :: session.system.registered⟩ } state
      queue := by
  refine ⟨?_, ?_, disciplined.demands, disciplined.held, disciplined.ordered, disciplined.queued,
    disciplined.sequence⟩
  · intro other member
    rcases List.mem_cons.mp member with rfl | old
    · exact known
    · exact disciplined.routes other old
  · intro demandId request found
    obtain ⟨number, registered, rest⟩ := disciplined.requests demandId request found
    exact ⟨number, List.mem_cons_of_mem _ registered, rest⟩

theorem Attended.register (attended : Attended handles session) {lt : Libtorrent} {token : String}
    {handle : Nat} {id : String} {fileIndex : Nat} {file : TorrentFileInfo}
    (unused : token ∉ session.system.registered.map StreamRoute.streamId) (named : id ≠ "")
    (calm : handles.Calm lt) (owned : handles.torrentOf handle = id)
    (indexed : ∀ route, routeFor lt session.bridge token handle id fileIndex file = .ok route →
      Indexed route) :
    Attended handles (session.perform (.work (.register lt token handle id fileIndex file))) := by
  have consistent := attended.consistent.register lt handle fileIndex file unused named
  obtain ⟨capacity, window⟩ := attended.window
  simp only [Session.perform, System.perform, BridgeState.perform, registerStream] at consistent ⊢
  cases made : routeFor lt session.system.bridge token handle id fileIndex file with
  | error thrown => exact attended
  | ok route =>
      rw [made] at consistent
      have sized := indexed route made
      obtain ⟨metadata, savePath, positive, _, same⟩ := routeFor_eq_ok made
      have sliced : 0 < route.pieceSize := by
        rw [same]
        exact positive
      have narrow : route.pieceSize ≤ uint32Max := by
        have fits := metadata.pieceLengthFits
        rw [same]
        simp only [newRoute, uint32Max]
        omega
      have torrent : handles.torrentOf route.handle = route.torrentId := by
        rw [same]
        exact owned
      have fresh : session.bridge.routes.lookup route.target = none := by
        rw [same]
        exact attended.consistent.fresh unused
      obtain ⟨holds, served⟩ := attended.tended.addRoute calm route (by rw [same]; rfl)
        (by rw [same]; exact named) fresh sliced torrent
      have stops := vacated_works lt session.system.bridge route
      have adds := addRoute_works lt session.system.bridge sliced
      have disciplined := (attended.disciplined.holds holds
        (adds.nextDemandId.trans stops.nextDemandId)).register ⟨sliced, narrow, sized, torrent⟩
          (addRoute lt session.system.bridge route)
      refine ⟨consistent, ?_, served, capacity, (adds.window.trans stops.window).trans window⟩
      have commands := adds.commands.trans stops.commands
      simp only [Session.bridge] at disciplined ⊢
      rw [commands]
      exact disciplined

theorem Attended.poll (attended : Attended handles session) (answers : PollAnswers)
    (command : ∀ position, handles.Calm (answers.command position))
    (recompute : ∀ id, handles.Calm (answers.recompute id)) (watchdog : handles.Calm answers.watchdog)
    (expired : ∀ id, handles.Calm (answers.expired id))
    (quiet : (session.bridge.poll answers).2 = false) :
    Attended handles (session.perform (.work (.poll answers))) := by
  obtain ⟨disciplined, served⟩ := attended.tended.poll attended.disciplined
    (fun _ member => attended.consistent.issued member) answers command recompute watchdog expired quiet
  obtain ⟨capacity, window⟩ := attended.window
  have works := poll_works session.bridge answers
  refine ⟨attended.consistent.poll answers quiet, ?_, served, capacity, works.window.trans window⟩
  have emptied : (session.bridge.poll answers).1.commands = [] := works.commands
  change Disciplined handles _ (session.bridge.poll answers).1 (session.bridge.poll answers).1.commands
  rw [emptied]
  exact ⟨disciplined.routes, disciplined.requests, disciplined.demands, disciplined.held,
    disciplined.ordered, by simp, List.Pairwise.nil⟩

theorem Attended.endRequest (attended : Attended handles session) (demandId : Nat) :
    Attended handles (session.perform (.work (.endRequest demandId))) := by
  have possible : session.system.Possible (.endRequest demandId) := trivial
  refine ⟨attended.consistent.perform possible, ?_, attended.served.congr rfl rfl rfl rfl rfl rfl,
    attended.window⟩
  have ended := (attended.disciplined.append ⟨.endDemand, demandId,
    ⟨0, "", "", "", "", 0, 0, 0, 0, ""⟩, ⟨0, 0⟩, 0, none, none⟩ trivial
    fun _ _ _ => ⟨by simp, by simp⟩).holds (Holds.same rfl rfl rfl) rfl
  exact ⟨ended.routes, ended.requests, ended.demands, ended.held, ended.ordered, ended.queued,
    ended.sequence⟩

theorem Attended.work (attended : Attended handles session) {action : Action}
    (possible : session.system.Possible action) (answers : handles.Answers session action) :
    Attended handles (session.perform (.work action)) := by
  have consistent := attended.consistent.perform possible
  have tended := attended.tended
  have eased : ∀ next : BridgeState, Consistent ⟨next, session.system.registered⟩ →
      Works session.bridge next → Eases session.bridge next →
      Attended handles { session with system := ⟨next, session.system.registered⟩ } :=
    fun next agrees works eases => attended.works rfl agrees works eases.holds
      (attended.served.eases eases)
  have untouched : ∀ next : BridgeState, Consistent ⟨next, session.system.registered⟩ →
      next = { session.bridge with
        expiredStreams := next.expiredStreams, activities := next.activities } →
      Attended handles { session with system := ⟨next, session.system.registered⟩ } := by
    intro next agrees same
    rw [same] at agrees ⊢
    exact eased _ agrees ((Works.refl _).congr rfl rfl rfl rfl)
      ((Eases.refl _).congr rfl rfl rfl rfl rfl rfl)
  cases action with
  | register lt token handle id fileIndex file =>
      exact attended.register possible.1 possible.2 answers.1 answers.2.1 answers.2.2
  | stop lt streamId =>
      obtain ⟨holds, stopped⟩ := tended.stopStream answers streamId
      exact attended.works rfl consistent (stopStream_works lt _ streamId) holds stopped.served
  | remove lt id =>
      obtain ⟨holds, served⟩ := tended.removeTorrent answers id
      exact attended.works rfl consistent (removeTorrent_works lt _ id) holds served
  | poll polled =>
      obtain ⟨command, recompute, watchdog, expired⟩ := answers
      exact attended.poll polled command recompute watchdog expired possible
  | popExpired => exact untouched _ consistent rfl
  | readPieceAlert alert =>
      exact eased _ consistent (Works.ofLeaves (handleReadPiece_leaves _ alert)) (handleReadPiece_eases _ alert)
  | blockFinished lt torrentId piece block =>
      obtain ⟨holds, served⟩ := tended.handleBlockFinished answers torrentId piece block
      exact attended.works rfl consistent (Works.ofLeaves (handleBlockFinished_leaves lt _ torrentId piece block)) holds
        served
  | hashFailed torrentId piece =>
      exact eased _ consistent (Works.ofLeaves (handleHashFailed_leaves _ torrentId piece))
        (handleHashFailed_eases _ torrentId piece)
  | acquireRequest streamId => exact untouched _ consistent rfl
  | releaseRequest streamId now => exact untouched _ consistent rfl
  | beginRequest route bodyRange => exact absurd answers id
  | readRequest command => exact absurd answers id
  | endRequest demandId => exact attended.endRequest demandId
  | abandonWaiter waiter =>
      refine eased _ consistent ((Works.refl _).congr rfl rfl rfl rfl)
        (updateWaiter_eases _ waiter rfl fun _ => ?_)
      simp [finished]

theorem Attended.perform (attended : Attended handles session) {action : SessionAction}
    (possible : handles.Possible session action) : Attended handles (session.perform action) := by
  cases action with
  | beginRequest route bodyRange =>
      obtain ⟨known, ordered, inside⟩ := possible
      exact attended.beginRequest known ordered inside
  | readRequest demandId position =>
      obtain ⟨request, asked, _, _, closed⟩ := possible
      exact attended.readRequest asked closed
  | work action => exact attended.work possible.1 possible.2

end Attend

theorem reachable_attended {handles : Handles} {session : Session}
    (reached : handles.Reachable session) : Attended handles session :=
  reached.invariant (fun _ begins => Attended.initial begins)
    (fun _ _ attended possible => attended.perform possible)

/-- The piece of every open waiter of a reader that needs data has been asked of libtorrent. -/
theorem reachable_readers_served {handles : Handles} {session : Session}
    (reached : handles.Reachable session) {key : PieceKey} {waiter : Nat} {demand : ActiveDemand}
    (held : Held session.bridge key waiter)
    (waits : finished (session.bridge.waiters waiter) = false)
    (active : session.bridge.activeDemands.lookup (session.bridge.waiters waiter).demandId = some demand)
    (needs : demand.needsData = true) (valid : handles.valid demand.route.handle) :
    key.piece = (demand.route.fileOffset + demand.range.start) / demand.route.pieceSize ∧
      ∃ schedule, session.bridge.currentSchedules.lookup key.torrentId = some schedule ∧
        schedule.handle = demand.route.handle ∧
        schedule.priorities.lookup key.piece = some .blocking ∧
        key.piece ∈ schedule.deadlineOrder ∧
        (session.bridge.requestedReads.lookup key).isSome ∧
        asked schedule.handle key.piece session.bridge.calls = true := by
  have attended := reachable_attended reached
  have tended := attended.tended
  obtain ⟨torrent, piece⟩ := tended.served.placed key waiter demand held waits active
  obtain ⟨schedule, found, blocking, listed, read⟩ :=
    tended.served.awaited key waiter demand held waits active needs valid id
  have handle : schedule.handle = demand.route.handle :=
    schedule_handle tended.routing active (torrent ▸ found)
  refine ⟨?_, schedule, found, handle, blocking, listed, read, ?_⟩
  · rw [← piece]
    exact blockingPiece_eq (tended.readable _ demand active)
  · exact tended.served.asked _ schedule found (handle ▸ valid) key.piece listed read

def oneTorrent : Handles := { torrentOf := fun _ => "t", valid := fun _ => True }

theorem accepting_calm (info : TorrentInfo) : oneTorrent.Calm (.accepting info) :=
  ⟨fun _ _ => rfl, fun _ _ => rfl⟩

/-- A thread asks for the first piece of the two and the worker polls. -/
def firstRead : List SessionAction := [
  .work (.register (.accepting twoPieces) "a" 7 "t" 0 ⟨"video.mp4", 0, 32768⟩),
  .beginRequest twoPiecesRoute ⟨0, 32767⟩,
  .readRequest 1 0,
  .work (.poll ⟨fun _ => .accepting twoPieces, fun _ => .accepting twoPieces, .accepting twoPieces, 0,
    fun _ => .accepting twoPieces⟩)]

def firstSession (steps : Nat) : Session :=
  (firstRead.take steps).foldl Session.perform { system := { bridge := .create 1024 1024 0 } }

theorem firstSession_reachable : oneTorrent.Reachable (firstSession 4) := by
  have started : oneTorrent.Reachable (firstSession 0) := .start ⟨_, ⟨1024, 1024, 0, rfl⟩, rfl⟩
  have registers : oneTorrent.Possible (firstSession 0)
      (.work (.register (.accepting twoPieces) "a" 7 "t" 0 ⟨"video.mp4", 0, 32768⟩)) := by
    refine ⟨by decide, accepting_calm _, rfl, ?_⟩
    intro route made
    obtain rfl : twoPiecesRoute = route := Except.ok.inj made
    exact ⟨by decide, by decide⟩
  have registered : oneTorrent.Reachable (firstSession 1) := started.step _ registers
  have begins : oneTorrent.Possible (firstSession 1) (.beginRequest twoPiecesRoute ⟨0, 32767⟩) :=
    ⟨by decide +kernel, by decide, by decide⟩
  have begun : oneTorrent.Reachable (firstSession 2) := registered.step _ begins
  have reads : oneTorrent.Possible (firstSession 2) (.readRequest 1 0) :=
    ⟨⟨twoPiecesRoute, ⟨0, 32767⟩⟩, by decide +kernel, by decide, by decide, by decide +kernel⟩
  have read : oneTorrent.Reachable (firstSession 3) := begun.step _ reads
  have polls : oneTorrent.Possible (firstSession 3) (.work (.poll ⟨fun _ => .accepting twoPieces,
      fun _ => .accepting twoPieces, .accepting twoPieces, 0, fun _ => .accepting twoPieces⟩)) := by
    refine ⟨?_, fun _ => accepting_calm _, fun _ => accepting_calm _, accepting_calm _,
      fun _ => accepting_calm _⟩
    decide +kernel
  exact read.step _ polls

theorem reachable_readers_served_first :
    ∃ session : Session, oneTorrent.Reachable session ∧ Held session.bridge ⟨"t", 0⟩ 0 ∧
      finished (session.bridge.waiters 0) = false ∧
      ∃ schedule, session.bridge.currentSchedules.lookup "t" = some schedule ∧
        0 ∈ schedule.deadlineOrder ∧ asked schedule.handle 0 session.bridge.calls = true := by
  have held : Held (firstSession 4).bridge ⟨"t", 0⟩ 0 := ⟨[0], by decide +kernel, by decide⟩
  have waits : finished ((firstSession 4).bridge.waiters 0) = false := by decide +kernel
  have active : (firstSession 4).bridge.activeDemands.lookup
      ((firstSession 4).bridge.waiters 0).demandId =
        some ⟨1, twoPiecesRoute, ⟨0, 16383⟩, some 1, true⟩ := by decide +kernel
  obtain ⟨_, schedule, found, _, _, listed, _, asked⟩ := reachable_readers_served firstSession_reachable
    held waits active rfl trivial
  exact ⟨_, firstSession_reachable, held, waits, schedule, found, listed, asked⟩

end NuvioEngine.Bridge
