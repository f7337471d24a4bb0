import NuvioEngine.Bridge.Consistency

/-!
The torrents with a stream: which operations give a torrent its stream, and what stopping and
expiring report about the torrents that lose it.
-/

namespace NuvioEngine.Bridge

open NuvioEngine.Scheduler NuvioEngine.Stream NuvioEngine.Cache BridgeState

variable {state next : BridgeState}

theorem hasStreamForTorrent_eq_true {id : String} :
    state.hasStreamForTorrent id = true ↔
      ∃ target route, state.routes.lookup target = some route ∧ route.torrentId = id := by
  rw [BridgeState.hasStreamForTorrent, List.any_eq_true]
  constructor
  · rintro ⟨⟨target, route⟩, member, same⟩
    exact ⟨target, route, (AList.lookup_eq_some_iff _ _ _).mpr member, of_decide_eq_true same⟩
  · rintro ⟨target, route, registered, same⟩
    exact ⟨⟨target, route⟩, (AList.lookup_eq_some_iff _ _ _).mp registered, decide_eq_true same⟩

theorem Works.streams (works : Works state next) {id : String}
    (streams : next.hasStreamForTorrent id = true) : state.hasStreamForTorrent id = true := by
  obtain ⟨target, route, registered, torrent⟩ := hasStreamForTorrent_eq_true.mp streams
  exact hasStreamForTorrent_eq_true.mpr ⟨target, route, works.routes target route registered, torrent⟩

theorem register_streams {lt : Libtorrent} {token : String} {handle : Nat} {id : String} {fileIndex : Nat}
    {file : TorrentFileInfo} {other : String}
    (streams : (state.perform (.register lt token handle id fileIndex file)).hasStreamForTorrent other =
      true) : other = id ∨ state.hasStreamForTorrent other = true := by
  simp only [BridgeState.perform, registerStream] at streams
  cases made : routeFor lt state token handle id fileIndex file with
  | error thrown =>
      rw [made] at streams
      exact .inr streams
  | ok route =>
      rw [made] at streams
      obtain ⟨metadata, savePath, sliced, _, rfl⟩ := routeFor_eq_ok made
      obtain ⟨target, route, registered, torrent⟩ :=
        hasStreamForTorrent_eq_true.mp ((addRoute_works lt state sliced).streams streams)
      simp only [AList.lookup_insert_ite] at registered
      split at registered
      · rw [← Option.some.inj registered] at torrent
        exact .inl torrent.symm
      · have before := (vacated_works lt state _).routes target route registered
        exact .inr (hasStreamForTorrent_eq_true.mpr ⟨target, route, before, torrent⟩)

theorem Routing.stopStream_id (routing : Routing (fun _ => False) state) (lt : Libtorrent)
    (streamId : String) :
    (BridgeState.stopStream lt state streamId).2 =
      (state.routes.lookup ("/stream/" ++ streamId)).elim "" StreamRoute.torrentId := by
  have routes : (state.eraseAnchor streamId).routes = state.routes := rfl
  have demands : (state.eraseAnchor streamId).activeDemands = state.activeDemands := rfl
  cases found : state.routes.lookup ("/stream/" ++ streamId) with
  | some route =>
      obtain ⟨_, _, named⟩ := routing.targets _ _ found
      have nonempty : route.torrentId.isEmpty = false := by simpa using named
      simp only [BridgeState.stopStream, routes, found, Option.elim_some, foldl_found _ named, nonempty]
      rfl
  | none =>
      simp only [BridgeState.stopStream, routes, demands, found, Option.elim_none,
        routing.unowned found, List.foldl_nil]
      rfl

theorem Routing.stopStream_streams (routing : Routing (fun _ => False) state) (lt : Libtorrent)
    {streamId : String} {route : StreamRoute}
    (found : state.routes.lookup ("/stream/" ++ streamId) = some route) :
    (BridgeState.stopStream lt state streamId).1.hasStreamForTorrent route.torrentId = false := by
  have stopped := routing.stopStream_eq lt streamId
  rw [found] at stopped
  refine hasStreamForTorrent_eq_false fun target other registered => ?_
  rw [stopped, (recomputeSchedule_leaves lt _ route.torrentId).routes] at registered
  exact (routing.stopped_stale found).2 target other registered

theorem stopStream_expiredStreams (lt : Libtorrent) (state : BridgeState) (streamId : String) :
    (BridgeState.stopStream lt state streamId).1.expiredStreams = state.expiredStreams := by
  have stops : (stopped state streamId).expiredStreams = state.expiredStreams :=
    (congrArg BridgeState.expiredStreams (stopped_stops state streamId)).trans rfl
  unfold BridgeState.stopStream
  simp only
  split
  · exact stops
  · exact (recomputeSchedule_leaves lt _ _).expiredStreams.trans stops

theorem stopStreams_expiredStreams (lt : Libtorrent) (streams : List String) (state : BridgeState) :
    (streams.foldl (fun current streamId => (BridgeState.stopStream lt current streamId).1)
      state).expiredStreams = state.expiredStreams := by
  induction streams generalizing state with
  | nil => rfl
  | cons streamId rest ih => exact (ih _).trans (stopStream_expiredStreams lt state streamId)

theorem addRoute_expiredStreams (lt : Libtorrent) (state : BridgeState) {route : StreamRoute}
    (sliced : 0 < route.pieceSize) :
    (addRoute lt state route).expiredStreams = state.expiredStreams := by
  have joins : (joined lt state route).expiredStreams = state.expiredStreams :=
    stopStreams_expiredStreams lt _ state
  rw [addRoute_eq lt sliced]
  split
  · exact (recomputeSchedule_leaves lt _ _).expiredStreams.trans joins
  · exact joins

theorem removeTorrent_expiredStreams (lt : Libtorrent) (state : BridgeState) (id : String) :
    (BridgeState.removeTorrent lt state id).expiredStreams = state.expiredStreams := by
  have removes : (removed state id).expiredStreams = state.expiredStreams :=
    (congrArg BridgeState.expiredStreams (removed_cancels state id)).trans rfl
  exact (Leaves.ofSends (removeTorrent_sends id lt)).expiredStreams.trans
    ((recomputeSchedule_leaves lt _ id).expiredStreams.trans removes)

theorem enqueue_routes (state : BridgeState) (command : HttpCommand) :
    ((state.enqueue command).getD state).routes = state.routes := by
  unfold BridgeState.enqueue
  split
  · rfl
  · split <;> rfl

theorem beginRequest_routes (state : BridgeState) (route : StreamRoute) (bodyRange : ByteRange) :
    (state.beginRequest route bodyRange).routes = state.routes := by
  unfold BridgeState.beginRequest
  simp only
  split
  · rfl
  · exact enqueue_routes _ _

theorem enqueue_expiredStreams (state : BridgeState) (command : HttpCommand) :
    ((state.enqueue command).getD state).expiredStreams = state.expiredStreams := by
  unfold BridgeState.enqueue
  split
  · rfl
  · split <;> rfl

theorem perform_expiredStreams (state : BridgeState) {action : Action}
    (noPoll : ∀ answers, action ≠ .poll answers) (noPop : action ≠ .popExpired) :
    (state.perform action).expiredStreams = state.expiredStreams := by
  cases action with
  | register lt token handle id fileIndex file =>
      simp only [BridgeState.perform, registerStream]
      cases made : routeFor lt state token handle id fileIndex file with
      | error thrown => rfl
      | ok route =>
          obtain ⟨metadata, savePath, sliced, _, rfl⟩ := routeFor_eq_ok made
          exact addRoute_expiredStreams lt state sliced
  | stop lt streamId => exact stopStream_expiredStreams lt state streamId
  | remove lt id => exact removeTorrent_expiredStreams lt state id
  | poll answers => exact absurd rfl (noPoll answers)
  | popExpired => exact absurd rfl noPop
  | readPieceAlert alert => exact (handleReadPiece_leaves state alert).expiredStreams
  | blockFinished lt torrentId piece block =>
      exact (handleBlockFinished_leaves lt state torrentId piece block).expiredStreams
  | hashFailed torrentId piece => exact (handleHashFailed_leaves state torrentId piece).expiredStreams
  | beginRequest route bodyRange =>
      simp only [BridgeState.perform, BridgeState.beginRequest]
      split
      · rfl
      · exact enqueue_expiredStreams _ _
  | readRequest command => exact enqueue_expiredStreams _ _
  | acquireRequest streamId | releaseRequest streamId now | endRequest demandId | abandonWaiter waiter =>
      rfl

theorem expireStreams_expiredStreams (answers : String → Libtorrent) (pending : List StoppedStream)
    (state : BridgeState) :
    (pending.foldl (expireStream answers) state).expiredStreams = state.expiredStreams ++ pending := by
  induction pending generalizing state with
  | nil => simp
  | cons stream rest ih =>
      have here : (expireStream answers state stream).expiredStreams =
          state.expiredStreams ++ [stream] :=
        congrArg (· ++ [stream]) (recomputeSchedule_leaves _ _ _).expiredStreams
      rw [List.foldl_cons, ih, here, List.append_assoc, List.singleton_append]

/-- The stream of the route is inactive for the timeout when a poll looks for such streams. -/
def Lapsed (state : BridgeState) (now : Nat) (route : StreamRoute) : Prop :=
  state.inactivityTimeout ≠ 0 ∧ state.nextInactivityCheck ≤ now ∧
    (state.activities route.streamId).isInactive now state.inactivityTimeout = true

theorem Consistent.poll_expired {system : System} (consistent : Consistent system) {answers : PollAnswers}
    (quiet : (system.bridge.poll answers).2 = false) (collected : system.bridge.expiredStreams = [])
    {stream : StoppedStream} (expired : stream ∈ (system.bridge.poll answers).1.expiredStreams) :
    (∃ target route, system.bridge.routes.lookup target = some route ∧
      route.torrentId = stream.torrentId ∧ Lapsed system.bridge answers.expiry route) ∧
    (system.bridge.poll answers).1.hasStreamForTorrent stream.torrentId = false := by
  have leaves := polled_leaves system.bridge answers
  have routing := polled_routing consistent.routing (fun _ member => consistent.issued member) answers
  have none : (polled system.bridge answers).expiredStreams = [] := leaves.expiredStreams.trans collected
  rw [poll_eq quiet] at expired ⊢
  unfold expireInactiveStreams at expired ⊢
  split at expired
  · rw [none] at expired
    simp at expired
  · rename_i due
    rw [if_neg due]
    simp only at expired ⊢
    rw [expireStreams_expiredStreams, none, List.nil_append] at expired
    constructor
    · obtain ⟨target, route, registered, idle, rfl⟩ := mem_expiredStreamsOf.mp expired
      have inactive := (Bool.and_eq_true_iff.mp idle).2
      rw [leaves] at registered inactive due
      simp only [not_or, Nat.not_lt] at due
      exact ⟨target, route, registered, rfl, due.1, due.2, inactive⟩
    · refine hasStreamForTorrent_eq_false fun target route registered => ?_
      exact ((routing.expiring answers.expiry _).streamless stream expired target route
        ((Works.foldl (expireStream_works answers.expired) _ _).routes target route registered)).1

end NuvioEngine.Bridge
