import NuvioEngine.Bridge.LeasesCore
import NuvioEngine.Bridge.Expiry

/-! A stream never expires under a reader, in every interleaving of the threads. -/

namespace NuvioEngine.Bridge

open NuvioEngine.Scheduler NuvioEngine.Stream NuvioEngine.Cache BridgeState

theorem addRoute_enterRoute (lt : Libtorrent) (state : BridgeState) (route : StreamRoute) :
    addRoute lt state route = (vacated lt state route).enterRoute lt route lt.now :=
  rfl

/-- What the worker's other operations keep: no new route, no activity, no expired stream. -/
structure Attends (before after : BridgeState) : Prop where
  routes : ∀ target route, after.routes.lookup target = some route →
    before.routes.lookup target = some route
  activities : after.activities = before.activities
  expiredStreams : after.expiredStreams = before.expiredStreams
  inactivityTimeout : after.inactivityTimeout = before.inactivityTimeout

namespace Attends

variable {first second third : BridgeState}

theorem trans (left : Attends first second) (right : Attends second third) : Attends first third :=
  ⟨fun target route found => left.routes target route (right.routes target route found),
    right.activities.trans left.activities, right.expiredStreams.trans left.expiredStreams,
    right.inactivityTimeout.trans left.inactivityTimeout⟩

theorem ofLeaves (leaves : Leaves first second) : Attends first second :=
  ⟨fun _ _ found => leaves.routes ▸ found, (congrArg BridgeState.activities leaves).trans rfl,
    leaves.expiredStreams, (congrArg BridgeState.inactivityTimeout leaves).trans rfl⟩

end Attends

theorem stopStream_attends (lt : Libtorrent) (state : BridgeState) (streamId : String) :
    Attends state (stopStream lt state streamId).1 := by
  have stops := stopped_stops state streamId
  have unrouted : Attends state (stopped state streamId) :=
    ⟨(stopped_works state streamId).routes, (congrArg BridgeState.activities stops).trans rfl,
      (congrArg BridgeState.expiredStreams stops).trans rfl,
      (congrArg BridgeState.inactivityTimeout stops).trans rfl⟩
  unfold stopStream
  simp only
  split
  · exact unrouted
  · exact unrouted.trans (Attends.ofLeaves (recomputeSchedule_leaves lt _ _))

theorem removeTorrent_attends (lt : Libtorrent) (state : BridgeState) (id : String) :
    Attends state (removeTorrent lt state id) := by
  have cancels := removed_cancels state id
  have cleared : Attends state (removed state id) :=
    ⟨(removed_works state id).routes, (congrArg BridgeState.activities cancels).trans rfl,
      (congrArg BridgeState.expiredStreams cancels).trans rfl,
      (congrArg BridgeState.inactivityTimeout cancels).trans rfl⟩
  exact (cleared.trans (Attends.ofLeaves (recomputeSchedule_leaves lt _ id))).trans
    (Attends.ofLeaves (Leaves.ofSends (removeTorrent_sends id lt)))

theorem work_attends (state : BridgeState) {action : Action} (works : action.isWork = true)
    (noPop : action ≠ .popExpired) : Attends state (state.perform action) := by
  cases action with
  | stop lt streamId => exact stopStream_attends lt state streamId
  | remove lt id => exact removeTorrent_attends lt state id
  | popExpired => exact absurd rfl noPop
  | readPieceAlert alert => exact Attends.ofLeaves (handleReadPiece_leaves state alert)
  | blockFinished lt torrentId piece block =>
      exact Attends.ofLeaves (handleBlockFinished_leaves lt state torrentId piece block)
  | hashFailed torrentId piece =>
      exact Attends.ofLeaves (handleHashFailed_leaves state torrentId piece)
  | register lt token handle id fileIndex file => simp [Action.isWork] at works
  | poll answers => simp [Action.isWork] at works
  | acquireRequest streamId => simp [Action.isWork] at works
  | releaseRequest streamId now => simp [Action.isWork] at works
  | beginRequest route bodyRange => simp [Action.isWork] at works
  | readRequest command => simp [Action.isWork] at works
  | endRequest demandId => simp [Action.isWork] at works
  | abandonWaiter waiter => simp [Action.isWork] at works

/-- An HTTP thread that is done with the lookup touches the queue and the waiters only. -/
def Queues (before after : BridgeState) : Prop :=
  after = { before with
    commands := after.commands
    nextDemandId := after.nextDemandId
    waiters := after.waiters }

theorem enqueue_queues (state : BridgeState) (command : HttpCommand) :
    Queues state ((state.enqueue command).getD state) := by
  unfold BridgeState.enqueue
  split
  · rfl
  · split <;> rfl

theorem request_queues (state : BridgeState) {action : Action} (requests : action.isRequest = true) :
    Queues state (state.perform action) := by
  cases action with
  | beginRequest route bodyRange =>
      simp only [BridgeState.perform, BridgeState.beginRequest]
      split
      · rfl
      · exact (enqueue_queues _ _).trans rfl
  | readRequest command => exact (enqueue_queues _ _).trans rfl
  | endRequest demandId => rfl
  | abandonWaiter waiter => rfl
  | register lt token handle id fileIndex file => simp [Action.isRequest] at requests
  | stop lt streamId => simp [Action.isRequest] at requests
  | remove lt id => simp [Action.isRequest] at requests
  | poll answers => simp [Action.isRequest] at requests
  | popExpired => simp [Action.isRequest] at requests
  | readPieceAlert alert => simp [Action.isRequest] at requests
  | blockFinished lt torrentId piece block => simp [Action.isRequest] at requests
  | hashFailed torrentId piece => simp [Action.isRequest] at requests
  | acquireRequest streamId => simp [Action.isRequest] at requests
  | releaseRequest streamId now => simp [Action.isRequest] at requests

theorem setActivity_activities (state : BridgeState) (streamId other : String)
    (change : StreamActivity → StreamActivity) :
    (state.setActivity streamId change).activities other =
      if other = streamId then change (state.activities streamId) else state.activities other :=
  Function.update_apply _ _ _ _

namespace LeaseState

variable {state : LeaseState}

theorem holders_pos {streamId : String} {thread : Fin streamWorkerCount}
    (held : state.leases thread = some streamId) : 0 < state.holders streamId :=
  Finset.card_pos.mpr ⟨thread, by simpa using held⟩

theorem holders_eq_zero {streamId : String} :
    state.holders streamId = 0 ↔ ∀ thread, state.leases thread ≠ some streamId := by
  simp [holders, Finset.filter_eq_empty_iff]

theorem card_take {leases : Fin streamWorkerCount → Option String} {thread : Fin streamWorkerCount}
    (idle : leases thread = none) (taken streamId : String) :
    (Finset.univ.filter fun other => Function.update leases thread (some taken) other =
      some streamId).card =
    (Finset.univ.filter fun other => leases other = some streamId).card +
      if streamId = taken then 1 else 0 := by
  split
  · rename_i same
    subst same
    have parts : (Finset.univ.filter fun other => Function.update leases thread (some streamId) other =
        some streamId) =
        insert thread (Finset.univ.filter fun other => leases other = some streamId) := by
      ext other
      by_cases own : other = thread
      · simp [own]
      · simp [own]
    rw [parts, Finset.card_insert_of_notMem (by simp [idle])]
  · rename_i different
    rw [Nat.add_zero]
    refine congrArg Finset.card (Finset.filter_congr fun other _ => ?_)
    by_cases own : other = thread
    · simp [own, idle, Ne.symm different]
    · rw [Function.update_of_ne own]

theorem card_give {leases : Fin streamWorkerCount → Option String} {thread : Fin streamWorkerCount}
    {given : String} (held : leases thread = some given) (streamId : String) :
    (Finset.univ.filter fun other => leases other = some streamId).card =
    (Finset.univ.filter fun other => Function.update leases thread none other = some streamId).card +
      if streamId = given then 1 else 0 := by
  have taken := @card_take (Function.update leases thread none) thread (by simp) given streamId
  have back : Function.update (Function.update leases thread none) thread (some given) = leases := by
    rw [Function.update_idem, ← held, Function.update_eq_self]
  rw [back] at taken
  exact taken

/-- A route that may expire: nobody holds its lease, no demand is for its stream, and the timeout
has passed since it was last in use. -/
structure Idle (state : LeaseState) (route : StreamRoute) : Prop where
  unleased : ∀ thread, state.leases thread ≠ some route.streamId
  unread : ∀ demandId demand, state.bridge.activeDemands.lookup demandId = some demand →
    demand.route.streamId ≠ route.streamId
  waited : state.idleSince route.streamId + state.bridge.inactivityTimeout ≤ state.clock

/-- Entries of the routes that the worker has still to visit. -/
structure Listed (state : LeaseState) (entries : List (Sigma fun _ : String => StreamRoute)) : Prop where
  registered : ∀ entry ∈ entries, state.bridge.routes.lookup entry.1 = some entry.2
  distinct : (entries.map Sigma.fst).Nodup

/-- A stream that nobody has heard of yet. -/
structure Unheard (state : LeaseState) (streamId : String) : Prop where
  drawn : streamId ∈ state.tokens
  unleased : ∀ thread, state.leases thread ≠ some streamId
  unrouted : ∀ target route, state.bridge.routes.lookup target = some route →
    route.streamId ≠ streamId
  unerased : ∀ stream ∈ state.erased, stream.streamId ≠ streamId

def Stage (state : LeaseState) : Worker → Prop
  | .free | .polled | .reporting _ => True
  | .registering route _ _ => route.target = "/stream/" ++ route.streamId ∧
      state.Unheard route.streamId
  | .sampled now => now ≤ state.clock ∧ state.bridge.inactivityTimeout ≠ 0
  | .scanning now remaining _ => now ≤ state.clock ∧ state.bridge.inactivityTimeout ≠ 0 ∧
      state.Listed remaining
  | .erasing now entry remaining _ => now ≤ state.clock ∧ state.bridge.inactivityTimeout ≠ 0 ∧
      state.Listed (entry :: remaining) ∧ state.Idle entry.2

/-- The invariant of the leases. -/
structure Leased (state : LeaseState) : Prop where
  counted : ∀ streamId, (state.bridge.activities streamId).activeHttpRequests = state.holders streamId
  since : ∀ streamId, (state.bridge.activities streamId).lastActivity = state.idleSince streamId
  held : ∀ thread streamId, state.leases thread = some streamId → streamId ∈ state.tokens
  targets : ∀ target route, state.bridge.routes.lookup target = some route →
    target = "/stream/" ++ route.streamId
  drawn : ∀ target route, state.bridge.routes.lookup target = some route →
    route.streamId ∈ state.tokens
  apart : ∀ target route, state.bridge.routes.lookup target = some route →
    ∀ stream ∈ state.erased, stream.streamId ≠ route.streamId
  old : ∀ stream ∈ state.erased, stream.streamId ∈ state.tokens
  once : (state.erased.map StoppedStream.streamId).Nodup
  logged : state.erased = state.popped ++ state.bridge.expiredStreams ++ state.worker.pending
  stage : state.Stage state.worker

theorem Stage.mono {next : LeaseState} {worker : Worker} (stage : state.Stage worker)
    (routes : next.bridge.routes = state.bridge.routes)
    (demands : next.bridge.activeDemands = state.bridge.activeDemands)
    (timeout : next.bridge.inactivityTimeout = state.bridge.inactivityTimeout)
    (tokens : next.tokens = state.tokens) (erased : next.erased = state.erased)
    (clock : state.clock ≤ next.clock)
    (leases : ∀ thread streamId, next.leases thread = some streamId →
      state.leases thread = some streamId)
    (idle : ∀ streamId, (∀ thread, state.leases thread ≠ some streamId) →
      next.idleSince streamId = state.idleSince streamId) : next.Stage worker := by
  have listed : ∀ {entries}, state.Listed entries → next.Listed entries := fun listed =>
    ⟨fun entry member => by rw [routes]; exact listed.registered entry member, listed.distinct⟩
  cases worker with
  | free | polled | reporting expired => trivial
  | registering route opened previous =>
      obtain ⟨target, drawn, unleased, unrouted, unerased⟩ := stage
      exact ⟨target, tokens ▸ drawn, fun thread held => unleased thread (leases thread _ held),
        by rw [routes]; exact unrouted, by rw [erased]; exact unerased⟩
  | sampled now =>
      obtain ⟨past, limited⟩ := stage
      exact ⟨past.trans clock, by rw [timeout]; exact limited⟩
  | scanning now remaining expired =>
      obtain ⟨past, limited, entries⟩ := stage
      exact ⟨past.trans clock, by rw [timeout]; exact limited, listed entries⟩
  | erasing now entry remaining expired =>
      obtain ⟨past, limited, entries, unleased, unread, waited⟩ := stage
      refine ⟨past.trans clock, by rw [timeout]; exact limited, listed entries,
        fun thread held => unleased thread (leases thread _ held), by rw [demands]; exact unread, ?_⟩
      rw [idle _ unleased, timeout]
      exact waited.trans clock

theorem Leased.attends (leased : state.Leased) {bridge : BridgeState} {worker : Worker}
    (attends : Attends state.bridge bridge) (pending : worker.pending = state.worker.pending)
    (stage : ({ state with bridge := bridge, worker := worker } : LeaseState).Stage worker) :
    ({ state with bridge := bridge, worker := worker } : LeaseState).Leased where
  counted streamId := by
    simp only [attends.activities]
    exact leased.counted streamId
  since streamId := by
    simp only [attends.activities]
    exact leased.since streamId
  held := leased.held
  targets target route found := leased.targets target route (attends.routes target route found)
  drawn target route found := leased.drawn target route (attends.routes target route found)
  apart target route found := leased.apart target route (attends.routes target route found)
  old := leased.old
  once := leased.once
  logged := by
    simp only [attends.expiredStreams, pending]
    exact leased.logged
  stage := stage

theorem Leased.advance (leased : state.Leased) {now : Nat} (later : state.clock ≤ now) :
    ({ state with clock := now } : LeaseState).Leased :=
  { counted := leased.counted, since := leased.since, held := leased.held, targets := leased.targets,
    drawn := leased.drawn, apart := leased.apart, old := leased.old, once := leased.once,
    logged := leased.logged,
    stage := leased.stage.mono rfl rfl rfl rfl rfl later (fun _ _ held => held) fun _ _ => rfl }

theorem Leased.request (leased : state.Leased) {bridge : BridgeState}
    (queues : Queues state.bridge bridge) : (state.withBridge bridge).Leased := by
  have routes : bridge.routes = state.bridge.routes := (congrArg BridgeState.routes queues).trans rfl
  have demands : bridge.activeDemands = state.bridge.activeDemands :=
    (congrArg BridgeState.activeDemands queues).trans rfl
  have timeout : bridge.inactivityTimeout = state.bridge.inactivityTimeout :=
    (congrArg BridgeState.inactivityTimeout queues).trans rfl
  refine @attends state leased bridge state.worker ⟨fun _ _ found => routes ▸ found, ?_, ?_, timeout⟩ rfl ?_
  · exact (congrArg BridgeState.activities queues).trans rfl
  · exact (congrArg BridgeState.expiredStreams queues).trans rfl
  · exact leased.stage.mono routes demands timeout rfl rfl le_rfl (fun _ _ held => held) fun _ _ => rfl

theorem Leased.lookUp (leased : state.Leased) {thread : Fin streamWorkerCount}
    (idle : state.leases thread = none) (unlocked : state.worker.holdsRoutes = false) (target : String) :
    (state.lookUp thread target).Leased := by
  unfold LeaseState.lookUp
  split
  · exact leased
  · rename_i route found
    constructor
    case counted =>
      intro streamId
      simp only [holders, setActivity_activities, card_take idle route.streamId streamId]
      split
      · rename_i same
        rw [same, StreamActivity.acquireHttpRequest, leased.counted]
        rfl
      · exact leased.counted streamId
    case since =>
      intro streamId
      simp only [setActivity_activities]
      split
      · rename_i same
        rw [same, StreamActivity.acquireHttpRequest]
        exact leased.since route.streamId
      · exact leased.since streamId
    case held =>
      intro other streamId held
      simp only [Function.update_apply] at held
      split at held
      · rw [← Option.some.inj held]
        exact leased.drawn target route found
      · exact leased.held other streamId held
    case targets => exact leased.targets
    case drawn => exact leased.drawn
    case apart => exact leased.apart
    case old => exact leased.old
    case once => exact leased.once
    case logged => exact leased.logged
    case stage =>
      have stage := leased.stage
      cases worker : state.worker with
      | free | polled | reporting expired => trivial
      | sampled now =>
          rw [worker] at stage
          exact stage
      | registering entering opened previous =>
          rw [worker] at stage
          obtain ⟨own, drawn, unleased, unrouted, unerased⟩ := stage
          refine ⟨own, drawn, fun other held => ?_, unrouted, unerased⟩
          simp only [Function.update_apply] at held
          split at held
          · exact unrouted target route found (Option.some.inj held)
          · exact unleased other held
      | scanning now remaining expired => simp [worker, Worker.holdsRoutes] at unlocked
      | erasing now entry remaining expired => simp [worker, Worker.holdsRoutes] at unlocked

theorem releaseHttpRequest_count {activity : StreamActivity} {count now : Nat}
    (counted : activity.activeHttpRequests = count + 1) :
    (activity.releaseHttpRequest now).activeHttpRequests = count ∧
      (activity.releaseHttpRequest now).lastActivity = if count = 0 then now else activity.lastActivity := by
  unfold StreamActivity.releaseHttpRequest
  rw [counted, if_neg (Nat.succ_ne_zero count)]
  cases count with
  | zero => exact ⟨rfl, rfl⟩
  | succ count => exact ⟨rfl, rfl⟩

theorem Leased.release (leased : state.Leased) (thread : Fin streamWorkerCount) :
    (state.release thread).Leased := by
  unfold LeaseState.release
  split
  · exact leased
  · rename_i given held
    have before := leased.counted given
    have fewer := card_give held given
    rw [if_pos rfl] at fewer
    obtain ⟨count, last⟩ := @releaseHttpRequest_count _ _ state.clock (before.trans fewer)
    have remaining : (∃ other, Function.update state.leases thread none other = some given) ↔
        (Finset.univ.filter fun other => Function.update state.leases thread none other =
          some given).card ≠ 0 := by
      simp [Finset.filter_eq_empty_iff]
    constructor
    case counted =>
      intro streamId
      simp only [holders, setActivity_activities]
      split
      · rename_i same
        rw [same]
        exact count
      · rename_i different
        have others := card_give held streamId
        rw [if_neg different, Nat.add_zero] at others
        rw [leased.counted, holders, others]
    case since =>
      intro streamId
      simp only [setActivity_activities]
      split
      · rename_i same
        rw [same, last, leased.since given]
        by_cases left : ∃ other, Function.update state.leases thread none other = some given
        · rw [if_pos left, if_neg (remaining.mp left)]
        · rw [if_neg left, Function.update_self, if_pos (not_not.mp (mt remaining.mpr left))]
      · rename_i different
        split
        · exact leased.since streamId
        · rw [Function.update_of_ne different]
          exact leased.since streamId
    case held =>
      intro other streamId taken
      simp only [Function.update_apply] at taken
      split at taken
      · simp at taken
      · exact leased.held other streamId taken
    case targets => exact leased.targets
    case drawn => exact leased.drawn
    case apart => exact leased.apart
    case old => exact leased.old
    case once => exact leased.once
    case logged => exact leased.logged
    case stage =>
      refine leased.stage.mono rfl rfl rfl rfl rfl le_rfl ?_ ?_
      · intro other streamId taken
        simp only [Function.update_apply] at taken
        split at taken
        · simp at taken
        · exact taken
      · intro streamId unleased
        have different : streamId ≠ given := fun same => unleased thread (same ▸ held)
        simp only
        split
        · rfl
        · exact Function.update_of_ne different _ _

theorem Leased.work (leased : state.Leased) (free : state.worker = .free) {action : Action}
    (works : action.isWork = true) : (state.work action).Leased := by
  by_cases pops : action = .popExpired
  · subst pops
    have logged := leased.logged
    have none : state.worker.pending = [] := by rw [free]; rfl
    constructor
    case counted => exact leased.counted
    case since => exact leased.since
    case held => exact leased.held
    case targets => exact leased.targets
    case drawn => exact leased.drawn
    case apart => exact leased.apart
    case old => exact leased.old
    case once => exact leased.once
    case logged =>
      rw [none, List.append_nil] at logged
      change state.erased = state.popped ++ state.bridge.expiredStreams ++ [] ++ state.worker.pending
      rw [none, List.append_nil, List.append_nil]
      exact logged
    case stage =>
      change Stage _ state.worker
      rw [free]
      trivial
  · have attends := work_attends state.bridge works pops
    have same : state.work action =
        { state with bridge := state.bridge.perform action, worker := state.worker } := by
      unfold LeaseState.work
      cases action <;> first | rfl | exact absurd rfl pops
    rw [same]
    refine leased.attends attends rfl ?_
    rw [free]
    trivial

theorem Leased.openRoute (leased : state.Leased) (free : state.worker = .free) (lt : Libtorrent)
    {token : String} (fresh : token ∉ state.tokens) (handle : Nat) (id : String) (fileIndex : Nat)
    (file : TorrentFileInfo) : (state.openRoute lt token handle id fileIndex file).Leased := by
  unfold LeaseState.openRoute
  split
  · exact leased
  · rename_i route made
    obtain ⟨metadata, savePath, _, _, rfl⟩ := routeFor_eq_ok made
    have logged := leased.logged
    rw [free] at logged
    constructor
    case counted => exact leased.counted
    case since => exact leased.since
    case held => exact fun thread streamId held => List.mem_cons_of_mem _ (leased.held thread streamId held)
    case targets => exact leased.targets
    case drawn => exact fun target route found => List.mem_cons_of_mem _ (leased.drawn target route found)
    case apart => exact leased.apart
    case old => exact fun stream member => List.mem_cons_of_mem _ (leased.old stream member)
    case once => exact leased.once
    case logged => exact logged
    case stage =>
      refine ⟨rfl, List.mem_cons_self, fun thread held => ?_, fun target route found same => ?_,
        fun stream member same => ?_⟩
      · exact fresh (leased.held thread token held)
      · have drawn := leased.drawn target route found
        rw [same] at drawn
        exact fresh drawn
      · have old := leased.old stream member
        rw [same] at old
        exact fresh old

theorem Leased.stopPrevious (leased : state.Leased) {route : StreamRoute} {opened : Nat}
    {streamId : String} {rest : List String}
    (registering : state.worker = .registering route opened (streamId :: rest)) (lt : Libtorrent) :
    ((state.withBridge (stopStream lt state.bridge streamId).1).withWorker
      (.registering route opened rest)).Leased := by
  have attends := stopStream_attends lt state.bridge streamId
  have stage := leased.stage
  rw [registering] at stage
  obtain ⟨own, drawn, unleased, unrouted, unerased⟩ := stage
  refine leased.attends attends (by rw [registering]; rfl) ⟨own, drawn, unleased, ?_, unerased⟩
  exact fun target other found => unrouted target other (attends.routes target other found)

theorem enterRoute_leaves (lt : Libtorrent) (bridge : BridgeState) (route : StreamRoute) (opened : Nat) :
    ∃ anchors, Leaves { bridge with
      routes := bridge.routes.insert route.target route
      lastReadyPieces := bridge.lastReadyPieces.erase route.torrentId
      revokedTorrents := bridge.revokedTorrents.filter fun id => id ≠ route.torrentId
      activities := Function.update bridge.activities route.streamId { lastActivity := opened }
      anchors := anchors } (bridge.enterRoute lt route opened) := by
  unfold BridgeState.enterRoute
  simp only
  split
  · split
    · exact ⟨bridge.anchors, rfl⟩
    · exact ⟨_, recomputeSchedule_leaves lt _ route.torrentId⟩
  · exact ⟨bridge.anchors, rfl⟩

theorem Leased.enterRoute (leased : state.Leased) {route : StreamRoute} {opened : Nat}
    (registering : state.worker = .registering route opened []) (lt : Libtorrent) :
    ({ state with
      bridge := state.bridge.enterRoute lt route opened
      worker := .free
      idleSince := Function.update state.idleSince route.streamId opened } : LeaseState).Leased := by
  obtain ⟨anchors, leaves⟩ := enterRoute_leaves lt state.bridge route opened
  have routes : (state.bridge.enterRoute lt route opened).routes =
      state.bridge.routes.insert route.target route := leaves.routes
  have activities : (state.bridge.enterRoute lt route opened).activities =
      Function.update state.bridge.activities route.streamId { lastActivity := opened } :=
    (congrArg BridgeState.activities leaves).trans rfl
  have expired : (state.bridge.enterRoute lt route opened).expiredStreams = state.bridge.expiredStreams :=
    leaves.expiredStreams
  have stage := leased.stage
  rw [registering] at stage
  obtain ⟨own, drawn, unleased, unrouted, unerased⟩ := stage
  have found : ∀ {target other}, (state.bridge.enterRoute lt route opened).routes.lookup target =
      some other → (target = route.target ∧ other = route) ∨
        state.bridge.routes.lookup target = some other := by
    intro target other found
    rw [routes, AList.lookup_insert_ite] at found
    split at found
    · rename_i same
      exact .inl ⟨same, (Option.some.inj found).symm⟩
    · exact .inr found
  constructor
  case counted =>
    intro streamId
    simp only [activities, Function.update_apply]
    split
    · rename_i same
      rw [same]
      exact (holders_eq_zero.mpr unleased).symm
    · exact leased.counted streamId
  case since =>
    intro streamId
    simp only [activities, Function.update_apply]
    split
    · rfl
    · exact leased.since streamId
  case held => exact leased.held
  case targets =>
    intro target other present
    rcases found present with ⟨rfl, rfl⟩ | before
    · exact own
    · exact leased.targets target other before
  case drawn =>
    intro target other present
    rcases found present with ⟨rfl, rfl⟩ | before
    · exact drawn
    · exact leased.drawn target other before
  case apart =>
    intro target other present
    rcases found present with ⟨rfl, rfl⟩ | before
    · exact unerased
    · exact leased.apart target other before
  case old => exact leased.old
  case once => exact leased.once
  case logged =>
    have logged := leased.logged
    rw [registering] at logged
    simp only [expired]
    exact logged
  case stage => trivial

theorem Leased.takeCommands (leased : state.Leased) (free : state.worker = .free)
    (answers : PollAnswers) : (state.takeCommands answers).Leased := by
  have taken : Attends state.bridge { state.bridge with commands := [] } :=
    ⟨fun _ _ found => found, rfl, rfl, rfl⟩
  unfold LeaseState.takeCommands
  simp only
  split
  · have attends := taken.trans
      (Attends.ofLeaves (processCommands_leaves answers.command state.bridge.commands _ 0 []))
    refine @Leased.attends state leased _ state.worker attends rfl ?_
    rw [free]
    trivial
  · exact leased.attends (taken.trans (Attends.ofLeaves (polled_leaves state.bridge answers)))
      (by rw [free]; rfl) trivial

theorem Leased.readClock (leased : state.Leased) (polled : state.worker = .polled) :
    state.readClock.Leased := by
  have same : Attends state.bridge state.bridge := ⟨fun _ _ found => found, rfl, rfl, rfl⟩
  unfold LeaseState.readClock
  split
  · exact leased.attends same (by rw [polled]; rfl) trivial
  · rename_i due
    rw [not_or] at due
    exact leased.attends (same.trans ⟨fun _ _ found => found, rfl, rfl, rfl⟩) (by rw [polled]; rfl)
      ⟨le_rfl, due.1⟩

theorem Leased.stay (leased : state.Leased) {worker : Worker}
    (pending : worker.pending = state.worker.pending) (stage : state.Stage worker) :
    (state.withWorker worker).Leased := by
  have same : Attends state.bridge state.bridge := ⟨fun _ _ found => found, rfl, rfl, rfl⟩
  refine leased.attends same pending ?_
  exact stage.mono rfl rfl rfl rfl rfl le_rfl (fun _ _ held => held) fun _ _ => rfl

theorem Leased.lockRoutes (leased : state.Leased) {now : Nat} (sampled : state.worker = .sampled now) :
    (state.withWorker (.scanning now state.bridge.routes.entries [])).Leased := by
  have stage := leased.stage
  rw [sampled] at stage
  refine leased.stay (by rw [sampled]; rfl) ⟨stage.1, stage.2, fun entry member => ?_, ?_⟩
  · exact (AList.lookup_eq_some_iff _ _ _).mpr member
  · exact state.bridge.routes.nodupKeys

theorem Leased.idle (leased : state.Leased) {now : Nat} (past : now ≤ state.clock)
    (limited : state.bridge.inactivityTimeout ≠ 0) {route : StreamRoute}
    (expired : state.bridge.isExpired now route = true) : state.Idle route := by
  obtain ⟨unread, inactive⟩ := Bool.and_eq_true_iff.mp expired
  obtain ⟨unleased, waited⟩ := Bool.and_eq_true_iff.mp inactive
  have none := of_decide_eq_true unleased
  have passed := of_decide_eq_true waited
  rw [leased.counted] at none
  rw [leased.since] at passed
  refine ⟨holders_eq_zero.mp none, fun demandId demand found same => ?_, by omega⟩
  have member := (AList.lookup_eq_some_iff _ _ _).mp found
  have read : (state.bridge.activeDemands.entries.any fun entry =>
      entry.2.route.streamId = route.streamId) = true :=
    List.any_eq_true.mpr ⟨_, member, decide_eq_true same⟩
  rw [read] at unread
  exact absurd unread (by decide)

theorem Leased.visit (leased : state.Leased) {now : Nat} {entry : Sigma fun _ : String => StreamRoute}
    {remaining : List (Sigma fun _ : String => StreamRoute)} {expired : List StoppedStream}
    (scanning : state.worker = .scanning now (entry :: remaining) expired) :
    (state.visit now entry remaining expired).Leased := by
  have stage := leased.stage
  rw [scanning] at stage
  obtain ⟨past, limited, listed⟩ := stage
  unfold LeaseState.visit
  split
  · rename_i lapsed
    exact leased.stay (by rw [scanning]; rfl) ⟨past, limited, listed, leased.idle past limited lapsed⟩
  · exact leased.stay (by rw [scanning]; rfl) ⟨past, limited,
      fun other member => listed.registered other (List.mem_cons_of_mem _ member),
      (List.nodup_cons.mp listed.distinct).2⟩

theorem Leased.erase (leased : state.Leased) {now : Nat} {entry : Sigma fun _ : String => StreamRoute}
    {remaining : List (Sigma fun _ : String => StreamRoute)} {expired : List StoppedStream}
    (erasing : state.worker = .erasing now entry remaining expired) :
    (state.erase now entry remaining expired).Leased := by
  have stage := leased.stage
  rw [erasing] at stage
  obtain ⟨past, limited, listed, idle⟩ := stage
  have present := listed.registered entry List.mem_cons_self
  obtain ⟨absent, distinct⟩ := List.nodup_cons.mp listed.distinct
  have kept : ∀ {target route}, (state.bridge.routes.erase entry.1).lookup target = some route →
      target ≠ entry.1 ∧ state.bridge.routes.lookup target = some route := by
    intro target route found
    rw [AList.lookup_erase_ite] at found
    split at found
    · simp at found
    · rename_i different
      exact ⟨different, found⟩
  constructor
  case counted => exact leased.counted
  case since => exact leased.since
  case held => exact leased.held
  case targets => exact fun target route found => leased.targets target route (kept found).2
  case drawn => exact fun target route found => leased.drawn target route (kept found).2
  case apart =>
    intro target route found stream member same
    obtain ⟨different, before⟩ := kept found
    rcases List.mem_append.mp member with earlier | last
    · exact leased.apart target route before stream earlier same
    · rw [List.mem_singleton.mp last] at same
      apply different
      rw [leased.targets target route before, leased.targets entry.1 entry.2 present]
      exact congrArg ("/stream/" ++ ·) same.symm
  case old =>
    intro stream member
    rcases List.mem_append.mp member with earlier | last
    · exact leased.old stream earlier
    · rw [List.mem_singleton.mp last]
      exact leased.drawn entry.1 entry.2 present
  case once =>
    have fresh := leased.apart entry.1 entry.2 present
    simp only [LeaseState.erase, List.map_append, List.map_cons, List.map_nil]
    refine List.nodup_append.mpr ⟨leased.once, List.nodup_singleton _, ?_⟩
    intro streamId earlier other last
    obtain ⟨stream, member, rfl⟩ := List.mem_map.mp earlier
    rw [List.mem_singleton.mp last]
    exact fresh stream member
  case logged =>
    have logged := leased.logged
    rw [erasing] at logged
    simp only [LeaseState.erase, Worker.pending, logged, List.append_assoc]
  case stage =>
    refine ⟨past, limited, fun other member => ?_, distinct⟩
    have different : other.1 ≠ entry.1 := fun same => absent (same ▸ List.mem_map_of_mem member)
    simp only [LeaseState.erase]
    rw [AList.lookup_erase_ite, if_neg different]
    exact listed.registered other (List.mem_cons_of_mem _ member)

theorem Leased.report (leased : state.Leased) {stream : StoppedStream} {rest : List StoppedStream}
    (reporting : state.worker = .reporting (stream :: rest)) (answers : String → Libtorrent) :
    ((state.withBridge (expireStream answers state.bridge stream)).withWorker
      (.reporting rest)).Leased := by
  have leaves := recomputeSchedule_leaves (answers stream.torrentId)
    (state.bridge.eraseAnchor stream.streamId) stream.torrentId
  have routes : (expireStream answers state.bridge stream).routes = state.bridge.routes := leaves.routes
  have activities : (expireStream answers state.bridge stream).activities = state.bridge.activities :=
    (congrArg BridgeState.activities leaves).trans rfl
  have expired : (expireStream answers state.bridge stream).expiredStreams =
      state.bridge.expiredStreams ++ [stream] :=
    congrArg (· ++ [stream]) leaves.expiredStreams
  constructor
  case counted =>
    intro streamId
    simp only [LeaseState.withBridge, LeaseState.withWorker, activities]
    exact leased.counted streamId
  case since =>
    intro streamId
    simp only [LeaseState.withBridge, LeaseState.withWorker, activities]
    exact leased.since streamId
  case held => exact leased.held
  case targets => exact fun target route found => leased.targets target route (routes ▸ found)
  case drawn => exact fun target route found => leased.drawn target route (routes ▸ found)
  case apart => exact fun target route found => leased.apart target route (routes ▸ found)
  case old => exact leased.old
  case once => exact leased.once
  case logged =>
    have logged := leased.logged
    rw [reporting] at logged
    simp only [LeaseState.withBridge, LeaseState.withWorker, expired, Worker.pending, logged,
      List.append_assoc, List.singleton_append]
  case stage => trivial

theorem Leased.step (leased : state.Leased) {action : LeaseAction} (possible : state.Possible action) :
    (state.perform action).Leased := by
  cases action with
  | advance now => exact leased.advance possible
  | lookUp thread target => exact leased.lookUp possible.1 possible.2 target
  | release thread => exact leased.release thread
  | request action => exact leased.request (request_queues state.bridge possible)
  | work action => exact leased.work possible.1 possible.2
  | openRoute lt token handle id fileIndex file =>
      exact leased.openRoute possible.1 lt possible.2 handle id fileIndex file
  | takeCommands answers => exact leased.takeCommands possible answers
  | readClock => exact leased.readClock possible
  | stopPrevious lt =>
      simp only [LeaseState.perform]
      split
      · rename_i registering
        exact leased.stopPrevious registering lt
      · exact leased
  | enterRoute lt =>
      simp only [LeaseState.perform]
      split
      · rename_i registering
        exact leased.enterRoute registering lt
      · exact leased
  | lockRoutes =>
      simp only [LeaseState.perform]
      split
      · rename_i sampled
        exact leased.lockRoutes sampled
      · exact leased
  | visit =>
      simp only [LeaseState.perform]
      split
      · rename_i scanning
        exact leased.visit scanning
      · exact leased
  | erase =>
      simp only [LeaseState.perform]
      split
      · rename_i erasing
        exact leased.erase erasing
      · exact leased
  | unlockRoutes =>
      simp only [LeaseState.perform]
      split
      · rename_i scanning
        exact leased.stay (by rw [scanning]; rfl) trivial
      · exact leased
  | report answers =>
      simp only [LeaseState.perform]
      split
      · rename_i reporting
        exact leased.report reporting answers
      · rename_i reporting
        exact leased.stay (by rw [reporting]; rfl) trivial
      · exact leased

theorem Leased.initial (initial : state.Initial) : state.Leased := by
  obtain ⟨memoryCapacityBytes, diskCapacityBytes, inactivity, clock, rfl⟩ := initial
  have unrouted : ∀ target route, (BridgeState.create memoryCapacityBytes diskCapacityBytes
      inactivity).routes.lookup target ≠ some route := by
    intro target route
    simp [BridgeState.create]
  exact ⟨fun streamId => by simp [holders, BridgeState.create], fun _ => rfl,
    fun _ _ held => by simp at held, fun _ _ found => absurd found (unrouted _ _),
    fun _ _ found => absurd found (unrouted _ _), fun _ _ found => absurd found (unrouted _ _),
    fun _ member => by simp at member, List.nodup_nil, rfl, trivial⟩

theorem Reachable.leased (reached : state.Reachable) : state.Leased := by
  have starts : ∀ state : LeaseState, state.Initial → state.Leased := fun _ initial => .initial initial
  have keeps : ∀ (state : LeaseState) action, state.Leased → state.Possible action →
      (state.perform action).Leased := fun _ _ leased possible => leased.step possible
  exact Transition.Reachable.invariant starts keeps reached

/-- A step of `expire_inactive_streams` that takes a route away is the one that erases an idle route,
and it is recorded. -/
theorem Leased.expires (leased : state.Leased) {action : LeaseAction} (expiry : action.isExpiry = true)
    {target : String} {route : StreamRoute} (before : state.bridge.routes.lookup target = some route)
    (after : (state.perform action).bridge.routes.lookup target = none) :
    state.Idle route ∧ (state.perform action).erased =
      state.erased ++ [⟨route.torrentId, route.streamId⟩] := by
  have unchanged : (state.perform action).bridge.routes ≠ state.bridge.routes := by
    intro same
    rw [same, before] at after
    simp at after
  cases action with
  | readClock =>
      refine absurd ?_ unchanged
      simp only [LeaseState.perform, LeaseState.readClock]
      split <;> rfl
  | lockRoutes =>
      refine absurd ?_ unchanged
      simp only [LeaseState.perform]
      split <;> rfl
  | visit =>
      refine absurd ?_ unchanged
      simp only [LeaseState.perform, LeaseState.visit]
      split
      · split <;> rfl
      · rfl
  | unlockRoutes =>
      refine absurd ?_ unchanged
      simp only [LeaseState.perform]
      split <;> rfl
  | report answers =>
      refine absurd ?_ unchanged
      simp only [LeaseState.perform]
      split
      · exact (recomputeSchedule_leaves _ _ _).routes
      · rfl
      · rfl
  | erase =>
      have stage := leased.stage
      simp only [LeaseState.perform] at after ⊢
      split at after
      · rename_i now entry remaining expired erasing
        rw [erasing] at stage
        obtain ⟨_, _, listed, idle⟩ := stage
        simp only [LeaseState.erase, AList.lookup_erase_ite] at after ⊢
        split at after
        · rename_i same
          have present := listed.registered entry List.mem_cons_self
          rw [same, present] at before
          obtain rfl := Option.some.inj before
          exact ⟨idle, rfl⟩
        · rw [before] at after
          simp at after
      · rw [before] at after
        simp at after
  | advance now => simp [LeaseAction.isExpiry] at expiry
  | lookUp thread target => simp [LeaseAction.isExpiry] at expiry
  | release thread => simp [LeaseAction.isExpiry] at expiry
  | request action => simp [LeaseAction.isExpiry] at expiry
  | work action => simp [LeaseAction.isExpiry] at expiry
  | openRoute lt token handle id fileIndex file => simp [LeaseAction.isExpiry] at expiry
  | stopPrevious lt => simp [LeaseAction.isExpiry] at expiry
  | enterRoute lt => simp [LeaseAction.isExpiry] at expiry
  | takeCommands answers => simp [LeaseAction.isExpiry] at expiry

/-- A stream never expires under a reader: `expire_inactive_streams` takes a route away only when it
is idle, the leases are counted, and every stream that expires is reported once. -/
theorem reachable_expires (reached : state.Reachable) :
    (∀ action target route, state.Possible action → action.isExpiry = true →
      state.bridge.routes.lookup target = some route →
      (state.perform action).bridge.routes.lookup target = none →
      state.Idle route ∧ (state.perform action).erased =
        state.erased ++ [⟨route.torrentId, route.streamId⟩]) ∧
    (∀ streamId, (state.bridge.activities streamId).activeHttpRequests = state.holders streamId) ∧
    (∀ thread streamId, state.leases thread = some streamId →
      0 < (state.bridge.activities streamId).activeHttpRequests) ∧
    (state.erased.map StoppedStream.streamId).Nodup ∧
    state.erased = state.popped ++ state.bridge.expiredStreams ++ state.worker.pending ∧
    (state.worker = .free → (state.perform (.work .popExpired)).popped = state.erased) := by
  have leased := reached.leased
  refine ⟨fun action target route _ expiry before after => leased.expires expiry before after,
    leased.counted, fun thread streamId held => ?_, leased.once, leased.logged, fun free => ?_⟩
  · rw [leased.counted]
    exact holders_pos held
  · have logged := leased.logged
    rw [free] at logged
    exact ((List.append_nil _).symm.trans logged.symm)

/-- A reader comes and goes, and the stream lapses while the worker waits for the mutex. -/
def lapsingRun : List LeaseAction := [
  .openRoute (.accepting twoPieces) "a" 7 "t" 0 ⟨"video.mp4", 0, 32768⟩,
  .enterRoute (.accepting twoPieces),
  .lookUp ⟨0, by decide⟩ "/stream/a",
  .advance 40,
  .release ⟨0, by decide⟩,
  .advance 140,
  .takeCommands ⟨fun _ => .accepting twoPieces, fun _ => .accepting twoPieces, .accepting twoPieces, 0,
    fun _ => .accepting twoPieces⟩,
  .readClock,
  .advance 150,
  .lockRoutes,
  .visit]

def lapsingState : LeaseState :=
  lapsingRun.foldl perform { bridge := .create 1000 1000 100 }

theorem reachable_expires_lapsing :
    lapsingState.Reachable ∧ lapsingState.idleSince "a" = 40 ∧ lapsingState.clock = 150 ∧
      ∃ route, lapsingState.bridge.routes.lookup "/stream/a" = some route ∧ lapsingState.Idle route := by
  have reached : lapsingState.Reachable :=
    Transition.Reachable.run (.start ⟨1000, 1000, 100, 0, rfl⟩) (by decide +kernel)
  have present : (lapsingState.bridge.routes.lookup "/stream/a").isSome = true := by decide +kernel
  have gone : (lapsingState.perform .erase).bridge.routes.lookup "/stream/a" = none := by
    decide +kernel
  obtain ⟨route, found⟩ := Option.isSome_iff_exists.mp present
  have idle := ((reachable_expires reached).1 .erase "/stream/a" route trivial rfl found gone).1
  exact ⟨reached, by decide +kernel, by decide +kernel, route, found, idle⟩

/-- The expired streams among entries of the routes. -/
def lapsedStreams (bridge : BridgeState) (now : Nat)
    (entries : List (Sigma fun _ : String => StreamRoute)) : List StoppedStream :=
  (entries.filter fun entry => bridge.isExpired now entry.2).map
    fun entry => ⟨entry.2.torrentId, entry.2.streamId⟩

theorem lapsedStreams_cons (bridge : BridgeState) (now : Nat)
    (entry : Sigma fun _ : String => StreamRoute) (rest : List (Sigma fun _ : String => StreamRoute)) :
    lapsedStreams bridge now (entry :: rest) = (if bridge.isExpired now entry.2 then
      [⟨entry.2.torrentId, entry.2.streamId⟩] else []) ++ lapsedStreams bridge now rest := by
  by_cases lapsed : bridge.isExpired now entry.2 = true <;> simp [lapsedStreams, lapsed]

theorem scan_uninterrupted (now : Nat) (state : LeaseState)
    (remaining kept : List (Sigma fun _ : String => StreamRoute)) (expired : List StoppedStream)
    (scanning : state.worker = .scanning now remaining expired)
    (entries : state.bridge.routes.entries = kept ++ remaining) :
    ∃ actions : List LeaseAction, ∃ routes erased,
      routes.entries = kept ++ remaining.filter (fun entry => !state.bridge.isExpired now entry.2) ∧
      actions.foldl perform state = { state with
        bridge := { state.bridge with routes := routes }
        worker := .scanning now [] (expired ++ lapsedStreams state.bridge now remaining)
        erased := erased } := by
  induction remaining generalizing state kept expired with
  | nil =>
      refine ⟨[], state.bridge.routes, state.erased, by simpa using entries, ?_⟩
      simp [lapsedStreams, ← scanning]
  | cons entry rest ih =>
      by_cases lapsed : state.bridge.isExpired now entry.2 = true
      · have distinct := state.bridge.routes.nodupKeys
        rw [entries, List.nodupKeys_iff_pairwise, List.pairwise_append] at distinct
        have apart : ∀ other ∈ kept, ¬ entry.1 = other.1 := fun other member same =>
          distinct.2.2 other member entry List.mem_cons_self same.symm
        have erased : (state.bridge.routes.erase entry.1).entries = kept ++ rest := by
          change List.kerase entry.1 state.bridge.routes.entries = kept ++ rest
          rw [entries, List.kerase, List.eraseP_append_right _ (by simpa using apart)]
          simp
        have stepped : ([LeaseAction.visit, .erase].foldl perform state) =
            state.erase now entry rest expired := by
          simp only [List.foldl_cons, List.foldl_nil, perform, scanning, LeaseState.visit, lapsed, if_true,
            withWorker]
          rfl
        obtain ⟨actions, routes, log, routed, reached⟩ := ih (state.erase now entry rest expired) kept
          (expired ++ [⟨entry.2.torrentId, entry.2.streamId⟩]) rfl erased
        refine ⟨[.visit, .erase] ++ actions, routes, log, ?_, ?_⟩
        · rw [List.filter_cons_of_neg (by simp [lapsed])]
          exact routed
        · rw [List.foldl_append, stepped, reached, lapsedStreams_cons, if_pos lapsed, List.append_assoc]
          rfl
      · have stepped : ([LeaseAction.visit].foldl perform state) =
            state.withWorker (.scanning now rest expired) := by
          simp only [List.foldl_cons, List.foldl_nil, perform, scanning, LeaseState.visit, lapsed,
            Bool.false_eq_true, if_false]
        obtain ⟨actions, routes, log, routed, reached⟩ := ih
          (state.withWorker (.scanning now rest expired)) (kept ++ [entry]) expired rfl
          (by simpa [withWorker] using entries)
        refine ⟨[.visit] ++ actions, routes, log, ?_, ?_⟩
        · rw [List.filter_cons_of_pos (by simpa using lapsed)]
          simpa [withWorker] using routed
        · rw [List.foldl_append, stepped, reached, lapsedStreams_cons, if_neg lapsed, List.nil_append]
          rfl

theorem report_uninterrupted (answers : String → Libtorrent) (expired : List StoppedStream)
    (state : LeaseState) (reporting : state.worker = .reporting expired) :
    ∃ actions : List LeaseAction, actions.foldl perform state = { state with
      bridge := expired.foldl (expireStream answers) state.bridge
      worker := .free } := by
  induction expired generalizing state with
  | nil =>
      refine ⟨[.report answers], ?_⟩
      simp only [List.foldl_cons, List.foldl_nil, perform, reporting]
      rfl
  | cons stream rest ih =>
      obtain ⟨actions, reached⟩ := ih ((state.withBridge (expireStream answers state.bridge
        stream)).withWorker (.reporting rest)) rfl
      refine ⟨.report answers :: actions, ?_⟩
      rw [List.foldl_cons]
      simp only [perform, reporting]
      exact reached

theorem filter_eraseIf (routes : HashMap String StreamRoute) (dropped : StreamRoute → Bool) :
    [] ++ routes.entries.filter (fun entry => !dropped entry.2) =
      (routes.eraseIf fun _ route => dropped route).entries := by
  rw [List.nil_append, AList.eraseIf, AList.filterMapEntries, ← List.filterMap_eq_filter]
  refine List.filterMap_congr fun entry _ => ?_
  cases lapsed : dropped entry.2 <;> simp [Option.guard, lapsed]

theorem expiry_uninterrupted (state : LeaseState)
    (answers : String → Libtorrent) :
    ∃ actions : List LeaseAction, (actions.foldl perform state).worker = .free ∧
      (actions.foldl perform state).bridge =
        state.bridge.expireInactiveStreams state.clock answers := by
  unfold expireInactiveStreams
  split
  · rename_i early
    refine ⟨[.readClock], ?_, ?_⟩ <;> simp only [List.foldl_cons, List.foldl_nil, perform, readClock,
      if_pos early] <;> rfl
  · rename_i due
    have sampled : state.readClock = { state with
        bridge := { state.bridge with
          nextInactivityCheck :=
            state.clock + min (max (state.bridge.inactivityTimeout / 2) 25) 1000 }
        worker := .sampled state.clock } := if_neg due
    obtain ⟨scan, routes, erased, routed, scanned⟩ := scan_uninterrupted state.clock
      (state.readClock.withWorker (.scanning state.clock state.readClock.bridge.routes.entries []))
      state.readClock.bridge.routes.entries [] [] rfl rfl
    obtain ⟨report, reported⟩ := report_uninterrupted answers
      ([] ++ lapsedStreams state.bridge state.clock state.bridge.routes.entries)
      ({ state with
        bridge := { state.readClock.bridge with routes := routes }
        worker := .reporting ([] ++ lapsedStreams state.bridge state.clock state.bridge.routes.entries)
        erased := erased } : LeaseState) rfl
    have same : routes = state.bridge.routes.eraseIf fun _ route =>
        state.bridge.isExpired state.clock route := by
      apply AList.ext
      rw [routed, sampled]
      exact filter_eraseIf _ _
    have locked : ([LeaseAction.readClock, .lockRoutes].foldl perform state) =
        state.readClock.withWorker (.scanning state.clock state.readClock.bridge.routes.entries []) := by
      simp only [List.foldl_cons, List.foldl_nil, perform, sampled]
    have run : (([LeaseAction.readClock, .lockRoutes] ++ scan) ++
        ([LeaseAction.unlockRoutes] ++ report)).foldl perform state = { state with
          bridge := ([] ++ lapsedStreams state.bridge state.clock state.bridge.routes.entries).foldl
            (expireStream answers) { state.readClock.bridge with routes := routes }
          worker := .free
          erased := erased } := by
      simp only [List.foldl_append]
      rw [locked, scanned, List.foldl_cons, List.foldl_nil]
      rw [sampled] at reported ⊢
      exact reported
    refine ⟨([.readClock, .lockRoutes] ++ scan) ++ ([.unlockRoutes] ++ report), by rw [run], ?_⟩
    rw [run, same, sampled]
    rfl

end LeaseState

end NuvioEngine.Bridge
