import NuvioEngine.Bridge.PollRouting
import NuvioEngine.Bridge.SystemCore
import Mathlib.Data.Fintype.Card

/-!
The bridge at the level of its locks. An HTTP thread looks a route up and takes its lease while it
holds `routes_mutex`, and gives the lease back under the mutex of the stream's activity only. The
worker reads the clock before it takes `routes_mutex` to look for inactive streams, and it gives the
mutex back before it reports them.
-/

namespace NuvioEngine.Bridge

open NuvioEngine.Scheduler NuvioEngine.Stream NuvioEngine.Cache BridgeState

def streamWorkerCount : Nat := 8

/-- What the worker thread is about to do. `registering` has read the clock for the new activity,
`scanning` and `erasing` hold `routes_mutex`. -/
inductive Worker where
  | free
  | registering (route : StreamRoute) (opened : Nat) (previous : List String)
  | polled
  | sampled (now : Nat)
  | scanning (now : Nat) (remaining : List (Sigma fun _ : String => StreamRoute))
      (expired : List StoppedStream)
  | erasing (now : Nat) (entry : Sigma fun _ : String => StreamRoute)
      (remaining : List (Sigma fun _ : String => StreamRoute)) (expired : List StoppedStream)
  | reporting (expired : List StoppedStream)
  deriving DecidableEq

def Worker.holdsRoutes : Worker → Bool
  | .scanning .. | .erasing .. => true
  | .free | .registering .. | .polled | .sampled .. | .reporting .. => false

/-- The streams the worker has erased and not yet reported. -/
def Worker.pending : Worker → List StoppedStream
  | .scanning _ _ expired | .erasing _ _ _ expired | .reporting expired => expired
  | .free | .registering .. | .polled | .sampled .. => []

/-- The bridge with its threads, and the record of a run: `idleSince` is the later of a stream's
registration and the last release that left it without a lease, `erased` are the streams that
expired and `popped` what `pop_expired_streams` has returned. -/
structure LeaseState where
  bridge : BridgeState
  clock : Nat := 0
  worker : Worker := .free
  leases : Fin streamWorkerCount → Option String := fun _ => none
  tokens : List String := []
  idleSince : String → Nat := fun _ => 0
  erased : List StoppedStream := []
  popped : List StoppedStream := []

inductive LeaseAction where
  | advance (now : Nat)
  | lookUp (thread : Fin streamWorkerCount) (target : String)
  | release (thread : Fin streamWorkerCount)
  | request (action : Action)
  | work (action : Action)
  | openRoute (lt : Libtorrent) (token : String) (handle : Nat) (id : String) (fileIndex : Nat)
      (file : TorrentFileInfo)
  | stopPrevious (lt : Libtorrent)
  | enterRoute (lt : Libtorrent)
  | takeCommands (answers : PollAnswers)
  | readClock
  | lockRoutes
  | visit
  | erase
  | unlockRoutes
  | report (answers : String → Libtorrent)

/-- The steps of `expire_inactive_streams`. -/
def LeaseAction.isExpiry : LeaseAction → Bool
  | .readClock | .lockRoutes | .visit | .erase | .unlockRoutes | .report _ => true
  | .advance .. | .lookUp .. | .release .. | .request .. | .work .. | .openRoute .. | .stopPrevious ..
  | .enterRoute .. | .takeCommands .. => false

/-- What an HTTP thread does besides taking and giving back leases. -/
def Action.isRequest : Action → Bool
  | .beginRequest .. | .readRequest .. | .endRequest .. | .abandonWaiter .. => true
  | .register .. | .stop .. | .remove .. | .poll .. | .popExpired | .readPieceAlert ..
  | .blockFinished .. | .hashFailed .. | .acquireRequest .. | .releaseRequest .. => false

/-- What the worker does besides registering streams and polling. -/
def Action.isWork : Action → Bool
  | .stop .. | .remove .. | .popExpired | .readPieceAlert .. | .blockFinished .. | .hashFailed .. => true
  | .register .. | .poll .. | .acquireRequest .. | .releaseRequest .. | .beginRequest ..
  | .readRequest .. | .endRequest .. | .abandonWaiter .. => false

/-- The end of `register_stream`, when the torrent's old streams have stopped. -/
def BridgeState.enterRoute (lt : Libtorrent) (state : BridgeState) (route : StreamRoute)
    (opened : Nat) : BridgeState :=
  let registered := { state with
    routes := state.routes.insert route.target route
    lastReadyPieces := state.lastReadyPieces.erase route.torrentId
    revokedTorrents := state.revokedTorrents.filter fun id => id ≠ route.torrentId
    activities := Function.update state.activities route.streamId { lastActivity := opened } }
  if route.fileSize > 0 then
    match blockingDemandRange ⟨0, route.fileSize - 1⟩ 0 route.fileOffset route.pieceSize with
    | .error _ => registered
    | .ok range =>
        recomputeSchedule lt { registered with
          anchors := registered.anchors.insert route.torrentId ⟨route, range, true⟩ } route.torrentId
  else registered

namespace LeaseState

def withBridge (state : LeaseState) (bridge : BridgeState) : LeaseState := { state with bridge := bridge }

def withWorker (state : LeaseState) (worker : Worker) : LeaseState := { state with worker := worker }

/-- `handle_http` up to the lease. -/
def lookUp (state : LeaseState) (thread : Fin streamWorkerCount) (target : String) : LeaseState :=
  match state.bridge.routes.lookup target with
  | none => state
  | some route =>
      { state with
        bridge := state.bridge.setActivity route.streamId StreamActivity.acquireHttpRequest
        leases := Function.update state.leases thread (some route.streamId) }

/-- The destructor of `HttpRequestLease`. -/
def release (state : LeaseState) (thread : Fin streamWorkerCount) : LeaseState :=
  match state.leases thread with
  | none => state
  | some streamId =>
      let leases := Function.update state.leases thread none
      { state with
        bridge := state.bridge.setActivity streamId fun activity =>
          activity.releaseHttpRequest state.clock
        leases := leases
        idleSince :=
          if ∃ other, leases other = some streamId then state.idleSince
          else Function.update state.idleSince streamId state.clock }

def openRoute (state : LeaseState) (lt : Libtorrent) (token : String) (handle : Nat) (id : String)
    (fileIndex : Nat) (file : TorrentFileInfo) : LeaseState :=
  match routeFor lt state.bridge token handle id fileIndex file with
  | .error _ => state
  | .ok route =>
      { state with
        tokens := token :: state.tokens
        worker := .registering route state.clock
          ((state.bridge.routes.entries.filter fun entry => entry.2.torrentId = id).map
            fun entry => entry.2.streamId) }

/-- `poll` up to the search for inactive streams; a command that throws ends it. -/
def takeCommands (state : LeaseState) (answers : PollAnswers) : LeaseState :=
  let processed := processCommands answers.command 0 state.bridge.commands
    { state.bridge with commands := [] } []
  if processed.2.2 then state.withBridge processed.1
  else { state with bridge := Bridge.polled state.bridge answers, worker := .polled }

def readClock (state : LeaseState) : LeaseState :=
  if state.bridge.inactivityTimeout = 0 ∨ state.clock < state.bridge.nextInactivityCheck then
    state.withWorker .free
  else
    { state with
      bridge := { state.bridge with
        nextInactivityCheck :=
          state.clock + min (max (state.bridge.inactivityTimeout / 2) 25) 1000 }
      worker := .sampled state.clock }

def visit (state : LeaseState) (now : Nat) (entry : Sigma fun _ : String => StreamRoute)
    (remaining : List (Sigma fun _ : String => StreamRoute)) (expired : List StoppedStream) : LeaseState :=
  if state.bridge.isExpired now entry.2 then state.withWorker (.erasing now entry remaining expired)
  else state.withWorker (.scanning now remaining expired)

def erase (state : LeaseState) (now : Nat) (entry : Sigma fun _ : String => StreamRoute)
    (remaining : List (Sigma fun _ : String => StreamRoute)) (expired : List StoppedStream) : LeaseState :=
  { state with
    bridge := { state.bridge with routes := state.bridge.routes.erase entry.1 }
    worker := .scanning now remaining (expired ++ [⟨entry.2.torrentId, entry.2.streamId⟩])
    erased := state.erased ++ [⟨entry.2.torrentId, entry.2.streamId⟩] }

def work (state : LeaseState) (action : Action) : LeaseState :=
  { state with
    bridge := state.bridge.perform action
    popped :=
      match action with
      | .popExpired => state.popped ++ state.bridge.popExpiredStreams.2
      | _ => state.popped }

def perform (state : LeaseState) : LeaseAction → LeaseState
  | .advance now => { state with clock := now }
  | .lookUp thread target => state.lookUp thread target
  | .release thread => state.release thread
  | .request action => state.withBridge (state.bridge.perform action)
  | .work action => state.work action
  | .openRoute lt token handle id fileIndex file => state.openRoute lt token handle id fileIndex file
  | .stopPrevious lt =>
      match state.worker with
      | .registering route opened (streamId :: rest) =>
          (state.withBridge (stopStream lt state.bridge streamId).1).withWorker
            (.registering route opened rest)
      | _ => state
  | .enterRoute lt =>
      match state.worker with
      | .registering route opened [] =>
          { state with
            bridge := state.bridge.enterRoute lt route opened
            worker := .free
            idleSince := Function.update state.idleSince route.streamId opened }
      | _ => state
  | .takeCommands answers => state.takeCommands answers
  | .readClock => state.readClock
  | .lockRoutes =>
      match state.worker with
      | .sampled now => state.withWorker (.scanning now state.bridge.routes.entries [])
      | _ => state
  | .visit =>
      match state.worker with
      | .scanning now (entry :: remaining) expired => state.visit now entry remaining expired
      | _ => state
  | .erase =>
      match state.worker with
      | .erasing now entry remaining expired => state.erase now entry remaining expired
      | _ => state
  | .unlockRoutes =>
      match state.worker with
      | .scanning _ [] expired => state.withWorker (.reporting expired)
      | _ => state
  | .report answers =>
      match state.worker with
      | .reporting (stream :: rest) =>
          (state.withBridge (expireStream answers state.bridge stream)).withWorker (.reporting rest)
      | .reporting [] => state.withWorker .free
      | _ => state

/-- The clock does not go back, a thread takes one lease at a time and waits for `routes_mutex`, the
worker does one thing after the other, and tokens are drawn once. -/
def Possible (state : LeaseState) : LeaseAction → Prop
  | .advance now => state.clock ≤ now
  | .lookUp thread _ => state.leases thread = none ∧ state.worker.holdsRoutes = false
  | .release thread => (state.leases thread).isSome = true
  | .request action => action.isRequest = true
  | .work action => state.worker = .free ∧ action.isWork = true
  | .openRoute _ token _ _ _ _ => state.worker = .free ∧ token ∉ state.tokens
  | .takeCommands _ => state.worker = .free
  | .readClock => state.worker = .polled
  | .stopPrevious _ | .enterRoute _ | .lockRoutes | .visit | .erase | .unlockRoutes | .report _ => True

instance (state : LeaseState) : DecidablePred state.Possible
  | .advance now => inferInstanceAs (Decidable (state.clock ≤ now))
  | .lookUp .. | .work .. | .openRoute .. => instDecidableAnd
  | .release thread => inferInstanceAs (Decidable ((state.leases thread).isSome = true))
  | .request action => inferInstanceAs (Decidable (action.isRequest = true))
  | .takeCommands _ => inferInstanceAs (Decidable (state.worker = .free))
  | .readClock => inferInstanceAs (Decidable (state.worker = .polled))
  | .stopPrevious _ | .enterRoute _ | .lockRoutes | .visit | .erase | .unlockRoutes | .report _ =>
      instDecidableTrue

def Initial (state : LeaseState) : Prop :=
  ∃ memoryCapacityBytes diskCapacityBytes inactivity clock,
    state = { bridge := .create memoryCapacityBytes diskCapacityBytes inactivity, clock := clock }

def Reachable : LeaseState → Prop := Transition.Reachable Initial Possible perform

/-- How many threads hold the lease of a stream. -/
def holders (state : LeaseState) (streamId : String) : Nat :=
  (Finset.univ.filter fun thread => state.leases thread = some streamId).card

end LeaseState

end NuvioEngine.Bridge
