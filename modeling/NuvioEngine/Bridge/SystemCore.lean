import NuvioEngine.Bridge.OperationsCore
import NuvioEngine.Lib.Transition

/-!
The bridge as a system: the operations of the worker thread, the alerts, and what the HTTP
threads do to the command queue and to the objects they share with the worker.
-/

namespace NuvioEngine.Bridge

open NuvioEngine.Scheduler NuvioEngine.Stream NuvioEngine.Cache BridgeState

inductive Action where
  | register (lt : Libtorrent) (token : String) (handle : Nat) (id : String) (fileIndex : Nat)
      (file : TorrentFileInfo)
  | stop (lt : Libtorrent) (streamId : String)
  | remove (lt : Libtorrent) (id : String)
  | poll (answers : PollAnswers)
  | popExpired
  | readPieceAlert (alert : ReadPieceAlert)
  | blockFinished (lt : Libtorrent) (torrentId : String) (piece block : Nat)
  | hashFailed (torrentId : String) (piece : Nat)
  | acquireRequest (streamId : String)
  | releaseRequest (streamId : String) (now : Nat)
  | beginRequest (route : StreamRoute) (bodyRange : ByteRange)
  | readRequest (command : HttpCommand)
  | endRequest (demandId : Nat)
  | abandonWaiter (waiter : Nat)

/-- The bridge and the routes registered so far; an HTTP thread may still hold a copy of a route
that is gone. -/
structure System where
  bridge : BridgeState
  registered : List StreamRoute := []

/-- `handle_http` up to the `begin_demand` command. -/
def BridgeState.beginRequest (state : BridgeState) (route : StreamRoute) (bodyRange : ByteRange) :
    BridgeState :=
  let numbered := { state with nextDemandId := state.nextDemandId + 1 }
  match blockingDemandRange bodyRange bodyRange.start route.fileOffset route.pieceSize with
  | .error _ => numbered
  | .ok range =>
      let command : HttpCommand := {
        type := .beginDemand
        demandId := state.nextDemandId
        route := route
        range := range
        piece := 0
        waiter := none
        demandState := some state.nextDemandId }
      (numbered.enqueue command).getD numbered

/-- `serve_piece` up to the `read_piece` command: a new waiter and the command that carries it. -/
def BridgeState.readRequest (state : BridgeState) (command : HttpCommand) : BridgeState :=
  let created := { state with
    waiters := match command.waiter with
      | none => state.waiters
      | some waiter => Function.update state.waiters waiter { demandId := command.demandId } }
  (created.enqueue command).getD created

def BridgeState.abandonWaiter (state : BridgeState) (waiter : Nat) : BridgeState :=
  { state with waiters :=
      Function.update state.waiters waiter { state.waiters waiter with cancelled := true } }

def BridgeState.setActivity (state : BridgeState) (streamId : String)
    (change : StreamActivity → StreamActivity) : BridgeState :=
  { state with activities :=
      Function.update state.activities streamId (change (state.activities streamId)) }

def BridgeState.perform (state : BridgeState) : Action → BridgeState
  | .register lt token handle id fileIndex file =>
      match registerStream lt state token handle id fileIndex file with
      | .error _ => state
      | .ok (next, _) => next
  | .stop lt streamId => (stopStream lt state streamId).1
  | .remove lt id => removeTorrent lt state id
  | .poll answers => (state.poll answers).1
  | .popExpired => state.popExpiredStreams.1
  | .readPieceAlert alert => state.handleReadPiece alert
  | .blockFinished lt torrentId piece block => handleBlockFinished lt state torrentId piece block
  | .hashFailed torrentId piece => state.handleHashFailed torrentId piece
  | .acquireRequest streamId => state.setActivity streamId StreamActivity.acquireHttpRequest
  | .releaseRequest streamId now =>
      state.setActivity streamId fun activity => activity.releaseHttpRequest now
  | .beginRequest route bodyRange => state.beginRequest route bodyRange
  | .readRequest command => state.readRequest command
  | .endRequest demandId => state.enqueueEnd demandId
  | .abandonWaiter waiter => state.abandonWaiter waiter

def System.perform (system : System) (action : Action) : System where
  bridge := system.bridge.perform action
  registered := match action with
    | .register lt token handle id fileIndex file =>
        match routeFor lt system.bridge token handle id fileIndex file with
        | .error _ => system.registered
        | .ok route => route :: system.registered
    | _ => system.registered

/-- What the callers and libtorrent promise of an action: tokens are drawn once and torrent ids are
not empty, nothing throws out of `poll`, and `handle_http` has the copy of a route of a file with
bytes. The other commands are arbitrary. -/
def System.Possible (system : System) : Action → Prop
  | .register _ token _ id _ _ => token ∉ system.registered.map StreamRoute.streamId ∧ id ≠ ""
  | .poll answers => (system.bridge.poll answers).2 = false
  | .beginRequest route _ => route ∈ system.registered ∧ 0 < route.fileSize
  | .readRequest command => command.type = .readPiece
  | _ => True

instance (system : System) : DecidablePred system.Possible
  | .register .. => instDecidableAnd
  | .poll answers => instDecidableEqBool (system.bridge.poll answers).2 false
  | .beginRequest .. => instDecidableAnd
  | .readRequest command => inferInstanceAs (Decidable (command.type = .readPiece))
  | .stop .. | .remove .. | .popExpired | .readPieceAlert .. | .blockFinished .. | .hashFailed ..
  | .acquireRequest .. | .releaseRequest .. | .endRequest .. | .abandonWaiter .. => instDecidableTrue

/-- A bridge without streams. -/
def System.Initial (system : System) : Prop :=
  ∃ memoryCapacityBytes diskCapacityBytes inactivity,
    system = { bridge := .create memoryCapacityBytes diskCapacityBytes inactivity }

def System.Reachable : System → Prop :=
  Transition.Reachable System.Initial System.Possible System.perform

/-- A torrent with one file of two pieces. -/
def twoPieces : TorrentInfo :=
  ⟨2, 16384, by decide, fun _ => 16384, fun _ savePath => savePath ++ "/video.mp4"⟩

end NuvioEngine.Bridge
