import NuvioEngine.Bridge.ReadersCore
import NuvioEngine.Stream.HandlerCore

/-!
The stream bridge with its loopback server. Every connection is handled by `handle_http`, whose thread
finds the routes, the flag of its demand and its waiter in the bridge and leaves its commands there, while
the stream worker goes on. A thread goes from one call of the writer or look at the stop token to the next
in one step.
-/

open NuvioEngine.Http NuvioEngine.Stream NuvioEngine.Bridge

namespace NuvioEngine

/-- What a thread finds outside of the bridge: the payload file and the clock. -/
structure Outside where
  opens : Bool := true
  file : Option (Nat → UInt8) := none
  now : Nat := 0

/-- A connection and what its thread has to give back: the `HttpRequestLease` of a stream, the
`DemandGuard` of a demand, and the waiter of the `serve_piece` it is in, which returns without giving the
waiter up when it has taken a verified piece. -/
structure Thread where
  connection : Connection Place := {}
  lease : Option String := none
  guard : Option Nat := none
  waiter : Option Nat := none
  verified : Bool := false

structure Service where
  session : Session
  threads : Nat → Thread := fun _ => {}

inductive ServiceAction where
  | connection (thread : Nat) (action : ConnectionAction Outside)
  | work (action : Action)

namespace Stream.Place

def job : Place → Option Job
  | .entering job | .pieces job .. | .testing job .. | .waiting job .. | .turning job .. => some job
  | .looking _ | .demanding .. | .returning => none

/-- The piece of the `serve_piece` that the thread is in. -/
def serving : Place → Option (Job × Nat)
  | .waiting job piece _ | .turning job piece .. => some (job, piece)
  | .looking _ | .demanding .. | .entering _ | .pieces .. | .testing .. | .returning => none

end Stream.Place

/-- What the worker did to a waiter, as far as its thread can see. -/
def seen (waiter : PieceWaiter) : List WorkerAction :=
  .publish waiter.finishedBlocks :: if waiter.done then [.complete waiter.data waiter.error] else []

namespace Thread

/-- What the thread finds. `serve_piece` does nothing with a waiter that it does not have yet. -/
def tell (thread : Thread) (bridge : BridgeState) (outside : Outside) : Told where
  routes := bridge.routes.values
  demandId := bridge.nextDemandId
  accepted := !bridge.shuttingDown && bridge.commands.length < maximumHttpCommands
  demandCancelled := thread.guard.any bridge.demandCancelled
  round := {
    actions := thread.waiter.elim [] fun waiter => seen (bridge.waiters waiter)
    demandCancelled := thread.guard.any bridge.demandCancelled
    opens := outside.opens
    file := outside.file }

/-- A turn of the wait loop finds the waiter done with a verified piece. -/
def takesVerified (state : ServeState) (stopped : Bool) (round : Round) : Bool :=
  let waiter := round.actions.foldl WorkerAction.apply state.waiter
  !(stopped || round.demandCancelled || (waiter.done && waiter.error != "")) && waiter.done &&
    waiter.data.isSome

/-- What a step of `handle_http` does to the bridge, and what its thread holds then. -/
def enter (thread : Thread) (session : Session) (place : Place) (told : Told) :
    List SessionAction × Thread :=
  match place with
  | .looking request =>
      match told.routes.find? fun route => bytes route.target == request.target with
      | none => ([], thread)
      | some route =>
          ([.work (.acquireRequest route.streamId)], { thread with lease := some route.streamId })
  | .demanding route range _ =>
      ([.beginRequest route range], { thread with
        guard := match handleHttp.next place told with
          | .write _ resume => (resume true).job.map Job.demandId
          | _ => none })
  | .testing .. =>
      match handleHttp.next place told with
      | .proceed (.waiting job piece _) =>
          ([.readRequest job.demandId (positionAt job.route job.absoluteStart piece)],
            { thread with waiter := some session.nextWaiter, verified := false })
      | _ => ([], thread)
  | .turning _ _ state stopped =>
      ([], { thread with verified := takesVerified state stopped told.round })
  | .entering _ | .pieces .. | .waiting .. | .returning => ([], thread)

/-- `serve_piece` returns: it gives its waiter up, unless it has taken a verified piece. -/
def leavePiece (thread : Thread) : List SessionAction × Thread :=
  match thread.waiter, thread.connection.phase with
  | some waiter, .handling place =>
      if place.serving.isSome then ([], thread)
      else
        (if thread.verified then [] else [.work (.abandonWaiter waiter)], { thread with waiter := none })
  | _, _ => ([], thread)

/-- `handle_http` returns: its demand ends, and then the request is given back. -/
def leaveHandler (thread : Thread) (now : Nat) : List SessionAction × Thread :=
  if thread.connection.phase.isRunning then ([], thread)
  else
    ((thread.guard.toList.map fun demandId => .work (.endRequest demandId)) ++
        thread.lease.toList.map fun streamId => .work (.releaseRequest streamId now),
      { thread with lease := none, guard := none })

/-- An action of the connection, what it does to the bridge and what the thread holds then. -/
def perform (thread : Thread) (session : Session) (action : ConnectionAction Outside) :
    List SessionAction × Thread :=
  let tell := thread.tell session.bridge
  let entered := match action, thread.connection.phase with
    | .handle outside, .handling place => thread.enter session place (tell outside)
    | _, _ => ([], thread)
  let now := match action with
    | .handle outside => outside.now
    | _ => 0
  let moved := { entered.2 with connection := thread.connection.perform handleHttp (action.map tell) }
  let served := moved.leavePiece
  let returned := served.2.leaveHandler now
  (entered.1 ++ served.1 ++ returned.1, returned.2)

end Thread

/-- What the stream worker does. -/
def Bridge.Action.isWorker : Action → Bool
  | .register .. | .stop .. | .remove .. | .poll .. | .popExpired | .readPieceAlert .. | .blockFinished ..
  | .hashFailed .. => true
  | .acquireRequest .. | .releaseRequest .. | .beginRequest .. | .readRequest .. | .endRequest ..
  | .abandonWaiter .. => false

/-- The worker takes in a verified piece from libtorrent. -/
def ServiceAction.Delivers (key : Cache.PieceKey) (data : List UInt8) : ServiceAction → Prop
  | .connection .. => False
  | .work action => Delivered key data action

namespace Service

def bridge (service : Service) : BridgeState := service.session.bridge

def perform (service : Service) : ServiceAction → Service
  | .connection thread action =>
      let performed := (service.threads thread).perform service.session action
      { session := performed.1.foldl Session.perform service.session
        threads := Function.update service.threads thread performed.2 }
  | .work action => { service with session := service.session.perform (.work action) }

/-- A connection takes a step that its place in the code allows, and the worker's calls are those of a
calm libtorrent. -/
def Possible (handles : Handles) (service : Service) : ServiceAction → Prop
  | .connection thread action =>
      (service.threads thread).connection.Possible (action.map ((service.threads thread).tell service.bridge))
  | .work action => action.isWorker = true ∧ service.session.system.Possible action ∧
      handles.Answers service.session action

def Initial (service : Service) : Prop :=
  ∃ session : Session, session.Initial ∧ service = { session := session }

def Reachable (handles : Handles) : Service → Prop :=
  Transition.Reachable Initial (Possible handles) perform

end Service

end NuvioEngine
