import NuvioEngine.Bridge.SystemCore

/-!
The bridge with its HTTP threads. A thread begins a demand with the copy of a route and then reads
piece after piece: `serve_piece` returns only when its waiter is done or cancelled, so a demand has
one open waiter at a time. Waiters are numbered in the order in which they are made.
-/

namespace NuvioEngine.Bridge

open NuvioEngine.Scheduler NuvioEngine.Stream NuvioEngine.Cache BridgeState

/-- How libtorrent was asked for a piece since its deadline was last reset. -/
structure Asking where
  alertWhenAvailable : Bool := false
  read : Bool := false
  deriving DecidableEq, Repr

def Asking.apply (piece : Nat) (asking : Asking) : LtCall → Asking
  | .setPieceDeadline other _ alert =>
      if other = piece then { asking with alertWhenAvailable := alert } else asking
  | .resetPieceDeadline other => if other = piece then {} else asking
  | .readPiece other => if other = piece then { asking with read := true } else asking
  | .clearPieceDeadlines => {}
  | .prioritizePieces _ | .prioritizeUpdates _ | .setPieceFirstBlock _ _ => asking

def asking (handle piece : Nat) (calls : List (Nat × LtCall)) : Asking :=
  calls.foldl (fun current call => if call.1 = handle then current.apply piece call.2 else current) {}

def asked (handle piece : Nat) (calls : List (Nat × LtCall)) : Bool :=
  (asking handle piece calls).alertWhenAvailable || (asking handle piece calls).read

structure StreamRequest where
  route : StreamRoute
  bodyRange : ByteRange
  deriving DecidableEq, Repr

/-- The `read_piece` command for the piece at a position of the file. -/
def StreamRequest.command (request : StreamRequest) (demandId position waiter : Nat) :
    Option HttpCommand :=
  match blockingDemandRange request.bodyRange position request.route.fileOffset
      request.route.pieceSize with
  | .error _ => none
  | .ok range => some {
      type := .readPiece
      demandId := demandId
      route := request.route
      range := range
      piece := pieceAt request.route.fileOffset request.route.pieceSize position
      waiter := some waiter
      demandState := some demandId }

structure Session where
  system : System
  requests : Nat → Option StreamRequest := fun _ => none
  nextWaiter : Nat := 0

inductive SessionAction where
  | beginRequest (route : StreamRoute) (bodyRange : ByteRange)
  | readRequest (demandId position : Nat)
  | work (action : Action)

def Session.bridge (session : Session) : BridgeState := session.system.bridge

def Session.perform (session : Session) : SessionAction → Session
  | .beginRequest route bodyRange =>
      { session with
        system := session.system.perform (.beginRequest route bodyRange)
        requests := Function.update session.requests session.bridge.nextDemandId
          (some ⟨route, bodyRange⟩) }
  | .readRequest demandId position =>
      match (session.requests demandId).bind fun request =>
          request.command demandId position session.nextWaiter with
      | none => session
      | some command =>
          { session with
            system := session.system.perform (.readRequest command)
            nextWaiter := session.nextWaiter + 1 }
  | .work action => { session with system := session.system.perform action }

def finished (waiter : PieceWaiter) : Bool := waiter.done || waiter.cancelled

/-- The torrent behind each handle, and the handles that stay valid: a handle that becomes invalid
never becomes valid again. -/
structure Handles where
  torrentOf : Nat → String
  valid : Nat → Prop

/-- No call throws, and the handles that stay valid are valid. -/
structure Handles.Calm (handles : Handles) (lt : Libtorrent) : Prop where
  accepts : ∀ handle call, lt.fails handle call = none
  valid : ∀ handle, handles.valid handle → lt.isValid handle = true

/-- The pieces of the route's file have 32-bit indices. -/
def Indexed (route : StreamRoute) : Prop :=
  route.fileSize ≤ uint64Max ∧
    (route.fileOffset + route.fileSize - 1) / route.pieceSize ≤ uint32Max

def Handles.Answers (handles : Handles) (session : Session) : Action → Prop
  | .register lt token handle id fileIndex file => handles.Calm lt ∧ handles.torrentOf handle = id ∧
      ∀ route, routeFor lt session.bridge token handle id fileIndex file = .ok route → Indexed route
  | .stop lt _ | .remove lt _ | .blockFinished lt _ _ _ => handles.Calm lt
  | .poll answers => (∀ position, handles.Calm (answers.command position)) ∧
      (∀ id, handles.Calm (answers.recompute id)) ∧ handles.Calm answers.watchdog ∧
      ∀ id, handles.Calm (answers.expired id)
  | .beginRequest .. | .readRequest .. => False
  | .popExpired | .readPieceAlert .. | .hashFailed .. | .acquireRequest .. | .releaseRequest ..
  | .endRequest .. | .abandonWaiter .. => True

/-- A thread reads inside the range of its response, and only when its last waiter is finished. -/
def Handles.Possible (handles : Handles) (session : Session) : SessionAction → Prop
  | .beginRequest route bodyRange => route ∈ session.system.registered ∧
      bodyRange.start ≤ bodyRange.last ∧ bodyRange.last < route.fileSize
  | .readRequest demandId position => ∃ request, session.requests demandId = some request ∧
      request.bodyRange.start ≤ position ∧ position ≤ request.bodyRange.last ∧
      ∀ waiter < session.nextWaiter, (session.bridge.waiters waiter).demandId = demandId →
        finished (session.bridge.waiters waiter) = true
  | .work action => session.system.Possible action ∧ handles.Answers session action

/-- The alert delivers a verified piece. -/
def Delivered (key : PieceKey) (data : List UInt8) : Action → Prop
  | .readPieceAlert alert => key = ⟨alert.torrentId, alert.piece⟩ ∧ alert.error = none ∧
      alert.buffer = some data
  | .register .. | .stop .. | .remove .. | .poll .. | .popExpired | .blockFinished .. | .hashFailed ..
  | .acquireRequest .. | .releaseRequest .. | .beginRequest .. | .readRequest .. | .endRequest ..
  | .abandonWaiter .. => False

def Session.Initial (session : Session) : Prop :=
  ∃ system : System, system.Initial ∧ session = { system := system }

def Handles.Reachable (handles : Handles) : Session → Prop :=
  Transition.Reachable Session.Initial handles.Possible Session.perform

end NuvioEngine.Bridge
