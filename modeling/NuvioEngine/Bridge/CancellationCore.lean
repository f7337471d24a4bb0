import NuvioEngine.Bridge.SystemCore

/-!
The read alerts on their way from libtorrent to the bridge. Resetting the deadline of a piece that
carries `alert_when_available` posts an alert with an error; alerts are delivered in the order in
which they were posted, after any delay. A posted cancellation remembers who waited for its piece
when the deadline was reset: in a step of the worker waiters are registered before deadlines are
reset, so a waiter that is not remembered was registered later.
-/

namespace NuvioEngine.Bridge

open NuvioEngine.Stream NuvioEngine.Cache BridgeState

inductive PostedAlert where
  | cancelled (key : PieceKey) (waiters : List Nat)
  | read (alert : ReadPieceAlert)
  deriving DecidableEq

def cancelledAlert (key : PieceKey) : ReadPieceAlert :=
  ⟨key.torrentId, key.piece, some "Operation canceled", none⟩

def PostedAlert.alert : PostedAlert → ReadPieceAlert
  | .cancelled key _ => cancelledAlert key
  | .read alert => alert

/-- The bridge, the deadlines that carry `alert_when_available` as pairs of a handle and a piece, and
the alerts that were not delivered yet. -/
structure Feed where
  system : System
  flagged : List (Nat × Nat) := []
  posted : List PostedAlert := []

/-- `settle` is libtorrent taking a deadline away because the piece is there. -/
inductive FeedAction where
  | work (action : Action)
  | settle (handle piece : Nat)
  | post (alert : ReadPieceAlert)
  | deliver

def Action.isReadPieceAlert : Action → Bool
  | .readPieceAlert _ => true
  | _ => false

def waitersOf (state : BridgeState) (key : PieceKey) : List Nat :=
  (state.pieceWaiters.lookup key).getD []

namespace Feed

def bridge (feed : Feed) : BridgeState := feed.system.bridge

variable (torrentOf : Nat → String)

def cancel (feed : Feed) (deadline : Nat × Nat) : Feed :=
  let key : PieceKey := ⟨torrentOf deadline.1, deadline.2⟩
  if deadline ∈ feed.flagged then
    { feed with
      flagged := feed.flagged.erase deadline
      posted := feed.posted ++ [.cancelled key (waitersOf feed.bridge key)] }
  else feed

/-- What libtorrent does about the alerts of a deadline when it is called. -/
def heed (feed : Feed) (call : Nat × LtCall) : Feed :=
  match call.2 with
  | .setPieceDeadline piece _ true => { feed with flagged := feed.flagged.insert (call.1, piece) }
  | .setPieceDeadline piece _ false => { feed with flagged := feed.flagged.erase (call.1, piece) }
  | .resetPieceDeadline piece => feed.cancel torrentOf (call.1, piece)
  | .clearPieceDeadlines =>
      (feed.flagged.filter fun deadline => deadline.1 = call.1).foldl (cancel torrentOf) feed
  | .prioritizePieces _ | .prioritizeUpdates _ | .setPieceFirstBlock _ _ | .readPiece _ => feed

/-- The calls of a step, and what libtorrent posts on them. -/
def perform (feed : Feed) : FeedAction → Feed
  | .work action =>
      let next := feed.system.perform action
      (next.bridge.calls.drop feed.bridge.calls.length).foldl (heed torrentOf)
        { feed with system := next }
  | .settle handle piece => { feed with flagged := feed.flagged.erase (handle, piece) }
  | .post alert => { feed with posted := feed.posted ++ [.read alert] }
  | .deliver =>
      match feed.posted with
      | [] => feed
      | first :: rest =>
          { feed with system := feed.system.perform (.readPieceAlert first.alert), posted := rest }

/-- Read alerts come from the queue alone. -/
def Possible (feed : Feed) : FeedAction → Prop
  | .work action => action.isReadPieceAlert = false ∧ feed.system.Possible action
  | .deliver => feed.posted.isEmpty = false
  | .settle .. | .post .. => True

instance (feed : Feed) : DecidablePred feed.Possible
  | .work _ => instDecidableAnd
  | .deliver => instDecidableEqBool _ _
  | .settle .. | .post .. => instDecidableTrue

def Initial (feed : Feed) : Prop := ∃ system : System, system.Initial ∧ feed = { system := system }

def Reachable : Feed → Prop := Transition.Reachable Initial Possible (perform torrentOf)

def cancels (feed : Feed) (key : PieceKey) : Bool :=
  feed.posted.any fun
    | .cancelled other _ => other = key
    | .read _ => false

/-- A poll takes no read of a piece with an undelivered cancellation, unless the piece is cached. -/
def Separate (feed : Feed) : FeedAction → Prop
  | .work (.poll _) => ∀ command ∈ feed.bridge.commands, command.type = .readPiece →
      feed.cancels ⟨command.route.torrentId, command.piece⟩ = true →
        feed.bridge.pieceCache.contains ⟨command.route.torrentId, command.piece⟩ = true
  | _ => True

end Feed

end NuvioEngine.Bridge
