import NuvioEngine.Bridge.ReadersCore

/-!
The bridge with its HTTP threads and the record of what is known about the blocks of each piece: the
snapshots that `process_piece_request` takes of the download queue, and the alerts about blocks and
hash failures. The record is read by nobody. Every read request makes a waiter of its own; whatever
else the threads, the worker and libtorrent do is arbitrary, and `poll` may throw.
-/

namespace NuvioEngine.Bridge

open NuvioEngine.Scheduler NuvioEngine.Stream NuvioEngine.Cache BridgeState

inductive BlockEvent where
  | snapshot (pieceBytes : Nat) (queue : List PartialPiece)
  | finished (block : Nat)
  | hashFailed
  deriving DecidableEq, Repr

/-- A download queue that cannot be read shows no blocks. -/
def Libtorrent.readQueue (lt : Libtorrent) (handle : Nat) : List PartialPiece :=
  match lt.downloadQueue handle with
  | .ok queue => queue
  | .error _ => []

/-- The snapshot of a command that made the entry of its piece. -/
def snapshotOf (lt : Libtorrent) (command : HttpCommand) (before after : BridgeState) :
    List (PieceKey × BlockEvent) :=
  let key : PieceKey := ⟨command.route.torrentId, command.piece⟩
  if before.partialBlocks.lookup key = none ∧ after.partialBlocks.lookup key ≠ none then
    match lt.torrentFile command.route.handle with
    | .ok (some metadata) =>
        [(key, .snapshot (metadata.pieceSize command.piece) (lt.readQueue command.route.handle))]
    | _ => []
  else []

/-- The snapshots of a batch, in the order of `processCommands`. -/
def snapshotsOf (answers : Nat → Libtorrent) :
    Nat → List HttpCommand → BridgeState → List (PieceKey × BlockEvent)
  | _, [], _ => []
  | position, command :: rest, state =>
      let processed := state.processCommand (answers position) command
      snapshotOf (answers position) command state processed.1 ++
        if processed.2.2 then [] else snapshotsOf answers (position + 1) rest processed.1

structure Publication where
  session : Session
  history : List (PieceKey × BlockEvent) := []

namespace Publication

def bridge (publication : Publication) : BridgeState := publication.session.bridge

def events (publication : Publication) : SessionAction → List (PieceKey × BlockEvent)
  | .work (.blockFinished _ torrentId piece block) => [(⟨torrentId, piece⟩, .finished block)]
  | .work (.hashFailed torrentId piece) => [(⟨torrentId, piece⟩, .hashFailed)]
  | .work (.poll answers) => snapshotsOf answers.command 0 publication.bridge.commands
      { publication.bridge with commands := [] }
  | _ => []

def perform (publication : Publication) (action : SessionAction) : Publication where
  session := publication.session.perform action
  history := publication.history ++ publication.events action

/-- A read request takes the next waiter. -/
def Possible (_ : Publication) : SessionAction → Prop
  | .work (.readRequest _) => False
  | _ => True

def Initial (publication : Publication) : Prop :=
  ∃ session : Session, session.Initial ∧ publication = { session := session }

def Reachable : Publication → Prop := Transition.Reachable Initial Possible perform

end Publication

def eventsOf (key : PieceKey) (history : List (PieceKey × BlockEvent)) : List BlockEvent :=
  history.filterMap fun entry => if entry.1 = key then some entry.2 else none

/-- The download queue has the block as finished. -/
def Written (queue : List PartialPiece) (piece block : Nat) : Prop :=
  ∃ entry ∈ queue, entry.pieceIndex = piece ∧ entry.blocks[block]? = some true

/-- An entry made from the last snapshot of its piece has one bit for each block. A bit is set for a
block that was finished in the snapshot or in an alert since, with no hash failure after it. -/
def Accounted (piece : Nat) (events : List BlockEvent) (blocks : List Bool) : Prop :=
  ∃ earlier pieceBytes queue later, events = earlier ++ .snapshot pieceBytes queue :: later ∧
    (∀ bytes other, .snapshot bytes other ∉ later) ∧
    blocks.length = (pieceBytes + blockBytes - 1) / blockBytes ∧
    ∀ block : Nat, blocks[block]? = some true →
      (Written queue piece block ∧ .hashFailed ∉ later) ∨
        ∃ before after, later = before ++ .finished block :: after ∧ .hashFailed ∉ after

end NuvioEngine.Bridge
