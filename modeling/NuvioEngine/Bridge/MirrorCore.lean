import NuvioEngine.Bridge.ScheduleCore
import NuvioEngine.Lib.Transition

/-!
libtorrent's side of the schedule: per piece a priority, a deadline and a first block, as the calls
of the bridge leave them. `priority` follows `prioritize_pieces` alone; `effective` also knows that
a deadline raises its piece and that a reset lowers it. A run recomputes the schedule of one
torrent, with arbitrary changes of the bridge in between.
-/

namespace NuvioEngine.Bridge

open NuvioEngine.Scheduler NuvioEngine.Stream NuvioEngine.Cache

structure TorrentMaps where
  priority : Nat → Nat
  effective : Nat → Nat
  deadline : Nat → Option Nat := fun _ => none
  firstBlock : Nat → Nat := fun _ => 0

namespace TorrentMaps

def prioritize (maps : TorrentMaps) (piece priority : Nat) : TorrentMaps :=
  { maps with
    priority := Function.update maps.priority piece priority
    effective := Function.update maps.effective piece priority }

def prioritizeAll (maps : TorrentMaps) (priorities : List Nat) : TorrentMaps :=
  { maps with
    priority := fun piece => priorities.getD piece (maps.priority piece)
    effective := fun piece => priorities.getD piece (maps.effective piece) }

def setDeadline (maps : TorrentMaps) (piece deadline : Nat) : TorrentMaps :=
  { maps with
    deadline := Function.update maps.deadline piece (some deadline)
    effective := Function.update maps.effective piece topPriority }

def resetDeadline (maps : TorrentMaps) (piece : Nat) : TorrentMaps :=
  { maps with
    deadline := Function.update maps.deadline piece none
    firstBlock := Function.update maps.firstBlock piece 0
    effective := if (maps.deadline piece).isSome then Function.update maps.effective piece lowPriority
      else maps.effective }

def clearDeadlines (maps : TorrentMaps) : TorrentMaps :=
  { maps with
    deadline := fun _ => none
    effective := fun piece =>
      if (maps.deadline piece).isSome then lowPriority else maps.effective piece }

def apply (maps : TorrentMaps) : LtCall → TorrentMaps
  | .prioritizePieces priorities => maps.prioritizeAll priorities
  | .prioritizeUpdates updates => updates.foldl (fun current update =>
      current.prioritize update.1 update.2) maps
  | .setPieceDeadline piece deadline _ => maps.setDeadline piece deadline
  | .resetPieceDeadline piece => maps.resetDeadline piece
  | .setPieceFirstBlock piece block =>
      { maps with firstBlock := Function.update maps.firstBlock piece block }
  | .readPiece _ => maps
  | .clearPieceDeadlines => maps.clearDeadlines

end TorrentMaps

/-- The maps of the torrent behind a handle after a log of calls. -/
def replay (handle : Nat) (maps : TorrentMaps) (calls : List (Nat × LtCall)) : TorrentMaps :=
  calls.foldl (fun current call => if call.1 = handle then current.apply call.2 else current) maps

/-- The torrent a run is about. -/
structure MirroredTorrent where
  id : String
  handle : Nat
  numPieces : Nat
  initial : TorrentMaps

/-- The bridge, and whether it has stored a schedule for the torrent. -/
structure Scheduling where
  bridge : BridgeState
  stored : Bool := false

inductive ScheduleAction where
  | change (next : BridgeState)
  | recompute (lt : Libtorrent)

namespace MirroredTorrent

variable (torrent : MirroredTorrent)

def view (state : BridgeState) : TorrentMaps := replay torrent.handle torrent.initial state.calls

def perform (scheduling : Scheduling) : ScheduleAction → Scheduling
  | .change next => { scheduling with bridge := next }
  | .recompute lt =>
      let after := recomputeSchedule lt scheduling.bridge torrent.id
      ⟨after, scheduling.stored || (after.currentSchedules.lookup torrent.id).isSome⟩

/-- The handle is valid, its metadata is there and every call succeeds. -/
structure Accepts (lt : Libtorrent) : Prop where
  valid : lt.isValid torrent.handle = true
  accepts : ∀ call, lt.fails torrent.handle call = none
  metadata : ∃ info, lt.torrentFile torrent.handle = .ok (some info) ∧ info.numPieces = torrent.numPieces

/-- Between two recomputations everything may change but the stored schedule and what libtorrent was
told; the torrent's demands and anchors come with its handle. -/
def Possible (scheduling : Scheduling) : ScheduleAction → Prop
  | .change next =>
      next.currentSchedules.lookup torrent.id = scheduling.bridge.currentSchedules.lookup torrent.id ∧
        torrent.view next = torrent.view scheduling.bridge
  | .recompute lt => torrent.Accepts lt ∧
      ∀ handle, (collectDemands scheduling.bridge torrent.id).2 = some handle → handle = torrent.handle

/-- A bridge that has told libtorrent nothing about the torrent yet. -/
def Initial (scheduling : Scheduling) : Prop :=
  scheduling.stored = false ∧ scheduling.bridge.currentSchedules.lookup torrent.id = none ∧
    torrent.view scheduling.bridge = torrent.initial ∧
    (∀ piece, torrent.initial.deadline piece = none) ∧ ∀ piece, torrent.initial.firstBlock piece = 0

def Reachable : Scheduling → Prop :=
  Transition.Reachable torrent.Initial torrent.Possible torrent.perform

end MirroredTorrent

/-- The priority a schedule gives to a piece. -/
def scheduledPriority (priorities : Priorities) (cold : Bool) (piece : Nat) : Nat :=
  match priorities.lookup piece with
  | none => dontDownload
  | some priority => downloadPriorityFor priority cold

/-- The priority of a piece under the stored schedule; without one nothing is downloaded. -/
def targetPriority (schedule : Option CurrentSchedule) (piece : Nat) : Nat :=
  schedule.elim dontDownload fun stored => scheduledPriority stored.priorities stored.cold piece

def firstBlockOf (schedule : Option CurrentSchedule) (piece : Nat) : Nat :=
  schedule.elim 0 fun stored => (stored.firstBlocks.lookup piece).getD 0

/-- libtorrent's maps are those of the stored schedule: the priorities, the deadlines in their order
and the first blocks of the deadline pieces. -/
structure Mirrors (maps : TorrentMaps) (numPieces : Nat) (schedule : Option CurrentSchedule) :
    Prop where
  priority : ∀ piece < numPieces, maps.priority piece = targetPriority schedule piece
  dated : ∀ index piece, (deadlinesOf schedule)[index]? = some piece →
    maps.deadline piece = some (deadlineFor index)
  undated : ∀ piece, piece ∉ deadlinesOf schedule → maps.deadline piece = none
  blocked : ∀ piece ∈ deadlinesOf schedule, maps.firstBlock piece = firstBlockOf schedule piece
  unblocked : ∀ piece, piece ∉ deadlinesOf schedule → maps.firstBlock piece = 0

end NuvioEngine.Bridge
