import NuvioEngine.Bridge.BridgeCore

/-!
Executable embedding of `recompute_schedule`, stage by stage: collect the demands, plan, keep the
anchor, choose the handle, send the changed priorities, deadlines and first blocks, and store the
schedule.
-/

namespace NuvioEngine.Bridge

open NuvioEngine.Scheduler NuvioEngine.Stream NuvioEngine.Cache

def dontDownload : Nat := 0

def lowPriority : Nat := 1

def defaultPriority : Nat := 4

def topPriority : Nat := 7

def downloadPriorityFor (priority : PriorityClass) (cold : Bool) : Nat :=
  match priority with
  | .blocking => topPriority
  | .critical => topPriority
  | .playback => defaultPriority
  | .metadataTail => if cold then 6 else topPriority
  | .readahead => lowPriority

def deadlineFor (ordinal : Nat) : Nat := min (ordinal * 100) 2000

def ActiveDemand.blockingPiece (demand : ActiveDemand) : Nat :=
  pieceAt demand.route.fileOffset demand.route.pieceSize demand.range.start

/-- What the planner is told about an active demand: it is cold until a block of its blocking
piece is there. -/
def ActiveDemand.toDemand (demand : ActiveDemand) (demandId : Nat) (id : String)
    (state : BridgeState) : StreamDemand where
  id := demandId
  fileOffset := demand.route.fileOffset
  fileSize := demand.route.fileSize
  pieceSize := demand.route.pieceSize
  range := demand.range
  kind := .reader
  cold := match state.partialBlocks.lookup ⟨id, demand.blockingPiece⟩ with
    | none => true
    | some blocks => !blocks.any fun finished => finished

def ActiveDemand.waitsFor (demand : ActiveDemand) (id : String) : Bool :=
  demand.route.torrentId = id && demand.needsData

def StreamAnchor.toDemand (anchor : StreamAnchor) : StreamDemand where
  id := 0
  fileOffset := anchor.route.fileOffset
  fileSize := anchor.route.fileSize
  pieceSize := anchor.route.pieceSize
  range := anchor.range
  kind := if anchor.prefetch then .prefetch else .anchor

/-- The readers of a torrent that wait for data, in the order of iteration. -/
def readersOf (state : BridgeState) (id : String) : List (Nat × ActiveDemand) :=
  (state.activeDemands.entries.filter fun entry => entry.2.waitsFor id).map fun entry =>
    (entry.1, entry.2)

/-- The demands to plan for and the handle they came with: the waiting readers, or else the
anchor. -/
def collectDemands (state : BridgeState) (id : String) : List StreamDemand × Option Nat :=
  let readers := readersOf state id
  match readers.getLast? with
  | some last =>
      (readers.map fun reader => reader.2.toDemand reader.1 id state, some last.2.route.handle)
  | none =>
      match state.anchors.lookup id with
      | some anchor => ([anchor.toDemand], some anchor.route.handle)
      | none => ([], none)

def firstBlocksOf (demands : List StreamDemand) : SortedMap Nat Nat :=
  demands.foldl (fun blocks demand =>
    blocks.insert (pieceAt demand.fileOffset demand.pieceSize demand.range.start)
      (add64 demand.fileOffset demand.range.start % demand.pieceSize / blockBytes)) SortedMap.empty

def combinedOf (plan : StreamDemandPlan) : Priorities :=
  plan.pieces.foldl (fun combined entry => combined.insert entry.piece entry.priority)
    SortedMap.empty

/-- The focused reader becomes the torrent's anchor. -/
def keepAnchor (state : BridgeState) (id : String) (plan : StreamDemandPlan) : BridgeState :=
  match state.activeDemands.lookup plan.focusedDemandId with
  | none => state
  | some focused =>
      { state with anchors := state.anchors.insert id ⟨focused.route, focused.range, false⟩ }

def relax : PriorityClass → PriorityClass
  | .blocking => .playback
  | .critical => .playback
  | other => other

/-- Without pieces in the plan a torrent that still has a stream keeps its old pieces, none of
them urgent. -/
def fallback (state : BridgeState) (id : String) (previous : Option CurrentSchedule)
    (combined : Priorities) : Priorities :=
  match previous with
  | none => combined
  | some schedule =>
      if combined.entries.isEmpty ∧ state.hasStreamForTorrent id then schedule.priorities.mapValues relax
      else combined

def allPriorities (combined : Priorities) (cold : Bool) (numPieces : Nat) : List Nat :=
  (List.range numPieces).map fun piece =>
    match combined.lookup piece with
    | none => dontDownload
    | some priority => downloadPriorityFor priority cold

def priorityUpdates (schedule : CurrentSchedule) (combined : Priorities) (cold : Bool) :
    List (Nat × Nat) :=
  (schedule.priorities.entries.filterMap fun entry =>
    if (combined.lookup entry.1).isSome then none else some (entry.1, dontDownload)) ++
  (combined.entries.filterMap fun entry =>
    match schedule.priorities.lookup entry.1 with
    | none => some (entry.1, downloadPriorityFor entry.2 cold)
    | some old =>
        if downloadPriorityFor old schedule.cold ≠ downloadPriorityFor entry.2 cold then
          some (entry.1, downloadPriorityFor entry.2 cold)
        else none)

/-- The call that brings libtorrent's priorities up to date, when one is needed. -/
def priorityCall (lt : Libtorrent) (handle : Nat) (previous : Option CurrentSchedule)
    (combined : Priorities) (cold : Bool) : Option LtCall :=
  match previous with
  | none =>
      match lt.torrentFile handle with
      | .ok (some metadata) => some (.prioritizePieces (allPriorities combined cold metadata.numPieces))
      | _ => none
  | some schedule =>
      let updates := priorityUpdates schedule combined cold
      if updates.isEmpty then none else some (.prioritizeUpdates updates)

def sendPriorities (state : BridgeState) (lt : Libtorrent) (handle : Nat)
    (previous : Option CurrentSchedule) (combined : Priorities) (cold : Bool) : BridgeState :=
  match priorityCall lt handle previous combined cold with
  | none => state
  | some call => state.attemptQuietly lt handle call

def resetDeadline (lt : Libtorrent) (id : String) (handle : Nat) (state : BridgeState) (piece : Nat) :
    BridgeState :=
  let sent := state.attemptQuietly lt handle (.resetPieceDeadline piece)
  { sent with requestedReads := sent.requestedReads.erase ⟨id, piece⟩ }

def Thrown.message : Thrown → String
  | .standard what => what
  | .other => "failed to request blocking piece"

/-- One turn of the loop over the new deadlines. -/
def setDeadline (lt : Libtorrent) (id : String) (handle : Nat) (unchanged : Bool) (ordinal : Nat)
    (piece : Nat) (state : BridgeState) : BridgeState :=
  let key : PieceKey := ⟨id, piece⟩
  let readRequested := (state.requestedReads.lookup key).isSome
  let wantsRead := (state.pieceWaiters.lookup key).isSome && !readRequested
  if unchanged && !wantsRead then state
  else
    match state.attempt lt handle
        (.setPieceDeadline piece (deadlineFor ordinal) (wantsRead || readRequested)) with
    | .error thrown => state.failPiece key thrown.message
    | .ok sent =>
        if wantsRead then { sent with requestedReads := sent.requestedReads.insert key lt.now }
        else sent

def setDeadlines (lt : Libtorrent) (id : String) (handle : Nat) (previousDeadlines : List Nat)
    (jumped : Bool) : Nat → List Nat → BridgeState → BridgeState
  | _, [], state => state
  | ordinal, piece :: rest, state =>
      let unchanged := !jumped && previousDeadlines[ordinal]? = some piece
      setDeadlines lt id handle previousDeadlines jumped (ordinal + 1) rest
        (setDeadline lt id handle unchanged ordinal piece state)

def hasJumped (previousDeadlines nextDeadlines : List Nat) : Bool :=
  !previousDeadlines.isEmpty && !nextDeadlines.isEmpty &&
    previousDeadlines.all fun piece => !nextDeadlines.contains piece

/-- Deadlines in the order of the calls: on a jump all old ones are reset first, otherwise the
dropped ones are reset last. -/
def sendDeadlines (state : BridgeState) (lt : Libtorrent) (id : String) (handle : Nat)
    (previousDeadlines nextDeadlines : List Nat) : BridgeState :=
  let jumped := hasJumped previousDeadlines nextDeadlines
  let cleared :=
    if jumped then previousDeadlines.foldl (resetDeadline lt id handle) state else state
  let set := setDeadlines lt id handle previousDeadlines jumped 0 nextDeadlines cleared
  if jumped then set
  else (previousDeadlines.filter fun piece => !nextDeadlines.contains piece).foldl
    (resetDeadline lt id handle) set

def deadlinesOf (schedule : Option CurrentSchedule) : List Nat :=
  schedule.elim [] CurrentSchedule.deadlineOrder

def previousBlock (previous : Option CurrentSchedule) (jumped : Bool) (piece : Nat) : Nat :=
  match previous with
  | none => 0
  | some schedule => if jumped then 0 else (schedule.firstBlocks.lookup piece).getD 0

def sendFirstBlocks (lt : Libtorrent) (handle : Nat) (previous : Option CurrentSchedule)
    (jumped : Bool) (wanted : SortedMap Nat Nat) :
    List Nat → BridgeState × SortedMap Nat Nat → BridgeState × SortedMap Nat Nat
  | [], current => current
  | piece :: rest, (state, applied) =>
      let block := (wanted.lookup piece).getD 0
      let inPrevious := (deadlinesOf previous).contains piece
      let sent :=
        if block ≠ previousBlock previous jumped piece ∨ (block > 0 ∧ !inPrevious) then
          state.attemptQuietly lt handle (.setPieceFirstBlock piece block)
        else state
      let kept := if block > 0 then applied.insert piece block else applied
      sendFirstBlocks lt handle previous jumped wanted rest (sent, kept)

def nextRevision (previous : Option CurrentSchedule) (combined : Priorities)
    (plan : StreamDemandPlan) : Nat :=
  match previous with
  | none => 1
  | some schedule =>
      if schedule.priorities ≠ combined ∨ schedule.deadlineOrder ≠ plan.deadlineOrder ∨
          schedule.focusedDemandId ≠ plan.focusedDemandId then
        add64 schedule.revision 1
      else schedule.revision

def storeSchedule (state : BridgeState) (id : String) (handle : Nat)
    (previous : Option CurrentSchedule) (combined : Priorities) (plan : StreamDemandPlan)
    (applied : SortedMap Nat Nat) : BridgeState :=
  { state with currentSchedules :=
      if combined.entries.isEmpty then state.currentSchedules.erase id
      else state.currentSchedules.insert id {
        handle := handle
        priorities := combined
        deadlineOrder := plan.deadlineOrder
        focusedDemandId := plan.focusedDemandId
        revision := nextRevision previous combined plan
        cold := plan.cold
        firstBlocks := applied } }

/-- The part of `recompute_schedule` that talks to libtorrent. -/
def applyPlan (state : BridgeState) (lt : Libtorrent) (id : String) (handle : Nat)
    (wanted : SortedMap Nat Nat) (plan : StreamDemandPlan) : BridgeState :=
  let previous := state.currentSchedules.lookup id
  let combined := fallback state id previous (combinedOf plan)
  let prioritized := sendPriorities state lt handle previous combined plan.cold
  let previousDeadlines := deadlinesOf previous
  let scheduled := sendDeadlines prioritized lt id handle previousDeadlines plan.deadlineOrder
  let jumped := hasJumped previousDeadlines plan.deadlineOrder
  let placed := sendFirstBlocks lt handle previous jumped wanted plan.deadlineOrder
    (scheduled, SortedMap.empty)
  storeSchedule placed.1 id handle previous combined plan placed.2

def recomputeSchedule (lt : Libtorrent) (state : BridgeState) (id : String) : BridgeState :=
  let collected := collectDemands state id
  match buildStreamDemandPlan collected.1 state.window with
  | .error _ => state
  | .ok plan =>
      let anchored := keepAnchor state id plan
      let previous := anchored.currentSchedules.lookup id
      match collected.2.or (previous.map CurrentSchedule.handle) with
      | none => { anchored with currentSchedules := anchored.currentSchedules.erase id }
      | some handle =>
          if lt.isValid handle then
            applyPlan anchored lt id handle (firstBlocksOf collected.1) plan
          else { anchored with currentSchedules := anchored.currentSchedules.erase id }

end NuvioEngine.Bridge
