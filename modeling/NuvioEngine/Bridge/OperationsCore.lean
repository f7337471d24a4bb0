import NuvioEngine.Bridge.ScheduleCore

/-!
Executable embedding of the bridge's operations: registering, stopping and removing streams, the
command queue and `poll`, and the handlers of libtorrent's alerts.
-/

namespace NuvioEngine.Bridge

open NuvioEngine.Scheduler NuvioEngine.Stream NuvioEngine.Cache

namespace BridgeState

def enqueue (state : BridgeState) (command : HttpCommand) : Option BridgeState :=
  if state.shuttingDown then none
  else if state.commands.length ≥ maximumHttpCommands then none
  else some { state with commands := state.commands ++ [command] }

def enqueueEnd (state : BridgeState) (demandId : Nat) : BridgeState :=
  let command : HttpCommand := {
    type := .endDemand
    demandId := demandId
    route := ⟨0, "", "", "", "", 0, 0, 0, 0, ""⟩
    range := ⟨0, 0⟩
    piece := 0
    waiter := none
    demandState := none }
  { state with commands := state.commands ++ [command] }

/-- Ask for a downloaded piece unless it was already asked for. -/
def requestRead (state : BridgeState) (lt : Libtorrent) (handle : Nat) (key : PieceKey) :
    BridgeState :=
  if (state.requestedReads.lookup key).isSome then state
  else
    match state.attempt lt handle (.readPiece key.piece) with
    | .ok sent => { sent with requestedReads := sent.requestedReads.insert key lt.now }
    | .error _ => state.failPiece key "failed to read a downloaded piece"

/-- Give a waiter the blocks of its piece that are already written. -/
def publishWritten (state : BridgeState) (lt : Libtorrent) (handle : Nat) (metadata : TorrentInfo)
    (key : PieceKey) (waiter : Nat) : BridgeState :=
  match state.partialBlocks.lookup key with
  | some blocks => state.publishBlocks blocks waiter
  | none =>
      let blocks := writtenBlocks lt handle metadata key.piece
      { state with partialBlocks := state.partialBlocks.insert key blocks }.publishBlocks blocks waiter

def holdWaiter (state : BridgeState) (key : PieceKey) (waiter : Nat) : BridgeState :=
  { state with pieceWaiters :=
      state.pieceWaiters.insert key ((state.pieceWaiters.lookup key).getD [] ++ [waiter]) }

/-- Hold a waiter for a piece that is not cached, then read the piece or show its blocks. -/
def awaitPiece (state : BridgeState) (lt : Libtorrent) (metadata : TorrentInfo)
    (command : HttpCommand) (waiter : Nat) : BridgeState :=
  let key : PieceKey := ⟨command.route.torrentId, command.piece⟩
  let held := state.holdWaiter key waiter
  let available := held.pieceAvailable lt command.route command.piece
  let marked := held.setNeedsData command.demandId (!available)
  if available then marked.requestRead lt command.route.handle key
  else marked.publishWritten lt command.route.handle metadata key waiter

/-- The flag tells whether libtorrent threw out of the function. -/
def processPieceRequest (state : BridgeState) (lt : Libtorrent) (command : HttpCommand) :
    BridgeState × Bool :=
  match command.waiter with
  | none => (state, false)
  | some waiter =>
      if command.route.torrentId ∈ state.revokedTorrents ∨ !lt.isValid command.route.handle ∨
          !lt.inSession command.route.handle then
        (state.completeWaiter none "torrent is unavailable" waiter, false)
      else
        match lt.torrentFile command.route.handle with
        | .error _ => (state, true)
        | .ok none => (state.completeWaiter none "torrent piece is out of range" waiter, false)
        | .ok (some metadata) =>
            if command.piece ≥ metadata.numPieces then
              (state.completeWaiter none "torrent piece is out of range" waiter, false)
            else
              match state.pieceCache.get ⟨command.route.torrentId, command.piece⟩ with
              | (some cached, cache) =>
                  let ready := { state with
                    pieceCache := cache
                    lastReadyPieces :=
                      state.lastReadyPieces.insert command.route.torrentId command.piece }
                  ((ready.setNeedsData command.demandId false).completeWaiter (some cached) "" waiter,
                    false)
              | (none, cache) =>
                  ({ state with pieceCache := cache }.awaitPiece lt metadata command waiter, false)

def beginDemand (state : BridgeState) (lt : Libtorrent) (command : HttpCommand) :
    BridgeState × List String :=
  if command.route.torrentId ∉ state.revokedTorrents ∧ state.routeIsActive command.route then
    let piece := pieceAt command.route.fileOffset command.route.pieceSize command.range.start
    let demand : ActiveDemand := {
      id := command.demandId
      route := command.route
      range := command.range
      state := command.demandState
      needsData := !state.pieceAvailable lt command.route piece }
    ({ state with activeDemands := state.activeDemands.insert command.demandId demand },
      [command.route.torrentId])
  else (state.cancelDemandState command.demandState, [])

def endDemand (state : BridgeState) (command : HttpCommand) : BridgeState × List String :=
  match state.activeDemands.lookup command.demandId with
  | none => (state, [])
  | some demand =>
      ({ state with activeDemands := state.activeDemands.erase command.demandId },
        [demand.route.torrentId])

/-- The demand of a read command, when it is there and not cancelled. -/
def readerOf (state : BridgeState) (demandId : Nat) : Option ActiveDemand :=
  (state.activeDemands.lookup demandId).filter fun demand =>
    demand.state.elim false fun shared => !state.demandCancelled shared

def moveDemand (state : BridgeState) (demandId : Nat) (demand : ActiveDemand) (range : ByteRange) :
    BridgeState :=
  { state with activeDemands := state.activeDemands.insert demandId { demand with range := range } }

def readPiece (state : BridgeState) (lt : Libtorrent) (command : HttpCommand) :
    BridgeState × List String × Bool :=
  match state.readerOf command.demandId with
  | none =>
      match command.waiter with
      | none => (state, [], false)
      | some waiter => (state.completeWaiter none "stream demand is no longer active" waiter, [], false)
  | some demand =>
      let processed := (state.moveDemand command.demandId demand command.range).processPieceRequest lt
        command
      (processed.1, [demand.route.torrentId], processed.2)

/-- One command of a batch: the new state, the torrents it changed and whether it threw. -/
def processCommand (state : BridgeState) (lt : Libtorrent) (command : HttpCommand) :
    BridgeState × List String × Bool :=
  match command.type with
  | .beginDemand =>
      let begun := state.beginDemand lt command
      (begun.1, begun.2, false)
  | .endDemand =>
      let ended := state.endDemand command
      (ended.1, ended.2, false)
  | .readPiece => state.readPiece lt command

/-- The loop over a batch; a command that throws ends it and the rest of the batch is lost. -/
def processCommands (answers : Nat → Libtorrent) :
    Nat → List HttpCommand → BridgeState → List String → BridgeState × List String × Bool
  | _, [], state, changed => (state, changed, false)
  | position, command :: rest, state, changed =>
      let processed := state.processCommand (answers position) command
      if processed.2.2 then (processed.1, changed.union processed.2.1, true)
      else processCommands answers (position + 1) rest processed.1 (changed.union processed.2.1)

/-- One waiting piece of the watchdog's loop. -/
def reissueRead (lt : Libtorrent) (state : BridgeState) (key : PieceKey) : BridgeState :=
  if (state.requestedReads.lookup key).any fun requested => lt.now - requested < 2000 then state
  else
    match state.activeDemands.entries.find? fun entry => entry.2.route.torrentId = key.torrentId with
    | none => state
    | some demand =>
        match lt.havePiece demand.2.route.handle key.piece with
        | .ok true =>
            match state.attempt lt demand.2.route.handle (.readPiece key.piece) with
            | .ok sent => { sent with requestedReads := sent.requestedReads.insert key lt.now }
            | .error _ => state
        | _ => state

def reissueStalledReads (state : BridgeState) (lt : Libtorrent) : BridgeState :=
  if state.pieceWaiters.entries.isEmpty ∨ lt.now < state.nextReadWatchdog then state
  else state.pieceWaiters.keys.foldl (reissueRead lt)
    { state with nextReadWatchdog := lt.now + 1000 }

def isExpired (state : BridgeState) (now : Nat) (route : StreamRoute) : Bool :=
  !(state.activeDemands.entries.any fun entry => entry.2.route.streamId = route.streamId) &&
    (state.activities route.streamId).isInactive now state.inactivityTimeout

def expireStream (recompute : String → Libtorrent) (state : BridgeState) (stream : StoppedStream) :
    BridgeState :=
  let computed := recomputeSchedule (recompute stream.torrentId) (state.eraseAnchor stream.streamId)
    stream.torrentId
  { computed with expiredStreams := computed.expiredStreams ++ [stream] }

def expireInactiveStreams (state : BridgeState) (now : Nat) (recompute : String → Libtorrent) :
    BridgeState :=
  if state.inactivityTimeout = 0 ∨ now < state.nextInactivityCheck then state
  else
    let expired := (state.routes.entries.filter fun entry => state.isExpired now entry.2).map
      fun entry => (⟨entry.2.torrentId, entry.2.streamId⟩ : StoppedStream)
    let checked := { state with
      nextInactivityCheck := now + min (max (state.inactivityTimeout / 2) 25) 1000
      routes := state.routes.eraseIf fun _ route => state.isExpired now route }
    expired.foldl (expireStream recompute) checked

def popExpiredStreams (state : BridgeState) : BridgeState × List StoppedStream :=
  ({ state with expiredStreams := [] }, state.expiredStreams)

/-- What libtorrent and the clock answer at each stage of one `poll`. -/
structure PollAnswers where
  command : Nat → Libtorrent
  recompute : String → Libtorrent
  watchdog : Libtorrent
  expiry : Nat
  expired : String → Libtorrent

/-- The flag tells whether libtorrent threw out of the function. -/
def poll (state : BridgeState) (answers : PollAnswers) : BridgeState × Bool :=
  let processed := processCommands answers.command 0 state.commands { state with commands := [] } []
  if processed.2.2 then (processed.1, true)
  else
    let recomputed := processed.2.1.foldl (fun current id =>
      recomputeSchedule (answers.recompute id) current id) processed.1.pruneCancelledWaiters
    ((recomputed.reissueStalledReads answers.watchdog).expireInactiveStreams answers.expiry
      answers.expired, false)

/-- One demand of a stopped stream. -/
def stopDemand (state : BridgeState) (demandId : Nat) (demand : ActiveDemand) : BridgeState :=
  let cancelled := (state.cancelDemandState demand.state).cancelDemandWaiters demandId
    "stream was stopped"
  { cancelled with activeDemands := cancelled.activeDemands.erase demandId }

def stopStream (lt : Libtorrent) (state : BridgeState) (streamId : String) : BridgeState × String :=
  let target := "/stream/" ++ streamId
  let unanchored := state.eraseAnchor streamId
  let routed := (unanchored.routes.lookup target).elim "" StreamRoute.torrentId
  let unrouted := { unanchored with routes := unanchored.routes.erase target }
  let owned := unrouted.activeDemands.entries.filter fun entry => entry.2.route.streamId = streamId
  let stopped := owned.foldl (fun current entry => current.stopDemand entry.1 entry.2) unrouted
  let id := owned.foldl (fun found entry =>
    if found.isEmpty then entry.2.route.torrentId else found) routed
  if id.isEmpty then (stopped, id) else (recomputeSchedule lt stopped id, id)

def removeTorrent (lt : Libtorrent) (state : BridgeState) (id : String) : BridgeState :=
  let owned := state.activeDemands.entries.filter fun entry => entry.2.route.torrentId = id
  let cleared := { state with
    revokedTorrents := state.revokedTorrents.insert id
    anchors := state.anchors.erase id
    pieceCache := state.pieceCache.eraseTorrent id
    lastReadyPieces := state.lastReadyPieces.erase id
    requestedReads := state.requestedReads.eraseIf fun key _ => key.torrentId = id
    partialBlocks := state.partialBlocks.eraseIf fun key _ => key.torrentId = id
    routes := state.routes.eraseIf fun _ route => route.torrentId = id
    activeDemands := state.activeDemands.eraseIf fun _ demand => demand.route.torrentId = id }
  let cancelled := owned.foldl (fun current entry => current.cancelDemandState entry.2.state) cleared
  let computed := recomputeSchedule lt cancelled id
  let waiting := (computed.pieceWaiters.entries.filter fun entry => entry.1.torrentId = id).flatMap
    fun entry => entry.2
  let completed := computed.completeWaiters none "torrent was removed" waiting
  { completed with pieceWaiters := completed.pieceWaiters.eraseIf fun key _ => key.torrentId = id }

structure TorrentFileInfo where
  path : String
  offset : Nat
  size : Nat

def contentTypeForPath (path : String) : String :=
  let normalized := path.map Char.toLower
  if normalized.endsWith ".mp4" || normalized.endsWith ".m4v" then "video/mp4"
  else if normalized.endsWith ".mkv" then "video/x-matroska"
  else if normalized.endsWith ".webm" then "video/webm"
  else if normalized.endsWith ".avi" then "video/x-msvideo"
  else if normalized.endsWith ".ts" || normalized.endsWith ".mpeg" || normalized.endsWith ".mpg" then
    "video/mp2t"
  else if normalized.endsWith ".mov" then "video/quicktime"
  else if normalized.endsWith ".mp3" then "audio/mpeg"
  else if normalized.endsWith ".flac" then "audio/flac"
  else "application/octet-stream"

/-- The route of a new stream; the token is the one drawn for it. -/
def newRoute (token : String) (handle : Nat) (id : String) (fileIndex : Nat) (file : TorrentFileInfo)
    (metadata : TorrentInfo) (savePath : String) : StreamRoute where
  handle := handle
  torrentId := id
  streamId := token
  target := "/stream/" ++ token
  contentType := contentTypeForPath file.path
  fileIndex := fileIndex
  pieceSize := metadata.pieceLength
  fileOffset := file.offset
  fileSize := file.size
  payloadPath := metadata.filePath fileIndex savePath

/-- Register a route: the torrent's old streams stop first, and a stream with bytes starts with a
prefetch anchor at its head. -/
def addRoute (lt : Libtorrent) (state : BridgeState) (route : StreamRoute) : BridgeState :=
  let previous := (state.routes.entries.filter fun entry => entry.2.torrentId = route.torrentId).map
    fun entry => entry.2.streamId
  let stopped := previous.foldl (fun current streamId => (stopStream lt current streamId).1) state
  let registered := { stopped with
    routes := stopped.routes.insert route.target route
    lastReadyPieces := stopped.lastReadyPieces.erase route.torrentId
    revokedTorrents := stopped.revokedTorrents.filter fun id => id ≠ route.torrentId
    activities := Function.update stopped.activities route.streamId { lastActivity := lt.now } }
  if route.fileSize > 0 then
    match blockingDemandRange ⟨0, route.fileSize - 1⟩ 0 route.fileOffset route.pieceSize with
    | .error _ => registered
    | .ok range =>
        recomputeSchedule lt { registered with
          anchors := registered.anchors.insert route.torrentId ⟨route, range, true⟩ } route.torrentId
  else registered

/-- The checks of `register_stream` and the route it makes. -/
def routeFor (lt : Libtorrent) (state : BridgeState) (token : String) (handle : Nat) (id : String)
    (fileIndex : Nat) (file : TorrentFileInfo) : Except Thrown StreamRoute :=
  if state.shuttingDown then .error (.standard "stream bridge is shutting down")
  else
    match lt.torrentFile handle with
    | .ok (some metadata) =>
        if metadata.pieceLength = 0 then .error (.standard "torrent piece metadata is unavailable")
        else
          match lt.savePath handle with
          | .error thrown => .error thrown
          | .ok savePath => .ok (newRoute token handle id fileIndex file metadata savePath)
    | .ok none => .error (.standard "torrent piece metadata is unavailable")
    | .error thrown => .error thrown

def registerStream (lt : Libtorrent) (state : BridgeState) (token : String) (handle : Nat)
    (id : String) (fileIndex : Nat) (file : TorrentFileInfo) : Except Thrown (BridgeState × String) :=
  match routeFor lt state token handle id fileIndex file with
  | .error thrown => .error thrown
  | .ok route => .ok (addRoute lt state route, route.streamId)

/-- A `read_piece_alert`: the piece it is for, and either an error or a buffer. -/
structure ReadPieceAlert where
  torrentId : String
  piece : Nat
  error : Option String
  buffer : Option (List UInt8)
  deriving DecidableEq

def forgetRead (state : BridgeState) (key : PieceKey) : BridgeState :=
  { state with
    requestedReads := state.requestedReads.erase key
    partialBlocks := state.partialBlocks.erase key }

def keepPiece (state : BridgeState) (key : PieceKey) (buffer : List UInt8) : BridgeState :=
  { state with
    lastReadyPieces := state.lastReadyPieces.insert key.torrentId key.piece
    pieceCache := state.pieceCache.put key (some buffer) }

/-- Keep a verified piece and give it to everyone who waits for it. -/
def deliverPiece (state : BridgeState) (key : PieceKey) (buffer : List UInt8) : BridgeState :=
  let ready := state.keepPiece key buffer
  match ready.pieceWaiters.lookup key with
  | none => ready
  | some waiters =>
      let completed := ready.completeWaiters (some buffer) "" waiters
      { completed with pieceWaiters := completed.pieceWaiters.erase key }

def handleReadPiece (state : BridgeState) (alert : ReadPieceAlert) : BridgeState :=
  let key : PieceKey := ⟨alert.torrentId, alert.piece⟩
  let cleared := state.forgetRead key
  match alert.error, alert.buffer with
  | some message, _ => cleared.failPiece key message
  | none, none => cleared.failPiece key "verified piece is empty"
  | none, some buffer =>
      if buffer.isEmpty then cleared.failPiece key "verified piece is empty"
      else cleared.deliverPiece key buffer

def setBlocks (state : BridgeState) (key : PieceKey) (blocks : List Bool) : BridgeState :=
  { state with partialBlocks := state.partialBlocks.insert key blocks }

def handleBlockFinished (lt : Libtorrent) (state : BridgeState) (torrentId : String)
    (piece block : Nat) : BridgeState :=
  let key : PieceKey := ⟨torrentId, piece⟩
  match state.partialBlocks.lookup key with
  | none => state
  | some blocks =>
      if block ≥ blocks.length then state
      else
        let published := (state.setBlocks key (blocks.set block true)).publishPartial key
        if blocks.any fun finished => finished then published
        else recomputeSchedule lt published torrentId

def handleHashFailed (state : BridgeState) (torrentId : String) (piece : Nat) : BridgeState :=
  let key : PieceKey := ⟨torrentId, piece⟩
  match state.partialBlocks.lookup key with
  | none => state
  | some blocks => (state.setBlocks key (blocks.map fun _ => false)).publishPartial key

end BridgeState

end NuvioEngine.Bridge
