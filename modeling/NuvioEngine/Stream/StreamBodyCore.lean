import NuvioEngine.Scheduler.SchedulerCore

/-!
Executable embedding of the HTTP side of `libtorrent_stream_bridge.cpp`: `stream_body`,
`serve_piece` and `finished_run_end`. What the worker, the payload file, the stop token and the
writer do is a script: one `Round` for each turn of the wait loop and one `PieceScript` for each
piece. A script that ends early describes a thread that is still waiting.
-/

namespace NuvioEngine.Stream

open Scheduler (blockingDemandRange saturatingAdd)

structure StreamRoute where
  handle : Nat
  torrentId : String
  streamId : String
  target : String
  contentType : String
  fileIndex : Nat
  pieceSize : Nat
  fileOffset : Nat
  fileSize : Nat
  payloadPath : String
  deriving DecidableEq, Repr

structure PieceWaiter where
  data : Option (List UInt8) := none
  error : String := ""
  done : Bool := false
  cancelled : Bool := false
  demandId : Nat := 0
  finishedBlocks : List Bool := []
  deriving DecidableEq, Repr

def publishBlocks (waiter : PieceWaiter) (blocks : List Bool) : PieceWaiter :=
  if waiter.done || waiter.cancelled then waiter else { waiter with finishedBlocks := blocks }

def completeWaiter (waiter : PieceWaiter) (data : Option (List UInt8)) (error : String) :
    PieceWaiter :=
  if waiter.cancelled || waiter.done then waiter
  else { waiter with data := data, error := error, done := true }

/-- What the worker can do to a waiter, in any order; withdrawing blocks publishes fewer. -/
inductive WorkerAction where
  | publish (blocks : List Bool)
  | complete (data : Option (List UInt8)) (error : String)

def WorkerAction.apply (waiter : PieceWaiter) : WorkerAction → PieceWaiter
  | .publish blocks => publishBlocks waiter blocks
  | .complete data error => completeWaiter waiter data error

def blockBytes : Nat := 16 * 1024

/-- The first block at or after `block` that is not finished; the list starts at `block`. -/
def skipFinished : List Bool → Nat → Nat
  | true :: rest, block => skipFinished rest (block + 1)
  | _, block => block

def finishedRunEnd (blocks : List Bool) (cursor limit : Nat) : Nat :=
  let block := cursor / blockBytes
  min (mul64 (skipFinished (blocks.drop block) block) blockBytes) limit

/-- Where a byte given to the writer was taken from. -/
inductive Source where
  | verified (data : List UInt8) (index : Nat)
  | payload (file : Nat → UInt8) (offset : Nat)

def Source.value : Source → UInt8
  | .verified data index => data.getD index 0
  | .payload file offset => file offset

/-- What a request did so far: the bytes the writer took, the payload reads, the `read_piece`
commands, the `serve_piece` calls that returned, and the stream's delivered-bytes counter. -/
structure StreamLog where
  delivered : List Source := []
  reads : List (Nat × Nat) := []
  commands : List (Nat × ByteRange) := []
  served : List (Nat × Bool) := []
  deliveredBytes : Nat := 0

def StreamLog.deliver (log : StreamLog) (bytes : List Source) : StreamLog :=
  { log with
    delivered := log.delivered ++ bytes
    deliveredBytes := saturatingAdd log.deliveredBytes bytes.length }

/-- One turn of the wait loop: the worker's actions since the last turn, the flags read under the
lock, and the outcomes of opening the payload file, reading it and writing to the client. The
file is the bytes found at each offset, or nothing when the read fails. -/
structure Round where
  actions : List WorkerAction := []
  stopRequested : Bool := false
  demandCancelled : Bool := false
  opens : Bool := true
  file : Option (Nat → UInt8) := none
  writerAccepts : Bool := true

structure PieceSlice where
  pieceStart : Nat
  start : Nat
  stop : Nat

/-- The local variables of `serve_piece`; `payload` is whether the reader, once there, is open. -/
structure ServeState where
  waiter : PieceWaiter
  cursor : Nat
  payload : Option Bool
  payloadReadable : Bool
  log : StreamLog

def readExact (isOpen : Bool) (file : Option (Nat → UInt8)) (offset size : Nat) :
    Option (List Source) :=
  if !isOpen then none
  else if size = 0 then some []
  else file.map fun contents => (List.range size).map fun k => .payload contents (offset + k)

def ServeState.abandon (state : ServeState) : ServeState :=
  { state with waiter := { state.waiter with cancelled := true } }

def serveVerified (slice : PieceSlice) (round : Round) (verified : List UInt8) (state : ServeState) :
    ServeState × Option Bool :=
  if slice.stop > verified.length then (state, some false)
  else if !round.writerAccepts then (state, some false)
  else
    let bytes := (List.range (slice.stop - state.cursor)).map fun k =>
      Source.verified verified (state.cursor + k)
    ({ state with log := state.log.deliver bytes }, some true)

def serveUnverified (route : StreamRoute) (slice : PieceSlice) (round : Round) (unverifiedEnd : Nat)
    (state : ServeState) : ServeState × Option Bool :=
  let isOpen := state.payload.getD round.opens
  let opened := { state with payload := some isOpen }
  let absolute := add64 slice.pieceStart state.cursor
  if absolute < route.fileOffset then ({ opened with payloadReadable := false }, none)
  else
    let offset := sub64 absolute route.fileOffset
    let size := unverifiedEnd - state.cursor
    let asked := { opened with log := { opened.log with reads := opened.log.reads ++ [(offset, size)] } }
    match readExact isOpen round.file offset size with
    | none => ({ asked with payloadReadable := false }, none)
    | some buffer =>
        if !round.writerAccepts then (asked.abandon, some false)
        else ({ asked with log := asked.log.deliver buffer, cursor := unverifiedEnd }, none)

/-- One turn of the loop of `serve_piece`; no result means that the loop goes on. A waiter that is
done with neither data nor an error takes the unverified path with an empty buffer. -/
def serveRound (route : StreamRoute) (slice : PieceSlice) (round : Round) (before : ServeState) :
    ServeState × Option Bool :=
  let state := { before with waiter := round.actions.foldl WorkerAction.apply before.waiter }
  let runEnd := finishedRunEnd state.waiter.finishedBlocks state.cursor slice.stop
  if round.stopRequested || round.demandCancelled ||
      (state.waiter.done && state.waiter.error != "") then
    (state.abandon, some false)
  else if state.waiter.done then
    match state.waiter.data with
    | some verified => serveVerified slice round verified state
    | none => serveUnverified route slice round state.cursor state
  else if state.payloadReadable && runEnd > state.cursor then
    serveUnverified route slice round runEnd state
  else (state.abandon, some false)

def serveLoop (route : StreamRoute) (slice : PieceSlice) :
    List Round → ServeState → ServeState × Option Bool
  | [], state =>
      if state.cursor < slice.stop then (state, none) else (state.abandon, some true)
  | round :: rest, state =>
      if state.cursor < slice.stop then
        match serveRound route slice round state with
        | (next, none) => serveLoop route slice rest next
        | finished => finished
      else (state.abandon, some true)

/-- What happens while one piece is served: the flags read by the loop over the pieces, whether
the command is accepted, and the turns of the wait loop. -/
structure PieceScript where
  stopRequested : Bool := false
  demandCancelled : Bool := false
  accepted : Bool := true
  rounds : List Round := []

def ServeState.initial (demandId : Nat) (slice : PieceSlice) (payload : Option Bool)
    (log : StreamLog) : ServeState where
  waiter := { demandId := demandId }
  cursor := slice.start
  payload := payload
  payloadReadable := payload.getD true
  log := log

def servePiece (demandId : Nat) (route : StreamRoute) (piece : Nat) (slice : PieceSlice)
    (demandRange : ByteRange) (script : PieceScript) (payload : Option Bool) (log : StreamLog) :
    StreamLog × Option Bool × Option Bool :=
  if !script.accepted then ({ log with served := log.served ++ [(piece, false)] }, payload, some false)
  else
    let sent := { log with commands := log.commands ++ [(piece, demandRange)] }
    match serveLoop route slice script.rounds (.initial demandId slice payload sent) with
    | (state, none) => (state.log, state.payload, none)
    | (state, some ok) =>
        ({ state.log with served := state.log.served ++ [(piece, ok)] }, state.payload, some ok)

def streamPieces (demandId : Nat) (route : StreamRoute) (range : ByteRange)
    (absoluteStart absoluteEndExclusive lastPiece : Nat) :
    List PieceScript → Nat → Option Bool → StreamLog → StreamLog
  | [], _, _, log => log
  | script :: rest, piece, payload, log =>
      if piece ≤ lastPiece ∧ !script.stopRequested ∧ !script.demandCancelled then
        let pieceStart := mul64 piece route.pieceSize
        let currentAbsolute := max absoluteStart pieceStart
        if currentAbsolute < route.fileOffset then log
        else
          let slice : PieceSlice := {
            pieceStart := pieceStart
            start := sub64 currentAbsolute pieceStart
            stop := sub64 (min absoluteEndExclusive (add64 pieceStart route.pieceSize)) pieceStart }
          -- an exception of `bounded_demand_range` leaves the function
          match blockingDemandRange range (sub64 currentAbsolute route.fileOffset) route.fileOffset
              route.pieceSize with
          | .error _ => log
          | .ok demandRange =>
              match servePiece demandId route (piece % 2 ^ 32) slice demandRange script payload log with
              | (next, nextPayload, some true) =>
                  streamPieces demandId route range absoluteStart absoluteEndExclusive lastPiece rest
                    (add64 piece 1) nextPayload next
              | (next, _, _) => next
      else log

def streamBody (demandId : Nat) (route : StreamRoute) (range : ByteRange) (scripts : List PieceScript)
    (deliveredBytes : Nat) : StreamLog :=
  let log : StreamLog := { deliveredBytes := deliveredBytes }
  if range.last > uint64Max - route.fileOffset then log
  else
    let absoluteStart := add64 route.fileOffset range.start
    let absoluteEnd := add64 route.fileOffset range.last
    if absoluteEnd = uint64Max then log
    else
      let firstPiece := absoluteStart / route.pieceSize
      let lastPiece := absoluteEnd / route.pieceSize
      if lastPiece > uint32Max then log
      else streamPieces demandId route range absoluteStart (add64 absoluteEnd 1) lastPiece scripts
        firstPiece none log

end NuvioEngine.Stream
