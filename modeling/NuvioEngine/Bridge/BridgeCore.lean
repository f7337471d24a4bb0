import NuvioEngine.Cache.PieceCacheCore
import NuvioEngine.Stream.StreamBodyCore

/-!
State of the stream bridge in `libtorrent_stream_bridge.cpp` and its small operations on
waiters, partial blocks and anchors. Waiters, demand states and stream activities are shared with
the HTTP threads; they are kept in the state under the identity of the shared object. Every call
made to libtorrent is logged.
-/

namespace NuvioEngine.Bridge

open NuvioEngine.Scheduler NuvioEngine.Stream NuvioEngine.Cache

inductive Thrown where
  | standard (what : String)
  | other
  deriving DecidableEq, Repr

structure TorrentInfo where
  numPieces : Nat
  pieceLength : Nat
  pieceLengthFits : pieceLength < 2 ^ 31
  pieceSize : Nat → Nat
  filePath : Nat → String → String

/-- A piece of the download queue, with whether each of its blocks is finished. -/
structure PartialPiece where
  pieceIndex : Nat
  blocks : List Bool
  deriving DecidableEq, Repr

inductive LtCall where
  | prioritizePieces (priorities : List Nat)
  | prioritizeUpdates (updates : List (Nat × Nat))
  | setPieceDeadline (piece deadline : Nat) (alertWhenAvailable : Bool)
  | resetPieceDeadline (piece : Nat)
  | setPieceFirstBlock (piece block : Nat)
  | readPiece (piece : Nat)
  | clearPieceDeadlines
  deriving DecidableEq, Repr

/-- What libtorrent and the clock answer during one step of the worker; `fails` is what a call
throws, if it does. -/
structure Libtorrent where
  isValid : Nat → Bool
  inSession : Nat → Bool
  torrentFile : Nat → Except Thrown (Option TorrentInfo)
  savePath : Nat → Except Thrown String
  havePiece : Nat → Nat → Except Thrown Bool
  downloadQueue : Nat → Except Thrown (List PartialPiece)
  fails : Nat → LtCall → Option Thrown
  now : Nat

/-- A libtorrent that has no piece yet and accepts every call. -/
def Libtorrent.accepting (info : TorrentInfo) : Libtorrent where
  isValid := fun _ => true
  inSession := fun _ => true
  torrentFile := fun _ => .ok (some info)
  savePath := fun _ => .ok "/data"
  havePiece := fun _ _ => .ok false
  downloadQueue := fun _ => .ok []
  fails := fun _ _ => none
  now := 0

inductive CommandType where
  | beginDemand
  | endDemand
  | readPiece
  deriving DecidableEq, Repr

structure HttpCommand where
  type : CommandType
  demandId : Nat
  route : StreamRoute
  range : ByteRange
  piece : Nat
  waiter : Option Nat
  demandState : Option Nat
  deriving DecidableEq, Repr

structure ActiveDemand where
  id : Nat
  route : StreamRoute
  range : ByteRange
  state : Option Nat
  needsData : Bool
  deriving DecidableEq, Repr

structure StreamAnchor where
  route : StreamRoute
  range : ByteRange
  prefetch : Bool
  deriving DecidableEq, Repr

structure CurrentSchedule where
  handle : Nat
  priorities : Priorities
  deadlineOrder : List Nat
  focusedDemandId : Nat
  revision : Nat
  cold : Bool
  firstBlocks : SortedMap Nat Nat
  deriving DecidableEq

structure StoppedStream where
  torrentId : String
  streamId : String
  deriving DecidableEq, Repr

structure StreamActivity where
  activeHttpRequests : Nat := 0
  lastActivity : Nat
  deriving DecidableEq, Repr

def StreamActivity.acquireHttpRequest (activity : StreamActivity) : StreamActivity :=
  { activity with activeHttpRequests := activity.activeHttpRequests + 1 }

def StreamActivity.releaseHttpRequest (activity : StreamActivity) (now : Nat) : StreamActivity :=
  if activity.activeHttpRequests = 0 then activity
  else if activity.activeHttpRequests = 1 then ⟨0, now⟩
  else { activity with activeHttpRequests := activity.activeHttpRequests - 1 }

def StreamActivity.isInactive (activity : StreamActivity) (now timeout : Nat) : Bool :=
  activity.activeHttpRequests = 0 && now - activity.lastActivity ≥ timeout

structure BridgeState where
  window : StreamWindow
  inactivityTimeout : Nat
  routes : HashMap String StreamRoute := ∅
  commands : List HttpCommand := []
  nextDemandId : Nat := 1
  activeDemands : HashMap Nat ActiveDemand := ∅
  anchors : HashMap String StreamAnchor := ∅
  currentSchedules : HashMap String CurrentSchedule := ∅
  lastReadyPieces : HashMap String Nat := ∅
  pieceWaiters : HashMap PieceKey (List Nat) := ∅
  requestedReads : HashMap PieceKey Nat := ∅
  nextReadWatchdog : Nat := 0
  partialBlocks : HashMap PieceKey (List Bool) := ∅
  revokedTorrents : List String := []
  expiredStreams : List StoppedStream := []
  nextInactivityCheck : Nat := 0
  pieceCache : VerifiedPieceCache
  shuttingDown : Bool := false
  waiters : Nat → PieceWaiter := fun _ => {}
  demandCancelled : Nat → Bool := fun _ => false
  activities : String → StreamActivity := fun _ => { lastActivity := 0 }
  calls : List (Nat × LtCall) := []

def maximumHttpCommands : Nat := 4096

def readaheadForDiskBudget (diskCapacityBytes : Nat) : Nat :=
  max (64 * 1024 * 1024) (min (diskCapacityBytes / 4) (256 * 1024 * 1024))

/-- The window of every bridge. -/
def streamWindow (diskCapacityBytes : Nat) : StreamWindow where
  criticalBytes := 8 * 1024 * 1024
  criticalPieceLimit := 16
  playbackBytes := 32 * 1024 * 1024
  readaheadBytes := readaheadForDiskBudget diskCapacityBytes - 32 * 1024 * 1024
  tailBytes := 2 * 1024 * 1024

namespace BridgeState

/-- The constructor of `Impl`. -/
def create (memoryCapacityBytes diskCapacityBytes inactivity : Nat) : BridgeState where
  window := streamWindow diskCapacityBytes
  inactivityTimeout := inactivity
  pieceCache := { capacityBytes := memoryCapacityBytes }

/-- A call that libtorrent accepts is logged; one that throws has no effect. -/
def attempt (state : BridgeState) (lt : Libtorrent) (handle : Nat) (call : LtCall) :
    Except Thrown BridgeState :=
  match lt.fails handle call with
  | some thrown => .error thrown
  | none => .ok { state with calls := state.calls ++ [(handle, call)] }

/-- A call whose exceptions are caught and ignored. -/
def attemptQuietly (state : BridgeState) (lt : Libtorrent) (handle : Nat) (call : LtCall) :
    BridgeState :=
  match state.attempt lt handle call with
  | .error _ => state
  | .ok next => next

def completeWaiter (state : BridgeState) (data : Option (List UInt8)) (error : String)
    (waiter : Nat) : BridgeState :=
  { state with waiters :=
      Function.update state.waiters waiter (Stream.completeWaiter (state.waiters waiter) data error) }

def completeWaiters (state : BridgeState) (data : Option (List UInt8)) (error : String)
    (waiters : List Nat) : BridgeState :=
  waiters.foldl (fun current waiter => current.completeWaiter data error waiter) state

def publishBlocks (state : BridgeState) (blocks : List Bool) (waiter : Nat) : BridgeState :=
  { state with waiters :=
      Function.update state.waiters waiter (Stream.publishBlocks (state.waiters waiter) blocks) }

def cancelDemandState (state : BridgeState) (demandState : Option Nat) : BridgeState :=
  match demandState with
  | none => state
  | some shared => { state with demandCancelled := Function.update state.demandCancelled shared true }

/-- Erase the waiters of a kind from every entry, and the entries that are left empty together
with their partial blocks. -/
def dropWaiters (state : BridgeState) (dropped : Nat → Bool) : BridgeState :=
  { state with
    pieceWaiters := state.pieceWaiters.filterMapEntries fun _ waiters =>
      let kept := waiters.filter fun waiter => !dropped waiter
      if kept.isEmpty then none else some kept
    partialBlocks := state.partialBlocks.eraseIf fun key _ =>
      match state.pieceWaiters.lookup key with
      | none => false
      | some waiters => waiters.all dropped }

def failPiece (state : BridgeState) (key : PieceKey) (error : String) : BridgeState :=
  let cleared := { state with partialBlocks := state.partialBlocks.erase key }
  match cleared.pieceWaiters.lookup key with
  | none => cleared
  | some waiters =>
      let completed := cleared.completeWaiters none error waiters
      { completed with pieceWaiters := completed.pieceWaiters.erase key }

def pruneCancelledWaiters (state : BridgeState) : BridgeState :=
  state.dropWaiters fun waiter => (state.waiters waiter).cancelled

def cancelDemandWaiters (state : BridgeState) (demandId : Nat) (error : String) : BridgeState :=
  let owned := state.pieceWaiters.entries.flatMap fun entry =>
    entry.2.filter fun waiter => (state.waiters waiter).demandId = demandId
  let completed := state.completeWaiters none error owned
  completed.dropWaiters fun waiter => (completed.waiters waiter).demandId = demandId

def publishPartial (state : BridgeState) (key : PieceKey) : BridgeState :=
  match state.partialBlocks.lookup key, state.pieceWaiters.lookup key with
  | some blocks, some waiters =>
      waiters.foldl (fun current waiter => current.publishBlocks blocks waiter) state
  | _, _ => state

def eraseAnchor (state : BridgeState) (streamId : String) : BridgeState :=
  { state with anchors := state.anchors.eraseIf fun _ anchor => anchor.route.streamId = streamId }

def routeIsActive (state : BridgeState) (route : StreamRoute) : Bool :=
  match state.routes.lookup route.target with
  | none => false
  | some active => active.streamId = route.streamId ∧ active.torrentId = route.torrentId

def hasStreamForTorrent (state : BridgeState) (id : String) : Bool :=
  state.routes.entries.any fun entry => entry.2.torrentId = id

def pieceAvailable (state : BridgeState) (lt : Libtorrent) (route : StreamRoute) (piece : Nat) :
    Bool :=
  state.pieceCache.contains ⟨route.torrentId, piece⟩ ||
    match lt.havePiece route.handle piece with
    | .ok available => available
    | .error _ => false

def setNeedsData (state : BridgeState) (demandId : Nat) (needsData : Bool) : BridgeState :=
  match state.activeDemands.lookup demandId with
  | none => state
  | some demand =>
      { state with activeDemands :=
          state.activeDemands.insert demandId { demand with needsData := needsData } }

end BridgeState

/-- The piece that holds a position of a file, as the code computes it. -/
def pieceAt (fileOffset pieceSize position : Nat) : Nat :=
  add64 fileOffset position / pieceSize % 2 ^ 32

def writtenBlocks (lt : Libtorrent) (handle : Nat) (metadata : TorrentInfo) (piece : Nat) :
    List Bool :=
  let count := (metadata.pieceSize piece + blockBytes - 1) / blockBytes
  match lt.downloadQueue handle with
  | .error _ => List.replicate count false
  | .ok queue =>
      queue.foldl (fun blocks entry =>
        if entry.pieceIndex ≠ piece then blocks
        else entry.blocks.take blocks.length ++ blocks.drop entry.blocks.length)
        (List.replicate count false)

end NuvioEngine.Bridge
