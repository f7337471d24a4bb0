import NuvioEngine.Lib.SortedMap
import Mathlib.Algebra.Ring.Nat
import Mathlib.Data.List.Sort

/-!
Executable embedding of `piece_scheduler.cpp` and `stream_demand_plan.cpp`: the priority
windows of one demand, the pieces they reach, and the plan that merges all demands of a
torrent. Byte counts are the 64-bit values of the source, written as natural numbers; the
wrapping operators are written out where a value can leave the 64-bit range.
-/

namespace NuvioEngine

def uint64Max : Nat := 2 ^ 64 - 1

def uint32Max : Nat := 2 ^ 32 - 1

/-- Unsigned 64-bit addition, subtraction and multiplication, which wrap around. -/
def add64 (left right : Nat) : Nat := (left + right) % 2 ^ 64

def sub64 (left right : Nat) : Nat := (left + 2 ^ 64 - right % 2 ^ 64) % 2 ^ 64

def mul64 (left right : Nat) : Nat := (left * right) % 2 ^ 64

/-- An inclusive byte range of a file. -/
structure ByteRange where
  start : Nat
  last : Nat
  deriving DecidableEq, Repr

def ByteRange.Covers (range : ByteRange) (position : Nat) : Prop :=
  range.start ≤ position ∧ position ≤ range.last

namespace Scheduler

inductive PriorityClass where
  | blocking
  | critical
  | playback
  | metadataTail
  | readahead
  deriving DecidableEq, Repr

namespace PriorityClass

def value : PriorityClass → Nat
  | blocking => 0
  | critical => 1
  | playback => 2
  | metadataTail => 3
  | readahead => 4

theorem value_injective : Function.Injective value := by
  intro left right same
  cases left <;> cases right <;> simp_all [value]

instance : LinearOrder PriorityClass := LinearOrder.lift' value value_injective

theorem le_iff (left right : PriorityClass) : left ≤ right ↔ left.value ≤ right.value := Iff.rfl

theorem blocking_le (other : PriorityClass) : blocking ≤ other := Nat.zero_le _

end PriorityClass

structure PiecePriority where
  piece : Nat
  priority : PriorityClass
  deriving DecidableEq, Repr

structure ScheduleRequest where
  fileOffset : Nat
  fileSize : Nat
  pieceSize : Nat
  demand : ByteRange
  criticalBytes : Nat
  playbackBytes : Nat
  readaheadBytes : Nat
  metadataTailBytes : Nat

def saturatingAdd (left right : Nat) : Nat :=
  if right > uint64Max - left then uint64Max else left + right

def extendFrom (start additionalBytes fileSize : Nat) : ByteRange :=
  let exclusiveEnd := min (saturatingAdd start additionalBytes) fileSize
  ⟨start, if exclusiveEnd > start then exclusiveEnd - 1 else start⟩

abbrev Priorities := SortedMap Nat PriorityClass

def addRange (priorities : Priorities) (request : ScheduleRequest) (range : ByteRange)
    (priority : PriorityClass) : Except String Priorities :=
  if request.fileSize = 0 ∨ range.start ≥ request.fileSize then .ok priorities
  else
    let clampedEnd := min range.last (request.fileSize - 1)
    let absoluteStart := saturatingAdd request.fileOffset range.start
    let absoluteEnd := saturatingAdd request.fileOffset clampedEnd
    let firstPiece := absoluteStart / request.pieceSize
    let lastPiece := absoluteEnd / request.pieceSize
    if lastPiece > uint32Max then .error "piece index exceeds 32-bit libtorrent range"
    else .ok ((List.range' firstPiece (lastPiece + 1 - firstPiece)).foldl
      (fun current piece => current.lower piece priority) priorities)

def blockingDemandRange (responseRange : ByteRange) (position fileOffset pieceSize : Nat) :
    Except String ByteRange :=
  if pieceSize = 0 then .error "piece size must be greater than zero"
  else if responseRange.start > responseRange.last ∨ position < responseRange.start ∨
      position > responseRange.last then
    .error "position must intersect the response range"
  else
    let offsetInPiece := (fileOffset % pieceSize + position % pieceSize) % pieceSize
    let remainingInPiece := pieceSize - offsetInPiece
    .ok ⟨position, min (saturatingAdd position (remainingInPiece - 1)) responseRange.last⟩

def PiecePriority.before (left right : PiecePriority) : Prop := left.priority ≤ right.priority

instance : DecidableRel PiecePriority.before := fun left right =>
  inferInstanceAs (Decidable (left.priority ≤ right.priority))

/-- Entries in key order, then stably sorted by class. -/
def listByPriority (priorities : Priorities) : List PiecePriority :=
  (priorities.entries.map fun entry => ⟨entry.1, entry.2⟩).insertionSort PiecePriority.before

/-- The windows that follow the demand one after the other: each starts where the one before
ended and is skipped when it is empty or the file is exhausted. -/
def addWindow (request : ScheduleRequest) (bytes : Nat) (priority : PriorityClass)
    (state : Priorities × Nat) : Except String (Priorities × Nat) :=
  if state.2 < request.fileSize ∧ bytes > 0 then do
    let range := extendFrom state.2 bytes request.fileSize
    let priorities ← addRange state.1 request range priority
    return (priorities, min (saturatingAdd range.last 1) request.fileSize)
  else .ok state

def addTail (request : ScheduleRequest) (priorities : Priorities) : Except String Priorities :=
  if request.metadataTailBytes > 0 then
    let tailSize := min request.metadataTailBytes request.fileSize
    addRange priorities request ⟨request.fileSize - tailSize, request.fileSize - 1⟩ .metadataTail
  else .ok priorities

def buildPieceSchedule (request : ScheduleRequest) : Except String (List PiecePriority) :=
  if request.pieceSize = 0 then .error "piece size must be greater than zero"
  else if request.fileSize = 0 then .ok []
  else if request.demand.start > request.demand.last ∨
      request.demand.start ≥ request.fileSize then
    .error "demand must intersect the selected file"
  else do
    let priorities ← addRange SortedMap.empty request request.demand .blocking
    let nextStart := min (saturatingAdd request.demand.last 1) request.fileSize
    let state ← addWindow request request.criticalBytes .critical (priorities, nextStart)
    let state ← addWindow request request.playbackBytes .playback state
    let state ← addWindow request request.readaheadBytes .readahead state
    let priorities ← addTail request state.1
    return listByPriority priorities

inductive DemandKind where
  | reader
  | anchor
  | prefetch
  deriving DecidableEq, Repr

structure StreamDemand where
  id : Nat
  fileOffset : Nat
  fileSize : Nat
  pieceSize : Nat
  range : ByteRange
  kind : DemandKind := .reader
  cold : Bool := false
  deriving DecidableEq, Repr

structure StreamWindow where
  criticalBytes : Nat
  criticalPieceLimit : Nat
  playbackBytes : Nat
  readaheadBytes : Nat
  tailBytes : Nat
  deriving DecidableEq, Repr

structure StreamDemandPlan where
  focusedDemandId : Nat := 0
  pieces : List PiecePriority := []
  deadlineOrder : List Nat := []
  cold : Bool := false
  deriving DecidableEq, Repr

def mergeSchedule (combined : Priorities) (schedule : List PiecePriority) : Priorities :=
  schedule.foldl (fun current entry => current.lower entry.piece entry.priority) combined

/-- `ordered.insert(piece).second` followed by `push_back`: the set `ordered` of the source
holds exactly the pieces already pushed. -/
def pushUnseen (order : List Nat) (piece : Nat) : List Nat :=
  if piece ∈ order then order else order ++ [piece]

def pushBlocking (order : List Nat) (schedule : List PiecePriority) : List Nat :=
  schedule.foldl (fun current entry =>
    if entry.priority = .blocking then pushUnseen current entry.piece else current) order

def PiecePriority.relabel (change : PriorityClass → PriorityClass) (entry : PiecePriority) :
    PiecePriority :=
  ⟨entry.piece, change entry.priority⟩

def demoteBlocking : PriorityClass → PriorityClass
  | .blocking => .critical
  | other => other

def StreamDemand.isCold (demand : StreamDemand) : Bool :=
  demand.kind = .prefetch || demand.cold

def StreamDemand.criticalBytes (demand : StreamDemand) (window : StreamWindow) : Nat :=
  if demand.isCold then 0
  else min window.criticalBytes (window.criticalPieceLimit * demand.pieceSize)

def StreamDemand.focusedRequest (demand : StreamDemand) (window : StreamWindow) :
    ScheduleRequest :=
  ⟨demand.fileOffset, demand.fileSize, demand.pieceSize, demand.range,
    demand.criticalBytes window, window.playbackBytes, window.readaheadBytes, window.tailBytes⟩

/-- The request for the pieces a range meets and nothing around it. -/
def StreamDemand.rangeRequest (demand : StreamDemand) (range : ByteRange) : ScheduleRequest :=
  ⟨demand.fileOffset, demand.fileSize, demand.pieceSize, range, 0, 0, 0, 0⟩

/-- The windows of the focused demand; only a reader keeps its pieces blocking. -/
def focusedSchedule (focused : StreamDemand) (window : StreamWindow) :
    Except String (List PiecePriority) := do
  let schedule ← buildPieceSchedule (focused.focusedRequest window)
  return if focused.kind = .reader then schedule
    else schedule.map (PiecePriority.relabel demoteBlocking)

def StreamDemand.headBytes (focused : StreamDemand) (window : StreamWindow) : Nat :=
  min (add64 (focused.criticalBytes window) window.playbackBytes) focused.fileSize

def StreamDemand.readsIndexTail (focused : StreamDemand) (window : StreamWindow) : Bool :=
  let indexBytes := min (max window.tailBytes (focused.fileSize / 64)) focused.fileSize
  window.tailBytes > 0 && focused.range.start ≥ focused.fileSize - indexBytes

/-- Reading the index at the file's tail keeps the head of the file downloading. -/
def headSchedule (focused : StreamDemand) (window : StreamWindow) :
    Except String (List PiecePriority) :=
  if focused.readsIndexTail window ∧ focused.headBytes window > 0 then do
    let head ← buildPieceSchedule (focused.rangeRequest ⟨0, focused.headBytes window - 1⟩)
    return head.map (PiecePriority.relabel fun _ => .playback)
  else .ok []

/-- The other readers, newest first: their pieces become blocking and get a deadline. -/
def mergeReaders : List StreamDemand → Priorities × List Nat →
    Except String (Priorities × List Nat)
  | [], state => .ok state
  | demand :: rest, state =>
      if demand.kind ≠ .reader then mergeReaders rest state
      else do
        let schedule ← buildPieceSchedule (demand.rangeRequest demand.range)
        mergeReaders rest (mergeSchedule state.1 schedule, pushBlocking state.2 schedule)

def pushCritical (order : List Nat) (combined : Priorities) : List Nat :=
  combined.entries.foldl (fun current entry =>
    if entry.2 = .critical then pushUnseen current entry.1 else current) order

def StreamDemand.older (left right : StreamDemand) : Prop := left.id ≤ right.id

instance : DecidableRel StreamDemand.older := fun left right =>
  inferInstanceAs (Decidable (left.id ≤ right.id))

def buildStreamDemandPlan (demands : List StreamDemand) (window : StreamWindow) :
    Except String StreamDemandPlan :=
  match (demands.insertionSort StreamDemand.older).reverse with
  | [] => .ok {}
  | focused :: others => do
      let schedule ← focusedSchedule focused window
      let head ← headSchedule focused window
      let combined := mergeSchedule (mergeSchedule SortedMap.empty schedule) head
      let merged ← mergeReaders others (combined, pushBlocking [] schedule)
      return {
        focusedDemandId := focused.id
        pieces := listByPriority merged.1
        deadlineOrder := pushCritical merged.2 merged.1
        cold := focused.isCold }

end Scheduler

end NuvioEngine
