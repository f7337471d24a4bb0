import NuvioEngine.Backend.BackendCore
import NuvioEngine.Lib.Transition
import NuvioEngine.Torrent.FileSelectionCore

/-!
Executable embedding of `engine_runtime.cpp`: the command queue between client threads and the
worker, the worker's loop, and the event queue back to the clients. A step is what one thread does in
one section under a lock, or between two of them. The backend is behind an interface here, so every
step of the worker is told what the backend answers.
-/

namespace NuvioEngine.Core

open NuvioEngine.Backend NuvioEngine.Bridge NuvioEngine.Torrent BridgeState

inductive Status where
  | ok
  | initializationFailed
  | backendUnavailable
  | queueFull
  | noEvent
  | notFound
  | metadataNotReady
  deriving DecidableEq, Repr

inductive TorrentInputType where
  | magnet
  | torrentData
  deriving DecidableEq, Repr

structure TorrentInput where
  type : TorrentInputType := .magnet
  magnetUri : String := ""
  torrentData : List UInt8 := []

inductive CommandType where
  | addTorrent
  | prepareStream
  | stopStream
  | reclaimDiskCache
  | removeTorrent
  deriving DecidableEq, Repr

structure Command where
  type : CommandType
  requestId : Nat := 0
  input : TorrentInput := {}
  torrentId : String := ""
  streamId : String := ""
  fileIndex : Nat := 0
  file : TorrentFileInfo := ⟨"", 0, 0⟩
  targetBytes : Nat := 0

/-- An event of the C interface; its texts are cut to the size of their arrays. -/
structure EngineEvent where
  type : BackendEventType
  sequence : Nat
  requestId : Nat
  droppedEvents : Nat := 0
  torrentId : List UInt8 := []
  message : List UInt8 := []
  fileIndex : Nat := 0
  fileSize : Nat := 0
  streamId : List UInt8 := []

/-- Where a call of `push_event` stands, and so where the worker goes on after it. -/
inductive Caller where
  | processCommand
  | collectBackendEvents
  | run
  deriving DecidableEq, Repr

/-- Where the worker is: in `run`, in `collect_backend_events` with the events it took, or in one of
the three sections of `push_event` with the events still to be pushed. -/
inductive Worker where
  | waiting
  | processing (command : Command)
  | collecting
  | refreshing (events : List BackendEvent)
  | filing (event : BackendEvent) (rest : List BackendEvent) (caller : Caller)
  | stamping (event : BackendEvent) (rest : List BackendEvent) (caller : Caller)
  | storing (event : EngineEvent) (rest : List BackendEvent) (caller : Caller)
  | shuttingDown
  | stopped

/-- What the backend and the clock answer to the worker during one step. -/
structure BackendAnswers where
  commandThrows : Option Thrown := none
  popEvents : Except Thrown (List BackendEvent) := .ok []
  statisticsThrows : Option Thrown := none
  now : Nat := 0

structure EngineRuntime where
  hasBackend : Bool
  commandCapacity : Nat
  eventCapacity : Nat
  commands : List Command := []
  events : List EngineEvent := []
  files : HashMap String (List TorrentFileInfo) := ∅
  worker : Worker := .waiting
  stopping : Bool := false
  wakePending : Bool := false
  nextStatsRefresh : Nat := 0
  nextRequestId : Nat := 1
  nextSequence : Nat := 1
  droppedEvents : Nat := 0

def copyText (size : Nat) (source : String) : List UInt8 := source.toUTF8.toList.take (size - 1)

/-- The event that reports an exception. -/
def errorEvent (requestId : Nat) (unknown : String) (thrown : Thrown) : BackendEvent where
  type := .torrentError
  requestId := requestId
  torrentId := ""
  message := match thrown with
    | .standard what => what
    | .other => unknown

/-- The worker pushes the events that it was called with, or goes on. -/
def Worker.publish (caller : Caller) : List BackendEvent → Worker
  | event :: rest => .filing event rest caller
  | [] =>
      match caller with
      | .processCommand => .collecting
      | .collectBackendEvents | .run => .waiting

/-- The command that the worker took and has not passed to the backend yet. -/
def Worker.inFlight : Worker → List Command
  | .processing command => [command]
  | _ => []

namespace EngineRuntime

def wake (runtime : EngineRuntime) : EngineRuntime := { runtime with wakePending := true }

/-- What the destructor does before it joins the worker. -/
def requestStop (runtime : EngineRuntime) : EngineRuntime := { runtime with stopping := true }

/-- The status, the runtime after the call and the caller's `request_id`. -/
def enqueue (runtime : EngineRuntime) (command : Command) (requestId : Nat) :
    Status × EngineRuntime × Nat :=
  if !runtime.hasBackend then (.backendUnavailable, runtime, requestId)
  else if runtime.stopping then (.initializationFailed, runtime, requestId)
  else if runtime.commands.length ≥ runtime.commandCapacity then (.queueFull, runtime, requestId)
  else
    let accepted := { command with requestId := runtime.nextRequestId }
    (.ok, { runtime with
      commands := runtime.commands ++ [accepted]
      nextRequestId := runtime.nextRequestId + 1 }, runtime.nextRequestId)

def addTorrent (input : TorrentInput) : Command := { type := .addTorrent, input := input }

/-- The first section of `prepare_stream`, which chooses the file. -/
def prepareStream (runtime : EngineRuntime) (torrentId : String) (requestedIndex : Option Nat)
    (filenameHint : String) : Except Status Command :=
  match runtime.files.lookup torrentId with
  | none => .error .metadataNotReady
  | some files =>
      let selectable := files.map fun file => ⟨file.path.toUTF8.toList, file.size⟩
      match (selectFile selectable requestedIndex filenameHint.toUTF8.toList).index with
      | none => .error .notFound
      | some selected =>
          .ok {
            type := .prepareStream
            torrentId := torrentId
            fileIndex := selected
            file := files.getD selected ⟨"", 0, 0⟩ }

def removeTorrent (torrentId : String) : Command := { type := .removeTorrent, torrentId := torrentId }

def stopStream (streamId : String) : Command := { type := .stopStream, streamId := streamId }

def reclaimDiskCache (targetBytes : Nat) : Command :=
  { type := .reclaimDiskCache, targetBytes := targetBytes }

def pollEvent (runtime : EngineRuntime) : Option EngineEvent × EngineRuntime :=
  match runtime.events with
  | [] => (none, runtime)
  | event :: rest => (some event, { runtime with events := rest })

/-- `push_event` keeps the files of a torrent from its metadata to its removal. -/
def fileEvent (runtime : EngineRuntime) (event : BackendEvent) : EngineRuntime :=
  match event.type with
  | .metadataReady => { runtime with files := runtime.files.insert event.torrentId event.files }
  | .torrentRemoved => { runtime with files := runtime.files.erase event.torrentId }
  | _ => runtime

def stampEvent (runtime : EngineRuntime) (event : BackendEvent) : EngineEvent where
  type := event.type
  sequence := runtime.nextSequence
  requestId := event.requestId
  torrentId := copyText 65 event.torrentId
  message := copyText 256 event.message
  fileIndex := event.fileIndex
  fileSize := event.fileSize
  streamId := copyText 65 event.streamId

/-- The last section of `push_event`: the oldest event makes room for the new one. -/
def storeEvent (runtime : EngineRuntime) (event : EngineEvent) : EngineRuntime :=
  let full := runtime.events.length ≥ runtime.eventCapacity
  let room := if full then runtime.events.tail else runtime.events
  let dropped := if full then runtime.droppedEvents + 1 else runtime.droppedEvents
  { runtime with
    events := room ++ [{ event with droppedEvents := dropped }]
    droppedEvents := dropped }

/-- The section of `run` under the lock. The wait ends by itself after a while. -/
def takeCommand (runtime : EngineRuntime) : EngineRuntime :=
  let woken := { runtime with wakePending := false }
  match runtime.commands with
  | command :: rest => { woken with commands := rest, worker := .processing command }
  | [] => { woken with worker := if runtime.stopping then .shuttingDown else .collecting }

/-- Whether the events are taken on: `collect_backend_events` returns early when there are none. -/
def takeEvents (runtime : EngineRuntime) (now : Nat) (events : List BackendEvent) : EngineRuntime :=
  if events.isEmpty ∧ now < runtime.nextStatsRefresh then { runtime with worker := .waiting }
  else { runtime with nextStatsRefresh := now + 50, worker := .refreshing events }

def work (runtime : EngineRuntime) (answers : BackendAnswers) : EngineRuntime :=
  match runtime.worker with
  | .waiting => runtime.takeCommand
  | .processing command =>
      { runtime with
        worker := .publish .processCommand
          (answers.commandThrows.map
            (errorEvent command.requestId "unknown protocol backend error")).toList }
  | .collecting =>
      match answers.popEvents with
      | .error thrown =>
          { runtime with worker := .publish .run [errorEvent 0 "unknown protocol event error" thrown] }
      | .ok events => runtime.takeEvents answers.now events
  | .refreshing events =>
      match answers.statisticsThrows with
      | some thrown =>
          { runtime with worker := .publish .run [errorEvent 0 "unknown protocol event error" thrown] }
      | none => { runtime with worker := .publish .collectBackendEvents events }
  | .filing event rest caller => { runtime.fileEvent event with worker := .stamping event rest caller }
  | .stamping event rest caller =>
      { runtime with
        nextSequence := runtime.nextSequence + 1
        worker := .storing (runtime.stampEvent event) rest caller }
  | .storing event rest caller => { runtime.storeEvent event with worker := .publish caller rest }
  | .shuttingDown => { runtime with worker := .stopped }
  | .stopped => runtime

end EngineRuntime

/-- The runtime, the calls of client threads that chose their command, the `request_id` of each
thread, and the history: the commands that were accepted and those passed to the backend, how often
the backend was shut down, the events it returned, those passed to `push_event`, and the events that
were stored and polled. -/
structure Engine where
  runtime : EngineRuntime
  calls : HashMap Nat Command := ∅
  requestIds : Nat → Nat := fun _ => 0
  accepted : List Command := []
  executed : List Command := []
  shutdowns : Nat := 0
  returned : List BackendEvent := []
  pushed : List (Caller × BackendEvent) := []
  stored : List EngineEvent := []
  polled : List EngineEvent := []

inductive EngineAction where
  | addTorrent (thread : Nat) (input : TorrentInput)
  | prepareStream (thread : Nat) (torrentId : String) (requestedIndex : Option Nat)
      (filenameHint : String)
  | removeTorrent (thread : Nat) (torrentId : String)
  | stopStream (thread : Nat) (streamId : String)
  | reclaimDiskCache (thread targetBytes : Nat)
  | enqueue (thread : Nat)
  | pollEvent
  | wake
  | destroy
  | work (answers : BackendAnswers)

namespace Engine

def call (engine : Engine) (thread : Nat) (command : Command) : Engine :=
  { engine with calls := engine.calls.insert thread command }

/-- A client thread enters `enqueue` with the command that it chose. -/
def enqueue (engine : Engine) (thread : Nat) : Engine :=
  match engine.calls.lookup thread with
  | none => engine
  | some command =>
      let outcome := engine.runtime.enqueue command (engine.requestIds thread)
      { engine with
        runtime := outcome.2.1
        calls := engine.calls.erase thread
        requestIds := Function.update engine.requestIds thread outcome.2.2
        accepted := if outcome.1 = .ok then
            engine.accepted ++ [{ command with requestId := outcome.2.2 }]
          else engine.accepted }

def poll (engine : Engine) : Engine :=
  let (event, runtime) := engine.runtime.pollEvent
  { engine with runtime := runtime, polled := engine.polled ++ event.toList }

def work (engine : Engine) (answers : BackendAnswers) : Engine :=
  let next := engine.runtime.work answers
  match engine.runtime.worker with
  | .processing command => { engine with runtime := next, executed := engine.executed ++ [command] }
  | .collecting =>
      { engine with
        runtime := next
        returned := engine.returned ++ answers.popEvents.toOption.getD [] }
  | .filing event _ caller =>
      { engine with runtime := next, pushed := engine.pushed ++ [(caller, event)] }
  | .storing event _ _ =>
      { engine with
        runtime := next
        stored := engine.stored ++ [{ event with droppedEvents := next.droppedEvents }] }
  | .shuttingDown => { engine with runtime := next, shutdowns := engine.shutdowns + 1 }
  | .waiting | .refreshing _ | .stamping .. | .stopped => { engine with runtime := next }

def perform (engine : Engine) : EngineAction → Engine
  | .addTorrent thread input => engine.call thread (EngineRuntime.addTorrent input)
  | .prepareStream thread torrentId requestedIndex filenameHint =>
      match engine.runtime.prepareStream torrentId requestedIndex filenameHint with
      | .error _ => engine
      | .ok command => engine.call thread command
  | .removeTorrent thread torrentId => engine.call thread (EngineRuntime.removeTorrent torrentId)
  | .stopStream thread streamId => engine.call thread (EngineRuntime.stopStream streamId)
  | .reclaimDiskCache thread targetBytes =>
      engine.call thread (EngineRuntime.reclaimDiskCache targetBytes)
  | .enqueue thread => engine.enqueue thread
  | .pollEvent => engine.poll
  | .wake => { engine with runtime := engine.runtime.wake }
  | .destroy => { engine with runtime := engine.runtime.requestStop }
  | .work answers => engine.work answers

/-- A thread makes one call at a time, and there is a worker when there is a backend. -/
def Possible (engine : Engine) : EngineAction → Prop
  | .addTorrent thread _ | .prepareStream thread _ _ _ | .removeTorrent thread _
  | .stopStream thread _ | .reclaimDiskCache thread _ => engine.calls.lookup thread = none
  | .enqueue thread => (engine.calls.lookup thread).isSome
  | .work _ => engine.runtime.hasBackend = true
  | .pollEvent | .wake | .destroy => True

def create (hasBackend : Bool) (commandCapacity eventCapacity : Nat) : Engine where
  runtime := {
    hasBackend := hasBackend
    commandCapacity := commandCapacity
    eventCapacity := eventCapacity }

def Initial (engine : Engine) : Prop :=
  ∃ hasBackend commandCapacity eventCapacity, engine = create hasBackend commandCapacity eventCapacity

def Reachable : Engine → Prop := Transition.Reachable Initial Possible perform

@[simp]
theorem work_runtime (engine : Engine) (answers : BackendAnswers) :
    (engine.work answers).runtime = engine.runtime.work answers := by
  unfold work
  split <;> rfl

end Engine

end NuvioEngine.Core
