import NuvioEngine.Core.RuntimeCore

/-!
Executable embedding of the commands of the actor in `NuvioEngine.swift` over the engine it owns:
`submit` and `awaitCommand`, `cancelPending`, `pollEventsAndStats` with `process`, and `shutdown`. A step
is a job of the actor up to its next suspension, one turn of the polling loop, or a step of the engine's
worker. A continuation is known by the request it waits for.
-/

namespace NuvioEngine.Apple

open NuvioEngine.Backend NuvioEngine.Core

inductive NuvioEventType where
  | torrentAdded
  | torrentMetadataReady
  | torrentError
  | streamPrepared
  | torrentRemoved
  | streamStopped
  | diskCacheReclaimed
  deriving DecidableEq, Repr

def NuvioEventType.ofRawValue : Nat → Option NuvioEventType
  | 1 => some .torrentAdded
  | 2 => some .torrentMetadataReady
  | 3 => some .torrentError
  | 4 => some .streamPrepared
  | 5 => some .torrentRemoved
  | 6 => some .streamStopped
  | 7 => some .diskCacheReclaimed
  | _ => none

/-- The type of an event of the C interface, as `push_event` sets it. -/
def eventNumber : BackendEventType → Nat
  | .torrentAdded => 1
  | .metadataReady => 2
  | .torrentError => 3
  | .streamPrepared => 4
  | .torrentRemoved => 5
  | .streamStopped => 6
  | .diskCacheReclaimed => 7

/-- Texts are their UTF-8 bytes. -/
abbrev Text := List UInt8

def text (string : String) : Text := string.toUTF8.toList

structure NuvioEvent where
  type : NuvioEventType
  sequence : Nat
  requestID : Nat
  droppedEvents : Nat
  torrentID : Option Text
  message : Option Text
  fileIndex : Option Nat
  fileSize : Nat
  streamID : Option Text
  deriving DecidableEq, Repr

inductive Failure where
  | engine (message : Text)
  | cancellation
  deriving DecidableEq, Repr

def fixedCString (value : List UInt8) : Text := value.takeWhile (· ≠ 0)

def optionalFixedCString (value : List UInt8) : Option Text :=
  let result := fixedCString value
  if result.isEmpty then none else some result

/-- `makeEvent`, told whether the text of the stream URL is one. -/
def makeEvent (nativeEvent : EngineEvent) (validUrl : Bool) : Except Failure NuvioEvent :=
  match NuvioEventType.ofRawValue (eventNumber nativeEvent.type) with
  | none => .error (.engine (text s!"unknown native event type {eventNumber nativeEvent.type}"))
  | some type =>
      if !validUrl then .error (.engine (text "native event contained an invalid stream URL"))
      else .ok {
        type := type
        sequence := nativeEvent.sequence
        requestID := nativeEvent.requestId
        droppedEvents := nativeEvent.droppedEvents
        torrentID := optionalFixedCString nativeEvent.torrentId
        message := optionalFixedCString nativeEvent.message
        fileIndex := if nativeEvent.fileIndex = 2 ^ 32 - 1 then none else some nativeEvent.fileIndex
        fileSize := nativeEvent.fileSize
        streamID := optionalFixedCString nativeEvent.streamId }

/-- What a continuation is resumed with. -/
inductive Resumption where
  | returning (event : NuvioEvent)
  | throwing (error : Failure)
  deriving DecidableEq, Repr

/-- The actor's state; the tasks that will call `cancelPending`; and the history: the continuations that
were made with the types they expect, those that were resumed, and the requests whose callers were
cancelled. -/
structure EngineActor where
  opened : Bool := true
  pollingFailure : Option Failure := none
  pendingCommands : HashMap Nat NuvioEventType := ∅
  lastDroppedEvents : Nat := 0
  cancelTasks : List Nat := []
  awaited : List (Nat × NuvioEventType) := []
  resumed : List (Nat × Resumption) := []
  cancelled : List Nat := []

namespace EngineActor

/-- `pendingCommands.removeValue` and `continuation.resume`. -/
def resume (actor : EngineActor) (requestID : Nat) (resumption : Resumption) : EngineActor :=
  { actor with
    pendingCommands := actor.pendingCommands.erase requestID
    resumed := actor.resumed ++ [(requestID, resumption)] }

def failPending (actor : EngineActor) (error : Failure) : EngineActor :=
  { actor with
    pendingCommands := ∅
    resumed := actor.resumed ++
      actor.pendingCommands.entries.map fun pending => (pending.1, .throwing error) }

def failPolling (actor : EngineActor) (error : Failure) : EngineActor :=
  { actor with pollingFailure := some error }.failPending error

def ensureOpen (actor : EngineActor) : Except Failure Unit :=
  match actor.pollingFailure with
  | some pollingFailure => .error pollingFailure
  | none => if actor.opened then .ok () else .error (.engine (text "NuvioEngine is closed"))

/-- The continuation of `awaitCommand`, and for a task that is cancelled already its handler. -/
def awaitCommand (actor : EngineActor) (requestID : Nat) (expectedType : NuvioEventType)
    (isCancelled : Bool) : EngineActor :=
  let made := { actor with awaited := actor.awaited ++ [(requestID, expectedType)] }
  if isCancelled then
    { made with
      resumed := made.resumed ++ [(requestID, .throwing .cancellation)]
      cancelTasks := made.cancelTasks ++ [requestID]
      cancelled := made.cancelled ++ [requestID] }
  else { made with pendingCommands := made.pendingCommands.insert requestID expectedType }

/-- The handler `onCancel`. -/
def onCancel (actor : EngineActor) (requestID : Nat) : EngineActor :=
  { actor with
    cancelTasks := actor.cancelTasks ++ [requestID]
    cancelled := actor.cancelled ++ [requestID] }

def cancelPending (actor : EngineActor) (requestID : Nat) : EngineActor :=
  let started := { actor with cancelTasks := actor.cancelTasks.erase requestID }
  match started.pendingCommands.lookup requestID with
  | none => started
  | some _ => started.resume requestID (.throwing .cancellation)

def droppedMessage (droppedEvents : Nat) : Text :=
  text s!"native event queue dropped {droppedEvents} event(s); resynchronize state"

/-- The first part of `process`. -/
def noticeDropped (actor : EngineActor) (event : NuvioEvent) : EngineActor :=
  if event.droppedEvents > actor.lastDroppedEvents then
    { actor with lastDroppedEvents := event.droppedEvents }.failPending
      (.engine (droppedMessage event.droppedEvents))
  else actor

/-- The last part of `process`. -/
def answer (actor : EngineActor) (event : NuvioEvent) : EngineActor :=
  match if event.requestID ≠ 0 then actor.pendingCommands.lookup event.requestID else none with
  | none => actor
  | some expectedType =>
      if event.type = .torrentError then
        actor.resume event.requestID
          (.throwing (.engine (event.message.getD (text "torrent operation failed"))))
      else if event.type = expectedType then actor.resume event.requestID (.returning event)
      else actor

def process (actor : EngineActor) (event : NuvioEvent) : EngineActor :=
  (actor.noticeDropped event).answer event

/-- The part of `shutdown` before it waits for the engine to be destroyed. -/
def shutdown (actor : EngineActor) : EngineActor :=
  { actor.failPending (.engine (text "NuvioEngine is closed")) with opened := false }

end EngineActor

/-- A command that a caller submits. -/
inductive Submission where
  | addTorrent (input : TorrentInput)
  | prepareStream (torrentID : String) (fileIndex : Option Nat) (filenameHint : String)
  | stopStream (streamID : String)
  | removeTorrent (torrentID : String)
  | reclaimDiskCache (targetBytes : Nat)

namespace Submission

/-- What the engine makes of it. -/
def command (runtime : EngineRuntime) : Submission → Except Status Command
  | addTorrent input => .ok (EngineRuntime.addTorrent input)
  | prepareStream torrentID fileIndex filenameHint =>
      runtime.prepareStream torrentID fileIndex filenameHint
  | stopStream streamID => .ok (EngineRuntime.stopStream streamID)
  | removeTorrent torrentID => .ok (EngineRuntime.removeTorrent torrentID)
  | reclaimDiskCache targetBytes => .ok (EngineRuntime.reclaimDiskCache targetBytes)

def expectedType : Submission → NuvioEventType
  | addTorrent _ => .torrentMetadataReady
  | prepareStream .. => .streamPrepared
  | stopStream _ => .streamStopped
  | removeTorrent _ => .torrentRemoved
  | reclaimDiskCache _ => .diskCacheReclaimed

end Submission

structure System where
  engine : Engine
  actor : EngineActor := {}

inductive SystemAction where
  | submit (submission : Submission) (isCancelled : Bool)
  | cancel (requestID : Nat)
  | cancelPending (requestID : Nat)
  | poll (validUrl : Bool)
  | pollFails (error : Failure)
  | shutdown
  | destroy
  | wake
  | work (answers : BackendAnswers)

namespace System

/-- `submit` and then `awaitCommand`, which the actor enters without a suspension between them. -/
def submit (system : System) (submission : Submission) (isCancelled : Bool) : System :=
  if system.actor.ensureOpen.isOk then
    match submission.command system.engine.runtime with
    | .error _ => system
    | .ok command =>
        let engine := (system.engine.call 0 command).enqueue 0
        let outcome := system.engine.runtime.enqueue command 0
        if outcome.1 = .ok ∧ outcome.2.2 ≠ 0 then
          { engine := engine
            actor := system.actor.awaitCommand outcome.2.2 submission.expectedType isCancelled }
        else { system with engine := engine }
  else system

/-- One turn of the loop of `pollEventsAndStats`. -/
def poll (system : System) (validUrl : Bool) : System :=
  if system.actor.opened ∧ system.actor.pollingFailure.isNone then
    match system.engine.runtime.events with
    | [] => system
    | nativeEvent :: _ =>
        { engine := system.engine.poll
          actor := match makeEvent nativeEvent validUrl with
            | .error error => system.actor.failPolling error
            | .ok event => system.actor.process event }
  else system

def perform (system : System) : SystemAction → System
  | .submit submission isCancelled => system.submit submission isCancelled
  | .cancel requestID => { system with actor := system.actor.onCancel requestID }
  | .cancelPending requestID => { system with actor := system.actor.cancelPending requestID }
  | .poll validUrl => system.poll validUrl
  | .pollFails error =>
      if system.actor.opened ∧ system.actor.pollingFailure.isNone then
        { system with actor := system.actor.failPolling error }
      else system
  | .shutdown => { system with actor := system.actor.shutdown }
  | .destroy => { system with engine := system.engine.perform .destroy }
  | .wake => { system with engine := system.engine.perform .wake }
  | .work answers => { system with engine := system.engine.work answers }

/-- The callers of the actor's commands can be cancelled, tasks run once, the engine is destroyed after
the actor is closed, and the backend returns events about requests that were made, or about none. -/
def Possible (system : System) : SystemAction → Prop
  | .cancel requestID => requestID ∈ system.actor.awaited.map Prod.fst
  | .cancelPending requestID => requestID ∈ system.actor.cancelTasks
  | .destroy => system.actor.opened = false
  | .work answers => system.engine.runtime.hasBackend = true ∧
      ∀ event ∈ answers.popEvents.toOption.getD [],
        event.requestId < system.engine.runtime.nextRequestId
  | .submit .. | .poll _ | .pollFails _ | .shutdown | .wake => True

instance (system : System) : DecidablePred system.Possible
  | .cancel _ | .cancelPending _ => List.instDecidableMemOfLawfulBEq _ _
  | .destroy => instDecidableEqBool _ _
  | .work _ => instDecidableAnd
  | .submit .. | .poll _ | .pollFails _ | .shutdown | .wake => instDecidableTrue

def Initial (system : System) : Prop :=
  ∃ hasBackend commandCapacity eventCapacity,
    system = { engine := Engine.create hasBackend commandCapacity eventCapacity }

def Reachable : System → Prop := Transition.Reachable Initial Possible perform

end System

end NuvioEngine.Apple
