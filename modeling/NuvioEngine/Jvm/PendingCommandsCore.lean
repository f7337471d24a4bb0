import NuvioEngine.Lib.Transition
import Mathlib.Logic.Function.Basic

/-!
The commands that wait for an event in `NuvioEngine.kt`: `awaitCommand`, the event loop with
`processEvent` and `failPending`, and `close`. A section under `nativeLock`, an operation of the
concurrent map and the visit of one element by `forEach` are one step each. Commands are numbered in
the order in which they are registered.
-/

namespace NuvioEngine.Jvm

inductive NuvioEventType where
  | torrentAdded
  | torrentMetadataReady
  | torrentError
  | streamPrepared
  | torrentRemoved
  | streamStopped
  | diskCacheReclaimed
  deriving DecidableEq, Repr

def NuvioEventType.fromNative : Int → Except String NuvioEventType
  | 1 => .ok .torrentAdded
  | 2 => .ok .torrentMetadataReady
  | 3 => .ok .torrentError
  | 4 => .ok .streamPrepared
  | 5 => .ok .torrentRemoved
  | 6 => .ok .streamStopped
  | 7 => .ok .diskCacheReclaimed
  | value => .error s!"unknown native event type {value}"

structure NativeEvent where
  type : Int
  requestId : Int
  droppedEvents : Int
  message : String
  deriving DecidableEq, Repr

structure NuvioEvent where
  type : NuvioEventType
  requestId : Int
  droppedEvents : Int
  message : Option String
  deriving DecidableEq, Repr

def NativeEvent.toPublicEvent (event : NativeEvent) : Except String NuvioEvent := do
  let type ← NuvioEventType.fromNative event.type
  return {
    type := type
    requestId := event.requestId
    droppedEvents := event.droppedEvents
    message := if event.message = "" then none else some event.message }

/-- What a `CompletableDeferred` is completed with. -/
inductive Completion where
  | event (event : NuvioEvent)
  | exception (message : String)
  deriving DecidableEq, Repr

structure PendingCommand where
  expectedType : NuvioEventType
  completion : Option Completion := none
  deriving DecidableEq, Repr

/-- Where a call of `failPending` stands; `due` are the commands that the iteration has yet to visit. -/
inductive Sweep where
  | starting
  | visiting (due : List Nat)
  | clearing
  deriving DecidableEq, Repr

/-- Where the event loop stands. -/
inductive EventLoop where
  | polling
  | processing (event : NativeEvent)
  | dropping (event : NuvioEvent) (error : String) (sweep : Sweep)
  | finding (event : NuvioEvent)
  | completing (event : NuvioEvent) (command : Nat)
  | caught (error : String)
  | failing (error : String) (sweep : Sweep)
  | ended
  deriving DecidableEq, Repr

/-- Where the `close` that takes the handle stands. -/
inductive Closer where
  | idle
  | cancelled
  | closing (sweep : Sweep)
  | destroying
  | closed
  deriving DecidableEq, Repr

/-- The request identifiers and numbers of the registered commands are `pendingCommands`; `stranded`
lists the commands that were removed by a sweep without being completed. -/
structure Engine where
  nativeHandle : Int
  pollFailure : Option String := none
  scopeActive : Bool := true
  lastDroppedEvents : Int := 0
  pendingCommands : List (Int × Nat) := []
  created : Nat := 0
  command : Nat → PendingCommand := fun _ => { expectedType := .torrentAdded }
  eventLoop : EventLoop := .polling
  closer : Closer := .idle
  stranded : List Nat := []

structure NativeCommandResult where
  status : Int
  requestId : Int
  deriving DecidableEq, Repr

inductive Poll where
  | event (event : NativeEvent)
  | nothing
  | throws (error : String)
  deriving DecidableEq, Repr

/-- The step of a thread. A command that is registered during an iteration is visited by it only when
it comes to lie `ahead` of it. A caller leaves when its command is completed or it is cancelled. -/
inductive EngineAction where
  | awaitCommand (expectedType : NuvioEventType) (result : NativeCommandResult) (ahead : Bool)
  | leave (requestId : Int) (command : Nat)
  | eventLoop (poll : Poll) (visit : Option Nat)
  | close (visit : Option Nat)
  deriving DecidableEq, Repr

def Sweep.insert (command : Nat) : Sweep → Sweep
  | visiting due => visiting (command :: due)
  | starting => starting
  | clearing => clearing

namespace Engine

def isCompleted (engine : Engine) (command : Nat) : Bool :=
  (engine.command command).completion.isSome

/-- `complete` and `completeExceptionally` do nothing to a completed command. -/
def complete (engine : Engine) (command : Nat) (completion : Completion) : Engine :=
  if engine.isCompleted command then engine
  else
    { engine with
      command := Function.update engine.command command
        { engine.command command with completion := some completion } }

def ensureOpen (engine : Engine) : Except String Unit :=
  if engine.nativeHandle = 0 then .error "NuvioEngine is closed"
  else if engine.pollFailure.isSome then .error "NuvioEngine event polling failed"
  else .ok ()

/-- An iteration that is under way finds the new command when it lies ahead. -/
def meet (command : Nat) (ahead : Bool) : EventLoop → EventLoop
  | .dropping event error sweep =>
      .dropping event error (if ahead then sweep.insert command else sweep)
  | loop => loop

/-- `awaitCommand` gets past its checks. -/
def accepts (engine : Engine) (result : NativeCommandResult) : Bool :=
  engine.ensureOpen.isOk && result.status = 0 && result.requestId ≠ 0 &&
    !engine.pendingCommands.any fun entry => entry.1 = result.requestId

/-- The section of `awaitCommand` under the lock, with the result of `submit`. -/
def awaitCommand (engine : Engine) (expectedType : NuvioEventType) (result : NativeCommandResult)
    (ahead : Bool) : Engine :=
  if engine.accepts result then
    { engine with
      pendingCommands := engine.pendingCommands ++ [(result.requestId, engine.created)]
      created := engine.created + 1
      command := Function.update engine.command engine.created { expectedType := expectedType }
      eventLoop := meet engine.created ahead engine.eventLoop }
  else engine

/-- `pendingCommands.remove(requestId, pending)`. -/
def leave (engine : Engine) (requestId : Int) (command : Nat) : Engine :=
  { engine with
    pendingCommands := engine.pendingCommands.filter fun entry => entry ≠ (requestId, command) }

/-- One step of `failPending`; without a visit the iteration ends. -/
def failPending (engine : Engine) (error : String) (visit : Option Nat) :
    Sweep → Engine × Option Sweep
  | .starting => (engine, some (.visiting (engine.pendingCommands.map Prod.snd)))
  | .visiting due =>
      match visit with
      | some command =>
          (engine.complete command (.exception error),
            some (.visiting (due.filter fun other => other ≠ command)))
      | none => (engine, some .clearing)
  | .clearing =>
      ({ engine with
        pendingCommands := []
        stranded := engine.stranded ++
          (engine.pendingCommands.map Prod.snd).filter fun command => !engine.isCompleted command },
        none)

def droppedMessage (count : Int) : String :=
  s!"native event queue dropped {count} event(s); resynchronize state"

/-- What `processEvent` completes the command of an event with. -/
def completionFor (event : NuvioEvent) (expectedType : NuvioEventType) : Option Completion :=
  if event.type = .torrentError then
    some (.exception (event.message.getD "torrent operation failed"))
  else if event.type = expectedType then some (.event event)
  else none

def eventLoopStep (engine : Engine) (poll : Poll) (visit : Option Nat) : Engine :=
  match engine.eventLoop with
  | .polling =>
      match poll with
      | .event event => { engine with eventLoop := .processing event }
      | .nothing => { engine with eventLoop := if engine.scopeActive then .polling else .ended }
      | .throws error => { engine with eventLoop := .caught error }
  | .processing native =>
      match native.toPublicEvent with
      | .error error => { engine with eventLoop := .caught error }
      | .ok event =>
          if event.droppedEvents > engine.lastDroppedEvents then
            { engine with
              lastDroppedEvents := event.droppedEvents
              eventLoop := .dropping event
                (droppedMessage (event.droppedEvents - engine.lastDroppedEvents)) .starting }
          else { engine with eventLoop := .finding event }
  | .dropping event error sweep =>
      match engine.failPending error visit sweep with
      | (next, some later) => { next with eventLoop := .dropping event error later }
      | (next, none) => { next with eventLoop := .finding event }
  | .finding event =>
      if event.requestId = 0 then { engine with eventLoop := .polling }
      else
        match engine.pendingCommands.find? fun entry => entry.1 = event.requestId with
        | none => { engine with eventLoop := .polling }
        | some entry => { engine with eventLoop := .completing event entry.2 }
  | .completing event command =>
      match completionFor event (engine.command command).expectedType with
      | none => { engine with eventLoop := .polling }
      | some completion => { engine.complete command completion with eventLoop := .polling }
  | .caught error =>
      { engine with pollFailure := some error, eventLoop := .failing error .starting }
  | .failing error sweep =>
      match engine.failPending error visit sweep with
      | (next, some later) => { next with eventLoop := .failing error later }
      | (next, none) => { next with eventLoop := .ended }
  | .ended => engine

def closeStep (engine : Engine) (visit : Option Nat) : Engine :=
  match engine.closer with
  | .idle => { engine with scopeActive := false, closer := .cancelled }
  | .cancelled =>
      if engine.nativeHandle = 0 then { engine with closer := .closed }
      else { engine with nativeHandle := 0, closer := .closing .starting }
  | .closing sweep =>
      match engine.failPending "NuvioEngine is closed" visit sweep with
      | (next, some later) => { next with closer := .closing later }
      | (next, none) => { next with closer := .destroying }
  | .destroying => { engine with closer := .closed }
  | .closed => engine

def perform (engine : Engine) : EngineAction → Engine
  | .awaitCommand expectedType result ahead => engine.awaitCommand expectedType result ahead
  | .leave requestId command => engine.leave requestId command
  | .eventLoop poll visit => engine.eventLoopStep poll visit
  | .close visit => engine.closeStep visit

/-- An iteration visits what is due, and ends when nothing of it is registered any more. -/
def CanVisit (engine : Engine) (visit : Option Nat) : Sweep → Prop
  | .visiting due =>
      match visit with
      | some command => command ∈ due
      | none => ∀ command ∈ due, command ∉ engine.pendingCommands.map Prod.snd
  | .starting | .clearing => True

/-- The event loop polls events only while there is a handle. -/
def CanPoll (engine : Engine) : Poll → Prop
  | .event _ => engine.nativeHandle ≠ 0
  | .nothing | .throws _ => True

def LoopCan (engine : Engine) (poll : Poll) (visit : Option Nat) : EventLoop → Prop
  | .polling => engine.CanPoll poll
  | .dropping _ _ sweep | .failing _ sweep => engine.CanVisit visit sweep
  | .processing _ | .finding _ | .completing _ _ | .caught _ | .ended => True

def CloserCan (engine : Engine) (visit : Option Nat) : Closer → Prop
  | .closing sweep => engine.CanVisit visit sweep
  | .idle | .cancelled | .destroying | .closed => True

def Possible (engine : Engine) : EngineAction → Prop
  | .awaitCommand _ _ _ | .leave _ _ => True
  | .eventLoop poll visit => engine.LoopCan poll visit engine.eventLoop
  | .close visit => engine.CloserCan visit engine.closer

instance (engine : Engine) (visit : Option Nat) : DecidablePred (engine.CanVisit visit)
  | .visiting due =>
      match visit with
      | some command => inferInstanceAs (Decidable (command ∈ due))
      | none => inferInstanceAs
          (Decidable (∀ command ∈ due, command ∉ engine.pendingCommands.map Prod.snd))
  | .starting | .clearing => instDecidableTrue

instance (engine : Engine) : DecidablePred engine.CanPoll
  | .event _ => inferInstanceAs (Decidable (engine.nativeHandle ≠ 0))
  | .nothing | .throws _ => instDecidableTrue

instance (engine : Engine) (poll : Poll) (visit : Option Nat) :
    DecidablePred (engine.LoopCan poll visit)
  | .polling => inferInstanceAs (Decidable (engine.CanPoll poll))
  | .dropping _ _ sweep | .failing _ sweep =>
      inferInstanceAs (Decidable (engine.CanVisit visit sweep))
  | .processing _ | .finding _ | .completing _ _ | .caught _ | .ended => instDecidableTrue

instance (engine : Engine) (visit : Option Nat) : DecidablePred (engine.CloserCan visit)
  | .closing sweep => inferInstanceAs (Decidable (engine.CanVisit visit sweep))
  | .idle | .cancelled | .destroying | .closed => instDecidableTrue

instance (engine : Engine) : DecidablePred engine.Possible
  | .awaitCommand _ _ _ | .leave _ _ => instDecidableTrue
  | .eventLoop poll visit =>
      inferInstanceAs (Decidable (engine.LoopCan poll visit engine.eventLoop))
  | .close visit => inferInstanceAs (Decidable (engine.CloserCan visit engine.closer))

def Initial (engine : Engine) : Prop := ∃ handle, engine = { nativeHandle := handle }

def Reachable : Engine → Prop := Transition.Reachable Initial Possible perform

/-- The iteration of a sweep after dropped events would not find a new command: it is past the
place where the command comes to lie, or at its end. -/
def Behind (ahead : Bool) : EventLoop → Prop
  | .dropping _ _ (.visiting _) => ahead = false
  | .dropping _ _ .clearing => True
  | .dropping _ _ .starting | .polling | .processing _ | .finding _ | .completing _ _ | .caught _
  | .failing _ _ | .ended => False

/-- No command is registered behind the iteration of a sweep after dropped events. -/
def Calm (engine : Engine) : EngineAction → Prop
  | .awaitCommand _ result ahead => engine.accepts result = true → ¬ Behind ahead engine.eventLoop
  | .leave _ _ | .eventLoop _ _ | .close _ => True

instance (ahead : Bool) : DecidablePred (Behind ahead)
  | .dropping _ _ (.visiting _) => inferInstanceAs (Decidable (ahead = false))
  | .dropping _ _ .clearing => instDecidableTrue
  | .dropping _ _ .starting | .polling | .processing _ | .finding _ | .completing _ _ | .caught _
  | .failing _ _ | .ended => instDecidableFalse

instance (engine : Engine) : DecidablePred engine.Calm
  | .awaitCommand _ _ _ => inferInstanceAs (Decidable (_ → _))
  | .leave _ _ | .eventLoop _ _ | .close _ => instDecidableTrue

/-- The event loop has set `pollFailure` and finished its sweep, or `close` has finished. -/
def Finished (engine : Engine) : Prop :=
  engine.pollFailure.isSome ∧ engine.eventLoop = .ended ∨ engine.closer = .closed

/-- No command was removed without being completed, except by its own caller, and none is left
uncompleted behind the last sweep. -/
def Kept (engine : Engine) : Prop :=
  engine.stranded = [] ∧
    (engine.Finished → ∀ entry ∈ engine.pendingCommands, engine.isCompleted entry.2 = true)

end Engine

end NuvioEngine.Jvm
