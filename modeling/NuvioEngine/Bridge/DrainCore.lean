import NuvioEngine.Bridge.ReadersCore

/-!
The bridge with its HTTP handlers, from the `begin_demand` command to the `end_demand` command of the
`DemandGuard`. A handler whose begin command is refused by a full queue never runs. It serves one
piece at a time: `serve_piece` returns when its waiter is done, or marks the waiter as cancelled.
-/

namespace NuvioEngine.Bridge

open NuvioEngine.Scheduler NuvioEngine.Stream NuvioEngine.Cache BridgeState

/-- A handler that is running, and the waiter of the `serve_piece` it is in. -/
structure Handler where
  request : StreamRequest
  waiter : Option Nat := none
  deriving DecidableEq, Repr

/-- `handlers` has the running handlers by the ids of their demands, and `processed` the commands that
were taken from the queue so far. -/
structure Server where
  system : System
  handlers : HashMap Nat Handler := ∅
  nextWaiter : Nat := 0
  processed : List HttpCommand := []

inductive ServerAction where
  | accept (route : StreamRoute) (bodyRange : ByteRange)
  | serve (demandId position : Nat)
  | settle (demandId : Nat)
  | abandon (demandId : Nat)
  | leave (demandId : Nat)
  | work (action : Action)

namespace Server

def bridge (server : Server) : BridgeState := server.system.bridge

def setWaiter (server : Server) (demandId : Nat) (handler : Handler) (waiter : Option Nat) : Server :=
  { server with handlers := server.handlers.insert demandId { handler with waiter := waiter } }

/-- `handle_http` up to the `begin_demand` command; the handler goes on if the command is queued. -/
def accept (server : Server) (route : StreamRoute) (bodyRange : ByteRange) : Server :=
  let begun := server.system.perform (.beginRequest route bodyRange)
  { server with
    system := begun
    handlers :=
      if server.bridge.commands.length < begun.bridge.commands.length then
        server.handlers.insert server.bridge.nextDemandId { request := ⟨route, bodyRange⟩ }
      else server.handlers }

/-- `serve_piece` up to its wait; it returns at once if the command is refused. -/
def serve (server : Server) (demandId position : Nat) (handler : Handler) : Server :=
  match handler.request.command demandId position server.nextWaiter with
  | none => server
  | some command =>
      let read := server.system.perform (.readRequest command)
      let asked := { server with system := read, nextWaiter := server.nextWaiter + 1 }
      if server.bridge.commands.length < read.bridge.commands.length then
        asked.setWaiter demandId handler (some server.nextWaiter)
      else asked

def perform (server : Server) : ServerAction → Server
  | .accept route bodyRange => server.accept route bodyRange
  | .serve demandId position =>
      match server.handlers.lookup demandId with
      | none => server
      | some handler => server.serve demandId position handler
  | .settle demandId =>
      match server.handlers.lookup demandId with
      | none => server
      | some handler => server.setWaiter demandId handler none
  | .abandon demandId =>
      match server.handlers.lookup demandId with
      | some ⟨request, some waiter⟩ =>
          { server with system := server.system.perform (.abandonWaiter waiter) }.setWaiter demandId
            ⟨request, some waiter⟩ none
      | _ => server
  | .leave demandId =>
      { server with
        system := server.system.perform (.endRequest demandId)
        handlers := server.handlers.erase demandId }
  | .work action =>
      { server with
        system := server.system.perform action
        processed := match action with
          | .poll _ => server.processed ++ server.bridge.commands
          | _ => server.processed }

/-- What is not a handler's to do. -/
def isWork : Action → Bool
  | .beginRequest .. | .readRequest .. | .endRequest .. | .abandonWaiter .. => false
  | .register .. | .stop .. | .remove .. | .poll .. | .popExpired | .readPieceAlert ..
  | .blockFinished .. | .hashFailed .. | .acquireRequest .. | .releaseRequest .. => true

/-- A handler that is in no `serve_piece` may enter the next one or be over, and `serve_piece` settles
when its waiter is done. -/
def Possible (server : Server) : ServerAction → Prop
  | .accept route bodyRange => server.system.Possible (.beginRequest route bodyRange)
  | .serve demandId _ | .leave demandId =>
      (server.handlers.lookup demandId).map Handler.waiter = some none
  | .settle demandId => (((server.handlers.lookup demandId).bind Handler.waiter).any fun waiter =>
      (server.bridge.waiters waiter).done) = true
  | .abandon _ => True
  | .work action => isWork action = true ∧ server.system.Possible action

instance (server : Server) : DecidablePred server.Possible
  | .accept route bodyRange =>
      inferInstanceAs (Decidable (server.system.Possible (.beginRequest route bodyRange)))
  | .serve .. | .leave _ => inferInstanceAs (Decidable (_ = _))
  | .settle _ => inferInstanceAs (Decidable (_ = true))
  | .abandon _ => instDecidableTrue
  | .work action => inferInstanceAs (Decidable (isWork action = true ∧ server.system.Possible action))

def Initial (server : Server) : Prop := ∃ system : System, system.Initial ∧ server = { system := system }

def Reachable : Server → Prop := Transition.Reachable Initial Possible perform

/-- The commands that were queued so far. -/
def trace (server : Server) : List HttpCommand := server.processed ++ server.bridge.commands

end Server

def Begins (demandId : Nat) (command : HttpCommand) : Prop :=
  command.type = .beginDemand ∧ command.demandId = demandId

def Ends (demandId : Nat) (command : HttpCommand) : Prop :=
  command.type = .endDemand ∧ command.demandId = demandId

end NuvioEngine.Bridge
