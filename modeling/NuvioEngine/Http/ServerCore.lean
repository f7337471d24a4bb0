import NuvioEngine.Lib.Transition
import Mathlib.Data.Finset.Basic
import Mathlib.Algebra.Ring.Nat
import Mathlib.Logic.Function.Basic

/-!
The threads of `LoopbackServer` in `loopback_server.cpp`: the accept loop, the worker loops and `stop`.
A section under `queue_mutex` and an atomic operation are one step each. Client sockets are numbered in
the order in which they are accepted.
-/

namespace NuvioEngine.Http

/-- Where the accept loop stands. In `configuring` the client is in an `OwnedSocket`, from `locking` on
in a `SharedSocket`; `dropping` is the destructor of a connection that was not queued. -/
inductive Accepter where
  | checking
  | loading
  | accepting
  | failed
  | configuring (socket : Nat)
  | locking (socket : Nat)
  | dropping (socket : Nat)
  | returned
  deriving DecidableEq, Repr

/-- Where a worker loop stands; `closing` is the call of `close` after the handler, `erasing` the section
behind it. -/
inductive Worker where
  | checking
  | waiting
  | handling (socket : Nat)
  | closing (socket : Nat)
  | erasing (socket : Nat)
  | returned
  deriving DecidableEq, Repr

/-- Where `stop` stands. -/
inductive Stopper where
  | idle
  | requestingAccepter
  | requestingWorkers (index : Nat)
  | closingListener
  | draining
  | joiningAccepter
  | joiningWorkers (index : Nat)
  | returned
  deriving DecidableEq, Repr

structure Server where
  capacity : Nat
  workerCount : Nat
  accepted : Nat := 0
  shared : Nat → Bool := fun _ => false
  shut : Nat → Bool := fun _ => false
  closes : Nat → Nat := fun _ => 0
  listening : Bool := true
  stopping : Bool := false
  accepterToken : Bool := false
  workerToken : Nat → Bool := fun _ => false
  queue : List Nat := []
  active : Finset Nat := ∅
  accepter : Accepter := .checking
  worker : Nat → Worker := fun _ => .checking
  stopper : Stopper := .idle
  served : List Nat := []

/-- The step of a thread; the accept loop is told whether `accept` or `configure_client_socket`
succeeds. -/
inductive ServerAction where
  | accepter (succeeds : Bool)
  | worker (index : Nat)
  | stop
  deriving DecidableEq, Repr

namespace Server

/-- `close_socket` on a client that was accepted. -/
def closeSocket (server : Server) (socket : Nat) : Server :=
  { server with
    shut := Function.update server.shut socket true
    closes := Function.update server.closes socket (server.closes socket + 1) }

/-- `SharedSocket::close`, and the destructor: the descriptor is exchanged for the invalid one, and only
a valid one is closed. -/
def closeShared (server : Server) (socket : Nat) : Server :=
  if server.shared socket then
    { server.closeSocket socket with shared := Function.update server.shared socket false }
  else server

def acceptLoop (server : Server) (succeeds : Bool) : Server :=
  match server.accepter with
  | .checking =>
      { server with accepter := if server.accepterToken || server.stopping then .returned else .loading }
  | .loading => { server with accepter := if server.listening then .accepting else .returned }
  | .accepting =>
      if succeeds then
        { server with accepter := .configuring server.accepted, accepted := server.accepted + 1 }
      else { server with accepter := .failed }
  | .failed => { server with accepter := if server.stopping then .returned else .checking }
  | .configuring socket =>
      if succeeds then
        { server with
          shared := Function.update server.shared socket true
          accepter := .locking socket }
      else { server.closeSocket socket with accepter := .checking }
  | .locking socket =>
      if server.stopping || server.queue.length ≥ server.capacity then
        { server with accepter := .dropping socket }
      else { server with queue := server.queue ++ [socket], accepter := .checking }
  | .dropping socket => { server.closeShared socket with accepter := .checking }
  | .returned => server

def setWorker (server : Server) (index : Nat) (worker : Worker) : Server :=
  { server with worker := Function.update server.worker index worker }

/-- A worker that finds the queue empty waits on; it may look again at any time. A handler that throws
is done like one that returns. -/
def workerLoop (server : Server) (index : Nat) : Server :=
  match server.worker index with
  | .checking => server.setWorker index (if server.workerToken index then .returned else .waiting)
  | .waiting =>
      if server.workerToken index || server.stopping then server.setWorker index .returned
      else
        match server.queue with
        | [] => server
        | socket :: rest =>
            { server with
              queue := rest
              active := insert socket server.active
              served := server.served ++ [socket] }.setWorker index (.handling socket)
  | .handling socket => server.setWorker index (.closing socket)
  | .closing socket => (server.closeShared socket).setWorker index (.erasing socket)
  | .erasing socket =>
      ({ server with active := server.active.erase socket }.closeShared socket).setWorker index .checking
  | .returned => server

/-- The section of `stop` that closes the queued connections and shuts the active ones down. -/
def drain (server : Server) : Server :=
  let closed := server.queue.foldl closeShared server
  { closed with
    shut := fun socket => closed.shut socket || (socket ∈ closed.active && closed.shared socket)
    queue := [] }

def stop (server : Server) : Server :=
  match server.stopper with
  | .idle =>
      if server.stopping then { server with stopper := .returned }
      else { server with stopping := true, stopper := .requestingAccepter }
  | .requestingAccepter => { server with accepterToken := true, stopper := .requestingWorkers 0 }
  | .requestingWorkers index =>
      if index < server.workerCount then
        { server with
          workerToken := Function.update server.workerToken index true
          stopper := .requestingWorkers (index + 1) }
      else { server with stopper := .closingListener }
  | .closingListener => { server with listening := false, stopper := .draining }
  | .draining => { server.drain with stopper := .joiningAccepter }
  | .joiningAccepter =>
      if server.accepter = .returned then { server with stopper := .joiningWorkers 0 } else server
  | .joiningWorkers index =>
      if index < server.workerCount then
        if server.worker index = .returned then { server with stopper := .joiningWorkers (index + 1) }
        else server
      else { server with stopper := .returned }
  | .returned => server

def perform (server : Server) : ServerAction → Server
  | .accepter succeeds => server.acceptLoop succeeds
  | .worker index => server.workerLoop index
  | .stop => server.stop

/-- `accept` succeeds only while the server listens; there are as many workers as were started. -/
def Possible (server : Server) : ServerAction → Prop
  | .accepter succeeds => server.accepter = .accepting → succeeds = true → server.listening = true
  | .worker index => index < server.workerCount
  | .stop => True

instance (server : Server) : DecidablePred server.Possible
  | .accepter _ => inferInstanceAs (Decidable (_ → _ → _))
  | .worker _ => Nat.decLt _ _
  | .stop => instDecidableTrue

/-- A server whose threads have started; where a thread could not be started the accept loop is missing. -/
def Initial (server : Server) : Prop :=
  ∃ capacity workerCount accepter, (accepter = .checking ∨ accepter = .returned) ∧
    server = { capacity := capacity, workerCount := workerCount, accepter := accepter }

def Reachable : Server → Prop := Transition.Reachable Initial Possible perform

/-- Who can hold a client socket. -/
inductive Owner where
  | accepter
  | queue
  | worker (index : Nat)
  deriving DecidableEq, Repr

end Server

def Accepter.socket : Accepter → Option Nat
  | configuring socket | locking socket | dropping socket => some socket
  | checking | loading | accepting | failed | returned => none

def Worker.socket : Worker → Option Nat
  | handling socket | closing socket | erasing socket => some socket
  | checking | waiting | returned => none

/-- `stop` has emptied the queue. -/
def Stopper.drained : Stopper → Bool
  | joiningAccepter | joiningWorkers _ | returned => true
  | idle | requestingAccepter | requestingWorkers _ | closingListener | draining => false

namespace Server

def Owns (server : Server) (socket : Nat) : Owner → Prop
  | .accepter => server.accepter.socket = some socket
  | .queue => socket ∈ server.queue
  | .worker index => (server.worker index).socket = some socket

/-- An accepted socket that has not been closed. -/
def Open (server : Server) (socket : Nat) : Prop := socket < server.accepted ∧ server.closes socket = 0

end Server

end NuvioEngine.Http
