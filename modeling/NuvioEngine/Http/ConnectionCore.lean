import NuvioEngine.Http.ReceiveCore
import NuvioEngine.Http.ResponseCore
import NuvioEngine.Lib.Transition

/-!
One connection as `handle_connection` in `loopback_server.cpp` serves it: the worker, the thread of the
disconnect monitor, the client, and the socket they share. What the kernel answers to a call is part of
the action.
-/

namespace NuvioEngine.Http

/-- What a handler does next. -/
inductive HandlerStep (σ : Type) where
  | write (data : Bytes) (resume : Bool → σ)
  | askStop (resume : Bool → σ)
  | proceed (next : σ)
  | returned
  | threw

/-- A request handler, with what the rest of the program tells it between two of its calls. -/
structure Handler (σ ι : Type) where
  start : HttpRequest → σ
  next : σ → ι → HandlerStep σ

/-- Where the worker stands. The three sending phases are inside `send_all`: `refusing` for a head that
is no request, `writing` for the writer of the handler and `failing` for a handler that wrote nothing. -/
inductive Phase (σ : Type) where
  | receiving (received : Bytes)
  | refusing (rest : Bytes)
  | handling (state : σ)
  | writing (rest : Bytes) (resume : Bool → σ)
  | failing (rest : Bytes)
  | finished

namespace Phase

variable {σ : Type}

def isReceiving : Phase σ → Bool
  | receiving _ => true
  | _ => false

def isHandling : Phase σ → Bool
  | handling _ => true
  | _ => false

/-- What `send_all` has left to send. -/
def sending : Phase σ → Option Bytes
  | refusing rest | writing rest _ | failing rest => some rest
  | receiving _ | handling _ | finished => none

end Phase

structure Connection (σ : Type) where
  incoming : Bytes := []
  outgoing : Bytes := []
  closed : Bool := false
  failed : Bool := false
  serverStop : Bool := false
  phase : Phase σ := .receiving []
  monitoring : Bool := false
  requestStop : Bool := false
  wroteResponse : Bool := false

/-- The outcome of a call of `send`. -/
inductive Sent where
  | interrupted
  | failed
  | written (count : Nat)
  deriving DecidableEq, Repr

/-- One turn of the monitor: what `poll` reports, and for readable input whether `recv` answers. -/
inductive Watch where
  | interrupted
  | failed
  | terminal
  | hangup
  | idle
  | readable (answered : Bool)
  deriving DecidableEq, Repr

inductive ConnectionAction (ι : Type) where
  | arrive (more : Bytes)
  | disconnect
  | fail
  | stopServer
  | receive (call : Recv)
  | send (answer : Sent)
  | handle (input : ι)
  | watch (answer : Watch)

/-- One turn of the loop of `receive_request_head`: what has been received, or the result. -/
def receiveTurn (received : Bytes) : Recv → Except ReceivedHead Bytes
  | .interrupted => .ok received
  | .stopped | .failed | .closed => .error ⟨none, false⟩
  | .chunk more =>
      let received := received ++ more
      match find received (crlf ++ crlf) 0 with
      | some ending =>
          let headSize := ending + 4
          if headSize > maximumRequestHeadSize then .error ⟨none, true⟩
          else .error ⟨some (received.take headSize), false⟩
      | none =>
          if received.length ≥ maximumRequestHeadSize then .error ⟨none, true⟩ else .ok received

/-- One turn of the loop of `send_all`: the bytes that were sent, or its result. -/
def sendTurn (rest : Bytes) (stopped : Bool) (answer : Sent) : Except Bool Nat :=
  if rest.isEmpty then .error true
  else if stopped then .error false
  else
    match answer with
    | .interrupted => .ok 0
    | .failed => .error false
    | .written count => if count = 0 then .error false else .ok count

def refusal : RequestParseStatus → ResponseStatus
  | .methodNotAllowed => .methodNotAllowed
  | .headerTooLarge => .requestHeaderFieldsTooLarge
  | .ok | .malformed => .badRequest

namespace Connection

variable {σ ι : Type}

/-- The client is gone, the socket has failed or the server is stopping. -/
def Gone (connection : Connection σ) : Prop :=
  connection.closed = true ∨ connection.failed = true ∨ connection.serverStop = true

instance (connection : Connection σ) : Decidable connection.Gone :=
  inferInstanceAs (Decidable (_ ∨ _))

def finish (connection : Connection σ) : Connection σ :=
  { connection with phase := .finished, monitoring := false }

/-- What `handle_connection` does with a head. A worker that is stopping already has its request stopped
by the stop callback at once. -/
def headReceived (handler : Handler σ ι) (connection : Connection σ) (result : ReceivedHead) :
    Connection σ :=
  match result.head with
  | none =>
      if result.exceededLimit then
        { connection with phase := .refusing (buildErrorResponse .requestHeaderFieldsTooLarge 0) }
      else connection.finish
  | some head =>
      let parsed := parseHttpRequestHead head
      match parsed.status, parsed.request with
      | .ok, some request =>
          { connection with
            phase := .handling (handler.start request)
            monitoring := true
            requestStop := connection.serverStop }
      | status, _ => { connection with phase := .refusing (buildErrorResponse (refusal status) 0) }

def receive (handler : Handler σ ι) (connection : Connection σ) (call : Recv) : Connection σ :=
  match connection.phase with
  | .receiving received =>
      let taken : Bytes := match call with
        | .chunk more => more
        | _ => []
      let read := { connection with incoming := connection.incoming.drop taken.length }
      match receiveTurn received call with
      | .ok received => { read with phase := .receiving received }
      | .error result => read.headReceived handler result
  | _ => connection

def sendMore (connection : Connection σ) (rest : Bytes) (stopped : Bool) (answer : Sent)
    (more : Bytes → Phase σ) (done : Bool → Connection σ) : Connection σ :=
  match sendTurn rest stopped answer with
  | .ok count =>
      { connection with
        outgoing := connection.outgoing ++ rest.take count
        phase := more (rest.drop count) }
  | .error sent => done sent

def send (connection : Connection σ) (answer : Sent) : Connection σ :=
  match connection.phase with
  | .refusing rest =>
      connection.sendMore rest connection.serverStop answer .refusing fun _ => connection.finish
  | .writing rest resume =>
      connection.sendMore rest connection.requestStop answer (fun left => .writing left resume)
        fun sent => { connection with phase := .handling (resume sent) }
  | .failing rest =>
      connection.sendMore rest connection.requestStop answer .failing fun _ => connection.finish
  | .receiving _ | .handling _ | .finished => connection

/-- A handler that is done without having written leaves an error response, unless it was stopped. -/
def handlerDone (connection : Connection σ) : Connection σ :=
  if !connection.wroteResponse && !connection.requestStop then
    { connection with phase := .failing (buildErrorResponse .internalServerError 0) }
  else connection.finish

def handle (handler : Handler σ ι) (connection : Connection σ) (input : ι) : Connection σ :=
  match connection.phase with
  | .handling state =>
      match handler.next state input with
      | .write data resume =>
          { connection with
            phase := .writing data resume
            wroteResponse := connection.wroteResponse || !data.isEmpty }
      | .askStop resume => { connection with phase := .handling (resume connection.requestStop) }
      | .proceed next => { connection with phase := .handling next }
      | .returned | .threw => connection.handlerDone
  | _ => connection

/-- One turn of `monitor_client_disconnect`; when it has stopped the request it returns. -/
def watch (connection : Connection σ) : Watch → Connection σ
  | .interrupted | .idle | .readable false => connection
  | .failed | .terminal | .hangup | .readable true =>
      { connection with requestStop := true, monitoring := false }

/-- `stop` requests the stop of the worker, whose callback stops the request, and shuts the socket down. -/
def stopServer (connection : Connection σ) : Connection σ :=
  { connection with
    serverStop := true
    requestStop := match connection.phase with
      | .handling _ | .writing _ _ | .failing _ => true
      | .receiving _ | .refusing _ | .finished => connection.requestStop }

def perform (handler : Handler σ ι) (connection : Connection σ) : ConnectionAction ι → Connection σ
  | .arrive more => { connection with incoming := connection.incoming ++ more }
  | .disconnect => { connection with closed := true }
  | .fail => { connection with failed := true }
  | .stopServer => connection.stopServer
  | .receive call => connection.receive handler call
  | .send answer => connection.send answer
  | .handle input => connection.handle handler input
  | .watch answer => connection.watch answer

def receiveBufferSize : Nat := 4096

def maximumSend : Nat := 2 ^ 31 - 1

/-- What the kernel can answer to `recv`. -/
def Receives (connection : Connection σ) : Recv → Prop
  | .stopped => connection.serverStop = true
  | .interrupted | .failed => True
  | .closed => connection.Gone
  | .chunk more => more ≠ [] ∧ more.length ≤ receiveBufferSize ∧ more <+: connection.incoming

instance (connection : Connection σ) : DecidablePred connection.Receives
  | .stopped => instDecidableEqBool _ _
  | .interrupted | .failed => instDecidableTrue
  | .closed => inferInstanceAs (Decidable connection.Gone)
  | .chunk _ => instDecidableAnd

/-- What `poll` can report and whether `recv` can answer. -/
def Watches (connection : Connection σ) : Watch → Prop
  | .interrupted | .idle | .readable false => True
  | .failed => connection.failed = true
  | .terminal => connection.failed = true ∨ connection.serverStop = true
  | .hangup => connection.closed = true ∨ connection.serverStop = true
  | .readable true => connection.incoming ≠ [] ∨ connection.Gone

instance (connection : Connection σ) : DecidablePred connection.Watches
  | .interrupted | .idle | .readable false => instDecidableTrue
  | .failed => instDecidableEqBool _ _
  | .terminal | .hangup | .readable true => instDecidableOr

def Sends (rest : Bytes) : Sent → Prop
  | .interrupted | .failed => True
  | .written count => count ≤ min rest.length maximumSend

instance (rest : Bytes) : DecidablePred (Sends rest)
  | .interrupted | .failed => instDecidableTrue
  | .written _ => Nat.decLe _ _

/-- The actions that can come next: bytes come from a client that is there, and a thread takes the step
its place in the code allows. -/
def Possible (connection : Connection σ) : ConnectionAction ι → Prop
  | .arrive _ => connection.closed = false
  | .disconnect | .fail | .stopServer => True
  | .receive call => connection.phase.isReceiving = true ∧ connection.Receives call
  | .send answer => ∃ rest ∈ connection.phase.sending, Sends rest answer
  | .handle _ => connection.phase.isHandling = true
  | .watch answer => connection.monitoring = true ∧ connection.Watches answer

instance (connection : Connection σ) :
    DecidablePred fun action : ConnectionAction ι => connection.Possible action
  | .arrive _ => instDecidableEqBool _ _
  | .disconnect | .fail | .stopServer => instDecidableTrue
  | .receive _ => instDecidableAnd
  | .send _ => inferInstanceAs (Decidable (∃ rest ∈ connection.phase.sending, _))
  | .handle _ => instDecidableEqBool _ _
  | .watch _ => instDecidableAnd

end Connection

/-- The bytes the client sends. -/
def ConnectionAction.arrival {ι : Type} : ConnectionAction ι → Bytes
  | .arrive more => more
  | _ => []

def arrivals {ι : Type} (actions : List (ConnectionAction ι)) : Bytes :=
  actions.flatMap ConnectionAction.arrival

def ConnectionAction.map {ι κ : Type} (tell : ι → κ) : ConnectionAction ι → ConnectionAction κ
  | .arrive more => .arrive more
  | .disconnect => .disconnect
  | .fail => .fail
  | .stopServer => .stopServer
  | .receive call => .receive call
  | .send answer => .send answer
  | .handle input => .handle (tell input)
  | .watch answer => .watch answer

/-- The handler is running. -/
def Phase.isRunning {σ : Type} : Phase σ → Bool
  | .handling _ | .writing .. => true
  | .receiving _ | .refusing _ | .failing _ | .finished => false

end NuvioEngine.Http
