import NuvioEngine.Http.ConnectionCore
import NuvioEngine.Stream.ServeProgress

/-!
Executable embedding of `handle_http` in `libtorrent_stream_bridge.cpp` as the request handler of a
connection: it stops at each call of the writer and at each look at the stop token.
-/

namespace NuvioEngine.Stream

open Http Scheduler

/-- What the rest of the program tells the handler between two of its calls: the route table, the next
demand, whether `enqueue` accepts a command, the flag of the demand, and a turn of the wait loop. -/
structure Told where
  routes : List StreamRoute := []
  demandId : Nat := 0
  accepted : Bool := true
  demandCancelled : Bool := false
  round : Round := {}

/-- The arguments of `stream_body`. -/
structure Job where
  demandId : Nat
  route : StreamRoute
  range : ByteRange

namespace Job

variable (job : Job)

def absoluteStart : Nat := add64 job.route.fileOffset job.range.start

def absoluteEnd : Nat := add64 job.route.fileOffset job.range.last

def lastPiece : Nat := job.absoluteEnd / job.route.pieceSize

def slice (piece : Nat) : PieceSlice :=
  sliceAt job.route job.absoluteStart (add64 job.absoluteEnd 1) piece

end Job

/-- Where the thread stands: before the lookup of the route, before the demand is begun, at the start of
`stream_body`, at the head of its loop and behind the look at the token there, and the same two places
in the loop of `serve_piece`. -/
inductive Place where
  | looking (request : HttpRequest)
  | demanding (route : StreamRoute) (range : ByteRange) (headers : Bytes)
  | entering (job : Job)
  | pieces (job : Job) (piece : Nat) (payload : Option Bool) (log : StreamLog)
  | testing (job : Job) (piece : Nat) (payload : Option Bool) (log : StreamLog) (stopped : Bool)
  | waiting (job : Job) (piece : Nat) (state : ServeState)
  | turning (job : Job) (piece : Nat) (state : ServeState) (stopped : Bool)
  | returning

/-- The lookup of the route and `build_stream_response`. -/
def look (request : HttpRequest) (told : Told) : HandlerStep Place :=
  match told.routes.find? fun route => bytes route.target == request.target with
  | none => .write (buildErrorResponse .notFound 0) fun _ => .returning
  | some route =>
      let response := buildStreamResponse request route.fileSize (bytes route.contentType)
      match response.includeBody, response.bodyRange with
      | true, some range => .proceed (.demanding route range response.headers)
      | _, _ => .write response.headers fun _ => .returning

/-- `begin_demand`, and the head of the response if the command is accepted. -/
def beginDemand (route : StreamRoute) (range : ByteRange) (headers : Bytes) (told : Told) :
    HandlerStep Place :=
  match blockingDemandRange range range.start route.fileOffset route.pieceSize with
  | .error _ => .threw
  | .ok _ =>
      if !told.accepted then .write (buildErrorResponse .serviceUnavailable 0) fun _ => .returning
      else .write headers fun sent => if sent then .entering ⟨told.demandId, route, range⟩ else .returning

def enterBody (job : Job) : HandlerStep Place :=
  if job.range.last > uint64Max - job.route.fileOffset then .returned
  else if job.absoluteEnd = uint64Max then .returned
  else if job.lastPiece > uint32Max then .returned
  else .proceed (.pieces job (job.absoluteStart / job.route.pieceSize) none {})

/-- The body of the loop over the pieces up to the wait loop of `serve_piece`. -/
def demandPiece (job : Job) (piece : Nat) (payload : Option Bool) (log : StreamLog) (told : Told) :
    HandlerStep Place :=
  if max job.absoluteStart (mul64 piece job.route.pieceSize) < job.route.fileOffset then .returned
  else
    match blockingDemandRange job.range (positionAt job.route job.absoluteStart piece)
        job.route.fileOffset job.route.pieceSize with
    | .error _ => .threw
    | .ok demandRange =>
        if !told.accepted then .returned
        else
          let sent := { log with commands := log.commands ++ [(piece % 2 ^ 32, demandRange)] }
          .proceed (.waiting job piece (.initial job.demandId (job.slice piece) payload sent))

/-- Where a turn of the wait loop leaves the thread. -/
def afterTurn (job : Job) (piece : Nat) : ServeState × Option Bool → Place
  | (state, none) => .waiting job piece state
  | (state, some true) =>
      .pieces job (add64 piece 1) state.payload
        { state.log with served := state.log.served ++ [(piece % 2 ^ 32, true)] }
  | (_, some false) => .returning

def turn (job : Job) (piece : Nat) (state : ServeState) (round : Round) : HandlerStep Place :=
  let resume := fun accepts =>
    afterTurn job piece (serveRound job.route (job.slice piece) { round with writerAccepts := accepts } state)
  match offered job.route (job.slice piece) round state with
  | some chunk => .write (chunk.map Source.value) resume
  | none => .proceed (resume true)

/-- `handle_http`. A request is answered by one response of the writer, or by a head and the chunks that
the turns of the wait loop offer. -/
def handleHttp : Handler Place Told where
  start := .looking
  next
    | .looking request, told => look request told
    | .demanding route range headers, told => beginDemand route range headers told
    | .entering job, _ => enterBody job
    | .pieces job piece payload log, _ =>
        if piece ≤ job.lastPiece then .askStop (.testing job piece payload log) else .returned
    | .testing job piece payload log stopped, told =>
        if stopped || told.demandCancelled then .returned else demandPiece job piece payload log told
    | .waiting job piece state, _ =>
        if state.cursor < (job.slice piece).stop then .askStop (.turning job piece state)
        else .proceed (afterTurn job piece (state.abandon, some true))
    | .turning job piece state stopped, told =>
        turn job piece state { told.round with stopRequested := stopped }
    | .returning, _ => .returned

end NuvioEngine.Stream
