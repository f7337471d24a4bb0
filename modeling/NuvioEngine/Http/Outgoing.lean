import NuvioEngine.Http.Connection

/-!
What a connection sends, from what its handler does: a rule that carries a handler's own account of what
it has written over every run of the worker, the monitor, the client and the socket.
-/

namespace NuvioEngine.Http

/-- The head that a client has sent so far asks for this. -/
def Asked (arrived : Bytes) (request : HttpRequest) : Prop :=
  ∃ head, head <+: arrived ∧ EndsOnce head ∧ head.length ≤ maximumRequestHeadSize ∧
    parseHttpRequestHead head = ⟨.ok, some request⟩

theorem Asked.mono {arrived later : Bytes} {request : HttpRequest} (asked : Asked arrived request)
    (more : arrived <+: later) : Asked later request := by
  obtain ⟨head, start, once, short, parsed⟩ := asked
  exact ⟨head, start.trans more, once, short, parsed⟩

theorem receiveTurn_asked {received more head : Bytes} {result : ReceivedHead}
    (turned : receiveTurn received (.chunk more) = .error result) (whole : result.head = some head) :
    head <+: received ++ more ∧ EndsOnce head ∧ head.length ≤ maximumRequestHeadSize := by
  unfold receiveTurn at turned
  simp only [find_crlfcrlf] at turned
  cases found : Search.indexOf (crlf ++ crlf) (received ++ more) with
  | none =>
      simp only [found] at turned
      split at turned
      · obtain rfl := Except.error.inj turned
        simp at whole
      · simp at turned
  | some ending =>
      simp only [found] at turned
      split at turned
      · obtain rfl := Except.error.inj turned
        simp at whole
      · rename_i short
        obtain rfl := Except.error.inj turned
        obtain rfl := Option.some.inj whole
        refine ⟨List.take_prefix _ _, endsOnce_take found, ?_⟩
        rw [List.length_take]
        omega

/-- Nothing stops the request or cuts a write short. -/
def ConnectionAction.Steady {ι : Type} : ConnectionAction ι → Prop
  | .stopServer | .watch .failed | .watch .terminal | .watch .hangup | .watch (.readable true) => False
  | .send answer => answer ≠ .failed ∧ answer ≠ .written 0
  | .arrive _ | .disconnect | .fail | .receive _ | .handle _ | .watch .interrupted | .watch .idle
  | .watch (.readable false) => True

instance {ι : Type} : DecidablePred (ConnectionAction.Steady : ConnectionAction ι → Prop)
  | .stopServer | .watch .failed | .watch .terminal | .watch .hangup | .watch (.readable true) =>
      instDecidableFalse
  | .send _ => instDecidableAnd
  | .arrive _ | .disconnect | .fail | .receive _ | .handle _ | .watch .interrupted | .watch .idle
  | .watch (.readable false) => instDecidableTrue

def Phase.handled {σ : Type} : Phase σ → Option σ
  | .handling state => some state
  | .receiving _ | .refusing _ | .writing .. | .failing _ | .finished => none

def Phase.isFinished {σ : Type} : Phase σ → Bool
  | .finished => true
  | .receiving _ | .refusing _ | .handling _ | .writing .. | .failing _ => false

theorem Phase.eq_finished {σ : Type} {phase : Phase σ} (done : phase.isFinished = true) : phase = .finished := by
  cases phase <;> simp [isFinished] at done
  rfl

/-- A handler's own account of what it has had sent where it stands. A write is cut short, and a stop
is seen, only where there is trouble. -/
structure Handler.Accounts {σ ι : Type} (handler : Handler σ ι) (honest : σ → ι → Prop) (trouble : Prop)
    (request : HttpRequest) (sent : σ → Bytes → Prop) (ended : Bytes → Prop) : Prop where
  start : sent (handler.start request) []
  write : ∀ {state input out data resume}, sent state out → honest state input →
    handler.next state input = .write data resume →
    sent (resume true) (out ++ data) ∧ (trouble → ∀ part, part <+: data → sent (resume false) (out ++ part))
  askStop : ∀ {state input out resume}, sent state out → honest state input →
    handler.next state input = .askStop resume →
    sent (resume false) out ∧ (trouble → sent (resume true) out)
  proceed : ∀ {state input out next}, sent state out → honest state input →
    handler.next state input = .proceed next → sent next out
  done : ∀ {state input out}, sent state out → honest state input →
    handler.next state input = .returned ∨ handler.next state input = .threw → ended out

namespace Connection

variable {σ ι : Type} {handler : Handler σ ι} {honest : σ → ι → Prop} {trouble : Prop}
  {sent : HttpRequest → σ → Bytes → Prop} {ended : HttpRequest → Bytes → Prop}
  {arrived : Bytes} {connection : Connection σ}

/-- What the handler is told where it stands is true. -/
def Honest (honest : σ → ι → Prop) (connection : Connection σ) : ConnectionAction ι → Prop
  | .handle input => ∀ state ∈ connection.phase.handled, honest state input
  | .arrive _ | .disconnect | .fail | .stopServer | .receive _ | .send _ | .watch _ => True

/-- The errors that a connection answers without its handler. -/
def ownErrors : List ResponseStatus :=
  [.badRequest, .methodNotAllowed, .requestHeaderFieldsTooLarge, .internalServerError]

theorem internalServerError_own : ResponseStatus.internalServerError ∈ ownErrors := by
  simp [ownErrors]

theorem refusal_own (status : RequestParseStatus) : refusal status ∈ ownErrors := by
  cases status <;> simp [refusal, ownErrors]

/-- What has been sent, phase by phase: nothing before there is a head, one error response for a head
that is no request, and else what the handler has written. -/
def Sending (trouble : Prop) (sent : HttpRequest → σ → Bytes → Prop) (ended : HttpRequest → Bytes → Prop)
    (arrived : Bytes) (connection : Connection σ) : Prop :=
  match connection.phase with
  | .receiving received => received ++ connection.incoming = arrived ∧
      connection.wroteResponse = false ∧ connection.outgoing = []
  | .refusing rest => connection.wroteResponse = false ∧
      ∃ status ∈ ownErrors, connection.outgoing ++ rest = buildErrorResponse status 0
  | .handling state => ∃ request, Asked arrived request ∧ sent request state connection.outgoing ∧
      (connection.wroteResponse = false → connection.outgoing = [])
  | .writing rest resume => ∃ request, Asked arrived request ∧
      sent request (resume true) (connection.outgoing ++ rest) ∧
      (trouble → ∀ part, part <+: rest → sent request (resume false) (connection.outgoing ++ part)) ∧
      (connection.wroteResponse = false → connection.outgoing = [] ∧ rest = [])
  | .failing rest => connection.wroteResponse = false ∧
      connection.outgoing ++ rest = buildErrorResponse .internalServerError 0
  | .finished =>
      (connection.wroteResponse = false →
        ∃ status ∈ ownErrors, connection.outgoing <+: buildErrorResponse status 0) ∧
      (connection.wroteResponse = true → ∃ request, Asked arrived request ∧ ended request connection.outgoing)

/-- Nothing has stopped the request or the server. -/
def Quiet (connection : Connection σ) : Prop :=
  connection.requestStop = false ∧ connection.serverStop = false

structure Serves (trouble : Prop) (sent : HttpRequest → σ → Bytes → Prop)
    (ended : HttpRequest → Bytes → Prop) (arrived : Bytes) (connection : Connection σ) : Prop where
  sending : connection.Sending trouble sent ended arrived
  quiet : ¬ trouble → connection.Quiet

theorem finish_refused (unwritten : connection.wroteResponse = false) {status : ResponseStatus}
    (own : status ∈ ownErrors) (out : connection.outgoing <+: buildErrorResponse status 0) :
    connection.finish.Sending trouble sent ended arrived := by
  refine ⟨fun _ => ⟨status, own, out⟩, fun wrote => ?_⟩
  have same : connection.wroteResponse = true := wrote
  simp [unwritten] at same

theorem refusing_sending (unwritten : connection.wroteResponse = false) (fresh : connection.outgoing = [])
    {status : ResponseStatus} (own : status ∈ ownErrors) :
    { connection with phase := .refusing (buildErrorResponse status 0) }.Sending trouble sent ended arrived :=
  ⟨unwritten, status, own, by simp [fresh]⟩

/-- A request is handled from the head that the client sent. -/
theorem headReceived_sending (accounts : ∀ request, handler.Accounts honest trouble request (sent request)
    (ended request)) (unwritten : connection.wroteResponse = false) (fresh : connection.outgoing = [])
    {result : ReceivedHead} (asked : ∀ head, result.head = some head →
      head <+: arrived ∧ EndsOnce head ∧ head.length ≤ maximumRequestHeadSize) :
    (connection.headReceived handler result).Sending trouble sent ended arrived := by
  unfold headReceived
  cases whole : result.head with
  | none =>
      simp only
      split
      · exact refusing_sending unwritten fresh (by simp [ownErrors])
      · exact finish_refused unwritten (refusal_own .malformed) (by simp [fresh])
  | some head =>
      obtain ⟨start, once, short⟩ := asked head whole
      simp only
      split
      · rename_i request ok parsed
        have parses : parseHttpRequestHead head = ⟨.ok, some request⟩ := by
          rw [← ok, ← parsed]
        refine ⟨request, ⟨head, start, once, short, parses⟩, ?_, fun _ => fresh⟩
        exact fresh ▸ (accounts request).start
      · exact refusing_sending unwritten fresh (refusal_own _)

theorem receive_sending (accounts : ∀ request, handler.Accounts honest trouble request (sent request)
    (ended request)) (sending : connection.Sending trouble sent ended arrived) {call : Recv}
    (receives : connection.Receives call) :
    (connection.receive handler call).Sending trouble sent ended arrived := by
  unfold receive
  cases phase : connection.phase with
  | receiving received =>
      simp only [Sending, phase] at sending
      obtain ⟨all, unwritten, fresh⟩ := sending
      simp only
      cases call with
      | interrupted =>
          simp only [receiveTurn, List.length_nil, List.drop_zero]
          exact ⟨all, unwritten, fresh⟩
      | stopped | failed | closed =>
          simp only [receiveTurn]
          refine headReceived_sending accounts ?_ ?_ fun head whole => ?_
          · exact unwritten
          · exact fresh
          · simp at whole
      | chunk more =>
          obtain ⟨_, _, start⟩ := receives
          obtain ⟨rest, incoming⟩ := start
          have split : received ++ more ++ rest = arrived := by
            rw [← all, ← incoming, List.append_assoc]
          cases turned : receiveTurn received (.chunk more) with
          | ok next =>
              rcases receiveTurn_ok turned with ⟨_, other⟩ | ⟨taken, same, rfl⟩
              · simp at other
              · obtain rfl := Recv.chunk.inj same
                refine ⟨?_, unwritten, fresh⟩
                show received ++ more ++ connection.incoming.drop more.length = arrived
                rw [← incoming, List.drop_left]
                exact split
          | error result =>
              refine headReceived_sending accounts ?_ ?_ fun head whole => ?_
              · exact unwritten
              · exact fresh
              · obtain ⟨begins, once, short⟩ := receiveTurn_asked turned whole
                exact ⟨begins.trans ⟨rest, split⟩, once, short⟩
  | refusing | handling | writing | failing | finished => exact sending

/-- What one turn of `send_all` does: more is sent, everything was sent, or the rest is given up. -/
theorem sendMore_cases {rest : Bytes} {stopped : Bool} {answer : Sent} {more : Bytes → Phase σ}
    {done : Bool → Connection σ} {holds : Connection σ → Prop}
    (going : ∀ count, holds { connection with
      outgoing := connection.outgoing ++ rest.take count, phase := more (rest.drop count) })
    (all : rest = [] → holds (done true))
    (cut : stopped = true ∨ ¬ (ConnectionAction.send answer : ConnectionAction ι).Steady → holds (done false)) :
    holds (connection.sendMore rest stopped answer more done) := by
  unfold sendMore sendTurn
  by_cases empty : rest.isEmpty = true
  · simp only [empty, if_true]
    exact all (List.isEmpty_iff.mp empty)
  · simp only [empty, Bool.false_eq_true, if_false]
    by_cases stop : stopped = true
    · simp only [stop, if_true]
      exact cut (.inl stop)
    · simp only [stop]
      cases answer with
      | interrupted => exact going 0
      | failed => exact cut (.inr (by simp [ConnectionAction.Steady]))
      | written count =>
          by_cases none : count = 0
          · simp only [none, if_true]
            exact cut (.inr (by simp [ConnectionAction.Steady, none]))
          · simp only [none, if_false]
            exact going count

theorem send_sending (sending : connection.Sending trouble sent ended arrived)
    (quiet : ¬ trouble → connection.requestStop = false) {answer : Sent}
    (steady : trouble ∨ (ConnectionAction.send answer : ConnectionAction ι).Steady) :
    (connection.send answer).Sending trouble sent ended arrived := by
  unfold send
  cases phase : connection.phase with
  | refusing rest =>
      simp only [Sending, phase] at sending
      obtain ⟨unwritten, status, own, whole⟩ := sending
      have finished : connection.finish.Sending trouble sent ended arrived :=
        finish_refused unwritten own ⟨rest, whole⟩
      refine sendMore_cases (ι := ι) (fun count => ?_) (fun _ => finished) fun _ => finished
      exact ⟨unwritten, status, own, by simpa using whole⟩
  | failing rest =>
      simp only [Sending, phase] at sending
      obtain ⟨unwritten, whole⟩ := sending
      have finished : connection.finish.Sending trouble sent ended arrived :=
        finish_refused unwritten internalServerError_own ⟨rest, whole⟩
      refine sendMore_cases (ι := ι) (fun count => ?_) (fun _ => finished) fun _ => finished
      exact ⟨unwritten, by simpa using whole⟩
  | writing rest resume =>
      simp only [Sending, phase] at sending
      obtain ⟨request, asked, full, part, untouched⟩ := sending
      refine sendMore_cases (ι := ι) (fun count => ?_) (fun all => ?_) fun cut => ?_
      · refine ⟨request, asked, by simpa using full, fun troubled piece start => ?_, fun unwritten => ?_⟩
        · have longer : rest.take count ++ piece <+: rest := by
            obtain ⟨left, same⟩ := start
            exact ⟨left, by rw [List.append_assoc, same, List.take_append_drop]⟩
          simpa using part troubled _ longer
        · obtain ⟨fresh, rfl⟩ := untouched unwritten
          simp [fresh]
      · obtain rfl := all
        exact ⟨request, asked, by simpa using full, fun unwritten => (untouched unwritten).1⟩
      · have troubled : trouble := by
          by_contra calm
          rcases cut with stopped | unsteady
          · simp [quiet calm] at stopped
          · exact unsteady (steady.resolve_left calm)
        refine ⟨request, asked, ?_, fun unwritten => (untouched unwritten).1⟩
        simpa using part troubled [] List.nil_prefix
  | receiving | handling | finished => exact sending

theorem handlerDone_sending {request : HttpRequest} (asked : Asked arrived request)
    (whole : ended request connection.outgoing)
    (untouched : connection.wroteResponse = false → connection.outgoing = []) :
    connection.handlerDone.Sending trouble sent ended arrived := by
  unfold handlerDone
  split
  · rename_i silent
    have unwritten : connection.wroteResponse = false := by
      simp only [Bool.and_eq_true, Bool.not_eq_true'] at silent
      exact silent.1
    exact ⟨unwritten, by simp [untouched unwritten]⟩
  · refine ⟨fun unwritten => ⟨.internalServerError, internalServerError_own, ?_⟩, fun _ => ⟨request, asked, whole⟩⟩
    have fresh : connection.outgoing = [] := untouched unwritten
    show connection.outgoing <+: _
    rw [fresh]
    exact List.nil_prefix

theorem handle_sending (accounts : ∀ request, handler.Accounts honest trouble request (sent request)
    (ended request)) (sending : connection.Sending trouble sent ended arrived)
    (quiet : ¬ trouble → connection.requestStop = false) {input : ι}
    (told : connection.Honest honest (.handle input)) :
    (connection.handle handler input).Sending trouble sent ended arrived := by
  unfold handle
  cases phase : connection.phase with
  | handling state =>
      have honestly : honest state input := told state (by rw [phase]; rfl)
      simp only [Sending, phase] at sending
      obtain ⟨request, asked, out, untouched⟩ := sending
      have account := accounts request
      simp only
      cases next : handler.next state input with
      | write data resume =>
          obtain ⟨full, part⟩ := account.write out honestly next
          refine ⟨request, asked, full, part, fun unwritten => ?_⟩
          have both : connection.wroteResponse = false ∧ data = [] := by simpa using unwritten
          exact ⟨untouched both.1, both.2⟩
      | askStop resume =>
          obtain ⟨calm, stopped⟩ := account.askStop out honestly next
          refine ⟨request, asked, ?_, untouched⟩
          show sent request (resume connection.requestStop) connection.outgoing
          cases stop : connection.requestStop with
          | false => exact calm
          | true =>
              refine stopped ?_
              by_contra troubleless
              simp [quiet troubleless] at stop
      | proceed following => exact ⟨request, asked, account.proceed out honestly next, untouched⟩
      | returned => exact handlerDone_sending asked (account.done out honestly (.inl next)) untouched
      | threw => exact handlerDone_sending asked (account.done out honestly (.inr next)) untouched
  | receiving | refusing | writing | failing | finished => exact sending

theorem Works.quiet {before after : Connection σ} (works : Works before after) (quiet : before.Quiet) :
    after.Quiet :=
  ⟨works.requestStop.elim (·.trans quiet.1) (·.trans quiet.2), works.serverStop.trans quiet.2⟩

theorem Quiet.perform (quiet : connection.Quiet) {action : ConnectionAction ι} (steady : action.Steady) :
    (connection.perform handler action).Quiet := by
  cases action with
  | arrive | disconnect | fail => exact quiet
  | stopServer => exact steady.elim
  | receive call => exact (receive_works connection call).quiet quiet
  | send answer => exact (send_works connection answer).quiet quiet
  | handle input => exact (handle_works connection input).quiet quiet
  | watch answer =>
      cases answer with
      | interrupted | idle => exact quiet
      | failed | terminal | hangup => exact steady.elim
      | readable answered =>
          cases answered with
          | false => exact quiet
          | true => exact steady.elim

theorem Sending.arrive (sending : connection.Sending trouble sent ended arrived) (more : Bytes) :
    { connection with incoming := connection.incoming ++ more }.Sending trouble sent ended
      (arrived ++ more) := by
  have later : arrived <+: arrived ++ more := List.prefix_append arrived more
  unfold Sending at sending ⊢
  simp only
  split
  · rename_i received phase
    simp only [phase] at sending
    obtain ⟨all, untouched⟩ := sending
    exact ⟨by rw [← all, List.append_assoc], untouched⟩
  · rename_i rest phase
    simpa only [phase] using sending
  · rename_i state phase
    simp only [phase] at sending
    obtain ⟨request, asked, out⟩ := sending
    exact ⟨request, asked.mono later, out⟩
  · rename_i rest resume phase
    simp only [phase] at sending
    obtain ⟨request, asked, out⟩ := sending
    exact ⟨request, asked.mono later, out⟩
  · rename_i rest phase
    simpa only [phase] using sending
  · rename_i phase
    simp only [phase] at sending
    refine ⟨sending.1, fun wrote => ?_⟩
    obtain ⟨request, asked, whole⟩ := sending.2 wrote
    exact ⟨request, asked.mono later, whole⟩

/-- An action that can come next, with what it tells the handler, in a run that may or may not have
trouble. -/
def Allowed (honest : σ → ι → Prop) (trouble : Prop) (connection : Connection σ)
    (action : ConnectionAction ι) : Prop :=
  connection.Possible action ∧ connection.Honest honest action ∧ (trouble ∨ action.Steady)

theorem Serves.perform (accounts : ∀ request, handler.Accounts honest trouble request (sent request)
    (ended request)) (serves : connection.Serves trouble sent ended arrived) {action : ConnectionAction ι}
    (allowed : connection.Allowed honest trouble action) :
    (connection.perform handler action).Serves trouble sent ended (arrived ++ action.arrival) := by
  obtain ⟨possible, told, steady⟩ := allowed
  obtain ⟨sending, quiet⟩ := serves
  refine ⟨?_, fun calm => (quiet calm).perform (steady.resolve_left calm)⟩
  cases action with
  | arrive more => exact sending.arrive more
  | disconnect | fail | stopServer => exact (List.append_nil arrived).symm ▸ sending
  | receive call => exact (List.append_nil arrived).symm ▸ receive_sending accounts sending possible.2
  | send answer =>
      exact (List.append_nil arrived).symm ▸ send_sending sending (fun calm => (quiet calm).1) steady
  | handle input =>
      exact (List.append_nil arrived).symm ▸
        handle_sending accounts sending (fun calm => (quiet calm).1) told
  | watch answer =>
      cases answer with
      | interrupted | idle | failed | terminal | hangup => exact (List.append_nil arrived).symm ▸ sending
      | readable answered =>
          cases answered <;> exact (List.append_nil arrived).symm ▸ sending

/-- The rule: a handler's account of what it writes holds of what the connection has sent, wherever a run
leads. -/
theorem Serves.run (accounts : ∀ request, handler.Accounts honest trouble request (sent request)
    (ended request)) (actions : List (ConnectionAction ι))
    (serves : connection.Serves trouble sent ended arrived)
    (runs : Transition.Runs (Allowed honest trouble) (Connection.perform handler) connection actions) :
    (actions.foldl (Connection.perform handler) connection).Serves trouble sent ended
      (arrived ++ arrivals actions) := by
  induction actions generalizing connection arrived with
  | nil => simpa [arrivals] using serves
  | cons action rest ih =>
      have split : arrived ++ arrivals (action :: rest) = arrived ++ action.arrival ++ arrivals rest := by
        simp [arrivals]
      rw [split]
      exact ih (serves.perform accounts runs.1) runs.2

theorem serves_after (accounts : ∀ request, handler.Accounts honest trouble request (sent request)
    (ended request)) {actions : List (ConnectionAction ι)}
    (runs : Transition.Runs (Allowed honest trouble) (Connection.perform handler) {} actions) :
    (after handler actions).Serves trouble sent ended (arrivals actions) := by
  have begins : ({} : Connection σ).Serves trouble sent ended [] :=
    ⟨⟨rfl, rfl, rfl⟩, fun _ => ⟨rfl, rfl⟩⟩
  exact begins.run accounts actions runs

end Connection

end NuvioEngine.Http
