import NuvioEngine.Http.ConnectionCore
import NuvioEngine.Http.Receive
import Mathlib.Data.List.Forall2

/-!
Client bytes behind the request head: as long as the disconnect monitor does not find them, a run sends
what it would send without them, and the request is stopped only for a client that is gone, a broken
socket or a server that stops.
-/

namespace NuvioEngine.Http

theorem receiveTurn_ok {received next : Bytes} {call : Recv} (turned : receiveTurn received call = .ok next) :
    next = received ∧ call = .interrupted ∨ ∃ more, call = .chunk more ∧ next = received ++ more := by
  cases call with
  | interrupted => exact .inl ⟨(Except.ok.inj turned).symm, rfl⟩
  | stopped | failed | closed => simp [receiveTurn] at turned
  | chunk more =>
      unfold receiveTurn at turned
      simp only at turned
      split at turned
      · split at turned <;> simp at turned
      · split at turned
        · simp at turned
        · exact .inr ⟨more, rfl, (Except.ok.inj turned).symm⟩

theorem receiveTurn_head {received more head : Bytes} (once : EndsOnce head)
    (short : head.length ≤ maximumRequestHeadSize) (start : head <+: received ++ more) :
    receiveTurn received (.chunk more) = .error ⟨some head, false⟩ := by
  obtain ⟨found, long⟩ := indexOf_of_endsOnce start once
  unfold receiveTurn
  simp only [find_crlfcrlf, found, Nat.sub_add_cancel long, gt_iff_lt, Nat.not_lt.mpr short, if_false]
  rw [← List.prefix_iff_eq_take.mp start]

namespace Connection

variable {σ ι : Type} {handler : Handler σ ι}

def CancelledRightly (connection : Connection σ) : Prop := connection.requestStop = true → connection.Gone

/-- The monitor does not find unread bytes of a client that is still there. -/
def Unnoticed (connection : Connection σ) : ConnectionAction ι → Prop
  | .watch (.readable true) => connection.incoming = [] ∨ connection.Gone
  | _ => True

instance (connection : Connection σ) :
    DecidablePred fun action : ConnectionAction ι => connection.Unnoticed action
  | .watch (.readable true) => instDecidableOr
  | .watch (.readable false) | .watch .interrupted | .watch .failed | .watch .terminal | .watch .hangup
  | .watch .idle | .arrive _ | .disconnect | .fail | .stopServer | .receive _ | .send _ | .handle _ =>
      instDecidableTrue

/-- The second action is the first with fewer client bytes. -/
inductive Trims : ConnectionAction ι → ConnectionAction ι → Prop
  | same (action : ConnectionAction ι) : Trims action action
  | arrive {more less : Bytes} (start : less <+: more) : Trims (.arrive more) (.arrive less)
  | receive {more less : Bytes} (start : less <+: more) :
      Trims (.receive (.chunk more)) (.receive (.chunk less))

/-- Where a run leads. -/
def after (handler : Handler σ ι) (actions : List (ConnectionAction ι)) : Connection σ :=
  actions.foldl (perform handler) {}

/-- A run is not disturbed by the bytes behind the head: the request is never stopped for them, and the
same run without them sends the same. -/
def Undisturbed (handler : Handler σ ι) (head : Bytes) (actions : List (ConnectionAction ι)) : Prop :=
  (∀ before, before <+: actions → (after handler before).CancelledRightly) ∧
  ∃ others, Transition.Runs Possible (perform handler) {} others ∧
    List.Forall₂ Trims actions others ∧ arrivals others = (arrivals actions).take head.length ∧
    (after handler others).outgoing = (after handler actions).outgoing ∧
    (after handler others).phase = (after handler actions).phase

section Incoming

variable (connection : Connection σ) (incoming : Bytes)

theorem headReceived_incoming (result : ReceivedHead) :
    { connection with incoming := incoming }.headReceived handler result =
      { connection.headReceived handler result with incoming := incoming } := by
  unfold headReceived
  cases result.head with
  | none =>
      simp only
      split <;> rfl
  | some head =>
      simp only
      split <;> rfl

theorem send_incoming (answer : Sent) :
    { connection with incoming := incoming }.send answer =
      { connection.send answer with incoming := incoming } := by
  obtain ⟨_, _, _, _, serverStop, phase, _, requestStop, _⟩ := connection
  cases phase with
  | refusing rest =>
      cases turned : sendTurn rest serverStop answer <;> simp only [send, sendMore, turned, finish]
  | writing rest resume =>
      cases turned : sendTurn rest requestStop answer <;> simp only [send, sendMore, turned]
  | failing rest =>
      cases turned : sendTurn rest requestStop answer <;> simp only [send, sendMore, turned, finish]
  | receiving received => rfl
  | handling state => rfl
  | finished => rfl

theorem handle_incoming (handler : Handler σ ι) (connection : Connection σ) (incoming : Bytes)
    (input : ι) :
    { connection with incoming := incoming }.handle handler input =
      { connection.handle handler input with incoming := incoming } := by
  obtain ⟨_, _, _, _, _, phase, _, _, _⟩ := connection
  cases phase with
  | handling state =>
      unfold handle
      simp only
      cases handler.next state input with
      | write data resume => rfl
      | askStop resume => rfl
      | proceed next => rfl
      | returned | threw =>
          simp only [handlerDone]
          split <;> rfl
  | receiving received => rfl
  | refusing rest => rfl
  | writing rest resume => rfl
  | failing rest => rfl
  | finished => rfl

end Incoming

section Rightly

variable {connection : Connection σ}

/-- What a step of the worker leaves alone; a request that begins is stopped if the worker is. -/
structure Works (before after : Connection σ) : Prop where
  closed : after.closed = before.closed
  failed : after.failed = before.failed
  serverStop : after.serverStop = before.serverStop
  requestStop : after.requestStop = before.requestStop ∨ after.requestStop = before.serverStop

theorem Works.refl (connection : Connection σ) : Works connection connection := ⟨rfl, rfl, rfl, .inl rfl⟩

theorem Works.gone {before after : Connection σ} (works : Works before after) :
    after.Gone ↔ before.Gone := by
  unfold Gone
  rw [works.closed, works.failed, works.serverStop]

theorem Works.cancelledRightly {before after : Connection σ} (works : Works before after)
    (rightly : before.CancelledRightly) : after.CancelledRightly := by
  intro stopped
  rw [works.gone]
  rcases works.requestStop with same | server
  · exact rightly (same ▸ stopped)
  · exact .inr (.inr (server ▸ stopped))

theorem finish_works (connection : Connection σ) : Works connection connection.finish :=
  ⟨rfl, rfl, rfl, .inl rfl⟩

theorem receive_works (connection : Connection σ) (call : Recv) :
    Works connection (connection.receive handler call) := by
  unfold receive
  split
  · simp only
    split
    · exact ⟨rfl, rfl, rfl, .inl rfl⟩
    · rename_i result _
      unfold headReceived
      split
      · split <;> exact ⟨rfl, rfl, rfl, .inl rfl⟩
      · simp only
        split
        · exact ⟨rfl, rfl, rfl, .inr rfl⟩
        · exact ⟨rfl, rfl, rfl, .inl rfl⟩
  · exact Works.refl connection

theorem sendMore_works (connection : Connection σ) (rest : Bytes) (stopped : Bool) (answer : Sent)
    (more : Bytes → Phase σ) {done : Bool → Connection σ}
    (works : ∀ sent, Works connection (done sent)) :
    Works connection (connection.sendMore rest stopped answer more done) := by
  unfold sendMore
  split
  · exact ⟨rfl, rfl, rfl, .inl rfl⟩
  · exact works _

theorem send_works (connection : Connection σ) (answer : Sent) :
    Works connection (connection.send answer) := by
  unfold send
  split
  · exact sendMore_works _ _ _ _ _ fun _ => finish_works connection
  · exact sendMore_works _ _ _ _ _ fun _ => ⟨rfl, rfl, rfl, .inl rfl⟩
  · exact sendMore_works _ _ _ _ _ fun _ => finish_works connection
  all_goals exact Works.refl connection

theorem handle_works (connection : Connection σ) (input : ι) :
    Works connection (connection.handle handler input) := by
  have done : Works connection connection.handlerDone := by
    unfold handlerDone
    split <;> exact ⟨rfl, rfl, rfl, .inl rfl⟩
  unfold handle
  split
  · split
    · exact ⟨rfl, rfl, rfl, .inl rfl⟩
    · exact ⟨rfl, rfl, rfl, .inl rfl⟩
    · exact ⟨rfl, rfl, rfl, .inl rfl⟩
    · exact done
    · exact done
  · exact Works.refl connection

theorem CancelledRightly.perform (rightly : connection.CancelledRightly) {action : ConnectionAction ι}
    (possible : connection.Possible action) (unnoticed : connection.Unnoticed action) :
    (connection.perform handler action).CancelledRightly := by
  cases action with
  | arrive more => exact rightly
  | disconnect => exact fun _ => .inl rfl
  | fail => exact fun _ => .inr (.inl rfl)
  | stopServer => exact fun _ => .inr (.inr rfl)
  | receive call => exact (receive_works connection call).cancelledRightly rightly
  | send answer => exact (send_works connection answer).cancelledRightly rightly
  | handle input => exact (handle_works connection input).cancelledRightly rightly
  | watch answer =>
      obtain ⟨_, watches⟩ := possible
      cases answer with
      | interrupted | idle => exact rightly
      | failed => exact fun _ => .inr (.inl watches)
      | terminal => exact fun _ => .inr watches
      | hangup => exact fun _ => watches.imp_right .inr
      | readable answered =>
          cases answered with
          | false => exact rightly
          | true =>
              intro _
              rcases watches with unread | gone
              · rcases unnoticed with empty | gone
                · exact absurd empty unread
                · exact gone
              · exact gone

theorem not_cancelledRightly_perform {action : ConnectionAction ι}
    (noticed : ¬ connection.Unnoticed action) :
    ¬ (connection.perform handler action).CancelledRightly := by
  intro rightly
  unfold Unnoticed at noticed
  split at noticed
  · exact noticed (.inr (rightly rfl))
  · exact noticed trivial

end Rightly

section Erasing

variable {head further arrived : Bytes} {connection other : Connection σ}

/-- The same connection without the bytes behind the head: only what is unread can differ, and while the
head is received it differs by those bytes. -/
structure Erases (head arrived : Bytes) (connection other : Connection σ) : Prop where
  same : other = { connection with incoming := other.incoming }
  receiving : ∀ received, connection.phase = .receiving received →
    received ++ connection.incoming = arrived ∧
      received ++ other.incoming = arrived.take head.length ∧ received.length < head.length

theorem Erases.gone (erases : Erases head arrived connection other) : other.Gone ↔ connection.Gone := by
  rw [erases.same]
  rfl

theorem headReceived_phase (connection : Connection σ) (result : ReceivedHead) (received : Bytes) :
    (connection.headReceived handler result).phase ≠ .receiving received := by
  unfold headReceived
  split
  · split <;> simp [finish]
  · simp only
    split <;> simp

theorem send_phase (connection : Connection σ) (answer : Sent) (received : Bytes)
    (found : (connection.send answer).phase = .receiving received) :
    connection.phase = .receiving received := by
  unfold send sendMore at found
  split at found
  · split at found <;> simp [finish] at found
  · split at found <;> simp at found
  · split at found <;> simp [finish] at found
  all_goals exact found

theorem handle_phase (connection : Connection σ) (input : ι) (received : Bytes)
    (found : (connection.handle handler input).phase = .receiving received) :
    connection.phase = .receiving received := by
  unfold handle at found
  split at found
  · split at found
    · simp at found
    · simp at found
    · simp at found
    all_goals
      unfold handlerDone at found
      split at found <;> simp [finish] at found
  · exact found

theorem Erases.kept {next : Connection σ} (erases : Erases head arrived connection other)
    (kept : next.incoming = connection.incoming)
    (settled : ∀ received, next.phase = .receiving received → connection.phase = .receiving received) :
    Erases head arrived next { next with incoming := other.incoming } := by
  refine ⟨rfl, fun received found => ?_⟩
  rw [kept]
  exact erases.receiving received (settled received found)

theorem erases_headReceived (head arrived : Bytes) (connection : Connection σ) (result : ReceivedHead)
    (incoming less : Bytes) :
    Erases head arrived ({ connection with incoming := incoming }.headReceived handler result)
      ({ connection with incoming := less }.headReceived handler result) := by
  refine ⟨?_, fun received found => absurd found (headReceived_phase _ _ received)⟩
  simp only [headReceived_incoming]

theorem receive_error {received more : Bytes} {result : ReceivedHead}
    (phase : connection.phase = .receiving received)
    (turned : receiveTurn received (.chunk more) = .error result) :
    connection.receive handler (.chunk more) =
      { connection with incoming := connection.incoming.drop more.length }.headReceived handler result := by
  obtain ⟨_, _, _, _, _, _, _, _, _⟩ := connection
  obtain rfl := phase
  simp only [receive, turned]

theorem receive_ok {received more next : Bytes} (phase : connection.phase = .receiving received)
    (turned : receiveTurn received (.chunk more) = .ok next) :
    connection.receive handler (.chunk more) =
      { connection with incoming := connection.incoming.drop more.length, phase := .receiving next } := by
  obtain ⟨_, _, _, _, _, _, _, _, _⟩ := connection
  obtain rfl := phase
  simp only [receive, turned]

theorem Erases.chunk (erases : Erases head arrived connection other) (once : EndsOnce head)
    (short : head.length ≤ maximumRequestHeadSize) (arrives : arrived <+: head ++ further)
    {received more : Bytes} (phase : connection.phase = .receiving received)
    (receives : connection.Receives (.chunk more)) :
    other.Receives (.chunk (more.take (head.length - received.length))) ∧
      Erases head arrived (connection.receive handler (.chunk more))
        (other.receive handler (.chunk (more.take (head.length - received.length)))) := by
  obtain ⟨some, bounded, start⟩ := receives
  obtain ⟨all, cut, unfinished⟩ := erases.receiving received phase
  obtain ⟨incoming, rfl⟩ : ∃ incoming, other = { connection with incoming := incoming } :=
    ⟨_, erases.same⟩
  have unread : incoming = connection.incoming.take (head.length - received.length) := by
    rw [← all, List.take_append, List.take_of_length_le (le_of_lt unfinished)] at cut
    exact List.append_cancel_left cut
  have otherPhase : { connection with incoming := incoming }.phase = .receiving received := phase
  generalize lessEq : more.take (head.length - received.length) = less
  have lessStart : less <+: incoming := by
    rw [unread, ← lessEq]
    exact start.take _
  have lessSome : less ≠ [] := by
    rw [← lessEq, ne_eq, List.take_eq_nil_iff, not_or]
    exact ⟨by omega, some⟩
  have lessBounded : less.length ≤ receiveBufferSize := by
    rw [← lessEq, List.length_take]
    omega
  refine ⟨⟨lessSome, lessBounded, lessStart⟩, ?_⟩
  by_cases whole : head.length ≤ received.length + more.length
  · -- The chunk ends the head, and the shorter chunk is what the head still needs.
    have ends : head <+: received ++ more := by
      have met : received ++ more <+: head ++ further :=
        (((List.prefix_append_right_inj received).mpr start).trans (all ▸ List.prefix_refl _)).trans arrives
      refine List.prefix_of_prefix_length_le (List.prefix_append head further) met ?_
      rw [List.length_append]
      exact whole
    have exactly : head = received ++ less := by
      rw [List.prefix_iff_eq_take.mp ends, List.take_append,
        List.take_of_length_le (le_of_lt unfinished), lessEq]
    have longTurn := receiveTurn_head once short ends
    have reached : head <+: received ++ less := ⟨[], by rw [List.append_nil, ← exactly]⟩
    have shortTurn := receiveTurn_head once short reached
    rw [receive_error phase longTurn, receive_error otherPhase shortTurn]
    exact erases_headReceived head arrived connection _ _ _
  · have uncut : less = more := lessEq ▸ List.take_of_length_le (by omega)
    rw [uncut] at lessStart ⊢
    cases turned : receiveTurn received (.chunk more) with
    | error result =>
        rw [receive_error phase turned, receive_error otherPhase turned]
        exact erases_headReceived head arrived connection _ _ _
    | ok next =>
        rw [receive_ok phase turned, receive_ok otherPhase turned]
        rcases receiveTurn_ok turned with ⟨_, impossible⟩ | ⟨_, taken, rfl⟩
        · simp at impossible
        · obtain rfl := Recv.chunk.inj taken
          refine ⟨rfl, fun following found => ?_⟩
          obtain rfl := Phase.receiving.inj found
          obtain ⟨left, leftEq⟩ := start
          obtain ⟨right, rightEq⟩ := lessStart
          refine ⟨?_, ?_, by rw [List.length_append]; omega⟩
          · simp only [← all, ← leftEq, List.drop_left, List.append_assoc]
          · simp only [← cut, ← rightEq, List.drop_left, List.append_assoc]

theorem receive_incoming (handler : Handler σ ι) (connection : Connection σ) (incoming : Bytes)
    {call : Recv} (idle : ∀ more, call ≠ .chunk more) :
    { connection with incoming := incoming }.receive handler call =
      { connection.receive handler call with incoming := incoming } := by
  obtain ⟨_, _, _, _, _, phase, _, _, _⟩ := connection
  cases call with
  | chunk more => exact absurd rfl (idle more)
  | stopped | interrupted | failed | closed => cases phase <;> rfl

theorem receive_phase (connection : Connection σ) {call : Recv} (idle : ∀ more, call ≠ .chunk more)
    (received : Bytes) (found : (connection.receive handler call).phase = .receiving received) :
    connection.phase = .receiving received := by
  obtain ⟨_, _, _, _, _, phase, _, _, _⟩ := connection
  cases call with
  | chunk more => exact absurd rfl (idle more)
  | interrupted => cases phase <;> exact found
  | stopped | failed | closed =>
      cases phase with
      | receiving before => simp [receive, receiveTurn, headReceived, finish] at found
      | refusing rest => exact found
      | handling state => exact found
      | writing rest resume => exact found
      | failing rest => exact found
      | finished => exact found

theorem possible_receive {call : Recv} : connection.Possible (.receive call : ConnectionAction ι) ↔
    ∃ received, connection.phase = .receiving received ∧ connection.Receives call := by
  unfold Possible
  cases connection.phase <;> simp [Phase.isReceiving]

theorem Erases.perform (erases : Erases head arrived connection other) (once : EndsOnce head)
    (short : head.length ≤ maximumRequestHeadSize) {action : ConnectionAction ι}
    (arrives : arrived ++ action.arrival <+: head ++ further)
    (possible : connection.Possible action) (unnoticed : connection.Unnoticed action) :
    ∃ trimmed, Trims action trimmed ∧ other.Possible trimmed ∧
      arrived.take head.length ++ trimmed.arrival = (arrived ++ action.arrival).take head.length ∧
      Erases head (arrived ++ action.arrival) (connection.perform handler action)
        (other.perform handler trimmed) := by
  have gone := erases.gone
  obtain ⟨incoming, rfl⟩ : ∃ incoming, other = { connection with incoming := incoming } :=
    ⟨_, erases.same⟩
  -- An action that brings no bytes is taken by both.
  have both : ∀ shared : ConnectionAction ι, shared.arrival = [] →
      { connection with incoming := incoming }.Possible shared →
      Erases head arrived (connection.perform handler shared)
        ({ connection with incoming := incoming }.perform handler shared) →
      ∃ trimmed, Trims shared trimmed ∧ { connection with incoming := incoming }.Possible trimmed ∧
        arrived.take head.length ++ trimmed.arrival = (arrived ++ shared.arrival).take head.length ∧
        Erases head (arrived ++ shared.arrival) (connection.perform handler shared)
          ({ connection with incoming := incoming }.perform handler trimmed) := by
    intro shared quiet also same
    refine ⟨shared, .same shared, also, ?_, ?_⟩
    · rw [quiet, List.append_nil, List.append_nil]
    · rwa [quiet, List.append_nil]
  cases action with
  | arrive more =>
      refine ⟨.arrive (more.take (head.length - arrived.length)), .arrive (List.take_prefix _ _), possible,
        List.take_append.symm, rfl, fun received found => ?_⟩
      obtain ⟨all, cut, unfinished⟩ := erases.receiving received found
      refine ⟨?_, ?_, unfinished⟩
      · exact (List.append_assoc _ _ _).symm.trans (congrArg (· ++ more) all)
      · have bytes : (.arrive more : ConnectionAction ι).arrival = more := rfl
        rw [bytes, List.take_append, ← cut]
        exact (List.append_assoc _ _ _).symm
  | disconnect => exact both .disconnect rfl possible (erases.kept rfl fun _ found => found)
  | fail => exact both .fail rfl possible (erases.kept rfl fun _ found => found)
  | stopServer => exact both .stopServer rfl possible (erases.kept rfl fun _ found => found)
  | receive call =>
      obtain ⟨received, phase, receives⟩ := possible_receive.mp possible
      by_cases idle : ∀ more, call ≠ .chunk more
      · have again := receive_incoming handler connection connection.incoming idle
        have kept := congrArg Connection.incoming again
        have same : Erases head arrived (connection.receive handler call)
            { connection.receive handler call with incoming := incoming } :=
          erases.kept kept (receive_phase connection idle)
        rw [← receive_incoming handler connection incoming idle] at same
        refine both (.receive call) rfl (possible_receive.mpr ⟨received, phase, ?_⟩) same
        cases call with
        | chunk more => exact absurd rfl (idle more)
        | stopped | interrupted | failed | closed => exact receives
      · simp only [not_forall, not_not] at idle
        obtain ⟨more, rfl⟩ := idle
        have before : arrived <+: head ++ further := (List.prefix_append _ _).trans arrives
        obtain ⟨taken, same⟩ := erases.chunk once short before phase receives
        refine ⟨_, .receive (List.take_prefix (head.length - received.length) more),
          possible_receive.mpr ⟨received, phase, taken⟩, ?_, ?_⟩
        · exact (List.append_nil _).trans (congrArg _ (List.append_nil arrived).symm)
        · have quiet : (.receive (.chunk more) : ConnectionAction ι).arrival = [] := rfl
          rw [quiet, List.append_nil]
          exact same
  | send answer =>
      have again := send_incoming connection connection.incoming answer
      have kept := congrArg Connection.incoming again
      have same : Erases head arrived (connection.send answer)
          { connection.send answer with incoming := incoming } :=
        erases.kept kept (send_phase connection answer)
      rw [← send_incoming] at same
      exact both (.send answer) rfl possible same
  | handle input =>
      have again := handle_incoming handler connection connection.incoming input
      have kept := congrArg Connection.incoming again
      have same : Erases head arrived (connection.handle handler input)
          { connection.handle handler input with incoming := incoming } :=
        erases.kept kept (handle_phase connection input)
      rw [← handle_incoming] at same
      exact both (.handle input) rfl possible same
  | watch answer =>
      obtain ⟨monitoring, watches⟩ := possible
      cases answer with
      | interrupted | failed | terminal | hangup | idle =>
          exact both _ rfl ⟨monitoring, watches⟩ (erases.kept rfl fun _ found => found)
      | readable answered =>
          refine both _ rfl ⟨monitoring, ?_⟩ ?_
          · cases answered with
            | false => trivial
            | true =>
                refine .inr (gone.mpr ?_)
                rcases unnoticed with empty | away
                · exact watches.resolve_left fun unread => unread empty
                · exact away
          · cases answered <;> exact erases.kept rfl fun _ found => found

theorem Erases.run (once : EndsOnce head) (short : head.length ≤ maximumRequestHeadSize)
    (actions : List (ConnectionAction ι)) {arrived : Bytes} {connection other : Connection σ}
    (erases : Erases head arrived connection other)
    (arrives : arrived ++ arrivals actions <+: head ++ further)
    (runs : Transition.Runs Possible (Connection.perform handler) connection actions)
    (unnoticed : Transition.Runs Unnoticed (Connection.perform handler) connection actions) :
    ∃ others, Transition.Runs Possible (Connection.perform handler) other others ∧
      List.Forall₂ Trims actions others ∧
      arrived.take head.length ++ arrivals others = (arrived ++ arrivals actions).take head.length ∧
      Erases head (arrived ++ arrivals actions) (actions.foldl (Connection.perform handler) connection)
        (others.foldl (Connection.perform handler) other) := by
  induction actions generalizing arrived connection other with
  | nil =>
      refine ⟨[], trivial, .nil, ?_, ?_⟩
      · simp [arrivals]
      · simpa [arrivals] using erases
  | cons action rest ih =>
      have split : arrivals (action :: rest) = action.arrival ++ arrivals rest := rfl
      rw [split, ← List.append_assoc] at arrives
      obtain ⟨trimmed, trims, possible, cut, next⟩ := erases.perform once short
        ((List.prefix_append _ _).trans arrives) runs.1 unnoticed.1
      obtain ⟨others, laterRuns, laterTrims, laterCut, last⟩ := ih next arrives runs.2 unnoticed.2
      refine ⟨trimmed :: others, ⟨possible, laterRuns⟩, .cons trims laterTrims, ?_, ?_⟩
      · rw [split, ← List.append_assoc, ← laterCut, ← cut, List.append_assoc]
        rfl
      · rw [split, ← List.append_assoc]
        exact last

end Erasing

section Runs

variable {connection : Connection σ}

/-- Without cause the request is never stopped exactly when the monitor never finds unread bytes. -/
theorem cancelledRightly_iff (actions : List (ConnectionAction ι))
    (runs : Transition.Runs Possible (Connection.perform handler) connection actions)
    (rightly : connection.CancelledRightly) :
    (∀ before, before <+: actions →
        (before.foldl (Connection.perform handler) connection).CancelledRightly) ↔
      Transition.Runs Unnoticed (Connection.perform handler) connection actions := by
  induction actions generalizing connection with
  | nil =>
      refine ⟨fun _ => trivial, fun _ before start => ?_⟩
      rw [List.prefix_nil.mp start]
      exact rightly
  | cons action rest ih =>
      constructor
      · intro always
        have next := always [action] (List.prefix_append [action] rest)
        refine ⟨?_, (ih runs.2 next).mp fun before start => ?_⟩
        · by_contra noticed
          exact not_cancelledRightly_perform noticed next
        · exact always (action :: before) ((List.prefix_cons_inj action).mpr start)
      · rintro ⟨unnoticed, later⟩ before start
        cases before with
        | nil => exact rightly
        | cons first before =>
            obtain ⟨rfl, inside⟩ := List.cons_prefix_cons.mp start
            exact (ih runs.2 (rightly.perform runs.1 unnoticed)).mpr later before inside

/-- The bytes behind the head do not change the response, and stop no request, exactly in the runs in
which the disconnect monitor never finds unread bytes of a client that is still there. -/
theorem undisturbed_iff (handler : Handler σ ι) {head further : Bytes} (once : EndsOnce head)
    (short : head.length ≤ maximumRequestHeadSize) (actions : List (ConnectionAction ι))
    (runs : Transition.Runs Possible (Connection.perform handler) {} actions)
    (arrives : arrivals actions <+: head ++ further) :
    Undisturbed handler head actions ↔
      Transition.Runs Unnoticed (Connection.perform handler) {} actions := by
  have fresh : ({} : Connection σ).CancelledRightly := fun stopped => by simp at stopped
  constructor
  · intro undisturbed
    exact (cancelledRightly_iff actions runs fresh).mp undisturbed.1
  · intro unnoticed
    refine ⟨(cancelledRightly_iff actions runs fresh).mpr unnoticed, ?_⟩
    have some : 0 < head.length := by
      have long := once.1.length_le
      simp only [crlf, List.length_append, List.length_cons, List.length_nil] at long
      omega
    have begins : Erases head [] ({} : Connection σ) {} := by
      refine ⟨rfl, fun received found => ?_⟩
      obtain rfl := Phase.receiving.inj found
      exact ⟨rfl, List.take_nil.symm, some⟩
    obtain ⟨others, othersRuns, trims, cut, last⟩ := begins.run once short actions arrives runs unnoticed
    rw [List.take_nil, List.nil_append, List.nil_append] at cut
    refine ⟨others, othersRuns, trims, cut, ?_, ?_⟩
    · unfold after
      rw [last.same]
    · unfold after
      rw [last.same]

/-- A handler that writes one response and returns. -/
def answering (response : Bytes) : Handler Bool Unit where
  start := fun _ => true
  next := fun pending _ => if pending then .write response fun _ => false else .returned

def requestHead : Bytes := bytes "GET /stream/a HTTP/1.1\r\n\r\n"

/-- A stray empty line comes with the head, and the response is sent. -/
def strayWithHead : List (ConnectionAction Unit) := [
  .arrive (requestHead ++ crlf), .receive (.chunk (requestHead ++ crlf)), .handle (), .watch .idle,
  .send (.written 19), .send .interrupted, .handle ()]

/-- The stray line comes after the head, and the monitor finds it before the response is sent. -/
def strayAfterHead : List (ConnectionAction Unit) := [
  .arrive requestHead, .receive (.chunk requestHead), .arrive crlf, .watch (.readable true), .handle (),
  .send (.written 19), .handle ()]

def okResponse : Bytes := bytes "HTTP/1.1 200 OK\r\n\r\n"

theorem requestHead_once : EndsOnce requestHead := by
  have found : Search.indexOf (crlf ++ crlf) requestHead = some 22 := by decide +kernel
  have whole : requestHead.take (22 + 4) = requestHead := by decide +kernel
  exact whole ▸ endsOnce_take found

theorem undisturbed_iff_strayWithHead :
    Undisturbed (answering okResponse) requestHead strayWithHead ∧
      (after (answering okResponse) strayWithHead).outgoing = okResponse :=
  have runs : Transition.Runs Possible (Connection.perform (answering okResponse)) {} strayWithHead := by
    decide +kernel
  have arrives : arrivals strayWithHead <+: requestHead ++ crlf := by decide +kernel
  ⟨(undisturbed_iff (answering okResponse) requestHead_once (by decide +kernel) strayWithHead runs
    arrives).mpr (by decide +kernel), by decide +kernel⟩

/-- The client is there, nothing has failed and the server is not stopping, and still the request is
stopped and nothing is sent. -/
theorem strayAfterHead_disturbs :
    (parseHttpRequestHead requestHead).status = .ok ∧ EndsOnce requestHead ∧
      Transition.Runs Possible (Connection.perform (answering okResponse)) {} strayAfterHead ∧
      arrivals strayAfterHead = requestHead ++ crlf ∧
      ¬ (after (answering okResponse) strayAfterHead).Gone ∧
      (after (answering okResponse) strayAfterHead).requestStop = true ∧
      (after (answering okResponse) strayAfterHead).outgoing = [] ∧
      ¬ Undisturbed (answering okResponse) requestHead strayAfterHead := by
  have stopped : (after (answering okResponse) strayAfterHead).requestStop = true := by decide +kernel
  have here : ¬ (after (answering okResponse) strayAfterHead).Gone := by decide +kernel
  refine ⟨by decide +kernel, requestHead_once, by decide +kernel, by decide +kernel, here, stopped,
    by decide +kernel, ?_⟩
  intro undisturbed
  exact here (undisturbed.1 strayAfterHead (List.prefix_refl _) stopped)

end Runs

end Connection

end NuvioEngine.Http
