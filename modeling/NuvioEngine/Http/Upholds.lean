import NuvioEngine.Http.Outgoing

/-!
Where the handler of a connection stands. What each of its steps leads to is upheld by the connection, which
starts the handler and hands its answers on.
-/

namespace NuvioEngine.Http

/-- Wherever the handler goes on it stands in such a place, and where it returns the second holds. -/
def HandlerStep.Leads {σ : Type} (goes : σ → Prop) (leaves : Prop) : HandlerStep σ → Prop
  | .write _ resume | .askStop resume => ∀ answer, goes (resume answer)
  | .proceed next => goes next
  | .returned | .threw => leaves

def Phase.Upholds {σ : Type} (goes : σ → Prop) (leaves : Prop) : Phase σ → Prop
  | .handling state => goes state
  | .writing _ resume => ∀ sent, goes (resume sent)
  | .receiving _ | .refusing _ | .failing _ | .finished => leaves

section Upholding

variable {σ ι : Type} {goes wider : σ → Prop} {leaves looser : Prop} {handler : Handler σ ι}
  {connection : Connection σ}

theorem Phase.Upholds.imp {phase : Phase σ} (upheld : phase.Upholds goes leaves)
    (covered : ∀ state, goes state → wider state) (left : leaves → looser) : phase.Upholds wider looser := by
  cases phase with
  | handling state => exact covered state upheld
  | writing rest resume => exact fun sent => covered _ (upheld sent)
  | receiving | refusing | failing | finished => exact left upheld

theorem Phase.Upholds.running {phase : Phase σ} (upheld : phase.Upholds goes leaves)
    (running : phase.isRunning = true) : phase.Upholds goes looser := by
  cases phase with
  | handling state => exact upheld
  | writing rest resume => exact upheld
  | receiving | refusing | failing | finished => simp [Phase.isRunning] at running

theorem Phase.upholds_idle {phase : Phase σ} (idle : phase.isRunning = false) (left : leaves) :
    phase.Upholds goes leaves := by
  cases phase with
  | handling state => simp [Phase.isRunning] at idle
  | writing rest resume => simp [Phase.isRunning] at idle
  | receiving | refusing | failing | finished => exact left

theorem Phase.Upholds.left {phase : Phase σ} (upheld : phase.Upholds goes leaves)
    (idle : phase.isRunning = false) : leaves := by
  cases phase with
  | handling state => simp [Phase.isRunning] at idle
  | writing rest resume => simp [Phase.isRunning] at idle
  | receiving | refusing | failing | finished => exact upheld

theorem handle_upholds {state : σ} (here : connection.phase = .handling state) {input : ι}
    (leads : (handler.next state input).Leads goes leaves) :
    (connection.handle handler input).phase.Upholds goes leaves := by
  have done : leaves → connection.handlerDone.phase.Upholds goes leaves := by
    intro left
    unfold Connection.handlerDone
    split
    · exact left
    · exact left
  unfold Connection.handle
  rw [here]
  simp only
  cases next : handler.next state input with
  | write data resume =>
      rw [next] at leads
      exact leads
  | askStop resume =>
      rw [next] at leads
      exact leads _
  | proceed following =>
      rw [next] at leads
      exact leads
  | returned | threw =>
      rw [next] at leads
      exact done leads

theorem headReceived_upholds (started : ∀ request, goes (handler.start request)) (left : leaves)
    (result : ReceivedHead) : (connection.headReceived handler result).phase.Upholds goes leaves := by
  unfold Connection.headReceived
  split
  · split
    · exact left
    · exact left
  · simp only
    split
    · exact started _
    · exact left

theorem receive_upholds (started : connection.phase.isRunning = false → ∀ request, goes (handler.start request))
    (upheld : connection.phase.Upholds goes leaves) (call : Recv) :
    (connection.receive handler call).phase.Upholds goes leaves := by
  unfold Connection.receive
  cases here : connection.phase with
  | receiving received =>
      have idle : connection.phase.isRunning = false := by rw [here]; rfl
      have left := upheld.left idle
      simp only
      split
      · exact left
      · exact headReceived_upholds (started idle) left _
  | refusing | handling | writing | failing | finished => exact upheld

theorem send_upholds (upheld : connection.phase.Upholds goes leaves) (answer : Sent) :
    (connection.send answer).phase.Upholds goes leaves := by
  unfold Connection.send
  cases here : connection.phase with
  | writing rest resume =>
      rw [here] at upheld
      simp only [Connection.sendMore]
      split
      · exact upheld
      · exact upheld _
  | refusing rest | failing rest =>
      rw [here] at upheld
      simp only [Connection.sendMore]
      split
      · exact upheld
      · exact upheld
  | receiving | handling | finished => exact upheld

/-- What does not come from the handler leaves it where it stands, or starts it. -/
theorem perform_upholds {action : ConnectionAction ι} (notHandle : ∀ input, action ≠ .handle input)
    (started : connection.phase.isRunning = false → ∀ request, goes (handler.start request))
    (upheld : connection.phase.Upholds goes leaves) :
    (connection.perform handler action).phase.Upholds goes leaves := by
  cases action with
  | receive call => exact receive_upholds started upheld call
  | send answer => exact send_upholds upheld answer
  | handle input => exact absurd rfl (notHandle input)
  | watch answer =>
      have same : (connection.watch answer).phase = connection.phase := by
        unfold Connection.watch
        split <;> rfl
      show (connection.watch answer).phase.Upholds goes leaves
      rw [same]
      exact upheld
  | arrive | disconnect | fail | stopServer => exact upheld

end Upholding

theorem Phase.handled_eq {σ : Type} {phase : Phase σ} {state : σ} (member : state ∈ phase.handled) :
    phase = .handling state := by
  cases phase with
  | handling other => rw [Option.some.inj member]
  | receiving | refusing | writing | failing | finished => simp [Phase.handled] at member

end NuvioEngine.Http
