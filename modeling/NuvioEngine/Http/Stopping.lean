import NuvioEngine.Http.Server

/-!
What holds while `stop` is under way: from the section that empties the queue on, no connection is
queued or handed to a worker, every handler that still runs has lost its socket, and behind the joins
nothing is left.
-/

namespace NuvioEngine.Http

/-- `stop` has closed the listener. -/
def Stopper.deaf : Stopper → Bool
  | draining | joiningAccepter | joiningWorkers _ | returned => true
  | idle | requestingAccepter | requestingWorkers _ | closingListener => false

/-- The number of workers whose token `stop` has fired. -/
def Stopper.told (workerCount : Nat) : Stopper → Nat
  | idle | requestingAccepter => 0
  | requestingWorkers index => index
  | closingListener | draining | joiningAccepter | joiningWorkers _ | returned => workerCount

/-- `stop` has joined the accept loop. -/
def Stopper.joinedAccepter : Stopper → Bool
  | joiningWorkers _ | returned => true
  | idle | requestingAccepter | requestingWorkers _ | closingListener | draining
  | joiningAccepter => false

/-- The number of workers that `stop` has joined. -/
def Stopper.joined (workerCount : Nat) : Stopper → Nat
  | joiningWorkers index => index
  | returned => workerCount
  | idle | requestingAccepter | requestingWorkers _ | closingListener | draining
  | joiningAccepter => 0

namespace Server

structure Stopping (server : Server) : Prop where
  announced : server.stopping = decide (server.stopper ≠ .idle)
  deaf : server.stopper.deaf = true → server.listening = false
  told : ∀ index < server.stopper.told server.workerCount, server.workerToken index = true
  emptied : server.stopper.drained = true → server.queue = []
  silenced : server.stopper.drained = true → ∀ index socket,
    server.worker index = .handling socket → server.shut socket = true
  holding : ∀ index socket, (server.worker index).socket = some socket → socket ∈ server.active
  unstarted : ∀ index, server.workerCount ≤ index → server.worker index = .checking
  joinedAccepter : server.stopper.joinedAccepter = true → server.accepter = .returned
  joined : ∀ index < server.stopper.joined server.workerCount, server.worker index = .returned

/-- What the accept loop leaves alone; the queue only while `stop` has not begun. -/
structure AcceptFrame (server next : Server) : Prop where
  workerCount : next.workerCount = server.workerCount
  worker : next.worker = server.worker
  workerToken : next.workerToken = server.workerToken
  stopper : next.stopper = server.stopper
  stopping : next.stopping = server.stopping
  listening : next.listening = server.listening
  active : next.active = server.active
  served : next.served = server.served
  queue : server.stopping = true → next.queue = server.queue
  shut : ∀ socket, server.shut socket = true → next.shut socket = true
  returned : server.accepter = .returned → next.accepter = .returned

/-- What a worker leaves alone; the queue and the list of served connections only while `stop` has
not begun. -/
structure WorkFrame (index : Nat) (server next : Server) : Prop where
  workerCount : next.workerCount = server.workerCount
  accepter : next.accepter = server.accepter
  accepted : next.accepted = server.accepted
  workerToken : next.workerToken = server.workerToken
  stopper : next.stopper = server.stopper
  stopping : next.stopping = server.stopping
  listening : next.listening = server.listening
  others : ∀ other ≠ index, next.worker other = server.worker other
  returned : server.worker index = .returned → next.worker index = .returned
  queue : server.stopping = true → next.queue = server.queue
  served : server.stopping = true → next.served = server.served
  handling : server.stopping = true → ∀ socket, next.worker index = .handling socket →
    server.worker index = .handling socket
  shut : ∀ socket, server.shut socket = true → next.shut socket = true

section Frames

variable {server : Server}

theorem closeSocket_shut (server : Server) (socket query : Nat) (before : server.shut query = true) :
    (server.closeSocket socket).shut query = true := by
  simp only [closeSocket, Function.update_apply]
  split
  · rfl
  · exact before

theorem closeShared_frame (server : Server) (socket : Nat) :
    ∃ shut closes shared, server.closeShared socket =
        { server with shut := shut, closes := closes, shared := shared } ∧
      ∀ query, server.shut query = true → shut query = true := by
  unfold closeShared
  split
  · exact ⟨_, _, _, rfl, fun query before => closeSocket_shut server socket query before⟩
  · exact ⟨_, _, _, rfl, fun _ before => before⟩

theorem acceptLoop_frame (server : Server) (succeeds : Bool) :
    AcceptFrame server (server.acceptLoop succeeds) := by
  unfold acceptLoop
  split
  case h_5 socket here =>
    split
    · constructor <;> grind
    · have shut := closeSocket_shut server socket
      constructor <;> grind [closeSocket]
  case h_7 socket here =>
    obtain ⟨shut, closes, shared, same, kept⟩ := closeShared_frame server socket
    rw [same]
    constructor <;> grind
  all_goals constructor <;> grind

theorem workerLoop_frame (server : Server) (index : Nat) :
    WorkFrame index server (server.workerLoop index) := by
  unfold workerLoop setWorker
  split
  case h_2 here =>
    split
    · constructor <;> grind [Function.update_apply]
    · split
      · constructor <;> grind
      · constructor <;> grind [Function.update_apply]
  case h_4 socket here =>
    obtain ⟨shut, closes, shared, same, kept⟩ := closeShared_frame server socket
    rw [same]
    constructor <;> grind [Function.update_apply]
  case h_5 socket here =>
    obtain ⟨shut, closes, shared, same, kept⟩ :=
      closeShared_frame { server with active := server.active.erase socket } socket
    rw [same]
    constructor <;> grind [Function.update_apply]
  all_goals constructor <;> grind [Function.update_apply]

/-- A worker's connection is in the set of active ones until the worker erases it; no other worker
has the same one. -/
theorem workerLoop_holding (consistent : server.Consistent)
    (holding : ∀ other socket, (server.worker other).socket = some socket → socket ∈ server.active)
    (index : Nat) :
    ∀ other socket, ((server.workerLoop index).worker other).socket = some socket →
      socket ∈ (server.workerLoop index).active := by
  have alone := consistent.alone
  have mine := holding index
  unfold workerLoop setWorker
  split
  case h_2 here =>
    split
    · grind [Function.update_apply, Worker.socket]
    · split
      · exact holding
      · grind [Function.update_apply, Worker.socket]
  case h_4 socket here =>
    obtain ⟨shut, closes, shared, same, _⟩ := closeShared_frame server socket
    rw [same]
    grind [Function.update_apply, Worker.socket]
  case h_5 socket here =>
    obtain ⟨shut, closes, shared, same, _⟩ :=
      closeShared_frame { server with active := server.active.erase socket } socket
    have own := alone index
    rw [same]
    grind [Function.update_apply, Worker.socket]
  all_goals grind [Function.update_apply, Worker.socket]

end Frames

section Stopping

variable {server : Server}

theorem Stopping.initial (begins : server.Initial) : server.Stopping := by
  obtain ⟨capacity, workerCount, accepter, _, rfl⟩ := begins
  constructor <;> simp [Stopper.deaf, Stopper.told, Stopper.drained, Stopper.joinedAccepter,
    Stopper.joined, Worker.socket]

/-- Behind the section that empties the queue, and before it, `stop` has announced itself. -/
theorem Stopping.announced_of_drained (stopping : server.Stopping)
    (drained : server.stopper.drained = true) : server.stopping = true := by
  rw [stopping.announced, decide_eq_true_eq]
  rintro idle
  simp [idle, Stopper.drained] at drained

theorem Stopping.acceptLoop (stopping : server.Stopping) (succeeds : Bool) :
    (server.acceptLoop succeeds).Stopping := by
  have frame := acceptLoop_frame server succeeds
  have announced := stopping.announced_of_drained
  constructor
  · rw [frame.stopping, frame.stopper]
    exact stopping.announced
  · rw [frame.stopper, frame.listening]
    exact stopping.deaf
  · rw [frame.stopper, frame.workerCount, frame.workerToken]
    exact stopping.told
  · rw [frame.stopper]
    intro drained
    rw [frame.queue (announced drained)]
    exact stopping.emptied drained
  · rw [frame.stopper, frame.worker]
    intro drained index socket handling
    exact frame.shut socket (stopping.silenced drained index socket handling)
  · rw [frame.worker, frame.active]
    exact stopping.holding
  · rw [frame.workerCount, frame.worker]
    exact stopping.unstarted
  · rw [frame.stopper]
    intro joined
    exact frame.returned (stopping.joinedAccepter joined)
  · rw [frame.stopper, frame.workerCount, frame.worker]
    exact stopping.joined

theorem Stopping.workerLoop (stopping : server.Stopping) (consistent : server.Consistent)
    {index : Nat} (started : index < server.workerCount) : (server.workerLoop index).Stopping := by
  have frame := workerLoop_frame server index
  have announced := stopping.announced_of_drained
  constructor
  · rw [frame.stopping, frame.stopper]
    exact stopping.announced
  · rw [frame.stopper, frame.listening]
    exact stopping.deaf
  · rw [frame.stopper, frame.workerCount, frame.workerToken]
    exact stopping.told
  · rw [frame.stopper]
    intro drained
    rw [frame.queue (announced drained)]
    exact stopping.emptied drained
  · rw [frame.stopper]
    intro drained other socket handling
    apply frame.shut
    by_cases same : other = index
    · subst same
      exact stopping.silenced drained other socket
        (frame.handling (announced drained) socket handling)
    · rw [frame.others other same] at handling
      exact stopping.silenced drained other socket handling
  · exact workerLoop_holding consistent stopping.holding index
  · rw [frame.workerCount]
    intro other beyond
    rw [frame.others other (by omega)]
    exact stopping.unstarted other beyond
  · rw [frame.stopper, frame.accepter]
    exact stopping.joinedAccepter
  · rw [frame.stopper, frame.workerCount]
    intro other below
    have returned := stopping.joined other below
    by_cases same : other = index
    · subst same
      exact frame.returned returned
    · rw [frame.others other same]
      exact returned

theorem drain_frame (consistent : server.Consistent) :
    ∃ shut closes shared, server.drain =
        { server with shut := shut, closes := closes, shared := shared, queue := [] } ∧
      ∀ socket ∈ server.active, socket ∉ server.queue → server.shared socket = true →
        shut socket = true := by
  obtain ⟨shut, same⟩ := foldl_closeShared server.queue consistent.distinct
    fun socket member => (consistent.queued socket member).2.2.2
  refine ⟨_, _, _, by rw [drain, same], ?_⟩
  intro socket active unqueued shared
  simp [active, unqueued, shared]

theorem Stopping.drain_silenced (stopping : server.Stopping) (consistent : server.Consistent)
    {index socket : Nat} (handling : server.worker index = .handling socket) :
    server.drain.shut socket = true := by
  obtain ⟨shut, closes, shared, same, silenced⟩ := drain_frame consistent
  have mine := consistent.working index socket (by rw [handling]; rfl)
  rw [handling] at mine
  rw [same]
  refine silenced socket (stopping.holding index socket (by rw [handling]; rfl)) ?_ mine.2.2.2
  exact fun queued => (consistent.queued socket queued).2.1 mine.2.1

theorem Stopping.stop (stopping : server.Stopping) (consistent : server.Consistent) :
    server.stop.Stopping := by
  have silenced := @drain_silenced server stopping consistent
  obtain ⟨shut, closes, shared, same, _⟩ := drain_frame consistent
  rw [same] at silenced
  obtain ⟨announced, deaf, told, emptied, quiet, holding, unstarted, accepter, joined⟩ := stopping
  unfold Server.stop
  split
  case h_5 here =>
    rw [same]
    constructor <;>
      simp only [here, Stopper.deaf, Stopper.told, Stopper.drained, Stopper.joinedAccepter,
        Stopper.joined] at * <;> grind
  all_goals
    rename_i here
    (repeat' split) <;> constructor <;>
      simp only [here, Stopper.deaf, Stopper.told, Stopper.drained, Stopper.joinedAccepter,
        Stopper.joined, Function.update_apply] at * <;> grind

end Stopping

section Reachable

variable {server : Server}

theorem Reachable.consistent (reached : Reachable server) :
    server.Consistent ∧ server.Stopping := by
  refine @Transition.Reachable.invariant _ _ Initial Possible perform
    (fun server => server.Consistent ∧ server.Stopping)
    (fun _ begins => ⟨Consistent.initial begins, Stopping.initial begins⟩) ?_ server reached
  rintro before action ⟨consistent, stopping⟩ possible
  cases action with
  | accepter succeeds => exact ⟨consistent.acceptLoop succeeds, stopping.acceptLoop succeeds⟩
  | worker index => exact ⟨consistent.workerLoop index, stopping.workerLoop consistent possible⟩
  | stop => exact ⟨consistent.stop, stopping.stop consistent⟩

theorem stop_drained (drained : server.stopper.drained = true) :
    server.stop.stopper.drained = true ∧ server.stop.queue = server.queue ∧
      server.stop.served = server.served ∧ server.stop.accepted = server.accepted := by
  unfold stop
  split <;> rename_i here <;> simp only [here, Stopper.drained, Bool.false_eq_true] at drained
  all_goals (repeat' split) <;> simp [here, Stopper.drained]

theorem acceptLoop_deaf (deaf : server.listening = false) {succeeds : Bool}
    (possible : server.Possible (.accepter succeeds)) :
    (server.acceptLoop succeeds).accepted = server.accepted := by
  have fails : server.accepter = .accepting → succeeds = true → server.listening = true := possible
  unfold acceptLoop closeShared closeSocket
  grind

theorem drained_step (stopping : server.Stopping) (drained : server.stopper.drained = true)
    {action : ServerAction} (possible : server.Possible action) :
    (server.perform action).stopper.drained = true ∧ (server.perform action).queue = server.queue ∧
      (server.perform action).served = server.served ∧
      (server.perform action).accepted = server.accepted := by
  have announced := stopping.announced_of_drained drained
  cases action with
  | accepter succeeds =>
      have frame := acceptLoop_frame server succeeds
      have deaf : server.listening = false := by
        apply stopping.deaf
        cases here : server.stopper <;> simp [here, Stopper.drained, Stopper.deaf] at drained ⊢
      exact ⟨by rw [perform, frame.stopper, drained], frame.queue announced, frame.served,
        acceptLoop_deaf deaf possible⟩
  | worker index =>
      have frame := workerLoop_frame server index
      exact ⟨by rw [perform, frame.stopper, drained], frame.queue announced, frame.served announced,
        frame.accepted⟩
  | stop => exact stop_drained drained

theorem drained_run (reached : Reachable server) (drained : server.stopper.drained = true)
    (actions : List ServerAction) (runs : Transition.Runs Possible perform server actions) :
    (actions.foldl perform server).queue = [] ∧
      (actions.foldl perform server).served = server.served ∧
      (actions.foldl perform server).accepted = server.accepted := by
  induction actions generalizing server with
  | nil => exact ⟨reached.consistent.2.emptied drained, rfl, rfl⟩
  | cons action rest ih =>
      obtain ⟨still, _, served, accepted⟩ := drained_step reached.consistent.2 drained runs.1
      obtain ⟨queue, later, count⟩ := ih (reached.step action runs.1) still runs.2
      exact ⟨queue, later.trans served, count.trans accepted⟩

theorem Consistent.owner (consistent : server.Consistent) {socket : Nat}
    (opened : server.Open socket) : ∃! owner, server.Owns socket owner := by
  obtain ⟨accepting, queued, working, alone, kept, _, _, _, _, _⟩ := consistent
  have known := kept socket opened.1
  have unclosed := opened.2
  rcases known with held | waiting | ⟨index, held⟩ | gone
  · refine ⟨.accepter, held, ?_⟩
    rintro (_ | _ | index) owns
    · rfl
    · exact absurd owns (accepting socket held).2.1
    · exact absurd (working index socket owns).2.1 (accepting socket held).2.2.1
  · refine ⟨.queue, waiting, ?_⟩
    rintro (_ | _ | index) owns
    · exact absurd waiting (accepting socket owns).2.1
    · rfl
    · exact absurd (working index socket owns).2.1 (queued socket waiting).2.1
  · refine ⟨.worker index, held, ?_⟩
    rintro (_ | _ | other) owns
    · exact absurd (working index socket held).2.1 (accepting socket owns).2.2.1
    · exact absurd (working index socket held).2.1 (queued socket owns).2.1
    · rw [alone other index socket owns held]
  · omega

theorem Consistent.closes_le (consistent : server.Consistent) (socket : Nat) :
    server.closes socket ≤ 1 := by
  by_cases born : socket < server.accepted
  · rcases consistent.kept socket born with held | waiting | ⟨index, held⟩ | gone
    · rw [(consistent.accepting socket held).2.2.2.1]
      exact Nat.zero_le 1
    · rw [(consistent.queued socket waiting).2.2.1]
      exact Nat.zero_le 1
    · rw [(consistent.working index socket held).2.2.1]
      split <;> decide
    · exact gone.1.le
  · rw [(consistent.unborn socket (Nat.le_of_not_lt born)).1]
    exact Nat.zero_le 1

theorem Stopping.ended (stopping : server.Stopping) (returned : server.stopper = .returned) :
    server.queue = [] ∧ server.accepter = .returned ∧ ∀ index,
      (server.worker index).socket = none := by
  refine ⟨stopping.emptied (by rw [returned]; rfl), stopping.joinedAccepter (by rw [returned]; rfl),
    fun index => ?_⟩
  by_cases started : index < server.workerCount
  · rw [stopping.joined index (by rw [returned]; exact started)]
    rfl
  · rw [stopping.unstarted index (Nat.le_of_not_lt started)]
    rfl

/-- In whatever order the accept loop, the workers and `stop` take their steps: an open socket has
one owner, a connection is handed to one worker at most and handled by one, each socket is closed at
most once, and the queue keeps to its capacity. Once `stop` has emptied the queue, no later step
queues, hands over or accepts a connection and every running handler has lost its socket and been told
to stop; when `stop` returns, every accepted socket is closed and no handler runs. -/
theorem connections_owned (reached : Reachable server) :
    (∀ socket, server.Open socket → ∃! owner, server.Owns socket owner) ∧
    (∀ first second socket, server.worker first = .handling socket →
      server.worker second = .handling socket → first = second) ∧
    server.served.Nodup ∧
    (∀ socket, server.closes socket ≤ 1) ∧
    server.queue.length ≤ server.capacity ∧
    (server.stopper.drained = true →
      (∀ index socket, server.worker index = .handling socket →
        server.shut socket = true ∧ server.workerToken index = true) ∧
      ∀ actions, Transition.Runs Possible perform server actions →
        (actions.foldl perform server).queue = [] ∧
        (actions.foldl perform server).served = server.served ∧
        (actions.foldl perform server).accepted = server.accepted) ∧
    (server.stopper = .returned →
      (∀ socket < server.accepted, server.closes socket = 1) ∧
      ∀ index socket, server.worker index ≠ .handling socket) := by
  obtain ⟨consistent, stopping⟩ := reached.consistent
  refine ⟨fun _ opened => consistent.owner opened, ?_, consistent.once, consistent.closes_le,
    consistent.bounded, ?_, ?_⟩
  · intro first second socket here there
    exact consistent.alone first second socket (by rw [here]; rfl) (by rw [there]; rfl)
  · intro drained
    refine ⟨fun index socket handling => ⟨stopping.silenced drained index socket handling, ?_⟩,
      fun actions runs => drained_run reached drained actions runs⟩
    have started : index < server.workerCount := by
      by_contra beyond
      rw [stopping.unstarted index (Nat.le_of_not_lt beyond)] at handling
      simp at handling
    apply stopping.told
    cases here : server.stopper <;> simp [here, Stopper.drained] at drained <;> exact started
  · intro returned
    obtain ⟨queue, accepter, workers⟩ := stopping.ended returned
    refine ⟨fun socket born => ?_, fun index socket handling => ?_⟩
    · rcases consistent.kept socket born with held | waiting | ⟨index, held⟩ | gone
      · simp [accepter, Accepter.socket] at held
      · simp [queue] at waiting
      · simp [workers index] at held
      · exact gone.1
    · have none := workers index
      rw [handling] at none
      simp [Worker.socket] at none

/-- A connection is being handled when `stop` comes. -/
theorem connections_owned_oneHandler :
    let actions : List ServerAction :=
      List.replicate 5 (.accepter true) ++ [.worker 0, .worker 0] ++ List.replicate 6 .stop ++
        [.accepter true] ++ List.replicate 4 (.worker 0) ++ List.replicate 3 .stop
    let server := actions.foldl perform { capacity := 1, workerCount := 1 }
    server.stopper = .returned ∧ server.accepted = 1 ∧ server.served = [0] ∧
      server.closes 0 = 1 := by
  intro actions server
  have reached : Reachable server :=
    (Transition.Reachable.start ⟨1, 1, .checking, .inl rfl, rfl⟩).run (by decide +kernel)
  have returned : server.stopper = .returned := by decide +kernel
  have accepted : server.accepted = 1 := by decide +kernel
  have served : server.served = [0] := by decide +kernel
  obtain ⟨_, _, _, _, _, _, ended⟩ := connections_owned reached
  exact ⟨returned, accepted, served, (ended returned).1 0 (by rw [accepted]; decide)⟩

end Reachable

end Server

end NuvioEngine.Http
