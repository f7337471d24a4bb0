import NuvioEngine.Core.RuntimeCore
import Mathlib.Data.Prod.Lex

/-! Commands reach the backend once, in the order of their request ids, also across destruction. -/

namespace NuvioEngine.Core

open NuvioEngine.Backend

namespace EngineRuntime

theorem enqueue_rejected (runtime : EngineRuntime) (command : Command) (requestId : Nat)
    (rejected : (runtime.enqueue command requestId).1 ≠ .ok) :
    (runtime.enqueue command requestId).2 = (runtime, requestId) := by
  unfold enqueue at rejected ⊢
  split_ifs at rejected ⊢ <;> first | rfl | exact absurd rfl rejected

theorem enqueue_accepted (runtime : EngineRuntime) (command : Command) (requestId : Nat)
    (accepted : (runtime.enqueue command requestId).1 = .ok) :
    runtime.stopping = false ∧ runtime.commands.length < runtime.commandCapacity ∧
      (runtime.enqueue command requestId).2 =
        ({ runtime with
          commands := runtime.commands ++ [{ command with requestId := runtime.nextRequestId }]
          nextRequestId := runtime.nextRequestId + 1 }, runtime.nextRequestId) := by
  unfold enqueue at accepted ⊢
  split_ifs at accepted ⊢ with _ stopping full
  exact ⟨by simpa using stopping, by omega, rfl⟩

@[simp]
theorem fileEvent_commands (runtime : EngineRuntime) (event : BackendEvent) :
    (runtime.fileEvent event).commands = runtime.commands := by
  unfold fileEvent
  split <;> rfl

@[simp]
theorem fileEvent_stopping (runtime : EngineRuntime) (event : BackendEvent) :
    (runtime.fileEvent event).stopping = runtime.stopping := by
  unfold fileEvent
  split <;> rfl

@[simp]
theorem fileEvent_nextRequestId (runtime : EngineRuntime) (event : BackendEvent) :
    (runtime.fileEvent event).nextRequestId = runtime.nextRequestId := by
  unfold fileEvent
  split <;> rfl

@[simp]
theorem fileEvent_commandCapacity (runtime : EngineRuntime) (event : BackendEvent) :
    (runtime.fileEvent event).commandCapacity = runtime.commandCapacity := by
  unfold fileEvent
  split <;> rfl

theorem work_fixed (runtime : EngineRuntime) (answers : BackendAnswers) :
    (runtime.work answers).stopping = runtime.stopping ∧
      (runtime.work answers).nextRequestId = runtime.nextRequestId ∧
      (runtime.work answers).commandCapacity = runtime.commandCapacity := by
  unfold work
  split
  · unfold takeCommand
    split <;> exact ⟨rfl, rfl, rfl⟩
  · exact ⟨rfl, rfl, rfl⟩
  · split
    · exact ⟨rfl, rfl, rfl⟩
    · unfold takeEvents
      split <;> exact ⟨rfl, rfl, rfl⟩
  · split <;> exact ⟨rfl, rfl, rfl⟩
  · simp
  · exact ⟨rfl, rfl, rfl⟩
  · exact ⟨rfl, rfl, rfl⟩
  · exact ⟨rfl, rfl, rfl⟩
  · exact ⟨rfl, rfl, rfl⟩

end EngineRuntime

/-- The worker is about to shut the backend down, or did so. -/
def Worker.Ending : Worker → Prop
  | .shuttingDown | .stopped => True
  | _ => False

theorem Worker.publish_inFlight (caller : Caller) (events : List BackendEvent) :
    (Worker.publish caller events).inFlight = [] := by
  cases events <;> cases caller <;> rfl

theorem Worker.publish_ending (caller : Caller) (events : List BackendEvent) :
    ¬ (Worker.publish caller events).Ending := by
  cases events <;> cases caller <;> exact id

namespace EngineRuntime

theorem work_commands (runtime : EngineRuntime) (answers : BackendAnswers) :
    (runtime.work answers).worker.inFlight ++ (runtime.work answers).commands = runtime.commands := by
  unfold work
  split
  · unfold takeCommand
    split
    · rename_i queue
      rw [queue]
      rfl
    · rename_i queue
      simp only [queue]
      split <;> rfl
  · simp [Worker.publish_inFlight]
  · split
    · simp [Worker.publish_inFlight]
    · unfold takeEvents
      split <;> rfl
  · split <;> simp [Worker.publish_inFlight]
  · simp [Worker.inFlight]
  · rfl
  · simp [Worker.publish_inFlight, storeEvent]
  · rfl
  · rename_i stopped
    rw [stopped]
    rfl

theorem work_ending (runtime : EngineRuntime) (answers : BackendAnswers)
    (ending : (runtime.work answers).worker.Ending) :
    runtime.worker.Ending ∨ (runtime.stopping = true ∧ runtime.commands = []) := by
  revert ending
  unfold work
  split
  · unfold takeCommand
    split
    · exact fun ending => ending.elim
    · rename_i queue
      simp only
      split
      · rename_i stopping
        exact fun _ => .inr ⟨stopping, queue⟩
      · exact fun ending => ending.elim
  · exact fun ending => absurd ending (Worker.publish_ending _ _)
  · split
    · exact fun ending => ending.elim
    · unfold takeEvents
      split <;> exact fun ending => ending.elim
  · split
    · exact fun ending => ending.elim
    · exact fun ending => absurd ending (Worker.publish_ending _ _)
  · exact fun ending => ending.elim
  · exact fun ending => ending.elim
  · exact fun ending => absurd ending (Worker.publish_ending _ _)
  · rename_i closing
    rw [closing]
    exact fun _ => .inl trivial
  · rename_i closed
    rw [closed]
    exact fun _ => .inl trivial

end EngineRuntime

namespace Engine

/-- Accepted commands are executed, in the worker's hands or queued, in this order and numbered from
one on; nothing is queued any more when the worker ends. -/
structure Orderly (engine : Engine) : Prop where
  queued : engine.executed ++ engine.runtime.worker.inFlight ++ engine.runtime.commands = engine.accepted
  numbered : engine.accepted.map Command.requestId = List.range' 1 engine.accepted.length
  next : engine.runtime.nextRequestId = engine.accepted.length + 1
  bounded : engine.runtime.commands.length ≤ engine.runtime.commandCapacity
  ending : engine.runtime.worker.Ending →
    engine.runtime.stopping = true ∧ engine.runtime.commands = []
  shut : 0 < engine.shutdowns → engine.runtime.worker = .stopped

theorem Orderly.create (hasBackend : Bool) (commandCapacity eventCapacity : Nat) :
    (create hasBackend commandCapacity eventCapacity).Orderly :=
  ⟨rfl, rfl, rfl, Nat.zero_le _, fun ending => ending.elim, fun shut => absurd shut (Nat.lt_irrefl 0)⟩

@[simp]
theorem work_accepted (engine : Engine) (answers : BackendAnswers) :
    (engine.work answers).accepted = engine.accepted := by
  unfold work
  split <;> rfl

theorem work_executed (engine : Engine) (answers : BackendAnswers) :
    (engine.work answers).executed = engine.executed ++ engine.runtime.worker.inFlight := by
  unfold work
  split <;> rename_i place <;> simp [place, Worker.inFlight]

theorem work_shutdowns (engine : Engine) (answers : BackendAnswers)
    (shut : 0 < (engine.work answers).shutdowns) :
    0 < engine.shutdowns ∨ engine.runtime.worker = .shuttingDown := by
  revert shut
  unfold work
  split
  all_goals rename_i place; first | exact fun _ => .inr place | exact .inl

namespace Orderly

variable {engine : Engine}

theorem congr (orderly : engine.Orderly) {other : Engine}
    (same : other.executed = engine.executed ∧ other.accepted = engine.accepted ∧
      other.shutdowns = engine.shutdowns)
    (worker : other.runtime.worker = engine.runtime.worker)
    (commands : other.runtime.commands = engine.runtime.commands)
    (next : other.runtime.nextRequestId = engine.runtime.nextRequestId)
    (capacity : other.runtime.commandCapacity = engine.runtime.commandCapacity)
    (stopping : engine.runtime.stopping = true → other.runtime.stopping = true) : other.Orderly where
  queued := by rw [same.1, same.2.1, worker, commands, orderly.queued]
  numbered := by rw [same.2.1, orderly.numbered]
  next := by rw [next, same.2.1, orderly.next]
  bounded := by rw [commands, capacity]; exact orderly.bounded
  ending := fun ending => by
    rw [worker] at ending
    rw [commands]
    exact (orderly.ending ending).imp stopping id
  shut := fun shut => by
    rw [same.2.2] at shut
    rw [worker, orderly.shut shut]

theorem call (orderly : engine.Orderly) (thread : Nat) (command : Command) :
    (engine.call thread command).Orderly :=
  orderly.congr ⟨rfl, rfl, rfl⟩ rfl rfl rfl rfl id

theorem poll (orderly : engine.Orderly) : engine.poll.Orderly := by
  unfold Engine.poll EngineRuntime.pollEvent
  cases engine.runtime.events with
  | nil => exact orderly.congr ⟨rfl, rfl, rfl⟩ rfl rfl rfl rfl id
  | cons event rest => exact orderly.congr ⟨rfl, rfl, rfl⟩ rfl rfl rfl rfl id

theorem enqueue (orderly : engine.Orderly) (thread : Nat) : (engine.enqueue thread).Orderly := by
  unfold Engine.enqueue
  split
  · exact orderly
  · rename_i command _
    simp only
    split
    · rename_i accepted
      obtain ⟨running, room, result⟩ := engine.runtime.enqueue_accepted _ _ accepted
      rw [result]
      refine ⟨?_, ?_, ?_, ?_, fun ending => ?_, orderly.shut⟩
      · simp only [← List.append_assoc]
        rw [orderly.queued]
      · simp only [List.map_append, List.map_cons, List.map_nil, List.length_append, List.length_singleton]
        rw [orderly.numbered, orderly.next, List.range'_concat, Nat.one_mul, Nat.add_comm]
      · simp only [List.length_append, List.length_singleton]
        rw [orderly.next]
      · simp only [List.length_append, List.length_singleton]
        exact room
      · have stopped := (orderly.ending ending).1
        rw [running] at stopped
        simp at stopped
    · rename_i rejected
      rw [engine.runtime.enqueue_rejected _ _ rejected]
      exact orderly.congr ⟨rfl, rfl, rfl⟩ rfl rfl rfl rfl id

theorem work (orderly : engine.Orderly) (answers : BackendAnswers) : (engine.work answers).Orderly where
  queued := by
    rw [work_runtime, work_executed, work_accepted, List.append_assoc, EngineRuntime.work_commands]
    exact orderly.queued
  numbered := by rw [work_accepted, orderly.numbered]
  next := by rw [work_runtime, work_accepted, (engine.runtime.work_fixed answers).2.1, orderly.next]
  bounded := by
    have taken := congrArg List.length (engine.runtime.work_commands answers)
    rw [List.length_append] at taken
    have bounded := orderly.bounded
    rw [work_runtime, (engine.runtime.work_fixed answers).2.2]
    omega
  ending := fun ending => by
    rw [work_runtime] at ending ⊢
    have taken := engine.runtime.work_commands answers
    have idle : engine.runtime.stopping = true ∧ engine.runtime.commands = [] := by
      rcases engine.runtime.work_ending answers ending with before | idle
      · exact orderly.ending before
      · exact idle
    rw [idle.2] at taken
    exact ⟨(engine.runtime.work_fixed answers).1.trans idle.1, (List.append_eq_nil_iff.mp taken).2⟩
  shut := fun shut => by
    rw [work_runtime]
    rcases work_shutdowns engine answers shut with before | closing
    · simp [EngineRuntime.work, orderly.shut before]
    · simp [EngineRuntime.work, closing]

theorem perform (orderly : engine.Orderly) (action : EngineAction) : (engine.perform action).Orderly := by
  cases action with
  | addTorrent thread input => exact orderly.call thread _
  | prepareStream thread torrentId requestedIndex filenameHint =>
      simp only [Engine.perform]
      split
      · exact orderly
      · exact orderly.call thread _
  | removeTorrent thread torrentId => exact orderly.call thread _
  | stopStream thread streamId => exact orderly.call thread _
  | reclaimDiskCache thread targetBytes => exact orderly.call thread _
  | enqueue thread => exact orderly.enqueue thread
  | pollEvent => exact orderly.poll
  | wake => exact orderly.congr ⟨rfl, rfl, rfl⟩ rfl rfl rfl rfl id
  | destroy => exact orderly.congr ⟨rfl, rfl, rfl⟩ rfl rfl rfl rfl fun _ => rfl
  | work answers => exact orderly.work answers

end Orderly

theorem Reachable.orderly {engine : Engine} (reached : engine.Reachable) : engine.Orderly := by
  refine Transition.Reachable.invariant ?_ (fun _ action orderly _ => orderly.perform action) reached
  rintro _ ⟨hasBackend, commandCapacity, eventCapacity, rfl⟩
  exact .create hasBackend commandCapacity eventCapacity

end Engine

/-- How far the worker is from the next command: its place in the loop, and the sections of
`push_event` that are left there. -/
def Worker.distance : Worker → Nat ×ₗ Nat
  | .processing _ | .shuttingDown | .stopped => toLex (0, 0)
  | .waiting => toLex (1, 0)
  | .storing _ rest caller => toLex (if caller = .processCommand then 5 else 2, 3 * rest.length)
  | .stamping _ rest caller => toLex (if caller = .processCommand then 5 else 2, 3 * rest.length + 1)
  | .filing _ rest caller => toLex (if caller = .processCommand then 5 else 2, 3 * rest.length + 2)
  | .refreshing _ => toLex (3, 0)
  | .collecting => toLex (4, 0)

theorem Worker.publish_distance (caller : Caller) (events : List BackendEvent) :
    (Worker.publish caller events).distance <
      toLex (if caller = .processCommand then 5 else 2, 3 * events.length) := by
  cases events with
  | nil => cases caller <;> simp [Worker.publish, Worker.distance, Prod.Lex.toLex_lt_toLex]
  | cons event rest =>
      rw [Worker.publish, Worker.distance, Prod.Lex.toLex_lt_toLex, List.length_cons]
      exact .inr ⟨rfl, by omega⟩

namespace EngineRuntime

/-- Every step brings the worker nearer to the next command, if there is one when it looks. -/
theorem work_distance (runtime : EngineRuntime) (answers : BackendAnswers)
    (queued : runtime.worker = .waiting → runtime.commands ≠ []) (idle : runtime.worker.inFlight = [])
    (running : ¬ runtime.worker.Ending) :
    (runtime.work answers).worker.distance < runtime.worker.distance := by
  unfold work
  split
  · rename_i place
    rw [place]
    unfold takeCommand
    split
    · simp [Worker.distance, Prod.Lex.toLex_lt_toLex]
    · rename_i empty
      exact absurd empty (queued place)
  · rename_i place
    simp [place, Worker.inFlight] at idle
  · rename_i place
    rw [place]
    split
    · simp [Worker.publish, Worker.distance, Prod.Lex.toLex_lt_toLex]
    · unfold takeEvents
      split <;> simp [Worker.distance, Prod.Lex.toLex_lt_toLex]
  · rename_i place
    rw [place]
    split
    · simp [Worker.publish, Worker.distance, Prod.Lex.toLex_lt_toLex]
    · refine (Worker.publish_distance _ _).trans ?_
      simp [Worker.distance, Prod.Lex.toLex_lt_toLex]
  · rename_i place
    rw [place]
    simp [Worker.distance, Prod.Lex.toLex_lt_toLex]
  · rename_i place
    rw [place]
    simp [Worker.distance, Prod.Lex.toLex_lt_toLex]
  · rename_i place
    rw [place]
    exact Worker.publish_distance _ _
  · rename_i place
    exact absurd (by rw [place]; trivial) running
  · rename_i place
    exact absurd (by rw [place]; trivial) running

end EngineRuntime

namespace Engine

/-- A step of the worker. -/
def Works : EngineAction → Prop
  | .work _ => True
  | _ => False

/-- The commands that must be executed first, and how far the worker is from the next one. -/
def rank (count : Nat) (engine : Engine) : Nat ×ₗ Nat ×ₗ Nat :=
  toLex (count - engine.executed.length, engine.runtime.worker.distance)

theorem rank_of_others (count : Nat) (engine : Engine) {action : EngineAction} (other : ¬ Works action) :
    (engine.perform action).rank count = engine.rank count := by
  cases action with
  | prepareStream thread torrentId requestedIndex filenameHint =>
      simp only [perform]
      split <;> rfl
  | enqueue thread =>
      simp only [perform, enqueue]
      split
      · rfl
      · unfold EngineRuntime.enqueue
        split_ifs <;> rfl
  | pollEvent =>
      simp only [perform, poll, EngineRuntime.pollEvent]
      cases engine.runtime.events <;> rfl
  | work answers => exact absurd trivial other
  | addTorrent _ _ | removeTorrent _ _ | stopStream _ _ | reclaimDiskCache _ _ | wake | destroy => rfl

theorem Orderly.rank_of_work {engine : Engine} (orderly : engine.Orderly) {count : Nat}
    (some : count ≤ engine.accepted.length) (unfinished : engine.executed.length < count)
    (answers : BackendAnswers) : (engine.work answers).rank count < engine.rank count := by
  have total := congrArg List.length orderly.queued
  simp only [List.length_append] at total
  rw [rank, rank, Prod.Lex.toLex_lt_toLex, work_executed, work_runtime, List.length_append]
  by_cases idle : engine.runtime.worker.inFlight = []
  · have queued : engine.runtime.commands ≠ [] := by
      intro empty
      simp only [empty, idle, List.length_nil] at total
      omega
    have running : ¬ engine.runtime.worker.Ending := fun ending => queued (orderly.ending ending).2
    exact .inr ⟨by simp [idle], engine.runtime.work_distance answers (fun _ => queued) idle running⟩
  · have positive := List.length_pos_iff.mpr idle
    exact .inl (by omega)

theorem perform_accepted (engine : Engine) (action : EngineAction) :
    engine.accepted <+: (engine.perform action).accepted := by
  cases action with
  | prepareStream thread torrentId requestedIndex filenameHint =>
      simp only [perform]
      split <;> exact List.prefix_rfl
  | enqueue thread =>
      simp only [perform, enqueue]
      split
      · exact List.prefix_rfl
      · simp only
        split
        · exact List.prefix_append _ _
        · exact List.prefix_rfl
  | work answers =>
      have same : (engine.perform (.work answers)).accepted = engine.accepted :=
        work_accepted engine answers
      exact same ▸ List.prefix_rfl
  | addTorrent _ _ | removeTorrent _ _ | stopStream _ _ | reclaimDiskCache _ _ | pollEvent | wake
  | destroy => exact List.prefix_rfl

theorem Orderly.executed_isPrefix {engine : Engine} (orderly : engine.Orderly) :
    engine.executed <+: engine.accepted := by
  rw [← orderly.queued, List.append_assoc]
  exact List.prefix_append _ _

theorem Reachable.executes {engine : Engine} (reached : engine.Reachable) {states : Nat → Engine}
    {actions : Nat → EngineAction} (begins : states 0 = engine)
    (behaves : Transition.Behaves Possible perform states actions)
    (fair : ∀ time, ∃ later, time ≤ later ∧ Works (actions later)) :
    ∃ time, engine.accepted <+: (states time).executed := by
  have orderly : ∀ time, (states time).Orderly := fun time =>
    Reachable.orderly (behaves.reachable (begins ▸ reached) time)
  have grows : ∀ time, engine.accepted <+: (states time).accepted := by
    intro time
    induction time with
    | zero => exact begins ▸ List.prefix_rfl
    | succ time ih =>
        rw [behaves.next]
        exact ih.trans (perform_accepted _ _)
  obtain ⟨time, finished⟩ := behaves.eventually (rank engine.accepted.length)
    (fun state => state.Orderly ∧ engine.accepted.length ≤ state.accepted.length)
    (fun state => engine.accepted.length ≤ state.executed.length) Works
    (fun time => ⟨orderly time, (grows time).length_le⟩) fair (fun state action holds _ unfinished => by
      cases action with
      | work answers => exact .inl (holds.1.rank_of_work holds.2 (not_le.mp unfinished) answers)
      | _ => exact .inr ⟨rank_of_others _ state id, id⟩) 0
  exact ⟨time, List.prefix_of_prefix_length_le (grows time) (orderly time).executed_isPrefix finished⟩

theorem Orderly.executed_numbered {engine : Engine} (orderly : engine.Orderly) :
    engine.executed.map Command.requestId = List.range' 1 engine.executed.length := by
  obtain ⟨rest, all⟩ := orderly.executed_isPrefix
  have numbered := orderly.numbered
  rw [← all, List.map_append, List.length_append, ← List.range'_append_1] at numbered
  exact (List.append_inj numbered (by simp)).1

/-- Every accepted command is passed to the backend once, in the order of the request ids one, two,
three and so on; a rejected call changes nothing; the queue keeps to its capacity; and the backend is
shut down after the last accepted command. -/
theorem reachable_commands {engine : Engine} (reached : engine.Reachable) :
    engine.executed ++ engine.runtime.worker.inFlight ++ engine.runtime.commands = engine.accepted ∧
    engine.executed.map Command.requestId = List.range' 1 engine.executed.length ∧
    engine.accepted.map Command.requestId = List.range' 1 engine.accepted.length ∧
    engine.runtime.nextRequestId = engine.accepted.length + 1 ∧
    engine.runtime.commands.length ≤ engine.runtime.commandCapacity ∧
    (0 < engine.shutdowns → engine.executed = engine.accepted) ∧
    (∀ command requestId, (engine.runtime.enqueue command requestId).1 ≠ .ok →
      (engine.runtime.enqueue command requestId).2 = (engine.runtime, requestId)) ∧
    ∀ (states : Nat → Engine) (actions : Nat → EngineAction), states 0 = engine →
      Transition.Behaves Possible perform states actions →
      (∀ time, ∃ later, time ≤ later ∧ Works (actions later)) →
      ∃ time, engine.accepted <+: (states time).executed := by
  have orderly := Reachable.orderly reached
  refine ⟨orderly.queued, orderly.executed_numbered, orderly.numbered, orderly.next, orderly.bounded,
    fun shut => ?_, fun command requestId => engine.runtime.enqueue_rejected command requestId,
    fun _ _ => Reachable.executes reached⟩
  have stopped := orderly.shut shut
  have queued := orderly.queued
  rw [(orderly.ending (by rw [stopped]; trivial)).2, stopped] at queued
  simpa [Worker.inFlight] using queued

/-- A command that is queued when the destructor comes is executed before the shutdown. -/
def stoppedRun : List EngineAction :=
  [.addTorrent 0 {}, .enqueue 0, .destroy, .work {}, .work {}, .work {}, .work {}, .work {}, .work {}]

theorem reachable_commands_stopped :
    (stoppedRun.foldl perform (create true 1 1)).shutdowns = 1 ∧
      (stoppedRun.foldl perform (create true 1 1)).executed =
        (stoppedRun.foldl perform (create true 1 1)).accepted ∧
      (stoppedRun.foldl perform (create true 1 1)).accepted.map Command.requestId = [1] := by
  have begins : Initial (create true 1 1) := ⟨true, 1, 1, rfl⟩
  have reached : Reachable (stoppedRun.foldl perform (create true 1 1)) :=
    (Transition.Reachable.start begins).run
      ⟨rfl, rfl, trivial, rfl, rfl, rfl, rfl, rfl, rfl, trivial⟩
  have shut : (stoppedRun.foldl perform (create true 1 1)).shutdowns = 1 := rfl
  exact ⟨shut, (reachable_commands reached).2.2.2.2.2.1 (by rw [shut]; exact Nat.one_pos),
    (reachable_commands reached).2.2.1⟩

end Engine

end NuvioEngine.Core
