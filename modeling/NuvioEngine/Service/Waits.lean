import NuvioEngine.Bridge.Backing
import NuvioEngine.Service.ThreadActions

/-!
No thread is forgotten. The demand of a thread that waits is active until the thread ends it, so the piece
that it waits for stays in the schedule of its torrent.
-/

open NuvioEngine.Http NuvioEngine.Scheduler NuvioEngine.Stream NuvioEngine.Cache NuvioEngine.Bridge

namespace NuvioEngine.Service

structure Attending (handles : Handles) (service : Service) : Prop where
  kept : service.Kept (fun _ _ => True) handles
  backed : Backed service.bridge
  ended : ∀ command ∈ service.bridge.commands, command.type = .endDemand →
    command.demandId < service.bridge.nextDemandId ∧
      ∀ thread, (service.threads thread).guard ≠ some command.demandId

section Runs

variable {handles : Handles} {service : Service}

theorem Attending.initial (begins : service.Initial) : service.Attending handles := by
  refine ⟨.initial begins, ?_, ?_⟩
  · obtain ⟨session, ⟨system, ⟨_, _, _, rfl⟩, rfl⟩, rfl⟩ := begins
    rintro key waiter ⟨list, found, _⟩
    simp [bridge, Session.bridge, BridgeState.create] at found
  · obtain ⟨session, ⟨system, ⟨_, _, _, rfl⟩, rfl⟩, rfl⟩ := begins
    simp [bridge, Session.bridge, BridgeState.create]

/-- The ends that are queued are those of demands whose waiters are finished. -/
theorem Attending.closed (attending : service.Attending handles) {command : HttpCommand}
    (queued : command ∈ service.bridge.commands) (kind : command.type = .endDemand) :
    Thread.Closed service.session command.demandId :=
  attending.kept.owned _ (attending.ended command queued kind).2

theorem Attending.work (attending : service.Attending handles) {action : Action}
    (possible : service.Possible handles (.work action)) : (service.perform (.work action)).Attending handles := by
  obtain ⟨works, feasible, answers⟩ := possible
  have busy := isWork_of_isWorker works
  have attended := reachable_attended attending.kept.reached
  refine ⟨attending.kept.perform ⟨works, feasible, answers⟩ fun _ _ _ => trivial, ?_, ?_⟩
  · exact work_backed attended attending.backed busy feasible fun command queued kind waiter below same =>
      attending.closed queued kind waiter below same
  · have step := perform_step service.session.bridge busy (fun answers same => by subst same; exact feasible)
    have same : (service.perform (.work action)).bridge.nextDemandId = service.bridge.nextDemandId := step.nextDemandId
    intro command queued kind
    rw [same]
    refine attending.ended command ?_ kind
    by_cases polls : ∃ answers, action = .poll answers
    · obtain ⟨replies, rfl⟩ := polls
      have emptied : (service.perform (.work (.poll replies))).bridge.commands = [] :=
        (poll_works service.bridge replies).commands
      rw [emptied] at queued
      simp at queued
    · have toils := perform_toils service.session.bridge busy fun answers same => polls ⟨answers, same⟩
      have kept : (service.perform (.work action)).bridge.commands = service.bridge.commands := toils.commands
      rw [← kept]
      exact queued

theorem Attending.connection (attending : service.Attending handles) {thread : Nat}
    {action : ConnectionAction Outside} (possible : service.Possible handles (.connection thread action)) :
    (service.perform (.connection thread action)).Attending handles := by
  have kept := attending.kept
  obtain ⟨moves, _⟩ := Thread.perform_moves kept.reached kept.numbered (kept.threads thread) possible
  obtain ⟨own, grows, _⟩ := moves.grows
  have spares := service.connection_spares thread action
  have held := (reachable_attended kept.reached).disciplined.held
  have demands : (service.perform (.connection thread action)).bridge.activeDemands = service.bridge.activeDemands :=
    spares.activeDemands
  refine ⟨kept.perform possible fun _ _ _ => trivial, ?_, ?_⟩
  · intro key waiter waits still
    have before : Held service.bridge key waiter := by
      obtain ⟨list, found, member⟩ := waits
      exact ⟨list, spares.pieceWaiters ▸ found, member⟩
    have old := (held key waiter before).1
    have own : ((service.perform (.connection thread action)).bridge.waiters waiter).demandId =
        (service.bridge.waiters waiter).demandId := grows.demandId waiter old
    have active := attending.backed key waiter before (unfinished_before (grows.finishes waiter old) still)
    unfold Active at active ⊢
    rw [demands, own]
    exact active
  · intro command queued kind
    rcases spares.ends command queued kind with before | new
    · obtain ⟨below, free⟩ := attending.ended command before kind
      refine ⟨below.trans_le grows.nextDemandId, fun other guard => ?_⟩
      rw [connection_threads] at guard
      split at guard
      · rcases moves.keeps command.demandId guard with own | fresh
        · exact free thread own
        · exact absurd fresh (Nat.ne_of_lt below)
      · exact free other guard
    · obtain ⟨known, gone, below⟩ := moves.ends command.demandId new
      refine ⟨below, fun other guard => ?_⟩
      rw [connection_threads] at guard
      split at guard
      · exact gone guard
      · rename_i different
        rcases known with own | fresh
        · exact kept.apart other thread different command.demandId guard own
        · have older := (kept.threads other).owns.numbered command.demandId guard
          omega

theorem reachable_attending (reached : service.Reachable handles) : service.Attending handles := by
  refine reached.invariant (fun _ begins => .initial begins) fun _ action attending possible => ?_
  cases action with
  | work action => exact attending.work possible
  | connection thread action => exact attending.connection possible

end Runs

end NuvioEngine.Service
