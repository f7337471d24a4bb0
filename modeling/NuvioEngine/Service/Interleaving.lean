import NuvioEngine.Service.Moves

/-!
The threads and the worker in any order. The threads keep the discipline that the sessions of the bridge assume,
and no two of them share a demand or a waiter.
-/

open NuvioEngine.Http NuvioEngine.Scheduler NuvioEngine.Stream NuvioEngine.Cache NuvioEngine.Bridge

namespace NuvioEngine

namespace Service

/-- What holds between the threads and the bridge. -/
structure Kept (good : PieceKey → List UInt8 → Prop) (handles : Handles) (service : Service) : Prop where
  reached : handles.Reachable service.session
  numbered : service.session.Numbered
  threads : ∀ thread, (service.threads thread).Sound good service.session
  apart : ∀ first second, first ≠ second → ∀ demandId ∈ (service.threads first).guard,
    (service.threads second).guard ≠ some demandId
  owned : ∀ demandId, (∀ thread, (service.threads thread).guard ≠ some demandId) →
    Thread.Closed service.session demandId
  stocked : ∀ key data, Cached service.bridge key data → good key data

section Runs

variable {good : PieceKey → List UInt8 → Prop} {handles : Handles} {service : Service}

theorem isWork_of_isWorker {action : Action} (works : action.isWorker = true) : Server.isWork action = true := by
  cases action with
  | beginRequest | readRequest | endRequest | abandonWaiter => simp [Action.isWorker] at works
  | _ => rfl

/-- A connection moves its own thread only. -/
theorem connection_threads (service : Service) (thread other : Nat) (action : ConnectionAction Outside) :
    (service.perform (.connection thread action)).threads other =
      if other = thread then ((service.threads thread).perform service.session action).2
      else service.threads other :=
  Function.update_apply _ _ _ _

theorem Kept.initial (begins : service.Initial) : service.Kept good handles := by
  obtain ⟨session, starts, rfl⟩ := begins
  have reached : handles.Reachable session := .start starts
  obtain ⟨system, ⟨memory, disk, inactivity, rfl⟩, rfl⟩ := starts
  refine ⟨reached, fun waiter old => absurd old (Nat.not_lt_zero _), ?_, by simp,
    fun _ _ waiter old => absurd old (Nat.not_lt_zero _), ?_⟩
  · exact fun thread => ⟨⟨by simp, by simp, by simp, by simp⟩, ⟨rfl, rfl, rfl⟩, fun _ _ _ => rfl⟩
  · rintro key data ⟨entry, found, _⟩
    simp [bridge, Session.bridge, BridgeState.create] at found

theorem Kept.perform (kept : service.Kept good handles) {action : ServiceAction}
    (possible : service.Possible handles action)
    (delivers : ∀ key data, action.Delivers key data → good key data) :
    (service.perform action).Kept good handles := by
  cases action with
  | work action =>
      obtain ⟨works, feasible, answers⟩ := possible
      have grows : Session.Grows good none service.session (service.perform (.work action)).session :=
        work_grows service.session (isWork_of_isWorker works) feasible kept.stocked delivers
      refine ⟨Thread.work_free kept.reached feasible answers, kept.numbered.grows grows (by simp), ?_, kept.apart,
        fun demandId free => (kept.owned demandId free).grows grows (by simp), grows.stocked kept.stocked⟩
      exact fun thread => (kept.threads thread).grows grows (by simp)
  | connection thread action =>
      obtain ⟨moves, sound⟩ := Thread.perform_moves kept.reached kept.numbered (kept.threads thread) possible
      obtain ⟨own, grows, begun⟩ := moves.grows
      have others : ∀ other, other ≠ thread → ∀ demandId,
          (service.threads thread).guard = some demandId ∨ demandId = service.session.bridge.nextDemandId →
            (service.threads other).guard ≠ some demandId := by
        intro other different demandId known guard
        rcases known with held | rfl
        · exact kept.apart other thread different demandId guard held
        · exact Nat.lt_irrefl _ ((kept.threads other).owns.numbered _ guard)
      refine ⟨moves.reached, moves.numbered, ?_, ?_, ?_, grows.stocked kept.stocked⟩
      · intro other
        rw [connection_threads]
        split
        · exact sound
        · rename_i different
          refine (kept.threads other).grows grows fun demandId guard same => ?_
          exact others other different demandId (begun demandId same).1 guard
      · intro first second different demandId guard
        rw [connection_threads] at guard ⊢
        split at guard
        · rename_i same
          rw [if_neg (same ▸ different.symm)]
          exact others second (same ▸ different.symm) demandId (moves.keeps demandId guard)
        · rename_i otherwise
          split
          · intro also
            exact others first otherwise demandId (moves.keeps demandId also) guard
          · exact kept.apart first second different demandId guard
      · intro demandId free
        have lost := free thread
        rw [connection_threads, if_pos rfl] at lost
        by_cases had : (service.threads thread).guard = some demandId
        · exact (moves.quits demandId had).resolve_left lost
        · have nobody : ∀ other, (service.threads other).guard ≠ some demandId := by
            intro other
            by_cases same : other = thread
            · rw [same]
              exact had
            · have unguarded := free other
              rwa [connection_threads, if_neg same] at unguarded
          by_cases new : own = some demandId
          · exact (begun demandId new).2.resolve_left lost
          · exact (kept.owned demandId nobody).grows grows new

theorem reachable_kept (reached : service.Reachable handles) : service.Kept (fun _ _ => True) handles :=
  reached.invariant (fun _ begins => .initial begins) fun _ _ kept possible =>
    kept.perform possible fun _ _ _ => trivial

end Runs

theorem threePieces_fits : 4 < 2 ^ 31 := by decide

/-- A torrent of pieces of four bytes. -/
def threePieces : TorrentInfo := ⟨3, 4, threePieces_fits, fun _ => 4, fun _ savePath => savePath ++ "/video.mp4"⟩

def calmThreePieces : BridgeState.PollAnswers :=
  ⟨fun _ => .accepting threePieces, fun _ => .accepting threePieces, .accepting threePieces, 0,
    fun _ => .accepting threePieces⟩

/-- A client asks for four bytes of a file. Its thread waits for the first piece of them, which comes, and the
client gets two of its bytes. -/
def rangeRun : List ServiceAction := [
  .work (.register (.accepting threePieces) "s" 7 "t" 0 ⟨"video.mp4", 3, 8⟩),
  .connection 0 (.arrive rangeHead), .connection 0 (.receive (.chunk rangeHead)), .connection 0 (.handle {}),
  .connection 0 (.handle {}), .connection 0 (.send (.written 300)), .connection 0 (.send (.written 10)),
  .connection 0 (.send .interrupted), .connection 0 (.handle {}), .connection 0 (.handle {}),
  .connection 0 (.handle {}), .work (.poll calmThreePieces), .connection 0 (.handle {}),
  .work (.readPieceAlert ⟨"t", 1, none, some [7, 7, 7, 7]⟩), .connection 0 (.handle {}),
  .connection 0 (.send (.written 2))]

def emptyService : Service where
  session := { system := { bridge := .create 1024 1024 0 } }

def rangeService (steps : Nat) : Service := (rangeRun.take steps).foldl perform emptyService

theorem emptyService_initial : emptyService.Initial := ⟨_, ⟨_, ⟨1024, 1024, 0, rfl⟩, rfl⟩, rfl⟩

/-- What is decided of `Possible`. -/
def Feasible (service : Service) : ServiceAction → Prop
  | .connection thread action =>
      (service.threads thread).connection.Possible (action.map ((service.threads thread).tell service.bridge))
  | .work action => action.isWorker = true ∧ service.session.system.Possible action

instance (service : Service) : DecidablePred service.Feasible
  | .connection thread action => inferInstanceAs (Decidable
      ((service.threads thread).connection.Possible (action.map ((service.threads thread).tell service.bridge))))
  | .work _ => instDecidableAnd

theorem rangeRun_answers {action : Action} (member : ServiceAction.work action ∈ rangeRun) (session : Session) :
    oneTorrent.Answers session action := by
  have cases : action = .register (.accepting threePieces) "s" 7 "t" 0 ⟨"video.mp4", 3, 8⟩ ∨
      action = .poll calmThreePieces ∨ action = .readPieceAlert ⟨"t", 1, none, some [7, 7, 7, 7]⟩ := by
    simpa [rangeRun] using member
  rcases cases with rfl | rfl | rfl
  · refine ⟨accepting_calm _, rfl, fun route made => ?_⟩
    obtain ⟨metadata, savePath, _, found, rfl⟩ := routeFor_eq_ok made
    obtain rfl : threePieces = metadata := Option.some.inj (Except.ok.inj found)
    have sized : 8 ≤ uint64Max := by decide
    have indexed : (3 + 8 - 1) / 4 ≤ uint32Max := by decide
    exact ⟨sized, indexed⟩
  · exact ⟨fun _ => accepting_calm _, fun _ => accepting_calm _, accepting_calm _, fun _ => accepting_calm _⟩
  · trivial

theorem rangeRun_possible : Transition.Runs (Possible oneTorrent) perform emptyService rangeRun := by
  have steps : Transition.Runs Feasible perform emptyService rangeRun := by decide +kernel
  refine steps.mono fun service action member feasible => ?_
  cases action with
  | connection thread action => exact feasible
  | work action => exact ⟨feasible.1, feasible.2, rangeRun_answers member service.session⟩

theorem rangeService_reachable (steps : Nat) : (rangeService steps).Reachable oneTorrent := by
  have runs := rangeRun_possible
  rw [← List.take_append_drop steps rangeRun] at runs
  exact Transition.Reachable.run (.start emptyService_initial) (Transition.runs_append.mp runs).1

end Service

end NuvioEngine
