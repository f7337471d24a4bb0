import NuvioEngine.Bridge.OperationsCore

/-!
What the bridge's helpers leave alone. `Sends` is a step that only talks to libtorrent and to
waiters; the maps of routes, demands, anchors and schedules stay as they are.
-/

namespace NuvioEngine.Bridge

open NuvioEngine.Scheduler NuvioEngine.Stream NuvioEngine.Cache

/-- Only the call log, the requested reads and the waiters with their partial blocks change. -/
def Sends (before after : BridgeState) : Prop :=
  after = { before with
    calls := after.calls
    requestedReads := after.requestedReads
    pieceWaiters := after.pieceWaiters
    partialBlocks := after.partialBlocks
    waiters := after.waiters }

namespace Sends

variable {first second third : BridgeState}

theorem refl (state : BridgeState) : Sends state state := rfl

theorem trans (left : Sends first second) (right : Sends second third) : Sends first third := by
  unfold Sends at *
  rw [right, left]

theorem routes (sends : Sends first second) : second.routes = first.routes :=
  (congrArg BridgeState.routes sends).trans rfl

theorem commands (sends : Sends first second) : second.commands = first.commands :=
  (congrArg BridgeState.commands sends).trans rfl

theorem nextDemandId (sends : Sends first second) : second.nextDemandId = first.nextDemandId :=
  (congrArg BridgeState.nextDemandId sends).trans rfl

theorem activeDemands (sends : Sends first second) : second.activeDemands = first.activeDemands :=
  (congrArg BridgeState.activeDemands sends).trans rfl

theorem anchors (sends : Sends first second) : second.anchors = first.anchors :=
  (congrArg BridgeState.anchors sends).trans rfl

theorem currentSchedules (sends : Sends first second) :
    second.currentSchedules = first.currentSchedules :=
  (congrArg BridgeState.currentSchedules sends).trans rfl

theorem revokedTorrents (sends : Sends first second) :
    second.revokedTorrents = first.revokedTorrents :=
  (congrArg BridgeState.revokedTorrents sends).trans rfl

theorem foldl {α : Type} {step : BridgeState → α → BridgeState}
    (each : ∀ state item, Sends state (step state item)) (items : List α) (state : BridgeState) :
    Sends state (items.foldl step state) := by
  induction items generalizing state with
  | nil => exact refl state
  | cons item rest ih => exact (each state item).trans (ih (step state item))

end Sends

namespace BridgeState

theorem attempt_sends {state next : BridgeState} {lt : Libtorrent} {handle : Nat} {call : LtCall}
    (sent : state.attempt lt handle call = .ok next) : Sends state next := by
  unfold attempt at sent
  split at sent
  · simp at sent
  · simp only [Except.ok.injEq] at sent
    subst sent
    rfl

theorem attemptQuietly_sends (state : BridgeState) (lt : Libtorrent) (handle : Nat) (call : LtCall) :
    Sends state (state.attemptQuietly lt handle call) := by
  unfold attemptQuietly
  split
  · exact Sends.refl state
  · rename_i next sent
    exact attempt_sends sent

theorem completeWaiter_sends (state : BridgeState) (data : Option (List UInt8)) (error : String)
    (waiter : Nat) : Sends state (state.completeWaiter data error waiter) :=
  rfl

theorem completeWaiters_sends (state : BridgeState) (data : Option (List UInt8)) (error : String)
    (waiters : List Nat) : Sends state (state.completeWaiters data error waiters) :=
  Sends.foldl (fun current waiter => completeWaiter_sends current data error waiter) waiters state

theorem publishBlocks_sends (state : BridgeState) (blocks : List Bool) (waiter : Nat) :
    Sends state (state.publishBlocks blocks waiter) :=
  rfl

theorem publishPartial_sends (state : BridgeState) (key : PieceKey) :
    Sends state (state.publishPartial key) := by
  unfold publishPartial
  split
  · exact Sends.foldl (fun current waiter => publishBlocks_sends current _ waiter) _ state
  · exact Sends.refl state

theorem dropWaiters_sends (state : BridgeState) (dropped : Nat → Bool) :
    Sends state (state.dropWaiters dropped) :=
  rfl

theorem pruneCancelledWaiters_sends (state : BridgeState) : Sends state state.pruneCancelledWaiters :=
  rfl

theorem failPiece_sends (state : BridgeState) (key : PieceKey) (error : String) :
    Sends state (state.failPiece key error) := by
  unfold failPiece
  have cleared : Sends state { state with partialBlocks := state.partialBlocks.erase key } := rfl
  simp only
  split
  · exact cleared
  · rename_i waiters found
    refine (cleared.trans (completeWaiters_sends _ none error waiters)).trans ?_
    rfl

theorem cancelDemandWaiters_sends (state : BridgeState) (demandId : Nat) (error : String) :
    Sends state (state.cancelDemandWaiters demandId error) :=
  (completeWaiters_sends state none error _).trans (dropWaiters_sends _ _)

end BridgeState

open BridgeState

theorem enqueue_cases (state : BridgeState) (command : HttpCommand) :
    (state.enqueue command).getD state = state ∨
      (state.enqueue command).getD state = { state with commands := state.commands ++ [command] } := by
  unfold BridgeState.enqueue
  split
  · exact Or.inl rfl
  · split
    · exact Or.inl rfl
    · exact Or.inr rfl

theorem sendPriorities_sends (state : BridgeState) (lt : Libtorrent) (handle : Nat)
    (previous : Option CurrentSchedule) (combined : Priorities) (cold : Bool) :
    Sends state (sendPriorities state lt handle previous combined cold) := by
  unfold sendPriorities
  split
  · exact Sends.refl state
  · exact attemptQuietly_sends state lt handle _

theorem resetDeadline_sends (lt : Libtorrent) (id : String) (handle : Nat) (state : BridgeState)
    (piece : Nat) : Sends state (resetDeadline lt id handle state piece) :=
  (attemptQuietly_sends state lt handle _).trans rfl

theorem setDeadline_sends (lt : Libtorrent) (id : String) (handle : Nat) (unchanged : Bool)
    (ordinal piece : Nat) (state : BridgeState) :
    Sends state (setDeadline lt id handle unchanged ordinal piece state) := by
  unfold setDeadline
  simp only
  split
  · exact Sends.refl state
  · split
    · exact failPiece_sends state _ _
    · rename_i sent accepted
      have reached := attempt_sends accepted
      split
      · exact reached.trans rfl
      · exact reached

theorem setDeadlines_sends (lt : Libtorrent) (id : String) (handle : Nat)
    (previousDeadlines : List Nat) (jumped : Bool) (ordinal : Nat) (pieces : List Nat)
    (state : BridgeState) :
    Sends state (setDeadlines lt id handle previousDeadlines jumped ordinal pieces state) := by
  induction pieces generalizing ordinal state with
  | nil => exact Sends.refl state
  | cons piece rest ih =>
      exact (setDeadline_sends lt id handle _ ordinal piece state).trans (ih (ordinal + 1) _)

theorem sendDeadlines_sends (state : BridgeState) (lt : Libtorrent) (id : String) (handle : Nat)
    (previousDeadlines nextDeadlines : List Nat) :
    Sends state (sendDeadlines state lt id handle previousDeadlines nextDeadlines) := by
  have resets := fun (current : BridgeState) (pieces : List Nat) =>
    Sends.foldl (fun state piece => resetDeadline_sends lt id handle state piece) pieces current
  unfold sendDeadlines
  simp only
  split
  · exact (resets state previousDeadlines).trans (setDeadlines_sends lt id handle _ _ _ _ _)
  · exact (setDeadlines_sends lt id handle _ _ _ _ _).trans (resets _ _)

theorem sendFirstBlocks_sends (lt : Libtorrent) (handle : Nat) (previous : Option CurrentSchedule)
    (jumped : Bool) (wanted : SortedMap Nat Nat) (pieces : List Nat)
    (current : BridgeState × SortedMap Nat Nat) :
    Sends current.1 (sendFirstBlocks lt handle previous jumped wanted pieces current).1 := by
  induction pieces generalizing current with
  | nil => exact Sends.refl current.1
  | cons piece rest ih =>
      obtain ⟨state, applied⟩ := current
      rw [sendFirstBlocks]
      refine Sends.trans ?_ (ih _)
      simp only
      split
      · exact attemptQuietly_sends state lt handle _
      · exact Sends.refl state

end NuvioEngine.Bridge
