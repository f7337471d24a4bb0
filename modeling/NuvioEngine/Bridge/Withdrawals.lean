import NuvioEngine.Bridge.Routing

/-!
Whatever the worker does besides reading pieces and publishing blocks, it touches waiters and partial
blocks only by failing a piece or by cancelling the waiters of a demand.
-/

namespace NuvioEngine.Bridge

open NuvioEngine.Scheduler NuvioEngine.Stream NuvioEngine.Cache BridgeState

inductive Withdraws : BridgeState → BridgeState → Prop where
  | quiet {before after : BridgeState} (waiters : after.waiters = before.waiters)
      (pieceWaiters : after.pieceWaiters = before.pieceWaiters)
      (partialBlocks : after.partialBlocks = before.partialBlocks) : Withdraws before after
  | fail (state : BridgeState) (key : PieceKey) (error : String) :
      Withdraws state (state.failPiece key error)
  | cancel (state : BridgeState) (demandId : Nat) (error : String) :
      Withdraws state (state.cancelDemandWaiters demandId error)
  | trans {first second third : BridgeState} (left : Withdraws first second)
      (right : Withdraws second third) : Withdraws first third

namespace Withdraws

theorem refl (state : BridgeState) : Withdraws state state := quiet rfl rfl rfl

theorem foldl {α : Type} {step : BridgeState → α → BridgeState}
    (each : ∀ state item, Withdraws state (step state item)) (items : List α) (state : BridgeState) :
    Withdraws state (items.foldl step state) := by
  induction items generalizing state with
  | nil => exact refl state
  | cons item rest ih => exact (each state item).trans (ih (step state item))

end Withdraws

section Recompute

variable (lt : Libtorrent) (id : String) (handle : Nat)

theorem attempt_withdraws {state next : BridgeState} {call : LtCall}
    (sent : state.attempt lt handle call = .ok next) : Withdraws state next := by
  unfold attempt at sent
  split at sent
  · simp at sent
  · simp only [Except.ok.injEq] at sent
    subst sent
    exact .quiet rfl rfl rfl

theorem attemptQuietly_withdraws (state : BridgeState) (call : LtCall) :
    Withdraws state (state.attemptQuietly lt handle call) := by
  unfold attemptQuietly
  split
  · exact .refl state
  · rename_i next sent
    exact attempt_withdraws lt handle sent

theorem sendPriorities_withdraws (state : BridgeState) (previous : Option CurrentSchedule)
    (combined : Priorities) (cold : Bool) :
    Withdraws state (sendPriorities state lt handle previous combined cold) := by
  unfold sendPriorities
  split
  · exact .refl state
  · exact attemptQuietly_withdraws lt handle state _

theorem resetDeadline_withdraws (state : BridgeState) (piece : Nat) :
    Withdraws state (resetDeadline lt id handle state piece) :=
  (attemptQuietly_withdraws lt handle state _).trans (.quiet rfl rfl rfl)

theorem setDeadline_withdraws (unchanged : Bool) (ordinal piece : Nat) (state : BridgeState) :
    Withdraws state (setDeadline lt id handle unchanged ordinal piece state) := by
  unfold setDeadline
  simp only
  split
  · exact .refl state
  · split
    · exact .fail state _ _
    · rename_i sent accepted
      have asks := attempt_withdraws lt handle accepted
      split
      · exact asks.trans (.quiet rfl rfl rfl)
      · exact asks

theorem setDeadlines_withdraws (previousDeadlines : List Nat) (jumped : Bool) (ordinal : Nat)
    (pieces : List Nat) (state : BridgeState) :
    Withdraws state (setDeadlines lt id handle previousDeadlines jumped ordinal pieces state) := by
  induction pieces generalizing ordinal state with
  | nil => exact .refl state
  | cons piece rest ih =>
      rw [setDeadlines]
      exact (setDeadline_withdraws lt id handle _ ordinal piece state).trans (ih _ _)

theorem sendDeadlines_withdraws (state : BridgeState) (previousDeadlines nextDeadlines : List Nat) :
    Withdraws state (sendDeadlines state lt id handle previousDeadlines nextDeadlines) := by
  have resets := fun (current : BridgeState) (pieces : List Nat) =>
    Withdraws.foldl (fun state piece => resetDeadline_withdraws lt id handle state piece) pieces current
  unfold sendDeadlines
  simp only
  split
  · exact (resets _ _).trans (setDeadlines_withdraws lt id handle _ _ _ _ _)
  · exact (setDeadlines_withdraws lt id handle _ _ _ _ _).trans (resets _ _)

theorem sendFirstBlocks_withdraws (previous : Option CurrentSchedule) (jumped : Bool)
    (wanted : SortedMap Nat Nat) (pieces : List Nat) (current : BridgeState × SortedMap Nat Nat) :
    Withdraws current.1 (sendFirstBlocks lt handle previous jumped wanted pieces current).1 := by
  induction pieces generalizing current with
  | nil => exact .refl current.1
  | cons piece rest ih =>
      obtain ⟨state, applied⟩ := current
      rw [sendFirstBlocks]
      refine Withdraws.trans ?_ (ih _)
      simp only
      split
      · exact attemptQuietly_withdraws lt handle state _
      · exact .refl state

theorem applyPlan_withdraws (state : BridgeState) (wanted : SortedMap Nat Nat)
    (plan : StreamDemandPlan) : Withdraws state (applyPlan state lt id handle wanted plan) := by
  have prioritized := sendPriorities_withdraws lt handle state (state.currentSchedules.lookup id)
    (fallback state id (state.currentSchedules.lookup id) (combinedOf plan)) plan.cold
  have scheduled := prioritized.trans (sendDeadlines_withdraws lt id handle _
    (deadlinesOf (state.currentSchedules.lookup id)) plan.deadlineOrder)
  have placed := scheduled.trans (sendFirstBlocks_withdraws lt handle
    (state.currentSchedules.lookup id)
    (hasJumped (deadlinesOf (state.currentSchedules.lookup id)) plan.deadlineOrder) wanted
    plan.deadlineOrder (_, SortedMap.empty))
  exact placed.trans (.quiet rfl rfl rfl)

theorem keepAnchor_withdraws (state : BridgeState) (plan : StreamDemandPlan) :
    Withdraws state (keepAnchor state id plan) := by
  unfold keepAnchor
  split
  · exact .refl state
  · exact .quiet rfl rfl rfl

theorem recomputeSchedule_withdraws (state : BridgeState) :
    Withdraws state (recomputeSchedule lt state id) := by
  unfold recomputeSchedule
  simp only
  split
  · exact .refl state
  · split
    · exact (keepAnchor_withdraws id state _).trans (.quiet rfl rfl rfl)
    · split
      · exact (keepAnchor_withdraws id state _).trans (applyPlan_withdraws lt id _ _ _ _)
      · exact (keepAnchor_withdraws id state _).trans (.quiet rfl rfl rfl)

end Recompute

section Operations

variable (lt : Libtorrent) (state : BridgeState)

theorem cancelDemandState_withdraws (demandState : Option Nat) :
    Withdraws state (state.cancelDemandState demandState) := by
  unfold cancelDemandState
  split
  · exact .refl state
  · exact .quiet rfl rfl rfl

theorem setNeedsData_withdraws (demandId : Nat) (needsData : Bool) :
    Withdraws state (state.setNeedsData demandId needsData) := by
  unfold setNeedsData
  split
  · exact .refl state
  · exact .quiet rfl rfl rfl

theorem requestRead_withdraws (handle : Nat) (key : PieceKey) :
    Withdraws state (state.requestRead lt handle key) := by
  unfold requestRead
  split
  · exact .refl state
  · split
    · rename_i sent accepted
      exact (attempt_withdraws lt handle accepted).trans (.quiet rfl rfl rfl)
    · exact .fail state key _

theorem stopped_withdraws (streamId : String) : Withdraws state (stopped state streamId) := by
  have each : ∀ (current : BridgeState) (entry : Sigma fun _ : Nat => ActiveDemand),
      Withdraws current (current.stopDemand entry.1 entry.2) := fun current entry =>
    ((cancelDemandState_withdraws current entry.2.state).trans
      (.cancel _ entry.1 "stream was stopped")).trans (.quiet rfl rfl rfl)
  refine Withdraws.trans ?_ (Withdraws.foldl each _ _)
  exact .quiet rfl rfl rfl

theorem stopStream_withdraws (streamId : String) :
    Withdraws state (stopStream lt state streamId).1 := by
  have stops := stopped_withdraws state streamId
  unfold stopStream
  simp only
  split
  · exact stops
  · exact stops.trans (recomputeSchedule_withdraws lt _ _)

theorem addRoute_withdraws (route : StreamRoute) : Withdraws state (addRoute lt state route) := by
  have stops : Withdraws state (vacated lt state route) :=
    Withdraws.foldl (fun current streamId => stopStream_withdraws lt current streamId) _ _
  unfold addRoute
  simp only
  split
  · split
    · exact stops.trans (.quiet rfl rfl rfl)
    · refine Withdraws.trans (stops.trans ?_) (recomputeSchedule_withdraws lt route.torrentId _)
      exact .quiet rfl rfl rfl
  · exact stops.trans (.quiet rfl rfl rfl)

theorem recomputeAll_withdraws (recompute : String → Libtorrent) (changed : List String) :
    Withdraws state (changed.foldl (fun current id =>
      recomputeSchedule (recompute id) current id) state) :=
  Withdraws.foldl (fun current id => recomputeSchedule_withdraws (recompute id) id current) changed state

theorem reissueStalledReads_withdraws : Withdraws state (state.reissueStalledReads lt) := by
  have each : ∀ current key, Withdraws current (reissueRead lt current key) := by
    intro current key
    unfold reissueRead
    split
    · exact .refl current
    · split
      · exact .refl current
      · split
        · split
          · rename_i sent accepted
            exact (attempt_withdraws lt _ accepted).trans (.quiet rfl rfl rfl)
          · exact .refl current
        · exact .refl current
  unfold reissueStalledReads
  split
  · exact .refl state
  · refine Withdraws.trans ?_ (Withdraws.foldl each _ _)
    exact .quiet rfl rfl rfl

theorem expireInactiveStreams_withdraws (now : Nat) (answers : String → Libtorrent) :
    Withdraws state (state.expireInactiveStreams now answers) := by
  have each : ∀ current stream, Withdraws current (expireStream answers current stream) := by
    intro current stream
    have unanchored : Withdraws current (current.eraseAnchor stream.streamId) := .quiet rfl rfl rfl
    exact (unanchored.trans (recomputeSchedule_withdraws (answers stream.torrentId) stream.torrentId
      _)).trans (.quiet rfl rfl rfl)
  unfold expireInactiveStreams
  split
  · exact .refl state
  · refine Withdraws.trans ?_ (Withdraws.foldl each _ _)
    exact .quiet rfl rfl rfl

end Operations

end NuvioEngine.Bridge
