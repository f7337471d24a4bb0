import NuvioEngine.Bridge.ReadersCore
import NuvioEngine.Bridge.Mirror

/-!
What recomputing a schedule does to the reads of its torrent when no call fails: the waiters stay,
every deadline piece with a waiter is requested, and every requested deadline piece was asked for.
-/

namespace NuvioEngine.Bridge

open NuvioEngine.Scheduler NuvioEngine.Stream NuvioEngine.Cache BridgeState

section Asking

variable {handle piece : Nat}

theorem asked_append_other {calls : List (Nat × LtCall)} {other : Nat} (call : LtCall)
    (different : other ≠ handle) :
    asked handle piece (calls ++ [(other, call)]) = asked handle piece calls := by
  simp [asked, asking, different]

theorem asking_append (calls : List (Nat × LtCall)) (call : LtCall) :
    asking handle piece (calls ++ [(handle, call)]) = (asking handle piece calls).apply piece call := by
  simp [asking]

/-- A call about another piece, or about priorities or first blocks, changes nothing. -/
def Unrelated (piece : Nat) : LtCall → Prop
  | .setPieceDeadline other _ _ | .resetPieceDeadline other | .readPiece other => other ≠ piece
  | .clearPieceDeadlines => False
  | .prioritizePieces _ | .prioritizeUpdates _ | .setPieceFirstBlock _ _ => True

theorem asked_append_unrelated (calls : List (Nat × LtCall)) {call : LtCall}
    (unrelated : Unrelated piece call) :
    asked handle piece (calls ++ [(handle, call)]) = asked handle piece calls := by
  unfold asked
  rw [asking_append]
  cases call <;> simp_all [Unrelated, Asking.apply]

theorem asked_append_deadline (calls : List (Nat × LtCall)) (deadline : Nat) :
    asked handle piece (calls ++ [(handle, .setPieceDeadline piece deadline true)]) = true := by
  unfold asked
  rw [asking_append]
  simp [Asking.apply]

theorem asked_append_read (calls : List (Nat × LtCall)) :
    asked handle piece (calls ++ [(handle, .readPiece piece)]) = true := by
  unfold asked
  rw [asking_append]
  simp [Asking.apply]

end Asking

theorem attempt_accepted {state : BridgeState} {lt : Libtorrent} {handle : Nat} {call : LtCall}
    (accepts : lt.fails handle call = none) : state.attempt lt handle call =
      .ok { state with calls := state.calls ++ [(handle, call)] } := by
  rw [attempt, accepts]

theorem attemptQuietly_accepted {state : BridgeState} {lt : Libtorrent} {handle : Nat} {call : LtCall}
    (accepts : lt.fails handle call = none) : state.attemptQuietly lt handle call =
      { state with calls := state.calls ++ [(handle, call)] } := by
  rw [attemptQuietly, attempt_accepted accepts]

/-- Only the call log and the requested reads change. -/
def Requests (before after : BridgeState) : Prop :=
  after = { before with calls := after.calls, requestedReads := after.requestedReads }

theorem Requests.trans {first second third : BridgeState} (left : Requests first second)
    (right : Requests second third) : Requests first third := by
  unfold Requests at *
  rw [right, left]

def requested (state : BridgeState) (id : String) (piece : Nat) : Bool :=
  (state.requestedReads.lookup ⟨id, piece⟩).isSome

/-- What the calls for one torrent leave alone: the reads of the other torrents, and how libtorrent
was asked through the other handles. -/
structure Confined (id : String) (handle : Nat) (before after : BridgeState) : Prop where
  requests : Requests before after
  reads : ∀ other piece, other ≠ id → requested after other piece = requested before other piece
  asked : ∀ other piece, other ≠ handle →
    asked other piece after.calls = asked other piece before.calls

namespace Confined

variable {id : String} {handle : Nat} {first second third : BridgeState}

theorem refl (state : BridgeState) : Confined id handle state state :=
  ⟨rfl, fun _ _ _ => rfl, fun _ _ _ => rfl⟩

theorem trans (left : Confined id handle first second) (right : Confined id handle second third) :
    Confined id handle first third :=
  ⟨left.requests.trans right.requests,
    fun other piece different => (right.reads other piece different).trans (left.reads other piece different),
    fun other piece different =>
      (right.asked other piece different).trans (left.asked other piece different)⟩

theorem call (state : BridgeState) (call : LtCall) :
    Confined id handle state { state with calls := state.calls ++ [(handle, call)] } :=
  ⟨rfl, fun _ _ _ => rfl, fun _ _ different => asked_append_other call (Ne.symm different)⟩

theorem pieceWaiters (confined : Confined id handle first second) :
    second.pieceWaiters = first.pieceWaiters :=
  (congrArg BridgeState.pieceWaiters confined.requests).trans rfl

end Confined

section Deadlines

variable {lt : Libtorrent} {id : String} {handle : Nat}

/-- What is known about the reads of a piece that has a deadline. -/
structure Dated (id : String) (handle piece : Nat) (state : BridgeState) : Prop where
  asked : requested state id piece = true → asked handle piece state.calls = true
  requested : (state.pieceWaiters.lookup ⟨id, piece⟩).isSome → requested state id piece = true

/-- The reads of a piece stay as they are. -/
def SameReads (id : String) (handle piece : Nat) (before after : BridgeState) : Prop :=
  requested after id piece = requested before id piece ∧
    asked handle piece after.calls = asked handle piece before.calls

theorem Dated.sameReads {piece : Nat} {before after : BridgeState} (dated : Dated id handle piece before)
    (confined : Confined id handle before after) (same : SameReads id handle piece before after) :
    Dated id handle piece after := by
  constructor
  · rw [same.1, same.2]
    exact dated.asked
  · rw [same.1, confined.pieceWaiters]
    exact dated.requested

theorem setDeadline_dated (accepts : ∀ call, lt.fails handle call = none) (unchanged : Bool)
    (ordinal piece : Nat) (state : BridgeState) :
    let after := setDeadline lt id handle unchanged ordinal piece state
    Confined id handle state after ∧
      ((unchanged = true → requested state id piece = true → asked handle piece state.calls = true) →
        Dated id handle piece after) ∧
      ∀ query, query ≠ piece → SameReads id handle query state after := by
  have unrelated : ∀ query, query ≠ piece → ∀ alert,
      Unrelated query (.setPieceDeadline piece (deadlineFor ordinal) alert) :=
    fun query different alert => Ne.symm different
  unfold setDeadline
  simp only
  split
  · rename_i skipped
    simp only [Bool.and_eq_true, Bool.not_eq_true', Bool.and_eq_false_iff] at skipped
    refine ⟨Confined.refl state, fun known => ⟨known skipped.1, ?_⟩, fun _ _ => ⟨rfl, rfl⟩⟩
    intro waits
    rcases skipped.2 with none | read
    · rw [waits] at none
      simp at none
    · simpa [requested] using read
  · rw [attempt_accepted (accepts _)]
    simp only
    split
    · rename_i wants
      rw [wants]
      refine ⟨(Confined.call state _).trans ⟨rfl, ?_, fun _ _ _ => rfl⟩, fun _ => ⟨?_, ?_⟩, ?_⟩
      · intro other query different
        simp [requested, different]
      · intro _
        exact asked_append_deadline state.calls _
      · intro _
        simp [requested, AList.lookup_insert]
      · intro query different
        refine ⟨?_, asked_append_unrelated _ (unrelated query different _)⟩
        simp [requested, different]
    · rename_i unwanted
      simp only [Bool.and_eq_true, not_and, Bool.not_eq_true', Bool.not_eq_false] at unwanted
      refine ⟨Confined.call state _, fun _ => ⟨?_, ?_⟩, ?_⟩
      · intro read
        have present : (state.requestedReads.lookup ⟨id, piece⟩).isSome = true := read
        rw [present, Bool.or_true]
        exact asked_append_deadline state.calls _
      · exact unwanted
      · intro query different
        exact ⟨rfl, asked_append_unrelated _ (unrelated query different _)⟩

theorem setDeadlines_dated (accepts : ∀ call, lt.fails handle call = none)
    (previousDeadlines : List Nat) (jumped : Bool) (ordinal : Nat) (pieces : List Nat)
    (state : BridgeState) (once : pieces.Nodup) :
    let after := setDeadlines lt id handle previousDeadlines jumped ordinal pieces state
    Confined id handle state after ∧
      ((∀ piece ∈ pieces, piece ∈ previousDeadlines → requested state id piece = true →
        asked handle piece state.calls = true) → ∀ piece ∈ pieces, Dated id handle piece after) ∧
      ∀ query, query ∉ pieces → SameReads id handle query state after := by
  induction pieces generalizing ordinal state with
  | nil => exact ⟨Confined.refl state, by simp, fun _ _ => ⟨rfl, rfl⟩⟩
  | cons piece rest ih =>
      obtain ⟨absent, onceRest⟩ := List.nodup_cons.mp once
      rw [setDeadlines]
      obtain ⟨first, dated, others⟩ := setDeadline_dated accepts
        (!jumped && decide (previousDeadlines[ordinal]? = some piece)) ordinal piece state
      generalize unchangedEq : (!jumped && decide (previousDeadlines[ordinal]? = some piece)) =
        unchanged at first dated others ⊢
      generalize setDeadline lt id handle unchanged ordinal piece state = middle
        at first dated others ⊢
      obtain ⟨second, datedRest, othersRest⟩ := ih (ordinal + 1) middle onceRest
      refine ⟨first.trans second, ?_, ?_⟩
      · intro known query member
        rcases List.mem_cons.mp member with rfl | later
        · refine (dated fun kept => known query member ?_).sameReads second (othersRest query absent)
          rw [kept] at unchangedEq
          simp only [Bool.and_eq_true, decide_eq_true_eq] at unchangedEq
          exact List.mem_of_getElem? unchangedEq.2
        · refine datedRest ?_ query later
          intro other listed previous read
          have different : other ≠ piece := by
            rintro rfl
            exact absent listed
          rw [(others other different).1] at read
          rw [(others other different).2]
          exact known other (List.mem_cons_of_mem _ listed) previous read
      · intro query outside
        rw [List.mem_cons, not_or] at outside
        obtain ⟨read, same⟩ := others query outside.1
        obtain ⟨readRest, sameRest⟩ := othersRest query outside.2
        exact ⟨readRest.trans read, sameRest.trans same⟩

theorem resetDeadlines_others (accepts : ∀ call, lt.fails handle call = none) (pieces : List Nat)
    (state : BridgeState) :
    let after := pieces.foldl (resetDeadline lt id handle) state
    Confined id handle state after ∧
      ∀ query, query ∉ pieces → SameReads id handle query state after := by
  induction pieces generalizing state with
  | nil => exact ⟨Confined.refl state, fun _ _ => ⟨rfl, rfl⟩⟩
  | cons piece rest ih =>
      have here : Confined id handle state (resetDeadline lt id handle state piece) ∧
          ∀ query, query ≠ piece →
            SameReads id handle query state (resetDeadline lt id handle state piece) := by
        rw [resetDeadline, attemptQuietly_accepted (accepts _)]
        refine ⟨(Confined.call state _).trans ⟨rfl, ?_, fun _ _ _ => rfl⟩, ?_⟩
        · intro other query different
          simp [requested, different]
        · intro query different
          refine ⟨?_, asked_append_unrelated _ (Ne.symm different)⟩
          simp [requested, different]
      obtain ⟨first, others⟩ := here
      obtain ⟨second, othersRest⟩ := ih (resetDeadline lt id handle state piece)
      refine ⟨first.trans second, ?_⟩
      intro query outside
      rw [List.mem_cons, not_or] at outside
      obtain ⟨read, same⟩ := others query outside.1
      obtain ⟨readRest, sameRest⟩ := othersRest query outside.2
      exact ⟨readRest.trans read, sameRest.trans same⟩

theorem sendDeadlines_dated (id : String) (accepts : ∀ call, lt.fails handle call = none) (state : BridgeState)
    (previousDeadlines nextDeadlines : List Nat) (once : nextDeadlines.Nodup) :
    let after := sendDeadlines state lt id handle previousDeadlines nextDeadlines
    Confined id handle state after ∧
      ((∀ piece ∈ previousDeadlines, requested state id piece = true →
        asked handle piece state.calls = true) →
        ∀ piece ∈ nextDeadlines, Dated id handle piece after) := by
  unfold sendDeadlines
  simp only
  cases jumped : hasJumped previousDeadlines nextDeadlines with
  | true =>
      have disjoint := hasJumped_disjoint jumped
      simp only [if_true]
      obtain ⟨first, _⟩ := resetDeadlines_others accepts previousDeadlines state
      obtain ⟨second, dated, _⟩ := setDeadlines_dated accepts previousDeadlines true 0 nextDeadlines
        (previousDeadlines.foldl (resetDeadline lt id handle) state) once
      refine ⟨first.trans second, fun _ => dated ?_⟩
      intro piece member listed
      exact absurd member (disjoint piece listed)
  | false =>
      simp only [Bool.false_eq_true, if_false]
      obtain ⟨first, dated, _⟩ := setDeadlines_dated accepts previousDeadlines false 0 nextDeadlines
        state once
      obtain ⟨second, others⟩ := resetDeadlines_others accepts
        (previousDeadlines.filter fun piece => !nextDeadlines.contains piece)
        (setDeadlines lt id handle previousDeadlines false 0 nextDeadlines state)
      refine ⟨first.trans second, ?_⟩
      intro known piece member
      exact (dated (fun other _ listed => known other listed) piece member).sameReads second
        (others piece (by simp [member]))

end Deadlines

section Apply

variable {lt : Libtorrent} (id : String) {handle : Nat}

theorem quietCall_reads (state : BridgeState) {call : LtCall}
    (accepts : lt.fails handle call = none) (unrelated : ∀ piece, Unrelated piece call) :
    Confined id handle state (state.attemptQuietly lt handle call) ∧
      ∀ piece, SameReads id handle piece state (state.attemptQuietly lt handle call) := by
  rw [attemptQuietly_accepted accepts]
  exact ⟨Confined.call state call, fun piece => ⟨rfl, asked_append_unrelated _ (unrelated piece)⟩⟩

theorem sendPriorities_reads (accepts : ∀ call, lt.fails handle call = none) (state : BridgeState)
    (previous : Option CurrentSchedule) (combined : Priorities) (cold : Bool) :
    Confined id handle state (sendPriorities state lt handle previous combined cold) ∧
      ∀ piece, SameReads id handle piece state
        (sendPriorities state lt handle previous combined cold) := by
  have unrelated : ∀ call, priorityCall lt handle previous combined cold = some call →
      ∀ piece, Unrelated piece call := by
    intro call chosen piece
    unfold priorityCall at chosen
    split at chosen
    · split at chosen
      · rw [← Option.some.inj chosen]
        trivial
      · simp at chosen
    · simp only at chosen
      split at chosen
      · simp at chosen
      · rw [← Option.some.inj chosen]
        trivial
  unfold sendPriorities
  split
  · exact ⟨Confined.refl state, fun _ => ⟨rfl, rfl⟩⟩
  · rename_i call chosen
    exact quietCall_reads id state (accepts call) (unrelated call chosen)

theorem sendFirstBlocks_reads (accepts : ∀ call, lt.fails handle call = none)
    (previous : Option CurrentSchedule) (jumped : Bool) (wanted : SortedMap Nat Nat)
    (pieces : List Nat) (current : BridgeState × SortedMap Nat Nat) :
    let after := (sendFirstBlocks lt handle previous jumped wanted pieces current).1
    Confined id handle current.1 after ∧ ∀ piece, SameReads id handle piece current.1 after := by
  induction pieces generalizing current with
  | nil => exact ⟨Confined.refl current.1, fun _ => ⟨rfl, rfl⟩⟩
  | cons piece rest ih =>
      obtain ⟨state, applied⟩ := current
      rw [sendFirstBlocks]
      simp only
      split
      · obtain ⟨first, same⟩ := quietCall_reads id state
          (accepts (.setPieceFirstBlock piece ((wanted.lookup piece).getD 0))) (fun _ => trivial)
        obtain ⟨second, sameRest⟩ := ih (state.attemptQuietly lt handle
          (.setPieceFirstBlock piece ((wanted.lookup piece).getD 0)), _)
        exact ⟨first.trans second, fun query => ⟨(sameRest query).1.trans (same query).1,
          (sameRest query).2.trans (same query).2⟩⟩
      · exact ih (state, _)

/-- After a plan is applied its deadline pieces are requested and asked for as they should be. -/
theorem applyPlan_dated (accepts : ∀ call, lt.fails handle call = none) (state : BridgeState)
    (wanted : SortedMap Nat Nat) (plan : StreamDemandPlan) (once : plan.deadlineOrder.Nodup) :
    ∃ sent applied, Confined id handle state sent ∧
      ((∀ piece ∈ deadlinesOf (state.currentSchedules.lookup id),
          requested state id piece = true → asked handle piece state.calls = true) →
        ∀ piece ∈ plan.deadlineOrder, Dated id handle piece sent) ∧
      applyPlan state lt id handle wanted plan =
        storeSchedule sent id handle (state.currentSchedules.lookup id)
          (fallback state id (state.currentSchedules.lookup id) (combinedOf plan)) plan applied := by
  unfold applyPlan
  simp only
  obtain ⟨first, same⟩ := sendPriorities_reads id accepts state
    (state.currentSchedules.lookup id)
    (fallback state id (state.currentSchedules.lookup id) (combinedOf plan)) plan.cold
  generalize sendPriorities state lt handle (state.currentSchedules.lookup id)
    (fallback state id (state.currentSchedules.lookup id) (combinedOf plan)) plan.cold = prioritized
    at first same ⊢
  obtain ⟨second, dated⟩ := sendDeadlines_dated id accepts prioritized
    (deadlinesOf (state.currentSchedules.lookup id)) plan.deadlineOrder once
  generalize sendDeadlines prioritized lt id handle (deadlinesOf (state.currentSchedules.lookup id))
    plan.deadlineOrder = scheduled at second dated ⊢
  obtain ⟨third, kept⟩ := sendFirstBlocks_reads id accepts (state.currentSchedules.lookup id)
    (hasJumped (deadlinesOf (state.currentSchedules.lookup id)) plan.deadlineOrder) wanted
    plan.deadlineOrder (scheduled, .empty)
  refine ⟨_, _, (first.trans second).trans third, ?_, rfl⟩
  intro known piece listed
  refine (dated ?_ piece listed).sameReads third (kept piece)
  intro other member
  rw [(same other).1, (same other).2]
  exact known other member

theorem keepAnchor_schedules (state : BridgeState) (plan : StreamDemandPlan) :
    (keepAnchor state id plan).currentSchedules = state.currentSchedules := by
  unfold keepAnchor
  split <;> rfl

theorem keepAnchor_confined (state : BridgeState) (plan : StreamDemandPlan) :
    (∀ other piece, requested (keepAnchor state id plan) other piece = requested state other piece) ∧
      (keepAnchor state id plan).calls = state.calls ∧
      (keepAnchor state id plan).pieceWaiters = state.pieceWaiters ∧
      (keepAnchor state id plan).waiters = state.waiters := by
  unfold keepAnchor requested
  split <;> exact ⟨fun _ _ => rfl, rfl, rfl, rfl⟩

/-- The three outcomes of a recomputation in which no call fails: there is no plan, there is no valid
handle, or the plan is applied. -/
theorem recomputeSchedule_outcomes (accepts : ∀ handle call, lt.fails handle call = none)
    (state : BridgeState) :
    (∃ message, buildStreamDemandPlan (collectDemands state id).1 state.window = .error message ∧
      recomputeSchedule lt state id = state) ∨
    ∃ plan, buildStreamDemandPlan (collectDemands state id).1 state.window = .ok plan ∧
      (((∀ handle, chosenHandle state id = some handle → lt.isValid handle = false) ∧
        recomputeSchedule lt state id = { keepAnchor state id plan with
          currentSchedules := (keepAnchor state id plan).currentSchedules.erase id }) ∨
      ∃ handle sent applied, chosenHandle state id = some handle ∧
        Confined id handle (keepAnchor state id plan) sent ∧
        ((∀ piece ∈ deadlinesOf (state.currentSchedules.lookup id),
            requested state id piece = true → asked handle piece state.calls = true) →
          ∀ piece ∈ plan.deadlineOrder, Dated id handle piece sent) ∧
        recomputeSchedule lt state id = storeSchedule sent id handle (state.currentSchedules.lookup id)
          (fallback (keepAnchor state id plan) id (state.currentSchedules.lookup id)
            (combinedOf plan)) plan applied) := by
  unfold recomputeSchedule
  simp only
  split
  · rename_i message built
    exact Or.inl ⟨message, built, rfl⟩
  · rename_i plan built
    refine Or.inr ⟨plan, built, ?_⟩
    have kept := keepAnchor_schedules id state plan
    obtain ⟨reads, calls, _⟩ := keepAnchor_confined id state plan
    have once := (buildStreamDemandPlan_deadlines built).2.1
    rw [← kept]
    split
    · rename_i unhandled
      refine Or.inl ⟨?_, rfl⟩
      intro handle chosen
      rw [chosenHandle, ← kept, unhandled] at chosen
      simp at chosen
    · rename_i handle found
      have chosen : chosenHandle state id = some handle := by
        rw [chosenHandle, ← kept]
        exact found
      split
      · obtain ⟨sent, applied, confined, dated, same⟩ := applyPlan_dated id (accepts handle)
          (keepAnchor state id plan) (firstBlocksOf (collectDemands state id).1) plan once
        refine Or.inr ⟨handle, sent, applied, chosen, confined, ?_, same⟩
        intro known
        refine dated ?_
        intro piece listed
        rw [reads, calls]
        exact known piece listed
      · rename_i invalid
        refine Or.inl ⟨?_, rfl⟩
        intro other also
        rw [chosen] at also
        rw [← Option.some.inj also]
        simpa using invalid

end Apply

end NuvioEngine.Bridge
