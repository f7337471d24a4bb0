import NuvioEngine.Bridge.Frame
import NuvioEngine.Scheduler.DemandPlan

/-!
What one `recompute_schedule` does to the bridge's own maps: only the schedule and the anchor of
its torrent change, and the new schedule keeps the handle of the demands it was made from.
-/

namespace NuvioEngine.Bridge

open NuvioEngine.Scheduler NuvioEngine.Stream NuvioEngine.Cache

/-- Only the maps that `recompute_schedule` writes change. -/
def Recomputes (before after : BridgeState) : Prop :=
  after = { before with
    anchors := after.anchors
    currentSchedules := after.currentSchedules
    calls := after.calls
    requestedReads := after.requestedReads
    pieceWaiters := after.pieceWaiters
    partialBlocks := after.partialBlocks
    waiters := after.waiters }

namespace Recomputes

variable {first second third : BridgeState}

theorem trans (left : Recomputes first second) (right : Recomputes second third) :
    Recomputes first third := by
  unfold Recomputes at *
  rw [right, left]

theorem ofSends (sends : Sends first second) : Recomputes first second := by
  unfold Recomputes
  unfold Sends at sends
  rw [sends]

theorem routes (computes : Recomputes first second) : second.routes = first.routes :=
  (congrArg BridgeState.routes computes).trans rfl

theorem commands (computes : Recomputes first second) : second.commands = first.commands :=
  (congrArg BridgeState.commands computes).trans rfl

theorem nextDemandId (computes : Recomputes first second) :
    second.nextDemandId = first.nextDemandId :=
  (congrArg BridgeState.nextDemandId computes).trans rfl

theorem activeDemands (computes : Recomputes first second) :
    second.activeDemands = first.activeDemands :=
  (congrArg BridgeState.activeDemands computes).trans rfl

theorem revokedTorrents (computes : Recomputes first second) :
    second.revokedTorrents = first.revokedTorrents :=
  (congrArg BridgeState.revokedTorrents computes).trans rfl

end Recomputes

theorem keepAnchor_recomputes (state : BridgeState) (id : String) (plan : StreamDemandPlan) :
    Recomputes state (keepAnchor state id plan) := by
  unfold keepAnchor
  split <;> rfl

theorem storeSchedule_recomputes (state : BridgeState) (id : String) (handle : Nat)
    (previous : Option CurrentSchedule) (combined : Priorities) (plan : StreamDemandPlan)
    (applied : SortedMap Nat Nat) :
    Recomputes state (storeSchedule state id handle previous combined plan applied) :=
  rfl

theorem applyPlan_sends (state : BridgeState) (lt : Libtorrent) (id : String) (handle : Nat)
    (wanted : SortedMap Nat Nat) (plan : StreamDemandPlan) :
    ∃ sent applied, Sends state sent ∧
      applyPlan state lt id handle wanted plan =
        storeSchedule sent id handle (state.currentSchedules.lookup id)
          (fallback state id (state.currentSchedules.lookup id) (combinedOf plan)) plan applied :=
  ⟨_, _, ((sendPriorities_sends _ _ _ _ _ _).trans (sendDeadlines_sends _ _ _ _ _ _)).trans
    (sendFirstBlocks_sends _ _ _ _ _ _ _), rfl⟩

theorem recomputeSchedule_recomputes (lt : Libtorrent) (state : BridgeState) (id : String) :
    Recomputes state (recomputeSchedule lt state id) := by
  unfold recomputeSchedule
  simp only
  split
  · rfl
  · rename_i plan built
    have anchored := keepAnchor_recomputes state id plan
    split
    · exact anchored.trans rfl
    · split
      · rename_i handle found valid
        obtain ⟨sent, applied, sends, same⟩ := applyPlan_sends (keepAnchor state id plan) lt id handle
          (firstBlocksOf (collectDemands state id).1) plan
        rw [same]
        exact (anchored.trans (Recomputes.ofSends sends)).trans (storeSchedule_recomputes _ _ _ _ _ _ _)
      · exact anchored.trans rfl

theorem lookup_storeSchedule_ne {state : BridgeState} {id other : String} (different : other ≠ id)
    (handle : Nat) (previous : Option CurrentSchedule) (combined : Priorities)
    (plan : StreamDemandPlan) (applied : SortedMap Nat Nat) :
    (storeSchedule state id handle previous combined plan applied).currentSchedules.lookup other =
      state.currentSchedules.lookup other := by
  unfold storeSchedule
  simp only
  split
  · exact AList.lookup_erase_ne different
  · exact AList.lookup_insert_ne different

theorem recomputeSchedule_other (lt : Libtorrent) (state : BridgeState) {id other : String}
    (different : other ≠ id) :
    (recomputeSchedule lt state id).currentSchedules.lookup other =
      state.currentSchedules.lookup other := by
  unfold recomputeSchedule
  simp only
  split
  · rfl
  · rename_i plan built
    have kept : (keepAnchor state id plan).currentSchedules = state.currentSchedules := by
      unfold keepAnchor
      split <;> rfl
    split
    · simp only [kept]
      exact AList.lookup_erase_ne different
    · split
      · rename_i handle found valid
        obtain ⟨sent, applied, sends, same⟩ := applyPlan_sends (keepAnchor state id plan) lt id handle
          (firstBlocksOf (collectDemands state id).1) plan
        rw [same, lookup_storeSchedule_ne different, sends.currentSchedules, kept]
      · simp only [kept]
        exact AList.lookup_erase_ne different

/-- The handle `recompute_schedule` works with. -/
def chosenHandle (state : BridgeState) (id : String) : Option Nat :=
  (collectDemands state id).2.or ((state.currentSchedules.lookup id).map CurrentSchedule.handle)

/-- The torrent's own schedule is left alone, erased, or replaced by one for the chosen handle. -/
theorem recomputeSchedule_own (lt : Libtorrent) (state : BridgeState) (id : String) :
    (recomputeSchedule lt state id).currentSchedules.lookup id = state.currentSchedules.lookup id ∨
      (recomputeSchedule lt state id).currentSchedules.lookup id = none ∨
      ∃ schedule, (recomputeSchedule lt state id).currentSchedules.lookup id = some schedule ∧
        chosenHandle state id = some schedule.handle := by
  unfold recomputeSchedule
  simp only
  split
  · exact Or.inl rfl
  · rename_i plan built
    have kept : (keepAnchor state id plan).currentSchedules = state.currentSchedules := by
      unfold keepAnchor
      split <;> rfl
    split
    · exact Or.inr (Or.inl (AList.lookup_erase _ _))
    · rename_i handle found
      split
      · obtain ⟨sent, applied, sends, same⟩ := applyPlan_sends (keepAnchor state id plan) lt id handle
          (firstBlocksOf (collectDemands state id).1) plan
        rw [same]
        unfold storeSchedule
        simp only
        split
        · exact Or.inr (Or.inl (AList.lookup_erase _ _))
        · refine Or.inr (Or.inr ⟨_, AList.lookup_insert _, ?_⟩)
          rw [kept] at found
          exact found
      · exact Or.inr (Or.inl (AList.lookup_erase _ _))

theorem recomputeSchedule_erases (lt : Libtorrent) (state : BridgeState) (id : String)
    (idle : collectDemands state id = ([], none)) (unused : state.hasStreamForTorrent id = false) :
    (recomputeSchedule lt state id).currentSchedules.lookup id = none := by
  have planned : buildStreamDemandPlan [] state.window = .ok {} := rfl
  have kept : ∀ plan, (keepAnchor state id plan).hasStreamForTorrent id = false := by
    intro plan
    rw [BridgeState.hasStreamForTorrent, (keepAnchor_recomputes state id plan).routes]
    exact unused
  unfold recomputeSchedule
  simp only [idle, planned]
  split
  · exact AList.lookup_erase _ _
  · rename_i handle found
    split
    · obtain ⟨sent, applied, sends, same⟩ := applyPlan_sends (keepAnchor state id {}) lt id handle
        (firstBlocksOf []) {}
      rw [same]
      have empty : (fallback (keepAnchor state id {}) id
          ((keepAnchor state id {}).currentSchedules.lookup id) (combinedOf {})).entries = [] := by
        unfold fallback
        split
        · rfl
        · rw [if_neg (by simp [kept])]
          rfl
      unfold storeSchedule
      simp only [empty, List.isEmpty_nil, if_true]
      exact AList.lookup_erase _ _
    · exact AList.lookup_erase _ _

theorem mem_readersOf {state : BridgeState} {id : String} {demandId : Nat} {demand : ActiveDemand} :
    (demandId, demand) ∈ readersOf state id ↔
      state.activeDemands.lookup demandId = some demand ∧ demand.route.torrentId = id ∧
        demand.needsData = true := by
  simp only [readersOf, List.mem_map, List.mem_filter, ActiveDemand.waitsFor, Bool.and_eq_true,
    decide_eq_true_eq, AList.lookup_eq_some_iff]
  constructor
  · rintro ⟨⟨key, value⟩, member, same⟩
    simp only [Prod.mk.injEq] at same
    obtain ⟨rfl, rfl⟩ := same
    exact member
  · intro member
    exact ⟨⟨demandId, demand⟩, member, rfl⟩

theorem collectDemands_cases (state : BridgeState) (id : String) :
    (∃ demandId demand, (demandId, demand) ∈ readersOf state id ∧ collectDemands state id =
        ((readersOf state id).map fun reader => reader.2.toDemand reader.1 id state,
          some demand.route.handle)) ∨
      (readersOf state id = [] ∧ ∃ anchor, state.anchors.lookup id = some anchor ∧
        collectDemands state id = ([anchor.toDemand], some anchor.route.handle)) ∨
      (readersOf state id = [] ∧ state.anchors.lookup id = none ∧
        collectDemands state id = ([], none)) := by
  unfold collectDemands
  simp only
  cases last : (readersOf state id).getLast? with
  | some reader =>
      exact Or.inl ⟨reader.1, reader.2, List.mem_of_getLast? last, rfl⟩
  | none =>
      have empty := List.getLast?_eq_none_iff.mp last
      cases found : state.anchors.lookup id with
      | some anchor => exact Or.inr (Or.inl ⟨empty, anchor, rfl, rfl⟩)
      | none => exact Or.inr (Or.inr ⟨empty, rfl, rfl⟩)

theorem recomputeSchedule_anchors_eq (lt : Libtorrent) {state : BridgeState} {id : String}
    {plan : StreamDemandPlan}
    (built : buildStreamDemandPlan (collectDemands state id).1 state.window = .ok plan) :
    (recomputeSchedule lt state id).anchors = (keepAnchor state id plan).anchors := by
  simp only [recomputeSchedule, built]
  split
  · rfl
  · split
    · rename_i handle found valid
      obtain ⟨sent, applied, sends, same⟩ := applyPlan_sends (keepAnchor state id plan) lt id handle
        (firstBlocksOf (collectDemands state id).1) plan
      rw [same]
      exact sends.anchors
    · rfl

theorem recomputeSchedule_anchors (lt : Libtorrent) (state : BridgeState) (id : String)
    (positive : ∀ demandId demand, state.activeDemands.lookup demandId = some demand → 0 < demandId) :
    (recomputeSchedule lt state id).anchors = state.anchors ∨
      ∃ demandId demand, state.activeDemands.lookup demandId = some demand ∧
        demand.route.torrentId = id ∧
        (recomputeSchedule lt state id).anchors =
          state.anchors.insert id ⟨demand.route, demand.range, false⟩ := by
  cases built : buildStreamDemandPlan (collectDemands state id).1 state.window with
  | error message => exact Or.inl (by simp only [recomputeSchedule, built])
  | ok plan =>
      rw [recomputeSchedule_anchors_eq lt built]
      unfold keepAnchor
      cases found : state.activeDemands.lookup plan.focusedDemandId with
      | none => exact Or.inl rfl
      | some focused =>
          have above := positive _ _ found
          rcases collectDemands_cases state id with ⟨_, _, _, collected⟩ |
            ⟨_, anchor, _, collected⟩ | ⟨_, _, collected⟩
          · rcases buildStreamDemandPlan_focused built with ⟨empty, rfl⟩ | ⟨demand, member, same⟩
            · simp at above
            · simp only [collected, List.mem_map] at member
              obtain ⟨⟨demandId, reader⟩, listed, rfl⟩ := member
              obtain ⟨present, torrent, _⟩ := mem_readersOf.mp listed
              rw [same] at found
              obtain rfl : reader = focused := Option.some.inj (present.symm.trans found)
              exact Or.inr ⟨demandId, reader, present, torrent, rfl⟩
          · rcases buildStreamDemandPlan_focused built with ⟨empty, rfl⟩ | ⟨demand, member, same⟩
            · simp at above
            · simp only [collected, List.mem_singleton] at member
              rw [same, member] at above
              exact absurd above (lt_irrefl 0)
          · rcases buildStreamDemandPlan_focused built with ⟨empty, rfl⟩ | ⟨demand, member, same⟩
            · simp at above
            · simp [collected] at member

end NuvioEngine.Bridge
