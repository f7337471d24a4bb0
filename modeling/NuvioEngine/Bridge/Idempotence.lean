import NuvioEngine.Bridge.Asked
import NuvioEngine.Bridge.Consistency
import NuvioEngine.Scheduler.Filled

/-!
Recomputing a schedule a second time changes nothing: the second run compares its plan with what the
first one stored.
-/

namespace NuvioEngine.Bridge

open NuvioEngine.Scheduler NuvioEngine.Stream NuvioEngine.Cache BridgeState

section First

variable {lt : Libtorrent} {id : String} {handle : Nat}

/-- A piece with a waiter has been requested. -/
def Awaited (id : String) (state : BridgeState) (piece : Nat) : Prop :=
  (state.pieceWaiters.lookup ⟨id, piece⟩).isSome → requested state id piece = true

theorem Awaited.sameReads {piece : Nat} {before after : BridgeState} (awaited : Awaited id before piece)
    (confined : Confined id handle before after) (same : SameReads id handle piece before after) :
    Awaited id after piece := by
  unfold Awaited
  rw [confined.pieceWaiters, same.1]
  exact awaited

theorem setDeadline_awaited (id : String) (accepts : ∀ call, lt.fails handle call = none) (unchanged : Bool)
    (ordinal piece : Nat) (state : BridgeState) :
    Awaited id (setDeadline lt id handle unchanged ordinal piece state) piece := by
  intro waits
  have confined : Confined id handle state (setDeadline lt id handle unchanged ordinal piece state) :=
    (setDeadline_dated accepts unchanged ordinal piece state).1
  rw [confined.pieceWaiters] at waits
  unfold setDeadline
  simp only [waits, Bool.true_and, Bool.not_not]
  split
  · rename_i skipped
    simp only [Bool.and_eq_true] at skipped
    exact skipped.2
  · rw [attempt_accepted (accepts _)]
    simp only
    split
    · simp [requested, AList.lookup_insert]
    · rename_i known
      simpa [requested, Option.isSome_iff_ne_none] using known

theorem setDeadlines_awaited (id : String) (accepts : ∀ call, lt.fails handle call = none)
    (previousDeadlines : List Nat) (jumped : Bool) (ordinal : Nat) (pieces : List Nat)
    (state : BridgeState) (once : pieces.Nodup) : ∀ piece ∈ pieces,
      Awaited id (setDeadlines lt id handle previousDeadlines jumped ordinal pieces state) piece := by
  induction pieces generalizing ordinal state with
  | nil => simp
  | cons piece rest ih =>
      obtain ⟨absent, onceRest⟩ := List.nodup_cons.mp once
      rw [setDeadlines]
      intro query member
      rcases List.mem_cons.mp member with rfl | later
      · have set := setDeadline_awaited id accepts
          (!jumped && decide (previousDeadlines[ordinal]? = some query)) ordinal query state
        obtain ⟨confined, _, others⟩ := setDeadlines_dated accepts previousDeadlines jumped
          (ordinal + 1) rest _ onceRest
        exact set.sameReads confined (others query absent)
      · exact ih (ordinal + 1) _ onceRest query later

theorem sendDeadlines_awaited (id : String) (accepts : ∀ call, lt.fails handle call = none)
    (state : BridgeState) (previousDeadlines nextDeadlines : List Nat) (once : nextDeadlines.Nodup) :
    ∀ piece ∈ nextDeadlines,
      Awaited id (sendDeadlines state lt id handle previousDeadlines nextDeadlines) piece := by
  intro piece member
  unfold sendDeadlines
  simp only
  split
  · exact setDeadlines_awaited id accepts previousDeadlines _ 0 nextDeadlines _ once piece member
  · have set := setDeadlines_awaited id accepts previousDeadlines
      (hasJumped previousDeadlines nextDeadlines) 0 nextDeadlines state once piece member
    obtain ⟨confined, others⟩ := resetDeadlines_others accepts
      (previousDeadlines.filter fun piece => !nextDeadlines.contains piece) _
    exact set.sameReads confined (others piece (by simp [member]))

def applyBlock (wanted : SortedMap Nat Nat) (applied : SortedMap Nat Nat) (piece : Nat) :
    SortedMap Nat Nat :=
  if (wanted.lookup piece).getD 0 > 0 then applied.insert piece ((wanted.lookup piece).getD 0)
  else applied

/-- The first blocks that a plan leaves behind. -/
def appliedBlocks (wanted : SortedMap Nat Nat) (pieces : List Nat) (applied : SortedMap Nat Nat) :
    SortedMap Nat Nat :=
  pieces.foldl (applyBlock wanted) applied

theorem sendFirstBlocks_applied (previous : Option CurrentSchedule) (jumped : Bool)
    (wanted : SortedMap Nat Nat) (pieces : List Nat) (state : BridgeState) (applied : SortedMap Nat Nat) :
    (sendFirstBlocks lt handle previous jumped wanted pieces (state, applied)).2 =
      appliedBlocks wanted pieces applied := by
  induction pieces generalizing state applied with
  | nil => rfl
  | cons piece rest ih => exact ih _ _

theorem lookup_applyBlock (wanted applied : SortedMap Nat Nat) (first piece : Nat) :
    ((applyBlock wanted applied first).lookup piece).getD 0 =
      if first = piece ∧ (wanted.lookup piece).getD 0 > 0 then (wanted.lookup piece).getD 0
      else (applied.lookup piece).getD 0 := by
  unfold applyBlock
  by_cases same : first = piece
  · subst same
    simp only [true_and]
    split
    · rw [SortedMap.lookup_insert, if_pos rfl, Option.getD_some]
    · rfl
  · simp only [same, false_and, if_false]
    split
    · rw [SortedMap.lookup_insert, if_neg same]
    · rfl

theorem lookup_appliedBlocks (wanted : SortedMap Nat Nat) (pieces : List Nat)
    (applied : SortedMap Nat Nat) {piece : Nat}
    (known : (applied.lookup piece).getD 0 = 0 ∧ piece ∈ pieces ∨
      (applied.lookup piece).getD 0 = (wanted.lookup piece).getD 0) :
    ((appliedBlocks wanted pieces applied).lookup piece).getD 0 = (wanted.lookup piece).getD 0 := by
  induction pieces generalizing applied with
  | nil => simpa [appliedBlocks] using known
  | cons first rest ih =>
      refine ih _ ?_
      rw [lookup_applyBlock]
      split
      · exact .inr rfl
      · rename_i kept
        rcases known with ⟨zero, listed⟩ | already
        · rcases List.mem_cons.mp listed with rfl | later
          · exact .inr (by simp only [true_and] at kept; omega)
          · exact .inl ⟨zero, later⟩
        · exact .inr already

theorem applyPlan_settles (id : String) (accepts : ∀ call, lt.fails handle call = none)
    (state : BridgeState) (wanted : SortedMap Nat Nat) (plan : StreamDemandPlan) (once : plan.deadlineOrder.Nodup) :
    ∃ sent, Requests state sent ∧ (∀ piece ∈ plan.deadlineOrder, Awaited id sent piece) ∧
      applyPlan state lt id handle wanted plan =
        storeSchedule sent id handle (state.currentSchedules.lookup id)
          (fallback state id (state.currentSchedules.lookup id) (combinedOf plan)) plan
          (appliedBlocks wanted plan.deadlineOrder SortedMap.empty) := by
  unfold applyPlan
  simp only [sendFirstBlocks_applied]
  obtain ⟨first, _⟩ := sendPriorities_reads id accepts state (state.currentSchedules.lookup id)
    (fallback state id (state.currentSchedules.lookup id) (combinedOf plan)) plan.cold
  generalize sendPriorities state lt handle (state.currentSchedules.lookup id)
    (fallback state id (state.currentSchedules.lookup id) (combinedOf plan)) plan.cold = prioritized
    at first ⊢
  obtain ⟨second, _⟩ := sendDeadlines_dated id accepts prioritized
    (deadlinesOf (state.currentSchedules.lookup id)) plan.deadlineOrder once
  have awaited := sendDeadlines_awaited id accepts prioritized
    (deadlinesOf (state.currentSchedules.lookup id)) plan.deadlineOrder once
  generalize sendDeadlines prioritized lt id handle (deadlinesOf (state.currentSchedules.lookup id))
    plan.deadlineOrder = scheduled at second awaited ⊢
  obtain ⟨third, kept⟩ := sendFirstBlocks_reads id accepts (state.currentSchedules.lookup id)
    (hasJumped (deadlinesOf (state.currentSchedules.lookup id)) plan.deadlineOrder) wanted
    plan.deadlineOrder (scheduled, .empty)
  exact ⟨_, ((first.trans second).trans third).requests,
    fun piece listed => (awaited piece listed).sameReads third (kept piece), rfl⟩

end First

section Second

variable {lt : Libtorrent} {id : String} {handle : Nat}

theorem priorityUpdates_self (schedule : CurrentSchedule) :
    priorityUpdates schedule schedule.priorities schedule.cold = [] := by
  have found : ∀ entry ∈ schedule.priorities.entries,
      schedule.priorities.lookup entry.1 = some entry.2 := fun entry member =>
    (SortedMap.lookup_eq_some_iff _ _ _).mpr member
  unfold priorityUpdates
  rw [List.append_eq_nil_iff, List.filterMap_eq_nil_iff, List.filterMap_eq_nil_iff]
  constructor
  · intro entry member
    simp [found entry member]
  · intro entry member
    simp [found entry member]

theorem hasJumped_self (deadlines : List Nat) : hasJumped deadlines deadlines = false := by
  cases deadlines with
  | nil => rfl
  | cons piece rest => simp [hasJumped]

theorem setDeadlines_quiet (previousDeadlines : List Nat) (ordinal : Nat) (pieces : List Nat)
    (state : BridgeState) (awaited : ∀ piece ∈ pieces, Awaited id state piece)
    (same : ∀ index piece, pieces[index]? = some piece →
      previousDeadlines[ordinal + index]? = some piece) :
    setDeadlines lt id handle previousDeadlines false ordinal pieces state = state := by
  induction pieces generalizing ordinal with
  | nil => rfl
  | cons piece rest ih =>
      have here : previousDeadlines[ordinal]? = some piece := same 0 piece rfl
      have quiet : setDeadline lt id handle true ordinal piece state = state := by
        unfold setDeadline
        simp only [Bool.true_and]
        rw [if_pos]
        have known := awaited piece List.mem_cons_self
        unfold Awaited requested at known
        cases waits : (state.pieceWaiters.lookup ⟨id, piece⟩).isSome with
        | false => rfl
        | true => simp [known waits]
      rw [setDeadlines]
      simp only [here, decide_true, Bool.not_false, Bool.and_self, quiet]
      refine ih (ordinal + 1) (fun query member => awaited query (List.mem_cons_of_mem _ member)) ?_
      intro index query found
      rw [show ordinal + 1 + index = ordinal + (index + 1) by omega]
      exact same (index + 1) query found

theorem sendDeadlines_quiet (state : BridgeState) (deadlines : List Nat)
    (awaited : ∀ piece ∈ deadlines, Awaited id state piece) :
    sendDeadlines state lt id handle deadlines deadlines = state := by
  have none : (deadlines.filter fun piece => !deadlines.contains piece) = [] := by
    rw [List.filter_eq_nil_iff]
    intro piece member
    simpa using member
  unfold sendDeadlines
  simp only [hasJumped_self, Bool.false_eq_true, if_false, none, List.foldl_nil]
  exact setDeadlines_quiet deadlines 0 deadlines state awaited fun index piece found => by
    rw [Nat.zero_add]
    exact found

theorem sendFirstBlocks_quiet (previous : Option CurrentSchedule) (jumped : Bool)
    (wanted : SortedMap Nat Nat) (pieces : List Nat) (state : BridgeState) (applied : SortedMap Nat Nat)
    (same : ∀ piece ∈ pieces, (wanted.lookup piece).getD 0 = previousBlock previous jumped piece)
    (listed : ∀ piece ∈ pieces, piece ∈ deadlinesOf previous) :
    (sendFirstBlocks lt handle previous jumped wanted pieces (state, applied)).1 = state := by
  induction pieces generalizing applied with
  | nil => rfl
  | cons piece rest ih =>
      rw [sendFirstBlocks, if_neg]
      · exact ih _ (fun query member => same query (List.mem_cons_of_mem _ member))
          fun query member => listed query (List.mem_cons_of_mem _ member)
      · rintro (different | ⟨_, absent⟩)
        · exact different (same piece List.mem_cons_self)
        · have present := listed piece List.mem_cons_self
          simp [present] at absent

theorem relax_relax (priority : PriorityClass) : relax (relax priority) = relax priority := by
  cases priority <;> rfl

theorem fallback_again (id : String) {state next : BridgeState} (routes : next.routes = state.routes)
    (previous : Option CurrentSchedule) (base : Priorities) (stored : CurrentSchedule)
    (same : stored.priorities = fallback state id previous base)
    (filled : (fallback state id previous base).entries ≠ []) :
    fallback next id (some stored) base = fallback state id previous base := by
  have streams : next.hasStreamForTorrent id = state.hasStreamForTorrent id := by
    rw [hasStreamForTorrent, routes, hasStreamForTorrent]
  rw [fallback, streams, same]
  by_cases kept : base.entries.isEmpty ∧ state.hasStreamForTorrent id
  · simp only [kept, and_self, if_true]
    cases previous with
    | none => exact absurd (List.isEmpty_iff.mp kept.1) filled
    | some schedule =>
        simp only [fallback, kept, and_self, if_true]
        refine SortedMap.ext_lookup fun key => ?_
        simp only [SortedMap.lookup_mapValues, Option.map_map]
        congr 1
        exact funext relax_relax
  · rw [if_neg kept]
    cases previous with
    | none => rfl
    | some schedule => rw [fallback, if_neg kept]

theorem applyPlan_quiet {state : BridgeState} {wanted : SortedMap Nat Nat} {plan : StreamDemandPlan}
    {stored : CurrentSchedule} {schedules : HashMap String CurrentSchedule}
    (inserted : state.currentSchedules = schedules.insert id stored)
    (awaited : ∀ piece ∈ plan.deadlineOrder, Awaited id state piece)
    (kept : fallback state id (some stored) (combinedOf plan) = stored.priorities)
    (filled : stored.priorities.entries ≠ []) (handled : stored.handle = handle)
    (order : stored.deadlineOrder = plan.deadlineOrder)
    (focused : stored.focusedDemandId = plan.focusedDemandId) (cold : stored.cold = plan.cold)
    (blocks : stored.firstBlocks = appliedBlocks wanted plan.deadlineOrder SortedMap.empty) :
    applyPlan state lt id handle wanted plan = state := by
  have previous : state.currentSchedules.lookup id = some stored := by
    rw [inserted]
    exact AList.lookup_insert _
  have prioritized : sendPriorities state lt handle (some stored) stored.priorities plan.cold = state := by
    simp only [sendPriorities, priorityCall, ← cold, priorityUpdates_self, List.isEmpty_nil, if_true]
  have placed : (sendFirstBlocks lt handle (some stored) false wanted plan.deadlineOrder
      (state, SortedMap.empty)).1 = state := by
    refine sendFirstBlocks_quiet _ _ _ _ _ _ ?_ ?_
    · intro piece member
      simp only [previousBlock, Bool.false_eq_true, if_false, blocks]
      exact (lookup_appliedBlocks wanted plan.deadlineOrder _ (.inl ⟨rfl, member⟩)).symm
    · intro piece member
      simpa [deadlinesOf, order] using member
  unfold applyPlan
  simp only [previous, kept, prioritized, deadlinesOf, Option.elim_some, order, hasJumped_self,
    sendDeadlines_quiet state plan.deadlineOrder awaited, placed, sendFirstBlocks_applied]
  have revision : nextRevision (some stored) stored.priorities plan = stored.revision := by
    simp [nextRevision, order, focused]
  unfold storeSchedule
  rw [revision, if_neg (by simpa using filled), ← blocks, ← order, ← focused, ← cold, ← handled,
    inserted, AList.insert_insert, ← inserted]

end Second

section Twice

/-- What a plan relies on: readers are numbered from one, and every file that is read or anchored has
bytes and a 64-bit offset. -/
structure Plannable (state : BridgeState) : Prop where
  readers : ∀ demandId demand, state.activeDemands.lookup demandId = some demand →
    0 < demandId ∧ 0 < demand.route.fileSize ∧ demand.route.fileOffset ≤ uint64Max
  anchors : ∀ id anchor, state.anchors.lookup id = some anchor →
    0 < anchor.route.fileSize ∧ anchor.route.fileOffset ≤ uint64Max

theorem reachable_plannable {system : System} (reached : system.Reachable)
    (fits : ∀ route ∈ system.registered, route.fileOffset ≤ uint64Max) : Plannable system.bridge := by
  have consistent := reachable_consistent reached
  constructor
  · intro demandId demand found
    obtain ⟨positive, sized, _, routed⟩ := consistent.routing.demands demandId demand found
    exact ⟨positive, sized, fits _ (consistent.known _ _ routed)⟩
  · intro id anchor found
    obtain ⟨_, sized, routed⟩ := consistent.routing.anchors id anchor (fun impossible => impossible) found
    exact ⟨sized, fits _ (consistent.known _ _ routed)⟩

variable {state after : BridgeState} {id : String} {plan : StreamDemandPlan}

theorem Plannable.demands (plannable : Plannable state) (id : String) :
    ∀ demand ∈ (collectDemands state id).1, 0 < demand.fileSize ∧ demand.fileOffset ≤ uint64Max := by
  intro demand member
  rcases collectDemands_cases state id with ⟨_, _, _, collected⟩ | ⟨_, anchor, found, collected⟩ |
    ⟨_, _, collected⟩
  · simp only [collected, List.mem_map] at member
    obtain ⟨⟨demandId, reader⟩, listed, rfl⟩ := member
    exact (plannable.readers demandId reader (mem_readersOf.mp listed).1).2
  · simp only [collected, List.mem_singleton] at member
    obtain rfl := member
    exact plannable.anchors id anchor found
  · simp [collected] at member

theorem Plannable.keepAnchor_idle (plannable : Plannable state)
    (built : buildStreamDemandPlan (collectDemands state id).1 state.window = .ok plan)
    (idle : readersOf state id = []) : keepAnchor state id plan = state := by
  have unfocused : plan.focusedDemandId = 0 := by
    rcases buildStreamDemandPlan_focused built with ⟨_, rfl⟩ | ⟨demand, member, same⟩
    · rfl
    · rcases collectDemands_cases state id with ⟨_, _, listed, _⟩ | ⟨_, anchor, _, collected⟩ |
        ⟨_, _, collected⟩
      · simp [idle] at listed
      · simp only [collected, List.mem_singleton] at member
        rw [same, member]
        rfl
      · simp [collected] at member
  unfold keepAnchor
  cases found : state.activeDemands.lookup plan.focusedDemandId with
  | none => rfl
  | some focused =>
      have positive := (plannable.readers _ focused found).1
      omega

/-- What the first run leaves: the anchor is kept, and otherwise only the schedules, the calls and the
requested reads have changed. -/
def FirstRun (state : BridgeState) (id : String) (plan : StreamDemandPlan) (after : BridgeState) : Prop :=
  after = { keepAnchor state id plan with
    currentSchedules := after.currentSchedules
    calls := after.calls
    requestedReads := after.requestedReads }

namespace FirstRun

theorem ofRequests {sent : BridgeState} (requests : Requests (keepAnchor state id plan) sent)
    (schedules : HashMap String CurrentSchedule) :
    FirstRun state id plan { sent with currentSchedules := schedules } := by
  have same := congrArg (fun next : BridgeState => { next with currentSchedules := schedules }) requests
  exact same

theorem anchors (ran : FirstRun state id plan after) :
    after.anchors = (keepAnchor state id plan).anchors :=
  (congrArg BridgeState.anchors ran).trans rfl

theorem activeDemands (ran : FirstRun state id plan after) :
    after.activeDemands = state.activeDemands :=
  (congrArg BridgeState.activeDemands ran).trans (keepAnchor_recomputes state id plan).activeDemands

theorem window (ran : FirstRun state id plan after) : after.window = state.window :=
  (congrArg BridgeState.window ran).trans
    ((congrArg BridgeState.window (keepAnchor_recomputes state id plan)).trans rfl)

theorem partialBlocks (ran : FirstRun state id plan after) :
    after.partialBlocks = state.partialBlocks := by
  refine (congrArg BridgeState.partialBlocks ran).trans ?_
  unfold keepAnchor
  split <;> rfl

theorem collectDemands_eq (ran : FirstRun state id plan after) (plannable : Plannable state)
    (built : buildStreamDemandPlan (collectDemands state id).1 state.window = .ok plan) :
    collectDemands after id = collectDemands state id := by
  have readers : readersOf after id = readersOf state id := by
    rw [readersOf, ran.activeDemands, readersOf]
  have told : ∀ demandId (demand : ActiveDemand),
      demand.toDemand demandId id after = demand.toDemand demandId id state := by
    intro demandId demand
    unfold ActiveDemand.toDemand
    rw [ran.partialBlocks]
  unfold collectDemands
  simp only [readers, told]
  cases last : (readersOf state id).getLast? with
  | some reader => rfl
  | none =>
      rw [ran.anchors, plannable.keepAnchor_idle built (List.getLast?_eq_none_iff.mp last)]

theorem keepAnchor_eq (ran : FirstRun state id plan after) : keepAnchor after id plan = after := by
  have anchored := ran.anchors
  unfold keepAnchor at anchored ⊢
  cases found : state.activeDemands.lookup plan.focusedDemandId with
  | none =>
      rw [← ran.activeDemands] at found
      simp only [found]
  | some focused =>
      simp only [found] at anchored
      rw [← ran.activeDemands] at found
      simp only [found]
      rw [anchored, AList.insert_insert, ← anchored]

theorem recompute {lt : Libtorrent} (ran : FirstRun state id plan after)
    (plannable : Plannable state)
    (built : buildStreamDemandPlan (collectDemands state id).1 state.window = .ok plan) :
    recomputeSchedule lt after id =
      match (collectDemands state id).2.or
        ((after.currentSchedules.lookup id).map CurrentSchedule.handle) with
      | none => { after with currentSchedules := after.currentSchedules.erase id }
      | some handle =>
          if lt.isValid handle then
            applyPlan after lt id handle (firstBlocksOf (collectDemands state id).1) plan
          else { after with currentSchedules := after.currentSchedules.erase id } := by
  have planned : buildStreamDemandPlan (collectDemands state id).1 after.window = .ok plan := by
    rw [ran.window, built]
  unfold recomputeSchedule
  simp only [ran.collectDemands_eq plannable built, planned, ran.keepAnchor_eq] <;> rfl

theorem recompute_erased {lt : Libtorrent} (ran : FirstRun state id plan after)
    (plannable : Plannable state)
    (built : buildStreamDemandPlan (collectDemands state id).1 state.window = .ok plan)
    (erased : after.currentSchedules.lookup id = none)
    (invalid : ∀ handle, (collectDemands state id).2 = some handle → lt.isValid handle = false) :
    recomputeSchedule lt after id = after := by
  rw [ran.recompute plannable built, erased, Option.map_none, Option.or_none,
    AList.erase_of_lookup erased]
  cases chosen : (collectDemands state id).2 with
  | none => rfl
  | some handle => simp only [invalid handle chosen, Bool.false_eq_true, if_false]

theorem recompute_stored {lt : Libtorrent} {sent : BridgeState} {stored : CurrentSchedule}
    (requests : Requests (keepAnchor state id plan) sent) (plannable : Plannable state)
    (built : buildStreamDemandPlan (collectDemands state id).1 state.window = .ok plan)
    (awaited : ∀ piece ∈ plan.deadlineOrder, Awaited id sent piece)
    (chosen : (collectDemands state id).2.or (some stored.handle) = some stored.handle)
    (valid : lt.isValid stored.handle = true)
    (kept : ∀ next : BridgeState, next.routes = sent.routes →
      fallback next id (some stored) (combinedOf plan) = stored.priorities)
    (filled : stored.priorities.entries ≠ []) (order : stored.deadlineOrder = plan.deadlineOrder)
    (focused : stored.focusedDemandId = plan.focusedDemandId) (cold : stored.cold = plan.cold)
    (blocks : stored.firstBlocks = appliedBlocks (firstBlocksOf (collectDemands state id).1)
      plan.deadlineOrder SortedMap.empty) :
    recomputeSchedule lt { sent with currentSchedules := sent.currentSchedules.insert id stored } id =
      { sent with currentSchedules := sent.currentSchedules.insert id stored } := by
  rw [(FirstRun.ofRequests requests _).recompute plannable built, AList.lookup_insert, Option.map_some,
    chosen]
  simp only [valid, if_true]
  exact applyPlan_quiet rfl awaited (kept _ rfl) filled rfl order focused cold blocks

end FirstRun

theorem combinedOf_ne_nil
    (built : buildStreamDemandPlan (collectDemands state id).1 state.window = .ok plan)
    (filled : plan.pieces ≠ []) (next : BridgeState) (previous : Option CurrentSchedule) :
    (fallback next id previous (combinedOf plan)).entries ≠ [] := by
  have once := (buildStreamDemandPlan_deadlines built).1
  obtain ⟨entry, rest, listed⟩ := List.exists_cons_of_ne_nil filled
  have member : ⟨entry.piece, entry.priority⟩ ∈ plan.pieces := by simp [listed]
  rw [fallback_eq_combinedOf once member]
  exact List.ne_nil_of_mem
    ((SortedMap.lookup_eq_some_iff _ _ _).mp ((lookup_combinedOf once _ _).mpr member))

theorem Plannable.unhandled (plannable : Plannable state)
    (built : buildStreamDemandPlan (collectDemands state id).1 state.window = .ok plan)
    (empty : plan.pieces = []) : (collectDemands state id).2 = none := by
  have none : (collectDemands state id).1 = [] := by
    by_contra some
    exact buildStreamDemandPlan_ne_nil built (plannable.demands id) some empty
  rcases collectDemands_cases state id with ⟨demandId, demand, listed, collected⟩ |
    ⟨_, anchor, _, collected⟩ | ⟨_, _, collected⟩
  · rw [collected, List.map_eq_nil_iff] at none
    simp [none] at listed
  · simp [collected] at none
  · rw [collected]

theorem Plannable.applied {lt later : Libtorrent} {handle : Nat} (plannable : Plannable state)
    (built : buildStreamDemandPlan (collectDemands state id).1 state.window = .ok plan)
    (accepts : ∀ call, lt.fails handle call = none) (valid : later.isValid handle = true)
    (chosen : (collectDemands state id).2.or (((keepAnchor state id plan).currentSchedules.lookup id).map
      CurrentSchedule.handle) = some handle) :
    recomputeSchedule later (applyPlan (keepAnchor state id plan) lt id handle
        (firstBlocksOf (collectDemands state id).1) plan) id =
      applyPlan (keepAnchor state id plan) lt id handle (firstBlocksOf (collectDemands state id).1) plan := by
  obtain ⟨sent, requests, awaited, same⟩ := applyPlan_settles id accepts
    (keepAnchor state id plan) (firstBlocksOf (collectDemands state id).1) plan
    (buildStreamDemandPlan_deadlines built).2.1
  have routes : sent.routes = (keepAnchor state id plan).routes :=
    (congrArg BridgeState.routes requests).trans rfl
  rw [same]
  generalize (keepAnchor state id plan).currentSchedules.lookup id = previous at chosen ⊢
  have again := fun (next : BridgeState) (kept : next.routes = sent.routes) =>
    fallback_again id (kept.trans routes) previous (combinedOf plan)
  have nonempty := fun filled => combinedOf_ne_nil built filled (keepAnchor state id plan) previous
  generalize fallback (keepAnchor state id plan) id previous (combinedOf plan) = combined
    at again nonempty ⊢
  by_cases empty : combined.entries = []
  · have unplanned : plan.pieces = [] := by
      by_contra filled
      exact nonempty filled empty
    have none := plannable.unhandled built unplanned
    simp only [storeSchedule, empty, List.isEmpty_nil, if_true]
    refine FirstRun.recompute_erased (.ofRequests requests _) plannable built (AList.lookup_erase _ _) ?_
    intro other found
    simp [none] at found
  · simp only [storeSchedule, List.isEmpty_iff, empty, if_false]
    refine FirstRun.recompute_stored requests plannable built awaited ?_ valid ?_ empty rfl rfl rfl rfl
    · cases found : (collectDemands state id).2 with
      | none => rfl
      | some other =>
          rw [found, Option.some_or] at chosen
          exact chosen
    · intro next kept
      exact again next kept _ rfl empty

theorem Plannable.recompute_twice {lt later : Libtorrent} (plannable : Plannable state) (id : String)
    (accepts : ∀ handle call, lt.fails handle call = none) (valid : later.isValid = lt.isValid) :
    recomputeSchedule later (recomputeSchedule lt state id) id = recomputeSchedule lt state id := by
  cases built : buildStreamDemandPlan (collectDemands state id).1 state.window with
  | error message =>
      have failed : ∀ answers : Libtorrent, recomputeSchedule answers state id = state := by
        intro answers
        simp only [recomputeSchedule, built]
      rw [failed lt, failed later]
  | ok plan =>
      have absent : ((keepAnchor state id plan).currentSchedules.erase id).lookup id = none :=
        AList.lookup_erase _ _
      cases chosen : (collectDemands state id).2.or
          (((keepAnchor state id plan).currentSchedules.lookup id).map CurrentSchedule.handle) with
      | none =>
          have first : recomputeSchedule lt state id = { keepAnchor state id plan with
              currentSchedules := (keepAnchor state id plan).currentSchedules.erase id } := by
            simp only [recomputeSchedule, built, chosen]
          rw [first]
          refine FirstRun.recompute_erased rfl plannable built absent ?_
          intro handle found
          simp [found] at chosen
      | some handle =>
          by_cases usable : lt.isValid handle = true
          · have first : recomputeSchedule lt state id = applyPlan (keepAnchor state id plan) lt id handle
                (firstBlocksOf (collectDemands state id).1) plan := by
              simp only [recomputeSchedule, built, chosen, usable, if_true]
            rw [first]
            exact plannable.applied built (accepts handle) (by rw [valid, usable]) chosen
          · have first : recomputeSchedule lt state id = { keepAnchor state id plan with
                currentSchedules := (keepAnchor state id plan).currentSchedules.erase id } := by
              simp only [recomputeSchedule, built, chosen, usable, Bool.false_eq_true, if_false]
            rw [first]
            refine FirstRun.recompute_erased rfl plannable built absent ?_
            intro other found
            rw [found, Option.some_or] at chosen
            obtain rfl := Option.some.inj chosen
            rw [valid]
            exact Bool.eq_false_iff.mpr usable

/-- Recomputing a schedule is idempotent in every state of the bridge, reachable ones among them: where
libtorrent accepts every call, the second run makes no call and changes nothing. -/
theorem recomputeSchedule_idempotent :
    (∀ system : System, system.Reachable →
      (∀ route ∈ system.registered, route.fileOffset ≤ uint64Max) → Plannable system.bridge) ∧
    ∀ (state : BridgeState) (id : String) (lt later : Libtorrent), Plannable state →
      (∀ handle call, lt.fails handle call = none) → later.isValid = lt.isValid →
      recomputeSchedule later (recomputeSchedule lt state id) id = recomputeSchedule lt state id :=
  ⟨fun _ reached fits => reachable_plannable reached fits,
    fun _ id _ _ plannable accepts valid => plannable.recompute_twice id accepts valid⟩

theorem recomputeSchedule_idempotent_oneReader :
    ∃ state : BridgeState,
      (recomputeSchedule (.accepting twoPieces) state "t").calls ≠ [] ∧
      recomputeSchedule (.accepting twoPieces) (recomputeSchedule (.accepting twoPieces) state "t") "t" =
        recomputeSchedule (.accepting twoPieces) state "t" := by
  have reached : (oneReader.foldl System.perform { bridge := .create 1024 1024 0 }).Reachable :=
    (((Transition.Reachable.start ⟨1024, 1024, 0, rfl⟩).step _ (by decide +kernel)).step _
      (by decide +kernel)).step _ (by decide +kernel) |>.step _ (by decide +kernel)
  have plannable := recomputeSchedule_idempotent.1 _ reached (by decide +kernel)
  exact ⟨_, by decide +kernel, recomputeSchedule_idempotent.2 _ "t" (.accepting twoPieces)
    (.accepting twoPieces) plannable (fun _ _ => rfl) rfl⟩

end Twice

end NuvioEngine.Bridge
