import NuvioEngine.Bridge.MirrorCore
import NuvioEngine.Bridge.Recompute

/-!
The incremental schedule mirrors libtorrent: although every recomputation only sends differences,
libtorrent's priorities, deadlines and first blocks are those of the stored schedule.
-/

namespace NuvioEngine.Bridge

open NuvioEngine.Scheduler NuvioEngine.Stream NuvioEngine.Cache BridgeState

theorem foldl_update_eq (updates : List (Nat × Nat)) (values : Nat → Nat) {piece target : Nat}
    (same : ∀ update ∈ updates, update.1 = piece → update.2 = target)
    (kept : (∀ update ∈ updates, update.1 ≠ piece) → values piece = target) :
    updates.foldl (fun current update => Function.update current update.1 update.2) values piece =
      target := by
  induction updates generalizing values with
  | nil => exact kept (by simp)
  | cons update rest ih =>
      rw [List.foldl_cons]
      refine ih _ (fun other member => same other (List.mem_cons_of_mem _ member)) ?_
      intro absent
      by_cases here : update.1 = piece
      · rw [← here, Function.update_self]
        exact same update List.mem_cons_self here
      · rw [Function.update_of_ne (Ne.symm here)]
        refine kept ?_
        intro other member
        rcases List.mem_cons.mp member with rfl | later
        · exact here
        · exact absent other later

namespace TorrentMaps

variable (maps : TorrentMaps)

theorem foldl_prioritize (updates : List (Nat × Nat)) :
    updates.foldl (fun current update => current.prioritize update.1 update.2) maps =
      { maps with
        priority := updates.foldl (fun current update =>
          Function.update current update.1 update.2) maps.priority
        effective := updates.foldl (fun current update =>
          Function.update current update.1 update.2) maps.effective } := by
  induction updates generalizing maps with
  | nil => rfl
  | cons update rest ih =>
      rw [List.foldl_cons, ih]
      rfl

theorem foldl_resetDeadline (pieces : List Nat) (piece : Nat) :
    (pieces.foldl resetDeadline maps).priority piece = maps.priority piece ∧
    (pieces.foldl resetDeadline maps).deadline piece =
      (if piece ∈ pieces then none else maps.deadline piece) ∧
    (pieces.foldl resetDeadline maps).firstBlock piece =
      (if piece ∈ pieces then 0 else maps.firstBlock piece) ∧
    (pieces.foldl resetDeadline maps).effective piece =
      (if piece ∈ pieces ∧ (maps.deadline piece).isSome then lowPriority
        else maps.effective piece) := by
  induction pieces generalizing maps with
  | nil => simp
  | cons first rest ih =>
      obtain ⟨priority, deadline, firstBlock, effective⟩ := ih (maps.resetDeadline first)
      rw [List.foldl_cons, priority, deadline, firstBlock, effective]
      simp only [resetDeadline]
      by_cases here : piece = first
      · subst here
        by_cases dated : (maps.deadline piece).isSome
        · simp [dated]
        · simp [dated]
      · by_cases dated : (maps.deadline first).isSome
        · simp [dated, here]
        · simp [dated, here]

end TorrentMaps

section View

variable {torrent : MirroredTorrent} {lt : Libtorrent}

theorem view_attempt (accepts : torrent.Accepts lt) (state : BridgeState) (call : LtCall) :
    ∃ next, state.attempt lt torrent.handle call = .ok next ∧
      torrent.view next = (torrent.view state).apply call := by
  refine ⟨{ state with calls := state.calls ++ [(torrent.handle, call)] }, ?_, ?_⟩
  · rw [attempt, accepts.accepts call]
  · simp [MirroredTorrent.view, replay]

theorem view_attemptQuietly (accepts : torrent.Accepts lt) (state : BridgeState) (call : LtCall) :
    torrent.view (state.attemptQuietly lt torrent.handle call) = (torrent.view state).apply call := by
  obtain ⟨next, sent, view⟩ := view_attempt accepts state call
  rw [attemptQuietly, sent]
  exact view

theorem view_resetDeadlines (accepts : torrent.Accepts lt) (pieces : List Nat) (state : BridgeState) :
    torrent.view (pieces.foldl (resetDeadline lt torrent.id torrent.handle) state) =
      pieces.foldl TorrentMaps.resetDeadline (torrent.view state) := by
  induction pieces generalizing state with
  | nil => rfl
  | cons piece rest ih =>
      rw [List.foldl_cons, List.foldl_cons, ih]
      congr 1
      exact view_attemptQuietly accepts state (.resetPieceDeadline piece)

end View

section Priorities

variable {torrent : MirroredTorrent} {lt : Libtorrent}

theorem getD_allPriorities (combined : Priorities) (cold : Bool) {numPieces piece : Nat}
    (inside : piece < numPieces) (default : Nat) :
    (allPriorities combined cold numPieces).getD piece default =
      scheduledPriority combined cold piece := by
  rw [allPriorities, List.getD_eq_getElem?_getD, List.getElem?_map,
    List.getElem?_range inside]
  rfl

/-- The updates to a piece all carry its new priority, and a piece without updates has it. -/
theorem priorityUpdates_target (schedule : CurrentSchedule) (combined : Priorities) (cold : Bool)
    (piece : Nat) :
    (∀ update ∈ priorityUpdates schedule combined cold, update.1 = piece →
      update.2 = scheduledPriority combined cold piece) ∧
    ((∀ update ∈ priorityUpdates schedule combined cold, update.1 ≠ piece) →
      scheduledPriority schedule.priorities schedule.cold piece =
        scheduledPriority combined cold piece) := by
  constructor
  · rintro ⟨query, value⟩ member rfl
    simp only [priorityUpdates, List.mem_append, List.mem_filterMap] at member
    rcases member with ⟨entry, _, changed⟩ | ⟨entry, listed, changed⟩
    · split at changed
      · simp at changed
      · rename_i absent
        simp only [Option.some.injEq, Prod.mk.injEq] at changed
        obtain ⟨rfl, rfl⟩ := changed
        have missing : combined.lookup entry.1 = none := by simpa using absent
        simp [scheduledPriority, missing]
    · have found := (SortedMap.lookup_eq_some_iff combined entry.1 entry.2).mpr listed
      have value_eq : query = entry.1 ∧ value = downloadPriorityFor entry.2 cold := by
        split at changed
        · simp only [Option.some.injEq, Prod.mk.injEq] at changed
          exact ⟨changed.1.symm, changed.2.symm⟩
        · split at changed
          · simp only [Option.some.injEq, Prod.mk.injEq] at changed
            exact ⟨changed.1.symm, changed.2.symm⟩
          · simp at changed
      obtain ⟨rfl, rfl⟩ := value_eq
      simp [scheduledPriority, found]
  · intro absent
    have dropped : ∀ old, schedule.priorities.lookup piece = some old →
        combined.lookup piece = none → False := by
      intro old before missing
      refine absent (piece, dontDownload) ?_ rfl
      refine List.mem_append_left _ (List.mem_filterMap.mpr ⟨(piece, old), ?_, by simp [missing]⟩)
      exact (SortedMap.lookup_eq_some_iff _ _ _).mp before
    cases before : schedule.priorities.lookup piece with
    | none =>
        cases after : combined.lookup piece with
        | none => simp [scheduledPriority, before, after]
        | some priority =>
            refine absurd rfl (absent (piece, downloadPriorityFor priority cold) ?_)
            refine List.mem_append_right _ (List.mem_filterMap.mpr ⟨(piece, priority), ?_, ?_⟩)
            · exact (SortedMap.lookup_eq_some_iff _ _ _).mp after
            · simp [before]
    | some old =>
        cases after : combined.lookup piece with
        | none => exact absurd (dropped old before after) id
        | some priority =>
            by_contra different
            simp only [scheduledPriority, before, after] at different
            refine absurd rfl (absent (piece, downloadPriorityFor priority cold) ?_)
            refine List.mem_append_right _ (List.mem_filterMap.mpr ⟨(piece, priority), ?_, ?_⟩)
            · exact (SortedMap.lookup_eq_some_iff _ _ _).mp after
            · simp [before, different]

theorem view_sendPriorities (accepts : torrent.Accepts lt) (state : BridgeState)
    (previous : Option CurrentSchedule) (combined : Priorities) (cold : Bool) :
    torrent.view (sendPriorities state lt torrent.handle previous combined cold) =
      match previous with
      | none => (torrent.view state).prioritizeAll (allPriorities combined cold torrent.numPieces)
      | some schedule => (priorityUpdates schedule combined cold).foldl
          (fun current update => current.prioritize update.1 update.2) (torrent.view state) := by
  unfold sendPriorities priorityCall
  cases previous with
  | none =>
      obtain ⟨info, file, pieces⟩ := accepts.metadata
      simp only [file]
      rw [view_attemptQuietly accepts, pieces]
      rfl
  | some schedule =>
      simp only
      split
      · rename_i quiet
        split at quiet
        · rename_i empty
          rw [List.isEmpty_iff.mp empty]
          rfl
        · simp at quiet
      · rename_i call asked
        split at asked
        · simp at asked
        · obtain rfl := Option.some.inj asked
          rw [view_attemptQuietly accepts]
          rfl

theorem sendPriorities_mirrors (accepts : torrent.Accepts lt) (state : BridgeState)
    (previous : Option CurrentSchedule) (combined : Priorities) (cold : Bool) :
    let after := torrent.view (sendPriorities state lt torrent.handle previous combined cold)
    after.deadline = (torrent.view state).deadline ∧
    after.firstBlock = (torrent.view state).firstBlock ∧
    ∀ piece < torrent.numPieces,
      ((∀ schedule, previous = some schedule → (torrent.view state).priority piece =
          scheduledPriority schedule.priorities schedule.cold piece) →
        after.priority piece = scheduledPriority combined cold piece) ∧
      ((∀ schedule, previous = some schedule → (torrent.view state).effective piece =
          scheduledPriority schedule.priorities schedule.cold piece) →
        after.effective piece = scheduledPriority combined cold piece) := by
  simp only [view_sendPriorities accepts]
  cases previous with
  | none =>
      refine ⟨rfl, rfl, fun piece inside => ⟨fun _ => ?_, fun _ => ?_⟩⟩
      · exact getD_allPriorities combined cold inside _
      · exact getD_allPriorities combined cold inside _
  | some schedule =>
      simp only [TorrentMaps.foldl_prioritize]
      refine ⟨trivial, trivial, fun piece inside => ?_⟩
      obtain ⟨same, kept⟩ := priorityUpdates_target schedule combined cold piece
      refine ⟨fun before => foldl_update_eq _ _ same fun absent => ?_,
        fun before => foldl_update_eq _ _ same fun absent => ?_⟩
      · exact (before schedule rfl).trans (kept absent)
      · exact (before schedule rfl).trans (kept absent)

end Priorities

section Deadlines

variable {torrent : MirroredTorrent} {lt : Libtorrent}

/-- What setting the deadlines of `pieces`, from `ordinal` on, does to the maps. -/
structure DeadlinesSet (ordinal : Nat) (pieces : List Nat) (before after : TorrentMaps) : Prop where
  priority : after.priority = before.priority
  firstBlock : after.firstBlock = before.firstBlock
  given : ∀ index piece, pieces[index]? = some piece →
    after.deadline piece = some (deadlineFor (ordinal + index))
  others : ∀ piece, piece ∉ pieces → after.deadline piece = before.deadline piece ∧
    after.effective piece = before.effective piece
  raised : ∀ piece, after.effective piece = before.effective piece ∨
    after.effective piece = topPriority

theorem view_setDeadline (accepts : torrent.Accepts lt) (unchanged : Bool) (ordinal piece : Nat)
    (state : BridgeState) :
    torrent.view (setDeadline lt torrent.id torrent.handle unchanged ordinal piece state) =
        (torrent.view state).setDeadline piece (deadlineFor ordinal) ∨
      (unchanged = true ∧
        torrent.view (setDeadline lt torrent.id torrent.handle unchanged ordinal piece state) =
          torrent.view state) := by
  unfold setDeadline
  simp only
  split
  · rename_i skipped
    rw [Bool.and_eq_true] at skipped
    exact Or.inr ⟨skipped.1, rfl⟩
  · refine Or.inl ?_
    obtain ⟨next, sent, view⟩ := view_attempt accepts state (.setPieceDeadline piece
      (deadlineFor ordinal) ((state.pieceWaiters.lookup ⟨torrent.id, piece⟩).isSome &&
        !(state.requestedReads.lookup ⟨torrent.id, piece⟩).isSome ||
        (state.requestedReads.lookup ⟨torrent.id, piece⟩).isSome))
    rw [sent]
    simp only
    split
    · exact view
    · exact view

theorem view_setDeadlines (accepts : torrent.Accepts lt) (previousDeadlines : List Nat)
    (jumped : Bool) (ordinal : Nat) (pieces : List Nat) (state : BridgeState) (once : pieces.Nodup)
    (known : ∀ index piece, pieces[index]? = some piece → jumped = false →
      previousDeadlines[ordinal + index]? = some piece →
      (torrent.view state).deadline piece = some (deadlineFor (ordinal + index))) :
    DeadlinesSet ordinal pieces (torrent.view state) (torrent.view
      (setDeadlines lt torrent.id torrent.handle previousDeadlines jumped ordinal pieces state)) := by
  induction pieces generalizing ordinal state with
  | nil => exact ⟨rfl, rfl, by simp, fun _ _ => ⟨rfl, rfl⟩, fun _ => Or.inl rfl⟩
  | cons piece rest ih =>
      rw [setDeadlines]
      obtain ⟨absent, onceRest⟩ := List.nodup_cons.mp once
      generalize unchangedEq : (!jumped && decide (previousDeadlines[ordinal]? = some piece)) =
        unchanged
      have here : DeadlinesSet ordinal [piece] (torrent.view state) (torrent.view
          (setDeadline lt torrent.id torrent.handle unchanged ordinal piece state)) := by
        rcases view_setDeadline accepts unchanged ordinal piece state with set | ⟨skipped, same⟩
        · rw [set]
          refine ⟨rfl, rfl, ?_, ?_, ?_⟩
          · intro index query found
            obtain ⟨rfl, rfl⟩ : index = 0 ∧ query = piece := by
              cases index with
              | zero => simpa using found.symm
              | succ index => simp at found
            simp [TorrentMaps.setDeadline]
          · intro query other
            rw [List.mem_singleton] at other
            simp [TorrentMaps.setDeadline, other]
          · intro query
            by_cases same : query = piece
            · exact Or.inr (by simp [TorrentMaps.setDeadline, same])
            · exact Or.inl (by simp [TorrentMaps.setDeadline, same])
        · rw [same]
          refine ⟨rfl, rfl, ?_, fun _ _ => ⟨rfl, rfl⟩, fun _ => Or.inl rfl⟩
          intro index query found
          obtain ⟨rfl, rfl⟩ : index = 0 ∧ query = piece := by
            cases index with
            | zero => simpa using found.symm
            | succ index => simp at found
          rw [skipped] at unchangedEq
          simp only [Bool.and_eq_true, Bool.not_eq_true', decide_eq_true_eq] at unchangedEq
          exact known 0 query rfl unchangedEq.1 unchangedEq.2
      have later := ih (ordinal + 1) (setDeadline lt torrent.id torrent.handle unchanged ordinal piece
        state) onceRest (by
          intro index query found kept listed
          have member : query ∈ rest := List.mem_of_getElem? found
          have other : query ∉ [piece] := by
            rw [List.mem_singleton]
            rintro rfl
            exact absent member
          rw [(here.others query other).1]
          have := known (index + 1) query (by simpa using found) kept
            (by rw [← listed]; congr 1; omega)
          rw [this]
          congr 2
          omega)
      refine ⟨later.priority.trans here.priority, later.firstBlock.trans here.firstBlock, ?_, ?_, ?_⟩
      · intro index query found
        cases index with
        | zero =>
            obtain rfl : query = piece := by simpa using found.symm
            rw [(later.others query absent).1]
            exact here.given 0 query rfl
        | succ index =>
            have := later.given index query (by simpa using found)
            rw [this]
            congr 2
            omega
      · intro query other
        rw [List.mem_cons, not_or] at other
        have first := here.others query (by simpa using other.1)
        have second := later.others query other.2
        exact ⟨second.1.trans first.1, second.2.trans first.2⟩
      · intro query
        rcases later.raised query with same | top
        · rw [same]
          exact here.raised query
        · exact Or.inr top

/-- What one recomputation does to the deadlines, given that the old ones were mirrored. -/
structure DeadlinesMoved (previous next : List Nat) (before after : TorrentMaps) : Prop where
  priority : after.priority = before.priority
  given : ∀ index piece, next[index]? = some piece → after.deadline piece = some (deadlineFor index)
  undated : ∀ piece, piece ∉ next → after.deadline piece = none
  firstBlock : ∀ piece, after.firstBlock piece =
    if piece ∈ previous ∧ piece ∉ next then 0 else before.firstBlock piece
  kept : ∀ piece, piece ∉ previous → piece ∉ next → after.effective piece = before.effective piece
  lowered : ∀ piece, piece ∈ previous → piece ∉ next → after.effective piece = lowPriority
  raised : ∀ piece, piece ∈ next → after.effective piece = before.effective piece ∨
    after.effective piece = topPriority

theorem hasJumped_disjoint {previous next : List Nat} (jumped : hasJumped previous next = true) :
    ∀ piece ∈ previous, piece ∉ next := by
  intro piece member
  simp only [hasJumped, Bool.and_eq_true, List.all_eq_true] at jumped
  simpa using jumped.2 piece member

theorem view_sendDeadlines (accepts : torrent.Accepts lt) (state : BridgeState)
    (previous next : List Nat) (once : next.Nodup)
    (dated : ∀ index piece, previous[index]? = some piece →
      (torrent.view state).deadline piece = some (deadlineFor index))
    (undated : ∀ piece, piece ∉ previous → (torrent.view state).deadline piece = none) :
    DeadlinesMoved previous next (torrent.view state)
      (torrent.view (sendDeadlines state lt torrent.id torrent.handle previous next)) := by
  have isDated : ∀ piece ∈ previous, ((torrent.view state).deadline piece).isSome := by
    intro piece member
    obtain ⟨index, found⟩ := List.mem_iff_getElem?.mp member
    rw [dated index piece found]
    rfl
  unfold sendDeadlines
  simp only
  cases jumped : hasJumped previous next with
  | true =>
      simp only [if_true]
      have disjoint := hasJumped_disjoint jumped
      have set := view_setDeadlines accepts previous true 0 next
        (previous.foldl (resetDeadline lt torrent.id torrent.handle) state) once (by simp)
      rw [view_resetDeadlines accepts] at set
      have reset := (torrent.view state).foldl_resetDeadline previous
      refine ⟨?_, ?_, ?_, ?_, ?_, ?_, ?_⟩
      · rw [set.priority]
        exact funext fun piece => (reset piece).1
      · intro index piece found
        simpa using set.given index piece found
      · intro piece absent
        rw [(set.others piece absent).1, (reset piece).2.1]
        split
        · rfl
        · rename_i other
          exact undated piece other
      · intro piece
        rw [set.firstBlock, (reset piece).2.2.1]
        by_cases member : piece ∈ previous
        · simp [member, disjoint piece member]
        · simp [member]
      · intro piece outside absent
        rw [(set.others piece absent).2, (reset piece).2.2.2]
        simp [outside]
      · intro piece member absent
        rw [(set.others piece absent).2, (reset piece).2.2.2]
        simp [member, isDated piece member]
      · intro piece listed
        have outside : piece ∉ previous := fun member => disjoint piece member listed
        have same := (reset piece).2.2.2
        simp only [outside, false_and, if_false] at same
        rw [← same]
        exact set.raised piece
  | false =>
      simp only [Bool.false_eq_true, if_false]
      rw [view_resetDeadlines accepts]
      have set := view_setDeadlines accepts previous false 0 next state once (by
        intro index piece _ _ found
        exact dated _ piece found)
      generalize torrent.view (setDeadlines lt torrent.id torrent.handle previous false 0 next state) =
        middle at set ⊢
      have reset := middle.foldl_resetDeadline (previous.filter fun piece => !next.contains piece)
      have dropped : ∀ piece, piece ∈ (previous.filter fun piece => !next.contains piece) ↔
          piece ∈ previous ∧ piece ∉ next := by
        intro piece
        simp
      refine ⟨?_, ?_, ?_, ?_, ?_, ?_, ?_⟩
      · rw [← set.priority]
        exact funext fun piece => (reset piece).1
      · intro index piece found
        have listed : piece ∈ next := List.mem_of_getElem? found
        rw [(reset piece).2.1, if_neg (by simp [listed])]
        simpa using set.given index piece found
      · intro piece absent
        rw [(reset piece).2.1]
        split
        · rfl
        · rename_i other
          rw [(set.others piece absent).1]
          refine undated piece fun member => other ((dropped piece).mpr ⟨member, absent⟩)
      · intro piece
        rw [(reset piece).2.2.1, ← set.firstBlock]
        simp only [dropped]
      · intro piece outside absent
        rw [(reset piece).2.2.2, if_neg (by simp [outside]), (set.others piece absent).2]
      · intro piece member absent
        have still : (middle.deadline piece).isSome := by
          rw [(set.others piece absent).1]
          exact isDated piece member
        rw [(reset piece).2.2.2, if_pos ⟨(dropped piece).mpr ⟨member, absent⟩, still⟩]
      · intro piece listed
        rw [(reset piece).2.2.2, if_neg (by simp [listed])]
        exact set.raised piece

end Deadlines

section FirstBlocks

variable {torrent : MirroredTorrent} {lt : Libtorrent}

theorem view_sendFirstBlock (accepts : torrent.Accepts lt) (state : BridgeState)
    {previous : Option CurrentSchedule} {jumped : Bool} {piece : Nat} (block : Nat) (isNew : Prop)
    [Decidable isNew]
    (known : (torrent.view state).firstBlock piece = previousBlock previous jumped piece) :
    torrent.view (if block ≠ previousBlock previous jumped piece ∨ isNew then
        state.attemptQuietly lt torrent.handle (.setPieceFirstBlock piece block)
      else state) =
      { torrent.view state with
        firstBlock := Function.update (torrent.view state).firstBlock piece block } := by
  split
  · exact view_attemptQuietly accepts state _
  · rename_i unneeded
    rw [not_or, not_not] at unneeded
    rw [unneeded.1, ← known, Function.update_eq_self]

/-- The first blocks libtorrent has and the ones that are recorded, after the loop over `pieces`. -/
theorem view_sendFirstBlocks (accepts : torrent.Accepts lt) (previous : Option CurrentSchedule)
    (jumped : Bool) (wanted : SortedMap Nat Nat) (pieces : List Nat) (once : pieces.Nodup)
    (current : BridgeState × SortedMap Nat Nat)
    (known : ∀ piece ∈ pieces,
      (torrent.view current.1).firstBlock piece = previousBlock previous jumped piece) :
    let after := sendFirstBlocks lt torrent.handle previous jumped wanted pieces current
    (torrent.view after.1).priority = (torrent.view current.1).priority ∧
    (torrent.view after.1).effective = (torrent.view current.1).effective ∧
    (torrent.view after.1).deadline = (torrent.view current.1).deadline ∧
    (∀ piece, (torrent.view after.1).firstBlock piece =
      if piece ∈ pieces then (wanted.lookup piece).getD 0
      else (torrent.view current.1).firstBlock piece) ∧
    ∀ piece, after.2.lookup piece =
      if piece ∈ pieces ∧ 0 < (wanted.lookup piece).getD 0 then some ((wanted.lookup piece).getD 0)
      else current.2.lookup piece := by
  induction pieces generalizing current with
  | nil => simp [sendFirstBlocks]
  | cons piece rest ih =>
      obtain ⟨state, applied⟩ := current
      obtain ⟨absent, onceRest⟩ := List.nodup_cons.mp once
      rw [sendFirstBlocks]
      have here := view_sendFirstBlock accepts state ((wanted.lookup piece).getD 0)
        ((wanted.lookup piece).getD 0 > 0 ∧
          !(deadlinesOf previous).contains piece)
        (known piece List.mem_cons_self)
      simp only
      generalize (if (wanted.lookup piece).getD 0 ≠ previousBlock previous jumped piece ∨
          (wanted.lookup piece).getD 0 > 0 ∧
            !(deadlinesOf previous).contains piece then
        state.attemptQuietly lt torrent.handle
          (.setPieceFirstBlock piece ((wanted.lookup piece).getD 0)) else state) = sent at here ⊢
      obtain ⟨priority, effective, deadline, firstBlock, recorded⟩ := ih onceRest (sent,
        if (wanted.lookup piece).getD 0 > 0 then applied.insert piece ((wanted.lookup piece).getD 0)
        else applied) (by
          intro query member
          have other : query ≠ piece := by
            rintro rfl
            exact absent member
          simp only [here, Function.update_of_ne other]
          exact known query (List.mem_cons_of_mem _ member))
      simp only [here] at priority effective deadline firstBlock
      refine ⟨priority, effective, deadline, ?_, ?_⟩
      · intro query
        rw [firstBlock]
        by_cases same : query = piece
        · simp [same, absent]
        · simp [same]
      · intro query
        rw [recorded]
        by_cases same : query = piece
        · subst same
          by_cases positive : 0 < (wanted.lookup query).getD 0
          · simp [absent, positive, SortedMap.lookup_insert]
          · simp [positive]
        · by_cases positive : 0 < (wanted.lookup piece).getD 0
          · simp [same, positive, SortedMap.lookup_insert, Ne.symm same]
          · simp [same, positive]

end FirstBlocks

section Combined

theorem lookup_foldl_insert (pieces : List PiecePriority) (map : Priorities)
    (once : (pieces.map PiecePriority.piece).Nodup) (piece : Nat) (priority : PriorityClass) :
    (pieces.foldl (fun combined entry => combined.insert entry.piece entry.priority) map).lookup piece =
        some priority ↔
      ⟨piece, priority⟩ ∈ pieces ∨
        (piece ∉ pieces.map PiecePriority.piece ∧ map.lookup piece = some priority) := by
  induction pieces generalizing map with
  | nil => simp
  | cons entry rest ih =>
      rw [List.map_cons, List.nodup_cons] at once
      rw [List.foldl_cons, ih _ once.2, SortedMap.lookup_insert]
      obtain ⟨first, value⟩ := entry
      by_cases here : first = piece
      · subst here
        have unlisted : ∀ other, ⟨first, other⟩ ∉ rest := fun other member =>
          once.1 (List.mem_map.mpr ⟨_, member, rfl⟩)
        simp [unlisted, once.1, eq_comm]
      · simp [here, Ne.symm here]

theorem lookup_combinedOf {plan : StreamDemandPlan}
    (once : (plan.pieces.map PiecePriority.piece).Nodup) (piece : Nat) (priority : PriorityClass) :
    (combinedOf plan).lookup piece = some priority ↔ ⟨piece, priority⟩ ∈ plan.pieces := by
  rw [combinedOf, lookup_foldl_insert plan.pieces _ once]
  simp

theorem fallback_eq_combinedOf {plan : StreamDemandPlan}
    (once : (plan.pieces.map PiecePriority.piece).Nodup) {piece : Nat} {priority : PriorityClass}
    (listed : ⟨piece, priority⟩ ∈ plan.pieces) (state : BridgeState) (id : String)
    (previous : Option CurrentSchedule) :
    fallback state id previous (combinedOf plan) = combinedOf plan := by
  have found := (SortedMap.lookup_eq_some_iff _ _ _).mp
    ((lookup_combinedOf once piece priority).mpr listed)
  unfold fallback
  split
  · rfl
  · rw [if_neg]
    rintro ⟨empty, _⟩
    rw [List.isEmpty_iff.mp empty] at found
    simp at found

end Combined

section Apply

variable {torrent : MirroredTorrent} {lt : Libtorrent} {state : BridgeState}

/-- The part of the mirror that holds from the start. -/
structure MirrorsDeadlines (maps : TorrentMaps) (schedule : Option CurrentSchedule) : Prop where
  once : (deadlinesOf schedule).Nodup
  dated : ∀ index piece, (deadlinesOf schedule)[index]? = some piece →
    maps.deadline piece = some (deadlineFor index)
  undated : ∀ piece, piece ∉ deadlinesOf schedule → maps.deadline piece = none
  blocked : ∀ piece, maps.firstBlock piece = firstBlockOf schedule piece
  unblocked : ∀ piece, piece ∉ deadlinesOf schedule → firstBlockOf schedule piece = 0

/-- The new schedule of a plan, and what libtorrent is left with. -/
structure Applied (torrent : MirroredTorrent) (before after : BridgeState) (plan : StreamDemandPlan) :
    Prop where
  deadlines : MirrorsDeadlines (torrent.view after) (after.currentSchedules.lookup torrent.id)
  order : deadlinesOf (after.currentSchedules.lookup torrent.id) = plan.deadlineOrder
  handle : ∀ schedule, after.currentSchedules.lookup torrent.id = some schedule →
    schedule.handle = torrent.handle
  target : ∀ piece, targetPriority (after.currentSchedules.lookup torrent.id) piece =
    scheduledPriority (fallback before torrent.id (before.currentSchedules.lookup torrent.id)
      (combinedOf plan)) plan.cold piece
  priority : ∀ piece < torrent.numPieces,
    (∀ schedule, before.currentSchedules.lookup torrent.id = some schedule →
      (torrent.view before).priority piece =
        scheduledPriority schedule.priorities schedule.cold piece) →
    (torrent.view after).priority piece =
      targetPriority (after.currentSchedules.lookup torrent.id) piece
  effective : ∀ piece < torrent.numPieces,
    (∀ schedule, before.currentSchedules.lookup torrent.id = some schedule →
      (torrent.view before).effective piece =
        scheduledPriority schedule.priorities schedule.cold piece) →
    (torrent.view after).effective piece =
      if piece ∈ deadlinesOf (before.currentSchedules.lookup torrent.id) ∧
        piece ∉ plan.deadlineOrder then lowPriority
      else targetPriority (after.currentSchedules.lookup torrent.id) piece

theorem lookup_storeSchedule (state : BridgeState) (id : String) (handle : Nat)
    (previous : Option CurrentSchedule) (combined : Priorities) (plan : StreamDemandPlan)
    (applied : SortedMap Nat Nat) :
    (storeSchedule state id handle previous combined plan applied).currentSchedules.lookup id =
      if combined.entries.isEmpty then none
      else some ⟨handle, combined, plan.deadlineOrder, plan.focusedDemandId,
        nextRevision previous combined plan, plan.cold, applied⟩ := by
  unfold storeSchedule
  simp only
  split
  · exact AList.lookup_erase _ _
  · exact AList.lookup_insert _

theorem previousBlock_eq {previous : Option CurrentSchedule} {next : List Nat} {piece : Nat}
    (listed : piece ∈ next)
    (unblocked : ∀ piece, piece ∉ deadlinesOf previous → firstBlockOf previous piece = 0) :
    previousBlock previous (hasJumped (deadlinesOf previous) next) piece =
      firstBlockOf previous piece := by
  cases previous with
  | none => rfl
  | some schedule =>
      simp only [previousBlock]
      split
      · rename_i jumped
        exact (unblocked piece fun member => hasJumped_disjoint jumped piece member listed).symm
      · rfl

theorem deadlineOrder_eq_nil {demands : List StreamDemand} {window : StreamWindow}
    {plan : StreamDemandPlan} (built : buildStreamDemandPlan demands window = .ok plan)
    {id : String} {previous : Option CurrentSchedule}
    (empty : (fallback state id previous (combinedOf plan)).entries = []) :
    plan.deadlineOrder = [] := by
  obtain ⟨onceListed, once, listed⟩ := buildStreamDemandPlan_deadlines built
  rw [List.eq_nil_iff_forall_not_mem]
  intro piece member
  have absurdity : ∀ priority, ⟨piece, priority⟩ ∈ plan.pieces → False := by
    intro priority present
    rw [fallback_eq_combinedOf onceListed present] at empty
    have found := (SortedMap.lookup_eq_some_iff _ _ _).mp
      ((lookup_combinedOf onceListed piece priority).mpr present)
    rw [empty] at found
    simp at found
  rcases listed piece member with blocking | critical
  · exact absurdity _ blocking
  · exact absurdity _ critical

theorem scheduledPriority_deadline {demands : List StreamDemand} {window : StreamWindow}
    {plan : StreamDemandPlan} (built : buildStreamDemandPlan demands window = .ok plan)
    (id : String) (previous : Option CurrentSchedule) (cold : Bool) {piece : Nat}
    (member : piece ∈ plan.deadlineOrder) :
    scheduledPriority (fallback state id previous (combinedOf plan)) cold piece = topPriority := by
  obtain ⟨onceListed, once, listed⟩ := buildStreamDemandPlan_deadlines built
  rcases listed piece member with blocking | critical
  · rw [fallback_eq_combinedOf onceListed blocking, scheduledPriority,
      (lookup_combinedOf onceListed _ _).mpr blocking]
    rfl
  · rw [fallback_eq_combinedOf onceListed critical, scheduledPriority,
      (lookup_combinedOf onceListed _ _).mpr critical]
    rfl

theorem applyPlan_applied (accepts : torrent.Accepts lt) {demands : List StreamDemand}
    {window : StreamWindow} {plan : StreamDemandPlan}
    (built : buildStreamDemandPlan demands window = .ok plan) (wanted : SortedMap Nat Nat)
    (mirrored : MirrorsDeadlines (torrent.view state) (state.currentSchedules.lookup torrent.id)) :
    Applied torrent state (applyPlan state lt torrent.id torrent.handle wanted plan) plan := by
  obtain ⟨onceListed, once, listed⟩ := buildStreamDemandPlan_deadlines built
  unfold applyPlan
  simp only
  generalize previousEq : state.currentSchedules.lookup torrent.id = previous at mirrored ⊢
  generalize combinedEq : fallback state torrent.id previous (combinedOf plan) = combined
  obtain ⟨keptDeadlines, keptBlocks, prioritized⟩ :=
    sendPriorities_mirrors accepts state previous combined plan.cold
  generalize sendPriorities state lt torrent.handle previous combined plan.cold = first
    at keptDeadlines keptBlocks prioritized ⊢
  have moved := view_sendDeadlines accepts first (deadlinesOf previous) plan.deadlineOrder once
    (by rw [keptDeadlines]; exact mirrored.dated) (by rw [keptDeadlines]; exact mirrored.undated)
  generalize sendDeadlines first lt torrent.id torrent.handle (deadlinesOf previous)
    plan.deadlineOrder = second at moved ⊢
  obtain ⟨samePriority, sameEffective, sameDeadline, blocks, recorded⟩ :=
    view_sendFirstBlocks accepts previous (hasJumped (deadlinesOf previous) plan.deadlineOrder)
      wanted plan.deadlineOrder once (second, .empty) (by
        intro piece member
        simp only [moved.firstBlock, member, not_true_eq_false, and_false, if_false]
        rw [keptBlocks, mirrored.blocked piece, previousBlock_eq member mirrored.unblocked])
  generalize sendFirstBlocks lt torrent.handle previous
    (hasJumped (deadlinesOf previous) plan.deadlineOrder) wanted plan.deadlineOrder
    (second, .empty) = third at samePriority sameEffective sameDeadline blocks recorded ⊢
  have stored := lookup_storeSchedule third.1 torrent.id torrent.handle previous combined plan third.2
  have view : torrent.view (storeSchedule third.1 torrent.id torrent.handle previous combined plan
    third.2) = torrent.view third.1 := rfl
  generalize storeSchedule third.1 torrent.id torrent.handle previous combined plan third.2 = after
    at stored view ⊢
  have order : deadlinesOf (after.currentSchedules.lookup torrent.id) = plan.deadlineOrder := by
    rw [stored]
    split
    · rename_i empty
      rw [deadlineOrder_eq_nil built (combinedEq ▸ List.isEmpty_iff.mp empty)]
      rfl
    · rfl
  have target : ∀ piece, targetPriority (after.currentSchedules.lookup torrent.id) piece =
      scheduledPriority combined plan.cold piece := by
    intro piece
    rw [stored]
    split
    · rename_i empty
      rw [scheduledPriority, SortedMap.lookup, List.isEmpty_iff.mp empty]
      rfl
    · rfl
  have block : ∀ piece, firstBlockOf (after.currentSchedules.lookup torrent.id) piece =
      (third.2.lookup piece).getD 0 := by
    intro piece
    rw [stored]
    split
    · rename_i empty
      rw [recorded piece, deadlineOrder_eq_nil built (combinedEq ▸ List.isEmpty_iff.mp empty)]
      simp [firstBlockOf]
    · rfl
  refine ⟨⟨?_, ?_, ?_, ?_, ?_⟩, order, ?_, by rw [previousEq, combinedEq]; exact target, ?_, ?_⟩
  · rw [order]
    exact once
  · rw [order, view, sameDeadline]
    exact moved.given
  · rw [order, view, sameDeadline]
    exact moved.undated
  · intro piece
    rw [block, recorded, view, blocks]
    by_cases member : piece ∈ plan.deadlineOrder
    · by_cases positive : 0 < (wanted.lookup piece).getD 0
      · simp [member, positive]
      · simp only [member, positive, and_false, if_false, if_true, SortedMap.lookup_empty,
          Option.getD_none]
        omega
    · simp only [member, false_and, if_false, SortedMap.lookup_empty, Option.getD_none]
      rw [moved.firstBlock, keptBlocks, mirrored.blocked piece]
      by_cases dropped : piece ∈ deadlinesOf previous
      · simp [dropped, member]
      · simp [dropped, mirrored.unblocked piece dropped]
  · intro piece absent
    rw [order] at absent
    rw [block, recorded]
    simp [absent]
  · intro schedule found
    rw [stored] at found
    split at found
    · simp at found
    · obtain rfl := Option.some.inj found
      rfl
  · rw [previousEq]
    intro piece inside before
    rw [view, samePriority, moved.priority, target]
    exact (prioritized piece inside).1 before
  · rw [previousEq]
    intro piece inside before
    have followed := (prioritized piece inside).2 before
    rw [view, sameEffective, target]
    by_cases listed : piece ∈ plan.deadlineOrder
    · have top : scheduledPriority combined plan.cold piece = topPriority :=
        combinedEq ▸ scheduledPriority_deadline built torrent.id previous plan.cold listed
      simp only [listed, not_true_eq_false, and_false, if_false]
      rcases moved.raised piece listed with same | raised
      · exact same.trans followed
      · exact raised.trans top.symm
    · by_cases dropped : piece ∈ deadlinesOf previous
      · simp [dropped, listed, moved.lowered piece dropped listed]
      · simp [dropped, moved.kept piece dropped listed, followed]

theorem recomputeSchedule_cases (accepts : torrent.Accepts lt)
    (owned : ∀ handle, (collectDemands state torrent.id).2 = some handle → handle = torrent.handle)
    (handles : ∀ schedule, state.currentSchedules.lookup torrent.id = some schedule →
      schedule.handle = torrent.handle)
    (mirrored : MirrorsDeadlines (torrent.view state) (state.currentSchedules.lookup torrent.id)) :
    (torrent.view (recomputeSchedule lt state torrent.id) = torrent.view state ∧
      (recomputeSchedule lt state torrent.id).currentSchedules.lookup torrent.id =
        state.currentSchedules.lookup torrent.id) ∨
    ∃ plan, buildStreamDemandPlan (collectDemands state torrent.id).1 state.window = .ok plan ∧
      Applied torrent state (recomputeSchedule lt state torrent.id) plan := by
  unfold recomputeSchedule
  simp only
  split
  · exact Or.inl ⟨rfl, rfl⟩
  · rename_i plan built
    have kept : (keepAnchor state torrent.id plan).currentSchedules = state.currentSchedules := by
      unfold keepAnchor
      split <;> rfl
    have view : torrent.view (keepAnchor state torrent.id plan) = torrent.view state := by
      unfold keepAnchor
      split <;> rfl
    split
    · rename_i unhandled
      rw [kept, Option.or_eq_none_iff, Option.map_eq_none_iff] at unhandled
      refine Or.inl ⟨view, ?_⟩
      rw [unhandled.2]
      exact AList.lookup_erase _ _
    · rename_i handle chosen
      obtain rfl : handle = torrent.handle := by
        rw [kept] at chosen
        rcases Option.or_eq_some_iff.mp chosen with collected | ⟨_, previous⟩
        · exact owned handle collected
        · obtain ⟨schedule, found, rfl⟩ := Option.map_eq_some_iff.mp previous
          exact handles schedule found
      refine Or.inr ⟨plan, built, ?_⟩
      rw [if_pos accepts.valid]
      have applied := applyPlan_applied accepts built
        (firstBlocksOf (collectDemands state torrent.id).1) (by rw [kept, view]; exact mirrored)
      have streams : (keepAnchor state torrent.id plan).hasStreamForTorrent torrent.id =
          state.hasStreamForTorrent torrent.id := by
        rw [BridgeState.hasStreamForTorrent, (keepAnchor_recomputes state torrent.id plan).routes]
        rfl
      have same : ∀ previous combined, fallback (keepAnchor state torrent.id plan) torrent.id previous
          combined = fallback state torrent.id previous combined := by
        intro previous combined
        unfold fallback
        rw [streams]
      exact ⟨applied.deadlines, applied.order, applied.handle,
        by simpa only [kept, same] using applied.target,
        by simpa only [kept, view] using applied.priority,
        by simpa only [kept, view] using applied.effective⟩

end Apply

section Run

variable {torrent : MirroredTorrent}

/-- The invariant of a run: priorities are mirrored once a schedule was stored, the rest always. -/
structure Mirrored (torrent : MirroredTorrent) (scheduling : Scheduling) : Prop where
  deadlines : MirrorsDeadlines (torrent.view scheduling.bridge)
    (scheduling.bridge.currentSchedules.lookup torrent.id)
  known : ∀ schedule, scheduling.bridge.currentSchedules.lookup torrent.id = some schedule →
    schedule.handle = torrent.handle ∧ scheduling.stored = true
  priority : scheduling.stored = true → ∀ piece < torrent.numPieces,
    (torrent.view scheduling.bridge).priority piece =
      targetPriority (scheduling.bridge.currentSchedules.lookup torrent.id) piece

theorem Mirrored.initial {scheduling : Scheduling} (begins : torrent.Initial scheduling) :
    Mirrored torrent scheduling := by
  obtain ⟨unstored, unscheduled, told, undated, unblocked⟩ := begins
  refine ⟨?_, ?_, ?_⟩
  · rw [unscheduled, told]
    exact ⟨List.nodup_nil, by simp [deadlinesOf], fun piece _ => undated piece, unblocked,
      fun _ _ => rfl⟩
  · simp [unscheduled]
  · simp [unstored]

theorem Mirrored.perform {scheduling : Scheduling} (mirrored : Mirrored torrent scheduling)
    {action : ScheduleAction} (possible : torrent.Possible scheduling action) :
    Mirrored torrent (torrent.perform scheduling action) := by
  cases action with
  | change next =>
      obtain ⟨same, view⟩ := possible
      refine ⟨?_, ?_, ?_⟩
      · simp only [MirroredTorrent.perform, same, view]
        exact mirrored.deadlines
      · simp only [MirroredTorrent.perform, same]
        exact mirrored.known
      · simp only [MirroredTorrent.perform, same, view]
        exact mirrored.priority
  | recompute lt =>
      obtain ⟨accepts, owned⟩ := possible
      simp only [MirroredTorrent.perform]
      rcases recomputeSchedule_cases accepts owned (fun schedule found =>
        (mirrored.known schedule found).1) mirrored.deadlines with ⟨view, same⟩ | ⟨plan, _, applied⟩
      · refine ⟨?_, ?_, ?_⟩
        · simp only [same, view]
          exact mirrored.deadlines
        · simp only [same]
          intro schedule found
          exact ⟨(mirrored.known schedule found).1, by simp [found]⟩
        · simp only [same, view]
          intro stored
          refine mirrored.priority ?_
          rcases (Bool.or_eq_true _ _).mp stored with before | now
          · exact before
          · obtain ⟨schedule, found⟩ := Option.isSome_iff_exists.mp now
            exact (mirrored.known schedule found).2
      · refine ⟨applied.deadlines, ?_, ?_⟩
        · intro schedule found
          exact ⟨applied.handle schedule found, by simp [found]⟩
        · intro _ piece inside
          refine applied.priority piece inside fun schedule found => ?_
          have before := mirrored.priority (mirrored.known schedule found).2 piece inside
          rw [found] at before
          exact before

theorem reachable_mirrored {scheduling : Scheduling} (reached : torrent.Reachable scheduling) :
    Mirrored torrent scheduling :=
  reached.invariant (fun _ begins => Mirrored.initial begins)
    (fun _ _ mirrored possible => mirrored.perform possible)

/-- From the first stored schedule on, libtorrent's maps are those of the stored schedule. -/
theorem reachable_mirrors {torrent : MirroredTorrent} {scheduling : Scheduling}
    (reached : torrent.Reachable scheduling) (stored : scheduling.stored = true) :
    Mirrors (torrent.view scheduling.bridge) torrent.numPieces
      (scheduling.bridge.currentSchedules.lookup torrent.id) := by
  have mirrored := reachable_mirrored reached
  have deadlines := mirrored.deadlines
  refine ⟨mirrored.priority stored, deadlines.dated, deadlines.undated, ?_, ?_⟩
  · intro piece _
    exact deadlines.blocked piece
  · intro piece absent
    rw [deadlines.blocked, deadlines.unblocked piece absent]

end Run

/-- A torrent with one file of four pieces. -/
def fourPieces : TorrentInfo :=
  ⟨4, 16777216, by decide, fun _ => 16777216, fun _ savePath => savePath ++ "/video.mp4"⟩

/-- The torrent in a session that downloads nothing by itself. -/
def fourPiecesTorrent : MirroredTorrent where
  id := "t"
  handle := 7
  numPieces := 4
  initial := { priority := fun _ => dontDownload, effective := fun _ => dontDownload }

/-- The bridge with one reader that waits at a position of the file. -/
def readingAt (state : BridgeState) (position : Nat) : BridgeState :=
  { state with activeDemands := (∅ : HashMap Nat ActiveDemand).insert 1 {
      id := 1
      route := ⟨7, "t", "a", "/stream/a", "video/mp4", 0, 16777216, 0, 67108864, "/data/video.mp4"⟩
      range := ⟨position, position + 16777215⟩
      state := some 1
      needsData := true } }

/-- The reader's schedule at the start of the file, and then at its third piece. -/
def fourPiecesStart : Scheduling :=
  fourPiecesTorrent.perform ⟨readingAt (.create 1024 1024 0) 0, false⟩
    (.recompute (.accepting fourPieces))

def fourPiecesSeek : Scheduling :=
  fourPiecesTorrent.perform
    (fourPiecesTorrent.perform fourPiecesStart (.change (readingAt fourPiecesStart.bridge 33554432)))
    (.recompute (.accepting fourPieces))

theorem readingAt_possible (state : BridgeState) (position : Nat) (stored : Bool) :
    fourPiecesTorrent.Possible ⟨readingAt state position, stored⟩
      (.recompute (.accepting fourPieces)) := by
  refine ⟨⟨rfl, fun _ => rfl, fourPieces, rfl, rfl⟩, ?_⟩
  intro handle collected
  exact (Option.some.inj collected).symm

theorem fourPiecesSeek_reachable : fourPiecesTorrent.Reachable fourPiecesSeek := by
  have begins : fourPiecesTorrent.Reachable ⟨readingAt (.create 1024 1024 0) 0, false⟩ :=
    .start ⟨rfl, rfl, rfl, fun _ => rfl, fun _ => rfl⟩
  have started : fourPiecesTorrent.Reachable fourPiecesStart :=
    begins.step _ (readingAt_possible _ _ _)
  have seeks : fourPiecesTorrent.Possible fourPiecesStart
      (.change (readingAt fourPiecesStart.bridge 33554432)) := ⟨rfl, rfl⟩
  exact (started.step _ seeks).step _ (readingAt_possible _ _ _)

theorem reachable_mirrors_seek : fourPiecesSeek.stored = true ∧
    Mirrors (fourPiecesTorrent.view fourPiecesSeek.bridge) 4
      (fourPiecesSeek.bridge.currentSchedules.lookup "t") :=
  have stored : fourPiecesSeek.stored = true := by decide +kernel
  ⟨stored, reachable_mirrors fourPiecesSeek_reachable stored⟩

end NuvioEngine.Bridge
