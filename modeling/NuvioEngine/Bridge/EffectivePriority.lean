import NuvioEngine.Bridge.Mirror

/-!
Priorities with the side effects of deadlines. A reset is sent after the priority of its piece and
leaves the piece at low priority, so a piece that loses its deadline ends where the schedule wants
it exactly when the schedule wants it at low priority, as readahead.
-/

namespace NuvioEngine.Bridge

open NuvioEngine.Scheduler NuvioEngine.Stream NuvioEngine.Cache BridgeState

/-- Pieces outside the schedule are not downloaded, and scheduled pieces without a deadline have the
priority of their class. -/
structure Settled (maps : TorrentMaps) (numPieces : Nat) (schedule : Option CurrentSchedule) :
    Prop where
  stopped : ∀ piece < numPieces,
    (∀ stored, schedule = some stored → stored.priorities.lookup piece = none) →
    maps.effective piece = dontDownload
  scheduled : ∀ stored, schedule = some stored → ∀ piece < numPieces, ∀ priority,
    stored.priorities.lookup piece = some priority → maps.deadline piece = none →
    maps.effective piece = downloadPriorityFor priority stored.cold

/-- The plan for the demands at hand keeps every deadline, or turns its piece into readahead. -/
def MirroredTorrent.KeepsDeadlines (torrent : MirroredTorrent) (scheduling : Scheduling) :
    ScheduleAction → Prop
  | .change _ => True
  | .recompute _ => ∀ plan,
      buildStreamDemandPlan (collectDemands scheduling.bridge torrent.id).1 scheduling.bridge.window =
        .ok plan →
      ∀ piece ∈ deadlinesOf (scheduling.bridge.currentSchedules.lookup torrent.id),
        piece < torrent.numPieces → piece ∈ plan.deadlineOrder ∨ ⟨piece, .readahead⟩ ∈ plan.pieces

variable {torrent : MirroredTorrent} {scheduling : Scheduling}

/-- Every piece has the priority that the stored schedule gives it. -/
structure FollowsSchedule (torrent : MirroredTorrent) (scheduling : Scheduling) : Prop where
  mirrored : Mirrored torrent scheduling
  effective : (scheduling.stored = true ∨
      ∀ piece < torrent.numPieces, torrent.initial.effective piece = dontDownload) →
    ∀ piece < torrent.numPieces, (torrent.view scheduling.bridge).effective piece =
      targetPriority (scheduling.bridge.currentSchedules.lookup torrent.id) piece

theorem FollowsSchedule.initial (begins : torrent.Initial scheduling) :
    FollowsSchedule torrent scheduling := by
  refine ⟨Mirrored.initial begins, ?_⟩
  obtain ⟨unstored, unscheduled, told, _, _⟩ := begins
  rw [unscheduled, told]
  rintro (stored | idle) piece inside
  · simp [unstored] at stored
  · exact idle piece inside

theorem scheduledPriority_readahead {demands : List StreamDemand} {window : StreamWindow}
    {plan : StreamDemandPlan} (built : buildStreamDemandPlan demands window = .ok plan)
    (state : BridgeState) (id : String) (previous : Option CurrentSchedule) (cold : Bool)
    {piece : Nat} (listed : ⟨piece, .readahead⟩ ∈ plan.pieces) :
    scheduledPriority (fallback state id previous (combinedOf plan)) cold piece = lowPriority := by
  obtain ⟨once, _, _⟩ := buildStreamDemandPlan_deadlines built
  rw [fallback_eq_combinedOf once listed, scheduledPriority, (lookup_combinedOf once _ _).mpr listed]
  rfl

theorem FollowsSchedule.perform (follows : FollowsSchedule torrent scheduling)
    {action : ScheduleAction} (possible : torrent.Possible scheduling action)
    (keeps : torrent.KeepsDeadlines scheduling action) :
    FollowsSchedule torrent (torrent.perform scheduling action) := by
  have mirrored := follows.mirrored
  refine ⟨mirrored.perform possible, ?_⟩
  cases action with
  | change next =>
      obtain ⟨same, view⟩ := possible
      simp only [MirroredTorrent.perform, same, view]
      exact follows.effective
  | recompute lt =>
      obtain ⟨accepts, owned⟩ := possible
      simp only [MirroredTorrent.perform]
      rcases recomputeSchedule_cases accepts owned (fun schedule found =>
        (mirrored.known schedule found).1) mirrored.deadlines with ⟨view, same⟩ | ⟨plan, built, applied⟩
      · rw [view, same]
        rintro (stored | idle)
        · refine follows.effective (Or.inl ?_)
          rcases (Bool.or_eq_true _ _).mp stored with before | now
          · exact before
          · obtain ⟨schedule, found⟩ := Option.isSome_iff_exists.mp now
            exact (mirrored.known schedule found).2
        · exact follows.effective (Or.inr idle)
      · intro _ piece inside
        rw [applied.effective piece inside]
        · split
          · rename_i dropped
            rcases keeps plan built piece dropped.1 inside with kept | readahead
            · exact absurd kept dropped.2
            · rw [applied.target, scheduledPriority_readahead built _ _ _ _ readahead]
          · rfl
        · intro schedule found
          have before := follows.effective (Or.inl (mirrored.known schedule found).2) piece inside
          rw [found] at before
          exact before

/-- In every run whose recomputations keep each deadline or turn its piece into readahead, the
effective priorities are those of the schedule. -/
theorem reachable_settled {torrent : MirroredTorrent} {scheduling : Scheduling}
    (reached : Transition.Reachable torrent.Initial (fun scheduling action =>
      torrent.Possible scheduling action ∧ torrent.KeepsDeadlines scheduling action)
      torrent.perform scheduling)
    (known : scheduling.stored = true ∨
      ∀ piece < torrent.numPieces, torrent.initial.effective piece = dontDownload) :
    Settled (torrent.view scheduling.bridge) torrent.numPieces
      (scheduling.bridge.currentSchedules.lookup torrent.id) := by
  have follows : FollowsSchedule torrent scheduling :=
    reached.invariant (fun _ begins => FollowsSchedule.initial begins)
      (fun _ _ follows enabled => follows.perform enabled.1 enabled.2)
  have effective := follows.effective known
  constructor
  · intro piece inside unscheduled
    rw [effective piece inside]
    cases found : scheduling.bridge.currentSchedules.lookup torrent.id with
    | none => rfl
    | some stored =>
        rw [targetPriority, Option.elim_some, scheduledPriority, unscheduled stored found]
  · intro stored found piece inside priority listed _
    rw [effective piece inside, found, targetPriority, Option.elim_some, scheduledPriority, listed]

/-- The reader's schedule is recomputed while the reader stays where it is. -/
theorem reachable_settled_again :
    ∃ scheduling : Scheduling, deadlinesOf (scheduling.bridge.currentSchedules.lookup "t") = [0] ∧
      Settled (fourPiecesTorrent.view scheduling.bridge) 4
        (scheduling.bridge.currentSchedules.lookup "t") := by
  have begins : Transition.Reachable fourPiecesTorrent.Initial (fun scheduling action =>
      fourPiecesTorrent.Possible scheduling action ∧ fourPiecesTorrent.KeepsDeadlines scheduling action)
      fourPiecesTorrent.perform ⟨readingAt (.create 1024 1024 0) 0, false⟩ :=
    .start ⟨rfl, rfl, rfl, fun _ => rfl, fun _ => rfl⟩
  have started := begins.step (.recompute (.accepting fourPieces)) ⟨readingAt_possible _ _ _, by
    intro plan _ piece member
    exact absurd member List.not_mem_nil⟩
  have planned : (buildStreamDemandPlan (collectDemands fourPiecesStart.bridge "t").1
      fourPiecesStart.bridge.window).toOption.map StreamDemandPlan.deadlineOrder = some [0] := by
    decide +kernel
  have dated : deadlinesOf (fourPiecesStart.bridge.currentSchedules.lookup "t") = [0] := by
    decide +kernel
  have possible : fourPiecesTorrent.Possible fourPiecesStart (.recompute (.accepting fourPieces)) := by
    refine ⟨⟨rfl, fun _ => rfl, fourPieces, rfl, rfl⟩, ?_⟩
    intro handle collected
    have known : (collectDemands fourPiecesStart.bridge "t").2 = some 7 := by decide +kernel
    exact (Option.some.inj (known.symm.trans collected)).symm
  have keeps : fourPiecesTorrent.KeepsDeadlines fourPiecesStart
      (.recompute (.accepting fourPieces)) := by
    intro plan built piece member _
    change buildStreamDemandPlan (collectDemands fourPiecesStart.bridge "t").1
      fourPiecesStart.bridge.window = .ok plan at built
    change piece ∈ deadlinesOf (fourPiecesStart.bridge.currentSchedules.lookup "t") at member
    rw [built] at planned
    rw [dated] at member
    exact Or.inl (Option.some.inj planned ▸ member)
  have again := started.step _ ⟨possible, keeps⟩
  exact ⟨_, by decide +kernel, reachable_settled again (Or.inr fun _ _ => rfl)⟩

/-- After a seek the first piece, which is in no schedule any more, is left at low priority. -/
theorem settled_fails_seek :
    ¬ ∀ (torrent : MirroredTorrent) (scheduling : Scheduling), torrent.Reachable scheduling →
      scheduling.stored = true → Settled (torrent.view scheduling.bridge) torrent.numPieces
        (scheduling.bridge.currentSchedules.lookup torrent.id) := by
  intro always
  have settled := always fourPiecesTorrent fourPiecesSeek fourPiecesSeek_reachable (by decide +kernel)
  have left : (fourPiecesTorrent.view fourPiecesSeek.bridge).effective 0 = lowPriority := by
    decide +kernel
  have unscheduled : (fourPiecesSeek.bridge.currentSchedules.lookup "t").elim true
      (fun stored => (stored.priorities.lookup 0).isNone) = true := by decide +kernel
  have stopped := settled.stopped 0 (by decide) (by
    intro stored found
    change fourPiecesSeek.bridge.currentSchedules.lookup "t" = some stored at found
    rw [found] at unscheduled
    exact Option.isNone_iff_eq_none.mp unscheduled)
  rw [left] at stopped
  exact absurd stopped (by decide)

end NuvioEngine.Bridge
