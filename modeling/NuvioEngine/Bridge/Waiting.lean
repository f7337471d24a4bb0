import NuvioEngine.Bridge.PollRouting
import NuvioEngine.Bridge.Withdrawals

/-!
The waiters of a piece: partial blocks are kept only for pieces somebody waits for, and no piece
is kept with an empty list of waiters.
-/

namespace NuvioEngine.Bridge

open NuvioEngine.Scheduler NuvioEngine.Stream NuvioEngine.Cache BridgeState

/-- The torrents in `cleared` have no partial blocks at all. -/
structure Waiting (cleared : String → Prop) (state : BridgeState) : Prop where
  held : ∀ key blocks, state.partialBlocks.lookup key = some blocks →
    (state.pieceWaiters.lookup key).isSome ∧ ¬ cleared key.torrentId
  nonempty : ∀ key waiters, state.pieceWaiters.lookup key = some waiters → waiters ≠ []

/-- The lists of waiters and the partial blocks stay as they are. -/
structure SameWaits (before after : BridgeState) : Prop where
  pieceWaiters : after.pieceWaiters = before.pieceWaiters
  partialBlocks : after.partialBlocks = before.partialBlocks

namespace SameWaits

variable {first second third : BridgeState}

theorem refl (state : BridgeState) : SameWaits state state := ⟨rfl, rfl⟩

theorem trans (left : SameWaits first second) (right : SameWaits second third) :
    SameWaits first third :=
  ⟨right.pieceWaiters.trans left.pieceWaiters, right.partialBlocks.trans left.partialBlocks⟩

theorem foldl {α : Type} {step : BridgeState → α → BridgeState}
    (each : ∀ state item, SameWaits state (step state item)) (items : List α) (state : BridgeState) :
    SameWaits state (items.foldl step state) := by
  induction items generalizing state with
  | nil => exact refl state
  | cons item rest ih => exact (each state item).trans (ih (step state item))

end SameWaits

section Keep

variable {cleared : String → Prop} {first second : BridgeState}

theorem Waiting.congr (waiting : Waiting cleared first) (waiters : second.pieceWaiters = first.pieceWaiters)
    (blocks : second.partialBlocks = first.partialBlocks) : Waiting cleared second := by
  constructor
  · rw [blocks, waiters]
    exact waiting.held
  · rw [waiters]
    exact waiting.nonempty

theorem SameWaits.waiting (same : SameWaits first second) (waiting : Waiting cleared first) :
    Waiting cleared second :=
  waiting.congr same.pieceWaiters same.partialBlocks

end Keep

theorem completeWaiters_sameWaits (state : BridgeState) (data : Option (List UInt8)) (error : String)
    (waiters : List Nat) : SameWaits state (state.completeWaiters data error waiters) :=
  SameWaits.foldl (fun current waiter =>
    (⟨rfl, rfl⟩ : SameWaits current (current.completeWaiter data error waiter))) waiters state

theorem publishPartial_sameWaits (state : BridgeState) (key : PieceKey) :
    SameWaits state (state.publishPartial key) := by
  unfold publishPartial
  split
  · rename_i blocks waiters _ _
    exact SameWaits.foldl (fun current waiter =>
      (⟨rfl, rfl⟩ : SameWaits current (current.publishBlocks blocks waiter))) waiters state
  · exact SameWaits.refl state

namespace Waiting

variable {cleared : String → Prop} {state : BridgeState}

theorem dropWaiters (waiting : Waiting cleared state) (dropped : Nat → Bool) :
    Waiting cleared (state.dropWaiters dropped) := by
  unfold BridgeState.dropWaiters
  constructor
  · intro key blocks found
    obtain ⟨present, kept⟩ := (AList.lookup_eraseIf _ _ _ _).mp found
    obtain ⟨waited, allowed⟩ := waiting.held key blocks present
    obtain ⟨waiters, waits⟩ := Option.isSome_iff_exists.mp waited
    rw [waits] at kept
    simp only [List.all_eq_false] at kept
    obtain ⟨waiter, member, stays⟩ := kept
    have remains : (waiters.filter fun waiter => !dropped waiter) ≠ [] :=
      List.ne_nil_of_mem (List.mem_filter.mpr ⟨member, by simpa using stays⟩)
    refine ⟨?_, allowed⟩
    simp only [AList.lookup_filterMapEntries, waits, Option.bind_some, List.isEmpty_iff, remains,
      if_false, Option.isSome_some]
  · intro key waiters found
    rw [AList.lookup_filterMapEntries, Option.bind_eq_some_iff] at found
    obtain ⟨old, _, kept⟩ := found
    simp only at kept
    split at kept
    · simp at kept
    · rename_i remains
      obtain rfl := Option.some.inj kept
      simpa using remains

theorem erasePartial (waiting : Waiting cleared state) (key : PieceKey) :
    Waiting cleared { state with partialBlocks := state.partialBlocks.erase key } := by
  refine ⟨?_, waiting.nonempty⟩
  intro query blocks found
  rw [AList.lookup_erase_ite] at found
  split at found
  · simp at found
  · exact waiting.held query blocks found

theorem eraseKey (waiting : Waiting cleared state) {key : PieceKey}
    (absent : state.partialBlocks.lookup key = none) :
    Waiting cleared { state with pieceWaiters := state.pieceWaiters.erase key } := by
  constructor
  · intro query blocks found
    simp only [AList.lookup_erase_ite]
    split
    · rename_i same
      rw [same, absent] at found
      simp at found
    · exact waiting.held query blocks found
  · intro query waiters found
    simp only [AList.lookup_erase_ite] at found
    split at found
    · simp at found
    · exact waiting.nonempty query waiters found

theorem answer (waiting : Waiting cleared state) {key : PieceKey}
    (absent : state.partialBlocks.lookup key = none) (data : Option (List UInt8)) (error : String)
    (waiters : List Nat) :
    Waiting cleared { state.completeWaiters data error waiters with
      pieceWaiters := (state.completeWaiters data error waiters).pieceWaiters.erase key } := by
  have same := completeWaiters_sameWaits state data error waiters
  exact (same.waiting waiting).eraseKey (by rw [same.partialBlocks, absent])

theorem failPiece (waiting : Waiting cleared state) (key : PieceKey) (error : String) :
    Waiting cleared (state.failPiece key error) := by
  unfold BridgeState.failPiece
  simp only
  split
  · exact waiting.erasePartial key
  · exact (waiting.erasePartial key).answer (AList.lookup_erase _ _) none error _

theorem cancelDemandWaiters (waiting : Waiting cleared state) (demandId : Nat) (error : String) :
    Waiting cleared (state.cancelDemandWaiters demandId error) :=
  ((completeWaiters_sameWaits state none error _).waiting waiting).dropWaiters _

theorem withdraws {next : BridgeState} (waiting : Waiting cleared state)
    (withdraws : Withdraws state next) : Waiting cleared next := by
  induction withdraws with
  | quiet _ pieceWaiters partialBlocks => exact waiting.congr pieceWaiters partialBlocks
  | fail state key error => exact waiting.failPiece key error
  | cancel state demandId error => exact waiting.cancelDemandWaiters demandId error
  | trans _ _ left right => exact right (left waiting)

end Waiting

theorem setNeedsData_sameWaits (state : BridgeState) (demandId : Nat) (needsData : Bool) :
    SameWaits state (state.setNeedsData demandId needsData) := by
  unfold setNeedsData
  split <;> exact ⟨rfl, rfl⟩

namespace Waiting

variable {cleared : String → Prop} {state : BridgeState}

theorem holdWaiter (waiting : Waiting cleared state) (key : PieceKey) (waiter : Nat) :
    Waiting cleared (state.holdWaiter key waiter) := by
  unfold BridgeState.holdWaiter
  constructor
  · intro query blocks found
    obtain ⟨waited, allowed⟩ := waiting.held query blocks found
    refine ⟨?_, allowed⟩
    simp only [AList.lookup_insert_ite]
    split
    · rfl
    · exact waited
  · intro query waiters found
    simp only [AList.lookup_insert_ite] at found
    split at found
    · obtain rfl := Option.some.inj found
      simp
    · exact waiting.nonempty query waiters found

theorem publishWritten (waiting : Waiting cleared state) (lt : Libtorrent) (handle : Nat)
    (metadata : TorrentInfo) {key : PieceKey} (waiter : Nat)
    (held : (state.pieceWaiters.lookup key).isSome) (allowed : ¬ cleared key.torrentId) :
    Waiting cleared (state.publishWritten lt handle metadata key waiter) := by
  unfold BridgeState.publishWritten
  split
  · exact waiting.congr rfl rfl
  · refine ⟨?_, waiting.nonempty⟩
    intro query blocks found
    simp only [BridgeState.publishBlocks, AList.lookup_insert_ite] at found ⊢
    split at found
    · rename_i same
      exact same ▸ ⟨held, allowed⟩
    · exact waiting.held query blocks found

theorem awaitPiece (waiting : Waiting cleared state) (lt : Libtorrent) (metadata : TorrentInfo)
    (command : HttpCommand) (waiter : Nat) (allowed : ¬ cleared command.route.torrentId) :
    Waiting cleared (state.awaitPiece lt metadata command waiter) := by
  have held := waiting.holdWaiter ⟨command.route.torrentId, command.piece⟩ waiter
  unfold BridgeState.awaitPiece
  simp only
  split
  · exact held.withdraws ((setNeedsData_withdraws _ _ _).trans (requestRead_withdraws _ _ _ _))
  · refine ((setNeedsData_sameWaits _ _ _).waiting held).publishWritten lt _ metadata waiter ?_ allowed
    rw [(setNeedsData_sameWaits _ _ _).pieceWaiters]
    simp [BridgeState.holdWaiter, AList.lookup_insert]

theorem processPieceRequest (waiting : Waiting (fun _ => False) state) (lt : Libtorrent) (command : HttpCommand) :
    Waiting (fun _ => False) (state.processPieceRequest lt command).1 := by
  have completed : ∀ error waiter, Waiting (fun _ => False) (state.completeWaiter none error waiter) :=
    fun _ _ => waiting.congr rfl rfl
  unfold BridgeState.processPieceRequest
  split
  · exact waiting
  · split
    · exact completed _ _
    · split
      · exact waiting
      · exact completed _ _
      · split
        · exact completed _ _
        · split
          · refine Waiting.congr ((setNeedsData_sameWaits _ command.demandId false).waiting ?_) rfl rfl
            exact waiting.congr rfl rfl
          · refine Waiting.awaitPiece ?_ lt _ command _ (fun impossible => impossible)
            exact waiting.congr rfl rfl

theorem processCommand (waiting : Waiting (fun _ => False) state) (lt : Libtorrent) (command : HttpCommand) :
    Waiting (fun _ => False) (state.processCommand lt command).1 := by
  unfold BridgeState.processCommand
  split
  · simp only [beginDemand]
    split
    · exact waiting.congr rfl rfl
    · exact waiting.withdraws (cancelDemandState_withdraws _ _)
  · simp only [endDemand]
    split
    · exact waiting
    · exact waiting.congr rfl rfl
  · unfold BridgeState.readPiece
    split
    · split
      · exact waiting
      · exact waiting.congr rfl rfl
    · refine Waiting.processPieceRequest ?_ lt command
      exact waiting.congr rfl rfl

theorem processCommands (answers : Nat → Libtorrent) (commands : List HttpCommand)
    {state : BridgeState} (waiting : Waiting (fun _ => False) state) (position : Nat) (changed : List String) :
    Waiting (fun _ => False) (processCommands answers position commands state changed).1 := by
  induction commands generalizing state position changed with
  | nil => exact waiting
  | cons command rest ih =>
      rw [BridgeState.processCommands]
      split
      · exact waiting.processCommand _ _
      · exact ih (waiting.processCommand _ _) _ _

theorem poll (waiting : Waiting (fun _ => False) state) (answers : PollAnswers) :
    Waiting (fun _ => False) (state.poll answers).1 := by
  have emptied : Waiting (fun _ => False) { state with commands := [] } := waiting.congr rfl rfl
  have processed := Waiting.processCommands answers.command state.commands emptied 0 []
  unfold BridgeState.poll
  simp only
  split
  · exact processed
  · refine Waiting.withdraws ?_ (expireInactiveStreams_withdraws _ _ _)
    refine Waiting.withdraws ?_ (reissueStalledReads_withdraws _ _)
    refine Waiting.withdraws ?_ (recomputeAll_withdraws _ _ _)
    exact processed.dropWaiters _

/-- `remove_torrent` clears the partial blocks first, so the torrent's waiters may go last. -/
theorem removeTorrent (waiting : Waiting (fun _ => False) state) (lt : Libtorrent) (id : String) :
    Waiting (fun _ => False) (removeTorrent lt state id) := by
  have cancels := removed_cancels state id
  have waiters : (removed state id).pieceWaiters = state.pieceWaiters :=
    (congrArg BridgeState.pieceWaiters cancels).trans rfl
  have start : Waiting (fun other => other = id) (removed state id) := by
    constructor
    · intro key blocks found
      rw [show (removed state id).partialBlocks = _ from
        congrArg BridgeState.partialBlocks cancels] at found
      obtain ⟨present, other⟩ := (AList.lookup_eraseIf _ _ _ _).mp found
      rw [waiters]
      exact ⟨(waiting.held key blocks present).1, by simpa using other⟩
    · rw [waiters]
      exact waiting.nonempty
  have computed := start.withdraws (recomputeSchedule_withdraws lt id _)
  unfold BridgeState.removeTorrent
  simp only
  change Waiting _ { (recomputeSchedule lt (removed state id) id).completeWaiters none
    "torrent was removed" _ with pieceWaiters := _ }
  have same := completeWaiters_sameWaits (recomputeSchedule lt (removed state id) id) none
    "torrent was removed" (((recomputeSchedule lt (removed state id) id).pieceWaiters.entries.filter
      fun entry => entry.1.torrentId = id).flatMap fun entry => entry.2)
  have completed := same.waiting computed
  constructor
  · intro key blocks found
    obtain ⟨waited, other⟩ := completed.held key blocks found
    obtain ⟨list, present⟩ := Option.isSome_iff_exists.mp waited
    refine ⟨Option.isSome_iff_exists.mpr ⟨list, ?_⟩, fun impossible => impossible⟩
    exact (AList.lookup_eraseIf _ _ _ _).mpr ⟨present, by simpa using other⟩
  · intro key list found
    exact completed.nonempty key list ((AList.lookup_eraseIf _ _ _ _).mp found).1

theorem deliverPiece (waiting : Waiting cleared state) {key : PieceKey}
    (absent : state.partialBlocks.lookup key = none) (buffer : List UInt8) :
    Waiting cleared (state.deliverPiece key buffer) := by
  have kept : Waiting cleared (state.keepPiece key buffer) := waiting.congr rfl rfl
  unfold BridgeState.deliverPiece
  simp only
  split
  · exact kept
  · exact kept.answer absent (some buffer) "" _

theorem handleReadPiece (waiting : Waiting cleared state) (alert : ReadPieceAlert) :
    Waiting cleared (state.handleReadPiece alert) := by
  have forgotten : ∀ key, Waiting cleared (state.forgetRead key) :=
    fun key => (waiting.erasePartial key).congr rfl rfl
  unfold BridgeState.handleReadPiece
  simp only
  split
  · exact (forgotten _).failPiece _ _
  · exact (forgotten _).failPiece _ _
  · split
    · exact (forgotten _).failPiece _ _
    · exact (forgotten _).deliverPiece (AList.lookup_erase _ _) _

theorem setBlocks (waiting : Waiting cleared state) {key : PieceKey} {old : List Bool}
    (found : state.partialBlocks.lookup key = some old) (blocks : List Bool) :
    Waiting cleared (state.setBlocks key blocks) := by
  refine ⟨?_, waiting.nonempty⟩
  intro query list present
  simp only [BridgeState.setBlocks, AList.lookup_insert_ite] at present
  split at present
  · rename_i same
    exact same ▸ waiting.held key old found
  · exact waiting.held query list present

theorem handleBlockFinished (waiting : Waiting cleared state) (lt : Libtorrent) (torrentId : String)
    (piece block : Nat) : Waiting cleared (handleBlockFinished lt state torrentId piece block) := by
  unfold BridgeState.handleBlockFinished
  simp only
  split
  · exact waiting
  · rename_i blocks found
    have published := (publishPartial_sameWaits _ ⟨torrentId, piece⟩).waiting
      (waiting.setBlocks found (blocks.set block true))
    split
    · exact waiting
    · split
      · exact published
      · exact published.withdraws (recomputeSchedule_withdraws lt torrentId _)

theorem handleHashFailed (waiting : Waiting cleared state) (torrentId : String) (piece : Nat) :
    Waiting cleared (state.handleHashFailed torrentId piece) := by
  unfold BridgeState.handleHashFailed
  simp only
  split
  · exact waiting
  · rename_i blocks found
    exact (publishPartial_sameWaits _ _).waiting (waiting.setBlocks found _)

end Waiting

end NuvioEngine.Bridge
