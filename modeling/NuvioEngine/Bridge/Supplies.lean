import NuvioEngine.Bridge.Cancellation
import NuvioEngine.Bridge.DrainCore

/-!
Where the bytes that a waiter is given come from: the buffer of a `read_piece_alert`, for the waiters that
are held for its piece, or the cache, for the waiter of a `read_piece` command. The rest of the worker's
operations answer waiters with errors only.
-/

namespace NuvioEngine.Bridge

open NuvioEngine.Scheduler NuvioEngine.Stream NuvioEngine.Cache BridgeState

/-- Waiters keep their demand, an answered one stays as it is, and whoever has new bytes was given them. -/
structure Supplies (given : Nat → List UInt8 → Prop) (before after : BridgeState) : Prop where
  demandId : ∀ waiter, (after.waiters waiter).demandId = (before.waiters waiter).demandId
  cancelled : ∀ waiter, (after.waiters waiter).cancelled = (before.waiters waiter).cancelled
  answered : ∀ waiter, (before.waiters waiter).done = true → after.waiters waiter = before.waiters waiter
  data : ∀ waiter data, (after.waiters waiter).data = some data →
    (before.waiters waiter).data = some data ∨ given waiter data

namespace Supplies

variable {given wider : Nat → List UInt8 → Prop} {first second third : BridgeState}

theorem same (waiters : second.waiters = first.waiters) : Supplies given first second :=
  ⟨fun _ => by rw [waiters], fun _ => by rw [waiters], fun _ _ => by rw [waiters],
    fun _ _ had => .inl (waiters ▸ had)⟩

theorem refl (state : BridgeState) : Supplies given state state := same rfl

theorem trans (left : Supplies given first second) (right : Supplies given second third) :
    Supplies given first third := by
  refine ⟨fun waiter => (right.demandId waiter).trans (left.demandId waiter),
    fun waiter => (right.cancelled waiter).trans (left.cancelled waiter), ?_, ?_⟩
  · intro waiter done
    have same := left.answered waiter done
    rw [right.answered waiter (by rw [same]; exact done), same]
  · intro waiter data had
    rcases right.data waiter data had with before | new
    · exact left.data waiter data before
    · exact .inr new

theorem foldl {α : Type} {step : BridgeState → α → BridgeState}
    (each : ∀ state item, Supplies given state (step state item)) (items : List α) (state : BridgeState) :
    Supplies given state (items.foldl step state) := by
  induction items generalizing state with
  | nil => exact refl state
  | cons item rest ih => exact (each state item).trans (ih (step state item))

theorem mono (supplies : Supplies given first second)
    (covered : ∀ waiter data, given waiter data → wider waiter data) : Supplies wider first second :=
  ⟨supplies.demandId, supplies.cancelled, supplies.answered,
    fun waiter data had => (supplies.data waiter data had).imp_right (covered waiter data)⟩

theorem done (supplies : Supplies given first second) {waiter : Nat}
    (past : (first.waiters waiter).done = true) : (second.waiters waiter).done = true := by
  rw [supplies.answered waiter past]
  exact past

theorem finishes (supplies : Supplies given first second) {waiter : Nat}
    (past : finished (first.waiters waiter) = true) : finished (second.waiters waiter) = true := by
  simp only [finished, Bool.or_eq_true] at past ⊢
  rcases past with done | cancelled
  · exact .inl (supplies.done done)
  · exact .inr ((supplies.cancelled waiter).trans cancelled)

end Supplies

section Heap

variable {given : Nat → List UInt8 → Prop} (state : BridgeState)

/-- One answer for a list of waiters. -/
theorem completed_supplies (data : Option (List UInt8)) (error : String) (waiters : List Nat)
    (supplied : ∀ waiter ∈ waiters, ∀ buffer, data = some buffer → given waiter buffer) {next : BridgeState}
    (heap : next.waiters = (state.completeWaiters data error waiters).waiters) :
    Supplies given state next := by
  have changed : ∀ waiter, next.waiters waiter =
      if waiter ∈ waiters then Stream.completeWaiter (state.waiters waiter) data error
      else state.waiters waiter :=
    fun waiter => by rw [heap, completeWaiters_waiters]
  refine ⟨?_, ?_, ?_, ?_⟩
  · intro waiter
    rw [changed]
    unfold Stream.completeWaiter
    split
    · split <;> rfl
    · rfl
  · intro waiter
    rw [changed]
    split
    · exact completeWaiter_cancelled _ _ _
    · rfl
  · intro waiter done
    rw [changed]
    split
    · exact completeWaiter_done done data error
    · rfl
  · intro waiter buffer had
    rw [changed] at had
    split at had
    · rename_i member
      unfold Stream.completeWaiter at had
      split at had
      · exact .inl had
      · exact .inr (supplied waiter member buffer had)
    · exact .inl had

theorem completeWaiters_supplies (error : String) (waiters : List Nat) :
    Supplies given state (state.completeWaiters none error waiters) :=
  completed_supplies state none error waiters (fun _ _ _ impossible => by simp at impossible) rfl

theorem publishBlocks_supplies (blocks : List Bool) (waiter : Nat) :
    Supplies given state (state.publishBlocks blocks waiter) := by
  have each : ∀ other, (state.publishBlocks blocks waiter).waiters other = state.waiters other ∨
      ((state.waiters other).done = false ∧ (state.publishBlocks blocks waiter).waiters other =
        { state.waiters other with finishedBlocks := blocks }) := by
    intro other
    simp only [BridgeState.publishBlocks, Function.update_apply]
    split
    · rename_i same
      subst same
      unfold Stream.publishBlocks
      split
      · exact .inl rfl
      · rename_i open_
        simp only [Bool.or_eq_true, not_or, Bool.not_eq_true] at open_
        exact .inr ⟨open_.1, rfl⟩
    · exact .inl rfl
  refine ⟨?_, ?_, ?_, ?_⟩
  · intro other
    rcases each other with same | ⟨_, same⟩ <;> rw [same]
  · intro other
    rcases each other with same | ⟨_, same⟩ <;> rw [same]
  · intro other done
    rcases each other with same | ⟨undone, _⟩
    · exact same
    · rw [undone] at done
      simp at done
  · intro other data had
    rcases each other with same | ⟨_, same⟩
    · exact .inl (same ▸ had)
    · rw [same] at had
      exact .inl had

theorem publishPartial_supplies (key : PieceKey) : Supplies given state (state.publishPartial key) := by
  unfold publishPartial
  split
  · exact Supplies.foldl (fun current waiter => publishBlocks_supplies current _ waiter) _ state
  · exact .refl state

theorem failPiece_supplies (key : PieceKey) (error : String) :
    Supplies given state (state.failPiece key error) := by
  unfold failPiece
  simp only
  split
  · exact .same rfl
  · rename_i waiters _
    refine completed_supplies state none error waiters (fun _ _ _ impossible => by simp at impossible) ?_
    rw [completeWaiters_eq, completeWaiters_eq]

end Heap

theorem Withdraws.supplies {given : Nat → List UInt8 → Prop} {before after : BridgeState}
    (withdraws : Withdraws before after) : Supplies given before after := by
  induction withdraws with
  | quiet waiters _ _ => exact .same waiters
  | fail state key error => exact failPiece_supplies state key error
  | cancel state demandId error =>
      exact (completeWaiters_supplies state error _).trans (.same rfl)
  | trans _ _ left right => exact left.trans right

section Operations

variable {given : Nat → List UInt8 → Prop} (lt : Libtorrent) (state : BridgeState)

theorem removeTorrent_supplies (id : String) : Supplies given state (removeTorrent lt state id) := by
  have cleared : Supplies given state (removed state id) :=
    .same ((congrArg BridgeState.waiters (removed_cancels state id)).trans rfl)
  have computed := cleared.trans (recomputeSchedule_withdraws lt id (removed state id)).supplies
  unfold removeTorrent
  simp only
  refine computed.trans ?_
  exact completed_supplies _ none "torrent was removed" _ (fun _ _ _ impossible => by simp at impossible) rfl

/-- The buffer of an alert goes to the waiters that are held for its piece. -/
theorem handleReadPiece_supplies (alert : ReadPieceAlert) :
    Supplies (fun waiter data => Held state ⟨alert.torrentId, alert.piece⟩ waiter ∧ alert.error = none ∧
      alert.buffer = some data) state (state.handleReadPiece alert) := by
  have cleared : Supplies (fun waiter data => Held state ⟨alert.torrentId, alert.piece⟩ waiter ∧
      alert.error = none ∧ alert.buffer = some data) state (state.forgetRead ⟨alert.torrentId, alert.piece⟩) :=
    .same rfl
  have failed := fun message => cleared.trans (failPiece_supplies _ ⟨alert.torrentId, alert.piece⟩ message)
  unfold handleReadPiece
  simp only
  split
  · exact failed _
  · exact failed _
  · rename_i buffer clean given
    split
    · exact failed _
    · unfold deliverPiece
      simp only
      split
      · exact .same rfl
      · rename_i waiters found
        refine completed_supplies state (some buffer) "" waiters ?_ ?_
        · intro waiter member data same
          obtain rfl := Option.some.inj same
          exact ⟨⟨waiters, found, member⟩, clean, given⟩
        · rw [completeWaiters_eq, completeWaiters_eq]
          rfl

theorem setBlocks_supplies (key : PieceKey) (blocks : List Bool) :
    Supplies given state ((state.setBlocks key blocks).publishPartial key) := by
  have kept : Supplies given state (state.setBlocks key blocks) := .same rfl
  exact kept.trans (publishPartial_supplies _ key)

theorem handleBlockFinished_supplies (torrentId : String) (piece block : Nat) :
    Supplies given state (handleBlockFinished lt state torrentId piece block) := by
  unfold handleBlockFinished
  simp only
  split
  · exact .refl state
  · split
    · exact .refl state
    · split
      · exact setBlocks_supplies state _ _
      · exact (setBlocks_supplies state _ _).trans (recomputeSchedule_withdraws lt torrentId _).supplies

theorem handleHashFailed_supplies (torrentId : String) (piece : Nat) :
    Supplies given state (state.handleHashFailed torrentId piece) := by
  unfold handleHashFailed
  simp only
  split
  · exact .refl state
  · exact setBlocks_supplies state _ _

end Operations

def Cached (state : BridgeState) (key : PieceKey) (data : List UInt8) : Prop :=
  ∃ entry, state.pieceCache.entries.lookup key = some entry ∧ entry.data = data

/-- A read of a cached piece answers its own waiter. -/
def FromCache (command : HttpCommand) (state : BridgeState) (waiter : Nat) (data : List UInt8) : Prop :=
  command.type = .readPiece ∧ command.waiter = some waiter ∧
    Cached state ⟨command.route.torrentId, command.piece⟩ data

section Batch

variable {given : Nat → List UInt8 → Prop} (state : BridgeState) (lt : Libtorrent)

theorem publishWritten_supplies (handle : Nat) (metadata : TorrentInfo) (key : PieceKey) (waiter : Nat) :
    Supplies given state (state.publishWritten lt handle metadata key waiter) := by
  unfold publishWritten
  split
  · exact publishBlocks_supplies state _ waiter
  · refine Supplies.trans ?_ (publishBlocks_supplies _ _ waiter)
    exact .same rfl

theorem awaitPiece_supplies (metadata : TorrentInfo) (command : HttpCommand) (waiter : Nat) :
    Supplies given state (state.awaitPiece lt metadata command waiter) := by
  have held : Supplies given state
      (state.holdWaiter ⟨command.route.torrentId, command.piece⟩ waiter) := .same rfl
  have marked := fun needsData => held.trans (setNeedsData_withdraws _ command.demandId needsData).supplies
  unfold awaitPiece
  simp only
  split
  · exact (marked _).trans (requestRead_withdraws lt _ _ _).supplies
  · exact (marked _).trans (publishWritten_supplies _ lt _ _ _ _)

theorem get_some {cache next : VerifiedPieceCache} {key : PieceKey} {data : List UInt8}
    (hit : cache.get key = (some data, next)) :
    ∃ entry, cache.entries.lookup key = some entry ∧ entry.data = data := by
  unfold VerifiedPieceCache.get at hit
  split at hit
  · simp at hit
  · rename_i entry found
    exact ⟨entry, found, Option.some.inj (Prod.mk.inj hit).1⟩

theorem processPieceRequest_supplies {command : HttpCommand} (kind : command.type = .readPiece) :
    Supplies (FromCache command state) state (state.processPieceRequest lt command).1 := by
  unfold processPieceRequest
  split
  · exact .refl state
  · rename_i waiter own
    have failed : ∀ error, Supplies (FromCache command state) state (state.completeWaiter none error waiter) :=
      fun error => completeWaiters_supplies state error [waiter]
    split
    · exact failed _
    · split
      · exact .refl state
      · exact failed _
      · split
        · exact failed _
        · split
          · rename_i cached cache hit
            have ready : Supplies (FromCache command state) state { state with
                pieceCache := cache
                lastReadyPieces := state.lastReadyPieces.insert command.route.torrentId command.piece } :=
              .same rfl
            refine (ready.trans (setNeedsData_withdraws _ command.demandId false).supplies).trans ?_
            refine completed_supplies _ (some cached) "" [waiter] ?_ rfl
            intro other member data same
            obtain rfl := List.mem_singleton.mp member
            obtain rfl := Option.some.inj same
            exact ⟨kind, own, get_some hit⟩
          · rename_i cache _
            have missed : Supplies (FromCache command state) state { state with pieceCache := cache } := .same rfl
            exact missed.trans (awaitPiece_supplies _ lt _ command waiter)

theorem processCommand_supplies (command : HttpCommand) :
    Supplies (FromCache command state) state (state.processCommand lt command).1 := by
  unfold processCommand
  cases kind : command.type with
  | beginDemand =>
      simp only [beginDemand]
      split
      · exact .same rfl
      · exact (cancelDemandState_withdraws state command.demandState).supplies
  | endDemand =>
      simp only [endDemand]
      split <;> exact .same rfl
  | readPiece =>
      simp only [BridgeState.readPiece]
      split
      · split
        · exact .refl state
        · exact completeWaiters_supplies state "stream demand is no longer active" [_]
      · rename_i demand _
        have moved : Supplies (FromCache command state) state
            (state.moveDemand command.demandId demand command.range) := .same rfl
        refine moved.trans ?_
        exact processPieceRequest_supplies (state.moveDemand command.demandId demand command.range) lt kind

theorem processCommands_supplies (answers : Nat → Libtorrent) (commands : List HttpCommand) (position : Nat)
    (changed : List String) :
    Supplies (fun waiter data => ∃ command ∈ commands, FromCache command state waiter data) state
        (processCommands answers position commands state changed).1 ∧
      (processCommands answers position commands state changed).1.pieceCache.entries =
        state.pieceCache.entries := by
  induction commands generalizing position state changed with
  | nil => exact ⟨.refl state, rfl⟩
  | cons command rest ih =>
      have cache := (processCommand_registers state (answers position) command).cache
      have here : Supplies (fun waiter data => ∃ other ∈ command :: rest, FromCache other state waiter data) state
          (state.processCommand (answers position) command).1 :=
        (processCommand_supplies state (answers position) command).mono
          fun waiter data reads => ⟨command, List.mem_cons_self, reads⟩
      rw [processCommands]
      split
      · exact ⟨here, cache⟩
      · obtain ⟨later, same⟩ := ih (state.processCommand (answers position) command).1 (position + 1) _
        refine ⟨here.trans (later.mono ?_), same.trans cache⟩
        rintro waiter data ⟨other, member, kind, own, entry, found, bytes⟩
        exact ⟨other, List.mem_cons_of_mem _ member, kind, own, entry, cache ▸ found, bytes⟩

end Batch

end NuvioEngine.Bridge
