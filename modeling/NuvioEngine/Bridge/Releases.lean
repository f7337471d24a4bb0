import NuvioEngine.Bridge.Serving
import NuvioEngine.Bridge.Withdrawals

/-!
How waiters leave the bridge. Whatever the worker does to a waiter that is held, it answers it when
it lets it go, and it answers no other waiter.
-/

namespace NuvioEngine.Bridge

open NuvioEngine.Scheduler NuvioEngine.Stream NuvioEngine.Cache BridgeState

/-- Nobody new waits, whoever goes is finished, and only those who go are answered. -/
structure Releases (before after : BridgeState) : Prop where
  drops : ∀ key waiter, Held after key waiter → Held before key waiter
  cancelled : ∀ waiter, (after.waiters waiter).cancelled = (before.waiters waiter).cancelled
  stays : ∀ waiter, (before.waiters waiter).done = true → (after.waiters waiter).done = true
  leaves : ∀ key waiter, Held before key waiter →
    Held after key waiter ∨ finished (after.waiters waiter) = true
  answers : ∀ waiter, (after.waiters waiter).done = true → (before.waiters waiter).done = true ∨
    ∃ key, Held before key waiter ∧ ¬ Held after key waiter

namespace Releases

variable {first second third : BridgeState}

theorem finishes (releases : Releases first second) {waiter : Nat}
    (past : finished (first.waiters waiter) = true) : finished (second.waiters waiter) = true := by
  simp only [finished, Bool.or_eq_true] at past ⊢
  rcases past with done | cancelled
  · exact Or.inl (releases.stays waiter done)
  · exact Or.inr ((releases.cancelled waiter).trans cancelled)

theorem same (waiters : second.waiters = first.waiters)
    (pieceWaiters : second.pieceWaiters = first.pieceWaiters) : Releases first second := by
  have held : ∀ key waiter, Held second key waiter ↔ Held first key waiter := by
    intro key waiter
    rw [Held, Held, pieceWaiters]
  refine ⟨fun key waiter => (held key waiter).mp, ?_, ?_, fun key waiter old =>
    Or.inl ((held key waiter).mpr old), ?_⟩
  · intro waiter
    rw [waiters]
  · intro waiter
    rw [waiters]
    exact id
  · intro waiter
    rw [waiters]
    exact Or.inl

theorem refl (state : BridgeState) : Releases state state := same rfl rfl

theorem trans (left : Releases first second) (right : Releases second third) :
    Releases first third := by
  refine ⟨fun key waiter held => left.drops key waiter (right.drops key waiter held),
    fun waiter => (right.cancelled waiter).trans (left.cancelled waiter),
    fun waiter done => right.stays waiter (left.stays waiter done), ?_, ?_⟩
  · intro key waiter held
    rcases left.leaves key waiter held with still | past
    · exact right.leaves key waiter still
    · exact Or.inr (right.finishes past)
  · intro waiter done
    rcases right.answers waiter done with earlier | ⟨key, held, gone⟩
    · rcases left.answers waiter earlier with before | ⟨key, held, gone⟩
      · exact Or.inl before
      · exact Or.inr ⟨key, held, fun now => gone (right.drops key waiter now)⟩
    · exact Or.inr ⟨key, left.drops key waiter held, gone⟩

theorem foldl {α : Type} {step : BridgeState → α → BridgeState}
    (each : ∀ state item, Releases state (step state item)) (items : List α) (state : BridgeState) :
    Releases state (items.foldl step state) := by
  induction items generalizing state with
  | nil => exact refl state
  | cons item rest ih => exact (each state item).trans (ih (step state item))

end Releases

section Answer

variable (state : BridgeState)

theorem completeWaiters_waiters (data : Option (List UInt8)) (error : String) (waiters : List Nat)
    (waiter : Nat) :
    (state.completeWaiters data error waiters).waiters waiter =
      if waiter ∈ waiters then Stream.completeWaiter (state.waiters waiter) data error
      else state.waiters waiter := by
  have twice : ∀ waiting : PieceWaiter, Stream.completeWaiter (Stream.completeWaiter waiting data error)
      data error = Stream.completeWaiter waiting data error := by
    intro waiting
    unfold Stream.completeWaiter
    split <;> simp
  induction waiters generalizing state with
  | nil => rfl
  | cons first rest ih =>
      rw [completeWaiters, List.foldl_cons]
      refine (ih _).trans ?_
      simp only [BridgeState.completeWaiter, List.mem_cons]
      by_cases same : waiter = first
      · subst same
        simp [twice]
      · simp [same]

theorem completeWaiter_cancelled (waiter : PieceWaiter) (data : Option (List UInt8)) (error : String) :
    (Stream.completeWaiter waiter data error).cancelled = waiter.cancelled := by
  unfold Stream.completeWaiter
  split <;> rfl

theorem completeWaiter_finished (waiter : PieceWaiter) (data : Option (List UInt8)) (error : String) :
    finished (Stream.completeWaiter waiter data error) = true := by
  unfold Stream.completeWaiter
  split
  · rename_i past
    simpa [finished, Bool.or_comm] using past
  · simp [finished]

theorem completeWaiter_done {waiter : PieceWaiter} (done : waiter.done = true)
    (data : Option (List UInt8)) (error : String) :
    Stream.completeWaiter waiter data error = waiter := by
  simp [Stream.completeWaiter, done]

theorem answered_releases (data : Option (List UInt8)) (error : String) (waiters : List Nat)
    {next : BridgeState} (heap : next.waiters = (state.completeWaiters data error waiters).waiters)
    (drops : ∀ key waiter, Held next key waiter → Held state key waiter)
    (stays : ∀ key waiter, Held state key waiter → Held next key waiter ∨ waiter ∈ waiters)
    (goes : ∀ waiter ∈ waiters, ∃ key, Held state key waiter ∧ ¬ Held next key waiter) :
    Releases state next := by
  have changed : ∀ waiter, next.waiters waiter =
      if waiter ∈ waiters then Stream.completeWaiter (state.waiters waiter) data error
      else state.waiters waiter :=
    fun waiter => by rw [heap, completeWaiters_waiters]
  refine ⟨drops, ?_, ?_, ?_, ?_⟩
  · intro waiter
    rw [changed]
    split
    · exact completeWaiter_cancelled _ _ _
    · rfl
  · intro waiter done
    rw [changed]
    split
    · rw [completeWaiter_done done]
      exact done
    · exact done
  · intro key waiter held
    rcases stays key waiter held with still | member
    · exact Or.inl still
    · right
      rw [changed, if_pos member]
      exact completeWaiter_finished _ _ _
  · intro waiter done
    rw [changed] at done
    split at done
    · rename_i member
      exact Or.inr (goes waiter member)
    · exact Or.inl done

theorem lookup_erase_held {key query : PieceKey} {waiter : Nat} {next : BridgeState}
    (erased : next.pieceWaiters = state.pieceWaiters.erase key) :
    Held next query waiter ↔ Held state query waiter ∧ query ≠ key := by
  simp only [Held, erased, AList.lookup_erase_ite]
  by_cases same : query = key
  · simp [same]
  · simp [same]

theorem answerKey_releases (data : Option (List UInt8)) (error : String) {key : PieceKey}
    {waiters : List Nat} (found : state.pieceWaiters.lookup key = some waiters) {next : BridgeState}
    (heap : next.waiters = (state.completeWaiters data error waiters).waiters)
    (erased : next.pieceWaiters = state.pieceWaiters.erase key) : Releases state next := by
  refine answered_releases state data error waiters heap ?_ ?_ ?_
  · intro query waiter held
    exact ((lookup_erase_held state erased).mp held).1
  · intro query waiter held
    by_cases same : query = key
    · subst same
      obtain ⟨list, present, member⟩ := held
      rw [found] at present
      exact Or.inr (Option.some.inj present ▸ member)
    · exact Or.inl ((lookup_erase_held state erased).mpr ⟨held, same⟩)
  · intro waiter member
    exact ⟨key, ⟨waiters, found, member⟩, fun held => ((lookup_erase_held state erased).mp held).2 rfl⟩

theorem failPiece_releases (key : PieceKey) (error : String) :
    Releases state (state.failPiece key error) := by
  unfold failPiece
  simp only
  split
  · exact Releases.same rfl rfl
  · rename_i waiters found
    refine answerKey_releases state none error found ?_ ?_
    · rw [completeWaiters_eq, completeWaiters_eq]
    · rw [completeWaiters_eq]

theorem publishBlocks_releases (blocks : List Bool) (waiter : Nat) :
    Releases state (state.publishBlocks blocks waiter) := by
  have heap : ∀ other, ((state.publishBlocks blocks waiter).waiters other).done =
      (state.waiters other).done ∧ ((state.publishBlocks blocks waiter).waiters other).cancelled =
      (state.waiters other).cancelled := by
    intro other
    simp only [BridgeState.publishBlocks, Function.update_apply]
    split
    · rename_i same
      subst same
      unfold Stream.publishBlocks
      split <;> exact ⟨rfl, rfl⟩
    · exact ⟨rfl, rfl⟩
  refine ⟨fun _ _ held => held, fun other => (heap other).2, ?_, fun _ _ held => Or.inl held, ?_⟩
  · intro other done
    exact (heap other).1.trans done
  · intro other done
    exact Or.inl ((heap other).1.symm.trans done)

theorem publishPartial_releases (key : PieceKey) : Releases state (state.publishPartial key) := by
  unfold publishPartial
  split
  · exact Releases.foldl (fun current waiter => publishBlocks_releases current _ waiter) _ state
  · exact Releases.refl state

theorem held_dropWaiters {dropped : Nat → Bool} {key : PieceKey} {waiter : Nat} :
    Held (state.dropWaiters dropped) key waiter ↔ Held state key waiter ∧ dropped waiter = false := by
  simp only [Held, dropWaiters, AList.lookup_filterMapEntries, Option.bind_eq_some_iff]
  constructor
  · rintro ⟨kept, ⟨waiters, found, change⟩, member⟩
    split at change
    · simp at change
    · obtain rfl := Option.some.inj change
      obtain ⟨inside, keep⟩ := List.mem_filter.mp member
      exact ⟨⟨waiters, found, inside⟩, by simpa using keep⟩
  · rintro ⟨⟨waiters, found, member⟩, keep⟩
    have inside : waiter ∈ waiters.filter fun waiter => !dropped waiter :=
      List.mem_filter.mpr ⟨member, by simp [keep]⟩
    refine ⟨_, ⟨waiters, found, ?_⟩, inside⟩
    rw [if_neg]
    intro empty
    rw [List.isEmpty_iff.mp empty] at inside
    simp at inside

theorem mem_owned {demandId waiter : Nat} :
    waiter ∈ (state.pieceWaiters.entries.flatMap fun entry =>
        entry.2.filter fun waiter => (state.waiters waiter).demandId = demandId) ↔
      (∃ key, Held state key waiter) ∧ (state.waiters waiter).demandId = demandId := by
  simp only [List.mem_flatMap, List.mem_filter, decide_eq_true_eq]
  constructor
  · rintro ⟨⟨key, waiters⟩, listed, member, owner⟩
    exact ⟨⟨key, waiters, (AList.lookup_eq_some_iff _ _ _).mpr listed, member⟩, owner⟩
  · rintro ⟨⟨key, waiters, found, member⟩, owner⟩
    exact ⟨⟨key, waiters⟩, (AList.lookup_eq_some_iff _ _ _).mp found, member, owner⟩

theorem cancelDemandWaiters_releases (demandId : Nat) (error : String) :
    Releases state (state.cancelDemandWaiters demandId error) := by
  have owner : ∀ waiters waiter, ((state.completeWaiters none error waiters).waiters waiter).demandId =
      (state.waiters waiter).demandId :=
    fun waiters waiter => ((completeWaiters_eases state none error waiters).holds.heap waiter).1
  have held : ∀ key waiter, Held (state.cancelDemandWaiters demandId error) key waiter ↔
      Held state key waiter ∧ (state.waiters waiter).demandId ≠ demandId := by
    intro key waiter
    unfold cancelDemandWaiters
    simp only [held_dropWaiters, owner, decide_eq_false_iff_not]
    rw [Held, Held, (completeWaiters_sameWaits _ _ _ _).pieceWaiters]
  refine answered_releases state none error _ rfl ?_ ?_ ?_
  · intro key waiter still
    exact ((held key waiter).mp still).1
  · intro key waiter old
    by_cases owned : (state.waiters waiter).demandId = demandId
    · exact Or.inr ((mem_owned state).mpr ⟨⟨key, old⟩, owned⟩)
    · exact Or.inl ((held key waiter).mpr ⟨old, owned⟩)
  · intro waiter member
    obtain ⟨⟨key, old⟩, owned⟩ := (mem_owned state).mp member
    exact ⟨key, old, fun still => ((held key waiter).mp still).2 owned⟩

end Answer

theorem Withdraws.releases {before after : BridgeState} (withdraws : Withdraws before after) :
    Releases before after := by
  induction withdraws with
  | quiet waiters pieceWaiters _ => exact Releases.same waiters pieceWaiters
  | fail state key error => exact failPiece_releases state key error
  | cancel state demandId error => exact cancelDemandWaiters_releases state demandId error
  | trans _ _ left right => exact left.trans right

section Operations

variable (lt : Libtorrent) (state : BridgeState)

theorem removed_releases (id : String) : Releases state (removed state id) :=
  Releases.same ((congrArg BridgeState.waiters (removed_cancels state id)).trans rfl)
    ((congrArg BridgeState.pieceWaiters (removed_cancels state id)).trans rfl)

theorem eraseTorrent_releases (id error : String) :
    Releases state { state.completeWaiters none error
        ((state.pieceWaiters.entries.filter fun entry => entry.1.torrentId = id).flatMap
          fun entry => entry.2) with
      pieceWaiters := state.pieceWaiters.eraseIf fun key _ => key.torrentId = id } := by
  have waiting : ∀ waiter, waiter ∈ ((state.pieceWaiters.entries.filter fun entry =>
      entry.1.torrentId = id).flatMap fun entry => entry.2) ↔
        ∃ key, Held state key waiter ∧ key.torrentId = id := by
    intro waiter
    simp only [List.mem_flatMap, List.mem_filter, decide_eq_true_eq]
    constructor
    · rintro ⟨⟨key, waiters⟩, ⟨listed, torrent⟩, member⟩
      exact ⟨key, ⟨waiters, (AList.lookup_eq_some_iff _ _ _).mpr listed, member⟩, torrent⟩
    · rintro ⟨key, ⟨waiters, found, member⟩, torrent⟩
      exact ⟨⟨key, waiters⟩, ⟨(AList.lookup_eq_some_iff _ _ _).mp found, torrent⟩, member⟩
  refine answered_releases state none error _ rfl ?_ ?_ ?_
  · rintro key waiter ⟨waiters, found, member⟩
    exact ⟨waiters, ((AList.lookup_eraseIf _ _ _ _).mp found).1, member⟩
  · rintro key waiter ⟨waiters, found, member⟩
    by_cases torrent : key.torrentId = id
    · exact Or.inr ((waiting waiter).mpr ⟨key, ⟨waiters, found, member⟩, torrent⟩)
    · exact Or.inl ⟨waiters, (AList.lookup_eraseIf _ _ _ _).mpr ⟨found, by simpa using torrent⟩, member⟩
  · intro waiter member
    obtain ⟨key, held, torrent⟩ := (waiting waiter).mp member
    refine ⟨key, held, ?_⟩
    rintro ⟨waiters, found, _⟩
    simpa [torrent] using ((AList.lookup_eraseIf _ _ _ _).mp found).2

theorem removeTorrent_releases (id : String) : Releases state (removeTorrent lt state id) := by
  have erased := eraseTorrent_releases (recomputeSchedule lt (removed state id) id) id
    "torrent was removed"
  rw [completeWaiters_eq] at erased
  have answered := ((removed_releases state id).trans
    (recomputeSchedule_withdraws lt id _).releases).trans erased
  unfold removeTorrent
  simp only
  rw [completeWaiters_eq]
  exact answered

theorem deliverPiece_releases (key : PieceKey) (buffer : List UInt8) :
    Releases state (state.deliverPiece key buffer) := by
  unfold deliverPiece
  simp only
  split
  · exact Releases.same rfl rfl
  · rename_i waiters found
    refine answerKey_releases state (some buffer) "" found ?_ ?_
    · rw [completeWaiters_eq, completeWaiters_eq]
      rfl
    · rw [completeWaiters_eq]
      rfl

theorem handleReadPiece_releases (alert : ReadPieceAlert) :
    Releases state (state.handleReadPiece alert) := by
  have cleared : ∀ key, Releases state (state.forgetRead key) := fun key => Releases.same rfl rfl
  unfold handleReadPiece
  simp only
  split
  · exact (cleared _).trans (failPiece_releases _ _ _)
  · exact (cleared _).trans (failPiece_releases _ _ _)
  · split
    · exact (cleared _).trans (failPiece_releases _ _ _)
    · exact (cleared _).trans (deliverPiece_releases _ _ _)

theorem setBlocks_releases (key : PieceKey) (blocks : List Bool) :
    Releases state ((state.setBlocks key blocks).publishPartial key) := by
  refine Releases.trans ?_ (publishPartial_releases _ key)
  exact Releases.same rfl rfl

theorem handleBlockFinished_releases (torrentId : String) (piece block : Nat) :
    Releases state (handleBlockFinished lt state torrentId piece block) := by
  unfold handleBlockFinished
  simp only
  split
  · exact Releases.refl state
  · split
    · exact Releases.refl state
    · split
      · exact setBlocks_releases _ _ _
      · exact (setBlocks_releases _ _ _).trans (recomputeSchedule_withdraws lt torrentId _).releases

theorem handleHashFailed_releases (torrentId : String) (piece : Nat) :
    Releases state (state.handleHashFailed torrentId piece) := by
  unfold handleHashFailed
  simp only
  split
  · exact Releases.refl state
  · exact setBlocks_releases _ _ _

end Operations

/-- What a command may do to the waiters: a read may hold its own waiter or answer it at once, and
does one of both unless it throws. -/
structure Settles (command : HttpCommand) (before after : BridgeState) : Prop where
  held : ∀ key waiter, Held after key waiter → Held before key waiter ∨
    (command.type = .readPiece ∧ command.waiter = some waiter ∧
      key = ⟨command.route.torrentId, command.piece⟩)
  cancelled : ∀ waiter, (after.waiters waiter).cancelled = (before.waiters waiter).cancelled
  stays : ∀ waiter, (before.waiters waiter).done = true → (after.waiters waiter).done = true
  leaves : ∀ key waiter, Held before key waiter →
    Held after key waiter ∨ finished (after.waiters waiter) = true
  answers : ∀ waiter, (after.waiters waiter).done = true → (before.waiters waiter).done = true ∨
    (∃ key, Held before key waiter ∧ ¬ Held after key waiter) ∨
    (command.type = .readPiece ∧ command.waiter = some waiter ∧
      ∀ key, Held after key waiter → Held before key waiter)

/-- Somebody holds the waiter, or it is finished. -/
def Cared (state : BridgeState) (waiter : Nat) : Prop :=
  (∃ key, Held state key waiter) ∨ finished (state.waiters waiter) = true

section Batch

variable {command : HttpCommand} {first second third : BridgeState}

theorem Settles.ofReleases (command : HttpCommand) (releases : Releases first second) :
    Settles command first second := by
  refine ⟨fun key waiter held => Or.inl (releases.drops key waiter held), releases.cancelled,
    releases.stays, releases.leaves, ?_⟩
  intro waiter done
  rcases releases.answers waiter done with before | goes
  · exact Or.inl before
  · exact Or.inr (Or.inl goes)

theorem Settles.finishes (settles : Settles command first second) {waiter : Nat}
    (past : finished (first.waiters waiter) = true) : finished (second.waiters waiter) = true := by
  simp only [finished, Bool.or_eq_true] at past ⊢
  rcases past with done | cancelled
  · exact Or.inl (settles.stays waiter done)
  · exact Or.inr ((settles.cancelled waiter).trans cancelled)

theorem Settles.cared (settles : Settles command first second) {waiter : Nat}
    (cared : Cared first waiter) : Cared second waiter := by
  rcases cared with ⟨key, held⟩ | past
  · rcases settles.leaves key waiter held with still | past
    · exact Or.inl ⟨key, still⟩
    · exact Or.inr past
  · exact Or.inr (settles.finishes past)

theorem held_holdWaiter_self (state : BridgeState) (key : PieceKey) (waiter : Nat) :
    Held (state.holdWaiter key waiter) key waiter :=
  ⟨_, AList.lookup_insert _, by simp⟩

theorem held_holdWaiter_old {state : BridgeState} {key query : PieceKey} {waiter other : Nat}
    (held : Held state query other) : Held (state.holdWaiter key waiter) query other := by
  obtain ⟨waiters, found, member⟩ := held
  by_cases same : query = key
  · subst same
    refine ⟨_, AList.lookup_insert _, ?_⟩
    simp [found, member]
  · exact ⟨waiters, (AList.lookup_insert_ne same).trans found, member⟩

theorem Settles.hold {waiter : Nat} (kind : command.type = .readPiece)
    (own : command.waiter = some waiter)
    (releases : Releases (first.holdWaiter ⟨command.route.torrentId, command.piece⟩ waiter) second) :
    Settles command first second ∧ Cared second waiter := by
  refine ⟨⟨?_, releases.cancelled, releases.stays, ?_, ?_⟩, ?_⟩
  · intro key other held
    rcases held_holdWaiter (releases.drops key other held) with old | ⟨same, rfl⟩
    · exact Or.inl old
    · exact Or.inr ⟨kind, own, same⟩
  · intro key other held
    exact releases.leaves key other (held_holdWaiter_old held)
  · intro other done
    rcases releases.answers other done with before | ⟨key, held, gone⟩
    · exact Or.inl before
    · rcases held_holdWaiter held with old | ⟨rfl, rfl⟩
      · exact Or.inr (Or.inl ⟨key, old, gone⟩)
      · refine Or.inr (Or.inr ⟨kind, own, ?_⟩)
        intro query now
        rcases held_holdWaiter (releases.drops query other now) with old | ⟨rfl, _⟩
        · exact old
        · exact absurd now gone
  · rcases releases.leaves _ waiter (held_holdWaiter_self first _ waiter) with still | past
    · exact Or.inl ⟨_, still⟩
    · exact Or.inr past

theorem Settles.complete {waiter : Nat} (kind : command.type = .readPiece)
    (own : command.waiter = some waiter) (data : Option (List UInt8)) (error : String)
    (heap : second.waiters = (first.completeWaiter data error waiter).waiters)
    (pieceWaiters : second.pieceWaiters = first.pieceWaiters) :
    Settles command first second ∧ Cared second waiter := by
  have held : ∀ key other, Held second key other ↔ Held first key other := by
    intro key other
    rw [Held, Held, pieceWaiters]
  have changed : ∀ other, second.waiters other =
      if other ∈ [waiter] then Stream.completeWaiter (first.waiters other) data error
      else first.waiters other := by
    intro other
    rw [heap]
    exact completeWaiters_waiters first data error [waiter] other
  refine ⟨⟨fun key other now => Or.inl ((held key other).mp now), ?_, ?_,
    fun key other old => Or.inl ((held key other).mpr old), ?_⟩, ?_⟩
  · intro other
    rw [changed]
    split
    · exact completeWaiter_cancelled _ _ _
    · rfl
  · intro other done
    rw [changed]
    split
    · rw [completeWaiter_done done]
      exact done
    · exact done
  · intro other done
    rw [changed] at done
    split at done
    · rename_i same
      obtain rfl := List.mem_singleton.mp same
      exact Or.inr (Or.inr ⟨kind, own, fun key => (held key other).mp⟩)
    · exact Or.inl done
  · right
    rw [changed, if_pos (List.mem_singleton.mpr rfl)]
    exact completeWaiter_finished _ _ _

theorem publishWritten_releases (state : BridgeState) (lt : Libtorrent) (handle : Nat)
    (metadata : TorrentInfo) (key : PieceKey) (waiter : Nat) :
    Releases state (state.publishWritten lt handle metadata key waiter) := by
  unfold publishWritten
  split
  · exact publishBlocks_releases state _ waiter
  · refine Releases.trans ?_ (publishBlocks_releases _ _ waiter)
    exact Releases.same rfl rfl

theorem awaitPiece_settles (state : BridgeState) (lt : Libtorrent) (metadata : TorrentInfo)
    {waiter : Nat} (kind : command.type = .readPiece) (own : command.waiter = some waiter) :
    Settles command state (state.awaitPiece lt metadata command waiter) ∧
      Cared (state.awaitPiece lt metadata command waiter) waiter := by
  apply Settles.hold kind own
  unfold awaitPiece
  simp only
  split
  · exact ((setNeedsData_withdraws _ _ _).trans (requestRead_withdraws _ _ _ _)).releases
  · exact (setNeedsData_withdraws _ _ _).releases.trans (publishWritten_releases _ _ _ _ _ _)

theorem processPieceRequest_settles (state : BridgeState) (lt : Libtorrent)
    (kind : command.type = .readPiece) :
    Settles command state (state.processPieceRequest lt command).1 ∧
      ((state.processPieceRequest lt command).2 = false → ∀ waiter, command.waiter = some waiter →
        Cared (state.processPieceRequest lt command).1 waiter) := by
  have unchanged : Settles command state state := Settles.ofReleases command (Releases.refl state)
  unfold processPieceRequest
  split
  · rename_i absent
    exact ⟨unchanged, fun _ waiter own => by rw [absent] at own; simp at own⟩
  · rename_i waiter own
    have only : ∀ {next : BridgeState}, Settles command state next ∧ Cared next waiter →
        Settles command state next ∧ ((next, false).2 = false → ∀ other, some waiter = some other →
          Cared next other) := by
      rintro next ⟨settles, cared⟩
      exact ⟨settles, fun _ other same => Option.some.inj same ▸ cared⟩
    simp only [own]
    split
    · exact only (Settles.complete kind own none _ rfl rfl)
    · split
      · exact ⟨unchanged, fun threw => by simp at threw⟩
      · exact only (Settles.complete kind own none _ rfl rfl)
      · rename_i metadata _
        split
        · exact only (Settles.complete kind own none _ rfl rfl)
        · split
          · rename_i cached cache _
            refine only (Settles.complete kind own (some cached) "" ?_ ?_)
            · unfold setNeedsData
              split <;> rfl
            · unfold setNeedsData
              split <;> rfl
          · rename_i cache _
            have awaits := awaitPiece_settles { state with pieceCache := cache } lt metadata kind own
            exact only ⟨⟨awaits.1.held, awaits.1.cancelled, awaits.1.stays, awaits.1.leaves,
              awaits.1.answers⟩, awaits.2⟩

theorem processCommand_settles (state : BridgeState) (lt : Libtorrent) (command : HttpCommand) :
    Settles command state (state.processCommand lt command).1 ∧
      (command.type = .readPiece → (state.processCommand lt command).2.2 = false →
        ∀ waiter, command.waiter = some waiter → Cared (state.processCommand lt command).1 waiter) := by
  unfold processCommand
  cases kind : command.type with
  | beginDemand =>
      refine ⟨Settles.ofReleases command ?_, by simp⟩
      simp only [beginDemand]
      split
      · exact Releases.same rfl rfl
      · exact (cancelDemandState_withdraws state _).releases
  | endDemand =>
      refine ⟨Settles.ofReleases command ?_, by simp⟩
      simp only [endDemand]
      split
      · exact Releases.refl state
      · exact Releases.same rfl rfl
  | readPiece =>
      simp only [BridgeState.readPiece, true_implies]
      split
      · split
        · rename_i absent
          refine ⟨Settles.ofReleases command (Releases.refl state), fun _ waiter own => ?_⟩
          rw [absent] at own
          simp at own
        · rename_i waiter own
          have completes : Settles command state
              (state.completeWaiter none "stream demand is no longer active" waiter) ∧ Cared _ waiter :=
            Settles.complete kind own none _ rfl rfl
          refine ⟨completes.1, fun _ other same => ?_⟩
          rw [own] at same
          exact Option.some.inj same ▸ completes.2
      · rename_i demand reading
        have processed := processPieceRequest_settles
          (state.moveDemand command.demandId demand command.range) lt kind
        exact ⟨⟨processed.1.held, processed.1.cancelled, processed.1.stays, processed.1.leaves,
          processed.1.answers⟩, processed.2⟩

end Batch

end NuvioEngine.Bridge
