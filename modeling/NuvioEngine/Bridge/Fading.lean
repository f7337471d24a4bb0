import NuvioEngine.Bridge.Drain

/-!
What the worker takes back from waiters: besides publishing blocks it only lets waiters go, finishes
them and erases entries that nobody unfinished can see any more.
-/

namespace NuvioEngine.Bridge

open NuvioEngine.Scheduler NuvioEngine.Stream NuvioEngine.Cache BridgeState

/-- Waiters only go and finish, and an entry goes only when nobody unfinished is left to see it. The
entries of `cleared` pieces may go first. -/
structure Fades (cleared : PieceKey → Prop) (before after : BridgeState) : Prop where
  drops : ∀ key waiter, Held after key waiter → Held before key waiter
  finishes : ∀ waiter, finished (before.waiters waiter) = true → finished (after.waiters waiter) = true
  blocks : ∀ waiter, finished (after.waiters waiter) = false →
    (after.waiters waiter).finishedBlocks = (before.waiters waiter).finishedBlocks
  entries : ∀ key, after.partialBlocks.lookup key = before.partialBlocks.lookup key ∨
    (after.partialBlocks.lookup key = none ∧
      (cleared key ∨ ∀ waiter, Held after key waiter → finished (after.waiters waiter) = true))

namespace Fades

variable {cleared : PieceKey → Prop} {first second third : BridgeState}

theorem live (fades : Fades cleared first second) {waiter : Nat}
    (pending : finished (second.waiters waiter) = false) : finished (first.waiters waiter) = false := by
  rw [← Bool.not_eq_true] at pending ⊢
  exact fun past => pending (fades.finishes waiter past)

theorem keeps (drops : ∀ key waiter, Held second key waiter → Held first key waiter)
    (waiters : second.waiters = first.waiters)
    (entries : ∀ key, second.partialBlocks.lookup key = first.partialBlocks.lookup key ∨
      (second.partialBlocks.lookup key = none ∧
        (cleared key ∨ ∀ waiter, Held second key waiter → finished (second.waiters waiter) = true))) :
    Fades cleared first second :=
  ⟨drops, fun _ past => waiters ▸ past, fun _ _ => by rw [waiters], entries⟩

theorem same (waiters : second.waiters = first.waiters)
    (pieceWaiters : second.pieceWaiters = first.pieceWaiters)
    (partialBlocks : second.partialBlocks = first.partialBlocks) : Fades cleared first second := by
  refine keeps ?_ waiters fun key => Or.inl (by rw [partialBlocks])
  rintro key waiter ⟨list, found, member⟩
  exact ⟨list, pieceWaiters ▸ found, member⟩

theorem refl (state : BridgeState) : Fades cleared state state := same rfl rfl rfl

theorem trans (left : Fades cleared first second) (right : Fades cleared second third) :
    Fades cleared first third := by
  refine ⟨fun key waiter held => left.drops key waiter (right.drops key waiter held),
    fun waiter past => right.finishes waiter (left.finishes waiter past),
    fun waiter pending => (right.blocks waiter pending).trans (left.blocks waiter (right.live pending)), ?_⟩
  intro key
  rcases right.entries key with same | ⟨gone, reason⟩
  · rcases left.entries key with also | ⟨gone, reason⟩
    · exact Or.inl (same.trans also)
    · refine Or.inr ⟨same.trans gone, reason.imp_right fun past waiter held => ?_⟩
      exact right.finishes waiter (past waiter (right.drops key waiter held))
  · exact Or.inr ⟨gone, reason⟩

theorem settled (fades : Fades cleared first second)
    (empty : ∀ key waiter, cleared key → ¬ Held second key waiter) :
    Fades (fun _ => False) first second := by
  refine ⟨fades.drops, fades.finishes, fades.blocks, fun key => (fades.entries key).imp_right ?_⟩
  rintro ⟨gone, reason⟩
  refine ⟨gone, Or.inr fun waiter held => ?_⟩
  rcases reason with allowed | past
  · exact absurd held (empty key waiter allowed)
  · exact past waiter held

theorem widen (fades : Fades (fun _ => False) first second) : Fades cleared first second :=
  ⟨fades.drops, fades.finishes, fades.blocks, fun key => (fades.entries key).imp_right
    fun gone => ⟨gone.1, Or.inr (gone.2.resolve_left id)⟩⟩

end Fades

section Fading

variable (state : BridgeState)

theorem completeWaiters_fades (cleared : PieceKey → Prop) (data : Option (List UInt8)) (error : String)
    (waiters : List Nat) : Fades cleared state (state.completeWaiters data error waiters) := by
  have same := completeWaiters_sameWaits state data error waiters
  refine ⟨?_, ?_, ?_, fun key => Or.inl (by rw [same.partialBlocks])⟩
  · rintro key waiter ⟨list, found, member⟩
    exact ⟨list, same.pieceWaiters ▸ found, member⟩
  · intro waiter past
    rw [completeWaiters_waiters]
    split
    · exact completeWaiter_finished _ _ _
    · exact past
  · intro waiter pending
    rw [completeWaiters_waiters] at pending ⊢
    split at pending
    · rw [completeWaiter_finished] at pending
      simp at pending
    · rename_i other
      rw [if_neg other]

theorem dropWaiters_fades (dropped : Nat → Bool) :
    Fades (fun _ => False) state (state.dropWaiters dropped) := by
  refine Fades.keeps (fun key waiter held => ((held_dropWaiters state).mp held).1) rfl fun key => ?_
  cases found : (state.dropWaiters dropped).partialBlocks.lookup key with
  | some blocks =>
      left
      exact ((AList.lookup_eraseIf _ _ _ _).mp found).1.symm
  | none =>
      cases old : state.partialBlocks.lookup key with
      | none => exact Or.inl rfl
      | some blocks =>
          refine Or.inr ⟨rfl, Or.inr fun waiter held => ?_⟩
          obtain ⟨⟨waiters, waits, member⟩, stays⟩ := (held_dropWaiters state).mp held
          by_contra _
          have kept : (state.dropWaiters dropped).partialBlocks.lookup key = some blocks := by
            refine (AList.lookup_eraseIf _ _ _ _).mpr ⟨old, ?_⟩
            rw [waits]
            simp only [List.all_eq_false]
            exact ⟨waiter, member, by simp [stays]⟩
          rw [found] at kept
          simp at kept

theorem erasePartial_fades (key : PieceKey) :
    Fades (fun other => other = key) state
      { state with partialBlocks := state.partialBlocks.erase key } := by
  refine Fades.keeps (fun _ _ held => held) rfl fun other => ?_
  simp only [AList.lookup_erase_ite]
  split
  · rename_i same
    exact Or.inr ⟨rfl, Or.inl same⟩
  · exact Or.inl rfl

theorem answer_fades (cleared : PieceKey → Prop) (key : PieceKey) (data : Option (List UInt8))
    (error : String) (waiters : List Nat) :
    Fades cleared state { state.completeWaiters data error waiters with
      pieceWaiters := (state.completeWaiters data error waiters).pieceWaiters.erase key } := by
  refine (completeWaiters_fades state cleared data error waiters).trans
    (Fades.keeps ?_ rfl fun _ => Or.inl rfl)
  rintro other waiter ⟨list, found, member⟩
  simp only [AList.lookup_erase_ite] at found
  split at found
  · simp at found
  · exact ⟨list, found, member⟩

theorem failPiece_unheld (key : PieceKey) (error : String) (waiter : Nat) :
    ¬ Held (state.failPiece key error) key waiter := by
  rintro ⟨list, found, _⟩
  unfold failPiece at found
  simp only at found
  split at found
  · rename_i absent
    rw [absent] at found
    simp at found
  · simp [AList.lookup_erase] at found

theorem failPiece_fades (key : PieceKey) (error : String) :
    Fades (fun _ => False) state (state.failPiece key error) := by
  have clears : Fades (fun other => other = key) state (state.failPiece key error) := by
    unfold failPiece
    simp only
    split
    · exact erasePartial_fades state key
    · exact (erasePartial_fades state key).trans (answer_fades _ _ key none error _)
  refine clears.settled ?_
  rintro _ waiter rfl
  exact failPiece_unheld state _ error waiter

theorem cancelDemandWaiters_fades (demandId : Nat) (error : String) :
    Fades (fun _ => False) state (state.cancelDemandWaiters demandId error) :=
  (completeWaiters_fades state _ none error _).trans (dropWaiters_fades _ _)

theorem Withdraws.fades {before after : BridgeState} (withdraws : Withdraws before after) :
    Fades (fun _ => False) before after := by
  induction withdraws with
  | quiet waiters pieceWaiters partialBlocks => exact Fades.same waiters pieceWaiters partialBlocks
  | fail state key error => exact failPiece_fades state key error
  | cancel state demandId error => exact cancelDemandWaiters_fades state demandId error
  | trans _ _ left right => exact left.trans right

theorem handleReadPiece_fades (alert : ReadPieceAlert) :
    Fades (fun _ => False) state (state.handleReadPiece alert) := by
  have forgotten : ∀ key, Fades (fun other => other = key) state (state.forgetRead key) := fun key =>
    (erasePartial_fades state key).trans (Fades.same rfl rfl rfl)
  have failed : ∀ key error, Fades (fun _ => False) state ((state.forgetRead key).failPiece key error) := by
    intro key error
    refine ((forgotten key).trans (failPiece_fades _ key error).widen).settled ?_
    rintro _ waiter rfl
    exact failPiece_unheld _ _ error waiter
  have delivered : ∀ key buffer,
      Fades (fun _ => False) state ((state.forgetRead key).deliverPiece key buffer) := by
    intro key buffer
    have kept : Fades (fun other => other = key) state ((state.forgetRead key).keepPiece key buffer) :=
      (forgotten key).trans (Fades.same rfl rfl rfl)
    unfold deliverPiece
    simp only
    split
    · rename_i absent
      refine kept.settled ?_
      rintro _ waiter rfl ⟨list, found, _⟩
      rw [absent] at found
      simp at found
    · refine (kept.trans (answer_fades _ _ key (some buffer) "" _)).settled ?_
      rintro _ waiter rfl ⟨list, found, _⟩
      simp [AList.lookup_erase] at found
  unfold handleReadPiece
  simp only
  split
  · exact failed _ _
  · exact failed _ _
  · split
    · exact failed _ _
    · exact delivered _ _

theorem eraseTorrent_fades (cleared : PieceKey → Prop) (id error : String) (waiters : List Nat) :
    Fades cleared state { state.completeWaiters none error waiters with
      pieceWaiters := (state.completeWaiters none error waiters).pieceWaiters.eraseIf fun key _ =>
        key.torrentId = id } := by
  refine (completeWaiters_fades state cleared none error waiters).trans
    (Fades.keeps ?_ rfl fun _ => Or.inl rfl)
  rintro other waiter ⟨list, found, member⟩
  exact ⟨list, ((AList.lookup_eraseIf _ _ _ _).mp found).1, member⟩

/-- `remove_torrent` clears the entries of the torrent first, and lets its waiters go last. -/
theorem removeTorrent_fades (lt : Libtorrent) (id : String) :
    Fades (fun _ => False) state (removeTorrent lt state id) := by
  have cancels := removed_cancels state id
  have clears : Fades (fun key => key.torrentId = id) state (removed state id) := by
    refine Fades.keeps ?_ ((congrArg BridgeState.waiters cancels).trans rfl) fun key => ?_
    · rintro key waiter ⟨list, found, member⟩
      exact ⟨list, (congrArg BridgeState.pieceWaiters cancels).trans rfl ▸ found, member⟩
    · rw [show (removed state id).partialBlocks = _ from congrArg BridgeState.partialBlocks cancels]
      cases old : state.partialBlocks.lookup key with
      | none =>
          left
          rw [Option.eq_none_iff_forall_ne_some]
          intro blocks found
          have present := ((AList.lookup_eraseIf _ _ _ _).mp found).1
          rw [old] at present
          simp at present
      | some blocks =>
          by_cases torrent : key.torrentId = id
          · refine Or.inr ⟨?_, Or.inl torrent⟩
            rw [Option.eq_none_iff_forall_ne_some]
            intro blocks found
            simpa [torrent] using ((AList.lookup_eraseIf _ _ _ _).mp found).2
          · exact Or.inl ((AList.lookup_eraseIf _ _ _ _).mpr ⟨old, by simpa using torrent⟩)
  have computed := clears.trans (recomputeSchedule_withdraws lt id (removed state id)).fades.widen
  unfold removeTorrent
  simp only
  change Fades _ _ { (recomputeSchedule lt (removed state id) id).completeWaiters none
    "torrent was removed" _ with pieceWaiters := _ }
  refine (computed.trans (eraseTorrent_fades _ _ id "torrent was removed" _)).settled ?_
  rintro key waiter torrent ⟨list, found, _⟩
  simpa [torrent] using ((AList.lookup_eraseIf _ _ _ _).mp found).2

theorem perform_fades {action : Action} (works : Server.isWork action = true)
    (notPoll : ∀ answers, action ≠ .poll answers)
    (notFinished : ∀ lt torrentId piece block, action ≠ .blockFinished lt torrentId piece block)
    (notFailed : ∀ torrentId piece, action ≠ .hashFailed torrentId piece) (state : BridgeState) :
    Fades (fun _ => False) state (state.perform action) := by
  cases action with
  | register lt token handle id fileIndex file =>
      simp only [BridgeState.perform, registerStream]
      cases routeFor lt state token handle id fileIndex file with
      | error thrown => exact Fades.refl state
      | ok route => exact (addRoute_withdraws lt state route).fades
  | stop lt streamId => exact (stopStream_withdraws lt state streamId).fades
  | remove lt id => exact removeTorrent_fades state lt id
  | poll answers => exact absurd rfl (notPoll answers)
  | readPieceAlert alert => exact handleReadPiece_fades state alert
  | blockFinished lt torrentId piece block => exact absurd rfl (notFinished lt torrentId piece block)
  | hashFailed torrentId piece => exact absurd rfl (notFailed torrentId piece)
  | popExpired => exact Fades.same rfl rfl rfl
  | acquireRequest streamId => exact Fades.same rfl rfl rfl
  | releaseRequest streamId now => exact Fades.same rfl rfl rfl
  | beginRequest route bodyRange => simp [Server.isWork] at works
  | readRequest command => simp [Server.isWork] at works
  | endRequest demandId => simp [Server.isWork] at works
  | abandonWaiter waiter => simp [Server.isWork] at works

theorem abandonWaiter_fades (state : BridgeState) (waiter : Nat) :
    Fades (fun _ => False) state (state.abandonWaiter waiter) := by
  refine ⟨fun _ _ held => held, ?_, ?_, fun _ => Or.inl rfl⟩
  · intro other past
    simp only [BridgeState.abandonWaiter, Function.update_apply]
    split
    · simp [finished]
    · exact past
  · intro other
    simp only [BridgeState.abandonWaiter, Function.update_apply]
    split
    · simp [finished]
    · exact fun _ => rfl

end Fading

end NuvioEngine.Bridge
