import NuvioEngine.Bridge.Drain
import NuvioEngine.Bridge.Supplies

/-!
A step of the worker as the HTTP threads see it. Whoever waits for a piece waits on or is finished, and
gets only bytes that were cached or delivered for that piece.
-/

namespace NuvioEngine.Bridge

open NuvioEngine.Scheduler NuvioEngine.Stream NuvioEngine.Cache BridgeState

/-- A read of the waiter is in the queue. -/
def Enlisted (state : BridgeState) (key : PieceKey) (waiter : Nat) : Prop :=
  ∃ command ∈ state.commands, command.type = .readPiece ∧ command.waiter = some waiter ∧
    key = ⟨command.route.torrentId, command.piece⟩

def Wants (state : BridgeState) (key : PieceKey) (waiter : Nat) : Prop :=
  Held state key waiter ∨ Enlisted state key waiter

structure WorkerStep (action : Action) (before after : BridgeState) : Prop where
  nextDemandId : after.nextDemandId = before.nextDemandId
  wants : ∀ key waiter, Wants after key waiter → Wants before key waiter
  waits : ∀ waiter, (∃ key, Wants before key waiter) →
    (∃ key, Wants after key waiter) ∨ finished (after.waiters waiter) = true
  supplies : Supplies (fun waiter data => ∃ key, Wants before key waiter ∧
    (Cached before key data ∨ Delivered key data action)) before after
  cached : ∀ key data, Cached after key data → Cached before key data ∨ Delivered key data action

section Cache

variable (lt : Libtorrent) (state : BridgeState)

theorem recomputeSchedule_cache (id : String) :
    (recomputeSchedule lt state id).pieceCache = state.pieceCache :=
  (congrArg BridgeState.pieceCache (recomputeSchedule_recomputes lt state id)).trans rfl

theorem sends_cache {before after : BridgeState} (sends : Sends before after) :
    after.pieceCache = before.pieceCache :=
  (congrArg BridgeState.pieceCache sends).trans rfl

theorem stopStream_cache (streamId : String) :
    (stopStream lt state streamId).1.pieceCache = state.pieceCache := by
  have stops : (stopped state streamId).pieceCache = state.pieceCache :=
    (congrArg BridgeState.pieceCache (stopped_stops state streamId)).trans rfl
  unfold stopStream
  simp only
  split
  · exact stops
  · exact (recomputeSchedule_cache lt _ _).trans stops

theorem addRoute_cache {route : StreamRoute} (sliced : 0 < route.pieceSize) :
    (addRoute lt state route).pieceCache = state.pieceCache := by
  have stops : ∀ (streams : List String) (current : BridgeState),
      (streams.foldl (fun current streamId => (stopStream lt current streamId).1) current).pieceCache =
        current.pieceCache := by
    intro streams
    induction streams with
    | nil => exact fun _ => rfl
    | cons streamId rest ih => exact fun current => (ih _).trans (stopStream_cache lt current streamId)
  have left : (joined lt state route).pieceCache = state.pieceCache := stops _ state
  rw [addRoute_eq lt sliced]
  split
  · exact (recomputeSchedule_cache lt _ _).trans left
  · exact left

theorem expireInactiveStreams_cache (now : Nat) (answers : String → Libtorrent) :
    (state.expireInactiveStreams now answers).pieceCache = state.pieceCache := by
  have each : ∀ (expired : List StoppedStream) (current : BridgeState),
      (expired.foldl (expireStream answers) current).pieceCache = current.pieceCache := by
    intro expired
    induction expired with
    | nil => exact fun _ => rfl
    | cons stream rest ih => exact fun current => (ih _).trans (recomputeSchedule_cache _ _ _)
  unfold expireInactiveStreams
  split
  · rfl
  · exact each _ _

theorem reissueStalledReads_cache : (state.reissueStalledReads lt).pieceCache = state.pieceCache := by
  unfold reissueStalledReads
  split
  · rfl
  · exact (sends_cache (Sends.foldl (fun current key => reissueRead_sends lt current key) _ _)).trans rfl

theorem poll_cache (answers : PollAnswers) :
    (state.poll answers).1.pieceCache.entries = state.pieceCache.entries := by
  have processed := (processCommands_supplies { state with commands := [] } answers.command state.commands 0
    []).2
  have computed : ∀ (changed : List String) (current : BridgeState),
      (changed.foldl (fun current id => recomputeSchedule (answers.recompute id) current id)
        current).pieceCache = current.pieceCache := by
    intro changed
    induction changed with
    | nil => exact fun _ => rfl
    | cons id rest ih => exact fun current => (ih _).trans (recomputeSchedule_cache _ _ _)
  unfold poll
  simp only
  split
  · exact processed
  · rw [expireInactiveStreams_cache, reissueStalledReads_cache, computed]
    exact processed

theorem handleBlockFinished_cache (torrentId : String) (piece block : Nat) :
    (handleBlockFinished lt state torrentId piece block).pieceCache = state.pieceCache := by
  have published : ∀ key blocks,
      ((state.setBlocks key blocks).publishPartial key).pieceCache = state.pieceCache :=
    fun key blocks => sends_cache (publishPartial_sends (state.setBlocks key blocks) key)
  unfold handleBlockFinished
  simp only
  split
  · rfl
  · split
    · rfl
    · split
      · exact published _ _
      · exact (recomputeSchedule_cache lt _ _).trans (published _ _)

theorem handleHashFailed_cache (torrentId : String) (piece : Nat) :
    (state.handleHashFailed torrentId piece).pieceCache = state.pieceCache := by
  unfold handleHashFailed
  simp only
  split
  · rfl
  · exact sends_cache (publishPartial_sends (state.setBlocks _ _) _)

variable {cache : VerifiedPieceCache} {query : PieceKey} {entry : Entry}

theorem erase_sub (key : PieceKey) (found : (cache.erase key).entries.lookup query = some entry) :
    cache.entries.lookup query = some entry := by
  unfold VerifiedPieceCache.erase at found
  split at found
  · exact found
  · simp only [AList.lookup_erase_ite] at found
    split at found
    · simp at found
    · exact found

theorem eraseTorrent_sub (id : String) (found : (cache.eraseTorrent id).entries.lookup query = some entry) :
    cache.entries.lookup query = some entry := by
  have each : ∀ (keys : List PieceKey) (current : VerifiedPieceCache),
      (keys.foldl (fun current key => if key.torrentId = id then current.erase key else current)
        current).entries.lookup query = some entry → current.entries.lookup query = some entry := by
    intro keys
    induction keys with
    | nil => exact fun _ found => found
    | cons key rest ih =>
        intro current found
        have later := ih _ found
        simp only at later
        split at later
        · exact erase_sub key later
        · exact later
  exact each _ cache found

theorem evict_sub (size : Nat) (oldest : List Node)
    (found : (VerifiedPieceCache.evict size oldest cache).entries.lookup query = some entry) :
    cache.entries.lookup query = some entry := by
  induction oldest generalizing cache with
  | nil => exact found
  | cons least rest ih =>
      rw [VerifiedPieceCache.evict] at found
      split at found
      · split at found
        · have later := ih found
          exact later
        · have later := ih found
          exact erase_sub least.key later
      · exact found

/-- A buffer that is kept displaces others and leaves the rest as it is. -/
theorem put_sub {key : PieceKey} {data : List UInt8}
    (found : (cache.put key (some data)).entries.lookup query = some entry) :
    cache.entries.lookup query = some entry ∨ query = key ∧ entry.data = data := by
  unfold VerifiedPieceCache.put at found
  simp only at found
  split at found
  · exact .inl (erase_sub key found)
  · unfold VerifiedPieceCache.insert at found
    simp only at found
    split at found
    · simp only [AList.lookup_insert_ite] at found
      split at found
      · rename_i same
        obtain rfl := Option.some.inj found
        exact .inr ⟨same, rfl⟩
      · exact .inl (erase_sub key (evict_sub _ _ found))
    · exact .inl (erase_sub key (evict_sub _ _ found))

end Cache

section Steps

variable {action : Action} {before after : BridgeState}

theorem WorkerStep.ofToils (toils : Toils before after)
    (supplies : Supplies (fun waiter data => ∃ key, Held before key waiter ∧ Delivered key data action) before
      after)
    (cached : ∀ key data, Cached after key data → Cached before key data ∨ Delivered key data action) :
    WorkerStep action before after := by
  refine ⟨toils.nextDemandId, ?_, ?_, supplies.mono ?_, cached⟩
  · rintro key waiter (held | ⟨command, member, reads⟩)
    · exact .inl (toils.releases.drops key waiter held)
    · exact .inr ⟨command, toils.commands ▸ member, reads⟩
  · rintro waiter ⟨key, held | ⟨command, member, reads⟩⟩
    · exact (toils.releases.leaves key waiter held).imp_left fun still => ⟨key, .inl still⟩
    · exact .inl ⟨key, .inr ⟨command, toils.commands.symm ▸ member, reads⟩⟩
  · rintro waiter data ⟨key, held, delivered⟩
    exact ⟨key, .inl held, .inr delivered⟩

theorem Cached.same (entries : after.pieceCache.entries = before.pieceCache.entries) {key : PieceKey}
    {data : List UInt8} (cached : Cached after key data) : Cached before key data := by
  obtain ⟨entry, found, same⟩ := cached
  exact ⟨entry, entries ▸ found, same⟩

/-- A step that gives nobody bytes and keeps no new buffer. -/
theorem WorkerStep.quiet (toils : Toils before after) (supplies : Supplies (fun _ _ => False) before after)
    (cache : after.pieceCache = before.pieceCache) : WorkerStep action before after :=
  .ofToils toils (supplies.mono fun _ _ => False.elim)
    fun _ _ cached => .inl (cached.same (congrArg VerifiedPieceCache.entries cache))

/-- Of an alert only a buffer without an error is kept. -/
theorem handleReadPiece_cached (state : BridgeState) (alert : ReadPieceAlert) (key : PieceKey)
    (data : List UInt8) (cached : Cached (state.handleReadPiece alert) key data) :
    Cached state key data ∨ Delivered key data (.readPieceAlert alert) := by
  obtain ⟨entry, found, same⟩ := cached
  have failed : ∀ message, ((state.forgetRead ⟨alert.torrentId, alert.piece⟩).failPiece
      ⟨alert.torrentId, alert.piece⟩ message).pieceCache = state.pieceCache :=
    fun message => (sends_cache (failPiece_sends _ _ message)).trans rfl
  unfold handleReadPiece at found
  simp only at found
  split at found
  · rw [failed] at found
    exact .inl ⟨entry, found, same⟩
  · rw [failed] at found
    exact .inl ⟨entry, found, same⟩
  · rename_i buffer clean given
    split at found
    · rw [failed] at found
      exact .inl ⟨entry, found, same⟩
    · have kept : ((state.forgetRead ⟨alert.torrentId, alert.piece⟩).deliverPiece
          ⟨alert.torrentId, alert.piece⟩ buffer).pieceCache =
            state.pieceCache.put ⟨alert.torrentId, alert.piece⟩ (some buffer) := by
        unfold deliverPiece
        simp only
        split
        · rfl
        · rw [completeWaiters_eq]
          rfl
      rw [kept] at found
      rcases put_sub found with old | ⟨own, bytes⟩
      · exact .inl ⟨entry, old, same⟩
      · exact .inr ⟨own, clean, given.trans (congrArg some (bytes.symm.trans same))⟩

section Poll

variable {state : BridgeState} {answers : PollAnswers}

theorem processCommands_held_own {tell : Nat → Libtorrent} {commands : List HttpCommand} {position : Nat}
    {changed : List String} {key : PieceKey} {waiter : Nat}
    (held : Held (processCommands tell position commands state changed).1 key waiter) :
    Held state key waiter ∨ ∃ command ∈ commands, command.type = .readPiece ∧
      command.waiter = some waiter ∧ key = ⟨command.route.torrentId, command.piece⟩ := by
  induction commands generalizing state position changed with
  | nil => exact .inl held
  | cons command rest ih =>
      have settles := (processCommand_settles state (tell position) command).1
      have here : Held (state.processCommand (tell position) command).1 key waiter → Held state key waiter ∨
          ∃ other ∈ command :: rest, other.type = .readPiece ∧ other.waiter = some waiter ∧
            key = ⟨other.route.torrentId, other.piece⟩ :=
        fun now => (settles.held key waiter now).imp_right fun reads => ⟨command, List.mem_cons_self, reads⟩
      rw [processCommands] at held
      split at held
      · exact here held
      · rcases ih held with now | ⟨other, member, reads⟩
        · exact here now
        · exact .inr ⟨other, List.mem_cons_of_mem _ member, reads⟩

theorem prune_cared {waiter : Nat} (cared : Cared state waiter) : Cared state.pruneCancelledWaiters waiter := by
  rcases cared with ⟨key, held⟩ | past
  · cases cancelled : (state.waiters waiter).cancelled with
    | false => exact .inl ⟨key, (held_dropWaiters state).mpr ⟨held, cancelled⟩⟩
    | true =>
        have isOver : finished (state.waiters waiter) = true := by simp [finished, cancelled]
        exact .inr isOver
  · exact .inr past

/-- Behind the batch nobody new waits, whoever goes is finished, and nobody gets bytes. -/
theorem poll_rest (quiet : (state.poll answers).2 = false) {batch : BridgeState × List String × Bool}
    (processed : processCommands answers.command 0 state.commands { state with commands := [] } [] = batch) :
    Drops batch.1 (state.poll answers).1 ∧
      (∀ waiter, Cared batch.1 waiter → Cared (state.poll answers).1 waiter) ∧
      Supplies (fun _ _ => False) batch.1 (state.poll answers).1 := by
  have ended := poll_eq quiet
  unfold polled at ended
  simp only [processed] at ended
  have withdraws := ((recomputeAll_withdraws batch.1.pruneCancelledWaiters answers.recompute batch.2.1).trans
    (reissueStalledReads_withdraws answers.watchdog _)).trans
      (expireInactiveStreams_withdraws _ answers.expiry answers.expired)
  rw [← ended] at withdraws
  have pruned : Supplies (fun _ _ => False) batch.1 batch.1.pruneCancelledWaiters := .same rfl
  refine ⟨?_, ?_, pruned.trans withdraws.supplies⟩
  · intro key waiter now
    exact ((held_dropWaiters batch.1).mp (withdraws.releases.drops key waiter now)).1
  · intro waiter cared
    rcases prune_cared cared with ⟨key, held⟩ | past
    · exact (withdraws.releases.leaves key waiter held).imp_left fun still => ⟨key, still⟩
    · exact .inr (withdraws.releases.finishes past)

theorem poll_step (quiet : (state.poll answers).2 = false) :
    WorkerStep (.poll answers) state (state.poll answers).1 := by
  have works := poll_works state answers
  have emptied : (state.poll answers).1.commands = [] := works.commands
  have calm := (poll_demands quiet).1
  have supplied := (processCommands_supplies { state with commands := [] } answers.command state.commands 0
    []).1
  obtain ⟨drops, cared, supplies⟩ := poll_rest quiet rfl
  refine ⟨works.nextDemandId, ?_, ?_, ?_, ?_⟩
  · rintro key waiter (held | ⟨command, member, _⟩)
    · have before := processCommands_held_own (drops key waiter held)
      exact before
    · rw [emptied] at member
      simp at member
  · rintro waiter ⟨key, held | ⟨command, member, kind, own, _⟩⟩
    · have kept := cared waiter (processCommands_cared answers.command (.inl ⟨key, held⟩))
      exact kept.imp_left fun ⟨other, still⟩ => ⟨other, .inl still⟩
    · have kept := cared waiter (processCommands_reads answers.command calm member kind own)
      exact kept.imp_left fun ⟨other, still⟩ => ⟨other, .inl still⟩
  · have taken : Supplies (fun waiter data => ∃ key, Wants state key waiter ∧
        (Cached state key data ∨ Delivered key data (.poll answers))) state { state with commands := [] } :=
      .same rfl
    refine taken.trans ((supplied.mono ?_).trans (supplies.mono fun _ _ => False.elim))
    rintro waiter data ⟨command, member, kind, own, cached⟩
    exact ⟨_, .inr ⟨command, member, kind, own, rfl⟩, .inl cached⟩
  · exact fun key data cached => .inl (cached.same (poll_cache state answers))

end Poll

theorem perform_step (state : BridgeState) (works : Server.isWork action = true)
    (possible : ∀ answers, action = .poll answers → (state.poll answers).2 = false) :
    WorkerStep action state (state.perform action) := by
  cases action with
  | poll answers => exact poll_step (possible answers rfl)
  | register lt token handle id fileIndex file =>
      have toils := perform_toils state works (by simp)
      refine .quiet toils ?_ ?_
      · simp only [BridgeState.perform, registerStream]
        cases routeFor lt state token handle id fileIndex file with
        | error thrown => exact .refl state
        | ok route => exact (addRoute_withdraws lt state route).supplies
      · simp only [BridgeState.perform, registerStream]
        cases made : routeFor lt state token handle id fileIndex file with
        | error thrown => rfl
        | ok route =>
            obtain ⟨metadata, savePath, sliced, _, rfl⟩ := routeFor_eq_ok made
            exact addRoute_cache lt state sliced
  | stop lt streamId =>
      exact .quiet (perform_toils state works (by simp)) (stopStream_withdraws lt state streamId).supplies
        (stopStream_cache lt state streamId)
  | remove lt id =>
      refine .ofToils (perform_toils state works (by simp))
        ((removeTorrent_supplies lt state id).mono fun _ _ => False.elim) ?_
      rintro key data ⟨entry, found, same⟩
      have cache : (removeTorrent lt state id).pieceCache = state.pieceCache.eraseTorrent id :=
        ((sends_cache (removeTorrent_sends id lt)).trans (recomputeSchedule_cache lt _ id)).trans
          ((congrArg BridgeState.pieceCache (removed_cancels state id)).trans rfl)
      have left : (state.pieceCache.eraseTorrent id).entries.lookup key = some entry := by
        rw [← cache]
        exact found
      exact .inl ⟨entry, eraseTorrent_sub id left, same⟩
  | popExpired => exact .quiet (perform_toils state works (by simp)) (.same rfl) rfl
  | readPieceAlert alert =>
      refine .ofToils (perform_toils state works (by simp)) ((handleReadPiece_supplies state alert).mono ?_) ?_
      · rintro waiter data ⟨held, clean, given⟩
        exact ⟨_, held, rfl, clean, given⟩
      · exact handleReadPiece_cached state alert
  | blockFinished lt torrentId piece block =>
      exact .quiet (perform_toils state works (by simp))
        (handleBlockFinished_supplies lt state torrentId piece block)
        (handleBlockFinished_cache lt state torrentId piece block)
  | hashFailed torrentId piece =>
      exact .quiet (perform_toils state works (by simp)) (handleHashFailed_supplies state torrentId piece)
        (handleHashFailed_cache state torrentId piece)
  | acquireRequest streamId => exact .quiet (perform_toils state works (by simp)) (.same rfl) rfl
  | releaseRequest streamId now => exact .quiet (perform_toils state works (by simp)) (.same rfl) rfl
  | beginRequest route bodyRange => simp [Server.isWork] at works
  | readRequest command => simp [Server.isWork] at works
  | endRequest demandId => simp [Server.isWork] at works
  | abandonWaiter waiter => simp [Server.isWork] at works

end Steps

end NuvioEngine.Bridge
