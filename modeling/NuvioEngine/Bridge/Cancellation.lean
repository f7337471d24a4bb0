import NuvioEngine.Bridge.CancellationCore
import NuvioEngine.Bridge.Discipline
import NuvioEngine.Bridge.Mirror
import NuvioEngine.Bridge.Releases

/-!
Whom a late cancellation reaches. Only the reads of a batch register waiters; everything else the
bridge does drops them. A waiter that is registered while no cancellation of its piece is on its way
is therefore safe from the earlier ones.
-/

namespace NuvioEngine.Bridge

open NuvioEngine.Scheduler NuvioEngine.Stream NuvioEngine.Cache BridgeState

/-- Nobody new waits. -/
def Drops (before after : BridgeState) : Prop :=
  ∀ key waiter, Held after key waiter → Held before key waiter

namespace Drops

variable {first second third : BridgeState}

theorem refl (state : BridgeState) : Drops state state := fun _ _ held => held

theorem trans (left : Drops first second) (right : Drops second third) : Drops first third :=
  fun key waiter held => left key waiter (right key waiter held)

theorem same (pieceWaiters : second.pieceWaiters = first.pieceWaiters) : Drops first second := by
  rintro key waiter ⟨list, found, member⟩
  exact ⟨list, pieceWaiters ▸ found, member⟩

theorem ofEases (eases : Eases first second) : Drops first second := eases.holds.held

theorem ofReleases (releases : Releases first second) : Drops first second := releases.drops

theorem foldl {α : Type} {step : BridgeState → α → BridgeState}
    (each : ∀ state item, Drops state (step state item)) (items : List α) (state : BridgeState) :
    Drops state (items.foldl step state) := by
  induction items generalizing state with
  | nil => exact refl state
  | cons item rest ih => exact (each state item).trans (ih (step state item))

end Drops

/-- What a command may do to the waiters: a read registers its own one, for a piece that is not
cached. The cached pieces stay. -/
structure Registers (command : HttpCommand) (before after : BridgeState) : Prop where
  cache : after.pieceCache.entries = before.pieceCache.entries
  held : ∀ key waiter, Held after key waiter → Held before key waiter ∨
    (command.type = .readPiece ∧ key = ⟨command.route.torrentId, command.piece⟩ ∧
      before.pieceCache.entries.lookup key = none)

section Batch

variable {command : HttpCommand} {first second third : BridgeState}

theorem Registers.ofDrops (command : HttpCommand)
    (cache : second.pieceCache.entries = first.pieceCache.entries) (drops : Drops first second) :
    Registers command first second :=
  ⟨cache, fun key waiter held => Or.inl (drops key waiter held)⟩

theorem Registers.drops (registers : Registers command first second)
    (cache : third.pieceCache = second.pieceCache) (drops : Drops second third) :
    Registers command first third :=
  ⟨by rw [cache, registers.cache], fun key waiter held => registers.held key waiter (drops key waiter held)⟩

theorem setNeedsData_cache (state : BridgeState) (demandId : Nat) (needsData : Bool) :
    (state.setNeedsData demandId needsData).pieceCache = state.pieceCache := by
  unfold setNeedsData
  split <;> rfl

theorem requestRead_cache (state : BridgeState) (lt : Libtorrent) (handle : Nat) (key : PieceKey) :
    (state.requestRead lt handle key).pieceCache = state.pieceCache :=
  (congrArg BridgeState.pieceCache (requestRead_sends state lt handle key)).trans rfl

theorem publishWritten_cache (state : BridgeState) (lt : Libtorrent) (handle : Nat)
    (metadata : TorrentInfo) (key : PieceKey) (waiter : Nat) :
    (state.publishWritten lt handle metadata key waiter).pieceCache = state.pieceCache :=
  (congrArg BridgeState.pieceCache (publishWritten_sends state lt handle metadata key waiter)).trans rfl

theorem awaitPiece_registers (state : BridgeState) (lt : Libtorrent) (metadata : TorrentInfo)
    (waiter : Nat) (kind : command.type = .readPiece)
    (uncached : state.pieceCache.entries.lookup ⟨command.route.torrentId, command.piece⟩ = none) :
    Registers command state (state.awaitPiece lt metadata command waiter) := by
  have holds : Registers command state
      (state.holdWaiter ⟨command.route.torrentId, command.piece⟩ waiter) := by
    refine ⟨rfl, ?_⟩
    intro key other held
    rcases held_holdWaiter held with old | ⟨same, _⟩
    · exact Or.inl old
    · exact Or.inr ⟨kind, same, same ▸ uncached⟩
  have marks := fun needsData => holds.drops (setNeedsData_cache _ command.demandId needsData)
    (Drops.same (setNeedsData_sameWaits _ _ _).pieceWaiters)
  unfold awaitPiece
  simp only
  split
  · exact (marks _).drops (requestRead_cache _ _ _ _) (requestRead_holds _ _ _ _).held
  · exact (marks _).drops (publishWritten_cache _ _ _ _ _ _) (Drops.ofEases (publishWritten_eases _ _ _ _ _ _))

theorem get_cache (cache : VerifiedPieceCache) (key : PieceKey) :
    (cache.get key).2.entries = cache.entries := by
  unfold VerifiedPieceCache.get
  split <;> rfl

theorem get_none {cache next : VerifiedPieceCache} {key : PieceKey}
    (missed : cache.get key = (none, next)) :
    cache.entries.lookup key = none ∧ next.entries = cache.entries := by
  unfold VerifiedPieceCache.get at missed
  split at missed
  · rename_i absent
    simp only [Prod.mk.injEq, true_and] at missed
    exact ⟨absent, by rw [← missed]⟩
  · simp at missed

theorem processPieceRequest_registers (state : BridgeState) (lt : Libtorrent)
    (kind : command.type = .readPiece) :
    Registers command state (state.processPieceRequest lt command).1 := by
  have completed : ∀ error waiter, Registers command state (state.completeWaiter none error waiter) :=
    fun error waiter => Registers.ofDrops command rfl (Drops.same rfl)
  have unchanged : Registers command state state := Registers.ofDrops command rfl (Drops.refl state)
  unfold processPieceRequest
  split
  · exact unchanged
  · split
    · exact completed _ _
    · split
      · exact unchanged
      · exact completed _ _
      · split
        · exact completed _ _
        · split
          · rename_i cached cache found
            refine Registers.ofDrops command ?_ ?_
            · have entries := get_cache state.pieceCache ⟨command.route.torrentId, command.piece⟩
              rw [found] at entries
              exact (congrArg VerifiedPieceCache.entries (setNeedsData_cache _ _ _)).trans entries
            · exact Drops.same (setNeedsData_sameWaits _ command.demandId false).pieceWaiters
          · rename_i cache missed
            obtain ⟨uncached, entries⟩ := get_none missed
            have awaits := fun metadata waiter => awaitPiece_registers { state with pieceCache := cache }
              lt metadata waiter kind ((congrArg (AList.lookup _) entries).trans uncached)
            refine ⟨(awaits _ _).cache.trans entries, ?_⟩
            intro key waiter held
            rcases (awaits _ _).held key waiter held with old | ⟨_, same, absent⟩
            · exact Or.inl old
            · exact Or.inr ⟨kind, same, (congrArg (AList.lookup key) entries).symm.trans absent⟩

theorem processCommand_registers (state : BridgeState) (lt : Libtorrent) (command : HttpCommand) :
    Registers command state (state.processCommand lt command).1 := by
  unfold processCommand
  cases kind : command.type with
  | beginDemand =>
      simp only [beginDemand]
      split
      · exact Registers.ofDrops command rfl (Drops.same rfl)
      · refine Registers.ofDrops command ?_ (Drops.ofReleases
          (cancelDemandState_withdraws _ _).releases)
        rw [(congrArg BridgeState.pieceCache (cancelDemandState_stops state command.demandState)).trans
          rfl]
  | endDemand =>
      simp only [endDemand]
      split
      · exact Registers.ofDrops command rfl (Drops.refl state)
      · exact Registers.ofDrops command rfl (Drops.same rfl)
  | readPiece =>
      simp only [BridgeState.readPiece]
      split
      · split
        · exact Registers.ofDrops command rfl (Drops.refl state)
        · exact Registers.ofDrops command rfl (Drops.same rfl)
      · rename_i demand reading
        have processed := processPieceRequest_registers
          (state.moveDemand command.demandId demand command.range) lt kind
        exact ⟨processed.cache, processed.held⟩

theorem processCommands_held (answers : Nat → Libtorrent) (commands : List HttpCommand)
    (state : BridgeState) (position : Nat) (changed : List String) {key : PieceKey} {waiter : Nat}
    (held : Held (processCommands answers position commands state changed).1 key waiter) :
    Held state key waiter ∨ ∃ command ∈ commands, command.type = .readPiece ∧
      key = ⟨command.route.torrentId, command.piece⟩ ∧ state.pieceCache.contains key = false := by
  induction commands generalizing state position changed with
  | nil => exact Or.inl held
  | cons command rest ih =>
      have registers := processCommand_registers state (answers position) command
      have here : Held (state.processCommand (answers position) command).1 key waiter →
          Held state key waiter ∨ ∃ other ∈ command :: rest, other.type = .readPiece ∧
            key = ⟨other.route.torrentId, other.piece⟩ ∧ state.pieceCache.contains key = false := by
        intro now
        rcases registers.held key waiter now with old | ⟨kind, same, uncached⟩
        · exact Or.inl old
        · refine Or.inr ⟨command, List.mem_cons_self, kind, same, ?_⟩
          rw [VerifiedPieceCache.contains, uncached]
          rfl
      rw [processCommands] at held
      split at held
      · exact here held
      · rcases ih _ _ _ held with now | ⟨other, member, kind, same, uncached⟩
        · exact here now
        · refine Or.inr ⟨other, List.mem_cons_of_mem _ member, kind, same, ?_⟩
          rw [VerifiedPieceCache.contains, registers.cache] at uncached
          exact uncached

/-- Libtorrent is asked for pieces and told nothing else. -/
def Asks (before after : BridgeState) : Prop :=
  ∃ reads, after.calls = before.calls ++ reads ∧ ∀ call ∈ reads, ∃ piece, call.2 = .readPiece piece

theorem Asks.same (calls : second.calls = first.calls) : Asks first second :=
  ⟨[], by simp [calls], by simp⟩

theorem Asks.trans (left : Asks first second) (right : Asks second third) : Asks first third := by
  obtain ⟨reads, calls, only⟩ := left
  obtain ⟨more, moreCalls, moreOnly⟩ := right
  refine ⟨reads ++ more, by rw [moreCalls, calls, List.append_assoc], ?_⟩
  intro call member
  rcases List.mem_append.mp member with old | new
  · exact only call old
  · exact moreOnly call new

theorem poll_held (state : BridgeState) (answers : PollAnswers) {key : PieceKey} {waiter : Nat}
    (held : Held (state.poll answers).1 key waiter) :
    Held state key waiter ∨ ∃ command ∈ state.commands, command.type = .readPiece ∧
      key = ⟨command.route.torrentId, command.piece⟩ ∧ state.pieceCache.contains key = false := by
  refine processCommands_held answers.command state.commands { state with commands := [] } 0 [] ?_
  unfold poll at held
  simp only at held
  split at held
  · exact held
  · generalize processCommands answers.command 0 state.commands { state with commands := [] } [] = batch
      at held ⊢
    have pruned : Drops batch.1 batch.1.pruneCancelledWaiters := Drops.ofEases (dropWaiters_eases _ _)
    have computed := recomputeAll_withdraws batch.1.pruneCancelledWaiters answers.recompute batch.2.1
    have watched := computed.trans (reissueStalledReads_withdraws answers.watchdog _)
    have expired := watched.trans (expireInactiveStreams_withdraws _ answers.expiry answers.expired)
    exact pruned key waiter (expired.releases.drops key waiter held)

end Batch

theorem perform_drops (state : BridgeState) {action : Action} (notPoll : ∀ answers, action ≠ .poll answers) :
    Drops state (state.perform action) := by
  cases action with
  | register lt token handle id fileIndex file =>
      simp only [BridgeState.perform, registerStream]
      split
      · exact Drops.refl state
      · rename_i made
        split at made
        · simp at made
        · simp only [Except.ok.injEq, Prod.mk.injEq] at made
          rw [← made.1]
          exact Drops.ofReleases (addRoute_withdraws lt state _).releases
  | stop lt streamId => exact Drops.ofReleases (stopStream_withdraws lt state streamId).releases
  | remove lt id => exact Drops.ofReleases (removeTorrent_releases lt state id)
  | poll answers => exact absurd rfl (notPoll answers)
  | popExpired => exact Drops.same rfl
  | readPieceAlert alert => exact Drops.ofReleases (handleReadPiece_releases state alert)
  | blockFinished lt torrentId piece block =>
      exact Drops.ofReleases (handleBlockFinished_releases lt state torrentId piece block)
  | hashFailed torrentId piece => exact Drops.ofReleases (handleHashFailed_releases state torrentId piece)
  | acquireRequest streamId => exact Drops.same rfl
  | releaseRequest streamId now => exact Drops.same rfl
  | beginRequest route bodyRange =>
      simp only [BridgeState.perform, BridgeState.beginRequest, BridgeState.enqueue]
      split
      · exact Drops.same rfl
      · split
        · exact Drops.same rfl
        · split <;> exact Drops.same rfl
  | readRequest command =>
      simp only [BridgeState.perform, BridgeState.readRequest, BridgeState.enqueue]
      split
      · exact Drops.same rfl
      · split <;> exact Drops.same rfl
  | endRequest demandId => exact Drops.same rfl
  | abandonWaiter waiter => exact Drops.same rfl

/-- Everybody who waits for a piece with an undelivered cancellation waited for it at the reset. -/
def Remembered (feed : Feed) : Prop :=
  ∀ key waiters, .cancelled key waiters ∈ feed.posted →
    ∀ waiter, Held feed.bridge key waiter → waiter ∈ waiters

section Feed

variable {torrentOf : Nat → String} {feed : Feed}

theorem mem_waitersOf {state : BridgeState} {key : PieceKey} {waiter : Nat}
    (held : Held state key waiter) : waiter ∈ waitersOf state key := by
  obtain ⟨list, found, member⟩ := held
  rw [waitersOf, found]
  exact member

theorem Remembered.cancel (remembered : Remembered feed) (deadline : Nat × Nat) :
    Remembered (feed.cancel torrentOf deadline) := by
  unfold Feed.cancel
  simp only
  split
  · intro key waiters member waiter held
    rcases List.mem_append.mp member with old | new
    · exact remembered key waiters old waiter held
    · obtain ⟨rfl, rfl⟩ := PostedAlert.cancelled.inj (List.mem_singleton.mp new)
      exact mem_waitersOf held
  · exact remembered

theorem Remembered.cancels (deadlines : List (Nat × Nat)) {feed : Feed} (remembered : Remembered feed) :
    Remembered (deadlines.foldl (Feed.cancel torrentOf) feed) := by
  induction deadlines generalizing feed with
  | nil => exact remembered
  | cons deadline rest ih => exact ih (remembered.cancel deadline)

theorem Remembered.heed (remembered : Remembered feed) (call : Nat × LtCall) :
    Remembered (feed.heed torrentOf call) := by
  unfold Feed.heed
  split
  · exact remembered
  · exact remembered
  · exact remembered.cancel _
  · exact Remembered.cancels _ remembered
  all_goals exact remembered

theorem Remembered.heeds (calls : List (Nat × LtCall)) {feed : Feed} (remembered : Remembered feed) :
    Remembered (calls.foldl (Feed.heed torrentOf) feed) := by
  induction calls generalizing feed with
  | nil => exact remembered
  | cons call rest ih => exact ih (remembered.heed call)

theorem Remembered.work (remembered : Remembered feed) {action : Action}
    (separate : feed.Separate (.work action)) :
    Remembered (feed.perform torrentOf (.work action)) := by
  refine Remembered.heeds _ ?_
  intro key waiters member waiter held
  by_cases polls : ∃ answers, action = .poll answers
  · obtain ⟨answers, rfl⟩ := polls
    rcases poll_held feed.bridge answers held with old | ⟨command, queued, kind, rfl, uncached⟩
    · exact remembered key waiters member waiter old
    · have cancels : feed.cancels ⟨command.route.torrentId, command.piece⟩ = true :=
        List.any_eq_true.mpr ⟨_, member, by simp⟩
      rw [separate command queued kind cancels] at uncached
      simp at uncached
  · exact remembered key waiters member waiter
      (perform_drops feed.bridge (fun answers same => polls ⟨answers, same⟩) key waiter held)

theorem Remembered.perform (remembered : Remembered feed) {action : FeedAction}
    (separate : feed.Separate action) : Remembered (feed.perform torrentOf action) := by
  cases action with
  | work action => exact remembered.work separate
  | settle handle piece => exact remembered
  | post alert =>
      intro key waiters member
      rcases List.mem_append.mp member with old | new
      · exact remembered key waiters old
      · simp at new
  | deliver =>
      unfold Feed.perform
      simp only
      split
      · exact remembered
      · rename_i first rest posted
        intro key waiters member waiter held
        refine remembered key waiters (posted ▸ List.mem_cons_of_mem _ member) waiter ?_
        exact Drops.ofEases (handleReadPiece_eases feed.bridge first.alert) key waiter held

theorem handleReadPiece_others (state : BridgeState) (key : PieceKey) {waiter : Nat}
    (unheld : ¬ Held state key waiter) :
    (state.handleReadPiece (cancelledAlert key)).waiters waiter = state.waiters waiter := by
  have others : ∀ (waiters : List Nat) (current : BridgeState), waiter ∉ waiters →
      (current.completeWaiters none "Operation canceled" waiters).waiters waiter =
        current.waiters waiter := by
    intro waiters
    induction waiters with
    | nil => exact fun _ _ => rfl
    | cons first rest ih =>
        intro current outside
        rw [List.mem_cons, not_or] at outside
        refine (ih _ outside.2).trans ?_
        exact Function.update_of_ne outside.1 _ _
  simp only [handleReadPiece, cancelledAlert, failPiece, forgetRead]
  split
  · rfl
  · rename_i waiters found
    exact others waiters _ fun member => unheld ⟨waiters, found, member⟩

end Feed

/-- In every run in which no piece is read again before the cancellations of its earlier reads are
delivered, a cancellation leaves the waiters that came after the reset alone. -/
theorem reachable_spares {torrentOf : Nat → String} {feed : Feed}
    (reached : Transition.Reachable Feed.Initial (fun feed action =>
      feed.Possible action ∧ feed.Separate action) (Feed.perform torrentOf) feed)
    {key : PieceKey} {waiters : List Nat} {rest : List PostedAlert}
    (next : feed.posted = .cancelled key waiters :: rest) {waiter : Nat} (later : waiter ∉ waiters) :
    (feed.perform torrentOf .deliver).bridge.waiters waiter = feed.bridge.waiters waiter := by
  have remembered : Remembered feed := by
    refine reached.invariant ?_ fun _ _ remembered enabled => remembered.perform enabled.2
    rintro start ⟨system, _, rfl⟩ key waiters member
    simp at member
  unfold Feed.perform
  simp only [next]
  refine handleReadPiece_others feed.bridge key fun held => later ?_
  exact remembered key waiters (next ▸ List.mem_cons_self) waiter held

def fourPiecesRoute : StreamRoute :=
  newRoute "a" 7 "t" 0 ⟨"video.mp4", 0, 67108864⟩ fourPieces "/data"

def fourPiecesPoll : Action :=
  .poll ⟨fun _ => .accepting fourPieces, fun _ => .accepting fourPieces, .accepting fourPieces, 0,
    fun _ => .accepting fourPieces⟩

/-- A player waits for the first piece and seeks to the third. -/
def seekAway : List FeedAction := [
  .work (.register (.accepting fourPieces) "a" 7 "t" 0 ⟨"video.mp4", 0, 67108864⟩),
  .work (.beginRequest fourPiecesRoute ⟨0, 67108863⟩),
  .work (.readRequest ⟨.readPiece, 1, fourPiecesRoute, ⟨0, 16777215⟩, 0, some 0, some 1⟩),
  .work fourPiecesPoll,
  .work (.abandonWaiter 0),
  .work (.endRequest 1),
  .work (.beginRequest fourPiecesRoute ⟨33554432, 67108863⟩),
  .work (.readRequest ⟨.readPiece, 2, fourPiecesRoute, ⟨33554432, 50331647⟩, 2, some 1, some 2⟩),
  .work fourPiecesPoll]

/-- It seeks back before the cancellation of its first read is delivered. -/
def seekBack : List FeedAction := [
  .work (.abandonWaiter 1),
  .work (.endRequest 2),
  .work (.beginRequest fourPiecesRoute ⟨0, 67108863⟩),
  .work (.readRequest ⟨.readPiece, 3, fourPiecesRoute, ⟨0, 16777215⟩, 0, some 2, some 3⟩),
  .work fourPiecesPoll]

def seeked (actions : List FeedAction) : Feed :=
  actions.foldl (Feed.perform fun _ => "t") { system := { bridge := .create 1024 1024 0 } }

instance (feed : Feed) : DecidablePred feed.Separate
  | .work (.poll _) => List.decidableBAll _ _
  | .work (.register ..) | .work (.stop ..) | .work (.remove ..) | .work .popExpired
  | .work (.readPieceAlert ..) | .work (.blockFinished ..) | .work (.hashFailed ..)
  | .work (.acquireRequest ..) | .work (.releaseRequest ..) | .work (.beginRequest ..)
  | .work (.readRequest ..) | .work (.endRequest ..) | .work (.abandonWaiter ..)
  | .settle .. | .post .. | .deliver => instDecidableTrue

/-- The cancellation of the first read leaves the waiter of the third piece alone. -/
theorem reachable_spares_seek :
    (seeked seekAway).posted = [.cancelled ⟨"t", 0⟩ []] ∧
      ((seeked seekAway).perform (fun _ => "t") .deliver).bridge.waiters 1 =
        (seeked seekAway).bridge.waiters 1 := by
  have started : Transition.Reachable Feed.Initial (fun feed action =>
      feed.Possible action ∧ feed.Separate action) (Feed.perform fun _ => "t") (seeked []) :=
    .start ⟨_, ⟨1024, 1024, 0, rfl⟩, rfl⟩
  have runs : Transition.Runs (fun (feed : Feed) action => feed.Possible action ∧ feed.Separate action)
      (Feed.perform fun _ => "t") (seeked []) seekAway := by decide +kernel
  have reached : Transition.Reachable Feed.Initial (fun feed action =>
      feed.Possible action ∧ feed.Separate action) (Feed.perform fun _ => "t") (seeked seekAway) :=
    started.run runs
  have posted : (seeked seekAway).posted = [.cancelled ⟨"t", 0⟩ []] := by decide +kernel
  exact ⟨posted, reachable_spares reached posted List.not_mem_nil⟩

/-- After the seek back it answers the new waiter of the first piece with an error. -/
theorem spares_fails_seek :
    ¬ ∀ (torrentOf : Nat → String) (feed : Feed), Feed.Reachable torrentOf feed →
      ∀ key waiters rest, feed.posted = .cancelled key waiters :: rest → ∀ waiter ∉ waiters,
        (feed.perform torrentOf .deliver).bridge.waiters waiter = feed.bridge.waiters waiter := by
  intro always
  have started : Feed.Reachable (fun _ => "t") (seeked []) := .start ⟨_, ⟨1024, 1024, 0, rfl⟩, rfl⟩
  have runs : Transition.Runs Feed.Possible (Feed.perform fun _ => "t") (seeked [])
      (seekAway ++ seekBack) := by decide +kernel
  have posted : (seeked (seekAway ++ seekBack)).posted =
      [.cancelled ⟨"t", 0⟩ [], .cancelled ⟨"t", 2⟩ []] := by decide +kernel
  have reached : Feed.Reachable (fun _ => "t") (seeked (seekAway ++ seekBack)) := started.run runs
  have same := congrArg PieceWaiter.error (always _ _ reached _ _ _ posted 2 List.not_mem_nil)
  have before : ((seeked (seekAway ++ seekBack)).bridge.waiters 2).error = "" := by decide +kernel
  have after : (((seeked (seekAway ++ seekBack)).perform (fun _ => "t") .deliver).bridge.waiters 2).error =
      "Operation canceled" := by decide +kernel
  exact absurd (after.symm.trans (same.trans before)) (by decide)

end NuvioEngine.Bridge
