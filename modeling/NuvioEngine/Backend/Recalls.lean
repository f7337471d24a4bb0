import NuvioEngine.Backend.Incidental

/-!
What streams, warm torrents and removals leave alone: the contexts of add requests with the maps that
hold them, and the handles. Events are only added.
-/

namespace NuvioEngine.Backend

open NuvioEngine.Bridge NuvioEngine.Stream NuvioEngine.Cache BridgeState

structure Recalls (before after : BackendState) : Prop where
  requestId : ∀ context, (after.contexts context).requestId = (before.contexts context).requestId
  torrentId : ∀ context, (after.contexts context).torrentId = (before.contexts context).torrentId
  emitted : ∀ context,
    (after.contexts context).metadataEmitted = (before.contexts context).metadataEmitted
  nextContext : after.nextContext = before.nextContext
  pending : after.pending = before.pending
  active : after.active = before.active
  retired : after.retired = before.retired
  handles : after.handles = before.handles
  told : ∀ event ∈ before.events ++ before.queuedEvents, event ∈ after.events ++ after.queuedEvents

namespace Recalls

variable {first second third : BackendState}

theorem refl (backend : BackendState) : Recalls backend backend := by
  constructor <;> intros <;> first | rfl | assumption

theorem trans (left : Recalls first second) (right : Recalls second third) : Recalls first third where
  requestId := fun context => (right.requestId context).trans (left.requestId context)
  torrentId := fun context => (right.torrentId context).trans (left.torrentId context)
  emitted := fun context => (right.emitted context).trans (left.emitted context)
  nextContext := right.nextContext.trans left.nextContext
  pending := right.pending.trans left.pending
  active := right.active.trans left.active
  retired := right.retired.trans left.retired
  handles := right.handles.trans left.handles
  told := fun event member => right.told event (left.told event member)

theorem ofIncidental (incidental : Incidental first second) : Recalls first second := by
  have contexts := incidental.contexts
  constructor
  · intro context
    rw [contexts]
  · intro context
    rw [contexts]
  · intro context
    rw [contexts]
  · exact incidental.nextContext
  · exact incidental.pending
  · exact incidental.active
  · exact incidental.retired
  · exact incidental.handles
  · exact incidental.told

theorem elsewhere (kept : second = { first with
      system := second.system
      flags := second.flags
      warmSince := second.warmSince
      quiescedTorrents := second.quiescedTorrents
      pendingPrepares := second.pendingPrepares
      pendingRemovals := second.pendingRemovals
      pendingCacheUnloads := second.pendingCacheUnloads
      pendingCacheRemovals := second.pendingCacheRemovals
      nextWarmCheck := second.nextWarmCheck }) : Recalls first second := by
  rw [kept]
  constructor <;> intros <;> first | rfl | assumption

end Recalls

namespace BackendState

variable {backend next : BackendState}

theorem call_recalls {answers : Answers} {handle : Nat} {call : HandleCall}
    (sent : backend.call answers handle call = .ok next) : Recalls backend next := by
  rw [call_eq_ok sent]
  exact .elsewhere rfl

theorem markRemoved_recalls (backend : BackendState) (context : Option Nat) (removed : Bool) :
    Recalls backend (backend.markRemoved context removed) := by
  unfold markRemoved setContext
  cases context with
  | none => exact .refl backend
  | some shared =>
      constructor <;> intros <;>
        first | rfl | assumption | (simp only [Function.update_apply]; split <;> simp_all)

theorem markWarm_recalls (backend : BackendState) (now : Nat) (id : String) :
    Recalls backend (backend.markWarm now id) := by
  unfold markWarm
  split
  · exact .refl backend
  · exact .elsewhere rfl

theorem focusTorrent_recalls (backend : BackendState) (answers : Answers) (requestedId : String) :
    Recalls backend (backend.focusTorrent answers requestedId) := by
  have one : ∀ current entry, Recalls current (focusOne answers requestedId current entry) := by
    intro current entry
    unfold focusOne
    split
    · exact .refl current
    · split
      · exact .refl current
      · rename_i uploading sent
        split
        · exact call_recalls sent
        · rename_i paused stopped
          refine ((call_recalls sent).trans (call_recalls stopped)).trans
            ((markWarm_recalls paused answers.lt.now entry.1).trans ?_)
          exact .elsewhere rfl
  unfold focusTorrent
  generalize backend.handles.entries = entries
  induction entries generalizing backend with
  | nil => exact .refl backend
  | cons entry rest ih => exact (one backend entry).trans (ih _)

theorem activateTorrent_recalls (backend : BackendState) (answers : Answers) (id : String) (handle : Nat) :
    Recalls backend (backend.activateTorrent answers id handle).1 := by
  have kept : Recalls backend { backend with
      pendingCacheUnloads := backend.pendingCacheUnloads.filter fun other => other ≠ id } :=
    .elsewhere rfl
  unfold activateTorrent
  simp only
  split
  · exact kept
  · rename_i uploading sent
    split
    · exact kept.trans (call_recalls sent)
    · rename_i resumed woken
      refine ((kept.trans (call_recalls sent)).trans (call_recalls woken)).trans ?_
      exact .elsewhere rfl

theorem work_recalls (backend : BackendState) (action : Action) : Recalls backend (backend.work action) :=
  .elsewhere rfl

theorem dropPrepare_recalls (backend : BackendState) (id : String) :
    Recalls backend (backend.dropPrepare id) :=
  .elsewhere rfl

theorem preparedEvent_recalls {answers : Answers} {handle : Nat} {id : String} {prepare : PendingPrepare}
    {event : BackendEvent} (prepared : backend.preparedEvent answers handle id prepare = .ok (next, event)) :
    Recalls backend next := by
  rw [preparedEvent_eq_ok prepared]
  exact work_recalls backend _

theorem prepareActivated_recalls (backend : BackendState) (answers : Answers) (requestId : Nat)
    (id : String) (handle fileIndex : Nat) (file : TorrentFileInfo) :
    Recalls backend (backend.prepareActivated answers requestId id handle fileIndex file).1 := by
  unfold prepareActivated
  split
  · exact .refl backend
  · split
    · exact .refl backend
    · exact .refl backend
    · split
      · exact .refl backend
      · simp only
        split
        · exact .refl backend
        · split
          · exact .refl backend
          · rename_i registered event prepared
            exact (preparedEvent_recalls prepared).trans (.ofIncidental (queue_incidental _ event))
        · split
          · exact .refl backend
          · rename_i sent
            refine (call_recalls sent).trans ?_
            exact .elsewhere rfl

theorem prepareFile_recalls (backend : BackendState) (answers : Answers) (requestId : Nat) (id : String)
    (fileIndex : Nat) (file : TorrentFileInfo) :
    Recalls backend (backend.prepareFile answers requestId id fileIndex file).1 := by
  unfold prepareFile
  split
  · exact .refl backend
  · rename_i handle _
    have activates := (focusTorrent_recalls backend answers id).trans
      (activateTorrent_recalls _ answers id handle)
    split
    · rename_i result
      rw [result] at activates
      exact activates
    · rename_i result
      rw [result] at activates
      exact activates.trans (prepareActivated_recalls _ answers requestId id handle fileIndex file)

theorem removeAccepted_recalls (backend : BackendState) (answers : Answers) (requestId : Nat)
    (id : String) (context : Option Nat) :
    Recalls backend (backend.removeAccepted answers requestId id context) := by
  have forgotten : Recalls backend (backend.forgetResumeSave context) :=
    .ofIncidental (forgetResumeSave_incidental backend context)
  have cleared : Recalls backend { backend.forgetResumeSave context with
      warmSince := (backend.forgetResumeSave context).warmSince.erase id
      quiescedTorrents := (backend.forgetResumeSave context).quiescedTorrents.filter fun other =>
        other ≠ id } := forgotten.trans (.elsewhere rfl)
  have erased := (cleared.trans (work_recalls _ (.remove answers.lt id))).trans
    (.ofIncidental (eraseResume_incidental _ answers id (queue_incidental _) requestId))
  unfold removeAccepted
  simp only
  split
  · exact erased
  · exact (erased.trans (dropPrepare_recalls _ id)).trans (.ofIncidental (queue_incidental _ _))

theorem removeTorrent_recalls (backend : BackendState) (answers : Answers) (requestId : Nat)
    (id : String) : Recalls backend (backend.removeTorrent answers requestId id).1 := by
  unfold removeTorrent
  split
  · exact .refl backend
  · rename_i handle _
    split
    · exact .refl backend
    · have marked := markRemoved_recalls backend (answers.userdata handle) true
      simp only
      split
      · refine (marked.trans ?_).trans (markRemoved_recalls _ _ false)
        exact .elsewhere rfl
      · refine (marked.trans ?_).trans (removeAccepted_recalls _ answers requestId id _)
        exact .elsewhere rfl

theorem cool_recalls (backend : BackendState) (answers : Answers) (id : String) :
    Recalls backend (backend.cool answers id) := by
  have warm := markWarm_recalls backend answers.lt.now id
  unfold cool callQuietly
  simp only
  split
  · exact warm
  · split
    · exact warm
    · split
      · exact warm
      · rename_i sent
        exact warm.trans (call_recalls sent)

theorem stopStream_recalls (backend : BackendState) (answers : Answers) (requestId : Nat)
    (streamId : String) : Recalls backend (backend.stopStream answers requestId streamId) := by
  have stopped := work_recalls backend (.stop answers.lt streamId)
  unfold BackendState.stopStream
  simp only
  split
  · exact stopped.trans (.ofIncidental (queue_incidental _ _))
  · exact (stopped.trans (cool_recalls _ answers _)).trans (.ofIncidental (queue_incidental _ _))

theorem expireStreams_recalls (answers : Answers) (expired : List StoppedStream) (backend : BackendState) :
    Recalls backend (expired.foldl (expireStream answers) backend) := by
  induction expired generalizing backend with
  | nil => exact .refl backend
  | cons stream rest ih =>
      have here : Recalls backend (expireStream answers backend stream) :=
        (cool_recalls backend answers stream.torrentId).trans (.ofIncidental (queue_incidental _ _))
      exact here.trans (ih _)

theorem pollStreams_recalls (backend : BackendState) (answers : Answers) (polled : PollAnswers) :
    Recalls backend (backend.pollStreams answers polled).1 := by
  have polls := work_recalls backend (.poll polled)
  unfold pollStreams
  simp only
  split
  · exact polls
  · exact (polls.trans (work_recalls _ .popExpired)).trans (expireStreams_recalls answers _ _)

theorem finishPrepare_recalls (backend : BackendState) (answers : Answers) (handle : Nat) (id : String)
    (prepare : PendingPrepare) : Recalls backend (backend.finishPrepare answers handle id prepare).1 := by
  unfold finishPrepare
  split
  · exact .refl backend
  · rename_i downloading sent
    split
    · exact call_recalls sent
    · rename_i registered event prepared
      exact (((call_recalls sent).trans (preparedEvent_recalls prepared)).trans
        (.ofIncidental (emit_incidental _ event))).trans
          (.ofIncidental (requestResumeSave_incidental _ answers handle))

theorem failPrepare_recalls (backend : BackendState) (id : String) (prepare : PendingPrepare)
    (message : String) : Recalls backend ((backend.emitPrepareError id prepare message).dropPrepare id) :=
  Recalls.trans (.ofIncidental (emit_incidental backend _)) (dropPrepare_recalls _ id)

theorem handleFilePriority_recalls (backend : BackendState) (answers : Answers) (handle : Nat)
    (error : Option String) : Recalls backend (backend.handleFilePriority answers handle error).1 := by
  unfold handleFilePriority
  simp only
  split
  · exact .refl backend
  · rename_i prepare _
    split
    · exact failPrepare_recalls backend _ prepare _
    · have finished := finishPrepare_recalls backend answers handle (answers.torrentId handle) prepare
      split
      · rename_i result
        rw [result] at finished
        exact finished.trans (dropPrepare_recalls _ _)
      · rename_i result
        rw [result] at finished
        exact finished.trans (failPrepare_recalls _ _ prepare _)
      · rename_i result
        rw [result] at finished
        exact finished

theorem handleFileError_recalls (backend : BackendState) (answers : Answers) (handle : Nat)
    (message : String) : Recalls backend (backend.handleFileError answers handle message) := by
  unfold handleFileError
  simp only
  split
  · exact .refl backend
  · exact failPrepare_recalls backend _ _ _

theorem quiesceOne_recalls (backend : BackendState) (answers : Answers) (id : String) (since : Nat) :
    Recalls backend (backend.quiesceOne answers id since).1 := by
  unfold quiesceOne
  split
  · exact .refl backend
  · split
    · exact .refl backend
    · rename_i handle _
      have saving : Recalls backend (backend.requestResumeSave answers handle) :=
        .ofIncidental (requestResumeSave_incidental backend answers handle)
      split
      · exact saving
      · rename_i paused stopped
        split
        · exact saving.trans (call_recalls stopped)
        · rename_i uploading sent
          refine ((saving.trans (call_recalls stopped)).trans (call_recalls sent)).trans ?_
          exact .elsewhere rfl

theorem quiesceAll_recalls (answers : Answers) (entries : List (Sigma fun _ : String => Nat))
    (backend : BackendState) : Recalls backend (quiesceAll answers entries backend).1 := by
  induction entries generalizing backend with
  | nil => exact .refl backend
  | cons entry rest ih =>
      have here := quiesceOne_recalls backend answers entry.1 entry.2
      rw [quiesceAll]
      split
      · rename_i result
        rw [result] at here
        exact here
      · rename_i result
        rw [result] at here
        exact here.trans (ih _)

theorem runPeriodicSteps_recalls (backend : BackendState) (answers : Answers) :
    Recalls backend (backend.runPeriodicSteps answers).1 := by
  have quiet : Recalls backend
      ((backend.runPeriodicCheckpoints answers).runWarmQuiescence answers).1 := by
    refine Recalls.trans (.ofIncidental (runPeriodicCheckpoints_incidental backend answers)) ?_
    unfold runWarmQuiescence
    split
    · exact .refl _
    · refine Recalls.trans ?_ (quiesceAll_recalls answers _ _)
      exact .elsewhere rfl
  unfold runPeriodicSteps
  split
  · rename_i result
    rw [result] at quiet
    exact quiet
  · rename_i result
    rw [result] at quiet
    exact ((quiet.trans (.ofIncidental (processDiskReclaims_incidental _ answers))).trans
      (.ofIncidental (runDiskCacheEnforcement_incidental _ answers))).trans
        (.ofIncidental (requestTelemetryUpdate_incidental _ answers))

end BackendState

end NuvioEngine.Backend
