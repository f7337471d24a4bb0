import NuvioEngine.Backend.HostCore

/-!
What the bookkeeping around resume files and cache unloads leaves alone: streams, contexts, handles,
preparations and the warm torrents stay as they are, and events are only added.
-/

namespace NuvioEngine.Backend

open NuvioEngine.Bridge NuvioEngine.Stream NuvioEngine.Cache BridgeState

structure Incidental (before after : BackendState) : Prop where
  system : after.system = before.system
  contexts : after.contexts = before.contexts
  nextContext : after.nextContext = before.nextContext
  pending : after.pending = before.pending
  active : after.active = before.active
  retired : after.retired = before.retired
  handles : after.handles = before.handles
  warmSince : after.warmSince = before.warmSince
  quiescedTorrents : after.quiescedTorrents = before.quiescedTorrents
  pendingPrepares : after.pendingPrepares = before.pendingPrepares
  flags : after.flags = before.flags
  told : ∀ event ∈ before.events ++ before.queuedEvents, event ∈ after.events ++ after.queuedEvents

namespace Incidental

variable {first second third : BackendState}

theorem refl (backend : BackendState) : Incidental backend backend := by
  constructor <;> first | rfl | exact fun _ told => told

theorem trans (left : Incidental first second) (right : Incidental second third) :
    Incidental first third where
  system := right.system.trans left.system
  contexts := right.contexts.trans left.contexts
  nextContext := right.nextContext.trans left.nextContext
  pending := right.pending.trans left.pending
  active := right.active.trans left.active
  retired := right.retired.trans left.retired
  handles := right.handles.trans left.handles
  warmSince := right.warmSince.trans left.warmSince
  quiescedTorrents := right.quiescedTorrents.trans left.quiescedTorrents
  pendingPrepares := right.pendingPrepares.trans left.pendingPrepares
  flags := right.flags.trans left.flags
  told := fun event member => right.told event (left.told event member)

theorem bookkeeping (kept : second = { first with
      pendingResumeSaves := second.pendingResumeSaves
      pendingCacheUnloads := second.pendingCacheUnloads
      pendingCacheRemovals := second.pendingCacheRemovals
      resumeFiles := second.resumeFiles
      dhtReady := second.dhtReady
      pendingDiskReclaims := second.pendingDiskReclaims
      lastDiskCacheError := second.lastDiskCacheError
      nextDiskCacheCheck := second.nextDiskCacheCheck
      nextDiskCacheMeasurement := second.nextDiskCacheMeasurement
      lastResumeCheckpoint := second.lastResumeCheckpoint
      lastSessionCheckpoint := second.lastSessionCheckpoint
      lastTelemetryRequest := second.lastTelemetryRequest }) : Incidental first second := by
  rw [kept]
  constructor <;> first | rfl | exact fun _ told => told

theorem foldl {α : Type} {step : BackendState → α → BackendState}
    (one : ∀ backend item, Incidental backend (step backend item)) (items : List α)
    (backend : BackendState) : Incidental backend (items.foldl step backend) := by
  induction items generalizing backend with
  | nil => exact refl backend
  | cons item rest ih => exact (one backend item).trans (ih (step backend item))

end Incidental

namespace BackendState

theorem queue_incidental (backend : BackendState) (event : BackendEvent) :
    Incidental backend (backend.queue event) := by
  constructor <;> try rfl
  intro told member
  simp only [queue, List.mem_append] at member ⊢
  tauto

theorem emit_incidental (backend : BackendState) (event : BackendEvent) :
    Incidental backend (backend.emit event) := by
  constructor <;> try rfl
  intro told member
  simp only [emit, List.mem_append] at member ⊢
  tauto

theorem forgetResumeSave_incidental (backend : BackendState) (context : Option Nat) :
    Incidental backend (backend.forgetResumeSave context) :=
  .bookkeeping rfl

theorem call_eq_ok {backend next : BackendState} {answers : Answers} {handle : Nat} {call : HandleCall}
    (sent : backend.call answers handle call = .ok next) :
    next = { backend with
      flags := Function.update backend.flags handle ((backend.flags handle).apply call) } := by
  unfold BackendState.call at sent
  split at sent
  · simp at sent
  · exact (Except.ok.inj sent).symm

theorem call_eq_self {backend next : BackendState} {answers : Answers} {handle : Nat} {call : HandleCall}
    (idle : (backend.flags handle).apply call = backend.flags handle)
    (sent : backend.call answers handle call = .ok next) : next = backend := by
  rw [call_eq_ok sent, idle, Function.update_eq_self]

theorem requestResumeSave_incidental (backend : BackendState) (answers : Answers) (handle : Nat) :
    Incidental backend (backend.requestResumeSave answers handle) := by
  unfold requestResumeSave
  split
  · exact .refl backend
  · split
    · exact .refl backend
    · split
      · exact .refl backend
      · split
        · exact .refl backend
        · rename_i sent
          rw [call_eq_self rfl sent]
          exact .bookkeeping rfl

theorem reportDiskCacheError_incidental (backend : BackendState) (message : String) :
    Incidental backend (backend.reportDiskCacheError message) := by
  have noted : Incidental backend { backend with lastDiskCacheError := message } := .bookkeeping rfl
  unfold reportDiskCacheError
  split
  · exact .refl backend
  · exact noted.trans (emit_incidental _ _)

theorem beginCacheUnload_incidental (backend : BackendState) (answers : Answers) (id : String)
    (handle : Nat) : Incidental backend (backend.beginCacheUnload answers id handle) := by
  unfold beginCacheUnload
  split
  · exact .refl backend
  · simp only
    split
    · exact .bookkeeping rfl
    · split
      · refine Incidental.trans ?_ (reportDiskCacheError_incidental _ _)
        exact .bookkeeping rfl
      · exact .bookkeeping rfl

theorem requestCacheUnload_incidental (answers : Answers) (includeWarm : Bool) (backend : BackendState)
    (id : String) : Incidental backend (requestCacheUnload answers includeWarm backend id) := by
  unfold requestCacheUnload
  split
  · exact .refl backend
  · split
    · exact .refl backend
    · rename_i handle _
      have noted : Incidental backend { backend with
          pendingCacheUnloads := backend.pendingCacheUnloads.insert id } :=
        .bookkeeping rfl
      have saving := noted.trans (requestResumeSave_incidental _ answers handle)
      simp only
      split
      · exact saving
      · exact saving.trans (beginCacheUnload_incidental _ answers id handle)

theorem requestCacheUnloads_incidental (backend : BackendState) (answers : Answers)
    (includeWarm : Bool) : Incidental backend (backend.requestCacheUnloads answers includeWarm) :=
  .foldl (requestCacheUnload_incidental answers includeWarm) _ backend

theorem enforceDiskCache_incidental (backend : BackendState) (answers : Answers) :
    Incidental backend (backend.enforceDiskCache answers) := by
  unfold enforceDiskCache
  split
  · exact reportDiskCacheError_incidental backend _
  · have cleared : Incidental backend { backend with lastDiskCacheError := "" } := .bookkeeping rfl
    simp only
    split
    · exact cleared.trans (requestCacheUnloads_incidental _ answers false)
    · exact cleared

theorem runPeriodicCheckpoints_incidental (backend : BackendState) (answers : Answers) :
    Incidental backend (backend.runPeriodicCheckpoints answers) := by
  have asked : ∀ entries : List (Sigma fun _ : String => Nat), Incidental backend
      (entries.foldl (fun current entry => current.requestResumeSave answers entry.2) backend) :=
    fun entries => .foldl (fun current entry => requestResumeSave_incidental current answers entry.2)
      entries backend
  have timed : ∀ (current : BackendState) (now : Nat),
      Incidental current { current with lastSessionCheckpoint := now } := fun _ _ => .bookkeeping rfl
  unfold runPeriodicCheckpoints
  simp only
  split
  · split
    · exact .refl backend
    · refine Incidental.trans ?_ (timed _ _)
      split
      · exact .refl backend
      · exact emit_incidental backend _
  · have saved : Incidental backend { ((backend.handles.entries.filter fun entry =>
        (backend.pendingRemovals.lookup entry.1).isNone).foldl
          (fun current entry => current.requestResumeSave answers entry.2) backend) with
        lastResumeCheckpoint := answers.lt.now } := (asked _).trans (.bookkeeping rfl)
    split
    · exact saved
    · refine Incidental.trans ?_ (timed _ _)
      split
      · exact saved
      · exact saved.trans (emit_incidental _ _)

theorem processDiskReclaims_incidental (backend : BackendState) (answers : Answers) :
    Incidental backend (backend.processDiskReclaims answers) := by
  have unloading := requestCacheUnloads_incidental backend answers true
  unfold processDiskReclaims
  split
  · exact .refl backend
  · simp only
    split
    · exact unloading
    · refine (unloading.trans ?_).trans
        (.foldl (fun current request => emit_incidental current (reclaimEvent _ request)) _ _)
      exact .bookkeeping rfl

theorem measureDiskCache_incidental (backend : BackendState) (answers : Answers) :
    Incidental backend (backend.measureDiskCache answers) := by
  unfold measureDiskCache
  split
  · exact .refl backend
  · simp only
    split
    · exact .bookkeeping rfl
    · refine Incidental.trans ?_ (reportDiskCacheError_incidental _ _)
      exact .bookkeeping rfl

theorem runDiskCacheEnforcement_incidental (backend : BackendState) (answers : Answers) :
    Incidental backend (backend.runDiskCacheEnforcement answers) := by
  have timed : ∀ check, Incidental backend { backend with nextDiskCacheCheck := check } :=
    fun _ => .bookkeeping rfl
  unfold runDiskCacheEnforcement
  split
  · exact .refl backend
  · split
    · exact (timed _).trans (measureDiskCache_incidental _ answers)
    · exact (timed _).trans (enforceDiskCache_incidental _ answers)

theorem announceEach_incidental (answers : Answers) {call : HandleCall}
    (idle : ∀ flags : TorrentFlags, flags.apply call = flags)
    (entries : List (Sigma fun _ : String => Nat)) (backend : BackendState) :
    Incidental backend (announceEach answers call entries backend).1 := by
  induction entries generalizing backend with
  | nil => exact .refl backend
  | cons entry rest ih =>
      rw [announceEach]
      split
      · exact ih backend
      · split
        · exact .refl backend
        · rename_i sent
          rw [call_eq_self (idle _) sent]
          exact ih backend

theorem preparedEvent_eq_ok {backend next : BackendState} {answers : Answers} {handle : Nat} {id : String} {prepare : PendingPrepare}
    {event : BackendEvent} (prepared : backend.preparedEvent answers handle id prepare = .ok (next, event)) :
    next = backend.work (.register answers.lt answers.token handle id prepare.fileIndex prepare.file) := by
  unfold preparedEvent at prepared
  split at prepared
  · simp at prepared
  · simp only [Except.ok.injEq, Prod.mk.injEq] at prepared
    exact prepared.1.symm

theorem validHandle_eq_some {backend : BackendState} {answers : Answers} {id : String} {handle : Nat}
    (found : backend.validHandle answers id = some handle) :
    backend.handles.lookup id = some handle ∧ answers.lt.isValid handle = true := by
  simpa [validHandle, Option.filter_eq_some_iff] using found

theorem announceAdded_eq_ok {backend next : BackendState} {answers : Answers} {handle : Nat}
    (announced : backend.announceAdded answers handle = .ok next) : next = backend := by
  unfold announceAdded at announced
  split at announced
  · exact call_eq_self rfl announced
  · exact (Except.ok.inj announced).symm

theorem requestTelemetryUpdate_incidental (backend : BackendState) (answers : Answers) :
    Incidental backend (backend.requestTelemetryUpdate answers).1 := by
  have posted : Incidental backend
      (announceEach answers .postPeerInfo backend.handles.entries backend).1 :=
    announceEach_incidental answers (fun _ => rfl) _ backend
  unfold requestTelemetryUpdate
  split
  · exact .refl backend
  · split
    · rename_i result
      rw [result] at posted
      exact posted
    · rename_i result
      rw [result] at posted
      exact posted.trans (.bookkeeping rfl)

theorem eraseResume_incidental (backend : BackendState) (answers : Answers) (id : String)
    {report : BackendState → BackendEvent → BackendState}
    (reports : ∀ event, Incidental backend (report backend event)) (requestId : Nat) :
    Incidental backend (backend.eraseResume answers id report requestId) := by
  unfold eraseResume
  split
  · exact .bookkeeping rfl
  · exact reports _

theorem reclaimDiskCache_incidental (backend : BackendState) (requestId targetBytes : Nat) :
    Incidental backend (backend.reclaimDiskCache requestId targetBytes).1 := by
  unfold reclaimDiskCache
  split
  · exact .refl backend
  · exact .bookkeeping rfl

theorem handleError_incidental (backend : BackendState) (answers : Answers) (handle : Nat)
    (message : String) : Incidental backend (backend.handleError answers handle message) :=
  emit_incidental backend _

theorem handleResumeSaved_incidental (backend : BackendState) (answers : Answers) (handle : Nat) :
    Incidental backend (backend.handleResumeSaved answers handle) := by
  have forgotten := forgetResumeSave_incidental backend (answers.userdata handle)
  unfold handleResumeSaved
  simp only
  split
  · exact forgotten
  · split
    · exact forgotten
    · refine (forgotten.trans ?_).trans (beginCacheUnload_incidental _ answers _ handle)
      split
      · exact .bookkeeping rfl
      · exact emit_incidental _ _

theorem handleResumeSaveFailed_incidental (backend : BackendState) (answers : Answers) (handle : Nat)
    (notModified : Bool) (message : String) :
    Incidental backend (backend.handleResumeSaveFailed answers handle notModified message) := by
  have forgotten := forgetResumeSave_incidental backend (answers.userdata handle)
  unfold handleResumeSaveFailed
  simp only
  split
  · exact forgotten
  · split
    · exact forgotten.trans (beginCacheUnload_incidental _ answers _ handle)
    · split
      · exact forgotten
      · exact forgotten.trans (emit_incidental _ _)

end BackendState

end NuvioEngine.Backend
