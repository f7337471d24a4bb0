import NuvioEngine.Backend.Incidental

/-!
What the handlers of `pop_events` tell. Their events are appended to the ones collected so far and are
for requests that the backend knows from a context, a removal or a reclaim, or for none; the events
queued for the next call and the preparations stay as they are.
-/

namespace NuvioEngine.Backend

open NuvioEngine.Bridge NuvioEngine.Stream NuvioEngine.Cache BridgeState

/-- The requests that an event may be for, apart from the preparations. -/
def Voice (backend : BackendState) (requestId : Nat) : Prop :=
  requestId = 0 ∨ (∃ context, (backend.contexts context).requestId = requestId) ∨
    (∃ id, backend.pendingRemovals.lookup id = some requestId) ∨
    ∃ request ∈ backend.pendingDiskReclaims, request.1 = requestId

/-- Events that answer `add_torrent` and `prepare_file`. -/
def acknowledges (event : BackendEvent) : Bool :=
  event.type = .torrentAdded || event.type = .streamPrepared

structure Tells (before after : BackendState) : Prop where
  events : ∃ more, after.events = before.events ++ more ∧
    ∀ event ∈ more, Voice before event.requestId ∧ acknowledges event = false
  queued : after.queuedEvents = before.queuedEvents
  voices : ∀ requestId, Voice after requestId → Voice before requestId
  prepares : after.pendingPrepares = before.pendingPrepares
  handles : after.handles = before.handles

namespace Tells

variable {first second third : BackendState}

theorem trans (left : Tells first second) (right : Tells second third) : Tells first third := by
  obtain ⟨more, appended, voiced⟩ := left.events
  obtain ⟨rest, followed, heard⟩ := right.events
  refine ⟨⟨more ++ rest, by rw [followed, appended, List.append_assoc], ?_⟩,
    right.queued.trans left.queued,
    fun requestId voice => left.voices requestId (right.voices requestId voice),
    right.prepares.trans left.prepares, right.handles.trans left.handles⟩
  intro event member
  rcases List.mem_append.mp member with old | new
  · exact voiced event old
  · exact ⟨left.voices _ (heard event new).1, (heard event new).2⟩

theorem silent (events : second.events = first.events) (queued : second.queuedEvents = first.queuedEvents)
    (contexts : ∀ context, (second.contexts context).requestId = (first.contexts context).requestId)
    (removals : ∀ id requestId, second.pendingRemovals.lookup id = some requestId →
      first.pendingRemovals.lookup id = some requestId)
    (reclaims : ∀ request ∈ second.pendingDiskReclaims, request ∈ first.pendingDiskReclaims)
    (prepares : second.pendingPrepares = first.pendingPrepares)
    (handles : second.handles = first.handles) : Tells first second := by
  refine ⟨⟨[], by simp [events], by simp⟩, queued, ?_, prepares, handles⟩
  rintro requestId (zero | ⟨context, same⟩ | ⟨id, found⟩ | ⟨request, member, same⟩)
  · exact Or.inl zero
  · exact Or.inr (Or.inl ⟨context, (contexts context).symm.trans same⟩)
  · exact Or.inr (Or.inr (Or.inl ⟨id, removals id requestId found⟩))
  · exact Or.inr (Or.inr (Or.inr ⟨request, reclaims request member, same⟩))

theorem quiet (kept : second = { first with
      system := second.system
      nextContext := second.nextContext
      pending := second.pending
      active := second.active
      retired := second.retired
      flags := second.flags
      warmSince := second.warmSince
      quiescedTorrents := second.quiescedTorrents
      pendingResumeSaves := second.pendingResumeSaves
      pendingCacheUnloads := second.pendingCacheUnloads
      pendingCacheRemovals := second.pendingCacheRemovals
      resumeFiles := second.resumeFiles
      nextWarmCheck := second.nextWarmCheck
      dhtReady := second.dhtReady
      lastDiskCacheError := second.lastDiskCacheError
      nextDiskCacheCheck := second.nextDiskCacheCheck
      nextDiskCacheMeasurement := second.nextDiskCacheMeasurement
      lastResumeCheckpoint := second.lastResumeCheckpoint
      lastSessionCheckpoint := second.lastSessionCheckpoint
      lastTelemetryRequest := second.lastTelemetryRequest }) : Tells first second := by
  rw [kept]
  exact silent rfl rfl (fun _ => rfl) (fun _ _ found => found) (fun _ member => member) rfl rfl

theorem refl (backend : BackendState) : Tells backend backend := quiet rfl

theorem foldl {α : Type} {step : BackendState → α → BackendState}
    (one : ∀ backend item, Tells backend (step backend item)) (items : List α)
    (backend : BackendState) : Tells backend (items.foldl step backend) := by
  induction items generalizing backend with
  | nil => exact refl backend
  | cons item rest ih => exact (one backend item).trans (ih (step backend item))

theorem dropPrepare (tells : Tells first second) (id : String) :
    Tells (first.dropPrepare id) (second.dropPrepare id) where
  events := tells.events
  queued := tells.queued
  voices := tells.voices
  prepares := congrArg (AList.erase id) tells.prepares
  handles := tells.handles

end Tells

namespace BackendState

variable {backend next : BackendState}

theorem emit_tells (backend : BackendState) {event : BackendEvent}
    (voiced : Voice backend event.requestId) (plain : acknowledges event = false) :
    Tells backend (backend.emit event) :=
  ⟨⟨[event], rfl, by simpa using ⟨voiced, plain⟩⟩, rfl, fun _ voice => voice, rfl, rfl⟩

theorem requestOf_voice (backend : BackendState) (context : Option Nat) :
    Voice backend (backend.requestOf context) := by
  cases context with
  | none => exact Or.inl rfl
  | some shared => exact Or.inr (Or.inl ⟨shared, rfl⟩)

theorem call_tells {answers : Answers} {handle : Nat} {call : HandleCall}
    (sent : backend.call answers handle call = .ok next) : Tells backend next := by
  rw [call_eq_ok sent]
  exact .quiet rfl

theorem setContext_tells (backend : BackendState) (context : Nat)
    {change : RequestContext → RequestContext}
    (kept : ∀ request, (change request).requestId = request.requestId) :
    Tells backend (backend.setContext context change) := by
  refine .silent rfl rfl ?_ (fun _ _ found => found) (fun _ member => member) rfl rfl
  intro other
  simp only [setContext, Function.update_apply]
  split
  · rename_i same
    rw [same, kept]
  · rfl

theorem markWarm_tells (backend : BackendState) (now : Nat) (id : String) :
    Tells backend (backend.markWarm now id) := by
  unfold markWarm
  split
  · exact .refl backend
  · exact .quiet rfl

theorem requestResumeSave_tells (backend : BackendState) (answers : Answers) (handle : Nat) :
    Tells backend (backend.requestResumeSave answers handle) := by
  unfold requestResumeSave
  split
  · exact .refl backend
  · split
    · exact .refl backend
    · split
      · exact .refl backend
      · split
        · exact .refl backend
        · rename_i sent
          exact (call_tells sent).trans (.quiet rfl)

theorem focusTorrent_tells (backend : BackendState) (answers : Answers) (requestedId : String) :
    Tells backend (backend.focusTorrent answers requestedId) := by
  refine Tells.foldl ?_ _ backend
  intro current entry
  unfold focusOne
  split
  · exact .refl current
  · split
    · exact .refl current
    · rename_i uploading sent
      split
      · exact call_tells sent
      · rename_i paused stopped
        exact ((call_tells sent).trans (call_tells stopped)).trans
          ((markWarm_tells paused answers.lt.now entry.1).trans (.quiet rfl))

theorem activateTorrent_tells (backend : BackendState) (answers : Answers) (id : String) (handle : Nat) :
    Tells backend (backend.activateTorrent answers id handle).1 := by
  have kept : Tells backend { backend with
      pendingCacheUnloads := backend.pendingCacheUnloads.filter fun other => other ≠ id } := .quiet rfl
  unfold activateTorrent
  simp only
  split
  · exact kept
  · rename_i uploading sent
    split
    · exact kept.trans (call_tells sent)
    · rename_i resumed woken
      exact ((kept.trans (call_tells sent)).trans (call_tells woken)).trans (.quiet rfl)

theorem reportDiskCacheError_tells (backend : BackendState) (message : String) :
    Tells backend (backend.reportDiskCacheError message) := by
  have noted : Tells backend { backend with lastDiskCacheError := message } := .quiet rfl
  unfold reportDiskCacheError
  split
  · exact .refl backend
  · exact noted.trans (emit_tells _ (Or.inl rfl) rfl)

theorem beginCacheUnload_tells (backend : BackendState) (answers : Answers) (id : String)
    (handle : Nat) : Tells backend (backend.beginCacheUnload answers id handle) := by
  unfold beginCacheUnload
  split
  · exact .refl backend
  · simp only
    split
    · exact .quiet rfl
    · split
      · refine Tells.trans ?_ (reportDiskCacheError_tells _ _)
        exact .quiet rfl
      · exact .quiet rfl

theorem requestCacheUnloads_tells (backend : BackendState) (answers : Answers)
    (includeWarm : Bool) : Tells backend (backend.requestCacheUnloads answers includeWarm) := by
  refine Tells.foldl ?_ _ backend
  intro current id
  unfold requestCacheUnload
  split
  · exact .refl current
  · split
    · exact .refl current
    · rename_i handle _
      have noted : Tells current { current with
          pendingCacheUnloads := current.pendingCacheUnloads.insert id } := .quiet rfl
      have saving := noted.trans (requestResumeSave_tells _ answers handle)
      simp only
      split
      · exact saving
      · exact saving.trans (beginCacheUnload_tells _ answers id handle)

theorem enforceDiskCache_tells (backend : BackendState) (answers : Answers) :
    Tells backend (backend.enforceDiskCache answers) := by
  unfold enforceDiskCache
  split
  · exact reportDiskCacheError_tells backend _
  · have cleared : Tells backend { backend with lastDiskCacheError := "" } := .quiet rfl
    simp only
    split
    · exact cleared.trans (requestCacheUnloads_tells _ answers false)
    · exact cleared

theorem runPeriodicCheckpoints_tells (backend : BackendState) (answers : Answers) :
    Tells backend (backend.runPeriodicCheckpoints answers) := by
  have asked : ∀ entries : List (Sigma fun _ : String => Nat), Tells backend
      (entries.foldl (fun current entry => current.requestResumeSave answers entry.2) backend) :=
    fun entries => .foldl (fun current entry => requestResumeSave_tells current answers entry.2)
      entries backend
  unfold runPeriodicCheckpoints
  extract_lets unremoved requested saved stored
  have checked : Tells backend saved := by
    unfold saved
    split
    · exact .refl backend
    · exact (asked _).trans (.quiet rfl)
  have told : Tells saved stored := by
    unfold stored
    split
    · exact .refl saved
    · exact emit_tells saved (Or.inl rfl) rfl
  split
  · exact checked
  · exact (checked.trans told).trans (.quiet rfl)

theorem reclaimEvent_plain (reclaimed : Except String (Nat × Nat)) (request : Nat × Nat) :
    acknowledges (reclaimEvent reclaimed request) = false := by
  unfold reclaimEvent
  split <;> rfl

theorem reclaimEvent_requestId (reclaimed : Except String (Nat × Nat)) (request : Nat × Nat) :
    (reclaimEvent reclaimed request).requestId = request.1 := by
  unfold reclaimEvent
  split <;> rfl

theorem emitAll_tells {α : Type} (event : α → BackendEvent) (items : List α)
    (voiced : ∀ item ∈ items, Voice backend (event item).requestId ∧ acknowledges (event item) = false)
    (told : Tells backend next) :
    Tells backend (items.foldl (fun current item => current.emit (event item)) next) := by
  induction items generalizing next with
  | nil => exact told
  | cons item rest ih =>
      refine ih (fun other member => voiced other (List.mem_cons_of_mem _ member)) ?_
      obtain ⟨more, appended, heard⟩ := told.events
      refine ⟨⟨more ++ [event item], ?_, ?_⟩, told.queued, told.voices, told.prepares, told.handles⟩
      · simp only [BackendState.emit, appended, List.append_assoc]
      · intro spoken member
        rcases List.mem_append.mp member with old | new
        · exact heard spoken old
        · rw [List.mem_singleton.mp new]
          exact voiced item List.mem_cons_self

theorem processDiskReclaims_tells (backend : BackendState) (answers : Answers) :
    Tells backend (backend.processDiskReclaims answers) := by
  have unloading := requestCacheUnloads_tells backend answers true
  unfold processDiskReclaims
  split
  · exact .refl backend
  · simp only
    split
    · exact unloading
    · refine emitAll_tells _ _ ?_ (unloading.trans ?_)
      · intro request member
        refine ⟨?_, reclaimEvent_plain _ request⟩
        rw [reclaimEvent_requestId]
        exact unloading.voices _ (Or.inr (Or.inr (Or.inr ⟨request, member, rfl⟩)))
      · exact .silent rfl rfl (fun _ => rfl) (fun _ _ found => found) (by simp) rfl rfl

theorem measureDiskCache_tells (backend : BackendState) (answers : Answers) :
    Tells backend (backend.measureDiskCache answers) := by
  unfold measureDiskCache
  split
  · exact .refl backend
  · simp only
    split
    · exact .quiet rfl
    · refine Tells.trans ?_ (reportDiskCacheError_tells _ _)
      exact .quiet rfl

theorem runDiskCacheEnforcement_tells (backend : BackendState) (answers : Answers) :
    Tells backend (backend.runDiskCacheEnforcement answers) := by
  have timed : ∀ check, Tells backend { backend with nextDiskCacheCheck := check } :=
    fun _ => .quiet rfl
  unfold runDiskCacheEnforcement
  split
  · exact .refl backend
  · split
    · exact (timed _).trans (measureDiskCache_tells _ answers)
    · exact (timed _).trans (enforceDiskCache_tells _ answers)

theorem announceEach_tells (answers : Answers) (call : HandleCall)
    (entries : List (Sigma fun _ : String => Nat)) (backend : BackendState) :
    Tells backend (announceEach answers call entries backend).1 := by
  induction entries generalizing backend with
  | nil => exact .refl backend
  | cons entry rest ih =>
      rw [announceEach]
      split
      · exact ih backend
      · split
        · exact .refl backend
        · rename_i sent
          exact (call_tells sent).trans (ih _)

theorem requestTelemetryUpdate_tells (backend : BackendState) (answers : Answers) :
    Tells backend (backend.requestTelemetryUpdate answers).1 := by
  have posted := announceEach_tells answers .postPeerInfo backend.handles.entries backend
  unfold requestTelemetryUpdate
  split
  · exact .refl backend
  · split
    · rename_i result
      rw [result] at posted
      exact posted
    · rename_i result
      rw [result] at posted
      exact posted.trans (.quiet rfl)

theorem quiesceAll_tells (answers : Answers) (entries : List (Sigma fun _ : String => Nat))
    (backend : BackendState) : Tells backend (quiesceAll answers entries backend).1 := by
  have one : ∀ (current : BackendState) (id : String) (since : Nat),
      Tells current (current.quiesceOne answers id since).1 := by
    intro current id since
    unfold quiesceOne
    split
    · exact .refl current
    · split
      · exact .refl current
      · rename_i handle _
        have saving := requestResumeSave_tells current answers handle
        split
        · exact saving
        · rename_i paused stopped
          split
          · exact saving.trans (call_tells stopped)
          · rename_i uploading sent
            exact ((saving.trans (call_tells stopped)).trans (call_tells sent)).trans (.quiet rfl)
  induction entries generalizing backend with
  | nil => exact .refl backend
  | cons entry rest ih =>
      have here := one backend entry.1 entry.2
      rw [quiesceAll]
      split
      · rename_i result
        rw [result] at here
        exact here
      · rename_i result
        rw [result] at here
        exact here.trans (ih _)

theorem runWarmQuiescence_tells (backend : BackendState) (answers : Answers) :
    Tells backend (backend.runWarmQuiescence answers).1 := by
  unfold runWarmQuiescence
  split
  · exact .refl backend
  · refine Tells.trans ?_ (quiesceAll_tells answers _ _)
    exact .quiet rfl

theorem runPeriodicSteps_tells (backend : BackendState) (answers : Answers) :
    Tells backend (backend.runPeriodicSteps answers).1 := by
  have quiet := (runPeriodicCheckpoints_tells backend answers).trans
    (runWarmQuiescence_tells _ answers)
  unfold runPeriodicSteps
  split
  · rename_i result
    rw [result] at quiet
    exact quiet
  · rename_i result
    rw [result] at quiet
    exact ((quiet.trans (processDiskReclaims_tells _ answers)).trans
      (runDiskCacheEnforcement_tells _ answers)).trans (requestTelemetryUpdate_tells _ answers)

theorem metadataEvent_requestId {answers : Answers} {handle : Nat} {context : Option RequestContext}
    {source : MetadataSource} {event : BackendEvent}
    (built : metadataEvent answers handle context source = .ok event) :
    event.requestId = context.elim 0 RequestContext.requestId := by
  unfold metadataEvent at built
  split at built
  · simp at built
  · rw [← Except.ok.inj built]

theorem metadataEvent_plain {answers : Answers} {handle : Nat} {context : Option RequestContext}
    {source : MetadataSource} {event : BackendEvent}
    (built : metadataEvent answers handle context source = .ok event) : acknowledges event = false := by
  unfold metadataEvent at built
  split at built
  · simp at built
  · rw [← Except.ok.inj built]
    rfl

theorem emitMetadata_tells (backend : BackendState) (answers : Answers) (handle : Nat)
    (context : Option Nat) (source : MetadataSource) :
    Tells backend (backend.emitMetadata answers handle context source).1 := by
  have voiced : ∀ (marked : BackendState) event,
      metadataEvent answers handle (context.map marked.contexts) source = .ok event →
        Voice marked event.requestId := by
    intro marked event built
    rw [metadataEvent_requestId built]
    cases context with
    | none => exact Or.inl rfl
    | some shared => exact Or.inr (Or.inl ⟨shared, rfl⟩)
  unfold emitMetadata
  extract_lets marked
  have told : Tells backend marked := by
    unfold marked
    split
    · exact .refl backend
    · exact setContext_tells backend _ fun _ => rfl
  split
  · exact told
  · rename_i built
    exact told.trans (emit_tells _ (voiced _ _ built) (metadataEvent_plain built))

theorem announce_tells (backend : BackendState) (answers : Answers) (handle : Nat)
    (context : Option Nat) : Tells backend (backend.announce answers handle context).1 := by
  unfold announce
  split
  · exact .refl backend
  · exact .refl backend
  · exact .refl backend
  · rename_i shared _
    split
    · exact .refl backend
    · have told := emitMetadata_tells backend answers handle (some shared)
        (backend.contexts shared).metadataSource
      simp only
      split
      · rename_i result
        rw [result] at told
        exact told
      · rename_i result
        rw [result] at told
        split
        · exact told
        · exact told.trans (requestResumeSave_tells _ answers handle)

theorem retire_tells (backend : BackendState) (id : String) : Tells backend (backend.retire id) := by
  unfold retire
  split
  · exact .refl backend
  · exact .quiet rfl

theorem adopt_tells (backend : BackendState) (answers : Answers) (id : String) (handle : Nat)
    (context : Option Nat) : Tells backend (backend.adopt answers id handle context) := by
  unfold adopt
  split
  · exact .refl backend
  · rename_i shared
    have named : Tells backend (backend.setContext shared fun request =>
        { request with torrentId := id }) := setContext_tells backend shared fun _ => rfl
    simp only
    split
    · exact (named.trans (retire_tells _ id)).trans (.quiet rfl)
    · exact named

theorem handleAdded_cases (backend : BackendState) (answers : Answers) (context : Option Nat)
    (handle : Nat) (error : Option String) :
    Tells backend (backend.handleAdded answers context handle error).1 ∨
      (error = none ∧ ∃ middle, Tells { backend with
          handles := backend.handles.insert (answers.torrentId handle) handle } middle ∧
        ((backend.handleAdded answers context handle error).1 = middle ∨
          ∃ event, event.type = .torrentAdded ∧ event.torrentId = answers.torrentId handle ∧
            Voice backend event.requestId ∧
            Tells (middle.emit event) (backend.handleAdded answers context handle error).1)) := by
  unfold handleAdded
  simp only
  split
  · exact Or.inl ((emit_tells backend (requestOf_voice backend context) rfl).trans (.quiet rfl))
  · refine Or.inr ⟨rfl, ?_⟩
    have adopted := adopt_tells { backend with
      handles := backend.handles.insert (answers.torrentId handle) handle } answers
      (answers.torrentId handle) handle context
    split
    · exact ⟨_, .refl _, Or.inl rfl⟩
    · rename_i announced sent
      rw [announceAdded_eq_ok sent]
      refine ⟨_, adopted, Or.inr ⟨{
        type := .torrentAdded
        requestId := backend.requestOf context
        torrentId := answers.torrentId handle }, rfl, rfl, requestOf_voice backend context, ?_⟩⟩
      have announces := announce_tells (({ backend with
        handles := backend.handles.insert (answers.torrentId handle) handle }.adopt answers
          (answers.torrentId handle) handle context).emit {
            type := .torrentAdded
            requestId := backend.requestOf context
            torrentId := answers.torrentId handle }) answers handle context
      split
      · rename_i result
        rw [result] at announces
        exact announces
      · rename_i result
        rw [result] at announces
        exact announces.trans (.quiet rfl)

theorem handleMetadata_tells (backend : BackendState) (answers : Answers) (handle : Nat) :
    Tells backend (backend.handleMetadata answers handle).1 := by
  have told := emitMetadata_tells backend answers handle (answers.userdata handle) .cold
  unfold handleMetadata
  simp only
  split
  · exact .refl backend
  · split
    · rename_i result
      rw [result] at told
      exact told
    · rename_i result
      rw [result] at told
      exact told.trans (requestResumeSave_tells _ answers handle)

theorem handleError_tells (backend : BackendState) (answers : Answers) (handle : Nat)
    (message : String) : Tells backend (backend.handleError answers handle message) :=
  emit_tells backend (requestOf_voice backend _) rfl

theorem handleResumeSaved_tells (backend : BackendState) (answers : Answers) (handle : Nat) :
    Tells backend (backend.handleResumeSaved answers handle) := by
  have forgotten : Tells backend (backend.forgetResumeSave (answers.userdata handle)) := .quiet rfl
  unfold handleResumeSaved
  simp only
  split
  · exact forgotten
  · split
    · exact forgotten
    · refine (forgotten.trans ?_).trans (beginCacheUnload_tells _ answers _ handle)
      split
      · exact .quiet rfl
      · exact emit_tells _ (Or.inl rfl) rfl

theorem handleResumeSaveFailed_tells (backend : BackendState) (answers : Answers) (handle : Nat)
    (notModified : Bool) (message : String) :
    Tells backend (backend.handleResumeSaveFailed answers handle notModified message) := by
  have forgotten : Tells backend (backend.forgetResumeSave (answers.userdata handle)) := .quiet rfl
  unfold handleResumeSaveFailed
  simp only
  split
  · exact forgotten
  · split
    · exact forgotten.trans (beginCacheUnload_tells _ answers _ handle)
    · split
      · exact forgotten
      · exact forgotten.trans (emit_tells _ (Or.inl rfl) rfl)

theorem cool_tells (backend : BackendState) (answers : Answers) (id : String) :
    Tells backend (backend.cool answers id) := by
  have warm := markWarm_tells backend answers.lt.now id
  unfold cool callQuietly
  simp only
  split
  · exact warm
  · split
    · exact warm
    · split
      · exact warm
      · rename_i sent
        exact warm.trans (call_tells sent)

/-- The preparation of a torrent is answered and dropped. -/
def Concludes (id : String) (requestId : Nat) (before after : BackendState) : Prop :=
  ∃ middle event last, Tells before middle ∧
    (event.type = .streamPrepared ∨ event.type = .torrentError) ∧ event.requestId = requestId ∧
    Tells (middle.emit event) last ∧ after = last.dropPrepare id

theorem failPrepare_concludes (told : Tells backend next) (id : String) (prepare : PendingPrepare)
    (message : String) :
    Concludes id prepare.requestId backend ((next.emitPrepareError id prepare message).dropPrepare id) :=
  ⟨next, _, _, told, Or.inr rfl, rfl, .refl _, rfl⟩

theorem preparedEvent_requestId {answers : Answers} {handle : Nat} {id : String}
    {prepare : PendingPrepare} {event : BackendEvent}
    (prepared : backend.preparedEvent answers handle id prepare = .ok (next, event)) :
    event.type = .streamPrepared ∧ event.requestId = prepare.requestId ∧ event.torrentId = id := by
  unfold preparedEvent at prepared
  split at prepared
  · simp at prepared
  · simp only [Except.ok.injEq, Prod.mk.injEq] at prepared
    rw [← prepared.2]
    exact ⟨rfl, rfl, rfl⟩

theorem preparedEvent_tells {answers : Answers} {handle : Nat} {id : String} {prepare : PendingPrepare}
    {event : BackendEvent}
    (prepared : backend.preparedEvent answers handle id prepare = .ok (next, event)) :
    Tells backend next := by
  rw [preparedEvent_eq_ok prepared]
  exact .quiet rfl

/-- A priority alert concludes the preparation of its torrent, if there is one, unless something that
is no `std::exception` is thrown. -/
theorem handleFilePriority_cases (backend : BackendState) (answers : Answers) (handle : Nat)
    (error : Option String) :
    (backend.pendingPrepares.lookup (answers.torrentId handle) = none ∧
        backend.handleFilePriority answers handle error = (backend, none)) ∨
      ∃ prepare, backend.pendingPrepares.lookup (answers.torrentId handle) = some prepare ∧
        ((Concludes (answers.torrentId handle) prepare.requestId backend
            (backend.handleFilePriority answers handle error).1 ∧
          (backend.handleFilePriority answers handle error).2 = none) ∨
        (Tells backend (backend.handleFilePriority answers handle error).1 ∧
          (backend.handleFilePriority answers handle error).2 = some .other)) := by
  have finishing : ∀ prepare, (∃ finished, backend.finishPrepare answers handle
        (answers.torrentId handle) prepare = (finished, none) ∧
          Concludes (answers.torrentId handle) prepare.requestId backend
            (finished.dropPrepare (answers.torrentId handle))) ∨
      ∃ stopped thrown, backend.finishPrepare answers handle (answers.torrentId handle) prepare =
        (stopped, some thrown) ∧ Tells backend stopped := by
    intro prepare
    unfold finishPrepare
    split
    · exact Or.inr ⟨backend, _, rfl, .refl backend⟩
    · rename_i downloading sent
      split
      · exact Or.inr ⟨downloading, _, rfl, call_tells sent⟩
      · rename_i registered event prepared
        obtain ⟨kind, request, _⟩ := preparedEvent_requestId prepared
        exact Or.inl ⟨_, rfl, registered, event, _, (call_tells sent).trans (preparedEvent_tells prepared),
          Or.inl kind, request, requestResumeSave_tells _ answers handle, rfl⟩
  cases found : backend.pendingPrepares.lookup (answers.torrentId handle) with
  | none => exact Or.inl ⟨rfl, by simp [handleFilePriority, found]⟩
  | some prepare =>
      refine Or.inr ⟨prepare, rfl, ?_⟩
      cases error with
      | some message =>
          simp only [handleFilePriority, found]
          exact Or.inl ⟨failPrepare_concludes (.refl backend) _ prepare message, trivial⟩
      | none =>
          simp only [handleFilePriority, found]
          rcases finishing prepare with ⟨finished, result, concludes⟩ | ⟨stopped, thrown, result, told⟩
          · simp only [result]
            exact Or.inl ⟨concludes, trivial⟩
          · cases thrown with
            | standard what =>
                simp only [result]
                exact Or.inl ⟨failPrepare_concludes told _ prepare what, trivial⟩
            | other =>
                simp only [result]
                exact Or.inr ⟨told, trivial⟩

theorem handleFileError_cases (backend : BackendState) (answers : Answers) (handle : Nat)
    (message : String) :
    (backend.pendingPrepares.lookup (answers.torrentId handle) = none ∧
        backend.handleFileError answers handle message = backend) ∨
      ∃ prepare, backend.pendingPrepares.lookup (answers.torrentId handle) = some prepare ∧
        Concludes (answers.torrentId handle) prepare.requestId backend
          (backend.handleFileError answers handle message) := by
  cases found : backend.pendingPrepares.lookup (answers.torrentId handle) with
  | none => exact Or.inl ⟨rfl, by simp [handleFileError, found]⟩
  | some prepare =>
      simp only [handleFileError, found]
      exact Or.inr ⟨prepare, rfl, failPrepare_concludes (.refl backend) _ prepare message⟩

theorem eraseResume_tells (told : Tells backend next) (answers : Answers) (id : String) {requestId : Nat}
    (voiced : Voice backend requestId) :
    Tells backend (next.eraseResume answers id BackendState.emit requestId) := by
  unfold eraseResume
  split
  · exact told.trans (.quiet rfl)
  · exact emitAll_tells (fun event => event) [_] (by simpa using ⟨voiced, rfl⟩) told

theorem forgetRemoved_tells (told : BackendState) (answers : Answers) (context : Option Nat)
    (id : String) :
    Tells { told.dropPrepare id with handles := told.handles.erase id } (({ told with
      pendingCacheRemovals := told.pendingCacheRemovals.filter fun other => other ≠ id
      pendingCacheUnloads := told.pendingCacheUnloads.filter fun other => other ≠ id
      pendingRemovals := told.pendingRemovals.erase id
      handles := told.handles.erase id
      warmSince := told.warmSince.erase id
      quiescedTorrents := told.quiescedTorrents.filter fun other => other ≠ id }.work
        (.remove answers.lt id)).dropPrepare id |>.forgetResumeSave context) := by
  simp only [forgetResumeSave, dropPrepare, BackendState.work]
  refine .silent rfl rfl (fun _ => rfl) ?_ (fun _ member => member) rfl rfl
  intro other requestId found
  simp only [AList.lookup_erase_ite] at found
  split at found
  · simp at found
  · exact found

theorem retireRemoved_tells {first erased : BackendState} (tells : Tells first erased)
    (answers : Answers) (id : String) :
    Tells first (if answers.disk.reading then
        { erased.retire id with nextDiskCacheCheck := answers.lt.now + 1000 }
      else (erased.retire id).enforceDiskCache answers) := by
  have kept := tells.trans (retire_tells erased id)
  split
  · exact kept.trans (.quiet rfl)
  · exact kept.trans (enforceDiskCache_tells _ answers)

theorem handleRemoved_tells (backend : BackendState) (answers : Answers) (context : Option Nat)
    (hashId : String) :
    ∃ middle, Tells backend middle ∧ Tells { middle.dropPrepare (backend.idOf context hashId) with
        handles := middle.handles.erase (backend.idOf context hashId) }
      (backend.handleRemoved answers context hashId) := by
  have removal : Voice backend
      ((backend.pendingRemovals.lookup (backend.idOf context hashId)).getD 0) := by
    cases found : backend.pendingRemovals.lookup (backend.idOf context hashId) with
    | none => exact Or.inl rfl
    | some requestId => exact Or.inr (Or.inr (Or.inl ⟨_, found⟩))
  have told : Tells backend (backend.emit {
      type := .torrentRemoved
      requestId := (backend.pendingRemovals.lookup (backend.idOf context hashId)).getD 0
      torrentId := backend.idOf context hashId }) := emit_tells backend removal rfl
  refine ⟨_, told, ?_⟩
  unfold handleRemoved
  simp only
  clear told
  generalize backend.idOf context hashId = id at removal ⊢
  generalize heard : backend.emit {
    type := .torrentRemoved
    requestId := (backend.pendingRemovals.lookup id).getD 0
    torrentId := id } = told
  have voiced : Voice { told.dropPrepare id with handles := told.handles.erase id }
      ((backend.pendingRemovals.lookup id).getD 0) := by
    rw [← heard]
    exact removal
  have forgotten := forgetRemoved_tells told answers context id
  apply retireRemoved_tells
  split
  · exact forgotten
  · exact eraseResume_tells forgotten answers id voiced

/-- The alerts about torrents and files that answer requests are told apart from the others. -/
def isPlain : BackendAlert → Bool
  | .added .. | .fileError .. | .filePriority .. | .torrentRemoved .. => false
  | .metadataReceived .. | .torrentError .. | .resumeSaved .. | .resumeSaveFailed ..
  | .torrentFinished .. | .readPiece .. | .blockFinished .. | .hashFailed .. | .dhtBootstrap => true

theorem handleAlert_tells (backend : BackendState) (answers : Answers) {received : BackendAlert}
    (plain : isPlain received = true) : Tells backend (backend.handleAlert answers received).1 := by
  cases received with
  | added context handle error => simp [isPlain] at plain
  | metadataReceived handle => exact handleMetadata_tells backend answers handle
  | torrentError handle message => exact handleError_tells backend answers handle message
  | fileError handle message => simp [isPlain] at plain
  | filePriority handle error => simp [isPlain] at plain
  | resumeSaved handle => exact handleResumeSaved_tells backend answers handle
  | resumeSaveFailed handle notModified message =>
      exact handleResumeSaveFailed_tells backend answers handle notModified message
  | torrentFinished handle => exact requestResumeSave_tells backend answers handle
  | torrentRemoved context hashId => simp [isPlain] at plain
  | readPiece alert => exact .quiet rfl
  | blockFinished torrentId piece block => exact .quiet rfl
  | hashFailed torrentId piece => exact .quiet rfl
  | dhtBootstrap =>
      have ready : Tells backend { backend with dhtReady := true } := .quiet rfl
      exact ready.trans (announceEach_tells answers .forceDhtAnnounce _ _)

end BackendState

end NuvioEngine.Backend
