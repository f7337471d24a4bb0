import NuvioEngine.Backend.ResumeMarks
import NuvioEngine.Backend.SessionCore

/-!
What each command and each alert does to the marks that resume files depend on.
-/

namespace NuvioEngine.Backend

open NuvioEngine.Bridge NuvioEngine.Stream NuvioEngine.Cache BridgeState

/-- The removed contexts after the flag of one is set or cleared. -/
def remark (removed : Nat → Bool) (context : Option Nat) (flag : Bool) (query : Nat) : Bool :=
  if context = some query then flag else removed query

namespace BackendState

variable {backend next : BackendState} {answers : Answers}

theorem setContext_marks (backend : BackendState) (context : Nat) {change : RequestContext → RequestContext}
    (removed : ∀ request, (change request).explicitlyRemoved = request.explicitlyRemoved)
    (torrent : ∀ request, (change request).torrentId = request.torrentId) :
    (backend.setContext context change).marks = backend.marks := by
  have flags : (fun other => ((backend.setContext context change).contexts other).explicitlyRemoved) =
      fun other => (backend.contexts other).explicitlyRemoved := by
    funext other
    by_cases same : other = context <;> simp [setContext, same, removed]
  have ids : (fun other => ((backend.setContext context change).contexts other).torrentId) =
      fun other => (backend.contexts other).torrentId := by
    funext other
    by_cases same : other = context <;> simp [setContext, same, torrent]
  simp only [marks, flags, ids]
  rfl

theorem focusTorrent_marks (backend : BackendState) (answers : Answers) (requestedId : String) :
    (backend.focusTorrent answers requestedId).marks = backend.marks := by
  have one : ∀ (current : BackendState) entry,
      (focusOne answers requestedId current entry).marks = current.marks := by
    intro current entry
    unfold focusOne
    split
    · rfl
    · split
      · rfl
      · rename_i uploading sent
        split
        · exact call_marks sent
        · rename_i paused stopped
          have warm := markWarm_marks paused answers.lt.now entry.1
          exact (warm.trans (call_marks stopped)).trans (call_marks sent)
  unfold focusTorrent
  generalize backend.handles.entries = entries
  induction entries generalizing backend with
  | nil => rfl
  | cons entry rest ih => exact (ih _).trans (one backend entry)

theorem activateTorrent_marks (backend : BackendState) (answers : Answers) (id : String) (handle : Nat) :
    (backend.activateTorrent answers id handle).1.marks = { backend.marks with
      pendingCacheUnloads := backend.pendingCacheUnloads.filter fun other => other ≠ id } := by
  unfold activateTorrent
  simp only
  split
  · rfl
  · rename_i uploading sent
    split
    · exact call_marks sent
    · rename_i resumed woken
      exact (call_marks woken).trans (call_marks sent)

theorem validHandle_of_marks (answers : Answers) (same : next.marks = backend.marks) (id : String) :
    next.validHandle answers id = backend.validHandle answers id := by
  have handles : next.handles = backend.handles := congrArg ResumeMarks.handles same
  rw [validHandle, validHandle, handles]

theorem addExisting_marks (backend : BackendState) (answers : Answers) (requestId : Nat) (id : String)
    (handle : Nat) : (backend.addExisting answers requestId id handle).1.marks = { backend.marks with
      pendingCacheUnloads := backend.pendingCacheUnloads.filter fun other => other ≠ id } := by
  have activated := activateTorrent_marks backend answers id handle
  unfold addExisting
  split
  · rename_i result
    rw [result] at activated
    exact activated
  · rename_i woken result
    rw [result] at activated
    extract_lets recorded added request
    have told : added.marks = woken.marks := by
      unfold added recorded
      rw [queue_marks]
      cases answers.userdata handle with
      | none => rfl
      | some context => exact setContext_marks woken context (fun _ => rfl) fun _ => rfl
    split
    · exact told.trans activated
    · exact told.trans activated
    · split <;> exact told.trans activated

theorem newContext_marks (backend : BackendState) (request : RequestContext)
    (kept : request.explicitlyRemoved = false) (pending : List Nat) :
    { backend with
      contexts := Function.update backend.contexts backend.nextContext request
      nextContext := backend.nextContext + 1
      pending := pending }.marks = { backend.marks with
        explicitlyRemoved := remark backend.marks.explicitlyRemoved (some backend.nextContext) false
        torrentId := Function.update backend.marks.torrentId backend.nextContext request.torrentId
        nextContext := backend.nextContext + 1 } := by
  simp only [marks, ResumeMarks.mk.injEq, and_true]
  refine ⟨?_, ?_⟩
  · funext other
    by_cases same : other = backend.nextContext
    · subst same
      simp [remark, kept]
    · simp [remark, same, Ne.symm same]
  · funext other
    by_cases same : other = backend.nextContext
    · subst same
      simp
    · simp [same]

theorem addNew_marks (backend : BackendState) (answers : Answers) (requestId : Nat) (source : TorrentSource) :
    (backend.addNew answers requestId source).1.marks = backend.marks ∨
      (backend.addNew answers requestId source).1.marks = { backend.marks with
        explicitlyRemoved := remark backend.marks.explicitlyRemoved (some backend.nextContext) false
        torrentId := Function.update backend.marks.torrentId backend.nextContext source.id
        nextContext := backend.nextContext + 1 } := by
  unfold addNew
  extract_lets loaded context
  have quiet : loaded.marks = backend.marks := by
    unfold loaded
    split <;> rfl
  have fresh : loaded.nextContext = backend.nextContext := congrArg ResumeMarks.nextContext quiet
  split
  · exact Or.inl quiet
  · split
    · exact Or.inl quiet
    · refine Or.inr ?_
      have made := newContext_marks loaded context rfl (loaded.pending ++ [loaded.nextContext])
      rw [quiet, fresh] at made
      rw [fresh]
      exact made

/-- A request brings back a torrent that is there, or a context is made for a torrent that is not. -/
theorem addTorrent_marks (backend : BackendState) (answers : Answers) (requestId : Nat)
    (parsed : Except Thrown TorrentSource) :
    (backend.addTorrent answers requestId parsed).1.marks = backend.marks ∨
    (∃ id, (backend.addTorrent answers requestId parsed).1.marks = { backend.marks with
      pendingCacheUnloads := backend.pendingCacheUnloads.filter fun other => other ≠ id }) ∨
    ∃ source, parsed = .ok source ∧ isCanonicalTorrentId source.id = true ∧
      backend.validHandle answers source.id = none ∧
      (backend.addTorrent answers requestId parsed).1.marks = { backend.marks with
        explicitlyRemoved := remark backend.marks.explicitlyRemoved (some backend.nextContext) false
        torrentId := Function.update backend.marks.torrentId backend.nextContext source.id
        nextContext := backend.nextContext + 1 } := by
  unfold addTorrent
  cases parsed with
  | error thrown => exact Or.inl rfl
  | ok source =>
      simp only
      split
      · exact Or.inl rfl
      · rename_i canonical
        have focused := focusTorrent_marks backend answers source.id
        have valid := validHandle_of_marks answers focused source.id
        generalize backend.focusTorrent answers source.id = focusing at focused valid ⊢
        cases found : focusing.validHandle answers source.id with
        | some handle =>
            refine Or.inr (Or.inl ⟨source.id, ?_⟩)
            have unloads : focusing.pendingCacheUnloads = backend.pendingCacheUnloads :=
              congrArg ResumeMarks.pendingCacheUnloads focused
            rw [addExisting_marks, focused, unloads]
        | none =>
            have fresh : focusing.nextContext = backend.nextContext := congrArg ResumeMarks.nextContext focused
            rcases addNew_marks focusing answers requestId source with same | made
            · exact Or.inl (same.trans focused)
            · refine Or.inr (Or.inr ⟨source, rfl, by simpa using canonical, valid ▸ found, ?_⟩)
              rw [made, focused, fresh]

theorem preparedEvent_marks {handle : Nat} {id : String} {prepare : PendingPrepare} {event : BackendEvent}
    (prepared : backend.preparedEvent answers handle id prepare = .ok (next, event)) :
    next.marks = backend.marks := by
  rw [preparedEvent_eq_ok prepared]
  rfl

theorem prepareActivated_marks (backend : BackendState) (answers : Answers) (requestId : Nat) (id : String)
    (handle fileIndex : Nat) (file : TorrentFileInfo) :
    (backend.prepareActivated answers requestId id handle fileIndex file).1.marks = backend.marks := by
  unfold prepareActivated
  split
  · rfl
  · split
    · rfl
    · rfl
    · split
      · rfl
      · simp only
        split
        · rfl
        · split
          · rfl
          · rename_i prepared
            exact (queue_marks _ _).trans (preparedEvent_marks prepared)
        · split
          · rfl
          · rename_i next sent
            have called := call_marks sent
            exact called

theorem prepareFile_marks (backend : BackendState) (answers : Answers) (requestId : Nat) (id : String)
    (fileIndex : Nat) (file : TorrentFileInfo) :
    (backend.prepareFile answers requestId id fileIndex file).1.marks = backend.marks ∨
    (backend.prepareFile answers requestId id fileIndex file).1.marks = { backend.marks with
      pendingCacheUnloads := backend.pendingCacheUnloads.filter fun other => other ≠ id } := by
  unfold prepareFile
  split
  · exact Or.inl rfl
  · rename_i handle _
    refine Or.inr ?_
    have focused := focusTorrent_marks backend answers id
    have unloads : (backend.focusTorrent answers id).pendingCacheUnloads = backend.pendingCacheUnloads :=
      congrArg ResumeMarks.pendingCacheUnloads focused
    have activated := activateTorrent_marks (backend.focusTorrent answers id) answers id handle
    rw [focused, unloads] at activated
    split
    · rename_i result
      rw [result] at activated
      exact activated
    · rename_i result
      rw [result] at activated
      exact (prepareActivated_marks _ answers requestId id handle fileIndex file).trans activated

theorem markRemoved_marks (backend : BackendState) (context : Option Nat) (removed : Bool) :
    (backend.markRemoved context removed).marks = { backend.marks with
      explicitlyRemoved := remark backend.marks.explicitlyRemoved context removed } := by
  cases context with
  | none =>
      have same : remark backend.marks.explicitlyRemoved none removed = backend.marks.explicitlyRemoved := by
        funext other
        simp [remark]
      rw [same]
      rfl
  | some shared =>
      simp only [markRemoved, setContext, marks, ResumeMarks.mk.injEq, and_true]
      refine ⟨?_, ?_⟩
      · funext other
        by_cases same : other = shared
        · subst same
          simp [remark]
        · simp [remark, same, Ne.symm same]
      · funext other
        by_cases same : other = shared <;> simp [same]

theorem remark_remark (removed : Nat → Bool) (context : Option Nat) (first second : Bool) :
    remark (remark removed context first) context second = remark removed context second := by
  funext query
  by_cases same : context = some query <;> simp [remark, same]

theorem forgetResumeSave_marks (backend : BackendState) (context : Option Nat) :
    (backend.forgetResumeSave context).marks = { backend.marks with
      pendingResumeSaves := backend.pendingResumeSaves.filter fun other => some other ≠ context } := rfl

/-- The resume files after one is deleted, or after this failed. -/
def leftFiles (answers : Answers) (id : String) (files : List String) : List String :=
  if answers.eraseResumeFails = none then files.filter fun other => other ≠ id else files

theorem eraseResume_marks (backend : BackendState) (answers : Answers) (id : String)
    {report : BackendState → BackendEvent → BackendState} (requestId : Nat)
    (reports : ∀ event, (report backend event).marks = backend.marks) :
    (backend.eraseResume answers id report requestId).marks = { backend.marks with
      resumeFiles := leftFiles answers id backend.marks.resumeFiles } := by
  unfold eraseResume leftFiles
  split
  · rename_i deleted
    rw [if_pos deleted]
    rfl
  · rename_i failed
    rw [reports, if_neg (by simp [failed])]

theorem removeAccepted_marks (backend : BackendState) (answers : Answers) (requestId : Nat) (id : String)
    (context : Option Nat) :
    (backend.removeAccepted answers requestId id context).marks = { backend.marks with
      pendingResumeSaves := backend.marks.pendingResumeSaves.filter fun other => some other ≠ context
      resumeFiles := leftFiles answers id backend.marks.resumeFiles } := by
  unfold removeAccepted
  extract_lets forgotten cleared erased
  have stored : erased.marks = { backend.marks with
      pendingResumeSaves := backend.marks.pendingResumeSaves.filter fun other => some other ≠ context
      resumeFiles := leftFiles answers id backend.marks.resumeFiles } := by
    unfold erased
    rw [eraseResume_marks _ answers id requestId fun _ => rfl, work_marks]
    rfl
  split
  · exact stored
  · exact stored

/-- The user's removal is refused, fails in the session, or is accepted. -/
theorem removeTorrent_marks (backend : BackendState) (answers : Answers) (requestId : Nat) (id : String) :
    ((backend.removeTorrent answers requestId id).2 ≠ none ∧
      (backend.removeTorrent answers requestId id).1.marks = backend.marks) ∨
    ∃ handle, backend.handles.lookup id = some handle ∧ answers.lt.isValid handle = true ∧
      backend.pendingRemovals.lookup id = none ∧
      (((backend.removeTorrent answers requestId id).2 ≠ none ∧ id ∉ backend.pendingCacheRemovals ∧
        answers.removeFails ≠ none ∧
        (backend.removeTorrent answers requestId id).1.marks = { backend.marks with
          explicitlyRemoved := remark backend.marks.explicitlyRemoved (answers.userdata handle) false
          pendingCacheUnloads := backend.pendingCacheUnloads.filter fun other => other ≠ id
          pendingCacheRemovals := backend.pendingCacheRemovals.filter fun other => other ≠ id }) ∨
      ((backend.removeTorrent answers requestId id).2 = none ∧
        (backend.removeTorrent answers requestId id).1.marks = { backend.marks with
          explicitlyRemoved := remark backend.marks.explicitlyRemoved (answers.userdata handle) true
          pendingCacheUnloads := backend.pendingCacheUnloads.filter fun other => other ≠ id
          pendingCacheRemovals := backend.pendingCacheRemovals.filter fun other => other ≠ id
          pendingRemovals := backend.pendingRemovals.insert id requestId
          pendingResumeSaves := backend.pendingResumeSaves.filter fun other =>
            some other ≠ answers.userdata handle
          resumeFiles := leftFiles answers id backend.marks.resumeFiles })) := by
  unfold removeTorrent
  cases found : backend.validHandle answers id with
  | none => exact Or.inl ⟨by simp, rfl⟩
  | some handle =>
      obtain ⟨known, valid⟩ := validHandle_eq_some found
      dsimp -zeta only
      split
      · exact Or.inl ⟨by simp, rfl⟩
      · rename_i unremoved
        have free : backend.pendingRemovals.lookup id = none := by simpa using unremoved
        refine Or.inr ⟨handle, known, valid, free, ?_⟩
        extract_lets context cacheRemovalPending marked dropped noted
        have marking : marked.marks = { backend.marks with
            explicitlyRemoved := remark backend.marks.explicitlyRemoved context true } :=
          markRemoved_marks backend context true
        have left : dropped.marks = { backend.marks with
            explicitlyRemoved := remark backend.marks.explicitlyRemoved context true
            pendingCacheUnloads := backend.pendingCacheUnloads.filter fun other => other ≠ id
            pendingCacheRemovals := backend.pendingCacheRemovals.filter fun other => other ≠ id } := by
          have whole : dropped.marks = { marked.marks with
            pendingCacheUnloads := marked.marks.pendingCacheUnloads.filter fun other => other ≠ id
            pendingCacheRemovals := marked.marks.pendingCacheRemovals.filter fun other => other ≠ id } := rfl
          rw [whole, marking]
          rfl
        split
        · rename_i what failed
          refine Or.inl ⟨by simp, ?_, ?_, ?_⟩
          · intro cached
            simp [cacheRemovalPending, cached] at failed
          · intro accepted
            simp [accepted] at failed
          · rw [markRemoved_marks, left]
            simp only [remark_remark, context]
            rfl
        · have whole : noted.marks = { dropped.marks with
              pendingRemovals := dropped.marks.pendingRemovals.insert id requestId } := rfl
          refine Or.inr ⟨rfl, ?_⟩
          rw [removeAccepted_marks, whole, left]
          rfl

theorem adopt_marks (backend : BackendState) (answers : Answers) (id : String) (handle : Nat)
    (context : Option Nat) : ∃ ids, (backend.adopt answers id handle context).marks = { backend.marks with
      torrentId := ids } ∧ (ids = backend.marks.torrentId ∨ ∃ shared, context = some shared ∧
        ids = Function.update backend.marks.torrentId shared id) := by
  cases context with
  | none => exact ⟨_, rfl, Or.inl rfl⟩
  | some shared =>
      refine ⟨Function.update backend.marks.torrentId shared id, ?_, Or.inr ⟨shared, rfl, rfl⟩⟩
      have named : (backend.setContext shared fun request => { request with torrentId := id }).marks =
          { backend.marks with torrentId := Function.update backend.marks.torrentId shared id } := by
        simp only [setContext, marks, ResumeMarks.mk.injEq, and_true]
        refine ⟨?_, ?_⟩
        · funext other
          by_cases same : other = shared <;> simp [same]
        · funext other
          by_cases same : other = shared
          · subst same
            simp
          · simp [same]
      unfold adopt
      simp only
      split
      · rw [dropPending_marks, ← named]
        exact retire_marks _ id
      · exact named

theorem emitMetadata_marks (backend : BackendState) (answers : Answers) (handle : Nat)
    (context : Option Nat) (source : MetadataSource) :
    (backend.emitMetadata answers handle context source).1.marks = backend.marks := by
  unfold emitMetadata
  extract_lets marked
  have quiet : marked.marks = backend.marks := by
    unfold marked
    cases context with
    | none => rfl
    | some shared => exact setContext_marks backend shared (fun _ => rfl) fun _ => rfl
  split
  · exact quiet
  · exact quiet

/-- A save is asked of a torrent that no one removed, or nothing is asked. -/
def AsksSave (answers : Answers) (before after : ResumeMarks) : Prop :=
  after = before ∨ ∃ handle context, answers.userdata handle = some context ∧
    before.explicitlyRemoved context = false ∧ context ∉ before.pendingResumeSaves ∧
    after = { before with pendingResumeSaves := before.pendingResumeSaves.insert context }

theorem announce_asks (backend : BackendState) (answers : Answers) (handle : Nat) (context : Option Nat) :
    AsksSave answers backend.marks (backend.announce answers handle context).1.marks := by
  unfold announce
  split
  · exact Or.inl rfl
  · exact Or.inl rfl
  · exact Or.inl rfl
  · rename_i shared _
    split
    · exact Or.inl rfl
    · have told := emitMetadata_marks backend answers handle (some shared)
        (backend.contexts shared).metadataSource
      simp only
      split
      · rename_i result
        rw [result] at told
        exact Or.inl told
      · rename_i current result
        rw [result] at told
        simp only
        split
        · exact Or.inl told
        · have saves : current.pendingResumeSaves = backend.pendingResumeSaves :=
            congrArg ResumeMarks.pendingResumeSaves told
          rcases requestResumeSave_cases current answers handle with same | ⟨asked, seen, kept, idle, same⟩
          · exact Or.inl (same.trans told)
          · rw [told] at kept same
            rw [saves] at idle same
            exact Or.inr ⟨handle, asked, seen, kept, idle, same⟩

theorem handleAdded_asks (backend : BackendState) (answers : Answers) (context : Option Nat) (handle : Nat) :
    ∃ ids, AsksSave answers { backend.marks with
        handles := backend.handles.insert (answers.torrentId handle) handle
        torrentId := ids } (backend.handleAdded answers context handle none).1.marks ∧
      (ids = backend.marks.torrentId ∨ ∃ shared, context = some shared ∧
        ids = Function.update backend.marks.torrentId shared (answers.torrentId handle)) := by
  unfold handleAdded
  extract_lets before requestId id known
  simp only
  split
  · exact ⟨_, Or.inl rfl, Or.inl rfl⟩
  · rename_i announced result
    obtain rfl := announceAdded_eq_ok result
    obtain ⟨ids, adopted, named⟩ := adopt_marks known answers id handle context
    generalize known.adopt answers id handle context = adopting at adopted ⊢
    have asked := announce_asks (adopting.emit { type := .torrentAdded, requestId := requestId, torrentId := id })
      answers handle context
    rw [emit_marks, adopted] at asked
    refine ⟨ids, ?_, named⟩
    split
    · rename_i result
      rw [result] at asked
      exact asked
    · rename_i result
      rw [result] at asked
      exact asked

theorem handleMetadata_asks (backend : BackendState) (answers : Answers) (handle : Nat) :
    Asks answers backend.marks (backend.handleMetadata answers handle).1.marks := by
  have told := emitMetadata_marks backend answers handle (answers.userdata handle) .cold
  unfold handleMetadata
  simp only
  split
  · exact .refl answers _
  · split
    · rename_i result
      rw [result] at told
      exact .ofEq told
    · rename_i result
      rw [result] at told
      exact .cast told (requestResumeSave_asks _ answers handle)

theorem finishPrepare_asks (backend : BackendState) (answers : Answers) (handle : Nat) (id : String)
    (prepare : PendingPrepare) :
    Asks answers backend.marks (backend.finishPrepare answers handle id prepare).1.marks := by
  unfold finishPrepare
  split
  · exact .refl answers _
  · rename_i downloading sent
    split
    · exact .ofEq (call_marks sent)
    · rename_i registered event prepared
      have same : (registered.emit event).marks = backend.marks :=
        (preparedEvent_marks prepared).trans (call_marks sent)
      exact .cast same (requestResumeSave_asks _ answers handle)

theorem handleFilePriority_asks (backend : BackendState) (answers : Answers) (handle : Nat)
    (error : Option String) :
    Asks answers backend.marks (backend.handleFilePriority answers handle error).1.marks := by
  unfold handleFilePriority
  extract_lets id
  split
  · exact .refl answers _
  · rename_i prepare _
    cases error with
    | some message => exact .ofEq rfl
    | none =>
        have finished := finishPrepare_asks backend answers handle id prepare
        simp only
        split
        · rename_i result
          rw [result] at finished
          exact finished
        · rename_i result
          rw [result] at finished
          exact finished
        · rename_i result
          rw [result] at finished
          exact finished

theorem handleFileError_marks (backend : BackendState) (answers : Answers) (handle : Nat)
    (message : String) : (backend.handleFileError answers handle message).marks = backend.marks := by
  unfold handleFileError
  extract_lets id
  split <;> rfl

theorem cool_marks (backend : BackendState) (answers : Answers) (id : String) :
    (backend.cool answers id).marks = backend.marks := by
  unfold cool
  extract_lets warm
  have marked : warm.marks = backend.marks := markWarm_marks backend answers.lt.now id
  split
  · exact marked
  · split
    · exact marked
    · unfold callQuietly
      split
      · exact marked
      · rename_i sent
        exact (call_marks sent).trans marked

theorem stopStream_marks (backend : BackendState) (answers : Answers) (requestId : Nat) (streamId : String) :
    (backend.stopStream answers requestId streamId).marks = backend.marks := by
  unfold stopStream
  extract_lets id stopped cooled
  rw [queue_marks]
  unfold cooled
  split
  · rfl
  · exact cool_marks stopped answers id

theorem pollStreams_marks (backend : BackendState) (answers : Answers) (polled : PollAnswers) :
    (backend.pollStreams answers polled).1.marks = backend.marks := by
  unfold pollStreams
  extract_lets bridged expired
  split
  · rfl
  · have each : ∀ (streams : List StoppedStream) (current : BackendState),
        (streams.foldl (expireStream answers) current).marks = current.marks := by
      intro streams
      induction streams with
      | nil => exact fun _ => rfl
      | cons stream rest ih =>
          intro current
          exact (ih _).trans (cool_marks current answers stream.torrentId)
    exact each expired _

theorem reclaimDiskCache_marks (backend : BackendState) (requestId targetBytes : Nat) :
    (backend.reclaimDiskCache requestId targetBytes).1.marks = backend.marks := by
  unfold reclaimDiskCache
  split <;> rfl

theorem handleRemoved_asks (backend : BackendState) (answers : Answers) (context : Option Nat)
    (hashId : String) :
    Asks answers { backend.marks with
        handles := backend.handles.erase (backend.idOf context hashId)
        pendingRemovals := backend.pendingRemovals.erase (backend.idOf context hashId)
        pendingResumeSaves := backend.pendingResumeSaves.filter fun other => some other ≠ context
        pendingCacheUnloads := backend.pendingCacheUnloads.filter fun other =>
          other ≠ backend.idOf context hashId
        pendingCacheRemovals := backend.pendingCacheRemovals.filter fun other =>
          other ≠ backend.idOf context hashId
        resumeFiles :=
          if backend.idOf context hashId ∈ backend.pendingCacheRemovals then backend.resumeFiles
          else leftFiles answers (backend.idOf context hashId) backend.resumeFiles }
      (backend.handleRemoved answers context hashId).marks := by
  unfold handleRemoved
  extract_lets _ id requestId cacheRemoval told forgotten unprepared erased retired
  have cleaned : unprepared.marks = { backend.marks with
      handles := backend.handles.erase id
      pendingRemovals := backend.pendingRemovals.erase id
      pendingResumeSaves := backend.pendingResumeSaves.filter fun other => some other ≠ context
      pendingCacheUnloads := backend.pendingCacheUnloads.filter fun other => other ≠ id
      pendingCacheRemovals := backend.pendingCacheRemovals.filter fun other => other ≠ id } := by
    unfold unprepared
    rw [forgetResumeSave_marks, dropPrepare_marks, work_marks]
    rfl
  have stored : erased.marks = { unprepared.marks with
      resumeFiles :=
        if id ∈ backend.pendingCacheRemovals then backend.resumeFiles
        else leftFiles answers id backend.resumeFiles } := by
    unfold erased
    split
    · rw [cleaned]
      rfl
    · rw [eraseResume_marks _ answers id requestId fun _ => rfl, cleaned]
      rfl
  have left : retired.marks = erased.marks := retire_marks erased id
  rw [stored, cleaned] at left
  refine .cast left ?_
  split
  · exact .ofEq rfl
  · exact enforceDiskCache_asks retired answers

/-- A failure to delete the resume file of a removed torrent is told. -/
theorem handleRemoved_reports (backend : BackendState) {answers : Answers} {context : Option Nat}
    {hashId what : String} (uncached : backend.idOf context hashId ∉ backend.pendingCacheRemovals)
    (failed : answers.eraseResumeFails = some what) :
    ∃ event ∈ (backend.handleRemoved answers context hashId).events ++
        (backend.handleRemoved answers context hashId).queuedEvents,
      event.type = .torrentError ∧ event.torrentId = backend.idOf context hashId ∧
        event.message = "failed to remove persisted torrent state: " ++ what := by
  unfold handleRemoved
  extract_lets id requestId cacheRemoval told forgotten unprepared erased retired
  have reported : erased = unprepared.emit {
      type := .torrentError
      requestId := requestId
      torrentId := id
      message := "failed to remove persisted torrent state: " ++ what } := by
    unfold erased eraseResume
    rw [if_neg uncached, failed]
  have told : ∃ event ∈ retired.events ++ retired.queuedEvents, event.type = .torrentError ∧
      event.torrentId = id ∧ event.message = "failed to remove persisted torrent state: " ++ what := by
    have kept : retired.events = erased.events := by
      unfold retired retire
      split <;> rfl
    rw [kept, reported]
    exact ⟨_, List.mem_append_left _ (List.mem_append_right _ (List.mem_singleton_self _)), rfl, rfl, rfl⟩
  split
  · exact told
  · obtain ⟨event, member, rest⟩ := told
    exact ⟨event, (enforceDiskCache_incidental retired answers).told event member, rest⟩

/-- A torrent that was chosen is taken out, or is not chosen any more. -/
def Resolves (answers : Answers) (id : String) (handle : Nat) (before after : ResumeMarks) : Prop :=
  after = before ∨ (id ∈ before.pendingCacheUnloads ∧ ∃ removals,
    after = { before with
      pendingCacheUnloads := before.pendingCacheUnloads.filter fun other => other ≠ id
      pendingCacheRemovals := removals } ∧
    (removals = before.pendingCacheRemovals ∨
      removals = (before.pendingCacheRemovals.filter fun other => other ≠ id) ∨
      (answers.lt.isValid handle = true ∧ removals = before.pendingCacheRemovals.insert id)))

theorem beginCacheUnload_resolves (backend : BackendState) (answers : Answers) (id : String)
    (handle : Nat) :
    Resolves answers id handle backend.marks (backend.beginCacheUnload answers id handle).marks :=
  (beginCacheUnload_cases backend answers id handle).imp And.right fun unloaded => unloaded

theorem handleResumeSaved_marks (backend : BackendState) (answers : Answers) (handle : Nat) :
    ∃ files, (files = backend.resumeFiles ∨
        (files = backend.resumeFiles.insert (backend.idOf (answers.userdata handle) (answers.torrentId handle)) ∧
          isCanonicalTorrentId (backend.idOf (answers.userdata handle) (answers.torrentId handle)) = true ∧
          ∀ shared, answers.userdata handle = some shared →
            backend.marks.explicitlyRemoved shared = false)) ∧
      Resolves answers (backend.idOf (answers.userdata handle) (answers.torrentId handle)) handle
        { backend.marks with
          pendingResumeSaves := backend.pendingResumeSaves.filter fun other =>
            some other ≠ answers.userdata handle
          resumeFiles := files } (backend.handleResumeSaved answers handle).marks := by
  unfold handleResumeSaved
  extract_lets _ context forgotten id stored
  split
  · exact ⟨_, Or.inl rfl, Or.inl rfl⟩
  · rename_i kept
    split
    · exact ⟨_, Or.inl rfl, Or.inl rfl⟩
    · rename_i canonical
      have resolved := beginCacheUnload_resolves stored answers id handle
      cases written : answers.writeResumeFails with
      | some message =>
          have same : stored.marks = forgotten.marks := by
            unfold stored
            rw [written]
            rfl
          rw [same] at resolved
          exact ⟨_, Or.inl rfl, resolved⟩
      | none =>
          have same : stored.marks = { forgotten.marks with
              resumeFiles := backend.resumeFiles.insert id } := by
            unfold stored
            rw [written]
            rfl
          rw [same] at resolved
          refine ⟨_, Or.inr ⟨rfl, ?_, ?_⟩, resolved⟩
          · exact (Bool.not_eq_false _).mp fun wrong => canonical ((Bool.not_eq_true' _).mpr wrong)
          · intro shared seen
            simpa [context, seen, forgotten, marks, forgetResumeSave] using kept

theorem handleResumeSaveFailed_marks (backend : BackendState) (answers : Answers) (handle : Nat)
    (notModified : Bool) (message : String) :
    Resolves answers (backend.idOf (answers.userdata handle) (answers.torrentId handle)) handle
      { backend.marks with
        pendingResumeSaves := backend.pendingResumeSaves.filter fun other =>
          some other ≠ answers.userdata handle }
      (backend.handleResumeSaveFailed answers handle notModified message).marks := by
  unfold handleResumeSaveFailed
  extract_lets _ context forgotten id
  split
  · exact Or.inl rfl
  · split
    · exact beginCacheUnload_resolves forgotten answers id handle
    · split
      · exact Or.inl rfl
      · exact Or.inl rfl

theorem saveAll_asks (backend : BackendState) (answers : Answers) :
    Asks answers backend.marks (backend.saveAll answers).marks :=
  saveEach_asks answers _ backend

theorem collect_marks (backend : BackendState) (outcome : BackendState.Outcome) :
    (({ backend := backend } : Host).collect outcome).backend.marks = outcome.1.marks := by
  obtain ⟨last, thrown⟩ := outcome
  cases thrown <;> rfl

theorem after_addTorrent (backend : BackendState) (answers : Answers) (requestId : Nat)
    (parsed : Except Thrown TorrentSource) :
    backend.after (.addTorrent answers requestId parsed) =
      (backend.addTorrent answers requestId parsed).1 :=
  Host.accept_backend ..

theorem after_prepareFile (backend : BackendState) (answers : Answers) (requestId : Nat) (id : String)
    (fileIndex : Nat) (file : TorrentFileInfo) :
    backend.after (.prepareFile answers requestId id fileIndex file) =
      (backend.prepareFile answers requestId id fileIndex file).1 :=
  Host.command_backend ..

theorem after_removeTorrent (backend : BackendState) (answers : Answers) (requestId : Nat) (id : String) :
    backend.after (.removeTorrent answers requestId id) =
      (backend.removeTorrent answers requestId id).1 :=
  Host.command_backend ..

/-- What the backend does on its own, apart from three commands, asks for saves and unloads at most. -/
theorem after_asks (backend : BackendState) {action : HostAction} (own : action.isOwn = true)
    (notAdd : ∀ answers requestId parsed, action ≠ .addTorrent answers requestId parsed)
    (notPrepare : ∀ answers requestId id fileIndex file,
      action ≠ .prepareFile answers requestId id fileIndex file)
    (notRemove : ∀ answers requestId id, action ≠ .removeTorrent answers requestId id) :
    (backend.after action).marks = backend.marks ∨
      ∃ answers, action.answers = some answers ∧ Asks answers backend.marks (backend.after action).marks := by
  cases action with
  | addTorrent answers requestId parsed => exact absurd rfl (notAdd answers requestId parsed)
  | prepareFile answers requestId id fileIndex file =>
      exact absurd rfl (notPrepare answers requestId id fileIndex file)
  | removeTorrent answers requestId id => exact absurd rfl (notRemove answers requestId id)
  | stopStream answers requestId streamId =>
      exact Or.inl (stopStream_marks backend answers requestId streamId)
  | pollStreams answers polled => exact Or.inl (pollStreams_marks backend answers polled)
  | takeQueued => exact Or.inl rfl
  | alert answers received =>
      cases received with
      | added | torrentRemoved | resumeSaved | resumeSaveFailed => simp [HostAction.isOwn] at own
      | metadataReceived handle =>
          exact Or.inr ⟨answers, rfl, (handleMetadata_asks backend answers handle).trans
            (.ofEq (collect_marks _ _))⟩
      | torrentError handle message => exact Or.inl rfl
      | fileError handle message => exact Or.inl (handleFileError_marks backend answers handle message)
      | filePriority handle error =>
          exact Or.inr ⟨answers, rfl, (handleFilePriority_asks backend answers handle error).trans
            (.ofEq (collect_marks _ _))⟩
      | torrentFinished handle => exact Or.inr ⟨answers, rfl, requestResumeSave_asks backend answers handle⟩
      | readPiece | blockFinished | hashFailed => exact Or.inl rfl
      | dhtBootstrap =>
          exact Or.inl ((collect_marks _ _).trans (announceEach_marks answers .forceDhtAnnounce _ _))
  | periodic answers =>
      exact Or.inr ⟨answers, rfl, (runPeriodicSteps_asks backend answers).trans (.ofEq (collect_marks _ _))⟩
  | reclaimDiskCache requestId targetBytes =>
      have same := reclaimDiskCache_marks backend requestId targetBytes
      exact Or.inl (by simpa [after, Host.perform] using same)
  | create | learnMetadata | lose => simp [HostAction.isOwn] at own
  | http action => exact Or.inl rfl

end BackendState

end NuvioEngine.Backend
