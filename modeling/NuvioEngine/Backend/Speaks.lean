import NuvioEngine.Backend.Tells

/-!
What the commands tell. Their events are queued and are for the request of the command or for requests
that the backend knows; torrents that are told as added or prepared are the ones the command is about.
-/

namespace NuvioEngine.Backend

open NuvioEngine.Bridge NuvioEngine.Stream NuvioEngine.Cache BridgeState BackendState

/-- An event for a request that the backend knows or for the given one; it acknowledges only the given
torrents. -/
def Utters (requestId : Nat) (ids : List String) (backend : BackendState) (event : BackendEvent) : Prop :=
  (Voice backend event.requestId ∨ event.requestId = requestId) ∧
    (acknowledges event = true → event.torrentId ∈ ids)

structure Speaks (requestId : Nat) (ids : List String) (before after : BackendState) : Prop where
  emitted : ∃ more, after.events = before.events ++ more ∧
    ∀ event ∈ more, Utters requestId ids before event
  queued : ∃ more, after.queuedEvents = before.queuedEvents ++ more ∧
    ∀ event ∈ more, Utters requestId ids before event
  voices : ∀ other, Voice after other → Voice before other ∨ other = requestId
  prepares : after.pendingPrepares = before.pendingPrepares
  handles : after.handles = before.handles

namespace Speaks

variable {requestId : Nat} {ids : List String} {first second third : BackendState}

theorem utters (speaks : Speaks requestId ids first second) {event : BackendEvent}
    (utters : Utters requestId ids second event) : Utters requestId ids first event :=
  ⟨utters.1.elim (speaks.voices _) Or.inr, utters.2⟩

theorem trans (left : Speaks requestId ids first second) (right : Speaks requestId ids second third) :
    Speaks requestId ids first third := by
  have appends : ∀ {more rest : List BackendEvent}, (∀ event ∈ more, Utters requestId ids first event) →
      (∀ event ∈ rest, Utters requestId ids second event) →
      ∀ event ∈ more ++ rest, Utters requestId ids first event := by
    intro more rest said heard event member
    rcases List.mem_append.mp member with old | new
    · exact said event old
    · exact left.utters (heard event new)
  obtain ⟨more, appended, said⟩ := left.emitted
  obtain ⟨rest, followed, heard⟩ := right.emitted
  obtain ⟨waiting, queues, waits⟩ := left.queued
  obtain ⟨further, joins, joined⟩ := right.queued
  refine ⟨⟨more ++ rest, by rw [followed, appended, List.append_assoc], appends said heard⟩,
    ⟨waiting ++ further, by rw [joins, queues, List.append_assoc], appends waits joined⟩, ?_,
    right.prepares.trans left.prepares, right.handles.trans left.handles⟩
  intro other voice
  exact (right.voices other voice).elim (left.voices other) Or.inr

theorem ofTells (tells : Tells first second) : Speaks requestId ids first second := by
  obtain ⟨more, appended, voiced⟩ := tells.events
  refine ⟨⟨more, appended, ?_⟩, ⟨[], by rw [tells.queued, List.append_nil], by simp⟩,
    fun other voice => Or.inl (tells.voices other voice), tells.prepares, tells.handles⟩
  intro event member
  obtain ⟨voice, plain⟩ := voiced event member
  exact ⟨Or.inl voice, fun acknowledged => absurd (plain.symm.trans acknowledged) (by simp)⟩

theorem emit (backend : BackendState) (event : BackendEvent) (utters : Utters requestId ids backend event) :
    Speaks requestId ids backend (backend.emit event) :=
  ⟨⟨[event], rfl, by simpa using utters⟩, ⟨[], (List.append_nil _).symm, by simp⟩,
    fun _ voice => Or.inl voice, rfl, rfl⟩

theorem queue (backend : BackendState) (event : BackendEvent) (utters : Utters requestId ids backend event) :
    Speaks requestId ids backend (backend.queue event) :=
  ⟨⟨[], (List.append_nil _).symm, by simp⟩, ⟨[event], rfl, by simpa using utters⟩,
    fun _ voice => Or.inl voice, rfl, rfl⟩

theorem silent (events : second.events = first.events) (queued : second.queuedEvents = first.queuedEvents)
    (voices : ∀ other, Voice second other → Voice first other ∨ other = requestId)
    (prepares : second.pendingPrepares = first.pendingPrepares)
    (handles : second.handles = first.handles) : Speaks requestId ids first second :=
  ⟨⟨[], by simp [events], by simp⟩, ⟨[], by simp [queued], by simp⟩, voices, prepares, handles⟩

theorem setContext (backend : BackendState) (context : Nat) {change : RequestContext → RequestContext}
    (own : ∀ request, (change request).requestId = requestId) :
    Speaks requestId ids backend (backend.setContext context change) := by
  refine silent rfl rfl ?_ rfl rfl
  rintro other (zero | ⟨shared, same⟩ | removal | reclaim)
  · exact Or.inl (Or.inl zero)
  · simp only [BackendState.setContext, Function.update_apply] at same
    split at same
    · exact Or.inr (same.symm.trans (own _))
    · exact Or.inl (Or.inr (Or.inl ⟨shared, same⟩))
  · exact Or.inl (Or.inr (Or.inr (Or.inl removal)))
  · exact Or.inl (Or.inr (Or.inr (Or.inr reclaim)))

theorem insertRemoval (backend : BackendState) (id : String) : Speaks requestId ids backend
    { backend with pendingRemovals := backend.pendingRemovals.insert id requestId } := by
  refine silent rfl rfl ?_ rfl rfl
  rintro other (zero | context | ⟨query, found⟩ | reclaim)
  · exact Or.inl (Or.inl zero)
  · exact Or.inl (Or.inr (Or.inl context))
  · simp only [AList.lookup_insert_ite] at found
    split at found
    · exact Or.inr (Option.some.inj found).symm
    · exact Or.inl (Or.inr (Or.inr (Or.inl ⟨query, found⟩)))
  · exact Or.inl (Or.inr (Or.inr (Or.inr reclaim)))

end Speaks

theorem own_utters {requestId : Nat} {ids : List String} {backend : BackendState} {event : BackendEvent}
    (own : event.requestId = requestId) (plain : acknowledges event = false) :
    Utters requestId ids backend event :=
  ⟨Or.inr own, fun acknowledged => absurd (plain.symm.trans acknowledged) (by simp)⟩

namespace BackendState

variable {requestId : Nat} {ids : List String} {backend next : BackendState}

theorem addExisting_speaks (backend : BackendState) (answers : Answers) (requestId : Nat) (id : String)
    (handle : Nat) :
    Speaks requestId [id] backend (backend.addExisting answers requestId id handle).1 := by
  have activates := activateTorrent_tells backend answers id handle
  unfold addExisting
  split
  · rename_i result
    rw [result] at activates
    exact .ofTells activates
  · rename_i activated result
    rw [result] at activates
    extract_lets recorded added request
    have noted : Speaks requestId [id] activated recorded := by
      unfold recorded
      split
      · exact .ofTells (.refl activated)
      · exact .setContext activated _ fun _ => rfl
    have spoken : Speaks requestId [id] backend added :=
      ((Speaks.ofTells activates).trans noted).trans
        (.queue _ _ ⟨Or.inr rfl, fun _ => List.mem_singleton_self id⟩)
    split
    · exact spoken
    · exact spoken
    · split
      · exact spoken
      · rename_i built
        exact spoken.trans
          (.queue _ _ (own_utters (metadataEvent_requestId built) (metadataEvent_plain built)))

theorem addNew_speaks (backend : BackendState) (answers : Answers) (requestId : Nat)
    (source : TorrentSource) :
    Speaks requestId ids backend (backend.addNew answers requestId source).1 := by
  have made : ∀ ready : BackendState, Speaks requestId ids ready { ready with
      contexts := Function.update ready.contexts ready.nextContext {
        requestId := requestId
        torrentId := source.id
        metadataSource := metadataSourceFor source (answers.resumeState.toOption.getD none)
        metadataStartedAt := answers.lt.now }
      nextContext := ready.nextContext + 1
      pending := ready.pending ++ [ready.nextContext] } := by
    intro ready
    have noted : Speaks requestId ids ready (ready.setContext ready.nextContext fun _ => {
        requestId := requestId
        torrentId := source.id
        metadataSource := metadataSourceFor source (answers.resumeState.toOption.getD none)
        metadataStartedAt := answers.lt.now }) := .setContext ready _ fun _ => rfl
    exact noted.trans (.ofTells (.quiet rfl))
  unfold addNew
  extract_lets loaded context
  have spoken : Speaks requestId ids backend loaded := by
    unfold loaded
    split
    · exact .ofTells (.refl backend)
    · exact .queue backend _ ⟨Or.inl (Or.inl rfl), by simp [acknowledges]⟩
  split
  · exact spoken
  · split
    · exact spoken
    · exact spoken.trans (made loaded)

theorem addTorrent_speaks (backend : BackendState) (answers : Answers) (requestId : Nat)
    (parsed : Except Thrown TorrentSource) :
    ∃ ids, Speaks requestId ids backend (backend.addTorrent answers requestId parsed).1 := by
  unfold addTorrent
  split
  · exact ⟨[], .ofTells (.refl backend)⟩
  · rename_i source
    split
    · exact ⟨[], .ofTells (.refl backend)⟩
    · have focused := focusTorrent_tells backend answers source.id
      simp only
      split
      · exact ⟨_, (Speaks.ofTells focused).trans (addExisting_speaks _ answers requestId source.id _)⟩
      · exact ⟨[], (Speaks.ofTells focused).trans (addNew_speaks _ answers requestId source)⟩

theorem stopStream_speaks (backend : BackendState) (answers : Answers) (requestId : Nat)
    (streamId : String) :
    Speaks requestId [] backend (backend.stopStream answers requestId streamId) := by
  have stopped : Tells backend (backend.work (.stop answers.lt streamId)) := .quiet rfl
  unfold stopStream
  simp only
  split
  · exact (Speaks.ofTells stopped).trans (.queue _ _ (own_utters rfl rfl))
  · exact (Speaks.ofTells (stopped.trans (cool_tells _ answers _))).trans
      (.queue _ _ (own_utters rfl rfl))

theorem reclaimDiskCache_speaks (backend : BackendState) (requestId targetBytes : Nat) :
    Speaks requestId [] backend (backend.reclaimDiskCache requestId targetBytes).1 := by
  unfold reclaimDiskCache
  split
  · exact .ofTells (.refl backend)
  · refine .silent rfl rfl ?_ rfl rfl
    rintro other (zero | context | removal | ⟨request, member, same⟩)
    · exact Or.inl (Or.inl zero)
    · exact Or.inl (Or.inr (Or.inl context))
    · exact Or.inl (Or.inr (Or.inr (Or.inl removal)))
    · rcases List.mem_append.mp member with old | new
      · exact Or.inl (Or.inr (Or.inr (Or.inr ⟨request, old, same⟩)))
      · rw [List.mem_singleton.mp new] at same
        exact Or.inr same.symm

theorem pollStreams_speaks (backend : BackendState) (answers : Answers) (polled : PollAnswers) :
    Speaks 0 [] backend (backend.pollStreams answers polled).1 := by
  have expires : ∀ (streams : List StoppedStream) (current : BackendState),
      Speaks 0 [] current (streams.foldl (expireStream answers) current) := by
    intro streams
    induction streams with
    | nil => exact fun current => .ofTells (.refl current)
    | cons stream rest ih =>
        intro current
        have cooled : Speaks 0 [] current (expireStream answers current stream) :=
          (Speaks.ofTells (cool_tells current answers stream.torrentId)).trans
            (.queue _ _ (own_utters rfl rfl))
        exact cooled.trans (ih _)
  have polls : Tells backend (backend.work (.poll polled)) := .quiet rfl
  have popped : Tells backend ((backend.work (.poll polled)).work .popExpired) := .quiet rfl
  unfold pollStreams
  simp only
  split
  · exact .ofTells polls
  · exact (Speaks.ofTells popped).trans (expires _ _)

theorem markRemoved_tells (backend : BackendState) (context : Option Nat) (removed : Bool) :
    Tells backend (backend.markRemoved context removed) := by
  unfold markRemoved
  split
  · exact .refl backend
  · exact setContext_tells backend _ fun _ => rfl

theorem removeAccepted_cases (backend : BackendState) (answers : Answers) (requestId : Nat) (id : String)
    (context : Option Nat) :
    Speaks requestId [] backend (backend.removeAccepted answers requestId id context) ∨
      ∃ prepare middle event, backend.pendingPrepares.lookup id = some prepare ∧
        Speaks requestId [] backend middle ∧ event.type = .torrentError ∧
        event.requestId = prepare.requestId ∧
        backend.removeAccepted answers requestId id context = (middle.dropPrepare id).queue event := by
  have cleared : Tells backend ({ backend.forgetResumeSave context with
      warmSince := (backend.forgetResumeSave context).warmSince.erase id
      quiescedTorrents := (backend.forgetResumeSave context).quiescedTorrents.filter fun other =>
        other ≠ id }.work (.remove answers.lt id)) := .quiet rfl
  have erased : ∀ {current : BackendState}, Tells backend current →
      Speaks requestId [] backend (current.eraseResume answers id BackendState.queue requestId) := by
    intro current told
    unfold eraseResume
    split
    · exact .ofTells (told.trans (.quiet rfl))
    · exact (Speaks.ofTells told).trans (.queue _ _ (own_utters rfl rfl))
  unfold removeAccepted
  simp only
  split
  · exact Or.inl (erased cleared)
  · rename_i prepare found
    rw [(erased cleared).prepares] at found
    exact Or.inr ⟨prepare, _, _, found, erased cleared, rfl, rfl, rfl⟩

theorem removeTorrent_cases (backend : BackendState) (answers : Answers) (requestId : Nat) (id : String) :
    Speaks requestId [] backend (backend.removeTorrent answers requestId id).1 ∨
      ∃ prepare middle event, backend.pendingPrepares.lookup id = some prepare ∧
        Speaks requestId [] backend middle ∧ event.type = .torrentError ∧
        event.requestId = prepare.requestId ∧
        backend.removeTorrent answers requestId id = ((middle.dropPrepare id).queue event, none) := by
  unfold removeTorrent
  split
  · exact Or.inl (.ofTells (.refl backend))
  · rename_i handle _
    split
    · exact Or.inl (.ofTells (.refl backend))
    · simp only
      have marked := markRemoved_tells backend (answers.userdata handle) true
      generalize backend.markRemoved (answers.userdata handle) true = noted at marked
      have dropped : Tells backend { noted with
          pendingCacheUnloads := noted.pendingCacheUnloads.filter fun other => other ≠ id
          pendingCacheRemovals := noted.pendingCacheRemovals.filter fun other => other ≠ id } :=
        marked.trans (.quiet rfl)
      have submitted : Speaks requestId [] backend { noted with
          pendingCacheUnloads := noted.pendingCacheUnloads.filter fun other => other ≠ id
          pendingCacheRemovals := noted.pendingCacheRemovals.filter fun other => other ≠ id
          pendingRemovals := noted.pendingRemovals.insert id requestId } :=
        (Speaks.ofTells dropped).trans (.insertRemoval _ id)
      split
      · exact Or.inl (.ofTells (dropped.trans (markRemoved_tells _ _ false)))
      · rcases removeAccepted_cases { noted with
            pendingCacheUnloads := noted.pendingCacheUnloads.filter fun other => other ≠ id
            pendingCacheRemovals := noted.pendingCacheRemovals.filter fun other => other ≠ id
            pendingRemovals := noted.pendingRemovals.insert id requestId } answers requestId id
            (answers.userdata handle) with speaks | ⟨prepare, middle, event, found, speaks, kind, own, same⟩
        · exact Or.inl (submitted.trans speaks)
        · rw [submitted.prepares] at found
          exact Or.inr ⟨prepare, middle, event, found, submitted.trans speaks, kind, own,
            Prod.ext same rfl⟩

/-- How `prepare_file` ends after the torrent is activated: it throws, the stream is prepared at once,
or the preparation is pending. -/
inductive PrepareEnds (answers : Answers) (requestId : Nat) (id : String) (handle fileIndex : Nat)
    (file : TorrentFileInfo) (activated : BackendState) : Outcome → Prop
  | throws (thrown : Thrown) :
      PrepareEnds answers requestId id handle fileIndex file activated (activated, some thrown)
  | seeds {after : BackendState} {event : BackendEvent} {files : List TorrentFileInfo}
      (free : activated.pendingPrepares.lookup id = none)
      (listed : answers.files handle = .ok (some files)) (inside : fileIndex < files.length)
      (seeding : answers.isSeeding handle = .ok true)
      (prepared : activated.preparedEvent answers handle id ⟨requestId, fileIndex, file⟩ =
        .ok (after, event)) :
      PrepareEnds answers requestId id handle fileIndex file activated (after.queue event, none)
  | waits {after : BackendState} {call : HandleCall}
      (free : activated.pendingPrepares.lookup id = none)
      (sent : activated.call answers handle call = .ok after) :
      PrepareEnds answers requestId id handle fileIndex file activated
        ({ after with pendingPrepares :=
          after.pendingPrepares.insert id ⟨requestId, fileIndex, file⟩ }, none)

theorem prepareActivated_ends (backend : BackendState) (answers : Answers) (requestId : Nat) (id : String)
    (handle fileIndex : Nat) (file : TorrentFileInfo) :
    PrepareEnds answers requestId id handle fileIndex file backend
      (backend.prepareActivated answers requestId id handle fileIndex file) := by
  unfold prepareActivated
  split
  · exact .throws _
  · rename_i free
    rw [Option.not_isSome_iff_eq_none] at free
    split
    · exact .throws _
    · exact .throws _
    · rename_i listed
      split
      · exact .throws _
      · rename_i inside
        simp only
        split
        · exact .throws _
        · rename_i seeding
          split
          · exact .throws _
          · rename_i prepared
            exact .seeds free listed (Nat.not_le.mp inside) seeding prepared
        · split
          · exact .throws _
          · rename_i sent
            exact .waits free sent

theorem prepareFile_cases (backend : BackendState) (answers : Answers) (requestId : Nat) (id : String)
    (fileIndex : Nat) (file : TorrentFileInfo) :
    (∃ stopped thrown, Tells backend stopped ∧
        backend.prepareFile answers requestId id fileIndex file = (stopped, some thrown)) ∨
      ∃ handle activated, backend.validHandle answers id = some handle ∧
        (backend.focusTorrent answers id).activateTorrent answers id handle = (activated, none) ∧
        Tells backend activated ∧ PrepareEnds answers requestId id handle fileIndex file activated
          (backend.prepareFile answers requestId id fileIndex file) := by
  unfold prepareFile
  split
  · exact Or.inl ⟨backend, _, .refl backend, rfl⟩
  · rename_i handle valid
    have activates := (focusTorrent_tells backend answers id).trans
      (activateTorrent_tells _ answers id handle)
    split
    · rename_i result
      rw [result] at activates
      exact Or.inl ⟨_, _, activates, rfl⟩
    · rename_i activated result
      rw [result] at activates
      exact Or.inr ⟨handle, activated, valid, result, activates,
        prepareActivated_ends activated answers requestId id handle fileIndex file⟩

end BackendState

end NuvioEngine.Backend
