import NuvioEngine.Backend.Recalls
import NuvioEngine.Backend.Speaks
import NuvioEngine.Backend.Wakeful

/-!
A torrent that is told as added or prepared after the last decision to remove it stays in `handles_`.
This holds in every run in which nothing is told of a torrent while its removal is under way. An
unload that waits for resume data is under way for alerts; commands call it off.
-/

namespace NuvioEngine.Backend

open NuvioEngine.Bridge NuvioEngine.Stream NuvioEngine.Cache BridgeState BackendState

/-- The removal of a torrent was given to the session and its alert has not come yet. -/
def Leaving (backend : BackendState) (id : String) : Prop :=
  (backend.pendingRemovals.lookup id).isSome = true ∨ id ∈ backend.pendingCacheRemovals

instance (backend : BackendState) (id : String) : Decidable (Leaving backend id) :=
  inferInstanceAs (Decidable (_ ∨ _))

/-- The torrents that new events tell as added or prepared. -/
def acked (before after : List BackendEvent) : List String :=
  ((after.drop before.length).filter acknowledges).map BackendEvent.torrentId

/-- A step decides to remove a torrent: `remove_torrent` takes it, or the torrent is chosen to be
unloaded. The removal of a torrent that was chosen before is no new decision. -/
def decides (before after : BackendState) (id : String) : Bool :=
  ((after.pendingRemovals.lookup id).isSome && (before.pendingRemovals.lookup id).isNone) ||
    (decide (id ∈ after.pendingCacheUnloads ∨ id ∈ after.pendingCacheRemovals) &&
      decide (id ∉ before.pendingCacheUnloads ∧ id ∉ before.pendingCacheRemovals))

/-- The host with the torrents that were told as added or prepared since the last decision to remove
them. -/
structure Roster where
  host : Host
  wanted : List String := []

namespace Roster

def told (before after : BackendState) : HostAction → List String
  | .takeQueued => []
  | _ => acked before.queuedEvents after.queuedEvents ++ acked before.events after.events

def perform (roster : Roster) (action : HostAction) : Roster where
  host := roster.host.perform action
  wanted := told roster.host.backend (roster.host.perform action).backend action ++
    roster.wanted.filter fun id => !decides roster.host.backend (roster.host.perform action).backend id

variable (torrentOf : Nat → String)

/-- libtorrent tells `torrent_removed` of torrents whose removal it was given. -/
def Possible (roster : Roster) (action : HostAction) : Prop :=
  roster.host.Possible torrentOf action ∧
    ∀ answers context hashId, action = .alert answers (.torrentRemoved context hashId) →
      Leaving roster.host.backend (roster.host.backend.idOf context hashId)

def Initial (roster : Roster) : Prop := ∃ host : Host, host.Initial ∧ roster = { host := host }

def Reachable : Roster → Prop := Transition.Reachable Initial (Possible torrentOf) perform

def Retained (roster : Roster) : Prop :=
  ∀ id ∈ roster.wanted, (roster.host.backend.handles.lookup id).isSome = true

end Roster

def Answers.Activates (answers : Answers) (handle : Nat) : Prop :=
  answers.fails handle .setUploadMode = none ∧ answers.fails handle .resume = none

/-- The stream of a file can be registered. -/
def Registers (backend : BackendState) (answers : Answers) (handle : Nat) (id : String) (fileIndex : Nat)
    (file : TorrentFileInfo) : Prop :=
  ∃ result, registerStream answers.lt backend.bridge answers.token handle id fileIndex file = .ok result

/-- Nothing is thrown after an added torrent is told. -/
def Announces (backend : BackendState) (answers : Answers) (context : Option Nat) (handle : Nat) : Prop :=
  (backend.dhtReady = true → answers.fails handle .forceDhtAnnounce = none) ∧
    ∃ has, answers.hasMetadata handle = .ok has ∧ (has = true → ∀ shared, context = some shared →
      (backend.contexts shared).metadataEmitted = false → ∃ files, answers.files handle = .ok files)

/-- What tells a torrent as added or prepared: `add_torrent` of a torrent that is there, `prepare_file`
of a torrent that has all its data, and the alerts that answer these requests. -/
def Acknowledges (backend : BackendState) : HostAction → String → Prop
  | .addTorrent answers _ (.ok source), id => source.id = id ∧ isCanonicalTorrentId id = true ∧
      ∃ handle, backend.validHandle answers id = some handle ∧ answers.Activates handle
  | .prepareFile answers _ torrent fileIndex file, id => torrent = id ∧
      backend.pendingPrepares.lookup id = none ∧
      ∃ handle files, backend.validHandle answers id = some handle ∧ answers.Activates handle ∧
        answers.files handle = .ok (some files) ∧ fileIndex < files.length ∧
        answers.isSeeding handle = .ok true ∧ Registers backend answers handle id fileIndex file
  | .alert answers (.added context handle none), id => answers.torrentId handle = id ∧
      Announces backend answers context handle
  | .alert answers (.filePriority handle none), id => answers.torrentId handle = id ∧
      ∃ prepare, backend.pendingPrepares.lookup id = some prepare ∧
        answers.fails handle .unsetUploadMode = none ∧
        Registers backend answers handle id prepare.fileIndex prepare.file
  | _, _ => False

namespace Roster

/-- Nothing is told of a torrent while its removal is under way. -/
def Timely (roster : Roster) (action : HostAction) : Prop :=
  ∀ id, Acknowledges roster.host.backend action id → ¬ Leaving roster.host.backend id ∧
    ((∃ answers received, action = .alert answers received) →
      id ∉ roster.host.backend.pendingCacheUnloads)

def ReachableTimely (torrentOf : Nat → String) : Roster → Prop :=
  Transition.Reachable Initial (fun roster action => roster.Possible torrentOf action ∧
    roster.Timely action) perform

end Roster

theorem mem_acked {before after more : List BackendEvent} (appended : after = before ++ more) {id : String} :
    id ∈ acked before after ↔ ∃ event ∈ more, acknowledges event = true ∧ event.torrentId = id := by
  rw [acked, appended, List.drop_left]
  simp [and_assoc]

@[simp]
theorem acked_self (events : List BackendEvent) : acked events events = [] := by simp [acked]

@[simp]
theorem acked_nil (events : List BackendEvent) : acked events [] = [] := by simp [acked]

theorem Speaks.acked {requestId : Nat} {ids : List String} {before after : BackendState}
    (speaks : Speaks requestId ids before after) {id : String}
    (told : id ∈ Backend.acked before.queuedEvents after.queuedEvents ++
      Backend.acked before.events after.events) : id ∈ ids := by
  obtain ⟨more, appended, said⟩ := speaks.emitted
  obtain ⟨waiting, queues, waits⟩ := speaks.queued
  rw [List.mem_append, mem_acked queues, mem_acked appended] at told
  rcases told with ⟨event, member, acknowledged, rfl⟩ | ⟨event, member, acknowledged, rfl⟩
  · exact (waits event member).2 acknowledged
  · exact (said event member).2 acknowledged

theorem Speaks.acked_queue {requestId : Nat} {ids : List String} {before middle : BackendState}
    (speaks : Speaks requestId ids before middle) {event : BackendEvent} (plain : acknowledges event = false)
    {id : String} (told : id ∈ Backend.acked before.queuedEvents (middle.queuedEvents ++ [event]) ++
      Backend.acked before.events middle.events) : id ∈ ids := by
  obtain ⟨waiting, queues, waits⟩ := speaks.queued
  rcases List.mem_append.mp told with new | new
  · rw [queues, List.append_assoc, mem_acked rfl] at new
    obtain ⟨other, member, acknowledged, rfl⟩ := new
    rcases List.mem_append.mp member with old | last
    · exact (waits other old).2 acknowledged
    · rw [List.mem_singleton.mp last, plain] at acknowledged
      simp at acknowledged
  · exact speaks.acked (List.mem_append_right _ new)

theorem spared_of_decides {before after : BackendState} {id : String}
    (undecided : decides before after id = false) (staying : ¬ Leaving before id)
    (kept : id ∉ before.pendingCacheUnloads) :
    ¬ Leaving after id ∧ id ∉ after.pendingCacheUnloads := by
  have unremoved : (before.pendingRemovals.lookup id).isNone = true := by
    rw [← Option.not_isSome]
    simpa using fun removal => staying (Or.inl removal)
  have uncached : id ∉ before.pendingCacheRemovals := fun member => staying (Or.inr member)
  have unchosen : ¬ (id ∈ after.pendingCacheUnloads ∨ id ∈ after.pendingCacheRemovals) := by
    intro chosen
    simp [decides, chosen, kept, uncached] at undecided
  refine ⟨?_, fun member => unchosen (Or.inl member)⟩
  rintro (removal | member)
  · simp [decides, removal, unremoved] at undecided
  · exact unchosen (Or.inr member)

/-- No removal is decided or called off. -/
structure Undecided (before after : BackendState) : Prop where
  removals : after.pendingRemovals = before.pendingRemovals
  unloads : after.pendingCacheUnloads = before.pendingCacheUnloads
  cacheRemovals : after.pendingCacheRemovals = before.pendingCacheRemovals

namespace Undecided

variable {first second third : BackendState}

theorem refl (backend : BackendState) : Undecided backend backend := ⟨rfl, rfl, rfl⟩

theorem trans (left : Undecided first second) (right : Undecided second third) : Undecided first third :=
  ⟨right.removals.trans left.removals, right.unloads.trans left.unloads,
    right.cacheRemovals.trans left.cacheRemovals⟩

theorem leaving (undecided : Undecided first second) (id : String) :
    Leaving second id ↔ Leaving first id := by
  rw [Leaving, Leaving, undecided.removals, undecided.cacheRemovals]

end Undecided

namespace BackendState

variable {backend next : BackendState}

theorem call_undecided {answers : Answers} {handle : Nat} {call : HandleCall}
    (sent : backend.call answers handle call = .ok next) : Undecided backend next := by
  rw [call_eq_ok sent]
  exact ⟨rfl, rfl, rfl⟩

theorem call_accepted {answers : Answers} {handle : Nat} {call : HandleCall}
    (sent : backend.call answers handle call = .ok next) : answers.fails handle call = none := by
  unfold BackendState.call at sent
  split at sent
  · simp at sent
  · assumption

theorem emit_undecided (backend : BackendState) (event : BackendEvent) :
    Undecided backend (backend.emit event) := ⟨rfl, rfl, rfl⟩

theorem requestResumeSave_undecided (backend : BackendState) (answers : Answers) (handle : Nat) :
    Undecided backend (backend.requestResumeSave answers handle) := by
  unfold requestResumeSave
  split
  · exact .refl backend
  · split
    · exact .refl backend
    · split
      · exact .refl backend
      · split
        · exact .refl backend
        · rename_i sent
          exact (call_undecided sent).trans ⟨rfl, rfl, rfl⟩

theorem focusTorrent_undecided (backend : BackendState) (answers : Answers) (requestedId : String) :
    Undecided backend (backend.focusTorrent answers requestedId) := by
  rw [focusTorrent_eq]
  exact ⟨rfl, rfl, rfl⟩

theorem activateTorrent_eq {answers : Answers} {id : String} {handle : Nat}
    (activated : backend.activateTorrent answers id handle = (next, none)) :
    answers.Activates handle ∧ next = { backend with
      flags := next.flags
      warmSince := next.warmSince
      quiescedTorrents := next.quiescedTorrents
      pendingCacheUnloads := backend.pendingCacheUnloads.filter fun other => other ≠ id } := by
  unfold activateTorrent at activated
  simp only at activated
  split at activated
  · simp at activated
  · rename_i uploading sent
    split at activated
    · simp at activated
    · rename_i resumed woken
      refine ⟨⟨call_accepted sent, call_accepted woken⟩, ?_⟩
      obtain rfl := (Prod.mk.inj activated).1
      rw [call_eq_ok woken, call_eq_ok sent]

theorem activateTorrent_leaving {answers : Answers} {id : String} {handle : Nat}
    (activated : backend.activateTorrent answers id handle = (next, none)) (other : String) :
    Leaving next other ↔ Leaving backend other := by
  rw [(activateTorrent_eq activated).2]
  rfl

theorem activateTorrent_kept {answers : Answers} {id : String} {handle : Nat}
    (activated : backend.activateTorrent answers id handle = (next, none)) :
    id ∉ next.pendingCacheUnloads := by
  rw [(activateTorrent_eq activated).2]
  simp

theorem emitMetadata_undecided (backend : BackendState) (answers : Answers) (handle : Nat)
    (context : Option Nat) (source : MetadataSource) :
    Undecided backend (backend.emitMetadata answers handle context source).1 := by
  unfold emitMetadata
  extract_lets marked
  have told : Undecided backend marked := by
    unfold marked
    split <;> exact ⟨rfl, rfl, rfl⟩
  split
  · exact told
  · exact told.trans ⟨rfl, rfl, rfl⟩

theorem announce_undecided (backend : BackendState) (answers : Answers) (handle : Nat)
    (context : Option Nat) : Undecided backend (backend.announce answers handle context).1 := by
  unfold announce
  split
  · exact .refl backend
  · exact .refl backend
  · exact .refl backend
  · rename_i shared _
    split
    · exact .refl backend
    · have emitted := emitMetadata_undecided backend answers handle (some shared)
        (backend.contexts shared).metadataSource
      simp only
      split
      · rename_i result
        rw [result] at emitted
        exact emitted
      · rename_i result
        rw [result] at emitted
        split
        · exact emitted
        · exact emitted.trans (requestResumeSave_undecided _ answers handle)

theorem adopt_undecided (backend : BackendState) (answers : Answers) (id : String) (handle : Nat)
    (context : Option Nat) : Undecided backend (backend.adopt answers id handle context) := by
  have retires : ∀ current : BackendState, Undecided current (current.retire id) := by
    intro current
    unfold retire
    split <;> exact ⟨rfl, rfl, rfl⟩
  unfold adopt
  split
  · exact .refl backend
  · rename_i shared
    have named : Undecided backend (backend.setContext shared fun request =>
        { request with torrentId := id }) := ⟨rfl, rfl, rfl⟩
    simp only
    split
    · exact (named.trans (retires _)).trans ⟨rfl, rfl, rfl⟩
    · exact named

theorem handleAdded_undecided (backend : BackendState) (answers : Answers) (context : Option Nat)
    (handle : Nat) (error : Option String) :
    Undecided backend (backend.handleAdded answers context handle error).1 := by
  unfold handleAdded
  simp only
  split
  · exact ⟨rfl, rfl, rfl⟩
  · have known : Undecided backend { backend with
        handles := backend.handles.insert (answers.torrentId handle) handle } := ⟨rfl, rfl, rfl⟩
    split
    · exact known
    · rename_i announced sent
      rw [announceAdded_eq_ok sent]
      have adopted := known.trans (adopt_undecided _ answers (answers.torrentId handle) handle context)
      have announces := announce_undecided (({ backend with
        handles := backend.handles.insert (answers.torrentId handle) handle }.adopt answers
          (answers.torrentId handle) handle context).emit {
            type := .torrentAdded
            requestId := backend.requestOf context
            torrentId := answers.torrentId handle }) answers handle context
      have told := adopted.trans ((emit_undecided _ _).trans announces)
      split
      · rename_i result
        rw [result] at told
        exact told
      · rename_i result
        rw [result] at told
        exact told.trans ⟨rfl, rfl, rfl⟩

theorem handleFilePriority_undecided (backend : BackendState) (answers : Answers) (handle : Nat)
    (error : Option String) :
    Undecided backend (backend.handleFilePriority answers handle error).1 := by
  have finishes : ∀ id prepare, Undecided backend
      (backend.finishPrepare answers handle id prepare).1 := by
    intro id prepare
    unfold finishPrepare
    split
    · exact .refl backend
    · rename_i downloading sent
      split
      · exact call_undecided sent
      · rename_i registered event prepared
        have registers : Undecided downloading registered := by
          rw [preparedEvent_eq_ok prepared]
          exact ⟨rfl, rfl, rfl⟩
        exact ((call_undecided sent).trans registers).trans
          ((emit_undecided registered event).trans (requestResumeSave_undecided _ answers handle))
  unfold handleFilePriority
  simp only
  split
  · exact .refl backend
  · rename_i prepare _
    have finish := finishes (answers.torrentId handle) prepare
    split
    · exact ⟨rfl, rfl, rfl⟩
    · split
      · rename_i result
        rw [result] at finish
        exact finish.trans ⟨rfl, rfl, rfl⟩
      · rename_i result
        rw [result] at finish
        exact finish.trans ⟨rfl, rfl, rfl⟩
      · rename_i result
        rw [result] at finish
        exact finish

/-- The torrent that `add_torrent` tells at once is neither leaving because of it nor unloading. -/
theorem addExisting_told {answers : Answers} {requestId : Nat} {id other : String} {handle : Nat}
    (told : other ∈ acked backend.queuedEvents (backend.addExisting answers requestId id handle).1.queuedEvents ++
      acked backend.events (backend.addExisting answers requestId id handle).1.events) :
    other = id ∧ answers.Activates handle ∧
      (∀ query, Leaving (backend.addExisting answers requestId id handle).1 query ↔
        Leaving backend query) ∧
      id ∉ (backend.addExisting answers requestId id handle).1.pendingCacheUnloads := by
  have named : other = id := by
    simpa using (addExisting_speaks backend answers requestId id handle).acked told
  refine ⟨named, ?_⟩
  have activates := activateTorrent_tells backend answers id handle
  cases activation : backend.activateTorrent answers id handle with
  | mk activated thrown =>
      rw [activation] at activates
      cases thrown with
      | some thrown =>
          have same : backend.addExisting answers requestId id handle = (activated, some thrown) := by
            simp [addExisting, activation]
          rw [same] at told
          exact absurd ((Speaks.ofTells activates : Speaks 0 [] _ _).acked told) (by simp)
      | none =>
          have rest : Undecided activated (backend.addExisting answers requestId id handle).1 := by
            rw [addExisting, activation]
            dsimp -zeta only
            extract_lets recorded added request
            have undecided : Undecided activated recorded := by
              unfold recorded
              split <;> exact ⟨rfl, rfl, rfl⟩
            split
            · exact undecided.trans ⟨rfl, rfl, rfl⟩
            · exact undecided.trans ⟨rfl, rfl, rfl⟩
            · split <;> exact undecided.trans ⟨rfl, rfl, rfl⟩
          refine ⟨(activateTorrent_eq activation).1, ?_, ?_⟩
          · intro query
            exact (rest.leaving query).trans (activateTorrent_leaving activation query)
          · rw [rest.unloads]
            exact activateTorrent_kept activation

theorem addTorrent_told {answers : Answers} {requestId : Nat} {parsed : Except Thrown TorrentSource}
    {id : String}
    (told : id ∈ acked backend.queuedEvents (backend.addTorrent answers requestId parsed).1.queuedEvents ++
      acked backend.events (backend.addTorrent answers requestId parsed).1.events) :
    Acknowledges backend (.addTorrent answers requestId parsed) id ∧
      (Leaving (backend.addTorrent answers requestId parsed).1 id → Leaving backend id) ∧
      id ∉ (backend.addTorrent answers requestId parsed).1.pendingCacheUnloads ∧
      (backend.handles.lookup id).isSome = true := by
  cases parsed with
  | error thrown => simp [addTorrent] at told
  | ok source =>
      by_cases canonical : isCanonicalTorrentId source.id = true
      · have focused := focusTorrent_tells backend answers source.id
        cases found : (backend.focusTorrent answers source.id).validHandle answers source.id with
        | none =>
            have same : backend.addTorrent answers requestId (.ok source) =
                (backend.focusTorrent answers source.id).addNew answers requestId source := by
              simp [addTorrent, canonical, found]
            rw [same] at told
            exact absurd (((Speaks.ofTells focused : Speaks requestId [] _ _).trans
              (addNew_speaks _ answers requestId source)).acked told) (by simp)
        | some handle =>
            have same : backend.addTorrent answers requestId (.ok source) =
                (backend.focusTorrent answers source.id).addExisting answers requestId source.id
                  handle := by
              simp [addTorrent, canonical, found]
            have queued : (backend.focusTorrent answers source.id).queuedEvents = backend.queuedEvents := by
              rw [focusTorrent_eq]
            have events : (backend.focusTorrent answers source.id).events = backend.events := by
              rw [focusTorrent_eq]
            rw [same, ← queued, ← events] at told
            obtain ⟨rfl, accepted, leaving, kept⟩ := addExisting_told told
            have undecided := focusTorrent_undecided backend answers source.id
            have known : backend.validHandle answers source.id = some handle := by
              rw [validHandle, ← focused.handles]
              exact found
            rw [same]
            refine ⟨⟨rfl, canonical, handle, known, accepted⟩, ?_, kept, ?_⟩
            · intro leaves
              exact (undecided.leaving _).mp ((leaving _).mp leaves)
            · rw [(validHandle_eq_some known).1]
              rfl
      · simp [addTorrent, canonical] at told

theorem preparedEvent_registers {answers : Answers} {handle : Nat} {id : String} {prepare : PendingPrepare}
    {event : BackendEvent}
    (prepared : backend.preparedEvent answers handle id prepare = .ok (next, event)) :
    Registers backend answers handle id prepare.fileIndex prepare.file := by
  unfold preparedEvent at prepared
  split at prepared
  · simp at prepared
  · rename_i registered
    exact ⟨_, registered⟩

theorem prepareFile_told {answers : Answers} {requestId : Nat} {id other : String} {fileIndex : Nat}
    {file : TorrentFileInfo}
    (told : other ∈ acked backend.queuedEvents
        (backend.prepareFile answers requestId id fileIndex file).1.queuedEvents ++
      acked backend.events (backend.prepareFile answers requestId id fileIndex file).1.events) :
    Acknowledges backend (.prepareFile answers requestId id fileIndex file) other ∧
      (Leaving (backend.prepareFile answers requestId id fileIndex file).1 other →
        Leaving backend other) ∧
      other ∉ (backend.prepareFile answers requestId id fileIndex file).1.pendingCacheUnloads ∧
      (backend.handles.lookup other).isSome = true := by
  rcases prepareFile_cases backend answers requestId id fileIndex file with
    ⟨stopped, thrown, tells, result⟩ | ⟨handle, activated, valid, activation, tells, ends⟩
  · rw [result] at told
    exact absurd ((Speaks.ofTells tells : Speaks 0 [] _ _).acked told) (by simp)
  · generalize backend.prepareFile answers requestId id fileIndex file = outcome at ends told
    cases ends with
    | throws thrown => exact absurd ((Speaks.ofTells tells : Speaks 0 [] _ _).acked told) (by simp)
    | waits free sent =>
        exact absurd ((Speaks.ofTells (tells.trans (call_tells sent)) : Speaks 0 [] _ _).acked told)
          (by simp)
    | seeds free listed inside seeding prepared =>
        rename_i after event files
        obtain ⟨_, own, named⟩ := preparedEvent_requestId prepared
        have said : Speaks requestId [id] backend (after.queue event) :=
          (Speaks.ofTells (tells.trans (preparedEvent_tells prepared))).trans
            (.queue after event ⟨Or.inr own, by simp [named]⟩)
        obtain rfl : other = id := by simpa using said.acked told
        obtain ⟨accepted, same⟩ := activateTorrent_eq activation
        have system : activated.system = backend.system := by
          rw [same, focusTorrent_eq]
        have registers := preparedEvent_registers prepared
        rw [Registers, BackendState.bridge, system] at registers
        rw [tells.prepares] at free
        have undecided : Undecided activated (after.queue event) := by
          rw [preparedEvent_eq_ok prepared]
          exact ⟨rfl, rfl, rfl⟩
        refine ⟨⟨rfl, free, handle, files, valid, accepted, listed, inside, seeding, registers⟩, ?_, ?_, ?_⟩
        · intro leaves
          exact ((focusTorrent_undecided backend answers other).leaving other).mp
            ((activateTorrent_leaving activation other).mp ((undecided.leaving other).mp leaves))
        · rw [undecided.unloads]
          exact activateTorrent_kept activation
        · rw [(validHandle_eq_some valid).1]
          rfl

theorem prepareFile_prepares (backend : BackendState) (answers : Answers) (requestId : Nat) (id : String)
    (fileIndex : Nat) (file : TorrentFileInfo) (other : String)
    (found : ((backend.prepareFile answers requestId id fileIndex file).1.pendingPrepares.lookup
      other).isSome = true) :
    (backend.pendingPrepares.lookup other).isSome = true ∨ (backend.handles.lookup other).isSome = true := by
  rcases prepareFile_cases backend answers requestId id fileIndex file with
    ⟨stopped, thrown, tells, result⟩ | ⟨handle, activated, valid, _, tells, ends⟩
  · rw [result, tells.prepares] at found
    exact Or.inl found
  · generalize backend.prepareFile answers requestId id fileIndex file = outcome at ends found
    cases ends with
    | throws thrown =>
        rw [tells.prepares] at found
        exact Or.inl found
    | seeds _ _ _ _ prepared =>
        rw [BackendState.queue, (tells.trans (preparedEvent_tells prepared)).prepares] at found
        exact Or.inl found
    | waits _ sent =>
        simp only [(tells.trans (call_tells sent)).prepares, AList.lookup_insert_ite] at found
        split at found
        · rename_i same
          rw [same, (validHandle_eq_some valid).1]
          exact Or.inr rfl
        · exact Or.inl found

theorem announce_listed {answers : Answers} {context : Option Nat} {handle : Nat}
    (returned : (backend.announce answers handle context).2 = none) :
    ∃ has, answers.hasMetadata handle = .ok has ∧ (has = true → ∀ shared, context = some shared →
      (backend.contexts shared).metadataEmitted = false → ∃ files, answers.files handle = .ok files) := by
  unfold announce at returned
  split at returned
  · simp at returned
  · rename_i status
    exact ⟨false, status, by simp⟩
  · rename_i status
    exact ⟨true, status, by simp⟩
  · rename_i shared status
    refine ⟨true, status, ?_⟩
    rintro _ other same fresh
    obtain rfl := Option.some.inj same
    simp only [fresh, Bool.false_eq_true, if_false] at returned
    cases listed : answers.files handle with
    | error thrown => simp [emitMetadata, metadataEvent, listed] at returned
    | ok files => exact ⟨files, rfl⟩

theorem adopt_metadataEmitted (backend : BackendState) (answers : Answers) (id : String) (handle : Nat)
    (context : Option Nat) (shared : Nat) :
    ((backend.adopt answers id handle context).contexts shared).metadataEmitted =
      (backend.contexts shared).metadataEmitted := by
  have retires : ∀ current : BackendState, (current.retire id).contexts = current.contexts := by
    intro current
    unfold retire
    split <;> rfl
  unfold adopt
  split
  · rfl
  · simp only
    split <;> simp only [dropPending, retires, BackendState.setContext, Function.update_apply] <;>
      split <;> simp_all

theorem handleAdded_announces {answers : Answers} {context : Option Nat} {handle : Nat}
    (returned : (backend.handleAdded answers context handle none).2 = none) :
    Announces backend answers context handle := by
  unfold handleAdded at returned
  simp only at returned
  split at returned
  · simp at returned
  · rename_i announced sent
    rw [announceAdded_eq_ok sent] at returned
    refine ⟨?_, ?_⟩
    · intro ready
      rw [announceAdded, if_pos ready] at sent
      exact call_accepted sent
    · split at returned
      · simp at returned
      · rename_i result
        obtain ⟨has, status, listed⟩ := announce_listed (congrArg Prod.snd result)
        refine ⟨has, status, ?_⟩
        intro known shared same fresh
        refine listed known shared same ?_
        rw [BackendState.emit, adopt_metadataEmitted]
        exact fresh

theorem finishPrepare_speaks (backend : BackendState) (answers : Answers) (handle : Nat) (id : String)
    (prepare : PendingPrepare) :
    Tells backend (backend.finishPrepare answers handle id prepare).1 ∨
      (answers.fails handle .unsetUploadMode = none ∧
        Registers backend answers handle id prepare.fileIndex prepare.file ∧
        Speaks prepare.requestId [id] backend (backend.finishPrepare answers handle id prepare).1) := by
  unfold finishPrepare
  split
  · exact Or.inl (.refl backend)
  · rename_i downloading sent
    split
    · exact Or.inl (call_tells sent)
    · rename_i registered event prepared
      obtain ⟨_, own, named⟩ := preparedEvent_requestId prepared
      have registers := preparedEvent_registers prepared
      rw [call_eq_ok sent] at registers
      have said : Speaks prepare.requestId [id] registered (registered.emit event) :=
        .emit registered event ⟨Or.inr own, by simp [named]⟩
      exact Or.inr ⟨call_accepted sent, registers,
        ((Speaks.ofTells ((call_tells sent).trans (preparedEvent_tells prepared))).trans said).trans
          (.ofTells (requestResumeSave_tells _ answers handle))⟩

theorem handleFilePriority_told {answers : Answers} {handle : Nat} {error : Option String} {id : String}
    (told : id ∈ acked backend.queuedEvents
        (backend.handleFilePriority answers handle error).1.queuedEvents ++
      acked backend.events (backend.handleFilePriority answers handle error).1.events) :
    Acknowledges backend (.alert answers (.filePriority handle error)) id := by
  cases found : backend.pendingPrepares.lookup (answers.torrentId handle) with
  | none => simp [handleFilePriority, found] at told
  | some prepare =>
      have failed : ∀ {ids : List String} {stopped : BackendState} (message : String),
          Speaks prepare.requestId ids backend stopped → Speaks prepare.requestId ids backend
            (stopped.emitPrepareError (answers.torrentId handle) prepare message) := by
        intro ids stopped message said
        exact said.trans (.emit stopped _ (own_utters rfl rfl))
      cases error with
      | some message =>
          simp only [handleFilePriority, found] at told
          have silent : Speaks prepare.requestId [] backend backend := .ofTells (.refl backend)
          exact absurd ((failed message silent).acked told) (by simp)
      | none =>
          simp only [handleFilePriority, found] at told
          have heard : ∀ {ids : List String}, Speaks prepare.requestId ids backend
              (backend.finishPrepare answers handle (answers.torrentId handle) prepare).1 → id ∈ ids := by
            intro ids said
            split at told
            · rename_i result
              rw [result] at said
              exact said.acked told
            · rename_i what result
              rw [result] at said
              exact (failed what said).acked told
            · rename_i result
              rw [result] at said
              exact said.acked told
          rcases finishPrepare_speaks backend answers handle (answers.torrentId handle) prepare with
            tells | ⟨accepted, registers, said⟩
          · exact absurd (heard (.ofTells tells : Speaks prepare.requestId [] _ _)) (by simp)
          · obtain rfl : id = answers.torrentId handle := by simpa using heard said
            exact ⟨rfl, prepare, found, accepted, registers⟩

end BackendState

namespace Roster

variable {torrentOf : Nat → String} {roster : Roster}

/-- A wanted torrent is known and no removal of it is under way; a torrent that is being prepared is
known. -/
structure Held (roster : Roster) : Prop where
  known : ∀ id ∈ roster.wanted, (roster.host.backend.handles.lookup id).isSome = true
  staying : ∀ id ∈ roster.wanted, ¬ Leaving roster.host.backend id ∧
    id ∉ roster.host.backend.pendingCacheUnloads
  prepared : ∀ id, (roster.host.backend.pendingPrepares.lookup id).isSome = true →
    (roster.host.backend.handles.lookup id).isSome = true

namespace Held

theorem initial (begins : roster.Initial) : roster.Held := by
  obtain ⟨_, ⟨_, _, _, rfl⟩, rfl⟩ := begins
  exact ⟨by simp, by simp, by simp⟩

/-- The torrents that a step tells are kept by the step, and it forgets no wanted torrent. -/
theorem step (held : roster.Held) {action : HostAction}
    (keeps : ∀ id ∈ roster.wanted, ((roster.host.perform action).backend.handles.lookup id).isSome = true)
    (prepared : ∀ id, ((roster.host.perform action).backend.pendingPrepares.lookup id).isSome = true →
      ((roster.host.perform action).backend.handles.lookup id).isSome = true)
    (told : ∀ id ∈ told roster.host.backend (roster.host.perform action).backend action,
      ((roster.host.perform action).backend.handles.lookup id).isSome = true ∧
        ¬ Leaving (roster.host.perform action).backend id ∧
        id ∉ (roster.host.perform action).backend.pendingCacheUnloads) :
    (roster.perform action).Held := by
  have cases : ∀ id ∈ (roster.perform action).wanted,
      id ∈ Roster.told roster.host.backend (roster.host.perform action).backend action ∨
        (id ∈ roster.wanted ∧
          decides roster.host.backend (roster.host.perform action).backend id = false) := by
    intro id member
    simpa [perform] using member
  refine ⟨?_, ?_, prepared⟩
  · intro id member
    rcases cases id member with new | ⟨old, _⟩
    · exact (told id new).1
    · exact keeps id old
  · intro id member
    rcases cases id member with new | ⟨old, undecided⟩
    · exact (told id new).2
    · obtain ⟨staying, kept⟩ := held.staying id old
      exact spared_of_decides undecided staying kept

theorem told_subset {before after : BackendState} {action : HostAction} {id : String}
    (new : id ∈ told before after action) :
    id ∈ acked before.queuedEvents after.queuedEvents ++ acked before.events after.events := by
  unfold told at new
  split at new
  · simp at new
  · exact new

theorem quiet (held : roster.Held) {action : HostAction}
    (handles : (roster.host.perform action).backend.handles = roster.host.backend.handles)
    (prepares : ∀ id, ((roster.host.perform action).backend.pendingPrepares.lookup id).isSome = true →
      (roster.host.backend.pendingPrepares.lookup id).isSome = true)
    (silent : ∀ id, id ∉ told roster.host.backend (roster.host.perform action).backend action) :
    (roster.perform action).Held := by
  refine held.step ?_ ?_ fun id new => absurd new (silent id)
  · rw [handles]
    exact held.known
  · rw [handles]
    exact fun id found => held.prepared id (prepares id found)

theorem speaks (held : roster.Held) {action : HostAction} {requestId : Nat}
    (said : Speaks requestId [] roster.host.backend (roster.host.perform action).backend) :
    (roster.perform action).Held := by
  refine held.quiet said.handles ?_ ?_
  · rw [said.prepares]
    exact fun _ found => found
  · intro id new
    exact absurd (said.acked (told_subset new)) (by simp)

theorem addTorrent (held : roster.Held) {answers : Answers} {requestId : Nat}
    {parsed : Except Thrown TorrentSource} (timely : roster.Timely (.addTorrent answers requestId parsed)) :
    (roster.perform (.addTorrent answers requestId parsed)).Held := by
  obtain ⟨ids, said⟩ := addTorrent_speaks roster.host.backend answers requestId parsed
  have same : (roster.host.perform (.addTorrent answers requestId parsed)).backend =
      (roster.host.backend.addTorrent answers requestId parsed).1 := Host.accept_backend ..
  refine held.step ?_ ?_ ?_ <;> rw [same]
  · rw [said.handles]
    exact held.known
  · rw [said.handles, said.prepares]
    exact held.prepared
  · intro id new
    obtain ⟨acknowledged, leaving, kept, known⟩ := addTorrent_told (told_subset new)
    rw [said.handles]
    exact ⟨known, fun leaves => (timely id acknowledged).1 (leaving leaves), kept⟩

theorem prepareFile (held : roster.Held) {answers : Answers} {requestId : Nat} {id : String}
    {fileIndex : Nat} {file : TorrentFileInfo}
    (timely : roster.Timely (.prepareFile answers requestId id fileIndex file)) :
    (roster.perform (.prepareFile answers requestId id fileIndex file)).Held := by
  have same : (roster.host.perform (.prepareFile answers requestId id fileIndex file)).backend =
      (roster.host.backend.prepareFile answers requestId id fileIndex file).1 := Host.command_backend ..
  have handles : (roster.host.backend.prepareFile answers requestId id fileIndex file).1.handles =
      roster.host.backend.handles :=
    (prepareFile_recalls roster.host.backend answers requestId id fileIndex file).handles
  refine held.step ?_ ?_ ?_ <;> rw [same, handles]
  · exact held.known
  · intro other found
    rcases prepareFile_prepares roster.host.backend answers requestId id fileIndex file other found with
      before | known
    · exact held.prepared other before
    · exact known
  · intro other new
    obtain ⟨acknowledged, leaving, kept, known⟩ := prepareFile_told (told_subset new)
    exact ⟨known, fun leaves => (timely other acknowledged).1 (leaving leaves), kept⟩

theorem removeTorrent (held : roster.Held) (answers : Answers) (requestId : Nat) (id : String) :
    (roster.perform (.removeTorrent answers requestId id)).Held := by
  have same : (roster.host.perform (.removeTorrent answers requestId id)).backend =
      (roster.host.backend.removeTorrent answers requestId id).1 := Host.command_backend ..
  rcases removeTorrent_cases roster.host.backend answers requestId id with
    said | ⟨prepare, middle, event, _, said, kind, _, result⟩
  · rw [← same] at said
    exact held.speaks said
  · rw [result] at same
    refine held.quiet ?_ ?_ ?_ <;> rw [same]
    · exact said.handles
    · intro other found
      simp only [BackendState.queue, dropPrepare, AList.lookup_erase_ite, said.prepares] at found
      split at found
      · simp at found
      · exact found
    · intro other new
      have plain : acknowledges event = false := by simp [acknowledges, kind]
      exact absurd (said.acked_queue plain (told_subset new)) (by simp)

theorem collect_told {host : Host} {outcome : BackendState.Outcome} {id : String}
    (queued : outcome.1.queuedEvents = host.backend.queuedEvents)
    (new : id ∈ acked host.backend.queuedEvents (host.collect outcome).backend.queuedEvents ++
      acked host.backend.events (host.collect outcome).backend.events) :
    outcome.2 = none ∧ id ∈ acked host.backend.queuedEvents outcome.1.queuedEvents ++
      acked host.backend.events outcome.1.events := by
  obtain ⟨after, thrown⟩ := outcome
  cases thrown with
  | none => exact ⟨rfl, new⟩
  | some thrown =>
      rw [show (host.collect (after, some thrown)).backend.queuedEvents = _ from queued] at new
      simp [Host.collect] at new

theorem collect_handles (host : Host) (outcome : BackendState.Outcome) :
    (host.collect outcome).backend.handles = outcome.1.handles ∧
      (host.collect outcome).backend.pendingPrepares = outcome.1.pendingPrepares ∧
      Undecided outcome.1 (host.collect outcome).backend := by
  obtain ⟨after, thrown⟩ := outcome
  cases thrown <;> exact ⟨rfl, rfl, rfl, rfl, rfl⟩

theorem tells (held : roster.Held) {action : HostAction} {outcome : BackendState.Outcome}
    (collects : (roster.host.perform action).backend = (roster.host.collect outcome).backend)
    (told : Tells roster.host.backend outcome.1) : (roster.perform action).Held := by
  obtain ⟨handles, prepares, _⟩ := collect_handles roster.host outcome
  refine held.quiet ?_ ?_ ?_ <;> rw [collects]
  · rw [handles, told.handles]
  · rw [prepares, told.prepares]
    exact fun _ found => found
  · intro id new
    obtain ⟨_, spoken⟩ := collect_told told.queued (told_subset new)
    exact absurd ((Speaks.ofTells told : Speaks 0 [] _ _).acked spoken) (by simp)

theorem handleAdded_effect (backend : BackendState) (answers : Answers) (context : Option Nat)
    (handle : Nat) (error : Option String) :
    Tells backend (backend.handleAdded answers context handle error).1 ∨
      (error = none ∧
        (backend.handleAdded answers context handle error).1.queuedEvents = backend.queuedEvents ∧
        (backend.handleAdded answers context handle error).1.handles =
          backend.handles.insert (answers.torrentId handle) handle ∧
        (backend.handleAdded answers context handle error).1.pendingPrepares = backend.pendingPrepares ∧
        ∀ id ∈ acked backend.queuedEvents
              (backend.handleAdded answers context handle error).1.queuedEvents ++
            acked backend.events (backend.handleAdded answers context handle error).1.events,
          id = answers.torrentId handle) := by
  rcases handleAdded_cases backend answers context handle error with
    told | ⟨plain, middle, told, same | ⟨event, _, named, _, telling⟩⟩
  · exact Or.inl told
  · rw [same]
    refine Or.inr ⟨plain, told.queued, told.handles, told.prepares, ?_⟩
    intro id new
    exact absurd ((Speaks.ofTells told : Speaks 0 [] _ _).acked new) (by simp)
  · refine Or.inr ⟨plain, telling.queued.trans told.queued, telling.handles.trans told.handles,
      telling.prepares.trans told.prepares, ?_⟩
    intro id new
    have said : Speaks event.requestId [answers.torrentId handle] middle (middle.emit event) :=
      .emit middle event ⟨Or.inr rfl, by simp [named]⟩
    simpa using (((Speaks.ofTells told).trans said).trans (.ofTells telling)).acked new

theorem handleFilePriority_frame (backend : BackendState) (answers : Answers) (handle : Nat)
    (error : Option String) :
    (backend.handleFilePriority answers handle error).1.queuedEvents = backend.queuedEvents ∧
      ∀ id, ((backend.handleFilePriority answers handle error).1.pendingPrepares.lookup id).isSome =
        true → (backend.pendingPrepares.lookup id).isSome = true := by
  rcases handleFilePriority_cases backend answers handle error with
    ⟨_, same⟩ | ⟨_, _, ⟨⟨middle, event, last, told, _, _, telling, after⟩, _⟩ | ⟨told, _⟩⟩
  · rw [same]
    exact ⟨rfl, fun _ found => found⟩
  · rw [after]
    refine ⟨telling.queued.trans told.queued, ?_⟩
    intro id found
    rw [dropPrepare, AList.lookup_erase_ite, telling.prepares] at found
    split at found
    · simp at found
    · exact told.prepares ▸ found
  · rw [told.prepares]
    exact ⟨told.queued, fun _ found => found⟩

theorem added (held : roster.Held) {answers : Answers} {context : Option Nat} {handle : Nat}
    {error : Option String} (timely : roster.Timely (.alert answers (.added context handle error))) :
    (roster.perform (.alert answers (.added context handle error))).Held := by
  rcases handleAdded_effect roster.host.backend answers context handle error with
    told | ⟨rfl, queued, handles, prepares, named⟩
  · exact held.tells rfl told
  · have grows : ∀ id, (roster.host.backend.handles.lookup id).isSome = true →
        ((roster.host.backend.handleAdded answers context handle none).1.handles.lookup id).isSome =
          true := by
      intro id known
      rw [handles, AList.lookup_insert_ite]
      split
      · rfl
      · exact known
    obtain ⟨collected, waiting, undecided⟩ := collect_handles roster.host
      (roster.host.backend.handleAdded answers context handle none)
    have same : (roster.host.perform (.alert answers (.added context handle none))).backend =
        (roster.host.collect (roster.host.backend.handleAdded answers context handle none)).backend := rfl
    refine held.step ?_ ?_ ?_ <;> rw [same, collected]
    · exact fun id member => grows id (held.known id member)
    · rw [waiting, prepares]
      exact fun id found => grows id (held.prepared id found)
    · intro id new
      obtain ⟨returned, spoken⟩ := collect_told queued (told_subset new)
      obtain rfl := named id spoken
      have unchanged := (handleAdded_undecided roster.host.backend answers context handle none).trans
        undecided
      obtain ⟨staying, kept⟩ := timely (answers.torrentId handle) ⟨rfl, handleAdded_announces returned⟩
      rw [handles, unchanged.leaving, unchanged.unloads, AList.lookup_insert]
      exact ⟨rfl, staying, kept ⟨_, _, rfl⟩⟩

theorem fileError (held : roster.Held) (answers : Answers) (handle : Nat) (message : String) :
    (roster.perform (.alert answers (.fileError handle message))).Held := by
  have same : (roster.host.perform (.alert answers (.fileError handle message))).backend =
      roster.host.backend.handleFileError answers handle message := rfl
  refine held.quiet ?_ ?_ ?_ <;> rw [same]
  · exact (handleFileError_recalls roster.host.backend answers handle message).handles
  · intro id found
    unfold handleFileError at found
    simp only at found
    split at found
    · exact found
    · simp only [dropPrepare, emitPrepareError, BackendState.emit, AList.lookup_erase_ite] at found
      split at found
      · simp at found
      · exact found
  · intro id new
    unfold handleFileError at new
    simp only at new
    split at new
    · exact absurd (told_subset new) (by simp)
    · rename_i prepare _
      have said : Speaks prepare.requestId [] roster.host.backend
          (roster.host.backend.emitPrepareError (answers.torrentId handle) prepare message) :=
        .emit roster.host.backend _ (own_utters rfl rfl)
      have spoken := told_subset new
      exact absurd (said.acked spoken) (by simp)

theorem filePriority (held : roster.Held) {answers : Answers} {handle : Nat} {error : Option String}
    (timely : roster.Timely (.alert answers (.filePriority handle error))) :
    (roster.perform (.alert answers (.filePriority handle error))).Held := by
  obtain ⟨collected, waiting, undecided⟩ := collect_handles roster.host
    (roster.host.backend.handleFilePriority answers handle error)
  have handles := (handleFilePriority_recalls roster.host.backend answers handle error).handles
  have same : (roster.host.perform (.alert answers (.filePriority handle error))).backend =
      (roster.host.collect (roster.host.backend.handleFilePriority answers handle error)).backend := rfl
  obtain ⟨queued, prepares⟩ := handleFilePriority_frame roster.host.backend answers handle error
  refine held.step ?_ ?_ ?_ <;> rw [same, collected, handles]
  · exact held.known
  · rw [waiting]
    exact fun id found => held.prepared id (prepares id found)
  · intro id new
    obtain ⟨_, spoken⟩ := collect_told queued (told_subset new)
    have acknowledged := handleFilePriority_told spoken
    have unchanged := (handleFilePriority_undecided roster.host.backend answers handle error).trans
      undecided
    obtain ⟨staying, kept⟩ := timely id acknowledged
    rw [unchanged.leaving, unchanged.unloads]
    refine ⟨?_, staying, kept ⟨_, _, rfl⟩⟩
    cases error with
    | some message => exact acknowledged.elim
    | none =>
        obtain ⟨_, prepare, found, _⟩ := acknowledged
        exact held.prepared id (by rw [found]; rfl)

theorem removed (held : roster.Held) (answers : Answers) {context : Option Nat} {hashId : String}
    (leaves : Leaving roster.host.backend (roster.host.backend.idOf context hashId)) :
    (roster.perform (.alert answers (.torrentRemoved context hashId))).Held := by
  have same : (roster.host.perform (.alert answers (.torrentRemoved context hashId))).backend =
      roster.host.backend.handleRemoved answers context hashId := rfl
  obtain ⟨middle, told, telling⟩ := handleRemoved_tells roster.host.backend answers context hashId
  have handles := telling.handles
  have prepares := telling.prepares
  simp only [dropPrepare, told.handles, told.prepares] at handles prepares
  refine held.step ?_ ?_ ?_ <;> rw [same]
  · intro id member
    rw [handles, AList.lookup_erase_ite, if_neg]
    · exact held.known id member
    · rintro rfl
      exact (held.staying _ member).1 leaves
  · intro id found
    rw [prepares, AList.lookup_erase_ite] at found
    split at found
    · simp at found
    · rename_i different
      rw [handles, AList.lookup_erase_ite, if_neg different]
      exact held.prepared id found
  · intro id new
    obtain ⟨more, appended, voiced⟩ := told.events
    obtain ⟨rest, followed, heard⟩ := telling.events
    have events : (roster.host.backend.handleRemoved answers context hashId).events =
        roster.host.backend.events ++ (more ++ rest) := by
      rw [followed, ← List.append_assoc, ← appended]
      rfl
    have queued : (roster.host.backend.handleRemoved answers context hashId).queuedEvents =
        roster.host.backend.queuedEvents := telling.queued.trans told.queued
    have spoken := told_subset new
    rw [queued, acked_self, List.nil_append, mem_acked events] at spoken
    obtain ⟨event, member, acknowledged, _⟩ := spoken
    have plain : acknowledges event = false :=
      (List.mem_append.mp member).elim (fun old => (voiced event old).2) fun later => (heard event later).2
    rw [plain] at acknowledged
    simp at acknowledged

theorem perform (held : roster.Held) {action : HostAction} (possible : roster.Possible torrentOf action)
    (timely : roster.Timely action) : (roster.perform action).Held := by
  cases action with
  | addTorrent answers requestId parsed => exact held.addTorrent timely
  | prepareFile answers requestId id fileIndex file => exact held.prepareFile timely
  | removeTorrent answers requestId id => exact held.removeTorrent answers requestId id
  | stopStream answers requestId streamId =>
      exact held.speaks (stopStream_speaks roster.host.backend answers requestId streamId)
  | pollStreams answers polled =>
      exact held.speaks (pollStreams_speaks roster.host.backend answers polled)
  | takeQueued => exact held.quiet rfl (fun _ found => found) (by simp [told])
  | alert answers received =>
      cases received with
      | added context handle error => exact held.added timely
      | fileError handle message => exact held.fileError answers handle message
      | filePriority handle error => exact held.filePriority timely
      | torrentRemoved context hashId =>
          exact held.removed answers (possible.2 answers context hashId rfl)
      | _ => exact held.tells rfl (handleAlert_tells roster.host.backend answers rfl)
  | periodic answers => exact held.tells rfl (runPeriodicSteps_tells roster.host.backend answers)
  | reclaimDiskCache requestId targetBytes =>
      have said := reclaimDiskCache_speaks roster.host.backend requestId targetBytes
      rw [← Host.command_backend roster.host requestId] at said
      exact held.speaks said
  | create handle context => exact held.quiet rfl (fun _ found => found) (by simp [told, Host.perform])
  | learnMetadata handle => exact held.quiet rfl (fun _ found => found) (by simp [told, Host.perform])
  | lose handle => exact held.quiet rfl (fun _ found => found) (by simp [told, Host.perform])
  | http action =>
      exact held.quiet rfl (fun _ found => found) (by simp [told, Host.perform, BackendState.work])

end Held

end Roster

/-- In every run in which nothing is told of a torrent while its removal is under way, a torrent that was
told as added or prepared after the last decision to remove it is known. -/
theorem reachable_retained {torrentOf : Nat → String} {roster : Roster}
    (reached : roster.ReachableTimely torrentOf) : roster.Retained :=
  (reached.invariant (fun _ begins => Roster.Held.initial begins)
    fun _ _ held enabled => held.perform enabled.1 enabled.2).known

/-- A torrent is added, removed, and added again when it is gone. -/
def readded : List (Roster → HostAction) := [
  fun roster => .addTorrent roster.host.twoAnswers 1 (.ok ⟨twoTorrents 8, true⟩),
  fun _ => .create 8 0,
  fun roster => .alert roster.host.twoAnswers (.added (some 0) 8 none),
  fun roster => .removeTorrent roster.host.twoAnswers 2 (twoTorrents 8),
  fun _ => .lose 8,
  fun roster => .alert roster.host.twoAnswers (.torrentRemoved (some 0) (twoTorrents 8)),
  fun roster => .addTorrent roster.host.twoAnswers 3 (.ok ⟨twoTorrents 8, true⟩),
  fun _ => .create 9 1,
  fun roster => .alert roster.host.twoAnswers (.added (some 1) 9 none)]

def readdedRoster (steps : Nat) : Roster :=
  Transition.follow Roster.perform (readded.take steps) { host := Host.start }

theorem reachable_retained_readded :
    (readdedRoster 9).ReachableTimely twoTorrents ∧ twoTorrents 8 ∈ (readdedRoster 9).wanted ∧
      ((readdedRoster 5).host.backend.handles.lookup (twoTorrents 8)).isSome = true ∧
      (readdedRoster 6).host.backend.handles.lookup (twoTorrents 8) = none ∧
      ((readdedRoster 9).host.backend.handles.lookup (twoTorrents 8)).isSome = true := by
  have started : Roster.ReachableTimely twoTorrents { host := Host.start } :=
    .start ⟨_, Host.start_initial, rfl⟩
  have unknown : ∀ (roster : Roster) (answers : Answers) (requestId : Nat),
      roster.host.backend.handles.entries.isEmpty = true →
        roster.Timely (.addTorrent answers requestId (.ok ⟨twoTorrents 8, true⟩)) := by
    rintro roster answers requestId empty id ⟨_, _, handle, found, _⟩
    rw [BackendState.validHandle, AList.lookup_of_isEmpty empty] at found
    simp at found
  have reached : (readdedRoster 9).ReachableTimely twoTorrents := by
    refine started.follow ?_
    refine ⟨⟨⟨⟨by decide, Host.answers_truthful ..⟩, by simp⟩, unknown _ _ _ (by decide +kernel)⟩,
      ⟨⟨⟨rfl, fun other => ?_, by decide +kernel, by decide +kernel⟩, by simp⟩,
        fun _ acknowledged => acknowledged.elim⟩,
      ⟨⟨⟨Host.answers_truthful .., ⟨0, rfl, by decide +kernel, by decide +kernel, by decide +kernel,
        .inl (by decide +kernel), .inr (by decide +kernel)⟩, by decide +kernel⟩, by simp⟩, ?_⟩,
      ⟨⟨⟨by decide +kernel, Host.answers_truthful ..⟩, by simp⟩, fun _ acknowledged => acknowledged.elim⟩,
      ⟨⟨trivial, by simp⟩, fun _ acknowledged => acknowledged.elim⟩,
      ⟨⟨⟨Host.answers_truthful .., trivial, by decide +kernel⟩, ?_⟩,
        fun _ acknowledged => acknowledged.elim⟩,
      ⟨⟨⟨by decide +kernel, Host.answers_truthful ..⟩, by simp⟩, unknown _ _ _ (by decide +kernel)⟩,
      ⟨⟨⟨by decide +kernel, fun other => ?_, by decide +kernel, by decide +kernel⟩, by simp⟩,
        fun _ acknowledged => acknowledged.elim⟩,
      ⟨⟨⟨Host.answers_truthful .., ⟨1, rfl, by decide +kernel, by decide +kernel, by decide +kernel,
        .inl (by decide +kernel), .inr (by decide +kernel)⟩, by decide +kernel⟩, by simp⟩, ?_⟩, trivial⟩
    · simp [Roster.perform, Host.perform, Host.accept_creator, Host.start]
    · rintro id ⟨rfl, _⟩
      exact ⟨by decide +kernel, fun _ => by decide +kernel⟩
    · intro answers context hashId same
      cases same
      decide +kernel
    · by_cases first : other = 8 <;>
        simp [Roster.perform, Host.perform, Host.accept_creator, Host.command_creator,
          Host.collect_creator, Host.start, first]
    · rintro id ⟨rfl, _⟩
      exact ⟨by decide +kernel, fun _ => by decide +kernel⟩
  exact ⟨reached, by decide +kernel, by decide +kernel, by decide +kernel,
    reachable_retained reached _ (by decide +kernel)⟩

/-- The disk cache is over its budget. -/
def Host.fullAnswers (host : Host) : Answers :=
  { host.twoAnswers with disk := { host.twoAnswers.disk with overBudget := .ok true } }

/-- A torrent makes room for another one and is unloaded. It is added again after its removal was given
to the session, and then the alert of that removal comes. -/
def overtakenAdd : List (Roster → HostAction) := [
  fun roster => .addTorrent roster.host.twoAnswers 1 (.ok ⟨twoTorrents 7, true⟩),
  fun _ => .create 7 0,
  fun roster => .alert roster.host.twoAnswers (.added (some 0) 7 none),
  fun roster => .addTorrent roster.host.twoAnswers 2 (.ok ⟨twoTorrents 8, true⟩),
  fun roster => .periodic roster.host.fullAnswers,
  fun roster => .alert roster.host.twoAnswers (.resumeSaved 7),
  fun roster => .addTorrent roster.host.twoAnswers 3 (.ok ⟨twoTorrents 7, true⟩),
  fun _ => .lose 7,
  fun roster => .alert roster.host.twoAnswers (.torrentRemoved (some 0) (twoTorrents 7))]

def overtakenRoster (steps : Nat) : Roster :=
  Transition.follow Roster.perform (overtakenAdd.take steps) { host := Host.start }

/-- The torrent was told as added for the third request and is gone. -/
theorem retained_fails_overtaken :
    Leaving (overtakenRoster 6).host.backend (twoTorrents 7) ∧
      (overtakenRoster 7).host.backend.queuedEvents.map BackendEvent.requestId = [3] ∧
      (overtakenRoster 9).Reachable twoTorrents ∧ twoTorrents 7 ∈ (overtakenRoster 9).wanted ∧
      (overtakenRoster 9).host.backend.handles.lookup (twoTorrents 7) = none ∧
      ¬ (overtakenRoster 9).Retained := by
  have started : Roster.Reachable twoTorrents { host := Host.start } := .start ⟨_, Host.start_initial, rfl⟩
  have full : ∀ host : Host, host.Truthful twoTorrents host.fullAnswers := by
    intro host
    obtain ⟨valid, ids, userdata, status⟩ :=
      host.answers_truthful twoTorrents twoPieces [⟨"video.mp4", 0, 32768⟩] "s"
    exact ⟨valid, ids, userdata, status⟩
  have reached : (overtakenRoster 9).Reachable twoTorrents := by
    refine started.follow ?_
    refine ⟨⟨⟨by decide, Host.answers_truthful ..⟩, by simp⟩,
      ⟨⟨rfl, fun other => ?_, by decide +kernel, by decide +kernel⟩, by simp⟩,
      ⟨⟨Host.answers_truthful .., ⟨0, rfl, by decide +kernel, by decide +kernel, by decide +kernel,
        .inl (by decide +kernel), .inr (by decide +kernel)⟩, by decide +kernel⟩, by simp⟩,
      ⟨⟨by decide +kernel, Host.answers_truthful ..⟩, by simp⟩, ⟨full _, by simp⟩,
      ⟨⟨Host.answers_truthful .., trivial, by decide +kernel⟩, by simp⟩,
      ⟨⟨by decide +kernel, Host.answers_truthful ..⟩, by simp⟩, ⟨trivial, by simp⟩,
      ⟨⟨Host.answers_truthful .., trivial, by decide +kernel⟩, ?_⟩, trivial⟩
    · simp [Roster.perform, Host.perform, Host.accept_creator, Host.start]
    · intro answers context hashId same
      cases same
      decide +kernel
  have wanted : twoTorrents 7 ∈ (overtakenRoster 9).wanted := by decide +kernel
  have gone : (overtakenRoster 9).host.backend.handles.lookup (twoTorrents 7) = none := by decide +kernel
  refine ⟨by decide +kernel, by decide +kernel, reached, wanted, gone, ?_⟩
  intro retained
  have known := retained _ wanted
  rw [gone] at known
  simp at known

end NuvioEngine.Backend
