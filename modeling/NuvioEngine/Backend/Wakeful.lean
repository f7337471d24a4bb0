import NuvioEngine.Backend.Incidental
import NuvioEngine.Bridge.Expiry

/-!
Which torrents each step of the backend can put to sleep. A torrent is awake when it is not warm, not
quiesced and not paused; it is busy when it has a stream or waits for one.
-/

namespace NuvioEngine.Backend

open NuvioEngine.Bridge NuvioEngine.Stream NuvioEngine.Cache BridgeState

structure Awake (backend : BackendState) (id : String) : Prop where
  unwarmed : backend.warmSince.lookup id = none
  unquiesced : id ∉ backend.quiescedTorrents
  running : ∀ handle, backend.handles.lookup id = some handle → (backend.flags handle).paused = false

/-- The torrent has a stream, or will have one when its preparation is done. -/
def Busy (backend : BackendState) (id : String) : Prop :=
  backend.bridge.hasStreamForTorrent id = true ∨ (backend.pendingPrepares.lookup id).isSome

/-- The bridge is consistent and the expired streams have been collected. -/
def Sound (system : System) : Prop :=
  Consistent system ∧ system.bridge.expiredStreams = []

theorem Sound.perform {system : System} (sound : Sound system) {action : Action}
    (possible : system.Possible action) (noPoll : ∀ answers, action ≠ .poll answers)
    (noPop : action ≠ .popExpired) : Sound (system.perform action) :=
  ⟨sound.1.perform possible, (perform_expiredStreams system.bridge noPoll noPop).trans sound.2⟩

theorem Sound.named {backend : BackendState} (sound : Sound backend.system) {id : String}
    (streams : backend.bridge.hasStreamForTorrent id = true) : id ≠ "" := by
  obtain ⟨target, route, registered, rfl⟩ := hasStreamForTorrent_eq_true.mp streams
  exact (sound.1.routing.targets target route registered).2.2

/-- No torrent becomes busy, and no torrent of the kind falls asleep. -/
structure Wakeful (kind : String → Prop) (before after : BackendState) : Prop where
  sound : Sound before.system → Sound after.system
  streams : ∀ id, after.bridge.hasStreamForTorrent id = true → Busy before id
  prepares : ∀ id, (after.pendingPrepares.lookup id).isSome → (before.pendingPrepares.lookup id).isSome
  handles : ∀ id handle, after.handles.lookup id = some handle → before.handles.lookup id = some handle
  awake : ∀ id, kind id → Awake before id → Awake after id

namespace Wakeful

variable {kind : String → Prop} {first second third : BackendState}

theorem refl (backend : BackendState) : Wakeful kind backend backend :=
  ⟨fun sound => sound, fun _ streams => .inl streams, fun _ pending => pending, fun _ _ found => found,
    fun _ _ awake => awake⟩

theorem busy (wakeful : Wakeful kind first second) {id : String} (busy : Busy second id) :
    Busy first id :=
  busy.elim (wakeful.streams id) fun pending => .inr (wakeful.prepares id pending)

theorem trans (left : Wakeful kind first second) (right : Wakeful kind second third) :
    Wakeful kind first third where
  sound := fun sound => right.sound (left.sound sound)
  streams := fun id streams => left.busy (right.streams id streams)
  prepares := fun id pending => left.prepares id (right.prepares id pending)
  handles := fun id handle found => left.handles id handle (right.handles id handle found)
  awake := fun id kept awake => right.awake id kept (left.awake id kept awake)

theorem ofAwake (system : second.system = first.system)
    (prepares : second.pendingPrepares = first.pendingPrepares)
    (handles : second.handles = first.handles)
    (awake : ∀ id, kind id → Awake first id → Awake second id) : Wakeful kind first second where
  sound := fun sound => system ▸ sound
  streams := fun id streams => .inl (by rwa [BackendState.bridge, system] at streams)
  prepares := fun id pending => prepares ▸ pending
  handles := fun id handle found => handles ▸ found
  awake := awake

theorem same (system : second.system = first.system)
    (prepares : second.pendingPrepares = first.pendingPrepares)
    (handles : second.handles = first.handles) (warmSince : second.warmSince = first.warmSince)
    (quiesced : second.quiescedTorrents = first.quiescedTorrents)
    (paused : ∀ handle, (first.flags handle).paused = false → (second.flags handle).paused = false) :
    Wakeful kind first second := by
  refine .ofAwake system prepares handles fun id _ awake => ⟨?_, ?_, ?_⟩
  · rw [warmSince]
    exact awake.unwarmed
  · rw [quiesced]
    exact awake.unquiesced
  · rw [handles]
    exact fun handle found => paused handle (awake.running handle found)

theorem ofIncidental (incidental : Incidental first second) : Wakeful kind first second := by
  refine .same incidental.system incidental.pendingPrepares incidental.handles incidental.warmSince
    incidental.quiescedTorrents fun handle => ?_
  rw [incidental.flags]
  exact fun unpaused => unpaused

end Wakeful

namespace BackendState

variable {kind : String → Prop} {backend next : BackendState}

theorem call_wakeful {answers : Answers} {handle : Nat} {call : HandleCall}
    (sent : backend.call answers handle call = .ok next) (unpausing : call ≠ .pause) :
    Wakeful kind backend next := by
  rw [call_eq_ok sent]
  refine .same rfl rfl rfl rfl rfl fun other unpaused => ?_
  simp only [Function.update_apply]
  split
  · rename_i same
    rw [same] at unpaused
    cases call <;> simp_all [TorrentFlags.apply]
  · exact unpaused

theorem setContext_wakeful (backend : BackendState) (context : Nat)
    (change : RequestContext → RequestContext) : Wakeful kind backend (backend.setContext context change) :=
  .same rfl rfl rfl rfl rfl fun _ unpaused => unpaused

theorem markWarm_wakeful (backend : BackendState) (now : Nat) (id : String)
    (other : ∀ kept, kind kept → kept ≠ id) : Wakeful kind backend (backend.markWarm now id) := by
  unfold markWarm
  split
  · exact .refl backend
  · refine .ofAwake rfl rfl rfl fun kept isKept awake => ⟨?_, awake.unquiesced, awake.running⟩
    rw [AList.lookup_insert_ne (other kept isKept)]
    exact awake.unwarmed

/-- Different torrents have different handles, as far as the handles are valid. -/
def Distinct (answers : Answers) (backend : BackendState) : Prop :=
  ∀ id other handle, backend.handles.lookup id = some handle → backend.handles.lookup other = some handle →
    answers.lt.isValid handle = true → other = id

/-- Pausing the torrent behind a handle and quiescing it leaves every other torrent awake. -/
theorem pause_awake {answers : Answers} {id other : String} {handle : Nat}
    (distinct : Distinct answers backend) (found : backend.handles.lookup id = some handle)
    (valid : answers.lt.isValid handle = true)
    (sent : backend.call answers handle .pause = .ok next) (different : other ≠ id)
    (awake : Awake backend other) : Awake next other := by
  rw [call_eq_ok sent]
  refine ⟨awake.unwarmed, awake.unquiesced, fun held known => ?_⟩
  have unpaused := awake.running held known
  simp only [Function.update_apply]
  split
  · rename_i same
    exact absurd (distinct id other handle found (same ▸ known) valid) different
  · exact unpaused

/-- The torrents that `focus_torrent` puts to sleep. -/
def Focusable (backend : BackendState) (answers : Answers) (requestedId id : String) (handle : Nat) :
    Prop :=
  backend.handles.lookup id = some handle ∧ id ≠ requestedId ∧ answers.lt.isValid handle = true ∧
    backend.bridge.hasStreamForTorrent id = false

theorem markWarm_eq (backend : BackendState) (now : Nat) (id : String) :
    backend.markWarm now id = { backend with warmSince := (backend.markWarm now id).warmSince } := by
  unfold markWarm
  split <;> rfl

theorem focusOne_eq (answers : Answers) (requestedId : String) (backend : BackendState)
    (entry : Sigma fun _ : String => Nat) :
    focusOne answers requestedId backend entry = { backend with
      flags := (focusOne answers requestedId backend entry).flags
      warmSince := (focusOne answers requestedId backend entry).warmSince
      quiescedTorrents := (focusOne answers requestedId backend entry).quiescedTorrents } := by
  unfold focusOne
  split
  · rfl
  · split
    · rfl
    · rename_i uploading sent
      split
      · rw [call_eq_ok sent]
      · rename_i paused stopped
        simp only
        rw [markWarm_eq, call_eq_ok stopped, call_eq_ok sent]

theorem focusOne_wakeful {answers : Answers} {requestedId : String} {backend : BackendState}
    {entry : Sigma fun _ : String => Nat} (known : backend.handles.lookup entry.1 = some entry.2)
    (distinct : Distinct answers backend)
    (spared : backend.Focusable answers requestedId entry.1 entry.2 → ¬ kind entry.1) :
    Wakeful kind backend (focusOne answers requestedId backend entry) := by
  unfold focusOne
  split
  · exact .refl backend
  · rename_i focused
    simp only [not_or, Bool.not_eq_true', Bool.not_eq_false, Bool.not_eq_true] at focused
    have other : ∀ kept, kind kept → kept ≠ entry.1 :=
      fun kept isKept same => spared ⟨known, focused⟩ (same ▸ isKept)
    split
    · exact .refl backend
    · rename_i uploading sent
      have first : Wakeful kind backend uploading := call_wakeful sent (by simp)
      split
      · exact first
      · rename_i paused stopped
        have handles : uploading.handles = backend.handles := by rw [call_eq_ok sent]
        have second : Wakeful kind uploading paused := by
          refine .ofAwake ?_ ?_ ?_ fun kept isKept awake =>
            pause_awake (fun id other handle => ?_) (handles ▸ known) focused.2.1 stopped
              (other kept isKept) awake
          · rw [call_eq_ok stopped]
          · rw [call_eq_ok stopped]
          · rw [call_eq_ok stopped]
          · rw [handles]
            exact distinct id other handle
        have third : Wakeful kind paused (paused.markWarm answers.lt.now entry.1) :=
          markWarm_wakeful paused _ entry.1 other
        refine ((first.trans second).trans third).trans ?_
        refine .ofAwake rfl rfl rfl fun kept isKept awake => ⟨awake.unwarmed, ?_, awake.running⟩
        rw [List.mem_insert_iff, not_or]
        exact ⟨other kept isKept, awake.unquiesced⟩

theorem focusTorrent_eq (backend : BackendState) (answers : Answers) (requestedId : String) :
    backend.focusTorrent answers requestedId = { backend with
      flags := (backend.focusTorrent answers requestedId).flags
      warmSince := (backend.focusTorrent answers requestedId).warmSince
      quiescedTorrents := (backend.focusTorrent answers requestedId).quiescedTorrents } := by
  unfold focusTorrent
  generalize backend.handles.entries = entries
  induction entries generalizing backend with
  | nil => rfl
  | cons entry rest ih =>
      rw [List.foldl_cons, ih, focusOne_eq]

/-- Focusing on a torrent wakes none, and puts no torrent to sleep that has a stream or no valid
handle. -/
theorem focusTorrent_wakeful {answers : Answers} {requestedId : String} (distinct : Distinct answers backend)
    (spared : ∀ id handle, backend.Focusable answers requestedId id handle → ¬ kind id) :
    Wakeful kind backend (backend.focusTorrent answers requestedId) := by
  have known : ∀ entry ∈ backend.handles.entries, backend.handles.lookup entry.1 = some entry.2 :=
    fun entry member => (AList.lookup_eq_some_iff _ _ _).mpr member
  unfold focusTorrent
  generalize backend.handles.entries = entries at known ⊢
  induction entries generalizing backend with
  | nil => exact .refl backend
  | cons entry rest ih =>
      have same := focusOne_eq answers requestedId backend entry
      have here := focusOne_wakeful (known entry List.mem_cons_self) distinct (spared entry.1 entry.2)
      refine here.trans (ih ?_ ?_ ?_)
      · rw [same]
        exact distinct
      · rw [same]
        exact spared
      · rw [same]
        exact fun other member => known other (List.mem_cons_of_mem _ member)

theorem activateTorrent_wakeful (backend : BackendState) (answers : Answers) (id : String) (handle : Nat) :
    Wakeful kind backend (backend.activateTorrent answers id handle).1 := by
  have kept : Wakeful kind backend { backend with
      pendingCacheUnloads := backend.pendingCacheUnloads.filter fun other => other ≠ id } :=
    .same rfl rfl rfl rfl rfl fun _ unpaused => unpaused
  unfold activateTorrent
  simp only
  split
  · exact kept
  · rename_i uploading sent
    split
    · exact kept.trans (call_wakeful sent (by simp))
    · rename_i resumed woken
      refine ((kept.trans (call_wakeful sent (by simp))).trans (call_wakeful woken (by simp))).trans ?_
      refine .ofAwake rfl rfl rfl fun other _ awake => ⟨?_, ?_, awake.running⟩
      · rw [AList.lookup_erase_ite]
        split
        · rfl
        · exact awake.unwarmed
      · exact fun member => awake.unquiesced (List.mem_filter.mp member).1

theorem activateTorrent_system (backend : BackendState) (answers : Answers) (id : String) (handle : Nat) :
    (backend.activateTorrent answers id handle).1.system = backend.system := by
  unfold activateTorrent
  simp only
  split
  · rfl
  · rename_i uploading sent
    split
    · rw [call_eq_ok sent]
    · rename_i resumed woken
      rw [call_eq_ok woken, call_eq_ok sent]

theorem activateTorrent_awake {answers : Answers} {id : String} {handle : Nat}
    (known : backend.handles.lookup id = some handle)
    (activated : backend.activateTorrent answers id handle = (next, none)) : Awake next id := by
  unfold activateTorrent at activated
  simp only at activated
  split at activated
  · simp at activated
  · rename_i uploading sent
    split at activated
    · simp at activated
    · rename_i resumed woken
      obtain rfl := (Prod.mk.inj activated).1
      rw [call_eq_ok woken, call_eq_ok sent]
      refine ⟨AList.lookup_erase _ _, by simp, fun held found => ?_⟩
      obtain rfl : handle = held := Option.some.inj (known.symm.trans found)
      simp [TorrentFlags.apply]

theorem addExisting_wakeful (backend : BackendState) (answers : Answers) (requestId : Nat) (id : String)
    (handle : Nat) : Wakeful kind backend (backend.addExisting answers requestId id handle).1 := by
  have activates : Wakeful kind backend (backend.activateTorrent answers id handle).1 :=
    activateTorrent_wakeful backend answers id handle
  unfold addExisting
  split
  · rename_i stopped thrown result
    rw [result] at activates
    exact activates
  · rename_i activated result
    rw [result] at activates
    extract_lets recorded added request
    have woken : Wakeful kind backend recorded := by
      unfold recorded
      refine activates.trans ?_
      split
      · exact .refl activated
      · exact setContext_wakeful activated _ _
    have told : Wakeful kind backend added := woken.trans (.ofIncidental (queue_incidental _ _))
    split
    · exact told
    · exact told
    · split
      · exact told
      · exact told.trans (.ofIncidental (queue_incidental _ _))

theorem addNew_wakeful (backend : BackendState) (answers : Answers) (requestId : Nat)
    (source : TorrentSource) : Wakeful kind backend (backend.addNew answers requestId source).1 := by
  unfold addNew
  extract_lets loaded context
  have woken : Wakeful kind backend loaded := by
    unfold loaded
    split
    · exact .refl backend
    · exact .ofIncidental (queue_incidental backend _)
  split
  · exact woken
  · split
    · exact woken
    · exact woken.trans (.same rfl rfl rfl rfl rfl fun _ unpaused => unpaused)

theorem addTorrent_wakeful {answers : Answers} {requestId : Nat} {parsed : Except Thrown TorrentSource}
    (distinct : Distinct answers backend)
    (spared : ∀ source, parsed = .ok source →
      ∀ id handle, backend.Focusable answers source.id id handle → ¬ kind id) :
    Wakeful kind backend (backend.addTorrent answers requestId parsed).1 := by
  unfold addTorrent
  split
  · exact .refl backend
  · rename_i source
    have focuses := focusTorrent_wakeful distinct (spared source rfl)
    split
    · exact .refl backend
    · simp only
      split
      · exact focuses.trans (addExisting_wakeful _ answers requestId source.id _)
      · exact focuses.trans (addNew_wakeful _ answers requestId source)

theorem work_wakeful {action : Action} (possible : Sound backend.system → backend.system.Possible action)
    (noPoll : ∀ answers, action ≠ .poll answers) (noPop : action ≠ .popExpired)
    (streams : ∀ id, (backend.bridge.perform action).hasStreamForTorrent id = true → Busy backend id) :
    Wakeful kind backend (backend.work action) :=
  ⟨fun sound => sound.perform (possible sound) noPoll noPop, streams, fun _ pending => pending,
    fun _ _ found => found, fun _ _ awake => ⟨awake.unwarmed, awake.unquiesced, awake.running⟩⟩

theorem http_wakeful {action : Action} (http : isHttp action = true)
    (possible : backend.system.Possible action) : Wakeful kind backend (backend.work action) := by
  have routes : (backend.bridge.perform action).routes = backend.bridge.routes := by
    cases action with
    | beginRequest route bodyRange => exact beginRequest_routes backend.bridge route bodyRange
    | readRequest command => exact enqueue_routes _ command
    | acquireRequest streamId | releaseRequest streamId now | endRequest demandId
    | abandonWaiter waiter => rfl
    | register | stop | remove | poll | popExpired | readPieceAlert | blockFinished | hashFailed =>
        simp [isHttp] at http
  refine work_wakeful (fun _ => possible) ?_ ?_ fun id streams => .inl ?_
  · rintro answers rfl
    simp [isHttp] at http
  · rintro rfl
    simp [isHttp] at http
  · rwa [BridgeState.hasStreamForTorrent, routes] at streams

theorem remove_wakeful (backend : BackendState) (lt : Libtorrent) (id : String) :
    Wakeful kind backend (backend.work (.remove lt id)) :=
  work_wakeful (fun _ => trivial) (by simp) (by simp)
    fun _ streams => .inl ((removeTorrent_works lt backend.bridge id).streams streams)

theorem dropPrepare_wakeful (backend : BackendState) (id : String) :
    Wakeful kind backend (backend.dropPrepare id) := by
  refine ⟨fun sound => sound, fun _ streams => .inl streams, fun other pending => ?_,
    fun _ _ found => found, fun _ _ awake => ⟨awake.unwarmed, awake.unquiesced, awake.running⟩⟩
  simp only [dropPrepare, AList.lookup_erase_ite] at pending
  split at pending
  · simp at pending
  · exact pending

theorem cleared_wakeful (backend : BackendState) (id : String) :
    Wakeful kind backend { backend with
      warmSince := backend.warmSince.erase id
      quiescedTorrents := backend.quiescedTorrents.filter fun other => other ≠ id } :=
  .ofAwake rfl rfl rfl fun _ _ awake => ⟨AList.lookup_erase_of_none awake.unwarmed,
    fun member => awake.unquiesced (List.mem_filter.mp member).1, awake.running⟩

theorem markRemoved_wakeful (backend : BackendState) (context : Option Nat) (removed : Bool) :
    Wakeful kind backend (backend.markRemoved context removed) := by
  unfold markRemoved
  split
  · exact .refl backend
  · exact setContext_wakeful backend _ _

theorem removeAccepted_wakeful (backend : BackendState) (answers : Answers) (requestId : Nat)
    (id : String) (context : Option Nat) :
    Wakeful kind backend (backend.removeAccepted answers requestId id context) := by
  have forgotten : Wakeful kind backend (backend.forgetResumeSave context) :=
    .ofIncidental (forgetResumeSave_incidental backend context)
  have erased := ((forgotten.trans (cleared_wakeful _ id)).trans (remove_wakeful _ answers.lt id)).trans
    (.ofIncidental (eraseResume_incidental _ answers id (queue_incidental _) requestId))
  unfold removeAccepted
  simp only
  split
  · exact erased
  · exact (erased.trans (dropPrepare_wakeful _ id)).trans (.ofIncidental (queue_incidental _ _))

theorem removeTorrent_wakeful (backend : BackendState) (answers : Answers) (requestId : Nat)
    (id : String) : Wakeful kind backend (backend.removeTorrent answers requestId id).1 := by
  unfold removeTorrent
  split
  · exact .refl backend
  · rename_i handle _
    split
    · exact .refl backend
    · have marked : Wakeful kind backend (backend.markRemoved (answers.userdata handle) true) :=
        markRemoved_wakeful backend _ true
      simp only
      split
      · refine (marked.trans ?_).trans (markRemoved_wakeful _ _ false)
        exact .ofIncidental (.bookkeeping rfl)
      · refine (marked.trans ?_).trans (removeAccepted_wakeful _ answers requestId id _)
        exact .same rfl rfl rfl rfl rfl fun _ unpaused => unpaused

theorem cool_wakeful (backend : BackendState) (answers : Answers) (id : String)
    (other : ∀ kept, kind kept → kept ≠ id) : Wakeful kind backend (backend.cool answers id) := by
  have warm : Wakeful kind backend (backend.markWarm answers.lt.now id) :=
    markWarm_wakeful backend _ id other
  unfold cool callQuietly
  simp only
  split
  · exact warm
  · split
    · exact warm
    · split
      · exact warm
      · rename_i sent
        exact warm.trans (call_wakeful sent (by simp))

theorem cool_same (backend : BackendState) (answers : Answers) (id : String) :
    (backend.cool answers id).system = backend.system ∧
      (backend.cool answers id).pendingPrepares = backend.pendingPrepares := by
  unfold cool callQuietly
  simp only
  rw [markWarm_eq]
  split
  · exact ⟨rfl, rfl⟩
  · split
    · exact ⟨rfl, rfl⟩
    · split
      · exact ⟨rfl, rfl⟩
      · rename_i sent
        rw [call_eq_ok sent]
        exact ⟨rfl, rfl⟩

theorem stopStream_same (backend : BackendState) (answers : Answers) (requestId : Nat)
    (streamId : String) :
    (backend.stopStream answers requestId streamId).bridge =
        (BridgeState.stopStream answers.lt backend.bridge streamId).1 ∧
      (backend.stopStream answers requestId streamId).pendingPrepares = backend.pendingPrepares := by
  unfold BackendState.stopStream
  simp only
  split
  · exact ⟨rfl, rfl⟩
  · obtain ⟨system, prepares⟩ := cool_same (backend.work (.stop answers.lt streamId)) answers
      (BridgeState.stopStream answers.lt backend.bridge streamId).2
    exact ⟨congrArg System.bridge system, prepares⟩

theorem expireStreams_same (answers : Answers) (expired : List StoppedStream) (backend : BackendState) :
    (expired.foldl (expireStream answers) backend).system = backend.system ∧
      (expired.foldl (expireStream answers) backend).pendingPrepares = backend.pendingPrepares := by
  induction expired generalizing backend with
  | nil => exact ⟨rfl, rfl⟩
  | cons stream rest ih =>
      obtain ⟨system, prepares⟩ := cool_same backend answers stream.torrentId
      obtain ⟨laterSystem, laterPrepares⟩ := ih (expireStream answers backend stream)
      exact ⟨laterSystem.trans system, laterPrepares.trans prepares⟩

theorem stopStream_wakeful (backend : BackendState) (answers : Answers) (requestId : Nat)
    (streamId : String)
    (other : ∀ kept, kind kept → kept ≠ (BridgeState.stopStream answers.lt backend.bridge streamId).2) :
    Wakeful kind backend (backend.stopStream answers requestId streamId) := by
  have stopped : Wakeful kind backend (backend.work (.stop answers.lt streamId)) :=
    work_wakeful (fun _ => trivial) (by simp) (by simp)
      fun _ streams => .inl ((stopStream_works answers.lt backend.bridge streamId).streams streams)
  unfold BackendState.stopStream
  simp only
  split
  · exact stopped.trans (.ofIncidental (queue_incidental _ _))
  · exact (stopped.trans (cool_wakeful _ answers _ other)).trans (.ofIncidental (queue_incidental _ _))

theorem expireStreams_wakeful (answers : Answers) (expired : List StoppedStream) (backend : BackendState)
    (other : ∀ kept, kind kept → ∀ stream ∈ expired, kept ≠ stream.torrentId) :
    Wakeful kind backend (expired.foldl (expireStream answers) backend) := by
  induction expired generalizing backend with
  | nil => exact .refl backend
  | cons stream rest ih =>
      have here : Wakeful kind backend (expireStream answers backend stream) :=
        (cool_wakeful backend answers stream.torrentId
          fun kept isKept => other kept isKept stream List.mem_cons_self).trans
          (.ofIncidental (queue_incidental _ _))
      exact here.trans (ih _ fun kept isKept later member =>
        other kept isKept later (List.mem_cons_of_mem _ member))

theorem pollStreams_same (answers : Answers) {polled : PollAnswers}
    (quiet : (backend.bridge.poll polled).2 = false) :
    (backend.pollStreams answers polled).1.bridge.routes = (backend.bridge.poll polled).1.routes ∧
      (backend.pollStreams answers polled).1.pendingPrepares = backend.pendingPrepares := by
  unfold pollStreams
  simp only
  rw [if_neg (by simp [quiet])]
  obtain ⟨system, prepares⟩ := expireStreams_same answers
    (backend.bridge.poll polled).1.expiredStreams ((backend.work (.poll polled)).work .popExpired)
  exact ⟨congrArg (fun system => system.bridge.routes) system, prepares⟩

/-- The first part of `pop_events` makes no torrent warm but those of the streams that expired. -/
theorem pollStreams_wakeful {answers : Answers} {polled : PollAnswers}
    (quiet : (backend.bridge.poll polled).2 = false)
    (other : ∀ kept, kind kept → ∀ stream ∈ (backend.bridge.poll polled).1.expiredStreams,
      kept ≠ stream.torrentId) :
    Wakeful kind backend (backend.pollStreams answers polled).1 := by
  have popped : Wakeful kind backend ((backend.work (.poll polled)).work .popExpired) := by
    refine ⟨fun sound => ?_, fun id streams => .inl ?_, fun _ pending => pending,
      fun _ _ found => found, fun _ _ awake => ⟨awake.unwarmed, awake.unquiesced, awake.running⟩⟩
    · have polls : Consistent (backend.system.perform (.poll polled)) :=
        sound.1.perform (show backend.system.Possible (.poll polled) from quiet)
      have pops : (backend.system.perform (.poll polled)).Possible .popExpired := trivial
      exact ⟨polls.perform pops, rfl⟩
    · exact (poll_works backend.bridge polled).streams streams
  unfold pollStreams
  simp only
  rw [if_neg (by simp [quiet])]
  exact popped.trans (expireStreams_wakeful answers _ _ other)

theorem retire_wakeful (backend : BackendState) (id : String) :
    Wakeful kind backend (backend.retire id) := by
  unfold retire
  split
  · exact .refl backend
  · exact .same rfl rfl rfl rfl rfl fun _ unpaused => unpaused

theorem dropPending_wakeful (backend : BackendState) (context : Option Nat) :
    Wakeful kind backend (backend.dropPending context) :=
  .same rfl rfl rfl rfl rfl fun _ unpaused => unpaused

theorem adopt_wakeful (backend : BackendState) (answers : Answers) (id : String) (handle : Nat)
    (context : Option Nat) : Wakeful kind backend (backend.adopt answers id handle context) := by
  unfold adopt
  split
  · exact .refl backend
  · rename_i shared
    have named : Wakeful kind backend
        (backend.setContext shared fun request => { request with torrentId := id }) :=
      setContext_wakeful backend shared _
    simp only
    split
    · refine ((named.trans (retire_wakeful _ id)).trans ?_).trans (dropPending_wakeful _ _)
      exact .same rfl rfl rfl rfl rfl fun _ unpaused => unpaused
    · exact named

theorem emitMetadata_wakeful (backend : BackendState) (answers : Answers) (handle : Nat)
    (context : Option Nat) (source : MetadataSource) :
    Wakeful kind backend (backend.emitMetadata answers handle context source).1 := by
  unfold emitMetadata
  extract_lets marked
  have woken : Wakeful kind backend marked := by
    unfold marked
    split
    · exact .refl backend
    · exact setContext_wakeful backend _ _
  split
  · exact woken
  · exact woken.trans (.ofIncidental (emit_incidental _ _))

theorem announce_wakeful (backend : BackendState) (answers : Answers) (handle : Nat)
    (context : Option Nat) : Wakeful kind backend (backend.announce answers handle context).1 := by
  unfold announce
  split
  · exact .refl backend
  · exact .refl backend
  · exact .refl backend
  · rename_i shared _
    split
    · exact .refl backend
    · simp only
      have told : Wakeful kind backend (backend.emitMetadata answers handle (some shared)
          (backend.contexts shared).metadataSource).1 :=
        emitMetadata_wakeful backend answers handle _ _
      split
      · rename_i result
        rw [result] at told
        exact told
      · rename_i result
        rw [result] at told
        split
        · exact told
        · exact told.trans (.ofIncidental (requestResumeSave_incidental _ answers handle))

theorem handleAdded_error_wakeful (backend : BackendState) (answers : Answers) (context : Option Nat)
    (handle : Nat) (message : String) :
    Wakeful kind backend (backend.handleAdded answers context handle (some message)).1 :=
  Wakeful.trans (.ofIncidental (emit_incidental backend _)) (dropPending_wakeful _ context)

theorem handleAdded_wakeful (backend : BackendState) (answers : Answers) (context : Option Nat)
    (handle : Nat) :
    Wakeful kind { backend with handles := backend.handles.insert (answers.torrentId handle) handle }
      (backend.handleAdded answers context handle none).1 := by
  unfold handleAdded
  simp only
  split
  · exact .refl _
  · rename_i announced sent
    rw [announceAdded_eq_ok sent]
    refine Wakeful.trans (adopt_wakeful _ answers (answers.torrentId handle) handle context) ?_
    refine Wakeful.trans (.ofIncidental (emit_incidental _
      { type := .torrentAdded
        requestId := backend.requestOf context
        torrentId := answers.torrentId handle })) ?_
    generalize ({ backend with
      handles := backend.handles.insert (answers.torrentId handle) handle }.adopt answers
        (answers.torrentId handle) handle context).emit _ = told
    have finishes : Wakeful kind told (told.announce answers handle context).1 :=
      announce_wakeful told answers handle context
    split
    · rename_i result
      rw [result] at finishes
      exact finishes
    · rename_i result
      rw [result] at finishes
      exact finishes.trans (dropPending_wakeful _ context)

theorem handleMetadata_wakeful (backend : BackendState) (answers : Answers) (handle : Nat) :
    Wakeful kind backend (backend.handleMetadata answers handle).1 := by
  have told : Wakeful kind backend
      (backend.emitMetadata answers handle (answers.userdata handle) .cold).1 :=
    emitMetadata_wakeful backend answers handle _ .cold
  unfold handleMetadata
  simp only
  split
  · exact .refl backend
  · split
    · rename_i result
      rw [result] at told
      exact told
    · rename_i result
      rw [result] at told
      exact told.trans (.ofIncidental (requestResumeSave_incidental _ answers handle))

theorem preparedEvent_wakeful {answers : Answers} {handle : Nat} {id : String} {prepare : PendingPrepare}
    {event : BackendEvent} (prepared : backend.preparedEvent answers handle id prepare = .ok (next, event))
    (unused : answers.token ∉ backend.system.registered.map StreamRoute.streamId) (named : id ≠ "")
    (busy : Busy backend id) : Wakeful kind backend next := by
  rw [preparedEvent_eq_ok prepared]
  refine work_wakeful (fun _ => ⟨unused, named⟩) (by simp) (by simp) fun other streams => ?_
  rcases register_streams streams with rfl | before
  · exact busy
  · exact .inl before

theorem finishPrepare_wakeful {answers : Answers} {handle : Nat} {id : String} {prepare : PendingPrepare}
    (unused : answers.token ∉ backend.system.registered.map StreamRoute.streamId) (named : id ≠ "")
    (pending : (backend.pendingPrepares.lookup id).isSome) :
    Wakeful kind backend (backend.finishPrepare answers handle id prepare).1 := by
  unfold finishPrepare
  split
  · exact .refl backend
  · rename_i downloading sent
    have first : Wakeful kind backend downloading := call_wakeful sent (by simp)
    split
    · exact first
    · rename_i registered event prepared
      have same := call_eq_ok sent
      have second : Wakeful kind downloading registered :=
        preparedEvent_wakeful prepared (by rw [same]; exact unused) named (.inr (by rw [same]; exact pending))
      exact ((first.trans second).trans (.ofIncidental (emit_incidental _ event))).trans
        (.ofIncidental (requestResumeSave_incidental _ answers handle))

theorem handleFilePriority_wakeful {answers : Answers} (handle : Nat) (error : Option String)
    (unused : answers.token ∉ backend.system.registered.map StreamRoute.streamId)
    (named : backend.pendingPrepares.lookup "" = none) :
    Wakeful kind backend (backend.handleFilePriority answers handle error).1 := by
  unfold handleFilePriority
  simp only
  split
  · exact .refl backend
  · rename_i prepare pending
    have fails : ∀ other message, Wakeful kind other
        ((other.emitPrepareError (answers.torrentId handle) prepare message).dropPrepare
          (answers.torrentId handle)) :=
      fun other message => Wakeful.trans (.ofIncidental (emit_incidental other _)) (dropPrepare_wakeful _ _)
    split
    · exact fails backend _
    · have finished : Wakeful kind backend
          (backend.finishPrepare answers handle (answers.torrentId handle) prepare).1 := by
        refine finishPrepare_wakeful unused ?_ (by simp [pending])
        intro empty
        rw [empty, named] at pending
        simp at pending
      split
      · rename_i result
        rw [result] at finished
        exact finished.trans (dropPrepare_wakeful _ _)
      · rename_i result
        rw [result] at finished
        exact finished.trans (fails _ _)
      · rename_i result
        rw [result] at finished
        exact finished

theorem handleFileError_wakeful (backend : BackendState) (answers : Answers) (handle : Nat)
    (message : String) : Wakeful kind backend (backend.handleFileError answers handle message) := by
  unfold handleFileError
  simp only
  split
  · exact .refl backend
  · exact Wakeful.trans (.ofIncidental (emit_incidental backend _)) (dropPrepare_wakeful _ _)

theorem forgotten_wakeful (backend : BackendState) (id : String) (event : BackendEvent)
    (removals : HashMap String Nat) :
    Wakeful kind backend { backend.emit event with
      pendingCacheRemovals := backend.pendingCacheRemovals.filter fun other => other ≠ id
      pendingCacheUnloads := backend.pendingCacheUnloads.filter fun other => other ≠ id
      pendingRemovals := removals
      handles := backend.handles.erase id
      warmSince := backend.warmSince.erase id
      quiescedTorrents := backend.quiescedTorrents.filter fun other => other ≠ id } := by
  have kept : ∀ other handle, (backend.handles.erase id).lookup other = some handle →
      backend.handles.lookup other = some handle := by
    intro other handle found
    rw [AList.lookup_erase_ite] at found
    split at found
    · simp at found
    · exact found
  exact ⟨fun sound => sound, fun _ streams => .inl streams, fun _ pending => pending, kept,
    fun _ _ awake => ⟨AList.lookup_erase_of_none awake.unwarmed,
      fun member => awake.unquiesced (List.mem_filter.mp member).1,
      fun handle found => awake.running handle (kept _ handle found)⟩⟩

theorem handleRemoved_wakeful (backend : BackendState) (answers : Answers) (context : Option Nat)
    (hashId : String) : Wakeful kind backend (backend.handleRemoved answers context hashId) := by
  unfold handleRemoved
  simp only
  generalize backend.idOf context hashId = id
  have cleaned : ∀ event removals, Wakeful kind backend
      ((({ backend.emit event with
        pendingCacheRemovals := backend.pendingCacheRemovals.filter fun other => other ≠ id
        pendingCacheUnloads := backend.pendingCacheUnloads.filter fun other => other ≠ id
        pendingRemovals := removals
        handles := backend.handles.erase id
        warmSince := backend.warmSince.erase id
        quiescedTorrents := backend.quiescedTorrents.filter fun other => other ≠ id }.work
          (.remove answers.lt id)).dropPrepare id).forgetResumeSave context) :=
    fun event removals => (((forgotten_wakeful backend id event removals).trans
      (remove_wakeful _ answers.lt id)).trans (dropPrepare_wakeful _ id)).trans
        (.ofIncidental (forgetResumeSave_incidental _ context))
  have finishes : ∀ current, Wakeful kind backend current → Wakeful kind backend
      (if answers.disk.reading = true then
        { current.retire id with nextDiskCacheCheck := answers.lt.now + 1000 }
      else (current.retire id).enforceDiskCache answers) := by
    intro current before
    have retired := before.trans (retire_wakeful current id)
    split
    · exact retired.trans (.ofIncidental (.bookkeeping rfl))
    · exact retired.trans (.ofIncidental (enforceDiskCache_incidental _ answers))
  refine finishes _ ?_
  split
  · exact cleaned _ _
  · exact (cleaned _ _).trans (.ofIncidental (eraseResume_incidental _ answers id (emit_incidental _) _))

theorem handleAlert_wakeful {answers : Answers} {alert : BackendAlert}
    (unused : answers.token ∉ backend.system.registered.map StreamRoute.streamId)
    (named : backend.pendingPrepares.lookup "" = none)
    (old : ∀ context handle, alert ≠ .added context handle none) :
    Wakeful kind backend (backend.handleAlert answers alert).1 := by
  cases alert with
  | added context handle error =>
      cases error with
      | none => exact absurd rfl (old context handle)
      | some message => exact handleAdded_error_wakeful backend answers context handle message
  | metadataReceived handle => exact handleMetadata_wakeful backend answers handle
  | torrentError handle message => exact .ofIncidental (handleError_incidental backend answers handle message)
  | fileError handle message => exact handleFileError_wakeful backend answers handle message
  | filePriority handle error => exact handleFilePriority_wakeful handle error unused named
  | resumeSaved handle => exact .ofIncidental (handleResumeSaved_incidental backend answers handle)
  | resumeSaveFailed handle notModified message =>
      exact .ofIncidental (handleResumeSaveFailed_incidental backend answers handle notModified message)
  | torrentFinished handle => exact .ofIncidental (requestResumeSave_incidental backend answers handle)
  | torrentRemoved context hashId => exact handleRemoved_wakeful backend answers context hashId
  | readPiece alert =>
      exact work_wakeful (fun _ => trivial) (by simp) (by simp) fun _ streams =>
        .inl ((Works.ofLeaves (handleReadPiece_leaves backend.bridge alert)).streams streams)
  | blockFinished torrentId piece block =>
      exact work_wakeful (fun _ => trivial) (by simp) (by simp) fun _ streams =>
        .inl ((Works.ofLeaves (handleBlockFinished_leaves answers.lt backend.bridge torrentId piece
          block)).streams streams)
  | hashFailed torrentId piece =>
      exact work_wakeful (fun _ => trivial) (by simp) (by simp) fun _ streams =>
        .inl ((Works.ofLeaves (handleHashFailed_leaves backend.bridge torrentId piece)).streams streams)
  | dhtBootstrap =>
      have ready : Wakeful kind backend { backend with dhtReady := true } := .ofIncidental (.bookkeeping rfl)
      exact ready.trans (.ofIncidental (announceEach_incidental answers (fun _ => rfl) _ _))

theorem quiesceOne_wakeful {answers : Answers} {id : String} {since : Nat}
    (distinct : Distinct answers backend) (warm : (backend.warmSince.lookup id).isSome) :
    Wakeful kind backend (backend.quiesceOne answers id since).1 := by
  unfold quiesceOne
  split
  · exact .refl backend
  · split
    · exact .refl backend
    · rename_i handle found
      obtain ⟨known, valid⟩ := validHandle_eq_some found
      have saving := requestResumeSave_incidental backend answers handle
      have first : Wakeful kind backend (backend.requestResumeSave answers handle) := .ofIncidental saving
      split
      · exact first
      · rename_i paused stopped
        have other : ∀ after : BackendState, after.warmSince = backend.warmSince → ∀ kept,
            Awake after kept → kept ≠ id := by
          rintro after same kept awake rfl
          have unwarmed := awake.unwarmed
          rw [same] at unwarmed
          simp [unwarmed] at warm
        have second : Wakeful kind (backend.requestResumeSave answers handle) paused := by
          refine .ofAwake ?_ ?_ ?_ fun kept _ awake =>
            pause_awake ?_ (saving.handles ▸ known) valid stopped
              (other _ saving.warmSince kept awake) awake
          · rw [call_eq_ok stopped]
          · rw [call_eq_ok stopped]
          · rw [call_eq_ok stopped]
          · unfold Distinct
            rw [saving.handles]
            exact distinct
        split
        · exact first.trans second
        · rename_i uploading sent
          have third : Wakeful kind paused uploading := call_wakeful sent (by simp)
          refine (first.trans second).trans (third.trans ?_)
          refine .ofAwake rfl rfl rfl fun kept _ awake => ⟨awake.unwarmed, ?_, awake.running⟩
          have same : uploading.warmSince = backend.warmSince := by
            rw [call_eq_ok sent, call_eq_ok stopped]
            exact saving.warmSince
          rw [List.mem_insert_iff, not_or]
          exact ⟨other uploading same kept awake, awake.unquiesced⟩

theorem quiesceOne_same (backend : BackendState) (answers : Answers) (id : String) (since : Nat) :
    (backend.quiesceOne answers id since).1.warmSince = backend.warmSince ∧
      (backend.quiesceOne answers id since).1.handles = backend.handles := by
  unfold quiesceOne
  split
  · exact ⟨rfl, rfl⟩
  · split
    · exact ⟨rfl, rfl⟩
    · rename_i handle _
      have saving := requestResumeSave_incidental backend answers handle
      split
      · exact ⟨saving.warmSince, saving.handles⟩
      · rename_i paused stopped
        split
        · rw [call_eq_ok stopped]
          exact ⟨saving.warmSince, saving.handles⟩
        · rename_i uploading sent
          rw [call_eq_ok sent, call_eq_ok stopped]
          exact ⟨saving.warmSince, saving.handles⟩

theorem quiesceAll_wakeful {answers : Answers} (entries : List (Sigma fun _ : String => Nat))
    (distinct : Distinct answers backend)
    (warm : ∀ entry ∈ entries, (backend.warmSince.lookup entry.1).isSome) :
    Wakeful kind backend (quiesceAll answers entries backend).1 := by
  induction entries generalizing backend with
  | nil => exact .refl backend
  | cons entry rest ih =>
      have here : Wakeful kind backend (backend.quiesceOne answers entry.1 entry.2).1 :=
        quiesceOne_wakeful distinct (warm entry List.mem_cons_self)
      obtain ⟨sameWarm, sameHandles⟩ := quiesceOne_same backend answers entry.1 entry.2
      rw [quiesceAll]
      split
      · rename_i result
        rw [result] at here
        exact here
      · rename_i result
        rw [result] at here sameWarm sameHandles
        refine here.trans (ih ?_ ?_)
        · unfold Distinct
          rw [sameHandles]
          exact distinct
        · rw [sameWarm]
          exact fun other member => warm other (List.mem_cons_of_mem _ member)

theorem runWarmQuiescence_wakeful {answers : Answers} (distinct : Distinct answers backend) :
    Wakeful kind backend (backend.runWarmQuiescence answers).1 := by
  unfold runWarmQuiescence
  split
  · exact .refl backend
  · have timed : ∀ check, Wakeful kind backend { backend with nextWarmCheck := check } :=
      fun _ => .same rfl rfl rfl rfl rfl fun _ unpaused => unpaused
    refine (timed _).trans (quiesceAll_wakeful _ ?_ fun entry member => ?_)
    · exact distinct
    · exact Option.isSome_iff_exists.mpr ⟨entry.2, (AList.lookup_eq_some_iff _ _ _).mpr member⟩

theorem runPeriodicSteps_wakeful {answers : Answers} (distinct : Distinct answers backend) :
    Wakeful kind backend (backend.runPeriodicSteps answers).1 := by
  have checked := runPeriodicCheckpoints_incidental backend answers
  have quiet : Wakeful kind backend
      ((backend.runPeriodicCheckpoints answers).runWarmQuiescence answers).1 := by
    refine Wakeful.trans (.ofIncidental checked) (runWarmQuiescence_wakeful ?_)
    unfold Distinct
    rw [checked.handles]
    exact distinct
  unfold runPeriodicSteps
  split
  · rename_i result
    rw [result] at quiet
    exact quiet
  · rename_i result
    rw [result] at quiet
    exact ((quiet.trans (.ofIncidental (processDiskReclaims_incidental _ answers))).trans
      (.ofIncidental (runDiskCacheEnforcement_incidental _ answers))).trans
        (.ofIncidental (requestTelemetryUpdate_incidental _ answers))

end BackendState

end NuvioEngine.Backend
