import NuvioEngine.Backend.Wakeful

/-!
Torrents with a stream are awake. A torrent is woken when its file is prepared, and its stream is
registered later, when libtorrent has applied the priorities; it stays awake in between as long as
its preparation is not disturbed.
-/

namespace NuvioEngine.Backend

open NuvioEngine.Bridge NuvioEngine.Stream NuvioEngine.Cache BridgeState

theorem BackendState.prepareActivated_wakeful {kind : String → Prop} {backend : BackendState}
    {answers : Answers} {requestId : Nat} {id : String} {handle fileIndex : Nat} {file : TorrentFileInfo}
    (unused : answers.token ∉ backend.system.registered.map StreamRoute.streamId) (named : id ≠ "") :
    Wakeful kind
      { backend with
        pendingPrepares := backend.pendingPrepares.insert id ⟨requestId, fileIndex, file⟩ }
      (backend.prepareActivated answers requestId id handle fileIndex file).1 := by
  have dropped : Wakeful kind
      { backend with
        pendingPrepares := backend.pendingPrepares.insert id ⟨requestId, fileIndex, file⟩ } backend := by
    refine ⟨fun sound => sound, fun _ streams => .inl streams, fun other pending => ?_,
      fun _ _ found => found, fun _ _ awake => ⟨awake.unwarmed, awake.unquiesced, awake.running⟩⟩
    rw [AList.lookup_insert_ite]
    split
    · rfl
    · exact pending
  unfold prepareActivated
  split
  · exact dropped
  · split
    · exact dropped
    · exact dropped
    · split
      · exact dropped
      · simp only
        split
        · exact dropped
        · split
          · exact dropped
          · rename_i registered event prepared
            rw [preparedEvent_eq_ok prepared]
            refine Wakeful.trans ?_ (.ofIncidental (queue_incidental _ event))
            refine ⟨fun sound => ?_, fun other streams => ?_, dropped.prepares, fun _ _ found => found,
              fun _ _ awake => ⟨awake.unwarmed, awake.unquiesced, awake.running⟩⟩
            · exact sound.perform ⟨unused, named⟩ (by simp) (by simp)
            · rcases register_streams streams with rfl | before
              · exact .inr (by rw [AList.lookup_insert]; rfl)
              · exact .inl before
        · split
          · exact dropped
          · rename_i sent
            have same := call_eq_self rfl sent
            rw [same]
            exact .refl _

/-- Torrents with a stream or a pending preparation are awake. -/
structure Vigilant (torrentOf : Nat → String) (host : Host) : Prop where
  sound : Sound host.backend.system
  handles : ∀ id handle, host.backend.handles.lookup id = some handle →
    torrentOf handle = id ∨ (id = "" ∧ handle ∈ host.gone)
  named : host.backend.pendingPrepares.lookup "" = none
  awake : ∀ id, Busy host.backend id → Awake host.backend id

/-- A command disturbs a preparation when it makes the torrent warm before its new stream is there:
another torrent is added or prepared, the old stream is stopped, or the old stream expires. -/
def Host.Undisturbed (host : Host) : HostAction → Prop
  | .addTorrent answers _ (.ok source) => ∀ id handle,
      host.backend.Focusable answers source.id id handle → host.backend.pendingPrepares.lookup id = none
  | .prepareFile answers _ requestedId _ _ => ∀ id handle,
      host.backend.Focusable answers requestedId id handle → host.backend.pendingPrepares.lookup id = none
  | .stopStream _ _ streamId => ∀ route,
      host.backend.bridge.routes.lookup ("/stream/" ++ streamId) = some route →
        host.backend.pendingPrepares.lookup route.torrentId = none
  | .pollStreams _ polled => ∀ target route,
      host.backend.bridge.routes.lookup target = some route →
        Lapsed host.backend.bridge polled.expiry route →
          host.backend.pendingPrepares.lookup route.torrentId = none
  | _ => True

namespace Host

theorem collect_wakeful {kind : String → Prop} {backend : BackendState} (host : Host)
    {outcome : BackendState.Outcome} (wakeful : Wakeful kind backend outcome.1) :
    Wakeful kind backend (host.collect outcome).backend := by
  obtain ⟨next, thrown⟩ := outcome
  cases thrown with
  | none => exact wakeful
  | some thrown => exact wakeful.trans (.same rfl rfl rfl rfl rfl fun _ unpaused => unpaused)

end Host

namespace Vigilant

variable {torrentOf : Nat → String} {host next : Host}

theorem initial (begins : host.Initial) : Vigilant torrentOf host := by
  obtain ⟨system, timeout, start, rfl⟩ := begins
  have sound : Sound system := by
    refine ⟨Consistent.initial start, ?_⟩
    obtain ⟨memoryCapacityBytes, diskCapacityBytes, inactivity, rfl⟩ := start
    rfl
  refine ⟨sound, by simp, by simp, fun id _ => ⟨by simp, by simp, by simp⟩⟩

theorem distinct (vigilant : Vigilant torrentOf host) {answers : Answers}
    (truthful : host.Truthful torrentOf answers) : host.backend.Distinct answers := by
  have owner : ∀ id handle, host.backend.handles.lookup id = some handle →
      answers.lt.isValid handle = true → torrentOf handle = id := by
    intro id handle found valid
    rcases vigilant.handles id handle found with same | ⟨_, gone⟩
    · exact same
    · simp [truthful.valid handle gone] at valid
  intro id other handle found same valid
  rw [← owner id handle found valid, owner other handle same valid]

theorem step {kind : String → Prop} (vigilant : Vigilant torrentOf host)
    (wakeful : Wakeful kind host.backend next.backend) (gone : ∀ handle ∈ host.gone, handle ∈ next.gone)
    (kept : ∀ id, Busy next.backend id → kind id) : Vigilant torrentOf next where
  sound := wakeful.sound vigilant.sound
  handles := fun id handle found => (vigilant.handles id handle (wakeful.handles id handle found)).imp_right
    fun ⟨empty, lost⟩ => ⟨empty, gone handle lost⟩
  named := by
    have pending := wakeful.prepares ""
    rw [vigilant.named] at pending
    simpa using pending
  awake := fun id busy => wakeful.awake id (kept id busy) (vigilant.awake id (wakeful.busy busy))

theorem untroubled (vigilant : Vigilant torrentOf host)
    (wakeful : Wakeful (fun _ => True) host.backend next.backend)
    (gone : ∀ handle ∈ host.gone, handle ∈ next.gone) : Vigilant torrentOf next :=
  vigilant.step wakeful gone fun _ _ => trivial

theorem focused {answers : Answers} {requestedId : String}
    (undisturbed : ∀ id handle, host.backend.Focusable answers requestedId id handle →
      host.backend.pendingPrepares.lookup id = none) :
    ∀ id handle, host.backend.Focusable answers requestedId id handle → ¬ Busy host.backend id := by
  rintro id handle focusable (streams | pending)
  · simp [focusable.2.2.2] at streams
  · simp [undisturbed id handle focusable] at pending

theorem addTorrent (vigilant : Vigilant torrentOf host) {answers : Answers} {requestId : Nat}
    {parsed : Except Thrown TorrentSource} (truthful : host.Truthful torrentOf answers)
    (undisturbed : host.Undisturbed (.addTorrent answers requestId parsed)) :
    Vigilant torrentOf (host.perform (.addTorrent answers requestId parsed)) := by
  have spared : ∀ source, parsed = .ok source → ∀ id handle,
      host.backend.Focusable answers source.id id handle → ¬ Busy host.backend id := by
    rintro source rfl
    exact Vigilant.focused undisturbed
  have wakeful : Wakeful (Busy host.backend) host.backend
      (host.backend.addTorrent answers requestId parsed).1 :=
    BackendState.addTorrent_wakeful (vigilant.distinct truthful) spared
  have stepped : Wakeful (Busy host.backend) host.backend
      (host.perform (.addTorrent answers requestId parsed)).backend := by
    rw [Host.perform, Host.accept_backend]
    exact wakeful
  exact vigilant.step stepped (by simp [Host.perform]) fun id busy => stepped.busy busy

theorem prepareFile (vigilant : Vigilant torrentOf host) {answers : Answers} {requestId : Nat}
    {id : String} {fileIndex : Nat} {file : TorrentFileInfo} (truthful : host.Truthful torrentOf answers)
    (named : id ≠ "") (unused : answers.token ∉ host.backend.system.registered.map StreamRoute.streamId)
    (undisturbed : host.Undisturbed (.prepareFile answers requestId id fileIndex file)) :
    Vigilant torrentOf (host.perform (.prepareFile answers requestId id fileIndex file)) := by
  have spared := Vigilant.focused undisturbed
  have focuses : Wakeful (Busy host.backend) host.backend (host.backend.focusTorrent answers id) :=
    BackendState.focusTorrent_wakeful (vigilant.distinct truthful) spared
  have backend : ∀ outcome, Vigilant torrentOf { host with backend := outcome } →
      ∀ thrown, Vigilant torrentOf (host.command requestId (outcome, thrown)) := by
    intro outcome reached thrown
    exact reached.untroubled (by simpa using .refl _) (by simp)
  rw [Host.perform, BackendState.prepareFile]
  split
  · exact backend _ vigilant _
  · rename_i handle found
    obtain ⟨known, _⟩ := BackendState.validHandle_eq_some found
    have activates : Wakeful (Busy host.backend) host.backend
        ((host.backend.focusTorrent answers id).activateTorrent answers id handle).1 :=
      focuses.trans (BackendState.activateTorrent_wakeful _ answers id handle)
    have active : Vigilant torrentOf { host with
        backend := ((host.backend.focusTorrent answers id).activateTorrent answers id handle).1 } :=
      vigilant.step activates (fun _ lost => lost) fun other busy => activates.busy busy
    split
    · rename_i result
      rw [result] at active
      exact backend _ active _
    · rename_i activated result
      rw [result] at active activates
      have woken : Awake activated id :=
        BackendState.activateTorrent_awake (by rw [BackendState.focusTorrent_eq]; exact known) result
      have waiting : Vigilant torrentOf { host with
          backend := { activated with
            pendingPrepares := activated.pendingPrepares.insert id ⟨requestId, fileIndex, file⟩ } } := by
        refine ⟨active.sound, active.handles, ?_, fun other busy => ?_⟩
        · rw [AList.lookup_insert_ne named.symm]
          exact active.named
        · by_cases same : other = id
          · rw [same]
            exact ⟨woken.unwarmed, woken.unquiesced, woken.running⟩
          · have awake := active.awake other (busy.imp_right fun pending => by
              rwa [AList.lookup_insert_ne same] at pending)
            exact ⟨awake.unwarmed, awake.unquiesced, awake.running⟩
      refine waiting.untroubled ?_ (by simp)
      rw [Host.command_backend]
      refine BackendState.prepareActivated_wakeful ?_ named
      have same := BackendState.activateTorrent_system (host.backend.focusTorrent answers id) answers id
        handle
      rw [result, BackendState.focusTorrent_eq] at same
      rw [same]
      exact unused

theorem idle (vigilant : Vigilant torrentOf host) : ¬ Busy host.backend "" := by
  rintro (streams | pending)
  · exact vigilant.sound.named streams rfl
  · simp [vigilant.named] at pending

theorem stopStream (vigilant : Vigilant torrentOf host) {answers : Answers} {requestId : Nat}
    {streamId : String} (undisturbed : host.Undisturbed (.stopStream answers requestId streamId)) :
    Vigilant torrentOf (host.perform (.stopStream answers requestId streamId)) := by
  have routing : Routing (fun _ => False) host.backend.bridge := vigilant.sound.1.routing
  have wakeful : Wakeful
      (fun id => id ≠ (BridgeState.stopStream answers.lt host.backend.bridge streamId).2) host.backend
      (host.backend.stopStream answers requestId streamId) :=
    BackendState.stopStream_wakeful _ answers requestId streamId fun _ kept => kept
  have idle : ∀ id, Busy (host.backend.stopStream answers requestId streamId) id →
      id ≠ (BridgeState.stopStream answers.lt host.backend.bridge streamId).2 := by
    rintro id busy rfl
    obtain ⟨bridge, prepares⟩ := BackendState.stopStream_same host.backend answers requestId streamId
    rw [routing.stopStream_id] at busy
    cases found : host.backend.bridge.routes.lookup ("/stream/" ++ streamId) with
    | none =>
        rw [found] at busy
        exact vigilant.idle (wakeful.busy busy)
    | some route =>
        rw [found, Busy, bridge, prepares] at busy
        rcases busy with streams | pending
        · simp [routing.stopStream_streams answers.lt found] at streams
        · simp [undisturbed route found] at pending
  exact vigilant.step wakeful (fun _ lost => lost) idle

theorem pollStreams (vigilant : Vigilant torrentOf host) {answers : Answers} {polled : PollAnswers}
    (quiet : (host.backend.bridge.poll polled).2 = false)
    (undisturbed : host.Undisturbed (.pollStreams answers polled)) :
    Vigilant torrentOf (host.perform (.pollStreams answers polled)) := by
  have wakeful : Wakeful (fun id => ∀ stream ∈ (host.backend.bridge.poll polled).1.expiredStreams,
      id ≠ stream.torrentId) host.backend (host.backend.pollStreams answers polled).1 :=
    BackendState.pollStreams_wakeful quiet fun _ kept => kept
  refine vigilant.step wakeful (fun _ lost => lost) fun id busy stream expired same => ?_
  obtain ⟨⟨target, route, registered, torrent, lapsed⟩, streamless⟩ :=
    vigilant.sound.1.poll_expired quiet vigilant.sound.2 expired
  have unprepared := undisturbed target route registered lapsed
  obtain ⟨routes, prepares⟩ := BackendState.pollStreams_same answers quiet
  rw [Host.perform, same, Busy, BridgeState.hasStreamForTorrent, routes, prepares] at busy
  rcases busy with streams | pending
  · exact Bool.false_ne_true (streamless.symm.trans streams)
  · rw [← torrent, unprepared] at pending
    simp at pending

theorem added (vigilant : Vigilant torrentOf host) {answers : Answers} {context : Option Nat}
    {handle : Nat} (truthful : host.Truthful torrentOf answers)
    (possible : host.AlertPossible torrentOf (.added context handle none)) :
    Vigilant torrentOf { host with backend := { host.backend with
      handles := host.backend.handles.insert (answers.torrentId handle) handle } } := by
  obtain ⟨shared, _, _, _, _, _, unpaused⟩ := possible
  refine ⟨vigilant.sound, fun id other found => ?_, vigilant.named, fun id busy => ?_⟩
  · rw [AList.lookup_insert_ite] at found
    split at found
    · rename_i same
      obtain rfl := Option.some.inj found
      rw [same]
      exact (truthful.ids handle).imp_left Eq.symm
    · exact vigilant.handles id other found
  · have awake := vigilant.awake id busy
    refine ⟨awake.unwarmed, awake.unquiesced, fun other found => ?_⟩
    rw [AList.lookup_insert_ite] at found
    split at found
    · rename_i same
      obtain rfl := Option.some.inj found
      rcases truthful.ids handle with own | ⟨empty, _⟩
      · rcases unpaused with known | unpaused
        · exact awake.running handle (by rw [same, own]; exact known)
        · exact unpaused
      · rw [same, empty] at busy
        exact absurd busy vigilant.idle
    · exact awake.running other found

theorem perform (vigilant : Vigilant torrentOf host) {action : HostAction}
    (possible : host.Possible torrentOf action) (undisturbed : host.Undisturbed action) :
    Vigilant torrentOf (host.perform action) := by
  cases action with
  | addTorrent answers requestId parsed => exact vigilant.addTorrent possible.2 undisturbed
  | prepareFile answers requestId id fileIndex file =>
      obtain ⟨_, truthful, named, unused⟩ := possible
      exact vigilant.prepareFile truthful named unused undisturbed
  | removeTorrent answers requestId id =>
      refine vigilant.untroubled ?_ (by simp [Host.perform])
      rw [Host.perform, Host.command_backend]
      exact BackendState.removeTorrent_wakeful _ answers requestId id
  | stopStream answers requestId streamId => exact vigilant.stopStream undisturbed
  | pollStreams answers polled => exact vigilant.pollStreams possible.2 undisturbed
  | takeQueued =>
      exact vigilant.untroubled (.same rfl rfl rfl rfl rfl fun _ unpaused => unpaused) fun _ lost => lost
  | alert answers alert =>
      obtain ⟨truthful, sent, unused⟩ := possible
      by_cases new : ∃ context handle, alert = .added context handle none
      · obtain ⟨context, handle, rfl⟩ := new
        refine (vigilant.added truthful sent).untroubled ?_ (by simp [Host.perform])
        exact Host.collect_wakeful host (BackendState.handleAdded_wakeful _ answers context handle)
      · refine vigilant.untroubled ?_ (by simp [Host.perform])
        refine Host.collect_wakeful host (BackendState.handleAlert_wakeful unused vigilant.named ?_)
        exact fun context handle same => new ⟨context, handle, same⟩
  | periodic answers =>
      refine vigilant.untroubled ?_ (by simp [Host.perform])
      exact Host.collect_wakeful host
        (BackendState.runPeriodicSteps_wakeful (vigilant.distinct possible))
  | reclaimDiskCache requestId targetBytes =>
      refine vigilant.untroubled ?_ (by simp [Host.perform])
      rw [Host.perform, Host.command_backend]
      exact .ofIncidental (BackendState.reclaimDiskCache_incidental _ requestId targetBytes)
  | create handle context => exact vigilant.untroubled (.refl _) fun _ lost => lost
  | learnMetadata handle => exact vigilant.untroubled (.refl _) fun _ lost => lost
  | lose handle => exact vigilant.untroubled (.refl _) fun _ lost => List.mem_cons_of_mem _ lost
  | http action =>
      exact vigilant.untroubled (BackendState.http_wakeful possible.1 possible.2) fun _ lost => lost

end Vigilant

/-- A run in which no preparation is disturbed. -/
def Host.ReachableUndisturbed (torrentOf : Nat → String) : Host → Prop :=
  Transition.Reachable Host.Initial
    (fun host action => host.Possible torrentOf action ∧ host.Undisturbed action) Host.perform

theorem reachable_vigilant {torrentOf : Nat → String} {host : Host}
    (reached : host.ReachableUndisturbed torrentOf) : Vigilant torrentOf host :=
  reached.invariant (fun _ begins => Vigilant.initial begins)
    fun _ _ vigilant enabled => vigilant.perform enabled.1 enabled.2

/-- In every run in which no preparation is disturbed, a torrent with a stream is neither warm nor
quiesced, and its handle is not paused. -/
theorem reachable_streaming_awake {torrentOf : Nat → String} {host : Host}
    (reached : host.ReachableUndisturbed torrentOf) {id : String}
    (streams : host.backend.bridge.hasStreamForTorrent id = true) :
    host.backend.warmSince.lookup id = none ∧ id ∉ host.backend.quiescedTorrents ∧
      ∀ handle, host.backend.handles.lookup id = some handle →
        (host.backend.flags handle).paused = false := by
  have awake := (reachable_vigilant reached).awake id (.inl streams)
  exact ⟨awake.unwarmed, awake.unquiesced, awake.running⟩

/-- A torrent is added with its metadata and its file is being prepared. -/
def preparing : List (Host → HostAction) := [
  fun host => .addTorrent host.twoAnswers 1 (.ok ⟨twoTorrents 7, true⟩),
  fun _ => .create 7 0,
  fun _ => .learnMetadata 7,
  fun host => .alert host.twoAnswers (.added (some 0) 7 none),
  fun host => .prepareFile host.twoAnswers 2 (twoTorrents 7) 0 ⟨"video.mp4", 0, 32768⟩]

theorem preparing_reached :
    (Transition.follow Host.perform preparing Host.start).ReachableUndisturbed twoTorrents := by
  refine (Transition.Reachable.start Host.start_initial).follow ?_
  refine ⟨⟨⟨by decide, Host.answers_truthful ..⟩, fun id handle _ => ?_⟩,
    ⟨⟨rfl, fun other => ?_, by decide +kernel, by decide +kernel⟩, trivial⟩, ⟨trivial, trivial⟩,
    ⟨⟨Host.answers_truthful .., ⟨0, rfl, by decide +kernel, by decide +kernel, by decide +kernel,
      .inl (by decide +kernel), .inr (by decide +kernel)⟩, by decide +kernel⟩, trivial⟩,
    ⟨⟨by decide +kernel, Host.answers_truthful .., by decide, by decide +kernel⟩,
      fun id handle _ => ?_⟩, trivial⟩
  · exact AList.lookup_of_isEmpty (by decide +kernel) id
  · rw [Host.perform, Host.accept_creator]
    simp [Host.start]
  · exact AList.lookup_of_isEmpty (by decide +kernel) id

/-- Its stream is registered. -/
def prepared : List (Host → HostAction) := [
  fun host => .alert host.twoAnswers (.filePriority 7 none)]

theorem reachable_streaming_awake_prepared :
    ∃ host : Host, host.ReachableUndisturbed twoTorrents ∧
      host.backend.bridge.hasStreamForTorrent (twoTorrents 7) = true ∧
      host.backend.warmSince.lookup (twoTorrents 7) = none ∧
      twoTorrents 7 ∉ host.backend.quiescedTorrents ∧
      ∀ handle, host.backend.handles.lookup (twoTorrents 7) = some handle →
        (host.backend.flags handle).paused = false := by
  have reached : (Transition.follow Host.perform prepared
      (Transition.follow Host.perform preparing Host.start)).ReachableUndisturbed twoTorrents :=
    preparing_reached.follow
      ⟨⟨⟨Host.answers_truthful .., trivial, by decide +kernel⟩, trivial⟩, trivial⟩
  exact ⟨_, reached, by decide +kernel, reachable_streaming_awake reached (by decide +kernel)⟩

/-- Another torrent is added while the first one is being prepared. -/
def overtaken : List (Host → HostAction) := [
  fun host => .addTorrent host.twoAnswers 3 (.ok ⟨twoTorrents 8, true⟩),
  fun host => .alert host.twoAnswers (.filePriority 7 none)]

/-- The first torrent then streams while it is warm, quiesced and paused. -/
theorem streaming_awake_fails_overtaken :
    ∃ host : Host, host.Reachable twoTorrents ∧
      host.backend.bridge.hasStreamForTorrent (twoTorrents 7) = true ∧
      (host.backend.warmSince.lookup (twoTorrents 7)).isSome ∧
      twoTorrents 7 ∈ host.backend.quiescedTorrents ∧
      host.backend.handles.lookup (twoTorrents 7) = some 7 ∧ (host.backend.flags 7).paused = true := by
  have before : (Transition.follow Host.perform preparing Host.start).Reachable twoTorrents :=
    preparing_reached.mono fun _ _ enabled => enabled.1
  have reached : (Transition.follow Host.perform overtaken
      (Transition.follow Host.perform preparing Host.start)).Reachable twoTorrents :=
    before.follow ⟨⟨by decide +kernel, Host.answers_truthful ..⟩,
      ⟨Host.answers_truthful .., trivial, by decide +kernel⟩, trivial⟩
  exact ⟨_, reached, by decide +kernel, by decide +kernel, by decide +kernel, by decide +kernel,
    by decide +kernel⟩

end NuvioEngine.Backend
