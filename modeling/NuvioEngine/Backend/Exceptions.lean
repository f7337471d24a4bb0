import NuvioEngine.Backend.Requests
import NuvioEngine.Backend.Tells

/-!
A `pop_events` that throws. Events and alerts live in locals of the call, so an exception in one
handler takes along the events that were collected and the alerts that were not reached. The handlers
and the periodic steps of a call are its stages.
-/

namespace NuvioEngine.Backend

open NuvioEngine.Bridge NuvioEngine.Stream NuvioEngine.Cache BridgeState BackendState

inductive Stage where
  | alert (answers : Answers) (received : BackendAlert)
  | checkpoints
  | quiescence
  | reclaims
  | enforcement
  | telemetry

namespace Stage

def run (later : Answers) (backend : BackendState) : Stage → Outcome
  | .alert answers received => backend.handleAlert answers received
  | .checkpoints => (backend.runPeriodicCheckpoints later, none)
  | .quiescence => backend.runWarmQuiescence later
  | .reclaims => (backend.processDiskReclaims later, none)
  | .enforcement => (backend.runDiskCacheEnforcement later, none)
  | .telemetry => backend.requestTelemetryUpdate later

def isAlert : Stage → Bool
  | .alert .. => true
  | .checkpoints | .quiescence | .reclaims | .enforcement | .telemetry => false

/-- `handle_added` tells that the torrent was added before it asks for the torrent's status. -/
def tellsFirst (backend : BackendState) : Stage → Bool
  | .alert answers (.added _ handle none) =>
      !backend.dhtReady || (answers.fails handle .forceDhtAnnounce).isNone
  | _ => false

end Stage

def runStages (later : Answers) : List Stage → BackendState → Outcome
  | [], backend => (backend, none)
  | stage :: rest, backend =>
      match stage.run later backend with
      | (stopped, some thrown) => (stopped, some thrown)
      | (next, none) => runStages later rest next

/-- The stages that a call gets to. -/
def reached (later : Answers) : List Stage → BackendState → List Stage
  | [], _ => []
  | stage :: rest, backend =>
      match stage.run later backend with
      | (_, some _) => [stage]
      | (next, none) => stage :: reached later rest next

def stages (alerts : List (Answers × BackendAlert)) : List Stage :=
  alerts.map (fun entry => Stage.alert entry.1 entry.2) ++
    [.checkpoints, .quiescence, .reclaims, .enforcement, .telemetry]

/-- The events that the caller gets. -/
def returned (outcome : Outcome) : List BackendEvent :=
  match outcome.2 with
  | none => outcome.1.events
  | some _ => []

/-- Nothing is lost: every event that was taken from the queue or produced is returned or queued for
a later call, and every alert is handled. -/
structure SparesRest (backend : BackendState) (answers : Answers) (polled : PollAnswers)
    (alerts : List (Answers × BackendAlert)) (later : Answers) : Prop where
  events : (backend.popEvents answers polled alerts later).1.events.Sublist
    (returned (backend.popEvents answers polled alerts later) ++
      (backend.popEvents answers polled alerts later).1.queuedEvents)
  alerts : (reached later (stages alerts) (backend.pollStreams answers polled).1.takeQueued).filter
    Stage.isAlert = alerts.map fun entry => Stage.alert entry.1 entry.2

section Run

variable {later : Answers}

theorem runStages_append {before : List Stage} (rest : List Stage) {backend middle : BackendState}
    (quiet : runStages later before backend = (middle, none)) :
    runStages later (before ++ rest) backend = runStages later rest middle := by
  induction before generalizing backend with
  | nil =>
      rw [← (Prod.mk.inj quiet).1]
      rfl
  | cons stage others ih =>
      rw [runStages] at quiet
      rw [List.cons_append, runStages]
      split at quiet
      · simp at quiet
      · exact ih quiet

theorem reached_append {before : List Stage} (rest : List Stage) {backend middle : BackendState}
    (quiet : runStages later before backend = (middle, none)) :
    reached later (before ++ rest) backend = before ++ reached later rest middle := by
  induction before generalizing backend with
  | nil =>
      rw [← (Prod.mk.inj quiet).1]
      rfl
  | cons stage others ih =>
      rw [runStages] at quiet
      rw [List.cons_append, reached]
      split at quiet
      · simp at quiet
      · rw [ih quiet, List.cons_append]

theorem runStages_reached (list : List Stage) (backend : BackendState) :
    runStages later (reached later list backend) backend = runStages later list backend := by
  induction list generalizing backend with
  | nil => rfl
  | cons stage rest ih =>
      rw [reached, runStages]
      cases result : stage.run later backend with
      | mk next thrown =>
          cases thrown with
          | none => simp [runStages, result, ih]
          | some thrown => simp [runStages, result]

theorem runStages_alerts (alerts : List (Answers × BackendAlert)) (rest : List Stage)
    (backend : BackendState) :
    runStages later (alerts.map (fun entry => Stage.alert entry.1 entry.2) ++ rest) backend =
      match handleAlerts alerts backend with
      | (stopped, some thrown) => (stopped, some thrown)
      | (handled, none) => runStages later rest handled := by
  induction alerts generalizing backend with
  | nil => rfl
  | cons entry others ih =>
      rw [List.map_cons, List.cons_append, runStages, handleAlerts, Stage.run]
      cases result : backend.handleAlert entry.1 entry.2 with
      | mk next thrown =>
          cases thrown with
          | none => exact ih next
          | some thrown => rfl

theorem runStages_periodic (backend : BackendState) :
    runStages later [.checkpoints, .quiescence, .reclaims, .enforcement, .telemetry] backend =
      backend.runPeriodicSteps later := by
  simp only [runStages, Stage.run, runPeriodicSteps]
  cases (backend.runPeriodicCheckpoints later).runWarmQuiescence later with
  | mk quiet thrown =>
      cases thrown with
      | some thrown => rfl
      | none =>
          simp only
          cases ((quiet.processDiskReclaims later).runDiskCacheEnforcement later).requestTelemetryUpdate
              later with
          | mk sent thrown => cases thrown <;> rfl

theorem popEvents_eq {backend : BackendState} {answers : Answers} {polled : PollAnswers}
    (polls : (backend.pollStreams answers polled).2 = none) (alerts : List (Answers × BackendAlert)) :
    backend.popEvents answers polled alerts later =
      runStages later (stages alerts) (backend.pollStreams answers polled).1.takeQueued := by
  unfold popEvents
  cases result : backend.pollStreams answers polled with
  | mk expired thrown =>
      rw [result] at polls
      obtain rfl : thrown = none := polls
      simp only [stages]
      rw [runStages_alerts]
      cases handleAlerts alerts expired.takeQueued with
      | mk handled thrown =>
          cases thrown with
          | some thrown => rfl
          | none => exact (runStages_periodic handled).symm

end Run

section Throw

variable {backend stopped : BackendState} {answers later : Answers} {thrown : Thrown}

theorem announceEach_events (answers : Answers) (call : HandleCall)
    (entries : List (Sigma fun _ : String => Nat)) (backend : BackendState) :
    (announceEach answers call entries backend).1.events = backend.events := by
  induction entries generalizing backend with
  | nil => rfl
  | cons entry rest ih =>
      rw [announceEach]
      split
      · exact ih backend
      · split
        · rfl
        · rename_i sent
          rw [ih, call_eq_ok sent]

theorem requestResumeSave_events (backend : BackendState) (answers : Answers) (handle : Nat) :
    (backend.requestResumeSave answers handle).events = backend.events := by
  unfold requestResumeSave
  split
  · rfl
  · split
    · rfl
    · split
      · rfl
      · split
        · rfl
        · rename_i sent
          rw [call_eq_ok sent]

theorem quiesceAll_events (answers : Answers) (entries : List (Sigma fun _ : String => Nat))
    (backend : BackendState) : (quiesceAll answers entries backend).1.events = backend.events := by
  have one : ∀ (current : BackendState) (id : String) (since : Nat),
      (current.quiesceOne answers id since).1.events = current.events := by
    intro current id since
    unfold quiesceOne
    split
    · rfl
    · split
      · rfl
      · rename_i handle _
        have saving := requestResumeSave_events current answers handle
        split
        · exact saving
        · rename_i stopping
          rw [call_eq_ok stopping]
          split
          · exact saving
          · rename_i sent
            rw [call_eq_ok sent]
            exact saving
  induction entries generalizing backend with
  | nil => rfl
  | cons entry rest ih =>
      have here := one backend entry.1 entry.2
      rw [quiesceAll]
      split
      · rename_i result
        rw [result] at here
        exact here
      · rename_i result
        rw [result] at here
        exact (ih _).trans here

theorem runWarmQuiescence_events (backend : BackendState) (answers : Answers) :
    (backend.runWarmQuiescence answers).1.events = backend.events := by
  unfold runWarmQuiescence
  split
  · rfl
  · exact quiesceAll_events answers _ _

theorem requestTelemetryUpdate_events (backend : BackendState) (answers : Answers) :
    (backend.requestTelemetryUpdate answers).1.events = backend.events := by
  have posted := announceEach_events answers .postPeerInfo backend.handles.entries backend
  unfold requestTelemetryUpdate
  split
  · rfl
  · split
    · rename_i result
      rw [result] at posted
      exact posted
    · rename_i result
      rw [result] at posted
      exact posted

theorem emitMetadata_throws {handle : Nat} {context : Option Nat} {source : MetadataSource}
    (threw : backend.emitMetadata answers handle context source = (stopped, some thrown)) :
    stopped.events = backend.events := by
  unfold emitMetadata at threw
  simp only at threw
  split at threw
  · rw [← (Prod.mk.inj threw).1]
    cases context <;> rfl
  · simp at threw

theorem handleMetadata_throws {handle : Nat}
    (threw : backend.handleMetadata answers handle = (stopped, some thrown)) :
    stopped.events = backend.events := by
  unfold handleMetadata at threw
  simp only at threw
  split at threw
  · simp at threw
  · split at threw
    · rename_i result
      rw [← (Prod.mk.inj threw).1]
      exact emitMetadata_throws result
    · simp at threw

theorem handleFilePriority_throws {handle : Nat} {error : Option String}
    (threw : backend.handleFilePriority answers handle error = (stopped, some thrown)) :
    stopped.events = backend.events := by
  have finishing : ∀ id prepare failed, backend.finishPrepare answers handle id prepare =
      (failed, some .other) → failed.events = backend.events := by
    intro id prepare failed result
    unfold finishPrepare at result
    split at result
    · rw [← (Prod.mk.inj result).1]
    · rename_i sent
      split at result
      · rw [← (Prod.mk.inj result).1, call_eq_ok sent]
      · simp at result
  unfold handleFilePriority at threw
  simp only at threw
  split at threw
  · simp at threw
  · split at threw
    · simp at threw
    · split at threw
      · simp at threw
      · simp at threw
      · rename_i result
        rw [← (Prod.mk.inj threw).1]
        exact finishing _ _ _ result

/-- `handle_added` throws before it has told anything, or right after the torrent was told. -/
theorem handleAdded_throws {context : Option Nat} {handle : Nat} {error : Option String}
    (threw : backend.handleAdded answers context handle error = (stopped, some thrown)) :
    stopped.events = [] ↔ backend.events = [] ∧
      Stage.tellsFirst backend (.alert answers (.added context handle error)) = false := by
  cases error with
  | some message => simp [handleAdded] at threw
  | none =>
      unfold handleAdded at threw
      simp only at threw
      split at threw
      · rename_i failed
        rw [← (Prod.mk.inj threw).1]
        unfold announceAdded at failed
        split at failed
        · rename_i ready
          have refused := call_eq_error failed
          simp_all [Stage.tellsFirst]
        · simp at failed
      · rename_i sent
        have first : Stage.tellsFirst backend (.alert answers (.added context handle none)) = true := by
          unfold announceAdded at sent
          split at sent
          · unfold BackendState.call at sent
            split at sent
            · simp at sent
            · rename_i accepted
              simp [Stage.tellsFirst, accepted]
          · rename_i unready
            simp_all [Stage.tellsFirst]
        rw [first]
        simp only [Bool.true_eq_false, and_false, iff_false]
        split at threw
        · rename_i result
          obtain ⟨more, appended, _⟩ := (announce_tells _ answers handle context).events
          rw [result] at appended
          rw [← (Prod.mk.inj threw).1, appended]
          simp [BackendState.emit]
        · simp at threw

theorem Stage.run_throws {stage : Stage} (threw : stage.run later backend = (stopped, some thrown)) :
    stopped.events = [] ↔ backend.events = [] ∧ stage.tellsFirst backend = false := by
  have unchanged : stopped.events = backend.events → stage.tellsFirst backend = false →
      (stopped.events = [] ↔ backend.events = [] ∧ stage.tellsFirst backend = false) := by
    intro events silent
    simp [events, silent]
  cases stage with
  | alert answers received =>
      cases received with
      | added context handle error => exact handleAdded_throws threw
      | metadataReceived handle => exact unchanged (handleMetadata_throws threw) rfl
      | filePriority handle error => exact unchanged (handleFilePriority_throws threw) rfl
      | dhtBootstrap =>
          have kept := announceEach_events answers .forceDhtAnnounce backend.handles.entries
            { backend with dhtReady := true }
          rw [show announceEach answers .forceDhtAnnounce backend.handles.entries
            { backend with dhtReady := true } = _ from threw] at kept
          exact unchanged kept rfl
      | torrentError | fileError | resumeSaved | resumeSaveFailed | torrentFinished | torrentRemoved
      | readPiece | blockFinished | hashFailed => simp [Stage.run, handleAlert] at threw
  | checkpoints => simp [Stage.run] at threw
  | quiescence =>
      have kept := runWarmQuiescence_events backend later
      rw [show backend.runWarmQuiescence later = _ from threw] at kept
      exact unchanged kept rfl
  | reclaims => simp [Stage.run] at threw
  | enforcement => simp [Stage.run] at threw
  | telemetry =>
      have kept := requestTelemetryUpdate_events backend later
      rw [show backend.requestTelemetryUpdate later = _ from threw] at kept
      exact unchanged kept rfl

end Throw

section Queue

variable (later : Answers)

theorem handleAlert_queued (backend : BackendState) (answers : Answers) (received : BackendAlert) :
    (backend.handleAlert answers received).1.queuedEvents = backend.queuedEvents := by
  have concluded : ∀ {id : String} {requestId : Nat} {after : BackendState},
      Concludes id requestId backend after → after.queuedEvents = backend.queuedEvents := by
    rintro id requestId after ⟨middle, event, last, told, _, _, telling, rfl⟩
    exact telling.queued.trans told.queued
  cases received with
  | added context handle error =>
      rcases handleAdded_cases backend answers context handle error with
        told | ⟨_, middle, told, same | ⟨event, _, _, _, telling⟩⟩
      · exact told.queued
      · exact (congrArg BackendState.queuedEvents same).trans told.queued
      · exact telling.queued.trans told.queued
  | fileError handle message =>
      rcases handleFileError_cases backend answers handle message with ⟨_, same⟩ | ⟨_, _, concludes⟩
      · exact congrArg BackendState.queuedEvents same
      · exact concluded concludes
  | filePriority handle error =>
      rcases handleFilePriority_cases backend answers handle error with
        ⟨_, same⟩ | ⟨_, _, ⟨concludes, _⟩ | ⟨told, _⟩⟩
      · exact congrArg (fun outcome => outcome.1.queuedEvents) same
      · exact concluded concludes
      · exact told.queued
  | torrentRemoved context hashId =>
      obtain ⟨middle, told, telling⟩ := handleRemoved_tells backend answers context hashId
      exact telling.queued.trans told.queued
  | _ => exact (handleAlert_tells backend answers rfl).queued

theorem Stage.run_queued (stage : Stage) (backend : BackendState) :
    (stage.run later backend).1.queuedEvents = backend.queuedEvents := by
  cases stage with
  | alert answers received => exact handleAlert_queued backend answers received
  | checkpoints => exact (runPeriodicCheckpoints_tells backend later).queued
  | quiescence => exact (runWarmQuiescence_tells backend later).queued
  | reclaims => exact (processDiskReclaims_tells backend later).queued
  | enforcement => exact (runDiskCacheEnforcement_tells backend later).queued
  | telemetry => exact (requestTelemetryUpdate_tells backend later).queued

theorem runStages_queued (list : List Stage) (backend : BackendState) :
    (runStages later list backend).1.queuedEvents = backend.queuedEvents := by
  induction list generalizing backend with
  | nil => rfl
  | cons stage rest ih =>
      have here := stage.run_queued later backend
      rw [runStages]
      split
      · rename_i result
        rw [result] at here
        exact here
      · rename_i result
        rw [result] at here
        exact (ih _).trans here

end Queue

theorem filter_alerts (alerts : List (Answers × BackendAlert)) :
    (stages alerts).filter Stage.isAlert = alerts.map fun entry => Stage.alert entry.1 entry.2 := by
  have kept : (alerts.map fun entry => Stage.alert entry.1 entry.2).filter Stage.isAlert =
      alerts.map fun entry => Stage.alert entry.1 entry.2 := by
    rw [List.filter_eq_self]
    intro stage member
    obtain ⟨entry, _, rfl⟩ := List.mem_map.mp member
    rfl
  rw [stages, List.filter_append, kept]
  simp [Stage.isAlert]

/-- When a stage of `pop_events` throws, nothing else is lost exactly if there is nothing to lose: no
event was collected before, the stage has told nothing itself, and no alert stands behind it. -/
theorem popEvents_spares_rest_iff {backend middle stopped : BackendState} {answers later : Answers}
    {polled : PollAnswers} {alerts : List (Answers × BackendAlert)} {before after : List Stage}
    {stage : Stage} {thrown : Thrown} (polls : (backend.pollStreams answers polled).2 = none)
    (batch : stages alerts = before ++ stage :: after)
    (quiet : runStages later before (backend.pollStreams answers polled).1.takeQueued = (middle, none))
    (throws : stage.run later middle = (stopped, some thrown)) :
    SparesRest backend answers polled alerts later ↔
      middle.events = [] ∧ stage.tellsFirst middle = false ∧
        ∀ other ∈ after, other.isAlert = false := by
  have outcome : backend.popEvents answers polled alerts later = (stopped, some thrown) := by
    rw [popEvents_eq polls, batch, runStages_append _ quiet, runStages, throws]
  have queued : stopped.queuedEvents = [] := by
    have kept := runStages_queued later (stages alerts)
      (backend.pollStreams answers polled).1.takeQueued
    rw [← popEvents_eq polls, outcome] at kept
    exact kept
  have trace : reached later (stages alerts) (backend.pollStreams answers polled).1.takeQueued =
      before ++ [stage] := by
    rw [batch, reached_append _ quiet, reached, throws]
  have lost : stopped.events.Sublist (returned (stopped, some thrown) ++ stopped.queuedEvents) ↔
      stopped.events = [] := by
    simp [returned, queued]
  have handled : (before ++ [stage]).filter Stage.isAlert =
      alerts.map (fun entry => Stage.alert entry.1 entry.2) ↔
        ∀ other ∈ after, other.isAlert = false := by
    have joined : before ++ stage :: after = (before ++ [stage]) ++ after := by simp
    rw [← filter_alerts, batch, joined, List.filter_append (before ++ [stage]) after,
      List.self_eq_append_right, List.filter_eq_nil_iff]
    simp
  constructor
  · intro spares
    have events := spares.events
    have alerts := spares.alerts
    rw [outcome, lost, stage.run_throws throws] at events
    rw [trace, handled] at alerts
    exact ⟨events.1, events.2, alerts⟩
  · rintro ⟨empty, silent, last⟩
    refine ⟨?_, ?_⟩
    · rw [outcome, lost, Stage.run_throws throws]
      exact ⟨empty, silent⟩
    · rw [trace, handled]
      exact last

/-- The handle of the torrent expires after it was found valid. -/
def Host.expiringAnswers (host : Host) : Answers :=
  { host.twoAnswers with
    fails := fun _ call =>
      if call = .forceDhtAnnounce then some (.standard "invalid torrent handle used") else none }

def calmPoll : PollAnswers :=
  ⟨fun _ => .accepting twoPieces, fun _ => .accepting twoPieces, .accepting twoPieces, 0,
    fun _ => .accepting twoPieces⟩

def addedOnce : Host := Transition.follow Host.perform waiting Host.start

theorem addedOnce_reachable : addedOnce.Reachable twoTorrents :=
  waiting_reached.mono fun _ _ enabled => enabled.1

/-- The second request for the torrent is answered from the queue of events. -/
def addedTwice : Host := Transition.follow Host.perform repeated addedOnce

theorem addedTwice_reachable : addedTwice.Reachable twoTorrents :=
  addedOnce_reachable.follow ⟨⟨by decide +kernel, Host.answers_truthful ..⟩, trivial⟩

def addedOncePolled : Outcome := addedOnce.backend.pollStreams addedOnce.twoAnswers calmPoll

def addedOnceBootstrapped : Outcome :=
  Stage.run addedOnce.twoAnswers addedOncePolled.1.takeQueued
    (.alert addedOnce.expiringAnswers .dhtBootstrap)

/-- A bootstrap alert that comes alone may throw when no event is queued. -/
theorem popEvents_spares_rest_alone :
    addedOnce.Reachable twoTorrents ∧
      addedOnceBootstrapped.2 = some (.standard "invalid torrent handle used") ∧
      SparesRest addedOnce.backend addedOnce.twoAnswers calmPoll
        [(addedOnce.expiringAnswers, .dhtBootstrap)] addedOnce.twoAnswers := by
  have polls : addedOncePolled.2 = none := by decide +kernel
  have throws : addedOnceBootstrapped.2 = some (.standard "invalid torrent handle used") := by
    decide +kernel
  have empty : addedOncePolled.1.takeQueued.events.length = 0 := by decide +kernel
  have batch : stages [(addedOnce.expiringAnswers, .dhtBootstrap)] =
      [] ++ Stage.alert addedOnce.expiringAnswers .dhtBootstrap ::
        [.checkpoints, .quiescence, .reclaims, .enforcement, .telemetry] := rfl
  have quiet : runStages addedOnce.twoAnswers [] addedOncePolled.1.takeQueued =
      (addedOncePolled.1.takeQueued, none) := rfl
  refine ⟨addedOnce_reachable, throws, ?_⟩
  cases result : addedOnceBootstrapped with
  | mk stopped thrown =>
      rw [result] at throws
      obtain rfl : thrown = _ := throws
      refine (popEvents_spares_rest_iff polls batch quiet result).mpr ?_
      exact ⟨List.length_eq_zero_iff.mp empty, rfl, by simp [Stage.isAlert]⟩

/-- A bootstrap alert that throws takes the queued answer and the alert behind it along. -/
theorem spares_rest_fails_bootstrap :
    ∃ host : Host, host.Reachable twoTorrents ∧ host.backend.queuedEvents.length = 1 ∧
      ¬ SparesRest host.backend host.twoAnswers calmPoll
        [(host.expiringAnswers, .dhtBootstrap), (host.twoAnswers, .torrentError 7 "disk full")]
        host.twoAnswers := by
  refine ⟨addedTwice, addedTwice_reachable, by decide +kernel, fun spares => ?_⟩
  have events := spares.events.length_le
  exact absurd events (by decide +kernel)

end NuvioEngine.Backend
