import NuvioEngine.Backend.AlertsCore

/-!
The backend as a system: its commands as `process_command` runs them, the parts of `pop_events` with
one alert at a time, and what happens around it. libtorrent makes a torrent for the context of a
pending add request, or answers the request with the torrent that is there; it learns metadata,
and a torrent that is taken out of the session leaves its handles behind. HTTP threads talk to the
stream bridge in between.
-/

namespace NuvioEngine.Backend

open NuvioEngine.Bridge NuvioEngine.Stream NuvioEngine.Cache BridgeState

/-- The backend, the context for which libtorrent made the torrent behind each handle, the handles
whose metadata is known and those whose torrent is gone, the last request, the accepted add requests
with their torrents, and the events of the calls of `pop_events` before the last one. -/
structure Host where
  backend : BackendState
  creator : Nat → Option Nat := fun _ => none
  known : List Nat := []
  gone : List Nat := []
  lastRequest : Nat := 0
  accepted : List (Nat × String) := []
  published : List BackendEvent := []

inductive HostAction where
  | addTorrent (answers : Answers) (requestId : Nat) (parsed : Except Thrown TorrentSource)
  | prepareFile (answers : Answers) (requestId : Nat) (id : String) (fileIndex : Nat)
      (file : TorrentFileInfo)
  | removeTorrent (answers : Answers) (requestId : Nat) (id : String)
  | stopStream (answers : Answers) (requestId : Nat) (streamId : String)
  | pollStreams (answers : Answers) (polled : PollAnswers)
  | takeQueued
  | alert (answers : Answers) (alert : BackendAlert)
  | periodic (answers : Answers)
  | reclaimDiskCache (requestId targetBytes : Nat)
  | create (handle context : Nat)
  | learnMetadata (handle : Nat)
  | lose (handle : Nat)
  | http (action : Action)

/-- What the HTTP threads do to the bridge. -/
def isHttp : Action → Bool
  | .acquireRequest .. | .releaseRequest .. | .beginRequest .. | .readRequest .. | .endRequest ..
  | .abandonWaiter .. => true
  | .register .. | .stop .. | .remove .. | .poll .. | .popExpired | .readPieceAlert ..
  | .blockFinished .. | .hashFailed .. => false

def messageOf : Thrown → String
  | .standard what => what
  | .other => "unknown protocol backend error"

/-- The torrents behind two handles. -/
def twoTorrents (handle : Nat) : String :=
  if handle = 7 then "aaaaaaaaaaaaaaaaaaaaaaaaaaaaaaaaaaaaaaaa"
  else "bbbbbbbbbbbbbbbbbbbbbbbbbbbbbbbbbbbbbbbb"

namespace Host

/-- `process_command`: an exception becomes an error event for the request. -/
def command (host : Host) (requestId : Nat) : BackendState.Outcome → Host
  | (backend, none) => { host with backend := backend, lastRequest := requestId }
  | (backend, some thrown) =>
      { host with
        backend := backend
        lastRequest := requestId
        published := host.published ++ [{
          type := .torrentError
          requestId := requestId
          torrentId := ""
          message := messageOf thrown }] }

def accept (host : Host) (requestId : Nat) (parsed : Except Thrown TorrentSource)
    (outcome : BackendState.Outcome) : Host :=
  match parsed, outcome.2 with
  | .ok source, none =>
      { host.command requestId outcome with accepted := host.accepted ++ [(requestId, source.id)] }
  | _, _ => host.command requestId outcome

/-- A part of `pop_events`: an exception loses the events collected so far. -/
def collect (host : Host) : BackendState.Outcome → Host
  | (backend, none) => { host with backend := backend }
  | (backend, some _) => { host with backend := { backend with events := [] } }

def perform (host : Host) : HostAction → Host
  | .addTorrent answers requestId parsed =>
      host.accept requestId parsed (host.backend.addTorrent answers requestId parsed)
  | .prepareFile answers requestId id fileIndex file =>
      host.command requestId (host.backend.prepareFile answers requestId id fileIndex file)
  | .removeTorrent answers requestId id =>
      host.command requestId (host.backend.removeTorrent answers requestId id)
  | .stopStream answers requestId streamId =>
      host.command requestId (host.backend.stopStream answers requestId streamId, none)
  | .pollStreams answers polled => { host with backend := (host.backend.pollStreams answers polled).1 }
  | .takeQueued =>
      { host with
        backend := host.backend.takeQueued
        published := host.published ++ host.backend.events }
  | .alert answers alert => host.collect (host.backend.handleAlert answers alert)
  | .periodic answers => host.collect (host.backend.runPeriodicSteps answers)
  | .reclaimDiskCache requestId targetBytes =>
      host.command requestId (host.backend.reclaimDiskCache requestId targetBytes)
  | .create handle context => { host with creator := Function.update host.creator handle (some context) }
  | .learnMetadata handle => { host with known := handle :: host.known }
  | .lose handle => { host with gone := handle :: host.gone }
  | .http action => { host with backend := host.backend.work action }

variable (torrentOf : Nat → String)

/-- Handles answer with their own torrent, context and metadata. When the torrent is gone, a handle
is not valid, has no context and no id, and its status throws. -/
structure Truthful (host : Host) (answers : Answers) : Prop where
  valid : ∀ handle ∈ host.gone, answers.lt.isValid handle = false
  ids : ∀ handle, answers.torrentId handle = torrentOf handle ∨
    (answers.torrentId handle = "" ∧ handle ∈ host.gone)
  userdata : ∀ handle, answers.userdata handle = host.creator handle ∨ answers.userdata handle = none
  status : ∀ handle has, answers.hasMetadata handle = .ok has → (has = true ↔ handle ∈ host.known) ∧
    answers.userdata handle = host.creator handle ∧ answers.torrentId handle = torrentOf handle

/-- An alert about an added torrent carries a pending context and the handle of the torrent that was
made for it, or of the one that was there; a torrent that the backend does not know is not paused. -/
def AlertPossible (host : Host) : BackendAlert → Prop
  | .added context handle none => ∃ shared, context = some shared ∧ shared ∈ host.backend.pending ∧
      torrentOf handle = (host.backend.contexts shared).torrentId ∧ (host.creator handle).isSome ∧
      (host.creator handle = some shared ∨ ∀ other, host.creator other ≠ some shared) ∧
      (host.backend.handles.lookup (torrentOf handle) = some handle ∨
        (host.backend.flags handle).paused = false)
  | .added context _ (some _) => ∀ shared, context = some shared → shared ∈ host.backend.pending
  | .metadataReceived handle => handle ∈ host.known
  | _ => True

/-- What callers and libtorrent promise: request ids increase, stream tokens are drawn once, ids are
not empty, nothing throws out of a poll of the bridge, and answers are truthful. -/
def Possible (host : Host) : HostAction → Prop
  | .addTorrent answers requestId _ | .removeTorrent answers requestId _
  | .stopStream answers requestId _ =>
      host.lastRequest < requestId ∧ host.Truthful torrentOf answers
  | .prepareFile answers requestId id _ _ => host.lastRequest < requestId ∧
      host.Truthful torrentOf answers ∧ id ≠ "" ∧
      answers.token ∉ host.backend.system.registered.map StreamRoute.streamId
  | .reclaimDiskCache requestId _ => host.lastRequest < requestId
  | .periodic answers => host.Truthful torrentOf answers
  | .pollStreams answers polled => host.Truthful torrentOf answers ∧
      (host.backend.bridge.poll polled).2 = false
  | .alert answers alert => host.Truthful torrentOf answers ∧ host.AlertPossible torrentOf alert ∧
      answers.token ∉ host.backend.system.registered.map StreamRoute.streamId
  | .create handle context => host.creator handle = none ∧
      (∀ other, host.creator other ≠ some context) ∧ context ∈ host.backend.pending ∧
      torrentOf handle = (host.backend.contexts context).torrentId
  | .http action => isHttp action = true ∧ host.backend.system.Possible action
  | .takeQueued | .learnMetadata _ | .lose _ => True

def Initial (host : Host) : Prop :=
  ∃ (system : System) (timeout : Nat), system.Initial ∧
    host = { backend := { system := system, warmTorrentTimeout := timeout } }

def Reachable : Host → Prop := Transition.Reachable Initial (Possible torrentOf) perform

/-- A backend that was just started. -/
def start : Host where
  backend := { system := { bridge := .create 1024 1024 0 }, warmTorrentTimeout := 0 }

theorem start_initial : start.Initial :=
  ⟨{ bridge := .create 1024 1024 0 }, 0, ⟨1024, 1024, 0, rfl⟩, rfl⟩

/-- Truthful answers of a libtorrent whose torrents all have the same content and which accepts every
call about a torrent that is there. -/
def answers (host : Host) (info : TorrentInfo) (files : List TorrentFileInfo) (token : String) : Answers where
  lt := { Libtorrent.accepting info with isValid := fun handle => handle ∉ host.gone }
  torrentId := fun handle => if handle ∈ host.gone then "" else torrentOf handle
  userdata := fun handle => if handle ∈ host.gone then none else host.creator handle
  hasMetadata := fun handle =>
    if handle ∈ host.gone then .error (.standard "invalid torrent handle used")
    else .ok (handle ∈ host.known)
  isSeeding := fun _ => .ok false
  files := fun _ => .ok (some files)
  fails := fun _ _ => none
  asyncAddFails := none
  removeFails := none
  payloadPathFails := none
  resumeState := .ok none
  eraseResumeFails := none
  writeResumeFails := none
  sessionStateFails := none
  disk := { reading := false, reclaimed := .ok (0, 0), overBudget := .ok false, measureFails := none }
  token := token

theorem answers_truthful (host : Host) (info : TorrentInfo) (files : List TorrentFileInfo)
    (token : String) : host.Truthful torrentOf (host.answers torrentOf info files token) := by
  refine ⟨fun handle gone => ?_, fun handle => ?_, fun handle => ?_, fun handle has status => ?_⟩
  · simp [answers, gone]
  · by_cases gone : handle ∈ host.gone <;> simp [answers, gone]
  · by_cases gone : handle ∈ host.gone <;> simp [answers, gone]
  · by_cases gone : handle ∈ host.gone
    · simp [answers, gone] at status
    · simp only [answers, gone, if_false, Except.ok.injEq] at status
      simp [answers, gone, ← status]

@[simp]
theorem command_backend (host : Host) (requestId : Nat) (outcome : BackendState.Outcome) :
    (host.command requestId outcome).backend = outcome.1 := by
  obtain ⟨backend, thrown⟩ := outcome
  cases thrown <;> rfl

@[simp]
theorem command_gone (host : Host) (requestId : Nat) (outcome : BackendState.Outcome) :
    (host.command requestId outcome).gone = host.gone := by
  obtain ⟨backend, thrown⟩ := outcome
  cases thrown <;> rfl

@[simp]
theorem accept_backend (host : Host) (requestId : Nat) (parsed : Except Thrown TorrentSource)
    (outcome : BackendState.Outcome) : (host.accept requestId parsed outcome).backend = outcome.1 := by
  unfold accept
  split <;> simp

@[simp]
theorem accept_gone (host : Host) (requestId : Nat) (parsed : Except Thrown TorrentSource)
    (outcome : BackendState.Outcome) : (host.accept requestId parsed outcome).gone = host.gone := by
  unfold accept
  split <;> simp

theorem accept_creator (host : Host) (requestId : Nat) (parsed : Except Thrown TorrentSource)
    (outcome : BackendState.Outcome) : (host.accept requestId parsed outcome).creator = host.creator := by
  obtain ⟨backend, thrown⟩ := outcome
  cases parsed <;> cases thrown <;> rfl

theorem command_creator (host : Host) (requestId : Nat) (outcome : BackendState.Outcome) :
    (host.command requestId outcome).creator = host.creator := by
  obtain ⟨backend, thrown⟩ := outcome
  cases thrown <;> rfl

theorem collect_creator (host : Host) (outcome : BackendState.Outcome) :
    (host.collect outcome).creator = host.creator := by
  obtain ⟨backend, thrown⟩ := outcome
  cases thrown <;> rfl

@[simp]
theorem collect_gone (host : Host) (outcome : BackendState.Outcome) :
    (host.collect outcome).gone = host.gone := by
  obtain ⟨backend, thrown⟩ := outcome
  cases thrown <;> rfl

/-- Two torrents with one file of two pieces. -/
def twoAnswers (host : Host) : Answers :=
  host.answers twoTorrents twoPieces [⟨"video.mp4", 0, 32768⟩] "s"

end Host

end NuvioEngine.Backend
