import NuvioEngine.Backend.HostCore
import NuvioEngine.Backend.ResumeProtocol

/-!
The backend inside libtorrent's session, as far as resume files go. What the backend asks of the session
is carried out in order by another thread, which posts its alerts in order. The answer to a save can
come at any later time, or after the torrent is gone; a save that is asked of a torrent that is out of
the session is refused. The torrent that is made for a request context has the number of the context
as its handle. A handle expires some time after the torrent left the session, also during a step of the
backend: it is then not valid and has neither a context nor a hash.
-/

namespace NuvioEngine.Backend

open NuvioEngine.Bridge NuvioEngine.Stream BridgeState

/-- An alert about a torrent that came or left, or about a request that failed. -/
inductive Posted where
  | added (context handle : Nat)
  | refused (context : Nat) (message : String)
  | removed (handle : Nat)
  deriving DecidableEq, Repr

/-- `saving` and `refused` hold the torrents whose save was carried out, or came too late, and is not
answered. An id is `unwanted` from the accepted removal by the user until a context is made for it,
`awaited` until the alert of the removal comes, and `cleared` when it was unwanted then and its resume
file was deleted. -/
structure Session where
  backend : BackendState
  commands : List (Command Nat) := []
  posted : List Posted := []
  live : List Nat := []
  made : List Nat := []
  gone : List Nat := []
  saving : List Nat := []
  refused : List Nat := []
  unwanted : List String := []
  awaited : List String := []
  cleared : List String := []

/-- Steps of the backend, with the handles that expire during them, and of the session. -/
inductive SessionAction where
  | run (expiring : List Nat) (action : HostAction)
  | saveAll (expiring : List Nat) (answers : Answers)
  | deliver (expiring : List Nat) (answers : Answers)
  | saved (expiring : List Nat) (answers : Answers) (handle : Nat)
  | saveFailed (expiring : List Nat) (answers : Answers) (handle : Nat) (notModified : Bool)
      (message : String)
  | saveRefused (expiring : List Nat) (answers : Answers) (handle : Nat) (notModified : Bool)
      (message : String)
  | carryOut (refusal : Option String) (told : Bool)
  | expire (handle : Nat)

def HostAction.answers : HostAction → Option Answers
  | .addTorrent answers .. | .prepareFile answers .. | .removeTorrent answers .. | .stopStream answers ..
  | .pollStreams answers _ | .alert answers _ | .periodic answers => some answers
  | .takeQueued | .reclaimDiskCache .. | .create .. | .learnMetadata _ | .lose _ | .http _ => none

/-- What the backend does on its own: everything but the alerts that the session keeps in order, the
answers to saves, and what happens around the backend. -/
def HostAction.isOwn : HostAction → Bool
  | .alert _ (.added ..) | .alert _ (.torrentRemoved ..) | .alert _ (.resumeSaved _)
  | .alert _ (.resumeSaveFailed ..) | .create .. | .learnMetadata _ | .lose _ => false
  | .addTorrent .. | .prepareFile .. | .removeTorrent .. | .stopStream .. | .pollStreams .. | .takeQueued
  | .alert .. | .periodic _ | .reclaimDiskCache .. | .http _ => true

namespace BackendState

def after (backend : BackendState) (action : HostAction) : BackendState :=
  (({ backend := backend } : Host).perform action).backend

/-- The saves that `shutdown` asks for. -/
def saveAll (backend : BackendState) (answers : Answers) : BackendState :=
  (backend.handles.entries.filter fun entry => (backend.pendingRemovals.lookup entry.1).isNone).foldl
    (fun current entry => current.requestResumeSave answers entry.2) backend

/-- What is left of the marks when the handler of an alert has taken the ones of the alert. -/
def unmarked (backend : BackendState) (answers : Answers) : BackendAlert → BackendState
  | .torrentRemoved context hashId =>
      { backend.forgetResumeSave context with
        pendingCacheRemovals := backend.pendingCacheRemovals.filter fun id =>
          id ≠ backend.idOf context hashId }
  | .resumeSaved handle | .resumeSaveFailed handle _ _ =>
      backend.forgetResumeSave (answers.userdata handle)
  | .added .. | .metadataReceived _ | .torrentError .. | .fileError .. | .filePriority .. | .torrentFinished _
  | .readPiece _ | .blockFinished .. | .hashFailed .. | .dhtBootstrap => backend

/-- The calls of `remove_torrent` and `save_resume_data` behind the marks that a step sets. A step that
takes a torrent out asks for no save of it before. -/
def calls (before after : BackendState) (taken : String → Option Nat) : List (Command Nat) :=
  ((after.pendingCacheRemovals.filter fun id => id ∉ before.pendingCacheRemovals).filterMap fun id =>
    (taken id).map Command.remove) ++
  (after.pendingResumeSaves.filter fun context => context ∉ before.pendingResumeSaves).map Command.save

/-- The calls to the session of a step of the backend. -/
def asked (backend : BackendState) : HostAction → List (Command Nat)
  | .addTorrent answers requestId parsed =>
      if backend.nextContext < (backend.addTorrent answers requestId parsed).1.nextContext then
        [.add backend.nextContext]
      else []
  | .removeTorrent answers requestId id =>
      if (backend.removeTorrent answers requestId id).2 = none ∧ id ∉ backend.pendingCacheRemovals then
        (backend.handles.lookup id).toList.map Command.remove
      else []
  | action => calls backend (backend.after action) (backend.after action).handles.lookup

end BackendState

namespace Session

def post (session : Session) (posted : Posted) : Session :=
  { session with posted := session.posted ++ [posted] }

/-- The backend takes a step with some calls while handles expire. -/
def advance (session : Session) (expiring : List Nat) (after : BackendState)
    (calls : List (Command Nat)) : Session :=
  { session with
    backend := after
    gone := expiring ++ session.gone
    commands := session.commands ++ calls }

/-- What the user asked for. -/
def intend (session : Session) (backend : BackendState) : HostAction → Session
  | .addTorrent answers requestId (.ok source) =>
      if backend.nextContext < (backend.addTorrent answers requestId (.ok source)).1.nextContext then
        { session with
          unwanted := session.unwanted.filter fun id => id ≠ source.id
          cleared := session.cleared.filter fun id => id ≠ source.id }
      else session
  | .removeTorrent answers requestId id =>
      if (backend.removeTorrent answers requestId id).2 = none then
        { session with
          unwanted := session.unwanted.insert id
          awaited := session.awaited.insert id }
      else session
  | _ => session

/-- The alert of a removal that the user asked for came. -/
def settle (session : Session) (answers : Answers) (id : String) : Session :=
  if id ∉ session.awaited then session
  else
    { session with
      awaited := session.awaited.filter fun other => other ≠ id
      cleared :=
        if answers.eraseResumeFails = none ∧ id ∈ session.unwanted then session.cleared.insert id
        else session.cleared }

/-- The backend handles an alert; `taken` is the torrent that is taken out for the cache under an id. -/
def handle (session : Session) (expiring : List Nat) (answers : Answers) (alert : BackendAlert)
    (taken : BackendState → String → Option Nat) : Session :=
  let after := session.backend.after (.alert answers alert)
  session.advance expiring after (BackendState.calls (session.backend.unmarked answers alert) after (taken after))

variable (torrentOf : Nat → String)

def alertOf : Posted → BackendAlert
  | .added context handle => .added (some context) handle none
  | .refused context message => .added (some context) 0 (some message)
  | .removed handle => .torrentRemoved (some handle) (torrentOf handle)

def deliver (session : Session) (expiring : List Nat) (answers : Answers) : Session :=
  match session.posted with
  | [] => session
  | posted :: rest =>
      let told := { session with posted := rest }.handle expiring answers (alertOf torrentOf posted)
        fun after => after.handles.lookup
      match posted with
      | .removed handle => told.settle answers (torrentOf handle)
      | .added .. | .refused .. => told

/-- The session's thread takes the next command. A torrent that is there already answers the request for
another one of its id, and a second removal of a torrent may be told or not. -/
def carryOut (session : Session) (refusal : Option String) (told : Bool) : Session :=
  match session.commands with
  | [] => session
  | .add context :: rest =>
      let taken := { session with commands := rest }
      match refusal with
      | some message => taken.post (.refused context message)
      | none =>
          match session.live.find? fun handle => torrentOf handle = torrentOf context with
          | some present => taken.post (.added context present)
          | none =>
              { taken with live := context :: session.live, made := context :: session.made }.post
                (.added context context)
  | .remove handle :: rest =>
      let taken := { session with commands := rest }
      if handle ∈ session.live then
        { taken with live := session.live.filter fun other => other ≠ handle }.post (.removed handle)
      else if told then taken.post (.removed handle)
      else taken
  | .save handle :: rest =>
      if handle ∈ session.live then
        { session with commands := rest, saving := session.saving ++ [handle] }
      else { session with commands := rest, refused := session.refused ++ [handle] }

def perform (session : Session) : SessionAction → Session
  | .run expiring action =>
      (session.advance expiring (session.backend.after action) (session.backend.asked action)).intend
        session.backend action
  | .saveAll expiring answers =>
      let after := session.backend.saveAll answers
      session.advance expiring after (BackendState.calls session.backend after after.handles.lookup)
  | .deliver expiring answers => session.deliver torrentOf expiring answers
  | .saved expiring answers handle =>
      { session with saving := session.saving.erase handle }.handle expiring answers (.resumeSaved handle)
        fun _ _ => some handle
  | .saveFailed expiring answers handle notModified message =>
      { session with saving := session.saving.erase handle }.handle expiring answers
        (.resumeSaveFailed handle notModified message) fun _ _ => some handle
  | .saveRefused expiring answers handle notModified message =>
      { session with refused := session.refused.erase handle }.handle expiring answers
        (.resumeSaveFailed handle notModified message) fun _ _ => some handle
  | .carryOut refusal told => session.carryOut torrentOf refusal told
  | .expire handle => { session with gone := handle :: session.gone }

/-- The ids whose resume files a step writes: those that have one after it when none had one before. -/
def written (session : Session) (action : SessionAction) : List String :=
  ({ session with backend := { session.backend with resumeFiles := [] } }.perform torrentOf action).backend.resumeFiles

/-- A handle is valid until it expires. It answers with its context and the hash of its torrent, and
with neither when it is expired. -/
structure Faithful (session : Session) (expiring : List Nat) (answers : Answers) : Prop where
  valid : ∀ handle ∈ session.made, handle ∉ session.gone → handle ∉ expiring → answers.lt.isValid handle = true
  invalid : ∀ handle ∈ session.gone, answers.lt.isValid handle = false
  seen : ∀ handle,
    (handle ∈ session.made ∧ handle ∉ session.gone ∧ answers.userdata handle = some handle ∧
      (answers.torrentId handle = torrentOf handle ∨
        (answers.torrentId handle = "" ∧ handle ∈ expiring))) ∨
    (answers.userdata handle = none ∧ answers.torrentId handle = "" ∧
      (handle ∈ session.made → handle ∈ session.gone ∨ handle ∈ expiring))

/-- The torrents that left the session can expire. -/
def CanExpire (session : Session) (expiring : List Nat) : Prop :=
  ∀ handle ∈ expiring, handle ∈ session.made ∧ handle ∉ session.live

/-- What libtorrent promises: answers are faithful, `remove_torrent` throws for an expired handle only,
and an alert that answers a save was asked for. A context is made for the torrent that it is about. -/
def Possible (session : Session) : SessionAction → Prop
  | .run expiring action => session.CanExpire expiring ∧ action.isOwn = true ∧
      (∀ answers, action.answers = some answers → session.Faithful torrentOf expiring answers) ∧
      (∀ answers requestId id handle, action = .removeTorrent answers requestId id →
        session.backend.handles.lookup id = some handle → answers.removeFails ≠ none →
          handle ∈ expiring) ∧
      (∀ answers requestId source, action = .addTorrent answers requestId (.ok source) →
        session.backend.nextContext <
          (session.backend.addTorrent answers requestId (.ok source)).1.nextContext →
            torrentOf session.backend.nextContext = source.id)
  | .saveAll expiring answers => session.CanExpire expiring ∧ session.Faithful torrentOf expiring answers
  | .deliver expiring answers => session.CanExpire expiring ∧
      session.Faithful torrentOf expiring answers ∧ session.posted ≠ []
  | .saved expiring answers handle | .saveFailed expiring answers handle _ _ =>
      session.CanExpire expiring ∧ session.Faithful torrentOf expiring answers ∧ handle ∈ session.saving
  | .saveRefused expiring answers handle _ _ => session.CanExpire expiring ∧
      session.Faithful torrentOf expiring answers ∧ handle ∈ session.refused
  | .carryOut _ _ => session.commands ≠ []
  | .expire handle => session.CanExpire [handle]

/-- The backend was just started; resume files of earlier runs may be there. -/
def Initial (session : Session) : Prop :=
  ∃ (system : System) (timeout : Nat) (files : List String), session = {
    backend := { system := system, warmTorrentTimeout := timeout, resumeFiles := files } }

def Reachable : Session → Prop := Transition.Reachable Initial (Possible torrentOf) (perform torrentOf)

end Session

end NuvioEngine.Backend
