import NuvioEngine.Bridge.SystemCore

/-!
State of the backend in `libtorrent_backend.cpp` and its commands: adding and removing torrents,
preparing a file for streaming and stopping a stream. Request contexts are shared with libtorrent
through a pointer; a context is kept under the identity of that pointer. A handle is a number, with
the flags of the torrent behind it. Every step is told what libtorrent answers while it runs.
-/

namespace NuvioEngine.Backend

open NuvioEngine.Bridge NuvioEngine.Stream NuvioEngine.Cache BridgeState

inductive MetadataSource where
  | live
  | restored
  | cold
  | provided
  deriving DecidableEq, Repr

def MetadataSource.name : MetadataSource → String
  | .live => "live"
  | .restored => "restored"
  | .cold => "cold"
  | .provided => "provided"

structure RequestContext where
  requestId : Nat := 0
  torrentId : String := ""
  metadataEmitted : Bool := false
  explicitlyRemoved : Bool := false
  metadataSource : MetadataSource := .cold
  metadataStartedAt : Nat := 0
  deriving DecidableEq, Repr

structure PendingPrepare where
  requestId : Nat
  fileIndex : Nat
  file : TorrentFileInfo

inductive BackendEventType where
  | torrentAdded
  | metadataReady
  | torrentError
  | streamPrepared
  | streamStopped
  | diskCacheReclaimed
  | torrentRemoved
  deriving DecidableEq, Repr

structure BackendEvent where
  type : BackendEventType
  requestId : Nat
  torrentId : String
  message : String := ""
  files : List TorrentFileInfo := []
  streamId : String := ""
  fileIndex : Nat := uint32Max
  fileSize : Nat := 0

/-- Every torrent is added in upload mode, not paused and not auto-managed. -/
structure TorrentFlags where
  uploadMode : Bool := true
  paused : Bool := false
  autoManaged : Bool := false
  deriving DecidableEq, Repr

inductive HandleCall where
  | setUploadMode
  | unsetUploadMode
  | pause
  | resume
  | prioritizeFiles (priorities : List Nat)
  | saveResumeData
  | forceDhtAnnounce
  | postPeerInfo
  deriving DecidableEq, Repr

def TorrentFlags.apply (flags : TorrentFlags) : HandleCall → TorrentFlags
  | .setUploadMode => { flags with uploadMode := true }
  | .unsetUploadMode => { flags with uploadMode := false }
  | .pause => { flags with paused := true, autoManaged := false }
  | .resume => { flags with paused := false, autoManaged := false }
  | .prioritizeFiles _ | .saveResumeData | .forceDhtAnnounce | .postPeerInfo => flags

/-- What the disk cache answers: whether a stream is being read, what an enforcement that is asked for
leaves in use and allows, and whether a regular one or a measurement goes over the budget. -/
structure DiskAnswers where
  reading : Bool
  reclaimed : Except String (Nat × Nat)
  overBudget : Except String Bool
  measureFails : Option String

/-- What libtorrent, the file system and the clock answer during one step. `userdata` is the context
of the torrent behind a handle, `torrentId` the id of its hashes, and `resumeState` whether a stored
state is there and has metadata. -/
structure Answers where
  lt : Libtorrent
  torrentId : Nat → String
  userdata : Nat → Option Nat
  hasMetadata : Nat → Except Thrown Bool
  isSeeding : Nat → Except Thrown Bool
  files : Nat → Except Thrown (Option (List TorrentFileInfo))
  fails : Nat → HandleCall → Option Thrown
  asyncAddFails : Option Thrown
  removeFails : Option String
  payloadPathFails : Option Thrown
  resumeState : Except String (Option Bool)
  eraseResumeFails : Option String
  writeResumeFails : Option String
  sessionStateFails : Option String
  disk : DiskAnswers
  token : String

/-- What `add_torrent` needs of its input: the id of the hashes and whether the input is a torrent
file, which has the metadata. -/
structure TorrentSource where
  id : String
  isTorrentData : Bool

structure BackendState where
  system : System
  warmTorrentTimeout : Nat
  contexts : Nat → RequestContext := fun _ => {}
  nextContext : Nat := 0
  pending : List Nat := []
  active : HashMap String Nat := ∅
  retired : List Nat := []
  handles : HashMap String Nat := ∅
  flags : Nat → TorrentFlags := fun _ => {}
  warmSince : HashMap String Nat := ∅
  quiescedTorrents : List String := []
  pendingPrepares : HashMap String PendingPrepare := ∅
  pendingRemovals : HashMap String Nat := ∅
  pendingResumeSaves : List Nat := []
  pendingCacheUnloads : List String := []
  pendingCacheRemovals : List String := []
  resumeFiles : List String := []
  queuedEvents : List BackendEvent := []
  events : List BackendEvent := []
  nextWarmCheck : Nat := 0
  dhtReady : Bool := false
  pendingDiskReclaims : List (Nat × Nat) := []
  lastDiskCacheError : String := ""
  nextDiskCacheCheck : Nat := 0
  nextDiskCacheMeasurement : Nat := 0
  lastResumeCheckpoint : Nat := 0
  lastSessionCheckpoint : Nat := 0
  lastTelemetryRequest : Nat := 0

def isCanonicalTorrentId (value : String) : Bool :=
  (value.length = 40 || value.length = 64) &&
    value.toList.all fun character => character.isDigit || ('a' ≤ character && character ≤ 'f')

namespace BackendState

def bridge (backend : BackendState) : BridgeState := backend.system.bridge

def queue (backend : BackendState) (event : BackendEvent) : BackendState :=
  { backend with queuedEvents := backend.queuedEvents ++ [event] }

def emit (backend : BackendState) (event : BackendEvent) : BackendState :=
  { backend with events := backend.events ++ [event] }

def work (backend : BackendState) (action : Action) : BackendState :=
  { backend with system := backend.system.perform action }

def call (backend : BackendState) (answers : Answers) (handle : Nat) (call : HandleCall) :
    Except Thrown BackendState :=
  match answers.fails handle call with
  | some thrown => .error thrown
  | none => .ok { backend with
      flags := Function.update backend.flags handle ((backend.flags handle).apply call) }

/-- A call whose exceptions are caught and ignored. -/
def callQuietly (backend : BackendState) (answers : Answers) (handle : Nat) (call : HandleCall) :
    BackendState :=
  match backend.call answers handle call with
  | .error _ => backend
  | .ok next => next

def setContext (backend : BackendState) (context : Nat) (change : RequestContext → RequestContext) :
    BackendState :=
  { backend with
    contexts := Function.update backend.contexts context (change (backend.contexts context)) }

def markWarm (backend : BackendState) (now : Nat) (id : String) : BackendState :=
  if (backend.warmSince.lookup id).isSome then backend
  else { backend with warmSince := backend.warmSince.insert id now }

def requestResumeSave (backend : BackendState) (answers : Answers) (handle : Nat) : BackendState :=
  if !answers.lt.isValid handle then backend
  else
    match answers.userdata handle with
    | none => backend
    | some context =>
        if (backend.contexts context).explicitlyRemoved || context ∈ backend.pendingResumeSaves then
          backend
        else
          match backend.call answers handle .saveResumeData with
          | .error _ => backend
          | .ok sent => { sent with pendingResumeSaves := sent.pendingResumeSaves.insert context }

/-- One turn of the loop of `focus_torrent`. -/
def focusOne (answers : Answers) (requestedId : String) (backend : BackendState)
    (entry : Sigma fun _ : String => Nat) : BackendState :=
  if entry.1 = requestedId ∨ !answers.lt.isValid entry.2 ∨
      backend.bridge.hasStreamForTorrent entry.1 then backend
  else
    match backend.call answers entry.2 .setUploadMode with
    | .error _ => backend
    | .ok uploading =>
        match uploading.call answers entry.2 .pause with
        | .error _ => uploading
        | .ok paused =>
            let marked := paused.markWarm answers.lt.now entry.1
            { marked with quiescedTorrents := marked.quiescedTorrents.insert entry.1 }

def focusTorrent (backend : BackendState) (answers : Answers) (requestedId : String) : BackendState :=
  backend.handles.entries.foldl (focusOne answers requestedId) backend

/-- The backend after a step that may throw. -/
abbrev Outcome := BackendState × Option Thrown

def activateTorrent (backend : BackendState) (answers : Answers) (id : String) (handle : Nat) : Outcome :=
  let kept := { backend with
    pendingCacheUnloads := backend.pendingCacheUnloads.filter fun other => other ≠ id }
  match kept.call answers handle .setUploadMode with
  | .error thrown => (kept, some thrown)
  | .ok uploading =>
      match uploading.call answers handle .resume with
      | .error thrown => (uploading, some thrown)
      | .ok resumed =>
          ({ resumed with
            quiescedTorrents := resumed.quiescedTorrents.filter fun other => other ≠ id
            warmSince := resumed.warmSince.erase id }, none)

def elapsed (now : Nat) (context : Option RequestContext) : Nat :=
  match context with
  | none => 0
  | some request => if request.metadataStartedAt = 0 then 0 else now - request.metadataStartedAt

def metadataEvent (answers : Answers) (handle : Nat) (context : Option RequestContext)
    (source : MetadataSource) : Except Thrown BackendEvent :=
  match answers.files handle with
  | .error thrown => .error thrown
  | .ok files => .ok {
      type := .metadataReady
      requestId := context.elim 0 RequestContext.requestId
      torrentId := answers.torrentId handle
      message := "metadata_source=" ++ source.name ++ " metadata_elapsed_ms=" ++
        toString (elapsed answers.lt.now context)
      files := files.getD [] }

/-- The handle under which a torrent is known, while it is valid. -/
def validHandle (backend : BackendState) (answers : Answers) (id : String) : Option Nat :=
  (backend.handles.lookup id).filter fun handle => answers.lt.isValid handle

/-- `add_torrent` for a torrent that is there already. -/
def addExisting (backend : BackendState) (answers : Answers) (requestId : Nat) (id : String) (handle : Nat) :
    Outcome :=
  match backend.activateTorrent answers id handle with
  | (stopped, some thrown) => (stopped, some thrown)
  | (activated, none) =>
      let recorded := match answers.userdata handle with
        | none => activated
        | some context => activated.setContext context fun request =>
            { request with requestId := requestId, metadataStartedAt := answers.lt.now }
      let added := recorded.queue { type := .torrentAdded, requestId := requestId, torrentId := id }
      match answers.hasMetadata handle with
      | .error thrown => (added, some thrown)
      | .ok false => (added, none)
      | .ok true =>
          let request : RequestContext := {
            requestId := requestId
            torrentId := id
            metadataSource := .live
            metadataStartedAt := answers.lt.now }
          match metadataEvent answers handle (some request) .live with
          | .error thrown => (added, some thrown)
          | .ok event => (added.queue event, none)

def metadataSourceFor (source : TorrentSource) (resume : Option Bool) : MetadataSource :=
  if resume = some true then .restored
  else if source.isTorrentData then .provided
  else .cold

/-- `add_torrent` for a torrent that is not there: a new context goes to libtorrent. -/
def addNew (backend : BackendState) (answers : Answers) (requestId : Nat) (source : TorrentSource) :
    Outcome :=
  let loaded := match answers.resumeState with
    | .ok _ => backend
    | .error message => backend.queue {
        type := .torrentError
        requestId := 0
        torrentId := source.id
        message := "ignored persisted torrent state: " ++ message }
  match answers.payloadPathFails with
  | some thrown => (loaded, some thrown)
  | none =>
      let context : RequestContext := {
        requestId := requestId
        torrentId := source.id
        metadataSource := metadataSourceFor source (answers.resumeState.toOption.getD none)
        metadataStartedAt := answers.lt.now }
      match answers.asyncAddFails with
      | some thrown => (loaded, some thrown)
      | none => ({ loaded with
          contexts := Function.update loaded.contexts loaded.nextContext context
          nextContext := loaded.nextContext + 1
          pending := loaded.pending ++ [loaded.nextContext] }, none)

def addTorrent (backend : BackendState) (answers : Answers) (requestId : Nat)
    (parsed : Except Thrown TorrentSource) : Outcome :=
  match parsed with
  | .error thrown => (backend, some thrown)
  | .ok source =>
      if !isCanonicalTorrentId source.id then
        (backend, some (.standard "torrent source has no canonical info hash"))
      else
        let focused := backend.focusTorrent answers source.id
        match focused.validHandle answers source.id with
        | some handle => focused.addExisting answers requestId source.id handle
        | none => focused.addNew answers requestId source

/-- Register the stream of a prepared file. -/
def preparedEvent (backend : BackendState) (answers : Answers) (handle : Nat) (id : String)
    (prepare : PendingPrepare) : Except Thrown (BackendState × BackendEvent) :=
  match registerStream answers.lt backend.bridge answers.token handle id prepare.fileIndex
      prepare.file with
  | .error thrown => .error thrown
  | .ok (_, streamId) => .ok
      (backend.work (.register answers.lt answers.token handle id prepare.fileIndex prepare.file),
        { type := .streamPrepared
          requestId := prepare.requestId
          torrentId := id
          streamId := streamId
          fileIndex := prepare.fileIndex
          fileSize := prepare.file.size })

def filePriorities (count fileIndex : Nat) : List Nat :=
  (List.replicate count dontDownload).set fileIndex defaultPriority

/-- The part of `prepare_file` after the torrent is activated. -/
def prepareActivated (backend : BackendState) (answers : Answers) (requestId : Nat) (id : String)
    (handle fileIndex : Nat) (file : TorrentFileInfo) : Outcome :=
  if (backend.pendingPrepares.lookup id).isSome then
    (backend, some (.standard "stream preparation already pending"))
  else
    match answers.files handle with
    | .error thrown => (backend, some thrown)
    | .ok none => (backend, some (.standard "selected torrent file is unavailable"))
    | .ok (some files) =>
        if fileIndex ≥ files.length then
          (backend, some (.standard "selected torrent file is unavailable"))
        else
          let prepare : PendingPrepare := ⟨requestId, fileIndex, file⟩
          match answers.isSeeding handle with
          | .error thrown => (backend, some thrown)
          | .ok true =>
              match backend.preparedEvent answers handle id prepare with
              | .error thrown => (backend, some thrown)
              | .ok (registered, event) => (registered.queue event, none)
          | .ok false =>
              match backend.call answers handle
                  (.prioritizeFiles (filePriorities files.length fileIndex)) with
              | .error thrown => (backend, some thrown)
              | .ok sent =>
                  ({ sent with pendingPrepares := sent.pendingPrepares.insert id prepare }, none)

def prepareFile (backend : BackendState) (answers : Answers) (requestId : Nat) (id : String)
    (fileIndex : Nat) (file : TorrentFileInfo) : Outcome :=
  match backend.validHandle answers id with
  | none => (backend, some (.standard "torrent not found"))
  | some handle =>
      match (backend.focusTorrent answers id).activateTorrent answers id handle with
      | (stopped, some thrown) => (stopped, some thrown)
      | (activated, none) =>
          activated.prepareActivated answers requestId id handle fileIndex file

def markRemoved (backend : BackendState) (context : Option Nat) (removed : Bool) : BackendState :=
  match context with
  | none => backend
  | some shared => backend.setContext shared fun request => { request with explicitlyRemoved := removed }

def forgetResumeSave (backend : BackendState) (context : Option Nat) : BackendState :=
  { backend with
    pendingResumeSaves := backend.pendingResumeSaves.filter fun other => some other ≠ context }

/-- Delete the stored state of a torrent, or tell that this failed. -/
def eraseResume (backend : BackendState) (answers : Answers) (id : String)
    (report : BackendState → BackendEvent → BackendState) (requestId : Nat) : BackendState :=
  match answers.eraseResumeFails with
  | none => { backend with resumeFiles := backend.resumeFiles.filter fun other => other ≠ id }
  | some message => report backend {
      type := .torrentError
      requestId := requestId
      torrentId := id
      message := "failed to remove persisted torrent state: " ++ message }

/-- The part of `remove_torrent` after libtorrent took the removal. -/
def removeAccepted (backend : BackendState) (answers : Answers) (requestId : Nat) (id : String)
    (context : Option Nat) : BackendState :=
  let forgotten := backend.forgetResumeSave context
  let cleared := { forgotten with
    warmSince := forgotten.warmSince.erase id
    quiescedTorrents := forgotten.quiescedTorrents.filter fun other => other ≠ id }
  let erased := (cleared.work (.remove answers.lt id)).eraseResume answers id queue requestId
  match erased.pendingPrepares.lookup id with
  | none => erased
  | some prepare =>
      let cancelled := { erased with pendingPrepares := erased.pendingPrepares.erase id }
      cancelled.queue {
        type := .torrentError
        requestId := prepare.requestId
        torrentId := id
        message := "stream preparation cancelled by torrent removal" }

def removeTorrent (backend : BackendState) (answers : Answers) (requestId : Nat) (id : String) : Outcome :=
  match backend.validHandle answers id with
  | none => (backend, some (.standard "torrent not found"))
  | some handle =>
      if (backend.pendingRemovals.lookup id).isSome then
        (backend, some (.standard "torrent removal already pending"))
      else
        let context := answers.userdata handle
        let cacheRemovalPending := id ∈ backend.pendingCacheRemovals
        let marked := backend.markRemoved context true
        let dropped := { marked with
          pendingCacheUnloads := marked.pendingCacheUnloads.filter fun other => other ≠ id
          pendingCacheRemovals := marked.pendingCacheRemovals.filter fun other => other ≠ id }
        match (if cacheRemovalPending then none else answers.removeFails) with
        | some what => (dropped.markRemoved context false, some (.standard what))
        | none =>
            let noted := { dropped with
              pendingRemovals := dropped.pendingRemovals.insert id requestId }
            (noted.removeAccepted answers requestId id context, none)

/-- A stopped or expired stream leaves its torrent warm and in upload mode. -/
def cool (backend : BackendState) (answers : Answers) (id : String) : BackendState :=
  let warm := backend.markWarm answers.lt.now id
  match warm.validHandle answers id with
  | none => warm
  | some handle =>
      if warm.bridge.hasStreamForTorrent id then warm
      else warm.callQuietly answers handle .setUploadMode

def stopStream (backend : BackendState) (answers : Answers) (requestId : Nat) (streamId : String) :
    BackendState :=
  let id := (BridgeState.stopStream answers.lt backend.bridge streamId).2
  let stopped := backend.work (.stop answers.lt streamId)
  let cooled := if id.isEmpty then stopped else stopped.cool answers id
  cooled.queue {
    type := .streamStopped
    requestId := requestId
    torrentId := id
    streamId := streamId }

def maximumPendingDiskReclaims : Nat := 256

def reclaimDiskCache (backend : BackendState) (requestId targetBytes : Nat) : Outcome :=
  if backend.pendingDiskReclaims.length ≥ maximumPendingDiskReclaims then
    (backend, some (.standard "too many pending disk cache reclaim requests"))
  else
    ({ backend with pendingDiskReclaims := backend.pendingDiskReclaims ++ [(requestId, targetBytes)] },
      none)

end BackendState

end NuvioEngine.Backend
