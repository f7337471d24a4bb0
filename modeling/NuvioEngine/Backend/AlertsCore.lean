import NuvioEngine.Backend.BackendCore

/-!
Executable embedding of `pop_events`: the expired streams, the handlers of libtorrent's alerts, and
the periodic steps after them, from the quiescence of warm torrents to the unloading of torrents for
the disk cache. `events` collects what `pop_events` returns; an exception loses it.
-/

namespace NuvioEngine.Backend

open NuvioEngine.Bridge NuvioEngine.Stream NuvioEngine.Cache BridgeState

inductive BackendAlert where
  | added (context : Option Nat) (handle : Nat) (error : Option String)
  | metadataReceived (handle : Nat)
  | torrentError (handle : Nat) (message : String)
  | fileError (handle : Nat) (message : String)
  | filePriority (handle : Nat) (error : Option String)
  | resumeSaved (handle : Nat)
  | resumeSaveFailed (handle : Nat) (notModified : Bool) (message : String)
  | torrentFinished (handle : Nat)
  | torrentRemoved (context : Option Nat) (hashId : String)
  | readPiece (alert : ReadPieceAlert)
  | blockFinished (torrentId : String) (piece block : Nat)
  | hashFailed (torrentId : String) (piece : Nat)
  | dhtBootstrap

namespace BackendState

def requestOf (backend : BackendState) (context : Option Nat) : Nat :=
  context.elim 0 fun shared => (backend.contexts shared).requestId

/-- The id under which a context's torrent is kept, or the one of the hashes. -/
def idOf (backend : BackendState) (context : Option Nat) (hashId : String) : String :=
  context.elim hashId fun shared =>
    if (backend.contexts shared).torrentId = "" then hashId else (backend.contexts shared).torrentId

/-- The context that was active for a torrent is kept for libtorrent, which may still point to it. -/
def retire (backend : BackendState) (id : String) : BackendState :=
  match backend.active.lookup id with
  | none => backend
  | some context => { backend with
      retired := backend.retired ++ [context]
      active := backend.active.erase id }

def dropPending (backend : BackendState) (context : Option Nat) : BackendState :=
  { backend with pending := backend.pending.filter fun other => some other ≠ context }

/-- A pending context becomes the active one if libtorrent made the torrent for it. -/
def adopt (backend : BackendState) (answers : Answers) (id : String) (handle : Nat)
    (context : Option Nat) : BackendState :=
  match context with
  | none => backend
  | some shared =>
      let named := backend.setContext shared fun request => { request with torrentId := id }
      if shared ∈ named.pending ∧ answers.userdata handle = some shared then
        let retired := named.retire id
        { retired with active := retired.active.insert id shared }.dropPending context
      else named

def emitMetadata (backend : BackendState) (answers : Answers) (handle : Nat) (context : Option Nat)
    (source : MetadataSource) : Outcome :=
  let marked := match context with
    | none => backend
    | some shared => backend.setContext shared fun request => { request with metadataEmitted := true }
  match metadataEvent answers handle (context.map marked.contexts) source with
  | .error thrown => (marked, some thrown)
  | .ok event => (marked.emit event, none)

/-- The metadata of an added torrent is told at once when it is there. -/
def announce (backend : BackendState) (answers : Answers) (handle : Nat) (context : Option Nat) :
    Outcome :=
  match answers.hasMetadata handle, context with
  | .error thrown, _ => (backend, some thrown)
  | .ok false, _ | .ok true, none => (backend, none)
  | .ok true, some shared =>
      if (backend.contexts shared).metadataEmitted then (backend, none)
      else
        let source := (backend.contexts shared).metadataSource
        match backend.emitMetadata answers handle context source with
        | (stopped, some thrown) => (stopped, some thrown)
        | (told, none) =>
            (if source = .restored then told else told.requestResumeSave answers handle, none)

/-- A newly added torrent is announced when the DHT is there. -/
def announceAdded (backend : BackendState) (answers : Answers) (handle : Nat) : Except Thrown BackendState :=
  if backend.dhtReady then backend.call answers handle .forceDhtAnnounce else .ok backend

def handleAdded (backend : BackendState) (answers : Answers) (context : Option Nat) (handle : Nat)
    (error : Option String) : Outcome :=
  let requestId := backend.requestOf context
  match error with
  | some message =>
      let told := backend.emit {
        type := .torrentError
        requestId := requestId
        torrentId := ""
        message := message }
      (told.dropPending context, none)
  | none =>
      let id := answers.torrentId handle
      let known := { backend with handles := backend.handles.insert id handle }
      match known.announceAdded answers handle with
      | .error thrown => (known, some thrown)
      | .ok announced =>
          let adopted := announced.adopt answers id handle context
          let told := adopted.emit { type := .torrentAdded, requestId := requestId, torrentId := id }
          match told.announce answers handle context with
          | (stopped, some thrown) => (stopped, some thrown)
          -- a context that libtorrent did not take is dropped
          | (finished, none) => (finished.dropPending context, none)

def handleMetadata (backend : BackendState) (answers : Answers) (handle : Nat) : Outcome :=
  let context := answers.userdata handle
  if context.elim false fun shared => (backend.contexts shared).metadataEmitted then (backend, none)
  else
    match backend.emitMetadata answers handle context .cold with
    | (stopped, some thrown) => (stopped, some thrown)
    | (told, none) => (told.requestResumeSave answers handle, none)

def handleError (backend : BackendState) (answers : Answers) (handle : Nat) (message : String) :
    BackendState :=
  backend.emit {
    type := .torrentError
    requestId := backend.requestOf (answers.userdata handle)
    torrentId := answers.torrentId handle
    message := message }

/-- Tell that the pending preparation of a torrent failed. -/
def emitPrepareError (backend : BackendState) (id : String) (prepare : PendingPrepare)
    (message : String) : BackendState :=
  backend.emit {
    type := .torrentError
    requestId := prepare.requestId
    torrentId := id
    message := message }

def dropPrepare (backend : BackendState) (id : String) : BackendState :=
  { backend with pendingPrepares := backend.pendingPrepares.erase id }

/-- The `try` block of `handle_file_priority`. -/
def finishPrepare (backend : BackendState) (answers : Answers) (handle : Nat) (id : String)
    (prepare : PendingPrepare) : Outcome :=
  match backend.call answers handle .unsetUploadMode with
  | .error thrown => (backend, some thrown)
  | .ok downloading =>
      match downloading.preparedEvent answers handle id prepare with
      | .error thrown => (downloading, some thrown)
      | .ok (registered, event) => ((registered.emit event).requestResumeSave answers handle, none)

def handleFilePriority (backend : BackendState) (answers : Answers) (handle : Nat)
    (error : Option String) : Outcome :=
  let id := answers.torrentId handle
  match backend.pendingPrepares.lookup id with
  | none => (backend, none)
  | some prepare =>
      match error with
      | some message => ((backend.emitPrepareError id prepare message).dropPrepare id, none)
      | none =>
          match backend.finishPrepare answers handle id prepare with
          | (finished, none) => (finished.dropPrepare id, none)
          | (stopped, some (.standard what)) =>
              ((stopped.emitPrepareError id prepare what).dropPrepare id, none)
          | (stopped, some .other) => (stopped, some .other)

def handleFileError (backend : BackendState) (answers : Answers) (handle : Nat) (message : String) :
    BackendState :=
  let id := answers.torrentId handle
  match backend.pendingPrepares.lookup id with
  | none => backend
  | some prepare => (backend.emitPrepareError id prepare message).dropPrepare id

/-- The same error of the disk cache is told once. -/
def reportDiskCacheError (backend : BackendState) (message : String) : BackendState :=
  if message = backend.lastDiskCacheError then backend
  else
    { backend with lastDiskCacheError := message }.emit {
      type := .torrentError
      requestId := 0
      torrentId := ""
      message := "disk cache policy error: " ++ message }

/-- Take a torrent whose state is stored out of the session. -/
def beginCacheUnload (backend : BackendState) (answers : Answers) (id : String) (handle : Nat) :
    BackendState :=
  if id ∉ backend.pendingCacheUnloads then backend
  else
    let dropped := { backend with
      pendingCacheUnloads := backend.pendingCacheUnloads.filter fun other => other ≠ id }
    if !answers.lt.isValid handle then dropped
    else
      match answers.removeFails with
      | some what =>
          let kept := { dropped with
            pendingCacheRemovals := dropped.pendingCacheRemovals.filter fun other => other ≠ id }
          kept.reportDiskCacheError ("failed to unload inactive torrent: " ++ what)
      | none => { dropped with pendingCacheRemovals := dropped.pendingCacheRemovals.insert id }

def requestCacheUnload (answers : Answers) (includeWarm : Bool) (backend : BackendState) (id : String) :
    BackendState :=
  if (!includeWarm ∧ id ∉ backend.quiescedTorrents) ∨ (backend.pendingRemovals.lookup id).isSome ∨
      id ∈ backend.pendingCacheUnloads ∨ id ∈ backend.pendingCacheRemovals ∨
      backend.bridge.hasStreamForTorrent id then backend
  else
    match backend.validHandle answers id with
    | none => backend
    | some handle =>
        let noted := { backend with pendingCacheUnloads := backend.pendingCacheUnloads.insert id }
        let saving := noted.requestResumeSave answers handle
        if (answers.userdata handle).elim false fun context => context ∈ saving.pendingResumeSaves then
          saving
        else saving.beginCacheUnload answers id handle

def requestCacheUnloads (backend : BackendState) (answers : Answers) (includeWarm : Bool) :
    BackendState :=
  backend.warmSince.keys.foldl (requestCacheUnload answers includeWarm) backend

def enforceDiskCache (backend : BackendState) (answers : Answers) : BackendState :=
  match answers.disk.overBudget with
  | .error what => backend.reportDiskCacheError what
  | .ok exceeded =>
      let cleared := { backend with lastDiskCacheError := "" }
      if exceeded then cleared.requestCacheUnloads answers false else cleared

def handleRemoved (backend : BackendState) (answers : Answers) (context : Option Nat)
    (hashId : String) : BackendState :=
  let id := backend.idOf context hashId
  let requestId := (backend.pendingRemovals.lookup id).getD 0
  let cacheRemoval := id ∈ backend.pendingCacheRemovals
  let told := backend.emit { type := .torrentRemoved, requestId := requestId, torrentId := id }
  let forgotten := { told with
    pendingCacheRemovals := told.pendingCacheRemovals.filter fun other => other ≠ id
    pendingCacheUnloads := told.pendingCacheUnloads.filter fun other => other ≠ id
    pendingRemovals := told.pendingRemovals.erase id
    handles := told.handles.erase id
    warmSince := told.warmSince.erase id
    quiescedTorrents := told.quiescedTorrents.filter fun other => other ≠ id }
  let unprepared := ((forgotten.work (.remove answers.lt id)).dropPrepare id).forgetResumeSave context
  let erased := if cacheRemoval then unprepared
    else unprepared.eraseResume answers id emit requestId
  let retired := erased.retire id
  if answers.disk.reading then { retired with nextDiskCacheCheck := answers.lt.now + 1000 }
  else retired.enforceDiskCache answers

def handleResumeSaved (backend : BackendState) (answers : Answers) (handle : Nat) : BackendState :=
  let context := answers.userdata handle
  let forgotten := backend.forgetResumeSave context
  if context.elim false fun shared => (forgotten.contexts shared).explicitlyRemoved then forgotten
  else
    let id := forgotten.idOf context (answers.torrentId handle)
    if !isCanonicalTorrentId id then forgotten
    else
      let stored := match answers.writeResumeFails with
        | none => { forgotten with resumeFiles := forgotten.resumeFiles.insert id }
        | some message => forgotten.emit {
            type := .torrentError
            requestId := 0
            torrentId := id
            message := "failed to persist torrent state: " ++ message }
      stored.beginCacheUnload answers id handle

def handleResumeSaveFailed (backend : BackendState) (answers : Answers) (handle : Nat)
    (notModified : Bool) (message : String) : BackendState :=
  let context := answers.userdata handle
  let forgotten := backend.forgetResumeSave context
  if context.elim false fun shared => (forgotten.contexts shared).explicitlyRemoved then forgotten
  else
    let id := forgotten.idOf context (answers.torrentId handle)
    if id ∈ forgotten.pendingCacheUnloads then forgotten.beginCacheUnload answers id handle
    else if notModified then forgotten
    else forgotten.emit {
      type := .torrentError
      requestId := 0
      torrentId := id
      message := "failed to create torrent state: " ++ message }

def announceEach (answers : Answers) (call : HandleCall) :
    List (Sigma fun _ : String => Nat) → BackendState → Outcome
  | [], backend => (backend, none)
  | entry :: rest, backend =>
      if !answers.lt.isValid entry.2 then announceEach answers call rest backend
      else
        match backend.call answers entry.2 call with
        | .error thrown => (backend, some thrown)
        | .ok next => announceEach answers call rest next

def announceToDht (backend : BackendState) (answers : Answers) : Outcome :=
  announceEach answers .forceDhtAnnounce backend.handles.entries backend

def handleAlert (backend : BackendState) (answers : Answers) : BackendAlert → Outcome
  | .added context handle error => backend.handleAdded answers context handle error
  | .metadataReceived handle => backend.handleMetadata answers handle
  | .torrentError handle message => (backend.handleError answers handle message, none)
  | .fileError handle message => (backend.handleFileError answers handle message, none)
  | .filePriority handle error => backend.handleFilePriority answers handle error
  | .resumeSaved handle => (backend.handleResumeSaved answers handle, none)
  | .resumeSaveFailed handle notModified message =>
      (backend.handleResumeSaveFailed answers handle notModified message, none)
  | .torrentFinished handle => (backend.requestResumeSave answers handle, none)
  | .torrentRemoved context hashId => (backend.handleRemoved answers context hashId, none)
  | .readPiece alert => (backend.work (.readPieceAlert alert), none)
  | .blockFinished torrentId piece block =>
      (backend.work (.blockFinished answers.lt torrentId piece block), none)
  | .hashFailed torrentId piece => (backend.work (.hashFailed torrentId piece), none)
  | .dhtBootstrap => { backend with dhtReady := true }.announceToDht answers

/-- The first part of `pop_events`: the bridge polls, and the torrents of its expired streams become
warm. -/
def expireStream (answers : Answers) (backend : BackendState) (stream : StoppedStream) : BackendState :=
  (backend.cool answers stream.torrentId).queue {
    type := .streamStopped
    requestId := 0
    torrentId := stream.torrentId
    message := "stream expired after inactivity"
    streamId := stream.streamId }

def pollStreams (backend : BackendState) (answers : Answers) (polled : PollAnswers) : Outcome :=
  let bridged := backend.work (.poll polled)
  if (backend.bridge.poll polled).2 then (bridged, some .other)
  else
    let expired := bridged.bridge.expiredStreams
    (expired.foldl (expireStream answers) (bridged.work .popExpired), none)

def takeQueued (backend : BackendState) : BackendState :=
  { backend with events := backend.queuedEvents, queuedEvents := [] }

def handleAlerts : List (Answers × BackendAlert) → BackendState → Outcome
  | [], backend => (backend, none)
  | (answers, alert) :: rest, backend =>
      match backend.handleAlert answers alert with
      | (stopped, some thrown) => (stopped, some thrown)
      | (next, none) => handleAlerts rest next

/-- One torrent of the loop of `run_warm_quiescence`. -/
def quiesceOne (answers : Answers) (backend : BackendState) (id : String) (since : Nat) : Outcome :=
  if id ∈ backend.quiescedTorrents ∨ answers.lt.now - since < backend.warmTorrentTimeout then
    (backend, none)
  else
    match backend.validHandle answers id with
    | none => (backend, none)
    | some handle =>
        match (backend.requestResumeSave answers handle).call answers handle .pause with
        | .error thrown => (backend.requestResumeSave answers handle, some thrown)
        | .ok paused =>
            match paused.call answers handle .setUploadMode with
            | .error thrown => (paused, some thrown)
            | .ok uploading =>
                ({ uploading with quiescedTorrents := uploading.quiescedTorrents.insert id }, none)

def quiesceAll (answers : Answers) :
    List (Sigma fun _ : String => Nat) → BackendState → Outcome
  | [], backend => (backend, none)
  | entry :: rest, backend =>
      match backend.quiesceOne answers entry.1 entry.2 with
      | (stopped, some thrown) => (stopped, some thrown)
      | (next, none) => quiesceAll answers rest next

def runWarmQuiescence (backend : BackendState) (answers : Answers) : Outcome :=
  if backend.warmTorrentTimeout = 0 ∨ backend.warmSince.entries.isEmpty ∨
      answers.lt.now < backend.nextWarmCheck then (backend, none)
  else
    quiesceAll answers backend.warmSince.entries { backend with
      nextWarmCheck := answers.lt.now + min (max (backend.warmTorrentTimeout / 2) 25) 1000 }

def runPeriodicCheckpoints (backend : BackendState) (answers : Answers) : BackendState :=
  let saved :=
    if answers.lt.now - backend.lastResumeCheckpoint < 30000 then backend
    else
      let unremoved := backend.handles.entries.filter fun entry =>
        (backend.pendingRemovals.lookup entry.1).isNone
      { unremoved.foldl (fun current entry => current.requestResumeSave answers entry.2) backend with
        lastResumeCheckpoint := answers.lt.now }
  if answers.lt.now - saved.lastSessionCheckpoint < 300000 then saved
  else
    let stored := match answers.sessionStateFails with
      | none => saved
      | some what => saved.emit {
          type := .torrentError
          requestId := 0
          torrentId := ""
          message := "failed to persist DHT state: " ++ what }
    { stored with lastSessionCheckpoint := answers.lt.now }

/-- The event that answers a reclaim request. -/
def reclaimEvent (reclaimed : Except String (Nat × Nat)) (request : Nat × Nat) : BackendEvent :=
  match reclaimed with
  | .ok (used, capacity) => {
      type := .diskCacheReclaimed
      requestId := request.1
      torrentId := ""
      message :=
        if used ≤ min request.2 capacity then "disk cache reclaim target reached"
        else "disk cache reclaim limited by protected torrent data" }
  | .error what => {
      type := .torrentError
      requestId := request.1
      torrentId := ""
      message := "disk cache reclaim failed: " ++ what }

def processDiskReclaims (backend : BackendState) (answers : Answers) : BackendState :=
  if backend.pendingDiskReclaims.isEmpty ∨ answers.disk.reading then backend
  else
    let unloading := backend.requestCacheUnloads answers true
    if !unloading.pendingCacheUnloads.isEmpty ∨ !unloading.pendingCacheRemovals.isEmpty then unloading
    else
      let taken := { unloading with
        pendingDiskReclaims := []
        nextDiskCacheCheck := answers.lt.now + 30000
        lastDiskCacheError := match answers.disk.reclaimed with
          | .ok _ => ""
          | .error _ => unloading.lastDiskCacheError }
      unloading.pendingDiskReclaims.foldl
        (fun current request => current.emit (reclaimEvent answers.disk.reclaimed request)) taken

def measureDiskCache (backend : BackendState) (answers : Answers) : BackendState :=
  if answers.lt.now < backend.nextDiskCacheMeasurement then backend
  else
    let timed := { backend with nextDiskCacheMeasurement := answers.lt.now + 5000 }
    match answers.disk.measureFails with
    | none => { timed with lastDiskCacheError := "" }
    | some what => timed.reportDiskCacheError what

def runDiskCacheEnforcement (backend : BackendState) (answers : Answers) : BackendState :=
  if answers.lt.now < backend.nextDiskCacheCheck then backend
  else if answers.disk.reading then
    { backend with nextDiskCacheCheck := answers.lt.now + 1000 }.measureDiskCache answers
  else { backend with nextDiskCacheCheck := answers.lt.now + 30000 }.enforceDiskCache answers

def requestTelemetryUpdate (backend : BackendState) (answers : Answers) : Outcome :=
  if answers.lt.now - backend.lastTelemetryRequest < 1000 then (backend, none)
  else
    match announceEach answers .postPeerInfo backend.handles.entries backend with
    | (stopped, some thrown) => (stopped, some thrown)
    | (sent, none) => ({ sent with lastTelemetryRequest := answers.lt.now }, none)

/-- The steps of `pop_events` after the alerts. -/
def runPeriodicSteps (backend : BackendState) (answers : Answers) : Outcome :=
  match (backend.runPeriodicCheckpoints answers).runWarmQuiescence answers with
  | (stopped, some thrown) => (stopped, some thrown)
  | (quiet, none) =>
      ((quiet.processDiskReclaims answers).runDiskCacheEnforcement answers).requestTelemetryUpdate answers

def popEvents (backend : BackendState) (answers : Answers) (polled : PollAnswers)
    (alerts : List (Answers × BackendAlert)) (later : Answers) : Outcome :=
  match backend.pollStreams answers polled with
  | (stopped, some thrown) => (stopped, some thrown)
  | (expired, none) =>
      match handleAlerts alerts expired.takeQueued with
      | (stopped, some thrown) => (stopped, some thrown)
      | (handled, none) => handled.runPeriodicSteps later

end BackendState

end NuvioEngine.Backend
