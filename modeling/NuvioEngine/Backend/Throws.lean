import NuvioEngine.Backend.Incidental

/-!
Which calls of libtorrent can throw out of `pop_events`: those that a handler or a periodic step makes
outside any `try` block.
-/

namespace NuvioEngine.Backend

open NuvioEngine.Bridge NuvioEngine.Stream NuvioEngine.Cache BridgeState

/-- libtorrent answers the calls that the handler of the alert makes outside any `try` block. -/
def Answers.Serves (answers : Answers) : BackendAlert → Prop
  | .added _ handle none => (∃ has, answers.hasMetadata handle = .ok has) ∧
      (∃ files, answers.files handle = .ok files) ∧ answers.fails handle .forceDhtAnnounce = none
  | .metadataReceived handle => ∃ files, answers.files handle = .ok files
  | .filePriority handle _ => answers.fails handle .unsetUploadMode ≠ some .other ∧
      answers.lt.torrentFile handle ≠ .error .other ∧ answers.lt.savePath handle ≠ .error .other
  | .dhtBootstrap => ∀ handle, answers.fails handle .forceDhtAnnounce = none
  | _ => True

/-- libtorrent answers the calls of the periodic steps. -/
def Answers.ServesSteps (answers : Answers) : Prop :=
  ∀ handle, answers.fails handle .pause = none ∧ answers.fails handle .setUploadMode = none ∧
    answers.fails handle .postPeerInfo = none

namespace BackendState

variable {backend : BackendState} {answers : Answers}

theorem call_eq_error {handle : Nat} {call : HandleCall} {thrown : Thrown}
    (refused : backend.call answers handle call = .error thrown) :
    answers.fails handle call = some thrown := by
  unfold BackendState.call at refused
  split at refused
  · rename_i failed
    rw [failed, Except.error.inj refused]
  · simp at refused

theorem metadataEvent_ok {handle : Nat} (served : ∃ files, answers.files handle = .ok files)
    (context : Option RequestContext) (source : MetadataSource) :
    ∃ event, metadataEvent answers handle context source = .ok event := by
  obtain ⟨files, answered⟩ := served
  simp [metadataEvent, answered]

theorem emitMetadata_returns {handle : Nat} (served : ∃ files, answers.files handle = .ok files)
    (backend : BackendState) (context : Option Nat) (source : MetadataSource) :
    (backend.emitMetadata answers handle context source).2 = none := by
  unfold emitMetadata
  simp only
  split
  · rename_i failed
    obtain ⟨event, built⟩ := metadataEvent_ok served _ source
    rw [built] at failed
    simp at failed
  · rfl

theorem announce_returns {handle : Nat} (status : ∃ has, answers.hasMetadata handle = .ok has)
    (served : ∃ files, answers.files handle = .ok files) (backend : BackendState)
    (context : Option Nat) : (backend.announce answers handle context).2 = none := by
  unfold announce
  split
  · rename_i failed
    obtain ⟨has, answered⟩ := status
    simp [answered] at failed
  · rfl
  · rfl
  · rename_i shared _
    split
    · rfl
    · simp only
      split
      · rename_i result
        have told := emitMetadata_returns served backend (some shared)
          (backend.contexts shared).metadataSource
        simp [result] at told
      · rfl

theorem handleAdded_eq {context : Option Nat} {handle : Nat}
    (serves : answers.Serves (.added context handle none)) :
    backend.handleAdded answers context handle none =
      (((({ backend with handles := backend.handles.insert (answers.torrentId handle) handle }.adopt
        answers (answers.torrentId handle) handle context).emit {
          type := .torrentAdded
          requestId := backend.requestOf context
          torrentId := answers.torrentId handle }).announce answers handle context).1.dropPending
            context, none) := by
  obtain ⟨status, served, announces⟩ := serves
  unfold handleAdded
  simp only
  split
  · rename_i failed
    unfold announceAdded at failed
    split at failed
    · simp [call_eq_error failed] at announces
    · simp at failed
  · rename_i sent
    rw [announceAdded_eq_ok sent]
    split
    · rename_i result
      have returned := congrArg Prod.snd result
      rw [announce_returns status served] at returned
      simp at returned
    · rename_i result
      rw [result]

theorem handleAdded_returns {context : Option Nat} {handle : Nat} {error : Option String}
    (serves : answers.Serves (.added context handle error)) :
    (backend.handleAdded answers context handle error).2 = none := by
  cases error with
  | some message => rfl
  | none => rw [handleAdded_eq serves]

theorem handleMetadata_returns {handle : Nat} (served : ∃ files, answers.files handle = .ok files) :
    (backend.handleMetadata answers handle).2 = none := by
  unfold handleMetadata
  simp only
  split
  · rfl
  · split
    · rename_i result
      have returned := congrArg Prod.snd result
      rw [emitMetadata_returns served] at returned
      simp at returned
    · rfl

theorem preparedEvent_eq_error {handle : Nat} {id : String} {prepare : PendingPrepare} {thrown : Thrown}
    (failed : backend.preparedEvent answers handle id prepare = .error thrown) :
    routeFor answers.lt backend.bridge answers.token handle id prepare.fileIndex prepare.file =
      .error thrown := by
  unfold preparedEvent registerStream at failed
  cases made : routeFor answers.lt backend.bridge answers.token handle id prepare.fileIndex
      prepare.file with
  | ok route => simp [made] at failed
  | error thrown => simpa [made] using failed

theorem routeFor_standard {lt : Libtorrent} {state : BridgeState} {token : String} {handle : Nat}
    {id : String} {fileIndex : Nat} {file : TorrentFileInfo} (known : lt.torrentFile handle ≠ .error .other)
    (stored : lt.savePath handle ≠ .error .other) :
    routeFor lt state token handle id fileIndex file ≠ .error .other := by
  unfold routeFor
  split
  · simp
  · split
    · split
      · simp
      · split
        · rename_i failed
          intro same
          rw [Except.error.inj same] at failed
          exact stored failed
        · simp
    · simp
    · rename_i failed
      intro same
      rw [Except.error.inj same] at failed
      exact known failed

theorem finishPrepare_standard {handle : Nat} {error : Option String}
    (serves : answers.Serves (.filePriority handle error)) (id : String) (prepare : PendingPrepare) :
    (backend.finishPrepare answers handle id prepare).2 ≠ some .other := by
  obtain ⟨sent, known, stored⟩ := serves
  unfold finishPrepare
  split
  · rename_i failed
    intro same
    rw [Option.some.inj same] at failed
    exact sent (call_eq_error failed)
  · split
    · rename_i failed
      intro same
      rw [Option.some.inj same] at failed
      exact routeFor_standard known stored (preparedEvent_eq_error failed)
    · simp

theorem handleFilePriority_returns {handle : Nat} {error : Option String}
    (serves : answers.Serves (.filePriority handle error)) :
    (backend.handleFilePriority answers handle error).2 = none := by
  unfold handleFilePriority
  simp only
  split
  · rfl
  · split
    · rfl
    · split
      · rfl
      · rfl
      · rename_i result
        exact absurd (congrArg Prod.snd result) (finishPrepare_standard serves _ _)

theorem announceEach_returns {call : HandleCall} (serves : ∀ handle, answers.fails handle call = none)
    (entries : List (Sigma fun _ : String => Nat)) (backend : BackendState) :
    (announceEach answers call entries backend).2 = none := by
  induction entries generalizing backend with
  | nil => rfl
  | cons entry rest ih =>
      rw [announceEach]
      split
      · exact ih backend
      · split
        · rename_i failed
          have refused := call_eq_error failed
          rw [serves entry.2] at refused
          simp at refused
        · exact ih _

theorem handleAlert_returns {alert : BackendAlert} (serves : answers.Serves alert) :
    (backend.handleAlert answers alert).2 = none := by
  cases alert with
  | added context handle error => exact handleAdded_returns serves
  | metadataReceived handle => exact handleMetadata_returns serves
  | filePriority handle error => exact handleFilePriority_returns serves
  | dhtBootstrap => exact announceEach_returns serves _ _
  | torrentError | fileError | resumeSaved | resumeSaveFailed | torrentFinished | torrentRemoved
  | readPiece | blockFinished | hashFailed => rfl

theorem quiesceOne_returns (serves : answers.ServesSteps) (backend : BackendState) (id : String)
    (since : Nat) : (backend.quiesceOne answers id since).2 = none := by
  unfold quiesceOne
  split
  · rfl
  · split
    · rfl
    · rename_i handle _
      obtain ⟨pauses, uploads, _⟩ := serves handle
      split
      · rename_i failed
        have refused := call_eq_error failed
        rw [pauses] at refused
        simp at refused
      · split
        · rename_i failed
          have refused := call_eq_error failed
          rw [uploads] at refused
          simp at refused
        · rfl

theorem quiesceAll_returns (serves : answers.ServesSteps)
    (entries : List (Sigma fun _ : String => Nat)) (backend : BackendState) :
    (quiesceAll answers entries backend).2 = none := by
  induction entries generalizing backend with
  | nil => rfl
  | cons entry rest ih =>
      rw [quiesceAll]
      split
      · rename_i result
        have returned := congrArg Prod.snd result
        rw [quiesceOne_returns serves] at returned
        simp at returned
      · exact ih _

theorem runPeriodicSteps_returns (serves : answers.ServesSteps) (backend : BackendState) :
    (backend.runPeriodicSteps answers).2 = none := by
  have quiet : ∀ current : BackendState, (current.runWarmQuiescence answers).2 = none := by
    intro current
    unfold runWarmQuiescence
    split
    · rfl
    · exact quiesceAll_returns serves _ _
  have posts : ∀ entries current, (announceEach answers .postPeerInfo entries current).2 = none :=
    announceEach_returns fun handle => (serves handle).2.2
  unfold runPeriodicSteps
  split
  · rename_i result
    have returned := congrArg Prod.snd result
    rw [quiet] at returned
    simp at returned
  · unfold requestTelemetryUpdate
    split
    · rfl
    · split
      · rename_i result
        have returned := congrArg Prod.snd result
        rw [posts] at returned
        simp at returned
      · rfl

end BackendState

end NuvioEngine.Backend
