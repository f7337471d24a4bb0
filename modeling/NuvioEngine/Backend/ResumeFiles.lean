import NuvioEngine.Backend.ResumeRuns

/-!
Resume files follow what the user asked for: none is written for an id between its removal and the next
request for it, none is left after the alert of the removal, and a torrent that leaves for the cache
keeps its own.
-/

namespace NuvioEngine.Backend

open NuvioEngine.Bridge NuvioEngine.Stream NuvioEngine.Cache BridgeState

namespace BackendState

variable {answers : Answers}

/-- On its own the backend deletes a resume file when it accepts a removal, and writes none. -/
theorem after_files (backend : BackendState) {action : HostAction} (own : action.isOwn = true) :
    (backend.after action).resumeFiles = backend.resumeFiles ∨
      ∃ answers requestId id, action = .removeTorrent answers requestId id ∧
        (backend.removeTorrent answers requestId id).2 = none ∧
        (backend.after action).resumeFiles = leftFiles answers id backend.resumeFiles := by
  have other (notAdd : ∀ answers requestId parsed, action ≠ .addTorrent answers requestId parsed)
      (notPrepare : ∀ answers requestId id fileIndex file,
        action ≠ .prepareFile answers requestId id fileIndex file)
      (notRemove : ∀ answers requestId id, action ≠ .removeTorrent answers requestId id) :
      (backend.after action).resumeFiles = backend.resumeFiles := by
    rcases backend.after_asks own notAdd notPrepare notRemove with same | ⟨_, _, asks⟩
    · exact congrArg ResumeMarks.resumeFiles same
    · exact congrArg ResumeMarks.resumeFiles asks.kept
  cases action with
  | addTorrent answers requestId parsed =>
      rw [after_addTorrent]
      rcases backend.addTorrent_marks answers requestId parsed with same | ⟨_, same⟩ | ⟨_, _, _, _, same⟩
      · exact Or.inl (congrArg ResumeMarks.resumeFiles same)
      · exact Or.inl (congrArg ResumeMarks.resumeFiles same)
      · exact Or.inl (congrArg ResumeMarks.resumeFiles same)
  | prepareFile answers requestId id fileIndex file =>
      rw [after_prepareFile]
      rcases backend.prepareFile_marks answers requestId id fileIndex file with same | same
      · exact Or.inl (congrArg ResumeMarks.resumeFiles same)
      · exact Or.inl (congrArg ResumeMarks.resumeFiles same)
  | removeTorrent answers requestId id =>
      rw [after_removeTorrent]
      rcases backend.removeTorrent_marks answers requestId id with
        ⟨_, same⟩ | ⟨_, _, _, _, ⟨_, _, _, same⟩ | ⟨accepted, same⟩⟩
      · exact Or.inl (congrArg ResumeMarks.resumeFiles same)
      · exact Or.inl (congrArg ResumeMarks.resumeFiles same)
      · exact Or.inr ⟨answers, requestId, id, rfl, accepted, congrArg ResumeMarks.resumeFiles same⟩
  | stopStream | pollStreams | takeQueued | alert | periodic | reclaimDiskCache | create | learnMetadata
  | lose | http => exact Or.inl (other (by simp) (by simp) (by simp))

theorem leftFiles_subset (answers : Answers) (id : String) (files : List String) :
    leftFiles answers id files ⊆ files := by
  unfold leftFiles
  split
  · exact fun _ member => (List.mem_filter.mp member).1
  · exact List.Subset.refl _

theorem mem_leftFiles {id other : String} {files : List String} (member : other ∈ files)
    (different : other ≠ id) : other ∈ leftFiles answers id files := by
  unfold leftFiles
  split
  · exact List.mem_filter.mpr ⟨member, by simpa using different⟩
  · exact member

theorem saveAll_files (backend : BackendState) (answers : Answers) :
    (backend.saveAll answers).resumeFiles = backend.resumeFiles :=
  congrArg ResumeMarks.resumeFiles (backend.saveAll_asks answers).kept

theorem handleRemoved_files (backend : BackendState) (answers : Answers) (context : Option Nat)
    (hashId : String) : (backend.handleRemoved answers context hashId).resumeFiles =
      if backend.idOf context hashId ∈ backend.pendingCacheRemovals then backend.resumeFiles
      else leftFiles answers (backend.idOf context hashId) backend.resumeFiles :=
  congrArg ResumeMarks.resumeFiles (backend.handleRemoved_asks answers context hashId).kept

theorem handleAdded_files (backend : BackendState) (answers : Answers) (context : Option Nat)
    (handle : Nat) (error : Option String) :
    (backend.handleAdded answers context handle error).1.resumeFiles = backend.resumeFiles := by
  cases error with
  | some message => rfl
  | none =>
      obtain ⟨_, same | ⟨_, _, _, _, _, same⟩, _⟩ := backend.handleAdded_asks answers context handle
      · exact congrArg ResumeMarks.resumeFiles same
      · exact congrArg ResumeMarks.resumeFiles same

theorem handleResumeSaveFailed_files (backend : BackendState) (answers : Answers) (handle : Nat)
    (notModified : Bool) (message : String) :
    (backend.handleResumeSaveFailed answers handle notModified message).resumeFiles =
      backend.resumeFiles := by
  rcases backend.handleResumeSaveFailed_marks answers handle notModified message with same | ⟨_, _, same, _⟩
  · exact congrArg ResumeMarks.resumeFiles same
  · exact congrArg ResumeMarks.resumeFiles same

theorem handleResumeSaved_files (backend : BackendState) (answers : Answers) (handle : Nat) :
    (backend.handleResumeSaved answers handle).resumeFiles = backend.resumeFiles ∨
    ((backend.handleResumeSaved answers handle).resumeFiles =
        backend.resumeFiles.insert (backend.idOf (answers.userdata handle) (answers.torrentId handle)) ∧
      isCanonicalTorrentId (backend.idOf (answers.userdata handle) (answers.torrentId handle)) = true ∧
      ∀ shared, answers.userdata handle = some shared →
        (backend.contexts shared).explicitlyRemoved = false) := by
  obtain ⟨files, stored, resolves⟩ := backend.handleResumeSaved_marks answers handle
  have same : (backend.handleResumeSaved answers handle).resumeFiles = files := by
    rcases resolves with same | ⟨_, _, same, _⟩
    · exact congrArg ResumeMarks.resumeFiles same
    · exact congrArg ResumeMarks.resumeFiles same
  rw [same]
  exact stored

end BackendState

namespace Session

variable {torrentOf : Nat → String} {session : Session} {answers : Answers} {expiring : List Nat}

theorem deliver_removed_backend {handle : Nat} {rest : List Posted}
    (next : session.posted = .removed handle :: rest) :
    (session.deliver torrentOf expiring answers).backend =
      session.backend.handleRemoved answers (some handle) (torrentOf handle) := by
  unfold deliver
  rw [next]
  exact settle_backend _ answers _

namespace Consistent

/-- The user's removal takes the place of one for the cache. -/
theorem uncached (consistent : Consistent torrentOf session session.backend.marks) {id : String}
    (awaited : id ∈ session.awaited) : id ∉ session.backend.pendingCacheRemovals := fun cached =>
  consistent.sound.cached_unremoved id cached ((consistent.awaited id).mp awaited)

/-- An alert about a removal deletes the resume file when the user asked for the removal. -/
theorem deliver_removed_files (consistent : Consistent torrentOf session session.backend.marks)
    {handle : Nat} {rest : List Posted} (next : session.posted = .removed handle :: rest)
    (expiring : List Nat) (answers : Answers) :
    (session.deliver torrentOf expiring answers).backend.resumeFiles =
      if torrentOf handle ∈ session.awaited then
        BackendState.leftFiles answers (torrentOf handle) session.backend.resumeFiles
      else session.backend.resumeFiles := by
  have files := session.backend.handleRemoved_files answers (some handle) (torrentOf handle)
  rw [consistent.idOf handle] at files
  rw [deliver_removed_backend next, files]
  by_cases awaited : torrentOf handle ∈ session.awaited
  · rw [if_neg (consistent.uncached awaited), if_pos awaited]
  · have cached : torrentOf handle ∈ session.backend.pendingCacheRemovals :=
      consistent.sound.removed_cached (by simp [viewAt, next, Posted.notice])
        fun removed => awaited ((consistent.awaited _).mpr removed)
    rw [if_pos cached, if_neg awaited]

theorem deliver_files (consistent : Consistent torrentOf session session.backend.marks)
    (expiring : List Nat) (answers : Answers) :
    (session.deliver torrentOf expiring answers).backend.resumeFiles = session.backend.resumeFiles ∨
      ∃ handle rest, session.posted = .removed handle :: rest ∧ torrentOf handle ∈ session.awaited ∧
        (session.deliver torrentOf expiring answers).backend.resumeFiles =
          BackendState.leftFiles answers (torrentOf handle) session.backend.resumeFiles := by
  cases next : session.posted with
  | nil =>
      refine Or.inl ?_
      unfold Session.deliver
      rw [next]
  | cons posted rest =>
      cases posted with
      | added context handle =>
          refine Or.inl ?_
          unfold Session.deliver
          rw [next]
          have same := BackendState.collect_marks session.backend
            (session.backend.handleAdded answers (some context) handle none)
          exact (congrArg ResumeMarks.resumeFiles same).trans
            (session.backend.handleAdded_files answers (some context) handle none)
      | refused context message =>
          refine Or.inl ?_
          unfold Session.deliver
          rw [next]
          rfl
      | removed handle =>
          have files := consistent.deliver_removed_files next expiring answers
          by_cases awaited : torrentOf handle ∈ session.awaited
          · rw [if_pos awaited] at files
            exact Or.inr ⟨handle, rest, rfl, awaited, files⟩
          · rw [if_neg awaited] at files
            exact Or.inl files

end Consistent

theorem saved_wanted (consistent : Consistent torrentOf session session.backend.marks)
    (faithful : session.Faithful torrentOf expiring answers) {handle : Nat}
    (asked : handle ∈ session.saving) {id : String}
    (member : id ∈ (session.backend.handleResumeSaved answers handle).resumeFiles) :
    id ∈ session.backend.resumeFiles ∨ id ∉ session.unwanted := by
  rcases session.backend.handleResumeSaved_files answers handle with same | ⟨same, canonical, kept⟩
  · exact Or.inl (same ▸ member)
  · rw [same] at member
    refine (List.mem_insert_iff.mp member).symm.imp_right ?_
    rintro rfl unwanted
    have nonempty : session.backend.idOf (answers.userdata handle) (answers.torrentId handle) ≠ "" := by
      intro empty
      rw [empty] at canonical
      exact absurd canonical (by decide)
    rcases faithful.seen handle with ⟨_, valid, seen, named⟩ | ⟨unseen, lost, _⟩
    · rw [seen] at nonempty unwanted
      have about := (BackendState.idOf_named (consistent.contexts handle)
        (named.imp_right And.left)).resolve_right nonempty
      rw [about] at unwanted
      have removed := consistent.sound.unwanted_silent asked valid unwanted
      have flag : (session.backend.contexts handle).explicitlyRemoved = true := removed
      simp [kept handle seen] at flag
    · rw [unseen, lost] at nonempty
      exact nonempty rfl

/-- What a step needs to write only files that are wanted. -/
theorem perform_files (consistent : Consistent torrentOf session session.backend.marks)
    (action : SessionAction) (own : ∀ expiring step, action = .run expiring step → step.isOwn = true)
    (arrived : ∀ expiring answers handle, action = .saved expiring answers handle →
      session.Faithful torrentOf expiring answers ∧ handle ∈ session.saving) {id : String}
    (member : id ∈ (session.perform torrentOf action).backend.resumeFiles) :
    id ∈ session.backend.resumeFiles ∨ id ∉ session.unwanted := by
  cases action with
  | run expiring action =>
      rw [run_backend] at member
      rcases session.backend.after_files (own expiring action rfl) with same | ⟨_, _, _, _, _, same⟩
      · exact Or.inl (same ▸ member)
      · rw [same] at member
        exact Or.inl (BackendState.leftFiles_subset _ _ _ member)
  | saveAll expiring answers =>
      exact Or.inl (session.backend.saveAll_files answers ▸ member)
  | deliver expiring answers =>
      rcases consistent.deliver_files expiring answers with same | ⟨_, _, _, _, same⟩
      · exact Or.inl (same ▸ member)
      · have left : id ∈ BackendState.leftFiles answers _ session.backend.resumeFiles := same ▸ member
        exact Or.inl (BackendState.leftFiles_subset _ _ _ left)
  | saved expiring answers handle =>
      obtain ⟨faithful, asked⟩ := arrived expiring answers handle rfl
      exact saved_wanted consistent faithful asked member
  | saveFailed expiring answers handle notModified message =>
      exact Or.inl (session.backend.handleResumeSaveFailed_files answers handle notModified message ▸ member)
  | saveRefused expiring answers handle notModified message =>
      exact Or.inl (session.backend.handleResumeSaveFailed_files answers handle notModified message ▸ member)
  | carryOut refusal told =>
      have same : (session.perform torrentOf (.carryOut refusal told)).backend = session.backend :=
        (carryOut_kept torrentOf session refusal told).1
      exact Or.inl (same ▸ member)
  | expire handle => exact Or.inl member

theorem written_wanted (consistent : Consistent torrentOf session session.backend.marks)
    {action : SessionAction} (possible : session.Possible torrentOf action) {id : String}
    (member : id ∈ session.written torrentOf action) : id ∉ session.unwanted := by
  have cleared : Consistent torrentOf
      { session with backend := { session.backend with resumeFiles := [] } }
      { session.backend.marks with resumeFiles := [] } := (consistent.store []).install _
  have files := perform_files cleared action ?_ ?_ member
  · simpa using files
  · rintro expiring step rfl
    exact possible.2.1
  · rintro expiring answers handle rfl
    exact ⟨⟨possible.2.1.valid, possible.2.1.invalid, possible.2.1.seen⟩, possible.2.2⟩

/-- A resume file is deleted when the user's removal is accepted, or when its alert comes. -/
theorem lost_awaited (consistent : Consistent torrentOf session session.backend.marks)
    {action : SessionAction} (possible : session.Possible torrentOf action) {id : String}
    (member : id ∈ session.backend.resumeFiles)
    (lost : id ∉ (session.perform torrentOf action).backend.resumeFiles) :
    id ∈ session.awaited ∨ id ∈ (session.perform torrentOf action).awaited := by
  cases action with
  | run expiring action =>
      rw [run_backend] at lost
      rcases session.backend.after_files possible.2.1 with
        same | ⟨answers, requestId, removed, rfl, accepted, same⟩
      · exact absurd (same ▸ member) lost
      · have same : id = removed := by
          by_contra different
          exact lost (same ▸ BackendState.mem_leftFiles member different)
        refine Or.inr ?_
        simp [perform, intend, accepted, same]
  | saveAll expiring answers => exact absurd (session.backend.saveAll_files answers ▸ member) lost
  | deliver expiring answers =>
      rcases consistent.deliver_files expiring answers with same | ⟨handle, _, _, awaited, same⟩
      · exact absurd (same.symm ▸ member) lost
      · have same : id = torrentOf handle := by
          by_contra different
          exact lost (same.symm ▸ BackendState.mem_leftFiles member different)
        exact Or.inl (same ▸ awaited)
  | saved expiring answers handle =>
      rcases session.backend.handleResumeSaved_files answers handle with same | ⟨same, _⟩
      · exact absurd (same.symm ▸ member) lost
      · exact absurd (same.symm ▸ List.mem_insert_of_mem member) lost
  | saveFailed expiring answers handle notModified message =>
      exact absurd (session.backend.handleResumeSaveFailed_files answers handle notModified message ▸ member) lost
  | saveRefused expiring answers handle notModified message =>
      exact absurd (session.backend.handleResumeSaveFailed_files answers handle notModified message ▸ member) lost
  | carryOut refusal told =>
      exact absurd ((carryOut_kept torrentOf session refusal told).1 ▸ member) lost
  | expire handle => exact absurd member lost

theorem intend_cleared (session : Session) (backend : BackendState) (action : HostAction) {id : String}
    (member : id ∈ (session.intend backend action).cleared) :
    id ∈ session.cleared ∧ (id ∈ session.unwanted → id ∈ (session.intend backend action).unwanted) := by
  cases action with
  | addTorrent answers requestId parsed =>
      cases parsed with
      | error thrown => exact ⟨member, fun unwanted => unwanted⟩
      | ok source =>
          simp only [intend] at member ⊢
          split at member
          · rename_i made
            obtain ⟨before, other⟩ := List.mem_filter.mp member
            rw [if_pos made]
            exact ⟨before, fun unwanted => List.mem_filter.mpr ⟨unwanted, other⟩⟩
          · rename_i quiet
            rw [if_neg quiet]
            exact ⟨member, fun unwanted => unwanted⟩
  | removeTorrent answers requestId removed =>
      simp only [intend] at member ⊢
      split at member
      · rename_i accepted
        rw [if_pos accepted]
        exact ⟨member, List.mem_insert_of_mem⟩
      · rename_i refused
        rw [if_neg refused]
        exact ⟨member, fun unwanted => unwanted⟩
  | prepareFile | stopStream | pollStreams | takeQueued | alert | periodic | reclaimDiskCache | create
  | learnMetadata | lose | http => exact ⟨member, fun unwanted => unwanted⟩

theorem deliver_unwanted (torrentOf : Nat → String) (session : Session) (expiring : List Nat) (answers : Answers) :
    (session.deliver torrentOf expiring answers).unwanted = session.unwanted := by
  unfold deliver
  split
  · rfl
  · dsimp only
    split
    · unfold settle
      split <;> rfl
    · rfl
    · rfl

theorem deliver_cleared {id : String} (member : id ∈ (session.deliver torrentOf expiring answers).cleared) :
    id ∈ session.cleared ∨ ∃ handle rest, session.posted = .removed handle :: rest ∧
      id = torrentOf handle ∧ id ∈ session.awaited ∧ id ∈ session.unwanted ∧
      answers.eraseResumeFails = none := by
  cases next : session.posted with
  | nil =>
      unfold deliver at member
      rw [next] at member
      exact Or.inl member
  | cons posted rest =>
      cases posted with
      | added context handle =>
          unfold deliver at member
          rw [next] at member
          exact Or.inl member
      | refused context message =>
          unfold deliver at member
          rw [next] at member
          exact Or.inl member
      | removed handle =>
          unfold deliver at member
          rw [next] at member
          simp only [settle] at member
          split at member
          · exact Or.inl member
          · rename_i awaited
            split at member
            · rename_i deleted
              rcases List.mem_insert_iff.mp member with rfl | before
              · exact Or.inr ⟨handle, rest, rfl, rfl, not_not.mp awaited, deleted.2, deleted.1⟩
              · exact Or.inl before
            · exact Or.inl member

/-- A removal that is done leaves no resume file while the torrent is unwanted. -/
def Settled (session : Session) : Prop :=
  ∀ id ∈ session.cleared, id ∈ session.unwanted ∧ id ∉ session.backend.resumeFiles

theorem Settled.perform (settled : session.Settled)
    (consistent : Consistent torrentOf session session.backend.marks) {action : SessionAction}
    (possible : session.Possible torrentOf action) : (session.perform torrentOf action).Settled := by
  have clean : ∀ {id}, id ∈ session.cleared →
      id ∉ (session.perform torrentOf action).backend.resumeFiles := by
    intro id before member
    have files := perform_files consistent action ?_ ?_ member
    · exact files.elim (settled id before).2 fun wanted => wanted (settled id before).1
    · rintro expiring step rfl
      exact possible.2.1
    · rintro expiring answers handle rfl
      exact possible.2
  intro id member
  cases action with
  | run expiring action =>
      have ⟨before, still⟩ := intend_cleared _ session.backend action member
      exact ⟨still (settled id before).1, clean before⟩
  | saveAll | saved | saveFailed | saveRefused | expire => exact ⟨(settled id member).1, clean member⟩
  | deliver expiring answers =>
      have unwanted := deliver_unwanted torrentOf session expiring answers
      rcases deliver_cleared member with before | ⟨handle, rest, next, rfl, awaited, dismissed, deleted⟩
      · exact ⟨unwanted.symm ▸ (settled id before).1, clean before⟩
      · have files := consistent.deliver_removed_files next expiring answers
        rw [if_pos awaited, BackendState.leftFiles, if_pos deleted] at files
        refine ⟨unwanted.symm ▸ dismissed, ?_⟩
        have absent : torrentOf handle ∉
            (session.deliver torrentOf expiring answers).backend.resumeFiles := by
          rw [files]
          simp
        exact absent
  | carryOut refusal told =>
      obtain ⟨_, unwanted, _, cleared⟩ := carryOut_kept torrentOf session refusal told
      have before : id ∈ session.cleared := cleared ▸ member
      exact ⟨unwanted.symm ▸ (settled id before).1, clean before⟩

theorem settled_reachable (reached : session.Reachable torrentOf) : session.Settled := by
  have starts : ∀ session : Session, session.Initial →
      Consistent torrentOf session session.backend.marks ∧ session.Settled := by
    intro session initial
    refine ⟨consistent_initial initial, ?_⟩
    obtain ⟨_, _, _, rfl⟩ := initial
    simp [Settled]
  have keeps : ∀ (session : Session) action,
      Consistent torrentOf session session.backend.marks ∧ session.Settled →
      session.Possible torrentOf action →
      Consistent torrentOf (session.perform torrentOf action)
          (session.perform torrentOf action).backend.marks ∧ (session.perform torrentOf action).Settled :=
    fun _ _ ⟨consistent, settled⟩ possible => ⟨consistent.perform possible, settled.perform consistent possible⟩
  exact (Transition.Reachable.invariant starts keeps reached).2

theorem settle_clears {id : String} (awaited : id ∈ session.awaited) (unwanted : id ∈ session.unwanted)
    (deleted : answers.eraseResumeFails = none) : id ∈ (session.settle answers id).cleared := by
  unfold settle
  rw [if_neg (not_not.mpr awaited), if_pos ⟨deleted, unwanted⟩]
  exact List.mem_insert_self

theorem deliver_clears {handle : Nat} {rest : List Posted} (next : session.posted = .removed handle :: rest)
    (awaited : torrentOf handle ∈ session.awaited) (unwanted : torrentOf handle ∈ session.unwanted)
    (deleted : answers.eraseResumeFails = none) :
    torrentOf handle ∈ (session.deliver torrentOf expiring answers).cleared := by
  unfold deliver
  rw [next]
  exact settle_clears awaited unwanted deleted

theorem deliver_reports (consistent : Consistent torrentOf session session.backend.marks) {handle : Nat}
    {rest : List Posted} (next : session.posted = .removed handle :: rest)
    (awaited : torrentOf handle ∈ session.awaited) {what : String}
    (failed : answers.eraseResumeFails = some what) :
    ∃ event ∈ (session.deliver torrentOf expiring answers).backend.events ++
        (session.deliver torrentOf expiring answers).backend.queuedEvents,
      event.type = .torrentError ∧ event.torrentId = torrentOf handle ∧
        event.message = "failed to remove persisted torrent state: " ++ what := by
  have same := consistent.idOf handle
  have uncached := consistent.uncached awaited
  rw [← same] at uncached
  obtain ⟨event, member, type, id, message⟩ := session.backend.handleRemoved_reports uncached failed
  rw [deliver_removed_backend next]
  exact ⟨event, member, type, id.trans same, message⟩

/-- No step writes a resume file for an id that the user removed and did not ask for again, and none is
there once the alert of the removal came. A resume file goes only when the user asks for a removal or
its alert comes. The alert of a removal that the user did not ask for changes no file; the one of a
removal that the user asked for leaves none of the torrent, or tells that it could not delete it. -/
theorem resume_files_follow_user (reached : session.Reachable torrentOf) {action : SessionAction}
    (possible : session.Possible torrentOf action) :
    (∀ id ∈ session.unwanted, id ∉ session.written torrentOf action) ∧
    (∀ id ∈ session.cleared, id ∉ session.backend.resumeFiles) ∧
    (∀ id ∈ session.backend.resumeFiles, id ∉ (session.perform torrentOf action).backend.resumeFiles →
      id ∈ session.awaited ∨ id ∈ (session.perform torrentOf action).awaited) ∧
    ∀ expiring answers handle rest, action = .deliver expiring answers →
      session.posted = .removed handle :: rest →
        (torrentOf handle ∉ session.awaited →
          (session.perform torrentOf action).backend.resumeFiles = session.backend.resumeFiles) ∧
        (torrentOf handle ∈ session.awaited → answers.eraseResumeFails = none →
          torrentOf handle ∉ (session.perform torrentOf action).backend.resumeFiles ∧
          (torrentOf handle ∈ session.unwanted →
            torrentOf handle ∈ (session.perform torrentOf action).cleared)) ∧
        ∀ what, torrentOf handle ∈ session.awaited → answers.eraseResumeFails = some what →
          ∃ event ∈ (session.perform torrentOf action).backend.events ++
              (session.perform torrentOf action).backend.queuedEvents,
            event.type = .torrentError ∧ event.torrentId = torrentOf handle ∧
              event.message = "failed to remove persisted torrent state: " ++ what := by
  have consistent := consistent_reachable reached
  refine ⟨fun id unwanted written => written_wanted consistent possible written unwanted,
    fun id cleared => (settled_reachable reached id cleared).2,
    fun id member lost => lost_awaited consistent possible member lost, ?_⟩
  rintro expiring answers handle rest rfl next
  have files : (session.perform torrentOf (.deliver expiring answers)).backend.resumeFiles = _ :=
    consistent.deliver_removed_files next expiring answers
  refine ⟨fun spared => ?_, fun awaited deleted => ⟨?_, fun unwanted => ?_⟩, fun what awaited failed =>
    deliver_reports consistent next awaited failed⟩
  · rw [files, if_neg spared]
  · rw [files, if_pos awaited, BackendState.leftFiles, if_pos deleted]
    simp
  · exact deliver_clears next awaited unwanted deleted

/-- Answers of a session whose torrents have no metadata yet. -/
def twoAnswers (session : Session) : Answers :=
  { ({ backend := session.backend, gone := session.gone } : Host).twoAnswers with
    torrentId := fun handle =>
      if handle ∈ session.made ∧ handle ∉ session.gone then twoTorrents handle else ""
    userdata := fun handle => if handle ∈ session.made ∧ handle ∉ session.gone then some handle else none }

theorem twoAnswers_faithful (session : Session) : session.Faithful twoTorrents [] session.twoAnswers where
  valid := by
    intro handle _ there _
    simp [twoAnswers, Host.twoAnswers, Host.answers, there]
  invalid := by
    intro handle gone
    simp [twoAnswers, Host.twoAnswers, Host.answers, gone]
  seen := by
    intro handle
    by_cases there : handle ∈ session.made ∧ handle ∉ session.gone
    · exact Or.inl ⟨there.1, there.2, if_pos there, Or.inl (if_pos there)⟩
    · refine Or.inr ⟨if_neg there, if_neg there, fun made => Or.inl ?_⟩
      by_contra valid
      exact there ⟨made, valid⟩

/-- A session with the resume file of a torrent. -/
def start : Session where
  backend := { Host.start.backend with resumeFiles := [twoTorrents 0] }

/-- The torrent is added and saved, and removed by the user before the answer to the save comes. -/
def removedEarly : List (Session → SessionAction) := [
  fun session => .run [] (.addTorrent session.twoAnswers 1 (.ok ⟨twoTorrents 0, true⟩)),
  fun _ => .carryOut none false,
  fun session => .deliver [] session.twoAnswers,
  fun session => .saveAll [] session.twoAnswers,
  fun _ => .carryOut none false,
  fun session => .run [] (.removeTorrent session.twoAnswers 2 (twoTorrents 0)),
  fun _ => .carryOut none false]

theorem waiting_possible {refusal : Option String} {told : Bool} (waiting : session.commands.isEmpty = false) :
    session.Possible torrentOf (.carryOut refusal told) := by
  rintro empty
  simp [empty] at waiting

theorem removedEarly_reachable :
    (Transition.follow (perform twoTorrents) removedEarly start).Reachable twoTorrents := by
  refine (Transition.Reachable.start ⟨_, _, _, rfl⟩).follow ⟨⟨by simp [CanExpire], rfl, ?_, by simp, ?_⟩,
    waiting_possible (by decide +kernel), ⟨by simp [CanExpire], twoAnswers_faithful _, by decide +kernel⟩,
    ⟨by simp [CanExpire], twoAnswers_faithful _⟩, waiting_possible (by decide +kernel),
    ⟨by simp [CanExpire], rfl, ?_, ?_, by simp⟩, waiting_possible (by decide +kernel), trivial⟩
  · rintro answers ⟨⟩
    exact twoAnswers_faithful _
  · rintro answers requestId source ⟨⟩ _
    rfl
  · rintro answers ⟨⟩
    exact twoAnswers_faithful _
  · rintro answers requestId id handle ⟨⟩ _ fails
    exact absurd rfl fails

/-- The late answer to the save writes nothing. -/
theorem resume_files_follow_user_late :
    ∃ session : Session, session.Reachable twoTorrents ∧ 0 ∈ session.saving ∧
      twoTorrents 0 ∈ session.unwanted ∧
      twoTorrents 0 ∉ session.written twoTorrents (.saved [] session.twoAnswers 0) :=
  have possible : (Transition.follow (perform twoTorrents) removedEarly start).Possible twoTorrents
      (.saved [] (Transition.follow (perform twoTorrents) removedEarly start).twoAnswers 0) :=
    ⟨by simp [CanExpire], twoAnswers_faithful _, by decide +kernel⟩
  ⟨_, removedEarly_reachable, by decide +kernel, by decide +kernel,
    (resume_files_follow_user removedEarly_reachable possible).1 _ (by decide +kernel)⟩

end Session

end NuvioEngine.Backend
