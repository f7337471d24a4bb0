import NuvioEngine.Backend.ResumeView

/-!
What holds in every state of the session: its view as a resume protocol is sound, and the ids of
contexts, handles and removals agree with the torrents that they are about.
-/

namespace NuvioEngine.Backend

open NuvioEngine.Bridge NuvioEngine.Stream NuvioEngine.Cache BridgeState Members

theorem BackendState.idOf_named {backend : BackendState} {context : Nat} {id hashId : String}
    (known : (backend.contexts context).torrentId = id ∨ (backend.contexts context).torrentId = "")
    (named : hashId = id ∨ hashId = "") :
    backend.idOf (some context) hashId = id ∨ backend.idOf (some context) hashId = "" := by
  by_cases unnamed : (backend.contexts context).torrentId = ""
  · simpa [idOf, unnamed] using named
  · simpa [idOf, unnamed] using known.resolve_right unnamed

namespace Session

variable (torrentOf : Nat → String)

/-- The marks of the backend agree with the session. -/
structure Consistent (session : Session) (marks : ResumeMarks) : Prop where
  sound : Protocol.Sound torrentOf (session.viewAt marks)
  named : ∀ context < marks.nextContext, torrentOf context ≠ ""
  contexts : ∀ context, marks.torrentId context = torrentOf context ∨ marks.torrentId context = ""
  nameless : ∀ handle, marks.handles.lookup "" = some handle → handle ∈ session.gone
  added : ∀ context handle, .added context handle ∈ session.posted → torrentOf context = torrentOf handle
  awaited : ∀ id, id ∈ session.awaited ↔ (marks.pendingRemovals.lookup id).isSome
  refused : ∀ handle ∈ session.refused, handle ∈ session.made ∧ handle ∉ session.live
  savesOnce : marks.pendingResumeSaves.Nodup
  removalsOnce : marks.pendingCacheRemovals.Nodup

variable {torrentOf} {session : Session} {marks : ResumeMarks} {answers : Answers} {expiring : List Nat}

theorem run_backend (torrentOf : Nat → String) (session : Session) (expiring : List Nat)
    (action : HostAction) :
    (session.perform torrentOf (.run expiring action)).backend = session.backend.after action := by
  unfold perform intend
  dsimp only
  split
  · split <;> rfl
  · split <;> rfl
  · rfl

/-- The session's thread touches neither the backend nor what the user asked for. -/
theorem carryOut_kept (torrentOf : Nat → String) (session : Session) (refusal : Option String)
    (told : Bool) :
    (session.carryOut torrentOf refusal told).backend = session.backend ∧
      (session.carryOut torrentOf refusal told).unwanted = session.unwanted ∧
      (session.carryOut torrentOf refusal told).awaited = session.awaited ∧
      (session.carryOut torrentOf refusal told).cleared = session.cleared := by
  unfold carryOut
  split
  · exact ⟨rfl, rfl, rfl, rfl⟩
  · dsimp only
    split
    · exact ⟨rfl, rfl, rfl, rfl⟩
    · split <;> exact ⟨rfl, rfl, rfl, rfl⟩
  · dsimp only
    split
    · exact ⟨rfl, rfl, rfl, rfl⟩
    · split <;> exact ⟨rfl, rfl, rfl, rfl⟩
  · split <;> exact ⟨rfl, rfl, rfl, rfl⟩

theorem settle_backend (session : Session) (answers : Answers) (id : String) :
    (session.settle answers id).backend = session.backend := by
  unfold settle
  split <;> rfl

namespace Consistent

theorem grounded (consistent : Consistent torrentOf session marks) (canExpire : session.CanExpire expiring)
    (faithful : session.Faithful torrentOf expiring answers) : session.Grounded answers where
  valid := by
    intro handle valid gone
    have invalid := faithful.invalid handle gone
    simp [valid] at invalid
  seen := by
    intro handle context seen
    rcases faithful.seen handle with ⟨made, _, here, _⟩ | ⟨unseen, _⟩
    · obtain rfl : handle = context := by simpa [here] using seen
      exact ⟨rfl, made⟩
    · simp [unseen] at seen
  live := by
    intro handle live
    rcases faithful.seen handle with ⟨_, _, here, _⟩ | ⟨_, _, lost⟩
    · exact here
    · rcases lost (consistent.sound.live_made handle live) with gone | leaving
      · exact absurd live (consistent.sound.expired_out handle gone).2
      · exact absurd live (canExpire handle leaving).2

theorem known (consistent : Consistent torrentOf session marks) (grounded : session.Grounded answers)
    {id : String} {handle : Nat} (found : marks.handles.lookup id = some handle)
    (valid : answers.lt.isValid handle = true) :
    id ≠ "" ∧ torrentOf handle = id ∧ handle ∈ session.made := by
  have named : id ≠ "" := by
    rintro rfl
    exact grounded.valid handle valid (consistent.nameless handle found)
  have handled := consistent.sound.handled id handle (by simpa [viewAt, named] using found)
  exact ⟨named, handled.2, handled.1⟩

theorem install (consistent : Consistent torrentOf session marks) (backend : BackendState) :
    Consistent torrentOf { session with backend := backend } marks :=
  { consistent with }

theorem expires (consistent : Consistent torrentOf session marks) (canExpire : session.CanExpire expiring) :
    Consistent torrentOf { session with gone := expiring ++ session.gone } marks := by
  have steps := Protocol.steps_expire torrentOf expiring (session.viewAt marks) canExpire
  have same : {handle | handle ∈ expiring} ∪ (session.viewAt marks).expired =
      {handle | handle ∈ expiring ++ session.gone} := by
    ext handle
    simp [viewAt]
  simp only [same] at steps
  exact { consistent with
    sound := consistent.sound.steps steps
    nameless := fun handle found => List.mem_append_right _ (consistent.nameless handle found) }

theorem withdraw (consistent : Consistent torrentOf session marks) (id : String) :
    Consistent torrentOf session { marks with
      pendingCacheUnloads := marks.pendingCacheUnloads.filter fun other => other ≠ id } := by
  have step : Protocol.Step torrentOf _ _ := .withdraw (session.viewAt marks) id
  have same : (session.viewAt marks).pendingCacheUnloads \ {id} =
      {other | other ∈ marks.pendingCacheUnloads.filter fun other => other ≠ id} := sdiff_singleton _ _
  rw [same] at step
  exact { consistent with sound := consistent.sound.step step }

/-- The backend asks for saves and unloads. -/
theorem asks (consistent : Consistent torrentOf session marks) (canExpire : session.CanExpire expiring)
    (faithful : session.Faithful torrentOf expiring answers) {left after : BackendState}
    (asks : Asks answers marks after.marks)
    (removals : left.pendingCacheRemovals = marks.pendingCacheRemovals)
    (saves : left.pendingResumeSaves = marks.pendingResumeSaves) :
    Consistent torrentOf
      (session.advance expiring after (BackendState.calls left after after.handles.lookup)) after.marks := by
  have grounded := consistent.grounded canExpire faithful
  have steps := steps_of_asks torrentOf asks grounded removals saves consistent.removalsOnce
    consistent.savesOnce fun id handle found valid => consistent.known grounded found valid
  have asked : Consistent torrentOf { session with
      commands := session.commands ++ BackendState.calls left after after.handles.lookup } after.marks := by
    constructor
    · exact consistent.sound.steps steps
    · rw [asks.kept]
      exact consistent.named
    · rw [asks.kept]
      exact consistent.contexts
    · rw [asks.kept]
      exact consistent.nameless
    · exact consistent.added
    · rw [asks.kept]
      exact consistent.awaited
    · exact consistent.refused
    · exact asks.saves_nodup consistent.savesOnce
    · exact asks.removals_nodup consistent.removalsOnce
  exact (asked.install after).expires canExpire

theorem rest (consistent : Consistent torrentOf session marks) (canExpire : session.CanExpire expiring)
    (after : BackendState) : Consistent torrentOf (session.advance expiring after []) marks := by
  have same : { session with commands := session.commands ++ [] } = session := by
    rw [List.append_nil]
  exact ((same.symm ▸ consistent : Consistent torrentOf { session with
    commands := session.commands ++ [] } marks).install after).expires canExpire

theorem marked (consistent : Consistent torrentOf session marks) (context : Option Nat) :
    Consistent torrentOf session { marks with
      explicitlyRemoved := remark marks.explicitlyRemoved context true } := by
  cases context with
  | none =>
      have same : remark marks.explicitlyRemoved none true = marks.explicitlyRemoved := by
        funext other
        simp [remark]
      rw [same]
      exact consistent
  | some shared =>
      have step : Protocol.Step torrentOf _ _ := .mark (session.viewAt marks) shared
      have same : insert shared (session.viewAt marks).explicitlyRemoved =
          {other | remark marks.explicitlyRemoved (some shared) true other = true} := by
        ext other
        by_cases here : other = shared
        · simp [viewAt, remark, here]
        · simp [viewAt, remark, here, Ne.symm here]
      rw [same] at step
      exact { consistent with sound := consistent.sound.step step }

theorem unmarked (consistent : Consistent torrentOf session marks) {context : Option Nat}
    (gone : ∀ shared, context = some shared → shared ∈ session.gone) :
    Consistent torrentOf session { marks with
      explicitlyRemoved := remark marks.explicitlyRemoved context false } := by
  cases context with
  | none =>
      have same : remark marks.explicitlyRemoved none false = marks.explicitlyRemoved := by
        funext other
        simp [remark]
      rw [same]
      exact consistent
  | some shared =>
      have step : Protocol.Step torrentOf _ _ := .unmark (session.viewAt marks) shared (gone shared rfl)
      have same : (session.viewAt marks).explicitlyRemoved \ {shared} =
          {other | remark marks.explicitlyRemoved (some shared) false other = true} := by
        ext other
        by_cases here : other = shared
        · simp [viewAt, remark, here]
        · simp [viewAt, remark, here, Ne.symm here]
      rw [same] at step
      exact { consistent with sound := consistent.sound.step step }

theorem forget (consistent : Consistent torrentOf session marks) (context : Option Nat)
    (settled : ∀ shared, context = some shared → shared ∈ session.live →
      marks.explicitlyRemoved shared = true) :
    Consistent torrentOf session { marks with
      pendingResumeSaves := marks.pendingResumeSaves.filter fun other => some other ≠ context } := by
  cases context with
  | none =>
      have same : (marks.pendingResumeSaves.filter fun other => some other ≠ none) =
          marks.pendingResumeSaves := by simp
      rw [same]
      exact consistent
  | some shared =>
      have step : Protocol.Step torrentOf _ _ := .forget (session.viewAt marks) shared (settled shared rfl)
      have same : (session.viewAt marks).pendingResumeSaves \ {shared} =
          {other | other ∈ marks.pendingResumeSaves.filter fun other => some other ≠ some shared} := by
        ext other
        simp [viewAt]
      rw [same] at step
      exact { consistent with
        sound := consistent.sound.step step
        savesOnce := consistent.savesOnce.filter _ }

/-- The resume files are not part of the view. -/
theorem store (consistent : Consistent torrentOf session marks) (files : List String) :
    Consistent torrentOf session { marks with resumeFiles := files } :=
  { consistent with }

/-- A context is made for a torrent whose handle is not valid, if there is one. -/
theorem request (consistent : Consistent torrentOf session marks) {id : String}
    (free : ∀ handle, marks.handles.lookup id = some handle → handle ∈ session.gone)
    (about : torrentOf marks.nextContext = id) (named : id ≠ "") :
    Consistent torrentOf { session with
        commands := session.commands ++ [.add marks.nextContext]
        unwanted := session.unwanted.filter fun other => other ≠ id
        cleared := session.cleared.filter fun other => other ≠ id } { marks with
      explicitlyRemoved := remark marks.explicitlyRemoved (some marks.nextContext) false
      torrentId := Function.update marks.torrentId marks.nextContext id
      nextContext := marks.nextContext + 1 } := by
  have step : Protocol.Step torrentOf _ _ := .request (session.viewAt marks) marks.nextContext
    (Nat.lt_irrefl _) <| by
      intro handle found
      rw [about] at found
      exact free handle (by simpa [viewAt, named] using found)
  have requested : insert marks.nextContext (session.viewAt marks).requested =
      {context | context < marks.nextContext + 1} := by
    ext context
    simp only [viewAt, Set.mem_insert_iff, Set.mem_ofPred_eq]
    omega
  have removed : (session.viewAt marks).explicitlyRemoved \ {marks.nextContext} =
      {other | remark marks.explicitlyRemoved (some marks.nextContext) false other = true} := by
    ext other
    by_cases here : other = marks.nextContext
    · simp [viewAt, remark, here]
    · simp [viewAt, remark, here, Ne.symm here]
  have unwanted : (session.viewAt marks).unwanted \ {torrentOf marks.nextContext} =
      {other | other ∈ session.unwanted.filter fun other => other ≠ id} := by
    ext other
    simp [viewAt, about]
  rw [requested, removed, unwanted] at step
  exact { consistent with
    sound := consistent.sound.step step
    named := by
      intro context bound
      rcases Nat.lt_succ_iff_lt_or_eq.mp bound with before | rfl
      · exact consistent.named context before
      · exact about ▸ named
    contexts := by
      intro context
      by_cases here : context = marks.nextContext
      · subst here
        simp [about]
      · simpa [here] using consistent.contexts context }

/-- The user's removal of a torrent that is marked; one for the cache that is on its way serves for it. -/
theorem dismiss (consistent : Consistent torrentOf session marks) {id : String} {handle : Nat}
    (requestId : Nat) (found : marks.handles.lookup id = some handle) (valid : handle ∉ session.gone)
    (free : marks.pendingRemovals.lookup id = none)
    (flagged : handle ∈ session.live → marks.explicitlyRemoved handle = true) :
    Consistent torrentOf { session with
        commands := session.commands ++
          (if id ∉ marks.pendingCacheRemovals then [Command.remove handle] else [])
        unwanted := session.unwanted.insert id
        awaited := session.awaited.insert id } { marks with
      pendingCacheUnloads := marks.pendingCacheUnloads.filter fun other => other ≠ id
      pendingCacheRemovals := marks.pendingCacheRemovals.filter fun other => other ≠ id
      pendingRemovals := marks.pendingRemovals.insert id requestId } := by
  have named : id ≠ "" := by
    rintro rfl
    exact valid (consistent.nameless handle found)
  have known : (session.viewAt marks).handles id = some handle := by simpa [viewAt, named] using found
  obtain ⟨_, rfl⟩ := consistent.sound.handled id handle known
  have unloads : (session.viewAt marks).pendingCacheUnloads \ {torrentOf handle} =
      {other | other ∈ marks.pendingCacheUnloads.filter fun other => other ≠ torrentOf handle} :=
    sdiff_singleton _ _
  have cached : (session.viewAt marks).pendingCacheRemovals \ {torrentOf handle} =
      {other | other ∈ marks.pendingCacheRemovals.filter fun other => other ≠ torrentOf handle} :=
    sdiff_singleton _ _
  have removals : insert (torrentOf handle) (session.viewAt marks).pendingRemovals =
      {other | ((marks.pendingRemovals.insert (torrentOf handle) requestId).lookup other).isSome} := by
    ext other
    by_cases same : other = torrentOf handle
    · simp [viewAt, same]
    · simp [viewAt, same, AList.lookup_insert_ite]
  have unwanted : insert (torrentOf handle) (session.viewAt marks).unwanted =
      {other | other ∈ session.unwanted.insert (torrentOf handle)} := by
    ext other
    simp [viewAt]
  have sound : Protocol.Sound torrentOf ({ session with
        commands := session.commands ++
          (if torrentOf handle ∉ marks.pendingCacheRemovals then [Command.remove handle] else [])
        unwanted := session.unwanted.insert (torrentOf handle)
        awaited := session.awaited.insert (torrentOf handle) }.viewAt { marks with
      pendingCacheUnloads := marks.pendingCacheUnloads.filter fun other => other ≠ torrentOf handle
      pendingCacheRemovals := marks.pendingCacheRemovals.filter fun other => other ≠ torrentOf handle
      pendingRemovals := marks.pendingRemovals.insert (torrentOf handle) requestId }) := by
    by_cases cacheRemoval : torrentOf handle ∈ marks.pendingCacheRemovals
    · have step : Protocol.Step torrentOf _ _ := .overtake (session.viewAt marks) handle known valid
        cacheRemoval flagged
      rw [unloads, cached, removals, unwanted] at step
      rw [if_neg (not_not.mpr cacheRemoval), List.append_nil]
      exact consistent.sound.step step
    · have step : Protocol.Step torrentOf _ _ := .remove (session.viewAt marks) handle known valid
        cacheRemoval (by simp [viewAt, free]) flagged
      rw [unloads, cached, removals, unwanted] at step
      rw [if_pos cacheRemoval]
      exact consistent.sound.step step
  exact { consistent with
    sound := sound
    awaited := by
      intro other
      by_cases same : other = torrentOf handle
      · subst same
        simp
      · simpa [same, AList.lookup_insert_ite] using consistent.awaited other
    removalsOnce := consistent.removalsOnce.filter _ }

theorem run_removeTorrent (consistent : Consistent torrentOf session session.backend.marks)
    (canExpire : session.CanExpire expiring) (faithful : session.Faithful torrentOf expiring answers)
    {requestId : Nat} {id : String} (throws : ∀ handle, session.backend.handles.lookup id = some handle →
      answers.removeFails ≠ none → handle ∈ expiring) :
    Consistent torrentOf (session.perform torrentOf (.run expiring (.removeTorrent answers requestId id)))
      (session.backend.removeTorrent answers requestId id).1.marks := by
  have grounded := consistent.grounded canExpire faithful
  rcases BackendState.removeTorrent_marks session.backend answers requestId id with
    ⟨refused, same⟩ | ⟨handle, found, valid, free, ⟨refused, uncached, failed, same⟩ | ⟨accepted, same⟩⟩
  · have whole : session.perform torrentOf (.run expiring (.removeTorrent answers requestId id)) =
        session.advance expiring (session.backend.after (.removeTorrent answers requestId id)) [] := by
      simp [perform, intend, BackendState.asked, refused]
    rw [whole, same]
    exact consistent.rest canExpire _
  · have whole : session.perform torrentOf (.run expiring (.removeTorrent answers requestId id)) =
        session.advance expiring (session.backend.after (.removeTorrent answers requestId id)) [] := by
      simp [perform, intend, BackendState.asked, refused]
    rw [whole, same, filter_ne_self uncached]
    have rested := consistent.rest canExpire (session.backend.after (.removeTorrent answers requestId id))
    refine (rested.unmarked ?_).withdraw id
    intro shared seen
    obtain rfl := (grounded.seen handle shared seen).1
    exact List.mem_append_left _ (throws _ found failed)
  · have whole : session.perform torrentOf (.run expiring (.removeTorrent answers requestId id)) =
        { session.advance expiring (session.backend.after (.removeTorrent answers requestId id))
            (if id ∉ session.backend.pendingCacheRemovals then [Command.remove handle] else []) with
          unwanted := session.unwanted.insert id
          awaited := session.awaited.insert id } := by
      simp [perform, intend, advance, BackendState.asked, accepted, found]
    rw [whole, same]
    have dismissed := (consistent.marked (answers.userdata handle)).dismiss requestId found
      (grounded.valid handle valid) free fun live => by simp [remark, grounded.live handle live]
    have forgotten := dismissed.forget (answers.userdata handle) <| by
      intro shared seen live
      simp [remark, seen]
    exact ((forgotten.store _).install _).expires canExpire

theorem run_addTorrent (consistent : Consistent torrentOf session session.backend.marks)
    (canExpire : session.CanExpire expiring) (faithful : session.Faithful torrentOf expiring answers)
    {requestId : Nat} {parsed : Except Thrown TorrentSource}
    (about : ∀ source, parsed = .ok source → session.backend.nextContext <
      (session.backend.addTorrent answers requestId parsed).1.nextContext →
        torrentOf session.backend.nextContext = source.id) :
    Consistent torrentOf (session.perform torrentOf (.run expiring (.addTorrent answers requestId parsed)))
      (session.backend.addTorrent answers requestId parsed).1.marks := by
  have grounded := consistent.grounded canExpire faithful
  have quiet : (session.backend.addTorrent answers requestId parsed).1.nextContext =
      session.backend.nextContext →
      session.perform torrentOf (.run expiring (.addTorrent answers requestId parsed)) =
        session.advance expiring (session.backend.after (.addTorrent answers requestId parsed)) [] := by
    intro same
    cases parsed <;> simp [perform, intend, BackendState.asked, same]
  rcases BackendState.addTorrent_marks session.backend answers requestId parsed with
    same | ⟨id, same⟩ | ⟨source, rfl, canonical, invalid, same⟩
  · rw [quiet (congrArg ResumeMarks.nextContext same), same]
    exact consistent.rest canExpire _
  · rw [quiet (congrArg ResumeMarks.nextContext same), same]
    exact (consistent.rest canExpire _).withdraw id
  · have next : (session.backend.addTorrent answers requestId (.ok source)).1.nextContext =
        session.backend.nextContext + 1 := congrArg ResumeMarks.nextContext same
    have whole : session.perform torrentOf (.run expiring (.addTorrent answers requestId (.ok source))) =
        { session.advance expiring (session.backend.after (.addTorrent answers requestId (.ok source)))
            [.add session.backend.nextContext] with
          unwanted := session.unwanted.filter fun other => other ≠ source.id
          cleared := session.cleared.filter fun other => other ≠ source.id } := by
      simp [perform, intend, advance, BackendState.asked, next]
    have named : source.id ≠ "" := by
      rintro empty
      rw [empty] at canonical
      exact absurd canonical (by decide)
    have free : ∀ handle, session.backend.handles.lookup source.id = some handle →
        handle ∈ expiring ++ session.gone := by
      intro handle found
      have lost : answers.lt.isValid handle = false := by
        simpa [BackendState.validHandle, found] using invalid
      have made := (consistent.sound.handled source.id handle (by simpa [viewAt, named, BackendState.marks] using found)).1
      by_contra kept
      have there : handle ∉ expiring ∧ handle ∉ session.gone := by simpa using kept
      simp [faithful.valid handle made there.2 there.1] at lost
    rw [whole, same]
    exact ((consistent.expires canExpire).request free (about source rfl (by omega)) named).install _

theorem calls_nil {left after : BackendState} (removals : after.pendingCacheRemovals = left.pendingCacheRemovals)
    (saves : after.pendingResumeSaves = left.pendingResumeSaves) (taken : String → Option Nat) :
    BackendState.calls left after taken = [] := by
  simp [BackendState.calls, removals, saves]

theorem run_quiet (consistent : Consistent torrentOf session session.backend.marks)
    (canExpire : session.CanExpire expiring) {after : BackendState}
    (same : after.marks = session.backend.marks) :
    Consistent torrentOf
      (session.advance expiring after (BackendState.calls session.backend after after.handles.lookup))
      after.marks := by
  rw [calls_nil (congrArg ResumeMarks.pendingCacheRemovals same)
    (congrArg ResumeMarks.pendingResumeSaves same), same]
  exact consistent.rest canExpire after

theorem run_prepareFile (consistent : Consistent torrentOf session session.backend.marks)
    (canExpire : session.CanExpire expiring) (requestId : Nat) (id : String) (fileIndex : Nat)
    (file : TorrentFileInfo) :
    Consistent torrentOf
      (session.perform torrentOf (.run expiring (.prepareFile answers requestId id fileIndex file)))
      (session.backend.after (.prepareFile answers requestId id fileIndex file)).marks := by
  have whole : session.perform torrentOf (.run expiring (.prepareFile answers requestId id fileIndex file)) =
      session.advance expiring (session.backend.after (.prepareFile answers requestId id fileIndex file))
        (BackendState.calls session.backend
          (session.backend.after (.prepareFile answers requestId id fileIndex file)) _) := rfl
  have marks := BackendState.prepareFile_marks session.backend answers requestId id fileIndex file
  rw [← BackendState.after_prepareFile] at marks
  rcases marks with same | same
  · exact consistent.run_quiet canExpire same
  · rw [whole, calls_nil (congrArg ResumeMarks.pendingCacheRemovals same)
      (congrArg ResumeMarks.pendingResumeSaves same), same]
    exact (consistent.rest canExpire _).withdraw id

theorem run (consistent : Consistent torrentOf session session.backend.marks) {action : HostAction}
    (possible : session.Possible torrentOf (.run expiring action)) :
    Consistent torrentOf (session.perform torrentOf (.run expiring action))
      (session.backend.after action).marks := by
  obtain ⟨canExpire, own, faithful, throws, about⟩ := possible
  have other (notAdd : ∀ answers requestId parsed, action ≠ .addTorrent answers requestId parsed)
      (notPrepare : ∀ answers requestId id fileIndex file,
        action ≠ .prepareFile answers requestId id fileIndex file)
      (notRemove : ∀ answers requestId id, action ≠ .removeTorrent answers requestId id) :
      Consistent torrentOf (session.advance expiring (session.backend.after action)
        (BackendState.calls session.backend (session.backend.after action)
          (session.backend.after action).handles.lookup)) (session.backend.after action).marks := by
    rcases BackendState.after_asks session.backend own notAdd notPrepare notRemove with
      same | ⟨answers, here, asks⟩
    · exact consistent.run_quiet canExpire same
    · exact consistent.asks canExpire (faithful answers here) asks rfl rfl
  cases action with
  | addTorrent answers requestId parsed =>
      rw [BackendState.after_addTorrent]
      refine consistent.run_addTorrent canExpire (faithful answers rfl) ?_
      rintro source rfl
      exact about answers requestId source rfl
  | prepareFile answers requestId id fileIndex file =>
      exact consistent.run_prepareFile canExpire requestId id fileIndex file
  | removeTorrent answers requestId id =>
      rw [BackendState.after_removeTorrent]
      exact consistent.run_removeTorrent canExpire (faithful answers rfl) fun handle =>
        throws answers requestId id handle rfl
  | stopStream | pollStreams | takeQueued | alert | periodic | reclaimDiskCache | create | learnMetadata
  | lose | http => exact other (by simp) (by simp) (by simp)

theorem saveAll (consistent : Consistent torrentOf session session.backend.marks)
    (canExpire : session.CanExpire expiring) (faithful : session.Faithful torrentOf expiring answers) :
    Consistent torrentOf (session.perform torrentOf (.saveAll expiring answers))
      (session.backend.saveAll answers).marks :=
  consistent.asks canExpire faithful (BackendState.saveAll_asks session.backend answers) rfl rfl

theorem asksSave (consistent : Consistent torrentOf session marks) {left after : BackendState}
    (asks : BackendState.AsksSave answers marks after.marks)
    (seen : ∀ handle context, answers.userdata handle = some context → context ∈ session.made)
    (removals : left.pendingCacheRemovals = marks.pendingCacheRemovals)
    (saves : left.pendingResumeSaves = marks.pendingResumeSaves) (taken : String → Option Nat) :
    Consistent torrentOf { session with
      commands := session.commands ++ BackendState.calls left after taken } after.marks := by
  rcases asks with same | ⟨handle, context, here, kept, idle, same⟩
  · rw [calls_nil ((congrArg ResumeMarks.pendingCacheRemovals same).trans removals.symm)
      ((congrArg ResumeMarks.pendingResumeSaves same).trans saves.symm), List.append_nil, same]
    exact consistent
  · have uncached : after.pendingCacheRemovals = left.pendingCacheRemovals :=
      (congrArg ResumeMarks.pendingCacheRemovals same).trans removals.symm
    have saved : after.pendingResumeSaves = context :: left.pendingResumeSaves := by
      refine (congrArg ResumeMarks.pendingResumeSaves same).trans ?_
      rw [saves]
      exact List.insert_of_not_mem idle
    have calls : BackendState.calls left after taken = [.save context] := by
      rw [← saves] at idle
      rw [BackendState.calls, uncached, saved, filter_absent, List.filter_cons_of_pos (by simpa using idle),
        filter_absent]
      rfl
    have step : Protocol.Step torrentOf _ _ := .save (session.viewAt marks) context (seen handle context here)
      (by simp [viewAt, kept]) idle
    have marked : insert context (session.viewAt marks).pendingResumeSaves =
        {other | other ∈ marks.pendingResumeSaves.insert context} := by
      ext other
      simp [viewAt]
    rw [marked] at step
    rw [calls, same]
    exact { consistent with
      sound := consistent.sound.step step
      savesOnce := consistent.savesOnce.insert }

theorem learn (consistent : Consistent torrentOf session marks) {context handle : Nat} {rest : List Posted}
    (next : session.posted = .added context handle :: rest) (valid : handle ∉ session.gone)
    {ids : Nat → String} (contexts : ∀ context, ids context = torrentOf context ∨ ids context = "") :
    Consistent torrentOf { session with posted := rest } { marks with
      handles := marks.handles.insert (torrentOf handle) handle
      torrentId := ids } := by
  have notices : (session.viewAt marks).notices = .added handle :: rest.map Posted.notice := by
    simp [viewAt, next, Posted.notice]
  have made := consistent.sound.added_made handle (notices ▸ List.mem_cons_self ..)
  have named := consistent.named handle (consistent.sound.made_requested handle made)
  have step : Protocol.Step torrentOf _ _ := .learn (session.viewAt marks) handle _ notices valid
  have handles : Function.update (session.viewAt marks).handles (torrentOf handle) (some handle) =
      fun id => if id = "" then none else (marks.handles.insert (torrentOf handle) handle).lookup id := by
    funext id
    by_cases same : id = torrentOf handle
    · subst same
      simp [named]
    · simp [viewAt, same]
  rw [handles] at step
  exact { consistent with
    sound := consistent.sound.step step
    contexts := contexts
    nameless := by
      intro other found
      rw [AList.lookup_insert_ne (Ne.symm named)] at found
      exact consistent.nameless other found
    added := fun context other member => consistent.added context other (next ▸ List.mem_cons_of_mem _ member) }

theorem miss (consistent : Consistent torrentOf session marks) {context handle : Nat} {rest : List Posted}
    (next : session.posted = .added context handle :: rest) (gone : handle ∈ session.gone)
    {ids : Nat → String} (contexts : ∀ context, ids context = torrentOf context ∨ ids context = "") :
    Consistent torrentOf { session with posted := rest } { marks with
      handles := marks.handles.insert "" handle
      torrentId := ids } := by
  have notices : (session.viewAt marks).notices = .added handle :: rest.map Posted.notice := by
    simp [viewAt, next, Posted.notice]
  have step : Protocol.Step torrentOf _ _ := .miss (session.viewAt marks) handle _ notices gone
  have handles : (session.viewAt marks).handles =
      fun id => if id = "" then none else (marks.handles.insert "" handle).lookup id := by
    funext id
    by_cases same : id = ""
    · simp [viewAt, same]
    · simp [viewAt, same]
  rw [handles] at step
  exact { consistent with
    sound := consistent.sound.step step
    contexts := contexts
    nameless := by
      intro other found
      obtain rfl : handle = other := by simpa using found
      exact gone
    added := fun context other member => consistent.added context other (next ▸ List.mem_cons_of_mem _ member) }

theorem lament (consistent : Consistent torrentOf session marks) {context : Nat} {message : String}
    {rest : List Posted} (next : session.posted = .refused context message :: rest) :
    Consistent torrentOf { session with posted := rest } marks := by
  have notices : (session.viewAt marks).notices = .refused :: rest.map Posted.notice := by
    simp [viewAt, next, Posted.notice]
  have step : Protocol.Step torrentOf _ _ := .lament (session.viewAt marks) _ notices
  exact { consistent with
    sound := consistent.sound.step step
    added := fun context other member => consistent.added context other (next ▸ List.mem_cons_of_mem _ member) }

theorem release (consistent : Consistent torrentOf session marks) {handle : Nat} {rest : List Posted}
    (next : session.posted = .removed handle :: rest) :
    Consistent torrentOf { session with
        posted := rest
        awaited := session.awaited.filter fun other => other ≠ torrentOf handle } { marks with
      handles := marks.handles.erase (torrentOf handle)
      pendingRemovals := marks.pendingRemovals.erase (torrentOf handle)
      pendingCacheUnloads := marks.pendingCacheUnloads.filter fun other => other ≠ torrentOf handle
      pendingCacheRemovals := marks.pendingCacheRemovals.filter fun other => other ≠ torrentOf handle } := by
  have notices : (session.viewAt marks).notices = .removed handle :: rest.map Posted.notice := by
    simp [viewAt, next, Posted.notice]
  have step : Protocol.Step torrentOf _ _ := .release (session.viewAt marks) handle _ notices
  have handles : Function.update (session.viewAt marks).handles (torrentOf handle) none =
      fun id => if id = "" then none else (marks.handles.erase (torrentOf handle)).lookup id := by
    funext id
    by_cases same : id = torrentOf handle
    · subst same
      simp
    · simp [viewAt, same]
  have unloads : (session.viewAt marks).pendingCacheUnloads \ {torrentOf handle} =
      {other | other ∈ marks.pendingCacheUnloads.filter fun other => other ≠ torrentOf handle} :=
    sdiff_singleton _ _
  have cached : (session.viewAt marks).pendingCacheRemovals \ {torrentOf handle} =
      {other | other ∈ marks.pendingCacheRemovals.filter fun other => other ≠ torrentOf handle} :=
    sdiff_singleton _ _
  have removals : (session.viewAt marks).pendingRemovals \ {torrentOf handle} =
      {other | ((marks.pendingRemovals.erase (torrentOf handle)).lookup other).isSome} := by
    ext other
    by_cases same : other = torrentOf handle
    · subst same
      simp
    · simp [viewAt, same, AList.lookup_erase_ite]
  rw [handles, unloads, cached, removals] at step
  have awaited : ∀ id, id ∈ (session.awaited.filter fun other => other ≠ torrentOf handle) ↔
      ((marks.pendingRemovals.erase (torrentOf handle)).lookup id).isSome := by
    intro id
    by_cases same : id = torrentOf handle
    · subst same
      simp
    · simpa [same, AList.lookup_erase_ite] using consistent.awaited id
  exact { consistent with
    sound := consistent.sound.step step
    nameless := by
      intro other found
      by_cases same : "" = torrentOf handle
      · simp [← same] at found
      · rw [AList.lookup_erase_ne same] at found
        exact consistent.nameless other found
    added := fun context other member => consistent.added context other (next ▸ List.mem_cons_of_mem _ member)
    awaited := awaited
    removalsOnce := consistent.removalsOnce.filter _ }

theorem settle {id : String} (consistent : Consistent torrentOf { session with
      awaited := session.awaited.filter fun other => other ≠ id } marks) :
    Consistent torrentOf (session.settle answers id) marks := by
  unfold Session.settle
  split
  · rename_i absent
    rw [filter_ne_self absent] at consistent
    exact consistent
  · exact { consistent with }

theorem idOf (consistent : Consistent torrentOf session session.backend.marks) (context : Nat) :
    session.backend.idOf (some context) (torrentOf context) = torrentOf context := by
  rcases consistent.contexts context with named | unnamed
  · have same : (session.backend.contexts context).torrentId = torrentOf context := named
    simp [BackendState.idOf, same]
  · have none : (session.backend.contexts context).torrentId = "" := unnamed
    simp [BackendState.idOf, none]

theorem hear_added (consistent : Consistent torrentOf session session.backend.marks)
    (canExpire : session.CanExpire expiring) (faithful : session.Faithful torrentOf expiring answers)
    {context handle : Nat} {rest : List Posted} (next : session.posted = .added context handle :: rest) :
    Consistent torrentOf
      (({ session with posted := rest } : Session).handle expiring answers (.added (some context) handle none)
        fun after => after.handles.lookup)
      (session.backend.after (.alert answers (.added (some context) handle none))).marks := by
  have grounded := consistent.grounded canExpire faithful
  have about := consistent.added context handle (next ▸ List.mem_cons_self ..)
  have made : handle ∈ session.made :=
    consistent.sound.added_made handle (by simp [viewAt, next, Posted.notice])
  obtain ⟨ids, asks, adopted⟩ :=
    BackendState.handleAdded_asks session.backend answers (some context) handle
  have same := BackendState.collect_marks session.backend
    (session.backend.handleAdded answers (some context) handle none)
  rw [← same] at asks
  have contexts (named : answers.torrentId handle = torrentOf handle ∨ answers.torrentId handle = "") :
      ∀ other, ids other = torrentOf other ∨ ids other = "" := by
    intro other
    rcases adopted with rfl | ⟨shared, here, rfl⟩
    · exact consistent.contexts other
    · obtain rfl := Option.some.inj here
      by_cases same : other = context
      · subst same
        simpa [about] using named
      · simpa [same] using consistent.contexts other
  have seen : ∀ handle context, answers.userdata handle = some context → context ∈ session.made :=
    fun handle context seen => (grounded.seen handle context seen).2
  -- an expired handle is kept under the empty id, which is no torrent's
  have expired (lost : answers.torrentId handle = "") (gone : handle ∈ expiring ++ session.gone) :
      Consistent torrentOf
        (({ session with posted := rest } : Session).handle expiring answers (.added (some context) handle none)
          fun after => after.handles.lookup)
        (session.backend.after (.alert answers (.added (some context) handle none))).marks := by
    rw [lost] at asks
    exact (((consistent.expires canExpire).miss next gone (contexts (Or.inr lost))).asksSave asks seen rfl rfl
      _).install _
  rcases faithful.seen handle with ⟨_, valid, _, named | ⟨lost, leaving⟩⟩ | ⟨_, lost, gone⟩
  · rw [named] at asks
    exact (((consistent.learn next valid (contexts (Or.inl named))).asksSave asks seen rfl rfl
      _).install _).expires canExpire
  · exact expired lost (List.mem_append_left _ leaving)
  · exact expired lost (List.mem_append.mpr (gone made).symm)

theorem hear_removed (consistent : Consistent torrentOf session session.backend.marks)
    (canExpire : session.CanExpire expiring) (faithful : session.Faithful torrentOf expiring answers)
    {handle : Nat} {rest : List Posted} (next : session.posted = .removed handle :: rest) :
    Consistent torrentOf
      ((({ session with posted := rest } : Session).handle expiring answers
        (.torrentRemoved (some handle) (torrentOf handle)) fun after => after.handles.lookup).settle answers
          (torrentOf handle))
      (session.backend.after (.alert answers (.torrentRemoved (some handle) (torrentOf handle)))).marks := by
  have id : session.backend.idOf (some handle) (torrentOf handle) = torrentOf handle :=
    consistent.idOf handle
  have asks := BackendState.handleRemoved_asks session.backend answers (some handle) (torrentOf handle)
  rw [id] at asks
  have out := (consistent.sound.removed_out handle (by simp [viewAt, next, Posted.notice])).2
  have forgotten := (consistent.release next).forget (some handle) <| by
    intro shared same live
    obtain rfl := Option.some.inj same
    exact absurd live out
  refine ((forgotten.store _).asks canExpire ⟨faithful.valid, faithful.invalid, faithful.seen⟩ asks ?_
    rfl).settle
  simp only [BackendState.unmarked, id]
  rfl

theorem deliver (consistent : Consistent torrentOf session session.backend.marks)
    (possible : session.Possible torrentOf (.deliver expiring answers)) :
    Consistent torrentOf (session.deliver torrentOf expiring answers)
      (session.deliver torrentOf expiring answers).backend.marks := by
  obtain ⟨canExpire, faithful, waiting⟩ := possible
  have grounded := consistent.grounded canExpire faithful
  unfold Session.deliver
  cases next : session.posted with
  | nil => exact absurd next waiting
  | cons posted rest =>
      cases posted with
      | added context handle => exact consistent.hear_added canExpire faithful next
      | refused context message => exact (consistent.lament next).run_quiet canExpire rfl
      | removed handle =>
          have heard := consistent.hear_removed canExpire faithful next
          have same := settle_backend (({ session with posted := rest } : Session).handle expiring answers
            (.torrentRemoved (some handle) (torrentOf handle)) fun after => after.handles.lookup) answers
              (torrentOf handle)
          exact (congrArg BackendState.marks same) ▸ heard

/-- A torrent that was chosen is taken out, or not chosen any more. -/
theorem resolves (consistent : Consistent torrentOf session marks) {id : String} {handle : Nat}
    {left after : BackendState} (resolves : BackendState.Resolves answers id handle marks after.marks)
    (made : handle ∈ session.made) (named : id = torrentOf handle ∨ id = "")
    (ready : handle ∈ session.live → handle ∉ marks.pendingResumeSaves)
    (removals : left.pendingCacheRemovals = marks.pendingCacheRemovals)
    (saves : left.pendingResumeSaves = marks.pendingResumeSaves) :
    Consistent torrentOf { session with
      commands := session.commands ++ BackendState.calls left after fun _ => some handle } after.marks := by
  rcases resolves with same | ⟨chosen, taken, same, cases⟩
  · rw [calls_nil ((congrArg ResumeMarks.pendingCacheRemovals same).trans removals.symm)
      ((congrArg ResumeMarks.pendingResumeSaves same).trans saves.symm), List.append_nil, same]
    exact consistent
  · have saved : after.pendingResumeSaves = left.pendingResumeSaves :=
      (congrArg ResumeMarks.pendingResumeSaves same).trans saves.symm
    have cached : after.pendingCacheRemovals = taken := congrArg ResumeMarks.pendingCacheRemovals same
    have uncached : id ∉ marks.pendingCacheRemovals := (consistent.sound.chosen_unmarked id chosen).1
    have withdrawn (kept : taken = marks.pendingCacheRemovals) : Consistent torrentOf { session with
        commands := session.commands ++ BackendState.calls left after fun _ => some handle } after.marks := by
      rw [calls_nil (cached.trans (kept.trans removals.symm)) saved, List.append_nil, same, kept]
      exact consistent.withdraw id
    rcases cases with kept | dropped | ⟨_, inserted⟩
    · exact withdrawn kept
    · exact withdrawn (dropped.trans (filter_ne_self uncached))
    · obtain rfl : id = torrentOf handle := by
        refine named.resolve_right ?_
        rintro rfl
        obtain ⟨_, _, known⟩ := consistent.sound.chosen_live "" chosen
        simp [viewAt] at known
      have fresh : after.pendingCacheRemovals = torrentOf handle :: left.pendingCacheRemovals := by
        rw [cached, inserted, removals]
        exact List.insert_of_not_mem uncached
      have calls : (BackendState.calls left after fun _ => some handle) = [.remove handle] := by
        rw [← removals] at uncached
        rw [BackendState.calls, saved, fresh, filter_absent,
          List.filter_cons_of_pos (by simpa using uncached), filter_absent]
        rfl
      have step : Protocol.Step torrentOf _ _ := .unload (session.viewAt marks) handle made chosen ready
      have unloads : (session.viewAt marks).pendingCacheUnloads \ {torrentOf handle} =
          {other | other ∈ marks.pendingCacheUnloads.filter fun other => other ≠ torrentOf handle} :=
        sdiff_singleton _ _
      have marked : insert (torrentOf handle) (session.viewAt marks).pendingCacheRemovals =
          {other | other ∈ marks.pendingCacheRemovals.insert (torrentOf handle)} := by
        ext other
        simp [viewAt]
      rw [unloads, marked] at step
      rw [calls, same, inserted]
      exact { consistent with
        sound := consistent.sound.step step
        removalsOnce := consistent.removalsOnce.insert }

theorem answer (consistent : Consistent torrentOf session marks) {handle : Nat}
    (asked : handle ∈ session.saving) :
    Consistent torrentOf { session with saving := session.saving.erase handle } { marks with
      pendingResumeSaves := marks.pendingResumeSaves.filter fun other => some other ≠ some handle } := by
  have step : Protocol.Step torrentOf _ _ := .answer (session.viewAt marks) handle asked
  have same : (session.viewAt marks).pendingResumeSaves \ {handle} =
      {other | other ∈ marks.pendingResumeSaves.filter fun other => some other ≠ some handle} := by
    ext other
    simp [viewAt]
  rw [same] at step
  exact { consistent with
    sound := consistent.sound.step step
    savesOnce := consistent.savesOnce.filter _ }

theorem echo (consistent : Consistent torrentOf session marks) {handle : Nat}
    (gone : handle ∈ session.gone) :
    Consistent torrentOf { session with saving := session.saving.erase handle } marks := by
  have out := (consistent.sound.expired_out handle gone).2
  exact { consistent with
    sound := consistent.sound.step (.echo (session.viewAt marks) handle out) }

/-- The backend heard how a save went, and forgot that it waits for it. -/
theorem heard {handle : Nat} {files : List String} {after : BackendState}
    (forgotten : Consistent torrentOf session { session.backend.marks with
      pendingResumeSaves := session.backend.pendingResumeSaves.filter fun other =>
        some other ≠ answers.userdata handle })
    (seen : ∀ handle context, answers.userdata handle = some context → context = handle)
    (live : ∀ handle ∈ session.live, answers.userdata handle = some handle) (made : handle ∈ session.made)
    (named : answers.torrentId handle = torrentOf handle ∨ answers.torrentId handle = "")
    (resolves : BackendState.Resolves answers
      (session.backend.idOf (answers.userdata handle) (answers.torrentId handle)) handle
      { session.backend.marks with
        pendingResumeSaves := session.backend.pendingResumeSaves.filter fun other =>
          some other ≠ answers.userdata handle
        resumeFiles := files } after.marks) :
    Consistent torrentOf { session with
      commands := session.commands ++ BackendState.calls
        (session.backend.forgetResumeSave (answers.userdata handle)) after fun _ => some handle }
      after.marks := by
  refine (forgotten.store files).resolves resolves made ?_ ?_ rfl rfl
  · cases here : answers.userdata handle with
    | none => exact named
    | some context =>
        obtain rfl := seen handle context here
        exact BackendState.idOf_named (forgotten.contexts context) named
  · intro there member
    simp [live handle there] at member

/-- An answer to a save arrived; `files` are the resume files when the backend has stored it. -/
theorem arrived (consistent : Consistent torrentOf session session.backend.marks)
    (canExpire : session.CanExpire expiring) (faithful : session.Faithful torrentOf expiring answers)
    {handle : Nat} (asked : handle ∈ session.saving) {files : List String} {after : BackendState}
    (resolves : BackendState.Resolves answers
      (session.backend.idOf (answers.userdata handle) (answers.torrentId handle)) handle
      { session.backend.marks with
        pendingResumeSaves := session.backend.pendingResumeSaves.filter fun other =>
          some other ≠ answers.userdata handle
        resumeFiles := files } after.marks) :
    Consistent torrentOf (({ session with saving := session.saving.erase handle } : Session).advance expiring
      after (BackendState.calls (session.backend.forgetResumeSave (answers.userdata handle)) after
        fun _ => some handle)) after.marks := by
  have grounded := consistent.grounded canExpire faithful
  have made := consistent.sound.saving_made handle asked
  rcases faithful.seen handle with ⟨_, _, seen, named⟩ | ⟨unseen, lost, gone⟩
  · have forgotten := consistent.answer asked
    rw [← seen] at forgotten
    exact ((forgotten.heard (fun _ _ seen => (grounded.seen _ _ seen).1) grounded.live made
      (named.imp_right And.left) resolves).install after).expires canExpire
  · have expired := consistent.expires canExpire
    have forgotten := (expired.echo (List.mem_append.mpr (gone made).symm)).forget
      (answers.userdata handle) <| by
        intro shared seen
        simp [unseen] at seen
    exact (forgotten.heard (fun _ _ seen => (grounded.seen _ _ seen).1) grounded.live made (Or.inr lost)
      resolves).install after

theorem saved (consistent : Consistent torrentOf session session.backend.marks) {handle : Nat}
    (possible : session.Possible torrentOf (.saved expiring answers handle)) :
    Consistent torrentOf (session.perform torrentOf (.saved expiring answers handle))
      (session.backend.handleResumeSaved answers handle).marks := by
  obtain ⟨canExpire, faithful, asked⟩ := possible
  obtain ⟨files, _, resolves⟩ := BackendState.handleResumeSaved_marks session.backend answers handle
  exact consistent.arrived canExpire faithful asked resolves

theorem saveFailed (consistent : Consistent torrentOf session session.backend.marks) {handle : Nat}
    {notModified : Bool} {message : String}
    (possible : session.Possible torrentOf (.saveFailed expiring answers handle notModified message)) :
    Consistent torrentOf (session.perform torrentOf (.saveFailed expiring answers handle notModified message))
      (session.backend.handleResumeSaveFailed answers handle notModified message).marks := by
  obtain ⟨canExpire, faithful, asked⟩ := possible
  exact consistent.arrived canExpire faithful asked
    (BackendState.handleResumeSaveFailed_marks session.backend answers handle notModified message)

theorem saveRefused (consistent : Consistent torrentOf session session.backend.marks) {handle : Nat}
    {notModified : Bool} {message : String}
    (possible : session.Possible torrentOf (.saveRefused expiring answers handle notModified message)) :
    Consistent torrentOf (session.perform torrentOf (.saveRefused expiring answers handle notModified message))
      (session.backend.handleResumeSaveFailed answers handle notModified message).marks := by
  obtain ⟨canExpire, faithful, waiting⟩ := possible
  have grounded := consistent.grounded canExpire faithful
  have ⟨made, out⟩ := consistent.refused handle waiting
  have taken : Consistent torrentOf { session with refused := session.refused.erase handle }
      session.backend.marks :=
    { consistent with refused := fun other member => consistent.refused other (List.mem_of_mem_erase member) }
  have forgotten := taken.forget (answers.userdata handle) <| by
    intro shared seen live
    obtain rfl := (grounded.seen handle shared seen).1
    exact absurd live out
  have named : answers.torrentId handle = torrentOf handle ∨ answers.torrentId handle = "" := by
    rcases faithful.seen handle with ⟨_, _, _, named⟩ | ⟨_, lost, _⟩
    · exact named.imp_right And.left
    · exact Or.inr lost
  exact ((forgotten.heard (fun _ _ seen => (grounded.seen _ _ seen).1) grounded.live made named
    (BackendState.handleResumeSaveFailed_marks session.backend answers handle notModified message)).install
      _).expires canExpire

theorem mem_post {context handle : Nat} {posted : Posted}
    (member : .added context handle ∈ (session.post posted).posted) :
    .added context handle ∈ session.posted ∨ posted = .added context handle := by
  simpa [post, eq_comm] using member

theorem notices_post (session : Session) (marks : ResumeMarks) (posted : Posted) :
    (session.viewAt marks).notices ++ [posted.notice] = (session.posted ++ [posted]).map Posted.notice := by
  simp [viewAt]

theorem carryOutAdd (consistent : Consistent torrentOf session marks) {context : Nat}
    {rest : List (Command Nat)} (next : session.commands = .add context :: rest) (refusal : Option String)
    (told : Bool) : Consistent torrentOf (session.carryOut torrentOf refusal told) marks := by
  have commands : (session.viewAt marks).commands = .add context :: rest := next
  unfold Session.carryOut
  rw [next]
  cases refusal with
  | some message =>
      have step : Protocol.Step torrentOf _ _ := .refuse (session.viewAt marks) context rest commands
      have notices := notices_post session marks (.refused context message)
      simp only [Posted.notice] at notices
      rw [notices] at step
      exact { consistent with
        sound := consistent.sound.step step
        added := by
          intro other handle member
          rcases mem_post member with before | last
          · exact consistent.added other handle before
          · simp at last }
  | none =>
      dsimp only
      cases found : session.live.find? fun handle => torrentOf handle = torrentOf context with
      | some present =>
          have same : torrentOf present = torrentOf context := by simpa using List.find?_some found
          have there : present ∈ session.live := List.mem_of_find?_eq_some found
          have step : Protocol.Step torrentOf _ _ := .duplicate (session.viewAt marks) context present rest
            commands there same
          have notices := notices_post session marks (.added context present)
          simp only [Posted.notice] at notices
          rw [notices] at step
          exact { consistent with
            sound := consistent.sound.step step
            added := by
              intro other handle member
              rcases mem_post member with before | last
              · exact consistent.added other handle before
              · obtain ⟨rfl, rfl⟩ := Posted.added.inj last
                exact same.symm }
      | none =>
          have single : ∀ other ∈ session.live, torrentOf other ≠ torrentOf context := by
            simpa using found
          have step : Protocol.Step torrentOf _ _ := .make (session.viewAt marks) context rest commands single
          have notices := notices_post session marks (.added context context)
          have live : insert context (session.viewAt marks).live = {handle | handle ∈ context :: session.live} := by
            ext handle
            simp [viewAt]
          have made : insert context (session.viewAt marks).made = {handle | handle ∈ context :: session.made} := by
            ext handle
            simp [viewAt]
          simp only [Posted.notice] at notices
          rw [notices, live, made] at step
          exact { consistent with
            sound := consistent.sound.step step
            added := by
              intro other handle member
              rcases mem_post member with before | last
              · exact consistent.added other handle before
              · obtain ⟨rfl, rfl⟩ := Posted.added.inj last
                rfl
            refused := by
              intro handle member
              obtain ⟨there, out⟩ := consistent.refused handle member
              refine ⟨List.mem_cons_of_mem _ there, ?_⟩
              rintro (_ | ⟨_, live⟩)
              · exact (consistent.sound.add_fresh context (by simp [viewAt, next])).2 there
              · exact out live }

theorem carryOutRemove (consistent : Consistent torrentOf session marks) {handle : Nat}
    {rest : List (Command Nat)} (next : session.commands = .remove handle :: rest) (refusal : Option String)
    (told : Bool) : Consistent torrentOf (session.carryOut torrentOf refusal told) marks := by
  have commands : (session.viewAt marks).commands = .remove handle :: rest := next
  have notices := notices_post session marks (.removed handle)
  simp only [Posted.notice] at notices
  have added : ∀ context other, .added context other ∈ session.posted ++ [.removed handle] →
      torrentOf context = torrentOf other := by
    intro context other member
    exact consistent.added context other (by simpa using member)
  unfold Session.carryOut
  rw [next]
  dsimp only
  split
  · rename_i there
    have step : Protocol.Step torrentOf _ _ := .takeOut (session.viewAt marks) handle rest commands there
    have live : (session.viewAt marks).live \ {handle} =
        {other | other ∈ session.live.filter fun other => other ≠ handle} := sdiff_singleton _ _
    rw [notices, live] at step
    exact { consistent with
      sound := consistent.sound.step step
      added := added
      refused := fun other member =>
        have ⟨made, out⟩ := consistent.refused other member
        ⟨made, fun live => out (List.mem_filter.mp live).1⟩ }
  · rename_i out
    split
    · have step : Protocol.Step torrentOf _ _ := .retell (session.viewAt marks) handle rest commands out
      rw [notices] at step
      exact { consistent with
        sound := consistent.sound.step step
        added := added }
    · exact { consistent with
        sound := consistent.sound.step (.ignore (session.viewAt marks) handle rest commands out) }

theorem carryOut (consistent : Consistent torrentOf session marks) (refusal : Option String) (told : Bool) :
    Consistent torrentOf (session.carryOut torrentOf refusal told) marks := by
  cases next : session.commands with
  | nil =>
      unfold Session.carryOut
      rw [next]
      exact consistent
  | cons command rest =>
      cases command with
      | add context => exact consistent.carryOutAdd next refusal told
      | remove handle => exact consistent.carryOutRemove next refusal told
      | save handle =>
          have commands : (session.viewAt marks).commands = .save handle :: rest := next
          unfold Session.carryOut
          rw [next]
          dsimp only
          split
          · rename_i there
            exact { consistent with
              sound := consistent.sound.step (.record (session.viewAt marks) handle rest commands there) }
          · rename_i out
            exact { consistent with
              sound := consistent.sound.step (.reject (session.viewAt marks) handle rest commands out)
              refused := by
                intro other member
                rcases List.mem_append.mp member with before | last
                · exact consistent.refused other before
                · obtain rfl : other = handle := by simpa using last
                  exact ⟨consistent.sound.save_made other (by simp [viewAt, next]), out⟩ }

theorem perform (consistent : Consistent torrentOf session session.backend.marks) {action : SessionAction}
    (possible : session.Possible torrentOf action) :
    Consistent torrentOf (session.perform torrentOf action)
      (session.perform torrentOf action).backend.marks := by
  cases action with
  | run expiring action => exact run_backend torrentOf session expiring action ▸ consistent.run possible
  | saveAll expiring answers => exact consistent.saveAll possible.1 possible.2
  | deliver expiring answers => exact consistent.deliver possible
  | saved expiring answers handle => exact consistent.saved possible
  | saveFailed expiring answers handle notModified message => exact consistent.saveFailed possible
  | saveRefused expiring answers handle notModified message => exact consistent.saveRefused possible
  | carryOut refusal told =>
      have same := (carryOut_kept torrentOf session refusal told).1
      exact (congrArg BackendState.marks same).symm ▸ consistent.carryOut refusal told
  | expire handle => exact consistent.expires possible

end Consistent

theorem consistent_initial (initial : session.Initial) :
    Consistent torrentOf session session.backend.marks := by
  obtain ⟨system, timeout, files, rfl⟩ := initial
  constructor
  · constructor <;> simp [viewAt, BackendState.marks, Protocol.Known, Protocol.inFlight, Protocol.unanswered,
      Queue.not_ahead_nil]
  · simp [BackendState.marks]
  · simp [BackendState.marks]
  · simp [BackendState.marks]
  · simp
  · simp [BackendState.marks]
  · simp
  · simp [BackendState.marks]
  · simp [BackendState.marks]

theorem consistent_reachable (reached : session.Reachable torrentOf) :
    Consistent torrentOf session session.backend.marks := by
  have starts : ∀ session : Session, session.Initial → Consistent torrentOf session session.backend.marks :=
    fun _ initial => consistent_initial initial
  have keeps : ∀ (session : Session) action, Consistent torrentOf session session.backend.marks →
      session.Possible torrentOf action → Consistent torrentOf (session.perform torrentOf action)
        (session.perform torrentOf action).backend.marks :=
    fun _ _ consistent possible => consistent.perform possible
  exact Transition.Reachable.invariant starts keeps reached

end Session

end NuvioEngine.Backend
