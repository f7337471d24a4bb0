import NuvioEngine.Backend.Recalls

/-!
What the steps of the backend do to the marks that resume files depend on: which torrents are being
removed, unloaded or saved. Most steps only ask for saves and for unloads of torrents that they find
idle.
-/

namespace NuvioEngine.Backend

open NuvioEngine.Bridge NuvioEngine.Stream NuvioEngine.Cache BridgeState

/-- The part of the backend that resume files depend on. -/
structure ResumeMarks where
  explicitlyRemoved : Nat → Bool
  torrentId : Nat → String
  nextContext : Nat
  handles : HashMap String Nat
  pendingRemovals : HashMap String Nat
  pendingResumeSaves : List Nat
  pendingCacheUnloads : List String
  pendingCacheRemovals : List String
  resumeFiles : List String

namespace BackendState

def marks (backend : BackendState) : ResumeMarks where
  explicitlyRemoved := fun context => (backend.contexts context).explicitlyRemoved
  torrentId := fun context => (backend.contexts context).torrentId
  nextContext := backend.nextContext
  handles := backend.handles
  pendingRemovals := backend.pendingRemovals
  pendingResumeSaves := backend.pendingResumeSaves
  pendingCacheUnloads := backend.pendingCacheUnloads
  pendingCacheRemovals := backend.pendingCacheRemovals
  resumeFiles := backend.resumeFiles

end BackendState

/-- Saves are asked of torrents that no one removed, torrents are chosen to be unloaded, and chosen ones
that need no save are taken out. -/
structure Asks (answers : Answers) (before after : ResumeMarks) : Prop where
  kept : after = { before with
    pendingResumeSaves := after.pendingResumeSaves
    pendingCacheUnloads := after.pendingCacheUnloads
    pendingCacheRemovals := after.pendingCacheRemovals }
  saves_subset : before.pendingResumeSaves ⊆ after.pendingResumeSaves
  unloads_subset : before.pendingCacheUnloads ⊆ after.pendingCacheUnloads
  removals_subset : before.pendingCacheRemovals ⊆ after.pendingCacheRemovals
  saves : ∀ context ∈ after.pendingResumeSaves, context ∉ before.pendingResumeSaves →
    before.explicitlyRemoved context = false ∧ ∃ handle, answers.userdata handle = some context
  unloads : ∀ id ∈ after.pendingCacheUnloads, id ∉ before.pendingCacheUnloads →
    id ∉ before.pendingCacheRemovals ∧ id ∉ after.pendingCacheRemovals ∧
      before.pendingRemovals.lookup id = none ∧
      ∃ handle, before.handles.lookup id = some handle ∧ answers.lt.isValid handle = true
  removals : ∀ id ∈ after.pendingCacheRemovals, id ∉ before.pendingCacheRemovals →
    id ∉ before.pendingCacheUnloads ∧ before.pendingRemovals.lookup id = none ∧
      ∃ handle, before.handles.lookup id = some handle ∧ answers.lt.isValid handle = true ∧
        ∀ context, answers.userdata handle = some context → context ∉ before.pendingResumeSaves
  saves_nodup : before.pendingResumeSaves.Nodup → after.pendingResumeSaves.Nodup
  removals_nodup : before.pendingCacheRemovals.Nodup → after.pendingCacheRemovals.Nodup

namespace Asks

variable {answers : Answers} {first second third : ResumeMarks}

theorem refl (answers : Answers) (marks : ResumeMarks) : Asks answers marks marks where
  kept := rfl
  saves_subset := List.Subset.refl _
  unloads_subset := List.Subset.refl _
  removals_subset := List.Subset.refl _
  saves := fun _ member absent => absurd member absent
  unloads := fun _ member absent => absurd member absent
  removals := fun _ member absent => absurd member absent
  saves_nodup := id
  removals_nodup := id

theorem ofEq (same : second = first) : Asks answers first second := same ▸ refl answers first

theorem cast (same : second = first) (asks : Asks answers second third) : Asks answers first third :=
  same ▸ asks

theorem trans (left : Asks answers first second) (right : Asks answers second third) :
    Asks answers first third := by
  have removed : second.explicitlyRemoved = first.explicitlyRemoved := by rw [left.kept]
  have handles : second.handles = first.handles := by rw [left.kept]
  have pending : second.pendingRemovals = first.pendingRemovals := by rw [left.kept]
  constructor
  · rw [right.kept, left.kept]
  · exact List.Subset.trans left.saves_subset right.saves_subset
  · exact List.Subset.trans left.unloads_subset right.unloads_subset
  · exact List.Subset.trans left.removals_subset right.removals_subset
  · intro context member absent
    by_cases early : context ∈ second.pendingResumeSaves
    · exact left.saves context early absent
    · exact removed ▸ right.saves context member early
  · intro id member absent
    by_cases early : id ∈ second.pendingCacheUnloads
    · obtain ⟨uncached, staying, rest⟩ := left.unloads id early absent
      exact ⟨uncached, fun late => (right.removals id late staying).1 early, rest⟩
    · obtain ⟨uncached, staying, rest⟩ := right.unloads id member early
      exact ⟨fun cached => uncached (left.removals_subset cached), staying, pending ▸ handles ▸ rest⟩
  · intro id member absent
    by_cases early : id ∈ second.pendingCacheRemovals
    · exact left.removals id early absent
    · obtain ⟨unchosen, unremoved, handle, found, valid, unsaved⟩ := right.removals id member early
      exact ⟨fun chosen => unchosen (left.unloads_subset chosen), pending ▸ unremoved, handle,
        handles ▸ found, valid, fun context seen saved => unsaved context seen (left.saves_subset saved)⟩
  · exact fun nodup => right.saves_nodup (left.saves_nodup nodup)
  · exact fun nodup => right.removals_nodup (left.removals_nodup nodup)

theorem foldl {α : Type} {step : BackendState → α → BackendState}
    (one : ∀ (backend : BackendState) item, Asks answers backend.marks (step backend item).marks)
    (items : List α) (backend : BackendState) :
    Asks answers backend.marks (items.foldl step backend).marks := by
  induction items generalizing backend with
  | nil => exact refl answers _
  | cons item rest ih => exact (one backend item).trans (ih (step backend item))

end Asks

namespace BackendState

variable {backend next : BackendState} {answers : Answers}

theorem call_marks {handle : Nat} {call : HandleCall} (sent : backend.call answers handle call = .ok next) :
    next.marks = backend.marks := by
  rw [call_eq_ok sent]
  rfl

@[simp]
theorem emit_marks (backend : BackendState) (event : BackendEvent) :
    (backend.emit event).marks = backend.marks := rfl

@[simp]
theorem queue_marks (backend : BackendState) (event : BackendEvent) :
    (backend.queue event).marks = backend.marks := rfl

@[simp]
theorem work_marks (backend : BackendState) (action : Action) :
    (backend.work action).marks = backend.marks := rfl

@[simp]
theorem dropPrepare_marks (backend : BackendState) (id : String) :
    (backend.dropPrepare id).marks = backend.marks := rfl

@[simp]
theorem dropPending_marks (backend : BackendState) (context : Option Nat) :
    (backend.dropPending context).marks = backend.marks := rfl

@[simp]
theorem markWarm_marks (backend : BackendState) (now : Nat) (id : String) :
    (backend.markWarm now id).marks = backend.marks := by
  unfold markWarm
  split <;> rfl

@[simp]
theorem retire_marks (backend : BackendState) (id : String) : (backend.retire id).marks = backend.marks := by
  unfold retire
  split <;> rfl

@[simp]
theorem reportDiskCacheError_marks (backend : BackendState) (message : String) :
    (backend.reportDiskCacheError message).marks = backend.marks := by
  unfold reportDiskCacheError
  split <;> rfl

theorem requestResumeSave_cases (backend : BackendState) (answers : Answers) (handle : Nat) :
    (backend.requestResumeSave answers handle).marks = backend.marks ∨
      ∃ context, answers.userdata handle = some context ∧
        backend.marks.explicitlyRemoved context = false ∧ context ∉ backend.pendingResumeSaves ∧
        (backend.requestResumeSave answers handle).marks = { backend.marks with
          pendingResumeSaves := backend.pendingResumeSaves.insert context } := by
  unfold requestResumeSave
  split
  · exact Or.inl rfl
  · cases seen : answers.userdata handle with
    | none => exact Or.inl rfl
    | some context =>
        simp only
        split
        · exact Or.inl rfl
        · rename_i idle
          simp only [Bool.or_eq_true, decide_eq_true_eq, not_or, Bool.not_eq_true] at idle
          split
          · exact Or.inl rfl
          · rename_i sent accepted
            rw [call_eq_self rfl accepted]
            exact Or.inr ⟨context, rfl, idle.1, idle.2, rfl⟩

theorem requestResumeSave_asks (backend : BackendState) (answers : Answers) (handle : Nat) :
    Asks answers backend.marks (backend.requestResumeSave answers handle).marks := by
  rcases requestResumeSave_cases backend answers handle with same | ⟨context, seen, kept, idle, same⟩
  · exact .ofEq same
  · rw [same]
    constructor
    · rfl
    · exact fun other member => List.mem_insert_of_mem member
    · exact List.Subset.refl _
    · exact List.Subset.refl _
    · intro other member absent
      obtain rfl := (List.mem_insert_iff.mp member).resolve_right absent
      exact ⟨kept, handle, seen⟩
    · exact fun _ member absent => absurd member absent
    · exact fun _ member absent => absurd member absent
    · exact fun nodup => nodup.insert
    · exact id

/-- A torrent that was chosen is taken out, or is not chosen any more. -/
theorem beginCacheUnload_cases (backend : BackendState) (answers : Answers) (id : String) (handle : Nat) :
    (id ∉ backend.pendingCacheUnloads ∧
      (backend.beginCacheUnload answers id handle).marks = backend.marks) ∨
    (id ∈ backend.pendingCacheUnloads ∧ ∃ removals,
      (backend.beginCacheUnload answers id handle).marks = { backend.marks with
        pendingCacheUnloads := backend.pendingCacheUnloads.filter fun other => other ≠ id
        pendingCacheRemovals := removals } ∧
      (removals = backend.pendingCacheRemovals ∨
        removals = (backend.pendingCacheRemovals.filter fun other => other ≠ id) ∨
        (answers.lt.isValid handle = true ∧ removals = backend.pendingCacheRemovals.insert id))) := by
  unfold beginCacheUnload
  split
  · exact Or.inl ⟨‹_›, rfl⟩
  · rename_i chosen
    refine Or.inr ⟨not_not.mp chosen, ?_⟩
    simp only
    split
    · exact ⟨_, rfl, Or.inl rfl⟩
    · rename_i valid
      split
      · rw [reportDiskCacheError_marks]
        exact ⟨_, rfl, Or.inr (Or.inl rfl)⟩
      · exact ⟨_, rfl, Or.inr (Or.inr ⟨by simpa using valid, rfl⟩)⟩

theorem requestCacheUnload_asks (answers : Answers) (includeWarm : Bool) (backend : BackendState)
    (id : String) : Asks answers backend.marks (requestCacheUnload answers includeWarm backend id).marks := by
  unfold requestCacheUnload
  split
  · exact .refl answers _
  · rename_i idle
    simp only [not_or] at idle
    obtain ⟨_, unremoved, unchosen, uncached, _⟩ := idle
    have free : backend.pendingRemovals.lookup id = none := by simpa using unremoved
    cases found : backend.validHandle answers id with
    | none => exact .refl answers _
    | some handle =>
        obtain ⟨known, valid⟩ := validHandle_eq_some found
        simp only
        generalize noting : { backend with
          pendingCacheUnloads := backend.pendingCacheUnloads.insert id } = noted
        have chosen : noted.marks = { backend.marks with
            pendingCacheUnloads := backend.pendingCacheUnloads.insert id } := by
          rw [← noting]
          rfl
        have asked := requestResumeSave_asks noted answers handle
        obtain ⟨saves, saved⟩ : ∃ saves, (noted.requestResumeSave answers handle).marks =
            { backend.marks with
              pendingCacheUnloads := backend.pendingCacheUnloads.insert id
              pendingResumeSaves := saves } := by
          rcases requestResumeSave_cases noted answers handle with same | ⟨_, _, _, _, same⟩ <;>
            exact ⟨_, by rw [same, chosen]⟩
        generalize noted.requestResumeSave answers handle = saving at asked saved ⊢
        rw [chosen, saved] at asked
        split
        · rw [saved]
          constructor
          · rfl
          · exact asked.saves_subset
          · exact fun other member => List.mem_insert_of_mem member
          · exact List.Subset.refl _
          · exact asked.saves
          · intro other member absent
            obtain rfl := (List.mem_insert_iff.mp member).resolve_right absent
            exact ⟨uncached, uncached, free, handle, known, valid⟩
          · exact fun _ member absent => absurd member absent
          · exact asked.saves_nodup
          · exact fun nodup => nodup
        · rename_i unsaved
          have savedLists : saving.pendingResumeSaves = saves ∧
              saving.pendingCacheUnloads = backend.pendingCacheUnloads.insert id ∧
              saving.pendingCacheRemovals = backend.pendingCacheRemovals :=
            ⟨congrArg ResumeMarks.pendingResumeSaves saved,
              congrArg ResumeMarks.pendingCacheUnloads saved,
              congrArg ResumeMarks.pendingCacheRemovals saved⟩
          have member_unloads : ∀ other, other ∈ (backend.pendingCacheUnloads.insert id).filter
              (fun other => other ≠ id) ↔ other ∈ backend.pendingCacheUnloads := by
            intro other
            simp only [List.mem_filter, List.mem_insert_iff, decide_eq_true_eq]
            constructor
            · rintro ⟨same | member, different⟩
              · exact absurd same different
              · exact member
            · exact fun member => ⟨Or.inr member, fun same => unchosen (same ▸ member)⟩
          rcases beginCacheUnload_cases saving answers id handle with ⟨absent, _⟩ | ⟨_, removals, same, cases⟩
          · rw [savedLists.2.1] at absent
            exact absurd List.mem_insert_self absent
          · rw [savedLists.2.1] at same
            rw [savedLists.2.2] at cases
            have taken : ∀ other, other ∈ removals → other ∉ backend.pendingCacheRemovals →
                other = id ∧ answers.lt.isValid handle = true := by
              intro other member absent
              rcases cases with rfl | rfl | ⟨valid, rfl⟩
              · exact absurd member absent
              · exact absurd (List.mem_filter.mp member).1 absent
              · exact ⟨(List.mem_insert_iff.mp member).resolve_right absent, valid⟩
            rw [same, saved]
            constructor
            · rfl
            · exact asked.saves_subset
            · exact fun other member => (member_unloads other).mpr member
            · intro other member
              rcases cases with rfl | rfl | ⟨_, rfl⟩
              · exact member
              · exact List.mem_filter.mpr ⟨member, decide_eq_true fun same => uncached (same ▸ member)⟩
              · exact List.mem_insert_of_mem member
            · exact asked.saves
            · exact fun other member absent => absurd ((member_unloads other).mp member) absent
            · intro other member absent
              obtain ⟨rfl, _⟩ := taken other member absent
              refine ⟨unchosen, free, handle, known, valid, fun context seen waiting => unsaved ?_⟩
              rw [seen, savedLists.1]
              simpa using asked.saves_subset waiting
            · exact asked.saves_nodup
            · intro nodup
              rcases cases with rfl | rfl | ⟨_, rfl⟩
              · exact nodup
              · exact nodup.filter _
              · exact nodup.insert

theorem requestCacheUnloads_asks (backend : BackendState) (answers : Answers) (includeWarm : Bool) :
    Asks answers backend.marks (backend.requestCacheUnloads answers includeWarm).marks :=
  .foldl (requestCacheUnload_asks answers includeWarm) _ backend

theorem enforceDiskCache_asks (backend : BackendState) (answers : Answers) :
    Asks answers backend.marks (backend.enforceDiskCache answers).marks := by
  unfold enforceDiskCache
  split
  · exact .ofEq (reportDiskCacheError_marks backend _)
  · simp only
    split
    · exact requestCacheUnloads_asks { backend with lastDiskCacheError := "" } answers false
    · exact .ofEq rfl

theorem saveEach_asks (answers : Answers) (entries : List (Sigma fun _ : String => Nat))
    (backend : BackendState) : Asks answers backend.marks
      (entries.foldl (fun current entry => current.requestResumeSave answers entry.2) backend).marks :=
  .foldl (fun current entry => requestResumeSave_asks current answers entry.2) entries backend

theorem runPeriodicCheckpoints_asks (backend : BackendState) (answers : Answers) :
    Asks answers backend.marks (backend.runPeriodicCheckpoints answers).marks := by
  have timed : ∀ (current : BackendState) (now : Nat),
      ({ current with lastSessionCheckpoint := now } : BackendState).marks = current.marks := fun _ _ => rfl
  unfold runPeriodicCheckpoints
  extract_lets unremoved saving saved stored
  have asked : Asks answers backend.marks saved.marks := by
    unfold saved
    split
    · exact .refl answers _
    · exact (saveEach_asks answers _ backend).trans (.ofEq rfl)
  split
  · exact asked
  · refine asked.trans (.ofEq ?_)
    rw [timed]
    unfold stored
    split <;> rfl

theorem quiesceOne_asks (backend : BackendState) (answers : Answers) (id : String) (since : Nat) :
    Asks answers backend.marks (backend.quiesceOne answers id since).1.marks := by
  unfold quiesceOne
  split
  · exact .refl answers _
  · split
    · exact .refl answers _
    · rename_i handle _
      have asked := requestResumeSave_asks backend answers handle
      split
      · exact asked
      · rename_i paused stopped
        split
        · exact asked.trans (.ofEq (call_marks stopped))
        · rename_i uploading sent
          exact asked.trans (.ofEq ((call_marks sent).trans (call_marks stopped)))

theorem quiesceAll_asks (answers : Answers) (entries : List (Sigma fun _ : String => Nat))
    (backend : BackendState) : Asks answers backend.marks (quiesceAll answers entries backend).1.marks := by
  induction entries generalizing backend with
  | nil => exact .refl answers _
  | cons entry rest ih =>
      have one := quiesceOne_asks backend answers entry.1 entry.2
      rw [quiesceAll]
      split
      · rename_i result
        rw [result] at one
        exact one
      · rename_i result
        rw [result] at one
        exact one.trans (ih _)

theorem runWarmQuiescence_asks (backend : BackendState) (answers : Answers) :
    Asks answers backend.marks (backend.runWarmQuiescence answers).1.marks := by
  unfold runWarmQuiescence
  split
  · exact .refl answers _
  · refine .cast ?_ (quiesceAll_asks answers _ _)
    rfl

theorem emitAll_marks {α : Type} (event : α → BackendEvent) (items : List α) (backend : BackendState) :
    (items.foldl (fun current item => current.emit (event item)) backend).marks = backend.marks := by
  induction items generalizing backend with
  | nil => rfl
  | cons item rest ih => exact ih _

theorem processDiskReclaims_asks (backend : BackendState) (answers : Answers) :
    Asks answers backend.marks (backend.processDiskReclaims answers).marks := by
  have unloading := requestCacheUnloads_asks backend answers true
  unfold processDiskReclaims
  split
  · exact .refl answers _
  · simp only
    split
    · exact unloading
    · exact unloading.trans (.ofEq (emitAll_marks _ _ _))

theorem measureDiskCache_marks (backend : BackendState) (answers : Answers) :
    (backend.measureDiskCache answers).marks = backend.marks := by
  unfold measureDiskCache
  split
  · rfl
  · simp only
    split
    · rfl
    · exact reportDiskCacheError_marks _ _

theorem runDiskCacheEnforcement_asks (backend : BackendState) (answers : Answers) :
    Asks answers backend.marks (backend.runDiskCacheEnforcement answers).marks := by
  unfold runDiskCacheEnforcement
  split
  · exact .refl answers _
  · split
    · exact .ofEq (measureDiskCache_marks _ answers)
    · refine .cast ?_ (enforceDiskCache_asks _ answers)
      rfl

theorem announceEach_marks (answers : Answers) (call : HandleCall)
    (entries : List (Sigma fun _ : String => Nat)) (backend : BackendState) :
    (announceEach answers call entries backend).1.marks = backend.marks := by
  induction entries generalizing backend with
  | nil => rfl
  | cons entry rest ih =>
      rw [announceEach]
      split
      · exact ih backend
      · split
        · rfl
        · rename_i sent
          exact (ih _).trans (call_marks sent)

theorem requestTelemetryUpdate_marks (backend : BackendState) (answers : Answers) :
    (backend.requestTelemetryUpdate answers).1.marks = backend.marks := by
  have posted := announceEach_marks answers .postPeerInfo backend.handles.entries backend
  unfold requestTelemetryUpdate
  split
  · rfl
  · split
    · rename_i result
      rw [result] at posted
      exact posted
    · rename_i result
      rw [result] at posted
      exact posted

theorem runPeriodicSteps_asks (backend : BackendState) (answers : Answers) :
    Asks answers backend.marks (backend.runPeriodicSteps answers).1.marks := by
  have saved := runPeriodicCheckpoints_asks backend answers
  have quieted := runWarmQuiescence_asks (backend.runPeriodicCheckpoints answers) answers
  unfold runPeriodicSteps
  split
  · rename_i result
    rw [result] at quieted
    exact saved.trans quieted
  · rename_i quiet result
    rw [result] at quieted
    refine ((saved.trans quieted).trans (processDiskReclaims_asks quiet answers)).trans
      ((runDiskCacheEnforcement_asks _ answers).trans (.ofEq ?_))
    exact requestTelemetryUpdate_marks _ answers

end BackendState

end NuvioEngine.Backend
