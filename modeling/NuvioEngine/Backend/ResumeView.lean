import NuvioEngine.Backend.ResumeEffects
import NuvioEngine.Backend.ResumeSound
import NuvioEngine.Lib.Members

/-!
The session as the resume protocol sees it. What a step of the backend asks for is a list of steps of
the protocol: torrents are taken out, then chosen, then saved.
-/

namespace NuvioEngine.Backend

open NuvioEngine.Bridge NuvioEngine.Stream NuvioEngine.Cache BridgeState Members

namespace Protocol

variable {τ ν : Type*} [DecidableEq τ] [DecidableEq ν] (name : τ → ν)

theorem steps_expire (torrents : List τ) (state : Protocol τ ν)
    (out : ∀ torrent ∈ torrents, torrent ∈ state.made ∧ torrent ∉ state.live) :
    Steps name state { state with expired := {torrent | torrent ∈ torrents} ∪ state.expired } := by
  induction torrents generalizing state with
  | nil =>
      rw [nil_union]
  | cons torrent rest ih =>
      have ⟨made, gone⟩ := out torrent (List.mem_cons_self ..)
      have later := ih { state with expired := insert torrent state.expired }
        fun other member => out other (List.mem_cons_of_mem _ member)
      rw [cons_union]
      exact .head (.expire state torrent made gone) later

theorem steps_save (torrents : List τ) (state : Protocol τ ν) (once : torrents.Nodup)
    (ready : ∀ torrent ∈ torrents, torrent ∈ state.made ∧ torrent ∉ state.explicitlyRemoved ∧
      torrent ∉ state.pendingResumeSaves) :
    Steps name state { state with
      pendingResumeSaves := {torrent | torrent ∈ torrents} ∪ state.pendingResumeSaves
      commands := state.commands ++ torrents.map Command.save } := by
  induction torrents generalizing state with
  | nil =>
      rw [nil_union, List.map_nil, List.append_nil]
  | cons torrent rest ih =>
      have ⟨made, kept, idle⟩ := ready torrent (List.mem_cons_self ..)
      have ⟨absent, others⟩ := List.nodup_cons.mp once
      have later := ih { state with
          pendingResumeSaves := insert torrent state.pendingResumeSaves
          commands := state.commands ++ [.save torrent] } others <| by
        intro other member
        have ⟨made, kept, idle⟩ := ready other (List.mem_cons_of_mem _ member)
        refine ⟨made, kept, ?_⟩
        rintro (rfl | saved)
        · exact absent member
        · exact idle saved
      rw [cons_union, List.map_cons, List.append_cons]
      exact .head (.save state torrent made kept idle) later

theorem steps_choose (names : List ν) (state : Protocol τ ν)
    (idle : ∀ wanted ∈ names, wanted ∉ state.pendingCacheRemovals ∧ wanted ∉ state.pendingRemovals ∧
      ∃ torrent, name torrent = wanted ∧ state.handles wanted = some torrent ∧ torrent ∉ state.expired) :
    Steps name state { state with
      pendingCacheUnloads := {wanted | wanted ∈ names} ∪ state.pendingCacheUnloads } := by
  induction names generalizing state with
  | nil =>
      rw [nil_union]
  | cons wanted rest ih =>
      obtain ⟨uncached, unremoved, torrent, rfl, known, valid⟩ := idle _ (List.mem_cons_self ..)
      have later := ih { state with
          pendingCacheUnloads := insert (name torrent) state.pendingCacheUnloads }
        fun other member => idle other (List.mem_cons_of_mem _ member)
      rw [cons_union]
      exact .head (.choose state torrent known valid uncached unremoved) later

theorem step_unload {state : Protocol τ ν} {torrent : τ} (made : torrent ∈ state.made)
    (known : state.handles (name torrent) = some torrent) (valid : torrent ∉ state.expired)
    (unchosen : name torrent ∉ state.pendingCacheUnloads)
    (uncached : name torrent ∉ state.pendingCacheRemovals)
    (unremoved : name torrent ∉ state.pendingRemovals)
    (saved : torrent ∈ state.live → torrent ∉ state.pendingResumeSaves) :
    Steps name state { state with
      pendingCacheRemovals := insert (name torrent) state.pendingCacheRemovals
      commands := state.commands ++ [.remove torrent] } := by
  have chosen : Step name _ _ := .choose state torrent known valid uncached unremoved
  have taken : Step name _ _ := .unload { state with
    pendingCacheUnloads := insert (name torrent) state.pendingCacheUnloads } torrent made
      (Set.mem_insert _ _) saved
  have back : insert (name torrent) state.pendingCacheUnloads \ {name torrent} =
      state.pendingCacheUnloads := Set.insert_sdiff_self_of_notMem unchosen
  simp only [back] at taken
  exact .tail (.single chosen) taken

theorem steps_unload (names : List ν) (taken : ν → Option τ) (state : Protocol τ ν) (once : names.Nodup)
    (idle : ∀ wanted ∈ names, wanted ∉ state.pendingCacheUnloads ∧ wanted ∉ state.pendingCacheRemovals ∧
      wanted ∉ state.pendingRemovals ∧ ∃ torrent, taken wanted = some torrent ∧ name torrent = wanted ∧
        torrent ∈ state.made ∧ state.handles wanted = some torrent ∧ torrent ∉ state.expired ∧
        (torrent ∈ state.live → torrent ∉ state.pendingResumeSaves)) :
    Steps name state { state with
      pendingCacheRemovals := {wanted | wanted ∈ names} ∪ state.pendingCacheRemovals
      commands := state.commands ++ names.filterMap fun wanted => (taken wanted).map Command.remove } := by
  induction names generalizing state with
  | nil =>
      rw [nil_union, List.filterMap_nil, List.append_nil]
  | cons wanted rest ih =>
      obtain ⟨unchosen, uncached, unremoved, torrent, found, rfl, made, known, valid, saved⟩ :=
        idle _ (List.mem_cons_self ..)
      have ⟨absent, others⟩ := List.nodup_cons.mp once
      have later := ih { state with
          pendingCacheRemovals := insert (name torrent) state.pendingCacheRemovals
          commands := state.commands ++ [.remove torrent] } others <| by
        intro other member
        have ⟨unchosen, uncached, rest⟩ := idle other (List.mem_cons_of_mem _ member)
        refine ⟨unchosen, ?_, rest⟩
        rintro (rfl | cached)
        · exact absent member
        · exact uncached cached
      simp only [List.filterMap_cons, found, Option.map_some]
      rw [cons_union, List.append_cons]
      exact (step_unload name made known valid unchosen uncached unremoved saved).trans later

end Protocol

def Posted.notice : Posted → Notice Nat
  | .added _ handle => .added handle
  | .refused .. => .refused
  | .removed handle => .removed handle

namespace Session

def viewAt (session : Session) (marks : ResumeMarks) : Protocol Nat String where
  commands := session.commands
  notices := session.posted.map Posted.notice
  live := {handle | handle ∈ session.live}
  made := {handle | handle ∈ session.made}
  expired := {handle | handle ∈ session.gone}
  saving := session.saving
  requested := {context | context < marks.nextContext}
  -- the handles of expired torrents collect under the empty id
  handles := fun id => if id = "" then none else marks.handles.lookup id
  explicitlyRemoved := {context | marks.explicitlyRemoved context = true}
  pendingResumeSaves := {context | context ∈ marks.pendingResumeSaves}
  pendingCacheUnloads := {id | id ∈ marks.pendingCacheUnloads}
  pendingCacheRemovals := {id | id ∈ marks.pendingCacheRemovals}
  pendingRemovals := {id | (marks.pendingRemovals.lookup id).isSome}
  unwanted := {id | id ∈ session.unwanted}

def view (session : Session) : Protocol Nat String := session.viewAt session.backend.marks

/-- What the answers of a step say about the torrents that were made. -/
structure Grounded (session : Session) (answers : Answers) : Prop where
  valid : ∀ handle, answers.lt.isValid handle = true → handle ∉ session.gone
  seen : ∀ handle context, answers.userdata handle = some context → context = handle ∧ context ∈ session.made
  live : ∀ handle ∈ session.live, answers.userdata handle = some handle

variable (torrentOf : Nat → String) {session : Session} {answers : Answers}

theorem steps_of_asks {before : ResumeMarks} {left after : BackendState}
    (asks : Asks answers before after.marks) (grounded : session.Grounded answers)
    (removals : left.pendingCacheRemovals = before.pendingCacheRemovals)
    (saves : left.pendingResumeSaves = before.pendingResumeSaves)
    (removalsOnce : before.pendingCacheRemovals.Nodup) (savesOnce : before.pendingResumeSaves.Nodup)
    (known : ∀ id handle, before.handles.lookup id = some handle → answers.lt.isValid handle = true →
      id ≠ "" ∧ torrentOf handle = id ∧ handle ∈ session.made) :
    Protocol.Steps torrentOf (session.viewAt before)
      ({ session with
        commands := session.commands ++ BackendState.calls left after after.handles.lookup }.viewAt
          after.marks) := by
  have handles : after.handles = before.handles := congrArg ResumeMarks.handles asks.kept
  have taking := Protocol.steps_unload torrentOf
    (after.pendingCacheRemovals.filter fun id => id ∉ before.pendingCacheRemovals)
    after.handles.lookup (session.viewAt before) ((asks.removals_nodup removalsOnce).filter _) <| by
    intro id fresh
    obtain ⟨member, absent⟩ : id ∈ after.pendingCacheRemovals ∧ id ∉ before.pendingCacheRemovals := by
      simpa using fresh
    obtain ⟨unchosen, unremoved, handle, found, valid, unsaved⟩ := asks.removals id member absent
    obtain ⟨named, same, made⟩ := known id handle found valid
    refine ⟨unchosen, absent, ?_, handle, ?_, same, made, ?_, grounded.valid handle valid,
      fun live => unsaved handle (grounded.live handle live)⟩
    · simpa [viewAt] using unremoved
    · rw [handles]
      exact found
    · simpa [viewAt, named] using found
  have choosing := Protocol.steps_choose torrentOf
    (after.pendingCacheUnloads.filter fun id => id ∉ before.pendingCacheUnloads)
    { session.viewAt before with
      pendingCacheRemovals := {id | id ∈ after.pendingCacheRemovals}
      commands := session.commands ++
        (after.pendingCacheRemovals.filter fun id => id ∉ before.pendingCacheRemovals).filterMap fun id =>
          (after.handles.lookup id).map Command.remove } <| by
    intro id fresh
    obtain ⟨member, absent⟩ : id ∈ after.pendingCacheUnloads ∧ id ∉ before.pendingCacheUnloads := by
      simpa using fresh
    obtain ⟨_, uncached, unremoved, handle, found, valid⟩ := asks.unloads id member absent
    obtain ⟨named, same, _⟩ := known id handle found valid
    refine ⟨uncached, ?_, handle, same, ?_, grounded.valid handle valid⟩
    · simpa [viewAt] using unremoved
    · simpa [viewAt, named] using found
  have saving := Protocol.steps_save torrentOf
    (after.pendingResumeSaves.filter fun context => context ∉ before.pendingResumeSaves)
    { session.viewAt before with
      pendingCacheRemovals := {id | id ∈ after.pendingCacheRemovals}
      pendingCacheUnloads := {id | id ∈ after.pendingCacheUnloads}
      commands := session.commands ++
        (after.pendingCacheRemovals.filter fun id => id ∉ before.pendingCacheRemovals).filterMap fun id =>
          (after.handles.lookup id).map Command.remove } ((asks.saves_nodup savesOnce).filter _) <| by
    intro context fresh
    obtain ⟨member, absent⟩ : context ∈ after.pendingResumeSaves ∧
        context ∉ before.pendingResumeSaves := by simpa using fresh
    obtain ⟨kept, handle, seen⟩ := asks.saves context member absent
    refine ⟨(grounded.seen handle context seen).2, ?_, absent⟩
    simpa [viewAt] using kept
  have removed : {id | id ∈ after.pendingCacheRemovals.filter fun id => id ∉ before.pendingCacheRemovals} ∪
      (session.viewAt before).pendingCacheRemovals = {id | id ∈ after.pendingCacheRemovals} :=
    filter_union asks.removals_subset
  have chosen : {id | id ∈ after.pendingCacheUnloads.filter fun id => id ∉ before.pendingCacheUnloads} ∪
      (session.viewAt before).pendingCacheUnloads = {id | id ∈ after.pendingCacheUnloads} :=
    filter_union asks.unloads_subset
  have saved : {context | context ∈ after.pendingResumeSaves.filter fun context =>
        context ∉ before.pendingResumeSaves} ∪ (session.viewAt before).pendingResumeSaves =
      {context | context ∈ after.pendingResumeSaves} := filter_union asks.saves_subset
  simp only [removed] at taking
  simp only [chosen] at choosing
  simp only [saved] at saving
  have whole := (taking.trans choosing).trans saving
  have target : ({ session with
      commands := session.commands ++ BackendState.calls left after after.handles.lookup }.viewAt
        after.marks) = { session.viewAt before with
      pendingCacheRemovals := {id | id ∈ after.pendingCacheRemovals}
      pendingCacheUnloads := {id | id ∈ after.pendingCacheUnloads}
      pendingResumeSaves := {context | context ∈ after.pendingResumeSaves}
      commands := session.commands ++ BackendState.calls left after after.handles.lookup } := by
    rw [asks.kept]
    rfl
  rw [target, BackendState.calls, removals, saves, ← List.append_assoc]
  exact whole

end Session

end NuvioEngine.Backend
