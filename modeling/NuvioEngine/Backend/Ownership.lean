import NuvioEngine.Backend.Custody
import NuvioEngine.Backend.Requests
import NuvioEngine.Backend.ResumeFiles

/-!
libtorrent never gives back a context that the backend has freed. A context is freed when its request is
answered without a torrent being made for it; the context of a torrent that was made stays owned.
-/

namespace NuvioEngine.Backend

open NuvioEngine.Bridge NuvioEngine.Stream Queue

/-- The context whose request an alert answers. -/
def Posted.answered : Posted → Option Nat
  | .added context _ | .refused context _ => some context
  | .removed _ => none

/-- The context that an alert carries. -/
def Posted.context : Posted → Nat
  | .added context _ | .refused context _ => context
  | .removed handle => handle

def Command.adding : Command Nat → Option Nat
  | .add context => some context
  | .remove _ | .save _ => none

@[simp]
theorem answered_removed (handle : Nat) : (Posted.removed handle).answered = none := rfl

@[simp]
theorem adding_remove (handle : Nat) : (Command.remove handle).adding = none := rfl

@[simp]
theorem adding_save (handle : Nat) : (Command.save handle).adding = none := rfl

/-- What libtorrent answers during a step of the backend. -/
def SessionAction.answers : SessionAction → Option Answers
  | .run _ action => action.answers
  | .saveAll _ answers | .deliver _ answers | .saved _ answers _ | .saveFailed _ answers _ _ _
  | .saveRefused _ answers _ _ _ => some answers
  | .carryOut .. | .expire _ => none

def SessionAction.delivers : SessionAction → Bool
  | .deliver .. => true
  | .run .. | .saveAll .. | .saved .. | .saveFailed .. | .saveRefused .. | .carryOut .. | .expire _ => false

theorem Session.Possible.faithful {torrentOf : Nat → String} {session : Session} {action : SessionAction}
    (possible : session.Possible torrentOf action) {answers : Answers} (asked : action.answers = some answers) :
    ∃ expiring, session.Faithful torrentOf expiring answers := by
  cases action with
  | run expiring action => exact ⟨expiring, possible.2.2.1 answers asked⟩
  | saveAll expiring given =>
      obtain rfl := Option.some.inj asked
      exact ⟨expiring, possible.2⟩
  | deliver expiring given | saved expiring given | saveFailed expiring given | saveRefused expiring given =>
      obtain rfl := Option.some.inj asked
      exact ⟨expiring, possible.2.1⟩
  | carryOut refusal told => simp [SessionAction.answers] at asked
  | expire handle => simp [SessionAction.answers] at asked

namespace BackendState

variable (backend : BackendState)

theorem collected_custody (outcome : Outcome) :
    Custody outcome.1 (({ backend := backend } : Host).collect outcome).backend := by
  obtain ⟨last, thrown⟩ := outcome
  cases thrown <;> exact ⟨rfl, rfl, rfl, rfl, fun _ => rfl⟩

theorem after_custody {action : HostAction} (own : action.isOwn = true)
    (notAdd : ∀ answers requestId parsed, action ≠ .addTorrent answers requestId parsed) :
    Custody backend (backend.after action) := by
  cases action with
  | addTorrent answers requestId parsed => exact absurd rfl (notAdd answers requestId parsed)
  | prepareFile answers requestId id fileIndex file =>
      rw [after_prepareFile]
      exact .ofRecalls (prepareFile_recalls backend answers requestId id fileIndex file)
  | removeTorrent answers requestId id =>
      rw [after_removeTorrent]
      exact .ofRecalls (removeTorrent_recalls backend answers requestId id)
  | stopStream answers requestId streamId =>
      exact .ofRecalls (stopStream_recalls backend answers requestId streamId)
  | pollStreams answers polled => exact .ofRecalls (pollStreams_recalls backend answers polled)
  | takeQueued => exact ⟨rfl, rfl, rfl, rfl, fun _ => rfl⟩
  | alert answers received =>
      refine Custody.trans ?_ (collected_custody backend (backend.handleAlert answers received))
      cases received with
      | added | torrentRemoved | resumeSaved | resumeSaveFailed => simp [HostAction.isOwn] at own
      | metadataReceived handle => exact handleMetadata_custody backend answers handle
      | torrentError handle message => exact .ofIncidental (handleError_incidental backend answers handle message)
      | fileError handle message => exact .ofRecalls (handleFileError_recalls backend answers handle message)
      | filePriority handle error => exact .ofRecalls (handleFilePriority_recalls backend answers handle error)
      | torrentFinished handle => exact .ofIncidental (requestResumeSave_incidental backend answers handle)
      | readPiece | blockFinished | hashFailed => exact .ofRecalls (work_recalls backend _)
      | dhtBootstrap =>
          have ready : Incidental backend { backend with dhtReady := true } := .bookkeeping rfl
          exact .ofIncidental (ready.trans (announceEach_incidental answers (fun _ => rfl) _ _))
  | periodic answers =>
      exact (Custody.ofRecalls (runPeriodicSteps_recalls backend answers)).trans (collected_custody backend _)
  | reclaimDiskCache requestId targetBytes =>
      have same : backend.after (.reclaimDiskCache requestId targetBytes) =
          (backend.reclaimDiskCache requestId targetBytes).1 := Host.command_backend ..
      rw [same]
      exact .ofIncidental (reclaimDiskCache_incidental backend requestId targetBytes)
  | create | learnMetadata | lose => simp [HostAction.isOwn] at own
  | http action => exact .ofRecalls (work_recalls backend action)

/-- Handles change only when libtorrent tells that a torrent came or left. -/
theorem after_handles {action : HostAction} (own : action.isOwn = true) :
    (backend.after action).handles = backend.handles := by
  have other (notAdd : ∀ answers requestId parsed, action ≠ .addTorrent answers requestId parsed)
      (notPrepare : ∀ answers requestId id fileIndex file,
        action ≠ .prepareFile answers requestId id fileIndex file)
      (notRemove : ∀ answers requestId id, action ≠ .removeTorrent answers requestId id) :
      (backend.after action).handles = backend.handles := by
    rcases backend.after_asks own notAdd notPrepare notRemove with same | ⟨_, _, asks⟩
    · exact congrArg ResumeMarks.handles same
    · exact congrArg ResumeMarks.handles asks.kept
  cases action with
  | addTorrent answers requestId parsed =>
      rw [after_addTorrent]
      rcases backend.addTorrent_marks answers requestId parsed with same | ⟨_, same⟩ | ⟨_, _, _, _, same⟩
      · exact congrArg ResumeMarks.handles same
      · exact congrArg ResumeMarks.handles same
      · exact congrArg ResumeMarks.handles same
  | prepareFile answers requestId id fileIndex file =>
      rw [after_prepareFile]
      exact (prepareFile_recalls backend answers requestId id fileIndex file).handles
  | removeTorrent answers requestId id =>
      rw [after_removeTorrent]
      exact (removeTorrent_recalls backend answers requestId id).handles
  | stopStream | pollStreams | takeQueued | alert | periodic | reclaimDiskCache | create | learnMetadata
  | lose | http => exact other (by simp) (by simp) (by simp)

theorem readdress_custody (context : Option Nat) (requestId now : Nat) :
    Custody backend (backend.readdress context requestId now) := by
  cases context with
  | none => exact .refl backend
  | some shared =>
      unfold readdress
      apply setContext_custody
      exact fun _ => rfl

/-- A request to add a torrent opens at most one context, for the torrent it is about. -/
theorem addTorrent_custody (answers : Answers) (requestId : Nat) (parsed : Except Thrown TorrentSource) :
    Custody backend (backend.addTorrent answers requestId parsed).1 ∨
    ∃ loaded source, ∃ request : RequestContext, Custody backend loaded ∧ parsed = .ok source ∧
      request.torrentId = source.id ∧
      (backend.addTorrent answers requestId parsed).1 = loaded.openContext request := by
  unfold addTorrent
  split
  · exact .inl (.refl backend)
  · rename_i source
    have focuses := focusTorrent_recalls backend answers source.id
    split
    · exact .inl (.refl backend)
    · dsimp only
      split
      · rename_i handle _
        left
        rcases (backend.focusTorrent answers source.id).addExisting_cases answers requestId source.id handle with
          ⟨stopped, thrown, recalls, result⟩ | ⟨told, result, recalls, outcome, _⟩
        · rw [result]
          exact .ofRecalls (focuses.trans recalls)
        · rw [outcome]
          exact (Custody.ofRecalls (focuses.trans recalls)).trans
            (readdress_custody told (answers.userdata handle) requestId answers.lt.now)
      · obtain ⟨loaded, recalls, ⟨thrown, result⟩ | ⟨request, result, _, torrent, _⟩⟩ :=
          (backend.focusTorrent answers source.id).addNew_cases answers requestId source
        · left
          rw [result]
          exact .ofRecalls (focuses.trans recalls)
        · right
          exact ⟨loaded, source, request, .ofRecalls (focuses.trans recalls), rfl, torrent, by rw [result]⟩

end BackendState

namespace Session

variable (torrentOf : Nat → String)

/-- The contexts whose requests are not answered yet. -/
def unanswered (session : Session) : List Nat :=
  session.posted.filterMap Posted.answered ++ session.commands.filterMap Command.adding

structure Owned (session : Session) : Prop where
  once : session.backend.owners.Nodup
  bounded : ∀ context ∈ session.backend.owners, context < session.backend.nextContext
  unanswered_once : session.unanswered.Nodup
  unanswered_pending : ∀ context ∈ session.unanswered, context ∈ session.backend.pending
  unanswered_named : ∀ context ∈ session.unanswered,
    (session.backend.contexts context).torrentId = torrentOf context
  unanswered_made : ∀ context ∈ session.unanswered, context ∈ session.made →
    .added context context ∈ session.posted
  -- the torrent of a context is not known before its own alert, which comes before those of duplicates
  announced : ∀ context, .added context context ∈ session.posted →
    context ∈ session.live ∧ session.backend.handles.lookup (torrentOf context) ≠ some context
  announced_first : ∀ other context, other ≠ context →
    ¬ Ahead (.added other context) (.added context context) session.posted
  made_owned : ∀ context ∈ session.made, context ∈ session.backend.owners

variable {torrentOf} {session : Session} {answers : Answers} {expiring : List Nat}

theorem calls_adding (before after : BackendState) (taken : String → Option Nat) :
    (BackendState.calls before after taken).filterMap Command.adding = [] := by
  rw [List.filterMap_eq_nil_iff]
  intro command member
  rcases List.mem_append.mp member with removal | save
  · obtain ⟨id, _, removed⟩ := List.mem_filterMap.mp removal
    obtain ⟨handle, _, rfl⟩ := Option.map_eq_some_iff.mp removed
    rfl
  · obtain ⟨context, _, rfl⟩ := List.mem_map.mp save
    rfl

namespace Owned

/-- Steps in which no context changes hands and nothing is added. -/
theorem advance (owned : Owned torrentOf session) {after : BackendState}
    (custody : session.backend.Custody after) (handles : after.handles = session.backend.handles)
    {calls : List (Command Nat)} (none : calls.filterMap Command.adding = []) :
    Owned torrentOf (session.advance expiring after calls) := by
  have unanswered : (session.advance expiring after calls).unanswered = session.unanswered := by
    simp [Session.unanswered, Session.advance, none]
  constructor
  · exact custody.owners ▸ owned.once
  · intro context member
    exact custody.nextContext ▸ owned.bounded context (custody.owners ▸ member)
  · exact unanswered ▸ owned.unanswered_once
  · intro context member
    exact custody.pending ▸ owned.unanswered_pending context (unanswered ▸ member)
  · intro context member
    exact (custody.torrentId context).trans (owned.unanswered_named context (unanswered ▸ member))
  · exact fun context member => owned.unanswered_made context (unanswered ▸ member)
  · intro context member
    have announced := owned.announced context member
    exact ⟨announced.1, handles ▸ announced.2⟩
  · exact owned.announced_first
  · exact fun context made => custody.owners ▸ owned.made_owned context made

/-- A request to add a torrent goes to libtorrent with a new context. -/
theorem enroll (owned : Owned torrentOf session) {loaded : BackendState} (custody : session.backend.Custody loaded)
    (handles : loaded.handles = session.backend.handles) {request : RequestContext}
    (named : torrentOf session.backend.nextContext = request.torrentId) :
    Owned torrentOf (session.advance expiring (loaded.openContext request) [.add session.backend.nextContext]) := by
  have fresh : session.backend.nextContext ∉ session.backend.owners := fun member =>
    absurd (owned.bounded _ member) (Nat.lt_irrefl _)
  have next : loaded.nextContext = session.backend.nextContext := custody.nextContext
  have owners : (loaded.openContext request).owners.Perm (session.backend.nextContext :: session.backend.owners) := by
    rw [← custody.owners, BackendState.owners, BackendState.owners]
    simp only [BackendState.openContext, next, List.append_assoc, List.singleton_append]
    exact List.perm_middle
  have unanswered : (session.advance expiring (loaded.openContext request)
      [.add session.backend.nextContext]).unanswered = session.unanswered ++ [session.backend.nextContext] := by
    simp [Session.unanswered, Session.advance, Command.adding]
  have old : ∀ context ∈ session.unanswered, context ≠ session.backend.nextContext := by
    rintro context member rfl
    exact fresh (List.mem_append_left _ (owned.unanswered_pending _ member))
  have unmade : session.backend.nextContext ∉ session.made := fun made =>
    fresh (owned.made_owned _ made)
  constructor
  · exact owners.nodup_iff.mpr (List.nodup_cons.mpr ⟨fresh, owned.once⟩)
  · intro context member
    have bound : (loaded.openContext request).nextContext = session.backend.nextContext + 1 := by
      simp [BackendState.openContext, next]
    show context < (loaded.openContext request).nextContext
    rw [bound]
    rcases List.mem_cons.mp (owners.mem_iff.mp member) with rfl | before
    · exact Nat.lt_succ_self _
    · exact Nat.lt_succ_of_lt (owned.bounded context before)
  · rw [unanswered]
    refine List.Nodup.append owned.unanswered_once (List.nodup_singleton _) ?_
    intro context before last
    exact old context before (List.mem_singleton.mp last)
  · intro context member
    rw [unanswered] at member
    have pending : (loaded.openContext request).pending =
        session.backend.pending ++ [session.backend.nextContext] := by
      simp [BackendState.openContext, next, custody.pending]
    show context ∈ (loaded.openContext request).pending
    rw [pending]
    rcases List.mem_append.mp member with before | last
    · exact List.mem_append_left _ (owned.unanswered_pending context before)
    · exact List.mem_append_right _ last
  · intro context member
    rw [unanswered] at member
    show ((loaded.openContext request).contexts context).torrentId = torrentOf context
    rcases List.mem_append.mp member with before | last
    · have different : context ≠ loaded.nextContext := next ▸ old context before
      simp only [BackendState.openContext, Function.update_of_ne different]
      exact (custody.torrentId context).trans (owned.unanswered_named context before)
    · obtain rfl := List.mem_singleton.mp last
      simp [BackendState.openContext, next, named]
  · intro context member made
    rw [unanswered] at member
    rcases List.mem_append.mp member with before | last
    · exact owned.unanswered_made context before made
    · exact absurd (List.mem_singleton.mp last ▸ made) unmade
  · intro context member
    have announced := owned.announced context member
    exact ⟨announced.1, handles ▸ announced.2⟩
  · exact owned.announced_first
  · exact fun context made => owners.mem_iff.mpr (List.mem_cons_of_mem _ (owned.made_owned context made))

/-- The alert that answers a request is taken, and the backend handles it. -/
theorem answer (owned : Owned torrentOf session) {posted : Posted} {rest : List Posted} {context : Nat}
    (next : session.posted = posted :: rest) (answers : posted.answered = some context) {taken : Prop}
    {after : BackendState} (answered : BackendState.Answered taken context session.backend after)
    (took : posted = .added context context → context ∈ session.live → taken)
    (handles : after.handles = session.backend.handles ∨
      ∃ handle id, posted = .added context handle ∧ after.handles = session.backend.handles.insert id handle)
    {calls : List (Command Nat)} (none : calls.filterMap Command.adding = []) :
    Owned torrentOf (({ session with posted := rest } : Session).advance expiring after calls) := by
  have unanswered : session.unanswered = context ::
      (({ session with posted := rest } : Session).advance expiring after calls).unanswered := by
    simp [Session.unanswered, Session.advance, none, next, answers]
  have split := owned.unanswered_once
  rw [unanswered, List.nodup_cons] at split
  have pending : context ∈ session.backend.pending :=
    owned.unanswered_pending context (unanswered ▸ List.mem_cons_self)
  have others : ∀ other ∈ (({ session with posted := rest } : Session).advance expiring after calls).unanswered,
      other ∈ session.unanswered ∧ other ≠ context := by
    intro other member
    refine ⟨unanswered ▸ List.mem_cons_of_mem _ member, ?_⟩
    rintro rfl
    exact split.1 member
  have waits : ∀ other handle, .added other handle ∈ rest → other ≠ context := by
    rintro other answering member rfl
    exact split.1 (List.mem_append_left _ (List.mem_filterMap.mpr ⟨_, member, rfl⟩))
  have later : ∀ posted ∈ rest, posted ∈ session.posted := fun posted member =>
    next ▸ List.mem_cons_of_mem _ member
  constructor
  · by_cases here : taken
    · exact (answered.adopted here pending).nodup_iff.mpr owned.once
    · exact owned.once.sublist (answered.sublist here)
  · intro other member
    have before : other ∈ session.backend.owners := by
      by_cases here : taken
      · exact (answered.adopted here pending).mem_iff.mp member
      · exact (answered.sublist here).subset member
    exact answered.nextContext ▸ owned.bounded other before
  · exact split.2
  · intro other member
    obtain ⟨before, different⟩ := others other member
    exact answered.mem_pending (owned.unanswered_pending other before) different
  · intro other member
    obtain ⟨before, different⟩ := others other member
    exact (answered.torrentId other different).trans (owned.unanswered_named other before)
  · intro other member made
    obtain ⟨before, different⟩ := others other member
    have there := owned.unanswered_made other before made
    rw [next] at there
    rcases List.mem_cons.mp there with rfl | after
    · exact absurd (Option.some.inj answers) different
    · exact after
  · intro other member
    obtain ⟨there, unknown⟩ := owned.announced other (later _ member)
    refine ⟨there, ?_⟩
    show after.handles.lookup (torrentOf other) ≠ some other
    rcases handles with same | ⟨handle, id, rfl, inserted⟩
    · exact same ▸ unknown
    · rw [inserted, AList.lookup_insert_ite]
      split
      · rintro found
        obtain rfl : handle = other := Option.some.inj found
        refine owned.announced_first context handle (waits handle handle member).symm ?_
        rw [next]
        exact .inl ⟨rfl, member⟩
      · exact unknown
  · intro other answering different ahead
    refine owned.announced_first other answering different ?_
    rw [next]
    exact .inr ahead
  · intro other made
    refine answered.mem_owners pending (owned.made_owned other made) ?_
    rintro rfl
    -- the first alert about a torrent that was made finds the torrent in the session
    have there := owned.unanswered_made other (unanswered ▸ List.mem_cons_self) made
    have first : posted = .added other other := by
      rw [next] at there
      rcases List.mem_cons.mp there with first | after
      · exact first.symm
      · exact absurd rfl (waits other other after)
    exact took first (owned.announced other there).1

/-- An alert about a torrent that is gone is taken. -/
theorem release (owned : Owned torrentOf session) {handle : Nat} {rest : List Posted}
    (next : session.posted = .removed handle :: rest) {after : BackendState}
    (retires : session.backend.Retires after) {id : String}
    (handles : after.handles = session.backend.handles.erase id)
    {calls : List (Command Nat)} (none : calls.filterMap Command.adding = []) :
    Owned torrentOf (({ session with posted := rest } : Session).advance expiring after calls) := by
  have unanswered : (({ session with posted := rest } : Session).advance expiring after calls).unanswered =
      session.unanswered := by
    simp [Session.unanswered, Session.advance, none, next, List.filterMap_cons]
  have later : ∀ posted ∈ rest, posted ∈ session.posted := fun posted member =>
    next ▸ List.mem_cons_of_mem _ member
  constructor
  · exact retires.owners.nodup_iff.mpr owned.once
  · intro context member
    exact retires.nextContext ▸ owned.bounded context (retires.owners.mem_iff.mp member)
  · exact unanswered ▸ owned.unanswered_once
  · intro context member
    exact retires.pending ▸ owned.unanswered_pending context (unanswered ▸ member)
  · intro context member
    exact (retires.torrentId context).trans (owned.unanswered_named context (unanswered ▸ member))
  · intro context member made
    have there := owned.unanswered_made context (unanswered ▸ member) made
    rw [next] at there
    exact (List.mem_cons.mp there).resolve_left (by simp)
  · intro context member
    obtain ⟨there, unknown⟩ := owned.announced context (later _ member)
    refine ⟨there, ?_⟩
    show after.handles.lookup (torrentOf context) ≠ some context
    rw [handles, AList.lookup_erase_ite]
    split
    · simp
    · exact unknown
  · intro other context different ahead
    refine owned.announced_first other context different ?_
    rw [next]
    exact .inr ahead
  · exact fun context made => retires.owners.mem_iff.mpr (owned.made_owned context made)

theorem proceed (owned : Owned torrentOf session) {after : Session} (backend : after.backend = session.backend)
    (posted : after.posted = session.posted) (live : after.live = session.live)
    (made : after.made = session.made)
    (adding : after.commands.filterMap Command.adding = session.commands.filterMap Command.adding) :
    Owned torrentOf after := by
  have unanswered : after.unanswered = session.unanswered := by
    rw [Session.unanswered, posted, adding, Session.unanswered]
  constructor
  · exact backend ▸ owned.once
  · exact backend ▸ owned.bounded
  · exact unanswered ▸ owned.unanswered_once
  · exact unanswered ▸ backend ▸ owned.unanswered_pending
  · exact unanswered ▸ backend ▸ owned.unanswered_named
  · exact unanswered ▸ made ▸ posted ▸ owned.unanswered_made
  · exact backend ▸ posted ▸ live ▸ owned.announced
  · exact posted ▸ owned.announced_first
  · exact backend ▸ made ▸ owned.made_owned

/-- The session posts an alert at the end of the others. -/
theorem post (owned : Owned torrentOf session) {after : Session} {posted : Posted}
    (backend : after.backend = session.backend) (unanswered : after.unanswered.Perm session.unanswered)
    (queue : after.posted = session.posted ++ [posted])
    (live : ∀ context, .added context context ∈ session.posted → context ∈ after.live)
    (made : ∀ context ∈ after.made, context ∈ session.made ∨
      (context ∈ session.unanswered ∧ posted = .added context context))
    (announces : ∀ context, posted = .added context context → context ∈ after.live ∧
      session.backend.handles.lookup (torrentOf context) ≠ some context ∧
      ∀ other, .added other context ∉ session.posted) : Owned torrentOf after := by
  constructor
  · exact backend ▸ owned.once
  · exact backend ▸ owned.bounded
  · exact unanswered.nodup_iff.mpr owned.unanswered_once
  · intro context member
    exact backend ▸ owned.unanswered_pending context (unanswered.mem_iff.mp member)
  · intro context member
    exact backend ▸ owned.unanswered_named context (unanswered.mem_iff.mp member)
  · intro context member there
    rw [queue]
    rcases made context there with before | ⟨_, rfl⟩
    · exact List.mem_append_left _ (owned.unanswered_made context (unanswered.mem_iff.mp member) before)
    · exact List.mem_append_right _ List.mem_cons_self
  · intro context member
    rw [queue] at member
    rcases List.mem_append.mp member with before | last
    · exact ⟨live context before, backend ▸ (owned.announced context before).2⟩
    · obtain ⟨there, unknown, _⟩ := announces context (List.mem_singleton.mp last).symm
      exact ⟨there, backend ▸ unknown⟩
  · intro other context different ahead
    rw [queue] at ahead
    rcases ahead_concat.mp ahead with before | ⟨earlier, last⟩
    · exact owned.announced_first other context different before
    · exact (announces context last.symm).2.2 other earlier
  · intro context there
    rw [backend]
    rcases made context there with before | ⟨waiting, _⟩
    · exact owned.made_owned context before
    · exact List.mem_append_left _ (owned.unanswered_pending context waiting)

/-- The session's thread carries out a request to add a torrent. -/
theorem carryOutAdd (owned : Owned torrentOf session) (consistent : Consistent torrentOf session session.backend.marks)
    {context : Nat} {rest : List (Command Nat)} (next : session.commands = .add context :: rest)
    (refusal : Option String) (told : Bool) : Owned torrentOf (session.carryOut torrentOf refusal told) := by
  obtain ⟨requested, unmade⟩ := consistent.sound.add_fresh context (by simp [viewAt, next])
  have unmade : context ∉ session.made := unmade
  have waiting : session.commands.filterMap Command.adding = context :: rest.filterMap Command.adding := by
    simp [next, Command.adding]
  have member : context ∈ session.unanswered := List.mem_append_right _ (waiting ▸ List.mem_cons_self)
  -- the answer takes the place of the command
  have answers (posted : Posted) (answered : posted.answered = some context) :
      ((session.posted ++ [posted]).filterMap Posted.answered ++ rest.filterMap Command.adding).Perm
        session.unanswered := by
    have moved : (session.posted ++ [posted]).filterMap Posted.answered =
        session.posted.filterMap Posted.answered ++ [context] := by
      simp [answered]
    simp [Session.unanswered, moved, waiting]
  have untold (other : Nat) : .added other context ∉ session.posted := fun earlier =>
    unmade (consistent.sound.added_made context (List.mem_map.mpr ⟨_, earlier, rfl⟩))
  unfold Session.carryOut
  rw [next]
  cases refusal with
  | some message =>
      refine owned.post rfl (answers _ rfl) rfl (fun other there => (owned.announced other there).1)
        (fun _ made => .inl made) ?_
      simp
  | none =>
      dsimp only
      cases found : session.live.find? fun handle => torrentOf handle = torrentOf context with
      | some present =>
          have there : present ∈ session.made :=
            consistent.sound.live_made present (List.mem_of_find?_eq_some found)
          refine owned.post rfl (answers _ rfl) rfl (fun other there => (owned.announced other there).1)
            (fun _ made => .inl made) ?_
          rintro other same
          obtain ⟨rfl, rfl⟩ := Posted.added.inj same
          exact absurd there unmade
      | none =>
          refine owned.post rfl (answers _ rfl) rfl
            (fun other there => List.mem_cons_of_mem _ (owned.announced other there).1) ?_ ?_
          · intro other made
            rcases List.mem_cons.mp made with rfl | before
            · exact .inr ⟨member, rfl⟩
            · exact .inl before
          · intro other same
            obtain rfl : context = other := (Posted.added.inj same).1
            refine ⟨List.mem_cons_self, fun known => unmade ?_, untold⟩
            have named := consistent.named context requested
            exact (consistent.sound.handled (torrentOf context) context
              (by simpa [viewAt, named, BackendState.marks] using known)).1

theorem carryOut (owned : Owned torrentOf session) (consistent : Consistent torrentOf session session.backend.marks)
    (refusal : Option String) (told : Bool) : Owned torrentOf (session.carryOut torrentOf refusal told) := by
  cases next : session.commands with
  | nil =>
      unfold Session.carryOut
      rw [next]
      exact owned
  | cons command rest =>
      cases command with
      | add context => exact owned.carryOutAdd consistent next refusal told
      | remove handle =>
          have adding : session.commands.filterMap Command.adding = rest.filterMap Command.adding := by
            simp [next, List.filterMap_cons]
          have answers : ((session.posted ++ [Posted.removed handle]).filterMap Posted.answered ++
              rest.filterMap Command.adding).Perm session.unanswered := by
            simp [Session.unanswered, adding, List.filterMap_cons]
          unfold Session.carryOut
          rw [next]
          dsimp only
          split
          · rename_i there
            -- a torrent that is being removed is known, so its own alert was handled
            have known := consistent.sound.removing_known handle (by simp [viewAt, next]) there
            refine owned.post rfl answers rfl (fun other announced => ?_) (fun _ made => .inl made) (by simp)
            obtain ⟨live, unknown⟩ := owned.announced other announced
            refine List.mem_filter.mpr ⟨live, ?_⟩
            have different : other ≠ handle := by
              rintro rfl
              by_cases unnamed : torrentOf other = ""
              · simp [viewAt, unnamed] at known
              · exact unknown (by simpa [viewAt, unnamed, BackendState.marks] using known)
            simpa using different
          · split
            · exact owned.post rfl answers rfl (fun other there => (owned.announced other there).1)
                (fun _ made => .inl made) (by simp)
            · exact owned.proceed rfl rfl rfl rfl adding.symm
      | save handle =>
          have adding : session.commands.filterMap Command.adding = rest.filterMap Command.adding := by
            simp [next, List.filterMap_cons]
          unfold Session.carryOut
          rw [next]
          dsimp only
          split
          · exact owned.proceed rfl rfl rfl rfl adding.symm
          · exact owned.proceed rfl rfl rfl rfl adding.symm

theorem run (owned : Owned torrentOf session) {action : HostAction}
    (possible : session.Possible torrentOf (.run expiring action)) :
    Owned torrentOf (session.perform torrentOf (.run expiring action)) := by
  obtain ⟨_, own, _, _, about⟩ := possible
  have kept (after : Session) (intended : BackendState) (owned : Owned torrentOf after) :
      Owned torrentOf (after.intend intended action) := by
    unfold Session.intend
    split
    · split
      · exact { owned with }
      · exact owned
    · split
      · exact { owned with }
      · exact owned
    · exact owned
  refine kept _ _ ?_
  cases action with
  | addTorrent answers requestId parsed =>
      have handles := session.backend.after_handles own
      rw [BackendState.after_addTorrent] at handles ⊢
      rcases session.backend.addTorrent_custody answers requestId parsed with
        custody | ⟨loaded, source, request, custody, rfl, named, opened⟩
      · have asked : session.backend.asked (.addTorrent answers requestId parsed) = [] := by
          simp [BackendState.asked, custody.nextContext]
        rw [asked]
        exact owned.advance custody handles rfl
      · have next : (loaded.openContext request).nextContext = session.backend.nextContext + 1 :=
          congrArg (· + 1) custody.nextContext
        have asked : session.backend.asked (.addTorrent answers requestId (.ok source)) =
            [.add session.backend.nextContext] := by
          simp [BackendState.asked, opened, next]
        rw [opened] at handles
        rw [asked, opened]
        refine owned.enroll custody handles ?_
        rw [named]
        exact about answers requestId source rfl (by rw [opened, next]; exact Nat.lt_succ_self _)
  | removeTorrent answers requestId id =>
      refine owned.advance (session.backend.after_custody own (by simp)) (session.backend.after_handles own) ?_
      unfold BackendState.asked
      dsimp only
      split
      · cases session.backend.handles.lookup id <;> rfl
      · rfl
  | prepareFile | stopStream | pollStreams | takeQueued | alert | periodic | reclaimDiskCache | create
  | learnMetadata | lose | http => 
      exact owned.advance (session.backend.after_custody own (by simp)) (session.backend.after_handles own)
        (calls_adding _ _ _)

theorem deliver (owned : Owned torrentOf session) (consistent : Consistent torrentOf session session.backend.marks)
    (possible : session.Possible torrentOf (.deliver expiring answers)) :
    Owned torrentOf (session.deliver torrentOf expiring answers) := by
  obtain ⟨canExpire, faithful, waiting⟩ := possible
  have grounded := consistent.grounded canExpire faithful
  unfold Session.deliver
  cases next : session.posted with
  | nil => exact absurd next waiting
  | cons posted rest =>
      cases posted with
      | added context handle =>
          have once : session.backend.pending.Nodup :=
            owned.once.sublist (List.sublist_append_left _ _)
          have answered : BackendState.Answered (answers.userdata handle = some context) context session.backend
              (session.backend.handleAdded answers (some context) handle none).1 :=
            BackendState.handleAdded_answered session.backend answers handle once
          have collected : BackendState.Custody (session.backend.handleAdded answers (some context) handle none).1
              (session.backend.after (.alert answers (.added (some context) handle none))) :=
            BackendState.collected_custody session.backend _
          obtain ⟨ids, asks, _⟩ := BackendState.handleAdded_asks session.backend answers (some context) handle
          have handles : (session.backend.after (.alert answers (.added (some context) handle none))).handles =
              session.backend.handles.insert (answers.torrentId handle) handle := by
            refine (congrArg ResumeMarks.handles (BackendState.collect_marks session.backend
              (session.backend.handleAdded answers (some context) handle none))).trans ?_
            rcases asks with same | ⟨_, _, _, _, _, same⟩
            · exact congrArg ResumeMarks.handles same
            · exact congrArg ResumeMarks.handles same
          refine owned.answer next rfl (answered.custody collected) ?_
            (.inr ⟨handle, answers.torrentId handle, rfl, handles⟩) (calls_adding _ _ _)
          rintro same live
          obtain rfl := (Posted.added.inj same).2
          exact grounded.live _ live
      | refused context message =>
          have told : session.backend.Custody (session.backend.emit {
              type := .torrentError
              requestId := session.backend.requestOf (some context)
              torrentId := ""
              message := message }) := .ofIncidental (BackendState.emit_incidental _ _)
          have kept : BackendState.Answered False context session.backend session.backend :=
            ⟨.inl rfl, fun taken => taken.elim, fun _ => ⟨rfl, rfl⟩, rfl, fun _ _ => rfl⟩
          exact owned.answer next rfl ((kept.custody told).drop fun taken => taken.elim) (by simp) (.inl rfl)
            (calls_adding _ _ _)
      | removed handle =>
          have retires := BackendState.handleRemoved_retires session.backend answers (some handle) (torrentOf handle)
          have handles : (session.backend.handleRemoved answers (some handle) (torrentOf handle)).handles =
              session.backend.handles.erase (session.backend.idOf (some handle) (torrentOf handle)) :=
            congrArg ResumeMarks.handles
              (BackendState.handleRemoved_asks session.backend answers (some handle) (torrentOf handle)).kept
          have told : Owned torrentOf (({ session with posted := rest } : Session).handle expiring answers
              (.torrentRemoved (some handle) (torrentOf handle)) fun after => after.handles.lookup) :=
            owned.release next retires handles (calls_adding _ _ _)
          show Owned torrentOf (Session.settle _ answers (torrentOf handle))
          unfold Session.settle
          split
          · exact told
          · exact { told with }

theorem perform (owned : Owned torrentOf session) (consistent : Consistent torrentOf session session.backend.marks)
    {action : SessionAction} (possible : session.Possible torrentOf action) :
    Owned torrentOf (session.perform torrentOf action) := by
  cases action with
  | run expiring action => exact owned.run possible
  | saveAll expiring answers =>
      have saving : Incidental session.backend (session.backend.saveAll answers) :=
        .foldl (fun _ _ => BackendState.requestResumeSave_incidental _ answers _) _ _
      exact owned.advance (.ofIncidental saving) saving.handles (calls_adding _ _ _)
  | deliver expiring answers => exact owned.deliver consistent possible
  | saved expiring answers handle =>
      have stored := BackendState.handleResumeSaved_incidental session.backend answers handle
      exact ({ owned with } : Owned torrentOf { session with saving := session.saving.erase handle }).advance
        (.ofIncidental stored) stored.handles (calls_adding _ _ _)
  | saveFailed expiring answers handle notModified message =>
      have failed := BackendState.handleResumeSaveFailed_incidental session.backend answers handle notModified message
      exact ({ owned with } : Owned torrentOf { session with saving := session.saving.erase handle }).advance
        (.ofIncidental failed) failed.handles (calls_adding _ _ _)
  | saveRefused expiring answers handle notModified message =>
      have failed := BackendState.handleResumeSaveFailed_incidental session.backend answers handle notModified message
      exact ({ owned with } : Owned torrentOf { session with refused := session.refused.erase handle }).advance
        (.ofIncidental failed) failed.handles (calls_adding _ _ _)
  | carryOut refusal told => exact owned.carryOut consistent refusal told
  | expire handle => exact { owned with }

end Owned

theorem owned_initial (initial : session.Initial) : Owned torrentOf session := by
  obtain ⟨system, timeout, files, rfl⟩ := initial
  constructor <;> simp [BackendState.owners, AList.values, unanswered, not_ahead_nil]

theorem owned_reachable (reached : session.Reachable torrentOf) : Owned torrentOf session := by
  have starts : ∀ session : Session, session.Initial →
      Owned torrentOf session ∧ Consistent torrentOf session session.backend.marks :=
    fun _ initial => ⟨owned_initial initial, consistent_initial initial⟩
  have keeps : ∀ (session : Session) action,
      Owned torrentOf session ∧ Consistent torrentOf session session.backend.marks →
      session.Possible torrentOf action →
      Owned torrentOf (session.perform torrentOf action) ∧
        Consistent torrentOf (session.perform torrentOf action)
          (session.perform torrentOf action).backend.marks :=
    fun _ _ held possible => ⟨held.1.perform held.2 possible, held.2.perform possible⟩
  exact (Transition.Reachable.invariant starts keeps reached).1

/-- libtorrent hands a context to the backend in a step: behind a handle, or with the alert. -/
def Hands (session : Session) (action : SessionAction) (context : Nat) : Prop :=
  (∃ answers handle, action.answers = some answers ∧ answers.userdata handle = some context) ∨
    (action.delivers = true ∧ session.posted.head?.map Posted.context = some context)

/-- Every context that libtorrent hands to the backend is owned, and by one owner: the backend neither
uses a context that it has freed nor frees one twice. -/
theorem contexts_owned (reached : session.Reachable torrentOf) {action : SessionAction}
    (possible : session.Possible torrentOf action) {context : Nat} (handed : session.Hands action context) :
    session.backend.owners.count context = 1 := by
  have owned := owned_reachable reached
  have consistent := consistent_reachable reached
  have made (there : context ∈ session.made) : context ∈ session.backend.owners :=
    owned.made_owned context there
  refine List.count_eq_one_of_mem owned.once ?_
  rcases handed with ⟨answers, handle, asked, seen⟩ | ⟨delivered, first⟩
  · obtain ⟨expiring, faithful⟩ := possible.faithful asked
    rcases faithful.seen handle with ⟨there, _, own, _⟩ | ⟨unseen, _⟩
    · obtain rfl : handle = context := by simpa [own] using seen
      exact made there
    · simp [unseen] at seen
  · cases next : session.posted with
    | nil => simp [next] at first
    | cons posted rest =>
        obtain rfl : posted.context = context := by simpa [next] using first
        cases posted with
        | added context handle | refused context message =>
            refine List.mem_append_left _ (owned.unanswered_pending context ?_)
            exact List.mem_append_left _ (List.mem_filterMap.mpr ⟨_, next ▸ List.mem_cons_self, rfl⟩)
        | removed handle =>
            exact made (consistent.sound.removed_out handle
              (List.mem_map.mpr ⟨_, next ▸ List.mem_cons_self, rfl⟩)).1

/-- The alert of a removal carries the context of the torrent that is gone. -/
theorem contexts_owned_removed :
    (Transition.follow (perform twoTorrents) removedEarly start).backend.owners.count 0 = 1 :=
  have possible : (Transition.follow (perform twoTorrents) removedEarly start).Possible twoTorrents
      (.deliver [] (Transition.follow (perform twoTorrents) removedEarly start).twoAnswers) :=
    ⟨by simp [CanExpire], twoAnswers_faithful _, by decide +kernel⟩
  contexts_owned removedEarly_reachable possible (.inr ⟨rfl, by decide +kernel⟩)

end Session

end NuvioEngine.Backend
