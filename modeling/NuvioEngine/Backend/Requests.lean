import NuvioEngine.Backend.Recalls
import NuvioEngine.Backend.Throws

/-!
Add requests are remembered until they are answered. A torrent has one context for all its requests,
so a request is only safe when no other request takes its place.
-/

namespace NuvioEngine.Backend

open NuvioEngine.Bridge NuvioEngine.Stream NuvioEngine.Cache BridgeState

/-- The events that reached the client or will. -/
def Host.told (host : Host) : List BackendEvent :=
  host.published ++ (host.backend.events ++ host.backend.queuedEvents)

def Host.Answered (host : Host) (requestId : Nat) : Prop :=
  ∃ event ∈ host.told, (event.type = .metadataReady ∨ event.type = .torrentError) ∧
    event.requestId = requestId

/-- A context for the request is pending or active for its torrent, and the metadata event that will
bear the request is still to come. -/
def Host.Recorded (host : Host) (requestId : Nat) (id : String) : Prop :=
  ∃ context, (context ∈ host.backend.pending ∨ host.backend.active.lookup id = some context) ∧
    (host.backend.contexts context).requestId = requestId ∧
    (host.backend.contexts context).torrentId = id ∧
    (host.backend.contexts context).metadataEmitted = false

/-- No request takes the place of another one that is not answered: a torrent is added again only
when the request in its context is answered, a context is replaced or retired only then, and a second
add of a torrent that is there is answered when its metadata is known. libtorrent's calls outside the
`try` blocks do not throw. -/
def Host.Sequential (host : Host) : HostAction → Prop
  | .addTorrent answers _ (.ok source) => ∀ handle context,
      host.backend.validHandle answers source.id = some handle → host.creator handle = some context →
        host.Answered (host.backend.contexts context).requestId
  | .alert answers alert => answers.Serves alert ∧
      match alert with
      | .added (some context) handle none =>
          (host.creator handle = some context → ∀ other,
            host.backend.active.lookup (host.backend.contexts context).torrentId = some other →
              host.Answered (host.backend.contexts other).requestId) ∧
          (host.creator handle ≠ some context → handle ∈ host.known ∨
            (host.Answered (host.backend.contexts context).requestId ∧
              host.backend.active.lookup (host.backend.contexts context).torrentId =
                host.creator handle))
      | .torrentRemoved context hashId => ∀ other,
          host.backend.active.lookup (host.backend.idOf context hashId) = some other →
            host.Answered (host.backend.contexts other).requestId
      | _ => True
  | .periodic answers => answers.ServesSteps
  | _ => True

/-- Contexts, handles and accepted requests agree. -/
structure Mindful (torrentOf : Nat → String) (host : Host) : Prop where
  pendingBound : ∀ context ∈ host.backend.pending, context < host.backend.nextContext
  activeBound : ∀ id context, host.backend.active.lookup id = some context →
    context < host.backend.nextContext
  creatorBound : ∀ handle context, host.creator handle = some context →
    context < host.backend.nextContext
  creators : ∀ first second context, host.creator first = some context →
    host.creator second = some context → first = second
  created : ∀ handle context, host.creator handle = some context →
    (host.backend.contexts context).torrentId = torrentOf handle
  active : ∀ id context, host.backend.active.lookup id = some context →
    context ∉ host.backend.pending ∧ (host.backend.contexts context).torrentId = id
  handles : ∀ id handle, host.backend.handles.lookup id = some handle → torrentOf handle = id ∧
    ∃ context, host.creator handle = some context ∧
      (handle ∈ host.known ∨ host.backend.active.lookup id = some context)
  known : ∀ handle context, host.creator handle = some context →
    (host.backend.contexts context).metadataEmitted = true → handle ∈ host.known
  emitted : ∀ context ∈ host.backend.pending,
    (host.backend.contexts context).metadataEmitted = true →
      ∃ handle, host.creator handle = some context
  answered : ∀ context, (context ∈ host.backend.pending ∨
      ∃ id, host.backend.active.lookup id = some context) →
    (host.backend.contexts context).metadataEmitted = true →
      host.Answered (host.backend.contexts context).requestId
  accepted : ∀ request ∈ host.accepted, host.Answered request.1 ∨
    ∃ context, (context ∈ host.backend.pending ∨
        host.backend.active.lookup request.2 = some context) ∧
      (host.backend.contexts context).requestId = request.1 ∧
      (host.backend.contexts context).torrentId = request.2

theorem Host.Answered.mono {host next : Host} {requestId : Nat} (answered : host.Answered requestId)
    (told : ∀ event ∈ host.told, event ∈ next.told) : next.Answered requestId := by
  obtain ⟨event, member, kind, same⟩ := answered
  exact ⟨event, told event member, kind, same⟩

namespace Mindful

variable {torrentOf : Nat → String} {host next : Host}

theorem initial (begins : host.Initial) : Mindful torrentOf host := by
  obtain ⟨system, timeout, _, rfl⟩ := begins
  constructor <;> simp

theorem recorded (mindful : Mindful torrentOf host) {requestId : Nat} {id : String}
    (accepted : (requestId, id) ∈ host.accepted) (unanswered : ¬ host.Answered requestId) :
    host.Recorded requestId id := by
  rcases mindful.accepted _ accepted with answered | ⟨context, kept, request, torrent⟩
  · exact absurd answered unanswered
  · refine ⟨context, kept, request, torrent, ?_⟩
    rw [← Bool.not_eq_true]
    intro emitted
    have answered := mindful.answered context (kept.imp_right fun active => ⟨id, active⟩) emitted
    rw [request] at answered
    exact unanswered answered

theorem recalls (mindful : Mindful torrentOf host) (recalls : Recalls host.backend next.backend)
    (creator : next.creator = host.creator) (known : ∀ handle ∈ host.known, handle ∈ next.known)
    (accepted : next.accepted = host.accepted) (published : ∀ event ∈ host.published, event ∈ next.published) :
    Mindful torrentOf next := by
  have told : ∀ event ∈ host.told, event ∈ next.told := by
    intro event member
    rcases List.mem_append.mp member with old | rest
    · exact List.mem_append_left _ (published event old)
    · exact List.mem_append_right _ (recalls.told event rest)
  constructor
  · rw [recalls.pending, recalls.nextContext]
    exact mindful.pendingBound
  · rw [recalls.active, recalls.nextContext]
    exact mindful.activeBound
  · rw [creator, recalls.nextContext]
    exact mindful.creatorBound
  · rw [creator]
    exact mindful.creators
  · intro handle context made
    rw [recalls.torrentId]
    exact mindful.created handle context (creator ▸ made)
  · intro id context found
    rw [recalls.torrentId, recalls.pending]
    exact mindful.active id context (recalls.active ▸ found)
  · intro id handle found
    rw [recalls.active, creator]
    obtain ⟨owner, context, made, kept⟩ := mindful.handles id handle (recalls.handles ▸ found)
    exact ⟨owner, context, made, kept.imp_left (known handle)⟩
  · intro handle context made emitted
    rw [recalls.emitted] at emitted
    exact known handle (mindful.known handle context (creator ▸ made) emitted)
  · intro context member emitted
    rw [recalls.emitted] at emitted
    rw [creator]
    exact mindful.emitted context (recalls.pending ▸ member) emitted
  · intro context kept emitted
    rw [recalls.emitted] at emitted
    rw [recalls.requestId]
    rw [recalls.pending, recalls.active] at kept
    exact (mindful.answered context kept emitted).mono told
  · intro request member
    rcases mindful.accepted request (accepted ▸ member) with answered | ⟨context, kept, same, torrent⟩
    · exact .inl (answered.mono told)
    · refine .inr ⟨context, ?_, ?_, ?_⟩
      · rw [recalls.pending, recalls.active]
        exact kept
      · rw [recalls.requestId]
        exact same
      · rw [recalls.torrentId]
        exact torrent

/-- The request in a context can be replaced when it is answered; the new one must be answered
already when the context has told its metadata. -/
theorem setRequest (mindful : Mindful torrentOf host) {context requestId startedAt : Nat}
    (old : host.Answered (host.backend.contexts context).requestId)
    (fresh : (host.backend.contexts context).metadataEmitted = true → host.Answered requestId) :
    Mindful torrentOf { host with backend := host.backend.setContext context fun request =>
      { request with requestId := requestId, metadataStartedAt := startedAt } } := by
  have torrents : ∀ other, ((host.backend.setContext context fun request =>
      { request with requestId := requestId, metadataStartedAt := startedAt }).contexts other).torrentId =
        (host.backend.contexts other).torrentId := by
    intro other
    simp only [BackendState.setContext, Function.update_apply]
    split <;> simp_all
  have emits : ∀ other, ((host.backend.setContext context fun request =>
      { request with requestId := requestId, metadataStartedAt := startedAt }).contexts
        other).metadataEmitted = (host.backend.contexts other).metadataEmitted := by
    intro other
    simp only [BackendState.setContext, Function.update_apply]
    split <;> simp_all
  have requests : ∀ other, other ≠ context → ((host.backend.setContext context fun request =>
      { request with requestId := requestId, metadataStartedAt := startedAt }).contexts other).requestId =
        (host.backend.contexts other).requestId := by
    intro other different
    simp [BackendState.setContext, different]
  refine ⟨mindful.pendingBound, mindful.activeBound, mindful.creatorBound, mindful.creators, ?_, ?_,
    mindful.handles, ?_, ?_, ?_, ?_⟩
  · intro handle other made
    rw [torrents]
    exact mindful.created handle other made
  · intro id other found
    rw [torrents]
    exact mindful.active id other found
  · intro handle other made emitted
    rw [emits] at emitted
    exact mindful.known handle other made emitted
  · intro other member emitted
    rw [emits] at emitted
    exact mindful.emitted other member emitted
  · intro other kept emitted
    rw [emits] at emitted
    by_cases same : other = context
    · rw [same] at emitted ⊢
      simp only [BackendState.setContext, Function.update_self]
      exact fresh emitted
    · rw [requests other same]
      exact mindful.answered other kept emitted
  · intro request member
    rcases mindful.accepted request member with answered | ⟨other, kept, same, torrent⟩
    · exact .inl answered
    · by_cases replaced : other = context
      · rw [← same, replaced]
        exact .inl old
      · refine .inr ⟨other, kept, ?_, ?_⟩
        · rw [requests other replaced]
          exact same
        · rw [torrents]
          exact torrent

theorem enroll (mindful : Mindful torrentOf host) {requestId : Nat} {id : String}
    (remembered : host.Answered requestId ∨
      ∃ context, (context ∈ host.backend.pending ∨ host.backend.active.lookup id = some context) ∧
        (host.backend.contexts context).requestId = requestId ∧
        (host.backend.contexts context).torrentId = id) :
    Mindful torrentOf { host with accepted := host.accepted ++ [(requestId, id)] } := by
  refine { mindful with accepted := fun request member => ?_ }
  rcases List.mem_append.mp member with old | new
  · exact mindful.accepted request old
  · rw [List.mem_singleton.mp new]
    exact remembered

end Mindful

/-- The request that `add_torrent` notes in the context of a torrent that is there. -/
def BackendState.readdress (backend : BackendState) (context : Option Nat) (requestId now : Nat) :
    BackendState :=
  match context with
  | none => backend
  | some shared => backend.setContext shared fun request =>
      { request with requestId := requestId, metadataStartedAt := now }

/-- `add_torrent` for a torrent that is there notes the request and answers it when the metadata is
known. -/
theorem BackendState.addExisting_cases (backend : BackendState) (answers : Answers) (requestId : Nat)
    (id : String) (handle : Nat) :
    (∃ stopped thrown, Recalls backend stopped ∧
      backend.addExisting answers requestId id handle = (stopped, some thrown)) ∨
    ∃ told result, Recalls backend told ∧
      backend.addExisting answers requestId id handle =
        (told.readdress (answers.userdata handle) requestId answers.lt.now, result) ∧
      (result = none → answers.hasMetadata handle = .ok false ∨
        (answers.hasMetadata handle = .ok true ∧ ∃ event ∈ told.queuedEvents,
          event.type = .metadataReady ∧ event.requestId = requestId)) := by
  have activates := activateTorrent_recalls backend answers id handle
  unfold addExisting
  split
  · rename_i stopped thrown result
    rw [result] at activates
    exact .inl ⟨stopped, thrown, activates, rfl⟩
  · rename_i activated result
    rw [result] at activates
    have added := activates.trans (.ofIncidental (queue_incidental activated
      { type := .torrentAdded, requestId := requestId, torrentId := id }))
    right
    simp only
    split
    · rename_i thrown _
      refine ⟨_, some thrown, added, ?_, by simp⟩
      cases answers.userdata handle <;> rfl
    · rename_i status
      refine ⟨_, none, added, ?_, fun _ => .inl status⟩
      cases answers.userdata handle <;> rfl
    · rename_i status
      split
      · rename_i thrown _
        refine ⟨_, some thrown, added, ?_, by simp⟩
        cases answers.userdata handle <;> rfl
      · rename_i event built
        refine ⟨_, none, added.trans (.ofIncidental (queue_incidental _ event)), ?_, fun _ => .inr
          ⟨status, event, by simp [queue], ?_⟩⟩
        · cases answers.userdata handle <;> rfl
        · unfold metadataEvent at built
          split at built
          · simp at built
          · rw [← Except.ok.inj built]
            exact ⟨rfl, rfl⟩

/-- A new context for a torrent that is not there. -/
def BackendState.openContext (backend : BackendState) (context : RequestContext) : BackendState :=
  { backend with
    contexts := Function.update backend.contexts backend.nextContext context
    nextContext := backend.nextContext + 1
    pending := backend.pending ++ [backend.nextContext] }

theorem BackendState.addNew_cases (backend : BackendState) (answers : Answers) (requestId : Nat)
    (source : TorrentSource) :
    ∃ loaded, Recalls backend loaded ∧
      ((∃ thrown, backend.addNew answers requestId source = (loaded, some thrown)) ∨
        ∃ context : RequestContext, backend.addNew answers requestId source =
            (loaded.openContext context, none) ∧
          context.requestId = requestId ∧ context.torrentId = source.id ∧
          context.metadataEmitted = false) := by
  unfold addNew
  extract_lets loaded context
  have recalled : Recalls backend loaded := by
    unfold loaded
    split
    · exact .refl backend
    · exact .ofIncidental (queue_incidental backend _)
  refine ⟨loaded, recalled, ?_⟩
  split
  · rename_i thrown _
    exact .inl ⟨thrown, rfl⟩
  · split
    · rename_i thrown _
      exact .inl ⟨thrown, rfl⟩
    · exact .inr ⟨_, rfl, rfl, rfl, rfl⟩

namespace Mindful

variable {torrentOf : Nat → String} {host next : Host}

theorem openContext (mindful : Mindful torrentOf host) {context : RequestContext}
    (silent : context.metadataEmitted = false) :
    Mindful torrentOf { host with backend := host.backend.openContext context } := by
  have old : ∀ other, other < host.backend.nextContext →
      (host.backend.openContext context).contexts other = host.backend.contexts other := by
    intro other bound
    simp only [BackendState.openContext]
    exact Function.update_of_ne (Nat.ne_of_lt bound) _ _
  have new : (host.backend.openContext context).contexts host.backend.nextContext = context := by
    simp only [BackendState.openContext]
    exact Function.update_self _ _ _
  have kept : ∀ other, other ∈ host.backend.pending ++ [host.backend.nextContext] →
      other ∈ host.backend.pending ∨ other = host.backend.nextContext := by
    simp
  have unmade : ∀ handle, host.creator handle ≠ some host.backend.nextContext :=
    fun handle made => Nat.lt_irrefl _ (mindful.creatorBound handle _ made)
  refine ⟨?_, ?_, ?_, mindful.creators, ?_, ?_, mindful.handles, ?_, ?_, ?_, ?_⟩
  · intro other member
    rcases kept other member with before | rfl
    · exact Nat.lt_succ_of_lt (mindful.pendingBound other before)
    · exact Nat.lt_succ_self _
  · exact fun id other found => Nat.lt_succ_of_lt (mindful.activeBound id other found)
  · exact fun handle other made => Nat.lt_succ_of_lt (mindful.creatorBound handle other made)
  · intro handle other made
    rw [old other (mindful.creatorBound handle other made)]
    exact mindful.created handle other made
  · intro id other found
    rw [old other (mindful.activeBound id other found)]
    refine ⟨fun member => ?_, (mindful.active id other found).2⟩
    rcases kept other member with before | rfl
    · exact (mindful.active id other found).1 before
    · exact Nat.lt_irrefl _ (mindful.activeBound id _ found)
  · intro handle other made emitted
    rw [old other (mindful.creatorBound handle other made)] at emitted
    exact mindful.known handle other made emitted
  · intro other member emitted
    rcases kept other member with before | rfl
    · rw [old other (mindful.pendingBound other before)] at emitted
      exact mindful.emitted other before emitted
    · simp [new, silent] at emitted
  · intro other held emitted
    have bound : other < host.backend.nextContext ∨ other = host.backend.nextContext := by
      rcases held with member | ⟨id, found⟩
      · exact (kept other member).imp_left (mindful.pendingBound other)
      · exact .inl (mindful.activeBound id other found)
    rcases bound with bound | rfl
    · rw [old other bound] at emitted ⊢
      refine mindful.answered other (held.imp_left fun member => ?_) emitted
      rcases kept other member with before | same
      · exact before
      · exact absurd bound (by simp [same])
    · simp [new, silent] at emitted
  · intro request member
    rcases mindful.accepted request member with answered | ⟨other, held, same, torrent⟩
    · exact .inl answered
    · have bound : other < host.backend.nextContext :=
        held.elim (mindful.pendingBound other) (mindful.activeBound request.2 other)
      refine .inr ⟨other, held.imp_left (List.mem_append_left _), ?_, ?_⟩
      · rw [old other bound]
        exact same
      · rw [old other bound]
        exact torrent

theorem command (mindful : Mindful torrentOf host) (requestId : Nat) {outcome : BackendState.Outcome}
    (recalls : Recalls host.backend outcome.1) : Mindful torrentOf (host.command requestId outcome) := by
  obtain ⟨backend, thrown⟩ := outcome
  cases thrown with
  | none => exact mindful.recalls recalls rfl (fun _ known => known) rfl fun _ told => told
  | some thrown =>
      exact mindful.recalls recalls rfl (fun _ known => known) rfl fun _ told =>
        List.mem_append_left _ told

theorem command_answered (host : Host) (requestId : Nat) (backend : BackendState) (thrown : Thrown) :
    (host.command requestId (backend, some thrown)).Answered requestId := by
  refine ⟨_, List.mem_append_left _ (List.mem_append_right _ (List.mem_singleton_self _)), .inr rfl, rfl⟩

theorem told_command (host : Host) (requestId : Nat) {outcome : BackendState.Outcome}
    (recalls : Recalls host.backend outcome.1) :
    ∀ event ∈ host.told, event ∈ (host.command requestId outcome).told := by
  obtain ⟨backend, thrown⟩ := outcome
  intro event member
  rcases List.mem_append.mp member with old | rest
  · cases thrown with
    | none => exact List.mem_append_left _ old
    | some thrown => exact List.mem_append_left _ (List.mem_append_left _ old)
  · cases thrown <;> exact List.mem_append_right _ (recalls.told event rest)

theorem addExisting (mindful : Mindful torrentOf host) {answers : Answers} {requestId : Nat}
    {source : TorrentSource} {handle : Nat} {current : BackendState}
    (truthful : host.Truthful torrentOf answers) (before : Recalls host.backend current)
    (known : host.backend.handles.lookup source.id = some handle)
    (sequential : ∀ context, host.creator handle = some context →
      host.Answered (host.backend.contexts context).requestId) :
    Mindful torrentOf (host.accept requestId (.ok source)
      (current.addExisting answers requestId source.id handle)) := by
  obtain ⟨owner, context, made, kept⟩ := mindful.handles source.id handle known
  rcases current.addExisting_cases answers requestId source.id handle with
    ⟨stopped, thrown, recalls, result⟩ | ⟨told, result, recalls, outcome, answered⟩
  · have failed : Mindful torrentOf (host.command requestId (stopped, some thrown)) :=
      mindful.command requestId (before.trans recalls)
    rw [result]
    exact failed
  · have recalled := before.trans recalls
    rw [outcome]
    rcases truthful.userdata handle with own | gone
    · rw [own, made]
      have old : host.Answered (told.contexts context).requestId := by
        rw [recalled.requestId]
        exact sequential context made
      cases result with
      | some thrown =>
          have failed : Mindful torrentOf (host.command requestId (told, some thrown)) :=
            mindful.command requestId recalled
          exact failed.setRequest (old.mono (told_command host requestId recalled))
            fun _ => command_answered host requestId told thrown
      | none =>
          have added : Mindful torrentOf (host.command requestId (told, none)) :=
            mindful.command requestId recalled
          have past : (host.command requestId (told, none)).Answered (told.contexts context).requestId :=
            old.mono (told_command host requestId recalled)
          rcases answered rfl with absent | ⟨_, event, member, kind, same⟩
          · have unknown : handle ∉ host.known := by
              simpa using (truthful.status handle false absent).1
            have active : host.backend.active.lookup source.id = some context :=
              kept.resolve_left unknown
            have silent : (told.contexts context).metadataEmitted ≠ true := by
              rw [recalled.emitted]
              exact fun emitted => unknown (mindful.known handle context made emitted)
            refine (added.setRequest past fun emitted => absurd emitted silent).enroll (.inr ⟨context, .inr ?_,
              ?_, ?_⟩)
            · exact recalled.active ▸ active
            · simp [BackendState.setContext]
            · simp only [BackendState.setContext, Function.update_self]
              exact (recalled.torrentId context).trans (mindful.active _ _ active).2
          · have now : (host.command requestId (told, none)).Answered requestId :=
              ⟨event, List.mem_append_right _ (List.mem_append_right _ member), .inl kind, same⟩
            exact (added.setRequest past fun _ => now).enroll (.inl now)
    · rw [gone]
      cases result with
      | some thrown =>
          have failed : Mindful torrentOf (host.command requestId (told, some thrown)) :=
            mindful.command requestId recalled
          exact failed
      | none =>
          have status : ∃ has, answers.hasMetadata handle = .ok has :=
            (answered rfl).elim (fun absent => ⟨_, absent⟩) fun present => ⟨_, present.1⟩
          obtain ⟨has, status⟩ := status
          have own := (truthful.status handle has status).2.1
          rw [gone, made] at own
          simp at own

theorem addTorrent (mindful : Mindful torrentOf host) {answers : Answers} {requestId : Nat}
    {parsed : Except Thrown TorrentSource} (truthful : host.Truthful torrentOf answers)
    (sequential : host.Sequential (.addTorrent answers requestId parsed)) :
    Mindful torrentOf (host.perform (.addTorrent answers requestId parsed)) := by
  have rejected : ∀ thrown, Mindful torrentOf (host.command requestId (host.backend, some thrown)) :=
    fun thrown => mindful.command requestId (.refl _)
  rw [Host.perform]
  unfold BackendState.addTorrent
  split
  · exact rejected _
  · rename_i source
    have focuses := BackendState.focusTorrent_recalls host.backend answers source.id
    split
    · exact rejected _
    · simp only
      split
      · rename_i handle found
        have valid : host.backend.validHandle answers source.id = some handle := by
          rwa [BackendState.validHandle, focuses.handles] at found
        exact mindful.addExisting truthful focuses (BackendState.validHandle_eq_some valid).1
          fun context made => sequential handle context valid made
      · obtain ⟨loaded, recalls, ⟨thrown, result⟩ | ⟨context, result, request, torrent, silent⟩⟩ :=
          (host.backend.focusTorrent answers source.id).addNew_cases answers requestId source
        · have failed : Mindful torrentOf (host.command requestId (loaded, some thrown)) :=
            mindful.command requestId (focuses.trans recalls)
          rw [result]
          exact failed
        · rw [result]
          have opened : Mindful torrentOf (host.command requestId (loaded, none)) :=
            mindful.command requestId (focuses.trans recalls)
          refine (opened.openContext silent).enroll (.inr ⟨loaded.nextContext, .inl ?_, ?_, ?_⟩)
          · simp [BackendState.openContext, Host.command]
          · simp [BackendState.openContext, Host.command, request]
          · simp [BackendState.openContext, Host.command, torrent]

theorem dropPending (mindful : Mindful torrentOf host) (context : Nat)
    (old : context ∈ host.backend.pending → host.Answered (host.backend.contexts context).requestId) :
    Mindful torrentOf { host with backend := host.backend.dropPending (some context) } := by
  have kept : ∀ other, other ∈ (host.backend.dropPending (some context)).pending ↔
      other ∈ host.backend.pending ∧ other ≠ context := by
    simp [BackendState.dropPending]
  refine ⟨fun other member => mindful.pendingBound other ((kept other).mp member).1,
    mindful.activeBound, mindful.creatorBound, mindful.creators, mindful.created, ?_, mindful.handles,
    mindful.known, fun other member => mindful.emitted other ((kept other).mp member).1, ?_, ?_⟩
  · intro id other found
    obtain ⟨absent, torrent⟩ := mindful.active id other found
    exact ⟨fun member => absent ((kept other).mp member).1, torrent⟩
  · intro other held
    exact mindful.answered other (held.imp_left fun member => ((kept other).mp member).1)
  · intro request member
    rcases mindful.accepted request member with answered | ⟨other, held, same, torrent⟩
    · exact .inl answered
    · rcases held with pending | active
      · by_cases dropped : other = context
        · rw [← same, dropped]
          exact .inl (old (dropped ▸ pending))
        · exact .inr ⟨other, .inl ((kept other).mpr ⟨pending, dropped⟩), same, torrent⟩
      · exact .inr ⟨other, .inr active, same, torrent⟩

theorem setEmitted (mindful : Mindful torrentOf host) (context : Nat)
    (told : host.Answered (host.backend.contexts context).requestId)
    (known : ∀ handle, host.creator handle = some context → handle ∈ host.known)
    (made : context ∈ host.backend.pending → ∃ handle, host.creator handle = some context) :
    Mindful torrentOf { host with backend := host.backend.setContext context fun request =>
      { request with metadataEmitted := true } } := by
  have torrents : ∀ other, ((host.backend.setContext context fun request =>
      { request with metadataEmitted := true }).contexts other).torrentId =
        (host.backend.contexts other).torrentId := by
    intro other
    simp only [BackendState.setContext, Function.update_apply]
    split <;> simp_all
  have requests : ∀ other, ((host.backend.setContext context fun request =>
      { request with metadataEmitted := true }).contexts other).requestId =
        (host.backend.contexts other).requestId := by
    intro other
    simp only [BackendState.setContext, Function.update_apply]
    split <;> simp_all
  have emits : ∀ other, other ≠ context → ((host.backend.setContext context fun request =>
      { request with metadataEmitted := true }).contexts other).metadataEmitted =
        (host.backend.contexts other).metadataEmitted := by
    intro other different
    simp [BackendState.setContext, different]
  refine ⟨mindful.pendingBound, mindful.activeBound, mindful.creatorBound, mindful.creators, ?_, ?_,
    mindful.handles, ?_, ?_, ?_, ?_⟩
  · intro handle other created
    rw [torrents]
    exact mindful.created handle other created
  · intro id other found
    rw [torrents]
    exact mindful.active id other found
  · intro handle other created emitted
    by_cases same : other = context
    · exact known handle (same ▸ created)
    · rw [emits other same] at emitted
      exact mindful.known handle other created emitted
  · intro other member emitted
    by_cases same : other = context
    · rw [same]
      exact made (same ▸ member)
    · rw [emits other same] at emitted
      exact mindful.emitted other member emitted
  · intro other held emitted
    rw [requests]
    by_cases same : other = context
    · rw [same]
      exact told
    · rw [emits other same] at emitted
      exact mindful.answered other held emitted
  · intro request member
    rcases mindful.accepted request member with answered | ⟨other, held, same, torrent⟩
    · exact .inl answered
    · refine .inr ⟨other, held, ?_, ?_⟩
      · rw [requests]
        exact same
      · rw [torrents]
        exact torrent

/-- The context for which a torrent was made becomes the active one, in the place of one whose
request is answered. -/
theorem adopt (mindful : Mindful torrentOf host) {context handle : Nat} {id : String}
    (pending : context ∈ host.backend.pending) (made : host.creator handle = some context)
    (torrent : (host.backend.contexts context).torrentId = id) (owner : torrentOf handle = id)
    (replaced : ∀ other, host.backend.active.lookup id = some other →
      host.Answered (host.backend.contexts other).requestId) :
    Mindful torrentOf { host with backend := { host.backend with
      handles := host.backend.handles.insert id handle
      retired := host.backend.retired ++ (host.backend.active.lookup id).toList
      active := (host.backend.active.erase id).insert id context
      pending := host.backend.pending.filter fun other => some other ≠ some context } } := by
  have active : ∀ query other, ((host.backend.active.erase id).insert id context).lookup query =
      some other → (query = id ∧ other = context) ∨
        (query ≠ id ∧ host.backend.active.lookup query = some other) := by
    intro query other found
    rw [AList.lookup_insert_ite] at found
    split at found
    · rename_i same
      exact .inl ⟨same, (Option.some.inj found).symm⟩
    · rename_i different
      rw [AList.lookup_erase_ite, if_neg different] at found
      exact .inr ⟨different, found⟩
  have others : ∀ query other, query ≠ id → host.backend.active.lookup query = some other →
      ((host.backend.active.erase id).insert id context).lookup query = some other := by
    intro query other different found
    rw [AList.lookup_insert_ne different, AList.lookup_erase_ite, if_neg different]
    exact found
  have kept : ∀ other, other ∈ (host.backend.pending.filter fun other => some other ≠ some context) ↔
      other ∈ host.backend.pending ∧ other ≠ context := by
    simp
  refine ⟨?_, ?_, mindful.creatorBound, mindful.creators, mindful.created, ?_, ?_, mindful.known, ?_, ?_,
    ?_⟩
  · exact fun other member => mindful.pendingBound other ((kept other).mp member).1
  · intro query other found
    rcases active query other found with ⟨_, rfl⟩ | ⟨_, before⟩
    · exact mindful.pendingBound _ pending
    · exact mindful.activeBound query other before
  · intro query other found
    rcases active query other found with ⟨rfl, rfl⟩ | ⟨_, before⟩
    · exact ⟨fun member => ((kept _).mp member).2 rfl, torrent⟩
    · obtain ⟨absent, same⟩ := mindful.active query other before
      exact ⟨fun member => absent ((kept other).mp member).1, same⟩
  · intro query other found
    rw [AList.lookup_insert_ite] at found
    split at found
    · rename_i same
      obtain rfl := Option.some.inj found
      rw [same]
      exact ⟨owner, context, made, .inr (AList.lookup_insert _)⟩
    · rename_i different
      obtain ⟨same, creator, created, held⟩ := mindful.handles query other found
      exact ⟨same, creator, created, held.imp_right (others query creator different)⟩
  · exact fun other member => mindful.emitted other ((kept other).mp member).1
  · intro other held emitted
    refine mindful.answered other ?_ emitted
    rcases held with member | ⟨query, found⟩
    · exact .inl ((kept other).mp member).1
    · rcases active query other found with ⟨_, rfl⟩ | ⟨_, before⟩
      · exact .inl pending
      · exact .inr ⟨query, before⟩
  · intro request member
    rcases mindful.accepted request member with answered | ⟨other, held, same, own⟩
    · exact .inl answered
    · by_cases adopted : other = context
      · refine .inr ⟨other, .inr ?_, same, own⟩
        rw [← own, adopted, torrent]
        exact AList.lookup_insert _
      · rcases held with before | found
        · exact .inr ⟨other, .inl ((kept other).mpr ⟨before, adopted⟩), same, own⟩
        · by_cases here : request.2 = id
          · rw [← same]
            exact .inl (replaced other (here ▸ found))
          · exact .inr ⟨other, .inr (others request.2 other here found), same, own⟩

theorem rediscover (mindful : Mindful torrentOf host) {handle : Nat} {id : String}
    (owner : torrentOf handle = id) (made : (host.creator handle).isSome)
    (held : handle ∈ host.known ∨ host.backend.active.lookup id = host.creator handle) :
    Mindful torrentOf { host with backend := { host.backend with
      handles := host.backend.handles.insert id handle } } := by
  refine { mindful with handles := fun query other found => ?_ }
  rw [AList.lookup_insert_ite] at found
  split at found
  · rename_i same
    obtain rfl := Option.some.inj found
    obtain ⟨creator, created⟩ := Option.isSome_iff_exists.mp made
    rw [same]
    exact ⟨owner, creator, created, held.imp_right fun active => active.trans created⟩
  · exact mindful.handles query other found

end Mindful

namespace BackendState

variable {backend : BackendState} {answers : Answers}

theorem requestResumeSave_dropPending (backend : BackendState) (answers : Answers) (handle : Nat)
    (context : Option Nat) :
    (backend.requestResumeSave answers handle).dropPending context =
      (backend.dropPending context).requestResumeSave answers handle := by
  unfold requestResumeSave
  by_cases valid : answers.lt.isValid handle
  · cases owner : answers.userdata handle with
    | none => simp [valid]
    | some shared =>
        by_cases skipped : (backend.contexts shared).explicitlyRemoved ∨ shared ∈ backend.pendingResumeSaves
        · simp [valid, skipped, dropPending]
        · cases failed : answers.fails handle .saveResumeData <;>
            simp [valid, skipped, dropPending, BackendState.call, failed]
  · simp [valid]

theorem emitMetadata_eq (backend : BackendState) {handle : Nat} (context : Nat) (source : MetadataSource)
    (served : ∃ files, answers.files handle = .ok files) :
    ∃ event : BackendEvent, event.type = .metadataReady ∧
      event.requestId = (backend.contexts context).requestId ∧
      backend.emitMetadata answers handle (some context) source =
        ((backend.emit event).setContext context fun request =>
          { request with metadataEmitted := true }, none) := by
  obtain ⟨files, answered⟩ := served
  unfold emitMetadata metadataEvent
  simp only [answered]
  refine ⟨_, rfl, ?_, rfl⟩
  simp [setContext]

theorem announce_cases (backend : BackendState) (context : Nat) {handle : Nat} {has : Bool}
    (status : answers.hasMetadata handle = .ok has)
    (served : ∃ files, answers.files handle = .ok files) :
    (backend.announce answers handle (some context) = (backend, none) ∧
      (has = true → (backend.contexts context).metadataEmitted = true)) ∨
    (has = true ∧ ∃ (event : BackendEvent) (next : BackendState), event.type = .metadataReady ∧
      event.requestId = (backend.contexts context).requestId ∧
      backend.announce answers handle (some context) = (next, none) ∧
      Incidental (((backend.emit event).dropPending (some context)).setContext context fun request =>
        { request with metadataEmitted := true }) (next.dropPending (some context))) := by
  unfold announce
  cases has with
  | false =>
      simp only [status]
      exact .inl ⟨trivial, by simp⟩
  | true =>
      simp only [status]
      split
      · rename_i emitted
        exact .inl ⟨rfl, fun _ => emitted⟩
      · obtain ⟨event, kind, request, result⟩ :=
          emitMetadata_eq backend context (backend.contexts context).metadataSource served
        refine .inr ⟨trivial, event, _, kind, request, by rw [result], ?_⟩
        split
        · exact .refl _
        · rw [requestResumeSave_dropPending]
          exact requestResumeSave_incidental _ answers handle

theorem adopt_own (backend : BackendState) {handle context : Nat} {id : String} (pending : context ∈ backend.pending)
    (own : answers.userdata handle = some context)
    (torrent : (backend.contexts context).torrentId = id) :
    backend.adopt answers id handle (some context) = { backend with
      retired := backend.retired ++ (backend.active.lookup id).toList
      active := (backend.active.erase id).insert id context
      pending := backend.pending.filter fun other => some other ≠ some context } := by
  have named : (backend.setContext context fun request => { request with torrentId := id }) = backend := by
    simp [setContext, ← torrent]
  unfold adopt
  simp only [named, pending, own, and_self, if_true]
  unfold retire dropPending
  cases found : backend.active.lookup id with
  | none =>
      simp [AList.erase_of_lookup found]
  | some other => rfl

theorem adopt_other (backend : BackendState) {handle context : Nat} {id : String} (other : answers.userdata handle ≠ some context)
    (torrent : (backend.contexts context).torrentId = id) :
    backend.adopt answers id handle (some context) = backend := by
  have named : (backend.setContext context fun request => { request with torrentId := id }) = backend := by
    simp [setContext, ← torrent]
  unfold adopt
  simp [named, other]

end BackendState

namespace Mindful

variable {torrentOf : Nat → String} {host next : Host}

/-- After an add alert the context is active, or its request is answered and the context is gone. -/
theorem announced (mindful : Mindful torrentOf host) {answers : Answers} {handle context : Nat} {has : Bool}
    (status : answers.hasMetadata handle = .ok has)
    (served : ∃ files, answers.files handle = .ok files)
    (known : has = true → ∀ other, host.creator other = some context → other ∈ host.known)
    (settled : context ∈ host.backend.pending → host.Answered (host.backend.contexts context).requestId ∨
      (has = true ∧ (host.backend.contexts context).metadataEmitted = false)) :
    Mindful torrentOf { host with
      backend := (host.backend.announce answers handle (some context)).1.dropPending (some context) } := by
  rcases BackendState.announce_cases host.backend context status served with
    ⟨result, silent⟩ | ⟨rfl, event, told, kind, request, result, incidental⟩
  · rw [result]
    refine mindful.dropPending context fun pending => (settled pending).resolve_right ?_
    rintro ⟨has, unemitted⟩
    simp [silent has] at unemitted
  · have emits : Mindful torrentOf { host with backend := host.backend.emit event } :=
      mindful.recalls (.ofIncidental (BackendState.emit_incidental _ event)) rfl (fun _ known => known) rfl
        fun _ told => told
    have answered : { host with backend := host.backend.emit event }.Answered
        (host.backend.contexts context).requestId :=
      ⟨event, List.mem_append_right _ (List.mem_append_left _ (List.mem_append_right _
        (List.mem_singleton_self event))), .inl kind, request⟩
    have dropped := emits.dropPending context fun _ => answered
    have marked := dropped.setEmitted context answered (known rfl)
      fun pending => by simp [BackendState.dropPending] at pending
    rw [result]
    exact marked.recalls (.ofIncidental incidental) rfl (fun _ known => known) rfl fun _ told => told

theorem added (mindful : Mindful torrentOf host) {answers : Answers} {context : Option Nat}
    {handle : Nat} (truthful : host.Truthful torrentOf answers)
    (possible : host.AlertPossible torrentOf (.added context handle none))
    (sequential : host.Sequential (.alert answers (.added context handle none))) :
    Mindful torrentOf { host with
      backend := (host.backend.handleAdded answers context handle none).1 } := by
  obtain ⟨shared, rfl, pending, torrent, made, fits, _⟩ := possible
  obtain ⟨⟨⟨has, status⟩, served, announces⟩, replaced, doubled⟩ := sequential
  obtain ⟨knows, own, named⟩ := truthful.status handle has status
  have tells : ∀ (first : BackendState) event, Mindful torrentOf { host with backend := first } →
      Mindful torrentOf { host with backend := first.emit event } := fun first event before =>
    before.recalls (.ofIncidental (BackendState.emit_incidental _ event)) rfl (fun _ known => known) rfl
      fun _ told => told
  rw [BackendState.handleAdded_eq ⟨⟨has, status⟩, served, announces⟩, named]
  by_cases mine : host.creator handle = some shared
  · have adopted := mindful.adopt pending mine torrent.symm rfl fun other found =>
      replaced mine other (torrent ▸ found)
    rw [BackendState.adopt_own { host.backend with
      handles := host.backend.handles.insert (torrentOf handle) handle } pending (own.trans mine)
        torrent.symm]
    refine (tells _ _ adopted).announced status served ?_ ?_
    · intro present other created
      rw [mindful.creators other handle shared created mine]
      exact knows.mp present
    · intro left
      simp [BackendState.emit] at left
  · have unmade : ∀ other, host.creator other ≠ some shared := fits.resolve_left mine
    have held : handle ∈ host.known ∨
        host.backend.active.lookup (torrentOf handle) = host.creator handle :=
      (doubled mine).imp_right fun answered => torrent ▸ answered.2
    rw [BackendState.adopt_other { host.backend with
      handles := host.backend.handles.insert (torrentOf handle) handle } (own ▸ mine) torrent.symm]
    refine (tells _ _ (mindful.rediscover rfl made held)).announced status served ?_ ?_
    · exact fun _ other created => absurd created (unmade other)
    · intro _
      rcases doubled mine with present | ⟨answered, _⟩
      · refine .inr ⟨knows.mpr present, ?_⟩
        rw [← Bool.not_eq_true]
        intro emitted
        obtain ⟨other, created⟩ := mindful.emitted shared pending emitted
        exact unmade other created
      · refine .inl (answered.mono fun event member => ?_)
        rcases List.mem_append.mp member with old | rest
        · exact List.mem_append_left _ old
        · exact List.mem_append_right _ ((BackendState.emit_incidental host.backend _).told event rest)

theorem refused (mindful : Mindful torrentOf host) (answers : Answers) (context : Option Nat) (handle : Nat)
    (message : String) : Mindful torrentOf { host with
      backend := (host.backend.handleAdded answers context handle (some message)).1 } := by
  have told : ∀ event, Mindful torrentOf { host with backend := host.backend.emit event } := fun event =>
    mindful.recalls (.ofIncidental (BackendState.emit_incidental _ event)) rfl (fun _ known => known) rfl
      fun _ told => told
  cases context with
  | none =>
      refine (told { type := .torrentError, requestId := 0, torrentId := "", message := message }).recalls
        ?_ rfl (fun _ known => known) rfl fun _ told => told
      simp only [BackendState.handleAdded, BackendState.dropPending, BackendState.requestOf]
      simp [Recalls.refl]
  | some shared =>
      refine (told _).dropPending shared fun _ => ⟨_, List.mem_append_right _ (List.mem_append_left _
        (List.mem_append_right _ (List.mem_singleton_self _))), .inr rfl, rfl⟩

theorem metadataReceived (mindful : Mindful torrentOf host) {answers : Answers} {handle : Nat}
    (truthful : host.Truthful torrentOf answers) (known : handle ∈ host.known)
    (served : ∃ files, answers.files handle = .ok files) :
    Mindful torrentOf { host with backend := (host.backend.handleMetadata answers handle).1 } := by
  have tells : ∀ event, Mindful torrentOf { host with backend := host.backend.emit event } :=
    fun event => mindful.recalls (.ofIncidental (BackendState.emit_incidental _ event)) rfl
      (fun _ known => known) rfl fun _ told => told
  unfold BackendState.handleMetadata
  simp only
  split
  · exact mindful
  · cases owner : answers.userdata handle with
    | none =>
        obtain ⟨files, answered⟩ := served
        simp only [BackendState.emitMetadata, BackendState.metadataEvent, answered, Option.map_none]
        exact (tells _).recalls (.ofIncidental (BackendState.requestResumeSave_incidental _ answers handle))
          rfl (fun _ known => known) rfl fun _ told => told
    | some context =>
        have made : host.creator handle = some context := by
          rcases truthful.userdata handle with own | gone
          · exact own.symm.trans owner
          · simp [owner] at gone
        obtain ⟨event, kind, request, result⟩ :=
          BackendState.emitMetadata_eq host.backend context .cold served
        rw [result]
        have marked := (tells event).setEmitted context
          ⟨event, List.mem_append_right _ (List.mem_append_left _ (List.mem_append_right _
            (List.mem_singleton_self event))), .inl kind, request⟩
          (fun other created => by rwa [mindful.creators other handle context created made])
          fun _ => ⟨handle, made⟩
        exact marked.recalls (.ofIncidental (BackendState.requestResumeSave_incidental _ answers handle))
          rfl (fun _ known => known) rfl fun _ told => told

theorem retire (mindful : Mindful torrentOf host) {id : String}
    (unknown : host.backend.handles.lookup id = none)
    (old : ∀ context, host.backend.active.lookup id = some context →
      host.Answered (host.backend.contexts context).requestId) :
    Mindful torrentOf { host with backend := host.backend.retire id } := by
  unfold BackendState.retire
  split
  · exact mindful
  · rename_i context found
    have kept : ∀ query other, (host.backend.active.erase id).lookup query = some other →
        query ≠ id ∧ host.backend.active.lookup query = some other := by
      intro query other present
      rw [AList.lookup_erase_ite] at present
      split at present
      · simp at present
      · rename_i different
        exact ⟨different, present⟩
    have others : ∀ query other, query ≠ id → host.backend.active.lookup query = some other →
        (host.backend.active.erase id).lookup query = some other := by
      intro query other different present
      rw [AList.lookup_erase_ite, if_neg different]
      exact present
    refine ⟨mindful.pendingBound, fun query other present => ?_, mindful.creatorBound, mindful.creators,
      mindful.created, fun query other present => ?_, fun query handle present => ?_, mindful.known,
      mindful.emitted, fun other held => ?_, fun request member => ?_⟩
    · exact mindful.activeBound query other (kept query other present).2
    · exact mindful.active query other (kept query other present).2
    · have different : query ≠ id := by
        rintro rfl
        simp [unknown] at present
      obtain ⟨owner, creator, made, held⟩ := mindful.handles query handle present
      exact ⟨owner, creator, made, held.imp_right (others query creator different)⟩
    · refine mindful.answered other (held.imp_right ?_)
      exact fun ⟨query, present⟩ => ⟨query, (kept query other present).2⟩
    · rcases mindful.accepted request member with answered | ⟨other, held, same, torrent⟩
      · exact .inl answered
      · rcases held with pending | present
        · exact .inr ⟨other, .inl pending, same, torrent⟩
        · by_cases here : request.2 = id
          · rw [← same]
            exact .inl (old other (here ▸ present))
          · exact .inr ⟨other, .inr (others request.2 other here present), same, torrent⟩

theorem forget (mindful : Mindful torrentOf host) {id : String} {next : BackendState}
    (recalls : Recalls { host.backend with handles := host.backend.handles.erase id } next) :
    Mindful torrentOf { host with backend := next } := by
  have erased : Mindful torrentOf { host with backend := { host.backend with
      handles := host.backend.handles.erase id } } := by
    refine { mindful with handles := fun query handle present => ?_ }
    rw [AList.lookup_erase_ite] at present
    split at present
    · simp at present
    · exact mindful.handles query handle present
  exact erased.recalls recalls rfl (fun _ known => known) rfl fun _ told => told

theorem removed (mindful : Mindful torrentOf host) {answers : Answers} {context : Option Nat}
    {hashId : String} (sequential : host.Sequential (.alert answers (.torrentRemoved context hashId))) :
    Mindful torrentOf { host with backend := host.backend.handleRemoved answers context hashId } := by
  have old := sequential.2
  unfold BackendState.handleRemoved
  simp only at old ⊢
  generalize host.backend.idOf context hashId = id at old ⊢
  have cleaned : ∀ event removals, Recalls
      { host.backend with handles := host.backend.handles.erase id }
      ((({ host.backend.emit event with
        pendingCacheRemovals := host.backend.pendingCacheRemovals.filter fun other => other ≠ id
        pendingCacheUnloads := host.backend.pendingCacheUnloads.filter fun other => other ≠ id
        pendingRemovals := removals
        handles := host.backend.handles.erase id
        warmSince := host.backend.warmSince.erase id
        quiescedTorrents := host.backend.quiescedTorrents.filter fun other => other ≠ id }.work
          (.remove answers.lt id)).dropPrepare id).forgetResumeSave context) := by
    intro event removals
    have told := Recalls.ofIncidental (BackendState.emit_incidental
      { host.backend with handles := host.backend.handles.erase id } event)
    refine (told.trans ?_).trans (.ofIncidental (BackendState.forgetResumeSave_incidental _ context))
    exact .elsewhere rfl
  have finishes : ∀ current, Recalls { host.backend with handles := host.backend.handles.erase id } current →
      Mindful torrentOf { host with backend :=
        if answers.disk.reading = true then
          { current.retire id with nextDiskCacheCheck := answers.lt.now + 1000 }
        else (current.retire id).enforceDiskCache answers } := by
    intro current recalls
    have retired : Mindful torrentOf { host with backend := current.retire id } := by
      refine (mindful.forget recalls).retire ?_ fun shared found => ?_
      · rw [recalls.handles]
        exact AList.lookup_erase _ _
      · rw [recalls.requestId]
        refine (old shared (recalls.active ▸ found)).mono fun event member => ?_
        rcases List.mem_append.mp member with before | rest
        · exact List.mem_append_left _ before
        · exact List.mem_append_right _ (recalls.told event rest)
    split
    · exact retired.recalls (.ofIncidental (.bookkeeping rfl)) rfl (fun _ known => known) rfl
        fun _ told => told
    · exact retired.recalls (.ofIncidental (BackendState.enforceDiskCache_incidental _ answers)) rfl
        (fun _ known => known) rfl fun _ told => told
  refine finishes _ ?_
  split
  · exact cleaned _ _
  · exact (cleaned _ _).trans (.ofIncidental
      (BackendState.eraseResume_incidental _ answers id (BackendState.emit_incidental _) _))

theorem collected {outcome : BackendState.Outcome} (returned : outcome.2 = none)
    (mindful : Mindful torrentOf { host with backend := outcome.1 }) :
    Mindful torrentOf (host.collect outcome) := by
  obtain ⟨backend, thrown⟩ := outcome
  cases thrown with
  | none => exact mindful
  | some thrown => simp at returned

theorem alert (mindful : Mindful torrentOf host) {answers : Answers} {alert : BackendAlert}
    (truthful : host.Truthful torrentOf answers) (possible : host.AlertPossible torrentOf alert)
    (sequential : host.Sequential (.alert answers alert)) :
    Mindful torrentOf (host.perform (.alert answers alert)) := by
  have recalled : ∀ next, Recalls host.backend next → Mindful torrentOf { host with backend := next } :=
    fun next recalls => mindful.recalls recalls rfl (fun _ known => known) rfl fun _ told => told
  refine collected (BackendState.handleAlert_returns sequential.1) ?_
  cases alert with
  | added context handle error =>
      cases error with
      | none => exact mindful.added truthful possible sequential
      | some message => exact mindful.refused answers context handle message
  | metadataReceived handle => exact mindful.metadataReceived truthful possible sequential.1
  | torrentError handle message =>
      exact recalled _ (.ofIncidental (BackendState.handleError_incidental _ answers handle message))
  | fileError handle message =>
      exact recalled _ (BackendState.handleFileError_recalls _ answers handle message)
  | filePriority handle error =>
      exact recalled _ (BackendState.handleFilePriority_recalls _ answers handle error)
  | resumeSaved handle =>
      exact recalled _ (.ofIncidental (BackendState.handleResumeSaved_incidental _ answers handle))
  | resumeSaveFailed handle notModified message =>
      exact recalled _ (.ofIncidental
        (BackendState.handleResumeSaveFailed_incidental _ answers handle notModified message))
  | torrentFinished handle =>
      exact recalled _ (.ofIncidental (BackendState.requestResumeSave_incidental _ answers handle))
  | torrentRemoved context hashId => exact mindful.removed sequential
  | readPiece alert => exact recalled _ (BackendState.work_recalls _ _)
  | blockFinished torrentId piece block => exact recalled _ (BackendState.work_recalls _ _)
  | hashFailed torrentId piece => exact recalled _ (BackendState.work_recalls _ _)
  | dhtBootstrap =>
      have ready : Incidental host.backend { host.backend with dhtReady := true } := .bookkeeping rfl
      exact recalled _ (.ofIncidental (ready.trans
        (BackendState.announceEach_incidental answers (fun _ => rfl) _ _)))

theorem create (mindful : Mindful torrentOf host) {handle context : Nat}
    (possible : host.Possible torrentOf (.create handle context)) :
    Mindful torrentOf (host.perform (.create handle context)) := by
  obtain ⟨unused, unmade, pending, torrent⟩ := possible
  have made : ∀ other shared, Function.update host.creator handle (some context) other = some shared →
      (other = handle ∧ shared = context) ∨ (other ≠ handle ∧ host.creator other = some shared) := by
    intro other shared created
    rw [Function.update_apply] at created
    split at created
    · rename_i same
      exact .inl ⟨same, (Option.some.inj created).symm⟩
    · rename_i different
      exact .inr ⟨different, created⟩
  refine { mindful with
    creatorBound := fun other shared created => ?_
    creators := fun first second shared left right => ?_
    created := fun other shared created => ?_
    handles := fun id other found => ?_
    known := fun other shared created emitted => ?_
    emitted := fun shared member emitted => ?_ }
  · rcases made other shared created with ⟨_, rfl⟩ | ⟨_, before⟩
    · exact mindful.pendingBound _ pending
    · exact mindful.creatorBound other shared before
  · rcases made first shared left with ⟨rfl, rfl⟩ | ⟨_, before⟩
    · rcases made second _ right with ⟨same, _⟩ | ⟨_, later⟩
      · exact same.symm
      · exact absurd later (unmade second)
    · rcases made second shared right with ⟨_, rfl⟩ | ⟨_, later⟩
      · exact absurd before (unmade first)
      · exact mindful.creators first second shared before later
  · rcases made other shared created with ⟨rfl, rfl⟩ | ⟨_, before⟩
    · exact torrent.symm
    · exact mindful.created other shared before
  · obtain ⟨owner, creator, created, held⟩ := mindful.handles id other found
    refine ⟨owner, creator, ?_, held⟩
    have different : other ≠ handle := by
      rintro rfl
      simp [unused] at created
    simp only [Host.perform, Function.update_of_ne different]
    exact created
  · rcases made other shared created with ⟨_, rfl⟩ | ⟨_, before⟩
    · obtain ⟨earlier, created⟩ := mindful.emitted _ pending emitted
      exact absurd created (unmade earlier)
    · exact mindful.known other shared before emitted
  · obtain ⟨other, created⟩ := mindful.emitted shared member emitted
    have different : other ≠ handle := by
      rintro rfl
      simp [unused] at created
    exact ⟨other, by simpa only [Host.perform, Function.update_of_ne different] using created⟩

theorem takeQueued (mindful : Mindful torrentOf host) : Mindful torrentOf (host.perform .takeQueued) := by
  have told : ∀ event ∈ host.told, event ∈ (host.perform .takeQueued).told := by
    intro event member
    simpa [Host.told, Host.perform, BackendState.takeQueued, or_assoc] using member
  exact ⟨mindful.pendingBound, mindful.activeBound, mindful.creatorBound, mindful.creators,
    mindful.created, mindful.active, mindful.handles, mindful.known, mindful.emitted,
    fun context kept emitted => (mindful.answered context kept emitted).mono told,
    fun request member => (mindful.accepted request member).imp_left fun answered => answered.mono told⟩

theorem perform (mindful : Mindful torrentOf host) {action : HostAction}
    (possible : host.Possible torrentOf action) (sequential : host.Sequential action) :
    Mindful torrentOf (host.perform action) := by
  cases action with
  | addTorrent answers requestId parsed => exact mindful.addTorrent possible.2 sequential
  | prepareFile answers requestId id fileIndex file =>
      exact mindful.command requestId (BackendState.prepareFile_recalls ..)
  | removeTorrent answers requestId id =>
      exact mindful.command requestId (BackendState.removeTorrent_recalls ..)
  | stopStream answers requestId streamId =>
      have stopped : Mindful torrentOf (host.command requestId
          (host.backend.stopStream answers requestId streamId, none)) :=
        mindful.command requestId (BackendState.stopStream_recalls ..)
      exact stopped
  | pollStreams answers polled =>
      exact mindful.recalls (BackendState.pollStreams_recalls ..) rfl (fun _ known => known) rfl
        fun _ told => told
  | takeQueued => exact mindful.takeQueued
  | alert answers alert => exact mindful.alert possible.1 possible.2.1 sequential
  | periodic answers =>
      exact collected (BackendState.runPeriodicSteps_returns sequential _)
        (mindful.recalls (BackendState.runPeriodicSteps_recalls ..) rfl (fun _ known => known) rfl
          fun _ told => told)
  | reclaimDiskCache requestId targetBytes =>
      exact mindful.command requestId
        (.ofIncidental (BackendState.reclaimDiskCache_incidental _ requestId targetBytes))
  | create handle context => exact mindful.create possible
  | learnMetadata handle =>
      exact mindful.recalls (.refl _) rfl (fun _ known => List.mem_cons_of_mem _ known) rfl
        fun _ told => told
  | lose handle => exact mindful.recalls (.refl _) rfl (fun _ known => known) rfl fun _ told => told
  | http action =>
      exact mindful.recalls (BackendState.work_recalls ..) rfl (fun _ known => known) rfl
        fun _ told => told

end Mindful

/-- A run in which no request takes the place of another one. -/
def Host.ReachableSequential (torrentOf : Nat → String) : Host → Prop :=
  Transition.Reachable Host.Initial
    (fun host action => host.Possible torrentOf action ∧ host.Sequential action) Host.perform

/-- In every run in which no request takes the place of another one, an accepted add request that is
not answered is recorded, so that the metadata event of its torrent will bear it. -/
theorem reachable_recorded {torrentOf : Nat → String} {host : Host}
    (reached : host.ReachableSequential torrentOf) {requestId : Nat} {id : String}
    (accepted : (requestId, id) ∈ host.accepted) (unanswered : ¬ host.Answered requestId) :
    host.Recorded requestId id := by
  have mindful : Mindful torrentOf host :=
    reached.invariant (fun _ begins => Mindful.initial begins)
      fun _ _ mindful enabled => mindful.perform enabled.1 enabled.2
  exact mindful.recorded accepted unanswered

instance (host : Host) (requestId : Nat) : Decidable (host.Answered requestId) :=
  inferInstanceAs (Decidable (∃ event ∈ host.told,
    (event.type = .metadataReady ∨ event.type = .torrentError) ∧ event.requestId = requestId))

/-- A magnet link is added, and libtorrent has no metadata yet. -/
def waiting : List (Host → HostAction) := [
  fun host => .addTorrent host.twoAnswers 1 (.ok ⟨twoTorrents 7, false⟩),
  fun _ => .create 7 0,
  fun host => .alert host.twoAnswers (.added (some 0) 7 none)]

theorem waiting_reached :
    (Transition.follow Host.perform waiting Host.start).ReachableSequential twoTorrents := by
  refine (Transition.Reachable.start Host.start_initial).follow ?_
  refine ⟨⟨⟨by decide, Host.answers_truthful ..⟩, fun handle context found => ?_⟩,
    ⟨⟨rfl, fun other => ?_, by decide +kernel, by decide +kernel⟩, trivial⟩,
    ⟨⟨Host.answers_truthful .., ⟨0, rfl, by decide +kernel, by decide +kernel, by decide +kernel,
      .inl (by decide +kernel), .inr (by decide +kernel)⟩, by decide +kernel⟩,
      ⟨⟨false, by decide +kernel⟩, ⟨_, rfl⟩, rfl⟩, fun _ other found => ?_, fun other => ?_⟩, trivial⟩
  · simp [BackendState.validHandle, Host.start] at found
  · rw [Host.perform, Host.accept_creator]
    simp [Host.start]
  · rw [AList.lookup_of_isEmpty (by decide +kernel)] at found
    simp at found
  · exact absurd (by decide +kernel) other

/-- The request waits for the metadata in the active context. -/
theorem reachable_recorded_waiting :
    ∃ host : Host, host.ReachableSequential twoTorrents ∧ (1, twoTorrents 7) ∈ host.accepted ∧
      ¬ host.Answered 1 ∧ host.Recorded 1 (twoTorrents 7) :=
  ⟨_, waiting_reached, by decide +kernel, by decide +kernel,
    reachable_recorded waiting_reached (by decide +kernel) (by decide +kernel)⟩

/-- The torrent is added again. -/
def repeated : List (Host → HostAction) := [
  fun host => .addTorrent host.twoAnswers 2 (.ok ⟨twoTorrents 7, false⟩)]

/-- The second request takes the place of the first one, which is forgotten. -/
theorem recorded_fails_repeated :
    ∃ host : Host, host.Reachable twoTorrents ∧ (1, twoTorrents 7) ∈ host.accepted ∧
      ¬ host.Answered 1 ∧ ∀ context, (context ∈ host.backend.pending ∨
        ∃ id, host.backend.active.lookup id = some context) →
          (host.backend.contexts context).requestId ≠ 1 := by
  have before : (Transition.follow Host.perform waiting Host.start).Reachable twoTorrents :=
    waiting_reached.mono fun _ _ enabled => enabled.1
  have reached : (Transition.follow Host.perform repeated
      (Transition.follow Host.perform waiting Host.start)).Reachable twoTorrents :=
    before.follow ⟨⟨by decide +kernel, Host.answers_truthful ..⟩, trivial⟩
  have pending : (Transition.follow Host.perform repeated
      (Transition.follow Host.perform waiting Host.start)).backend.pending = [] := by decide +kernel
  have active : (Transition.follow Host.perform repeated
      (Transition.follow Host.perform waiting Host.start)).backend.active.entries =
        [⟨twoTorrents 7, 0⟩] := by decide +kernel
  refine ⟨_, reached, by decide +kernel, by decide +kernel, fun context kept => ?_⟩
  have only : context = 0 := by
    rcases kept with member | ⟨id, found⟩
    · simp [pending] at member
    · rw [AList.lookup_eq_some_iff, active] at found
      simpa using (Sigma.mk.inj (List.mem_singleton.mp found)).2
  rw [only]
  decide +kernel

end NuvioEngine.Backend
