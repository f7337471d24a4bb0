import NuvioEngine.Backend.Speaks

/-!
Every `prepare_file` request is answered once: while its preparation is pending it has no answer, and
afterwards one `stream_prepared` or `torrent_error` event. This holds in every run in which
`torrent_removed` finds no preparation of its torrent, and the first alert that finds one breaks it.
-/

namespace NuvioEngine.Backend

open NuvioEngine.Bridge NuvioEngine.Stream NuvioEngine.Cache BridgeState BackendState

def isAnswer (requestId : Nat) (event : BackendEvent) : Bool :=
  event.requestId = requestId && (event.type = .streamPrepared || event.type = .torrentError)

def answersTo (requestId : Nat) (events : List BackendEvent) : Nat := events.countP (isAnswer requestId)

/-- The answers that the backend has collected or queued. -/
def collected (backend : BackendState) (requestId : Nat) : Nat :=
  answersTo requestId backend.events + answersTo requestId backend.queuedEvents

def Pending (backend : BackendState) (requestId : Nat) : Prop :=
  ∃ id prepare, backend.pendingPrepares.lookup id = some prepare ∧ prepare.requestId = requestId

/-- A pending request has no answer, here or elsewhere, and one that is not pending has one. -/
def Settled (backend : BackendState) (elsewhere : List BackendEvent) (requestId : Nat) : Prop :=
  (Pending backend requestId ∧ answersTo requestId elsewhere + collected backend requestId = 0) ∨
    (¬ Pending backend requestId ∧ answersTo requestId elsewhere + collected backend requestId = 1)

/-- The host with the `prepare_file` requests so far, and the events that were collected by calls of
`pop_events` that threw. -/
structure Ledger where
  host : Host
  prepares : List Nat := []
  lost : List BackendEvent := []

def lostBy : BackendState.Outcome → List BackendEvent
  | (_, none) => []
  | (backend, some _) => backend.events

namespace Ledger

def perform (ledger : Ledger) (action : HostAction) : Ledger where
  host := ledger.host.perform action
  prepares := match action with
    | .prepareFile _ requestId _ _ _ => requestId :: ledger.prepares
    | _ => ledger.prepares
  lost := match action with
    | .alert answers alert => ledger.lost ++ lostBy (ledger.host.backend.handleAlert answers alert)
    | .periodic answers => ledger.lost ++ lostBy (ledger.host.backend.runPeriodicSteps answers)
    | _ => ledger.lost

variable (torrentOf : Nat → String)

def Possible (ledger : Ledger) (action : HostAction) : Prop := ledger.host.Possible torrentOf action

def Initial (ledger : Ledger) : Prop := ∃ host : Host, host.Initial ∧ ledger = { host := host }

def Reachable : Ledger → Prop := Transition.Reachable Initial (Possible torrentOf) perform

def elsewhere (ledger : Ledger) : List BackendEvent := ledger.host.published ++ ledger.lost

def Answered (ledger : Ledger) : Prop :=
  ∀ requestId ∈ ledger.prepares, Settled ledger.host.backend ledger.elsewhere requestId

/-- A torrent that is removed is not being prepared. -/
def Unprepared (ledger : Ledger) : HostAction → Prop
  | .alert _ (.torrentRemoved context hashId) =>
      ledger.host.backend.pendingPrepares.lookup (ledger.host.backend.idOf context hashId) = none
  | _ => True

def ReachableUnprepared : Ledger → Prop :=
  Transition.Reachable Initial (fun ledger action => ledger.Possible torrentOf action ∧
    ledger.Unprepared action) perform

end Ledger

section Counting

variable {requestId : Nat}

@[simp]
theorem answersTo_nil : answersTo requestId [] = 0 := rfl

@[simp]
theorem answersTo_append (first second : List BackendEvent) :
    answersTo requestId (first ++ second) = answersTo requestId first + answersTo requestId second := by
  simp [answersTo]

theorem answersTo_eq_zero {events : List BackendEvent}
    (others : ∀ event ∈ events, event.requestId ≠ requestId) : answersTo requestId events = 0 := by
  rw [answersTo, List.countP_eq_zero]
  intro event member
  simp [isAnswer, others event member]

theorem answersTo_answer {event : BackendEvent}
    (kind : event.type = .streamPrepared ∨ event.type = .torrentError)
    (own : event.requestId = requestId) (other : Nat) :
    answersTo other [event] = if other = requestId then 1 else 0 := by
  by_cases same : other = requestId
  · simp [answersTo, isAnswer, own, same, kind]
  · simp [answersTo, isAnswer, own, same, Ne.symm same]

end Counting

theorem Speaks.heard {requestId : Nat} {ids : List String} {before after : BackendState}
    (speaks : Speaks requestId ids before after) {other : Nat} (unknown : ¬ Voice before other)
    (different : other ≠ requestId) : collected after other = collected before other := by
  have unheard : ∀ {more : List BackendEvent}, (∀ event ∈ more, Utters requestId ids before event) →
      answersTo other more = 0 := by
    intro more said
    apply answersTo_eq_zero
    rintro event member rfl
    exact (said event member).1.elim unknown different
  obtain ⟨more, appended, said⟩ := speaks.emitted
  obtain ⟨waiting, queues, waits⟩ := speaks.queued
  rw [collected, collected, appended, queues, answersTo_append, answersTo_append, unheard said,
    unheard waits, Nat.add_zero, Nat.add_zero]

/-- Every preparation is settled. The events that are still to come for requests the backend knows are
for none of the preparations, and later requests have no event yet. -/
structure Kept (backend : BackendState) (elsewhere : List BackendEvent) (last : Nat) (prepares : List Nat) :
    Prop where
  voices : ∀ requestId, Voice backend requestId → requestId ≤ last ∧ requestId ∉ prepares
  bounded : ∀ requestId ∈ prepares, requestId ≤ last
  fresh : ∀ requestId, last < requestId → answersTo requestId elsewhere + collected backend requestId = 0
  entered : ∀ id prepare, backend.pendingPrepares.lookup id = some prepare → prepare.requestId ∈ prepares
  distinct : ∀ id other prepare another, backend.pendingPrepares.lookup id = some prepare →
    backend.pendingPrepares.lookup other = some another → prepare.requestId = another.requestId → id = other
  settled : ∀ requestId ∈ prepares, Settled backend elsewhere requestId

namespace Kept

variable {backend next : BackendState} {elsewhere further : List BackendEvent} {last : Nat}
  {prepares : List Nat}

theorem extend (kept : Kept backend elsewhere last prepares)
    (voices : ∀ requestId, Voice next requestId → requestId ≤ last ∧ requestId ∉ prepares)
    (heard : ∀ requestId, last < requestId ∨ requestId ∈ prepares →
      answersTo requestId further + collected next requestId =
        answersTo requestId elsewhere + collected backend requestId)
    (same : next.pendingPrepares = backend.pendingPrepares) : Kept next further last prepares := by
  refine ⟨voices, kept.bounded, ?_, ?_, ?_, ?_⟩
  · intro requestId later
    rw [heard requestId (Or.inl later)]
    exact kept.fresh requestId later
  · rw [same]
    exact kept.entered
  · rw [same]
    exact kept.distinct
  · intro requestId member
    have settled := kept.settled requestId member
    rw [Settled, ← heard requestId (Or.inr member)] at settled
    simpa only [Settled, Pending, same] using settled

theorem speaks (kept : Kept backend elsewhere last prepares) {requestId : Nat} (old : requestId ≤ last)
    (foreign : requestId ∉ prepares) {ids : List String} (said : Speaks requestId ids backend next) :
    Kept next elsewhere last prepares := by
  refine kept.extend ?_ ?_ said.prepares
  · intro other voice
    rcases said.voices other voice with known | rfl
    · exact kept.voices other known
    · exact ⟨old, foreign⟩
  · intro other whose
    rw [said.heard]
    · intro voice
      obtain ⟨bound, outside⟩ := kept.voices other voice
      exact whose.elim (Nat.not_lt.mpr bound) outside
    · rintro rfl
      exact whose.elim (Nat.not_lt.mpr old) foreign

theorem zero (kept : Kept backend elsewhere last prepares) : 0 ∉ prepares :=
  (kept.voices 0 (Or.inl rfl)).2

theorem tells (kept : Kept backend elsewhere last prepares) (told : Tells backend next) :
    Kept next elsewhere last prepares :=
  kept.speaks (Nat.zero_le last) kept.zero (Speaks.ofTells told : Speaks 0 [] backend next)

theorem advance (kept : Kept backend elsewhere last prepares) {requestId : Nat} (later : last < requestId) :
    Kept backend elsewhere requestId prepares ∧ requestId ∉ prepares := by
  refine ⟨⟨?_, ?_, ?_, kept.entered, kept.distinct, kept.settled⟩, ?_⟩
  · intro other voice
    obtain ⟨bound, outside⟩ := kept.voices other voice
    exact ⟨Nat.le_trans bound (Nat.le_of_lt later), outside⟩
  · intro other member
    exact Nat.le_trans (kept.bounded other member) (Nat.le_of_lt later)
  · intro other beyond
    exact kept.fresh other (Nat.lt_trans later beyond)
  · intro member
    exact Nat.not_lt.mpr (kept.bounded requestId member) later

theorem publish (kept : Kept backend elsewhere last prepares) (event : BackendEvent)
    (old : event.requestId ≤ last) (foreign : event.requestId ∉ prepares)
    (adds : ∀ requestId, answersTo requestId further =
      answersTo requestId elsewhere + answersTo requestId [event]) :
    Kept backend further last prepares := by
  refine kept.extend kept.voices ?_ rfl
  intro requestId whose
  have other : answersTo requestId [event] = 0 := by
    apply answersTo_eq_zero
    intro spoken member same
    rw [List.mem_singleton.mp member] at same
    rw [← same] at whose
    exact whose.elim (Nat.not_lt.mpr old) foreign
  rw [adds, other, Nat.add_zero]

theorem conclude (kept : Kept backend elsewhere last prepares) {id : String} {prepare : PendingPrepare}
    (found : backend.pendingPrepares.lookup id = some prepare)
    (voices : ∀ requestId, Voice next requestId → Voice backend requestId)
    (heard : ∀ requestId, collected next requestId =
      collected backend requestId + if requestId = prepare.requestId then 1 else 0)
    (dropped : next.pendingPrepares = backend.pendingPrepares.erase id) :
    Kept next elsewhere last prepares := by
  have remaining : ∀ {other : String} {another : PendingPrepare},
      next.pendingPrepares.lookup other = some another →
        other ≠ id ∧ backend.pendingPrepares.lookup other = some another := by
    intro other another present
    rw [dropped, AList.lookup_erase_ite] at present
    split at present
    · simp at present
    · rename_i different
      exact ⟨different, present⟩
  have own := kept.entered id prepare found
  refine ⟨fun requestId voice => kept.voices requestId (voices requestId voice), kept.bounded, ?_, ?_, ?_, ?_⟩
  · intro requestId later
    have different : requestId ≠ prepare.requestId := by
      rintro rfl
      exact Nat.not_lt.mpr (kept.bounded _ own) later
    rw [heard, if_neg different]
    exact kept.fresh requestId later
  · intro other another present
    exact kept.entered other another (remaining present).2
  · intro other query another third present again same
    exact kept.distinct other query another third (remaining present).2 (remaining again).2 same
  · intro requestId member
    by_cases same : requestId = prepare.requestId
    · subst same
      have unanswered : answersTo prepare.requestId elsewhere + collected backend prepare.requestId = 0 := by
        rcases kept.settled _ own with ⟨_, none⟩ | ⟨absent, _⟩
        · exact none
        · exact absurd ⟨id, prepare, found, rfl⟩ absent
      refine Or.inr ⟨?_, ?_⟩
      · rintro ⟨other, another, present, same⟩
        obtain ⟨different, before⟩ := remaining present
        exact different (kept.distinct other id another prepare before found same)
      · rw [heard, if_pos rfl]
        omega
    · have pending : Pending next requestId ↔ Pending backend requestId := by
        constructor
        · rintro ⟨other, another, present, wanted⟩
          exact ⟨other, another, (remaining present).2, wanted⟩
        · rintro ⟨other, another, present, wanted⟩
          refine ⟨other, another, ?_, wanted⟩
          rw [dropped, AList.lookup_erase_ite, if_neg ?_]
          · exact present
          · rintro rfl
            rw [found] at present
            rw [← Option.some.inj present] at wanted
            exact same wanted.symm
      have settled := kept.settled requestId member
      simpa only [Settled, pending, heard, if_neg same, Nat.add_zero] using settled

theorem voices_cons (kept : Kept backend elsewhere last prepares) {requestId other : Nat}
    (later : last < requestId) (voice : Voice backend other) :
    other ≤ requestId ∧ other ∉ requestId :: prepares := by
  obtain ⟨bound, outside⟩ := kept.voices other voice
  have less := Nat.lt_of_le_of_lt bound later
  exact ⟨Nat.le_of_lt less, List.not_mem_cons_of_ne_of_not_mem (Nat.ne_of_lt less) outside⟩

theorem bounded_cons (kept : Kept backend elsewhere last prepares) {requestId : Nat}
    (later : last < requestId) : ∀ other ∈ requestId :: prepares, other ≤ requestId := by
  intro other member
  rcases List.mem_cons.mp member with rfl | old
  · exact Nat.le_refl _
  · exact Nat.le_trans (kept.bounded other old) (Nat.le_of_lt later)

theorem answer (kept : Kept backend elsewhere last prepares) {requestId : Nat} (later : last < requestId)
    (voices : ∀ other, Voice next other → Voice backend other)
    (heard : ∀ other, answersTo other further + collected next other =
      answersTo other elsewhere + collected backend other + if other = requestId then 1 else 0)
    (same : next.pendingPrepares = backend.pendingPrepares) :
    Kept next further requestId (requestId :: prepares) := by
  have pending : ∀ other, Pending next other ↔ Pending backend other := by
    intro other
    rw [Pending, Pending, same]
  have unwanted : ¬ Pending backend requestId := by
    rintro ⟨id, prepare, found, rfl⟩
    exact Nat.not_lt.mpr (kept.bounded _ (kept.entered id prepare found)) later
  refine ⟨?_, ?_, ?_, ?_, ?_, ?_⟩
  · exact fun other voice => kept.voices_cons later (voices other voice)
  · exact kept.bounded_cons later
  · intro other beyond
    rw [heard, if_neg (Nat.ne_of_gt beyond), Nat.add_zero]
    exact kept.fresh other (Nat.lt_trans later beyond)
  · intro id prepare found
    rw [same] at found
    exact List.mem_cons_of_mem _ (kept.entered id prepare found)
  · rw [same]
    exact kept.distinct
  · intro other member
    rcases List.mem_cons.mp member with rfl | old
    · refine Or.inr ⟨(pending other).not.mpr unwanted, ?_⟩
      rw [heard, if_pos rfl, kept.fresh other later]
    · have different : other ≠ requestId := by
        rintro rfl
        exact Nat.not_lt.mpr (kept.bounded other old) later
      simpa only [Settled, pending, heard, if_neg different, Nat.add_zero] using kept.settled other old

theorem enter (kept : Kept backend elsewhere last prepares) {id : String} {prepare : PendingPrepare}
    (later : last < prepare.requestId) (free : backend.pendingPrepares.lookup id = none) :
    Kept { backend with pendingPrepares := backend.pendingPrepares.insert id prepare } elsewhere
      prepare.requestId (prepare.requestId :: prepares) := by
  have present : ∀ {other : String} {another : PendingPrepare},
      (backend.pendingPrepares.insert id prepare).lookup other = some another →
        (other = id ∧ another = prepare) ∨
          (other ≠ id ∧ backend.pendingPrepares.lookup other = some another) := by
    intro other another found
    rw [AList.lookup_insert_ite] at found
    split at found
    · rename_i same
      exact Or.inl ⟨same, (Option.some.inj found).symm⟩
    · rename_i different
      exact Or.inr ⟨different, found⟩
  have older : ∀ {other : String} {another : PendingPrepare},
      backend.pendingPrepares.lookup other = some another → another.requestId ≠ prepare.requestId := by
    intro other another found same
    exact Nat.not_lt.mpr (kept.bounded _ (kept.entered other another found)) (same ▸ later)
  refine ⟨?_, ?_, ?_, ?_, ?_, ?_⟩
  · exact fun _ voice => kept.voices_cons later voice
  · exact kept.bounded_cons later
  · intro other beyond
    exact kept.fresh other (Nat.lt_trans later beyond)
  · intro other another found
    rcases present found with ⟨_, rfl⟩ | ⟨_, before⟩
    · exact List.mem_cons_self
    · exact List.mem_cons_of_mem _ (kept.entered other another before)
  · intro other query another third found again same
    rcases present found with ⟨rfl, rfl⟩ | ⟨_, before⟩
    · rcases present again with ⟨rfl, _⟩ | ⟨_, old⟩
      · rfl
      · exact absurd same.symm (older old)
    · rcases present again with ⟨_, rfl⟩ | ⟨_, old⟩
      · exact absurd same (older before)
      · exact kept.distinct other query another third before old same
  · intro other member
    rcases List.mem_cons.mp member with rfl | old
    · exact Or.inl ⟨⟨id, prepare, AList.lookup_insert _, rfl⟩, kept.fresh _ later⟩
    · have pending : Pending { backend with
          pendingPrepares := backend.pendingPrepares.insert id prepare } other ↔
            Pending backend other := by
        constructor
        · rintro ⟨query, another, found, wanted⟩
          rcases present found with ⟨_, rfl⟩ | ⟨_, before⟩
          · exact absurd (wanted ▸ kept.bounded other old) (Nat.not_le.mpr later)
          · exact ⟨query, another, before, wanted⟩
        · rintro ⟨query, another, found, wanted⟩
          refine ⟨query, another, ?_, wanted⟩
          rw [AList.lookup_insert_ite, if_neg ?_]
          · exact found
          · rintro rfl
            rw [free] at found
            simp at found
      have settled := kept.settled other old
      rw [Settled, ← pending] at settled
      exact settled

theorem concludes (kept : Kept backend elsewhere last prepares) {id : String} {prepare : PendingPrepare}
    (found : backend.pendingPrepares.lookup id = some prepare)
    (concludes : Concludes id prepare.requestId backend next) : Kept next elsewhere last prepares := by
  obtain ⟨middle, event, final, told, kind, own, telling, rfl⟩ := concludes
  have answered : Kept ((middle.emit event).dropPrepare id) elsewhere last prepares := by
    refine (kept.tells told).conclude (told.prepares ▸ found) (fun _ voice => voice) ?_ rfl
    intro requestId
    simp only [collected, dropPrepare, BackendState.emit, answersTo_append, answersTo_answer kind own]
    omega
  exact answered.tells (telling.dropPrepare id)

theorem removed (kept : Kept backend elsewhere last prepares) (answers : Answers) {context : Option Nat}
    {hashId : String} (idle : backend.pendingPrepares.lookup (backend.idOf context hashId) = none) :
    Kept (backend.handleRemoved answers context hashId) elsewhere last prepares := by
  obtain ⟨middle, told, telling⟩ := handleRemoved_tells backend answers context hashId
  have same : middle.pendingPrepares.erase (backend.idOf context hashId) = middle.pendingPrepares := by
    rw [told.prepares]
    exact AList.erase_of_lookup idle
  have left := kept.tells told
  have dropped : Kept { middle.dropPrepare (backend.idOf context hashId) with
      handles := middle.handles.erase (backend.idOf context hashId) } elsewhere last prepares :=
    left.extend left.voices (fun _ _ => rfl) same
  exact dropped.tells telling

theorem forsaken (kept : Kept backend elsewhere last prepares) (answers : Answers) {context : Option Nat}
    {hashId : String} {prepare : PendingPrepare}
    (found : backend.pendingPrepares.lookup (backend.idOf context hashId) = some prepare) :
    ¬ Settled (backend.handleRemoved answers context hashId) elsewhere prepare.requestId := by
  obtain ⟨middle, told, telling⟩ := handleRemoved_tells backend answers context hashId
  have before := kept.tells told
  rw [← told.prepares] at found
  have own := before.entered _ prepare found
  have silent : ¬ Voice middle prepare.requestId := fun voice => (before.voices _ voice).2 own
  have heard : collected (backend.handleRemoved answers context hashId) prepare.requestId =
      collected middle prepare.requestId :=
    (Speaks.ofTells telling : Speaks 0 [] _ _).heard silent fun zero => silent (Or.inl zero)
  rintro (⟨⟨other, another, present, same⟩, _⟩ | ⟨_, once⟩)
  · rw [telling.prepares, dropPrepare, AList.lookup_erase_ite] at present
    split at present
    · simp at present
    · rename_i different
      exact different (before.distinct _ _ _ _ present found same)
  · rw [heard] at once
    rcases before.settled _ own with ⟨_, none⟩ | ⟨absent, _⟩
    · omega
    · exact absent ⟨_, prepare, found, rfl⟩

theorem handleAdded (kept : Kept backend elsewhere last prepares) (answers : Answers)
    (context : Option Nat) (handle : Nat) (error : Option String) :
    Kept (backend.handleAdded answers context handle error).1 elsewhere last prepares := by
  have known : Kept { backend with
      handles := backend.handles.insert (answers.torrentId handle) handle } elsewhere last prepares :=
    kept.extend kept.voices (fun _ _ => rfl) rfl
  rcases handleAdded_cases backend answers context handle error with
    told | ⟨_, middle, told, same | ⟨event, _, _, voiced, telling⟩⟩
  · exact kept.tells told
  · rw [same]
    exact known.tells told
  · obtain ⟨old, foreign⟩ := kept.voices _ voiced
    have said : Speaks event.requestId [event.torrentId] middle (middle.emit event) :=
      .emit middle event ⟨Or.inr rfl, fun _ => List.mem_singleton_self _⟩
    exact ((known.tells told).speaks old foreign said).tells telling

theorem handleAlert (kept : Kept backend elsewhere last prepares) (answers : Answers)
    {received : BackendAlert} (unprepared : ∀ context hashId, received = .torrentRemoved context hashId →
      backend.pendingPrepares.lookup (backend.idOf context hashId) = none) :
    Kept (backend.handleAlert answers received).1 elsewhere last prepares := by
  cases received with
  | added context handle error => exact kept.handleAdded answers context handle error
  | fileError handle message =>
      rcases handleFileError_cases backend answers handle message with
        ⟨_, same⟩ | ⟨prepare, found, concludes⟩
      · rw [BackendState.handleAlert, same]
        exact kept
      · exact kept.concludes found concludes
  | filePriority handle error =>
      rcases handleFilePriority_cases backend answers handle error with
        ⟨_, same⟩ | ⟨prepare, found, ⟨concludes, _⟩ | ⟨told, _⟩⟩
      · rw [BackendState.handleAlert, same]
        exact kept
      · exact kept.concludes found concludes
      · exact kept.tells told
  | torrentRemoved context hashId => exact kept.removed answers (unprepared context hashId rfl)
  | _ => exact kept.tells (handleAlert_tells backend answers rfl)

theorem collect {host : Host} {outcome : BackendState.Outcome} {lost : List BackendEvent}
    (kept : Kept outcome.1 (host.published ++ lost) host.lastRequest prepares) :
    Kept (host.collect outcome).backend ((host.collect outcome).published ++ (lost ++ lostBy outcome))
      (host.collect outcome).lastRequest prepares := by
  obtain ⟨after, thrown⟩ := outcome
  cases thrown with
  | none => simpa [Host.collect, lostBy] using kept
  | some thrown =>
      refine kept.extend kept.voices ?_ rfl
      intro requestId _
      simp only [Host.collect, lostBy, collected, answersTo_append, answersTo_nil]
      omega

theorem command {host : Host} {requestId : Nat} {outcome : BackendState.Outcome} {lost : List BackendEvent}
    (kept : Kept outcome.1 (host.published ++ lost) requestId prepares) (foreign : requestId ∉ prepares) :
    Kept (host.command requestId outcome).backend ((host.command requestId outcome).published ++ lost)
      (host.command requestId outcome).lastRequest prepares := by
  obtain ⟨after, thrown⟩ := outcome
  cases thrown with
  | none => exact kept
  | some thrown =>
      refine kept.publish {
        type := .torrentError
        requestId := requestId
        torrentId := ""
        message := messageOf thrown } (Nat.le_refl _) foreign ?_
      intro other
      simp only [Host.command, answersTo_append]
      omega

theorem spoken {host : Host} {requestId : Nat} {outcome : BackendState.Outcome} {lost : List BackendEvent}
    (kept : Kept host.backend (host.published ++ lost) host.lastRequest prepares)
    (later : host.lastRequest < requestId) {ids : List String}
    (said : Speaks requestId ids host.backend outcome.1) :
    Kept (host.command requestId outcome).backend ((host.command requestId outcome).published ++ lost)
      (host.command requestId outcome).lastRequest prepares := by
  obtain ⟨advanced, foreign⟩ := kept.advance later
  exact (advanced.speaks (Nat.le_refl _) foreign said).command foreign

end Kept

namespace Ledger

variable {torrentOf : Nat → String} {ledger : Ledger}

/-- The invariant of the runs. -/
def Kept (ledger : Ledger) : Prop :=
  Backend.Kept ledger.host.backend ledger.elsewhere ledger.host.lastRequest ledger.prepares

theorem Kept.initial (begins : ledger.Initial) : ledger.Kept := by
  obtain ⟨_, ⟨_, _, _, rfl⟩, rfl⟩ := begins
  refine ⟨?_, by simp, ?_, by simp, by simp, by simp⟩
  · rintro requestId (zero | ⟨_, same⟩ | ⟨_, found⟩ | ⟨_, member, _⟩)
    · exact ⟨Nat.le_of_eq zero, by simp⟩
    · exact ⟨Nat.le_of_eq same.symm, by simp⟩
    · simp at found
    · simp at member
  · intro requestId _
    rfl

theorem Kept.prepareFile (kept : ledger.Kept) (answers : Answers) {requestId : Nat}
    (later : ledger.host.lastRequest < requestId) (id : String) (fileIndex : Nat) (file : TorrentFileInfo) :
    (ledger.perform (.prepareFile answers requestId id fileIndex file)).Kept := by
  have refused : ∀ {stopped : BackendState} (thrown : Thrown), Tells ledger.host.backend stopped →
      Backend.Kept (ledger.host.command requestId (stopped, some thrown)).backend
        ((ledger.host.command requestId (stopped, some thrown)).published ++ ledger.lost) requestId
        (requestId :: ledger.prepares) := by
    intro stopped thrown tells
    refine (kept.tells tells).answer later (fun _ voice => voice) ?_ rfl
    intro other
    have own : answersTo other [{
        type := .torrentError
        requestId := requestId
        torrentId := ""
        message := messageOf thrown }] = if other = requestId then 1 else 0 :=
      answersTo_answer (Or.inr rfl) rfl other
    simp only [Host.command, elsewhere, answersTo_append, own]
    omega
  simp only [Kept, elsewhere, Ledger.perform, Host.perform]
  rcases prepareFile_cases ledger.host.backend answers requestId id fileIndex file with
    ⟨stopped, thrown, tells, result⟩ | ⟨handle, activated, _, _, tells, ends⟩
  · rw [result]
    exact refused thrown tells
  · generalize ledger.host.backend.prepareFile answers requestId id fileIndex file = outcome at ends
    cases ends with
    | throws thrown => exact refused thrown tells
    | seeds free listed inside seeding prepared =>
        obtain ⟨kind, own, _⟩ := preparedEvent_requestId prepared
        change Backend.Kept _ _ requestId _
        refine (kept.tells (tells.trans (preparedEvent_tells prepared))).answer later
          (fun _ voice => voice) ?_ rfl
        intro other
        simp only [Host.command, elsewhere, collected, BackendState.queue, answersTo_append,
          answersTo_answer (Or.inl kind) own]
        omega
    | waits free sent =>
        have told := tells.trans (call_tells sent)
        rw [← (call_tells sent).prepares] at free
        exact (kept.tells told).enter later free

theorem Kept.removeTorrent (kept : ledger.Kept) (answers : Answers) {requestId : Nat}
    (later : ledger.host.lastRequest < requestId) (id : String) :
    (ledger.perform (.removeTorrent answers requestId id)).Kept := by
  simp only [Kept, elsewhere, Ledger.perform, Host.perform]
  rcases removeTorrent_cases ledger.host.backend answers requestId id with
    said | ⟨prepare, middle, event, found, said, kind, own, result⟩
  · exact kept.spoken later said
  · rw [result]
    obtain ⟨advanced, foreign⟩ := kept.advance later
    have before := advanced.speaks (Nat.le_refl _) foreign said
    rw [← said.prepares] at found
    change Backend.Kept ((middle.dropPrepare id).queue event) _ requestId _
    refine before.conclude found (fun _ voice => voice) ?_ rfl
    intro other
    simp only [collected, BackendState.queue, dropPrepare, answersTo_append,
      answersTo_answer (Or.inr kind) own]
    omega

theorem Kept.perform (kept : ledger.Kept) {action : HostAction} (possible : ledger.Possible torrentOf action)
    (unprepared : ledger.Unprepared action) : (ledger.perform action).Kept := by
  cases action with
  | addTorrent answers requestId parsed =>
      obtain ⟨ids, said⟩ := addTorrent_speaks ledger.host.backend answers requestId parsed
      have added := kept.spoken possible.1 said
      simp only [Kept, elsewhere, Ledger.perform, Host.perform]
      unfold Host.accept
      split <;> exact added
  | prepareFile answers requestId id fileIndex file =>
      exact kept.prepareFile answers possible.1 id fileIndex file
  | removeTorrent answers requestId id => exact kept.removeTorrent answers possible.1 id
  | stopStream answers requestId streamId =>
      exact kept.spoken possible.1 (stopStream_speaks ledger.host.backend answers requestId streamId)
  | pollStreams answers polled =>
      exact kept.speaks (Nat.zero_le _) kept.zero
        (pollStreams_speaks ledger.host.backend answers polled)
  | takeQueued =>
      refine kept.extend kept.voices ?_ rfl
      intro requestId _
      simp only [elsewhere, Ledger.perform, Host.perform, takeQueued, collected, answersTo_append,
        answersTo_nil]
      omega
  | alert answers received =>
      have idle : ∀ context hashId, received = .torrentRemoved context hashId →
          ledger.host.backend.pendingPrepares.lookup (ledger.host.backend.idOf context hashId) = none := by
        rintro context hashId rfl
        exact unprepared
      exact (kept.handleAlert answers idle).collect
  | periodic answers => exact (kept.tells (runPeriodicSteps_tells ledger.host.backend answers)).collect
  | reclaimDiskCache requestId targetBytes =>
      exact kept.spoken possible (reclaimDiskCache_speaks ledger.host.backend requestId targetBytes)
  | create handle context => exact kept
  | learnMetadata handle => exact kept
  | lose handle => exact kept
  | http action => exact kept.tells (.quiet rfl)

theorem reachable_kept (reached : ledger.ReachableUnprepared torrentOf) : ledger.Kept :=
  reached.invariant (fun _ begins => Kept.initial begins)
    fun _ _ kept enabled => kept.perform enabled.1 enabled.2

/-- An alert that removes a torrent which is being prepared leaves a request without an answer. -/
theorem Kept.unprepared (kept : ledger.Kept) {action : HostAction} (answered : (ledger.perform action).Answered) :
    ledger.Unprepared action := by
  unfold Unprepared
  split
  · rename_i answers context hashId
    by_contra busy
    obtain ⟨prepare, found⟩ := Option.ne_none_iff_exists'.mp busy
    have settled := answered prepare.requestId (kept.entered _ prepare found)
    have same : (ledger.perform (.alert answers (.torrentRemoved context hashId))).elsewhere =
        ledger.elsewhere := congrArg (ledger.host.published ++ ·) (List.append_nil ledger.lost)
    rw [same] at settled
    exact kept.forsaken answers found settled
  · trivial

end Ledger

/-- In every run in which no torrent is removed while it is being prepared, every `prepare_file` request
is pending without an answer or has one answer, and this holds after one more step exactly when that
step removes no such torrent. -/
theorem reachable_prepares_answered {torrentOf : Nat → String} {ledger : Ledger}
    (reached : ledger.ReachableUnprepared torrentOf) :
    ledger.Answered ∧ ∀ action, ledger.Possible torrentOf action →
      ((ledger.perform action).Answered ↔ ledger.Unprepared action) := by
  have kept := Ledger.reachable_kept reached
  refine ⟨kept.settled, ?_⟩
  intro action possible
  exact ⟨kept.unprepared, fun unprepared => (kept.perform possible unprepared).settled⟩

/-- A torrent is added, its file is prepared, and libtorrent answers. -/
def preparation : List (Ledger → HostAction) := [
  fun ledger => .addTorrent ledger.host.twoAnswers 1 (.ok ⟨twoTorrents 7, true⟩),
  fun _ => .create 7 0,
  fun ledger => .alert ledger.host.twoAnswers (.added (some 0) 7 none),
  fun ledger => .prepareFile ledger.host.twoAnswers 2 (twoTorrents 7) 0 ⟨"video.mp4", 0, 32768⟩,
  fun ledger => .alert ledger.host.twoAnswers (.filePriority 7 none)]

theorem reachable_prepares_answered_once :
    ∃ ledger : Ledger, ledger.ReachableUnprepared twoTorrents ∧ 2 ∈ ledger.prepares ∧
      Settled ledger.host.backend ledger.elsewhere 2 ∧ collected ledger.host.backend 2 = 1 := by
  have started : Ledger.ReachableUnprepared twoTorrents { host := Host.start } :=
    .start ⟨_, Host.start_initial, rfl⟩
  have reached : (Transition.follow Ledger.perform preparation
      { host := Host.start }).ReachableUnprepared twoTorrents := by
    refine started.follow ?_
    refine ⟨⟨⟨by decide, Host.answers_truthful ..⟩, trivial⟩,
      ⟨⟨rfl, fun other => ?_, by decide +kernel, by decide +kernel⟩, trivial⟩,
      ⟨⟨Host.answers_truthful .., ⟨0, rfl, by decide +kernel, by decide +kernel, by decide +kernel,
        .inl (by decide +kernel), .inr (by decide +kernel)⟩, by decide +kernel⟩, trivial⟩,
      ⟨⟨by decide +kernel, Host.answers_truthful .., by decide, by decide +kernel⟩, trivial⟩,
      ⟨⟨Host.answers_truthful .., trivial, by decide +kernel⟩, trivial⟩, trivial⟩
    simp [Ledger.perform, Host.perform, Host.accept_creator, Host.start]
  exact ⟨_, reached, by decide +kernel, (reachable_prepares_answered reached).1 2 (by decide +kernel),
    by decide +kernel⟩

/-- A file is prepared while its torrent is on the way out. -/
def lateRequest : List (Ledger → HostAction) := [
  fun ledger => .addTorrent ledger.host.twoAnswers 1 (.ok ⟨twoTorrents 7, true⟩),
  fun _ => .create 7 0,
  fun ledger => .alert ledger.host.twoAnswers (.added (some 0) 7 none),
  fun ledger => .removeTorrent ledger.host.twoAnswers 2 (twoTorrents 7),
  fun ledger => .prepareFile ledger.host.twoAnswers 3 (twoTorrents 7) 0 ⟨"video.mp4", 0, 32768⟩,
  fun _ => .lose 7,
  fun ledger => .alert ledger.host.twoAnswers (.torrentRemoved (some 0) (twoTorrents 7))]

def lateLedger (steps : Nat) : Ledger :=
  Transition.follow Ledger.perform (lateRequest.take steps) { host := Host.start }

/-- The request was pending and is gone without an answer. -/
theorem prepares_answered_fails_late :
    Pending (lateLedger 5).host.backend 3 ∧ (lateLedger 7).Reachable twoTorrents ∧
      3 ∈ (lateLedger 7).prepares ∧ ¬ Pending (lateLedger 7).host.backend 3 ∧
      answersTo 3 (lateLedger 7).elsewhere + collected (lateLedger 7).host.backend 3 = 0 ∧
      ¬ (lateLedger 7).Answered := by
  have started : Ledger.Reachable twoTorrents { host := Host.start } := .start ⟨_, Host.start_initial, rfl⟩
  have reached : (lateLedger 7).Reachable twoTorrents := by
    refine started.follow ?_
    refine ⟨⟨by decide, Host.answers_truthful ..⟩,
      ⟨rfl, fun other => ?_, by decide +kernel, by decide +kernel⟩,
      ⟨Host.answers_truthful .., ⟨0, rfl, by decide +kernel, by decide +kernel, by decide +kernel,
        .inl (by decide +kernel), .inr (by decide +kernel)⟩, by decide +kernel⟩,
      ⟨by decide +kernel, Host.answers_truthful ..⟩,
      ⟨by decide +kernel, Host.answers_truthful .., by decide, by decide +kernel⟩, trivial,
      ⟨Host.answers_truthful .., trivial, by decide +kernel⟩, trivial⟩
    simp [Ledger.perform, Host.perform, Host.accept_creator, Host.start]
  have absent : ¬ Pending (lateLedger 7).host.backend 3 := by
    rintro ⟨id, prepare, found, _⟩
    rw [AList.lookup_of_isEmpty (by decide +kernel)] at found
    simp at found
  have unanswered : answersTo 3 (lateLedger 7).elsewhere + collected (lateLedger 7).host.backend 3 = 0 := by
    decide +kernel
  have listed : 3 ∈ (lateLedger 7).prepares := by decide +kernel
  refine ⟨⟨twoTorrents 7, ⟨3, 0, ⟨"video.mp4", 0, 32768⟩⟩, ?_, rfl⟩, reached, listed, absent, unanswered, ?_⟩
  · rfl
  · intro answered
    rcases answered 3 listed with ⟨pending, _⟩ | ⟨_, once⟩
    · exact absent pending
    · omega

end NuvioEngine.Backend
