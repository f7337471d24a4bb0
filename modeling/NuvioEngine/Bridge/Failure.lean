import NuvioEngine.Bridge.Releases

/-!
A `poll` that throws. The queue is swapped into a local before the first command is processed, so a
`read_piece` command that throws takes everything behind it along; what stood in front of it has
taken effect.
-/

namespace NuvioEngine.Bridge

open NuvioEngine.Scheduler NuvioEngine.Stream NuvioEngine.Cache BridgeState

/-- The commands of a batch that the loop of `poll` reaches. -/
def handled (answers : Nat → Libtorrent) : Nat → List HttpCommand → BridgeState → List HttpCommand
  | _, [], _ => []
  | position, command :: rest, state =>
      let processed := state.processCommand (answers position) command
      if processed.2.2 then [command]
      else command :: handled answers (position + 1) rest processed.1

/-- What `poll` has done when its loop reaches the command behind `before`. -/
def prior (answers : Nat → Libtorrent) (state : BridgeState) (before : List HttpCommand) :
    BridgeState × List String × Bool :=
  processCommands answers 0 before { state with commands := [] } []

/-- The loop gets to the command behind `before`, and that command throws. -/
def ThrowsAt (answers : Nat → Libtorrent) (state : BridgeState) (before : List HttpCommand)
    (command : HttpCommand) : Prop :=
  (prior answers state before).2.2 = false ∧
    ((prior answers state before).1.processCommand (answers before.length) command).2.2 = true

instance (answers : Nat → Libtorrent) (state : BridgeState) (before : List HttpCommand)
    (command : HttpCommand) : Decidable (ThrowsAt answers state before command) :=
  instDecidableAnd

/-- The commands beside the one that throws take effect: each is handled or still queued, no demand
stays active behind its end, and the waiter of every read is held or finished. -/
structure SparesOthers (answers : PollAnswers) (state : BridgeState) (others : List HttpCommand) :
    Prop where
  taken : handled answers.command 0 state.commands { state with commands := [] } ++
    (state.poll answers).1.commands = state.commands
  ended : ∀ front ending back, others = front ++ ending :: back → ending.type = .endDemand →
    (∀ later ∈ back, later.type = .beginDemand → later.demandId ≠ ending.demandId) →
    (state.poll answers).1.activeDemands.lookup ending.demandId = none ∨
      ending ∈ (state.poll answers).1.commands
  waiters : ∀ command ∈ others, command.type = .readPiece → ∀ waiter, command.waiter = some waiter →
    Cared (state.poll answers).1 waiter ∨ command ∈ (state.poll answers).1.commands

section Loop

variable (answers : Nat → Libtorrent)

theorem processCommands_append {before : List HttpCommand} (rest : List HttpCommand) {position : Nat}
    {state : BridgeState} {changed : List String}
    (quiet : (processCommands answers position before state changed).2.2 = false) :
    processCommands answers position (before ++ rest) state changed =
      processCommands answers (position + before.length) rest
        (processCommands answers position before state changed).1
        (processCommands answers position before state changed).2.1 := by
  induction before generalizing position state changed with
  | nil => rfl
  | cons command others ih =>
      rw [processCommands] at quiet
      rw [List.cons_append, processCommands, processCommands]
      by_cases threw : (state.processCommand (answers position) command).2.2 = true
      · simp [threw] at quiet
      · simp only [threw, Bool.false_eq_true, ↓reduceIte] at quiet ⊢
        rw [ih quiet, List.length_cons]
        congr 1
        omega

theorem handled_append {before : List HttpCommand} (rest : List HttpCommand) {position : Nat}
    {state : BridgeState} {changed : List String}
    (quiet : (processCommands answers position before state changed).2.2 = false) :
    handled answers position (before ++ rest) state =
      before ++ handled answers (position + before.length) rest
        (processCommands answers position before state changed).1 := by
  induction before generalizing position state changed with
  | nil => rfl
  | cons command others ih =>
      rw [processCommands] at quiet
      rw [List.cons_append, handled, processCommands]
      by_cases threw : (state.processCommand (answers position) command).2.2 = true
      · simp [threw] at quiet
      · simp only [threw, Bool.false_eq_true, ↓reduceIte] at quiet ⊢
        rw [ih quiet, List.length_cons, List.cons_append]
        congr 3
        omega

theorem processCommands_handled (position : Nat) (commands : List HttpCommand) (state : BridgeState)
    (changed : List String) :
    processCommands answers position (handled answers position commands state) state changed =
      processCommands answers position commands state changed := by
  induction commands generalizing position state changed with
  | nil => rfl
  | cons command rest ih =>
      rw [handled]
      by_cases threw : (state.processCommand (answers position) command).2.2 = true
      · simp [processCommands, threw]
      · simp only [processCommands, threw, Bool.false_eq_true, ↓reduceIte]
        exact ih _ _ _

theorem processCommand_inactive {state : BridgeState} (lt : Libtorrent) {command : HttpCommand}
    {demandId : Nat} (inactive : state.activeDemands.lookup demandId = none)
    (other : command.type = .beginDemand → command.demandId ≠ demandId) :
    (state.processCommand lt command).1.activeDemands.lookup demandId = none := by
  have absent : ∀ next, KeepsRouting state next → next.activeDemands.lookup demandId = none := by
    intro next keeps
    cases found : next.activeDemands.lookup demandId with
    | none => rfl
    | some demand =>
        obtain ⟨old, present, _⟩ := keeps.demands demandId demand found
        rw [inactive] at present
        simp at present
  unfold processCommand
  cases kind : command.type with
  | beginDemand =>
      simp only [beginDemand]
      split
      · rw [AList.lookup_insert_ite, if_neg fun same => other kind same.symm]
        exact inactive
      · rw [cancelDemandState_activeDemands]
        exact inactive
  | endDemand => exact absent _ (endDemand_keeps state command)
  | readPiece => exact absent _ (readPiece_keeps state lt command)

theorem endDemand_inactive (state : BridgeState) (lt : Libtorrent) {command : HttpCommand}
    (kind : command.type = .endDemand) :
    (state.processCommand lt command).1.activeDemands.lookup command.demandId = none := by
  simp only [processCommand, kind, endDemand]
  split
  · rename_i absent
    exact absent
  · exact AList.lookup_erase command.demandId state.activeDemands

theorem processCommands_inactive {demandId : Nat} {commands : List HttpCommand} {position : Nat}
    {state : BridgeState} {changed : List String}
    (inactive : state.activeDemands.lookup demandId = none)
    (others : ∀ command ∈ commands, command.type = .beginDemand → command.demandId ≠ demandId) :
    (processCommands answers position commands state changed).1.activeDemands.lookup demandId = none := by
  induction commands generalizing position state changed with
  | nil => exact inactive
  | cons command rest ih =>
      have here := processCommand_inactive (answers position) inactive
        (others command List.mem_cons_self)
      rw [processCommands]
      split
      · exact here
      · exact ih here fun later member => others later (List.mem_cons_of_mem _ member)

theorem processCommands_cared {waiter : Nat} {commands : List HttpCommand} {position : Nat}
    {state : BridgeState} {changed : List String} (cared : Cared state waiter) :
    Cared (processCommands answers position commands state changed).1 waiter := by
  induction commands generalizing position state changed with
  | nil => exact cared
  | cons command rest ih =>
      have here := (processCommand_settles state (answers position) command).1.cared cared
      rw [processCommands]
      split
      · exact here
      · exact ih here

theorem processCommands_reads {commands : List HttpCommand} {position : Nat} {state : BridgeState}
    {changed : List String}
    (quiet : (processCommands answers position commands state changed).2.2 = false)
    {command : HttpCommand} (member : command ∈ commands) (kind : command.type = .readPiece)
    {waiter : Nat} (own : command.waiter = some waiter) :
    Cared (processCommands answers position commands state changed).1 waiter := by
  obtain ⟨front, back, rfl⟩ := List.append_of_mem member
  induction front generalizing position state changed with
  | nil =>
      rw [List.nil_append, processCommands] at quiet ⊢
      split at quiet
      · simp at quiet
      · rename_i calm
        rw [if_neg calm]
        refine processCommands_cared answers ?_
        exact (processCommand_settles state _ command).2 kind (by simpa using calm) waiter own
  | cons first rest ih =>
      rw [List.cons_append, processCommands] at quiet ⊢
      split at quiet
      · simp at quiet
      · rename_i calm
        rw [if_neg calm]
        exact ih quiet (by simp)

theorem processCommands_ended {front back : List HttpCommand} {ending : HttpCommand} {position : Nat}
    {state : BridgeState} {changed : List String}
    (quiet : (processCommands answers position (front ++ ending :: back) state changed).2.2 = false)
    (kind : ending.type = .endDemand)
    (others : ∀ later ∈ back, later.type = .beginDemand → later.demandId ≠ ending.demandId) :
    (processCommands answers position (front ++ ending :: back) state changed).1.activeDemands.lookup
      ending.demandId = none := by
  induction front generalizing position state changed with
  | nil =>
      rw [List.nil_append, processCommands] at quiet ⊢
      split at quiet
      · simp at quiet
      · rename_i calm
        rw [if_neg calm]
        exact processCommands_inactive answers (endDemand_inactive state _ kind) others
  | cons first rest ih =>
      rw [List.cons_append, processCommands] at quiet ⊢
      split at quiet
      · simp at quiet
      · rename_i calm
        rw [if_neg calm]
        exact ih quiet

end Loop

section Throw

variable {answers : PollAnswers} {state : BridgeState} {before after : List HttpCommand}
  {command : HttpCommand}

theorem throwing_read {lt : Libtorrent} (throws : (state.processCommand lt command).2.2 = true) :
    command.type = .readPiece := by
  unfold processCommand at throws
  cases kind : command.type with
  | beginDemand => simp [kind] at throws
  | endDemand => simp [kind] at throws
  | readPiece => rfl

theorem poll_throws (batch : state.commands = before ++ command :: after)
    (throws : ThrowsAt answers.command state before command) :
    (state.poll answers).1 = ((prior answers.command state before).1.processCommand
      (answers.command before.length) command).1 := by
  obtain ⟨quiet, threw⟩ := throws
  have processed : processCommands answers.command 0 state.commands { state with commands := [] } [] =
      (((prior answers.command state before).1.processCommand (answers.command before.length)
        command).1, (prior answers.command state before).2.1.union
        ((prior answers.command state before).1.processCommand (answers.command before.length)
          command).2.1, true) := by
    rw [batch, processCommands_append answers.command _ quiet, processCommands]
    simp only [Nat.zero_add]
    rw [show processCommands answers.command 0 before { state with commands := [] } [] =
      prior answers.command state before from rfl, if_pos threw]
  unfold poll
  simp only [processed, ↓reduceIte]

theorem handled_throws (batch : state.commands = before ++ command :: after)
    (throws : ThrowsAt answers.command state before command) :
    handled answers.command 0 state.commands { state with commands := [] } = before ++ [command] := by
  obtain ⟨quiet, threw⟩ := throws
  rw [batch, handled_append answers.command _ quiet, handled]
  simp only [Nat.zero_add]
  rw [show processCommands answers.command 0 before { state with commands := [] } [] =
    prior answers.command state before from rfl, if_pos threw]

/-- When one read throws, the other commands take effect exactly if none stands behind it. -/
theorem poll_spares_others_iff (batch : state.commands = before ++ command :: after)
    (throws : ThrowsAt answers.command state before command) :
    SparesOthers answers state (before ++ after) ↔ after = [] := by
  have emptied : (state.poll answers).1.commands = [] := (poll_works state answers).commands
  constructor
  · intro spares
    have taken := spares.taken
    rw [handled_throws batch throws, emptied, List.append_nil, batch] at taken
    simpa using taken
  · rintro rfl
    refine ⟨?_, ?_, ?_⟩
    · rw [handled_throws batch throws, emptied, List.append_nil, batch]
    · intro front ending back split kind others
      rw [List.append_nil] at split
      left
      rw [poll_throws batch throws]
      refine processCommand_inactive _ ?_ ?_
      · have quiet := throws.1
        rw [prior, split] at quiet ⊢
        exact processCommands_ended answers.command quiet kind others
      · intro begins
        rw [throwing_read throws.2] at begins
        simp at begins
    · intro other member kind waiter own
      rw [List.append_nil] at member
      left
      rw [poll_throws batch throws]
      refine (processCommand_settles _ _ command).1.cared ?_
      exact processCommands_reads answers.command throws.1 member kind own

end Throw

theorem expireInactiveStreams_demands (state : BridgeState) (now : Nat) (answers : String → Libtorrent) :
    (state.expireInactiveStreams now answers).activeDemands = state.activeDemands := by
  have each : ∀ (expired : List StoppedStream) (current : BridgeState),
      (expired.foldl (expireStream answers) current).activeDemands = current.activeDemands := by
    intro expired
    induction expired with
    | nil => exact fun _ => rfl
    | cons stream rest ih =>
        intro current
        exact (ih _).trans ((recomputeSchedule_recomputes _ _ _).activeDemands.trans rfl)
  unfold expireInactiveStreams
  split
  · rfl
  · exact each _ _

theorem reissueStalledReads_demands (state : BridgeState) (lt : Libtorrent) :
    (state.reissueStalledReads lt).activeDemands = state.activeDemands := by
  unfold reissueStalledReads
  split
  · rfl
  · exact (Sends.foldl (fun current key => reissueRead_sends lt current key) _ _).activeDemands

theorem poll_idle_demands {state : BridgeState} (empty : state.commands = []) (answers : PollAnswers) :
    (state.poll answers).1.activeDemands = state.activeDemands := by
  unfold poll
  simp only [empty, processCommands, Bool.false_eq_true, ↓reduceIte, List.foldl_nil]
  rw [expireInactiveStreams_demands, reissueStalledReads_demands]
  rfl

theorem polls_idle_demands (polls : List PollAnswers) {state : BridgeState}
    (empty : state.commands = []) :
    (polls.foldl (fun current answers => (current.poll answers).1) state).activeDemands =
      state.activeDemands := by
  induction polls generalizing state with
  | nil => rfl
  | cons answers rest ih =>
      rw [List.foldl_cons, ih (poll_works state answers).commands, poll_idle_demands empty]

/-- The handle expires between `in_session` and `torrent_file`. -/
def expiringPoll : PollAnswers where
  command := fun _ => { Libtorrent.accepting twoPieces with
    torrentFile := fun _ => .error (.standard "invalid torrent handle used") }
  recompute := fun _ => .accepting twoPieces
  watchdog := .accepting twoPieces
  expiry := 0
  expired := fun _ => .accepting twoPieces

def firstPieceRead : HttpCommand :=
  ⟨.readPiece, 1, twoPiecesRoute, ⟨0, 16383⟩, 0, some 0, some 1⟩

def briefRequests : List Action := [
  .register (.accepting twoPieces) "a" 7 "t" 0 ⟨"video.mp4", 0, 32768⟩,
  .beginRequest twoPiecesRoute ⟨0, 32767⟩,
  .readRequest firstPieceRead,
  .endRequest 1]

/-- A reader that begins, asks for the first piece and is over before the next poll. -/
def briefReader (requests : Nat) : System :=
  (briefRequests.take requests).foldl System.perform { bridge := .create 1024 1024 0 }

theorem briefReader_reachable : (briefReader 4).Reachable := by
  have started : System.Reachable { bridge := .create 1024 1024 0 } := .start ⟨1024, 1024, 0, rfl⟩
  have runs : Transition.Runs System.Possible System.perform { bridge := .create 1024 1024 0 }
      briefRequests := by decide +kernel
  exact started.run runs

/-- A read that stands last in its batch may throw. -/
theorem poll_spares_others_last :
    ∃ state before command, state.commands = before ++ command :: [] ∧
      ThrowsAt expiringPoll.command state before command ∧
      SparesOthers expiringPoll state (before ++ []) := by
  have batch : (briefReader 3).bridge.commands =
      (briefReader 3).bridge.commands.take 1 ++ firstPieceRead :: [] := by decide +kernel
  have throws : ThrowsAt expiringPoll.command (briefReader 3).bridge
      ((briefReader 3).bridge.commands.take 1) firstPieceRead := by decide +kernel
  exact ⟨_, _, _, batch, throws, (poll_spares_others_iff batch throws).mpr rfl⟩

/-- A read that throws swallows the end of its demand, which stays active through every later
`poll`. -/
theorem spares_others_fails_ended :
    ∃ (system : System) (before after : List HttpCommand) (command : HttpCommand),
      system.Reachable ∧ system.bridge.commands = before ++ command :: after ∧
      ThrowsAt expiringPoll.command system.bridge before command ∧
      ¬ SparesOthers expiringPoll system.bridge (before ++ after) ∧
      ∀ polls : List PollAnswers, ((polls.foldl (fun current answers => (current.poll answers).1)
        (system.bridge.poll expiringPoll).1).activeDemands.lookup 1).isSome = true := by
  have batch : (briefReader 4).bridge.commands = (briefReader 4).bridge.commands.take 1 ++
      firstPieceRead :: (briefReader 4).bridge.commands.drop 2 := by decide +kernel
  have throws : ThrowsAt expiringPoll.command (briefReader 4).bridge
      ((briefReader 4).bridge.commands.take 1) firstPieceRead := by decide +kernel
  have emptied := (poll_works (briefReader 4).bridge expiringPoll).commands
  have active : (((briefReader 4).bridge.poll expiringPoll).1.activeDemands.lookup 1).isSome = true := by
    decide +kernel
  refine ⟨briefReader 4, _, _, firstPieceRead, briefReader_reachable, batch, throws, ?_, ?_⟩
  · intro spares
    have taken := spares.taken
    rw [handled_throws batch throws, emptied, List.append_nil] at taken
    exact absurd taken (by decide +kernel)
  · intro polls
    rw [polls_idle_demands polls emptied]
    exact active

end NuvioEngine.Bridge
