import NuvioEngine.Bridge.WorkerSteps

/-!
Whoever waits has an active demand. A demand goes when its thread ends it, when its stream is stopped or
when its torrent is removed: the thread has finished with its waiters then, and the bridge answers them in
the other cases.
-/

namespace NuvioEngine.Bridge

open NuvioEngine.Scheduler NuvioEngine.Stream NuvioEngine.Cache BridgeState

def Active (state : BridgeState) (demandId : Nat) : Prop :=
  ∃ demand, state.activeDemands.lookup demandId = some demand

def Backed (state : BridgeState) : Prop :=
  ∀ key waiter, Held state key waiter → finished (state.waiters waiter) = false →
    Active state (state.waiters waiter).demandId

/-- A step keeps the demands of those who wait on. -/
structure Backs (before after : BridgeState) : Prop where
  releases : Releases before after
  demandId : ∀ waiter, (after.waiters waiter).demandId = (before.waiters waiter).demandId
  keeps : ∀ key waiter, Held after key waiter → finished (after.waiters waiter) = false →
    Active before (before.waiters waiter).demandId → Active after (before.waiters waiter).demandId

section Steps

variable {first second third : BridgeState}

theorem unfinished_before {known waiter : PieceWaiter} (finishes : finished known = true → finished waiter = true)
    (waits : finished waiter = false) : finished known = false := by
  rw [← Bool.not_eq_true] at waits ⊢
  exact fun past => waits (finishes past)

theorem Backed.step (backed : Backed first) (backs : Backs first second) : Backed second := by
  intro key waiter held waits
  rw [backs.demandId]
  refine backs.keeps key waiter held waits (backed key waiter (backs.releases.drops key waiter held) ?_)
  exact unfinished_before backs.releases.finishes waits

namespace Backs

theorem ofReleases {given : Nat → List UInt8 → Prop} (releases : Releases first second)
    (supplies : Supplies given first second) (demands : second.activeDemands = first.activeDemands) :
    Backs first second := by
  refine ⟨releases, supplies.demandId, fun _ _ _ _ active => ?_⟩
  unfold Active
  rw [demands]
  exact active

theorem ofWithdraws (withdraws : Withdraws first second)
    (demands : second.activeDemands = first.activeDemands) : Backs first second := by
  have supplies : Supplies (fun _ _ => False) first second := withdraws.supplies
  exact .ofReleases withdraws.releases supplies demands

theorem refl (state : BridgeState) : Backs state state := ofWithdraws (.refl state) rfl

theorem trans (left : Backs first second) (right : Backs second third) : Backs first third := by
  refine ⟨left.releases.trans right.releases, fun waiter => ?_, fun key waiter held waits active => ?_⟩
  · exact (right.demandId waiter).trans (left.demandId waiter)
  have before := unfinished_before right.releases.finishes waits
  have middle := left.keeps key waiter (right.releases.drops key waiter held) before active
  rw [← left.demandId] at middle ⊢
  exact right.keeps key waiter held waits middle

theorem foldl {α : Type} {step : BridgeState → α → BridgeState}
    (each : ∀ state item, Backs state (step state item)) (items : List α) (state : BridgeState) :
    Backs state (items.foldl step state) := by
  induction items generalizing state with
  | nil => exact refl state
  | cons item rest ih => exact (each state item).trans (ih (step state item))

end Backs

end Steps

section Operations

variable (lt : Libtorrent) (state : BridgeState)

theorem recomputeSchedule_backs (id : String) : Backs state (recomputeSchedule lt state id) :=
  .ofWithdraws (recomputeSchedule_withdraws lt id state) (recomputeSchedule_recomputes lt state id).activeDemands

theorem cancelDemandWaiters_apart {demandId : Nat} {error : String} {key : PieceKey} {waiter : Nat}
    (held : Held (state.cancelDemandWaiters demandId error) key waiter) :
    (state.waiters waiter).demandId ≠ demandId := by
  have other := ((held_dropWaiters _).mp held).2
  rw [decide_eq_false_iff_not, ((completeWaiters_eases state none error _).holds.heap waiter).1] at other
  exact other

/-- The waiters of a demand go with it. -/
theorem stopDemand_backs (demandId : Nat) (demand : ActiveDemand) :
    Backs state (state.stopDemand demandId demand) := by
  have cancels : Withdraws state (state.cancelDemandState demand.state) :=
    cancelDemandState_withdraws state demand.state
  have goes : Withdraws (state.cancelDemandState demand.state) (state.stopDemand demandId demand) :=
    .trans (.cancel _ demandId "stream was stopped") (.quiet rfl rfl rfl)
  have supplies : Supplies (fun _ _ => False) state (state.stopDemand demandId demand) :=
    (cancels.trans goes).supplies
  have same : (state.cancelDemandState demand.state).waiters = state.waiters := by
    unfold cancelDemandState
    split <;> rfl
  have demands : (state.stopDemand demandId demand).activeDemands = state.activeDemands.erase demandId := by
    have flagged : (state.cancelDemandState demand.state).activeDemands = state.activeDemands := by
      unfold cancelDemandState
      split <;> rfl
    unfold stopDemand
    simp only [(cancelDemandWaiters_sends _ _ _).activeDemands, flagged]
  refine ⟨(cancels.trans goes).releases, supplies.demandId, ?_⟩
  rintro key waiter held _ ⟨other, found⟩
  have apart := cancelDemandWaiters_apart (state.cancelDemandState demand.state) held
  rw [same] at apart
  refine ⟨other, ?_⟩
  rw [demands, AList.lookup_erase_ite, if_neg apart]
  exact found

theorem stopped_backs (streamId : String) : Backs state (stopped state streamId) := by
  refine .trans ?_ (.foldl (fun current (entry : Sigma fun _ : Nat => ActiveDemand) =>
    stopDemand_backs current entry.1 entry.2) _ _)
  exact .ofWithdraws (.quiet rfl rfl rfl) rfl

theorem stopStream_backs (streamId : String) : Backs state (stopStream lt state streamId).1 := by
  have stops := stopped_backs state streamId
  unfold stopStream
  simp only
  split
  · exact stops
  · exact stops.trans (recomputeSchedule_backs lt _ _)

theorem addRoute_backs {route : StreamRoute} (sliced : 0 < route.pieceSize) :
    Backs state (addRoute lt state route) := by
  have stops : Backs state (vacated lt state route) :=
    .foldl (fun current streamId => stopStream_backs lt current streamId) _ _
  have joins : Backs state (joined lt state route) := stops.trans (.ofWithdraws (.quiet rfl rfl rfl) rfl)
  rw [addRoute_eq lt sliced]
  split
  · exact joins.trans (recomputeSchedule_backs lt _ _)
  · exact joins

/-- The demands of the torrent go, and so does whoever waits for a piece of it. -/
theorem removeTorrent_backs {handles : Handles} {loose : String → Prop} (served : Served handles loose state)
    (id : String) : Backs state (removeTorrent lt state id) := by
  have supplies : Supplies (fun _ _ => False) state (removeTorrent lt state id) := removeTorrent_supplies lt state id
  have releases := removeTorrent_releases lt state id
  refine ⟨releases, supplies.demandId, ?_⟩
  rintro key waiter held waits ⟨demand, found⟩
  have before := releases.drops key waiter held
  have waiting := unfinished_before releases.finishes waits
  obtain ⟨torrent, _⟩ := served.placed key waiter demand before waiting found
  have stays : key.torrentId ≠ id := by
    rintro rfl
    obtain ⟨waiters, listed, _⟩ := held
    simpa using ((AList.lookup_eraseIf _ _ _ _).mp listed).2
  refine ⟨demand, ?_⟩
  rw [(removeTorrent_sends id lt).activeDemands, (recomputeSchedule_recomputes _ _ _).activeDemands]
  exact (lookup_removed_demands id _ _).mpr ⟨found, torrent ▸ stays⟩

theorem handleReadPiece_demands (alert : ReadPieceAlert) :
    (state.handleReadPiece alert).activeDemands = state.activeDemands := by
  have failed : ∀ key error, ((state.forgetRead key).failPiece key error).activeDemands = state.activeDemands :=
    fun key error => (failPiece_sends _ key error).activeDemands
  unfold handleReadPiece
  simp only
  split
  · exact failed _ _
  · exact failed _ _
  · split
    · exact failed _ _
    · unfold deliverPiece
      simp only
      split
      · rfl
      · exact (completeWaiters_sends _ _ _ _).activeDemands

theorem handleBlockFinished_demands (torrentId : String) (piece block : Nat) :
    (handleBlockFinished lt state torrentId piece block).activeDemands = state.activeDemands := by
  have published : ∀ key blocks,
      ((state.setBlocks key blocks).publishPartial key).activeDemands = state.activeDemands :=
    fun key blocks => (publishPartial_sends _ key).activeDemands
  unfold handleBlockFinished
  simp only
  split
  · rfl
  · split
    · rfl
    · split
      · exact published _ _
      · exact (recomputeSchedule_recomputes _ _ _).activeDemands.trans (published _ _)

theorem handleHashFailed_demands (torrentId : String) (piece : Nat) :
    (state.handleHashFailed torrentId piece).activeDemands = state.activeDemands := by
  unfold handleHashFailed
  simp only
  split
  · rfl
  · exact (publishPartial_sends _ _).activeDemands

/-- Besides `poll`, the worker ends no demand of a thread that waits on. -/
theorem perform_backs {handles : Handles} {loose : String → Prop} (served : Served handles loose state) {action : Action}
    (works : Server.isWork action = true) (notPoll : ∀ answers, action ≠ .poll answers) :
    Backs state (state.perform action) := by
  have releases := (perform_toils state works notPoll).releases
  cases action with
  | poll answers => exact absurd rfl (notPoll answers)
  | register lt token handle id fileIndex file =>
      simp only [BridgeState.perform, registerStream]
      cases made : routeFor lt state token handle id fileIndex file with
      | error thrown => exact .refl state
      | ok route =>
          obtain ⟨metadata, savePath, sliced, _, rfl⟩ := routeFor_eq_ok made
          exact addRoute_backs lt state sliced
  | stop lt streamId => exact stopStream_backs lt state streamId
  | remove lt id => exact removeTorrent_backs lt state served id
  | readPieceAlert alert =>
      exact .ofReleases releases (handleReadPiece_supplies state alert) (handleReadPiece_demands state alert)
  | blockFinished lt torrentId piece block =>
      have supplies : Supplies (fun _ _ => False) state (handleBlockFinished lt state torrentId piece block) :=
        handleBlockFinished_supplies lt state torrentId piece block
      exact .ofReleases releases supplies (handleBlockFinished_demands lt state torrentId piece block)
  | hashFailed torrentId piece =>
      have supplies : Supplies (fun _ _ => False) state (state.handleHashFailed torrentId piece) :=
        handleHashFailed_supplies state torrentId piece
      exact .ofReleases releases supplies (handleHashFailed_demands state torrentId piece)
  | popExpired | acquireRequest | releaseRequest => exact .ofWithdraws (.quiet rfl rfl rfl) rfl
  | beginRequest | readRequest | endRequest | abandonWaiter => simp [Server.isWork] at works

end Operations

section Commands

variable {state : BridgeState} {lt : Libtorrent} {command : HttpCommand} {demandId : Nat}

theorem Active.setNeedsData (active : Active state demandId) (other : Nat) (needsData : Bool) :
    Active (state.setNeedsData other needsData) demandId := by
  unfold BridgeState.setNeedsData
  split
  · exact active
  · obtain ⟨demand, found⟩ := active
    unfold Active
    simp only [AList.lookup_insert_ite]
    split
    · exact ⟨_, rfl⟩
    · exact ⟨demand, found⟩

theorem Active.awaitPiece (active : Active state demandId) (metadata : TorrentInfo) (waiter : Nat) :
    Active (state.awaitPiece lt metadata command waiter) demandId := by
  have held : Active (state.holdWaiter ⟨command.route.torrentId, command.piece⟩ waiter) demandId := active
  unfold BridgeState.awaitPiece
  simp only
  split
  · unfold Active
    rw [(requestRead_sends _ _ _ _).activeDemands]
    exact held.setNeedsData _ _
  · unfold Active
    rw [(publishWritten_sends _ _ _ _ _ _).activeDemands]
    exact held.setNeedsData _ _

/-- A read leaves the demands in place. -/
theorem Active.processPieceRequest (active : Active state demandId) :
    Active (state.processPieceRequest lt command).1 demandId := by
  unfold BridgeState.processPieceRequest
  split
  · exact active
  · split
    · exact active
    · split
      · exact active
      · exact active
      · split
        · exact active
        · split
          · refine Active.setNeedsData ?_ command.demandId false
            exact active
          · refine Active.awaitPiece ?_ _ _
            exact active

theorem Active.insert (active : Active state demandId) (other : Nat) (demand : ActiveDemand) {next : BridgeState}
    (inserted : next.activeDemands = state.activeDemands.insert other demand) : Active next demandId := by
  obtain ⟨old, found⟩ := active
  unfold Active
  rw [inserted]
  simp only [AList.lookup_insert_ite]
  split
  · exact ⟨_, rfl⟩
  · exact ⟨old, found⟩

/-- Only its own end removes a demand in a batch. -/
theorem Active.processCommand (active : Active state demandId) (unended : ¬ Ends demandId command) :
    Active (state.processCommand lt command).1 demandId := by
  unfold BridgeState.processCommand
  cases kind : command.type with
  | beginDemand =>
      simp only [BridgeState.beginDemand]
      split
      · exact active.insert _ _ rfl
      · have flagged : (state.cancelDemandState command.demandState).activeDemands = state.activeDemands := by
          unfold cancelDemandState
          split <;> rfl
        unfold Active
        rw [flagged]
        exact active
  | endDemand =>
      simp only [BridgeState.endDemand]
      split
      · exact active
      · obtain ⟨demand, found⟩ := active
        have other : ¬ demandId = command.demandId := fun same => unended ⟨kind, same.symm⟩
        refine ⟨demand, ?_⟩
        simp only [AList.lookup_erase_ite, if_neg other]
        exact found
  | readPiece =>
      simp only [BridgeState.readPiece]
      split
      · split
        · exact active
        · exact active
      · exact (active.insert _ _ rfl : Active (state.moveDemand _ _ _) demandId).processPieceRequest

/-- A read is answered at once where its demand is not active. -/
theorem processCommand_reader (kind : command.type = .readPiece) {waiter : Nat} (own : command.waiter = some waiter)
    (waits : finished ((state.processCommand lt command).1.waiters waiter) = false) :
    Active state command.demandId := by
  cases reading : state.readerOf command.demandId with
  | some demand => exact ⟨demand, readerOf_eq_some reading⟩
  | none =>
      unfold BridgeState.processCommand at waits
      simp only [kind, BridgeState.readPiece, reading, own] at waits
      have completed : finished ((state.completeWaiter none "stream demand is no longer active" waiter).waiters
          waiter) = true := by
        simp only [BridgeState.completeWaiter, Function.update_self]
        exact completeWaiter_finished _ _ _
      rw [completed] at waits
      simp at waits

/-- The end of a demand comes when its waiters are finished, and a read carries a waiter of its demand. -/
theorem processCommand_backed (backed : Backed state)
    (ends : command.type = .endDemand → ∀ key waiter, Held state key waiter →
      (state.waiters waiter).demandId = command.demandId → finished (state.waiters waiter) = true)
    (reads : command.type = .readPiece → ∀ waiter, command.waiter = some waiter →
      (state.waiters waiter).demandId = command.demandId) :
    Backed (state.processCommand lt command).1 := by
  have takes := processCommand_takes state lt command
  intro key waiter held waits
  have waiting : finished (state.waiters waiter) = false := unfinished_before (takes.heap waiter).2 waits
  rw [(takes.heap waiter).1]
  rcases takes.held key waiter held with old | ⟨kind, own⟩
  · refine (backed key waiter old waiting).processCommand ?_
    rintro ⟨kind, same⟩
    rw [ends kind key waiter old same.symm] at waiting
    simp at waiting
  · rw [reads kind waiter own]
    refine (processCommand_reader kind own waits).processCommand ?_
    rintro ⟨other, _⟩
    simp [kind] at other

theorem processCommands_backed (answers : Nat → Libtorrent) {bound : Nat} (commands : List HttpCommand) {position : Nat}
    {changed : List String} (backed : Backed state) (below : ∀ key waiter, Held state key waiter → waiter < bound)
    (ends : ∀ command ∈ commands, command.type = .endDemand → ∀ waiter < bound,
      (state.waiters waiter).demandId = command.demandId → finished (state.waiters waiter) = true)
    (reads : ∀ command ∈ commands, command.type = .readPiece → ∀ waiter, command.waiter = some waiter →
      waiter < bound ∧ (state.waiters waiter).demandId = command.demandId) :
    Backed (processCommands answers position commands state changed).1 := by
  induction commands generalizing state position changed with
  | nil => exact backed
  | cons command rest ih =>
      have takes := processCommand_takes state (answers position) command
      have first : Backed (state.processCommand (answers position) command).1 := by
        refine processCommand_backed backed ?_ ?_
        · exact fun kind key waiter held => ends command List.mem_cons_self kind waiter (below key waiter held)
        · exact fun kind waiter own => (reads command List.mem_cons_self kind waiter own).2
      rw [processCommands]
      split
      · exact first
      · refine ih first ?_ ?_ ?_
        · intro key waiter held
          rcases takes.held key waiter held with old | ⟨kind, own⟩
          · exact below key waiter old
          · exact (reads command List.mem_cons_self kind waiter own).1
        · intro later member kind waiter old same
          rw [(takes.heap waiter).1] at same
          exact (takes.heap waiter).2 (ends later (List.mem_cons_of_mem _ member) kind waiter old same)
        · intro later member kind waiter own
          obtain ⟨old, same⟩ := reads later (List.mem_cons_of_mem _ member) kind waiter own
          exact ⟨old, (takes.heap waiter).1.trans same⟩

theorem poll_backed {answers : PollAnswers} {bound : Nat} (quiet : (state.poll answers).2 = false)
    (backed : Backed state) (below : ∀ key waiter, Held state key waiter → waiter < bound)
    (ends : ∀ command ∈ state.commands, command.type = .endDemand → ∀ waiter < bound,
      (state.waiters waiter).demandId = command.demandId → finished (state.waiters waiter) = true)
    (reads : ∀ command ∈ state.commands, command.type = .readPiece → ∀ waiter, command.waiter = some waiter →
      waiter < bound ∧ (state.waiters waiter).demandId = command.demandId) :
    Backed (state.poll answers).1 := by
  have emptied : Backed { state with commands := [] } := backed
  have batch : Backed (processCommands answers.command 0 state.commands { state with commands := [] } []).1 :=
    processCommands_backed answers.command state.commands emptied below ends reads
  obtain ⟨drops, _, supplies⟩ := poll_rest quiet rfl
  intro key waiter held waits
  have active := batch key waiter (drops key waiter held) (unfinished_before supplies.finishes waits)
  unfold Active at active ⊢
  rw [(poll_demands quiet).2, supplies.demandId]
  exact active

end Commands

/-- What the worker does, when the queue ends only demands whose waiters are finished. -/
theorem work_backed {handles : Handles} {session : Session} (attended : Attended handles session)
    (backed : Backed session.bridge) {action : Action} (works : Server.isWork action = true)
    (possible : session.system.Possible action)
    (ends : ∀ command ∈ session.bridge.commands, command.type = .endDemand → ∀ waiter < session.nextWaiter,
      (session.bridge.waiters waiter).demandId = command.demandId →
        finished (session.bridge.waiters waiter) = true) :
    Backed (session.perform (.work action)).bridge := by
  by_cases polls : ∃ answers, action = .poll answers
  · obtain ⟨answers, rfl⟩ := polls
    refine poll_backed possible backed (fun key waiter held => (attended.disciplined.held key waiter held).1) ends ?_
    intro command member kind waiter own
    obtain ⟨_, other, also, fresh, demand, _⟩ := (attended.disciplined.queued command member).reads kind
    obtain rfl : other = waiter := Option.some.inj (also.symm.trans own)
    exact ⟨fresh, demand⟩
  · refine backed.step (perform_backs session.bridge attended.served works fun answers same => ?_)
    exact polls ⟨answers, same⟩

end NuvioEngine.Bridge
