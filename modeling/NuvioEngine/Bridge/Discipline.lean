import NuvioEngine.Bridge.Serving

/-!
The discipline of the HTTP threads: a demand begins before its reads, its waiters are made one after
the other, and the queue keeps that order. A read that the worker takes from the queue is therefore
the only open one of its demand.
-/

namespace NuvioEngine.Bridge

open NuvioEngine.Scheduler NuvioEngine.Stream NuvioEngine.Cache BridgeState

/-- What a queued command carries, and how it relates to the waiters that are already held. -/
def Proper (session : Session) (state : BridgeState) (command : HttpCommand) : Prop :=
  match command.type with
  | .beginDemand => ∃ request, session.requests command.demandId = some request ∧
      command.route = request.route ∧ Readable command.route command.range ∧
      ∀ key waiter, Held state key waiter → (state.waiters waiter).demandId ≠ command.demandId
  | .endDemand => True
  | .readPiece => ∃ request waiter, session.requests command.demandId = some request ∧
      command.route = request.route ∧ Readable command.route command.range ∧
      command.piece = pieceAt command.route.fileOffset command.route.pieceSize command.range.start ∧
      command.waiter = some waiter ∧ waiter < session.nextWaiter ∧
      (state.waiters waiter).demandId = command.demandId ∧
      ∀ key other, Held state key other → other < waiter

/-- Later reads have later waiters, and no read comes before the beginning of its demand. -/
def Precedes (first second : HttpCommand) : Prop :=
  first.type = .readPiece →
    (second.type = .readPiece → ∀ left right, first.waiter = some left →
      second.waiter = some right → left < right) ∧
    (second.type = .beginDemand → first.demandId ≠ second.demandId)

structure Disciplined (handles : Handles) (session : Session) (state : BridgeState)
    (queue : List HttpCommand) : Prop where
  routes : ∀ route ∈ session.system.registered, 0 < route.pieceSize ∧ route.pieceSize ≤ uint32Max ∧
    Indexed route ∧ handles.torrentOf route.handle = route.torrentId
  requests : ∀ demandId request, session.requests demandId = some request →
    demandId < state.nextDemandId ∧ request.route ∈ session.system.registered ∧
      request.bodyRange.start ≤ request.bodyRange.last ∧
      request.bodyRange.last < request.route.fileSize
  demands : ∀ demandId demand, state.activeDemands.lookup demandId = some demand →
    ∃ request, session.requests demandId = some request ∧ demand.route = request.route ∧
      Readable demand.route demand.range
  held : ∀ key waiter, Held state key waiter → waiter < session.nextWaiter ∧
    (session.requests (state.waiters waiter).demandId).isSome
  ordered : ∀ first second, first < second → second < session.nextWaiter →
    (state.waiters first).demandId = (state.waiters second).demandId →
    finished (state.waiters first) = true
  queued : ∀ command ∈ queue, Proper session state command
  sequence : queue.Pairwise Precedes

/-- What taking a command from the queue may do: hold its waiter and set its demand. -/
structure Takes (command : HttpCommand) (before after : BridgeState) : Prop where
  heap : ∀ waiter, (after.waiters waiter).demandId = (before.waiters waiter).demandId ∧
    (finished (before.waiters waiter) = true → finished (after.waiters waiter) = true)
  held : ∀ key waiter, Held after key waiter →
    Held before key waiter ∨ (command.type = .readPiece ∧ command.waiter = some waiter)
  demands : ∀ demandId demand, after.activeDemands.lookup demandId = some demand →
    (∃ old, before.activeDemands.lookup demandId = some old ∧ old.route = demand.route ∧
      old.range = demand.range) ∨
    (demandId = command.demandId ∧ command.type ≠ .endDemand ∧ demand.range = command.range ∧
      (demand.route = command.route ∨
        ∃ old, before.activeDemands.lookup demandId = some old ∧ old.route = demand.route))
  nextDemandId : after.nextDemandId = before.nextDemandId

theorem Takes.ofHolds {before after : BridgeState} (command : HttpCommand)
    (holds : Holds before after) (number : after.nextDemandId = before.nextDemandId) :
    Takes command before after := by
  refine ⟨holds.heap, fun key waiter held => Or.inl (holds.held key waiter held), ?_, number⟩
  intro demandId demand found
  obtain ⟨old, present, route, range, _⟩ := holds.demands demandId demand found
  exact Or.inl ⟨old, present, route, range⟩

section Take

variable {command : HttpCommand} {first second third : BridgeState}

theorem Takes.holds (takes : Takes command first second) (holds : Holds second third)
    (number : third.nextDemandId = second.nextDemandId) : Takes command first third := by
  refine ⟨fun waiter => ⟨(holds.heap waiter).1.trans (takes.heap waiter).1,
    fun past => (holds.heap waiter).2 ((takes.heap waiter).2 past)⟩,
    fun key waiter held => takes.held key waiter (holds.held key waiter held), ?_,
    number.trans takes.nextDemandId⟩
  intro demandId demand found
  obtain ⟨old, present, route, range, _⟩ := holds.demands demandId demand found
  rw [← route, ← range]
  exact takes.demands demandId old present

theorem Takes.holdWaiter (takes : Takes command first second) (kind : command.type = .readPiece)
    (key : PieceKey) {waiter : Nat} (own : command.waiter = some waiter) :
    Takes command first (second.holdWaiter key waiter) := by
  refine ⟨takes.heap, ?_, takes.demands, takes.nextDemandId⟩
  intro query other held
  rcases held_holdWaiter held with old | ⟨_, rfl⟩
  · exact takes.held query other old
  · exact Or.inr ⟨kind, own⟩

theorem Takes.setNeedsData (takes : Takes command first second) (demandId : Nat) (needsData : Bool) :
    Takes command first (second.setNeedsData demandId needsData) := by
  unfold BridgeState.setNeedsData
  split
  · exact takes
  · rename_i demand present
    refine ⟨takes.heap, takes.held, ?_, takes.nextDemandId⟩
    intro query other found
    simp only [AList.lookup_insert_ite] at found
    split at found
    · rename_i same
      obtain rfl := Option.some.inj found
      exact takes.demands query demand (same ▸ present)
    · exact takes.demands query other found

end Take

theorem requestRead_holds (state : BridgeState) (lt : Libtorrent) (handle : Nat) (key : PieceKey) :
    Holds state (state.requestRead lt handle key) := by
  unfold requestRead
  split
  · exact Holds.refl state
  · split
    · rename_i sent accepted
      unfold attempt at accepted
      split at accepted
      · simp at accepted
      · simp only [Except.ok.injEq] at accepted
        subst accepted
        exact Holds.same rfl rfl rfl
    · exact (failPiece_eases state key _).holds

theorem publishWritten_eases (state : BridgeState) (lt : Libtorrent) (handle : Nat)
    (metadata : TorrentInfo) (key : PieceKey) (waiter : Nat) :
    Eases state (state.publishWritten lt handle metadata key waiter) := by
  unfold publishWritten
  split
  · exact publishBlocks_eases state _ waiter
  · refine Eases.trans ?_ (publishBlocks_eases _ _ waiter)
    exact (Eases.refl state).congr rfl rfl rfl rfl rfl rfl

theorem awaitPiece_takes {state first : BridgeState} {command : HttpCommand}
    (takes : Takes command first state) (lt : Libtorrent) (metadata : TorrentInfo)
    (kind : command.type = .readPiece) {waiter : Nat} (own : command.waiter = some waiter) :
    Takes command first (state.awaitPiece lt metadata command waiter) := by
  have held := takes.holdWaiter kind ⟨command.route.torrentId, command.piece⟩ own
  unfold awaitPiece
  simp only
  split
  · exact (held.setNeedsData _ _).holds (requestRead_holds _ _ _ _)
      (requestRead_sends _ _ _ _).nextDemandId
  · exact (held.setNeedsData _ _).holds (publishWritten_eases _ _ _ _ _ _).holds
      (publishWritten_sends _ _ _ _ _ _).nextDemandId

theorem processPieceRequest_takes {state first : BridgeState} {command : HttpCommand}
    (takes : Takes command first state) (lt : Libtorrent) (kind : command.type = .readPiece) :
    Takes command first (state.processPieceRequest lt command).1 := by
  have completed : ∀ error waiter, Takes command first (state.completeWaiter none error waiter) :=
    fun error waiter => takes.holds (completeWaiter_eases state none error waiter).holds rfl
  unfold processPieceRequest
  split
  · exact takes
  · rename_i waiter own
    split
    · exact completed _ _
    · split
      · exact takes
      · exact completed _ _
      · split
        · exact completed _ _
        · split
          · refine (Takes.setNeedsData ?_ command.demandId false).holds
              (completeWaiter_eases _ _ _ _).holds rfl
            exact takes.holds (Holds.same rfl rfl rfl) rfl
          · refine awaitPiece_takes ?_ lt _ kind own
            exact takes.holds (Holds.same rfl rfl rfl) rfl

theorem moveDemand_takes {state : BridgeState} {command : HttpCommand} {demand : ActiveDemand}
    (kind : command.type = .readPiece)
    (present : state.activeDemands.lookup command.demandId = some demand) :
    Takes command state (state.moveDemand command.demandId demand command.range) := by
  refine ⟨fun _ => ⟨rfl, fun past => past⟩, fun _ _ held => Or.inl held, ?_, rfl⟩
  intro demandId found active
  simp only [moveDemand, AList.lookup_insert_ite] at active
  split at active
  · rename_i same
    obtain rfl := Option.some.inj active
    exact Or.inr ⟨same, by simp [kind], rfl, Or.inr ⟨demand, same ▸ present, rfl⟩⟩
  · exact Or.inl ⟨found, active, rfl, rfl⟩

theorem processCommand_takes (state : BridgeState) (lt : Libtorrent) (command : HttpCommand) :
    Takes command state (state.processCommand lt command).1 := by
  unfold processCommand
  cases kind : command.type with
  | beginDemand =>
      simp only [beginDemand]
      split
      · refine ⟨fun _ => ⟨rfl, fun past => past⟩, fun _ _ held => Or.inl held, ?_, rfl⟩
        intro demandId found active
        simp only [AList.lookup_insert_ite] at active
        split at active
        · rename_i same
          obtain rfl := Option.some.inj active
          exact Or.inr ⟨same, by simp [kind], rfl, Or.inl rfl⟩
        · exact Or.inl ⟨found, active, rfl, rfl⟩
      · exact Takes.ofHolds command (cancelDemandState_eases state command.demandState).holds
          (Works.ofLeaves (Leaves.ofStops (cancelDemandState_stops state command.demandState))).nextDemandId
  | endDemand =>
      simp only [endDemand]
      split
      · exact Takes.ofHolds command (Holds.refl state) rfl
      · exact Takes.ofHolds command (eraseDemand_eases state command.demandId).holds rfl
  | readPiece =>
      simp only [BridgeState.readPiece]
      split
      · split
        · exact Takes.ofHolds command (Holds.refl state) rfl
        · exact Takes.ofHolds command (completeWaiter_eases state _ _ _).holds rfl
      · rename_i demand reading
        exact processPieceRequest_takes (moveDemand_takes kind (readerOf_eq_some reading)) lt kind

section Discipline

variable {handles : Handles} {session : Session} {state next : BridgeState} {command : HttpCommand}
  {rest queue : List HttpCommand}

theorem Proper.carries (proper : Proper session state command) (kind : command.type ≠ .endDemand) :
    ∃ request, session.requests command.demandId = some request ∧ command.route = request.route ∧
      Readable command.route command.range := by
  unfold Proper at proper
  split at proper
  · obtain ⟨request, known, route, readable, _⟩ := proper
    exact ⟨request, known, route, readable⟩
  · rename_i ends
    exact absurd ends kind
  · obtain ⟨request, _, known, route, readable, _⟩ := proper
    exact ⟨request, known, route, readable⟩

theorem Proper.reads (proper : Proper session state command) (kind : command.type = .readPiece) :
    command.piece = pieceAt command.route.fileOffset command.route.pieceSize command.range.start ∧
      ∃ waiter, command.waiter = some waiter ∧ waiter < session.nextWaiter ∧
        (state.waiters waiter).demandId = command.demandId ∧
        ∀ key other, Held state key other → other < waiter := by
  rw [Proper, kind] at proper
  obtain ⟨_, waiter, _, _, _, piece, own, fresh, demand, newest⟩ := proper
  exact ⟨piece, waiter, own, fresh, demand, newest⟩

theorem Proper.takes {other : HttpCommand} (proper : Proper session state other)
    (takes : Takes command state next) (precedes : Precedes command other)
    (own : command.type = .readPiece → ∀ waiter, command.waiter = some waiter →
      (state.waiters waiter).demandId = command.demandId) : Proper session next other := by
  unfold Proper at proper ⊢
  split at proper
  · rename_i begins
    obtain ⟨request, known, route, readable, unused⟩ := proper
    refine ⟨request, known, route, readable, ?_⟩
    intro key waiter held
    rw [(takes.heap waiter).1]
    rcases takes.held key waiter held with old | ⟨kind, new⟩
    · exact unused key waiter old
    · rw [own kind waiter new]
      exact (precedes kind).2 begins
  · trivial
  · rename_i reads
    obtain ⟨request, waiter, known, route, readable, piece, last, fresh, demand, newest⟩ := proper
    refine ⟨request, waiter, known, route, readable, piece, last, fresh, ?_, ?_⟩
    · rw [(takes.heap waiter).1]
      exact demand
    · intro key query held
      rcases takes.held key query held with old | ⟨kind, new⟩
      · exact newest key query old
      · exact (precedes kind).1 reads query waiter new last

theorem Disciplined.takes (disciplined : Disciplined handles session state (command :: rest))
    (takes : Takes command state next) : Disciplined handles session next rest := by
  have proper := disciplined.queued command List.mem_cons_self
  have own : command.type = .readPiece → ∀ waiter, command.waiter = some waiter →
      waiter < session.nextWaiter ∧ (state.waiters waiter).demandId = command.demandId := by
    intro kind waiter found
    obtain ⟨_, other, known, fresh, demand, _⟩ := proper.reads kind
    obtain rfl : waiter = other := Option.some.inj (found.symm.trans known)
    exact ⟨fresh, demand⟩
  refine ⟨disciplined.routes, ?_, ?_, ?_, ?_, ?_, (List.pairwise_cons.mp disciplined.sequence).2⟩
  · rw [takes.nextDemandId]
    exact disciplined.requests
  · intro demandId demand found
    rcases takes.demands demandId demand found with ⟨old, present, route, range⟩ |
      ⟨rfl, kind, range, route⟩
    · rw [← route, ← range]
      exact disciplined.demands demandId old present
    · obtain ⟨request, known, commandRoute, readable⟩ := proper.carries kind
      have same : demand.route = command.route := by
        rcases route with same | ⟨old, present, oldRoute⟩
        · exact same
        · obtain ⟨other, otherKnown, otherRoute, _⟩ := disciplined.demands _ old present
          obtain rfl : request = other := Option.some.inj (known.symm.trans otherKnown)
          rw [← oldRoute, otherRoute, commandRoute]
      rw [same, range]
      exact ⟨request, known, commandRoute, readable⟩
  · intro key waiter held
    rw [(takes.heap waiter).1]
    rcases takes.held key waiter held with old | ⟨kind, new⟩
    · exact disciplined.held key waiter old
    · obtain ⟨fresh, demand⟩ := own kind waiter new
      obtain ⟨request, known, _⟩ := proper.carries (by simp [kind])
      rw [demand, known]
      exact ⟨fresh, rfl⟩
  · intro first second below fresh same
    rw [(takes.heap first).1, (takes.heap second).1] at same
    exact (takes.heap first).2 (disciplined.ordered first second below fresh same)
  · intro other member
    exact (disciplined.queued other (List.mem_cons_of_mem _ member)).takes takes
      ((List.pairwise_cons.mp disciplined.sequence).1 other member)
      fun kind waiter found => (own kind waiter found).2

theorem Disciplined.holds (disciplined : Disciplined handles session state queue)
    (holds : Holds state next) (number : next.nextDemandId = state.nextDemandId) :
    Disciplined handles session next queue := by
  -- an end command in front of the queue changes nothing
  have ended : Disciplined handles session state
      (⟨.endDemand, 0, ⟨0, "", "", "", "", 0, 0, 0, 0, ""⟩, ⟨0, 0⟩, 0, none, none⟩ :: queue) :=
    ⟨disciplined.routes, disciplined.requests, disciplined.demands, disciplined.held,
      disciplined.ordered, fun command member => by
        rcases List.mem_cons.mp member with rfl | old
        · trivial
        · exact disciplined.queued command old,
      List.pairwise_cons.mpr ⟨fun _ _ impossible => by simp at impossible, disciplined.sequence⟩⟩
  exact ended.takes (Takes.ofHolds _ holds number)

theorem Disciplined.finished_before (disciplined : Disciplined handles session state (command :: rest))
    (kind : command.type = .readPiece) {key : PieceKey} {waiter : Nat} (held : Held state key waiter)
    (same : (state.waiters waiter).demandId = command.demandId) :
    finished (state.waiters waiter) = true := by
  obtain ⟨_, own, _, fresh, demand, newest⟩ :=
    (disciplined.queued command List.mem_cons_self).reads kind
  exact disciplined.ordered waiter own (newest key waiter held) fresh (same.trans demand.symm)

end Discipline

end NuvioEngine.Bridge
