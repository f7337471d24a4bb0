import NuvioEngine.Bridge.Attendance
import NuvioEngine.Bridge.DrainCore
import NuvioEngine.Bridge.Failure

/-!
Demands drain. An id is active only between its begin and its end command, and when the queue is empty
and no handler is running there is no active demand. A waiter that is held belongs to a running
handler or is cancelled, and the next `poll` lets the cancelled ones go.
-/

namespace NuvioEngine.Bridge

open NuvioEngine.Scheduler NuvioEngine.Stream NuvioEngine.Cache BridgeState

theorem serveLoop_finished {route : StreamRoute} {slice : PieceSlice} {rounds : List Round}
    {before after : ServeState} {ok : Bool}
    (returned : serveLoop route slice rounds before = (after, some ok)) :
    finished after.waiter = true := by
  have verified : ∀ {round data} {state : ServeState}, state.waiter.done = true →
      serveVerified slice round data state = (after, some ok) → finished after.waiter = true := by
    intro round data state done served
    unfold serveVerified at served
    split at served
    · rw [← (Prod.mk.inj served).1]
      simp [finished, done]
    · split at served
      · rw [← (Prod.mk.inj served).1]
        simp [finished, done]
      · rw [← (Prod.mk.inj served).1]
        simp [finished, done]
  have unverified : ∀ {round runEnd} {state : ServeState},
      serveUnverified route slice round runEnd state = (after, some ok) → finished after.waiter = true := by
    intro round runEnd state served
    unfold serveUnverified at served
    simp only at served
    split at served
    · simp at served
    · split at served
      · simp at served
      · split at served
        · rw [← (Prod.mk.inj served).1]
          simp [finished, ServeState.abandon]
        · simp at served
  have abandoned : ∀ {state : ServeState} {result : Bool},
      (state.abandon, some result) = (after, some ok) → finished after.waiter = true := by
    intro state result same
    rw [← (Prod.mk.inj same).1]
    simp [finished, ServeState.abandon]
  have turn : ∀ {round} {state : ServeState},
      serveRound route slice round state = (after, some ok) → finished after.waiter = true := by
    intro round state served
    unfold serveRound at served
    simp only at served
    split at served
    · exact abandoned served
    · split at served
      · rename_i done
        split at served
        · exact verified done served
        · exact unverified served
      · split at served
        · exact unverified served
        · exact abandoned served
  induction rounds generalizing before with
  | nil =>
      rw [serveLoop] at returned
      split at returned
      · simp at returned
      · exact abandoned returned
  | cons round rest ih =>
      rw [serveLoop] at returned
      split at returned
      · split at returned
        · exact ih returned
        · exact turn returned
      · exact abandoned returned

/-- What is held is not done, and is cancelled or served; what is queued to be read is neither held nor
done yet. -/
structure Watched (bound : Nat) (served : Nat → Prop) (state : BridgeState) (queue : List HttpCommand) :
    Prop where
  held : ∀ key waiter, Held state key waiter → waiter < bound ∧
    (state.waiters waiter).done = false ∧ ((state.waiters waiter).cancelled = true ∨ served waiter)
  unique : ∀ first second waiter, Held state first waiter → Held state second waiter → first = second
  queued : ∀ command ∈ queue, command.type = .readPiece → ∀ waiter, command.waiter = some waiter →
    waiter < bound ∧ (∀ key, ¬ Held state key waiter) ∧ (state.waiters waiter).done = false ∧
      ((state.waiters waiter).cancelled = true ∨ served waiter)
  distinct : queue.Pairwise fun first second => first.type = .readPiece → second.type = .readPiece →
    ∀ waiter, first.waiter = some waiter → second.waiter ≠ some waiter

namespace Watched

variable {bound : Nat} {served : Nat → Prop} {state next : BridgeState} {queue : List HttpCommand}

theorem releases (watched : Watched bound served state queue) (releases : Releases state next) :
    Watched bound served next queue := by
  refine ⟨?_, ?_, ?_, watched.distinct⟩
  · intro key waiter now
    have old := releases.drops key waiter now
    obtain ⟨below, undone, kept⟩ := watched.held key waiter old
    refine ⟨below, ?_, ?_⟩
    · rw [← Bool.not_eq_true]
      intro done
      rcases releases.answers waiter done with before | ⟨other, held, gone⟩
      · rw [undone] at before
        simp at before
      · rw [watched.unique other key waiter held old] at gone
        exact gone now
    · rw [releases.cancelled]
      exact kept
  · intro first second waiter left right
    exact watched.unique first second waiter (releases.drops first waiter left)
      (releases.drops second waiter right)
  · intro command member kind waiter own
    obtain ⟨below, unheld, undone, kept⟩ := watched.queued command member kind waiter own
    refine ⟨below, fun key now => unheld key (releases.drops key waiter now), ?_, ?_⟩
    · rw [← Bool.not_eq_true]
      intro done
      rcases releases.answers waiter done with before | ⟨key, held, _⟩
      · rw [undone] at before
        simp at before
      · exact unheld key held
    · rw [releases.cancelled]
      exact kept

theorem settles {command : HttpCommand} {rest : List HttpCommand}
    (watched : Watched bound served state (command :: rest)) (settles : Settles command state next) :
    Watched bound served next rest := by
  obtain ⟨apart, distinct⟩ := List.pairwise_cons.mp watched.distinct
  have fresh : ∀ waiter, command.type = .readPiece → command.waiter = some waiter →
      waiter < bound ∧ (∀ key, ¬ Held state key waiter) ∧ (state.waiters waiter).done = false ∧
        ((state.waiters waiter).cancelled = true ∨ served waiter) :=
    fun waiter kind own => watched.queued command List.mem_cons_self kind waiter own
  refine ⟨?_, ?_, ?_, distinct⟩
  · intro key waiter now
    have known : waiter < bound ∧ (state.waiters waiter).done = false ∧
        ((state.waiters waiter).cancelled = true ∨ served waiter) := by
      rcases settles.held key waiter now with old | ⟨kind, own, _⟩
      · exact watched.held key waiter old
      · obtain ⟨below, _, undone, kept⟩ := fresh waiter kind own
        exact ⟨below, undone, kept⟩
    refine ⟨known.1, ?_, ?_⟩
    · rw [← Bool.not_eq_true]
      intro done
      rcases settles.answers waiter done with before | ⟨other, held, gone⟩ | ⟨kind, own, only⟩
      · rw [known.2.1] at before
        simp at before
      · rcases settles.held key waiter now with old | ⟨kind, own, _⟩
        · rw [watched.unique other key waiter held old] at gone
          exact gone now
        · exact (fresh waiter kind own).2.1 other held
      · exact (fresh waiter kind own).2.1 key (only key now)
    · rw [settles.cancelled]
      exact known.2.2
  · intro first second waiter left right
    rcases settles.held first waiter left with old | ⟨kind, own, same⟩
    · rcases settles.held second waiter right with other | ⟨kind, own, _⟩
      · exact watched.unique first second waiter old other
      · exact absurd old ((fresh waiter kind own).2.1 first)
    · rcases settles.held second waiter right with other | ⟨_, _, also⟩
      · exact absurd other ((fresh waiter kind own).2.1 second)
      · rw [same, also]
  · intro other member kind waiter own
    obtain ⟨below, unheld, undone, kept⟩ :=
      watched.queued other (List.mem_cons_of_mem _ member) kind waiter own
    refine ⟨below, ?_, ?_, ?_⟩
    · intro key now
      rcases settles.held key waiter now with old | ⟨taking, taken, _⟩
      · exact unheld key old
      · exact apart other member taking kind waiter taken own
    · rw [← Bool.not_eq_true]
      intro done
      rcases settles.answers waiter done with before | ⟨key, held, _⟩ | ⟨taking, taken, _⟩
      · rw [undone] at before
        simp at before
      · exact unheld key held
      · exact apart other member taking kind waiter taken own
    · rw [settles.cancelled]
      exact kept

theorem processCommands (answers : Nat → Libtorrent) {position : Nat} {changed : List String}
    (watched : Watched bound served state queue)
    (quiet : (BridgeState.processCommands answers position queue state changed).2.2 = false) :
    Watched bound served (BridgeState.processCommands answers position queue state changed).1 [] := by
  induction queue generalizing position state changed with
  | nil => exact watched
  | cons command rest ih =>
      have here := watched.settles (processCommand_settles state (answers position) command).1
      rw [BridgeState.processCommands] at quiet ⊢
      split at quiet
      · simp at quiet
      · rename_i calm
        rw [if_neg calm]
        exact ih here quiet

theorem prune (watched : Watched bound served state []) :
    Watched bound served state.pruneCancelledWaiters [] ∧
      ∀ key waiter, Held state.pruneCancelledWaiters key waiter →
        (state.waiters waiter).cancelled = false := by
  have kept : ∀ key waiter, Held state.pruneCancelledWaiters key waiter ↔
      Held state key waiter ∧ (state.waiters waiter).cancelled = false :=
    fun key waiter => held_dropWaiters state
  refine ⟨⟨?_, ?_, by simp, List.Pairwise.nil⟩, fun key waiter now => ((kept key waiter).mp now).2⟩
  · intro key waiter now
    exact watched.held key waiter ((kept key waiter).mp now).1
  · intro first second waiter left right
    exact watched.unique first second waiter ((kept first waiter).mp left).1
      ((kept second waiter).mp right).1

theorem poll (watched : Watched bound served state state.commands) {answers : PollAnswers}
    (quiet : (state.poll answers).2 = false) :
    Watched bound served (state.poll answers).1 [] ∧
      ∀ key waiter, Held (state.poll answers).1 key waiter → served waiter := by
  have emptied : Watched bound served { state with commands := [] } state.commands :=
    watched.releases (Releases.same rfl rfl)
  have calm : (BridgeState.processCommands answers.command 0 state.commands
      { state with commands := [] } []).2.2 = false := by
    unfold BridgeState.poll at quiet
    simp only at quiet
    split at quiet
    · simp at quiet
    · rename_i calm
      simpa using calm
  have processed := emptied.processCommands answers.command calm
  have ended := poll_eq quiet
  unfold polled at ended
  simp only at ended
  generalize BridgeState.processCommands answers.command 0 state.commands
    { state with commands := [] } [] = batch at processed ended
  obtain ⟨pruned, kept⟩ := processed.prune
  have after := (((recomputeAll_withdraws batch.1.pruneCancelledWaiters answers.recompute batch.2.1).trans
    (reissueStalledReads_withdraws answers.watchdog _)).trans
      (expireInactiveStreams_withdraws _ answers.expiry answers.expired)).releases
  rw [ended]
  have result := pruned.releases after
  refine ⟨result, ?_⟩
  intro key waiter now
  rcases (result.held key waiter now).2.2 with cancelled | serves
  · rw [after.cancelled] at cancelled
    have spared := kept key waiter (after.drops key waiter now)
    rw [show batch.1.pruneCancelledWaiters.waiters = batch.1.waiters from rfl, spared] at cancelled
    simp at cancelled
  · exact serves

/-- A step of a handler: the waiters stay where they are, and one that is not served any more is
cancelled. -/
theorem transfer (watched : Watched bound served state queue) {wider : Nat} {serving : Nat → Prop}
    (grows : bound ≤ wider) (pieceWaiters : next.pieceWaiters = state.pieceWaiters)
    (heap : ∀ waiter < bound, (next.waiters waiter).done = (state.waiters waiter).done ∧
      ((state.waiters waiter).cancelled = true → (next.waiters waiter).cancelled = true))
    (serves : ∀ waiter < bound, (state.waiters waiter).done = false → served waiter →
      (next.waiters waiter).cancelled = true ∨ serving waiter) :
    Watched wider serving next queue := by
  have same : ∀ key waiter, Held next key waiter ↔ Held state key waiter := by
    intro key waiter
    rw [Held, Held, pieceWaiters]
  have kept : ∀ waiter, waiter < bound → (state.waiters waiter).done = false →
      ((state.waiters waiter).cancelled = true ∨ served waiter) →
      waiter < wider ∧ (next.waiters waiter).done = false ∧
        ((next.waiters waiter).cancelled = true ∨ serving waiter) := by
    intro waiter below undone reason
    refine ⟨Nat.lt_of_lt_of_le below grows, (heap waiter below).1.trans undone, ?_⟩
    rcases reason with cancelled | active
    · exact Or.inl ((heap waiter below).2 cancelled)
    · exact serves waiter below undone active
  refine ⟨?_, ?_, ?_, watched.distinct⟩
  · intro key waiter now
    obtain ⟨below, undone, reason⟩ := watched.held key waiter ((same key waiter).mp now)
    exact kept waiter below undone reason
  · intro first second waiter left right
    exact watched.unique first second waiter ((same first waiter).mp left) ((same second waiter).mp right)
  · intro command member kind waiter own
    obtain ⟨below, unheld, undone, reason⟩ := watched.queued command member kind waiter own
    obtain ⟨within, still, left⟩ := kept waiter below undone reason
    exact ⟨within, fun key now => unheld key ((same key waiter).mp now), still, left⟩

theorem enqueue (watched : Watched bound served state queue) {command : HttpCommand}
    (read : command.type = .readPiece → ∀ waiter, command.waiter = some waiter →
      waiter < bound ∧ (∀ key, ¬ Held state key waiter) ∧ (state.waiters waiter).done = false ∧
        ((state.waiters waiter).cancelled = true ∨ served waiter))
    (distinct : ∀ other ∈ queue, other.type = .readPiece → command.type = .readPiece →
      ∀ waiter, other.waiter = some waiter → command.waiter ≠ some waiter) :
    Watched bound served state (queue ++ [command]) := by
  refine ⟨watched.held, watched.unique, ?_, ?_⟩
  · intro other member
    rcases List.mem_append.mp member with old | new
    · exact watched.queued other old
    · rw [List.mem_singleton.mp new]
      exact read
  · rw [List.pairwise_append]
    refine ⟨watched.distinct, List.pairwise_singleton _ _, ?_⟩
    intro other member second last
    rw [List.mem_singleton.mp last]
    exact distinct other member

end Watched

/-- What the worker does besides `poll`: no command is queued or taken, no demand begins, and the
waiters that go are answered. -/
structure Toils (before after : BridgeState) : Prop where
  commands : after.commands = before.commands
  nextDemandId : after.nextDemandId = before.nextDemandId
  sheds : ∀ demandId, before.activeDemands.lookup demandId = none →
    after.activeDemands.lookup demandId = none
  releases : Releases before after

section Work

variable (lt : Libtorrent) (state : BridgeState)

theorem sheds_of_old {before after : BridgeState}
    (demands : ∀ demandId demand, after.activeDemands.lookup demandId = some demand →
      ∃ old, before.activeDemands.lookup demandId = some old) (demandId : Nat)
    (absent : before.activeDemands.lookup demandId = none) :
    after.activeDemands.lookup demandId = none := by
  cases found : after.activeDemands.lookup demandId with
  | none => rfl
  | some demand =>
      obtain ⟨old, present⟩ := demands demandId demand found
      rw [absent] at present
      simp at present

theorem Eases.sheds {before after : BridgeState} (eases : Eases before after) (demandId : Nat)
    (absent : before.activeDemands.lookup demandId = none) :
    after.activeDemands.lookup demandId = none := by
  refine sheds_of_old (fun query demand found => ?_) demandId absent
  obtain ⟨old, present, _⟩ := eases.holds.demands query demand found
  exact ⟨old, present⟩

theorem stopStream_sheds (streamId : String) (demandId : Nat)
    (absent : state.activeDemands.lookup demandId = none) :
    (stopStream lt state streamId).1.activeDemands.lookup demandId = none := by
  have stops := (stopped_eases state streamId).sheds demandId absent
  unfold stopStream
  simp only
  split
  · exact stops
  · rw [(recomputeSchedule_recomputes _ _ _).activeDemands]
    exact stops

theorem removeTorrent_sheds (id : String) (demandId : Nat)
    (absent : state.activeDemands.lookup demandId = none) :
    (removeTorrent lt state id).activeDemands.lookup demandId = none := by
  rw [(removeTorrent_sends id lt).activeDemands, (recomputeSchedule_recomputes _ _ _).activeDemands]
  exact (removed_eases state id).sheds demandId absent

theorem vacated_sheds (route : StreamRoute) (demandId : Nat)
    (absent : state.activeDemands.lookup demandId = none) :
    (vacated lt state route).activeDemands.lookup demandId = none := by
  have stops : ∀ (streams : List String) (current : BridgeState),
      current.activeDemands.lookup demandId = none →
        (streams.foldl (fun current streamId => (stopStream lt current streamId).1)
          current).activeDemands.lookup demandId = none := by
    intro streams
    induction streams with
    | nil => exact fun _ absent => absent
    | cons streamId rest ih => exact fun current absent => ih _ (stopStream_sheds lt current streamId _ absent)
  exact stops _ state absent

theorem addRoute_toils {route : StreamRoute} (sliced : 0 < route.pieceSize) :
    Toils state (addRoute lt state route) := by
  have stops := vacated_works lt state route
  have adds := addRoute_works lt state sliced
  refine ⟨adds.commands.trans stops.commands, adds.nextDemandId.trans stops.nextDemandId, ?_,
    (addRoute_withdraws lt state route).releases⟩
  intro demandId absent
  have left := vacated_sheds lt state route demandId absent
  rw [addRoute_eq lt sliced]
  split
  · rw [(recomputeSchedule_recomputes _ _ _).activeDemands]
    exact left
  · exact left

theorem handleBlockFinished_sheds (torrentId : String) (piece block demandId : Nat)
    (absent : state.activeDemands.lookup demandId = none) :
    (handleBlockFinished lt state torrentId piece block).activeDemands.lookup demandId = none := by
  have published : ∀ key blocks,
      ((state.setBlocks key blocks).publishPartial key).activeDemands = state.activeDemands :=
    fun key blocks => (publishPartial_sends _ key).activeDemands
  unfold handleBlockFinished
  simp only
  split
  · exact absent
  · split
    · exact absent
    · split
      · rw [published]
        exact absent
      · rw [(recomputeSchedule_recomputes _ _ _).activeDemands, published]
        exact absent

theorem KeepsRouting.sheds {before after : BridgeState} (keeps : KeepsRouting before after)
    (demandId : Nat) (absent : before.activeDemands.lookup demandId = none) :
    after.activeDemands.lookup demandId = none := by
  refine sheds_of_old (fun query demand found => ?_) demandId absent
  obtain ⟨old, present, _⟩ := keeps.demands query demand found
  exact ⟨old, present⟩

theorem perform_toils {action : Action} (works : Server.isWork action = true)
    (notPoll : ∀ answers, action ≠ .poll answers) : Toils state (state.perform action) := by
  have idle : ∀ {next : BridgeState}, next.commands = state.commands →
      next.nextDemandId = state.nextDemandId → next.activeDemands = state.activeDemands →
      next.waiters = state.waiters → next.pieceWaiters = state.pieceWaiters → Toils state next :=
    fun commands nextDemandId demands waiters pieceWaiters => ⟨commands, nextDemandId,
      fun _ absent => demands ▸ absent, Releases.same waiters pieceWaiters⟩
  cases action with
  | register lt token handle id fileIndex file =>
      simp only [BridgeState.perform, registerStream]
      cases made : routeFor lt state token handle id fileIndex file with
      | error thrown => exact idle rfl rfl rfl rfl rfl
      | ok route =>
          obtain ⟨metadata, savePath, sliced, _, rfl⟩ := routeFor_eq_ok made
          exact addRoute_toils lt state sliced
  | stop lt streamId =>
      have stops := stopStream_works lt state streamId
      exact ⟨stops.commands, stops.nextDemandId, stopStream_sheds lt state streamId,
        (stopStream_withdraws lt state streamId).releases⟩
  | remove lt id =>
      have removes := removeTorrent_works lt state id
      exact ⟨removes.commands, removes.nextDemandId, removeTorrent_sheds lt state id,
        removeTorrent_releases lt state id⟩
  | poll answers => exact absurd rfl (notPoll answers)
  | popExpired => exact idle rfl rfl rfl rfl rfl
  | readPieceAlert alert =>
      have leaves := Works.ofLeaves (handleReadPiece_leaves state alert)
      exact ⟨leaves.commands, leaves.nextDemandId, (handleReadPiece_keeps state alert).sheds,
        handleReadPiece_releases state alert⟩
  | blockFinished lt torrentId piece block =>
      have leaves := Works.ofLeaves (handleBlockFinished_leaves lt state torrentId piece block)
      exact ⟨leaves.commands, leaves.nextDemandId,
        handleBlockFinished_sheds lt state torrentId piece block,
        handleBlockFinished_releases lt state torrentId piece block⟩
  | hashFailed torrentId piece =>
      have leaves := Works.ofLeaves (handleHashFailed_leaves state torrentId piece)
      exact ⟨leaves.commands, leaves.nextDemandId, (handleHashFailed_keeps state torrentId piece).sheds,
        handleHashFailed_releases state torrentId piece⟩
  | acquireRequest streamId => exact idle rfl rfl rfl rfl rfl
  | releaseRequest streamId now => exact idle rfl rfl rfl rfl rfl
  | beginRequest route bodyRange => simp [Server.isWork] at works
  | readRequest command => simp [Server.isWork] at works
  | endRequest demandId => simp [Server.isWork] at works
  | abandonWaiter waiter => simp [Server.isWork] at works

end Work

/-- A demand that is active after a batch was active before and is not ended in it, or is begun in it
and not ended behind. -/
theorem processCommands_active (answers : Nat → Libtorrent) {commands : List HttpCommand}
    {position : Nat} {state : BridgeState} {changed : List String} {demandId : Nat}
    (quiet : (processCommands answers position commands state changed).2.2 = false)
    (active : (processCommands answers position commands state changed).1.activeDemands.lookup
      demandId ≠ none) :
    (state.activeDemands.lookup demandId ≠ none ∧ ∀ command ∈ commands, ¬ Ends demandId command) ∨
      ∃ front beginning back, commands = front ++ beginning :: back ∧ Begins demandId beginning ∧
        ∀ command ∈ back, ¬ Ends demandId command := by
  induction commands generalizing position state changed with
  | nil => exact Or.inl ⟨active, by simp⟩
  | cons command rest ih =>
      rw [processCommands] at quiet active
      split at quiet
      · simp at quiet
      · rename_i calm
        rw [if_neg calm] at active
        rcases ih quiet active with ⟨before, unended⟩ | ⟨front, beginning, back, rfl, begins, unended⟩
        · by_cases begins : Begins demandId command
          · exact Or.inr ⟨[], command, rest, rfl, begins, unended⟩
          · have other : command.type = .beginDemand → command.demandId ≠ demandId :=
              fun kind same => begins ⟨kind, same⟩
            have unending : ¬ Ends demandId command := by
              rintro ⟨kind, rfl⟩
              exact before (endDemand_inactive state _ kind)
            refine Or.inl ⟨fun absent => before (processCommand_inactive _ absent other), ?_⟩
            intro later member
            rcases List.mem_cons.mp member with rfl | behind
            · exact unending
            · exact unended later behind
        · exact Or.inr ⟨command :: front, beginning, back, rfl, begins, unended⟩

theorem poll_demands {state : BridgeState} {answers : PollAnswers}
    (quiet : (state.poll answers).2 = false) :
    (processCommands answers.command 0 state.commands { state with commands := [] } []).2.2 = false ∧
      (state.poll answers).1.activeDemands = (processCommands answers.command 0 state.commands
        { state with commands := [] } []).1.activeDemands := by
  have recomputed : ∀ (changed : List String) (current : BridgeState),
      (changed.foldl (fun current id => recomputeSchedule (answers.recompute id) current id)
        current).activeDemands = current.activeDemands := by
    intro changed
    induction changed with
    | nil => exact fun _ => rfl
    | cons id rest ih =>
        exact fun current => (ih _).trans (recomputeSchedule_recomputes _ _ _).activeDemands
  unfold poll at quiet ⊢
  simp only at quiet ⊢
  split at quiet
  · simp at quiet
  · rename_i calm
    rw [if_neg calm]
    refine ⟨by simpa using calm, ?_⟩
    rw [expireInactiveStreams_demands, reissueStalledReads_demands, recomputed]
    rfl

namespace Server

variable {server : Server}

/-- A running handler is in `serve_piece` with the waiter. -/
def Serving (server : Server) (waiter : Nat) : Prop :=
  ∃ demandId handler, server.handlers.lookup demandId = some handler ∧ handler.waiter = some waiter

/-- The bridge with a new waiter. -/
def created (server : Server) (demandId : Nat) : BridgeState :=
  let waiter : PieceWaiter := { demandId := demandId }
  { server.bridge with
    waiters := Function.update server.bridge.waiters server.nextWaiter waiter }

/-- Commands come in the order of their handlers: nothing of a demand comes before its begin, and its
end comes when its handler is over. -/
structure Orderly (server : Server) : Prop where
  bound : ∀ command ∈ server.trace, command.demandId < server.bridge.nextDemandId
  fresh : server.trace.Pairwise fun first second => second.type = .beginDemand →
    first.demandId ≠ second.demandId
  running : ∀ demandId handler, server.handlers.lookup demandId = some handler →
    demandId < server.bridge.nextDemandId ∧ ∀ command ∈ server.trace, ¬ Ends demandId command
  closed : ∀ command ∈ server.trace, command.type = .beginDemand →
    server.handlers.lookup command.demandId ≠ none ∨
      ∃ ending ∈ server.trace, Ends command.demandId ending
  active : ∀ demandId, server.bridge.activeDemands.lookup demandId ≠ none →
    (∃ command ∈ server.processed, Begins demandId command) ∧
      ∀ command ∈ server.processed, ¬ Ends demandId command
  watched : Watched server.nextWaiter server.Serving server.bridge server.bridge.commands

namespace Orderly

theorem initial (begins : server.Initial) : server.Orderly := by
  obtain ⟨system, ⟨memory, disk, inactivity, rfl⟩, rfl⟩ := begins
  have nobody : ∀ key waiter, ¬ Held (BridgeState.create memory disk inactivity) key waiter := by
    rintro key waiter ⟨waiters, found, _⟩
    simp [BridgeState.create] at found
  refine ⟨by simp [trace, bridge, BridgeState.create], ?_, by simp, ?_, ?_, ⟨?_, ?_, ?_, ?_⟩⟩
  · exact List.Pairwise.nil
  · simp [trace, bridge, BridgeState.create]
  · intro demandId active
    exact absurd rfl active
  · exact fun key waiter held => absurd held (nobody key waiter)
  · exact fun key _ waiter held => absurd held (nobody key waiter)
  · simp [bridge, BridgeState.create]
  · exact List.Pairwise.nil

theorem toil (orderly : server.Orderly) {action : Action} (works : isWork action = true)
    (notPoll : ∀ answers, action ≠ .poll answers) : (server.perform (.work action)).Orderly := by
  have toils := perform_toils server.bridge works notPoll
  have processed : (server.perform (.work action)).processed = server.processed := by
    cases action with
    | poll answers => exact absurd rfl (notPoll answers)
    | _ => rfl
  have commands : (server.perform (.work action)).bridge.commands = server.bridge.commands :=
    toils.commands
  have number : (server.perform (.work action)).bridge.nextDemandId = server.bridge.nextDemandId :=
    toils.nextDemandId
  have traced : (server.perform (.work action)).trace = server.trace := by
    rw [trace, trace, processed, commands]
  refine ⟨?_, ?_, ?_, ?_, ?_, ?_⟩
  · rw [traced, number]
    exact orderly.bound
  · rw [traced]
    exact orderly.fresh
  · rw [traced, number]
    exact orderly.running
  · rw [traced]
    exact orderly.closed
  · intro demandId active
    rw [processed]
    exact orderly.active demandId fun absent => active (toils.sheds demandId absent)
  · rw [commands]
    exact orderly.watched.releases toils.releases

theorem poll (orderly : server.Orderly) {answers : PollAnswers}
    (quiet : (server.bridge.poll answers).2 = false) : (server.perform (.work (.poll answers))).Orderly := by
  have works := poll_works server.bridge answers
  obtain ⟨calm, demands⟩ := poll_demands quiet
  have commands : (server.perform (.work (.poll answers))).bridge.commands = [] := works.commands
  have number : (server.perform (.work (.poll answers))).bridge.nextDemandId =
      server.bridge.nextDemandId := works.nextDemandId
  have traced : (server.perform (.work (.poll answers))).trace = server.trace := by
    rw [trace, commands, List.append_nil]
    rfl
  refine ⟨?_, ?_, ?_, ?_, ?_, ?_⟩
  · rw [traced, number]
    exact orderly.bound
  · rw [traced]
    exact orderly.fresh
  · rw [traced, number]
    exact orderly.running
  · rw [traced]
    exact orderly.closed
  · intro demandId active
    have now : (server.bridge.poll answers).1.activeDemands.lookup demandId ≠ none := active
    rw [demands] at now
    change (∃ command ∈ server.trace, Begins demandId command) ∧
      ∀ command ∈ server.trace, ¬ Ends demandId command
    rcases processCommands_active answers.command calm now with
      ⟨before, unended⟩ | ⟨front, beginning, back, batch, begins, unended⟩
    · obtain ⟨⟨command, member, begun⟩, lasting⟩ := orderly.active demandId before
      refine ⟨⟨command, List.mem_append_left _ member, begun⟩, ?_⟩
      intro other member
      rcases List.mem_append.mp member with old | new
      · exact lasting other old
      · exact unended other new
    · have split : server.trace = (server.processed ++ front) ++ beginning :: back := by
        rw [trace, batch, List.append_assoc]
      refine ⟨⟨beginning, by simp [split], begins⟩, ?_⟩
      intro other member ends
      rw [split, List.mem_append, List.mem_cons] at member
      rcases member with earlier | rfl | later
      · have order := orderly.fresh
        rw [split, List.pairwise_append] at order
        exact order.2.2 other earlier beginning List.mem_cons_self begins.1 (ends.2.trans begins.2.symm)
      · exact absurd (begins.1.symm.trans ends.1) (by simp)
      · exact unended other later ends
  · rw [commands]
    exact (orderly.watched.poll quiet).1

theorem accept_cases (server : Server) (route : StreamRoute) (bodyRange : ByteRange) :
    server.accept route bodyRange = { server with
        system := { server.system with
          bridge := { server.bridge with nextDemandId := server.bridge.nextDemandId + 1 } } } ∨
      ∃ command, Begins server.bridge.nextDemandId command ∧
        server.accept route bodyRange = { server with
          system := { server.system with bridge := { server.bridge with
            nextDemandId := server.bridge.nextDemandId + 1
            commands := server.bridge.commands ++ [command] } }
          handlers := server.handlers.insert server.bridge.nextDemandId
            { request := ⟨route, bodyRange⟩ } } := by
  have begun : (server.system.perform (.beginRequest route bodyRange)) =
      { server.system with bridge := server.bridge.beginRequest route bodyRange } := rfl
  rw [accept]
  simp only [begun]
  rcases beginRequest_cases server.bridge route bodyRange with same | ⟨range, _, same⟩
  · left
    rw [same]
    simp [bridge]
  · rcases enqueue_cases { server.bridge with nextDemandId := server.bridge.nextDemandId + 1 }
        ⟨.beginDemand, server.bridge.nextDemandId, route, range, 0, none,
          some server.bridge.nextDemandId⟩ with refused | queued
    · left
      rw [same, refused]
      simp [bridge]
    · right
      refine ⟨⟨.beginDemand, server.bridge.nextDemandId, route, range, 0, none,
        some server.bridge.nextDemandId⟩, ⟨rfl, rfl⟩, ?_⟩
      rw [same, queued]
      simp [bridge]

theorem append (orderly : server.Orderly) {next : Server} (command : HttpCommand)
    (processed : next.processed = server.processed)
    (commands : next.bridge.commands = server.bridge.commands ++ [command])
    (demands : next.bridge.activeDemands = server.bridge.activeDemands)
    (grows : server.bridge.nextDemandId ≤ next.bridge.nextDemandId)
    (below : command.demandId < next.bridge.nextDemandId)
    (begins : command.type = .beginDemand → next.handlers.lookup command.demandId ≠ none ∧
      ∀ other ∈ server.trace, other.demandId ≠ command.demandId)
    (running : ∀ demandId handler, next.handlers.lookup demandId = some handler →
      demandId < next.bridge.nextDemandId ∧ (∀ other ∈ server.trace, ¬ Ends demandId other) ∧
        ¬ Ends demandId command)
    (closes : ∀ demandId, server.handlers.lookup demandId ≠ none →
      next.handlers.lookup demandId ≠ none ∨ Ends demandId command)
    (watched : Watched next.nextWaiter next.Serving next.bridge next.bridge.commands) :
    next.Orderly := by
  have traced : next.trace = server.trace ++ [command] := by
    rw [trace, processed, commands, trace, List.append_assoc]
  refine ⟨?_, ?_, ?_, ?_, ?_, watched⟩
  · intro other member
    rw [traced, List.mem_append, List.mem_singleton] at member
    rcases member with old | rfl
    · exact Nat.lt_of_lt_of_le (orderly.bound other old) grows
    · exact below
  · rw [traced, List.pairwise_append]
    refine ⟨orderly.fresh, List.pairwise_singleton _ _, ?_⟩
    intro other member second last kind
    rw [List.mem_singleton.mp last] at kind ⊢
    exact (begins kind).2 other member
  · intro demandId handler found
    obtain ⟨numbered, unended, unending⟩ := running demandId handler found
    refine ⟨numbered, ?_⟩
    intro other member
    rw [traced, List.mem_append, List.mem_singleton] at member
    rcases member with old | rfl
    · exact unended other old
    · exact unending
  · intro other member kind
    rw [traced, List.mem_append, List.mem_singleton] at member
    rw [traced]
    rcases member with old | rfl
    · rcases orderly.closed other old kind with runs | ⟨ending, ended, ends⟩
      · rcases closes other.demandId runs with still | ends
        · exact Or.inl still
        · exact Or.inr ⟨command, by simp, ends⟩
      · exact Or.inr ⟨ending, by simp [ended], ends⟩
    · exact Or.inl (begins kind).1
  · intro demandId active
    rw [demands] at active
    rw [processed]
    exact orderly.active demandId active

theorem lookup_insert_ne_none {handlers : HashMap Nat Handler} {demandId query : Nat} {handler : Handler}
    (present : handlers.lookup query ≠ none) : (handlers.insert demandId handler).lookup query ≠ none := by
  rw [AList.lookup_insert_ite]
  split
  · simp
  · exact present

theorem accept (orderly : server.Orderly) (route : StreamRoute) (bodyRange : ByteRange) :
    (server.accept route bodyRange).Orderly := by
  have absent : server.handlers.lookup server.bridge.nextDemandId = none := by
    cases found : server.handlers.lookup server.bridge.nextDemandId with
    | none => rfl
    | some handler => exact absurd (orderly.running _ handler found).1 (Nat.lt_irrefl _)
  rcases accept_cases server route bodyRange with refused | ⟨command, ⟨kind, number⟩, queued⟩
  · rw [refused]
    refine ⟨fun command member => Nat.lt_succ_of_lt (orderly.bound command member), orderly.fresh, ?_,
      orderly.closed, orderly.active, ?_⟩
    · intro demandId handler found
      obtain ⟨below, unended⟩ := orderly.running demandId handler found
      exact ⟨Nat.lt_succ_of_lt below, unended⟩
    · exact orderly.watched.transfer (Nat.le_refl _) rfl (fun _ _ => ⟨rfl, id⟩)
        fun _ _ _ serving => Or.inr serving
  · rw [queued]
    refine orderly.append command rfl rfl rfl (Nat.le_succ _) ?_ ?_ ?_ ?_ ?_
    · rw [number]
      exact Nat.lt_succ_self _
    · intro _
      rw [number]
      refine ⟨by simp, ?_⟩
      intro other member
      exact Nat.ne_of_lt (orderly.bound other member)
    · intro demandId handler found
      have unending : ¬ Ends demandId command := fun ends => absurd (kind.symm.trans ends.1) (by simp)
      simp only [AList.lookup_insert_ite] at found
      split at found
      · rename_i same
        rw [same]
        refine ⟨Nat.lt_succ_self _, ?_, same ▸ unending⟩
        intro other member ends
        exact Nat.ne_of_lt (orderly.bound other member) ends.2
      · obtain ⟨below, unended⟩ := orderly.running demandId handler found
        exact ⟨Nat.lt_succ_of_lt below, unended, unending⟩
    · intro demandId runs
      exact Or.inl (lookup_insert_ne_none runs)
    · have kept : ∀ waiter, server.Serving waiter → Server.Serving { server with
          handlers := server.handlers.insert server.bridge.nextDemandId
            { request := ⟨route, bodyRange⟩ } } waiter := by
        rintro waiter ⟨demandId, handler, found, own⟩
        refine ⟨demandId, handler, ?_, own⟩
        rw [AList.lookup_insert_ite, if_neg]
        · exact found
        · rintro rfl
          rw [absent] at found
          simp at found
      refine Watched.enqueue ?_ (fun read => ?_) fun _ _ _ read => ?_
      · exact orderly.watched.transfer (Nat.le_refl _) rfl (fun _ _ => ⟨rfl, id⟩)
          fun waiter _ _ serving => Or.inr (kept waiter serving)
      · exact absurd (kind.symm.trans read) (by simp)
      · exact absurd (kind.symm.trans read) (by simp)

theorem command_carries {request : StreamRequest} {demandId position waiter : Nat} {command : HttpCommand}
    (made : request.command demandId position waiter = some command) :
    command.type = .readPiece ∧ command.demandId = demandId ∧ command.waiter = some waiter := by
  unfold StreamRequest.command at made
  split at made
  · simp at made
  · rw [← Option.some.inj made]
    exact ⟨rfl, rfl, rfl⟩

/-- The range of the read cannot be made, the command is refused, or it is queued with a new waiter. -/
theorem serve_cases (server : Server) (demandId position : Nat) (handler : Handler) :
    server.serve demandId position handler = server ∨
      server.serve demandId position handler = { server with
        system := { server.system with bridge := server.created demandId }
        nextWaiter := server.nextWaiter + 1 } ∨
      ∃ command : HttpCommand, command.type = .readPiece ∧ command.demandId = demandId ∧
        command.waiter = some server.nextWaiter ∧
        server.serve demandId position handler = { server with
          system := { server.system with bridge := { server.created demandId with
            commands := server.bridge.commands ++ [command] } }
          nextWaiter := server.nextWaiter + 1
          handlers := server.handlers.insert demandId
            { handler with waiter := some server.nextWaiter } } := by
  unfold serve
  cases made : handler.request.command demandId position server.nextWaiter with
  | none => exact Or.inl rfl
  | some command =>
      right
      obtain ⟨kind, owner, own⟩ := command_carries made
      have read : server.system.perform (.readRequest command) = { server.system with
          bridge := ((server.created demandId).enqueue command).getD (server.created demandId) } := by
        simp [System.perform, BridgeState.perform, BridgeState.readRequest, own, owner, created, bridge]
      simp only [read]
      rcases enqueue_cases (server.created demandId) command with refused | queued
      · left
        rw [refused]
        simp [bridge, created]
      · right
        refine ⟨command, kind, owner, own, ?_⟩
        rw [queued]
        simp [bridge, created, setWaiter]

theorem created_watched (orderly : server.Orderly) (demandId : Nat) {serving : Nat → Prop}
    (serves : ∀ waiter, server.Serving waiter → serving waiter) :
    Watched (server.nextWaiter + 1) serving (server.created demandId) server.bridge.commands := by
  refine orderly.watched.transfer (Nat.le_succ _) rfl ?_ fun waiter _ _ serving => Or.inr (serves waiter serving)
  intro waiter below
  simp [created, Function.update_of_ne (Nat.ne_of_lt below)]

theorem serve (orderly : server.Orderly) {demandId : Nat} (position : Nat) {handler : Handler}
    (runs : server.handlers.lookup demandId = some handler) (idle : handler.waiter = none) :
    (server.serve demandId position handler).Orderly := by
  obtain ⟨below, unended⟩ := orderly.running demandId handler runs
  rcases serve_cases server demandId position handler with same | refused |
    ⟨command, kind, owner, own, queued⟩
  · rw [same]
    exact orderly
  · rw [refused]
    exact ⟨orderly.bound, orderly.fresh, orderly.running, orderly.closed, orderly.active,
      orderly.created_watched demandId fun _ serving => serving⟩
  · rw [queued]
    have unending : ∀ query, ¬ Ends query command :=
      fun query ends => absurd (kind.symm.trans ends.1) (by simp)
    refine orderly.append command rfl rfl rfl (Nat.le_refl _) ?_ ?_ ?_ ?_ ?_
    · rw [owner]
      exact below
    · intro begins
      exact absurd (kind.symm.trans begins) (by simp)
    · intro query other found
      simp only [AList.lookup_insert_ite] at found
      split at found
      · rename_i same
        rw [same]
        exact ⟨below, unended, unending _⟩
      · obtain ⟨within, quiet⟩ := orderly.running query other found
        exact ⟨within, quiet, unending _⟩
    · intro query present
      exact Or.inl (lookup_insert_ne_none present)
    · have kept : ∀ waiter, server.Serving waiter → Server.Serving { server with
          handlers := server.handlers.insert demandId
            { handler with waiter := some server.nextWaiter } } waiter := by
        rintro waiter ⟨query, other, found, waits⟩
        refine ⟨query, other, ?_, waits⟩
        rw [AList.lookup_insert_ite, if_neg]
        · exact found
        · rintro rfl
          rw [runs] at found
          rw [← Option.some.inj found, idle] at waits
          simp at waits
      have unheld : ∀ key, ¬ Held server.bridge key server.nextWaiter :=
        fun key held => absurd (orderly.watched.held key _ held).1 (Nat.lt_irrefl _)
      refine Watched.enqueue ?_ ?_ ?_
      · exact (orderly.created_watched demandId kept).releases (Releases.same rfl rfl)
      · intro _ waiter carries
        obtain rfl : server.nextWaiter = waiter := Option.some.inj (own.symm.trans carries)
        refine ⟨Nat.lt_succ_self _, unheld, ?_, Or.inr ⟨demandId, _, AList.lookup_insert _, rfl⟩⟩
        simp [bridge, created]
      · intro other member read _ waiter carried carries
        obtain rfl : server.nextWaiter = waiter := Option.some.inj (own.symm.trans carries)
        exact absurd (orderly.watched.queued other member read _ carried).1 (Nat.lt_irrefl _)

theorem setWaiter (orderly : server.Orderly) {demandId : Nat} {handler : Handler}
    (runs : server.handlers.lookup demandId = some handler)
    {system : System} (commands : system.bridge.commands = server.bridge.commands)
    (number : system.bridge.nextDemandId = server.bridge.nextDemandId)
    (demands : system.bridge.activeDemands = server.bridge.activeDemands)
    (pieceWaiters : system.bridge.pieceWaiters = server.bridge.pieceWaiters)
    (heap : ∀ waiter, (system.bridge.waiters waiter).done = (server.bridge.waiters waiter).done ∧
      ((server.bridge.waiters waiter).cancelled = true → (system.bridge.waiters waiter).cancelled = true))
    (past : ∀ waiter, handler.waiter = some waiter → (server.bridge.waiters waiter).done = true ∨
      (system.bridge.waiters waiter).cancelled = true) :
    ({ server with system := system }.setWaiter demandId handler none).Orderly := by
  have traced : ({ server with system := system }.setWaiter demandId handler none).trace =
      server.trace := congrArg (server.processed ++ ·) commands
  have lookups : ∀ query, ({ server with system := system }.setWaiter demandId handler none).handlers.lookup
      query = if query = demandId then some { handler with waiter := none }
        else server.handlers.lookup query := by
    intro query
    exact AList.lookup_insert_ite server.handlers demandId query _
  have present : ∀ query, ({ server with system := system }.setWaiter demandId handler
      none).handlers.lookup query ≠ none ↔ server.handlers.lookup query ≠ none := by
    intro query
    rw [lookups]
    by_cases same : query = demandId
    · rw [same, if_pos rfl, runs]
      simp
    · rw [if_neg same]
  refine ⟨?_, ?_, ?_, ?_, ?_, ?_⟩
  · rw [traced]
    intro command member
    exact Nat.lt_of_lt_of_eq (orderly.bound command member) number.symm
  · rw [traced]
    exact orderly.fresh
  · intro query other found
    rw [traced]
    have known : server.handlers.lookup query ≠ none :=
      (present query).mp (by rw [found]; simp)
    obtain ⟨old, known⟩ := Option.ne_none_iff_exists'.mp known
    obtain ⟨below, unended⟩ := orderly.running query old known
    exact ⟨Nat.lt_of_lt_of_eq below number.symm, unended⟩
  · rw [traced]
    intro command member kind
    rcases orderly.closed command member kind with runs | ended
    · exact Or.inl ((present _).mpr runs)
    · exact Or.inr ended
  · intro query active
    refine orderly.active query fun absent => active ?_
    exact (congrArg (AList.lookup query) demands).trans absent
  · have watched : Watched server.nextWaiter server.Serving server.bridge system.bridge.commands := by
      rw [commands]
      exact orderly.watched
    refine watched.transfer (Nat.le_refl _) pieceWaiters (fun waiter _ => heap waiter) ?_
    rintro waiter _ undone ⟨query, other, found, waits⟩
    by_cases same : query = demandId
    · subst same
      obtain rfl : handler = other := Option.some.inj (runs.symm.trans found)
      rcases past waiter waits with done | cancelled
      · rw [undone] at done
        simp at done
      · exact Or.inl cancelled
    · refine Or.inr ⟨query, other, ?_, waits⟩
      rw [lookups, if_neg same]
      exact found

theorem leave (orderly : server.Orderly) {demandId : Nat} {handler : Handler}
    (runs : server.handlers.lookup demandId = some handler) (idle : handler.waiter = none) :
    (server.perform (.leave demandId)).Orderly := by
  obtain ⟨below, unended⟩ := orderly.running demandId handler runs
  let ending : HttpCommand :=
    ⟨.endDemand, demandId, ⟨0, "", "", "", "", 0, 0, 0, 0, ""⟩, ⟨0, 0⟩, 0, none, none⟩
  refine orderly.append ending rfl rfl rfl (Nat.le_refl _) below ?_ ?_ ?_ ?_
  · intro begins
    simp [ending] at begins
  · intro query other found
    simp only [perform, AList.lookup_erase_ite] at found
    split at found
    · simp at found
    · rename_i different
      obtain ⟨within, quiet⟩ := orderly.running query other found
      exact ⟨within, quiet, fun ends => different ends.2.symm⟩
  · intro query present
    by_cases same : query = demandId
    · exact Or.inr ⟨rfl, same.symm⟩
    · refine Or.inl ?_
      simp only [perform, AList.lookup_erase_ite, if_neg same]
      exact present
  · refine Watched.enqueue ?_ (by simp) (by simp)
    refine orderly.watched.transfer (Nat.le_refl _) rfl (fun _ _ => ⟨rfl, id⟩) ?_
    rintro waiter _ _ ⟨query, other, found, waits⟩
    refine Or.inr ⟨query, other, ?_, waits⟩
    simp only [perform, AList.lookup_erase_ite]
    rw [if_neg]
    · exact found
    · rintro rfl
      rw [runs] at found
      rw [← Option.some.inj found, idle] at waits
      simp at waits

theorem perform (orderly : server.Orderly) {action : ServerAction} (possible : server.Possible action) :
    (server.perform action).Orderly := by
  cases action with
  | accept route bodyRange => exact orderly.accept route bodyRange
  | serve demandId position =>
      obtain ⟨handler, runs, idle⟩ := Option.map_eq_some_iff.mp possible
      simp only [Server.perform, runs]
      exact orderly.serve position runs idle
  | settle demandId =>
      obtain ⟨waiter, waits, done⟩ := (Option.any_eq_true _ _).mp possible
      obtain ⟨handler, runs, own⟩ := Option.bind_eq_some_iff.mp waits
      simp only [Server.perform, runs]
      refine orderly.setWaiter runs rfl rfl rfl rfl (fun _ => ⟨rfl, id⟩) ?_
      intro other carried
      rw [own] at carried
      exact Or.inl (Option.some.inj carried ▸ done)
  | abandon demandId =>
      simp only [Server.perform]
      split
      · rename_i request waiter runs
        refine orderly.setWaiter runs rfl rfl rfl rfl ?_ ?_
        · intro other
          simp only [System.perform, BridgeState.perform, BridgeState.abandonWaiter, bridge,
            Function.update_apply]
          split
          · rename_i same
            simp [same]
          · exact ⟨rfl, id⟩
        · intro other carried
          obtain rfl : waiter = other := Option.some.inj carried
          right
          simp [System.perform, BridgeState.perform, BridgeState.abandonWaiter]
      · exact orderly
  | leave demandId =>
      obtain ⟨handler, runs, idle⟩ := Option.map_eq_some_iff.mp possible
      exact orderly.leave runs idle
  | work action =>
      by_cases polls : ∃ answers, action = .poll answers
      · obtain ⟨answers, rfl⟩ := polls
        exact orderly.poll possible.2
      · exact orderly.toil possible.1 fun answers same => polls ⟨answers, same⟩

theorem drained (orderly : server.Orderly) (empty : server.bridge.commands = [])
    (idle : server.handlers = ∅) : server.bridge.activeDemands = ∅ := by
  have traced : server.trace = server.processed := by rw [trace, empty, List.append_nil]
  have nothing : ∀ demandId, server.bridge.activeDemands.lookup demandId = none := by
    intro demandId
    by_contra active
    obtain ⟨⟨command, member, kind, number⟩, unended⟩ := orderly.active demandId active
    rcases orderly.closed command (traced ▸ member) kind with runs | ⟨ending, ended, ends⟩
    · rw [idle] at runs
      simp at runs
    · exact unended ending (traced ▸ ended) (number ▸ ends)
  apply AList.ext
  rw [AList.empty_entries, List.eq_nil_iff_forall_not_mem]
  rintro ⟨demandId, demand⟩ member
  have found := (AList.lookup_eq_some_iff _ _ _).mpr member
  rw [nothing] at found
  simp at found

end Orderly

theorem handler_demands (server : Server) {action : ServerAction} (handles : ∀ work, action ≠ .work work) :
    (server.perform action).bridge.activeDemands = server.bridge.activeDemands ∧
      server.bridge.nextDemandId ≤ (server.perform action).bridge.nextDemandId ∧
      ∀ command ∈ (server.perform action).bridge.commands, command ∈ server.bridge.commands ∨
        (command.type = .beginDemand → command.demandId = server.bridge.nextDemandId) := by
  have idle : ∀ {next : Server}, next.bridge.activeDemands = server.bridge.activeDemands →
      server.bridge.nextDemandId ≤ next.bridge.nextDemandId →
      next.bridge.commands = server.bridge.commands →
      next.bridge.activeDemands = server.bridge.activeDemands ∧
        server.bridge.nextDemandId ≤ next.bridge.nextDemandId ∧
        ∀ command ∈ next.bridge.commands, command ∈ server.bridge.commands ∨
          (command.type = .beginDemand → command.demandId = server.bridge.nextDemandId) :=
    fun demands grows commands => ⟨demands, grows, fun _ member => Or.inl (commands ▸ member)⟩
  have queues : ∀ {next : Server} {command : HttpCommand},
      next.bridge.activeDemands = server.bridge.activeDemands →
      server.bridge.nextDemandId ≤ next.bridge.nextDemandId →
      next.bridge.commands = server.bridge.commands ++ [command] →
      (command.type = .beginDemand → command.demandId = server.bridge.nextDemandId) →
      next.bridge.activeDemands = server.bridge.activeDemands ∧
        server.bridge.nextDemandId ≤ next.bridge.nextDemandId ∧
        ∀ command ∈ next.bridge.commands, command ∈ server.bridge.commands ∨
          (command.type = .beginDemand → command.demandId = server.bridge.nextDemandId) := by
    intro next command demands grows commands fresh
    refine ⟨demands, grows, ?_⟩
    intro other member
    rw [commands, List.mem_append, List.mem_singleton] at member
    rcases member with old | rfl
    · exact Or.inl old
    · exact Or.inr fresh
  cases action with
  | accept route bodyRange =>
      rw [Server.perform]
      rcases Orderly.accept_cases server route bodyRange with refused | ⟨command, begins, queued⟩
      · rw [refused]
        exact idle rfl (Nat.le_succ _) rfl
      · rw [queued]
        exact queues rfl (Nat.le_succ _) rfl fun _ => begins.2
  | serve demandId position =>
      simp only [Server.perform]
      split
      · exact idle rfl (Nat.le_refl _) rfl
      · rename_i handler _
        rcases Orderly.serve_cases server demandId position handler with same | refused |
          ⟨_, kind, _, _, queued⟩
        · rw [same]
          exact idle rfl (Nat.le_refl _) rfl
        · rw [refused]
          exact idle rfl (Nat.le_refl _) rfl
        · rw [queued]
          exact queues rfl (Nat.le_refl _) rfl fun begins => absurd (kind.symm.trans begins) (by simp)
  | settle demandId =>
      simp only [Server.perform]
      split <;> exact idle rfl (Nat.le_refl _) rfl
  | abandon demandId =>
      simp only [Server.perform]
      split <;> exact idle rfl (Nat.le_refl _) rfl
  | leave demandId => exact queues rfl (Nat.le_refl _) rfl (by simp)
  | work action => exact absurd rfl (handles action)

/-- The id was given to a handler whose begin is not waiting, and is not active. -/
structure Retired (server : Server) (demandId : Nat) : Prop where
  numbered : demandId < server.bridge.nextDemandId
  unqueued : ∀ command ∈ server.bridge.commands, ¬ Begins demandId command
  inactive : server.bridge.activeDemands.lookup demandId = none

theorem Retired.perform {server : Server} {demandId : Nat} (retired : Retired server demandId) {action : ServerAction}
    (possible : server.Possible action) : Retired (server.perform action) demandId := by
  by_cases handles : ∀ work, action ≠ .work work
  · obtain ⟨demands, grows, commands⟩ := handler_demands server handles
    refine ⟨Nat.lt_of_lt_of_le retired.numbered grows, ?_, ?_⟩
    · intro command member begins
      rcases commands command member with old | fresh
      · exact retired.unqueued command old begins
      · exact Nat.ne_of_lt retired.numbered (begins.2.symm.trans (fresh begins.1))
    · rw [demands]
      exact retired.inactive
  · simp only [ne_eq, not_forall, not_not] at handles
    obtain ⟨work, rfl⟩ := handles
    by_cases polls : ∃ answers, work = .poll answers
    · obtain ⟨answers, rfl⟩ := polls
      have quiet : (server.bridge.poll answers).2 = false := possible.2
      have works := poll_works server.bridge answers
      obtain ⟨calm, demands⟩ := poll_demands quiet
      refine ⟨Nat.lt_of_lt_of_eq retired.numbered works.nextDemandId.symm, ?_, ?_⟩
      · intro command member
        rw [show (server.perform (.work (.poll answers))).bridge.commands = [] from works.commands] at member
        simp at member
      · change (server.bridge.poll answers).1.activeDemands.lookup demandId = none
        rw [demands]
        by_contra active
        rcases processCommands_active answers.command calm active with
          ⟨before, _⟩ | ⟨front, beginning, back, batch, begins, _⟩
        · exact before retired.inactive
        · exact retired.unqueued beginning (by simp [batch]) begins
    · have toils := perform_toils server.bridge possible.1 fun answers same => polls ⟨answers, same⟩
      refine ⟨Nat.lt_of_lt_of_eq retired.numbered toils.nextDemandId.symm, ?_,
        toils.sheds demandId retired.inactive⟩
      intro command member
      rw [show (server.perform (.work work)).bridge.commands = _ from toils.commands] at member
      exact retired.unqueued command member

theorem setWaiter_serving {server : Server} {demandId waiter : Nat} {handler : Handler} {own : Option Nat}
    (serving : (server.setWaiter demandId handler own).Serving waiter) :
    server.Serving waiter ∨ own = some waiter := by
  obtain ⟨query, other, found, waits⟩ := serving
  simp only [setWaiter, AList.lookup_insert_ite] at found
  split at found
  · rw [← Option.some.inj found] at waits
    exact Or.inr waits
  · exact Or.inl ⟨query, other, found, waits⟩

theorem perform_serving (server : Server) (action : ServerAction) :
    server.nextWaiter ≤ (server.perform action).nextWaiter ∧
      ∀ waiter, (server.perform action).Serving waiter → server.Serving waiter ∨
        waiter = server.nextWaiter := by
  cases action with
  | accept route bodyRange =>
      rw [Server.perform]
      rcases Orderly.accept_cases server route bodyRange with refused | ⟨command, _, queued⟩
      · rw [refused]
        exact ⟨Nat.le_refl _, fun _ serving => Or.inl serving⟩
      · rw [queued]
        refine ⟨Nat.le_refl _, ?_⟩
        rintro waiter ⟨query, other, found, waits⟩
        simp only [AList.lookup_insert_ite] at found
        split at found
        · rw [← Option.some.inj found] at waits
          simp at waits
        · exact Or.inl ⟨query, other, found, waits⟩
  | serve demandId position =>
      simp only [Server.perform]
      split
      · exact ⟨Nat.le_refl _, fun _ serving => Or.inl serving⟩
      · rename_i handler _
        rcases Orderly.serve_cases server demandId position handler with same | refused |
          ⟨_, _, _, _, queued⟩
        · rw [same]
          exact ⟨Nat.le_refl _, fun _ serving => Or.inl serving⟩
        · rw [refused]
          exact ⟨Nat.le_succ _, fun _ serving => Or.inl serving⟩
        · rw [queued]
          refine ⟨Nat.le_succ _, ?_⟩
          intro waiter serving
          have served : (server.setWaiter demandId handler (some server.nextWaiter)).Serving waiter :=
            serving
          rcases setWaiter_serving served with old | new
          · exact Or.inl old
          · exact Or.inr (Option.some.inj new).symm
  | settle demandId =>
      simp only [Server.perform]
      split
      · exact ⟨Nat.le_refl _, fun _ serving => Or.inl serving⟩
      · refine ⟨Nat.le_refl _, fun waiter serving => Or.inl ?_⟩
        exact (setWaiter_serving serving).resolve_right (by simp)
  | abandon demandId =>
      simp only [Server.perform]
      split
      · refine ⟨Nat.le_refl _, fun waiter serving => Or.inl ?_⟩
        exact (setWaiter_serving serving).resolve_right (by simp)
      · exact ⟨Nat.le_refl _, fun _ serving => Or.inl serving⟩
  | leave demandId =>
      refine ⟨Nat.le_refl _, ?_⟩
      rintro waiter ⟨query, other, found, waits⟩
      simp only [Server.perform, AList.lookup_erase_ite] at found
      split at found
      · simp at found
      · exact Or.inl ⟨query, other, found, waits⟩
  | work action => exact ⟨Nat.le_refl _, fun _ serving => Or.inl serving⟩

theorem run_serving {server : Server} {bound : Nat} (actions : List ServerAction)
    (numbered : bound ≤ server.nextWaiter) (newer : ∀ waiter, server.Serving waiter → bound ≤ waiter) :
    bound ≤ (actions.foldl Server.perform server).nextWaiter ∧
      ∀ waiter, (actions.foldl Server.perform server).Serving waiter → bound ≤ waiter := by
  induction actions generalizing server with
  | nil => exact ⟨numbered, newer⟩
  | cons action rest ih =>
      obtain ⟨grows, served⟩ := perform_serving server action
      refine ih (Nat.le_trans numbered grows) ?_
      intro waiter serving
      rcases served waiter serving with old | rfl
      · exact newer waiter old
      · exact numbered

theorem reachable_orderly {server : Server} (reached : server.Reachable) : server.Orderly :=
  reached.invariant (fun _ begins => Orderly.initial begins)
    fun _ _ orderly possible => orderly.perform possible

theorem Retired.run {server : Server} {actions : List ServerAction} {demandId : Nat}
    (retired : Retired server demandId)
    (runs : Transition.Runs Possible Server.perform server actions) :
    Retired (actions.foldl Server.perform server) demandId := by
  induction actions generalizing server with
  | nil => exact retired
  | cons action rest ih => exact ih (retired.perform runs.1) runs.2

end Server

/-- In every run of handlers, worker and callers: a demand is active only between its begin and its end,
one that was refused, stopped or ended never comes back, and when nothing is queued and no handler
runs, no demand is active and the next `poll` leaves none of the old waiters behind. -/
theorem reachable_drains {server : Server} (reached : server.Reachable) :
    (∀ demandId, server.bridge.activeDemands.lookup demandId ≠ none →
      (∃ command ∈ server.processed, Begins demandId command) ∧
        ∀ command ∈ server.processed, ¬ Ends demandId command) ∧
    (∀ demandId, demandId < server.bridge.nextDemandId →
      (∀ command ∈ server.bridge.commands, ¬ Begins demandId command) →
      server.bridge.activeDemands.lookup demandId = none →
      ∀ actions, Transition.Runs Server.Possible Server.perform server actions →
        (actions.foldl Server.perform server).bridge.activeDemands.lookup demandId = none) ∧
    (server.bridge.commands = [] → server.handlers = ∅ → server.bridge.activeDemands = ∅ ∧
      ∀ actions answers, Transition.Runs Server.Possible Server.perform server
        (actions ++ [.work (.poll answers)]) →
        ∀ key waiter, Held ((actions ++ [.work (.poll answers)]).foldl Server.perform server).bridge key
          waiter → server.nextWaiter ≤ waiter) := by
  have orderly := Server.reachable_orderly reached
  refine ⟨orderly.active, ?_, ?_⟩
  · intro demandId numbered unqueued inactive actions runs
    have retired : Server.Retired server demandId := ⟨numbered, unqueued, inactive⟩
    exact (retired.run runs).inactive
  · intro empty idle
    refine ⟨orderly.drained empty idle, ?_⟩
    intro actions answers runs key waiter held
    obtain ⟨earlier, possible⟩ := Transition.runs_concat.mp runs
    have nobody : ∀ waiter, server.Serving waiter → server.nextWaiter ≤ waiter := by
      rintro waiter ⟨demandId, handler, found, _⟩
      rw [idle] at found
      simp at found
    have newer := (Server.run_serving actions (Nat.le_refl _) nobody).2
    rw [List.foldl_concat] at held
    have before := Server.reachable_orderly (reached.run earlier)
    exact newer waiter ((before.watched.poll possible.2).2 key waiter held)

def calmTwoPieces : PollAnswers :=
  ⟨fun _ => .accepting twoPieces, fun _ => .accepting twoPieces, .accepting twoPieces, 0,
    fun _ => .accepting twoPieces⟩

/-- A client reads the first piece, goes away before it is there, and the worker polls. -/
def brokenConnection : List ServerAction := [
  .work (.register (.accepting twoPieces) "a" 7 "t" 0 ⟨"video.mp4", 0, 32768⟩),
  .accept twoPiecesRoute ⟨0, 32767⟩,
  .serve 1 0,
  .work (.poll calmTwoPieces),
  .abandon 1,
  .leave 1,
  .work (.poll calmTwoPieces)]

def brokenServer (steps : Nat) : Server :=
  (brokenConnection.take steps).foldl Server.perform { system := { bridge := .create 1024 1024 0 } }

theorem reachable_drains_broken :
    (brokenServer 4).bridge.activeDemands ≠ ∅ ∧ (brokenServer 7).Reachable ∧
      (brokenServer 7).bridge.activeDemands = ∅ ∧
      ∀ key waiter, Held ((brokenServer 7).perform (.work (.poll calmTwoPieces))).bridge key waiter →
        (brokenServer 7).nextWaiter ≤ waiter := by
  have started : (brokenServer 0).Reachable := .start ⟨_, ⟨1024, 1024, 0, rfl⟩, rfl⟩
  have reached : (brokenServer 7).Reachable := started.run (by decide +kernel)
  obtain ⟨_, _, drains⟩ := reachable_drains reached
  have idle : (brokenServer 7).handlers = ∅ := AList.ext (by decide +kernel)
  obtain ⟨ended, released⟩ := drains (by decide +kernel) idle
  have active : (brokenServer 4).bridge.activeDemands.entries ≠ [] := by decide +kernel
  refine ⟨fun empty => active (by rw [empty]; rfl), reached, ended, ?_⟩
  exact released [] calmTwoPieces (by decide +kernel)

end NuvioEngine.Bridge
