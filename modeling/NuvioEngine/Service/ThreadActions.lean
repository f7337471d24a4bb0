import NuvioEngine.Service.Interleaving

/-!
What the threads do to the bridge: they leave its streams, its demands and its lists of waiters to the worker.
-/

open NuvioEngine.Http NuvioEngine.Scheduler NuvioEngine.Stream NuvioEngine.Cache NuvioEngine.Bridge

namespace NuvioEngine

def Bridge.SessionAction.isThread : SessionAction → Bool
  | .beginRequest .. | .readRequest .. => true
  | .work (.acquireRequest _) | .work (.releaseRequest ..) | .work (.endRequest _) | .work (.abandonWaiter _) => true
  | .work _ => false

namespace Bridge.Session

/-- The streams, the demands and who waits stay as they are, and of the ends of demands only those of the
actions are queued. -/
structure Spares (actions : List SessionAction) (session next : Session) : Prop where
  registered : next.system.registered = session.system.registered
  activeDemands : next.bridge.activeDemands = session.bridge.activeDemands
  pieceWaiters : next.bridge.pieceWaiters = session.bridge.pieceWaiters
  ends : ∀ command ∈ next.bridge.commands, command.type = .endDemand →
    command ∈ session.bridge.commands ∨ SessionAction.work (.endRequest command.demandId) ∈ actions

theorem enqueue_spares {state : BridgeState} {command : HttpCommand} (kind : command.type ≠ .endDemand) :
    ((state.enqueue command).getD state).activeDemands = state.activeDemands ∧
      ((state.enqueue command).getD state).pieceWaiters = state.pieceWaiters ∧
      ∀ other ∈ ((state.enqueue command).getD state).commands, other.type = .endDemand → other ∈ state.commands := by
  rcases enqueue_cases state command with same | same
  · rw [same]
    exact ⟨rfl, rfl, fun _ member _ => member⟩
  · rw [same]
    refine ⟨rfl, rfl, fun other member ends => ?_⟩
    rcases List.mem_append.mp member with old | new
    · exact old
    · rw [List.mem_singleton.mp new] at ends
      exact absurd ends kind

theorem readRequest_spares (state : BridgeState) {command : HttpCommand} (kind : command.type ≠ .endDemand) :
    (state.readRequest command).activeDemands = state.activeDemands ∧
      (state.readRequest command).pieceWaiters = state.pieceWaiters ∧
      ∀ other ∈ (state.readRequest command).commands, other.type = .endDemand → other ∈ state.commands := by
  unfold BridgeState.readRequest
  exact enqueue_spares kind

theorem perform_spares (session : Session) {action : SessionAction} (own : action.isThread = true) :
    Spares [action] session (session.perform action) := by
  cases action with
  | beginRequest route range =>
      have begun : (session.perform (.beginRequest route range)).bridge = session.bridge.beginRequest route range := rfl
      rcases beginRequest_cases session.bridge route range with same | ⟨demanded, _, same⟩
      · refine ⟨rfl, ?_, ?_, fun command member _ => .inl ?_⟩
        · rw [begun, same]
        · rw [begun, same]
        · rw [begun, same] at member
          exact member
      · obtain ⟨demands, waiters, ends⟩ := @enqueue_spares
          { session.bridge with nextDemandId := session.bridge.nextDemandId + 1 }
          ⟨.beginDemand, session.bridge.nextDemandId, route, demanded, 0, none, some session.bridge.nextDemandId⟩
          (by simp)
        refine ⟨rfl, ?_, ?_, fun command member kind => .inl ?_⟩
        · rw [begun, same, demands]
        · rw [begun, same, waiters]
        · rw [begun, same] at member
          exact ends command member kind
  | readRequest demandId position =>
      cases made : (session.requests demandId).bind fun request =>
          request.command demandId position session.nextWaiter with
      | none =>
          have same : session.perform (.readRequest demandId position) = session := by
            simp only [Session.perform, made]
          rw [same]
          exact ⟨rfl, rfl, rfl, fun _ member _ => .inl member⟩
      | some command =>
          have kind : command.type ≠ .endDemand := by
            obtain ⟨request, _, carried⟩ := Option.bind_eq_some_iff.mp made
            unfold StreamRequest.command at carried
            split at carried
            · simp at carried
            · rw [← Option.some.inj carried]
              simp
          have same : session.perform (.readRequest demandId position) = { session with
              system := session.system.perform (.readRequest command)
              nextWaiter := session.nextWaiter + 1 } := by
            simp only [Session.perform, made]
          obtain ⟨demands, waiters, ends⟩ := readRequest_spares session.bridge kind
          rw [same]
          exact ⟨rfl, demands, waiters, fun other member also => .inl (ends other member also)⟩
  | work action =>
      cases action with
      | register | stop | remove | poll | popExpired | readPieceAlert | blockFinished | hashFailed | beginRequest
      | readRequest => simp [SessionAction.isThread] at own
      | endRequest demandId =>
          refine ⟨rfl, rfl, rfl, fun command member _ => ?_⟩
          rcases List.mem_append.mp member with old | new
          · exact .inl old
          · rw [List.mem_singleton.mp new]
            exact .inr List.mem_cons_self
      | acquireRequest | releaseRequest | abandonWaiter => exact ⟨rfl, rfl, rfl, fun _ member _ => .inl member⟩

theorem spares_foldl (session : Session) {actions : List SessionAction}
    (own : ∀ action ∈ actions, action.isThread = true) :
    Spares actions session (actions.foldl Session.perform session) := by
  induction actions generalizing session with
  | nil => exact ⟨rfl, rfl, rfl, fun _ member _ => .inl member⟩
  | cons action rest ih =>
      have first := session.perform_spares (own action List.mem_cons_self)
      have later := ih (session.perform action) fun other member => own other (List.mem_cons_of_mem _ member)
      refine ⟨later.registered.trans first.registered, later.activeDemands.trans first.activeDemands,
        later.pieceWaiters.trans first.pieceWaiters, fun command member kind => ?_⟩
      rcases later.ends command member kind with before | new
      · rcases first.ends command before kind with old | here
        · exact .inl old
        · exact .inr (List.mem_singleton.mp here ▸ List.mem_cons_self)
      · exact .inr (List.mem_cons_of_mem _ new)

end Bridge.Session

namespace Thread

theorem enter_isThread (thread : Thread) (session : Session) (place : Place) (told : Told) :
    ∀ action ∈ (thread.enter session place told).1, action.isThread = true := by
  unfold enter
  split
  · split <;> simp [SessionAction.isThread]
  · simp [SessionAction.isThread]
  · split <;> simp [SessionAction.isThread]
  · simp
  · simp
  · simp
  · simp
  · simp

theorem perform_isThread (thread : Thread) (session : Session) (action : ConnectionAction Outside) :
    ∀ own ∈ (thread.perform session action).1, own.isThread = true := by
  obtain ⟨now, same⟩ := perform_eq thread session action
  have moves : ∀ own ∈ (thread.moved session action).1, own.isThread = true := by
    unfold moved
    simp only
    split
    · exact enter_isThread _ _ _ _
    · simp
  have leaves : ∀ other : Thread, ∀ own ∈ other.leavePiece.1, own.isThread = true := by
    intro other
    unfold leavePiece
    split
    · split
      · simp
      · split <;> simp [SessionAction.isThread]
    · simp
  have returns : ∀ other : Thread, ∀ own ∈ (other.leaveHandler now).1, own.isThread = true := by
    intro other own
    unfold leaveHandler
    split
    · simp
    · intro member
      rcases List.mem_append.mp member with ends | gives
      · obtain ⟨demandId, _, rfl⟩ := List.mem_map.mp ends
        rfl
      · obtain ⟨streamId, _, rfl⟩ := List.mem_map.mp gives
        rfl
  intro own member
  rw [same] at member
  rcases List.mem_append.mp member with earlier | last
  · rcases List.mem_append.mp earlier with first | second
    · exact moves own first
    · exact leaves _ own second
  · exact returns _ own last

end Thread

/-- A step of a connection does to the bridge what its thread asks for. -/
theorem Service.connection_spares (service : Service) (thread : Nat) (action : ConnectionAction Outside) :
    Bridge.Session.Spares ((service.threads thread).perform service.session action).1 service.session
      (service.perform (.connection thread action)).session :=
  service.session.spares_foldl ((service.threads thread).perform_isThread service.session action)

end NuvioEngine
