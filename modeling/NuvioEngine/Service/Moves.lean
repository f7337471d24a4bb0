import NuvioEngine.Service.Threads

/-!
What a thread of `handle_http` gives back: its waiter when `serve_piece` returns, its demand and its request when
the handler does. A whole step of a connection keeps the thread sound.
-/

open NuvioEngine.Http NuvioEngine.Scheduler NuvioEngine.Stream NuvioEngine.Cache NuvioEngine.Bridge

namespace NuvioEngine

namespace Thread

section Own

variable {good : PieceKey → List UInt8 → Prop} {handles : Handles} {session : Session} {thread : Thread}

/-- The thread is between two of its places, and may have to give its waiter up or to return. -/
structure Parts (good : PieceKey → List UInt8 → Prop) (session : Session) (thread : Thread) : Prop where
  owns : thread.Owns session
  phase : thread.connection.phase.Upholds (thread.Fits good session) (thread.waiter = none)

theorem Fits.unserved {next : Session} {place : Place} (fits : thread.Fits good session place)
    (unserved : place.serving = none) (registered : next.system.registered = session.system.registered)
    (requests : next.requests = session.requests) {after : Thread} (guard : after.guard = thread.guard) :
    after.Fits good next place := by
  cases place with
  | looking request => exact guard.trans fits
  | demanding route range headers =>
      obtain ⟨none, known, rest⟩ := fits
      exact ⟨guard.trans none, registered ▸ known, rest⟩
  | entering job => exact ⟨guard.trans fits.1, requests ▸ fits.2⟩
  | pieces job piece payload log => exact ⟨⟨guard.trans fits.1.1, requests ▸ fits.1.2⟩, fits.2⟩
  | testing job piece payload log stopped => exact ⟨⟨guard.trans fits.1.1, requests ▸ fits.1.2⟩, fits.2⟩
  | waiting job piece state => simp [Place.serving] at unserved
  | turning job piece state stopped => simp [Place.serving] at unserved
  | returning => trivial

/-- Every waiter of the demand is finished. -/
def Closed (session : Session) (demandId : Nat) : Prop :=
  ∀ waiter < session.nextWaiter, (session.bridge.waiters waiter).demandId = demandId →
    finished (session.bridge.waiters waiter) = true

theorem Closed.grows {own : Option Nat} {next : Session} {demandId : Nat} (closed : Closed session demandId)
    (grows : Session.Grows good own session next) (other : own ≠ some demandId) : Closed next demandId := by
  intro waiter below same
  by_cases old : waiter < session.nextWaiter
  · rw [grows.demandId waiter old] at same
    exact grows.finishes waiter old (closed waiter old same)
  · exact absurd (same ▸ grows.fresh waiter (Nat.le_of_not_lt old) below) other

/-- What `leavePiece` and `leaveHandler` do to the bridge. -/
structure Leaves (good : PieceKey → List UInt8 → Prop) (handles : Handles) (session : Session) (thread : Thread)
    (actions : List SessionAction) (after : Thread) : Prop where
  reached : handles.Reachable (actions.foldl Session.perform session)
  grows : Session.Grows good none session (actions.foldl Session.perform session)
  guard : ∀ demandId ∈ after.guard, demandId ∈ thread.guard
  quits : ∀ demandId ∈ thread.guard, demandId ∈ after.guard ∨
    Closed (actions.foldl Session.perform session) demandId
  ends : ∀ demandId, SessionAction.work (.endRequest demandId) ∈ actions → demandId ∈ thread.guard ∧
    after.guard = none ∧ demandId < (actions.foldl Session.perform session).bridge.nextDemandId

/-- The demand stays, and the bridge does what the thread needs not know of. -/
theorem Leaves.keeping {actions : List SessionAction} {after : Thread}
    (reached : handles.Reachable (actions.foldl Session.perform session))
    (grows : Session.Grows good none session (actions.foldl Session.perform session))
    (guard : after.guard = thread.guard)
    (quiet : ∀ demandId, SessionAction.work (.endRequest demandId) ∉ actions) :
    Leaves good handles session thread actions after := by
  refine ⟨reached, grows, ?_, ?_, fun demandId ends => absurd ends (quiet demandId)⟩
  · rw [guard]
    exact fun _ own => own
  · rw [guard]
    exact fun _ own => .inl own

/-- A thread that has left `serve_piece` drops a waiter that is finished. -/
theorem Parts.drop {next : Session} {place : Place} {waiter : Nat} (parts : thread.Parts good session)
    (here : thread.connection.phase = .handling place) (unserved : place.serving = none)
    (waits : thread.waiter = some waiter) (grows : Session.Grows good none session next)
    (registered : next.system.registered = session.system.registered) (requests : next.requests = session.requests)
    (past : finished (next.bridge.waiters waiter) = true) : Parts good next { thread with waiter := none } := by
  have grown := parts.owns.grows grows (by simp)
  refine ⟨⟨grown.numbered, ?_, by simp, by simp⟩, ?_⟩
  · intro demandId guard other below same
    rcases grown.alone demandId guard other below same with isOver | own
    · exact .inl isOver
    · obtain rfl : waiter = other := Option.some.inj (waits.symm.trans own)
      exact .inl past
  · have fits := parts.phase
    rw [here] at fits
    simp only [here]
    exact Fits.unserved fits unserved registered requests rfl

theorem leavePiece_leaves (reached : handles.Reachable session) (parts : thread.Parts good session) :
    Leaves good handles session thread thread.leavePiece.1 thread.leavePiece.2 ∧
      thread.leavePiece.2.Parts good (thread.leavePiece.1.foldl Session.perform session) ∧
      thread.leavePiece.2.Tidy := by
  have unchanged : thread.leavePiece = ([], thread) → thread.Tidy →
      Leaves good handles session thread thread.leavePiece.1 thread.leavePiece.2 ∧
        thread.leavePiece.2.Parts good (thread.leavePiece.1.foldl Session.perform session) ∧
        thread.leavePiece.2.Tidy := by
    intro same tidy
    rw [same]
    exact ⟨.keeping reached (.refl session) rfl (by simp), parts, tidy⟩
  cases waits : thread.waiter with
  | none => exact unchanged (by simp only [leavePiece, waits]) fun _ _ _ => waits
  | some waiter =>
      cases here : thread.connection.phase with
      | receiving | refusing | writing | failing | finished =>
          exact unchanged (by simp only [leavePiece, waits, here]) (by simp [Tidy, here])
      | handling place =>
          cases serving : place.serving with
          | some piece =>
              refine unchanged (by simp [leavePiece, waits, here, serving]) ?_
              intro other also none
              rw [here] at also
              obtain rfl := Phase.handling.inj also
              simp [serving] at none
          | none =>
              have left : thread.leavePiece =
                  (if thread.verified then [] else [.work (.abandonWaiter waiter)],
                    { thread with waiter := none }) := by
                simp [leavePiece, waits, here, serving]
              have drop {next : Session} :=
                @Parts.drop good session thread next place waiter parts here serving waits
              rw [left]
              by_cases verified : thread.verified = true
              · rw [if_pos verified]
                have past : finished (session.bridge.waiters waiter) = true := by
                  simp [finished, parts.owns.verified verified waiter waits]
                exact ⟨.keeping reached (.refl session) rfl (by simp), drop (.refl session) rfl rfl past,
                  fun _ _ _ => rfl⟩
              · rw [if_neg verified]
                have heap : (session.perform (.work (.abandonWaiter waiter))).bridge.waiters waiter =
                    { session.bridge.waiters waiter with cancelled := true } :=
                  Function.update_self _ _ _
                have past : finished ((session.perform (.work (.abandonWaiter waiter))).bridge.waiters waiter) =
                    true := by
                  simp [heap, finished]
                have grows := @abandonWaiter_grows good none session waiter
                exact ⟨.keeping (work_free reached trivial trivial) grows rfl (by simp), drop grows rfl rfl past,
                  fun _ _ _ => rfl⟩

/-- The guard and the lease go, if there are any. -/
theorem returned_grows (reached : handles.Reachable session) (guard : Option Nat) (lease : Option String) (now : Nat)
    {actions : List SessionAction} (same : actions =
      (guard.toList.map fun demandId => .work (.endRequest demandId)) ++
        lease.toList.map fun streamId => .work (.releaseRequest streamId now)) :
    handles.Reachable (actions.foldl Session.perform session) ∧
      Session.Grows good none session (actions.foldl Session.perform session) := by
  have ended : ∀ demandId, handles.Reachable (session.perform (.work (.endRequest demandId))) ∧
      Session.Grows good none session (session.perform (.work (.endRequest demandId))) :=
    fun demandId => ⟨work_free reached trivial trivial, endRequest_grows session demandId⟩
  have released : ∀ (middle : Session) streamId, handles.Reachable middle →
      handles.Reachable (middle.perform (.work (.releaseRequest streamId now))) ∧
        Session.Grows good none middle (middle.perform (.work (.releaseRequest streamId now))) := by
    intro middle streamId reached
    have performs : middle.system.perform (.releaseRequest streamId now) =
        { middle.system with bridge := middle.bridge.setActivity streamId fun activity =>
          activity.releaseHttpRequest now } := rfl
    exact ⟨work_free reached trivial trivial, activity_grows middle performs⟩
  rw [same]
  cases guard with
  | none =>
      cases lease with
      | none => exact ⟨reached, .refl session⟩
      | some streamId => exact released session streamId reached
  | some demandId =>
      cases lease with
      | none => exact ended demandId
      | some streamId =>
          obtain ⟨middle, first⟩ := ended demandId
          obtain ⟨last, second⟩ := released _ streamId middle
          exact ⟨last, first.trans second⟩

theorem leaveHandler_leaves (reached : handles.Reachable session) (parts : thread.Parts good session)
    (tidy : thread.Tidy) (now : Nat) :
    Leaves good handles session thread (thread.leaveHandler now).1 (thread.leaveHandler now).2 ∧
      (thread.leaveHandler now).2.Sound good ((thread.leaveHandler now).1.foldl Session.perform session) := by
  unfold leaveHandler
  cases running : thread.connection.phase.isRunning with
  | true =>
      exact ⟨.keeping reached (.refl session) rfl (by simp), parts.owns, parts.phase.running running, tidy⟩
  | false =>
      have waiter : thread.waiter = none := parts.phase.left running
      have sound : ∀ next, Sound good next { thread with lease := none, guard := none } := by
        intro next
        refine ⟨⟨by simp, by simp, by simp [waiter], by simp [waiter]⟩, ?_, ?_⟩
        · exact Phase.upholds_idle running ⟨rfl, waiter, rfl⟩
        · exact fun _ _ _ => waiter
      obtain ⟨gone, grows⟩ := @returned_grows good _ _ reached thread.guard thread.lease now _ rfl
      have grown := parts.owns.grows grows (by simp)
      refine ⟨⟨gone, grows, by simp, fun demandId guard => .inr fun other below same => ?_, ?_⟩, sound _⟩
      · refine (grown.alone demandId guard other below same).resolve_right ?_
        simp [waiter]
      · intro demandId member
        have own : demandId ∈ thread.guard := by simpa using member
        exact ⟨own, rfl, grown.numbered demandId own⟩

theorem enter_notEnds (thread : Thread) (session : Session) (place : Place) (told : Told) (demandId : Nat) :
    SessionAction.work (.endRequest demandId) ∉ (thread.enter session place told).1 := by
  unfold enter
  split
  · split <;> simp
  · simp
  · split <;> simp
  · simp
  · simp
  · simp
  · simp
  · simp

theorem Owns.reconnect (owns : thread.Owns session) (connection : Connection Place) :
    Owns session { thread with connection := connection } :=
  ⟨owns.numbered, owns.alone, owns.waits, owns.verified⟩

/-- The thread before it leaves `serve_piece` or the handler. -/
def moved (thread : Thread) (session : Session) (action : ConnectionAction Outside) : List SessionAction × Thread :=
  let tell := thread.tell session.bridge
  let entered := match action, thread.connection.phase with
    | .handle outside, .handling place => thread.enter session place (tell outside)
    | _, _ => ([], thread)
  (entered.1, { entered.2 with connection := thread.connection.perform handleHttp (action.map tell) })

theorem perform_eq (thread : Thread) (session : Session) (action : ConnectionAction Outside) : ∃ now,
    thread.perform session action =
      ((thread.moved session action).1 ++ (thread.moved session action).2.leavePiece.1 ++
          ((thread.moved session action).2.leavePiece.2.leaveHandler now).1,
        ((thread.moved session action).2.leavePiece.2.leaveHandler now).2) :=
  ⟨_, rfl⟩

/-- The thread has its demand from before or a new one, and one that it has no more is closed. -/
structure Moves (good : PieceKey → List UInt8 → Prop) (handles : Handles) (session : Session) (thread : Thread)
    (actions : List SessionAction) (after : Thread) : Prop where
  reached : handles.Reachable (actions.foldl Session.perform session)
  numbered : (actions.foldl Session.perform session).Numbered
  grows : ∃ own, Session.Grows good own session (actions.foldl Session.perform session) ∧
    ∀ demandId ∈ own, (thread.guard = some demandId ∨ demandId = session.bridge.nextDemandId) ∧
      (demandId ∈ after.guard ∨ Closed (actions.foldl Session.perform session) demandId)
  keeps : ∀ demandId ∈ after.guard, thread.guard = some demandId ∨ demandId = session.bridge.nextDemandId
  quits : ∀ demandId ∈ thread.guard, demandId ∈ after.guard ∨
    Closed (actions.foldl Session.perform session) demandId
  ends : ∀ demandId, SessionAction.work (.endRequest demandId) ∈ actions →
    (thread.guard = some demandId ∨ demandId = session.bridge.nextDemandId) ∧ demandId ∉ after.guard ∧
      demandId < (actions.foldl Session.perform session).bridge.nextDemandId

theorem moved_moves (reached : handles.Reachable session) (numbered : session.Numbered)
    (sound : thread.Sound good session) {action : ConnectionAction Outside}
    (possible : thread.connection.Possible (action.map (thread.tell session.bridge))) :
    Moves good handles session thread (thread.moved session action).1 (thread.moved session action).2 ∧
      (thread.moved session action).2.Parts good ((thread.moved session action).1.foldl Session.perform session) := by
  have other : (∀ outside, action ≠ .handle outside) →
      Moves good handles session thread (thread.moved session action).1 (thread.moved session action).2 ∧
        (thread.moved session action).2.Parts good
          ((thread.moved session action).1.foldl Session.perform session) := by
    intro notHandle
    have same : thread.moved session action = ([], { thread with
        connection := thread.connection.perform handleHttp (action.map (thread.tell session.bridge)) }) := by
      unfold moved
      cases action with
      | handle outside => exact absurd rfl (notHandle outside)
      | arrive | disconnect | fail | stopServer | receive | send | watch => rfl
    have plain : ∀ told, action.map (thread.tell session.bridge) ≠ .handle told := by
      cases action with
      | handle outside => exact absurd rfl (notHandle outside)
      | arrive | disconnect | fail | stopServer | receive | send | watch =>
          simp [ConnectionAction.map]
    rw [same]
    refine ⟨⟨reached, numbered, ⟨none, .refl session, by simp⟩, fun _ guard => .inl guard,
      fun _ guard => .inl guard, by simp⟩, sound.owns.reconnect _, ?_⟩
    refine perform_upholds plain ?_ ?_
    · intro idle request
      exact (sound.phase.left idle).1
    · exact sound.phase.imp (fun _ fits => fits) fun idle => idle.2.1
  cases action with
  | handle outside =>
      cases here : thread.connection.phase with
      | receiving | refusing | writing | failing | finished =>
          have handling : thread.connection.phase.isHandling = true := possible
          simp [here, Phase.isHandling] at handling
      | handling place =>
          have entered := enters reached sound numbered here outside
          have same : thread.moved session (.handle outside) =
              ((thread.enter session place (thread.tell session.bridge outside)).1,
                { (thread.enter session place (thread.tell session.bridge outside)).2 with
                  connection := thread.connection.handle handleHttp (thread.tell session.bridge outside) }) := by
            simp only [moved, here]
            rfl
          rw [same]
          refine ⟨⟨entered.reached, ?_, ⟨_, entered.grows, fun demandId guard =>
              ⟨entered.guard demandId guard, .inl guard⟩⟩, entered.guard,
            fun demandId guard => .inl (entered.retains demandId guard),
            fun demandId member => absurd member (enter_notEnds _ _ _ _ _)⟩, ?_, ?_⟩
          · exact numbered.grows entered.grows entered.owns.numbered
          · exact entered.owns.reconnect _
          · exact handle_upholds here entered.leads
  | arrive | disconnect | fail | stopServer | receive | send | watch => exact other (by simp)

theorem Moves.leaves {actions more : List SessionAction} {middle after : Thread}
    (moves : Moves good handles session thread actions middle)
    (leaves : Leaves good handles (actions.foldl Session.perform session) middle more after) :
    Moves good handles session thread (actions ++ more) after := by
  obtain ⟨own, grows, begun⟩ := moves.grows
  have widened : Session.Grows good own (actions.foldl Session.perform session)
      (more.foldl Session.perform (actions.foldl Session.perform session)) :=
    { leaves.grows with fresh := fun waiter new below => by simpa using leaves.grows.fresh waiter new below }
  have quits : ∀ demandId, demandId ∈ middle.guard ∨ Closed (actions.foldl Session.perform session) demandId →
      demandId ∈ after.guard ∨
        Closed (more.foldl Session.perform (actions.foldl Session.perform session)) demandId := by
    rintro demandId (still | closed)
    · exact leaves.quits demandId still
    · exact .inr (closed.grows leaves.grows (by simp))
  have keeps := fun demandId guard => moves.keeps demandId (leaves.guard demandId guard)
  constructor
  · rw [List.foldl_append]
    exact leaves.reached
  · rw [List.foldl_append]
    exact moves.numbered.grows leaves.grows (by simp)
  · rw [List.foldl_append]
    exact ⟨own, grows.trans widened, fun demandId new => (begun demandId new).imp_right (quits demandId)⟩
  · exact keeps
  · rw [List.foldl_append]
    exact fun demandId guard => quits demandId (moves.quits demandId guard)
  · intro demandId member
    rw [List.foldl_append]
    rcases List.mem_append.mp member with before | now
    · obtain ⟨known, gone, below⟩ := moves.ends demandId before
      exact ⟨known, fun guard => gone (leaves.guard demandId guard), below.trans_le leaves.grows.nextDemandId⟩
    · obtain ⟨guard, none, below⟩ := leaves.ends demandId now
      exact ⟨moves.keeps demandId guard, by simp [none], below⟩

theorem perform_moves (reached : handles.Reachable session) (numbered : session.Numbered)
    (sound : thread.Sound good session) {action : ConnectionAction Outside}
    (possible : thread.connection.Possible (action.map (thread.tell session.bridge))) :
    Moves good handles session thread (thread.perform session action).1 (thread.perform session action).2 ∧
      (thread.perform session action).2.Sound good
        ((thread.perform session action).1.foldl Session.perform session) := by
  obtain ⟨now, same⟩ := perform_eq thread session action
  obtain ⟨moves, parts⟩ := moved_moves reached numbered sound possible
  obtain ⟨left, parted, tidy⟩ := leavePiece_leaves moves.reached parts
  have served := moves.leaves left
  have reached := left.reached
  rw [← List.foldl_append] at reached parted
  obtain ⟨returned, final⟩ := leaveHandler_leaves reached parted tidy now
  rw [same]
  refine ⟨served.leaves returned, ?_⟩
  rw [List.foldl_append]
  exact final

end Own

end Thread

end NuvioEngine
