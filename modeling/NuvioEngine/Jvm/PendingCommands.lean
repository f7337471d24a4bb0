import NuvioEngine.Jvm.PendingCommandsCore

/-!
A sweep strands a command only when the command is registered behind its iteration, which only a sweep
after dropped events allows: the other two sweeps start when nothing can be registered any more.
-/

namespace NuvioEngine.Jvm

namespace Engine

/-- Where a sweep stands, every registered command is completed or has yet to be visited. -/
def Swept (engine : Engine) : Sweep → Prop
  | .starting => True
  | .visiting due => ∀ entry ∈ engine.pendingCommands,
      entry.2 ∈ due ∨ engine.isCompleted entry.2 = true
  | .clearing => ∀ entry ∈ engine.pendingCommands, engine.isCompleted entry.2 = true

/-- What the place of the event loop says about the registered commands. -/
def LoopSafe (engine : Engine) : EventLoop → Prop
  | .dropping _ _ sweep => engine.pollFailure = none ∧ engine.Swept sweep
  | .failing _ sweep => engine.pollFailure.isSome ∧ engine.Swept sweep
  | .ended => engine.pollFailure.isSome → engine.pendingCommands = []
  | .polling | .processing _ | .finding _ | .completing _ _ | .caught _ => engine.pollFailure = none

def CloseSafe (engine : Engine) : Closer → Prop
  | .closing sweep => engine.nativeHandle = 0 ∧ engine.Swept sweep
  | .destroying | .closed => engine.nativeHandle = 0 ∧ engine.pendingCommands = []
  | .idle | .cancelled => engine.nativeHandle = 0 → engine.pendingCommands = []

structure Safe (engine : Engine) : Prop where
  loop : engine.LoopSafe engine.eventLoop
  closer : engine.CloseSafe engine.closer
  stranded : engine.stranded = []
  numbered : ∀ entry ∈ engine.pendingCommands, entry.2 < engine.created

/-- A step that registers nothing and leaves every completion in place. -/
structure Fewer (engine next : Engine) : Prop where
  registered : ∀ entry ∈ next.pendingCommands, entry ∈ engine.pendingCommands
  completed : ∀ command, engine.isCompleted command = true → next.isCompleted command = true

section Steps

variable {engine next : Engine}

theorem Fewer.swept (fewer : Fewer engine next) {sweep : Sweep} (swept : engine.Swept sweep) :
    next.Swept sweep := by
  cases sweep with
  | starting => trivial
  | visiting due =>
      intro entry member
      rcases swept entry (fewer.registered entry member) with ahead | done
      · exact .inl ahead
      · exact .inr (fewer.completed entry.2 done)
  | clearing => exact fun entry member => fewer.completed _ (swept entry (fewer.registered entry member))

theorem Fewer.empty (fewer : Fewer engine next) (empty : engine.pendingCommands = []) :
    next.pendingCommands = [] := by
  rw [List.eq_nil_iff_forall_not_mem]
  intro entry member
  have before := fewer.registered entry member
  rw [empty] at before
  exact List.not_mem_nil before

theorem Fewer.loopSafe (fewer : Fewer engine next) (failure : next.pollFailure = engine.pollFailure)
    {loop : EventLoop} (safe : engine.LoopSafe loop) : next.LoopSafe loop := by
  cases loop <;> simp only [LoopSafe, failure] at *
  case dropping => exact ⟨safe.1, fewer.swept safe.2⟩
  case failing => exact ⟨safe.1, fewer.swept safe.2⟩
  case ended => exact fun failed => fewer.empty (safe failed)
  all_goals exact safe

theorem Fewer.closeSafe (fewer : Fewer engine next) (handle : next.nativeHandle = engine.nativeHandle)
    {closer : Closer} (safe : engine.CloseSafe closer) : next.CloseSafe closer := by
  cases closer <;> simp only [CloseSafe, handle] at *
  case closing => exact ⟨safe.1, fewer.swept safe.2⟩
  case destroying => exact ⟨safe.1, fewer.empty safe.2⟩
  case closed => exact ⟨safe.1, fewer.empty safe.2⟩
  all_goals exact fun closed => fewer.empty (safe closed)

theorem isCompleted_complete (engine : Engine) (command query : Nat) (completion : Completion) :
    (engine.complete command completion).isCompleted query =
      (engine.isCompleted query || query == command) := by
  unfold complete
  split
  · rename_i done
    by_cases same : query = command
    · simp [same, done]
    · simp [same]
  · simp only [isCompleted, Function.update_apply]
    split
    · rename_i same
      simp [same]
    · rename_i different
      simp [different]

theorem complete_fewer (engine : Engine) (command : Nat) (completion : Completion) :
    Fewer engine (engine.complete command completion) := by
  constructor
  · unfold complete
    split <;> exact fun _ member => member
  · intro query done
    rw [isCompleted_complete, done, Bool.true_or]

/-- What a step of a sweep leaves alone. -/
structure SweepFrame (engine next : Engine) : Prop where
  fewer : Fewer engine next
  pollFailure : next.pollFailure = engine.pollFailure
  nativeHandle : next.nativeHandle = engine.nativeHandle
  eventLoop : next.eventLoop = engine.eventLoop
  closer : next.closer = engine.closer
  stranded : next.stranded = engine.stranded
  created : next.created = engine.created

theorem complete_frame (engine : Engine) (command : Nat) (completion : Completion) :
    SweepFrame engine (engine.complete command completion) := by
  refine ⟨complete_fewer engine command completion, ?_, ?_, ?_, ?_, ?_, ?_⟩
  all_goals
    unfold complete
    split <;> rfl

/-- One step of a sweep: the commands it has not visited yet stay due, and when it clears the map
every command in it is completed. -/
theorem failPending_swept {sweep : Sweep} (swept : engine.Swept sweep) {visit : Option Nat}
    (can : engine.CanVisit visit sweep) (error : String) :
    SweepFrame engine (engine.failPending error visit sweep).1 ∧
      (∀ later, (engine.failPending error visit sweep).2 = some later →
        (engine.failPending error visit sweep).1.Swept later) ∧
      ((engine.failPending error visit sweep).2 = none →
        (engine.failPending error visit sweep).1.pendingCommands = []) := by
  have same : SweepFrame engine engine :=
    ⟨⟨fun _ member => member, fun _ done => done⟩, rfl, rfl, rfl, rfl, rfl, rfl⟩
  cases sweep with
  | starting =>
      refine ⟨same, ?_, by simp [failPending]⟩
      simp only [failPending, Option.some.injEq, forall_eq']
      exact fun entry member => .inl (List.mem_map_of_mem member)
  | visiting due =>
      cases visit with
      | none =>
          refine ⟨same, ?_, by simp [failPending]⟩
          simp only [failPending, Option.some.injEq, forall_eq']
          intro entry member
          rcases swept entry member with ahead | done
          · exact absurd (List.mem_map_of_mem member) (can entry.2 ahead)
          · exact done
      | some command =>
          have frame := complete_frame engine command (.exception error)
          refine ⟨frame, ?_, by simp [failPending]⟩
          simp only [failPending, Option.some.injEq, forall_eq']
          intro entry member
          rw [isCompleted_complete]
          rcases swept entry (frame.fewer.registered entry member) with ahead | done
          · by_cases visited : entry.2 = command
            · exact .inr (by simp [visited])
            · exact .inl (by simp [ahead, visited])
          · exact .inr (by simp [done])
  | clearing =>
      refine ⟨⟨⟨by simp [failPending], fun _ done => done⟩, rfl, rfl, rfl, rfl, ?_, rfl⟩,
        by simp [failPending], fun _ => rfl⟩
      have none : ((engine.pendingCommands.map Prod.snd).filter fun command =>
          !engine.isCompleted command) = [] := by
        rw [List.filter_eq_nil_iff]
        intro command member
        obtain ⟨entry, registered, rfl⟩ := List.mem_map.mp member
        simp [swept entry registered]
      simp only [failPending, none, List.append_nil]

end Steps

section Safe

variable {engine : Engine}

theorem Safe.initial (begins : engine.Initial) : engine.Safe := by
  obtain ⟨handle, rfl⟩ := begins
  exact ⟨rfl, fun _ => rfl, rfl, by simp⟩

theorem SweepFrame.safe {next : Engine} (frame : SweepFrame engine next) (safe : engine.Safe)
    {loop : EventLoop} {closer : Closer} (loopSafe : next.LoopSafe loop)
    (closeSafe : next.CloseSafe closer) :
    { next with eventLoop := loop, closer := closer }.Safe :=
  ⟨loopSafe, closeSafe, frame.stranded.trans safe.stranded,
    fun entry member => frame.created ▸ safe.numbered entry (frame.fewer.registered entry member)⟩

theorem accepts_open {result : NativeCommandResult} (accepted : engine.accepts result = true) :
    engine.nativeHandle ≠ 0 ∧ engine.pollFailure = none := by
  unfold accepts ensureOpen at accepted
  split at accepted
  · simp [Except.isOk, Except.toBool] at accepted
  · rename_i handle
    split at accepted
    · simp [Except.isOk, Except.toBool] at accepted
    · rename_i working
      exact ⟨handle, by simpa using working⟩

theorem Safe.awaitCommand (safe : engine.Safe) (expectedType : NuvioEventType)
    (result : NativeCommandResult) (ahead : Bool)
    (calm : engine.accepts result = true → ¬ Behind ahead engine.eventLoop) :
    (engine.awaitCommand expectedType result ahead).Safe := by
  unfold Engine.awaitCommand
  split
  · rename_i accepted
    obtain ⟨handle, working⟩ := accepts_open accepted
    have unswept := calm accepted
    have fresh : ∀ entry ∈ engine.pendingCommands, entry.2 ≠ engine.created :=
      fun entry member => Nat.ne_of_lt (safe.numbered entry member)
    have loop := safe.loop
    have closer := safe.closer
    refine ⟨?_, ?_, safe.stranded, ?_⟩
    · cases here : engine.eventLoop with
      | dropping event error sweep =>
          rw [here] at loop unswept
          refine ⟨working, ?_⟩
          cases sweep with
          | starting => cases ahead <;> trivial
          | visiting due =>
              have found : ahead = true := by simpa [Behind] using unswept
              subst found
              intro entry member
              rcases List.mem_append.mp member with old | new
              · rcases loop.2 entry old with due | done
                · exact .inl (List.mem_cons_of_mem _ due)
                · right
                  simpa only [isCompleted, Function.update_of_ne (fresh entry old)] using done
              · rw [List.mem_singleton.mp new]
                exact .inl List.mem_cons_self
          | clearing => exact absurd trivial unswept
      | failing error sweep =>
          rw [here] at loop
          simp [LoopSafe, working] at loop
      | ended => exact fun failed => by simp [working] at failed
      | polling => exact working
      | processing event => exact working
      | finding event => exact working
      | completing event command => exact working
      | caught error => exact working
    · cases here : engine.closer <;> rw [here] at closer
      case idle => exact fun closed => absurd closed handle
      case cancelled => exact fun closed => absurd closed handle
      all_goals exact absurd closer.1 handle
    · intro entry member
      rcases List.mem_append.mp member with old | new
      · exact Nat.lt_succ_of_lt (safe.numbered entry old)
      · rw [List.mem_singleton.mp new]
        exact Nat.lt_succ_self _
  · exact safe

theorem Safe.leave (safe : engine.Safe) (requestId : Int) (command : Nat) :
    (engine.leave requestId command).Safe := by
  have fewer : Fewer engine (engine.leave requestId command) :=
    ⟨fun _ member => (List.mem_filter.mp member).1, fun _ done => done⟩
  exact ⟨fewer.loopSafe rfl safe.loop, fewer.closeSafe rfl safe.closer, safe.stranded,
    fun entry member => safe.numbered entry (fewer.registered entry member)⟩

theorem Safe.eventLoopStep (safe : engine.Safe) {poll : Poll} {visit : Option Nat}
    (possible : engine.Possible (.eventLoop poll visit)) :
    (engine.eventLoopStep poll visit).Safe := by
  have loop := safe.loop
  have place : ∀ {loop : EventLoop}, engine.LoopSafe loop →
      { engine with eventLoop := loop }.Safe :=
    fun here => ⟨here, safe.closer, safe.stranded, safe.numbered⟩
  unfold Engine.eventLoopStep
  split
  case h_1 here =>
    rw [here] at loop
    split
    · exact place loop
    · refine place ?_
      split
      · exact loop
      · exact fun failed => by simp [show engine.pollFailure = none from loop] at failed
    · exact place loop
  case h_2 native here =>
    rw [here] at loop
    split
    · exact place loop
    · split
      · exact ⟨⟨loop, trivial⟩, safe.closer, safe.stranded, safe.numbered⟩
      · exact place loop
  case h_3 event error sweep here =>
    rw [here] at loop
    have can : engine.CanVisit visit sweep := by
      simpa only [Possible, LoopCan, CloserCan, here] using possible
    obtain ⟨frame, later, cleared⟩ := failPending_swept loop.2 can error
    have working : (engine.failPending error visit sweep).1.pollFailure = none :=
      frame.pollFailure.trans loop.1
    have closer := frame.fewer.closeSafe frame.nativeHandle safe.closer
    split
    · rename_i next sweep result
      rw [result] at frame later working closer
      exact frame.safe safe ⟨working, later sweep rfl⟩ (frame.closer ▸ closer)
    · rename_i next result
      rw [result] at frame working closer
      exact frame.safe safe working (frame.closer ▸ closer)
  case h_4 event here =>
    rw [here] at loop
    split
    · exact place loop
    · split <;> exact place loop
  case h_5 event command here =>
    rw [here] at loop
    split
    · exact place loop
    · rename_i completion _
      have frame := complete_frame engine command completion
      exact frame.safe safe (frame.pollFailure.trans loop)
        (frame.closer ▸ frame.fewer.closeSafe frame.nativeHandle safe.closer)
  case h_6 error here =>
    exact ⟨⟨rfl, trivial⟩, safe.closer, safe.stranded, safe.numbered⟩
  case h_7 error sweep here =>
    rw [here] at loop
    have can : engine.CanVisit visit sweep := by
      simpa only [Possible, LoopCan, CloserCan, here] using possible
    obtain ⟨frame, later, cleared⟩ := failPending_swept loop.2 can error
    have failed : (engine.failPending error visit sweep).1.pollFailure.isSome :=
      frame.pollFailure ▸ loop.1
    have closer := frame.fewer.closeSafe frame.nativeHandle safe.closer
    split
    · rename_i next sweep result
      rw [result] at frame later failed closer
      exact frame.safe safe ⟨failed, later sweep rfl⟩ (frame.closer ▸ closer)
    · rename_i next result
      rw [result] at frame cleared closer
      exact frame.safe safe (fun _ => cleared rfl) (frame.closer ▸ closer)
  case h_8 here => exact safe

theorem Safe.closeStep (safe : engine.Safe) {visit : Option Nat}
    (possible : engine.Possible (.close visit)) : (engine.closeStep visit).Safe := by
  have closer := safe.closer
  unfold Engine.closeStep
  split
  case h_1 here =>
    rw [here] at closer
    exact ⟨safe.loop, closer, safe.stranded, safe.numbered⟩
  case h_2 here =>
    rw [here] at closer
    split
    · rename_i closed
      exact ⟨safe.loop, ⟨closed, closer closed⟩, safe.stranded, safe.numbered⟩
    · exact ⟨safe.loop, ⟨rfl, trivial⟩, safe.stranded, safe.numbered⟩
  case h_3 sweep here =>
    rw [here] at closer
    have can : engine.CanVisit visit sweep := by
      simpa only [Possible, LoopCan, CloserCan, here] using possible
    obtain ⟨frame, later, cleared⟩ := failPending_swept closer.2 can "NuvioEngine is closed"
    have closed : (engine.failPending "NuvioEngine is closed" visit sweep).1.nativeHandle = 0 :=
      frame.nativeHandle.trans closer.1
    have loop := frame.fewer.loopSafe frame.pollFailure safe.loop
    split
    · rename_i next sweep result
      rw [result] at frame later closed loop
      exact frame.safe safe (frame.eventLoop ▸ loop) ⟨closed, later sweep rfl⟩
    · rename_i next result
      rw [result] at frame cleared closed loop
      exact frame.safe safe (frame.eventLoop ▸ loop) ⟨closed, cleared rfl⟩
  case h_4 here =>
    rw [here] at closer
    exact ⟨safe.loop, closer, safe.stranded, safe.numbered⟩
  case h_5 here => exact safe

theorem Safe.kept (safe : engine.Safe) : engine.Kept := by
  refine ⟨safe.stranded, ?_⟩
  rintro (⟨failed, ended⟩ | closed) entry member
  · have loop := safe.loop
    rw [ended] at loop
    rw [loop failed] at member
    exact absurd member List.not_mem_nil
  · have closer := safe.closer
    rw [closed] at closer
    rw [closer.2] at member
    exact absurd member List.not_mem_nil

end Safe

/-- In every interleaving in which no command is registered behind the iteration of a sweep after
dropped events, no command is removed uncompleted by anybody but its caller, and none is left
uncompleted once the event loop has failed and swept or `close` has finished. -/
theorem commands_kept {engine : Engine}
    (reached : Transition.Reachable Initial
      (fun before action => before.Possible action ∧ before.Calm action) perform engine) :
    engine.Kept := by
  refine Safe.kept (@Transition.Reachable.invariant _ _ Initial
    (fun before action => before.Possible action ∧ before.Calm action) perform Safe
    (fun _ begins => Safe.initial begins) ?_ engine reached)
  rintro before action safe ⟨possible, calm⟩
  cases action with
  | awaitCommand expectedType result ahead => exact safe.awaitCommand expectedType result ahead calm
  | leave requestId command => exact safe.leave requestId command
  | eventLoop poll visit => exact safe.eventLoopStep possible
  | close visit => exact safe.closeStep possible

/-- A command that comes to lie ahead of the iteration is failed by the sweep. -/
theorem commands_kept_ahead :
    let actions : List EngineAction := [
      .eventLoop (.event ⟨1, 0, 3, ""⟩) none, .eventLoop .nothing none, .eventLoop .nothing none,
      .awaitCommand .torrentMetadataReady ⟨0, 7⟩ true, .eventLoop .nothing (some 0),
      .eventLoop .nothing none, .eventLoop .nothing none]
    let engine := actions.foldl perform { nativeHandle := 1 }
    engine.isCompleted 0 = true ∧ engine.Kept := by
  intro actions engine
  have runs : Transition.Runs
      (fun before action => before.Possible action ∧ before.Calm action) perform
      { nativeHandle := 1 } actions := by
    decide +kernel
  exact ⟨by decide +kernel, commands_kept ((Transition.Reachable.start ⟨1, rfl⟩).run runs)⟩

/-- An event reports dropped events while no command is registered; the iteration ends at once, a
command is registered, and the map is cleared. -/
theorem registered_before_clear_stranded : ¬ ∀ engine, Reachable engine → engine.Kept := by
  intro all
  have runs : Transition.Runs Possible perform { nativeHandle := 1 } [
      .eventLoop (.event ⟨1, 0, 3, ""⟩) none, .eventLoop .nothing none, .eventLoop .nothing none,
      .eventLoop .nothing none, .awaitCommand .torrentMetadataReady ⟨0, 7⟩ false,
      .eventLoop .nothing none] := by
    decide +kernel
  have stranded := (all _ ((Transition.Reachable.start ⟨1, rfl⟩).run runs)).1
  revert stranded
  decide +kernel

end Engine

end NuvioEngine.Jvm
