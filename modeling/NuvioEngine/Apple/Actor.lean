import NuvioEngine.Apple.ActorCore
import NuvioEngine.Core.Commands
import NuvioEngine.Core.Events

/-!
The callers of the actor's commands: every continuation is resumed once, with the answer of the engine or
an error, and no answer that the bounded event queue loses leaves a caller waiting.
-/

namespace NuvioEngine.Apple

open NuvioEngine.Backend NuvioEngine.Core

namespace EngineActor

variable {actor : EngineActor} {requestID : Nat} {expectedType : NuvioEventType}

/-- Continuations are pending or resumed, and none is both or twice; a closed actor has none pending. -/
structure Sound (actor : EngineActor) : Prop where
  once : (actor.awaited.map Prod.fst).Nodup
  kept : (actor.pendingCommands.keys ++ actor.resumed.map Prod.fst).Perm (actor.awaited.map Prod.fst)
  expects : ∀ requestID expectedType, actor.pendingCommands.lookup requestID = some expectedType →
    (requestID, expectedType) ∈ actor.awaited
  closed : actor.opened = false ∨ actor.pollingFailure.isSome = true → actor.pendingCommands = ∅
  cancels : ∀ requestID ∈ actor.cancelled, requestID ∈ actor.awaited.map Prod.fst ∧
    (requestID ∈ actor.cancelTasks ∨ actor.pendingCommands.lookup requestID = none)
  returned : ∀ requestID event, (requestID, .returning event) ∈ actor.resumed →
    event.requestID = requestID ∧ (requestID, event.type) ∈ actor.awaited

theorem ensureOpen_isOk (opens : actor.ensureOpen.isOk = true) :
    actor.opened = true ∧ actor.pollingFailure.isSome = false := by
  unfold ensureOpen at opens
  cases failure : actor.pollingFailure with
  | some error => simp [failure, Except.isOk, Except.toBool] at opens
  | none =>
      refine ⟨?_, rfl⟩
      by_contra shut
      simp [failure, shut, Except.isOk, Except.toBool] at opens

theorem sound_initial : Sound {} := by
  constructor <;> simp

namespace Sound

theorem resume (sound : actor.Sound) (pending : actor.pendingCommands.lookup requestID = some expectedType)
    {resumption : Resumption} (right : ∀ event, resumption = .returning event →
      event.requestID = requestID ∧ event.type = expectedType) :
    (actor.resume requestID resumption).Sound where
  once := sound.once
  kept := by
    have member : requestID ∈ actor.pendingCommands.keys := by
      rw [← AList.mem_keys, ← AList.lookup_isSome, pending]
      rfl
    refine .trans ?_ sound.kept
    simp only [EngineActor.resume, AList.keys_erase, List.map_append, List.map_cons, List.map_nil]
    refine .trans ?_ (List.Perm.append_right _ (List.perm_cons_erase member).symm)
    rw [← List.append_assoc]
    exact List.perm_append_singleton _ _
  expects := by
    intro query type found
    refine sound.expects query type ?_
    simp only [EngineActor.resume, AList.lookup_erase_ite] at found
    split at found
    · simp at found
    · exact found
  closed := by
    intro shut
    have empty := sound.closed shut
    simp [empty] at pending
  cancels := by
    intro query member
    exact (sound.cancels query member).imp_right (Or.imp id AList.lookup_erase_of_none)
  returned := by
    intro query event member
    rcases List.mem_append.mp member with before | last
    · exact sound.returned query event before
    · obtain ⟨rfl, rfl⟩ := Prod.mk.inj (List.mem_singleton.mp last)
      obtain ⟨same, type⟩ := right event rfl
      exact ⟨same, type ▸ sound.expects _ _ pending⟩

theorem failPending (sound : actor.Sound) (error : Failure) : (actor.failPending error).Sound where
  once := sound.once
  kept := by
    refine .trans ?_ sound.kept
    have keys : actor.pendingCommands.entries.map Sigma.fst = actor.pendingCommands.keys := rfl
    simp only [EngineActor.failPending, AList.keys_empty, List.nil_append, List.map_append, List.map_map,
      Function.comp_def, keys]
    exact List.perm_append_comm
  expects := by simp [EngineActor.failPending]
  closed := fun _ => rfl
  cancels := fun query member => ⟨(sound.cancels query member).1, .inr (AList.lookup_empty _)⟩
  returned := by
    intro query event member
    rcases List.mem_append.mp member with before | last
    · exact sound.returned query event before
    · obtain ⟨pending, _, same⟩ := List.mem_map.mp last
      simp at same

theorem failPolling (sound : actor.Sound) (error : Failure) : (actor.failPolling error).Sound :=
  have failed := sound.failPending error
  ⟨failed.once, failed.kept, failed.expects, fun _ => rfl, failed.cancels, failed.returned⟩

theorem shutdown (sound : actor.Sound) : actor.shutdown.Sound :=
  have failed := sound.failPending (.engine (text "NuvioEngine is closed"))
  ⟨failed.once, failed.kept, failed.expects, fun _ => rfl, failed.cancels, failed.returned⟩

theorem awaitCommand (sound : actor.Sound) (opens : actor.ensureOpen.isOk = true)
    (fresh : requestID ∉ actor.awaited.map Prod.fst) (isCancelled : Bool) :
    (actor.awaitCommand requestID expectedType isCancelled).Sound := by
  have unpending : requestID ∉ actor.pendingCommands.keys := fun member =>
    fresh (sound.kept.mem_iff.mp (List.mem_append_left _ member))
  have once : ((actor.awaited ++ [(requestID, expectedType)]).map Prod.fst).Nodup := by
    rw [List.map_append]
    exact List.Nodup.append sound.once (List.nodup_singleton _) (by simpa using fresh)
  have awaited : (actor.awaited.map Prod.fst ++ [requestID]) =
      (actor.awaited ++ [(requestID, expectedType)]).map Prod.fst := by simp
  have returned : ∀ query event, (query, Resumption.returning event) ∈ actor.resumed →
      event.requestID = query ∧ (query, event.type) ∈ actor.awaited ++ [(requestID, expectedType)] :=
    fun query event member => (sound.returned query event member).imp_right (List.mem_append_left _)
  cases isCancelled with
  | true =>
      refine ⟨once, ?_, ?_, sound.closed, ?_, ?_⟩
      · simp only [EngineActor.awaitCommand, if_true, List.map_append, List.map_cons, List.map_nil]
        rw [← List.append_assoc]
        exact sound.kept.append_right _
      · exact fun query type found => List.mem_append_left _ (sound.expects query type found)
      · intro query member
        rcases List.mem_append.mp member with before | last
        · obtain ⟨known, due⟩ := sound.cancels query before
          exact ⟨awaited ▸ List.mem_append_left _ known, due.imp_left (List.mem_append_left _)⟩
        · exact ⟨awaited ▸ List.mem_append_right _ last, .inl (List.mem_append_right _ last)⟩
      · intro query event member
        rcases List.mem_append.mp member with before | last
        · exact returned query event before
        · simp at last
  | false =>
      refine ⟨once, ?_, ?_, ?_, ?_, returned⟩
      · simp only [EngineActor.awaitCommand, Bool.false_eq_true, if_false]
        rw [← awaited, AList.keys_insert, List.erase_of_not_mem unpending, List.cons_append]
        exact ((List.perm_cons requestID).mpr sound.kept).trans (List.perm_append_singleton _ _).symm
      · intro query type found
        simp only [EngineActor.awaitCommand, Bool.false_eq_true, if_false, AList.lookup_insert_ite] at found ⊢
        split at found
        · rename_i same
          obtain rfl := Option.some.inj found
          simp [same]
        · exact List.mem_append_left _ (sound.expects query type found)
      · intro shut
        obtain ⟨opened, healthy⟩ := ensureOpen_isOk opens
        rcases shut with closed | failed
        · exact absurd (closed.symm.trans opened) (by simp)
        · exact absurd (failed.symm.trans healthy) (by simp)
      · intro query member
        obtain ⟨known, due⟩ := sound.cancels query member
        have other : query ≠ requestID := by
          rintro rfl
          exact fresh known
        refine ⟨awaited ▸ List.mem_append_left _ known, due.imp_right fun absent => ?_⟩
        simp only [EngineActor.awaitCommand, Bool.false_eq_true, if_false]
        rw [AList.lookup_insert_ne other]
        exact absent

theorem onCancel (sound : actor.Sound) (known : requestID ∈ actor.awaited.map Prod.fst) :
    (actor.onCancel requestID).Sound where
  once := sound.once
  kept := sound.kept
  expects := sound.expects
  closed := sound.closed
  cancels := by
    intro query member
    rcases List.mem_append.mp member with before | last
    · obtain ⟨known, due⟩ := sound.cancels query before
      exact ⟨known, due.imp_left (List.mem_append_left _)⟩
    · obtain rfl := List.mem_singleton.mp last
      exact ⟨known, .inl (List.mem_append_right _ last)⟩
  returned := sound.returned

/-- A task that runs leaves its own request resumed. -/
theorem cancelPending (sound : actor.Sound) (requestID : Nat) : (actor.cancelPending requestID).Sound := by
  have due : ∀ query ∈ actor.cancelled, query ∈ actor.awaited.map Prod.fst ∧
      (query ∈ actor.cancelTasks.erase requestID ∨ actor.pendingCommands.lookup query = none ∨
        query = requestID) := by
    intro query member
    obtain ⟨known, task | absent⟩ := sound.cancels query member
    · by_cases same : query = requestID
      · exact ⟨known, .inr (.inr same)⟩
      · exact ⟨known, .inl ((List.mem_erase_of_ne same).mpr task)⟩
    · exact ⟨known, .inr (.inl absent)⟩
  unfold EngineActor.cancelPending
  simp only
  cases pending : actor.pendingCommands.lookup requestID with
  | none =>
      refine ⟨sound.once, sound.kept, sound.expects, sound.closed, fun query member => ?_, sound.returned⟩
      obtain ⟨known, task | absent | rfl⟩ := due query member
      · exact ⟨known, .inl task⟩
      · exact ⟨known, .inr absent⟩
      · exact ⟨known, .inr pending⟩
  | some expectedType =>
      have resumed : (actor.resume requestID (.throwing .cancellation)).Sound :=
        sound.resume pending (by simp)
      refine ⟨resumed.once, resumed.kept, resumed.expects, resumed.closed, fun query member => ?_,
        resumed.returned⟩
      obtain ⟨known, task | absent | rfl⟩ := due query member
      · exact ⟨known, .inl task⟩
      · exact ⟨known, .inr (AList.lookup_erase_of_none absent)⟩
      · exact ⟨known, .inr (AList.lookup_erase _ _)⟩

theorem noticeDropped (sound : actor.Sound) (event : NuvioEvent) : (actor.noticeDropped event).Sound := by
  unfold EngineActor.noticeDropped
  split
  · have failed := sound.failPending (.engine (droppedMessage event.droppedEvents))
    exact ⟨failed.once, failed.kept, failed.expects, failed.closed, failed.cancels, failed.returned⟩
  · exact sound

theorem answer (sound : actor.Sound) (event : NuvioEvent) : (actor.answer event).Sound := by
  unfold EngineActor.answer
  split
  · exact sound
  · rename_i expectedType found
    have pending : actor.pendingCommands.lookup event.requestID = some expectedType := by
      split at found
      · exact found
      · simp at found
    split
    · exact sound.resume pending (by simp)
    · split
      · rename_i type
        refine sound.resume pending fun other same => ?_
        obtain rfl := Resumption.returning.inj same
        exact ⟨rfl, type⟩
      · exact sound

end Sound

end EngineActor

theorem makeEvent_ok {nativeEvent : EngineEvent} {validUrl : Bool} {event : NuvioEvent}
    (made : makeEvent nativeEvent validUrl = .ok event) :
    event.requestID = nativeEvent.requestId ∧ event.droppedEvents = nativeEvent.droppedEvents ∧
      NuvioEventType.ofRawValue (eventNumber nativeEvent.type) = some event.type := by
  unfold makeEvent at made
  split at made
  · simp at made
  · rename_i type known
    split at made
    · simp at made
    · obtain rfl := Except.ok.inj made
      exact ⟨rfl, rfl, known⟩

namespace EngineActor

variable {actor : EngineActor}

theorem answer_kept (event : NuvioEvent) : (actor.answer event).awaited = actor.awaited ∧
    (actor.answer event).lastDroppedEvents = actor.lastDroppedEvents ∧
    (actor.answer event).opened = actor.opened ∧
    (actor.answer event).pollingFailure = actor.pollingFailure := by
  unfold answer
  split
  · exact ⟨rfl, rfl, rfl, rfl⟩
  · split
    · exact ⟨rfl, rfl, rfl, rfl⟩
    · split <;> exact ⟨rfl, rfl, rfl, rfl⟩

/-- A command that is still pending is not the one that the event ends. -/
theorem answer_pending {event : NuvioEvent} {requestID : Nat} {expectedType : NuvioEventType}
    (pending : (actor.answer event).pendingCommands.lookup requestID = some expectedType) :
    actor.pendingCommands.lookup requestID = some expectedType ∧
      (requestID ≠ 0 → event.requestID = requestID →
        event.type ≠ .torrentError ∧ event.type ≠ expectedType) := by
  have erased (resumption : Resumption) (left : (actor.resume event.requestID resumption).pendingCommands.lookup
      requestID = some expectedType) : actor.pendingCommands.lookup requestID = some expectedType ∧
        event.requestID ≠ requestID := by
    simp only [resume, AList.lookup_erase_ite] at left
    split at left
    · simp at left
    · rename_i other
      exact ⟨left, Ne.symm other⟩
  unfold answer at pending
  split at pending
  · rename_i none
    refine ⟨pending, fun positive same => ?_⟩
    rw [same, if_pos positive, pending] at none
    simp at none
  · rename_i found there
    split at pending
    · obtain ⟨left, other⟩ := erased _ pending
      exact ⟨left, fun _ same => absurd same other⟩
    · rename_i error
      split at pending
      · obtain ⟨left, other⟩ := erased _ pending
        exact ⟨left, fun _ same => absurd same other⟩
      · rename_i unexpected
        refine ⟨pending, fun positive same => ⟨error, ?_⟩⟩
        rw [same, if_pos positive, pending] at there
        exact Option.some.inj there ▸ unexpected

end EngineActor

/-- The event ends the command of a request that expects this type. -/
def Answers (event : EngineEvent) (requestID : Nat) (expectedType : NuvioEventType) : Prop :=
  event.requestId = requestID ∧
    (event.type = .torrentError ∨ NuvioEventType.ofRawValue (eventNumber event.type) = some expectedType)

instance (event : EngineEvent) (requestID : Nat) (expectedType : NuvioEventType) :
    Decidable (Answers event requestID expectedType) :=
  inferInstanceAs (Decidable (_ ∧ (_ ∨ _)))

/-- The requests that the events in the worker's hands, and the command that it executes, are about. -/
def mentioned : Worker → List Nat
  | .processing command => [command.requestId]
  | .refreshing events => events.map BackendEvent.requestId
  | .filing event rest _ | .stamping event rest _ => event.requestId :: rest.map BackendEvent.requestId
  | .storing event rest _ => event.requestId :: rest.map BackendEvent.requestId
  | .waiting | .collecting | .shuttingDown | .stopped => []

theorem mentioned_publish (caller : Caller) (events : List BackendEvent) :
    mentioned (.publish caller events) = events.map BackendEvent.requestId := by
  cases events <;> cases caller <;> rfl

section Work

variable {runtime : EngineRuntime} {answers : BackendAnswers} {bound : Nat}

/-- The worker mentions no request that it was not told about. -/
theorem work_mentioned (positive : 0 < bound) (commands : ∀ command ∈ runtime.commands, command.requestId < bound)
    (own : ∀ id ∈ mentioned runtime.worker, id < bound)
    (told : ∀ event ∈ answers.popEvents.toOption.getD [], event.requestId < bound) :
    ∀ id ∈ mentioned (runtime.work answers).worker, id < bound := by
  unfold EngineRuntime.work
  cases place : runtime.worker with
  | waiting =>
      simp only [EngineRuntime.takeCommand]
      split
      · rename_i command rest queue
        intro id member
        obtain rfl := List.mem_singleton.mp member
        exact commands command (queue ▸ List.mem_cons_self)
      · simp only
        split <;> simp [mentioned]
  | processing command =>
      rw [place] at own
      intro id member
      simp only [mentioned_publish] at member
      cases thrown : answers.commandThrows with
      | none => simp [thrown] at member
      | some error =>
          obtain rfl : id = command.requestId := by simpa [thrown, errorEvent] using member
          exact own _ List.mem_cons_self
  | collecting =>
      simp only
      split
      · simpa [mentioned_publish, errorEvent] using positive
      · rename_i events popped
        unfold EngineRuntime.takeEvents
        split
        · simp [mentioned]
        · intro id member
          obtain ⟨event, there, rfl⟩ := List.mem_map.mp member
          exact told event (by simpa [popped, Except.toOption] using there)
  | refreshing events =>
      rw [place] at own
      simp only
      split
      · simpa [mentioned_publish, errorEvent] using positive
      · rw [mentioned_publish]
        exact own
  | filing event rest caller | stamping event rest caller =>
      rw [place] at own
      exact own
  | storing event rest caller =>
      rw [place] at own
      intro id member
      simp only [mentioned_publish] at member
      exact own id (List.mem_cons_of_mem _ member)
  | shuttingDown | stopped => simp [place, mentioned]

/-- A step of the worker stores the event that it was about to store, or leaves the queue alone. -/
theorem work_stores (engine : Engine) (answers : BackendAnswers) :
    ((engine.work answers).stored = engine.stored ∧
      (engine.work answers).runtime.events = engine.runtime.events ∧
      (engine.work answers).runtime.droppedEvents = engine.runtime.droppedEvents) ∨
    ∃ event, event.requestId ∈ mentioned engine.runtime.worker ∧
      (engine.work answers).stored = engine.stored ++
        [{ event with droppedEvents := (engine.runtime.storeEvent event).droppedEvents }] ∧
      (engine.work answers).runtime.events = (engine.runtime.storeEvent event).events ∧
      (engine.work answers).runtime.droppedEvents = (engine.runtime.storeEvent event).droppedEvents := by
  by_cases pushing : engine.runtime.Pushing
  · unfold EngineRuntime.Pushing at pushing
    split at pushing
    · rename_i event rest caller place
      left
      simp only [Engine.work, EngineRuntime.work, place, EngineRuntime.fileEvent]
      refine ⟨trivial, ?_⟩
      split <;> exact ⟨rfl, rfl⟩
    · rename_i event rest caller place
      left
      simp only [Engine.work, EngineRuntime.work, place]
      exact ⟨trivial, trivial, trivial⟩
    · rename_i event rest caller place
      right
      refine ⟨event, by simp [place, mentioned], ?_⟩
      simp only [Engine.work, EngineRuntime.work, place]
      exact ⟨trivial, trivial, trivial⟩
    · exact pushing.elim
  · left
    obtain ⟨events, _, _, dropped, _⟩ := engine.runtime.work_quiet answers pushing
    rw [Engine.work_runtime]
    refine ⟨?_, events, dropped⟩
    unfold Engine.work
    cases place : engine.runtime.worker with
    | storing event rest caller => simp [EngineRuntime.Pushing, place] at pushing
    | waiting | processing | collecting | refreshing | filing | stamping | shuttingDown | stopped => rfl

end Work

/-- The actor still polls events. -/
def EngineActor.Polls (actor : EngineActor) : Prop :=
  actor.opened = true ∧ actor.pollingFailure.isNone = true

namespace System

/-- Where the answers to the pending commands are: not stored yet, queued, or among the events whose loss
the next event will report. -/
structure Delivering (system : System) : Prop where
  orderly : system.engine.Orderly
  sound : system.actor.Sound
  numbered : ∀ id ∈ system.actor.awaited.map Prod.fst, 0 < id ∧ id < system.engine.runtime.nextRequestId
  stored : ∀ event ∈ system.engine.stored, event.requestId < system.engine.runtime.nextRequestId
  worker : ∀ id ∈ mentioned system.engine.runtime.worker, id < system.engine.runtime.nextRequestId
  newest : ∀ event ∈ system.engine.runtime.events.getLast?,
    event.droppedEvents = system.engine.runtime.droppedEvents
  drained : system.actor.Polls → system.engine.runtime.events = [] →
    system.engine.runtime.droppedEvents ≤ system.actor.lastDroppedEvents
  reported : system.actor.lastDroppedEvents ≤ system.engine.runtime.droppedEvents
  queued : ∀ event ∈ system.engine.runtime.events,
    event.droppedEvents ≤ system.engine.runtime.droppedEvents
  unanswered : ∀ requestID expectedType, system.actor.pendingCommands.lookup requestID = some expectedType →
    ∀ event ∈ system.engine.stored, Answers event requestID expectedType →
      event ∈ system.engine.runtime.events ∨
        system.actor.lastDroppedEvents < system.engine.runtime.droppedEvents

variable {system : System}

theorem delivering_initial (initial : system.Initial) : system.Delivering := by
  obtain ⟨hasBackend, commandCapacity, eventCapacity, rfl⟩ := initial
  refine ⟨.create hasBackend commandCapacity eventCapacity, EngineActor.sound_initial, ?_, ?_, ?_, ?_, ?_, ?_,
    ?_, ?_⟩
  all_goals simp [Engine.create, mentioned]

/-- What the call of a client thread does to the engine. -/
theorem submitted_engine (engine : Engine) (command : Command) :
    ((engine.call 0 command).enqueue 0).stored = engine.stored ∧
      ((engine.call 0 command).enqueue 0).runtime =
        (engine.runtime.enqueue command (engine.requestIds 0)).2.1 := by
  have called : (engine.call 0 command).calls.lookup 0 = some command := AList.lookup_insert _
  simp only [Engine.enqueue, called]
  exact ⟨rfl, rfl⟩

theorem enqueue_status (runtime : EngineRuntime) (command : Command) (first second : Nat) :
    (runtime.enqueue command first).1 = (runtime.enqueue command second).1 := by
  unfold EngineRuntime.enqueue
  split_ifs <;> rfl

namespace Delivering

/-- A step of the actor that takes no event and adds no command. -/
theorem actor (delivering : system.Delivering) {after : EngineActor} (sound : after.Sound)
    (awaited : after.awaited = system.actor.awaited)
    (dropped : after.lastDroppedEvents = system.actor.lastDroppedEvents)
    (polls : after.Polls → system.actor.Polls)
    (fewer : ∀ requestID expectedType, after.pendingCommands.lookup requestID = some expectedType →
      system.actor.pendingCommands.lookup requestID = some expectedType) :
    Delivering { system with actor := after } where
  orderly := delivering.orderly
  sound := sound
  numbered := awaited ▸ delivering.numbered
  stored := delivering.stored
  worker := delivering.worker
  newest := delivering.newest
  drained := fun still empty => dropped ▸ delivering.drained (polls still) empty
  reported := dropped ▸ delivering.reported
  queued := delivering.queued
  unanswered := by
    intro requestID expectedType pending event member answers
    rw [dropped]
    exact delivering.unanswered requestID expectedType (fewer _ _ pending) event member answers

theorem work (delivering : system.Delivering) {answers : BackendAnswers}
    (told : ∀ event ∈ answers.popEvents.toOption.getD [],
      event.requestId < system.engine.runtime.nextRequestId) :
    Delivering { system with engine := system.engine.work answers } := by
  have orderly := delivering.orderly
  have next : (system.engine.work answers).runtime.nextRequestId = system.engine.runtime.nextRequestId := by
    rw [Engine.work_runtime, (EngineRuntime.work_fixed _ answers).2.1]
  have positive : 0 < system.engine.runtime.nextRequestId := by
    rw [orderly.next]
    exact Nat.succ_pos _
  have commands : ∀ command ∈ system.engine.runtime.commands,
      command.requestId < system.engine.runtime.nextRequestId := by
    intro command member
    have accepted : command.requestId ∈ system.engine.accepted.map Command.requestId := by
      rw [← orderly.queued]
      exact List.mem_map_of_mem (List.mem_append_right _ member)
    rw [orderly.numbered, List.mem_range'_1] at accepted
    rw [orderly.next]
    omega
  have worker : ∀ id ∈ mentioned (system.engine.work answers).runtime.worker,
      id < (system.engine.work answers).runtime.nextRequestId := by
    rw [next, Engine.work_runtime]
    exact work_mentioned positive commands delivering.worker told
  rcases work_stores system.engine answers with ⟨stored, events, dropped⟩ |
    ⟨event, own, stored, events, dropped⟩
  · refine ⟨orderly.work answers, delivering.sound, ?_, ?_, worker, ?_, ?_, ?_, ?_, ?_⟩
    · exact next ▸ delivering.numbered
    · exact next ▸ stored ▸ delivering.stored
    · rw [events, dropped]
      exact delivering.newest
    · rw [events, dropped]
      exact delivering.drained
    · rw [dropped]
      exact delivering.reported
    · rw [events, dropped]
      exact delivering.queued
    · rw [stored, events, dropped]
      exact delivering.unanswered
  · have reported := delivering.reported
    have more : system.engine.runtime.droppedEvents ≤ (system.engine.runtime.storeEvent event).droppedEvents := by
      simp only [EngineRuntime.storeEvent]
      split <;> omega
    have last : (system.engine.runtime.storeEvent event).events = (if system.engine.runtime.events.length ≥
        system.engine.runtime.eventCapacity then system.engine.runtime.events.tail
        else system.engine.runtime.events) ++
        [{ event with droppedEvents := (system.engine.runtime.storeEvent event).droppedEvents }] := rfl
    refine ⟨orderly.work answers, delivering.sound, ?_, ?_, worker, ?_, ?_, ?_, ?_, ?_⟩
    · exact next ▸ delivering.numbered
    · rw [stored, next]
      intro other member
      rcases List.mem_append.mp member with before | new
      · exact delivering.stored other before
      · obtain rfl := List.mem_singleton.mp new
        exact delivering.worker _ own
    · rw [events, dropped, last, List.getLast?_concat]
      intro other same
      obtain rfl := Option.some.inj same
      rfl
    · rw [events, last]
      simp
    · rw [dropped]
      exact reported.trans more
    · rw [events, dropped, last]
      intro other member
      rcases List.mem_append.mp member with before | new
      · refine (delivering.queued other ?_).trans more
        split at before
        · exact List.mem_of_mem_tail before
        · exact before
      · obtain rfl := List.mem_singleton.mp new
        exact le_refl _
    · rw [stored, events, dropped]
      intro requestID expectedType pending other member answered
      rcases List.mem_append.mp member with before | new
      · rcases delivering.unanswered requestID expectedType pending other before answered with here | lost
        · by_cases full : system.engine.runtime.events.length ≥ system.engine.runtime.eventCapacity
          · right
            simp only [EngineRuntime.storeEvent, full, if_true]
            omega
          · left
            rw [last, if_neg full]
            exact List.mem_append_left _ here
        · exact .inr (Nat.lt_of_lt_of_le lost more)
      · left
        rw [last]
        exact List.mem_append_right _ new

/-- The call that submits a command leaves the events alone. -/
theorem enqueue (delivering : system.Delivering) (command : Command) :
    Delivering { system with engine := (system.engine.call 0 command).enqueue 0 } := by
  have orderly := (delivering.orderly.call 0 command).enqueue 0
  obtain ⟨stored, runtime⟩ := submitted_engine system.engine command
  generalize system.engine.requestIds 0 = given at runtime
  have kept : (system.engine.runtime.enqueue command given).2.1.events = system.engine.runtime.events ∧
      (system.engine.runtime.enqueue command given).2.1.droppedEvents =
        system.engine.runtime.droppedEvents ∧
      (system.engine.runtime.enqueue command given).2.1.worker = system.engine.runtime.worker ∧
      system.engine.runtime.nextRequestId ≤
        (system.engine.runtime.enqueue command given).2.1.nextRequestId := by
    unfold EngineRuntime.enqueue
    split_ifs <;> simp
  obtain ⟨events, dropped, worker, next⟩ := kept
  rw [← runtime] at events dropped worker next
  refine ⟨orderly, delivering.sound, ?_, ?_, ?_, ?_, ?_, ?_, ?_, ?_⟩
  · exact fun id member => ⟨(delivering.numbered id member).1,
      Nat.lt_of_lt_of_le (delivering.numbered id member).2 next⟩
  · rw [stored]
    exact fun event member => Nat.lt_of_lt_of_le (delivering.stored event member) next
  · rw [worker]
    exact fun id member => Nat.lt_of_lt_of_le (delivering.worker id member) next
  · rw [events, dropped]
    exact delivering.newest
  · rw [events, dropped]
    exact delivering.drained
  · rw [dropped]
    exact delivering.reported
  · rw [events, dropped]
    exact delivering.queued
  · rw [stored, events, dropped]
    exact delivering.unanswered

theorem submit (delivering : system.Delivering) (submission : Submission) (isCancelled : Bool) :
    (system.submit submission isCancelled).Delivering := by
  unfold System.submit
  split
  · rename_i opens
    split
    · exact delivering
    · rename_i command _
      have enqueued := delivering.enqueue command
      simp only
      split
      · rename_i accepted
        obtain ⟨ok, _⟩ := accepted
        obtain ⟨_, _, outcome⟩ := system.engine.runtime.enqueue_accepted command 0 ok
        have id : (system.engine.runtime.enqueue command 0).2.2 = system.engine.runtime.nextRequestId := by
          rw [outcome]
        have next : ((system.engine.call 0 command).enqueue 0).runtime.nextRequestId =
            system.engine.runtime.nextRequestId + 1 := by
          obtain ⟨_, _, result⟩ := system.engine.runtime.enqueue_accepted command _
            ((enqueue_status _ command (system.engine.requestIds 0) 0).trans ok)
          rw [(submitted_engine system.engine command).2, result]
        have fresh : system.engine.runtime.nextRequestId ∉ system.actor.awaited.map Prod.fst := fun member =>
          absurd (delivering.numbered _ member).2 (Nat.lt_irrefl _)
        have positive : 0 < system.engine.runtime.nextRequestId := by
          rw [delivering.orderly.next]
          exact Nat.succ_pos _
        rw [id]
        have awaited : (system.actor.awaitCommand system.engine.runtime.nextRequestId submission.expectedType
            isCancelled).awaited =
              system.actor.awaited ++ [(system.engine.runtime.nextRequestId, submission.expectedType)] := by
          cases isCancelled <;> rfl
        have dropped : (system.actor.awaitCommand system.engine.runtime.nextRequestId submission.expectedType
            isCancelled).lastDroppedEvents = system.actor.lastDroppedEvents := by
          cases isCancelled <;> rfl
        have polls : (system.actor.awaitCommand system.engine.runtime.nextRequestId submission.expectedType
            isCancelled).Polls → system.actor.Polls := by
          cases isCancelled <;> exact fun still => still
        refine ⟨enqueued.orderly, delivering.sound.awaitCommand opens fresh isCancelled, ?_, enqueued.stored,
          enqueued.worker, enqueued.newest, fun still empty => dropped ▸ enqueued.drained (polls still) empty,
          dropped ▸ enqueued.reported, enqueued.queued, ?_⟩
        · intro query member
          simp only [awaited, List.map_append, List.map_cons, List.map_nil, List.mem_append,
            List.mem_singleton] at member
          simp only [next]
          rcases member with before | rfl
          · exact ⟨(delivering.numbered query before).1, Nat.lt_succ_of_lt (delivering.numbered query before).2⟩
          · exact ⟨positive, Nat.lt_succ_self _⟩
        · intro query type pending event member answers
          rw [dropped]
          by_cases own : query = system.engine.runtime.nextRequestId
          · -- the request is new, so no event is about it yet
            have old := delivering.stored event ((submitted_engine system.engine command).1 ▸ member)
            rw [answers.1, own] at old
            exact absurd old (Nat.lt_irrefl _)
          · have before : system.actor.pendingCommands.lookup query = some type := by
              cases isCancelled with
              | true => exact pending
              | false =>
                  simp only [EngineActor.awaitCommand, Bool.false_eq_true, if_false] at pending
                  rwa [AList.lookup_insert_ne own] at pending
            exact enqueued.unanswered query type before event member answers
      · exact enqueued
  · exact delivering

theorem poll (delivering : system.Delivering) (validUrl : Bool) : (system.poll validUrl).Delivering := by
  unfold System.poll
  split
  · rename_i polling
    cases queue : system.engine.runtime.events with
    | nil => exact delivering
    | cons nativeEvent rest =>
        simp only
        have orderly := delivering.orderly.poll
        have taken : system.engine.poll.runtime = { system.engine.runtime with events := rest } := by
          simp only [Engine.poll, EngineRuntime.pollEvent, queue]
        have stored : system.engine.poll.stored = system.engine.stored := rfl
        have newest : ∀ event ∈ rest.getLast?, event.droppedEvents = system.engine.runtime.droppedEvents := by
          intro event last
          refine delivering.newest event ?_
          cases rest with
          | nil => simp at last
          | cons other others => rwa [queue, List.getLast?_cons_cons]
        have queued : ∀ event ∈ rest, event.droppedEvents ≤ system.engine.runtime.droppedEvents :=
          fun event member => delivering.queued event (queue ▸ List.mem_cons_of_mem _ member)
        have first : nativeEvent.droppedEvents ≤ system.engine.runtime.droppedEvents :=
          delivering.queued nativeEvent (queue ▸ List.mem_cons_self)
        cases made : makeEvent nativeEvent validUrl with
        | error error =>
            refine ⟨orderly, delivering.sound.failPolling error, ?_, ?_, ?_, ?_, ?_, ?_, ?_, ?_⟩
            · rw [taken]
              exact delivering.numbered
            · rw [taken]
              exact delivering.stored
            · rw [taken]
              exact delivering.worker
            · rw [taken]
              exact newest
            · exact fun still => absurd still.2 (by simp [EngineActor.failPolling, EngineActor.failPending])
            · rw [taken]
              exact delivering.reported
            · rw [taken]
              exact queued
            · exact fun query type pending => absurd pending (by
                simp [EngineActor.failPolling, EngineActor.failPending])
        | ok event =>
            obtain ⟨id, count, type⟩ := makeEvent_ok made
            have sound : (system.actor.process event).Sound := (delivering.sound.noticeDropped event).answer event
            obtain ⟨awaited, last, opened, failure⟩ := (system.actor.noticeDropped event).answer_kept event
            have noticed : (system.actor.noticeDropped event).awaited = system.actor.awaited ∧
                (system.actor.noticeDropped event).opened = system.actor.opened ∧
                (system.actor.noticeDropped event).pollingFailure = system.actor.pollingFailure ∧
                (system.actor.noticeDropped event).lastDroppedEvents =
                  max system.actor.lastDroppedEvents nativeEvent.droppedEvents ∧
                ((system.actor.noticeDropped event).pendingCommands = ∅ ∨
                  nativeEvent.droppedEvents ≤ system.actor.lastDroppedEvents ∧
                  (system.actor.noticeDropped event).pendingCommands = system.actor.pendingCommands) := by
              unfold EngineActor.noticeDropped
              rw [count]
              split
              · rename_i more
                exact ⟨rfl, rfl, rfl, (max_eq_right (Nat.le_of_lt more)).symm, .inl rfl⟩
              · rename_i more
                exact ⟨rfl, rfl, rfl, (max_eq_left (Nat.le_of_not_lt more)).symm, .inr ⟨Nat.le_of_not_lt more, rfl⟩⟩
            obtain ⟨asked, stillOpen, healthy, dropped, pendings⟩ := noticed
            refine ⟨orderly, sound, ?_, ?_, ?_, ?_, ?_, ?_, ?_, ?_⟩
            · rw [taken]
              exact awaited.trans asked ▸ delivering.numbered
            · rw [taken]
              exact delivering.stored
            · rw [taken]
              exact delivering.worker
            · rw [taken]
              exact newest
            · rw [taken]
              intro _ empty
              obtain rfl : rest = [] := empty
              have newestCount : nativeEvent.droppedEvents = system.engine.runtime.droppedEvents :=
                delivering.newest nativeEvent (by rw [queue]; rfl)
              show system.engine.runtime.droppedEvents ≤ (system.actor.process event).lastDroppedEvents
              rw [EngineActor.process, last, dropped]
              omega
            · rw [taken]
              show (system.actor.process event).lastDroppedEvents ≤ system.engine.runtime.droppedEvents
              rw [EngineActor.process, last, dropped]
              exact max_le delivering.reported first
            · rw [taken]
              exact queued
            · rw [taken]
              intro query expectedType pending other member answers
              obtain ⟨still, unended⟩ := EngineActor.answer_pending pending
              rcases pendings with none | ⟨unreported, same⟩
              · simp [none] at still
              · rw [same] at still
                show other ∈ rest ∨ (system.actor.process event).lastDroppedEvents <
                  system.engine.runtime.droppedEvents
                rw [EngineActor.process, last, dropped, max_eq_left unreported]
                rcases delivering.unanswered query expectedType still other member answers with here | lost
                · rw [queue] at here
                  rcases List.mem_cons.mp here with rfl | later
                  · -- the event that ends a command leaves it pending no longer
                    have known := delivering.numbered query
                      (List.mem_map_of_mem (delivering.sound.expects query expectedType still))
                    obtain ⟨notError, unexpected⟩ := unended (Nat.ne_of_gt known.1) (id.trans answers.1)
                    rcases answers.2 with error | expected
                    · rw [error] at type
                      exact absurd (Option.some.inj type).symm notError
                    · exact absurd (Option.some.inj (type.symm.trans expected)) unexpected
                  · exact .inl later
                · exact .inr lost
  · exact delivering

theorem perform (delivering : system.Delivering) {action : SystemAction} (possible : system.Possible action) :
    (system.perform action).Delivering := by
  have sound := delivering.sound
  cases action with
  | submit submission isCancelled => exact delivering.submit submission isCancelled
  | cancel requestID => exact delivering.actor (sound.onCancel possible) rfl rfl id fun _ _ pending => pending
  | cancelPending requestID =>
      have resumes : (system.actor.cancelPending requestID).awaited = system.actor.awaited ∧
          (system.actor.cancelPending requestID).lastDroppedEvents = system.actor.lastDroppedEvents ∧
          ((system.actor.cancelPending requestID).Polls → system.actor.Polls) ∧
          ∀ query type, (system.actor.cancelPending requestID).pendingCommands.lookup query = some type →
            system.actor.pendingCommands.lookup query = some type := by
        unfold EngineActor.cancelPending
        simp only
        split
        · exact ⟨rfl, rfl, id, fun _ _ pending => pending⟩
        · refine ⟨rfl, rfl, id, fun query type pending => ?_⟩
          simp only [EngineActor.resume, AList.lookup_erase_ite] at pending
          split at pending
          · simp at pending
          · exact pending
      exact delivering.actor (sound.cancelPending requestID) resumes.1 resumes.2.1 resumes.2.2.1 resumes.2.2.2
  | poll validUrl => exact delivering.poll validUrl
  | pollFails error =>
      simp only [System.perform]
      split
      · refine delivering.actor (sound.failPolling error) rfl rfl ?_ ?_
        · exact fun still => absurd still.2 (by simp [EngineActor.failPolling, EngineActor.failPending])
        · exact fun query type pending => absurd pending (by
            simp [EngineActor.failPolling, EngineActor.failPending])
      · exact delivering
  | shutdown =>
      refine delivering.actor sound.shutdown rfl rfl ?_ ?_
      · exact fun still => absurd still.1 (by simp [EngineActor.shutdown])
      · exact fun query type pending => absurd pending (by
          simp [EngineActor.shutdown, EngineActor.failPending])
  | destroy =>
      exact ⟨delivering.orderly.perform .destroy, sound, delivering.numbered, delivering.stored, delivering.worker,
        delivering.newest, delivering.drained, delivering.reported, delivering.queued, delivering.unanswered⟩
  | wake =>
      exact ⟨delivering.orderly.perform .wake, sound, delivering.numbered, delivering.stored, delivering.worker,
        delivering.newest, delivering.drained, delivering.reported, delivering.queued, delivering.unanswered⟩
  | work answers => exact delivering.work possible.2

end Delivering

theorem Reachable.delivering (reached : system.Reachable) : system.Delivering := by
  refine Transition.Reachable.invariant ?_ ?_ reached
  · exact fun _ initial => delivering_initial initial
  · exact fun _ _ delivering possible => delivering.perform possible

/-- In every run each continuation is pending or resumed, never both and never twice; it is resumed with an
event only if that is the event it waits for; a closed or failed actor has none pending, and a cancelled
caller is resumed at the latest by its own task. -/
theorem continuations_resumed (reached : system.Reachable) :
    (system.actor.awaited.map Prod.fst).Nodup ∧
      (system.actor.pendingCommands.keys ++ system.actor.resumed.map Prod.fst).Perm
        (system.actor.awaited.map Prod.fst) ∧
      (∀ requestID event, (requestID, .returning event) ∈ system.actor.resumed →
        event.requestID = requestID ∧ (requestID, event.type) ∈ system.actor.awaited) ∧
      (system.actor.opened = false ∨ system.actor.pollingFailure.isSome = true →
        system.actor.pendingCommands = ∅) ∧
      ∀ requestID ∈ system.actor.cancelled,
        requestID ∈ system.actor.cancelTasks ∨ requestID ∈ system.actor.resumed.map Prod.fst := by
  have sound := reached.delivering.sound
  refine ⟨sound.once, sound.kept, sound.returned, sound.closed, fun requestID member => ?_⟩
  obtain ⟨known, due⟩ := sound.cancels requestID member
  refine due.imp_right fun absent => ?_
  rcases List.mem_append.mp (sound.kept.mem_iff.mpr known) with pending | resumed
  · exact absurd pending (AList.lookup_eq_none.mp absent)
  · exact resumed

/-- Whatever the bounded queue of the engine loses: once the actor has polled all events, every command that
is still pending is one that the engine has not answered yet. -/
theorem pending_unanswered (reached : system.Reachable) (polls : system.actor.Polls)
    (drained : system.engine.runtime.events = []) {requestID : Nat} {expectedType : NuvioEventType}
    (pending : system.actor.pendingCommands.lookup requestID = some expectedType) :
    ∀ event ∈ system.engine.stored, ¬ Answers event requestID expectedType := by
  have delivering := reached.delivering
  intro event member answers
  rcases delivering.unanswered requestID expectedType pending event member answers with here | lost
  · simp [drained] at here
  · exact absurd (delivering.drained polls drained) (Nat.not_le.mpr lost)

def stopped (requestId : Nat) : BackendEvent := { type := .streamStopped, requestId := requestId, torrentId := "" }

/-- The second answer pushes the first one out of the queue, and reports the loss to both callers. A third
command is submitted, and cancelled. -/
def lossyRun : List SystemAction := [
  .submit (.stopStream "a") false, .submit (.stopStream "b") false,
  .work {}, .work {}, .work { popEvents := .ok [stopped 1, stopped 2] }, .work {}, .work {}, .work {}, .work {},
  .work {}, .work {}, .work {}, .poll true, .submit (.stopStream "c") false, .cancel 3]

def lossyStart : System := { engine := Engine.create true 4 1 }

theorem lossyRun_reachable : (lossyRun.foldl perform lossyStart).Reachable :=
  Transition.Reachable.run (.start ⟨true, 4, 1, rfl⟩) (by decide +kernel)

theorem continuations_resumed_lossy :
    let system := lossyRun.foldl perform lossyStart
    (system.actor.pendingCommands.keys ++ system.actor.resumed.map Prod.fst).Perm
      (system.actor.awaited.map Prod.fst) ∧ system.actor.pendingCommands.keys = [3] :=
  ⟨(continuations_resumed lossyRun_reachable).2.1, by decide +kernel⟩

theorem pending_unanswered_lossy :
    (lossyRun.foldl perform lossyStart).engine.stored.filter (Answers · 3 .streamStopped) = [] := by
  have waiting : (lossyRun.foldl perform lossyStart).actor.pendingCommands.lookup 3 = some .streamStopped := by
    decide +kernel
  have unanswered := pending_unanswered lossyRun_reachable ⟨by decide +kernel, by decide +kernel⟩
    (List.isEmpty_iff.mp (by decide +kernel)) waiting
  exact List.filter_eq_nil_iff.mpr fun event member answers =>
    unanswered event member (of_decide_eq_true answers)

end System

end NuvioEngine.Apple
