import NuvioEngine.Core.RuntimeCore

/-!
The event queue: sequence numbers, the events that were polled, queued and dropped, and the files
that `push_event` keeps beside the queue.
-/

namespace NuvioEngine.Core

open NuvioEngine.Backend NuvioEngine.Bridge BridgeState

/-- The event that the worker numbered and has not stored yet. -/
def Worker.underway : Worker → List EngineEvent
  | .storing event _ _ => [event]
  | _ => []

theorem Worker.publish_underway (caller : Caller) (events : List BackendEvent) :
    (Worker.publish caller events).underway = [] := by
  cases events <;> cases caller <;> rfl

/-- The latest metadata that was pushed for a torrent after its latest removal has these files. -/
def FilesOf (pushed : List BackendEvent) (id : String) (files : List TorrentFileInfo) : Prop :=
  ∃ before event after, pushed = before ++ event :: after ∧ event.type = .metadataReady ∧
    event.torrentId = id ∧ event.files = files ∧
    ∀ later ∈ after, later.torrentId = id → later.type ≠ .metadataReady ∧ later.type ≠ .torrentRemoved

theorem filesOf_nil (id : String) (files : List TorrentFileInfo) : ¬ FilesOf [] id files := by
  rintro ⟨before, event, after, split, _⟩
  simp at split

theorem filesOf_concat (pushed : List BackendEvent) (event : BackendEvent) (id : String)
    (files : List TorrentFileInfo) :
    FilesOf (pushed ++ [event]) id files ↔
      if event.torrentId = id ∧ event.type = .metadataReady then event.files = files
      else if event.torrentId = id ∧ event.type = .torrentRemoved then False
      else FilesOf pushed id files := by
  constructor
  · rintro ⟨before, found, after, split, kind, mine, same, last⟩
    rcases List.eq_nil_or_concat after with rfl | ⟨earlier, newest, rfl⟩
    · obtain rfl := List.singleton_inj.mp (List.append_inj' split rfl).2
      rw [if_pos ⟨mine, kind⟩]
      exact same
    · have whole : pushed ++ [event] = (before ++ found :: earlier) ++ [newest] := by
        simpa using split
      obtain ⟨rfl, newer⟩ := List.append_inj' whole rfl
      obtain rfl := List.singleton_inj.mp newer
      have quiet := last event (by simp)
      rw [if_neg fun both => (quiet both.1).1 both.2, if_neg fun both => (quiet both.1).2 both.2]
      exact ⟨before, found, earlier, rfl, kind, mine, same, fun later member =>
        last later (by simp [member])⟩
  · intro holds
    split_ifs at holds with metadata removal
    · exact ⟨pushed, event, [], rfl, metadata.2, metadata.1, holds, by simp⟩
    · obtain ⟨before, found, after, rfl, kind, mine, same, last⟩ := holds
      refine ⟨before, found, after ++ [event], by simp, kind, mine, same, fun later member own => ?_⟩
      rcases List.mem_append.mp member with old | new
      · exact last later old own
      · obtain rfl := List.mem_singleton.mp new
        exact ⟨fun kind => metadata ⟨own, kind⟩, fun kind => removal ⟨own, kind⟩⟩

namespace EngineRuntime

theorem fileEvent_files (runtime : EngineRuntime) (event : BackendEvent) (id : String)
    (files : List TorrentFileInfo) :
    (runtime.fileEvent event).files.lookup id = some files ↔
      if event.torrentId = id ∧ event.type = .metadataReady then event.files = files
      else if event.torrentId = id ∧ event.type = .torrentRemoved then False
      else runtime.files.lookup id = some files := by
  unfold fileEvent
  split
  · rename_i kind
    simp only [kind, and_true, reduceCtorEq, and_false, if_false, AList.lookup_insert_ite,
      @eq_comm _ id]
    split <;> simp
  · rename_i kind
    simp only [kind, and_true, reduceCtorEq, and_false, if_false, AList.lookup_erase_ite,
      @eq_comm _ id]
    split <;> simp
  · rename_i notMetadata notRemoval
    rw [if_neg fun both => notMetadata both.2, if_neg fun both => notRemoval both.2]

/-- The worker is in `push_event`. -/
def Pushing (runtime : EngineRuntime) : Prop :=
  match runtime.worker with
  | .filing .. | .stamping .. | .storing .. => True
  | _ => False

theorem work_quiet (runtime : EngineRuntime) (answers : BackendAnswers) (quiet : ¬ runtime.Pushing) :
    (runtime.work answers).events = runtime.events ∧
      (runtime.work answers).files = runtime.files ∧
      (runtime.work answers).nextSequence = runtime.nextSequence ∧
      (runtime.work answers).droppedEvents = runtime.droppedEvents ∧
      (runtime.work answers).eventCapacity = runtime.eventCapacity ∧
      (runtime.work answers).worker.underway = [] ∧ runtime.worker.underway = [] := by
  unfold Pushing at quiet
  cases place : runtime.worker with
  | waiting =>
      simp only [work, place, takeCommand]
      split
      · exact ⟨rfl, rfl, rfl, rfl, rfl, rfl, rfl⟩
      · refine ⟨rfl, rfl, rfl, rfl, rfl, ?_, rfl⟩
        simp only
        split <;> rfl
  | processing command =>
      simp only [work, place]
      exact ⟨trivial, trivial, trivial, trivial, trivial, Worker.publish_underway _ _, rfl⟩
  | collecting =>
      simp only [work, place]
      split
      · exact ⟨rfl, rfl, rfl, rfl, rfl, rfl, rfl⟩
      · unfold takeEvents
        split <;> exact ⟨rfl, rfl, rfl, rfl, rfl, rfl, rfl⟩
  | refreshing events =>
      simp only [work, place]
      split
      · exact ⟨rfl, rfl, rfl, rfl, rfl, rfl, rfl⟩
      · exact ⟨rfl, rfl, rfl, rfl, rfl, Worker.publish_underway _ _, rfl⟩
  | filing event rest caller => simp [place] at quiet
  | stamping event rest caller => simp [place] at quiet
  | storing event rest caller => simp [place] at quiet
  | shuttingDown => simp [work, place, Worker.underway]
  | stopped => simp [work, place, Worker.underway]

theorem storeEvent_events (runtime : EngineRuntime) (event : EngineEvent)
    (capacity : 1 ≤ runtime.eventCapacity) (bounded : runtime.events.length ≤ runtime.eventCapacity) :
    ∃ oldest, runtime.events = oldest ++ (runtime.storeEvent event).events.dropLast ∧
      (runtime.storeEvent event).events = (runtime.storeEvent event).events.dropLast ++
        [{ event with droppedEvents := (runtime.storeEvent event).droppedEvents }] ∧
      (runtime.storeEvent event).droppedEvents = runtime.droppedEvents + oldest.length ∧
      (runtime.storeEvent event).events.length ≤ runtime.eventCapacity := by
  unfold storeEvent
  by_cases full : runtime.events.length ≥ runtime.eventCapacity
  · cases queue : runtime.events with
    | nil => simp [queue] at full; omega
    | cons first rest =>
        rw [queue] at full bounded
        refine ⟨[first], ?_⟩
        simp only [full, if_true, List.tail_cons, List.dropLast_concat]
        simp_all
  · refine ⟨[], ?_⟩
    simp only [full, if_false, List.dropLast_concat]
    simp
    omega

end EngineRuntime

namespace Engine

/-- Events are numbered as they are stored. The queue is the last part of what was stored, and the
part before it was polled or dropped. -/
structure Counted (engine : Engine) : Prop where
  numbered : (engine.stored ++ engine.runtime.worker.underway).map EngineEvent.sequence =
    List.range' 1 (engine.stored.length + engine.runtime.worker.underway.length)
  next : engine.runtime.nextSequence =
    engine.stored.length + engine.runtime.worker.underway.length + 1
  queued : ∃ gone, engine.stored = gone ++ engine.runtime.events ∧ engine.polled.Sublist gone ∧
    gone.length = engine.polled.length + engine.runtime.droppedEvents
  bounded : engine.runtime.events.length ≤ engine.runtime.eventCapacity
  filed : ∀ id files, engine.runtime.files.lookup id = some files ↔
    FilesOf (engine.pushed.map Prod.snd) id files

theorem Counted.create (hasBackend : Bool) (commandCapacity eventCapacity : Nat) :
    (create hasBackend commandCapacity eventCapacity).Counted :=
  ⟨rfl, rfl, ⟨[], rfl, List.Sublist.refl _, rfl⟩, Nat.zero_le _, fun id files =>
    ⟨fun found => by simp [Engine.create] at found, fun pushed => (filesOf_nil id files pushed).elim⟩⟩

namespace Counted

variable {engine : Engine}

theorem congr (counted : engine.Counted) {other : Engine}
    (same : other.stored = engine.stored ∧ other.polled = engine.polled ∧ other.pushed = engine.pushed)
    (underway : other.runtime.worker.underway = engine.runtime.worker.underway)
    (events : other.runtime.events = engine.runtime.events)
    (files : other.runtime.files = engine.runtime.files)
    (next : other.runtime.nextSequence = engine.runtime.nextSequence)
    (dropped : other.runtime.droppedEvents = engine.runtime.droppedEvents)
    (capacity : other.runtime.eventCapacity = engine.runtime.eventCapacity) : other.Counted where
  numbered := by rw [same.1, underway, counted.numbered]
  next := by rw [next, same.1, underway, counted.next]
  queued := by rw [same.1, same.2.1, events, dropped]; exact counted.queued
  bounded := by rw [events, capacity]; exact counted.bounded
  filed := by rw [files, same.2.2]; exact counted.filed

theorem call (counted : engine.Counted) (thread : Nat) (command : Command) :
    (engine.call thread command).Counted :=
  counted.congr ⟨rfl, rfl, rfl⟩ rfl rfl rfl rfl rfl rfl

theorem enqueue (counted : engine.Counted) (thread : Nat) : (engine.enqueue thread).Counted := by
  unfold Engine.enqueue EngineRuntime.enqueue
  split
  · exact counted
  · split_ifs <;> exact counted.congr ⟨rfl, rfl, rfl⟩ rfl rfl rfl rfl rfl rfl

theorem poll (counted : engine.Counted) : engine.poll.Counted := by
  unfold Engine.poll EngineRuntime.pollEvent
  cases queue : engine.runtime.events with
  | nil =>
      simp only [Option.toList_none, List.append_nil]
      exact counted.congr ⟨rfl, rfl, rfl⟩ rfl rfl rfl rfl rfl rfl
  | cons event rest =>
      obtain ⟨gone, stored, polled, count⟩ := counted.queued
      have bounded := counted.bounded
      rw [queue, List.length_cons] at bounded
      refine ⟨counted.numbered, counted.next, ⟨gone ++ [event], ?_, ?_, ?_⟩,
        Nat.le_of_succ_le bounded, counted.filed⟩
      · rw [stored, queue, List.append_assoc]
        rfl
      · exact polled.append (List.Sublist.refl _)
      · simp only [Option.toList_some, List.length_append, List.length_singleton]
        omega

theorem file (counted : engine.Counted) {event : BackendEvent} {rest : List BackendEvent} {caller : Caller}
    (place : engine.runtime.worker = .filing event rest caller) (answers : BackendAnswers) :
    (engine.work answers).Counted := by
  have numbered := counted.numbered
  have next := counted.next
  rw [place] at numbered next
  have unchanged : (engine.runtime.fileEvent event).events = engine.runtime.events ∧
      (engine.runtime.fileEvent event).nextSequence = engine.runtime.nextSequence ∧
      (engine.runtime.fileEvent event).droppedEvents = engine.runtime.droppedEvents ∧
      (engine.runtime.fileEvent event).eventCapacity = engine.runtime.eventCapacity := by
    unfold EngineRuntime.fileEvent
    split <;> exact ⟨rfl, rfl, rfl, rfl⟩
  obtain ⟨events, sequence, dropped, capacity⟩ := unchanged
  simp only [Engine.work, EngineRuntime.work, place]
  refine ⟨numbered, sequence.trans next, ?_, ?_, fun id files => ?_⟩
  · simp only [events, dropped]
    exact counted.queued
  · simp only [events, capacity]
    exact counted.bounded
  · simp only [List.map_append, List.map_cons, List.map_nil]
    rw [filesOf_concat, EngineRuntime.fileEvent_files, counted.filed]

theorem stamp (counted : engine.Counted) {event : BackendEvent} {rest : List BackendEvent}
    {caller : Caller} (place : engine.runtime.worker = .stamping event rest caller)
    (answers : BackendAnswers) : (engine.work answers).Counted := by
  have numbered := counted.numbered
  have next := counted.next
  rw [place] at numbered next
  simp only [Worker.underway, List.append_nil, List.length_nil, Nat.add_zero] at numbered next
  simp only [Engine.work, EngineRuntime.work, place]
  refine ⟨?_, ?_, counted.queued, counted.bounded, counted.filed⟩
  · simp only [Worker.underway, List.map_append, List.map_cons, List.map_nil, List.length_singleton]
    rw [numbered, List.range'_concat, Nat.one_mul, EngineRuntime.stampEvent, next, Nat.add_comm 1]
  · simp only [Worker.underway, List.length_singleton]
    rw [next]

theorem store (counted : engine.Counted) (capacity : 1 ≤ engine.runtime.eventCapacity)
    {event : EngineEvent} {rest : List BackendEvent} {caller : Caller}
    (place : engine.runtime.worker = .storing event rest caller) (answers : BackendAnswers) :
    (engine.work answers).Counted := by
  have numbered := counted.numbered
  have next := counted.next
  rw [place] at numbered next
  simp only [Worker.underway, List.length_singleton] at numbered next
  obtain ⟨gone, stored, polled, count⟩ := counted.queued
  obtain ⟨oldest, before, after, dropped, bounded⟩ :=
    engine.runtime.storeEvent_events event capacity counted.bounded
  simp only [Engine.work, EngineRuntime.work, place]
  refine ⟨?_, ?_, ⟨gone ++ oldest, ?_, ?_, ?_⟩, bounded, counted.filed⟩
  · simpa [Worker.publish_underway] using numbered
  · simpa [Worker.publish_underway, EngineRuntime.storeEvent] using next
  · rw [stored, before, after]
    simp
  · exact polled.trans (List.sublist_append_left _ _)
  · simp only [dropped, List.length_append]
    omega

theorem work (counted : engine.Counted) (capacity : 1 ≤ engine.runtime.eventCapacity)
    (answers : BackendAnswers) : (engine.work answers).Counted := by
  by_cases quiet : engine.runtime.Pushing
  · unfold EngineRuntime.Pushing at quiet
    split at quiet
    · rename_i place
      exact counted.file place answers
    · rename_i place
      exact counted.stamp place answers
    · rename_i place
      exact counted.store capacity place answers
    · exact quiet.elim
  · obtain ⟨events, files, next, dropped, same, after, before⟩ := engine.runtime.work_quiet answers quiet
    unfold EngineRuntime.Pushing at quiet
    have kept : (engine.work answers).stored = engine.stored ∧
        (engine.work answers).polled = engine.polled ∧ (engine.work answers).pushed = engine.pushed := by
      unfold Engine.work
      split <;> rename_i place <;> simp [place] at quiet ⊢
    refine counted.congr kept ?_ ?_ ?_ ?_ ?_ ?_
    · rw [work_runtime, after, before]
    · rw [work_runtime, events]
    · rw [work_runtime, files]
    · rw [work_runtime, next]
    · rw [work_runtime, dropped]
    · rw [work_runtime, same]

theorem perform (counted : engine.Counted) (capacity : 1 ≤ engine.runtime.eventCapacity)
    (action : EngineAction) : (engine.perform action).Counted := by
  cases action with
  | addTorrent thread input => exact counted.call thread _
  | prepareStream thread torrentId requestedIndex filenameHint =>
      simp only [Engine.perform]
      split
      · exact counted
      · exact counted.call thread _
  | removeTorrent thread torrentId => exact counted.call thread _
  | stopStream thread streamId => exact counted.call thread _
  | reclaimDiskCache thread targetBytes => exact counted.call thread _
  | enqueue thread => exact counted.enqueue thread
  | pollEvent => exact counted.poll
  | wake => exact counted.congr ⟨rfl, rfl, rfl⟩ rfl rfl rfl rfl rfl rfl
  | destroy => exact counted.congr ⟨rfl, rfl, rfl⟩ rfl rfl rfl rfl rfl rfl
  | work answers => exact counted.work capacity answers

end Counted

theorem perform_eventCapacity (engine : Engine) (action : EngineAction) :
    (engine.perform action).runtime.eventCapacity = engine.runtime.eventCapacity := by
  cases action with
  | prepareStream thread torrentId requestedIndex filenameHint =>
      simp only [perform]
      split <;> rfl
  | enqueue thread =>
      simp only [perform, enqueue, EngineRuntime.enqueue]
      split
      · rfl
      · split_ifs <;> rfl
  | pollEvent =>
      simp only [perform, poll, EngineRuntime.pollEvent]
      cases engine.runtime.events <;> rfl
  | work answers =>
      rw [perform, work_runtime]
      by_cases quiet : engine.runtime.Pushing
      · unfold EngineRuntime.Pushing at quiet
        split at quiet
        · rename_i place
          simp only [EngineRuntime.work, place, EngineRuntime.fileEvent]
          split <;> rfl
        · rename_i place
          simp only [EngineRuntime.work, place]
        · rename_i place
          simp only [EngineRuntime.work, place, EngineRuntime.storeEvent]
        · exact quiet.elim
      · exact (engine.runtime.work_quiet answers quiet).2.2.2.2.1
  | addTorrent _ _ | removeTorrent _ _ | stopStream _ _ | reclaimDiskCache _ _ | wake | destroy => rfl

theorem Reachable.counted {engine : Engine} (reached : engine.Reachable)
    (capacity : 1 ≤ engine.runtime.eventCapacity) : engine.Counted := by
  have starts : ∀ engine : Engine, engine.Initial → 1 ≤ engine.runtime.eventCapacity → engine.Counted := by
    rintro _ ⟨hasBackend, commandCapacity, eventCapacity, rfl⟩ _
    exact .create hasBackend commandCapacity eventCapacity
  have keeps : ∀ (engine : Engine) (action : EngineAction),
      (1 ≤ engine.runtime.eventCapacity → engine.Counted) → engine.Possible action →
      1 ≤ (engine.perform action).runtime.eventCapacity → (engine.perform action).Counted := by
    intro engine action counted _ positive
    rw [perform_eventCapacity] at positive
    exact (counted positive).perform positive action
  exact Transition.Reachable.invariant starts keeps reached capacity

/-- Events are polled in the order of their numbers; every numbered event was polled, is queued, was
dropped or is just being stored; the queue keeps to its capacity and holds the newest events, numbered
without gaps; and the files of a torrent are those of its latest metadata after its latest removal. -/
theorem reachable_events {engine : Engine} (reached : engine.Reachable)
    (capacity : 1 ≤ engine.runtime.eventCapacity) :
    (engine.polled.map EngineEvent.sequence).Pairwise (· < ·) ∧
    engine.polled.length + engine.runtime.events.length + engine.runtime.droppedEvents +
      engine.runtime.worker.underway.length = engine.runtime.nextSequence - 1 ∧
    engine.runtime.events.length ≤ engine.runtime.eventCapacity ∧
    engine.stored.map EngineEvent.sequence = List.range' 1 engine.stored.length ∧
    (∃ gone, engine.stored = gone ++ engine.runtime.events ∧ engine.polled.Sublist gone ∧
      gone.length = engine.polled.length + engine.runtime.droppedEvents) ∧
    ∀ id files, engine.runtime.files.lookup id = some files ↔
      FilesOf (engine.pushed.map Prod.snd) id files := by
  have counted := Reachable.counted reached capacity
  obtain ⟨gone, stored, polled, count⟩ := counted.queued
  have numbered := counted.numbered
  rw [List.map_append, ← List.range'_append_1] at numbered
  have sequence := (List.append_inj numbered (by simp)).1
  have next := counted.next
  have total := congrArg List.length stored
  rw [List.length_append] at total
  refine ⟨?_, by omega, counted.bounded, sequence, ⟨gone, stored, polled, count⟩, counted.filed⟩
  have increasing : (engine.stored.map EngineEvent.sequence).Pairwise (· < ·) := by
    rw [sequence]
    exact List.pairwise_lt_range'
  refine increasing.sublist ((polled.trans ?_).map _)
  rw [stored]
  exact List.sublist_append_left _ _

/-- An event that comes from the backend when the queue of one event is full. -/
def overflowRun : List EngineAction :=
  [.work {}, .work { popEvents := .ok [
      { type := .metadataReady, requestId := 1, torrentId := "a", files := [⟨"video.mp4", 0, 8⟩] },
      { type := .torrentAdded, requestId := 1, torrentId := "a" }] },
    .work {}, .work {}, .work {}, .work {}, .work {}, .work {}, .work {}, .pollEvent]

theorem reachable_events_overflow :
    (overflowRun.foldl perform (create true 1 1)).polled.map EngineEvent.sequence = [2] ∧
      (overflowRun.foldl perform (create true 1 1)).polled.length +
        (overflowRun.foldl perform (create true 1 1)).runtime.events.length + 1 =
          (overflowRun.foldl perform (create true 1 1)).runtime.nextSequence - 1 ∧
      ∃ files, (overflowRun.foldl perform (create true 1 1)).runtime.files.lookup "a" = some files ∧
        FilesOf ((overflowRun.foldl perform (create true 1 1)).pushed.map Prod.snd) "a" files := by
  have reached : Reachable (overflowRun.foldl perform (create true 1 1)) :=
    (Transition.Reachable.start ⟨true, 1, 1, rfl⟩).run
      ⟨rfl, rfl, rfl, rfl, rfl, rfl, rfl, rfl, rfl, trivial, trivial⟩
  obtain ⟨_, counted, _, _, _, filed⟩ := reachable_events reached (Nat.le_refl 1)
  exact ⟨rfl, counted, _, rfl, (filed "a" [⟨"video.mp4", 0, 8⟩]).mp rfl⟩

end Engine

end NuvioEngine.Core
