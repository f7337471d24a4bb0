import NuvioEngine.Core.Commands
import NuvioEngine.Core.Events
import Mathlib.Data.List.Chain
import Mathlib.Data.List.Induction

/-!
What a client learns about lost events. The counter of dropped events is stamped on an event when it
is stored, so it misses what is dropped in front of the event later on. And events that the backend
returned are lost with a failing refresh of the statistics.
-/

namespace NuvioEngine.Core

open NuvioEngine.Backend

/-- A polled event reports the loss since the one before it. -/
def Accounts (polled : List EngineEvent) : Prop :=
  (∀ first ∈ polled.head?, (first.sequence : Int) - 1 ≤ first.droppedEvents) ∧
    polled.IsChain fun event next =>
      (next.sequence : Int) - event.sequence - 1 ≤ next.droppedEvents - event.droppedEvents

/-- A polled event reports every loss before it, and no event reports more. -/
def Exact (polled : List EngineEvent) : Prop :=
  ∀ index event, polled[index]? = some event → event.sequence = event.droppedEvents + index + 1

def Within (polled : List EngineEvent) : Prop :=
  ∀ index event, polled[index]? = some event → event.droppedEvents + index + 1 ≤ event.sequence

theorem getElem?_concat_iff {polled : List EngineEvent} {newest event : EngineEvent} {index : Nat} :
    (polled ++ [newest])[index]? = some event ↔
      polled[index]? = some event ∨ (index = polled.length ∧ newest = event) := by
  rcases Nat.lt_trichotomy index polled.length with below | same | above
  · rw [List.getElem?_append_left below]
    simp [Nat.ne_of_lt below]
  · simp [same]
  · rw [List.getElem?_eq_none (by simp; omega), List.getElem?_eq_none (by omega)]
    simp [Nat.ne_of_gt above]

theorem exact_concat {polled : List EngineEvent} {newest : EngineEvent} :
    Exact (polled ++ [newest]) ↔
      Exact polled ∧ newest.sequence = newest.droppedEvents + polled.length + 1 := by
  constructor
  · intro exact
    exact ⟨fun index event found => exact index event (getElem?_concat_iff.mpr (.inl found)),
      exact polled.length newest (getElem?_concat_iff.mpr (.inr ⟨rfl, rfl⟩))⟩
  · rintro ⟨exact, last⟩ index event found
    rcases getElem?_concat_iff.mp found with old | ⟨rfl, rfl⟩
    · exact exact index event old
    · exact last

theorem within_concat {polled : List EngineEvent} {newest : EngineEvent} :
    Within (polled ++ [newest]) ↔
      Within polled ∧ newest.droppedEvents + polled.length + 1 ≤ newest.sequence := by
  constructor
  · intro within
    exact ⟨fun index event found => within index event (getElem?_concat_iff.mpr (.inl found)),
      within polled.length newest (getElem?_concat_iff.mpr (.inr ⟨rfl, rfl⟩))⟩
  · rintro ⟨within, last⟩ index event found
    rcases getElem?_concat_iff.mp found with old | ⟨rfl, rfl⟩
    · exact within index event old
    · exact last

theorem accounts_concat {polled : List EngineEvent} {newest : EngineEvent} (exact : Exact polled)
    (within : newest.droppedEvents + polled.length + 1 ≤ newest.sequence) :
    Accounts (polled ++ [newest]) ↔
      Accounts polled ∧ newest.sequence = newest.droppedEvents + polled.length + 1 := by
  rcases List.eq_nil_or_concat' polled with rfl | ⟨front, last, rfl⟩
  · simp only [Accounts, List.nil_append, List.head?_cons, List.head?_nil, List.length_nil] at within ⊢
    simp
    omega
  · have reported := (exact_concat.mp exact).2
    have linked : ((newest.sequence : Int) - last.sequence - 1 ≤ newest.droppedEvents - last.droppedEvents) ↔
        newest.sequence = newest.droppedEvents + (front ++ [last]).length + 1 := by
      simp only [List.length_append, List.length_singleton] at within ⊢
      omega
    have first : (front ++ [last] ++ [newest]).head? = (front ++ [last]).head? := by
      cases front <;> rfl
    simp only [Accounts, first]
    rw [List.isChain_append, ← linked]
    simp [and_assoc]

/-- Reports never exceed the losses, so all of them are exact when each covers the loss since the one
before. -/
theorem accounts_iff_exact {polled : List EngineEvent} (within : Within polled) :
    Accounts polled ↔ Exact polled := by
  induction polled using List.reverseRecOn with
  | nil => simp [Accounts, Exact]
  | append_singleton polled newest ih =>
      obtain ⟨before, last⟩ := within_concat.mp within
      rw [exact_concat, ← ih before]
      constructor
      · intro accounts
        have earlier : Accounts polled := by
          refine ⟨fun first head => accounts.1 first ?_, (List.isChain_append.mp accounts.2).1⟩
          rw [List.head?_append, head]
          rfl
        exact (accounts_concat ((ih before).mp earlier) last).mp accounts
      · rintro ⟨earlier, exact⟩
        exact (accounts_concat ((ih before).mp earlier) last).mpr ⟨earlier, exact⟩

namespace Engine

/-- What an action does to the events that clients see. -/
inductive Delivers (engine : Engine) (action : EngineAction) (next : Engine) : Prop
  | keeps (unpolled : action = .pollEvent → engine.runtime.events = [])
      (events : next.runtime.events = engine.runtime.events) (polled : next.polled = engine.polled)
      (dropped : next.runtime.droppedEvents = engine.runtime.droppedEvents)
  | polls (event : EngineEvent) (rest : List EngineEvent) (poll : action = .pollEvent)
      (queue : engine.runtime.events = event :: rest) (events : next.runtime.events = rest)
      (polled : next.polled = engine.polled ++ [event])
      (dropped : next.runtime.droppedEvents = engine.runtime.droppedEvents)
  | stores (event : EngineEvent) (other : action ≠ .pollEvent)
      (events : next.runtime.events = (engine.runtime.storeEvent event).events)
      (polled : next.polled = engine.polled)
      (dropped : next.runtime.droppedEvents = (engine.runtime.storeEvent event).droppedEvents)

theorem perform_delivers (engine : Engine) (action : EngineAction) :
    Delivers engine action (engine.perform action) := by
  cases action with
  | prepareStream thread torrentId requestedIndex filenameHint =>
      simp only [perform]
      split <;> exact .keeps (by simp) rfl rfl rfl
  | enqueue thread =>
      simp only [perform, enqueue, EngineRuntime.enqueue]
      split
      · exact .keeps (by simp) rfl rfl rfl
      · split_ifs <;> exact .keeps (by simp) rfl rfl rfl
  | pollEvent =>
      simp only [perform, poll, EngineRuntime.pollEvent]
      cases queue : engine.runtime.events with
      | nil => exact .keeps (fun _ => queue) rfl (List.append_nil _) rfl
      | cons event rest => exact .polls event rest rfl queue rfl rfl rfl
  | work answers =>
      have polled : (engine.work answers).polled = engine.polled := by
        unfold work
        split <;> rfl
      by_cases quiet : engine.runtime.Pushing
      · unfold EngineRuntime.Pushing at quiet
        split at quiet
        · rename_i place
          simp only [perform, work, EngineRuntime.work, place, EngineRuntime.fileEvent]
          split <;> exact .keeps (by simp) rfl rfl rfl
        · rename_i place
          simp only [perform, work, EngineRuntime.work, place]
          exact .keeps (by simp) rfl rfl rfl
        · rename_i event _ _ place
          simp only [perform, work, EngineRuntime.work, place]
          exact .stores event (by simp) rfl rfl rfl
        · exact quiet.elim
      · obtain ⟨events, _, _, dropped, _⟩ := engine.runtime.work_quiet answers quiet
        exact .keeps (by simp) ((congrArg _ (work_runtime _ _)).trans events) polled
          ((congrArg _ (work_runtime _ _)).trans dropped)
  | addTorrent _ _ | removeTorrent _ _ | stopStream _ _ | reclaimDiskCache _ _ | wake | destroy =>
      exact .keeps (by simp) rfl rfl rfl

theorem Counted.front {engine : Engine} (counted : engine.Counted) {event : EngineEvent}
    {rest : List EngineEvent} (queue : engine.runtime.events = event :: rest) :
    event.sequence = engine.polled.length + engine.runtime.droppedEvents + 1 := by
  obtain ⟨gone, stored, _, count⟩ := counted.queued
  have numbered := congrArg (·[gone.length]?) counted.numbered
  rw [queue] at stored
  simp only [stored, List.append_assoc, List.map_append, List.map_cons, List.cons_append] at numbered
  rw [List.getElem?_append_right (by simp), List.getElem?_range' (by simp; omega)] at numbered
  simp at numbered
  omega

/-- Queued events report no more than what was dropped, and so do polled ones. -/
structure Reports (engine : Engine) : Prop where
  queued : ∀ event ∈ engine.runtime.events, event.droppedEvents ≤ engine.runtime.droppedEvents
  polled : Within engine.polled

theorem storeEvent_reports {runtime : EngineRuntime} {event stored : EngineEvent}
    (member : stored ∈ (runtime.storeEvent event).events) :
    stored ∈ runtime.events ∨ stored.droppedEvents = (runtime.storeEvent event).droppedEvents := by
  simp only [EngineRuntime.storeEvent] at member ⊢
  rcases List.mem_append.mp member with old | new
  · left
    split at old
    · exact List.mem_of_mem_tail old
    · exact old
  · right
    rw [List.mem_singleton.mp new]

theorem Reports.perform {engine : Engine} (reports : engine.Reports) (counted : engine.Counted)
    (action : EngineAction) : (engine.perform action).Reports := by
  rcases engine.perform_delivers action with ⟨_, events, polled, dropped⟩ |
    ⟨event, rest, _, queue, events, polled, dropped⟩ | ⟨event, _, events, polled, dropped⟩
  · exact ⟨by rw [events, dropped]; exact reports.queued, polled ▸ reports.polled⟩
  · refine ⟨fun other member => ?_, ?_⟩
    · rw [events] at member
      rw [dropped]
      exact reports.queued other (queue ▸ List.mem_cons_of_mem _ member)
    · have bounded := reports.queued event (queue ▸ List.mem_cons_self)
      rw [polled, within_concat, counted.front queue]
      exact ⟨reports.polled, by omega⟩
  · refine ⟨fun other member => ?_, polled ▸ reports.polled⟩
    rw [events] at member
    rw [dropped]
    rcases storeEvent_reports member with old | new
    · refine (reports.queued other old).trans ?_
      simp only [EngineRuntime.storeEvent]
      split <;> omega
    · exact new.le

/-- A client polls an event only while nothing was dropped. -/
def PollsBeforeLoss (engine : Engine) : EngineAction → Prop
  | .pollEvent => engine.runtime.events ≠ [] → engine.runtime.droppedEvents = 0
  | _ => True

/-- In a queue of one event, the event that is there reports everything. -/
structure Single (engine : Engine) : Prop where
  queued : ∀ event ∈ engine.runtime.events, event.droppedEvents = engine.runtime.droppedEvents
  polled : Exact engine.polled

theorem Single.perform {engine : Engine} (single : engine.Single) (counted : engine.Counted)
    (capacity : engine.runtime.eventCapacity = 1) (action : EngineAction) :
    (engine.perform action).Single := by
  rcases engine.perform_delivers action with ⟨_, events, polled, dropped⟩ |
    ⟨event, rest, _, queue, events, polled, dropped⟩ | ⟨event, _, events, polled, dropped⟩
  · exact ⟨by rw [events, dropped]; exact single.queued, polled ▸ single.polled⟩
  · refine ⟨fun other member => ?_, ?_⟩
    · rw [events] at member
      rw [dropped]
      exact single.queued other (queue ▸ List.mem_cons_of_mem _ member)
    · rw [polled, exact_concat, counted.front queue,
        single.queued event (queue ▸ List.mem_cons_self)]
      exact ⟨single.polled, by omega⟩
  · refine ⟨fun other member => ?_, polled ▸ single.polled⟩
    have bounded := counted.bounded
    rw [events] at member
    rw [dropped]
    simp only [EngineRuntime.storeEvent] at member ⊢
    have alone : (if engine.runtime.events.length ≥ engine.runtime.eventCapacity then
        engine.runtime.events.tail else engine.runtime.events) = [] := by
      rw [capacity] at bounded ⊢
      split
      · exact List.eq_nil_of_length_eq_zero (by rw [List.length_tail]; omega)
      · exact List.eq_nil_of_length_eq_zero (by omega)
    rw [alone, List.nil_append] at member
    rw [List.mem_singleton.mp member]

/-- Before the first poll after a loss, a queue that lost events is full, and all events but the last
miss a part of the loss. -/
structure Unread (engine : Engine) : Prop where
  queued : engine.runtime.droppedEvents = 0 ∨
    (engine.runtime.events.length = engine.runtime.eventCapacity ∧
      ∀ event ∈ engine.runtime.events.dropLast, event.droppedEvents < engine.runtime.droppedEvents)
  polled : Exact engine.polled

theorem Unread.perform {engine : Engine} (unread : engine.Unread) (counted : engine.Counted)
    (reports : engine.Reports) (capacity : 1 ≤ engine.runtime.eventCapacity) {action : EngineAction}
    (allowed : PollsBeforeLoss engine action) : (engine.perform action).Unread := by
  have same := perform_eventCapacity engine action
  rcases engine.perform_delivers action with ⟨_, events, polled, dropped⟩ |
    ⟨event, rest, rfl, queue, events, polled, dropped⟩ | ⟨event, _, events, polled, dropped⟩
  · exact ⟨by rw [events, dropped, same]; exact unread.queued, polled ▸ unread.polled⟩
  · have lossless : engine.runtime.droppedEvents = 0 := allowed (by rw [queue]; simp)
    have bounded := reports.queued event (queue ▸ List.mem_cons_self)
    refine ⟨.inl (dropped.trans lossless), ?_⟩
    rw [polled, exact_concat, counted.front queue]
    exact ⟨unread.polled, by omega⟩
  · have bounded := counted.bounded
    refine ⟨?_, polled ▸ unread.polled⟩
    rw [events, dropped, same]
    by_cases full : engine.runtime.events.length ≥ engine.runtime.eventCapacity
    · right
      simp only [EngineRuntime.storeEvent, full, if_true, List.dropLast_concat]
      refine ⟨by simp; omega, fun other member => ?_⟩
      have old := reports.queued other (List.mem_of_mem_tail member)
      omega
    · left
      simp only [EngineRuntime.storeEvent, full, if_false]
      rcases unread.queued with lossless | ⟨filled, _⟩
      · exact lossless
      · omega

theorem perform_polled (engine : Engine) (action : EngineAction) :
    engine.polled <+: (engine.perform action).polled := by
  rcases engine.perform_delivers action with ⟨_, _, polled, _⟩ | ⟨event, _, _, _, _, polled, _⟩ |
    ⟨_, _, _, polled, _⟩
  · exact ⟨[], by rw [polled, List.append_nil]⟩
  · exact ⟨[event], polled.symm⟩
  · exact ⟨[], by rw [polled, List.append_nil]⟩

theorem exact_of_isPrefix {polled more : List EngineEvent} (exact : Exact more) (front : polled <+: more) :
    Exact polled := by
  obtain ⟨rest, rfl⟩ := front
  intro index event found
  refine exact index event ?_
  rw [List.getElem?_append_left (List.getElem?_eq_some_iff.mp found).1, found]

theorem Unread.inexact {engine : Engine} (unread : engine.Unread) (counted : engine.Counted)
    (capacity : 2 ≤ engine.runtime.eventCapacity) {action : EngineAction}
    (late : ¬ PollsBeforeLoss engine action) : ¬ Exact (engine.perform action).polled := by
  cases action with
  | pollEvent =>
      simp only [PollsBeforeLoss, not_forall] at late
      obtain ⟨waiting, lost⟩ := late
      rcases unread.queued with lossless | ⟨full, missed⟩
      · exact absurd lossless lost
      · obtain ⟨event, rest, queue⟩ := List.exists_cons_of_ne_nil waiting
        obtain ⟨second, more, rfl⟩ : ∃ second more, rest = second :: more := by
          refine List.exists_cons_of_ne_nil fun empty => ?_
          rw [queue, empty, List.length_singleton] at full
          omega
        have front := counted.front queue
        have misses := missed event (by rw [queue]; simp)
        simp only [Engine.perform, Engine.poll, EngineRuntime.pollEvent, queue, Option.toList_some]
        intro exact
        have reported := (exact_concat.mp exact).2
        omega
  | _ => exact absurd trivial late

variable {hasBackend : Bool} {commandCapacity eventCapacity : Nat}

theorem run_reachable {actions : List EngineAction}
    (runs : Transition.Runs Possible perform (create hasBackend commandCapacity eventCapacity) actions) :
    Reachable (actions.foldl perform (create hasBackend commandCapacity eventCapacity)) :=
  (Transition.Reachable.start ⟨_, _, _, rfl⟩).run runs

theorem run_capacity (actions : List EngineAction) (engine : Engine) :
    (actions.foldl perform engine).runtime.eventCapacity = engine.runtime.eventCapacity := by
  induction actions generalizing engine with
  | nil => rfl
  | cons action rest ih => rw [List.foldl_cons, ih, perform_eventCapacity]

theorem run_reports (positive : 1 ≤ eventCapacity) {actions : List EngineAction}
    (runs : Transition.Runs Possible perform (create hasBackend commandCapacity eventCapacity) actions) :
    (actions.foldl perform (create hasBackend commandCapacity eventCapacity)).Counted ∧
      (actions.foldl perform (create hasBackend commandCapacity eventCapacity)).Reports ∧
      (eventCapacity = 1 →
        (actions.foldl perform (create hasBackend commandCapacity eventCapacity)).Single) := by
  refine ⟨(run_reachable runs).counted (by rw [run_capacity]; exact positive), ?_⟩
  induction actions using List.reverseRecOn with
  | nil => exact ⟨⟨nofun, fun _ _ found => by simp [create] at found⟩, fun _ =>
      ⟨nofun, fun _ _ found => by simp [create] at found⟩⟩
  | append_singleton before action ih =>
      obtain ⟨reports, single⟩ := ih (Transition.runs_concat.mp runs).1
      have counted := (run_reachable (Transition.runs_concat.mp runs).1).counted
        (by rw [run_capacity]; exact positive)
      rw [List.foldl_concat]
      exact ⟨reports.perform counted action, fun one =>
        (single one).perform counted (by rw [run_capacity]; exact one) action⟩

theorem run_unread (positive : 1 ≤ eventCapacity) {actions : List EngineAction}
    (runs : Transition.Runs Possible perform (create hasBackend commandCapacity eventCapacity) actions)
    (allowed : Transition.Runs PollsBeforeLoss perform
      (create hasBackend commandCapacity eventCapacity) actions) :
    (actions.foldl perform (create hasBackend commandCapacity eventCapacity)).Unread := by
  induction actions using List.reverseRecOn with
  | nil => exact ⟨.inl rfl, fun _ _ found => by simp [create] at found⟩
  | append_singleton before action ih =>
      rw [Transition.runs_concat] at runs allowed
      obtain ⟨counted, reports, _⟩ := run_reports positive runs.1
      rw [List.foldl_concat]
      exact (ih runs.1 allowed.1).perform counted reports (by rw [run_capacity]; exact positive) allowed.2

theorem run_inexact (large : 2 ≤ eventCapacity) {actions : List EngineAction}
    (runs : Transition.Runs Possible perform (create hasBackend commandCapacity eventCapacity) actions)
    (late : ¬ Transition.Runs PollsBeforeLoss perform
      (create hasBackend commandCapacity eventCapacity) actions) :
    ¬ Exact (actions.foldl perform (create hasBackend commandCapacity eventCapacity)).polled := by
  have positive : 1 ≤ eventCapacity := by omega
  induction actions using List.reverseRecOn with
  | nil => exact absurd trivial late
  | append_singleton before action ih =>
      rw [Transition.runs_concat] at runs late
      rw [List.foldl_concat]
      by_cases allowed : Transition.Runs PollsBeforeLoss perform
          (create hasBackend commandCapacity eventCapacity) before
      · obtain ⟨counted, _⟩ := run_reports positive runs.1
        exact (run_unread positive runs.1 allowed).inexact counted (by rw [run_capacity]; exact large)
          fun timely => late ⟨allowed, timely⟩
      · exact fun exact => ih runs.1 allowed (exact_of_isPrefix exact (perform_polled _ action))

/-- Polled events report the losses between them exactly when the queue has room for one event only,
or no event is polled after one was dropped. -/
theorem accounts_iff_polls_before_loss (positive : 1 ≤ eventCapacity) {actions : List EngineAction}
    (runs : Transition.Runs Possible perform (create hasBackend commandCapacity eventCapacity) actions) :
    Accounts (actions.foldl perform (create hasBackend commandCapacity eventCapacity)).polled ↔
      eventCapacity = 1 ∨ Transition.Runs PollsBeforeLoss perform
        (create hasBackend commandCapacity eventCapacity) actions := by
  obtain ⟨_, reports, single⟩ := run_reports positive runs
  rw [accounts_iff_exact reports.polled]
  constructor
  · intro exact
    by_cases one : eventCapacity = 1
    · exact .inl one
    · exact .inr (by_contra fun late => run_inexact (by omega) runs late exact)
  · rintro (one | allowed)
    · exact (single one).polled
    · exact (run_unread positive runs allowed).polled

/-- Three events come from the backend, and a client polls. -/
def threeEvents : List EngineAction :=
  [.work {}, .work { popEvents := .ok (List.replicate 3 {
      type := .torrentAdded, requestId := 1, torrentId := "" }) },
    .work {}, .work {}, .work {}, .work {}, .work {}, .work {}, .work {}, .work {}, .work {}, .work {},
    .pollEvent]

theorem threeEvents_runs (eventCapacity : Nat) :
    Transition.Runs Possible perform (create true 1 eventCapacity) threeEvents :=
  ⟨rfl, rfl, rfl, rfl, rfl, rfl, rfl, rfl, rfl, rfl, rfl, rfl, trivial, trivial⟩

theorem accounts_iff_polls_before_loss_three :
    Accounts (threeEvents.foldl perform (create true 1 3)).polled := by
  refine (accounts_iff_polls_before_loss (by decide) (threeEvents_runs 3)).mpr (.inr ?_)
  exact ⟨trivial, trivial, trivial, trivial, trivial, trivial, trivial, trivial, trivial, trivial, trivial,
    trivial, fun _ => rfl, trivial⟩

/-- With room for two events the client gets the second one, which reports no loss. -/
theorem accounts_fails_full :
    Transition.Runs Possible perform (create true 1 2) threeEvents ∧
      (threeEvents.foldl perform (create true 1 2)).polled.map
        (fun event => (event.sequence, event.droppedEvents)) = [(2, 0)] ∧
      ¬ Accounts (threeEvents.foldl perform (create true 1 2)).polled := by
  refine ⟨threeEvents_runs 2, rfl, fun accounts => ?_⟩
  have first := accounts.1 _ rfl
  exact absurd first (by decide)

end Engine

/-- The events returned by the backend that the worker still has to push. -/
def Worker.unpushed : Worker → List BackendEvent
  | .refreshing events => events
  | .filing event rest .collectBackendEvents => event :: rest
  | .stamping _ rest .collectBackendEvents | .storing _ rest .collectBackendEvents => rest
  | _ => []

theorem Worker.publish_unpushed (events : List BackendEvent) :
    (Worker.publish .collectBackendEvents events).unpushed = events := by
  cases events <;> rfl

theorem Worker.publish_unpushed_other {caller : Caller} (other : caller ≠ .collectBackendEvents)
    (events : List BackendEvent) : (Worker.publish caller events).unpushed = [] := by
  cases events <;> cases caller <;> first | rfl | exact absurd rfl other

namespace Engine

/-- The events that `collect_backend_events` passed to `push_event`. -/
def forwarded (engine : Engine) : List BackendEvent :=
  engine.pushed.filterMap fun entry => if entry.1 = .collectBackendEvents then some entry.2 else none

/-- The statistics do not fail while there are events to push. -/
def RefreshSucceeds (engine : Engine) : EngineAction → Prop
  | .work answers => ∀ events, engine.runtime.worker = .refreshing events → events ≠ [] →
      answers.statisticsThrows = none
  | _ => True

theorem perform_worker (engine : Engine) {action : EngineAction} (other : ∀ answers, action ≠ .work answers) :
    (engine.perform action).runtime.worker = engine.runtime.worker ∧
      (engine.perform action).returned = engine.returned ∧
      (engine.perform action).pushed = engine.pushed := by
  cases action with
  | prepareStream thread torrentId requestedIndex filenameHint =>
      simp only [perform]
      split <;> exact ⟨rfl, rfl, rfl⟩
  | enqueue thread =>
      simp only [perform, enqueue, EngineRuntime.enqueue]
      split
      · exact ⟨rfl, rfl, rfl⟩
      · split_ifs <;> exact ⟨rfl, rfl, rfl⟩
  | pollEvent =>
      unfold perform poll EngineRuntime.pollEvent
      cases engine.runtime.events <;> exact ⟨rfl, rfl, rfl⟩
  | work answers => exact absurd rfl (other answers)
  | addTorrent _ _ | removeTorrent _ _ | stopStream _ _ | reclaimDiskCache _ _ | wake | destroy =>
      exact ⟨rfl, rfl, rfl⟩

/-- What an action does to the events that the backend returned. -/
inductive Forwards (engine : Engine) (action : EngineAction) (next : Engine) : Prop
  | carries (new : List BackendEvent) (succeeds : RefreshSucceeds engine action)
      (returned : next.returned = engine.returned ++ new)
      (held : next.forwarded ++ next.runtime.worker.unpushed =
        engine.forwarded ++ engine.runtime.worker.unpushed ++ new)
  | loses (fails : ¬ RefreshSucceeds engine action) (returned : next.returned = engine.returned)
      (forwarded : next.forwarded = engine.forwarded) (unpushed : next.runtime.worker.unpushed = [])
      (held : engine.runtime.worker.unpushed ≠ [])

theorem work_forwards (engine : Engine) (answers : BackendAnswers) :
    Forwards engine (.work answers) (engine.work answers) := by
  have succeeds (elsewhere : ∀ events, engine.runtime.worker ≠ .refreshing events) :
      RefreshSucceeds engine (.work answers) := fun events place => absurd place (elsewhere events)
  cases place : engine.runtime.worker with
  | waiting =>
      refine .carries [] (succeeds fun events => by simp [place]) ?_ ?_
      · simp [work, place]
      · simp only [work, EngineRuntime.work, EngineRuntime.takeCommand, place, forwarded]
        split
        · simp [Worker.unpushed]
        · simp only
          split <;> simp [Worker.unpushed]
  | processing command =>
      refine .carries [] (succeeds fun events => by simp [place]) (by simp [work, place]) ?_
      simp only [work, EngineRuntime.work, place, forwarded]
      rw [Worker.publish_unpushed_other (by decide)]
      simp [Worker.unpushed]
  | collecting =>
      refine .carries (answers.popEvents.toOption.getD []) (succeeds fun events => by simp [place])
        (by simp [work, place]) ?_
      simp only [work, EngineRuntime.work, place, forwarded]
      cases answers.popEvents with
      | error thrown => simp [Worker.publish, Worker.unpushed, Except.toOption]
      | ok events =>
          simp only [EngineRuntime.takeEvents]
          split
          · rename_i early
            simp [Worker.unpushed, List.isEmpty_iff.mp early.1, Except.toOption]
          · simp [Worker.unpushed, Except.toOption]
  | refreshing events =>
      by_cases lost : answers.statisticsThrows ≠ none ∧ events ≠ []
      · obtain ⟨thrown, failed⟩ := Option.ne_none_iff_exists'.mp lost.1
        refine .loses (fun succeeds => lost.1 (succeeds events place lost.2)) ?_ ?_ ?_ ?_
        · simp [work, place]
        · simp [work, place, forwarded]
        · simp [work, EngineRuntime.work, place, failed, Worker.publish, Worker.unpushed]
        · simpa [place, Worker.unpushed] using lost.2
      · refine .carries [] (fun others same some => ?_) (by simp [work, place]) ?_
        · rw [place] at same
          obtain rfl := Worker.refreshing.inj same
          exact by_contra fun failed => lost ⟨failed, some⟩
        · simp only [work, EngineRuntime.work, place, forwarded]
          cases failed : answers.statisticsThrows with
          | none =>
              simp only [Worker.publish_unpushed, List.append_nil]
              rfl
          | some thrown =>
              have none : events = [] := by_contra fun some => lost ⟨by simp [failed], some⟩
              simp [Worker.publish, Worker.unpushed, none]
  | filing event rest caller =>
      refine .carries [] (succeeds fun events => by simp [place]) (by simp [work, place]) ?_
      simp only [work, EngineRuntime.work, place, forwarded, List.filterMap_append]
      cases caller <;> simp [Worker.unpushed]
  | stamping event rest caller =>
      refine .carries [] (succeeds fun events => by simp [place]) (by simp [work, place]) ?_
      simp only [work, EngineRuntime.work, place, forwarded]
      cases caller <;> simp [Worker.unpushed]
  | storing event rest caller =>
      refine .carries [] (succeeds fun events => by simp [place]) (by simp [work, place]) ?_
      simp only [work, EngineRuntime.work, place, forwarded]
      cases caller with
      | collectBackendEvents =>
          rw [Worker.publish_unpushed, List.append_nil]
          rfl
      | processCommand =>
          rw [Worker.publish_unpushed_other (by decide), List.append_nil, List.append_nil]
          exact (List.append_nil _).symm
      | run =>
          rw [Worker.publish_unpushed_other (by decide), List.append_nil, List.append_nil]
          exact (List.append_nil _).symm
  | shuttingDown =>
      refine .carries [] (succeeds fun events => by simp [place]) (by simp [work, place]) ?_
      simp [work, EngineRuntime.work, place, forwarded, Worker.unpushed]
  | stopped =>
      refine .carries [] (succeeds fun events => by simp [place]) (by simp [work, place]) ?_
      simp [work, EngineRuntime.work, place, forwarded, Worker.unpushed]

theorem perform_forwards (engine : Engine) (action : EngineAction) :
    Forwards engine action (engine.perform action) := by
  by_cases works : ∃ answers, action = .work answers
  · obtain ⟨answers, rfl⟩ := works
    exact engine.work_forwards answers
  · obtain ⟨worker, returned, pushed⟩ := engine.perform_worker fun answers same => works ⟨answers, same⟩
    refine .carries [] ?_ (by rw [returned, List.append_nil]) ?_
    · cases action with
      | work answers => exact absurd ⟨answers, rfl⟩ works
      | _ => trivial
    · simp [forwarded, worker, pushed]

theorem run_forwards (actions : List EngineAction) :
    let engine := actions.foldl perform (create hasBackend commandCapacity eventCapacity)
    (engine.forwarded ++ engine.runtime.worker.unpushed).length ≤ engine.returned.length ∧
      (engine.forwarded ++ engine.runtime.worker.unpushed = engine.returned ↔
        Transition.Runs RefreshSucceeds perform
          (create hasBackend commandCapacity eventCapacity) actions) := by
  induction actions using List.reverseRecOn with
  | nil => simp [create, forwarded, Worker.unpushed, Transition.Runs]
  | append_singleton before action ih =>
      simp only [List.foldl_concat, Transition.runs_concat]
      obtain ⟨bounded, exactly⟩ := ih
      rcases perform_forwards (before.foldl perform (create hasBackend commandCapacity eventCapacity)) action
        with ⟨new, succeeds, returned, held⟩ | ⟨fails, returned, forwarded, unpushed, held⟩
      · rw [held, returned]
        refine ⟨by simp only [List.length_append] at bounded ⊢; omega, ?_⟩
        rw [← exactly, List.append_left_inj]
        exact (and_iff_left succeeds).symm
      · have some := List.length_pos_iff.mpr held
        rw [returned, forwarded, unpushed, List.append_nil]
        rw [List.length_append] at bounded
        refine ⟨by omega, ?_⟩
        constructor
        · intro all
          have total := congrArg List.length all
          omega
        · exact fun both => absurd both.2 fails

theorem pushes_all {states : Nat → Engine} {actions : Nat → EngineAction}
    (behaves : Transition.Behaves Possible perform states actions)
    (fair : ∀ time, ∃ later, time ≤ later ∧ Works (actions later)) :
    ∃ time, (states time).runtime.worker.unpushed = [] := by
  refine behaves.eventually (fun engine => engine.runtime.worker.distance) (fun _ => True)
    (fun engine => engine.runtime.worker.unpushed = []) Works (fun _ => trivial) fair (fun engine action _ _ holding => ?_) 0
  cases action with
  | work answers =>
      left
      rw [perform, work_runtime]
      refine engine.runtime.work_distance answers (fun place => ?_) ?_ fun ending => ?_
      · exact absurd (by rw [place]; rfl) holding
      · cases place : engine.runtime.worker <;> simp_all [Worker.unpushed, Worker.inFlight]
      · cases place : engine.runtime.worker <;> simp_all [Worker.unpushed, Worker.Ending]
  | _ => exact .inr ⟨congrArg _ (engine.perform_worker fun _ same => by simp at same).1, id⟩

/-- The events that the backend returned are pushed once and in order exactly when no refresh of the
statistics fails while there are events to push; the worker does not keep them. -/
theorem forwarded_iff_refresh_succeeds (hasBackend : Bool) (commandCapacity eventCapacity : Nat)
    (actions : List EngineAction) :
    let engine := actions.foldl perform (create hasBackend commandCapacity eventCapacity)
    (engine.forwarded ++ engine.runtime.worker.unpushed = engine.returned ↔
      Transition.Runs RefreshSucceeds perform
        (create hasBackend commandCapacity eventCapacity) actions) ∧
    ∀ (states : Nat → Engine) (later : Nat → EngineAction), states 0 = engine →
      Transition.Behaves Possible perform states later →
      (∀ time, ∃ after, time ≤ after ∧ Works (later after)) →
      ∃ time, (states time).runtime.worker.unpushed = [] :=
  ⟨(run_forwards actions).2, fun _ _ _ behaves fair => pushes_all behaves fair⟩

/-- The backend returns an event, and the statistics fail in the same turn. -/
def failedRefresh : List EngineAction :=
  [.work {}, .work { popEvents := .ok [{ type := .torrentAdded, requestId := 1, torrentId := "a" }] },
    .work { statisticsThrows := some .other }, .work {}, .work {}, .work {}]

theorem forwarded_fails_refresh :
    Transition.Runs Possible perform (create true 1 1) failedRefresh ∧
      (failedRefresh.foldl perform (create true 1 1)).runtime.worker = .waiting ∧
      (failedRefresh.foldl perform (create true 1 1)).returned.map BackendEvent.requestId = [1] ∧
      (failedRefresh.foldl perform (create true 1 1)).pushed.map (fun entry => entry.2.requestId) = [0] :=
  ⟨⟨rfl, rfl, rfl, rfl, rfl, rfl, trivial⟩, rfl, rfl, rfl⟩

end Engine

end NuvioEngine.Core
