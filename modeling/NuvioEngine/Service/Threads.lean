import NuvioEngine.Bridge.Growth
import NuvioEngine.Http.Upholds
import NuvioEngine.Service.ServiceCore
import NuvioEngine.Stream.Handler

/-!
The steps of a thread of `handle_http` inside the handler: it begins its own demand, reads inside the range of
its response, and waits on one waiter at a time.
-/

open NuvioEngine.Http NuvioEngine.Scheduler NuvioEngine.Stream NuvioEngine.Cache NuvioEngine.Bridge

namespace NuvioEngine

namespace Stream

/-- The piece is one of those that the range meets. -/
def Job.Meets (job : Job) (piece : Nat) : Prop :=
  job.absoluteStart / job.route.pieceSize ≤ piece ∧ piece ≤ job.lastPiece

end Stream

namespace Thread

/-- The thread has begun the demand of the job. -/
def Demands (thread : Thread) (session : Session) (job : Job) : Prop :=
  thread.guard = some job.demandId ∧ session.requests job.demandId = some ⟨job.route, job.range⟩

/-- What the thread has in hand where it stands. -/
def Fits (good : PieceKey → List UInt8 → Prop) (thread : Thread) (session : Session) : Place → Prop
  | .looking _ => thread.guard = none
  | .demanding route range _ => thread.guard = none ∧ route ∈ session.system.registered ∧
      range.start ≤ range.last ∧ range.last < route.fileSize
  | .entering job => thread.Demands session job
  | .pieces job piece _ _ => thread.Demands session job ∧ job.absoluteStart / job.route.pieceSize ≤ piece
  | .testing job piece _ _ _ => thread.Demands session job ∧ job.Meets piece
  | .waiting job piece state | .turning job piece state _ => thread.Demands session job ∧ job.Meets piece ∧
      ∃ waiter, thread.waiter = some waiter ∧
        (state.waiter.done = true → (session.bridge.waiters waiter).done = true) ∧
        Awaits good session ⟨job.route.torrentId, piece⟩ waiter
  | .returning => True

/-- The demand and the waiter of a thread: its demand has no other open waiter. -/
structure Owns (session : Session) (thread : Thread) : Prop where
  numbered : ∀ demandId ∈ thread.guard, demandId < session.bridge.nextDemandId
  alone : ∀ demandId ∈ thread.guard, ∀ waiter < session.nextWaiter,
    (session.bridge.waiters waiter).demandId = demandId →
      finished (session.bridge.waiters waiter) = true ∨ thread.waiter = some waiter
  waits : ∀ waiter ∈ thread.waiter, waiter < session.nextWaiter ∧
    thread.guard = some (session.bridge.waiters waiter).demandId
  verified : thread.verified = true → ∀ waiter ∈ thread.waiter, (session.bridge.waiters waiter).done = true

def Idle (thread : Thread) : Prop := thread.guard = none ∧ thread.waiter = none ∧ thread.lease = none

/-- Outside of `serve_piece` the thread has no waiter. -/
def Tidy (thread : Thread) : Prop :=
  ∀ place, thread.connection.phase = .handling place → place.serving = none → thread.waiter = none

structure Sound (good : PieceKey → List UInt8 → Prop) (session : Session) (thread : Thread) : Prop where
  owns : thread.Owns session
  phase : thread.connection.phase.Upholds (thread.Fits good session) thread.Idle
  tidy : thread.Tidy

section Others

variable {good : PieceKey → List UInt8 → Prop} {thread : Thread} {session next : Session} {own : Option Nat}

theorem Demands.grows {job : Job} (demands : thread.Demands session job) (owns : thread.Owns session)
    (grows : Session.Grows good own session next) : thread.Demands next job := by
  obtain ⟨guard, asked⟩ := demands
  exact ⟨guard, (grows.requests _ (owns.numbered _ guard)).trans asked⟩

theorem Fits.grows {place : Place} (fits : thread.Fits good session place) (owns : thread.Owns session)
    (grows : Session.Grows good own session next) : thread.Fits good next place := by
  cases place with
  | looking request => exact fits
  | demanding route range headers =>
      obtain ⟨none, known, rest⟩ := fits
      exact ⟨none, grows.registered route known, rest⟩
  | entering job => exact Demands.grows fits owns grows
  | pieces job piece payload log => exact ⟨fits.1.grows owns grows, fits.2⟩
  | testing job piece payload log stopped => exact ⟨fits.1.grows owns grows, fits.2⟩
  | waiting job piece state | turning job piece state stopped =>
      obtain ⟨demands, meets, waiter, waits, told, awaits⟩ := fits
      have old := (owns.waits waiter waits).1
      exact ⟨demands.grows owns grows, meets, waiter, waits, fun done => grows.done waiter old (told done),
        awaits.grows old grows⟩
  | returning => trivial

theorem Owns.grows (owns : thread.Owns session) (grows : Session.Grows good own session next)
    (apart : ∀ demandId ∈ thread.guard, own ≠ some demandId) : thread.Owns next := by
  refine ⟨fun demandId guard => (owns.numbered demandId guard).trans_le grows.nextDemandId, ?_, ?_, ?_⟩
  · intro demandId guard waiter below same
    by_cases old : waiter < session.nextWaiter
    · rw [grows.demandId waiter old] at same
      exact (owns.alone demandId guard waiter old same).imp_left (grows.finishes waiter old)
    · exact absurd (same ▸ grows.fresh waiter (Nat.le_of_not_lt old) below) (apart demandId guard)
  · intro waiter waits
    obtain ⟨old, guard⟩ := owns.waits waiter waits
    exact ⟨old.trans_le grows.nextWaiter, by rw [grows.demandId waiter old]; exact guard⟩
  · intro verified waiter waits
    exact grows.done waiter (owns.waits waiter waits).1 (owns.verified verified waiter waits)

theorem Sound.grows (sound : thread.Sound good session) (grows : Session.Grows good own session next)
    (apart : ∀ demandId ∈ thread.guard, own ≠ some demandId) : thread.Sound good next :=
  ⟨sound.owns.grows grows apart, sound.phase.imp (fun _ fits => fits.grows sound.owns grows) id, sound.tidy⟩

end Others

section Own

variable {good : PieceKey → List UInt8 → Prop} {handles : Handles} {session : Session} {thread : Thread}
  {job : Job} {piece : Nat}

theorem seen_done {known waiter : PieceWaiter}
    (done : ((seen waiter).foldl WorkerAction.apply known).done = true) : known.done = true ∨ waiter.done = true := by
  cases past : waiter.done with
  | true => exact .inr rfl
  | false =>
      have told : (publishBlocks known waiter.finishedBlocks).done = true := by
        simpa [seen, past, WorkerAction.apply] using done
      unfold publishBlocks at told
      split at told
      · exact .inl told
      · exact .inl told

/-- A turn that goes on leaves the waiter as the worker left it. -/
theorem serveRound_done {route : StreamRoute} {slice : PieceSlice} {round : Round} {state : ServeState}
    (done : (serveRound route slice round state).1.waiter.done = true) :
    (round.actions.foldl WorkerAction.apply state.waiter).done = true := by
  unfold serveRound serveVerified serveUnverified ServeState.abandon at done
  grind

theorem Demands.requested (demands : thread.Demands session job) (attended : Attended handles session) :
    Requested job.route job.range := by
  obtain ⟨_, known, ordered, inside⟩ := attended.disciplined.requests _ _ demands.2
  obtain ⟨sliced, narrow, ⟨_, indexed⟩, _⟩ := attended.disciplined.routes _ known
  simp only at known ordered inside sliced narrow indexed
  have last : (job.route.fileOffset + job.range.last) / job.route.pieceSize ≤ uint32Max :=
    le_trans (Nat.div_le_div_right (by omega)) indexed
  have short : job.route.fileOffset + job.range.last < (uint32Max + 1) * uint32Max := by
    have below := (Nat.div_lt_iff_lt_mul sliced).mp (Nat.lt_succ_of_le last)
    exact below.trans_le (Nat.mul_le_mul_left _ narrow)
  exact ⟨sliced, narrow, ordered, inside, short.trans_le (by decide), last⟩

theorem meets_cut (meets : job.Meets piece) (requested : Requested job.route job.range) :
    Cut job.route job.range piece := by
  obtain ⟨first, last⟩ := meets
  rw [Job.absoluteStart_eq requested.addressed] at first
  rw [Job.lastPiece_eq requested.addressed] at last
  exact requested.addressed.cut first last

theorem cut_pieceAt {route : StreamRoute} {range : ByteRange} (cut : Cut route range piece)
    (addressed : Addressed route range) :
    pieceAt route.fileOffset route.pieceSize (partAt route range piece).start = piece := by
  have inside := cut.inside addressed
  have short := cut.short
  have start := cut.start addressed
  have below : (sliceAt route (route.fileOffset + range.start) (route.fileOffset + range.last + 1) piece).start <
      route.pieceSize := inside.nonempty.trans_le inside.narrow
  have expand : (piece + 1) * route.pieceSize = piece * route.pieceSize + route.pieceSize := Nat.succ_mul _ _
  have sum : add64 route.fileOffset (partAt route range piece).start =
      piece * route.pieceSize + (sliceAt route (route.fileOffset + range.start)
        (route.fileOffset + range.last + 1) piece).start := by
    rw [← start]
    exact Nat.mod_eq_of_lt (by omega)
  rw [pieceAt, sum, Nat.mul_comm piece, Nat.mul_add_div addressed.pieceSize, Nat.div_eq_of_lt below, Nat.add_zero]
  exact cut.narrow

/-- What a thread does between two steps of others. -/
structure Enters (good : PieceKey → List UInt8 → Prop) (handles : Handles) (session : Session) (thread : Thread)
    (place : Place) (told : Told) : Prop where
  reached : handles.Reachable ((thread.enter session place told).1.foldl Session.perform session)
  grows : Session.Grows good (thread.enter session place told).2.guard session
    ((thread.enter session place told).1.foldl Session.perform session)
  owns : (thread.enter session place told).2.Owns
    ((thread.enter session place told).1.foldl Session.perform session)
  leads : (handleHttp.next place told).Leads ((thread.enter session place told).2.Fits good
    ((thread.enter session place told).1.foldl Session.perform session))
      ((thread.enter session place told).2.waiter = none)
  guard : ∀ demandId ∈ (thread.enter session place told).2.guard,
    thread.guard = some demandId ∨ demandId = session.bridge.nextDemandId
  retains : ∀ demandId ∈ thread.guard, demandId ∈ (thread.enter session place told).2.guard

theorem Owns.steady (owns : thread.Owns session) {next : Session} (grows : Session.Grows good none session next)
    {after : Thread} (guard : after.guard = thread.guard) (waiter : after.waiter = thread.waiter)
    (verified : after.verified = true → ∀ waiter ∈ after.waiter, (next.bridge.waiters waiter).done = true) :
    after.Owns next := by
  have grown := owns.grows grows (by simp)
  refine ⟨?_, ?_, ?_, verified⟩
  · rw [guard]
    exact grown.numbered
  · rw [guard, waiter]
    exact grown.alone
  · rw [guard, waiter]
    exact grown.waits

/-- The thread looks at what it finds and does nothing to the bridge. -/
theorem Enters.still {place : Place} {told : Told} (reached : handles.Reachable session) (owns : thread.Owns session)
    (nothing : thread.enter session place told = ([], thread))
    (leads : (handleHttp.next place told).Leads (thread.Fits good session) (thread.waiter = none)) :
    Enters good handles session thread place told := by
  constructor
  · rw [nothing]
    exact reached
  · rw [nothing]
    exact .refl session
  · rw [nothing]
    exact owns
  · rw [nothing]
    exact leads
  · rw [nothing]
    exact fun _ guard => .inl guard
  · rw [nothing]
    exact fun _ guard => guard

theorem work_free (reached : handles.Reachable session) {action : Action} (free : session.system.Possible action)
    (answers : handles.Answers session action) : handles.Reachable (session.perform (.work action)) :=
  reached.step _ ⟨free, answers⟩

theorem enters_looking (reached : handles.Reachable session) (owns : thread.Owns session) {request : HttpRequest}
    (fits : thread.Fits good session (.looking request)) (waiter : thread.waiter = none) {told : Told}
    (routes : ∀ route ∈ told.routes, route ∈ session.system.registered) :
    Enters good handles session thread (.looking request) told := by
  have attended := reachable_attended reached
  cases found : told.routes.find? fun route => bytes route.target == request.target with
  | none =>
      refine .still reached owns (by simp only [Thread.enter, found]) ?_
      simp only [handleHttp, look, found]
      exact fun _ => trivial
  | some route =>
      have known := routes route (List.mem_of_find?_eq_some found)
      have sized := (attended.disciplined.routes route known).2.2.1.1
      have entered : thread.enter session (.looking request) told =
          ([.work (.acquireRequest route.streamId)], { thread with lease := some route.streamId }) := by
        simp only [Thread.enter, found]
      have grows {own : Option Nat} : Session.Grows good own session
          (session.perform (.work (.acquireRequest route.streamId))) :=
        activity_grows session rfl
      constructor
      · rw [entered]
        exact work_free reached trivial trivial
      · rw [entered]
        exact grows
      · rw [entered]
        refine owns.steady grows rfl rfl ?_
        simp [waiter]
      · rw [entered]
        simp only [handleHttp, look, found]
        split
        · rename_i range body answered
          obtain ⟨ordered, inside⟩ := buildStreamResponse_range
            (by unfold uint64Max at sized; omega) body answered
          exact ⟨fits, known, ordered, inside⟩
        · exact fun _ => trivial
      · rw [entered]
        exact fun _ guard => .inl guard
      · rw [entered]
        exact fun _ guard => guard

theorem enters_demanding (reached : handles.Reachable session) (numbered : session.Numbered)
    {route : StreamRoute} {range : ByteRange} {headers : Bytes}
    (fits : thread.Fits good session (.demanding route range headers)) (waiter : thread.waiter = none) {told : Told}
    (number : told.demandId = session.bridge.nextDemandId) :
    Enters good handles session thread (.demanding route range headers) told := by
  obtain ⟨unguarded, known, ordered, inside⟩ := fits
  have begun : handles.Reachable (session.perform (.beginRequest route range)) :=
    reached.step _ ⟨known, ordered, inside⟩
  obtain ⟨commands, same, _⟩ := beginRequest_only session.bridge route range
  have bridge : (session.perform (.beginRequest route range)).bridge =
      { session.bridge with nextDemandId := session.bridge.nextDemandId + 1, commands := commands } := same
  have counts : (session.perform (.beginRequest route range)).bridge.nextDemandId =
      session.bridge.nextDemandId + 1 := by
    rw [bridge]
  have heap : (session.perform (.beginRequest route range)).bridge.waiters = session.bridge.waiters := by
    rw [bridge]
  have counted : (session.perform (.beginRequest route range)).nextWaiter = session.nextWaiter := rfl
  -- a thread that was refused has no demand, and the demand of one that was not is new
  have holds : ∀ after : Thread, after.waiter = none →
      (∀ demandId ∈ after.guard, demandId = session.bridge.nextDemandId) →
      after.Owns (session.perform (.beginRequest route range)) := by
    intro after none new
    refine ⟨?_, ?_, by simp [none], by simp [none]⟩
    · intro demandId guard
      rw [new demandId guard, counts]
      exact Nat.lt_succ_self _
    · intro demandId guard other below same
      rw [heap, new demandId guard] at same
      exact absurd same (Nat.ne_of_lt (numbered other (counted ▸ below)))
  have entered : (thread.enter session (.demanding route range headers) told).1 = [.beginRequest route range] := rfl
  have still : (thread.enter session (.demanding route range headers) told).2.waiter = none := waiter
  cases ranged : blockingDemandRange range range.start route.fileOffset route.pieceSize with
  | error _ =>
      have guard : (thread.enter session (.demanding route range headers) told).2.guard = none := by
        simp only [Thread.enter, handleHttp, Stream.beginDemand, ranged]
      refine ⟨begun, beginRequest_grows session route range, holds _ still (by simp [guard]), ?_, by simp [guard],
        by simp [unguarded]⟩
      simp only [handleHttp, Stream.beginDemand, ranged]
      exact still
  | ok demanded =>
      cases accepted : told.accepted with
      | false =>
          have guard : (thread.enter session (.demanding route range headers) told).2.guard = none := by
            simp only [Thread.enter, handleHttp, Stream.beginDemand, ranged, accepted]
            rfl
          refine ⟨begun, beginRequest_grows session route range, holds _ still (by simp [guard]), ?_,
            by simp [guard], by simp [unguarded]⟩
          simp only [handleHttp, Stream.beginDemand, ranged, accepted]
          exact fun _ => trivial
      | true =>
          have guard : (thread.enter session (.demanding route range headers) told).2.guard =
              some told.demandId := by
            simp only [Thread.enter, handleHttp, Stream.beginDemand, ranged, accepted]
            rfl
          have new : ∀ demandId ∈ (thread.enter session (.demanding route range headers) told).2.guard,
              demandId = session.bridge.nextDemandId := by
            intro demandId own
            rw [guard] at own
            rw [← Option.some.inj own, number]
          refine ⟨begun, beginRequest_grows session route range, holds _ still new, ?_,
            fun demandId own => .inr (new demandId own), by simp [unguarded]⟩
          simp only [handleHttp, Stream.beginDemand, ranged, accepted]
          intro sent
          cases sent with
          | false => trivial
          | true =>
              refine ⟨guard, ?_⟩
              rw [number]
              exact Function.update_self _ _ _

/-- A thread without a waiter has no open waiter of its demand. -/
theorem Owns.closed (owns : thread.Owns session) (demands : thread.Demands session job)
    (waiter : thread.waiter = none) : ∀ other < session.nextWaiter,
      (session.bridge.waiters other).demandId = job.demandId →
        finished (session.bridge.waiters other) = true := by
  intro other below same
  refine (owns.alone _ demands.1 other below same).resolve_right ?_
  simp [waiter]

theorem Demands.possible (demands : thread.Demands session job) (owns : thread.Owns session)
    (waiter : thread.waiter = none) (requested : Requested job.route job.range)
    (cut : Cut job.route job.range piece) :
    handles.Possible session (.readRequest job.demandId (partAt job.route job.range piece).start) := by
  have inside := cut.inside requested.addressed
  have ordered := requested.ordered
  refine ⟨_, demands.2, ?_, ?_, owns.closed demands waiter⟩
  · simp only [partAt]
    omega
  · have meeting := cut.meets
    simp only [partAt]
    omega

/-- The waiter that the thread asks with is the only open one of its demand. -/
theorem Owns.reads (owns : thread.Owns session) (demands : thread.Demands session job) (waiter : thread.waiter = none)
    {position : Nat} {range : ByteRange}
    (ranged : blockingDemandRange job.range position job.route.fileOffset job.route.pieceSize = .ok range) :
    Owns (session.perform (.readRequest job.demandId position))
      { thread with waiter := some session.nextWaiter, verified := false } := by
  have grows := @readRequest_grows (fun _ _ => True) _ _ _ _ _ demands.2 ranged
  obtain ⟨commands, bridge, _⟩ := readRequest_bridge demands.2 ranged
  have counted : (session.perform (.readRequest job.demandId position)).nextWaiter = session.nextWaiter + 1 := by
    rw [perform_readRequest demands.2 ranged]
  refine ⟨?_, ?_, ?_, by simp⟩
  · exact fun demandId guard => (owns.numbered demandId guard).trans_le grows.nextDemandId
  · intro demandId guard other below same
    by_cases newest : other = session.nextWaiter
    · exact .inr (by rw [newest])
    · have old : other < session.nextWaiter := by omega
      rw [grows.demandId other old] at same
      have own : demandId = job.demandId := Option.some.inj (guard.symm.trans demands.1)
      exact .inl (grows.finishes other old (owns.closed demands waiter other old (same.trans own)))
  · intro other waits
    obtain rfl := Option.some.inj waits
    rw [counted, bridge]
    simp only [Function.update_self]
    exact ⟨Nat.lt_succ_self _, demands.1⟩

theorem enters_testing (reached : handles.Reachable session) (owns : thread.Owns session)
    {payload : Option Bool} {log : StreamLog} {stopped : Bool}
    (fits : thread.Fits good session (.testing job piece payload log stopped)) (waiter : thread.waiter = none)
    {told : Told} (accepts : told.accepted = true →
      session.bridge.shuttingDown = false ∧ session.bridge.commands.length < maximumHttpCommands) :
    Enters good handles session thread (.testing job piece payload log stopped) told := by
  obtain ⟨demands, meets⟩ := fits
  have requested := demands.requested (reachable_attended reached)
  have addressed := requested.addressed
  have cut := meets_cut meets requested
  obtain ⟨starts, _⟩ := cut.ends addressed
  have position : positionAt job.route job.absoluteStart piece = (partAt job.route job.range piece).start := by
    rw [Job.absoluteStart_eq addressed]
    exact cut.position addressed
  have ranged := cut.demandRange addressed
  have step : handleHttp.next (.testing job piece payload log stopped) told =
      if stopped || told.demandCancelled then .returned else demandPiece job piece payload log told := rfl
  have returns : handleHttp.next (.testing job piece payload log stopped) told = .returned →
      Enters good handles session thread (.testing job piece payload log stopped) told := by
    intro next
    refine .still reached owns (by simp only [Thread.enter, next]) ?_
    rw [next]
    exact waiter
  by_cases given : (stopped || told.demandCancelled) = true
  · exact returns (by rw [step, if_pos given])
  · rw [if_neg given] at step
    have above : ¬ max job.absoluteStart (mul64 piece job.route.pieceSize) < job.route.fileOffset := by
      rw [Job.absoluteStart_eq addressed]
      omega
    simp only [demandPiece, if_neg above, position, ranged] at step
    cases accepted : told.accepted with
    | false => exact returns (by rw [step, accepted]; rfl)
    | true =>
        rw [accepted] at step
        simp only [Bool.not_true, Bool.false_eq_true, if_false] at step
        have entered : thread.enter session (.testing job piece payload log stopped) told =
            ([.readRequest job.demandId (partAt job.route job.range piece).start],
              { thread with waiter := some session.nextWaiter, verified := false }) := by
          simp only [Thread.enter, step, position]
        have grows : Session.Grows good (some job.demandId) session _ := readRequest_grows demands.2 ranged
        have awaits : Awaits good _ _ session.nextWaiter :=
          readRequest_awaits (reachable_attended reached) demands.2 ranged (accepts accepted)
        rw [cut_pieceAt cut addressed] at awaits
        constructor
        · rw [entered]
          exact reached.step _ (demands.possible owns waiter requested cut)
        · rw [entered, show ({ thread with waiter := some session.nextWaiter, verified := false } : Thread).guard =
            some job.demandId from demands.1]
          exact grows
        · rw [entered]
          exact owns.reads demands waiter ranged
        · rw [entered, step]
          refine ⟨⟨demands.1, ?_⟩, meets, _, rfl, by simp [ServeState.initial], awaits⟩
          exact (grows.requests _ (owns.numbered _ demands.1)).trans demands.2
        · rw [entered]
          exact fun _ guard => .inl guard
        · rw [entered]
          exact fun _ guard => guard

theorem enters_turning (reached : handles.Reachable session) (owns : thread.Owns session) {state : ServeState}
    {stopped : Bool} (fits : thread.Fits good session (.turning job piece state stopped)) (outside : Outside) :
    Enters good handles session thread (.turning job piece state stopped) (thread.tell session.bridge outside) := by
  obtain ⟨demands, meets, waiter, waits, done, awaits⟩ := fits
  have requested := demands.requested (reachable_attended reached)
  have cut := meets_cut meets requested
  have actions : (thread.tell session.bridge outside).round.actions = seen (session.bridge.waiters waiter) := by
    simp only [tell, waits, Option.elim_some]
  have verifies : takesVerified state stopped (thread.tell session.bridge outside).round = true →
      (session.bridge.waiters waiter).done = true := by
    intro verified
    simp only [takesVerified, Bool.and_eq_true] at verified
    have here := verified.1.2
    rw [actions] at here
    exact (seen_done here).elim done id
  have fitting : ∀ round : Round, round.actions = seen (session.bridge.waiters waiter) →
      Fits good { thread with verified := takesVerified state stopped (thread.tell session.bridge outside).round }
        session (afterTurn job piece (serveRound job.route (job.slice piece) round state)) := by
    intro round same
    generalize turned : serveRound job.route (job.slice piece) round state = after
    obtain ⟨next, result⟩ := after
    cases result with
    | none =>
        refine ⟨demands, meets, waiter, waits, fun past => ?_, awaits⟩
        have left := @serveRound_done job.route (job.slice piece) round state
        rw [turned, same] at left
        exact (seen_done (left past)).elim done id
    | some ok =>
        cases ok with
        | false => trivial
        | true =>
            refine ⟨demands, ?_⟩
            rw [cut.counted]
            exact meets.1.trans (Nat.le_succ _)
  refine ⟨reached, .refl session, ?_, ?_, fun _ guard => .inl guard, fun _ guard => guard⟩
  · have still : Session.Grows good none session session := .refl session
    refine owns.steady still rfl rfl ?_
    intro verified other own
    obtain rfl : waiter = other := Option.some.inj (waits.symm.trans own)
    exact verifies verified
  · have step : handleHttp.next (.turning job piece state stopped) (thread.tell session.bridge outside) =
        turn job piece state { (thread.tell session.bridge outside).round with stopRequested := stopped } := rfl
    rw [step]
    unfold turn
    simp only
    split
    · exact fun accepts => fitting _ actions
    · exact fitting _ actions

theorem enters (reached : handles.Reachable session) (sound : thread.Sound good session)
    (numbered : session.Numbered) {place : Place} (here : thread.connection.phase = .handling place) (outside : Outside) :
    Enters good handles session thread place (thread.tell session.bridge outside) := by
  have fits : thread.Fits good session place := by
    have upheld := sound.phase
    rw [here] at upheld
    exact upheld
  have owns := sound.owns
  have unserved := sound.tidy place here
  cases place with
  | looking request =>
      refine enters_looking reached owns fits (unserved rfl) ?_
      intro route member
      obtain ⟨⟨target, other⟩, listed, rfl⟩ := List.mem_map.mp member
      exact (reachable_attended reached).consistent.known target other
        ((AList.lookup_eq_some_iff _ _ _).mpr listed)
  | demanding route range headers => exact enters_demanding reached numbered fits (unserved rfl) rfl
  | entering job =>
      refine .still reached owns rfl ?_
      simp only [handleHttp, enterBody]
      split
      · exact unserved rfl
      · split
        · exact unserved rfl
        · split
          · exact unserved rfl
          · exact ⟨fits, le_refl _⟩
  | pieces job piece payload log =>
      refine .still reached owns rfl ?_
      simp only [handleHttp]
      split
      · rename_i last
        exact fun _ => ⟨fits.1, fits.2, last⟩
      · exact unserved rfl
  | testing job piece payload log stopped =>
      refine enters_testing reached owns fits (unserved rfl) fun accepted => ?_
      simpa [tell] using accepted
  | waiting job piece state =>
      refine .still reached owns rfl ?_
      simp only [handleHttp]
      split
      · exact fun _ => fits
      · obtain ⟨demands, meets, _⟩ := fits
        have cut := meets_cut meets (demands.requested (reachable_attended reached))
        refine ⟨demands, ?_⟩
        rw [cut.counted]
        exact meets.1.trans (Nat.le_succ _)
  | turning job piece state stopped => exact enters_turning reached owns fits outside
  | returning => exact .still reached owns rfl (unserved rfl)

end Own

end Thread

end NuvioEngine
