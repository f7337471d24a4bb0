import NuvioEngine.Bridge.WorkerSteps

/-!
What a step leaves of the requests and waiters of the others: they are numbered in the order in which they
are made, and a waiter that is finished stays so.
-/

namespace NuvioEngine.Bridge

open NuvioEngine.Scheduler NuvioEngine.Stream NuvioEngine.Cache BridgeState

/-- What a step does to the others: requests and routes stay, waiters only finish, whoever waits for a piece
waits on and gets only good bytes for it, and the new waiters belong to the demand `own`. -/
structure Session.Grows (good : PieceKey → List UInt8 → Prop) (own : Option Nat) (session next : Session) :
    Prop where
  registered : ∀ route ∈ session.system.registered, route ∈ next.system.registered
  nextDemandId : session.bridge.nextDemandId ≤ next.bridge.nextDemandId
  requests : ∀ demandId < session.bridge.nextDemandId, next.requests demandId = session.requests demandId
  nextWaiter : session.nextWaiter ≤ next.nextWaiter
  demandId : ∀ waiter < session.nextWaiter,
    (next.bridge.waiters waiter).demandId = (session.bridge.waiters waiter).demandId
  done : ∀ waiter < session.nextWaiter, (session.bridge.waiters waiter).done = true →
    (next.bridge.waiters waiter).done = true
  finishes : ∀ waiter < session.nextWaiter, finished (session.bridge.waiters waiter) = true →
    finished (next.bridge.waiters waiter) = true
  wants : ∀ waiter < session.nextWaiter, ∀ key, Wants next.bridge key waiter → Wants session.bridge key waiter
  waits : ∀ waiter < session.nextWaiter, (∃ key, Wants session.bridge key waiter) →
    (∃ key, Wants next.bridge key waiter) ∨ finished (next.bridge.waiters waiter) = true
  data : ∀ waiter < session.nextWaiter, ∀ data, (next.bridge.waiters waiter).data = some data →
    (session.bridge.waiters waiter).data = some data ∨ ∃ key, Wants session.bridge key waiter ∧ good key data
  fresh : ∀ waiter, session.nextWaiter ≤ waiter → waiter < next.nextWaiter →
    own = some (next.bridge.waiters waiter).demandId
  cached : ∀ key data, Cached next.bridge key data → Cached session.bridge key data ∨ good key data

namespace Session.Grows

variable {good : PieceKey → List UInt8 → Prop} {own : Option Nat} {first second third : Session}

theorem trans (left : Session.Grows good own first second) (right : Session.Grows good own second third) :
    Session.Grows good own first third := by
  have requests := left.nextDemandId
  have waiters := left.nextWaiter
  refine ⟨fun route member => right.registered route (left.registered route member),
    requests.trans right.nextDemandId, ?_, waiters.trans right.nextWaiter, ?_, ?_, ?_, ?_, ?_, ?_, ?_,
    fun key data cached => (right.cached key data cached).elim (left.cached key data) .inr⟩
  · intro demandId old
    rw [right.requests demandId (by omega), left.requests demandId old]
  · intro waiter old
    rw [right.demandId waiter (by omega), left.demandId waiter old]
  · intro waiter old done
    exact right.done waiter (by omega) (left.done waiter old done)
  · intro waiter old past
    exact right.finishes waiter (by omega) (left.finishes waiter old past)
  · intro waiter old key wants
    exact left.wants waiter old key (right.wants waiter (by omega) key wants)
  · intro waiter old wants
    rcases left.waits waiter old wants with still | past
    · exact right.waits waiter (by omega) still
    · exact .inr (right.finishes waiter (by omega) past)
  · intro waiter old data had
    rcases right.data waiter (by omega) data had with before | ⟨key, wants, given⟩
    · exact left.data waiter old data before
    · exact .inr ⟨key, left.wants waiter old key wants, given⟩
  · intro waiter new below
    by_cases earlier : waiter < second.nextWaiter
    · rw [right.demandId waiter earlier]
      exact left.fresh waiter new earlier
    · exact right.fresh waiter (by omega) below

/-- A step that leaves the waiters alone and queues no read. -/
theorem aside (registered : second.system.registered = first.system.registered)
    (nextDemandId : first.bridge.nextDemandId ≤ second.bridge.nextDemandId)
    (requests : ∀ demandId < first.bridge.nextDemandId, second.requests demandId = first.requests demandId)
    (nextWaiter : second.nextWaiter = first.nextWaiter)
    (pieceCache : second.bridge.pieceCache = first.bridge.pieceCache)
    (heap : second.bridge.waiters = first.bridge.waiters)
    (pieceWaiters : second.bridge.pieceWaiters = first.bridge.pieceWaiters)
    (reads : ∀ command : HttpCommand, command.type = .readPiece →
      (command ∈ second.bridge.commands ↔ command ∈ first.bridge.commands)) :
    Session.Grows good own first second := by
  have wants : ∀ key waiter, Wants second.bridge key waiter ↔ Wants first.bridge key waiter := by
    intro key waiter
    unfold Wants Held Enlisted
    rw [pieceWaiters]
    refine or_congr Iff.rfl (exists_congr fun command => ?_)
    exact ⟨fun ⟨member, kind, rest⟩ => ⟨(reads command kind).mp member, kind, rest⟩,
      fun ⟨member, kind, rest⟩ => ⟨(reads command kind).mpr member, kind, rest⟩⟩
  refine ⟨fun route member => registered ▸ member, nextDemandId, requests, nextWaiter.ge, ?_, ?_, ?_, ?_, ?_, ?_,
    fun _ old new => by omega, ?_⟩
  · exact fun _ _ => by rw [heap]
  · exact fun _ _ done => by rw [heap]; exact done
  · exact fun _ _ past => by rw [heap]; exact past
  · exact fun waiter _ key => (wants key waiter).mp
  · rintro waiter _ ⟨key, held⟩
    exact .inl ⟨key, (wants key waiter).mpr held⟩
  · exact fun _ _ _ had => .inl (heap ▸ had)
  · exact fun _ _ cached => .inl (Cached.same (congrArg VerifiedPieceCache.entries pieceCache) cached)

theorem refl (session : Session) : Session.Grows good own session session :=
  aside rfl le_rfl (fun _ _ => rfl) rfl rfl rfl rfl fun _ _ => Iff.rfl

theorem stocked (grows : Session.Grows good own first second)
    (stocked : ∀ key data, Cached first.bridge key data → good key data) (key : PieceKey) (data : List UInt8)
    (cached : Cached second.bridge key data) : good key data :=
  (grows.cached key data cached).elim (stocked key data) id

end Session.Grows

/-- A waiter for a piece gets good bytes of this piece only, and waits until it is finished. -/
structure Awaits (good : PieceKey → List UInt8 → Prop) (session : Session) (key : PieceKey) (waiter : Nat) :
    Prop where
  wants : ∀ other, Wants session.bridge other waiter → other = key
  waits : (∃ other, Wants session.bridge other waiter) ∨ finished (session.bridge.waiters waiter) = true
  data : ∀ data, (session.bridge.waiters waiter).data = some data → good key data

theorem Awaits.grows {good : PieceKey → List UInt8 → Prop} {own : Option Nat} {session next : Session}
    {key : PieceKey} {waiter : Nat} (awaits : Awaits good session key waiter) (old : waiter < session.nextWaiter)
    (grows : Session.Grows good own session next) : Awaits good next key waiter := by
  refine ⟨fun other wants => awaits.wants other (grows.wants waiter old other wants), ?_, ?_⟩
  · rcases awaits.waits with wants | past
    · exact grows.waits waiter old wants
    · exact .inr (grows.finishes waiter old past)
  · intro data had
    rcases grows.data waiter old data had with before | ⟨other, wants, given⟩
    · exact awaits.data data before
    · exact awaits.wants other wants ▸ given

/-- The waiters are those of demands that were begun. -/
def Session.Numbered (session : Session) : Prop :=
  ∀ waiter < session.nextWaiter, (session.bridge.waiters waiter).demandId < session.bridge.nextDemandId

theorem Session.Numbered.grows {good : PieceKey → List UInt8 → Prop} {own : Option Nat}
    {session next : Session} (numbered : session.Numbered) (grows : Session.Grows good own session next)
    (begun : ∀ demandId ∈ own, demandId < next.bridge.nextDemandId) :
    next.Numbered := by
  intro waiter below
  by_cases old : waiter < session.nextWaiter
  · rw [grows.demandId waiter old]
    exact (numbered waiter old).trans_le grows.nextDemandId
  · exact begun _ (grows.fresh waiter (Nat.le_of_not_lt old) below)

section Session

variable {good : PieceKey → List UInt8 → Prop} {own : Option Nat} (session : Session)

theorem work_grows {action : Action} (works : Server.isWork action = true)
    (possible : session.system.Possible action)
    (stocked : ∀ key data, Cached session.bridge key data → good key data)
    (delivers : ∀ key data, Delivered key data action → good key data) :
    Session.Grows good own session (session.perform (.work action)) := by
  have step := perform_step session.bridge works (fun answers same => by subst same; exact possible)
  refine ⟨?_, step.nextDemandId.ge, fun _ _ => rfl, le_rfl, fun waiter _ => step.supplies.demandId waiter,
    fun _ _ done => step.supplies.done done, fun _ _ past => step.supplies.finishes past,
    fun waiter _ key wants => step.wants key waiter wants, fun waiter _ => step.waits waiter, ?_,
    fun _ old new => absurd old (Nat.not_le.mpr new),
    fun key data cached => (step.cached key data cached).imp_right (delivers key data)⟩
  · intro route member
    simp only [Session.perform, System.perform]
    split
    · split
      · exact member
      · exact List.mem_cons_of_mem _ member
    · exact member
  · intro waiter _ data had
    refine (step.supplies.data waiter data had).imp_right ?_
    rintro ⟨key, wants, cached | delivered⟩
    · exact ⟨key, wants, stocked key data cached⟩
    · exact ⟨key, wants, delivers key data delivered⟩

theorem activity_grows {action : Action} {streamId : String} {change : StreamActivity → StreamActivity}
    (performs : session.system.perform action =
      { session.system with bridge := session.bridge.setActivity streamId change }) :
    Session.Grows good own session (session.perform (.work action)) := by
  have same : session.perform (.work action) = { session with
      system := { session.system with bridge := session.bridge.setActivity streamId change } } := by
    rw [← performs]
    rfl
  rw [same]
  exact .aside rfl le_rfl (fun _ _ => rfl) rfl rfl rfl rfl fun _ _ => Iff.rfl

theorem endRequest_grows (demandId : Nat) :
    Session.Grows good own session (session.perform (.work (.endRequest demandId))) := by
  refine .aside rfl le_rfl (fun _ _ => rfl) rfl rfl rfl rfl fun command kind => ?_
  have queued : (session.perform (.work (.endRequest demandId))).bridge.commands =
      (session.bridge.enqueueEnd demandId).commands := rfl
  rw [queued]
  simp only [enqueueEnd, List.mem_append, List.mem_singleton]
  refine or_iff_left ?_
  rintro rfl
  simp at kind

theorem abandonWaiter_grows (waiter : Nat) :
    Session.Grows good own session (session.perform (.work (.abandonWaiter waiter))) := by
  have heap : ∀ other, (session.perform (.work (.abandonWaiter waiter))).bridge.waiters other =
      if other = waiter then { session.bridge.waiters waiter with cancelled := true }
      else session.bridge.waiters other := fun other => Function.update_apply _ _ _ _
  refine ⟨fun _ member => member, le_rfl, fun _ _ => rfl, le_rfl, ?_, ?_, ?_, fun _ _ _ wants => wants,
    fun _ _ => .inl, ?_, fun _ old new => absurd old (Nat.not_le.mpr new), fun _ _ => .inl⟩
  · intro other _
    rw [heap]
    split
    · rename_i same
      rw [same]
    · rfl
  · intro other _ done
    rw [heap]
    split
    · rename_i same
      exact same ▸ done
    · exact done
  · intro other _ past
    rw [heap]
    split
    · simp [finished]
    · exact past
  · intro other _ data had
    rw [heap] at had
    split at had
    · rename_i same
      exact .inl (same ▸ had)
    · exact .inl had

theorem beginRequest_only (state : BridgeState) (route : StreamRoute) (bodyRange : ByteRange) :
    ∃ commands, state.beginRequest route bodyRange = { state with
        nextDemandId := state.nextDemandId + 1
        commands := commands } ∧
      ∀ command : HttpCommand, command.type = .readPiece → (command ∈ commands ↔ command ∈ state.commands) := by
  rcases beginRequest_cases state route bodyRange with same | ⟨range, _, same⟩
  · exact ⟨state.commands, same, fun _ _ => Iff.rfl⟩
  · rw [same]
    rcases enqueue_cases { state with nextDemandId := state.nextDemandId + 1 }
      ⟨.beginDemand, state.nextDemandId, route, range, 0, none, some state.nextDemandId⟩ with same | same
    · exact ⟨state.commands, same, fun _ _ => Iff.rfl⟩
    · refine ⟨_, same, fun command kind => ?_⟩
      simp only [List.mem_append, List.mem_singleton]
      refine or_iff_left ?_
      rintro rfl
      simp at kind

theorem beginRequest_grows (route : StreamRoute) (bodyRange : ByteRange) :
    Session.Grows good own session (session.perform (.beginRequest route bodyRange)) := by
  obtain ⟨commands, same, reads⟩ := beginRequest_only session.bridge route bodyRange
  have begun : (session.perform (.beginRequest route bodyRange)).bridge =
      { session.bridge with nextDemandId := session.bridge.nextDemandId + 1, commands := commands } := same
  refine .aside rfl ?_ ?_ rfl ?_ ?_ ?_ ?_
  · rw [begun]
    exact Nat.le_succ _
  · intro demandId old
    exact Function.update_of_ne (Nat.ne_of_lt old) _ _
  · rw [begun]
  · rw [begun]
  · rw [begun]
  · rw [begun]
    exact reads

variable {session} {request : StreamRequest} {demandId position : Nat} {range : ByteRange}

/-- The `read_piece` command of a thread. -/
def readCommand (request : StreamRequest) (demandId position waiter : Nat) (range : ByteRange) : HttpCommand where
  type := .readPiece
  demandId := demandId
  route := request.route
  range := range
  piece := pieceAt request.route.fileOffset request.route.pieceSize position
  waiter := some waiter
  demandState := some demandId

theorem perform_readRequest (asked : session.requests demandId = some request)
    (ranged : blockingDemandRange request.bodyRange position request.route.fileOffset request.route.pieceSize =
      .ok range) :
    session.perform (.readRequest demandId position) = { session with
      system := session.system.perform (.readRequest
        (readCommand request demandId position session.nextWaiter range))
      nextWaiter := session.nextWaiter + 1 } := by
  simp only [Session.perform, asked, StreamRequest.command, ranged, Option.bind_some]
  rfl

/-- The bridge with the new waiter, and with the command if the queue accepts it. -/
theorem readRequest_bridge (asked : session.requests demandId = some request)
    (ranged : blockingDemandRange request.bodyRange position request.route.fileOffset request.route.pieceSize =
      .ok range) :
    ∃ commands, (session.perform (.readRequest demandId position)).bridge = { session.bridge with
        waiters := Function.update session.bridge.waiters session.nextWaiter { demandId := demandId }
        commands := commands } ∧
      (commands = session.bridge.commands ∧
          ¬ (session.bridge.shuttingDown = false ∧ session.bridge.commands.length < maximumHttpCommands) ∨
        commands = session.bridge.commands ++
          [readCommand request demandId position session.nextWaiter range]) := by
  rw [perform_readRequest asked ranged]
  simp only [Session.bridge, System.perform, BridgeState.perform, BridgeState.readRequest, BridgeState.enqueue,
    readCommand]
  split
  · rename_i down
    exact ⟨_, rfl, .inl ⟨rfl, by simp [down]⟩⟩
  · split
    · rename_i full
      exact ⟨_, rfl, .inl ⟨rfl, by omega⟩⟩
    · exact ⟨_, rfl, .inr rfl⟩

theorem readRequest_grows (asked : session.requests demandId = some request)
    (ranged : blockingDemandRange request.bodyRange position request.route.fileOffset request.route.pieceSize =
      .ok range) :
    Session.Grows good (some demandId) session (session.perform (.readRequest demandId position)) := by
  obtain ⟨commands, bridge, queued⟩ := readRequest_bridge asked ranged
  have performed := perform_readRequest asked ranged
  have counted : (session.perform (.readRequest demandId position)).nextWaiter = session.nextWaiter + 1 := by
    rw [performed]
  have older : ∀ waiter < session.nextWaiter,
      (session.perform (.readRequest demandId position)).bridge.waiters waiter =
        session.bridge.waiters waiter := by
    intro waiter old
    rw [bridge]
    exact Function.update_of_ne (Nat.ne_of_lt old) _ _
  have wants : ∀ waiter < session.nextWaiter, ∀ key,
      Wants (session.perform (.readRequest demandId position)).bridge key waiter ↔
        Wants session.bridge key waiter := by
    intro waiter old key
    rw [bridge]
    refine or_congr Iff.rfl (exists_congr fun command => ?_)
    simp only
    rcases queued with ⟨rfl, _⟩ | rfl
    · exact Iff.rfl
    · refine and_congr_left fun reads => ?_
      simp only [List.mem_append, List.mem_singleton]
      refine or_iff_left ?_
      rintro rfl
      have newest := Option.some.inj reads.2.1
      omega
  refine ⟨?_, ?_, ?_, by omega, ?_, ?_, ?_, fun waiter old key => (wants waiter old key).mp, ?_, ?_, ?_, ?_⟩
  · rw [performed]
    exact fun _ member => member
  · rw [bridge]
  · rw [performed]
    exact fun _ _ => rfl
  · intro waiter old
    rw [older waiter old]
  · intro waiter old done
    rw [older waiter old]
    exact done
  · intro waiter old past
    rw [older waiter old]
    exact past
  · rintro waiter old ⟨key, before⟩
    exact .inl ⟨key, (wants waiter old key).mpr before⟩
  · intro waiter old data had
    exact .inl (older waiter old ▸ had)
  · intro waiter new below
    obtain rfl : waiter = session.nextWaiter := by omega
    rw [bridge]
    simp only [Function.update_self]
  · intro key data cached
    rw [bridge] at cached
    exact .inl cached

/-- The new waiter waits for the piece at the position and has nothing yet. -/
theorem readRequest_awaits {handles : Handles} (attended : Attended handles session)
    (asked : session.requests demandId = some request)
    (ranged : blockingDemandRange request.bodyRange position request.route.fileOffset request.route.pieceSize =
      .ok range)
    (accepts : session.bridge.shuttingDown = false ∧ session.bridge.commands.length < maximumHttpCommands) :
    Awaits good (session.perform (.readRequest demandId position))
      ⟨request.route.torrentId, pieceAt request.route.fileOffset request.route.pieceSize position⟩
      session.nextWaiter := by
  obtain ⟨commands, bridge, queued⟩ := readRequest_bridge asked ranged
  obtain rfl := queued.resolve_left fun refused => refused.2 accepts
  refine ⟨?_, .inl ⟨_, .inr ⟨readCommand request demandId position session.nextWaiter range, ?_, rfl, rfl, rfl⟩⟩, ?_⟩
  · intro key wants
    rw [bridge] at wants
    rcases wants with held | ⟨command, member, kind, own, same⟩
    · exact absurd (attended.disciplined.held key _ held).1 (Nat.lt_irrefl _)
    · rcases List.mem_append.mp member with old | new
      · obtain ⟨_, waiter, also, fresh, _⟩ := (attended.disciplined.queued command old).reads kind
        obtain rfl : waiter = session.nextWaiter := Option.some.inj (also.symm.trans own)
        exact absurd fresh (Nat.lt_irrefl _)
      · rw [same, List.mem_singleton.mp new]
        rfl
  · rw [bridge]
    exact List.mem_append_right _ (List.mem_singleton.mpr rfl)
  · intro data had
    rw [bridge] at had
    simp at had

end Session

end NuvioEngine.Bridge
