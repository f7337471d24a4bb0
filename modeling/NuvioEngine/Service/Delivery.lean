import NuvioEngine.Service.ThreadActions

/-!
What the clients of the server receive. The bytes that libtorrent delivers for a piece reach only the
threads that wait for that piece, so each response is made of the bytes of the file it announces.
-/

open NuvioEngine.Http Connection NuvioEngine.Scheduler NuvioEngine.Stream NuvioEngine.Cache NuvioEngine.Bridge

namespace NuvioEngine

/-- The bytes of a piece of its torrent. -/
def PieceBytes (content : String → Nat → UInt8) (pieceLength : String → Nat) (key : PieceKey)
    (data : List UInt8) : Prop :=
  ∀ index < data.length, data.getD index 0 = content key.torrentId (key.piece * pieceLength key.torrentId + index)

/-- The payload file that the thread reads holds the finished blocks. -/
def Stream.Place.Payload (content : String → Nat → UInt8) (place : Place) (told : Told) : Prop :=
  match place with
  | .turning job piece state _ => told.round.Payload content job.route piece state.waiter
  | .looking _ | .demanding .. | .entering _ | .pieces .. | .testing .. | .waiting .. | .returning => True

/-- The streams cut their torrents as libtorrent does, which delivers the bytes of the torrents and writes
them to the payload files. -/
def Service.Genuine (content : String → Nat → UInt8) (pieceLength : String → Nat) (service : Service) :
    ServiceAction → Prop
  | .connection thread (.handle outside) => ∀ place ∈ (service.threads thread).connection.phase.handled,
      place.Payload content ((service.threads thread).tell service.bridge outside)
  | .connection .. => True
  | .work (.register lt _ handle id _ _) => ∀ metadata, lt.torrentFile handle = .ok (some metadata) →
      metadata.pieceLength = pieceLength id
  | .work action => ∀ key data, Delivered key data action → PieceBytes content pieceLength key data

/-- What the client of a thread sends. -/
def ServiceAction.arrival (thread : Nat) : ServiceAction → Bytes
  | .connection other action => if other = thread then action.arrival else []
  | .work _ => []

/-- The responses that a request can get: the errors, and the ranges of the streams. -/
def Service.Replies (content : String → Nat → UInt8) (service : Service) (request : HttpRequest) (reply : Bytes) :
    Prop :=
  reply = buildErrorResponse .notFound 0 ∨ reply = buildErrorResponse .serviceUnavailable 0 ∨
    ∃ route ∈ service.session.system.registered, bytes route.target = request.target ∧
      reply = streamReply content request route

theorem Thread.leavePiece_connection (thread : Thread) : thread.leavePiece.2.connection = thread.connection := by
  unfold Thread.leavePiece
  split
  · split <;> rfl
  · rfl

theorem Thread.leaveHandler_connection (thread : Thread) (now : Nat) :
    (thread.leaveHandler now).2.connection = thread.connection := by
  unfold Thread.leaveHandler
  split <;> rfl

theorem Thread.perform_connection (thread : Thread) (session : Session) (action : ConnectionAction Outside) :
    (thread.perform session action).2.connection =
      thread.connection.perform handleHttp (action.map (thread.tell session.bridge)) := by
  obtain ⟨now, same⟩ := perform_eq thread session action
  rw [same, leaveHandler_connection, leavePiece_connection]
  rfl

theorem Http.arrival_map {ι κ : Type} (tell : ι → κ) (action : ConnectionAction ι) :
    (action.map tell).arrival = action.arrival := by
  cases action <;> rfl

namespace Service

section Runs

variable {library : Library} {pieceLength : String → Nat} {handles : Handles} {service : Service}

/-- A route that was registered lies in its torrent. -/
theorem inTorrent_of_reachable (reached : handles.Reachable service.session) {route : StreamRoute}
    (known : route ∈ service.session.system.registered) : InTorrent route := by
  obtain ⟨sliced, narrow, ⟨sized, indexed⟩, _⟩ := (reachable_attended reached).disciplined.routes route known
  have below : route.fileOffset + route.fileSize - 1 < (uint32Max + 1) * route.pieceSize :=
    (Nat.div_lt_iff_lt_mul sliced).mp (Nat.lt_succ_of_le indexed)
  have short : (uint32Max + 1) * route.pieceSize ≤ (uint32Max + 1) * uint32Max := Nat.mul_le_mul_left _ narrow
  have far : (uint32Max + 1) * uint32Max < uint64Max := by decide
  exact ⟨sliced, narrow, by omega, indexed⟩

/-- What holds of a service whose clients have sent so much. -/
structure Delivering (library : Library) (pieceLength : String → Nat) (handles : Handles) (arrived : Nat → Bytes)
    (service : Service) : Prop where
  kept : service.Kept (PieceBytes library.content pieceLength) handles
  cut : ∀ route ∈ service.session.system.registered, route.pieceSize = pieceLength route.torrentId
  serves : ∀ thread, (service.threads thread).connection.Serves True (Written library True)
    (Ends library True) (arrived thread)

theorem Genuine.delivers {content : String → Nat → UInt8} {action : ServiceAction}
    (genuine : service.Genuine content pieceLength action) (key : PieceKey) (data : List UInt8)
    (delivered : action.Delivers key data) : PieceBytes content pieceLength key data := by
  cases action with
  | connection thread action => exact False.elim delivered
  | work action =>
      cases action with
      | readPieceAlert alert => exact genuine key data delivered
      | _ => exact False.elim delivered

theorem Genuine.cut {content : String → Nat → UInt8} {action : Action}
    (genuine : service.Genuine content pieceLength (.work action))
    (cut : ∀ route ∈ service.session.system.registered, route.pieceSize = pieceLength route.torrentId)
    (route : StreamRoute) (member : route ∈ (service.session.perform (.work action)).system.registered) :
    route.pieceSize = pieceLength route.torrentId := by
  cases action with
  | register lt token handle id fileIndex file =>
      simp only [Session.perform, System.perform] at member
      split at member
      · exact cut route member
      · rename_i made
        rcases List.mem_cons.mp member with new | old
        · obtain ⟨metadata, savePath, _, found, same⟩ := routeFor_eq_ok made
          rw [new, same]
          exact genuine metadata found
        · exact cut route old
  | _ => exact cut route member

/-- What a thread is told is true, as it waits for the piece it serves. -/
theorem Delivering.honest {arrived : Nat → Bytes} (delivering : service.Delivering library pieceLength handles arrived)
    (listed : ∀ route ∈ service.session.system.registered, library.known route) {thread : Nat} {place : Place}
    (here : (service.threads thread).connection.phase = .handling place) {outside : Outside}
    (payload : place.Payload library.content ((service.threads thread).tell service.bridge outside)) :
    ((service.threads thread).tell service.bridge outside).Honest library True place := by
  refine ⟨?_, .inl trivial⟩
  have attended := reachable_attended delivering.kept.reached
  have fits := (delivering.kept.threads thread).phase
  rw [here] at fits
  cases place with
  | looking request =>
      intro route member
      obtain ⟨⟨target, other⟩, entry, rfl⟩ := List.mem_map.mp member
      exact listed other (attended.consistent.known target other ((AList.lookup_eq_some_iff _ _ _).mpr entry))
  | turning job piece state stopped =>
      obtain ⟨demands, _, waiter, waits, _, awaits⟩ := fits
      refine ⟨fun data error completes => ?_, payload⟩
      have known := (attended.disciplined.requests _ _ demands.2).2.1
      have good : PieceBytes library.content pieceLength ⟨job.route.torrentId, piece⟩ data := by
        refine awaits.data data ?_
        simp only [Thread.tell, waits, Option.elim_some, seen] at completes
        simp at completes
        exact completes.2.1.symm
      intro index below
      rw [delivering.cut _ known]
      exact good index below
  | demanding | entering | pieces | testing | waiting | returning => trivial

theorem Delivering.perform {arrived : Nat → Bytes} (delivering : service.Delivering library pieceLength handles arrived)
    {action : ServiceAction} (possible : service.Possible handles action)
    (genuine : service.Genuine library.content pieceLength action)
    (listed : ∀ route ∈ service.session.system.registered, library.known route) :
    (service.perform action).Delivering library pieceLength handles
      fun thread => arrived thread ++ action.arrival thread := by
  obtain ⟨kept, cut, serves⟩ := delivering
  refine ⟨kept.perform possible genuine.delivers, ?_, ?_⟩
  · intro route member
    cases action with
    | connection other action =>
        have unchanged := (service.connection_spares other action).registered
        exact cut route (unchanged ▸ member)
    | work action => exact genuine.cut cut route member
  · intro thread
    cases action with
    | work action =>
        have silent : (ServiceAction.work action).arrival thread = [] := rfl
        rw [silent, List.append_nil]
        exact serves thread
    | connection other action =>
        rw [connection_threads]
        split
        · rename_i same
          subst same
          have arrives : (ServiceAction.connection thread action).arrival thread = action.arrival := if_pos rfl
          rw [Thread.perform_connection, arrives,
            ← arrival_map ((service.threads thread).tell service.bridge)]
          refine (serves thread).perform (handleHttp_accounts library True) ⟨possible, ?_, .inl trivial⟩
          cases action with
          | handle outside =>
              intro place member
              have here := Phase.handled_eq member
              exact Delivering.honest ⟨kept, cut, serves⟩ listed here (genuine place member)
          | arrive | disconnect | fail | stopServer | receive | send | watch => trivial
        · rename_i different
          have silent : (ServiceAction.connection other action).arrival thread = [] :=
            if_neg (Ne.symm different)
          rw [silent, List.append_nil]
          exact serves thread

theorem registered_perform (service : Service) (action : ServiceAction) {route : StreamRoute}
    (known : route ∈ service.session.system.registered) :
    route ∈ (service.perform action).session.system.registered := by
  cases action with
  | connection thread action =>
      have unchanged := (service.connection_spares thread action).registered
      exact unchanged ▸ known
  | work action =>
      simp only [perform, Session.perform, System.perform]
      split
      · split
        · exact known
        · exact List.mem_cons_of_mem _ known
      · exact known

theorem registered_run (service : Service) (actions : List ServiceAction) {route : StreamRoute}
    (known : route ∈ service.session.system.registered) :
    route ∈ (actions.foldl perform service).session.system.registered := by
  induction actions generalizing service with
  | nil => exact known
  | cons action rest ih => exact ih _ (registered_perform service action known)

theorem run_delivering {arrived : Nat → Bytes} (actions : List ServiceAction)
    (delivering : service.Delivering library pieceLength handles arrived)
    (runs : Transition.Runs (fun service action => service.Possible handles action ∧
      service.Genuine library.content pieceLength action) perform service actions)
    (listed : ∀ route ∈ (actions.foldl perform service).session.system.registered, library.known route) :
    (actions.foldl perform service).Delivering library pieceLength handles
      fun thread => arrived thread ++ actions.flatMap (ServiceAction.arrival thread) := by
  induction actions generalizing service arrived with
  | nil => simpa using delivering
  | cons action rest ih =>
      have first := delivering.perform runs.1.1 runs.1.2 fun route known =>
        listed route (registered_run service (action :: rest) known)
      have later := ih first runs.2 listed
      simpa [List.append_assoc] using later

theorem rangeRun_genuine {action : ServiceAction} (member : action ∈ rangeRun) (service : Service) :
    service.Genuine sevens (fun _ => 4) action := by
  cases action with
  | connection thread action =>
      cases action with
      | handle outside =>
          obtain ⟨rfl, rfl⟩ : thread = 0 ∧ outside = {} := by simpa [rangeRun] using member
          intro place _
          cases place with
          | turning job piece state stopped => exact fun contents given => by simp [Thread.tell] at given
          | looking | demanding | entering | pieces | testing | waiting | returning => trivial
      | arrive | disconnect | fail | stopServer | receive | send | watch => trivial
  | work action =>
      have cases : action = .register (.accepting threePieces) "s" 7 "t" 0 ⟨"video.mp4", 3, 8⟩ ∨
          action = .poll calmThreePieces ∨ action = .readPieceAlert ⟨"t", 1, none, some [7, 7, 7, 7]⟩ := by
        simpa [rangeRun] using member
      rcases cases with rfl | rfl | rfl
      · intro metadata found
        obtain rfl : threePieces = metadata := Option.some.inj (Except.ok.inj found)
        rfl
      · exact fun key data delivered => False.elim delivered
      · rintro key data ⟨_, _, given⟩
        obtain rfl := Option.some.inj given
        have bytes : ∀ index < 4, [7, 7, 7, 7].getD index 0 = (7 : UInt8) := by decide
        exact bytes

end Runs

end Service

end NuvioEngine
