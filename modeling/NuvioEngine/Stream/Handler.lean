import NuvioEngine.Stream.HandlerCore
import NuvioEngine.Http.Outgoing
import NuvioEngine.Http.Response

/-!
What a client receives over its connection from `handle_http`: one response, whose body is the range of the
file that its head announces.
-/

namespace NuvioEngine.Stream

open Http Scheduler

/-- What `register_stream` takes from the files of the torrent: 32-bit piece sizes and indices, and a file
that ends within 64 bits. -/
structure InTorrent (route : StreamRoute) : Prop where
  pieceSize : 1 ≤ route.pieceSize
  pieceWidth : route.pieceSize ≤ uint32Max
  bounded : route.fileOffset + route.fileSize ≤ uint64Max
  indexed : (route.fileOffset + route.fileSize - 1) / route.pieceSize ≤ uint32Max

theorem InTorrent.requested {route : StreamRoute} (inTorrent : InTorrent route) {range : ByteRange}
    (ordered : range.start ≤ range.last) (inside : range.last < route.fileSize) : Requested route range where
  pieceSize := inTorrent.pieceSize
  pieceWidth := inTorrent.pieceWidth
  ordered := ordered
  inside := inside
  bounded := by
    have := inTorrent.bounded
    omega
  indexed := le_trans (Nat.div_le_div_right (by omega)) inTorrent.indexed

/-- The bytes of a file, from those of its torrent. -/
def fileBytes (content : String → Nat → UInt8) (route : StreamRoute) (first count : Nat) : Bytes :=
  (List.range count).map fun k => content route.torrentId (route.fileOffset + first + k)

section FileBytes

variable (content : String → Nat → UInt8) (route : StreamRoute) (first : Nat)

@[simp]
theorem fileBytes_length (count : Nat) : (fileBytes content route first count).length = count := by
  simp [fileBytes]

theorem fileBytes_add (count more : Nat) : fileBytes content route first (count + more) =
    fileBytes content route first count ++ fileBytes content route (first + count) more := by
  unfold fileBytes
  rw [List.range_add, List.map_append, List.map_map]
  refine congrArg _ (List.map_congr_left fun k _ => ?_)
  simp only [Function.comp_apply]
  congr 1
  omega

theorem fileBytes_shorter {count more : Nat} (less : count ≤ more) :
    fileBytes content route first count <+: fileBytes content route first more := by
  obtain ⟨rest, rfl⟩ := Nat.exists_eq_add_of_le less
  rw [fileBytes_add]
  exact List.prefix_append _ _

theorem map_value {chunk : List Source} (each : ∀ k (below : k < chunk.length),
    (chunk.get ⟨k, below⟩).value = content route.torrentId (route.fileOffset + first + k)) :
    chunk.map Source.value = fileBytes content route first chunk.length := by
  refine List.ext_get (by simp) fun k below _ => ?_
  have inner : k < chunk.length := by simpa using below
  simpa [fileBytes] using each k inner

end FileBytes

/-- The response to a request for a registered stream. -/
def streamReply (content : String → Nat → UInt8) (request : HttpRequest) (route : StreamRoute) : Bytes :=
  let response := buildStreamResponse request route.fileSize (bytes route.contentType)
  response.headers ++
    match response.includeBody, response.bodyRange with
    | true, some range => fileBytes content route range.start (range.last + 1 - range.start)
    | _, _ => []

/-- The bytes of the torrents, and the routes to the files in them. -/
structure Library where
  content : String → Nat → UInt8
  known : StreamRoute → Prop
  inTorrent : ∀ route, known route → InTorrent route

/-- The responses that a request can get from the handler. -/
def Replies (library : Library) (request : HttpRequest) (reply : Bytes) : Prop :=
  reply = buildErrorResponse .notFound 0 ∨ reply = buildErrorResponse .serviceUnavailable 0 ∨
    ∃ route, library.known route ∧ bytes route.target = request.target ∧
      reply = streamReply library.content request route

/-- A buffer that was verified as a piece holds the bytes of the piece. -/
def Holds (content : String → Nat → UInt8) (route : StreamRoute) (piece : Nat) (data : List UInt8) : Prop :=
  ∀ index < data.length, data.getD index 0 = content route.torrentId (piece * route.pieceSize + index)

/-- The payload file holds the blocks of the piece that the waiter knows to be finished. -/
def Round.Payload (content : String → Nat → UInt8) (route : StreamRoute) (piece : Nat)
    (before : PieceWaiter) (round : Round) : Prop :=
  ∀ contents, round.file = some contents → ∀ position,
    (round.actions.foldl WorkerAction.apply before).finishedBlocks.getD (position / blockBytes) false = true →
    route.fileOffset ≤ piece * route.pieceSize + position →
    contents (piece * route.pieceSize + position - route.fileOffset) =
      content route.torrentId (piece * route.pieceSize + position)

/-- The worker completes the waiter with the bytes of its piece. -/
structure Round.Genuine (content : String → Nat → UInt8) (route : StreamRoute) (piece : Nat)
    (before : PieceWaiter) (round : Round) : Prop where
  verified : round.Hands (Holds content route piece)
  payload : round.Payload content route piece before

/-- A waiter ends the wait with data that reaches the end of the slice, or with a finished block of a
payload file that can be read. -/
def PieceWaiter.Ready (slice : PieceSlice) (state : ServeState) (waiter : PieceWaiter) : Prop :=
  if waiter.done then waiter.error = "" ∧ ∀ data ∈ waiter.data, slice.stop ≤ data.length
  else state.payloadReadable = true ∧
    finishedRunEnd waiter.finishedBlocks state.cursor slice.stop > state.cursor

instance (slice : PieceSlice) (state : ServeState) (waiter : PieceWaiter) :
    Decidable (waiter.Ready slice state) :=
  inferInstanceAs (Decidable (if waiter.done then waiter.error = "" ∧ ∀ data ∈ waiter.data, slice.stop ≤ data.length
    else state.payloadReadable = true ∧
      finishedRunEnd waiter.finishedBlocks state.cursor slice.stop > state.cursor))

/-- The wait ends before its deadline, with a demand that goes on. -/
def Round.Wakes (slice : PieceSlice) (state : ServeState) (round : Round) : Prop :=
  round.demandCancelled = false ∧ (round.actions.foldl WorkerAction.apply state.waiter).Ready slice state

instance (slice : PieceSlice) (state : ServeState) (round : Round) : Decidable (round.Wakes slice state) :=
  instDecidableAnd

namespace Told

/-- The routes are known, and the bytes that the handler is given are those of the torrent. -/
def Genuine (library : Library) : Place → Told → Prop
  | .looking _, told => ∀ route ∈ told.routes, library.known route
  | .turning job piece state _, told => told.round.Genuine library.content job.route piece state.waiter
  | .demanding .., _ | .entering _, _ | .pieces .., _ | .testing .., _ | .waiting .., _ | .returning, _ => True

/-- The demand goes on until it is served. -/
def Smooth : Place → Told → Prop
  | .testing .., told => told.accepted = true ∧ told.demandCancelled = false
  | .turning job piece state _, told => told.round.Wakes (job.slice piece) state
  | .looking _, _ | .demanding .., _ | .entering _, _ | .pieces .., _ | .waiting .., _ | .returning, _ => True

instance : ∀ place told, Decidable (Smooth place told)
  | .testing .., _ => instDecidableAnd
  | .turning job piece state _, told => inferInstanceAs (Decidable (told.round.Wakes (job.slice piece) state))
  | .looking _, _ | .demanding .., _ | .entering _, _ | .pieces .., _ | .waiting .., _ | .returning, _ =>
      instDecidableTrue

end Told

section Serving

variable {route : StreamRoute} {range : ByteRange} {slice : PieceSlice} {piece : Nat}
  {content : String → Nat → UInt8} {state : ServeState} {round : Round}

theorem skipFinished_finished (blocks : List Bool) (first : Nat) {block : Nat} (onward : first ≤ block)
    (before : block < skipFinished blocks first) : blocks.getD (block - first) false = true := by
  induction blocks generalizing first with
  | nil =>
      simp only [skipFinished] at before
      omega
  | cons finished rest ih =>
      cases finished with
      | false =>
          simp only [skipFinished] at before
          omega
      | true =>
          simp only [skipFinished] at before
          by_cases here : block = first
          · simp [here]
          · have later := ih (first + 1) (by omega) before
            rw [show block - first = block - (first + 1) + 1 by omega]
            simpa using later

/-- A read of the payload file stays within finished blocks. -/
theorem finishedRunEnd_finished {blocks : List Bool} {cursor limit position : Nat}
    (behind : cursor ≤ position) (before : position < finishedRunEnd blocks cursor limit) :
    blocks.getD (position / blockBytes) false = true := by
  unfold finishedRunEnd at before
  simp only at before
  have wrapped : mul64 (skipFinished (blocks.drop (cursor / blockBytes)) (cursor / blockBytes)) blockBytes ≤
      skipFinished (blocks.drop (cursor / blockBytes)) (cursor / blockBytes) * blockBytes := Nat.mod_le _ _
  have below : position / blockBytes < skipFinished (blocks.drop (cursor / blockBytes)) (cursor / blockBytes) :=
    (Nat.div_lt_iff_lt_mul (by decide)).mpr (by omega)
  have first : cursor / blockBytes ≤ position / blockBytes := Nat.div_le_div_right behind
  have finished := skipFinished_finished _ _ first below
  simpa [List.getD_eq_getElem?_getD, List.getElem?_drop, Nat.add_sub_cancel' first] using finished

theorem readExact_bytes {isOpen : Bool} {file : Option (Nat → UInt8)} {offset size : Nat}
    {buffer : List Source} (filled : readExact isOpen file offset size = some buffer) :
    buffer.length = size ∧ ∀ k (below : k < buffer.length), ∃ contents, file = some contents ∧
      (buffer.get ⟨k, below⟩).value = contents (offset + k) := by
  refine ⟨(readExact_sources filled).1, ?_⟩
  unfold readExact at filled
  split at filled
  · simp at filled
  · split at filled
    · obtain rfl := Option.some.inj filled
      exact fun k below => absurd below (Nat.not_lt_zero k)
    · obtain ⟨contents, there, rfl⟩ := Option.map_eq_some_iff.mp filled
      exact fun k below => ⟨contents, there, by simp [Source.value]⟩

theorem offeredUnverified_bytes (inside : slice.Inside route range piece)
    (exact : state.Exact route range slice (Holds content route) piece) {unverifiedEnd : Nat}
    (payload : ∀ contents, round.file = some contents → ∀ position, state.cursor ≤ position →
      position < unverifiedEnd → contents (piece * route.pieceSize + position - route.fileOffset) =
        content route.torrentId (piece * route.pieceSize + position)) {chunk : List Source}
    (given : offeredUnverified route slice round unverifiedEnd state = some chunk) :
    chunk.map Source.value =
      fileBytes content route (range.start + state.log.delivered.length) chunk.length := by
  have next := exact.next
  have aligned := inside.aligned
  have upto := inside.upto
  have bounded := inside.bounded
  have upper := exact.upper
  have absolute : add64 slice.pieceStart state.cursor = slice.pieceStart + state.cursor :=
    Nat.mod_eq_of_lt (by unfold uint64Max at bounded; omega)
  have offset : sub64 (slice.pieceStart + state.cursor) route.fileOffset =
      range.start + state.log.delivered.length := by
    unfold sub64 uint64Max at *
    omega
  unfold offeredUnverified at given
  simp only [absolute, offset] at given
  split at given
  · simp at given
  · obtain ⟨size, read⟩ := readExact_bytes given
    refine map_value content route _ fun k below => ?_
    obtain ⟨contents, there, value⟩ := read k below
    have held := payload contents there (state.cursor + k) (by omega) (by omega)
    have place : piece * route.pieceSize + (state.cursor + k) =
        route.fileOffset + (range.start + state.log.delivered.length) + k := by omega
    rw [place, show route.fileOffset + (range.start + state.log.delivered.length) + k - route.fileOffset =
      range.start + state.log.delivered.length + k by omega] at held
    rw [value, held]

/-- What a turn offers to the writer are the bytes of the file from the first one that is not delivered. -/
theorem offered_bytes (inside : slice.Inside route range piece)
    (exact : state.Exact route range slice (Holds content route) piece) (unfinished : state.cursor < slice.stop)
    (genuine : round.Genuine content route piece state.waiter) {chunk : List Source}
    (given : offered route slice round state = some chunk) :
    chunk.map Source.value =
      fileBytes content route (range.start + state.log.delivered.length) chunk.length := by
  have data := apply_data round.actions exact.data genuine.verified
  have seen : ServeState.Exact { state with
      waiter := round.actions.foldl WorkerAction.apply state.waiter } route range slice
        (Holds content route) piece :=
    ⟨exact.log, exact.lower, exact.upper, exact.next, data⟩
  have next := exact.next
  have aligned := inside.aligned
  unfold offered at given
  simp only at given
  split at given
  · simp at given
  · split at given
    · split at given
      · rename_i verified here
        split at given
        · simp at given
        · rename_i long
          obtain rfl := Option.some.inj given
          refine map_value content route _ fun k below => ?_
          have inner : k < slice.stop - state.cursor := by simpa using below
          have held := data verified here (state.cursor + k) (by omega)
          rw [show piece * route.pieceSize + (state.cursor + k) =
            route.fileOffset + (range.start + state.log.delivered.length) + k by omega] at held
          simpa [Source.value] using held
      · exact offeredUnverified_bytes inside seen (fun _ _ position behind before =>
          absurd behind (Nat.not_le.mpr before)) given
    · split at given
      · refine offeredUnverified_bytes inside seen ?_ given
        intro contents there position behind before
        refine genuine.payload contents there position (finishedRunEnd_finished behind before) ?_
        have lower := exact.lower
        have above := inside.above
        simp only at behind
        omega
      · simp at given

theorem serveUnverified_refused {unverifiedEnd : Nat} (refuses : round.writerAccepts = false) {chunk : List Source}
    (given : offeredUnverified route slice round unverifiedEnd state = some chunk) :
    (serveUnverified route slice round unverifiedEnd state).2 = some false := by
  unfold offeredUnverified at given
  unfold serveUnverified
  simp only at given ⊢
  split at given
  · simp at given
  · rename_i above
    simp [above, given, refuses]

/-- A chunk that the writer does not take ends the request. -/
theorem serveRound_refused (refuses : round.writerAccepts = false) {chunk : List Source}
    (given : offered route slice round state = some chunk) :
    (serveRound route slice round state).2 = some false := by
  unfold offered at given
  unfold serveRound
  simp only at given ⊢
  split at given
  · simp at given
  · rename_i calm
    rw [if_neg calm]
    split at given
    · rename_i finished
      rw [if_pos finished]
      cases here : (round.actions.foldl WorkerAction.apply state.waiter).data with
      | some verified =>
          simp only
          unfold serveVerified
          split
          · rfl
          · simp [refuses]
      | none =>
          simp only [here] at given ⊢
          exact serveUnverified_refused refuses given
    · rename_i unfinished
      rw [if_neg unfinished]
      split at given
      · rename_i ready
        rw [if_pos ready]
        exact serveUnverified_refused refuses given
      · simp at given

theorem serveUnverified_accepted (accepts : round.writerAccepts = true) (unverifiedEnd : Nat) :
    (serveUnverified route slice round unverifiedEnd state).2 = none := by
  unfold serveUnverified
  simp only
  split
  · rfl
  · split
    · rfl
    · simp [accepts]

/-- A wait that ends in time, with a client that takes what it is given, does not end the request. -/
theorem serveRound_wakes (wakes : round.Wakes slice state) (calm : round.stopRequested = false)
    (accepts : round.writerAccepts = true) : (serveRound route slice round state).2 ≠ some false := by
  obtain ⟨going, ready⟩ := wakes
  unfold PieceWaiter.Ready at ready
  unfold serveRound
  simp only [calm, going, Bool.false_or]
  split at ready
  · rename_i finished
    obtain ⟨clean, long⟩ := ready
    simp only [finished, clean, Bool.true_and, bne_self_eq_false, Bool.false_eq_true, if_false, if_true]
    split
    · rename_i verified here
      have fits := long verified here
      unfold serveVerified
      simp [Nat.not_lt.mpr fits, accepts]
    · simp [serveUnverified_accepted accepts]
  · rename_i unfinished
    simp only [unfinished, Bool.false_and, Bool.false_eq_true, if_false, ready.1, Bool.true_and,
      decide_eq_true_eq, ready.2, if_true]
    simp [serveUnverified_accepted accepts]

end Serving

/-- The head of a response was sent, and its body is the range of the file. -/
structure Opens (library : Library) (request : HttpRequest) (route : StreamRoute)
    (range : ByteRange) (headers : Bytes) : Prop where
  known : library.known route
  requested : Requested route range
  named : bytes route.target = request.target
  reply : streamReply library.content request route =
    headers ++ fileBytes library.content route range.start (range.last + 1 - range.start)

/-- What was sent of a body is the beginning of the range. -/
def Delivers (library : Library) (request : HttpRequest) (job : Job) (log : StreamLog)
    (out : Bytes) : Prop :=
  ∃ headers, Opens library request job.route job.range headers ∧
    out = headers ++ fileBytes library.content job.route job.range.start log.delivered.length

/-- The pieces before this one were delivered. -/
structure Reaches (content : String → Nat → UInt8) (job : Job) (piece : Nat) (log : StreamLog) : Prop where
  exact : log.Exact job.route job.range (Holds content job.route)
  first : (job.route.fileOffset + job.range.start) / job.route.pieceSize ≤ piece
  next : job.route.fileOffset + job.range.start + log.delivered.length =
    min (job.route.fileOffset + job.range.last + 1)
      (max (job.route.fileOffset + job.range.start) (piece * job.route.pieceSize))

/-- The wait loop stands in a slice of the range. -/
structure InPiece (content : String → Nat → UInt8) (job : Job) (piece : Nat) (state : ServeState) : Prop where
  exact : state.Exact job.route job.range (job.slice piece) (Holds content job.route) piece
  first : (job.route.fileOffset + job.range.start) / job.route.pieceSize ≤ piece
  last : piece ≤ (job.route.fileOffset + job.range.last) / job.route.pieceSize

/-- The handler returns: what was sent is the beginning of a response, all of it where there was no
trouble. -/
def Ends (library : Library) (trouble : Prop) (request : HttpRequest) (out : Bytes) : Prop :=
  ∃ reply, Replies library request reply ∧ out <+: reply ∧ (¬ trouble → out = reply)

/-- What `handle_http` has written where it stands. -/
def Written (library : Library) (trouble : Prop) (request : HttpRequest) : Place → Bytes → Prop
  | .looking asked, out => asked = request ∧ out = []
  | .demanding route range headers, out => Opens library request route range headers ∧ out = []
  | .entering job, out => Opens library request job.route job.range out
  | .pieces job piece _ log, out => Delivers library request job log out ∧ Reaches library.content job piece log
  | .testing job piece _ log stopped, out => Delivers library request job log out ∧
      Reaches library.content job piece log ∧ piece ≤ job.lastPiece ∧ (stopped = true → trouble)
  | .waiting job piece state, out => Delivers library request job state.log out ∧ InPiece library.content job piece state
  | .turning job piece state stopped, out => Delivers library request job state.log out ∧
      InPiece library.content job piece state ∧ state.cursor < (job.slice piece).stop ∧ (stopped = true → trouble)
  | .returning, out => Ends library trouble request out

section Account

variable {library : Library} {trouble : Prop} {request : HttpRequest} {job : Job}
  {piece : Nat} {log : StreamLog} {out : Bytes}

theorem Job.absoluteStart_eq (addressed : Addressed job.route job.range) :
    job.absoluteStart = job.route.fileOffset + job.range.start := by
  have bounded := addressed.bounded
  have ordered := addressed.ordered
  exact Nat.mod_eq_of_lt (by unfold uint64Max at bounded; omega)

theorem Job.absoluteEnd_eq (addressed : Addressed job.route job.range) :
    job.absoluteEnd = job.route.fileOffset + job.range.last := by
  have bounded := addressed.bounded
  exact Nat.mod_eq_of_lt (by unfold uint64Max at bounded; omega)

theorem Job.lastPiece_eq (addressed : Addressed job.route job.range) :
    job.lastPiece = (job.route.fileOffset + job.range.last) / job.route.pieceSize := by
  rw [Job.lastPiece, absoluteEnd_eq addressed]

theorem Job.slice_eq (addressed : Addressed job.route job.range) (piece : Nat) : job.slice piece =
    sliceAt job.route (job.route.fileOffset + job.range.start) (job.route.fileOffset + job.range.last + 1)
      piece := by
  have bounded := addressed.bounded
  have beyond : add64 (job.route.fileOffset + job.range.last) 1 =
      job.route.fileOffset + job.range.last + 1 :=
    Nat.mod_eq_of_lt (by unfold uint64Max at bounded; omega)
  rw [Job.slice, absoluteStart_eq addressed, absoluteEnd_eq addressed, beyond]

theorem Delivers.requested (delivers : Delivers library request job log out) :
    Requested job.route job.range := by
  obtain ⟨_, opens, _⟩ := delivers
  exact opens.requested

theorem Opens.replies {route : StreamRoute} {range : ByteRange} {headers : Bytes}
    (opens : Opens library request route range headers) :
    Replies library request (headers ++ fileBytes library.content route range.start (range.last + 1 - range.start)) :=
  .inr (.inr ⟨route, opens.known, opens.named, opens.reply.symm⟩)

theorem ends_whole {reply : Bytes} (replies : Replies library request reply) :
    Ends library trouble request reply :=
  ⟨reply, replies, List.prefix_refl _, fun _ => rfl⟩

theorem ends_cut {reply : Bytes} (replies : Replies library request reply) (start : out <+: reply)
    (troubled : trouble) : Ends library trouble request out :=
  ⟨reply, replies, start, fun calm => absurd troubled calm⟩

/-- Some of the body was delivered, and the log stays within the range. -/
theorem Delivers.start (delivers : Delivers library request job log out)
    (limited : job.range.start + log.delivered.length ≤ job.range.last + 1) :
    ∃ reply, Replies library request reply ∧ out <+: reply := by
  obtain ⟨headers, opens, rfl⟩ := delivers
  exact ⟨_, opens.replies, (List.prefix_append_right_inj headers).mpr
    (fileBytes_shorter _ _ _ (by omega))⟩

theorem Delivers.cut (delivers : Delivers library request job log out)
    (limited : job.range.start + log.delivered.length ≤ job.range.last + 1) (troubled : trouble) :
    Ends library trouble request out := by
  obtain ⟨reply, replies, start⟩ := delivers.start limited
  exact ends_cut replies start troubled

/-- All pieces of the range were delivered. -/
theorem Delivers.whole (delivers : Delivers library request job log out) (reaches : Reaches library.content job piece log)
    (beyond : ¬ piece ≤ job.lastPiece) : Ends library trouble request out := by
  have requested := delivers.requested
  obtain ⟨headers, opens, rfl⟩ := delivers
  rw [Job.lastPiece_eq requested.addressed] at beyond
  have behind : job.route.fileOffset + job.range.last < piece * job.route.pieceSize :=
    (Nat.div_lt_iff_lt_mul requested.pieceSize).mp (Nat.lt_of_not_le beyond)
  have next := reaches.next
  have ordered := requested.ordered
  rw [show log.delivered.length = job.range.last + 1 - job.range.start by omega]
  exact ends_whole opens.replies

theorem InPiece.cut {state : ServeState} (inPiece : InPiece library.content job piece state)
    (requested : Requested job.route job.range) : Cut job.route job.range piece :=
  requested.addressed.cut inPiece.first inPiece.last

theorem InPiece.inside {state : ServeState} (inPiece : InPiece library.content job piece state)
    (requested : Requested job.route job.range) : (job.slice piece).Inside job.route job.range piece := by
  rw [Job.slice_eq requested.addressed]
  exact (inPiece.cut requested).inside requested.addressed

/-- The end of a slice is where the next piece begins. -/
theorem reaches_next (requested : Requested job.route job.range) (cut : Cut job.route job.range piece)
    (first : (job.route.fileOffset + job.range.start) / job.route.pieceSize ≤ piece)
    (exact : log.Exact job.route job.range (Holds library.content job.route))
    (finished : job.route.fileOffset + job.range.start + log.delivered.length =
      (job.slice piece).pieceStart + (job.slice piece).stop) :
    Reaches library.content job (piece + 1) log := by
  obtain ⟨_, stops⟩ := cut.ends requested.addressed
  rw [Job.slice_eq requested.addressed] at finished
  have starts := cut.starts
  exact ⟨exact, by omega, by omega⟩

/-- Where a turn of the wait loop leaves the handler. -/
theorem afterTurn_written {after : ServeState × Option Bool} (delivers : Delivers library request job after.1.log out)
    (first : (job.route.fileOffset + job.range.start) / job.route.pieceSize ≤ piece)
    (last : piece ≤ (job.route.fileOffset + job.range.last) / job.route.pieceSize)
    (outcome : Outcome job.route job.range (job.slice piece) piece (Holds library.content job.route) after)
    (lost : after.2 = some false → trouble) :
    Written library trouble request (afterTurn job piece after) out := by
  have requested := delivers.requested
  have cut := requested.addressed.cut first last
  obtain ⟨state, result⟩ := after
  cases result with
  | none => exact ⟨delivers, outcome.going rfl, first, last⟩
  | some ok =>
      cases ok with
      | false => exact delivers.cut outcome.log.limited (lost rfl)
      | true =>
          have reaches := reaches_next requested cut first outcome.log (outcome.finished rfl)
          simp only [afterTurn, cut.counted]
          exact ⟨delivers, ⟨reaches.exact.consecutive, reaches.exact.limited, reaches.exact.reads⟩,
            reaches.first, reaches.next⟩

/-- A response with a body is about a range of the file. -/
theorem buildStreamResponse_range {resourceSize : Nat} {contentType : Bytes} {range : ByteRange}
    (bounded : resourceSize < 2 ^ 64)
    (body : (buildStreamResponse request resourceSize contentType).includeBody = true)
    (answered : (buildStreamResponse request resourceSize contentType).bodyRange = some range) :
    range.start ≤ range.last ∧ range.last < resourceSize := by
  unfold buildStreamResponse at body answered
  generalize header : request.range.getD [] = text at body answered
  generalize parsed : parseRangeHeader text resourceSize = result at body answered
  obtain ⟨status, found⟩ := result
  cases status with
  | malformed | unsatisfiable | multipleRangesUnsupported => simp at body
  | partialRange =>
      obtain rfl : found = some range := answered
      obtain ⟨ordered, inside, _⟩ := parseRangeHeader_inside bounded parsed
      exact ⟨ordered, inside⟩
  | full =>
      obtain rfl : found = some range := answered
      have whole := ((parseRangeHeader_full_iff text resourceSize _).mp parsed).2
      split at whole
      · simp at whole
      · obtain rfl := Option.some.inj whole
        exact ⟨Nat.zero_le _, by simp only; omega⟩

/-- What the handler can do next: write a response, go on, look at the stop token or return. -/
def Keeps (library : Library) (trouble : Prop) (request : HttpRequest) (out : Bytes) :
    HandlerStep Place → Prop
  | .write data resume => Written library trouble request (resume true) (out ++ data) ∧
      (trouble → ∀ part, part <+: data → Written library trouble request (resume false) (out ++ part))
  | .askStop resume => Written library trouble request (resume false) out ∧
      (trouble → Written library trouble request (resume true) out)
  | .proceed next => Written library trouble request next out
  | .returned | .threw => Ends library trouble request out

theorem keeps_response {reply : Bytes} (replies : Replies library request reply) :
    Keeps library trouble request [] (.write reply fun _ => .returning) :=
  ⟨ends_whole replies, fun troubled _ start => ends_cut replies start troubled⟩

theorem look_keeps {told : Told} (known : ∀ route ∈ told.routes, library.known route) :
    Keeps library trouble request [] (look request told) := by
  unfold look
  cases found : told.routes.find? fun route => bytes route.target == request.target with
  | none => exact keeps_response (.inl rfl)
  | some route =>
      have named : bytes route.target = request.target := by
        simpa using List.find?_some found
      have listed := known route (List.mem_of_find?_eq_some found)
      have here := library.inTorrent route listed
      have bounded := here.bounded
      simp only
      split
      · rename_i range body answered
        obtain ⟨ordered, inside⟩ := buildStreamResponse_range
          (by unfold uint64Max at bounded; omega) body answered
        refine ⟨⟨listed, here.requested ordered inside, named, ?_⟩, rfl⟩
        simp only [streamReply, body, answered]
      · rename_i bodyless
        refine keeps_response (.inr (.inr ⟨route, listed, named, ?_⟩))
        simp only [streamReply]
        rw [List.append_nil]

theorem beginDemand_keeps {route : StreamRoute} {range : ByteRange} {headers : Bytes}
    (opens : Opens library request route range headers) (told : Told) :
    Keeps library trouble request [] (beginDemand route range headers told) := by
  have requested := opens.requested
  have positive := requested.pieceSize
  have ordered := requested.ordered
  unfold beginDemand
  obtain ⟨demanded, accepted⟩ : ∃ demanded, blockingDemandRange range range.start route.fileOffset
      route.pieceSize = .ok demanded := by
    unfold blockingDemandRange
    rw [if_neg (by omega), if_neg (by omega)]
    exact ⟨_, rfl⟩
  simp only [accepted]
  split
  · exact keeps_response (.inr (.inl rfl))
  · refine ⟨?_, fun troubled part start => ?_⟩
    · simpa [Written] using opens
    · refine ends_cut opens.replies ?_ troubled
      exact start.trans (List.prefix_append _ _)

theorem enterBody_keeps (opens : Opens library request job.route job.range out) :
    Keeps library trouble request out (enterBody job) := by
  have requested := opens.requested
  have addressed := requested.addressed
  have bounded := addressed.bounded
  have ordered := addressed.ordered
  have indexed := addressed.indexed
  unfold enterBody
  rw [Job.absoluteEnd_eq addressed, Job.lastPiece_eq addressed, Job.absoluteStart_eq addressed,
    if_neg (by omega), if_neg (by omega), if_neg (by omega)]
  have first : (job.route.fileOffset + job.range.start) / job.route.pieceSize * job.route.pieceSize ≤
      job.route.fileOffset + job.range.start := Nat.div_mul_le_self _ _
  refine ⟨⟨out, opens, by simp [fileBytes]⟩, ⟨consecutive_nil, ?_, by simp⟩, le_refl _, ?_⟩
  · simp only [List.length_nil]
    omega
  · simp only [List.length_nil]
    omega

theorem demandPiece_keeps {payload : Option Bool} {told : Told} (delivers : Delivers library request job log out)
    (reaches : Reaches library.content job piece log) (last : piece ≤ job.lastPiece)
    (smooth : trouble ∨ told.accepted = true) :
    Keeps library trouble request out (demandPiece job piece payload log told) := by
  have requested := delivers.requested
  have addressed := requested.addressed
  rw [Job.lastPiece_eq addressed] at last
  have cut := addressed.cut reaches.first last
  have inside := cut.inside addressed
  obtain ⟨starts, stops⟩ := cut.ends addressed
  unfold demandPiece
  rw [Job.absoluteStart_eq addressed, if_neg (by omega), cut.position addressed, cut.demandRange addressed,
    Job.slice_eq addressed]
  simp only
  split
  · rename_i refused
    refine delivers.cut reaches.exact.limited (smooth.resolve_right ?_)
    simpa using refused
  · have next := reaches.next
    have meets := cut.meets
    have below := cut.starts
    have ordered := requested.ordered
    refine ⟨delivers, ?_, reaches.first, last⟩
    rw [Job.slice_eq addressed]
    refine ⟨?_, le_refl _, Nat.le_of_lt inside.nonempty, ?_, by simp [ServeState.initial]⟩
    · exact ⟨reaches.exact.consecutive, reaches.exact.limited, reaches.exact.reads⟩
    · simp only [ServeState.initial]
      omega

theorem turn_keeps {state : ServeState} {round : Round} (delivers : Delivers library request job state.log out)
    (inPiece : InPiece library.content job piece state) (unfinished : state.cursor < (job.slice piece).stop)
    (genuine : round.Genuine library.content job.route piece state.waiter)
    (smooth : trouble ∨ round.Wakes (job.slice piece) state ∧ round.stopRequested = false) :
    Keeps library trouble request out (turn job piece state round) := by
  have requested := delivers.requested
  have inside := inPiece.inside requested
  have outcome (accepts : Bool) : Outcome job.route job.range (job.slice piece) piece (Holds library.content job.route)
      (serveRound job.route (job.slice piece) { round with writerAccepts := accepts } state) :=
    serveRound_outcome inside inPiece.exact unfinished genuine.verified
  have delivered := serveRound_delivered job.route (job.slice piece) { round with writerAccepts := true } state
  have same (accepts : Bool) : offered job.route (job.slice piece) { round with writerAccepts := accepts } state =
    offered job.route (job.slice piece) round state := rfl
  have goes : (serveRound job.route (job.slice piece) { round with writerAccepts := true } state).2 =
      some false → trouble := by
    intro lost
    refine smooth.resolve_right fun wakes => ?_
    have woken : { round with writerAccepts := true }.Wakes (job.slice piece) state := wakes.1
    exact serveRound_wakes woken wakes.2 rfl lost
  obtain ⟨headers, opens, rfl⟩ := delivers
  unfold turn
  cases given : offered job.route (job.slice piece) round state with
  | none =>
      rw [same, given] at delivered
      refine afterTurn_written ⟨headers, opens, ?_⟩ inPiece.first inPiece.last (outcome true) goes
      rw [delivered]
      simp
  | some chunk =>
      rw [same, given] at delivered
      simp only [Option.getD_some, if_true] at delivered
      have written := offered_bytes inside inPiece.exact unfinished genuine given
      have whole : Delivers library request job
          (serveRound job.route (job.slice piece) { round with writerAccepts := true } state).1.log
          (headers ++ fileBytes library.content job.route job.range.start state.log.delivered.length ++
            chunk.map Source.value) := by
        refine ⟨headers, opens, ?_⟩
        rw [delivered, List.length_append, fileBytes_add, ← written, List.append_assoc]
      refine ⟨afterTurn_written whole inPiece.first inPiece.last (outcome true) goes, ?_⟩
      intro troubled part start
      have refused : (serveRound job.route (job.slice piece) { round with writerAccepts := false } state).2 =
          some false := serveRound_refused rfl ((same false).trans given)
      obtain ⟨reply, replies, longer⟩ := whole.start (outcome true).log.limited
      simp only
      rw [show serveRound job.route (job.slice piece) { round with writerAccepts := false } state =
        (_, some false) from Prod.ext rfl refused]
      refine ends_cut replies (.trans ?_ longer) troubled
      exact (List.prefix_append_right_inj _).mpr start

/-- What the handler is told is true, and its demand goes on where there is no trouble. -/
def Told.Honest (library : Library) (trouble : Prop) (place : Place) (told : Told) : Prop :=
  told.Genuine library place ∧ (trouble ∨ told.Smooth place)

theorem next_keeps {place : Place} {told : Told} (written : Written library trouble request place out)
    (honest : told.Honest library trouble place) :
    Keeps library trouble request out (handleHttp.next place told) := by
  obtain ⟨genuine, smooth⟩ := honest
  cases place with
  | looking asked =>
      obtain ⟨rfl, rfl⟩ := written
      exact look_keeps genuine
  | demanding route range headers =>
      obtain ⟨opens, rfl⟩ := written
      exact beginDemand_keeps opens told
  | entering job => exact enterBody_keeps written
  | pieces job piece payload log =>
      obtain ⟨delivers, reaches⟩ := written
      show Keeps library trouble request out (if piece ≤ job.lastPiece then _ else _)
      split
      · rename_i last
        exact ⟨⟨delivers, reaches, last, by simp⟩, fun troubled => ⟨delivers, reaches, last, fun _ => troubled⟩⟩
      · rename_i beyond
        exact delivers.whole reaches beyond
  | testing job piece payload log stopped =>
      obtain ⟨delivers, reaches, last, stop⟩ := written
      show Keeps library trouble request out (if stopped || told.demandCancelled then _ else _)
      split
      · rename_i given
        refine delivers.cut reaches.exact.limited ?_
        rcases smooth with troubled | ⟨_, going⟩
        · exact troubled
        · exact stop (by simpa [going] using given)
      · exact demandPiece_keeps delivers reaches last (smooth.imp_right And.left)
  | waiting job piece state =>
      obtain ⟨delivers, inPiece⟩ := written
      show Keeps library trouble request out (if state.cursor < (job.slice piece).stop then _ else _)
      split
      · rename_i unfinished
        exact ⟨⟨delivers, inPiece, unfinished, by simp⟩,
          fun troubled => ⟨delivers, inPiece, unfinished, fun _ => troubled⟩⟩
      · have upper := inPiece.exact.upper
        have next := inPiece.exact.next
        have outcome : Outcome job.route job.range (job.slice piece) piece (Holds library.content job.route)
            (state.abandon, some true) :=
          ⟨inPiece.exact.log, by simp, fun _ => by simp only [ServeState.abandon]; omega⟩
        have left : Written library trouble request (afterTurn job piece (state.abandon, some true)) out :=
          afterTurn_written delivers inPiece.first inPiece.last outcome (by simp)
        exact left
  | turning job piece state stopped =>
      obtain ⟨delivers, inPiece, unfinished, stop⟩ := written
      have real : Round.Genuine library.content job.route piece state.waiter { told.round with stopRequested := stopped } :=
        ⟨genuine.verified, genuine.payload⟩
      refine turn_keeps delivers inPiece unfinished real ?_
      by_cases troubled : trouble
      · exact .inl troubled
      · refine .inr ⟨smooth.resolve_left troubled, ?_⟩
        simpa using mt stop troubled
  | returning => exact written

theorem handleHttp_accounts (library : Library) (trouble : Prop) (request : HttpRequest) :
    handleHttp.Accounts (fun place told => told.Honest library trouble place) trouble request
      (Written library trouble request) (Ends library trouble request) where
  start := ⟨rfl, rfl⟩
  write := by
    intro place told out data resume written honest next
    have keeps := next_keeps written honest
    rwa [next] at keeps
  askStop := by
    intro place told out resume written honest next
    have keeps := next_keeps written honest
    rwa [next] at keeps
  proceed := by
    intro place told out following written honest next
    have keeps := next_keeps written honest
    rwa [next] at keeps
  done := by
    intro place told out written honest next
    have keeps := next_keeps written honest
    rcases next with returned | threw
    · rwa [returned] at keeps
    · rwa [threw] at keeps

/-- Wherever the handler stands, what it has written is the beginning of a response. -/
theorem Written.start {place : Place} (written : Written library trouble request place out) :
    ∃ reply, Replies library request reply ∧ out <+: reply := by
  cases place with
  | looking asked => exact ⟨_, .inl rfl, written.2 ▸ List.nil_prefix⟩
  | demanding route range headers => exact ⟨_, written.1.replies, written.2 ▸ List.nil_prefix⟩
  | entering job => exact ⟨_, written.replies, List.prefix_append _ _⟩
  | pieces job piece payload log => exact written.1.start written.2.exact.limited
  | testing job piece payload log stopped => exact written.1.start written.2.1.exact.limited
  | waiting job piece state => exact written.1.start written.2.exact.log.limited
  | turning job piece state stopped => exact written.1.start written.2.1.exact.log.limited
  | returning =>
      obtain ⟨reply, replies, start, _⟩ := written
      exact ⟨reply, replies, start⟩

end Account

section Connection

open Connection

variable {library : Library} {actions : List (ConnectionAction Told)}

/-- What a connection has sent is the beginning of one error response or of one response to the request. -/
theorem sending_replies {trouble : Prop} {connection : Connection Place} {arrived : Bytes}
    (sending : connection.Sending trouble (Written library trouble) (Ends library trouble) arrived) :
    (∃ status ∈ ownErrors, connection.outgoing <+: buildErrorResponse status 0) ∨
      ∃ request reply, Asked arrived request ∧ Replies library request reply ∧ connection.outgoing <+: reply := by
  unfold Sending at sending
  split at sending
  · obtain ⟨_, _, fresh⟩ := sending
    exact .inl ⟨.badRequest, by simp [ownErrors], fresh ▸ List.nil_prefix⟩
  · rename_i rest _
    obtain ⟨_, status, own, whole⟩ := sending
    exact .inl ⟨status, own, rest, whole⟩
  · obtain ⟨request, asked, written, _⟩ := sending
    obtain ⟨reply, replies, start⟩ := written.start
    exact .inr ⟨request, reply, asked, replies, start⟩
  · obtain ⟨request, asked, written, _⟩ := sending
    obtain ⟨reply, replies, start⟩ := written.start
    exact .inr ⟨request, reply, asked, replies, (List.prefix_append _ _).trans start⟩
  · rename_i rest _
    exact .inl ⟨.internalServerError, internalServerError_own, rest, sending.2⟩
  · cases wrote : (connection.wroteResponse : Bool) with
    | false => exact .inl (sending.1 wrote)
    | true =>
        obtain ⟨request, asked, reply, replies, start, _⟩ := sending.2 wrote
        exact .inr ⟨request, reply, asked, replies, start⟩

/-- In every run, whatever the client, the socket, the monitor, the server, the worker of the stream and
its demands do: a connection sends one error response, or the beginning of one response to the request
that the client sent, whose body is the range of the file that its head announces. -/
theorem handleHttp_sends (runs : Transition.Runs (Allowed (fun place told => told.Honest library True place) True)
      (Connection.perform handleHttp) {} actions) :
    let connection := after handleHttp actions
    (∃ status ∈ ownErrors, connection.outgoing <+: buildErrorResponse status 0) ∨
      ∃ request reply, Asked (arrivals actions) request ∧ Replies library request reply ∧
        connection.outgoing <+: reply :=
  sending_replies (serves_after (handleHttp_accounts library True) runs).sending

/-- When nothing goes wrong, the response is complete once the connection is finished. -/
theorem handleHttp_completes (runs : Transition.Runs (Allowed (fun place told => told.Honest library False place) False)
      (Connection.perform handleHttp) {} actions) (finished : (after handleHttp actions).phase = .finished)
    (wrote : (after handleHttp actions).wroteResponse = true) :
    ∃ request, Asked (arrivals actions) request ∧ Replies library request (after handleHttp actions).outgoing := by
  have serves := (serves_after (handleHttp_accounts library False) runs).sending
  unfold Sending at serves
  rw [finished] at serves
  obtain ⟨request, asked, reply, replies, _, whole⟩ := serves.2 wrote
  exact ⟨request, asked, (whole id).symm ▸ replies⟩

/-- A torrent whose bytes are all seven. -/
def sevens (_ : String) (_ : Nat) : UInt8 := 7

def sevensRoute : StreamRoute where
  handle := 0
  torrentId := "t"
  streamId := "s"
  target := "/stream/s"
  contentType := "video/mp4"
  fileIndex := 0
  pieceSize := 4
  fileOffset := 3
  fileSize := 8
  payloadPath := ""

/-- Its files are those of its torrent. -/
def sevensLibrary : Library where
  content := sevens
  known := InTorrent
  inTorrent := fun _ lies => lies

def rangeHead : Bytes := bytes "GET /stream/s HTTP/1.1\r\nRange: bytes=2-5\r\n\r\n"

/-- Four bytes of a file: three from a block of the payload file and one from a verified piece. -/
def rangeServed : List (ConnectionAction Told) := [
  .arrive rangeHead, .receive (.chunk rangeHead), .handle { routes := [sevensRoute] }, .handle {},
  .send (.written 300), .send (.written 10), .send .interrupted, .watch .idle,
  .handle {}, .handle {}, .handle {}, .handle {},
  .handle { round := { actions := [.publish [true]], file := some fun _ => 7 } },
  .send (.written 2), .send (.written 1), .send .interrupted, .handle {}, .handle {}, .handle {}, .handle {},
  .handle { round := { actions := [.complete (some [7, 7, 7, 7]) ""] } },
  .send (.written 1), .send .interrupted, .handle {}]

/-- The step of the handler is smooth where it stands. -/
def SmoothStep (connection : Connection Place) : ConnectionAction Told → Prop
  | .handle told => ∀ place ∈ connection.phase.handled, told.Smooth place
  | .arrive _ | .disconnect | .fail | .stopServer | .receive _ | .send _ | .watch _ => True

instance (connection : Connection Place) : DecidablePred (SmoothStep connection)
  | .handle told => inferInstanceAs (Decidable (∀ place ∈ connection.phase.handled, told.Smooth place))
  | .arrive _ | .disconnect | .fail | .stopServer | .receive _ | .send _ | .watch _ => instDecidableTrue

def OfSevens : ConnectionAction Told → Prop
  | .handle told => ∀ place, told.Genuine sevensLibrary place
  | .arrive _ | .disconnect | .fail | .stopServer | .receive _ | .send _ | .watch _ => True

theorem ofSevens {told : Told} (inTorrent : ∀ route ∈ told.routes, InTorrent route)
    (verified : ∀ data error, WorkerAction.complete (some data) error ∈ told.round.actions →
      ∀ byte ∈ data, byte = 7)
    (payload : ∀ contents, told.round.file = some contents → ∀ offset, contents offset = 7) :
    OfSevens (.handle told) := by
  intro place
  cases place with
  | looking request => exact inTorrent
  | turning job piece state stopped =>
      refine ⟨fun data error member index below => ?_, fun contents there position _ _ => payload contents there _⟩
      rw [List.getD_eq_getElem?_getD, List.getElem?_eq_getElem below]
      exact verified data error member _ (List.getElem_mem below)
  | demanding | entering | pieces | testing | waiting | returning => trivial

theorem rangeServed_ofSevens : ∀ action ∈ rangeServed, OfSevens action := by
  have inTorrent : InTorrent sevensRoute := by constructor <;> decide
  have idle : OfSevens (.handle {}) := ofSevens (by simp) (by simp) (by simp)
  simp only [rangeServed, List.forall_mem_cons, idle, true_and]
  refine ⟨trivial, trivial, ?_, trivial, trivial, trivial, trivial, ?_, trivial, trivial, trivial, ?_, trivial,
    trivial, by simp⟩
  · exact ofSevens (by simpa using inTorrent) (by simp) (by simp)
  · exact ofSevens (by simp) (by simp) (by simp)
  · exact ofSevens (by simp) (by simp) (by simp)

theorem rangeServed_smooth : Transition.Runs (Allowed (fun place told => told.Honest sevensLibrary False place) False)
    (Connection.perform handleHttp) {} rangeServed := by
  have steps : Transition.Runs (fun connection action => Possible connection action ∧ action.Steady ∧
      SmoothStep connection action) (Connection.perform handleHttp) {} rangeServed := by
    decide +kernel
  refine steps.mono fun connection action member step => ?_
  obtain ⟨possible, steady, smooth⟩ := step
  refine ⟨possible, ?_, .inr steady⟩
  have sevens := rangeServed_ofSevens action member
  cases action with
  | handle told =>
      intro place here
      refine ⟨sevens place, .inr ?_⟩
      exact smooth place here
  | arrive | disconnect | fail | stopServer | receive | send | watch => trivial

/-- The client leaves when it has two bytes of the body. -/
def rangeCut : List (ConnectionAction Told) :=
  rangeServed.take 14 ++ [.disconnect, .watch .hangup, .send .interrupted, .handle {}]

theorem rangeCut_ofSevens : ∀ action ∈ rangeCut, OfSevens action := by
  have idle : OfSevens (.handle {}) := ofSevens (by simp) (by simp) (by simp)
  intro action member
  rcases List.mem_append.mp member with before | last
  · exact rangeServed_ofSevens action (List.mem_of_mem_take before)
  · have cases : action = .disconnect ∨ action = .watch .hangup ∨ action = .send .interrupted ∨
        action = .handle {} := by simpa using last
    rcases cases with rfl | rfl | rfl | rfl
    · trivial
    · trivial
    · trivial
    · exact idle

theorem rangeCut_honest : Transition.Runs (Allowed (fun place told => told.Honest sevensLibrary True place) True)
    (Connection.perform handleHttp) {} rangeCut := by
  have steps : Transition.Runs Possible (Connection.perform handleHttp) {} rangeCut := by decide +kernel
  refine steps.mono fun connection action member possible => ⟨possible, ?_, .inl trivial⟩
  have sevens := rangeCut_ofSevens action member
  cases action with
  | handle told => exact fun place here => ⟨sevens place, .inl trivial⟩
  | arrive | disconnect | fail | stopServer | receive | send | watch => trivial

theorem handleHttp_sends_cut :
    (∃ status ∈ ownErrors, (after handleHttp rangeCut).outgoing <+: buildErrorResponse status 0) ∨
      ∃ request reply, Asked (arrivals rangeCut) request ∧ Replies sevensLibrary request reply ∧
        (after handleHttp rangeCut).outgoing <+: reply :=
  handleHttp_sends rangeCut_honest

theorem handleHttp_completes_range :
    ∃ request, Asked (arrivals rangeServed) request ∧
      Replies sevensLibrary request (after handleHttp rangeServed).outgoing :=
  handleHttp_completes rangeServed_smooth (Phase.eq_finished (by decide +kernel)) (by decide +kernel)

end Connection

end NuvioEngine.Stream
