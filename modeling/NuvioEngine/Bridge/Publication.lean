import NuvioEngine.Bridge.Fading
import NuvioEngine.Bridge.PublicationCore

/-!
Block publication is coherent: what a waiter knows of the blocks of its piece is what the bridge knows,
and the bridge knows of a block only from a snapshot or an alert that no hash failure has withdrawn.
-/

namespace NuvioEngine.Bridge

open NuvioEngine.Scheduler NuvioEngine.Stream NuvioEngine.Cache BridgeState

theorem eventsOf_append (key : PieceKey) (history more : List (PieceKey × BlockEvent)) :
    eventsOf key (history ++ more) = eventsOf key history ++ eventsOf key more :=
  List.filterMap_append

theorem eventsOf_self (key : PieceKey) (history : List (PieceKey × BlockEvent)) (event : BlockEvent) :
    eventsOf key (history ++ [(key, event)]) = eventsOf key history ++ [event] := by
  rw [eventsOf_append]
  simp [eventsOf]

theorem eventsOf_ne {key other : PieceKey} (different : key ≠ other)
    (history : List (PieceKey × BlockEvent)) (event : BlockEvent) :
    eventsOf other (history ++ [(key, event)]) = eventsOf other history := by
  rw [eventsOf_append]
  simp [eventsOf, different]

namespace Accounted

variable {piece : Nat} {events : List BlockEvent} {blocks : List Bool}

theorem reported (accounted : Accounted piece events blocks) (block : Nat) {next : List Bool}
    (length : next.length = blocks.length)
    (bits : ∀ query : Nat, next[query]? = some true → query = block ∨ blocks[query]? = some true) :
    Accounted piece (events ++ [.finished block]) next := by
  obtain ⟨earlier, pieceBytes, queue, later, rfl, last, sized, reasons⟩ := accounted
  refine ⟨earlier, pieceBytes, queue, later ++ [.finished block], by simp, ?_, length.trans sized, ?_⟩
  · intro bytes other member
    rcases List.mem_append.mp member with old | new
    · exact last bytes other old
    · simp at new
  · intro query set
    rcases bits query set with rfl | old
    · exact Or.inr ⟨later, [], rfl, List.not_mem_nil⟩
    · rcases reasons query old with ⟨written, clean⟩ | ⟨before, after, rfl, clean⟩
      · exact Or.inl ⟨written, by simp [clean]⟩
      · exact Or.inr ⟨before, after ++ [.finished block], by simp, by simp [clean]⟩

theorem failed (accounted : Accounted piece events blocks) :
    Accounted piece (events ++ [.hashFailed]) (blocks.map fun _ => false) := by
  obtain ⟨earlier, pieceBytes, queue, later, rfl, last, sized, _⟩ := accounted
  refine ⟨earlier, pieceBytes, queue, later ++ [.hashFailed], by simp, ?_,
    by rw [List.length_map, sized], ?_⟩
  · intro bytes other member
    rcases List.mem_append.mp member with old | new
    · exact last bytes other old
    · simp at new
  · intro block set
    rw [List.getElem?_map] at set
    cases found : blocks[block]? with
    | none => simp [found] at set
    | some bit => simp [found] at set

end Accounted

section Snapshot

variable {piece : Nat}

theorem writtenFold_spec (queue : List PartialPiece) (start : List Bool) :
    let blocks := queue.foldl (fun blocks entry =>
      if entry.pieceIndex ≠ piece then blocks
      else entry.blocks.take blocks.length ++ blocks.drop entry.blocks.length) start
    blocks.length = start.length ∧
      ∀ block : Nat, blocks[block]? = some true → start[block]? = some true ∨ Written queue piece block := by
  induction queue generalizing start with
  | nil => exact ⟨rfl, fun _ set => Or.inl set⟩
  | cons entry rest ih =>
      simp only [List.foldl_cons]
      have behind : ∀ block, Written rest piece block → Written (entry :: rest) piece block := by
        rintro block ⟨other, member, facts⟩
        exact ⟨other, List.mem_cons_of_mem _ member, facts⟩
      split
      · obtain ⟨length, bits⟩ := ih start
        exact ⟨length, fun block set => (bits block set).imp id (behind block)⟩
      · rename_i same
        obtain ⟨length, bits⟩ :=
          ih (entry.blocks.take start.length ++ start.drop entry.blocks.length)
        refine ⟨by rw [length]; simp; omega, fun block set => ?_⟩
        rcases bits block set with first | later
        · rw [List.getElem?_append] at first
          split at first
          · rename_i inside
            rw [List.getElem?_take] at first
            split at first
            · exact Or.inr ⟨entry, List.mem_cons_self, not_not.mp same, first⟩
            · simp at first
          · rename_i outside
            simp only [List.length_take] at first outside
            rw [List.getElem?_drop] at first
            by_cases short : entry.blocks.length ≤ start.length
            · left
              rw [← first]
              congr 1
              omega
            · rw [List.getElem?_eq_none (by omega)] at first
              simp at first
        · exact Or.inr (behind block later)

theorem writtenBlocks_accounted (lt : Libtorrent) (handle : Nat) (metadata : TorrentInfo)
    (events : List BlockEvent) :
    Accounted piece (events ++ [.snapshot (metadata.pieceSize piece) (lt.readQueue handle)])
      (writtenBlocks lt handle metadata piece) := by
  obtain ⟨length, bits⟩ := @writtenFold_spec piece (lt.readQueue handle)
    (List.replicate ((metadata.pieceSize piece + blockBytes - 1) / blockBytes) false)
  have written : writtenBlocks lt handle metadata piece = (lt.readQueue handle).foldl
      (fun blocks entry => if entry.pieceIndex ≠ piece then blocks
        else entry.blocks.take blocks.length ++ blocks.drop entry.blocks.length)
      (List.replicate ((metadata.pieceSize piece + blockBytes - 1) / blockBytes) false) := by
    unfold writtenBlocks Libtorrent.readQueue
    cases lt.downloadQueue handle with
    | ok queue => rfl
    | error thrown => rfl
  rw [← written] at length bits
  refine ⟨events, _, _, [], rfl, by simp, by rw [length, List.length_replicate], fun block set => ?_⟩
  rcases bits block set with start | found
  · rw [List.getElem?_replicate] at start
    split at start <;> simp at start
  · exact Or.inl ⟨found, List.not_mem_nil⟩

end Snapshot

/-- What the bridge knows of the waiters: held ones are numbered below `bound` and see their entry,
queued ones are new, and every entry is accounted for. -/
structure Posted (bound : Nat) (history : List (PieceKey × BlockEvent)) (state : BridgeState)
    (queue : List HttpCommand) : Prop where
  held : ∀ key waiter, Held state key waiter → waiter < bound
  unique : ∀ first second waiter, Held state first waiter → Held state second waiter → first = second
  queued : ∀ command ∈ queue, command.type = .readPiece → ∀ waiter, command.waiter = some waiter →
    waiter < bound ∧ (∀ key, ¬ Held state key waiter) ∧
      (finished (state.waiters waiter) = false → (state.waiters waiter).finishedBlocks = [])
  distinct : queue.Pairwise fun first second => first.type = .readPiece → second.type = .readPiece →
    ∀ waiter, first.waiter = some waiter → second.waiter ≠ some waiter
  shown : ∀ key waiter, Held state key waiter → finished (state.waiters waiter) = false →
    (state.waiters waiter).finishedBlocks = [] ∨
      state.partialBlocks.lookup key = some (state.waiters waiter).finishedBlocks
  entries : ∀ key blocks, state.partialBlocks.lookup key = some blocks →
    Accounted key.piece (eventsOf key history) blocks

namespace Posted

variable {bound : Nat} {history : List (PieceKey × BlockEvent)} {state next : BridgeState}
  {queue rest : List HttpCommand} {command : HttpCommand}

theorem fades (posted : Posted bound history state queue) (fades : Fades (fun _ => False) state next) :
    Posted bound history next queue := by
  refine ⟨fun key waiter now => posted.held key waiter (fades.drops key waiter now), ?_, ?_,
    posted.distinct, ?_, ?_⟩
  · intro first second waiter left right
    exact posted.unique first second waiter (fades.drops first waiter left)
      (fades.drops second waiter right)
  · intro command member kind waiter own
    obtain ⟨below, unheld, empty⟩ := posted.queued command member kind waiter own
    refine ⟨below, fun key now => unheld key (fades.drops key waiter now), fun pending => ?_⟩
    rw [fades.blocks waiter pending]
    exact empty (fades.live pending)
  · intro key waiter now pending
    rw [fades.blocks waiter pending]
    rcases fades.entries key with same | ⟨_, reason⟩
    · rw [same]
      exact posted.shown key waiter (fades.drops key waiter now) (fades.live pending)
    · rw [reason.resolve_left id waiter now] at pending
      simp at pending
  · intro key blocks found
    rcases fades.entries key with same | ⟨gone, _⟩
    · exact posted.entries key blocks (same ▸ found)
    · rw [gone] at found
      simp at found

theorem shorten (posted : Posted bound history state queue) {fewer : List HttpCommand}
    (sublist : fewer.Sublist queue) : Posted bound history state fewer :=
  ⟨posted.held, posted.unique, fun command member => posted.queued command (sublist.subset member),
    posted.distinct.sublist sublist, posted.shown, posted.entries⟩

theorem holdWaiter (posted : Posted bound history state (command :: rest))
    (kind : command.type = .readPiece) {waiter : Nat} (own : command.waiter = some waiter)
    (key : PieceKey) : Posted bound history (state.holdWaiter key waiter) rest := by
  obtain ⟨below, unheld, empty⟩ := posted.queued command List.mem_cons_self kind waiter own
  obtain ⟨apart, distinct⟩ := List.pairwise_cons.mp posted.distinct
  refine ⟨?_, ?_, ?_, distinct, ?_, posted.entries⟩
  · intro query other now
    rcases held_holdWaiter now with old | ⟨_, rfl⟩
    · exact posted.held query other old
    · exact below
  · intro first second other left right
    rcases held_holdWaiter left with old | ⟨same, rfl⟩
    · rcases held_holdWaiter right with also | ⟨_, rfl⟩
      · exact posted.unique first second other old also
      · exact absurd old (unheld first)
    · rcases held_holdWaiter right with also | ⟨also, _⟩
      · exact absurd also (unheld second)
      · rw [same, also]
  · intro other member reads asker asks
    obtain ⟨under, free, blank⟩ := posted.queued other (List.mem_cons_of_mem _ member) reads asker asks
    refine ⟨under, fun query now => ?_, blank⟩
    rcases held_holdWaiter now with old | ⟨_, rfl⟩
    · exact free query old
    · exact apart other member kind reads asker own asks
  · intro query other now pending
    rcases held_holdWaiter now with old | ⟨_, rfl⟩
    · exact posted.shown query other old pending
    · exact Or.inl (empty pending)

/-- Waiters of one piece are told its new entry; the ones that are not told know nothing or know it. -/
theorem publish (posted : Posted bound history state queue) {longer : List (PieceKey × BlockEvent)}
    {key : PieceKey} {blocks : List Bool} {told : List Nat}
    (pieceWaiters : next.pieceWaiters = state.pieceWaiters)
    (heap : ∀ waiter, next.waiters waiter = if waiter ∈ told then
      Stream.publishBlocks (state.waiters waiter) blocks else state.waiters waiter)
    (entry : next.partialBlocks.lookup key = some blocks)
    (others : ∀ other, other ≠ key →
      next.partialBlocks.lookup other = state.partialBlocks.lookup other)
    (ours : ∀ waiter ∈ told, Held state key waiter)
    (untold : ∀ waiter, Held state key waiter → waiter ∉ told →
      finished (state.waiters waiter) = false → (state.waiters waiter).finishedBlocks = [] ∨
        (state.waiters waiter).finishedBlocks = blocks)
    (accounted : Accounted key.piece (eventsOf key longer) blocks)
    (unrelated : ∀ other, other ≠ key → eventsOf other longer = eventsOf other history) :
    Posted bound longer next queue := by
  have same : ∀ query waiter, Held next query waiter ↔ Held state query waiter := by
    intro query waiter
    rw [Held, Held, pieceWaiters]
  have spared : ∀ query waiter, query ≠ key → Held state query waiter →
      next.waiters waiter = state.waiters waiter := by
    intro query waiter different holds
    rw [heap, if_neg]
    exact fun member => different (posted.unique query key waiter holds (ours waiter member))
  refine ⟨fun query waiter now => posted.held query waiter ((same query waiter).mp now), ?_, ?_,
    posted.distinct, ?_, ?_⟩
  · intro first second waiter left right
    exact posted.unique first second waiter ((same first waiter).mp left) ((same second waiter).mp right)
  · intro command member kind waiter own
    obtain ⟨below, unheld, empty⟩ := posted.queued command member kind waiter own
    refine ⟨below, fun query now => unheld query ((same query waiter).mp now), ?_⟩
    rw [heap, if_neg fun member => unheld key (ours waiter member)]
    exact empty
  · intro query waiter now pending
    have holds := (same query waiter).mp now
    by_cases place : query = key
    · subst place
      rw [entry, Option.some.injEq]
      rw [heap] at pending ⊢
      split at pending
      · rename_i member
        rw [if_pos member]
        right
        unfold Stream.publishBlocks at pending ⊢
        split
        · rename_i past
          rw [if_pos past, finished, past] at pending
          simp at pending
        · rfl
      · rename_i absent
        rw [if_neg absent]
        exact (untold waiter holds absent pending).imp_right Eq.symm
    · rw [spared query waiter place holds] at pending ⊢
      rw [others query place]
      exact posted.shown query waiter holds pending
  · intro query found present
    by_cases place : query = key
    · subst place
      rw [entry, Option.some.injEq] at present
      rw [← present]
      exact accounted
    · rw [others query place] at present
      rw [unrelated query place]
      exact posted.entries query found present

theorem publishWritten (posted : Posted bound history state queue) (lt : Libtorrent) (handle : Nat)
    (metadata : TorrentInfo) {key : PieceKey} {waiter : Nat} (holds : Held state key waiter) :
    Posted bound (history ++ if state.partialBlocks.lookup key = none then
        [(key, .snapshot (metadata.pieceSize key.piece) (lt.readQueue handle))] else [])
      (state.publishWritten lt handle metadata key waiter) queue := by
  have told : ∀ (blocks : List Bool) other, (Function.update state.waiters waiter
      (Stream.publishBlocks (state.waiters waiter) blocks)) other =
      if other ∈ [waiter] then Stream.publishBlocks (state.waiters other) blocks
      else state.waiters other := by
    intro blocks other
    by_cases same : other = waiter
    · subst same
      simp
    · simp [same]
  have ours : ∀ other ∈ [waiter], Held state key other := by
    intro other member
    rw [List.mem_singleton.mp member]
    exact holds
  unfold BridgeState.publishWritten
  cases found : state.partialBlocks.lookup key with
  | some blocks =>
      simp only [reduceCtorEq, if_false, List.append_nil]
      refine posted.publish rfl (told blocks) found (fun _ _ => rfl) ours ?_
        (posted.entries key blocks found) fun _ _ => rfl
      intro other place _ pending
      have seen := posted.shown key other place pending
      rw [found, Option.some.injEq] at seen
      exact seen.imp_right Eq.symm
  | none =>
      simp only [if_true]
      refine posted.publish rfl (told _) (AList.lookup_insert _) ?_ ours ?_ ?_ ?_
      · intro other different
        exact AList.lookup_insert_ne different
      · intro other place _ pending
        have seen := posted.shown key other place pending
        rw [found] at seen
        simp only [reduceCtorEq, or_false] at seen
        exact Or.inl seen
      · rw [eventsOf_self]
        exact writtenBlocks_accounted lt handle metadata _
      · intro other different
        exact eventsOf_ne (Ne.symm different) _ _

theorem publishAll_waiters (blocks : List Bool) (waiters : List Nat) (state : BridgeState) (waiter : Nat) :
    (waiters.foldl (fun current waiter => current.publishBlocks blocks waiter) state).waiters waiter =
      if waiter ∈ waiters then Stream.publishBlocks (state.waiters waiter) blocks
      else state.waiters waiter := by
  have twice : ∀ waiting : PieceWaiter, Stream.publishBlocks (Stream.publishBlocks waiting blocks) blocks =
      Stream.publishBlocks waiting blocks := by
    intro waiting
    unfold Stream.publishBlocks
    split <;> simp
  induction waiters generalizing state with
  | nil => rfl
  | cons first rest ih =>
      rw [List.foldl_cons, ih]
      simp only [BridgeState.publishBlocks, List.mem_cons]
      by_cases same : waiter = first
      · subst same
        simp [twice]
      · simp [same]

theorem setBlocks (posted : Posted bound history state queue) {key : PieceKey} {blocks : List Bool}
    {event : BlockEvent}
    (accounted : Accounted key.piece (eventsOf key history ++ [event]) blocks) :
    Posted bound (history ++ [(key, event)]) ((state.setBlocks key blocks).publishPartial key) queue := by
  have stored : (state.setBlocks key blocks).partialBlocks.lookup key = some blocks :=
    AList.lookup_insert _
  have kept := publishPartial_sameWaits (state.setBlocks key blocks) key
  have heap : ∃ told : List Nat, (∀ waiter, ((state.setBlocks key blocks).publishPartial key).waiters waiter =
      if waiter ∈ told then Stream.publishBlocks (state.waiters waiter) blocks
      else state.waiters waiter) ∧ ∀ waiter, waiter ∈ told ↔ Held state key waiter := by
    unfold publishPartial
    cases waits : (state.setBlocks key blocks).pieceWaiters.lookup key with
    | none =>
        refine ⟨[], by simp [BridgeState.setBlocks], fun waiter => ?_⟩
        simp only [List.not_mem_nil, false_iff]
        rintro ⟨list, present, _⟩
        exact Option.some_ne_none list (present.symm.trans waits)
    | some waiters =>
        refine ⟨waiters, fun waiter => ?_, fun waiter => ⟨fun member => ⟨waiters, waits, member⟩, ?_⟩⟩
        · rw [stored]
          exact publishAll_waiters blocks waiters _ waiter
        · rintro ⟨list, present, member⟩
          rw [Option.some.inj (waits.symm.trans present)]
          exact member
  obtain ⟨told, heap, ours⟩ := heap
  refine posted.publish kept.pieceWaiters heap (by rw [kept.partialBlocks, stored]) ?_
    (fun waiter member => (ours waiter).mp member) ?_ ?_ ?_
  · intro other different
    rw [kept.partialBlocks]
    exact AList.lookup_insert_ne different
  · intro waiter holds absent
    exact absurd ((ours waiter).mpr holds) absent
  · rw [eventsOf_self]
    exact accounted
  · intro other different
    exact eventsOf_ne (Ne.symm different) _ _

theorem note (posted : Posted bound history state queue) {key : PieceKey} {event : BlockEvent}
    (accounts : ∀ blocks, state.partialBlocks.lookup key = some blocks →
      Accounted key.piece (eventsOf key history ++ [event]) blocks) :
    Posted bound (history ++ [(key, event)]) state queue := by
  refine ⟨posted.held, posted.unique, posted.queued, posted.distinct, posted.shown, ?_⟩
  intro query blocks found
  by_cases place : query = key
  · subst place
    rw [eventsOf_self]
    exact accounts blocks found
  · rw [eventsOf_ne (Ne.symm place)]
    exact posted.entries query blocks found

theorem handleBlockFinished (posted : Posted bound history state queue) (lt : Libtorrent)
    (torrentId : String) (piece block : Nat) :
    Posted bound (history ++ [(⟨torrentId, piece⟩, .finished block)])
      (handleBlockFinished lt state torrentId piece block) queue := by
  unfold BridgeState.handleBlockFinished
  simp only
  split
  · rename_i absent
    refine posted.note fun blocks found => ?_
    rw [absent] at found
    simp at found
  · rename_i blocks found
    have accounted := posted.entries _ blocks found
    split
    · refine posted.note fun other present => ?_
      rw [found, Option.some.injEq] at present
      subst present
      exact accounted.reported block rfl fun _ set => Or.inr set
    · have set := @Posted.setBlocks _ _ _ _ posted ⟨torrentId, piece⟩ (blocks.set block true) _
        (accounted.reported block List.length_set fun query bit => by
          by_cases same : query = block
          · exact Or.inl same
          · rw [List.getElem?_set_ne (Ne.symm same)] at bit
            exact Or.inr bit)
      split
      · exact set
      · exact set.fades (recomputeSchedule_withdraws lt torrentId _).fades

theorem handleHashFailed (posted : Posted bound history state queue) (torrentId : String) (piece : Nat) :
    Posted bound (history ++ [(⟨torrentId, piece⟩, .hashFailed)])
      (state.handleHashFailed torrentId piece) queue := by
  unfold BridgeState.handleHashFailed
  simp only
  split
  · rename_i absent
    refine posted.note fun blocks found => ?_
    rw [absent] at found
    simp at found
  · rename_i blocks found
    exact posted.setBlocks (posted.entries _ blocks found).failed

end Posted

/-- No entry is made. -/
def Sparse (before after : BridgeState) : Prop :=
  ∀ key, after.partialBlocks.lookup key = before.partialBlocks.lookup key ∨
    after.partialBlocks.lookup key = none

theorem Fades.sparse {cleared : PieceKey → Prop} {before after : BridgeState}
    (fades : Fades cleared before after) : Sparse before after :=
  fun key => (fades.entries key).imp_right And.left

theorem Sparse.snapshotOf {before after : BridgeState} (sparse : Sparse before after) (lt : Libtorrent)
    (command : HttpCommand) : snapshotOf lt command before after = [] := by
  unfold Bridge.snapshotOf
  simp only
  rw [if_neg]
  rintro ⟨absent, present⟩
  rcases sparse ⟨command.route.torrentId, command.piece⟩ with same | gone
  · exact present (same.trans absent)
  · exact present gone

section Commands

variable {bound : Nat} {history : List (PieceKey × BlockEvent)} {state : BridgeState}
  {rest : List HttpCommand} {command : HttpCommand}

theorem Posted.silent (posted : Posted bound history state (command :: rest)) (lt : Libtorrent)
    {next : BridgeState} (fades : Fades (fun _ => False) state next) :
    Posted bound (history ++ snapshotOf lt command state next) next rest := by
  rw [fades.sparse.snapshotOf, List.append_nil]
  exact (posted.fades fades).shorten (List.sublist_cons_self command rest)

theorem snapshotOf_publishWritten {lt : Libtorrent} {metadata : TorrentInfo}
    (known : lt.torrentFile command.route.handle = .ok (some metadata)) (waiter : Nat) :
    snapshotOf lt command state (state.publishWritten lt command.route.handle metadata
        ⟨command.route.torrentId, command.piece⟩ waiter) =
      if state.partialBlocks.lookup ⟨command.route.torrentId, command.piece⟩ = none then
        [(⟨command.route.torrentId, command.piece⟩,
          .snapshot (metadata.pieceSize command.piece) (lt.readQueue command.route.handle))]
      else [] := by
  unfold snapshotOf publishWritten
  simp only [known]
  cases found : state.partialBlocks.lookup ⟨command.route.torrentId, command.piece⟩ with
  | some blocks => simp
  | none => simp [BridgeState.publishBlocks, AList.lookup_insert]

theorem Posted.awaitPiece (posted : Posted bound history state (command :: rest)) {lt : Libtorrent}
    {metadata : TorrentInfo} (kind : command.type = .readPiece)
    (known : lt.torrentFile command.route.handle = .ok (some metadata)) {waiter : Nat}
    (own : command.waiter = some waiter) :
    Posted bound (history ++ snapshotOf lt command state (state.awaitPiece lt metadata command waiter))
      (state.awaitPiece lt metadata command waiter) rest := by
  have holds := posted.holdWaiter kind own ⟨command.route.torrentId, command.piece⟩
  have mine := held_holdWaiter_self state ⟨command.route.torrentId, command.piece⟩ waiter
  change Posted bound (history ++ snapshotOf lt command
    (state.holdWaiter ⟨command.route.torrentId, command.piece⟩ waiter) _) _ rest
  unfold BridgeState.awaitPiece
  simp only
  generalize state.holdWaiter ⟨command.route.torrentId, command.piece⟩ waiter = held at holds mine
  have marks := setNeedsData_withdraws held command.demandId
    (!held.pieceAvailable lt command.route command.piece)
  have waits := setNeedsData_sameWaits held command.demandId
    (!held.pieceAvailable lt command.route command.piece)
  split
  · have reads := (marks.trans (requestRead_withdraws lt _ command.route.handle
      ⟨command.route.torrentId, command.piece⟩)).fades
    rw [reads.sparse.snapshotOf, List.append_nil]
    exact holds.fades reads
  · generalize held.setNeedsData command.demandId
      (!held.pieceAvailable lt command.route command.piece) = marked at marks waits
    have same : ∀ after, snapshotOf lt command held after = snapshotOf lt command marked after := by
      intro after
      rw [snapshotOf, snapshotOf, waits.partialBlocks]
    have still : Held marked ⟨command.route.torrentId, command.piece⟩ waiter := by
      rw [Held, waits.pieceWaiters]
      exact mine
    rw [same, snapshotOf_publishWritten known]
    exact (holds.fades marks.fades).publishWritten lt command.route.handle metadata still

theorem Posted.processPieceRequest (posted : Posted bound history state (command :: rest))
    (lt : Libtorrent) (kind : command.type = .readPiece) :
    Posted bound (history ++ snapshotOf lt command state (state.processPieceRequest lt command).1)
      (state.processPieceRequest lt command).1 rest := by
  have completed : ∀ data error waiter (current : BridgeState), Fades (fun _ => False) current
      (current.completeWaiter data error waiter) := fun data error waiter current =>
    completeWaiters_fades current _ data error [waiter]
  unfold BridgeState.processPieceRequest
  split
  · exact posted.silent lt (Fades.refl state)
  · rename_i waiter own
    split
    · exact posted.silent lt (completed _ _ waiter state)
    · split
      · exact posted.silent lt (Fades.refl state)
      · exact posted.silent lt (completed _ _ waiter state)
      · rename_i metadata known
        split
        · exact posted.silent lt (completed _ _ waiter state)
        · split
          · refine posted.silent lt (Fades.trans ?_ (completed _ _ waiter _))
            refine Fades.trans ?_ (setNeedsData_withdraws _ command.demandId false).fades
            exact Fades.same rfl rfl rfl
          · rename_i cache _
            have kept : Posted bound history { state with pieceCache := cache } (command :: rest) :=
              posted.fades (Fades.same rfl rfl rfl)
            exact kept.awaitPiece kind known own

theorem Posted.processCommand (posted : Posted bound history state (command :: rest)) (lt : Libtorrent) :
    Posted bound (history ++ snapshotOf lt command state (state.processCommand lt command).1)
      (state.processCommand lt command).1 rest := by
  unfold BridgeState.processCommand
  cases kind : command.type with
  | beginDemand =>
      refine posted.silent lt ?_
      simp only [beginDemand]
      split
      · exact Fades.same rfl rfl rfl
      · exact (cancelDemandState_withdraws state _).fades
  | endDemand =>
      refine posted.silent lt ?_
      simp only [endDemand]
      split
      · exact Fades.refl state
      · exact Fades.same rfl rfl rfl
  | readPiece =>
      simp only [BridgeState.readPiece]
      split
      · refine posted.silent lt ?_
        split
        · exact Fades.refl state
        · rename_i waiter _
          exact completeWaiters_fades state _ none _ [waiter]
      · rename_i demand _
        have moved : Posted bound history (state.moveDemand command.demandId demand command.range)
            (command :: rest) := posted.fades (Fades.same rfl rfl rfl)
        exact moved.processPieceRequest lt kind

theorem Posted.processCommands (answers : Nat → Libtorrent) {queue : List HttpCommand}
    (posted : Posted bound history state queue) (position : Nat) (changed : List String) :
    Posted bound (history ++ snapshotsOf answers position queue state)
      (processCommands answers position queue state changed).1 [] := by
  induction queue generalizing state history position changed with
  | nil =>
      rw [snapshotsOf, List.append_nil]
      exact posted
  | cons command rest ih =>
      have processed := posted.processCommand (answers position)
      rw [BridgeState.processCommands, snapshotsOf, ← List.append_assoc]
      split
      · rw [List.append_nil]
        exact processed.shorten (List.nil_sublist rest)
      · exact ih processed _ _

theorem Posted.poll (posted : Posted bound history state state.commands) (answers : PollAnswers) :
    Posted bound (history ++ snapshotsOf answers.command 0 state.commands { state with commands := [] })
      (state.poll answers).1 [] := by
  have emptied : Posted bound history { state with commands := [] } state.commands :=
    posted.fades (Fades.same rfl rfl rfl)
  have processed := emptied.processCommands answers.command 0 []
  unfold BridgeState.poll
  simp only
  split
  · exact processed
  · refine Posted.fades ?_ (expireInactiveStreams_withdraws _ _ _).fades
    refine Posted.fades ?_ (reissueStalledReads_withdraws _ _).fades
    refine Posted.fades ?_ (recomputeAll_withdraws _ _ _).fades
    exact processed.fades (dropWaiters_fades _ _)

end Commands

section Run

variable {bound : Nat} {history : List (PieceKey × BlockEvent)} {state next : BridgeState}

theorem Posted.append {queue : List HttpCommand} (posted : Posted bound history state queue)
    {command : HttpCommand} (fresh : command.type = .readPiece → ∀ waiter, command.waiter = some waiter →
      waiter < bound ∧ (∀ key, ¬ Held state key waiter) ∧
        (finished (state.waiters waiter) = false → (state.waiters waiter).finishedBlocks = []))
    (apart : ∀ other ∈ queue, other.type = .readPiece → command.type = .readPiece → ∀ waiter,
      other.waiter = some waiter → command.waiter ≠ some waiter) :
    Posted bound history state (queue ++ [command]) := by
  refine ⟨posted.held, posted.unique, ?_, ?_, posted.shown, posted.entries⟩
  · intro other member
    rcases List.mem_append.mp member with old | new
    · exact posted.queued other old
    · rw [List.mem_singleton.mp new]
      exact fresh
  · rw [List.pairwise_append]
    refine ⟨posted.distinct, List.pairwise_singleton _ _, ?_⟩
    intro other member last new
    rw [List.mem_singleton.mp new]
    exact apart other member

theorem Posted.enqueue (posted : Posted bound history state state.commands) {command : HttpCommand}
    (queued : Posted bound history state (state.commands ++ [command])) :
    Posted bound history ((state.enqueue command).getD state)
      ((state.enqueue command).getD state).commands := by
  rcases enqueue_cases state command with same | same
  · rw [same]
    exact posted
  · rw [same]
    exact queued.fades (Fades.same rfl rfl rfl)

theorem Posted.beginRequest (posted : Posted bound history state state.commands) (route : StreamRoute)
    (bodyRange : ByteRange) : Posted bound history (state.beginRequest route bodyRange)
      (state.beginRequest route bodyRange).commands := by
  have numbered : Posted bound history { state with nextDemandId := state.nextDemandId + 1 }
      state.commands := posted.fades (Fades.same rfl rfl rfl)
  rcases beginRequest_cases state route bodyRange with same | ⟨range, _, same⟩
  · rw [same]
    exact numbered
  · rw [same]
    refine Posted.enqueue numbered (numbered.append ?_ ?_)
    · intro kind
      simp at kind
    · intro other _ _ kind
      simp at kind

theorem Posted.create {queue : List HttpCommand} (posted : Posted bound history state queue)
    (pieceWaiters : next.pieceWaiters = state.pieceWaiters)
    (partialBlocks : next.partialBlocks = state.partialBlocks)
    (older : ∀ waiter < bound, next.waiters waiter = state.waiters waiter) :
    Posted (bound + 1) history next queue := by
  have same : ∀ key waiter, Held next key waiter ↔ Held state key waiter := by
    intro key waiter
    rw [Held, Held, pieceWaiters]
  refine ⟨?_, ?_, ?_, posted.distinct, ?_, partialBlocks ▸ posted.entries⟩
  · intro key waiter now
    exact Nat.lt_succ_of_lt (posted.held key waiter ((same key waiter).mp now))
  · intro first second waiter left right
    exact posted.unique first second waiter ((same first waiter).mp left) ((same second waiter).mp right)
  · intro other member kind waiter asks
    obtain ⟨below, unheld, empty⟩ := posted.queued other member kind waiter asks
    refine ⟨Nat.lt_succ_of_lt below, fun key now => unheld key ((same key waiter).mp now), ?_⟩
    rw [older waiter below]
    exact empty
  · intro key waiter now
    have held := (same key waiter).mp now
    rw [older waiter (posted.held key waiter held), partialBlocks]
    exact posted.shown key waiter held

theorem Posted.readRequest (posted : Posted bound history state state.commands) {command : HttpCommand}
    (own : command.waiter = some bound) :
    Posted (bound + 1) history (state.readRequest command) (state.readRequest command).commands := by
  unfold BridgeState.readRequest
  simp only [own]
  have created : Posted (bound + 1) history { state with
      waiters := Function.update state.waiters bound { demandId := command.demandId } } state.commands :=
    posted.create rfl rfl fun waiter below => Function.update_of_ne (Nat.ne_of_lt below) _ _
  refine Posted.enqueue created (created.append ?_ ?_)
  · intro _ waiter asks
    rw [own] at asks
    obtain rfl := Option.some.inj asks
    refine ⟨Nat.lt_succ_self _, fun key now => Nat.lt_irrefl _ (posted.held key bound now), fun _ => ?_⟩
    simp
  · intro other member kind _ waiter asks
    rw [own]
    intro same
    obtain rfl := Option.some.inj same
    exact Nat.lt_irrefl _ (posted.queued other member kind _ asks).1

theorem Posted.endRequest (posted : Posted bound history state state.commands) (demandId : Nat) :
    Posted bound history (state.enqueueEnd demandId) (state.enqueueEnd demandId).commands := by
  have queued : Posted bound history state (state.commands ++ [⟨.endDemand, demandId,
      ⟨0, "", "", "", "", 0, 0, 0, 0, ""⟩, ⟨0, 0⟩, 0, none, none⟩]) :=
    posted.append (by simp) (by simp)
  exact queued.fades (Fades.same rfl rfl rfl)

end Run

namespace Publication

variable {publication : Publication}

/-- The invariant of a run. -/
def Coherent (publication : Publication) : Prop :=
  Posted publication.session.nextWaiter publication.history publication.bridge publication.bridge.commands

theorem Coherent.initial (begins : publication.Initial) : publication.Coherent := by
  obtain ⟨session, ⟨system, ⟨memoryCapacityBytes, diskCapacityBytes, inactivity, rfl⟩, rfl⟩, rfl⟩ := begins
  refine ⟨?_, ?_, by simp [bridge, Session.bridge, BridgeState.create], List.Pairwise.nil, ?_, ?_⟩
  · rintro key waiter ⟨list, found, _⟩
    simp [bridge, Session.bridge, BridgeState.create] at found
  · rintro first second waiter ⟨list, found, _⟩
    simp [bridge, Session.bridge, BridgeState.create] at found
  · rintro key waiter ⟨list, found, _⟩
    simp [bridge, Session.bridge, BridgeState.create] at found
  · intro key blocks found
    simp [bridge, Session.bridge, BridgeState.create] at found

theorem Coherent.work (coherent : publication.Coherent) {action : Action}
    (possible : publication.Possible (.work action)) : (publication.perform (.work action)).Coherent := by
  have posted : Posted publication.session.nextWaiter publication.history publication.bridge
    publication.bridge.commands := coherent
  have fading : Server.isWork action = true → (∀ answers, action ≠ .poll answers) →
      Fades (fun _ => False) publication.bridge (publication.bridge.perform action) →
      publication.events (.work action) = [] → (publication.perform (.work action)).Coherent := by
    intro works notPoll fades silent
    have commands := (perform_toils publication.bridge works notPoll).commands
    unfold Coherent Publication.perform
    rw [silent, List.append_nil]
    change Posted _ _ (publication.bridge.perform action) (publication.bridge.perform action).commands
    rw [commands]
    exact posted.fades fades
  cases action with
  | poll answers =>
      have emptied : (publication.bridge.poll answers).1.commands = [] :=
        (poll_works publication.bridge answers).commands
      change Posted _ _ (publication.bridge.poll answers).1 (publication.bridge.poll answers).1.commands
      rw [emptied]
      exact posted.poll answers
  | blockFinished lt torrentId piece block =>
      have told := posted.handleBlockFinished lt torrentId piece block
      rw [← (Works.ofLeaves (handleBlockFinished_leaves lt publication.bridge torrentId piece
        block)).commands] at told
      exact told
  | hashFailed torrentId piece =>
      have told := posted.handleHashFailed torrentId piece
      rw [← (Works.ofLeaves (handleHashFailed_leaves publication.bridge torrentId piece)).commands] at told
      exact told
  | beginRequest route bodyRange =>
      have begun := posted.beginRequest route bodyRange
      rw [← List.append_nil publication.history] at begun
      exact begun
  | readRequest command => exact absurd possible id
  | endRequest demandId =>
      have ended := posted.endRequest demandId
      rw [← List.append_nil publication.history] at ended
      exact ended
  | abandonWaiter waiter =>
      have abandoned := posted.fades (abandonWaiter_fades publication.bridge waiter)
      rw [← List.append_nil publication.history] at abandoned
      exact abandoned
  | register lt token handle id fileIndex file | stop lt streamId | remove lt id | popExpired
  | readPieceAlert alert | acquireRequest streamId | releaseRequest streamId now =>
      exact fading rfl (by simp) (perform_fades rfl (by simp) (by simp) (by simp) _) rfl

theorem Coherent.perform (coherent : publication.Coherent) {action : SessionAction}
    (possible : publication.Possible action) : (publication.perform action).Coherent := by
  have posted : Posted publication.session.nextWaiter publication.history publication.bridge
    publication.bridge.commands := coherent
  cases action with
  | beginRequest route bodyRange =>
      have begun := posted.beginRequest route bodyRange
      rw [← List.append_nil publication.history] at begun
      exact begun
  | readRequest demandId position =>
      unfold Coherent Publication.perform
      rw [show publication.events (.readRequest demandId position) = [] from rfl, List.append_nil]
      simp only [bridge, Session.perform]
      split
      · exact posted
      · rename_i command made
        obtain ⟨request, _, asks⟩ := Option.bind_eq_some_iff.mp made
        have own : command.waiter = some publication.session.nextWaiter := by
          unfold StreamRequest.command at asks
          split at asks
          · simp at asks
          · rw [← Option.some.inj asks]
        exact posted.readRequest own
  | work action => exact coherent.work possible

theorem Reachable.coherent (reached : publication.Reachable) : publication.Coherent := by
  have starts : ∀ publication : Publication, publication.Initial → publication.Coherent :=
    fun _ begins => Coherent.initial begins
  have keeps : ∀ (publication : Publication) action, publication.Coherent →
      publication.Possible action → (publication.perform action).Coherent :=
    fun _ _ coherent possible => Coherent.perform coherent possible
  exact Transition.Reachable.invariant starts keeps reached

theorem lookup_handleHashFailed {state : BridgeState} {torrentId : String} {piece : Nat}
    {blocks : List Bool}
    (found : (state.handleHashFailed torrentId piece).partialBlocks.lookup ⟨torrentId, piece⟩ =
      some blocks) : true ∉ blocks := by
  unfold BridgeState.handleHashFailed at found
  simp only at found
  split at found
  · rename_i absent
    rw [absent] at found
    simp at found
  · rw [(publishPartial_sameWaits _ _).partialBlocks] at found
    simp only [BridgeState.setBlocks, AList.lookup_insert, Option.some.injEq] at found
    rw [← found]
    simp

theorem Coherent.hashFailed (coherent : publication.Coherent) (torrentId : String) (piece : Nat)
    {waiter : Nat}
    (held : Held (publication.perform (.work (.hashFailed torrentId piece))).bridge ⟨torrentId, piece⟩
      waiter)
    (pending : finished ((publication.perform (.work (.hashFailed torrentId piece))).bridge.waiters
      waiter) = false) :
    true ∉ ((publication.perform (.work (.hashFailed torrentId piece))).bridge.waiters
      waiter).finishedBlocks := by
  have after : (publication.perform (.work (.hashFailed torrentId piece))).Coherent :=
    coherent.perform trivial
  rcases after.shown ⟨torrentId, piece⟩ waiter held pending with empty | found
  · rw [empty]
    exact List.not_mem_nil
  · exact lookup_handleHashFailed found

/-- What a live waiter knows of its piece is the entry of the piece, which is accounted for; after a
hash failure it knows of no finished block. -/
theorem reachable_publication_coherent (reached : publication.Reachable) :
    (∀ key waiter, Held publication.bridge key waiter →
      (publication.bridge.waiters waiter).done = false →
      (publication.bridge.waiters waiter).cancelled = false →
      (publication.bridge.waiters waiter).finishedBlocks = [] ∨
        (publication.bridge.partialBlocks.lookup key =
            some (publication.bridge.waiters waiter).finishedBlocks ∧
          Accounted key.piece (eventsOf key publication.history)
            (publication.bridge.waiters waiter).finishedBlocks)) ∧
    ∀ torrentId piece waiter,
      let after := (publication.perform (.work (.hashFailed torrentId piece))).bridge
      Held after ⟨torrentId, piece⟩ waiter → (after.waiters waiter).done = false →
      (after.waiters waiter).cancelled = false → true ∉ (after.waiters waiter).finishedBlocks := by
  have coherent := reached.coherent
  refine ⟨?_, ?_⟩
  · intro key waiter held undone uncancelled
    have pending : finished (publication.bridge.waiters waiter) = false := by
      rw [finished, undone, uncancelled]
      rfl
    refine (coherent.shown key waiter held pending).imp_right fun found => ⟨found, ?_⟩
    exact coherent.entries key _ found
  · intro torrentId piece waiter after held undone uncancelled
    have pending : finished (after.waiters waiter) = false := by
      rw [finished, undone, uncancelled]
      rfl
    exact coherent.hashFailed torrentId piece held pending

theorem onePiece_fits : 65536 < 2 ^ 31 := by decide

/-- A torrent with a piece of four blocks. -/
def onePiece : TorrentInfo := ⟨1, 65536, onePiece_fits, fun _ => 65536, fun _ savePath => savePath⟩

/-- The second block is written. -/
def fourBlocksWritten : Libtorrent :=
  { Libtorrent.accepting onePiece with
    downloadQueue := fun _ => .ok [⟨0, [false, true, false, false]⟩] }

def reportedBlock : List SessionAction := [
  .work (.register fourBlocksWritten "a" 7 "t" 0 ⟨"video.mp4", 0, 65536⟩),
  .beginRequest ⟨7, "t", "a", "/stream/a", "video/mp4", 0, 65536, 0, 65536, "/data"⟩ ⟨0, 65535⟩,
  .readRequest 1 0,
  .work (.poll ⟨fun _ => fourBlocksWritten, fun _ => fourBlocksWritten, fourBlocksWritten, 0,
    fun _ => fourBlocksWritten⟩),
  .work (.blockFinished fourBlocksWritten "t" 0 3)]

theorem reachable_publication_coherent_reported :
    ∃ publication : Publication, publication.Reachable ∧ Held publication.bridge ⟨"t", 0⟩ 0 ∧
      (publication.bridge.waiters 0).finishedBlocks = [false, true, false, true] ∧
      Accounted 0 (eventsOf ⟨"t", 0⟩ publication.history) [false, true, false, true] := by
  let started : Publication := { session := { system := { bridge := .create 1024 1024 0 } } }
  have begins : started.Reachable := .start ⟨_, ⟨_, ⟨1024, 1024, 0, rfl⟩, rfl⟩, rfl⟩
  have reached : (reportedBlock.foldl perform started).Reachable :=
    Transition.Reachable.run begins ⟨trivial, trivial, trivial, trivial, trivial, trivial⟩
  have held : Held (reportedBlock.foldl perform started).bridge ⟨"t", 0⟩ 0 :=
    ⟨[0], by decide +kernel, by decide⟩
  have seen : ((reportedBlock.foldl perform started).bridge.waiters 0).finishedBlocks =
      [false, true, false, true] := by decide +kernel
  refine ⟨_, reached, held, seen, ?_⟩
  rcases (reachable_publication_coherent reached).1 ⟨"t", 0⟩ 0 held (by decide +kernel)
    (by decide +kernel) with empty | ⟨_, accounted⟩
  · rw [seen] at empty
    simp at empty
  · rw [seen] at accounted
    exact accounted

end Publication

end NuvioEngine.Bridge
