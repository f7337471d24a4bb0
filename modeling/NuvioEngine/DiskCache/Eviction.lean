import NuvioEngine.DiskCache.DiskScan
import NuvioEngine.Lib.ShortestPrefix
import Mathlib.Algebra.Order.BigOperators.Group.List
import Mathlib.Algebra.Order.Group.Nat

/-! Enforcement evicts the least recently used directories that must go, and no others. -/

namespace NuvioEngine.DiskCache

open Scheduler (saturatingAdd)

/-- A pass that counts every directory at some size. -/
structure Tallies (protectedTorrents : Finset String) (size : DiskNode → Nat)
    (next : Scan → DiskNode → Scan) : Prop where
  used : ∀ scan node, (next scan node).used = saturatingAdd scan.used (size node)
  protectedBytes : ∀ scan node, (next scan node).protectedBytes =
    if node.name ∈ protectedTorrents then saturatingAdd scan.protectedBytes (size node)
    else scan.protectedBytes
  sizes : ∀ scan node, (next scan node).sizes = emplace scan.sizes node.name (size node)

namespace Tallies

variable {protectedTorrents : Finset String} {size : DiskNode → Nat}
  {next : Scan → DiskNode → Scan}

theorem used_foldl (tallies : Tallies protectedTorrents size next) (nodes : List DiskNode)
    {scan : Scan} (fits : scan.used ≤ uint64Max) :
    (nodes.foldl next scan).used = min (scan.used + (nodes.map size).sum) uint64Max := by
  induction nodes generalizing scan with
  | nil => simpa using fits
  | cons node rest ih =>
      have counted := tallies.used scan node
      rw [saturatingAdd_eq_min fits] at counted
      rw [List.foldl_cons, ih (by rw [counted]; exact Nat.min_le_right _ _), counted, List.map_cons,
        List.sum_cons]
      omega

theorem protectedBytes_foldl (tallies : Tallies protectedTorrents size next) (nodes : List DiskNode)
    {scan : Scan} (fits : scan.protectedBytes ≤ uint64Max) :
    (nodes.foldl next scan).protectedBytes = min (scan.protectedBytes +
      ((nodes.filter fun node => node.name ∈ protectedTorrents).map size).sum) uint64Max := by
  induction nodes generalizing scan with
  | nil => simpa using fits
  | cons node rest ih =>
      have counted := tallies.protectedBytes scan node
      rw [saturatingAdd_eq_min fits] at counted
      rw [List.foldl_cons]
      by_cases covered : node.name ∈ protectedTorrents
      · rw [if_pos covered] at counted
        rw [ih (by rw [counted]; exact Nat.min_le_right _ _), counted,
          List.filter_cons_of_pos (by simpa using covered), List.map_cons, List.sum_cons]
        omega
      · rw [if_neg covered] at counted
        rw [ih (by rw [counted]; exact fits), counted, List.filter_cons_of_neg (by simpa using covered)]

theorem lookup_foldl (tallies : Tallies protectedTorrents size next) {nodes : List DiskNode}
    (distinct : (nodes.map DiskNode.name).Nodup) {scan : Scan}
    (fresh : ∀ node ∈ nodes, scan.sizes.lookup node.name = none) (id : String) :
    (nodes.foldl next scan).sizes.lookup id =
      ((nodes.find? fun node => node.name = id).map size).or (scan.sizes.lookup id) := by
  induction nodes generalizing scan with
  | nil => simp
  | cons node rest ih =>
      obtain ⟨apart, others⟩ := List.nodup_cons.mp (List.map_cons ▸ distinct)
      have absent := fresh node List.mem_cons_self
      have recorded : ∀ query, (next scan node).sizes.lookup query =
          if query = node.name then some (size node) else scan.sizes.lookup query := by
        intro query
        rw [tallies.sizes, emplace, absent]
        exact AList.lookup_insert_ite _ _ _ _
      have later : ∀ other ∈ rest, (next scan node).sizes.lookup other.name = none := by
        intro other member
        have different : other.name ≠ node.name := fun same =>
          apart (same ▸ List.mem_map_of_mem member)
        rw [recorded, if_neg different]
        exact fresh other (List.mem_cons_of_mem _ member)
      rw [List.foldl_cons, ih others later, recorded]
      by_cases same : node.name = id
      · have unlisted : rest.find? (fun other => other.name = id) = none := by
          rw [List.find?_eq_none]
          intro other member equal
          have named : other.name = id := by simpa using equal
          exact apart (same ▸ named ▸ List.mem_map_of_mem member)
        rw [unlisted, List.find?_cons_of_pos (by simpa using same), if_pos same.symm]
        rfl
      · rw [List.find?_cons_of_neg (by simpa using same), if_neg (fun equal => same equal.symm)]

end Tallies

theorem take_tallies (disk : Disk) (protectedTorrents : Finset String) :
    Tallies protectedTorrents (fun node => disk.scannedSize node.path)
      (Scan.take disk protectedTorrents) :=
  ⟨fun _ _ => rfl, fun _ _ => rfl, fun _ _ => rfl⟩

theorem candidates_foldl (disk : Disk) (protectedTorrents : Finset String) (nodes : List DiskNode)
    (scan : Scan) :
    (nodes.foldl (Scan.take disk protectedTorrents) scan).candidates = scan.candidates ++
      (nodes.filter fun node => node.name ∉ protectedTorrents).map (candidateOf disk) := by
  induction nodes generalizing scan with
  | nil => simp
  | cons node rest ih =>
      rw [List.foldl_cons, ih]
      by_cases covered : node.name ∈ protectedTorrents
      · simp [Scan.take, covered]
      · simp [Scan.take, covered]

/-- Two directories have nothing below them in common. -/
def Apart (left right : Candidate) : Prop := ∀ path, left.path <+: path → ¬ right.path <+: path

namespace Disk

theorem countTree_removeTree {disk : Disk} {left right : Candidate} (apart : Apart left right) :
    (disk.removeTree left.path).countTree right.path = disk.countTree right.path := by
  simp only [countTree, removeTree, keep, List.filter_filter]
  congr 1
  apply List.filter_congr
  intro node _
  by_cases within : right.path <+: node.path
  · have outside : ¬ left.path <+: node.path := fun below => apart _ below within
    simp [List.isPrefixOf_iff_prefix, within, ← Bool.not_eq_true, outside]
  · simp [← Bool.not_eq_true, List.isPrefixOf_iff_prefix, within]

end Disk

/-- What a candidate comes to whose `remove_all` does not fail. -/
def Eviction.meet (removals : Removals) (state : Eviction) (candidate : Candidate) : Eviction :=
  if (removals candidate.path).isVanished then
    { state with disk := state.disk.removeTree candidate.path }
  else state.reclaim candidate

/-- What a candidate comes to whose `remove_all` fails. -/
def Eviction.fail (state : Eviction) (candidate : Candidate) (left : Path → Bool) : Eviction :=
  { state with disk := state.disk.removePart candidate.path left }

/-- The error code of a `remove_all` that fails, and what it leaves. -/
def Removal.failure : Removal → Option (Nat × (Path → Bool))
  | .fails code left => some (code, left)
  | .removes | .vanished => none

theorem evict_cons {removals : Removals} {target : Nat} {candidate : Candidate} {rest : List Candidate}
    {state : Eviction} (present : state.disk.countTree candidate.path ≠ 0)
    (exceeds : target < state.used) :
    evict removals target (candidate :: rest) state =
      match (removals candidate.path).failure with
      | some (code, left) => (state.fail candidate left,
          some (.systemError (.code code) "evict disk cache directory"))
      | none => evict removals target rest (state.meet removals candidate) := by
  have open_ : ¬ state.used ≤ target := by omega
  rw [evict, if_neg open_]
  cases removal : removals candidate.path with
  | removes => simp [Removal.failure, Eviction.meet, removal, Removal.isVanished, present]
  | vanished => simp [Removal.failure, Eviction.meet, removal, Removal.isVanished]
  | fails code left => rfl

theorem meet_countTree {removals : Removals} {state : Eviction} {left right : Candidate}
    (apart : Apart left right) :
    (state.meet removals left).disk.countTree right.path = state.disk.countTree right.path := by
  unfold Eviction.meet
  split
  · exact Disk.countTree_removeTree apart
  · exact Disk.countTree_removeTree apart

/-- The loop goes through a front of the candidates, each of them while the target is exceeded, and
stops behind it or fails at the next one. -/
theorem evict_cases {removals : Removals} {target : Nat} {candidates : List Candidate}
    {state : Eviction} (apart : candidates.Pairwise Apart)
    (present : ∀ candidate ∈ candidates, state.disk.countTree candidate.path ≠ 0) :
    ∃ front back, candidates = front ++ back ∧
      (∀ candidate ∈ front, (removals candidate.path).failure = none) ∧
      (∀ before candidate after, front = before ++ candidate :: after →
        target < (before.foldl (Eviction.meet removals) state).used) ∧
      (((back = [] ∨ (front.foldl (Eviction.meet removals) state).used ≤ target) ∧
          evict removals target candidates state =
            (front.foldl (Eviction.meet removals) state, none)) ∨
        ∃ failing rest code left, back = failing :: rest ∧
          (removals failing.path).failure = some (code, left) ∧
          target < (front.foldl (Eviction.meet removals) state).used ∧
          evict removals target candidates state =
            ((front.foldl (Eviction.meet removals) state).fail failing left,
              some (.systemError (.code code) "evict disk cache directory"))) := by
  induction candidates generalizing state with
  | nil => exact ⟨[], [], rfl, by simp, by simp, .inl ⟨.inl rfl, rfl⟩⟩
  | cons candidate rest ih =>
      by_cases enough : state.used ≤ target
      · exact ⟨[], candidate :: rest, rfl, by simp, by simp,
          .inl ⟨.inr enough, by rw [evict, if_pos enough]; rfl⟩⟩
      · have exceeds : target < state.used := by omega
        have step : evict removals target (candidate :: rest) state = _ :=
          evict_cons (present candidate List.mem_cons_self) exceeds
        obtain ⟨first, others⟩ := List.pairwise_cons.mp apart
        cases fails : (removals candidate.path).failure with
        | some failure =>
            obtain ⟨code, left⟩ := failure
            rw [fails] at step
            exact ⟨[], candidate :: rest, rfl, by simp, by simp,
              .inr ⟨candidate, rest, code, left, rfl, fails, exceeds, step⟩⟩
        | none =>
            rw [fails] at step
            obtain ⟨front, back, split, clear, reached, ends⟩ := @ih (state.meet removals candidate)
              others fun other member => by
                rw [meet_countTree (first other member)]
                exact present other (List.mem_cons_of_mem _ member)
            refine ⟨candidate :: front, back, by rw [split]; rfl, ?_, ?_, ?_⟩
            · exact List.forall_mem_cons.mpr ⟨fails, clear⟩
            · intro before item after same
              cases before with
              | nil => exact exceeds
              | cons head tail =>
                  obtain ⟨rfl, tails⟩ := List.cons.inj same
                  exact reached tail item after tails
            · rw [step]
              exact ends

namespace Eviction

variable {removals : Removals}

/-- What the eviction of a candidate takes off the number of used bytes. -/
def spent (removals : Removals) (candidate : Candidate) : Nat :=
  if (removals candidate.path).isVanished then 0 else candidate.size

theorem used_foldl (front : List Candidate) (state : Eviction) :
    (front.foldl (meet removals) state).used = state.used - (front.map (spent removals)).sum := by
  induction front generalizing state with
  | nil => simp
  | cons candidate rest ih =>
      have met : (state.meet removals candidate).used = state.used - spent removals candidate := by
        unfold meet spent
        split
        · simp
        · simp only [reclaim]
          split <;> omega
      rw [List.foldl_cons, ih, met, List.map_cons, List.sum_cons]
      omega

theorem disk_foldl (front : List Candidate) (state : Eviction) :
    (front.foldl (meet removals) state).disk.nodes = state.disk.nodes.filter fun node =>
      front.all fun candidate => !candidate.path.isPrefixOf node.path := by
  induction front generalizing state with
  | nil => simp
  | cons candidate rest ih =>
      have met : (state.meet removals candidate).disk = state.disk.removeTree candidate.path := by
        unfold meet
        split <;> rfl
      rw [List.foldl_cons, ih, met]
      simp only [Disk.removeTree, Disk.keep, List.filter_filter, List.all_cons]
      apply List.filter_congr
      intro node _
      exact Bool.and_comm _ _

theorem reclaimedBytes_foldl (front : List Candidate) {state : Eviction}
    (fits : state.reclaimedBytes ≤ uint64Max) :
    (front.foldl (meet removals) state).reclaimedBytes =
      min (state.reclaimedBytes + (front.map (spent removals)).sum) uint64Max := by
  induction front generalizing state with
  | nil => simpa using fits
  | cons candidate rest ih =>
      have met : (state.meet removals candidate).reclaimedBytes =
          min (state.reclaimedBytes + spent removals candidate) uint64Max := by
        unfold meet spent
        split
        · simpa using fits
        · exact saturatingAdd_eq_min fits candidate.size
      rw [List.foldl_cons, ih (by rw [met]; exact Nat.min_le_right _ _), met, List.map_cons,
        List.sum_cons]
      omega

theorem evictions_foldl (front : List Candidate) {state : Eviction}
    (fits : state.evictions ≤ uint64Max) :
    (front.foldl (meet removals) state).evictions = min (state.evictions +
      (front.filter fun candidate => !(removals candidate.path).isVanished).length) uint64Max := by
  induction front generalizing state with
  | nil => simpa using fits
  | cons candidate rest ih =>
      by_cases vanished : (removals candidate.path).isVanished
      · have met : (state.meet removals candidate).evictions = state.evictions := by
          simp [meet, vanished]
        rw [List.foldl_cons, ih (by rw [met]; exact fits), met]
        simp [vanished]
      · have met : (state.meet removals candidate).evictions = min (state.evictions + 1) uint64Max := by
          simp only [meet, vanished, Bool.false_eq_true, if_false, reclaim, increment]
          split <;> omega
        rw [List.foldl_cons, ih (by rw [met]; exact Nat.min_le_right _ _), met]
        simp only [vanished, Bool.not_false, List.filter_cons_of_pos, List.length_cons]
        omega

end Eviction

namespace Disk

variable {disk : Disk} {root : Path}

theorem payload_path {node : DiskNode} (member : node ∈ disk.payload root) :
    node.path = root ++ [node.name] :=
  child_path (mem_payload.mp member).2.1

theorem mem_of_payload {node : DiskNode} (member : node ∈ disk.payload root) : node ∈ disk.nodes :=
  (mem_children.mp (mem_payload.mp member).2.1).1

theorem payload_inj {left right : DiskNode} (first : left ∈ disk.payload root)
    (second : right ∈ disk.payload root) (same : left.path = right.path) : left = right :=
  List.inj_on_of_nodup_map disk.distinct (mem_of_payload first) (mem_of_payload second) same

theorem payload_nodup (disk : Disk) (root : Path) : (disk.payload root).Nodup := by
  have nodes : disk.nodes.Nodup := disk.distinct.of_map
  unfold payload
  split
  · exact (nodes.filter _).filter _
  · exact List.nodup_nil

theorem payload_names (disk : Disk) (root : Path) : ((disk.payload root).map DiskNode.name).Nodup := by
  refine (payload_nodup disk root).map_on ?_
  intro left first right second same
  apply payload_inj first second
  rw [payload_path first, payload_path second, same]

theorem payload_disjoint {left right : DiskNode} (first : left ∈ disk.payload root)
    (second : right ∈ disk.payload root) {path : Path} (below : left.path <+: path)
    (under : right.path <+: path) : left = right := by
  apply payload_inj first second
  have same : left.path.length = right.path.length := by
    rw [payload_path first, payload_path second]
    simp
  exact (List.prefix_of_prefix_length_le below under same.le).eq_of_length same

theorem payload_countTree {node : DiskNode} (member : node ∈ disk.payload root) :
    disk.countTree node.path ≠ 0 := by
  intro none
  have empty := List.filter_eq_nil_iff.mp (List.eq_nil_of_length_eq_zero none) node
    (mem_of_payload member)
  simp at empty

/-- The total size of the canonical directories. -/
def payloadSize (disk : Disk) (root : Path) : Nat :=
  ((disk.payload root).map fun node => disk.treeSize node.path).sum

/-- The disk without some of the directories of the payload root. -/
def Without (disk after : Disk) (gone : List DiskNode) : Prop :=
  after.nodes = disk.nodes.filter fun node => gone.all fun other => !other.path.isPrefixOf node.path

theorem mem_without {after : Disk} {gone : List DiskNode} (removed : disk.Without after gone)
    {node : DiskNode} :
    node ∈ after.nodes ↔ node ∈ disk.nodes ∧ ∀ other ∈ gone, ¬ other.path <+: node.path := by
  rw [removed, List.mem_filter]
  simp only [List.all_eq_true, Bool.not_eq_true', ← Bool.not_eq_true, List.isPrefixOf_iff_prefix]

variable {after : Disk} {gone : List DiskNode}

theorem find_without (removed : disk.Without after gone) {path : Path}
    (apart : ∀ other ∈ gone, ¬ other.path <+: path) : after.find path = disk.find path := by
  unfold find
  rw [removed, List.find?_filter]
  congr 1
  funext node
  by_cases same : node.path = path
  · have kept : (gone.all fun other => !other.path.isPrefixOf node.path) = true := by
      simp only [List.all_eq_true, Bool.not_eq_true', ← Bool.not_eq_true, List.isPrefixOf_iff_prefix]
      rw [same]
      exact apart
    simp [same, -List.all_eq_true]
    rw [← same]
    exact kept
  · simp [same]

theorem payload_without (removed : disk.Without after gone)
    (listed : ∀ other ∈ gone, other ∈ disk.payload root) :
    after.payload root = (disk.payload root).filter fun node => node ∉ gone := by
  have outside : ∀ other ∈ gone, ¬ other.path <+: root := by
    intro other member below
    have length := below.length_le
    rw [payload_path (listed other member)] at length
    simp at length
  unfold payload
  rw [find_without removed outside]
  split
  · rename_i present
    rw [children, children, removed]
    simp only [List.filter_filter]
    apply List.filter_congr
    intro node member
    by_cases child : canonicalTorrentId node.name = true ∧ root <+: node.path ∧
        node.path.length = root.length + 1
    · have own : node ∈ disk.payload root :=
        mem_payload.mpr ⟨present, mem_children.mpr ⟨member, child.2⟩, child.1⟩
      have kept : (gone.all fun other => !other.path.isPrefixOf node.path) = true ↔ node ∉ gone := by
        simp only [List.all_eq_true, Bool.not_eq_true', ← Bool.not_eq_true,
          List.isPrefixOf_iff_prefix]
        constructor
        · intro clear removedToo
          exact clear node removedToo List.prefix_rfl
        · intro stays other removedToo below
          exact stays (payload_disjoint (listed other removedToo) own below List.prefix_rfl ▸ removedToo)
      rw [Bool.eq_iff_iff]
      simp only [Bool.and_eq_true, decide_eq_true_eq, kept, child.1, child.2.2,
        List.isPrefixOf_iff_prefix, child.2.1, true_and, and_true]
    · rw [Bool.eq_iff_iff]
      simp only [Bool.and_eq_true, decide_eq_true_eq, List.isPrefixOf_iff_prefix]
      tauto
  · rfl

theorem treeSize_without (removed : disk.Without after gone)
    (listed : ∀ other ∈ gone, other ∈ disk.payload root) {node : DiskNode}
    (member : node ∈ disk.payload root) (stays : node ∉ gone) :
    after.treeSize node.path = disk.treeSize node.path := by
  unfold treeSize below
  rw [removed, List.filter_filter]
  congr 2
  apply List.filter_congr
  intro inner _
  rw [Bool.eq_iff_iff]
  simp only [Bool.and_eq_true, List.isPrefixOf_iff_prefix, List.all_eq_true, Bool.not_eq_true',
    ← Bool.not_eq_true, and_iff_left_iff_imp]
  intro inside other gone below
  exact stays (payload_disjoint (listed other gone) member below inside.1 ▸ gone)

theorem payload_filter_mem (listed : ∀ other ∈ gone, other ∈ disk.payload root)
    (distinct : gone.Nodup) : ((disk.payload root).filter fun node => node ∈ gone).Perm gone := by
  rw [List.perm_ext_iff_of_nodup ((payload_nodup disk root).filter _) distinct]
  intro node
  rw [List.mem_filter]
  simp only [decide_eq_true_eq, and_iff_right_iff_imp]
  exact listed node

theorem payloadSize_without (removed : disk.Without after gone)
    (listed : ∀ other ∈ gone, other ∈ disk.payload root) (distinct : gone.Nodup) :
    after.payloadSize root + (gone.map fun node => disk.treeSize node.path).sum =
      disk.payloadSize root := by
  have stays : after.payloadSize root = (((disk.payload root).filter fun node => node ∉ gone).map
      fun node => disk.treeSize node.path).sum := by
    unfold payloadSize
    rw [payload_without removed listed]
    congr 1
    apply List.map_congr_left
    intro node member
    obtain ⟨own, kept⟩ := List.mem_filter.mp member
    exact treeSize_without removed listed own (by simpa using kept)
  have leaves := payload_filter_mem listed distinct
  have parts := (List.filter_append_perm (fun node => decide (node ∈ gone)) (disk.payload root)).map
    fun node => disk.treeSize node.path
  have total : disk.payloadSize root = _ := parts.sum_eq.symm
  rw [List.map_append, List.sum_append, (leaves.map _).sum_eq] at total
  rw [stays, total, Nat.add_comm]
  simp only [decide_not]

end Disk

instance : Std.Total Candidate.precedes where
  total left right := by
    unfold Candidate.precedes
    rcases lt_trichotomy left.lastUse right.lastUse with earlier | same | later
    · exact .inl (.inl earlier)
    · rcases le_total left.torrentId right.torrentId with below | above
      · exact .inl (.inr ⟨same, below⟩)
      · exact .inr (.inr ⟨same.symm, above⟩)
    · exact .inr (.inl later)

instance : IsTrans Candidate Candidate.precedes where
  trans first second third := by
    unfold Candidate.precedes
    rintro (earlier | ⟨same, below⟩) (sooner | ⟨equal, under⟩)
    · exact .inl (earlier.trans sooner)
    · exact .inl (equal ▸ earlier)
    · exact .inl (same ▸ sooner)
    · exact .inr ⟨same.trans equal, below.trans under⟩

/-- The directory was used less recently, or has the smaller id. -/
def OlderThan (left right : DiskNode) : Prop :=
  left.lastWrite < right.lastWrite ∨ left.lastWrite = right.lastWrite ∧ left.name < right.name

/-- The directories that may be evicted, in the order in which they are. -/
def evictionOrder (disk : Disk) (root : Path) (protectedTorrents : Finset String) : List DiskNode :=
  ((disk.payload root).filter fun node => node.name ∉ protectedTorrents).insertionSort
    fun left right => (candidateOf disk left).precedes (candidateOf disk right)

section Order

variable (disk : Disk) (root : Path) (protectedTorrents : Finset String)

theorem evictionOrder_perm : (evictionOrder disk root protectedTorrents).Perm
    ((disk.payload root).filter fun node => node.name ∉ protectedTorrents) :=
  List.perm_insertionSort _ _

theorem mem_evictionOrder {node : DiskNode} : node ∈ evictionOrder disk root protectedTorrents ↔
    node ∈ disk.payload root ∧ node.name ∉ protectedTorrents := by
  rw [(evictionOrder_perm disk root protectedTorrents).mem_iff, List.mem_filter]
  simp

theorem evictionOrder_nodup : (evictionOrder disk root protectedTorrents).Nodup :=
  (evictionOrder_perm disk root protectedTorrents).nodup_iff.mpr
    ((Disk.payload_nodup disk root).filter _)

theorem evictionOrder_candidates : (evictionOrder disk root protectedTorrents).map (candidateOf disk) =
    (((disk.payload root).filter fun node => node.name ∉ protectedTorrents).map
      (candidateOf disk)).insertionSort Candidate.precedes :=
  List.map_insertionSort _ _ _ _ fun _ _ _ _ => Iff.rfl

theorem evictionOrder_sorted : (evictionOrder disk root protectedTorrents).Pairwise OlderThan := by
  have sorted : ((evictionOrder disk root protectedTorrents).map (candidateOf disk)).Pairwise
      Candidate.precedes := by
    rw [evictionOrder_candidates]
    exact List.pairwise_insertionSort _ _
  have named : ((evictionOrder disk root protectedTorrents).map DiskNode.name).Nodup :=
    ((evictionOrder_perm disk root protectedTorrents).map _).nodup_iff.mpr
      ((Disk.payload_names disk root).sublist (List.filter_sublist.map _))
  refine ((List.pairwise_map.mp sorted).and (List.pairwise_map.mp named)).imp ?_
  rintro left right ⟨earlier | ⟨same, below⟩, different⟩
  · exact .inl earlier
  · exact .inr ⟨same, lt_of_le_of_ne below different⟩

theorem evictionOrder_apart :
    ((evictionOrder disk root protectedTorrents).map (candidateOf disk)).Pairwise Apart := by
  rw [List.pairwise_map]
  refine (evictionOrder_nodup disk root protectedTorrents).pairwise_of_forall_ne ?_
  intro left first right second different path below under
  exact different (Disk.payload_disjoint ((mem_evictionOrder _ _ _).mp first).1
    ((mem_evictionOrder _ _ _).mp second).1 below under)

end Order

/-- What a scan that gets through finds. -/
def scanned (disk : Disk) (root : Path) (protectedTorrents : Finset String) : Scan :=
  (disk.payload root).foldl (Scan.take disk protectedTorrents) {}

namespace DiskCacheManager

/-- The evictions have gone through some directories. -/
def evicted (manager : DiskCacheManager) (disk : Disk) (removals : Removals)
    (protectedTorrents : Finset String) (front : List DiskNode) : Eviction :=
  (front.map (candidateOf disk)).foldl (Eviction.meet removals) {
    disk := disk
    measuredSizes := (scanned disk manager.payloadRoot protectedTorrents).sizes
    used := (scanned disk manager.payloadRoot protectedTorrents).used
    reclaimedBytes := manager.stats.reclaimedBytes
    evictions := manager.stats.evictions }

/-- The manager has the sizes and counters the evictions leave. -/
def counted (manager : DiskCacheManager) (state : Eviction) : DiskCacheManager :=
  { manager with
    measuredSizes := state.measuredSizes
    stats := { manager.stats with
      reclaimedBytes := state.reclaimedBytes
      evictions := state.evictions } }

variable {manager : DiskCacheManager} {disk : Disk} {faults : Faults} {removals : Removals}
  {protectedTorrents : Finset String} {requested : Nat}

theorem enforce_unscannable
    (unscannable : ¬ Scannable disk faults manager.payloadRoot protectedTorrents) :
    ∃ thrown, manager.enforce disk faults removals protectedTorrents requested =
      ⟨manager, disk, .error thrown⟩ := by
  cases scan : manager.scan disk faults protectedTorrents with
  | error thrown => exact ⟨thrown, by simp [enforce, scan]⟩
  | ok found => exact absurd ((scan_ok_iff _ _ _ _ _).mp scan).1 unscannable

theorem enforce_scannable (scannable : Scannable disk faults manager.payloadRoot protectedTorrents) :
    ∃ front back, evictionOrder disk manager.payloadRoot protectedTorrents = front ++ back ∧
      (∀ node ∈ front, (removals node.path).failure = none) ∧
      (∀ before node after, front = before ++ node :: after →
        min requested manager.stats.capacityBytes <
          (manager.evicted disk removals protectedTorrents before).used) ∧
      (((back = [] ∨ (manager.evicted disk removals protectedTorrents front).used ≤
            min requested manager.stats.capacityBytes) ∧
          ∃ published, published =
              (manager.counted (manager.evicted disk removals protectedTorrents front)).publish
                (manager.evicted disk removals protectedTorrents front).used
                (scanned disk manager.payloadRoot protectedTorrents).protectedBytes ∧
            manager.enforce disk faults removals protectedTorrents requested =
              ⟨published, (manager.evicted disk removals protectedTorrents front).disk,
                .ok published.stats⟩) ∨
        ∃ failing rest code left, back = failing :: rest ∧
          (removals failing.path).failure = some (code, left) ∧
          min requested manager.stats.capacityBytes <
            (manager.evicted disk removals protectedTorrents front).used ∧
          ∃ failed, failed = (manager.evicted disk removals protectedTorrents front).fail
              (candidateOf disk failing) left ∧
            manager.enforce disk faults removals protectedTorrents requested =
              ⟨manager.counted failed, failed.disk,
                .error (.systemError (.code code) "evict disk cache directory")⟩) := by
  have found : manager.scan disk faults protectedTorrents =
      .ok (scanned disk manager.payloadRoot protectedTorrents) :=
    (scan_ok_iff _ _ _ _ _).mpr ⟨scannable, rfl⟩
  have ordered : (scanned disk manager.payloadRoot protectedTorrents).candidates.insertionSort
      Candidate.precedes =
        (evictionOrder disk manager.payloadRoot protectedTorrents).map (candidateOf disk) := by
    rw [evictionOrder_candidates, scanned, candidates_foldl]
    rfl
  have ran : manager.enforce disk faults removals protectedTorrents requested =
      manager.enforceScanned disk removals requested
        (scanned disk manager.payloadRoot protectedTorrents) := by
    simp [enforce, found]
  have present : ∀ candidate ∈ (evictionOrder disk manager.payloadRoot protectedTorrents).map
      (candidateOf disk), (manager.evicted disk removals protectedTorrents []).disk.countTree
        candidate.path ≠ 0 := by
    intro candidate member
    obtain ⟨node, listed, rfl⟩ := List.mem_map.mp member
    exact Disk.payload_countTree ((mem_evictionOrder _ _ _).mp listed).1
  obtain ⟨candidates, others, split, clear, reached, ends⟩ := @evict_cases removals
    (min requested manager.stats.capacityBytes) _ _
    (evictionOrder_apart disk manager.payloadRoot protectedTorrents) present
  obtain ⟨front, back, apart, rfl, rfl⟩ := List.map_eq_append_iff.mp split
  refine ⟨front, back, apart, ?_, ?_, ?_⟩
  · intro node member
    exact clear (candidateOf disk node) (List.mem_map_of_mem member)
  · intro before node after same
    exact reached (before.map (candidateOf disk)) (candidateOf disk node)
      (after.map (candidateOf disk)) (by rw [same, List.map_append, List.map_cons])
  · rw [ran]
    rcases ends with ⟨stops, result⟩ | ⟨failing, rest, code, left, behind, fails, exceeds, result⟩
    · refine .inl ⟨stops.imp_left List.map_eq_nil_iff.mp, _, rfl, ?_⟩
      have folded : evict removals (min requested manager.stats.capacityBytes)
          ((evictionOrder disk manager.payloadRoot protectedTorrents).map (candidateOf disk))
          (manager.evicted disk removals protectedTorrents []) =
            (manager.evicted disk removals protectedTorrents front, none) := result
      unfold evicted at folded
      simp only [List.map_nil, List.foldl_nil] at folded
      simp only [enforceScanned, ordered, folded]
      rfl
    · obtain ⟨node, later, rfl, rfl, rfl⟩ := List.map_eq_cons_iff.mp behind
      refine .inr ⟨node, later, code, left, rfl, fails, exceeds, _, rfl, ?_⟩
      have folded : evict removals (min requested manager.stats.capacityBytes)
          ((evictionOrder disk manager.payloadRoot protectedTorrents).map (candidateOf disk))
          (manager.evicted disk removals protectedTorrents []) =
            ((manager.evicted disk removals protectedTorrents front).fail
              (candidateOf disk node) left,
              some (.systemError (.code code) "evict disk cache directory")) := result
      unfold evicted at folded
      simp only [List.map_nil, List.foldl_nil] at folded
      simp only [enforceScanned, ordered, folded]
      rfl

end DiskCacheManager

section Evicted

variable {disk : Disk} {removals : Removals} {protectedTorrents : Finset String} (manager : DiskCacheManager)
  (front : List DiskNode)

theorem scannedSize_eq {root : Path} (bounded : disk.payloadSize root < 2 ^ 64) {node : DiskNode}
    (member : node ∈ disk.payload root) : disk.scannedSize node.path = disk.treeSize node.path := by
  have part : disk.treeSize node.path ≤ disk.payloadSize root :=
    List.single_le_sum (fun _ _ => Nat.zero_le _) _ (List.mem_map_of_mem member)
  unfold Disk.scannedSize uint64Max
  omega

theorem scanned_used {root : Path} (bounded : disk.payloadSize root < 2 ^ 64) :
    (scanned disk root protectedTorrents).used = disk.payloadSize root := by
  have sizes : ((disk.payload root).map fun node => disk.scannedSize node.path) =
      (disk.payload root).map fun node => disk.treeSize node.path :=
    List.map_congr_left fun node member => scannedSize_eq bounded member
  rw [scanned, (take_tallies disk protectedTorrents).used_foldl _ (Nat.zero_le _), sizes]
  change min (0 + disk.payloadSize root) uint64Max = disk.payloadSize root
  unfold uint64Max
  omega

theorem sum_sublist_le {root : Path} {nodes : List DiskNode} (part : nodes.Sublist (disk.payload root)) :
    (nodes.map fun node => disk.treeSize node.path).sum ≤ disk.payloadSize root :=
  (part.map _).sum_le_sum fun _ _ => Nat.zero_le _

theorem scanned_protectedBytes {root : Path} (bounded : disk.payloadSize root < 2 ^ 64) :
    (scanned disk root protectedTorrents).protectedBytes =
      (((disk.payload root).filter fun node => node.name ∈ protectedTorrents).map
        fun node => disk.treeSize node.path).sum := by
  have sizes : (((disk.payload root).filter fun node => node.name ∈ protectedTorrents).map
      fun node => disk.scannedSize node.path) = _ :=
    List.map_congr_left fun node member => scannedSize_eq bounded (List.mem_filter.mp member).1
  have part := sum_sublist_le (List.filter_sublist (p := fun node => decide (node.name ∈ protectedTorrents)) (l := disk.payload root))
  rw [scanned, (take_tallies disk protectedTorrents).protectedBytes_foldl _ (Nat.zero_le _), sizes]
  change min (0 + _) uint64Max = _
  unfold uint64Max
  omega

theorem evicted_disk (removals : Removals) (protectedTorrents : Finset String)
    (manager : DiskCacheManager) (front : List DiskNode) :
    disk.Without (manager.evicted disk removals protectedTorrents front).disk front := by
  unfold Disk.Without DiskCacheManager.evicted
  rw [Eviction.disk_foldl]
  simp only [List.all_map, Function.comp_def, candidateOf]

theorem sum_spent {root : Path} (bounded : disk.payloadSize root < 2 ^ 64) {front : List DiskNode}
    (listed : ∀ node ∈ front, node ∈ disk.payload root) :
    ((front.map (candidateOf disk)).map (Eviction.spent fun _ => .removes)).sum =
      (front.map fun node => disk.treeSize node.path).sum := by
  rw [List.map_map]
  congr 1
  apply List.map_congr_left
  intro node member
  exact scannedSize_eq bounded (listed node member)

end Evicted

/-- What an enforcement does that gets through. -/
structure Enforced (manager : DiskCacheManager) (disk : Disk) (protectedTorrents : Finset String)
    (requested : Nat) (outcome : Outcome) (removed : List DiskNode) : Prop where
  evicts : ∃ order, order.Perm ((disk.payload manager.payloadRoot).filter fun node =>
      node.name ∉ protectedTorrents) ∧ order.Pairwise OlderThan ∧
    ShortestPrefix (fun taken => disk.payloadSize manager.payloadRoot -
      (taken.map fun node => disk.treeSize node.path).sum ≤
        min requested manager.stats.capacityBytes) order removed
  removes : disk.Without outcome.disk removed
  spares : ∀ node ∈ disk.nodes, node ∉ outcome.disk.nodes → ∃ id, canonicalTorrentId id = true ∧
    id ∉ protectedTorrents ∧ manager.payloadRoot ++ [id] <+: node.path
  result : outcome.result = .ok outcome.manager.stats
  capacityBytes : outcome.manager.stats.capacityBytes = manager.stats.capacityBytes
  usedBytes : outcome.manager.stats.usedBytes = outcome.disk.payloadSize manager.payloadRoot
  protectedBytes : outcome.manager.stats.protectedBytes = (((disk.payload manager.payloadRoot).filter
    fun node => node.name ∈ protectedTorrents).map fun node => disk.treeSize node.path).sum
  overBudget : outcome.manager.stats.overBudget = true ↔
    outcome.manager.stats.usedBytes > manager.stats.capacityBytes
  evictions : outcome.manager.stats.evictions =
    min (manager.stats.evictions + removed.length) uint64Max
  reclaimedBytes : outcome.manager.stats.reclaimedBytes = min (manager.stats.reclaimedBytes +
    (removed.map fun node => disk.treeSize node.path).sum) uint64Max

/-- When the payload root can be scanned and every `remove_all` succeeds, enforcement evicts the
shortest prefix of the unprotected directories, the least recently used ones first, that brings the
total size to the target; when it cannot, nothing changes. -/
theorem enforce_evicts_oldest (manager : DiskCacheManager) (disk : Disk) (faults : Faults)
    (protectedTorrents : Finset String) (requested : Nat)
    (bounded : disk.payloadSize manager.payloadRoot < 2 ^ 64)
    (counters : manager.stats.evictions ≤ uint64Max ∧ manager.stats.reclaimedBytes ≤ uint64Max) :
    (Scannable disk faults manager.payloadRoot protectedTorrents → ∃ removed,
        Enforced manager disk protectedTorrents requested
          (manager.enforce disk faults (fun _ => .removes) protectedTorrents requested) removed) ∧
      (¬ Scannable disk faults manager.payloadRoot protectedTorrents → ∃ thrown,
        manager.enforce disk faults (fun _ => .removes) protectedTorrents requested =
          ⟨manager, disk, .error thrown⟩) := by
  refine ⟨fun scannable => ?_, fun unscannable => DiskCacheManager.enforce_unscannable unscannable⟩
  obtain ⟨front, back, order, _, reached, ends⟩ :=
    @DiskCacheManager.enforce_scannable manager disk faults (fun _ => .removes) protectedTorrents requested scannable
  obtain ⟨stops, published, rfl, result⟩ | ⟨_, _, _, _, _, fails, _⟩ := ends
  · have listed : ∀ node ∈ front, node ∈ disk.payload manager.payloadRoot ∧
        node.name ∉ protectedTorrents := by
      intro node member
      apply (mem_evictionOrder disk manager.payloadRoot protectedTorrents).mp
      rw [order]
      exact List.mem_append_left _ member
    have distinct : front.Nodup := by
      have nodup := evictionOrder_nodup disk manager.payloadRoot protectedTorrents
      rw [order] at nodup
      exact (List.nodup_append.mp nodup).1
    have used : ∀ taken, (∀ node ∈ taken, node ∈ disk.payload manager.payloadRoot) →
        (manager.evicted disk (fun _ => .removes) protectedTorrents taken).used =
          disk.payloadSize manager.payloadRoot -
            (taken.map fun node => disk.treeSize node.path).sum := by
      intro taken inside
      unfold DiskCacheManager.evicted
      rw [Eviction.used_foldl, sum_spent bounded inside, scanned_used bounded]
    have removes : disk.Without (manager.evicted disk (fun _ => .removes) protectedTorrents front).disk front :=
      evicted_disk _ protectedTorrents manager front
    have left := Disk.payloadSize_without removes (fun node member => (listed node member).1) distinct
    rw [result]
    refine ⟨front, ⟨_, evictionOrder_perm _ _ _, evictionOrder_sorted _ _ _, ?_⟩, removes, ?_, rfl, rfl,
      ?_, scanned_protectedBytes bounded, ?_, ?_, ?_⟩
    · rw [order]
      refine ShortestPrefix.of_loop ?_ ?_
      · intro before node after same
        rw [← used before fun other member => (listed other (same ▸ List.mem_append_left _ member)).1]
        exact Nat.not_le.mpr (reached before node after same)
      · rw [← used front fun node member => (listed node member).1]
        exact stops
    · intro node member missing
      have hit : ∃ gone ∈ front, gone.path <+: node.path := by
        by_contra none
        refine missing ((Disk.mem_without removes).mpr ⟨member, fun gone taken below => none ?_⟩)
        exact ⟨gone, taken, below⟩
      obtain ⟨gone, taken, below⟩ := hit
      obtain ⟨own, unprotected⟩ := listed gone taken
      exact ⟨gone.name, (Disk.mem_payload.mp own).2.2, unprotected, Disk.payload_path own ▸ below⟩
    · change (manager.evicted disk (fun _ => .removes) protectedTorrents front).used =
        (manager.evicted disk (fun _ => .removes) protectedTorrents front).disk.payloadSize manager.payloadRoot
      rw [used front fun node member => (listed node member).1]
      omega
    · simp [DiskCacheManager.publish, DiskCacheManager.counted]
    · change (manager.evicted disk (fun _ => .removes) protectedTorrents front).evictions = _
      unfold DiskCacheManager.evicted
      rw [Eviction.evictions_foldl _ counters.1]
      simp [Removal.isVanished]
    · change (manager.evicted disk (fun _ => .removes) protectedTorrents front).reclaimedBytes = _
      unfold DiskCacheManager.evicted
      rw [Eviction.reclaimedBytes_foldl _ counters.2,
        sum_spent bounded fun node member => (listed node member).1]
  · simp [Removal.failure] at fails

/-- Two torrents of four bytes each, the second one written last, and a stray file. -/
def firstId : String := "0000000000000000000000000000000000000001"

def secondId : String := "0000000000000000000000000000000000000002"

def twoTorrents : Disk where
  nodes := [
    { path := ["payload"], type := .directory },
    { path := ["payload", "notes.txt"], type := .regular, size := 9, blocks := 8 },
    { path := ["payload", secondId], type := .directory, lastWrite := 7 },
    { path := ["payload", secondId, "video"], type := .regular, size := 4, blocks := 8 },
    { path := ["payload", firstId], type := .directory, lastWrite := 3 },
    { path := ["payload", firstId, "video"], type := .regular, size := 4, blocks := 8 }]
  distinct := by decide +kernel

theorem twoTorrents_scannable (protectedTorrents : Finset String) :
    Scannable twoTorrents {} ["payload"] protectedTorrents where
  listable := ⟨rfl, by decide +kernel, by decide +kernel, by decide +kernel⟩
  measurable := fun _ _ => ⟨⟨rfl, fun _ _ => ⟨⟨rfl, fun _ => rfl⟩, rfl⟩⟩, .inr rfl⟩
  bounded := by decide +kernel

theorem enforce_evicts_first : ∃ removed, Enforced (.create ["payload"] 4) twoTorrents ∅ 9
    ((DiskCacheManager.create ["payload"] 4).enforce twoTorrents {} (fun _ => .removes) ∅ 9) removed :=
  (enforce_evicts_oldest (.create ["payload"] 4) twoTorrents {} ∅ 9 (by decide +kernel)
    (by decide +kernel)).1 (twoTorrents_scannable ∅)

end NuvioEngine.DiskCache
