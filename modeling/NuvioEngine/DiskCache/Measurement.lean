import NuvioEngine.DiskCache.Accounting
import NuvioEngine.Lib.Transition

/-!
Runs of a disk cache whose protected torrents grow: when a measurement, which reuses the recorded sizes
of the torrents that are not protected, reports what a scan of all of them would.
-/

namespace NuvioEngine.DiskCache

/-- A disk cache, its disk and the torrents that are protected. -/
structure World where
  manager : DiskCacheManager
  disk : Disk
  protectedTorrents : Finset String

inductive WorldAction where
  | protect (torrents : Finset String)
  | write (disk : Disk)
  | touch (faults : Faults) (now : Int) (torrentId : String)
  | enforce (faults : Faults) (removals : Removals) (requested : Nat)
  | measure (faults : Faults)

/-- The entries of one directory, itself included. -/
def Disk.tree (disk : Disk) (path : Path) : List DiskNode :=
  disk.nodes.filter fun node => path.isPrefixOf node.path

/-- What is recorded of a torrent is its size on the disk. -/
def Truthful (disk : Disk) (root : Path) (sizes : HashMap String Nat) (id : String) : Prop :=
  ∀ size, sizes.lookup id = some size → (disk.find (root ++ [id])).isSome = true →
    size = disk.scannedSize (root ++ [id])

namespace World

def root (world : World) : Path := world.manager.payloadRoot

def perform (world : World) : WorldAction → World
  | .protect torrents => { world with protectedTorrents := torrents }
  | .write disk => { world with disk := disk }
  | .touch faults now torrentId =>
      { world with disk := (world.manager.touch world.disk faults now torrentId).1 }
  | .enforce faults removals requested =>
      let outcome := world.manager.enforce world.disk faults removals world.protectedTorrents requested
      { world with manager := outcome.manager, disk := outcome.disk }
  | .measure faults =>
      { world with manager := (world.manager.measure world.disk faults world.protectedTorrents).1 }

/-- Payload is written only for torrents that are protected. -/
def Possible (world : World) : WorldAction → Prop
  | .write disk => ∀ id ∉ world.protectedTorrents,
      disk.tree (world.root ++ [id]) = world.disk.tree (world.root ++ [id])
  | .protect _ | .touch _ _ _ | .enforce _ _ _ | .measure _ => True

def Current (world : World) (id : String) : Prop :=
  Truthful world.disk world.root world.manager.measuredSizes id

/-- A torrent loses its protection only while its recorded size is current, and a removal that fails
has deleted nothing. -/
def Careful (world : World) : WorldAction → Prop
  | .protect torrents => ∀ id ∈ world.protectedTorrents, id ∉ torrents → world.Current id
  | .enforce _ removals _ => ∀ path code left, removals path = .fails code left → ∀ inner, left inner = true
  | .write _ | .touch _ _ _ | .measure _ => True

def Initial (world : World) : Prop :=
  ∃ payloadRoot capacityBytes, world.manager = .create payloadRoot capacityBytes

/-- The statistics are those of a scan of all directories. -/
def Reports (world : World) (stats : DiskCacheStats) : Prop :=
  stats.usedBytes = (scanned world.disk world.root world.protectedTorrents).used ∧
    stats.protectedBytes = (scanned world.disk world.root world.protectedTorrents).protectedBytes ∧
    stats.overBudget = decide (stats.usedBytes > world.manager.stats.capacityBytes)

end World

section Measure

variable {disk : Disk} {faults : Faults} {protectedTorrents : Finset String}
  {measuredSizes : HashMap String Nat} {root : Path}

/-- The size a measurement takes for a directory. -/
def takenSize (disk : Disk) (protectedTorrents : Finset String) (measuredSizes : HashMap String Nat)
    (node : DiskNode) : Nat :=
  if node.name ∉ protectedTorrents then
    (measuredSizes.lookup node.name).getD (disk.scannedSize node.path)
  else disk.scannedSize node.path

/-- One directory more of a measurement. -/
def Scan.measure (disk : Disk) (protectedTorrents : Finset String) (measuredSizes : HashMap String Nat)
    (scan : Scan) (node : DiskNode) : Scan :=
  scan.count protectedTorrents node.name (takenSize disk protectedTorrents measuredSizes node,
    if node.name ∉ protectedTorrents ∧ (measuredSizes.lookup node.name).isSome then scan.inspectedEntries
    else scan.inspectedEntries + (disk.below node.path).length)

theorem measureVisit_ok_iff {node : DiskNode} (member : node ∈ disk.children root) (scan result : Scan) :
    measureVisit disk faults protectedTorrents measuredSizes scan node.name node.path = .ok result ↔
      (∃ measured, measuredSize disk faults protectedTorrents measuredSizes node.name node.path
        scan.inspectedEntries = .ok measured) ∧
        result = scan.measure disk protectedTorrents measuredSizes node := by
  have present : (disk.find node.path).isSome = true := by simp [Disk.find_child member]
  have taken : ∀ measured, measuredSize disk faults protectedTorrents measuredSizes node.name node.path
      scan.inspectedEntries = .ok measured → scan.count protectedTorrents node.name measured =
        scan.measure disk protectedTorrents measuredSizes node := by
    intro measured result
    unfold Scan.measure takenSize
    congr 1
    cases recorded : measuredSizes.lookup node.name with
    | none =>
        simp only [measuredSize, recorded] at result
        rw [directorySize_ok present result]
        simp
    | some known =>
        by_cases covered : node.name ∈ protectedTorrents
        · simp only [measuredSize, recorded, covered, not_true, if_false] at result
          rw [directorySize_ok present result]
          simp [covered]
        · simp only [measuredSize, recorded, covered, not_false_iff, if_true] at result
          obtain rfl := Except.ok.inj result
          simp [covered]
  unfold measureVisit
  cases sized : measuredSize disk faults protectedTorrents measuredSizes node.name node.path
      scan.inspectedEntries with
  | error thrown => simp [Except.map]
  | ok measured => simp [Except.map, taken measured sized, eq_comm]

theorem measure_tallies (disk : Disk) (protectedTorrents : Finset String)
    (measuredSizes : HashMap String Nat) :
    Tallies protectedTorrents (takenSize disk protectedTorrents measuredSizes)
      (Scan.measure disk protectedTorrents measuredSizes) :=
  ⟨fun _ _ => rfl, fun _ _ => rfl, fun _ _ => rfl⟩

theorem measure_cases (manager : DiskCacheManager) (disk : Disk) (faults : Faults)
    (protectedTorrents : Finset String) :
    (∃ thrown, manager.measure disk faults protectedTorrents = (manager, .error thrown)) ∨
      ∃ scan published, scan = (disk.payload manager.payloadRoot).foldl
          (Scan.measure disk protectedTorrents manager.measuredSizes) {} ∧
        published = ({ manager with measuredSizes := scan.sizes }).publish scan.used
          scan.protectedBytes ∧
        manager.measure disk faults protectedTorrents = (published, .ok published.stats) := by
  unfold DiskCacheManager.measure
  cases visited : visitTorrentDirectories disk faults manager.payloadRoot
      (measureVisit disk faults protectedTorrents manager.measuredSizes) {} with
  | error thrown => exact .inl ⟨thrown, rfl⟩
  | ok scan =>
      obtain ⟨_, _, found⟩ := (visitTorrentDirectories_ok_iff
        (fun state node member => measureVisit_ok_iff member state) _ _).mp visited
      exact .inr ⟨scan, _, found, rfl, rfl⟩

end Measure

theorem Tallies.recorded {disk : Disk} {root : Path} {protectedTorrents : Finset String}
    {size : DiskNode → Nat} {next : Scan → DiskNode → Scan}
    (tallies : Tallies protectedTorrents size next) {id : String} {recorded : Nat}
    (found : ((disk.payload root).foldl next {}).sizes.lookup id = some recorded) :
    ∃ node ∈ disk.payload root, node.path = root ++ [id] ∧ recorded = size node := by
  rw [tallies.lookup_foldl (Disk.payload_names disk root) (fun _ _ => rfl)] at found
  change ((List.find? (fun node => decide (node.name = id)) (disk.payload root)).map size).or none = _
    at found
  rw [Option.or_none, Option.map_eq_some_iff] at found
  obtain ⟨node, listed, rfl⟩ := found
  have member := List.mem_of_find?_eq_some listed
  have named : node.name = id := by simpa using List.find?_some listed
  exact ⟨node, member, named ▸ Disk.payload_path member, rfl⟩

theorem Tallies.truthful {disk : Disk} {root : Path} {protectedTorrents : Finset String}
    {size : DiskNode → Nat} {next : Scan → DiskNode → Scan}
    (tallies : Tallies protectedTorrents size next)
    (right : ∀ node ∈ disk.payload root, size node = disk.scannedSize node.path) (id : String) :
    Truthful disk root ((disk.payload root).foldl next {}).sizes id := by
  intro recorded found _
  obtain ⟨node, member, path, rfl⟩ := tallies.recorded found
  rw [right node member, path]

namespace Disk

variable {disk after : Disk} {path : Path}

theorem find_tree (disk : Disk) (path : Path) :
    disk.find path = (disk.tree path).find? fun node => node.path = path := by
  unfold find tree
  rw [List.find?_filter]
  congr 1
  funext node
  by_cases same : node.path = path <;> simp [same]

theorem below_tree (disk : Disk) (path : Path) :
    disk.below path = (disk.tree path).filter fun node => node.path ≠ path := by
  unfold below tree
  rw [List.filter_filter]
  apply List.filter_congr
  intro node _
  exact Bool.and_comm _ _

theorem scannedSize_tree (same : after.tree path = disk.tree path) :
    after.scannedSize path = disk.scannedSize path := by
  unfold scannedSize treeSize
  rw [below_tree, below_tree, same]

theorem scannedSize_setLastWriteTime (disk : Disk) (written path : Path) (time : Int) :
    (disk.setLastWriteTime written time).scannedSize path = disk.scannedSize path := by
  unfold scannedSize treeSize below setLastWriteTime
  rw [List.filter_map, List.map_map]
  congr 3
  · funext node
    simp only [Function.comp_apply]
    split <;> rfl
  · apply List.filter_congr
    intro node _
    simp only [Function.comp_apply]
    split <;> rfl

theorem find_setLastWriteTime (disk : Disk) (written path : Path) (time : Int) :
    ((disk.setLastWriteTime written time).find path).isSome = (disk.find path).isSome := by
  unfold find setLastWriteTime
  rw [List.find?_map, Option.isSome_map]
  congr 2
  funext node
  simp only [Function.comp_apply]
  split <;> rfl

end Disk

namespace World

variable {world : World}

/-- The sizes of all torrents that are not protected are current. -/
def Fresh (world : World) : Prop := ∀ id ∉ world.protectedTorrents, world.Current id

theorem touch_current (faults : Faults) (now : Int) (torrentId id : String)
    (current : world.Current id) : (world.perform (.touch faults now torrentId)).Current id := by
  have disk : (world.manager.touch world.disk faults now torrentId).1 = world.disk ∨
      ∃ path, (world.manager.touch world.disk faults now torrentId).1 =
        world.disk.setLastWriteTime path now := by
    unfold DiskCacheManager.touch
    simp only
    split
    · exact .inl rfl
    · split
      · exact .inl rfl
      · exact .inl rfl
      · split
        · exact .inl rfl
        · split
          · exact .inl rfl
          · exact .inr ⟨_, rfl⟩
  intro size recorded present
  simp only [perform, root] at recorded present ⊢
  rcases disk with same | ⟨path, same⟩
  · rw [same] at present ⊢
    exact current size recorded present
  · rw [same, Disk.find_setLastWriteTime] at present
    rw [same, Disk.scannedSize_setLastWriteTime]
    exact current size recorded present

theorem write_current {disk : Disk} {id : String}
    (same : disk.tree (world.root ++ [id]) = world.disk.tree (world.root ++ [id]))
    (current : world.Current id) : (world.perform (.write disk)).Current id := by
  intro size recorded present
  change (disk.find (world.root ++ [id])).isSome = true at present
  change size = disk.scannedSize (world.root ++ [id])
  rw [Disk.find_tree, same, ← Disk.find_tree] at present
  rw [Disk.scannedSize_tree same]
  exact current size recorded present

theorem takenSize_eq (fresh : world.Fresh) {node : DiskNode}
    (member : node ∈ world.disk.payload world.root) :
    takenSize world.disk world.protectedTorrents world.manager.measuredSizes node =
      world.disk.scannedSize node.path := by
  unfold takenSize
  split
  · rename_i unprotected
    cases recorded : world.manager.measuredSizes.lookup node.name with
    | none => rfl
    | some size =>
        have path := Disk.payload_path member
        have present : (world.disk.find (world.root ++ [node.name])).isSome = true := by
          rw [← path, Disk.find_of_mem (Disk.mem_of_payload member)]
          rfl
        rw [path]
        exact fresh node.name unprotected size recorded present
  · rfl

theorem measure_current (fresh : world.Fresh) (faults : Faults) {id : String}
    (old : id ∉ world.protectedTorrents) : (world.perform (.measure faults)).Current id := by
  rcases measure_cases world.manager world.disk faults world.protectedTorrents with
    ⟨thrown, result⟩ | ⟨scan, published, rfl, rfl, result⟩
  · have same : world.perform (.measure faults) = world := by
      simp only [perform, result]
    rw [same]
    exact fresh id old
  · simp only [Current, perform, result]
    exact (measure_tallies world.disk world.protectedTorrents world.manager.measuredSizes).truthful
      (fun node member => takenSize_eq fresh member) id

end World

theorem Eviction.measuredSizes_foldl {removals : Removals} {front : List Candidate} {state : Eviction}
    {id : String} {size : Nat}
    (recorded : (front.foldl (meet removals) state).measuredSizes.lookup id = some size) :
    state.measuredSizes.lookup id = some size := by
  induction front generalizing state with
  | nil => exact recorded
  | cons candidate rest ih =>
      have met := ih recorded
      unfold meet at met
      split at met
      · exact met
      · simp only [reclaim, AList.lookup_erase_ite] at met
        split at met
        · simp at met
        · exact met

theorem evicted_truthful {disk : Disk} {manager : DiskCacheManager} {removals : Removals}
    {protectedTorrents : Finset String} {front back : List DiskNode}
    (order : evictionOrder disk manager.payloadRoot protectedTorrents = front ++ back) (id : String) :
    Truthful (manager.evicted disk removals protectedTorrents front).disk manager.payloadRoot
      (manager.evicted disk removals protectedTorrents front).measuredSizes id := by
  obtain ⟨listed, _⟩ := front_listed order
  have removed : disk.Without (manager.evicted disk removals protectedTorrents front).disk front :=
    evicted_disk removals protectedTorrents manager front
  have clears := without_clears removed listed
  intro size recorded present
  have old : (scanned disk manager.payloadRoot protectedTorrents).sizes.lookup id = some size :=
    Eviction.measuredSizes_foldl recorded
  obtain ⟨node, member, path, rfl⟩ := (take_tallies disk protectedTorrents).recorded old
  rw [← path] at present ⊢
  have stays := (clears.find_isSome member).mp present
  unfold Disk.scannedSize
  rw [Disk.treeSize_without removed listed member stays]

theorem removePart_all (disk : Disk) (path : Path) {left : Path → Bool}
    (all : ∀ inner, left inner = true) : disk.removePart path left = disk := by
  have kept : (disk.removePart path left).nodes = disk.nodes := by
    simp [Disk.removePart, Disk.keep, all]
  cases disk
  cases removed : Disk.removePart _ path left
  simp_all

namespace World

variable {world : World}

theorem enforce_current (fresh : world.Fresh) (faults : Faults) {removals : Removals} (requested : Nat)
    (careful : world.Careful (.enforce faults removals requested)) {id : String}
    (old : id ∉ world.protectedTorrents) :
    (world.perform (.enforce faults removals requested)).Current id := by
  by_cases scannable : Scannable world.disk faults world.manager.payloadRoot world.protectedTorrents
  · obtain ⟨front, back, order, _, _, ends⟩ := @DiskCacheManager.enforce_scannable world.manager
      world.disk faults removals world.protectedTorrents requested scannable
    rcases ends with ⟨_, published, rfl, result⟩ | ⟨failing, rest, code, left, _, fails, _, failed, rfl, result⟩
    · simp only [Current, root, perform, result]
      exact evicted_truthful order id
    · simp only [Current, root, perform, result]
      have whole : ∀ inner, left inner = true := by
        cases removal : removals failing.path with
        | removes => simp [removal, Removal.failure] at fails
        | vanished => simp [removal, Removal.failure] at fails
        | fails _ _ =>
            simp only [removal, Removal.failure, Option.some.injEq, Prod.mk.injEq] at fails
            obtain ⟨rfl, rfl⟩ := fails
            exact careful _ _ _ removal
      have same : ((world.manager.evicted world.disk removals world.protectedTorrents front).fail
          (candidateOf world.disk failing) left).disk =
            (world.manager.evicted world.disk removals world.protectedTorrents front).disk :=
        removePart_all _ _ whole
      rw [same]
      exact evicted_truthful order id
  · obtain ⟨thrown, result⟩ := @DiskCacheManager.enforce_unscannable world.manager world.disk faults
      removals world.protectedTorrents requested scannable
    simp only [Current, root, perform, result]
    exact fresh id old

theorem Fresh.perform {action : WorldAction} (fresh : world.Fresh) (possible : world.Possible action)
    (careful : world.Careful action) : (world.perform action).Fresh := by
  intro id unprotected
  cases action with
  | protect torrents =>
      by_cases old : id ∈ world.protectedTorrents
      · exact careful id old unprotected
      · exact fresh id old
  | write disk => exact write_current (possible id unprotected) (fresh id unprotected)
  | touch faults now torrentId => exact touch_current faults now torrentId id (fresh id unprotected)
  | enforce faults removals requested => exact enforce_current fresh faults requested careful unprotected
  | measure faults => exact measure_current fresh faults unprotected

theorem Fresh.initial (initial : world.Initial) : world.Fresh := by
  obtain ⟨payloadRoot, capacityBytes, created⟩ := initial
  intro id _ size recorded
  rw [created] at recorded
  simp [DiskCacheManager.create] at recorded

theorem Fresh.reports (fresh : world.Fresh) {faults : Faults} {stats : DiskCacheStats}
    (returned : (world.manager.measure world.disk faults world.protectedTorrents).2 = .ok stats) :
    world.Reports stats := by
  have sizes : ∀ nodes : List DiskNode, (∀ node ∈ nodes, node ∈ world.disk.payload world.root) →
      nodes.map (takenSize world.disk world.protectedTorrents world.manager.measuredSizes) =
        nodes.map fun node => world.disk.scannedSize node.path := by
    intro nodes listed
    exact List.map_congr_left fun node member => takenSize_eq fresh (listed node member)
  have taken := measure_tallies world.disk world.protectedTorrents world.manager.measuredSizes
  have counted := take_tallies world.disk world.protectedTorrents
  rcases measure_cases world.manager world.disk faults world.protectedTorrents with
    ⟨thrown, result⟩ | ⟨scan, published, found, rfl, result⟩
  · rw [result] at returned
    simp at returned
  · rw [result] at returned
    obtain rfl := Except.ok.inj returned
    refine ⟨?_, ?_, rfl⟩
    · change scan.used = _
      rw [found, scanned, taken.used_foldl _ (Nat.zero_le _), counted.used_foldl _ (Nat.zero_le _)]
      change min (0 + ((world.disk.payload world.root).map _).sum) _ = _
      rw [sizes _ fun _ member => member]
    · change scan.protectedBytes = _
      rw [found, scanned, taken.protectedBytes_foldl _ (Nat.zero_le _),
        counted.protectedBytes_foldl _ (Nat.zero_le _)]
      change min (0 + (((world.disk.payload world.root).filter _).map _).sum) _ = _
      rw [sizes _ fun _ member => (List.mem_filter.mp member).1]

/-- In a run in which no torrent loses its protection while its recorded size is out of date and no
failing removal deletes anything, every measurement reports what a scan of all directories would. -/
theorem reachable_measures {world : World}
    (reached : Transition.Reachable Initial
      (fun world action => world.Possible action ∧ world.Careful action) perform world)
    {faults : Faults} {stats : DiskCacheStats}
    (returned : (world.manager.measure world.disk faults world.protectedTorrents).2 = .ok stats) :
    world.Reports stats := by
  have fresh : world.Fresh := reached.invariant (fun _ begins => Fresh.initial begins)
    fun _ _ holds possible => holds.perform possible.1 possible.2
  exact fresh.reports returned

/-- The first torrent has nine bytes now. -/
def grown : Disk where
  nodes := [
    { path := ["payload"], type := .directory },
    { path := ["payload", "notes.txt"], type := .regular, size := 9, blocks := 8 },
    { path := ["payload", secondId], type := .directory, lastWrite := 7 },
    { path := ["payload", secondId, "video"], type := .regular, size := 4, blocks := 8 },
    { path := ["payload", firstId], type := .directory, lastWrite := 3 },
    { path := ["payload", firstId, "video"], type := .regular, size := 9, blocks := 8 }]
  distinct := by decide +kernel

theorem grown_tree {id : String} (other : id ≠ firstId) :
    grown.tree ["payload", id] = twoTorrents.tree ["payload", id] := by
  simp [Disk.tree, grown, twoTorrents, List.filter_cons, other]

/-- The first torrent is protected and grows. -/
def growing : World where
  manager := .create ["payload"] 100
  disk := twoTorrents
  protectedTorrents := {firstId}

theorem growing_write (manager : DiskCacheManager) (rooted : manager.payloadRoot = ["payload"]) :
    World.Possible ⟨manager, twoTorrents, {firstId}⟩ (.write grown) := by
  intro id unprotected
  rw [World.root, rooted]
  exact grown_tree (by simpa using unprotected)

theorem reachable_measures_grown :
    Transition.Reachable Initial (fun world action => world.Possible action ∧ world.Careful action)
        perform (growing.perform (.write grown)) ∧
      (growing.perform (.write grown)).Reports
        { capacityBytes := 100, usedBytes := 13, protectedBytes := 9 } := by
  have reached : Transition.Reachable Initial
      (fun world action => world.Possible action ∧ world.Careful action) perform
      (growing.perform (.write grown)) :=
    .step _ (.start ⟨_, _, rfl⟩) ⟨growing_write _ rfl, trivial⟩
  exact ⟨reached, @reachable_measures _ reached {} _ (by decide +kernel)⟩

/-- The first torrent is measured, grows and is then no longer protected: the next measurement reports
the size it had before. -/
theorem measures_fails_grown : ∃ world stats,
    Transition.Reachable Initial Possible perform world ∧
      (world.manager.measure world.disk {} world.protectedTorrents).2 = .ok stats ∧
      ¬ world.Reports stats := by
  have measured : Transition.Reachable Initial Possible perform (growing.perform (.measure {})) :=
    .step _ (.start ⟨_, _, rfl⟩) trivial
  have written := measured.step (.write grown) (growing_write _ rfl)
  have withdrawn := written.step (WorldAction.protect ∅) trivial
  refine ⟨_, { capacityBytes := 100, usedBytes := 8 }, withdrawn, by decide +kernel, ?_⟩
  rintro ⟨used, _⟩
  revert used
  decide +kernel

end World

end NuvioEngine.DiskCache
