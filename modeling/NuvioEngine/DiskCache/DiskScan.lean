import NuvioEngine.DiskCache.DiskCacheCore
import NuvioEngine.Lib.CheckedFold
import Mathlib.Data.Nat.Cast.Basic

/-! When a scan of the payload root gets through, and what it then has found. -/

namespace NuvioEngine.DiskCache

open Scheduler (saturatingAdd)
open CheckedFold

theorem saturatingAdd_eq_min {left : Nat} (fits : left ≤ uint64Max) (right : Nat) :
    saturatingAdd left right = min (left + right) uint64Max := by
  unfold saturatingAdd
  split <;> omega

theorem foldl_saturatingAdd {α : Type} (weight : α → Nat) (items : List α) {start : Nat}
    (fits : start ≤ uint64Max) :
    items.foldl (fun total item => saturatingAdd total (weight item)) start =
      min (start + (items.map weight).sum) uint64Max := by
  induction items generalizing start with
  | nil => simpa using fits
  | cons item rest ih =>
      rw [List.foldl_cons, saturatingAdd_eq_min fits, ih (Nat.min_le_right _ _), List.map_cons,
        List.sum_cons]
      omega

namespace Disk

variable {disk : Disk} {node : DiskNode} {path : Path}

theorem find_of_mem (member : node ∈ disk.nodes) : disk.find node.path = some node := by
  have present : (disk.find node.path).isSome := by
    rw [find, List.find?_isSome]
    exact ⟨node, member, by simp⟩
  obtain ⟨other, found⟩ := Option.isSome_iff_exists.mp present
  have same : other.path = node.path := by simpa using List.find?_some found
  rw [found, List.inj_on_of_nodup_map disk.distinct (List.mem_of_find?_eq_some found) member same]

theorem mem_below : node ∈ disk.below path ↔
    node ∈ disk.nodes ∧ path <+: node.path ∧ node.path ≠ path := by
  simp [below, List.isPrefixOf_iff_prefix]

theorem mem_children : node ∈ disk.children path ↔
    node ∈ disk.nodes ∧ path <+: node.path ∧ node.path.length = path.length + 1 := by
  simp [children, List.isPrefixOf_iff_prefix]

theorem child_path (member : node ∈ disk.children path) : node.path = path ++ [node.name] := by
  obtain ⟨_, ⟨rest, extended⟩, length⟩ := mem_children.mp member
  rw [← extended, List.length_append] at length
  obtain ⟨name, rfl⟩ := List.length_eq_one_iff.mp (by omega : rest.length = 1)
  rw [DiskNode.name, ← extended]
  simp

/-- The directories a scan is about. -/
def payload (disk : Disk) (root : Path) : List DiskNode :=
  if (disk.find root).isSome then (disk.children root).filter fun node => canonicalTorrentId node.name
  else []

end Disk

/-- What an entry adds to the size of the directories above it. -/
def DiskNode.charge (node : DiskNode) : Nat := if node.type = .regular then node.storedSize else 0

def Disk.treeSize (disk : Disk) (path : Path) : Nat := ((disk.below path).map DiskNode.charge).sum

def Readable (faults : Faults) (node : DiskNode) : Prop :=
  faults.status node.path = none ∧ (node.type = .regular → faults.stat node.path = none)

/-- Nothing fails below a directory. -/
def Measurable (disk : Disk) (faults : Faults) (path : Path) : Prop :=
  faults.iterate path = none ∧
    ∀ node ∈ disk.below path, Readable faults node ∧ faults.advance node.path = none

theorem forEntries_ok_iff {σ : Type} {faults : Faults} {body : σ → DiskNode → Except Thrown σ}
    {good : σ → DiskNode → Prop} {next : σ → DiskNode → σ} {nodes : List DiskNode}
    (spec : ∀ state, ∀ node ∈ nodes, ∀ result,
      body state node = .ok result ↔ good state node ∧ result = next state node)
    {state result : σ} :
    forEntries faults body nodes state = .ok result ↔
      (∀ node ∈ nodes, faults.advance node.path = none) ∧ Accepts good next nodes state ∧
        result = nodes.foldl next state := by
  induction nodes generalizing state with
  | nil => simp [forEntries, Accepts, eq_comm]
  | cons node rest ih =>
      have others : ∀ current, _ := fun current => @ih (fun other later member => spec other later
        (List.mem_cons_of_mem _ member)) current
      have first := spec state node List.mem_cons_self
      simp only [Accepts, List.forall_mem_cons, List.foldl_cons]
      cases ran : body state node with
      | error thrown =>
          have bad : ¬ good state node := by
            intro fine
            have passed := (first (next state node)).mpr ⟨fine, rfl⟩
            rw [ran] at passed
            simp at passed
          simp [forEntries, ran, bad]
      | ok taken =>
          obtain ⟨fine, rfl⟩ := (first taken).mp ran
          cases moves : faults.advance node.path with
          | some code => simp [forEntries, ran, moves]
          | none => simp [forEntries, ran, moves, others, fine]

theorem inspectEntry_ok_iff {disk : Disk} {faults : Faults} {node : DiskNode}
    (member : node ∈ disk.nodes) (state result : Nat × Nat) :
    inspectEntry disk faults state node = .ok result ↔
      (Readable faults node ∧ state.2 + 1 ≤ maximumPayloadEntries) ∧
        result = (saturatingAdd state.1 node.charge, state.2 + 1) := by
  have kept : saturatingAdd state.1 0 = state.1 := by simp [saturatingAdd]
  have found := disk.find_of_mem member
  by_cases limit : state.2 + 1 > maximumPayloadEntries
  · have beyond : ¬ state.2 + 1 ≤ maximumPayloadEntries := by omega
    simp [inspectEntry, limit, beyond]
  · have within : state.2 + 1 ≤ maximumPayloadEntries := by omega
    cases status : faults.status node.path with
    | some code => simp [inspectEntry, limit, Disk.symlinkStatus, Readable, status]
    | none =>
        by_cases regular : node.type = .regular
        · cases stat : faults.stat node.path with
          | some code =>
              simp [inspectEntry, limit, Disk.symlinkStatus, Readable, status, found, regular,
                storedFileSize, stat]
          | none =>
              simp [inspectEntry, limit, within, Disk.symlinkStatus, Readable, status, found, regular,
                storedFileSize, stat, DiskNode.charge, eq_comm]
        · simp [inspectEntry, limit, within, Disk.symlinkStatus, Readable, status, found, regular,
            DiskNode.charge, kept, eq_comm]

theorem foldl_inspect (nodes : List DiskNode) (state : Nat × Nat) :
    nodes.foldl (fun current node => (saturatingAdd current.1 node.charge, current.2 + 1)) state =
      (nodes.foldl (fun total node => saturatingAdd total node.charge) state.1,
        state.2 + nodes.length) := by
  induction nodes generalizing state with
  | nil => rfl
  | cons node rest ih =>
      rw [List.foldl_cons, ih, List.foldl_cons, List.length_cons]
      simp only
      rw [Nat.add_assoc, Nat.add_comm 1]

theorem directorySize_ok_iff {disk : Disk} {faults : Faults} {path : Path}
    (present : (disk.find path).isSome = true) {inspected : Nat}
    (within : inspected ≤ maximumPayloadEntries) (result : Nat × Nat) :
    directorySize disk faults path inspected = .ok result ↔
      (Measurable disk faults path ∧
          inspected + (disk.below path).length ≤ maximumPayloadEntries) ∧
        result = (min (disk.treeSize path) uint64Max, inspected + (disk.below path).length) := by
  have absent : (disk.find path).isNone = false := by simpa using present
  have loop : ∀ result, forEntries faults (inspectEntry disk faults) (disk.below path)
      (0, inspected) = .ok result ↔ _ := fun result => forEntries_ok_iff
    fun state node member => inspectEntry_ok_iff (Disk.mem_below.mp member).1 state
  have counted : Accepts (fun state node => Readable faults node ∧ state.2 + 1 ≤ maximumPayloadEntries)
      (fun state node => (saturatingAdd state.1 node.charge, state.2 + 1)) (disk.below path)
      ((0 : Nat), inspected) ↔ _ :=
    accepts_iff_counted Prod.snd (fun _ => 1) (fun _ _ _ _ => Iff.rfl) (fun _ _ => rfl) within
  have length : ((disk.below path).map fun _ => 1).sum = (disk.below path).length := by
    simp
  rw [length] at counted
  rw [directorySize, Disk.openDirectory, absent]
  cases opens : faults.iterate path with
  | some code => simp [Measurable, opens]
  | none =>
      simp only [Bool.false_eq_true, if_false, Option.map_none]
      rw [loop, counted, foldl_inspect, foldl_saturatingAdd _ _ (Nat.zero_le _), Nat.zero_add]
      simp only [Measurable, opens, true_and, imp_and, forall_and, Disk.treeSize]
      constructor
      · rintro ⟨moves, ⟨readable, bound⟩, same⟩
        exact ⟨⟨⟨readable, moves⟩, bound⟩, same⟩
      · rintro ⟨⟨⟨readable, moves⟩, bound⟩, same⟩
        exact ⟨moves, ⟨readable, bound⟩, same⟩

/-- The root can be listed, and every canonical name in it is a directory. -/
structure Listable (disk : Disk) (faults : Faults) (root : Path) : Prop where
  status : faults.status root = none
  directory : ∀ node, disk.find root = some node → node.type = .directory ∧
    faults.iterate root = none
  bounded : (disk.find root).isSome → (disk.children root).length ≤ maximumPayloadDirectories
  children : (disk.find root).isSome → ∀ child ∈ disk.children root,
    (faults.status child.path = none ∧
      (canonicalTorrentId child.name = true → child.type = .directory)) ∧
        faults.advance child.path = none

section Visit

variable {σ : Type} {disk : Disk} {faults : Faults} {visit : σ → String → Path → Except Thrown σ}
  {good : σ → DiskNode → Prop} {next : σ → DiskNode → σ}

theorem visitEntry_ok_iff {node : DiskNode} (member : node ∈ disk.nodes)
    (spec : ∀ state result, visit state node.name node.path = .ok result ↔
      good state node ∧ result = next state node) (state result : Nat × σ) :
    visitEntry disk faults visit state node = .ok result ↔
      (state.1 + 1 ≤ maximumPayloadDirectories ∧ (faults.status node.path = none ∧
        (canonicalTorrentId node.name = true → node.type = .directory)) ∧
          (canonicalTorrentId node.name = true → good state.2 node)) ∧
        result = (state.1 + 1, if canonicalTorrentId node.name then next state.2 node else state.2) := by
  have found := disk.find_of_mem member
  by_cases limit : state.1 + 1 > maximumPayloadDirectories
  · have beyond : ¬ state.1 + 1 ≤ maximumPayloadDirectories := by omega
    simp [visitEntry, limit, beyond]
  · have within : state.1 + 1 ≤ maximumPayloadDirectories := by omega
    cases status : faults.status node.path with
    | some code => simp [visitEntry, limit, Disk.symlinkStatus, status]
    | none =>
        cases canonical : canonicalTorrentId node.name with
        | false => simp [visitEntry, limit, within, Disk.symlinkStatus, status, found, canonical, eq_comm]
        | true =>
            by_cases directory : node.type = .directory
            · cases ran : visit state.2 node.name node.path with
              | error thrown =>
                  have bad : ¬ good state.2 node := by
                    intro fine
                    have passed := (spec state.2 (next state.2 node)).mpr ⟨fine, rfl⟩
                    rw [ran] at passed
                    simp at passed
                  simp [visitEntry, limit, Disk.symlinkStatus, status, found, canonical, directory,
                    ran, bad]
              | ok taken =>
                  obtain ⟨fine, rfl⟩ := (spec state.2 taken).mp ran
                  simp [visitEntry, limit, within, Disk.symlinkStatus, status, found, canonical,
                    directory, ran, fine, eq_comm]
            · simp [visitEntry, limit, Disk.symlinkStatus, status, found, canonical, directory]

theorem foldl_visit (nodes : List DiskNode) (state : Nat × σ) :
    (nodes.foldl (fun current node => (current.1 + 1,
      if canonicalTorrentId node.name then next current.2 node else current.2)) state).2 =
      (nodes.filter fun node => canonicalTorrentId node.name).foldl next state.2 := by
  induction nodes generalizing state with
  | nil => rfl
  | cons node rest ih =>
      rw [List.foldl_cons, ih, List.filter_cons]
      split <;> rfl

theorem accepts_visit (faults : Faults) (good : σ → DiskNode → Prop) (next : σ → DiskNode → σ) (nodes : List DiskNode) (state : Nat × σ)
    (within : state.1 ≤ maximumPayloadDirectories) :
    Accepts (fun current node => current.1 + 1 ≤ maximumPayloadDirectories ∧
        (faults.status node.path = none ∧
          (canonicalTorrentId node.name = true → node.type = .directory)) ∧
          (canonicalTorrentId node.name = true → good current.2 node))
      (fun current node => (current.1 + 1,
        if canonicalTorrentId node.name then next current.2 node else current.2)) nodes state ↔
      state.1 + nodes.length ≤ maximumPayloadDirectories ∧
        (∀ node ∈ nodes, faults.status node.path = none ∧
          (canonicalTorrentId node.name = true → node.type = .directory)) ∧
        Accepts good next (nodes.filter fun node => canonicalTorrentId node.name) state.2 := by
  induction nodes generalizing state with
  | nil => simpa [Accepts] using within
  | cons node rest ih =>
      simp only [Accepts, List.forall_mem_cons, List.length_cons]
      by_cases bound : state.1 + 1 ≤ maximumPayloadDirectories
      · rw [ih _ bound]
        cases canonical : canonicalTorrentId node.name with
        | false =>
            simp only [List.filter_cons, canonical, Bool.false_eq_true, if_false, false_imp_iff,
              and_true, bound, true_and]
            rw [Nat.add_assoc, Nat.add_comm 1]
            tauto
        | true =>
            simp only [List.filter_cons, canonical, if_true, true_imp_iff, bound, true_and, Accepts]
            rw [Nat.add_assoc, Nat.add_comm 1]
            tauto
      · constructor
        · intro all
          exact absurd all.1.1 bound
        · intro all
          omega

theorem visitTorrentDirectories_ok_iff {root : Path}
    (spec : ∀ state, ∀ node ∈ disk.children root, ∀ result,
      visit state node.name node.path = .ok result ↔ good state node ∧ result = next state node)
    (state result : σ) :
    visitTorrentDirectories disk faults root visit state = .ok result ↔
      Listable disk faults root ∧ Accepts good next (disk.payload root) state ∧
        result = (disk.payload root).foldl next state := by
  cases status : faults.status root with
  | some code =>
      have closed : ¬ Listable disk faults root := by
        intro listable
        simpa [status] using listable.status
      simp [visitTorrentDirectories, Disk.symlinkStatus, status, closed]
  | none =>
      cases found : disk.find root with
      | none =>
          have listable : Listable disk faults root :=
            ⟨status, by simp [found], by simp [found], by simp [found]⟩
          simp [visitTorrentDirectories, Disk.symlinkStatus, status, found, listable, Disk.payload,
            Accepts, eq_comm]
      | some node =>
          by_cases directory : node.type = .directory
          · cases opens : faults.iterate root with
            | some code =>
                have closed : ¬ Listable disk faults root := by
                  intro listable
                  simpa [opens] using (listable.directory node found).2
                simp [visitTorrentDirectories, Disk.symlinkStatus, Disk.openDirectory, status, found,
                  directory, opens, closed]
            | none =>
                have listed : disk.payload root =
                    (disk.children root).filter fun child => canonicalTorrentId child.name := by
                  simp [Disk.payload, found]
                have loop : ∀ result, forEntries faults (visitEntry disk faults visit)
                    (disk.children root) (0, state) = .ok result ↔ _ := fun result =>
                  forEntries_ok_iff fun current child member => visitEntry_ok_iff
                    (Disk.mem_children.mp member).1 (fun before => spec before child member) current
                have accepted := accepts_visit faults good next (disk.children root)
                  (0, state) (Nat.zero_le _)
                have ran : visitTorrentDirectories disk faults root visit state =
                    (forEntries faults (visitEntry disk faults visit) (disk.children root)
                      (0, state)).map Prod.snd := by
                  simp [visitTorrentDirectories, Disk.symlinkStatus, Disk.openDirectory, status, found,
                    directory, opens]
                have mapped : ∀ outcome : Except Thrown (Nat × σ), outcome.map Prod.snd = .ok result ↔
                    ∃ last, outcome = .ok last ∧ last.2 = result := by
                  intro outcome
                  cases outcome <;> simp [Except.map]
                rw [ran, mapped, listed]
                constructor
                · rintro ⟨last, finished, rfl⟩
                  obtain ⟨moves, accepts, rfl⟩ := (loop last).mp finished
                  obtain ⟨bound, checked, visited⟩ := accepted.mp accepts
                  refine ⟨⟨status, ?_, fun _ => by simpa using bound, fun _ child member =>
                    ⟨checked child member, moves child member⟩⟩, visited, foldl_visit _ _⟩
                  intro other same
                  rw [found] at same
                  obtain rfl := Option.some.inj same
                  exact ⟨directory, opens⟩
                · rintro ⟨listable, visited, rfl⟩
                  have present : (disk.find root).isSome = true := by simp [found]
                  refine ⟨_, (loop _).mpr ⟨fun child member => (listable.children present child
                    member).2, accepted.mpr ⟨?_, fun child member => (listable.children present child
                      member).1, visited⟩, rfl⟩, foldl_visit _ _⟩
                  simpa using listable.bounded present
          · have closed : ¬ Listable disk faults root := by
              intro listable
              exact directory (listable.directory node found).1
            simp [visitTorrentDirectories, Disk.symlinkStatus, status, found, directory, closed]

end Visit

/-- The size a scan finds for a directory. -/
def Disk.scannedSize (disk : Disk) (path : Path) : Nat := min (disk.treeSize path) uint64Max

theorem directorySize_ok {disk : Disk} {faults : Faults} {path : Path}
    (present : (disk.find path).isSome = true) {inspected : Nat} {result : Nat × Nat}
    (measured : directorySize disk faults path inspected = .ok result) :
    result = (disk.scannedSize path, inspected + (disk.below path).length) := by
  have absent : (disk.find path).isNone = false := by simpa using present
  rw [directorySize, Disk.openDirectory, absent] at measured
  cases opens : faults.iterate path with
  | some code => simp [opens] at measured
  | none =>
      simp only [opens, Bool.false_eq_true, if_false, Option.map_none] at measured
      have finished := (forEntries_ok_iff fun state node member =>
        inspectEntry_ok_iff (Disk.mem_below.mp member).1 state).mp measured
      rw [finished.2.2, foldl_inspect, foldl_saturatingAdd _ _ (Nat.zero_le _), Nat.zero_add]
      rfl

def candidateOf (disk : Disk) (node : DiskNode) : Candidate :=
  ⟨node.name, node.path, node.lastWrite, disk.scannedSize node.path⟩

/-- One directory more of the scan of `enforce`. -/
def Scan.take (disk : Disk) (protectedTorrents : Finset String) (scan : Scan) (node : DiskNode) : Scan :=
  { scan.count protectedTorrents node.name
      (disk.scannedSize node.path, scan.inspectedEntries + (disk.below node.path).length) with
    candidates := if node.name ∈ protectedTorrents then scan.candidates
      else scan.candidates ++ [candidateOf disk node] }

theorem Disk.find_child {disk : Disk} {root : Path} {node : DiskNode} (member : node ∈ disk.children root) :
    disk.find node.path = some node :=
  disk.find_of_mem (mem_children.mp member).1

theorem enforceVisit_ok_iff {disk : Disk} {faults : Faults} {root : Path}
    {protectedTorrents : Finset String} {node : DiskNode} (member : node ∈ disk.children root)
    (scan result : Scan) :
    enforceVisit disk faults protectedTorrents scan node.name node.path = .ok result ↔
      ((∃ measured, directorySize disk faults node.path scan.inspectedEntries = .ok measured) ∧
        (node.name ∈ protectedTorrents ∨ faults.lastWriteTime node.path = none)) ∧
        result = scan.take disk protectedTorrents node := by
  have found := Disk.find_child member
  cases sized : directorySize disk faults node.path scan.inspectedEntries with
  | error thrown => simp [enforceVisit, sized]
  | ok measured =>
      obtain rfl := directorySize_ok (by simp [found]) sized
      by_cases covered : node.name ∈ protectedTorrents
      · simp [enforceVisit, sized, covered, Scan.take, Scan.count, eq_comm]
      · cases reads : faults.lastWriteTime node.path with
        | some code => simp [enforceVisit, sized, covered, Disk.lastWriteTime, reads]
        | none =>
            simp [enforceVisit, sized, covered, Disk.lastWriteTime, reads, found, Scan.take, Scan.count,
              candidateOf, eq_comm]

/-- The payload root can be scanned: no call fails and no limit is reached. -/
structure Scannable (disk : Disk) (faults : Faults) (root : Path) (protectedTorrents : Finset String) :
    Prop where
  listable : Listable disk faults root
  measurable : ∀ node ∈ disk.payload root, Measurable disk faults node.path ∧
    (node.name ∈ protectedTorrents ∨ faults.lastWriteTime node.path = none)
  bounded : ((disk.payload root).map fun node => (disk.below node.path).length).sum ≤
    maximumPayloadEntries

theorem Disk.mem_payload {disk : Disk} {root : Path} {node : DiskNode} :
    node ∈ disk.payload root ↔ (disk.find root).isSome = true ∧ node ∈ disk.children root ∧
      canonicalTorrentId node.name = true := by
  unfold payload
  split
  · rename_i present
    simp [present]
  · rename_i absent
    simp [absent]

theorem scan_ok_iff (manager : DiskCacheManager) (disk : Disk) (faults : Faults)
    (protectedTorrents : Finset String) (scan : Scan) :
    manager.scan disk faults protectedTorrents = .ok scan ↔
      Scannable disk faults manager.payloadRoot protectedTorrents ∧
        scan = (disk.payload manager.payloadRoot).foldl (Scan.take disk protectedTorrents) {} := by
  have visits : manager.scan disk faults protectedTorrents = .ok scan ↔ _ :=
    visitTorrentDirectories_ok_iff
      (fun state node member => enforceVisit_ok_iff member state) {} scan
  have counted : Accepts (fun (state : Scan) (node : DiskNode) =>
        (∃ measured, directorySize disk faults node.path state.inspectedEntries = .ok measured) ∧
          (node.name ∈ protectedTorrents ∨ faults.lastWriteTime node.path = none))
      (Scan.take disk protectedTorrents) (disk.payload manager.payloadRoot) {} ↔
      (∀ node ∈ disk.payload manager.payloadRoot, Measurable disk faults node.path ∧
        (node.name ∈ protectedTorrents ∨ faults.lastWriteTime node.path = none)) ∧
      0 + ((disk.payload manager.payloadRoot).map fun node => (disk.below node.path).length).sum ≤
        maximumPayloadEntries := by
    refine accepts_iff_counted Scan.inspectedEntries (fun node : DiskNode => (disk.below node.path).length) ?_
      (fun _ _ => rfl) (Nat.zero_le _)
    intro state node member within
    have present : (disk.find node.path).isSome = true := by
      simp [Disk.find_child (Disk.mem_payload.mp member).2.1]
    have sized : ∀ result, directorySize disk faults node.path state.inspectedEntries = .ok result ↔
        _ := directorySize_ok_iff present within
    constructor
    · rintro ⟨⟨measured, taken⟩, recent⟩
      obtain ⟨⟨measurable, bound⟩, _⟩ := (sized measured).mp taken
      exact ⟨⟨measurable, recent⟩, bound⟩
    · rintro ⟨⟨measurable, recent⟩, bound⟩
      exact ⟨⟨_, (sized _).mpr ⟨⟨measurable, bound⟩, rfl⟩⟩, recent⟩
  rw [visits, counted]
  simp only [Nat.zero_add]
  constructor
  · rintro ⟨listable, ⟨measurable, bound⟩, same⟩
    exact ⟨⟨listable, measurable, bound⟩, same⟩
  · rintro ⟨scannable, same⟩
    exact ⟨scannable.listable, ⟨scannable.measurable, scannable.bounded⟩, same⟩

end NuvioEngine.DiskCache
