import NuvioEngine.Lib.HashMap
import NuvioEngine.Scheduler.SchedulerCore
import Mathlib.Data.Finset.Basic
import Mathlib.Data.String.Basic

/-!
Executable embedding of `disk_cache_manager.cpp`. The file system is a list of its entries with their
paths, in the order an iterator meets them, and every call into it may fail with an error code.
-/

namespace NuvioEngine.DiskCache

open Scheduler (saturatingAdd)

abbrev Path := List String

inductive FileType where
  | regular
  | directory
  | symlink
  | other
  deriving DecidableEq, Repr

/-- What `lstat` tells of an entry; blocks are of 512 bytes. -/
structure DiskNode where
  path : Path
  type : FileType
  size : Int := 0
  blocks : Int := 0
  lastWrite : Int := 0
  deriving DecidableEq, Repr

structure Disk where
  nodes : List DiskNode
  distinct : (nodes.map DiskNode.path).Nodup

inductive ErrorCode where
  | noSuchFileOrDirectory
  | code (value : Nat)
  deriving DecidableEq, Repr

inductive Thrown where
  | systemError (code : ErrorCode) (what : String)
  | filesystemError (code : ErrorCode)
  | runtimeError (what : String)
  | invalidArgument (what : String)
  deriving DecidableEq, Repr

/-- The calls that fail although the entry is there: `symlink_status`, opening a directory, moving an
iterator on from an entry, `stat`, and reading or writing `last_write_time`. -/
structure Faults where
  status : Path → Option Nat := fun _ => none
  iterate : Path → Option Nat := fun _ => none
  advance : Path → Option Nat := fun _ => none
  stat : Path → Option Nat := fun _ => none
  lastWriteTime : Path → Option Nat := fun _ => none

/-- What comes of `remove_all`: it deletes the directory, or others did so since the scan, or it fails
and leaves some of the entries below. -/
inductive Removal where
  | removes
  | vanished
  | fails (code : Nat) (left : Path → Bool)

abbrev Removals := Path → Removal

def Removal.isVanished : Removal → Bool
  | vanished => true
  | removes | fails _ _ => false

namespace Disk

def find (disk : Disk) (path : Path) : Option DiskNode :=
  disk.nodes.find? fun node => node.path = path

def children (disk : Disk) (path : Path) : List DiskNode :=
  disk.nodes.filter fun node => path.isPrefixOf node.path && node.path.length = path.length + 1

/-- What a recursive iterator visits. -/
def below (disk : Disk) (path : Path) : List DiskNode :=
  disk.nodes.filter fun node => path.isPrefixOf node.path && node.path ≠ path

def keep (disk : Disk) (kept : DiskNode → Bool) : Disk :=
  ⟨disk.nodes.filter kept, disk.distinct.sublist (List.filter_sublist.map _)⟩

def removeTree (disk : Disk) (path : Path) : Disk :=
  disk.keep fun node => !path.isPrefixOf node.path

/-- The number of entries `remove_all` deletes. -/
def countTree (disk : Disk) (path : Path) : Nat :=
  (disk.nodes.filter fun node => path.isPrefixOf node.path).length

/-- A `remove_all` that fails has deleted some of what is below the path. -/
def removePart (disk : Disk) (path : Path) (left : Path → Bool) : Disk :=
  disk.keep fun node => !(path.isPrefixOf node.path && node.path ≠ path) || left node.path

def symlinkStatus (disk : Disk) (faults : Faults) (path : Path) : Except ErrorCode FileType :=
  match faults.status path with
  | some code => .error (.code code)
  | none =>
      match disk.find path with
      | none => .error .noSuchFileOrDirectory
      | some node => .ok node.type

def openDirectory (disk : Disk) (faults : Faults) (path : Path) : Option ErrorCode :=
  if (disk.find path).isNone then some .noSuchFileOrDirectory else (faults.iterate path).map .code

def lastWriteTime (disk : Disk) (faults : Faults) (path : Path) : Except ErrorCode Int :=
  match faults.lastWriteTime path with
  | some code => .error (.code code)
  | none =>
      match disk.find path with
      | none => .error .noSuchFileOrDirectory
      | some node => .ok node.lastWrite

def setLastWriteTime (disk : Disk) (path : Path) (time : Int) : Disk where
  nodes := disk.nodes.map fun node => if node.path = path then { node with lastWrite := time } else node
  distinct := by
    have same : (DiskNode.path ∘ fun node : DiskNode =>
        if node.path = path then { node with lastWrite := time } else node) = DiskNode.path := by
      funext node
      simp only [Function.comp_apply]
      split <;> rfl
    rw [List.map_map, same]
    exact disk.distinct

end Disk

def maximumPayloadDirectories : Nat := 4096

def maximumPayloadEntries : Nat := 100000

structure Candidate where
  torrentId : String
  path : Path
  lastUse : Int
  size : Nat
  deriving DecidableEq, Repr

def canonicalTorrentId (value : String) : Bool :=
  (value.length = 40 || value.length = 64) &&
    value.toList.all fun character => character.isDigit || ('a' ≤ character && character ≤ 'f')

def increment (value : Nat) : Nat := if value < uint64Max then value + 1 else value

def DiskNode.storedSize (node : DiskNode) : Nat :=
  let logicalSize := node.size.toNat
  let blocks := node.blocks.toNat
  let allocatedSize := if blocks > uint64Max / 512 then uint64Max else blocks * 512
  min logicalSize allocatedSize

def DiskNode.name (node : DiskNode) : String := node.path.getLast?.getD ""

def storedFileSize (disk : Disk) (faults : Faults) (path : Path) : Except Thrown Nat :=
  match faults.stat path with
  | some code => .error (.systemError (.code code) "measure allocated torrent payload entry")
  | none =>
      match disk.find path with
      | none => .ok 0
      | some node => .ok node.storedSize

/-- A loop over an iterator: the body runs on an entry, and moving on from it may throw. -/
def forEntries {σ : Type} (faults : Faults) (body : σ → DiskNode → Except Thrown σ) :
    List DiskNode → σ → Except Thrown σ
  | [], state => .ok state
  | node :: rest, state =>
      match body state node with
      | .error thrown => .error thrown
      | .ok next =>
          match faults.advance node.path with
          | some code => .error (.filesystemError (.code code))
          | none => forEntries faults body rest next

/-- The body of the loop of `directory_size`, on the size so far and the number of entries. -/
def inspectEntry (disk : Disk) (faults : Faults) (state : Nat × Nat) (node : DiskNode) :
    Except Thrown (Nat × Nat) :=
  if state.2 + 1 > maximumPayloadEntries then
    .error (.runtimeError "torrent payload scan entry limit exceeded")
  else
    match disk.symlinkStatus faults node.path with
    | .error code => .error (.systemError code "inspect torrent payload entry")
    | .ok type =>
        if type ≠ .regular then .ok (state.1, state.2 + 1)
        else
          match storedFileSize disk faults node.path with
          | .error thrown => .error thrown
          | .ok stored => .ok (saturatingAdd state.1 stored, state.2 + 1)

def directorySize (disk : Disk) (faults : Faults) (root : Path) (inspectedEntries : Nat) :
    Except Thrown (Nat × Nat) :=
  match disk.openDirectory faults root with
  | some .noSuchFileOrDirectory => .ok (0, inspectedEntries)
  | some code => .error (.systemError code "scan torrent payload directory")
  | none => forEntries faults (inspectEntry disk faults) (disk.below root) (0, inspectedEntries)

/-- The body of the loop of `visit_torrent_directories`, on the number of entries and what the
visitor keeps. -/
def visitEntry {σ : Type} (disk : Disk) (faults : Faults)
    (visit : σ → String → Path → Except Thrown σ) (state : Nat × σ) (node : DiskNode) :
    Except Thrown (Nat × σ) :=
  if state.1 + 1 > maximumPayloadDirectories then
    .error (.runtimeError "disk cache directory limit exceeded")
  else
    match disk.symlinkStatus faults node.path with
    | .error code => .error (.systemError code "inspect disk cache directory")
    | .ok type =>
        if canonicalTorrentId node.name = false then .ok (state.1 + 1, state.2)
        else if type ≠ .directory then
          .error (.runtimeError "canonical disk cache entry is not a real directory")
        else
          match visit state.2 node.name node.path with
          | .error thrown => .error thrown
          | .ok next => .ok (state.1 + 1, next)

def visitTorrentDirectories {σ : Type} (disk : Disk) (faults : Faults) (root : Path)
    (visit : σ → String → Path → Except Thrown σ) (state : σ) : Except Thrown σ :=
  match disk.symlinkStatus faults root with
  | .error .noSuchFileOrDirectory => .ok state
  | .error code => .error (.systemError code "inspect disk cache root")
  | .ok type =>
      if type ≠ .directory then .error (.runtimeError "disk cache root is not a real directory")
      else
        match disk.openDirectory faults root with
        | some code => .error (.systemError code "scan disk cache root")
        | none => (forEntries faults (visitEntry disk faults visit) (disk.children root) (0, state)).map
            Prod.snd

structure DiskCacheStats where
  capacityBytes : Nat := 0
  usedBytes : Nat := 0
  protectedBytes : Nat := 0
  evictions : Nat := 0
  reclaimedBytes : Nat := 0
  overBudget : Bool := false
  deriving DecidableEq, Repr

structure DiskCacheManager where
  payloadRoot : Path
  stats : DiskCacheStats
  measuredSizes : HashMap String Nat := ∅

/-- What one pass over the payload root collects. -/
structure Scan where
  candidates : List Candidate := []
  sizes : HashMap String Nat := ∅
  used : Nat := 0
  protectedBytes : Nat := 0
  inspectedEntries : Nat := 0

def emplace (sizes : HashMap String Nat) (id : String) (size : Nat) : HashMap String Nat :=
  if (sizes.lookup id).isSome then sizes else sizes.insert id size

/-- What both visitors do with the size of a directory. -/
def Scan.count (scan : Scan) (protectedTorrents : Finset String) (id : String)
    (measured : Nat × Nat) : Scan :=
  { scan with
    sizes := emplace scan.sizes id measured.1
    used := saturatingAdd scan.used measured.1
    protectedBytes := if id ∈ protectedTorrents then saturatingAdd scan.protectedBytes measured.1
      else scan.protectedBytes
    inspectedEntries := measured.2 }

def enforceVisit (disk : Disk) (faults : Faults) (protectedTorrents : Finset String) (scan : Scan)
    (id : String) (path : Path) : Except Thrown Scan :=
  match directorySize disk faults path scan.inspectedEntries with
  | .error thrown => .error thrown
  | .ok measured =>
      let counted := scan.count protectedTorrents id measured
      if id ∈ protectedTorrents then .ok counted
      else
        match disk.lastWriteTime faults path with
        | .error code => .error (.systemError code "inspect disk cache recency")
        | .ok lastUse => .ok { counted with
            candidates := scan.candidates ++ [⟨id, path, lastUse, measured.1⟩] }

/-- The recorded size of a torrent that is not protected, else its size on the disk. -/
def measuredSize (disk : Disk) (faults : Faults) (protectedTorrents : Finset String)
    (measuredSizes : HashMap String Nat) (id : String) (path : Path) (inspectedEntries : Nat) :
    Except Thrown (Nat × Nat) :=
  match measuredSizes.lookup id with
  | some known =>
      if id ∉ protectedTorrents then .ok (known, inspectedEntries)
      else directorySize disk faults path inspectedEntries
  | none => directorySize disk faults path inspectedEntries

def measureVisit (disk : Disk) (faults : Faults) (protectedTorrents : Finset String)
    (measuredSizes : HashMap String Nat) (scan : Scan) (id : String) (path : Path) :
    Except Thrown Scan :=
  (measuredSize disk faults protectedTorrents measuredSizes id path scan.inspectedEntries).map
    fun measured => scan.count protectedTorrents id measured

/-- The order of the evictions. -/
def Candidate.precedes (left right : Candidate) : Prop :=
  left.lastUse < right.lastUse ∨ left.lastUse = right.lastUse ∧ left.torrentId ≤ right.torrentId

instance : DecidableRel Candidate.precedes := fun left right =>
  inferInstanceAs (Decidable (left.lastUse < right.lastUse ∨
    left.lastUse = right.lastUse ∧ left.torrentId ≤ right.torrentId))

/-- What the eviction loop changes. -/
structure Eviction where
  disk : Disk
  measuredSizes : HashMap String Nat
  used : Nat
  reclaimedBytes : Nat
  evictions : Nat

/-- The directory is gone and accounted for. -/
def Eviction.reclaim (state : Eviction) (candidate : Candidate) : Eviction where
  disk := state.disk.removeTree candidate.path
  measuredSizes := state.measuredSizes.erase candidate.torrentId
  used := if candidate.size > state.used then 0 else state.used - candidate.size
  reclaimedBytes := saturatingAdd state.reclaimedBytes candidate.size
  evictions := increment state.evictions

def evict (removals : Removals) (targetBytes : Nat) :
    List Candidate → Eviction → Eviction × Option Thrown
  | [], state => (state, none)
  | candidate :: rest, state =>
      if state.used ≤ targetBytes then (state, none)
      else
        match removals candidate.path with
        | .fails code left =>
            ({ state with disk := state.disk.removePart candidate.path left },
              some (.systemError (.code code) "evict disk cache directory"))
        | .vanished => evict removals targetBytes rest
            { state with disk := state.disk.removeTree candidate.path }
        | .removes =>
            if state.disk.countTree candidate.path = 0 then evict removals targetBytes rest state
            else evict removals targetBytes rest (state.reclaim candidate)

/-- A call that returns its statistics or throws, with the manager and the disk it leaves. -/
structure Outcome where
  manager : DiskCacheManager
  disk : Disk
  result : Except Thrown DiskCacheStats

namespace DiskCacheManager

def create (payloadRoot : Path) (capacityBytes : Nat) : DiskCacheManager :=
  ⟨payloadRoot, { capacityBytes := capacityBytes }, ∅⟩

def touch (manager : DiskCacheManager) (disk : Disk) (faults : Faults) (now : Int)
    (torrentId : String) : Disk × Option Thrown :=
  let path := manager.payloadRoot ++ [torrentId]
  if canonicalTorrentId torrentId = false then
    (disk, some (.invalidArgument "disk cache touch requires a canonical torrent ID"))
  else
    match disk.symlinkStatus faults path with
    | .error .noSuchFileOrDirectory => (disk, none)
    | .error code => (disk, some (.systemError code "inspect disk cache entry"))
    | .ok type =>
        if type ≠ .directory then
          (disk, some (.runtimeError "disk cache entry is not a real directory"))
        else
          match faults.lastWriteTime path with
          | some code => (disk, some (.systemError (.code code) "touch disk cache entry"))
          | none => (disk.setLastWriteTime path now, none)

def scan (manager : DiskCacheManager) (disk : Disk) (faults : Faults)
    (protectedTorrents : Finset String) : Except Thrown Scan :=
  visitTorrentDirectories disk faults manager.payloadRoot (enforceVisit disk faults protectedTorrents) {}

/-- The statistics and sizes a pass leaves. -/
def publish (manager : DiskCacheManager) (used protectedBytes : Nat) : DiskCacheManager :=
  { manager with stats := { manager.stats with
      usedBytes := used
      protectedBytes := protectedBytes
      overBudget := used > manager.stats.capacityBytes } }

/-- The part of `enforce` after the scan. -/
def enforceScanned (manager : DiskCacheManager) (disk : Disk) (removals : Removals)
    (requestedTargetBytes : Nat) (scan : Scan) : Outcome :=
  let targetBytes := min requestedTargetBytes manager.stats.capacityBytes
  let evicted := evict removals targetBytes (scan.candidates.insertionSort Candidate.precedes) {
    disk := disk
    measuredSizes := scan.sizes
    used := scan.used
    reclaimedBytes := manager.stats.reclaimedBytes
    evictions := manager.stats.evictions }
  let counted : DiskCacheManager := { manager with
    measuredSizes := evicted.1.measuredSizes
    stats := { manager.stats with
      reclaimedBytes := evicted.1.reclaimedBytes
      evictions := evicted.1.evictions } }
  match evicted.2 with
  | some thrown => ⟨counted, evicted.1.disk, .error thrown⟩
  | none =>
      let published := counted.publish evicted.1.used scan.protectedBytes
      ⟨published, evicted.1.disk, .ok published.stats⟩

def enforce (manager : DiskCacheManager) (disk : Disk) (faults : Faults) (removals : Removals)
    (protectedTorrents : Finset String) (requestedTargetBytes : Nat) : Outcome :=
  match manager.scan disk faults protectedTorrents with
  | .error thrown => ⟨manager, disk, .error thrown⟩
  | .ok scan => manager.enforceScanned disk removals requestedTargetBytes scan

def measure (manager : DiskCacheManager) (disk : Disk) (faults : Faults)
    (protectedTorrents : Finset String) : DiskCacheManager × Except Thrown DiskCacheStats :=
  match visitTorrentDirectories disk faults manager.payloadRoot
      (measureVisit disk faults protectedTorrents manager.measuredSizes) {} with
  | .error thrown => (manager, .error thrown)
  | .ok scan =>
      let published := ({ manager with measuredSizes := scan.sizes }).publish scan.used
        scan.protectedBytes
      (published, .ok published.stats)

end DiskCacheManager

end NuvioEngine.DiskCache
