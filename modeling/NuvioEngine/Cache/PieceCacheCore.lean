import NuvioEngine.Lib.HashMap
import NuvioEngine.Scheduler.SchedulerCore

/-!
Executable embedding of `verified_piece_cache.cpp`: a hash map of piece buffers and a linked list of
their keys, most recent first. A node of the list has an address, and an entry of the map holds the
address of its node.
-/

namespace NuvioEngine.Cache

structure PieceKey where
  torrentId : String
  piece : Nat
  deriving DecidableEq, Repr

structure Node where
  address : Nat
  key : PieceKey

structure Entry where
  data : List UInt8
  recency : Nat

structure VerifiedPieceCache where
  capacityBytes : Nat
  usedBytes : Nat := 0
  hits : Nat := 0
  misses : Nat := 0
  evictions : Nat := 0
  recency : List Node := []
  nextAddress : Nat := 0
  entries : HashMap PieceKey Entry := ∅

namespace VerifiedPieceCache

def increment (counter : Nat) : Nat := if counter < uint64Max then counter + 1 else counter

/-- `splice` of a node to the front of its own list. -/
def splice (recency : List Node) (address : Nat) : List Node :=
  (recency.filter fun node => node.address = address) ++
    recency.filter fun node => node.address ≠ address

def get (cache : VerifiedPieceCache) (key : PieceKey) : Option (List UInt8) × VerifiedPieceCache :=
  match cache.entries.lookup key with
  | none => (none, { cache with misses := increment cache.misses })
  | some found =>
      (some found.data, { cache with
        recency := splice cache.recency found.recency
        hits := increment cache.hits })

def contains (cache : VerifiedPieceCache) (key : PieceKey) : Bool :=
  (cache.entries.lookup key).isSome

def erase (cache : VerifiedPieceCache) (key : PieceKey) : VerifiedPieceCache :=
  match cache.entries.lookup key with
  | none => cache
  | some entry => { cache with
      usedBytes := sub64 cache.usedBytes entry.data.length
      recency := cache.recency.filter fun node => node.address ≠ entry.recency
      entries := cache.entries.erase key }

/-- The eviction loop of `put`; its first argument is the recency list from its back. -/
def evict (size : Nat) : List Node → VerifiedPieceCache → VerifiedPieceCache
  | [], cache => cache
  | least :: rest, cache =>
      if cache.usedBytes > sub64 cache.capacityBytes size then
        match cache.entries.lookup least.key with
        | none => evict size rest { cache with recency := cache.recency.dropLast }
        | some _ =>
            evict size rest { cache.erase least.key with evictions := increment cache.evictions }
      else cache

/-- The part of `put` after the eviction; the key is new unless the map refuses it. -/
def insert (cache : VerifiedPieceCache) (key : PieceKey) (data : List UInt8) : VerifiedPieceCache :=
  let pushed := { cache with
    recency := ⟨cache.nextAddress, key⟩ :: cache.recency
    nextAddress := cache.nextAddress + 1
    usedBytes := add64 cache.usedBytes data.length }
  match cache.entries.lookup key with
  | none => { pushed with entries := pushed.entries.insert key ⟨data, cache.nextAddress⟩ }
  | some _ => { pushed with
      usedBytes := sub64 pushed.usedBytes data.length
      recency := pushed.recency.tail }

/-- The buffer is shared, and may be null. -/
def put (cache : VerifiedPieceCache) (key : PieceKey) (data : Option (List UInt8)) : VerifiedPieceCache :=
  let cleared := cache.erase key
  match data with
  | none => cleared
  | some data =>
      if data.isEmpty ∨ data.length > cleared.capacityBytes then cleared
      else (evict data.length cleared.recency.reverse cleared).insert key data

def eraseTorrent (cache : VerifiedPieceCache) (torrentId : String) : VerifiedPieceCache :=
  cache.entries.keys.foldl (fun current key =>
    if key.torrentId = torrentId then current.erase key else current) cache

def clear (cache : VerifiedPieceCache) : VerifiedPieceCache :=
  { cache with entries := ∅, recency := [], usedBytes := 0 }

end VerifiedPieceCache

end NuvioEngine.Cache
