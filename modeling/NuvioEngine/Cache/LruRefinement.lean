import NuvioEngine.Cache.PieceCacheCore
import NuvioEngine.Lib.Lru

/-! The cache of verified pieces refines a map that is bounded in bytes and drops the least recent. -/

namespace NuvioEngine.Cache

/-- A buffer with its key and the address of its node in the recency list. -/
structure Row where
  address : Nat
  key : PieceKey
  data : List UInt8

def Row.node (row : Row) : Node := ⟨row.address, row.key⟩

def Row.entry (row : Row) : Entry := ⟨row.data, row.address⟩

def Row.size (row : Row) : Nat := row.data.length

theorem sub64_of_le {left right : Nat} (less : right ≤ left) (small : left ≤ uint64Max) :
    sub64 left right = left - right := by
  unfold sub64
  simp only [uint64Max] at small
  rw [Nat.mod_eq_of_lt (show right < 2 ^ 64 by omega)]
  omega

theorem add64_of_le {left right : Nat} (small : left + right ≤ uint64Max) :
    add64 left right = left + right := by
  unfold add64
  simp only [uint64Max] at small
  omega

/-- The map and the list of the cache hold the same rows, most recent first, and the counter of used
bytes is their total size. -/
structure Mirrors (cache : VerifiedPieceCache) (rows : List Row) : Prop where
  recency : cache.recency = rows.map Row.node
  entries : ∀ key entry, cache.entries.lookup key = some entry ↔
    ∃ row ∈ rows, row.key = key ∧ row.entry = entry
  keys : (rows.map Row.key).Nodup
  addresses : (rows.map Row.address).Nodup
  fresh : ∀ row ∈ rows, row.address < cache.nextAddress
  used : cache.usedBytes = Lru.total Row.size rows
  bounded : cache.usedBytes ≤ cache.capacityBytes
  capacity : cache.capacityBytes ≤ uint64Max

namespace Mirrors

variable {cache : VerifiedPieceCache} {rows : List Row}

theorem lookup (mirrors : Mirrors cache rows) {row : Row} (member : row ∈ rows) :
    cache.entries.lookup row.key = some row.entry :=
  (mirrors.entries _ _).mpr ⟨row, member, rfl, rfl⟩

theorem lookup_none (mirrors : Mirrors cache rows) {key : PieceKey} :
    cache.entries.lookup key = none ↔ ∀ row ∈ rows, row.key ≠ key := by
  constructor
  · intro absent row member same
    rw [← same, mirrors.lookup member] at absent
    simp at absent
  · intro absent
    rw [Option.eq_none_iff_forall_ne_some]
    intro entry found
    obtain ⟨row, member, same, _⟩ := (mirrors.entries _ _).mp found
    exact absent row member same

theorem address_iff (mirrors : Mirrors cache rows) {row other : Row} (first : row ∈ rows)
    (second : other ∈ rows) : other.address = row.address ↔ other.key = row.key := by
  constructor
  · intro same
    rw [List.inj_on_of_nodup_map mirrors.addresses second first same]
  · intro same
    rw [List.inj_on_of_nodup_map mirrors.keys second first same]

theorem filter_address (mirrors : Mirrors cache rows) {row : Row} (member : row ∈ rows) :
    (rows.filter fun other => other.address ≠ row.address) =
      rows.filter fun other => other.key ≠ row.key := by
  refine List.filter_congr fun other present => ?_
  simp only [ne_eq, mirrors.address_iff member present]

end Mirrors

theorem keys_apart {before after : List Row} {row : Row}
    (keys : ((before ++ row :: after).map Row.key).Nodup) :
    (∀ other ∈ before, other.key ≠ row.key) ∧ ∀ other ∈ after, other.key ≠ row.key := by
  rw [List.map_append, List.map_cons, List.nodup_append] at keys
  obtain ⟨_, inner, apart⟩ := keys
  constructor
  · intro other member same
    exact apart _ (List.mem_map_of_mem member) _ List.mem_cons_self same
  · intro other member same
    exact (List.nodup_cons.mp inner).1 (same ▸ List.mem_map_of_mem member)

theorem filter_split {before after : List Row} {row : Row}
    (keys : ((before ++ row :: after).map Row.key).Nodup) :
    ((before ++ row :: after).filter fun other => other.key ≠ row.key) = before ++ after ∧
      ((before ++ row :: after).filter fun other => other.key = row.key) = [row] := by
  obtain ⟨first, second⟩ := keys_apart keys
  constructor
  · rw [List.filter_append, List.filter_cons_of_neg (by simp),
      List.filter_eq_self.mpr (by simpa using first), List.filter_eq_self.mpr (by simpa using second)]
  · rw [List.filter_append, List.filter_cons_of_pos (by simp),
      List.filter_eq_nil_iff.mpr (by simpa using first),
      List.filter_eq_nil_iff.mpr (by simpa using second), List.nil_append]

namespace Mirrors

variable {cache : VerifiedPieceCache} {rows : List Row}

theorem erase_eq {key : PieceKey} {entry : Entry} (found : cache.entries.lookup key = some entry) :
    cache.erase key = { cache with
      usedBytes := sub64 cache.usedBytes entry.data.length
      recency := cache.recency.filter fun node => node.address ≠ entry.recency
      entries := cache.entries.erase key } := by
  rw [VerifiedPieceCache.erase, found]

theorem erase (mirrors : Mirrors cache rows) (key : PieceKey) :
    Mirrors (cache.erase key) (rows.filter fun row => row.key ≠ key) ∧
      ∀ entry, cache.entries.lookup key = some entry → entry.data.length ≤ cache.usedBytes := by
  cases found : cache.entries.lookup key with
  | none =>
      refine ⟨?_, nofun⟩
      rw [VerifiedPieceCache.erase, found,
        List.filter_eq_self.mpr (by simpa using mirrors.lookup_none.mp found)]
      exact mirrors
  | some entry =>
      obtain ⟨row, member, rfl, rfl⟩ := (mirrors.entries _ _).mp found
      have smaller := mirrors.filter_address member
      obtain ⟨before, after, rfl⟩ := List.append_of_mem member
      have parts := filter_split mirrors.keys
      have size : Lru.total Row.size (before ++ after) + row.data.length = cache.usedBytes := by
        simp only [mirrors.used, Lru.total_append, Lru.total_cons, Row.size]
        omega
      have sublist : (before ++ after).Sublist (before ++ row :: after) :=
        (List.Sublist.refl before).append (List.sublist_cons_self row after)
      refine ⟨?_, fun other same => ?_⟩
      · rw [erase_eq found, parts.1]
        refine ⟨?_, fun key entry => ?_, mirrors.keys.sublist (sublist.map _),
          mirrors.addresses.sublist (sublist.map _), fun other member => mirrors.fresh other
            (sublist.subset member), ?_, ?_, mirrors.capacity⟩
        · change cache.recency.filter (fun node => node.address ≠ row.address) = _
          rw [mirrors.recency, ← parts.1, ← smaller, List.filter_map]
          rfl
        · rw [AList.lookup_erase_ite]
          constructor
          · intro kept
            split at kept
            · simp at kept
            · rename_i different
              obtain ⟨other, present, same, entry⟩ := (mirrors.entries _ _).mp kept
              refine ⟨other, ?_, same, entry⟩
              rw [← parts.1]
              exact List.mem_filter.mpr ⟨present, by simpa [same] using different⟩
          · rintro ⟨other, present, rfl, rfl⟩
            rw [← parts.1] at present
            obtain ⟨present, different⟩ := List.mem_filter.mp present
            rw [if_neg (by simpa using different)]
            exact mirrors.lookup present
        · change sub64 cache.usedBytes row.data.length = _
          rw [sub64_of_le (by omega) (mirrors.bounded.trans mirrors.capacity)]
          omega
        · change sub64 cache.usedBytes row.data.length ≤ _
          rw [sub64_of_le (by omega) (mirrors.bounded.trans mirrors.capacity)]
          exact (Nat.sub_le _ _).trans mirrors.bounded
      · obtain rfl := Option.some.inj same
        simp only [Row.entry]
        omega

theorem congr (mirrors : Mirrors cache rows) {other : VerifiedPieceCache}
    (recency : other.recency = cache.recency) (entries : other.entries = cache.entries)
    (next : other.nextAddress = cache.nextAddress) (used : other.usedBytes = cache.usedBytes)
    (capacity : other.capacityBytes = cache.capacityBytes) : Mirrors other rows where
  recency := recency.trans mirrors.recency
  entries := by rw [entries]; exact mirrors.entries
  keys := mirrors.keys
  addresses := mirrors.addresses
  fresh := by rw [next]; exact mirrors.fresh
  used := used.trans mirrors.used
  bounded := by rw [used, capacity]; exact mirrors.bounded
  capacity := by rw [capacity]; exact mirrors.capacity

theorem splice (mirrors : Mirrors cache rows) {row : Row} (member : row ∈ rows) :
    Mirrors { cache with recency := VerifiedPieceCache.splice cache.recency row.address }
      (row :: rows.filter fun other => other.key ≠ row.key) := by
  have address := mirrors.filter_address member
  have single : (rows.filter fun other => other.address = row.address) = [row] := by
    have same : (rows.filter fun other => other.address = row.address) =
        rows.filter fun other => other.key = row.key := by
      refine List.filter_congr fun other present => ?_
      simp only [mirrors.address_iff member present]
    obtain ⟨before, after, rfl⟩ := List.append_of_mem member
    rw [same, (filter_split mirrors.keys).2]
  have moved : (row :: rows.filter fun other => other.key ≠ row.key).Perm rows := by
    obtain ⟨before, after, rfl⟩ := List.append_of_mem member
    rw [(filter_split mirrors.keys).1]
    exact List.perm_middle.symm
  refine ⟨?_, fun key entry => ?_, ?_, ?_, fun other present => ?_, ?_, mirrors.bounded,
    mirrors.capacity⟩
  · simp only [VerifiedPieceCache.splice, mirrors.recency, List.filter_map]
    rw [← address, List.map_cons]
    exact congrArg (· ++ _) (congrArg (List.map Row.node) single)
  · rw [mirrors.entries]
    simp only [moved.mem_iff]
  · exact ((moved.map Row.key).nodup_iff).mpr mirrors.keys
  · exact ((moved.map Row.address).nodup_iff).mpr mirrors.addresses
  · exact mirrors.fresh other (moved.mem_iff.mp present)
  · exact mirrors.used.trans ((moved.map Row.size).sum_eq).symm

theorem increment_min (count : Nat) :
    VerifiedPieceCache.increment (min count uint64Max) = min (count + 1) uint64Max := by
  unfold VerifiedPieceCache.increment
  split <;> omega

theorem erase_capacity (key : PieceKey) : (cache.erase key).capacityBytes = cache.capacityBytes := by
  unfold VerifiedPieceCache.erase
  split <;> rfl

theorem erase_evictions (key : PieceKey) : (cache.erase key).evictions = cache.evictions := by
  unfold VerifiedPieceCache.erase
  split <;> rfl

/-- The loop of `put` drops rows from the back until the rest fits behind the new buffer, and counts
each of them. -/
theorem evict (mirrors : Mirrors cache rows) {size count : Nat} (fits : size ≤ cache.capacityBytes)
    (counted : cache.evictions = min count uint64Max) :
    Mirrors (VerifiedPieceCache.evict size (rows.map Row.node).reverse cache)
        (Lru.fit Row.size (cache.capacityBytes - size) rows) ∧
      (VerifiedPieceCache.evict size (rows.map Row.node).reverse cache).capacityBytes =
        cache.capacityBytes ∧
      (VerifiedPieceCache.evict size (rows.map Row.node).reverse cache).evictions =
        min (count + (rows.length - (Lru.fit Row.size (cache.capacityBytes - size) rows).length))
          uint64Max := by
  induction rows using List.reverseRecOn generalizing cache count with
  | nil => exact ⟨mirrors, rfl, counted⟩
  | append_singleton rows last ih =>
      have room := sub64_of_le fits mirrors.capacity
      simp only [List.map_append, List.map_cons, List.map_nil, List.reverse_append, List.reverse_singleton,
        List.singleton_append, VerifiedPieceCache.evict, room]
      split
      · rename_i heavy
        have found := mirrors.lookup (List.mem_append_right rows (List.mem_singleton_self last))
        have rest : (rows ++ [last]).filter (fun row => row.key ≠ last.key) = rows := by
          rw [(filter_split mirrors.keys).1, List.append_nil]
        have erased := (mirrors.erase last.key).1
        rw [rest] at erased
        have counts : VerifiedPieceCache.increment cache.evictions = min (count + 1) uint64Max := by
          rw [counted, increment_min]
        have same : (cache.erase last.key).capacityBytes = cache.capacityBytes := erase_capacity last.key
        rw [mirrors.used] at heavy
        rw [Lru.fit_concat heavy]
        have recounted : Mirrors { cache.erase last.key with
            evictions := VerifiedPieceCache.increment cache.evictions } rows :=
          erased.congr rfl rfl rfl rfl rfl
        have further := ih recounted (by rw [same]; exact fits) counts
        have shorter : (Lru.fit Row.size (cache.capacityBytes - size) rows).length ≤ rows.length :=
          (Lru.fit_isPrefix rows).length_le
        simp only [Row.node, found, same, List.length_append, List.length_singleton] at further ⊢
        refine ⟨further.1, further.2.1, further.2.2.trans ?_⟩
        congr 1
        omega
      · rename_i light
        rw [mirrors.used, not_lt] at light
        rw [Lru.fit_of_le light, Nat.sub_self]
        exact ⟨mirrors, rfl, counted⟩

theorem insert (mirrors : Mirrors cache rows) {key : PieceKey} {data : List UInt8}
    (absent : ∀ row ∈ rows, row.key ≠ key) (fits : cache.usedBytes + data.length ≤ cache.capacityBytes) :
    Mirrors (cache.insert key data) (⟨cache.nextAddress, key, data⟩ :: rows) := by
  have shape : cache.insert key data = { cache with
      recency := ⟨cache.nextAddress, key⟩ :: cache.recency
      nextAddress := cache.nextAddress + 1
      usedBytes := add64 cache.usedBytes data.length
      entries := cache.entries.insert key ⟨data, cache.nextAddress⟩ } := by
    rw [VerifiedPieceCache.insert, mirrors.lookup_none.mpr absent]
  have grown : add64 cache.usedBytes data.length = cache.usedBytes + data.length :=
    add64_of_le (fits.trans mirrors.capacity)
  rw [shape]
  refine ⟨?_, fun other entry => ?_, ?_, ?_, ?_, ?_, ?_, mirrors.capacity⟩
  · simp only [mirrors.recency]
    rfl
  · simp only [AList.lookup_insert_ite, List.mem_cons]
    split
    · rename_i same
      subst same
      constructor
      · intro new
        exact ⟨_, .inl rfl, rfl, Option.some.inj new⟩
      · rintro ⟨row, rfl | old, own, rfl⟩
        · rfl
        · exact absurd own (absent row old)
    · rename_i different
      rw [mirrors.entries]
      constructor
      · rintro ⟨row, member, own, same⟩
        exact ⟨row, .inr member, own, same⟩
      · rintro ⟨row, rfl | old, own, same⟩
        · exact absurd own.symm different
        · exact ⟨row, old, own, same⟩
  · rw [List.map_cons, List.nodup_cons]
    refine ⟨fun member => ?_, mirrors.keys⟩
    obtain ⟨row, present, same⟩ := List.mem_map.mp member
    exact absent row present same
  · rw [List.map_cons, List.nodup_cons]
    refine ⟨fun member => ?_, mirrors.addresses⟩
    obtain ⟨row, present, same⟩ := List.mem_map.mp member
    exact absurd (mirrors.fresh row present) (by rw [same]; exact Nat.lt_irrefl _)
  · intro row member
    rcases List.mem_cons.mp member with rfl | old
    · exact Nat.lt_succ_self _
    · exact (mirrors.fresh row old).trans (Nat.lt_succ_self _)
  · rw [grown, mirrors.used, Lru.total_cons]
    exact Nat.add_comm _ _
  · simp only [grown]
    exact fits

theorem eraseEach (mirrors : Mirrors cache rows) (torrentId : String) (keys : List PieceKey) :
    Mirrors (keys.foldl (fun current key =>
        if key.torrentId = torrentId then current.erase key else current) cache)
      (rows.filter fun row => ¬ (row.key.torrentId = torrentId ∧ row.key ∈ keys)) := by
  induction keys generalizing cache rows with
  | nil => simpa using mirrors
  | cons key rest ih =>
      rw [List.foldl_cons]
      split
      · rename_i own
        have further := ih (mirrors.erase key).1
        rw [List.filter_filter] at further
        refine (congrArg (Mirrors _) (List.filter_congr fun row _ => ?_)).mp further
        by_cases same : row.key = key <;> simp [same, own]
      · rename_i foreign
        refine (congrArg (Mirrors _) (List.filter_congr fun row _ => ?_)).mp (ih mirrors)
        by_cases same : row.key = key <;> simp [same, foreign]

theorem eraseTorrent (mirrors : Mirrors cache rows) (torrentId : String) :
    Mirrors (cache.eraseTorrent torrentId) (rows.filter fun row => row.key.torrentId ≠ torrentId) := by
  refine (congrArg (Mirrors _) (List.filter_congr fun row member => ?_)).mp
    (mirrors.eraseEach torrentId cache.entries.keys)
  have present : row.key ∈ cache.entries.keys := by
    rw [← AList.mem_keys, ← AList.lookup_isSome, mirrors.lookup member]
    rfl
  simp [present]

theorem clear (mirrors : Mirrors cache rows) : Mirrors cache.clear [] :=
  ⟨rfl, fun _ _ => by simp [VerifiedPieceCache.clear], List.nodup_nil, List.nodup_nil, nofun, rfl,
    Nat.zero_le _, mirrors.capacity⟩

end Mirrors

inductive CacheCall where
  | get (key : PieceKey)
  | contains (key : PieceKey)
  | put (key : PieceKey) (data : Option (List UInt8))
  | eraseTorrent (torrentId : String)
  | clear

inductive CacheAnswer where
  | data (found : Option (List UInt8))
  | present (found : Bool)
  | done
  deriving DecidableEq

def VerifiedPieceCache.perform (cache : VerifiedPieceCache) : CacheCall → CacheAnswer × VerifiedPieceCache
  | .get key => (.data (cache.get key).1, (cache.get key).2)
  | .contains key => (.present (cache.contains key), cache)
  | .put key data => (.done, cache.put key data)
  | .eraseTorrent torrentId => (.done, cache.eraseTorrent torrentId)
  | .clear => (.done, cache.clear)

/-- What the calls mean for a map that is bounded in bytes and drops the least recent entries. -/
def reference (capacity : Nat) (lru : Lru PieceKey (List UInt8)) :
    CacheCall → CacheAnswer × Lru PieceKey (List UInt8)
  | .get key => (.data (lru.get key).1, (lru.get key).2)
  | .contains key => (.present (lru.find key).isSome, lru)
  | .put key none => (.done, lru.removeIf fun other => other = key)
  | .put key (some data) =>
      let cleared := lru.removeIf fun other => other = key
      (.done, if data.isEmpty ∨ data.length > capacity then cleared
        else cleared.insert List.length capacity key data)
  | .eraseTorrent torrentId => (.done, lru.removeIf fun other => other.torrentId = torrentId)
  | .clear => (.done, { lru with entries := [] })

def Row.pair (row : Row) : PieceKey × List UInt8 := (row.key, row.data)

/-- The rows of the cache are the entries of the map, and evictions are counted up to the largest
64-bit number. -/
structure Refines (cache : VerifiedPieceCache) (lru : Lru PieceKey (List UInt8)) (rows : List Row) : Prop where
  mirrors : Mirrors cache rows
  entries : lru.entries = rows.map Row.pair
  evictions : cache.evictions = min lru.evictions uint64Max

namespace Refines

variable {cache : VerifiedPieceCache} {lru : Lru PieceKey (List UInt8)} {rows : List Row}

theorem find (refines : Refines cache lru rows) (key : PieceKey) :
    lru.find key = (cache.entries.lookup key).map Entry.data := by
  have search : lru.find key = (rows.find? fun row => row.key = key).map Row.data := by
    rw [Lru.find, refines.entries, List.find?_map, Option.map_map]
    rfl
  rw [search]
  cases found : cache.entries.lookup key with
  | none =>
      have absent := refines.mirrors.lookup_none.mp found
      rw [List.find?_eq_none.mpr fun row member => by simpa using absent row member]
      rfl
  | some entry =>
      obtain ⟨row, member, rfl, rfl⟩ := (refines.mirrors.entries _ _).mp found
      cases chosen : rows.find? fun other => other.key = row.key with
      | none => simpa using List.find?_eq_none.mp chosen row member
      | some other =>
          have same : other.key = row.key := by simpa using List.find?_some chosen
          obtain rfl := List.inj_on_of_nodup_map refines.mirrors.keys (List.mem_of_find?_eq_some chosen)
            member same
          rfl

theorem removeIf_entries (refines : Refines cache lru rows) (dropped : PieceKey → Bool) :
    (lru.removeIf dropped).entries = (rows.filter fun row => !dropped row.key).map Row.pair := by
  rw [Lru.removeIf, refines.entries, List.filter_map]
  rfl

theorem get (refines : Refines cache lru rows) (key : PieceKey) :
    (cache.get key).1 = (lru.get key).1 ∧ (cache.get key).2.capacityBytes = cache.capacityBytes ∧
      ∃ rows, Refines (cache.get key).2 (lru.get key).2 rows := by
  unfold VerifiedPieceCache.get Lru.get
  rw [refines.find key]
  cases found : cache.entries.lookup key with
  | none =>
      exact ⟨rfl, rfl, rows, refines.mirrors.congr rfl rfl rfl rfl rfl, refines.entries, refines.evictions⟩
  | some entry =>
      obtain ⟨row, member, rfl, rfl⟩ := (refines.mirrors.entries _ _).mp found
      refine ⟨rfl, rfl, _, (refines.mirrors.splice member).congr rfl rfl rfl rfl rfl, ?_,
        refines.evictions⟩
      simp only [Option.map_some, refines.removeIf_entries, List.map_cons, ne_eq, decide_not]
      rfl

theorem erase (refines : Refines cache lru rows) (key : PieceKey) :
    Refines (cache.erase key) (lru.removeIf fun other => other = key)
      (rows.filter fun row => row.key ≠ key) := by
  refine ⟨(refines.mirrors.erase key).1, ?_, (Mirrors.erase_evictions key).trans refines.evictions⟩
  rw [refines.removeIf_entries]
  simp

theorem insert_fixed (cache : VerifiedPieceCache) (key : PieceKey) (data : List UInt8) :
    (cache.insert key data).capacityBytes = cache.capacityBytes ∧
      (cache.insert key data).evictions = cache.evictions := by
  unfold VerifiedPieceCache.insert
  simp only
  split <;> exact ⟨rfl, rfl⟩

theorem put (refines : Refines cache lru rows) (key : PieceKey) (data : Option (List UInt8)) :
    (cache.put key data).capacityBytes = cache.capacityBytes ∧
      ∃ rows, Refines (cache.put key data) (reference cache.capacityBytes lru (.put key data)).2 rows := by
  have cleared := refines.erase key
  have same : (cache.erase key).capacityBytes = cache.capacityBytes := Mirrors.erase_capacity key
  cases data with
  | none => exact ⟨same, _, cleared⟩
  | some data =>
      simp only [VerifiedPieceCache.put, reference, same]
      split
      · exact ⟨same, _, cleared⟩
      · rename_i accepted
        have fits : data.length ≤ (cache.erase key).capacityBytes := by
          rw [same]
          exact not_lt.mp fun large => accepted (.inr large)
        obtain ⟨mirrors, capacity, counted⟩ := cleared.mirrors.evict fits cleared.evictions
        rw [← cleared.mirrors.recency] at mirrors capacity counted
        have kept : ∀ row ∈ Lru.fit Row.size ((cache.erase key).capacityBytes - data.length)
            (rows.filter fun row => row.key ≠ key), row.key ≠ key := by
          intro row member
          have before := (Lru.fit_isPrefix _).subset member
          simpa using (List.mem_filter.mp before).2
        have light : Lru.total Row.size (Lru.fit Row.size ((cache.erase key).capacityBytes - data.length)
            (rows.filter fun row => row.key ≠ key)) ≤ (cache.erase key).capacityBytes - data.length :=
          Lru.total_fit_le _
        have room : (VerifiedPieceCache.evict data.length (cache.erase key).recency.reverse
            (cache.erase key)).usedBytes + data.length ≤ (VerifiedPieceCache.evict data.length
              (cache.erase key).recency.reverse (cache.erase key)).capacityBytes := by
          rw [capacity, mirrors.used]
          omega
        have fixed := insert_fixed (VerifiedPieceCache.evict data.length
          (cache.erase key).recency.reverse (cache.erase key)) key data
        refine ⟨fixed.1.trans (capacity.trans same), _, mirrors.insert kept room, ?_, ?_⟩
        · rw [Lru.insert, cleared.entries, Lru.fit_map, same]
          rfl
        · rw [fixed.2, counted, Lru.insert, cleared.entries, Lru.fit_map, List.length_map, List.length_map,
            same]
          rfl

theorem eraseEach_fixed (torrentId : String) (keys : List PieceKey) (cache : VerifiedPieceCache) :
    (keys.foldl (fun current key =>
        if key.torrentId = torrentId then current.erase key else current) cache).capacityBytes =
      cache.capacityBytes ∧
    (keys.foldl (fun current key =>
        if key.torrentId = torrentId then current.erase key else current) cache).evictions =
      cache.evictions := by
  induction keys generalizing cache with
  | nil => exact ⟨rfl, rfl⟩
  | cons key rest ih =>
      rw [List.foldl_cons]
      split
      · obtain ⟨capacity, evictions⟩ := ih (cache.erase key)
        exact ⟨capacity.trans (Mirrors.erase_capacity key), evictions.trans (Mirrors.erase_evictions key)⟩
      · exact ih cache

theorem perform (refines : Refines cache lru rows) (call : CacheCall) :
    (cache.perform call).1 = (reference cache.capacityBytes lru call).1 ∧
      (cache.perform call).2.capacityBytes = cache.capacityBytes ∧
      ∃ rows, Refines (cache.perform call).2 (reference cache.capacityBytes lru call).2 rows := by
  cases call with
  | get key =>
      obtain ⟨answer, capacity, further⟩ := refines.get key
      exact ⟨congrArg CacheAnswer.data answer, capacity, further⟩
  | contains key =>
      refine ⟨congrArg CacheAnswer.present ?_, rfl, rows, refines⟩
      rw [refines.find key, Option.isSome_map]
      rfl
  | put key data =>
      obtain ⟨capacity, further⟩ := refines.put key data
      refine ⟨?_, capacity, further⟩
      cases data <;> rfl
  | eraseTorrent torrentId =>
      obtain ⟨capacity, evictions⟩ := eraseEach_fixed torrentId cache.entries.keys cache
      refine ⟨rfl, capacity, _, refines.mirrors.eraseTorrent torrentId, ?_,
        evictions.trans refines.evictions⟩
      simp only [reference, refines.removeIf_entries]
      simp
  | clear => exact ⟨rfl, rfl, [], refines.mirrors.clear, rfl, refines.evictions⟩

end Refines

/-- The 64-bit subtractions of `erase`, as what is taken from and what is taken. -/
def eraseSubtractions (cache : VerifiedPieceCache) (key : PieceKey) : List (Nat × Nat) :=
  (cache.entries.lookup key).toList.map fun entry => (cache.usedBytes, entry.data.length)

def evictSubtractions (size : Nat) : List Node → VerifiedPieceCache → List (Nat × Nat)
  | [], _ => []
  | least :: rest, cache =>
      (cache.capacityBytes, size) ::
        if cache.usedBytes > sub64 cache.capacityBytes size then
          match cache.entries.lookup least.key with
          | none => evictSubtractions size rest { cache with recency := cache.recency.dropLast }
          | some _ => eraseSubtractions cache least.key ++ evictSubtractions size rest
              { cache.erase least.key with evictions := VerifiedPieceCache.increment cache.evictions }
        else []

def insertSubtractions (cache : VerifiedPieceCache) (key : PieceKey) (data : List UInt8) :
    List (Nat × Nat) :=
  (cache.entries.lookup key).toList.map fun _ => (add64 cache.usedBytes data.length, data.length)

def eraseEachSubtractions (torrentId : String) : List PieceKey → VerifiedPieceCache → List (Nat × Nat)
  | [], _ => []
  | key :: rest, cache =>
      if key.torrentId = torrentId then
        eraseSubtractions cache key ++ eraseEachSubtractions torrentId rest (cache.erase key)
      else eraseEachSubtractions torrentId rest cache

/-- All subtractions that a call makes. -/
def subtractions (cache : VerifiedPieceCache) : CacheCall → List (Nat × Nat)
  | .put key none => eraseSubtractions cache key
  | .put key (some data) =>
      let cleared := cache.erase key
      eraseSubtractions cache key ++
        if data.isEmpty ∨ data.length > cleared.capacityBytes then []
        else
          evictSubtractions data.length cleared.recency.reverse cleared ++
            insertSubtractions
              (VerifiedPieceCache.evict data.length cleared.recency.reverse cleared) key data
  | .eraseTorrent torrentId => eraseEachSubtractions torrentId cache.entries.keys cache
  | .get _ | .contains _ | .clear => []

def Covers (pairs : List (Nat × Nat)) : Prop := ∀ pair ∈ pairs, pair.2 ≤ pair.1

theorem covers_append {left right : List (Nat × Nat)} :
    Covers (left ++ right) ↔ Covers left ∧ Covers right := by
  simp [Covers, or_imp, forall_and]

namespace Mirrors

variable {cache : VerifiedPieceCache} {rows : List Row}

theorem erase_covers (mirrors : Mirrors cache rows) (key : PieceKey) :
    Covers (eraseSubtractions cache key) := by
  intro pair member
  obtain ⟨entry, found, rfl⟩ := List.mem_map.mp member
  exact (mirrors.erase key).2 entry (Option.mem_toList.mp found)

theorem evict_covers (mirrors : Mirrors cache rows) {size : Nat} (fits : size ≤ cache.capacityBytes) :
    Covers (evictSubtractions size (rows.map Row.node).reverse cache) := by
  induction rows using List.reverseRecOn generalizing cache with
  | nil => exact nofun
  | append_singleton rows last ih =>
      simp only [List.map_append, List.map_cons, List.map_nil, List.reverse_append,
        List.reverse_singleton, List.singleton_append, evictSubtractions]
      rw [Covers, List.forall_mem_cons]
      refine ⟨fits, ?_⟩
      split
      · have found := mirrors.lookup (List.mem_append_right rows (List.mem_singleton_self last))
        have erased := (mirrors.erase last.key).1
        rw [(filter_split mirrors.keys).1, List.append_nil] at erased
        have recounted : Mirrors { cache.erase last.key with
            evictions := VerifiedPieceCache.increment cache.evictions } rows :=
          erased.congr rfl rfl rfl rfl rfl
        simp only [Row.node, found]
        refine covers_append.mpr ⟨mirrors.erase_covers last.key, ih recounted ?_⟩
        exact fits.trans (erase_capacity last.key).ge
      · exact nofun

theorem eraseEach_covers (mirrors : Mirrors cache rows) (torrentId : String) (keys : List PieceKey) :
    Covers (eraseEachSubtractions torrentId keys cache) := by
  induction keys generalizing cache rows with
  | nil => exact nofun
  | cons key rest ih =>
      rw [eraseEachSubtractions]
      split
      · exact covers_append.mpr ⟨mirrors.erase_covers key, ih (mirrors.erase key).1⟩
      · exact ih mirrors

end Mirrors

namespace Refines

variable {cache : VerifiedPieceCache} {lru : Lru PieceKey (List UInt8)} {rows : List Row}

theorem evict_absent (refines : Refines cache lru rows) {key : PieceKey} {size : Nat}
    (fits : size ≤ (cache.erase key).capacityBytes) :
    (VerifiedPieceCache.evict size (cache.erase key).recency.reverse
      (cache.erase key)).entries.lookup key = none := by
  have cleared := refines.erase key
  have evicted := (cleared.mirrors.evict fits cleared.evictions).1
  rw [← cleared.mirrors.recency] at evicted
  refine evicted.lookup_none.mpr fun row member => ?_
  simpa using (List.mem_filter.mp ((Lru.fit_isPrefix _).subset member)).2

theorem covers (refines : Refines cache lru rows) (call : CacheCall) :
    Covers (subtractions cache call) := by
  cases call with
  | put key data =>
      cases data with
      | none => exact refines.mirrors.erase_covers key
      | some data =>
          have cleared := (refines.erase key).mirrors
          refine covers_append.mpr ⟨refines.mirrors.erase_covers key, ?_⟩
          split
          · exact nofun
          · rename_i accepted
            have fits : data.length ≤ (cache.erase key).capacityBytes :=
              not_lt.mp fun large => accepted (.inr large)
            rw [insertSubtractions, refines.evict_absent fits, cleared.recency]
            exact covers_append.mpr ⟨cleared.evict_covers fits, nofun⟩
  | eraseTorrent torrentId => exact refines.mirrors.eraseEach_covers torrentId _
  | get _ | contains _ | clear => exact nofun

end Refines

/-- The answers of a sequence of calls, and the state after them. -/
def run {σ : Type} (perform : σ → CacheCall → CacheAnswer × σ) : List CacheCall → σ → List CacheAnswer × σ
  | [], state => ([], state)
  | call :: rest, state =>
      let (answer, next) := perform state call
      let (answers, last) := run perform rest next
      (answer :: answers, last)

theorem Refines.run {cache : VerifiedPieceCache} {lru : Lru PieceKey (List UInt8)} {rows : List Row}
    (refines : Refines cache lru rows) (calls : List CacheCall) :
    (Cache.run VerifiedPieceCache.perform calls cache).1 =
        (Cache.run (reference cache.capacityBytes) calls lru).1 ∧
      (Cache.run VerifiedPieceCache.perform calls cache).2.capacityBytes = cache.capacityBytes ∧
      ∃ rows, Refines (Cache.run VerifiedPieceCache.perform calls cache).2
        (Cache.run (reference cache.capacityBytes) calls lru).2 rows := by
  induction calls generalizing cache lru rows with
  | nil => exact ⟨rfl, rfl, rows, refines⟩
  | cons call rest ih =>
      obtain ⟨answer, capacity, after, further⟩ := refines.perform call
      obtain ⟨answers, same, last⟩ := ih further
      rw [capacity] at answers same last
      exact ⟨congrArg₂ List.cons answer answers, same, last⟩

theorem Mirrors.keys_perm {cache : VerifiedPieceCache} {rows : List Row} (mirrors : Mirrors cache rows) :
    (cache.recency.map Node.key).Nodup ∧ (cache.recency.map Node.key).Perm cache.entries.keys := by
  have listed : cache.recency.map Node.key = rows.map Row.key := by
    rw [mirrors.recency, List.map_map]
    rfl
  rw [listed]
  refine ⟨mirrors.keys, (List.perm_ext_iff_of_nodup mirrors.keys cache.entries.nodupKeys).mpr fun key => ?_⟩
  change _ ↔ key ∈ cache.entries.keys
  rw [← AList.mem_keys, ← AList.lookup_isSome, Option.isSome_iff_exists, List.mem_map]
  constructor
  · rintro ⟨row, member, rfl⟩
    exact ⟨_, mirrors.lookup member⟩
  · rintro ⟨entry, found⟩
    obtain ⟨row, member, same, _⟩ := (mirrors.entries _ _).mp found
    exact ⟨row, member, same⟩

/-- For every capacity and every sequence of calls the cache answers as a map that is bounded in bytes
and drops the least recent entries; it holds the same buffers in the same order, its recency list is a
permutation of its keys without duplicates, it counts the bytes and the evictions of the map, and the
next call makes no subtraction that goes below zero. -/
theorem cache_refines_lru {capacity : Nat} (small : capacity ≤ uint64Max) (calls : List CacheCall) :
    let cache := (run VerifiedPieceCache.perform calls { capacityBytes := capacity }).2
    let lru := (run (reference capacity) calls {}).2
    (run VerifiedPieceCache.perform calls { capacityBytes := capacity }).1 =
      (run (reference capacity) calls {}).1 ∧
    cache.recency.map Node.key = lru.entries.map Prod.fst ∧
    (∀ key, (cache.entries.lookup key).map Entry.data = lru.find key) ∧
    (cache.recency.map Node.key).Nodup ∧ (cache.recency.map Node.key).Perm cache.entries.keys ∧
    cache.usedBytes = Lru.total (fun entry => entry.2.length) lru.entries ∧
    cache.usedBytes ≤ capacity ∧
    cache.evictions = min lru.evictions uint64Max ∧
    ∀ call, Covers (subtractions cache call) := by
  have empty : Refines { capacityBytes := capacity } {} [] :=
    ⟨⟨rfl, fun _ _ => by simp, List.nodup_nil, List.nodup_nil, nofun, rfl, Nat.zero_le _, small⟩, rfl,
      (Nat.zero_min _).symm⟩
  obtain ⟨answers, same, rows, refines⟩ := empty.run calls
  have mirrors := refines.mirrors
  refine ⟨answers, ?_, fun key => (refines.find key).symm, mirrors.keys_perm.1, mirrors.keys_perm.2, ?_,
    mirrors.bounded.trans same.le, refines.evictions, refines.covers⟩
  · rw [mirrors.recency, refines.entries, List.map_map, List.map_map]
    rfl
  · rw [mirrors.used, refines.entries, Lru.total_map]
    rfl

/-- Three buffers of which the first is used again before the third one drops the second. -/
def threeBuffers : List CacheCall :=
  [.put ⟨"a", 0⟩ (some [1, 2]), .put ⟨"a", 1⟩ (some [3, 4]), .get ⟨"a", 0⟩, .put ⟨"b", 0⟩ (some [5, 6]),
    .contains ⟨"a", 1⟩, .get ⟨"a", 0⟩]

theorem cache_refines_lru_three :
    (run VerifiedPieceCache.perform threeBuffers { capacityBytes := 4 }).1 =
        [.done, .done, .data (some [1, 2]), .done, .present false, .data (some [1, 2])] ∧
      (run VerifiedPieceCache.perform threeBuffers { capacityBytes := 4 }).2.usedBytes ≤ 4 := by
  obtain ⟨answers, _, _, _, _, _, bounded, _⟩ :=
    cache_refines_lru (show 4 ≤ uint64Max by decide) threeBuffers
  exact ⟨answers.trans (by decide), bounded⟩

end NuvioEngine.Cache
