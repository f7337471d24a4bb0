import Mathlib.Data.List.AList

/-!
Hash maps as association lists with distinct keys; the order of the entries is the order of
iteration. `filterMapEntries` is a loop that changes or erases entries as it goes.
-/

universe u v

abbrev HashMap (κ : Type u) (ν : Type v) := AList fun _ : κ => ν

namespace AList

variable {κ : Type u} {ν : Type v} [DecidableEq κ]

theorem lookup_insert_ite (map : HashMap κ ν) (key query : κ) (value : ν) :
    (map.insert key value).lookup query = if query = key then some value else map.lookup query := by
  split
  · rename_i same
    rw [same, lookup_insert]
  · rename_i different
    exact lookup_insert_ne different

theorem lookup_erase_ite (map : HashMap κ ν) (key query : κ) :
    (map.erase key).lookup query = if query = key then none else map.lookup query := by
  split
  · rename_i same
    rw [same, lookup_erase]
  · rename_i different
    exact lookup_erase_ne different

theorem lookup_eq_some_iff (map : HashMap κ ν) (key : κ) (value : ν) :
    map.lookup key = some value ↔ ⟨key, value⟩ ∈ map.entries :=
  mem_lookup_iff

theorem lookup_of_isEmpty {map : HashMap κ ν} (empty : map.entries.isEmpty = true) (key : κ) :
    map.lookup key = none := by
  rw [lookup, List.isEmpty_iff.mp empty]
  rfl

theorem lookup_erase_of_none {map : HashMap κ ν} {key query : κ} (absent : map.lookup query = none) :
    (map.erase key).lookup query = none := by
  rw [lookup_erase_ite]
  split
  · rfl
  · exact absent

theorem erase_of_lookup {map : HashMap κ ν} {key : κ} (absent : map.lookup key = none) :
    map.erase key = map :=
  ext (List.kerase_of_notMem_keys (lookup_eq_none.mp absent))

def values (map : HashMap κ ν) : List ν := map.entries.map Sigma.snd

theorem values_erase {map : HashMap κ ν} {key : κ} {value : ν} (found : map.lookup key = some value) :
    map.values.Perm (value :: (map.erase key).values) := by
  have member : key ∈ map.entries.keys := by
    by_contra absent
    simp [lookup, List.dlookup_eq_none.mpr absent] at found
  obtain ⟨other, before, after, absent, split, erased⟩ := List.exists_of_kerase member
  have same : other = value := by
    have there : ⟨key, other⟩ ∈ map.entries := by simp [split]
    simpa [found] using ((lookup_eq_some_iff map key other).mpr there).symm
  subst same
  have left : (map.erase key).entries = before ++ after := erased
  rw [values, values, left, split]
  simp

theorem values_insert {map : HashMap κ ν} {key : κ} (absent : map.lookup key = none) (value : ν) :
    (map.insert key value).values = value :: map.values := by
  rw [values, entries_insert_of_notMem (lookup_eq_none.mp absent)]
  rfl

/-- Replace the value of every entry, or erase the entry. -/
def filterMapEntries (change : κ → ν → Option ν) (map : HashMap κ ν) : HashMap κ ν where
  entries := map.entries.filterMap fun entry => (change entry.1 entry.2).map (Sigma.mk entry.1)
  nodupKeys := by
    have nodup : map.entries.Pairwise fun left right => left.1 ≠ right.1 := by
      simpa [List.NodupKeys, List.keys, List.Nodup, List.pairwise_map] using map.nodupKeys
    rw [List.NodupKeys, List.keys, List.Nodup, List.pairwise_map, List.pairwise_filterMap]
    refine nodup.imp ?_
    intro left right different first firstEq second secondEq
    obtain ⟨_, _, rfl⟩ := Option.map_eq_some_iff.mp firstEq
    obtain ⟨_, _, rfl⟩ := Option.map_eq_some_iff.mp secondEq
    exact different

theorem lookup_filterMapEntries (change : κ → ν → Option ν) (map : HashMap κ ν) (key : κ) :
    (map.filterMapEntries change).lookup key = (map.lookup key).bind (change key) := by
  apply Option.ext
  intro value
  rw [lookup_eq_some_iff]
  simp only [filterMapEntries, List.mem_filterMap, Option.bind_eq_some_iff]
  constructor
  · rintro ⟨⟨other, old⟩, member, changed⟩
    obtain ⟨new, found, same⟩ := Option.map_eq_some_iff.mp changed
    obtain ⟨rfl, rfl⟩ := Sigma.mk.inj_iff.mp same |>.imp id eq_of_heq
    exact ⟨old, (lookup_eq_some_iff map other old).mpr member, found⟩
  · rintro ⟨old, present, found⟩
    exact ⟨⟨key, old⟩, (lookup_eq_some_iff map key old).mp present, by simp [found]⟩

/-- `std::erase_if`. -/
def eraseIf (dropped : κ → ν → Bool) (map : HashMap κ ν) : HashMap κ ν :=
  map.filterMapEntries fun key value => if dropped key value then none else some value

theorem lookup_eraseIf (dropped : κ → ν → Bool) (map : HashMap κ ν) (key : κ) (value : ν) :
    (map.eraseIf dropped).lookup key = some value ↔
      map.lookup key = some value ∧ dropped key value = false := by
  rw [eraseIf, lookup_filterMapEntries, Option.bind_eq_some_iff]
  constructor
  · rintro ⟨old, present, kept⟩
    split at kept
    · simp at kept
    · rename_i keep
      obtain rfl := Option.some.inj kept
      exact ⟨present, by simpa using keep⟩
  · rintro ⟨present, keep⟩
    exact ⟨value, present, by simp [keep]⟩

end AList
