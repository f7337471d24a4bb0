import Mathlib.Order.MinMax
import Mathlib.Data.List.Pairwise

/-!
Finite maps kept as lists of entries with strictly increasing keys, so that iteration is in
key order. `lower` keeps the smaller of two values given to a key, and `Least` says that a
map built by `lower` holds, for every key, the least value a relation allows.
-/

universe u v

/-- A finite map with its entries listed in strictly increasing key order. -/
structure SortedMap (κ : Type u) (ν : Type v) [LinearOrder κ] where
  entries : List (κ × ν)
  ordered : entries.Pairwise (fun left right => left.1 < right.1)

namespace SortedMap

variable {κ : Type u} {ν : Type v} [LinearOrder κ]

def findEntry (key : κ) : List (κ × ν) → Option ν
  | [] => none
  | entry :: rest => if entry.1 = key then some entry.2 else findEntry key rest

def insertEntry (key : κ) (value : ν) : List (κ × ν) → List (κ × ν)
  | [] => [(key, value)]
  | entry :: rest =>
      if key < entry.1 then (key, value) :: entry :: rest
      else if key = entry.1 then (key, value) :: rest
      else entry :: insertEntry key value rest

theorem findEntry_insertEntry (key query : κ) (value : ν) (entries : List (κ × ν)) :
    findEntry query (insertEntry key value entries) =
      if key = query then some value else findEntry query entries := by
  induction entries with
  | nil => simp [insertEntry, findEntry]
  | cons entry rest ih =>
      simp only [insertEntry]
      split
      · simp [findEntry]
      · split
        · rename_i same
          by_cases matched : key = query
          · simp [findEntry, matched]
          · simp [findEntry, matched, ← same]
        · rename_i different
          simp only [findEntry, ih]
          by_cases first : entry.1 = query
          · have other : key ≠ query := fun same => different (same.trans first.symm)
            simp [first, other]
          · simp [first]

theorem mem_insertEntry {key : κ} {value : ν} {entries : List (κ × ν)} {entry : κ × ν}
    (member : entry ∈ insertEntry key value entries) :
    entry = (key, value) ∨ entry ∈ entries := by
  induction entries with
  | nil => simpa [insertEntry] using member
  | cons first rest ih =>
      simp only [insertEntry] at member
      split at member
      · simpa using member
      · split at member
        · rcases List.mem_cons.mp member with same | later
          · exact Or.inl same
          · exact Or.inr (List.mem_cons_of_mem _ later)
        · rcases List.mem_cons.mp member with same | later
          · exact Or.inr (by simp [same])
          · rcases ih later with new | old
            · exact Or.inl new
            · exact Or.inr (List.mem_cons_of_mem _ old)

theorem insertEntry_ordered (key : κ) (value : ν) {entries : List (κ × ν)}
    (ordered : entries.Pairwise (fun left right => left.1 < right.1)) :
    (insertEntry key value entries).Pairwise (fun left right => left.1 < right.1) := by
  induction entries with
  | nil => simp [insertEntry]
  | cons first rest ih =>
      have parts := List.pairwise_cons.mp ordered
      simp only [insertEntry]
      split
      · rename_i smaller
        refine List.pairwise_cons.mpr ⟨?_, ordered⟩
        intro entry member
        rcases List.mem_cons.mp member with same | later
        · simpa [same] using smaller
        · exact lt_trans smaller (parts.1 entry later)
      · rename_i notSmaller
        split
        · rename_i same
          refine List.pairwise_cons.mpr ⟨?_, parts.2⟩
          intro entry member
          simpa [same] using parts.1 entry member
        · rename_i different
          refine List.pairwise_cons.mpr ⟨?_, ih parts.2⟩
          intro entry member
          rcases mem_insertEntry member with new | old
          · have larger : first.1 < key := lt_of_le_of_ne (not_lt.mp notSmaller) (Ne.symm different)
            simpa [new] using larger
          · exact parts.1 entry old

theorem findEntry_eq_some_iff {entries : List (κ × ν)}
    (ordered : entries.Pairwise (fun left right => left.1 < right.1)) (key : κ) (value : ν) :
    findEntry key entries = some value ↔ (key, value) ∈ entries := by
  induction entries with
  | nil => simp [findEntry]
  | cons first rest ih =>
      have parts := List.pairwise_cons.mp ordered
      simp only [findEntry, List.mem_cons]
      split
      · rename_i same
        constructor
        · intro found
          left
          simp only [Option.some.injEq] at found
          exact Prod.ext same.symm found.symm
        · rintro (equal | later)
          · simp [← equal]
          · exact absurd (parts.1 _ later) (by simp [same])
      · rename_i different
        rw [ih parts.2]
        constructor
        · exact Or.inr
        · rintro (equal | later)
          · simp [← equal] at different
          · exact later

def empty : SortedMap κ ν := ⟨[], List.Pairwise.nil⟩

def lookup (map : SortedMap κ ν) (key : κ) : Option ν := findEntry key map.entries

def insert (map : SortedMap κ ν) (key : κ) (value : ν) : SortedMap κ ν :=
  ⟨insertEntry key value map.entries, insertEntry_ordered key value map.ordered⟩

def mapValues (f : ν → ν) (map : SortedMap κ ν) : SortedMap κ ν :=
  ⟨map.entries.map fun entry => (entry.1, f entry.2), by
    simpa [List.pairwise_map] using map.ordered⟩

instance [DecidableEq ν] : DecidableEq (SortedMap κ ν) := fun left right =>
  decidable_of_iff (left.entries = right.entries) ⟨fun same => by
    cases left
    cases right
    simp only at same
    subst same
    rfl, fun same => by rw [same]⟩

@[simp] theorem lookup_empty (key : κ) : (empty : SortedMap κ ν).lookup key = none := rfl

theorem lookup_insert (map : SortedMap κ ν) (key query : κ) (value : ν) :
    (map.insert key value).lookup query = if key = query then some value else map.lookup query :=
  findEntry_insertEntry key query value map.entries

theorem lookup_eq_some_iff (map : SortedMap κ ν) (key : κ) (value : ν) :
    map.lookup key = some value ↔ (key, value) ∈ map.entries :=
  findEntry_eq_some_iff map.ordered key value

theorem lookup_mapValues (f : ν → ν) (map : SortedMap κ ν) (key : κ) :
    (map.mapValues f).lookup key = (map.lookup key).map f := by
  obtain ⟨entries, ordered⟩ := map
  simp only [lookup, mapValues]
  clear ordered
  induction entries with
  | nil => rfl
  | cons first rest ih =>
      simp only [List.map_cons, findEntry, ih]
      split <;> simp

theorem ext_lookup {left right : SortedMap κ ν} (same : ∀ key, left.lookup key = right.lookup key) :
    left = right := by
  have members : ∀ entry, entry ∈ left.entries ↔ entry ∈ right.entries := by
    rintro ⟨key, value⟩
    rw [← lookup_eq_some_iff, ← lookup_eq_some_iff, same]
  have strict : ∀ {map : SortedMap κ ν}, map.entries.Nodup := fun {map} =>
    map.ordered.imp fun smaller equal => ne_of_lt smaller (congrArg Prod.fst equal)
  have entries : left.entries = right.entries := by
    refine List.Perm.eq_of_pairwise ?_ left.ordered right.ordered
      ((List.perm_ext_iff_of_nodup strict strict).mpr members)
    exact fun first second _ _ below above => absurd below (lt_asymm above)
  cases left
  cases right
  simp only at entries
  subst entries
  rfl

theorem insert_comm (map : SortedMap κ ν) {first second : κ} {left right : ν}
    (agree : first = second → left = right) :
    (map.insert first left).insert second right = (map.insert second right).insert first left := by
  apply ext_lookup
  intro key
  simp only [lookup_insert]
  by_cases one : first = key
  · by_cases two : second = key
    · simp [one, two, agree (one.trans two.symm)]
    · simp [one, two]
  · simp [one]

theorem keys_nodup (map : SortedMap κ ν) : (map.entries.map Prod.fst).Nodup := by
  rw [List.Nodup, List.pairwise_map]
  exact map.ordered.imp fun smaller => ne_of_lt smaller

section Lower

variable [LinearOrder ν]

/-- Give `key` the value unless it already has one at least as small. -/
def lower (map : SortedMap κ ν) (key : κ) (value : ν) : SortedMap κ ν :=
  match map.lookup key with
  | none => map.insert key value
  | some existing => if value < existing then map.insert key value else map

/-- The map holds, for every key, the least value the relation allows, and nothing else. -/
structure Least (map : SortedMap κ ν) (allowed : κ → ν → Prop) : Prop where
  sound : ∀ key value, map.lookup key = some value → allowed key value
  least : ∀ key value, allowed key value → ∃ held, map.lookup key = some held ∧ held ≤ value

theorem least_empty : Least (empty : SortedMap κ ν) (fun _ _ => False) :=
  ⟨fun _ _ found => by simp at found, fun _ _ impossible => impossible.elim⟩

theorem Least.congr {map : SortedMap κ ν} {allowed next : κ → ν → Prop} (held : map.Least allowed)
    (same : ∀ key value, allowed key value ↔ next key value) : map.Least next :=
  ⟨fun key value found => (same key value).mp (held.sound key value found),
    fun key value permitted => held.least key value ((same key value).mpr permitted)⟩

theorem lookup_lower (map : SortedMap κ ν) (key query : κ) (value : ν) :
    (map.lower key value).lookup query =
      if key = query then some ((map.lookup key).elim value (min value)) else map.lookup query := by
  unfold SortedMap.lower
  cases present : map.lookup key with
  | none => simp [lookup_insert]
  | some existing =>
      simp only [Option.elim_some]
      by_cases smaller : value < existing
      · simp [smaller, lookup_insert, min_eq_left (le_of_lt smaller)]
      · simp only [smaller, if_false, min_eq_right (not_lt.mp smaller)]
        split
        · rename_i same
          rw [← same, present]
        · rfl

theorem Least.lower {map : SortedMap κ ν} {allowed : κ → ν → Prop} (held : map.Least allowed)
    (key : κ) (value : ν) :
    (map.lower key value).Least (fun query other => allowed query other ∨ (query = key ∧ other = value)) := by
  constructor
  · intro query other found
    rw [lookup_lower] at found
    split at found
    · rename_i same
      subst query
      simp only [Option.some.injEq] at found
      cases present : map.lookup key with
      | none => exact Or.inr ⟨rfl, by simpa [present] using found.symm⟩
      | some existing =>
          simp only [present, Option.elim_some] at found
          rcases min_choice value existing with first | second
          · exact Or.inr ⟨rfl, found.symm.trans first⟩
          · exact Or.inl (held.sound key other (by rw [present, ← found, second]))
    · exact Or.inl (held.sound query other found)
  · intro query other permitted
    rw [lookup_lower]
    split
    · rename_i same
      subst query
      refine ⟨_, rfl, ?_⟩
      rcases permitted with old | new
      · obtain ⟨existing, present, below⟩ := held.least key other old
        rw [present]
        exact le_trans (min_le_right value existing) below
      · rw [new.2]
        cases map.lookup key with
        | none => exact le_refl value
        | some existing => exact min_le_left value existing
    · rename_i different
      rcases permitted with old | new
      · exact held.least query other old
      · exact absurd new.1.symm different

theorem Least.foldl_lower {α : Type*} (key : α → κ) (value : α → ν) (items : List α)
    {map : SortedMap κ ν} {allowed : κ → ν → Prop} (held : map.Least allowed) :
    (items.foldl (fun current item => current.lower (key item) (value item)) map).Least
      (fun query other => allowed query other ∨ ∃ item ∈ items, query = key item ∧ other = value item) := by
  induction items generalizing map allowed with
  | nil => exact held.congr fun query other => by simp
  | cons item items ih =>
      simp only [List.foldl_cons]
      exact (ih (held.lower (key item) (value item))).congr fun query other => by
        simp [or_assoc]

/-- A map that took in the values another one holds, each under a monotone change, has taken in
the whole relation behind the other map. -/
theorem Least.absorb {map other : SortedMap κ ν} {allowed inner : κ → ν → Prop} {change : ν → ν}
    (monotone : ∀ left right, left ≤ right → change left ≤ change right) (source : other.Least inner)
    (held : map.Least fun key value =>
      allowed key value ∨ ∃ kept, other.lookup key = some kept ∧ value = change kept) :
    map.Least fun key value => allowed key value ∨ ∃ kept, inner key kept ∧ value = change kept := by
  constructor
  · intro key value found
    rcases held.sound key value found with old | ⟨kept, present, same⟩
    · exact Or.inl old
    · exact Or.inr ⟨kept, source.sound key kept present, same⟩
  · rintro key value (old | ⟨kept, permitted, same⟩)
    · exact held.least key value (Or.inl old)
    · obtain ⟨smallest, present, below⟩ := source.least key kept permitted
      obtain ⟨found, foundEq, foundLe⟩ :=
        held.least key (change smallest) (Or.inr ⟨smallest, present, rfl⟩)
      exact ⟨found, foundEq, le_trans foundLe (same ▸ monotone smallest kept below)⟩

end Lower

end SortedMap
