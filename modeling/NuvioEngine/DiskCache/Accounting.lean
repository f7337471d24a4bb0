import NuvioEngine.DiskCache.Eviction

/-!
The accounts of an enforcement whose evictions meet directories that have vanished or that cannot be
removed: when they agree with what is left on the disk.
-/

namespace NuvioEngine.DiskCache

/-- The scanned sizes of some directories together. -/
def scannedTotal (disk : Disk) (nodes : List DiskNode) : Nat :=
  (nodes.map fun node => disk.scannedSize node.path).sum

/-- The scanned directories that are still there. -/
def presentDirectories (disk after : Disk) (root : Path) : List DiskNode :=
  (disk.payload root).filter fun node => (after.find node.path).isSome

/-- The scanned directories that enforcement has removed. -/
def evictedDirectories (disk after : Disk) (removals : Removals) (root : Path) : List DiskNode :=
  (disk.payload root).filter fun node =>
    (after.find node.path).isNone && !(removals node.path).isVanished

/-- The number of used bytes is what is left, the counters grow by what was evicted, and whatever was
evicted was needed to reach the target: the directories before it in the order were gone by then. -/
structure Accounts (manager : DiskCacheManager) (disk : Disk) (removals : Removals)
    (protectedTorrents : Finset String) (requested : Nat) (outcome : Outcome) : Prop where
  usedBytes : outcome.manager.stats.usedBytes =
    scannedTotal disk (presentDirectories disk outcome.disk manager.payloadRoot)
  evictions : outcome.manager.stats.evictions = min (manager.stats.evictions +
    (evictedDirectories disk outcome.disk removals manager.payloadRoot).length) uint64Max
  reclaimedBytes : outcome.manager.stats.reclaimedBytes = min (manager.stats.reclaimedBytes +
    scannedTotal disk (evictedDirectories disk outcome.disk removals manager.payloadRoot)) uint64Max
  needed : ∀ before node after,
    evictionOrder disk manager.payloadRoot protectedTorrents = before ++ node :: after →
    node ∈ evictedDirectories disk outcome.disk removals manager.payloadRoot →
    min requested manager.stats.capacityBytes <
      scannedTotal disk (disk.payload manager.payloadRoot) - scannedTotal disk before

/-- Every directory that is due for eviction is removed, except that empty ones may have vanished. -/
def RemovesDue (manager : DiskCacheManager) (disk : Disk) (removals : Removals)
    (protectedTorrents : Finset String) (requested : Nat) : Prop :=
  ∀ before node after,
    evictionOrder disk manager.payloadRoot protectedTorrents = before ++ node :: after →
    min requested manager.stats.capacityBytes <
      scannedTotal disk (disk.payload manager.payloadRoot) - scannedTotal disk before →
    (removals node.path).failure = none ∧
      ((removals node.path).isVanished = true → disk.scannedSize node.path = 0)

/-- What the evictions of some directories free when those that vanished are not counted. -/
def freed (disk : Disk) (removals : Removals) (nodes : List DiskNode) : Nat :=
  scannedTotal disk (nodes.filter fun node => !(removals node.path).isVanished)

/-- The first removal that fails is reached when the used bytes of the last call happen to be what is
left, and all that was evicted before it was needed. -/
def FailsAccounted (manager : DiskCacheManager) (disk : Disk) (removals : Removals)
    (protectedTorrents : Finset String) (requested : Nat) : Prop :=
  ∃ front failing rest,
    evictionOrder disk manager.payloadRoot protectedTorrents = front ++ failing :: rest ∧
    (∀ node ∈ front, (removals node.path).failure = none) ∧
    (removals failing.path).failure ≠ none ∧
    min requested manager.stats.capacityBytes <
      scannedTotal disk (disk.payload manager.payloadRoot) - freed disk removals front ∧
    manager.stats.usedBytes =
      scannedTotal disk (disk.payload manager.payloadRoot) - scannedTotal disk front ∧
    ∀ before node after, front = before ++ node :: after → (removals node.path).isVanished = false →
      min requested manager.stats.capacityBytes <
        scannedTotal disk (disk.payload manager.payloadRoot) - scannedTotal disk before

variable {disk after : Disk} {root : Path} {removals : Removals} {front : List DiskNode}

theorem scannedTotal_append (left right : List DiskNode) :
    scannedTotal disk (left ++ right) = scannedTotal disk left + scannedTotal disk right := by
  simp [scannedTotal]

theorem scannedTotal_perm {left right : List DiskNode} (same : left.Perm right) :
    scannedTotal disk left = scannedTotal disk right :=
  (same.map _).sum_eq

theorem freed_add_vanished (nodes : List DiskNode) :
    freed disk removals nodes +
      scannedTotal disk (nodes.filter fun node => (removals node.path).isVanished) =
        scannedTotal disk nodes := by
  have parts : scannedTotal disk _ = scannedTotal disk nodes :=
    scannedTotal_perm (List.filter_append_perm (fun node => (removals node.path).isVanished) nodes)
  rw [scannedTotal_append] at parts
  unfold freed
  omega

/-- Some directories of the payload root are gone, and nothing is new. -/
structure Clears (disk after : Disk) (root : Path) (front : List DiskNode) : Prop where
  part : ∀ node ∈ after.nodes, node ∈ disk.nodes
  gone : ∀ node ∈ disk.payload root, node ∈ after.nodes ↔ node ∉ front

theorem Clears.find_isSome (clears : Clears disk after root front) {node : DiskNode}
    (member : node ∈ disk.payload root) : (after.find node.path).isSome = true ↔ node ∉ front := by
  rw [← clears.gone node member]
  constructor
  · intro found
    obtain ⟨other, same⟩ := Option.isSome_iff_exists.mp found
    have path : other.path = node.path := by simpa using List.find?_some same
    have kept := List.mem_of_find?_eq_some same
    exact List.inj_on_of_nodup_map disk.distinct (clears.part other kept)
      (Disk.mem_of_payload member) path ▸ kept
  · intro kept
    rw [Disk.find_of_mem kept]
    rfl

theorem Clears.present (clears : Clears disk after root front) :
    presentDirectories disk after root = (disk.payload root).filter fun node => node ∉ front := by
  apply List.filter_congr
  intro node member
  rw [Bool.eq_iff_iff, clears.find_isSome member]
  simp

theorem Clears.evicted (clears : Clears disk after root front) (distinct : front.Nodup)
    (listed : ∀ node ∈ front, node ∈ disk.payload root) :
    (evictedDirectories disk after removals root).Perm
      (front.filter fun node => !(removals node.path).isVanished) := by
  unfold evictedDirectories
  rw [List.perm_ext_iff_of_nodup ((Disk.payload_nodup disk root).filter _) (distinct.filter _)]
  intro node
  simp only [List.mem_filter, Bool.and_eq_true]
  constructor
  · rintro ⟨member, missing, unvanished⟩
    refine ⟨?_, unvanished⟩
    by_contra stays
    have found := (clears.find_isSome member).mpr stays
    simp_all
  · rintro ⟨taken, unvanished⟩
    refine ⟨listed node taken, ?_, unvanished⟩
    rw [← Option.not_isSome, Bool.not_eq_true', ← Bool.not_eq_true, clears.find_isSome (listed node taken)]
    exact fun stays => stays taken

theorem Clears.present_total (clears : Clears disk after root front) (distinct : front.Nodup)
    (listed : ∀ node ∈ front, node ∈ disk.payload root) :
    scannedTotal disk (presentDirectories disk after root) + scannedTotal disk front =
      scannedTotal disk (disk.payload root) := by
  have leaves := Disk.payload_filter_mem listed distinct
  have parts : scannedTotal disk _ = scannedTotal disk (disk.payload root) :=
    scannedTotal_perm (List.filter_append_perm (fun node => decide (node ∈ front)) _)
  rw [scannedTotal_append, scannedTotal_perm leaves] at parts
  rw [clears.present, ← parts, Nat.add_comm]
  simp only [decide_not]

theorem freed_append (left right : List DiskNode) :
    freed disk removals (left ++ right) = freed disk removals left + freed disk removals right := by
  simp [freed, scannedTotal_append]

theorem sum_spent_eq (nodes : List DiskNode) :
    ((nodes.map (candidateOf disk)).map (Eviction.spent removals)).sum = freed disk removals nodes := by
  induction nodes with
  | nil => rfl
  | cons node rest ih =>
      have split : freed disk removals (node :: rest) =
          freed disk removals [node] + freed disk removals rest := freed_append [node] rest
      rw [List.map_cons, List.map_cons, List.sum_cons, ih, split]
      congr 1
      by_cases vanished : (removals node.path).isVanished
      · simp [Eviction.spent, candidateOf, freed, scannedTotal, vanished]
      · simp [Eviction.spent, candidateOf, freed, scannedTotal, vanished]

theorem payload_sublist_total {nodes : List DiskNode} (distinct : nodes.Nodup)
    (listed : ∀ node ∈ nodes, node ∈ disk.payload root) :
    scannedTotal disk nodes ≤ scannedTotal disk (disk.payload root) := by
  have leaves := @scannedTotal_perm disk _ _ (Disk.payload_filter_mem listed distinct)
  rw [← leaves]
  exact (List.filter_sublist.map _).sum_le_sum fun _ _ => Nat.zero_le _

section Run

variable {manager : DiskCacheManager} {protectedTorrents : Finset String} {requested : Nat}

theorem evicted_used (bounded : scannedTotal disk (disk.payload manager.payloadRoot) < 2 ^ 64)
    (taken : List DiskNode) :
    (manager.evicted disk removals protectedTorrents taken).used =
      scannedTotal disk (disk.payload manager.payloadRoot) - freed disk removals taken := by
  have used : (scanned disk manager.payloadRoot protectedTorrents).used =
      scannedTotal disk (disk.payload manager.payloadRoot) := by
    rw [scanned, (take_tallies disk protectedTorrents).used_foldl _ (Nat.zero_le _)]
    change min (0 + scannedTotal disk (disk.payload manager.payloadRoot)) uint64Max = _
    unfold uint64Max
    omega
  unfold DiskCacheManager.evicted
  rw [Eviction.used_foldl, sum_spent_eq, used]

theorem RemovesDue.freed_eq {back : List DiskNode}
    (due : RemovesDue manager disk removals protectedTorrents requested)
    (order : evictionOrder disk manager.payloadRoot protectedTorrents = front ++ back)
    (reached : ∀ before node after, front = before ++ node :: after →
      min requested manager.stats.capacityBytes <
        scannedTotal disk (disk.payload manager.payloadRoot) - freed disk removals before)
    {taken : List DiskNode} (part : taken <+: front) :
    freed disk removals taken = scannedTotal disk taken := by
  induction taken using List.reverseRecOn with
  | nil => rfl
  | append_singleton before node ih =>
      obtain ⟨tail, rfl⟩ := part
      have counted := ih ⟨node :: tail, by simp⟩
      have exceeds := reached before node tail (by simp)
      rw [counted] at exceeds
      have removed := due before node (tail ++ back) (by simpa using order) exceeds
      rw [freed_append, scannedTotal_append, counted]
      congr 1
      by_cases vanished : (removals node.path).isVanished
      · simp [freed, scannedTotal, vanished, removed.2 vanished]
      · simp [freed, scannedTotal, vanished]

theorem without_clears (removed : disk.Without after front)
    (listed : ∀ node ∈ front, node ∈ disk.payload root) : Clears disk after root front where
  part node member := ((Disk.mem_without removed).mp member).1
  gone node member := by
    rw [Disk.mem_without removed]
    constructor
    · rintro ⟨_, outside⟩ taken
      exact outside node taken List.prefix_rfl
    · intro stays
      refine ⟨Disk.mem_of_payload member, fun other taken below => stays ?_⟩
      exact Disk.payload_disjoint (listed other taken) member below List.prefix_rfl ▸ taken

theorem Clears.removePart (clears : Clears disk after root front) {failing : DiskNode}
    (own : failing ∈ disk.payload root) (left : Path → Bool) :
    Clears disk (after.removePart failing.path left) root front where
  part node member := clears.part node (List.mem_of_mem_filter member)
  gone node member := by
    rw [← clears.gone node member, Disk.removePart, Disk.keep, List.mem_filter]
    simp only [and_iff_left_iff_imp, Bool.or_eq_true, Bool.not_eq_true', ← Bool.not_eq_true,
      Bool.and_eq_true, List.isPrefixOf_iff_prefix, decide_eq_true_eq]
    rintro -
    refine .inl fun below => below.2 ?_
    exact (Disk.payload_disjoint own member below.1 List.prefix_rfl ▸ rfl)

theorem front_listed {back : List DiskNode}
    (order : evictionOrder disk root protectedTorrents = front ++ back) :
    (∀ node ∈ front, node ∈ disk.payload root) ∧ (front ++ back).Nodup := by
  refine ⟨fun node member => ?_, order ▸ evictionOrder_nodup disk root protectedTorrents⟩
  exact ((mem_evictionOrder disk root protectedTorrents).mp
    (order ▸ List.mem_append_left back member)).1

/-- The counters always tell what was evicted, so the accounts depend on the used bytes and on what
was evicted in vain. -/
theorem accounts_iff {outcome : Outcome} {back : List DiskNode}
    (counters : manager.stats.evictions ≤ uint64Max ∧ manager.stats.reclaimedBytes ≤ uint64Max)
    (order : evictionOrder disk manager.payloadRoot protectedTorrents = front ++ back)
    (clears : Clears disk outcome.disk manager.payloadRoot front)
    (evictions : outcome.manager.stats.evictions =
      (manager.evicted disk removals protectedTorrents front).evictions)
    (reclaimed : outcome.manager.stats.reclaimedBytes =
      (manager.evicted disk removals protectedTorrents front).reclaimedBytes) :
    Accounts manager disk removals protectedTorrents requested outcome ↔
      outcome.manager.stats.usedBytes =
          scannedTotal disk (disk.payload manager.payloadRoot) - scannedTotal disk front ∧
        ∀ before node after, front = before ++ node :: after →
          (removals node.path).isVanished = false →
          min requested manager.stats.capacityBytes <
            scannedTotal disk (disk.payload manager.payloadRoot) - scannedTotal disk before := by
  obtain ⟨listed, nodup⟩ := front_listed order
  have distinct := (List.nodup_append.mp nodup).1
  have left := clears.present_total distinct listed
  have gone := @Clears.evicted disk _ _ removals front clears distinct listed
  have total : scannedTotal disk (presentDirectories disk outcome.disk manager.payloadRoot) =
      scannedTotal disk (disk.payload manager.payloadRoot) - scannedTotal disk front := by
    omega
  rw [← total]
  constructor
  · intro accounts
    refine ⟨accounts.usedBytes, fun before node after split unvanished => ?_⟩
    apply accounts.needed before node (after ++ back)
    · rw [order, split]
      simp
    · rw [gone.mem_iff, List.mem_filter, split]
      simp [unvanished]
  · rintro ⟨used, needed⟩
    refine ⟨used, ?_, ?_, ?_⟩
    · rw [evictions, gone.length_eq]
      unfold DiskCacheManager.evicted
      rw [Eviction.evictions_foldl _ counters.1, List.filter_map, List.length_map]
      rfl
    · rw [reclaimed, scannedTotal_perm gone]
      unfold DiskCacheManager.evicted
      rw [Eviction.reclaimedBytes_foldl _ counters.2, sum_spent_eq]
      rfl
    · intro before node after split removed
      obtain ⟨taken, unvanished⟩ := List.mem_filter.mp (gone.mem_iff.mp removed)
      rw [order] at split
      rcases List.append_eq_append_iff.mp split with ⟨middle, rfl, rest⟩ | ⟨middle, rfl, rest⟩
      · rw [rest, List.nodup_append] at nodup
        exact absurd rfl (nodup.2.2 node taken node (by simp))
      · cases middle with
        | nil =>
            rw [List.append_nil] at nodup taken
            rw [List.nil_append] at rest
            rw [← rest, List.nodup_append] at nodup
            exact absurd rfl (nodup.2.2 node taken node List.mem_cons_self)
        | cons head tail =>
            obtain ⟨rfl, _⟩ := List.cons.inj rest
            exact needed before node tail rfl (by simpa using unvanished)

theorem front_ahead {front other back rest : List DiskNode} {failing : DiskNode}
    (clear : ∀ node ∈ front, (removals node.path).failure = none)
    (fails : (removals failing.path).failure ≠ none) (same : front ++ back = other ++ failing :: rest) :
    ∃ middle, other = front ++ middle ∧ back = middle ++ failing :: rest := by
  rcases List.append_eq_append_iff.mp same with split | ⟨middle, rfl, split⟩
  · exact split
  · cases middle with
    | nil => exact ⟨[], by simp, by simpa using split.symm⟩
    | cons head tail =>
        obtain ⟨rfl, _⟩ := List.cons.inj split
        exact absurd (clear failing (by simp)) fails

/-- The directories in a front that were evicted were needed to reach the target. -/
def Needed (manager : DiskCacheManager) (disk : Disk) (removals : Removals) (requested : Nat)
    (front : List DiskNode) : Prop :=
  ∀ before node after, front = before ++ node :: after → (removals node.path).isVanished = false →
    min requested manager.stats.capacityBytes <
      scannedTotal disk (disk.payload manager.payloadRoot) - scannedTotal disk before

theorem RemovesDue.needed {back : List DiskNode}
    (due : RemovesDue manager disk removals protectedTorrents requested)
    (order : evictionOrder disk manager.payloadRoot protectedTorrents = front ++ back)
    (reached : ∀ before node after, front = before ++ node :: after →
      min requested manager.stats.capacityBytes <
        scannedTotal disk (disk.payload manager.payloadRoot) - freed disk removals before) :
    Needed manager disk removals requested front := by
  intro before node after split _
  rw [← due.freed_eq order reached ⟨node :: after, split.symm⟩]
  exact reached before node after split

theorem returned_accounts_iff {back : List DiskNode}
    (order : evictionOrder disk manager.payloadRoot protectedTorrents = front ++ back)
    (clear : ∀ node ∈ front, (removals node.path).failure = none)
    (within : scannedTotal disk front ≤ scannedTotal disk (disk.payload manager.payloadRoot))
    (reached : ∀ before node after, front = before ++ node :: after →
      min requested manager.stats.capacityBytes <
        scannedTotal disk (disk.payload manager.payloadRoot) - freed disk removals before)
    (stops : back = [] ∨ scannedTotal disk (disk.payload manager.payloadRoot) -
      freed disk removals front ≤ min requested manager.stats.capacityBytes) :
    (scannedTotal disk (disk.payload manager.payloadRoot) - freed disk removals front =
          scannedTotal disk (disk.payload manager.payloadRoot) - scannedTotal disk front ∧
        Needed manager disk removals requested front) ↔
      RemovesDue manager disk removals protectedTorrents requested ∨
        FailsAccounted manager disk removals protectedTorrents requested := by
  have parts := @freed_add_vanished disk removals front
  constructor
  · rintro ⟨same, _⟩
    left
    intro before node after split exceeds
    rw [order] at split
    have taken : node ∈ front := by
      rcases List.append_eq_append_iff.mp split with ⟨middle, rfl, rest⟩ | ⟨middle, rfl, rest⟩
      · rw [scannedTotal_append] at exceeds
        rcases stops with rfl | enough
        · simp at rest
        · omega
      · cases middle with
        | nil =>
            rw [List.append_nil] at same stops
            rcases stops with rfl | enough
            · simp at rest
            · omega
        | cons head tail =>
            obtain ⟨rfl, _⟩ := List.cons.inj rest
            simp
    refine ⟨clear node taken, fun vanished => ?_⟩
    have part : disk.scannedSize node.path ≤
        scannedTotal disk (front.filter fun other => (removals other.path).isVanished) :=
      List.le_sum_of_mem (List.mem_map_of_mem (List.mem_filter.mpr ⟨taken, vanished⟩))
    omega
  · rintro (due | ⟨other, failing, rest, split, _, fails, exceeds, _⟩)
    · exact ⟨by rw [due.freed_eq order reached List.prefix_rfl], due.needed order reached⟩
    · obtain ⟨middle, rfl, rfl⟩ := front_ahead clear fails (order.symm.trans split)
      rw [freed_append] at exceeds
      rcases stops with none | enough
      · simp at none
      · omega

theorem failed_accounts_iff {failing : DiskNode} {rest : List DiskNode}
    (order : evictionOrder disk manager.payloadRoot protectedTorrents = front ++ failing :: rest)
    (clear : ∀ node ∈ front, (removals node.path).failure = none)
    (fails : (removals failing.path).failure ≠ none)
    (reached : ∀ before node after, front = before ++ node :: after →
      min requested manager.stats.capacityBytes <
        scannedTotal disk (disk.payload manager.payloadRoot) - freed disk removals before)
    (exceeds : min requested manager.stats.capacityBytes <
      scannedTotal disk (disk.payload manager.payloadRoot) - freed disk removals front) :
    (manager.stats.usedBytes =
          scannedTotal disk (disk.payload manager.payloadRoot) - scannedTotal disk front ∧
        Needed manager disk removals requested front) ↔
      RemovesDue manager disk removals protectedTorrents requested ∨
        FailsAccounted manager disk removals protectedTorrents requested := by
  constructor
  · rintro ⟨used, needed⟩
    exact .inr ⟨front, failing, rest, order, clear, fails, exceeds, used, needed⟩
  · rintro (due | ⟨other, failing', rest', split, clear', fails', _, used, needed⟩)
    · have counted := due.freed_eq order reached List.prefix_rfl
      rw [counted] at exceeds
      exact absurd (due front failing rest order exceeds).1 fails
    · have same := order.symm.trans split
      obtain ⟨middle, rfl, ahead⟩ := front_ahead clear fails' same
      obtain ⟨between, back, _⟩ := front_ahead clear' fails same.symm
      have none : middle = [] := by
        have length := congrArg List.length back
        simp only [List.length_append] at length
        exact List.eq_nil_of_length_eq_zero (by omega)
      rw [none, List.append_nil] at used needed
      exact ⟨used, needed⟩

/-- The accounts are right when every directory due for eviction is removed, or when the first failure
happens to find them right. -/
theorem enforce_accounts_iff (manager : DiskCacheManager) (disk : Disk) (faults : Faults)
    (removals : Removals) (protectedTorrents : Finset String) (requested : Nat)
    (scannable : Scannable disk faults manager.payloadRoot protectedTorrents)
    (bounded : scannedTotal disk (disk.payload manager.payloadRoot) < 2 ^ 64)
    (counters : manager.stats.evictions ≤ uint64Max ∧ manager.stats.reclaimedBytes ≤ uint64Max) :
    Accounts manager disk removals protectedTorrents requested
        (manager.enforce disk faults removals protectedTorrents requested) ↔
      RemovesDue manager disk removals protectedTorrents requested ∨
        FailsAccounted manager disk removals protectedTorrents requested := by
  obtain ⟨front, back, order, clear, reached, ends⟩ :=
    @DiskCacheManager.enforce_scannable manager disk faults removals protectedTorrents requested scannable
  obtain ⟨listed, nodup⟩ := front_listed order
  have distinct := (List.nodup_append.mp nodup).1
  have clears := without_clears (evicted_disk removals protectedTorrents manager front) listed
  have within := payload_sublist_total distinct listed
  simp only [evicted_used bounded] at reached ends
  rcases ends with ⟨stops, published, rfl, result⟩ | ⟨failing, rest, code, left, rfl, fails, exceeds, failed,
    rfl, result⟩
  · rw [result, accounts_iff counters order clears rfl rfl]
    exact returned_accounts_iff order clear within reached stops
  · have own : failing ∈ disk.payload manager.payloadRoot :=
      ((mem_evictionOrder disk manager.payloadRoot protectedTorrents).mp (order ▸ by simp)).1
    rw [result, accounts_iff counters order (clears.removePart own left) rfl rfl]
    exact failed_accounts_iff order clear (by simp [fails]) reached exceeds

theorem enforce_accounts_removed :
    Accounts (.create ["payload"] 4) twoTorrents (fun _ => .removes) ∅ 9
      ((DiskCacheManager.create ["payload"] 4).enforce twoTorrents {} (fun _ => .removes) ∅ 9) :=
  (enforce_accounts_iff (.create ["payload"] 4) twoTorrents {} (fun _ => .removes) ∅ 9
    (twoTorrents_scannable ∅) (by decide +kernel) (by decide +kernel)).mpr
      (.inl fun _ _ _ _ _ => ⟨rfl, by simp [Removal.isVanished]⟩)

/-- The older torrent has vanished since the scan: the other one is evicted in vain, and its four bytes
are still accounted for. When the removal of the newer torrent fails, the used bytes are not told. -/
theorem enforce_accounts_fails :
    Scannable twoTorrents {} ["payload"] ∅ ∧
      ¬ Accounts (.create ["payload"] 4) twoTorrents
        (fun path => if path = ["payload", firstId] then .vanished else .removes) ∅ 4
        ((DiskCacheManager.create ["payload"] 4).enforce twoTorrents {}
          (fun path => if path = ["payload", firstId] then .vanished else .removes) ∅ 4) ∧
      ¬ Accounts (.create ["payload"] 4) twoTorrents
        (fun path => if path = ["payload", firstId] then .removes else .fails 13 fun _ => true) ∅ 0
        ((DiskCacheManager.create ["payload"] 4).enforce twoTorrents {}
          (fun path => if path = ["payload", firstId] then .removes else .fails 13 fun _ => true) ∅ 0) := by
  refine ⟨twoTorrents_scannable ∅, fun accounts => ?_, fun accounts => ?_⟩
  · have wrong := accounts.usedBytes
    revert wrong
    decide +kernel
  · have wrong := accounts.usedBytes
    revert wrong
    decide +kernel

end Run

end NuvioEngine.DiskCache
