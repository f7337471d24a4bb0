import NuvioEngine.Backend.ResumeProtocol

/-!
The invariant of the resume protocol, and that every step keeps it.
-/

namespace NuvioEngine.Backend.Protocol

open Queue

variable {τ ν : Type*} [DecidableEq τ] [DecidableEq ν] (name : τ → ν)

/-- The owner has the handle of a torrent, or is about to be told it. -/
def Known (state : Protocol τ ν) (torrent : τ) : Prop :=
  state.handles (name torrent) = some torrent ∨ .added torrent ∈ state.notices

/-- The removals of a name that the owner asked for and was not told of. -/
def inFlight (state : Protocol τ ν) (wanted : ν) : ℕ :=
  state.commands.countP (Command.removes name wanted) + state.notices.countP (Notice.removes name wanted)

/-- The saves of a torrent that are not answered. -/
def unanswered (state : Protocol τ ν) (torrent : τ) : ℕ :=
  state.commands.count (.save torrent) + state.saving.count torrent

def Departing (state : Protocol τ ν) (torrent : τ) : Prop :=
  torrent ∉ state.live ∨ .remove torrent ∈ state.commands

structure Sound (state : Protocol τ ν) : Prop where
  live_made : ∀ torrent ∈ state.live, torrent ∈ state.made
  made_requested : ∀ torrent ∈ state.made, torrent ∈ state.requested
  expired_out : ∀ torrent ∈ state.expired, torrent ∈ state.made ∧ torrent ∉ state.live
  handled : ∀ wanted torrent, state.handles wanted = some torrent →
    torrent ∈ state.made ∧ name torrent = wanted
  saving_made : ∀ torrent ∈ state.saving, torrent ∈ state.made
  add_once : ∀ torrent, state.commands.count (.add torrent) ≤ 1
  add_fresh : ∀ torrent, .add torrent ∈ state.commands →
    torrent ∈ state.requested ∧ torrent ∉ state.made
  remove_made : ∀ torrent, .remove torrent ∈ state.commands → torrent ∈ state.made
  save_made : ∀ torrent, .save torrent ∈ state.commands → torrent ∈ state.made
  added_made : ∀ torrent, .added torrent ∈ state.notices → torrent ∈ state.made
  removed_out : ∀ torrent, .removed torrent ∈ state.notices → torrent ∈ state.made ∧ torrent ∉ state.live
  single : ∀ torrent ∈ state.live, ∀ other ∈ state.live, name other = name torrent → other = torrent
  chosen_unmarked : ∀ wanted ∈ state.pendingCacheUnloads,
    wanted ∉ state.pendingCacheRemovals ∧ wanted ∉ state.pendingRemovals
  cached_unremoved : ∀ wanted ∈ state.pendingCacheRemovals, wanted ∉ state.pendingRemovals
  inFlight_le : ∀ wanted, state.inFlight name wanted ≤ 1
  inFlight_marked : ∀ wanted, state.inFlight name wanted ≠ 0 →
    wanted ∈ state.pendingCacheRemovals ∨ wanted ∈ state.pendingRemovals
  chosen_live : ∀ wanted ∈ state.pendingCacheUnloads,
    ∃ torrent ∈ state.live, state.handles wanted = some torrent
  known_live : ∀ torrent, state.Known name torrent → torrent ∉ state.expired →
    ∀ other ∈ state.live, name other = name torrent → other = torrent
  added_first : ∀ torrent, ¬ Ahead (.removed torrent) (.added torrent) state.notices
  known_out : ∀ torrent, state.Known name torrent → torrent ∉ state.expired → torrent ∉ state.live →
    .removed torrent ∈ state.notices
  added_out : ∀ torrent, .added torrent ∈ state.notices → torrent ∉ state.expired →
    torrent ∉ state.live → state.handles (name torrent) = some torrent
  removing_known : ∀ torrent, .remove torrent ∈ state.commands → torrent ∈ state.live →
    state.handles (name torrent) = some torrent
  asked_again : ∀ torrent, state.Known name torrent → torrent ∉ state.expired →
    ∀ other, .add other ∈ state.commands → name other = name torrent →
      torrent ∈ state.live ∧ ¬ Ahead (.remove torrent) (.add other) state.commands
  saves : ∀ torrent ∈ state.live, .remove torrent ∉ state.commands →
    torrent ∉ state.explicitlyRemoved → state.unanswered torrent ≤ 1 ∧
      (state.unanswered torrent ≠ 0 → torrent ∈ state.pendingResumeSaves)
  settled : ∀ torrent ∈ state.made, torrent ∉ state.explicitlyRemoved → torrent ∉ state.expired →
    state.Departing torrent → torrent ∉ state.saving ∧
      (torrent ∈ state.live → ¬ Ahead (.save torrent) (.remove torrent) state.commands)
  unwanted_live : ∀ torrent ∈ state.live, name torrent ∈ state.unwanted →
    torrent ∈ state.explicitlyRemoved
  unwanted_added : ∀ torrent, .add torrent ∈ state.commands → name torrent ∈ state.unwanted →
    ∃ other ∈ state.live, name other = name torrent ∧
      ¬ Ahead (.remove other) (.add torrent) state.commands

variable {name} {state : Protocol τ ν}

namespace Sound

theorem mark (sound : Sound name state) (torrent : τ) :
    Sound name { state with explicitlyRemoved := insert torrent state.explicitlyRemoved } :=
  { sound with
    saves := fun other live staying kept => sound.saves other live staying fun marked =>
      kept (Set.mem_insert_of_mem _ marked)
    settled := fun other made kept => sound.settled other made fun marked =>
      kept (Set.mem_insert_of_mem _ marked)
    unwanted_live := fun other live unwanted =>
      Set.mem_insert_of_mem _ (sound.unwanted_live other live unwanted) }

theorem unmark (sound : Sound name state) {torrent : τ} (gone : torrent ∈ state.expired) :
    Sound name { state with explicitlyRemoved := state.explicitlyRemoved \ {torrent} } := by
  have out := (sound.expired_out torrent gone).2
  exact { sound with
    saves := fun other live staying kept => sound.saves other live staying fun marked =>
      kept ⟨marked, fun same => out (same ▸ live)⟩
    settled := fun other made kept valid => sound.settled other made (fun marked =>
      kept ⟨marked, fun same => valid (same ▸ gone)⟩) valid
    unwanted_live := fun other live unwanted =>
      ⟨sound.unwanted_live other live unwanted, fun same => out (same ▸ live)⟩ }

theorem expire (sound : Sound name state) {torrent : τ} (made : torrent ∈ state.made)
    (out : torrent ∉ state.live) :
    Sound name { state with expired := insert torrent state.expired } := by
  have valid : ∀ {other}, other ∉ insert torrent state.expired → other ∉ state.expired :=
    fun absent member => absent (Set.mem_insert_of_mem _ member)
  exact { sound with
    expired_out := by
      rintro other (rfl | member)
      · exact ⟨made, out⟩
      · exact sound.expired_out other member
    known_live := fun other known here => sound.known_live other known (valid here)
    known_out := fun other known here => sound.known_out other known (valid here)
    added_out := fun other added here => sound.added_out other added (valid here)
    asked_again := fun other known here => sound.asked_again other known (valid here)
    settled := fun other made kept here => sound.settled other made kept (valid here) }

theorem withdraw (sound : Sound name state) (wanted : ν) :
    Sound name { state with pendingCacheUnloads := state.pendingCacheUnloads \ {wanted} } :=
  { sound with
    chosen_unmarked := fun other member => sound.chosen_unmarked other member.1
    chosen_live := fun other member => sound.chosen_live other member.1 }

theorem forget (sound : Sound name state) {torrent : τ}
    (done : torrent ∈ state.live → torrent ∈ state.explicitlyRemoved) :
    Sound name { state with pendingResumeSaves := state.pendingResumeSaves \ {torrent} } :=
  { sound with
    saves := fun other live staying kept =>
      have ⟨once, asked⟩ := sound.saves other live staying kept
      ⟨once, fun waiting => ⟨asked waiting, fun same => kept (same ▸ done (same ▸ live))⟩⟩ }

theorem save (sound : Sound name state) {torrent : τ} (made : torrent ∈ state.made)
    (idle : torrent ∉ state.pendingResumeSaves) :
    Sound name { state with
      pendingResumeSaves := insert torrent state.pendingResumeSaves
      commands := state.commands ++ [.save torrent] } :=
  { sound with
    add_once := by simpa [List.count_append, List.count_singleton] using sound.add_once
    add_fresh := by simpa using sound.add_fresh
    remove_made := by simpa using sound.remove_made
    save_made := by
      intro other member
      rcases List.mem_append.mp member with before | last
      · exact sound.save_made other before
      · obtain rfl : other = torrent := by simpa using last
        exact made
    inFlight_le := by simpa [inFlight, Command.removes] using sound.inFlight_le
    inFlight_marked := by simpa [inFlight, Command.removes] using sound.inFlight_marked
    removing_known := by simpa using sound.removing_known
    asked_again := by simpa [ahead_concat, Known] using sound.asked_again
    saves := by
      intro other live staying kept
      have ⟨once, asked⟩ := sound.saves other live (by simpa using staying) kept
      by_cases same : other = torrent
      · subst same
        have none : state.unanswered other = 0 := by
          by_contra waiting
          exact idle (asked waiting)
        refine ⟨?_, fun _ => Set.mem_insert _ _⟩
        simp only [unanswered, List.count_append, List.count_singleton_self] at none ⊢
        omega
      · have new : List.count (Command.save other) [Command.save torrent] = 0 :=
          List.count_eq_zero.mpr (by simpa using same)
        simp only [unanswered, List.count_append, new, Nat.add_zero] at once asked ⊢
        exact ⟨once, fun waiting => Set.mem_insert_of_mem _ (asked waiting)⟩
    settled := by simpa [ahead_concat, Departing] using sound.settled
    unwanted_added := by simpa [ahead_concat] using sound.unwanted_added }

omit [DecidableEq τ] in
theorem inFlight_remove (state : Protocol τ ν) (torrent : τ) (wanted : ν) :
    { state with commands := state.commands ++ [Command.remove torrent] }.inFlight name wanted =
      state.inFlight name wanted + if name torrent = wanted then 1 else 0 := by
  by_cases same : name torrent = wanted
  · simp only [inFlight, List.countP_append, same, if_true]
    have one : List.countP (Command.removes name wanted) [Command.remove torrent] = 1 := by
      simp [Command.removes, same]
    omega
  · simp [inFlight, Command.removes, same]

/-- No removal of a name is on its way unless the name is marked. -/
theorem idle (sound : Sound name state) {wanted : ν} (uncached : wanted ∉ state.pendingCacheRemovals)
    (unremoved : wanted ∉ state.pendingRemovals) : state.inFlight name wanted = 0 := by
  by_contra waiting
  rcases sound.inFlight_marked _ waiting with cached | removed
  · exact uncached cached
  · exact unremoved removed

omit [DecidableEq τ] in
theorem inFlight_pos {torrent : τ} (removing : .remove torrent ∈ state.commands) :
    state.inFlight name (name torrent) ≠ 0 := by
  have counted : 0 < state.commands.countP (Command.removes name (name torrent)) :=
    List.countP_pos_iff.mpr ⟨_, removing, by simp [Command.removes]⟩
  unfold inFlight
  omega

omit [DecidableEq τ] in
theorem inFlight_pos_removed {torrent : τ} (told : .removed torrent ∈ state.notices) :
    state.inFlight name (name torrent) ≠ 0 := by
  have counted : 0 < state.notices.countP (Notice.removes name (name torrent)) :=
    List.countP_pos_iff.mpr ⟨_, told, by simp [Notice.removes]⟩
  unfold inFlight
  omega

theorem choose (sound : Sound name state) {torrent : τ}
    (known : state.handles (name torrent) = some torrent) (valid : torrent ∉ state.expired)
    (uncached : name torrent ∉ state.pendingCacheRemovals)
    (unremoved : name torrent ∉ state.pendingRemovals) :
    Sound name { state with
      pendingCacheUnloads := insert (name torrent) state.pendingCacheUnloads } := by
  have live : torrent ∈ state.live := by
    by_contra out
    exact inFlight_pos_removed (sound.known_out torrent (Or.inl known) valid out)
      (sound.idle uncached unremoved)
  exact { sound with
    chosen_unmarked := by
      rintro wanted (rfl | member)
      · exact ⟨uncached, unremoved⟩
      · exact sound.chosen_unmarked wanted member
    chosen_live := by
      rintro wanted (rfl | member)
      · exact ⟨torrent, live, known⟩
      · exact sound.chosen_live wanted member }

/-- The removal of a torrent of a marked name is asked for when no other is on its way. -/
theorem enqueueRemove (sound : Sound name state) {torrent : τ} (made : torrent ∈ state.made)
    (alone : state.inFlight name (name torrent) = 0)
    (marked : name torrent ∈ state.pendingCacheRemovals ∨ name torrent ∈ state.pendingRemovals)
    (known : torrent ∈ state.live → state.handles (name torrent) = some torrent)
    (answered : torrent ∈ state.live → torrent ∉ state.explicitlyRemoved →
      state.unanswered torrent = 0) :
    Sound name { state with commands := state.commands ++ [.remove torrent] } where
  __ := sound
  add_once := by simpa [List.count_append, List.count_singleton] using sound.add_once
  add_fresh := by simpa using sound.add_fresh
  remove_made := by
    intro other member
    rcases List.mem_append.mp member with before | last
    · exact sound.remove_made other before
    · obtain rfl : other = torrent := by simpa using last
      exact made
  save_made := by simpa using sound.save_made
  inFlight_le := by
    intro wanted
    have before := sound.inFlight_le wanted
    rw [inFlight_remove]
    split
    · rename_i same
      subst same
      omega
    · exact before
  inFlight_marked := by
    intro wanted waiting
    by_cases same : name torrent = wanted
    · exact same ▸ marked
    · rw [inFlight_remove, if_neg same, Nat.add_zero] at waiting
      exact sound.inFlight_marked wanted waiting
  removing_known := by
    intro other member live
    rcases List.mem_append.mp member with before | last
    · exact sound.removing_known other before live
    · obtain rfl : other = torrent := by simpa using last
      exact known live
  asked_again := by simpa [ahead_concat, Known] using sound.asked_again
  saves := by
    intro other live staying kept
    simp only [List.mem_append, List.mem_singleton, not_or] at staying
    simpa [unanswered] using sound.saves other live staying.1 kept
  settled := by
    intro other there kept valid departing
    by_cases before : state.Departing other
    · have ⟨silent, ordered⟩ := sound.settled other there kept valid before
      refine ⟨silent, fun live ahead => ?_⟩
      rcases ahead_concat.mp ahead with earlier | ⟨_, last⟩
      · exact ordered live earlier
      · obtain rfl : other = torrent := by simpa using last
        exact inFlight_pos (before.resolve_left (not_not.mpr live)) alone
    · simp only [Departing, not_or, not_not] at before
      obtain ⟨live, staying⟩ := before
      have last : other = torrent := by
        rcases departing with out | member
        · exact absurd live out
        · simpa [staying] using member
      subst last
      have silent := answered live kept
      simp only [unanswered, Nat.add_eq_zero_iff, List.count_eq_zero] at silent
      refine ⟨silent.2, fun _ ahead => ?_⟩
      rcases ahead_concat.mp ahead with earlier | ⟨member, _⟩
      · exact silent.1 earlier.mem_first
      · exact silent.1 member
  unwanted_added := by simpa [ahead_concat] using sound.unwanted_added

/-- A chosen name becomes one whose torrent is taken out. -/
theorem cache (sound : Sound name state) {wanted : ν} (unremoved : wanted ∉ state.pendingRemovals) :
    Sound name { state with
      pendingCacheUnloads := state.pendingCacheUnloads \ {wanted}
      pendingCacheRemovals := insert wanted state.pendingCacheRemovals } :=
  { sound with
    chosen_unmarked := by
      rintro other ⟨member, different⟩
      have ⟨unloaded, kept⟩ := sound.chosen_unmarked other member
      exact ⟨fun cached => cached.elim different unloaded, kept⟩
    cached_unremoved := by
      rintro other (rfl | member)
      · exact unremoved
      · exact sound.cached_unremoved other member
    inFlight_marked := fun other waiting =>
      (sound.inFlight_marked other waiting).imp (Set.mem_insert_of_mem _) id
    chosen_live := fun other member => sound.chosen_live other member.1 }

theorem unload (sound : Sound name state) {torrent : τ} (made : torrent ∈ state.made)
    (chosen : name torrent ∈ state.pendingCacheUnloads)
    (saved : torrent ∈ state.live → torrent ∉ state.pendingResumeSaves) :
    Sound name { state with
      pendingCacheUnloads := state.pendingCacheUnloads \ {name torrent}
      pendingCacheRemovals := insert (name torrent) state.pendingCacheRemovals
      commands := state.commands ++ [.remove torrent] } := by
  obtain ⟨uncached, unremoved⟩ := sound.chosen_unmarked _ chosen
  have alone := sound.idle uncached unremoved
  refine (sound.cache unremoved).enqueueRemove made alone (Or.inl (Set.mem_insert _ _)) ?_ ?_
  · intro live
    obtain ⟨present, there, known⟩ := sound.chosen_live _ chosen
    have same := (sound.handled _ present known).2
    have valid : present ∉ state.expired := fun gone => (sound.expired_out present gone).2 there
    obtain rfl := sound.known_live present (Or.inl (same ▸ known)) valid torrent live same.symm
    exact known
  · intro live kept
    by_contra waiting
    have staying : Command.remove torrent ∉ state.commands := fun removing =>
      inFlight_pos removing alone
    exact saved live ((sound.saves torrent live staying kept).2 waiting)

/-- The user's removal of a name marks it, and takes over the removal for the cache. -/
theorem dismiss (sound : Sound name state) {torrent : τ}
    (known : state.handles (name torrent) = some torrent) (valid : torrent ∉ state.expired)
    (marked : torrent ∈ state.live → torrent ∈ state.explicitlyRemoved) :
    Sound name { state with
      pendingCacheUnloads := state.pendingCacheUnloads \ {name torrent}
      pendingCacheRemovals := state.pendingCacheRemovals \ {name torrent}
      pendingRemovals := insert (name torrent) state.pendingRemovals
      unwanted := insert (name torrent) state.unwanted } :=
  { sound with
    chosen_unmarked := by
      rintro other ⟨member, different⟩
      have ⟨unloaded, kept⟩ := sound.chosen_unmarked other member
      exact ⟨fun cached => unloaded cached.1, fun removed => removed.elim different kept⟩
    cached_unremoved := by
      rintro other ⟨member, different⟩ removed
      exact removed.elim different (sound.cached_unremoved other member)
    inFlight_marked := by
      intro other waiting
      by_cases same : other = name torrent
      · exact Or.inr (Or.inl same)
      · exact (sound.inFlight_marked other waiting).imp (fun cached => ⟨cached, same⟩)
          (Set.mem_insert_of_mem _)
    chosen_live := fun other member => sound.chosen_live other member.1
    unwanted_live := by
      rintro other live (same | unwanted)
      · obtain rfl := sound.known_live torrent (Or.inl known) valid other live same
        exact marked live
      · exact sound.unwanted_live other live unwanted
    unwanted_added := by
      rintro other added (same | unwanted)
      · obtain ⟨live, ordered⟩ := sound.asked_again torrent (Or.inl known) valid other added same
        exact ⟨torrent, live, same.symm, ordered⟩
      · exact sound.unwanted_added other added unwanted }

theorem remove (sound : Sound name state) {torrent : τ}
    (known : state.handles (name torrent) = some torrent) (valid : torrent ∉ state.expired)
    (uncached : name torrent ∉ state.pendingCacheRemovals)
    (unremoved : name torrent ∉ state.pendingRemovals)
    (marked : torrent ∈ state.live → torrent ∈ state.explicitlyRemoved) :
    Sound name { state with
      pendingCacheUnloads := state.pendingCacheUnloads \ {name torrent}
      pendingCacheRemovals := state.pendingCacheRemovals \ {name torrent}
      pendingRemovals := insert (name torrent) state.pendingRemovals
      unwanted := insert (name torrent) state.unwanted
      commands := state.commands ++ [.remove torrent] } :=
  (sound.dismiss known valid marked).enqueueRemove (sound.handled _ torrent known).1
    (sound.idle uncached unremoved) (Or.inr (Set.mem_insert _ _)) (fun _ => known)
    fun live kept => absurd (marked live) kept

theorem request (sound : Sound name state) {torrent : τ} (fresh : torrent ∉ state.requested)
    (free : ∀ other, state.handles (name torrent) = some other → other ∈ state.expired) :
    Sound name { state with
      requested := insert torrent state.requested
      explicitlyRemoved := state.explicitlyRemoved \ {torrent}
      unwanted := state.unwanted \ {name torrent}
      commands := state.commands ++ [.add torrent] } := by
  have unmade : torrent ∉ state.made := fun made => fresh (sound.made_requested torrent made)
  have absent : Command.add torrent ∉ state.commands := fun member =>
    fresh (sound.add_fresh torrent member).1
  have elsewhere : ∀ other ∈ state.made, other ∉ state.explicitlyRemoved \ {torrent} →
      other ∉ state.explicitlyRemoved := fun other made kept marked =>
    kept ⟨marked, fun same => unmade (same ▸ made)⟩
  exact { sound with
    made_requested := fun other made => Set.mem_insert_of_mem _ (sound.made_requested other made)
    add_once := by
      intro other
      have before := sound.add_once other
      rw [List.count_append]
      by_cases same : other = torrent
      · subst same
        rw [List.count_eq_zero.mpr absent]
        simp
      · have new : List.count (Command.add other) [Command.add torrent] = 0 :=
          List.count_eq_zero.mpr (by simpa using same)
        omega
    add_fresh := by
      intro other member
      rcases List.mem_append.mp member with before | last
      · have ⟨requested, out⟩ := sound.add_fresh other before
        exact ⟨Set.mem_insert_of_mem _ requested, out⟩
      · obtain rfl : other = torrent := by simpa using last
        exact ⟨Set.mem_insert _ _, unmade⟩
    remove_made := by simpa using sound.remove_made
    save_made := by simpa using sound.save_made
    inFlight_le := by simpa [inFlight, Command.removes] using sound.inFlight_le
    inFlight_marked := by simpa [inFlight, Command.removes] using sound.inFlight_marked
    removing_known := by simpa using sound.removing_known
    asked_again := by
      intro present known valid other member same
      rcases List.mem_append.mp member with before | last
      · obtain ⟨live, ordered⟩ := sound.asked_again present known valid other before same
        refine ⟨live, fun ahead => ?_⟩
        rcases ahead_concat.mp ahead with earlier | ⟨_, last⟩
        · exact ordered earlier
        · obtain rfl : other = torrent := by simpa using last
          exact absent before
      · obtain rfl : other = torrent := by simpa using last
        -- a handle that the owner has for the name is expired, so that it is about to be told this one
        have unhandled : state.handles (name present) ≠ some present := fun handled =>
          valid (free present (same ▸ handled))
        have added := known.resolve_left unhandled
        have live : present ∈ state.live := by
          by_contra out
          exact unhandled (sound.added_out present added valid out)
        refine ⟨live, fun ahead => ?_⟩
        rcases ahead_concat.mp ahead with earlier | ⟨removing, _⟩
        · exact unhandled (sound.removing_known present earlier.mem_first live)
        · exact unhandled (sound.removing_known present removing live)
    saves := by
      intro other live staying kept
      simp only [List.mem_append, List.mem_singleton, reduceCtorEq, or_false] at staying
      simpa [unanswered] using sound.saves other live staying (elsewhere other (sound.live_made other live) kept)
    settled := by
      intro other made kept valid departing
      simp only [Departing, List.mem_append, List.mem_singleton, reduceCtorEq, or_false] at departing
      simpa [ahead_concat] using sound.settled other made (elsewhere other made kept) valid departing
    unwanted_live := by
      rintro other live ⟨unwanted, _⟩
      exact ⟨sound.unwanted_live other live unwanted,
        fun same => unmade (same ▸ sound.live_made other live)⟩
    unwanted_added := by
      rintro other member ⟨unwanted, different⟩
      rcases List.mem_append.mp member with before | last
      · simpa [ahead_concat, show other ≠ torrent from fun same => different (same ▸ rfl)] using
          sound.unwanted_added other before unwanted
      · obtain rfl : other = torrent := by simpa using last
        exact absurd rfl different }

/-- A notice that tells no removal is heard, with handles of torrents that were known before. -/
theorem hear (sound : Sound name state) {notice : Notice τ} {rest : List (Notice τ)}
    (next : state.notices = notice :: rest) (tells : ∀ torrent, notice ≠ .removed torrent)
    {handles : ν → Option τ}
    (known : ∀ wanted torrent, handles wanted = some torrent →
      name torrent = wanted ∧ state.Known name torrent)
    (kept : ∀ torrent, state.handles (name torrent) = some torrent → torrent ∉ state.expired →
      (torrent ∈ state.live ∨ .added torrent ∈ rest) → handles (name torrent) = some torrent) :
    Sound name { state with notices := rest, handles := handles } := by
  have earlier : ∀ {other}, other ∈ rest → other ∈ state.notices := fun member =>
    next ▸ List.mem_cons_of_mem _ member
  have told : ∀ {torrent}, .removed torrent ∈ state.notices → .removed torrent ∈ rest := by
    intro torrent member
    rw [next] at member
    exact (List.mem_cons.mp member).resolve_left fun same => tells torrent same.symm
  have knew : ∀ {torrent}, (handles (name torrent) = some torrent ∨ .added torrent ∈ rest) →
      state.Known name torrent := by
    rintro torrent (handled | added)
    · exact (known _ torrent handled).2
    · exact Or.inr (earlier added)
  have counted : ∀ wanted, { state with notices := rest, handles := handles }.inFlight name wanted =
      state.inFlight name wanted := by
    intro wanted
    have plain : notice.removes name wanted = false := by
      cases notice with
      | removed torrent => exact absurd rfl (tells torrent)
      | added | refused => rfl
    simp [inFlight, next, plain]
  exact { sound with
    handled := by
      intro wanted torrent handled
      obtain ⟨same, knew⟩ := known wanted torrent handled
      refine ⟨?_, same⟩
      rcases knew with before | added
      · exact (sound.handled _ torrent before).1
      · exact sound.added_made torrent added
    added_made := fun torrent member => sound.added_made torrent (earlier member)
    removed_out := fun torrent member => sound.removed_out torrent (earlier member)
    inFlight_le := fun wanted => (counted wanted).symm ▸ sound.inFlight_le wanted
    inFlight_marked := fun wanted waiting => sound.inFlight_marked wanted (counted wanted ▸ waiting)
    chosen_live := by
      intro wanted chosen
      obtain ⟨torrent, live, handled⟩ := sound.chosen_live wanted chosen
      obtain rfl := (sound.handled wanted torrent handled).2
      exact ⟨torrent, live, kept torrent handled
        (fun gone => (sound.expired_out torrent gone).2 live) (Or.inl live)⟩
    known_live := fun torrent here => sound.known_live torrent (knew here)
    added_first := fun torrent ahead => sound.added_first torrent (by
      rw [next]
      exact ahead_cons.mpr (Or.inr ahead))
    known_out := fun torrent here valid out => told (sound.known_out torrent (knew here) valid out)
    added_out := fun torrent member valid out =>
      kept torrent (sound.added_out torrent (earlier member) valid out) valid (Or.inr member)
    removing_known := fun torrent removing live =>
      kept torrent (sound.removing_known torrent removing live)
        (fun gone => (sound.expired_out torrent gone).2 live) (Or.inl live)
    asked_again := fun torrent here => sound.asked_again torrent (knew here) }

theorem learn (sound : Sound name state) {torrent : τ} {rest : List (Notice τ)}
    (next : state.notices = .added torrent :: rest) (valid : torrent ∉ state.expired) :
    Sound name { state with
      notices := rest
      handles := Function.update state.handles (name torrent) (some torrent) } := by
  have added : .added torrent ∈ state.notices := next ▸ List.mem_cons_self
  refine sound.hear next (by simp) ?_ ?_
  · intro wanted other handled
    by_cases same : wanted = name torrent
    · obtain rfl : torrent = other := by simpa [same] using handled
      exact ⟨same.symm, Or.inr added⟩
    · rw [Function.update_of_ne same] at handled
      have named := (sound.handled wanted other handled).2
      exact ⟨named, Or.inl (named.symm ▸ handled)⟩
  · intro other handled present _
    by_cases same : name other = name torrent
    · -- the torrent that is told is the one that the owner knows already
      have again : other = torrent := by
        by_cases live : torrent ∈ state.live
        · exact (sound.known_live other (Or.inl handled) present torrent live same.symm).symm
        · have before := sound.added_out torrent added valid live
          rw [← same, handled] at before
          exact Option.some.inj before
      simp [again]
    · rw [Function.update_of_ne same]
      exact handled

/-- A notice that tells nothing new is heard. -/
theorem overhear (sound : Sound name state) {notice : Notice τ} {rest : List (Notice τ)}
    (next : state.notices = notice :: rest) (tells : ∀ torrent, notice ≠ .removed torrent) :
    Sound name { state with notices := rest } :=
  sound.hear next tells
    (fun wanted other handled =>
      have named := (sound.handled wanted other handled).2
      ⟨named, Or.inl (named.symm ▸ handled)⟩)
    fun _ handled _ _ => handled

theorem release (sound : Sound name state) {torrent : τ} {rest : List (Notice τ)}
    (next : state.notices = .removed torrent :: rest) :
    Sound name { state with
      notices := rest
      handles := Function.update state.handles (name torrent) none
      pendingCacheUnloads := state.pendingCacheUnloads \ {name torrent}
      pendingCacheRemovals := state.pendingCacheRemovals \ {name torrent}
      pendingRemovals := state.pendingRemovals \ {name torrent} } := by
  have earlier : ∀ {other}, other ∈ rest → other ∈ state.notices := fun member =>
    next ▸ List.mem_cons_of_mem _ member
  have handled : ∀ {wanted other}, Function.update state.handles (name torrent) none wanted = some other →
      wanted ≠ name torrent ∧ state.handles wanted = some other := by
    intro wanted other found
    by_cases same : wanted = name torrent
    · simp [same] at found
    · rw [Function.update_of_ne same] at found
      exact ⟨same, found⟩
  have knew : ∀ {other}, (Function.update state.handles (name torrent) none (name other) = some other ∨
      .added other ∈ rest) → state.Known name other := by
    rintro other (found | added)
    · exact Or.inl (handled found).2
    · exact Or.inr (earlier added)
  have counted : ∀ wanted, state.inFlight name wanted =
      { state with notices := rest }.inFlight name wanted + if name torrent = wanted then 1 else 0 := by
    intro wanted
    by_cases same : name torrent = wanted <;> simp [inFlight, next, Notice.removes, same]
    omega
  -- no second removal of the name is on its way
  have alone : { state with notices := rest }.inFlight name (name torrent) = 0 := by
    have one := sound.inFlight_le (name torrent)
    rw [counted, if_pos rfl] at one
    omega
  have different : ∀ {other}, .removed other ∈ rest → name other ≠ name torrent := by
    intro other told same
    have flying : { state with notices := rest }.inFlight name (name other) ≠ 0 := inFlight_pos_removed told
    exact flying (same ▸ alone)
  have elsewhere : ∀ {other}, state.handles (name other) = some other → name other ≠ name torrent →
      Function.update state.handles (name torrent) none (name other) = some other := by
    intro other found apart
    rw [Function.update_of_ne apart]
    exact found
  have later : ∀ {other}, .added other ∈ rest → other ≠ torrent := by
    rintro other added rfl
    exact sound.added_first other (by
      rw [next]
      exact ahead_cons.mpr (Or.inl ⟨rfl, added⟩))
  have waiting : ∀ {other}, state.Known name other → other ∉ state.expired → other ∉ state.live →
      other ≠ torrent → .removed other ∈ rest := by
    intro other known valid out apart
    have told := sound.known_out other known valid out
    rw [next] at told
    exact (List.mem_cons.mp told).resolve_left fun same => apart (Notice.removed.inj same)
  exact { sound with
    handled := fun wanted other found => sound.handled wanted other (handled found).2
    added_made := fun other member => sound.added_made other (earlier member)
    removed_out := fun other member => sound.removed_out other (earlier member)
    chosen_unmarked := by
      rintro wanted ⟨member, _⟩
      have ⟨uncached, unremoved⟩ := sound.chosen_unmarked wanted member
      exact ⟨fun cached => uncached cached.1, fun removed => unremoved removed.1⟩
    cached_unremoved := fun wanted member removed => sound.cached_unremoved wanted member.1 removed.1
    inFlight_le := by
      intro wanted
      have before := sound.inFlight_le wanted
      rw [counted] at before
      exact (Nat.le_add_right _ _).trans before
    inFlight_marked := by
      intro wanted waits
      have apart : wanted ≠ name torrent := by
        rintro rfl
        exact waits alone
      have before : state.inFlight name wanted ≠ 0 := by
        rw [counted, if_neg (Ne.symm apart)]
        exact waits
      exact (sound.inFlight_marked wanted before).imp (fun cached => ⟨cached, apart⟩)
        fun removed => ⟨removed, apart⟩
    chosen_live := by
      rintro wanted ⟨chosen, apart⟩
      obtain ⟨other, live, found⟩ := sound.chosen_live wanted chosen
      exact ⟨other, live, (Function.update_of_ne apart _ _).trans found⟩
    known_live := fun other here => sound.known_live other (knew here)
    added_first := fun other ahead => sound.added_first other (by
      rw [next]
      exact ahead_cons.mpr (Or.inr ahead))
    known_out := by
      intro other here valid out
      refine waiting (knew here) valid out ?_
      rintro rfl
      rcases here with found | added
      · exact (handled found).1 rfl
      · exact later added rfl
    added_out := by
      intro other member valid out
      have told := waiting (Or.inr (earlier member)) valid out (later member)
      exact elsewhere (sound.added_out other (earlier member) valid out) (different told)
    removing_known := by
      intro other removing live
      refine elsewhere (sound.removing_known other removing live) fun same => ?_
      have flying : { state with notices := rest }.inFlight name (name other) ≠ 0 := inFlight_pos removing
      exact flying (same ▸ alone)
    asked_again := fun other here => sound.asked_again other (knew here) }

theorem answer (sound : Sound name state) {torrent : τ} (asked : torrent ∈ state.saving) :
    Sound name { state with
      saving := state.saving.erase torrent
      pendingResumeSaves := state.pendingResumeSaves \ {torrent} } :=
  { sound with
    saving_made := fun other member => sound.saving_made other (List.mem_of_mem_erase member)
    saves := by
      intro other live staying kept
      have ⟨once, waits⟩ := sound.saves other live staying kept
      by_cases same : other = torrent
      · subst same
        have counted : 0 < state.saving.count other := List.count_pos_iff.mpr asked
        simp only [unanswered, List.count_erase_self] at once ⊢
        exact ⟨by omega, fun waiting => absurd waiting (by omega)⟩
      · simp only [unanswered, List.count_erase_of_ne same] at once waits ⊢
        exact ⟨once, fun waiting => ⟨waits waiting, same⟩⟩
    settled := by
      intro other made kept valid departing
      have ⟨silent, ordered⟩ := sound.settled other made kept valid departing
      exact ⟨fun member => silent (List.mem_of_mem_erase member), ordered⟩ }

theorem echo (sound : Sound name state) {torrent : τ} (out : torrent ∉ state.live) :
    Sound name { state with saving := state.saving.erase torrent } :=
  { sound with
    saving_made := fun other member => sound.saving_made other (List.mem_of_mem_erase member)
    saves := by
      intro other live staying kept
      have different : other ≠ torrent := fun same => out (same ▸ live)
      simpa [unanswered, List.count_erase_of_ne different] using sound.saves other live staying kept
    settled := by
      intro other made kept valid departing
      have ⟨silent, ordered⟩ := sound.settled other made kept valid departing
      exact ⟨fun member => silent (List.mem_of_mem_erase member), ordered⟩ }

omit [DecidableEq τ] in
theorem inFlight_next {command : Command τ} {rest : List (Command τ)}
    (next : state.commands = command :: rest) (wanted : ν) : state.inFlight name wanted =
      { state with commands := rest }.inFlight name wanted +
        if command.removes name wanted then 1 else 0 := by
  simp only [inFlight, next, List.countP_cons]
  omega

/-- A command that takes nothing out of the session leaves the queue. -/
theorem dequeue (sound : Sound name state) {command : Command τ} {rest : List (Command τ)}
    (next : state.commands = command :: rest)
    (idle : ∀ torrent, command = .remove torrent → torrent ∉ state.live) :
    Sound name { state with commands := rest } := by
  have earlier : ∀ {other}, other ∈ rest → other ∈ state.commands := fun member =>
    next ▸ List.mem_cons_of_mem _ member
  have ahead : ∀ {first second}, Ahead first second rest → Ahead first second state.commands := by
    intro first second later
    rw [next]
    exact ahead_cons.mpr (Or.inr later)
  have fewer : ∀ other, rest.count other ≤ state.commands.count other := by
    intro other
    rw [next, List.count_cons]
    exact Nat.le_add_right _ _
  exact { sound with
    add_once := fun torrent => (fewer _).trans (sound.add_once torrent)
    add_fresh := fun torrent member => sound.add_fresh torrent (earlier member)
    remove_made := fun torrent member => sound.remove_made torrent (earlier member)
    save_made := fun torrent member => sound.save_made torrent (earlier member)
    inFlight_le := by
      intro wanted
      have before := sound.inFlight_le wanted
      rw [inFlight_next next] at before
      exact (Nat.le_add_right _ _).trans before
    inFlight_marked := by
      intro wanted waiting
      refine sound.inFlight_marked wanted ?_
      rw [inFlight_next next]
      omega
    removing_known := fun torrent member => sound.removing_known torrent (earlier member)
    asked_again := by
      intro torrent known valid other member same
      have ⟨live, ordered⟩ := sound.asked_again torrent known valid other (earlier member) same
      exact ⟨live, fun later => ordered (ahead later)⟩
    saves := by
      intro torrent live staying kept
      have present : Command.remove torrent ∉ state.commands := by
        rw [next]
        intro member
        rcases List.mem_cons.mp member with first | later
        · exact idle torrent first.symm live
        · exact staying later
      have ⟨once, asked⟩ := sound.saves torrent live present kept
      have less := fewer (.save torrent)
      simp only [unanswered] at once asked ⊢
      exact ⟨by omega, fun waiting => asked (by omega)⟩
    settled := by
      intro torrent made kept valid departing
      have ⟨silent, ordered⟩ := sound.settled torrent made kept valid (departing.imp id earlier)
      exact ⟨silent, fun live later => ordered live (ahead later)⟩
    unwanted_added := by
      intro torrent member unwanted
      obtain ⟨other, live, same, ordered⟩ := sound.unwanted_added torrent (earlier member) unwanted
      exact ⟨other, live, same, fun later => ordered (ahead later)⟩ }

theorem postRefused (sound : Sound name state) :
    Sound name { state with notices := state.notices ++ [.refused] } :=
  { sound with
    added_made := by simpa using sound.added_made
    removed_out := by simpa using sound.removed_out
    inFlight_le := by simpa [inFlight, Notice.removes] using sound.inFlight_le
    inFlight_marked := by simpa [inFlight, Notice.removes] using sound.inFlight_marked
    known_live := by simpa [Known] using sound.known_live
    added_first := by simpa [ahead_concat] using sound.added_first
    known_out := by simpa [Known] using sound.known_out
    added_out := by simpa using sound.added_out
    asked_again := by simpa [Known] using sound.asked_again }

theorem postAdded (sound : Sound name state) {torrent : τ} (live : torrent ∈ state.live) :
    Sound name { state with notices := state.notices ++ [.added torrent] } := by
  have knew : ∀ {other}, (state.handles (name other) = some other ∨
      .added other ∈ state.notices ++ [.added torrent]) → state.Known name other ∨ other = torrent := by
    rintro other (handled | added)
    · exact Or.inl (Or.inl handled)
    · rcases List.mem_append.mp added with before | last
      · exact Or.inl (Or.inr before)
      · exact Or.inr (by simpa using last)
  exact { sound with
    added_made := by
      intro other member
      rcases List.mem_append.mp member with before | last
      · exact sound.added_made other before
      · obtain rfl : other = torrent := by simpa using last
        exact sound.live_made other live
    removed_out := by simpa using sound.removed_out
    inFlight_le := by simpa [inFlight, Notice.removes] using sound.inFlight_le
    inFlight_marked := by simpa [inFlight, Notice.removes] using sound.inFlight_marked
    known_live := by
      intro other here valid present there same
      rcases knew here with known | rfl
      · exact sound.known_live other known valid present there same
      · exact sound.single other live present there same
    added_first := by
      intro other ahead
      rcases ahead_concat.mp ahead with before | ⟨removed, last⟩
      · exact sound.added_first other before
      · obtain rfl : other = torrent := by simpa using last
        exact (sound.removed_out other removed).2 live
    known_out := by
      intro other here valid out
      rcases knew here with known | rfl
      · exact List.mem_append_left _ (sound.known_out other known valid out)
      · exact absurd live out
    added_out := by
      intro other member valid out
      rcases List.mem_append.mp member with before | last
      · exact sound.added_out other before valid out
      · obtain rfl : other = torrent := by simpa using last
        exact absurd live out
    asked_again := by
      intro other here valid next member same
      rcases knew here with known | rfl
      · exact sound.asked_again other known valid next member same
      · refine ⟨live, fun ahead => ?_⟩
        have known := sound.removing_known other ahead.mem_first live
        exact (sound.asked_again other (Or.inl known) valid next member same).2 ahead }

theorem postRemoved (sound : Sound name state) {torrent : τ} (made : torrent ∈ state.made)
    (out : torrent ∉ state.live) (alone : state.inFlight name (name torrent) = 0)
    (marked : name torrent ∈ state.pendingCacheRemovals ∨ name torrent ∈ state.pendingRemovals) :
    Sound name { state with notices := state.notices ++ [.removed torrent] } := by
  have counted : ∀ wanted,
      { state with notices := state.notices ++ [Notice.removed torrent] }.inFlight name wanted =
      state.inFlight name wanted + if name torrent = wanted then 1 else 0 := by
    intro wanted
    by_cases same : name torrent = wanted <;> simp [inFlight, Notice.removes, same]
    omega
  exact { sound with
    added_made := by simpa using sound.added_made
    removed_out := by
      intro other member
      rcases List.mem_append.mp member with before | last
      · exact sound.removed_out other before
      · obtain rfl : other = torrent := by simpa using last
        exact ⟨made, out⟩
    inFlight_le := by
      intro wanted
      rw [counted]
      split
      · rename_i same
        rw [← same, alone]
      · exact sound.inFlight_le wanted
    inFlight_marked := by
      intro wanted waiting
      by_cases same : name torrent = wanted
      · exact same ▸ marked
      · rw [counted, if_neg same] at waiting
        exact sound.inFlight_marked wanted waiting
    known_live := by simpa [Known] using sound.known_live
    added_first := by simpa [ahead_concat] using sound.added_first
    known_out := by
      intro other here valid gone
      exact List.mem_append_left _ (sound.known_out other (by simpa [Known] using here) valid gone)
    added_out := by simpa using sound.added_out
    asked_again := by simpa [Known] using sound.asked_again }

/-- A torrent that was just asked for comes into the session. -/
theorem create (sound : Sound name state) {torrent : τ} (requested : torrent ∈ state.requested)
    (unmade : torrent ∉ state.made) (served : .add torrent ∉ state.commands)
    (single : ∀ other ∈ state.live, name other ≠ name torrent)
    (unknown : ∀ other, state.Known name other → other ∉ state.expired → name other ≠ name torrent)
    (wanted : name torrent ∉ state.unwanted) :
    Sound name { state with
      live := insert torrent state.live
      made := insert torrent state.made } := by
  have unasked : ∀ {other}, .remove other ∈ state.commands → other ≠ torrent := fun member same =>
    unmade (same ▸ sound.remove_made _ member)
  have before : ∀ {other}, other ∈ insert torrent state.live → other ≠ torrent → other ∈ state.live :=
    fun live different => live.resolve_left different
  have apart : ∀ {other}, other ∈ state.made → other ≠ torrent := fun made same => unmade (same ▸ made)
  have known_made : ∀ {other}, state.Known name other → other ∈ state.made := by
    rintro other (handled | added)
    · exact (sound.handled _ other handled).1
    · exact sound.added_made other added
  exact { sound with
    live_made := by
      rintro other (rfl | live)
      · exact Set.mem_insert _ _
      · exact Set.mem_insert_of_mem _ (sound.live_made other live)
    made_requested := by
      rintro other (rfl | made)
      · exact requested
      · exact sound.made_requested other made
    expired_out := by
      intro other gone
      have ⟨made, out⟩ := sound.expired_out other gone
      exact ⟨Set.mem_insert_of_mem _ made, fun live => out (before live (apart made))⟩
    handled := by
      intro wanted other handled
      have ⟨made, same⟩ := sound.handled wanted other handled
      exact ⟨Set.mem_insert_of_mem _ made, same⟩
    saving_made := fun other member => Set.mem_insert_of_mem _ (sound.saving_made other member)
    add_fresh := by
      intro other member
      have ⟨asked, out⟩ := sound.add_fresh other member
      exact ⟨asked, fun made => made.elim (fun same => served (same ▸ member)) out⟩
    remove_made := fun other member => Set.mem_insert_of_mem _ (sound.remove_made other member)
    save_made := fun other member => Set.mem_insert_of_mem _ (sound.save_made other member)
    added_made := fun other member => Set.mem_insert_of_mem _ (sound.added_made other member)
    removed_out := by
      intro other member
      have ⟨made, out⟩ := sound.removed_out other member
      exact ⟨Set.mem_insert_of_mem _ made, fun live => out (before live (apart made))⟩
    single := by
      rintro first (rfl | here) second (rfl | there) same
      · rfl
      · exact absurd same (single second there)
      · exact absurd same.symm (single first here)
      · exact sound.single first here second there same
    chosen_live := by
      intro wanted chosen
      obtain ⟨other, live, handled⟩ := sound.chosen_live wanted chosen
      exact ⟨other, Set.mem_insert_of_mem _ live, handled⟩
    known_live := by
      rintro other known valid present (rfl | there) same
      · exact absurd same.symm (unknown other known valid)
      · exact sound.known_live other known valid present there same
    known_out := fun other known valid out =>
      sound.known_out other known valid fun live => out (Set.mem_insert_of_mem _ live)
    added_out := fun other member valid out =>
      sound.added_out other member valid fun live => out (Set.mem_insert_of_mem _ live)
    removing_known := fun other member live =>
      sound.removing_known other member (before live (unasked member))
    asked_again := by
      intro other known valid next member same
      have ⟨live, ordered⟩ := sound.asked_again other known valid next member same
      exact ⟨Set.mem_insert_of_mem _ live, ordered⟩
    saves := by
      rintro other (rfl | live) staying kept
      · have unsaved : Command.save other ∉ state.commands := fun member =>
          unmade (sound.save_made other member)
        have silent : other ∉ state.saving := fun member => unmade (sound.saving_made other member)
        have none : state.unanswered other = 0 := by
          simp [unanswered, List.count_eq_zero.mpr unsaved, List.count_eq_zero.mpr silent]
        exact ⟨none.le.trans (by simp), fun waiting => absurd none waiting⟩
      · exact sound.saves other live staying kept
    settled := by
      rintro other (rfl | made) kept valid departing
      · rcases departing with out | member
        · exact absurd (Set.mem_insert _ _) out
        · exact absurd rfl (unasked member)
      · have ⟨silent, ordered⟩ := sound.settled other made kept valid
          (departing.imp (fun out live => out (Set.mem_insert_of_mem _ live)) id)
        exact ⟨silent, fun live => ordered (before live (apart made))⟩
    unwanted_live := by
      rintro other (rfl | live) unwanted
      · exact absurd unwanted wanted
      · exact sound.unwanted_live other live unwanted
    unwanted_added := by
      intro other member unwanted
      obtain ⟨present, live, same, ordered⟩ := sound.unwanted_added other member unwanted
      exact ⟨present, Set.mem_insert_of_mem _ live, same, ordered⟩ }

theorem make (sound : Sound name state) {torrent : τ} {rest : List (Command τ)}
    (next : state.commands = .add torrent :: rest)
    (single : ∀ other ∈ state.live, name other ≠ name torrent) :
    Sound name { state with
      commands := rest
      live := insert torrent state.live
      made := insert torrent state.made
      notices := state.notices ++ [.added torrent] } := by
  have asked : Command.add torrent ∈ state.commands := next ▸ List.mem_cons_self
  obtain ⟨requested, unmade⟩ := sound.add_fresh torrent asked
  have served : Command.add torrent ∉ rest := by
    have once := sound.add_once torrent
    rw [next, List.count_cons_self] at once
    exact List.count_eq_zero.mp (by omega)
  have unknown : ∀ other, state.Known name other → other ∉ state.expired → name other ≠ name torrent := by
    intro other known valid same
    exact single other (sound.asked_again other known valid torrent asked same.symm).1 same
  have wanted : name torrent ∉ state.unwanted := by
    intro unwanted
    obtain ⟨other, live, same, _⟩ := sound.unwanted_added torrent asked unwanted
    exact single other live same
  exact ((sound.dequeue next (by simp)).create requested unmade served single unknown wanted).postAdded
    (Set.mem_insert _ _)

theorem takeOut (sound : Sound name state) {torrent : τ} {rest : List (Command τ)}
    (next : state.commands = .remove torrent :: rest) (there : torrent ∈ state.live) :
    Sound name { state with
      commands := rest
      live := state.live \ {torrent}
      notices := state.notices ++ [.removed torrent] } := by
  have removing : Command.remove torrent ∈ state.commands := next ▸ List.mem_cons_self
  have known := sound.removing_known torrent removing there
  have made := sound.live_made torrent there
  have earlier : ∀ {other}, other ∈ rest → other ∈ state.commands := fun member =>
    next ▸ List.mem_cons_of_mem _ member
  have ahead : ∀ {first second}, Ahead first second rest → Ahead first second state.commands := by
    intro first second later
    rw [next]
    exact ahead_cons.mpr (Or.inr later)
  have counts : ∀ {command : Command τ}, command ≠ .remove torrent →
      rest.count command = state.commands.count command := by
    intro command different
    rw [next, List.count_cons_of_ne (Ne.symm different)]
  have flight : ∀ wanted, { state with
      commands := rest
      live := state.live \ {torrent}
      notices := state.notices ++ [Notice.removed torrent] }.inFlight name wanted =
        state.inFlight name wanted := by
    intro wanted
    by_cases same : name torrent = wanted <;>
      simp [inFlight, next, Notice.removes, Command.removes, same]
    omega
  have knew : ∀ {other}, (state.handles (name other) = some other ∨
      .added other ∈ state.notices ++ [.removed torrent]) → state.Known name other := by
    rintro other (handled | added)
    · exact Or.inl handled
    · exact Or.inr (by simpa using added)
  -- a request that is still queued is ahead of every removal of a torrent that would serve it
  have survives : ∀ {other present}, ¬ Ahead (.remove present) (.add other) state.commands →
      .add other ∈ rest → present ∈ state.live → present ∈ state.live \ {torrent} := by
    intro other present ordered member live
    refine ⟨live, ?_⟩
    rintro rfl
    exact ordered (by
      rw [next]
      exact ahead_cons.mpr (Or.inl ⟨rfl, member⟩))
  exact { sound with
    live_made := fun other live => sound.live_made other live.1
    expired_out := by
      intro other gone
      have ⟨was, out⟩ := sound.expired_out other gone
      exact ⟨was, fun live => out live.1⟩
    add_once := by
      intro other
      rw [counts (by simp)]
      exact sound.add_once other
    add_fresh := fun other member => sound.add_fresh other (earlier member)
    remove_made := fun other member => sound.remove_made other (earlier member)
    save_made := fun other member => sound.save_made other (earlier member)
    added_made := by simpa using sound.added_made
    removed_out := by
      intro other member
      rcases List.mem_append.mp member with before | last
      · have ⟨was, out⟩ := sound.removed_out other before
        exact ⟨was, fun live => out live.1⟩
      · obtain rfl : other = torrent := by simpa using last
        exact ⟨made, fun live => live.2 rfl⟩
    single := fun first here second there => sound.single first here.1 second there.1
    inFlight_le := fun wanted => (flight wanted).symm ▸ sound.inFlight_le wanted
    inFlight_marked := fun wanted waiting => sound.inFlight_marked wanted (flight wanted ▸ waiting)
    chosen_live := by
      intro wanted chosen
      obtain ⟨other, live, handled⟩ := sound.chosen_live wanted chosen
      refine ⟨other, ⟨live, ?_⟩, handled⟩
      rintro rfl
      obtain rfl := (sound.handled wanted other handled).2
      obtain ⟨uncached, unremoved⟩ := sound.chosen_unmarked _ chosen
      exact inFlight_pos removing (sound.idle uncached unremoved)
    known_live := fun other here valid present live =>
      sound.known_live other (knew here) valid present live.1
    added_first := by simpa [ahead_concat] using sound.added_first
    known_out := by
      intro other here valid out
      by_cases same : other = torrent
      · simp [same]
      · exact List.mem_append_left _ (sound.known_out other (knew here) valid
          fun live => out ⟨live, same⟩)
    added_out := by
      intro other member valid out
      by_cases same : other = torrent
      · exact same ▸ known
      · exact sound.added_out other (by simpa using member) valid fun live => out ⟨live, same⟩
    removing_known := fun other member live => sound.removing_known other (earlier member) live.1
    asked_again := by
      intro other here valid again member same
      have ⟨live, ordered⟩ := sound.asked_again other (knew here) valid again (earlier member) same
      exact ⟨survives ordered member live, fun later => ordered (ahead later)⟩
    saves := by
      rintro other ⟨live, different⟩ staying kept
      have present : Command.remove other ∉ state.commands := by
        rw [next]
        intro member
        rcases List.mem_cons.mp member with first | later
        · exact different (Command.remove.inj first)
        · exact staying later
      have saved : rest.count (.save other) = state.commands.count (.save other) := counts (by simp)
      simpa only [unanswered, saved] using sound.saves other live present kept
    settled := by
      intro other was kept valid departing
      by_cases same : other = torrent
      · subst same
        exact ⟨(sound.settled other was kept valid (Or.inr removing)).1, fun live => absurd rfl live.2⟩
      · have ⟨silent, ordered⟩ := sound.settled other was kept valid
          (departing.imp (fun out live => out ⟨live, same⟩) earlier)
        exact ⟨silent, fun live later => ordered live.1 (ahead later)⟩
    unwanted_live := fun other live => sound.unwanted_live other live.1
    unwanted_added := by
      intro other member unwanted
      obtain ⟨present, live, same, ordered⟩ := sound.unwanted_added other (earlier member) unwanted
      exact ⟨present, survives ordered member live, same, fun later => ordered (ahead later)⟩ }

theorem retell (sound : Sound name state) {torrent : τ} {rest : List (Command τ)}
    (next : state.commands = .remove torrent :: rest) (out : torrent ∉ state.live) :
    Sound name { state with commands := rest, notices := state.notices ++ [.removed torrent] } := by
  have removing : Command.remove torrent ∈ state.commands := next ▸ List.mem_cons_self
  have once := sound.inFlight_le (name torrent)
  rw [inFlight_next next] at once
  simp only [Command.removes, decide_true, if_true] at once
  refine (sound.dequeue next ?_).postRemoved (sound.remove_made torrent removing) out (by omega)
    (sound.inFlight_marked _ (inFlight_pos removing))
  rintro other same
  obtain rfl := Command.remove.inj same
  exact out

theorem record (sound : Sound name state) {torrent : τ} {rest : List (Command τ)}
    (next : state.commands = .save torrent :: rest) (there : torrent ∈ state.live) :
    Sound name { state with commands := rest, saving := state.saving ++ [torrent] } := by
  have asked : Command.save torrent ∈ state.commands := next ▸ List.mem_cons_self
  have dequeued := sound.dequeue next (by simp)
  exact { dequeued with
    saving_made := by
      intro other member
      rcases List.mem_append.mp member with before | last
      · exact sound.saving_made other before
      · obtain rfl : other = torrent := by simpa using last
        exact sound.save_made other asked
    saves := by
      intro other live staying kept
      have moved : { state with commands := rest, saving := state.saving ++ [torrent] }.unanswered other =
          state.unanswered other := by
        by_cases same : other = torrent
        · subst same
          simp [unanswered, next]
          omega
        · have elsewhere : List.count other [torrent] = 0 :=
            List.count_eq_zero.mpr (by simpa using same)
          have saved : List.count (Command.save other) (.save torrent :: rest) =
              rest.count (.save other) := List.count_cons_of_ne (by simpa using Ne.symm same)
          simp [unanswered, next, elsewhere, saved]
      rw [moved]
      exact sound.saves other live (by simpa [next] using staying) kept
    settled := by
      intro other made kept valid departing
      have ⟨silent, ordered⟩ := dequeued.settled other made kept valid departing
      refine ⟨fun member => ?_, ordered⟩
      rcases List.mem_append.mp member with before | last
      · exact silent before
      · obtain rfl : other = torrent := by simpa using last
        -- the save would have to be behind the removal
        have removing : Command.remove other ∈ rest := departing.resolve_left (not_not.mpr there)
        refine (sound.settled other made kept valid (Or.inr ?_)).2 there ?_
        · rw [next]
          exact List.mem_cons_of_mem _ removing
        · rw [next]
          exact ahead_cons.mpr (Or.inl ⟨rfl, removing⟩) }

theorem step (sound : Sound name state) {after : Protocol τ ν} (step : Step name state after) :
    Sound name after := by
  cases step with
  | request torrent fresh free => exact sound.request fresh free
  | save torrent made _ idle => exact sound.save made idle
  | choose torrent known valid uncached unremoved => exact sound.choose known valid uncached unremoved
  | withdraw wanted => exact sound.withdraw wanted
  | unload torrent made chosen saved => exact sound.unload made chosen saved
  | mark torrent => exact sound.mark torrent
  | unmark torrent gone => exact sound.unmark gone
  | remove torrent known valid uncached unremoved marked =>
      exact sound.remove known valid uncached unremoved marked
  | overtake torrent known valid _ marked => exact sound.dismiss known valid marked
  | forget torrent done => exact sound.forget done
  | learn torrent rest next valid => exact sound.learn next valid
  | miss torrent rest next => exact sound.overhear next (by simp)
  | lament rest next => exact sound.overhear next (by simp)
  | release torrent rest next => exact sound.release next
  | answer torrent asked => exact sound.answer asked
  | echo torrent out => exact sound.echo out
  | make torrent rest next single => exact sound.make next single
  | duplicate torrent present rest next there =>
      exact (sound.dequeue next (by simp)).postAdded there
  | refuse torrent rest next => exact (sound.dequeue next (by simp)).postRefused
  | takeOut torrent rest next there => exact sound.takeOut next there
  | retell torrent rest next out => exact sound.retell next out
  | ignore torrent rest next out =>
      refine sound.dequeue next ?_
      rintro other same
      obtain rfl := Command.remove.inj same
      exact out
  | record torrent rest next there => exact sound.record next there
  | reject torrent rest next => exact sound.dequeue next (by simp)
  | expire torrent made out => exact sound.expire made out

theorem steps (sound : Sound name state) {after : Protocol τ ν} (steps : Steps name state after) :
    Sound name after := by
  induction steps with
  | refl => exact sound
  | tail _ last ih => exact ih.step last

/-- No answer that can bring data is waiting for a torrent of an unwanted name. -/
theorem unwanted_silent (sound : Sound name state) {torrent : τ} (waiting : torrent ∈ state.saving)
    (valid : torrent ∉ state.expired) (unwanted : name torrent ∈ state.unwanted) :
    torrent ∈ state.explicitlyRemoved := by
  by_contra kept
  by_cases live : torrent ∈ state.live
  · exact kept (sound.unwanted_live torrent live unwanted)
  · exact (sound.settled torrent (sound.saving_made torrent waiting) kept valid (Or.inl live)).1 waiting

/-- A removal that the user did not ask for was marked as one for the cache. -/
theorem removed_cached (sound : Sound name state) {torrent : τ}
    (told : .removed torrent ∈ state.notices) (unremoved : name torrent ∉ state.pendingRemovals) :
    name torrent ∈ state.pendingCacheRemovals :=
  (sound.inFlight_marked _ (inFlight_pos_removed told)).resolve_right unremoved

end Sound

end NuvioEngine.Backend.Protocol
