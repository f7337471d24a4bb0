import NuvioEngine.Backend.Recalls

/-!
Who owns the contexts of add requests. libtorrent holds them as plain pointers; the backend frees a
context only when it drops it from the pending ones.
-/

namespace NuvioEngine.Backend

open NuvioEngine.Bridge NuvioEngine.Stream NuvioEngine.Cache

namespace BackendState

/-- The contexts in the maps and the list that own them. -/
def owners (backend : BackendState) : List Nat :=
  backend.pending ++ (backend.active.values ++ backend.retired)

/-- No context changes hands. -/
structure Custody (before after : BackendState) : Prop where
  pending : after.pending = before.pending
  active : after.active = before.active
  retired : after.retired = before.retired
  nextContext : after.nextContext = before.nextContext
  torrentId : ∀ context, (after.contexts context).torrentId = (before.contexts context).torrentId

namespace Custody

variable {first second third : BackendState}

theorem trans (left : Custody first second) (right : Custody second third) : Custody first third where
  pending := right.pending.trans left.pending
  active := right.active.trans left.active
  retired := right.retired.trans left.retired
  nextContext := right.nextContext.trans left.nextContext
  torrentId := fun context => (right.torrentId context).trans (left.torrentId context)

theorem ofRecalls (recalls : Recalls first second) : Custody first second :=
  ⟨recalls.pending, recalls.active, recalls.retired, recalls.nextContext, recalls.torrentId⟩

theorem refl (backend : BackendState) : Custody backend backend := ofRecalls (.refl backend)

theorem ofIncidental (incidental : Incidental first second) : Custody first second :=
  ofRecalls (.ofIncidental incidental)

theorem owners (custody : Custody first second) : second.owners = first.owners := by
  rw [BackendState.owners, BackendState.owners, custody.pending, custody.active, custody.retired]

end Custody

variable (backend : BackendState) (answers : Answers)

theorem setContext_custody (context : Nat) {change : RequestContext → RequestContext}
    (named : ∀ request, (change request).torrentId = request.torrentId) :
    Custody backend (backend.setContext context change) := by
  refine ⟨rfl, rfl, rfl, rfl, fun other => ?_⟩
  unfold setContext
  by_cases same : other = context
  · simp [same, named]
  · simp [same]

theorem emitMetadata_custody (handle : Nat) (context : Option Nat) (source : MetadataSource) :
    Custody backend (backend.emitMetadata answers handle context source).1 := by
  unfold emitMetadata
  extract_lets marked
  have quiet : Custody backend marked := by
    cases context with
    | none => exact .refl backend
    | some shared => exact setContext_custody backend shared fun _ => rfl
  split
  · exact quiet
  · exact quiet.trans (.ofIncidental (emit_incidental _ _))

theorem announce_custody (handle : Nat) (context : Option Nat) :
    Custody backend (backend.announce answers handle context).1 := by
  unfold announce
  split
  · exact .refl backend
  · exact .refl backend
  · exact .refl backend
  · rename_i shared _
    split
    · exact .refl backend
    · have told := emitMetadata_custody backend answers handle (some shared)
        (backend.contexts shared).metadataSource
      dsimp only
      split
      · rename_i stopped thrown result
        exact result ▸ told
      · rename_i kept result
        rw [result] at told
        dsimp only
        split
        · exact told
        · exact told.trans (.ofIncidental (requestResumeSave_incidental _ answers handle))

theorem handleMetadata_custody (handle : Nat) :
    Custody backend (backend.handleMetadata answers handle).1 := by
  have told := emitMetadata_custody backend answers handle (answers.userdata handle) .cold
  unfold handleMetadata
  dsimp only
  split
  · exact .refl backend
  · split
    · rename_i result
      exact result ▸ told
    · rename_i result
      rw [result] at told
      exact told.trans (.ofIncidental (requestResumeSave_incidental _ answers handle))

/-- Retiring the active context of a torrent keeps it owned. -/
theorem retire_owners (id : String) : (backend.retire id).owners.Perm backend.owners := by
  unfold retire
  cases found : backend.active.lookup id with
  | none => exact .refl _
  | some context =>
      have moved := AList.values_erase found
      refine List.Perm.append_left _ ?_
      have turned : ((backend.active.erase id).values ++ (backend.retired ++ [context])).Perm
          (context :: ((backend.active.erase id).values ++ backend.retired)) := by
        rw [← List.append_assoc]
        exact List.perm_append_singleton _ _
      exact turned.trans (moved.symm.append_right _)

theorem retire_absent (id : String) : (backend.retire id).active.lookup id = none := by
  unfold retire
  split
  · assumption
  · exact AList.lookup_erase _ _

theorem retire_rest (id : String) : (backend.retire id).pending = backend.pending ∧
    (backend.retire id).nextContext = backend.nextContext ∧
    (backend.retire id).contexts = backend.contexts := by
  unfold retire
  split <;> exact ⟨rfl, rfl, rfl⟩

theorem pending_split {context : Nat} (member : context ∈ backend.pending) (once : backend.pending.Nodup) :
    backend.pending.Perm
      (context :: backend.pending.filter fun other => some other ≠ some context) := by
  have rest : (backend.pending.filter fun other => some other ≠ some context) =
      backend.pending.erase context := by
    rw [once.erase_eq_filter]
    refine List.filter_congr fun other _ => ?_
    by_cases same : other = context <;> simp [same]
  rw [rest]
  exact List.perm_cons_erase member

/-- What becomes of the owned contexts when the answer to a request is handled: a context that libtorrent
took stays pending or becomes the active one of its torrent, another one stays pending or is dropped. -/
structure Answered (taken : Prop) (context : Nat) (before after : BackendState) : Prop where
  pending : after.pending = before.pending ∨
    after.pending = before.pending.filter fun other => some other ≠ some context
  adopted : taken → context ∈ before.pending → after.owners.Perm before.owners
  dropped : ¬ taken → after.active = before.active ∧ after.retired = before.retired
  nextContext : after.nextContext = before.nextContext
  torrentId : ∀ other ≠ context,
    (after.contexts other).torrentId = (before.contexts other).torrentId

theorem adopt_answered (id : String) (handle : Nat) {context : Nat} (once : backend.pending.Nodup) :
    Answered (answers.userdata handle = some context) context backend
      (backend.adopt answers id handle (some context)) := by
  have named : ∀ other ≠ context,
      ((backend.setContext context fun request => { request with torrentId := id }).contexts
        other).torrentId = (backend.contexts other).torrentId := by
    intro other different
    simp [setContext, different]
  unfold adopt
  dsimp -zeta only
  extract_lets named' retired
  split
  · rename_i taken
    obtain ⟨kept, next, contexts⟩ := retire_rest named' id
    refine ⟨.inr (congrArg _ kept), fun _ member => ?_, fun lost => absurd taken.2 lost, next, ?_⟩
    · have inserted : (retired.active.insert id context).values = context :: retired.active.values :=
        AList.values_insert (retire_absent named' id) context
      have same : retired.pending = backend.pending := kept
      have split := (pending_split backend member once).append_right
        (retired.active.values ++ retired.retired)
      have retirement : retired.owners.Perm named'.owners := retire_owners named' id
      simp only [owners, same] at retirement
      simp only [owners, dropPending, inserted, same]
      exact (List.perm_middle.trans split.symm).trans retirement
    · intro other different
      rw [← named other different]
      exact congrArg (fun all => (all other).torrentId) contexts
  · rename_i free
    exact ⟨.inl rfl, fun here member => absurd ⟨member, here⟩ free, fun _ => ⟨rfl, rfl⟩, rfl, named⟩

variable {backend} in
theorem Answered.custody {taken : Prop} {context : Nat} {next after : BackendState}
    (answered : Answered taken context backend next) (custody : Custody next after) :
    Answered taken context backend after where
  pending := custody.pending ▸ answered.pending
  adopted := fun here member => custody.owners ▸ answered.adopted here member
  dropped := fun lost => by
    rw [custody.active, custody.retired]
    exact answered.dropped lost
  nextContext := custody.nextContext.trans answered.nextContext
  torrentId := fun other different =>
    (custody.torrentId other).trans (answered.torrentId other different)

variable {backend} in
theorem Answered.drop {taken : Prop} {context : Nat} {after : BackendState}
    (answered : Answered taken context backend after)
    (emptied : taken → context ∈ backend.pending → context ∉ after.pending) :
    Answered taken context backend (after.dropPending (some context)) where
  pending := by
    right
    rcases answered.pending with same | less
    · exact congrArg _ same
    · simp only [dropPending, less, List.filter_filter, Bool.and_self]
  adopted := by
    intro here member
    have same : (after.dropPending (some context)).pending = after.pending := by
      refine List.filter_eq_self.mpr fun other there => ?_
      have different : other ≠ context := by
        rintro rfl
        exact emptied here member there
      simpa using different
    have owners : (after.dropPending (some context)).owners = after.owners :=
      congrArg (· ++ (after.active.values ++ after.retired)) same
    exact owners ▸ answered.adopted here member
  dropped := answered.dropped
  nextContext := answered.nextContext
  torrentId := answered.torrentId

theorem adopt_empties (id : String) {handle context : Nat} (here : answers.userdata handle = some context)
    (member : context ∈ backend.pending) :
    context ∉ (backend.adopt answers id handle (some context)).pending := by
  unfold adopt
  dsimp -zeta only
  extract_lets named retired
  rw [if_pos ⟨member, here⟩]
  simp [dropPending]

variable {backend} in
theorem Custody.answered {taken : Prop} {context : Nat} {next after : BackendState}
    (custody : Custody backend next) (answered : Answered taken context next after) :
    Answered taken context backend after where
  pending := custody.pending ▸ answered.pending
  adopted := fun here member =>
    custody.owners ▸ answered.adopted here (custody.pending.symm ▸ member)
  dropped := fun lost => by
    rw [← custody.active, ← custody.retired]
    exact answered.dropped lost
  nextContext := answered.nextContext.trans custody.nextContext
  torrentId := fun other different =>
    (answered.torrentId other different).trans (custody.torrentId other)

theorem handleAdded_answered {context : Nat} (handle : Nat) (once : backend.pending.Nodup) :
    Answered (answers.userdata handle = some context) context backend
      (backend.handleAdded answers (some context) handle none).1 := by
  unfold handleAdded
  dsimp -zeta only
  extract_lets requestId id known
  have knows : Custody backend known := ⟨rfl, rfl, rfl, rfl, fun _ => rfl⟩
  split
  · exact ⟨.inl rfl, fun _ _ => .refl _, fun _ => ⟨rfl, rfl⟩, rfl, fun _ _ => rfl⟩
  · rename_i announced result
    obtain rfl := announceAdded_eq_ok result
    extract_lets adopted told
    have adopting : Answered (answers.userdata handle = some context) context backend adopted :=
      knows.answered (adopt_answered known answers id handle once)
    have telling : Custody adopted told := .ofIncidental (emit_incidental _ _)
    have announcing := telling.trans (announce_custody told answers handle (some context))
    split
    · rename_i stopped thrown result
      rw [result] at announcing
      exact adopting.custody announcing
    · rename_i finished result
      rw [result] at announcing
      refine (adopting.custody announcing).drop fun here member => ?_
      rw [announcing.pending]
      exact adopt_empties known answers id here member

variable {backend} in
theorem Answered.sublist {taken : Prop} {context : Nat} {after : BackendState}
    (answered : Answered taken context backend after) (lost : ¬ taken) :
    after.owners.Sublist backend.owners := by
  obtain ⟨active, retired⟩ := answered.dropped lost
  rw [owners, owners, active, retired]
  refine List.Sublist.append_right ?_ _
  rcases answered.pending with same | less
  · exact same ▸ .refl _
  · exact less ▸ List.filter_sublist

variable {backend} in
theorem Answered.mem_pending {taken : Prop} {context other : Nat} {after : BackendState}
    (answered : Answered taken context backend after) (member : other ∈ backend.pending)
    (different : other ≠ context) : other ∈ after.pending := by
  rcases answered.pending with same | less
  · exact same ▸ member
  · exact less ▸ List.mem_filter.mpr ⟨member, by simpa using different⟩

variable {backend} in
theorem Answered.mem_owners {taken : Prop} {context other : Nat} {after : BackendState}
    (answered : Answered taken context backend after) (pending : context ∈ backend.pending)
    (member : other ∈ backend.owners) (kept : other = context → taken) : other ∈ after.owners := by
  by_cases here : taken
  · exact (answered.adopted here pending).mem_iff.mpr member
  · have different : other ≠ context := fun same => here (kept same)
    obtain ⟨active, retired⟩ := answered.dropped here
    rcases List.mem_append.mp member with before | rest
    · exact List.mem_append_left _ (answered.mem_pending before different)
    · refine List.mem_append_right _ ?_
      rw [active, retired]
      exact rest

/-- Contexts move only from the active ones to the retired ones. -/
structure Retires (before after : BackendState) : Prop where
  owners : after.owners.Perm before.owners
  pending : after.pending = before.pending
  nextContext : after.nextContext = before.nextContext
  torrentId : ∀ context, (after.contexts context).torrentId = (before.contexts context).torrentId

theorem Custody.retires {first second : BackendState} (custody : Custody first second) :
    Retires first second :=
  ⟨custody.owners ▸ .refl _, custody.pending, custody.nextContext, custody.torrentId⟩

theorem Retires.trans {first second third : BackendState} (left : Retires first second)
    (right : Retires second third) : Retires first third where
  owners := right.owners.trans left.owners
  pending := right.pending.trans left.pending
  nextContext := right.nextContext.trans left.nextContext
  torrentId := fun context => (right.torrentId context).trans (left.torrentId context)

theorem retire_retires (id : String) : Retires backend (backend.retire id) := by
  obtain ⟨pending, next, contexts⟩ := retire_rest backend id
  exact ⟨retire_owners backend id, pending, next, fun context => by rw [contexts]⟩

/-- When a torrent is gone its context stays owned, whoever still points to it. -/
theorem handleRemoved_retires (context : Option Nat) (hashId : String) :
    Retires backend (backend.handleRemoved answers context hashId) := by
  unfold handleRemoved
  extract_lets id requestId cacheRemoval told forgotten unprepared erased retired
  have telling : Custody backend told := .ofIncidental (emit_incidental _ _)
  have forgetting : Custody told forgotten := ⟨rfl, rfl, rfl, rfl, fun _ => rfl⟩
  have leaving : Custody forgotten unprepared :=
    .trans (.ofRecalls (.trans (work_recalls _ _) (dropPrepare_recalls _ id)))
      (.ofIncidental (forgetResumeSave_incidental _ context))
  have erasing : Custody unprepared erased := by
    unfold erased
    split
    · exact .refl _
    · exact .ofIncidental (eraseResume_incidental _ answers id (emit_incidental _) requestId)
  have retiring := ((telling.trans forgetting).trans (leaving.trans erasing)).retires.trans
    (retire_retires erased id)
  split
  · exact retiring.trans (Custody.ofIncidental (.bookkeeping rfl)).retires
  · exact retiring.trans (Custody.ofIncidental (enforceDiskCache_incidental retired answers)).retires

end BackendState

end NuvioEngine.Backend
