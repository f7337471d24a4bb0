import NuvioEngine.Storage.AtomicFileCore

/-! State files are replaced all or nothing, whatever the system calls answer. -/

namespace NuvioEngine.Storage

open Traced

/-- The rename has succeeded. -/
def World.Renamed (world : World) : Prop := (.rename, true) ∈ world.calls

theorem temporaryPath_ne (path : Path) : temporaryPath path ≠ path := by
  intro same
  have length := congrArg List.length same
  simp [temporaryPath] at length

section Files

variable {files : FileSystem} {path other : Path} {inode : Nat}

theorem contentAt_of_entries {changed : FileSystem} (entry : changed.entries path = files.entries path)
    (contents : ∀ number, files.entries path = .regular number →
      changed.contents number = files.contents number) :
    changed.contentAt path = files.contentAt path := by
  unfold FileSystem.contentAt
  rw [entry]
  cases given : files.entries path with
  | absent => rfl
  | regular number => simp only [contents number given]
  | other => rfl

theorem contentAt_unlink (apart : path ≠ other) :
    (files.unlink other).contentAt path = files.contentAt path :=
  contentAt_of_entries (Function.update_of_ne apart _ _) fun _ _ => rfl

theorem contentAt_create (apart : path ≠ other) :
    (files.create other).contentAt path = files.contentAt path := by
  refine contentAt_of_entries (Function.update_of_ne apart _ _) fun number given => ?_
  have below := files.fresh path number given
  exact Function.update_of_ne (by omega) _ _

theorem contentAt_append (apart : files.entries path ≠ .regular inode) (written : Bytes) :
    (files.append inode written).contentAt path = files.contentAt path := by
  refine contentAt_of_entries rfl fun number given => ?_
  refine Function.update_of_ne ?_ _ _
  rintro rfl
  exact apart given

theorem contentAt_rename (apart : path ≠ other) (given : files.entries other = .regular inode) :
    (files.rename other path).contentAt path = .file (files.contents inode) := by
  have entry : (files.rename other path).entries path = .regular inode := by
    simp [FileSystem.rename, Function.update_of_ne apart, given]
  unfold FileSystem.contentAt
  rw [entry]
  rfl

end Files

section Replacing

variable (path : Path) (old : Content) (contents : Bytes)

/-- The destination is still as it was. -/
structure Untouched (world : World) : Prop where
  early : ¬ world.Renamed
  content : world.files.contentAt path = old

/-- The new file is in place, and the temporary one is gone. -/
structure Replaced (world : World) : Prop where
  late : world.Renamed
  content : world.files.contentAt path = .file contents
  gone : world.files.entries (temporaryPath path) = .absent

/-- At every moment one of the two holds. -/
def Atomic (world : World) : Prop := Untouched path old world ∨ Replaced path contents world

/-- A part of the new contents stands in the temporary file, which is not the old file. -/
structure Writing (file offset : Nat) (world : World) : Prop extends Untouched path old world where
  entry : world.files.entries (temporaryPath path) = .regular file
  written : world.files.contents file = contents.take offset
  apart : world.files.entries path ≠ .regular file

variable {path old contents} {call : SystemCall} {succeeds : Bool} {world : World}

theorem not_renamed_log (early : ¬ world.Renamed) (quiet : (call, succeeds) ≠ (.rename, true))
    (files : FileSystem) : ¬ World.Renamed ⟨files, world.calls ++ [(call, succeeds)]⟩ := by
  intro renamed
  rcases List.mem_append.mp renamed with before | last
  · exact early before
  · exact quiet (List.mem_singleton.mp last).symm

theorem Untouched.log (untouched : Untouched path old world) (quiet : (call, succeeds) ≠ (.rename, true)) :
    Untouched path old ⟨world.files, world.calls ++ [(call, succeeds)]⟩ :=
  ⟨not_renamed_log untouched.early quiet _, untouched.content⟩

theorem Writing.log {file offset : Nat} (writing : Writing path old contents file offset world)
    (quiet : (call, succeeds) ≠ (.rename, true)) :
    Writing path old contents file offset ⟨world.files, world.calls ++ [(call, succeeds)]⟩ :=
  ⟨writing.toUntouched.log quiet, writing.entry, writing.written, writing.apart⟩

theorem Replaced.log (replaced : Replaced path contents world) :
    Replaced path contents ⟨world.files, world.calls ++ [(call, succeeds)]⟩ :=
  ⟨List.mem_append_left _ replaced.late, replaced.content, replaced.gone⟩

theorem Untouched.remove (untouched : Untouched path old world) :
    Untouched path old ⟨if succeeds then world.files.unlink (temporaryPath path) else world.files,
      world.calls ++ [(.remove, succeeds)]⟩ := by
  refine ⟨not_renamed_log untouched.early (by simp) _, ?_⟩
  cases succeeds with
  | true => exact (contentAt_unlink (temporaryPath_ne path).symm).trans untouched.content
  | false => exact untouched.content

theorem Replaced.remove (replaced : Replaced path contents world) :
    Replaced path contents ⟨if succeeds then world.files.unlink (temporaryPath path) else world.files,
      world.calls ++ [(.remove, succeeds)]⟩ := by
  cases succeeds with
  | true =>
      refine ⟨List.mem_append_left _ replaced.late, ?_, ?_⟩
      · exact (contentAt_unlink (temporaryPath_ne path).symm).trans replaced.content
      · exact Function.update_self _ _ _
  | false => exact replaced.log

theorem Untouched.openFile (untouched : Untouched path old world) :
    Writing path old contents world.files.next 0
      ⟨world.files.create (temporaryPath path), world.calls ++ [(.openFile, true)]⟩ := by
  have apart := (temporaryPath_ne path).symm
  refine ⟨⟨not_renamed_log untouched.early (by simp) _, ?_⟩, ?_, ?_, ?_⟩
  · exact (contentAt_create apart).trans untouched.content
  · exact Function.update_self _ _ _
  · exact Function.update_self _ _ _
  · intro same
    rw [show (world.files.create (temporaryPath path)).entries path = world.files.entries path from
      Function.update_of_ne apart _ _] at same
    have below := world.files.fresh path _ same
    omega

theorem Writing.write {file offset : Nat} (writing : Writing path old contents file offset world)
    (result : Nat) :
    Writing path old contents file (offset + result)
      ⟨world.files.append file ((contents.drop offset).take result), world.calls ++ [(.write, true)]⟩ := by
  refine ⟨⟨not_renamed_log writing.early (by simp) _, ?_⟩, writing.entry, ?_, writing.apart⟩
  · exact (contentAt_append writing.apart _).trans writing.content
  · have updated : (world.files.append file ((contents.drop offset).take result)).contents file =
        world.files.contents file ++ (contents.drop offset).take result := Function.update_self _ _ _
    rw [updated, writing.written, ← List.take_add]

theorem Writing.rename {file offset : Nat} (writing : Writing path old contents file offset world)
    (whole : contents.length ≤ offset) :
    Replaced path contents
      ⟨world.files.rename (temporaryPath path) path, world.calls ++ [(.rename, true)]⟩ := by
  refine ⟨List.mem_append_right _ List.mem_cons_self, ?_, ?_⟩
  · rw [contentAt_rename (temporaryPath_ne path).symm writing.entry, writing.written,
      List.take_of_length_le whole]
  · exact Function.update_self _ _ _

/-- All of the new contents stand in the temporary file. -/
def Written (path : Path) (old : Content) (contents : Bytes) (file : Nat) (world : World) : Prop :=
  ∃ offset, contents.length ≤ offset ∧ Writing path old contents file offset world

theorem Written.untouched {file : Nat} (written : Written path old contents file world) :
    Untouched path old world := by
  obtain ⟨_, _, writing⟩ := written
  exact writing.toUntouched

theorem Written.log {file : Nat} (written : Written path old contents file world)
    (quiet : (call, succeeds) ≠ (.rename, true)) :
    Written path old contents file ⟨world.files, world.calls ++ [(call, succeeds)]⟩ := by
  obtain ⟨offset, whole, writing⟩ := written
  exact ⟨offset, whole, writing.log quiet⟩

theorem Written.rename {file : Nat} (written : Written path old contents file world) :
    Replaced path contents
      ⟨world.files.rename (temporaryPath path) path, world.calls ++ [(.rename, true)]⟩ := by
  obtain ⟨_, whole, writing⟩ := written
  exact writing.rename whole

theorem Atomic.log (atomic : Atomic path old contents world) (quiet : (call, succeeds) ≠ (.rename, true)) :
    Atomic path old contents ⟨world.files, world.calls ++ [(call, succeeds)]⟩ :=
  atomic.imp (fun untouched => untouched.log quiet) fun replaced => replaced.log

theorem Atomic.remove (atomic : Atomic path old contents world) :
    Atomic path old contents ⟨if succeeds then world.files.unlink (temporaryPath path) else world.files,
      world.calls ++ [(.remove, succeeds)]⟩ :=
  atomic.imp (fun untouched => untouched.remove) fun replaced => replaced.remove

end Replacing

section Programs

variable {path : Path} {old : Content} {contents : Bytes} {before after : World → Prop}
  {call : SystemCall} {succeeds : Bool}

/-- A run from one stage to another that keeps to the two states the destination may be in. -/
abbrev Runs (path : Path) (old : Content) (contents : Bytes) {α : Type} (before : World → Prop)
    (act : Io α) (after : α → World → Prop) : Prop :=
  Meets before act (Atomic path old contents) after fun _ => Atomic path old contents

theorem runs_perform {effect : FileSystem → FileSystem}
    (goes : ∀ world, before world → after
      ⟨if succeeds then effect world.files else world.files, world.calls ++ [(call, succeeds)]⟩)
    (keeps : ∀ world, after world → Atomic path old contents world) :
    Runs path old contents before (perform call succeeds effect) fun _ => after :=
  meets_step (fun world started => keeps _ (goes world started)) goes

theorem runs_check {effect : FileSystem → FileSystem} {operation : String}
    (succeeded : succeeds = true → ∀ world, before world → after
      ⟨effect world.files, world.calls ++ [(call, true)]⟩)
    (fails : ∀ world, before world → Atomic path old contents ⟨world.files, world.calls ++ [(call, false)]⟩)
    (keeps : ∀ world, after world → Atomic path old contents world) :
    Runs path old contents before (check call succeeds effect operation) fun _ => after := by
  unfold check
  cases succeeds with
  | true =>
      have called : Runs path old contents before (perform call true effect) fun _ => after :=
        runs_perform (succeeded rfl) keeps
      exact meets_bind called fun _ => meets_pure () fun _ holds => holds
  | false =>
      have called : Runs path old contents before (perform call false effect)
          fun _ => Atomic path old contents :=
        runs_perform fails fun _ atomic => atomic
      exact meets_bind called fun _ => meets_throw _ fun _ atomic => atomic

theorem runs_openTemporary (outcome : Bool) :
    Runs path old contents (Untouched path old) (openTemporary (temporaryPath path) outcome)
      fun file => Writing path old contents file 0 := by
  have opened : Runs path old contents (Untouched path old) (openExclusive (temporaryPath path) outcome)
      fun file world => (∀ number, file = some number → Writing path old contents number 0 world) ∧
        (file = none → Untouched path old world) := by
    refine meets_step (fun world untouched => ?_) fun world untouched => ?_
    · by_cases free : outcome && decide (world.files.entries (temporaryPath path) = .absent)
      · rw [if_pos free]
        exact .inl (@Untouched.openFile path old contents world untouched).toUntouched
      · rw [if_neg free]
        exact .inl (untouched.log (by simp))
    · by_cases free : outcome && decide (world.files.entries (temporaryPath path) = .absent)
      · rw [if_pos free, if_pos free]
        refine ⟨fun number same => ?_, by simp⟩
        rw [← Option.some.inj same]
        exact untouched.openFile
      · rw [if_neg free, if_neg free]
        exact ⟨by simp, fun _ => untouched.log (by simp)⟩
  refine meets_bind opened fun file => ?_
  cases file with
  | some file => exact meets_pure file fun world holds => holds.1 file rfl
  | none => exact meets_throw _ fun world holds => .inl (holds.2 rfl)

theorem runs_writeAll (file : Nat) (outcomes : List WriteOutcome) (offset : Nat) :
    Runs path old contents (Writing path old contents file offset)
      (writeAll file contents outcomes offset) fun _ => Written path old contents file := by
  induction outcomes generalizing offset with
  | nil =>
      unfold writeAll
      by_cases more : offset < contents.length
      · rw [if_pos more]
        exact meets_wait
      · rw [if_neg more]
        exact meets_pure () fun world writing => ⟨offset, Nat.not_lt.mp more, writing⟩
  | cons outcome rest ih =>
      unfold writeAll
      by_cases more : offset < contents.length
      · rw [if_pos more]
        cases outcome with
        | interrupted =>
            have again : Runs path old contents (Writing path old contents file offset)
                (perform .write false id) fun _ => Writing path old contents file offset :=
              runs_perform (fun world writing => writing.log (by simp))
                fun world writing => .inl writing.toUntouched
            exact meets_bind again fun _ => ih offset
        | failed =>
            exact runs_check (by simp) (fun world writing => .inl (writing.toUntouched.log (by simp)))
              fun world written => .inl written.untouched
        | wrote count =>
            have wrote : Runs path old contents (Writing path old contents file offset)
                (perform .write true
                  (·.append file ((contents.drop offset).take (min count (contents.length - offset)))))
                fun _ => Writing path old contents file (offset + min count (contents.length - offset)) :=
              runs_perform (fun world writing => writing.write _)
                fun world writing => .inl writing.toUntouched
            refine meets_bind wrote fun _ => ?_
            by_cases stuck : min count (contents.length - offset) = 0
            · rw [if_pos stuck]
              exact meets_throw _ fun world writing => .inl writing.toUntouched
            · rw [if_neg stuck]
              exact ih _
      · rw [if_neg more]
        exact meets_pure () fun world writing => ⟨offset, Nat.not_lt.mp more, writing⟩

theorem runs_rethrow {α : Type} {effect : FileSystem → FileSystem} (error : FileError)
    (goes : ∀ world, Atomic path old contents world → Atomic path old contents
      ⟨if succeeds then effect world.files else world.files, world.calls ++ [(call, succeeds)]⟩)
    (later : α → World → Prop) :
    Runs path old contents (Atomic path old contents)
      (do perform call succeeds effect; throw error) later := by
  have called : Runs path old contents (Atomic path old contents) (perform call succeeds effect)
      fun _ => Atomic path old contents :=
    runs_perform goes fun _ atomic => atomic
  exact meets_bind called fun _ => meets_throw error fun _ atomic => atomic

theorem atomic_quiet (quiet : (call, succeeds) ≠ (.rename, true)) (world : World)
    (atomic : Atomic path old contents world) : Atomic path old contents
      ⟨if succeeds then id world.files else world.files, world.calls ++ [(call, succeeds)]⟩ := by
  rw [id, ite_self]
  exact atomic.log quiet

theorem runs_syncParentDirectory (outcomes : Outcomes) :
    Runs path old contents (Replaced path contents) (syncParentDirectory outcomes)
      fun _ => Replaced path contents := by
  have keeps : ∀ world, Replaced path contents world → Atomic path old contents world :=
    fun world replaced => .inr replaced
  unfold syncParentDirectory
  refine meets_bind (runs_check (fun _ world replaced => replaced.log)
    (fun world replaced => .inr replaced.log) keeps) fun _ => ?_
  refine meets_bind (meets_catch (runs_check (fun _ world replaced => replaced.log)
    (fun world replaced => .inr replaced.log) keeps) fun error => ?_) fun _ => ?_
  · exact runs_rethrow error (atomic_quiet (by simp)) _
  · exact runs_check (fun _ world replaced => replaced.log) (fun world replaced => .inr replaced.log) keeps

theorem runs_commitFile (outcomes : Outcomes) :
    Runs path old contents (Untouched path old)
      (commitFile outcomes (temporaryPath path) path contents) fun _ => Replaced path contents := by
  unfold commitFile
  refine meets_bind (runs_openTemporary outcomes.openFile) fun file => ?_
  have keeps : ∀ world, Written path old contents file world → Atomic path old contents world :=
    fun world written => .inl written.untouched
  have quiet : ∀ call, call ≠ .rename → ∀ world, Written path old contents file world →
      Atomic path old contents ⟨world.files, world.calls ++ [(call, false)]⟩ :=
    fun call other world written => .inl (written.untouched.log (by simp))
  have synced : Runs path old contents (Writing path old contents file 0)
      (do writeAll file contents outcomes.writes 0
          check .fsync outcomes.fsync id "flush state file") fun _ => Written path old contents file :=
    meets_bind (runs_writeAll file outcomes.writes 0) fun _ =>
      runs_check (fun _ world written => written.log (by simp)) (quiet .fsync (by simp)) keeps
  refine meets_bind (meets_catch synced fun error => ?_) fun _ => ?_
  · exact runs_rethrow error (atomic_quiet (by simp)) _
  refine meets_bind (runs_check (fun _ world written => written.log (by simp))
    (quiet .close (by simp)) keeps) fun _ => ?_
  refine meets_bind (runs_check (fun _ world written => written.rename)
    (fun world written => .inl (written.untouched.log (by simp))) fun world replaced => .inr replaced)
    fun _ => ?_
  exact runs_syncParentDirectory outcomes

theorem runs_writeFileAtomically (outcomes : Outcomes) :
    Runs path old contents (Untouched path old) (writeFileAtomically outcomes path contents)
      fun _ => Replaced path contents := by
  unfold writeFileAtomically
  split
  · exact meets_throw _ fun world untouched => .inl untouched
  · have keeps : ∀ world, Untouched path old world → Atomic path old contents world :=
      fun world untouched => .inl untouched
    have created : Runs path old contents (Untouched path old) (createParent outcomes path)
        fun _ => Untouched path old := by
      unfold createParent
      split
      · exact meets_pure () fun world untouched => untouched
      · exact runs_check (fun _ world untouched => untouched.log (by simp))
          (fun world untouched => .inl (untouched.log (by simp))) keeps
    refine meets_bind created fun _ => ?_
    refine meets_bind (runs_perform (fun world untouched => untouched.remove) keeps) fun _ => ?_
    exact meets_catch (runs_commitFile outcomes) fun error =>
      runs_rethrow error (fun world atomic => atomic.remove) _

end Programs

theorem Atomic.content {path : Path} {old : Content} {contents : Bytes} {world : World}
    (atomic : Atomic path old contents world) :
    world.files.contentAt path = old ∨ world.files.contentAt path = .file contents :=
  atomic.imp Untouched.content Replaced.content

theorem entries_of_contentAt {files : FileSystem} {path : Path} {contents : Bytes}
    (content : files.contentAt path = .file contents) :
    ∃ inode, files.entries path = .regular inode ∧ files.contents inode = contents := by
  unfold FileSystem.contentAt at content
  cases entry : files.entries path with
  | absent => simp [entry] at content
  | regular inode =>
      simp only [entry, Content.file.injEq] at content
      exact ⟨inode, rfl, content⟩
  | other => simp [entry] at content

section Reading

variable {files : FileSystem} {path : Path} {contents : Bytes} {maximumSize : Nat}
  (content : files.contentAt path = .file contents)
include content

theorem readBoundedFile_ok (representable : contents.length ≤ streamsizeMax)
    (fits : contents.length ≤ maximumSize) :
    readBoundedFile ⟨true, true, true⟩ files path maximumSize = .ok (some contents) := by
  obtain ⟨inode, entry, same⟩ := entries_of_contentAt content
  simp [readBoundedFile, entry, same, Nat.not_lt.mpr fits, Nat.not_lt.mpr representable]

theorem readBoundedFile_error (outcomes : ReadOutcomes) (large : maximumSize < contents.length) :
    ∃ error, readBoundedFile outcomes files path maximumSize = .error error := by
  obtain ⟨inode, entry, same⟩ := entries_of_contentAt content
  simp only [readBoundedFile, entry, same, gt_iff_lt, large, if_true]
  split_ifs <;> exact ⟨_, rfl⟩

end Reading

/-- A directory with one state file. -/
def oneFile : FileSystem where
  entries := fun path => if path = ['s'] then .regular 0 else .absent
  contents := fun _ => [1]
  next := 1
  fresh := by
    intro path inode same
    split at same
    · rw [← Entry.regular.inj same]
      exact Nat.zero_lt_one
    · simp at same

/-- A write that is interrupted once and then takes the bytes one by one. -/
def slowWrites : Outcomes where
  createDirectories := true
  removeBefore := true
  openFile := true
  writes := [.interrupted, .wrote 1, .wrote 1]
  fsync := true
  closeFailed := true
  close := true
  rename := true
  openDirectory := true
  fsyncDirectory := true
  closeDirectory := true
  removeAfter := true

end NuvioEngine.Storage
