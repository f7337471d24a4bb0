import NuvioEngine.Lib.Traced
import Mathlib.Algebra.Ring.Nat
import Mathlib.Data.List.DropRight
import Mathlib.Logic.Function.Basic

/-!
Executable embedding of the POSIX branch of `atomic_file.cpp`. A system call changes the files of the
world as its outcome says; the outcomes of one call of `write_file_atomically` are an argument of the
model. The world also remembers which calls have been made.
-/

namespace NuvioEngine.Storage

open Traced

abbrev Bytes := List UInt8

abbrev Path := List Char

/-- What a name stands for. -/
inductive Entry where
  | absent
  | regular (inode : Nat)
  | other
  deriving DecidableEq, Repr

/-- What is found under a name. -/
inductive Content where
  | absent
  | file (contents : Bytes)
  | other
  deriving DecidableEq, Repr

/-- Names, the contents of the files, and the number the next file gets, which no name has yet. -/
structure FileSystem where
  entries : Path → Entry
  contents : Nat → Bytes
  next : Nat
  fresh : ∀ path inode, entries path = .regular inode → inode < next

namespace FileSystem

def contentAt (files : FileSystem) (path : Path) : Content :=
  match files.entries path with
  | .absent => .absent
  | .regular inode => .file (files.contents inode)
  | .other => .other

def unlink (files : FileSystem) (path : Path) : FileSystem where
  entries := Function.update files.entries path .absent
  contents := files.contents
  next := files.next
  fresh := by
    intro other inode same
    by_cases here : other = path
    · simp [here] at same
    · rw [Function.update_of_ne here] at same
      exact files.fresh other inode same

def create (files : FileSystem) (path : Path) : FileSystem where
  entries := Function.update files.entries path (.regular files.next)
  contents := Function.update files.contents files.next []
  next := files.next + 1
  fresh := by
    intro other inode same
    by_cases here : other = path
    · rw [here, Function.update_self] at same
      rw [← Entry.regular.inj same]
      exact Nat.lt_succ_self _
    · rw [Function.update_of_ne here] at same
      exact Nat.lt_succ_of_lt (files.fresh other inode same)

def append (files : FileSystem) (inode : Nat) (written : Bytes) : FileSystem :=
  { files with contents := Function.update files.contents inode (files.contents inode ++ written) }

def rename (files : FileSystem) (source destination : Path) : FileSystem where
  entries := Function.update (Function.update files.entries destination (files.entries source)) source .absent
  contents := files.contents
  next := files.next
  fresh := by
    intro other inode same
    by_cases gone : other = source
    · simp [gone] at same
    · rw [Function.update_of_ne gone] at same
      by_cases moved : other = destination
      · rw [moved, Function.update_self] at same
        exact files.fresh source inode same
      · rw [Function.update_of_ne moved] at same
        exact files.fresh other inode same

end FileSystem

inductive SystemCall where
  | createDirectories
  | remove
  | openFile
  | write
  | fsync
  | close
  | rename
  | openDirectory
  | fsyncDirectory
  | closeDirectory
  deriving DecidableEq, Repr

/-- The files, and the calls so far with whether they succeeded. -/
structure World where
  files : FileSystem
  calls : List (SystemCall × Bool)

inductive FileError where
  | invalidArgument (message : String)
  | system (operation : String)
  | runtime (message : String)
  deriving DecidableEq, Repr

/-- What one call of `write` answers; it takes at most what it is given. -/
inductive WriteOutcome where
  | interrupted
  | failed
  | wrote (count : Nat)
  deriving DecidableEq, Repr

/-- Whether each call succeeds, and what the calls of `write` answer one after the other. -/
structure Outcomes where
  createDirectories : Bool
  removeBefore : Bool
  openFile : Bool
  writes : List WriteOutcome
  fsync : Bool
  closeFailed : Bool
  close : Bool
  rename : Bool
  openDirectory : Bool
  fsyncDirectory : Bool
  closeDirectory : Bool
  removeAfter : Bool

abbrev Io := Act World FileError

/-- A system call with its outcome. -/
def perform (call : SystemCall) (succeeds : Bool) (effect : FileSystem → FileSystem) : Io Unit :=
  Act.step
    (fun world => ⟨if succeeds then effect world.files else world.files, world.calls ++ [(call, succeeds)]⟩)
    (fun _ => ())

/-- A system call whose failure is thrown. -/
def check (call : SystemCall) (succeeds : Bool) (effect : FileSystem → FileSystem) (operation : String) :
    Io Unit := do
  perform call succeeds effect
  if succeeds then pure () else throw (.system operation)

def temporaryPath (path : Path) : Path := path ++ ['.', 't', 'm', 'p']

def filename (path : Path) : Path := path.rtakeWhile (· ≠ '/')

def parentPath (path : Path) : Path :=
  let front := path.rdropWhile (· ≠ '/')
  let trimmed := front.rdropWhile (· = '/')
  if trimmed.isEmpty then front.take 1 else trimmed

/-- The loop of `write_all`, over the outcomes that are left. -/
def writeAll (inode : Nat) (contents : Bytes) : List WriteOutcome → Nat → Io Unit
  | outcomes, offset =>
      if offset < contents.length then
        match outcomes with
        | [] => Act.wait
        | .interrupted :: rest => do
            perform .write false id
            writeAll inode contents rest offset
        | .failed :: _ => check .write false id "write state file"
        | .wrote count :: rest => do
            let result := min count (contents.length - offset)
            perform .write true (·.append inode ((contents.drop offset).take result))
            if result = 0 then throw (.runtime "state file write made no progress")
            else writeAll inode contents rest (offset + result)
      else pure ()

def syncParentDirectory (outcomes : Outcomes) : Io Unit := do
  check .openDirectory outcomes.openDirectory id "open state directory"
  tryCatch (check .fsyncDirectory outcomes.fsyncDirectory id "flush state directory")
    (fun error => do
      perform .closeDirectory outcomes.closeDirectory id
      throw error)
  check .closeDirectory outcomes.closeDirectory id "close state directory"

/-- `open` with `O_CREAT | O_EXCL`: an entry of that name makes it fail. The file descriptor is the
number of the new file. -/
def openExclusive (path : Path) (outcome : Bool) : Io (Option Nat) :=
  Act.step
    (fun world =>
      if outcome && world.files.entries path = .absent then
        ⟨world.files.create path, world.calls ++ [(.openFile, true)]⟩
      else ⟨world.files, world.calls ++ [(.openFile, false)]⟩)
    (fun world => if outcome && world.files.entries path = .absent then some world.files.next else none)

def openTemporary (path : Path) (outcome : Bool) : Io Nat := do
  match ← openExclusive path outcome with
  | some file => pure file
  | none => throw (.system "create state file")

def commitFile (outcomes : Outcomes) (temporary destination : Path) (contents : Bytes) : Io Unit := do
  let file ← openTemporary temporary outcomes.openFile
  tryCatch
    (do
      writeAll file contents outcomes.writes 0
      check .fsync outcomes.fsync id "flush state file")
    (fun error => do
      perform .close outcomes.closeFailed id
      throw error)
  check .close outcomes.close id "close state file"
  check .rename outcomes.rename (·.rename temporary destination) "replace state file"
  syncParentDirectory outcomes

def createParent (outcomes : Outcomes) (path : Path) : Io Unit :=
  if (parentPath path).isEmpty then pure ()
  else check .createDirectories outcomes.createDirectories id "create directories"

def writeFileAtomically (outcomes : Outcomes) (path : Path) (contents : Bytes) : Io Unit :=
  if path.isEmpty || (filename path).isEmpty then
    throw (.invalidArgument "state file path must include a filename")
  else do
    createParent outcomes path
    let temporary := temporaryPath path
    perform .remove outcomes.removeBefore (·.unlink temporary)
    tryCatch (commitFile outcomes temporary path contents)
      (fun error => do
        perform .remove outcomes.removeAfter (·.unlink temporary)
        throw error)

/-- Whether the calls of one read succeed. -/
structure ReadOutcomes where
  status : Bool
  fileSize : Bool
  openStream : Bool

/-- The largest value of `std::streamsize`. -/
def streamsizeMax : Nat := 2 ^ 63 - 1

/-- A read of files that nobody else changes meanwhile, so that `gcount` and `peek` find what
`file_size` has announced. -/
def readBoundedFile (outcomes : ReadOutcomes) (files : FileSystem) (path : Path) (maximumSize : Nat) :
    Except FileError (Option Bytes) :=
  match files.entries path with
  | .absent => .ok none
  | entry =>
      if !outcomes.status then .error (.system "inspect state file")
      else
        match entry with
        | .regular inode =>
            let size := (files.contents inode).length
            if !outcomes.fileSize then .error (.system "inspect state file")
            else if size > maximumSize then .error (.runtime "state file exceeds configured size limit")
            else if size > streamsizeMax then .error (.runtime "state file exceeds stream size limit")
            else if !outcomes.openStream then .error (.runtime "open state file for reading failed")
            else .ok (some ((files.contents inode).take size))
        | _ => .error (.runtime "state file is not a regular file")

end NuvioEngine.Storage
