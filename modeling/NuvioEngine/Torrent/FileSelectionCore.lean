import Mathlib.Data.List.Basic

/-!
Executable embedding of `file_selection.cpp`. Paths and hints are byte strings, and `tolower` is the
one of the C locale.
-/

namespace NuvioEngine.Torrent

structure TorrentFile where
  path : List UInt8
  size : Nat

inductive SelectionReason where
  | requestedIndex
  | exactPath
  | exactFilename
  | largestPlayableFile
  | largestFile
  | noFiles
  deriving DecidableEq, Repr

structure FileSelection where
  index : Option Nat
  reason : SelectionReason
  deriving DecidableEq, Repr

def playableExtensions : List (List UInt8) :=
  [".aac", ".avi", ".flac", ".flv", ".m3u8", ".m4v", ".mkv", ".mov", ".mp3", ".mp4", ".mpeg", ".mpg",
    ".ogg", ".ts", ".vp8", ".wav", ".webm", ".wmv", ".wma"].map fun extension => extension.toUTF8.toList

def lowercase (value : List UInt8) : List UInt8 :=
  value.map fun character => if 65 ≤ character ∧ character ≤ 90 then character + 32 else character

/-- What follows the last slash or backslash. -/
def basename (path : List UInt8) : List UInt8 :=
  (path.reverse.takeWhile fun character => character ≠ 47 ∧ character ≠ 92).reverse

def isPlayableMediaPath (path : List UInt8) : Bool :=
  playableExtensions.any fun extension => extension.isSuffixOf (lowercase path)

/-- The loop of `largest_file` from an index on; `selected` is the best file so far. -/
def largestFileFrom (playableOnly : Bool) :
    List TorrentFile → Nat → Option (Nat × Nat) → Option (Nat × Nat)
  | [], _, selected => selected
  | file :: rest, index, selected =>
      if playableOnly ∧ !isPlayableMediaPath file.path then
        largestFileFrom playableOnly rest (index + 1) selected
      else if selected.all fun best => file.size > best.2 then
        largestFileFrom playableOnly rest (index + 1) (some (index, file.size))
      else largestFileFrom playableOnly rest (index + 1) selected

def largestFile (files : List TorrentFile) (playableOnly : Bool) : Option Nat :=
  (largestFileFrom playableOnly files 0 none).map Prod.fst

def selectFile (files : List TorrentFile) (requestedIndex : Option Nat)
    (pathOrFilenameHint : List UInt8) : FileSelection :=
  if files.isEmpty then ⟨none, .noFiles⟩
  else
    let normalizedHint := lowercase pathOrFilenameHint
    let hinted := if pathOrFilenameHint.isEmpty then none
      else
        match files.findIdx? fun file => lowercase file.path = normalizedHint with
        | some index => some ⟨some index, .exactPath⟩
        | none =>
            (files.findIdx? fun file => lowercase (basename file.path) = normalizedHint).map
              fun index => ⟨some index, .exactFilename⟩
    match hinted with
    | some selection => selection
    | none =>
        match requestedIndex.filter fun index => index < files.length with
        | some index => ⟨some index, .requestedIndex⟩
        | none =>
            match largestFile files true with
            | some index => ⟨some index, .largestPlayableFile⟩
            | none => ⟨largestFile files false, .largestFile⟩

end NuvioEngine.Torrent
