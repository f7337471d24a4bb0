import NuvioEngine.Torrent.FileSelectionCore
import Mathlib.Data.List.Forall2
import Mathlib.Data.List.TakeWhile
import Mathlib.Tactic.Tauto

/-!
Which file of a torrent is selected: a hinted one first, then the requested one, then the largest one
that can be played, then the largest one. Each scan of the source is the first or the largest match.
-/

namespace NuvioEngine.Torrent

def isUppercase (character : UInt8) : Prop := 65 ≤ character ∧ character ≤ 90

/-- The characters are the same up to the case of ASCII letters. -/
def SameLetter (left right : UInt8) : Prop :=
  left = right ∨ (isUppercase left ∧ right = left + 32) ∨ (isUppercase right ∧ left = right + 32)

def SameIgnoringCase (left right : List UInt8) : Prop := List.Forall₂ SameLetter left right

def isSeparator (character : UInt8) : Prop := character = 47 ∨ character = 92

/-- The name is what follows the last separator of the path, or all of it. -/
def LastComponent (path name : List UInt8) : Prop :=
  (∀ character ∈ name, ¬ isSeparator character) ∧
    (path = name ∨ ∃ directory separator, isSeparator separator ∧
      path = directory ++ [separator] ++ name)

/-- The path ends in a playable extension. -/
def Playable (file : TorrentFile) : Prop :=
  ∃ extension ∈ playableExtensions, ∃ stem ending, file.path = stem ++ ending ∧
    SameIgnoringCase ending extension

/-- The file at the index is the first of its kind. -/
def FirstWith (kind : TorrentFile → Prop) (files : List TorrentFile) (index : Nat) : Prop :=
  ∃ file, files[index]? = some file ∧ kind file ∧
    ∀ (earlier : Nat) (other : TorrentFile), files[earlier]? = some other → kind other → index ≤ earlier

/-- The file at the index has the maximal size of its kind, and the lowest index among equals. -/
def LargestWith (kind : TorrentFile → Prop) (files : List TorrentFile) (index : Nat) : Prop :=
  ∃ file, files[index]? = some file ∧ kind file ∧
    ∀ (place : Nat) (other : TorrentFile), files[place]? = some other → kind other →
      other.size ≤ file.size ∧ (other.size = file.size → index ≤ place)

def NoneWith (kind : TorrentFile → Prop) (files : List TorrentFile) : Prop :=
  ∀ file ∈ files, ¬ kind file

def NamedPath (hint : List UInt8) (file : TorrentFile) : Prop := SameIgnoringCase file.path hint

def NamedFile (hint : List UInt8) (file : TorrentFile) : Prop :=
  ∃ name, LastComponent file.path name ∧ SameIgnoringCase name hint

/-- No hint is given, or it names no file. -/
def Unhinted (files : List TorrentFile) (hint : List UInt8) : Prop :=
  hint ≠ [] → NoneWith (NamedPath hint) files ∧ NoneWith (NamedFile hint) files

def Unrequested (files : List TorrentFile) (requestedIndex : Option Nat) : Prop :=
  ∀ index, requestedIndex = some index → files.length ≤ index

/-- The rules of the selection, in their order. -/
inductive Selected (files : List TorrentFile) (requestedIndex : Option Nat) (hint : List UInt8) :
    Nat → SelectionReason → Prop
  | exactPath {index : Nat} (hinted : hint ≠ []) (first : FirstWith (NamedPath hint) files index) :
      Selected files requestedIndex hint index .exactPath
  | exactFilename {index : Nat} (hinted : hint ≠ []) (unnamed : NoneWith (NamedPath hint) files)
      (first : FirstWith (NamedFile hint) files index) :
      Selected files requestedIndex hint index .exactFilename
  | requestedIndex {index : Nat} (unhinted : Unhinted files hint)
      (requested : requestedIndex = some index) (inside : index < files.length) :
      Selected files requestedIndex hint index .requestedIndex
  | largestPlayableFile {index : Nat} (unhinted : Unhinted files hint)
      (unrequested : Unrequested files requestedIndex) (largest : LargestWith Playable files index) :
      Selected files requestedIndex hint index .largestPlayableFile
  | largestFile {index : Nat} (unhinted : Unhinted files hint)
      (unrequested : Unrequested files requestedIndex) (unplayable : NoneWith Playable files)
      (largest : LargestWith (fun _ => True) files index) :
      Selected files requestedIndex hint index .largestFile

theorem lowercase_letter_iff (left right : UInt8) :
    ((if 65 ≤ left ∧ left ≤ 90 then left + 32 else left) =
      if 65 ≤ right ∧ right ≤ 90 then right + 32 else right) ↔ SameLetter left right := by
  have lower : (65 : UInt8).toNat = 65 := rfl
  have upper : (90 : UInt8).toNat = 90 := rfl
  simp only [SameLetter, isUppercase, UInt8.le_iff_toNat_le, ← UInt8.toNat_inj, lower, upper]
  split <;> split <;> simp [UInt8.toNat_add] <;> omega

theorem lowercase_eq_iff (left right : List UInt8) :
    lowercase left = lowercase right ↔ SameIgnoringCase left right := by
  unfold lowercase SameIgnoringCase
  induction left generalizing right with
  | nil =>
      rw [List.forall₂_nil_left_iff, List.map_nil, eq_comm, List.map_eq_nil_iff]
  | cons first rest ih =>
      cases right with
      | nil =>
          rw [List.forall₂_nil_right_iff]
          simp
      | cons other others =>
          rw [List.map_cons, List.map_cons, List.cons.injEq, List.forall₂_cons, ih,
            lowercase_letter_iff]

theorem basename_component (path : List UInt8) : LastComponent path (basename path) := by
  have separates : ∀ character : UInt8, ¬ (character ≠ 47 ∧ character ≠ 92) ↔ isSeparator character := by
    intro character
    simp only [isSeparator]
    tauto
  refine ⟨?_, ?_⟩
  · intro character member
    rw [basename, List.mem_reverse] at member
    have kept := List.mem_takeWhile_imp member
    rw [← separates, not_not]
    simpa using kept
  · have whole : path = (path.reverse.dropWhile fun character => character ≠ 47 ∧ character ≠ 92).reverse ++
        basename path := by
      rw [basename, ← List.reverse_append, List.takeWhile_append_dropWhile, List.reverse_reverse]
    cases rest : path.reverse.dropWhile fun character => character ≠ 47 ∧ character ≠ 92 with
    | nil =>
        left
        rw [rest] at whole
        simpa using whole
    | cons separator directory =>
        right
        have found := List.head?_dropWhile_not
          (fun character : UInt8 => decide (character ≠ 47 ∧ character ≠ 92)) path.reverse
        rw [rest] at found
        have stops : ¬ (separator ≠ 47 ∧ separator ≠ 92) := by simpa using found
        refine ⟨directory.reverse, separator, (separates separator).mp stops, ?_⟩
        rw [rest] at whole
        simpa using whole

theorem LastComponent.unique {path left right : List UInt8} (first : LastComponent path left)
    (second : LastComponent path right) : left = right := by
  have shorter : ∀ {name other front : List UInt8}, (∀ character ∈ name, ¬ isSeparator character) →
      path = front ++ name → (path = other ∨ ∃ directory separator, isSeparator separator ∧
        path = directory ++ [separator] ++ other) → name.length ≤ other.length := by
    intro name other front clean cut whole
    rcases whole with rfl | ⟨directory, separator, separates, same⟩
    · rw [cut]
      simp
    · by_contra longer
      have suffix : ([separator] ++ other) <:+ name := by
        have tail : [separator] ++ other <:+ path := ⟨directory, by rw [same, List.append_assoc]⟩
        refine List.suffix_of_suffix_length_le tail ⟨front, cut.symm⟩ ?_
        simp only [List.length_append, List.length_singleton]
        omega
      exact clean separator (suffix.subset (by simp)) separates
  have ends : ∀ {name}, LastComponent path name → ∃ front, path = front ++ name := by
    rintro name ⟨_, rfl | ⟨directory, separator, _, same⟩⟩
    · exact ⟨[], rfl⟩
    · exact ⟨_, same⟩
  obtain ⟨leftFront, leftCut⟩ := ends first
  obtain ⟨rightFront, rightCut⟩ := ends second
  have sizes : left.length = right.length :=
    Nat.le_antisymm (shorter first.1 leftCut second.2) (shorter second.1 rightCut first.2)
  exact (List.append_inj' (leftCut.symm.trans rightCut) sizes).2

theorem namedFile_iff (hint : List UInt8) (file : TorrentFile) :
    NamedFile hint file ↔ lowercase (basename file.path) = lowercase hint := by
  rw [lowercase_eq_iff]
  constructor
  · rintro ⟨name, last, same⟩
    rw [(basename_component file.path).unique last]
    exact same
  · intro same
    exact ⟨_, basename_component file.path, same⟩

theorem namedPath_iff (hint : List UInt8) (file : TorrentFile) :
    NamedPath hint file ↔ lowercase file.path = lowercase hint :=
  (lowercase_eq_iff _ _).symm

theorem playableExtensions_lowercase : ∀ extension ∈ playableExtensions, lowercase extension = extension := by
  decide +kernel

theorem isPlayableMediaPath_iff (file : TorrentFile) :
    isPlayableMediaPath file.path = true ↔ Playable file := by
  simp only [isPlayableMediaPath, List.any_eq_true, List.isSuffixOf_iff_suffix, Playable]
  refine exists_congr fun extension => and_congr_right fun listed => ?_
  constructor
  · rintro ⟨front, same⟩
    have cut : lowercase file.path = lowercase (file.path.take front.length) ++
        lowercase (file.path.drop front.length) := by
      rw [lowercase, lowercase, lowercase, ← List.map_append, List.take_append_drop]
    have sized : (lowercase (file.path.take front.length)).length = front.length := by
      have total := congrArg List.length same
      simp only [lowercase, List.length_append, List.length_map] at total
      simp only [lowercase, List.length_map, List.length_take]
      omega
    rw [cut] at same
    refine ⟨_, _, (List.take_append_drop front.length file.path).symm, (lowercase_eq_iff _ _).mp ?_⟩
    rw [← (List.append_inj same sized.symm).2, playableExtensions_lowercase extension listed]
  · rintro ⟨stem, ending, same, agrees⟩
    rw [← playableExtensions_lowercase extension listed, ← (lowercase_eq_iff _ _).mpr agrees, same]
    exact ⟨lowercase stem, by simp [lowercase]⟩

theorem findIdx_eq_some_iff {kind : TorrentFile → Prop} [DecidablePred kind] (files : List TorrentFile)
    (index : Nat) :
    files.findIdx? (fun file => decide (kind file)) = some index ↔ FirstWith kind files index := by
  rw [List.findIdx?_eq_some_iff_getElem]
  constructor
  · rintro ⟨inside, matched, earlier⟩
    refine ⟨files[index], List.getElem?_eq_getElem inside, by simpa using matched, ?_⟩
    intro place other found also
    by_contra before
    obtain ⟨below, rfl⟩ := List.getElem?_eq_some_iff.mp found
    have unmatched := earlier place (by omega)
    simp [also] at unmatched
  · rintro ⟨file, found, matched, earlier⟩
    obtain ⟨inside, rfl⟩ := List.getElem?_eq_some_iff.mp found
    refine ⟨inside, by simpa using matched, ?_⟩
    intro place before
    have known : files[place]? = some files[place] := List.getElem?_eq_getElem (by omega)
    simp only [decide_eq_true_eq]
    intro also
    have above := earlier place _ known also
    omega

theorem findIdx_eq_none_iff {kind : TorrentFile → Prop} [DecidablePred kind] (files : List TorrentFile) :
    files.findIdx? (fun file => decide (kind file)) = none ↔ NoneWith kind files := by
  rw [List.findIdx?_eq_none_iff]
  simp [NoneWith]

section Largest

variable {kind : TorrentFile → Prop} {seen : List TorrentFile} {file : TorrentFile}

/-- What `largest_file` knows after the files it has seen. -/
def LargestSoFar (kind : TorrentFile → Prop) (seen : List TorrentFile) : Option (Nat × Nat) → Prop
  | none => NoneWith kind seen
  | some (index, size) => ∃ file, seen[index]? = some file ∧ kind file ∧ file.size = size ∧
      ∀ (place : Nat) (other : TorrentFile), seen[place]? = some other → kind other →
        other.size ≤ size ∧ (other.size = size → index ≤ place)

theorem getElem_concat_iff (place : Nat) (other : TorrentFile) :
    (seen ++ [file])[place]? = some other ↔
      seen[place]? = some other ∨ (place = seen.length ∧ other = file) := by
  rcases Nat.lt_trichotomy place seen.length with below | same | above
  · rw [List.getElem?_append_left below]
    have different : place ≠ seen.length := by omega
    simp [different]
  · subst same
    simp [eq_comm]
  · rw [List.getElem?_eq_none (by simp; omega), List.getElem?_eq_none (by omega)]
    have different : place ≠ seen.length := by omega
    simp [different]

theorem LargestSoFar.skip {selected : Option (Nat × Nat)} (best : LargestSoFar kind seen selected)
    (other : ¬ kind file) : LargestSoFar kind (seen ++ [file]) selected := by
  cases selected with
  | none =>
      intro some member
      rcases List.mem_append.mp member with old | new
      · exact best some old
      · rw [List.mem_singleton.mp new]
        exact other
  | some pair =>
      obtain ⟨held, found, matched, size, above⟩ := best
      refine ⟨held, (getElem_concat_iff _ _).mpr (Or.inl found), matched, size, ?_⟩
      intro place another known also
      rcases (getElem_concat_iff _ _).mp known with old | ⟨_, rfl⟩
      · exact above place another old also
      · exact absurd also other

theorem LargestSoFar.take {selected : Option (Nat × Nat)} (best : LargestSoFar kind seen selected)
    (matched : kind file) (larger : (selected.all fun best => file.size > best.2) = true) :
    LargestSoFar kind (seen ++ [file]) (some (seen.length, file.size)) := by
  refine ⟨file, (getElem_concat_iff _ _).mpr (Or.inr ⟨rfl, rfl⟩), matched, rfl, ?_⟩
  intro place other known also
  rcases (getElem_concat_iff _ _).mp known with old | ⟨rfl, rfl⟩
  · cases selected with
    | none => exact absurd also (best other (List.mem_of_getElem? old))
    | some pair =>
        obtain ⟨held, _, _, _, above⟩ := best
        have below := (above place other old also).1
        simp only [Option.all_some, decide_eq_true_eq] at larger
        omega
  · exact ⟨Nat.le_refl _, fun _ => Nat.le_refl _⟩

theorem LargestSoFar.keep {selected : Option (Nat × Nat)} (best : LargestSoFar kind seen selected)
    (smaller : ¬ (selected.all fun best => file.size > best.2) = true) :
    LargestSoFar kind (seen ++ [file]) selected := by
  cases selected with
  | none => simp at smaller
  | some pair =>
      obtain ⟨held, found, matched, size, above⟩ := best
      simp only [Option.all_some, decide_eq_true_eq] at smaller
      have inside := (List.getElem?_eq_some_iff.mp found).1
      refine ⟨held, (getElem_concat_iff _ _).mpr (Or.inl found), matched, size, ?_⟩
      intro place other known also
      rcases (getElem_concat_iff _ _).mp known with old | ⟨rfl, rfl⟩
      · exact above place other old also
      · omega

theorem largestFileFrom_spec (playableOnly : Bool)
    (means : ∀ file, kind file ↔ ¬ (playableOnly = true ∧ (!isPlayableMediaPath file.path) = true))
    (rest : List TorrentFile) {seen : List TorrentFile} {selected : Option (Nat × Nat)}
    (best : LargestSoFar kind seen selected) :
    LargestSoFar kind (seen ++ rest) (largestFileFrom playableOnly rest seen.length selected) := by
  induction rest generalizing seen selected with
  | nil =>
      rw [List.append_nil]
      exact best
  | cons file rest ih =>
      have shifted : seen ++ file :: rest = seen ++ [file] ++ rest := by simp
      have next : seen.length + 1 = (seen ++ [file]).length := by simp
      rw [largestFileFrom, shifted, next]
      split
      · rename_i unplayable
        exact ih (best.skip fun matched => (means file).mp matched unplayable)
      · rename_i playable
        split
        · rename_i larger
          exact ih (best.take ((means file).mpr playable) larger)
        · rename_i smaller
          exact ih (best.keep smaller)

theorem largestFile_spec (files : List TorrentFile) (playableOnly : Bool)
    (means : ∀ file, kind file ↔ ¬ (playableOnly = true ∧ (!isPlayableMediaPath file.path) = true)) :
    (∀ index, largestFile files playableOnly = some index → LargestWith kind files index) ∧
      (largestFile files playableOnly = none → NoneWith kind files) := by
  have best : LargestSoFar kind files (largestFileFrom playableOnly files 0 none) :=
    largestFileFrom_spec playableOnly means files (show LargestSoFar kind [] none by
      intro file member
      simp at member)
  unfold largestFile
  cases selected : largestFileFrom playableOnly files 0 none with
  | none =>
      rw [selected] at best
      exact ⟨by simp, fun _ => best⟩
  | some pair =>
      rw [selected] at best
      obtain ⟨file, found, matched, size, above⟩ := best
      refine ⟨fun index same => ?_, by simp⟩
      obtain rfl : pair.1 = index := by simpa using same
      rw [← size] at above
      exact ⟨file, found, matched, above⟩

end Largest

theorem FirstWith.unique {kind : TorrentFile → Prop} {files : List TorrentFile} {left right : Nat}
    (first : FirstWith kind files left) (second : FirstWith kind files right) : left = right := by
  obtain ⟨leftFile, leftFound, leftKind, leftFirst⟩ := first
  obtain ⟨rightFile, rightFound, rightKind, rightFirst⟩ := second
  exact Nat.le_antisymm (leftFirst right rightFile rightFound rightKind)
    (rightFirst left leftFile leftFound leftKind)

theorem LargestWith.unique {kind : TorrentFile → Prop} {files : List TorrentFile} {left right : Nat}
    (first : LargestWith kind files left) (second : LargestWith kind files right) : left = right := by
  obtain ⟨leftFile, leftFound, leftKind, leftAbove⟩ := first
  obtain ⟨rightFile, rightFound, rightKind, rightAbove⟩ := second
  have rightBelow := leftAbove right rightFile rightFound rightKind
  have leftBelow := rightAbove left leftFile leftFound leftKind
  have size : leftFile.size = rightFile.size := Nat.le_antisymm leftBelow.1 rightBelow.1
  exact Nat.le_antisymm (rightBelow.2 size.symm) (leftBelow.2 size)

theorem FirstWith.exists {kind : TorrentFile → Prop} {files : List TorrentFile} {index : Nat}
    (first : FirstWith kind files index) : ¬ NoneWith kind files := by
  obtain ⟨file, found, matched, _⟩ := first
  exact fun absent => absent file (List.mem_of_getElem? found) matched

theorem LargestWith.exists {kind : TorrentFile → Prop} {files : List TorrentFile} {index : Nat}
    (largest : LargestWith kind files index) : ¬ NoneWith kind files := by
  obtain ⟨file, found, matched, _⟩ := largest
  exact fun absent => absent file (List.mem_of_getElem? found) matched

section Select

variable {files : List TorrentFile} {requested : Option Nat} {hint : List UInt8}

theorem Selected.unique {left right : Nat} {leftReason rightReason : SelectionReason}
    (first : Selected files requested hint left leftReason)
    (second : Selected files requested hint right rightReason) :
    left = right ∧ leftReason = rightReason := by
  have path : ∀ {index}, FirstWith (NamedPath hint) files index → hint ≠ [] →
      ¬ Unhinted files hint :=
    fun found hinted unhinted => found.exists (unhinted hinted).1
  have name : ∀ {index}, FirstWith (NamedFile hint) files index → hint ≠ [] →
      ¬ Unhinted files hint :=
    fun found hinted unhinted => found.exists (unhinted hinted).2
  have index : ∀ {index}, requested = some index → index < files.length →
      ¬ Unrequested files requested :=
    fun same inside unrequested => Nat.not_le_of_lt inside (unrequested _ same)
  cases first with
  | exactPath hinted found =>
      cases second with
      | exactPath _ other => exact ⟨found.unique other, rfl⟩
      | exactFilename _ unnamed _ => exact absurd unnamed found.exists
      | requestedIndex unhinted => exact absurd unhinted (path found hinted)
      | largestPlayableFile unhinted => exact absurd unhinted (path found hinted)
      | largestFile unhinted => exact absurd unhinted (path found hinted)
  | exactFilename hinted unnamed found =>
      cases second with
      | exactPath _ other => exact absurd unnamed other.exists
      | exactFilename _ _ other => exact ⟨found.unique other, rfl⟩
      | requestedIndex unhinted => exact absurd unhinted (name found hinted)
      | largestPlayableFile unhinted => exact absurd unhinted (name found hinted)
      | largestFile unhinted => exact absurd unhinted (name found hinted)
  | requestedIndex unhinted same inside =>
      cases second with
      | exactPath hinted other => exact absurd unhinted (path other hinted)
      | exactFilename hinted _ other => exact absurd unhinted (name other hinted)
      | requestedIndex _ also _ => exact ⟨Option.some.inj (same.symm.trans also), rfl⟩
      | largestPlayableFile _ unrequested => exact absurd unrequested (index same inside)
      | largestFile _ unrequested => exact absurd unrequested (index same inside)
  | largestPlayableFile unhinted unrequested largest =>
      cases second with
      | exactPath hinted other => exact absurd unhinted (path other hinted)
      | exactFilename hinted _ other => exact absurd unhinted (name other hinted)
      | requestedIndex _ same inside => exact absurd unrequested (index same inside)
      | largestPlayableFile _ _ other => exact ⟨largest.unique other, rfl⟩
      | largestFile _ _ unplayable _ => exact absurd unplayable largest.exists
  | largestFile unhinted unrequested unplayable largest =>
      cases second with
      | exactPath hinted other => exact absurd unhinted (path other hinted)
      | exactFilename hinted _ other => exact absurd unhinted (name other hinted)
      | requestedIndex _ same inside => exact absurd unrequested (index same inside)
      | largestPlayableFile _ _ other => exact absurd unplayable other.exists
      | largestFile _ _ _ other => exact ⟨largest.unique other, rfl⟩

theorem Selected.inside {index : Nat} {reason : SelectionReason}
    (selected : Selected files requested hint index reason) : index < files.length := by
  have held : ∀ {file}, files[index]? = some file → index < files.length :=
    fun found => (List.getElem?_eq_some_iff.mp found).1
  cases selected with
  | exactPath _ first => exact held first.choose_spec.1
  | exactFilename _ _ first => exact held first.choose_spec.1
  | requestedIndex _ _ inside => exact inside
  | largestPlayableFile _ _ largest => exact held largest.choose_spec.1
  | largestFile _ _ _ largest => exact held largest.choose_spec.1

theorem largestPlayable_spec (files : List TorrentFile) :
    (∀ index, largestFile files true = some index → LargestWith Playable files index) ∧
      (largestFile files true = none → NoneWith Playable files) := by
  refine largestFile_spec files true fun file => ?_
  rw [← isPlayableMediaPath_iff]
  simp

theorem largestAny_spec (files : List TorrentFile) :
    (∀ index, largestFile files false = some index → LargestWith (fun _ => True) files index) ∧
      (largestFile files false = none → NoneWith (fun _ => True) files) :=
  largestFile_spec files false fun file => by simp

theorem selectFile_unnamed
    (path : files.findIdx? (fun file => lowercase file.path = lowercase hint) = none)
    (name : files.findIdx? (fun file => lowercase (basename file.path) = lowercase hint) = none) :
    selectFile files requested hint = selectFile files requested [] := by
  unfold selectFile
  simp only [path, name, Option.map_none, ite_self, List.isEmpty_nil, if_true]

theorem selectFile_unhinted (filled : files ≠ []) (unhinted : Unhinted files hint) :
    ∃ index reason, selectFile files requested [] = ⟨some index, reason⟩ ∧
      Selected files requested hint index reason := by
  have listed : files.isEmpty = false := by simpa using filled
  unfold selectFile
  simp only [listed, Bool.false_eq_true, if_false, List.isEmpty_nil, if_true]
  cases wanted : requested.filter fun index => decide (index < files.length) with
  | some index =>
      obtain ⟨same, inside⟩ := Option.filter_eq_some_iff.mp wanted
      exact ⟨index, _, rfl, .requestedIndex unhinted same (by simpa using inside)⟩
  | none =>
      have unrequested : Unrequested files requested := by
        intro index same
        rw [same] at wanted
        simpa using wanted
      cases playable : largestFile files true with
      | some index =>
          exact ⟨index, _, rfl, .largestPlayableFile unhinted unrequested
            ((largestPlayable_spec files).1 index playable)⟩
      | none =>
          have unplayable := (largestPlayable_spec files).2 playable
          cases largest : largestFile files false with
          | some index =>
              exact ⟨index, _, rfl, .largestFile unhinted unrequested unplayable
                ((largestAny_spec files).1 index largest)⟩
          | none =>
              obtain ⟨file, member⟩ := List.exists_mem_of_ne_nil files filled
              exact absurd trivial ((largestAny_spec files).2 largest file member)

theorem selectFile_selects (filled : files ≠ []) :
    ∃ index reason, selectFile files requested hint = ⟨some index, reason⟩ ∧
      Selected files requested hint index reason := by
  have listed : files.isEmpty = false := by simpa using filled
  have pathIff : ∀ file, NamedPath hint file ↔ lowercase file.path = lowercase hint := namedPath_iff hint
  have nameIff : ∀ file, NamedFile hint file ↔ lowercase (basename file.path) = lowercase hint :=
    namedFile_iff hint
  by_cases blank : hint = []
  · subst blank
    exact selectFile_unhinted filled fun hinted => absurd rfl hinted
  · have given : hint.isEmpty = false := by simpa using blank
    cases path : files.findIdx? fun file => decide (lowercase file.path = lowercase hint) with
    | some index =>
        refine ⟨index, .exactPath, ?_, .exactPath blank ?_⟩
        · simp [selectFile, listed, given, path]
        · simpa only [FirstWith, pathIff] using (findIdx_eq_some_iff files index).mp path
    | none =>
        have unnamed : NoneWith (NamedPath hint) files := by
          simpa only [NoneWith, pathIff] using (findIdx_eq_none_iff files).mp path
        cases name : files.findIdx? fun file =>
            decide (lowercase (basename file.path) = lowercase hint) with
        | some index =>
            refine ⟨index, .exactFilename, ?_, .exactFilename blank unnamed ?_⟩
            · simp [selectFile, listed, given, path, name]
            · simpa only [FirstWith, nameIff] using (findIdx_eq_some_iff files index).mp name
        | none =>
            have unfiled : NoneWith (NamedFile hint) files := by
              simpa only [NoneWith, nameIff] using (findIdx_eq_none_iff files).mp name
            rw [selectFile_unnamed path name]
            exact selectFile_unhinted filled fun _ => ⟨unnamed, unfiled⟩

/-- Nothing is selected from an empty list; otherwise the selection is the one of the first rule that
applies, and the reason names it. -/
theorem selectFile_iff (files : List TorrentFile) (requested : Option Nat) (hint : List UInt8) :
    ((selectFile files requested hint).index = none ↔ files = []) ∧
    (selectFile files requested hint = ⟨none, .noFiles⟩ ↔ files = []) ∧
    ∀ index reason, selectFile files requested hint = ⟨some index, reason⟩ ↔
      index < files.length ∧ Selected files requested hint index reason := by
  by_cases empty : files = []
  · subst empty
    refine ⟨by simp [selectFile], by simp [selectFile], fun index reason => ?_⟩
    simp [selectFile]
  · obtain ⟨chosen, why, selects, selected⟩ := @selectFile_selects files requested hint empty
    rw [selects]
    refine ⟨by simp [empty], by simp [empty], fun index reason => ?_⟩
    simp only [FileSelection.mk.injEq, Option.some.injEq]
    constructor
    · rintro ⟨rfl, rfl⟩
      exact ⟨selected.inside, selected⟩
    · rintro ⟨_, other⟩
      exact selected.unique other

end Select

end NuvioEngine.Torrent
