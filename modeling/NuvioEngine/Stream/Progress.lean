import NuvioEngine.Stream.ProgressCore
import Mathlib.Data.Nat.Count
import Mathlib.Order.Bounds.Basic
import Mathlib.Tactic.Linarith

/-! The reported progress is the number of verified bytes and the longest verified prefix. -/

namespace NuvioEngine.Stream

/-- A file inside a torrent. -/
structure Placed (route : StreamRoute) (info : TorrentLayout) : Prop where
  pieceSize : route.pieceSize = info.pieceLength
  filled : 0 < route.fileSize
  inside : route.fileOffset + route.fileSize ≤ info.totalSize

/-- The byte at a position of the file lies in a verified piece. -/
def Verified (route : StreamRoute) (status : TorrentStatus) (position : Nat) : Prop :=
  status.ready ((route.fileOffset + position) / route.pieceSize) = true

instance (route : StreamRoute) (status : TorrentStatus) : DecidablePred (Verified route status) :=
  fun _ => inferInstanceAs (Decidable (_ = _))

/-- How far into the file its pieces before the given one reach. -/
def reach (route : StreamRoute) (piece : Nat) : Nat :=
  min (max route.fileOffset (piece * route.pieceSize)) (route.fileOffset + route.fileSize) - route.fileOffset

/-- What the loop keeps in front of a piece. -/
structure Counted (route : StreamRoute) (status : TorrentStatus) (piece : Nat) (contiguous : Bool)
    (result : StreamProgress) : Prop where
  verified : result.verifiedFileBytes = Nat.count (Verified route status) (reach route piece)
  prefixed : ∀ position < result.contiguousReadyBytes, Verified route status position
  whole : contiguous = true → result.contiguousReadyBytes = reach route piece
  cut : contiguous = false → result.contiguousReadyBytes < reach route piece ∧
    ¬ Verified route status result.contiguousReadyBytes

section Pieces

variable {route : StreamRoute} {info : TorrentLayout} (placed : Placed route info)
include placed

theorem Placed.bounded : route.fileOffset + route.fileSize < 2 ^ 64 := by
  have inside := placed.inside
  have covers := info.covers
  have product : info.numPieces * info.pieceLength ≤ 2 ^ 31 * 2 ^ 31 :=
    Nat.mul_le_mul (Nat.le_of_lt info.countFits) (Nat.le_of_lt info.lengthFits)
  omega

theorem Placed.positive : 0 < route.pieceSize := by
  rw [placed.pieceSize]
  exact info.positive

theorem Placed.overlap {piece : Nat} (started : piece * route.pieceSize < route.fileOffset + route.fileSize) :
    mul64 piece route.pieceSize = piece * route.pieceSize ∧ info.pieceSize piece ≠ 0 ∧
      min (route.fileOffset + route.fileSize) (add64 (piece * route.pieceSize) (info.pieceSize piece)) =
        min (route.fileOffset + route.fileSize) ((piece + 1) * route.pieceSize) := by
  have inside := placed.inside
  have bounded := placed.bounded
  have covers := info.covers
  have positive := info.positive
  have lengthFits := info.lengthFits
  have countFits := info.countFits
  have product : info.numPieces * info.pieceLength ≤ 2 ^ 31 * 2 ^ 31 :=
    Nat.mul_le_mul (Nat.le_of_lt countFits) (Nat.le_of_lt lengthFits)
  rw [placed.pieceSize] at started ⊢
  have next : (piece + 1) * info.pieceLength = piece * info.pieceLength + info.pieceLength := Nat.succ_mul _ _
  unfold mul64 add64 TorrentLayout.pieceSize
  refine ⟨Nat.mod_eq_of_lt (by omega), ?_, ?_⟩
  · split <;> omega
  · split
    · rename_i last
      rw [← last, next] at covers product
      rw [Nat.mod_eq_of_lt (by omega), next]
      omega
    · rw [Nat.mod_eq_of_lt (by omega), next]

theorem Placed.block {piece : Nat} (started : piece * route.pieceSize < route.fileOffset + route.fileSize)
    (unfinished : route.fileOffset < (piece + 1) * route.pieceSize) :
    reach route piece < reach route (piece + 1) ∧
      min (route.fileOffset + route.fileSize) ((piece + 1) * route.pieceSize) -
        max route.fileOffset (piece * route.pieceSize) = reach route (piece + 1) - reach route piece ∧
      ∀ position, reach route piece ≤ position → position < reach route (piece + 1) →
        (route.fileOffset + position) / route.pieceSize = piece := by
  have filled := placed.filled
  have positive := placed.positive
  have next : (piece + 1) * route.pieceSize = piece * route.pieceSize + route.pieceSize := Nat.succ_mul _ _
  unfold reach
  refine ⟨by omega, by omega, fun position lower upper => ?_⟩
  rw [Nat.div_eq_iff positive]
  omega

section Step

variable {status : TorrentStatus} {piece : Nat} {contiguous : Bool} {result : StreamProgress}
  (counted : Counted route status piece contiguous result)
  (started : piece * route.pieceSize < route.fileOffset + route.fileSize)
  (unfinished : route.fileOffset < (piece + 1) * route.pieceSize)
include counted started unfinished

theorem Counted.skip (missing : status.ready piece = false) :
    Counted route status (piece + 1) false result := by
  obtain ⟨longer, _, inside⟩ := placed.block started unfinished
  have none : ∀ position, reach route piece ≤ position → position < reach route (piece + 1) →
      ¬ Verified route status position := by
    intro position lower upper
    rw [Verified, inside position lower upper, missing]
    simp
  constructor
  · obtain ⟨more, same⟩ := Nat.exists_eq_add_of_le (Nat.le_of_lt longer)
    have block : Nat.count (fun position => Verified route status (reach route piece + position)) more = 0 :=
      Nat.count_iff_forall_not.mpr fun position below => none _ (by omega) (by omega)
    rw [counted.verified, same, Nat.count_add, block, Nat.add_zero]
  · exact counted.prefixed
  · simp
  · intro _
    cases contiguous with
    | true =>
        rw [counted.whole rfl]
        exact ⟨longer, none _ (Nat.le_refl _) longer⟩
    | false => exact ⟨Nat.lt_trans (counted.cut rfl).1 longer, (counted.cut rfl).2⟩

theorem Counted.take (ready : status.ready piece = true) :
    Counted route status (piece + 1) contiguous
      { contiguousReadyBytes :=
          if contiguous then add64 result.contiguousReadyBytes (reach route (piece + 1) - reach route piece)
          else result.contiguousReadyBytes
        verifiedFileBytes :=
          add64 result.verifiedFileBytes (reach route (piece + 1) - reach route piece) } := by
  obtain ⟨longer, _, inside⟩ := placed.block started unfinished
  have bounded := placed.bounded
  have below : reach route (piece + 1) ≤ route.fileSize := by
    unfold reach
    omega
  have all : ∀ position, reach route piece ≤ position → position < reach route (piece + 1) →
      Verified route status position := by
    intro position lower upper
    rw [Verified, inside position lower upper, ready]
  obtain ⟨more, same⟩ := Nat.exists_eq_add_of_le (Nat.le_of_lt longer)
  have difference : reach route (piece + 1) - reach route piece = more := by omega
  have few := @Nat.count_le (Verified route status) _ (reach route piece)
  rw [difference]
  constructor
  · have block : Nat.count (fun position => Verified route status (reach route piece + position)) more =
        more := Nat.count_iff_forall.mpr fun position less => all _ (by omega) (by omega)
    rw [same, Nat.count_add, block, counted.verified]
    unfold add64
    exact Nat.mod_eq_of_lt (by omega)
  · intro position early
    cases contiguous with
    | true =>
        have size := counted.whole rfl
        simp only [if_true, add64] at early
        rw [Nat.mod_eq_of_lt (by omega)] at early
        by_cases old : position < reach route piece
        · exact counted.prefixed position (by omega)
        · exact all position (by omega) (by omega)
    | false => exact counted.prefixed position early
  · rintro rfl
    have size := counted.whole rfl
    simp only [if_true, add64]
    rw [Nat.mod_eq_of_lt (by omega)]
    omega
  · rintro rfl
    exact ⟨Nat.lt_trans (counted.cut rfl).1 longer, (counted.cut rfl).2⟩

end Step

theorem progressPieces_counted (status : TorrentStatus) (count : Nat) {piece : Nat} {contiguous : Bool}
    {result : StreamProgress} (counted : Counted route status piece contiguous result)
    (first : route.fileOffset < (piece + 1) * route.pieceSize)
    (last : piece + count = (route.fileOffset + route.fileSize - 1) / route.pieceSize + 1) :
    ∃ flag, Counted route status (piece + count) flag
      (progressPieces route info status (route.fileOffset + route.fileSize) (List.range' piece count)
        contiguous result) := by
  have positive := placed.positive
  have filled := placed.filled
  induction count generalizing piece contiguous result with
  | zero => exact ⟨contiguous, counted⟩
  | succ count ih =>
      have inside : piece ≤ (route.fileOffset + route.fileSize - 1) / route.pieceSize := by omega
      have started : piece * route.pieceSize < route.fileOffset + route.fileSize := by
        have below := (Nat.le_div_iff_mul_le positive).mp inside
        omega
      have next : (piece + 1 + 1) * route.pieceSize = (piece + 1) * route.pieceSize + route.pieceSize :=
        Nat.succ_mul _ _
      have later : route.fileOffset < (piece + 1 + 1) * route.pieceSize := by omega
      have ends : piece + 1 + count = (route.fileOffset + route.fileSize - 1) / route.pieceSize + 1 := by
        omega
      rw [List.range'_succ, show piece + (count + 1) = piece + 1 + count by omega]
      cases ready : status.ready piece with
      | false =>
          simp only [progressPieces, ready, Bool.not_false, if_true]
          exact ih (counted.skip placed started first ready) later ends
      | true =>
          obtain ⟨start, full, stop⟩ := placed.overlap started
          obtain ⟨longer, overlap, _⟩ := placed.block started first
          have more : ¬ min (route.fileOffset + route.fileSize) ((piece + 1) * route.pieceSize) ≤
              max route.fileOffset (piece * route.pieceSize) := by omega
          simp only [progressPieces, ready, Bool.not_true, Bool.false_eq_true, if_false, start, full, stop,
            more, overlap]
          exact ih (counted.take placed started first ready) later ends

theorem progressFor_counted (status : TorrentStatus) :
    ∃ flag, Counted route status ((route.fileOffset + route.fileSize - 1) / route.pieceSize + 1) flag
      (progressFor route true (some info) (some status)) := by
  have bounded := placed.bounded
  have filled := placed.filled
  have positive := placed.positive
  have inside := placed.inside
  have covers := info.covers
  have fits : ¬ route.fileSize > uint64Max - route.fileOffset := by
    unfold uint64Max
    omega
  have fileEnd : add64 route.fileOffset route.fileSize = route.fileOffset + route.fileSize :=
    Nat.mod_eq_of_lt bounded
  have few : ¬ (route.fileOffset + route.fileSize - 1) / route.pieceSize ≥ info.numPieces := by
    rw [ge_iff_le, Nat.not_le, Nat.div_lt_iff_lt_mul positive, placed.pieceSize]
    omega
  have ordered : route.fileOffset / route.pieceSize ≤
      (route.fileOffset + route.fileSize - 1) / route.pieceSize := Nat.div_le_div_right (by omega)
  have lower := Nat.div_mul_le_self route.fileOffset route.pieceSize
  have upper := Nat.lt_mul_of_div_lt (Nat.lt_succ_self (route.fileOffset / route.pieceSize)) positive
  have none : reach route (route.fileOffset / route.pieceSize) = 0 := by
    unfold reach
    omega
  have start : Counted route status (route.fileOffset / route.pieceSize) true {} :=
    ⟨by rw [none, Nat.count_zero], fun _ early => absurd early (Nat.not_lt_zero _), fun _ => none.symm,
      fun same => absurd same (by decide)⟩
  have run := progressPieces_counted placed status ((route.fileOffset + route.fileSize - 1) /
    route.pieceSize + 1 - route.fileOffset / route.pieceSize) start upper (by omega)
  rw [show route.fileOffset / route.pieceSize + ((route.fileOffset + route.fileSize - 1) /
      route.pieceSize + 1 - route.fileOffset / route.pieceSize) =
    (route.fileOffset + route.fileSize - 1) / route.pieceSize + 1 by omega] at run
  simpa [progressFor, Nat.ne_of_gt filled, Nat.ne_of_gt info.positive, fits, fileEnd, few] using run

theorem progressFor_prefix (status : TorrentStatus) :
    (progressFor route true (some info) (some status)).verifiedFileBytes =
        Nat.count (Verified route status) route.fileSize ∧
      IsGreatest {length | length ≤ route.fileSize ∧ ∀ position < length, Verified route status position}
        (progressFor route true (some info) (some status)).contiguousReadyBytes := by
  obtain ⟨flag, counted⟩ := progressFor_counted placed status
  have positive := placed.positive
  have beyond : route.fileOffset + route.fileSize - 1 <
      ((route.fileOffset + route.fileSize - 1) / route.pieceSize + 1) * route.pieceSize :=
    Nat.lt_mul_of_div_lt (Nat.lt_succ_self _) positive
  have whole : reach route ((route.fileOffset + route.fileSize - 1) / route.pieceSize + 1) =
      route.fileSize := by
    unfold reach
    omega
  have verified := counted.verified
  have complete := counted.whole
  have cut := counted.cut
  rw [whole] at verified complete cut
  refine ⟨verified, ?_⟩
  cases flag with
  | true =>
      rw [complete rfl]
      refine ⟨⟨Nat.le_refl _, fun position early => ?_⟩, fun length bound => bound.1⟩
      exact counted.prefixed position (by rw [complete rfl]; exact early)
  | false =>
      refine ⟨⟨Nat.le_of_lt (cut rfl).1, counted.prefixed⟩, fun length bound => ?_⟩
      by_contra longer
      exact (cut rfl).2 (bound.2 _ (Nat.not_le.mp longer))

end Pieces

/-- Every piece of the file is verified. -/
def AllVerified (route : StreamRoute) (status : TorrentStatus) : Prop :=
  ∀ piece, route.fileOffset / route.pieceSize ≤ piece →
    piece ≤ (route.fileOffset + route.fileSize - 1) / route.pieceSize → status.ready piece = true

theorem allVerified_iff {route : StreamRoute} {info : TorrentLayout} (placed : Placed route info)
    (status : TorrentStatus) :
    AllVerified route status ↔ ∀ position < route.fileSize, Verified route status position := by
  have positive := placed.positive
  have filled := placed.filled
  constructor
  · intro all position below
    exact all _ (Nat.div_le_div_right (by omega)) (Nat.div_le_div_right (by omega))
  · intro all piece lower upper
    have started := (Nat.le_div_iff_mul_le positive).mp upper
    have unfinished := (Nat.div_lt_iff_lt_mul positive).mp (Nat.lt_succ_of_le lower)
    obtain ⟨longer, _, inside⟩ := placed.block (by omega) unfinished
    have below : reach route (piece + 1) ≤ route.fileSize := by
      unfold reach
      omega
    have ready := all (reach route piece) (by omega)
    rw [Verified, inside _ (Nat.le_refl _) longer] at ready
    exact ready

theorem progressFor_exact (route : StreamRoute) (info : TorrentLayout) (placed : Placed route info)
    (status : TorrentStatus) :
    (progressFor route true (some info) (some status)).verifiedFileBytes =
        Nat.count (Verified route status) route.fileSize ∧
    IsGreatest {length | length ≤ route.fileSize ∧ ∀ position < length, Verified route status position}
      (progressFor route true (some info) (some status)).contiguousReadyBytes ∧
    (progressFor route true (some info) (some status)).contiguousReadyBytes ≤
        (progressFor route true (some info) (some status)).verifiedFileBytes ∧
    (progressFor route true (some info) (some status)).verifiedFileBytes ≤ route.fileSize ∧
    ((progressFor route true (some info) (some status)).contiguousReadyBytes = route.fileSize ↔
      AllVerified route status) ∧
    ((progressFor route true (some info) (some status)).verifiedFileBytes = route.fileSize ↔
      AllVerified route status) ∧
    ∀ later : TorrentStatus, (∀ piece, status.ready piece = true → later.ready piece = true) →
      (progressFor route true (some info) (some status)).contiguousReadyBytes ≤
          (progressFor route true (some info) (some later)).contiguousReadyBytes ∧
        (progressFor route true (some info) (some status)).verifiedFileBytes ≤
          (progressFor route true (some info) (some later)).verifiedFileBytes := by
  obtain ⟨verified, greatest⟩ := progressFor_prefix placed status
  have most := greatest.1.1
  have prefixed := greatest.1.2
  have complete := allVerified_iff placed status
  refine ⟨verified, greatest, ?_, ?_, ?_, ?_, fun later more => ?_⟩
  · rw [verified, ← Nat.count_iff_forall.mpr prefixed]
    exact Nat.count_monotone _ most
  · rw [verified]
    exact Nat.count_le _
  · rw [complete]
    constructor
    · intro whole
      rw [← whole]
      exact prefixed
    · intro all
      exact Nat.le_antisymm most (greatest.2 ⟨Nat.le_refl _, all⟩)
  · rw [complete, verified]
    exact Nat.count_iff_forall
  · obtain ⟨verifiedLater, greatestLater⟩ := progressFor_prefix placed later
    constructor
    · exact greatestLater.2 ⟨most, fun position early => more _ (prefixed position early)⟩
    · rw [verified, verifiedLater]
      exact Nat.count_mono_left fun position _ ready => more _ ready

/-- Three pieces of four bytes, the last of them short. -/
def shortTorrent : TorrentLayout where
  pieceLength := 4
  numPieces := 3
  totalSize := 10
  positive := by decide
  lengthFits := by decide
  countFits := by decide
  full := by decide
  covers := by decide

/-- A file from the third byte to the last. -/
def lateFile : StreamRoute where
  handle := 1
  torrentId := "t"
  streamId := "s"
  target := "/s"
  contentType := "video/mp4"
  fileIndex := 0
  pieceSize := 4
  fileOffset := 2
  fileSize := 8
  payloadPath := "p"

theorem lateFile_placed : Placed lateFile shortTorrent := ⟨rfl, by decide, by decide⟩

theorem progressFor_exact_late :
    progressFor lateFile true (some shortTorrent) (some ⟨false, [true, false, true]⟩) = ⟨2, 4⟩ ∧
      (progressFor lateFile true (some shortTorrent) (some ⟨false, [true, false, true]⟩)).verifiedFileBytes =
        Nat.count (Verified lateFile ⟨false, [true, false, true]⟩) lateFile.fileSize :=
  ⟨by decide +kernel, (progressFor_exact lateFile shortTorrent lateFile_placed _).1⟩

end NuvioEngine.Stream
