import NuvioEngine.Stream.StreamBodyCore

/-!
Executable embedding of the byte counts of `progress_for` in `libtorrent_stream_bridge.cpp`: how much of
the file of a stream has been verified.
-/

namespace NuvioEngine.Stream

/-- The layout of a torrent. The library keeps the two counts in 32-bit integers. -/
structure TorrentLayout where
  pieceLength : Nat
  numPieces : Nat
  totalSize : Nat
  positive : 0 < pieceLength
  lengthFits : pieceLength < 2 ^ 31
  countFits : numPieces < 2 ^ 31
  full : (numPieces - 1) * pieceLength < totalSize
  covers : totalSize ≤ numPieces * pieceLength

/-- `piece_size`: only the last piece may be shorter. -/
def TorrentLayout.pieceSize (info : TorrentLayout) (piece : Nat) : Nat :=
  if piece + 1 = info.numPieces then info.totalSize - piece * info.pieceLength else info.pieceLength

structure TorrentStatus where
  isSeeding : Bool
  pieces : List Bool

def TorrentStatus.ready (status : TorrentStatus) (piece : Nat) : Bool :=
  status.isSeeding || status.pieces.getD piece false

structure StreamProgress where
  contiguousReadyBytes : Nat := 0
  verifiedFileBytes : Nat := 0
  deriving DecidableEq, Repr

/-- The loop over the pieces of the file. -/
def progressPieces (route : StreamRoute) (info : TorrentLayout) (status : TorrentStatus) (fileEnd : Nat) :
    List Nat → Bool → StreamProgress → StreamProgress
  | [], _, result => result
  | piece :: rest, contiguous, result =>
      if !status.ready piece then progressPieces route info status fileEnd rest false result
      else
        let pieceStart := mul64 piece route.pieceSize
        let pieceBytes := info.pieceSize piece
        if pieceBytes = 0 then ⟨0, 0⟩
        else
          let pieceEnd := add64 pieceStart pieceBytes
          let overlapStart := max route.fileOffset pieceStart
          let overlapEnd := min fileEnd pieceEnd
          if overlapEnd ≤ overlapStart then
            progressPieces route info status fileEnd rest contiguous result
          else
            let overlap := overlapEnd - overlapStart
            progressPieces route info status fileEnd rest contiguous
              { contiguousReadyBytes :=
                  if contiguous then add64 result.contiguousReadyBytes overlap
                  else result.contiguousReadyBytes
                verifiedFileBytes := add64 result.verifiedFileBytes overlap }

/-- `usable` says that the handle is valid and in the session. Without a status, the query has thrown. -/
def progressFor (route : StreamRoute) (usable : Bool) (metadata : Option TorrentLayout)
    (status : Option TorrentStatus) : StreamProgress :=
  if route.fileSize = 0 || !usable then {}
  else
    match metadata with
    | none => {}
    | some info =>
        if info.pieceLength = 0 || route.fileSize > uint64Max - route.fileOffset then {}
        else
          let fileEnd := add64 route.fileOffset route.fileSize
          let firstPiece := route.fileOffset / route.pieceSize
          let lastPiece := (fileEnd - 1) / route.pieceSize
          if lastPiece ≥ info.numPieces then {}
          else
            match status with
            | none => {}
            | some status =>
                progressPieces route info status fileEnd
                  (List.range' firstPiece (lastPiece + 1 - firstPiece)) true {}

end NuvioEngine.Stream
