import NuvioEngine.Http.RequestHeadCore

/-! Executable embedding of `receive_request_head` in `loopback_server.cpp`. -/

namespace NuvioEngine.Http

/-- What one turn of the loop meets: a stop request, or a call of `recv` and its outcome. -/
inductive Recv where
  | stopped
  | interrupted
  | failed
  | closed
  | chunk (received : Bytes)
  deriving DecidableEq, Repr

/-- The head that is returned, and the flag `exceeded_limit`. -/
structure ReceivedHead where
  head : Option Bytes
  exceededLimit : Bool
  deriving DecidableEq, Repr

/-- The loop of `receive_request_head`, with what it has received. A script that has run out is a
stream from which nothing comes any more; the timeout of the socket then ends the last call. -/
def receiveRequestHead (received : Bytes) : List Recv → ReceivedHead
  | [] => ⟨none, false⟩
  | .stopped :: _ => ⟨none, false⟩
  | .interrupted :: calls => receiveRequestHead received calls
  | .failed :: _ => ⟨none, false⟩
  | .closed :: _ => ⟨none, false⟩
  | .chunk more :: calls =>
      let received := received ++ more
      match find received (crlf ++ crlf) 0 with
      | some ending =>
          let headSize := ending + 4
          if headSize > maximumRequestHeadSize then ⟨none, true⟩
          else ⟨some (received.take headSize), false⟩
      | none =>
          if received.length ≥ maximumRequestHeadSize then ⟨none, true⟩
          else receiveRequestHead received calls

end NuvioEngine.Http
