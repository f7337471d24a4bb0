import NuvioEngine.Http.ReceiveCore
import NuvioEngine.Http.HeaderFields

/-! Receiving a request head gives the same however the stream is cut into chunks. -/

namespace NuvioEngine.Http

/-- The bytes the calls deliver before the stream ends. -/
def delivered : List Recv → Bytes
  | [] => []
  | .stopped :: calls => delivered calls
  | .interrupted :: calls => delivered calls
  | .failed :: _ => []
  | .closed :: _ => []
  | .chunk more :: calls => more ++ delivered calls

/-- What is found in a stream that is received at once. -/
def headOf (stream : Bytes) : ReceivedHead :=
  match find stream (crlf ++ crlf) 0 with
  | some ending =>
      if ending + 4 > maximumRequestHeadSize then ⟨none, true⟩ else ⟨some (stream.take (ending + 4)), false⟩
  | none => if stream.length ≥ maximumRequestHeadSize then ⟨none, true⟩ else ⟨none, false⟩

theorem crlfcrlf_ne_nil : crlf ++ crlf ≠ [] := by simp [crlf]

theorem find_crlfcrlf (stream : Bytes) :
    find stream (crlf ++ crlf) 0 = Search.indexOf (crlf ++ crlf) stream := find_start _ _

theorem length_of_find {stream : Bytes} {ending : Nat}
    (found : Search.indexOf (crlf ++ crlf) stream = some ending) : ending + 4 ≤ stream.length := by
  obtain ⟨before, after, rfl, rfl, _⟩ := Search.indexOf_eq_some crlfcrlf_ne_nil found
  simp only [crlf, List.length_append, List.length_cons, List.length_nil]
  omega

theorem length_lt_of_find {received more : Bytes} {ending : Nat}
    (outside : ¬ crlf ++ crlf <:+: received)
    (found : Search.indexOf (crlf ++ crlf) (received ++ more) = some ending) :
    received.length < ending + 4 := by
  obtain ⟨before, after, cut, rfl, _⟩ := Search.indexOf_eq_some crlfcrlf_ne_nil found
  by_contra inside
  apply outside
  have prefixed : before ++ (crlf ++ crlf) <+: received := by
    refine List.prefix_of_prefix_length_le ⟨after, cut.symm⟩ (List.prefix_append received more) ?_
    simp only [crlf, List.length_append, List.length_cons, List.length_nil]
    omega
  exact (List.suffix_append before (crlf ++ crlf)).isInfix.trans prefixed.isInfix

theorem headOf_exceeded {received more : Bytes} (outside : ¬ crlf ++ crlf <:+: received)
    (large : maximumRequestHeadSize ≤ received.length) : headOf (received ++ more) = ⟨none, true⟩ := by
  unfold headOf
  rw [find_crlfcrlf]
  cases found : Search.indexOf (crlf ++ crlf) (received ++ more) with
  | none =>
      have length : maximumRequestHeadSize ≤ (received ++ more).length := by
        rw [List.length_append]
        omega
      simp only [ge_iff_le, length, if_true]
  | some ending =>
      have behind := length_lt_of_find outside found
      have above : ending + 4 > maximumRequestHeadSize := by omega
      simp only [above, if_true]

theorem receiveRequestHead_eq {received : Bytes} {calls : List Recv} (running : .stopped ∉ calls)
    (outside : ¬ crlf ++ crlf <:+: received) (short : received.length < maximumRequestHeadSize) :
    receiveRequestHead received calls = headOf (received ++ delivered calls) := by
  have ended : headOf received = ⟨none, false⟩ := by
    unfold headOf
    rw [find_crlfcrlf, (Search.indexOf_eq_none_iff crlfcrlf_ne_nil).mpr outside]
    simp only [ge_iff_le, Nat.not_le.mpr short, if_false]
  induction calls generalizing received with
  | nil => rw [receiveRequestHead, delivered, List.append_nil, ended]
  | cons call calls ih =>
      obtain ⟨apart, later⟩ := not_or.mp (List.mem_cons.not.mp running)
      cases call with
      | stopped => exact absurd rfl apart
      | interrupted =>
          rw [receiveRequestHead, delivered]
          exact ih later outside short ended
      | failed => rw [receiveRequestHead, delivered, List.append_nil, ended]
      | closed => rw [receiveRequestHead, delivered, List.append_nil, ended]
      | chunk more =>
          rw [receiveRequestHead, delivered, ← List.append_assoc]
          simp only [find_crlfcrlf]
          cases found : Search.indexOf (crlf ++ crlf) (received ++ more) with
          | some ending =>
              have again := Search.indexOf_append_right crlfcrlf_ne_nil (delivered calls) found
              have inside := length_of_find found
              simp only [headOf, find_crlfcrlf, again, List.take_append_of_le_length inside]
          | none =>
              have clear := Search.not_infix_of_indexOf crlfcrlf_ne_nil found
              by_cases large : maximumRequestHeadSize ≤ (received ++ more).length
              · simp only [ge_iff_le, large, if_true, headOf_exceeded clear large]
              · simp only [ge_iff_le, large, if_false]
                refine ih later clear (Nat.not_le.mp large) ?_
                simp only [headOf, find_crlfcrlf, found, ge_iff_le, large, if_false]

theorem endsOnce_take {stream : Bytes} {ending : Nat}
    (found : Search.indexOf (crlf ++ crlf) stream = some ending) : EndsOnce (stream.take (ending + 4)) := by
  obtain ⟨before, after, rfl, rfl, _⟩ := Search.indexOf_eq_some crlfcrlf_ne_nil found
  have size : (before ++ (crlf ++ crlf)).length = before.length + 4 := by simp [crlf]
  have taken : (before ++ (crlf ++ crlf) ++ after).take (before.length + 4) = before ++ (crlf ++ crlf) := by
    rw [← size, List.take_left]
  rw [taken]
  refine ⟨List.suffix_append _ _, fun front rest cut => ?_⟩
  rw [cut, List.append_assoc] at found
  have first := Search.indexOf_le crlfcrlf_ne_nil found
  have length := congrArg List.length cut
  simp only [List.length_append] at length
  exact List.eq_nil_of_length_eq_zero (by omega)

theorem indexOf_of_endsOnce {stream head : Bytes} (start : head <+: stream) (once : EndsOnce head) :
    Search.indexOf (crlf ++ crlf) stream = some (head.length - 4) ∧ 4 ≤ head.length := by
  obtain ⟨rest, rfl⟩ := start
  obtain ⟨front, rfl⟩ := once.1
  have size : (front ++ (crlf ++ crlf)).length = front.length + 4 := by simp [crlf]
  have inside : crlf ++ crlf <:+: front ++ (crlf ++ crlf) ++ rest := ⟨front, rest, rfl⟩
  cases found : Search.indexOf (crlf ++ crlf) (front ++ (crlf ++ crlf) ++ rest) with
  | none => exact absurd inside (Search.not_infix_of_indexOf crlfcrlf_ne_nil found)
  | some ending =>
      have first := Search.indexOf_le crlfcrlf_ne_nil found
      obtain ⟨before, after, cut, rfl, _⟩ := Search.indexOf_eq_some crlfcrlf_ne_nil found
      have prefixed : before ++ (crlf ++ crlf) <+: front ++ (crlf ++ crlf) := by
        refine List.prefix_of_prefix_length_le ⟨after, cut.symm⟩ (List.prefix_append _ rest) ?_
        simp only [List.length_append]
        omega
      obtain ⟨left, same⟩ := prefixed
      have none := once.2 before left same.symm
      have length := congrArg List.length same
      rw [none] at length
      simp only [List.length_append, List.length_nil] at length
      rw [size]
      exact ⟨congrArg some (by omega), by omega⟩

theorem headOf_head_iff (stream head : Bytes) : (headOf stream).head = some head ↔
    head <+: stream ∧ EndsOnce head ∧ head.length ≤ maximumRequestHeadSize := by
  unfold headOf
  rw [find_crlfcrlf]
  constructor
  · intro returned
    cases found : Search.indexOf (crlf ++ crlf) stream with
    | none =>
        simp only [found] at returned
        split at returned <;> simp at returned
    | some ending =>
        simp only [found] at returned
        split at returned
        · simp at returned
        · rename_i short
          obtain rfl := Option.some.inj returned
          refine ⟨List.take_prefix _ _, endsOnce_take found, ?_⟩
          rw [List.length_take]
          omega
  · rintro ⟨start, once, short⟩
    obtain ⟨found, long⟩ := indexOf_of_endsOnce start once
    simp only [found, Nat.sub_add_cancel long, gt_iff_lt, Nat.not_lt.mpr short, if_false]
    rw [← List.prefix_iff_eq_take.mp start]

theorem headOf_exceeded_iff (stream : Bytes) : (headOf stream).exceededLimit = true ↔
    maximumRequestHeadSize ≤ stream.length ∧
      ¬ crlf ++ crlf <:+: stream.take maximumRequestHeadSize := by
  constructor
  · intro exceeded
    unfold headOf at exceeded
    rw [find_crlfcrlf] at exceeded
    cases found : Search.indexOf (crlf ++ crlf) stream with
    | none =>
        simp only [found] at exceeded
        split at exceeded
        · rename_i large
          have outside := Search.not_infix_of_indexOf crlfcrlf_ne_nil found
          exact ⟨large, fun inside => outside (inside.trans (List.take_prefix _ _).isInfix)⟩
        · simp at exceeded
    | some ending =>
        simp only [found] at exceeded
        split at exceeded
        · rename_i above
          have size := length_of_find found
          refine ⟨by omega, fun inside => ?_⟩
          obtain ⟨before, after, cut⟩ := inside
          have whole : stream = before ++ (crlf ++ crlf) ++ (after ++ stream.drop maximumRequestHeadSize) := by
            rw [← List.append_assoc, cut, List.take_append_drop]
          rw [whole] at found
          have first := Search.indexOf_le crlfcrlf_ne_nil found
          have length := congrArg List.length cut
          simp only [crlf, List.length_append, List.length_cons, List.length_nil, List.length_take] at length
          omega
        · simp at exceeded
  · rintro ⟨large, outside⟩
    have length : maximumRequestHeadSize ≤ (stream.take maximumRequestHeadSize).length := by
      rw [List.length_take]
      omega
    have exceeded := @headOf_exceeded _ (stream.drop maximumRequestHeadSize) outside length
    rw [List.take_append_drop] at exceeded
    rw [exceeded]

/-- The outcome is a function of the stream: its first head where that is short enough, the flag
where the limit is reached without one. A head that is returned passes the parser's first tests. -/
theorem receiveRequestHead_exact (calls : List Recv) (running : .stopped ∉ calls) :
    (∀ others, .stopped ∉ others → delivered others = delivered calls →
      receiveRequestHead [] others = receiveRequestHead [] calls) ∧
    (∀ head, (receiveRequestHead [] calls).head = some head ↔
      head <+: delivered calls ∧ EndsOnce head ∧ head.length ≤ 16384) ∧
    ((receiveRequestHead [] calls).exceededLimit = true ↔
      16384 ≤ (delivered calls).length ∧ ¬ crlf ++ crlf <:+: (delivered calls).take 16384) ∧
    (∀ head, (receiveRequestHead [] calls).head = some head → EndsOnce head ∧
      ¬ head.length > maximumRequestHeadSize ∧ (crlf ++ crlf).isSuffixOf head = true) := by
  have empty : ¬ crlf ++ crlf <:+: [] := fun inside => crlfcrlf_ne_nil (List.eq_nil_of_infix_nil inside)
  have received : ∀ others, .stopped ∉ others → receiveRequestHead [] others = headOf (delivered others) :=
    fun others apart => receiveRequestHead_eq apart empty (by decide)
  refine ⟨fun others apart same => ?_, fun head => ?_, ?_, fun head returned => ?_⟩
  · rw [received others apart, received calls running, same]
  · rw [received calls running]
    exact headOf_head_iff _ _
  · rw [received calls running]
    exact headOf_exceeded_iff _
  · rw [received calls running] at returned
    obtain ⟨_, once, short⟩ := (headOf_head_iff _ _).mp returned
    exact ⟨once, Nat.not_lt.mpr short, List.isSuffixOf_iff_suffix.mpr once.1⟩

theorem receiveRequestHead_exact_split :
    (receiveRequestHead [] [.chunk (bytes "GET /a HTTP/1.1\r\n\r"), .interrupted, .chunk (bytes "\nx")]).head =
        some (bytes "GET /a HTTP/1.1\r\n\r\n") ∧
      EndsOnce (bytes "GET /a HTTP/1.1\r\n\r\n") := by
  have returned : (receiveRequestHead []
      [.chunk (bytes "GET /a HTTP/1.1\r\n\r"), .interrupted, .chunk (bytes "\nx")]).head =
        some (bytes "GET /a HTTP/1.1\r\n\r\n") := by decide +kernel
  exact ⟨returned, ((receiveRequestHead_exact _ (by decide +kernel)).2.2.2 _ returned).1⟩

end NuvioEngine.Http
