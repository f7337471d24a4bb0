import NuvioEngine.Http.RequestHeadCore
import NuvioEngine.Lib.Strip

/-! Header lines: the loop over them accepts exactly the lists of sound fields. -/

namespace NuvioEngine.Http

/-- A header line: what stands before its first colon and behind it. -/
structure HeaderField where
  name : Bytes
  text : Bytes

namespace HeaderField

def line (field : HeaderField) : Bytes := field.name ++ [colon] ++ field.text

def value (field : HeaderField) : Bytes := trim field.text

/-- The name of the field, in any letter case. -/
def Named (field : HeaderField) (name : String) : Prop :=
  field.name.map toLower = (bytes name).map toLower

instance (field : HeaderField) (name : String) : Decidable (field.Named name) :=
  inferInstanceAs (Decidable (_ = _))

end HeaderField

def IsControl (byte : UInt8) : Prop := byte < 32 ∨ byte = 127

instance (byte : UInt8) : Decidable (IsControl byte) := inferInstanceAs (Decidable (_ ∨ _))

/-- An ASCII token. -/
def Token (name : Bytes) : Prop :=
  name ≠ [] ∧ ∀ byte ∈ name, 33 ≤ byte ∧ byte ≤ 126 ∧ byte ∉ separators

/-- A token of any bytes that are neither separators nor control bytes. -/
def ByteToken (name : Bytes) : Prop :=
  name ≠ [] ∧ ∀ byte ∈ name, byte ∉ separators ∧ ¬ IsControl byte

/-- The lines of header fields and the empty line behind them. -/
def headerText (fields : List HeaderField) : Bytes :=
  (fields.flatMap fun field => field.line ++ crlf) ++ crlf

/-- The only empty line is at the end. -/
def EndsOnce (head : Bytes) : Prop :=
  crlf ++ crlf <:+ head ∧ ∀ before after, head = before ++ (crlf ++ crlf) ++ after → after = []

theorem find_start (text needle : Bytes) : find text needle 0 = Search.indexOf needle text := by
  rw [find, List.drop_zero]
  exact Option.map_id'

theorem caseInsensitiveEqual_iff (left right : Bytes) :
    caseInsensitiveEqual left right = true ↔ left.map toLower = right.map toLower := by
  induction left generalizing right with
  | nil => cases right <;> simp [caseInsensitiveEqual]
  | cons first rest ih =>
      cases right with
      | nil => simp [caseInsensitiveEqual]
      | cons other others =>
          have tail := ih others
          simp only [caseInsensitiveEqual, Bool.and_eq_true, decide_eq_true_eq, List.length_cons,
            List.zip_cons_cons, List.all_cons, Nat.add_right_cancel_iff, List.map_cons,
            List.cons.injEq] at tail ⊢
          tauto

theorem named_iff (field : HeaderField) (name : String) :
    caseInsensitiveEqual field.name (bytes name) = true ↔ field.Named name :=
  caseInsensitiveEqual_iff _ _

theorem validHeaderName_iff (name : Bytes) : validHeaderName name = true ↔ Token name := by
  simp only [validHeaderName, Token, Bool.and_eq_true, Bool.not_eq_true', List.isEmpty_eq_false_iff,
    List.all_eq_true, decide_eq_true_eq, List.contains_eq_mem, decide_eq_false_iff_not]
  refine and_congr_right fun _ => forall₂_congr fun byte _ => ?_
  have bounds : (32 < byte ∧ byte < 127) ↔ 33 ≤ byte ∧ byte ≤ 126 := by
    simp only [UInt8.lt_iff_toNat_lt, UInt8.le_iff_toNat_le]
    change (32 < byte.toNat ∧ byte.toNat < 127) ↔ 33 ≤ byte.toNat ∧ byte.toNat ≤ 126
    omega
  rw [bounds, and_assoc]

theorem validHeaderValue_iff (value : Bytes) :
    validHeaderValue value = true ↔ ∀ byte ∈ value, IsControl byte → byte = tab := by
  simp only [validHeaderValue, List.all_eq_true, Bool.or_eq_true, Bool.and_eq_true, decide_eq_true_eq]
  refine forall₂_congr fun byte _ => ?_
  have low : byte < 32 ↔ ¬ 32 ≤ byte := by
    simp only [UInt8.lt_iff_toNat_lt, UInt8.le_iff_toNat_le]
    omega
  unfold IsControl
  rw [low]
  tauto

theorem validTarget_iff (target : Bytes) : validTarget target = true ↔
    target.head? = some 47 ∧ target.length ≤ 2048 ∧
      ∀ byte ∈ target, 33 ≤ byte ∧ byte ≤ 126 ∧ byte ≠ 92 ∧ byte ≠ 35 := by
  have bounds : ∀ byte : UInt8, byte < 127 ↔ byte ≤ 126 := by
    intro byte
    simp only [UInt8.lt_iff_toNat_lt, UInt8.le_iff_toNat_le]
    change byte.toNat < 127 ↔ byte.toNat ≤ 126
    omega
  have filled : target.head? = some 47 → target.isEmpty = false := by
    intro rooted
    cases target <;> simp_all
  simp only [validTarget, maximumTargetSize, Bool.and_eq_true, Bool.not_eq_true', decide_eq_true_eq,
    List.all_eq_true, bounds]
  constructor
  · rintro ⟨⟨⟨_, short⟩, rooted⟩, all⟩
    exact ⟨rooted, of_decide_eq_true short, fun byte member => by simpa [and_assoc] using all byte member⟩
  · rintro ⟨rooted, short, all⟩
    exact ⟨⟨⟨filled rooted, decide_eq_true short⟩, rooted⟩,
      fun byte member => by simpa [and_assoc] using all byte member⟩

theorem trim_eq_strip (value : Bytes) : trim value = Strip.strip isBlank value := rfl

theorem trim_trim (value : Bytes) : trim (trim value) = trim value := Strip.strip_strip value

theorem Token.no_blank {name : Bytes} (token : Token name) {byte : UInt8} (low : byte < 33) :
    byte ∉ name := by
  intro member
  exact absurd (token.2 byte member).1 (UInt8.not_le.mpr low)

theorem value_no_control {value : Bytes} (valid : ∀ byte ∈ trim value, IsControl byte → byte = tab)
    {byte : UInt8} (control : IsControl byte) (solid : isBlank byte = false) : byte ∉ value := by
  intro member
  have inside : byte ∈ trim value := (Strip.mem_strip_iff solid).mpr member
  obtain rfl := valid byte inside control
  exact absurd solid (by decide)

theorem line_no_lineEnd {field : HeaderField} (token : Token field.name)
    (valid : ∀ byte ∈ field.value, IsControl byte → byte = tab) :
    (13 : UInt8) ∉ field.line ∧ (10 : UInt8) ∉ field.line := by
  unfold HeaderField.line
  simp only [List.mem_append, List.mem_singleton, not_or]
  exact ⟨⟨⟨token.no_blank (by decide), by decide⟩, value_no_control valid (.inl (by decide)) (by decide)⟩,
    ⟨token.no_blank (by decide), by decide⟩, value_no_control valid (.inl (by decide)) (by decide)⟩

theorem Token.no_colon {name : Bytes} (token : Token name) : colon ∉ name := by
  intro member
  have apart := (token.2 colon member).2.2
  revert apart
  decide

/-- A header field the parser lets through, with what it does to the fields of interest. -/
structure Takes (field : HeaderField) (before after : HeaderFields) : Prop where
  name : Token field.name
  value : ∀ byte ∈ field.value, IsControl byte → byte = tab
  unencoded : ¬ field.Named "Transfer-Encoding"
  range : if field.Named "Range" then
      before.range = none ∧ field.value ≠ [] ∧ after.range = some field.value
    else after.range = before.range
  contentLength : if field.Named "Content-Length" then
      before.contentLength = none ∧ after.contentLength = parseContentLength field.value ∧
        after.contentLength ≠ none
    else after.contentLength = before.contentLength

theorem named_apart {field : HeaderField} (ranged : field.Named "Range") :
    ¬ field.Named "Content-Length" ∧ ¬ field.Named "Transfer-Encoding" := by
  unfold HeaderField.Named at ranged ⊢
  rw [ranged]
  decide +kernel

theorem Token.head {name text : Bytes} (token : Token name) :
    (name ++ text).head? ≠ some space ∧ (name ++ text).head? ≠ some tab := by
  obtain ⟨filled, all⟩ := token
  cases name with
  | nil => exact absurd rfl filled
  | cons first rest =>
      have bound := (all first List.mem_cons_self).1
      simp only [List.cons_append, List.head?_cons, ne_eq, Option.some.injEq]
      constructor
      · rintro rfl
        revert bound
        decide
      · rintro rfl
        revert bound
        decide

theorem find_colon {field : HeaderField} (apart : colon ∉ field.name) :
    find field.line [colon] 0 = some field.name.length := by
  simp only [find, List.drop_zero, HeaderField.line, Search.indexOf_append apart]
  rfl

section Step

variable {field : HeaderField} (token : Token field.name)
  (valid : ∀ byte ∈ field.value, IsControl byte → byte = tab)
include token valid

theorem range_step (ranged : field.Named "Range") (before after : HeaderFields) :
    ((if before.range.isSome || (trim field.text).isEmpty then .error .malformed
      else .ok { before with range := some (trim field.text) }) :
        Except RequestParseStatus HeaderFields) = .ok after ↔ Takes field before after := by
  obtain ⟨unsized, unencoded⟩ := named_apart ranged
  constructor
  · intro accepted
    split at accepted
    · simp at accepted
    · rename_i free
      obtain rfl := Except.ok.inj accepted
      simp only [Bool.or_eq_true, not_or, Option.not_isSome_iff_eq_none, List.isEmpty_iff] at free
      exact ⟨token, valid, unencoded, by rw [if_pos ranged]; exact ⟨free.1, free.2, rfl⟩,
        by rw [if_neg unsized]⟩
  · intro takes
    have range := takes.range
    have length := takes.contentLength
    rw [if_pos ranged] at range
    rw [if_neg unsized] at length
    have filled : trim field.text ≠ [] := range.2.1
    have free : (before.range.isSome || (trim field.text).isEmpty) = false := by
      rw [range.1, List.isEmpty_eq_false_iff.mpr filled]
      rfl
    rw [free]
    cases after
    simp_all [HeaderField.value]

theorem length_step (unranged : ¬ field.Named "Range") (unencoded : ¬ field.Named "Transfer-Encoding")
    (sized : field.Named "Content-Length") (before after : HeaderFields) :
    ((match parseContentLength (trim field.text) with
      | none => .error .malformed
      | some parsed =>
          if before.contentLength.isSome then .error .malformed
          else .ok { before with contentLength := some parsed }) :
        Except RequestParseStatus HeaderFields) = .ok after ↔ Takes field before after := by
  cases parsed : parseContentLength (trim field.text) with
  | none =>
      constructor
      · simp
      · intro takes
        have length := takes.contentLength
        rw [if_pos sized, HeaderField.value, parsed] at length
        exact absurd length.2.1 length.2.2
  | some count =>
      constructor
      · intro accepted
        simp only at accepted
        split at accepted
        · simp at accepted
        · rename_i free
          obtain rfl := Except.ok.inj accepted
          refine ⟨token, valid, unencoded, by rw [if_neg unranged], ?_⟩
          rw [if_pos sized, HeaderField.value, parsed]
          exact ⟨by simpa using free, rfl, by simp⟩
      · intro takes
        have range := takes.range
        have length := takes.contentLength
        rw [if_neg unranged] at range
        rw [if_pos sized, HeaderField.value, parsed] at length
        cases after
        simp_all

theorem other_step (unranged : ¬ field.Named "Range") (unencoded : ¬ field.Named "Transfer-Encoding")
    (unsized : ¬ field.Named "Content-Length") (before after : HeaderFields) :
    before = after ↔ Takes field before after := by
  constructor
  · rintro rfl
    exact ⟨token, valid, unencoded, by rw [if_neg unranged], by rw [if_neg unsized]⟩
  · intro takes
    have range := takes.range
    have length := takes.contentLength
    rw [if_neg unranged] at range
    rw [if_neg unsized] at length
    cases before
    cases after
    simp_all

end Step

theorem parseHeader_line {field : HeaderField} (apart : colon ∉ field.name)
    (before after : HeaderFields) :
    parseHeader field.line before = .ok after ↔ Takes field before after := by
  have name : substr field.line 0 field.name.length = field.name := by
    simp [substr, HeaderField.line]
  have text : field.line.drop (field.name.length + 1) = field.text := by
    simp [HeaderField.line]
  by_cases token : Token field.name
  · have start : field.line = field.name ++ ([colon] ++ field.text) := List.append_assoc _ _ _
    have solid := @Token.head _ ([colon] ++ field.text) token
    rw [← start] at solid
    by_cases valid : ∀ byte ∈ field.value, IsControl byte → byte = tab
    · have checked : validHeaderName field.name = true ∧ validHeaderValue (trim field.text) = true :=
        ⟨(validHeaderName_iff _).mpr token, (validHeaderValue_iff _).mpr valid⟩
      simp only [parseHeader, solid.1, solid.2, decide_false, Bool.or_self, Bool.false_eq_true,
        if_false, find_colon apart, name, text, checked.1, checked.2, Bool.not_true, named_iff]
      by_cases ranged : field.Named "Range"
      · rw [if_pos ranged]
        exact range_step token valid ranged before after
      · rw [if_neg ranged]
        by_cases encoded : field.Named "Transfer-Encoding"
        · rw [if_pos encoded]
          exact ⟨by simp, fun takes => absurd encoded takes.unencoded⟩
        · rw [if_neg encoded]
          by_cases sized : field.Named "Content-Length"
          · rw [if_pos sized]
            exact length_step token valid ranged encoded sized before after
          · rw [if_neg sized, Except.ok.injEq]
            exact other_step token valid ranged encoded sized before after
    · have rejected : validHeaderValue (trim field.text) = false := by
        rw [← Bool.not_eq_true, validHeaderValue_iff]
        exact valid
      simp only [parseHeader, solid.1, solid.2, decide_false, Bool.or_self, Bool.false_eq_true,
        if_false, find_colon apart, text, rejected, Bool.not_false, Bool.or_true, if_true]
      exact ⟨by simp, fun takes => absurd takes.value valid⟩
  · have rejected : validHeaderName field.name = false := by
      rw [← Bool.not_eq_true, validHeaderName_iff]
      exact token
    simp only [parseHeader, find_colon apart, name, rejected, Bool.not_false, Bool.true_or, if_true]
    constructor
    · intro accepted
      split at accepted <;> simp at accepted
    · exact fun takes => absurd takes.name token

theorem parseHeader_ok_iff (line : Bytes) (before after : HeaderFields) :
    parseHeader line before = .ok after ↔ ∃ field : HeaderField, field.line = line ∧
      Takes field before after := by
  constructor
  · intro accepted
    cases found : Search.indexOf [colon] line with
    | none =>
        simp only [parseHeader, find, List.drop_zero, found, Option.map_none] at accepted
        split at accepted <;> simp at accepted
    | some separator =>
        obtain ⟨name, text, rfl, _, outside⟩ := Search.indexOf_eq_some (by simp) found
        have apart : colon ∉ name := fun member => outside ((List.singleton_infix_iff _ _).mpr member)
        exact ⟨⟨name, text⟩, rfl, (@parseHeader_line ⟨name, text⟩ apart before after).mp accepted⟩
  · rintro ⟨field, rfl, takes⟩
    exact (parseHeader_line takes.name.no_colon before after).mpr takes

/-- What a list of header fields does to the fields of interest. -/
def TakesAll : List HeaderField → HeaderFields → HeaderFields → Prop
  | [], before, after => after = before
  | field :: rest, before, after => ∃ middle, Takes field before middle ∧ TakesAll rest middle after

theorem headerText_cons (field : HeaderField) (rest : List HeaderField) :
    headerText (field :: rest) = field.line ++ crlf ++ headerText rest := by
  simp [headerText]

/-- A part of the head that the loop still has to read: it ends in an empty line. -/
def Ends (rest : Bytes) : Prop := rest = crlf ∨ crlf ++ crlf <:+ rest

theorem Ends.tail {line rest : Bytes} (ends : crlf ++ crlf <:+ line ++ crlf ++ rest)
    (outside : ¬ crlf <:+: line) : Ends rest := by
  obtain ⟨front, same⟩ := ends
  rcases List.append_eq_append_iff.mp same with ⟨middle, ahead, behind⟩ | ⟨middle, _, rfl⟩
  · have last := congrArg List.getLast? ahead
    rcases middle with _ | ⟨first, _ | ⟨second, _ | ⟨third, _ | ⟨fourth, others⟩⟩⟩⟩
    · exact .inr (by rw [List.nil_append] at behind; rw [behind])
    · obtain ⟨rfl, _⟩ := List.cons.inj behind
      simp [crlf] at last
    · simp only [crlf, List.cons_append, List.nil_append, List.cons.injEq] at behind
      exact .inl behind.2.2.symm
    · simp only [crlf, List.cons_append, List.nil_append, List.cons.injEq] at behind
      obtain ⟨_, _, rfl, _⟩ := behind
      simp [crlf] at last
    · have whole : first :: second :: third :: fourth :: others = crlf ++ crlf := by
        have length := congrArg List.length behind
        simp only [crlf, List.length_append, List.length_cons, List.length_nil] at length
        have none : others = [] := List.eq_nil_of_length_eq_zero (by omega)
        have empty : rest = [] := List.eq_nil_of_length_eq_zero (by omega)
        rw [empty, List.append_nil] at behind
        exact behind.symm
      rw [whole, ← List.append_assoc] at ahead
      have line' := List.append_cancel_right ahead
      exact absurd ⟨front, [], by rw [line', List.append_nil]⟩ outside
  · exact .inr (List.suffix_append _ _)

/-- Where the loop stands: it has read up to the end of a line. -/
structure Stands (head : Bytes) (position : Nat) (rest : Bytes) : Prop where
  place : head.drop position = rest
  inside : position ≤ head.length
  behind : ∃ before, head = before ++ crlf ++ rest
  ends : Ends rest

theorem Stands.length {head rest : Bytes} {position : Nat} (stands : Stands head position rest) :
    rest.length = head.length - position := by
  rw [← stands.place, List.length_drop]

theorem Stands.next {head rest : Bytes} {position : Nat} (stands : Stands head position rest)
    (once : EndsOnce head) (more : crlf ++ crlf <:+ rest) :
    ∃ line tail, rest = line ++ crlf ++ tail ∧ line ≠ [] ∧
      Search.indexOf crlf rest = some line.length ∧ Stands head (line.length + position + 2) tail := by
  have present : crlf <:+: rest := (List.suffix_append crlf crlf).isInfix.trans more.isInfix
  cases found : Search.indexOf crlf rest with
  | none => exact absurd present (Search.not_infix_of_indexOf (by simp [crlf]) found)
  | some index =>
      obtain ⟨line, tail, cut, length, outside⟩ := Search.indexOf_eq_some (by simp [crlf]) found
      obtain ⟨before, whole⟩ := stands.behind
      refine ⟨line, tail, cut, ?_, congrArg some length.symm, ?_, ?_, ?_, ?_⟩
      · rintro rfl
        have empty := once.2 before tail (by rw [whole, cut]; simp)
        have size := more.length_le
        rw [cut, empty] at size
        simp [crlf] at size
      · rw [Nat.add_right_comm, Nat.add_comm, ← List.drop_drop, stands.place, cut]
        simp [crlf]
      · have size := congrArg List.length cut
        rw [stands.length] at size
        simp only [crlf, List.length_append, List.length_cons, List.length_nil] at size
        have inside := stands.inside
        omega
      · exact ⟨before ++ crlf ++ line, by rw [whole, cut]; simp⟩
      · exact Ends.tail (cut ▸ more) outside

theorem headerText_eq_crlf {fields : List HeaderField} (short : headerText fields = crlf) :
    fields = [] := by
  cases fields with
  | nil => rfl
  | cons field rest =>
      have length := congrArg List.length short
      rw [headerText_cons] at length
      simp only [headerText, HeaderField.line, crlf, List.length_append, List.length_cons,
        List.length_nil] at length
      omega

theorem done_iff (before after : HeaderFields) (remaining : Nat) :
    before = after ↔ ∃ fields, crlf = headerText fields ∧ fields.length ≤ remaining ∧
      TakesAll fields before after := by
  constructor
  · rintro rfl
    exact ⟨[], rfl, Nat.zero_le _, rfl⟩
  · rintro ⟨fields, text, _, takes⟩
    obtain rfl := headerText_eq_crlf text.symm
    exact takes.symm

theorem parseHeaders_done {head : Bytes} {remaining position : Nat} {before : HeaderFields}
    (stands : Stands head position crlf) :
    parseHeaders head remaining position before = .ok before := by
  have length := stands.length
  have stops : ¬ position < head.length - 2 := by
    simp only [crlf, List.length_cons, List.length_nil] at length
    omega
  rw [parseHeaders, if_neg stops]

theorem parseHeaders_reads {head rest line tail : Bytes} {position : Nat}
    (stands : Stands head position rest) (more : crlf ++ crlf <:+ rest)
    (cut : rest = line ++ crlf ++ tail) (filled : line ≠ [])
    (found : Search.indexOf crlf rest = some line.length) :
    position < head.length - 2 ∧ find head crlf position = some (line.length + position) ∧
      ¬ line.length + position = position ∧
      substr head position (line.length + position - position) = line := by
  have length := stands.length
  have size := more.length_le
  have positive := List.length_pos_iff.mpr filled
  refine ⟨?_, ?_, by omega, ?_⟩
  · simp only [crlf, List.length_append, List.length_cons, List.length_nil] at size
    omega
  · rw [find, stands.place, found]
    rfl
  · rw [Nat.add_sub_cancel, substr, stands.place, cut]
    simp

section Line

variable {head rest line tail : Bytes} {position : Nat} (stands : Stands head position rest)
  (more : crlf ++ crlf <:+ rest) (cut : rest = line ++ crlf ++ tail) (filled : line ≠ [])
  (found : Search.indexOf crlf rest = some line.length)

include stands more cut filled found

theorem parseHeaders_full (before : HeaderFields) :
    parseHeaders head 0 position before = .error .headerTooLarge := by
  obtain ⟨goes, located, ahead, -⟩ := parseHeaders_reads stands more cut filled found
  simp only [parseHeaders, goes, located, ahead, if_true, if_false]

theorem parseHeaders_line (remaining : Nat) {before after : HeaderFields} :
    parseHeaders head (remaining + 1) position before = .ok after ↔
      ∃ middle, parseHeader line before = .ok middle ∧
        parseHeaders head remaining (line.length + position + 2) middle = .ok after := by
  obtain ⟨goes, located, ahead, taken⟩ := parseHeaders_reads stands more cut filled found
  rw [parseHeaders]
  simp only [goes, located, ahead, taken, if_true, if_false]
  cases parsed : parseHeader line before with
  | error status => simp
  | ok next => simp

end Line

theorem parseHeaders_ok_iff {head : Bytes} (once : EndsOnce head) (remaining : Nat) {position : Nat}
    {rest : Bytes} (stands : Stands head position rest) (before after : HeaderFields) :
    parseHeaders head remaining position before = .ok after ↔ ∃ fields, rest = headerText fields ∧
      fields.length ≤ remaining ∧ TakesAll fields before after := by
  induction remaining generalizing position rest before with
  | zero =>
      rcases stands.ends with rfl | more
      · rw [parseHeaders_done stands, Except.ok.injEq]
        exact done_iff before after 0
      · obtain ⟨line, tail, cut, filled, found, _⟩ := stands.next once more
        rw [parseHeaders_full stands more cut filled found]
        constructor
        · simp
        · rintro ⟨fields, text, bounded, _⟩
          obtain rfl := List.eq_nil_of_length_eq_zero (Nat.le_zero.mp bounded)
          have size := more.length_le
          rw [text] at size
          simp [headerText, crlf] at size
  | succ remaining ih =>
      rcases stands.ends with rfl | more
      · rw [parseHeaders_done stands, Except.ok.injEq]
        exact done_iff before after (remaining + 1)
      · obtain ⟨line, tail, cut, filled, found, later⟩ := stands.next once more
        rw [parseHeaders_line stands more cut filled found]
        constructor
        · rintro ⟨middle, parsed, accepted⟩
          obtain ⟨field, rfl, takes⟩ := (parseHeader_ok_iff line before middle).mp parsed
          obtain ⟨fields, rfl, bounded, others⟩ := (ih later middle).mp accepted
          exact ⟨field :: fields, by rw [headerText_cons, cut], Nat.succ_le_succ bounded, middle, takes,
            others⟩
        · rintro ⟨fields, text, bounded, takes⟩
          cases fields with
          | nil =>
              have size := more.length_le
              rw [text] at size
              simp [headerText, crlf] at size
          | cons field others =>
              obtain ⟨middle, own, takesOthers⟩ := takes
              rw [headerText_cons] at text
              have same : some line.length = some field.line.length := by
                rw [← found, text]
                exact Search.indexOf_append (line_no_lineEnd own.name own.value).1
              rw [cut, List.append_assoc, List.append_assoc] at text
              obtain ⟨rfl, behind⟩ := List.append_inj text (Option.some.inj same)
              have parsed := (parseHeader_ok_iff field.line before middle).mpr ⟨field, rfl, own⟩
              exact ⟨middle, parsed, (ih later middle).mpr ⟨others, List.append_cancel_left behind,
                Nat.le_of_succ_le_succ bounded, takesOthers⟩⟩

/-- The values of the range fields. -/
def ranges (fields : List HeaderField) : List Bytes :=
  (fields.filter fun field => field.Named "Range").map HeaderField.value

/-- The content lengths that are given, where they can be read. -/
def lengths (fields : List HeaderField) : List (Option Nat) :=
  (fields.filter fun field => field.Named "Content-Length").map fun field =>
    parseContentLength field.value

theorem ranges_cons (field : HeaderField) (rest : List HeaderField) :
    ranges (field :: rest) = ranges [field] ++ ranges rest := by
  by_cases ranged : field.Named "Range" <;> simp [ranges, ranged]

theorem lengths_cons (field : HeaderField) (rest : List HeaderField) :
    lengths (field :: rest) = lengths [field] ++ lengths rest := by
  by_cases sized : field.Named "Content-Length" <;> simp [lengths, sized]

/-- What does not depend on the other fields. -/
structure Sound (field : HeaderField) : Prop where
  name : Token field.name
  value : ∀ byte ∈ field.value, IsControl byte → byte = tab
  unencoded : ¬ field.Named "Transfer-Encoding"
  filled : field.Named "Range" → field.value ≠ []

theorem toList_concat {α : Type} {before after : Option α} {item : α} :
    after.toList = before.toList ++ [item] ↔ before = none ∧ after = some item := by
  cases before <;> cases after <;> simp

theorem takes_iff (field : HeaderField) (before after : HeaderFields) :
    Takes field before after ↔ Sound field ∧
      after.range.toList = before.range.toList ++ ranges [field] ∧
      after.contentLength.toList.map some = before.contentLength.toList.map some ++ lengths [field] := by
  have range : (if field.Named "Range" then before.range = none ∧ field.value ≠ [] ∧
        after.range = some field.value else after.range = before.range) ↔
      (field.Named "Range" → field.value ≠ []) ∧
        after.range.toList = before.range.toList ++ ranges [field] := by
    by_cases ranged : field.Named "Range"
    · simp only [ranged, if_true, ranges, List.filter_cons_of_pos, decide_true, List.filter_nil,
        List.map_cons, List.map_nil, toList_concat]
      tauto
    · simp only [ranged, if_false, ranges, List.filter_cons_of_neg, decide_false, Bool.false_eq_true,
        not_false_iff, List.filter_nil, List.map_nil, List.append_nil, false_imp_iff, true_and]
      cases before.range <;> cases after.range <;> simp
  have length : (if field.Named "Content-Length" then before.contentLength = none ∧
        after.contentLength = parseContentLength field.value ∧ after.contentLength ≠ none
      else after.contentLength = before.contentLength) ↔
      after.contentLength.toList.map some =
        before.contentLength.toList.map some ++ lengths [field] := by
    by_cases sized : field.Named "Content-Length"
    · simp only [sized, if_true, lengths, List.filter_cons_of_pos, decide_true, List.filter_nil,
        List.map_cons, List.map_nil]
      cases before.contentLength <;> cases after.contentLength <;> simp
    · simp only [sized, if_false, lengths, List.filter_cons_of_neg, decide_false, Bool.false_eq_true,
        not_false_iff, List.filter_nil, List.map_nil, List.append_nil]
      cases before.contentLength <;> cases after.contentLength <;> simp
  constructor
  · intro takes
    obtain ⟨filled, ranged⟩ := range.mp takes.range
    exact ⟨⟨takes.name, takes.value, takes.unencoded, filled⟩, ranged, length.mp takes.contentLength⟩
  · rintro ⟨sound, ranged, sized⟩
    exact ⟨sound.name, sound.value, sound.unencoded, range.mpr ⟨sound.filled, ranged⟩, length.mpr sized⟩

/-- An option that holds what two lists have together can be filled from one after the other. -/
theorem toList_append {α β : Type} (wrap : α → β) {before after : Option α} {first second : List β}
    (same : after.toList.map wrap = before.toList.map wrap ++ (first ++ second)) :
    ∃ middle : Option α, middle.toList.map wrap = before.toList.map wrap ++ first ∧
      after.toList.map wrap = middle.toList.map wrap ++ second := by
  cases first with
  | nil => exact ⟨before, by simp, by simpa using same⟩
  | cons item others =>
      have length := congrArg List.length same
      have bound : after.toList.length ≤ 1 := Option.length_toList_le
      simp only [List.length_append, List.length_cons, List.length_map] at length
      obtain rfl : second = [] := List.eq_nil_of_length_eq_zero (by omega)
      exact ⟨after, by simpa using same, by simp⟩

theorem takesAll_iff (fields : List HeaderField) (before after : HeaderFields) :
    TakesAll fields before after ↔ (∀ field ∈ fields, Sound field) ∧
      after.range.toList = before.range.toList ++ ranges fields ∧
      after.contentLength.toList.map some = before.contentLength.toList.map some ++ lengths fields := by
  induction fields generalizing before with
  | nil =>
      simp only [TakesAll, ranges, lengths, List.filter_nil, List.map_nil, List.append_nil]
      constructor
      · rintro rfl
        simp
      · rintro ⟨_, range, length⟩
        cases before with
        | mk range₁ length₁ =>
            cases after with
            | mk range₂ length₂ =>
                cases range₁ <;> cases range₂ <;> cases length₁ <;> cases length₂ <;> simp_all
  | cons field rest ih =>
      simp only [TakesAll, takes_iff, ih, List.forall_mem_cons]
      rw [ranges_cons field rest, lengths_cons field rest]
      constructor
      · rintro ⟨middle, ⟨own, range, length⟩, others, ranged, sized⟩
        exact ⟨⟨own, others⟩, by rw [ranged, range, List.append_assoc],
          by rw [sized, length, List.append_assoc]⟩
      · rintro ⟨⟨own, others⟩, range, length⟩
        obtain ⟨middleRange, ranged, rangedLater⟩ := @toList_append _ _ id before.range after.range
          (ranges [field]) (ranges rest) (by simpa using range)
        obtain ⟨middleLength, sized, sizedLater⟩ := toList_append some length
        simp only [List.map_id_fun, id_eq] at ranged rangedLater
        exact ⟨⟨middleRange, middleLength⟩, ⟨own, ranged, sized⟩, others, rangedLater, sizedLater⟩

end NuvioEngine.Http
