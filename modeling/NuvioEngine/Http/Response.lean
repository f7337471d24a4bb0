import NuvioEngine.Http.ResponseCore
import NuvioEngine.Http.ByteRangeHeader
import NuvioEngine.Http.RequestHead
import Mathlib.Data.Nat.Digits.Lemmas

/-! Responses are well formed, and their fields say what is sent. -/

namespace NuvioEngine.Http

theorem toNat_ofNat_digit {digit : Nat} (small : digit < 10) : (UInt8.ofNat (48 + digit)).toNat = 48 + digit := by
  rw [UInt8.toNat_ofNat']
  omega

theorem isDigit_ofNat {digit : Nat} (small : digit < 10) : isDigit (UInt8.ofNat (48 + digit)) = true := by
  simp only [isDigit, Bool.and_eq_true, decide_eq_true_eq, UInt8.le_iff_toNat_le, toNat_ofNat_digit small]
  change 48 ≤ 48 + digit ∧ 48 + digit ≤ 57
  omega

theorem mem_toDecimal {value : Nat} {byte : UInt8} (member : byte ∈ toDecimal value) : isDigit byte = true := by
  unfold toDecimal at member
  split at member
  · obtain rfl := List.mem_singleton.mp member
    rfl
  · rw [List.mem_reverse] at member
    obtain ⟨digit, listed, rfl⟩ := List.mem_map.mp member
    exact isDigit_ofNat (Nat.digits_lt_base (by decide) listed)

theorem toDecimal_ne_nil (value : Nat) : toDecimal value ≠ [] := by
  unfold toDecimal
  split
  · simp
  · rename_i positive
    simp [Nat.digits_eq_nil_iff_eq_zero, positive]

theorem decimal_digits (digits : List Nat) (small : ∀ digit ∈ digits, digit < 10) :
    decimal (digits.map fun digit => UInt8.ofNat (48 + digit)).reverse = Nat.ofDigits 10 digits := by
  induction digits with
  | nil => rfl
  | cons digit rest ih =>
      obtain ⟨own, others⟩ := List.forall_mem_cons.mp small
      have tail := ih others
      unfold decimal at tail ⊢
      rw [List.map_cons, List.reverse_cons, List.foldl_append, tail, List.foldl_cons, List.foldl_nil,
        toNat_ofNat_digit own, Nat.ofDigits_cons]
      omega

theorem decimal_toDecimal (value : Nat) : decimal (toDecimal value) = value := by
  unfold toDecimal
  split
  · rename_i zero
    rw [zero]
    rfl
  · rw [decimal_digits _ fun digit member => Nat.digits_lt_base (by decide) member, Nat.ofDigits_digits]

theorem numeral_toDecimal {value : Nat} (bounded : value < 2 ^ 64) : Numeral (toDecimal value) value :=
  ⟨[], toDecimal value, [], by simp, by simp [Blank], by simp [Blank], toDecimal_ne_nil value,
    fun _ => mem_toDecimal, decimal_toDecimal value, bounded⟩

/-- No empty line but perhaps the last. -/
def OnlyAtEnd (text : Bytes) : Prop := ∀ before after, text = before ++ (crlf ++ crlf) ++ after → after = []

theorem OnlyAtEnd.cons {byte : UInt8} {text : Bytes} (only : OnlyAtEnd text) (other : byte ≠ 13) :
    OnlyAtEnd (byte :: text) := by
  intro before after cut
  cases before with
  | nil => exact absurd (List.cons.inj cut).1 other
  | cons first rest => exact only rest after (List.cons.inj cut).2

theorem OnlyAtEnd.lineEnd {text : Bytes} (only : OnlyAtEnd text) (other : text.head? ≠ some 13) :
    OnlyAtEnd (crlf ++ text) := by
  intro before after cut
  rcases before with _ | ⟨first, _ | ⟨second, rest⟩⟩
  · simp only [crlf, List.cons_append, List.nil_append, List.cons.injEq, true_and] at cut
    simp [cut] at other
  · simp [crlf] at cut
  · simp only [crlf, List.cons_append, List.nil_append, List.cons.injEq] at cut
    exact only rest after (by simpa [crlf] using cut.2.2)

theorem OnlyAtEnd.line {line text : Bytes} (only : OnlyAtEnd (crlf ++ text)) (unbroken : (13 : UInt8) ∉ line) :
    OnlyAtEnd (line ++ crlf ++ text) := by
  rw [List.append_assoc]
  induction line with
  | nil => exact only
  | cons byte rest ih =>
      simp only [List.mem_cons, not_or] at unbroken
      exact (ih unbroken.2).cons (Ne.symm unbroken.1)

theorem onlyAtEnd_crlf : OnlyAtEnd (crlf ++ crlf) := by
  intro before after cut
  have length := congrArg List.length cut
  simp only [crlf, List.length_append, List.length_cons, List.length_nil] at length
  exact List.eq_nil_of_length_eq_zero (by omega)

theorem headerText_head {field : HeaderField} (token : Token field.name) (rest : List HeaderField) :
    (headerText (field :: rest)).head? ≠ some 13 := by
  obtain ⟨filled, all⟩ := token
  rw [headerText_cons, HeaderField.line]
  cases name : field.name with
  | nil => exact absurd name filled
  | cons first others =>
      have bound := (all first (by simp [name])).1
      simp only [List.cons_append, List.head?_cons, ne_eq, Option.some.injEq]
      rintro rfl
      revert bound
      decide

theorem onlyAtEnd_headerText {line : Bytes} (fields : List HeaderField)
    (unbroken : (13 : UInt8) ∉ line) (token : ∀ field ∈ fields, Token field.name)
    (valid : ∀ field ∈ fields, ∀ byte ∈ field.value, IsControl byte → byte = tab) :
    OnlyAtEnd (line ++ crlf ++ headerText fields) := by
  induction fields generalizing line with
  | nil => exact onlyAtEnd_crlf.line unbroken
  | cons field rest ih =>
      obtain ⟨own, others⟩ := List.forall_mem_cons.mp token
      obtain ⟨ownValue, otherValues⟩ := List.forall_mem_cons.mp valid
      refine OnlyAtEnd.line (OnlyAtEnd.lineEnd ?_ (headerText_head own rest)) unbroken
      rw [headerText_cons]
      exact ih (line_no_lineEnd own ownValue).1 others otherValues

def statusLine (status : ResponseStatus) : Bytes :=
  bytes "HTTP/1.1 " ++ toDecimal status.code ++ [space] ++ status.reasonPhrase

/-- The head of a response: a status line and sound fields. -/
structure IsResponseHead (headers : Bytes) (status : ResponseStatus) (fields : List HeaderField) : Prop where
  text : headers = statusLine status ++ crlf ++ headerText fields
  names : ∀ field ∈ fields, Token field.name
  values : ∀ field ∈ fields, ∀ byte ∈ field.value, IsControl byte → byte = tab

theorem statusLine_no_lineEnd (status : ResponseStatus) :
    (13 : UInt8) ∉ statusLine status ∧ (10 : UInt8) ∉ statusLine status := by
  cases status <;> decide +kernel

theorem IsResponseHead.endsOnce {headers : Bytes} {status : ResponseStatus} {fields : List HeaderField}
    (head : IsResponseHead headers status fields) : EndsOnce headers := by
  rw [head.text]
  refine ⟨?_, onlyAtEnd_headerText fields (statusLine_no_lineEnd status).1 head.names head.values⟩
  rcases List.eq_nil_or_concat fields with rfl | ⟨others, last, rfl⟩
  · exact ⟨statusLine status, by simp [headerText]⟩
  · refine ⟨statusLine status ++ crlf ++ (others.flatMap fun field => field.line ++ crlf) ++ last.line, ?_⟩
    simp [headerText]

theorem IsResponseHead.paired {headers : Bytes} {status : ResponseStatus} {fields : List HeaderField}
    (head : IsResponseHead headers status fields) : Paired headers := by
  rw [head.text]
  exact (paired_headerText fields head.names head.values).line (statusLine_no_lineEnd status)

/-- A field as it is printed, with a space in front of its value. -/
def printed (name : String) (value : Bytes) : HeaderField := ⟨bytes name, [space] ++ value⟩

def commonFields : List HeaderField :=
  [printed "Accept-Ranges" (bytes "bytes"), printed "Access-Control-Allow-Origin" (bytes "*"),
    printed "Access-Control-Allow-Headers" (bytes "Range"),
    printed "Access-Control-Expose-Headers" (bytes "Content-Length, Content-Range"),
    printed "transferMode.dlna.org" (bytes "Streaming"), printed "Connection" (bytes "close")]

def errorFields (status : ResponseStatus) (resourceSize : Nat) : List HeaderField :=
  commonFields ++ (if status = .methodNotAllowed then [printed "Allow" (bytes "GET, HEAD")] else []) ++
    (if status = .rangeNotSatisfiable then
      [printed "Content-Range" (bytes "bytes */" ++ toDecimal resourceSize)] else []) ++
    [printed "Content-Length" (toDecimal 0)]

def contentRange (range : ByteRange) (resourceSize : Nat) : Bytes :=
  bytes "bytes " ++ toDecimal range.start ++ [dash] ++ toDecimal range.last ++ [slash] ++
    toDecimal resourceSize

def contentLength (range : Option ByteRange) : Nat := (range.map ByteRange.length).getD 0

theorem contentLength_none : contentLength none = 0 := by
  rw [contentLength, Option.map_none, Option.getD_none]

theorem contentLength_some (range : ByteRange) : contentLength (some range) = range.length := by
  rw [contentLength, Option.map_some, Option.getD_some]

def bodyFields (status : ResponseStatus) (range : Option ByteRange) (resourceSize : Nat)
    (contentType : Bytes) : List HeaderField :=
  commonFields ++ [printed "Content-Type"
      (if validContentType contentType then contentType else bytes "application/octet-stream"),
    printed "Content-Length" (toDecimal (contentLength range))] ++
    if status = .partialContent then
      (range.map fun range => printed "Content-Range" (contentRange range resourceSize)).toList
    else []

theorem headerText_append (front back : List HeaderField) :
    headerText (front ++ back) = (front.flatMap fun field => field.line ++ crlf) ++ headerText back := by
  simp [headerText]

theorem appendStatusLine_nil (status : ResponseStatus) : appendStatusLine [] status = statusLine status ++ crlf := by
  simp [appendStatusLine, statusLine]

theorem appendCommonHeaders_eq (output : Bytes) :
    appendCommonHeaders output = output ++ commonFields.flatMap fun field => field.line ++ crlf := by
  have same : (commonFields.flatMap fun field => field.line ++ crlf) =
      bytes "Accept-Ranges: bytes\r\n" ++ (bytes "Access-Control-Allow-Origin: *\r\n" ++
      (bytes "Access-Control-Allow-Headers: Range\r\n" ++
      (bytes "Access-Control-Expose-Headers: Content-Length, Content-Range\r\n" ++
      (bytes "transferMode.dlna.org: Streaming\r\n" ++ bytes "Connection: close\r\n")))) := by
    decide +kernel
  rw [same]
  simp only [appendCommonHeaders, List.append_assoc]

theorem printed_line {name : String} {label : Bytes} (same : label = bytes name ++ [colon] ++ [space])
    (value : Bytes) : label ++ value = (printed name value).line := by
  rw [same]
  simp [printed, HeaderField.line]

theorem buildErrorResponse_text (status : ResponseStatus) (resourceSize : Nat) :
    buildErrorResponse status resourceSize =
      statusLine status ++ crlf ++ headerText (errorFields status resourceSize) := by
  have last : bytes "Content-Length: 0\r\n\r\n" = headerText [printed "Content-Length" (toDecimal 0)] := by
    decide +kernel
  have allow : bytes "Allow: GET, HEAD\r\n" = (printed "Allow" (bytes "GET, HEAD")).line ++ crlf := by
    decide +kernel
  have range : bytes "Content-Range: bytes */" ++ toDecimal resourceSize =
      (printed "Content-Range" (bytes "bytes */" ++ toDecimal resourceSize)).line := by
    have label : bytes "Content-Range: bytes */" = bytes "Content-Range: " ++ bytes "bytes */" := by
      decide +kernel
    have named : bytes "Content-Range: " = bytes "Content-Range" ++ [colon] ++ [space] := by decide +kernel
    rw [label, List.append_assoc]
    exact printed_line named _
  unfold buildErrorResponse errorFields
  simp only [headerText_append, List.flatMap_append, appendCommonHeaders_eq, appendStatusLine_nil, last, allow]
  generalize headerText [printed "Content-Length" (toDecimal 0)] = ending
  generalize (printed "Allow" (bytes "GET, HEAD")) = allowed
  by_cases rejected : status = .rangeNotSatisfiable
  · have other : status ≠ .methodNotAllowed := by simp [rejected]
    simp only [if_pos rejected, if_neg other, List.flatMap_cons, List.flatMap_nil, List.append_nil, ← range, List.append_assoc]
  · by_cases refused : status = .methodNotAllowed
    · simp only [if_neg rejected, if_pos refused, List.flatMap_cons, List.flatMap_nil, List.append_nil, List.append_assoc]
    · simp only [if_neg rejected, if_neg refused, List.flatMap_nil, List.append_nil, List.append_assoc]

theorem buildBodyResponse_text (method : HttpMethod) (status : ResponseStatus) (range : Option ByteRange)
    (resourceSize : Nat) (contentType : Bytes) :
    (buildBodyResponse method status range resourceSize contentType).headers =
      statusLine status ++ crlf ++ headerText (bodyFields status range resourceSize contentType) := by
  have kind : ∀ value, bytes "Content-Type: " ++ value = (printed "Content-Type" value).line :=
    printed_line (by decide +kernel)
  have length : ∀ value, bytes "Content-Length: " ++ value = (printed "Content-Length" value).line :=
    printed_line (by decide +kernel)
  have placed : ∀ range : ByteRange, bytes "Content-Range: bytes " ++ toDecimal range.start ++ [dash] ++
      toDecimal range.last ++ [slash] ++ toDecimal resourceSize =
        (printed "Content-Range" (contentRange range resourceSize)).line := by
    intro range
    have label : bytes "Content-Range: bytes " = bytes "Content-Range: " ++ bytes "bytes " := by
      decide +kernel
    have named : ∀ value, bytes "Content-Range: " ++ value = (printed "Content-Range" value).line :=
      printed_line (by decide +kernel)
    rw [← named, contentRange, label]
    simp only [List.append_assoc]
  unfold buildBodyResponse bodyFields
  simp only [headerText, List.flatMap_append, List.flatMap_cons, List.flatMap_nil, appendCommonHeaders_eq,
    appendStatusLine_nil, List.append_nil, ← kind, ← length]
  cases range with
  | none =>
      simp only [contentLength_none, Option.map_none, Option.toList_none, ite_self, List.flatMap_nil,
        List.append_nil, List.append_assoc]
  | some range =>
      rw [contentLength_some]
      by_cases cut : status = .partialContent
      · simp only [if_pos cut, Option.map_some, Option.toList_some, List.flatMap_cons, List.flatMap_nil,
          List.append_nil, ← placed, List.append_assoc]
      · simp only [if_neg cut, List.flatMap_nil, List.append_nil, List.append_assoc]

def Clean (value : Bytes) : Prop := ∀ byte ∈ value, ¬ IsControl byte

instance (value : Bytes) : Decidable (Clean value) := inferInstanceAs (Decidable (∀ _ ∈ _, _))

theorem clean_toDecimal (value : Nat) : Clean (toDecimal value) := by
  intro byte member control
  have digit := mem_toDecimal member
  simp only [isDigit, Bool.and_eq_true, decide_eq_true_eq] at digit
  unfold IsControl at control
  simp only [UInt8.lt_iff_toNat_lt, UInt8.le_iff_toNat_le] at digit control
  rcases control with low | rfl
  · have bound : (48 : UInt8).toNat ≤ byte.toNat := digit.1
    change byte.toNat < 32 at low
    change 48 ≤ byte.toNat at bound
    omega
  · exact absurd digit.2 (by decide)

theorem Clean.append {left right : Bytes} (first : Clean left) (second : Clean right) : Clean (left ++ right) := by
  intro byte member
  exact (List.mem_append.mp member).elim (first byte) (second byte)

theorem clean_singleton {byte : UInt8} (printable : ¬ IsControl byte) : Clean [byte] := by
  intro other member
  rwa [List.mem_singleton.mp member]

theorem clean_contentRange (range : ByteRange) (resourceSize : Nat) : Clean (contentRange range resourceSize) := by
  have label : Clean (bytes "bytes ") := by decide +kernel
  have dashes : Clean [dash] := clean_singleton (by decide)
  have slashes : Clean [slash] := clean_singleton (by decide)
  exact ((((label.append (clean_toDecimal _)).append dashes).append (clean_toDecimal _)).append
    slashes).append (clean_toDecimal _)

theorem clean_contentType (contentType : Bytes) :
    Clean (if validContentType contentType then contentType else bytes "application/octet-stream") := by
  split
  · rename_i valid
    intro byte member control
    have bounds : 33 ≤ byte ∧ byte < 127 := by
      unfold validContentType at valid
      split at valid
      · simp at valid
      · simpa using List.all_eq_true.mp valid byte member
    unfold IsControl at control
    rcases control with low | rfl
    · exact absurd (UInt8.lt_of_le_of_lt bounds.1 low) (by decide)
    · exact absurd bounds.2 (by decide)
  · decide +kernel

theorem value_printed (name : String) (value : Bytes) : (printed name value).value = trim value := by
  have spaced : ∀ byte ∈ [space], isBlank byte = true := by
    intro byte member
    rw [List.mem_singleton.mp member]
    decide
  have padded := @Strip.strip_pad _ isBlank [space] value [] spaced (by simp)
  rw [List.append_nil] at padded
  exact padded

/-- A field of the responses: its name is a token and its value has no control bytes. -/
structure Plain (field : HeaderField) : Prop where
  name : Token field.name
  value : ∀ byte ∈ field.value, IsControl byte → byte = tab

theorem plain_printed {name : String} {value : Bytes} (token : validHeaderName (bytes name) = true)
    (clean : Clean value) : Plain (printed name value) := by
  refine ⟨(validHeaderName_iff _).mp token, fun byte member control => absurd control (clean byte ?_)⟩
  rw [value_printed] at member
  obtain ⟨left, right, _, _, cut⟩ := Strip.exists_strip isBlank value
  rw [cut, ← trim_eq_strip]
  simp [member]

theorem plain_commonFields : ∀ field ∈ commonFields, Plain field := by
  simp only [commonFields, List.forall_mem_cons]
  refine ⟨?_, ?_, ?_, ?_, ?_, ?_, by simp⟩ <;> exact plain_printed (by decide +kernel) (by decide +kernel)

theorem plain_errorFields (status : ResponseStatus) (resourceSize : Nat) :
    ∀ field ∈ errorFields status resourceSize, Plain field := by
  intro field member
  simp only [errorFields, List.mem_append] at member
  rcases member with ((common | allowed) | ranged) | sized
  · exact plain_commonFields field common
  · split at allowed
    · obtain rfl := List.mem_singleton.mp allowed
      exact plain_printed (by decide +kernel) (by decide +kernel)
    · simp at allowed
  · split at ranged
    · obtain rfl := List.mem_singleton.mp ranged
      have label : Clean (bytes "bytes */") := by decide +kernel
      exact plain_printed (by decide +kernel) (label.append (clean_toDecimal resourceSize))
    · simp at ranged
  · obtain rfl := List.mem_singleton.mp sized
    exact plain_printed (by decide +kernel) (clean_toDecimal 0)

theorem plain_bodyFields (status : ResponseStatus) (range : Option ByteRange) (resourceSize : Nat)
    (contentType : Bytes) : ∀ field ∈ bodyFields status range resourceSize contentType, Plain field := by
  intro field member
  simp only [bodyFields, List.mem_append, List.mem_cons, List.not_mem_nil, or_false] at member
  rcases member with (common | rfl | rfl) | ranged
  · exact plain_commonFields field common
  · exact plain_printed (by decide +kernel) (clean_contentType contentType)
  · exact plain_printed (by decide +kernel) (clean_toDecimal _)
  · split at ranged
    · cases range with
      | none => simp at ranged
      | some range =>
          simp only [Option.map_some, Option.toList_some, List.mem_singleton] at ranged
          subst ranged
          exact plain_printed (by decide +kernel) (clean_contentRange range resourceSize)
    · simp at ranged

/-- The fields of a name. -/
def named (name : String) (fields : List HeaderField) : List HeaderField :=
  fields.filter fun field => field.Named name

theorem named_append (name : String) (front back : List HeaderField) :
    named name (front ++ back) = named name front ++ named name back := List.filter_append _ _

theorem named_nil (name : String) : named name [] = [] := rfl

theorem named_commonFields : named "Content-Length" commonFields = [] ∧
    named "Content-Range" commonFields = [] := by
  constructor <;> simp only [named, commonFields, List.filter_eq_nil_iff] <;> decide +kernel

theorem named_printed {name other : String} {value : Bytes}
    (apart : (bytes other).map toLower ≠ (bytes name).map toLower) :
    named name [printed other value] = [] := by
  have unnamed : ¬ (printed other value).Named name := apart
  simp [named, unnamed]

theorem named_printed_self (name : String) (value : Bytes) :
    named name [printed name value] = [printed name value] := by
  have own : (printed name value).Named name := rfl
  simp [named, own]

theorem named_errorFields (status : ResponseStatus) (resourceSize : Nat) :
    named "Content-Length" (errorFields status resourceSize) = [printed "Content-Length" (toDecimal 0)] := by
  have ranged := @named_printed "Content-Length" "Content-Range" (bytes "bytes */" ++ toDecimal resourceSize)
    (by decide +kernel)
  have allowed := @named_printed "Content-Length" "Allow" (bytes "GET, HEAD") (by decide +kernel)
  unfold errorFields
  rw [named_append, named_append, named_append, named_commonFields.1, named_printed_self]
  split_ifs <;> simp only [ranged, allowed, named_nil, List.nil_append]

theorem named_bodyFields (status : ResponseStatus) (range : Option ByteRange) (resourceSize : Nat)
    (contentType : Bytes) :
    named "Content-Length" (bodyFields status range resourceSize contentType) =
      [printed "Content-Length" (toDecimal (contentLength range))] := by
  have kind := fun value => @named_printed "Content-Length" "Content-Type" value (by decide +kernel)
  have ranged := fun value => @named_printed "Content-Length" "Content-Range" value (by decide +kernel)
  have pair : ∀ first second : HeaderField, [first, second] = [first] ++ [second] := fun _ _ => rfl
  unfold bodyFields
  rw [named_append, named_append, named_commonFields.1, pair, named_append, kind, named_printed_self]
  split_ifs
  · cases range with
    | none => simp only [Option.map_none, Option.toList_none, named_nil, List.nil_append, List.append_nil]
    | some range =>
        simp only [Option.map_some, Option.toList_some, ranged, List.nil_append, List.append_nil]
  · simp only [named_nil, List.nil_append, List.append_nil]

theorem named_bodyFields_range (range : ByteRange) (resourceSize : Nat) (contentType : Bytes) :
    named "Content-Range" (bodyFields .partialContent (some range) resourceSize contentType) =
      [printed "Content-Range" (contentRange range resourceSize)] := by
  have kind := fun value => @named_printed "Content-Range" "Content-Type" value (by decide +kernel)
  have sized := fun value => @named_printed "Content-Range" "Content-Length" value (by decide +kernel)
  have pair : ∀ first second : HeaderField, [first, second] = [first] ++ [second] := fun _ _ => rfl
  unfold bodyFields
  rw [named_append, named_append, named_commonFields.2, pair, named_append, kind, sized, if_pos rfl,
    Option.map_some, Option.toList_some, named_printed_self]
  rfl

theorem lengths_eq {fields : List HeaderField} {length : Nat} (bounded : length < 2 ^ 64)
    (only : named "Content-Length" fields = [printed "Content-Length" (toDecimal length)]) :
    lengths fields = [some length] := by
  have read : parseContentLength (trim (toDecimal length)) = some length := by
    have numeral := (parseUnsigned_trim_iff _ _).mpr (numeral_toDecimal bounded)
    have same : parseContentLength (trim (toDecimal length)) = parseUnsigned (trim (trim (toDecimal length))) := rfl
    rw [same, trim_trim, numeral]
  unfold lengths
  rw [← named, only, List.map_cons, List.map_nil, value_printed, read]

/-- The header that asks for a range that has been sent. -/
def askAgain (range : ByteRange) : Bytes :=
  bytes "bytes=" ++ toDecimal range.start ++ [dash] ++ toDecimal range.last

theorem parseRangeHeader_askAgain {range : ByteRange} {resourceSize : Nat} (bounded : resourceSize < 2 ^ 64)
    (filled : range.start ≤ range.last) (inside : range.last < resourceSize) :
    parseRangeHeader (askAgain range) resourceSize = ⟨.partialRange, some range⟩ := by
  rw [parseRangeHeader_partial_iff]
  refine ⟨.between range.start range.last, range, rfl, ?_, ?_, fun position => ?_⟩
  · refine ⟨toDecimal range.start ++ [dash] ++ toDecimal range.last, ⟨[], by simp [Blank], ?_⟩, ?_⟩
    · simp [askAgain, rangeUnit]
    · exact ⟨_, _, rfl, numeral_toDecimal (by omega), numeral_toDecimal (by omega)⟩
  · exact ⟨range.start, by omega, by omega, filled⟩
  · simp only [ByteRange.Covers, RangeSpec.Denotes]
    omega

/-- What a response is to satisfy, next to the request it answers. -/
structure Consistent (request : HttpRequest) (resourceSize : Nat) (contentType : Bytes)
    (response : StreamResponse) : Prop where
  endsOnce : EndsOnce response.headers
  paired : Paired response.headers
  head : ∃ fields, IsResponseHead response.headers response.status fields ∧
    lengths fields = [some (contentLength response.bodyRange)] ∧
    (response.status = .partialContent → ∃ range, response.bodyRange = some range ∧
      range.start ≤ range.last ∧ range.last < resourceSize ∧
      named "Content-Range" fields = [printed "Content-Range" (contentRange range resourceSize)])
  again : response.status = .partialContent → ∀ range, response.bodyRange = some range →
    ∀ method target kind,
      (buildStreamResponse ⟨method, target, some (askAgain range)⟩ resourceSize kind).status =
          .partialContent ∧
        (buildStreamResponse ⟨method, target, some (askAgain range)⟩ resourceSize kind).bodyRange =
          some range
  body : response.includeBody = true ↔ request.method = .get ∧
    (response.status = .ok ∨ response.status = .partialContent) ∧ 0 < contentLength response.bodyRange
  others : response.status ≠ .ok → response.status ≠ .partialContent →
    contentLength response.bodyRange = 0 ∧ response.bodyRange = none ∧ response.includeBody = false
  same : ∀ method target,
    (buildStreamResponse ⟨method, target, request.range⟩ resourceSize contentType).headers =
      response.headers

theorem buildErrorResponse_head (status : ResponseStatus) (resourceSize : Nat) :
    IsResponseHead (buildErrorResponse status resourceSize) status (errorFields status resourceSize) :=
  ⟨buildErrorResponse_text status resourceSize,
    fun field member => (plain_errorFields status resourceSize field member).name,
    fun field member => (plain_errorFields status resourceSize field member).value⟩

theorem buildBodyResponse_head (method : HttpMethod) (status : ResponseStatus) (range : Option ByteRange)
    (resourceSize : Nat) (contentType : Bytes) :
    IsResponseHead (buildBodyResponse method status range resourceSize contentType).headers status
      (bodyFields status range resourceSize contentType) :=
  ⟨buildBodyResponse_text method status range resourceSize contentType,
    fun field member => (plain_bodyFields status range resourceSize contentType field member).name,
    fun field member => (plain_bodyFields status range resourceSize contentType field member).value⟩

theorem buildBodyResponse_includeBody (method : HttpMethod) (status : ResponseStatus)
    (range : Option ByteRange) (resourceSize : Nat) (contentType : Bytes) :
    (buildBodyResponse method status range resourceSize contentType).includeBody = true ↔
      method = .get ∧ 0 < contentLength range := by
  cases range with
  | none => simp only [buildBodyResponse, contentLength_none, Bool.and_eq_true, decide_eq_true_eq, gt_iff_lt]
  | some range => simp only [buildBodyResponse, contentLength_some, Bool.and_eq_true, decide_eq_true_eq, gt_iff_lt]

section Answer

variable {request : HttpRequest} {resourceSize : Nat} {range : Option ByteRange}

theorem consistent_error {status : ResponseStatus} {named : Nat} (contentType : Bytes)
    (failed : status ≠ .ok ∧ status ≠ .partialContent)
    (answer : ∀ method target, buildStreamResponse ⟨method, target, request.range⟩ resourceSize contentType =
      ⟨status, none, false, buildErrorResponse status named⟩) :
    Consistent request resourceSize contentType (buildStreamResponse request resourceSize contentType) := by
  have own := answer request.method request.target
  have head := buildErrorResponse_head status named
  rw [show (⟨request.method, request.target, request.range⟩ : HttpRequest) = request from rfl] at own
  rw [own]
  constructor
  · exact head.endsOnce
  · exact head.paired
  · refine ⟨_, head, ?_, fun cut => absurd cut failed.2⟩
    rw [contentLength_none]
    exact lengths_eq (by decide) (named_errorFields status named)
  · exact fun cut => absurd cut failed.2
  · simp [failed.1, failed.2]
  · exact fun _ _ => ⟨contentLength_none, rfl, rfl⟩
  · intro method target
    rw [answer method target]

theorem consistent_body {status : ResponseStatus} (contentType : Bytes)
    (served : status = .ok ∨ status = .partialContent) (short : contentLength range < 2 ^ 64)
    (cut : status = .partialContent → ∃ part, range = some part ∧ part.start ≤ part.last ∧
      part.last < resourceSize ∧ resourceSize < 2 ^ 64)
    (answer : ∀ method target, buildStreamResponse ⟨method, target, request.range⟩ resourceSize contentType =
      buildBodyResponse method status range resourceSize contentType) :
    Consistent request resourceSize contentType (buildStreamResponse request resourceSize contentType) := by
  have own := answer request.method request.target
  have head := buildBodyResponse_head request.method status range resourceSize contentType
  rw [show (⟨request.method, request.target, request.range⟩ : HttpRequest) = request from rfl] at own
  rw [own]
  constructor
  · exact head.endsOnce
  · exact head.paired
  · refine ⟨_, head, lengths_eq short (named_bodyFields status range resourceSize contentType), ?_⟩
    intro part
    obtain ⟨denoted, rfl, filled, inside, _⟩ := cut part
    obtain rfl : status = .partialContent := part
    exact ⟨denoted, rfl, filled, inside, named_bodyFields_range denoted resourceSize contentType⟩
  · intro part denoted same method target kind
    obtain ⟨other, listed, filled, inside, bounded⟩ := cut part
    obtain rfl : other = denoted := Option.some.inj (listed.symm.trans same)
    have parsed := parseRangeHeader_askAgain bounded filled inside
    constructor <;> simp [buildStreamResponse, parsed, buildBodyResponse]
  · rw [buildBodyResponse_includeBody]
    exact ⟨fun given => ⟨given.1, served, given.2⟩, fun given => ⟨given.1, given.2.2⟩⟩
  · intro notOk notPartial
    exact absurd served (not_or.mpr ⟨notOk, notPartial⟩)
  · intro method target
    rw [answer method target]
    rfl

end Answer

theorem length_lt (range : ByteRange) : range.length < 2 ^ 64 := by
  unfold ByteRange.length add64
  omega

theorem buildStreamResponse_consistent (request : HttpRequest) (resourceSize : Nat) (contentType : Bytes)
    (bounded : resourceSize < 2 ^ 64) :
    Consistent request resourceSize contentType (buildStreamResponse request resourceSize contentType) := by
  cases parsed : parseRangeHeader (request.range.getD []) resourceSize with
  | mk status range =>
      cases status with
      | full =>
          obtain ⟨_, same⟩ := (parseRangeHeader_full_iff _ _ _).mp parsed
          have short : contentLength range < 2 ^ 64 := by
            rw [same]
            by_cases empty : resourceSize = 0
            · rw [if_pos empty, contentLength_none]
              decide
            · rw [if_neg empty, contentLength_some]
              exact length_lt _
          exact consistent_body contentType (.inl rfl) short (by simp)
            fun method target => by simp [buildStreamResponse, parsed]
      | partialRange =>
          obtain ⟨_, denoted, rfl, _⟩ := (parseRangeHeader_partial_iff _ _ _).mp parsed
          obtain ⟨filled, inside, _⟩ := parseRangeHeader_inside bounded parsed
          have short : contentLength (some denoted) < 2 ^ 64 := by
            rw [contentLength_some]
            exact length_lt denoted
          exact consistent_body contentType (.inr rfl) short
            (fun _ => ⟨denoted, rfl, filled, inside, bounded⟩)
            fun method target => by simp [buildStreamResponse, parsed]
      | malformed =>
          exact @consistent_error _ _ .badRequest 0 contentType (by decide) fun method target => by
            simp only [buildStreamResponse, parsed]
      | unsatisfiable =>
          exact @consistent_error _ _ .rangeNotSatisfiable resourceSize contentType (by decide) fun method target => by
            simp only [buildStreamResponse, parsed]
      | multipleRangesUnsupported =>
          exact @consistent_error _ _ .rangeNotSatisfiable resourceSize contentType (by decide) fun method target => by
            simp only [buildStreamResponse, parsed]

theorem buildStreamResponse_consistent_part :
    (buildStreamResponse ⟨.get, bytes "/a", some (bytes "bytes=-5")⟩ 8 (bytes "video/mp4")).bodyRange =
        some ⟨3, 7⟩ ∧
      Consistent ⟨.get, bytes "/a", some (bytes "bytes=-5")⟩ 8 (bytes "video/mp4")
        (buildStreamResponse ⟨.get, bytes "/a", some (bytes "bytes=-5")⟩ 8 (bytes "video/mp4")) :=
  ⟨by decide +kernel, buildStreamResponse_consistent _ 8 _ (by decide)⟩

end NuvioEngine.Http
