import NuvioEngine.Http.HeaderFields

/-! The request parser accepts exactly the heads of its grammar. -/

namespace NuvioEngine.Http

def methodText : HttpMethod → Bytes
  | .get => bytes "GET"
  | .head => bytes "HEAD"

def requestLine (request : HttpRequest) (version : Bytes) : Bytes :=
  methodText request.method ++ [space] ++ request.target ++ [space] ++ version

/-- The grammar of a request head, for a given notion of token. -/
structure IsRequestHead (token : Bytes → Prop) (head : Bytes) (request : HttpRequest)
    (version : Bytes) (fields : List HeaderField) : Prop where
  text : head = requestLine request version ++ crlf ++ headerText fields
  short : (requestLine request version).length ≤ 4096
  version : version = bytes "HTTP/1.1" ∨ version = bytes "HTTP/1.0"
  rooted : request.target.head? = some 47
  bounded : request.target.length ≤ 2048
  printable : ∀ byte ∈ request.target, 33 ≤ byte ∧ byte ≤ 126 ∧ byte ≠ 92 ∧ byte ≠ 35
  count : fields.length ≤ 64
  names : ∀ field ∈ fields, token field.name
  values : ∀ field ∈ fields, ∀ byte ∈ field.value, IsControl byte → byte = tab
  unencoded : ∀ field ∈ fields, ¬ field.Named "Transfer-Encoding"
  range : (fields.filter fun field => field.Named "Range").map HeaderField.value = request.range.toList
  rangeFilled : ∀ value ∈ request.range, value ≠ []
  lengthOnce : (fields.filter fun field => field.Named "Content-Length").length ≤ 1
  bodiless : ∀ field ∈ fields, field.Named "Content-Length" → field.value ≠ [] ∧
    (∀ byte ∈ field.value, isDigit byte = true) ∧ decimal field.value = 0

theorem indexOf_space {text : Bytes} {index : Nat} (found : Search.indexOf [space] text = some index) :
    ∃ before after, text = before ++ [space] ++ after ∧ before.length = index ∧ space ∉ before := by
  obtain ⟨before, after, cut, length, outside⟩ := Search.indexOf_eq_some (by simp) found
  exact ⟨before, after, cut, length, fun member => outside ((List.singleton_infix_iff _ _).mpr member)⟩

theorem drop_behind (front rest : Bytes) :
    (front ++ [space] ++ rest).drop (front.length + 1) = rest := by simp

theorem find_behind (front rest needle : Bytes) :
    find (front ++ [space] ++ rest) needle (front.length + 1) =
      (Search.indexOf needle rest).map (· + (front.length + 1)) := by
  rw [find, drop_behind]

theorem splitRequestLine_parts {method target : Bytes} (apart : space ∉ method) (inside : space ∉ target)
    (version : Bytes) :
    splitRequestLine (method ++ [space] ++ (target ++ [space] ++ version)) =
      if (Search.indexOf [space] version).isSome then none else some (method, target, version) := by
  have first : find (method ++ [space] ++ (target ++ [space] ++ version)) [space] 0 =
      some method.length := by
    rw [find, List.drop_zero, Search.indexOf_append apart]
    rfl
  have second : find (method ++ [space] ++ (target ++ [space] ++ version)) [space]
      (method.length + 1) = some (target.length + (method.length + 1)) := by
    rw [find_behind, Search.indexOf_append inside]
    rfl
  have size : (method ++ [space] ++ target).length = target.length + (method.length + 1) := by
    simp only [List.length_append, List.length_singleton]
    omega
  have regrouped : method ++ [space] ++ (target ++ [space] ++ version) =
      (method ++ [space] ++ target) ++ [space] ++ version := by simp
  have third : (find (method ++ [space] ++ (target ++ [space] ++ version)) [space]
      (target.length + (method.length + 1) + 1)).isSome = (Search.indexOf [space] version).isSome := by
    rw [regrouped, ← size, find_behind, Option.isSome_map]
  have middle : target.length + (method.length + 1) - method.length - 1 = target.length := by omega
  have one : substr (method ++ [space] ++ (target ++ [space] ++ version)) 0 method.length = method := by
    simp [substr]
  have two : substr (method ++ [space] ++ (target ++ [space] ++ version)) (method.length + 1)
      target.length = target := by
    rw [substr, drop_behind]
    simp
  have three : (method ++ [space] ++ (target ++ [space] ++ version)).drop
      (target.length + (method.length + 1) + 1) = version := by
    rw [regrouped, ← size, drop_behind]
  unfold splitRequestLine
  simp only [first, second, third, middle, one, two, three]

theorem splitRequestLine_eq_some_iff (line method target version : Bytes) :
    splitRequestLine line = some (method, target, version) ↔
      line = method ++ [space] ++ (target ++ [space] ++ version) ∧
        space ∉ method ∧ space ∉ target ∧ space ∉ version := by
  constructor
  · intro split
    cases first : Search.indexOf [space] line with
    | none => simp [splitRequestLine, find, first] at split
    | some firstSpace =>
        obtain ⟨one, rest, rfl, rfl, apart⟩ := indexOf_space first
        cases second : Search.indexOf [space] rest with
        | none =>
            have found : find (one ++ [space] ++ rest) [space] 0 = some one.length := by
              rw [find, List.drop_zero, first]
              rfl
            have missing : find (one ++ [space] ++ rest) [space] (one.length + 1) = none := by
              rw [find_behind, second]
              rfl
            unfold splitRequestLine at split
            rw [found] at split
            simp only [missing] at split
            simp at split
        | some secondSpace =>
            obtain ⟨two, three, rfl, _, inside⟩ := indexOf_space second
            rw [splitRequestLine_parts apart inside] at split
            cases third : Search.indexOf [space] three with
            | some thirdSpace => simp [third] at split
            | none =>
                have behind : space ∉ three := fun member =>
                  Search.not_infix_of_indexOf (by simp) third ((List.singleton_infix_iff _ _).mpr member)
                simp only [third, Option.isSome_none, Bool.false_eq_true, if_false, Option.some.injEq,
                  Prod.mk.injEq] at split
                obtain ⟨rfl, rfl, rfl⟩ := split
                exact ⟨rfl, apart, inside, behind⟩
  · rintro ⟨rfl, apart, inside, behind⟩
    rw [splitRequestLine_parts apart inside, Search.indexOf_eq_none behind]
    rfl

theorem parseMethod_iff (text : Bytes) (method : HttpMethod) :
    parseMethod text = some method ↔ text = methodText method := by
  unfold parseMethod
  constructor
  · intro parsed
    split at parsed
    · rename_i get
      obtain rfl := Option.some.inj parsed
      exact get
    · split at parsed
      · rename_i head
        obtain rfl := Option.some.inj parsed
        exact head
      · simp at parsed
  · rintro rfl
    cases method <;> rfl

theorem methodText_token (method : HttpMethod) : Token (methodText method) := by
  rw [← validHeaderName_iff]
  cases method <;> decide +kernel

/-- What the parser has found out when it accepts. -/
structure Parses (head : Bytes) (request : HttpRequest) (version : Bytes) (index : Nat)
    (fields : HeaderFields) : Prop where
  found : Search.indexOf crlf head = some index
  short : index ≤ 4096
  parts : splitRequestLine (head.take index) = some (methodText request.method, request.target, version)
  target : validTarget request.target = true
  version : version = bytes "HTTP/1.1" ∨ version = bytes "HTTP/1.0"
  headers : parseHeaders head maximumHeaderCount (index + 2) {} = .ok fields
  bodiless : fields.contentLength.getD 0 = 0
  range : fields.range = request.range

theorem parseHttpRequestHead_ok_iff {head : Bytes} (bounded : head.length ≤ 16384)
    (ends : crlf ++ crlf <:+ head) (request : HttpRequest) :
    parseHttpRequestHead head = ⟨.ok, some request⟩ ↔
      ∃ version index fields, Parses head request version index fields := by
  have fits : ¬ head.length > maximumRequestHeadSize := Nat.not_lt.mpr bounded
  have ended : (crlf ++ crlf).isSuffixOf head = true := List.isSuffixOf_iff_suffix.mpr ends
  unfold parseHttpRequestHead
  simp only [fits, if_false, ended, Bool.not_true, Bool.false_eq_true, find_start]
  constructor
  · intro accepted
    split at accepted
    · simp at accepted
    · rename_i index found
      split at accepted
      · simp at accepted
      · rename_i short
        split at accepted
        · simp at accepted
        · rename_i method target version parts
          split at accepted
          · simp at accepted
          · rename_i checked
            simp only [Bool.or_eq_true, Bool.and_eq_true, Bool.not_eq_true', decide_eq_true_eq, not_or,
              Bool.not_eq_false, not_and_or, not_not] at checked
            split at accepted
            · simp at accepted
            · rename_i own parsed
              split at accepted
              · simp at accepted
              · rename_i fields headers
                split at accepted
                · simp at accepted
                · rename_i bodiless
                  obtain rfl := (parseMethod_iff _ _).mp parsed
                  simp only [RequestParseResult.mk.injEq, Option.some.injEq, true_and] at accepted
                  subst accepted
                  exact ⟨version, index, fields, found, Nat.not_lt.mp short, parts, checked.1.2,
                    checked.2, headers, not_not.mp bodiless, rfl⟩
  · rintro ⟨version, index, fields, parses⟩
    have method := (parseMethod_iff _ _).mpr (Eq.refl (methodText request.method))
    have name := (validHeaderName_iff _).mpr (methodText_token request.method)
    have short : ¬ index > maximumRequestLineSize := Nat.not_lt.mpr parses.short
    have known : ¬ (version ≠ bytes "HTTP/1.1" ∧ version ≠ bytes "HTTP/1.0") := by
      rw [not_and_or, not_not, not_not]
      exact parses.version
    have parts : splitRequestLine (substr head 0 index) =
        some (methodText request.method, request.target, version) := parses.parts
    simp only [parses.found, short, if_false, parts, name, parses.target, Bool.not_true, Bool.or_self,
      ← Bool.decide_and, known, decide_false, Bool.false_eq_true, method, parses.headers,
      parses.bodiless, ne_eq, not_true_eq_false, parses.range]

theorem parseContentLength_zero (field : HeaderField) : parseContentLength field.value = some 0 ↔
    field.value ≠ [] ∧ (∀ byte ∈ field.value, isDigit byte = true) ∧ decimal field.value = 0 := by
  have trimmed : trim field.value = field.value := trim_trim field.text
  simp only [parseContentLength, trimmed]
  constructor
  · intro parsed
    split at parsed
    · simp at parsed
    · rename_i filled
      split at parsed
      · rename_i checked
        obtain ⟨digits, _⟩ := Bool.and_eq_true_iff.mp checked
        exact ⟨fun empty => filled (by rw [empty]; rfl), List.all_eq_true.mp digits,
          Option.some.inj parsed⟩
      · simp at parsed
  · rintro ⟨filled, digits, zero⟩
    have checked : (field.value.all isDigit && decide (decimal field.value ≤ uint64Max)) = true := by
      rw [List.all_eq_true.mpr digits, zero]
      decide
    rw [List.isEmpty_eq_false_iff.mpr filled, checked, zero]
    rfl

theorem lengths_bodiless (fields : List HeaderField) :
    (∃ length : Option Nat, length.toList.map some = lengths fields ∧ length.getD 0 = 0) ↔
      (fields.filter fun field => field.Named "Content-Length").length ≤ 1 ∧
        ∀ field ∈ fields, field.Named "Content-Length" → parseContentLength field.value = some 0 := by
  have members : (∀ field ∈ fields, field.Named "Content-Length" →
      parseContentLength field.value = some 0) ↔ ∀ length ∈ lengths fields, length = some 0 := by
    simp only [lengths, List.forall_mem_map, List.mem_filter, decide_eq_true_eq, and_imp]
  have size : (fields.filter fun field => field.Named "Content-Length").length =
      (lengths fields).length := by
    simp [lengths]
  rw [members, size]
  constructor
  · rintro ⟨length, same, zero⟩
    rw [← same]
    cases length with
    | none => simp
    | some count => simpa using zero
  · rintro ⟨once, all⟩
    cases given : lengths fields with
    | nil => exact ⟨none, rfl, rfl⟩
    | cons first rest =>
        rw [given] at once all
        have single : rest = [] := List.eq_nil_of_length_eq_zero (by simpa using once)
        have zero := all first List.mem_cons_self
        exact ⟨some 0, by simp [single, zero], rfl⟩

theorem IsRequestHead.target_no_blank {token : Bytes → Prop} {head version : Bytes}
    {request : HttpRequest} {fields : List HeaderField}
    (grammar : IsRequestHead token head request version fields) {byte : UInt8} (low : byte < 33) :
    byte ∉ request.target := by
  intro member
  exact absurd (grammar.printable byte member).1 (UInt8.not_le.mpr low)

theorem IsRequestHead.version_no_blank {token : Bytes → Prop} {head version : Bytes}
    {request : HttpRequest} {fields : List HeaderField}
    (grammar : IsRequestHead token head request version fields) {byte : UInt8} (low : byte < 33) :
    byte ∉ version := by
  intro member
  have printed : (33 : UInt8) ≤ byte := by
    rcases grammar.version with rfl | rfl
    · exact (by decide +kernel : ∀ byte ∈ bytes "HTTP/1.1", (33 : UInt8) ≤ byte) byte member
    · exact (by decide +kernel : ∀ byte ∈ bytes "HTTP/1.0", (33 : UInt8) ≤ byte) byte member
  exact absurd printed (UInt8.not_le.mpr low)

theorem IsRequestHead.requestLine_no_lineEnd {token : Bytes → Prop} {head version : Bytes}
    {request : HttpRequest} {fields : List HeaderField}
    (grammar : IsRequestHead token head request version fields) :
    (13 : UInt8) ∉ requestLine request version ∧ (10 : UInt8) ∉ requestLine request version := by
  have named := methodText_token request.method
  unfold requestLine
  simp only [List.mem_append, List.mem_singleton, not_or]
  exact ⟨⟨⟨⟨⟨named.no_blank (by decide), by decide⟩, grammar.target_no_blank (by decide)⟩, by decide⟩,
      grammar.version_no_blank (by decide)⟩,
    ⟨⟨⟨named.no_blank (by decide), by decide⟩, grammar.target_no_blank (by decide)⟩, by decide⟩,
      grammar.version_no_blank (by decide)⟩

theorem requestLine_parts (request : HttpRequest) (version : Bytes) :
    requestLine request version =
      methodText request.method ++ [space] ++ (request.target ++ [space] ++ version) := by
  simp [requestLine]

theorem Stands.start {line rest : Bytes} (ends : crlf ++ crlf <:+ line ++ crlf ++ rest)
    (outside : ¬ crlf <:+: line) : Stands (line ++ crlf ++ rest) (line.length + 2) rest where
  place := by simp [crlf]
  inside := by simp [crlf]
  behind := ⟨line, rfl⟩
  ends := Ends.tail ends outside

theorem takesAll_start (fields : List HeaderField) (after : HeaderFields) :
    TakesAll fields {} after ↔ (∀ field ∈ fields, Sound field) ∧
      after.range.toList = ranges fields ∧ after.contentLength.toList.map some = lengths fields := by
  rw [takesAll_iff]
  rfl

theorem Parses.grammar {head version : Bytes} {request : HttpRequest} {index : Nat}
    {after : HeaderFields} (once : EndsOnce head) (parses : Parses head request version index after) :
    ∃ fields, IsRequestHead Token head request version fields := by
  obtain ⟨line, rest, rfl, rfl, outside⟩ := Search.indexOf_eq_some (by simp [crlf]) parses.found
  have start := Stands.start once.1 outside
  obtain ⟨fields, rfl, count, takes⟩ :=
    (parseHeaders_ok_iff once maximumHeaderCount start {} after).mp parses.headers
  obtain ⟨sound, range, length⟩ := (takesAll_start fields after).mp takes
  obtain ⟨single, zero⟩ := (lengths_bodiless fields).mp ⟨after.contentLength, length, parses.bodiless⟩
  obtain ⟨rooted, bounded, printable⟩ := (validTarget_iff request.target).mp parses.target
  have taken : (line ++ crlf ++ headerText fields).take line.length = line := by simp
  have parts := parses.parts
  rw [taken, splitRequestLine_eq_some_iff, ← requestLine_parts] at parts
  obtain ⟨rfl, _⟩ := parts
  rw [parses.range] at range
  have filled : ∀ value ∈ request.range, value ≠ [] := by
    intro value given
    have member : value ∈ ranges fields := by
      rw [← range]
      exact Option.mem_toList.mpr given
    obtain ⟨field, kept, rfl⟩ := List.mem_map.mp member
    obtain ⟨inside, ranged⟩ := List.mem_filter.mp kept
    exact (sound field inside).filled (of_decide_eq_true ranged)
  exact ⟨fields, rfl, parses.short, parses.version, rooted, bounded, printable, count,
    fun field member => (sound field member).name, fun field member => (sound field member).value,
    fun field member => (sound field member).unencoded, range.symm, filled, single,
    fun field member sized => (parseContentLength_zero field).mp (zero field member sized)⟩

theorem IsRequestHead.parses {head version : Bytes} {request : HttpRequest}
    {fields : List HeaderField} (once : EndsOnce head)
    (grammar : IsRequestHead Token head request version fields) :
    ∃ index after, Parses head request version index after := by
  have unbroken := grammar.requestLine_no_lineEnd.1
  have bodiless := (lengths_bodiless fields).mpr ⟨grammar.lengthOnce, fun field member sized =>
    (parseContentLength_zero field).mpr (grammar.bodiless field member sized)⟩
  obtain ⟨length, same, zero⟩ := bodiless
  obtain rfl := grammar.text
  have found : Search.indexOf crlf (requestLine request version ++ crlf ++ headerText fields) =
      some (requestLine request version).length := Search.indexOf_append unbroken
  have outside : ¬ crlf <:+: requestLine request version := fun within =>
    unbroken (within.subset List.mem_cons_self)
  have start := Stands.start once.1 outside
  have filled : ∀ field ∈ fields, field.Named "Range" → field.value ≠ [] := by
    intro field member ranged
    have listed : field.value ∈ request.range.toList := by
      rw [← grammar.range]
      exact List.mem_map_of_mem (List.mem_filter.mpr ⟨member, decide_eq_true ranged⟩)
    exact grammar.rangeFilled field.value (Option.mem_toList.mp listed)
  have sound : ∀ field ∈ fields, Sound field := fun field member =>
    ⟨grammar.names field member, grammar.values field member, grammar.unencoded field member,
      filled field member⟩
  have takes : TakesAll fields {} ⟨request.range, length⟩ :=
    (takesAll_start fields _).mpr ⟨sound, grammar.range.symm, same⟩
  have headers := (parseHeaders_ok_iff once maximumHeaderCount start {} ⟨request.range, length⟩).mpr
    ⟨fields, rfl, grammar.count, takes⟩
  have parts : splitRequestLine (requestLine request version) =
      some (methodText request.method, request.target, version) :=
    (splitRequestLine_eq_some_iff _ _ _ _).mpr ⟨requestLine_parts request version,
      (methodText_token request.method).no_blank (by decide), grammar.target_no_blank (by decide),
      grammar.version_no_blank (by decide)⟩
  refine ⟨(requestLine request version).length, ⟨request.range, length⟩, found, grammar.short, ?_,
    (validTarget_iff _).mpr ⟨grammar.rooted, grammar.bounded, grammar.printable⟩, grammar.version,
    headers, zero, rfl⟩
  rw [← parts]
  simp

/-- Line feeds follow carriage returns, and nothing else does. -/
def Paired (text : Bytes) : Prop :=
  text[0]? ≠ some 10 ∧ ∀ index : Nat, text[index]? = some 13 ↔ text[index + 1]? = some 10

theorem Paired.cons {byte : UInt8} {text : Bytes} (paired : Paired text) (returns : byte ≠ 13)
    (feeds : byte ≠ 10) : Paired (byte :: text) := by
  refine ⟨by simpa using feeds, fun index => ?_⟩
  cases index with
  | zero => simp [returns, paired.1]
  | succ index => simpa using paired.2 index

theorem Paired.lineEnd {text : Bytes} (paired : Paired text) : Paired (crlf ++ text) := by
  refine ⟨by simp [crlf], fun index => ?_⟩
  cases index with
  | zero => simp [crlf]
  | succ index =>
      cases index with
      | zero => simp [crlf, paired.1]
      | succ index => simpa [crlf] using paired.2 index

theorem Paired.line {line text : Bytes} (paired : Paired text)
    (unbroken : (13 : UInt8) ∉ line ∧ (10 : UInt8) ∉ line) : Paired (line ++ crlf ++ text) := by
  rw [List.append_assoc]
  induction line with
  | nil => exact paired.lineEnd
  | cons byte rest ih =>
      simp only [List.mem_cons, not_or] at unbroken
      exact (ih ⟨unbroken.1.2, unbroken.2.2⟩).cons (Ne.symm unbroken.1.1) (Ne.symm unbroken.2.1)

theorem paired_headerText (fields : List HeaderField) (token : ∀ field ∈ fields, Token field.name)
    (valid : ∀ field ∈ fields, ∀ byte ∈ field.value, IsControl byte → byte = tab) :
    Paired (headerText fields) := by
  induction fields with
  | nil => exact @Paired.lineEnd [] ⟨by simp, fun index => by simp⟩
  | cons field rest ih =>
      obtain ⟨own, others⟩ := List.forall_mem_cons.mp token
      obtain ⟨ownValue, otherValues⟩ := List.forall_mem_cons.mp valid
      rw [headerText_cons]
      exact (ih others otherValues).line (line_no_lineEnd own ownValue)

theorem IsRequestHead.paired {head version : Bytes} {request : HttpRequest}
    {fields : List HeaderField} (grammar : IsRequestHead Token head request version fields) :
    Paired head := by
  rw [grammar.text]
  exact (paired_headerText fields grammar.names grammar.values).line grammar.requestLine_no_lineEnd

/-- A head whose only empty line is its last is accepted exactly when it is of the grammar, and then
the request is the one it spells. No carriage return or line feed stands alone in it. -/
theorem parseHttpRequestHead_accepts {head : Bytes} (bounded : head.length ≤ 16384)
    (once : EndsOnce head) (request : HttpRequest) :
    (parseHttpRequestHead head = ⟨.ok, some request⟩ ↔
      ∃ version fields, IsRequestHead Token head request version fields) ∧
    (parseHttpRequestHead head = ⟨.ok, some request⟩ → Paired head) := by
  have accepts : parseHttpRequestHead head = ⟨.ok, some request⟩ ↔
      ∃ version fields, IsRequestHead Token head request version fields := by
    rw [parseHttpRequestHead_ok_iff bounded once.1]
    constructor
    · rintro ⟨version, index, after, parses⟩
      exact ⟨version, parses.grammar once⟩
    · rintro ⟨version, fields, grammar⟩
      exact ⟨version, grammar.parses once⟩
  refine ⟨accepts, fun accepted => ?_⟩
  obtain ⟨version, fields, grammar⟩ := accepts.mp accepted
  exact grammar.paired

theorem endsOnce_of_drop {head : Bytes} (ends : crlf ++ crlf <:+ head)
    (only : ∀ index ∈ List.range head.length, (head.drop index).take 4 = crlf ++ crlf →
      index + 4 = head.length) : EndsOnce head := by
  refine ⟨ends, fun before after cut => ?_⟩
  have length := congrArg List.length cut
  simp only [crlf, List.length_append, List.length_cons, List.length_nil] at length
  have here : (head.drop before.length).take 4 = crlf ++ crlf := by
    rw [cut, List.append_assoc, List.drop_left]
    rfl
  have last := only before.length (List.mem_range.mpr (by omega)) here
  exact List.eq_nil_of_length_eq_zero (by omega)

def rangedHead : Bytes := bytes "GET /a HTTP/1.1\r\nRange: bytes=0-\r\n\r\n"

theorem rangedHead_endsOnce : EndsOnce rangedHead :=
  endsOnce_of_drop (by decide +kernel) (by decide +kernel)

theorem parseHttpRequestHead_accepts_ranged :
    rangedHead.length ≤ 16384 ∧ EndsOnce rangedHead ∧ Paired rangedHead ∧
      ∃ version fields, IsRequestHead Token rangedHead
        ⟨.get, bytes "/a", some (bytes "bytes=0-")⟩ version fields := by
  have bounded : rangedHead.length ≤ 16384 := by decide +kernel
  have accepted : parseHttpRequestHead rangedHead =
      ⟨.ok, some ⟨.get, bytes "/a", some (bytes "bytes=0-")⟩⟩ := by decide +kernel
  have accepts := parseHttpRequestHead_accepts bounded rangedHead_endsOnce
    ⟨.get, bytes "/a", some (bytes "bytes=0-")⟩
  exact ⟨bounded, rangedHead_endsOnce, accepts.2 accepted, accepts.1.mp accepted⟩

/-- A head whose header name has a byte behind the ASCII ones. -/
def accentedHead : Bytes := bytes "GET /a HTTP/1.1\r\n" ++ [233] ++ bytes ": x\r\n\r\n"

theorem parseHttpRequestHead_rejects_accented :
    accentedHead.length ≤ 16384 ∧ EndsOnce accentedHead ∧
      (∃ version fields, IsRequestHead ByteToken accentedHead ⟨.get, bytes "/a", none⟩ version fields) ∧
      parseHttpRequestHead accentedHead = ⟨.malformed, none⟩ := by
  refine ⟨by decide +kernel, endsOnce_of_drop (by decide +kernel) (by decide +kernel),
    ⟨bytes "HTTP/1.1", [⟨[233], bytes " x"⟩], ?_⟩, by decide +kernel⟩
  constructor
  case names => exact List.forall_mem_singleton.mpr ⟨by simp, by decide +kernel⟩
  case values => exact List.forall_mem_singleton.mpr (by decide +kernel)
  case bodiless => exact List.forall_mem_singleton.mpr fun sized => absurd sized (by decide +kernel)
  all_goals decide +kernel

end NuvioEngine.Http
