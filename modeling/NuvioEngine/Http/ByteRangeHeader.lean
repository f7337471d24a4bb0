import NuvioEngine.Http.ByteRangeCore
import NuvioEngine.Http.HeaderFields

/-! The range parser gives exactly the positions its header denotes. -/

namespace NuvioEngine.Http

def Blank (text : Bytes) : Prop := ∀ byte ∈ text, isBlank byte = true

instance (text : Bytes) : Decidable (Blank text) := inferInstanceAs (Decidable (∀ _ ∈ _, _))

/-- A decimal numeral that fits in 64 bits, with blanks around it. -/
def Numeral (text : Bytes) (value : Nat) : Prop :=
  ∃ left digits right, text = left ++ digits ++ right ∧ Blank left ∧ Blank right ∧
    digits ≠ [] ∧ (∀ byte ∈ digits, isDigit byte = true) ∧ decimal digits = value ∧ value < 2 ^ 64

inductive RangeSpec where
  | between (first last : Nat)
  | startingAt (first : Nat)
  | suffix (length : Nat)

namespace RangeSpec

/-- The positions of a resource that are asked for. -/
def Denotes (resourceSize : Nat) : RangeSpec → Nat → Prop
  | between first last, position => position < resourceSize ∧ first ≤ position ∧ position ≤ last
  | startingAt first, position => position < resourceSize ∧ first ≤ position
  | suffix length, position =>
      resourceSize - min length resourceSize ≤ position ∧ position < resourceSize

def Written : RangeSpec → Bytes → Prop
  | between first last, text => ∃ before after, text = before ++ [dash] ++ after ∧
      Numeral before first ∧ Numeral after last
  | startingAt first, text => ∃ before after, text = before ++ [dash] ++ after ∧
      Numeral before first ∧ Blank after
  | suffix length, text => ∃ before after, text = before ++ [dash] ++ after ∧
      Blank before ∧ Numeral after length

end RangeSpec

/-- What stands behind `bytes=` in a header. -/
def BehindUnit (header text : Bytes) : Prop :=
  ∃ before, Blank before ∧ header = before ++ rangeUnit ++ text

def Asks (header : Bytes) (spec : RangeSpec) : Prop := ∃ text, BehindUnit header text ∧ spec.Written text

theorem trim_eq_nil_iff (value : Bytes) : trim value = [] ↔ Blank value := Strip.strip_eq_nil_iff

theorem isBlank_of_isDigit {byte : UInt8} (digit : isDigit byte = true) : isBlank byte = false := by
  by_contra blank
  simp only [isBlank, Bool.not_eq_false, Bool.or_eq_true, decide_eq_true_eq] at blank
  rcases blank with rfl | rfl
  · exact absurd digit (by decide)
  · exact absurd digit (by decide)

theorem parseUnsigned_eq_some_iff (text : Bytes) (value : Nat) : parseUnsigned text = some value ↔
    text ≠ [] ∧ (∀ byte ∈ text, isDigit byte = true) ∧ decimal text = value ∧ value < 2 ^ 64 := by
  unfold parseUnsigned
  cases text with
  | nil => simp
  | cons first rest =>
      simp only [List.isEmpty_cons, Bool.false_eq_true, if_false]
      constructor
      · intro parsed
        split at parsed
        · rename_i checked
          obtain rfl := Option.some.inj parsed
          simp only [Bool.and_eq_true, List.all_eq_true, decide_eq_true_eq] at checked
          refine ⟨by simp, checked.1, rfl, ?_⟩
          have bound := checked.2
          unfold uint64Max at bound
          omega
        · simp at parsed
      · rintro ⟨_, digits, rfl, bound⟩
        rw [if_pos]
        simp only [Bool.and_eq_true, List.all_eq_true, decide_eq_true_eq]
        refine ⟨digits, ?_⟩
        unfold uint64Max
        omega

theorem parseUnsigned_trim_iff (text : Bytes) (value : Nat) :
    parseUnsigned (trim text) = some value ↔ Numeral text value := by
  rw [parseUnsigned_eq_some_iff]
  constructor
  · rintro ⟨filled, digits, same, bound⟩
    obtain ⟨left, right, before, after, cut⟩ := Strip.exists_strip isBlank text
    exact ⟨left, trim text, right, cut, before, after, filled, digits, same, bound⟩
  · rintro ⟨left, digits, right, rfl, before, after, filled, all, same, bound⟩
    have kept : trim (left ++ digits ++ right) = digits := by
      rw [trim_eq_strip, Strip.strip_pad before after]
      exact Strip.strip_of_none fun byte member => isBlank_of_isDigit (all byte member)
    rw [kept]
    exact ⟨filled, all, same, bound⟩

theorem Numeral.eq {text : Bytes} {left right : Nat} (one : Numeral text left) (two : Numeral text right) :
    left = right := by
  rw [← parseUnsigned_trim_iff] at one two
  exact Option.some.inj (one.symm.trans two)

theorem Numeral.not_blank {text : Bytes} {value : Nat} (numeral : Numeral text value) : ¬ Blank text := by
  intro blank
  rw [← parseUnsigned_trim_iff, (trim_eq_nil_iff text).mpr blank] at numeral
  simp [parseUnsigned] at numeral

theorem Numeral.mem {text : Bytes} {value : Nat} (numeral : Numeral text value) {byte : UInt8}
    (member : byte ∈ text) : isBlank byte = true ∨ isDigit byte = true := by
  obtain ⟨left, digits, right, rfl, before, after, _, all, _⟩ := numeral
  simp only [List.mem_append] at member
  rcases member with (first | inside) | last
  · exact .inl (before byte first)
  · exact .inr (all byte inside)
  · exact .inl (after byte last)

theorem trim_rangeUnit {before : Bytes} (blank : Blank before) (text : Bytes) :
    trim (before ++ rangeUnit ++ text) = rangeUnit ++ text.rdropWhile isBlank := by
  have whole : before ++ rangeUnit ++ text = before ++ 98 :: (bytes "ytes" ++ 61 :: text) := by
    rw [List.append_assoc]
    rfl
  have dropped : before.dropWhile isBlank = [] := List.dropWhile_eq_nil_iff.mpr blank
  rw [trim_eq_strip, whole, Strip.strip_append_cons (by decide), dropped,
    Strip.rdropWhile_append_cons (by decide)]
  rfl

theorem behindUnit_iff (header : Bytes) :
    rangeUnit.isPrefixOf (trim header) = true ↔ ∃ text, BehindUnit header text := by
  rw [List.isPrefixOf_iff_prefix]
  constructor
  · rintro ⟨rest, same⟩
    obtain ⟨left, right, before, after, cut⟩ := Strip.exists_strip isBlank header
    refine ⟨rest ++ right, left, before, ?_⟩
    rw [cut, ← trim_eq_strip, ← same]
    simp
  · rintro ⟨text, before, blank, rfl⟩
    rw [trim_rangeUnit blank]
    exact List.prefix_append _ _

theorem BehindUnit.specification {header text : Bytes} (behind : BehindUnit header text) :
    trim ((trim header).drop rangeUnit.length) = trim text := by
  obtain ⟨before, blank, rfl⟩ := behind
  rw [trim_rangeUnit blank, List.drop_left]
  exact Strip.strip_rdropWhile text

theorem BehindUnit.not_blank {header text : Bytes} (behind : BehindUnit header text) : ¬ Blank header := by
  obtain ⟨before, _, rfl⟩ := behind
  intro blank
  have letter := blank 98 (by simp [rangeUnit, bytes])
  exact absurd letter (by decide)

theorem BehindUnit.eq {header left right : Bytes} (one : BehindUnit header left)
    (two : BehindUnit header right) : left = right := by
  obtain ⟨before, first, rfl⟩ := one
  obtain ⟨other, second, same⟩ := two
  have cut : ∀ start text : Bytes, Blank start →
      (start ++ rangeUnit ++ text).dropWhile isBlank = rangeUnit ++ text := by
    intro start text blank
    rw [List.append_assoc, List.dropWhile_append_of_pos blank]
    exact List.dropWhile_cons_of_neg (by decide)
  have dropped := congrArg (List.dropWhile isBlank) same
  rw [cut _ _ first, cut _ _ second] at dropped
  exact List.append_cancel_left dropped

section Behind

variable {header text : Bytes} (behind : BehindUnit header text) (resourceSize : Nat)
include behind

theorem parseRangeHeader_multiple (several : comma ∈ text) :
    parseRangeHeader header resourceSize = ⟨.multipleRangesUnsupported, none⟩ := by
  have solid : isBlank comma = false := by decide
  have member : comma ∈ trim text := (Strip.mem_strip_iff solid).mpr several
  have found : (find (trim text) [comma] 0).isSome = true := by
    rw [find_start]
    by_contra missing
    rw [Option.not_isSome_iff_eq_none] at missing
    exact Search.not_infix_of_indexOf (by simp) missing ((List.singleton_infix_iff _ _).mpr member)
  have named := (behindUnit_iff header).mpr ⟨text, behind⟩
  have filled : trim header ≠ [] := fun empty => behind.not_blank ((trim_eq_nil_iff header).mp empty)
  unfold parseRangeHeader
  simp only [List.isEmpty_eq_false_iff.mpr filled, named, behind.specification,
    List.isEmpty_eq_false_iff.mpr (List.ne_nil_of_mem member), found, Bool.not_true, Bool.false_eq_true,
    if_false, if_true]

theorem parseRangeHeader_dashless (single : comma ∉ text) (dashless : dash ∉ text) :
    parseRangeHeader header resourceSize = ⟨.malformed, none⟩ := by
  have commas : comma ∉ trim text := fun member => single ((Strip.mem_strip_iff (by decide)).mp member)
  have dashes : dash ∉ trim text := fun member => dashless ((Strip.mem_strip_iff (by decide)).mp member)
  have named := (behindUnit_iff header).mpr ⟨text, behind⟩
  have filled : trim header ≠ [] := fun empty => behind.not_blank ((trim_eq_nil_iff header).mp empty)
  unfold parseRangeHeader
  simp only [List.isEmpty_eq_false_iff.mpr filled, named, behind.specification, find_start,
    Search.indexOf_eq_none commas, Search.indexOf_eq_none dashes, Bool.not_true, Bool.false_eq_true,
    Option.isSome_none, if_false, ite_self]

end Behind

theorem parseRangeHeader_dash {header before after : Bytes}
    (behind : BehindUnit header (before ++ [dash] ++ after)) (resourceSize : Nat)
    (single : comma ∉ before ++ [dash] ++ after) (first : dash ∉ before) :
    parseRangeHeader header resourceSize =
      if dash ∈ after then ⟨.malformed, none⟩
      else if Blank before then parseSuffix (trim after) resourceSize
      else parseInterval (trim before) (trim after) resourceSize := by
  have cut : trim (before ++ [dash] ++ after) =
      before.dropWhile isBlank ++ [dash] ++ after.rdropWhile isBlank := by
    rw [List.append_assoc, List.singleton_append, trim_eq_strip, Strip.strip_append_cons (by decide)]
    simp
  have commas : comma ∉ before.dropWhile isBlank ++ [dash] ++ after.rdropWhile isBlank := by
    rw [← cut]
    exact fun member => single ((Strip.mem_strip_iff (by decide)).mp member)
  have apart : dash ∉ before.dropWhile isBlank :=
    fun member => first ((List.dropWhile_sublist isBlank).subset member)
  have second : dash ∈ after.rdropWhile isBlank ↔ dash ∈ after := by
    have kept := @Strip.mem_strip_iff _ isBlank (after.rdropWhile isBlank) dash (by decide)
    rw [Strip.strip_rdropWhile, Strip.mem_strip_iff (by decide)] at kept
    exact kept.symm
  have named := (behindUnit_iff header).mpr ⟨_, behind⟩
  have filled : trim header ≠ [] := fun empty => behind.not_blank ((trim_eq_nil_iff header).mp empty)
  have found : Search.indexOf [dash] (before.dropWhile isBlank ++ [dash] ++ after.rdropWhile isBlank) =
      some (before.dropWhile isBlank).length := Search.indexOf_append apart
  have start : substr (before.dropWhile isBlank ++ [dash] ++ after.rdropWhile isBlank) 0
      (before.dropWhile isBlank).length = before.dropWhile isBlank := by
    simp [substr]
  have rest : (before.dropWhile isBlank ++ [dash] ++ after.rdropWhile isBlank).drop
      ((before.dropWhile isBlank).length + 1) = after.rdropWhile isBlank := by
    simp
  have solid : (before.dropWhile isBlank ++ [dash] ++ after.rdropWhile isBlank).isEmpty = false := by
    simp
  unfold parseRangeHeader
  simp only [List.isEmpty_eq_false_iff.mpr filled, named, behind.specification, cut, solid, find_start,
    Search.indexOf_eq_none commas, found, start, rest, Bool.not_true, Bool.false_eq_true,
    Option.isSome_none, if_false]
  have later : (find (before.dropWhile isBlank ++ [dash] ++ after.rdropWhile isBlank) [dash]
      ((before.dropWhile isBlank).length + 1)).isSome =
        (Search.indexOf [dash] (after.rdropWhile isBlank)).isSome := by
    rw [find, rest, Option.isSome_map]
  have left : trim (before.dropWhile isBlank) = trim before := Strip.strip_dropWhile before
  have right : trim (after.rdropWhile isBlank) = trim after := Strip.strip_rdropWhile after
  rw [later, left, right]
  by_cases more : dash ∈ after
  · rw [if_pos more, if_pos]
    by_contra missing
    rw [Option.not_isSome_iff_eq_none] at missing
    exact Search.not_infix_of_indexOf (by simp) missing
      ((List.singleton_infix_iff _ _).mpr (second.mpr more))
  · rw [if_neg more, Search.indexOf_eq_none (fun member => more (second.mp member))]
    simp only [Option.isSome_none, Bool.false_eq_true, if_false, List.isEmpty_iff, trim_eq_nil_iff]

/-- A result that gives what the specification denotes. -/
def Fits (resourceSize : Nat) (spec : RangeSpec) (result : RangeResult) : Prop :=
  (result = ⟨.unsatisfiable, none⟩ ∧ ∀ position, ¬ spec.Denotes resourceSize position) ∨
    ∃ range : ByteRange, result = ⟨.partialRange, some range⟩ ∧ range.start ≤ range.last ∧
      range.last < resourceSize ∧ ∀ position, range.Covers position ↔ spec.Denotes resourceSize position

theorem parseSuffix_fits (text : Bytes) (resourceSize length : Nat) (numeral : Numeral text length) :
    Fits resourceSize (.suffix length) (parseSuffix (trim text) resourceSize) := by
  unfold parseSuffix
  rw [trim_trim, (parseUnsigned_trim_iff text length).mpr numeral]
  by_cases empty : length = 0 ∨ resourceSize = 0
  · refine .inl ⟨by simp [empty], fun position => ?_⟩
    simp only [RangeSpec.Denotes]
    omega
  · refine .inr ⟨⟨resourceSize - min length resourceSize, resourceSize - 1⟩, ?_, ?_, ?_, fun position => ?_⟩
    · simp only [Bool.or_eq_true, decide_eq_true_eq, empty, if_false]
      rw [show (if length < resourceSize then length else resourceSize) = min length resourceSize by
        split <;> omega]
    · show resourceSize - min length resourceSize ≤ resourceSize - 1
      omega
    · show resourceSize - 1 < resourceSize
      omega
    · simp only [ByteRange.Covers, RangeSpec.Denotes]
      omega

section Interval

variable {before after : Bytes} {first : Nat} (starts : Numeral before first) (resourceSize : Nat)
include starts

theorem parseInterval_startingAt (unbounded : Blank after) :
    Fits resourceSize (.startingAt first) (parseInterval (trim before) (trim after) resourceSize) := by
  unfold parseInterval
  rw [(parseUnsigned_trim_iff before first).mpr starts, (trim_eq_nil_iff after).mpr unbounded]
  by_cases outside : resourceSize = 0 ∨ resourceSize ≤ first
  · refine .inl ⟨by simp [outside], fun position => ?_⟩
    simp only [RangeSpec.Denotes]
    omega
  · refine .inr ⟨⟨first, resourceSize - 1⟩, by simp [outside], ?_, ?_, fun position => ?_⟩
    · show first ≤ resourceSize - 1
      omega
    · show resourceSize - 1 < resourceSize
      omega
    · simp only [ByteRange.Covers, RangeSpec.Denotes]
      omega

theorem parseInterval_between {last : Nat} (ends : Numeral after last) :
    Fits resourceSize (.between first last) (parseInterval (trim before) (trim after) resourceSize) := by
  have filled : (trim after).isEmpty = false :=
    List.isEmpty_eq_false_iff.mpr fun empty => ends.not_blank ((trim_eq_nil_iff after).mp empty)
  unfold parseInterval
  simp only [(parseUnsigned_trim_iff before first).mpr starts, (parseUnsigned_trim_iff after last).mpr ends,
    filled, Option.isNone_some, Bool.and_false, Bool.false_eq_true, if_false, Bool.or_eq_true,
    decide_eq_true_eq]
  by_cases outside : resourceSize = 0 ∨ resourceSize ≤ first
  · refine .inl ⟨by rw [if_pos outside], fun position => ?_⟩
    simp only [RangeSpec.Denotes]
    omega
  · rw [if_neg outside]
    by_cases crossed : last < first
    · refine .inl ⟨by rw [if_pos crossed], fun position => ?_⟩
      simp only [RangeSpec.Denotes]
      omega
    · refine .inr ⟨⟨first, min last (resourceSize - 1)⟩, ?_, ?_, ?_, fun position => ?_⟩
      · rw [if_neg crossed]
        rw [show (if resourceSize ≤ last then resourceSize - 1 else last) = min last (resourceSize - 1) by
          split <;> omega]
      · show first ≤ min last (resourceSize - 1)
        omega
      · show min last (resourceSize - 1) < resourceSize
        omega
      · simp only [ByteRange.Covers, RangeSpec.Denotes]
        omega

end Interval

theorem not_mem_of_plain {text : Bytes} {byte : UInt8}
    (plain : ∀ other ∈ text, isBlank other = true ∨ isDigit other = true)
    (special : isBlank byte = false ∧ isDigit byte = false) : byte ∉ text := by
  intro member
  rcases plain byte member with blank | digit
  · simp [special.1] at blank
  · simp [special.2] at digit

theorem RangeSpec.Written.plain {spec : RangeSpec} {text : Bytes} (written : spec.Written text) :
    ∃ before after, text = before ++ [dash] ++ after ∧
      (∀ byte ∈ before, isBlank byte = true ∨ isDigit byte = true) ∧
      ∀ byte ∈ after, isBlank byte = true ∨ isDigit byte = true := by
  cases spec with
  | between first last =>
      obtain ⟨before, after, cut, starts, ends⟩ := written
      exact ⟨before, after, cut, fun _ => starts.mem, fun _ => ends.mem⟩
  | startingAt first =>
      obtain ⟨before, after, cut, starts, blank⟩ := written
      exact ⟨before, after, cut, fun _ => starts.mem, fun byte member => .inl (blank byte member)⟩
  | suffix length =>
      obtain ⟨before, after, cut, blank, ends⟩ := written
      exact ⟨before, after, cut, fun byte member => .inl (blank byte member), fun _ => ends.mem⟩

theorem RangeSpec.Written.single {spec : RangeSpec} {text : Bytes} (written : spec.Written text) :
    comma ∉ text := by
  obtain ⟨before, after, rfl, left, right⟩ := written.plain
  simp only [List.mem_append, List.mem_singleton, not_or]
  exact ⟨⟨not_mem_of_plain left (by decide), by decide⟩, not_mem_of_plain right (by decide)⟩

theorem parseRangeHeader_plain {header before after : Bytes}
    (behind : BehindUnit header (before ++ [dash] ++ after)) (resourceSize : Nat)
    (left : ∀ byte ∈ before, isBlank byte = true ∨ isDigit byte = true)
    (right : ∀ byte ∈ after, isBlank byte = true ∨ isDigit byte = true) :
    parseRangeHeader header resourceSize =
      if Blank before then parseSuffix (trim after) resourceSize
      else parseInterval (trim before) (trim after) resourceSize := by
  have single : comma ∉ before ++ [dash] ++ after := by
    simp only [List.mem_append, List.mem_singleton, not_or]
    exact ⟨⟨not_mem_of_plain left (by decide), by decide⟩, not_mem_of_plain right (by decide)⟩
  rw [parseRangeHeader_dash behind resourceSize single (not_mem_of_plain left (by decide)),
    if_neg (not_mem_of_plain right (by decide))]

theorem parseRangeHeader_fits {header : Bytes} {spec : RangeSpec} (asks : Asks header spec)
    (resourceSize : Nat) : Fits resourceSize spec (parseRangeHeader header resourceSize) := by
  obtain ⟨text, behind, written⟩ := asks
  cases spec with
  | between first last =>
      obtain ⟨before, after, rfl, starts, ends⟩ := written
      rw [parseRangeHeader_plain behind resourceSize (fun _ => starts.mem) (fun _ => ends.mem),
        if_neg starts.not_blank]
      exact parseInterval_between starts resourceSize ends
  | startingAt first =>
      obtain ⟨before, after, rfl, starts, blank⟩ := written
      rw [parseRangeHeader_plain behind resourceSize (fun _ => starts.mem)
        (fun byte member => .inl (blank byte member)), if_neg starts.not_blank]
      exact parseInterval_startingAt starts resourceSize blank
  | suffix length =>
      obtain ⟨before, after, rfl, blank, ends⟩ := written
      rw [parseRangeHeader_plain behind resourceSize (fun byte member => .inl (blank byte member))
        (fun _ => ends.mem), if_pos blank]
      exact parseSuffix_fits after resourceSize length ends

theorem parseRangeHeader_blank {header : Bytes} (blank : Blank header) (resourceSize : Nat) :
    parseRangeHeader header resourceSize =
      ⟨.full, if resourceSize = 0 then none else some ⟨0, resourceSize - 1⟩⟩ := by
  unfold parseRangeHeader
  simp only [(trim_eq_nil_iff header).mpr blank, List.isEmpty_nil, if_true]
  split <;> rfl

theorem parseSuffix_malformed {text : Bytes} (unread : ∀ value, ¬ Numeral text value) (resourceSize : Nat) :
    parseSuffix (trim text) resourceSize = ⟨.malformed, none⟩ := by
  have failed : parseUnsigned (trim text) = none := by
    cases parsed : parseUnsigned (trim text) with
    | none => rfl
    | some value => exact absurd ((parseUnsigned_trim_iff text value).mp parsed) (unread value)
  unfold parseSuffix
  rw [trim_trim, failed]

theorem parseInterval_malformed {before after : Bytes} (resourceSize : Nat)
    (unread : ∀ first, Numeral before first → ¬ Blank after ∧ ∀ last, ¬ Numeral after last) :
    parseInterval (trim before) (trim after) resourceSize = ⟨.malformed, none⟩ := by
  unfold parseInterval
  cases parsed : parseUnsigned (trim before) with
  | none => rfl
  | some first =>
      obtain ⟨filled, failed⟩ := unread first ((parseUnsigned_trim_iff before first).mp parsed)
      have missing : parseUnsigned (trim after) = none := by
        cases other : parseUnsigned (trim after) with
        | none => rfl
        | some last => exact absurd ((parseUnsigned_trim_iff after last).mp other) (failed last)
      have solid : (trim after).isEmpty = false :=
        List.isEmpty_eq_false_iff.mpr fun empty => filled ((trim_eq_nil_iff after).mp empty)
      simp [missing, solid]

theorem parseRangeHeader_malformed {header : Bytes} (filled : ¬ Blank header)
    (unasked : ∀ spec, ¬ Asks header spec) (single : ∀ text, BehindUnit header text → comma ∉ text)
    (resourceSize : Nat) : parseRangeHeader header resourceSize = ⟨.malformed, none⟩ := by
  by_cases named : ∃ text, BehindUnit header text
  · obtain ⟨text, behind⟩ := named
    by_cases dashed : dash ∈ text
    · obtain ⟨before, after, cut, first⟩ := List.eq_append_cons_of_mem dashed
      have parts : text = before ++ [dash] ++ after := by rw [cut, List.append_assoc, List.singleton_append]
      subst parts
      rw [parseRangeHeader_dash behind resourceSize (single _ behind) first]
      split_ifs with second blank
      · rfl
      · exact parseSuffix_malformed (fun value numeral =>
          unasked (.suffix value) ⟨_, behind, before, after, rfl, blank, numeral⟩) resourceSize
      · refine parseInterval_malformed resourceSize fun value starts => ⟨fun unbounded => ?_, fun last ends => ?_⟩
        · exact unasked (.startingAt value) ⟨_, behind, before, after, rfl, starts, unbounded⟩
        · exact unasked (.between value last) ⟨_, behind, before, after, rfl, starts, ends⟩
    · exact parseRangeHeader_dashless behind resourceSize (single text behind) dashed
  · rw [← behindUnit_iff, Bool.not_eq_true] at named
    have solid : (trim header).isEmpty = false :=
      List.isEmpty_eq_false_iff.mpr fun empty => filled ((trim_eq_nil_iff header).mp empty)
    unfold parseRangeHeader
    simp [solid, named]

theorem eq_of_covers {left right : ByteRange} (filled : left.start ≤ left.last)
    (same : ∀ position, left.Covers position ↔ right.Covers position) : left = right := by
  have first := (same left.start).mp ⟨Nat.le_refl _, filled⟩
  have last := (same left.last).mp ⟨filled, Nat.le_refl _⟩
  have start := (same right.start).mpr ⟨Nat.le_refl _, first.1.trans first.2⟩
  have stop := (same right.last).mpr ⟨first.1.trans first.2, Nat.le_refl _⟩
  cases left
  cases right
  simp only [ByteRange.Covers, ByteRange.mk.injEq] at *
  omega

theorem length_eq_of_inside {range : ByteRange} {resourceSize : Nat} (filled : range.start ≤ range.last)
    (inside : range.last < resourceSize) (bounded : resourceSize < 2 ^ 64) :
    range.length = range.last - range.start + 1 := by
  unfold ByteRange.length add64 sub64
  omega

theorem parseRangeHeader_cases (header : Bytes) (resourceSize : Nat) :
    (Blank header ∧ parseRangeHeader header resourceSize =
      ⟨.full, if resourceSize = 0 then none else some ⟨0, resourceSize - 1⟩⟩) ∨
    (∃ text, BehindUnit header text ∧ comma ∈ text ∧
      parseRangeHeader header resourceSize = ⟨.multipleRangesUnsupported, none⟩) ∨
    (∃ spec, Asks header spec ∧ Fits resourceSize spec (parseRangeHeader header resourceSize)) ∨
    (¬ Blank header ∧ (∀ text, BehindUnit header text → comma ∉ text) ∧ (∀ spec, ¬ Asks header spec) ∧
      parseRangeHeader header resourceSize = ⟨.malformed, none⟩) := by
  by_cases blank : Blank header
  · exact .inl ⟨blank, parseRangeHeader_blank blank resourceSize⟩
  · by_cases several : ∃ text, BehindUnit header text ∧ comma ∈ text
    · obtain ⟨text, behind, member⟩ := several
      exact .inr (.inl ⟨text, behind, member, parseRangeHeader_multiple behind resourceSize member⟩)
    · by_cases asked : ∃ spec, Asks header spec
      · obtain ⟨spec, asks⟩ := asked
        exact .inr (.inr (.inl ⟨spec, asks, parseRangeHeader_fits asks resourceSize⟩))
      · simp only [not_exists, not_and] at several asked
        exact .inr (.inr (.inr ⟨blank, several, asked,
          parseRangeHeader_malformed blank asked several resourceSize⟩))

theorem Asks.not_blank {header : Bytes} {spec : RangeSpec} (asks : Asks header spec) : ¬ Blank header := by
  obtain ⟨text, behind, _⟩ := asks
  exact behind.not_blank

theorem Asks.single {header text : Bytes} {spec : RangeSpec} (asks : Asks header spec)
    (behind : BehindUnit header text) : comma ∉ text := by
  obtain ⟨other, own, written⟩ := asks
  rw [behind.eq own]
  exact written.single

theorem parseRangeHeader_partial_iff (header : Bytes) (resourceSize : Nat) (range : Option ByteRange) :
    parseRangeHeader header resourceSize = ⟨.partialRange, range⟩ ↔
      ∃ spec denoted, range = some denoted ∧ Asks header spec ∧
        (∃ position, spec.Denotes resourceSize position) ∧
        ∀ position, denoted.Covers position ↔ spec.Denotes resourceSize position := by
  constructor
  · intro parsed
    rcases parseRangeHeader_cases header resourceSize with
      ⟨_, same⟩ | ⟨_, _, _, same⟩ | ⟨spec, asks, fits⟩ | ⟨_, _, _, same⟩
    · simp [same] at parsed
    · simp [same] at parsed
    · rcases fits with ⟨same, _⟩ | ⟨denoted, same, filled, _, covers⟩
      · simp [same] at parsed
      · rw [parsed, RangeResult.mk.injEq] at same
        exact ⟨spec, denoted, same.2, asks,
          ⟨denoted.start, (covers _).mp ⟨Nat.le_refl _, filled⟩⟩, covers⟩
    · simp [same] at parsed
  · rintro ⟨spec, denoted, rfl, asks, ⟨position, inside⟩, covers⟩
    rcases parseRangeHeader_fits asks resourceSize with ⟨_, empty⟩ | ⟨other, same, filled, _, own⟩
    · exact absurd inside (empty position)
    · rw [same, eq_of_covers filled fun place => (own place).trans (covers place).symm]

theorem parseRangeHeader_unsatisfiable_iff (header : Bytes) (resourceSize : Nat) (range : Option ByteRange) :
    parseRangeHeader header resourceSize = ⟨.unsatisfiable, range⟩ ↔
      range = none ∧ ∃ spec, Asks header spec ∧ ∀ position, ¬ spec.Denotes resourceSize position := by
  constructor
  · intro parsed
    rcases parseRangeHeader_cases header resourceSize with
      ⟨_, same⟩ | ⟨_, _, _, same⟩ | ⟨spec, asks, fits⟩ | ⟨_, _, _, same⟩
    · simp [same] at parsed
    · simp [same] at parsed
    · rcases fits with ⟨same, empty⟩ | ⟨denoted, same, _⟩
      · rw [parsed, RangeResult.mk.injEq] at same
        exact ⟨same.2, spec, asks, empty⟩
      · simp [same] at parsed
    · simp [same] at parsed
  · rintro ⟨rfl, spec, asks, empty⟩
    rcases parseRangeHeader_fits asks resourceSize with ⟨same, _⟩ | ⟨other, _, filled, _, own⟩
    · exact same
    · exact absurd ((own other.start).mp ⟨Nat.le_refl _, filled⟩) (empty _)

theorem parseRangeHeader_full_iff (header : Bytes) (resourceSize : Nat) (range : Option ByteRange) :
    parseRangeHeader header resourceSize = ⟨.full, range⟩ ↔
      Blank header ∧ range = if resourceSize = 0 then none else some ⟨0, resourceSize - 1⟩ := by
  constructor
  · intro parsed
    rcases parseRangeHeader_cases header resourceSize with
      ⟨blank, same⟩ | ⟨_, _, _, same⟩ | ⟨spec, asks, fits⟩ | ⟨_, _, _, same⟩
    · rw [parsed, RangeResult.mk.injEq] at same
      exact ⟨blank, same.2⟩
    · simp [same] at parsed
    · rcases fits with ⟨same, _⟩ | ⟨_, same, _⟩ <;> simp [same] at parsed
    · simp [same] at parsed
  · rintro ⟨blank, rfl⟩
    exact parseRangeHeader_blank blank resourceSize

theorem parseRangeHeader_multiple_iff (header : Bytes) (resourceSize : Nat) (range : Option ByteRange) :
    parseRangeHeader header resourceSize = ⟨.multipleRangesUnsupported, range⟩ ↔
      range = none ∧ ∃ text, BehindUnit header text ∧ comma ∈ text := by
  constructor
  · intro parsed
    rcases parseRangeHeader_cases header resourceSize with
      ⟨_, same⟩ | ⟨text, behind, several, same⟩ | ⟨spec, asks, fits⟩ | ⟨_, _, _, same⟩
    · simp [same] at parsed
    · rw [parsed, RangeResult.mk.injEq] at same
      exact ⟨same.2, text, behind, several⟩
    · rcases fits with ⟨same, _⟩ | ⟨_, same, _⟩ <;> simp [same] at parsed
    · simp [same] at parsed
  · rintro ⟨rfl, text, behind, several⟩
    exact parseRangeHeader_multiple behind resourceSize several

theorem parseRangeHeader_malformed_iff (header : Bytes) (resourceSize : Nat) (range : Option ByteRange) :
    parseRangeHeader header resourceSize = ⟨.malformed, range⟩ ↔
      range = none ∧ ¬ Blank header ∧ (∀ text, BehindUnit header text → comma ∉ text) ∧
        ∀ spec, ¬ Asks header spec := by
  constructor
  · intro parsed
    rcases parseRangeHeader_cases header resourceSize with
      ⟨_, same⟩ | ⟨_, _, _, same⟩ | ⟨spec, asks, fits⟩ | ⟨filled, single, unasked, same⟩
    · simp [same] at parsed
    · simp [same] at parsed
    · rcases fits with ⟨same, _⟩ | ⟨_, same, _⟩ <;> simp [same] at parsed
    · rw [parsed, RangeResult.mk.injEq] at same
      exact ⟨same.2, filled, single, unasked⟩
  · rintro ⟨rfl, filled, single, unasked⟩
    exact parseRangeHeader_malformed filled unasked single resourceSize

/-- A partial range lies inside the resource, and its length is the number of its positions. -/
theorem parseRangeHeader_inside {header : Bytes} {resourceSize : Nat} {range : ByteRange}
    (bounded : resourceSize < 2 ^ 64)
    (parsed : parseRangeHeader header resourceSize = ⟨.partialRange, some range⟩) :
    range.start ≤ range.last ∧ range.last < resourceSize ∧
      range.length = range.last - range.start + 1 := by
  obtain ⟨spec, denoted, same, asks, _⟩ := (parseRangeHeader_partial_iff header resourceSize _).mp parsed
  rcases parseRangeHeader_fits asks resourceSize with ⟨rejected, _⟩ | ⟨other, answer, filled, inside, _⟩
  · simp [parsed] at rejected
  · rw [parsed, RangeResult.mk.injEq, Option.some.injEq] at answer
    obtain rfl := answer.2
    exact ⟨filled, inside, length_eq_of_inside filled inside bounded⟩

theorem parseRangeHeader_exact (header : Bytes) (resourceSize : Nat) (bounded : resourceSize < 2 ^ 64) :
    (∀ range, parseRangeHeader header resourceSize = ⟨.partialRange, range⟩ ↔
      ∃ spec denoted, range = some denoted ∧ Asks header spec ∧
        (∃ position, spec.Denotes resourceSize position) ∧
        ∀ position, denoted.Covers position ↔ spec.Denotes resourceSize position) ∧
    (∀ range : ByteRange, parseRangeHeader header resourceSize = ⟨.partialRange, some range⟩ →
      range.start ≤ range.last ∧ range.last < resourceSize ∧
        range.length = range.last - range.start + 1) ∧
    (∀ range, parseRangeHeader header resourceSize = ⟨.unsatisfiable, range⟩ ↔
      range = none ∧ ∃ spec, Asks header spec ∧ ∀ position, ¬ spec.Denotes resourceSize position) ∧
    (∀ range, parseRangeHeader header resourceSize = ⟨.full, range⟩ ↔
      Blank header ∧ range = if resourceSize = 0 then none else some ⟨0, resourceSize - 1⟩) ∧
    (∀ range, parseRangeHeader header resourceSize = ⟨.multipleRangesUnsupported, range⟩ ↔
      range = none ∧ ∃ text, BehindUnit header text ∧ comma ∈ text) ∧
    (∀ range, parseRangeHeader header resourceSize = ⟨.malformed, range⟩ ↔
      range = none ∧ ¬ Blank header ∧ (∀ text, BehindUnit header text → comma ∉ text) ∧
        ∀ spec, ¬ Asks header spec) :=
  ⟨parseRangeHeader_partial_iff header resourceSize, fun _ => parseRangeHeader_inside bounded,
    parseRangeHeader_unsatisfiable_iff header resourceSize, parseRangeHeader_full_iff header resourceSize,
    parseRangeHeader_multiple_iff header resourceSize, parseRangeHeader_malformed_iff header resourceSize⟩

theorem parseRangeHeader_exact_suffix :
    parseRangeHeader (bytes " bytes= - 5\t") 8 = ⟨.partialRange, some ⟨3, 7⟩⟩ ∧
      ∃ spec denoted, some (⟨3, 7⟩ : ByteRange) = some denoted ∧ Asks (bytes " bytes= - 5\t") spec ∧
        (∃ position, spec.Denotes 8 position) ∧
        ∀ position, denoted.Covers position ↔ spec.Denotes 8 position := by
  have parsed : parseRangeHeader (bytes " bytes= - 5\t") 8 = ⟨.partialRange, some ⟨3, 7⟩⟩ := by
    decide +kernel
  exact ⟨parsed, ((parseRangeHeader_exact (bytes " bytes= - 5\t") 8 (by decide)).1 _).mp parsed⟩

end NuvioEngine.Http
