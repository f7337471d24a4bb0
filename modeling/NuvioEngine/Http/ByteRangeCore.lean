import NuvioEngine.Http.RequestHeadCore

/-! Executable embedding of `byte_range.cpp`. -/

namespace NuvioEngine

/-- `ByteRange::length`, which wraps around like every 64-bit sum. -/
def ByteRange.length (range : ByteRange) : Nat := add64 (sub64 range.last range.start) 1

namespace Http

/-- `RangeStatus`; its `partial` is a reserved word here. -/
inductive RangeStatus where
  | full
  | partialRange
  | malformed
  | unsatisfiable
  | multipleRangesUnsupported
  deriving DecidableEq, Repr

structure RangeResult where
  status : RangeStatus
  range : Option ByteRange
  deriving DecidableEq, Repr

def comma : UInt8 := 44

def dash : UInt8 := 45

/-- As in `parseContentLength`, `std::from_chars` takes digits only and must take all of the text. -/
def parseUnsigned (value : Bytes) : Option Nat :=
  if value.isEmpty then none
  else if value.all isDigit && decimal value ≤ uint64Max then some (decimal value)
  else none

def parseSuffix (suffixText : Bytes) (resourceSize : Nat) : RangeResult :=
  match parseUnsigned (trim suffixText) with
  | none => ⟨.malformed, none⟩
  | some suffixLength =>
      if suffixLength = 0 || resourceSize = 0 then ⟨.unsatisfiable, none⟩
      else
        let length := if suffixLength < resourceSize then suffixLength else resourceSize
        ⟨.partialRange, some ⟨resourceSize - length, resourceSize - 1⟩⟩

/-- The last part of `parse_range_header`, behind the test of an empty `start_text`. -/
def parseInterval (startText endText : Bytes) (resourceSize : Nat) : RangeResult :=
  match parseUnsigned startText with
  | none => ⟨.malformed, none⟩
  | some start =>
      if !endText.isEmpty && (parseUnsigned endText).isNone then ⟨.malformed, none⟩
      else if resourceSize = 0 || start ≥ resourceSize then ⟨.unsatisfiable, none⟩
      else
        match if endText.isEmpty then none else parseUnsigned endText with
        | none => ⟨.partialRange, some ⟨start, resourceSize - 1⟩⟩
        | some last =>
            if start > last then ⟨.unsatisfiable, none⟩
            else ⟨.partialRange, some ⟨start, if last ≥ resourceSize then resourceSize - 1 else last⟩⟩

def rangeUnit : Bytes := bytes "bytes="

def parseRangeHeader (text : Bytes) (resourceSize : Nat) : RangeResult :=
  let header := trim text
  if header.isEmpty then
    if resourceSize = 0 then ⟨.full, none⟩ else ⟨.full, some ⟨0, resourceSize - 1⟩⟩
  else if !rangeUnit.isPrefixOf header then ⟨.malformed, none⟩
  else
    let specification := trim (header.drop rangeUnit.length)
    if specification.isEmpty then ⟨.malformed, none⟩
    else if (find specification [comma] 0).isSome then ⟨.multipleRangesUnsupported, none⟩
    else
      match find specification [dash] 0 with
      | none => ⟨.malformed, none⟩
      | some separator =>
          if (find specification [dash] (separator + 1)).isSome then ⟨.malformed, none⟩
          else
            let startText := trim (substr specification 0 separator)
            let endText := trim (specification.drop (separator + 1))
            if startText.isEmpty then parseSuffix endText resourceSize
            else parseInterval startText endText resourceSize

end Http

end NuvioEngine
