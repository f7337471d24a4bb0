import NuvioEngine.Lib.Search
import NuvioEngine.Scheduler.SchedulerCore
import Mathlib.Data.List.DropRight

/-!
Executable embedding of `parse_http_request_head` in `http_protocol.cpp`. Texts are lists of bytes, and
a position in a text is an index into it, as in the source.
-/

namespace NuvioEngine.Http

abbrev Bytes := List UInt8

/-- The bytes of an ASCII literal. -/
def bytes (text : String) : Bytes := text.toList.map fun character => UInt8.ofNat character.toNat

inductive HttpMethod where
  | get
  | head
  deriving DecidableEq, Repr

inductive RequestParseStatus where
  | ok
  | malformed
  | headerTooLarge
  | methodNotAllowed
  deriving DecidableEq, Repr

structure HttpRequest where
  method : HttpMethod
  target : Bytes
  range : Option Bytes
  deriving DecidableEq, Repr

structure RequestParseResult where
  status : RequestParseStatus
  request : Option HttpRequest
  deriving DecidableEq, Repr

def maximumRequestHeadSize : Nat := 16 * 1024

def maximumRequestLineSize : Nat := 4 * 1024

def maximumHeaderCount : Nat := 64

def maximumTargetSize : Nat := 2 * 1024

def space : UInt8 := 32

def tab : UInt8 := 9

def colon : UInt8 := 58

def crlf : Bytes := [13, 10]

/-- `std::string_view::find` from a position on. -/
def find (text needle : Bytes) (position : Nat) : Option Nat :=
  (Search.indexOf needle (text.drop position)).map (· + position)

def substr (text : Bytes) (position count : Nat) : Bytes := (text.drop position).take count

def isBlank (byte : UInt8) : Bool := byte = space || byte = tab

def trim (value : Bytes) : Bytes := (value.dropWhile isBlank).rdropWhile isBlank

def toLower (byte : UInt8) : UInt8 := if 65 ≤ byte && byte ≤ 90 then byte + 32 else byte

def caseInsensitiveEqual (left right : Bytes) : Bool :=
  left.length = right.length && (left.zip right).all fun pair => toLower pair.1 = toLower pair.2

def separators : Bytes := bytes "()<>@,;:\\\"/[]?=\x7b\x7d \t"

def validHeaderName (name : Bytes) : Bool :=
  !name.isEmpty && name.all fun byte => 32 < byte && byte < 127 && !separators.contains byte

def validHeaderValue (value : Bytes) : Bool :=
  value.all fun byte => byte = tab || (32 ≤ byte && byte ≠ 127)

def validTarget (target : Bytes) : Bool :=
  !target.isEmpty && target.length ≤ maximumTargetSize && target.head? = some 47 &&
    target.all fun byte => 33 ≤ byte && byte < 127 && byte ≠ 92 && byte ≠ 35

def isDigit (byte : UInt8) : Bool := 48 ≤ byte && byte ≤ 57

def decimal (digits : Bytes) : Nat := digits.foldl (fun value byte => value * 10 + (byte.toNat - 48)) 0

/-- `std::from_chars` for a 64-bit value takes digits only, and all of the text must be taken. -/
def parseContentLength (value : Bytes) : Option Nat :=
  let normalized := trim value
  if normalized.isEmpty then none
  else if normalized.all isDigit && decimal normalized ≤ uint64Max then some (decimal normalized)
  else none

/-- What the header fields of interest have been so far. -/
structure HeaderFields where
  range : Option Bytes := none
  contentLength : Option Nat := none
  deriving DecidableEq, Repr

/-- One header line of the loop. -/
def parseHeader (line : Bytes) (fields : HeaderFields) : Except RequestParseStatus HeaderFields :=
  if line.head? = some space || line.head? = some tab then .error .malformed
  else
    match find line [colon] 0 with
    | none => .error .malformed
    | some separator =>
        let name := substr line 0 separator
        let value := trim (line.drop (separator + 1))
        if !validHeaderName name || !validHeaderValue value then .error .malformed
        else if caseInsensitiveEqual name (bytes "Range") then
          if fields.range.isSome || value.isEmpty then .error .malformed
          else .ok { fields with range := some value }
        else if caseInsensitiveEqual name (bytes "Transfer-Encoding") then .error .malformed
        else if caseInsensitiveEqual name (bytes "Content-Length") then
          match parseContentLength value with
          | none => .error .malformed
          | some parsed =>
              if fields.contentLength.isSome then .error .malformed
              else .ok { fields with contentLength := some parsed }
        else .ok fields

/-- The loop over the header lines, with the number of lines that may still come. -/
def parseHeaders (requestHead : Bytes) (remaining position : Nat) (fields : HeaderFields) :
    Except RequestParseStatus HeaderFields :=
  if position < requestHead.length - 2 then
    match find requestHead crlf position with
    | none => .error .malformed
    | some lineEnd =>
        if lineEnd = position then .ok fields
        else
          match remaining with
          | 0 => .error .headerTooLarge
          | remaining + 1 =>
              match parseHeader (substr requestHead position (lineEnd - position)) fields with
              | .error status => .error status
              | .ok next => parseHeaders requestHead remaining (lineEnd + 2) next
  else .ok fields

/-- The three parts of a request line, which has two spaces. -/
def splitRequestLine (requestLine : Bytes) : Option (Bytes × Bytes × Bytes) :=
  match find requestLine [space] 0 with
  | none => none
  | some firstSpace =>
      match find requestLine [space] (firstSpace + 1) with
      | none => none
      | some secondSpace =>
          if (find requestLine [space] (secondSpace + 1)).isSome then none
          else some (substr requestLine 0 firstSpace,
            substr requestLine (firstSpace + 1) (secondSpace - firstSpace - 1),
            requestLine.drop (secondSpace + 1))

def parseMethod (methodText : Bytes) : Option HttpMethod :=
  if methodText = bytes "GET" then some .get
  else if methodText = bytes "HEAD" then some .head
  else none

def parseHttpRequestHead (requestHead : Bytes) : RequestParseResult :=
  if requestHead.length > maximumRequestHeadSize then ⟨.headerTooLarge, none⟩
  else if !(crlf ++ crlf).isSuffixOf requestHead then ⟨.malformed, none⟩
  else
    match find requestHead crlf 0 with
    | none => ⟨.malformed, none⟩
    | some requestLineEnd =>
        if requestLineEnd > maximumRequestLineSize then ⟨.malformed, none⟩
        else
          match splitRequestLine (substr requestHead 0 requestLineEnd) with
          | none => ⟨.malformed, none⟩
          | some (methodText, target, version) =>
              if !validHeaderName methodText || !validTarget target ||
                  (version ≠ bytes "HTTP/1.1" && version ≠ bytes "HTTP/1.0") then ⟨.malformed, none⟩
              else
                match parseMethod methodText with
                | none => ⟨.methodNotAllowed, none⟩
                | some method =>
                    match parseHeaders requestHead maximumHeaderCount (requestLineEnd + 2) {} with
                    | .error status => ⟨status, none⟩
                    | .ok fields =>
                        if fields.contentLength.getD 0 ≠ 0 then ⟨.malformed, none⟩
                        else ⟨.ok, some ⟨method, target, fields.range⟩⟩

end NuvioEngine.Http
