import NuvioEngine.Http.ByteRangeCore
import Mathlib.Data.Nat.Digits.Defs

/-! Executable embedding of `build_stream_response` and `build_error_response` in `http_protocol.cpp`. -/

namespace NuvioEngine.Http

inductive ResponseStatus where
  | ok
  | partialContent
  | badRequest
  | notFound
  | methodNotAllowed
  | rangeNotSatisfiable
  | requestHeaderFieldsTooLarge
  | internalServerError
  | serviceUnavailable
  deriving DecidableEq, Repr

namespace ResponseStatus

def code : ResponseStatus → Nat
  | ok => 200
  | partialContent => 206
  | badRequest => 400
  | notFound => 404
  | methodNotAllowed => 405
  | rangeNotSatisfiable => 416
  | requestHeaderFieldsTooLarge => 431
  | internalServerError => 500
  | serviceUnavailable => 503

def reasonPhrase : ResponseStatus → Bytes
  | ok => bytes "OK"
  | partialContent => bytes "Partial Content"
  | badRequest => bytes "Bad Request"
  | notFound => bytes "Not Found"
  | methodNotAllowed => bytes "Method Not Allowed"
  | rangeNotSatisfiable => bytes "Range Not Satisfiable"
  | requestHeaderFieldsTooLarge => bytes "Request Header Fields Too Large"
  | internalServerError => bytes "Internal Server Error"
  | serviceUnavailable => bytes "Service Unavailable"

end ResponseStatus

structure StreamResponse where
  status : ResponseStatus
  bodyRange : Option ByteRange
  includeBody : Bool
  headers : Bytes
  deriving DecidableEq, Repr

/-- `std::to_string` of an unsigned value. -/
def toDecimal (value : Nat) : Bytes :=
  if value = 0 then [48]
  else ((Nat.digits 10 value).map fun digit => UInt8.ofNat (48 + digit)).reverse

def slash : UInt8 := 47

def validContentType (value : Bytes) : Bool :=
  if value.isEmpty || value.length > 127 || (find value [slash] 0).isNone then false
  else value.all fun byte => 33 ≤ byte && byte < 127

def appendStatusLine (output : Bytes) (status : ResponseStatus) : Bytes :=
  output ++ bytes "HTTP/1.1 " ++ toDecimal status.code ++ [space] ++ status.reasonPhrase ++ crlf

def appendCommonHeaders (output : Bytes) : Bytes :=
  output ++ bytes "Accept-Ranges: bytes\r\n" ++ bytes "Access-Control-Allow-Origin: *\r\n" ++
    bytes "Access-Control-Allow-Headers: Range\r\n" ++
    bytes "Access-Control-Expose-Headers: Content-Length, Content-Range\r\n" ++
    bytes "transferMode.dlna.org: Streaming\r\n" ++ bytes "Connection: close\r\n"

def buildErrorResponse (status : ResponseStatus) (resourceSize : Nat) : Bytes :=
  let response := appendCommonHeaders (appendStatusLine [] status)
  let response := if status = .methodNotAllowed then response ++ bytes "Allow: GET, HEAD\r\n" else response
  let response :=
    if status = .rangeNotSatisfiable then
      response ++ bytes "Content-Range: bytes */" ++ toDecimal resourceSize ++ crlf
    else response
  response ++ bytes "Content-Length: 0\r\n\r\n"

/-- The part of `build_stream_response` behind its two error returns. -/
def buildBodyResponse (method : HttpMethod) (status : ResponseStatus) (range : Option ByteRange)
    (resourceSize : Nat) (contentType : Bytes) : StreamResponse :=
  let headers := appendCommonHeaders (appendStatusLine [] status)
  let headers := headers ++ bytes "Content-Type: " ++
    (if validContentType contentType then contentType else bytes "application/octet-stream") ++ crlf
  let contentLength :=
    match range with
    | some range => range.length
    | none => 0
  let headers := headers ++ bytes "Content-Length: " ++ toDecimal contentLength ++ crlf
  let headers :=
    match range with
    | some range =>
        if status = .partialContent then
          headers ++ bytes "Content-Range: bytes " ++ toDecimal range.start ++ [dash] ++
            toDecimal range.last ++ [slash] ++ toDecimal resourceSize ++ crlf
        else headers
    | none => headers
  ⟨status, range, method = .get && contentLength > 0, headers ++ crlf⟩

def buildStreamResponse (request : HttpRequest) (resourceSize : Nat) (contentType : Bytes) :
    StreamResponse :=
  let range := parseRangeHeader (request.range.getD []) resourceSize
  match range.status with
  | .malformed => ⟨.badRequest, none, false, buildErrorResponse .badRequest 0⟩
  | .unsatisfiable | .multipleRangesUnsupported =>
      ⟨.rangeNotSatisfiable, none, false, buildErrorResponse .rangeNotSatisfiable resourceSize⟩
  | .partialRange =>
      buildBodyResponse request.method .partialContent range.range resourceSize contentType
  | .full => buildBodyResponse request.method .ok range.range resourceSize contentType

end NuvioEngine.Http
