import FlagServer.Schema.Decode
import FlagServer.Text.Quoted

/-!
# Ids and errors

What a request and its response are told by, and what a response carries that is no result.
-/

namespace FlagServer

/-! ## Request ids

The side that sends a request chooses its id: a 32-bit number or a string. A number and the
string of its digits are different ids.
-/

/-- The id of a request. -/
inductive RequestId where
  | number (n : Int32)
  | text (s : String)
  deriving DecidableEq

namespace RequestId

/-- The least number that is an id. -/
def minNumber : Int := -2147483648

/-- The greatest number that is an id. -/
def maxNumber : Int := 2147483647

/-- The id that a value is. -/
def ofJson? : Json → Option RequestId
  | .num (.int n) =>
    if minNumber ≤ n ∧ n ≤ maxNumber then some (.number (Int32.ofInt n)) else none
  | .str s => some (.text s)
  | _ => none

/-- The value of an id. -/
def toJson : RequestId → Json
  | .number n => .num (.int n.toInt)
  | .text s => .str s

/-- How a message names an id: a number by its digits, a string quoted. -/
def display : RequestId → String
  | .number n => String.ofList (Text.Decimal.intDigits n.toInt)
  | .text s => Text.Quoted.quote s

end RequestId

/-! ## Errors in responses

A response that is no result carries an error: a code, a text and perhaps some data. The codes
that the protocol names have a kind of their own; every other number is kept as it is.
-/

/-- The kind of an error. -/
inductive ErrorCode where
  | parseError
  | invalidRequest
  | methodNotFound
  | invalidParams
  | internalError
  | serverNotInitialized
  | unknownErrorCode
  | requestCancelled
  | contentModified
  /-- Any other number. -/
  | serverError (code : Int32)
  deriving DecidableEq

namespace ErrorCode

/-- The number of a kind. -/
def code : ErrorCode → Int32
  | parseError => -32700
  | invalidRequest => -32600
  | methodNotFound => -32601
  | invalidParams => -32602
  | internalError => -32603
  | serverNotInitialized => -32002
  | unknownErrorCode => -32001
  | requestCancelled => -32800
  | contentModified => -32801
  | serverError n => n

/-- The kinds with a number of their own. -/
def named : List ErrorCode :=
  [parseError, invalidRequest, methodNotFound, invalidParams, internalError,
    serverNotInitialized, unknownErrorCode, requestCancelled, contentModified]

/-- The kind of a number. -/
def ofCode (n : Int32) : ErrorCode :=
  match named.find? fun k => k.code == n with
  | some k => k
  | none => serverError n

end ErrorCode

/-- The error of a response. -/
structure ResponseError where
  /-- The code. -/
  code : Int32
  /-- The text for people. -/
  message : String
  /-- Whatever else the sender wants to say; an explicit null is data too. -/
  data : Option Json := none

namespace ResponseError

/-- An error of a kind. -/
def new (kind : ErrorCode) (message : String) : ResponseError :=
  { code := kind.code, message }

/-- The error with data. -/
def withData (e : ResponseError) (data : Json) : ResponseError :=
  { e with data := some data }

/-- The kind of an error. -/
def kind (e : ResponseError) : ErrorCode :=
  .ofCode e.code

/-- A frame that is not JSON. -/
def parseError (detail : String) : ResponseError :=
  new .parseError ("Parse error: " ++ detail)

/-- A message that makes no sense here. -/
def invalidRequest (detail : String) : ResponseError :=
  new .invalidRequest ("Invalid request: " ++ detail)

/-- A method that nobody answers. -/
def methodNotFound (method : String) : ResponseError :=
  new .methodNotFound ("Method not found: " ++ method)

/-- Parameters that do not fit the method. -/
def invalidParams (method detail : String) : ResponseError :=
  new .invalidParams ("Invalid params for " ++ method ++ ": " ++ detail)

/-- A failure of this side. -/
def internalError (detail : String) : ResponseError :=
  new .internalError detail

/-- A request before the session is initialized. -/
def serverNotInitialized : ResponseError :=
  new .serverNotInitialized "Server not initialized"

/-- A request that its sender has cancelled. -/
def requestCancelled : ResponseError :=
  new .requestCancelled "Request cancelled"

/-- How a message names an error. -/
def display (e : ResponseError) : String :=
  e.message ++ " (code " ++ String.ofList (Text.Decimal.intDigits e.code.toInt) ++ ")"

/-- The value of an error. -/
def toJson (e : ResponseError) : Json :=
  Json.ofMembers ([("code", .num (.int e.code.toInt)), ("message", .str e.message)] ++
    match e.data with
    | some v => [("data", v)]
    | none => [])

/-- The shape of an error. -/
def schema : Schema :=
  .fields [("code", .required, .int32), ("message", .required, .text), ("data", .trailing, .any)]

/-- The error that a datum of that shape describes. -/
def ofDatum? (d : Datum) : Option ResponseError :=
  match (d.get? "code").bind Datum.int?, (d.get? "message").bind Datum.text? with
  | some code, some message =>
    some { code := Int32.ofInt code, message, data := (d.get? "data").bind Datum.json? }
  | _, _ => none

/-- The error that a value describes. -/
def ofJson? (v : Json) : Option ResponseError :=
  (schema.decode? v).bind ofDatum?

end ResponseError

end FlagServer
