import FlagServer.Json.Printer
import FlagServer.Message.Basic

/-!
# Messages

A message is a request, a notification or a response. On the wire it is an object, and which
members the object has decides which of the three it is: with `method` it is a request if it
has an `id` and a notification if not; without `method` it is a response, an error before a
result. Parameters are any value, and null is the same as none.
-/

namespace FlagServer

/-- The answer to a request. -/
structure Response where
  /-- The id of the request, unless that could not be read. -/
  id : Option RequestId
  /-- The result or the error. -/
  outcome : Except ResponseError Json

/-- A message whose parameters have not been looked at. -/
inductive Message where
  | request (id : RequestId) (method : String) (params : Json)
  | notification (method : String) (params : Json)
  | response (r : Response)

/-- A value that is no message, with the error that its sender is told. -/
structure Malformed where
  /-- The id, where the value has one that can be read. -/
  id : Option RequestId
  /-- What is wrong. -/
  error : ResponseError

namespace Malformed

/-- A malformed message. -/
def new (id : Option RequestId) (detail : String) : Malformed :=
  ⟨id, .invalidRequest detail⟩

/-- How a message names a malformed one. -/
def display (m : Malformed) : String :=
  "malformed message: " ++ m.error.message

end Malformed

namespace Message

/-- The protocol version. -/
def version : String := "2.0"

/-- The method, unless the message is a response. -/
def method? : Message → Option String
  | .request _ method _ => some method
  | .notification method _ => some method
  | .response _ => none

/-! ## Reading -/

/-- The id that the members give: an absent one and a null are none. -/
def idOf? (members : List (String × Json)) : Except Malformed (Option RequestId) :=
  match Json.lookup "id" members with
  | none => .ok none
  | some .null => .ok none
  | some v =>
    match RequestId.ofJson? v with
    | some id => .ok (some id)
    | none => .error (.new none "\x60id\x60 must be an integer or a string")

/-- Refuses another version than ours; no version at all is fine. -/
def checkVersion (id : Option RequestId) (members : List (String × Json)) :
    Except Malformed Unit :=
  match Json.lookup "jsonrpc" members with
  | none => .ok ()
  | some (.str s) =>
    if s == version then .ok ()
    else .error (.new id ("unsupported jsonrpc version " ++ (Json.str s).renderText))
  | some v => .error (.new id ("unsupported jsonrpc version " ++ v.renderText))

/-- The response that the members of an object without `method` make. A malformed error is
still an error, of this side's wording. -/
def responseOf? (id : Option RequestId) (members : List (String × Json)) :
    Except Malformed Message :=
  match Json.lookup "error" members with
  | some v =>
    let error := (ResponseError.ofJson? v).getD
      (.internalError "malformed error response: not an error object")
    .ok (.response ⟨id, .error error⟩)
  | none =>
    match Json.lookup "result" members with
    | some v => .ok (.response ⟨id, .ok v⟩)
    | none =>
      .error (.new id "message has neither \x60method\x60 nor \x60result\x60/\x60error\x60")

/-- The message that the members of an object make. -/
def ofMembers? (members : List (String × Json)) : Except Malformed Message :=
  match idOf? members with
  | .error e => .error e
  | .ok id =>
    match checkVersion id members with
    | .error e => .error e
    | .ok _ =>
      let params := (Json.lookup "params" members).getD .null
      match Json.lookup "method" members with
      | some (.str method) =>
        match id with
        | some id => .ok (.request id method params)
        | none => .ok (.notification method params)
      | some _ => .error (.new id "\x60method\x60 must be a string")
      | none => responseOf? id members

/-- The message that a value is. -/
def ofJson? : Json → Except Malformed Message
  | .obj members => ofMembers? members
  | _ => .error (.new none "expected a JSON object")

/-! ## Writing -/

/-- The member for parameters, which null does without. -/
def paramsMember : Json → List (String × Json)
  | .null => []
  | v => [("params", v)]

/-- The value of a message. -/
def toJson : Message → Json
  | .request id method params =>
    Json.ofMembers ([("jsonrpc", .str version), ("id", id.toJson), ("method", .str method)]
      ++ paramsMember params)
  | .notification method params =>
    Json.ofMembers ([("jsonrpc", .str version), ("method", .str method)] ++ paramsMember params)
  | .response r =>
    let id := match r.id with
      | some id => id.toJson
      | none => .null
    let outcome := match r.outcome with
      | .ok v => ("result", v)
      | .error e => ("error", e.toJson)
    Json.ofMembers [("jsonrpc", .str version), ("id", id), outcome]

end Message

end FlagServer
