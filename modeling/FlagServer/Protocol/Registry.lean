import FlagServer.Message.Basic
import FlagServer.Schema.Basic

/-!
# Methods

A registry binds method names to what is known of them: whether the method is a request or a
notification, the type of its parameters and, for a request, the type of its result. One name
has one binding, so the parameters of a message are always read the same way.

Types are compared by name. A message that has been decoded remembers the type under which it
was, and gives its parameters only to who asks for that method and that type.
-/

namespace FlagServer

/-- Whether a message expects an answer. -/
inductive Kind where
  | request
  | notification
  deriving DecidableEq

/-- A type of parameters or results. -/
structure PayloadType where
  /-- Its name, by which types are told apart. -/
  name : String
  /-- The shape of its values. -/
  schema : Schema

/-- What is known of a method. -/
structure Method where
  /-- Its name on the wire. -/
  name : String
  /-- Whether it expects an answer. -/
  kind : Kind
  /-- The type of its parameters. -/
  params : PayloadType
  /-- The type of its result; a notification has none. -/
  result : Option PayloadType := none

/-- Two methods of the same kind with the same types. -/
def Method.sameShape (m n : Method) : Bool :=
  m.kind == n.kind && m.params.name == n.params.name
    && m.result.map (·.name) == n.result.map (·.name)

/-- The datum of some parameters. Where null does not fit the type, it is read as an empty
object, because a message without parameters means that too. -/
def PayloadType.decode? (t : PayloadType) (v : Json) : Option Datum :=
  match t.schema.decode? v with
  | some d => some d
  | none => if Schema.isNull v then t.schema.decode? (.obj []) else none

/-! ## Decoded messages -/

/-- A request with its parameters read. -/
structure IncomingRequest where
  /-- Its id. -/
  id : RequestId
  /-- Its method. -/
  method : String
  /-- The name of the type under which the parameters were read. -/
  paramsType : String
  /-- The parameters. -/
  params : Datum

/-- A notification with its parameters read. -/
structure IncomingNotification where
  /-- Its method. -/
  method : String
  /-- The name of the type under which the parameters were read. -/
  paramsType : String
  /-- The parameters. -/
  params : Datum

namespace IncomingRequest

/-- The request is of this method and was read under its type. -/
def is (r : IncomingRequest) (m : Method) : Bool :=
  r.method == m.name && r.paramsType == m.params.name

/-- The id and the parameters, if the request is of this method, and otherwise the request
itself. -/
def extract (r : IncomingRequest) (m : Method) : Except IncomingRequest (RequestId × Datum) :=
  if r.is m then .ok (r.id, r.params) else .error r

/-- A line that names the request. -/
def describe (r : IncomingRequest) : String :=
  let id := match r.id with
    | .number n => "Number(" ++ String.ofList (Text.Decimal.intDigits n.toInt) ++ ")"
    | .text s => "String(" ++ Text.Quoted.quote s ++ ")"
  "IncomingRequest \x7b id: " ++ id ++ ", method: " ++ Text.Quoted.quote r.method ++ ", .. \x7d"

end IncomingRequest

namespace IncomingNotification

/-- The notification is of this method and was read under its type. -/
def is (n : IncomingNotification) (m : Method) : Bool :=
  n.method == m.name && n.paramsType == m.params.name

/-- The parameters, if the notification is of this method, and otherwise the notification
itself. -/
def extract (n : IncomingNotification) (m : Method) : Except IncomingNotification Datum :=
  if n.is m then .ok n.params else .error n

/-- A line that names the notification. -/
def describe (n : IncomingNotification) : String :=
  "IncomingNotification \x7b method: " ++ Text.Quoted.quote n.method ++ ", .. \x7d"

end IncomingNotification

/-! ## The registry -/

/-- Methods by name. -/
structure Registry where
  /-- The bound methods, in the order in which their names were first bound. -/
  methods : List Method := []

namespace Registry

/-- The binding of a name. -/
def find? (r : Registry) (name : String) : Option Method :=
  r.methods.find? fun m => m.name == name

/-- The name is bound. -/
def contains (r : Registry) (name : String) : Bool :=
  (r.find? name).isSome

/-- How many names are bound. -/
def size (r : Registry) : Nat :=
  r.methods.length

/-- A name that is bound to another shape. -/
structure Conflict where
  /-- The name. -/
  method : String
  deriving DecidableEq

/-- Binds a method. The same shape again changes nothing; another shape is refused. -/
def register (r : Registry) (m : Method) : Except Conflict Registry :=
  match r.find? m.name with
  | some bound => if bound.sameShape m then .ok r else .error ⟨m.name⟩
  | none => .ok ⟨r.methods ++ [m]⟩

/-- Binds a method in place of any earlier binding of its name, which is handed back. -/
def override (r : Registry) (m : Method) : Registry × Option Method :=
  match r.find? m.name with
  | some bound => (⟨r.methods.map fun n => if n.name == m.name then m else n⟩, some bound)
  | none => (⟨r.methods ++ [m]⟩, none)

/-- Binds one method after the other, passing over those that are refused. -/
def registerAll (r : Registry) (ms : List Method) : Registry :=
  ms.foldl (fun r m =>
    match r.register m with
    | .ok r => r
    | .error _ => r) r

/-- The binding of a name as a method of the given kind. -/
def lookup (r : Registry) (name : String) (kind : Kind) : Except ResponseError Method :=
  match r.find? name with
  | some m => if m.kind == kind then .ok m else .error (.methodNotFound name)
  | none => .error (.methodNotFound name)

/-- The datum of a message's parameters, with the method under which it was read. -/
def decodeParams (r : Registry) (name : String) (kind : Kind) (params : Json) :
    Except ResponseError (Method × Datum) :=
  match r.lookup name kind with
  | .error e => .error e
  | .ok m =>
    match m.params.decode? params with
    | some d => .ok (m, d)
    | none => .error (.invalidParams name "the value does not have the expected shape")

/-- Decodes a request. -/
def decodeRequest (r : Registry) (id : RequestId) (name : String) (params : Json) :
    Except ResponseError IncomingRequest :=
  (r.decodeParams name .request params).map fun (m, d) => ⟨id, m.name, m.params.name, d⟩

/-- Decodes a notification. -/
def decodeNotification (r : Registry) (name : String) (params : Json) :
    Except ResponseError IncomingNotification :=
  (r.decodeParams name .notification params).map fun (m, d) => ⟨m.name, m.params.name, d⟩

end Registry

end FlagServer
