import FlagServer.Json.Basic
import FlagServer.Url.Basic

/-!
# Shapes of payloads

The parameters and results of a method are JSON values of a known shape. A `Schema` describes
the shape as data; a `Datum` is a value that has been read under one. The two passages between
values and data are `Schema.decode?` and `Datum.encode`, each written once for all shapes.
-/

namespace FlagServer

/-- What a field does where it is missing. -/
inductive Presence where
  /-- The field must be there. -/
  | required
  /-- An absent field and a null are the same, and neither is written. In an array the place
  must be filled. -/
  | optional
  /-- As `optional`, but an array may end before the field. -/
  | trailing
  /-- An absent field and a null are the same, and both are written as null. -/
  | nullable
  /-- The field may be absent, also from the end of an array, but a null is read like any other
  value. -/
  | preset
  deriving DecidableEq

/-- Whether an array may end before a field. -/
def Presence.mayBeCut : Presence → Bool
  | .trailing => true
  | .preset => true
  | _ => false

/-- The shape of a JSON value. -/
inductive Schema where
  /-- Only null. -/
  | unit
  /-- A truth value. -/
  | bool
  /-- An integer within bounds. -/
  | int (lo hi : Int)
  /-- A string. -/
  | text
  /-- A string that spells a URL. -/
  | uri
  /-- Any value at all. -/
  | any
  /-- One of some words: the string, or an object that binds it to null. -/
  | word (choices : List String)
  /-- Null or a value of the shape. -/
  | option (item : Schema)
  /-- The first of the shapes that fits. -/
  | union (choices : List Schema)
  /-- A list of values of one shape. -/
  | list (item : Schema)
  /-- Named fields, read from an object or, where `positional`, from an array of them in order.
  Other members of the object are ignored, unless `others` gives their shape. -/
  | record (positional : Bool) (fields : List (String × Presence × Schema))
      (others : Option Schema)

/-- A value that has been read under a schema. -/
inductive Datum where
  | null
  | bool (b : Bool)
  | int (n : Int)
  | text (s : String)
  | uri (u : Url)
  /-- A value of which nothing was asked. -/
  | json (v : Json)
  | list (items : List Datum)
  /-- The fields that are present. -/
  | record (members : List (String × Datum))

instance : Inhabited Datum := ⟨.null⟩

/-! ## Common shapes -/

namespace Schema

/-- A signed 32-bit integer. -/
def int32 : Schema := .int (-2147483648) 2147483647

/-- An unsigned 32-bit integer. -/
def nat32 : Schema := .int 0 4294967295

/-- A signed 32-bit integer or a string. -/
def numberOrText : Schema := .union [int32, .text]

/-- Named fields, also as an array. -/
def fields (fs : List (String × Presence × Schema)) : Schema := .record true fs none

/-- Named fields, in an object only. -/
def members (fs : List (String × Presence × Schema)) : Schema := .record false fs none

end Schema

/-! ## Looking into a datum -/

namespace Datum

/-- What the members bind a name to. -/
def lookup (name : String) : List (String × Datum) → Option Datum
  | [] => none
  | (k, d) :: rest => if k == name then some d else lookup name rest

/-- A field of a record. -/
def get? (name : String) : Datum → Option Datum
  | .record ms => lookup name ms
  | _ => none

/-- A string. -/
def text? : Datum → Option String
  | .text s => some s
  | _ => none

/-- A URL. -/
def uri? : Datum → Option Url
  | .uri u => some u
  | _ => none

/-- An integer. -/
def int? : Datum → Option Int
  | .int n => some n
  | _ => none

/-- A value of which nothing was asked. -/
def json? : Datum → Option Json
  | .json v => some v
  | _ => none

/-- The items of a list. -/
def items : Datum → List Datum
  | .list ds => ds
  | _ => []

end Datum

/-! ## Writing a datum

A datum is written without its schema: a record writes the fields that it has, a URL its text.
-/

namespace Datum

mutual

/-- The value that a datum is written as. -/
def encode : Datum → Json
  | .null => .null
  | .bool b => .bool b
  | .int n => .num (.int n)
  | .text s => .str s
  | .uri u => .str u.text
  | .json v => v
  | .list items => .arr (encodeItems items)
  | .record members => Json.ofMembers (encodeMembers members)

/-- The values of the items. -/
def encodeItems : List Datum → List Json
  | [] => []
  | d :: ds => encode d :: encodeItems ds

/-- The values of the members. -/
def encodeMembers : List (String × Datum) → List (String × Json)
  | [] => []
  | (k, d) :: ds => (k, encode d) :: encodeMembers ds

end

end Datum

end FlagServer
