import FlagServer.Schema.Basic
import FlagServer.Url.Parser

/-!
# Reading a value under a schema

The reader says what a value is under a schema, or that it does not fit; it gives no reasons.
A record may come as an object or, if it is positional, as an array of its fields in order.
-/

namespace FlagServer.Schema

/-- The word that a value names: a string, or an object with one member that is null. -/
def wordOf? : Json → Option String
  | .str s => some s
  | .obj [(s, .null)] => some s
  | _ => none

/-- Null. -/
def isNull : Json → Bool
  | .null => true
  | _ => false

/-- One field read by `read`, given what stands in its place. -/
def decodeField? (name : String) (presence : Presence) (read : Json → Option Datum)
    (found : Option Json) : Option (List (String × Datum)) :=
  match presence, found with
  | .required, none => none
  | .required, some v => (read v).map fun d => [(name, d)]
  | .preset, none => some []
  | .preset, some v => (read v).map fun d => [(name, d)]
  | .nullable, none => some [(name, .null)]
  | .nullable, some v =>
    if isNull v then some [(name, .null)] else (read v).map fun d => [(name, d)]
  | _, none => some []
  | _, some v => if isNull v then some [] else (read v).map fun d => [(name, d)]

mutual

/-- What a value is under a schema. -/
def decode? : Schema → Json → Option Datum
  | .unit, v => if isNull v then some .null else none
  | .bool, v =>
    match v with
    | .bool b => some (.bool b)
    | _ => none
  | .int lo hi, v =>
    match v with
    | .num (.int n) => if lo ≤ n ∧ n ≤ hi then some (.int n) else none
    | _ => none
  | .text, v =>
    match v with
    | .str s => some (.text s)
    | _ => none
  | .uri, v =>
    match v with
    | .str s => (Url.parse? s).map .uri
    | _ => none
  | .any, v => some (.json v)
  | .word choices, v =>
    match wordOf? v with
    | some s => if choices.contains s then some (.text s) else none
    | none => none
  | .option item, v => if isNull v then some .null else decode? item v
  | .union choices, v => decodeFirst? choices v
  | .list item, v =>
    match v with
    | .arr vs => (vs.mapM (decode? item)).map .list
    | _ => none
  | .record positional fields others, v =>
    match v with
    | .obj members =>
      match decodeFields? fields members,
          decodeOthers? others (members.filter fun m => !fields.any fun f => f.1 == m.1) with
      | some ds, some more => some (.record (ds ++ more))
      | _, _ => none
    | .arr vs => if positional then (decodePlaces? fields vs).map .record else none
    | _ => none

/-- What a value is under the first schema that fits. -/
def decodeFirst? : List Schema → Json → Option Datum
  | [], _ => none
  | s :: rest, v =>
    match decode? s v with
    | some d => some d
    | none => decodeFirst? rest v

/-- The fields found among the members of an object. -/
def decodeFields? :
    List (String × Presence × Schema) → List (String × Json) → Option (List (String × Datum))
  | [], _ => some []
  | (name, presence, s) :: rest, members =>
    match decodeField? name presence (decode? s) (Json.lookup name members),
        decodeFields? rest members with
    | some ds, some more => some (ds ++ more)
    | _, _ => none

/-- The members of an object that are none of its fields, where they are read. -/
def decodeOthers? :
    Option Schema → List (String × Json) → Option (List (String × Datum))
  | none, _ => some []
  | some item, members => members.mapM fun m => (decode? item m.2).map fun d => (m.1, d)

/-- The fields found in the places of an array, which holds nothing else. -/
def decodePlaces? :
    List (String × Presence × Schema) → List Json → Option (List (String × Datum))
  | [], [] => some []
  | [], _ :: _ => none
  | (name, presence, s) :: rest, v :: vs =>
    match decodeField? name presence (decode? s) (some v), decodePlaces? rest vs with
    | some ds, some more => some (ds ++ more)
    | _, _ => none
  | (name, presence, s) :: rest, [] =>
    if presence.mayBeCut then
      match decodeField? name presence (decode? s) none, decodePlaces? rest [] with
      | some ds, some more => some (ds ++ more)
      | _, _ => none
    else none

end

end FlagServer.Schema
