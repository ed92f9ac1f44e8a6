import FlagServer.Text.Basic

/-!
# JSON values

A value keeps what a program can observe of it: an integer in the range of 64-bit words stays
an integer, any other number is a double, and an object is a finite map, listed by its keys
in order.
-/

namespace FlagServer

/-- A finite binary64 number, held by its bits so that equality is equality of bits. -/
structure Double where
  /-- Sign, exponent and significand, as in the interchange format. -/
  bits : UInt64
  deriving DecidableEq

namespace Json

/-- The least integer that is kept as one. -/
def minInt : Int := -9223372036854775808

/-- The greatest integer that is kept as one. -/
def maxInt : Int := 18446744073709551615

/-- A number: an integer from `minInt` to `maxInt`, or a double. -/
inductive Number where
  | int (n : Int)
  | real (x : Double)
  deriving DecidableEq

end Json

/-- A JSON value. -/
inductive Json where
  | null
  | bool (b : Bool)
  | num (n : Json.Number)
  | str (s : String)
  | arr (items : List Json)
  | obj (members : List (String × Json))

instance : Inhabited Json := ⟨.null⟩

namespace Json

/-- An integer. -/
def int (n : Int) : Json := .num (.int n)

/-- A natural number. -/
def nat (n : Nat) : Json := .num (.int n)

/-! ## Members -/

/-- The members with `key` bound to `value`: in the place that the order gives it, instead of
an earlier binding of the same key. -/
def bind (key : String) (value : Json) : List (String × Json) → List (String × Json)
  | [] => [(key, value)]
  | (k, v) :: rest =>
    if k == key then (key, value) :: rest
    else if Text.precedes key k then (key, value) :: (k, v) :: rest
    else (k, v) :: bind key value rest

/-- The object with the given bindings, later ones replacing earlier ones. -/
def ofMembers (members : List (String × Json)) : Json :=
  .obj (members.foldl (fun acc (k, v) => bind k v acc) [])

/-- What the members bind `key` to. -/
def lookup (key : String) : List (String × Json) → Option Json
  | [] => none
  | (k, v) :: rest => if k == key then some v else lookup key rest

/-- The member `key` of an object. -/
def get? (key : String) : Json → Option Json
  | .obj members => lookup key members
  | _ => none

/-- The members without `key`. -/
def unbind (key : String) (members : List (String × Json)) : List (String × Json) :=
  members.filter fun (k, _) => !(k == key)

/-! ## Nesting -/

mutual

/-- How many arrays and objects are open at the deepest place of a value. -/
def depth : Json → Nat
  | .arr items => depthItems items + 1
  | .obj members => depthMembers members + 1
  | _ => 0

/-- The greatest depth of the items. -/
def depthItems : List Json → Nat
  | [] => 0
  | v :: vs => max (depth v) (depthItems vs)

/-- The greatest depth of the members' values. -/
def depthMembers : List (String × Json) → Nat
  | [] => 0
  | (_, v) :: vs => max (depth v) (depthMembers vs)

end

end Json

end FlagServer
