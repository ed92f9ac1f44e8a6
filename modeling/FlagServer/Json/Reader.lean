import FlagServer.Json.Literal
import FlagServer.Text.Utf8

/-!
# Reading a JSON value

What a free-form message means. Of two equal keys the last counts; a number that is written
without point and exponent and fits a 64-bit word is an integer, any other is a double; a
number too large for a double, a lone surrogate and a nesting deeper than `maxDepth` are
refused.
-/

namespace FlagServer.Json

/-- The most arrays and objects that may be open at once. -/
def maxDepth : Nat := 127

/-- The greatest significand. -/
def maxSignificand : Nat := 18446744073709551615

/-- The greatest exponent that is counted; beyond it the sign alone decides. -/
def maxExponent : Nat := 2147483647

/-! ## Numbers -/

/-- Reads whole digits into the significand `sig` while it fits 64 bits; the digits from the
first that does not fit on only raise the exponent `e`. -/
def gatherWhole (sig : Nat) (e : Nat) (full : Bool) : List Char → Nat × Nat
  | [] => (sig, e)
  | c :: cs =>
    let next := 10 * sig + Text.Decimal.ofDigits [c]
    if full || maxSignificand < next then gatherWhole sig (e + 1) true cs
    else gatherWhole next e false cs

/-- Reads digits after the point into the significand; from the first that does not fit on they
are dropped. -/
def gatherFraction (sig : Nat) (e : Int) : List Char → Nat × Int
  | [] => (sig, e)
  | c :: cs =>
    let next := 10 * sig + Text.Decimal.ofDigits [c]
    if maxSignificand < next then (sig, e) else gatherFraction next (e - 1) cs

/-- The double that a numeral means. -/
def realOf? (n : Numeral) : Option Double :=
  let (sig, e) := gatherWhole 0 0 false n.whole
  let (sig, e) := gatherFraction sig (e : Int) n.fraction
  match n.exponent with
  | none => Double.scale n.negative sig e
  | some (negative, ds) =>
    let x := Text.Decimal.ofDigits ds
    if maxExponent < x then
      if sig != 0 && !negative then none else Double.scale n.negative 0 0
    else Double.scale n.negative sig (if negative then e - x else e + x)

/-- The number that a numeral means: an integer where it is written and fits as one. The
negative zero is a double. -/
def numberOf? (n : Numeral) : Option Number :=
  let m := Text.Decimal.ofDigits n.whole
  if n.fraction.isEmpty && n.exponent.isNone then
    if !n.negative && (m : Int) ≤ maxInt then some (.int m)
    else if n.negative && m != 0 && minInt ≤ -(m : Int) then some (.int (-(m : Int)))
    else (realOf? n).map .real
  else (realOf? n).map .real

/-! ## Values -/

mutual

/-- The value that a literal means, with at most `depth` arrays and objects open at once. -/
def ofLiteral? (depth : Nat) : Literal → Option Json
  | .null => some .null
  | .bool b => some (.bool b)
  | .num n => (numberOf? n).map .num
  | .str s => s.map .str
  | .arr items =>
    match depth with
    | 0 => none
    | depth + 1 => (ofItems? depth items).map .arr
  | .obj members =>
    match depth with
    | 0 => none
    | depth + 1 => (ofMembers? depth members []).map .obj

/-- The values of the items. -/
def ofItems? (depth : Nat) : List Literal → Option (List Json)
  | [] => some []
  | v :: vs =>
    match ofLiteral? depth v, ofItems? depth vs with
    | some v, some vs => some (v :: vs)
    | _, _ => none

/-- The members bound one after the other on top of `acc`. -/
def ofMembers? (depth : Nat) :
    List (Option String × Literal) → List (String × Json) → Option (List (String × Json))
  | [], acc => some acc
  | (key, v) :: rest, acc =>
    match key, ofLiteral? depth v with
    | some key, some v => ofMembers? depth rest (bind key v acc)
    | _, _ => none

end

/-- The value of a text. -/
def parse? (cs : List Char) : Option Json :=
  (literal? cs).bind (ofLiteral? maxDepth)

/-- The value of a text given by its bytes. -/
def parseBytes? (bytes : List UInt8) : Option Json :=
  (Text.Utf8.decode? bytes).bind parse?

end FlagServer.Json
