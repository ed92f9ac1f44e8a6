import FlagServer.Json.Basic
import FlagServer.Text.Basic

/-!
# Doubles and their decimals

Two passages between doubles and decimals, neither of which is the other's inverse in
general.

* **Reading** (`scale`): a significand of at most 64 bits is converted to a double and then
  multiplied or divided by a power of ten. Both steps round, so the result can differ from the
  nearest double in its last bit.
* **Writing** (`shortest`): the fewest significant digits that determine the double, and of
  those the nearest. The search is exact: it compares natural numbers only.
-/

namespace FlagServer.Double

/-! ## Reading -/

/-- A power of ten as a double. -/
def tenPow (e : Nat) : Float :=
  Float.ofScientific 1 false e

/-- The largest exponent of ten that is a double. -/
def maxTenPow : Nat := 308

/-- The double of a number given by `f` and a power of ten; nothing if it is too large. Below
the smallest power of ten the division is made in steps, of which a 64-bit significand
survives at most two. -/
def scaleFloat (f : Float) (e : Int) : Nat → Option Float
  | 0 => some 0
  | steps + 1 =>
    if e.natAbs ≤ maxTenPow then
      if 0 ≤ e then
        let g := f * tenPow e.natAbs
        if g.isInf then none else some g
      else some (f / tenPow e.natAbs)
    else if f == 0 then some f
    else if 0 ≤ e then none
    else scaleFloat (f / tenPow maxTenPow) (e + maxTenPow) steps

/-- The double of `significand · 10 ^ e`, negated if asked; nothing if it is too large. -/
def scale (negative : Bool) (significand : Nat) (e : Int) : Option Double :=
  (scaleFloat significand.toUInt64.toFloat e 4).map fun f =>
    ⟨(if negative then -f else f).toBits⟩

/-! ## Writing -/

/-- The sign bit. -/
def isNegative (x : Double) : Bool :=
  x.bits.toNat / Nat.pow 2 63 == 1

/-- The biased exponent. -/
def biasedExponent (x : Double) : Nat :=
  x.bits.toNat / Nat.pow 2 52 % Nat.pow 2 11

/-- The stored part of the significand. -/
def storedSignificand (x : Double) : Nat :=
  x.bits.toNat % Nat.pow 2 52

/-- A positive double as `m · 2 ^ q` together with the reals that round to it, all in units of
`2 ^ (q - 2)`: the value is `4 m`, and the interval reaches from `below` to `above`. -/
structure Interval where
  /-- Four times the significand. -/
  value : Nat
  /-- The lower end. -/
  below : Nat
  /-- The upper end. -/
  above : Nat
  /-- The exponent of the unit. -/
  unit : Int
  /-- Whether the ends round to the value too. -/
  closed : Bool

/-- The interval of the absolute value of `x`. -/
def interval (x : Double) : Interval :=
  let e := x.biasedExponent
  let m := if e == 0 then x.storedSignificand else x.storedSignificand + Nat.pow 2 52
  let q : Int := if e == 0 then -1074 else (e : Int) - 1075
  let atPower := x.storedSignificand == 0 && 1 < e
  { value := 4 * m
    below := if atPower then 4 * m - 1 else 4 * m - 2
    above := 4 * m + 2
    unit := q - 2
    closed := m % 2 == 0 }

/-- `10 ^ p ≤ v < 10 ^ (p + 1)` for the value `v` of the interval: `v` is multiplied by a power
of ten that makes every positive double exceed one, and its digits are counted. -/
def Interval.order (i : Interval) : Int :=
  let shift : Nat := 400
  let t := i.value * Nat.pow 2 i.unit.toNat * Nat.pow 10 shift / Nat.pow 2 (-i.unit).toNat
  ((Text.Decimal.digits t).length : Int) - 1 - shift

/-- The decimal of `n` digits nearest to the value, if it lies in the interval: the digits and
the power of ten that they count. -/
def Interval.nearest? (i : Interval) (n : Nat) : Option (Nat × Int) :=
  let grid := i.order + 1 - n
  let left := Nat.pow 2 i.unit.toNat * Nat.pow 10 (-grid).toNat
  let right := Nat.pow 2 (-i.unit).toNat * Nat.pow 10 grid.toNat
  let inside (d : Nat) : Bool :=
    if i.closed then i.below * left ≤ d * right && d * right ≤ i.above * left
    else i.below * left < d * right && d * right < i.above * left
  let down := i.value * left / right
  let up := down + 1
  let downGap := i.value * left - down * right
  let upGap := up * right - i.value * left
  let nearer :=
    if downGap < upGap then down
    else if upGap < downGap then up
    else if down % 2 == 0 then down else up
  let farther := if nearer == down then up else down
  if inside nearer then some (nearer, grid)
  else if inside farther then some (farther, grid)
  else none

/-- The first hit among `count` digit counts from `n` on. -/
def Interval.search (i : Interval) (n : Nat) : Nat → Nat × Int
  | 0 => (i.value, 0)
  | count + 1 =>
    match i.nearest? n with
    | some hit => hit
    | none => i.search (n + 1) count

/-- Drops the zeros at the end of `d`, counting them into the exponent. -/
def dropZeros (d : Nat) (e : Int) : Nat → Nat × Int
  | 0 => (d, e)
  | steps + 1 => if d != 0 && d % 10 == 0 then dropZeros (d / 10) (e + 1) steps else (d, e)

/-- The fewest digits that determine the absolute value of a non-zero double, and the power of
ten that they count. -/
def shortest (x : Double) : Nat × Int :=
  let (d, e) := x.interval.search 1 17
  dropZeros d e 20

/-! ## Layout -/

/-- How a double is laid out: positionally when the point falls within the first `width`
digits or at most `zeros` zeros follow it, and otherwise with an exponent, whose sign is
written either way. -/
structure Layout where
  /-- The most digits before the point. -/
  width : Int
  /-- The most zeros between the point and the first digit. -/
  zeros : Int

/-- Doubles are positional below `10 ^ 16` and down to `10 ^ -5`. -/
def Layout.compact : Layout := ⟨16, 4⟩

/-- The text of a positive decimal `digits · 10 ^ e`. A positional text always has a digit
after its point. -/
def Layout.write (l : Layout) (digits : List Char) (e : Int) : List Char :=
  let point := (digits.length : Int) + e
  if 0 ≤ e && point ≤ l.width then
    digits ++ List.replicate e.toNat '0' ++ ['.', '0']
  else if 0 < point && point ≤ l.width then
    digits.take point.toNat ++ '.' :: digits.drop point.toNat
  else if -(l.zeros + 1) < point && point ≤ 0 then
    ['0', '.'] ++ List.replicate (-point).toNat '0' ++ digits
  else
    let exponent := 'e' :: (if 0 < point then ['+'] else []) ++ Text.Decimal.intDigits (point - 1)
    match digits with
    | [] => exponent
    | [d] => d :: exponent
    | d :: ds => d :: '.' :: ds ++ exponent

/-- The text of a double. -/
def render (x : Double) : List Char :=
  let body :=
    if x.biasedExponent == 0 && x.storedSignificand == 0 then ['0', '.', '0']
    else
      let (d, e) := x.shortest
      Layout.compact.write (Text.Decimal.digits d) e
  if x.isNegative then '-' :: body else body

end FlagServer.Double
