import FlagServer.Json.Double

/-!
# JSON text

The grammar of RFC 8259, and nothing else: a `Literal` is what a text says before anyone asks
whether a number fits a double, whether an escaped surrogate has its partner, or which of two
equal keys counts. The free-form reader (`Json.ofLiteral?`) and the reader of compilation
databases answer those questions differently, so they share this tree.

The reader takes one unit of fuel for each nested value and each item, of which a text has at
most twice as many as characters.
-/

namespace FlagServer.Json

/-- A number as it is written. -/
structure Numeral where
  /-- Whether a minus sign stands in front. -/
  negative : Bool
  /-- The digits before the point. -/
  whole : List Char
  /-- The digits after the point, none if there is no point. -/
  fraction : List Char
  /-- The exponent: whether it is negative, and its digits. -/
  exponent : Option (Bool × List Char)
  deriving DecidableEq

/-- What a JSON text says. A string is absent where its escapes pair no surrogates. -/
inductive Literal where
  | null
  | bool (b : Bool)
  | num (n : Numeral)
  | str (s : Option String)
  | arr (items : List Literal)
  | obj (members : List (Option String × Literal))

/-! ## Strings -/

/-- One written piece of a string: a character, or a 16-bit unit by its number. -/
inductive Piece where
  | char (c : Char)
  | unit (n : Nat)

/-- The value of a hexadecimal digit. -/
def hexValue? (c : Char) : Option Nat :=
  if '0' ≤ c ∧ c ≤ '9' then some (c.toNat - 0x30)
  else if 'a' ≤ c ∧ c ≤ 'f' then some (c.toNat - 0x57)
  else if 'A' ≤ c ∧ c ≤ 'F' then some (c.toNat - 0x37)
  else none

/-- The character of a one-letter escape. -/
def shortEscape? (c : Char) : Option Char :=
  if c == '"' || c == '\\' || c == '/' then some c
  else if c == 'b' then some '\x08'
  else if c == 'f' then some '\x0c'
  else if c == 'n' then some '\n'
  else if c == 'r' then some '\r'
  else if c == 't' then some '\t'
  else none

/-- The unit that four hexadecimal digits number. -/
def unitOf? (a b c d : Char) : Option Nat := do
  let a ← hexValue? a
  let b ← hexValue? b
  let c ← hexValue? c
  let d ← hexValue? d
  return ((a * 16 + b) * 16 + c) * 16 + d

/-- The pieces up to the closing quotation mark, and what follows it. -/
def pieces? : List Char → Option (List Piece × List Char)
  | [] => none
  | '"' :: rest => some ([], rest)
  | '\\' :: 'u' :: a :: b :: c :: d :: rest =>
    match unitOf? a b c d with
    | some n => (pieces? rest).map fun (ps, rest) => (.unit n :: ps, rest)
    | none => none
  | '\\' :: e :: rest =>
    match shortEscape? e with
    | some c => (pieces? rest).map fun (ps, rest) => (.char c :: ps, rest)
    | none => none
  | c :: rest =>
    if c == '\\' || c.toNat < 0x20 then none
    else (pieces? rest).map fun (ps, rest) => (.char c :: ps, rest)

/-- A unit that opens a pair. -/
def isHighUnit (n : Nat) : Bool := 0xd800 ≤ n && n ≤ 0xdbff

/-- A unit that closes a pair. -/
def isLowUnit (n : Nat) : Bool := 0xdc00 ≤ n && n ≤ 0xdfff

/-- The characters of the pieces, if every unit of a pair has its partner beside it. -/
def assemble? : List Piece → Option (List Char)
  | [] => some []
  | .char c :: rest => (assemble? rest).map (c :: ·)
  | .unit n :: rest =>
    if isLowUnit n then none
    else if isHighUnit n then
      match rest with
      | .unit m :: rest =>
        if isLowUnit m then
          (assemble? rest).map
            (Char.ofNat (0x10000 + (n - 0xd800) * 0x400 + (m - 0xdc00)) :: ·)
        else none
      | _ => none
    else (assemble? rest).map (Char.ofNat n :: ·)

/-! ## Numbers -/

/-- The digits at the front, and the rest. -/
def spanDigits (cs : List Char) : List Char × List Char :=
  cs.span Text.Decimal.isDigit

/-- The fraction at the front, if a point stands there; a point needs a digit after it. -/
def fraction? : List Char → Option (List Char × List Char)
  | '.' :: rest =>
    let (ds, rest) := spanDigits rest
    if ds.isEmpty then none else some (ds, rest)
  | rest => some ([], rest)

/-- The exponent at the front, if its mark stands there; the mark needs a digit after it. -/
def exponent? : List Char → Option (Option (Bool × List Char) × List Char)
  | c :: rest =>
    if c == 'e' || c == 'E' then
      let (negative, rest) :=
        match rest with
        | '-' :: rest => (true, rest)
        | '+' :: rest => (false, rest)
        | rest => (false, rest)
      let (ds, rest) := spanDigits rest
      if ds.isEmpty then none else some (some (negative, ds), rest)
    else some (none, c :: rest)
  | [] => some (none, [])

/-- The digits of a whole number: a leading zero stands alone. -/
def whole? (cs : List Char) : Option (List Char × List Char) :=
  match spanDigits cs with
  | ([], _) => none
  | ('0' :: _ :: _, _) => none
  | (ds, rest) => some (ds, rest)

/-- The number at the front. -/
def numeral? (cs : List Char) : Option (Numeral × List Char) := do
  let (negative, cs) :=
    match cs with
    | '-' :: rest => (true, rest)
    | cs => (false, cs)
  let (whole, cs) ← whole? cs
  let (fraction, cs) ← fraction? cs
  let (exponent, cs) ← exponent? cs
  return (⟨negative, whole, fraction, exponent⟩, cs)

/-! ## Values -/

/-- The four characters that may stand between tokens. -/
def isSpace (c : Char) : Bool :=
  c == ' ' || c == '\t' || c == '\n' || c == '\r'

/-- Drops the space at the front. -/
def skipSpace (cs : List Char) : List Char :=
  cs.dropWhile isSpace

mutual

/-- The value at the front, after any space. -/
def value? : Nat → List Char → Option (Literal × List Char)
  | 0, _ => none
  | fuel + 1, cs =>
    match skipSpace cs with
    | 'n' :: 'u' :: 'l' :: 'l' :: rest => some (.null, rest)
    | 't' :: 'r' :: 'u' :: 'e' :: rest => some (.bool true, rest)
    | 'f' :: 'a' :: 'l' :: 's' :: 'e' :: rest => some (.bool false, rest)
    | '"' :: rest =>
      (pieces? rest).map fun (ps, rest) => (.str ((assemble? ps).map String.ofList), rest)
    | '[' :: rest =>
      match skipSpace rest with
      | ']' :: rest => some (.arr [], rest)
      | rest => (items? fuel rest).map fun (vs, rest) => (.arr vs, rest)
    | '\x7b' :: rest =>
      match skipSpace rest with
      | '\x7d' :: rest => some (.obj [], rest)
      | rest => (members? fuel rest).map fun (ms, rest) => (.obj ms, rest)
    | rest => (numeral? rest).map fun (n, rest) => (.num n, rest)

/-- The items of an array, at least one, through the closing bracket. -/
def items? : Nat → List Char → Option (List Literal × List Char)
  | 0, _ => none
  | fuel + 1, cs =>
    match value? fuel cs with
    | none => none
    | some (v, rest) =>
      match skipSpace rest with
      | ']' :: rest => some ([v], rest)
      | ',' :: rest => (items? fuel rest).map fun (vs, rest) => (v :: vs, rest)
      | _ => none

/-- The members of an object, at least one, through the closing brace. -/
def members? : Nat → List Char → Option (List (Option String × Literal) × List Char)
  | 0, _ => none
  | fuel + 1, cs =>
    match skipSpace cs with
    | '"' :: rest =>
      match pieces? rest with
      | none => none
      | some (ps, rest) =>
        let key := (assemble? ps).map String.ofList
        match skipSpace rest with
        | ':' :: rest =>
          match value? fuel rest with
          | none => none
          | some (v, rest) =>
            match skipSpace rest with
            | '\x7d' :: rest => some ([(key, v)], rest)
            | ',' :: rest => (members? fuel rest).map fun (ms, rest) => ((key, v) :: ms, rest)
            | _ => none
        | _ => none
    | _ => none

end

/-- What the whole text says: one value with nothing but space around it. -/
def literal? (cs : List Char) : Option Literal :=
  match value? (2 * cs.length + 2) cs with
  | some (v, rest) => if (skipSpace rest).isEmpty then some v else none
  | none => none

end FlagServer.Json
