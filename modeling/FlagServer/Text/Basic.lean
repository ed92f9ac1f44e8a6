/-!
# Text

Text is a list of characters, and in front of the readers of bytes a list of bytes. Here is what
all readers and writers share: cutting at a separator, the order of keys, white space, and
decimal numerals.
-/

namespace FlagServer.Text

/-! ## Splitting at a separator

Paths, header lines, flag files and URL segments are all cut at one separator. Every cut
below goes through `splitOn`, whose pieces, put back together with the separator between
them, give the input.
-/

/-- The pieces of `xs` between occurrences of `sep`. There is always at least one piece, and a
separator at either end leaves an empty piece there. -/
def splitOn {α : Type} [BEq α] (sep : α) : List α → List (List α)
  | [] => [[]]
  | x :: xs =>
    if x == sep then [] :: splitOn sep xs
    else
      match splitOn sep xs with
      | [] => [[x]]
      | piece :: pieces => (x :: piece) :: pieces

/-- Cuts `xs` at the **first** `sep`: what stands before it and what stands after it. -/
def splitOnce? {α : Type} [BEq α] (sep : α) : List α → Option (List α × List α)
  | [] => none
  | x :: xs =>
    if x == sep then some ([], xs)
    else (splitOnce? sep xs).map fun (before, after) => (x :: before, after)

/-- Cuts `xs` after its first `sep`: the piece that ends with it, and the rest. Without a
separator there is no such piece. -/
def takeThrough? {α : Type} [BEq α] (sep : α) : List α → Option (List α × List α)
  | [] => none
  | x :: xs =>
    if x == sep then some ([x], xs)
    else (takeThrough? sep xs).map fun (line, rest) => (x :: line, rest)

/-- The pieces with `sep` between neighbours. -/
def joinWith {α : Type} (sep : α) : List (List α) → List α
  | [] => []
  | [piece] => piece
  | piece :: pieces => piece ++ sep :: joinWith sep pieces

theorem splitOn_ne_nil {α : Type} [BEq α] (sep : α) (xs : List α) : splitOn sep xs ≠ [] := by
  cases xs with
  | nil => simp [splitOn]
  | cons x xs =>
    simp only [splitOn]
    split
    · simp
    · split <;> simp

/-- What follows the first separator is shorter than the whole. -/
theorem length_of_takeThrough? {α : Type} [BEq α] {sep : α} {xs line rest : List α}
    (h : takeThrough? sep xs = some (line, rest)) : rest.length < xs.length := by
  induction xs generalizing line rest with
  | nil => simp [takeThrough?] at h
  | cons x xs ih =>
    simp only [takeThrough?] at h
    split at h
    · simp only [Option.some.injEq, Prod.mk.injEq] at h
      obtain ⟨-, rfl⟩ := h
      simp
    · simp only [Option.map_eq_some_iff, Prod.exists, Prod.mk.injEq] at h
      obtain ⟨l, r, hlr, -, rfl⟩ := h
      have := ih hlr
      simp only [List.length_cons]
      omega

/-! ## The order of keys

Members of an object and methods of a table are kept in the order of their keys' code points,
which is also the order of their UTF-8 bytes.
-/

/-- `a` stands strictly before `b`: at the first place where they differ, `a` has the smaller
code point or has already ended. -/
def precedesChars : List Char → List Char → Bool
  | _, [] => false
  | [], _ :: _ => true
  | a :: as, b :: bs =>
    if a.toNat < b.toNat then true
    else if b.toNat < a.toNat then false
    else precedesChars as bs

/-- `a` stands strictly before `b` in the order of code points. -/
def precedes (a b : String) : Bool :=
  precedesChars a.toList b.toList

/-! ## White space

White space is the property of the Unicode standard, not the ASCII class: a header line that
holds only a no-break space is a blank line, and a flag may be surrounded by ideographic
spaces.
-/

/-- The characters with the property `White_Space`. -/
def isBlank (c : Char) : Bool :=
  let n := c.toNat
  (0x09 ≤ n && n ≤ 0x0d) || n == 0x20 || n == 0x85 || n == 0xa0 || n == 0x1680
    || (0x2000 ≤ n && n ≤ 0x200a) || n == 0x2028 || n == 0x2029 || n == 0x202f
    || n == 0x205f || n == 0x3000

/-- Drops white space at the front. -/
def trimStart (cs : List Char) : List Char :=
  cs.dropWhile isBlank

/-- Drops white space at the end. -/
def trimEnd (cs : List Char) : List Char :=
  (cs.reverse.dropWhile isBlank).reverse

/-- Drops white space at both ends. -/
def trim (cs : List Char) : List Char :=
  trimEnd (trimStart cs)

/-! ## Decimal numerals

Lengths, request ids and JSON integers are written in decimal. `digits` writes a number
without leading zeros; `value?` reads any run of ASCII digits, leading zeros included.
-/

namespace Decimal

/-- The character of a digit below ten. -/
def digitChar (d : Nat) : Char :=
  Char.ofNat (0x30 + d)

/-- The number of an ASCII digit. -/
def digit? (c : Char) : Option Nat :=
  if '0' ≤ c ∧ c ≤ '9' then some (c.toNat - 0x30) else none

/-- An ASCII digit. -/
def isDigit (c : Char) : Bool :=
  (digit? c).isSome

/-- The numeral of `n`, most significant digit first, without leading zeros. -/
def digits (n : Nat) : List Char :=
  if n < 10 then [digitChar n] else digits (n / 10) ++ [digitChar (n % 10)]
termination_by n
decreasing_by omega

/-- The numeral of an integer, with a minus sign in front of a negative one. -/
def intDigits (n : Int) : List Char :=
  if n < 0 then '-' :: digits n.natAbs else digits n.natAbs

/-- The number of a run of digits read after `acc`; nothing if another character occurs. -/
def valueFrom? (acc : Nat) : List Char → Option Nat
  | [] => some acc
  | c :: cs =>
    match digit? c with
    | some d => valueFrom? (10 * acc + d) cs
    | none => none

/-- The number of a non-empty run of digits. -/
def value? (cs : List Char) : Option Nat :=
  if cs.isEmpty then none else valueFrom? 0 cs

/-- The number of a run of digits, the other characters skipped. -/
def ofDigits (cs : List Char) : Nat :=
  cs.foldl (fun acc c => match digit? c with
    | some d => 10 * acc + d
    | none => acc) 0

end Decimal

end FlagServer.Text
