import FlagServer.Text.Basic
import FlagServer.Text.Quoted
import FlagServer.Url.Percent

/-!
# Hosts

The host of a URL in its written form. A special scheme has a domain, lowercased, or an IPv4
address, in four decimal parts however it was spelled; any other scheme has opaque text; both
may have an IPv6 address in brackets, in the shortest form.

A domain is ASCII. What lies outside is spelled in labels that begin with `xn--`, and such a
label has to spell something. A domain that is given by its characters is refused: which of them
stand for others, and which may stand in a domain at all, are tables of the Unicode standard that
are not here. For the same reason a label is taken whatever characters it spells.
-/

namespace FlagServer.Url

/-! ## IPv4 -/

/-- A part of an IPv4 address: hexadecimal after `0x`, octal after another leading zero,
otherwise decimal. -/
def ipv4Part? (cs : List Char) : Option Nat :=
  let number (base : Nat) (ds : List Char) : Option Nat :=
    ds.foldl (fun acc c =>
      match acc, Json.hexValue? c with
      | some n, some d => if d < base then some (n * base + d) else none
      | _, _ => none) (some 0)
  match cs with
  | [] => none
  | '0' :: 'x' :: ds => number 16 ds
  | '0' :: 'X' :: ds => number 16 ds
  | '0' :: d :: ds => number 8 (d :: ds)
  | ds => number 10 ds

/-- The parts of a domain, without an empty one at the end. -/
def domainParts (cs : List Char) : List (List Char) :=
  let parts := Text.splitOn '.' cs
  match parts.getLast? with
  | some [] => if 1 < parts.length then parts.dropLast else parts
  | _ => parts

/-- A domain whose last part is a number is an IPv4 address or nothing. -/
def endsInNumber (cs : List Char) : Bool :=
  match (domainParts cs).getLast? with
  | some [] => false
  | some part => part.all Text.Decimal.isDigit || (ipv4Part? part).isSome
  | none => false

/-- The text of an IPv4 address. -/
def ipv4Text (n : Nat) : List Char :=
  Text.joinWith '.' [Text.Decimal.digits (n / 16777216), Text.Decimal.digits (n / 65536 % 256),
    Text.Decimal.digits (n / 256 % 256), Text.Decimal.digits (n % 256)]

/-- The number of an IPv4 address of at most four parts, the last of which fills what the
others leave. -/
def ipv4? (cs : List Char) : Option Nat := do
  let numbers ← (domainParts cs).mapM ipv4Part?
  let last ← numbers.getLast?
  let front := numbers.dropLast
  if 4 < numbers.length || front.any (255 < ·) || Nat.pow 256 (4 - front.length) ≤ last then none
  else
    let weights := [16777216, 65536, 256]
    some ((List.zipWith (· * ·) front weights).foldl (· + ·) last)

/-! ## IPv6 -/

/-- One to four hexadecimal digits. -/
def ipv6Piece? (cs : List Char) : Option Nat :=
  if cs.isEmpty || 4 < cs.length then none
  else
    cs.foldl (fun acc c =>
      match acc, Json.hexValue? c with
      | some n, some d => some (n * 16 + d)
      | _, _ => none) (some 0)

/-- A dotted address of four decimal parts as two pieces. -/
def ipv6Tail? (cs : List Char) : Option (List Nat) := do
  let parts ← (Text.splitOn '.' cs).mapM fun part =>
    match part with
    | '0' :: _ :: _ => none
    | _ => Text.Decimal.value? part
  match parts with
  | [a, b, c, d] =>
    if [a, b, c, d].any (255 < ·) then none else some [a * 256 + b, c * 256 + d]
  | _ => none

/-- The pieces between colons; a dotted address may stand last. -/
def ipv6Pieces? : List (List Char) → Option (List Nat)
  | [] => some []
  | [part] => if part.contains '.' then ipv6Tail? part else (ipv6Piece? part).map ([·])
  | part :: parts =>
    match ipv6Piece? part, ipv6Pieces? parts with
    | some n, some ns => some (n :: ns)
    | _, _ => none

/-- The pieces of a text without `::`, none for the empty text. -/
def ipv6Side? (cs : List Char) : Option (List Nat) :=
  if cs.isEmpty then some [] else ipv6Pieces? (Text.splitOn ':' cs)

/-- Cuts a text at its first `::`. -/
def cutAtGap? : List Char → Option (List Char × List Char)
  | ':' :: ':' :: rest => some ([], rest)
  | c :: rest => (cutAtGap? rest).map fun (before, after) => (c :: before, after)
  | [] => none

/-- The eight pieces of an IPv6 address; `::` stands for at least one zero. -/
def ipv6? (cs : List Char) : Option (List Nat) :=
  match cutAtGap? cs with
  | none =>
    match ipv6Side? cs with
    | some ns => if ns.length == 8 then some ns else none
    | none => none
  | some (before, after) =>
    match ipv6Side? before, ipv6Side? after with
    | some ns, some ms =>
      if ns.length + ms.length < 8 && !before.contains '.' then
        some (ns ++ List.replicate (8 - ns.length - ms.length) 0 ++ ms)
      else none
    | _, _ => none

/-- How many zeros stand at the front. -/
def zerosAtFront (ns : List Nat) : Nat :=
  (ns.takeWhile (· == 0)).length

/-- The first of the longest runs of zeros: where it starts and how long it is. -/
def longestZeros (ns : List Nat) : Nat × Nat :=
  (List.range ns.length).foldl (fun best i =>
    let run := zerosAtFront (ns.drop i)
    if best.2 < run then (i, run) else best) (0, 0)

/-- The pieces with colons between them. -/
def colonText (ns : List Nat) : List Char :=
  Text.joinWith ':' (ns.map Text.Quoted.hexDigits)

/-- The shortest text of an IPv6 address: the longest run of two or more zeros is `::`. -/
def ipv6Text (ns : List Nat) : List Char :=
  let (start, run) := longestZeros ns
  if run < 2 then colonText ns
  else colonText (ns.take start) ++ [':', ':'] ++ colonText (ns.drop (start + run))

/-! ## Punycode

A label outside ASCII is spelled by what it has of ASCII, a hyphen, and the rest in the order of
its code points (RFC 3492). Each of these characters is a number: how often the text so far, with
one place more, has to be gone through before the character falls into its place, where every
passage is one code point. Numbers are written in base 36, the least digit first. The last digit
of a number is told by being small, and what counts as small is adapted to the numbers before.
-/

namespace Punycode

/-- The value of a digit. -/
def digit? (c : Char) : Option Nat :=
  if 'a' ≤ c ∧ c ≤ 'z' then some (c.toNat - 0x61)
  else (Text.Decimal.digit? c).map (26 + ·)

/-- Numbers stay below this one. -/
def limit : Nat := 4294967296

/-- The least digit at a place that is not the last of its number. -/
def threshold (place bias : Nat) : Nat :=
  min 26 (max 1 (36 * (place + 1) - bias))

/-- How often a number has to be divided by 35 until it is at most 455, and what is left. -/
def shrink (n : Nat) : Nat × Nat :=
  if n ≤ 455 then (0, n)
  else
    let (rounds, rest) := shrink (n / 35)
    (rounds + 1, rest)
termination_by n
decreasing_by omega

/-- The bias after a number, for a text that has grown to `length` characters. -/
def adapted (n length : Nat) (first : Bool) : Nat :=
  let n := if first then n / 700 else n / 2
  let (rounds, rest) := shrink (n + n / length)
  36 * rounds + 36 * rest / (rest + 38)

/-- What the numbers so far have spelled. -/
structure Spelled where
  /-- The text. -/
  text : List Char
  /-- The code point of the latest character. -/
  code : Nat := 0x80
  /-- The place behind it. -/
  place : Nat := 0
  /-- What the thresholds of the next number depend on. -/
  bias : Nat := 72

/-- The text with one more character, `n` places on from the latest. -/
def Spelled.insert? (s : Spelled) (n : Nat) : Option Spelled :=
  let length := s.text.length + 1
  let code := s.code + (s.place + n) / length
  let place := (s.place + n) % length
  if code < 0xd800 ∨ 0xdfff < code ∧ code < 0x110000 then
    some { text := s.text.insertIdx place (Char.ofNat code), code, place := place + 1,
           bias := adapted n length (s.place == 0) }
  else none

/-- The text that numbers spell. Of the number that is being read, `n` has been read, and the
digit at the next place counts `weight`. -/
def spell? (s : Spelled) (n place weight : Nat) : List Char → Option (List Char)
  | [] => if place = 0 then some s.text else none
  | c :: cs =>
    match digit? c with
    | none => none
    | some d =>
      let n := n + d * weight
      let t := threshold place s.bias
      if limit ≤ s.place + n then none
      else if t ≤ d then
        if limit ≤ weight * (36 - t) then none
        else spell? s n (place + 1) (weight * (36 - t)) cs
      else
        match s.insert? n with
        | some s => spell? s 0 0 1 cs
        | none => none

/-- The text that a label spells. Its ASCII characters stand before the last hyphen, if there are
any: `bcher-kva` spells `bücher`. -/
def decode? (cs : List Char) : Option (List Char) :=
  let numbers := (cs.reverse.takeWhile (· != '-')).reverse
  match cs.take (cs.length - numbers.length - 1) with
  | [] => spell? { text := [] } 0 0 1 cs
  | text => spell? { text } 0 0 1 numbers

end Punycode

/-- A label is no `xn--` label, or spells something outside ASCII. -/
def isLabel (cs : List Char) : Bool :=
  match cs with
  | 'x' :: 'n' :: '-' :: '-' :: spelling =>
    match Punycode.decode? spelling with
    | some text => text.any fun c => 0x80 ≤ c.toNat
    | none => false
  | _ => true

/-! ## Hosts -/

/-- What no domain contains. -/
def forbiddenInDomain (c : Char) : Bool :=
  c.toNat ≤ 0x20 || 0x7f ≤ c.toNat
    || ['#', '%', '/', ':', '<', '>', '?', '@', '[', '\\', ']', '^', '|'].contains c

/-- What no opaque host contains. -/
def forbiddenInHost (c : Char) : Bool :=
  ['\x00', '\t', '\n', '\r', ' ', '#', '/', ':', '<', '>', '?', '@', '[', '\\', ']', '^',
    '|'].contains c

/-- The written form of an address in brackets. -/
def bracketed? (cs : List Char) : Option (List Char) :=
  match cs.getLast? with
  | some ']' => (ipv6? cs.dropLast).map fun ns => '[' :: ipv6Text ns ++ [']']
  | _ => none

/-- The written form of the host of a special scheme. -/
def domainHost? (cs : List Char) : Option (List Char) :=
  match cs with
  | '[' :: rest => bracketed? rest
  | cs =>
    match Text.Utf8.decode? (percentDecode cs) with
    | none => none
    | some decoded =>
      let domain := decoded.map Char.toLower
      if domain.isEmpty || domain.any forbiddenInDomain
          || !(Text.splitOn '.' domain).all isLabel then none
      else if endsInNumber domain then (ipv4? domain).map ipv4Text
      else some domain

/-- The written form of the host of any other scheme. -/
def opaqueHost? (cs : List Char) : Option (List Char) :=
  match cs with
  | '[' :: rest => bracketed? rest
  | cs => if cs.any forbiddenInHost then none else some (percentEncode isControl cs)

end FlagServer.Url
