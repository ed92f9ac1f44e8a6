/-!
# UTF-8

Frames, files and paths are bytes; messages and flags are text. `encode` and `decode?` pass
between the two. Both are written with quotients and remainders by 64, so that every step is
linear arithmetic.

* `decode?` accepts exactly the well-formed sequences: no overlong form, no surrogate, nothing
  above `U+10FFFF`.
* `decodeLossy` never fails: each maximal ill-formed piece becomes one `U+FFFD`.
-/

namespace FlagServer.Text.Utf8

/-! ## Writing -/

/-- The bytes of one character. -/
def encodeChar (c : Char) : List UInt8 :=
  let n := c.toNat
  if n < 0x80 then [UInt8.ofNat n]
  else if n < 0x800 then [UInt8.ofNat (0xc0 + n / 64), UInt8.ofNat (0x80 + n % 64)]
  else if n < 0x10000 then
    [UInt8.ofNat (0xe0 + n / 4096), UInt8.ofNat (0x80 + n / 64 % 64),
      UInt8.ofNat (0x80 + n % 64)]
  else
    [UInt8.ofNat (0xf0 + n / 262144), UInt8.ofNat (0x80 + n / 4096 % 64),
      UInt8.ofNat (0x80 + n / 64 % 64), UInt8.ofNat (0x80 + n % 64)]

/-- The bytes of a text. -/
def encode (cs : List Char) : List UInt8 :=
  cs.flatMap encodeChar

/-- The bytes of a string. -/
def encodeString (s : String) : List UInt8 :=
  encode s.toList

/-! ## Which bytes may follow which -/

/-- A continuation byte. -/
def isContinuation (b : UInt8) : Bool :=
  0x80 ≤ b.toNat && b.toNat ≤ 0xbf

/-- `a` leads a sequence of two bytes. -/
def leadsTwo (a : UInt8) : Bool :=
  0xc2 ≤ a.toNat && a.toNat ≤ 0xdf

/-- `a` leads a sequence of three bytes. -/
def leadsThree (a : UInt8) : Bool :=
  0xe0 ≤ a.toNat && a.toNat ≤ 0xef

/-- `a` leads a sequence of four bytes. -/
def leadsFour (a : UInt8) : Bool :=
  0xf0 ≤ a.toNat && a.toNat ≤ 0xf4

/-- `b` may follow the leading byte `a`. The narrower ranges after `E0` and `F0` shut out
overlong forms, the one after `ED` the surrogates, the one after `F4` what is above
`U+10FFFF`. -/
def mayFollow (a b : UInt8) : Bool :=
  let lo := if a.toNat == 0xe0 then 0xa0 else if a.toNat == 0xf0 then 0x90 else 0x80
  let hi := if a.toNat == 0xed then 0x9f else if a.toNat == 0xf4 then 0x8f else 0xbf
  lo ≤ b.toNat && b.toNat ≤ hi

/-! ## The character of a sequence -/

/-- The character of two bytes. -/
def charTwo (a b : UInt8) : Char :=
  Char.ofNat ((a.toNat - 0xc0) * 64 + (b.toNat - 0x80))

/-- The character of three bytes. -/
def charThree (a b c : UInt8) : Char :=
  Char.ofNat ((a.toNat - 0xe0) * 4096 + (b.toNat - 0x80) * 64 + (c.toNat - 0x80))

/-- The character of four bytes. -/
def charFour (a b c d : UInt8) : Char :=
  Char.ofNat ((a.toNat - 0xf0) * 262144 + (b.toNat - 0x80) * 4096 + (c.toNat - 0x80) * 64
    + (d.toNat - 0x80))

/-! ## Reading -/

/-- The text that the bytes spell, if they are well formed. -/
def decode? : List UInt8 → Option (List Char)
  | [] => some []
  | a :: rest =>
    if a.toNat < 0x80 then (decode? rest).map (Char.ofNat a.toNat :: ·)
    else
      match rest with
      | [] => none
      | b :: rest =>
        if leadsTwo a && isContinuation b then (decode? rest).map (charTwo a b :: ·)
        else
          match rest with
          | [] => none
          | c :: rest =>
            if leadsThree a && mayFollow a b && isContinuation c then
              (decode? rest).map (charThree a b c :: ·)
            else
              match rest with
              | [] => none
              | d :: rest =>
                if leadsFour a && mayFollow a b && isContinuation c && isContinuation d then
                  (decode? rest).map (charFour a b c d :: ·)
                else none

/-- The string that the bytes spell, if they are well formed. -/
def decodeString? (bytes : List UInt8) : Option String :=
  (decode? bytes).map String.ofList

/-- The character that stands for an ill-formed piece. -/
def replacement : Char := Char.ofNat 0xfffd

/-- The text that the bytes spell, with one replacement character for each maximal ill-formed
piece: the longest prefix of the rest that begins some well-formed sequence, or one byte. -/
def decodeLossy : List UInt8 → List Char
  | [] => []
  | a :: rest =>
    if a.toNat < 0x80 then Char.ofNat a.toNat :: decodeLossy rest
    else
      match rest with
      | [] => [replacement]
      | b :: rest₁ =>
        if leadsTwo a && isContinuation b then charTwo a b :: decodeLossy rest₁
        else if !((leadsThree a || leadsFour a) && mayFollow a b) then
          replacement :: decodeLossy (b :: rest₁)
        else
          match rest₁ with
          | [] => [replacement]
          | c :: rest₂ =>
            if !isContinuation c then replacement :: decodeLossy (c :: rest₂)
            else if leadsThree a then charThree a b c :: decodeLossy rest₂
            else
              match rest₂ with
              | [] => [replacement]
              | d :: rest₃ =>
                if isContinuation d then charFour a b c d :: decodeLossy rest₃
                else replacement :: decodeLossy (d :: rest₃)

/-- The string that the bytes spell, ill-formed pieces replaced. -/
def decodeStringLossy (bytes : List UInt8) : String :=
  String.ofList (decodeLossy bytes)

end FlagServer.Text.Utf8
