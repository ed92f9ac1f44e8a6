import FlagServer.Text.Basic
import FlagServer.Text.Utf8
import Mathlib.Data.List.DropRight
import Mathlib.Data.Nat.Digits.Defs

/-!
# Text that is read as it was written

Every layer above writes text and has it read back: bytes of characters, numerals, and pieces
around a separator or between white space. For each of them there is one law here, and it is stated
**with something after it,** because nothing is ever read that nothing follows: what is written in
front of a rest is read, and the rest is what remains.
-/

namespace FlagServer.Text

/-! ## UTF-8 -/

namespace Utf8

theorem toNat_ofNat {n : Nat} (h : n < 256) : (UInt8.ofNat n).toNat = n := by
  rw [UInt8.toNat_ofNat']
  exact Nat.mod_eq_of_lt h

/-- No character is a surrogate, or beyond the last. -/
theorem toNat_scalar (c : Char) : c.toNat < 0xd800 ∨ 0xdfff < c.toNat ∧ c.toNat < 0x110000 :=
  c.valid

/-- The ranges of the second byte, one by one. -/
theorem mayFollow_iff (a b : UInt8) :
    mayFollow a b = true ↔ 0x80 ≤ b.toNat ∧ b.toNat ≤ 0xbf
      ∧ (a.toNat = 0xe0 → 0xa0 ≤ b.toNat) ∧ (a.toNat = 0xf0 → 0x90 ≤ b.toNat)
      ∧ (a.toNat = 0xed → b.toNat ≤ 0x9f) ∧ (a.toNat = 0xf4 → b.toNat ≤ 0x8f) := by
  simp only [mayFollow, Bool.and_eq_true, decide_eq_true_eq, beq_iff_eq]
  grind

/-! ### Reading one sequence -/

theorem decode?_one {a : UInt8} (ha : a.toNat < 0x80) (rest : List UInt8) :
    decode? (a :: rest) = (decode? rest).map (Char.ofNat a.toNat :: ·) := by
  rw [decode?.eq_def]
  simp only [if_pos ha]

/-- A sequence of two bytes is read as one character. -/
theorem decode?_two {a b : UInt8} (ha : leadsTwo a = true) (hb : isContinuation b = true)
    (rest : List UInt8) :
    decode? (a :: b :: rest) = (decode? rest).map (charTwo a b :: ·) := by
  have hlead : ¬ a.toNat < 0x80 := by
    simp only [leadsTwo, Bool.and_eq_true, decide_eq_true_eq] at ha
    omega
  rw [decode?.eq_def]
  simp only [if_neg hlead, ha, hb, Bool.and_self, if_true]

theorem not_leadsTwo {a : UInt8} (ha : 0xe0 ≤ a.toNat) :
    ¬ a.toNat < 0x80 ∧ leadsTwo a = false := by
  simp only [leadsTwo, Bool.and_eq_false_iff, decide_eq_false_iff_not]
  omega

/-- A sequence of three bytes is read as one character. -/
theorem decode?_three {a b c : UInt8} (ha : leadsThree a = true) (hb : mayFollow a b = true)
    (hc : isContinuation c = true) (rest : List UInt8) :
    decode? (a :: b :: c :: rest) = (decode? rest).map (charThree a b c :: ·) := by
  have hlead := ha
  simp only [leadsThree, Bool.and_eq_true, decide_eq_true_eq] at hlead
  obtain ⟨hone, htwo⟩ := not_leadsTwo hlead.1
  rw [decode?.eq_def]
  simp only [if_neg hone, htwo, Bool.false_and, Bool.false_eq_true, if_false, ha, hb, hc,
    Bool.and_self, if_true]

/-- So is one of four. -/
theorem decode?_four {a b c d : UInt8} (ha : leadsFour a = true) (hb : mayFollow a b = true)
    (hc : isContinuation c = true) (hd : isContinuation d = true) (rest : List UInt8) :
    decode? (a :: b :: c :: d :: rest) = (decode? rest).map (charFour a b c d :: ·) := by
  have hlead := ha
  simp only [leadsFour, Bool.and_eq_true, decide_eq_true_eq] at hlead
  obtain ⟨hone, htwo⟩ := not_leadsTwo (Nat.le_trans (by omega) hlead.1)
  have hthree : leadsThree a = false := by
    simp only [leadsThree, Bool.and_eq_false_iff, decide_eq_false_iff_not]
    omega
  rw [decode?.eq_def]
  simp only [if_neg hone, htwo, hthree, Bool.false_and, Bool.false_eq_true, if_false, ha, hb, hc,
    hd, Bool.and_self, if_true]

/-! ### Reading what has been written -/

/-- **A character that has been written is read,** whatever follows it. There is one case for each
number of bytes, and in each the quotients and remainders by 64 add up to the character. -/
theorem decode?_encodeChar (c : Char) (rest : List UInt8) :
    decode? (encodeChar c ++ rest) = (decode? rest).map (c :: ·) := by
  have hscalar := toNat_scalar c
  have hchar : Char.ofNat c.toNat = c := Char.ofNat_toNat c
  simp only [encodeChar]
  generalize c.toNat = n at hscalar hchar
  have htail : (UInt8.ofNat (0x80 + n % 64)).toNat = 0x80 + n % 64 := toNat_ofNat (by omega)
  have hmid : (UInt8.ofNat (0x80 + n / 64 % 64)).toNat = 0x80 + n / 64 % 64 :=
    toNat_ofNat (by omega)
  split
  · case isTrue hone =>
    have ha : (UInt8.ofNat n).toNat = n := toNat_ofNat (by omega)
    rw [List.singleton_append, decode?_one (by omega), ha, hchar]
  split
  · case isTrue htwo =>
    have ha : (UInt8.ofNat (0xc0 + n / 64)).toNat = 0xc0 + n / 64 := toNat_ofNat (by omega)
    have hsum : (0xc0 + n / 64 - 0xc0) * 64 + (0x80 + n % 64 - 0x80) = n := by omega
    simp only [List.cons_append, List.nil_append]
    rw [decode?_two, charTwo, ha, htail, hsum, hchar]
    · simp only [leadsTwo, ha, Bool.and_eq_true, decide_eq_true_eq]
      omega
    · simp only [isContinuation, htail, Bool.and_eq_true, decide_eq_true_eq]
      omega
  split
  · case isTrue hthree =>
    have ha : (UInt8.ofNat (0xe0 + n / 4096)).toNat = 0xe0 + n / 4096 := toNat_ofNat (by omega)
    have hsum : (0xe0 + n / 4096 - 0xe0) * 4096 + (0x80 + n / 64 % 64 - 0x80) * 64
        + (0x80 + n % 64 - 0x80) = n := by omega
    simp only [List.cons_append, List.nil_append]
    rw [decode?_three, charThree, ha, hmid, htail, hsum, hchar]
    · simp only [leadsThree, ha, Bool.and_eq_true, decide_eq_true_eq]
      omega
    · -- After `E0` the number is at least 0x800, and after `ED` it is no surrogate.
      rw [mayFollow_iff, ha, hmid]
      omega
    · simp only [isContinuation, htail, Bool.and_eq_true, decide_eq_true_eq]
      omega
  · case isFalse hfour =>
    have ha : (UInt8.ofNat (0xf0 + n / 262144)).toNat = 0xf0 + n / 262144 :=
      toNat_ofNat (by omega)
    have hb : (UInt8.ofNat (0x80 + n / 4096 % 64)).toNat = 0x80 + n / 4096 % 64 :=
      toNat_ofNat (by omega)
    have hsum : (0xf0 + n / 262144 - 0xf0) * 262144 + (0x80 + n / 4096 % 64 - 0x80) * 4096
        + (0x80 + n / 64 % 64 - 0x80) * 64 + (0x80 + n % 64 - 0x80) = n := by omega
    simp only [List.cons_append, List.nil_append]
    rw [decode?_four, charFour, ha, hb, hmid, htail, hsum, hchar]
    · simp only [leadsFour, ha, Bool.and_eq_true, decide_eq_true_eq]
      omega
    · -- After `F0` the number is at least 0x10000, and after `F4` it is below 0x110000.
      rw [mayFollow_iff, ha, hb]
      omega
    · simp only [isContinuation, hmid, Bool.and_eq_true, decide_eq_true_eq]
      omega
    · simp only [isContinuation, htail, Bool.and_eq_true, decide_eq_true_eq]
      omega

/-- **Text that has been written is read,** whatever follows it. -/
theorem decode?_encode_append (cs : List Char) (rest : List UInt8) :
    decode? (encode cs ++ rest) = (decode? rest).map (cs ++ ·) := by
  induction cs with
  | nil =>
    have hid : ((([] : List Char) ++ ·) : List Char → List Char) = id := rfl
    rw [hid, Option.map_id]
    rfl
  | cons c cs ih =>
    rw [encode, List.flatMap_cons, List.append_assoc, decode?_encodeChar]
    rw [encode] at ih
    rw [ih, Option.map_map]
    rfl

/-- Text that has been written is read. -/
theorem decode?_encode (cs : List Char) : decode? (encode cs) = some cs := by
  have h := decode?_encode_append cs []
  rw [List.append_nil] at h
  rw [h]
  simp [decode?]

theorem encode_append (cs ds : List Char) : encode (cs ++ ds) = encode cs ++ encode ds :=
  List.flatMap_append

/-- **An ASCII byte stands for itself alone:** the longer sequences have none. -/
theorem mem_encodeChar_iff {b : UInt8} (hb : b.toNat < 0x80) (c : Char) :
    b ∈ encodeChar c ↔ c.toNat = b.toNat := by
  have hscalar := toNat_scalar c
  have hbyte : ∀ n, n < 256 → (b = UInt8.ofNat n ↔ n = b.toNat) := by
    intro n hn
    rw [← UInt8.toNat_inj, toNat_ofNat hn]
    exact eq_comm
  simp only [encodeChar]
  generalize c.toNat = n at hscalar
  split
  · case isTrue hone =>
    rw [List.mem_singleton, hbyte n (by omega)]
  split
  · simp only [List.mem_cons, List.not_mem_nil, or_false]
    rw [hbyte _ (by omega), hbyte _ (by omega)]
    omega
  split
  · simp only [List.mem_cons, List.not_mem_nil, or_false]
    rw [hbyte _ (by omega), hbyte _ (by omega), hbyte _ (by omega)]
    omega
  · simp only [List.mem_cons, List.not_mem_nil, or_false]
    rw [hbyte _ (by omega), hbyte _ (by omega), hbyte _ (by omega), hbyte _ (by omega)]
    omega

/-! ### Writing what has been read -/

/-- The number of a character that is no surrogate is the number that it was made of. -/
theorem toNat_charOfNat {n : Nat} (h : n < 0xd800 ∨ 0xdfff < n ∧ n < 0x110000) :
    (Char.ofNat n).toNat = n := by
  have hvalid : n.isValidChar := h
  rw [Char.ofNat, dif_pos hvalid]
  rfl

/-- A byte is the number that it stands for. -/
theorem ofNat_eq {n : Nat} {b : UInt8} (h : n = b.toNat) : UInt8.ofNat n = b := by
  rw [h, UInt8.ofNat_toNat]

theorem encodeChar_one {a : UInt8} (ha : a.toNat < 0x80) :
    encodeChar (Char.ofNat a.toNat) = [a] := by
  have hchar := toNat_charOfNat (n := a.toNat) (by omega)
  simp only [encodeChar, hchar, if_pos ha, UInt8.ofNat_toNat]

/-- What was read from two bytes is written as these two: the quotient and the remainder by 64 give
them back. -/
theorem encodeChar_two {a b : UInt8} (ha : leadsTwo a = true) (hb : isContinuation b = true) :
    encodeChar (charTwo a b) = [a, b] := by
  simp only [leadsTwo, isContinuation, Bool.and_eq_true, decide_eq_true_eq] at ha hb
  obtain ⟨n, hn⟩ : ∃ n, (a.toNat - 0xc0) * 64 + (b.toNat - 0x80) = n := ⟨_, rfl⟩
  have hchar : (charTwo a b).toNat = n := by rw [charTwo, hn, toNat_charOfNat (by omega)]
  simp only [encodeChar, hchar]
  rw [if_neg (by omega), if_pos (by omega), ofNat_eq (b := a) (by omega),
    ofNat_eq (b := b) (by omega)]

/-- The same of three bytes. That the second may follow the first keeps the character from being
written in two, and from being a surrogate. -/
theorem encodeChar_three {a b c : UInt8} (ha : leadsThree a = true) (hb : mayFollow a b = true)
    (hc : isContinuation c = true) : encodeChar (charThree a b c) = [a, b, c] := by
  rw [mayFollow_iff] at hb
  simp only [leadsThree, isContinuation, Bool.and_eq_true, decide_eq_true_eq] at ha hc
  obtain ⟨n, hn⟩ : ∃ n, (a.toNat - 0xe0) * 4096 + (b.toNat - 0x80) * 64 + (c.toNat - 0x80) = n :=
    ⟨_, rfl⟩
  have hchar : (charThree a b c).toNat = n := by rw [charThree, hn, toNat_charOfNat (by omega)]
  simp only [encodeChar, hchar]
  rw [if_neg (by omega), if_neg (by omega), if_pos (by omega), ofNat_eq (b := a) (by omega),
    ofNat_eq (b := b) (by omega), ofNat_eq (b := c) (by omega)]

/-- The same of four. -/
theorem encodeChar_four {a b c d : UInt8} (ha : leadsFour a = true) (hb : mayFollow a b = true)
    (hc : isContinuation c = true) (hd : isContinuation d = true) :
    encodeChar (charFour a b c d) = [a, b, c, d] := by
  rw [mayFollow_iff] at hb
  simp only [leadsFour, isContinuation, Bool.and_eq_true, decide_eq_true_eq] at ha hc hd
  obtain ⟨n, hn⟩ : ∃ n, (a.toNat - 0xf0) * 262144 + (b.toNat - 0x80) * 4096
      + (c.toNat - 0x80) * 64 + (d.toNat - 0x80) = n := ⟨_, rfl⟩
  have hchar : (charFour a b c d).toNat = n := by rw [charFour, hn, toNat_charOfNat (by omega)]
  simp only [encodeChar, hchar]
  rw [if_neg (by omega), if_neg (by omega), if_neg (by omega), ofNat_eq (b := a) (by omega),
    ofNat_eq (b := b) (by omega), ofNat_eq (b := c) (by omega), ofNat_eq (b := d) (by omega)]

/-- **Bytes that have been read are those that are written:** no two sequences of bytes are read as
one text. -/
theorem encode_of_decode? {bytes : List UInt8} {cs : List Char} (h : decode? bytes = some cs) :
    encode cs = bytes := by
  -- One character more is written in front of what is written already.
  have hcons : ∀ {c : Char} {front rest : List UInt8} {cs : List Char}, encodeChar c = front →
      (decode? rest).map (c :: ·) = some cs →
      (∀ {cs}, decode? rest = some cs → encode cs = rest) → encode cs = front ++ rest := by
    intro c front rest cs hfront hmap ih
    obtain ⟨cs, hcs, rfl⟩ := Option.map_eq_some_iff.mp hmap
    rw [encode, List.flatMap_cons, hfront, ← encode, ih hcs]
  fun_induction decode? bytes generalizing cs with
  | case1 =>
    cases h
    rfl
  | case2 a rest ha ih => exact hcons (encodeChar_one ha) h ih
  | case4 a ha b rest hab ih =>
    rw [Bool.and_eq_true] at hab
    exact hcons (encodeChar_two hab.1 hab.2) h ih
  | case6 a ha b hab c rest habc ih =>
    rw [Bool.and_eq_true, Bool.and_eq_true] at habc
    exact hcons (encodeChar_three habc.1.1 habc.1.2 habc.2) h ih
  | case8 a ha b hab c habc d rest habcd ih =>
    rw [Bool.and_eq_true, Bool.and_eq_true, Bool.and_eq_true] at habcd
    exact hcons (encodeChar_four habcd.1.1.1 habcd.1.1.2 habcd.1.2 habcd.2) h ih
  | case3 | case5 | case7 | case9 => cases h

/-- **Bytes are read as a text exactly if they are what the text is written as.** -/
theorem decode?_eq_some_iff {bytes : List UInt8} {cs : List Char} :
    decode? bytes = some cs ↔ bytes = encode cs := by
  constructor
  · exact fun h => (encode_of_decode? h).symm
  · rintro rfl
    exact decode?_encode cs

/-- So bytes that no text is written as are not read. -/
theorem decode?_eq_none_iff {bytes : List UInt8} :
    decode? bytes = none ↔ ∀ cs, bytes ≠ encode cs := by
  rw [Option.eq_none_iff_forall_ne_some]
  exact forall_congr' fun cs => not_congr decode?_eq_some_iff

end Utf8

/-! ## Numerals -/

namespace Decimal

theorem digit?_digitChar {d : Nat} (h : d < 10) : digit? (digitChar d) = some d := by
  have hall : ∀ d < 10, digit? (digitChar d) = some d := by decide
  exact hall d h

/-- Digits are read on from the value of those before them. -/
theorem valueFrom?_append (acc : Nat) (cs ds : List Char) :
    valueFrom? acc (cs ++ ds) = (valueFrom? acc cs).bind (valueFrom? · ds) := by
  induction cs generalizing acc with
  | nil => rfl
  | cons c cs ih =>
    simp only [List.cons_append, valueFrom?]
    cases digit? c with
    | none => rfl
    | some d => exact ih _

/-- A number below ten is one digit. -/
theorem digits_of_lt {n : Nat} (h : n < 10) : digits n = [digitChar n] := by
  rw [digits, if_pos h]

/-- Any other has the digits of its tenth, and one more. -/
theorem digits_of_le {n : Nat} (h : 10 ≤ n) :
    digits n = digits (n / 10) ++ [digitChar (n % 10)] := by
  rw [digits, if_neg (by omega)]

theorem digits_ne_nil (n : Nat) : digits n ≠ [] := by
  by_cases h : n < 10
  · simp [digits_of_lt h]
  · simp [digits_of_le (Nat.le_of_not_lt h)]

/-- **A numeral that has been written is read.** The last digit is what remains by ten, and the
others are the numeral of the quotient. -/
theorem valueFrom?_digits (n : Nat) : valueFrom? 0 (digits n) = some n := by
  induction n using Nat.strongRecOn with
  | ind n ih =>
    by_cases h : n < 10
    · -- One digit is its own value.
      simp [digits_of_lt h, valueFrom?, digit?_digitChar h]
    · rw [digits_of_le (by omega), valueFrom?_append, ih (n / 10) (by omega)]
      simp only [Option.bind_some, valueFrom?, digit?_digitChar (Nat.mod_lt n (by omega))]
      rw [Nat.div_add_mod]

theorem value?_digits (n : Nat) : value? (digits n) = some n := by
  rw [value?, if_neg (by simpa using digits_ne_nil n), valueFrom?_digits]

/-- Every character of a numeral is a digit. -/
theorem toNat_of_mem_digits {n : Nat} {c : Char} (h : c ∈ digits n) :
    0x30 ≤ c.toNat ∧ c.toNat ≤ 0x39 := by
  have hdigit : ∀ d < 10, 0x30 ≤ (digitChar d).toNat ∧ (digitChar d).toNat ≤ 0x39 := by decide
  induction n using Nat.strongRecOn with
  | ind n ih =>
    by_cases hn : n < 10
    · rw [digits_of_lt hn, List.mem_singleton] at h
      rw [h]
      exact hdigit n hn
    · rw [digits_of_le (by omega), List.mem_append, List.mem_singleton] at h
      rcases h with h | h
      · exact ih (n / 10) (by omega) h
      · rw [h]
        exact hdigit _ (Nat.mod_lt n (by omega))

theorem digit?_eq_some_iff {c : Char} {d : Nat} :
    digit? c = some d ↔ ('0' ≤ c ∧ c ≤ '9') ∧ d = c.toNat - 0x30 := by
  unfold digit?
  split <;> simp_all [eq_comm]

/-- **A run of digits is read as the number that has them,** in the places after those of `acc`. -/
theorem valueFrom?_eq_some_iff {acc n : Nat} {cs : List Char} :
    valueFrom? acc cs = some n
      ↔ (∀ c ∈ cs, '0' ≤ c ∧ c ≤ '9')
        ∧ n = 10 ^ cs.length * acc + Nat.ofDigits 10 (cs.reverse.map fun c => c.toNat - 0x30) := by
  induction cs generalizing acc with
  | nil => simp [valueFrom?, eq_comm]
  | cons c cs ih =>
    rw [valueFrom?]
    cases hdigit : digit? c with
    | none =>
      have hno : ¬ ('0' ≤ c ∧ c ≤ '9') := by
        intro h
        rw [digit?, if_pos h] at hdigit
        cases hdigit
      simp [hno]
    | some d =>
      obtain ⟨hc, rfl⟩ := digit?_eq_some_iff.mp hdigit
      simp only [ih, List.forall_mem_cons, hc, and_self, true_and, List.reverse_cons,
        List.map_append, Nat.ofDigits_append, List.length_map, List.length_reverse,
        List.length_cons, List.map_cons, List.map_nil, Nat.ofDigits_singleton, Nat.pow_succ]
      refine and_congr_right fun _ => ?_
      generalize Nat.ofDigits 10 _ = m
      rw [Nat.mul_add, Nat.mul_assoc, Nat.add_assoc, Nat.add_comm m]

/-- **A text is a numeral exactly if it is a run of digits,** with the value that they have by their
places. -/
theorem value?_eq_some_iff {n : Nat} {cs : List Char} :
    value? cs = some n
      ↔ cs ≠ [] ∧ (∀ c ∈ cs, '0' ≤ c ∧ c ≤ '9')
        ∧ n = Nat.ofDigits 10 (cs.reverse.map fun c => c.toNat - 0x30) := by
  cases cs with
  | nil => simp [value?]
  | cons c cs =>
    rw [value?, if_neg (by simp), valueFrom?_eq_some_iff, Nat.mul_zero, Nat.zero_add]
    simp only [ne_eq, reduceCtorEq, not_false_eq_true, true_and]

end Decimal

/-! ## White space -/

/-- What is no white space in front stays when the white space before it goes. -/
theorem dropWhile_isBlank {front cs : List Char} (hfront : ∀ c ∈ front, isBlank c = true)
    (hcs : ∀ c ∈ cs.head?, isBlank c = false) : (front ++ cs).dropWhile isBlank = cs := by
  rw [List.dropWhile_append_of_pos hfront]
  cases cs with
  | nil => rfl
  | cons c cs =>
    rw [List.dropWhile_cons_of_neg]
    simp [hcs c rfl]

/-- **What stands between white space is what is left when it is trimmed,** if it neither begins
nor ends with any. -/
theorem trim_append {front cs back : List Char} (hfront : ∀ c ∈ front, isBlank c = true)
    (hback : ∀ c ∈ back, isBlank c = true) (hne : cs ≠ [])
    (hhead : ∀ c ∈ cs.head?, isBlank c = false) (hlast : ∀ c ∈ cs.getLast?, isBlank c = false) :
    trim (front ++ cs ++ back) = cs := by
  have hstart : trimStart (front ++ cs ++ back) = cs ++ back := by
    rw [trimStart, List.append_assoc, dropWhile_isBlank hfront]
    intro c hc
    obtain ⟨d, ds, rfl⟩ := List.exists_cons_of_ne_nil hne
    exact hhead c hc
  -- The end is trimmed as the beginning is, read backwards.
  rw [trim, hstart, trimEnd, List.reverse_append, dropWhile_isBlank, List.reverse_reverse]
  · intro c hc
    exact hback c (List.mem_reverse.mp hc)
  · intro c hc
    rw [List.head?_reverse] at hc
    exact hlast c hc

theorem trim_eq_nil_of_blank {cs : List Char} (h : ∀ c ∈ cs, isBlank c = true) : trim cs = [] := by
  rw [trim, trimStart, List.dropWhile_eq_nil_iff.mpr h]
  rfl

/-- What is behind a character that is no white space stays when the beginning is trimmed. -/
theorem trimStart_append_cons (xs : List Char) {c : Char} (hc : isBlank c = false)
    (ys : List Char) : trimStart (xs ++ c :: ys) = trimStart xs ++ c :: ys := by
  rw [trimStart, trimStart, List.dropWhile_append, List.dropWhile_cons_of_neg (by simp [hc])]
  split
  · case isTrue hempty => rw [List.isEmpty_iff.mp hempty, List.nil_append]
  · rfl

/-- And what is before it stays when the end is. -/
theorem trimEnd_append_cons (xs : List Char) {c : Char} (hc : isBlank c = false)
    (ys : List Char) : trimEnd (xs ++ c :: ys) = xs ++ c :: trimEnd ys := by
  have h := trimStart_append_cons ys.reverse hc xs.reverse
  rw [trimStart] at h
  simp [trimEnd, h, trimStart]

/-- **A character that is no white space stays,** with all that stands between it and another. -/
theorem trim_append_cons (xs : List Char) {c : Char} (hc : isBlank c = false) (ys : List Char) :
    trim (xs ++ c :: ys) = trimStart xs ++ c :: trimEnd ys := by
  rw [trim, trimStart_append_cons xs hc, trimEnd_append_cons _ hc]

/-- A text is white space, or has a character that is none. -/
theorem blank_or_exists (cs : List Char) :
    (∀ c ∈ cs, isBlank c = true) ∨ ∃ xs c ys, cs = xs ++ c :: ys ∧ isBlank c = false := by
  by_cases hblank : ∀ c ∈ cs, isBlank c = true
  · exact .inl hblank
  · simp only [not_forall, Bool.not_eq_true] at hblank
    obtain ⟨c, hc, hbare⟩ := hblank
    obtain ⟨xs, ys, rfl⟩ := List.append_of_mem hc
    exact .inr ⟨xs, c, ys, rfl, hbare⟩

theorem mem_of_mem_trim {c : Char} {cs : List Char} (h : c ∈ trim cs) : c ∈ cs :=
  (List.dropWhile_sublist _).subset ((List.rdropWhile_prefix _ _).subset h)

theorem trim_trimStart (cs : List Char) : trim (trimStart cs) = trim cs := by
  rw [trim, trim, trimStart, trimStart, List.dropWhile_idempotent]

/-- White space at the end may as well go first. -/
theorem trim_trimEnd (cs : List Char) : trim (trimEnd cs) = trim cs := by
  -- Trimming an end twice is trimming it once.
  have hidem : ∀ cs, trimEnd (trimEnd cs) = trimEnd cs := fun cs =>
    List.rdropWhile_idempotent isBlank cs
  obtain hblank | ⟨xs, c, ys, rfl, hbare⟩ := blank_or_exists cs
  · have hend : trimEnd cs = [] := List.rdropWhile_eq_nil_iff.mpr hblank
    rw [hend, trim_eq_nil_of_blank hblank]
    rfl
  · rw [trimEnd_append_cons xs hbare, trim_append_cons xs hbare, trim_append_cons xs hbare, hidem]

/-- White space that is put at the end goes again. -/
theorem trim_append_blank {back : List Char} (hback : ∀ c ∈ back, isBlank c = true)
    (cs : List Char) : trim (cs ++ back) = trim cs := by
  obtain hblank | ⟨xs, c, ys, rfl, hbare⟩ := blank_or_exists cs
  · rw [trim_eq_nil_of_blank hblank, trim_eq_nil_of_blank]
    exact List.forall_mem_append.mpr ⟨hblank, hback⟩
  · -- Behind the character all white space at the end goes, what was there and what is added.
    have hend : trimEnd (ys ++ back) = trimEnd ys := by
      rw [trimEnd, trimEnd, List.reverse_append, List.dropWhile_append_of_pos]
      exact fun c hc => hback c (List.mem_reverse.mp hc)
    rw [List.append_assoc, List.cons_append, trim_append_cons xs hbare, trim_append_cons xs hbare,
      hend]

/-- **Trimming takes away white space only,** and all of it at both ends. -/
theorem exists_trim (cs : List Char) :
    ∃ front back, cs = front ++ trim cs ++ back ∧ (∀ c ∈ front, isBlank c = true)
      ∧ (∀ c ∈ back, isBlank c = true) ∧ (∀ c ∈ (trim cs).head?, isBlank c = false)
      ∧ ∀ c ∈ (trim cs).getLast?, isBlank c = false := by
  have hstart : cs.takeWhile isBlank ++ trimStart cs = cs := List.takeWhile_append_dropWhile
  have hend : trim cs ++ ((trimStart cs).reverse.takeWhile isBlank).reverse = trimStart cs := by
    rw [trim, trimEnd, ← List.reverse_append, List.takeWhile_append_dropWhile, List.reverse_reverse]
  refine ⟨cs.takeWhile isBlank, ((trimStart cs).reverse.takeWhile isBlank).reverse, ?_, ?_, ?_, ?_,
    ?_⟩
  · rw [List.append_assoc, hend, hstart]
  · intro c hc
    exact List.mem_takeWhile_imp hc
  · intro c hc
    exact List.mem_takeWhile_imp (List.mem_reverse.mp hc)
  · intro c hc
    -- What is trimmed begins as what is trimmed in front.
    have hhead : (trimStart cs).head? = some c := by
      rw [← hend, List.head?_append, Option.mem_def.mp hc]
      rfl
    have hnot := List.head?_dropWhile_not isBlank cs
    rw [← trimStart, hhead] at hnot
    simpa using hnot
  · intro c hc
    have hnot := List.head?_dropWhile_not isBlank (trimStart cs).reverse
    rw [trim, trimEnd, List.getLast?_reverse] at hc
    rw [Option.mem_def.mp hc] at hnot
    simpa using hnot

/-! ## Separators -/

section Separators

variable {α : Type} [BEq α] [LawfulBEq α] {sep : α}

/-- The first separator is where what stands before it has none. -/
theorem splitOnce?_append {xs : List α} (hxs : sep ∉ xs) (ys : List α) :
    splitOnce? sep (xs ++ sep :: ys) = some (xs, ys) := by
  induction xs with
  | nil => simp [splitOnce?]
  | cons x xs ih =>
    rw [List.mem_cons, not_or] at hxs
    have hne : (x == sep) = false := by simpa using fun h => hxs.1 h.symm
    simp [splitOnce?, hne, ih hxs.2]

/-- The first piece with its separator is what stands before and with it. -/
theorem takeThrough?_append {xs : List α} (hxs : sep ∉ xs) (ys : List α) :
    takeThrough? sep (xs ++ sep :: ys) = some (xs ++ [sep], ys) := by
  induction xs with
  | nil => simp [takeThrough?]
  | cons x xs ih =>
    rw [List.mem_cons, not_or] at hxs
    have hne : (x == sep) = false := by simpa using fun h => hxs.1 h.symm
    simp [takeThrough?, hne, ih hxs.2]

/-- No piece ends where there is no separator. -/
theorem takeThrough?_eq_none_iff {xs : List α} : takeThrough? sep xs = none ↔ sep ∉ xs := by
  induction xs with
  | nil => simp [takeThrough?]
  | cons x xs ih =>
    by_cases hx : x = sep
    · simp [takeThrough?, hx]
    · simp [takeThrough?, hx, Ne.symm hx, ih]

omit [LawfulBEq α] in
/-- What comes later changes nothing about the first separator. -/
theorem takeThrough?_append_right {xs line rest : List α}
    (h : takeThrough? sep xs = some (line, rest)) (ys : List α) :
    takeThrough? sep (xs ++ ys) = some (line, rest ++ ys) := by
  induction xs generalizing line with
  | nil => cases h
  | cons x xs ih =>
    rw [List.cons_append]
    simp only [takeThrough?] at h ⊢
    split at h
    · case isTrue hx =>
      cases h
      rw [if_pos hx]
    · case isFalse hx =>
      obtain ⟨⟨line', rest'⟩, htake, heq⟩ := Option.map_eq_some_iff.mp h
      cases heq
      rw [if_neg hx, ih htake]
      rfl

omit [LawfulBEq α] in
/-- The first piece ends in itself: it is found whatever follows it. -/
theorem takeThrough?_piece {xs line rest : List α} (h : takeThrough? sep xs = some (line, rest)) :
    xs = line ++ rest ∧ ∀ ys, takeThrough? sep (line ++ ys) = some (line, ys) := by
  induction xs generalizing line with
  | nil => cases h
  | cons x xs ih =>
    simp only [takeThrough?] at h
    split at h
    · case isTrue hx =>
      cases h
      exact ⟨rfl, fun ys => if_pos hx⟩
    · case isFalse hx =>
      obtain ⟨⟨line', rest'⟩, htake, heq⟩ := Option.map_eq_some_iff.mp h
      cases heq
      obtain ⟨rfl, hagain⟩ := ih htake
      refine ⟨rfl, fun ys => ?_⟩
      rw [List.cons_append, takeThrough?, if_neg hx, hagain]
      rfl

/-- Nothing is split where there is no separator. -/
theorem splitOnce?_eq_none_iff {xs : List α} : splitOnce? sep xs = none ↔ sep ∉ xs := by
  induction xs with
  | nil => simp [splitOnce?]
  | cons x xs ih =>
    by_cases hx : x = sep
    · simp [splitOnce?, hx]
    · simp [splitOnce?, hx, Ne.symm hx, ih]

/-- A separator ends an empty piece if nothing is before it. -/
theorem splitOn_cons_self (xs : List α) : splitOn sep (sep :: xs) = [] :: splitOn sep xs := by
  rw [splitOn, if_pos (beq_self_eq_true sep)]

/-- What is no separator is put in front of the first piece. -/
theorem splitOn_cons_of_ne {x : α} (hx : x ≠ sep) (xs : List α) :
    ∃ piece pieces, splitOn sep xs = piece :: pieces
      ∧ splitOn sep (x :: xs) = (x :: piece) :: pieces := by
  obtain ⟨piece, pieces, hsplit⟩ := List.exists_cons_of_ne_nil (splitOn_ne_nil sep xs)
  refine ⟨piece, pieces, hsplit, ?_⟩
  rw [splitOn, if_neg (by simpa using hx), hsplit]

/-- **A separator ends a piece,** whatever stands before it and after it. -/
theorem splitOn_append (xs ys : List α) :
    splitOn sep (xs ++ sep :: ys) = splitOn sep xs ++ splitOn sep ys := by
  induction xs with
  | nil =>
    rw [List.nil_append, splitOn_cons_self]
    rfl
  | cons x xs ih =>
    by_cases hx : x = sep
    · rw [hx, List.cons_append, splitOn_cons_self, splitOn_cons_self, ih, List.cons_append]
    · obtain ⟨piece, pieces, hsplit, hcons⟩ := splitOn_cons_of_ne hx xs
      obtain ⟨piece', pieces', hsplit', hcons'⟩ := splitOn_cons_of_ne hx (xs ++ sep :: ys)
      rw [ih, hsplit, List.cons_append, List.cons.injEq] at hsplit'
      rw [List.cons_append, hcons, hcons', List.cons_append, hsplit'.1, hsplit'.2]

/-- No piece has a separator in it. -/
theorem not_mem_of_mem_splitOn {piece xs : List α} (h : piece ∈ splitOn sep xs) : sep ∉ piece := by
  induction xs generalizing piece with
  | nil =>
    obtain rfl := List.mem_singleton.mp h
    exact List.not_mem_nil
  | cons x xs ih =>
    by_cases hx : x = sep
    · rw [hx, splitOn_cons_self, List.mem_cons] at h
      obtain rfl | h := h
      · exact List.not_mem_nil
      · exact ih h
    · -- The character joins the first piece, and it is no separator.
      obtain ⟨first, pieces, hsplit, hcons⟩ := splitOn_cons_of_ne hx xs
      rw [hcons, List.mem_cons] at h
      rw [hsplit] at ih
      obtain rfl | h := h
      · rw [List.mem_cons, not_or]
        exact ⟨Ne.symm hx, ih List.mem_cons_self⟩
      · exact ih (List.mem_cons_of_mem first h)

/-- What has no separator is one piece. -/
theorem splitOn_of_not_mem {xs : List α} (h : sep ∉ xs) : splitOn sep xs = [xs] := by
  induction xs with
  | nil => rfl
  | cons x xs ih =>
    rw [List.mem_cons, not_or] at h
    obtain ⟨piece, pieces, hsplit, hcons⟩ := splitOn_cons_of_ne (Ne.symm h.1) xs
    rw [ih h.2, List.cons.injEq] at hsplit
    rw [hcons, ← hsplit.1, ← hsplit.2]

/-- Every separator makes one piece more. -/
theorem length_splitOn_le (xs : List α) : (splitOn sep xs).length ≤ xs.length + 1 := by
  induction xs with
  | nil => exact Nat.le_refl _
  | cons x xs ih =>
    rw [List.length_cons]
    by_cases hx : x = sep
    · rw [hx, splitOn_cons_self, List.length_cons]
      omega
    · obtain ⟨piece, pieces, hsplit, hcons⟩ := splitOn_cons_of_ne hx xs
      rw [hsplit, List.length_cons] at ih
      rw [hcons, List.length_cons]
      omega

omit [BEq α] [LawfulBEq α] in
theorem joinWith_cons (piece : List α) {pieces : List (List α)} (h : pieces ≠ []) :
    joinWith sep (piece :: pieces) = piece ++ sep :: joinWith sep pieces := by
  obtain ⟨second, rest, rfl⟩ := List.exists_cons_of_ne_nil h
  rfl

omit [BEq α] [LawfulBEq α] in
/-- Where pieces are cut apart, a separator stands between the two parts. -/
theorem joinWith_append {front back : List (List α)} (hfront : front ≠ []) (hback : back ≠ []) :
    joinWith sep (front ++ back) = joinWith sep front ++ sep :: joinWith sep back := by
  induction front with
  | nil => exact absurd rfl hfront
  | cons piece front ih =>
    by_cases hlast : front = []
    · rw [hlast, List.singleton_append, joinWith_cons piece hback]
      rfl
    · rw [List.cons_append, joinWith_cons piece (by simp [hlast]), ih hlast,
        joinWith_cons piece hlast, List.append_assoc, List.cons_append]

omit [BEq α] [LawfulBEq α] in
/-- Fewer pieces make a beginning of the whole. -/
theorem joinWith_prefix {front pieces : List (List α)} (h : front <+: pieces) :
    joinWith sep front <+: joinWith sep pieces := by
  obtain ⟨back, rfl⟩ := h
  by_cases hfront : front = []
  · rw [hfront]
    exact List.nil_prefix
  by_cases hback : back = []
  · simp [hback]
  · rw [joinWith_append hfront hback]
    exact List.prefix_append _ _

/-- **Pieces that are joined are the pieces that are found.** -/
theorem splitOn_joinWith {pieces : List (List α)} (hne : pieces ≠ [])
    (h : ∀ piece ∈ pieces, sep ∉ piece) : splitOn sep (joinWith sep pieces) = pieces := by
  induction pieces with
  | nil => exact absurd rfl hne
  | cons piece pieces ih =>
    obtain ⟨hpiece, hpieces⟩ := List.forall_mem_cons.mp h
    by_cases hlast : pieces = []
    · rw [hlast]
      exact splitOn_of_not_mem hpiece
    · rw [joinWith_cons piece hlast, splitOn_append, splitOn_of_not_mem hpiece, ih hlast hpieces]
      rfl

/-- **Pieces that are found, joined again, are the whole.** -/
theorem joinWith_splitOn (xs : List α) : joinWith sep (splitOn sep xs) = xs := by
  induction xs with
  | nil => rfl
  | cons x xs ih =>
    by_cases hx : x = sep
    · rw [hx, splitOn_cons_self, joinWith_cons [] (splitOn_ne_nil sep xs), ih, List.nil_append]
    · obtain ⟨piece, pieces, hsplit, hcons⟩ := splitOn_cons_of_ne hx xs
      rw [hsplit] at ih
      rw [hcons, ← ih]
      cases pieces <;> rfl

end Separators

end FlagServer.Text
