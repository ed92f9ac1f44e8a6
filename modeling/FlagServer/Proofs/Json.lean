import FlagServer.Json.Printer
import FlagServer.Json.Reader
import FlagServer.Proofs.Text
import Mathlib.Data.List.TakeDrop

/-!
# Values that are read as they were written

A value is written as compact text and read back in two steps: the text says a literal, and the
literal means a value. `Json.reads_render` inverts both at once, for a value **with something after
it** that can follow a value: the text in front of the rest is read, and the literal that it says
means the value again.

Not every `Json` is a value that a program can hold. Integers stay within 64 bits, and an object
lists its keys in their order and each of them once. Such values are *canonical,* and nothing else
comes out of the reader (`Json.isCanonical_parse?`). Doubles are left out: reading one rounds twice,
so it is not always read as it was written.
-/

namespace FlagServer

/-! ## The order of keys -/

namespace Text

/-- The order of keys is the lexicographic order of their characters. -/
theorem precedesChars_iff (as bs : List Char) : precedesChars as bs = true ↔ as < bs := by
  fun_induction precedesChars as bs with
  | case1 as => simp
  | case2 b bs => simp
  | case3 a as b bs h =>
    simp only [true_iff]
    exact List.Lex.rel h
  | case4 a as b bs hab hba =>
    have hlt : ¬ a < b := hab
    have hne : a ≠ b := by
      rintro rfl
      exact hab hba
    simp only [Bool.false_eq_true, false_iff, List.cons_lt_cons_iff, not_or, not_and]
    exact ⟨hlt, fun h => absurd h hne⟩
  | case5 a as b bs hab hba ih =>
    have heq : a = b := by
      rw [← Char.toNat_inj]
      omega
    simp [ih, heq]

theorem precedes_iff (a b : String) : precedes a b = true ↔ a.toList < b.toList :=
  precedesChars_iff a.toList b.toList

theorem precedes_irrefl (a : String) : precedes a a = false := by
  rw [← Bool.not_eq_true, precedes_iff]
  exact List.lt_irrefl _

/-- The order is transitive. -/
theorem precedes_trans {a b c : String} (hab : precedes a b = true) (hbc : precedes b c = true) :
    precedes a c = true := by
  rw [precedes_iff] at *
  exact List.lt_trans hab hbc

/-- So of two keys not both stand before the other. -/
theorem precedes_asymm {a b : String} (h : precedes a b = true) : precedes b a = false := by
  rw [← Bool.not_eq_true]
  intro hba
  have haa := precedes_trans h hba
  rw [precedes_irrefl] at haa
  cases haa

/-- Of two keys one stands before the other. -/
theorem precedes_of_not {a b : String} (hne : a ≠ b) (h : precedes a b = false) :
    precedes b a = true := by
  rw [← Bool.not_eq_true, precedes_iff] at h
  rw [precedes_iff]
  rcases List.le_iff_lt_or_eq.mp (List.not_lt.mp h) with hlt | heq
  · exact hlt
  · exact absurd (String.toList_inj.mp heq).symm hne

end Text

namespace Json

/-! ## Strings -/

theorem hexValue?_hexDigit {d : Nat} (h : d < 16) :
    hexValue? (Text.Quoted.hexDigit d) = some d := by
  have hall : ∀ d < 16, hexValue? (Text.Quoted.hexDigit d) = some d := by decide
  exact hall d h

/-- A control character is written by its number. -/
theorem unitOf?_hexDigits {n : Nat} (h : n < 0x20) :
    unitOf? '0' '0' (Text.Quoted.hexDigit (n / 16)) (Text.Quoted.hexDigit (n % 16)) = some n := by
  have hzero : hexValue? '0' = some 0 := by decide
  have hhigh := hexValue?_hexDigit (d := n / 16) (by omega)
  have hlow := hexValue?_hexDigit (d := n % 16) (by omega)
  simp only [unitOf?, hzero, hhigh, hlow, Option.bind_eq_bind, Option.bind_some, Option.pure_def,
    Option.some.injEq]
  omega

/-- A character that is not escaped is one piece. -/
theorem pieces?_char {c : Char} (hquote : c ≠ '"') (hbackslash : c ≠ '\\') (h : ¬ c.toNat < 0x20)
    (cs : List Char) :
    pieces? (c :: cs) = (pieces? cs).map fun (ps, rest) => (.char c :: ps, rest) := by
  rw [pieces?.eq_def]
  split
  · case h_1 heq => cases heq
  · case h_2 heq => exact absurd (List.cons.inj heq).1 hquote
  · case h_3 heq => exact absurd (List.cons.inj heq).1 hbackslash
  · case h_4 heq => exact absurd (List.cons.inj heq).1 hbackslash
  · case h_5 heq =>
    obtain ⟨rfl, rfl⟩ := List.cons.inj heq
    rw [if_neg (by simp [hbackslash, Nat.not_lt.mp h])]

/-- **A character that has been written is read as one piece,** and that piece stands for the
character. -/
theorem pieces?_escapeChar (c : Char) :
    ∃ p : Piece, (∀ cs, pieces? (escapeChar c ++ cs)
        = (pieces? cs).map fun (ps, rest) => (p :: ps, rest))
      ∧ ∀ ps, assemble? (p :: ps) = (assemble? ps).map (c :: ·) := by
  unfold escapeChar
  -- The seven escapes of one letter stand for what they are read as.
  iterate 7
    split
    · case isTrue h =>
      refine ⟨.char c, fun cs => ?_, fun ps => rfl⟩
      rw [beq_iff_eq.mp h]
      simp [pieces?, shortEscape?]
  split
  · case isTrue h =>
    refine ⟨.unit c.toNat, fun cs => ?_, fun ps => ?_⟩
    · simp only [List.cons_append, List.nil_append, pieces?, unitOf?_hexDigits h]
    · have hlow : isLowUnit c.toNat = false := by
        simp only [isLowUnit, Bool.and_eq_false_iff, decide_eq_false_iff_not]
        omega
      have hhigh : isHighUnit c.toNat = false := by
        simp only [isHighUnit, Bool.and_eq_false_iff, decide_eq_false_iff_not]
        omega
      rw [assemble?.eq_def]
      simp [hlow, hhigh, Char.ofNat_toNat]
  · case isFalse hquote hbackslash _ _ _ _ _ h =>
    refine ⟨.char c, fun cs => ?_, fun ps => rfl⟩
    exact pieces?_char (by simpa using hquote) (by simpa using hbackslash) h cs

/-- **Text between quotation marks is read as it was written.** -/
theorem pieces?_escape (s rest : List Char) :
    ∃ ps, pieces? (s.flatMap escapeChar ++ '"' :: rest) = some (ps, rest)
      ∧ assemble? ps = some s := by
  induction s with
  | nil => exact ⟨[], by simp [pieces?], rfl⟩
  | cons c s ih =>
    obtain ⟨p, hread, hmean⟩ := pieces?_escapeChar c
    obtain ⟨ps, hreads, hmeans⟩ := ih
    refine ⟨p :: ps, ?_, ?_⟩
    · rw [List.flatMap_cons, List.append_assoc, hread, hreads]
      rfl
    · rw [hmean, hmeans]
      rfl

/-! ## Integers -/

theorem isDigit_iff (c : Char) :
    Text.Decimal.isDigit c = true ↔ 0x30 ≤ c.toNat ∧ c.toNat ≤ 0x39 := by
  have hrange : ('0' ≤ c ∧ c ≤ '9') ↔ 0x30 ≤ c.toNat ∧ c.toNat ≤ 0x39 := Iff.rfl
  simp [Text.Decimal.isDigit, Text.Decimal.digit?, ← hrange]

/-- The number of the digits that have been written is the number. -/
theorem ofDigits_digits (n : Nat) : Text.Decimal.ofDigits (Text.Decimal.digits n) = n := by
  -- The value of some digits is the same with and without a check that each is one. The step of the
  -- fold is left open, so that the fact can be used for any that does this with digits.
  have hfold : ∀ (f : Nat → Char → Nat),
      (∀ acc c d, Text.Decimal.digit? c = some d → f acc c = 10 * acc + d) →
      ∀ (cs : List Char) (acc n : Nat), Text.Decimal.valueFrom? acc cs = some n →
        cs.foldl f acc = n := by
    intro f hf cs
    induction cs with
    | nil =>
      intro acc n h
      exact Option.some.inj h
    | cons c cs ih =>
      intro acc n h
      simp only [Text.Decimal.valueFrom?] at h
      cases hdigit : Text.Decimal.digit? c with
      | none => simp [hdigit] at h
      | some d =>
        rw [hdigit] at h
        rw [List.foldl_cons, hf acc c d hdigit]
        exact ih _ n h
  refine hfold _ (fun acc c d hdigit => ?_) _ 0 n (Text.Decimal.valueFrom?_digits n)
  rw [hdigit]

/-- Only zero is written with a leading zero, and then alone. -/
theorem digits_eq_zero_cons {n : Nat} {cs : List Char} (h : Text.Decimal.digits n = '0' :: cs) :
    cs = [] := by
  have hhead : ∀ d < 10, Text.Decimal.digitChar d = '0' → d = 0 := by decide
  induction n using Nat.strongRecOn generalizing cs with
  | ind n ih =>
    by_cases hn : n < 10
    · rw [Text.Decimal.digits_of_lt hn] at h
      exact (List.cons.inj h).2.symm
    · -- The numeral of the quotient begins with a digit, and it is not zero.
      rw [Text.Decimal.digits_of_le (by omega)] at h
      obtain ⟨c, ds, hds⟩ := List.exists_cons_of_ne_nil (Text.Decimal.digits_ne_nil (n / 10))
      rw [hds, List.cons_append] at h
      obtain ⟨rfl, -⟩ := List.cons.inj h
      have hnil := ih (n / 10) (by omega) hds
      rw [hnil] at hds
      have hvalue := ofDigits_digits (n / 10)
      rw [hds] at hvalue
      have hzero : Text.Decimal.ofDigits ['0'] = 0 := by decide
      omega

/-- What may stand after a value in compact text: nothing, a comma, or the end of the array or
object that the value is in. -/
def Follows (rest : List Char) : Prop :=
  ∀ c ∈ rest.head?, c = ',' ∨ c = ']' ∨ c = '\x7d'

/-- A value may stand at the end of the text. -/
theorem Follows.nil : Follows [] := by
  intro c hc
  cases hc

/-- It may stand before a comma and before a bracket that closes. -/
theorem Follows.cons {c : Char} (h : c = ',' ∨ c = ']' ∨ c = '\x7d') (rest : List Char) :
    Follows (c :: rest) := by
  intro d hd
  rw [List.head?_cons, Option.mem_some] at hd
  exact hd ▸ h

/-- The digits that are taken off the text are those of the numeral, since none follows them. -/
theorem spanDigits_digits (n : Nat) {rest : List Char} (hrest : Follows rest) :
    spanDigits (Text.Decimal.digits n ++ rest) = (Text.Decimal.digits n, rest) := by
  have hdigits : ∀ c ∈ Text.Decimal.digits n, Text.Decimal.isDigit c = true :=
    fun c hc => (isDigit_iff c).mpr (Text.Decimal.toNat_of_mem_digits hc)
  have hhead : rest.takeWhile Text.Decimal.isDigit = []
      ∧ rest.dropWhile Text.Decimal.isDigit = rest := by
    cases rest with
    | nil => exact ⟨rfl, rfl⟩
    | cons c rest =>
      have hc : Text.Decimal.isDigit c = false := by
        rcases hrest c rfl with rfl | rfl | rfl <;> decide
      simp [hc]
  rw [spanDigits, List.span_eq_takeWhile_dropWhile, List.takeWhile_append_of_pos hdigits,
    List.dropWhile_append_of_pos hdigits, hhead.1, hhead.2, List.append_nil]

/-- The whole part of a number is the numeral: it has a digit, and no leading zero with more behind
it. -/
theorem whole?_digits (n : Nat) {rest : List Char} (hrest : Follows rest) :
    whole? (Text.Decimal.digits n ++ rest) = some (Text.Decimal.digits n, rest) := by
  rw [whole?, spanDigits_digits n hrest]
  split
  · case h_1 heq => exact absurd (Prod.mk.inj heq).1 (Text.Decimal.digits_ne_nil n)
  · case h_2 c cs _ heq =>
    have hnil := digits_eq_zero_cons (Prod.mk.inj heq).1
    cases hnil
  · case h_3 heq =>
    obtain ⟨rfl, rfl⟩ := Prod.mk.inj heq
    rfl

/-- What may follow a value begins no fraction. -/
theorem fraction?_of_follows {rest : List Char} (hrest : Follows rest) :
    fraction? rest = some ([], rest) := by
  cases rest with
  | nil => rfl
  | cons c rest => rcases hrest c rfl with rfl | rfl | rfl <;> rfl

/-- Nor does it begin an exponent. -/
theorem exponent?_of_follows {rest : List Char} (hrest : Follows rest) :
    exponent? rest = some (none, rest) := by
  cases rest with
  | nil => rfl
  | cons c rest => rcases hrest c rfl with rfl | rfl | rfl <;> rfl

/-- The numeral that an integer is written as. -/
def numeralOf (n : Int) : Numeral :=
  ⟨decide (n < 0), Text.Decimal.digits n.natAbs, [], none⟩

/-- **An integer that has been written is read,** by the numeral that it was written as. -/
theorem numeral?_intDigits (n : Int) {rest : List Char} (hrest : Follows rest) :
    numeral? (Text.Decimal.intDigits n ++ rest) = some (numeralOf n, rest) := by
  have hwhole := whole?_digits n.natAbs hrest
  have hfraction := fraction?_of_follows hrest
  have hexponent := exponent?_of_follows hrest
  rw [Text.Decimal.intDigits]
  by_cases hn : n < 0
  · simp [numeral?, numeralOf, hn, hwhole, hfraction, hexponent]
  · -- No digit is a minus sign.
    have hsign : ∀ cs, Text.Decimal.digits n.natAbs ++ rest ≠ '-' :: cs := by
      intro cs heq
      obtain ⟨c, ds, hds⟩ := List.exists_cons_of_ne_nil (Text.Decimal.digits_ne_nil n.natAbs)
      rw [hds, List.cons_append] at heq
      obtain ⟨rfl, -⟩ := List.cons.inj heq
      have hdigit := Text.Decimal.toNat_of_mem_digits (n := n.natAbs) (c := '-') (by simp [hds])
      revert hdigit
      decide
    rw [if_neg hn, numeral?]
    · simp [numeralOf, hn, hwhole, hfraction, hexponent]
    · exact hsign

/-- **The numeral of an integer within bounds means the integer.** -/
theorem numberOf?_numeralOf {n : Int} (hmin : minInt ≤ n) (hmax : n ≤ maxInt) :
    numberOf? (numeralOf n) = some (.int n) := by
  have hvalue := ofDigits_digits n.natAbs
  simp only [numberOf?, numeralOf, hvalue, List.isEmpty_nil, Option.isNone_none, Bool.and_self,
    if_true]
  by_cases hn : n < 0
  · have hnat : ((n.natAbs : Nat) : Int) = -n := by omega
    have hne : n.natAbs ≠ 0 := by omega
    simp [hn, hnat, hne, hmin]
  · have hnat : ((n.natAbs : Nat) : Int) = n := by omega
    simp [hn, hnat, hmax]

/-! ## Values of which something holds throughout -/

mutual

/-- Something holds of a value and of every value inside it. -/
def all (p : Json → Bool) : Json → Bool
  | .arr items => p (.arr items) && allItems p items
  | .obj members => p (.obj members) && allMembers p members
  | v => p v

/-- Something holds throughout the items. -/
def allItems (p : Json → Bool) : List Json → Bool
  | [] => true
  | v :: vs => all p v && allItems p vs

/-- Something holds throughout the members' values. -/
def allMembers (p : Json → Bool) : List (String × Json) → Bool
  | [] => true
  | (_, v) :: ms => all p v && allMembers p ms

end

/-- The keys stand in their order, each of them once. -/
def Ordered (members : List (String × Json)) : Prop :=
  (members.map (·.1)).Pairwise fun a b => Text.precedes a b = true

instance (members : List (String × Json)) : Decidable (Ordered members) :=
  inferInstanceAs (Decidable (List.Pairwise _ _))

/-- What a value needs by itself to be one that a program can hold. -/
def isWellFormed : Json → Bool
  | .num (.int n) => minInt ≤ n && n ≤ maxInt
  | .obj members => decide (Ordered members)
  | _ => true

/-- A value that a program can hold: its integers are within bounds, and its keys in order. -/
def isCanonical (v : Json) : Bool :=
  v.all isWellFormed

/-- A double. -/
def isReal : Json → Bool
  | .num (.real _) => true
  | _ => false

/-- No double is anywhere in a value. -/
def hasNoReal (v : Json) : Bool :=
  v.all fun w => !w.isReal

/-! ## Members -/

/-- A key that comes after all others is bound at the end. -/
theorem bind_last {key : String} {members : List (String × Json)}
    (h : ∀ m ∈ members, Text.precedes m.1 key = true) (v : Json) :
    bind key v members = members ++ [(key, v)] := by
  induction members with
  | nil => rfl
  | cons m members ih =>
    have hm := h m List.mem_cons_self
    have hne : (m.1 == key) = false := by
      rw [beq_eq_false_iff_ne]
      intro heq
      rw [heq, Text.precedes_irrefl] at hm
      cases hm
    have hrest := ih fun n hn => h n (List.mem_cons_of_mem _ hn)
    simp [bind, hne, Text.precedes_asymm hm, hrest]

/-- Members in order, bound one after the other, are the members. -/
theorem foldl_bind {members acc : List (String × Json)} (h : Ordered (acc ++ members)) :
    members.foldl (fun acc m => bind m.1 m.2 acc) acc = acc ++ members := by
  induction members generalizing acc with
  | nil => simp
  | cons m members ih =>
    have hlast : ∀ n ∈ acc, Text.precedes n.1 m.1 = true := by
      intro n hn
      rw [Ordered, List.map_append, List.pairwise_append] at h
      exact h.2.2 _ (List.mem_map_of_mem hn) _ (by simp)
    rw [List.foldl_cons, bind_last hlast]
    have hnext : Ordered ((acc ++ [m]) ++ members) := by simpa using h
    rw [ih hnext, List.append_assoc, List.singleton_append]

/-! ## What literals mean -/

/-- A literal means a value, wherever so many arrays and objects may be open as the value has. -/
def Means (lit : Literal) (v : Json) : Prop :=
  ∀ d, v.depth ≤ d → ofLiteral? d lit = some v

/-- Literals mean items. -/
def MeanItems (lits : List Literal) (vs : List Json) : Prop :=
  ∀ d, depthItems vs ≤ d → ofItems? d lits = some vs

/-- Literals mean members, on top of whatever is bound before them. -/
def MeanMembers (lits : List (Option String × Literal)) (ms : List (String × Json)) : Prop :=
  ∀ d acc, depthMembers ms ≤ d →
    ofMembers? d lits acc = some (ms.foldl (fun acc m => bind m.1 m.2 acc) acc)

/-- An array literal means the array of what its items mean, one level deeper. -/
theorem Means.arr {lits : List Literal} {vs : List Json} (h : MeanItems lits vs) :
    Means (.arr lits) (.arr vs) := by
  intro d hd
  obtain ⟨d, rfl⟩ : ∃ e, d = e + 1 := ⟨d - 1, by simp only [depth] at hd; omega⟩
  rw [ofLiteral?, h d (by simpa [depth] using hd)]
  rfl

/-- An object literal means the object of its members. They stand in order, so that binding one
after the other gives them back. -/
theorem Means.obj {lits : List (Option String × Literal)} {ms : List (String × Json)}
    (h : MeanMembers lits ms) (hms : Ordered ms) : Means (.obj lits) (.obj ms) := by
  intro d hd
  obtain ⟨d, rfl⟩ : ∃ e, d = e + 1 := ⟨d - 1, by simp only [depth] at hd; omega⟩
  rw [ofLiteral?, h d [] (by simpa [depth] using hd), foldl_bind (by simpa using hms)]
  rfl

/-- Items mean items one by one. -/
theorem MeanItems.cons {lit : Literal} {v : Json} {lits : List Literal} {vs : List Json}
    (h : Means lit v) (hs : MeanItems lits vs) : MeanItems (lit :: lits) (v :: vs) := by
  intro d hd
  simp only [depthItems] at hd
  simp only [ofItems?, h d (by omega), hs d (by omega)]

/-- So do members, as those before them are bound already. -/
theorem MeanMembers.cons {k : String} {lit : Literal} {v : Json}
    {lits : List (Option String × Literal)} {ms : List (String × Json)}
    (h : Means lit v) (hs : MeanMembers lits ms) :
    MeanMembers ((some k, lit) :: lits) ((k, v) :: ms) := by
  intro d acc hd
  simp only [depthMembers] at hd
  simp only [ofMembers?, h d (by omega), hs d _ (by omega), List.foldl_cons]

/-! ## Texts that say literals -/

theorem skipSpace_cons {c : Char} (h : isSpace c = false) (cs : List Char) :
    skipSpace (c :: cs) = c :: cs := by
  simp [skipSpace, h]

/-- A string is read as it was written. -/
theorem value?_string (fuel : Nat) (s : String) (rest : List Char) :
    value? (fuel + 1) (renderString s ++ rest) = some (.str (some s), rest) := by
  obtain ⟨ps, hread, hmean⟩ := pieces?_escape s.toList rest
  have htext : renderString s ++ rest = '"' :: (s.toList.flatMap escapeChar ++ '"' :: rest) := by
    simp [renderString]
  rw [htext, value?, skipSpace_cons (by decide)]
  simp only [hread, hmean, Option.map_some, String.ofList_toList]

/-- An integer begins with a minus sign or a digit. -/
theorem head_intDigits (n : Int) : ∃ c cs, Text.Decimal.intDigits n = c :: cs
    ∧ (c = '-' ∨ 0x30 ≤ c.toNat ∧ c.toNat ≤ 0x39) := by
  rw [Text.Decimal.intDigits]
  split
  · exact ⟨_, _, rfl, .inl rfl⟩
  · obtain ⟨c, cs, hcs⟩ := List.exists_cons_of_ne_nil (Text.Decimal.digits_ne_nil n.natAbs)
    refine ⟨c, cs, hcs, .inr ?_⟩
    exact Text.Decimal.toNat_of_mem_digits (n := n.natAbs) (by simp [hcs])

/-- The first character of a value is no space, and it is not the end of an array. -/
theorem head_render {v : Json} (hreal : v.hasNoReal = true) :
    ∃ c cs, v.render = c :: cs ∧ isSpace c = false ∧ c ≠ ']' := by
  cases v with
  | num n =>
    cases n with
    | int n =>
      obtain ⟨c, cs, hcs, hc⟩ := head_intDigits n
      refine ⟨c, cs, hcs, ?_⟩
      rcases hc with rfl | hc
      · decide
      · have hne : ∀ d : Char, d.toNat < 0x30 ∨ 0x39 < d.toNat → c ≠ d := by
          rintro d hd rfl
          omega
        simp [isSpace, hne ' ' (by decide), hne '\t' (by decide), hne '\n' (by decide),
          hne '\r' (by decide), hne ']' (by decide)]
    | real x => simp [hasNoReal, all, isReal] at hreal
  | bool b => cases b <;> exact ⟨_, _, rfl, by decide, by decide⟩
  | _ => exact ⟨_, _, rfl, by decide, by decide⟩

/-- So is an integer. -/
theorem value?_int (fuel : Nat) (n : Int) {rest : List Char} (hrest : Follows rest) :
    value? (fuel + 1) (Text.Decimal.intDigits n ++ rest) = some (.num (numeralOf n), rest) := by
  have hread := numeral?_intDigits n hrest
  obtain ⟨c, cs, hcs, hc⟩ := head_intDigits n
  rw [hcs, List.cons_append] at hread ⊢
  -- No other value begins with a minus sign or a digit.
  have hne : ∀ d : Char, d ≠ '-' → d.toNat < 0x30 ∨ 0x39 < d.toNat → c ≠ d := by
    rintro d hminus hd rfl
    rcases hc with rfl | hc
    · exact hminus rfl
    · omega
  have hspace : isSpace c = false := by
    simp [isSpace, hne ' ' (by decide) (by decide), hne '\t' (by decide) (by decide),
      hne '\n' (by decide) (by decide), hne '\r' (by decide) (by decide)]
  rw [value?, skipSpace_cons hspace]
  split
  · case h_1 heq => exact absurd (List.cons.inj heq).1 (hne 'n' (by decide) (by decide))
  · case h_2 heq => exact absurd (List.cons.inj heq).1 (hne 't' (by decide) (by decide))
  · case h_3 heq => exact absurd (List.cons.inj heq).1 (hne 'f' (by decide) (by decide))
  · case h_4 heq => exact absurd (List.cons.inj heq).1 (hne '"' (by decide) (by decide))
  · case h_5 heq => exact absurd (List.cons.inj heq).1 (hne '[' (by decide) (by decide))
  · case h_6 heq => exact absurd (List.cons.inj heq).1 (hne '\x7b' (by decide) (by decide))
  · rw [hread]
    rfl

/-! ## Values in front of a rest -/

/-- A value is read: its text in front of a rest says a literal that means it. -/
def Reads (v : Json) (fuel : Nat) (rest : List Char) : Prop :=
  ∃ lit, value? fuel (v.render ++ rest) = some (lit, rest) ∧ Means lit v

/-- An array is read if its items are. -/
theorem reads_arr {v : Json} {vs : List Json} {fuel : Nat} {rest : List Char}
    (hreal : v.hasNoReal = true) {lits : List Literal}
    (hread : items? fuel (renderItems (v :: vs) ++ ']' :: rest) = some (lits, rest))
    (hmean : MeanItems lits (v :: vs)) : Reads (.arr (v :: vs)) (fuel + 1) rest := by
  refine ⟨.arr lits, ?_, .arr hmean⟩
  have htext : (Json.arr (v :: vs)).render ++ rest
      = '[' :: (renderItems (v :: vs) ++ ']' :: rest) := by
    simp [render]
  -- The first item is not taken for the end of an empty array.
  obtain ⟨c, cs, hcs, hspace, hne⟩ := head_render hreal
  obtain ⟨ds, hds⟩ : ∃ ds, renderItems (v :: vs) ++ ']' :: rest = c :: ds := by
    cases vs <;> exact ⟨_, by simp [renderItems, hcs]; rfl⟩
  rw [hds] at hread
  rw [htext, hds, value?, skipSpace_cons (by decide)]
  simp only [skipSpace_cons hspace]
  split
  · case h_1 heq => exact absurd (List.cons.inj heq).1 hne
  · rw [hread]
    rfl

/-- An object is read if its members are. -/
theorem reads_obj {m : String × Json} {ms : List (String × Json)} {fuel : Nat} {rest : List Char}
    {lits : List (Option String × Literal)}
    (hread : members? fuel (renderMembers (m :: ms) ++ '\x7d' :: rest) = some (lits, rest))
    (hmean : MeanMembers lits (m :: ms)) (hms : Ordered (m :: ms)) :
    Reads (.obj (m :: ms)) (fuel + 1) rest := by
  refine ⟨.obj lits, ?_, .obj hmean hms⟩
  have htext : (Json.obj (m :: ms)).render ++ rest
      = '\x7b' :: (renderMembers (m :: ms) ++ '\x7d' :: rest) := by
    simp [render]
  obtain ⟨ds, hds⟩ : ∃ ds, renderMembers (m :: ms) ++ '\x7d' :: rest = '"' :: ds := by
    cases ms <;> exact ⟨_, by simp [renderMembers, renderString]; rfl⟩
  rw [hds] at hread
  rw [htext, hds, value?, skipSpace_cons (by decide)]
  simp [skipSpace_cons (c := '"') (by decide), hread]

/-- The members of an object begin with a key, and go on with its value. -/
theorem members?_key (k : String) (fuel : Nat) (cs : List Char) :
    members? (fuel + 1) (renderString k ++ ':' :: cs)
      = match value? fuel cs with
        | none => none
        | some (v, rest) =>
          match skipSpace rest with
          | '\x7d' :: rest => some ([(some k, v)], rest)
          | ',' :: rest => (members? fuel rest).map fun (ms, rest) => ((some k, v) :: ms, rest)
          | _ => none := by
  obtain ⟨ps, hread, hmean⟩ := pieces?_escape k.toList (':' :: cs)
  have htext : renderString k ++ ':' :: cs
      = '"' :: (k.toList.flatMap escapeChar ++ '"' :: ':' :: cs) := by
    simp [renderString]
  -- The reader finds the quotation mark, the key, and the colon, and nothing between them.
  have hstep := members?.eq_def (fuel + 1) (renderString k ++ ':' :: cs)
  simp only [htext, skipSpace_cons (c := '"') (by decide), hread, hmean,
    skipSpace_cons (c := ':') (by decide), Option.map_some, String.ofList_toList] at hstep
  rw [htext]
  exact hstep

/-- One item and the comma after it are read, and then the items that follow. -/
theorem items?_cons {v : Json} {fuel : Nat} {cs rest : List Char} {lits : List Literal}
    {vs : List Json} (hv : Reads v fuel (',' :: cs))
    (hvs : items? fuel cs = some (lits, rest)) (hmean : MeanItems lits vs) :
    ∃ lits, items? (fuel + 1) (v.render ++ ',' :: cs) = some (lits, rest)
      ∧ MeanItems lits (v :: vs) := by
  obtain ⟨lit, hread, hmeans⟩ := hv
  refine ⟨lit :: lits, ?_, .cons hmeans hmean⟩
  rw [items?, hread]
  simp only [skipSpace_cons (c := ',') (by decide), hvs, Option.map_some]

/-- One member and the comma after it are read, and then the members that follow. -/
theorem members?_cons {k : String} {v : Json} {fuel : Nat} {cs rest : List Char}
    {lits : List (Option String × Literal)} {ms : List (String × Json)}
    (hv : Reads v fuel (',' :: cs)) (hms : members? fuel cs = some (lits, rest))
    (hmean : MeanMembers lits ms) :
    ∃ lits, members? (fuel + 1) (renderString k ++ ':' :: (v.render ++ ',' :: cs))
        = some (lits, rest) ∧ MeanMembers lits ((k, v) :: ms) := by
  obtain ⟨lit, hread, hmeans⟩ := hv
  refine ⟨(some k, lit) :: lits, ?_, .cons hmeans hmean⟩
  rw [members?_key, hread]
  simp only [skipSpace_cons (c := ',') (by decide), hms, Option.map_some]

mutual

/-- **A canonical value without doubles is read as it was written,** in front of any rest that can
follow a value. The fuel of the reader is twice the text that is left, so that it is enough at every
bracket and every comma. -/
theorem reads_render : (v : Json) → v.isCanonical = true → v.hasNoReal = true →
    (fuel : Nat) → 2 * v.render.length ≤ fuel → (rest : List Char) → Follows rest →
    Reads v fuel rest
  -- The recursion follows the value. Every level takes one unit of fuel, and no level is without a
  -- character of its own.
  | .null, _, _, fuel, hfuel, rest, _ => by
    obtain ⟨fuel, rfl⟩ : ∃ f, fuel = f + 1 := ⟨fuel - 1, by simp [render] at hfuel; omega⟩
    exact ⟨.null, by simp [render, value?, skipSpace_cons (c := 'n') (by decide)], fun d _ => rfl⟩
  | .bool b, _, _, fuel, hfuel, rest, _ => by
    obtain ⟨fuel, rfl⟩ : ∃ f, fuel = f + 1 :=
      ⟨fuel - 1, by cases b <;> simp [render] at hfuel <;> omega⟩
    refine ⟨.bool b, ?_, fun d _ => rfl⟩
    cases b with
    | true => simp [render, value?, skipSpace_cons (c := 't') (by decide)]
    | false => simp [render, value?, skipSpace_cons (c := 'f') (by decide)]
  | .num (.int n), hc, _, fuel, hfuel, rest, hrest => by
    obtain ⟨c, cs, hcs, -⟩ := head_intDigits n
    obtain ⟨fuel, rfl⟩ : ∃ f, fuel = f + 1 :=
      ⟨fuel - 1, by simp [render, renderNumber, hcs] at hfuel; omega⟩
    simp only [isCanonical, all, isWellFormed, Bool.and_eq_true, decide_eq_true_eq] at hc
    refine ⟨.num (numeralOf n), value?_int fuel n hrest, fun d _ => ?_⟩
    rw [ofLiteral?, numberOf?_numeralOf hc.1 hc.2]
    rfl
  | .num (.real x), _, hreal, _, _, _, _ => by
    simp [hasNoReal, all, isReal] at hreal
  | .str s, _, _, fuel, hfuel, rest, _ => by
    obtain ⟨fuel, rfl⟩ : ∃ f, fuel = f + 1 :=
      ⟨fuel - 1, by simp [render, renderString] at hfuel; omega⟩
    exact ⟨.str (some s), value?_string fuel s rest, fun d _ => rfl⟩
  | .arr [], _, _, fuel, hfuel, rest, _ => by
    obtain ⟨fuel, rfl⟩ : ∃ f, fuel = f + 1 := ⟨fuel - 1, by simp [render] at hfuel; omega⟩
    refine ⟨.arr [], ?_, .arr fun d _ => rfl⟩
    simp [render, renderItems, value?, skipSpace_cons (c := '[') (by decide),
      skipSpace_cons (c := ']') (by decide)]
  | .arr (v :: vs), hc, hreal, fuel, hfuel, rest, _ => by
    simp only [isCanonical, hasNoReal, all, Bool.and_eq_true] at hc hreal
    simp only [render, List.cons_append, List.length_cons, List.length_append] at hfuel
    obtain ⟨fuel, rfl⟩ : ∃ f, fuel = f + 1 := ⟨fuel - 1, by omega⟩
    obtain ⟨lits, hread, hmean⟩ := readItems_render v vs hc.2 hreal.2 fuel (by omega) rest
    have hfirst : v.hasNoReal = true := (Bool.and_eq_true_iff.mp hreal.2).1
    exact reads_arr hfirst hread hmean
  | .obj [], _, _, fuel, hfuel, rest, _ => by
    obtain ⟨fuel, rfl⟩ : ∃ f, fuel = f + 1 := ⟨fuel - 1, by simp [render] at hfuel; omega⟩
    refine ⟨.obj [], ?_, .obj (fun d _ _ => rfl) .nil⟩
    simp [render, renderMembers, value?, skipSpace_cons (c := '\x7b') (by decide),
      skipSpace_cons (c := '\x7d') (by decide)]
  | .obj (m :: ms), hc, hreal, fuel, hfuel, rest, _ => by
    simp only [isCanonical, hasNoReal, all, Bool.and_eq_true] at hc hreal
    simp only [render, List.cons_append, List.length_cons, List.length_append] at hfuel
    obtain ⟨fuel, rfl⟩ : ∃ f, fuel = f + 1 := ⟨fuel - 1, by omega⟩
    obtain ⟨lits, hread, hmean⟩ := readMembers_render m ms hc.2 hreal.2 fuel (by omega) rest
    exact reads_obj hread hmean (of_decide_eq_true hc.1)

/-- The same of the items of an array, which are followed by a comma or by the bracket that closes
it. -/
theorem readItems_render : (v : Json) → (vs : List Json) → allItems isWellFormed (v :: vs) = true →
    allItems (fun w => !w.isReal) (v :: vs) = true →
    (fuel : Nat) → 2 * (renderItems (v :: vs)).length < fuel → (rest : List Char) →
    ∃ lits, items? fuel (renderItems (v :: vs) ++ ']' :: rest) = some (lits, rest)
      ∧ MeanItems lits (v :: vs)
  | v, [], hc, hreal, fuel, hfuel, rest => by
    simp only [allItems, Bool.and_true] at hc hreal
    obtain ⟨fuel, rfl⟩ : ∃ f, fuel = f + 1 := ⟨fuel - 1, by omega⟩
    simp only [renderItems] at hfuel ⊢
    obtain ⟨lit, hread, hmean⟩ :=
      reads_render v hc hreal fuel (by omega) (']' :: rest) (.cons (by simp) rest)
    refine ⟨[lit], ?_, .cons hmean fun d _ => rfl⟩
    rw [items?, hread]
    simp only [skipSpace_cons (c := ']') (by decide)]
  | v, w :: vs, hc, hreal, fuel, hfuel, rest => by
    rw [allItems, Bool.and_eq_true] at hc hreal
    obtain ⟨fuel, rfl⟩ : ∃ f, fuel = f + 1 := ⟨fuel - 1, by omega⟩
    simp only [renderItems, List.length_append, List.length_cons] at hfuel
    obtain ⟨lits, hreads, hmeans⟩ := readItems_render w vs hc.2 hreal.2 fuel (by omega) rest
    have hv : Reads v fuel (',' :: (renderItems (w :: vs) ++ ']' :: rest)) :=
      reads_render v hc.1 hreal.1 fuel (by omega) _ (.cons (by simp) _)
    simpa [renderItems] using items?_cons hv hreads hmeans

/-- The same of the members of an object, each behind its key. -/
theorem readMembers_render : (m : String × Json) → (ms : List (String × Json)) →
    allMembers isWellFormed (m :: ms) = true → allMembers (fun w => !w.isReal) (m :: ms) = true →
    (fuel : Nat) → 2 * (renderMembers (m :: ms)).length < fuel → (rest : List Char) →
    ∃ lits, members? fuel (renderMembers (m :: ms) ++ '\x7d' :: rest) = some (lits, rest)
      ∧ MeanMembers lits (m :: ms)
  | (k, v), [], hc, hreal, fuel, hfuel, rest => by
    simp only [allMembers, Bool.and_true] at hc hreal
    obtain ⟨fuel, rfl⟩ : ∃ f, fuel = f + 1 := ⟨fuel - 1, by omega⟩
    simp only [renderMembers, List.length_append, List.length_cons] at hfuel
    obtain ⟨lit, hread, hmean⟩ :=
      reads_render v hc hreal fuel (by omega) ('\x7d' :: rest) (.cons (by simp) rest)
    refine ⟨[(some k, lit)], ?_, .cons hmean fun d acc _ => rfl⟩
    rw [renderMembers, List.append_assoc, List.cons_append, members?_key, hread]
    simp only [skipSpace_cons (c := '\x7d') (by decide)]
  | (k, v), m :: ms, hc, hreal, fuel, hfuel, rest => by
    rw [allMembers, Bool.and_eq_true] at hc hreal
    obtain ⟨fuel, rfl⟩ : ∃ f, fuel = f + 1 := ⟨fuel - 1, by omega⟩
    simp only [renderMembers, List.length_append, List.length_cons] at hfuel
    obtain ⟨lits, hreads, hmeans⟩ := readMembers_render m ms hc.2 hreal.2 fuel (by omega) rest
    have hv : Reads v fuel (',' :: (renderMembers (m :: ms) ++ '\x7d' :: rest)) :=
      reads_render v hc.1 hreal.1 fuel (by omega) _ (.cons (by simp) _)
    simpa [renderMembers] using members?_cons (k := k) hv hreads hmeans

end

/-- **A text reads as the value that it was written for,** if the value is canonical, holds no
double and is not nested too deep. -/
theorem parse?_render {v : Json} (hc : v.isCanonical = true) (hreal : v.hasNoReal = true)
    (hdepth : v.depth ≤ maxDepth) : parse? v.render = some v := by
  obtain ⟨lit, hread, hmean⟩ :=
    reads_render v hc hreal (2 * v.render.length + 2) (by omega) [] .nil
  rw [List.append_nil] at hread
  rw [parse?, literal?, hread]
  exact hmean maxDepth hdepth

/-- So does the text as bytes. -/
theorem parseBytes?_renderBytes {v : Json} (hc : v.isCanonical = true)
    (hreal : v.hasNoReal = true) (hdepth : v.depth ≤ maxDepth) :
    parseBytes? v.renderBytes = some v := by
  rw [parseBytes?, renderBytes, Text.Utf8.decode?_encode, Option.bind_some,
    parse?_render hc hreal hdepth]

/-! ## What comes out of the reader -/

/-- A binding more brings in itself, and nothing else that was not there. -/
theorem mem_bind {key : String} {v : Json} {members : List (String × Json)} {m : String × Json}
    (h : m ∈ bind key v members) : m = (key, v) ∨ m ∈ members := by
  fun_induction bind key v members with
  | case1 => simpa using h
  | case2 k w rest hk =>
    rcases List.mem_cons.mp h with rfl | h
    · exact .inl rfl
    · exact .inr (List.mem_cons_of_mem _ h)
  | case3 k w rest hk hbefore => simpa using h
  | case4 k w rest hk hbefore ih =>
    rcases List.mem_cons.mp h with rfl | h
    · exact .inr List.mem_cons_self
    · exact (ih h).imp_right (List.mem_cons_of_mem _)

/-- A binding more leaves the keys in order. -/
theorem Ordered.bind {members : List (String × Json)} (h : Ordered members) (key : String)
    (v : Json) : Ordered (bind key v members) := by
  fun_induction Json.bind key v members with
  | case1 => exact List.pairwise_singleton _ _
  | case2 k w rest hk =>
    rw [← beq_iff_eq.mp hk]
    exact h
  | case3 k w rest hk hbefore =>
    refine List.Pairwise.cons ?_ h
    intro b hb
    rcases List.mem_cons.mp hb with rfl | hb
    · exact hbefore
    · exact Text.precedes_trans hbefore ((List.pairwise_cons.mp h).1 b hb)
  | case4 k w rest hk hbefore ih =>
    obtain ⟨hfirst, hrest⟩ := List.pairwise_cons.mp h
    refine List.Pairwise.cons ?_ (ih hrest)
    intro b hb
    obtain ⟨m, hm, rfl⟩ := List.mem_map.mp hb
    -- The key that is new comes after the first key, and all others did before.
    rcases mem_bind hm with rfl | hm
    · exact Text.precedes_of_not (fun heq => hk (beq_iff_eq.mpr heq.symm)) (by simpa using hbefore)
    · exact hfirst _ (List.mem_map_of_mem hm)

/-- What holds throughout the members holds throughout each. -/
theorem allMembers_iff {p : Json → Bool} {members : List (String × Json)} :
    allMembers p members = true ↔ ∀ m ∈ members, m.2.all p = true := by
  induction members with
  | nil => simp [allMembers]
  | cons m members ih => simp [allMembers, ih]

/-- A number that is read as an integer is within bounds, as it is read as a double otherwise. -/
theorem isWellFormed_numberOf? {n : Numeral} {x : Number} (h : numberOf? n = some x) :
    isWellFormed (.num x) = true := by
  have hreal : (realOf? n).map Number.real = some x → isWellFormed (.num x) = true := by
    intro h
    obtain ⟨y, -, rfl⟩ := Option.map_eq_some_iff.mp h
    rfl
  have hmin : minInt ≤ 0 := by decide
  have hmax : 0 ≤ maxInt := by decide
  simp only [numberOf?] at h
  split at h
  · split at h
    · case isTrue hrange =>
      cases h
      simp only [Bool.and_eq_true, decide_eq_true_eq] at hrange
      simp only [isWellFormed, Bool.and_eq_true, decide_eq_true_eq]
      omega
    split at h
    · case isTrue hrange =>
      cases h
      simp only [Bool.and_eq_true, decide_eq_true_eq] at hrange
      simp only [isWellFormed, Bool.and_eq_true, decide_eq_true_eq]
      omega
    · exact hreal h
  · exact hreal h

mutual

/-- **What a literal means is canonical,** at every depth. The induction is on the literal and goes
through its items and members. -/
theorem isCanonical_ofLiteral? : (lit : Literal) → (d : Nat) → (v : Json) →
    ofLiteral? d lit = some v → v.all isWellFormed = true
  | .null, d, v, h => by
    cases h
    rfl
  | .bool b, d, v, h => by
    cases h
    rfl
  | .num n, d, v, h => by
    obtain ⟨x, hx, rfl⟩ := Option.map_eq_some_iff.mp h
    rw [all]
    · exact isWellFormed_numberOf? hx
    · simp
    · simp
  | .str s, d, v, h => by
    obtain ⟨s, -, rfl⟩ := Option.map_eq_some_iff.mp h
    rfl
  | .arr items, 0, v, h => by cases h
  | .arr items, d + 1, v, h => by
    obtain ⟨vs, hvs, rfl⟩ := Option.map_eq_some_iff.mp h
    simp [all, isWellFormed, isCanonical_ofItems? items d vs hvs]
  | .obj members, 0, v, h => by cases h
  | .obj members, d + 1, v, h => by
    obtain ⟨ms, hms, rfl⟩ := Option.map_eq_some_iff.mp h
    obtain ⟨hordered, hall⟩ := isCanonical_ofMembers? members d [] ms hms .nil rfl
    simp [all, isWellFormed, hordered, hall]

/-- The same of the items of an array. -/
theorem isCanonical_ofItems? : (lits : List Literal) → (d : Nat) → (vs : List Json) →
    ofItems? d lits = some vs → allItems isWellFormed vs = true
  | [], d, vs, h => by
    cases h
    rfl
  | lit :: lits, d, vs, h => by
    simp only [ofItems?] at h
    split at h
    · case h_1 v vs hv hvs =>
      cases h
      simp [allItems, isCanonical_ofLiteral? lit d v hv, isCanonical_ofItems? lits d vs hvs]
    · cases h

/-- The same of the members of an object. They are bound one after the other, and every binding
leaves the keys in order. -/
theorem isCanonical_ofMembers? : (lits : List (Option String × Literal)) → (d : Nat) →
    (acc ms : List (String × Json)) → ofMembers? d lits acc = some ms → Ordered acc →
    allMembers isWellFormed acc = true → Ordered ms ∧ allMembers isWellFormed ms = true
  | [], d, acc, ms, h, hordered, hall => by
    cases h
    exact ⟨hordered, hall⟩
  | (key, lit) :: lits, d, acc, ms, h, hordered, hall => by
    simp only [ofMembers?] at h
    split at h
    · case h_1 k v hv =>
      refine isCanonical_ofMembers? lits d (bind k v acc) ms h (hordered.bind k v) ?_
      rw [allMembers_iff] at hall ⊢
      intro m hm
      rcases mem_bind hm with rfl | hm
      · exact isCanonical_ofLiteral? lit d v hv
      · exact hall m hm
    · cases h

end

/-- **The reader gives only canonical values.** -/
theorem isCanonical_parse? {cs : List Char} {v : Json} (h : parse? cs = some v) :
    v.isCanonical = true := by
  obtain ⟨lit, -, hlit⟩ := Option.bind_eq_some_iff.mp h
  exact isCanonical_ofLiteral? lit maxDepth v hlit

end Json

end FlagServer
