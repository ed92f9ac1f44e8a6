import FlagServer.Proofs.Framing

/-!
# The grammar of frames

`Frame.read` goes through a stream line by line and stops at the first that decides something. This
file says **which streams** it reads in which way, and does so by the shape of the whole stream:
some header lines, then a line that is not one of them.

* A stream that begins with a frame is header lines, a blank line, and the body, as long as the last
  length among the header lines says (`IsFrame`).
* A stream with a fault is header lines without one and then the fault (`Faulty`). What comes after
  it does not matter, and so the first fault is the one that is reported.

That the reader follows the grammar is shown in one direction only, from the shape to the reading.
For the other it is enough that every stream has one of these shapes (`exists_shape`).
-/

namespace FlagServer.Frame

open Text

/-! ## Lines -/

/-- A numeral for a length: digits, perhaps after a plus sign, of a number within 64 bits. -/
def Numeral (value : List Char) (n : Nat) : Prop :=
  ∃ digits, (value = digits ∨ value = '+' :: digits) ∧ digits ≠ []
    ∧ (∀ c ∈ digits, '0' ≤ c ∧ c ≤ '9')
    ∧ n = Nat.ofDigits 10 (digits.reverse.map fun c => c.toNat - 0x30) ∧ n ≤ maxLength

/-- A line gives a length as `value`: what stands before its first colon is the name of that header,
and what stands after it is the value, both without the white space around them. -/
def Gives (l value : List Char) : Prop :=
  ∃ name rest, l = name ++ ':' :: rest ∧ ':' ∉ name
    ∧ (trim name).map Char.toLower = lengthName ∧ trim rest = value

/-- A header line without a fault, up to the line feed. -/
structure IsHeader (l : List Char) : Prop where
  single : '\n' ∉ l
  bare : ∃ c ∈ l, isBlank c = false
  numeral : ∀ value, Gives l value → ∃ n, Numeral value n

/-- The bytes of some lines. -/
def block (lines : List (List Char)) : List UInt8 :=
  lines.flatMap fun l => Utf8.encode (l ++ ['\n'])

/-- The last of the lengths that some lines give. -/
def LastLength (lines : List (List Char)) (n : Nat) : Prop :=
  ∃ before l after value, lines = before ++ l :: after ∧ Gives l value ∧ Numeral value n
    ∧ ∀ l' ∈ after, ∀ value, ¬ Gives l' value

/-- A stream begins with a blank line. The line may also end with the stream, if it is not empty. -/
def BeginsBlank (s rest : List UInt8) : Prop :=
  ∃ l, (∀ c ∈ l, isBlank c = true) ∧ '\n' ∉ l
    ∧ (s = Utf8.encode (l ++ ['\n']) ++ rest ∨ l ≠ [] ∧ s = Utf8.encode l ∧ rest = [])

/-- A stream begins with a line of these bytes. The line may also end with the stream, if it is not
empty. -/
def BeginsLine (s bytes : List UInt8) : Prop :=
  lineFeed ∉ bytes ∧ ((∃ rest, s = bytes ++ lineFeed :: rest) ∨ bytes ≠ [] ∧ s = bytes)

/-! ## Streams -/

/-- **A stream begins with a frame:** header lines without a fault, a blank line, and a body of the
length that the last of the lines gives. -/
def IsFrame (s body rest : List UInt8) : Prop :=
  ∃ lines t, (∀ l ∈ lines, IsHeader l) ∧ s = block lines ++ t ∧ BeginsBlank t (body ++ rest)
    ∧ LastLength lines body.length ∧ body.length ≤ maxBody

/-- **A stream begins with a fault,** after header lines that have none. -/
inductive Faulty (s : List UInt8) : FrameError → Prop where
  /-- The next line is no text. -/
  | invalidData {lines : List (List Char)} {t bytes : List UInt8}
    (hlines : ∀ l ∈ lines, IsHeader l) (hs : s = block lines ++ t) (hline : BeginsLine t bytes)
    (htext : ∀ cs, bytes ≠ Utf8.encode cs) : Faulty s .invalidData
  /-- The next line gives a length that is no numeral. -/
  | invalidLength {lines : List (List Char)} {t : List UInt8} {l value : List Char}
    (hlines : ∀ l ∈ lines, IsHeader l) (hs : s = block lines ++ t)
    (hline : BeginsLine t (Utf8.encode l)) (hgives : Gives l value)
    (hnumeral : ∀ n, ¬ Numeral value n) : Faulty s (.invalidLength (String.ofList value))
  /-- The stream ends after a header line. -/
  | cutAfter {lines : List (List Char)} (hlines : ∀ l ∈ lines, IsHeader l) (hne : lines ≠ [])
    (hs : s = block lines) : Faulty s .headerCut
  /-- The stream ends inside a header line. -/
  | cutInside {lines : List (List Char)} {l : List Char} (hlines : ∀ l ∈ lines, IsHeader l)
    (hl : IsHeader l) (hs : s = block lines ++ Utf8.encode l) : Faulty s .headerCut
  /-- The headers end, and none of them gives a length. -/
  | missingLength {lines : List (List Char)} {t rest : List UInt8}
    (hlines : ∀ l ∈ lines, IsHeader l) (hs : s = block lines ++ t) (hblank : BeginsBlank t rest)
    (hnone : ∀ l ∈ lines, ∀ value, ¬ Gives l value) : Faulty s .missingLength
  /-- The headers end, and their length is beyond the limit. -/
  | tooLarge {lines : List (List Char)} {t rest : List UInt8} {n : Nat}
    (hlines : ∀ l ∈ lines, IsHeader l) (hs : s = block lines ++ t) (hblank : BeginsBlank t rest)
    (hlength : LastLength lines n) (hn : maxBody < n) : Faulty s (.tooLarge n)
  /-- The headers end, and fewer bytes follow than they say. -/
  | bodyCut {lines : List (List Char)} {t rest : List UInt8} {n : Nat}
    (hlines : ∀ l ∈ lines, IsHeader l) (hs : s = block lines ++ t) (hblank : BeginsBlank t rest)
    (hlength : LastLength lines n) (hn : n ≤ maxBody) (hrest : rest.length < n) :
    Faulty s .bodyCut

/-- What a stream begins with. -/
inductive Shape (s : List UInt8) : Reading → Prop where
  /-- Nothing: the stream is empty. -/
  | finished (h : s = []) : Shape s .finished
  /-- A frame. -/
  | frame {body rest : List UInt8} (h : IsFrame s body rest) : Shape s (.frame body rest)
  /-- A fault. -/
  | fault {e : FrameError} (h : Faulty s e) : Shape s (.fault e)

/-! ## What a line says -/

/-- A plus sign before the digits is passed over. -/
theorem length?_plus {ds : List Char} {n : Nat} :
    length? ('+' :: ds) = some n ↔ Decimal.value? ds = some n ∧ n ≤ maxLength := by
  cases hvalue : Decimal.value? ds with
  | none => simp [length?, hvalue]
  | some m =>
    simp only [length?, hvalue, Option.ite_none_right_eq_some, Option.some.injEq]
    constructor
    · rintro ⟨hle, rfl⟩
      exact ⟨rfl, hle⟩
    · rintro ⟨rfl, hle⟩
      exact ⟨hle, rfl⟩

/-- Without one, the digits are the value. -/
theorem length?_bare {ds : List Char} {n : Nat} (hbare : ∀ rest, ds ≠ '+' :: rest) :
    length? ds = some n ↔ Decimal.value? ds = some n ∧ n ≤ maxLength := by
  rw [← length?_plus]
  unfold length?
  split
  · exact absurd rfl (hbare _)
  · rfl

/-- **A length is read exactly from its numerals.** -/
theorem length?_eq_some_iff {value : List Char} {n : Nat} :
    length? value = some n ↔ Numeral value n := by
  have hdigits : ∀ ds : List Char, Decimal.value? ds = some n ∧ n ≤ maxLength
      ↔ ds ≠ [] ∧ (∀ c ∈ ds, '0' ≤ c ∧ c ≤ '9')
        ∧ n = Nat.ofDigits 10 (ds.reverse.map fun c => c.toNat - 0x30) ∧ n ≤ maxLength := by
    intro ds
    rw [← and_assoc, ← and_assoc, and_assoc (a := ds ≠ []), ← Decimal.value?_eq_some_iff]
  have hplus : ¬ ('0' ≤ '+' ∧ '+' ≤ '9') := by decide
  constructor
  · intro h
    by_cases hsign : ∃ ds, value = '+' :: ds
    · obtain ⟨ds, rfl⟩ := hsign
      exact ⟨ds, .inr rfl, (hdigits ds).mp (length?_plus.mp h)⟩
    · have hvalue := (length?_bare (not_exists.mp hsign)).mp h
      exact ⟨value, .inl rfl, (hdigits value).mp hvalue⟩
  · rintro ⟨ds, rfl | rfl, h⟩
    · -- A plus sign is no digit.
      have hbare : ∀ rest, value ≠ '+' :: rest := by
        rintro rest rfl
        exact hplus (h.2.1 '+' List.mem_cons_self)
      exact (length?_bare hbare).mpr ((hdigits value).mpr h)
    · exact length?_plus.mpr ((hdigits ds).mpr h)

/-- A line is cut at its first colon, before or after it is trimmed. -/
theorem splitOnce?_trim {name rest : List Char} (hname : ':' ∉ name) :
    splitOnce? ':' (trim (name ++ ':' :: rest)) = some (trimStart name, trimEnd rest) := by
  rw [trim_append_cons name (by decide)]
  exact splitOnce?_append (fun h => hname ((List.dropWhile_sublist _).subset h)) _

/-- A line says nothing exactly if there is only white space on it. -/
theorem line_eq_blank_iff {l : List Char} : line l = .blank ↔ ∀ c ∈ l, isBlank c = true := by
  obtain hblank | ⟨xs, c, ys, rfl, hbare⟩ := blank_or_exists l
  · simp only [line, trim_eq_nil_of_blank hblank]
    simpa using hblank
  · simp only [line, trim_append_cons xs hbare]
    constructor
    · intro h
      repeat' split at h
      all_goals simp_all
    · intro h
      have hc := h c (by simp)
      rw [hbare] at hc
      cases hc

/-- A line that gives a length says it, or says that it is none. -/
theorem line_of_gives {l value : List Char} (h : Gives l value) :
    line l = match length? value with
      | some n => .length n
      | none => .badLength value := by
  obtain ⟨name, rest, rfl, hname, hlength, rfl⟩ := h
  have hne : (trim (name ++ ':' :: rest)).isEmpty = false := by
    simp [trim_append_cons name (c := ':') (by decide)]
  cases hvalue : length? (trim rest) <;>
    simp only [line, hne, Bool.false_eq_true, if_false, splitOnce?_trim hname, trim_trimStart,
      trim_trimEnd, hlength, beq_self_eq_true, if_true, hvalue]

/-- A line that gives none and is not blank says nothing that matters. -/
theorem line_eq_other {l : List Char} (hbare : ∃ c ∈ l, isBlank c = false)
    (hnone : ∀ value, ¬ Gives l value) : line l = .other := by
  have hne : (trim l).isEmpty = false := by
    obtain ⟨c, hc, hc'⟩ := hbare
    obtain ⟨xs, ys, rfl⟩ := List.append_of_mem hc
    simp [trim_append_cons xs hc']
  simp only [line, hne, Bool.false_eq_true, if_false]
  -- Without a colon there is no header to be named, and with one it has another name.
  by_cases hcolon : ':' ∈ l
  · obtain ⟨name, rest, rfl, hname⟩ := List.eq_append_cons_of_mem hcolon
    have hother : ((trim name).map Char.toLower == lengthName) = false := by
      rw [beq_eq_false_iff_ne]
      exact fun heq => hnone _ ⟨name, rest, rfl, hname, heq, rfl⟩
    simp only [splitOnce?_trim hname, trim_trimStart, hother, Bool.false_eq_true, if_false]
  · rw [splitOnce?_eq_none_iff.mpr fun h => hcolon (mem_of_mem_trim h)]

/-- A line is blank, gives a length, or says nothing that matters. -/
theorem line_cases (l : List Char) :
    (∀ c ∈ l, isBlank c = true) ∨ (∃ value, Gives l value)
      ∨ (∃ c ∈ l, isBlank c = false) ∧ ∀ value, ¬ Gives l value := by
  by_cases hgives : ∃ value, Gives l value
  · exact .inr (.inl hgives)
  · obtain hblank | ⟨xs, c, ys, rfl, hbare⟩ := blank_or_exists l
    · exact .inl hblank
    · exact .inr (.inr ⟨⟨c, by simp, hbare⟩, not_exists.mp hgives⟩)

/-- A header line gives a length or says nothing that matters. -/
theorem line_header {l : List Char} (h : IsHeader l) :
    (∃ value n, Gives l value ∧ Numeral value n ∧ line l = .length n)
      ∨ (∀ value, ¬ Gives l value) ∧ line l = .other := by
  by_cases hgives : ∃ value, Gives l value
  · obtain ⟨value, hvalue⟩ := hgives
    obtain ⟨n, hn⟩ := h.numeral value hvalue
    refine .inl ⟨value, n, hvalue, hn, ?_⟩
    rw [line_of_gives hvalue, length?_eq_some_iff.mpr hn]
  · have hnone := not_exists.mp hgives
    exact .inr ⟨hnone, line_eq_other h.bare hnone⟩

/-- What a line says does not depend on the line feed. -/
theorem line_append_feed (l : List Char) : line (l ++ ['\n']) = line l := by
  have hfeed : ∀ c ∈ ['\n'], isBlank c = true := by simp [isBlank]
  simp only [line, trim_append_blank hfeed]

/-! ## Reading a line -/

theorem encode_feed (l : List Char) :
    Utf8.encode (l ++ ['\n']) = Utf8.encode l ++ [lineFeed] := by
  rw [Utf8.encode_append]
  rfl

theorem lineFeed_mem_encode {l : List Char} (h : '\n' ∈ l) : lineFeed ∈ Utf8.encode l := by
  rw [Utf8.encode, List.mem_flatMap]
  exact ⟨'\n', h, by decide⟩

/-- A text that is not empty takes bytes. -/
theorem encode_ne_nil {l : List Char} (h : l ≠ []) : Utf8.encode l ≠ [] := by
  intro hnil
  have hdecode := Utf8.decode?_encode l
  rw [hnil] at hdecode
  exact h (Option.some.inj hdecode).symm

/-- A text that ends in a line feed is a text without it. -/
theorem encode_of_feed {bytes : List UInt8} {cs : List Char}
    (h : bytes ++ [lineFeed] = Utf8.encode cs) : ∃ l, bytes = Utf8.encode l := by
  obtain rfl | ⟨l, c, rfl⟩ := List.eq_nil_or_concat cs
  · simp [Utf8.encode] at h
  rw [List.concat_eq_append, Utf8.encode_append] at h
  -- The last byte belongs to the last character, and only the line feed has that byte.
  have hc : lineFeed ∈ Utf8.encodeChar c := by
    have hlast := congrArg List.getLast? h
    have hne : Utf8.encode [c] ≠ [] := encode_ne_nil (List.cons_ne_nil c [])
    rw [List.getLast?_append, List.getLast?_append, List.getLast?_singleton, Option.some_or,
      List.getLast?_eq_some_getLast hne, Option.some_or, Option.some.injEq] at hlast
    rw [hlast]
    simp [Utf8.encode]
  rw [Utf8.mem_encodeChar_iff (by decide)] at hc
  obtain rfl : c = '\n' := by
    rw [← Char.ofNat_toNat c, hc]
    rfl
  exact ⟨l, List.append_cancel_right h⟩

section Reading

variable {s t rest bytes : List UInt8} {l value : List Char} {n : Nat} {ended begun : Bool}
  {length : Option Nat}

/-- The last line of a stream, without a line feed. -/
theorem readHeaders_last (hfeed : lineFeed ∉ s) (hne : s ≠ []) :
    readHeaders true begun length s
      = match Utf8.decode? s with
        | none => .fault .invalidData
        | some cs =>
          match line cs with
          | .blank => readBody true length []
          | .badLength value => .fault (.invalidLength (String.ofList value))
          | _ => .fault .headerCut := by
  rw [readHeaders]
  split
  · case h_1 heq =>
    rw [takeThrough?_eq_none_iff.mpr hfeed] at heq
    cases heq
  · have hsome : s.isEmpty = false := by simpa using hne
    cases htext : Utf8.decode? s with
    | none => simp only [Bool.not_true, Bool.false_eq_true, if_false, hsome]
    | some cs =>
      cases hline : line cs <;>
        simp only [Bool.not_true, Bool.false_eq_true, if_false, hsome, hline]

/-- A line of text with a line feed. -/
theorem readHeaders_feed (hl : '\n' ∉ l) :
    readHeaders ended begun length (Utf8.encode (l ++ ['\n']) ++ t)
      = match line l with
        | .blank => readBody ended length t
        | .length n => readHeaders ended true (some n) t
        | .badLength value => .fault (.invalidLength (String.ofList value))
        | .other => readHeaders ended true length t := by
  have htake : takeThrough? lineFeed (Utf8.encode (l ++ ['\n']) ++ t)
      = some (Utf8.encode (l ++ ['\n']), t) := by
    rw [encode_feed, List.append_assoc, List.singleton_append]
    exact takeThrough?_append (lineFeed_not_mem_encode hl) t
  cases hline : line l <;>
    simp only [readHeaders_line htake (Utf8.decode?_encode _), line_append_feed, hline]

/-- A line that gives no number ends the reading, with or without a line feed. -/
theorem readHeaders_badLength (hline : BeginsLine t (Utf8.encode l)) (hgives : Gives l value)
    (hnumeral : ∀ n, ¬ Numeral value n) :
    readHeaders true begun length t = .fault (.invalidLength (String.ofList value)) := by
  have hbad : line l = .badLength value := by
    have hnone : length? value = none :=
      Option.eq_none_iff_forall_ne_some.mpr fun n hn => hnumeral n (length?_eq_some_iff.mp hn)
    rw [line_of_gives hgives, hnone]
  obtain ⟨hfeed, ⟨rest, rfl⟩ | ⟨hne, rfl⟩⟩ := hline
  · have hl : '\n' ∉ l := fun h => hfeed (lineFeed_mem_encode h)
    rw [List.append_cons, ← encode_feed, readHeaders_feed hl, hbad]
  · rw [readHeaders_last hfeed hne, Utf8.decode?_encode]
    simp only [hbad]

/-- A line with a line feed that is no text. -/
theorem readHeaders_noText (hline : takeThrough? lineFeed s = some (bytes, rest))
    (htext : Utf8.decode? bytes = none) :
    readHeaders ended begun length s = .fault .invalidData := by
  rw [readHeaders]
  split
  · case h_1 heq =>
    rw [hline, Option.some.injEq, Prod.mk.injEq] at heq
    obtain ⟨rfl, rfl⟩ := heq
    simp only [htext]
  · case h_2 heq =>
    rw [hline] at heq
    cases heq

/-- A line that is no text ends the reading, with or without a line feed. -/
theorem readHeaders_invalidData (hline : BeginsLine t bytes)
    (htext : ∀ cs, bytes ≠ Utf8.encode cs) :
    readHeaders true begun length t = .fault .invalidData := by
  obtain ⟨hfeed, ⟨rest, rfl⟩ | ⟨hne, rfl⟩⟩ := hline
  · have hdecode : Utf8.decode? (bytes ++ [lineFeed]) = none := by
      refine Utf8.decode?_eq_none_iff.mpr fun cs heq => ?_
      obtain ⟨l, hl⟩ := encode_of_feed heq
      exact htext l hl
    exact readHeaders_noText (takeThrough?_append hfeed rest) hdecode
  · rw [readHeaders_last hfeed hne, Utf8.decode?_eq_none_iff.mpr htext]

/-- A blank line ends the headers. -/
theorem readHeaders_blank (h : BeginsBlank t rest) :
    readHeaders true begun length t = readBody true length rest := by
  obtain ⟨l, hblank, hl, rfl | ⟨hne, rfl, rfl⟩⟩ := h
  · rw [readHeaders_feed hl, line_eq_blank_iff.mpr hblank]
  · rw [readHeaders_last (lineFeed_not_mem_encode hl) (encode_ne_nil hne), Utf8.decode?_encode]
    simp only [line_eq_blank_iff.mpr hblank]

/-- A header line without a line feed is cut off. -/
theorem readHeaders_cutInside (h : IsHeader l) :
    readHeaders true begun length (Utf8.encode l) = .fault .headerCut := by
  obtain ⟨c, hc, -⟩ := h.bare
  rw [readHeaders_last (lineFeed_not_mem_encode h.single) (encode_ne_nil (List.ne_nil_of_mem hc)),
    Utf8.decode?_encode]
  obtain ⟨value, n, -, -, hline⟩ | ⟨-, hline⟩ := line_header h <;> simp only [hline]

end Reading

/-! ## Reading header lines -/

/-- The length that is known after some lines, if `length` was before them. -/
def lengthAfter (length : Option Nat) (lines : List (List Char)) : Option Nat :=
  lines.foldl (fun length l =>
    match line l with
    | .length n => some n
    | _ => length) length

/-- **Header lines are read one after the other,** whatever follows them. -/
theorem readHeaders_block {lines : List (List Char)} (h : ∀ l ∈ lines, IsHeader l)
    (ended begun : Bool) (length : Option Nat) (t : List UInt8) :
    readHeaders ended begun length (block lines ++ t)
      = readHeaders ended (begun || !lines.isEmpty) (lengthAfter length lines) t := by
  induction lines generalizing begun length with
  | nil => simp [block, lengthAfter]
  | cons l lines ih =>
    rw [List.forall_mem_cons] at h
    have hblock : block (l :: lines) ++ t = Utf8.encode (l ++ ['\n']) ++ (block lines ++ t) := by
      rw [block, List.flatMap_cons, List.append_assoc, ← block]
    rw [hblock, readHeaders_feed h.1.single]
    obtain ⟨value, n, -, -, hline⟩ | ⟨-, hline⟩ := line_header h.1 <;>
      simp [hline, ih h.2, lengthAfter]

section Lengths

variable {lines : List (List Char)} {n : Nat}

/-- Lines that give no length leave what is known of it. -/
theorem lengthAfter_of_none (h : ∀ l ∈ lines, ∀ value, ¬ Gives l value) (length : Option Nat) :
    lengthAfter length lines = length := by
  induction lines with
  | nil => rfl
  | cons l lines ih =>
    rw [List.forall_mem_cons] at h
    have hline : ∀ n, line l ≠ .length n := by
      obtain hblank | ⟨value, hvalue⟩ | ⟨hbare, hnone⟩ := line_cases l
      · simp [line_eq_blank_iff.mpr hblank]
      · exact absurd hvalue (h.1 value)
      · simp [line_eq_other hbare hnone]
    have hrest := ih h.2
    rw [lengthAfter, List.foldl_cons]
    cases hl : line l with
    | length n => exact absurd hl (hline n)
    | blank | badLength | other => exact hrest

/-- The last line that gives a length decides, whatever was known before. -/
theorem lengthAfter_of_last (h : LastLength lines n) (length : Option Nat) :
    lengthAfter length lines = some n := by
  obtain ⟨before, l, after, value, rfl, hgives, hn, hafter⟩ := h
  have hline : line l = .length n := by
    rw [line_of_gives hgives, length?_eq_some_iff.mpr hn]
  have hlast := lengthAfter_of_none hafter (some n)
  rw [lengthAfter, List.foldl_append, List.foldl_cons]
  simp only [hline]
  exact hlast

/-- Header lines give a last length, or none. -/
theorem exists_lastLength (h : ∀ l ∈ lines, IsHeader l) :
    (∃ n, LastLength lines n) ∨ ∀ l ∈ lines, ∀ value, ¬ Gives l value := by
  induction lines with
  | nil => exact .inr (by simp)
  | cons l lines ih =>
    rw [List.forall_mem_cons] at h
    obtain ⟨n, before, l', after, value, rfl, hlast⟩ | hnone := ih h.2
    · exact .inl ⟨n, l :: before, l', after, value, rfl, hlast⟩
    · obtain ⟨value, n, hvalue, hn, -⟩ | ⟨hno, -⟩ := line_header h.1
      · exact .inl ⟨n, [], l, lines, value, rfl, hvalue, hn, hnone⟩
      · exact .inr (List.forall_mem_cons.mpr ⟨hno, hnone⟩)

end Lengths

/-! ## From the shape to the reading -/

section Shapes

variable {s body rest : List UInt8}

/-- A whole stream is read past its header lines, with what they say of the length. -/
theorem read_block {lines : List (List Char)} (h : ∀ l ∈ lines, IsHeader l) (t : List UInt8) :
    read true (block lines ++ t)
      = readHeaders true (!lines.isEmpty) (lengthAfter none lines) t := by
  rw [read, readHeaders_block h, Bool.false_or]

/-- **A frame is read.** -/
theorem read_of_isFrame (h : IsFrame s body rest) : read true s = .frame body rest := by
  obtain ⟨lines, t, hlines, rfl, hblank, hlength, hmax⟩ := h
  rw [read_block hlines, readHeaders_blank hblank, lengthAfter_of_last hlength, readBody]
  simp [Nat.not_lt.mpr hmax]

/-- **A fault is found.** -/
theorem read_of_faulty {e : FrameError} (h : Faulty s e) : read true s = .fault e := by
  cases h with
  | invalidData hlines hs hline htext =>
    rw [hs, read_block hlines, readHeaders_invalidData hline htext]
  | invalidLength hlines hs hline hgives hnumeral =>
    rw [hs, read_block hlines, readHeaders_badLength hline hgives hnumeral]
  | cutAfter hlines hne hs =>
    have hread := read_block hlines []
    rw [List.append_nil, ← hs] at hread
    rw [hread, readHeaders]
    simp [takeThrough?, List.isEmpty_eq_false_iff.mpr hne]
  | cutInside hlines hl hs => rw [hs, read_block hlines, readHeaders_cutInside hl]
  | missingLength hlines hs hblank hnone =>
    rw [hs, read_block hlines, readHeaders_blank hblank, lengthAfter_of_none hnone, readBody]
  | tooLarge hlines hs hblank hlength hn =>
    rw [hs, read_block hlines, readHeaders_blank hblank, lengthAfter_of_last hlength, readBody]
    simp [hn]
  | bodyCut hlines hs hblank hlength hn hrest =>
    rw [hs, read_block hlines, readHeaders_blank hblank, lengthAfter_of_last hlength, readBody]
    simp [Nat.not_lt.mpr hn, Nat.not_le.mpr hrest]

/-- **A stream is read by its shape.** -/
theorem read_of_shape {r : Reading} (h : Shape s r) : read true s = r := by
  cases h with
  | finished h =>
    subst h
    decide +kernel
  | frame h => exact read_of_isFrame h
  | fault h => exact read_of_faulty h

/-! ## Every stream has a shape -/

/-- Headers that end, by what they say of the length and what follows. -/
theorem exists_shape_of_blank {lines : List (List Char)} {t : List UInt8}
    (hlines : ∀ l ∈ lines, IsHeader l) (hblank : BeginsBlank t rest) :
    ∃ r, Shape (block lines ++ t) r := by
  obtain ⟨n, hlength⟩ | hnone := exists_lastLength hlines
  · by_cases hn : maxBody < n
    · exact ⟨_, .fault (.tooLarge hlines rfl hblank hlength hn)⟩
    -- If enough bytes follow, those that the length asks for are the body.
    by_cases hrest : rest.length < n
    · exact ⟨_, .fault (.bodyCut hlines rfl hblank hlength (Nat.not_lt.mp hn) hrest)⟩
    · have htake : (rest.take n).length = n := List.length_take_of_le (Nat.not_lt.mp hrest)
      refine ⟨.frame (rest.take n) (rest.drop n), .frame ⟨lines, t, hlines, rfl, ?_, ?_, ?_⟩⟩
      · rwa [List.take_append_drop]
      · rwa [htake]
      · rw [htake]
        exact Nat.not_lt.mp hn
  · exact ⟨_, .fault (.missingLength hlines rfl hblank hnone)⟩

/-- **Every stream has a shape,** after any header lines that have been read already. The induction
is on what is left of the stream, one line at a time. -/
theorem exists_shape {lines : List (List Char)} (hlines : ∀ l ∈ lines, IsHeader l)
    (t : List UInt8) : ∃ r, Shape (block lines ++ t) r := by
  induction hlength : t.length using Nat.strongRecOn generalizing t lines with
  | ind n ih =>
    subst hlength
    by_cases hend : t = []
    · subst hend
      cases lines with
      | nil => exact ⟨_, .finished rfl⟩
      | cons l lines =>
        exact ⟨_, .fault (.cutAfter hlines (List.cons_ne_nil _ _) (List.append_nil _))⟩
    -- The next line, and whether the stream goes on after it.
    obtain ⟨bytes, hline⟩ : ∃ bytes, BeginsLine t bytes := by
      by_cases hfeed : lineFeed ∈ t
      · obtain ⟨bytes, rest, rfl, hbytes⟩ := List.eq_append_cons_of_mem hfeed
        exact ⟨bytes, hbytes, .inl ⟨rest, rfl⟩⟩
      · exact ⟨t, hfeed, .inr ⟨hend, rfl⟩⟩
    by_cases htext : ∀ cs, bytes ≠ Utf8.encode cs
    · exact ⟨_, .fault (.invalidData hlines rfl hline htext)⟩
    simp only [not_forall, ne_eq, not_not] at htext
    obtain ⟨l, rfl⟩ := htext
    have hl : '\n' ∉ l := fun h => hline.1 (lineFeed_mem_encode h)
    by_cases hbad : ∃ value, Gives l value ∧ ∀ n, ¬ Numeral value n
    · obtain ⟨value, hgives, hnumeral⟩ := hbad
      exact ⟨_, .fault (.invalidLength hlines rfl hline hgives hnumeral)⟩
    -- A line without a fault is blank, so that the headers end, or it is one header line more.
    obtain hblank | ⟨xs, c, ys, heq, hbare⟩ := blank_or_exists l
    · obtain ⟨-, ⟨rest, rfl⟩ | ⟨hne, rfl⟩⟩ := hline
      · have hbegins : BeginsBlank (Utf8.encode l ++ lineFeed :: rest) rest := by
          refine ⟨l, hblank, hl, .inl ?_⟩
          rw [encode_feed, List.append_assoc, List.singleton_append]
        exact exists_shape_of_blank hlines hbegins
      · have hbegins : BeginsBlank (Utf8.encode l) [] := by
          refine ⟨l, hblank, hl, .inr ⟨?_, rfl, rfl⟩⟩
          rintro rfl
          exact hne rfl
        exact exists_shape_of_blank hlines hbegins
    · have hheader : IsHeader l := by
        refine ⟨hl, ⟨c, by simp [heq], hbare⟩, fun value hgives => ?_⟩
        by_contra hnumeral
        exact hbad ⟨value, hgives, not_exists.mp hnumeral⟩
      obtain ⟨-, ⟨rest, rfl⟩ | ⟨-, rfl⟩⟩ := hline
      · have hblock : block lines ++ (Utf8.encode l ++ lineFeed :: rest)
            = block (lines ++ [l]) ++ rest := by
          simp [block, encode_feed]
        -- The line joins those before it, and less of the stream is left.
        rw [hblock]
        refine ih rest.length (by simp; omega) ?_ rest rfl
        exact List.forall_mem_append.mpr ⟨hlines, by simpa using hheader⟩
      · exact ⟨_, .fault (.cutInside hlines hheader rfl)⟩

/-- **A whole stream is read by its shape.** -/
theorem read_eq_iff (s : List UInt8) (r : Reading) : read true s = r ↔ Shape s r := by
  refine ⟨?_, read_of_shape⟩
  rintro rfl
  have hnone : ∀ l ∈ ([] : List (List Char)), IsHeader l := by simp
  -- The stream has some shape, and it is read by that one.
  obtain ⟨r, hr⟩ : ∃ r, Shape s r := exists_shape hnone s
  rw [read_of_shape hr]
  exact hr

end Shapes

/-- **The reader follows the grammar.** It finds a frame, leaving the rest, exactly where the stream
begins with one; it finds the end exactly where there is nothing; and it finds a fault exactly where
the stream begins with that fault, after header lines that have none. There is nothing else that it
can find in a whole stream. -/
theorem read_grammar (s : List UInt8) :
    (∀ body rest, read true s = .frame body rest ↔ IsFrame s body rest)
    ∧ (read true s = .finished ↔ s = [])
    ∧ (∀ e, read true s = .fault e ↔ Faulty s e)
    ∧ ∀ missing, read true s ≠ .more missing := by
  simp only [ne_eq, read_eq_iff]
  refine ⟨fun body rest => ⟨fun h => ?_, .frame⟩, ⟨fun h => ?_, .finished⟩,
    fun e => ⟨fun h => ?_, .fault⟩, nofun⟩
  · cases h with
    | frame h => exact h
  · cases h with
    | finished h => exact h
  · cases h with
    | fault h => exact h

end FlagServer.Frame
