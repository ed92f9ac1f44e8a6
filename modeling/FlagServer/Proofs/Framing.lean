import FlagServer.Frame
import FlagServer.Proofs.Text

/-!
# Frames that are read as they were written

A frame says how long its body is before the body comes, and the body is never looked at. So
**whatever the bodies are,** frames that are written one after the other are read one after the
other, and the bytes after the last are left as they are: nothing of a body is ever taken for a
header, and nothing of what follows for a part of a body.

The law for one frame is `Frame.read_write`. It holds whether or not more bytes are to come, so the
same law serves a reader that waits.
-/

namespace FlagServer.Frame

open Text

/-! ## The header line -/

/-- The name in the header line. -/
def headerName : List Char :=
  ['C', 'o', 'n', 't', 'e', 'n', 't', '-', 'L', 'e', 'n', 'g', 't', 'h']

/-- The text of the header line, up to the line feed. -/
def headerText (n : Nat) : List Char :=
  headerName ++ ':' :: ' ' :: Decimal.digits n ++ ['\r']

/-- A header is a line and a blank line, each with a line feed at its end. -/
theorem header_eq (n : Nat) :
    header n = Utf8.encode (headerText n) ++ lineFeed :: (Utf8.encode ['\r'] ++ [lineFeed]) := by
  have hname : "Content-Length: ".toList = headerName ++ [':', ' '] := by decide +kernel
  have hsplit : headerName ++ [':', ' '] ++ Decimal.digits n ++ ['\r', '\n', '\r', '\n']
      = headerText n ++ (['\n'] ++ (['\r'] ++ ['\n'])) := by
    simp only [headerText, List.append_assoc, List.cons_append, List.nil_append]
  rw [header, hname, hsplit, Utf8.encode_append, Utf8.encode_append, Utf8.encode_append]
  rfl

/-- A text without a line feed has none among its bytes: no other character is encoded with that
byte. -/
theorem lineFeed_not_mem_encode {cs : List Char} (h : '\n' ∉ cs) :
    lineFeed ∉ Utf8.encode cs := by
  rw [Utf8.encode, List.mem_flatMap]
  rintro ⟨c, hc, hmem⟩
  rw [Utf8.mem_encodeChar_iff (by decide)] at hmem
  have heq : c = '\n' := by
    rw [← Char.ofNat_toNat c, hmem]
    rfl
  exact h (heq ▸ hc)

/-- A digit is neither white space nor a sign nor the end of anything. -/
theorem not_mem_digits {c : Char} (h : c.toNat < 0x30 ∨ 0x39 < c.toNat) (n : Nat) :
    c ∉ Decimal.digits n := by
  intro hmem
  have hdigit := Decimal.toNat_of_mem_digits hmem
  omega

/-- So no digit is lost with the white space around a numeral. -/
theorem isBlank_of_mem_digits {n : Nat} {c : Char} (h : c ∈ Decimal.digits n) :
    isBlank c = false := by
  have hdigit := Decimal.toNat_of_mem_digits h
  simp only [isBlank, Bool.or_eq_false_iff, Bool.and_eq_false_iff, decide_eq_false_iff_not,
    beq_eq_false_iff_ne]
  omega

theorem lineFeed_not_mem_headerText (n : Nat) : '\n' ∉ headerText n := by
  have hdigits : '\n' ∉ Decimal.digits n := not_mem_digits (by decide) n
  simp [headerText, headerName, hdigits]

/-- The length is read as it was written, as long as it has 64 bits. -/
theorem length?_digits {n : Nat} (h : n ≤ maxLength) : length? (Decimal.digits n) = some n := by
  have hplus : '+' ∉ Decimal.digits n := not_mem_digits (by decide) n
  unfold length?
  split
  · case h_1 ds heq => simp [heq] at hplus
  · simp only [Decimal.value?_digits, if_pos h]

/-- **The header line says the length.** -/
theorem line_headerText {n : Nat} (h : n ≤ maxLength) :
    line (headerText n ++ ['\n']) = .length n := by
  have htrim : trim (headerText n ++ ['\n']) = headerName ++ ':' :: ' ' :: Decimal.digits n := by
    have hback : ∀ c ∈ ['\r', '\n'], isBlank c = true := by simp [isBlank]
    have htext : headerText n ++ ['\n']
        = [] ++ (headerName ++ [':', ' '] ++ Decimal.digits n) ++ ['\r', '\n'] := by
      simp only [headerText, List.append_assoc, List.cons_append, List.nil_append]
    rw [htext, trim_append (by simp) hback]
    · simp only [List.append_assoc, List.cons_append, List.nil_append]
    · simp [headerName]
    · simp [headerName, isBlank]
    · -- The last character is a digit, because a numeral has one.
      intro c hc
      rw [List.getLast?_append, List.getLast?_eq_some_getLast (Decimal.digits_ne_nil n),
        Option.some_or, Option.mem_some_iff] at hc
      rw [← hc]
      exact isBlank_of_mem_digits (List.getLast_mem _)
  have hname : (trim headerName).map Char.toLower = lengthName := by decide +kernel
  have hvalue : trim (' ' :: Decimal.digits n) = Decimal.digits n := by
    have hspace : ∀ c ∈ [' '], isBlank c = true := by simp [isBlank]
    have hdigits : trim ([' '] ++ Decimal.digits n ++ []) = Decimal.digits n :=
      trim_append hspace (by simp) (Decimal.digits_ne_nil n)
        (fun _ hc => isBlank_of_mem_digits (List.mem_of_head? hc))
        (fun _ hc => isBlank_of_mem_digits (List.mem_of_getLast? hc))
    rwa [List.append_nil] at hdigits
  have hsplit : splitOnce? ':' (headerName ++ ':' :: ' ' :: Decimal.digits n)
      = some (headerName, ' ' :: Decimal.digits n) := splitOnce?_append (by decide) _
  simp only [line, htrim, hsplit, hname, hvalue, length?_digits h]
  simp [headerName]

/-! ## One frame -/

/-- A whole line is read, and the headers go on or end by what it says. -/
theorem readHeaders_line {s bytes rest : List UInt8} {cs : List Char}
    (hline : takeThrough? lineFeed s = some (bytes, rest)) (htext : Utf8.decode? bytes = some cs)
    (ended begun : Bool) (length : Option Nat) :
    readHeaders ended begun length s
      = match line cs with
        | .blank => readBody ended length rest
        | .length n => readHeaders ended true (some n) rest
        | .badLength value => .fault (.invalidLength (String.ofList value))
        | .other => readHeaders ended true length rest := by
  rw [readHeaders]
  split
  · case h_1 bytes' rest' heq =>
    rw [hline, Option.some.injEq, Prod.mk.injEq] at heq
    obtain ⟨rfl, rfl⟩ := heq
    cases hcs : line cs <;> simp only [htext, hcs]
  · case h_2 heq =>
    rw [hline] at heq
    cases heq

/-- **A frame that has been written is read,** whatever its body and whatever follows it, and
whether or not more is to come. -/
theorem read_write {body : List UInt8} (hbody : body.length ≤ maxBody) (ended : Bool)
    (rest : List UInt8) : read ended (write body ++ rest) = .frame body rest := by
  have hlength : body.length ≤ maxLength := Nat.le_trans hbody (by decide)
  -- The first line feed is that of the header line, whatever comes after it.
  have hfirst : takeThrough? lineFeed (write body ++ rest)
      = some (Utf8.encode (headerText body.length) ++ [lineFeed],
        Utf8.encode ['\r'] ++ lineFeed :: (body ++ rest)) := by
    rw [write, header_eq]
    simp only [List.append_assoc, List.cons_append, List.nil_append]
    exact takeThrough?_append (lineFeed_not_mem_encode (lineFeed_not_mem_headerText _)) _
  have hsecond : takeThrough? lineFeed (Utf8.encode ['\r'] ++ lineFeed :: (body ++ rest))
      = some (Utf8.encode ['\r'] ++ [lineFeed], body ++ rest) :=
    takeThrough?_append (lineFeed_not_mem_encode (by decide)) _
  -- Both lines are text with a line feed, as they were written.
  have htext : ∀ cs, Utf8.decode? (Utf8.encode cs ++ [lineFeed]) = some (cs ++ ['\n']) :=
    fun cs => Utf8.decode?_encode_append cs [lineFeed]
  have hblank : line (['\r'] ++ ['\n']) = .blank := by decide
  rw [read, readHeaders_line hfirst (htext _), line_headerText hlength]
  simp only
  rw [readHeaders_line hsecond (htext _), hblank]
  simp [readBody, Nat.not_lt.mpr hbody]

/-! ## A whole stream -/

/-- The next frames of a stream, as many as are asked for, and the bytes after them. -/
def readFrames? (ended : Bool) : Nat → List UInt8 → Option (List (List UInt8) × List UInt8)
  | 0, s => some ([], s)
  | count + 1, s =>
    match read ended s with
    | .frame body rest =>
      (readFrames? ended count rest).map fun (bodies, rest) => (body :: bodies, rest)
    | _ => none

/-- A body takes nothing but bytes that are there. -/
theorem length_of_readBody {ended : Bool} {length : Option Nat} {s body rest : List UInt8}
    (h : readBody ended length s = .frame body rest) : rest.length ≤ s.length := by
  unfold readBody at h
  split at h
  · cases h
  · split at h
    · cases h
    · split at h
      · cases h
        simp
      · split at h <;> cases h

/-- **A frame takes at least one byte.** -/
theorem length_of_read {ended begun : Bool} {length : Option Nat} {s body rest : List UInt8}
    (h : readHeaders ended begun length s = .frame body rest) : rest.length < s.length := by
  fun_induction readHeaders ended begun length s with
  | case2 begun length s bytes rest' hline cs htext hblank =>
    have hbody := length_of_readBody h
    have hshort := length_of_takeThrough? hline
    omega
  | case3 begun length s bytes rest' hline cs htext n hlength ih =>
    have hrest := ih h
    have hshort := length_of_takeThrough? hline
    omega
  | case5 begun length s bytes rest' hline cs htext hother ih =>
    have hrest := ih h
    have hshort := length_of_takeThrough? hline
    omega
  | case10 begun length s hline hended hsome cs htext hblank =>
    -- A last line without a line feed: the body is empty, and there was the line.
    have hbody := length_of_readBody h
    have hpos : 0 < s.length := List.length_pos_iff.mpr (by simpa using hsome)
    rw [List.length_nil] at hbody
    omega
  | case1 | case4 | case6 | case7 | case8 | case9 | case11 | case12 => cases h

/-- It does not matter how many frames may be read, if the bytes are fewer. -/
theorem readUpTo_congr {m n : Nat} {s : List UInt8} (hm : s.length < m) (hn : s.length < n) :
    readUpTo m s = readUpTo n s := by
  induction m generalizing n s with
  | zero => cases hm
  | succ m ih =>
    obtain ⟨n, rfl⟩ : ∃ k, n = k + 1 := ⟨n - 1, by omega⟩
    rw [readUpTo, readUpTo]
    cases hread : read true s with
    | frame body rest =>
      -- The rest is shorter, so it stays within both bounds.
      have hrest := length_of_read hread
      simp only
      rw [ih (by omega) (show rest.length < n by omega)]
    | _ => rfl

/-- A stream that begins with a frame is read as its body and then as the rest is. -/
theorem readAll_frame {s body rest : List UInt8} (h : read true s = .frame body rest) :
    readAll s = (body :: (readAll rest).1, (readAll rest).2) := by
  have hrest := length_of_read h
  rw [readAll, readUpTo]
  simp only [h]
  rw [readUpTo_congr hrest (Nat.lt_succ_self rest.length)]
  rfl

theorem readAll_nil : readAll [] = ([], none) := by
  decide +kernel

section Writes

variable {bodies : List (List UInt8)} (hbodies : ∀ body ∈ bodies, body.length ≤ maxBody)
include hbodies

/-- As many frames as were written are read, and the bytes after them are left. -/
theorem readFrames?_writes (ended : Bool) (rest : List UInt8) :
    readFrames? ended bodies.length (bodies.flatMap write ++ rest) = some (bodies, rest) := by
  induction bodies with
  | nil => rfl
  | cons body bodies ih =>
    have hbody := hbodies body List.mem_cons_self
    have hrest := ih fun b hb => hbodies b (List.mem_cons_of_mem _ hb)
    rw [List.flatMap_cons, List.append_assoc, List.length_cons, readFrames?,
      read_write hbody]
    simp only [hrest, Option.map_some]

/-- A stream of frames and a rest is read as the bodies, and then as the rest is by itself. -/
theorem readAll_writes (rest : List UInt8) :
    readAll (bodies.flatMap write ++ rest) = (bodies ++ (readAll rest).1, (readAll rest).2) := by
  induction bodies with
  | nil => rfl
  | cons body bodies ih =>
    have hbody := hbodies body List.mem_cons_self
    have hrest := ih fun b hb => hbodies b (List.mem_cons_of_mem _ hb)
    rw [List.flatMap_cons, List.append_assoc, readAll_frame (read_write hbody true _), hrest]
    rfl

/-- **Framing is a homomorphism.** Bodies of at most `maxBody` bytes, whatever the bytes are, that
are written one after the other in front of a rest are read one after the other, and what remains
is the rest, to be read as if nothing had been before it. So a whole stream reads as the bodies and
then as the rest does by itself, and without a rest it ends between frames. -/
theorem framing_homomorphism (rest : List UInt8) :
    (∀ ended, readFrames? ended bodies.length (bodies.flatMap write ++ rest)
      = some (bodies, rest))
    ∧ readAll (bodies.flatMap write ++ rest) = (bodies ++ (readAll rest).1, (readAll rest).2)
    ∧ read true [] = .finished
    ∧ readAll (bodies.flatMap write) = (bodies, none) := by
  refine ⟨fun ended => readFrames?_writes hbodies ended rest, readAll_writes hbodies rest,
    by decide +kernel, ?_⟩
  have hall := readAll_writes hbodies []
  rw [List.append_nil, readAll_nil, List.append_nil] at hall
  exact hall

end Writes

/-- Bodies that look like something else: nothing, line feeds, a header, and bytes that are no
text. -/
def oddBodies : List (List UInt8) :=
  [[], [0x0a, 0x0d, 0x0a], header 3, [0xff, 0xc0]]

/-- They are read as they were written, and the header that is cut off after them is found. -/
theorem framing_homomorphism_oddBodies :
    readAll (oddBodies.flatMap write ++ [0x41]) = (oddBodies, some .headerCut) := by
  have hbodies : ∀ body ∈ oddBodies, body.length ≤ maxBody := by decide +kernel
  have htail : readAll [0x41] = ([], some .headerCut) := by decide +kernel
  rw [(framing_homomorphism hbodies [0x41]).2.1, htail, List.append_nil]

end FlagServer.Frame
