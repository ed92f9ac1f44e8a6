import FlagServer.Proofs.FrameGrammar

/-!
# Streams that are cut off

A stream of frames may end anywhere: inside the name of a header, between two digits of a length so
that a smaller number remains, inside a line end, or inside a body. This file shows that **no cut
passes for anything else.** The bodies whose frames are whole are read, and what remains of the
frame that is cut is a fault, neither a shorter frame nor an end between frames.

Bodies must not be empty for this. The frame of an empty body is whole even without the last line
feed, because a blank line may end with the stream.

* `read_cut` is the law for one frame.
* `exists_remains` is the law for a stream: which bodies are whole, and what remains.

A reader that waits for bytes has a stream that is cut off too, only that more will come. For it the
law is `readHeaders_append`: what it reads without asking for more, it would have read from any
longer stream. And it asks for no more than it needs: the first frames of a stream are read from
their own bytes, whatever follows them (`exists_front`).
-/

namespace FlagServer.Frame

open Text

/-! ## One frame -/

/-- The length is known, and the stream ends before the body does. -/
theorem readBody_short {n : Nat} {s : List UInt8} (hn : n ≤ maxBody) (hs : s.length < n) :
    readBody true (some n) s = .fault .bodyCut := by
  simp [readBody, Nat.not_lt.mpr hn, Nat.not_le.mpr hs]

/-- The header line begins with the first letter of its name. -/
theorem encode_headerText (n : Nat) :
    ∃ rest, Utf8.encode (headerText n) = 0x43 :: rest :=
  ⟨_, rfl⟩

/-- A text with the first letter of the header's name is not blank. -/
theorem line_ne_blank {cs : List Char} (h : 0x43 ∈ Utf8.encode cs) : line cs ≠ .blank := by
  rw [Utf8.encode, List.mem_flatMap] at h
  obtain ⟨c, hc, hbyte⟩ := h
  rw [Utf8.mem_encodeChar_iff (by decide)] at hbyte
  intro hblank
  have hc := line_eq_blank_iff.mp hblank c hc
  simp [isBlank, hbyte] at hc

/-- The stream ends inside the header line. Whatever the bytes up to there say, it is not that the
headers end. -/
theorem read_cut_line {n k : Nat} (hpos : 0 < k) :
    ∃ e, read true ((Utf8.encode (headerText n)).take k) = .fault e := by
  obtain ⟨rest, hrest⟩ := encode_headerText n
  obtain ⟨k, rfl⟩ : ∃ j, k = j + 1 := ⟨k - 1, by omega⟩
  have hletter : 0x43 ∈ (Utf8.encode (headerText n)).take (k + 1) := by simp [hrest]
  have hfeed : lineFeed ∉ (Utf8.encode (headerText n)).take (k + 1) := fun h =>
    lineFeed_not_mem_encode (lineFeed_not_mem_headerText n) (List.mem_of_mem_take h)
  rw [read, readHeaders_last hfeed (List.ne_nil_of_mem hletter)]
  -- What is there of the line is no text, or it is text that is not blank.
  cases hdecode : Utf8.decode? ((Utf8.encode (headerText n)).take (k + 1)) with
  | none => exact ⟨_, rfl⟩
  | some cs =>
    rw [Utf8.decode?_eq_some_iff.mp hdecode] at hletter
    have hne := line_ne_blank hletter
    cases hline : line cs with
    | blank => exact absurd hline hne
    | badLength | length | other => simp [hline]

/-- The stream ends after the header line: before the blank line, inside it, or inside the body. -/
theorem readHeaders_cut_rest {body : List UInt8} {j : Nat} (hbody : body.length ≤ maxBody)
    (hne : body ≠ []) (hj : j < body.length + 2) :
    ∃ e, readHeaders true true (some body.length)
      ((Utf8.encode ['\r', '\n'] ++ body).take j) = .fault e := by
  have hpos : 0 < body.length := List.length_pos_iff.mpr hne
  match j with
  | 0 => exact ⟨.headerCut, by simp [readHeaders, takeThrough?]⟩
  | 1 =>
    have hblank : BeginsBlank ((Utf8.encode ['\r', '\n'] ++ body).take 1) [] :=
      ⟨['\r'], by simp [isBlank], by decide, .inr ⟨by decide, rfl, rfl⟩⟩
    rw [readHeaders_blank hblank, readBody_short hbody (by simpa using hpos)]
    exact ⟨_, rfl⟩
  | j + 2 =>
    have hblank : BeginsBlank ((Utf8.encode ['\r', '\n'] ++ body).take (j + 2)) (body.take j) :=
      ⟨['\r'], by simp [isBlank], by decide, .inl rfl⟩
    have hshort : (body.take j).length < body.length := by
      rw [List.length_take]
      omega
    rw [readHeaders_blank hblank, readBody_short hbody hshort]
    exact ⟨_, rfl⟩

/-- **A frame that is cut off is a fault,** wherever it is cut. -/
theorem read_cut {body : List UInt8} {k : Nat} (hbody : body.length ≤ maxBody) (hne : body ≠ [])
    (hpos : 0 < k) (hk : k < (write body).length) :
    ∃ e, read true ((write body).take k) = .fault e := by
  have hwrite : write body = Utf8.encode (headerText body.length ++ ['\n'])
      ++ (Utf8.encode ['\r', '\n'] ++ body) := by
    rw [write, header_eq, encode_feed]
    simp only [List.append_assoc, List.cons_append, List.nil_append]
    rfl
  rw [hwrite, List.length_append, List.length_append] at hk
  have hend : (Utf8.encode ['\r', '\n']).length = 2 := rfl
  by_cases hline : k < (Utf8.encode (headerText body.length ++ ['\n'])).length
  · -- The cut is before the line feed.
    have htake : (write body).take k = (Utf8.encode (headerText body.length)).take k := by
      rw [encode_feed, List.length_append, List.length_singleton] at hline
      rw [hwrite, encode_feed, List.append_assoc, List.take_append_of_le_length (by omega)]
    rw [htake]
    exact read_cut_line hpos
  · have htake : (write body).take k = Utf8.encode (headerText body.length ++ ['\n'])
        ++ (Utf8.encode ['\r', '\n'] ++ body).take
          (k - (Utf8.encode (headerText body.length ++ ['\n'])).length) := by
      rw [hwrite, List.take_append, List.take_of_length_le (by omega)]
    have hlength : line (headerText body.length) = .length body.length := by
      rw [← line_append_feed]
      exact line_headerText (Nat.le_trans hbody (by decide))
    rw [htake, read, readHeaders_feed (lineFeed_not_mem_headerText _), hlength]
    exact readHeaders_cut_rest hbody hne (by omega)

/-! ## A whole stream -/

/-- The bodies whose frames are whole among the first `k` bytes. -/
def whole : Nat → List (List UInt8) → List (List UInt8)
  | _, [] => []
  | k, body :: bodies =>
    if (write body).length ≤ k then body :: whole (k - (write body).length) bodies else []

/-- The first `k` bytes end where a frame does, or before the first. -/
def OnBoundary (k : Nat) (bodies : List (List UInt8)) : Prop :=
  ∃ before, before <+: bodies ∧ (before.flatMap write).length = k

/-- The whole bodies are the first ones. -/
theorem isPrefix_whole (k : Nat) (bodies : List (List UInt8)) : whole k bodies <+: bodies := by
  fun_induction whole k bodies with
  | case1 => exact List.prefix_rfl
  | case2 k body bodies hfits ih => exact List.cons_prefix_cons.mpr ⟨rfl, ih⟩
  | case3 => exact List.nil_prefix

/-- **The whole bodies are all those whose frames end within the first `k` bytes.** -/
theorem prefix_whole_iff {k : Nat} {bodies before : List (List UInt8)}
    (hbefore : before <+: bodies) :
    before <+: whole k bodies ↔ (before.flatMap write).length ≤ k := by
  fun_induction whole k bodies generalizing before with
  | case1 => simp [List.prefix_nil.mp hbefore]
  | case2 k body bodies hfits ih =>
    cases before with
    | nil => simp
    | cons first before =>
      obtain ⟨rfl, hrest⟩ := List.cons_prefix_cons.mp hbefore
      rw [List.cons_prefix_cons, List.flatMap_cons, List.length_append]
      simp only [true_and, ih hrest]
      omega
  | case3 k body bodies hfits =>
    cases before with
    | nil => simp
    | cons first before =>
      obtain ⟨rfl, -⟩ := List.cons_prefix_cons.mp hbefore
      simp only [List.prefix_nil, List.flatMap_cons, List.length_append, reduceCtorEq, false_iff]
      omega

/-- The boundaries after the first frame are those of the rest. -/
theorem onBoundary_cons {k : Nat} {body : List UInt8} {bodies : List (List UInt8)}
    (hpos : 0 < k) :
    OnBoundary k (body :: bodies)
      ↔ (write body).length ≤ k ∧ OnBoundary (k - (write body).length) bodies := by
  constructor
  · rintro ⟨before, hbefore, hk⟩
    cases before with
    | nil => simp at hk; omega
    | cons first before =>
      obtain ⟨rfl, hrest⟩ := List.cons_prefix_cons.mp hbefore
      rw [List.flatMap_cons, List.length_append] at hk
      exact ⟨by omega, before, hrest, by omega⟩
  · rintro ⟨hfits, before, hbefore, hk⟩
    refine ⟨body :: before, List.cons_prefix_cons.mpr ⟨rfl, hbefore⟩, ?_⟩
    rw [List.flatMap_cons, List.length_append]
    omega

/-- **What remains of a stream that is cut:** the whole frames, and then nothing if the cut is on a
boundary, and something faulty if it is not. -/
theorem exists_remains {bodies : List (List UInt8)} {k : Nat}
    (hbodies : ∀ body ∈ bodies, body ≠ [] ∧ body.length ≤ maxBody)
    (hk : k ≤ (bodies.flatMap write).length) :
    ∃ tail, (bodies.flatMap write).take k = (whole k bodies).flatMap write ++ tail
      ∧ (OnBoundary k bodies ∧ tail = []
        ∨ ¬ OnBoundary k bodies ∧ ∃ e, read true tail = .fault e) := by
  fun_induction whole k bodies with
  | case1 k =>
    obtain rfl : k = 0 := by simpa using hk
    exact ⟨[], rfl, .inl ⟨⟨[], List.prefix_rfl, rfl⟩, rfl⟩⟩
  | case2 k body bodies hfits ih =>
    rw [List.flatMap_cons, List.length_append] at hk
    obtain ⟨tail, htake, htail⟩ :=
      ih (fun b hb => hbodies b (List.mem_cons_of_mem _ hb)) (by omega)
    refine ⟨tail, ?_, ?_⟩
    · rw [List.flatMap_cons, List.flatMap_cons, List.take_append, List.take_of_length_le hfits,
        htake, List.append_assoc]
    · have hpos : 0 < (write body).length := by
        obtain ⟨rest, hrest⟩ := encode_headerText body.length
        simp [write, header_eq, hrest]
      rw [onBoundary_cons (by omega)]
      simpa [hfits] using htail
  | case3 k body bodies hfits =>
    obtain ⟨hne, hbody⟩ := hbodies body List.mem_cons_self
    refine ⟨(write body).take k, ?_, ?_⟩
    · rw [List.flatMap_cons, List.take_append_of_le_length (by omega)]
      rfl
    · rcases Nat.eq_zero_or_pos k with rfl | hpos
      · exact .inl ⟨⟨[], List.nil_prefix, rfl⟩, rfl⟩
      · rw [onBoundary_cons hpos]
        exact .inr ⟨fun h => hfits h.1, read_cut hbody hne hpos (by omega)⟩

/-! ## Bytes that are still to come -/

namespace Reading

/-- What a reading amounts to if it leaves some bytes more. -/
def before (t : List UInt8) : Reading → Reading
  | frame body rest => .frame body (rest ++ t)
  | r => r

/-- The reading at the end of a stream: a fault, or none. -/
def atEnd : Option FrameError → Reading
  | none => .finished
  | some e => .fault e

@[simp] theorem before_fault (t : List UInt8) (e : FrameError) :
    (Reading.fault e).before t = .fault e := rfl

@[simp] theorem before_atEnd (t : List UInt8) (fault : Option FrameError) :
    (atEnd fault).before t = atEnd fault := by
  cases fault <;> rfl

@[simp] theorem before_nil (r : Reading) : r.before [] = r := by
  cases r <;> simp [before]

@[simp] theorem before_frame (t body rest : List UInt8) :
    (Reading.frame body rest).before t = .frame body (rest ++ t) := rfl

end Reading

/-- What has been read of a body stays read, and what comes after it is left. -/
theorem readBody_append {length : Option Nat} {s : List UInt8}
    (hread : ∀ n, readBody false length s ≠ .more n) (ended : Bool) (t : List UInt8) :
    readBody ended length (s ++ t) = (readBody false length s).before t := by
  cases length with
  | none => rfl
  | some n =>
    simp only [readBody] at hread ⊢
    by_cases hlarge : maxBody < n
    · simp only [if_pos hlarge, Reading.before_fault]
    · by_cases hthere : n ≤ s.length
      · have hall : n ≤ (s ++ t).length := by
          rw [List.length_append]
          omega
        rw [if_neg hlarge, if_neg hlarge, if_pos hthere, if_pos hall, Reading.before_frame,
          List.take_append_of_le_length hthere, List.drop_append_of_le_length hthere]
      · -- Fewer bytes are there than the body takes, and the reader asks for more.
        simp [hlarge, hthere] at hread

/-- **What has been read stays read,** whatever comes after it: a reader that does not ask for more
reads the same from a longer stream. -/
theorem readHeaders_append {begun : Bool} {length : Option Nat} {s : List UInt8}
    (hread : ∀ n, readHeaders false begun length s ≠ .more n) (ended : Bool) (t : List UInt8) :
    readHeaders ended begun length (s ++ t) = (readHeaders false begun length s).before t := by
  fun_induction readHeaders false begun length s with
  | case1 begun length s bytes rest hline htext =>
    exact readHeaders_noText (takeThrough?_append_right hline t) htext
  | case2 begun length s bytes rest hline cs htext hblank =>
    rw [readHeaders_line (takeThrough?_append_right hline t) htext, hblank]
    exact readBody_append hread ended t
  | case3 begun length s bytes rest hline cs htext n hlength ih =>
    rw [readHeaders_line (takeThrough?_append_right hline t) htext, hlength]
    exact ih hread
  | case4 begun length s bytes rest hline cs htext value hbad =>
    rw [readHeaders_line (takeThrough?_append_right hline t) htext, hbad]
    rfl
  | case5 begun length s bytes rest hline cs htext hother ih =>
    rw [readHeaders_line (takeThrough?_append_right hline t) htext, hother]
    exact ih hread
  | case6 => simp at hread
  -- The other cases are about a stream that has ended.
  | case7 | case8 | case9 | case10 | case11 | case12 => simp at *

/-- A reader that knows that the stream has ended asks for nothing. -/
theorem readBody_ne_more (length : Option Nat) (s : List UInt8) (n : Nat) :
    readBody true length s ≠ .more n := by
  cases length with
  | none => simp [readBody]
  | some m =>
    simp only [readBody]
    split
    · simp
    · split <;> simp

/-- Nor does it among the headers. -/
theorem readHeaders_ne_more {begun : Bool} {length : Option Nat} {s : List UInt8} (n : Nat) :
    readHeaders true begun length s ≠ .more n := by
  fun_induction readHeaders true begun length s with
  | case3 | case5 => assumption
  | case2 | case10 => exact readBody_ne_more _ _ n
  | case6 => simp at *
  | case1 | case4 | case7 | case8 | case9 | case11 | case12 => simp

/-- The bytes of a body are all that it needs. -/
theorem readBody_consumed {length : Option Nat} {s body rest : List UInt8}
    (hread : readBody true length s = .frame body rest) :
    s = body ++ rest ∧ readBody false length body = .frame body [] := by
  cases length with
  | none => cases hread
  | some n =>
    simp only [readBody] at hread ⊢
    split at hread
    · cases hread
    · case isFalse hlarge =>
      split at hread
      · case isTrue hthere =>
        cases hread
        have hlength : (s.take n).length = n := by simpa using hthere
        simp [hlarge, hlength, List.take_take]
      · cases hread

/-- **A frame is read from its own bytes:** the stream need not have ended, and nothing need follow.
Only the line before an empty body may lack its line feed where the stream ends. -/
theorem exists_consumed {begun : Bool} {length : Option Nat} {s body rest : List UInt8}
    (hread : readHeaders true begun length s = .frame body rest) (hsome : body ≠ [] ∨ rest ≠ []) :
    ∃ consumed, s = consumed ++ rest
      ∧ readHeaders false begun length consumed = .frame body [] := by
  fun_induction readHeaders true begun length s with
  | case2 begun length s bytes rest' hline cs htext hblank =>
    obtain ⟨rfl, hagain⟩ := takeThrough?_piece hline
    obtain ⟨rfl, hbody⟩ := readBody_consumed hread
    refine ⟨bytes ++ body, (List.append_assoc _ _ _).symm, ?_⟩
    rw [readHeaders_line (hagain body) htext, hblank]
    exact hbody
  | case3 begun length s bytes rest' hline cs htext n hlength ih =>
    obtain ⟨rfl, hagain⟩ := takeThrough?_piece hline
    obtain ⟨consumed, rfl, hagain'⟩ := ih hread
    refine ⟨bytes ++ consumed, (List.append_assoc _ _ _).symm, ?_⟩
    rw [readHeaders_line (hagain consumed) htext, hlength]
    exact hagain'
  | case5 begun length s bytes rest' hline cs htext hother ih =>
    obtain ⟨rfl, hagain⟩ := takeThrough?_piece hline
    obtain ⟨consumed, rfl, hagain'⟩ := ih hread
    refine ⟨bytes ++ consumed, (List.append_assoc _ _ _).symm, ?_⟩
    rw [readHeaders_line (hagain consumed) htext, hother]
    exact hagain'
  | case10 begun length s hline hended hne cs htext hblank =>
    -- The blank line is the last, and so both body and rest are empty.
    obtain ⟨hnothing, -⟩ := readBody_consumed hread
    obtain ⟨rfl, rfl⟩ := List.append_eq_nil_iff.mp hnothing.symm
    simp at hsome
  | case6 => simp at *
  | case1 | case4 | case7 | case8 | case9 | case11 | case12 => cases hread

/-- So the same frame is read whatever follows it. -/
theorem read_consumed {consumed body : List UInt8} (hread : read false consumed = .frame body [])
    (ended : Bool) (t : List UInt8) : read ended (consumed ++ t) = .frame body t := by
  rw [read] at hread ⊢
  rw [readHeaders_append (by simp [hread]), hread]
  rfl

/-! ## One frame after the other -/

/-- To read some frames is to read one and then the others. -/
theorem readFrames?_succ {ended : Bool} {count : Nat} {s rest : List UInt8}
    {bodies : List (List UInt8)} :
    readFrames? ended (count + 1) s = some (bodies, rest) ↔ ∃ body after others,
      read ended s = .frame body after ∧ readFrames? ended count after = some (others, rest)
      ∧ bodies = body :: others := by
  rw [readFrames?]
  cases hread : read ended s with
  | frame body after =>
    simp only [Option.map_eq_some_iff, Prod.exists, Prod.mk.injEq, Reading.frame.injEq]
    constructor
    · rintro ⟨others, rest', hothers, rfl, rfl⟩
      exact ⟨body, after, others, ⟨rfl, rfl⟩, hothers, rfl⟩
    · rintro ⟨body', after', others, ⟨rfl, rfl⟩, hothers, rfl⟩
      exact ⟨others, rest, hothers, rfl, rfl⟩
  | more | finished | fault => simp

/-- The frame after those that have been read. -/
theorem readFrames?_concat {ended : Bool} {count : Nat} {s rest rest' body : List UInt8}
    {bodies : List (List UInt8)} (hread : readFrames? ended count s = some (bodies, rest))
    (hnext : read ended rest = .frame body rest') :
    readFrames? ended (count + 1) s = some (bodies ++ [body], rest') := by
  induction count generalizing s bodies with
  | zero =>
    cases hread
    exact readFrames?_succ.mpr ⟨body, rest', [], hnext, rfl, rfl⟩
  | succ count ih =>
    obtain ⟨first, after, others, hfirst, hothers, rfl⟩ := readFrames?_succ.mp hread
    exact readFrames?_succ.mpr ⟨first, after, _, hfirst, ih hothers, rfl⟩

/-- **A stream is read in one way:** no more frames can be read than there are, and if no more are
there in either case, the same have been read. -/
theorem readFrames?_unique {ended : Bool} {m n : Nat} {s rest rest' : List UInt8}
    {bodies bodies' : List (List UInt8)} (hread : readFrames? ended m s = some (bodies, rest))
    (hread' : readFrames? ended n s = some (bodies', rest'))
    (hlast : ∀ body after, read ended rest' ≠ .frame body after) :
    bodies <+: bodies'
      ∧ ((∀ body after, read ended rest ≠ .frame body after) →
        bodies = bodies' ∧ rest = rest') := by
  induction m generalizing n s bodies bodies' with
  | zero =>
    cases hread
    refine ⟨List.nil_prefix, fun hnone => ?_⟩
    cases n with
    | zero =>
      cases hread'
      exact ⟨rfl, rfl⟩
    | succ n =>
      obtain ⟨first, after, -, hfirst, -⟩ := readFrames?_succ.mp hread'
      exact absurd hfirst (hnone first after)
  | succ m ih =>
    obtain ⟨first, after, others, hfirst, hothers, rfl⟩ := readFrames?_succ.mp hread
    cases n with
    | zero =>
      cases hread'
      exact absurd hfirst (hlast first after)
    | succ n =>
      obtain ⟨first', after', others', hfirst', hothers', rfl⟩ := readFrames?_succ.mp hread'
      cases hfirst.symm.trans hfirst'
      obtain ⟨hbeginning, hsame⟩ := ih hothers hothers'
      refine ⟨List.cons_prefix_cons.mpr ⟨rfl, hbeginning⟩, fun hnone => ?_⟩
      obtain ⟨rfl, rfl⟩ := hsame hnone
      exact ⟨rfl, rfl⟩

/-- What is left of a stream is no longer than the stream. -/
theorem length_of_readFrames? {ended : Bool} {count : Nat} {s rest : List UInt8}
    {bodies : List (List UInt8)} (hread : readFrames? ended count s = some (bodies, rest)) :
    rest.length ≤ s.length := by
  induction count generalizing s bodies with
  | zero =>
    cases hread
    exact Nat.le_refl _
  | succ count ih =>
    obtain ⟨first, after, others, hfirst, hothers, -⟩ := readFrames?_succ.mp hread
    exact Nat.le_trans (ih hothers) (Nat.le_of_lt (length_of_read hfirst))

/-- Of the frames of a stream, the one after some of them. -/
theorem readFrames?_next {ended : Bool} {m n : Nat} {s rest rest' : List UInt8}
    {bodies bodies' : List (List UInt8)} (hread : readFrames? ended m s = some (bodies, rest))
    (hread' : readFrames? ended n s = some (bodies', rest')) (hmn : m < n) :
    ∃ body after, read ended rest = .frame body after ∧ bodies ++ [body] <+: bodies'
      ∧ rest'.length ≤ after.length := by
  induction m generalizing n s bodies bodies' with
  | zero =>
    cases hread
    obtain ⟨n, rfl⟩ : ∃ k, n = k + 1 := ⟨n - 1, by omega⟩
    obtain ⟨first, after, others, hfirst, hothers, rfl⟩ := readFrames?_succ.mp hread'
    exact ⟨first, after, hfirst, List.cons_prefix_cons.mpr ⟨rfl, List.nil_prefix⟩,
      length_of_readFrames? hothers⟩
  | succ m ih =>
    obtain ⟨n, rfl⟩ : ∃ k, n = k + 1 := ⟨n - 1, by omega⟩
    obtain ⟨first, after, others, hfirst, hothers, rfl⟩ := readFrames?_succ.mp hread
    obtain ⟨first', after', others', hfirst', hothers', rfl⟩ := readFrames?_succ.mp hread'
    cases hfirst.symm.trans hfirst'
    obtain ⟨body, after'', hnext, hbeginning, hlength⟩ := ih hothers hothers' (by omega)
    exact ⟨body, after'', hnext, List.cons_prefix_cons.mpr ⟨rfl, hbeginning⟩, hlength⟩

/-- Nothing is read from nothing. -/
theorem ne_nil_of_read {s body rest : List UInt8} (hread : read true s = .frame body rest) :
    s ≠ [] :=
  List.ne_nil_of_length_pos (Nat.zero_lt_of_lt (length_of_read hread))

/-- **The first frames of a stream are read whatever follows them,** if the last of them has a
body. -/
theorem exists_front {s tail : List UInt8} {bodies : List (List UInt8)}
    (hread : readFrames? true bodies.length s = some (bodies, tail))
    (hlast : bodies.getLast? ≠ some []) :
    ∃ front, s = front ++ tail
      ∧ ∀ t, readFrames? true bodies.length (front ++ t) = some (bodies, t) := by
  induction bodies generalizing s with
  | nil =>
    cases hread
    exact ⟨[], rfl, fun t => rfl⟩
  | cons body bodies ih =>
    obtain ⟨first, rest, others, hfirst, hothers, heq⟩ := readFrames?_succ.mp hread
    cases heq
    -- Either this is the last frame, or there is something after it.
    obtain ⟨hsome, hlater⟩ : (body ≠ [] ∨ rest ≠ []) ∧ bodies.getLast? ≠ some [] := by
      cases bodies with
      | nil => exact ⟨.inl fun hempty => hlast (by simp [hempty]), nofun⟩
      | cons second bodies =>
        obtain ⟨_, _, _, hsecond, -⟩ := readFrames?_succ.mp hothers
        exact ⟨.inr (ne_nil_of_read hsecond), by rwa [List.getLast?_cons_cons] at hlast⟩
    obtain ⟨consumed, rfl, hagain⟩ := exists_consumed hfirst hsome
    obtain ⟨front, rfl, hfront⟩ := ih hothers hlater
    refine ⟨consumed ++ front, (List.append_assoc _ _ _).symm, fun t => ?_⟩
    rw [List.append_assoc]
    exact readFrames?_succ.mpr ⟨body, _, bodies, read_consumed hagain true _, hfront t, rfl⟩

end FlagServer.Frame
