import FlagServer.Database.Reader

/-!
# The grammar of command lines

`ShellWords.split` is a reader that goes from character to character and changes its mode at
quotations. This file says what it reads **without a reader:** a command is white space and words, a
word is segments that touch, and each of the four kinds of segment has a text and a meaning. Nothing
else is said of a command, so that the two can be compared.

* What a command of the grammar means is what is read from its text (`split_text`). The law for
  each kind of segment has something after it, and the word in which the segment stands before it.
* Every text is the text of a command (`exists_text`), because a command may also be cut off: a
  quotation that nobody closes ends with the text, and so does a backslash.

So a text has one reading, and the grammar gives it. Whoever quotes words, in one way or another,
has them read as they were (`split_quoted`).
-/

namespace FlagServer.ShellWords

open Text

/-! ## Segments -/

/-- A piece of what stands between quotation marks. -/
inductive Piece where
  /-- A character that is neither a quotation mark nor a backslash. -/
  | plain (c : Char) (h : c ≠ '"' ∧ c ≠ '\\')
  /-- A backslash and the character after it. -/
  | escaped (c : Char)

namespace Piece

/-- How a piece is written. -/
def text : Piece → List Char
  | plain c _ => [c]
  | escaped c => ['\\', c]

/-- What a piece means. Before most characters a backslash stands for itself. -/
def meaning : Piece → List Char
  | plain c _ => [c]
  | escaped c => if c ∈ ['"', '\\', '$', '\x60'] then [c] else ['\\', c]

end Piece

/-- A segment of a word. -/
inductive Segment where
  /-- A character that stands for itself. -/
  | bare (c : Char) (h : isBlank c = false ∧ c ≠ '\x27' ∧ c ≠ '"' ∧ c ≠ '\\')
  /-- A backslash and the character after it, whatever that is. -/
  | escaped (c : Char)
  /-- Anything but an apostrophe between apostrophes. -/
  | single (cs : List Char) (h : '\x27' ∉ cs)
  /-- Pieces between quotation marks. -/
  | double (pieces : List Piece)

namespace Segment

/-- How a segment is written. -/
def text : Segment → List Char
  | bare c _ => [c]
  | escaped c => ['\\', c]
  | single cs _ => '\x27' :: cs ++ ['\x27']
  | double pieces => '"' :: pieces.flatMap Piece.text ++ ['"']

/-- What a segment means. -/
def meaning : Segment → List Char
  | bare c _ => [c]
  | escaped c => [c]
  | single cs _ => cs
  | double pieces => pieces.flatMap Piece.meaning

end Segment

/-- A segment that the end of the text cuts off. -/
inductive Cut where
  /-- An apostrophe that no other follows. -/
  | single (cs : List Char) (h : '\x27' ∉ cs)
  /-- A quotation mark that no other follows, perhaps with a backslash as the last character. -/
  | double (pieces : List Piece) (dangling : Bool)
  /-- A backslash that nothing follows. -/
  | escape

namespace Cut

/-- How a cut segment is written. -/
def text : Cut → List Char
  | single cs _ => '\x27' :: cs
  | double pieces dangling =>
    '"' :: pieces.flatMap Piece.text ++ if dangling then ['\\'] else []
  | escape => ['\\']

/-- What a cut segment means. -/
def meaning : Cut → List Char
  | single cs _ => cs
  | double pieces dangling =>
    pieces.flatMap Piece.meaning ++ if dangling then ['\\'] else []
  | escape => []

end Cut

/-! ## Commands -/

/-- A word: one or more segments that touch. -/
structure Word where
  segments : List Segment
  nonempty : segments ≠ []

namespace Word

/-- How a word is written. -/
def text (w : Word) : List Char :=
  w.segments.flatMap Segment.text

/-- What a word means. -/
def meaning (w : Word) : List Char :=
  w.segments.flatMap Segment.meaning

end Word

/-- White space between words. -/
structure Gap where
  text : List Char
  nonempty : text ≠ []
  blank : ∀ c ∈ text, isBlank c = true

/-- How a command ends. -/
inductive Ending where
  /-- After white space, or where it began. -/
  | nothing
  /-- With a word. -/
  | word (w : Word)
  /-- With a word whose last segment is cut off. -/
  | cut (segments : List Segment) (last : Cut)

namespace Ending

/-- How an ending is written. -/
def text : Ending → List Char
  | nothing => []
  | word w => w.text
  | cut segments last => segments.flatMap Segment.text ++ last.text

/-- The word that a command ends with. -/
def meaning : Ending → List (List Char)
  | nothing => []
  | word w => [w.meaning]
  | cut segments last => [segments.flatMap Segment.meaning ++ last.meaning]

end Ending

/-- A command: perhaps white space, then words with white space after each. Nothing has to follow
the last word, and where nothing does its last segment may be cut off. -/
structure Command where
  lead : List Char
  blank : ∀ c ∈ lead, isBlank c = true
  words : List (Word × Gap)
  ending : Ending

namespace Command

/-- How a command is written. -/
def text (command : Command) : List Char :=
  command.lead ++ command.words.flatMap (fun (w, gap) => w.text ++ gap.text)
    ++ command.ending.text

/-- The words that a command means. -/
def meaning (command : Command) : List (List Char) :=
  command.words.map (·.1.meaning) ++ command.ending.meaning

end Command

/-! ## Reading one character -/

section Characters

variable (begun : Bool) (current : List Char) (c : Char) (cs : List Char)

/-- Outside of quotations, a character is white space, a mark, or a part of the word. -/
theorem words_bare_cons :
    words begun current .bare (c :: cs)
      = if isBlank c then
          if begun then current :: words false [] .bare cs else words false [] .bare cs
        else if c == '\x27' then words true current .single cs
        else if c == '"' then words true current .double cs
        else if c == '\\' then
          match cs with
          | e :: cs => words true (current ++ [e]) .bare cs
          | [] => [current]
        else words true (current ++ [c]) .bare cs := by
  cases cs <;> rfl

/-- Between apostrophes only another one is not taken as it is. -/
theorem words_single_cons :
    words begun current .single (c :: cs)
      = if c == '\x27' then words true current .bare cs
        else words true (current ++ [c]) .single cs :=
  rfl

/-- Between quotation marks a backslash is looked behind. -/
theorem words_double_cons :
    words begun current .double (c :: cs)
      = if c == '"' then words true current .bare cs
        else if c == '\\' then
          match cs with
          | e :: cs =>
            if isEscapable e then words true (current ++ [e]) .double cs
            else words true (current ++ ['\\', e]) .double cs
          | [] => [current ++ ['\\']]
        else words true (current ++ [c]) .double cs := by
  cases cs <;> rfl

theorem words_apostrophe :
    words begun current .bare ('\x27' :: cs) = words true current .single cs := by
  simp [words_bare_cons, show isBlank '\x27' = false by decide]

theorem words_mark : words begun current .bare ('"' :: cs) = words true current .double cs := by
  simp [words_bare_cons, show isBlank '"' = false by decide]

end Characters

/-- The characters that a backslash can take the meaning of between quotation marks are these four.
-/
theorem isEscapable_iff (c : Char) : isEscapable c = true ↔ c ∈ ['"', '\\', '$', '\x60'] := by
  simp [isEscapable, or_assoc]

/-! ## Reading one segment

Each law says what becomes of the word that is open, `current`, and leaves the rest to be read.
-/

/-- A piece adds its meaning to the word. -/
theorem words_piece (begun : Bool) (current : List Char) (piece : Piece) (rest : List Char) :
    words begun current .double (piece.text ++ rest)
      = words true (current ++ piece.meaning) .double rest := by
  cases piece with
  | plain c h => simp [Piece.text, Piece.meaning, words_double_cons, h]
  | escaped c =>
    simp only [Piece.text, Piece.meaning, List.cons_append, List.nil_append, ← isEscapable_iff]
    rw [words_double_cons]
    by_cases hc : isEscapable c <;> simp [hc]

/-- So do pieces, one after the other. -/
theorem words_pieces (current : List Char) (pieces : List Piece) (rest : List Char) :
    words true current .double (pieces.flatMap Piece.text ++ rest)
      = words true (current ++ pieces.flatMap Piece.meaning) .double rest := by
  induction pieces generalizing current with
  | nil => simp
  | cons piece pieces ih =>
    rw [List.flatMap_cons, List.append_assoc, words_piece, ih, List.flatMap_cons,
      List.append_assoc]

/-- Between apostrophes everything is added as it is. -/
theorem words_single (current : List Char) {cs : List Char} (h : '\x27' ∉ cs)
    (rest : List Char) :
    words true current .single (cs ++ rest) = words true (current ++ cs) .single rest := by
  induction cs generalizing current with
  | nil => simp
  | cons c cs ih =>
    rw [List.mem_cons, not_or] at h
    simp [words_single_cons, Ne.symm h.1, ih _ h.2]

/-- **A segment is read as what it means,** whatever word is open and whatever follows. -/
theorem words_segment (begun : Bool) (current : List Char) (segment : Segment)
    (rest : List Char) :
    words begun current .bare (segment.text ++ rest)
      = words true (current ++ segment.meaning) .bare rest := by
  cases segment with
  | bare c h => simp [Segment.text, Segment.meaning, words_bare_cons, h]
  | escaped c =>
    simp [Segment.text, Segment.meaning, words_bare_cons, show isBlank '\\' = false by decide]
  | single cs h =>
    simp only [Segment.text, Segment.meaning, List.cons_append, List.append_assoc]
    rw [words_apostrophe, words_single _ h]
    rfl
  | double pieces =>
    simp only [Segment.text, Segment.meaning, List.cons_append, List.append_assoc]
    rw [words_mark, words_pieces, List.nil_append, words_double_cons]
    rfl

/-- Segments that touch are one word, and it has begun after the first of them. -/
theorem words_segments {segments : List Segment} (hne : segments ≠ []) (begun : Bool)
    (current rest : List Char) :
    words begun current .bare (segments.flatMap Segment.text ++ rest)
      = words true (current ++ segments.flatMap Segment.meaning) .bare rest := by
  induction segments generalizing begun current with
  | nil => exact absurd rfl hne
  | cons segment segments ih =>
    rw [List.flatMap_cons, List.append_assoc, words_segment, List.flatMap_cons,
      ← List.append_assoc]
    cases segments with
    | nil => simp
    | cons next segments => exact ih (by simp) _ _

/-- A segment that is cut off ends the word and the command. -/
theorem words_cut (begun : Bool) (current : List Char) (last : Cut) :
    words begun current .bare last.text = [current ++ last.meaning] := by
  cases last with
  | single cs h =>
    have hcs := words_single current h []
    rw [List.append_nil] at hcs
    rw [Cut.text, words_apostrophe, hcs]
    rfl
  | double pieces dangling =>
    simp only [Cut.text, Cut.meaning, List.cons_append]
    rw [words_mark, words_pieces, ← List.append_assoc]
    cases dangling with
    | false => exact congrArg (fun w => [w]) (List.append_nil _).symm
    | true => rfl
  | escape =>
    simp [Cut.text, Cut.meaning, words_bare_cons, show isBlank '\\' = false by decide]

/-! ## Reading a command -/

/-- White space where no word has begun means nothing. -/
theorem words_blanks {blanks : List Char} (h : ∀ c ∈ blanks, isBlank c = true)
    (rest : List Char) :
    words false [] .bare (blanks ++ rest) = words false [] .bare rest := by
  induction blanks with
  | nil => rfl
  | cons c cs ih =>
    rw [List.forall_mem_cons] at h
    simp [words_bare_cons, h.1, ih h.2]

/-- White space ends the word that is open. -/
theorem words_gap (current : List Char) (gap : Gap) (rest : List Char) :
    words true current .bare (gap.text ++ rest) = current :: words false [] .bare rest := by
  obtain ⟨text, hne, hblank⟩ := gap
  obtain ⟨c, cs, rfl⟩ := List.exists_cons_of_ne_nil hne
  rw [List.forall_mem_cons] at hblank
  simp [words_bare_cons, hblank.1, words_blanks hblank.2]

/-- A command ends with the word that its ending means, or with none. -/
theorem words_ending (ending : Ending) : words false [] .bare ending.text = ending.meaning := by
  cases ending with
  | nothing => rfl
  | word w =>
    have hword := words_segments w.nonempty false [] []
    rw [List.append_nil, List.nil_append] at hword
    rw [Ending.text, Word.text, hword]
    rfl
  | cut segments last =>
    rw [Ending.text, Ending.meaning]
    cases segments with
    | nil => exact words_cut false [] last
    | cons segment segments => rw [words_segments (by simp), words_cut, List.nil_append]

/-- **What a command means is what is read from its text.** -/
theorem split_text (command : Command) : split command.text = command.meaning := by
  obtain ⟨lead, hlead, list, ending⟩ := command
  rw [split, Command.text, Command.meaning, List.append_assoc, words_blanks hlead]
  induction list with
  | nil => exact words_ending ending
  | cons entry list ih =>
    -- The word is read, and the white space after it ends it and leaves nothing open.
    obtain ⟨w, gap⟩ := entry
    simp only [List.flatMap_cons, List.append_assoc, List.map_cons, List.cons_append] at ih ⊢
    rw [Word.text, words_segments w.nonempty, words_gap, List.nil_append, ih]
    rfl

/-! ## Every text is a command -/

/-- What may stand after a quotation mark: pieces and then another, or pieces that are cut off. -/
def IsQuoted (cs : List Char) : Prop :=
  (∃ (pieces : List Piece) (rest : List Char), cs = pieces.flatMap Piece.text ++ '"' :: rest)
    ∨ ∃ (pieces : List Piece) (dangling : Bool),
      cs = pieces.flatMap Piece.text ++ if dangling then ['\\'] else []

/-- A piece more may stand in front. -/
theorem IsQuoted.cons (piece : Piece) {cs : List Char} (h : IsQuoted cs) :
    IsQuoted (piece.text ++ cs) := by
  obtain ⟨pieces, rest, rfl⟩ | ⟨pieces, dangling, rfl⟩ := h
  · exact .inl ⟨piece :: pieces, rest, by simp⟩
  · exact .inr ⟨piece :: pieces, dangling, by simp⟩

/-- **After a quotation mark anything may stand.** -/
theorem isQuoted (cs : List Char) : IsQuoted cs := by
  -- A piece is one character or two, so the induction is on the length.
  induction hn : cs.length using Nat.strongRecOn generalizing cs with
  | ind n ih =>
    subst hn
    match cs, ih with
    | [], _ => exact .inr ⟨[], false, rfl⟩
    | c :: cs, ih =>
      by_cases hmark : c = '"'
      · exact .inl ⟨[], cs, by simp [hmark]⟩
      by_cases hbackslash : c = '\\'
      · subst hbackslash
        match cs, ih with
        | [], _ => exact .inr ⟨[], true, rfl⟩
        | e :: cs, ih =>
          exact (ih _ (by simp only [List.length_cons]; omega) cs rfl).cons (.escaped e)
      · exact (ih _ (by simp) cs rfl).cons (.plain c ⟨hmark, hbackslash⟩)

/-- A character that is no white space begins a segment, whole or cut off. -/
theorem exists_segment {c : Char} (hc : isBlank c = false) (cs : List Char) :
    (∃ (segment : Segment) (rest : List Char), c :: cs = segment.text ++ rest
        ∧ rest.length < (c :: cs).length)
      ∨ ∃ last : Cut, c :: cs = last.text := by
  by_cases hapostrophe : c = '\x27'
  · subst hapostrophe
    by_cases hclosed : '\x27' ∈ cs
    · obtain ⟨inner, rest, rfl, hinner⟩ := List.eq_append_cons_of_mem hclosed
      exact .inl ⟨.single inner hinner, rest, by simp [Segment.text], by simp; omega⟩
    · exact .inr ⟨.single cs hclosed, rfl⟩
  by_cases hmark : c = '"'
  · subst hmark
    obtain ⟨pieces, rest, rfl⟩ | ⟨pieces, dangling, rfl⟩ := isQuoted cs
    · exact .inl ⟨.double pieces, rest, by simp [Segment.text], by simp; omega⟩
    · exact .inr ⟨.double pieces dangling, by simp [Cut.text]⟩
  by_cases hbackslash : c = '\\'
  · subst hbackslash
    cases cs with
    | nil => exact .inr ⟨.escape, rfl⟩
    | cons e cs => exact .inl ⟨.escaped e, cs, rfl, by simp only [List.length_cons]; omega⟩
  · exact .inl ⟨.bare c ⟨hc, hapostrophe, hmark, hbackslash⟩, cs, rfl, by simp⟩

/-- A segment in front of a command begins its first word, or is a word by itself where the command
begins with white space. -/
theorem exists_prepend (segment : Segment) (command : Command) :
    ∃ command' : Command, command'.text = segment.text ++ command.text := by
  obtain ⟨lead, hlead, list, ending⟩ := command
  -- Where a command begins with white space, the segment is kept apart from its first word.
  cases lead with
  | cons c cs =>
    refine ⟨⟨[], by simp, (⟨[segment], by simp⟩, ⟨c :: cs, by simp, hlead⟩) :: list, ending⟩, ?_⟩
    simp [Command.text, Word.text]
  | nil =>
    cases list with
    | cons entry list =>
      obtain ⟨w, gap⟩ := entry
      refine ⟨⟨[], by simp, (⟨segment :: w.segments, by simp⟩, gap) :: list, ending⟩, ?_⟩
      simp [Command.text, Word.text]
    | nil =>
      cases ending with
      | nothing =>
        exact ⟨⟨[], by simp, [], .word ⟨[segment], by simp⟩⟩,
          by simp [Command.text, Ending.text, Word.text]⟩
      | word w =>
        exact ⟨⟨[], by simp, [], .word ⟨segment :: w.segments, by simp⟩⟩,
          by simp [Command.text, Ending.text, Word.text]⟩
      | cut segments last =>
        exact ⟨⟨[], by simp, [], .cut (segment :: segments) last⟩,
          by simp [Command.text, Ending.text]⟩

/-- **Every text is the text of a command.** -/
theorem exists_text (cs : List Char) : ∃ command : Command, command.text = cs := by
  induction hn : cs.length using Nat.strongRecOn generalizing cs with
  | ind n ih =>
    subst hn
    cases cs with
    | nil => exact ⟨⟨[], by simp, [], .nothing⟩, rfl⟩
    | cons c cs =>
      cases hc : isBlank c with
      | true =>
        obtain ⟨command, rfl⟩ := ih _ (Nat.lt_succ_self _) cs rfl
        refine ⟨{ command with lead := c :: command.lead, blank := ?_ }, by simp [Command.text]⟩
        simpa [hc] using command.blank
      | false =>
        -- It begins a segment. If that is whole, the rest is a command by induction.
        obtain ⟨segment, rest, heq, hlength⟩ | ⟨last, heq⟩ := exists_segment hc cs
        · obtain ⟨command, rfl⟩ := ih _ hlength rest rfl
          obtain ⟨command', htext⟩ := exists_prepend segment command
          exact ⟨command', htext.trans heq.symm⟩
        · exact ⟨⟨[], by simp, [], .cut [] last⟩, by simp [Command.text, Ending.text, heq]⟩

/-! ## Quoting -/

/-- Two ways to quote a word. -/
inductive Quotation where
  /-- Between apostrophes; an apostrophe stands outside of them, after a backslash. -/
  | single
  /-- Between quotation marks, with a backslash before what has to have one. -/
  | double

/-- A word quoted. -/
def Quotation.quote : Quotation → List Char → List Char
  | single, cs =>
    '\x27' :: cs.flatMap (fun c => if c = '\x27' then ['\x27', '\\', '\x27', '\x27'] else [c])
      ++ ['\x27']
  | double, cs =>
    '"' :: cs.flatMap (fun c => if c ∈ ['"', '\\', '$', '\x60'] then ['\\', c] else [c]) ++ ['"']

/-- What is quoted with apostrophes is one segment after another: apostrophes leave the quotation
and come back to it. -/
theorem exists_segments_single (cs : List Char) :
    ∃ (inner : List Char) (segments : List Segment), '\x27' ∉ inner
      ∧ cs.flatMap (fun c => if c = '\x27' then ['\x27', '\\', '\x27', '\x27'] else [c])
          ++ ['\x27'] = inner ++ '\x27' :: segments.flatMap Segment.text
      ∧ cs = inner ++ segments.flatMap Segment.meaning := by
  induction cs with
  | nil => exact ⟨[], [], by simp, rfl, rfl⟩
  | cons c cs ih =>
    obtain ⟨inner, segments, hinner, htext, hmeaning⟩ := ih
    by_cases hc : c = '\x27'
    · refine ⟨[], .escaped '\x27' :: .single inner hinner :: segments, by simp, ?_, ?_⟩
      · simp [hc, htext, Segment.text]
      · simp [hc, ← hmeaning, Segment.meaning]
    · refine ⟨c :: inner, segments, by simp [hinner, Ne.symm hc], ?_, ?_⟩
      · simp [hc, htext]
      · simp [← hmeaning]

/-- What is quoted with quotation marks is one piece for each character. -/
theorem exists_pieces_double (cs : List Char) :
    ∃ pieces : List Piece,
      pieces.flatMap Piece.text
          = cs.flatMap (fun c => if c ∈ ['"', '\\', '$', '\x60'] then ['\\', c] else [c])
        ∧ pieces.flatMap Piece.meaning = cs := by
  induction cs with
  | nil => exact ⟨[], rfl, rfl⟩
  | cons c cs ih =>
    obtain ⟨pieces, htext, hmeaning⟩ := ih
    by_cases hc : c ∈ ['"', '\\', '$', '\x60']
    · refine ⟨.escaped c :: pieces, ?_, ?_⟩
      · rw [List.flatMap_cons, htext, List.flatMap_cons, if_pos hc, Piece.text]
      · rw [List.flatMap_cons, hmeaning, Piece.meaning, if_pos hc, List.singleton_append]
    · have hplain : c ≠ '"' ∧ c ≠ '\\' := by
        simp only [List.mem_cons, not_or] at hc
        exact ⟨hc.1, hc.2.1⟩
      refine ⟨.plain c hplain :: pieces, ?_, ?_⟩
      · rw [List.flatMap_cons, htext, List.flatMap_cons, if_neg hc, Piece.text]
      · rw [List.flatMap_cons, hmeaning, Piece.meaning, List.singleton_append]

/-- **A quoted word is a word, and it means what was quoted.** -/
theorem exists_quoted (q : Quotation) (cs : List Char) :
    ∃ w : Word, w.text = q.quote cs ∧ w.meaning = cs := by
  cases q with
  | single =>
    obtain ⟨inner, segments, hinner, htext, hmeaning⟩ := exists_segments_single cs
    refine ⟨⟨.single inner hinner :: segments, by simp⟩, ?_, ?_⟩
    · simp [Word.text, Segment.text, Quotation.quote, htext]
    · simp [Word.meaning, Segment.meaning, ← hmeaning]
  | double =>
    obtain ⟨pieces, htext, hmeaning⟩ := exists_pieces_double cs
    refine ⟨⟨[.double pieces], by simp⟩, ?_, ?_⟩
    · simp only [Word.text, List.flatMap_cons, List.flatMap_nil, List.append_nil, Segment.text,
        htext, Quotation.quote]
    · simp only [Word.meaning, List.flatMap_cons, List.flatMap_nil, List.append_nil,
        Segment.meaning, hmeaning]

/-- Words with a space between them are a command. -/
theorem exists_joined (ws : List Word) :
    ∃ command : Command, command.lead = [] ∧ command.text = joinWith ' ' (ws.map Word.text)
      ∧ command.meaning = ws.map Word.meaning := by
  induction ws with
  | nil => exact ⟨⟨[], by simp, [], .nothing⟩, rfl, rfl, rfl⟩
  | cons w ws ih =>
    cases ws with
    | nil => exact ⟨⟨[], by simp, [], .word w⟩, rfl, rfl, rfl⟩
    | cons w' ws =>
      obtain ⟨⟨lead, hlead, list, ending⟩, rfl, htext, hmeaning⟩ := ih
      refine ⟨⟨[], by simp, (w, ⟨[' '], by simp, by simp [isBlank]⟩) :: list, ending⟩, rfl, ?_, ?_⟩
      · simp only [Command.text, List.nil_append, List.map_cons] at htext ⊢
        simp only [joinWith, ← htext, List.flatMap_cons, List.append_assoc, List.cons_append,
          List.nil_append]
      · simp only [Command.meaning, List.map_cons] at hmeaning ⊢
        rw [List.cons_append, hmeaning]

/-- Words, each quoted in its own way, with a space between them. -/
def quoted (args : List (Quotation × String)) : String :=
  String.ofList (joinWith ' ' (args.map fun (q, s) => q.quote s.toList))

/-- **What has been quoted is read as it was.** -/
theorem split_quoted (args : List (Quotation × String)) :
    splitString (quoted args) = args.map Prod.snd := by
  obtain ⟨ws, htext, hmeaning⟩ : ∃ ws : List Word,
      ws.map Word.text = args.map (fun (q, s) => q.quote s.toList)
        ∧ ws.map Word.meaning = args.map (·.2.toList) := by
    induction args with
    | nil => exact ⟨[], rfl, rfl⟩
    | cons arg args ih =>
      obtain ⟨ws, htext, hmeaning⟩ := ih
      obtain ⟨w, hw, hw'⟩ := exists_quoted arg.1 arg.2.toList
      exact ⟨w :: ws, by simp [hw, htext], by simp [hw', hmeaning]⟩
  obtain ⟨command, -, hcommand, hcommand'⟩ := exists_joined ws
  rw [splitString, quoted, String.toList_ofList, ← htext, ← hcommand, split_text, hcommand',
    hmeaning, List.map_map]
  exact List.map_congr_left fun arg _ => String.ofList_toList

/-- **Splitting follows the grammar.** A command is split into some words exactly if it is the text
of a command of the grammar that means them, and every text is; so words in any quotation are read
as what they mean, and what the end of the text cuts off as if it were closed there. Arbitrary
words, quoted one way or the other and joined by spaces, are read back, and an entry of a database
that says its command in this way is the entry that lists the words. -/
theorem split_grammar :
    (∀ (s : String) (ws : List String), splitString s = ws
      ↔ ∃ command : Command, command.text = s.toList ∧ command.meaning.map String.ofList = ws)
    ∧ (∀ s : String, ∃ command : Command, command.text = s.toList)
    ∧ (∀ args : List (Quotation × String), splitString (quoted args) = args.map Prod.snd)
    ∧ ∀ (entry : DatabaseEntry) (args : List (Quotation × String)),
      { entry with arguments := none, command := some (quoted args) }.toCommand
        = { entry with arguments := some (args.map Prod.snd) }.toCommand := by
  refine ⟨fun s ws => ⟨?_, ?_⟩, fun s => exists_text s.toList, split_quoted, fun entry args => ?_⟩
  · rintro rfl
    obtain ⟨command, htext⟩ := exists_text s.toList
    exact ⟨command, htext, by rw [← split_text, htext]; rfl⟩
  · rintro ⟨command, htext, rfl⟩
    rw [splitString, ← htext, split_text]
  · simp only [DatabaseEntry.toCommand, split_quoted]

end FlagServer.ShellWords
