import FlagServer.Path.Basic
import FlagServer.Proofs.Text

/-!
# Spellings and components

A path is spelled in bytes and means components. Between the two stand its **pieces,** that is what
stands between slashes: an empty piece and `.` mean nothing, and every other piece means one
component. Only at the beginning of a path it is otherwise, where an empty piece is the root and `.`
is a component of its own. So a path means its `lead`, which is at most one component, and after
that its `body`, which is read off the pieces one by one.

Two laws are used of this. What is joined has the components of both, one after the other
(`body_join`), and components that are spelled in the plainest way are read as themselves
(`components_ofComponents`).
-/

namespace FlagServer.Path

/-! ## Lead and body -/

/-- What stands between slashes. -/
def pieces (p : Path) : List (List UInt8) :=
  Text.splitOn slash p.bytes

/-- The first component, if it is the root or a leading `.`. -/
def lead (p : Path) : List Component :=
  if p.isAbsolute then [.root] else if p.pieces.head? = some [dot] then [.here] else []

/-- The other components. -/
def body (p : Path) : List Component :=
  p.pieces.filterMap componentOf?

/-- The root, if the path begins there. -/
def base (p : Path) : List Component :=
  if p.isAbsolute then [.root] else []

/-- A path is absolute if it begins with a slash. -/
theorem isAbsolute_iff {p : Path} : p.isAbsolute = true ↔ ∃ rest, p.bytes = slash :: rest := by
  unfold isAbsolute
  cases p.bytes with
  | nil => simp
  | cons b rest => simp

/-- A path means its lead, and after it its body. -/
theorem components_eq (p : Path) : p.components = p.lead ++ p.body := by
  unfold components lead body pieces
  cases hsplit : Text.splitOn slash p.bytes with
  | nil => exact absurd hsplit (Text.splitOn_ne_nil _ _)
  | cons first rest =>
    simp only [List.head?_cons, Option.some.injEq, beq_iff_eq]
    split
    · case isTrue habs =>
      -- The piece before the first slash is empty.
      obtain ⟨bytes, hbytes⟩ := isAbsolute_iff.mp habs
      rw [hbytes, Text.splitOn, if_pos (by simp), List.cons.injEq] at hsplit
      rw [← hsplit.1]
      rfl
    split
    · case isTrue hdot =>
      rw [hdot]
      rfl
    · cases hfirst : componentOf? first with
      | none => simp [hfirst]
      | some c => simp [hfirst]

theorem components_of_isAbsolute {p : Path} (hp : p.isAbsolute = true) :
    p.components = .root :: p.body := by
  rw [components_eq, lead, if_pos hp]
  rfl

/-! ## What can be spelled -/

/-- The component is what its spelling means, wherever that stands between slashes. The root and a
leading `.` are not. -/
structure Component.IsSpelled (c : Component) : Prop where
  means : componentOf? c.spelling = some c
  bare : slash ∉ c.spelling

/-- A piece that means a component is the spelling of that component. -/
theorem spelling_of_componentOf? {piece : List UInt8} {c : Component}
    (h : componentOf? piece = some c) : c.spelling = piece := by
  unfold componentOf? at h
  split at h
  · cases h
  split at h
  · case isTrue hup =>
    cases h
    exact (beq_iff_eq.mp hup).symm
  · cases h
    rfl

/-- Every component of a body has a spelling, namely the piece that it was read from. -/
theorem isSpelled_of_mem_body {p : Path} {c : Component} (h : c ∈ p.body) : c.IsSpelled := by
  obtain ⟨piece, hpiece, hmeans⟩ := List.mem_filterMap.mp h
  have hspelling := spelling_of_componentOf? hmeans
  rw [← hspelling] at hmeans hpiece
  exact ⟨hmeans, Text.not_mem_of_mem_splitOn hpiece⟩

theorem Component.IsSpelled.ne_root {c : Component} (h : c.IsSpelled) : c ≠ .root := by
  rintro rfl
  cases h.means

theorem Component.IsSpelled.ne_here {c : Component} (h : c.IsSpelled) : c ≠ .here := by
  rintro rfl
  cases h.means

theorem isSpelled_up : Component.up.IsSpelled :=
  ⟨rfl, by decide⟩

/-! ## The plainest spelling -/

/-- Spellings with slashes between them are found again as pieces. -/
theorem splitOn_spelling {cs : List Component} (hne : cs ≠ []) (h : ∀ c ∈ cs, c.IsSpelled) :
    Text.splitOn slash (Text.joinWith slash (cs.map Component.spelling))
      = cs.map Component.spelling := by
  apply Text.splitOn_joinWith (by simpa using hne)
  intro piece hpiece
  obtain ⟨c, hc, rfl⟩ := List.mem_map.mp hpiece
  exact (h c hc).bare

/-- Each spelling means its component. -/
theorem filterMap_spelling {cs : List Component} (h : ∀ c ∈ cs, c.IsSpelled) :
    (cs.map Component.spelling).filterMap componentOf? = cs :=
  calc (cs.map Component.spelling).filterMap componentOf?
      = cs.filterMap fun c => some c := by
        rw [List.filterMap_map]
        exact List.filterMap_congr fun c hc => (h c hc).means
    _ = cs := List.filterMap_some

/-- So components that are spelled with slashes between them are read as they were meant, if there
are any or none. -/
theorem filterMap_splitOn_spelling {cs : List Component} (h : ∀ c ∈ cs, c.IsSpelled) :
    (Text.splitOn slash (Text.joinWith slash (cs.map Component.spelling))).filterMap componentOf?
      = cs := by
  -- No component is spelled by nothing, and that is one empty piece.
  by_cases hne : cs = []
  · rw [hne]
    rfl
  · rw [splitOn_spelling hne h, filterMap_spelling h]

/-- **What is spelled in the plainest way is read as it was meant,** from the root. -/
theorem components_ofComponents_root {cs : List Component} (h : ∀ c ∈ cs, c.IsSpelled) :
    (ofComponents (.root :: cs)).components = .root :: cs := by
  have habs : (ofComponents (.root :: cs)).isAbsolute = true := isAbsolute_iff.mpr ⟨_, rfl⟩
  have hbody : (ofComponents (.root :: cs)).body = cs := by
    rw [body, pieces, ofComponents, Text.splitOn_cons_self, List.filterMap_cons_none rfl,
      filterMap_splitOn_spelling h]
  rw [components_eq, lead, if_pos habs, hbody]
  rfl

/-- Components that stand between slashes are spelled one after the other, with no slash before
them. -/
theorem ofComponents_of_isSpelled {cs : List Component} (h : ∀ c ∈ cs, c.IsSpelled) :
    ofComponents cs = ⟨Text.joinWith slash (cs.map Component.spelling)⟩ := by
  cases cs with
  | nil => rfl
  | cons c cs =>
    have hroot := (h c List.mem_cons_self).ne_root
    cases c with
    | root => exact absurd rfl hroot
    | here | up | name => rfl

/-- The same of a path that does not begin at the root: its first piece is that of its first
component, so that it is neither empty nor `.`. -/
theorem lead_ofComponents {cs : List Component} (h : ∀ c ∈ cs, c.IsSpelled) :
    (ofComponents cs).isAbsolute = false ∧ (ofComponents cs).lead = [] := by
  cases cs with
  | nil => exact ⟨rfl, rfl⟩
  | cons c cs =>
    have hpieces : (ofComponents (c :: cs)).pieces = (c :: cs).map Component.spelling := by
      rw [ofComponents_of_isSpelled h]
      exact splitOn_spelling (by simp) h
    have hmeans := (h c List.mem_cons_self).means
    -- A slash at the beginning would make the first piece empty, and that means nothing.
    have habs : (ofComponents (c :: cs)).isAbsolute = false := by
      rw [← Bool.not_eq_true, isAbsolute_iff]
      rintro ⟨rest, hbytes⟩
      rw [pieces, hbytes, Text.splitOn_cons_self, List.map_cons, List.cons.injEq] at hpieces
      rw [← hpieces.1] at hmeans
      cases hmeans
    refine ⟨habs, ?_⟩
    rw [lead, habs, if_neg Bool.false_ne_true, hpieces, if_neg]
    rw [List.map_cons, List.head?_cons, Option.some.injEq]
    -- Nor is the first piece a `.`, as that means nothing either.
    intro hdot
    rw [hdot] at hmeans
    cases hmeans

/-- **What is spelled in the plainest way is read as it was meant,** from where one is. -/
theorem components_ofComponents {cs : List Component} (h : ∀ c ∈ cs, c.IsSpelled) :
    (ofComponents cs).components = cs := by
  rw [components_eq, (lead_ofComponents h).2, body, pieces, ofComponents_of_isSpelled h,
    filterMap_splitOn_spelling h]
  rfl

/-! ## Joining -/

/-- A slash is where a text can be cut without cutting a piece. -/
theorem pieces_append_slash (front back : List UInt8) :
    (⟨front ++ slash :: back⟩ : Path).pieces = (⟨front⟩ : Path).pieces ++ (⟨back⟩ : Path).pieces :=
  Text.splitOn_append front back

theorem body_append_slash (front back : List UInt8) :
    (⟨front ++ slash :: back⟩ : Path).body = (⟨front⟩ : Path).body ++ (⟨back⟩ : Path).body := by
  rw [body, pieces_append_slash, List.filterMap_append]
  rfl

/-- **What is joined has the components of both,** if the second path is not absolute. -/
theorem body_join {p q : Path} (hq : q.isAbsolute = false) :
    (p.join q).body = p.body ++ q.body := by
  unfold join
  rw [hq, if_neg Bool.false_ne_true]
  split
  · case isTrue hend =>
    rw [Bool.or_eq_true, List.isEmpty_iff, beq_iff_eq] at hend
    obtain hempty | hslash := hend
    · -- Nothing is before the second path, and nothing has no component.
      have hp : p = ⟨[]⟩ := by rw [← hempty]
      rw [hp]
      rfl
    · -- The first path ends with a slash already, behind which there is an empty piece.
      obtain ⟨front, hfront⟩ := List.getLast?_eq_some_iff.mp hslash
      have hp : p = ⟨front ++ slash :: []⟩ := by rw [← hfront]
      have hjoined : p.bytes ++ q.bytes = front ++ slash :: q.bytes := by rw [hp]; simp
      rw [hjoined, body_append_slash, hp, body_append_slash]
      have hnil : (⟨[]⟩ : Path).body = [] := rfl
      rw [hnil, List.append_nil]
  · rw [body_append_slash]

/-- A path that is joined to another begins where the other does. -/
theorem isAbsolute_join {p q : Path} (hq : q.isAbsolute = false) :
    (p.join q).isAbsolute = p.isAbsolute := by
  unfold join
  rw [hq, if_neg Bool.false_ne_true]
  cases hbytes : p.bytes with
  | nil => simp [isAbsolute, hbytes] at hq ⊢; exact hq
  | cons b rest => split <;> simp [isAbsolute, hbytes]

theorem join_of_isAbsolute {p q : Path} (hq : q.isAbsolute = true) : p.join q = q := by
  rw [join, if_pos hq]

end FlagServer.Path
