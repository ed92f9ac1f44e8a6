import FlagServer.Proofs.Path.Components
import Mathlib.Data.List.DropRight
import Mathlib.Data.List.Infix

/-!
# The directories above a path

Going up from a path cuts its spelling off after the last component but one. What is cut off with
the last component is all that means nothing before and behind it, so that a directory above a path
is the **shortest** beginning of its spelling that has its components (`IsAbove`). From an absolute
path one comes in this way to every beginning of its components but the empty one
(`exists_isAbove`), the longest first, and to nothing else (`mem_ancestors_iff`,
`pairwise_ancestors`).

The shortest beginning is known by its end: it is the root, or ends with a piece that is a component
(`EndsBare`). Each of its beginnings either has fewer components, or ends with a shorter piece,
which is another component.
-/

namespace FlagServer.Path

/-! ## What is above a path -/

/-- A directory above an absolute path: the path cut off after one of its components, which is not
the last. -/
structure IsAbove (d p : Path) : Prop where
  absolute : d.isAbsolute = true
  /-- It is a beginning of the path's spelling. -/
  spelling : d.bytes <+: p.bytes
  /-- It has some of the path's components, from the first on. -/
  components : d.components <+: p.components
  /-- It has not all of them. -/
  proper : d.components.length < p.components.length
  /-- No shorter beginning of the spelling has the same components. -/
  shortest : ∀ q : Path, q.bytes <+: p.bytes → q.components = d.components →
    d.bytes.length ≤ q.bytes.length

/-- Directories above one path with as many components as one another are the same. -/
theorem IsAbove.unique {d d' p : Path} (h : d.IsAbove p) (h' : d'.IsAbove p)
    (hlength : d.components.length = d'.components.length) : d = d' := by
  have hcomponents : d.components = d'.components :=
    (List.prefix_of_prefix_length_le h.components h'.components hlength.le).eq_of_length hlength
  have hle := h.shortest d' h'.spelling hcomponents.symm
  have hge := h'.shortest d h.spelling hcomponents
  have hbytes : d.bytes = d'.bytes :=
    (List.prefix_of_prefix_length_le h.spelling h'.spelling hle).eq_of_length (by omega)
  cases d
  cases d'
  exact congrArg Path.mk hbytes

/-! ## Beginnings of a spelling -/

theorem body_eq_tail {p : Path} (hp : p.isAbsolute = true) : p.body = p.components.tail := by
  rw [components_of_isAbsolute hp, List.tail_cons]

/-- A path is absolute if its first component is the root. -/
theorem isAbsolute_iff_head? {p : Path} :
    p.isAbsolute = true ↔ p.components.head? = some .root := by
  rw [components_eq, lead]
  constructor
  · intro hp
    rw [if_pos hp]
    rfl
  · intro hhead
    by_contra hp
    rw [if_neg hp] at hhead
    split at hhead
    · cases hhead
    · exact (isSpelled_of_mem_body (List.mem_of_mem_head? hhead)).ne_root rfl

theorem length_components_pos {p : Path} (hp : p.isAbsolute = true) : 0 < p.components.length := by
  rw [components_of_isAbsolute hp]
  exact Nat.succ_pos _

/-- What means nothing between slashes is nothing, or a `.`. -/
theorem componentOf?_eq_none_iff {piece : List UInt8} :
    componentOf? piece = none ↔ piece = [] ∨ piece = [dot] := by
  unfold componentOf?
  split
  · case isTrue hvoid =>
    rw [Bool.or_eq_true, List.isEmpty_iff, beq_iff_eq] at hvoid
    exact iff_of_true rfl hvoid
  · case isFalse hvoid =>
    rw [Bool.or_eq_true, List.isEmpty_iff, beq_iff_eq] at hvoid
    refine iff_of_false ?_ hvoid
    split <;> simp

theorem body_piece {piece : List UInt8} (h : slash ∉ piece) :
    (⟨piece⟩ : Path).body = (componentOf? piece).toList := by
  rw [body, pieces, Text.splitOn_of_not_mem h]
  cases hmeans : componentOf? piece <;> simp [hmeans]

theorem body_append_piece (front : List UInt8) {piece : List UInt8} (h : slash ∉ piece) :
    (⟨front ++ slash :: piece⟩ : Path).body
      = (⟨front⟩ : Path).body ++ (componentOf? piece).toList := by
  rw [body_append_slash, body_piece h]

/-- A piece that means a component means one when it is longer. -/
theorem length_componentOf?_concat (piece : List UInt8) (b : UInt8) :
    (componentOf? piece).toList.length ≤ (componentOf? (piece ++ [b])).toList.length := by
  by_cases hnone : componentOf? (piece ++ [b]) = none
  · -- Only `.` means nothing among what is not empty, and what is before its dot is empty.
    have hpiece : piece = [] := by
      obtain h | h := componentOf?_eq_none_iff.mp hnone
      · simp at h
      · exact (List.append_eq_singleton_iff.mp h).elim And.left fun h => absurd h.2 (by simp)
    have hempty : componentOf? piece = none := componentOf?_eq_none_iff.mpr (.inl hpiece)
    rw [hempty]
    exact Nat.zero_le _
  · obtain ⟨c, hc⟩ := Option.ne_none_iff_exists'.mp hnone
    rw [hc]
    exact Option.length_toList_le

/-- Whatever is spelled has a last piece. -/
theorem exists_lastPiece (bytes : List UInt8) :
    slash ∉ bytes ∨ ∃ front piece, bytes = front ++ slash :: piece ∧ slash ∉ piece := by
  by_cases hslash : slash ∈ bytes
  · obtain ⟨back, front, hreverse, hback⟩ :=
      List.eq_append_cons_of_mem (List.mem_reverse.mpr hslash)
    refine .inr ⟨front.reverse, back.reverse, ?_, by simpa using hback⟩
    rw [← List.reverse_reverse bytes, hreverse]
    simp
  · exact .inl hslash

/-- One byte more never takes a component away. -/
theorem length_body_concat (bytes : List UInt8) (b : UInt8) :
    (⟨bytes⟩ : Path).body.length ≤ (⟨bytes ++ [b]⟩ : Path).body.length := by
  by_cases hb : b = slash
  · rw [hb, body_append_slash, List.length_append]
    exact Nat.le_add_right _ _
  · have hmore : ∀ piece, slash ∉ piece → slash ∉ piece ++ [b] := by
      intro piece hpiece
      rw [List.mem_append, List.mem_singleton, not_or]
      exact ⟨hpiece, Ne.symm hb⟩
    obtain hbytes | ⟨front, piece, rfl, hpiece⟩ := exists_lastPiece bytes
    · rw [body_piece hbytes, body_piece (hmore bytes hbytes)]
      exact length_componentOf?_concat bytes b
    · rw [List.append_assoc, List.cons_append, body_append_piece front hpiece,
        body_append_piece front (hmore piece hpiece), List.length_append, List.length_append]
      exact Nat.add_le_add_left (length_componentOf?_concat piece b) _

/-- Nor do more bytes, so that a beginning has no more components than the whole. -/
theorem length_body_le {bytes more : List UInt8} (h : bytes <+: more) :
    (⟨bytes⟩ : Path).body.length ≤ (⟨more⟩ : Path).body.length := by
  obtain ⟨rest, rfl⟩ := h
  induction rest using List.reverseRecOn with
  | nil => rw [List.append_nil]
  | append_singleton rest b ih =>
    rw [← List.append_assoc]
    exact ih.trans (length_body_concat _ b)

/-- The path ends with its last component, with nothing behind it that means nothing. -/
inductive EndsBare : Path → Prop where
  | root : EndsBare ⟨[slash]⟩
  | component {front piece : List UInt8} {c : Component} (hmeans : componentOf? piece = some c)
    (hbare : slash ∉ piece) : EndsBare ⟨front ++ slash :: piece⟩

/-- **Such a path is the shortest spelling** among its beginnings. -/
theorem EndsBare.eq_of_beginning {p q : Path} (h : EndsBare p) (hp : p.isAbsolute = true)
    (hq : q.bytes <+: p.bytes) (hcomponents : q.components = p.components) : q = p := by
  have hqabs : q.isAbsolute = true := by
    rw [isAbsolute_iff_head?, hcomponents, ← isAbsolute_iff_head?]
    exact hp
  have hbody : q.body = p.body := by rw [body_eq_tail hqabs, body_eq_tail hp, hcomponents]
  cases h with
  | root =>
    obtain ⟨rest, hbytes⟩ := isAbsolute_iff.mp hqabs
    rw [hbytes, List.cons_prefix_cons, List.prefix_nil] at hq
    rw [hq.2] at hbytes
    cases q
    exact congrArg Path.mk hbytes
  | @component front piece c hmeans hbare =>
    rw [body_append_piece front hbare, hmeans, Option.toList_some] at hbody
    obtain ⟨rest, hrest⟩ := hq
    obtain ⟨more, hfront, -⟩ | ⟨more, hbytes, hpiece⟩ := List.append_eq_append_iff.mp hrest
    · -- The beginning ends before the last piece, and has fewer components.
      have hle := length_body_le ⟨more, hfront.symm⟩
      have hlength := congrArg List.length hbody
      rw [List.length_append, List.length_singleton] at hlength
      change q.body.length ≤ _ at hle
      omega
    · cases more with
      | nil =>
        have hlength := congrArg List.length hbody
        have hq : q = ⟨front⟩ := by
          cases q
          rw [List.append_nil] at hbytes
          exact congrArg Path.mk hbytes
        rw [hq, List.length_append, List.length_singleton] at hlength
        omega
      | cons b more =>
        -- It ends within the last piece, and with another component unless it is the whole.
        rw [List.cons_append, List.cons.injEq] at hpiece
        obtain ⟨rfl, hpiece⟩ := hpiece
        have hq : q = ⟨front ++ slash :: more⟩ := by
          cases q
          exact congrArg Path.mk hbytes
        have hmore : slash ∉ more := by
          intro hmem
          rw [hpiece] at hbare
          exact hbare (List.mem_append_left rest hmem)
        rw [hq, body_append_piece front hmore, List.append_cancel_left_eq] at hbody
        have hmeans' : componentOf? more = some c := by
          cases hcomponent : componentOf? more with
          | none =>
            rw [hcomponent] at hbody
            cases hbody
          | some c' =>
            rw [hcomponent] at hbody
            cases hbody
            rfl
        rw [hq, ← spelling_of_componentOf? hmeans', spelling_of_componentOf? hmeans]

/-! ## One step up -/

/-- Dropping pieces that mean nothing takes no component away. -/
theorem filterMap_dropVoid (pieces : List (List UInt8)) :
    (dropVoid pieces).filterMap componentOf? = pieces.filterMap componentOf? := by
  induction pieces using List.reverseRecOn with
  | nil => rfl
  | append_singleton pieces piece ih =>
    have hconcat : dropVoid (pieces ++ [piece])
        = if (componentOf? piece).isNone then dropVoid pieces else pieces ++ [piece] :=
      List.rdropWhile_concat _ _ _
    rw [hconcat]
    split
    · case isTrue hnone =>
      rw [Option.isNone_iff_eq_none] at hnone
      rw [ih, List.filterMap_append, List.filterMap_cons_none hnone]
      simp
    · rfl

theorem dropVoid_begins (pieces : List (List UInt8)) : dropVoid pieces <+: pieces :=
  List.rdropWhile_prefix _ _

/-- The last piece that is left means something. -/
theorem exists_of_dropVoid {pieces front : List (List UInt8)} {piece : List UInt8}
    (h : dropVoid pieces = front ++ [piece]) : ∃ c, componentOf? piece = some c := by
  have hne : dropVoid pieces ≠ [] := by
    rw [h]
    simp
  have hpiece : (dropVoid pieces).getLast hne = piece := by
    rw [List.getLast_congr hne (by simp) h, List.getLast_concat]
  have hlast : ¬ (componentOf? ((dropVoid pieces).getLast hne)).isNone :=
    List.rdropWhile_last_not (fun piece => (componentOf? piece).isNone) pieces hne
  rw [hpiece, Option.isNone_iff_eq_none] at hlast
  exact Option.ne_none_iff_exists'.mp hlast

/-- What one step up from an absolute path comes to. -/
structure StepsUp (p q : Path) : Prop where
  absolute : q.isAbsolute = true
  spelling : q.bytes <+: p.bytes
  components : q.components = p.components.dropLast
  bare : EndsBare q

/-- The components of an absolute path whose pieces after the root are given. -/
theorem components_slash_cons (rest : List UInt8) :
    (⟨slash :: rest⟩ : Path).components
      = .root :: (Text.splitOn slash rest).filterMap componentOf? := by
  have habs : (⟨slash :: rest⟩ : Path).isAbsolute = true := isAbsolute_iff.mpr ⟨rest, rfl⟩
  rw [components_eq, lead, if_pos habs, body, pieces, Text.splitOn_cons_self,
    List.filterMap_cons_none rfl]
  rfl

/-- A path of pieces of which the last means something, or of none. -/
theorem components_joinWith {pieces : List (List UInt8)} (h : ∀ piece ∈ pieces, slash ∉ piece) :
    (⟨slash :: Text.joinWith slash pieces⟩ : Path).components
      = .root :: pieces.filterMap componentOf? := by
  rw [components_slash_cons]
  by_cases hnil : pieces = []
  · rw [hnil]
    rfl
  · rw [Text.splitOn_joinWith hnil h]

/-- So a path of the pieces that are left ends bare. -/
theorem endsBare_joinWith {pieces : List (List UInt8)}
    (h : ∀ piece ∈ dropVoid pieces, slash ∉ piece) :
    EndsBare ⟨slash :: Text.joinWith slash (dropVoid pieces)⟩ := by
  obtain hnil | ⟨front, piece, hlast⟩ := List.eq_nil_or_concat' (dropVoid pieces)
  · rw [hnil]
    exact .root
  · obtain ⟨c, hmeans⟩ := exists_of_dropVoid hlast
    have hbare : slash ∉ piece := h piece (by simp [hlast])
    rw [hlast]
    by_cases hfront : front = []
    · have hends : EndsBare ⟨[] ++ slash :: piece⟩ := .component hmeans hbare
      rw [hfront]
      exact hends
    · rw [Text.joinWith_append hfront (by simp), ← List.cons_append]
      exact .component hmeans hbare

/-- **One step up** leaves the last component out, and there is none from the root. -/
theorem parent?_of_isAbsolute {p : Path} (hp : p.isAbsolute = true) :
    (p.parent? = none ∧ p.components = [.root])
      ∨ ∃ q, p.parent? = some q ∧ 1 < p.components.length ∧ StepsUp p q := by
  obtain ⟨rest, hbytes⟩ := isAbsolute_iff.mp hp
  obtain rfl : p = ⟨slash :: rest⟩ := by rw [← hbytes]
  have hanchor : (⟨slash :: rest⟩ : Path).anchor = [slash] := by rw [anchor, if_pos hp]
  have hcomponents := components_slash_cons rest
  rw [← filterMap_dropVoid] at hcomponents
  have hbare : ∀ piece ∈ dropVoid (Text.splitOn slash rest), slash ∉ piece := fun piece hpiece =>
    Text.not_mem_of_mem_splitOn ((dropVoid_begins _).subset hpiece)
  unfold parent?
  rw [hanchor]
  simp only [List.length_singleton, List.drop_succ_cons, List.drop_zero]
  obtain hnil | ⟨front, piece, hlast⟩ :=
    List.eq_nil_or_concat' (dropVoid (Text.splitOn slash rest))
  · -- No piece means anything.
    rw [hnil] at hcomponents ⊢
    exact .inl ⟨rfl, hcomponents⟩
  · obtain ⟨c, hmeans⟩ := exists_of_dropVoid hlast
    rw [hlast] at hcomponents hbare ⊢
    have hfront : ∀ piece ∈ dropVoid front, slash ∉ piece := fun piece hpiece =>
      hbare piece (List.mem_append_left _ ((dropVoid_begins front).subset hpiece))
    refine .inr ⟨⟨slash :: Text.joinWith slash (dropVoid front)⟩, by simp, ?_,
      isAbsolute_iff.mpr ⟨_, rfl⟩, ?_, ?_, endsBare_joinWith hfront⟩
    · rw [hcomponents]
      simp [hmeans]
    · have hpieces : dropVoid front <+: Text.splitOn slash rest := by
        refine (dropVoid_begins front).trans ((List.prefix_append front [piece]).trans ?_)
        rw [← hlast]
        exact dropVoid_begins _
      have hbegins : Text.joinWith slash (dropVoid front)
          <+: Text.joinWith slash (Text.splitOn slash rest) := Text.joinWith_prefix hpieces
      rw [Text.joinWith_splitOn] at hbegins
      exact List.cons_prefix_cons.mpr ⟨rfl, hbegins⟩
    · rw [components_joinWith hfront, hcomponents, filterMap_dropVoid, List.filterMap_append,
        List.filterMap_cons_some hmeans, List.filterMap_nil, ← List.cons_append,
        List.dropLast_concat]

/-- The directory that one step up leads to is above the path. -/
theorem StepsUp.isAbove {p q : Path} (h : StepsUp p q) (hlength : 1 < p.components.length) :
    q.IsAbove p where
  absolute := h.absolute
  spelling := h.spelling
  components := by
    rw [h.components]
    exact List.dropLast_prefix _
  proper := by
    rw [h.components, List.length_dropLast]
    omega
  shortest := by
    intro r hr hcomponents
    by_contra hlt
    have hle : r.bytes.length ≤ q.bytes.length := by omega
    have hbegins := List.prefix_of_prefix_length_le hr h.spelling hle
    rw [h.bare.eq_of_beginning h.absolute hbegins hcomponents] at hlt
    exact hlt (Nat.le_refl _)

/-! ## All the way up -/

/-- What is above a directory above a path is above the path. -/
theorem IsAbove.trans {d q p : Path} (h : d.IsAbove q) (h' : q.IsAbove p) : d.IsAbove p where
  absolute := h.absolute
  spelling := h.spelling.trans h'.spelling
  components := h.components.trans h'.components
  proper := h.proper.trans h'.proper
  shortest := by
    intro r hr hcomponents
    -- A shorter spelling that is longer than the directory between is longer than the upper one
    -- too.
    obtain hle | hge := Nat.le_total r.bytes.length q.bytes.length
    · exact h.shortest r (List.prefix_of_prefix_length_le hr h'.spelling hle) hcomponents
    · exact h.spelling.length_le.trans hge

/-- What is above a path is where one step up leads, or above that. -/
theorem StepsUp.isAbove_iff {d p q : Path} (h : StepsUp p q) (hlength : 1 < p.components.length) :
    d.IsAbove p ↔ d = q ∨ d.IsAbove q := by
  have hq := h.isAbove hlength
  refine ⟨fun hd => ?_, fun hd => ?_⟩
  · have hle : d.components.length ≤ q.components.length := by
      have hproper := hd.proper
      rw [h.components, List.length_dropLast]
      omega
    obtain heq | hlt := hle.eq_or_lt
    · exact .inl (hd.unique hq heq)
    · refine .inr ⟨hd.absolute, ?_, ?_, hlt, ?_⟩
      · -- With fewer components it is shorter too.
        refine List.prefix_of_prefix_length_le hd.spelling hq.spelling ?_
        by_contra hlonger
        have hbegins := List.prefix_of_prefix_length_le hq.spelling hd.spelling (by omega)
        have hbody := length_body_le hbegins
        change q.body.length ≤ d.body.length at hbody
        rw [body_eq_tail h.absolute, body_eq_tail hd.absolute, List.length_tail,
          List.length_tail] at hbody
        have hpos := length_components_pos hd.absolute
        omega
      · exact List.prefix_of_prefix_length_le hd.components hq.components hle
      · exact fun r hr hcomponents => hd.shortest r (hr.trans hq.spelling) hcomponents
  · obtain rfl | hd := hd
    · exact hq
    · exact hd.trans hq

/-- **Every beginning of the components has a directory,** unless it is empty or the whole. -/
theorem exists_isAbove {p : Path} (hp : p.isAbsolute = true) {cs : List Component} (hne : cs ≠ [])
    (hcs : cs <+: p.components) (hproper : cs.length < p.components.length) :
    ∃ d : Path, d.IsAbove p ∧ d.components = cs := by
  have hpos := List.length_pos_iff.mpr hne
  -- By induction on how far there is to go up.
  induction hlength : p.components.length generalizing p with
  | zero => omega
  | succ n ih =>
    obtain ⟨-, hroot⟩ | ⟨q, -, hmore, hstep⟩ := parent?_of_isAbsolute hp
    · rw [hroot, List.length_singleton] at hproper
      omega
    · have hq := hstep.isAbove hmore
      have hqlength : q.components.length = n := by
        rw [hstep.components, List.length_dropLast]
        omega
      have hbegins : cs <+: q.components :=
        List.prefix_of_prefix_length_le hcs hq.components (by omega)
      obtain heq | hlt := hbegins.length_le.eq_or_lt
      · exact ⟨q, hq, (hbegins.eq_of_length heq).symm⟩
      · obtain ⟨d, hd, hcomponents⟩ := ih hstep.absolute hbegins hlt hqlength
        exact ⟨d, hd.trans hq, hcomponents⟩

/-- Nothing is above the root. -/
theorem not_isAbove_of_length_le {d p : Path} (h : p.components.length ≤ 1) : ¬ d.IsAbove p := by
  intro hd
  have hpos := length_components_pos hd.absolute
  have hproper := hd.proper
  omega

/-- Going up often enough leads to everything above the path. -/
theorem mem_ancestorsUpTo_iff {count : Nat} {p d : Path} (hp : p.isAbsolute = true)
    (hcount : p.components.length ≤ count + 1) : d ∈ ancestorsUpTo count p ↔ d.IsAbove p := by
  induction count generalizing p with
  | zero => exact iff_of_false List.not_mem_nil (not_isAbove_of_length_le hcount)
  | succ count ih =>
    rw [ancestorsUpTo]
    obtain ⟨hnone, hroot⟩ | ⟨q, hparent, hlength, hstep⟩ := parent?_of_isAbsolute hp
    · rw [hnone]
      exact iff_of_false List.not_mem_nil (not_isAbove_of_length_le (by simp [hroot]))
    · have hcount' : q.components.length ≤ count + 1 := by
        rw [hstep.components, List.length_dropLast]
        omega
      rw [hparent, hstep.isAbove_iff hlength]
      exact List.mem_cons.trans (or_congr_right (ih hstep.absolute hcount'))

/-- Each step up leads to fewer components. -/
theorem pairwise_ancestorsUpTo {count : Nat} {p : Path} (hp : p.isAbsolute = true)
    (hcount : p.components.length ≤ count + 1) :
    (ancestorsUpTo count p).Pairwise fun d d' => d'.components.length < d.components.length := by
  induction count generalizing p with
  | zero => exact .nil
  | succ count ih =>
    rw [ancestorsUpTo]
    obtain ⟨hnone, -⟩ | ⟨q, hparent, hlength, hstep⟩ := parent?_of_isAbsolute hp
    · rw [hnone]
      exact .nil
    · have hcount' : q.components.length ≤ count + 1 := by
        rw [hstep.components, List.length_dropLast]
        omega
      rw [hparent]
      refine .cons (fun d hd => ?_) (ih hstep.absolute hcount')
      exact ((mem_ancestorsUpTo_iff hstep.absolute hcount').mp hd).proper

/-- A path has no more components than bytes, and one. -/
theorem length_components_le {p : Path} (hp : p.isAbsolute = true) :
    p.components.length ≤ p.bytes.length + 1 := by
  obtain ⟨rest, hbytes⟩ := isAbsolute_iff.mp hp
  obtain rfl : p = ⟨slash :: rest⟩ := by rw [← hbytes]
  rw [components_slash_cons, List.length_cons, List.length_cons]
  have hpieces : (Text.splitOn slash rest).length ≤ rest.length + 1 := Text.length_splitOn_le rest
  have hcomponents := List.length_filterMap_le componentOf? (Text.splitOn slash rest)
  omega

/-- **The ancestors of an absolute path are all that is above it.** -/
theorem mem_ancestors_iff {p d : Path} (hp : p.isAbsolute = true) :
    d ∈ p.ancestors ↔ d.IsAbove p :=
  mem_ancestorsUpTo_iff hp ((length_components_le hp).trans (Nat.le_succ _))

/-- **The nearest comes first.** -/
theorem pairwise_ancestors {p : Path} (hp : p.isAbsolute = true) :
    p.ancestors.Pairwise fun d d' => d'.components.length < d.components.length :=
  pairwise_ancestorsUpTo hp ((length_components_le hp).trans (Nat.le_succ _))

/-- Before each of them stand the deeper ones. -/
theorem mem_front_iff {p d d' : Path} {front back : List Path} (hp : p.isAbsolute = true)
    (hsplit : p.ancestors = front ++ d :: back) :
    d' ∈ front ↔ d'.IsAbove p ∧ d.components.length < d'.components.length := by
  have hpairwise := pairwise_ancestors hp
  rw [hsplit] at hpairwise
  obtain ⟨-, hback, hfront⟩ := List.pairwise_append.mp hpairwise
  constructor
  · intro hd'
    exact ⟨(mem_ancestors_iff hp).mp (by simp [hsplit, hd']),
      hfront d' hd' d List.mem_cons_self⟩
  · rintro ⟨habove, hdeeper⟩
    have hmem := (mem_ancestors_iff hp).mpr habove
    rw [hsplit, List.mem_append, List.mem_cons] at hmem
    obtain hd' | rfl | hd' := hmem
    · exact hd'
    · exact absurd hdeeper (Nat.lt_irrefl _)
    · exact absurd hdeeper (Nat.lt_asymm ((List.pairwise_cons.mp hback).1 d' hd'))

end FlagServer.Path
