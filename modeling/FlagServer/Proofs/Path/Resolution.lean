import FlagServer.FileSystem
import FlagServer.Proofs.Path.Components
import Mathlib.Logic.Relation

/-!
# Resolving a path by its spelling

To resolve a path by its spelling is to let every `..` cancel the name right before it, for as long
as there is one (`Cancels`). However this is done, the same is left in the end: some `..` that have
found no name, which are the `climbs` of the path, and after them the names that no `..` has taken,
which are `kept` (`reduces_iff`).

`normalize` does this with a stack, and it agrees about the names. About the climbs it does not: a
`..` that has found nothing lies on the stack like a name, and the next one takes it away. So two
climbs are none, and what stays is the remainder of their number by two (`components_normalize`).
From the root a single climb stays, although nothing is above the root.

So a path is resolved as it should be if it begins at the root and has an even number of climbs, or
if it does not begin there and has at most one. In the first case, and also with a climb from the
root, the resolved path leads where the path leads. In the second it does so for no more than one
climb, because all others are forgotten.
-/

namespace FlagServer.Path

/-! ## What lexical resolution leaves -/

/-- What is left when every `..` has cancelled the name before it. -/
structure Remains where
  /-- How many `..` have found no name before them. -/
  climbs : Nat := 0
  /-- The names that no `..` has cancelled. -/
  names : List (List UInt8) := []
  deriving DecidableEq

namespace Remains

/-- What is left after one component more. -/
def read (r : Remains) : Component → Remains
  | .root | .here => r
  | .up => if r.names = [] then { r with climbs := r.climbs + 1 } else
      { r with names := r.names.dropLast }
  | .name n => { r with names := r.names ++ [n] }

/-- The components that are left. -/
def form (r : Remains) : List Component :=
  List.replicate r.climbs .up ++ r.names.map .name

end Remains

/-- What is left of a list of components. -/
def remains (cs : List Component) : Remains :=
  cs.foldl Remains.read {}

/-- How many `..` of a path find no name to cancel. -/
def climbs (p : Path) : Nat :=
  (remains p.components).climbs

/-- The names of a path that no `..` cancels. -/
def kept (p : Path) : List (List UInt8) :=
  (remains p.components).names

/-- **The components that a path should be resolved to.** Above the root there is nothing, so that
the climbs of an absolute path are dropped. -/
def lexical (p : Path) : List Component :=
  if p.isAbsolute then .root :: p.kept.map .name else (remains p.components).form

@[simp] theorem remains_nil : remains [] = {} :=
  rfl

theorem remains_concat (cs : List Component) (c : Component) :
    remains (cs ++ [c]) = (remains cs).read c := by
  rw [remains, List.foldl_append]
  rfl

/-- The root is nothing that is left or cancelled. -/
theorem remains_base_append (p : Path) (cs : List Component) :
    remains (p.base ++ cs) = remains cs := by
  unfold base
  split <;> rfl

/-- Nor is a leading `.`. -/
theorem remains_lead_append (p : Path) (cs : List Component) :
    remains (p.lead ++ cs) = remains cs := by
  unfold lead
  split
  · rfl
  split <;> rfl

/-- So what is left of a path is what is left of its body. -/
theorem remains_components (p : Path) : remains p.components = remains p.body := by
  rw [components_eq, remains_lead_append]

/-- The climbs of a path are those of its body. -/
theorem climbs_eq (p : Path) : p.climbs = (remains p.body).climbs := by
  rw [climbs, remains_components]

/-- So are the names that it keeps. -/
theorem kept_eq (p : Path) : p.kept = (remains p.body).names := by
  rw [kept, remains_components]

/-! ## Cancelling -/

/-- One step of resolution: a `.` goes, or a name and the `..` right behind it go. -/
inductive Cancels : List Component → List Component → Prop where
  /-- A `.` is where one is already. -/
  | here (front back : List Component) : Cancels (front ++ .here :: back) (front ++ back)
  /-- A `..` leads out of the directory before it. -/
  | name (front : List Component) (n : List UInt8) (back : List Component) :
    Cancels (front ++ .name n :: .up :: back) (front ++ back)

/-- Any number of such steps. -/
abbrev Reduces : List Component → List Component → Prop :=
  Relation.ReflTransGen Cancels

/-- What is cancelled is cancelled in front of anything. -/
theorem Cancels.append_right {cs ds : List Component} (h : Cancels cs ds) (es : List Component) :
    Cancels (cs ++ es) (ds ++ es) := by
  cases h with
  | here front back =>
    simp only [List.append_assoc, List.cons_append]
    exact .here front (back ++ es)
  | name front n back =>
    simp only [List.append_assoc, List.cons_append]
    exact .name front n (back ++ es)

/-- So is what is reduced. -/
theorem Reduces.append_right {cs ds : List Component} (h : Reduces cs ds) (es : List Component) :
    Reduces (cs ++ es) (ds ++ es) := by
  induction h with
  | refl => exact .refl
  | tail _ hstep ih => exact ih.tail (hstep.append_right es)

/-- No step changes what is left. -/
theorem Cancels.remains_eq {cs ds : List Component} (h : Cancels cs ds) :
    remains ds = remains cs := by
  cases h with
  | here front back => simp [remains, Remains.read]
  | name front n back => simp [remains, Remains.read]

/-- So the order in which names are cancelled does not matter to what is left. -/
theorem Reduces.remains_eq {cs ds : List Component} (h : Reduces cs ds) :
    remains ds = remains cs := by
  induction h with
  | refl => rfl
  | tail _ hstep ih => rw [hstep.remains_eq, ih]

/-- Some climbs and names after them are what is left of themselves. -/
theorem remains_form (r : Remains) : remains r.form = r := by
  have hclimbs : ∀ k, remains (List.replicate k .up) = { climbs := k } := by
    intro k
    induction k with
    | zero => rfl
    | succ k ih =>
      rw [List.replicate_succ', remains_concat, ih]
      rfl
  -- The names come after all climbs, so that no `..` is behind a name.
  have hnames : ∀ names, remains (List.replicate r.climbs .up ++ names.map .name)
      = { climbs := r.climbs, names } := by
    intro names
    induction names using List.reverseRecOn with
    | nil =>
      rw [List.map_nil, List.append_nil]
      exact hclimbs r.climbs
    | append_singleton names n ih =>
      rw [List.map_append, ← List.append_assoc, List.map_singleton, remains_concat, ih]
      rfl
  exact hnames r.names

/-- **Everything can be reduced to what is left of it,** behind a beginning that has no name. -/
theorem reduces_form (front : List Component) {cs : List Component} (h : ∀ c ∈ cs, c ≠ .root) :
    Reduces (front ++ cs) (front ++ (remains cs).form) := by
  induction cs using List.reverseRecOn with
  | nil => exact .refl
  | append_singleton cs c ih =>
    rw [List.forall_mem_append] at h
    have hcs := (ih h.1).append_right [c]
    rw [List.append_assoc, List.append_assoc] at hcs
    refine hcs.trans ?_
    rw [remains_concat]
    -- What is left of the components before has climbs first and names last, so a `..` finds the
    -- last name or none.
    cases c with
    | root => exact absurd rfl (h.2 .root List.mem_cons_self)
    | here =>
      have hstep := Cancels.here (front ++ (remains cs).form) []
      rw [List.append_nil, List.append_assoc] at hstep
      exact .single hstep
    | name n =>
      have hform : ((remains cs).read (.name n)).form = (remains cs).form ++ [.name n] := by
        simp [Remains.read, Remains.form]
      rw [hform]
    | up =>
      obtain ⟨climbs, names⟩ := remains cs
      obtain hnil | ⟨names, n, rfl⟩ := List.eq_nil_or_concat' names
      · -- There is no name, and the `..` joins those that have found none before.
        have hform : (Remains.read ⟨climbs, names⟩ .up).form
            = (Remains.mk climbs names).form ++ [.up] := by
          simp [Remains.read, Remains.form, hnil, List.replicate_succ']
        rw [hform]
      · have hstep := Cancels.name (front ++ List.replicate climbs .up ++ names.map .name) n []
        have hform : (Remains.read ⟨climbs, names ++ [n]⟩ .up).form
            = List.replicate climbs .up ++ names.map .name := by
          simp [Remains.read, Remains.form]
        rw [hform]
        apply Relation.ReflTransGen.single
        simpa [Remains.form] using hstep

theorem body_ne_root (p : Path) : ∀ c ∈ p.body, c ≠ .root :=
  fun _ hc => (isSpelled_of_mem_body hc).ne_root

/-- A path is reduced to its climbs and the names that it keeps. -/
theorem reduces_components (p : Path) : Reduces p.components (p.base ++ (remains p.body).form) := by
  have hlead : Reduces p.components (p.base ++ p.body) := by
    rw [components_eq, lead, base]
    split
    · exact .refl
    split
    · exact .single (.here [] p.body)
    · exact .refl
  exact hlead.trans (reduces_form p.base p.body_ne_root)

/-- **However a path is reduced, in the end the same is left:** its climbs and the names that it
keeps. -/
theorem reduces_iff {p : Path} {r : Remains} :
    Reduces p.components (p.base ++ r.form) ↔ r = ⟨p.climbs, p.kept⟩ := by
  constructor
  · intro h
    have hremains := h.remains_eq
    rwa [remains_base_append, remains_form] at hremains
  · rintro rfl
    rw [climbs_eq, kept_eq]
    exact p.reduces_components

/-! ## The stack -/

/-- What lies on the stack: the names that are kept, and below them one `..` if the number of climbs
is odd. -/
def stack (base : List Component) (r : Remains) : List Component :=
  base ++ Remains.form { r with climbs := r.climbs % 2 }

/-- **One component more** on the stack. -/
theorem resolve_stack {p : Path} {r : Remains} {c : Component} (hc : c ≠ .root) :
    resolve (stack p.base r) c = stack p.base (r.read c) := by
  obtain ⟨climbs, names⟩ := r
  cases c with
  | root => exact absurd rfl hc
  | here => rfl
  | name n => simp [resolve, stack, Remains.read, Remains.form]
  | up =>
    obtain rfl | ⟨names, n, rfl⟩ := List.eq_nil_or_concat' names
    · obtain heven | hodd := Nat.mod_two_eq_zero_or_one climbs
      · -- Nothing is there to be taken away, and so the `..` is pushed.
        have hnext : (climbs + 1) % 2 = 1 := by omega
        have hlast : p.base.getLast? = none ∨ p.base.getLast? = some .root := by
          unfold base
          split <;> simp
        rcases hlast with hlast | hlast <;>
          simp [resolve, stack, Remains.read, Remains.form, heven, hnext, hlast]
      · -- A `..` lies there, and it is taken away as if it were a name.
        have hnext : (climbs + 1) % 2 = 0 := by omega
        simp [resolve, stack, Remains.read, Remains.form, hodd, hnext]
    · simp [resolve, stack, Remains.read, Remains.form]

/-- **All components** on the stack. -/
theorem foldl_resolve_stack {p : Path} {cs : List Component} (h : ∀ c ∈ cs, c ≠ .root)
    (r : Remains) : cs.foldl resolve (stack p.base r) = stack p.base (cs.foldl Remains.read r) := by
  induction cs generalizing r with
  | nil => rfl
  | cons c cs ih =>
    obtain ⟨hc, hcs⟩ := List.forall_mem_cons.mp h
    rw [List.foldl_cons, List.foldl_cons, resolve_stack hc, ih hcs]

/-- The root and a leading `.` only begin the stack. -/
theorem resolved_components (p : Path) : resolved p.components = p.body.foldl resolve p.base := by
  rw [components_eq, resolved, List.foldl_append, lead, base]
  split
  · rfl
  split <;> rfl

/-- **In the end** there lies on the stack what is left of the path, with its climbs counted by two.
-/
theorem resolved_eq (p : Path) : resolved p.components = stack p.base ⟨p.climbs, p.kept⟩ := by
  have hempty : stack p.base {} = p.base := List.append_nil _
  have h := foldl_resolve_stack (p := p) p.body_ne_root {}
  rw [hempty] at h
  rw [resolved_components, h, climbs_eq, kept_eq]
  rfl

/-! ## The resolved path -/

/-- A name that is left was read. -/
theorem mem_of_mem_names {cs : List Component} {n : List UInt8} (h : n ∈ (remains cs).names) :
    .name n ∈ cs := by
  induction cs using List.reverseRecOn with
  | nil => cases h
  | append_singleton cs c ih =>
    rw [remains_concat] at h
    rw [List.mem_append, List.mem_singleton]
    -- A `..` takes a name away, and only a name adds one.
    cases c with
    | root | here => exact .inl (ih h)
    | up =>
      simp only [Remains.read] at h
      split at h
      · exact .inl (ih h)
      · exact .inl (ih (List.dropLast_subset _ h))
    | name m =>
      obtain h | h := List.mem_append.mp h
      · exact .inl (ih h)
      · rw [List.mem_singleton.mp h]
        exact .inr rfl

/-- The names that a path keeps can be spelled, as they were. -/
theorem isSpelled_of_mem_kept {p : Path} {n : List UInt8} (h : n ∈ p.kept) :
    (Component.name n).IsSpelled := by
  rw [kept_eq] at h
  exact isSpelled_of_mem_body (mem_of_mem_names h)

/-- So can all that is left of it. -/
theorem isSpelled_of_mem_form {p : Path} {climbs : Nat} :
    ∀ c ∈ Remains.form ⟨climbs, p.kept⟩, c.IsSpelled := by
  intro c hc
  rw [Remains.form, List.mem_append] at hc
  obtain hc | hc := hc
  · rw [List.eq_of_mem_replicate hc]
    exact isSpelled_up
  · obtain ⟨n, hn, rfl⟩ := List.mem_map.mp hc
    exact isSpelled_of_mem_kept hn

/-- The resolved path begins where the path does. -/
theorem isAbsolute_normalize (p : Path) : p.normalize.isAbsolute = p.isAbsolute := by
  rw [normalize, resolved_eq, stack, base]
  cases habs : p.isAbsolute with
  | true => exact isAbsolute_iff.mpr ⟨_, rfl⟩
  | false => exact (lead_ofComponents isSpelled_of_mem_form).1

/-- **What a path is resolved to:** the names that it keeps, and before them one `..` if the number
of its climbs is odd. -/
theorem components_normalize (p : Path) :
    p.normalize.components = p.base ++ List.replicate (p.climbs % 2) .up ++ p.kept.map .name := by
  rw [normalize, resolved_eq, stack, base, List.append_assoc]
  cases p.isAbsolute with
  | true => exact components_ofComponents_root isSpelled_of_mem_form
  | false => exact components_ofComponents isSpelled_of_mem_form

theorem base_normalize (p : Path) : p.normalize.base = p.base := by
  rw [base, base, isAbsolute_normalize]

/-- What is left of the resolved path is what its components say, for there is nothing to cancel in
them. -/
theorem remains_normalize (p : Path) :
    remains p.normalize.components = ⟨p.climbs % 2, p.kept⟩ := by
  rw [components_normalize, List.append_assoc, remains_base_append]
  exact remains_form ⟨p.climbs % 2, p.kept⟩

theorem climbs_normalize (p : Path) : p.normalize.climbs = p.climbs % 2 := by
  rw [climbs, remains_normalize]

theorem kept_normalize (p : Path) : p.normalize.kept = p.kept := by
  rw [kept, remains_normalize]

/-- What a path should be resolved to, in the form of `components_normalize`. -/
theorem lexical_eq (p : Path) :
    p.lexical = p.base ++ List.replicate (if p.isAbsolute then 0 else p.climbs) .up
      ++ p.kept.map .name := by
  unfold lexical base
  split <;> rfl

/-- A path is resolved as it should be if none of its climbs is lost, and if none stays above the
root. -/
theorem components_normalize_eq_lexical_iff (p : Path) :
    p.normalize.components = p.lexical
      ↔ if p.isAbsolute then p.climbs % 2 = 0 else p.climbs ≤ 1 := by
  rw [components_normalize, lexical_eq, List.append_left_inj, List.append_right_inj,
    List.replicate_left_inj]
  split <;> omega

/-! ## Where a path leads

In a tree without links between directories, a `..` leads out of the directory that the name before
it has led into. So where a path leads can be said without the tree (`FileSystem.spelled`), and a
lookup that succeeds ends there.
-/

/-- From one location to the next. -/
def follow (l : Location) : Component → Location
  | .root => []
  | .here => l
  | .up => l.dropLast
  | .name n => l ++ [n]

/-- Where a path leads is found by following its components. -/
theorem spelled_eq (fs : FileSystem) (p : Path) :
    fs.spelled p = p.components.foldl follow fs.workingDirectory :=
  rfl

/-- A lookup goes from location to location as the components say, as long as nothing bars its way.
-/
theorem foldl_follow_of_walk {fs : FileSystem} {cs : List Component} {l found : Location}
    (h : fs.walk l cs = .ok found) : found = cs.foldl follow l := by
  induction cs generalizing l with
  | nil =>
    cases h
    rfl
  | cons c cs ih =>
    rw [FileSystem.walk.eq_def] at h
    simp only at h
    -- A barrier ends the lookup, so this component has been followed.
    split at h
    · cases h
    · cases c with
      | root | here | up | name n => exact ih h

/-- **A lookup that succeeds ends where the path leads.** -/
theorem eq_spelled_of_locate {fs : FileSystem} {p : Path} {l : Location}
    (h : fs.locate p = .ok l) : l = fs.spelled p := by
  unfold FileSystem.locate at h
  split at h
  · cases h
  split at h
  · cases h
  split at h
  · cases h
  · exact foldl_follow_of_walk h

/-- Every climb leads one directory up from where the path begins, and no further than to the root.
-/
theorem foldl_follow (l : Location) {cs : List Component} (h : ∀ c ∈ cs, c ≠ .root) :
    cs.foldl follow l = l.take (l.length - (remains cs).climbs) ++ (remains cs).names := by
  induction cs using List.reverseRecOn with
  | nil => simp
  | append_singleton cs c ih =>
    rw [List.forall_mem_append] at h
    rw [List.foldl_append, ih h.1, remains_concat, List.foldl_cons, List.foldl_nil]
    generalize remains cs = r
    cases c with
    | root => exact absurd rfl (h.2 .root List.mem_cons_self)
    | here => rfl
    | name n => simp [follow, Remains.read]
    | up =>
      obtain ⟨climbs, names⟩ := r
      obtain rfl | ⟨names, n, rfl⟩ := List.eq_nil_or_concat' names
      · -- There is no name, and the directory is left into which the climbs before have led.
        have hlength : (l.take (l.length - climbs)).length = l.length - climbs := by simp
        simp only [follow, Remains.read, if_true, List.append_nil]
        rw [List.dropLast_eq_take, hlength, List.take_take, Nat.sub_sub]
        congr 1
        omega
      · simp [follow, Remains.read]

/-- **Where a path leads is said by what is left of it:** up as many directories as it has climbs,
and down the names that it keeps. From the root there is no way up. -/
theorem spelled_of_remains (fs : FileSystem) (p : Path) :
    fs.spelled p
      = (if p.isAbsolute then []
          else fs.workingDirectory.take (fs.workingDirectory.length - p.climbs)) ++ p.kept := by
  have hbody := fun l => foldl_follow l p.body_ne_root
  rw [spelled_eq, components_eq, List.foldl_append, hbody, climbs_eq, kept_eq, lead]
  split
  · simp [follow]
  split <;> rfl

/-- **The resolved path leads where the path leads** if it begins at the root, where there is
nothing to climb to, or if at most one climb is in it. Where the path has more climbs than are left
of it, the two lead to different places from every directory that is deep enough. -/
theorem spelled_normalize_iff (p : Path) :
    (∀ fs : FileSystem, fs.spelled p.normalize = fs.spelled p)
      ↔ p.isAbsolute = true ∨ p.climbs ≤ 1 := by
  simp only [spelled_of_remains, isAbsolute_normalize, climbs_normalize, kept_normalize,
    List.append_left_inj]
  cases p.isAbsolute with
  | true => simp
  | false =>
    simp only [Bool.false_eq_true, if_false, false_or]
    constructor
    · intro h
      -- From as many directories below the root as there are climbs, they lead to the root.
      have hdeep := congrArg List.length
        (h { workingDirectory := List.replicate p.climbs [dot] })
      simp only [List.length_take, List.length_replicate] at hdeep
      omega
    · intro h fs
      have hmod : p.climbs % 2 = p.climbs := by omega
      rw [hmod]

/-! ## Main results -/

/-- **What resolving a path by its spelling does.** -/
structure Resolves (p : Path) : Prop where
  /-- However a path is reduced, the same climbs and names are left of it. -/
  leaves : ∀ r : Remains, Reduces p.components (p.base ++ r.form) ↔ r = ⟨p.climbs, p.kept⟩
  /-- The resolved path begins at the root if the path does. -/
  absolute : p.normalize.isAbsolute = p.isAbsolute
  /-- It keeps the names, and of the climbs only whether their number is odd. -/
  components : p.normalize.components
    = p.base ++ List.replicate (p.climbs % 2) .up ++ p.kept.map .name
  /-- So it is what it should be in these cases and in no other. -/
  lexical : p.normalize.components = p.lexical
    ↔ if p.isAbsolute then p.climbs % 2 = 0 else p.climbs ≤ 1
  /-- It leads where the path leads in these cases and in no other. -/
  leads : (∀ fs : FileSystem, fs.spelled p.normalize = fs.spelled p)
    ↔ p.isAbsolute = true ∨ p.climbs ≤ 1
  /-- In these cases a path with the same result is the same file, and a lookup of both that
  succeeds finds it. -/
  sameFile : ∀ q : Path, (p.isAbsolute = true ∨ p.climbs ≤ 1) →
    (q.isAbsolute = true ∨ q.climbs ≤ 1) → p.normalize = q.normalize → ∀ fs : FileSystem,
      fs.spelled p = fs.spelled q
        ∧ ∀ l l', fs.locate p = .ok l → fs.locate q = .ok l' → l = l'

/-- **What resolving a path by its spelling does,** for every path. The names that are left are
right in any case. Climbs are counted by two only, and so a path that does not begin at the root is
resolved as it should be if it has one at most, and one that does if their number is even. -/
theorem normalize_resolves (p : Path) : Resolves p where
  leaves _ := reduces_iff
  absolute := isAbsolute_normalize p
  components := components_normalize p
  lexical := components_normalize_eq_lexical_iff p
  leads := spelled_normalize_iff p
  sameFile q hp hq hsame fs := by
    have hspelled : fs.spelled p = fs.spelled q := by
      rw [← (spelled_normalize_iff p).mpr hp fs, hsame, (spelled_normalize_iff q).mpr hq fs]
    refine ⟨hspelled, fun l l' hl hl' => ?_⟩
    rw [eq_spelled_of_locate hl, eq_spelled_of_locate hl', hspelled]

/-- Two climbs are forgotten, so that a file two directories up is taken for one that is here, and a
climb from the root is not. -/
theorem climbs_forgotten :
    (ofString "../../a").normalize = ofString "a"
      ∧ (ofString "../../a").lexical = [.up, .up, .name [0x61]]
      ∧ (∃ fs : FileSystem, fs.spelled (ofString "../../a") ≠ fs.spelled (ofString "a"))
      ∧ (ofString "/..").normalize = ofString "/.."
      ∧ (ofString "/..").lexical = [.root] := by
  refine ⟨by decide +kernel, by decide +kernel,
    ⟨{ workingDirectory := [[0x62], [0x63]] }, by decide +kernel⟩, by decide +kernel,
    by decide +kernel⟩

end FlagServer.Path
