import FlagServer.Proofs.Database.Loading
import FlagServer.Proofs.Path.Resolution
import Mathlib.Data.Set.List

/-!
# What flags cover

A database of flags has a command for a path if the components of its directory begin those of the
path. The path is resolved before it is looked at, and the directory is not. So the two agree with
what they mean only if the directory is spelled without `..`, and the resolved path has no `..` left
above the root.

Under these two conditions the flags cover exactly the files below their directory. A directory that
is spelled with a detour covers nothing at all, because no resolved path has a `..` behind a name.
And a path with a climb too many from the root is covered by flags in the root only, whatever
directory it is in.
-/

namespace FlagServer

namespace Path

/-! ## Beginnings of resolved paths -/

/-- What some climbs and names begin with is some climbs and names. -/
theorem exists_form_of_prefix {cs : List Component} {r : Remains} (h : cs <+: r.form) :
    ∃ r' : Remains, cs = r'.form := by
  obtain ⟨rest, hrest⟩ := h
  obtain ⟨more, hclimbs, -⟩ | ⟨more, hcs, hnames⟩ := List.append_eq_append_iff.mp hrest
  · -- The beginning ends among the climbs.
    refine ⟨{ climbs := cs.length }, ?_⟩
    rw [Remains.form, List.map_nil, List.append_nil, List.eq_replicate_iff]
    refine ⟨rfl, fun c hc => ?_⟩
    apply List.eq_of_mem_replicate (n := r.climbs)
    rw [hclimbs]
    exact List.mem_append_left more hc
  · obtain ⟨names, -, -, hmore, -⟩ := List.map_eq_append_iff.mp hnames
    refine ⟨{ climbs := r.climbs, names }, ?_⟩
    rw [hcs, Remains.form, hmore]

/-- An absolute path is resolved to the root and to what is left of it, with one climb at most. -/
theorem components_normalize_of_isAbsolute {p : Path} (hp : p.isAbsolute = true) :
    p.normalize.components = .root :: Remains.form ⟨p.climbs % 2, p.kept⟩ := by
  rw [components_normalize, base, if_pos hp, List.append_assoc]
  rfl

/-- A path that is spelled without `..` keeps all its names. -/
theorem body_of_not_mem {p : Path} (h : .up ∉ p.components) : p.body = p.kept.map .name := by
  -- Only names are left: the root and `.` do not stand in a body, and `..` does not by assumption.
  have hnames : ∀ c ∈ p.body, ∃ n, c = .name n := by
    intro c hc
    have hspelled := isSpelled_of_mem_body hc
    cases c with
    | root => exact absurd rfl hspelled.ne_root
    | here => exact absurd rfl hspelled.ne_here
    | up =>
      rw [components_eq] at h
      exact absurd (List.mem_append_right p.lead hc) h
    | name n => exact ⟨n, rfl⟩
  obtain ⟨names, hbody⟩ : p.body ∈ Set.range (List.map Component.name) := by
    rw [Set.range_list_map]
    exact fun c hc => (hnames c hc).imp fun _ hn => hn.symm
  have hform : p.body = Remains.form { names } := hbody.symm
  rw [kept_eq, hform, remains_form, ← hform, hbody]

/-- **A directory begins a resolved path** in which it is spelled without `..`, and then by its
names. -/
theorem components_prefix_iff {d p : Path} (hd : d.isAbsolute = true) (hbelow : d.climbs = 0)
    (hp : p.isAbsolute = true) :
    d.components <+: p.normalize.components
      ↔ .up ∉ d.components
        ∧ d.kept.map .name <+: Remains.form ⟨p.climbs % 2, p.kept⟩ := by
  rw [components_normalize_of_isAbsolute hp, components_of_isAbsolute hd, List.cons_prefix_cons]
  constructor
  · rintro ⟨-, hprefix⟩
    -- The directory begins climbs and names, so it is of that form itself. As it climbs nowhere, it
    -- is names only.
    obtain ⟨r, hr⟩ := exists_form_of_prefix hprefix
    have hremains : remains d.body = r := by rw [hr, remains_form]
    have hbody : d.body = d.kept.map .name := by
      rw [climbs_eq, hremains] at hbelow
      rw [kept_eq, hremains, hr, Remains.form, hbelow]
      rfl
    rw [← hbody]
    refine ⟨?_, hprefix⟩
    rw [hbody]
    simp
  · rintro ⟨hup, hprefix⟩
    rw [← components_of_isAbsolute hd] at hup
    rw [body_of_not_mem hup]
    exact ⟨rfl, hprefix⟩

theorem name_injective : Function.Injective Component.name := by
  intro m n h
  cases h
  rfl

end Path

namespace Database

/-! ## Main result -/

/-- The command that flags make for a path. -/
def flagsCommand (directory : Path) (flags : List String) (p : Path) : CompileCommand where
  directory
  file := p.normalize
  arguments := flagsCompiler :: flags ++ [p.normalize.textLossy]
  output := none

/-- Flags have one command for the paths that their directory begins, and none for others. -/
theorem commandsFor_flags (directory : Path) (flags : List String) (p : Path) :
    (Database.flags directory flags).commandsFor p
      = if directory.components <+: p.normalize.components then [flagsCommand directory flags p]
        else [] := by
  simp only [commandsFor, Path.startsWith, List.isPrefixOf_iff_prefix]
  rfl

/-- **What the flags of a directory cover.** -/
structure Covers (contents : String) (d p : Path) (flags : List String) : Prop where
  /-- The flags are those on the lines of the text. -/
  read : FlagsIn contents flags
  /-- Flags in a directory that is spelled without `..` cover the files below it. -/
  below : .up ∉ d.components → p.climbs % 2 = 0 →
    (parseFlags contents d).commandsFor p
      = if d.kept <+: p.kept then [flagsCommand d flags p] else []
  /-- The path has a `..` left above the root, where only the root has it. -/
  above : .up ∉ d.components → p.climbs % 2 = 1 →
    (parseFlags contents d).commandsFor p
      = if d.kept = [] then [flagsCommand d flags p] else []
  /-- Flags in a directory that is spelled with a `..` cover nothing. -/
  detour : .up ∈ d.components → (parseFlags contents d).commandsFor p = []

/-- **What flags cover is said by the two spellings.** A directory that is spelled without `..`
covers exactly the files below it, as far as their paths have no `..` left above the root; one that
is spelled with a detour covers none. All of it comes from `components_prefix_iff`, which says when
a directory begins a resolved path. -/
theorem flags_cover {contents : String} {d p : Path} (hd : d.isAbsolute = true)
    (hbelow : d.climbs = 0) (hp : p.isAbsolute = true) : ∃ flags, Covers contents d p flags := by
  have hcommands := commandsFor_flags d ((flagLines contents.toList).map String.ofList) p
  simp only [Path.components_prefix_iff hd hbelow hp] at hcommands
  refine ⟨_, flagsIn_iff.mpr rfl, fun hup heven => ?_, fun hup hodd => ?_, fun hup => ?_⟩
  · rw [parseFlags, hcommands]
    simp only [hup, not_false_eq_true, true_and, Path.Remains.form, heven, List.replicate_zero,
      List.nil_append, List.prefix_map_iff_of_injective Path.name_injective]
  · rw [parseFlags, hcommands]
    simp only [hup, not_false_eq_true, true_and, Path.Remains.form, hodd, List.replicate_one,
      List.singleton_append]
    -- The resolved path has a `..` right after the root, and no name is one.
    cases d.kept with
    | nil => simp
    | cons n names => simp
  · rw [parseFlags, hcommands, if_neg fun h => h.1 hup]

/-- Flags in a directory with a detour, where none of their files gets them, and without it. -/
theorem flags_cover_twoSpellings :
    (∃ flags, Covers " -DX\r\n\n-I a\n" (.ofString "/p//q/.") (.ofString "/p/q/x/../a.c") flags)
      ∧ ∃ flags, Covers "-DX\n" (.ofString "/p/../q/") (.ofString "/q/a.c") flags :=
  ⟨flags_cover (by decide +kernel) (by decide +kernel) (by decide +kernel),
    flags_cover (by decide +kernel) (by decide +kernel) (by decide +kernel)⟩

/-- The file is below the directory, and so is a file that is spelled with a climb from the root,
but there is no command for either. -/
theorem detour_covers_nothing :
    (Path.ofString "/proj/../q").climbs = 0
      ∧ (Path.ofString "/proj/../q").lexical <+: (Path.ofString "/q/a.c").lexical
      ∧ (parseFlags "-DX\n" (.ofString "/proj/../q")).commandsFor (.ofString "/q/a.c") = []
      ∧ (Path.ofString "/q").lexical <+: (Path.ofString "/../q/a.c").lexical
      ∧ (parseFlags "-DX\n" (.ofString "/q")).commandsFor (.ofString "/../q/a.c") = [] := by
  decide +kernel

end Database

end FlagServer
