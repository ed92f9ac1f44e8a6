import FlagServer.Proofs.Build.Operations

/-!
# The index store that is known

A database is searched for its index store once in each generation, and what is found is kept
together with the number of the generation. `index_store_current` says that nobody can tell: as long
as the numbers of the generations have not come round, every question for the index store is
answered as if the database that is loaded were searched again.

What a search finds is said without it. Of the arguments of one command, the last index-store flag
counts that another argument follows (`NamesStore`); of all commands, the first counts that has such
a flag (`StoresAt`). A flag at the end of its command has no value, and it hides no earlier one.

`Fresh` carries the proof: the generation is the number of replacements, and what is kept for the
present generation is what a search finds now.
-/

namespace FlagServer

namespace Database

/-! ## What a search finds -/

/-- No index-store flag has a value. -/
def NamesNoStore (arguments : List String) : Prop :=
  ∀ value, ¬ [indexStoreFlag, value] <:+: arguments

/-- The last index-store flag with a value has this one. -/
def NamesStore (arguments : List String) (value : String) : Prop :=
  ∃ front back, arguments = front ++ indexStoreFlag :: value :: back
    ∧ NamesNoStore (value :: back)

/-- The database says that its index store is at this path. -/
inductive StoresAt : Database → Path → Prop where
  /-- The first command that names an index store names this one, seen from its directory. -/
  | commands {before after : List CompileCommand} {c : CompileCommand} {value : String}
    (index : List (Path × List Nat)) (hbefore : ∀ b ∈ before, NamesNoStore b.arguments)
    (hc : NamesStore c.arguments value) :
    StoresAt (.commands (before ++ c :: after) index) (c.directory.join (.ofString value)).normalize
  /-- The flags name this index store, seen from their directory. -/
  | flags {arguments : List String} {value : String} (directory : Path)
    (harguments : NamesStore arguments value) :
    StoresAt (.flags directory arguments) (directory.join (.ofString value)).normalize

/-- Of two arguments or more, the first is no flag with a value and there is none later. -/
theorem namesNoStore_cons_iff (a b : String) (rest : List String) :
    NamesNoStore (a :: b :: rest) ↔ a ≠ indexStoreFlag ∧ NamesNoStore (b :: rest) := by
  -- The flag is the first argument, or comes later.
  have hfirst : ∀ value, [indexStoreFlag, value] <:+: a :: b :: rest
      ↔ [indexStoreFlag, value] <+: a :: b :: rest ∨ [indexStoreFlag, value] <:+: b :: rest :=
    fun value => List.infix_cons_iff
  simp only [NamesNoStore, hfirst, List.cons_prefix_cons, List.nil_prefix, and_true, not_or,
    forall_and]
  refine and_congr ⟨fun h ha => h b ⟨ha.symm, rfl⟩, fun h _ heq => h heq.1.symm⟩ Iff.rfl

/-- A search of the arguments of a command finds nothing exactly if no flag among them has a value.
-/
theorem indexStoreArgument?_eq_none_iff (arguments : List String) :
    indexStoreArgument? arguments = none ↔ NamesNoStore arguments := by
  fun_induction indexStoreArgument? arguments with
  | case1 a b rest value hvalue ih =>
    rw [namesNoStore_cons_iff, ← ih, hvalue]
    simp
  | case2 a b rest hnone ha ih =>
    rw [namesNoStore_cons_iff]
    simp [eq_of_beq ha]
  | case3 a b rest hnone ha ih =>
    rw [namesNoStore_cons_iff, ← ih]
    simpa [hnone] using ha
  | case4 arguments hshort =>
    refine iff_of_true rfl fun value hinfix => ?_
    -- With fewer than two arguments there is no room for a flag and its value.
    match arguments with
    | [] => simpa using hinfix.length_le
    | [a] => simpa using hinfix.length_le
    | a :: b :: rest => exact hshort a b rest rfl

/-- What is found among later arguments is not affected by an earlier one. -/
theorem indexStoreArgument?_cons {rest : List String} {value : String}
    (h : indexStoreArgument? rest = some value) (a : String) :
    indexStoreArgument? (a :: rest) = some value := by
  cases rest with
  | nil => cases h
  | cons b rest => rw [indexStoreArgument?, h]

/-- A flag with a value is found behind whatever stands in front of it, if none follows it. -/
theorem indexStoreArgument?_append {value : String} {back : List String}
    (hback : indexStoreArgument? (value :: back) = none) (front : List String) :
    indexStoreArgument? (front ++ indexStoreFlag :: value :: back) = some value := by
  induction front with
  | nil => simp [indexStoreArgument?, hback]
  | cons a front ih => exact indexStoreArgument?_cons ih a

/-- **The last flag with a value counts.** The search looks behind a flag before it takes it, so the
cases are those of its recursion. -/
theorem indexStoreArgument?_eq_some_iff (arguments : List String) (value : String) :
    indexStoreArgument? arguments = some value ↔ NamesStore arguments value := by
  constructor
  · intro h
    fun_induction indexStoreArgument? arguments with
    | case1 a b rest found hfound ih =>
      obtain ⟨front, back, hrest, hlast⟩ := ih (hfound.trans h)
      exact ⟨a :: front, back, by rw [hrest]; rfl, hlast⟩
    | case2 a b rest hnone ha ih =>
      cases h
      rw [eq_of_beq ha]
      -- Nothing is found behind this flag, so this is the last.
      exact ⟨[], rest, rfl, (indexStoreArgument?_eq_none_iff _).mp hnone⟩
    | case3 => cases h
    | case4 => cases h
  · rintro ⟨front, back, rfl, hlast⟩
    exact indexStoreArgument?_append ((indexStoreArgument?_eq_none_iff _).mpr hlast) front

/-- **A search finds the index store that the database names.** -/
theorem indexStorePath?_eq_some_iff (db : Database) (path : Path) :
    db.indexStorePath? = some path ↔ db.StoresAt path := by
  constructor
  · intro h
    cases db with
    | commands list index =>
      -- The first command that names an index store splits the list.
      obtain ⟨before, c, after, rfl, hc, hbefore⟩ := List.findSome?_eq_some_iff.mp h
      obtain ⟨value, hvalue, rfl⟩ := Option.map_eq_some_iff.mp hc
      refine .commands index (fun b hb => ?_) ((indexStoreArgument?_eq_some_iff _ _).mp hvalue)
      exact (indexStoreArgument?_eq_none_iff _).mp (Option.map_eq_none_iff.mp (hbefore b hb))
    | flags directory arguments =>
      obtain ⟨value, hvalue, rfl⟩ := Option.map_eq_some_iff.mp h
      exact .flags directory ((indexStoreArgument?_eq_some_iff _ _).mp hvalue)
  · intro h
    cases h with
    | commands index hbefore hc =>
      refine List.findSome?_eq_some_iff.mpr ⟨_, _, _, rfl, ?_, fun b hb => ?_⟩
      · rw [(indexStoreArgument?_eq_some_iff _ _).mpr hc]
        rfl
      · rw [(indexStoreArgument?_eq_none_iff _).mpr (hbefore b hb)]
        rfl
    | flags directory harguments =>
      rw [indexStorePath?, (indexStoreArgument?_eq_some_iff _ _).mpr harguments]
      rfl

end Database

namespace DatabaseSystem

/-! ## What is kept -/

/-- What is kept of the index store is not out of date: the generation counts the replacements, and
an entry for the present generation holds what a search finds now. -/
structure Fresh (s : DatabaseSystem) (replaced : Nat) : Prop where
  /-- The generation is the number of replacements, as far as it can count. -/
  generation : s.generation = UInt64.ofNat replaced
  /-- An entry was made in this generation or in an earlier one. -/
  known : ∀ g path, s.knownStore = some (g, path) →
    ∃ n ≤ replaced, g = UInt64.ofNat n ∧ (n = replaced → path = s.storeNow)
  /-- The database was read from a file. -/
  read : ∀ db, s.database = some db → db.IsRead

namespace Fresh

variable {s s' : DatabaseSystem} {replaced : Nat} {o : Operation}

/-- A replacement makes every entry one of an earlier generation. -/
theorem replace (hs : s.Fresh replaced) {database : Option Database}
    (hread : ∀ db, database = some db → db.IsRead) :
    (s.replace database).Fresh (replaced + 1) where
  generation := by
    change s.generation + 1 = _
    rw [hs.generation, UInt64.ofNat_add]
    rfl
  known := by
    intro g path hknown
    obtain ⟨n, hn, hg, -⟩ := hs.known g path hknown
    exact ⟨n, by omega, hg, fun heq => by omega⟩
  read := hread

/-- Whatever an operation makes of the system keeps it fresh. A replacement begins a new generation,
and an entry that is made without one is what a search finds now. -/
theorem becomes (hs : s.Fresh replaced) {replaces : Bool} (h : Becomes o s s' replaces) :
    s'.Fresh (replaced + if replaces then 1 else 0) := by
  cases h with
  | stays hdatabase hgeneration hknown =>
    have hstore : s'.storeNow = s.storeNow := by rw [storeNow, storeNow, hdatabase]
    refine ⟨hgeneration.trans hs.generation, fun g path hentry => ?_, ?_⟩
    · rw [hstore]
      -- Either the entry is the old one, or it was made just now.
      obtain hsame | ⟨-, hlooked⟩ := hknown
      · exact hs.known g path (hsame ▸ hentry)
      · rw [hlooked] at hentry
        cases hentry
        exact ⟨replaced, Nat.le_refl _, hs.generation, fun _ => rfl⟩
    · rw [hdatabase]
      exact hs.read
  | finds hnone hread hs' =>
    rw [hs']
    exact hs.replace fun db hdb => Option.some.inj hdb ▸ hread
  | loads hreloads hread hs' =>
    rw [hs']
    exact hs.replace hread

/-- A system starts out fresh, and what it loads from its root is the first replacement. -/
theorem create (disk : FileSystem) (root : Option Path) :
    (DatabaseSystem.create disk root).Fresh (if root.isSome then 1 else 0) := by
  have hnew : Fresh { root } 0 := ⟨rfl, nofun, nofun⟩
  cases root with
  | none => exact hnew
  | some directory => exact hnew.replace fun db => Database.isRead_of_loadOrNone

/-- While the numbers have not come round, an entry for the present generation is one of the present
generation. -/
theorem indexStore_fst (hs : s.Fresh replaced) (hfew : replaced < UInt64.size) :
    s.indexStore.1 = s.storeNow := by
  obtain ⟨hknown, -⟩ | ⟨-, hlooked, -⟩ := indexStore_cases s
  · obtain ⟨n, hn, hsame, hpath⟩ := hs.known _ _ hknown
    -- The numbers are compared as words of 64 bits. As neither reaches 2^64 they are the same.
    have hnumbers : replaced = n := by
      rw [hs.generation] at hsame
      have hmod := congrArg UInt64.toNat hsame
      rwa [UInt64.toNat_ofNat_of_lt' hfew,
        UInt64.toNat_ofNat_of_lt' (Nat.lt_of_le_of_lt hn hfew)] at hmod
    exact hpath hnumbers.symm
  · exact hlooked

end Fresh

namespace Site

variable {s : Site}

/-- What is kept stays fresh through every event. -/
theorem fresh_run (h : s.system.Fresh s.replaced) (events : List Event) :
    (s.run events).system.Fresh (s.run events).replaced := by
  induction events generalizing s with
  | nil => exact h
  | cons e events ih =>
    rw [run_cons]
    cases e with
    | operation o => exact ih (h.becomes (becomes_perform s.disk s.system o))
    | disk disk => exact ih h

end Site

/-! ## Questions for the index -/

/-- **Questions for the index are answered from the database that is loaded.** -/
structure IndexCurrent (s : DatabaseSystem) : Prop where
  /-- The loaded database has the commands of its file in their order, or flags. -/
  read : ∀ db, s.database = some db → db.IsRead
  /-- The index store is the one that the loaded database names. Without a database, or if it names
  none, there is none. -/
  store : ∀ path, s.indexStore.1 = some path ↔ ∃ db, s.database = some db ∧ db.StoresAt path
  /-- The index database is beside it. -/
  beside : ∀ path, s.indexDatabase.1 = some path ↔ ∃ store directory,
    s.indexStore.1 = some store ∧ store.parent? = some directory
      ∧ path = directory.join (.ofString "IndexDatabase")

/-- **What is kept of the index store is never out of date**, whatever is asked of the system and
told to it and whatever happens on the disk, as long as the database has been replaced less often
than the generation can count. -/
theorem index_store_current (disk : FileSystem) (root : Option Path) (events : List Event)
    (hfew : ((Site.create disk root).run events).replaced < UInt64.size) :
    ((Site.create disk root).run events).system.IndexCurrent := by
  have hfresh := Site.fresh_run (s := .create disk root) (Fresh.create disk root) events
  generalize (Site.create disk root).run events = s at hfew hfresh
  refine ⟨hfresh.read, fun path => ?_, fun path => ?_⟩
  · rw [hfresh.indexStore_fst hfew, storeNow, Option.bind_eq_some_iff]
    simp only [Database.indexStorePath?_eq_some_iff]
  · rw [indexDatabase_eq]
    simp only [Option.map_eq_some_iff, Option.bind_eq_some_iff]
    constructor
    · rintro ⟨directory, ⟨store, hstore, hparent⟩, rfl⟩
      exact ⟨store, directory, hstore, hparent, rfl⟩
    · rintro ⟨store, directory, hstore, hparent, rfl⟩
      exact ⟨directory, ⟨store, hstore, hparent⟩, rfl⟩

/-- Commands of which the first has the flag without a value, and the second has it three times, the
last time without a value. -/
def stores : String :=
  "[[\"\",\"a\",[\"-index-store-path\"]],[\"/q/b\",\"b\",[\"-index-store-path\",\"x\"," ++
  "\"-index-store-path\",\"../i\",\"-index-store-path\"]]]"

/-- A system without a root is asked for its index before and after it finds a database, after that
has changed on disk, and after it has been told so. -/
def indexing : List Event :=
  let ask := [.operation .indexStore, .operation .indexDatabase]
  ask ++ [.disk (diskWith "q" Database.commandsName stores)]
    ++ ask ++ [.operation (.handles (fileIn "q" "c.c"))]
    ++ ask ++ [.disk (diskWith "q" Database.flagsName "-index-store-path\n/t/i")]
    ++ ask ++ [.operation (.filesChanged [⟨fileIn "q" Database.flagsName, 2⟩])]
    ++ ask ++ [.operation (.settings (fileIn "q" "c.c"))] ++ ask

/-- The paths that are given back, as text. -/
def Site.paths (s : Site) (events : List Event) : List (Option String) :=
  (s.answers events).filterMap fun
    | (_, .path path) => some (path.map (·.textLossy))
    | _ => none

/-- The answers follow the database through its changes, and a question that is asked twice gets one
answer. -/
theorem index_store_current_indexing :
    ((Site.create {} none).run indexing).system.IndexCurrent
      ∧ (Site.create {} none).paths indexing
        = [none, none, none, none, some "/q/i", some "/q/IndexDatabase",
          some "/q/i", some "/q/IndexDatabase", none, none,
          some "/t/i", some "/t/IndexDatabase"] := by
  have hfew : ((Site.create {} none).run indexing).replaced < UInt64.size :=
    Nat.lt_of_le_of_lt (Site.replaced_run_le _ indexing) (by decide)
  exact ⟨index_store_current {} none indexing hfew, by decide +kernel⟩

end DatabaseSystem

end FlagServer
