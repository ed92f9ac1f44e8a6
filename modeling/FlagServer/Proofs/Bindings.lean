import FlagServer.Proofs.Catalogue

/-!
# Bindings and what is read under them

Methods are bound in three ways. One that is registered takes its name only if the name is free, a
list of them is registered one after the other, and an override takes its name from whoever has it.
What a registry binds a name to after any number of such changes is said here from the changes alone
(`boundBy`): of the overrides of the name the last, and where there are none, of the registered
methods the first.

The rest hangs on the one binding of a name. Whether a message is decoded, refused as one of a
method that nobody answers or refused for its parameters is said by the binding and by the schema of
its parameters. A decoded message remembers the binding's name and the name of its type, gives its
content to who asks for both, and goes back unharmed to anybody else, however many have asked.
-/

namespace FlagServer

namespace Registry

/-! ## Changes -/

/-- What can be done to a registry. -/
inductive Change where
  /-- Binds a method if its name is free. -/
  | register (m : Method)
  /-- Binds a method in any case. -/
  | override (m : Method)
  /-- Registers one method after the other. -/
  | registerAll (ms : List Method)

namespace Change

/-- The methods that a change registers. -/
def registered : Change → List Method
  | register m => [m]
  | override _ => []
  | registerAll ms => ms

/-- The methods that a change binds in any case. -/
def overriding : Change → List Method
  | override m => [m]
  | _ => []

end Change

/-- The registry after a change. One that refuses a method stays as it was. -/
def change (r : Registry) : Change → Registry
  | .register m =>
    match r.register m with
    | .ok next => next
    | .error _ => r
  | .override m => (r.override m).1
  | .registerAll ms => r.registerAll ms

/-- The registry that starts empty, after some changes. -/
def after (history : List Change) : Registry :=
  history.foldl change {}

/-- The method that some changes leave bound to a name: of the overrides of the name the last, and
where there are none, of the methods registered under it the first. -/
def boundBy (history : List Change) (name : String) : Option Method :=
  ((history.flatMap Change.overriding).filter fun m => m.name == name).getLast?.or
    ((history.flatMap Change.registered).filter fun m => m.name == name).head?

theorem after_concat (history : List Change) (c : Change) :
    after (history ++ [c]) = (after history).change c := by
  rw [after, List.foldl_append]
  rfl

/-! ## What a change does to a name -/

variable {r : Registry}

/-- What is bound to a name has that name. -/
theorem name_of_find? {name : String} {m : Method} (h : r.find? name = some m) : m.name = name := by
  have hname : (m.name == name) = true := List.find?_some (p := fun n : Method => n.name == name) h
  exact beq_iff_eq.mp hname

/-- To register a method is to put it at the end, unless its name is bound. -/
theorem change_register (r : Registry) (m : Method) :
    r.change (.register m) = if (r.find? m.name).isSome then r else ⟨r.methods ++ [m]⟩ := by
  rw [change, register]
  cases r.find? m.name with
  | none => rfl
  | some b => cases hshape : b.sameShape m <;> simp [hshape]

/-- To register a list is to register its first method as a change of its own, and then the rest. A
refusal of the first does not keep the rest out. -/
theorem registerAll_cons (m : Method) (ms : List Method) :
    r.registerAll (m :: ms) = (r.change (.register m)).registerAll ms :=
  rfl

/-- A registered method is found under its name if nothing else was. -/
theorem find?_register (r : Registry) (m : Method) (name : String) :
    (r.change (.register m)).find? name
      = (r.find? name).or ([m].find? fun n => n.name == name) := by
  rw [change_register]
  cases hbound : r.find? m.name with
  | none =>
    rw [Option.isSome_none, if_neg Bool.false_ne_true, find?, List.find?_append]
    rfl
  | some b =>
    rw [Option.isSome_some, if_pos rfl]
    by_cases hname : m.name = name
    · rw [← hname, hbound]
      rfl
    · rw [List.find?_cons_of_neg (by simpa using hname), List.find?_nil, Option.or_none]

/-- Of a list, the first method of a name is the one that is found, if the name was free before. -/
theorem find?_registerAll (ms : List Method) (name : String) :
    (r.registerAll ms).find? name = (r.find? name).or (ms.find? fun m => m.name == name) := by
  induction ms generalizing r with
  | nil => simp [registerAll]
  | cons m ms ih =>
    have hlist : (m :: ms).find? (fun n => n.name == name)
        = ([m].find? fun n => n.name == name).or (ms.find? fun n => n.name == name) := by
      rw [← List.find?_append, List.singleton_append]
    -- What the head offers goes before what the rest of the list offers, as `Option.or` is
    -- associative.
    rw [registerAll_cons, ih, find?_register, hlist, Option.or_assoc]

/-- A method stands in for its namesakes under their name. -/
theorem name_replace (m n : Method) : (if n.name == m.name then m else n).name = n.name := by
  by_cases hname : n.name = m.name <;> simp [hname]

/-- A method that overrides keeps the names as they stand, and may add its own. -/
theorem names_override (r : Registry) (m : Method) :
    (r.change (.override m)).methods.map (·.name)
      = (r.change (.register m)).methods.map (·.name) := by
  rw [change_register, change, override]
  cases r.find? m.name with
  | none => rfl
  | some b =>
    rw [Option.isSome_some, if_pos rfl, List.map_map]
    exact List.map_congr_left fun n _ => name_replace m n

/-- A method that overrides is found under its name, and other names keep what they had. -/
theorem find?_override (r : Registry) (m : Method) (name : String) :
    (r.change (.override m)).find? name
      = ([m].find? fun n => n.name == name).or (r.find? name) := by
  rw [change, override]
  cases hbound : r.find? m.name with
  | none =>
    by_cases hname : m.name = name
    · rw [find?, hname] at hbound
      simp [find?, hbound, hname]
    · simp [find?, hname]
  | some b =>
    -- Names stay in their places: a name is found where it was, but `m` may stand there now.
    have hplaces : (fun n : Method => n.name == name)
        ∘ (fun n => if n.name == m.name then m else n) = fun n => n.name == name := by
      funext n
      rw [Function.comp_apply, name_replace]
    rw [find?, List.find?_map, hplaces]
    by_cases hname : m.name = name
    · have hb : b.name = m.name := name_of_find? hbound
      rw [find?, hname] at hbound
      rw [hbound, Option.map_some, if_pos (by simpa using hb),
        List.find?_cons_of_pos (by simpa using hname), Option.some_or]
    · rw [List.find?_cons_of_neg (by simpa using hname), List.find?_nil, Option.none_or, find?]
      cases hfound : r.methods.find? fun n => n.name == name with
      | none => rfl
      | some n =>
        have hn : n.name = name := name_of_find? hfound
        rw [Option.map_some, if_neg (by simpa [hn] using Ne.symm hname)]

/-! ## Names stay apart -/

/-- A method is put at the end only if no other has its name. -/
theorem nodup_register (hr : (r.methods.map (·.name)).Nodup) (m : Method) :
    ((r.change (.register m)).methods.map (·.name)).Nodup := by
  rw [change_register]
  cases hbound : r.find? m.name with
  | some b => simpa using hr
  | none =>
    -- The name was not found, so nobody in the registry has it.
    have hfresh : ∀ n ∈ r.methods, n.name ≠ m.name := by
      intro n hn hname
      exact List.find?_eq_none.mp hbound n hn (by simpa using hname)
    rw [Option.isSome_none, if_neg Bool.false_ne_true, List.map_append, List.nodup_append]
    refine ⟨hr, by simp, ?_⟩
    intro name hname last hlast
    obtain ⟨n, hn, rfl⟩ := List.mem_map.mp hname
    obtain rfl := List.mem_singleton.mp hlast
    exact hfresh n hn

/-- A list is as good as its members, one after the other. -/
theorem nodup_registerAll (hr : (r.methods.map (·.name)).Nodup) (ms : List Method) :
    ((r.registerAll ms).methods.map (·.name)).Nodup := by
  induction ms generalizing r with
  | nil => exact hr
  | cons m ms ih => exact ih (nodup_register hr m)

/-- No change binds a name twice. -/
theorem nodup_change (hr : (r.methods.map (·.name)).Nodup) (c : Change) :
    ((r.change c).methods.map (·.name)).Nodup := by
  cases c with
  | register m => exact nodup_register hr m
  | override m =>
    rw [names_override]
    exact nodup_register hr m
  | registerAll ms => exact nodup_registerAll hr ms

/-- No name is ever bound twice, whatever a registry that started empty has been through. -/
theorem nodup_after (history : List Change) : ((after history).methods.map (·.name)).Nodup := by
  induction history using List.reverseRecOn with
  | nil => exact List.nodup_nil
  | append_singleton history c ih =>
    rw [after_concat]
    exact nodup_change ih c

/-! ## The binding of a name -/

/-- What a change leaves bound to a name: a method that it forces on it, else what was there before,
else the first that it registers. -/
theorem find?_change (r : Registry) (c : Change) (name : String) :
    (r.change c).find? name
      = (c.overriding.filter fun m => m.name == name).getLast?.or
        ((r.find? name).or (c.registered.filter fun m => m.name == name).head?) := by
  rw [List.head?_filter]
  cases c with
  | register m => exact find?_register r m name
  | registerAll ms => exact find?_registerAll ms name
  | override m =>
    have hone : ([m].filter fun n => n.name == name).getLast?
        = [m].find? fun n => n.name == name := by
      by_cases hname : m.name = name <;> simp [hname]
    rw [Change.overriding, hone, Change.registered, List.find?_nil, Option.or_none]
    exact find?_override r m name

/-- **What a registry binds is said by its changes alone.** The induction goes from the right, since
the last change is the one that `find?_change` speaks of. -/
theorem find?_after (history : List Change) (name : String) :
    (after history).find? name = boundBy history name := by
  induction history using List.reverseRecOn with
  | nil => rfl
  | append_singleton history c ih =>
    -- What is forced by `c` goes before all else, and what `c` registers comes after all else.
    rw [after_concat, find?_change, ih]
    simp only [boundBy, List.flatMap_append, List.flatMap_singleton, List.filter_append,
      List.getLast?_append, List.head?_append, Option.or_assoc]

end Registry

/-! ## What is refused -/

/-- The same kind of message with the same types, which are told apart by their names. -/
def Method.HasShapeOf (m b : Method) : Prop :=
  m.kind = b.kind ∧ m.params.name = b.params.name
    ∧ m.result.map (·.name) = b.result.map (·.name)

theorem Method.sameShape_iff {m b : Method} : b.sameShape m = true ↔ m.HasShapeOf b := by
  simp only [sameShape, HasShapeOf, Bool.and_eq_true, beq_iff_eq, and_assoc]
  exact and_congr eq_comm (and_congr eq_comm eq_comm)

namespace Registry

variable {r : Registry}

/-- A method of the shape that is bound is taken as registered, and nothing is done. -/
theorem register_of_shape {m b : Method} (hbound : r.find? m.name = some b)
    (hshape : m.HasShapeOf b) : r.register m = .ok r := by
  rw [register, hbound]
  exact if_pos (Method.sameShape_iff.mpr hshape)

/-- A method of another shape than the one that is bound is refused, and the error names it. -/
theorem register_of_conflict {m b : Method} (hbound : r.find? m.name = some b)
    (hshape : ¬ m.HasShapeOf b) : r.register m = .error ⟨m.name⟩ := by
  rw [register, hbound]
  exact if_neg fun h => hshape (Method.sameShape_iff.mp h)

/-- A method is refused if its name is bound to another shape, and never else. -/
theorem register_eq_error_iff {m : Method} {e : Conflict} :
    r.register m = .error e
      ↔ e = ⟨m.name⟩ ∧ ∃ b, r.find? m.name = some b ∧ ¬ m.HasShapeOf b := by
  constructor
  · intro h
    cases hbound : r.find? m.name with
    | none =>
      rw [register, hbound] at h
      cases h
    | some b =>
      by_cases hshape : m.HasShapeOf b
      · rw [register_of_shape hbound hshape] at h
        cases h
      · rw [register_of_conflict hbound hshape] at h
        cases h
        exact ⟨rfl, b, rfl, hshape⟩
  · rintro ⟨rfl, b, hbound, hshape⟩
    exact register_of_conflict hbound hshape

/-- To register a method under a bound name changes nothing, whatever its shape. -/
theorem change_register_of_bound {m b : Method} (hbound : r.find? m.name = some b) :
    r.change (.register m) = r := by
  rw [change_register, hbound, Option.isSome_some, if_pos rfl]

end Registry

/-! ## Parameters -/

/-- Parameters are read as this datum under a type: they are themselves, or else they are null,
which does not fit, and an empty object is. -/
inductive PayloadType.Reads (t : PayloadType) : Json → Datum → Prop where
  /-- The value fits. -/
  | itself {v : Json} {d : Datum} (h : t.schema.decode? v = some d) : t.Reads v d
  /-- There were no parameters. -/
  | absent {d : Datum} (hnull : t.schema.decode? .null = none)
    (h : t.schema.decode? (.obj []) = some d) : t.Reads .null d

/-- Parameters do not fit a type: neither they nor, for null, an empty object. -/
def PayloadType.Misfits (t : PayloadType) (v : Json) : Prop :=
  t.schema.decode? v = none ∧ (v = .null → t.schema.decode? (.obj []) = none)

/-- There is one null. -/
theorem Schema.isNull_iff {v : Json} : isNull v = true ↔ v = .null := by
  cases v <;> simp [isNull]

/-- Parameters are decoded as exactly what they are read as. -/
theorem PayloadType.decode?_eq_some_iff {t : PayloadType} {v : Json} {d : Datum} :
    t.decode? v = some d ↔ t.Reads v d := by
  rw [decode?]
  constructor
  · intro h
    split at h
    · case h_1 hfits =>
      rw [h] at hfits
      exact .itself hfits
    · case h_2 hmisfits =>
      -- The value itself did not fit. Only null gets a second try.
      split_ifs at h with hnull
      obtain rfl := Schema.isNull_iff.mp hnull
      exact .absent hmisfits h
  · intro h
    cases h with
    | itself h => rw [h]
    | absent hnull h =>
      rw [hnull]
      exact h

/-- Parameters are refused exactly if they do not fit. -/
theorem PayloadType.decode?_eq_none_iff {t : PayloadType} {v : Json} :
    t.decode? v = none ↔ t.Misfits v := by
  rw [decode?, Misfits]
  cases t.schema.decode? v with
  | some d => simp
  | none =>
    by_cases hnull : v = .null
    · rw [if_pos (Schema.isNull_iff.mpr hnull)]
      simp [hnull]
    · rw [if_neg (mt Schema.isNull_iff.mp hnull)]
      simp [hnull]

theorem PayloadType.Reads.unique {t : PayloadType} {v : Json} {d e : Datum} (hd : t.Reads v d)
    (he : t.Reads v e) : d = e :=
  Option.some.inj ((decode?_eq_some_iff.mpr hd).symm.trans (decode?_eq_some_iff.mpr he))

/-- What is read does not misfit. -/
theorem PayloadType.Reads.not_misfits {t : PayloadType} {v : Json} {d : Datum} (hd : t.Reads v d) :
    ¬ t.Misfits v := by
  intro hmisfits
  have hread : t.decode? v = some d := decode?_eq_some_iff.mpr hd
  rw [decode?_eq_none_iff.mpr hmisfits] at hread
  cases hread

/-- Parameters are read under a type, or they do not fit. -/
theorem PayloadType.reads_or_misfits (t : PayloadType) (v : Json) :
    (∃ d, t.Reads v d) ∨ t.Misfits v := by
  cases hread : t.decode? v with
  | some d => exact .inl ⟨d, decode?_eq_some_iff.mp hread⟩
  | none => exact .inr (decode?_eq_none_iff.mp hread)

/-! ## Decoding -/

namespace Registry

variable {μ : Type}

/-- The name is bound to this method, which is of this kind. -/
def Binds (r : Registry) (name : String) (kind : Kind) (b : Method) : Prop :=
  r.find? name = some b ∧ b.kind = kind

/-- The answer is an error of this kind. -/
def FailsAs (answer : Except ResponseError μ) (kind : ErrorCode) : Prop :=
  ∃ e, answer = .error e ∧ e.kind = kind

/-- **What it comes to to decode a message** of this name and kind with these parameters, if
`message b d` is the one that was read as `d` under the method `b`. -/
structure Decodes (r : Registry) (name : String) (kind : Kind) (v : Json)
    (message : Method → Datum → μ) (answer : Except ResponseError μ) : Prop where
  /-- It is decoded exactly if the name is bound with this kind and the parameters fit. -/
  read_iff : ∀ q, answer = .ok q
    ↔ ∃ b d, r.Binds name kind b ∧ b.params.Reads v d ∧ q = message b d
  /-- Nobody answers the method exactly if its name is not bound with this kind. -/
  unknown_iff : FailsAs answer .methodNotFound ↔ ¬ ∃ b, r.Binds name kind b
  /-- The parameters are invalid exactly if it is and they do not fit. -/
  invalid_iff : FailsAs answer .invalidParams ↔ ∃ b, r.Binds name kind b ∧ b.params.Misfits v
  /-- Both errors name the method. -/
  named : ∀ e, answer = .error e →
    e = .methodNotFound name ∨ ∃ detail, e = .invalidParams name detail

variable {r : Registry} {name : String} {kind : Kind} {v : Json} {b c : Method}

theorem Binds.unique (hb : r.Binds name kind b) (hc : r.Binds name kind c) : b = c :=
  Option.some.inj (hb.1.symm.trans hc.1)

/-- A name that is not bound, or is bound with the other kind, is one of a method that nobody
answers. -/
theorem decodeParams_of_unbound (h : ¬ ∃ b, r.Binds name kind b) :
    r.decodeParams name kind v = .error (.methodNotFound name) := by
  unfold decodeParams lookup
  cases hfind : r.find? name with
  | none => rfl
  | some b =>
    have hkind : b.kind ≠ kind := fun hkind => h ⟨b, hfind, hkind⟩
    simp [hkind]

/-- Parameters that do not fit the bound method are refused with a detail of the value, which the
theory says nothing of. -/
theorem decodeParams_of_misfits (hb : r.Binds name kind b) (h : b.params.Misfits v) :
    ∃ detail, r.decodeParams name kind v = .error (.invalidParams name detail) := by
  have hread : b.params.decode? v = none := PayloadType.decode?_eq_none_iff.mpr h
  unfold decodeParams lookup
  simp only [hb.1, hb.2, BEq.rfl, if_true, hread]
  exact ⟨_, rfl⟩

/-- Parameters that fit the bound method are read. -/
theorem decodeParams_of_reads {d : Datum} (hb : r.Binds name kind b) (h : b.params.Reads v d) :
    r.decodeParams name kind v = .ok (b, d) :=
  decodeParams_eq_ok_iff.mpr ⟨hb.1, hb.2, PayloadType.decode?_eq_some_iff.mpr h⟩

/-- **There are three ways to end,** and the binding of the name says which it is. -/
theorem decodeParams_cases (r : Registry) (name : String) (kind : Kind) (v : Json) :
    (∃ b d, r.Binds name kind b ∧ b.params.Reads v d ∧ r.decodeParams name kind v = .ok (b, d))
    ∨ (∃ b detail, r.Binds name kind b ∧ b.params.Misfits v
      ∧ r.decodeParams name kind v = .error (.invalidParams name detail))
    ∨ (¬ ∃ b, r.Binds name kind b)
      ∧ r.decodeParams name kind v = .error (.methodNotFound name) := by
  by_cases hbinds : ∃ b, r.Binds name kind b
  · obtain ⟨b, hb⟩ := hbinds
    obtain ⟨d, hd⟩ | hmisfits := b.params.reads_or_misfits v
    · exact .inl ⟨b, d, hb, hd, decodeParams_of_reads hb hd⟩
    · obtain ⟨detail, herror⟩ := decodeParams_of_misfits hb hmisfits
      exact .inr (.inl ⟨b, detail, hb, hmisfits, herror⟩)
  · exact .inr (.inr ⟨hbinds, decodeParams_of_unbound hbinds⟩)

section Endings

variable {message : Method → Datum → μ}

/-- If the parameters fit, all that can be said of the message follows, since the binding and what
is read under it are unique. -/
theorem Decodes.read {d : Datum} (hb : r.Binds name kind b) (hd : b.params.Reads v d) :
    Decodes r name kind v message (.ok (message b d)) where
  read_iff q := by
    constructor
    · intro hq
      exact ⟨b, d, hb, hd, (Except.ok.inj hq).symm⟩
    · -- Any other binding and datum are these.
      rintro ⟨c, e, hc, he, rfl⟩
      obtain rfl := hb.unique hc
      obtain rfl := hd.unique he
      rfl
  unknown_iff := iff_of_false nofun (not_not_intro ⟨b, hb⟩)
  invalid_iff := by
    refine iff_of_false nofun ?_
    rintro ⟨c, hc, hmisfits⟩
    obtain rfl := hb.unique hc
    exact hd.not_misfits hmisfits
  named := nofun

/-- If they do not fit, the message is refused for its parameters and for nothing else. -/
theorem Decodes.invalid {detail : String} (hb : r.Binds name kind b) (h : b.params.Misfits v) :
    Decodes r name kind v message (.error (.invalidParams name detail)) where
  read_iff q := by
    refine iff_of_false nofun ?_
    rintro ⟨c, d, hc, hd, -⟩
    obtain rfl := hb.unique hc
    exact hd.not_misfits h
  unknown_iff := by
    refine iff_of_false ?_ (not_not_intro ⟨b, hb⟩)
    rintro ⟨e, he, hkind⟩
    cases he
    cases hkind
  invalid_iff := iff_of_true ⟨_, rfl, rfl⟩ ⟨b, hb, h⟩
  named e he := .inr ⟨detail, (Except.error.inj he).symm⟩

/-- If the name is not bound with the kind, the message is refused for its method and for nothing
else. -/
theorem Decodes.unknown (h : ¬ ∃ b, r.Binds name kind b) :
    Decodes r name kind v message (.error (.methodNotFound name)) where
  read_iff q := by
    refine iff_of_false nofun ?_
    rintro ⟨c, d, hc, -, -⟩
    exact h ⟨c, hc⟩
  unknown_iff := iff_of_true ⟨_, rfl, rfl⟩ h
  invalid_iff := by
    refine iff_of_false ?_ fun ⟨c, hc, _⟩ => h ⟨c, hc⟩
    rintro ⟨e, he, hkind⟩
    cases he
    cases hkind
  named e he := .inl (Except.error.inj he).symm

end Endings

/-- A message that is made of the binding and of what was read is decoded as they are. -/
theorem decodes_map (f : Method × Datum → μ) :
    Decodes r name kind v (fun b d => f (b, d)) ((r.decodeParams name kind v).map f) := by
  obtain ⟨b, d, hb, hd, hok⟩ | ⟨b, detail, hb, hmisfits, herror⟩ | ⟨hnone, herror⟩ :=
    decodeParams_cases r name kind v
  · rw [hok]
    exact .read hb hd
  · rw [herror]
    exact .invalid hb hmisfits
  · rw [herror]
    exact .unknown hnone

theorem decodes_decodeRequest (r : Registry) (id : RequestId) (name : String) (v : Json) :
    Decodes r name .request v (fun b d => IncomingRequest.mk id b.name b.params.name d)
      (r.decodeRequest id name v) :=
  decodes_map fun found => IncomingRequest.mk id found.1.name found.1.params.name found.2

theorem decodes_decodeNotification (r : Registry) (name : String) (v : Json) :
    Decodes r name .notification v (fun b d => IncomingNotification.mk b.name b.params.name d)
      (r.decodeNotification name v) :=
  decodes_map fun found => IncomingNotification.mk found.1.name found.1.params.name found.2

end Registry

/-! ## Asking for the content -/

/-- Who asks for the method `m` asks for what was read under `b`: the names are the same, and so are
the types of the parameters. -/
def Method.AsksFor (m b : Method) : Prop :=
  m.name = b.name ∧ m.params.name = b.params.name

instance (m b : Method) : Decidable (m.AsksFor b) :=
  inferInstanceAs (Decidable (_ ∧ _))

/-- The test that a message makes of who asks for its content. -/
theorem Method.asksFor_iff {m b : Method} :
    (b.name == m.name && b.params.name == m.params.name) = true ↔ m.AsksFor b := by
  simp only [Bool.and_eq_true, beq_iff_eq, AsksFor]
  exact and_congr eq_comm eq_comm

section Offers

variable {μ α : Type}

/-- Offers a message to one method after the other. Who does not take it hands it back, and what was
handed back goes on to the next. -/
def offer (extract : μ → Method → Except μ α) (q : μ) : List Method → Except μ α
  | [] => .error q
  | m :: ms =>
    match extract q m with
    | .ok content => .ok content
    | .error back => offer extract back ms

/-- **Who gets the content of a message** that was read under `b`. -/
structure GivesOnlyTo (b : Method) (extract : μ → Method → Except μ α) (q : μ) (content : α) :
    Prop where
  /-- Who asks for the method and for its type of parameters. -/
  given_iff : ∀ m, extract q m = .ok content ↔ m.AsksFor b
  /-- Anybody else gets the message itself. -/
  back_iff : ∀ m, extract q m = .error q ↔ ¬ m.AsksFor b
  /-- However many have asked in vain, the content is there for the first who asks for it. -/
  offered_iff : ∀ ms, offer extract q ms = .ok content ↔ ∃ m ∈ ms, m.AsksFor b
  /-- And the message is what it was if nobody did. -/
  left_iff : ∀ ms, offer extract q ms = .error q ↔ ∀ m ∈ ms, ¬ m.AsksFor b

/-- A message that is offered around is taken by the first who asks for it, and comes back whole if
nobody does. -/
theorem offer_eq {b : Method} {extract : μ → Method → Except μ α} {q : μ} {content : α}
    (h : ∀ m, extract q m = if m.AsksFor b then .ok content else .error q) (ms : List Method) :
    offer extract q ms = if ∃ m ∈ ms, m.AsksFor b then .ok content else .error q := by
  induction ms with
  | nil => simp [offer]
  | cons m ms ih =>
    rw [offer, h]
    by_cases hm : m.AsksFor b
    · simp [hm]
    · -- Who does not ask for it hands back the message that was offered, so that the induction goes
      -- on with the same one.
      simp only [hm, if_false, ih, List.mem_cons, exists_eq_or_imp, false_or]

/-- If one asker is told from another by the names, then so are they in a row: who does not take the
message leaves it to the next as it was. -/
theorem GivesOnlyTo.of_eq {b : Method} {extract : μ → Method → Except μ α} {q : μ} {content : α}
    (h : ∀ m, extract q m = if m.AsksFor b then .ok content else .error q) :
    GivesOnlyTo b extract q content where
  given_iff m := by
    rw [h]
    split_ifs with hm <;> simp [hm]
  back_iff m := by
    rw [h]
    split_ifs with hm <;> simp [hm]
  offered_iff ms := by
    rw [offer_eq h]
    split_ifs with hms <;> simp [hms]
  left_iff ms := by
    rw [offer_eq h]
    split_ifs with hms <;> simpa using hms

end Offers

/-- A request gives its id and its parameters to who asks for them, and itself to anybody else. -/
theorem IncomingRequest.extract_eq (id : RequestId) (b : Method) (d : Datum) (m : Method) :
    IncomingRequest.extract ⟨id, b.name, b.params.name, d⟩ m
      = if m.AsksFor b then .ok (id, d) else .error ⟨id, b.name, b.params.name, d⟩ := by
  have his : IncomingRequest.is ⟨id, b.name, b.params.name, d⟩ m = true ↔ m.AsksFor b :=
    Method.asksFor_iff
  simp only [extract, his]

/-- A notification gives its parameters. -/
theorem IncomingNotification.extract_eq (b : Method) (d : Datum) (m : Method) :
    IncomingNotification.extract ⟨b.name, b.params.name, d⟩ m
      = if m.AsksFor b then .ok d else .error ⟨b.name, b.params.name, d⟩ := by
  have his : IncomingNotification.is ⟨b.name, b.params.name, d⟩ m = true ↔ m.AsksFor b :=
    Method.asksFor_iff
  simp only [extract, his]

/-! ## Every registry -/

namespace Registry

/-- **What a registry holds** that some changes have led to. -/
structure Reflects (history : List Change) (r : Registry) : Prop where
  /-- No name is bound twice. -/
  nodup : (r.methods.map (·.name)).Nodup
  /-- Every method that is held is found under its own name. -/
  mem_iff : ∀ m, m ∈ r.methods ↔ r.find? m.name = some m
  /-- And under no other. -/
  name_eq : ∀ name m, r.find? name = some m → m.name = name
  /-- What is found was the last to override the name or, if none did, the first to be registered
  under it. -/
  find?_eq : ∀ name, r.find? name = boundBy history name
  /-- To register the bound shape once more is fine. -/
  repeated : ∀ m b, r.find? m.name = some b → m.HasShapeOf b → r.register m = .ok r
  /-- To register another shape is an error. -/
  refused_iff : ∀ m e, r.register m = .error e
    ↔ e = ⟨m.name⟩ ∧ ∃ b, r.find? m.name = some b ∧ ¬ m.HasShapeOf b
  /-- Neither changes the registry. -/
  unchanged : ∀ m b, r.find? m.name = some b → r.change (.register m) = r

/-- Every registry that some changes have led to holds what they say. -/
theorem reflects_after (history : List Change) : Reflects history (after history) where
  nodup := nodup_after history
  mem_iff _ := ⟨find?_of_mem (nodup_after history), List.mem_of_find?_eq_some⟩
  name_eq _ _ := name_of_find?
  find?_eq := find?_after history
  repeated _ _ := register_of_shape
  refused_iff _ _ := register_eq_error_iff
  unchanged _ _ := change_register_of_bound

/-- **A registry decodes by its bindings,** whatever it has been through. Every name is bound once,
by its last override or else by the first method that was registered. A message is decoded under the
binding of its name if that has its kind and the parameters fit, so that no name is decoded both as
a request and as a notification. It gives its id and its parameters to whoever asks for the name and
the type of parameters of the binding, and to nobody else, however often it is asked before. -/
theorem decodes_as_bound (history : List Change) :
    Reflects history (after history)
    ∧ (∀ id name v, Decodes (after history) name .request v
        (fun b d => IncomingRequest.mk id b.name b.params.name d)
        ((after history).decodeRequest id name v))
    ∧ (∀ name v, Decodes (after history) name .notification v
        (fun b d => IncomingNotification.mk b.name b.params.name d)
        ((after history).decodeNotification name v))
    ∧ (∀ id name v w q n, ¬ ((after history).decodeRequest id name v = .ok q
        ∧ (after history).decodeNotification name w = .ok n))
    ∧ (∀ id name v q, (after history).decodeRequest id name v = .ok q →
        ∃ b, (after history).Binds name .request b
          ∧ GivesOnlyTo b IncomingRequest.extract q (id, q.params))
    ∧ ∀ name v n, (after history).decodeNotification name v = .ok n →
        ∃ b, (after history).Binds name .notification b
          ∧ GivesOnlyTo b IncomingNotification.extract n n.params := by
  have hrequests := decodes_decodeRequest (after history)
  have hnotifications := decodes_decodeNotification (after history)
  refine ⟨reflects_after history, hrequests, hnotifications, ?_, ?_, ?_⟩
  · rintro id name v w q n ⟨hq, hn⟩
    obtain ⟨b, -, hb, -, -⟩ := ((hrequests id name v).read_iff q).mp hq
    obtain ⟨c, -, hc, -, -⟩ := ((hnotifications name w).read_iff n).mp hn
    -- One name has one binding, and that is of one kind.
    obtain rfl : b = c := Option.some.inj (hb.1.symm.trans hc.1)
    cases hb.2.symm.trans hc.2
  · intro id name v q hq
    obtain ⟨b, d, hb, -, rfl⟩ := ((hrequests id name v).read_iff q).mp hq
    exact ⟨b, hb, .of_eq (IncomingRequest.extract_eq id b d)⟩
  · intro name v n hn
    obtain ⟨b, d, hb, -, rfl⟩ := ((hnotifications name v).read_iff n).mp hn
    exact ⟨b, hb, .of_eq (IncomingNotification.extract_eq b d)⟩

end Registry

namespace Catalogue

/-- The server's own registry is one of these. -/
example : registry = Registry.after [.registerAll requests, .registerAll notifications] :=
  rfl

/-- Another hover, which asks for a word. -/
def wordHover : Method :=
  request hover.name ⟨"WordParams", .fields [("word", .required, .text)]⟩ ⟨"String", .text⟩

/-- The server's methods, after its hover has refused to make way for a namesake, has been
overridden by it and has not come back. -/
def shadowed : List Registry.Change :=
  [.registerAll requests, .registerAll notifications, .register wordHover, .override wordHover,
    .register hover]

/-- What was read under the one hover is handed back by the other, and is there for who comes
later. -/
theorem decodes_as_bound_shadowed :
    ∃ q, (Registry.after shadowed).decodeRequest (.number 1) hover.name
        (.obj [("word", .str "main")]) = .ok q
      ∧ q.extract hover = .error q
      ∧ offer IncomingRequest.extract q [hover, shutdown, wordHover]
        = .ok (.number 1, .record [("word", .text "main")]) := by
  obtain ⟨hreflects, hrequests, -, -, hgives, -⟩ := Registry.decodes_as_bound shadowed
  have hfind : (Registry.after shadowed).find? hover.name = some wordHover := by
    rw [hreflects.find?_eq]
    rfl
  have hreads : wordHover.params.Reads (.obj [("word", .str "main")])
      (.record [("word", .text "main")]) := .itself rfl
  have hq := ((hrequests (.number 1) hover.name _).read_iff _).mpr
    ⟨wordHover, _, ⟨hfind, rfl⟩, hreads, rfl⟩
  obtain ⟨b, hb, hgives⟩ := hgives _ _ _ _ hq
  obtain rfl : wordHover = b := Option.some.inj (hfind.symm.trans hb.1)
  have hother : ¬ hover.AsksFor wordHover := by decide
  refine ⟨_, hq, (hgives.back_iff hover).mpr hother, (hgives.offered_iff _).mpr ?_⟩
  exact ⟨wordHover, by simp, rfl, rfl⟩

end Catalogue

end FlagServer
