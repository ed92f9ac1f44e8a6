import FlagServer.Proofs.Wire

/-!
# Envelopes, there and back

`Message.toJson` writes a message as an object and `Message.ofJson?` reads one. A null means
something else in each place where it may stand: no id, no parameters, a result like any other, and
no data. Only the last is not undone, because an error can have a null as its data and is then read
as one that has none.

So there is one thing to say about each message, `ofJson?_toJson_arrived`: it is read as what it is
when it has **arrived.** What somebody has read is never changed by that, whatever value it was read
from, because nothing that is read has a null for data.
-/

namespace FlagServer

/-! ## Errors -/

namespace Schema

/-- A member is what one of the fields reads, given what stands in its place. -/
def ReadBy (fields : List (String × Presence × Schema)) (x : String × Datum) : Prop :=
  ∃ f ∈ fields, ∃ found part, decodeField? f.1 f.2.1 (decode? f.2.2) found = some part ∧ x ∈ part

theorem ReadBy.cons {fields : List (String × Presence × Schema)} {x : String × Datum}
    (h : ReadBy fields x) (f : String × Presence × Schema) : ReadBy (f :: fields) x := by
  obtain ⟨g, hg, hread⟩ := h
  exact ⟨g, List.mem_cons_of_mem f hg, hread⟩

/-- Every member of a record was read by one of its fields, if the record comes as an object. -/
theorem readBy_of_decodeFields? {fields : List (String × Presence × Schema)}
    {members : List (String × Json)} {ds : List (String × Datum)}
    (h : decodeFields? fields members = some ds) : ∀ x ∈ ds, ReadBy fields x := by
  induction fields generalizing ds with
  | nil =>
    cases h
    simp
  | cons f fields ih =>
    simp only [decodeFields?] at h
    split at h
    · case h_1 part more hpart hmore =>
      cases h
      intro x hx
      rcases List.mem_append.mp hx with hx | hx
      · exact ⟨f, List.mem_cons_self, _, part, hpart, hx⟩
      · exact (ih hmore x hx).cons f
    · cases h

/-- The same of a record that comes as an array. -/
theorem readBy_of_decodePlaces? {fields : List (String × Presence × Schema)} {vs : List Json}
    {ds : List (String × Datum)} (h : decodePlaces? fields vs = some ds) :
    ∀ x ∈ ds, ReadBy fields x := by
  induction fields generalizing vs ds with
  | nil =>
    cases vs <;> cases h
    simp
  | cons f fields ih =>
    -- Whether or not the array goes on, the field reads what it has and the others read the rest.
    have hboth : ∀ {found part vs more}, decodeField? f.1 f.2.1 (decode? f.2.2) found = some part →
        decodePlaces? fields vs = some more → ∀ x ∈ part ++ more, ReadBy (f :: fields) x := by
      intro found part vs more hpart hmore x hx
      rcases List.mem_append.mp hx with hx | hx
      · exact ⟨f, List.mem_cons_self, found, part, hpart, hx⟩
      · exact (ih hmore x hx).cons f
    cases vs with
    | nil =>
      simp only [decodePlaces?] at h
      split at h
      · split at h
        · case h_1 hpart hmore =>
          cases h
          exact hboth hpart hmore
        · cases h
      · cases h
    | cons v vs =>
      simp only [decodePlaces?] at h
      split at h
      · case h_1 hpart hmore =>
        cases h
        exact hboth hpart hmore
      · cases h

/-- A field gives at most one member, under its own name. -/
theorem eq_of_decodeField? {name : String} {presence : Presence} {read : Json → Option Datum}
    {found : Option Json} {part : List (String × Datum)}
    (h : decodeField? name presence read found = some part) :
    part = [] ∨ ∃ d, part = [(name, d)] := by
  have hmap : ∀ {o : Option Datum}, o.map (fun d => [(name, d)]) = some part →
      part = [] ∨ ∃ d, part = [(name, d)] := by
    intro o ho
    obtain ⟨d, -, rfl⟩ := Option.map_eq_some_iff.mp ho
    exact .inr ⟨d, rfl⟩
  cases found with
  | none => cases presence <;> cases h <;> simp
  | some v =>
    cases presence with
    | required | preset => exact hmap h
    | optional | trailing | nullable =>
      simp only [decodeField?] at h
      split at h
      · cases h
        simp
      · exact hmap h

/-- A field is read under its own name. -/
theorem fst_of_decodeField? {name : String} {presence : Presence} {read : Json → Option Datum}
    {found : Option Json} {ds : List (String × Datum)}
    (h : decodeField? name presence read found = some ds) : ∀ x ∈ ds, x.1 = name := by
  rcases eq_of_decodeField? h with rfl | ⟨d, rfl⟩ <;> simp

/-- What is found in the place of a field that may be missing is no null. -/
theorem snd_of_trailing {name : String} {found : Option Json} {ds : List (String × Datum)}
    (h : decodeField? name .trailing (decode? .any) found = some ds) :
    ∀ x ∈ ds, ∃ v, x.2 = .json v ∧ v ≠ .null := by
  cases found with
  | none =>
    cases h
    simp
  | some v =>
    simp only [decodeField?, decode?, Option.map_some] at h
    split at h
    · cases h
      simp
    · case isFalse hnull =>
      cases h
      simp only [List.mem_singleton, forall_eq]
      exact ⟨v, rfl, fun heq => hnull (by rw [heq]; rfl)⟩

end Schema

/-- What is looked up in a record is one of its members. -/
theorem Datum.mem_of_lookup {name : String} {ms : List (String × Datum)} {d : Datum}
    (h : Datum.lookup name ms = some d) : (name, d) ∈ ms := by
  induction ms with
  | nil => cases h
  | cons m ms ih =>
    simp only [Datum.lookup] at h
    split at h
    · case isTrue hname =>
      cases h
      rw [← beq_iff_eq.mp hname]
      exact List.mem_cons_self
    · exact List.mem_cons_of_mem _ (ih h)

namespace ResponseError

/-- An error when it has arrived: a null in the place of data is none. -/
def arrived (e : ResponseError) : ResponseError :=
  { e with data := e.data.filter fun v => !Schema.isNull v }

/-- Only a null in the place of data is lost on the way. -/
theorem arrived_eq_iff (e : ResponseError) : e.arrived = e ↔ e.data ≠ some .null := by
  obtain ⟨code, message, data⟩ := e
  cases data with
  | none => simp [arrived]
  | some v => cases v <;> simp [arrived, Option.filter, Schema.isNull]

/-- An error is read as it arrives, whatever is in the place of its data. -/
theorem ofJson?_toJson_arrived (e : ResponseError) : ofJson? e.toJson = some e.arrived := by
  by_cases hdata : e.data = some .null
  · obtain ⟨code, message, data⟩ := e
    obtain rfl : data = some .null := hdata
    -- The null is written, and the field that may be missing takes it for nothing.
    rw [toJson, Json.ofMembers, ofJson?_obj (by simp [Json.lookup_bind]; rfl)
      (by simp [Json.lookup_bind]; rfl)]
    simp [Json.lookup_bind, arrived]
  · rw [ofJson?_toJson hdata, (arrived_eq_iff e).mpr hdata]

/-- **No error that is read has a null for data,** whether it comes as an object or as an array. -/
theorem arrived_of_ofJson? {v : Json} {e : ResponseError} (h : ofJson? v = some e) :
    e.arrived = e := by
  obtain ⟨d, hd, he⟩ := Option.bind_eq_some_iff.mp h
  -- Whatever the value is, it is read field by field.
  obtain ⟨ms, rfl, hms⟩ : ∃ ms, d = .record ms ∧ ∀ x ∈ ms, Schema.ReadBy
      [("code", .required, .int32), ("message", .required, .text), ("data", .trailing, .any)]
      x := by
    rw [schema, Schema.fields] at hd
    cases v with
    | obj members =>
      simp only [Schema.decode?, Schema.decodeOthers?] at hd
      split at hd
      · case h_1 ds more hds hmore =>
        cases hmore
        cases hd
        exact ⟨_, rfl, by simpa using Schema.readBy_of_decodeFields? hds⟩
      · cases hd
    | arr vs =>
      simp only [Schema.decode?, if_true] at hd
      obtain ⟨ds, hds, rfl⟩ := Option.map_eq_some_iff.mp hd
      exact ⟨ds, rfl, Schema.readBy_of_decodePlaces? hds⟩
    | _ => simp [Schema.decode?] at hd
  rw [arrived_eq_iff]
  intro hnull
  simp only [ofDatum?] at he
  split at he
  · cases he
    obtain ⟨found, hfound, hjson⟩ := Option.bind_eq_some_iff.mp hnull
    -- The member that is looked up has the name of the field that read it, and so it is that of the
    -- data.
    obtain ⟨f, hf, _, part, hpart, hmem⟩ := hms _ (Datum.mem_of_lookup hfound)
    have hname : "data" = f.1 := Schema.fst_of_decodeField? hpart _ hmem
    obtain rfl : f = ("data", .trailing, .any) := by
      simp only [List.mem_cons, List.not_mem_nil, or_false] at hf
      rcases hf with rfl | rfl | rfl
      · simp at hname
      · simp at hname
      · rfl
    obtain ⟨v', hv', hne⟩ := Schema.snd_of_trailing hpart _ hmem
    obtain rfl : found = .json v' := hv'
    exact hne (Option.some.inj hjson)
  · cases he

end ResponseError

/-! ## Messages -/

namespace Message

/-- A message when it has arrived. -/
def arrived : Message → Message
  | .response ⟨id, .error e⟩ => .response ⟨id, .error e.arrived⟩
  | m => m

/-- Only an error whose data is a null is changed on the way. -/
theorem arrived_eq_iff (m : Message) : m.arrived = m
    ↔ ¬ ∃ id code message, m = .response ⟨id, .error ⟨code, message, some .null⟩⟩ := by
  cases m with
  | request id method params => simp [arrived]
  | notification method params => simp [arrived]
  | response r =>
    obtain ⟨id, outcome⟩ := r
    cases outcome with
    | ok v => simp [arrived]
    | error e =>
      have he := e.arrived_eq_iff
      obtain ⟨code, message, data⟩ := e
      simp only [arrived, response.injEq, Response.mk.injEq, Except.error.injEq, true_and, he,
        ResponseError.mk.injEq]
      grind

/-- The error of a response is read as it arrives. -/
theorem ofJson?_error (id : Option RequestId) (e : ResponseError) :
    Message.ofJson? (toJson (.response ⟨id, .error e⟩))
      = .ok (.response ⟨id, .error e.arrived⟩) := by
  simp only [toJson, Json.ofMembers, ofJson?]
  generalize hmembers : List.foldl _ _ _ = members
  have hversion : Json.lookup "jsonrpc" members = some (.str version) := by
    simp [← hmembers, Json.lookup_bind]
  have hmethod : Json.lookup "method" members = none := by
    simp [← hmembers, Json.lookup_bind, Json.lookup]
  have herror : Json.lookup "error" members = some e.toJson := by
    simp [← hmembers, Json.lookup_bind]
  have hid : idOf? members = .ok id := by
    cases id with
    | none => simp [← hmembers, idOf?, Json.lookup_bind]
    | some id => exact idOf?_some (by simp [← hmembers, Json.lookup_bind])
  rw [ofMembers?_response hversion hid hmethod, responseOf?]
  simp only [herror, e.ofJson?_toJson_arrived, Option.getD_some]

/-- **A message is read as what it is when it has arrived.** -/
theorem ofJson?_toJson_arrived (m : Message) : Message.ofJson? m.toJson = .ok m.arrived := by
  cases m with
  | request id method params => exact ofJson?_toJson nofun
  | notification method params => exact ofJson?_toJson nofun
  | response r =>
    obtain ⟨id, outcome⟩ := r
    cases outcome with
    | ok v => exact ofJson?_toJson nofun
    | error e => exact ofJson?_error id e

/-- **What has been read has arrived,** whatever it was read from. -/
theorem arrived_of_ofJson? {v : Json} {m : Message} (h : Message.ofJson? v = .ok m) :
    m.arrived = m := by
  -- Only a response can carry an error, and its error has been read.
  have hresponse : ∀ {id members}, responseOf? id members = .ok m → m.arrived = m := by
    intro id members hm
    simp only [responseOf?] at hm
    split at hm
    · case h_1 v _ =>
      cases hm
      cases he : ResponseError.ofJson? v with
      | none => rfl
      | some e => rw [Option.getD_some, arrived, ResponseError.arrived_of_ofJson? he]
    · split at hm <;> cases hm
      rfl
  cases v with
  | obj members =>
    simp only [ofJson?, ofMembers?] at h
    split at h
    · cases h
    · split at h
      · cases h
      · split at h
        · split at h <;> cases h <;> rfl
        · cases h
        · exact hresponse h
  | _ => cases h

/-- The member by which a message is known for what it is. -/
def mark : Message → String
  | .request _ _ _ => "method"
  | .notification _ _ => "method"
  | .response ⟨_, .ok _⟩ => "result"
  | .response ⟨_, .error _⟩ => "error"

/-- Of the three members that tell messages apart, a message is written with its own. -/
theorem isSome_get?_iff (m : Message) {k : String} (hk : k ∈ ["method", "result", "error"]) :
    (m.toJson.get? k).isSome = true ↔ k = m.mark := by
  simp only [List.mem_cons, List.not_mem_nil, or_false] at hk
  cases m with
  | request id method params =>
    simp only [toJson, Json.ofMembers, List.foldl_append, Json.get?]
    rcases hk with rfl | rfl | rfl <;>
      simp [lookup_paramsMember, Json.lookup_bind, Json.lookup, mark]
  | notification method params =>
    simp only [toJson, Json.ofMembers, List.foldl_append, Json.get?]
    rcases hk with rfl | rfl | rfl <;>
      simp [lookup_paramsMember, Json.lookup_bind, Json.lookup, mark]
  | response r =>
    obtain ⟨id, outcome⟩ := r
    cases outcome <;> rcases hk with rfl | rfl | rfl <;>
      simp [toJson, Json.ofMembers, Json.get?, Json.lookup_bind, Json.lookup, mark]

/-- **Reading undoes writing, but for a null in the place of an error's data, and what has been read
is read again.** A message is read as it was written unless it is an error whose data is an explicit
null, and then it is read without the data. Every message that is read from any value is written as
an object with exactly one of `method`, `result` and `error`, from which it is read again. -/
theorem read_undoes_write :
    (∀ m : Message, Message.ofJson? m.toJson = .ok m
      ↔ ¬ ∃ id code message, m = .response ⟨id, .error ⟨code, message, some .null⟩⟩)
    ∧ (∀ id code message,
      Message.ofJson? (toJson (.response ⟨id, .error ⟨code, message, some .null⟩⟩))
        = .ok (.response ⟨id, .error ⟨code, message, none⟩⟩))
    ∧ ∀ (v : Json) (m : Message), Message.ofJson? v = .ok m →
      Message.ofJson? m.toJson = .ok m
      ∧ ∃! k, k ∈ ["method", "result", "error"] ∧ (m.toJson.get? k).isSome = true := by
  refine ⟨fun m => ?_, fun id code message => ofJson?_error id _, fun v m h => ⟨?_, ?_⟩⟩
  · rw [ofJson?_toJson_arrived, ← arrived_eq_iff, Except.ok.injEq]
  · rw [ofJson?_toJson_arrived, arrived_of_ofJson? h]
  · have hmark : m.mark ∈ ["method", "result", "error"] := by
      unfold mark
      split <;> simp
    refine ⟨m.mark, ⟨hmark, (isSome_get?_iff m hmark).mpr rfl⟩, ?_⟩
    rintro k ⟨hk, hsome⟩
    exact (isSome_get?_iff m hk).mp hsome

/-- A response with an array for its error and a null for data in it, with a result besides, an id
that is null, no version, and a member that means nothing. -/
def oddResponse : Json :=
  .obj [("error", .arr [.int (-32601), .str "no", .null]), ("id", .null), ("note", .bool true),
    ("result", .int 1)]

/-- What was read from it is written without the null, and read as the same. -/
theorem read_undoes_write_oddResponse :
    Message.ofJson? (toJson (.response ⟨none, .error ⟨-32601, "no", none⟩⟩))
      = .ok (.response ⟨none, .error ⟨-32601, "no", none⟩⟩) := by
  have hread : Message.ofJson? oddResponse = .ok (.response ⟨none, .error ⟨-32601, "no", none⟩⟩) :=
    rfl
  exact (read_undoes_write.2.2 oddResponse _ hread).1

end Message

end FlagServer
