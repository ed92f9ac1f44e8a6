import FlagServer.Proofs.Schema
import FlagServer.Protocol.Catalogue

/-!
# Parameters that survive the wire

A client may write the parameters of a method in many ways, and the registry reads them all. What it
has read can be sent on: written as a message of the same method and read by the same registry, it
is the same message with the same parameters.

The argument is the one of `Schema.Restores`, and all that is asked of the methods is that their
schemas are regular. One step comes on top: a message without parameters is read as one with an
empty object where null does not fit.
-/

namespace FlagServer

/-- What was read as parameters is read again from what it is written as. -/
theorem PayloadType.decode?_again {t : PayloadType} (ht : t.schema.isRegular = true) {v : Json}
    {d : Datum} (hv : v.isCanonical = true) (h : t.decode? v = some d) (hspelled : d.Spelled) :
    t.decode? d.encode = some d := by
  have hrestores := Schema.restores_of_isRegular t.schema ht
  have hagain : t.schema.decode? d.encode = some d := by
    unfold decode? at h
    -- The value fitted, or it was null and an empty object took its place. Either way what was read
    -- is read again by the schema alone.
    split at h
    · case h_1 hread =>
      cases h
      exact hrestores hv hread hspelled
    · split at h
      · exact hrestores (v := .obj []) rfl h hspelled
      · cases h
  simp only [decode?, hagain]

namespace Registry

variable {r : Registry}

/-- In a registry without two methods of one name, every method is found under its name: none before
it has that name. -/
theorem find?_of_mem (hnodup : (r.methods.map (·.name)).Nodup) {m : Method}
    (hm : m ∈ r.methods) : r.find? m.name = some m := by
  obtain ⟨front, back, hmethods⟩ := List.append_of_mem hm
  rw [hmethods, List.map_append, List.nodup_append] at hnodup
  have hfront : (front.find? fun n => n.name == m.name) = none := by
    rw [List.find?_eq_none]
    intro n hn
    have hne := hnodup.2.2 n.name (List.mem_map_of_mem hn) m.name (by simp)
    simpa using hne
  rw [find?, hmethods, List.find?_append, hfront]
  simp

/-- Methods of different names are all bound, one after the other. -/
theorem methods_registerAll {ms : List Method}
    (hnodup : ((r.methods ++ ms).map (·.name)).Nodup) :
    (r.registerAll ms).methods = r.methods ++ ms := by
  induction ms generalizing r with
  | nil => simp [registerAll]
  | cons m ms ih =>
    -- The head has another name than all that are bound, so it goes to the end.
    have hfresh : r.find? m.name = none := by
      rw [find?, List.find?_eq_none]
      intro n hn
      rw [List.map_append, List.nodup_append] at hnodup
      have hne := hnodup.2.2 n.name (List.mem_map_of_mem hn) m.name (by simp)
      simpa using hne
    have hregister : r.register m = .ok ⟨r.methods ++ [m]⟩ := by rw [register, hfresh]
    have hnext := ih (r := ⟨r.methods ++ [m]⟩) (by simpa using hnodup)
    rw [registerAll, List.foldl_cons, hregister]
    exact hnext.trans (List.append_assoc _ _ _)

/-- What is decoded is what the method of the name reads, if it is of the kind. -/
theorem decodeParams_eq_ok_iff {name : String} {kind : Kind} {v : Json} {m : Method} {d : Datum} :
    r.decodeParams name kind v = .ok (m, d)
      ↔ r.find? name = some m ∧ m.kind = kind ∧ m.params.decode? v = some d := by
  unfold decodeParams lookup
  cases hfind : r.find? name with
  | none => simp
  | some n =>
    by_cases hkind : n.kind = kind
    · cases hread : n.params.decode? v with
      | none =>
        simp only [hkind, hread, BEq.rfl, if_true, reduceCtorEq, false_iff]
        rintro ⟨heq, -, hd⟩
        cases heq
        rw [hread] at hd
        cases hd
      | some e =>
        simp only [hkind, hread, BEq.rfl, if_true, Except.ok.injEq, Prod.mk.injEq,
          Option.some.injEq]
        constructor
        · rintro ⟨rfl, rfl⟩
          exact ⟨rfl, hkind, hread⟩
        · rintro ⟨rfl, -, hd⟩
          rw [hread] at hd
          exact ⟨rfl, Option.some.inj hd⟩
    · simp only [beq_eq_false_iff_ne.mpr hkind, Bool.false_eq_true, if_false, reduceCtorEq,
        false_iff]
      rintro ⟨heq, hm, -⟩
      cases heq
      exact hkind hm

/-- A request is decoded exactly as what the method of its name reads, and it remembers the names of
the method and of its type. -/
theorem decodeRequest_eq_ok_iff {id : RequestId} {name : String} {v : Json}
    {request : IncomingRequest} :
    r.decodeRequest id name v = .ok request
      ↔ ∃ m d, r.find? name = some m ∧ m.kind = .request ∧ m.params.decode? v = some d
        ∧ request = ⟨id, m.name, m.params.name, d⟩ := by
  rw [decodeRequest]
  constructor
  · intro h
    cases hparams : r.decodeParams name .request v with
    | error e => rw [hparams] at h; cases h
    | ok found =>
      rw [hparams] at h
      cases h
      obtain ⟨hfind, hkind, hread⟩ := decodeParams_eq_ok_iff.mp hparams
      exact ⟨found.1, found.2, hfind, hkind, hread, rfl⟩
  · rintro ⟨m, d, hfind, hkind, hread, rfl⟩
    rw [decodeParams_eq_ok_iff.mpr ⟨hfind, hkind, hread⟩]
    rfl

/-- So is a notification. -/
theorem decodeNotification_eq_ok_iff {name : String} {v : Json} {n : IncomingNotification} :
    r.decodeNotification name v = .ok n
      ↔ ∃ m d, r.find? name = some m ∧ m.kind = .notification ∧ m.params.decode? v = some d
        ∧ n = ⟨m.name, m.params.name, d⟩ := by
  rw [decodeNotification]
  constructor
  · intro h
    cases hparams : r.decodeParams name .notification v with
    | error e => rw [hparams] at h; cases h
    | ok found =>
      rw [hparams] at h
      cases h
      obtain ⟨hfind, hkind, hread⟩ := decodeParams_eq_ok_iff.mp hparams
      exact ⟨found.1, found.2, hfind, hkind, hread, rfl⟩
  · rintro ⟨m, d, hfind, hkind, hread, rfl⟩
    rw [decodeParams_eq_ok_iff.mpr ⟨hfind, hkind, hread⟩]
    rfl

end Registry

namespace Catalogue

/-- The methods of the catalogue have names of their own. -/
theorem names_nodup : ((requests ++ notifications).map (·.name)).Nodup := by decide

/-- So all of them are bound. -/
theorem methods_registry : registry.methods = requests ++ notifications := by
  have hrequests : (({} : Registry).registerAll requests).methods = requests :=
    Registry.methods_registerAll (by decide)
  rw [registry, Registry.methods_registerAll, hrequests]
  rw [hrequests]
  exact names_nodup

/-- Their parameters have regular schemas, which is all that the theory of schemas asks for. -/
theorem schemas_regular : ∀ m ∈ requests ++ notifications, m.params.schema.isRegular = true := by
  decide

/-- A method of the catalogue is what its name is bound to. -/
theorem find?_registry {m : Method} (hm : m ∈ requests ++ notifications) :
    registry.find? m.name = some m := by
  refine Registry.find?_of_mem ?_ ?_
  · rw [methods_registry]
    exact names_nodup
  · rw [methods_registry]
    exact hm

/-- **Parameters survive the wire.** The registry binds the twenty-five methods of the catalogue.
Whatever value the parameters of a message were read from, the message that is made of them under
the same method is read as that message, decoded by the same registry as the same parameters, and
gives them to who asks for the method. -/
theorem params_survive :
    registry.methods = requests ++ notifications ∧ registry.size = 25
    ∧ (∀ m ∈ requests, ∀ id v r, v.isCanonical = true →
        registry.decodeRequest id m.name v = .ok r → r.params.Spelled → ∀ newId,
        Message.ofJson? (Message.request newId m.name r.params.encode).toJson
            = .ok (.request newId m.name r.params.encode)
          ∧ registry.decodeRequest newId m.name r.params.encode = .ok { r with id := newId }
          ∧ r.extract m = .ok (id, r.params)
          ∧ IncomingRequest.extract { r with id := newId } m = .ok (newId, r.params))
    ∧ (∀ m ∈ notifications, ∀ v n, v.isCanonical = true →
        registry.decodeNotification m.name v = .ok n → n.params.Spelled →
        Message.ofJson? (Message.notification m.name n.params.encode).toJson
            = .ok (.notification m.name n.params.encode)
          ∧ registry.decodeNotification m.name n.params.encode = .ok n
          ∧ n.extract m = .ok n.params) := by
  refine ⟨methods_registry, ?_, ?_, ?_⟩
  · rw [Registry.size, methods_registry]
    rfl
  · intro m hm id v r hv hdecode hspelled newId
    have hbound := find?_registry (List.mem_append_left _ hm)
    obtain ⟨n, d, hn, hkind, hread, rfl⟩ := Registry.decodeRequest_eq_ok_iff.mp hdecode
    -- What was decoded was decoded under `m`, since that is what the name is bound to.
    obtain rfl : m = n := Option.some.inj (hbound.symm.trans hn)
    have hagain : m.params.decode? d.encode = some d :=
      PayloadType.decode?_again (schemas_regular m (List.mem_append_left _ hm)) hv hread hspelled
    refine ⟨Message.ofJson?_toJson (by simp), ?_, ?_, ?_⟩
    · exact Registry.decodeRequest_eq_ok_iff.mpr ⟨m, d, hbound, hkind, hagain, rfl⟩
    · simp [IncomingRequest.extract, IncomingRequest.is]
    · simp [IncomingRequest.extract, IncomingRequest.is]
  · intro m hm v n hv hdecode hspelled
    have hbound := find?_registry (List.mem_append_right _ hm)
    obtain ⟨o, d, ho, hkind, hread, rfl⟩ := Registry.decodeNotification_eq_ok_iff.mp hdecode
    obtain rfl : m = o := Option.some.inj (hbound.symm.trans ho)
    have hagain : m.params.decode? d.encode = some d :=
      PayloadType.decode?_again (schemas_regular m (List.mem_append_right _ hm)) hv hread hspelled
    refine ⟨Message.ofJson?_toJson (by simp), ?_, ?_⟩
    · exact Registry.decodeNotification_eq_ok_iff.mpr ⟨m, d, hbound, hkind, hagain, rfl⟩
    · simp [IncomingNotification.extract, IncomingNotification.is]

/-- Parameters of formatting with all that can be written in another way: an array for the document,
options of the client's own before and between the known ones, nulls for what is absent, and a key
that means nothing. -/
def oddFormatting : Json :=
  .obj [("options", .obj [("aardvark", .str "x"), ("insertFinalNewline", .null),
      ("insertSpaces", .bool true), ("keepTabs", .bool false), ("tabSize", .int 4),
      ("zoom", .int (-1))]),
    ("textDocument", .arr [.str "file:///a%20b"]), ("unknown", .null), ("workDoneToken", .null)]

/-- What came of it is written in the one way that the server writes. -/
theorem params_survive_oddFormatting :
    ∃ r, registry.decodeRequest (.number 1) formatting.name oddFormatting = .ok r
      ∧ registry.decodeRequest (.text "2") formatting.name r.params.encode
          = .ok { r with id := .text "2" } := by
  have hgood : (match registry.decodeRequest (.number 1) formatting.name oddFormatting with
      | .ok r => decide r.params.Spelled
      | .error _ => false) = true := by decide +kernel
  -- The parameters are decoded, and every locator in them has a spelling.
  split at hgood
  · case h_1 r hr =>
    refine ⟨r, hr, ?_⟩
    exact (params_survive.2.2.1 formatting (by simp [requests]) (.number 1) oddFormatting r
      (by decide +kernel) hr (of_decide_eq_true hgood) (.text "2")).2.1
  · cases hgood

end Catalogue

end FlagServer
