import FlagServer.Proofs.Connection.Traffic
import FlagServer.Proofs.Framing
import FlagServer.Proofs.Json

/-!
# Messages that arrive as they were sent

A message passes four layers on its way: it becomes an object, the object becomes text, the text
becomes bytes, and the bytes become a frame. On the other side each layer is undone in turn. The
layers below have their laws already (`Frame.readAll_writes`, `Json.parseBytes?_renderBytes`); what
is left is the outermost, which members of the object are what the message was made of.

One thing is lost on the way by design. An error whose data is an explicit null arrives without
data, because a reader takes a null there for nothing.
-/

namespace FlagServer

/-! ## Members of an object -/

namespace Json

/-- A binding is found again, and no other has changed. -/
theorem lookup_bind (k key : String) (v : Json) (members : List (String × Json)) :
    lookup k (bind key v members) = if key = k then some v else lookup k members := by
  fun_induction bind key v members with
  | case1 => simp [lookup]
  | case2 w w' rest hk =>
    rw [beq_iff_eq.mp hk]
    by_cases h : key = k <;> simp [lookup, h]
  | case3 w w' rest hk hbefore => simp [lookup]
  | case4 w w' rest hk hbefore ih =>
    by_cases h : key = k
    · have hne : ¬ w = k := fun heq => hk (beq_iff_eq.mpr (heq.trans h.symm))
      rw [if_pos h] at ih ⊢
      simp [lookup, ih, hne]
    · simp [lookup, ih, h]

/-- What holds of every value that is bound, and of every object with its keys in order, holds
throughout the object. -/
theorem all_ofMembers {p : Json → Bool} (hobj : ∀ ms, Ordered ms → p (.obj ms) = true)
    {members : List (String × Json)} (h : ∀ m ∈ members, m.2.all p = true) :
    (ofMembers members).all p = true := by
  -- The members are bound one after the other, and every binding leaves the keys in order and adds
  -- one value.
  have hfold : ∀ acc, Ordered acc → allMembers p acc = true →
      Ordered (members.foldl (fun acc m => bind m.1 m.2 acc) acc)
        ∧ allMembers p (members.foldl (fun acc m => bind m.1 m.2 acc) acc) = true := by
    induction members with
    | nil => exact fun acc hordered hall => ⟨hordered, hall⟩
    | cons m members ih =>
      intro acc hordered hall
      refine ih (fun n hn => h n (List.mem_cons_of_mem _ hn)) _ (hordered.bind m.1 m.2) ?_
      rw [allMembers_iff] at hall ⊢
      intro n hn
      rcases mem_bind hn with rfl | hn
      · exact h m List.mem_cons_self
      · exact hall n hn
  obtain ⟨hordered, hall⟩ := hfold [] .nil rfl
  rw [ofMembers, all, hobj _ hordered, Bool.true_and]
  exact hall

end Json

/-! ## One message -/

/-- An id is read as it was written. A number has 32 bits, and so it is within bounds. -/
theorem RequestId.ofJson?_toJson (id : RequestId) : RequestId.ofJson? id.toJson = some id := by
  cases id with
  | number n =>
    have hmin : minNumber ≤ n.toInt := Int32.le_toInt n
    have hmax : n.toInt ≤ maxNumber := Int.le_of_lt_add_one (Int32.toInt_lt n)
    simp [toJson, ofJson?, hmin, hmax]
  | text s => rfl

namespace ResponseError

/-- What the members of an object say of an error: a null in the place of data is none. -/
theorem ofJson?_obj {members : List (String × Json)} {code : Int32} {message : String}
    (hcode : Json.lookup "code" members = some (.num (.int code.toInt)))
    (hmessage : Json.lookup "message" members = some (.str message)) :
    ofJson? (.obj members) = some
      { code, message
        data := (Json.lookup "data" members).filter fun v => !Schema.isNull v } := by
  have hmin : -2147483648 ≤ code.toInt := Int32.le_toInt code
  have hmax : code.toInt ≤ 2147483647 := Int.le_of_lt_add_one (Int32.toInt_lt code)
  have hfields : Schema.decodeFields? [("code", .required, .int32), ("message", .required, .text),
      ("data", .trailing, .any)] members
      = some ([("code", .int code.toInt), ("message", .text message)] ++
        (((Json.lookup "data" members).filter fun v => !Schema.isNull v).map
          fun v => ("data", .json v)).toList) := by
    simp only [Schema.decodeFields?, Schema.decodeField?, Schema.decode?, Schema.int32, hcode,
      hmessage, hmin, hmax, and_self, if_true, Option.map_some]
    cases Json.lookup "data" members with
    | none => rfl
    | some v => cases hnull : Schema.isNull v <;> simp [Option.filter, hnull]
  rw [ofJson?, schema, Schema.fields, Schema.decode?, hfields]
  simp only [Schema.decodeOthers?, Option.bind_some, List.append_nil]
  cases (Json.lookup "data" members).filter fun v => !Schema.isNull v <;>
    simp [ofDatum?, Datum.get?, Datum.lookup, Datum.int?, Datum.text?, Datum.json?]

/-- An error is read as it was written, unless its data is an explicit null. -/
theorem ofJson?_toJson {e : ResponseError} (hdata : e.data ≠ some .null) :
    ofJson? e.toJson = some e := by
  obtain ⟨code, message, data⟩ := e
  cases data with
  | none =>
    rw [toJson, Json.ofMembers, ofJson?_obj (by simp [Json.lookup_bind]; rfl)
      (by simp [Json.lookup_bind]; rfl)]
    simp [Json.lookup_bind, Json.lookup]
  | some v =>
    have hnull : Schema.isNull v = false := by
      cases v with
      | null => exact absurd rfl hdata
      | _ => rfl
    rw [toJson, Json.ofMembers, ofJson?_obj (by simp [Json.lookup_bind]; rfl)
      (by simp [Json.lookup_bind]; rfl)]
    simp [Json.lookup_bind, Option.filter, hnull]

end ResponseError

namespace Message

section Members

variable {members : List (String × Json)}
  (hversion : Json.lookup "jsonrpc" members = some (.str version))

include hversion

theorem checkVersion_of_lookup (id : Option RequestId) : checkVersion id members = .ok () := by
  simp [checkVersion, hversion]

/-- An object with an id and a method is a request. -/
theorem ofMembers?_request {id : RequestId} {method : String}
    (hid : idOf? members = .ok (some id))
    (hmethod : Json.lookup "method" members = some (.str method)) :
    ofMembers? members
      = .ok (.request id method ((Json.lookup "params" members).getD .null)) := by
  simp only [ofMembers?, hid, checkVersion_of_lookup hversion, hmethod]

/-- One with a method and no id is a notification. -/
theorem ofMembers?_notification {method : String} (hid : idOf? members = .ok none)
    (hmethod : Json.lookup "method" members = some (.str method)) :
    ofMembers? members
      = .ok (.notification method ((Json.lookup "params" members).getD .null)) := by
  simp only [ofMembers?, hid, checkVersion_of_lookup hversion, hmethod]

theorem ofMembers?_response {id : Option RequestId} (hid : idOf? members = .ok id)
    (hmethod : Json.lookup "method" members = none) :
    ofMembers? members = responseOf? id members := by
  simp only [ofMembers?, hid, checkVersion_of_lookup hversion, hmethod]

end Members

/-- The id of a message is found where it was written. -/
theorem idOf?_some {members : List (String × Json)} {id : RequestId}
    (h : Json.lookup "id" members = some id.toJson) : idOf? members = .ok (some id) := by
  have hread := RequestId.ofJson?_toJson id
  rw [idOf?, h]
  cases id <;> simp_all [RequestId.toJson]

/-- The value that a message carries: parameters, a result, or the data of an error. -/
def payload : Message → Json
  | .request _ _ params => params
  | .notification _ params => params
  | .response r =>
    match r.outcome with
    | .ok v => v
    | .error e => e.data.getD .null

/-- Parameters are found where they were bound, and null is found where nothing is bound. -/
theorem lookup_params (params : Json) {members : List (String × Json)}
    (h : Json.lookup "params" members = none) :
    (Json.lookup "params" ((paramsMember params).foldl (fun acc m => Json.bind m.1 m.2 acc)
      members)).getD .null = params := by
  cases params <;> simp [paramsMember, Json.lookup_bind, h]

/-- The members for parameters bind nothing else. -/
theorem lookup_paramsMember (params : Json) {k : String} (hk : "params" ≠ k)
    (members : List (String × Json)) :
    Json.lookup k ((paramsMember params).foldl (fun acc m => Json.bind m.1 m.2 acc) members)
      = Json.lookup k members := by
  cases params <;> simp [paramsMember, Json.lookup_bind, hk]

/-- **The object of a message is that message.** -/
theorem ofJson?_toJson {m : Message}
    (hdata : ∀ id e, m = .response ⟨id, .error e⟩ → e.data ≠ some .null) :
    Message.ofJson? m.toJson = .ok m := by
  cases m with
  | request id method params =>
    simp only [toJson, Json.ofMembers, List.foldl_append, ofJson?]
    generalize hmembers : List.foldl _ _ (paramsMember params) = members
    have hversion : Json.lookup "jsonrpc" members = some (.str version) := by
      simp [← hmembers, lookup_paramsMember, Json.lookup_bind]
    have hid : Json.lookup "id" members = some id.toJson := by
      simp [← hmembers, lookup_paramsMember, Json.lookup_bind]
    have hmethod : Json.lookup "method" members = some (.str method) := by
      simp [← hmembers, lookup_paramsMember, Json.lookup_bind]
    have hparams : (Json.lookup "params" members).getD .null = params := by
      rw [← hmembers, lookup_params]
      simp [Json.lookup_bind, Json.lookup]
    rw [ofMembers?_request hversion (idOf?_some hid) hmethod, hparams]
  | notification method params =>
    simp only [toJson, Json.ofMembers, List.foldl_append, ofJson?]
    generalize hmembers : List.foldl _ _ (paramsMember params) = members
    have hversion : Json.lookup "jsonrpc" members = some (.str version) := by
      simp [← hmembers, lookup_paramsMember, Json.lookup_bind]
    have hid : Json.lookup "id" members = none := by
      simp [← hmembers, lookup_paramsMember, Json.lookup_bind, Json.lookup]
    have hmethod : Json.lookup "method" members = some (.str method) := by
      simp [← hmembers, lookup_paramsMember, Json.lookup_bind]
    have hparams : (Json.lookup "params" members).getD .null = params := by
      rw [← hmembers, lookup_params]
      simp [Json.lookup_bind, Json.lookup]
    have hnone : idOf? members = .ok none := by simp only [idOf?, hid]
    rw [ofMembers?_notification hversion hnone hmethod, hparams]
  | response r =>
    obtain ⟨id, outcome⟩ := r
    simp only [toJson, Json.ofMembers, ofJson?]
    generalize hmembers : List.foldl _ _ _ = members
    have hversion : Json.lookup "jsonrpc" members = some (.str version) := by
      cases outcome <;> simp [← hmembers, Json.lookup_bind]
    have hmethod : Json.lookup "method" members = none := by
      cases outcome <;> simp [← hmembers, Json.lookup_bind, Json.lookup]
    have hid : idOf? members = .ok id := by
      cases id with
      | none => cases outcome <;> simp [← hmembers, idOf?, Json.lookup_bind]
      | some id =>
        apply idOf?_some
        cases outcome <;> simp [← hmembers, Json.lookup_bind]
    rw [ofMembers?_response hversion hid hmethod, responseOf?]
    cases outcome with
    | ok v => simp [← hmembers, Json.lookup_bind, Json.lookup]
    | error e =>
      have herror := ResponseError.ofJson?_toJson (hdata id e rfl)
      simp [← hmembers, Json.lookup_bind, herror]

/-- What holds of the value that a message carries, of all strings and all small integers, and of
every object in order, holds throughout the object of the message. -/
theorem all_toJson {p : Json → Bool} (hobj : ∀ ms, Json.Ordered ms → p (.obj ms) = true)
    (hstr : ∀ s, p (.str s) = true) (hnull : p .null = true)
    (hint : ∀ n : Int32, p (.num (.int n.toInt)) = true)
    {m : Message} (h : m.payload.all p = true) : m.toJson.all p = true := by
  have htext : ∀ s, (Json.str s).all p = true := fun s => by rw [Json.all] <;> simp [hstr]
  have hid : ∀ id : RequestId, id.toJson.all p = true := by
    intro id
    cases id with
    | number n => rw [RequestId.toJson, Json.all] <;> simp [hint]
    | text s => exact htext s
  -- Null parameters are not written at all.
  have hparams : ∀ params : Json, params.all p = true →
      ∀ m ∈ paramsMember params, m.2.all p = true := by
    intro params hparams m hm
    cases params with
    | null => cases hm
    | _ =>
      rw [paramsMember, List.mem_singleton] at hm
      · rw [hm]
        exact hparams
      · simp
  have herror : ∀ e : ResponseError, (e.data.getD .null).all p = true → e.toJson.all p = true := by
    intro e hdata
    have hcode : (Json.num (.int e.code.toInt)).all p = true := by rw [Json.all] <;> simp [hint]
    refine Json.all_ofMembers hobj ?_
    cases hd : e.data with
    | none => simp [hcode, htext]
    | some v =>
      rw [hd, Option.getD_some] at hdata
      simp [hcode, htext, hdata]
  cases m with
  | request id method params =>
    refine Json.all_ofMembers hobj (List.forall_mem_append.mpr ⟨?_, hparams params h⟩)
    simp [htext, hid]
  | notification method params =>
    refine Json.all_ofMembers hobj (List.forall_mem_append.mpr ⟨?_, hparams params h⟩)
    simp [htext]
  | response r =>
    obtain ⟨id, outcome⟩ := r
    have hnone : Json.null.all p = true := by rw [Json.all] <;> simp [hnull]
    refine Json.all_ofMembers hobj ?_
    cases outcome with
    | ok v =>
      have hv : v.all p = true := h
      cases id <;> simp [htext, hid, hnone, hv]
    | error e =>
      have he := herror e h
      cases id <;> simp [htext, hid, hnone, he]

/-- The object of a message is a value that a program can hold, if what the message carries is. -/
theorem isCanonical_toJson {m : Message} (h : m.payload.isCanonical = true) :
    m.toJson.isCanonical = true := by
  refine all_toJson (fun ms hms => decide_eq_true hms) (fun _ => rfl) rfl (fun n => ?_) h
  -- A number of 32 bits is within the bounds of 64.
  have hmin : Json.minInt ≤ n.toInt := Int.le_trans (by decide) (Int32.le_toInt n)
  have hmax : n.toInt ≤ Json.maxInt := Int.le_trans (Int.le_of_lt (Int32.toInt_lt n)) (by decide)
  simp [Json.isWellFormed, hmin, hmax]

theorem hasNoReal_toJson {m : Message} (h : m.payload.hasNoReal = true) :
    m.toJson.hasNoReal = true :=
  all_toJson (fun _ _ => rfl) (fun _ => rfl) rfl (fun _ => rfl) h

/-! ## Many messages on one stream -/

/-- A message that is carried as it is: the value in it is one that a program can hold and holds no
double, it is nested no deeper and is no longer than a reader takes, and the data of an error is not
an explicit null. -/
structure Portable (m : Message) : Prop where
  canonical : m.payload.isCanonical = true
  noReal : m.payload.hasNoReal = true
  depth : m.toJson.depth ≤ Json.maxDepth
  noNullData : ∀ id e, m = .response ⟨id, .error e⟩ → e.data ≠ some .null
  fits : m.toJson.renderBytes.length ≤ Frame.maxBody

/-- The frame of a message. -/
def frame (m : Message) : List UInt8 :=
  Frame.write m.toJson.renderBytes

/-- Reads a whole stream: what the body of each frame says, and the fault that ended the reading, if
one did. -/
def readAll (s : List UInt8) : List (Except Malformed Message) × Option FrameError :=
  ((Frame.readAll s).1.map Message.ofBody, (Frame.readAll s).2)

/-- **One message arrives as it was sent.** -/
theorem ofBody_renderBytes {m : Message} (h : m.Portable) :
    Message.ofBody m.toJson.renderBytes = .ok m := by
  have hparse : Json.parseBytes? m.toJson.renderBytes = some m.toJson :=
    Json.parseBytes?_renderBytes (isCanonical_toJson h.canonical) (hasNoReal_toJson h.noReal)
      h.depth
  rw [Message.ofBody, hparse]
  exact ofJson?_toJson h.noNullData

/-- **Messages arrive as they were sent.** Whatever the messages are, written one after the other
into one stream they are read back as the same messages in the same order. Nothing is left after the
last, and there the stream ends between frames. -/
theorem messages_arrive {ms : List Message} (h : ∀ m ∈ ms, m.Portable) :
    readAll (ms.flatMap frame) = (ms.map .ok, none)
      ∧ (∃ bodies, Frame.readFrames? true ms.length (ms.flatMap frame) = some (bodies, [])
        ∧ bodies.map Message.ofBody = ms.map .ok)
      ∧ Frame.read true [] = .finished := by
  have hbodies : ∀ body ∈ ms.map fun m => m.toJson.renderBytes, body.length ≤ Frame.maxBody := by
    intro body hbody
    obtain ⟨m, hm, rfl⟩ := List.mem_map.mp hbody
    exact (h m hm).fits
  -- The stream is that of the bodies, with nothing after it.
  have hstream : ms.flatMap frame
      = (ms.map fun m => m.toJson.renderBytes).flatMap Frame.write ++ [] := by
    rw [List.append_nil, List.flatMap_map]
    rfl
  have hread : (ms.map fun m => m.toJson.renderBytes).map Message.ofBody = ms.map .ok := by
    rw [List.map_map]
    exact List.map_congr_left fun m hm => ofBody_renderBytes (h m hm)
  refine ⟨?_, ⟨_, ?_, hread⟩, by decide +kernel⟩
  · rw [readAll, hstream, Frame.readAll_writes hbodies [], Frame.readAll_nil, List.append_nil,
      hread]
  · have hframes := Frame.readFrames?_writes hbodies true []
    rwa [List.length_map, ← hstream] at hframes

/-- Messages of every kind: ids of both kinds and none, no parameters, keys and strings that have to
be escaped, the greatest and the least integer, and an error with data. -/
def motley : List Message :=
  [.request (.text "1\"") "textDocument/hover"
      (.obj [("", .arr [.int (-9223372036854775808), .int 18446744073709551615]),
        ("a\\b", .str "\x00\n\x7f\u00e9😀")]),
    .notification "exit" .null,
    .response ⟨none, .ok .null⟩,
    .response ⟨some (.number (-1)), .error ⟨-32601, "Method not found: x", some (.bool false)⟩⟩]

/-- They all arrive. -/
theorem messages_arrive_motley :
    readAll (motley.flatMap frame) = (motley.map .ok, none) := by
  have hportable : ∀ m ∈ motley, m.Portable := by
    simp only [motley, List.forall_mem_cons]
    refine ⟨?_, ?_, ?_, ?_, by simp⟩
    all_goals
      refine ⟨by decide +kernel, by decide +kernel, by decide +kernel, ?_, by decide +kernel⟩
      intro id e heq
      cases heq
    simp
  exact (messages_arrive hportable).1

end Message

end FlagServer
