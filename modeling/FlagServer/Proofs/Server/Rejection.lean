import FlagServer.Proofs.Envelope
import FlagServer.Proofs.Server.Course

/-!
# Frames that are rejected

A frame may be no JSON, no message, a request that nobody can take or a notification that cannot be
read. `Connection.Rejects` says which frames are rejected, in terms of the value in the frame and of
the tables of the connection. To reject a frame changes nothing but the queue: the sender of
anything but a notification is told, under the id of its envelope where that can be read.

What it is told is a response. A response is never answered, and no response is rejected, so a
rejection is where an exchange of messages ends (`rejected_inert`): two ends of a connection cannot
go on telling each other that they do not understand.
-/

namespace FlagServer

/-! ## Envelopes -/

namespace Json

/-- The id in an envelope, where it is one. -/
def envelopeId? (v : Json) : Option RequestId :=
  (v.get? "id").bind RequestId.ofJson?

/-- An envelope has a method, which is a string, or it has an error or a result instead. -/
def HasContent (v : Json) : Prop :=
  (∃ method, v.get? "method" = some (.str method))
    ∨ v.get? "method" = none ∧ (v.get? "error" ≠ none ∨ v.get? "result" ≠ none)

/-- A well-formed envelope. -/
structure IsEnvelope (v : Json) : Prop where
  object : ∃ members, v = .obj members
  /-- There is no id, or it is null, a number of 32 bits or a string. -/
  id : ∀ w, v.get? "id" = some w → w = .null ∨ (RequestId.ofJson? w).isSome = true
  /-- There is no version, or it is ours. -/
  version : ∀ w, v.get? "jsonrpc" = some w → w = .str Message.version
  content : v.HasContent

/-- A binding makes an object no deeper than what is bound and what was there. -/
theorem depthMembers_bind_le (key : String) (v : Json) (members : List (String × Json)) :
    depthMembers (bind key v members) ≤ max (depth v) (depthMembers members) := by
  fun_induction bind key v members with
  | case1 => simp [depthMembers]
  | case2 k w rest hk =>
    simp only [depthMembers]
    omega
  | case3 k w rest hk hbefore => simp [depthMembers]
  | case4 k w rest hk hbefore ih =>
    simp only [depthMembers]
    omega

/-- An object is one level deeper than what is bound in it. -/
theorem depth_ofMembers_le {members : List (String × Json)} {n : Nat}
    (h : ∀ m ∈ members, m.2.depth ≤ n) : (ofMembers members).depth ≤ n + 1 := by
  have hfold : ∀ acc, depthMembers acc ≤ n →
      depthMembers (members.foldl (fun acc m => bind m.1 m.2 acc) acc) ≤ n := by
    induction members with
    | nil => exact fun acc hacc => hacc
    | cons m members ih =>
      intro acc hacc
      rw [List.forall_mem_cons] at h
      refine ih h.2 _ ?_
      calc depthMembers (bind m.1 m.2 acc)
          ≤ max m.2.depth (depthMembers acc) := depthMembers_bind_le m.1 m.2 acc
        _ ≤ n := Nat.max_le.mpr ⟨h.1, hacc⟩
  rw [ofMembers, depth]
  exact Nat.succ_le_succ (hfold [] (Nat.zero_le n))

end Json

namespace Message

variable {members : List (String × Json)}

/-- The id of an envelope is read, or the envelope has an id that is none. Then what is wrong is
told under no id. -/
theorem idOf?_spec (members : List (String × Json)) :
    (idOf? members = .ok (Json.obj members).envelopeId?
      ∧ ∀ w, Json.lookup "id" members = some w →
        w = .null ∨ (RequestId.ofJson? w).isSome = true)
    ∨ ∃ detail w, idOf? members = .error (.new none detail)
      ∧ (Json.obj members).envelopeId? = none
      ∧ Json.lookup "id" members = some w ∧ w ≠ .null ∧ RequestId.ofJson? w = none := by
  simp only [idOf?, Json.envelopeId?, Json.get?]
  cases Json.lookup "id" members with
  | none => exact .inl ⟨rfl, by simp⟩
  | some w =>
    -- A null is as good as no id, and anything else has to be read.
    by_cases hnull : w = .null
    · subst hnull
      exact .inl ⟨rfl, fun w hw => .inl (Option.some.inj hw).symm⟩
    · cases hid : RequestId.ofJson? w with
      | none =>
        refine .inr ⟨"\x60id\x60 must be an integer or a string", w, ?_, by simp [hid], rfl,
          hnull, hid⟩
        cases w <;> first | exact absurd rfl hnull | simp only [hid]
      | some id =>
        refine .inl ⟨?_, fun w' hw => ?_⟩
        · cases w <;> first | exact absurd rfl hnull | simp only [hid, Option.bind_some]
        · rw [← Option.some.inj hw, hid]
          exact .inr rfl

/-- The version is ours or absent, or there is another one. -/
theorem checkVersion_spec (id : Option RequestId) (members : List (String × Json)) :
    (checkVersion id members = .ok ()
      ∧ ∀ w, Json.lookup "jsonrpc" members = some w → w = .str version)
    ∨ ∃ detail w, checkVersion id members = .error (.new id detail)
      ∧ Json.lookup "jsonrpc" members = some w ∧ w ≠ .str version := by
  simp only [checkVersion]
  cases Json.lookup "jsonrpc" members with
  | none => exact .inl ⟨rfl, by simp⟩
  | some w =>
    cases w with
    | str s =>
      by_cases hs : s = version
      · subst hs
        exact .inl ⟨by simp, fun w hw => (Option.some.inj hw).symm⟩
      · exact .inr ⟨_, .str s, by simp only [beq_eq_false_iff_ne.mpr hs]; rfl, rfl,
          by simpa using hs⟩
    | _ => exact .inr ⟨_, _, rfl, rfl, by simp⟩

/-- What is left after the id and the version is the method, or what stands in its place. -/
theorem ofMembers?_of_checked {id : Option RequestId} (hid : idOf? members = .ok id)
    (hversion : checkVersion id members = .ok ()) :
    (∃ m, ofMembers? members = .ok m ∧ (Json.obj members).HasContent
      ∧ ∀ i method params, m = .request i method params → id = some i)
    ∨ ∃ detail, ofMembers? members = .error (.new id detail)
      ∧ ¬ (Json.obj members).HasContent := by
  simp only [ofMembers?, responseOf?, hid, hversion, Json.HasContent, Json.get?]
  cases hmethod : Json.lookup "method" members with
  | none =>
    cases herror : Json.lookup "error" members with
    | some e => exact .inl ⟨_, rfl, by simp, by simp⟩
    | none =>
      cases hresult : Json.lookup "result" members with
      | some v => exact .inl ⟨_, rfl, by simp, by simp⟩
      | none => exact .inr ⟨_, rfl, by simp⟩
  | some w =>
    cases w with
    | str method =>
      cases id with
      | none => exact .inl ⟨_, rfl, by simp, by simp⟩
      | some id =>
        refine .inl ⟨_, rfl, by simp, fun i method' params' heq => ?_⟩
        cases heq
        rfl
    | _ => exact .inr ⟨_, rfl, by simp⟩

/-- **A value is a message exactly if it is a well-formed envelope.** A request has the id of its
envelope, and under that id everything else is told what is wrong with it. -/
theorem ofJson?_spec (v : Json) :
    (∃ m, Message.ofJson? v = .ok m ∧ v.IsEnvelope
      ∧ ∀ id method params, m = .request id method params → v.envelopeId? = some id)
    ∨ ∃ detail, Message.ofJson? v = .error (.new v.envelopeId? detail) ∧ ¬ v.IsEnvelope := by
  cases v with
  | obj members =>
    rw [ofJson?]
    -- The checks in their order: the id, the version, and then the method or what stands in its
    -- place. The first that fails says why there is no envelope.
    rcases idOf?_spec members with ⟨hid, hgood⟩ | ⟨detail, w, hid, hnone, hw, hnull, hbad⟩
    · rcases checkVersion_spec (Json.obj members).envelopeId? members with
        ⟨hversion, hours⟩ | ⟨detail, w, hversion, hw, hother⟩
      · rcases ofMembers?_of_checked hid hversion with
          ⟨m, hm, hcontent, hrequest⟩ | ⟨detail, hdetail, hcontent⟩
        · exact .inl ⟨m, hm, ⟨⟨members, rfl⟩, hgood, hours, hcontent⟩, hrequest⟩
        · exact .inr ⟨detail, hdetail, fun henvelope => hcontent henvelope.content⟩
      · refine .inr ⟨detail, by simp only [ofMembers?, hid, hversion], fun henvelope => ?_⟩
        exact hother (henvelope.version w hw)
    · refine .inr ⟨detail, by simp only [ofMembers?, hid, hnone], fun henvelope => ?_⟩
      rcases henvelope.id w hw with heq | hsome
      · exact hnull heq
      · rw [hbad] at hsome
        cases hsome
  | _ =>
    refine .inr ⟨_, rfl, fun henvelope => ?_⟩
    obtain ⟨members, hmembers⟩ := henvelope.object
    cases hmembers

/-! ## What rejections say -/

/-- The id in the envelope that a frame carries, where it can be read. -/
def bodyId? (body : List UInt8) : Option RequestId :=
  (Json.parseBytes? body).bind Json.envelopeId?

/-- A frame carries a notification. -/
def isNotice (body : List UInt8) : Bool :=
  match Message.ofBody body with
  | .ok (.notification _ _) => true
  | _ => false

/-- The id in the envelope of a request is that of the request. -/
theorem bodyId?_of_request {body : List UInt8} {id : RequestId} {method : String} {params : Json}
    (h : Message.ofBody body = .ok (.request id method params)) : bodyId? body = some id := by
  unfold ofBody at h
  unfold bodyId?
  cases hparse : Json.parseBytes? body with
  | none => simp [hparse] at h
  | some v =>
    simp only [hparse] at h
    rcases ofJson?_spec v with ⟨m, hm, -, hrequest⟩ | ⟨detail, hdetail, -⟩
    · rw [hm] at h
      exact hrequest id method params (Except.ok.inj h)
    · rw [hdetail] at h
      cases h

/-- An error without data, as the connection itself sends them, is read as it was written. -/
theorem ofBody_error (id : Option RequestId) {e : ResponseError} (hdata : e.data = none) :
    Message.ofBody (Message.response ⟨id, .error e⟩).toJson.renderBytes
      = .ok (.response ⟨id, .error e⟩) := by
  have hpayload : (Message.response ⟨id, .error e⟩).payload = .null := by
    simp [payload, hdata]
  have hid : ∀ i : RequestId, i.toJson.depth = 0 := fun i => by cases i <;> rfl
  have herror : e.toJson.depth ≤ 1 := by
    refine Json.depth_ofMembers_le ?_
    simp [hdata, Json.depth]
  -- Nothing in it is nested, so that a reader takes it.
  have hdepth : (Message.response ⟨id, .error e⟩).toJson.depth ≤ 2 := by
    refine Json.depth_ofMembers_le ?_
    cases id <;> simp [Json.depth, hid, herror]
  have hparse := Json.parseBytes?_renderBytes
    (isCanonical_toJson (m := .response ⟨id, .error e⟩) (by rw [hpayload]; rfl))
    (hasNoReal_toJson (m := .response ⟨id, .error e⟩) (by rw [hpayload]; rfl))
    (hdepth.trans (by decide))
  rw [Message.ofBody, hparse]
  refine ofJson?_toJson fun i e' heq => ?_
  cases heq
  simp [hdata]

end Message

namespace Registry

variable {r : Registry} {name : String} {v : Json} {e : ResponseError}

/-- A registry that rejects something sends no data with the reason. -/
theorem data_of_decodeParams {α : Type} {kind : Kind} {f : Method × Datum → α}
    (h : (r.decodeParams name kind v).map f = .error e) : e.data = none := by
  cases hparams : r.decodeParams name kind v with
  | ok found =>
    rw [hparams] at h
    cases h
  | error e' =>
    rw [hparams] at h
    cases h
    unfold decodeParams at hparams
    split at hparams
    · case h_1 hlookup =>
      cases hparams
      unfold lookup at hlookup
      split at hlookup
      · split at hlookup <;> cases hlookup
        rfl
      · cases hlookup
        rfl
    · split at hparams <;> cases hparams
      rfl

theorem data_of_decodeRequest {id : RequestId} (h : r.decodeRequest id name v = .error e) :
    e.data = none :=
  data_of_decodeParams h

theorem data_of_decodeNotification (h : r.decodeNotification name v = .error e) :
    e.data = none :=
  data_of_decodeParams h

end Registry

/-! ## Rejections -/

namespace Connection

/-- **A frame is rejected.** -/
inductive Rejects (registry : Registry) (c : Connection) (body : List UInt8) : Prop where
  /-- It is not JSON. -/
  | noJson (hparse : Json.parseBytes? body = none)
  /-- It is not a well-formed envelope. -/
  | noEnvelope {v : Json} (hparse : Json.parseBytes? body = some v) (henvelope : ¬ v.IsEnvelope)
  /-- It is a request that the registry rejects. -/
  | noRequest {id : RequestId} {method : String} {params : Json} {e : ResponseError}
    (hbody : Message.ofBody body = .ok (.request id method params))
    (hdecode : registry.decodeRequest id method params = .error e)
  /-- It is a request whose id is taken. -/
  | taken {id : RequestId} {method : String} {params : Json} {ticket : Nat}
    (hbody : Message.ofBody body = .ok (.request id method params))
    (hticket : c.inFlight.find? id = some ticket)
  /-- It is a notification that the registry cannot decode. -/
  | noNotification {method : String} {params : Json} {e : ResponseError}
    (hbody : Message.ofBody body = .ok (.notification method params))
    (hdecode : registry.decodeNotification method params = .error e)

variable {registry : Registry} {c : Connection} {body : List UInt8}

/-- Whatever is rejected is told so under the id of its envelope, but for a notification, and
nothing is left to do. -/
theorem Rejects.dispatch_eq (h : c.Rejects registry body) :
    ∃ e : ResponseError, e.data = none ∧ c.dispatch registry body
      = (if Message.isNotice body then c else c.reply (Message.bodyId? body) (.error e),
        .nothing) := by
  cases h with
  | noJson hparse =>
    refine ⟨.parseError "the body is not JSON", rfl, ?_⟩
    simp [dispatch, Message.isNotice, Message.ofBody, Message.bodyId?, hparse]
  | @noEnvelope v hparse henvelope =>
    rcases Message.ofJson?_spec v with ⟨m, hm, hyes, -⟩ | ⟨detail, hdetail, -⟩
    · exact absurd hyes henvelope
    · refine ⟨.invalidRequest detail, rfl, ?_⟩
      simp [dispatch, Message.isNotice, Message.ofBody, Message.bodyId?, hparse, hdetail,
        Malformed.new]
  | @noRequest id method params e hbody hdecode =>
    refine ⟨e, Registry.data_of_decodeRequest hdecode, ?_⟩
    rw [Connection.dispatch_eq, Message.bodyId?_of_request hbody]
    simp [hbody, dispatchMessage, dispatchRequest, hdecode, Message.isNotice]
  | @taken id method params ticket hbody hticket =>
    -- It may be rejected by the registry already, and that is looked at first.
    cases hdecode : registry.decodeRequest id method params with
    | error e =>
      refine ⟨e, Registry.data_of_decodeRequest hdecode, ?_⟩
      rw [Connection.dispatch_eq, Message.bodyId?_of_request hbody]
      simp [hbody, dispatchMessage, dispatchRequest, hdecode, Message.isNotice]
    | ok r =>
      have hbegin : c.inFlight.begin? id = none := by simp [InFlight.begin?, hticket]
      refine ⟨.invalidRequest ("request id " ++ id.display ++ " is already in flight"), rfl, ?_⟩
      rw [Connection.dispatch_eq, Message.bodyId?_of_request hbody]
      simp [hbody, dispatchMessage, dispatchRequest, hdecode, hbegin, Message.isNotice]
  | @noNotification method params e hbody hdecode =>
    refine ⟨e, Registry.data_of_decodeNotification hdecode, ?_⟩
    rw [Connection.dispatch_eq]
    simp [hbody, dispatchMessage, dispatchNotification, hdecode, Message.isNotice]

/-- No response is rejected. -/
theorem not_rejects_of_response {r : Response} (hbody : Message.ofBody body = .ok (.response r)) :
    ¬ c.Rejects registry body := by
  intro h
  cases h with
  | noJson hparse => simp [Message.ofBody, hparse] at hbody
  | @noEnvelope v hparse henvelope =>
    simp only [Message.ofBody, hparse] at hbody
    rcases Message.ofJson?_spec v with ⟨m, hm, hyes, -⟩ | ⟨detail, hdetail, -⟩
    · exact henvelope hyes
    · rw [hdetail] at hbody
      cases hbody
  | noRequest hbody' _ | taken hbody' _ | noNotification hbody' _ =>
    rw [hbody] at hbody'
    cases hbody'

/-- A running connection answers at once, unless its writer has failed. -/
theorem reply_of_running (hrunning : c.phase = .running) (id : Option RequestId)
    (outcome : Except ResponseError Json) :
    c.reply id outcome = { c with
      queue := c.queue ++ if c.writerFailed then [] else [.send (.response ⟨id, outcome⟩)] } := by
  rw [reply, post_eq]
  by_cases hfailed : c.writerFailed = true
  · rw [if_neg (by simp [accepts, hfailed]), if_pos hfailed, List.append_nil]
  · rw [if_pos (by simp [accepts, hrunning, hfailed]), if_neg hfailed]

/-- A response changes nothing but the calls. -/
theorem exists_dispatchResponse (c : Connection) (r : Response) :
    ∃ calls, c.dispatchResponse r = { c with calls } := by
  unfold dispatchResponse
  split
  · exact ⟨c.calls, rfl⟩
  · split
    · case h_1 calls _ => exact ⟨calls, rfl⟩
    · exact ⟨c.calls, rfl⟩

/-- A writer that has failed has asked for the connection to be closed. -/
def Heeded (c : Connection) : Prop :=
  c.writerFailed = true → c.closeRequested = true

/-- A connection that goes on does not forget the wish to close it, and its writer does not fail. -/
theorem Heeded.onward {c c' : Connection} {asks : Bool} (h : c.Heeded)
    (honward : Onward asks c c') :
    c'.Heeded := by
  intro hfailed
  rw [honward.writerFailed] at hfailed
  rw [honward.wish, h hfailed, Bool.true_or]

end Connection

variable {η τ : Type}

namespace Server

variable {h : Handler η τ} {s s' : Server η τ}

/-- The loop keeps this up: it closes the connection, or lets it go on. -/
theorem heeded_loopStep {bodies : List (List UInt8)} (hs : s.connection.Heeded)
    (hstep : LoopStep h s s' bodies) : s'.connection.Heeded := by
  have hleave : ∀ fault, (s.leave fault).connection.Heeded := by
    intro fault hfailed
    obtain ⟨-, hfailed', hwish, -⟩ := s.connection.shutDown_spec
    exact hwish.trans (hs (hfailed'.symm.trans hfailed))
  cases hstep with
  | closes _ _ heq => exact heq ▸ hleave none
  | leaves _ _ heq => exact heq ▸ hleave _
  | takes _ _ heq | ends _ heq =>
    subst heq
    exact hs
  | dispatches _ _ heq =>
    obtain ⟨connection, tasks, loop, hreceive, honward, -⟩ :=
      receive_cases (h := h) { s with input := _, loop := .reading false } _
    rw [heq, hreceive]
    exact hs.onward honward
  | @handles stage turn _ _ heq =>
    subst heq
    exact hs.onward (onward_apply s turn)

/-- So does the writer, which asks for the connection to be closed when it fails. -/
theorem heeded_writerStep (hs : s.connection.Heeded) (hstep : WriterStep s s') :
    s'.connection.Heeded := by
  cases hstep with
  | writes _ _ heq | stops _ _ heq =>
    subst heq
    exact hs
  | fails _ _ heq =>
    subst heq
    exact fun _ => rfl

end Server

/-- So at any time a server whose writer has failed has been asked to close. -/
theorem Course.heeded {h : Handler η τ} (c : Course h) (t : Nat) :
    (c.now t).server.connection.Heeded := by
  refine c.stays (P := fun s => s.server.connection.Heeded) ?_ ?_ (Nat.zero_le t)
  · obtain ⟨connection, state, -, hable, heq⟩ := c.begins.running
    rw [heq]
    intro hfailed
    rw [show connection.writerFailed = true from hfailed] at hable
    cases hable
  · intro t e _ hs hnext
    by_cases hloop : e = .step .loop
    · subst hloop
      obtain ⟨bodies, hstep, -⟩ := Service.loopStep_of_next? hnext
      exact Server.heeded_loopStep hs hstep
    · by_cases hwriter : e = .step .writer
      · subst hwriter
        exact Server.heeded_writerStep hs (Service.writerStep_of_next? hnext)
      · obtain ⟨asks, honward⟩ := (Service.beside_next? hnext hloop hwriter).connection
        exact hs.onward honward

namespace Server

/-- A loop that is about to dispatch has not been asked to close. -/
theorem closeRequested_of_body? {s : Server η τ} {body : List UInt8} (h : s.body? = some body) :
    s.connection.closeRequested = false := by
  unfold body? at h
  split at h
  · case h_1 hclose _ => exact hclose
  · cases h

/-- An error is taken for a response wherever it arrives, and nobody answers it. -/
theorem receive_error (h : Handler η τ) (s : Server η τ) (id : Option RequestId)
    {e : ResponseError} (hdata : e.data = none) :
    ∃ calls, s.receive h (Message.response ⟨id, .error e⟩).toJson.renderBytes
      = { s with connection := { s.connection with calls } } := by
  obtain ⟨calls, hcalls⟩ := s.connection.exists_dispatchResponse ⟨id, .error e⟩
  refine ⟨calls, ?_⟩
  rw [receive, Connection.dispatch_eq, Message.ofBody_error id hdata]
  simp only [Connection.dispatchMessage, hcalls]

/-- **Rejected frames change nothing, and the errors that they are answered with are never
answered.** A frame that is rejected leaves a running server as it is, but for one error at the end
of the queue under the id of the envelope, and none for a notification. A queue whose writer has
failed takes no message; no loop dispatches a frame on one. Wherever the error arrives, it is read
as that response, it is not rejected, and nothing but calls is changed by it. -/
theorem rejected_inert (h : Handler η τ) {s : Server η τ} (hrunning : s.connection.phase = .running)
    {body : List UInt8} (hrejected : s.connection.Rejects h.registry body) :
    (∀ (c : Course h) (t : Nat), (c.now t).server = s → s.body? = some body →
      s.connection.writerFailed = false)
    ∧ ∃ e : ResponseError,
      (s.receive h body = { s with connection := { s.connection with
        queue := s.connection.queue ++
          if Message.isNotice body || s.connection.writerFailed then []
          else [.send (.response ⟨Message.bodyId? body, .error e⟩)] } })
      ∧ Message.ofBody (Message.response ⟨Message.bodyId? body, .error e⟩).toJson.renderBytes
          = .ok (.response ⟨Message.bodyId? body, .error e⟩)
      ∧ ∀ {η' τ' : Type} (h' : Handler η' τ') (s' : Server η' τ'),
        let reply := (Message.response ⟨Message.bodyId? body, .error e⟩).toJson.renderBytes
        ¬ s'.connection.Rejects h'.registry reply
          ∧ ∃ calls, s'.receive h' reply
            = { s' with connection := { s'.connection with calls } } := by
  constructor
  · rintro c t rfl hbody
    by_contra hfailed
    -- Its writer would have asked for the connection to be closed, and the loop looks at that
    -- before it reads.
    have hwish := c.heeded t (by simpa using hfailed)
    rw [closeRequested_of_body? hbody] at hwish
    cases hwish
  · obtain ⟨e, hdata, hdispatch⟩ := hrejected.dispatch_eq
    have hreply := Message.ofBody_error (Message.bodyId? body) hdata
    refine ⟨e, ?_, hreply, fun h' s' => ⟨?_, receive_error h' s' _ hdata⟩⟩
    · rw [receive, hdispatch]
      by_cases hnotice : Message.isNotice body = true
      · simp [hnotice]
      · simp [hnotice, Connection.reply_of_running hrunning]
    · exact Connection.not_rejects_of_response hreply

/-- A handler that never comes to an end. -/
def endless : Handler Unit Unit where
  registry := Catalogue.registry
  request _ := ()
  notification _ := ()
  step _ _ _ := none
  isSlow _ := false
  counts _ := false

/-- A server that is at work on one request. -/
def busy : Server Unit Unit where
  connection := { phase := .running, inFlight := { entries := [(.number 7, 0)], nextTicket := 1 } }
  state := ()

/-- Another request under the same id. -/
def again : Message :=
  .request (.number 7) Catalogue.shutdown.name .null

/-- The request is refused once, and nothing comes of the refusal where the server hears it
itself. -/
theorem rejected_inert_again :
    ∃ e, (busy.receive endless again.toJson.renderBytes).connection.queue
        = [.send (.response ⟨some (.number 7), .error e⟩)]
      ∧ (busy.receive endless
          (Message.response ⟨some (.number 7), .error e⟩).toJson.renderBytes).connection.queue
        = [] := by
  have hbody : Message.ofBody again.toJson.renderBytes = .ok again := by
    refine Message.ofBody_renderBytes ⟨?_, ?_, ?_, nofun, ?_⟩
    all_goals decide +kernel
  have hid : Message.bodyId? again.toJson.renderBytes = some (.number 7) := by decide +kernel
  have hnotice : Message.isNotice again.toJson.renderBytes = false := by decide +kernel
  have hticket : busy.connection.inFlight.find? (.number 7) = some 0 := rfl
  obtain ⟨-, e, hinert, -, hreply⟩ := rejected_inert endless (s := busy) rfl (.taken hbody hticket)
  rw [hid] at hinert hreply
  obtain ⟨-, calls, hcalls⟩ := hreply endless busy
  refine ⟨e, ?_, ?_⟩
  · rw [hinert, hnotice]
    rfl
  · rw [hcalls]
    rfl

end Server

end FlagServer
