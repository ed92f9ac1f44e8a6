import FlagServer.Proofs.Server.Scenes

/-!
# The documents of a server

A server tells its session of one notification after the other, while any number of requests are
being handled. `documents_in_step` says what this does to the two tables of files, the open
documents of the session and the files that a database system watches: whenever the loop handles no
notification, both are what the notifications make of them that the session has let in, from the
first on. Requests, files that change, and notifications before and after the session do nothing to
either.
-/

namespace FlagServer

namespace Session

variable {ε μ : Type} {h : Host ε μ} {allowed : Session ε μ → Stage → Bool}
  {heard : List IncomingNotification} {server server' : Server (Session ε μ) Standing}

/-- **Documents and watched files are in step** with the notifications that have been let in. -/
structure InStep (heard : List IncomingNotification) (s : Session ε μ) : Prop where
  /-- A document is open, and in the language, as the last notification about it says. -/
  documents : ∀ uri, s.documents.get? uri = openAfter heard uri
  /-- A database system watches the same files, in the same languages. -/
  watched : ∀ d, s.buildSystem = some (.database d) →
    ∀ uri, d.watched.get? uri = s.documents.get? uri ∧ d.watched.get? uri = openAfter heard uri

/-- **Documents and watched files never drift apart:** they are in step in every state of a server
in which no notification is being handled. -/
theorem documents_in_step (hserved : Served h allowed heard server)
    (hfree : server.stage? .loop = none) : InStep heard server.state := by
  obtain ⟨engine, manifest, disk, events, s, who, hrun, hs, rfl⟩ := hserved.shown
  have hwatchful := (Scene.Watchful.start engine manifest disk).run? hrun
  -- With no notification under way, nothing is owed to either table.
  have htallies := hwatchful.quiet (quiet_of_free hs hfree)
  rw [hs.session] at htallies
  refine ⟨fun uri => congrFun htallies.documents uri, fun d hd uri => ?_⟩
  have hwatched := congrFun (htallies.watched d hd) uri
  exact ⟨hwatched.trans (congrFun htallies.documents uri).symm, hwatched⟩

/-- The steps of some agents, one after the other, with the notifications that they let in. -/
def play? (h : Host ε μ) : List Agent → List IncomingNotification → Server (Session ε μ) Standing →
    Option (List IncomingNotification × Server (Session ε μ) Standing)
  | [], heard, server => some (heard, server)
  | agent :: agents, heard, server =>
    (server.step (handler h) agent).bind fun server' =>
      play? h agents (heard ++ (heardBy? server agent).toList) server'

/-- Agents that take turns lead from one state of a server to another. -/
theorem Served.play {agents : List Agent} {heard' : List IncomingNotification}
    (hserved : Served h (fun _ _ => true) heard server)
    (hplay : play? h agents heard server = some (heard', server')) :
    Served h (fun _ _ => true) heard' server' := by
  induction agents generalizing heard server with
  | nil =>
    cases hplay
    exact hserved
  | cons agent agents ih =>
    obtain ⟨next, hstep, hplay⟩ := Option.bind_eq_some_iff.mp hplay
    exact ih (.step hserved (fun _ _ => rfl) hstep) hplay

/-- A session is opened; then a document is opened twice, the second time in another language, and
one is closed that was never open. -/
def reopening : List UInt8 :=
  ["\x7b\"id\":1,\"method\":\"initialize\",\"params\":\x7b\"capabilities\":\x7b\x7d\x7d\x7d",
    "\x7b\"method\":\"textDocument/didOpen\",\"params\":\x7b\"textDocument\":\x7b\"uri\":\"x:a\"," ++
      "\"languageId\":\"c\",\"version\":1,\"text\":\"\"\x7d\x7d\x7d",
    "\x7b\"method\":\"textDocument/didOpen\",\"params\":\x7b\"textDocument\":\x7b\"uri\":\"x:a\"," ++
      "\"languageId\":\"cpp\",\"version\":1,\"text\":\"\"\x7d\x7d\x7d",
    "\x7b\"method\":\"textDocument/didClose\",\"params\":\x7b\"textDocument\":" ++
      "\x7b\"uri\":\"x:b\"\x7d\x7d\x7d"].flatMap fun body =>
    Frame.write (Text.Utf8.encodeString body)

/-- The loop takes the stream, the session is opened, and the loop handles the notifications. -/
def reopeners : List Agent :=
  [.loop, .loop] ++ List.replicate 9 (.task 0) ++ List.replicate 32 .loop

/-- A server that begins to serve a session. -/
def reopener : Server (Session Unit Unit) Standing where
  connection := { phase := .running }
  state := { engine := (), manifest := (), disk := {} }
  loop := .reading false
  writer := .active

/-- What the database system of a session watches, if it has one. -/
def watched? (s : Session ε μ) : Option Languages :=
  match s.buildSystem with
  | some (.database d) => some d.watched
  | _ => none

/-- The language of the second opening counts, and the closing of another document changes nothing.
-/
theorem documents_in_step_reopening : ∃ heard server,
    Served (⟨.silent, none, {}⟩ : Host Unit Unit) (fun _ _ => true) heard server
      ∧ heard.length = 3
      ∧ server.state.watched? = some [(⟨"x", none, .plain "a", none, none⟩, .cpp)]
      ∧ InStep heard server.state := by
  have hserve : ({ state := { engine := (), manifest := (), disk := {} } } :
      Server (Session Unit Unit) Standing).serve? = some reopener := rfl
  have hserved : Served (⟨.silent, none, {}⟩ : Host Unit Unit) (fun _ _ => true) []
      (reopener.feed reopening) := .feed reopening (.start hserve)
  have hrun : (play? (⟨.silent, none, {}⟩ : Host Unit Unit) reopeners []
      (reopener.feed reopening)).any (fun last =>
        last.1.length == 3 && (last.2.stage? .loop).isNone
        && last.2.state.watched? == some [(⟨"x", none, .plain "a", none, none⟩, .cpp)])
      = true := by decide +kernel
  obtain ⟨⟨heard, server⟩, hplay, hlast⟩ := (Option.any_eq_true _ _).mp hrun
  simp only [Bool.and_eq_true, beq_iff_eq, Option.isNone_iff_eq_none] at hlast
  obtain ⟨⟨hcount, hfree⟩, hwatched⟩ := hlast
  exact ⟨heard, server, hserved.play hplay, hcount, hwatched,
    documents_in_step (hserved.play hplay) hfree⟩

end Session

end FlagServer
