import FlagServer.Proofs.Connection.Output
import FlagServer.Proofs.Server.Stream
import FlagServer.Proofs.Server.Traffic

/-!
# What a server has written

A server closes its connection in one step, and its loop has more to do than an `Output` knows of.
For what is written neither matters: every state of a server is **shown** by an output that some
acts lead to, in which the loop closes step by step. So once serving has ended, what the server has
written is what the queue of its connection took (`Server.Reached.written_eq`).
-/

namespace FlagServer

variable {η τ : Type}

/-- How far a loop has come. -/
def Loop.serving : Loop τ → Serving
  | idle => .notYet
  | reading _ => .reading
  | handling _ => .reading
  | draining _ => .draining
  | ended _ => .finished

namespace Output

variable {registry : Registry} {s s' : Output} {acts : List Act}

/-- To close the connection is to take the acts of the loop one after the other. -/
theorem run?_shutDown (registry : Registry) (hserving : s.serving = .reading) :
    ∃ s', s.run? registry
        [.other .beginClosing, .closeCalls, .closeRequests, .other .stopWriter] = some s'
      ∧ s'.connection = s.connection.shutDown ∧ s'.traffic.running = s.traffic.running
      ∧ s'.serving = .draining ∧ s'.writer = s.writer ∧ s'.written = s.written := by
  obtain ⟨traffic, serving, writer, written⟩ := s
  obtain rfl : serving = .reading := hserving
  exact ⟨_, rfl, rfl, rfl, rfl, rfl, by simp⟩

/-- A writer that has failed stays so. -/
theorem failed_run (hrun : s.run? registry acts = some s') (hfailed : .other .failWriter ∈ acts) :
    s'.connection.writerFailed = true := by
  refine run_induction (P := fun acts s' => .other .failWriter ∈ acts →
    s'.connection.writerFailed = true) hrun nofun ?_ hfailed
  intro acts t a t' _ ih hstep hfailed
  rw [List.mem_append, List.mem_singleton] at hfailed
  rcases hfailed with hfailed | rfl
  · -- No act repairs a writer, and only the act at hand can be the one by which it fails.
    cases move_of_step? hstep with
    | uses _ hputs => exact hputs.writerFailed.trans (ih hfailed)
    | tells =>
      change t.connection.stopWriter.writerFailed = true
      unfold Connection.stopWriter
      split <;> exact ih hfailed
    | fails => rfl
    | starts | closes | ends | writes | stops => exact ih hfailed
  · cases move_of_step? hstep with
    | uses huse => cases huse
    | fails => rfl

end Output

namespace Server

/-- **An output shows a server:** its traffic mirrors the server, and loop and writer have come as
far and written the same. -/
structure Shows (s : Server η τ) (o : Output) : Prop extends Mirrors s o.traffic where
  serving : o.serving = s.loop.serving
  writer : o.writer = s.writer
  written : o.written = s.written

/-- A server comes to another state by some acts of an output. -/
def Outputs (registry : Registry) (s s' : Server η τ) : Prop :=
  ∀ o, Shows s o → ∃ acts o', o.run? registry acts = some o' ∧ Shows s' o'

namespace Outputs

variable {registry : Registry} {s s' s'' : Server η τ}

/-- What changes neither the connection nor the tasks nor what is written is no act. -/
theorem idle (hconnection : s'.connection = s.connection) (hatWork : s'.atWork = s.atWork)
    (hloop : s'.loop.serving = s.loop.serving) (hwriter : s'.writer = s.writer)
    (hwritten : s'.written = s.written) : Outputs registry s s' := by
  intro o ho
  refine ⟨[], o, rfl, ⟨?_, ?_⟩, ?_, ?_, ?_⟩
  · rw [ho.connection, hconnection]
  · rw [ho.running, hatWork]
  · rw [ho.serving, hloop]
  · rw [ho.writer, hwriter]
  · rw [ho.written, hwritten]

/-- Some acts and then some more are acts. -/
theorem trans (h : Outputs registry s s') (h' : Outputs registry s' s'') :
    Outputs registry s s'' := by
  intro o ho
  obtain ⟨acts, o', hrun, ho'⟩ := h o ho
  obtain ⟨acts', o'', hrun', ho''⟩ := h' o' ho'
  refine ⟨acts ++ acts', o'', ?_, ho''⟩
  rw [Output.run?_append, hrun]
  exact hrun'

/-- What one act does. -/
theorem act {a : Act} {messages : List Message}
    (htraffic : ∀ t, Mirrors s t → ∃ t', t.step? registry a = some t' ∧ Mirrors s' t')
    (hserving : s.loop.serving.after? a = some s'.loop.serving)
    (hwriter : s.writer.after? s.connection.queue a = some (s'.writer, messages))
    (hwritten : s'.written = s.written ++ messages) : Outputs registry s s' := by
  intro o ho
  obtain ⟨t', ht', hmirrors⟩ := htraffic o.traffic ho.toMirrors
  refine ⟨[a], ⟨t', s'.loop.serving, s'.writer, s'.written⟩, ?_, hmirrors, rfl, rfl, rfl⟩
  have hstep : o.step? registry a = some ⟨t', s'.loop.serving, s'.writer, s'.written⟩ := by
    simp only [Output.step?, Output.connection, ho.serving, ho.writer, ho.written, ho.connection,
      hserving, hwriter, ht', hwritten, Option.bind_some, Option.map_some]
  simp [Output.run?, hstep]

/-- What somebody does who uses the connection and is not the loop. -/
theorem use {a : Act}
    (htraffic : ∀ t, Mirrors s t → ∃ t', t.step? registry a = some t' ∧ Mirrors s' t')
    (huse : a.isUse = true) (hothers : a.ofLoop = false) (hloop : s'.loop = s.loop)
    (hwriter : s'.writer = s.writer) (hwritten : s'.written = s.written) :
    Outputs registry s s' := by
  have hserving : s.loop.serving.after? a = some s'.loop.serving := by
    rw [hloop]
    exact Output.after?_of_others _ hothers
  refine act htraffic hserving ?_ (hwritten.trans (List.append_nil _).symm)
  rw [Output.writer_after?_of_isUse huse, hwriter]

/-- To close the connection is four acts. -/
theorem shutDown (hreading : s.loop.serving = .reading)
    (hconnection : s'.connection = s.connection.shutDown) (htasks : s'.tasks = s.tasks)
    (hdraining : s'.loop.serving = .draining) (hwriter : s'.writer = s.writer)
    (hwritten : s'.written = s.written) : Outputs registry s s' := by
  intro o ho
  obtain ⟨o', hrun, hc, hr, hserving, hw, hwr⟩ :=
    Output.run?_shutDown registry (ho.serving.trans hreading)
  refine ⟨_, o', hrun, ⟨?_, ?_⟩, ?_, ?_, ?_⟩
  · rw [hconnection, ← ho.connection]
    exact hc
  · rw [hr, ho.running, atWork, atWork, htasks]
  · rw [hserving, hdraining]
  · rw [hw, ho.writer, hwriter]
  · rw [hwr, ho.written, hwritten]

theorem receive (h : Handler η τ) (s : Server η τ) (body : List UInt8)
    (hreading : s.loop.serving = .reading) : Outputs h.registry s (s.receive h body) := by
  obtain ⟨connection, tasks, loop, hreceive, -, hloop, -⟩ := receive_cases (h := h) s body
  have hserving : (s.receive h body).loop.serving = .reading := by
    rw [hreceive]
    rcases hloop with rfl | ⟨n, -, rfl⟩
    · exact hreading
    · rfl
  have hwritten : (s.receive h body).written = s.written ++ [] := by
    rw [hreceive, List.append_nil]
  refine act (a := .receive body) (fun t ht => ht.receive h body) ?_ ?_ hwritten
  · rw [hreading, hserving]
    rfl
  · rw [hreceive]
    rfl

/-- What a stage sends and asks for are acts. -/
theorem apply {h : Handler η τ} (hnotifies : h.OnlyNotifies) {cancelled : Bool} {stage : τ}
    {turn : Turn η τ} (hstep : h.step cancelled stage s.state = some turn) :
    Outputs registry s (s.apply turn) := by
  -- What the stage sends comes first, and then its wish to close, each as an act of its own.
  obtain ⟨c, hsend, hconnection⟩ : ∃ c, Outputs registry s { s with connection := c }
      ∧ (s.apply turn).connection = if turn.close then c.close else c := by
    cases hmessage : turn.send with
    | none => exact ⟨s.connection, .idle rfl rfl rfl rfl rfl, by simp only [Server.apply, hmessage]⟩
    | some message =>
      obtain ⟨method, params, rfl⟩ := hnotifies _ _ _ _ _ hstep hmessage
      refine ⟨s.connection.post (.notification method params), .use
        (a := .other (.notify method (some params))) (fun t ht => ht.op ?_ rfl) rfl rfl rfl rfl rfl,
        by simp only [Server.apply, hmessage]⟩
      simp only [Connection.op?, Connection.notify_snd]
  refine hsend.trans ?_
  by_cases hclose : turn.close
  · rw [if_pos hclose] at hconnection
    refine .use (a := .other .requestClose) (fun t ht => ht.op ?_ rfl) rfl rfl rfl rfl rfl
    rw [hconnection]
    rfl
  · rw [if_neg hclose] at hconnection
    exact .idle hconnection rfl rfl rfl rfl

end Outputs

/-! ## What an agent does -/

variable {h : Handler η τ} {s s' : Server η τ}

/-- What the loop does is an act, or the four acts by which it closes. -/
theorem outputs_stepLoop (hnotifies : h.OnlyNotifies) (hstep : s.stepLoop h = some s') :
    Outputs h.registry s s' := by
  obtain ⟨bodies, hstepped⟩ := exists_loopStep hstep
  cases hstepped with
  | closes hloop _ hs | leaves hloop _ hs =>
    subst hs
    exact .shutDown (by rw [hloop]; rfl) rfl rfl rfl rfl rfl
  | takes hloop _ hs =>
    subst hs
    exact .idle rfl rfl (by rw [hloop]; rfl) rfl rfl
  | @dispatches begun body rest hloop _ hs =>
    subst hs
    -- To take the bytes of a frame is no act; what is dispatched then is one.
    have htaken : Outputs h.registry s { s with input := rest, loop := .reading false } :=
      .idle rfl rfl (by rw [hloop]; rfl) rfl rfl
    exact htaken.trans (.receive h _ body rfl)
  | @handles stage turn hloop hturn hs =>
    subst hs
    refine (Outputs.apply hnotifies hturn).trans (.idle rfl rfl ?_ rfl rfl)
    change _ = s.loop.serving
    rw [hloop]
    cases turn.progress <;> rfl
  | ends hloop hs =>
    have hended := writer_ended_of_draining hloop hstep
    subst hs
    refine .act (a := .other .finishClosing) (fun t ht => ht.op rfl rfl) ?_ ?_
      (List.append_nil _).symm
    · rw [hloop]
      rfl
    · simp [Writer.after?, hended]

/-- What the writer does is one act. -/
theorem outputs_stepWriter {registry : Registry} (hstep : s.stepWriter = some s') :
    Outputs registry s s' := by
  cases writerStep_of_stepWriter hstep with
  | @writes message queue hactive hqueue hs =>
    subst hs
    refine .act (a := .other .take) (fun t ht => ht.op ?_ rfl) (Output.after?_of_others _ rfl)
      ?_ rfl
    · simp [Connection.op?, Connection.take?, hqueue]
    · simp [Writer.after?, hactive, hqueue]
  | fails hactive hpeer hs =>
    subst hs
    refine .act (a := .other .failWriter) (fun t ht => ht.op rfl rfl)
      (Output.after?_of_others _ rfl) ?_ (List.append_nil _).symm
    simp [Writer.after?, hactive]
  | @stops queue hactive hqueue hs =>
    subst hs
    refine .act (a := .other .take) (fun t ht => ht.op ?_ rfl) (Output.after?_of_others _ rfl) ?_
      (List.append_nil _).symm
    · simp [Connection.op?, Connection.take?, hqueue]
    · simp [Writer.after?, hactive, hqueue]

/-- What a task does are the acts of its stage, and its end is one more. -/
theorem outputs_stepTask (hnotifies : h.OnlyNotifies) {ticket : Nat}
    (hstep : s.stepTask h ticket = some s') : Outputs h.registry s s' := by
  obtain ⟨task, turn, htask, hturn, hstepped⟩ := taskStep_of_stepTask hstep
  have happly : Outputs h.registry s (s.apply turn) := .apply hnotifies hturn
  refine happly.trans ?_
  cases hstepped with
  | goesOn _ hs =>
    subst hs
    exact .idle rfl (atWork_of_map rfl) rfl rfl rfl
  | @ends verdict _ hs =>
    subst hs
    exact .use (a := .finish ticket verdict)
      (fun t ht => ht.finish (s := s.apply turn) htask rfl rfl) rfl rfl rfl rfl rfl

/-! ## Every state of a server -/

/-- **Every state of a server is shown by an output.** -/
theorem Reached.shown (hnotifies : h.OnlyNotifies) (hreached : Reached h s) :
    ∃ acts o, Output.run? h.registry {} acts = some o ∧ Shows s o := by
  have hmore : ∀ {s s' : Server η τ}, (∃ acts o, Output.run? h.registry {} acts = some o
      ∧ Shows s o) → Outputs h.registry s s' →
      ∃ acts o, Output.run? h.registry {} acts = some o ∧ Shows s' o := by
    rintro s s' ⟨acts, o, hrun, ho⟩ houtputs
    obtain ⟨more, o', hrun', ho'⟩ := houtputs o ho
    refine ⟨acts ++ more, o', ?_, ho'⟩
    rw [Output.run?_append, hrun]
    exact hrun'
  induction hreached with
  | fresh state => exact ⟨[], {}, rfl, ⟨rfl, rfl⟩, rfl, rfl, rfl⟩
  | @serve s s' _ hserve ih =>
    obtain ⟨connection, hstart, rfl⟩ := Option.map_eq_some_iff.mp hserve
    obtain ⟨acts, o, hrun, ho⟩ := ih
    -- Nobody serves a connection that has just been created.
    have hpaced := Output.paced_start.run hrun
    have hserving : o.serving = .notYet := by
      have hphase : o.serving.phase = s.connection.phase :=
        hpaced.phase.symm.trans (congrArg Connection.phase ho.connection)
      rw [Connection.start?] at hstart
      split at hstart
      · case isTrue hcreated =>
        rw [beq_iff_eq.mp hcreated] at hphase
        exact Serving.eq_notYet_of_phase hphase
      · cases hstart
    refine hmore ⟨acts, o, hrun, ho⟩ (.act (a := .other .start) (fun t ht => ht.op hstart rfl) ?_ ?_
      (List.append_nil _).symm)
    · rw [← ho.serving, hserving]
      rfl
    · rw [← ho.writer, hpaced.idle.mpr hserving]
      rfl
  | feed bytes _ ih => exact hmore ih (.idle rfl rfl rfl rfl rfl)
  | endInput _ ih => exact hmore ih (.idle rfl rfl rfl rfl rfl)
  | losePeer _ ih => exact hmore ih (.idle rfl rfl rfl rfl rfl)
  | @step s s' agent _ hstep ih =>
    refine hmore ih ?_
    cases agent with
    | loop => exact outputs_stepLoop hnotifies hstep
    | writer => exact outputs_stepWriter hstep
    | task ticket => exact outputs_stepTask hnotifies hstep

/-- **What a server has written by the time that serving ends is what its queue took,** as long as
its writer does not fail. -/
theorem Reached.written_eq (hnotifies : h.OnlyNotifies) (hreached : Reached h s)
    (hable : s.connection.writerFailed = false) (hended : s.ended? ≠ none) :
    ∃ acts o, Output.run? h.registry {} acts = some o ∧ Shows s o
      ∧ s.written = Traffic.accepted h.registry {} acts := by
  obtain ⟨acts, o, hrun, ho⟩ := hreached.shown hnotifies
  have hfinished : o.serving = .finished := by
    obtain ⟨fault, hfault⟩ := Option.ne_none_iff_exists'.mp hended
    rw [ho.serving, ended?_eq_some_iff.mp hfault]
    rfl
  -- An output that shows a server whose writer works has no failure among its acts.
  have hnever : .other .failWriter ∉ acts := by
    intro hfailed
    have hconnection : o.connection = s.connection := ho.connection
    rw [← hconnection, Output.failed_run hrun hfailed] at hable
    cases hable
  obtain ⟨waiting, haccepted, hnone⟩ := (Output.intact_start.run hrun hnever).accepted hrun
  refine ⟨acts, o, hrun, ho, ?_⟩
  rw [haccepted, hnone hfinished, List.append_nil, ho.written]

end Server

end FlagServer
