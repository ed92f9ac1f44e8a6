import FlagServer.Proofs.Connection.Offers
import FlagServer.Server.Basic

/-!
# What is written

Many put messages to the queue of a connection, at any time: before anybody serves it, while it is
served, while it closes and afterwards. One writer takes them out. An `Output` is a traffic with how
far its loop and its writer have come and with what has been written. The loop takes its steps in
their order, and each of them by itself: it stops the queue, fails the calls, cancels the requests,
tells the writer to stop, and waits for it. Between any two of them anybody may get in.

The invariant is `Output.Intact`: what has been written, followed by what waits in the queue, is
what the queue has taken, and a command to stop is never followed by anything. So once serving is
over, everything that was taken has been written, once and in its order (`Output.output_exact`).
-/

namespace FlagServer

/-- The phase that follows a phase. -/
def Phase.next? : Phase → Option Phase
  | .created => some .running
  | .running => some .closing
  | .closing => some .closed
  | .closed => none

/-- How far the loop has come. -/
inductive Serving where
  /-- Nobody serves the connection yet. -/
  | notYet
  /-- Frames are dispatched. -/
  | reading
  /-- No more messages are taken. -/
  | closing
  /-- The calls have been failed. -/
  | callsFailed
  /-- The requests have been cancelled. -/
  | requestsCancelled
  /-- The writer has been told to stop. -/
  | draining
  /-- Serving is over. -/
  | finished
  deriving DecidableEq

namespace Serving

/-- The phase of a connection whose loop has come so far. -/
def phase : Serving → Phase
  | notYet => .created
  | reading => .running
  | finished => .closed
  | _ => .closing

/-- Only a connection that nobody serves has just been created. -/
theorem eq_notYet_of_phase {serving : Serving} (h : serving.phase = .created) :
    serving = .notYet := by
  cases serving with
  | notYet => rfl
  | _ => cases h

/-- The writer has been told to stop. -/
def told : Serving → Bool
  | draining => true
  | finished => true
  | _ => false

end Serving

/-- An act of the loop. -/
def Act.ofLoop : Act → Bool
  | .receive _ => true
  | .closeCalls => true
  | .closeRequests => true
  | .other .start => true
  | .other .beginClosing => true
  | .other .stopWriter => true
  | .other .finishClosing => true
  | _ => false

/-- How far the loop has come after an act; nothing where it is not at the point for it. -/
def Serving.after? (serving : Serving) (a : Act) : Option Serving :=
  match serving, a with
  | .notYet, .other .start => some .reading
  | .reading, .receive _ => some .reading
  | .reading, .other .beginClosing => some .closing
  | .closing, .closeCalls => some .callsFailed
  | .callsFailed, .closeRequests => some .requestsCancelled
  | .requestsCancelled, .other .stopWriter => some .draining
  | .draining, .other .finishClosing => some .finished
  | _, _ => if a.ofLoop then none else some serving

/-- The writer after an act on a connection with a queue, and what it has written; nothing where the
act is not for it. The loop ends only once the writer has. -/
def Writer.after? (writer : Writer) (queue : List Command) (a : Act) :
    Option (Writer × List Message) :=
  match a with
  | .other .start => if writer = .idle then some (.active, []) else none
  | .other .take =>
    match writer, queue with
    | .active, .send message :: _ => some (.active, [message])
    | .active, .stop :: _ => some (.ended, [])
    | _, _ => none
  | .other .failWriter => if writer = .active then some (.ended, []) else none
  | .other .finishClosing => if writer = .ended then some (.ended, []) else none
  | _ => some (writer, [])

/-- A traffic with its loop, its writer and what has been written. -/
structure Output where
  /-- The traffic. -/
  traffic : Traffic := {}
  /-- How far the loop has come. -/
  serving : Serving := .notYet
  /-- The writer. -/
  writer : Writer := .idle
  /-- The messages that have been written, in order. -/
  written : List Message := []

namespace Output

/-- The connection. -/
def connection (s : Output) : Connection := s.traffic.connection

/-- The output after an act; nothing where the act is not possible. -/
def step? (registry : Registry) (s : Output) (a : Act) : Option Output :=
  (s.serving.after? a).bind fun serving =>
    (s.writer.after? s.connection.queue a).bind fun (writer, messages) =>
      (s.traffic.step? registry a).map fun traffic =>
        { traffic, serving, writer, written := s.written ++ messages }

/-- The output after some acts, one after the other. -/
def run? (registry : Registry) (s : Output) (acts : List Act) : Option Output :=
  acts.foldlM (step? registry) s

variable {registry : Registry} {s s' : Output} {a : Act} {acts : List Act}

theorem run?_append (s : Output) (acts more : List Act) :
    s.run? registry (acts ++ more) = (s.run? registry acts).bind (·.run? registry more) :=
  List.foldlM_append

/-- **What every step keeps holds after every run.** The property may speak of the acts so far. -/
theorem run_induction {P : List Act → Output → Prop} (hrun : s.run? registry acts = some s')
    (hstart : P [] s)
    (hstep : ∀ acts t a t', s.run? registry acts = some t → P acts t →
      t.step? registry a = some t' → P (acts ++ [a]) t') : P acts s' :=
  foldlM_induction hrun hstart hstep

/-- A step of an output is a step of its traffic. -/
theorem traffic_step (hstep : s.step? registry a = some s') :
    s.traffic.step? registry a = some s'.traffic := by
  obtain ⟨serving, -, hstep⟩ := Option.bind_eq_some_iff.mp hstep
  obtain ⟨⟨writer, messages⟩, -, hstep⟩ := Option.bind_eq_some_iff.mp hstep
  obtain ⟨traffic, htraffic, rfl⟩ := Option.map_eq_some_iff.mp hstep
  exact htraffic

/-- The traffic of an output takes the same acts. -/
theorem traffic_run (hrun : s.run? registry acts = some s') :
    s.traffic.run? registry acts = some s'.traffic := by
  refine run_induction (P := fun acts s' => s.traffic.run? registry acts = some s'.traffic) hrun
    rfl ?_
  intro acts t a t' _ ih hstep
  exact Traffic.run?_concat.mpr ⟨t.traffic, ih, traffic_step hstep⟩

/-! ## What a step can be -/

/-- **What a step can be.** -/
inductive Move (registry : Registry) (s : Output) : Act → Output → Prop where
  /-- Somebody uses the connection, or the loop goes on with it. -/
  | uses {a : Act} {traffic : Traffic} {serving : Serving} (huse : a.isUse = true)
    (hputs : s.connection.Puts (s.traffic.offer? registry a) traffic.connection)
    (hposted : traffic.posted
      = s.traffic.posted ++ s.connection.enqueued (s.traffic.offer? registry a))
    (hphase : serving.phase = s.serving.phase) (htold : serving.told = s.serving.told)
    (hbegun : serving = .notYet ↔ s.serving = .notYet)
    (hfinished : serving = .finished ↔ s.serving = .finished) :
    Move registry s a { s with traffic, serving }
  /-- The loop and the writer begin. -/
  | starts (hserving : s.serving = .notYet) (hwriter : s.writer = .idle) :
    Move registry s (.other .start) { s with
      traffic := { s.traffic with connection := { s.connection with phase := .running } }
      serving := .reading
      writer := .active }
  /-- The loop stops the queue. -/
  | closes (hserving : s.serving = .reading) :
    Move registry s (.other .beginClosing) { s with
      traffic := { s.traffic with connection := s.connection.beginClosing }
      serving := .closing }
  /-- The loop tells the writer to stop. -/
  | tells (hserving : s.serving = .requestsCancelled) :
    Move registry s (.other .stopWriter) { s with
      traffic := { s.traffic with connection := s.connection.stopWriter }
      serving := .draining }
  /-- The loop ends, because the writer has. -/
  | ends (hserving : s.serving = .draining) (hwriter : s.writer = .ended) :
    Move registry s (.other .finishClosing) { s with
      traffic := { s.traffic with connection := s.connection.finishClosing }
      serving := .finished }
  /-- The writer writes a message. -/
  | writes {message : Message} {queue : List Command} (hwriter : s.writer = .active)
    (hqueue : s.connection.queue = .send message :: queue) :
    Move registry s (.other .take) { s with
      traffic := { s.traffic with connection := { s.connection with queue } }
      written := s.written ++ [message] }
  /-- The writer stops. -/
  | stops {queue : List Command} (hwriter : s.writer = .active)
    (hqueue : s.connection.queue = .stop :: queue) :
    Move registry s (.other .take) { s with
      traffic := { s.traffic with connection := { s.connection with queue } }
      writer := .ended }
  /-- The writer fails. -/
  | fails (hwriter : s.writer = .active) :
    Move registry s (.other .failWriter) { s with
      traffic := { s.traffic with connection := s.connection.failWriter }
      writer := .ended }

/-- The loop at its beginning and end, and the writer, change the connection and nothing else. -/
theorem step?_op {t t' : Traffic} {op : Connection.Op}
    (hstep : t.step? registry (.other op) = some t') (hop : (Act.other op).isUse = false) :
    ∃ c, t.connection.op? op = some c ∧ t' = { t with connection := c } := by
  obtain ⟨u, hu, rfl⟩ := Traffic.step?_eq_some hstep
  obtain ⟨c, hc, rfl⟩ := Option.map_eq_some_iff.mp hu
  refine ⟨c, hc, ?_⟩
  rw [Traffic.queuedSince_op? hc hop, List.append_nil]

/-- The loop stays where it is while others act. -/
theorem after?_of_others (serving : Serving) (ha : a.ofLoop = false) :
    serving.after? a = some serving := by
  unfold Serving.after?
  split
  all_goals first | cases ha | simp [ha]

/-- Whoever uses the connection, the loop is told no more than before. -/
theorem after?_of_isUse {serving serving' : Serving} (ha : a.isUse = true)
    (h : serving.after? a = some serving') :
    serving'.phase = serving.phase ∧ serving'.told = serving.told
      ∧ (serving' = .notYet ↔ serving = .notYet)
      ∧ (serving' = .finished ↔ serving = .finished) := by
  cases a with
  | other op =>
    cases op with
    | notify _ _ | requestClose => cases serving <;> cases h <;> simp
    | _ => cases ha
  | receive _ | closeCalls | closeRequests =>
    cases serving <;> cases h
    simp [Serving.phase, Serving.told]
  | draw _ _ | maker _ _ | finish _ _ => cases serving <;> cases h <;> simp

/-- Whoever uses the connection leaves the writer alone. -/
theorem writer_after?_of_isUse {writer : Writer} {queue : List Command} (ha : a.isUse = true) :
    writer.after? queue a = some (writer, []) := by
  cases a with
  | other op =>
    cases op with
    | notify _ _ | requestClose => rfl
    | _ => cases ha
  | _ => rfl

/-- The loop takes its own steps from one point to the next, and the writer leaves it alone. -/
theorem after?_op {serving serving' : Serving} {op : Connection.Op}
    (hop : (Act.other op).isUse = false) (h : serving.after? (.other op) = some serving') :
    match op with
    | .start => serving = .notYet ∧ serving' = .reading
    | .beginClosing => serving = .reading ∧ serving' = .closing
    | .stopWriter => serving = .requestsCancelled ∧ serving' = .draining
    | .finishClosing => serving = .draining ∧ serving' = .finished
    | _ => serving' = serving := by
  cases op with
  | notify _ _ | requestClose => cases hop
  | _ => cases serving <;> cases h <;> simp

/-- **Every step is one of these moves.** Three things have to be possible together for a step: the
loop has to be at the point for the act, the writer has to be, and so has the traffic. Who uses the
connection asks nothing of the writer; the other acts are of the loop and of the writer themselves,
and each of them is possible at one point only. -/
theorem move_of_step? (hstep : s.step? registry a = some s') : Move registry s a s' := by
  obtain ⟨serving, hserving, hrest⟩ := Option.bind_eq_some_iff.mp hstep
  obtain ⟨⟨writer, messages⟩, hwriter, hrest⟩ := Option.bind_eq_some_iff.mp hrest
  obtain ⟨traffic, htraffic, rfl⟩ := Option.map_eq_some_iff.mp hrest
  cases ha : a.isUse with
  | true =>
    -- Somebody uses the connection. The writer stays as it is and has written nothing.
    rw [writer_after?_of_isUse ha] at hwriter
    cases hwriter
    obtain ⟨hphase, htold, hbegun, hfinished⟩ := after?_of_isUse ha hserving
    rw [List.append_nil]
    exact .uses ha (Traffic.puts_step htraffic ha) (Traffic.posted_step htraffic) hphase htold
      hbegun hfinished
  | false =>
    cases a with
    | other op =>
      -- Nothing is put to the queue, so the traffic differs in its connection only. Of each
      -- operation it is left to say where the loop was (`after?_op`) and what the writer was at.
      obtain ⟨c, hc, rfl⟩ := step?_op htraffic ha
      change s.connection.op? op = some c at hc
      cases op with
      | notify _ _ | requestClose => cases ha
      | start =>
        obtain ⟨hfrom, rfl⟩ := after?_op rfl hserving
        simp only [Writer.after?] at hwriter
        -- The writer has to be idle, and the connection created.
        split at hwriter <;> cases hwriter
        simp only [Connection.op?, Connection.start?] at hc
        split at hc <;> cases hc
        rw [List.append_nil]
        exact .starts hfrom ‹_›
      | beginClosing =>
        obtain ⟨hfrom, rfl⟩ := after?_op rfl hserving
        cases hwriter
        cases hc
        rw [List.append_nil]
        exact .closes hfrom
      | stopWriter =>
        obtain ⟨hfrom, rfl⟩ := after?_op rfl hserving
        cases hwriter
        cases hc
        rw [List.append_nil]
        exact .tells hfrom
      | finishClosing =>
        obtain ⟨hfrom, rfl⟩ := after?_op rfl hserving
        simp only [Writer.after?] at hwriter
        split at hwriter
        · case isTrue hended =>
          cases hwriter
          cases hc
          rw [List.append_nil, ← hended]
          exact .ends hfrom hended
        · cases hwriter
      | take =>
        -- The writer takes what stands first in the queue: a message, which it writes, or the
        -- command to stop.
        have hsame : serving = s.serving := after?_op rfl hserving
        subst hsame
        simp only [Writer.after?] at hwriter
        split at hwriter
        · case h_1 message queue hactive hqueue =>
          cases hwriter
          simp only [Connection.op?, Connection.take?, hqueue, Option.map_some] at hc
          cases hc
          rw [← hactive]
          exact .writes hactive hqueue
        · case h_2 queue hactive hqueue =>
          cases hwriter
          simp only [Connection.op?, Connection.take?, hqueue, Option.map_some] at hc
          cases hc
          rw [List.append_nil]
          exact .stops hactive hqueue
        · cases hwriter
      | failWriter =>
        -- Only a writer at work can fail.
        have hsame : serving = s.serving := after?_op rfl hserving
        subst hsame
        simp only [Writer.after?] at hwriter
        split at hwriter <;> cases hwriter
        cases hc
        rw [List.append_nil]
        exact .fails ‹_›
    | _ => cases ha

/-! ## Step by step -/

/-- The loop, the writer and the connection keep pace with each other. -/
structure Paced (s : Output) : Prop where
  phase : s.connection.phase = s.serving.phase
  idle : s.writer = .idle ↔ s.serving = .notYet
  finished : s.serving = .finished → s.writer = .ended

theorem paced_start : Paced {} :=
  ⟨rfl, by simp, nofun⟩

/-- Every move keeps pace: the loop and the writer begin together, and the loop ends after the
writer. -/
theorem Paced.move (hs : s.Paced) (hmove : Move registry s a s') : s'.Paced := by
  -- A writer that is at work has been started.
  have hbegun : s.writer = .active → s.serving ≠ .notYet := by
    intro hactive hserving
    have hidle := hs.idle.mpr hserving
    rw [hactive] at hidle
    cases hidle
  cases hmove with
  | uses _ hputs _ hphase _ hbegun hfinished =>
    refine ⟨?_, hs.idle.trans hbegun.symm, fun hserving => hs.finished (hfinished.mp hserving)⟩
    exact (hputs.phase.trans hs.phase).trans hphase.symm
  | starts hserving hwriter => exact ⟨rfl, by simp, nofun⟩
  | closes hserving => exact ⟨rfl, by simp [hs.idle, hserving], nofun⟩
  | tells hserving =>
    -- To put a command into the queue does not change the phase.
    refine ⟨?_, by simp [hs.idle, hserving], nofun⟩
    have hphase := hs.phase
    rw [hserving] at hphase
    change s.connection.stopWriter.phase = _
    unfold Connection.stopWriter
    split <;> exact hphase
  | ends hserving hwriter => exact ⟨rfl, by simp [hwriter], fun _ => hwriter⟩
  | writes hwriter hqueue => exact ⟨hs.phase, hs.idle, hs.finished⟩
  | stops hwriter hqueue => exact ⟨hs.phase, by simp [hbegun hwriter], fun _ => rfl⟩
  | fails hwriter => exact ⟨hs.phase, by simp [hbegun hwriter], fun _ => rfl⟩

/-- A connection that is closing or closed takes nothing. -/
theorem enqueued_of_told (hs : s.Paced) (htold : s.serving.told = true)
    (offer : Option Message) : s.connection.enqueued offer = [] := by
  have hphase := hs.phase
  rw [Connection.enqueued_eq, Connection.accepts, hphase]
  cases hserving : s.serving with
  | draining | finished => rfl
  | _ => simp [hserving, Serving.told] at htold

/-- The command to stop, from when the writer is told until it has stopped. -/
def pendingStop (s : Output) : List Command :=
  if s.serving.told && s.writer != .ended then [.stop] else []

/-- **Nothing is lost.** What has been written and what waits in the queue is what the queue has
taken, in that order. A command to stop stands at the end of the queue, and nowhere else. -/
structure Intact (s : Output) : Prop extends Paced s where
  able : s.connection.writerFailed = false
  stopped : s.writer = .ended → s.serving.told = true
  record : ∃ waiting, s.traffic.posted = s.written ++ waiting
    ∧ s.connection.queue = waiting.map .send ++ s.pendingStop
    ∧ (s.writer = .ended → waiting = [])

theorem intact_start : Intact {} :=
  ⟨paced_start, rfl, nofun, [], rfl, rfl, nofun⟩

/-- Whoever uses the connection adds to the end of what waits, and to nothing once the writer has
been told to stop. -/
theorem Intact.uses {traffic : Traffic} {serving : Serving} {offer : Option Message} (hs : s.Intact)
    (hpaced : Paced { s with traffic, serving })
    (hputs : s.connection.Puts offer traffic.connection)
    (hposted : traffic.posted = s.traffic.posted ++ s.connection.enqueued offer)
    (htold : serving.told = s.serving.told) : Intact { s with traffic, serving } := by
  obtain ⟨waiting, hrecord, hqueue, hnone⟩ := hs.record
  have hpending : pendingStop { s with traffic, serving } = s.pendingStop := by
    simp only [pendingStop, htold]
  refine ⟨hpaced, hputs.writerFailed.trans hs.able, fun hended => htold.trans (hs.stopped hended),
    waiting ++ s.connection.enqueued offer, ?_, ?_, fun hended => ?_⟩
  · rw [hposted, hrecord, List.append_assoc]
  · change traffic.connection.queue = _
    rw [hputs.queue, hqueue, hpending, List.map_append]
    -- Once the writer has been told to stop, the queue takes nothing more, so the command stays
    -- last.
    cases ht : s.serving.told with
    | true => simp [enqueued_of_told hs.toPaced ht]
    | false => simp [pendingStop, ht]
  · rw [hnone hended, enqueued_of_told hs.toPaced (hs.stopped hended), List.append_nil]

/-- **No move loses a message,** but for the failure of the writer. -/
theorem Intact.move (hs : s.Intact) (hmove : Move registry s a s') (ha : a ≠ .other .failWriter) :
    s'.Intact := by
  have hpaced := hs.toPaced.move hmove
  obtain ⟨waiting, hposted, hqueue, hnone⟩ := hs.record
  -- Before it is told to stop, the writer has not stopped, and no command to stop is in the queue.
  have hearly : s.serving.told = false → s.writer ≠ .ended ∧ s.pendingStop = [] := by
    intro htold
    refine ⟨fun hended => ?_, by simp [pendingStop, htold]⟩
    rw [hs.stopped hended] at htold
    cases htold
  cases hmove with
  | uses _ hputs hposted' _ htold _ _ => exact hs.uses hpaced hputs hposted' htold
  | starts hserving hwriter =>
    have hpending := (hearly (by rw [hserving]; rfl)).2
    refine ⟨hpaced, hs.able, nofun, waiting, hposted, ?_, nofun⟩
    change s.connection.queue = _
    -- The loop and the writer begin, which puts nothing to the queue.
    rw [hqueue, hpending]
    rfl
  | closes hserving =>
    obtain ⟨hwriter, hpending⟩ := hearly (by rw [hserving]; rfl)
    refine ⟨hpaced, hs.able, fun hended => absurd hended hwriter, waiting, hposted, ?_,
      fun hended => absurd hended hwriter⟩
    change s.connection.queue = _
    rw [hqueue, hpending]
    rfl
  | tells hserving =>
    obtain ⟨hwriter, hpending⟩ := hearly (by rw [hserving]; rfl)
    have hstop : s.connection.stopWriter
        = { s.connection with queue := s.connection.queue ++ [.stop] } := by
      simp [Connection.stopWriter, hs.able]
    refine ⟨hpaced, ?_, fun hended => absurd hended hwriter, waiting, hposted, ?_,
      fun hended => absurd hended hwriter⟩
    · change s.connection.stopWriter.writerFailed = false
      rw [hstop]
      exact hs.able
    · change s.connection.stopWriter.queue = _
      rw [hstop, hqueue, hpending]
      simp [pendingStop, Serving.told, hwriter]
  | ends hserving hwriter =>
    -- The writer has ended, so there is no command to stop any more.
    refine ⟨hpaced, hs.able, fun _ => rfl, waiting, hposted, ?_, hnone⟩
    change s.connection.queue = _
    rw [hqueue]
    simp [pendingStop, hwriter]
  | @writes message queue hwriter hhead =>
    -- The message at the front of the queue is the first of those that wait.
    rw [hhead] at hqueue
    cases waiting with
    | nil =>
      simp only [pendingStop, List.map_nil, List.nil_append] at hqueue
      split at hqueue <;> cases hqueue
    | cons first waiting =>
      rw [List.map_cons, List.cons_append] at hqueue
      cases hqueue
      refine ⟨hpaced, hs.able, hs.stopped, waiting, ?_, rfl, fun hended => ?_⟩
      · change s.traffic.posted = _
        rw [hposted, List.append_assoc, List.singleton_append]
      · rw [hwriter] at hended
        cases hended
  | @stops queue hwriter hhead =>
    -- The command to stop is last, so there is nothing left that waits.
    rw [hhead] at hqueue
    cases waiting with
    | nil =>
      simp only [pendingStop, List.map_nil, List.nil_append] at hqueue
      split at hqueue
      · case isTrue hpending =>
        cases hqueue
        rw [Bool.and_eq_true] at hpending
        refine ⟨hpaced, hs.able, fun _ => hpending.1, [], hposted, ?_, fun _ => rfl⟩
        simp [pendingStop, connection]
      · cases hqueue
    | cons first waiting =>
      rw [List.map_cons, List.cons_append] at hqueue
      cases hqueue
  | fails hwriter => exact absurd rfl ha

/-! ## Phases -/

/-- The connection takes no more messages. -/
def IsShut (s : Output) : Prop :=
  s.connection.phase = .closing ∨ s.connection.phase = .closed

/-- A connection stays in its phase or goes to the next. -/
theorem phase_move (hs : s.Paced) (hmove : Move registry s a s') :
    s'.connection.phase = s.connection.phase
      ∨ s.connection.phase.next? = some s'.connection.phase := by
  have hphase := hs.phase
  cases hmove with
  | uses _ hputs _ _ _ _ _ => exact .inl hputs.phase
  | starts hserving _ =>
    rw [hphase, hserving]
    exact .inr rfl
  | closes hserving =>
    rw [hphase, hserving]
    exact .inr rfl
  | tells _ =>
    left
    change s.connection.stopWriter.phase = _
    unfold Connection.stopWriter
    split <;> rfl
  | ends hserving _ =>
    rw [hphase, hserving]
    exact .inr rfl
  | writes _ _ | stops _ _ | fails _ => exact .inl rfl

/-- There is no way back from closing. -/
theorem IsShut.move (h : s.IsShut) (hs : s.Paced) (hmove : Move registry s a s') : s'.IsShut := by
  rcases phase_move hs hmove with hphase | hphase
  · rw [IsShut, hphase]
    exact h
  · rcases h with h | h <;> rw [h] at hphase
    · exact .inr (Option.some.inj hphase).symm
    · cases hphase

theorem IsShut.accepts (h : s.IsShut) : s.connection.accepts = false := by
  rcases h with h | h <;> simp [Connection.accepts, h]

/-! ## Runs -/

theorem Paced.run (hs : s.Paced) (hrun : s.run? registry acts = some s') : s'.Paced :=
  run_induction (P := fun _ s' => s'.Paced) hrun hs
    fun _ _ _ _ _ ih hstep => ih.move (move_of_step? hstep)

/-- **No run loses a message** in which the writer does not fail. -/
theorem Intact.run (hs : s.Intact) (hrun : s.run? registry acts = some s')
    (hable : .other .failWriter ∉ acts) : s'.Intact := by
  refine run_induction (P := fun acts s' => .other .failWriter ∉ acts → s'.Intact) hrun
    (fun _ => hs) ?_ hable
  intro acts t a t' _ ih hstep hable
  rw [List.mem_append, not_or, List.mem_singleton] at hable
  exact (ih hable.1).move (move_of_step? hstep) (Ne.symm hable.2)

/-- Once a connection takes no more messages, it never takes any again. -/
theorem IsShut.run (hshut : s.IsShut) (hs : s.Paced) (hrun : s.run? registry acts = some s') :
    s'.IsShut ∧ s'.traffic.posted = s.traffic.posted := by
  refine run_induction (P := fun _ s' => s'.IsShut ∧ s'.traffic.posted = s.traffic.posted) hrun
    ⟨hshut, rfl⟩ ?_
  rintro acts t a t' hrun ⟨ht, hposted⟩ hstep
  refine ⟨ht.move (hs.run hrun) (move_of_step? hstep), ?_⟩
  have haccepts : t.traffic.connection.accepts = false := ht.accepts
  rw [Traffic.posted_step (traffic_step hstep), Connection.enqueued_eq, haccepts]
  simpa using hposted

/-- Once somebody serves a connection, it is never again one that nobody serves. -/
theorem begun_run (hrun : s.run? registry acts = some s') (hstart : .other .start ∈ acts) :
    s'.serving ≠ .notYet := by
  refine run_induction (P := fun acts s' => .other .start ∈ acts → s'.serving ≠ .notYet) hrun
    nofun ?_ hstart
  intro acts t a t' _ ih hstep hstart
  rw [List.mem_append, List.mem_singleton] at hstart
  rcases hstart with hstart | rfl
  · -- No move leads back to a loop that has not begun.
    cases move_of_step? hstep with
    | uses _ _ _ _ _ hbegun _ => exact fun hserving => ih hstart (hbegun.mp hserving)
    | starts | closes | tells | ends => nofun
    | writes | stops | fails => exact ih hstart
  · cases move_of_step? hstep with
    | uses huse => cases huse
    | starts => nofun

/-- What has been written and what waits is what the queue took, and nothing waits once serving is
over. -/
theorem Intact.accepted (hs : s.Intact) (hrun : run? registry {} acts = some s) :
    ∃ waiting, Traffic.accepted registry {} acts = s.written ++ waiting
      ∧ (s.serving = .finished → waiting = []) := by
  obtain ⟨waiting, hrecord, -, hnone⟩ := hs.record
  have hposted : s.traffic.posted = Traffic.accepted registry {} acts :=
    Traffic.posted_run (traffic_run hrun)
  exact ⟨waiting, hposted.symm.trans hrecord, fun hfinished => hnone (hs.finished hfinished)⟩

/-- What is said of an output and the acts that led to it. -/
structure Exact (registry : Registry) (acts : List Act) (s : Output) : Prop where
  /-- What has been written is the beginning of what the queue took. -/
  begins : s.written <+: Traffic.accepted registry {} acts
  /-- Once serving is over, it is all of it. -/
  whole : s.serving = .finished → s.written = Traffic.accepted registry {} acts
  /-- From when the connection begins to close, every message is refused and its sender told, and
  nothing is taken of what is put to the queue. -/
  refused : s.connection.phase = .closing ∨ s.connection.phase = .closed →
    (∀ message, s.connection.enqueue? message = none)
    ∧ (∀ method params,
        s.connection.notify method (some params) = (.error .connectionClosed, s.connection))
    ∧ ∀ more s', s.run? registry more = some s' → Traffic.accepted registry s.traffic more = []
  /-- No act takes the connection to another phase than the next. -/
  phases : ∀ a s', s.step? registry a = some s' → s'.connection.phase = s.connection.phase
    ∨ s.connection.phase.next? = some s'.connection.phase
  /-- A connection that has been served is not served again. -/
  once : .other .start ∈ acts →
    s.connection.start? = none ∧ s.step? registry (.other .start) = none

/-- **What is written is what was taken.** Whoever sends what and when, as long as the writer does
not fail: once serving is over, the messages that have been written are those that the queue took,
each of them once and in the order in which they were put to it. -/
theorem output_exact (hrun : run? registry {} acts = some s) (hable : .other .failWriter ∉ acts) :
    Exact registry acts s := by
  have hintact := intact_start.run hrun hable
  have hpaced := hintact.toPaced
  obtain ⟨waiting, hrecord, hnone⟩ := hintact.accepted hrun
  refine ⟨?_, fun hfinished => ?_, fun hshut => ⟨fun message => ?_, fun method params => ?_,
    fun more s' hmore => ?_⟩, fun a s' hstep => phase_move hpaced (move_of_step? hstep),
    fun hstart => ?_⟩
  · exact ⟨waiting, hrecord.symm⟩
  · rw [hrecord, hnone hfinished, List.append_nil]
  · rw [Connection.enqueue?, IsShut.accepts hshut]
    rfl
  · rw [Connection.notify, Connection.enqueue?, IsShut.accepts hshut]
    rfl
  · -- Nothing is recorded any more, and what the queue took would have been.
    have hsame := (IsShut.run hshut hpaced hmore).2
    rw [Traffic.posted_run (traffic_run hmore)] at hsame
    exact List.append_right_eq_self.mp hsame
  · have hbegun := begun_run hrun hstart
    -- A connection is started from the phase in which nobody serves it, and it has left that.
    have hstarted : s.connection.start? = none := by
      rw [Connection.start?, hpaced.phase]
      cases hserving : s.serving with
      | notYet => exact absurd hserving hbegun
      | _ => rfl
    refine ⟨hstarted, ?_⟩
    cases hstep : s.step? registry (.other .start) with
    | none => rfl
    | some s' =>
      obtain ⟨serving, hserving, -⟩ := Option.bind_eq_some_iff.mp hstep
      exact absurd (after?_op rfl hserving).1 hbegun

/-- A notification before anybody serves, a call, a frame that is no JSON, and a notification that
comes too late. -/
def mixedOutput : List Act :=
  [.other (.notify "early" (some .null)), .draw "ask" (some .null), .maker 0 .enter,
    .maker 0 .send, .other .start, .other .take, .receive [], .other .requestClose,
    .other .beginClosing, .other (.notify "late" (some .null)), .closeCalls, .closeRequests,
    .other .stopWriter, .other .take, .other .take, .other .take, .other .finishClosing]

theorem output_exact_mixedOutput :
    ∃ s, run? {} {} mixedOutput = some s ∧ s.serving = .finished
      ∧ s.written = Traffic.accepted {} {} mixedOutput
      ∧ s.written.map Message.method? = [some "early", some "ask", none] := by
  have hcourse : (run? {} {} mixedOutput).map (fun s => (s.serving, s.written.map Message.method?))
      = some (.finished, [some "early", some "ask", none]) := by decide +kernel
  obtain ⟨s, hrun, heq⟩ := Option.map_eq_some_iff.mp hcourse
  rw [Prod.mk.injEq] at heq
  have hexact := output_exact hrun (by simp [mixedOutput])
  exact ⟨s, hrun, heq.1, hexact.whole heq.1, heq.2⟩

end Output

end FlagServer
