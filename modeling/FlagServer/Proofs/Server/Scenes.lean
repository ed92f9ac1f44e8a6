import FlagServer.Proofs.Server.Traffic
import FlagServer.Proofs.Session.Tending
import FlagServer.Proofs.Session.Watching

/-!
# A server plays scenes

What is proved of scenes is proved of every list of events, whoever is next. This file shows that a
server does nothing to its session but events of a scene: the loop handles the notifications, one
after the other because it waits for each of them, and every task handles its request. So each state
that a server comes to is **shown** by a scene, in which the same notifications have been let in,
and what holds of all scenes holds of all servers.

`Server.Change` says once what a step of an agent does to the stages that the agents stand at.
-/

namespace FlagServer

variable {ε μ η τ : Type}

/-! ## What a step does to the stages -/

/-- The stage that a message goes on with. -/
def Progress.stage? : Progress τ → Option τ
  | more stage => some stage
  | done _ => none

namespace Server

variable {h : Handler η τ} {agent : Agent} {s s' t : Server η τ}

/-- **What a step of an agent does** to the state of the handler and to the stages of the agents. -/
inductive Change (h : Handler η τ) (agent : Agent) (s s' : Server η τ) : Prop where
  /-- Nothing. -/
  | nothing (hidle : s.stage? agent = none) (hstate : s'.state = s.state)
    (hstages : ∀ a, s'.stage? a = s.stage? a)
  /-- The agent goes through its stage. -/
  | goesOn {cancelled : Bool} {stage : τ} {turn : Turn η τ}
    (hstage : s.stage? agent = some stage) (hturn : h.step cancelled stage s.state = some turn)
    (hstate : s'.state = turn.state)
    (hstages : ∀ a, s'.stage? a = if a = agent then turn.progress.stage? else s.stage? a)
  /-- A task begins with a request. -/
  | request (ticket : Nat) (r : IncomingRequest) (hidle : s.stage? agent = none)
    (hfree : s.stage? (.task ticket) = none) (hstate : s'.state = s.state)
    (hstages : ∀ a, s'.stage? a = if a = .task ticket then some (h.request r) else s.stage? a)
  /-- The loop begins with a notification. -/
  | notification (n : IncomingNotification) (hidle : s.stage? agent = none)
    (hfree : s.stage? .loop = none) (hstate : s'.state = s.state)
    (hstages : ∀ a, s'.stage? a = if a = .loop then some (h.notification n) else s.stage? a)

/-- A change counts from any state with the same stages. -/
theorem Change.of_same (hchange : Change h agent t s') (hstate : t.state = s.state)
    (hstages : ∀ a, t.stage? a = s.stage? a) : Change h agent s s' := by
  cases hchange with
  | nothing hidle hstate' hstages' =>
    rw [hstages] at hidle
    exact .nothing hidle (hstate'.trans hstate) fun a => (hstages' a).trans (hstages a)
  | goesOn hstage hturn hstate' hstages' =>
    simp only [hstages, hstate] at hstage hturn hstages'
    exact .goesOn hstage hturn hstate' hstages'
  | request ticket r hidle hfree hstate' hstages' =>
    simp only [hstages] at hidle hfree hstages'
    exact .request ticket r hidle hfree (hstate'.trans hstate) hstages'
  | notification n hidle hfree hstate' hstages' =>
    simp only [hstages] at hidle hfree hstages'
    exact .notification n hidle hfree (hstate'.trans hstate) hstages'

/-- Only the tasks and the loop have stages. -/
theorem stage?_congr (hloop : s'.stage? .loop = s.stage? .loop) (htasks : s'.tasks = s.tasks)
    (a : Agent) : s'.stage? a = s.stage? a := by
  cases a with
  | loop => exact hloop
  | writer => rfl
  | task ticket => simp only [stage?, task?, htasks]

/-- A change of the loop concerns no task. -/
theorem stage?_of_loop {stage : Option τ} (hloop : s'.stage? .loop = stage)
    (htasks : s'.tasks = s.tasks) (a : Agent) :
    s'.stage? a = if a = .loop then stage else s.stage? a := by
  cases a with
  | loop => simpa using hloop
  | writer => rfl
  | task ticket => simp [stage?, task?, htasks]

/-- A change of one task concerns neither the loop nor other tasks. -/
theorem stage?_of_task {ticket : Nat} {stage : Option τ} (hloop : s'.loop = s.loop)
    (htask : (s'.task? ticket).map (·.stage) = stage)
    (htasks : ∀ other, other ≠ ticket → s'.task? other = s.task? other) (a : Agent) :
    s'.stage? a = if a = .task ticket then stage else s.stage? a := by
  cases a with
  | loop => simp [stage?, hloop]
  | writer => rfl
  | task other =>
    by_cases hother : other = ticket
    · subst hother
      simpa [stage?] using htask
    · simp [stage?, hother, htasks other hother]

/-- A frame that is dispatched while the loop is free. -/
theorem change_receive (hfree : s.stage? .loop = none) (body : List UInt8)
    (hnodup : ((s.receive h body).tasks.map (·.ticket)).Nodup) :
    Change h .loop s (s.receive h body) := by
  unfold receive at hnodup ⊢
  cases hdispatch : s.connection.dispatch h.registry body with
  | mk connection delivery =>
    rw [hdispatch] at hnodup
    cases delivery with
    | nothing => exact .nothing hfree rfl (stage?_congr rfl rfl)
    | notification n => exact .notification n hfree hfree rfl (stage?_of_loop rfl rfl)
    | request ticket r =>
      -- No task has the ticket yet, as no two tasks have one ticket now.
      have hnone : s.task? ticket = none := by
        refine List.find?_eq_none.mpr fun task htask => ?_
        simp only [List.map_append, List.map_cons, List.map_nil, List.nodup_append] at hnodup
        simpa using hnodup.2.2 _ (List.mem_map_of_mem htask) _ List.mem_cons_self
      refine .request ticket r hfree (by rw [stage?, hnone]; rfl) rfl (stage?_of_task rfl ?_ ?_)
      · simp only [task?] at hnone
        simp [task?, List.find?_append, hnone]
      · intro other hother
        simp [task?, List.find?_append, Ne.symm hother]

/-- A step of the loop goes through its stage, or begins with a message, or changes no stage. -/
theorem change_stepLoop (hnodup : (s'.tasks.map (·.ticket)).Nodup)
    (hstep : s.stepLoop h = some s') : Change h .loop s s' := by
  obtain ⟨bodies, hstepped⟩ := exists_loopStep hstep
  have hfree : ∀ {begun}, s.loop = .reading begun → s.stage? .loop = none := by
    intro begun hloop
    simp [stage?, hloop]
  cases hstepped with
  | closes hloop _ hs | leaves hloop _ hs | takes hloop _ hs =>
    subst hs
    exact .nothing (hfree hloop) rfl (stage?_congr (hfree hloop).symm rfl)
  | @dispatches begun body rest hloop _ hs =>
    subst hs
    have hreceive := change_receive (h := h)
      (s := { s with input := rest, loop := .reading false }) rfl body hnodup
    exact hreceive.of_same rfl (stage?_congr (hfree hloop).symm rfl)
  | @handles stage turn hloop hturn hs =>
    subst hs
    refine .goesOn (by simp [stage?, hloop]) hturn rfl (stage?_of_loop ?_ rfl)
    cases turn.progress <;> rfl
  | ends hloop hs =>
    subst hs
    have hidle : s.stage? .loop = none := by simp [stage?, hloop]
    exact .nothing hidle rfl (stage?_congr hidle.symm rfl)

/-- What the writer does changes no stage. -/
theorem change_stepWriter (hstep : s.stepWriter = some s') : Change h .writer s s' := by
  cases writerStep_of_stepWriter hstep with
  | writes _ _ hs | fails _ _ hs | stops _ _ hs =>
    subst hs
    exact .nothing rfl rfl (stage?_congr rfl rfl)

/-- A task keeps its ticket when it comes to another stage. -/
theorem task?_of_map {ticket : Nat} {stage : τ} (htasks : s'.tasks
      = s.tasks.map fun task => if task.ticket == ticket then { task with stage } else task)
    (other : Nat) : s'.task? other
      = (s.task? other).map fun task => if other = ticket then { task with stage } else task := by
  -- To be at another stage does not change which ticket a task has, so it is found as before.
  have hkeeps : (fun task : Task τ => task.ticket == other)
      ∘ (fun task => if task.ticket == ticket then { task with stage } else task)
      = fun task => task.ticket == other := by
    funext task
    simp only [Function.comp_apply]
    split <;> rfl
  rw [task?, task?, htasks, List.find?_map, hkeeps]
  refine Option.map_congr fun task htask => ?_
  have hticket : task.ticket = other := by simpa using List.find?_some htask
  simp only [hticket, beq_iff_eq]

/-- A task that ends is gone, and no other. -/
theorem task?_of_filter {ticket : Nat}
    (htasks : s'.tasks = s.tasks.filter fun task => !(task.ticket == ticket)) (other : Nat) :
    s'.task? other = if other = ticket then none else s.task? other := by
  rw [task?, task?, htasks, List.find?_filter]
  by_cases hother : other = ticket
  · subst hother
    simp
  · rw [if_neg hother]
    congr 1
    funext task
    by_cases hticket : task.ticket = other
    · simp [hticket, hother]
    · simp [hticket]

/-- A step of a task goes through its stage. -/
theorem change_stepTask {ticket : Nat} (hstep : s.stepTask h ticket = some s') :
    Change h (.task ticket) s s' := by
  obtain ⟨task, turn, htask, hturn, hstepped⟩ := taskStep_of_stepTask hstep
  have hstage : s.stage? (.task ticket) = some task.stage := by
    rw [stage?, htask]
    rfl
  cases hstepped with
  | goesOn hprogress hs =>
    subst hs
    refine .goesOn hstage hturn rfl (stage?_of_task rfl ?_ fun other hother => ?_)
    · rw [task?_of_map (s := s) rfl, htask, hprogress]
      simp [Progress.stage?]
    · rw [task?_of_map (s := s) rfl]
      simp [hother]
  | ends hprogress hs =>
    subst hs
    refine .goesOn hstage hturn rfl (stage?_of_task rfl ?_ fun other hother => ?_)
    · rw [task?_of_filter (s := s) rfl, if_pos rfl, hprogress]
      rfl
    · rw [task?_of_filter (s := s) rfl, if_neg hother]

/-- **What a step can do,** given that no two tasks have one ticket after it. -/
theorem change_step (hnodup : (s'.tasks.map (·.ticket)).Nodup)
    (hstep : s.step h agent = some s') : Change h agent s s' := by
  cases agent with
  | loop => exact change_stepLoop hnodup hstep
  | writer => exact change_stepWriter hstep
  | task ticket => exact change_stepTask hstep

end Server

/-! ## The states of a server -/

namespace Session

variable {h : Host ε μ} {allowed : Session ε μ → Stage → Bool}
  {server server' : Server (Session ε μ) Standing}

/-- The notification that is let in by a step of an agent. -/
def heardBy? (server : Server (Session ε μ) Standing) (agent : Agent) :
    Option IncomingNotification :=
  (server.stage? agent).bind server.state.heard?

/-- The states that the server of a session comes to, whoever takes turns with whom and whatever
comes from outside, as long as its agents go only through stages that are allowed. The list is of
the notifications that have been let in. -/
inductive Served (h : Host ε μ) (allowed : Session ε μ → Stage → Bool) :
    List IncomingNotification → Server (Session ε μ) Standing → Prop where
  /-- It begins to serve. -/
  | start {engine : ε} {manifest : μ} {disk : FileSystem}
    {server : Server (Session ε μ) Standing} :
    ({ state := { engine, manifest, disk } } : Server (Session ε μ) Standing).serve?
      = some server → Served h allowed [] server
  | feed {heard : List IncomingNotification} {server : Server (Session ε μ) Standing}
    (bytes : List UInt8) : Served h allowed heard server →
    Served h allowed heard (server.feed bytes)
  | endInput {heard : List IncomingNotification} {server : Server (Session ε μ) Standing} :
    Served h allowed heard server → Served h allowed heard server.endInput
  | losePeer {heard : List IncomingNotification} {server : Server (Session ε μ) Standing} :
    Served h allowed heard server → Served h allowed heard server.losePeer
  /-- What has been written is taken away. -/
  | flush {heard : List IncomingNotification} {server : Server (Session ε μ) Standing} :
    Served h allowed heard server → Served h allowed heard { server with written := [] }
  /-- The disk and the state of the manifest change. -/
  | outside {heard : List IncomingNotification} {server : Server (Session ε μ) Standing}
    (disk : FileSystem) (manifest : μ) : Served h allowed heard server →
    Served h allowed heard { server with state := { server.state with disk, manifest } }
  | step {heard : List IncomingNotification} {server server' : Server (Session ε μ) Standing}
    {agent : Agent} : Served h allowed heard server →
    (∀ standing, server.stage? agent = some standing →
      allowed server.state standing.stage = true) →
    server.step (handler h) agent = some server' →
    Served h allowed (heard ++ (heardBy? server agent).toList) server'

variable {heard : List IncomingNotification}

/-- All that a server does for a session is traffic, also while its disk changes. -/
theorem Served.mirrored (hserved : Served h allowed heard server) :
    ∃ acts t, Traffic.run? Catalogue.registry {} acts = some t ∧ server.Mirrors t := by
  induction hserved with
  | start hserve =>
    obtain ⟨connection, hstart, rfl⟩ := Option.map_eq_some_iff.mp hserve
    exact Server.mirrored_more ⟨[], {}, rfl, rfl, rfl⟩ (.op (o := .start) hstart rfl)
  | feed bytes _ ih => exact Server.mirrored_more ih (.idle rfl rfl)
  | endInput _ ih => exact Server.mirrored_more ih (.idle rfl rfl)
  | losePeer _ ih => exact Server.mirrored_more ih (.idle rfl rfl)
  | flush _ ih => exact Server.mirrored_more ih (.idle rfl rfl)
  | outside disk manifest _ ih => exact Server.mirrored_more ih (.idle rfl rfl)
  | step _ _ hstep ih =>
    exact Server.mirrored_more ih (Server.acts_step (handler_onlyNotifies h) hstep)

/-- No two tasks have one ticket. -/
theorem Served.nodup_tickets (hserved : Served h allowed heard server) :
    (server.tasks.map (·.ticket)).Nodup := by
  obtain ⟨acts, t, hrun, ht⟩ := hserved.mirrored
  have hnodup := (Traffic.tracked_run hrun).nodup_tickets
  rw [ht.running, Server.atWork, List.map_map] at hnodup
  exact hnodup

end Session

/-! ## Scenes of a server -/

namespace Scene

variable {h : Host ε μ} {allowed : Session ε μ → Stage → Bool} {s s' : Scene ε μ} {x y : Handling}
  {server server' : Server (Session ε μ) Standing} {who : Nat → Agent} {agent : Agent}

/-- **A scene shows a server:** they have one session, and the messages of the scene stand where the
agents are that handle them. The loop handles the notifications. -/
structure Shows (who : Nat → Agent) (server : Server (Session ε μ) Standing) (s : Scene ε μ) :
    Prop where
  session : s.session = server.state
  stages : ∀ x ∈ s.handlings, server.stage? (who x.number) = some x.standing
  agents : ∀ agent standing, server.stage? agent = some standing →
    ∃ x ∈ s.handlings, who x.number = agent
  single : ∀ x ∈ s.handlings, ∀ y ∈ s.handlings, who x.number = who y.number →
    x.number = y.number
  loop : ∀ x ∈ s.handlings, who x.number = .loop ↔ x.message.isNotification = true

/-- A message is found by its number. -/
theorem Numbered.find?_eq (hs : s.Numbered) (hx : x ∈ s.handlings) :
    s.find? x.number = some x := by
  have hsome : (s.find? x.number).isSome = true :=
    List.find?_isSome.mpr ⟨x, hx, beq_self_eq_true _⟩
  obtain ⟨y, hy⟩ := Option.isSome_iff_exists.mp hsome
  have hnumber : y.number = x.number := by simpa using List.find?_some hy
  rw [hy, hs.eq_of_number (List.mem_of_find?_eq_some hy) hx hnumber]

/-- Where nobody goes on, the scene stays. -/
theorem Shows.of_same (hs : s.Shows who server) (hstate : server'.state = server.state)
    (hstages : ∀ a, server'.stage? a = server.stage? a) : s.Shows who server' where
  session := hs.session.trans hstate.symm
  stages x hx := (hstages _).trans (hs.stages x hx)
  agents agent standing hstage := hs.agents agent standing ((hstages _).symm.trans hstage)
  single := hs.single
  loop := hs.loop

/-- An agent that goes on is a step of its message. -/
theorem Shows.goesOn (hs : s.Shows who server) (hnumbered : s.Numbered) {cancelled : Bool}
    {standing : Standing} {turn : Session.SessionTurn ε μ}
    (hstage : server.stage? agent = some standing)
    (hturn : Session.step h cancelled standing server.state = some turn)
    (hallowed : allowed server.state standing.stage = true)
    (hstate : server'.state = turn.state)
    (hstages : ∀ a, server'.stage? a
      = if a = agent then turn.progress.stage? else server.stage? a) :
    ∃ e s', s.inTurn allowed e = true ∧ s.step? h e = some s' ∧ s'.Shows who server'
      ∧ s'.heard = s.heard ++ (server.state.heard? standing).toList := by
  -- The agent has a message in the scene, and this message takes the step.
  obtain ⟨x, hx, rfl⟩ := hs.agents agent standing hstage
  obtain rfl : x.standing = standing := Option.some.inj ((hs.stages x hx).symm.trans hstage)
  have hfind := hnumbered.find?_eq hx
  rw [← hs.session] at hturn hallowed
  refine ⟨.step x.number cancelled, s.after x turn, ?_, ?_, ⟨hstate.symm, ?_, ?_, ?_, ?_⟩,
    by rw [heard_after, hs.session]⟩
  · simpa [inTurn, hfind] using hallowed
  · simp [Scene.step?, hfind, hturn]
  · intro y hy
    rw [hstages]
    obtain ⟨hy, hother⟩ | ⟨standing, hprogress, rfl⟩ := hnumbered.mem_after hx hy
    · -- The others have other agents, which stand where they stood.
      rw [if_neg fun hsame => hother (hs.single y hy x hx hsame)]
      exact hs.stages y hy
    · rw [if_pos rfl, hprogress]
      rfl
  · intro a standing ha
    rw [hstages] at ha
    split at ha
    · case isTrue hagent =>
      cases hprogress : turn.progress with
      | more next => exact ⟨_, mem_after_of_more hx hprogress, hagent.symm⟩
      | done outcome =>
        rw [hprogress] at ha
        cases ha
    · case isFalse hagent =>
      obtain ⟨y, hy, rfl⟩ := hs.agents a standing ha
      exact ⟨y, mem_after_of_ne hy fun hnumber => hagent (congrArg who hnumber), rfl⟩
  · intro y hy z hz hsame
    obtain ⟨y', hy', hnumber, -⟩ := hnumbered.exists_of_after hx hy
    obtain ⟨z', hz', hnumber', -⟩ := hnumbered.exists_of_after hx hz
    rw [← hnumber, ← hnumber'] at hsame ⊢
    exact hs.single y' hy' z' hz' hsame
  · intro y hy
    obtain ⟨z, hz, hnumber, hmessage⟩ := hnumbered.exists_of_after hx hy
    rw [← hnumber, ← hmessage]
    exact hs.loop z hz

/-- An agent that begins with a message is the arrival of that message. -/
theorem Shows.arrives (hs : s.Shows who server) (hnumbered : s.Numbered) (message : Incoming)
    (hfree : server.stage? agent = none)
    (hagent : agent = .loop ↔ message.isNotification = true)
    (hstate : server'.state = server.state)
    (hstages : ∀ a, server'.stage? a
      = if a = agent then some message.stage.standing else server.stage? a) :
    ∃ e s' who', s.inTurn allowed e = true ∧ s.step? h e = some s' ∧ s'.Shows who' server'
      ∧ s'.heard = s.heard := by
  -- Nobody has been at work for this message, so that it may have the agent.
  have hwho : ∀ x ∈ s.handlings,
      Function.update who s.arrived.length agent x.number = who x.number := fun x hx =>
    Function.update_of_ne (Nat.ne_of_lt (hnumbered.lt_length hx)) _ _
  have hbusy : ∀ x ∈ s.handlings, who x.number ≠ agent := by
    rintro x hx rfl
    cases hfree.symm.trans (hs.stages x hx)
  have hnew : Function.update who s.arrived.length agent s.arrived.length = agent :=
    Function.update_self _ _ _
  refine ⟨.arrive message, _, Function.update who s.arrived.length agent, ?_, rfl,
    ⟨hs.session.trans hstate.symm, ?_, ?_, ?_, ?_⟩, rfl⟩
  · rw [inTurn, Bool.or_eq_true, Bool.not_eq_true']
    cases hnote : message.isNotification with
    | false => exact .inl rfl
    | true =>
      refine .inr (List.all_eq_true.mpr fun x hx => ?_)
      rw [Bool.not_eq_true', Bool.eq_false_iff]
      intro hnote'
      exact hbusy x hx (((hs.loop x hx).mpr hnote').trans (hagent.mpr hnote).symm)
  · intro x hx
    rw [hstages]
    rcases List.mem_append.mp hx with hx | hx
    · rw [hwho x hx, if_neg (hbusy x hx)]
      exact hs.stages x hx
    · obtain rfl := List.mem_singleton.mp hx
      rw [hnew, if_pos rfl]
  · intro a standing ha
    rw [hstages] at ha
    split at ha
    · case isTrue heq => exact ⟨_, List.mem_append_right _ List.mem_cons_self, hnew.trans heq.symm⟩
    · obtain ⟨x, hx, rfl⟩ := hs.agents a standing ha
      exact ⟨x, List.mem_append_left _ hx, hwho x hx⟩
  · intro x hx y hy hsame
    rcases List.mem_append.mp hx with hx | hx <;> rcases List.mem_append.mp hy with hy | hy
    · rw [hwho x hx, hwho y hy] at hsame
      exact hs.single x hx y hy hsame
    · obtain rfl := List.mem_singleton.mp hy
      exact absurd ((hwho x hx).symm.trans (hsame.trans hnew)) (hbusy x hx)
    · obtain rfl := List.mem_singleton.mp hx
      exact absurd ((hwho y hy).symm.trans (hsame.symm.trans hnew)) (hbusy y hy)
    · rw [List.mem_singleton.mp hx, List.mem_singleton.mp hy]
  · intro x hx
    rcases List.mem_append.mp hx with hx | hx
    · rw [hwho x hx]
      exact hs.loop x hx
    · obtain rfl := List.mem_singleton.mp hx
      rw [hnew]
      exact hagent

end Scene

namespace Session

variable {h : Host ε μ} {allowed : Session ε μ → Stage → Bool} {heard : List IncomingNotification}
  {server server' : Server (Session ε μ) Standing}

/-- A run of a scene, in which notifications come one after the other, shows the server, and these
notifications have been let in. -/
def Shown (h : Host ε μ) (allowed : Session ε μ → Stage → Bool)
    (heard : List IncomingNotification) (server : Server (Session ε μ) Standing) : Prop :=
  ∃ engine manifest disk events s who,
    (Scene.start engine manifest disk).run? h (Scene.inTurn allowed) events = some s
      ∧ s.Shows who server ∧ s.heard = heard

theorem Shown.of_same (hshown : Shown h allowed heard server)
    (hstate : server'.state = server.state)
    (hstages : ∀ a, server'.stage? a = server.stage? a) : Shown h allowed heard server' := by
  obtain ⟨engine, manifest, disk, events, s, who, hrun, hs, hheard⟩ := hshown
  exact ⟨engine, manifest, disk, events, s, who, hrun, hs.of_same hstate hstages, hheard⟩

/-- What changes outside is an event of the scene. -/
theorem Shown.outside (hshown : Shown h allowed heard server) (disk : FileSystem) (manifest : μ) :
    Shown h allowed heard { server with state := { server.state with disk, manifest } } := by
  obtain ⟨engine, manifest', disk', events, s, who, hrun, hs, hheard⟩ := hshown
  refine ⟨engine, manifest', disk', events ++ [.outside disk manifest],
    { s with session := { s.session with disk, manifest } }, who,
    Scene.run?_concat.mpr ⟨s, hrun, rfl, rfl⟩, ?_, hheard⟩
  exact ⟨by simp only [hs.session], hs.stages, hs.agents, hs.single, hs.loop⟩

/-- Whatever an agent does is an event of the scene, or none. -/
theorem Shown.of_change (hshown : Shown h allowed heard server)
    {agent : Agent} (hallowed : ∀ standing, server.stage? agent = some standing →
      allowed server.state standing.stage = true)
    (hchange : Server.Change (handler h) agent server server') :
    Shown h allowed (heard ++ (heardBy? server agent).toList) server' := by
  have hsame := hshown
  obtain ⟨engine, manifest, disk, events, s, who, hrun, hs, hheard⟩ := hshown
  have hnumbered := ((Scene.Sound.start engine manifest disk).run? hrun).numbered
  have hmore : ∀ {e s' who' heard'}, s.inTurn allowed e = true → s.step? h e = some s' →
      s'.Shows who' server' → s'.heard = heard' → Shown h allowed heard' server' := by
    intro e s' who' heard' hinTurn hstep hs' hheard'
    exact ⟨engine, manifest, disk, events ++ [e], s', who',
      Scene.run?_concat.mpr ⟨s, hrun, hinTurn, hstep⟩, hs', hheard'⟩
  -- An agent that handles no message lets nobody in.
  have hnobody : server.stage? agent = none →
      heard ++ (heardBy? server agent).toList = heard := by
    intro hidle
    rw [heardBy?, hidle, Option.bind_none, Option.toList_none, List.append_nil]
  cases hchange with
  | nothing hidle hstate hstages =>
    rw [hnobody hidle]
    exact hsame.of_same hstate hstages
  | goesOn hstage hturn hstate hstages =>
    obtain ⟨e, s', hinTurn, hstep, hs', hheard'⟩ :=
      hs.goesOn hnumbered hstage hturn (hallowed _ hstage) hstate hstages
    rw [heardBy?, hstage, Option.bind_some]
    exact hmore hinTurn hstep hs' (by rw [hheard', hheard])
  | request ticket r hidle hfree hstate hstages =>
    obtain ⟨e, s', who', hinTurn, hstep, hs', hheard'⟩ :=
      hs.arrives hnumbered (.request r) hfree (by simp [Incoming.isNotification]) hstate hstages
    rw [hnobody hidle]
    exact hmore hinTurn hstep hs' (hheard'.trans hheard)
  | notification n hidle hfree hstate hstages =>
    obtain ⟨e, s', who', hinTurn, hstep, hs', hheard'⟩ :=
      hs.arrives hnumbered (.notification n) hfree (by simp [Incoming.isNotification]) hstate
        hstages
    rw [hnobody hidle]
    exact hmore hinTurn hstep hs' (hheard'.trans hheard)

/-- **Every state of a server is shown by a scene.** -/
theorem Served.shown (hserved : Served h allowed heard server) : Shown h allowed heard server := by
  induction hserved with
  | @start engine manifest disk server hserve =>
    obtain ⟨connection, -, rfl⟩ := Option.map_eq_some_iff.mp hserve
    refine ⟨engine, manifest, disk, [], _, fun _ => .loop, rfl, ⟨rfl, nofun, ?_, nofun, nofun⟩, rfl⟩
    rintro (_ | _ | _) standing hstage <;> cases hstage
  | feed bytes _ ih => exact ih.of_same rfl (Server.stage?_congr rfl rfl)
  | endInput _ ih => exact ih.of_same rfl (Server.stage?_congr rfl rfl)
  | losePeer _ ih => exact ih.of_same rfl (Server.stage?_congr rfl rfl)
  | flush _ ih => exact ih.of_same rfl (Server.stage?_congr rfl rfl)
  | outside disk manifest _ ih => exact ih.outside disk manifest
  | step hbefore hallowed hstep ih =>
    exact ih.of_change hallowed
      (Server.change_step (Served.step hbefore hallowed hstep).nodup_tickets hstep)

/-- While the loop is free, no notification is being handled. -/
theorem quiet_of_free {s : Scene ε μ} {who : Nat → Agent} (hs : s.Shows who server)
    (hfree : server.stage? .loop = none) :
    ∀ x ∈ s.handlings, x.message.isNotification = false := by
  refine fun x hx => Bool.eq_false_iff.mpr fun hnote => ?_
  -- A notification would keep the loop busy.
  have hstage := hs.stages x hx
  rw [(hs.loop x hx).mpr hnote, hfree] at hstage
  cases hstage

/-- **The engine's settings are current in every state of a server** in which the loop is free. -/
theorem Served.told {server : Server (Session (ε × List News) μ) Standing}
    (hserved : Served h.noting fares heard server) (hopen : server.state.lifecycle = .initialized)
    (hfree : server.stage? .loop = none) :
    ∃ d, server.state.buildSystem = some (.database d)
      ∧ ∀ uri, (server.state.documents.get? uri).isSome = true →
        News.told? server.state.diary uri = some (d.settings server.state.disk uri).1 := by
  obtain ⟨engine, manifest, disk, events, s, who, hrun, hs, -⟩ := hserved.shown
  have htended := (Scene.Tended.start engine manifest disk).run? hrun
  rw [← hs.session] at hopen ⊢
  exact htended.known hopen (quiet_of_free hs hfree)

end Session

end FlagServer
