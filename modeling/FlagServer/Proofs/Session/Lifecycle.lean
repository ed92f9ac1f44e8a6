import FlagServer.Proofs.Session.Moves
import Mathlib.Data.List.Nodup

/-!
# The life of a session

A session is opened once, by one of the requests that want to open it, and it ends when the client
takes leave. Messages are handled side by side, and each looks at the session first and changes it
later. So what holds of one of them depends on where all the others stand, and the invariants below
are about all messages that are being handled, at whatever stage:

* `Scene.Numbered`: every message has its own number;
* `Scene.Accounted`: nobody works on a message, or takes leave by it, that was not let in when it
  came, and every message is looked at once;
* `Scene.Living`: where the messages stand fits how far the session has come.
-/

namespace FlagServer

variable {ε μ : Type}

/-! ## Steps of a scene -/

namespace Scene

variable {h : Host ε μ} {s s' : Scene ε μ} {e : Event μ} {x y : Handling}
  {turn : Session.SessionTurn ε μ}

/-- A step is put down at the end of the diary. -/
theorem deeds_after : (s.after x turn).deeds = s.deeds ++ [⟨x, s.session, turn⟩] :=
  rfl

/-- A step with a number is a step of the message that has this number. -/
theorem step?_step {number : Nat} {cancelled : Bool}
    (hstep : s.step? h (.step number cancelled) = some s') :
    ∃ x turn, x ∈ s.handlings ∧ s.find? number = some x
      ∧ Session.step h cancelled x.standing s.session = some turn ∧ s' = s.after x turn := by
  obtain ⟨x, hfind, hstep⟩ := Option.bind_eq_some_iff.mp hstep
  obtain ⟨turn, hturn, rfl⟩ := Option.map_eq_some_iff.mp hstep
  exact ⟨x, turn, List.mem_of_find?_eq_some hfind, hfind, hturn, rfl⟩

/-- Every message has its own number, which is its place among those that came. -/
structure Numbered (s : Scene ε μ) : Prop where
  nodup : (s.handlings.map Handling.number).Nodup
  handlings : ∀ x ∈ s.handlings, s.arrived[x.number]? = some x.message
  deeds : ∀ d ∈ s.deeds, s.arrived[d.handling.number]? = some d.handling.message

/-- Messages with the same number are one. -/
theorem Numbered.eq_of_number (hs : s.Numbered) (hx : x ∈ s.handlings) (hy : y ∈ s.handlings)
    (hnumber : x.number = y.number) : x = y :=
  List.inj_on_of_nodup_map hs.nodup hx hy hnumber

theorem Numbered.lt_length (hs : s.Numbered) (hx : x ∈ s.handlings) :
    x.number < s.arrived.length :=
  (List.getElem?_eq_some_iff.mp (hs.handlings x hx)).1

/-- The messages that are being handled after a step of one of them: the others, and this one if it
goes on. -/
theorem Numbered.mem_after (hs : s.Numbered) (hx : x ∈ s.handlings)
    (hy : y ∈ (s.after x turn).handlings) :
    y ∈ s.handlings ∧ y.number ≠ x.number
      ∨ ∃ standing, turn.progress = .more standing ∧ y = { x with standing } := by
  cases hprogress : turn.progress with
  | more standing =>
    simp only [after, advance, hprogress, List.mem_map] at hy
    obtain ⟨z, hz, rfl⟩ := hy
    by_cases hnumber : z.number = x.number
    · obtain rfl := hs.eq_of_number hz hx hnumber
      exact .inr ⟨standing, rfl, by simp⟩
    · refine .inl ?_
      rw [if_neg (by simpa using hnumber)]
      exact ⟨hz, hnumber⟩
  | done outcome =>
    simp only [after, advance, hprogress, List.mem_filter] at hy
    exact .inl ⟨hy.1, by simpa using hy.2⟩

/-- Who is being handled after a step was being handled before. -/
theorem Numbered.exists_of_after (hs : s.Numbered) (hx : x ∈ s.handlings)
    (hy : y ∈ (s.after x turn).handlings) :
    ∃ z ∈ s.handlings, z.number = y.number ∧ z.message = y.message := by
  obtain ⟨hy, -⟩ | ⟨standing, -, rfl⟩ := hs.mem_after hx hy
  · exact ⟨y, hy, rfl, rfl⟩
  · exact ⟨x, hx, rfl, rfl⟩

/-- The others are handled still after a step. -/
theorem mem_after_of_ne (hy : y ∈ s.handlings) (hother : y.number ≠ x.number) :
    y ∈ (s.after x turn).handlings := by
  cases hprogress : turn.progress with
  | more standing =>
    simp only [after, advance, hprogress, List.mem_map]
    exact ⟨y, hy, if_neg (by simpa using hother)⟩
  | done outcome =>
    simp only [after, advance, hprogress, List.mem_filter]
    exact ⟨hy, by simpa using hother⟩

/-- The message is handled still after its step, where it goes on. -/
theorem mem_after_of_more (hx : x ∈ s.handlings) {standing : Standing}
    (hprogress : turn.progress = .more standing) :
    { x with standing } ∈ (s.after x turn).handlings := by
  simp only [after, advance, hprogress, List.mem_map]
  exact ⟨x, hx, if_pos (beq_self_eq_true _)⟩

/-- After a step the same numbers are there, or one less. -/
theorem map_number_advance (handlings : List Handling) (number : Nat)
    (progress : Progress Standing) :
    ((advance handlings number progress).map Handling.number).Sublist
      (handlings.map Handling.number) := by
  cases progress with
  | more standing =>
    have heq : (advance handlings number (.more standing)).map Handling.number
        = handlings.map Handling.number := by
      rw [advance, List.map_map]
      refine List.map_congr_left fun x _ => ?_
      simp only [Function.comp_apply]
      split <;> rfl
    rw [heq]
  | done outcome => exact List.filter_sublist.map _

theorem Numbered.start (engine : ε) (manifest : μ) (disk : FileSystem) :
    (start engine manifest disk).Numbered := by
  constructor <;> simp [Scene.start]

/-- An event leaves every message its own number. -/
theorem Numbered.step? (hs : s.Numbered) (hstep : s.step? h e = some s') : s'.Numbered := by
  cases e with
  | arrive message =>
    cases hstep
    -- Who came before keeps its place among those who came.
    have hold : ∀ {n : Nat} {m}, s.arrived[n]? = some m →
        (s.arrived ++ [message])[n]? = some m := by
      intro n m hn
      rw [List.getElem?_append_left (List.getElem?_eq_some_iff.mp hn).1, hn]
    refine ⟨?_, ?_, fun d hd => hold (hs.deeds d hd)⟩
    · rw [List.map_append, List.nodup_append]
      refine ⟨hs.nodup, List.nodup_singleton _, ?_⟩
      intro n hn m hm
      obtain ⟨x, hx, rfl⟩ := List.mem_map.mp hn
      obtain rfl := List.mem_singleton.mp hm
      exact Nat.ne_of_lt (hs.lt_length hx)
    · intro x hx
      rcases List.mem_append.mp hx with hx | hx
      · exact hold (hs.handlings x hx)
      · obtain rfl := List.mem_singleton.mp hx
        exact List.getElem?_concat_length
  | step number cancelled =>
    obtain ⟨x, turn, hx, -, -, rfl⟩ := step?_step hstep
    refine ⟨hs.nodup.sublist (map_number_advance _ _ _), ?_, ?_⟩
    · intro y hy
      obtain ⟨z, hz, hnumber, hmessage⟩ := hs.exists_of_after hx hy
      rw [← hnumber, ← hmessage]
      exact hs.handlings z hz
    · intro d hd
      rcases List.mem_append.mp hd with hd | hd
      · exact hs.deeds d hd
      · obtain rfl := List.mem_singleton.mp hd
        exact hs.handlings x hx
  | outside disk manifest =>
    cases hstep
    exact ⟨hs.nodup, hs.handlings, hs.deeds⟩

end Scene

/-! ## What has been done -/

namespace Deed

/-- The stage that the message stood at. -/
def stage (d : Deed ε μ) : Stage :=
  d.handling.standing.stage

/-- The message went through its stage: it did not only come nearer to what the stage uses. -/
def passes (d : Deed ε μ) : Bool :=
  match d.turn.progress with
  | .more standing => (standing.approach matches .before)
  | .done _ => true

/-- The session was found open, or not, for a message that needs it so. -/
def checks (d : Deed ε μ) : Bool :=
  d.stage.part == .arrival && d.passes && d.handling.message.isChecked

/-- The one opening of the session was claimed. -/
def claims (d : Deed ε μ) : Bool :=
  d.stage.part == .arrival && d.passes && d.handling.message.isInitialize
    && (d.turn.progress matches .more _)

/-- A request to open the session succeeded. -/
def opens (d : Deed ε μ) : Bool :=
  d.handling.message.isInitialize && (d.turn.progress matches .done (.ok _))

/-- A build system was put in the place for it. -/
def publishes (d : Deed ε μ) : Bool :=
  d.passes && (d.stage matches .publishing _)

/-- The end was recorded for the exit code. -/
def records (d : Deed ε μ) : Bool :=
  d.passes && (d.stage matches .recording)

/-- The end is recorded at one stage, when the message goes through it. -/
theorem records_iff {d : Deed ε μ} :
    d.records = true ↔ d.passes = true ∧ d.stage = .recording := by
  unfold records
  cases d.stage <;> simp

theorem not_records {d : Deed ε μ} (hstage : d.stage ≠ .recording) : d.records = false :=
  Bool.eq_false_iff.mpr fun hrecords => hstage (records_iff.mp hrecords).2

/-- Nothing of the session changed but who stands in line for what. -/
def LeavesAlone (d : Deed ε μ) : Prop :=
  Session.SameButLines d.seen d.turn.state

end Deed

namespace Scene

variable {h : Host ε μ} {s s' : Scene ε μ} {e : Event μ} {x y : Handling}
  {turn : Session.SessionTurn ε μ} {deeds : List (Deed ε μ)} {d d' : Deed ε μ}

/-- The message with this number was let into an open session. -/
def Admitted (deeds : List (Deed ε μ)) (number : Nat) : Prop :=
  ∃ d ∈ deeds, d.handling.number = number ∧ d.checks = true ∧ d.seen.lifecycle = .initialized

theorem Admitted.append {number : Nat} (hadmitted : Admitted deeds number) (d : Deed ε μ) :
    Admitted (deeds ++ [d]) number := by
  obtain ⟨c, hc, hrest⟩ := hadmitted
  exact ⟨c, List.mem_append_left _ hc, hrest⟩

/-- What allows a message to stand where it stands. -/
def Entitled (deeds : List (Deed ε μ)) (x : Handling) : Prop :=
  match x.standing.stage.part with
  | .arrival => x.standing.stage = x.message.stage
  | .opening => x.message.isInitialize = true
  | .leaving => x.message.isShutdown = true ∧ Admitted deeds x.number
  | .working => Admitted deeds x.number

/-- Who may stand where it stands still may when more has been done. -/
theorem Entitled.append (hx : Entitled deeds x) (d : Deed ε μ) : Entitled (deeds ++ [d]) x := by
  unfold Entitled at hx ⊢
  split <;> rename_i hpart <;> rw [hpart] at hx
  · exact hx
  · exact hx
  · exact ⟨hx.1, hx.2.append d⟩
  · exact hx.append d

/-- A message that goes on is allowed to stand where it stands then. -/
theorem Entitled.move (hx : Entitled deeds x)
    (hmove : Session.Move x.message x.standing.stage s.session turn) {standing : Standing}
    (hprogress : turn.progress = .more standing) :
    Entitled (deeds ++ [⟨x, s.session, turn⟩]) { x with standing } := by
  -- What was allowed before is allowed still; only who is let in becomes entitled to more.
  have hx' := hx.append ⟨x, s.session, turn⟩
  unfold Entitled at hx' ⊢
  cases hmove with
  | nearer approach hp =>
    cases hprogress.symm.trans hp
    exact hx'
  | claimed next _ hinit _ hp hnext =>
    cases hprogress.symm.trans hp
    simp only [Stage.standing, hnext]
    exact hinit
  | late _ _ _ hp | exit _ _ _ hp => cases hprogress.symm.trans hp
  | refused _ _ _ _ hp => cases hprogress.symm.trans hp
  | admitted hpart hchecked hopen henters =>
    obtain ⟨hbefore, hnext⟩ := henters standing hprogress
    -- The move that is made now is the one by which the message is let in.
    have hadmitted : Admitted (deeds ++ [⟨x, s.session, turn⟩]) x.number := by
      refine ⟨_, List.mem_append_right _ (List.mem_singleton_self _), rfl, ?_, hopen⟩
      simp [Deed.checks, Deed.stage, Deed.passes, hpart, hchecked, hprogress, hbefore]
    rcases hnext with hnext | ⟨hshutdown, hnext, -⟩
    · simp only [hnext]
      exact hadmitted
    · simp only [hnext]
      exact ⟨hshutdown, hadmitted⟩
  | prepared next hpart _ hp hnext =>
    cases hprogress.symm.trans hp
    simp only [hpart] at hx'
    simp only [Stage.standing, hnext]
    exact hx'
  | published system next hstage hp hnext =>
    cases hprogress.symm.trans hp
    simp only [hstage, Stage.part] at hx'
    simp only [Stage.standing, hnext]
    exact hx'
  | concluded _ hp => cases hprogress.symm.trans hp
  | ended next hstage hp hnext | recorded next hstage hp hnext =>
    cases hprogress.symm.trans hp
    simp only [hstage, Stage.part] at hx'
    simp only [Stage.standing, hnext]
    exact hx'
  | left hpart _ hgoes =>
    simp only [hpart] at hx'
    simp only [hgoes standing hprogress]
    exact hx'
  | worked hpart hworks =>
    simp only [hpart] at hx'
    simp only [hworks.2 standing hprogress]
    exact hx'

/-- Who stands at the beginning after a step stood there before, and only came nearer. -/
theorem nearer_of_arrival (hmove : Session.Move x.message x.standing.stage s.session turn)
    {standing : Standing} (hprogress : turn.progress = .more standing)
    (hpart : standing.stage.part = .arrival) :
    x.standing.stage.part = .arrival ∧ Deed.passes ⟨x, s.session, turn⟩ = false := by
  -- Every other move leads to a stage of another part, or to the end.
  cases hmove with
  | nearer approach hp happroach =>
    cases hprogress.symm.trans hp
    refine ⟨hpart, ?_⟩
    cases approach <;> simp_all [Deed.passes]
  | claimed _ _ _ _ hp hnext | prepared _ _ _ hp hnext | published _ _ _ hp hnext
  | ended _ _ hp hnext | recorded _ _ hp hnext =>
    cases hprogress.symm.trans hp
    cases hpart.symm.trans hnext
  | late _ _ _ hp | exit _ _ _ hp | refused _ _ _ _ hp | concluded _ hp =>
    cases hprogress.symm.trans hp
  | admitted _ _ _ henters =>
    obtain ⟨-, hnext | ⟨-, hnext, -⟩⟩ := henters standing hprogress <;>
      cases hpart.symm.trans hnext
  | left _ _ hgoes => cases hpart.symm.trans (hgoes standing hprogress)
  | worked _ hworks => cases hpart.symm.trans (hworks.2 standing hprogress)

/-- **Nobody goes on unchecked,** and nobody is checked twice. -/
structure Accounted (s : Scene ε μ) : Prop where
  handlings : ∀ x ∈ s.handlings, Entitled s.deeds x
  deeds : ∀ d ∈ s.deeds, Entitled s.deeds d.handling
  moves : ∀ d ∈ s.deeds, Session.Move d.handling.message d.stage d.seen d.turn
  unchecked : ∀ x ∈ s.handlings, x.standing.stage.part = .arrival → ∀ d ∈ s.deeds,
    d.handling.number = x.number → d.checks = false
  checkedOnce : ∀ d ∈ s.deeds, ∀ d' ∈ s.deeds, d.checks = true → d'.checks = true →
    d.handling.number = d'.handling.number → d = d'

/-- A message that is allowed to stand where it stands makes a move. -/
theorem Entitled.step_moves {cancelled : Bool} (hx : Entitled deeds x)
    (hstep : Session.step h cancelled x.standing s.session = some turn) :
    Session.Move x.message x.standing.stage s.session turn := by
  refine Session.step_moves ?_ hstep
  intro hpart
  simp only [Entitled, hpart] at hx
  exact hx

theorem Accounted.start (engine : ε) (manifest : μ) (disk : FileSystem) :
    (start engine manifest disk).Accounted := by
  constructor <;> simp [Scene.start]

/-- **An event lets nobody go on unchecked,** and nobody be checked twice. -/
theorem Accounted.step? (hs : s.Accounted) (hnumbered : s.Numbered)
    (hstep : s.step? h e = some s') : s'.Accounted := by
  cases e with
  | arrive message =>
    cases hstep
    refine ⟨?_, hs.deeds, hs.moves, ?_, hs.checkedOnce⟩
    · intro x hx
      rcases List.mem_append.mp hx with hx | hx
      · exact hs.handlings x hx
      · obtain rfl := List.mem_singleton.mp hx
        cases message <;> rfl
    · intro x hx hpart d hd hnumber
      rcases List.mem_append.mp hx with hx | hx
      · exact hs.unchecked x hx hpart d hd hnumber
      · obtain rfl := List.mem_singleton.mp hx
        -- No deed has the number of a message that comes only now.
        have hlt := (List.getElem?_eq_some_iff.mp (hnumbered.deeds d hd)).1
        exact absurd hnumber (Nat.ne_of_lt hlt)
  | step number cancelled =>
    obtain ⟨x, turn, hx, -, hturn, rfl⟩ := step?_step hstep
    -- Who is entitled to stand where it stands makes a move, and the move is what is put down.
    have hmove := (hs.handlings x hx).step_moves hturn
    refine ⟨?_, ?_, ?_, ?_, ?_⟩
    · intro y hy
      obtain ⟨hy, -⟩ | ⟨standing, hprogress, rfl⟩ := hnumbered.mem_after hx hy
      · exact (hs.handlings y hy).append _
      · exact (hs.handlings x hx).move hmove hprogress
    · intro d hd
      rcases List.mem_append.mp hd with hd | hd
      · exact (hs.deeds d hd).append _
      · obtain rfl := List.mem_singleton.mp hd
        exact (hs.handlings x hx).append _
    · intro d hd
      rcases List.mem_append.mp hd with hd | hd
      · exact hs.moves d hd
      · obtain rfl := List.mem_singleton.mp hd
        exact hmove
    · intro y hy hpart d hd hnumber
      obtain ⟨hy, hother⟩ | ⟨standing, hprogress, rfl⟩ := hnumbered.mem_after hx hy
      all_goals rcases List.mem_append.mp hd with hd | hd
      · exact hs.unchecked y hy hpart d hd hnumber
      · obtain rfl := List.mem_singleton.mp hd
        exact absurd hnumber.symm hother
      · exact hs.unchecked x hx (nearer_of_arrival hmove hprogress hpart).1 d hd hnumber
      · obtain rfl := List.mem_singleton.mp hd
        simp [Deed.checks, (nearer_of_arrival hmove hprogress hpart).2]
    · -- A message that is checked now stood at the beginning, and had not been checked before.
      have hnew : ∀ d ∈ s.deeds, d.checks = true → Deed.checks ⟨x, s.session, turn⟩ = true →
          d.handling.number = x.number → False := by
        intro d hd hchecks hchecks' hnumber
        have hpart : x.standing.stage.part = .arrival := by
          simp only [Deed.checks, Bool.and_eq_true] at hchecks'
          exact eq_of_beq hchecks'.1.1
        simp [hs.unchecked x hx hpart d hd hnumber] at hchecks
      intro d hd d' hd' hchecks hchecks' hnumber
      rcases List.mem_append.mp hd with hd | hd <;> rcases List.mem_append.mp hd' with hd' | hd'
      · exact hs.checkedOnce d hd d' hd' hchecks hchecks' hnumber
      · obtain rfl := List.mem_singleton.mp hd'
        exact (hnew d hd hchecks hchecks' hnumber).elim
      · obtain rfl := List.mem_singleton.mp hd
        exact (hnew d' hd' hchecks' hchecks hnumber.symm).elim
      · rw [List.mem_singleton.mp hd, List.mem_singleton.mp hd']
  | outside disk manifest =>
    cases hstep
    exact ⟨hs.handlings, hs.deeds, hs.moves, hs.unchecked, hs.checkedOnce⟩

/-! ## How far the session has come -/

end Scene

namespace Lifecycle

/-- The place in the order in which a session lives. -/
def rank : Lifecycle → Nat
  | uninitialized => 0
  | initializing => 1
  | initialized => 2
  | shutDown => 3

/-- The session has been open, and may be still. -/
def hasOpened : Lifecycle → Bool
  | initialized => true
  | shutDown => true
  | _ => false

end Lifecycle

namespace Session

/-- A message may stand at a stage when the session has come so far. -/
structure Fits (s : Session ε μ) (stage : Stage) : Prop where
  opening : stage.part = .opening → s.lifecycle = .initializing
  concluding : stage.isConcluding = true → s.buildSystem.isSome = true
  working : stage.part = .working → s.lifecycle.hasOpened = true
  leaving : stage.part = .leaving → s.lifecycle.hasOpened = true
  ended : stage.hasEnded = true → s.lifecycle = .shutDown

/-- The build system is there if it was there before. -/
theorem Keeps.isSome {s s' : Session ε μ} (hkeeps : Keeps s s')
    (hsome : s.buildSystem.isSome = true) : s'.buildSystem.isSome = true := by
  obtain ⟨system, hsystem⟩ := Option.isSome_iff_exists.mp hsome
  have hrel := hkeeps.buildSystem
  rw [hsystem] at hrel
  cases hrel' : s'.buildSystem with
  | none =>
    rw [hrel'] at hrel
    cases hrel
  | some system' => rfl

/-- A stage that fits a session fits one that has come as far and has a build system if that has. -/
theorem Fits.mono {s s' : Session ε μ} {stage : Stage} (hfits : s.Fits stage)
    (hlifecycle : s'.lifecycle = s.lifecycle)
    (hsystem : s.buildSystem.isSome = true → s'.buildSystem.isSome = true) : s'.Fits stage where
  opening hpart := hlifecycle.trans (hfits.opening hpart)
  concluding hconcluding := hsystem (hfits.concluding hconcluding)
  working hpart := hlifecycle ▸ hfits.working hpart
  leaving hpart := hlifecycle ▸ hfits.leaving hpart
  ended hended := hlifecycle.trans (hfits.ended hended)

end Session

/-- What concludes the opening is part of it. -/
theorem Stage.part_of_isConcluding {stage : Stage} (hconcluding : stage.isConcluding = true) :
    stage.part = .opening := by
  fun_induction Stage.isConcluding stage with
  | case1 => rfl
  | case2 next ih => exact ih hconcluding
  | case3 => cases hconcluding

/-- The end is recorded on taking leave only. -/
theorem Stage.ne_recording {stage : Stage} {part : Part} (hpart : stage.part = part)
    (hne : part ≠ .leaving) : stage ≠ .recording := by
  rintro rfl
  exact hne hpart.symm

/-- The session has ended for one who takes leave only. -/
theorem Stage.part_of_hasEnded {stage : Stage} (hended : stage.hasEnded = true) :
    stage.part = .leaving := by
  fun_induction Stage.hasEnded stage with
  | case1 => rfl
  | case2 => rfl
  | case3 next ih => exact ih hended
  | case4 => cases hended

namespace Session

/-- At the beginning a message may stand whenever it likes. -/
theorem fits_of_arrival {s : Session ε μ} {stage : Stage} (hpart : stage.part = .arrival) :
    s.Fits stage where
  opening h := by cases hpart.symm.trans h
  concluding h := by cases hpart.symm.trans (Stage.part_of_isConcluding h)
  working h := by cases hpart.symm.trans h
  leaving h := by cases hpart.symm.trans h
  ended h := by cases hpart.symm.trans (Stage.part_of_hasEnded h)

/-- To work, a message needs a session that has been open. -/
theorem fits_of_working {s : Session ε μ} {stage : Stage} (hpart : stage.part = .working)
    (hopened : s.lifecycle.hasOpened = true) : s.Fits stage where
  opening h := by cases hpart.symm.trans h
  concluding h := by cases hpart.symm.trans (Stage.part_of_isConcluding h)
  working _ := hopened
  leaving _ := hopened
  ended h := by cases hpart.symm.trans (Stage.part_of_hasEnded h)

/-- To take leave, a message needs a session that has been open, and has ended once it says so. -/
theorem fits_of_leaving {s : Session ε μ} {stage : Stage} (hpart : stage.part = .leaving)
    (hopened : s.lifecycle.hasOpened = true)
    (hended : stage.hasEnded = true → s.lifecycle = .shutDown) : s.Fits stage where
  opening h := by cases hpart.symm.trans h
  concluding h := by cases hpart.symm.trans (Stage.part_of_isConcluding h)
  working _ := hopened
  leaving _ := hopened
  ended := hended

/-- To open the session, a message needs to have claimed it, and to have published before it
concludes. -/
theorem fits_of_opening {s : Session ε μ} {stage : Stage} (hpart : stage.part = .opening)
    (hlifecycle : s.lifecycle = .initializing)
    (hconcluding : stage.isConcluding = true → s.buildSystem.isSome = true) : s.Fits stage where
  opening _ := hlifecycle
  concluding := hconcluding
  working h := by cases hpart.symm.trans h
  leaving h := by cases hpart.symm.trans h
  ended h := by cases hpart.symm.trans (Stage.part_of_hasEnded h)

end Session

namespace Scene

variable {h : Host ε μ} {s s' : Scene ε μ} {e : Event μ} {x y : Handling}
  {turn : Session.SessionTurn ε μ} {deeds : List (Deed ε μ)} {d d' : Deed ε μ}

/-- **Where the messages stand fits how far the session has come,** and so does what has been
done. -/
structure Living (s : Scene ε μ) : Prop where
  fits : ∀ x ∈ s.handlings, s.session.Fits x.standing.stage
  opener : ∀ x ∈ s.handlings, ∀ y ∈ s.handlings, x.standing.stage.part = .opening →
    y.standing.stage.part = .opening → x.number = y.number
  system : s.session.lifecycle.hasOpened = true → s.session.buildSystem.isSome = true
  received : s.session.shutdownReceived = true → s.session.lifecycle = .shutDown
  recorded : s.session.shutdownReceived = s.deeds.any Deed.records
  claims : s.deeds.countP Deed.claims = if s.session.lifecycle = .uninitialized then 0 else 1
  opens : s.deeds.countP Deed.opens = if s.session.lifecycle.hasOpened then 1 else 0

theorem Living.start (engine : ε) (manifest : μ) (disk : FileSystem) :
    (start engine manifest disk).Living := by
  constructor <;> simp [Scene.start, Lifecycle.hasOpened]

/-- What is to be shown of a step: that it fits the session it leaves, and that what it does is
counted. -/
theorem Living.after (hs : s.Living) (hnumbered : s.Numbered) (hx : x ∈ s.handlings)
    (hothers : ∀ y ∈ s.handlings, y.number ≠ x.number → turn.state.Fits y.standing.stage)
    (hnext : ∀ standing, turn.progress = .more standing → turn.state.Fits standing.stage)
    (hopener : ∀ standing, turn.progress = .more standing → standing.stage.part = .opening →
      x.standing.stage.part = .opening ∨ ∀ y ∈ s.handlings, y.standing.stage.part ≠ .opening)
    (hsystem : turn.state.lifecycle.hasOpened = true → turn.state.buildSystem.isSome = true)
    (hreceived : turn.state.shutdownReceived = true → turn.state.lifecycle = .shutDown)
    (hrecorded : turn.state.shutdownReceived
      = (s.session.shutdownReceived || Deed.records ⟨x, s.session, turn⟩))
    (hclaims : (if s.session.lifecycle = .uninitialized then 0 else 1)
        + (if Deed.claims ⟨x, s.session, turn⟩ = true then 1 else 0)
      = if turn.state.lifecycle = .uninitialized then 0 else 1)
    (hopens : (if s.session.lifecycle.hasOpened = true then 1 else 0)
        + (if Deed.opens ⟨x, s.session, turn⟩ = true then 1 else 0)
      = if turn.state.lifecycle.hasOpened = true then 1 else 0) : (s.after x turn).Living where
  fits y hy := by
    obtain ⟨hy, hother⟩ | ⟨standing, hprogress, rfl⟩ := hnumbered.mem_after hx hy
    · exact hothers y hy hother
    · exact hnext standing hprogress
  opener y hy z hz hpart hpart' := by
    -- Of two who open the session, none, one or both may be the message that made the step.
    obtain ⟨hy, -⟩ | ⟨standing, hprogress, rfl⟩ := hnumbered.mem_after hx hy
    all_goals obtain ⟨hz, -⟩ | ⟨standing', hprogress', rfl⟩ := hnumbered.mem_after hx hz
    · exact hs.opener y hy z hz hpart hpart'
    · rcases hopener standing' hprogress' hpart' with hwas | hnone
      · exact hs.opener y hy x hx hpart hwas
      · exact absurd hpart (hnone y hy)
    · rcases hopener standing hprogress hpart with hwas | hnone
      · exact hs.opener x hx z hz hwas hpart'
      · exact absurd hpart' (hnone z hz)
    · rfl
  system := hsystem
  received := hreceived
  recorded := by
    rw [deeds_after, List.any_append, ← hs.recorded, List.any_cons, List.any_nil, Bool.or_false]
    exact hrecorded
  claims := by
    rw [deeds_after, List.countP_append, List.countP_singleton, hs.claims]
    exact hclaims
  opens := by
    rw [deeds_after, List.countP_append, List.countP_singleton, hs.opens]
    exact hopens

/-- A step that leaves the session as far as it is. -/
theorem Living.after_kept (hs : s.Living) (hnumbered : s.Numbered) (hx : x ∈ s.handlings)
    (hlifecycle : turn.state.lifecycle = s.session.lifecycle)
    (hsystem : s.session.buildSystem.isSome = true → turn.state.buildSystem.isSome = true)
    (hrecorded : turn.state.shutdownReceived
      = (s.session.shutdownReceived || Deed.records ⟨x, s.session, turn⟩))
    (hnext : ∀ standing, turn.progress = .more standing → turn.state.Fits standing.stage
      ∧ (standing.stage.part = .opening → x.standing.stage.part = .opening))
    (hclaims : Deed.claims ⟨x, s.session, turn⟩ = false)
    (hopens : Deed.opens ⟨x, s.session, turn⟩ = false) : (s.after x turn).Living := by
  refine hs.after hnumbered hx (fun y hy _ => (hs.fits y hy).mono hlifecycle hsystem)
    (fun standing hprogress => (hnext standing hprogress).1)
    (fun standing hprogress hpart => .inl ((hnext standing hprogress).2 hpart)) ?_ ?_ hrecorded
    (by simp [hlifecycle, hclaims]) (by simp [hlifecycle, hopens])
  · intro hopened
    exact hsystem (hs.system (hlifecycle ▸ hopened))
  · intro htrue
    rw [hrecorded, Bool.or_eq_true] at htrue
    rw [hlifecycle]
    -- Either it was on record already, or it is put down now, by one for whom the session has
    -- ended.
    rcases htrue with htrue | hrecords
    · exact hs.received htrue
    · have hstage : x.standing.stage = .recording := (Deed.records_iff.mp hrecords).2
      exact (hs.fits x hx).ended (by rw [hstage]; rfl)

/-- While the session is not open, a message that does not open it has just come. -/
theorem Living.arrival_of_opening (hs : s.Living) (hy : y ∈ s.handlings)
    (hbefore : s.session.lifecycle.hasOpened = false)
    (hpart : y.standing.stage.part ≠ .opening) : y.standing.stage.part = .arrival := by
  cases hpart' : y.standing.stage.part with
  | arrival => rfl
  | opening => exact absurd hpart' hpart
  | leaving => cases hbefore.symm.trans ((hs.fits y hy).leaving hpart')
  | working => cases hbefore.symm.trans ((hs.fits y hy).working hpart')

/-- The opening of the session is claimed. -/
theorem Living.after_claimed (hs : s.Living) (hnumbered : s.Numbered) (hx : x ∈ s.handlings)
    {next : Stage} (hpart : x.standing.stage.part = .arrival)
    (hinit : x.message.isInitialize = true) (hbefore : s.session.lifecycle = .uninitialized)
    (hprogress : turn.progress = .more next.standing) (hnext : next.part = .opening)
    (hconcluding : next.isConcluding = false)
    (hstate : Session.SameButLines { s.session with lifecycle := .initializing } turn.state) :
    (s.after x turn).Living := by
  have hlifecycle : turn.state.lifecycle = .initializing := by rw [hstate]
  have hreceived : turn.state.shutdownReceived = s.session.shutdownReceived := by rw [hstate]
  -- Who opens a session has claimed it, and then it is no longer as it was in the beginning.
  have hnobody : ∀ y ∈ s.handlings, y.standing.stage.part ≠ .opening := by
    intro y hy hopening
    cases hbefore.symm.trans ((hs.fits y hy).opening hopening)
  have hclaims : Deed.claims ⟨x, s.session, turn⟩ = true := by
    simp [Deed.claims, Deed.stage, Deed.passes, hpart, hinit, hprogress, Stage.standing]
  have hopens : Deed.opens ⟨x, s.session, turn⟩ = false := by
    simp [Deed.opens, hprogress]
  refine hs.after hnumbered hx ?_ ?_ (fun _ _ _ => .inr hnobody) ?_ ?_ ?_
    (by simp [hclaims, hlifecycle, hbefore])
    (by simp [hopens, hlifecycle, hbefore, Lifecycle.hasOpened])
  · intro y hy _
    exact Session.fits_of_arrival
      (hs.arrival_of_opening hy (by rw [hbefore]; rfl) (hnobody y hy))
  · intro standing hp
    cases hprogress.symm.trans hp
    exact Session.fits_of_opening hnext hlifecycle (by simp [Stage.standing, hconcluding])
  · simp [hlifecycle, Lifecycle.hasOpened]
  · intro htrue
    cases hbefore.symm.trans (hs.received (hreceived.symm.trans htrue))
  · have hstage : x.standing.stage ≠ .recording := Stage.ne_recording hpart (by decide)
    have hrecords : Deed.records ⟨x, s.session, turn⟩ = false := Deed.not_records hstage
    rw [hreceived, hrecords, Bool.or_false]

/-- The session is open. -/
theorem Living.after_concluded (hs : s.Living) (hnumbered : s.Numbered) (hx : x ∈ s.handlings)
    (hinit : x.message.isInitialize = true) (hstage : x.standing.stage = .concluding)
    (hprogress : turn.progress = .done (.ok Session.greeting))
    (hlifecycle : turn.state.lifecycle = .initialized)
    (hreceived : turn.state.shutdownReceived = s.session.shutdownReceived)
    (hsystem : turn.state.buildSystem = s.session.buildSystem) : (s.after x turn).Living := by
  -- Who concludes is opening the session, so it has been claimed and is not open yet.
  have hpart : x.standing.stage.part = .opening := by rw [hstage]; rfl
  have hbefore : s.session.lifecycle = .initializing := (hs.fits x hx).opening hpart
  have hclaims : Deed.claims ⟨x, s.session, turn⟩ = false := by
    simp [Deed.claims, hprogress]
  have hopens : Deed.opens ⟨x, s.session, turn⟩ = true := by
    simp [Deed.opens, hprogress, hinit]
  refine hs.after hnumbered hx ?_ (fun _ hp => ?_) (fun _ hp => ?_) ?_ ?_ ?_
    (by simp [hclaims, hlifecycle, hbefore])
    (by simp [hopens, hlifecycle, hbefore, Lifecycle.hasOpened])
  · -- The others have just come: the one who opened the session was the only one to do so.
    intro y hy hother
    refine Session.fits_of_arrival (hs.arrival_of_opening hy (by rw [hbefore]; rfl) ?_)
    exact fun hopening => hother (hs.opener y hy x hx hopening hpart)
  · cases hprogress.symm.trans hp
  · cases hprogress.symm.trans hp
  · intro _
    rw [hsystem]
    exact (hs.fits x hx).concluding (by rw [hstage]; rfl)
  · intro htrue
    cases hbefore.symm.trans (hs.received (hreceived.symm.trans htrue))
  · have hstage' : x.standing.stage ≠ .recording := Stage.ne_recording hpart (by decide)
    have hrecords : Deed.records ⟨x, s.session, turn⟩ = false := Deed.not_records hstage'
    rw [hreceived, hrecords, Bool.or_false]

/-- The session ends. -/
theorem Living.after_ended (hs : s.Living) (hnumbered : s.Numbered) (hx : x ∈ s.handlings)
    {next : Stage} (hstage : x.standing.stage = .ending)
    (hprogress : turn.progress = .more next.standing) (hnext : next.part = .leaving)
    (hstate : Session.SameButLines { s.session with lifecycle := .shutDown } turn.state) :
    (s.after x turn).Living := by
  have hbefore : s.session.lifecycle.hasOpened = true :=
    (hs.fits x hx).leaving (by rw [hstage]; rfl)
  have hlifecycle : turn.state.lifecycle = .shutDown := by rw [hstate]
  have hopened : turn.state.lifecycle.hasOpened = true := by rw [hlifecycle]; rfl
  have hnot : s.session.lifecycle ≠ .uninitialized := by
    intro huninit
    rw [huninit] at hbefore
    cases hbefore
  have hclaims : Deed.claims ⟨x, s.session, turn⟩ = false := by
    simp [Deed.claims, Deed.stage, hstage, Stage.part]
  have hopens : Deed.opens ⟨x, s.session, turn⟩ = false := by
    simp [Deed.opens, hprogress]
  refine hs.after hnumbered hx ?_ ?_ ?_ ?_ (fun _ => hlifecycle) ?_
    (by simp [hclaims, hlifecycle, hnot])
    (by simp [hopens, hopened, hbefore])
  · intro y hy _
    -- That the session ends disturbs nobody: who works or takes leave needs one that has been open.
    have hfits := hs.fits y hy
    cases hpart : y.standing.stage.part with
    | arrival => exact Session.fits_of_arrival hpart
    | opening =>
      rw [hfits.opening hpart] at hbefore
      cases hbefore
    | leaving => exact Session.fits_of_leaving hpart hopened fun _ => hlifecycle
    | working => exact Session.fits_of_working hpart hopened
  · intro standing hp
    cases hprogress.symm.trans hp
    exact Session.fits_of_leaving hnext hopened fun _ => hlifecycle
  · intro standing hp hopening
    cases hprogress.symm.trans hp
    cases hnext.symm.trans hopening
  · intro _
    rw [hstate]
    exact hs.system hbefore
  · have hrecords : Deed.records ⟨x, s.session, turn⟩ = false := by
      simp [Deed.records, Deed.stage, hstage]
    rw [hrecords, hstate, Bool.or_false]

/-- A message that was let in needed to be let in. -/
theorem Numbered.isChecked_of_admitted (hs : s.Numbered) (hx : x ∈ s.handlings)
    (hadmitted : Admitted s.deeds x.number) : x.message.isChecked = true := by
  obtain ⟨d, hd, hnumber, hchecks, -⟩ := hadmitted
  -- The message that was let in under this number is the one that has it now.
  have hmessage : d.handling.message = x.message := by
    have hsame := hs.deeds d hd
    rw [hnumber, hs.handlings x hx] at hsame
    exact (Option.some.inj hsame).symm
  simp only [Deed.checks, Bool.and_eq_true] at hchecks
  exact hmessage ▸ hchecks.2

/-- Who needs an open session does not open it. -/
theorem isInitialize_of_isChecked {message : Incoming} (hchecked : message.isChecked = true) :
    message.isInitialize = false := by
  simp only [Incoming.isChecked, Bool.and_eq_true, Bool.not_eq_true'] at hchecked
  exact hchecked.1

/-- A step that neither opens the session nor takes leave. -/
theorem Living.after_keeps (hs : s.Living) (hnumbered : s.Numbered) (hx : x ∈ s.handlings)
    (hkeeps : Session.Keeps s.session turn.state)
    (hrecords : Deed.records ⟨x, s.session, turn⟩ = false)
    (hnext : ∀ standing, turn.progress = .more standing → s.session.Fits standing.stage
      ∧ (standing.stage.part = .opening → x.standing.stage.part = .opening))
    (hclaims : Deed.claims ⟨x, s.session, turn⟩ = false)
    (hopens : Deed.opens ⟨x, s.session, turn⟩ = false) : (s.after x turn).Living := by
  refine hs.after_kept hnumbered hx hkeeps.lifecycle hkeeps.isSome ?_ ?_ hclaims hopens
  · rw [hkeeps.shutdownReceived, hrecords, Bool.or_false]
  · intro standing hprogress
    obtain ⟨hfits, hopening⟩ := hnext standing hprogress
    exact ⟨hfits.mono hkeeps.lifecycle hkeeps.isSome, hopening⟩

/-- A message that is turned away, or ends the program, when it comes. -/
theorem Living.after_dismissed (hs : s.Living) (hnumbered : s.Numbered) (hx : x ∈ s.handlings)
    {outcome : Except ResponseError Json} (hpart : x.standing.stage.part = .arrival)
    (hprogress : turn.progress = .done outcome)
    (hsame : Session.SameButLines s.session turn.state)
    (hopens : Deed.opens ⟨x, s.session, turn⟩ = false) : (s.after x turn).Living := by
  have hstage : x.standing.stage ≠ .recording := Stage.ne_recording hpart (by decide)
  refine hs.after_keeps hnumbered hx hsame.keeps (Deed.not_records hstage) (fun standing hp => ?_)
    (by simp [Deed.claims, hprogress]) hopens
  cases hprogress.symm.trans hp

/-- **One step of a message** keeps the session's life in order. -/
theorem Living.after_move (hs : s.Living) (hnumbered : s.Numbered) (haccounted : s.Accounted)
    (hx : x ∈ s.handlings) (hmove : Session.Move x.message x.standing.stage s.session turn) :
    (s.after x turn).Living := by
  have hfits := hs.fits x hx
  have hentitled := haccounted.handlings x hx
  have hrecords : x.standing.stage ≠ .recording → Deed.records ⟨x, s.session, turn⟩ = false :=
    fun hstage => Deed.not_records hstage
  -- Only five moves change how far the session has come or what is counted; three of them have a
  -- lemma of their own. For the others there remains to be seen what they lead to.
  cases hmove with
  | nearer approach hprogress happroach hkeeps =>
    have hpasses : Deed.passes ⟨x, s.session, turn⟩ = false := by
      cases approach <;> simp_all [Deed.passes]
    refine hs.after_keeps hnumbered hx hkeeps (by simp [Deed.records, hpasses]) ?_
      (by simp [Deed.claims, hpasses]) (by simp [Deed.opens, hprogress])
    intro standing hp
    cases hprogress.symm.trans hp
    exact ⟨hfits, id⟩
  | claimed next hpart hinit hbefore hprogress hnext hconcluding hstate =>
    exact hs.after_claimed hnumbered hx hpart hinit hbefore hprogress hnext hconcluding hstate
  | late error hpart hinit hprogress hsame =>
    exact hs.after_dismissed hnumbered hx hpart hprogress hsame (by simp [Deed.opens, hprogress])
  | exit outcome hpart hexit hprogress hsame =>
    have hinit : x.message.isInitialize = false := by
      cases hmessage : x.message <;> simp_all [Incoming.isExit, Incoming.isInitialize]
    exact hs.after_dismissed hnumbered hx hpart hprogress hsame (by simp [Deed.opens, hinit])
  | refused outcome hpart hchecked _ hprogress _ hsame =>
    exact hs.after_dismissed hnumbered hx hpart hprogress hsame
      (by simp [Deed.opens, isInitialize_of_isChecked hchecked])
  | admitted hpart hchecked hopen henters hkeeps =>
    have hinit := isInitialize_of_isChecked hchecked
    have hopened : s.session.lifecycle.hasOpened = true := by rw [hopen]; rfl
    refine hs.after_keeps hnumbered hx hkeeps
      (hrecords (Stage.ne_recording hpart (by decide))) (fun standing hp => ?_)
      (by simp [Deed.claims, hinit]) (by simp [Deed.opens, hinit])
    obtain ⟨-, hnext | ⟨-, hnext, hended⟩⟩ := henters standing hp
    · exact ⟨Session.fits_of_working hnext hopened, fun h => by cases hnext.symm.trans h⟩
    · refine ⟨Session.fits_of_leaving hnext hopened ?_, fun h => by cases hnext.symm.trans h⟩
      simp [hended]
  | prepared next hpart _ hprogress hnext hconcluding hlifecycle hreceived hsystem =>
    refine hs.after_keeps hnumbered hx (.of_eq hlifecycle hreceived hsystem)
      (hrecords (Stage.ne_recording hpart (by decide))) (fun standing hp => ?_)
      (by simp [Deed.claims, Deed.stage, hpart]) (by simp [Deed.opens, hprogress])
    cases hprogress.symm.trans hp
    refine ⟨Session.fits_of_opening hnext (hfits.opening hpart) ?_, fun _ => hpart⟩
    intro hnext'
    exact hfits.concluding (hconcluding.symm.trans hnext')
  | published system next hstage hprogress hnext _ hlifecycle hreceived hsystem =>
    have hpart : x.standing.stage.part = .opening := by rw [hstage]; rfl
    have hsome : turn.state.buildSystem.isSome = true := by rw [hsystem]; rfl
    refine hs.after_kept hnumbered hx hlifecycle (fun _ => hsome) ?_ (fun standing hp => ?_)
      (by simp [Deed.claims, Deed.stage, hpart]) (by simp [Deed.opens, hprogress])
    · rw [hreceived, hrecords (by simp [hstage]), Bool.or_false]
    · cases hprogress.symm.trans hp
      exact ⟨Session.fits_of_opening hnext (hlifecycle.trans (hfits.opening hpart)) fun _ => hsome,
        fun _ => hpart⟩
  | concluded hstage hprogress hlifecycle hreceived hsystem =>
    have hinit : x.message.isInitialize = true := by
      simpa only [Entitled, hstage, Stage.part] using hentitled
    exact hs.after_concluded hnumbered hx hinit hstage hprogress hlifecycle hreceived hsystem
  | ended next hstage hprogress hnext hstate =>
    exact hs.after_ended hnumbered hx hstage hprogress hnext hstate
  | recorded next hstage hprogress hnext hstate =>
    have hrecorded : Deed.records ⟨x, s.session, turn⟩ = true := by
      simp [Deed.records, Deed.passes, Deed.stage, hprogress, hstage, Stage.standing]
    -- The end is recorded for one for whom the session has ended.
    have hdown := hfits.ended (by rw [hstage]; rfl)
    have hlifecycle : turn.state.lifecycle = s.session.lifecycle := by rw [hstate]
    refine hs.after_kept hnumbered hx hlifecycle (fun hsome => by rw [hstate]; exact hsome) ?_
      (fun standing hp => ?_) (by simp [Deed.claims, Deed.stage, hstage, Stage.part])
      (by simp [Deed.opens, hprogress])
    · rw [hrecorded, hstate, Bool.or_true]
    · cases hprogress.symm.trans hp
      refine ⟨Session.fits_of_leaving hnext ?_ fun _ => hlifecycle.trans hdown, fun h => ?_⟩
      · rw [hlifecycle, hdown]
        rfl
      · cases hnext.symm.trans h
  | left hpart hstage hgoes hended hkeeps =>
    have hadmitted : Admitted s.deeds x.number := by
      simp only [Entitled, hpart] at hentitled
      exact hentitled.2
    have hinit := isInitialize_of_isChecked (hnumbered.isChecked_of_admitted hx hadmitted)
    refine hs.after_keeps hnumbered hx hkeeps (hrecords hstage) (fun standing hp => ?_)
      (by simp [Deed.claims, hinit]) (by simp [Deed.opens, hinit])
    have hnext := hgoes standing hp
    refine ⟨Session.fits_of_leaving hnext (hfits.leaving hpart) ?_, fun h => ?_⟩
    · exact fun hended' => hfits.ended (hended standing hp hended')
    · cases hnext.symm.trans h
  | worked hpart hworks =>
    have hadmitted : Admitted s.deeds x.number := by
      simpa only [Entitled, hpart] using hentitled
    have hinit := isInitialize_of_isChecked (hnumbered.isChecked_of_admitted hx hadmitted)
    refine hs.after_keeps hnumbered hx hworks.1
      (hrecords (Stage.ne_recording hpart (by decide))) (fun standing hp => ?_)
      (by simp [Deed.claims, hinit]) (by simp [Deed.opens, hinit])
    have hnext := hworks.2 standing hp
    exact ⟨Session.fits_of_working hnext (hfits.working hpart), fun h => by
      cases hnext.symm.trans h⟩

/-- **An event keeps the life of the session in order.** -/
theorem Living.step? (hs : s.Living) (hnumbered : s.Numbered) (haccounted : s.Accounted)
    (hstep : s.step? h e = some s') : s'.Living := by
  cases e with
  | arrive message =>
    cases hstep
    have hpart : message.stage.part = .arrival := by cases message <;> rfl
    refine ⟨?_, ?_, hs.system, hs.received, hs.recorded, hs.claims, hs.opens⟩
    · intro x hx
      rcases List.mem_append.mp hx with hx | hx
      · exact hs.fits x hx
      · obtain rfl := List.mem_singleton.mp hx
        exact Session.fits_of_arrival hpart
    · -- Who has just come does not open the session yet.
      have hold : ∀ x ∈ s.handlings ++ [⟨s.arrived.length, message, message.stage.standing⟩],
          x.standing.stage.part = .opening → x ∈ s.handlings := by
        intro x hx hopening
        rcases List.mem_append.mp hx with hx | hx
        · exact hx
        · obtain rfl := List.mem_singleton.mp hx
          cases hpart.symm.trans hopening
      intro x hx y hy hopening hopening'
      exact hs.opener x (hold x hx hopening) y (hold y hy hopening') hopening hopening'
  | step number cancelled =>
    obtain ⟨x, turn, hx, -, hturn, rfl⟩ := step?_step hstep
    exact hs.after_move hnumbered haccounted hx ((haccounted.handlings x hx).step_moves hturn)
  | outside disk manifest =>
    cases hstep
    refine ⟨fun x hx => (hs.fits x hx).mono rfl id, hs.opener, hs.system, hs.received, hs.recorded,
      hs.claims, hs.opens⟩

/-! ## Every run -/

/-- All of this together. -/
structure Sound (s : Scene ε μ) : Prop where
  numbered : s.Numbered
  accounted : s.Accounted
  living : s.Living

theorem Sound.start (engine : ε) (manifest : μ) (disk : FileSystem) :
    (start engine manifest disk).Sound :=
  ⟨.start engine manifest disk, .start engine manifest disk, .start engine manifest disk⟩

theorem Sound.step? (hs : s.Sound) (hstep : s.step? h e = some s') : s'.Sound :=
  ⟨hs.numbered.step? hstep, hs.accounted.step? hs.numbered hstep,
    hs.living.step? hs.numbered hs.accounted hstep⟩

/-- **After every run all is sound.** -/
theorem Sound.run? {allowed : Scene ε μ → Event μ → Bool} {events : List (Event μ)}
    (hs : s.Sound) (hrun : s.run? h allowed events = some s') : s'.Sound :=
  run_induction hrun hs fun _ _ _ ht _ hstep => ht.step? hstep

/-- A message that is being handled makes a move. -/
theorem Sound.move {cancelled : Bool} (hs : s.Sound) (hx : x ∈ s.handlings)
    (hstep : Session.step h cancelled x.standing s.session = some turn) :
    Session.Move x.message x.standing.stage s.session turn :=
  (hs.accounted.handlings x hx).step_moves hstep

/-- A message that stands at the beginning stands at its own. -/
theorem Sound.stage_of_arrival (hs : s.Sound) (hx : x ∈ s.handlings)
    (hpart : x.standing.stage.part = .arrival) : x.standing.stage = x.message.stage := by
  have hentitled := hs.accounted.handlings x hx
  simpa only [Entitled, hpart] using hentitled

/-- While the session is not open, a notification has just come. -/
theorem Sound.arrival_of_notification (hs : s.Sound) (hy : y ∈ s.handlings)
    (hnote : y.message.isNotification = true)
    (hopened : s.session.lifecycle.hasOpened = false) : y.standing.stage.part = .arrival := by
  refine hs.living.arrival_of_opening hy hopened fun hpart => ?_
  have hentitled := hs.accounted.handlings y hy
  simp only [Entitled, hpart] at hentitled
  cases hmessage : y.message with
  | request r => simp [hmessage, Incoming.isNotification] at hnote
  | notification n => simp [hmessage, Incoming.isInitialize] at hentitled

/-! ### One notification after the other -/

/-- At most one notification is being handled. -/
def OneNotified (s : Scene ε μ) : Prop :=
  ∀ x ∈ s.handlings, ∀ y ∈ s.handlings, x.message.isNotification = true →
    y.message.isNotification = true → x.number = y.number

/-- A step brings no notification that was not there. -/
theorem OneNotified.after (hs : s.OneNotified) (hnumbered : s.Numbered) (hx : x ∈ s.handlings) :
    (s.after x turn).OneNotified := by
  intro y hy z hz hnote hnote'
  obtain ⟨y', hy', hnumber, hmessage⟩ := hnumbered.exists_of_after hx hy
  obtain ⟨z', hz', hnumber', hmessage'⟩ := hnumbered.exists_of_after hx hz
  rw [← hmessage] at hnote
  rw [← hmessage'] at hnote'
  rw [← hnumber, ← hnumber']
  exact hs y' hy' z' hz' hnote hnote'

/-- A notification that comes in turn finds no other. -/
theorem alone_of_inTurn {allowed : Session ε μ → Stage → Bool} {message : Incoming}
    (hinTurn : s.inTurn allowed (.arrive message : Event μ) = true)
    (hnote : message.isNotification = true) :
    ∀ x ∈ s.handlings, x.message.isNotification = false := by
  simpa [inTurn, hnote] using hinTurn

/-- A notification that comes in turn is the only one. -/
theorem OneNotified.arrive (hs : s.OneNotified) {allowed : Session ε μ → Stage → Bool}
    {message : Incoming} (hinTurn : s.inTurn allowed (.arrive message : Event μ) = true)
    (hstep : s.step? h (.arrive message) = some s') : s'.OneNotified := by
  cases hstep
  intro x hx y hy hnote hnote'
  rcases List.mem_append.mp hx with hx | hx <;> rcases List.mem_append.mp hy with hy | hy
  · exact hs x hx y hy hnote hnote'
  · obtain rfl := List.mem_singleton.mp hy
    cases hnote.symm.trans (alone_of_inTurn hinTurn hnote' x hx)
  · obtain rfl := List.mem_singleton.mp hx
    cases hnote'.symm.trans (alone_of_inTurn hinTurn hnote y hy)
  · rw [List.mem_singleton.mp hx, List.mem_singleton.mp hy]

/-- One event moves the session forward, if at all. -/
theorem Sound.rank_le (hs : s.Sound) (hstep : s.step? h e = some s') :
    s.session.lifecycle.rank ≤ s'.session.lifecycle.rank := by
  cases e with
  | arrive message =>
    cases hstep
    exact Nat.le_refl _
  | outside disk manifest =>
    cases hstep
    exact Nat.le_refl _
  | step number cancelled =>
    obtain ⟨x, turn, hx, -, hturn, rfl⟩ := step?_step hstep
    have hfits := hs.living.fits x hx
    -- Three moves go one further in the order; all the others leave the session as far as it is.
    have hkept : turn.state.lifecycle = s.session.lifecycle →
        s.session.lifecycle.rank ≤ turn.state.lifecycle.rank := fun heq => heq ▸ Nat.le_refl _
    cases hs.move hx hturn with
    | nearer _ _ _ hkeeps | admitted _ _ _ _ hkeeps | left _ _ _ _ hkeeps =>
      exact hkept hkeeps.lifecycle
    | worked _ hworks => exact hkept hworks.1.lifecycle
    | late _ _ _ _ hsame | exit _ _ _ _ hsame | refused _ _ _ _ _ _ hsame =>
      exact hkept hsame.keeps.lifecycle
    | prepared _ _ _ _ _ _ hlifecycle | published _ _ _ _ _ _ hlifecycle =>
      exact hkept hlifecycle
    | claimed _ _ _ hbefore =>
      rw [hbefore]
      exact Nat.zero_le _
    | concluded hstage _ hlifecycle =>
      rw [hfits.opening (by rw [hstage]; rfl)]
      simp [after, hlifecycle, Lifecycle.rank]
    | ended _ _ _ _ hstate =>
      have hlifecycle : turn.state.lifecycle = .shutDown := by rw [hstate]
      simp only [after, hlifecycle]
      cases s.session.lifecycle <;> decide
    | recorded _ _ _ _ hstate => exact hkept (by rw [hstate])

end Scene

/-- What continues a build system that continues another continues that one. -/
theorem BuildSystem.Continues.trans {a b c : BuildSystem} (hab : a.Continues b)
    (hbc : b.Continues c) : a.Continues c := by
  cases hab with
  | database hroot =>
    cases hbc with
    | database hroot' => exact .database (hroot'.trans hroot)
  | manifest => exact hbc
  | unhandled => exact hbc

namespace Scene

variable {h : Host ε μ} {s s' : Scene ε μ} {e : Event μ} {x y : Handling}
  {turn : Session.SessionTurn ε μ} {deeds : List (Deed ε μ)} {d d' : Deed ε μ}

/-- The session goes on with the build system that it has. -/
def GoesOnWith (system : BuildSystem) (before : List (Deed ε μ)) (s : Scene ε μ) : Prop :=
  (∃ system', s.session.buildSystem = some system' ∧ system.Continues system')
    ∧ ∃ later, s.deeds = before ++ later ∧ ∀ d ∈ later, d.publishes = false

/-- Once the session has been open, an event leaves it its build system. -/
theorem Sound.goesOnWith {system : BuildSystem} {before : List (Deed ε μ)} (hs : s.Sound)
    (hopened : s.session.lifecycle.hasOpened = true) (hgoes : GoesOnWith system before s)
    (hstep : s.step? h e = some s') : GoesOnWith system before s' := by
  obtain ⟨⟨system', hsystem, hcontinues⟩, later, hlater, hnone⟩ := hgoes
  cases e with
  | arrive message =>
    cases hstep
    exact ⟨⟨system', hsystem, hcontinues⟩, later, hlater, hnone⟩
  | outside disk manifest =>
    cases hstep
    exact ⟨⟨system', hsystem, hcontinues⟩, later, hlater, hnone⟩
  | step number cancelled =>
    obtain ⟨x, turn, hx, -, hturn, rfl⟩ := step?_step hstep
    -- Nobody opens the session any more, so nobody stands where a build system is published.
    have hopening : x.standing.stage.part ≠ .opening := by
      intro hpart
      rw [(hs.living.fits x hx).opening hpart] at hopened
      cases hopened
    have hkept : Option.Rel BuildSystem.Continues s.session.buildSystem turn.state.buildSystem := by
      cases hs.move hx hturn with
      | nearer _ _ _ hkeeps | admitted _ _ _ _ hkeeps | left _ _ _ _ hkeeps =>
        exact hkeeps.buildSystem
      | worked _ hworks => exact hworks.1.buildSystem
      | late _ _ _ _ hsame | exit _ _ _ _ hsame | refused _ _ _ _ _ _ hsame =>
        exact hsame.keeps.buildSystem
      | prepared _ hpart => exact absurd hpart hopening
      | published _ _ hstage => exact absurd (by rw [hstage]; rfl) hopening
      | concluded hstage => exact absurd (by rw [hstage]; rfl) hopening
      | claimed _ _ _ hbefore =>
        rw [hbefore] at hopened
        cases hopened
      | ended _ _ _ _ hstate | recorded _ _ _ _ hstate =>
        rw [hstate]
        exact Session.rel_refl _
    rw [hsystem] at hkept
    refine ⟨?_, later ++ [⟨x, s.session, turn⟩], ?_, ?_⟩
    · cases hsystem' : turn.state.buildSystem with
      | none =>
        rw [hsystem'] at hkept
        cases hkept
      | some system'' =>
        rw [hsystem'] at hkept
        cases hkept with
        | some hcontinues' => exact ⟨system'', hsystem', hcontinues.trans hcontinues'⟩
    · rw [deeds_after, hlater, List.append_assoc]
    · intro d hd
      rcases List.mem_append.mp hd with hd | hd
      · exact hnone d hd
      · obtain rfl := List.mem_singleton.mp hd
        refine Bool.eq_false_iff.mpr fun hpublishes => hopening ?_
        simp only [Deed.publishes, Deed.stage, Bool.and_eq_true] at hpublishes
        obtain ⟨-, hstage⟩ := hpublishes
        split at hstage
        · case h_1 hpublishing => rw [hpublishing]; rfl
        · cases hstage

/-- A step for a message that does not open the session changes nothing, unless the message was let
in. -/
theorem Sound.admitted_of_effect (hs : s.Sound) (hd : d ∈ s.deeds)
    (hinit : d.handling.message.isInitialize = false) (heffect : ¬ d.LeavesAlone) :
    Admitted s.deeds d.handling.number := by
  have hentitled := hs.accounted.deeds d hd
  have hmove := hs.accounted.moves d hd
  -- Who works or takes leave was let in before, and at the beginning the only step with an effect
  -- is to be let in now.
  cases hpart : d.stage.part with
  | working =>
    simp only [Deed.stage] at hpart
    simpa only [Entitled, hpart] using hentitled
  | leaving =>
    simp only [Deed.stage] at hpart
    simp only [Entitled, hpart] at hentitled
    exact hentitled.2
  | opening =>
    simp only [Deed.stage] at hpart
    simp only [Entitled, hpart] at hentitled
    cases hinit.symm.trans hentitled
  | arrival =>
    cases hmove with
    | nearer _ _ _ _ hsame => exact absurd (hsame hpart) heffect
    | late _ _ _ _ hsame | exit _ _ _ _ hsame | refused _ _ _ _ _ _ hsame =>
      exact absurd hsame heffect
    | claimed _ _ hinit' => cases hinit.symm.trans hinit'
    | admitted _ hchecked hopen henters =>
      refine ⟨d, hd, rfl, ?_, hopen⟩
      have hpasses : d.passes = true := by
        cases hprogress : d.turn.progress with
        | more standing => simp [Deed.passes, hprogress, (henters standing hprogress).1]
        | done outcome => simp [Deed.passes, hprogress]
      simp [Deed.checks, hpart, hpasses, hchecked]
    | prepared _ hpart' | left hpart' | worked hpart' => cases hpart.symm.trans hpart'
    | published _ _ hstage | concluded hstage | ended _ hstage | recorded _ hstage =>
      rw [hstage] at hpart
      cases hpart

/-- Who was not let in leaves the session alone from first to last. -/
theorem Sound.leavesAlone_of_refused (hs : s.Sound) (hd : d ∈ s.deeds) (hchecks : d.checks = true)
    (hclosed : d.seen.lifecycle ≠ .initialized) (hd' : d' ∈ s.deeds)
    (hnumber : d'.handling.number = d.handling.number) : d'.LeavesAlone := by
  have hmessage : d'.handling.message = d.handling.message := by
    have hsame := hs.numbered.deeds d' hd'
    rw [hnumber, hs.numbered.deeds d hd] at hsame
    exact (Option.some.inj hsame).symm
  have hinit : d'.handling.message.isInitialize = false := by
    simp only [Deed.checks, Bool.and_eq_true] at hchecks
    exact hmessage ▸ isInitialize_of_isChecked hchecks.2
  -- Had it an effect it would have been let in, by a second look at the session; but there is one
  -- look only, and that found the session closed.
  by_contra heffect
  obtain ⟨c, hc, hnumber', hchecks', hopen⟩ := hs.admitted_of_effect hd' hinit heffect
  obtain rfl := hs.accounted.checkedOnce c hc d hd hchecks' hchecks (hnumber'.trans hnumber)
  exact hclosed hopen

/-- Who was not let in is told so at once. -/
theorem Sound.done_of_refused (hs : s.Sound) (hd : d ∈ s.deeds) (hchecks : d.checks = true)
    (hclosed : d.seen.lifecycle ≠ .initialized) : ∃ outcome, d.turn.progress = .done outcome
      ∧ d.handling.message.Refused d.seen.lifecycle outcome := by
  simp only [Deed.checks, Bool.and_eq_true] at hchecks
  obtain ⟨⟨hpart, hpasses⟩, hchecked⟩ := hchecks
  have hpart : d.stage.part = .arrival := eq_of_beq hpart
  have hinit := isInitialize_of_isChecked hchecked
  cases hs.accounted.moves d hd with
  | nearer approach hprogress happroach =>
    cases approach <;> simp_all [Deed.passes]
  | claimed _ _ hinit' | late _ _ hinit' => cases hinit.symm.trans hinit'
  | exit _ _ hexit => simp [Incoming.isChecked, hexit] at hchecked
  | refused outcome _ _ _ hprogress hrefused => exact ⟨outcome, hprogress, hrefused⟩
  | admitted _ _ hopen => exact absurd hopen hclosed
  | prepared _ hpart' | left hpart' | worked hpart' => cases hpart.symm.trans hpart'
  | published _ _ hstage | concluded hstage | ended _ hstage | recorded _ hstage =>
    rw [hstage] at hpart
    cases hpart

/-- **A session that lives in order,** as far as it has come and however it goes on. -/
structure Orderly (h : Host ε μ) (s : Scene ε μ) : Prop where
  /-- The session only moves forward. -/
  forward : ∀ {events s'}, s.run? h anything events = some s' →
    s.session.lifecycle.rank ≤ s'.session.lifecycle.rank
  /-- At most one message has claimed the opening of the session. -/
  claimedOnce : s.deeds.countP Deed.claims ≤ 1
  /-- At most one request to open the session has succeeded. -/
  openedOnce : s.deeds.countP Deed.opens ≤ 1
  /-- A session that has been open has a build system, and none is put in its place any more. -/
  built : s.session.lifecycle.hasOpened = true → ∃ system, s.session.buildSystem = some system
    ∧ ∀ {events s'}, s.run? h anything events = some s' → GoesOnWith system s.deeds s'
  /-- A message that needs an open session and finds none is turned away, and its handling leaves
  the session alone from first to last. -/
  refused : ∀ d ∈ s.deeds, d.checks = true → d.seen.lifecycle ≠ .initialized →
    (∃ outcome, d.turn.progress = .done outcome
      ∧ d.handling.message.Refused d.seen.lifecycle outcome)
    ∧ ∀ d' ∈ s.deeds, d'.handling.number = d.handling.number → d'.LeavesAlone
  /-- Except by opening the session, nothing is changed but for messages that found it open. -/
  admitted : ∀ d ∈ s.deeds, d.handling.message.isInitialize = false → ¬ d.LeavesAlone →
    Admitted s.deeds d.handling.number
  /-- That the client took leave is on record only when the session has ended. -/
  received : s.session.shutdownReceived = true → s.session.lifecycle = .shutDown
  /-- The exit code is that of success exactly when the end was recorded for a request to take
  leave that found the session open. -/
  exitCode : s.session.exitCode = 0 ↔ ∃ d ∈ s.deeds, d.records = true
    ∧ d.handling.message.isShutdown = true ∧ Admitted s.deeds d.handling.number

/-- A run moves the session forward, if at all. -/
theorem Sound.rank_le_run {events : List (Event μ)} (hs : s.Sound)
    (hrun : s.run? h anything events = some s') :
    s.session.lifecycle.rank ≤ s'.session.lifecycle.rank := by
  have hboth : s'.Sound ∧ s.session.lifecycle.rank ≤ s'.session.lifecycle.rank := by
    refine run_induction (P := fun t => t.Sound
      ∧ s.session.lifecycle.rank ≤ t.session.lifecycle.rank) hrun ⟨hs, Nat.le_refl _⟩ ?_
    intro t e t' ht _ hstep
    exact ⟨ht.1.step? hstep, Nat.le_trans ht.2 (ht.1.rank_le hstep)⟩
  exact hboth.2

/-- A session that has been open has been so ever after. -/
theorem Sound.hasOpened_step (hs : s.Sound) (hopened : s.session.lifecycle.hasOpened = true)
    (hstep : s.step? h e = some s') : s'.session.lifecycle.hasOpened = true := by
  -- To have been open is to have come so far, and no event takes a session back.
  have hrank := hs.rank_le hstep
  revert hrank hopened
  cases s.session.lifecycle <;> cases s'.session.lifecycle <;> decide

/-- Once the session has been open, a run leaves it its build system. -/
theorem Sound.goesOnWith_run {events : List (Event μ)} (hs : s.Sound)
    (hopened : s.session.lifecycle.hasOpened = true) {system : BuildSystem}
    (hsystem : s.session.buildSystem = some system)
    (hrun : s.run? h anything events = some s') : GoesOnWith system s.deeds s' := by
  have hall : s'.Sound ∧ s'.session.lifecycle.hasOpened = true ∧ GoesOnWith system s.deeds s' := by
    refine run_induction (P := fun t => t.Sound ∧ t.session.lifecycle.hasOpened = true
      ∧ GoesOnWith system s.deeds t) hrun
      ⟨hs, hopened, ⟨system, hsystem, .refl system⟩, [], ?_, ?_⟩ ?_
    · exact (List.append_nil _).symm
    · exact fun d hd => absurd hd List.not_mem_nil
    · rintro t e t' ⟨ht, hopened, hgoes⟩ _ hstep
      exact ⟨ht.step? hstep, ht.hasOpened_step hopened hstep, ht.goesOnWith hopened hgoes hstep⟩
  exact hall.2.2

/-- The exit code is that of success exactly if the end was recorded, for a request to take leave
that was let in. -/
theorem Sound.exitCode_eq_zero (hs : s.Sound) : s.session.exitCode = 0 ↔ ∃ d ∈ s.deeds,
    d.records = true ∧ d.handling.message.isShutdown = true
      ∧ Admitted s.deeds d.handling.number := by
  have hflag : s.session.exitCode = 0 ↔ s.session.shutdownReceived = true := by
    unfold Session.exitCode
    cases s.session.shutdownReceived <;> decide
  rw [hflag, hs.living.recorded, List.any_eq_true]
  refine exists_congr fun d => and_congr_right fun hd => ⟨fun hrecords => ?_, fun h => h.1⟩
  have hstage : d.handling.standing.stage = .recording := (Deed.records_iff.mp hrecords).2
  have hentitled := hs.accounted.deeds d hd
  simp only [Entitled, hstage, Stage.part] at hentitled
  exact ⟨hrecords, hentitled⟩

/-- **The life of a session is in order after every run,** whatever messages come and in whatever
order their steps are taken. -/
theorem lifecycle_orderly {engine : ε} {manifest : μ} {disk : FileSystem}
    {events : List (Event μ)}
    (hrun : (start engine manifest disk).run? h anything events = some s) : Orderly h s := by
  have hs : s.Sound := (Sound.start engine manifest disk).run? hrun
  constructor
  · exact fun hrun' => hs.rank_le_run hrun'
  · rw [hs.living.claims]
    split <;> decide
  · rw [hs.living.opens]
    split <;> decide
  · intro hopened
    obtain ⟨system, hsystem⟩ := Option.isSome_iff_exists.mp (hs.living.system hopened)
    exact ⟨system, hsystem, fun hrun' => hs.goesOnWith_run hopened hsystem hrun'⟩
  · intro d hd hchecks hclosed
    exact ⟨hs.done_of_refused hd hchecks hclosed,
      fun d' hd' hnumber => hs.leavesAlone_of_refused hd hchecks hclosed hd' hnumber⟩
  · exact fun d hd hinit heffect => hs.admitted_of_effect hd hinit heffect
  · exact hs.living.received
  · exact hs.exitCode_eq_zero

/-- Two requests to open a session stand in line for it while a question and a notification come
too early, then two requests take leave side by side, and a last question comes too late. -/
def rivalry : List (Event Unit) :=
  let opening := .arrive (.request ⟨.number 1, "initialize", "InitializeParams", .null⟩)
  let question := .arrive (.request ⟨.number 2, "textDocument/hover", "HoverParams", .null⟩)
  let leave := .arrive (.request ⟨.number 3, "shutdown", "unit", .null⟩)
  let edit := .arrive
    (.notification ⟨"textDocument/didChange", "DidChangeTextDocumentParams", .null⟩)
  let steps (numbers : List Nat) : List (Event Unit) := numbers.map fun n => .step n false
  [opening, opening, question, edit] ++ steps [0, 1, 0, 1, 2, 3, 2, 3, 0, 0, 0, 0, 0, 0, 0]
    ++ [leave, leave] ++ steps [4, 5, 4, 5, 4, 5, 4, 5, 4, 4, 5, 4, 4, 4, 4]
    ++ [question] ++ steps [6, 6]

/-- The session of these two rivals is opened once and left once, and its exit code is that of
success. -/
theorem lifecycle_orderly_rivalry :
    ∃ s : Scene Unit Unit, (start () () {}).run? ⟨.silent, none, {}⟩ anything rivalry = some s
      ∧ s.session.exitCode = 0 ∧ Orderly ⟨.silent, none, {}⟩ s := by
  have hrun : ((start () () {}).run? ⟨.silent, none, {}⟩ anything rivalry).any
      (fun s : Scene Unit Unit => s.session.exitCode == 0) = true := by decide +kernel
  obtain ⟨s, hs, hcode⟩ := (Option.any_eq_true _ _).mp hrun
  exact ⟨s, hs, eq_of_beq hcode, lifecycle_orderly hs⟩

end Scene

end FlagServer
