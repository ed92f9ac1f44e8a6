import FlagServer.Proofs.Session.Lifecycle

/-!
# Who stands in line

A line before a resource holds no more than it should: whoever stands in it or has the resource in
hand is a message that is being handled. `Scene.Lined` says so, and every event keeps it. So a
message that is handled alone never has to wait, which is what `Scene.Lined.isTurn_of_alone` says.

Beside what it has come to, a message has the database in hand from when it begins to wait for the
disk until the disk has been read.
-/

namespace FlagServer

variable {ε μ : Type}

/-- The database is in hand while the disk is read. -/
def Stage.isKeeping : Stage → Bool
  | .discovering _ _ => true
  | .reloading => true
  | .finding next => next.isKeeping
  | _ => false

/-- The database is in hand for work only, neither for opening a session nor for taking leave. -/
theorem Stage.part_of_isKeeping {stage : Stage} (hkeeping : stage.isKeeping = true) :
    stage.part = .working := by
  fun_induction Stage.isKeeping stage with
  | case1 => rfl
  | case2 => rfl
  | case3 next ih => exact ih hkeeping
  | case4 => cases hkeeping

namespace Session

variable {h : Host ε μ} {s s' : Session ε μ} {cancelled : Bool} {stage : Stage}
  {turn : SessionTurn ε μ}

/-! ## What a stage does to the lines -/

/-- The build system is one over a database. -/
def HasDatabase (s : Session ε μ) : Prop :=
  ∃ d, s.buildSystem = some (.database d)

/-- What a stage does to the lines: nothing, or it takes the database in hand for the next stage, or
it lets go of it after a stage that had it. -/
inductive Grasp (stage : Stage) (s : Session ε μ) (turn : SessionTurn ε μ) : Prop where
  | same : turn.state.lines = s.lines →
      (∀ standing, turn.progress = .more standing →
        standing.stage.isKeeping = stage.isKeeping) →
      (stage.isKeeping = true → ∃ standing, turn.progress = .more standing) → Grasp stage s turn
  | took (next : Stage) : turn.state.lines = (s.hold .database .alone).lines →
      turn.progress = .more next.standing → next.isKeeping = true → turn.state.HasDatabase →
      Grasp stage s turn
  | released : turn.state.lines = (s.release .database .alone).lines →
      (∀ standing, turn.progress = .more standing → standing.stage.isKeeping = false) →
      Grasp stage s turn

/-- What a stage goes on with has not been come to yet. -/
def FromBefore (turn : SessionTurn ε μ) : Prop :=
  ∀ standing, turn.progress = .more standing → standing.approach = .before

theorem fromBefore_goOn (s : Session ε μ) (stage : Stage) : FromBefore (s.goOn stage) := by
  intro standing hprogress
  cases hprogress
  rfl

theorem grasp_goOn {next : Stage} (hstage : stage.isKeeping = false)
    (hlines : s'.lines = s.lines) (hnext : next.isKeeping = false) :
    Grasp stage s (s'.goOn next) ∧ FromBefore (s'.goOn next) := by
  refine ⟨.same hlines (fun standing hprogress => ?_) (fun h => ?_), fromBefore_goOn s' next⟩
  · cases hprogress
    exact hnext.trans hstage.symm
  · cases hstage.symm.trans h

theorem grasp_done {outcome : Except ResponseError Json} (hstage : stage.isKeeping = false)
    (hlines : turn.state.lines = s.lines) (hprogress : turn.progress = .done outcome) :
    Grasp stage s turn ∧ FromBefore turn := by
  refine ⟨.same hlines (fun standing hp => ?_) (fun h => ?_), fun standing hp => ?_⟩
  · cases hprogress.symm.trans hp
  · cases hstage.symm.trans h
  · cases hprogress.symm.trans hp

theorem grasp_took {next : Stage} (hlines : s'.lines = (s.hold .database .alone).lines)
    (hnext : next.isKeeping = true) (hdatabase : s'.HasDatabase) :
    Grasp stage s (s'.goOn next) ∧ FromBefore (s'.goOn next) :=
  ⟨.took next hlines rfl hnext hdatabase, fromBefore_goOn s' next⟩

/-- To let go of the database and go on to where it is not in hand, if at all. -/
theorem grasp_released (hlines : turn.state.lines = (s.release .database .alone).lines)
    (hnext : ∀ standing, turn.progress = .more standing →
      standing.approach = .before ∧ standing.stage.isKeeping = false) :
    Grasp stage s turn ∧ FromBefore turn :=
  ⟨.released hlines fun standing hprogress => (hnext standing hprogress).2,
    fun standing hprogress => (hnext standing hprogress).1⟩

theorem grasp_spread (hstage : stage.isKeeping = false) (hlines : s'.lines = s.lines)
    (notice : Option Notice) :
    Grasp stage s (s'.spread notice) ∧ FromBefore (s'.spread notice) := by
  cases notice with
  | none => exact grasp_done hstage hlines rfl
  | some notice => exact grasp_goOn hstage hlines rfl

theorem grasp_receive (r : IncomingRequest) (hstage : stage.isKeeping = false) :
    Grasp stage s (s.receive r) ∧ FromBefore (s.receive r) := by
  obtain ⟨error, heq⟩ | ⟨params, -, heq⟩ | heq | ⟨request, heq⟩ := receive_eq (s := s) r
  all_goals rw [heq]
  · exact grasp_done hstage rfl rfl
  · exact grasp_goOn hstage rfl rfl
  · exact grasp_goOn hstage rfl rfl
  · exact grasp_goOn hstage rfl rfl

theorem grasp_hear (n : IncomingNotification) (hstage : stage.isKeeping = false) :
    Grasp stage s (s.hear h n) ∧ FromBefore (s.hear h n) := by
  unfold hear
  split
  · exact grasp_done hstage rfl rfl
  split
  · obtain ⟨send, heq⟩ | heq | ⟨document, heq⟩ | ⟨uri, heq⟩ | ⟨events, heq⟩ :=
      attend_eq (h := h) (s := s) n
    all_goals rw [heq]
    · exact grasp_done hstage rfl rfl
    · exact grasp_done hstage rfl rfl
    · exact grasp_goOn hstage rfl rfl
    · exact grasp_goOn hstage rfl rfl
    · exact grasp_goOn hstage rfl rfl
  · exact grasp_done hstage rfl rfl

theorem grasp_detach? (hstage : stage.isKeeping = false) (hact : detach? h s = some turn) :
    Grasp stage s turn ∧ FromBefore turn := by
  unfold detach? at hact
  split at hact
  · cases hact
    exact grasp_done hstage rfl rfl
  · obtain ⟨⟨s', system'⟩, hset, rfl⟩ := Option.map_eq_some_iff.mp hact
    obtain ⟨⟨manifest, rfl⟩, -⟩ := setListener_cases hset
    exact grasp_done hstage rfl rfl

/-- Settings that are not in the cache make a message take the database in hand. -/
theorem grasp_resolve (uri : Url) (language : Language) (purpose : Purpose)
    (hstage : stage.isKeeping = false) :
    Grasp stage s (resolve h s uri language purpose)
      ∧ FromBefore (resolve h s uri language purpose) := by
  unfold resolve
  split
  · case h_1 d hsystem =>
    split
    · exact grasp_goOn hstage rfl rfl
    · exact grasp_took rfl rfl ⟨d, hsystem⟩
  · exact grasp_goOn hstage rfl rfl
  · exact grasp_goOn hstage rfl rfl

/-- Once the disk has been searched, the database is let go of. That it is still there matters, as
nothing is done without it. -/
theorem grasp_discover (uri : Url) (purpose : Purpose) (hdatabase : s.HasDatabase) :
    Grasp stage s (s.discover uri purpose) ∧ FromBefore (s.discover uri purpose) := by
  obtain ⟨d, hsystem⟩ := hdatabase
  simp only [discover, hsystem]
  refine grasp_released rfl fun standing hprogress => ?_
  cases hprogress
  exact ⟨rfl, rfl⟩

theorem grasp_use (uri : Url) (settings : Option Settings) (purpose : Purpose)
    (hstage : stage.isKeeping = false) :
    Grasp stage s (use h cancelled s uri settings purpose)
      ∧ FromBefore (use h cancelled s uri settings purpose) := by
  cases purpose with
  | answer request =>
    simp only [use]
    split
    · exact grasp_done hstage rfl rfl
    · exact grasp_goOn hstage rfl rfl
  | opening document => exact grasp_done hstage rfl rfl
  | push rest => exact grasp_goOn hstage rfl rfl

/-- A change of a database that has a root makes a message take the database in hand. -/
theorem grasp_review (events : List FileEvent) (hstage : stage.isKeeping = false) :
    Grasp stage s (review h s events) ∧ FromBefore (review h s events) := by
  unfold review
  split
  · case h_1 d hsystem =>
    split
    · exact grasp_done hstage rfl rfl
    split
    · exact grasp_took rfl rfl ⟨d, hsystem⟩
    · refine grasp_spread hstage ?_ _
      rfl
  · refine grasp_spread hstage ?_ _
    rfl
  · exact grasp_done hstage rfl rfl

/-- Once the database has been read anew, it is let go of, and its news are spread. -/
theorem grasp_reload (hdatabase : s.HasDatabase) :
    Grasp stage s s.reload ∧ FromBefore s.reload := by
  obtain ⟨d, hsystem⟩ := hdatabase
  simp only [reload, hsystem]
  cases (d.reload s.disk).notice with
  | none => exact grasp_released rfl (fun _ hprogress => by cases hprogress)
  | some notice =>
    refine grasp_released rfl fun standing hprogress => ?_
    cases hprogress
    exact ⟨rfl, rfl⟩

/-- **What a stage does to the lines.** Two stages lead to reading the disk and take the database in
hand for it, the two that read it let go of it, and all others leave the lines alone. -/
theorem act_grasp (hdatabase : stage.isKeeping = true → s.HasDatabase)
    (hact : act h cancelled stage s = some turn) : Grasp stage s turn ∧ FromBefore turn := by
  cases stage
  -- What waits has the database in hand if what it waits for has.
  case finding next =>
    cases hact
    refine ⟨.same rfl (fun standing hprogress => ?_) (fun _ => ⟨_, rfl⟩), fromBefore_goOn s next⟩
    cases hprogress
    rfl
  case announcing | announcingEnd =>
    cases hact
    refine ⟨.same rfl (fun standing hprogress => ?_) (fun h => by cases h),
      fun standing hprogress => ?_⟩ <;>
      cases hprogress <;> rfl
  case choosing params =>
    simp only [act, choose, Option.some.injEq] at hact
    subst hact
    split <;> exact grasp_goOn rfl rfl rfl
  case attaching system =>
    obtain ⟨⟨s', system'⟩, hset, rfl⟩ := Option.map_eq_some_iff.mp hact
    obtain ⟨⟨manifest, rfl⟩, -⟩ := setListener_cases hset
    exact grasp_goOn rfl rfl rfl
  case detaching => exact grasp_detach? rfl hact
  case forwarding request =>
    simp only [act, Option.some.injEq] at hact
    subst hact
    split
    · exact grasp_done rfl rfl rfl
    · exact grasp_goOn rfl rfl rfl
  case consulting request =>
    simp only [act] at hact
    split at hact <;> cases hact <;> exact grasp_goOn rfl rfl rfl
  case answering request settings =>
    obtain ⟨⟨outcome, engine⟩, -, rfl⟩ := Option.map_eq_some_iff.mp hact
    exact grasp_done rfl rfl rfl
  case registering document =>
    simp only [act, register, Option.some.injEq] at hact
    subst hact
    split <;> exact grasp_goOn rfl rfl rfl
  case unregistering uri =>
    simp only [act, unregister, Option.some.injEq] at hact
    subst hact
    split <;> exact grasp_goOn rfl rfl rfl
  case pushing documents =>
    cases documents <;> cases hact
    · exact grasp_done rfl rfl rfl
    · exact grasp_goOn rfl rfl rfl
  all_goals cases hact
  case received r => exact grasp_receive r rfl
  case notified n => exact grasp_hear n rfl
  case resolving => exact grasp_resolve _ _ _ rfl
  case discovering => exact grasp_discover _ _ (hdatabase rfl)
  case resolved => exact grasp_use _ _ _ rfl
  case reviewing => exact grasp_review _ rfl
  case reloading => exact grasp_reload (hdatabase rfl)
  case concluding | dismissing => exact grasp_done rfl rfl rfl
  all_goals exact grasp_goOn rfl rfl rfl

end Session

/-! ## The lines of a scene -/

namespace Standing

/-- The message has a resource in hand, alone. -/
def keeps (standing : Standing) (r : Resource) : Prop :=
  standing.approach = .inHand (.resource r .alone)
    ∨ r = .database ∧ standing.stage.isKeeping = true

/-- The message neither stands in line for a resource nor has come to it. -/
def IsIdle (standing : Standing) (r : Resource) : Prop :=
  (∀ use place, standing.approach ≠ .inLine r use place)
    ∧ ∀ use, standing.approach ≠ .inHand (.resource r use)

theorem isIdle_of_before {standing : Standing} (hbefore : standing.approach = .before)
    (r : Resource) : standing.IsIdle r := by
  rw [IsIdle, hbefore]
  exact ⟨nofun, nofun⟩

/-- The message has a resource in hand, together with others. -/
def shares (standing : Standing) (r : Resource) : Bool :=
  match standing.approach with
  | .inHand (.resource r' .together) => r' == r
  | _ => false

/-- To share a resource is to have it in hand together with others. -/
theorem shares_iff {standing : Standing} {r : Resource} :
    standing.shares r = true ↔ standing.approach = .inHand (.resource r .together) := by
  unfold shares
  split
  · case h_1 happroach => simp [happroach]
  · case h_2 hnot =>
    refine ⟨nofun, fun heq => ?_⟩
    exact absurd heq (hnot r)

end Standing

/-- Nobody stands in the line before a resource or has it in hand but these messages. -/
structure Line.Covered (line : Line) (r : Resource) (handlings : List Handling) : Prop where
  waiting : ∀ entry ∈ line.waiting,
    ∃ x ∈ handlings, x.standing.approach = .inLine r entry.2 entry.1
  sharing : line.sharing ≤ handlings.countP fun x => x.standing.shares r
  taken : line.taken = true → ∃ x ∈ handlings, x.standing.keeps r

namespace Line.Covered

variable {line : Line} {r : Resource} {handlings handlings' others news : List Handling}
  {x x' : Handling} {use : Use}

/-- It does not matter in which order the messages are listed. -/
theorem perm (hcovered : line.Covered r handlings) (hperm : handlings.Perm handlings') :
    line.Covered r handlings' where
  waiting entry hentry := by
    obtain ⟨x, hx, happroach⟩ := hcovered.waiting entry hentry
    exact ⟨x, hperm.subset hx, happroach⟩
  sharing := hperm.countP_eq _ ▸ hcovered.sharing
  taken htaken := by
    obtain ⟨x, hx, hkeeps⟩ := hcovered.taken htaken
    exact ⟨x, hperm.subset hx, hkeeps⟩

/-- A line is covered by more messages if it is covered by some of them. -/
theorem append (hcovered : line.Covered r handlings) (news : List Handling) :
    line.Covered r (handlings ++ news) where
  waiting entry hentry := by
    obtain ⟨x, hx, happroach⟩ := hcovered.waiting entry hentry
    exact ⟨x, List.mem_append_left _ hx, happroach⟩
  sharing := by
    rw [List.countP_append]
    exact Nat.le_trans hcovered.sharing (Nat.le_add_right _ _)
  taken htaken := by
    obtain ⟨x, hx, hkeeps⟩ := hcovered.taken htaken
    exact ⟨x, List.mem_append_left _ hx, hkeeps⟩

/-- A message makes way for others that have what it had. -/
theorem replace (hcovered : line.Covered r (x :: others))
    (hwaiting : ∀ use place, x.standing.approach = .inLine r use place →
      ∃ y ∈ news, y.standing.approach = .inLine r use place)
    (hshares : x.standing.shares r = true →
      0 < news.countP fun y => y.standing.shares r)
    (hkeeps : line.taken = true → x.standing.keeps r → ∃ y ∈ news, y.standing.keeps r) :
    line.Covered r (news ++ others) where
  waiting entry hentry := by
    obtain ⟨y, hy, happroach⟩ := hcovered.waiting entry hentry
    rcases List.mem_cons.mp hy with rfl | hy
    · obtain ⟨z, hz, happroach'⟩ := hwaiting _ _ happroach
      exact ⟨z, List.mem_append_left _ hz, happroach'⟩
    · exact ⟨y, List.mem_append_right _ hy, happroach⟩
  sharing := by
    refine Nat.le_trans hcovered.sharing ?_
    -- If the message was one of those who share, then so is one of the new ones.
    rw [List.countP_append, List.countP_cons]
    split
    · case isTrue hx =>
      have hpos := hshares hx
      omega
    · omega
  taken htaken := by
    obtain ⟨y, hy, hy'⟩ := hcovered.taken htaken
    rcases List.mem_cons.mp hy with rfl | hy
    · obtain ⟨z, hz, hz'⟩ := hkeeps htaken hy'
      exact ⟨z, List.mem_append_left _ hz, hz'⟩
    · exact ⟨y, List.mem_append_right _ hy, hy'⟩

/-- A message that has not come to the resource makes way for others, who keep what it kept. -/
theorem replace_idle (hcovered : line.Covered r (x :: others)) (hidle : x.standing.IsIdle r)
    (hkeeping : line.taken = true → r = .database → x.standing.stage.isKeeping = true →
      ∃ y ∈ news, y.standing.keeps r) : line.Covered r (news ++ others) := by
  refine hcovered.replace ?_ ?_ ?_
  · exact fun use place happroach => absurd happroach (hidle.1 use place)
  · exact fun hshares => absurd (Standing.shares_iff.mp hshares) (hidle.2 _)
  · rintro htaken (happroach | ⟨rfl, hstage⟩)
    · exact absurd happroach (hidle.2 _)
    · exact hkeeping htaken rfl hstage

/-- A message at the same stage as another that has not come to the resource. -/
theorem replace_stage (hcovered : line.Covered r (x :: others)) (hidle : x.standing.IsIdle r)
    (hstage : x'.standing.stage = x.standing.stage) : line.Covered r (x' :: others) := by
  show line.Covered r ([x'] ++ others)
  refine hcovered.replace_idle hidle fun _ hr hkeeping => ?_
  exact ⟨x', List.mem_singleton_self x', .inr ⟨hr, hstage ▸ hkeeping⟩⟩

/-- A message takes the resource in hand. -/
theorem take (hcovered : line.Covered r (x :: others))
    (hbefore : x.standing.approach = .before) (hstage : x'.standing.stage = x.standing.stage)
    (happroach : x'.standing.approach = .inHand (.resource r use)) :
    (line.take use).Covered r (x' :: others) := by
  have hsame := hcovered.replace_stage (Standing.isIdle_of_before hbefore r) hstage
  cases use with
  | together =>
    refine ⟨hsame.waiting, ?_, hsame.taken⟩
    -- One more shares the resource, and one more is counted.
    have hx : x.standing.shares r = false := by simp [Standing.shares, hbefore]
    have hx' : x'.standing.shares r = true := by simp [Standing.shares, happroach]
    have hcount := hcovered.sharing
    rw [List.countP_cons_of_neg (by simp [hx])] at hcount
    rw [List.countP_cons_of_pos (by exact hx')]
    exact Nat.succ_le_succ hcount
  | alone =>
    exact ⟨hsame.waiting, hsame.sharing, fun _ => ⟨x', List.mem_cons_self, .inl happroach⟩⟩

/-- A message joins the line. -/
theorem join (hcovered : line.Covered r (x :: others))
    (hbefore : x.standing.approach = .before) (hstage : x'.standing.stage = x.standing.stage)
    (happroach : x'.standing.approach = .inLine r use (line.join use).1) :
    (line.join use).2.Covered r (x' :: others) := by
  have hsame := hcovered.replace_stage (Standing.isIdle_of_before hbefore r) hstage
  refine ⟨fun entry hentry => ?_, hsame.sharing, hsame.taken⟩
  rcases List.mem_append.mp hentry with hentry | hentry
  · exact hsame.waiting entry hentry
  · rw [List.mem_singleton.mp hentry]
    exact ⟨x', List.mem_cons_self, happroach⟩

/-- A message whose turn it is leaves the line. -/
theorem leave {place : Nat} (hcovered : line.Covered r (x :: others))
    (happroach : x.standing.approach = .inLine r use place)
    (hstage : x'.standing.stage = x.standing.stage) :
    (line.leave place).Covered r (x' :: others) := by
  refine ⟨fun entry hentry => ?_, ?_, fun htaken => ?_⟩
  · obtain ⟨hentry, hplace⟩ := List.mem_filter.mp hentry
    obtain ⟨y, hy, hy'⟩ := hcovered.waiting entry hentry
    rcases List.mem_cons.mp hy with rfl | hy
    · -- The place that the message had is the one that is taken out.
      cases happroach.symm.trans hy'
      simp at hplace
    · exact ⟨y, List.mem_cons_of_mem _ hy, hy'⟩
  · have hx : x.standing.shares r = false := by simp [Standing.shares, happroach]
    have hcount := hcovered.sharing
    rw [List.countP_cons_of_neg (by simp [hx])] at hcount
    rw [List.countP_cons]
    exact Nat.le_trans hcount (Nat.le_add_right _ _)
  · obtain ⟨y, hy, hy'⟩ := hcovered.taken htaken
    rcases List.mem_cons.mp hy with rfl | hy
    · rcases hy' with hy' | ⟨hr, hkeeping⟩
      · cases happroach.symm.trans hy'
      · exact ⟨x', List.mem_cons_self, .inr ⟨hr, hstage ▸ hkeeping⟩⟩
    · exact ⟨y, List.mem_cons_of_mem _ hy, hy'⟩

/-- A message lets go of the resource. -/
theorem release (hcovered : line.Covered r (x :: others))
    (happroach : x.standing.approach = .inHand (.resource r use))
    (hstage : x'.standing.stage = x.standing.stage) :
    (line.release use).Covered r (x' :: others) := by
  -- The message had the resource in hand, so it did not stand in line for it.
  have hwaiting : ∀ entry ∈ line.waiting,
      ∃ y ∈ x' :: others, y.standing.approach = .inLine r entry.2 entry.1 := by
    intro entry hentry
    obtain ⟨y, hy, hy'⟩ := hcovered.waiting entry hentry
    rcases List.mem_cons.mp hy with rfl | hy
    · cases happroach.symm.trans hy'
    · exact ⟨y, List.mem_cons_of_mem _ hy, hy'⟩
  have hcount := hcovered.sharing
  cases use with
  | together =>
    refine ⟨hwaiting, ?_, fun htaken => ?_⟩
    · have hx : x.standing.shares r = true := by simp [Standing.shares, happroach]
      rw [List.countP_cons_of_pos (by exact hx)] at hcount
      rw [List.countP_cons]
      exact Nat.le_trans (Nat.sub_le_of_le_add hcount) (Nat.le_add_right _ _)
    · obtain ⟨y, hy, hy'⟩ := hcovered.taken htaken
      rcases List.mem_cons.mp hy with rfl | hy
      · rcases hy' with hy' | ⟨hr, hkeeping⟩
        · cases happroach.symm.trans hy'
        · exact ⟨x', List.mem_cons_self, .inr ⟨hr, hstage ▸ hkeeping⟩⟩
      · exact ⟨y, List.mem_cons_of_mem _ hy, hy'⟩
  | alone =>
    refine ⟨hwaiting, ?_, nofun⟩
    have hx : x.standing.shares r = false := by simp [Standing.shares, happroach]
    rw [List.countP_cons_of_neg (by simp [hx])] at hcount
    rw [List.countP_cons]
    exact Nat.le_trans hcount (Nat.le_add_right _ _)

end Line.Covered

namespace Scene

variable {h : Host ε μ} {s s' : Scene ε μ} {e : Event μ} {x y : Handling}
  {turn : Session.SessionTurn ε μ}

/-- The message after a step, if it goes on. -/
def continued (x : Handling) : Progress Standing → List Handling
  | .more standing => [{ x with standing }]
  | .done _ => []

/-- Where a message stood does not matter for where it goes on. -/
theorem continued_standing {progress : Progress Standing} {standing : Standing} :
    continued { x with standing } progress = continued x progress := by
  cases progress <;> rfl

/-- The others stay where they are. -/
theorem Numbered.split (hs : s.Numbered) (hx : x ∈ s.handlings) :
    ∃ before behind, s.handlings = before ++ x :: behind
      ∧ ∀ turn : Session.SessionTurn ε μ, (s.after x turn).handlings
        = before ++ continued x turn.progress ++ behind := by
  obtain ⟨before, behind, hsplit⟩ := List.append_of_mem hx
  have hnodup := hs.nodup
  rw [hsplit, List.map_append, List.map_cons] at hnodup
  -- Nobody else has its number, so that a step changes nothing before and behind it.
  have hother : ∀ y ∈ before ++ behind, y.number ≠ x.number := by
    intro y hy heq
    have hmiddle := (List.nodup_middle.mp hnodup)
    have hnot := (List.nodup_cons.mp hmiddle).1
    rw [← List.map_append] at hnot
    exact hnot (List.mem_map.mpr ⟨y, hy, heq⟩)
  refine ⟨before, behind, hsplit, fun turn => ?_⟩
  simp only [after, hsplit]
  cases turn.progress with
  | more standing =>
    have hmap : ∀ l : List Handling, (∀ y ∈ l, y ∈ before ++ behind) →
        l.map (fun y => if y.number == x.number then { y with standing } else y) = l := by
      intro l hl
      refine (List.map_congr_left fun y hy => ?_).trans (List.map_id l)
      exact if_neg (by simpa using hother y (hl y hy))
    simp only [advance, continued, List.map_append, List.map_cons, beq_self_eq_true, if_true]
    rw [hmap before fun y hy => List.mem_append_left _ hy,
      hmap behind fun y hy => List.mem_append_right _ hy]
    simp
  | done outcome =>
    have hfilter : ∀ l : List Handling, (∀ y ∈ l, y ∈ before ++ behind) →
        l.filter (fun y => !(y.number == x.number)) = l := by
      intro l hl
      exact List.filter_eq_self.mpr fun y hy => by simpa using hother y (hl y hy)
    simp only [advance, continued, List.filter_append, List.filter_cons, beq_self_eq_true,
      Bool.not_true, Bool.false_eq_true, if_false]
    rw [hfilter before fun y hy => List.mem_append_left _ hy,
      hfilter behind fun y hy => List.mem_append_right _ hy]
    simp

/-! ## Covered lines -/

/-- Nobody stands in line or has anything in hand but these messages. -/
def Covers (handlings : List Handling) (lines : Lines) : Prop :=
  ∀ r, (lines.get r).Covered r handlings

section Covers

variable {others : List Handling} {lines : Lines} {r : Resource} {line : Line}

/-- To change one line leaves all lines covered if that one is. -/
theorem covers_set {handlings : List Handling} (hline : line.Covered r handlings)
    (hothers : ∀ r', r' ≠ r → (lines.get r').Covered r' handlings) :
    Covers handlings (lines.set r line) := by
  intro r'
  rw [Lines.get_set]
  split
  · case isTrue heq => exact heq ▸ hline
  · case isFalse hne => exact hothers r' (Ne.symm hne)

/-- A message comes to what its stage uses. -/
theorem Covers.come {session : Session ε μ} {touched : Touch}
    (hcovers : Covers (x :: others) session.lines) (hbefore : x.standing.approach = .before)
    (hcome : Session.come h session x.standing.stage touched = some turn) :
    Covers (continued x turn.progress ++ others) turn.state.lines := by
  -- The lines that the message does not come to are covered as before.
  have hsame : ∀ approach r, (session.lines.get r).Covered r
      (continued x (.more ⟨x.standing.stage, approach⟩) ++ others) :=
    fun _ r => (hcovers r).replace_stage (Standing.isIdle_of_before hbefore r) rfl
  cases touched with
  | resource r use =>
    simp only [Session.come] at hcome
    split at hcome
    · cases hcome
      refine covers_set ?_ fun r' _ => hsame _ r'
      exact (hcovers r).take hbefore rfl rfl
    · cases hcome
      refine covers_set ?_ fun r' _ => hsame _ r'
      exact (hcovers r).join hbefore rfl rfl
  | gate =>
    simp only [Session.come, Option.bind_eq_bind, Option.pure_def] at hcome
    obtain ⟨enter, -, hcome⟩ := Option.bind_eq_some_iff.mp hcome
    obtain ⟨manifest, -, hcome⟩ := Option.bind_eq_some_iff.mp hcome
    cases hcome
    exact hsame _

/-- A message goes through its stage. -/
theorem Covers.act {session : Session ε μ} (hcovers : Covers (x :: others) session.lines)
    (hbefore : x.standing.approach = .before)
    (hgrasp : Session.Grasp x.standing.stage session turn) :
    Covers (continued x turn.progress ++ others) turn.state.lines := by
  have hidle := Standing.isIdle_of_before hbefore
  cases hgrasp with
  | same hlines hnext hgoes =>
    intro r
    rw [hlines]
    refine (hcovers r).replace_idle (hidle r) fun _ hr hkeeping => ?_
    obtain ⟨standing, hprogress⟩ := hgoes hkeeping
    rw [hprogress]
    exact ⟨{ x with standing }, List.mem_singleton_self _,
      .inr ⟨hr, (hnext standing hprogress).trans hkeeping⟩⟩
  | took next hlines hprogress hkeeping =>
    rw [hlines, hprogress]
    -- Without the change to the line, the message that goes on covers what the old one covered.
    have hnew : ∀ r, (session.lines.get r).Covered r (continued x (.more next.standing) ++ others)
        := by
      intro r
      refine (hcovers r).replace_idle (hidle r) fun _ hr _ => ?_
      exact ⟨{ x with standing := next.standing }, List.mem_singleton_self _, .inr ⟨hr, hkeeping⟩⟩
    refine covers_set ?_ fun r' _ => hnew r'
    refine ⟨(hnew .database).waiting, (hnew .database).sharing, fun _ => ?_⟩
    exact ⟨{ x with standing := next.standing }, List.mem_cons_self, .inr ⟨rfl, hkeeping⟩⟩
  | released hlines =>
    -- Nobody has the database in hand any more, whoever had it before.
    rw [hlines]
    refine covers_set ?_ fun r' hne => ?_
    · have hfree : ((session.lines.get .database).release .alone).Covered .database (x :: others) :=
        ⟨(hcovers .database).waiting, (hcovers .database).sharing, nofun⟩
      exact hfree.replace_idle (hidle .database) nofun
    · exact (hcovers r').replace_idle (hidle r') fun _ hr => absurd hr hne

end Covers

/-- **Nobody stands in line or has anything in hand but messages that are being handled.** -/
structure Lined (s : Scene ε μ) : Prop where
  covers : Covers s.handlings s.session.lines
  slow : ∀ x ∈ s.handlings, x.standing.isSlow = true → x.standing.approach = .before
  database : ∀ x ∈ s.handlings, x.standing.stage.isKeeping = true → s.session.HasDatabase

/-- In the beginning there is nobody, and every line is empty. -/
theorem Lined.start (engine : ε) (manifest : μ) (disk : FileSystem) :
    (start engine manifest disk).Lined := by
  refine ⟨fun r => ⟨fun entry hentry => ?_, ?_, fun htaken => ?_⟩, nofun, nofun⟩
  · cases r <;> cases hentry
  · cases r <;> exact Nat.zero_le _
  · cases r <;> cases htaken

/-- A database is in place for as long as it is in hand. -/
theorem Sound.hasDatabase_step (hs : s.Sound) (hy : y ∈ s.handlings)
    (hkeeping : y.standing.stage.isKeeping = true) (hdatabase : s.session.HasDatabase)
    (hstep : s.step? h e = some s') : s'.session.HasDatabase := by
  -- Who has the database in hand works, so the session has been open and keeps its build system.
  have hopened := (hs.living.fits y hy).working (Stage.part_of_isKeeping hkeeping)
  obtain ⟨d, hsystem⟩ := hdatabase
  have hgoes : GoesOnWith (.database d) s.deeds s :=
    ⟨⟨_, hsystem, .refl _⟩, [], (List.append_nil _).symm, fun _ hd => absurd hd List.not_mem_nil⟩
  obtain ⟨⟨system, hsystem', hcontinues⟩, -⟩ := hs.goesOnWith hopened hgoes hstep
  cases hcontinues with
  | database => exact ⟨_, hsystem'⟩

/-- **A step leaves the lines to those who are being handled.** -/
theorem Covers.step {others : List Handling} {cancelled : Bool} {session : Session ε μ}
    (hcovers : Covers (x :: others) session.lines)
    (hdatabase : x.standing.stage.isKeeping = true → session.HasDatabase)
    (hstep : Session.step h cancelled x.standing session = some turn) :
    Covers (continued x turn.progress ++ others) turn.state.lines := by
  -- What the message comes to, or has come to, it lets go of before it goes through its stage.
  have hgo : ∀ {session' : Session ε μ},
      Session.act h cancelled x.standing.stage session' = some turn →
      session'.buildSystem = session.buildSystem →
      Covers ({ x with standing := x.standing.stage.standing } :: others) session'.lines →
      Covers (continued x turn.progress ++ others) turn.state.lines := by
    intro session' hact hsystem hcovers'
    have hgrasp := (Session.act_grasp (fun hkeeping => ?_) hact).1
    · exact continued_standing ▸ hcovers'.act rfl hgrasp
    · rw [Session.HasDatabase, hsystem]
      exact hdatabase hkeeping
  simp only [Session.step] at hstep
  split at hstep
  · case h_1 happroach =>
    split at hstep
    · exact hcovers.come happroach hstep
    · refine hgo hstep rfl fun r => ?_
      exact (hcovers r).replace_stage (Standing.isIdle_of_before happroach r) rfl
  · case h_2 r use place happroach =>
    split at hstep
    · refine hgo hstep rfl (covers_set ((hcovers r).leave happroach rfl) fun r' hne => ?_)
      refine (hcovers r').replace_stage ⟨fun _ _ heq => ?_, fun _ heq => ?_⟩ rfl
      · cases happroach.symm.trans heq
        exact hne rfl
      · cases happroach.symm.trans heq
    · cases hstep
  · case h_3 r use happroach =>
    refine hgo hstep rfl (covers_set ((hcovers r).release happroach rfl) fun r' hne => ?_)
    refine (hcovers r').replace_stage ⟨fun _ _ heq => ?_, fun _ heq => ?_⟩ rfl
    · cases happroach.symm.trans heq
    · cases happroach.symm.trans heq
      exact hne rfl
  · case h_4 happroach =>
    refine hgo hstep rfl fun r => ?_
    refine (hcovers r).replace_stage ⟨fun _ _ heq => ?_, fun _ heq => ?_⟩ rfl
    · cases happroach.symm.trans heq
    · cases happroach.symm.trans heq

/-- At a stage that waits for the disk there is nothing to come to. -/
theorem touch_slow {session : Session ε μ} {stage : Stage} (hslow : stage.isSlow = true) :
    Session.touch h session stage = none := by
  cases stage <;> first | rfl | cases hslow

/-- A message that goes on to wait for the disk has come to nothing there yet: at a stage that waits
for the disk there is nothing to come to. -/
theorem before_of_slow {cancelled : Bool} {session : Session ε μ} {standing standing' : Standing}
    (hdatabase : standing.stage.isKeeping = true → session.HasDatabase)
    (hstep : Session.step h cancelled standing session = some turn)
    (hprogress : turn.progress = .more standing') (hslow : standing'.isSlow = true) :
    standing'.approach = .before := by
  obtain ⟨touched, htouch, -, hcome⟩ | ⟨t, hsame, hact⟩ := Session.step_cases hstep
  · obtain ⟨-, approach, hprogress', -⟩ := Session.come_cases hcome
    cases hprogress.symm.trans hprogress'
    cases (touch_slow hslow).symm.trans htouch
  · refine (Session.act_grasp (fun hkeeping => ?_) hact).2 standing' hprogress
    rw [Session.HasDatabase, hsame]
    exact hdatabase hkeeping

/-- A message that goes on with the database in hand had it in hand before, or took it and found it
there. -/
theorem keeping_cases {cancelled : Bool} {session : Session ε μ} {standing standing' : Standing}
    (hdatabase : standing.stage.isKeeping = true → session.HasDatabase)
    (hstep : Session.step h cancelled standing session = some turn)
    (hprogress : turn.progress = .more standing') (hkeeping : standing'.stage.isKeeping = true) :
    standing.stage.isKeeping = true ∨ turn.state.HasDatabase := by
  obtain ⟨touched, -, -, hcome⟩ | ⟨t, hsame, hact⟩ := Session.step_cases hstep
  · obtain ⟨-, approach, hprogress', -⟩ := Session.come_cases hcome
    cases hprogress.symm.trans hprogress'
    exact .inl hkeeping
  · have hkept : standing.stage.isKeeping = true → t.HasDatabase := by
      intro hkeeping'
      rw [Session.HasDatabase, hsame]
      exact hdatabase hkeeping'
    cases (Session.act_grasp hkept hact).1 with
    | same _ hnext => exact .inl ((hnext standing' hprogress).symm.trans hkeeping)
    | took _ _ _ _ hdatabase' => exact .inr hdatabase'
    | released _ hnext => cases (hnext standing' hprogress).symm.trans hkeeping

/-- A message that comes stands in no line and has nothing in hand. -/
theorem Lined.arrive (hs : s.Lined) {message : Incoming}
    (hstep : s.step? h (.arrive message) = some s') : s'.Lined := by
  cases hstep
  have hkeeping' : message.stage.isKeeping = false := by cases message <;> rfl
  refine ⟨fun r => (hs.covers r).append _, fun x hx hslow => ?_, fun x hx hkeeping => ?_⟩
  · rcases List.mem_append.mp hx with hx | hx
    · exact hs.slow x hx hslow
    · obtain rfl := List.mem_singleton.mp hx
      rfl
  · rcases List.mem_append.mp hx with hx | hx
    · exact hs.database x hx hkeeping
    · obtain rfl := List.mem_singleton.mp hx
      cases hkeeping'.symm.trans hkeeping

/-- **An event leaves the lines to those who are being handled.** -/
theorem Lined.step? (hs : s.Lined) (hsound : s.Sound) (hstep : s.step? h e = some s') :
    s'.Lined := by
  cases e with
  | arrive message => exact hs.arrive hstep
  | outside disk manifest =>
    cases hstep
    exact ⟨hs.covers, hs.slow, hs.database⟩
  | step number cancelled =>
    have hdatabase : ∀ y ∈ s.handlings, y.standing.stage.isKeeping = true →
        s'.session.HasDatabase := fun y hy hkeeping =>
      hsound.hasDatabase_step hy hkeeping (hs.database y hy hkeeping) hstep
    obtain ⟨x, turn, hx, -, hturn, rfl⟩ := step?_step hstep
    obtain ⟨before, behind, hsplit, hafter⟩ := hsound.numbered.split hx
    refine ⟨?_, fun y hy hslow => ?_, fun y hy hkeeping => ?_⟩
    · -- The message is brought to the front for its step, and back to its place after it.
      have hcovers : Covers (x :: (before ++ behind)) s.session.lines := by
        intro r
        refine (hs.covers r).perm ?_
        rw [hsplit]
        exact List.perm_middle
      have hstep' := hcovers.step (hs.database x hx) hturn
      intro r
      refine (hstep' r).perm ?_
      rw [hafter turn, List.append_assoc]
      exact List.perm_append_comm_assoc _ _ _
    -- The others stand where they stood; of the one that made the step the lemmas above speak.
    all_goals
      obtain ⟨hy, -⟩ | ⟨standing, hprogress, rfl⟩ := hsound.numbered.mem_after hx hy
    · exact hs.slow y hy hslow
    · exact before_of_slow (hs.database x hx) hturn hprogress hslow
    · exact hdatabase y hy hkeeping
    · rcases keeping_cases (hs.database x hx) hturn hprogress hkeeping with hwas | hfound
      · exact hdatabase x hx hwas
      · exact hfound

/-- **Every run leaves the lines to those who are being handled.** -/
theorem Lined.run? {allowed : Scene ε μ → Event μ → Bool} {events : List (Event μ)}
    (hs : s.Lined) (hsound : s.Sound) (hrun : s.run? h allowed events = some s') : s'.Lined := by
  have hboth : s'.Sound ∧ s'.Lined := by
    refine run_induction (P := fun t => t.Sound ∧ t.Lined) hrun ⟨hsound, hs⟩ ?_
    intro t e t' ht _ hstep
    exact ⟨ht.1.step? hstep, ht.2.step? ht.1 hstep⟩
  exact hboth.2

/-- **A message that is handled alone does not wait:** if it stands in line, it is its turn. -/
theorem Lined.isTurn_of_alone (hs : s.Lined) (halone : ∀ y ∈ s.handlings, y = x) {r : Resource}
    {use : Use} {place : Nat} (happroach : x.standing.approach = .inLine r use place)
    (hkeeping : x.standing.stage.isKeeping = false) :
    (s.session.lines.get r).isTurn place use = true := by
  have hcovered := hs.covers r
  -- Whoever stands in the line is this message, so that nobody stands before it.
  have hearlier :
      (s.session.lines.get r).waiting.takeWhile (fun entry => entry.1 != place) = [] := by
    cases hwaiting : (s.session.lines.get r).waiting with
    | nil => rfl
    | cons entry rest =>
      obtain ⟨y, hy, hy'⟩ := hcovered.waiting entry (by rw [hwaiting]; exact List.mem_cons_self)
      rw [halone y hy] at hy'
      cases happroach.symm.trans hy'
      simp
  -- Who has the resource in hand would be this message, which stands in line for it.
  have htaken : (s.session.lines.get r).taken = false := by
    refine Bool.eq_false_iff.mpr fun htaken => ?_
    obtain ⟨y, hy, hkeeps⟩ := hcovered.taken htaken
    rw [halone y hy] at hkeeps
    rcases hkeeps with heq | ⟨-, heq⟩
    · cases happroach.symm.trans heq
    · cases hkeeping.symm.trans heq
  have hsharing : (s.session.lines.get r).sharing = 0 := by
    refine Nat.le_zero.mp (Nat.le_trans hcovered.sharing (Nat.le_of_eq ?_))
    refine List.countP_eq_zero.mpr fun y hy hshares => ?_
    rw [halone y hy, Standing.shares_iff] at hshares
    cases happroach.symm.trans hshares
  rw [Line.isTurn, hearlier]
  cases use <;> simp [Line.isOpenAfter, Line.hasRoom, htaken, hsharing]

end Scene

end FlagServer
