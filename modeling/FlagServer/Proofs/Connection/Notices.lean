import FlagServer.Proofs.Connection.Parting

/-!
# Notices of calls that are given up

When the maker of a call lets go of it, the other side is told that the call is not wanted any more.
It must be told once, and only of a call that it has been sent and that has had no outcome.

The entry of a call is what entitles to a notice. It can be taken out of the table once, and by whom
does not matter: by an answer, by the end of the connection, or by the maker, to whom a notice is
then owed. So the notices of a call that are owed, those that the queue has taken and those that are
lost because it takes no more are together one, if it was the maker who has ended the call, and none
otherwise (`Parting.Kept`).
-/

namespace FlagServer

/-- How many notices a call is good for: one, if its maker has ended it. -/
def Fate.notices : Fate → Nat
  | .ended .cancelled => 1
  | .ended .abandoned => 1
  | _ => 0

namespace Fate

/-- No call is good for more than one notice. -/
theorem notices_le_one (f : Fate) : f.notices ≤ 1 := by
  unfold notices
  split <;> omega

/-- Nobody is entitled to a notice of a call that does not wait. -/
theorem notices_next_of_ne_waiting {f : Fate} (hf : f ≠ .waiting) (call : Call) (a : Act) :
    (f.next call a).notices = f.notices := by
  cases f with
  | ended e => rfl
  | waiting => exact absurd rfl hf
  | unmade closed =>
    cases a with
    | maker serial b =>
      cases b with
      | reject | enter =>
        simp only [next]
        repeat' split
        all_goals rfl
      | _ => rfl
    | _ => rfl

/-- Nor is anybody who does not let go of it. -/
theorem notices_next_whole (f : Fate) (call : Call) {a : Act} (ha : a.letsGo = false) :
    (f.next call a).notices = f.notices := by
  by_cases hf : f = .waiting
  · subst hf
    simp only [next]
    split
    · case h_1 e he =>
      -- Of the acts that end a call that waits, only those of its maker entitle to a notice, and
      -- this is none of them.
      unfold Act.ending? at he
      split at he
      · split at he
        · split at he <;> cases he
          rfl
        · cases he
      · split at he <;> cases he
        rfl
      · cases ha
      · cases ha
      · cases he
        rfl
      · cases he
    · rfl
  · exact notices_next_of_ne_waiting hf call a

/-- A maker who is left something to find has no notice to give. -/
theorem notices_of_noted? {f : Fate} {o : Except CallError Json} (h : f.noted? = some o) :
    f.notices = 0 := by
  unfold notices
  split
  · cases h
  · cases h
  · rfl

/-- Who lets go of a call that waits ends it, and is entitled to a notice. -/
theorem notices_next_letsGo {call : Call} {b : Maker.Act} (hb : b.letsGo = true) :
    (waiting.next call (.maker call.serial b)).notices = 1 := by
  cases b with
  | cancel | giveUp => simp [next, Act.ending?, notices]
  | _ => cases hb

end Fate

namespace Parting

variable {registry : Registry} {deeds : List Deed} {s s' : Parting} {deed : Deed}

/-! ## What has happened to a call -/

/-- **A maker has let go of a call while its entry was in the table.** -/
def LetGo (registry : Registry) (deeds : List Deed) (call : Call) : Prop :=
  ∃ earlier b later t, deeds = earlier ++ .act (.maker call.serial b) :: later ∧ b.letsGo = true
    ∧ run? registry {} earlier = some t
    ∧ (call.id, call.serial) ∈ t.traffic.connection.calls.entries

/-- **A maker has let go of a call while its entry was in the table, and has given notice of it
while the connection was not closing yet** and its writer had not failed. -/
def Noticed (registry : Registry) (deeds : List Deed) (call : Call) : Prop :=
  ∃ earlier later t, deeds = earlier ++ .notice call.id :: later ∧ LetGo registry earlier call
    ∧ run? registry {} earlier = some t ∧ t.traffic.connection.phase ≠ .closing
    ∧ t.traffic.connection.phase ≠ .closed ∧ t.traffic.connection.writerFailed = false

variable {call : Call}

theorem LetGo.append (h : LetGo registry deeds call) (more : List Deed) :
    LetGo registry (deeds ++ more) call := by
  obtain ⟨earlier, b, later, t, rfl, hb, ht, hentry⟩ := h
  exact ⟨earlier, b, later ++ more, t, by simp, hb, ht, hentry⟩

theorem Noticed.append (h : Noticed registry deeds call) (more : List Deed) :
    Noticed registry (deeds ++ more) call := by
  obtain ⟨earlier, later, t, rfl, hgone, ht, hopen⟩ := h
  exact ⟨earlier, later ++ more, t, by simp, hgone, ht, hopen⟩

/-! ## One step -/

/-- Every move keeps the story of makers, table and acts together. -/
theorem linked_move (h : s.traffic.Linked (acts deeds))
    (hfew : s.traffic.makers.length ≤ UInt32.size) (hmove : Move registry s deed s') :
    s'.traffic.Linked (acts (deeds ++ [deed])) := by
  cases hmove with
  | whole _ hstep =>
    rw [acts_act]
    exact h.step hstep hfew
  | letGo hb hm hact =>
    rw [acts_act]
    -- The entry is taken out now and the notice comes later, which is nothing to the calls.
    exact (h.act hfew hm hact).congr rfl (Maker.sameCalls_letsGo hact hb)
  | notice hid =>
    rw [acts_notice]
    exact h.congr rfl (Connection.sameCalls_post _ _)

/-- Makers come and do not go. -/
theorem makers_length_le_move (hmove : Move registry s deed s') :
    s.traffic.makers.length ≤ s'.traffic.makers.length := by
  cases hmove with
  | whole _ hstep => exact Traffic.makers_length_le_step hstep
  | letGo _ _ _ => simp
  | notice _ => exact Nat.le_refl _

/-- **What the queue takes in a step.** It takes a cancellation only where a notice is owed. -/
structure Adds (s : Parting) (deed : Deed) (s' : Parting) (more : List Message) : Prop where
  posted : s'.traffic.posted = s.traffic.posted ++ more
  cancel : ∀ message ∈ more, message.isCancel = true →
    ∃ id ∈ s.owed, deed = .notice id ∧ message = Connection.cancelMessage id
      ∧ s.traffic.connection.accepts = true

/-- **No move puts another cancellation to the queue,** if nobody sends one by hand. -/
theorem exists_adds (hmove : Move registry s deed s')
    (hown : ∀ params, deed ≠ .act (.other (.notify Catalogue.cancel.name params))) :
    ∃ more, Adds s deed s' more := by
  cases hmove with
  | whole ha hstep =>
    refine ⟨_, Traffic.posted_step hstep, fun message hmem hcancel => ?_⟩
    -- What the queue takes has been offered, and who does not let go of a call offers no
    -- cancellation.
    have hoffer := Option.mem_toList.mp (List.mem_filter.mp hmem).1
    rw [Traffic.isCancel_offer? ha (fun params heq => hown params (by rw [heq])) hoffer] at hcancel
    cases hcancel
  | letGo _ _ _ => exact ⟨[], by simp, by simp⟩
  | @notice id hid =>
    refine ⟨_, rfl, fun message hmem _ => ⟨id, hid, rfl, ?_⟩⟩
    rw [Connection.enqueued_eq] at hmem
    split at hmem
    · case isTrue haccepts => exact ⟨by simpa using hmem, haccepts⟩
    · cases hmem

/-- **Notices are kept count of.** -/
structure Kept (registry : Registry) (deeds : List Deed) (s : Parting) : Prop where
  /-- The makers, the table and the acts tell one story. -/
  linked : s.traffic.Linked (acts deeds)
  /-- The notices that a call is good for have been taken, are owed, or are lost. While the queue
  takes messages none is lost. -/
  spent : ∀ k < UInt32.size, ∃ lost, s.traffic.posted.countP (·.cancels (Call.nth k).id)
      + s.owed.count (Call.nth k).id + lost = (fate (Call.nth k) (acts deeds)).notices
    ∧ (s.traffic.connection.accepts = true → lost = 0)
  /-- A maker who holds a call that waits has sent its request. -/
  held : ∀ (k : Nat) (m : Maker), s.traffic.makers[k]? = some m → m.point = .holding →
    fate m.call (acts deeds) = .waiting → Requested m.call.id s.traffic.posted
  /-- A notice is owed of a call that has been sent and let go of. -/
  owed : ∀ id ∈ s.owed, ∃ call ∈ s.traffic.calls, id = call.id ∧ LetGo registry deeds call
    ∧ Requested id s.traffic.posted
  /-- A cancellation that the queue has taken is the notice of such a call, and stands after its
  request. -/
  orderly : ∀ (i : Nat) (message : Message), s.traffic.posted[i]? = some message →
    message.isCancel = true → ∃ call ∈ s.traffic.calls,
      message = Connection.cancelMessage call.id ∧ Noticed registry deeds call
        ∧ Requested call.id (s.traffic.posted.take i)

/-- At first there is nothing to keep count of. -/
theorem kept_start : Kept registry [] {} where
  linked := Traffic.linked_start
  spent k _ := ⟨0, rfl, fun _ => rfl⟩
  held k m h := by simp at h
  owed id h := by simp at h
  orderly i message h := by simp at h

namespace Kept

/-- A maker lets go of a call that waits. It has sent the request of the call and is entitled to a
notice. -/
theorem letGo (h : Kept registry deeds s) (hrun : run? registry {} deeds = some s) {k : Nat}
    {b : Maker.Act} {m m' : Maker} {c : Connection} (hb : b.letsGo = true)
    (hm : s.traffic.makers[k]? = some m) (hact : m.act? s.traffic.connection b = some (m', c))
    (hw : fate m.call (acts deeds) = .waiting) :
    LetGo registry (deeds ++ [.act (.maker k b)]) m.call
      ∧ Requested m.call.id s.traffic.posted := by
  have hmem := (h.linked.call_eq hm).2
  constructor
  · refine ⟨deeds, b, [], s, ?_, hb, hrun, (h.linked.booked.entries _).mpr ⟨hmem, hw⟩⟩
    rw [h.linked.serial_eq hm]
  · refine h.held k m hm ?_ hw
    have hagrees := h.linked.agrees k m hm
    rw [hw] at hagrees
    -- Who has been told an outcome or has quit has no call that waits.
    rcases (Maker.letsGo_act? hact hb).1 with hp | ⟨o, hp⟩ | hp
    · exact hp
    · rw [hp] at hagrees
      exact hagrees.elim
    · rw [hp] at hagrees
      exact hagrees.elim

/-- What is owed stays owed until it is put to the queue, and is owed of a call that was let go of.
-/
theorem owed_move (h : Kept registry deeds s) (hrun : run? registry {} deeds = some s)
    (hfew : s.traffic.makers.length ≤ UInt32.size) (hmove : Move registry s deed s')
    (hcalls : ∀ call ∈ s.traffic.calls, call ∈ s'.traffic.calls) {more : List Message}
    (hadds : Adds s deed s' more) :
    ∀ id ∈ s'.owed, ∃ call ∈ s'.traffic.calls, id = call.id
      ∧ LetGo registry (deeds ++ [deed]) call ∧ Requested id s'.traffic.posted := by
  have hearlier : ∀ id ∈ s.owed, ∃ call ∈ s'.traffic.calls, id = call.id
      ∧ LetGo registry (deeds ++ [deed]) call ∧ Requested id s'.traffic.posted := by
    intro id hid
    obtain ⟨call, hcall, heq, hgone, hrequest⟩ := h.owed id hid
    rw [hadds.posted]
    exact ⟨call, hcalls call hcall, heq, hgone.append _, hrequest.append _⟩
  intro id hid
  -- Only who lets go of a call adds to what is owed.
  cases hmove with
  | whole _ _ => exact hearlier id hid
  | notice _ => exact hearlier id (List.mem_of_mem_erase hid)
  | letGo hb hm hact =>
    rcases List.mem_append.mp hid with hold | hnew
    · exact hearlier id hold
    · rcases h.linked.taken_eq hfew hm hb hact with ⟨hw, htaken⟩ | ⟨-, htaken⟩
      · rw [htaken, List.mem_singleton] at hnew
        subst hnew
        obtain ⟨hgone, hrequest⟩ := h.letGo hrun hb hm hact hw
        exact ⟨_, hcalls _ (h.linked.call_eq hm).2, rfl, hgone, hrequest⟩
      · rw [htaken] at hnew
        cases hnew

/-- A maker who has come to hold a call that waits has sent its request, and one who has held it
before had done so. -/
theorem held_move (h : Kept registry deeds s)
    (hlinked : s'.traffic.Linked (acts (deeds ++ [deed]))) (hmove : Move registry s deed s')
    {more : List Message} (hadds : Adds s deed s' more) :
    ∀ (k : Nat) (m : Maker), s'.traffic.makers[k]? = some m → m.point = .holding →
      fate m.call (acts (deeds ++ [deed])) = .waiting → Requested m.call.id s'.traffic.posted := by
  intro k m hm hp hw
  -- Nobody comes to hold a call by letting go of one, nor by giving notice.
  cases hmove with
  | whole _ hstep =>
    rw [acts_act] at hlinked hw
    rcases h.linked.requested hlinked hstep hm hp hw with ⟨hm, hw⟩ | hrequest
    · rw [hadds.posted]
      exact (h.held k m hm hp hw).append _
    · exact hrequest
  | @letGo j b m₀ m₁ c hb hm₀ hact =>
    rw [acts_act] at hw
    by_cases hj : j = k
    · subst hj
      have hlt : j < s.traffic.makers.length := (List.getElem?_eq_some_iff.mp hm₀).1
      obtain rfl : m₁ = m := by simpa [hlt] using hm
      exact absurd hp (Maker.letsGo_act? hact hb).2.1
    · rw [List.getElem?_set_ne hj] at hm
      exact h.held k m hm hp (h.linked.waiting_before hm hp hw)
  | notice _ =>
    rw [acts_notice] at hw
    rw [hadds.posted]
    exact (h.held k m hm hp hw).append _

/-- A cancellation that is new stands after everything that there was, and so after the request. -/
theorem orderly_move (h : Kept registry deeds s) (hrun : run? registry {} deeds = some s)
    (hcalls : ∀ call ∈ s.traffic.calls, call ∈ s'.traffic.calls) {more : List Message}
    (hadds : Adds s deed s' more) :
    ∀ (i : Nat) (message : Message), s'.traffic.posted[i]? = some message →
      message.isCancel = true → ∃ call ∈ s'.traffic.calls,
        message = Connection.cancelMessage call.id ∧ Noticed registry (deeds ++ [deed]) call
          ∧ Requested call.id (s'.traffic.posted.take i) := by
  intro i message hi hcancel
  rw [hadds.posted, List.getElem?_append] at hi
  rw [hadds.posted, List.take_append]
  split at hi
  · obtain ⟨call, hcall, heq, hnoticed, hrequest⟩ := h.orderly i message hi hcancel
    exact ⟨call, hcalls call hcall, heq, hnoticed.append _, hrequest.append _⟩
  · case isFalse hlast =>
    -- The message is new, and everything before the step stands in front of it.
    obtain ⟨id, hid, rfl, heq, haccepts⟩ :=
      hadds.cancel message (List.mem_of_getElem? hi) hcancel
    obtain ⟨call, hcall, rfl, hgone, hrequest⟩ := h.owed id hid
    rw [List.take_of_length_le (Nat.le_of_not_lt hlast)]
    have hopen := (Connection.accepts_eq_true_iff _).mp haccepts
    exact ⟨call, hcalls call hcall, heq, ⟨deeds, [], s, rfl, hgone, hrun, hopen⟩,
      hrequest.append _⟩

/-- Only a notice that is put to the queue adds to the cancellations of an id. -/
theorem countP_more {more : List Message} (hadds : Adds s deed s' more) {i : RequestId}
    (hne : deed ≠ .notice i) : more.countP (·.cancels i) = 0 := by
  rw [List.countP_eq_zero]
  intro message hmem hcancels
  obtain ⟨id, -, rfl, rfl, -⟩ :=
    hadds.cancel message hmem (Message.isCancel_of_cancels hcancels)
  rw [Message.cancels_cancelMessage] at hcancels
  exact hne (by rw [hcancels])

/-- An entry that is taken out becomes a notice that is owed, and a notice that is owed becomes one
that is taken by the queue or lost. -/
theorem spent_move (h : Kept registry deeds s) (hfew : s.traffic.makers.length ≤ UInt32.size)
    (hmove : Move registry s deed s') {more : List Message} (hadds : Adds s deed s' more) :
    ∀ j < UInt32.size, ∃ lost, s'.traffic.posted.countP (·.cancels (Call.nth j).id)
        + s'.owed.count (Call.nth j).id + lost
          = (fate (Call.nth j) (acts (deeds ++ [deed]))).notices
      ∧ (s'.traffic.connection.accepts = true → lost = 0) := by
  intro j hj
  obtain ⟨lost, hspent, hlost⟩ := h.spent j hj
  rw [hadds.posted, List.countP_append]
  -- Each of the three terms is followed: what the queue has taken, what is owed, and what the call
  -- is good for.
  cases hmove with
  | whole ha hstep =>
    refine ⟨lost, ?_, fun haccepts => hlost ?_⟩
    · rw [countP_more hadds (by simp), acts_act, fate_concat, Fate.notices_next_whole _ _ ha]
      exact hspent
    · rw [Traffic.accepts_step hstep, Bool.and_eq_true] at haccepts
      exact haccepts.1
  | @letGo k b m m' c hb hm hact =>
    have hcall := (h.linked.call_eq hm).1
    have hlt : k < s.traffic.makers.length := (List.getElem?_eq_some_iff.mp hm).1
    refine ⟨lost, ?_, hlost⟩
    rw [countP_more hadds (by simp), acts_act, fate_concat, List.count_append]
    by_cases hjk : j = k
    · subst hjk
      rcases h.linked.taken_eq hfew hm hb hact with ⟨hw, htaken⟩ | ⟨hnw, htaken⟩
      · -- The call waited and had no notice, and now it is good for one.
        rw [hcall] at hw
        have hzero : Fate.waiting.notices = 0 := rfl
        have hone : (Fate.waiting.next (Call.nth j) (.maker j b)).notices = 1 :=
          Fate.notices_next_letsGo hb
        rw [hw, hzero] at hspent
        rw [htaken, hcall, hw, hone, List.count_singleton_self]
        omega
      · rw [hcall] at hnw
        rw [htaken, List.count_nil, Fate.notices_next_of_ne_waiting hnw]
        omega
    · -- The entry of another call has another id.
      have hid : (Call.nth k).id ≠ (Call.nth j).id :=
        fun heq => hjk (Call.nth_inj (by omega) hj heq).symm
      have hother : (Call.nth j).id ∉ s.traffic.connection.calls.taken c.calls m.call.id := by
        rw [hcall, CallTable.taken]
        split
        · simpa using hid.symm
        · simp
      rw [List.count_eq_zero.mpr hother, Fate.next_of_ne (Ne.symm hjk)]
      omega
  | @notice id hid =>
    rw [acts_notice]
    change ∃ lost, _ + (s.owed.erase id).count (Call.nth j).id + lost = _ ∧ _
    have hmore : more = s.traffic.connection.enqueued (some (Connection.cancelMessage id)) :=
      (List.append_cancel_left hadds.posted).symm
    have hsame := (Connection.samePhase_post s.traffic.connection
      (Connection.cancelMessage id)).accepts
    by_cases hj : (Call.nth j).id = id
    · have hsome : 0 < s.owed.count id := List.count_pos_iff.mpr hid
      rw [hj] at hspent ⊢
      rw [List.count_erase_self, hmore, Connection.enqueued_eq]
      by_cases haccepts : s.traffic.connection.accepts = true
      · refine ⟨lost, ?_, fun _ => hlost haccepts⟩
        have hone : [Connection.cancelMessage id].countP (·.cancels id) = 1 := by
          simp [Message.cancels_cancelMessage]
        rw [if_pos haccepts, Option.toList_some, hone]
        omega
      · -- The queue takes nothing any more, and the notice is lost.
        refine ⟨lost + 1, ?_, fun haccepts' => absurd (hsame.symm.trans haccepts') haccepts⟩
        rw [if_neg haccepts, List.countP_nil]
        omega
    · refine ⟨lost, ?_, fun haccepts => hlost (hsame.symm.trans haccepts)⟩
      rw [countP_more hadds (by simpa using fun heq => hj heq.symm), List.count_erase_of_ne hj]
      exact hspent

/-- **Every step keeps count of the notices.** -/
theorem step (h : Kept registry deeds s) (hrun : run? registry {} deeds = some s)
    (hfew : s.traffic.makers.length ≤ UInt32.size)
    (hown : ∀ params, deed ≠ .act (.other (.notify Catalogue.cancel.name params)))
    (hstep : s.step? registry deed = some s') : Kept registry (deeds ++ [deed]) s' := by
  have hmove := move_of_step? hstep
  have hlinked := linked_move h.linked hfew hmove
  have hcalls := h.linked.calls_subset hlinked (makers_length_le_move hmove)
  obtain ⟨more, hadds⟩ := exists_adds hmove hown
  exact ⟨hlinked, h.spent_move hfew hmove hadds, h.held_move hlinked hmove hadds,
    h.owed_move hrun hfew hmove hcalls hadds, h.orderly_move hrun hcalls hadds⟩

end Kept

/-! ## Every run -/

/-- Over a whole run as well, makers do not go. -/
theorem makers_length_le_run (hrun : s.run? registry deeds = some s') :
    s.traffic.makers.length ≤ s'.traffic.makers.length :=
  foldlM_induction (P := fun _ t => s.traffic.makers.length ≤ t.traffic.makers.length) hrun
    (Nat.le_refl _)
    fun _ _ _ _ _ ih hstep => Nat.le_trans ih (makers_length_le_move (move_of_step? hstep))

/-- **Count is kept in every run** of at most 2^32 calls, in which nobody sends cancellations by
hand. -/
theorem kept_run (hrun : run? registry {} deeds = some s)
    (hfew : s.traffic.makers.length ≤ UInt32.size)
    (hown : ∀ params, .act (.other (.notify Catalogue.cancel.name params)) ∉ deeds) :
    Kept registry deeds s := by
  refine foldlM_induction (P := fun deeds s => s.traffic.makers.length ≤ UInt32.size →
    (∀ params, .act (.other (.notify Catalogue.cancel.name params)) ∉ deeds) →
      Kept registry deeds s) hrun (fun _ _ => kept_start) ?_ hfew hown
  intro deeds t deed t' ht ih hstep hfew' hown'
  have hfew : t.traffic.makers.length ≤ UInt32.size :=
    Nat.le_trans (makers_length_le_move (move_of_step? hstep)) hfew'
  refine (ih hfew fun params hmem => hown' params (by simp [hmem])).step ht hfew ?_ hstep
  rintro params rfl
  exact hown' params (by simp)

/-- A run goes on from where the first of its deeds have led. -/
theorem run?_rest {earlier later : List Deed} {t : Parting}
    (hrun : s.run? registry (earlier ++ later) = some s')
    (ht : s.run? registry earlier = some t) : t.run? registry later = some s' := by
  rw [run?, List.foldlM_append] at hrun
  obtain ⟨t', ht', hrest⟩ := Option.bind_eq_some_iff.mp hrun
  obtain rfl : t = t' := Option.some.inj (ht.symm.trans ht')
  exact hrest

/-- Who has let go of a call while its entry was in the table is entitled to a notice. -/
theorem notices_of_letGo (hrun : run? registry {} deeds = some s)
    (hfew : s.traffic.makers.length ≤ UInt32.size)
    (hown : ∀ params, .act (.other (.notify Catalogue.cancel.name params)) ∉ deeds)
    (h : LetGo registry deeds call) : (fate call (acts deeds)).notices = 1 := by
  obtain ⟨earlier, b, later, t, rfl, hb, ht, hentry⟩ := h
  have hkept := kept_run ht (Nat.le_trans (makers_length_le_run (run?_rest hrun ht)) hfew)
    fun params hmem => hown params (List.mem_append_left _ hmem)
  obtain ⟨-, hw⟩ := (hkept.linked.booked.entries call).mp hentry
  -- The call has ended by this act, and stays so.
  have hone : (fate call (acts earlier ++ [.maker call.serial b])).notices = 1 := by
    rw [fate_concat, hw]
    exact Fate.notices_next_letsGo hb
  have hacts : acts (earlier ++ .act (.maker call.serial b) :: later)
      = (acts earlier ++ [.maker call.serial b]) ++ acts later := by
    simp [acts]
  -- Of all fates only an end is good for a notice, and an end is kept.
  cases hf : fate call (acts earlier ++ [.maker call.serial b]) with
  | ended e =>
    rw [hacts, fate_append_of_ended hf, ← hf]
    exact hone
  | _ =>
    rw [hf] at hone
    cases hone

/-- What the queue has taken stays. -/
theorem posted_subset_run (hrun : s.run? registry deeds = some s') :
    ∀ message ∈ s.traffic.posted, message ∈ s'.traffic.posted := by
  refine foldlM_induction (P := fun _ t => ∀ message ∈ s.traffic.posted,
    message ∈ t.traffic.posted) hrun (fun _ => id) ?_
  intro _ t deed t' _ ih hstep message hmem
  cases move_of_step? hstep with
  | whole _ htraffic =>
    rw [Traffic.posted_step htraffic]
    exact List.mem_append_left _ (ih message hmem)
  | letGo _ _ _ => exact ih message hmem
  | notice _ => exact List.mem_append_left _ (ih message hmem)

/-- A notice that the queue took messages for is in the record. -/
theorem mem_posted_of_noticed (hrun : run? registry {} deeds = some s)
    (h : Noticed registry deeds call) : Connection.cancelMessage call.id ∈ s.traffic.posted := by
  obtain ⟨earlier, later, t, rfl, -, ht, hopen⟩ := h
  have haccepts := (Connection.accepts_eq_true_iff _).mpr hopen
  have hrest := run?_rest hrun ht
  rw [run?, List.foldlM_cons] at hrest
  obtain ⟨u, hstep, hlater⟩ := Option.bind_eq_some_iff.mp hrest
  refine posted_subset_run hlater _ ?_
  simp only [step?] at hstep
  split at hstep
  · cases hstep
    simp [putNotice, Connection.enqueued_eq, haccepts]
  · cases hstep

/-- Who lets go of a call that waits and gives notice of it at once, on a connection that is not
closing, has given notice in time. -/
theorem noticed_of_prompt (hrun : run? registry {} deeds = some s) {earlier later : List Deed}
    {b : Maker.Act} {t : Parting}
    (hdeeds : deeds = earlier ++ .act (.maker call.serial b) :: .notice call.id :: later)
    (hb : b.letsGo = true) (ht : run? registry {} earlier = some t)
    (hentry : (call.id, call.serial) ∈ t.traffic.connection.calls.entries)
    (hclosing : t.traffic.connection.phase ≠ .closing)
    (hclosed : t.traffic.connection.phase ≠ .closed)
    (hable : t.traffic.connection.writerFailed = false) : Noticed registry deeds call := by
  subst hdeeds
  obtain ⟨u, hstep, -⟩ := Option.bind_eq_some_iff.mp (run?_rest hrun ht)
  have hu : run? registry {} (earlier ++ [.act (.maker call.serial b)]) = some u := by
    rw [run?, List.foldlM_append]
    exact Option.bind_eq_some_iff.mpr ⟨t, ht, by simpa using hstep⟩
  refine ⟨_, later, u, by simp, ⟨earlier, b, [], t, rfl, hb, ht, hentry⟩, hu, ?_⟩
  -- Taking the entry out leaves the connection as open as it was.
  cases move_of_step? hstep with
  | whole ha _ => exact absurd (hb.symm.trans ha) (by simp)
  | letGo _ _ _ => exact ⟨hclosing, hclosed, hable⟩

/-- A writer fails by an act of its own, and not by what others do. -/
theorem writerFailed_run (hrun : run? registry {} deeds = some s)
    (hable : .act (.other .failWriter) ∉ deeds) : s.traffic.connection.writerFailed = false := by
  refine foldlM_induction (P := fun deeds s => .act (.other .failWriter) ∉ deeds →
    s.traffic.connection.writerFailed = false) hrun (fun _ => rfl) ?_ hable
  intro deeds t deed t' _ ih hstep hable
  rw [List.mem_append, List.mem_singleton, not_or] at hable
  have hbefore := ih hable.1
  cases move_of_step? hstep with
  | whole _ htraffic =>
    exact (Traffic.writerFailed_step htraffic fun heq => hable.2 (by rw [heq])).trans hbefore
  | letGo _ _ _ => exact hbefore
  | notice _ => exact (Connection.samePhase_post _ _).writerFailed.trans hbefore

/-- **What has been given notice of a call.** -/
structure Exact (registry : Registry) (deeds : List Deed) (s : Parting) (call : Call) : Prop where
  /-- The queue takes at most one notice of the call. -/
  once : s.traffic.posted.countP (·.cancels call.id) ≤ 1
  /-- It takes one exactly if the maker has let go of the call while its entry was in the table, and
  the connection was not closing yet when it was given notice of. -/
  exactly : s.traffic.posted.countP (·.cancels call.id) = 1 ↔ Noticed registry deeds call
  /-- So it takes one of a call that is let go of as a whole, with nobody getting in between, while
  its entry is in the table and the connection is not closing. -/
  prompt : ∀ earlier later b t,
    deeds = earlier ++ .act (.maker call.serial b) :: .notice call.id :: later → b.letsGo = true →
      run? registry {} earlier = some t →
        (call.id, call.serial) ∈ t.traffic.connection.calls.entries →
          t.traffic.connection.phase ≠ .closing → t.traffic.connection.phase ≠ .closed →
            t.traffic.connection.writerFailed = false →
              s.traffic.posted.countP (·.cancels call.id) = 1
  /-- As long as the connection is not closing no notice is lost: once the maker has let go of the
  call, it has been given notice of or is about to be. -/
  kept : LetGo registry deeds call → s.traffic.connection.phase ≠ .closing →
    s.traffic.connection.phase ≠ .closed → s.traffic.connection.writerFailed = false →
      s.traffic.posted.countP (·.cancels call.id) = 1 ∨ call.id ∈ s.owed
  /-- The notice stands after the request of the call. -/
  after : ∀ (i : Nat) (message : Message), s.traffic.posted[i]? = some message →
    message.cancels call.id = true → Requested call.id (s.traffic.posted.take i)
  /-- There is none of a call for which there has been an outcome: it was answered, or failed with
  the connection, or its parameters cannot be written. -/
  settled : ∀ o, (call.serial, o) ∈ s.traffic.connection.calls.outcomes →
    s.traffic.posted.countP (·.cancels call.id) = 0

/-- **So of every call there is the notice that there should be.** The two ends of the story are put
together here: `Kept.spent` says how many notices there are, `Kept.orderly` which and where. -/
theorem exact_run (hrun : run? registry {} deeds = some s)
    (hfew : s.traffic.makers.length ≤ UInt32.size)
    (hown : ∀ params, .act (.other (.notify Catalogue.cancel.name params)) ∉ deeds)
    (hcall : call ∈ s.traffic.calls) : Exact registry deeds s call := by
  have h := kept_run hrun hfew hown
  obtain ⟨lost, hspent, hlost⟩ : ∃ lost, s.traffic.posted.countP (·.cancels call.id)
        + s.owed.count call.id + lost = (fate call (acts deeds)).notices
      ∧ (s.traffic.connection.accepts = true → lost = 0) := by
    rw [h.linked.calls] at hcall
    obtain ⟨k, hk, rfl⟩ := List.mem_map.mp hcall
    rw [List.mem_range] at hk
    exact h.spent k (by omega)
  have honce : s.traffic.posted.countP (·.cancels call.id) ≤ 1 := by
    have hmost := (fate call (acts deeds)).notices_le_one
    omega
  -- Of two calls with one id there is only one, so a cancellation of the id is of this call.
  have hnotice : ∀ (i : Nat) (message : Message), s.traffic.posted[i]? = some message →
      message.cancels call.id = true →
        Noticed registry deeds call ∧ Requested call.id (s.traffic.posted.take i) := by
    intro i message hi hcancels
    obtain ⟨other, hother, rfl, hnoticed, hrequest⟩ :=
      h.orderly i message hi (Message.isCancel_of_cancels hcancels)
    rw [Message.cancels_cancelMessage] at hcancels
    obtain rfl := h.linked.eq_of_id hfew hcall hother hcancels
    exact ⟨hnoticed, hrequest⟩
  have hone : Noticed registry deeds call → s.traffic.posted.countP (·.cancels call.id) = 1 := by
    intro hnoticed
    have hpos : 0 < s.traffic.posted.countP (·.cancels call.id) :=
      List.countP_pos_iff.mpr ⟨_, mem_posted_of_noticed hrun hnoticed,
        (Message.cancels_cancelMessage _ _).mpr rfl⟩
    omega
  refine ⟨honce, ⟨?_, hone⟩, ?_, ?_, fun i message hi hcancels => (hnotice i message hi hcancels).2,
    ?_⟩
  · intro hone
    have hpos : 0 < s.traffic.posted.countP (·.cancels call.id) := by omega
    obtain ⟨message, hmem, hcancels⟩ := List.countP_pos_iff.mp hpos
    obtain ⟨i, hi⟩ := List.mem_iff_getElem?.mp hmem
    exact (hnotice i message hi hcancels).1
  · intro earlier later b t hdeeds hb ht hentry hclosing hclosed hable
    exact hone (noticed_of_prompt hrun hdeeds hb ht hentry hclosing hclosed hable)
  · -- As long as messages are taken nothing has been lost, so the notice has been taken or is owed.
    intro hgone hclosing hclosed hable
    have hone := notices_of_letGo hrun hfew hown hgone
    have hnone := hlost ((Connection.accepts_eq_true_iff _).mpr ⟨hclosing, hclosed, hable⟩)
    by_cases howed : call.id ∈ s.owed
    · exact .inr howed
    · rw [List.count_eq_zero.mpr howed] at hspent
      exact .inl (by omega)
  · intro o ho
    -- An outcome in the log was left by an ending that entitles nobody to a notice.
    have hnoted : (call.serial, o) ∈ ((fate call (acts deeds)).noted?.map
        fun o => (call.serial, o)).toList := by
      rw [← h.linked.booked.outcomes call hcall]
      exact List.mem_filter.mpr ⟨ho, by simp⟩
    obtain ⟨o', ho', -⟩ := Option.map_eq_some_iff.mp (Option.mem_toList.mp hnoted)
    have hnone := Fate.notices_of_noted? ho'
    omega

/-- **Notices are exact.** In every run of at most 2^32 calls in which nobody sends cancellations by
hand, the queue takes notices of calls as `Exact` says, and takes no other cancellations. As long as
the writer does not fail, it is only for the connection to be closing that a notice is lost. -/
theorem notices_exact (hrun : run? registry {} deeds = some s)
    (hfew : s.traffic.calls.length ≤ UInt32.size)
    (hown : ∀ params, .act (.other (.notify Catalogue.cancel.name params)) ∉ deeds) :
    (∀ call ∈ s.traffic.calls, Exact registry deeds s call)
    ∧ (∀ message ∈ s.traffic.posted, message.isCancel = true →
      ∃ call ∈ s.traffic.calls, message = Connection.cancelMessage call.id)
    ∧ (.act (.other .failWriter) ∉ deeds → ∀ earlier later t, deeds = earlier ++ later →
      run? registry {} earlier = some t → t.traffic.connection.writerFailed = false) := by
  have hmakers : s.traffic.makers.length ≤ UInt32.size := by simpa [Traffic.calls] using hfew
  refine ⟨fun call hcall => exact_run hrun hmakers hown hcall, ?_, ?_⟩
  · intro message hmem hcancel
    obtain ⟨i, hi⟩ := List.mem_iff_getElem?.mp hmem
    obtain ⟨call, hcall, heq, -⟩ := (kept_run hrun hmakers hown).orderly i message hi hcancel
    exact ⟨call, hcall, heq⟩
  · rintro hable earlier later t rfl ht
    exact writerFailed_run ht fun hmem => hable (List.mem_append_left _ hmem)

/-- Four calls. The first is cancelled and then let go of, the second is answered and let go of, the
third is let go of when the connection closes, and the fourth fails with the connection. -/
def fourPartings : List Deed :=
  [.act (.draw "first" (some .null)), .act (.maker 0 .enter), .act (.maker 0 .send),
    .act (.draw "second" (some .null)), .act (.maker 1 .enter), .act (.maker 1 .send),
    .act (.draw "third" (some .null)), .act (.maker 2 .enter), .act (.maker 2 .send),
    .act (.draw "fourth" (some .null)), .act (.maker 3 .enter), .act (.maker 3 .send),
    .act (.maker 0 .cancel), .notice (.number 1), .act (.maker 0 .giveUp),
    .act (.receive (Text.Utf8.encodeString "\x7b\"id\":2,\"result\":true\x7d")),
    .act (.maker 1 .await), .act (.maker 1 .giveUp), .act (.maker 2 .giveUp),
    .act (.other .beginClosing), .notice (.number 3), .act .closeCalls, .act (.maker 3 .giveUp)]

theorem notices_exact_fourPartings :
    ∃ s, run? {} {} fourPartings = some s
      ∧ s.traffic.calls.map (fun call => s.traffic.posted.countP (·.cancels call.id)) = [1, 0, 0, 0]
      ∧ ∀ call ∈ s.traffic.calls, Exact {} fourPartings s call := by
  have hcounts : (run? {} {} fourPartings).map (fun s => s.traffic.calls.map fun call =>
      s.traffic.posted.countP (·.cancels call.id)) = some [1, 0, 0, 0] := by decide +kernel
  obtain ⟨s, hrun, heq⟩ := Option.map_eq_some_iff.mp hcounts
  have hlength : s.traffic.calls.length = 4 := by simpa using congrArg List.length heq
  refine ⟨s, hrun, heq, (notices_exact hrun (by rw [hlength]; decide) ?_).1⟩
  simp [fourPartings]

end Parting

namespace Traffic

/-! ## Letting go as a whole

In a traffic a maker takes its entry out and gives notice of it in one act, and nobody gets in
between. So there is a notice of a call exactly if its maker has let go of it while it was waiting
and the connection was not closing.
-/

variable {registry : Registry} {acts : List Act} {s s' : Traffic} {call : Call}

/-- **A maker has let go of a call while its entry was in the table and the connection was not
closing yet** and its writer had not failed. -/
def LetGoInTime (registry : Registry) (acts : List Act) (call : Call) : Prop :=
  ∃ earlier b later t, acts = earlier ++ .maker call.serial b :: later ∧ b.letsGo = true
    ∧ run? registry {} earlier = some t ∧ (call.id, call.serial) ∈ t.connection.calls.entries
    ∧ t.connection.phase ≠ .closing ∧ t.connection.phase ≠ .closed
    ∧ t.connection.writerFailed = false

theorem LetGoInTime.append (h : LetGoInTime registry acts call) (more : List Act) :
    LetGoInTime registry (acts ++ more) call := by
  obtain ⟨earlier, b, later, t, rfl, hrest⟩ := h
  exact ⟨earlier, b, later ++ more, t, by simp, hrest⟩

/-- **What the queue takes when a maker lets go of its call:** the notice, if the call waits. -/
theorem Linked.posted_letsGo (h : Linked acts s) (hfew : s.makers.length ≤ UInt32.size) {k : Nat}
    {b : Maker.Act} {m : Maker} (hb : b.letsGo = true) (hm : s.makers[k]? = some m)
    (hstep : s.step? registry (.maker k b) = some s') :
    fate m.call acts = .waiting ∧ s'.posted = s.posted
        ++ s.connection.enqueued (some (Connection.cancelMessage m.call.id))
    ∨ fate m.call acts ≠ .waiting ∧ s'.posted = s.posted := by
  obtain ⟨t, ht, rfl⟩ := step?_eq_some hstep
  obtain ⟨m₀, m', c, hm₀, hact, rfl⟩ := perform?_maker ht
  obtain rfl : m = m₀ := Option.some.inj (hm.symm.trans hm₀)
  have hmem := (h.call_eq hm).2
  rcases Maker.connection_letsGo hact hb with ⟨rfl, hwhy⟩ | ⟨serial, hfind, rfl⟩
  · -- Nothing is done, so the call does not wait: it has no entry, or has left an outcome.
    have hnw : fate m.call acts ≠ .waiting := by
      intro hw
      rcases hwhy with hnone | hsome
      · rw [h.booked.find?_of_waiting hmem hw] at hnone
        cases hnone
      · rw [Connection.outcome?, (h.booked.outcome?_eq hmem).1 hw] at hsome
        cases hsome
    refine .inr ⟨hnw, ?_⟩
    change s.posted ++ queuedSince s.connection.queue s.connection.queue = s.posted
    rw [queuedSince_self, List.append_nil]
  · have hw : fate m.call acts = .waiting := by
      by_contra hnw
      rw [h.find?_eq_none hfew hmem hnw] at hfind
      cases hfind
    -- What the queue takes does not depend on the table.
    have hputs : s.connection.Puts (some (Connection.cancelMessage m.call.id))
        (({ s.connection with calls := s.connection.calls.erase m.call.id } : Connection).post
          (Connection.cancelMessage m.call.id)) :=
      (Connection.puts_post _ _).after ⟨rfl, rfl⟩ rfl
    exact .inl ⟨hw, congrArg (s.posted ++ ·) hputs.queuedSince⟩

/-- The notices in the record are of calls that were let go of in time. -/
theorem letGoInTime_of_mem_posted (hrun : run? registry {} acts = some s)
    (hfew : s.makers.length ≤ UInt32.size)
    (hown : ∀ params, .other (.notify Catalogue.cancel.name params) ∉ acts) :
    ∀ message ∈ s.posted, message.isCancel = true → ∃ call ∈ s.calls,
      message = Connection.cancelMessage call.id ∧ LetGoInTime registry acts call := by
  refine run_induction (P := fun acts s => s.makers.length ≤ UInt32.size →
    (∀ params, .other (.notify Catalogue.cancel.name params) ∉ acts) →
      ∀ message ∈ s.posted, message.isCancel = true → ∃ call ∈ s.calls,
        message = Connection.cancelMessage call.id ∧ LetGoInTime registry acts call)
    hrun (fun _ _ message hmem => by cases hmem) ?_ hfew hown
  intro acts t a t' ht ih hstep hfew' hown' message hmem hcancel
  have hfew : t.makers.length ≤ UInt32.size :=
    Nat.le_trans (makers_length_le_step hstep) hfew'
  have h := linked_run ht hfew
  have hcalls := h.calls_subset (h.step hstep hfew) (makers_length_le_step hstep)
  have hearlier : message ∈ t.posted → ∃ call ∈ t'.calls,
      message = Connection.cancelMessage call.id ∧ LetGoInTime registry (acts ++ [a]) call := by
    intro hold
    obtain ⟨call, hcall, heq, hgone⟩ :=
      ih hfew (fun params hin => hown' params (by simp [hin])) message hold hcancel
    exact ⟨call, hcalls call hcall, heq, hgone.append _⟩
  by_cases ha : a.letsGo = false
  · -- Nobody lets go of a call, so a message that is new cancels nothing.
    rw [posted_step hstep] at hmem
    refine (List.mem_append.mp hmem).elim hearlier fun hnew => ?_
    have hoffer := Option.mem_toList.mp (List.mem_filter.mp hnew).1
    rw [isCancel_offer? ha (fun params heq => hown' params (by simp [heq])) hoffer] at hcancel
    cases hcancel
  · rw [Bool.not_eq_false] at ha
    cases a with
    | maker k b =>
      obtain ⟨u, hu, -⟩ := step?_eq_some hstep
      obtain ⟨m, -, -, hm, -, -⟩ := perform?_maker hu
      rcases h.posted_letsGo hfew ha hm hstep with ⟨hw, hposted⟩ | ⟨-, hposted⟩
      · rw [hposted] at hmem
        refine (List.mem_append.mp hmem).elim hearlier fun hnew => ?_
        obtain ⟨hcall, hin⟩ := h.call_eq hm
        rw [Connection.enqueued_eq] at hnew
        split at hnew
        · case isTrue haccepts =>
          refine ⟨m.call, hcalls _ hin, by simpa using hnew, acts, b, [], t, ?_, ha, ht,
            (h.booked.entries _).mpr ⟨hin, hw⟩, (Connection.accepts_eq_true_iff _).mp haccepts⟩
          rw [h.serial_eq hm]
        · cases hnew
      · exact hearlier (hposted ▸ hmem)
    | _ => cases ha

/-- There is never more than one notice of a call. -/
theorem countP_cancels_le_one (hrun : run? registry {} acts = some s)
    (hfew : s.makers.length ≤ UInt32.size)
    (hown : ∀ params, .other (.notify Catalogue.cancel.name params) ∉ acts)
    (hcall : call ∈ s.calls) : s.posted.countP (·.cancels call.id) ≤ 1 := by
  obtain ⟨deeds, hdeeds, rfl⟩ := Parting.run?_prompt hrun
  refine (Parting.exact_run hdeeds hfew (fun params hmem => hown params ?_) hcall).once
  exact List.mem_filterMap.mpr ⟨_, hmem, rfl⟩

/-- **Of a call that is let go of as a whole there is one notice,** if it is let go of while it
waits and the connection is not closing, and otherwise none. -/
theorem countP_cancels_eq_one_iff (hrun : run? registry {} acts = some s)
    (hfew : s.calls.length ≤ UInt32.size)
    (hown : ∀ params, .other (.notify Catalogue.cancel.name params) ∉ acts)
    (hcall : call ∈ s.calls) :
    s.posted.countP (·.cancels call.id) = 1 ↔ LetGoInTime registry acts call := by
  have hmakers : s.makers.length ≤ UInt32.size := by simpa [calls] using hfew
  constructor
  · intro hone
    have hpos : 0 < s.posted.countP (·.cancels call.id) := by omega
    obtain ⟨message, hmem, hcancels⟩ := List.countP_pos_iff.mp hpos
    obtain ⟨other, hother, rfl, hgone⟩ := letGoInTime_of_mem_posted hrun hmakers hown message hmem
      (Message.isCancel_of_cancels hcancels)
    rw [Message.cancels_cancelMessage] at hcancels
    obtain rfl := (linked_run hrun hmakers).eq_of_id hmakers hcall hother hcancels
    exact hgone
  · rintro ⟨earlier, b, later, t, rfl, hb, ht, hentry, hopen⟩
    obtain ⟨t', ht', hrest⟩ := run?_split hrun
    obtain rfl : t = t' := Option.some.inj (ht.symm.trans ht')
    obtain ⟨u, hu, hlater⟩ := Option.bind_eq_some_iff.mp hrest
    have hfew' : t.makers.length ≤ UInt32.size :=
      Nat.le_trans (makers_length_le_run hrest) hmakers
    have h := linked_run ht hfew'
    obtain ⟨hin, hw⟩ := (h.booked.entries call).mp hentry
    obtain ⟨v, hv, -⟩ := step?_eq_some hu
    obtain ⟨m, -, -, hm, -, -⟩ := perform?_maker hv
    obtain rfl : m.call = call := h.booked.serials _ (h.call_eq hm).2 _ hin (h.serial_eq hm)
    rcases h.posted_letsGo hfew' hb hm hu with ⟨-, hposted⟩ | ⟨hnw, -⟩
    · have haccepts := (Connection.accepts_eq_true_iff _).mpr hopen
      -- The queue has taken the notice then, and what it has taken stays in the record.
      have hmem : Connection.cancelMessage m.call.id ∈ s.posted := by
        rw [posted_run hlater, hposted, Connection.enqueued_eq, if_pos haccepts]
        simp
      have hpos : 0 < s.posted.countP (·.cancels m.call.id) :=
        List.countP_pos_iff.mpr ⟨_, hmem, (Message.cancels_cancelMessage _ _).mpr rfl⟩
      have hmost := countP_cancels_le_one hrun hmakers hown hcall
      omega
    · exact absurd hw hnw


end Traffic

end FlagServer
