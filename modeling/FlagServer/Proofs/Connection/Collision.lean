import FlagServer.Proofs.Connection.Parting

/-!
# When an id comes back

The ids of calls wrap around. After 2^32 calls a new one draws the id of the first, and if the first
still waits, the table refuses the new one: it has failed before anything is sent for it. This file
is about what the maker of the refused call can do to the older one after that.

To wait for the outcome does nothing, and neither does to cancel the wait, since there is an outcome
already. To **let go** of the call does harm. It is done by id, and so it takes out the entry of the
older call and tells the other side to stop working on it; the maker of the older call finds that
the connection was closed, and a response that comes later finds nobody. Every call is let go of in
the end. This is shown of every run, however many calls it has, and there is a run in which it
happens.

None of it can use that no two calls have one id, which holds of no more than 2^32 of them. What
holds of any number is `Traffic.Coherent`: the calls are numbered in their order, no id is in the
table twice, every entry has its maker, who has begun, and a call that waits has no outcome.
-/

namespace FlagServer

/-- The call has not been entered or rejected. -/
def Point.isDrawn : Point → Bool
  | .drawn _ _ => true
  | _ => false

/-- The call has been entered, and its maker is about to send its request or to withdraw it. -/
def Point.isSending : Point → Bool
  | .entered _ _ => true
  | .unsent => true
  | _ => false

/-! ## What a maker does to the table -/

namespace Maker

/-- **What an act of a maker does to the table,** and where the maker comes to by it. -/
inductive Tables (m m' : Maker) (t t' : CallTable) : Prop where
  /-- The call fails before it has been entered. -/
  | fails (error : CallError) (hdrawn : m.point.isDrawn = true)
    (hpoint : m'.point.isDrawn = false ∧ m'.point.isSending = false)
    (htable : t' = t.deliver m.call.serial (.error error))
  /-- The call is entered. -/
  | enters (hdrawn : m.point.isDrawn = true) (hpoint : m'.point.isDrawn = false)
    (hfree : t.find? m.call.id = none)
    (htable : t' = { t with entries := t.entries ++ [(m.call.id, m.call.serial)] })
  /-- Nothing happens to the table. -/
  | keeps (hdrawn : m.point.isDrawn = false) (hpoint : m'.point.isDrawn = false)
    (hsending : m.point.isSending = false → m'.point.isSending = false) (htable : t' = t)
  /-- An entry is taken out by its id, perhaps with an outcome for whoever waited under it. -/
  | takes {serial : Nat} (hdrawn : m.point.isDrawn = false)
    (hpoint : m'.point.isDrawn = false ∧ m'.point.isSending = false)
    (hfound : t.find? m.call.id = some serial)
    (htable : t' = t.erase m.call.id
      ∨ ∃ outcome, t' = (t.erase m.call.id).deliver serial outcome)

variable {m m' : Maker} {c c' : Connection} {b : Maker.Act}

theorem tables_giveUp (hdrawn : m.point.isDrawn = false) (hcall : m'.call = m.call)
    (hpoint : m'.point.isDrawn = false ∧ m'.point.isSending = false) :
    m'.call = m.call ∧ (c.giveUp m.call.id).2.nextSerial = c.nextSerial
      ∧ Tables m m' c.calls (c.giveUp m.call.id).2.calls := by
  cases hfound : c.calls.find? m.call.id with
  | none =>
    rw [Connection.giveUp_of_none hfound]
    exact ⟨hcall, rfl, .keeps hdrawn hpoint.1 (fun _ => hpoint.2) rfl⟩
  | some serial =>
    obtain ⟨hcalls, -, hserial⟩ := Connection.giveUp_of_find? hfound
    exact ⟨hcall, hserial, .takes hdrawn hpoint hfound (.inl hcalls)⟩

/-- Every act of a maker does one of these things, and the call stays the maker's own. -/
theorem tables_act? (hact : m.act? c b = some (m', c')) :
    m'.call = m.call ∧ c'.nextSerial = c.nextSerial ∧ Tables m m' c.calls c'.calls := by
  cases step_of_act? hact with
  | rejects hpoint =>
    exact ⟨rfl, rfl, .fails .unwritable (by rw [hpoint]; rfl) ⟨rfl, rfl⟩ rfl⟩
  | isRefused hpoint =>
    exact ⟨rfl, rfl, .fails .connectionClosed (by rw [hpoint]; rfl) ⟨rfl, rfl⟩ rfl⟩
  | enters hpoint hentered =>
    obtain ⟨calls, hinsert, rfl⟩ := Option.map_eq_some_iff.mp hentered
    unfold CallTable.insert? at hinsert
    split at hinsert
    · cases hinsert
    · case isFalse hfree =>
      cases hinsert
      simp only [Bool.or_eq_true, not_or, Option.not_isSome_iff_eq_none] at hfree
      exact ⟨rfl, rfl, .enters (by rw [hpoint]; rfl) rfl hfree.2 rfl⟩
  | sends hpoint hsent =>
    obtain ⟨-, rfl⟩ := Connection.enqueue?_eq_some hsent
    exact ⟨rfl, rfl, .keeps (by rw [hpoint]; rfl) rfl (fun _ => rfl) rfl⟩
  | isUnsent hpoint =>
    have hsending : m.point.isSending = true := by rw [hpoint]; rfl
    refine ⟨rfl, rfl, .keeps (by rw [hpoint]; rfl) rfl (fun hnot => ?_) rfl⟩
    rw [hsending] at hnot
    cases hnot
  | withdraws hpoint =>
    have hdrawn : m.point.isDrawn = false := by rw [hpoint]; rfl
    cases hfound : c.calls.find? m.call.id with
    | none =>
      rw [Connection.failWaiting_of_none hfound]
      exact ⟨rfl, rfl, .keeps hdrawn rfl (fun _ => rfl) rfl⟩
    | some serial =>
      rw [Connection.failWaiting_of_find? hfound]
      exact ⟨rfl, rfl, .takes hdrawn ⟨rfl, rfl⟩ hfound (.inr ⟨_, rfl⟩)⟩
  | awaits hpoint | finds hpoint =>
    exact ⟨rfl, rfl, .keeps (by rw [hpoint]; rfl) rfl (fun _ => rfl) rfl⟩
  | cancels hpoint | quits hpoint =>
    exact tables_giveUp (by rw [hpoint]; rfl) rfl ⟨rfl, rfl⟩
  | dropsTold hpoint | dropsQuit hpoint =>
    exact tables_giveUp (by rw [hpoint]; rfl) rfl (by rw [hpoint]; exact ⟨rfl, rfl⟩)

/-- **What the maker of a refused call can do:** to let go of it acts on the id, and whatever else
it does concerns its own call at most. -/
theorem act?_refused {serial : Nat}
    (hact : m.act? c b = some (m', c')) (hfound : c.calls.find? m.call.id = some serial)
    (hsending : m.point.isSending = false) (hnone : ∀ e ∈ c.calls.entries, e.2 ≠ m.call.serial) :
    b = .giveUp ∧ c' = (c.giveUp m.call.id).2
    ∨ b ≠ .giveUp ∧ (c' = c ∨ ∃ error, c' = c.fail m.call error) := by
  cases step_of_act? hact with
  | rejects | isRefused => exact .inr ⟨by simp, .inr ⟨_, rfl⟩⟩
  | enters _ hentered =>
    -- The table refuses a call whose id is taken.
    have hrefused : c.await? m.call = none := by
      simp only [Connection.await?, CallTable.insert?, hfound, Option.isSome_some, Bool.or_true,
        if_true, Option.map_none]
    rw [hrefused] at hentered
    cases hentered
  | sends hpoint | isUnsent hpoint | withdraws hpoint =>
    rw [hpoint] at hsending
    cases hsending
  | awaits | finds => exact .inr ⟨by simp, .inl rfl⟩
  | cancels _ hwaits =>
    -- There is an outcome: the call has no entry of its own.
    have hany : (c.calls.entries.any fun e => e.2 == m.call.serial) = false :=
      List.any_eq_false.mpr fun e he => by simpa using hnone e he
    simp only [Connection.outcome?, CallTable.outcome?, hany] at hwaits
    split at hwaits <;> cases hwaits
  | quits | dropsTold | dropsQuit => exact .inl ⟨rfl, rfl⟩

end Maker

/-- A response is ignored if it has no id, or one that nobody waits under; otherwise it is the
outcome of the call that waits. -/
theorem Connection.dispatchResponse_cases (c : Connection) (r : Response) :
    c.dispatchResponse r = c
    ∨ ∃ id serial, c.calls.find? id = some serial
      ∧ c.dispatchResponse r = { c with
          calls := (c.calls.erase id).deliver serial (r.outcome.mapError .remote) } := by
  unfold dispatchResponse
  cases r.id with
  | none => exact .inl rfl
  | some id =>
    cases hfound : c.calls.find? id with
    | none => exact .inl (by simp only [CallTable.resolve?, hfound, Option.map_none])
    | some serial =>
      exact .inr ⟨id, serial, hfound, by simp only [CallTable.resolve?, hfound, Option.map_some]⟩

namespace Traffic

variable {registry : Registry} {acts : List Act} {s s' : Traffic} {a : Act} {older : Call}
  {k : Nat} {m : Maker}

/-- The table and the makers have changed like this by an act. -/
inductive Turns (s s' : Traffic) : Prop where
  /-- Not at all. -/
  | rests (htable : s'.connection.calls = s.connection.calls)
    (hserial : s'.connection.nextSerial = s.connection.nextSerial)
    (hmakers : s'.makers = s.makers)
  /-- A call is begun. -/
  | draws (method : String) (params : Option Json)
    (htable : s'.connection.calls = s.connection.calls)
    (hserial : s'.connection.nextSerial = s.connection.nextSerial + 1)
    (hmakers : s'.makers = s.makers ++ [⟨s.connection.draw.1, .drawn method params⟩])
  /-- A call that waits is answered. -/
  | answers {id : RequestId} {serial : Nat} (outcome : Except CallError Json)
    (hfound : s.connection.calls.find? id = some serial)
    (htable : s'.connection.calls = (s.connection.calls.erase id).deliver serial outcome)
    (hserial : s'.connection.nextSerial = s.connection.nextSerial)
    (hmakers : s'.makers = s.makers)
  /-- All calls that wait fail. -/
  | closes (htable : s'.connection.calls = s.connection.calls.close)
    (hserial : s'.connection.nextSerial = s.connection.nextSerial)
    (hmakers : s'.makers = s.makers)
  /-- A maker acts. -/
  | acts {k : Nat} {m m' : Maker} (hm : s.makers[k]? = some m) (hcall : m'.call = m.call)
    (hserial : s'.connection.nextSerial = s.connection.nextSerial)
    (htables : Maker.Tables m m' s.connection.calls s'.connection.calls)
    (hmakers : s'.makers = s.makers.set k m')

/-- **Every act does one of these things.** -/
theorem turns_step (hstep : s.step? registry a = some s') : Turns s s' := by
  obtain ⟨t, ht, rfl⟩ := step?_eq_some hstep
  have hrests : ∀ {c : Connection}, s.connection.SameCalls c → t.connection = c →
      t.makers = s.makers → Turns s { t with
        posted := s.posted ++ queuedSince s.connection.queue t.connection.queue } := by
    rintro c hsame rfl hmakers
    exact .rests hsame.calls hsame.nextSerial hmakers
  -- Only a response, a maker and the closing concern the calls; the rest leaves them alone.
  cases a with
  | draw method params =>
    obtain rfl := Option.some.inj ht
    exact .draws method params rfl rfl rfl
  | receive body =>
    rw [perform?_receive] at ht
    obtain rfl := Option.some.inj ht
    by_cases hbody : ∃ r, Message.ofBody body = .ok (.response r)
    · obtain ⟨r, hr⟩ := hbody
      have hdispatch := Connection.dispatch_response registry s.connection hr
      obtain hsame | ⟨id, serial, hfound, hgiven⟩ := s.connection.dispatchResponse_cases r
      · exact hrests (.refl _) (by simp only [hdispatch, hsame]) rfl
      · refine .answers (r.outcome.mapError .remote) hfound ?_ ?_ rfl
        · simp only [hdispatch, hgiven]
        · simp only [hdispatch, hgiven]
    · have hnone : ∀ r, Message.ofBody body ≠ .ok (.response r) := fun r hr => hbody ⟨r, hr⟩
      exact hrests (Connection.sameCalls_dispatch registry s.connection hnone) rfl rfl
  | finish ticket outcome =>
    obtain ⟨id, -, rfl⟩ := perform?_finish ht
    exact hrests (Connection.sameCalls_complete _ _ _ _) rfl rfl
  | closeCalls =>
    obtain rfl := Option.some.inj ht
    exact .closes rfl rfl rfl
  | closeRequests =>
    obtain rfl := Option.some.inj ht
    exact .rests rfl rfl rfl
  | other op =>
    obtain ⟨c, hc, rfl⟩ := Option.map_eq_some_iff.mp ht
    exact hrests (Connection.op?_same hc).1 rfl rfl
  | maker k b =>
    obtain ⟨m, m', c, hm, hact, rfl⟩ := perform?_maker ht
    obtain ⟨hcall, hserial, htables⟩ := Maker.tables_act? hact
    exact .acts hm hcall hserial htables rfl

/-! ## What holds of any number of calls -/

/-- The maker with this number has entered or rejected its call, which has this id. -/
def Begun (s : Traffic) (id : RequestId) (k : Nat) : Prop :=
  ∃ m, s.makers[k]? = some m ∧ m.call.id = id ∧ m.point.isDrawn = false

/-- **The table and the makers agree,** however many calls there have been. -/
structure Coherent (s : Traffic) : Prop where
  /-- The calls are numbered in their order. -/
  serials : ∀ (k : Nat) (m : Maker), s.makers[k]? = some m → m.call.serial = k
  nextSerial : s.connection.nextSerial = s.makers.length
  /-- No id is in the table twice. -/
  distinct : (s.connection.calls.entries.map (·.1)).Nodup
  /-- An entry is there for a maker who has begun. -/
  entries : ∀ e ∈ s.connection.calls.entries, s.Begun e.1 e.2
  /-- An outcome is there for a maker who has begun, and whose call does not wait. -/
  outcomes : ∀ o ∈ s.connection.calls.outcomes, (∃ id, s.Begun id o.1)
    ∧ ∀ e ∈ s.connection.calls.entries, e.2 ≠ o.1

/-- A call that has been begun stays so. -/
theorem Begun.turns {id : RequestId} (hbegun : s.Begun id k) (hturns : Turns s s') :
    s'.Begun id k := by
  obtain ⟨m, hm, hid, hdrawn⟩ := hbegun
  cases hturns with
  | rests _ _ hmakers | answers _ _ _ _ hmakers | closes _ _ hmakers =>
    exact ⟨m, hmakers ▸ hm, hid, hdrawn⟩
  | draws method params _ _ hmakers =>
    refine ⟨m, ?_, hid, hdrawn⟩
    rw [hmakers, List.getElem?_append_left (List.getElem?_eq_some_iff.mp hm).1, hm]
  | @acts j m₀ m₁ hm₀ hcall _ htables hmakers =>
    by_cases hj : j = k
    · subst hj
      obtain rfl : m₀ = m := Option.some.inj (hm₀.symm.trans hm)
      have hpoint : m₁.point.isDrawn = false := by
        cases htables with
        | fails _ _ hpoint => exact hpoint.1
        | enters _ hpoint => exact hpoint
        | keeps _ hpoint => exact hpoint
        | takes _ hpoint => exact hpoint.1
      refine ⟨m₁, ?_, hcall ▸ hid, hpoint⟩
      rw [hmakers, List.getElem?_set, if_pos rfl, if_pos (List.getElem?_eq_some_iff.mp hm).1]
    · refine ⟨m, ?_, hid, hdrawn⟩
      rw [hmakers, List.getElem?_set, if_neg hj, hm]

theorem Coherent.start : ({} : Traffic).Coherent where
  serials _ _ hm := by simp at hm
  nextSerial := rfl
  distinct := List.nodup_nil
  entries _ he := absurd he List.not_mem_nil
  outcomes _ ho := absurd ho List.not_mem_nil

/-- Of the entries under one number there is only one. -/
theorem Coherent.eq_of_serial (hs : s.Coherent) {e e' : RequestId × Nat}
    (he : e ∈ s.connection.calls.entries) (he' : e' ∈ s.connection.calls.entries)
    (hserial : e.2 = e'.2) : e = e' := by
  obtain ⟨m, hm, hid, -⟩ := hs.entries e he
  obtain ⟨m', hm', hid', -⟩ := hs.entries e' he'
  rw [hserial, hm'] at hm
  obtain rfl := Option.some.inj hm
  exact Prod.ext (hid.symm.trans hid') hserial

/-- A call that has not been begun has neither an entry nor an outcome. -/
theorem Coherent.unbegun (hs : s.Coherent) (hm : s.makers[k]? = some m)
    (hdrawn : m.point.isDrawn = true) :
    (∀ e ∈ s.connection.calls.entries, e.2 ≠ k)
      ∧ ∀ o ∈ s.connection.calls.outcomes, o.1 ≠ k := by
  have hnot : ∀ id, ¬ s.Begun id k := by
    rintro id ⟨m', hm', -, hdrawn'⟩
    obtain rfl := Option.some.inj (hm.symm.trans hm')
    rw [hdrawn] at hdrawn'
    cases hdrawn'
  refine ⟨?_, ?_⟩
  · rintro e he rfl
    exact hnot _ (hs.entries e he)
  · rintro o ho rfl
    obtain ⟨⟨id, hbegun⟩, -⟩ := hs.outcomes o ho
    exact hnot id hbegun

/-- The table and the makers agree after an act, if the new table has no entries but old ones and
no outcomes but old ones and those of calls that wait no longer. -/
theorem Coherent.shrinks (hs : s.Coherent) (hturns : Turns s s')
    (hserials : ∀ (k : Nat) (m : Maker), s'.makers[k]? = some m → m.call.serial = k)
    (hnext : s'.connection.nextSerial = s'.makers.length)
    (hsublist : s'.connection.calls.entries.Sublist s.connection.calls.entries)
    (houtcomes : ∀ o ∈ s'.connection.calls.outcomes, o ∈ s.connection.calls.outcomes
      ∨ (∃ id, s'.Begun id o.1) ∧ ∀ e ∈ s'.connection.calls.entries, e.2 ≠ o.1) :
    s'.Coherent where
  serials := hserials
  nextSerial := hnext
  distinct := hs.distinct.sublist (hsublist.map _)
  entries e he := (hs.entries e (hsublist.subset he)).turns hturns
  outcomes o ho := by
    obtain hold | hnew := houtcomes o ho
    · obtain ⟨⟨id, hbegun⟩, hnone⟩ := hs.outcomes o hold
      exact ⟨⟨id, hbegun.turns hturns⟩, fun e he => hnone e (hsublist.subset he)⟩
    · exact hnew

/-- When the entry of an id has been taken out, its call has none. -/
theorem Coherent.ne_of_erase (hs : s.Coherent) {id : RequestId} {serial : Nat}
    (hfound : s.connection.calls.find? id = some serial) :
    ∀ e ∈ (s.connection.calls.erase id).entries, e.2 ≠ serial := by
  intro e he heq
  obtain ⟨hmem, hne⟩ := CallTable.mem_erase.mp he
  have hentry := (CallTable.find?_eq_some_iff hs.distinct).mp hfound
  exact hne (congrArg Prod.fst (hs.eq_of_serial hmem hentry heq))

/-- An entry is taken out by its id, and its call may get an outcome. -/
theorem Coherent.taken (hs : s.Coherent) (hturns : Turns s s')
    (hserials : ∀ (k : Nat) (m : Maker), s'.makers[k]? = some m → m.call.serial = k)
    (hnext : s'.connection.nextSerial = s'.makers.length) {id : RequestId} {serial : Nat}
    (hfound : s.connection.calls.find? id = some serial)
    (htable : s'.connection.calls = s.connection.calls.erase id
      ∨ ∃ outcome, s'.connection.calls = (s.connection.calls.erase id).deliver serial outcome) :
    s'.Coherent := by
  have hentries : s'.connection.calls.entries = (s.connection.calls.erase id).entries := by
    obtain heq | ⟨outcome, heq⟩ := htable
    · rw [heq]
    · rw [heq]
      rfl
  have hentry := (CallTable.find?_eq_some_iff hs.distinct).mp hfound
  refine hs.shrinks hturns hserials hnext ?_ fun o ho => ?_
  · rw [hentries]
    exact List.filter_sublist
  · obtain heq | ⟨outcome, heq⟩ := htable
    · rw [heq] at ho
      exact .inl ho
    · rw [heq] at ho
      rcases List.mem_append.mp ho with ho | ho
      · exact .inl ho
      · obtain rfl := List.mem_singleton.mp ho
        refine .inr ⟨⟨id, (hs.entries _ hentry).turns hturns⟩, ?_⟩
        rw [hentries]
        exact hs.ne_of_erase hfound

/-- A call is entered whose id is free. -/
theorem Coherent.entered (hs : s.Coherent) (hturns : Turns s s')
    (hserials : ∀ (k : Nat) (m : Maker), s'.makers[k]? = some m → m.call.serial = k)
    (hnext : s'.connection.nextSerial = s'.makers.length) {call : Call}
    (hbegun : s'.Begun call.id call.serial) (hfree : s.connection.calls.find? call.id = none)
    (hnone : ∀ o ∈ s.connection.calls.outcomes, o.1 ≠ call.serial)
    (htable : s'.connection.calls = { s.connection.calls with
      entries := s.connection.calls.entries ++ [(call.id, call.serial)] }) : s'.Coherent := by
  refine ⟨hserials, hnext, ?_, ?_, ?_⟩
  · rw [htable, List.map_append, List.nodup_append]
    refine ⟨hs.distinct, List.nodup_singleton _, ?_⟩
    rintro id hid id' hid' rfl
    obtain ⟨e, he, rfl⟩ := List.mem_map.mp hid
    have hmem : (call.id, e.2) ∈ s.connection.calls.entries := by
      rwa [← show e.1 = call.id from List.mem_singleton.mp hid']
    exact CallTable.find?_eq_none_iff.mp hfree e.2 hmem
  · intro e he
    rw [htable] at he
    rcases List.mem_append.mp he with he | he
    · exact (hs.entries e he).turns hturns
    · obtain rfl := List.mem_singleton.mp he
      exact hbegun
  · intro o ho
    rw [htable] at ho ⊢
    obtain ⟨⟨id, hbegun'⟩, hothers⟩ := hs.outcomes o ho
    refine ⟨⟨id, hbegun'.turns hturns⟩, fun e he => ?_⟩
    rcases List.mem_append.mp he with he | he
    · exact hothers e he
    · obtain rfl := List.mem_singleton.mp he
      exact (hnone o ho).symm

/-- The table and the makers agree after an act of a maker. -/
theorem Coherent.acted (hs : s.Coherent) {m' : Maker} (hm : s.makers[k]? = some m)
    (hcall : m'.call = m.call) (hserial : s'.connection.nextSerial = s.connection.nextSerial)
    (htables : Maker.Tables m m' s.connection.calls s'.connection.calls)
    (hmakers : s'.makers = s.makers.set k m') : s'.Coherent := by
  have hturns : Turns s s' := .acts hm hcall hserial htables hmakers
  have hk : k < s.makers.length := (List.getElem?_eq_some_iff.mp hm).1
  have hnumber : m.call.serial = k := hs.serials k m hm
  have hserials : ∀ (j : Nat) (n : Maker), s'.makers[j]? = some n → n.call.serial = j := by
    intro j n hn
    rw [hmakers, List.getElem?_set] at hn
    split at hn
    · case isTrue hj =>
      obtain rfl : m' = n := by simpa [hk] using hn
      rw [hcall, ← hj, hnumber]
    · exact hs.serials j n hn
  have hnext : s'.connection.nextSerial = s'.makers.length := by
    rw [hserial, hmakers, List.length_set, hs.nextSerial]
  -- A call that is past the drawing of its id has begun.
  have hbegun : m'.point.isDrawn = false → s'.Begun m.call.id m.call.serial := by
    intro hdrawn
    refine ⟨m', ?_, congrArg Call.id hcall, hdrawn⟩
    rw [hnumber, hmakers, List.getElem?_set, if_pos rfl, if_pos hk]
  cases htables with
  | fails error hdrawn hpoint htable =>
    refine hs.shrinks hturns hserials hnext ?_ fun o ho => ?_
    · rw [htable]
      exact List.Sublist.refl _
    · rw [htable] at ho ⊢
      rcases List.mem_append.mp ho with ho | ho
      · exact .inl ho
      · obtain rfl := List.mem_singleton.mp ho
        refine .inr ⟨⟨_, hbegun hpoint.1⟩, ?_⟩
        rw [hnumber]
        exact (hs.unbegun hm hdrawn).1
  | enters hdrawn hpoint hfree htable =>
    refine hs.entered hturns hserials hnext (hbegun hpoint) hfree ?_ htable
    rw [hnumber]
    exact (hs.unbegun hm hdrawn).2
  | keeps hdrawn hpoint hsending htable =>
    refine hs.shrinks hturns hserials hnext ?_ fun o ho => .inl ?_
    · rw [htable]
    · rwa [htable] at ho
  | takes hdrawn hpoint hfound htable =>
    exact hs.taken hturns hserials hnext hfound htable

/-- **What happens keeps the table and the makers in agreement.** -/
theorem Coherent.turns (hs : s.Coherent) (hturns : Turns s s') : s'.Coherent := by
  -- Where no call is begun, the calls keep their numbers.
  have hsame : s'.makers = s.makers → s'.connection.nextSerial = s.connection.nextSerial →
      (∀ (k : Nat) (m : Maker), s'.makers[k]? = some m → m.call.serial = k)
        ∧ s'.connection.nextSerial = s'.makers.length := by
    intro hmakers hserial
    rw [hmakers, hserial]
    exact ⟨hs.serials, hs.nextSerial⟩
  cases hturns with
  | rests htable hserial hmakers =>
    obtain ⟨hserials, hnext⟩ := hsame hmakers hserial
    refine hs.shrinks (.rests htable hserial hmakers) hserials hnext ?_ fun o ho => .inl ?_
    · rw [htable]
    · rwa [htable] at ho
  | draws method params htable hserial hmakers =>
    refine hs.shrinks (.draws method params htable hserial hmakers) ?_ ?_ ?_ fun o ho => .inl ?_
    · intro k m hm
      rw [hmakers, List.getElem?_append] at hm
      split at hm
      · exact hs.serials k m hm
      · case isFalse hk =>
        obtain ⟨hlt, hnew⟩ := List.getElem?_eq_some_iff.mp hm
        rw [List.length_singleton] at hlt
        rw [← hnew, List.getElem_singleton]
        change s.connection.nextSerial = k
        rw [hs.nextSerial]
        omega
    · rw [hserial, hmakers, hs.nextSerial, List.length_append, List.length_singleton]
    · rw [htable]
    · rwa [htable] at ho
  | answers outcome hfound htable hserial hmakers =>
    obtain ⟨hserials, hnext⟩ := hsame hmakers hserial
    exact hs.taken (.answers outcome hfound htable hserial hmakers) hserials hnext hfound
      (.inr ⟨outcome, htable⟩)
  | closes htable hserial hmakers =>
    obtain ⟨hserials, hnext⟩ := hsame hmakers hserial
    refine hs.shrinks (.closes htable hserial hmakers) hserials hnext ?_ fun o ho => ?_
    · rw [htable]
      exact List.nil_sublist _
    · rw [htable] at ho ⊢
      rcases List.mem_append.mp ho with ho | ho
      · exact .inl ho
      · obtain ⟨e, he, rfl⟩ := List.mem_map.mp ho
        refine .inr ⟨⟨e.1, ?_⟩, fun e' he' => absurd he' List.not_mem_nil⟩
        exact (hs.entries e he).turns (.closes htable hserial hmakers)
  | acts hm hcall hserial htables hmakers => exact hs.acted hm hcall hserial htables hmakers

/-- **The table and the makers agree after every run.** -/
theorem coherent_run (hrun : run? registry {} acts = some s) : s.Coherent :=
  run_induction (P := fun _ s => s.Coherent) hrun .start
    fun _ _ _ _ _ ih hstep => ih.turns (turns_step hstep)

/-! ## The older call -/

/-- **The call waits on** from one moment to a later one: it has its entry, nothing has been posted,
and a response with its id will be its outcome. -/
structure WaitsOn (s s' : Traffic) (call : Call) : Prop where
  entry : s'.connection.calls.find? call.id = some call.serial
  posted : s'.posted = s.posted
  response : ∀ r : Response, r.id = some call.id →
    (s'.connection.dispatchResponse r).outcome? call = some (r.outcome.mapError .remote)

/-- **The call is lost** from one moment to a later one: its entry is gone, the other side is told
to stop working on it if messages are taken, its maker finds that the connection was closed, and
nobody hears of a response with its id. -/
structure IsLost (s s' : Traffic) (call : Call) : Prop where
  entry : s'.connection.calls.find? call.id = none
  posted : s'.posted = s.posted
    ++ if s.connection.accepts then [Connection.cancelMessage call.id] else []
  outcome : s'.connection.outcome? call = some (.error .connectionClosed)
  response : ∀ r : Response, r.id = some call.id →
    s'.connection.dispatchResponse r = s'.connection

/-- While a call has its entry no outcome has been noted for it. -/
theorem Coherent.outcomes_find? (hs : s.Coherent)
    (hentry : (older.id, older.serial) ∈ s.connection.calls.entries) :
    s.connection.calls.outcomes.find? (fun o => o.1 == older.serial) = none := by
  refine List.find?_eq_none.mpr fun o ho => ?_
  rw [beq_iff_eq]
  exact fun heq => (hs.outcomes o ho).2 _ hentry heq.symm

/-- A call that has its entry and for which nothing is posted waits on. -/
theorem Coherent.waitsOn (hs' : s'.Coherent)
    (hentry : (older.id, older.serial) ∈ s'.connection.calls.entries)
    (hposted : s'.posted = s.posted) : WaitsOn s s' older where
  entry := (CallTable.find?_eq_some_iff hs'.distinct).mpr hentry
  posted := hposted
  response r hr := by
    have hfound := (CallTable.find?_eq_some_iff hs'.distinct).mpr hentry
    simp only [Connection.dispatchResponse, hr, CallTable.resolve?, hfound, Option.map_some,
      Connection.outcome?, CallTable.outcome?, CallTable.deliver, CallTable.erase,
      List.find?_append, hs'.outcomes_find? hentry, Option.none_or, List.find?_singleton,
      beq_self_eq_true, if_true]

/-- A call whose entry is taken out by its id, as by somebody who lets go of a call, is lost. -/
theorem Coherent.isLost (hs : s.Coherent)
    (hentry : (older.id, older.serial) ∈ s.connection.calls.entries)
    (hconnection : s'.connection = (s.connection.giveUp older.id).2)
    (hposted : s'.posted = s.posted ++ queuedSince s.connection.queue s'.connection.queue) :
    IsLost s s' older := by
  have hfound := (CallTable.find?_eq_some_iff hs.distinct).mpr hentry
  have hcalls : s'.connection.calls = s.connection.calls.erase older.id := by
    rw [hconnection, (Connection.giveUp_of_find? hfound).1]
  have hgone : s'.connection.calls.find? older.id = none := by
    rw [hcalls, CallTable.find?_erase]
  refine ⟨hgone, ?_, ?_, fun r hr => ?_⟩
  · have hpost : s'.connection = ({ s.connection with
        calls := s.connection.calls.erase older.id } : Connection).post
          (Connection.cancelMessage older.id) := by
      simp only [hconnection, Connection.giveUp, CallTable.remove?, hfound, Option.map_some]
    rw [hposted, hpost]
    exact congrArg (s.posted ++ ·) (queuedSince_post { s.connection with
      calls := s.connection.calls.erase older.id } (Connection.cancelMessage older.id))
  · -- Without an entry and without an outcome, whoever waits finds nobody at the other end.
    have hnone : s'.connection.calls.outcomes.find? (fun o => o.1 == older.serial) = none := by
      rw [hcalls]
      exact hs.outcomes_find? hentry
    have hany : (s'.connection.calls.entries.any fun e => e.2 == older.serial) = false := by
      rw [hcalls, List.any_eq_false]
      intro e he
      rw [beq_iff_eq]
      exact hs.ne_of_erase hfound e he
    simp only [Connection.outcome?, CallTable.outcome?, hnone, hany, Bool.false_eq_true, if_false]
  · simp only [Connection.dispatchResponse, hr, CallTable.resolve?, hgone, Option.map_none]

/-! ## The newer call -/

/-- The maker with this number has drawn the id of an older call. While the older call waits, the
newer one is never entered. -/
structure Shares (s : Traffic) (older : Call) (k : Nat) : Prop where
  begun : s.Begun older.id older.serial
  ne : older.serial ≠ k
  maker : ∃ m, s.makers[k]? = some m ∧ m.call = ⟨k, older.id⟩
    ∧ ((older.id, older.serial) ∈ s.connection.calls.entries → m.point.isSending = false)

/-- A call that has been begun is entered no more. -/
theorem Coherent.mem_of_begun (hs : s.Coherent) (hbegun : s.Begun older.id older.serial)
    (hturns : Turns s s') (hentry : (older.id, older.serial) ∈ s'.connection.calls.entries) :
    (older.id, older.serial) ∈ s.connection.calls.entries := by
  cases hturns with
  | rests htable | draws _ _ htable => rwa [htable] at hentry
  | answers outcome _ htable =>
    rw [htable] at hentry
    exact (CallTable.mem_erase.mp hentry).1
  | closes htable =>
    rw [htable] at hentry
    cases hentry
  | @acts k m m' hm _ _ htables _ =>
    cases htables with
    | fails _ _ _ htable | keeps _ _ _ htable => rwa [htable] at hentry
    | takes _ _ _ htable =>
      obtain heq | ⟨outcome, heq⟩ := htable
      · rw [heq] at hentry
        exact (CallTable.mem_erase.mp hentry).1
      · rw [heq] at hentry
        exact (CallTable.mem_erase.mp hentry).1
    | enters hdrawn _ _ htable =>
      rw [htable] at hentry
      rcases List.mem_append.mp hentry with hold | hnew
      · exact hold
      · -- The call that is entered has not been begun before.
        obtain ⟨m', hm', -, hdrawn'⟩ := hbegun
        have hserial : older.serial = k :=
          (congrArg Prod.snd (List.mem_singleton.mp hnew)).trans (hs.serials k m hm)
        rw [hserial, hm] at hm'
        obtain rfl := Option.some.inj hm'
        rw [hdrawn] at hdrawn'
        cases hdrawn'

/-- Whoever draws the id of a call that waits shares it. -/
theorem Coherent.shares (hs : s.Coherent)
    (hentry : (older.id, older.serial) ∈ s.connection.calls.entries)
    (hid : s.connection.draw.1.id = older.id) {method : String} {params : Option Json}
    (hdraw : s.step? registry (.draw method params) = some s') :
    s'.Shares older s.makers.length := by
  have hbegun : s.Begun older.id older.serial := hs.entries _ hentry
  refine ⟨hbegun.turns (turns_step hdraw), ?_, ?_⟩
  · obtain ⟨m, hm, -, -⟩ := hbegun
    exact Nat.ne_of_lt (List.getElem?_eq_some_iff.mp hm).1
  · obtain ⟨t, ht, rfl⟩ := step?_eq_some hdraw
    obtain rfl := Option.some.inj ht
    refine ⟨⟨s.connection.draw.1, .drawn method params⟩, List.getElem?_concat_length, ?_,
      fun _ => rfl⟩
    rw [← hid, ← hs.nextSerial]
    rfl

/-- **An id that is shared stays so.** While the older call waits the newer one is refused. -/
theorem Shares.turns (h : s.Shares older k) (hs : s.Coherent) (hturns : Turns s s') :
    s'.Shares older k := by
  obtain ⟨m, hm, hcall, hsending⟩ := h.maker
  have hk : k < s.makers.length := (List.getElem?_eq_some_iff.mp hm).1
  have hbefore := hs.mem_of_begun h.begun hturns
  refine ⟨h.begun.turns hturns, h.ne, ?_⟩
  cases hturns with
  | rests _ _ hmakers | answers _ _ _ _ hmakers | closes _ _ hmakers =>
    exact ⟨m, hmakers ▸ hm, hcall, fun hentry => hsending (hbefore hentry)⟩
  | draws method params _ _ hmakers =>
    refine ⟨m, ?_, hcall, fun hentry => hsending (hbefore hentry)⟩
    rw [hmakers, List.getElem?_append_left hk, hm]
  | @acts j n n' hn hcall' _ htables hmakers =>
    by_cases hj : j = k
    · subst hj
      obtain rfl : n = m := Option.some.inj (hn.symm.trans hm)
      refine ⟨n', ?_, hcall'.trans hcall, fun hentry => ?_⟩
      · rw [hmakers, List.getElem?_set, if_pos rfl, if_pos hk]
      · cases htables with
        | fails _ _ hpoint => exact hpoint.2
        | takes _ hpoint => exact hpoint.2
        | keeps _ _ hkeeps => exact hkeeps (hsending (hbefore hentry))
        | enters _ _ hfree =>
          -- The table has no place for it: the older call is there.
          rw [hcall] at hfree
          exact absurd (hbefore hentry) (CallTable.find?_eq_none_iff.mp hfree older.serial)
    · refine ⟨m, ?_, hcall, fun hentry => hsending (hbefore hentry)⟩
      rw [hmakers, List.getElem?_set, if_neg hj, hm]

theorem Shares.run (h : s.Shares older k) (hs : s.Coherent)
    (hrun : s.run? registry acts = some s') : s'.Coherent ∧ s'.Shares older k :=
  run_induction (P := fun _ t => t.Coherent ∧ t.Shares older k) hrun ⟨hs, h⟩
    fun _ _ _ _ _ ih hstep =>
      ⟨ih.1.turns (turns_step hstep), ih.2.turns ih.1 (turns_step hstep)⟩

/-- While the older call waits the newer one has no entry: it would stand under the same id. -/
theorem Shares.ne_of_mem (h : s.Shares older k) (hs : s.Coherent)
    (hwaits : (older.id, older.serial) ∈ s.connection.calls.entries) :
    ∀ e ∈ s.connection.calls.entries, e.2 ≠ k := by
  rintro e he rfl
  obtain ⟨m, hm, hcall, -⟩ := h.maker
  obtain ⟨m', hm', hid, -⟩ := hs.entries e he
  obtain rfl := Option.some.inj (hm.symm.trans hm')
  have hfound := (CallTable.find?_eq_some_iff hs.distinct).mpr hwaits
  have hfound' := (CallTable.find?_eq_some_iff hs.distinct).mpr he
  rw [← hid, hcall, hfound] at hfound'
  exact h.ne (Option.some.inj hfound')

/-! ## Once round -/

/-- The call with this number is made and let go of at once. -/
def brief (k : Nat) : List Act :=
  [.draw "later" (some .null), .maker k .enter, .maker k .send, .maker k .giveUp]

/-- One call is made and waits, and so many others are made and let go of after it. -/
def firstWaits : Nat → List Act
  | 0 => [.other .start, .draw "first" (some .null), .maker 0 .enter, .maker 0 .send]
  | n + 1 => firstWaits n ++ brief (n + 1)

/-- Only the first call waits, and so many have been made after it. -/
structure FirstWaits (s : Traffic) (n : Nat) : Prop where
  entries : s.connection.calls.entries = [((Call.nth 0).id, 0)]
  closed : s.connection.calls.closed = false
  accepts : s.connection.accepts = true
  next : s.connection.draw.1 = Call.nth (n + 1)
  makers : s.makers.length = n + 1

/-- **The maker who has come last makes its call,** under an id that is free, while calls and
messages are taken. -/
theorem run?_made (registry : Registry) {makers : List Maker} {call : Call} {method : String}
    {params : Json} (hmakers : s.makers = makers ++ [⟨call, .drawn method (some params)⟩])
    (hclosed : s.connection.calls.closed = false)
    (hfree : s.connection.calls.find? call.id = none) (haccepts : s.connection.accepts = true) :
    ∃ s' : Traffic,
      (∀ acts, s.run? registry (.maker makers.length .enter :: .maker makers.length .send :: acts)
        = s'.run? registry acts)
      ∧ s'.connection = { s.connection with
          calls := { s.connection.calls with
            entries := s.connection.calls.entries ++ [(call.id, call.serial)] }
          queue := s.connection.queue ++ [.send (.request call.id method params)] }
      ∧ s'.makers = makers ++ [⟨call, .holding⟩] := by
  obtain ⟨c, hentered, hc⟩ : ∃ c, s.connection.await? call = some c
      ∧ c = { s.connection with calls := { s.connection.calls with
          entries := s.connection.calls.entries ++ [(call.id, call.serial)] } } :=
    ⟨_, by simp [Connection.await?, CallTable.insert?, hclosed, hfree], rfl⟩
  obtain ⟨t, henter, hct, hmt⟩ := run?_last registry (b := .enter) (p := .entered method params)
    (c := c) hmakers (by simp only [Maker.act?, hentered])
  obtain ⟨c', hqueued, hc'⟩ : ∃ c', t.connection.enqueue? (.request call.id method params) = some c'
      ∧ c' = { t.connection with
          queue := t.connection.queue ++ [.send (.request call.id method params)] } :=
    ⟨_, if_pos (by rw [hct, hc]; exact haccepts), rfl⟩
  obtain ⟨s', hsend, hcs, hms⟩ := run?_last registry (b := .send) (p := .holding) (c := c') hmt
    (by simp only [Maker.act?, hqueued])
  refine ⟨s', fun acts => (henter _).trans (hsend acts), ?_, hms⟩
  rw [hcs, hc', hct, hc]

/-- Under an id of its own a call comes and goes. -/
theorem FirstWaits.brief {n : Nat} (h : s.FirstWaits n) (hn : n + 1 < UInt32.size) :
    ∃ s', s.run? {} (brief (n + 1)) = some s' ∧ s'.FirstWaits (n + 1) := by
  have hne : (Call.nth 0).id ≠ (Call.nth (n + 1)).id := fun heq =>
    Nat.succ_ne_zero n (Call.nth_inj (by decide) hn heq).symm
  obtain ⟨t, hdraw, hct, hmt⟩ : ∃ t : Traffic,
      (∀ acts, s.run? {} (.draw "later" (some .null) :: acts) = t.run? {} acts)
      ∧ t.connection = s.connection.draw.2
      ∧ t.makers = s.makers ++ [⟨Call.nth (n + 1), .drawn "later" (some .null)⟩] :=
    ⟨_, fun _ => rfl, rfl, by rw [← h.next]; rfl⟩
  have hcalls : t.connection.calls = s.connection.calls := by rw [hct]; rfl
  have hfree : t.connection.calls.find? (Call.nth (n + 1)).id = none := by
    rw [CallTable.find?_eq_none_iff, hcalls, h.entries]
    exact fun serial hmem => hne (congrArg Prod.fst (List.mem_singleton.mp hmem)).symm
  obtain ⟨u, hmade, hcu, hmu⟩ := run?_made {} hmt (by rw [hcalls, h.closed]) hfree
    (by rw [hct]; exact h.accepts)
  obtain ⟨s', hgone, hc, hm⟩ := run?_last {} (b := .giveUp) (p := .quit) hmu rfl
  -- What is taken out of the table again is the entry that has been put there.
  have hentries : u.connection.calls.entries
      = [((Call.nth 0).id, 0), ((Call.nth (n + 1)).id, n + 1)] := by
    rw [hcu, hcalls, h.entries]
    rfl
  have hfound : u.connection.calls.find? (Call.nth (n + 1)).id = some (n + 1) := by
    simp [CallTable.find?, hentries, hne]
  obtain ⟨hcalls', hid, hserial⟩ := Connection.giveUp_of_find? hfound
  obtain ⟨hnumber, hnext⟩ := Call.mk.inj h.next
  rw [h.makers] at hmade hgone
  refine ⟨s', (hdraw _).trans ((hmade _).trans (hgone _)), ?_, ?_, ?_, ?_, ?_⟩
  · rw [hc, hcalls', CallTable.erase, hentries]
    simp [hne]
  · rw [hc, hcalls', hcu, hct]
    exact h.closed
  · have hphase := Maker.samePhase_act? (m := ⟨Call.nth (n + 1), .holding⟩) (a := .giveUp)
      (c := u.connection) rfl
    rw [hc, hphase.accepts, hcu, hct]
    exact h.accepts
  · rw [Connection.draw, hc, hid, hserial, hcu, hct]
    simp only [Connection.draw, Call.nth, hnumber, RequestId.number.inj hnext]
    rw [Int32.ofNat_add (n + 1 + 1) 1]
    rfl
  · rw [hm]
    simp [h.makers]

/-- The first call waits while fewer than 2^32 others come and go. -/
theorem firstWaits_run (n : Nat) (hn : n < UInt32.size) :
    ∃ s : Traffic, run? {} {} (firstWaits n) = some s ∧ s.FirstWaits n := by
  induction n with
  | zero => exact ⟨_, rfl, rfl, rfl, rfl, rfl, rfl⟩
  | succ n ih =>
    obtain ⟨s, hrun, hs⟩ := ih (Nat.lt_of_succ_lt hn)
    obtain ⟨s', hrun', hs'⟩ := hs.brief hn
    refine ⟨s', ?_, hs'⟩
    rw [firstWaits, run?_append, hrun]
    exact hrun'

/-- All ids have been drawn while the first call waits, and the next call draws the first one's. It
is refused, and its maker lets go of it. -/
theorem onceRound : ∃ s s' t t' : Traffic,
    run? {} {} (firstWaits (UInt32.size - 1)) = some s ∧ s.FirstWaits (UInt32.size - 1)
    ∧ s.connection.draw.1.id = (Call.nth 0).id
    ∧ s.step? {} (.draw "later" (some .null)) = some s'
    ∧ s'.run? {} [.maker s.makers.length .enter] = some t
    ∧ t.connection.calls.entries = [((Call.nth 0).id, 0)]
    ∧ t.step? {} (.maker s.makers.length .giveUp) = some t'
    ∧ t'.connection = (t.connection.giveUp (Call.nth 0).id).2 := by
  obtain ⟨s, hrun, hs⟩ := firstWaits_run (UInt32.size - 1) (by decide)
  have hid : s.connection.draw.1.id = (Call.nth 0).id := by
    rw [hs.next]
    rfl
  obtain ⟨s', hdraw, hc, hm⟩ : ∃ s', s.step? {} (.draw "later" (some .null)) = some s'
      ∧ s'.connection = s.connection.draw.2
      ∧ s'.makers = s.makers ++ [⟨s.connection.draw.1, .drawn "later" (some .null)⟩] :=
    ⟨_, rfl, rfl, rfl⟩
  have hrefused : s'.connection.await? s.connection.draw.1 = none := by
    have hfound : s.connection.calls.find? (Call.nth 0).id = some 0 := by
      simp [CallTable.find?, hs.entries]
    rw [hc, Connection.await?, CallTable.insert?, hid]
    simp [Connection.draw, hfound]
  obtain ⟨t, henter, hct, hmt⟩ := run?_last {} (b := .enter) (p := .holding)
    (c := s'.connection.fail s.connection.draw.1 .connectionClosed) hm
    (by simp only [Maker.act?, hrefused])
  obtain ⟨t', hgone, hct', -⟩ := run?_last {} (b := .giveUp) (p := .quit) hmt rfl
  refine ⟨s, s', t, t', hrun, hs, hid, hdraw, henter [], ?_, ?_, ?_⟩
  · rw [hct, hc]
    exact hs.entries
  · simpa [run?] using hgone []
  · rw [hct', hid]

/-! ## When ids collide -/

/-- **A call that draws the id of one that still waits harms it by being let go of, and only so.**
The draw leaves the older call as it is, and so does every act of the newer one's maker, at any
time while the older call waits, except the last: when the maker lets go of the newer call, the
older one is lost. -/
theorem collision_harms (hrun : run? registry {} acts = some s)
    (hentry : (older.id, older.serial) ∈ s.connection.calls.entries)
    (hid : s.connection.draw.1.id = older.id) {method : String} {params : Option Json}
    (hdraw : s.step? registry (.draw method params) = some s') {more : List Act} {t t' : Traffic}
    (hmore : s'.run? registry more = some t)
    (hwaits : (older.id, older.serial) ∈ t.connection.calls.entries) {b : Maker.Act}
    (hact : t.step? registry (.maker s.makers.length b) = some t') :
    WaitsOn s s' older ∧ (b ≠ .giveUp → WaitsOn t t' older)
      ∧ (b = .giveUp → IsLost t t' older) := by
  have hs := coherent_run hrun
  have hs' := hs.turns (turns_step hdraw)
  have hshares := hs.shares hentry hid hdraw
  obtain ⟨ht, hshared⟩ := hshares.run hs' hmore
  refine ⟨?_, ?_⟩
  · -- The draw puts nothing in the table and nothing in the queue.
    obtain ⟨u, hu, rfl⟩ := step?_eq_some hdraw
    obtain rfl := Option.some.inj hu
    exact hs'.waitsOn hentry (by simp)
  obtain ⟨m, hm, hcall, hsending⟩ := hshared.maker
  obtain ⟨u, hu, rfl⟩ := step?_eq_some hact
  obtain ⟨m₀, m', c, hm₀, hacted, rfl⟩ := perform?_maker hu
  obtain rfl : m = m₀ := Option.some.inj (hm.symm.trans hm₀)
  have hfound : t.connection.calls.find? m.call.id = some older.serial := by
    rw [hcall]
    exact (CallTable.find?_eq_some_iff ht.distinct).mpr hwaits
  have hnone : ∀ e ∈ t.connection.calls.entries, e.2 ≠ m.call.serial := by
    rw [hcall]
    exact hshared.ne_of_mem ht hwaits
  have ht' := ht.turns (turns_step hact)
  obtain ⟨rfl, hgiven⟩ | ⟨hb, hkept⟩ :=
    Maker.act?_refused hacted hfound (hsending hwaits) hnone
  · rw [hcall] at hgiven
    exact ⟨fun h => absurd rfl h, fun _ => ht.isLost hwaits hgiven rfl⟩
  · refine ⟨fun _ => ?_, fun h => absurd h hb⟩
    obtain rfl | ⟨error, rfl⟩ := hkept
    · exact ht'.waitsOn hwaits (by simp)
    · exact ht'.waitsOn hwaits (by simp [Connection.fail])

/-- The run in which the first call waits while all other ids are drawn. -/
theorem collision_harms_onceRound : ∃ s s' t t' : Traffic,
    run? {} {} (firstWaits (UInt32.size - 1)) = some s
    ∧ s.step? {} (.draw "later" (some .null)) = some s'
    ∧ s'.run? {} [.maker s.makers.length .enter] = some t
    ∧ t.step? {} (.maker s.makers.length .giveUp) = some t'
    ∧ WaitsOn s s' (Call.nth 0) ∧ IsLost t t' (Call.nth 0) := by
  obtain ⟨s, s', t, t', hrun, hs, hid, hdraw, henter, ht, hgone, -⟩ := onceRound
  have hharm := collision_harms hrun (by rw [hs.entries]; exact .head _) hid
    hdraw henter (by rw [ht]; exact .head _) hgone
  exact ⟨s, s', t, t', hrun, hdraw, henter, hgone, hharm.1, hharm.2.2 rfl⟩

/-- **The newer call does not leave the older one alone.** The first call waits, 2^32 - 1 others
come and go, and the one after them draws the first one's id. Its maker, whose call has been
refused, does nothing but let go of it, and the first call waits no longer. -/
theorem collision_round_the_clock : ∃ s s' t t' : Traffic,
    run? {} {} (firstWaits (UInt32.size - 1)) = some s
    ∧ s.connection.draw.1.id = (Call.nth 0).id
    ∧ s.step? {} (.draw "later" (some .null)) = some s'
    ∧ s'.run? {} [.maker s.makers.length .enter] = some t
    ∧ t.connection.calls.find? (Call.nth 0).id = some (Call.nth 0).serial
    ∧ t.step? {} (.maker s.makers.length .giveUp) = some t'
    ∧ t'.connection.calls.find? (Call.nth 0).id = none
    ∧ ¬ WaitsOn t t' (Call.nth 0) := by
  obtain ⟨s, s', t, t', hrun, -, hid, hdraw, henter, ht, hgone, hgiven⟩ := onceRound
  have hfound : t.connection.calls.find? (Call.nth 0).id = some (Call.nth 0).serial := by
    simp [CallTable.find?, ht, Call.nth]
  have hlost : t'.connection.calls.find? (Call.nth 0).id = none := by
    rw [hgiven, (Connection.giveUp_of_find? hfound).1, CallTable.find?_erase]
  refine ⟨s, s', t, t', hrun, hid, hdraw, henter, hfound, hgone, hlost, fun hwaits => ?_⟩
  rw [hwaits.entry] at hlost
  cases hlost

end Traffic

end FlagServer
