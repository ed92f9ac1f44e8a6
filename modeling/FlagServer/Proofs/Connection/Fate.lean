import FlagServer.Proofs.Connection.Traffic
import Mathlib.Data.List.Nodup

/-!
# What becomes of a call

The table of calls is shared by everybody, and every operation on it takes a key. Here the same
story is told of **one** call and without a table: a call is not made yet, waits, or has ended, and
while it waits the first act that can end it does. Which acts those are is read off the act alone
(`Act.ending?`): a response that carries the call's id, its maker's own wish to be rid of it, or the
end of the connection.

`CallTable.Booked` then says what it means for the shared table to tell that story of every call at
once: its entries are the calls that wait, and its log has for each call what its ending leaves
there. For each operation on the table one lemma below moves one call on and leaves all others
where they are. That another call might have the same id does not matter in any of them, because
an entry is found under its id only while the call that waits under it does.
-/

namespace FlagServer

/-! ## Endings -/

/-- How a call ends. -/
inductive Ending where
  /-- By a response. -/
  | answered (outcome : Except ResponseError Json)
  /-- By its maker, who waited and did not want to any longer. -/
  | cancelled
  /-- By its maker, who did not wait for the outcome. -/
  | abandoned
  /-- By the end of the connection. -/
  | closed
  /-- Before it began: its parameters cannot be written. -/
  | unwritable

namespace Ending

/-- What is left in the table for the maker to find. One who ends the call itself finds nothing. -/
def noted? : Ending → Option (Except CallError Json)
  | .answered outcome => some (outcome.mapError .remote)
  | .closed => some (.error .connectionClosed)
  | .unwritable => some (.error .unwritable)
  | .cancelled => none
  | .abandoned => none

/-- What the maker is told, if it waits to be told. -/
def outcome? : Ending → Option (Except CallError Json)
  | .cancelled => some (.error .cancelled)
  | e => e.noted?

/-- What the maker of a call with results of a given shape is told. -/
def read? (result : Schema) : Ending → Option (Except CallError Datum)
  | .answered (.ok v) =>
    match result.decode? v with
    | some d => some (.ok d)
    | none => some (.error .invalidResponse)
  | .answered (.error e) => some (.error (.remote e))
  | .cancelled => some (.error .cancelled)
  | .closed => some (.error .connectionClosed)
  | .unwritable => some (.error .unwritable)
  | .abandoned => none

/-- What a maker is told of a result is what it would be told of the bare value, read. -/
theorem read?_eq (e : Ending) (result : Schema) :
    e.read? result = e.outcome?.map (readOutcome result) := by
  cases e with
  | answered outcome =>
    cases outcome with
    | error e => rfl
    | ok v =>
      simp only [read?, outcome?, noted?, Except.mapError, Option.map_some, readOutcome]
      cases result.decode? v <;> rfl
  | _ => rfl

/-- Who is left something to find is told that. -/
theorem outcome?_of_noted? {e : Ending} {o : Except CallError Json} (h : e.noted? = some o) :
    e.outcome? = some o := by
  cases e with
  | cancelled => cases h
  | _ => exact h

end Ending

/-- How an act ends a call that waits, if it does. -/
def Act.ending? (call : Call) : Act → Option Ending
  | .receive body =>
    match Message.ofBody body with
    | .ok (.response r) => if r.id = some call.id then some (.answered r.outcome) else none
    | _ => none
  | .maker serial .withdraw => if serial = call.serial then some .closed else none
  | .maker serial .cancel => if serial = call.serial then some .cancelled else none
  | .maker serial .giveUp => if serial = call.serial then some .abandoned else none
  | .closeCalls => some .closed
  | _ => none

/-! ## Fates -/

/-- What has become of a call. -/
inductive Fate where
  /-- It has not been made, and by now the connection has failed all calls, or has not. -/
  | unmade (closed : Bool)
  /-- It waits for its outcome. -/
  | waiting
  /-- It has ended. -/
  | ended (e : Ending)

namespace Fate

/-- What has become of a call after one more act. -/
def next (call : Call) (f : Fate) (a : Act) : Fate :=
  match f with
  | .unmade closed =>
    match a with
    | .maker serial .reject => if serial = call.serial then .ended .unwritable else f
    | .maker serial .enter =>
      if serial = call.serial then if closed then .ended .closed else .waiting else f
    | .closeCalls => .unmade true
    | _ => f
  | .waiting =>
    match a.ending? call with
    | some e => .ended e
    | none => f
  | .ended _ => f

/-- What is left in the table for the maker of a call to find. -/
def noted? : Fate → Option (Except CallError Json)
  | .ended e => e.noted?
  | _ => none

@[simp] theorem noted?_unmade (closed : Bool) : (unmade closed).noted? = none := rfl

@[simp] theorem noted?_waiting : waiting.noted? = none := rfl

@[simp] theorem noted?_ended (e : Ending) : (ended e).noted? = e.noted? := rfl

@[simp] theorem next_ended (call : Call) (e : Ending) (a : Act) :
    (ended e).next call a = .ended e := rfl

theorem next_waiting_of_ending? {call : Call} {a : Act} {e : Ending}
    (h : a.ending? call = some e) : waiting.next call a = .ended e := by
  simp only [next, h]

theorem next_waiting_of_none {call : Call} {a : Act} (h : a.ending? call = none) :
    waiting.next call a = .waiting := by
  simp only [next, h]

end Fate

/-- What has become of a call after some acts. -/
def fate (call : Call) (acts : List Act) : Fate :=
  acts.foldl (Fate.next call) (.unmade false)

@[simp] theorem fate_nil (call : Call) : fate call [] = .unmade false := rfl

/-- A fate is told act by act. All that follows is by induction on the last one. -/
theorem fate_concat (call : Call) (acts : List Act) (a : Act) :
    fate call (acts ++ [a]) = (fate call acts).next call a := by
  simp only [fate, List.foldl_append, List.foldl_cons, List.foldl_nil]

/-- What has ended stays as it has ended. -/
theorem fate_append_of_ended {call : Call} {acts : List Act} {e : Ending}
    (h : fate call acts = .ended e) (more : List Act) : fate call (acts ++ more) = .ended e := by
  induction more using List.reverseRecOn with
  | nil => simpa using h
  | append_singleton more a ih =>
    rw [← List.append_assoc, fate_concat, ih]
    rfl

/-- A call that waits goes on waiting for as long as nothing can end it. -/
theorem fate_append_of_waiting {call : Call} {acts more : List Act}
    (h : fate call acts = .waiting) (hnone : ∀ a ∈ more, a.ending? call = none) :
    fate call (acts ++ more) = .waiting := by
  induction more using List.reverseRecOn with
  | nil => simpa using h
  | append_singleton more a ih =>
    have hmore := ih fun b hb => hnone b (List.mem_append_left _ hb)
    rw [← List.append_assoc, fate_concat, hmore]
    exact Fate.next_waiting_of_none (hnone a (by simp))

/-- A call that has not been made knows whether the connection has failed all calls. -/
theorem closeCalls_mem_iff_of_unmade {call : Call} {acts : List Act} {closed : Bool}
    (h : fate call acts = .unmade closed) : .closeCalls ∈ acts ↔ closed = true := by
  induction acts using List.reverseRecOn generalizing closed with
  | nil =>
    rw [fate_nil, Fate.unmade.injEq] at h
    subst h
    simp
  | append_singleton acts a ih =>
    rw [fate_concat] at h
    -- By what had become of it before the last act: from waiting and from an end there is no way
    -- back.
    cases hf : fate call acts with
    | waiting =>
      rw [hf] at h
      cases he : a.ending? call with
      | none => rw [Fate.next_waiting_of_none he] at h; cases h
      | some e => rw [Fate.next_waiting_of_ending? he] at h; cases h
    | ended e => rw [hf] at h; cases h
    | unmade earlier =>
      -- It is still not made, so this act was not its maker's.
      rw [hf] at h
      have hi := ih hf
      rw [List.mem_append, List.mem_singleton, hi]
      unfold Fate.next at h
      split at h <;> grind

/-- A call that waits has been entered while the connection had not failed all calls, and nothing
has ended it since. -/
theorem waiting_since {call : Call} {acts : List Act} (h : fate call acts = .waiting) :
    ∃ earlier later, acts = earlier ++ .maker call.serial .enter :: later
      ∧ .closeCalls ∉ earlier ∧ ∀ a ∈ later, a.ending? call = none := by
  induction acts using List.reverseRecOn with
  | nil => cases h
  | append_singleton acts a ih =>
    rw [fate_concat] at h
    cases hf : fate call acts with
    | ended e => rw [hf] at h; cases h
    | waiting =>
      -- It has waited before, and this act has not ended it either.
      obtain ⟨earlier, later, rfl, hopen, hnone⟩ := ih hf
      refine ⟨earlier, later ++ [a], by simp, hopen, ?_⟩
      intro b hb
      rcases List.mem_append.mp hb with hb | hb
      · exact hnone b hb
      · obtain rfl := List.mem_singleton.mp hb
        rw [hf] at h
        cases he : b.ending? call with
        | none => rfl
        | some e => rw [Fate.next_waiting_of_ending? he] at h; cases h
    | unmade closed =>
      -- It waits only now, so this act has entered it.
      refine ⟨acts, [], ?_, ?_, by simp⟩
      all_goals
        rw [hf] at h
        unfold Fate.next at h
        split at h <;> grind [closeCalls_mem_iff_of_unmade hf]

/-- **A call ends by the first act that can end it.** It was waiting before that act, or its
making failed at once: because its parameters cannot be written, or because the connection had
failed all calls. -/
theorem ended_by {call : Call} {acts : List Act} {e : Ending} (h : fate call acts = .ended e) :
    ∃ earlier a later, acts = earlier ++ a :: later
      ∧ (fate call earlier = .waiting ∧ a.ending? call = some e
        ∨ a = .maker call.serial .reject ∧ e = .unwritable
        ∨ a = .maker call.serial .enter ∧ .closeCalls ∈ earlier ∧ e = .closed) := by
  induction acts using List.reverseRecOn with
  | nil => cases h
  | append_singleton acts a ih =>
    rw [fate_concat] at h
    -- Either it has ended by the last act, or before.
    cases hf : fate call acts with
    | ended e' =>
      -- It has ended before, and what has ended stays so.
      rw [hf, Fate.next_ended] at h
      obtain ⟨earlier, b, later, rfl, hb⟩ := ih (hf.trans h)
      exact ⟨earlier, b, later ++ [a], by simp, hb⟩
    | waiting =>
      refine ⟨acts, a, [], rfl, .inl ⟨hf, ?_⟩⟩
      rw [hf] at h
      cases he : a.ending? call with
      | none => rw [Fate.next_waiting_of_none he] at h; cases h
      | some e' =>
        rw [Fate.next_waiting_of_ending? he, Fate.ended.injEq] at h
        rw [h]
    | unmade closed =>
      refine ⟨acts, a, [], rfl, .inr ?_⟩
      -- It ends without having waited, so its making has failed.
      rw [closeCalls_mem_iff_of_unmade hf]
      rw [hf] at h
      unfold Fate.next at h
      split at h <;> grind

/-! ## The table -/

namespace CallTable

theorem find?_eq_some_iff {t : CallTable} (hnd : (t.entries.map (·.1)).Nodup) {id : RequestId}
    {serial : Nat} : t.find? id = some serial ↔ (id, serial) ∈ t.entries :=
  find?_snd_eq_some_iff hnd

/-- Nothing is found under an id without an entry. -/
theorem find?_eq_none_iff {t : CallTable} {id : RequestId} :
    t.find? id = none ↔ ∀ serial, (id, serial) ∉ t.entries :=
  find?_snd_eq_none_iff

theorem mem_erase {t : CallTable} {id : RequestId} {entry : RequestId × Nat} :
    entry ∈ (t.erase id).entries ↔ entry ∈ t.entries ∧ entry.1 ≠ id := by
  simp [erase]

theorem nodup_erase {t : CallTable} (hnd : (t.entries.map (·.1)).Nodup) (id : RequestId) :
    ((t.erase id).entries.map (·.1)).Nodup :=
  (List.filter_sublist.map _).nodup hnd

/-- The table after a call that waits has ended: its entry goes, and what its maker is to find
comes. -/
def settle (t : CallTable) (call : Call) (e : Ending) : CallTable :=
  match e.noted? with
  | some o => (t.erase call.id).deliver call.serial o
  | none => t.erase call.id

theorem entries_settle (t : CallTable) (call : Call) (e : Ending) :
    (t.settle call e).entries = (t.erase call.id).entries := by
  unfold settle
  split <;> rfl

theorem closed_settle (t : CallTable) (call : Call) (e : Ending) :
    (t.settle call e).closed = t.closed := by
  unfold settle
  split <;> rfl

/-- What an ending leaves to find is the latest in the log. -/
theorem outcomes_settle (t : CallTable) (call : Call) (e : Ending) :
    (t.settle call e).outcomes
      = t.outcomes ++ (e.noted?.map fun o => (call.serial, o)).toList := by
  unfold settle
  cases e.noted? <;> simp [deliver, erase]

/-- **The table tells the fates of some calls.** Its entries are those that wait, and its log has
for each of them what its ending has left for its maker, and nothing else. -/
structure Booked (t : CallTable) (calls : List Call) (fate : Call → Fate) : Prop where
  /-- The entries are the calls that wait. -/
  entries : ∀ call, (call.id, call.serial) ∈ t.entries ↔ call ∈ calls ∧ fate call = .waiting
  /-- No id is in the table twice. -/
  distinct : (t.entries.map (·.1)).Nodup
  /-- The log has what each call has left there. -/
  outcomes : ∀ call ∈ calls, (t.outcomes.filter fun o => o.1 == call.serial)
    = ((fate call).noted?.map fun o => (call.serial, o)).toList
  /-- The log is about calls that there are. -/
  strays : ∀ o ∈ t.outcomes, ∃ call ∈ calls, call.serial = o.1
  /-- Every call has a number of its own. -/
  serials : ∀ a ∈ calls, ∀ b ∈ calls, a.serial = b.serial → a = b

variable {t : CallTable} {calls : List Call} {f f' : Call → Fate} {call : Call}

namespace Booked

/-- Only what has become of the calls in the table matters. -/
theorem congr (hb : t.Booked calls f) (h : ∀ other ∈ calls, f' other = f other) :
    t.Booked calls f' where
  entries other := by
    rw [hb.entries other]
    refine and_congr_right fun hmem => ?_
    rw [h other hmem]
  distinct := hb.distinct
  outcomes other hmem := by rw [h other hmem]; exact hb.outcomes other hmem
  strays := hb.strays
  serials := hb.serials

/-- **A call that is begun** has neither an entry nor a note, if nobody has had its number before.
-/
theorem begin (hb : t.Booked calls f) {closed : Bool}
    (hnew : ∀ other ∈ calls, other.serial ≠ call.serial) (hf : f call = .unmade closed) :
    t.Booked (calls ++ [call]) f where
  entries other := by
    rw [hb.entries other, List.mem_append, List.mem_singleton]
    constructor
    · exact fun h => ⟨.inl h.1, h.2⟩
    · rintro ⟨hmem | rfl, hw⟩
      · exact ⟨hmem, hw⟩
      · rw [hf] at hw; cases hw
  distinct := hb.distinct
  outcomes other hmem := by
    rcases List.mem_append.mp hmem with h | h
    · exact hb.outcomes other h
    · obtain rfl := List.mem_singleton.mp h
      rw [hf, List.filter_eq_nil_iff.mpr]
      · rfl
      · -- A note under its number would be about another call with that number.
        intro o ho
        obtain ⟨a, ha, hao⟩ := hb.strays o ho
        rw [← hao]
        simpa using hnew a ha
  strays o ho := by
    obtain ⟨a, ha, hao⟩ := hb.strays o ho
    exact ⟨a, List.mem_append_left _ ha, hao⟩
  serials a ha b hb' hab := by
    rcases List.mem_append.mp ha with h | h <;> rcases List.mem_append.mp hb' with h' | h'
    · exact hb.serials a h b h' hab
    · obtain rfl := List.mem_singleton.mp h'
      exact absurd hab (hnew a h)
    · obtain rfl := List.mem_singleton.mp h
      exact absurd hab.symm (hnew b h')
    · exact (List.mem_singleton.mp h).trans (List.mem_singleton.mp h').symm

/-- The log with one more note tells of one more ending. The entries do not come into it. -/
theorem outcomes_concat (hb : t.Booked calls f) (hmem : call ∈ calls)
    (hnone : (f call).noted? = none)
    (hrest : ∀ other ∈ calls, other ≠ call → f' other = f other) {other : Call}
    (hother : other ∈ calls) :
    ((t.outcomes ++ ((f' call).noted?.map fun o => (call.serial, o)).toList).filter
        fun o => o.1 == other.serial)
      = ((f' other).noted?.map fun o => (other.serial, o)).toList := by
  rw [List.filter_append]
  by_cases heq : other = call
  · -- The call had no note, so the new one is its only one.
    subst heq
    rw [hb.outcomes other hmem, hnone]
    cases (f' other).noted? <;> simp
  · have hne : call.serial ≠ other.serial :=
      fun h => heq (hb.serials call hmem other hother h).symm
    rw [hb.outcomes other hother, hrest other hother heq]
    cases (f' call).noted? <;> simp [hne]

/-- One more note about a call that there is makes no note about one that there is not. -/
theorem strays_concat (hb : t.Booked calls f) (hmem : call ∈ calls)
    (o? : Option (Except CallError Json)) :
    ∀ o ∈ t.outcomes ++ (o?.map fun o => (call.serial, o)).toList,
      ∃ a ∈ calls, a.serial = o.1 := by
  intro o ho
  rcases List.mem_append.mp ho with h | h
  · exact hb.strays o h
  · obtain ⟨x, -, rfl⟩ := Option.map_eq_some_iff.mp (Option.mem_toList.mp h)
    exact ⟨call, hmem, rfl⟩

/-- **A call that fails before it waits** leaves its note and no entry. -/
theorem note (hb : t.Booked calls f) (hmem : call ∈ calls) {closed : Bool}
    (hf : f call = .unmade closed) {e : Ending} {o : Except CallError Json}
    (he : e.noted? = some o) (hf' : f' call = .ended e)
    (hrest : ∀ other ∈ calls, other ≠ call → f' other = f other) :
    (t.deliver call.serial o).Booked calls f' where
  entries other := by
    change (other.id, other.serial) ∈ t.entries ↔ _
    rw [hb.entries other]
    refine and_congr_right fun hother => ?_
    by_cases heq : other = call
    · subst heq; rw [hf, hf']; simp
    · rw [hrest other hother heq]
  distinct := hb.distinct
  outcomes other hother := by
    have h := hb.outcomes_concat hmem (by rw [hf]; rfl) hrest hother
    rwa [hf', Fate.noted?_ended, he] at h
  strays := by
    have h := hb.strays_concat hmem e.noted?
    rwa [he] at h
  serials := hb.serials

/-- **A call that is entered** gets an entry, if its id is free. -/
theorem enter (hb : t.Booked calls f) (hmem : call ∈ calls) {closed : Bool}
    (hf : f call = .unmade closed) (hf' : f' call = .waiting)
    (hrest : ∀ other ∈ calls, other ≠ call → f' other = f other)
    (hfree : t.find? call.id = none) :
    ({ t with entries := t.entries ++ [(call.id, call.serial)] } : CallTable).Booked calls f' where
  entries other := by
    have hpair : (other.id, other.serial) = (call.id, call.serial) ↔ other = call := by
      cases other
      cases call
      simp [and_comm]
    rw [List.mem_append, List.mem_singleton, hpair, hb.entries other]
    by_cases heq : other = call
    · subst heq; simp [hf', hmem]
    · simp only [heq, or_false]
      refine and_congr_right fun hother => ?_
      rw [hrest other hother heq]
  distinct := by
    -- The new id is not among the old ones, because nothing was found under it.
    rw [List.map_append, List.nodup_append]
    refine ⟨hb.distinct, by simp, ?_⟩
    intro a ha b hb'
    obtain ⟨⟨i, k⟩, hik, rfl⟩ := List.mem_map.mp ha
    have hb'' : b = call.id := by simpa using hb'
    rintro rfl
    exact find?_eq_none_iff.mp hfree k (hb'' ▸ hik)
  outcomes other hother := by
    have h := hb.outcomes_concat hmem (by rw [hf]; rfl) hrest hother
    rw [hf'] at h
    simpa using h
  strays := hb.strays
  serials := hb.serials

/-- **A call that ends while it waits** loses its entry, and nobody else does: of two calls with
one id at most one waits. -/
theorem settle (hb : t.Booked calls f) (hmem : call ∈ calls) (hf : f call = .waiting)
    {e : Ending} (hf' : f' call = .ended e)
    (hrest : ∀ other ∈ calls, other ≠ call → f' other = f other) :
    (t.settle call e).Booked calls f' where
  entries other := by
    rw [entries_settle, mem_erase, hb.entries other]
    by_cases heq : other = call
    · subst heq; simp [hf']
    · constructor
      · rintro ⟨⟨hother, hw⟩, -⟩
        exact ⟨hother, (hrest other hother heq).trans hw⟩
      · rintro ⟨hother, hw⟩
        rw [hrest other hother heq] at hw
        refine ⟨⟨hother, hw⟩, fun hid => heq ?_⟩
        -- Both would have entries under one id, and so one number.
        have h₁ := (hb.entries other).mpr ⟨hother, hw⟩
        have h₂ := (hb.entries call).mpr ⟨hmem, hf⟩
        rw [show other.id = call.id from hid] at h₁
        exact hb.serials other hother call hmem (snd_eq_of_mem hb.distinct h₁ h₂)
  distinct := by rw [entries_settle]; exact nodup_erase hb.distinct _
  outcomes other hother := by
    have h := hb.outcomes_concat hmem (by rw [hf]; rfl) hrest hother
    rw [outcomes_settle]
    rwa [hf'] at h
  strays := by rw [outcomes_settle]; exact hb.strays_concat hmem _
  serials := hb.serials

/-- An entry with the number of a call is the entry of that call, which waits. -/
theorem eq_of_serial (hb : t.Booked calls f) (hmem : call ∈ calls) {entry : RequestId × Nat}
    (hentry : entry ∈ t.entries) (hserial : entry.2 = call.serial) :
    entry = (call.id, call.serial) ∧ f call = .waiting := by
  obtain ⟨hin, hw⟩ := (hb.entries ⟨entry.2, entry.1⟩).mp hentry
  obtain rfl := hb.serials _ hin call hmem hserial
  exact ⟨rfl, hw⟩

/-- A call has one entry while it waits, and otherwise none. -/
theorem filter_entries (hb : t.Booked calls f) (hmem : call ∈ calls) :
    (f call = .waiting →
      (t.entries.filter fun entry => entry.2 == call.serial) = [(call.id, call.serial)])
    ∧ (f call ≠ .waiting → (t.entries.filter fun entry => entry.2 == call.serial) = []) := by
  constructor
  · intro hw
    have hin := (hb.entries call).mpr ⟨hmem, hw⟩
    -- An entry with its number is its entry, and no entry is there twice.
    have hcongr : (t.entries.filter fun entry => entry.2 == call.serial)
        = t.entries.filter (· == (call.id, call.serial)) := by
      refine List.filter_congr fun entry hentry => ?_
      rw [Bool.eq_iff_iff, beq_iff_eq, beq_iff_eq]
      constructor
      · exact fun h => (hb.eq_of_serial hmem hentry h).1
      · exact fun h => by rw [h]
    rw [hcongr, List.filter_beq, List.count_eq_one_of_mem hb.distinct.of_map hin]
    rfl
  · intro hnw
    rw [List.filter_eq_nil_iff]
    intro entry hentry h
    exact hnw (hb.eq_of_serial hmem hentry (beq_iff_eq.mp h)).2

/-- **When all calls fail,** each that waits gets one note, and the others get none. -/
theorem close (hb : t.Booked calls f)
    (hwait : ∀ other ∈ calls, f other = .waiting → f' other = .ended .closed)
    (hrest : ∀ other ∈ calls, f other ≠ .waiting →
      f' other ≠ .waiting ∧ (f' other).noted? = (f other).noted?) :
    t.close.Booked calls f' where
  entries other := by
    -- The table is empty afterwards, so it has to be shown that nobody waits.
    simp only [CallTable.close, List.not_mem_nil, false_iff, not_and]
    intro hother hw'
    by_cases hw : f other = .waiting
    · rw [hwait other hother hw] at hw'; cases hw'
    · exact (hrest other hother hw).1 hw'
  distinct := List.nodup_nil
  outcomes other hother := by
    simp only [CallTable.close, List.filter_append, List.filter_map, Function.comp_def]
    rw [hb.outcomes other hother]
    by_cases hw : f other = .waiting
    · -- Its one entry has become its one note.
      rw [(hb.filter_entries hother).1 hw, hw, hwait other hother hw]
      rfl
    · rw [(hb.filter_entries hother).2 hw, (hrest other hother hw).2]
      simp
  strays o ho := by
    rcases List.mem_append.mp ho with h | h
    · exact hb.strays o h
    · obtain ⟨entry, hentry, rfl⟩ := List.mem_map.mp h
      exact ⟨⟨entry.2, entry.1⟩, ((hb.entries ⟨entry.2, entry.1⟩).mp hentry).1, rfl⟩
  serials := hb.serials

/-! ### What can be read off the table -/

theorem find?_eq_some (hb : t.Booked calls f) {id : RequestId} {serial : Nat}
    (h : t.find? id = some serial) : ⟨serial, id⟩ ∈ calls ∧ f ⟨serial, id⟩ = .waiting :=
  (hb.entries ⟨serial, id⟩).mp ((find?_eq_some_iff hb.distinct).mp h)

theorem find?_of_waiting (hb : t.Booked calls f) (hmem : call ∈ calls)
    (hf : f call = .waiting) : t.find? call.id = some call.serial :=
  (find?_eq_some_iff hb.distinct).mpr ((hb.entries call).mpr ⟨hmem, hf⟩)

/-- **The outcome of a call** is what it has left in the log. There is none while it waits. -/
theorem outcome?_eq (hb : t.Booked calls f) (hmem : call ∈ calls) :
    (f call = .waiting → t.outcome? call = none)
    ∧ ∀ o, (f call).noted? = some o → t.outcome? call = some o := by
  -- The first note about it is the only one.
  have hfind : (t.outcomes.find? fun o => o.1 == call.serial)
      = (f call).noted?.map fun o => (call.serial, o) := by
    rw [← List.head?_filter, hb.outcomes call hmem]
    cases (f call).noted? <;> rfl
  unfold outcome?
  rw [hfind]
  constructor
  · intro hw
    have hin := (hb.entries call).mpr ⟨hmem, hw⟩
    have hany : (t.entries.any fun entry => entry.2 == call.serial) = true :=
      List.any_eq_true.mpr ⟨_, hin, by simp⟩
    simp [hw, hany]
  · intro o ho
    rw [ho]
    rfl

end Booked

end CallTable

end FlagServer
