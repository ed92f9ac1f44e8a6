import FlagServer.Proofs.Envelope
import FlagServer.Schema.Basic

/-!
# What has been read is read again

Many values are read as the same datum: an array stands for an object, an absent field for a null,
an object with one null for a word, and unknown keys for nothing. `Datum.encode` writes one of them,
and the reader takes that one for the datum it came from.

Three things could go wrong, and `Schema.isRegular` rules them out. A record with a name twice would
read both fields from one member. A union could take the written value for an earlier choice, which
it does not where all choices are `isScalar`, because those write exactly what they read. A URL is
written as its text, and what is asked of the text is said of the URLs that a datum holds.
-/

namespace FlagServer

/-! ## Members of an object -/

namespace Json

/-- A key that no member has is not found. -/
theorem lookup_eq_none {k : String} {members : List (String × Json)}
    (h : k ∉ members.map (·.1)) : lookup k members = none := by
  induction members with
  | nil => rfl
  | cons m members ih =>
    rw [List.map_cons, List.mem_cons, not_or] at h
    have hne : (m.1 == k) = false := beq_eq_false_iff_ne.mpr (Ne.symm h.1)
    simp [lookup, hne, ih h.2]

/-- What holds throughout the items holds throughout each. -/
theorem allItems_iff {p : Json → Bool} {items : List Json} :
    allItems p items = true ↔ ∀ v ∈ items, v.all p = true := by
  induction items with
  | nil => simp [allItems]
  | cons v items ih => simp [allItems, ih]

/-- What is found in an object is a value that a program can hold, if all its members are. -/
theorem isCanonical_of_lookup {k : String} {members : List (String × Json)} {v : Json}
    (hall : ∀ m ∈ members, m.2.isCanonical = true) (h : lookup k members = some v) :
    v.isCanonical = true := by
  induction members with
  | nil => cases h
  | cons m members ih =>
    rw [lookup] at h
    split at h
    · cases h
      exact hall m List.mem_cons_self
    · exact ih (fun n hn => hall n (List.mem_cons_of_mem m hn)) h

/-- Bindings of different keys are all found. -/
theorem lookup_foldl_bind (k : String) {members : List (String × Json)}
    (hnodup : (members.map (·.1)).Nodup) (acc : List (String × Json)) :
    lookup k (members.foldl (fun acc m => bind m.1 m.2 acc) acc)
      = (lookup k members).or (lookup k acc) := by
  induction members generalizing acc with
  | nil => rfl
  | cons m members ih =>
    rw [List.map_cons, List.nodup_cons] at hnodup
    rw [List.foldl_cons, ih hnodup.2, lookup_bind, lookup]
    by_cases hk : m.1 = k
    · have hnone : lookup k members = none := lookup_eq_none (hk ▸ hnodup.1)
      simp [hk, hnone]
    · simp [hk]

/-- A binding whose key is not wanted is not seen among the keys that are. -/
theorem filter_bind_neg {p : String → Bool} {key : String} (hp : p key = false) (v : Json)
    (members : List (String × Json)) :
    (bind key v members).filter (fun m => p m.1) = members.filter fun m => p m.1 := by
  fun_induction bind key v members with
  | case1 => simp [hp]
  | case2 k w rest hk => simp [beq_iff_eq.mp hk, hp]
  | case3 k w rest hk hbefore => simp [hp]
  | case4 k w rest hk hbefore ih => simp [List.filter_cons, ih]

/-- A key that comes before all others is bound at the front. -/
theorem bind_first {key : String} {members : List (String × Json)}
    (h : ∀ m ∈ members, Text.precedes key m.1 = true) (v : Json) :
    bind key v members = (key, v) :: members := by
  cases members with
  | nil => rfl
  | cons m members =>
    have hbefore := h m List.mem_cons_self
    have hne : (m.1 == key) = false := by
      rw [beq_eq_false_iff_ne]
      intro heq
      rw [heq, Text.precedes_irrefl] at hbefore
      cases hbefore
    simp [bind, hne, hbefore]

/-- A binding whose key is wanted stands among the wanted keys where it would without the rest. -/
theorem filter_bind_pos {p : String → Bool} {key : String} (hp : p key = true) (v : Json)
    {members : List (String × Json)} (hordered : Ordered members) :
    (bind key v members).filter (fun m => p m.1)
      = bind key v (members.filter fun m => p m.1) := by
  fun_induction bind key v members with
  | case1 => simp [hp, bind]
  | case2 k w rest hk => simp [beq_iff_eq.mp hk, hp, bind]
  | case3 k w rest hk hbefore =>
    rw [List.filter_cons, if_pos hp, bind_first]
    intro m hm
    rcases List.mem_cons.mp (List.mem_of_mem_filter hm) with rfl | hm
    · exact hbefore
    · exact Text.precedes_trans hbefore
        ((List.pairwise_cons.mp hordered).1 _ (List.mem_map_of_mem hm))
  | case4 k w rest hk hbefore ih =>
    have hrest := ih (List.pairwise_cons.mp hordered).2
    by_cases hkept : p k = true
    · simp [List.filter_cons_of_pos, hkept, hrest, bind, hk, hbefore]
    · simp [List.filter_cons_of_neg, hkept, hrest]

/-- Of members that are bound one after the other, only the wanted ones make the wanted part. -/
theorem filter_foldl_bind {p : String → Bool} {members acc : List (String × Json)}
    (hordered : Ordered acc) :
    (members.foldl (fun acc m => bind m.1 m.2 acc) acc).filter (fun m => p m.1)
      = (members.filter fun m => p m.1).foldl (fun acc m => bind m.1 m.2 acc)
          (acc.filter fun m => p m.1) := by
  induction members generalizing acc with
  | nil => rfl
  | cons m members ih =>
    rw [List.foldl_cons, ih (hordered.bind m.1 m.2)]
    by_cases hp : p m.1 = true
    · rw [filter_bind_pos hp m.2 hordered, List.filter_cons, if_pos hp, List.foldl_cons]
    · rw [filter_bind_neg (by simpa using hp), List.filter_cons, if_neg hp]

/-- Keys in order are different keys. -/
theorem Ordered.nodup {members : List (String × Json)} (h : Ordered members) :
    (members.map (·.1)).Nodup := by
  refine List.Pairwise.imp ?_ h
  intro a b hab heq
  rw [heq, Text.precedes_irrefl] at hab
  cases hab

end Json

/-! ## Data and their values -/

namespace Datum

mutual

/-- The URLs in a datum, in the order of the datum. -/
def urls : Datum → List Url
  | .uri u => [u]
  | .list items => urlsOfItems items
  | .record members => urlsOfMembers members
  | _ => []

/-- The URLs in the items. -/
def urlsOfItems : List Datum → List Url
  | [] => []
  | d :: ds => urls d ++ urlsOfItems ds

/-- The URLs in the members. -/
def urlsOfMembers : List (String × Datum) → List Url
  | [] => []
  | (_, d) :: ds => urls d ++ urlsOfMembers ds

end

/-- The text of every URL in a datum spells that URL. -/
def Spelled (d : Datum) : Prop :=
  ∀ u ∈ d.urls, Url.parse? u.text = some u

instance (d : Datum) : Decidable d.Spelled :=
  inferInstanceAs (Decidable (∀ u ∈ d.urls, Url.parse? u.text = some u))

theorem Spelled.of_uri {u : Url} (h : (Datum.uri u).Spelled) : Url.parse? u.text = some u :=
  h u (by simp [urls])

/-- The URLs of an item are among those of the list. -/
theorem mem_urlsOfItems {items : List Datum} {d : Datum} (hd : d ∈ items) {u : Url}
    (hu : u ∈ d.urls) : u ∈ urlsOfItems items := by
  induction items with
  | nil => cases hd
  | cons e items ih =>
    rw [urlsOfItems, List.mem_append]
    rcases List.mem_cons.mp hd with rfl | hd
    · exact .inl hu
    · exact .inr (ih hd)

/-- So what is asked of a list is asked of its items. -/
theorem Spelled.of_item {items : List Datum} (h : (Datum.list items).Spelled) {d : Datum}
    (hd : d ∈ items) : d.Spelled := by
  intro u hu
  apply h
  rw [urls]
  exact mem_urlsOfItems hd hu

/-- The URLs of a member are among those of the record. -/
theorem mem_urlsOfMembers {members : List (String × Datum)} {m : String × Datum}
    (hm : m ∈ members) {u : Url} (hu : u ∈ m.2.urls) : u ∈ urlsOfMembers members := by
  induction members with
  | nil => cases hm
  | cons n members ih =>
    rw [urlsOfMembers, List.mem_append]
    rcases List.mem_cons.mp hm with rfl | hm
    · exact .inl hu
    · exact .inr (ih hm)

/-- So what is asked of a record is asked of its members. -/
theorem Spelled.of_member {members : List (String × Datum)} (h : (Datum.record members).Spelled)
    {m : String × Datum} (hm : m ∈ members) : m.2.Spelled := by
  intro u hu
  apply h
  rw [urls]
  exact mem_urlsOfMembers hm hu

/-- Items are written one by one. -/
theorem encodeItems_eq (items : List Datum) : encodeItems items = items.map encode := by
  induction items with
  | nil => rfl
  | cons d items ih => rw [encodeItems, ih, List.map_cons]

/-- So are members, under the keys that they have. -/
theorem encodeMembers_eq (members : List (String × Datum)) :
    encodeMembers members = members.map fun m => (m.1, m.2.encode) := by
  induction members with
  | nil => rfl
  | cons m members ih => rw [encodeMembers, ih, List.map_cons]

/-- The keys of a record stay as they are. -/
theorem map_fst_encodeMembers (members : List (String × Datum)) :
    (encodeMembers members).map (·.1) = members.map (·.1) := by
  rw [encodeMembers_eq, List.map_map]
  rfl

/-- What is found under a key of the written record is what the member there is written as. -/
theorem lookup_encodeMembers (k : String) (members : List (String × Datum)) :
    Json.lookup k (encodeMembers members) = (lookup k members).map encode := by
  induction members with
  | nil => rfl
  | cons m members ih =>
    rw [encodeMembers, Json.lookup, ih, lookup]
    split <;> rfl

/-- The first member of a name is the one that counts. -/
theorem lookup_append (k : String) (ds more : List (String × Datum)) :
    lookup k (ds ++ more) = (lookup k ds).or (lookup k more) := by
  induction ds with
  | nil => rfl
  | cons m ds ih =>
    rw [List.cons_append, lookup, lookup, ih]
    split <;> rfl

/-- A name that no member has is not found in a record. -/
theorem lookup_eq_none {k : String} {members : List (String × Datum)}
    (h : k ∉ members.map (·.1)) : lookup k members = none := by
  have hnone : (lookup k members).map encode = none := by
    rw [← lookup_encodeMembers]
    apply Json.lookup_eq_none
    rwa [map_fst_encodeMembers]
  exact Option.map_eq_none_iff.mp hnone

end Datum

namespace Schema

/-! ## Values that are written as they were read -/

/-- A shape whose data are written exactly as they were read. -/
def isScalar : Schema → Bool
  | .unit | .bool | .int _ _ | .text | .any => true
  | _ => false

/-- What is read under a scalar shape is written as the value that it was read from. -/
theorem encode_of_isScalar {s : Schema} (hs : s.isScalar = true) {v : Json} {d : Datum}
    (h : s.decode? v = some d) : d.encode = v := by
  cases s with
  | unit => cases v <;> cases h; rfl
  | bool => cases v <;> cases h; rfl
  | int lo hi =>
    simp only [decode?] at h
    split at h
    · split at h <;> cases h
      rfl
    · cases h
  | text => cases v <;> cases h; rfl
  | any => cases h; rfl
  | _ => cases hs

/-- So is what is read under the first of some scalar shapes that fits. -/
theorem encode_of_decodeFirst? {choices : List Schema} (hs : choices.all isScalar = true) {v : Json}
    {d : Datum} (h : decodeFirst? choices v = some d) : d.encode = v := by
  induction choices with
  | nil => cases h
  | cons s choices ih =>
    rw [List.all_cons, Bool.and_eq_true] at hs
    simp only [decodeFirst?] at h
    split at h
    · case h_1 hfirst =>
      cases h
      exact encode_of_isScalar hs.1 hfirst
    · exact ih hs.2 h

mutual

/-- A datum is written as null exactly if it was read from null. -/
theorem isNull_encode : (s : Schema) → {v : Json} → {d : Datum} → s.decode? v = some d →
    isNull d.encode = isNull v
  | .unit, v, d, h => by rw [encode_of_isScalar (s := .unit) rfl h]
  | .bool, v, d, h => by rw [encode_of_isScalar (s := .bool) rfl h]
  | .int lo hi, v, d, h => by rw [encode_of_isScalar (s := .int lo hi) rfl h]
  | .text, v, d, h => by rw [encode_of_isScalar (s := .text) rfl h]
  | .any, v, d, h => by rw [encode_of_isScalar (s := .any) rfl h]
  | .uri, v, d, h => by
    cases v with
    | str s =>
      obtain ⟨u, -, rfl⟩ := Option.map_eq_some_iff.mp h
      rfl
    | _ => cases h
  | .word choices, v, d, h => by
    simp only [decode?] at h
    split at h
    · case h_1 s hword =>
      split at h <;> cases h
      -- A word is no null, whether it comes as a text or as an object.
      cases v <;> first | rfl | cases hword
    · cases h
  | .option item, v, d, h => by
    simp only [decode?] at h
    split at h
    · case isTrue hnull =>
      cases h
      exact hnull.symm
    · exact isNull_encode item h
  | .union choices, v, d, h => by
    simp only [decode?] at h
    exact isNull_encode_of_first choices h
  | .list item, v, d, h => by
    cases v with
    | arr vs =>
      simp only [decode?] at h
      obtain ⟨ds, -, rfl⟩ := Option.map_eq_some_iff.mp h
      rfl
    | _ => cases h
  | .record positional fields others, v, d, h => by
    cases v with
    | obj members =>
      simp only [decode?] at h
      split at h <;> cases h
      rfl
    | arr vs =>
      simp only [decode?] at h
      split at h
      · obtain ⟨ds, -, rfl⟩ := Option.map_eq_some_iff.mp h
        rfl
      · cases h
    | _ => cases h

/-- The same of the first of some shapes that fits. -/
theorem isNull_encode_of_first : (choices : List Schema) → {v : Json} → {d : Datum} →
    decodeFirst? choices v = some d → isNull d.encode = isNull v
  | [], v, d, h => by cases h
  | s :: choices, v, d, h => by
    simp only [decodeFirst?] at h
    split at h
    · case h_1 hfirst =>
      cases h
      exact isNull_encode s hfirst
    · exact isNull_encode_of_first choices h

end

/-! ## Reading again -/

/-- What is read under a schema is read again from the value that it is written as. -/
def Restores (s : Schema) : Prop :=
  ∀ ⦃v d⦄, v.isCanonical = true → s.decode? v = some d → d.Spelled → s.decode? d.encode = some d

/-- What a field has given, it gives again from what that is written as. -/
theorem decodeField?_again {name : String} {presence : Presence} {s : Schema} (hs : s.Restores)
    {found : Option Json} (hfound : ∀ v, found = some v → v.isCanonical = true)
    {part : List (String × Datum)}
    (h : decodeField? name presence (decode? s) found = some part)
    (hspelled : ∀ x ∈ part, x.2.Spelled) :
    decodeField? name presence (decode? s) ((Datum.lookup name part).map Datum.encode)
      = some part := by
  -- A value that was read is read again, and it is null only if it was.
  have hread : ∀ {v}, found = some v → (decode? s v).map (fun d => [(name, d)]) = some part →
      ∃ d, part = [(name, d)] ∧ decode? s d.encode = some d ∧ isNull d.encode = isNull v := by
    intro v hv hmap
    obtain ⟨d, hd, rfl⟩ := Option.map_eq_some_iff.mp hmap
    have hspelled : d.Spelled := hspelled (name, d) List.mem_cons_self
    exact ⟨d, rfl, hs (hfound v hv) hd hspelled, isNull_encode s hd⟩
  cases found with
  | none => cases presence <;> cases h <;> simp [Datum.lookup, decodeField?, Datum.encode, isNull]
  | some v =>
    cases presence with
    | required | preset =>
      obtain ⟨d, rfl, hd, -⟩ := hread rfl h
      simp [Datum.lookup, decodeField?, hd]
    | optional | trailing | nullable =>
      simp only [decodeField?] at h
      split at h
      · cases h
        simp [Datum.lookup, decodeField?, Datum.encode, isNull]
      · case isFalse hnull =>
        obtain ⟨d, rfl, hd, hencode⟩ := hread rfl h
        -- It was no null, so it is not written as one, and the field does not take it for absent.
        simp [Datum.lookup, decodeField?, hd, hencode, hnull]

/-- Members are what fields have given, one after the other, each from a value that a program can
hold or from none. Objects and arrays are both read in this way. -/
inductive Given : List (String × Presence × Schema) → List (String × Datum) → Prop where
  | nil : Given [] []
  | cons {name : String} {presence : Presence} {s : Schema}
      {fields : List (String × Presence × Schema)} {found : Option Json}
      {part more : List (String × Datum)}
      (canonical : ∀ v, found = some v → v.isCanonical = true)
      (field : decodeField? name presence (decode? s) found = some part)
      (rest : Given fields more) : Given ((name, presence, s) :: fields) (part ++ more)

/-- The members of an object are read field by field. -/
theorem given_of_decodeFields? {fields : List (String × Presence × Schema)}
    {members : List (String × Json)} (hmembers : ∀ m ∈ members, m.2.isCanonical = true)
    {ds : List (String × Datum)} (h : decodeFields? fields members = some ds) :
    Given fields ds := by
  induction fields generalizing ds with
  | nil =>
    cases h
    exact .nil
  | cons f fields ih =>
    simp only [decodeFields?] at h
    split at h
    · case h_1 hpart hmore =>
      cases h
      exact .cons (fun v hv => Json.isCanonical_of_lookup hmembers hv) hpart (ih hmore)
    · cases h

/-- So are the items of an array, and where the array has ended each field has nothing before it. -/
theorem given_of_decodePlaces? {fields : List (String × Presence × Schema)} {vs : List Json}
    (hvs : ∀ v ∈ vs, v.isCanonical = true) {ds : List (String × Datum)}
    (h : decodePlaces? fields vs = some ds) : Given fields ds := by
  induction fields generalizing vs ds with
  | nil =>
    cases vs <;> cases h
    exact .nil
  | cons f fields ih =>
    cases vs with
    | nil =>
      simp only [decodePlaces?] at h
      split at h
      · split at h
        · case h_1 hpart hmore =>
          cases h
          exact .cons (by simp) hpart (ih hvs hmore)
        · cases h
      · cases h
    | cons v vs =>
      simp only [decodePlaces?] at h
      rw [List.forall_mem_cons] at hvs
      split at h
      · case h_1 hpart hmore =>
        cases h
        exact .cons (by simpa using hvs.1) hpart (ih hvs.2 hmore)
      · cases h

/-- Fields give members under their own names, in their order. -/
theorem Given.sublist {fields : List (String × Presence × Schema)} {ds : List (String × Datum)}
    (h : Given fields ds) : (ds.map (·.1)).Sublist (fields.map (·.1)) := by
  induction h with
  | nil => exact .slnil
  | @cons name presence s fields found part more hfound hpart hmore ih =>
    rw [List.map_append, List.map_cons, ← List.singleton_append]
    refine List.Sublist.append ?_ ih
    rcases eq_of_decodeField? hpart with rfl | ⟨d, rfl⟩ <;> simp

/-- Fields of different names give the same members again from any object that binds the names as
the members do. -/
theorem Given.decodeFields?_again {fields : List (String × Presence × Schema)}
    {ds : List (String × Datum)} (h : Given fields ds) (hnodup : (fields.map (·.1)).Nodup)
    (hs : ∀ f ∈ fields, f.2.2.Restores) (hspelled : ∀ x ∈ ds, x.2.Spelled)
    {members : List (String × Json)}
    (hlookup : ∀ f ∈ fields,
      Json.lookup f.1 members = (Datum.lookup f.1 ds).map Datum.encode) :
    decodeFields? fields members = some ds := by
  induction h with
  | nil => rfl
  | @cons name presence s fields found part more hfound hpart hmore ih =>
    rw [List.map_cons, List.nodup_cons] at hnodup
    rw [List.forall_mem_cons] at hs hlookup
    rw [List.forall_mem_append] at hspelled
    -- The other fields gave nothing under this name, and this field nothing under theirs.
    have hname : Datum.lookup name more = none :=
      Datum.lookup_eq_none fun hmem => hnodup.1 (hmore.sublist.subset hmem)
    have hthis : Json.lookup name members = (Datum.lookup name part).map Datum.encode := by
      rw [hlookup.1, Datum.lookup_append, hname, Option.or_none]
    have hothers : ∀ f ∈ fields,
        Json.lookup f.1 members = (Datum.lookup f.1 more).map Datum.encode := by
      intro f hf
      have hne : name ≠ f.1 := by
        intro heq
        apply hnodup.1
        rw [heq]
        exact List.mem_map.mpr ⟨f, hf, rfl⟩
      have hnone : Datum.lookup f.1 part = none := by
        rcases eq_of_decodeField? hpart with rfl | ⟨d, rfl⟩
        · rfl
        · simp [Datum.lookup, hne]
      rw [hlookup.2 f hf, Datum.lookup_append, hnone, Option.none_or]
    have hfield := decodeField?_again hs.1 hfound hpart hspelled.1
    have hrest := ih hnodup.2 hs.2 hspelled.2 hothers
    simp only [decodeFields?, hthis, hfield, hrest]

/-! ### Lists and the other members of an object -/

/-- Items that were read one by one are read again from what they are written as. -/
theorem mapM_decode?_again {s : Schema} (hs : s.Restores) {vs : List Json} {ds : List Datum}
    (hvs : ∀ v ∈ vs, v.isCanonical = true) (h : vs.mapM (decode? s) = some ds)
    (hspelled : ∀ d ∈ ds, d.Spelled) : (ds.map Datum.encode).mapM (decode? s) = some ds := by
  induction vs generalizing ds with
  | nil =>
    cases h
    rfl
  | cons v vs ih =>
    rw [List.mapM_cons] at h
    obtain ⟨d, hd, hrest⟩ := Option.bind_eq_some_iff.mp h
    obtain ⟨more, hmore, hds⟩ := Option.bind_eq_some_iff.mp hrest
    cases hds
    rw [List.forall_mem_cons] at hvs hspelled
    rw [List.map_cons, List.mapM_cons, hs hvs.1 hd hspelled.1, ih hvs.2 hmore hspelled.2]
    rfl

/-- The members that no field reads keep their keys, and are read again from what they are written
as. -/
theorem decodeOthers?_again {others : Option Schema} (hs : ∀ s ∈ others, s.Restores)
    {members : List (String × Json)} {more : List (String × Datum)}
    (hmembers : ∀ m ∈ members, m.2.isCanonical = true)
    (h : decodeOthers? others members = some more)
    (hspelled : ∀ x ∈ more, x.2.Spelled) :
    (more.map (·.1)).Sublist (members.map (·.1))
      ∧ decodeOthers? others (Datum.encodeMembers more) = some more := by
  cases others with
  | none =>
    cases h
    simp [decodeOthers?]
  | some s =>
    simp only [decodeOthers?] at h ⊢
    induction members generalizing more with
    | nil =>
      cases h
      exact ⟨.slnil, rfl⟩
    | cons m members ih =>
      rw [List.mapM_cons] at h
      obtain ⟨x, hx, htail⟩ := Option.bind_eq_some_iff.mp h
      obtain ⟨d, hd, rfl⟩ := Option.map_eq_some_iff.mp hx
      obtain ⟨rest, hrest, hmore⟩ := Option.bind_eq_some_iff.mp htail
      cases hmore
      rw [List.forall_mem_cons] at hmembers hspelled
      obtain ⟨hkeys, hagain⟩ := ih hmembers.2 hspelled.2 hrest
      refine ⟨hkeys.cons_cons m.1, ?_⟩
      rw [Datum.encodeMembers, List.mapM_cons, hs s rfl hmembers.1 hd hspelled.1, hagain]
      rfl

/-! ### Records -/

section Record

variable {positional : Bool} {fields : List (String × Presence × Schema)} {others : Option Schema}
  (hnodup : (fields.map (·.1)).Nodup) (hfields : ∀ f ∈ fields, f.2.2.Restores)
  (hothers : ∀ s ∈ others, s.Restores)

include hnodup hfields

omit hnodup hfields in
theorem unread_iff {k : String} :
    (!fields.any fun f => f.1 == k) = true ↔ k ∉ fields.map (·.1) := by
  rw [Bool.not_eq_true', ← Bool.not_eq_true, List.any_eq_true, List.mem_map]
  simp only [beq_iff_eq]

omit hnodup hfields in
/-- Of the members of a record, those that no field reads are the rest. -/
theorem filter_encodeMembers {ds more : List (String × Datum)} (hds : Given fields ds)
    (hapart : ∀ x ∈ more, x.1 ∉ fields.map (·.1)) :
    (Datum.encodeMembers (ds ++ more)).filter (fun m => !fields.any fun f => f.1 == m.1)
      = Datum.encodeMembers more := by
  rw [Datum.encodeMembers_eq, Datum.encodeMembers_eq, List.map_append, List.filter_append]
  have hleft : (ds.map fun m => (m.1, m.2.encode)).filter
      (fun m => !fields.any fun f => f.1 == m.1) = [] := by
    rw [List.filter_eq_nil_iff]
    intro m hm
    obtain ⟨x, hx, rfl⟩ := List.mem_map.mp hm
    rw [unread_iff, not_not]
    exact hds.sublist.subset (List.mem_map_of_mem hx)
  have hright : (more.map fun m => (m.1, m.2.encode)).filter
      (fun m => !fields.any fun f => f.1 == m.1) = more.map fun m => (m.1, m.2.encode) := by
    rw [List.filter_eq_self]
    intro m hm
    obtain ⟨x, hx, rfl⟩ := List.mem_map.mp hm
    rw [unread_iff]
    exact hapart x hx
  rw [hleft, hright, List.nil_append]

/-- A record is read again from the object that it is written as, if the fields gave one part of it
and other keys, in their order, the rest. -/
theorem decode?_record_again {ds more : List (String × Datum)} (hds : Given fields ds)
    (hkeys : (more.map (·.1)).Pairwise fun a b => Text.precedes a b = true)
    (hapart : ∀ x ∈ more, x.1 ∉ fields.map (·.1))
    (hmore : decodeOthers? others (Datum.encodeMembers more) = some more)
    (hspelled : (Datum.record (ds ++ more)).Spelled) :
    decode? (.record positional fields others) (Datum.record (ds ++ more)).encode
      = some (.record (ds ++ more)) := by
  have hordered : Json.Ordered (Datum.encodeMembers more) := by
    rw [Json.Ordered, Datum.map_fst_encodeMembers]
    exact hkeys
  have hdistinct : ((Datum.encodeMembers (ds ++ more)).map (·.1)).Nodup := by
    rw [Datum.map_fst_encodeMembers, List.map_append, List.nodup_append]
    refine ⟨hds.sublist.nodup hnodup, ?_, ?_⟩
    · rw [← Datum.map_fst_encodeMembers]
      exact hordered.nodup
    · intro a ha b hb heq
      obtain ⟨x, hx, rfl⟩ := List.mem_map.mp hb
      exact hapart x hx (heq ▸ hds.sublist.subset ha)
  rw [Datum.encode, Json.ofMembers]
  generalize hmembers : (Datum.encodeMembers (ds ++ more)).foldl _ [] = members
  -- Under the name of a field there is what the field gave, since the other members have other
  -- names.
  have hread : decodeFields? fields members = some ds := by
    refine hds.decodeFields?_again hnodup hfields
      (fun x hx => hspelled.of_member (List.mem_append_left _ hx)) ?_
    intro f hf
    have hnone : Datum.lookup f.1 more = none := by
      apply Datum.lookup_eq_none
      intro hmem
      obtain ⟨x, hx, heq⟩ := List.mem_map.mp hmem
      exact hapart x hx (heq ▸ List.mem_map_of_mem hf)
    rw [← hmembers, Json.lookup_foldl_bind f.1 hdistinct, Datum.lookup_encodeMembers,
      Datum.lookup_append, hnone]
    simp [Json.lookup]
  -- And what no field reads is what was left over, in its order.
  have hrest : members.filter (fun m => !fields.any fun f => f.1 == m.1)
      = Datum.encodeMembers more := by
    have hnil : Json.Ordered [] := .nil
    rw [← hmembers, Json.filter_foldl_bind (p := fun k => !fields.any fun f => f.1 == k) hnil,
      filter_encodeMembers hds hapart, List.filter_nil, Json.foldl_bind hordered, List.nil_append]
  simp only [decode?, hread, hrest, hmore]

include hothers

/-- **A record is read again,** whether it came as an object or as an array. It is written as an
object either way, and its fields and its other members are read again by themselves. -/
theorem restores_record : (Schema.record positional fields others).Restores := by
  intro v d hv h hspelled
  cases v with
  | obj members =>
    rw [Json.isCanonical, Json.all, Bool.and_eq_true, Json.allMembers_iff] at hv
    have hordered : Json.Ordered members := of_decide_eq_true hv.1
    simp only [decode?] at h
    split at h
    · case h_1 ds more hds hmore =>
      cases h
      have hfiltered : ∀ m ∈ members.filter (fun m => !fields.any fun f => f.1 == m.1),
          m.2.isCanonical = true := fun m hm => hv.2 m (List.mem_of_mem_filter hm)
      obtain ⟨hkeys, hagain⟩ := decodeOthers?_again hothers hfiltered hmore
        fun x hx => hspelled.of_member (List.mem_append_right _ hx)
      refine decode?_record_again hnodup hfields (given_of_decodeFields? hv.2 hds) ?_ ?_ hagain
        hspelled
      · -- The other members stand in the order in which they came.
        exact hordered.sublist (hkeys.trans (List.filter_sublist.map _))
      · intro x hx
        obtain ⟨m, hm, heq⟩ := List.mem_map.mp (hkeys.subset (List.mem_map_of_mem hx))
        have hm := (List.mem_filter.mp hm).2
        rw [heq] at hm
        exact unread_iff.mp hm
    · cases h
  | arr vs =>
    rw [Json.isCanonical, Json.all, Bool.and_eq_true, Json.allItems_iff] at hv
    simp only [decode?] at h
    split at h
    · obtain ⟨ds, hds, rfl⟩ := Option.map_eq_some_iff.mp h
      -- An array has no other members.
      rw [← List.append_nil ds] at hspelled ⊢
      refine decode?_record_again hnodup hfields (given_of_decodePlaces? hv.2 hds) .nil (by simp) ?_
        hspelled
      cases others <;> rfl
    · cases h
  | _ => cases h

end Record

/-! ### All schemas -/

mutual

/-- A schema under which whatever has been read is read again: the fields of each record have
different names, and the choices of each union are scalar. -/
def isRegular : Schema → Bool
  | .option item => isRegular item
  | .union choices => choices.all isScalar
  | .list item => isRegular item
  | .record _ fields others =>
    decide (fields.map (·.1)).Nodup && areRegular fields && isRegularIfAny others
  | _ => true

/-- All fields have regular schemas. -/
def areRegular : List (String × Presence × Schema) → Bool
  | [] => true
  | (_, _, s) :: fields => isRegular s && areRegular fields

/-- The schema of other members, if there is one, is regular. -/
def isRegularIfAny : Option Schema → Bool
  | none => true
  | some s => isRegular s

end

mutual

/-- **What has been read is read again.** -/
theorem restores_of_isRegular : (s : Schema) → s.isRegular = true → s.Restores
  | .unit, _ => fun v d _ h _ => by rwa [encode_of_isScalar (s := .unit) rfl h]
  | .bool, _ => fun v d _ h _ => by rwa [encode_of_isScalar (s := .bool) rfl h]
  | .int lo hi, _ => fun v d _ h _ => by rwa [encode_of_isScalar (s := .int lo hi) rfl h]
  | .text, _ => fun v d _ h _ => by rwa [encode_of_isScalar (s := .text) rfl h]
  | .any, _ => fun v d _ h _ => by rwa [encode_of_isScalar (s := .any) rfl h]
  | .uri, _ => by
    intro v d hv h hspelled
    cases v with
    | str s =>
      obtain ⟨u, -, rfl⟩ := Option.map_eq_some_iff.mp h
      simp [decode?, Datum.encode, hspelled.of_uri]
    | _ => cases h
  | .word choices, _ => by
    intro v d hv h hspelled
    simp only [decode?] at h
    split at h
    · split at h
      · case isTrue hmem =>
        cases h
        simpa [decode?, Datum.encode, wordOf?] using hmem
      · cases h
    · cases h
  | .option item, hs => by
    intro v d hv h hspelled
    simp only [decode?] at h
    split at h
    · cases h
      rfl
    · case isFalse hnull =>
      rw [isRegular] at hs
      have hagain := restores_of_isRegular item hs hv h hspelled
      simp [decode?, isNull_encode item h, hnull, hagain]
  | .union choices, hs => by
    intro v d hv h hspelled
    rw [isRegular] at hs
    -- The choices are scalar, so it is written as the value that it was read from.
    have hsame : d.encode = v := encode_of_decodeFirst? hs (by simpa only [decode?] using h)
    rwa [hsame]
  | .list item, hs => by
    intro v d hv h hspelled
    cases v with
    | arr vs =>
      rw [isRegular] at hs
      rw [Json.isCanonical, Json.all, Bool.and_eq_true, Json.allItems_iff] at hv
      simp only [decode?] at h
      obtain ⟨ds, hds, rfl⟩ := Option.map_eq_some_iff.mp h
      have hagain := mapM_decode?_again (restores_of_isRegular item hs) hv.2 hds
        fun d hd => hspelled.of_item hd
      simp [decode?, Datum.encode, Datum.encodeItems_eq, hagain]
    | _ => cases h
  | .record positional fields others, hs => by
    simp only [isRegular, Bool.and_eq_true, decide_eq_true_eq] at hs
    exact restores_record hs.1.1 (restores_of_areRegular fields hs.1.2)
      (restores_of_isRegularIfAny others hs.2)

/-- The same of each field of a record. -/
theorem restores_of_areRegular : (fields : List (String × Presence × Schema)) →
    areRegular fields = true → ∀ f ∈ fields, f.2.2.Restores
  | [], _ => by simp
  | (name, presence, s) :: fields, hs => by
    rw [areRegular, Bool.and_eq_true] at hs
    rw [List.forall_mem_cons]
    exact ⟨restores_of_isRegular s hs.1, restores_of_areRegular fields hs.2⟩

/-- The same of its other members. -/
theorem restores_of_isRegularIfAny : (others : Option Schema) → isRegularIfAny others = true →
    ∀ s ∈ others, s.Restores
  | none, _ => by simp
  | some s, hs => by
    rw [isRegularIfAny] at hs
    intro t ht
    cases ht
    exact restores_of_isRegular s hs

end

end Schema

end FlagServer
