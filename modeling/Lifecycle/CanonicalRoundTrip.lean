import Lifecycle.CanonicalReading

/-!
# The round trip of canonical JSON

The values of the domain, whole numbers and different keys, and what holds of
their texts (`roundTrip_iff`): both are read back, and the canonical text is that
of one value alone, up to the order of its keys. It fails for the values with a
string or a key that ends in a high surrogate, which are written and not read.
-/

open Fallible CodeUnits Json StrictJson

namespace CanonicalDomain

/-! ## The domain -/

/-- The numbers of the domain: safe integers, and the negative zero. -/
def HostNumber.Whole : HostNumber → Prop
  | .negativeZero => True
  | .integer n => n.natAbs ≤ maxSafeInteger
  | .fraction _ => False
  | .nonFinite => False

mutual
/-- No object of the value has a key twice. -/
def DistinctKeys : HostValue → Prop
  | .array items => DistinctKeysItems items
  | .object members => (members.map Prod.fst).Nodup ∧ DistinctKeysMembers members
  | _ => True

def DistinctKeysItems : List HostValue → Prop
  | [] => True
  | v :: vs => DistinctKeys v ∧ DistinctKeysItems vs

def DistinctKeysMembers : List (CodeUnits × HostValue) → Prop
  | [] => True
  | (_, v) :: ms => DistinctKeys v ∧ DistinctKeysMembers ms
end

/-- **A value of the domain**, which has a canonical text. -/
structure InDomain (v : HostValue) : Prop where
  numbers : ∀ n ∈ v.numbers, n.Whole
  keys : DistinctKeys v
  text : ∃ t, canonicalJson v = .ok t

/-! ## Values of the reader -/

theorem plainMembers_of_forall {members : List (String × Json)} (h : ∀ m ∈ members, m.2.Plain) :
    PlainMembers members := by
  induction members with
  | nil => trivial
  | cons m ms ih =>
    exact ⟨h m List.mem_cons_self, ih fun n hn => h n (List.mem_cons_of_mem m hn)⟩

theorem distinctNamesMembers_of_forall {members : List (String × Json)}
    (h : ∀ m ∈ members, m.2.DistinctNames) : DistinctNamesMembers members := by
  induction members with
  | nil => trivial
  | cons m ms ih =>
    exact ⟨h m List.mem_cons_self, ih fun n hn => h n (List.mem_cons_of_mem m hn)⟩

/-- The members of an object in the order of their keys are those of a plain
object. -/
theorem plain_sorted {members : List (String × Json)} (hnames : (keys members).Nodup)
    (h : ∀ m ∈ members, m.2.Plain ∧ m.2.DistinctNames) :
    (Json.object (members.insertionSort fun a b => codeUnitLe a.1 b.1 = true)).Plain
      ∧ (Json.object (members.insertionSort fun a b => codeUnitLe a.1 b.1 = true)).DistinctNames := by
  have : Std.Total fun a b : String × Json => codeUnitLe a.1 b.1 = true := ⟨fun _ _ => lexLe_total _ _⟩
  have : IsTrans (String × Json) fun a b => codeUnitLe a.1 b.1 = true := ⟨fun _ _ _ => lexLe_trans⟩
  have hperm := List.perm_insertionSort (fun a b : String × Json => codeUnitLe a.1 b.1 = true) members
  refine ⟨⟨plainMembers_of_forall fun m hm => (h m (hperm.mem_iff.mp hm)).1,
    List.pairwise_map.mpr (List.pairwise_insertionSort _ members)⟩,
    (hperm.map Prod.fst).nodup_iff.mpr hnames,
    distinctNamesMembers_of_forall fun m hm => (h m (hperm.mem_iff.mp hm)).2⟩

theorem memberStrings_cons (name : CodeUnits) (v : HostValue) (ms : List (CodeUnits × HostValue)) :
    memberStrings ((name, v) :: ms) = name :: (v.strings ++ memberStrings ms) := rfl

mutual
/-- **A value of the domain whose strings spell characters** is one that the
reader may return, in order. -/
theorem exists_json : ∀ {v : HostValue}, (∀ s ∈ v.strings, Scalar s) →
    (∀ n ∈ v.numbers, n.Whole) → DistinctKeys v →
    ∃ j, hostOf j = ordered v ∧ j.Plain ∧ j.DistinctNames
  | .null, _, _, _ => ⟨.null, rfl, trivial, trivial⟩
  | .bool b, _, _, _ => ⟨.bool b, rfl, trivial, trivial⟩
  | .string s, hstrings, _, _ => by
    obtain ⟨text, rfl⟩ := exists_sourceUnits (hstrings s (List.mem_singleton_self s))
    exact ⟨.string text, rfl, trivial, trivial⟩
  | .number .negativeZero, _, _, _ => ⟨.number (.integer 0), rfl, Nat.zero_le _, trivial⟩
  | .number (.integer n), _, hnumbers, _ =>
    ⟨.number (.integer n), rfl, hnumbers _ (List.mem_singleton_self _), trivial⟩
  | .number (.fraction _), _, hnumbers, _ => (hnumbers _ (List.mem_singleton_self _)).elim
  | .number .nonFinite, _, hnumbers, _ => (hnumbers _ (List.mem_singleton_self _)).elim
  | .array items, hstrings, hnumbers, hkeys => by
    obtain ⟨js, hjs, hplain, hnames⟩ := @exists_json_items items hstrings hnumbers hkeys
    exact ⟨.array js, by rw [hostOf, ordered, hjs], hplain, hnames⟩
  | .object members, hstrings, hnumbers, hkeys => by
    obtain ⟨js, hjs, hall⟩ := @exists_json_members members hstrings hnumbers hkeys.2
    have hnames : (keys js).Nodup := by
      have hmap : (keys js).map sourceUnits = members.map Prod.fst := by
        have hfst := congrArg (List.map Prod.fst) hjs
        rw [hostMembers_eq_map, orderedMembers_eq_map, List.map_map, List.map_map] at hfst
        rw [keys, List.map_map]
        exact hfst
      exact (hmap ▸ hkeys.1).of_map _
    obtain ⟨hplain, hdistinct⟩ := plain_sorted hnames hall
    refine ⟨_, ?_, hplain, hdistinct⟩
    rw [hostOf, ordered, ← hjs, sortMembers_hostMembers]

theorem exists_json_items : ∀ {items : List HostValue}, (∀ s ∈ itemStrings items, Scalar s) →
    (∀ n ∈ itemNumbers items, n.Whole) → DistinctKeysItems items →
    ∃ js, hostItems js = orderedItems items ∧ PlainItems js ∧ DistinctNamesItems js
  | [], _, _, _ => ⟨[], rfl, trivial, trivial⟩
  | v :: vs, hstrings, hnumbers, hkeys => by
    rw [itemStrings, List.forall_mem_append] at hstrings
    rw [itemNumbers, List.forall_mem_append] at hnumbers
    obtain ⟨j, hj, hplain, hnames⟩ := @exists_json v hstrings.1 hnumbers.1 hkeys.1
    obtain ⟨js, hjs, hplains, hnamess⟩ := @exists_json_items vs hstrings.2 hnumbers.2 hkeys.2
    exact ⟨j :: js, by rw [hostItems, orderedItems, hj, hjs], ⟨hplain, hplains⟩, hnames, hnamess⟩

theorem exists_json_members : ∀ {members : List (CodeUnits × HostValue)},
    (∀ s ∈ memberStrings members, Scalar s) → (∀ n ∈ memberNumbers members, n.Whole) →
    DistinctKeysMembers members →
    ∃ js, hostMembers js = orderedMembers members ∧ ∀ m ∈ js, m.2.Plain ∧ m.2.DistinctNames
  | [], _, _, _ => ⟨[], rfl, List.forall_mem_nil _⟩
  | (name, v) :: ms, hstrings, hnumbers, hkeys => by
    rw [memberStrings_cons, List.forall_mem_cons, List.forall_mem_append] at hstrings
    rw [memberNumbers, List.forall_mem_append] at hnumbers
    obtain ⟨text, rfl⟩ := exists_sourceUnits hstrings.1
    obtain ⟨j, hj, hplain⟩ := @exists_json v hstrings.2.1 hnumbers.1 hkeys.1
    obtain ⟨js, hjs, hplains⟩ := @exists_json_members ms hstrings.2.2 hnumbers.2 hkeys.2
    exact ⟨(text, j) :: js, by rw [hostMembers, orderedMembers, hj, hjs],
      List.forall_mem_cons.mpr ⟨hplain, hplains⟩⟩
end

/-! ## The strings of a value -/

theorem mem_memberStrings {s : CodeUnits} {members : List (CodeUnits × HostValue)} :
    s ∈ memberStrings members ↔ ∃ m ∈ members, s = m.1 ∨ s ∈ m.2.strings := by
  induction members with
  | nil => simp [memberStrings]
  | cons m ms ih =>
    obtain ⟨name, v⟩ := m
    rw [memberStrings_cons, List.mem_cons, List.mem_append, ih, List.exists_mem_cons_iff, or_assoc]

/-- The strings of an object, whatever the order of its members. -/
theorem mem_strings_sortMembers {s : CodeUnits} {members : List (CodeUnits × HostValue)} :
    s ∈ memberStrings (sortMembers members) ↔ s ∈ memberStrings members := by
  rw [mem_memberStrings, mem_memberStrings]
  simp only [mem_sortMembers]

mutual
/-- **A value in order has the strings it had.** -/
theorem mem_strings_ordered : ∀ (v : HostValue) {s : CodeUnits},
    s ∈ (ordered v).strings ↔ s ∈ v.strings
  | .null, _ => Iff.rfl
  | .bool _, _ => Iff.rfl
  | .string _, _ => Iff.rfl
  | .number .negativeZero, _ => Iff.rfl
  | .number (.integer _), _ => Iff.rfl
  | .number (.fraction _), _ => Iff.rfl
  | .number .nonFinite, _ => Iff.rfl
  | .array items, _ => mem_itemStrings_ordered items
  | .object members, _ => mem_strings_sortMembers.trans (mem_memberStrings_ordered members)

theorem mem_itemStrings_ordered : ∀ (items : List HostValue) {s : CodeUnits},
    s ∈ itemStrings (orderedItems items) ↔ s ∈ itemStrings items
  | [], _ => Iff.rfl
  | v :: vs, s => by
    rw [orderedItems, itemStrings, itemStrings, List.mem_append, List.mem_append,
      mem_strings_ordered v, mem_itemStrings_ordered vs]

theorem mem_memberStrings_ordered : ∀ (members : List (CodeUnits × HostValue)) {s : CodeUnits},
    s ∈ memberStrings (orderedMembers members) ↔ s ∈ memberStrings members
  | [], _ => Iff.rfl
  | (name, v) :: ms, s => by
    rw [orderedMembers, memberStrings_cons, memberStrings_cons, List.mem_cons, List.mem_cons,
      List.mem_append, List.mem_append, mem_strings_ordered v, mem_memberStrings_ordered ms]
end

mutual
/-- **The strings the reader returns spell characters.** -/
theorem scalar_strings_hostOf : ∀ (j : Json), ∀ s ∈ (hostOf j).strings, Scalar s
  | .null, _, h => absurd h List.not_mem_nil
  | .bool _, _, h => absurd h List.not_mem_nil
  | .number (.integer _), _, h => absurd h List.not_mem_nil
  | .number (.fraction _), _, h => absurd h List.not_mem_nil
  | .number (.nonFinite _), _, h => absurd h List.not_mem_nil
  | .string text, s, h => by
    rw [List.mem_singleton.mp h]
    exact scalar_unitsOf text.toList
  | .array items, _, h => scalar_itemStrings_hostOf items _ h
  | .object members, _, h => scalar_memberStrings_hostOf members _ h

theorem scalar_itemStrings_hostOf : ∀ (items : List Json),
    ∀ s ∈ itemStrings (hostItems items), Scalar s
  | [], _, h => absurd h List.not_mem_nil
  | j :: js, s, h => by
    rw [hostItems, itemStrings, List.mem_append] at h
    exact h.elim (scalar_strings_hostOf j s) (scalar_itemStrings_hostOf js s)

theorem scalar_memberStrings_hostOf : ∀ (members : List (String × Json)),
    ∀ s ∈ memberStrings (hostMembers members), Scalar s
  | [], _, h => absurd h List.not_mem_nil
  | (name, j) :: ms, s, h => by
    rw [hostMembers, memberStrings_cons, List.mem_cons, List.mem_append] at h
    rcases h with rfl | h | h
    · exact scalar_unitsOf name.toList
    · exact scalar_strings_hostOf j s h
    · exact scalar_memberStrings_hostOf ms s h
end

mutual
/-- Values that agree have the same strings. -/
theorem Agree.strings : ∀ {v w : HostValue}, Agree v w → ∀ s ∈ w.strings, s ∈ v.strings
  | _, _, .null, _, h => h
  | _, _, .bool _, _, h => h
  | _, _, .number _ _, _, h => h
  | _, _, .string _, _, h => h
  | _, _, .array hitems, s, h => hitems.strings s h
  | _, _, .object hmembers, s, h =>
    mem_strings_sortMembers.mp (hmembers.strings s (mem_strings_sortMembers.mpr h))

theorem AgreeItems.strings : ∀ {vs ws : List HostValue}, AgreeItems vs ws →
    ∀ s ∈ itemStrings ws, s ∈ itemStrings vs
  | _, _, .nil, _, h => h
  | _, _, .cons hone hrest, s, h => by
    rw [itemStrings, List.mem_append] at h ⊢
    exact h.imp (hone.strings s) (hrest.strings s)

theorem AgreeMembers.strings : ∀ {ms ns : List (CodeUnits × HostValue)}, AgreeMembers ms ns →
    ∀ s ∈ memberStrings ns, s ∈ memberStrings ms
  | _, _, .nil, _, h => h
  | _, _, .cons hone hrest, s, h => by
    rw [memberStrings_cons, List.mem_cons, List.mem_append] at h ⊢
    exact h.imp_right (Or.imp (hone.strings s) (hrest.strings s))
end

/-! ## The round trip -/

/-- **A text is read into the value**, its keys in some order, under limits that
are large enough for it; and the value that is read has its canonical text. -/
def ReadsBack (v : HostValue) (t : CodeUnits) : Prop :=
  ∃ s j, sourceUnits s = t ∧ Same (hostOf j) v ∧ canonicalJson (hostOf j) = canonicalJson v
    ∧ ∀ number o, Limits o → FitsLimits o j → byteLength s ≤ o.maximumBytes →
      parseStrictJson number s o = .ok j

/-- **The round trip of a value**: both its texts are read back, and a value has
its canonical text exactly when it is the same up to the order of its keys. -/
structure RoundTrip (v : HostValue) : Prop where
  canonical : ∃ t, canonicalJson v = .ok t ∧ ReadsBack v t
  pretty : ∃ t, prettyCanonicalize (sourceUnits "$") 0 v = .ok t ∧ ReadsBack v t
  separates : ∀ w, InDomain w → (canonicalJson w = canonicalJson v ↔ Same w v)

theorem canonicalJson_of_same {v w : HostValue} (h : Same v w) :
    canonicalJson v = canonicalJson w := by
  rw [canonicalJson, canonicalJson, ← canonicalize_ordered v, h, canonicalize_ordered]

theorem readsBack_of_spells {v : HostValue} {j : Json} {text : List Char}
    (hj : hostOf j = ordered v) (hspells : j.Spells text) : ReadsBack v (unitsOf text) := by
  have hsame : Same (hostOf j) v := by rw [Same, hj, ordered_ordered]
  refine ⟨String.ofList text, j, by rw [sourceUnits_eq, String.toList_ofList], hsame,
    canonicalJson_of_same hsame, fun number o hlimits hfits hbytes => ?_⟩
  rw [← List.append_nil text] at hbytes ⊢
  refine parseStrictJson_of_spells hlimits hspells blank_nil hfits hbytes ?_
  rw [List.append_nil]
  exact nulFree_of_spells hspells

/-- **The texts of a value whose strings spell characters** spell it in order. -/
theorem InDomain.texts {v : HostValue} (h : InDomain v) (hscalar : ∀ s ∈ v.strings, Scalar s) :
    ∃ j text prettyText, hostOf j = ordered v ∧ j.Spells text ∧ j.Spells prettyText
      ∧ canonicalJson v = .ok (unitsOf text)
      ∧ prettyCanonicalize (sourceUnits "$") 0 v = .ok (unitsOf prettyText) := by
  obtain ⟨j, hj, hplain, hnames⟩ := exists_json hscalar h.numbers h.keys
  obtain ⟨text, htext, hcanonical⟩ := @canonicalize_hostOf j (sourceUnits "$") hplain hnames
  obtain ⟨prettyText, hprettyText, hpretty⟩ :=
    @prettyCanonicalize_hostOf j (sourceUnits "$") 0 hplain hnames
  rw [hj, canonicalize_ordered] at hcanonical
  rw [hj, prettyCanonicalize_ordered] at hpretty
  exact ⟨j, text, prettyText, hj, htext, hprettyText, hcanonical, hpretty⟩

/-- In the domain, what does not spell characters ends in a high surrogate. -/
theorem InDomain.scalar {v : HostValue} (h : InDomain v) (hends : ∀ s ∈ v.strings, ¬ EndsHigh s) :
    ∀ s ∈ v.strings, Scalar s := by
  intro s hs
  have hscan := (exists_canonicalize_iff.mp h.text).1 s hs
  rwa [withoutLastHigh_of_not_endsHigh (hends s hs)] at hscan

/-- What is read back has no string that ends in a high surrogate. -/
theorem RoundTrip.not_endsHigh {v : HostValue} (h : RoundTrip v) :
    ∀ s ∈ v.strings, ¬ EndsHigh s := by
  obtain ⟨t, -, text, j, -, hsame, -⟩ := h.canonical
  intro s hs
  have hread : s ∈ (hostOf j).strings := by
    rw [← mem_strings_ordered, hsame, mem_strings_ordered]
    exact hs
  exact (scalar_strings_hostOf j s hread).not_endsHigh

/-- **The round trip of canonical JSON**: it holds of a value of the domain
exactly when no string and no key of it ends in a high surrogate. -/
theorem roundTrip_iff (v : HostValue) (h : InDomain v) :
    RoundTrip v ↔ ∀ s ∈ v.strings, ¬ EndsHigh s := by
  constructor
  · exact RoundTrip.not_endsHigh
  · intro hends
    have hscalar := h.scalar hends
    obtain ⟨j, text, prettyText, hj, htext, hprettyText, hcanonical, hpretty⟩ := h.texts hscalar
    refine ⟨⟨_, hcanonical, readsBack_of_spells hj htext⟩,
      ⟨_, hpretty, readsBack_of_spells hj hprettyText⟩, fun w hw => ⟨fun heq => ?_,
        canonicalJson_of_same⟩⟩
    have hnil : Delimited [] := by
      intro u hu
      cases hu
    -- a value with the same text has the same strings, so its text spells it, too
    obtain ⟨hagree, -⟩ := readInOneWay v w _ _ _ _ [] [] hcanonical (heq.trans hcanonical) rfl
      hnil hnil
    obtain ⟨j', text', -, hj', htext', -, hcanonical', -⟩ :=
      hw.texts fun s hs => hscalar s (hagree.strings s hs)
    rw [hcanonical', hcanonical, Except.ok.injEq] at heq
    rw [unitsOf_injective heq] at htext'
    rw [Same, ← hj', ← hj, spells_unique htext' htext]

/-- An object whose keys are out of order, with the negative zero and a
character beyond the first plane in it. -/
def sampleObject : HostValue :=
  .object [([98], .number .negativeZero), ([97], .array [.string [0xd83d, 0xde00], .object []])]

theorem roundTrip_iff_sampleObject : InDomain sampleObject ∧ RoundTrip sampleObject := by
  have hstrings : ∀ s ∈ sampleObject.strings, Scalar s := by
    show ∀ s ∈ [[98], [97], [0xd83d, 0xde00]], Scalar s
    simp only [List.forall_mem_cons, List.not_mem_nil, false_implies, implies_true, and_true]
    decide +kernel
  have hdomain : InDomain sampleObject := by
    refine ⟨?_, ⟨by decide, trivial, ⟨trivial, ⟨List.nodup_nil, trivial⟩, trivial⟩, trivial⟩,
      ⟨_, rfl⟩⟩
    show ∀ n ∈ [HostNumber.negativeZero], n.Whole
    rw [List.forall_mem_singleton]
    trivial
  exact ⟨hdomain, (roundTrip_iff sampleObject hdomain).mpr fun s hs => (hstrings s hs).not_endsHigh⟩

/-- A string literal whose units spell no text is refused. -/
theorem stringValue_ne_ok {o : StrictJsonOptions} {s : Reading} {l : Literal}
    (hunits : stringUnits o (s.index + 1) s.rest.tail = .ok l) (hnone : decodeUnits l.units = none)
    (r : String × Reading) : stringValue o s ≠ .ok r := by
  intro h
  simp only [stringValue, bind_eq_ok, orFail_eq_ok] at h
  obtain ⟨-, -, l', hl, cs, hcs, -⟩ := h
  obtain rfl := Except.ok.inj (hunits.symm.trans hl)
  cases hnone.symm.trans hcs

/-- A value that begins with a quote is a string literal. -/
theorem exists_stringValue {o : StrictJsonOptions} {number : String → JsNumber} {fuel depth : Nat}
    {s : Reading} {r : Json × Reading} (hhead : s.blank.rest.head? = some '"')
    (h : StrictJson.value o number (fuel + 1) depth s = .ok r) :
    ∃ t, stringValue o { s.blank with nodes := s.nodes + 1 } = .ok t := by
  rw [StrictJson.value] at h
  simp only [bind_eq_ok, exists_unit, hhead] at h
  obtain ⟨-, -, h⟩ := h
  rw [if_neg (by decide), if_neg (by decide), if_pos trivial] at h
  cases hvalue : stringValue o { s.blank with nodes := s.nodes + 1 } with
  | error e =>
    rw [hvalue] at h
    cases h
  | ok t => exact ⟨t, rfl⟩

/-- **A high surrogate at the end of a string is written and not read.** -/
theorem not_roundTrip_high : InDomain (.string [0xd800])
    ∧ canonicalJson (.string [0xd800]) = .ok (sourceUnits "\"\\ud800\"")
    ∧ (∀ number o j, parseStrictJson number "\"\\ud800\"" o ≠ .ok j)
    ∧ ¬ RoundTrip (.string [0xd800]) := by
  have hcanonical : canonicalJson (.string [0xd800]) = .ok (sourceUnits "\"\\ud800\"") := rfl
  refine ⟨⟨List.forall_mem_nil _, trivial, _, hcanonical⟩, hcanonical, fun number o j h => ?_,
    fun h => ?_⟩
  · rw [parseStrictJson] at h
    simp only [bind_eq_ok] at h
    obtain ⟨-, -, -, -, -, -, r, hr, -⟩ := h
    obtain ⟨t, ht⟩ := exists_stringValue rfl hr
    have hunits : ∃ next, stringUnits o 1 ['\\', 'u', 'd', '8', '0', '0', '"']
        = .ok ⟨[0xd800], next, []⟩ := ⟨_, rfl⟩
    obtain ⟨next, hnext⟩ := hunits
    exact stringValue_ne_ok hnext rfl t ht
  · exact h.not_endsHigh [0xd800] (List.mem_singleton_self _) ⟨0xd800, rfl, by decide⟩

end CanonicalDomain
