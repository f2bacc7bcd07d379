import Lifecycle.CanonicalOrder
import Lifecycle.JsonWriters

/-!
# Canonical texts are read back

What `parseStrictJson` makes of the two texts of a value (`roundTrip_iff`). Where
no string and no key ends in a high surrogate, both texts are read into the value
with its members in order; its canonical text is the same, and no other value
has it. A high surrogate at the end of a string is written, as `\ud800`, and is
refused by the reader.
-/

open Fallible CodeUnits Json StrictJson

namespace CanonicalDomain

/-! ## Characters as code units -/

/-- The code units of some characters. -/
def unitsOf (cs : List Char) : CodeUnits := cs.flatMap fun c => (utf16Units c).map UInt16.ofNat

theorem sourceUnits_eq (s : String) : sourceUnits s = unitsOf s.toList := rfl

@[simp] theorem unitsOf_nil : unitsOf [] = [] := rfl

@[simp] theorem unitsOf_append (as bs : List Char) : unitsOf (as ++ bs) = unitsOf as ++ unitsOf bs :=
  List.flatMap_append

theorem unitsOf_cons (c : Char) (cs : List Char) :
    unitsOf (c :: cs) = (utf16Units c).map UInt16.ofNat ++ unitsOf cs := List.flatMap_cons

/-- Characters that are one unit each. -/
theorem unitsOf_of_lt {cs : List Char} (h : ∀ c ∈ cs, c.toNat < 65536) :
    unitsOf cs = cs.map fun c => UInt16.ofNat c.toNat := by
  induction cs with
  | nil => rfl
  | cons c cs ih =>
    rw [unitsOf_cons, ih fun d hd => h d (List.mem_cons_of_mem c hd), utf16Units,
      if_pos (h c List.mem_cons_self)]
    rfl

theorem utf16Units_lt {c : Char} {n : Nat} (h : n ∈ utf16Units c) : n < 65536 := by
  have hvalid := toNat_valid c
  rw [utf16Units] at h
  split at h
  · next hlt =>
    rw [List.mem_singleton.mp h]
    exact hlt
  · simp only [List.mem_cons, List.not_mem_nil, or_false] at h
    omega

theorem map_toNat_unitsOf (cs : List Char) :
    (unitsOf cs).map UInt16.toNat = cs.flatMap utf16Units := by
  induction cs with
  | nil => rfl
  | cons c cs ih =>
    rw [unitsOf_cons, List.map_append, ih, List.map_map, List.flatMap_cons]
    refine congrArg (· ++ _) ((List.map_congr_left fun n hn => ?_).trans (List.map_id' _))
    exact (UInt16.toNat_ofNat' ..).trans (Nat.mod_eq_of_lt (utf16Units_lt hn))

/-- **The code units of characters determine them.** -/
theorem unitsOf_injective : Function.Injective unitsOf := by
  intro as bs h
  have hunits := congrArg (List.map UInt16.toNat) h
  rw [map_toNat_unitsOf, map_toNat_unitsOf] at hunits
  exact flatMap_utf16Units_inj hunits

/-- The order of keys is the order of their code units. -/
theorem unitsLe_sourceUnits (a b : String) :
    unitsLe (sourceUnits a) (sourceUnits b) = codeUnitLe a b := by
  rw [unitsLe, sourceUnits_eq, sourceUnits_eq, map_toNat_unitsOf, map_toNat_unitsOf, codeUnitLe]

/-- The units of one character: one that is no half of a pair, or a pair. -/
theorem units_cases (c : Char) :
    (∃ u : UInt16, unitsOf [c] = [u] ∧ u.toNat = c.toNat ∧ isHigh u = false ∧ isLow u = false)
      ∨ ∃ u v : UInt16, unitsOf [c] = [u, v] ∧ isHigh u = true ∧ isLow v = true
        ∧ 65536 ≤ c.toNat := by
  have hvalid := toNat_valid c
  by_cases hlt : c.toNat < 65536
  · refine .inl ⟨UInt16.ofNat c.toNat, ?_, ?_, ?_⟩
    · rw [unitsOf_cons, utf16Units, if_pos hlt]
      rfl
    · rw [UInt16.toNat_ofNat', Nat.mod_eq_of_lt hlt]
    · rw [Bool.eq_false_iff, Bool.eq_false_iff, Ne, Ne, isHigh_iff, isLow_iff,
        UInt16.toNat_ofNat', Nat.mod_eq_of_lt hlt]
      omega
  · refine .inr ⟨UInt16.ofNat (55296 + (c.toNat - 65536) / 1024),
      UInt16.ofNat (56320 + (c.toNat - 65536) % 1024), ?_, ?_, ?_, Nat.le_of_not_lt hlt⟩
    · rw [unitsOf_cons, utf16Units, if_neg hlt]
      rfl
    · rw [isHigh_iff, UInt16.toNat_ofNat', Nat.mod_eq_of_lt (by omega)]
      omega
    · rw [isLow_iff, UInt16.toNat_ofNat', Nat.mod_eq_of_lt (by omega)]
      omega

/-- **Texts spell characters.** -/
theorem scalar_unitsOf (cs : List Char) : Scalar (unitsOf cs) := by
  induction cs with
  | nil => exact scalar_nil
  | cons c cs ih =>
    rw [← List.singleton_append, unitsOf_append]
    obtain ⟨u, hu, -, hhigh, hlow⟩ | ⟨u, v, huv, hhigh, hlow, -⟩ := units_cases c
    · rw [hu]
      exact (scalar_cons_plain hhigh hlow).mpr ih
    · rw [huv]
      exact (scalar_cons_pair hhigh hlow).mpr ih

/-- The character of a code point. -/
theorem exists_char {n : Nat} (h : n.isValidChar) : ∃ c : Char, c.toNat = n :=
  ⟨Char.ofNat n, by rw [Char.ofNat, dif_pos h]; rfl⟩

theorem exists_char_plain {u : UInt16} (hhigh : isHigh u = false) (hlow : isLow u = false) :
    ∃ c, unitsOf [c] = [u] := by
  rw [Bool.eq_false_iff, Ne, isHigh_iff] at hhigh
  rw [Bool.eq_false_iff, Ne, isLow_iff] at hlow
  have hu := u.toNat_lt
  have hvalid : u.toNat.isValidChar := by
    show u.toNat < 0xd800 ∨ 0xdfff < u.toNat ∧ u.toNat < 0x110000
    omega
  obtain ⟨c, hc⟩ := exists_char hvalid
  refine ⟨c, ?_⟩
  rw [unitsOf_of_lt (by rw [List.forall_mem_singleton, hc]; exact hu), List.map_singleton, hc,
    UInt16.ofNat_toNat]

theorem exists_char_pair {u v : UInt16} (hhigh : isHigh u = true) (hlow : isLow v = true) :
    ∃ c, unitsOf [c] = [u, v] := by
  rw [isHigh_iff] at hhigh
  rw [isLow_iff] at hlow
  have hvalid : (65536 + 1024 * (u.toNat - 0xd800) + (v.toNat - 0xdc00)).isValidChar := by
    show _ < 0xd800 ∨ 0xdfff < _ ∧ _ < 0x110000
    omega
  obtain ⟨c, hc⟩ := exists_char hvalid
  have hfirst : 55296 + (c.toNat - 65536) / 1024 = u.toNat := by omega
  have hsecond : 56320 + (c.toNat - 65536) % 1024 = v.toNat := by omega
  refine ⟨c, ?_⟩
  rw [unitsOf_cons, utf16Units, if_neg (by omega), hfirst, hsecond]
  simp

/-- **What spells characters is a text.** -/
theorem exists_unitsOf {s : CodeUnits} (h : Scalar s) : ∃ cs, unitsOf cs = s := by
  induction s using escapeUnits.induct with
  | case1 => exact ⟨[], rfl⟩
  | case2 u =>
    rw [scalar_singleton] at h
    obtain ⟨c, hc⟩ := exists_char_plain h.1 h.2
    exact ⟨[c], hc⟩
  | case3 u v s hpair ih =>
    rw [Bool.and_eq_true] at hpair
    obtain ⟨c, hc⟩ := exists_char_pair hpair.1 hpair.2
    obtain ⟨cs, hcs⟩ := ih ((scalar_cons_pair hpair.1 hpair.2).mp h)
    exact ⟨[c] ++ cs, by rw [unitsOf_append, hc, hcs]; rfl⟩
  | case4 u v s hpair ih =>
    have hlow : isLow u = false := h.head u rfl
    have hhigh : isHigh u = false := by
      by_contra hne
      rw [Bool.not_eq_false] at hne
      rw [hne, Bool.true_and, Bool.not_eq_true] at hpair
      exact not_scalar_high hne hpair h
    obtain ⟨c, hc⟩ := exists_char_plain hhigh hlow
    obtain ⟨cs, hcs⟩ := ih ((scalar_cons_plain hhigh hlow).mp h)
    exact ⟨[c] ++ cs, by rw [unitsOf_append, hc, hcs]; rfl⟩

theorem exists_sourceUnits {s : CodeUnits} (h : Scalar s) : ∃ text, sourceUnits text = s := by
  obtain ⟨cs, hcs⟩ := exists_unitsOf h
  exact ⟨String.ofList cs, by rw [sourceUnits_eq, String.toList_ofList, hcs]⟩

/-! ## Written strings -/

theorem escapeUnits_plain {u : UInt16} (h : isHigh u = false) (s : CodeUnits) :
    escapeUnits (u :: s) = escapeUnit u ++ escapeUnits s := by
  cases s with
  | nil => rw [escapeUnits, escapeUnits, List.append_nil]
  | cons v s => rw [escapeUnits, if_neg (by simp [h])]

/-- A unit beyond ASCII that is no half of a pair is written as it is. -/
theorem escapeUnit_of_le {u : UInt16} (hu : 128 ≤ u.toNat) (hhigh : isHigh u = false)
    (hlow : isLow u = false) : escapeUnit u = [u] := by
  have hletter : shortEscapes.lookup u = none := by
    cases hlookup : shortEscapes.lookup u with
    | none => rfl
    | some letter =>
      have hsmall : (shortEscapes.all fun e => decide (e.1.toNat < 128)) = true := by decide
      have hlt := of_decide_eq_true (List.all_eq_true.mp hsmall _ (mem_of_lookup hlookup))
      exact absurd hlt (Nat.not_lt.mpr hu)
  rw [escapeUnit, hhigh, hlow, Bool.or_self, if_neg Bool.false_ne_true]
  simp only [hletter]
  exact if_neg (by omega)

/-- **A character is written alike by its units.** -/
theorem escapeUnits_unitsOf (cs : List Char) :
    escapeUnits (unitsOf cs) = unitsOf (cs.flatMap escapeChar) := by
  induction cs with
  | nil => rfl
  | cons c cs ih =>
    rw [← List.singleton_append, unitsOf_append, List.flatMap_append, unitsOf_append, ← ih,
      List.flatMap_singleton]
    obtain ⟨u, hu, hvalue, hhigh, hlow⟩ | ⟨u, v, huv, hhigh, hlow, hlarge⟩ := units_cases c
    · rw [hu, List.singleton_append, escapeUnits_plain hhigh]
      refine congrArg (· ++ _) ?_
      obtain hlt | hge := Nat.lt_or_ge c.toNat 128
      · have hascii : ∀ n < 128,
            escapeUnit (UInt16.ofNat n) = unitsOf (escapeChar (Char.ofNat n)) := by decide +kernel
        have hc := hascii c.toNat hlt
        rw [Char.ofNat_toNat, ← hvalue, UInt16.ofNat_toNat] at hc
        exact hc
      · rw [escapeChar_of_le hge, hu]
        exact escapeUnit_of_le (hvalue ▸ hge) hhigh hlow
    · rw [escapeChar_of_le (Nat.le_trans (by decide) hlarge), huv]
      show escapeUnits (u :: v :: unitsOf cs) = _
      rw [escapeUnits, if_pos (by rw [hhigh, hlow]; rfl)]
      rfl

theorem stringify_sourceUnits (s : String) : stringify (sourceUnits s) = unitsOf (stringified s) := by
  rw [stringify, sourceUnits_eq, escapeUnits_unitsOf, stringified, unitsOf_append, unitsOf_cons]
  rfl

theorem assertUnicodeScalarValue_sourceUnits (path : CodeUnits) (s : String) :
    assertUnicodeScalarValue path (sourceUnits s) = .ok () := by
  have hscalar := scalar_unitsOf s.toList
  rw [assertUnicodeScalarValue_eq_ok_iff, sourceUnits_eq, withoutLastHigh_of_not_endsHigh hscalar.not_endsHigh]
  exact hscalar

/-! ## Values of the reader -/

mutual
/-- **A value the reader returns, as a value of the host.** A number that is no
integer is none of the numbers considered here. -/
def hostOf : Json → HostValue
  | .null => .null
  | .bool b => .bool b
  | .string s => .string (sourceUnits s)
  | .number (.integer n) => .number (.integer n)
  | .number (.fraction _) => .number .nonFinite
  | .number (.nonFinite _) => .number .nonFinite
  | .array items => .array (hostItems items)
  | .object members => .object (hostMembers members)

def hostItems : List Json → List HostValue
  | [] => []
  | v :: vs => hostOf v :: hostItems vs

def hostMembers : List (String × Json) → List (CodeUnits × HostValue)
  | [] => []
  | (name, v) :: ms => (sourceUnits name, hostOf v) :: hostMembers ms
end

theorem hostMembers_eq_map (members : List (String × Json)) :
    hostMembers members = members.map fun m => (sourceUnits m.1, hostOf m.2) := by
  induction members with
  | nil => rfl
  | cons m ms ih => rw [hostMembers, ih, List.map_cons]

/-- Sorting the members of a value sorts those of its host value. -/
theorem sortMembers_hostMembers (members : List (String × Json)) :
    sortMembers (hostMembers members)
      = hostMembers (members.insertionSort fun a b => codeUnitLe a.1 b.1 = true) := by
  rw [hostMembers_eq_map, hostMembers_eq_map, sortMembers]
  refine (List.map_insertionSort (fun a b : String × Json => codeUnitLe a.1 b.1 = true)
    (fun a b : CodeUnits × HostValue => unitsLe a.1 b.1 = true)
    (fun m => (sourceUnits m.1, hostOf m.2)) members fun a _ b _ => ?_).symm
  rw [unitsLe_sourceUnits]

/-- The members of a plain object are in order. -/
theorem sortMembers_plain {members : List (String × Json)}
    (h : (keys members).Pairwise fun a b => codeUnitLe a b = true) :
    sortMembers (hostMembers members) = hostMembers members := by
  rw [sortMembers_hostMembers, List.Pairwise.insertionSort_eq (List.pairwise_map.mp h)]

/-! ## Their texts -/

theorem commaJoined_unitsOf : ∀ texts : List (List Char),
    commaJoined (texts.map unitsOf) = unitsOf (separated [] texts)
  | [] => rfl
  | [_] => rfl
  | text :: next :: texts => by
    show unitsOf text ++ 44 :: commaJoined ((next :: texts).map unitsOf)
      = unitsOf (text ++ ',' :: ([] ++ separated [] (next :: texts)))
    rw [commaJoined_unitsOf (next :: texts), unitsOf_append, unitsOf_cons ',']
    rfl

theorem unitsOf_lineGap (depth : Nat) : unitsOf (lineGap depth) = 10 :: indentation depth := by
  rw [lineGap, unitsOf_cons, unitsOf_of_lt]
  · rw [List.map_replicate]
    rfl
  · intro c hc
    rw [List.eq_of_mem_replicate hc]
    decide

theorem lineJoined_unitsOf (depth : Nat) : ∀ (text : List Char) (texts : List (List Char)),
    10 :: lineJoined ((text :: texts).map fun t => indentation depth ++ unitsOf t)
      = unitsOf (lineGap depth ++ separated (lineGap depth) (text :: texts))
  | text, [] => by
    rw [unitsOf_append, unitsOf_lineGap]
    rfl
  | text, next :: texts => by
    show 10 :: ((indentation depth ++ unitsOf text)
        ++ 44 :: (10 :: lineJoined ((next :: texts).map fun t => indentation depth ++ unitsOf t)))
      = unitsOf (lineGap depth ++ (text ++ ',' :: (lineGap depth
        ++ separated (lineGap depth) (next :: texts))))
    rw [lineJoined_unitsOf depth next texts, unitsOf_append (lineGap depth) (text ++ ',' :: _),
      unitsOf_append text, unitsOf_cons ',', unitsOf_lineGap, List.append_assoc]
    rfl

theorem integerText_eq (n : Int) : integerText n = unitsOf (toString n).toList := by
  rw [integerText, unitsOf_of_lt]
  intro c hc
  rw [toList_toString_int, List.mem_append] at hc
  rcases hc with hc | hc
  · split at hc
    · cases hc
    · rw [List.mem_singleton.mp hc]
      decide
  · have hdigit := isDigit_of_mem_toDigits hc
    rw [StrictJson.isDigit, Bool.and_eq_true, decide_eq_true_eq, decide_eq_true_eq] at hdigit
    omega

mutual
/-- **The canonical text of what the reader returns** spells it. -/
theorem canonicalize_hostOf : ∀ {v : Json} {path : CodeUnits}, v.Plain → v.DistinctNames →
    ∃ text, v.Spells text ∧ canonicalize path (hostOf v) = .ok (unitsOf text)
  | .null, _, _, _ => ⟨"null".toList, rfl, rfl⟩
  | .bool b, _, _, _ => ⟨(if b then "true" else "false").toList, rfl, rfl⟩
  | .string s, path, _, _ => by
    refine ⟨stringified s, rfl, ?_⟩
    rw [hostOf, canonicalize, assertUnicodeScalarValue_sourceUnits, stringify_sourceUnits]
    rfl
  | .number (.integer n), path, hplain, _ => by
    refine ⟨(toString n).toList, ⟨hplain, rfl⟩, ?_⟩
    rw [hostOf, canonicalize, CanonicalDomain.canonicalNumber, failIf_neg (Nat.not_lt.mpr hplain),
      integerText_eq]
    rfl
  | .number (.fraction _), _, hplain, _ => hplain.elim
  | .number (.nonFinite _), _, hplain, _ => hplain.elim
  | .array items, path, hplain, hnames => by
    obtain ⟨texts, htexts, hparts⟩ := @canonicalizeItems_hostItems items path 0 hplain hnames
    rw [hostOf, canonicalize, hparts, ok_bind, commaJoined_unitsOf]
    cases htexts with
    | nil => exact ⟨['[', ']'], ⟨[], [']'], blank_nil, rfl, rfl⟩, rfl⟩
    | cons hv hvs =>
      have hbody := spellsItems_separated blank_nil blank_nil (.cons hv hvs)
        (List.cons_ne_nil _ _)
      refine ⟨'[' :: ([] ++ _), ⟨[], _, blank_nil, hbody, rfl⟩, ?_⟩
      rw [List.nil_append, unitsOf_cons '[', unitsOf_append]
      rfl
  | .object members, path, hplain, hnames => by
    obtain ⟨texts, htexts, hparts⟩ := @memberTexts_hostMembers members path hplain.1 hnames.2
    rw [hostOf, canonicalize, mapM_sortMembers, sortMembers_plain hplain.2, hparts, ok_bind,
      commaJoined_unitsOf]
    cases htexts with
    | nil => exact ⟨['{', '}'], ⟨List.nodup_nil, [], ['}'], blank_nil, rfl, rfl⟩, rfl⟩
    | cons hm hms =>
      have hbody := spellsMembers_separated blank_nil blank_nil blank_nil (.cons hm hms)
        (List.cons_ne_nil _ _)
      refine ⟨'{' :: ([] ++ _), ⟨hnames.1, [], _, blank_nil, hbody, rfl⟩, ?_⟩
      rw [List.nil_append, unitsOf_cons '{', unitsOf_append]
      rfl

theorem canonicalizeItems_hostItems : ∀ {items : List Json} {path : CodeUnits} {index : Nat},
    PlainItems items → DistinctNamesItems items →
    ∃ texts, List.Forall₂ Json.Spells items texts
      ∧ canonicalizeItems path index (hostItems items) = .ok (texts.map unitsOf)
  | [], _, _, _, _ => ⟨[], .nil, rfl⟩
  | v :: vs, path, index, hplain, hnames => by
    obtain ⟨text, htext, hcanonical⟩ :=
      @canonicalize_hostOf v (itemPath path index) hplain.1 hnames.1
    obtain ⟨texts, htexts, hrest⟩ :=
      @canonicalizeItems_hostItems vs path (index + 1) hplain.2 hnames.2
    refine ⟨text :: texts, .cons htext htexts, ?_⟩
    rw [hostItems, canonicalizeItems, hcanonical, ok_bind, hrest]
    rfl

theorem memberTexts_hostMembers : ∀ {members : List (String × Json)} {path : CodeUnits},
    PlainMembers members → DistinctNamesMembers members →
    ∃ texts, List.Forall₂ (SpellsMember []) members texts
      ∧ (hostMembers members).mapM (memberText path) = .ok (texts.map unitsOf)
  | [], _, _, _ => ⟨[], .nil, rfl⟩
  | (name, v) :: ms, path, hplain, hnames => by
    obtain ⟨text, htext, hcanonical⟩ :=
      @canonicalize_hostOf v (memberPath path (sourceUnits name)) hplain.1 hnames.1
    obtain ⟨texts, htexts, hrest⟩ := @memberTexts_hostMembers ms path hplain.2 hnames.2
    refine ⟨(stringified name ++ ':' :: ([] ++ text)) :: texts, .cons ⟨text, htext, rfl⟩ htexts, ?_⟩
    rw [hostMembers, List.mapM_cons, hrest, memberText, assertUnicodeScalarValue_sourceUnits,
      ok_bind, hcanonical, ok_bind, stringify_sourceUnits, List.map_cons, unitsOf_append,
      unitsOf_cons ':']
    rfl
end

mutual
/-- **The pretty text of what the reader returns** spells it. -/
theorem prettyCanonicalize_hostOf : ∀ {v : Json} {path : CodeUnits} {depth : Nat}, v.Plain →
    v.DistinctNames →
    ∃ text, v.Spells text ∧ prettyCanonicalize path depth (hostOf v) = .ok (unitsOf text)
  | .null, path, _, hplain, hnames => @canonicalize_hostOf .null path hplain hnames
  | .bool b, path, _, hplain, hnames => @canonicalize_hostOf (.bool b) path hplain hnames
  | .string s, path, _, hplain, hnames => @canonicalize_hostOf (.string s) path hplain hnames
  | .number (.integer n), path, _, hplain, hnames =>
    @canonicalize_hostOf (.number (.integer n)) path hplain hnames
  | .number (.fraction _), _, _, hplain, _ => hplain.elim
  | .number (.nonFinite _), _, _, hplain, _ => hplain.elim
  | .array [], _, _, _, _ => ⟨['[', ']'], ⟨[], [']'], blank_nil, rfl, rfl⟩, rfl⟩
  | .array (v :: vs), path, depth, hplain, hnames => by
    obtain ⟨texts, htexts, hparts⟩ :=
      @prettyItems_hostItems (v :: vs) path 0 (depth + 1) hplain hnames
    cases htexts with
    | @cons _ text _ texts hv hvs =>
      have hbody := spellsItems_separated (blank_lineGap (depth + 1)) (blank_lineGap depth)
        (.cons hv hvs) (List.cons_ne_nil _ _)
      refine ⟨'[' :: (lineGap (depth + 1) ++ _), ⟨_, _, blank_lineGap (depth + 1), hbody, rfl⟩, ?_⟩
      rw [hostItems] at hparts
      rw [hostOf, hostItems, prettyCanonicalize, hparts, ok_bind, ← List.append_assoc,
        unitsOf_cons '[', unitsOf_append, ← lineJoined_unitsOf, unitsOf_append, unitsOf_lineGap]
      rfl
  | .object [], _, _, _, _ => ⟨['{', '}'], ⟨List.nodup_nil, [], ['}'], blank_nil, rfl, rfl⟩, rfl⟩
  | .object (m :: ms), path, depth, hplain, hnames => by
    obtain ⟨texts, htexts, hparts⟩ :=
      @memberLines_hostMembers (m :: ms) path (depth + 1) hplain.1 hnames.2
    have hblank : Blank [' '] := by
      intro c hc
      rw [List.mem_singleton.mp hc]
      rfl
    have hne : hostMembers (m :: ms) ≠ [] := by
      rw [hostMembers_eq_map]
      exact List.cons_ne_nil _ _
    cases htexts with
    | @cons _ text _ texts hm hms =>
      have hbody := spellsMembers_separated (blank_lineGap (depth + 1)) hblank (blank_lineGap depth)
        (.cons hm hms) (List.cons_ne_nil _ _)
      refine ⟨'{' :: (lineGap (depth + 1) ++ _),
        ⟨hnames.1, _, _, blank_lineGap (depth + 1), hbody, rfl⟩, ?_⟩
      rw [hostOf, prettyCanonicalize_object hne, sortMembers_plain hplain.2, hparts, ok_bind,
        ← List.append_assoc, unitsOf_cons '{', unitsOf_append, ← lineJoined_unitsOf, unitsOf_append,
        unitsOf_lineGap]
      rfl

theorem prettyItems_hostItems : ∀ {items : List Json} {path : CodeUnits} {index depth : Nat},
    PlainItems items → DistinctNamesItems items →
    ∃ texts, List.Forall₂ Json.Spells items texts
      ∧ prettyItems path index depth (hostItems items)
        = .ok (texts.map fun t => indentation depth ++ unitsOf t)
  | [], _, _, _, _, _ => ⟨[], .nil, rfl⟩
  | v :: vs, path, index, depth, hplain, hnames => by
    obtain ⟨text, htext, hpretty⟩ :=
      @prettyCanonicalize_hostOf v (itemPath path index) depth hplain.1 hnames.1
    obtain ⟨texts, htexts, hrest⟩ :=
      @prettyItems_hostItems vs path (index + 1) depth hplain.2 hnames.2
    refine ⟨text :: texts, .cons htext htexts, ?_⟩
    rw [hostItems, prettyItems, hpretty, ok_bind, hrest]
    rfl

theorem memberLines_hostMembers : ∀ {members : List (String × Json)} {path : CodeUnits}
    {depth : Nat}, PlainMembers members → DistinctNamesMembers members →
    ∃ texts, List.Forall₂ (SpellsMember [' ']) members texts
      ∧ (hostMembers members).mapM (memberLine path depth)
        = .ok (texts.map fun t => indentation depth ++ unitsOf t)
  | [], _, _, _, _ => ⟨[], .nil, rfl⟩
  | (name, v) :: ms, path, depth, hplain, hnames => by
    obtain ⟨text, htext, hpretty⟩ :=
      @prettyCanonicalize_hostOf v (memberPath path (sourceUnits name)) depth hplain.1 hnames.1
    obtain ⟨texts, htexts, hrest⟩ := @memberLines_hostMembers ms path depth hplain.2 hnames.2
    refine ⟨(stringified name ++ ':' :: ([' '] ++ text)) :: texts, .cons ⟨text, htext, rfl⟩ htexts,
      ?_⟩
    rw [hostMembers, List.mapM_cons, hrest, memberLine, assertUnicodeScalarValue_sourceUnits,
      ok_bind, hpretty, ok_bind, stringify_sourceUnits, List.map_cons, unitsOf_append,
      unitsOf_cons ':', unitsOf_append [' ']]
    rfl
end

end CanonicalDomain
