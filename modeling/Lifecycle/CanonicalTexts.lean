import Lifecycle.CanonicalDomain
import Lifecycle.Comparators
import Lifecycle.TextOrder

/-!
# Canonical texts and what they are texts of

Where a value stands changes what an error says and nothing else, so a value
has at most one canonical text (`Writes.unique`). Two values may have the same
one: equal texts of arrays and of objects are equal item by item and member by
member (`Common.items`, `Common.members`), and conversely values whose parts
have the same texts have the same text (`SameText.array`, `SameText.object`).

Texts are compared by their code points (`pointsLe`). The code points of a
string determine it, unpaired surrogates included, so no two different strings
are tied.
-/

namespace CodeUnits

/-! ## Code points -/

/-- `Array.from(s, (value) => value.codePointAt(0))`. -/
def codePoints : CodeUnits → List Nat
  | [] => []
  | [u] => [u.toNat]
  | u :: v :: s =>
    if isHigh u && isLow v then
      (0x10000 + (u.toNat - 0xd800) * 1024 + (v.toNat - 0xdc00)) :: codePoints s
    else u.toNat :: codePoints (v :: s)

/-- The units of a code point. -/
def pointUnits (n : Nat) : CodeUnits :=
  if n < 0x10000 then [UInt16.ofNat n]
  else [UInt16.ofNat (0xd800 + (n - 0x10000) / 1024), UInt16.ofNat (0xdc00 + (n - 0x10000) % 1024)]

/-- **The code points of a string determine it.** -/
theorem flatMap_codePoints (s : CodeUnits) : (codePoints s).flatMap pointUnits = s := by
  have hunit (u : UInt16) : pointUnits u.toNat = [u] := by
    rw [pointUnits, if_pos u.toNat_lt, UInt16.ofNat_toNat]
  induction s using codePoints.induct with
  | case1 => rfl
  | case2 u => rw [codePoints, List.flatMap_singleton, hunit]
  | case3 u v s hpair ih =>
    rw [codePoints, if_pos hpair, List.flatMap_cons, ih]
    rw [Bool.and_eq_true, isHigh_iff, isLow_iff] at hpair
    have hhigh : UInt16.ofNat (0xd800 + (0x10000 + (u.toNat - 0xd800) * 1024
        + (v.toNat - 0xdc00) - 0x10000) / 1024) = u := by
      refine UInt16.toNat_inj.mp ?_
      rw [UInt16.toNat_ofNat']
      omega
    have hlow : UInt16.ofNat (0xdc00 + (0x10000 + (u.toNat - 0xd800) * 1024
        + (v.toNat - 0xdc00) - 0x10000) % 1024) = v := by
      refine UInt16.toNat_inj.mp ?_
      rw [UInt16.toNat_ofNat']
      omega
    rw [pointUnits, if_neg (by omega), hhigh, hlow]
    rfl
  | case4 u v s hpair ih =>
    rw [codePoints, if_neg hpair, List.flatMap_cons, ih, hunit]
    rfl

theorem codePoints_injective : Function.Injective codePoints :=
  Function.LeftInverse.injective flatMap_codePoints

/-- The order of `compareCodePoints`. -/
def pointsLe (s t : CodeUnits) : Bool := Json.lexLe (codePoints s) (codePoints t)

theorem comparison_pointsLe : Comparison pointsLe :=
  ⟨fun _ _ => Json.lexLe_total _ _, fun hab hbc => Json.lexLe_trans hab hbc⟩

/-- **No two different strings are tied.** -/
theorem tied_pointsLe {s t : CodeUnits} : Comparison.Tied pointsLe s t ↔ s = t := by
  constructor
  · rintro ⟨hst, hts⟩
    exact codePoints_injective (Json.lexLe_antisymm hst hts)
  · rintro rfl
    exact ⟨Json.lexLe_refl _, Json.lexLe_refl _⟩

/-- The UTF-8 bytes of a string, its unpaired surrogates replaced. -/
def encodeUtf8 (s : CodeUnits) : List UInt8 :=
  (codePoints (toWellFormed s)).flatMap fun n => String.utf8EncodeChar (Char.ofNat n)

end CodeUnits

open Fallible CodeUnits

namespace CanonicalDomain

/-! ## The text of a value -/

theorem assertUnicodeScalarValue_path {p q s : CodeUnits}
    (h : assertUnicodeScalarValue p s = .ok ()) : assertUnicodeScalarValue q s = .ok () :=
  assertUnicodeScalarValue_eq_ok_iff.mpr (assertUnicodeScalarValue_eq_ok_iff.mp h)

mutual
/-- **A value has its text wherever it stands.** -/
theorem canonicalize_path : ∀ {v : HostValue} {p q t : CodeUnits},
    canonicalize p v = .ok t → canonicalize q v = .ok t
  | .null, _, _, _, h => h
  | .bool _, _, _, _, h => h
  | .number n, p, q, t, h => by
    cases n with
    | integer n =>
      simp only [canonicalize, canonicalNumber, bind_eq_ok, failIf_eq_ok, exists_unit, pure_eq_ok]
        at h ⊢
      exact h
    | nonFinite => cases h
    | _ => exact h
  | .string s, p, q, t, h => by
    simp only [canonicalize, bind_eq_ok, exists_unit, pure_eq_ok] at h ⊢
    exact ⟨assertUnicodeScalarValue_path h.1, h.2⟩
  | .array items, p, q, t, h => by
    simp only [canonicalize, bind_eq_ok, pure_eq_ok] at h ⊢
    obtain ⟨parts, hparts, rfl⟩ := h
    exact ⟨parts, canonicalizeItems_path hparts, rfl⟩
  | .object members, p, q, t, h => by
    simp only [canonicalize, bind_eq_ok, pure_eq_ok, mapM_sortMembers, mapM_eq_ok_iff] at h ⊢
    obtain ⟨parts, hparts, rfl⟩ := h
    have hall := @canonicalizeMembers_path members p q
    have hboth := (List.forall₂_and_left (p := (· ∈ members)) _ _).mpr
      ⟨fun m hm => mem_sortMembers.mp hm, hparts⟩
    exact ⟨parts, hboth.imp fun m x ⟨hm, hx⟩ => hall m hm hx, rfl⟩

theorem canonicalizeItems_path : ∀ {items : List HostValue} {p q : CodeUnits} {i j : Nat}
    {parts : List CodeUnits}, canonicalizeItems p i items = .ok parts →
    canonicalizeItems q j items = .ok parts
  | [], _, _, _, _, _, h => h
  | v :: vs, p, q, i, j, parts, h => by
    simp only [canonicalizeItems, bind_eq_ok, pure_eq_ok] at h ⊢
    obtain ⟨t, ht, ts, hts, rfl⟩ := h
    exact ⟨t, canonicalize_path ht, ts, canonicalizeItems_path hts, rfl⟩

theorem canonicalizeMembers_path : ∀ {members : List (CodeUnits × HostValue)} {p q : CodeUnits},
    ∀ m ∈ members, ∀ {x : CodeUnits}, memberText p m = .ok x → memberText q m = .ok x
  | [], _, _, _, hm, _, _ => absurd hm List.not_mem_nil
  | (name, v) :: ms, p, q, m, hm, x, h => by
    obtain hm | hm := List.mem_cons.mp hm
    · obtain rfl := hm
      simp only [memberText, bind_eq_ok, exists_unit, pure_eq_ok] at h ⊢
      obtain ⟨hname, t, ht, rfl⟩ := h
      exact ⟨assertUnicodeScalarValue_path hname, t, canonicalize_path ht, rfl⟩
    · exact canonicalizeMembers_path m hm h
end

/-- **A value and its canonical text**, wherever the value stands. -/
def Writes (v : HostValue) (t : CodeUnits) : Prop := canonicalJson v = .ok t

theorem writes_iff {v : HostValue} {path t : CodeUnits} :
    Writes v t ↔ canonicalize path v = .ok t :=
  ⟨canonicalize_path, canonicalize_path⟩

/-- A value has one text. -/
theorem Writes.unique {v : HostValue} {t t' : CodeUnits} (h : Writes v t) (h' : Writes v t') :
    t = t' :=
  Except.ok.inj (h.symm.trans h')

/-- **The text of an array** is that of its items. -/
theorem writes_array {items : List HostValue} {t : CodeUnits} : Writes (.array items) t
    ↔ ∃ parts, List.Forall₂ Writes items parts ∧ t = 91 :: commaJoined parts ++ [93] := by
  have hitems (p : CodeUnits) (parts : List CodeUnits) : ∀ (items : List HostValue) (i : Nat),
      List.Forall₂ Writes items parts → canonicalizeItems p i items = .ok parts := by
    intro items i h
    induction h generalizing i with
    | nil => rfl
    | cons hv _ ih =>
      simp only [canonicalizeItems, bind_eq_ok, pure_eq_ok]
      exact ⟨_, writes_iff.mp hv, _, ih (i + 1), rfl⟩
  unfold Writes canonicalJson
  simp only [canonicalize, bind_eq_ok, pure_eq_ok]
  constructor
  · rintro ⟨parts, hparts, rfl⟩
    refine ⟨parts, ?_, rfl⟩
    exact (forall₂_of_canonicalizeItems hparts).imp fun v x ⟨p, hx⟩ => writes_iff.mpr hx
  · rintro ⟨parts, hparts, rfl⟩
    exact ⟨parts, hitems _ _ _ _ hparts, rfl⟩

/-- A member and its text. -/
def WritesMember (m : CodeUnits × HostValue) (x : CodeUnits) : Prop :=
  Scalar (withoutLastHigh m.1) ∧ ∃ t, Writes m.2 t ∧ x = stringify m.1 ++ 58 :: t

theorem writesMember_iff {m : CodeUnits × HostValue} {path x : CodeUnits} :
    WritesMember m x ↔ memberText path m = .ok x := by
  simp only [WritesMember, memberText, bind_eq_ok, exists_unit, pure_eq_ok,
    assertUnicodeScalarValue_eq_ok_iff]
  refine and_congr_right fun _ => exists_congr fun t => ?_
  rw [writes_iff, eq_comm (a := x)]

/-- **The text of an object** is that of its members, in sorted order. -/
theorem writes_object {members : List (CodeUnits × HostValue)} {t : CodeUnits} :
    Writes (.object members) t ↔ ∃ parts, List.Forall₂ WritesMember (sortMembers members) parts
      ∧ t = 123 :: commaJoined parts ++ [125] := by
  unfold Writes canonicalJson
  simp only [canonicalize, bind_eq_ok, pure_eq_ok, mapM_sortMembers, mapM_eq_ok_iff]
  refine exists_congr fun parts => ?_
  rw [eq_comm (a := t)]
  refine and_congr_left fun _ => ?_
  exact ⟨fun h => h.imp fun _ _ hx => writesMember_iff.mpr hx,
    fun h => h.imp fun _ _ hx => writesMember_iff.mp hx⟩

/-! ### Where there is a text -/

theorem exists_forall₂_iff {α β : Type} {R : α → β → Prop} {as : List α} :
    (∃ bs, List.Forall₂ R as bs) ↔ ∀ a ∈ as, ∃ b, R a b := by
  induction as with
  | nil => exact ⟨fun _ a ha => absurd ha List.not_mem_nil, fun _ => ⟨[], .nil⟩⟩
  | cons a as ih =>
    rw [List.forall_mem_cons, ← ih]
    constructor
    · rintro ⟨_, hall⟩
      cases hall with
      | cons hone hrest => exact ⟨⟨_, hone⟩, _, hrest⟩
    · rintro ⟨⟨b, hone⟩, bs, hrest⟩
      exact ⟨b :: bs, .cons hone hrest⟩

theorem exists_writes_array {items : List HostValue} :
    (∃ t, Writes (.array items) t) ↔ ∀ v ∈ items, ∃ t, Writes v t := by
  simp only [writes_array]
  rw [← exists_forall₂_iff]
  exact ⟨fun ⟨_, parts, h, _⟩ => ⟨parts, h⟩, fun ⟨parts, h⟩ => ⟨_, parts, h, rfl⟩⟩

theorem exists_writes_object {members : List (CodeUnits × HostValue)} :
    (∃ t, Writes (.object members) t)
      ↔ ∀ m ∈ members, Scalar (withoutLastHigh m.1) ∧ ∃ t, Writes m.2 t := by
  simp only [writes_object]
  have hsorted : (∃ parts, List.Forall₂ WritesMember (sortMembers members) parts)
      ↔ ∀ m ∈ members, ∃ x, WritesMember m x := by
    rw [exists_forall₂_iff]
    exact forall_congr' fun m => by rw [mem_sortMembers]
  have hmember (m : CodeUnits × HostValue) : (∃ x, WritesMember m x)
      ↔ Scalar (withoutLastHigh m.1) ∧ ∃ t, Writes m.2 t :=
    ⟨fun ⟨_, hname, t, ht, _⟩ => ⟨hname, t, ht⟩, fun ⟨hname, t, ht⟩ => ⟨_, hname, t, ht, rfl⟩⟩
  simp only [hmember] at hsorted
  rw [← hsorted]
  exact ⟨fun ⟨_, parts, h, _⟩ => ⟨parts, h⟩, fun ⟨parts, h⟩ => ⟨_, parts, h, rfl⟩⟩

/-! ### Equal texts -/

/-- Two values with a common text. -/
def Common (v w : HostValue) : Prop := ∃ t, Writes v t ∧ Writes w t

/-- What begins alike and is delimited has a common text. -/
theorem common_of_append {v w : HostValue} {x y s s' : CodeUnits} (hv : Writes v x)
    (hw : Writes w y) (h : x ++ s = y ++ s') (hs : Delimited s) (hs' : Delimited s') :
    Common v w ∧ s = s' := by
  obtain ⟨-, rfl⟩ := readInOneWay v w _ _ x y s s' hv hw h hs hs'
  obtain rfl := List.append_cancel_right h
  exact ⟨⟨x, hv, hw⟩, rfl⟩

theorem Common.kind {v w : HostValue} (h : Common v w) : v.kind = w.kind := by
  obtain ⟨t, hv, hw⟩ := h
  exact @kind_eq v w _ _ t t [] [] hv hw rfl

theorem Common.string {s s' : CodeUnits} (h : Common (.string s) (.string s')) : s = s' := by
  obtain ⟨t, hv, hw⟩ := h
  simp only [Writes, canonicalJson, canonicalize, bind_eq_ok, exists_unit, pure_eq_ok] at hv hw
  have hsame : stringify s ++ [] = stringify s' ++ [] := congrArg (· ++ []) (hv.2.trans hw.2.symm)
  exact (stringify_unique hsame).1

theorem integerText_injective : Function.Injective integerText := by
  intro m n h
  have hbyte (n : Int) (c : Char) (hc : c ∈ (toString n).toList) : c.toNat < 65536 := by
    rw [StrictJson.toList_toString_int, List.mem_append] at hc
    obtain hc | hc := hc
    · split at hc
      · exact absurd hc List.not_mem_nil
      · rw [List.mem_singleton.mp hc]
        decide
    · have hdigit := StrictJson.isDigit_of_mem_toDigits hc
      simp only [StrictJson.isDigit, Bool.and_eq_true, decide_eq_true_eq] at hdigit
      omega
  have hread (n : Int) : (integerText n).map (fun u => Char.ofNat u.toNat) = (toString n).toList := by
    rw [integerText, List.map_map]
    refine (List.map_congr_left fun c hc => ?_).trans (List.map_id _)
    show Char.ofNat (UInt16.ofNat c.toNat).toNat = c
    rw [UInt16.toNat_ofNat', Nat.mod_eq_of_lt (hbyte n c hc), Char.ofNat_toNat]
  have hchars : (toString m).toList = (toString n).toList := by rw [← hread, h, hread]
  have hends : StrictJson.EndsNumeral [] := fun c hc => by cases hc
  have hm := StrictJson.numeral_toString (n := m) hends
  rw [hchars, StrictJson.numeral_toString hends] at hm
  obtain ⟨hsign, hdigits, -, -⟩ := StrictJson.Numeral.mk.inj (Option.some.inj hm)
  have habs : n.natAbs = m.natAbs := by
    rw [← Nat.ofDigitChars_ten_toDigits (n := n.natAbs), hdigits, Nat.ofDigitChars_ten_toDigits]
  split at hsign <;> split at hsign
  · omega
  · cases hsign
  · cases hsign
  · omega

theorem Common.integer {m n : Int} (h : Common (.number (.integer m)) (.number (.integer n))) :
    m = n := by
  obtain ⟨t, hv, hw⟩ := h
  simp only [Writes, canonicalJson, canonicalize, canonicalNumber, bind_eq_ok, failIf_eq_ok,
    exists_unit, pure_eq_ok] at hv hw
  exact integerText_injective (hv.2.trans hw.2.symm)

/-- **Arrays with a common text** have items with common texts. -/
theorem Common.items {as bs : List HostValue} (h : Common (.array as) (.array bs)) :
    List.Forall₂ Common as bs := by
  obtain ⟨t, hv, hw⟩ := h
  obtain ⟨parts, hparts, rfl⟩ := writes_array.mp hv
  obtain ⟨parts', hparts', htext⟩ := writes_array.mp hw
  have hjoined := (List.cons.inj htext).2
  refine (commaJoined_unique (S := Common) (k := 93) (by decide) (by decide) (fun v x hx => ?_)
    (fun v _ w x y s s' hx hy => common_of_append hx hy) hparts hparts' hjoined).1
  obtain ⟨u, s, rfl, hu⟩ := kind_of_canonicalize hx
  refine ⟨u, s, rfl, ?_⟩
  rintro rfl
  rw [show kindOf 93 = none from by decide] at hu
  cases hu

/-- **Objects with a common text** have the same keys, with common texts. -/
theorem Common.members {ms ms' : List (CodeUnits × HostValue)}
    (h : Common (.object ms) (.object ms')) :
    List.Forall₂ (fun m m' => m.1 = m'.1 ∧ Common m.2 m'.2) (sortMembers ms) (sortMembers ms') := by
  obtain ⟨t, hv, hw⟩ := h
  obtain ⟨parts, hparts, rfl⟩ := writes_object.mp hv
  obtain ⟨parts', hparts', htext⟩ := writes_object.mp hw
  have hjoined := (List.cons.inj htext).2
  refine (commaJoined_unique (k := 125) (by decide) (by decide) (fun m x hx => ?_)
    (fun m _ m' x y s s' hx hy heq hs hs' => ?_) hparts hparts' hjoined).1
  · obtain ⟨-, text, -, rfl⟩ := hx
    exact ⟨34, _, rfl, by decide⟩
  · obtain ⟨-, text, htext, rfl⟩ := hx
    obtain ⟨-, text', htext', rfl⟩ := hy
    rw [List.append_assoc, List.append_assoc] at heq
    obtain ⟨hname, hrest⟩ := stringify_unique heq
    obtain ⟨hcommon, htail⟩ := common_of_append htext htext' (List.cons.inj hrest).2 hs hs'
    exact ⟨⟨hname, hcommon⟩, htail⟩

/-- A member of either object, under the same key. -/
theorem Common.member {ms ms' : List (CodeUnits × HostValue)}
    (h : Common (.object ms) (.object ms')) (hnodup : (ms'.map Prod.fst).Nodup) {name : CodeUnits}
    {v v' : HostValue} (hv : (name, v) ∈ ms) (hv' : (name, v') ∈ ms') : Common v v' := by
  have hmatched : ∀ {as bs : List (CodeUnits × HostValue)},
      List.Forall₂ (fun m m' => m.1 = m'.1 ∧ Common m.2 m'.2) as bs → (name, v) ∈ as →
      ∃ w, (name, w) ∈ bs ∧ Common v w := by
    intro as bs hall hmem
    induction hall with
    | nil => exact absurd hmem List.not_mem_nil
    | @cons m m' _ _ hone _ ih =>
      obtain hm | hm := List.mem_cons.mp hmem
      · obtain rfl := hm
        obtain ⟨hname, hcommon⟩ := hone
        have hkey : name = m'.1 := hname
        refine ⟨m'.2, ?_, hcommon⟩
        rw [hkey]
        exact List.mem_cons_self
      · obtain ⟨w, hw, hcommon⟩ := ih hm
        exact ⟨w, List.mem_cons_of_mem _ hw, hcommon⟩
  obtain ⟨w, hw, hcommon⟩ := hmatched h.members (mem_sortMembers.mpr hv)
  have hsame := List.inj_on_of_nodup_map hnodup (mem_sortMembers.mp hw) hv' rfl
  rwa [← (Prod.mk.inj hsame).2]

/-- **Objects of the same keys** with a common text have members with common
texts. -/
theorem Common.values {names : List CodeUnits} (vs vs' : List HostValue)
    (hnodup : names.Nodup) (hvs : vs.length = names.length) (hvs' : vs'.length = names.length)
    (h : Common (.object (names.zip vs)) (.object (names.zip vs'))) : List.Forall₂ Common vs vs' := by
  have hkeys : ((names.zip vs').map Prod.fst).Nodup := by
    rwa [List.map_fst_zip (Nat.le_of_eq hvs'.symm)]
  refine List.forall₂_iff_get.mpr ⟨hvs.trans hvs'.symm, fun i hi hi' => ?_⟩
  have hmem {ws : List HostValue} (hws : i < ws.length) (hlength : ws.length = names.length) :
      (names.get ⟨i, hlength ▸ hws⟩, ws.get ⟨i, hws⟩) ∈ names.zip ws := by
    refine List.mem_iff_getElem.mpr ⟨i, ?_, ?_⟩
    · rw [List.length_zip]
      omega
    · exact List.getElem_zip
  exact h.member hkeys (hmem hi hvs) (hmem hi' hvs')

/-- `null`, or the value of something. -/
def nullable {α : Type} (value : α → HostValue) : Option α → HostValue
  | none => .null
  | some a => value a

theorem Common.nullable {α : Type} {value : α → HostValue} {a b : Option α}
    (hkind : ∀ a, (value a).kind ≠ .null) (hvalue : ∀ a b, Common (value a) (value b) → a = b)
    (h : Common (CanonicalDomain.nullable value a) (CanonicalDomain.nullable value b)) : a = b := by
  cases a with
  | none =>
    cases b with
    | none => rfl
    | some b => exact absurd h.kind.symm (hkind b)
  | some a =>
    cases b with
    | none => exact absurd h.kind (hkind a)
    | some b => exact congrArg some (hvalue a b h)

/-! ### Parts with the same texts -/

/-- Two values with the same text, or with none. -/
def SameText (v w : HostValue) : Prop := ∀ t, Writes v t ↔ Writes w t

theorem SameText.refl (v : HostValue) : SameText v v := fun _ => Iff.rfl

theorem SameText.array {as bs : List HostValue} (h : List.Forall₂ SameText as bs) :
    SameText (.array as) (.array bs) := by
  have hparts (parts : List CodeUnits) : List.Forall₂ Writes as parts
      ↔ List.Forall₂ Writes bs parts := by
    induction h generalizing parts with
    | nil => exact Iff.rfl
    | cons hone _ ih =>
      cases parts with
      | nil => exact ⟨fun hp => (by cases hp), fun hp => by cases hp⟩
      | cons x xs => rw [List.forall₂_cons, List.forall₂_cons, hone x, ih xs]
  intro t
  rw [writes_array, writes_array]
  exact exists_congr fun parts => and_congr_left fun _ => hparts parts

/-- Members are sorted by their keys alone. -/
theorem forall₂_sortMembers {α β : Type} {R : CodeUnits × α → CodeUnits × β → Prop}
    (hkey : ∀ m m', R m m' → m.1 = m'.1) {ms : List (CodeUnits × α)} {ms' : List (CodeUnits × β)}
    (h : List.Forall₂ R ms ms') : List.Forall₂ R (sortMembers ms) (sortMembers ms') := by
  have hinsert : ∀ {m : CodeUnits × α} {m' : CodeUnits × β} {l : List (CodeUnits × α)}
      {l' : List (CodeUnits × β)}, R m m' → List.Forall₂ R l l' →
      List.Forall₂ R (l.orderedInsert (fun a b => unitsLe a.1 b.1 = true) m)
        (l'.orderedInsert (fun a b => unitsLe a.1 b.1 = true) m') := by
    intro m m' l l' hm hl
    induction hl with
    | nil => exact .cons hm .nil
    | @cons n n' _ _ hn hrest ih =>
      rw [List.orderedInsert, List.orderedInsert, hkey m m' hm, hkey n n' hn]
      split
      · exact .cons hm (.cons hn hrest)
      · exact .cons hn ih
  induction h with
  | nil => exact .nil
  | cons hone _ ih => exact hinsert hone ih

theorem SameText.object {ms ms' : List (CodeUnits × HostValue)}
    (h : List.Forall₂ (fun m m' => m.1 = m'.1 ∧ SameText m.2 m'.2) ms ms') :
    SameText (.object ms) (.object ms') := by
  have hparts : ∀ {as bs : List (CodeUnits × HostValue)},
      List.Forall₂ (fun m m' => m.1 = m'.1 ∧ SameText m.2 m'.2) as bs →
      ∀ parts, List.Forall₂ WritesMember as parts ↔ List.Forall₂ WritesMember bs parts := by
    intro as bs hall parts
    induction hall generalizing parts with
    | nil => exact Iff.rfl
    | cons hone _ ih =>
      cases parts with
      | nil => exact ⟨fun hp => (by cases hp), fun hp => by cases hp⟩
      | cons x xs =>
        rw [List.forall₂_cons, List.forall₂_cons, ih xs]
        unfold WritesMember
        rw [hone.1]
        simp only [hone.2 _]
  intro t
  rw [writes_object, writes_object]
  refine exists_congr fun parts => and_congr_left fun _ => ?_
  exact hparts (forall₂_sortMembers (fun _ _ hm => hm.1) h) parts

end CanonicalDomain
