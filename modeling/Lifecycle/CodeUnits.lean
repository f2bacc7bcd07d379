import Mathlib.Data.List.Chain
import Mathlib.Data.List.Forall2
import Mathlib.Data.List.Nodup

/-!
# Strings of UTF-16 code units

A string of the host language is a sequence of 16-bit code units, not of
characters: a character outside the basic plane is a high surrogate followed by
a low one, and nothing keeps a program from building a string in which one of
the two stands alone. This file says when a string spells characters
(`Scalar`), what the encoder does with a string that does not
(`toWellFormed`), and what `JSON.stringify` makes of either (`stringify`):
an unpaired surrogate is escaped, so the text written always spells
characters, and no two strings have a common text.
-/

/-- A string of the host: its UTF-16 code units. -/
abbrev CodeUnits := List UInt16

instance codeUnitsLawful : LawfulBEq (List UInt16) := inferInstance

namespace CodeUnits

/-! ## Surrogates -/

/-- `unit >= 0xd800 && unit <= 0xdbff`. -/
def isHigh (u : UInt16) : Bool := Nat.ble 0xd800 u.toNat && Nat.ble u.toNat 0xdbff

/-- `unit >= 0xdc00 && unit <= 0xdfff`. -/
def isLow (u : UInt16) : Bool := Nat.ble 0xdc00 u.toNat && Nat.ble u.toNat 0xdfff

theorem isHigh_iff {u : UInt16} : isHigh u = true ↔ 0xd800 ≤ u.toNat ∧ u.toNat ≤ 0xdbff := by
  rw [isHigh, Bool.and_eq_true, Nat.ble_eq, Nat.ble_eq]

theorem isLow_iff {u : UInt16} : isLow u = true ↔ 0xdc00 ≤ u.toNat ∧ u.toNat ≤ 0xdfff := by
  rw [isLow, Bool.and_eq_true, Nat.ble_eq, Nat.ble_eq]

theorem not_isLow_of_isHigh {u : UInt16} (h : isHigh u = true) : isLow u = false := by
  rw [isHigh_iff] at h
  rw [Bool.eq_false_iff, Ne, isLow_iff]
  omega

/-- **A sequence of Unicode scalar values**: a high surrogate stands directly
before a low one, and a low one directly behind a high one. -/
structure Scalar (s : CodeUnits) : Prop where
  head : ∀ u ∈ s.head?, isLow u = false
  adjacent : s.IsChain fun u v => isHigh u = isLow v
  last : ∀ u ∈ s.getLast?, isHigh u = false

instance (s : CodeUnits) : Decidable (Scalar s) :=
  decidable_of_iff ((s.head?.all fun u => !isLow u) = true
      ∧ (s.IsChain fun u v => isHigh u = isLow v) ∧ (s.getLast?.all fun u => !isHigh u) = true) (by
    simp only [Option.all_eq_true, Bool.not_eq_true']
    exact ⟨fun h => ⟨h.1, h.2.1, h.2.2⟩, fun h => ⟨h.head, h.adjacent, h.last⟩⟩)

/-- The string ends in a high surrogate. -/
def EndsHigh (s : CodeUnits) : Prop := ∃ u ∈ s.getLast?, isHigh u = true

instance (s : CodeUnits) : Decidable (EndsHigh s) :=
  decidable_of_iff (s.getLast?.any isHigh = true) (by simp [EndsHigh, Option.any_eq_true])

/-- The string without a high surrogate at its very end. -/
def withoutLastHigh (s : CodeUnits) : CodeUnits :=
  if s.getLast?.any isHigh then s.dropLast else s

theorem Scalar.not_endsHigh {s : CodeUnits} (h : Scalar s) : ¬ EndsHigh s := by
  rintro ⟨u, hu, hhigh⟩
  rw [h.last u hu] at hhigh
  exact Bool.false_ne_true hhigh

theorem withoutLastHigh_of_not_endsHigh {s : CodeUnits} (h : ¬ EndsHigh s) :
    withoutLastHigh s = s := by
  refine if_neg fun hany => h ?_
  obtain ⟨u, hu, hhigh⟩ := (Option.any_eq_true _ _).mp hany
  exact ⟨u, hu, hhigh⟩

@[simp] theorem scalar_nil : Scalar [] := ⟨by simp, .nil, by simp⟩

theorem scalar_singleton {u : UInt16} : Scalar [u] ↔ isHigh u = false ∧ isLow u = false :=
  ⟨fun h => ⟨h.last u rfl, h.head u rfl⟩,
    fun h => ⟨by simpa using h.2, .singleton u, by simpa using h.1⟩⟩

/-- A character of the basic plane stands on its own. -/
theorem scalar_cons_plain {u : UInt16} {s : CodeUnits} (hhigh : isHigh u = false)
    (hlow : isLow u = false) : Scalar (u :: s) ↔ Scalar s := by
  cases s with
  | nil => simp [scalar_singleton, hhigh, hlow]
  | cons v s =>
    constructor
    · intro h
      have hchain := List.isChain_cons_cons.mp h.adjacent
      refine ⟨fun w hw => ?_, hchain.2, fun w hw => h.last w ?_⟩
      · obtain rfl : v = w := by simpa using hw
        rw [← hchain.1, hhigh]
      · rwa [List.getLast?_cons_cons]
    · intro h
      refine ⟨fun w hw => ?_, List.isChain_cons_cons.mpr ⟨?_, h.adjacent⟩, fun w hw => ?_⟩
      · obtain rfl : u = w := by simpa using hw
        exact hlow
      · rw [hhigh, h.head v rfl]
      · rw [List.getLast?_cons_cons] at hw
        exact h.last w hw

/-- A pair of surrogates stands on its own. -/
theorem scalar_cons_pair {u v : UInt16} {s : CodeUnits} (hhigh : isHigh u = true)
    (hlow : isLow v = true) : Scalar (u :: v :: s) ↔ Scalar s := by
  have hv : isHigh v = false := by
    rw [isLow_iff] at hlow
    rw [Bool.eq_false_iff, Ne, isHigh_iff]
    omega
  cases s with
  | nil =>
    refine ⟨fun _ => scalar_nil, fun _ => ⟨fun w hw => ?_, ?_, fun w hw => ?_⟩⟩
    · obtain rfl : u = w := by simpa using hw
      exact not_isLow_of_isHigh hhigh
    · exact List.isChain_cons_cons.mpr ⟨hhigh.trans hlow.symm, .singleton v⟩
    · obtain rfl : v = w := by simpa using hw
      exact hv
  | cons w s =>
    constructor
    · intro h
      have hchain := List.isChain_cons_cons.mp (List.isChain_cons_cons.mp h.adjacent).2
      refine ⟨fun x hx => ?_, hchain.2, fun x hx => h.last x ?_⟩
      · obtain rfl : w = x := by simpa using hx
        rw [← hchain.1, hv]
      · rwa [List.getLast?_cons_cons, List.getLast?_cons_cons]
    · intro h
      refine ⟨fun x hx => ?_, ?_, fun x hx => ?_⟩
      · obtain rfl : u = x := by simpa using hx
        exact not_isLow_of_isHigh hhigh
      · refine List.isChain_cons_cons.mpr ⟨hhigh.trans hlow.symm, ?_⟩
        exact List.isChain_cons_cons.mpr ⟨by rw [hv, h.head w rfl], h.adjacent⟩
      · rw [List.getLast?_cons_cons, List.getLast?_cons_cons] at hx
        exact h.last x hx

/-- A high surrogate before anything but a low one is unpaired. -/
theorem not_scalar_high {u v : UInt16} {s : CodeUnits} (hhigh : isHigh u = true)
    (hlow : isLow v = false) : ¬ Scalar (u :: v :: s) := by
  intro h
  have hpair := (List.isChain_cons_cons.mp h.adjacent).1
  rw [hhigh, hlow] at hpair
  exact Bool.false_ne_true hpair.symm

/-- A low surrogate at the front is unpaired. -/
theorem not_scalar_low {u : UInt16} {s : CodeUnits} (hlow : isLow u = true) :
    ¬ Scalar (u :: s) := by
  intro h
  rw [h.head u rfl] at hlow
  exact Bool.false_ne_true hlow

theorem Scalar.append {s t : CodeUnits} (hs : Scalar s) (ht : Scalar t) : Scalar (s ++ t) := by
  refine ⟨fun u hu => ?_, List.isChain_append.mpr ⟨hs.adjacent, ht.adjacent, fun u hu v hv => ?_⟩,
    fun u hu => ?_⟩
  · cases s with
    | nil => exact ht.head u hu
    | cons v s => exact hs.head u hu
  · rw [hs.last u hu, ht.head v hv]
  · obtain rfl | hne := List.eq_nil_or_concat t
    · rw [List.append_nil] at hu
      exact hs.last u hu
    · obtain ⟨t', v, rfl⟩ := hne
      rw [List.concat_eq_append, ← List.append_assoc, List.getLast?_concat] at hu
      refine ht.last u ?_
      rw [List.concat_eq_append, List.getLast?_concat]
      exact hu

theorem scalar_of_plain {s : CodeUnits} (h : ∀ u ∈ s, isHigh u = false ∧ isLow u = false) :
    Scalar s := by
  induction s with
  | nil => exact scalar_nil
  | cons u s ih =>
    have hu := h u List.mem_cons_self
    exact (scalar_cons_plain hu.1 hu.2).mpr (ih fun v hv => h v (List.mem_cons_of_mem u hv))

/-! ## What an encoder does with unpaired surrogates -/

/-- **`String.prototype.toWellFormed`**, which every UTF-8 encoder applies to
its input: an unpaired surrogate is replaced. -/
def toWellFormed : CodeUnits → CodeUnits
  | [] => []
  | [u] => [if isHigh u || isLow u then 0xfffd else u]
  | u :: v :: s =>
    if isHigh u && isLow v then u :: v :: toWellFormed s
    else (if isHigh u || isLow u then 0xfffd else u) :: toWellFormed (v :: s)

/-- Nothing is replaced in a sequence of scalar values. -/
theorem toWellFormed_of_scalar {s : CodeUnits} (h : Scalar s) : toWellFormed s = s := by
  induction s using toWellFormed.induct with
  | case1 => rfl
  | case2 u =>
    rw [scalar_singleton] at h
    rw [toWellFormed, h.1, h.2]
    rfl
  | case3 u v s hpair ih =>
    rw [toWellFormed, if_pos hpair]
    rw [Bool.and_eq_true] at hpair
    rw [ih ((scalar_cons_pair hpair.1 hpair.2).mp h)]
  | case4 u v s hpair ih =>
    have hlow : isLow u = false := h.head u rfl
    have hhigh : isHigh u = false := by
      have hadjacent := (List.isChain_cons_cons.mp h.adjacent).1
      rw [← hadjacent, Bool.and_self, Bool.not_eq_true] at hpair
      exact hpair
    rw [toWellFormed, if_neg hpair, hhigh, hlow, ih ((scalar_cons_plain hhigh hlow).mp h)]
    rfl

/-! ## `JSON.stringify` of a string -/

/-- A hexadecimal digit, in lower case. -/
def hexDigit (n : Nat) : UInt16 := UInt16.ofNat (if n < 10 then 48 + n else 87 + n)

/-- The escape `\uXXXX` of a unit. -/
def unitEscape (u : UInt16) : CodeUnits :=
  [92, 117, hexDigit (u.toNat / 4096), hexDigit (u.toNat / 256 % 16),
    hexDigit (u.toNat / 16 % 16), hexDigit (u.toNat % 16)]

/-- The units with an escape of one letter, and the letter. -/
def shortEscapes : List (UInt16 × UInt16) :=
  [(34, 34), (92, 92), (8, 98), (9, 116), (10, 110), (12, 102), (13, 114)]

/-- One unit that is no half of a pair, as `JSON.stringify` writes it. -/
def escapeUnit (u : UInt16) : CodeUnits :=
  if isHigh u || isLow u then unitEscape u
  else match shortEscapes.lookup u with
    | some letter => [92, letter]
    | none => if u.toNat < 32 then unitEscape u else [u]

/-- The units of a string between its quotes. -/
def escapeUnits : CodeUnits → CodeUnits
  | [] => []
  | [u] => escapeUnit u
  | u :: v :: s =>
    if isHigh u && isLow v then u :: v :: escapeUnits s
    else escapeUnit u ++ escapeUnits (v :: s)

/-- **`JSON.stringify`** of a string. -/
def stringify (s : CodeUnits) : CodeUnits := 34 :: escapeUnits s ++ [34]

example : stringify [0xd83d, 0xde00, 0xd83d]
    = [34, 0xd83d, 0xde00, 92, 117, 100, 56, 51, 100, 34] := by
  decide

/-! ## The written form spells characters -/

theorem toNat_hexDigit {n : Nat} (h : n < 16) :
    (hexDigit n).toNat = if n < 10 then 48 + n else 87 + n := by
  rw [hexDigit, UInt16.toNat_ofNat']
  split <;> omega

theorem plain_of_lt {u : UInt16} (h : u.toNat < 0xd800) : isHigh u = false ∧ isLow u = false := by
  rw [Bool.eq_false_iff, Ne, isHigh_iff, Bool.eq_false_iff, Ne, isLow_iff]
  omega

theorem plain_hexDigit {n : Nat} (h : n < 16) :
    isHigh (hexDigit n) = false ∧ isLow (hexDigit n) = false := by
  refine plain_of_lt ?_
  rw [toNat_hexDigit h]
  split <;> omega

theorem nibbles_lt (u : UInt16) : u.toNat / 4096 < 16 ∧ u.toNat / 256 % 16 < 16
    ∧ u.toNat / 16 % 16 < 16 ∧ u.toNat % 16 < 16 := by
  have hu := u.toNat_lt
  omega

theorem scalar_unitEscape (u : UInt16) : Scalar (unitEscape u) := by
  refine scalar_of_plain fun v hv => ?_
  obtain ⟨h₁, h₂, h₃, h₄⟩ := nibbles_lt u
  simp only [unitEscape, List.mem_cons, List.not_mem_nil, or_false] at hv
  obtain rfl | rfl | rfl | rfl | rfl | rfl := hv
  · decide
  · decide
  · exact plain_hexDigit h₁
  · exact plain_hexDigit h₂
  · exact plain_hexDigit h₃
  · exact plain_hexDigit h₄

theorem mem_of_lookup {u v : UInt16} : ∀ {entries : List (UInt16 × UInt16)},
    entries.lookup u = some v → (u, v) ∈ entries
  | [], h => by cases h
  | (a, b) :: entries, h => by
    rw [List.lookup_cons] at h
    split at h
    · rename_i heq
      rw [beq_iff_eq] at heq
      obtain rfl := heq
      obtain rfl := Option.some.inj h
      exact List.mem_cons_self
    · exact List.mem_cons_of_mem _ (mem_of_lookup h)

theorem scalar_escapeUnit (u : UInt16) : Scalar (escapeUnit u) := by
  unfold escapeUnit
  split
  · exact scalar_unitEscape u
  · rename_i hplain
    simp only [Bool.or_eq_true, not_or, Bool.not_eq_true] at hplain
    split
    · rename_i letter hletter
      have hletters : ∀ p ∈ shortEscapes, isHigh p.2 = false ∧ isLow p.2 = false :=
        List.forall_iff_forall_mem.mp (by decide)
      refine scalar_of_plain fun v hv => ?_
      obtain rfl | rfl : v = 92 ∨ v = letter := by simpa using hv
      · decide
      · exact hletters _ (mem_of_lookup hletter)
    · split
      · exact scalar_unitEscape u
      · exact scalar_singleton.mpr hplain

theorem scalar_escapeUnits (s : CodeUnits) : Scalar (escapeUnits s) := by
  induction s using escapeUnits.induct with
  | case1 => exact scalar_nil
  | case2 u => exact scalar_escapeUnit u
  | case3 u v s hpair ih =>
    rw [escapeUnits, if_pos hpair]
    rw [Bool.and_eq_true] at hpair
    exact (scalar_cons_pair hpair.1 hpair.2).mpr ih
  | case4 u v s hpair ih =>
    rw [escapeUnits, if_neg hpair]
    exact (scalar_escapeUnit u).append ih

/-- **The written form of any string spells characters.** -/
theorem scalar_stringify (s : CodeUnits) : Scalar (stringify s) := by
  have hquote : Scalar [34] := by decide
  exact (hquote.append (scalar_escapeUnits s)).append hquote

/-! ## The written form determines the string -/

/-- The written forms of one unit: itself, its letter or its number. -/
def Spells (u : UInt16) (c : CodeUnits) : Prop :=
  (c = [u] ∧ u ≠ 34 ∧ u ≠ 92) ∨ (∃ letter, (u, letter) ∈ shortEscapes ∧ c = [92, letter])
    ∨ c = unitEscape u

/-- The written forms of a string, unit by unit. -/
inductive SpellsAll : CodeUnits → CodeUnits → Prop
  | nil : SpellsAll [] []
  | cons {u : UInt16} {c s t : CodeUnits} : Spells u c → SpellsAll s t → SpellsAll (u :: s) (c ++ t)

theorem hexDigit_inj {m n : Nat} (hm : m < 16) (hn : n < 16) (h : hexDigit m = hexDigit n) :
    m = n := by
  have hnat := congrArg UInt16.toNat h
  rw [toNat_hexDigit hm, toNat_hexDigit hn] at hnat
  split at hnat <;> split at hnat <;> omega

/-- **A written unit is read in one way**, whatever stands behind it. -/
theorem Spells.unique {u v : UInt16} {c d r t : CodeUnits} (hu : Spells u c) (hv : Spells v d)
    (h : c ++ r = d ++ t) : u = v ∧ r = t := by
  have hletters : ∀ p ∈ shortEscapes, ∀ q ∈ shortEscapes, p.2 = q.2 → p.1 = q.1 := by
    have hdistinct : (shortEscapes.map Prod.snd).Nodup := by decide
    intro p hp q hq hpq
    exact congrArg Prod.fst (List.inj_on_of_nodup_map hdistinct hp hq hpq)
  have hnumber : ∀ p ∈ shortEscapes, p.2 ≠ 117 := List.forall_iff_forall_mem.mp (by decide)
  obtain ⟨rfl, hu34, hu92⟩ | ⟨a, ha, rfl⟩ | rfl := hu
  · obtain ⟨rfl, hv34, hv92⟩ | ⟨b, hb, rfl⟩ | rfl := hv
    · exact ⟨(List.cons.inj h).1, (List.cons.inj h).2⟩
    · exact absurd (List.cons.inj h).1 hu92
    · exact absurd (List.cons.inj h).1 hu92
  · obtain ⟨rfl, hv34, hv92⟩ | ⟨b, hb, rfl⟩ | rfl := hv
    · exact absurd (List.cons.inj h).1.symm hv92
    · have htail := List.cons.inj (List.cons.inj h).2
      exact ⟨hletters _ ha _ hb htail.1, htail.2⟩
    · exact absurd (List.cons.inj (List.cons.inj h).2).1 (hnumber _ ha)
  · obtain ⟨rfl, hv34, hv92⟩ | ⟨b, hb, rfl⟩ | rfl := hv
    · exact absurd (List.cons.inj h).1.symm hv92
    · exact absurd (List.cons.inj (List.cons.inj h).2).1.symm (hnumber _ hb)
    · obtain ⟨h₁, h₂, h₃, h₄⟩ := nibbles_lt u
      obtain ⟨k₁, k₂, k₃, k₄⟩ := nibbles_lt v
      simp only [unitEscape, List.cons_append, List.nil_append, List.cons.injEq, true_and] at h
      have e₁ := hexDigit_inj h₁ k₁ h.1
      have e₂ := hexDigit_inj h₂ k₂ h.2.1
      have e₃ := hexDigit_inj h₃ k₃ h.2.2.1
      have e₄ := hexDigit_inj h₄ k₄ h.2.2.2.1
      refine ⟨UInt16.toNat_inj.mp ?_, h.2.2.2.2⟩
      omega

/-- A written unit does not start with a quote. -/
theorem Spells.front {u : UInt16} {c : CodeUnits} (h : Spells u c) :
    ∃ w t, c = w :: t ∧ w ≠ 34 := by
  obtain ⟨rfl, h34, -⟩ | ⟨a, -, rfl⟩ | rfl := h
  · exact ⟨u, [], rfl, h34⟩
  · exact ⟨92, [a], rfl, by decide⟩
  · exact ⟨92, _, rfl, by decide⟩

theorem SpellsAll.unique {s t : CodeUnits} {a b r r' : CodeUnits} (hs : SpellsAll s a)
    (ht : SpellsAll t b) (h : a ++ 34 :: r = b ++ 34 :: r') : s = t ∧ r = r' := by
  induction hs generalizing t b with
  | nil =>
    cases ht with
    | nil => exact ⟨rfl, (List.cons.inj h).2⟩
    | cons hv _ =>
      obtain ⟨w, x, rfl, hw⟩ := hv.front
      exact absurd (List.cons.inj h).1.symm hw
  | cons hu _ ih =>
    cases ht with
    | nil =>
      obtain ⟨w, x, rfl, hw⟩ := hu.front
      exact absurd (List.cons.inj h).1 hw
    | cons hv hrest =>
      rw [List.append_assoc, List.append_assoc] at h
      obtain ⟨rfl, h⟩ := hu.unique hv h
      obtain ⟨rfl, h⟩ := ih hrest h
      exact ⟨rfl, h⟩

theorem spells_escapeUnit (u : UInt16) : Spells u (escapeUnit u) := by
  unfold escapeUnit
  split
  · exact .inr (.inr rfl)
  · split
    · rename_i letter hletter
      exact .inr (.inl ⟨letter, mem_of_lookup hletter, rfl⟩)
    · rename_i hlookup
      split
      · exact .inr (.inr rfl)
      · refine .inl ⟨rfl, ?_, ?_⟩
        · rintro rfl
          exact absurd hlookup (by decide)
        · rintro rfl
          exact absurd hlookup (by decide)

/-- A half of a pair stands for itself. -/
theorem spells_surrogate {u : UInt16} (h : 0xd800 ≤ u.toNat) : Spells u [u] := by
  refine .inl ⟨rfl, ?_, ?_⟩
  · rintro rfl
    exact absurd h (by decide)
  · rintro rfl
    exact absurd h (by decide)

theorem spellsAll_escapeUnits (s : CodeUnits) : SpellsAll s (escapeUnits s) := by
  induction s using escapeUnits.induct with
  | case1 => exact .nil
  | case2 u =>
    have hone := SpellsAll.cons (spells_escapeUnit u) .nil
    rwa [List.append_nil] at hone
  | case3 u v s hpair ih =>
    rw [escapeUnits, if_pos hpair]
    rw [Bool.and_eq_true, isHigh_iff, isLow_iff] at hpair
    exact .cons (spells_surrogate hpair.1.1)
      (.cons (spells_surrogate (Nat.le_trans (by decide) hpair.2.1)) ih)
  | case4 u v s hpair ih =>
    rw [escapeUnits, if_neg hpair]
    exact .cons (spells_escapeUnit u) ih

/-- **The written form determines the string**, whatever stands behind it. -/
theorem stringify_unique {s t r r' : CodeUnits} (h : stringify s ++ r = stringify t ++ r') :
    s = t ∧ r = r' := by
  simp only [stringify, List.cons_append, List.append_assoc, List.nil_append] at h
  exact (spellsAll_escapeUnits s).unique (spellsAll_escapeUnits t) (List.cons.inj h).2

end CodeUnits
