import Lifecycle.CodeUnits
import Lifecycle.Json
import Lifecycle.JsonText

/-!
# The domain of canonical JSON

`canonicalJson` over the strings the host really has, which are sequences of
UTF-16 code units. `assertUnicodeScalarValue` is to keep every string out that
does not spell characters. It refuses each unpaired surrogate but one: a high
surrogate at the very end of a string, where `charCodeAt` is `NaN` and neither
comparison holds. `canonicalLaw_iff` says for which values this makes a
difference. The text written is not spoiled by it: `JSON.stringify` escapes
what is unpaired, so every canonical text spells characters and determines
every string of the value.

A value is what `JSON.parse` may return, a tree; it has no identity, so the
cycle refusals have no input here, and no member of it is `undefined`.
-/

open Fallible

/-- The code units of a text of the source. -/
def sourceUnits (s : String) : CodeUnits :=
  s.toList.flatMap fun c => (Json.utf16Units c).map UInt16.ofNat

namespace CanonicalDomain

open CodeUnits

/-! ## Values -/

/-- A unit of a numeral. -/
def isNumeralUnit (u : UInt16) : Bool :=
  (Nat.ble 48 u.toNat && Nat.ble u.toNat 57) || u == 43 || u == 45 || u == 46 || u == 69 || u == 101

/-- **The rendering of a finite number that is no integer.** -/
structure FractionText where
  text : CodeUnits
  nonempty : text ≠ []
  numeral : ∀ u ∈ text, isNumeralUnit u = true

/-- **A number of the host**, as far as canonical JSON distinguishes them. -/
inductive HostNumber
  | negativeZero
  | integer (n : Int)
  | fraction (rendering : FractionText)
  | nonFinite

/-- **A JSON-like value of the host.** -/
inductive HostValue
  | null
  | bool (b : Bool)
  | number (n : HostNumber)
  | string (s : CodeUnits)
  | array (items : List HostValue)
  | object (members : List (CodeUnits × HostValue))

/-- An error, its message in the host's own strings. -/
structure CanonicalError where
  code : String
  message : CodeUnits
deriving DecidableEq

/-! ## `canonicalJson` -/

/-- **`assertUnicodeScalarValue`.** -/
def assertUnicodeScalarValue (path : CodeUnits) : CodeUnits → Except CanonicalError Unit
  | [] => .ok ()
  | unit :: rest =>
    if isHigh unit then
      match rest with
      -- `charCodeAt` past the end is `NaN`, and no comparison with it holds.
      | [] => .ok ()
      | next :: rest =>
        if next.toNat < 0xdc00 ∨ next.toNat > 0xdfff then
          .error { code := "foundation.canonical.unicode"
                   message := sourceUnits "Canonical JSON rejects an unpaired high surrogate at "
                     ++ path }
        else assertUnicodeScalarValue path rest
    else if isLow unit then
      .error { code := "foundation.canonical.unicode"
               message := sourceUnits "Canonical JSON rejects an unpaired low surrogate at "
                 ++ path }
    else assertUnicodeScalarValue path rest

/-- The decimal rendering of an integer. -/
def integerText (n : Int) : CodeUnits :=
  (toString n).toList.map fun c => UInt16.ofNat c.toNat

/-- A number as canonical JSON writes it. -/
def canonicalNumber (path : CodeUnits) : HostNumber → Except CanonicalError CodeUnits
  | .nonFinite => .error { code := "foundation.canonical.number"
                           message := sourceUnits "Canonical JSON rejects non-finite number at "
                             ++ path }
  | .negativeZero => .ok (integerText 0)
  | .fraction rendering => .ok rendering.text
  | .integer n => do
    failIf (maxSafeInteger < n.natAbs)
      { code := "foundation.canonical.number"
        message := sourceUnits "Canonical JSON rejects unsafe integer at " ++ path }
    return integerText n

/-- `join(",")`. -/
def commaJoined : List CodeUnits → CodeUnits
  | [] => []
  | [x] => x
  | x :: y :: xs => x ++ 44 :: commaJoined (y :: xs)

/-- The order of `Array.prototype.sort` without a comparator. -/
def unitsLe (a b : CodeUnits) : Bool :=
  Json.lexLe (a.map UInt16.toNat) (b.map UInt16.toNat)

/-- The members in the order of their sorted keys. -/
def sortMembers {α : Type} (members : List (CodeUnits × α)) : List (CodeUnits × α) :=
  members.insertionSort fun a b => unitsLe a.1 b.1 = true

/-- The path of an item. -/
def itemPath (path : CodeUnits) (index : Nat) : CodeUnits :=
  path ++ sourceUnits s!"[{index}]"

/-- The path of a member. -/
def memberPath (path name : CodeUnits) : CodeUnits := path ++ 46 :: name

mutual
/-- **`canonicalize`.** -/
def canonicalize (path : CodeUnits) : HostValue → Except CanonicalError CodeUnits
  | .null => .ok (sourceUnits "null")
  | .bool b => .ok (sourceUnits (if b then "true" else "false"))
  | .string s => do
    assertUnicodeScalarValue path s
    return stringify s
  | .number n => canonicalNumber path n
  | .array items => do
    let parts ← canonicalizeItems path 0 items
    return 91 :: commaJoined parts ++ [93]
  | .object members => do
    -- The members are checked and written in the order of their sorted keys.
    let parts ← (sortMembers (canonicalizeMembers path members)).mapM Prod.snd
    return 123 :: commaJoined parts ++ [125]

/-- The canonical texts of an array's items. -/
def canonicalizeItems (path : CodeUnits) (index : Nat) :
    List HostValue → Except CanonicalError (List CodeUnits)
  | [] => .ok []
  | item :: items => do
    let text ← canonicalize (itemPath path index) item
    let texts ← canonicalizeItems path (index + 1) items
    return text :: texts

/-- The text, or the refusal, of each member of an object. -/
def canonicalizeMembers (path : CodeUnits) :
    List (CodeUnits × HostValue) → List (CodeUnits × Except CanonicalError CodeUnits)
  | [] => []
  | (name, child) :: members =>
    (name, do
      assertUnicodeScalarValue (path ++ sourceUnits " key") name
      let text ← canonicalize (memberPath path name) child
      return stringify name ++ 58 :: text) :: canonicalizeMembers path members
end

/-- **`canonicalJson`.** -/
def canonicalJson (value : HostValue) : Except CanonicalError CodeUnits :=
  canonicalize (sourceUnits "$") value

/-! ## What is admitted -/

/-- **The numbers `canonicalize` admits**: finite, and safe when integers. -/
def HostNumber.Admitted : HostNumber → Prop
  | .nonFinite => False
  | .integer n => n.natAbs ≤ maxSafeInteger
  | _ => True

mutual
/-- The strings of a value: its string values and its keys, at any depth. -/
def HostValue.strings : HostValue → List CodeUnits
  | .string s => [s]
  | .array items => itemStrings items
  | .object members => memberStrings members
  | _ => []

def itemStrings : List HostValue → List CodeUnits
  | [] => []
  | v :: vs => v.strings ++ itemStrings vs

def memberStrings : List (CodeUnits × HostValue) → List CodeUnits
  | [] => []
  | (name, v) :: ms => name :: v.strings ++ memberStrings ms
end

mutual
/-- The numbers of a value, at any depth. -/
def HostValue.numbers : HostValue → List HostNumber
  | .number n => [n]
  | .array items => itemNumbers items
  | .object members => memberNumbers members
  | _ => []

def itemNumbers : List HostValue → List HostNumber
  | [] => []
  | v :: vs => v.numbers ++ itemNumbers vs

def memberNumbers : List (CodeUnits × HostValue) → List HostNumber
  | [] => []
  | (_, v) :: ms => v.numbers ++ memberNumbers ms
end

/-- A sequence in front of the last unit is left alone. -/
theorem withoutLastHigh_cons {u : UInt16} {s : CodeUnits} (h : s ≠ [] ∨ isHigh u = false) :
    withoutLastHigh (u :: s) = u :: withoutLastHigh s := by
  cases s with
  | nil =>
    have hu : isHigh u = false := h.resolve_left fun hne => hne rfl
    rw [withoutLastHigh, if_neg (by simp [hu])]
    rfl
  | cons v s =>
    rw [withoutLastHigh, withoutLastHigh, List.getLast?_cons_cons, List.dropLast_cons_cons]
    split <;> rfl

/-- **What the scan lets through**: a sequence of scalar values, and a high
surrogate at its very end. -/
theorem assertUnicodeScalarValue_eq_ok_iff {path s : CodeUnits} :
    assertUnicodeScalarValue path s = .ok () ↔ Scalar (withoutLastHigh s) := by
  induction s using assertUnicodeScalarValue.induct with
  | case1 => exact ⟨fun _ => scalar_nil, fun _ => rfl⟩
  | case2 unit hhigh =>
    have hdrop : withoutLastHigh [unit] = [] := if_pos (by simp [hhigh])
    rw [assertUnicodeScalarValue, if_pos hhigh, hdrop]
    exact ⟨fun _ => scalar_nil, fun _ => rfl⟩
  | case3 unit hhigh next rest hnext =>
    have hlow : isLow next = false := by
      rw [Bool.eq_false_iff, Ne, isLow_iff]
      omega
    rw [assertUnicodeScalarValue, if_pos hhigh]
    simp only [if_pos hnext, reduceCtorEq, false_iff]
    rw [withoutLastHigh_cons (.inl (List.cons_ne_nil next rest))]
    by_cases hdrop : rest ≠ [] ∨ isHigh next = false
    · rw [withoutLastHigh_cons hdrop]
      exact not_scalar_high hhigh hlow
    · -- two high surrogates end the string
      rw [not_or, not_not, Bool.not_eq_false] at hdrop
      obtain ⟨rfl, hlast⟩ := hdrop
      rw [show withoutLastHigh [next] = [] from if_pos (by simp [hlast]), scalar_singleton, hhigh]
      exact fun h => Bool.false_ne_true h.1.symm
  | case4 unit hhigh next rest hnext ih =>
    have hlow : isLow next = true := by
      rw [isLow_iff]
      omega
    have hnexthigh : isHigh next = false := by
      rw [Bool.eq_false_iff, Ne, isHigh_iff]
      omega
    rw [assertUnicodeScalarValue, if_pos hhigh]
    simp only [if_neg hnext]
    rw [withoutLastHigh_cons (.inl (List.cons_ne_nil next rest)),
      withoutLastHigh_cons (.inr hnexthigh), scalar_cons_pair hhigh hlow]
    exact ih
  | case5 unit rest hhigh hlow =>
    rw [Bool.not_eq_true] at hhigh
    rw [assertUnicodeScalarValue.eq_def, withoutLastHigh_cons (.inr hhigh)]
    simp only [hhigh, hlow, if_true, Bool.false_eq_true, if_false, reduceCtorEq, false_iff]
    exact not_scalar_low hlow
  | case6 unit rest hhigh hlow ih =>
    rw [Bool.not_eq_true] at hhigh hlow
    rw [assertUnicodeScalarValue.eq_def, withoutLastHigh_cons (.inr hhigh),
      scalar_cons_plain hhigh hlow]
    simp only [hhigh, hlow, Bool.false_eq_true, if_false]
    exact ih

theorem exists_canonicalNumber_iff {path : CodeUnits} {n : HostNumber} :
    (∃ t, canonicalNumber path n = .ok t) ↔ n.Admitted := by
  cases n with
  | negativeZero => exact ⟨fun _ => trivial, fun _ => ⟨_, rfl⟩⟩
  | fraction rendering => exact ⟨fun _ => trivial, fun _ => ⟨_, rfl⟩⟩
  | nonFinite =>
    constructor
    · rintro ⟨_, h⟩
      cases h
    · intro h
      exact h.elim
  | integer n =>
    simp only [canonicalNumber, bind_eq_ok, failIf_eq_ok, exists_unit, pure_eq_ok, Nat.not_lt]
    constructor
    · rintro ⟨_, h, -⟩
      exact h
    · intro h
      exact ⟨_, h, rfl⟩

/-- A traversal returns exactly when each of its steps does. -/
theorem exists_mapM_iff {ε α β : Type} {f : α → Except ε β} {xs : List α} :
    (∃ ys, xs.mapM f = .ok ys) ↔ ∀ x ∈ xs, ∃ y, f x = .ok y := by
  induction xs with
  | nil => exact ⟨fun _ x hx => absurd hx List.not_mem_nil, fun _ => ⟨[], rfl⟩⟩
  | cons x xs ih =>
    simp only [List.mapM_cons, bind_eq_ok, pure_eq_ok, List.forall_mem_cons]
    rw [← ih]
    constructor
    · rintro ⟨_, y, hy, ys, hys, -⟩
      exact ⟨⟨y, hy⟩, ys, hys⟩
    · rintro ⟨⟨y, hy⟩, ys, hys⟩
      exact ⟨_, y, hy, ys, hys, rfl⟩

theorem mem_sortMembers {α : Type} {members : List (CodeUnits × α)} {m : CodeUnits × α} :
    m ∈ sortMembers members ↔ m ∈ members := (List.perm_insertionSort _ members).mem_iff

mutual
/-- **When a value has a canonical text**: each string passes the scan and each
number is admitted. -/
theorem exists_canonicalize_iff : ∀ {v : HostValue} {path : CodeUnits},
    (∃ t, canonicalize path v = .ok t)
      ↔ (∀ s ∈ v.strings, Scalar (withoutLastHigh s)) ∧ ∀ n ∈ v.numbers, n.Admitted
  | .null, _ => by simp [canonicalize, HostValue.strings, HostValue.numbers]
  | .bool _, _ => by simp [canonicalize, HostValue.strings, HostValue.numbers]
  | .number n, path => by
    simp only [HostValue.strings, HostValue.numbers, List.mem_singleton, forall_eq,
      List.not_mem_nil, false_implies, implies_true, true_and]
    exact exists_canonicalNumber_iff
  | .string s, path => by
    simp only [canonicalize, HostValue.strings, HostValue.numbers, List.mem_singleton, forall_eq,
      List.not_mem_nil, false_implies, implies_true, and_true, bind_eq_ok, pure_eq_ok, exists_unit,
      assertUnicodeScalarValue_eq_ok_iff, exists_and_left, exists_eq', and_true]
  | .array items, path => by
    have hitems := @exists_canonicalizeItems_iff items path 0
    simp only [canonicalize, HostValue.strings, HostValue.numbers, bind_eq_ok, pure_eq_ok]
    rw [← hitems]
    constructor
    · rintro ⟨_, parts, h, -⟩
      exact ⟨parts, h⟩
    · rintro ⟨parts, h⟩
      exact ⟨_, parts, h, rfl⟩
  | .object members, path => by
    have hmembers := @exists_canonicalizeMembers_iff members path
    simp only [canonicalize, HostValue.strings, HostValue.numbers, bind_eq_ok, pure_eq_ok]
    rw [← hmembers]
    have hall : (∃ parts, (sortMembers (canonicalizeMembers path members)).mapM Prod.snd = .ok parts)
        ↔ ∀ m ∈ canonicalizeMembers path members, ∃ t, m.2 = .ok t := by
      rw [exists_mapM_iff]
      exact forall_congr' fun m => by rw [mem_sortMembers]
    rw [← hall]
    constructor
    · rintro ⟨_, parts, h, -⟩
      exact ⟨parts, h⟩
    · rintro ⟨parts, h⟩
      exact ⟨_, parts, h, rfl⟩

theorem exists_canonicalizeItems_iff : ∀ {items : List HostValue} {path : CodeUnits} {index : Nat},
    (∃ parts, canonicalizeItems path index items = .ok parts)
      ↔ (∀ s ∈ itemStrings items, Scalar (withoutLastHigh s))
        ∧ ∀ n ∈ itemNumbers items, n.Admitted
  | [], _, _ => by simp [canonicalizeItems, itemStrings, itemNumbers]
  | v :: vs, path, index => by
    have hone := @exists_canonicalize_iff v (itemPath path index)
    have hrest := @exists_canonicalizeItems_iff vs path (index + 1)
    simp only [canonicalizeItems, itemStrings, itemNumbers, List.forall_mem_append, bind_eq_ok,
      pure_eq_ok]
    rw [and_and_and_comm, ← hone, ← hrest]
    constructor
    · rintro ⟨_, t, ht, ts, hts, -⟩
      exact ⟨⟨t, ht⟩, ts, hts⟩
    · rintro ⟨⟨t, ht⟩, ts, hts⟩
      exact ⟨_, t, ht, ts, hts, rfl⟩

theorem exists_canonicalizeMembers_iff : ∀ {members : List (CodeUnits × HostValue)}
    {path : CodeUnits}, (∀ m ∈ canonicalizeMembers path members, ∃ t, m.2 = .ok t)
      ↔ (∀ s ∈ memberStrings members, Scalar (withoutLastHigh s))
        ∧ ∀ n ∈ memberNumbers members, n.Admitted
  | [], _ => by simp [canonicalizeMembers, memberStrings, memberNumbers]
  | (name, v) :: ms, path => by
    have hone := @exists_canonicalize_iff v (memberPath path name)
    have hrest := @exists_canonicalizeMembers_iff ms path
    simp only [canonicalizeMembers, memberStrings, memberNumbers, List.cons_append,
      List.forall_mem_cons, List.forall_mem_append, bind_eq_ok, pure_eq_ok, exists_unit,
      assertUnicodeScalarValue_eq_ok_iff]
    rw [and_assoc, and_and_and_comm, ← hone, ← hrest, ← and_assoc]
    refine and_congr_left fun _ => ?_
    exact ⟨fun ⟨_, hname, t, ht, _⟩ => ⟨hname, t, ht⟩,
      fun ⟨hname, t, ht⟩ => ⟨_, hname, t, ht, rfl⟩⟩
end

/-! ## The text spells characters -/

theorem plain_of_isNumeralUnit {u : UInt16} (h : isNumeralUnit u = true) :
    isHigh u = false ∧ isLow u = false := by
  refine plain_of_lt ?_
  simp only [isNumeralUnit, Bool.or_eq_true, Bool.and_eq_true, Nat.ble_eq, beq_iff_eq] at h
  obtain ((((h | rfl) | rfl) | rfl) | rfl) | rfl := h
  · omega
  all_goals decide

/-- The units of an integer are those of a numeral. -/
theorem isNumeralUnit_of_mem_integerText {n : Int} {u : UInt16} (h : u ∈ integerText n) :
    isNumeralUnit u = true := by
  obtain ⟨c, hc, rfl⟩ := List.mem_map.mp h
  rw [StrictJson.toList_toString_int, List.mem_append] at hc
  obtain hc | hc := hc
  · split at hc
    · exact absurd hc List.not_mem_nil
    · rw [List.mem_singleton.mp hc]
      decide
  · have hdigit := StrictJson.isDigit_of_mem_toDigits hc
    simp only [StrictJson.isDigit, Bool.and_eq_true, decide_eq_true_eq] at hdigit
    have hunit : (UInt16.ofNat c.toNat).toNat = c.toNat := by
      rw [UInt16.toNat_ofNat']
      omega
    simp only [isNumeralUnit, hunit, Bool.or_eq_true, Bool.and_eq_true, Nat.ble_eq]
    exact .inl (.inl (.inl (.inl (.inl hdigit))))

theorem integerText_ne_nil (n : Int) : integerText n ≠ [] := by
  intro h
  have hnil := List.map_eq_nil_iff.mp h
  rw [StrictJson.toList_toString_int, List.append_eq_nil_iff] at hnil
  exact Nat.toDigits_ne_nil hnil.2

/-- **The text of a number is a numeral.** -/
theorem numeral_of_canonicalNumber {path t : CodeUnits} {n : HostNumber}
    (h : canonicalNumber path n = .ok t) : t ≠ [] ∧ ∀ u ∈ t, isNumeralUnit u = true := by
  cases n with
  | negativeZero =>
    obtain rfl := Except.ok.inj h
    exact ⟨integerText_ne_nil 0, fun u => isNumeralUnit_of_mem_integerText⟩
  | fraction rendering =>
    obtain rfl := Except.ok.inj h
    exact ⟨rendering.nonempty, rendering.numeral⟩
  | nonFinite => cases h
  | integer n =>
    simp only [canonicalNumber, bind_eq_ok, failIf_eq_ok, exists_unit, pure_eq_ok] at h
    obtain ⟨-, rfl⟩ := h
    exact ⟨integerText_ne_nil n, fun u => isNumeralUnit_of_mem_integerText⟩

theorem scalar_commaJoined : ∀ {parts : List CodeUnits}, (∀ x ∈ parts, Scalar x) →
    Scalar (commaJoined parts)
  | [], _ => scalar_nil
  | [x], h => h x List.mem_cons_self
  | x :: y :: xs, h => by
    have hcomma : Scalar [44] := by decide +kernel
    have hrest : Scalar (commaJoined (y :: xs)) :=
      scalar_commaJoined fun z hz => h z (List.mem_cons_of_mem x hz)
    exact (h x List.mem_cons_self).append (hcomma.append hrest)

theorem scalar_enclosed {parts : List CodeUnits} {first last : UInt16} (hfirst : Scalar [first])
    (hlast : Scalar [last]) (h : ∀ x ∈ parts, Scalar x) :
    Scalar (first :: commaJoined parts ++ [last]) :=
  (hfirst.append (scalar_commaJoined h)).append hlast

mutual
/-- **A canonical text spells characters.** -/
theorem scalar_canonicalize : ∀ {v : HostValue} {path t : CodeUnits},
    canonicalize path v = .ok t → Scalar t
  | .null, _, _, h => by
    obtain rfl := Except.ok.inj h
    decide +kernel
  | .bool true, _, _, h => by
    obtain rfl := Except.ok.inj h
    decide +kernel
  | .bool false, _, _, h => by
    obtain rfl := Except.ok.inj h
    decide +kernel
  | .number n, _, _, h =>
    scalar_of_plain fun u hu => plain_of_isNumeralUnit ((numeral_of_canonicalNumber h).2 u hu)
  | .string s, path, t, h => by
    simp only [canonicalize, bind_eq_ok, exists_unit, pure_eq_ok] at h
    obtain ⟨-, rfl⟩ := h
    exact scalar_stringify s
  | .array items, path, t, h => by
    simp only [canonicalize, bind_eq_ok, pure_eq_ok] at h
    obtain ⟨parts, hparts, rfl⟩ := h
    exact scalar_enclosed (by decide +kernel) (by decide +kernel)
      (scalar_canonicalizeItems hparts)
  | .object members, path, t, h => by
    simp only [canonicalize, bind_eq_ok, pure_eq_ok, mapM_eq_ok_iff] at h
    obtain ⟨parts, hparts, rfl⟩ := h
    refine scalar_enclosed (by decide +kernel) (by decide +kernel) fun x hx => ?_
    obtain ⟨m, hm, hx⟩ := exists_of_forall₂ hparts hx
    exact scalar_canonicalizeMembers m (mem_sortMembers.mp hm) hx

theorem scalar_canonicalizeItems : ∀ {items : List HostValue} {path : CodeUnits} {index : Nat}
    {parts : List CodeUnits}, canonicalizeItems path index items = .ok parts →
    ∀ x ∈ parts, Scalar x
  | [], _, _, _, h => by
    obtain rfl := Except.ok.inj h
    exact fun x hx => absurd hx List.not_mem_nil
  | v :: vs, path, index, parts, h => by
    simp only [canonicalizeItems, bind_eq_ok, pure_eq_ok] at h
    obtain ⟨t, ht, ts, hts, rfl⟩ := h
    exact List.forall_mem_cons.mpr ⟨scalar_canonicalize ht, scalar_canonicalizeItems hts⟩

theorem scalar_canonicalizeMembers : ∀ {members : List (CodeUnits × HostValue)}
    {path : CodeUnits}, ∀ m ∈ canonicalizeMembers path members, ∀ {t : CodeUnits},
    m.2 = .ok t → Scalar t
  | [], _, _, hm, _, _ => absurd hm List.not_mem_nil
  | (name, v) :: ms, path, m, hm, t, h => by
    obtain rfl | hm := List.mem_cons.mp hm
    · simp only [bind_eq_ok, exists_unit, pure_eq_ok] at h
      obtain ⟨-, text, htext, rfl⟩ := h
      have hcolon : Scalar [58] := by decide +kernel
      exact (scalar_stringify name).append (hcolon.append (scalar_canonicalize htext))
    · exact scalar_canonicalizeMembers m hm h
end

/-! ## The text determines the strings -/

mutual
/-- **Two values agree in every string and key**, place by place; the members
of an object have no order. -/
inductive Agree : HostValue → HostValue → Prop
  | null : Agree .null .null
  | bool (b : Bool) : Agree (.bool b) (.bool b)
  | number (m n : HostNumber) : Agree (.number m) (.number n)
  | string (s : CodeUnits) : Agree (.string s) (.string s)
  | array {items items' : List HostValue} : AgreeItems items items' →
      Agree (.array items) (.array items')
  | object {members members' : List (CodeUnits × HostValue)} :
      AgreeMembers (sortMembers members) (sortMembers members') →
      Agree (.object members) (.object members')

inductive AgreeItems : List HostValue → List HostValue → Prop
  | nil : AgreeItems [] []
  | cons {v v' : HostValue} {vs vs' : List HostValue} : Agree v v' → AgreeItems vs vs' →
      AgreeItems (v :: vs) (v' :: vs')

inductive AgreeMembers : List (CodeUnits × HostValue) → List (CodeUnits × HostValue) → Prop
  | nil : AgreeMembers [] []
  | cons {name : CodeUnits} {v v' : HostValue} {ms ms' : List (CodeUnits × HostValue)} :
      Agree v v' → AgreeMembers ms ms' → AgreeMembers ((name, v) :: ms) ((name, v') :: ms')
end

/-- What a text is the text of, as its first unit tells. -/
inductive Kind
  | null | yes | no | string | number | array | object
deriving DecidableEq

/-- The kind of a value. -/
def HostValue.kind : HostValue → Kind
  | .null => .null
  | .bool b => if b then .yes else .no
  | .string _ => .string
  | .number _ => .number
  | .array _ => .array
  | .object _ => .object

/-- The kind a first unit announces. -/
def kindOf (u : UInt16) : Option Kind :=
  if isNumeralUnit u then some .number
  else [(110, Kind.null), (116, .yes), (102, .no), (34, .string), (91, .array),
    (123, .object)].lookup u

/-- A text announces the kind of its value. -/
theorem kind_of_canonicalize {v : HostValue} {path t : CodeUnits}
    (h : canonicalize path v = .ok t) : ∃ u r, t = u :: r ∧ kindOf u = some v.kind := by
  cases v with
  | null =>
    obtain rfl := Except.ok.inj h
    exact ⟨110, _, rfl, by decide⟩
  | bool b =>
    obtain rfl := Except.ok.inj h
    cases b with
    | false => exact ⟨102, _, rfl, by decide⟩
    | true => exact ⟨116, _, rfl, by decide⟩
  | string s =>
    simp only [canonicalize, bind_eq_ok, exists_unit, pure_eq_ok] at h
    obtain ⟨-, rfl⟩ := h
    exact ⟨34, _, rfl, (by decide : kindOf 34 = some .string)⟩
  | number n =>
    obtain ⟨hne, hall⟩ := numeral_of_canonicalNumber h
    cases t with
    | nil => exact absurd rfl hne
    | cons u r => exact ⟨u, r, rfl, if_pos (hall u List.mem_cons_self)⟩
  | array items =>
    simp only [canonicalize, bind_eq_ok, pure_eq_ok] at h
    obtain ⟨parts, -, rfl⟩ := h
    exact ⟨91, _, rfl, (by decide : kindOf 91 = some .array)⟩
  | object members =>
    simp only [canonicalize, bind_eq_ok, pure_eq_ok] at h
    obtain ⟨parts, -, rfl⟩ := h
    exact ⟨123, _, rfl, (by decide : kindOf 123 = some .object)⟩

/-- What stands behind a text does not go on with a numeral. -/
def Delimited (r : CodeUnits) : Prop := ∀ u ∈ r.head?, isNumeralUnit u = false

theorem delimited_cons {u : UInt16} {r : CodeUnits} (h : isNumeralUnit u = false) :
    Delimited (u :: r) := by
  intro v hv
  obtain rfl : u = v := by simpa using hv
  exact h

theorem numeral_unique {t t' r r' : CodeUnits} (ht : ∀ u ∈ t, isNumeralUnit u = true)
    (ht' : ∀ u ∈ t', isNumeralUnit u = true) (hr : Delimited r) (hr' : Delimited r')
    (h : t ++ r = t' ++ r') : r = r' := by
  rw [← StrictJson.dropWhile_of_all ht hr, ← StrictJson.dropWhile_of_all ht' hr', h]

/-- **Joined texts are read in one way**: where each part is, and no part starts
with the unit that closes the list. -/
theorem commaJoined_unique {α : Type} {T : α → CodeUnits → Prop} {S : α → α → Prop}
    {k : UInt16} (hclose : k ≠ 44) (hdelimits : isNumeralUnit k = false)
    (hfront : ∀ a x, T a x → ∃ u r, x = u :: r ∧ u ≠ k) :
    ∀ {as bs : List α} {parts parts' : List CodeUnits} {r r' : CodeUnits},
      (∀ a ∈ as, ∀ b x y s s', T a x → T b y → x ++ s = y ++ s' → Delimited s →
        Delimited s' → S a b ∧ s = s') →
      List.Forall₂ T as parts → List.Forall₂ T bs parts' →
      commaJoined parts ++ k :: r = commaJoined parts' ++ k :: r' →
      List.Forall₂ S as bs ∧ r = r' := by
  -- what stands behind the first part of a list
  have hbehind : ∀ (x : CodeUnits) (xs : List CodeUnits) (r : CodeUnits),
      ∃ s, commaJoined (x :: xs) ++ k :: r = x ++ s ∧ Delimited s
        ∧ (s = k :: r ∧ xs = [] ∨ s = 44 :: (commaJoined xs ++ k :: r) ∧ xs ≠ []) := by
    intro x xs r
    cases xs with
    | nil => exact ⟨k :: r, rfl, delimited_cons hdelimits, .inl ⟨rfl, rfl⟩⟩
    | cons y xs =>
      refine ⟨44 :: (commaJoined (y :: xs) ++ k :: r), ?_, delimited_cons (by decide),
        .inr ⟨rfl, List.cons_ne_nil y xs⟩⟩
      rw [commaJoined, List.append_assoc]
      rfl
  have hempty : ∀ {a : α} {x : CodeUnits} {xs : List CodeUnits} {r r' : CodeUnits}, T a x →
      k :: r ≠ commaJoined (x :: xs) ++ k :: r' := by
    intro a x xs r r' ha heq
    obtain ⟨s, hs, -, -⟩ := hbehind x xs r'
    obtain ⟨u, rest, rfl, hu⟩ := hfront a x ha
    rw [hs] at heq
    exact hu (List.cons.inj heq).1.symm
  intro as
  induction as with
  | nil =>
    intro bs parts parts' r r' _ h h' heq
    cases h
    cases h' with
    | nil => exact ⟨.nil, (List.cons.inj heq).2⟩
    | cons hb _ => exact absurd heq (hempty hb)
  | cons a as ih =>
    intro bs parts parts' r r' hone h h' heq
    cases h with
    | cons ha has =>
      rename_i x xs
      cases h' with
      | nil => exact absurd heq.symm (hempty ha)
      | cons hb hbs =>
        rename_i b y bs ys
        obtain ⟨s, hs, hdel, hcase⟩ := hbehind x xs r
        obtain ⟨s', hs', hdel', hcase'⟩ := hbehind y ys r'
        rw [hs, hs'] at heq
        obtain ⟨hsame, rfl⟩ := hone a List.mem_cons_self b x y s s' ha hb heq hdel hdel'
        obtain ⟨rfl, rfl⟩ | ⟨rfl, hne⟩ := hcase
        · obtain ⟨hclosed, rfl⟩ | ⟨hcomma, -⟩ := hcase'
          · cases has
            cases hbs
            exact ⟨.cons hsame .nil, (List.cons.inj hclosed).2⟩
          · exact absurd (List.cons.inj hcomma).1 hclose
        · obtain ⟨hclosed, -⟩ | ⟨hcomma, -⟩ := hcase'
          · exact absurd (List.cons.inj hclosed).1.symm hclose
          · obtain ⟨hrest, hr⟩ := ih (fun c hc => hone c (List.mem_cons_of_mem a hc)) has hbs
              (List.cons.inj hcomma).2
            exact ⟨.cons hsame hrest, hr⟩

/-- The text of one member. -/
def memberText (path : CodeUnits) (m : CodeUnits × HostValue) : Except CanonicalError CodeUnits := do
  assertUnicodeScalarValue (path ++ sourceUnits " key") m.1
  let text ← canonicalize (memberPath path m.1) m.2
  return stringify m.1 ++ 58 :: text

theorem canonicalizeMembers_eq_map (path : CodeUnits) :
    ∀ members : List (CodeUnits × HostValue),
      canonicalizeMembers path members = members.map fun m => (m.1, memberText path m)
  | [] => rfl
  | (name, v) :: ms => by
    rw [canonicalizeMembers, canonicalizeMembers_eq_map path ms, List.map_cons]
    rfl

/-- The members are written in sorted order, each with its own text. -/
theorem mapM_sortMembers {path : CodeUnits} {members : List (CodeUnits × HostValue)} :
    (sortMembers (canonicalizeMembers path members)).mapM Prod.snd
      = (sortMembers members).mapM (memberText path) := by
  rw [canonicalizeMembers_eq_map, sortMembers, sortMembers,
    ← List.map_insertionSort (fun a b => unitsLe a.1 b.1 = true)
      (fun a b => unitsLe a.1 b.1 = true) (fun m => (m.1, memberText path m)) members
      fun _ _ _ _ => Iff.rfl]
  exact List.mapM_map

theorem agreeItems_of_forall₂ {items items' : List HostValue}
    (h : List.Forall₂ Agree items items') : AgreeItems items items' := by
  induction h with
  | nil => exact .nil
  | cons hone _ ih => exact .cons hone ih

theorem agreeMembers_of_forall₂ {members members' : List (CodeUnits × HostValue)}
    (h : List.Forall₂ (fun m m' => m.1 = m'.1 ∧ Agree m.2 m'.2) members members') :
    AgreeMembers members members' := by
  induction h with
  | nil => exact .nil
  | @cons m m' _ _ hone _ ih =>
    obtain ⟨name, v⟩ := m
    obtain ⟨name', v'⟩ := m'
    obtain ⟨rfl, hagree⟩ := hone
    exact .cons hagree ih

theorem forall₂_of_canonicalizeItems : ∀ {items : List HostValue} {path : CodeUnits} {index : Nat}
    {parts : List CodeUnits}, canonicalizeItems path index items = .ok parts →
    List.Forall₂ (fun v x => ∃ p, canonicalize p v = .ok x) items parts
  | [], _, _, _, h => by
    obtain rfl := Except.ok.inj h
    exact .nil
  | v :: vs, path, index, parts, h => by
    simp only [canonicalizeItems, bind_eq_ok, pure_eq_ok] at h
    obtain ⟨t, ht, ts, hts, rfl⟩ := h
    exact .cons ⟨_, ht⟩ (forall₂_of_canonicalizeItems hts)

/-- A value is read in one way, whatever delimiter stands behind its text. -/
def ReadInOneWay (v : HostValue) : Prop :=
  ∀ (w : HostValue) (path path' t t' r r' : CodeUnits), canonicalize path v = .ok t →
    canonicalize path' w = .ok t' → t ++ r = t' ++ r' → Delimited r → Delimited r' →
    Agree v w ∧ r = r'

/-- Texts that begin alike are of values of one kind. -/
theorem kind_eq {v w : HostValue} {path path' t t' r r' : CodeUnits}
    (hv : canonicalize path v = .ok t) (hw : canonicalize path' w = .ok t')
    (h : t ++ r = t' ++ r') : v.kind = w.kind := by
  obtain ⟨u, s, rfl, hkind⟩ := kind_of_canonicalize hv
  obtain ⟨u', s', rfl, hkind'⟩ := kind_of_canonicalize hw
  obtain rfl := (List.cons.inj h).1
  exact Option.some.inj (hkind.symm.trans hkind')

theorem readInOneWay_array {items : List HostValue} (hall : ∀ v ∈ items, ReadInOneWay v) :
    ReadInOneWay (.array items) := by
  intro w path path' t t' r r' hv hw h hr hr'
  have hkind := kind_eq hv hw h
  cases w with
  | array items' =>
    simp only [canonicalize, bind_eq_ok, pure_eq_ok] at hv hw
    obtain ⟨parts, hparts, rfl⟩ := hv
    obtain ⟨parts', hparts', rfl⟩ := hw
    rw [List.cons_append, List.cons_append, List.append_assoc, List.append_assoc] at h
    obtain ⟨hagree, rfl⟩ := commaJoined_unique (S := Agree) (k := 93) (by decide) (by decide)
      (fun v x ⟨p, hx⟩ => by
        obtain ⟨u, s, rfl, hu⟩ := kind_of_canonicalize hx
        refine ⟨u, s, rfl, ?_⟩
        rintro rfl
        rw [show kindOf 93 = none from by decide] at hu
        cases hu)
      (fun v hmem w x y s s' ⟨p, hx⟩ ⟨q, hy⟩ => hall v hmem w p q x y s s' hx hy)
      (forall₂_of_canonicalizeItems hparts) (forall₂_of_canonicalizeItems hparts')
      (List.cons.inj h).2
    exact ⟨.array (agreeItems_of_forall₂ hagree), rfl⟩
  | bool b => cases b <;> cases hkind
  | _ => cases hkind

theorem readInOneWay_object {members : List (CodeUnits × HostValue)}
    (hall : ∀ m ∈ members, ReadInOneWay m.2) : ReadInOneWay (.object members) := by
  intro w path path' t t' r r' hv hw h hr hr'
  have hkind := kind_eq hv hw h
  cases w with
  | object members' =>
    simp only [canonicalize, bind_eq_ok, pure_eq_ok, mapM_sortMembers, mapM_eq_ok_iff] at hv hw
    obtain ⟨parts, hparts, rfl⟩ := hv
    obtain ⟨parts', hparts', rfl⟩ := hw
    rw [List.cons_append, List.cons_append, List.append_assoc, List.append_assoc] at h
    obtain ⟨hagree, rfl⟩ := commaJoined_unique (k := 125)
      (T := fun m x => ∃ p, memberText p m = .ok x)
      (S := fun m m' => m.1 = m'.1 ∧ Agree m.2 m'.2) (by decide) (by decide)
      (fun m x ⟨p, hx⟩ => by
        simp only [memberText, bind_eq_ok, exists_unit, pure_eq_ok] at hx
        obtain ⟨-, text, -, rfl⟩ := hx
        exact ⟨34, _, rfl, by decide⟩)
      (fun m hmem m' x y s s' ⟨p, hx⟩ ⟨q, hy⟩ heq hs hs' => by
        simp only [memberText, bind_eq_ok, exists_unit, pure_eq_ok] at hx hy
        obtain ⟨-, text, htext, rfl⟩ := hx
        obtain ⟨-, text', htext', rfl⟩ := hy
        rw [List.append_assoc, List.append_assoc] at heq
        obtain ⟨hname, hrest⟩ := stringify_unique heq
        obtain ⟨hchild, htail⟩ := hall m (mem_sortMembers.mp hmem) m'.2 _ _ text text' s s' htext
          htext' (List.cons.inj hrest).2 hs hs'
        exact ⟨⟨hname, hchild⟩, htail⟩)
      (hparts.imp fun _ _ hx => ⟨path, hx⟩) (hparts'.imp fun _ _ hx => ⟨path', hx⟩)
      (List.cons.inj h).2
    exact ⟨.object (agreeMembers_of_forall₂ hagree), rfl⟩
  | bool b => cases b <;> cases hkind
  | _ => cases hkind

mutual
/-- **A canonical text determines every string of its value.** -/
theorem readInOneWay : ∀ v : HostValue, ReadInOneWay v
  | .null => by
    intro w path path' t t' r r' hv hw h _ _
    have hkind := kind_eq hv hw h
    cases w with
    | null =>
      obtain rfl := Except.ok.inj hv
      obtain rfl := Except.ok.inj hw
      exact ⟨.null, List.append_cancel_left h⟩
    | bool b => cases b <;> cases hkind
    | _ => cases hkind
  | .bool b => by
    intro w path path' t t' r r' hv hw h _ _
    have hkind := kind_eq hv hw h
    cases w with
    | bool b' =>
      obtain rfl : b = b' := by cases b <;> cases b' <;> first | rfl | cases hkind
      obtain rfl := Except.ok.inj hv
      obtain rfl := Except.ok.inj hw
      exact ⟨.bool b, List.append_cancel_left h⟩
    | _ => cases b <;> cases hkind
  | .number n => by
    intro w path path' t t' r r' hv hw h hr hr'
    have hkind := kind_eq hv hw h
    cases w with
    | number m =>
      exact ⟨.number n m, numeral_unique (numeral_of_canonicalNumber hv).2
        (numeral_of_canonicalNumber hw).2 hr hr' h⟩
    | bool b => cases b <;> cases hkind
    | _ => cases hkind
  | .string s => by
    intro w path path' t t' r r' hv hw h _ _
    have hkind := kind_eq hv hw h
    cases w with
    | string s' =>
      simp only [canonicalize, bind_eq_ok, exists_unit, pure_eq_ok] at hv hw
      obtain ⟨-, rfl⟩ := hv
      obtain ⟨-, rfl⟩ := hw
      obtain ⟨rfl, hr⟩ := stringify_unique h
      exact ⟨.string s, hr⟩
    | bool b => cases b <;> cases hkind
    | _ => cases hkind
  | .array items => readInOneWay_array (readInOneWay_items items)
  | .object members => readInOneWay_object (readInOneWay_members members)

theorem readInOneWay_items : ∀ items : List HostValue, ∀ v ∈ items, ReadInOneWay v
  | [], _, hv => absurd hv List.not_mem_nil
  | v :: vs, w, hw => by
    obtain hw | hw := List.mem_cons.mp hw
    · rw [hw]
      exact readInOneWay v
    · exact readInOneWay_items vs w hw

theorem readInOneWay_members : ∀ members : List (CodeUnits × HostValue), ∀ m ∈ members,
    ReadInOneWay m.2
  | [], _, hm => absurd hm List.not_mem_nil
  | (name, v) :: ms, m, hm => by
    obtain hm | hm := List.mem_cons.mp hm
    · rw [hm]
      exact readInOneWay v
    · exact readInOneWay_members ms m hm
end

/-! ## The law of the domain -/

/-- **The law of the domain, for one value**: it has a canonical text exactly
when its strings spell characters and its numbers are admitted, nothing of the
text is lost to the encoder, and no value with other strings has the same
text. -/
structure CanonicalLaw (v : HostValue) : Prop where
  succeeds_iff : (∃ t, canonicalJson v = .ok t)
    ↔ (∀ s ∈ v.strings, Scalar s) ∧ ∀ n ∈ v.numbers, n.Admitted
  encodes : ∀ t, canonicalJson v = .ok t → toWellFormed t = t
  separates : ∀ w t, canonicalJson v = .ok t → canonicalJson w = .ok t → Agree v w

/-- **When the law holds of a value**: unless it is refused for another reason,
none of its strings ends in a high surrogate. -/
theorem canonicalLaw_iff (v : HostValue) : CanonicalLaw v
    ↔ ((∀ s ∈ v.strings, Scalar (withoutLastHigh s)) → (∀ n ∈ v.numbers, n.Admitted) →
      ∀ s ∈ v.strings, ¬ EndsHigh s) := by
  have hsucceeds : (∃ t, canonicalJson v = .ok t)
      ↔ (∀ s ∈ v.strings, Scalar (withoutLastHigh s)) ∧ ∀ n ∈ v.numbers, n.Admitted :=
    exists_canonicalize_iff
  constructor
  · intro hlaw hscan hnumbers s hs
    have hscalar := (hlaw.succeeds_iff.mp (hsucceeds.mpr ⟨hscan, hnumbers⟩)).1
    exact (hscalar s hs).not_endsHigh
  · intro hends
    refine ⟨⟨fun hok => ?_, fun hscalar => ?_⟩, fun t ht => ?_, fun w t hv hw => ?_⟩
    · obtain ⟨hscan, hnumbers⟩ := hsucceeds.mp hok
      refine ⟨fun s hs => ?_, hnumbers⟩
      have hs' := hscan s hs
      rwa [withoutLastHigh_of_not_endsHigh (hends hscan hnumbers s hs)] at hs'
    · refine hsucceeds.mpr ⟨fun s hs => ?_, hscalar.2⟩
      rw [withoutLastHigh_of_not_endsHigh (hscalar.1 s hs).not_endsHigh]
      exact hscalar.1 s hs
    · exact toWellFormed_of_scalar (scalar_canonicalize ht)
    · have hnil : Delimited [] := fun u hu => by cases hu
      exact (readInOneWay v w _ _ t t [] [] hv hw rfl hnil hnil).1

/-- **A lone high surrogate has a canonical text.** -/
theorem not_canonicalLaw_high : ¬ CanonicalLaw (.string [0xd800]) := by
  intro hlaw
  have hscalar := (hlaw.succeeds_iff.mp ⟨stringify [0xd800], rfl⟩).1 [0xd800] List.mem_cons_self
  exact absurd hscalar (by decide +kernel)

end CanonicalDomain
