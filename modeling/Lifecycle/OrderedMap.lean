import Mathlib.Data.List.Nodup
import Mathlib.Data.List.Basic

/-!
# Insertion-ordered maps

A map that remembers the order its keys were first written in: writing a
key that is present keeps its place, writing a new one appends. The keys
are pairwise distinct by construction, so that a map is determined by its
entries and every entry is the one its key reads.
-/

/-- **An insertion-ordered map**: its entries in the order their keys were
first written, no key twice. -/
structure OrderedMap (κ ν : Type) where
  /-- The entries, oldest key first. -/
  entries : List (κ × ν)
  /-- No key is entered twice. -/
  nodupKeys : (entries.map Prod.fst).Nodup

namespace OrderedMap

variable {κ ν : Type} [DecidableEq κ]

/-! ## Entry lists -/

/-- The entry list with the value of `k` replaced where `k` is entered. -/
def replaceEntry (k : κ) (v : ν) : List (κ × ν) → List (κ × ν)
  | [] => []
  | e :: es => if e.1 = k then (k, v) :: es else e :: replaceEntry k v es

/-- The value the first entry of `k` holds. -/
def lookupEntry (k : κ) : List (κ × ν) → Option ν
  | [] => none
  | e :: es => if e.1 = k then some e.2 else lookupEntry k es

theorem map_fst_replaceEntry (k : κ) (v : ν) (es : List (κ × ν)) :
    (replaceEntry k v es).map Prod.fst = es.map Prod.fst := by
  induction es with
  | nil => rfl
  | cons e es ih =>
    unfold replaceEntry
    split
    · next h => simp [h]
    · simp [ih]

theorem lookupEntry_eq_none_iff {k : κ} {es : List (κ × ν)} :
    lookupEntry k es = none ↔ k ∉ es.map Prod.fst := by
  induction es with
  | nil => simp [lookupEntry]
  | cons e es ih =>
    unfold lookupEntry
    split
    · next h => simp [h]
    · next h =>
      rw [ih]
      simp [Ne.symm h]

theorem lookupEntry_eq_some_iff {k : κ} {v : ν} {es : List (κ × ν)}
    (hes : (es.map Prod.fst).Nodup) :
    lookupEntry k es = some v ↔ (k, v) ∈ es := by
  induction es with
  | nil => simp [lookupEntry]
  | cons e es ih =>
    rw [List.map_cons, List.nodup_cons] at hes
    unfold lookupEntry
    split
    · next h =>
      subst h
      constructor
      · intro hv
        rw [Option.some.injEq] at hv
        exact hv ▸ List.mem_cons_self
      · intro hv
        rcases List.mem_cons.mp hv with hv | hv
        · rw [← hv]
        · exact absurd (List.mem_map_of_mem (f := Prod.fst) hv) hes.1
    · next h =>
      rw [ih hes.2, List.mem_cons]
      constructor
      · exact Or.inr
      · rintro (hv | hv)
        · exact absurd (congrArg Prod.fst hv).symm h
        · exact hv

theorem mem_replaceEntry {k : κ} {v : ν} {es : List (κ × ν)} {e : κ × ν}
    (hes : (es.map Prod.fst).Nodup) :
    e ∈ replaceEntry k v es
      ↔ (k ∈ es.map Prod.fst ∧ e = (k, v)) ∨ (e.1 ≠ k ∧ e ∈ es) := by
  induction es with
  | nil => simp [replaceEntry]
  | cons d es ih =>
    rw [List.map_cons, List.nodup_cons] at hes
    unfold replaceEntry
    split
    · next h =>
      subst h
      rw [List.mem_cons]
      constructor
      · rintro (he | he)
        · exact Or.inl ⟨by simp, he⟩
        · refine Or.inr ⟨fun hk => hes.1 ?_, List.mem_cons_of_mem _ he⟩
          exact hk ▸ List.mem_map_of_mem (f := Prod.fst) he
      · rintro (⟨-, he⟩ | ⟨hk, he⟩)
        · exact Or.inl he
        · rcases List.mem_cons.mp he with he | he
          · exact absurd (congrArg Prod.fst he) hk
          · exact Or.inr he
    · next h =>
      rw [List.mem_cons, ih hes.2, List.mem_cons, List.map_cons, List.mem_cons]
      constructor
      · rintro (he | ⟨hk, he⟩ | ⟨hk, he⟩)
        · exact Or.inr ⟨he ▸ h, Or.inl he⟩
        · exact Or.inl ⟨Or.inr hk, he⟩
        · exact Or.inr ⟨hk, Or.inr he⟩
      · rintro (⟨hk | hk, he⟩ | ⟨hk, he | he⟩)
        · exact absurd hk.symm h
        · exact Or.inr (Or.inl ⟨hk, he⟩)
        · exact Or.inl he
        · exact Or.inr (Or.inr ⟨hk, he⟩)

/-! ## Maps -/

/-- The map with no entry. -/
def empty : OrderedMap κ ν := ⟨[], List.nodup_nil⟩

instance : EmptyCollection (OrderedMap κ ν) := ⟨empty⟩

/-- The keys, oldest first. -/
def keys (m : OrderedMap κ ν) : List κ := m.entries.map Prod.fst

/-- The values, in the order of their keys. -/
def values (m : OrderedMap κ ν) : List ν := m.entries.map Prod.snd

/-- The value entered under `k`. -/
def get (m : OrderedMap κ ν) (k : κ) : Option ν := lookupEntry k m.entries

/-- Whether `k` is entered. -/
def has (m : OrderedMap κ ν) (k : κ) : Bool := (m.get k).isSome

/-- **Writing a key**: in its own place when it is entered, after every
entry otherwise. -/
def set (m : OrderedMap κ ν) (k : κ) (v : ν) : OrderedMap κ ν :=
  if h : k ∈ m.entries.map Prod.fst then
    ⟨replaceEntry k v m.entries, by rw [map_fst_replaceEntry]; exact m.nodupKeys⟩
  else
    ⟨m.entries ++ [(k, v)], by
      rw [List.map_append, List.nodup_append]
      refine ⟨m.nodupKeys, by simp, ?_⟩
      intro a ha b hb hab
      rw [List.map_cons, List.map_nil, List.mem_singleton] at hb
      rw [hab, hb] at ha
      exact h ha⟩

/-- Removing a key. -/
def erase (m : OrderedMap κ ν) (k : κ) : OrderedMap κ ν :=
  ⟨m.entries.filter (fun e => e.1 ≠ k),
    m.nodupKeys.sublist (List.Sublist.map _ List.filter_sublist)⟩

/-- The entries whose value satisfies `p`. -/
def filterValues (m : OrderedMap κ ν) (p : ν → Bool) : OrderedMap κ ν :=
  ⟨m.entries.filter (fun e => p e.2),
    m.nodupKeys.sublist (List.Sublist.map _ List.filter_sublist)⟩

omit [DecidableEq κ] in
@[ext] theorem ext {m m' : OrderedMap κ ν} (h : m.entries = m'.entries) : m = m' := by
  cases m
  cases m'
  cases h
  rfl

instance [DecidableEq ν] : DecidableEq (OrderedMap κ ν) := fun _ _ =>
  decidable_of_iff _ ⟨ext, congrArg entries⟩

/-! ## Reading -/

theorem get_eq_some_iff {m : OrderedMap κ ν} {k : κ} {v : ν} :
    m.get k = some v ↔ (k, v) ∈ m.entries :=
  lookupEntry_eq_some_iff m.nodupKeys

theorem get_eq_none_iff {m : OrderedMap κ ν} {k : κ} :
    m.get k = none ↔ k ∉ m.entries.map Prod.fst :=
  lookupEntry_eq_none_iff

@[simp] theorem get_empty (k : κ) : (∅ : OrderedMap κ ν).get k = none := rfl

omit [DecidableEq κ] in
@[simp] theorem values_empty : (∅ : OrderedMap κ ν).values = [] := rfl

theorem has_eq_true_iff {m : OrderedMap κ ν} {k : κ} :
    m.has k = true ↔ ∃ v, m.get k = some v := by
  rw [has, Option.isSome_iff_exists]

theorem has_eq_false_iff {m : OrderedMap κ ν} {k : κ} :
    m.has k = false ↔ m.get k = none := by
  rw [has, Option.isSome_eq_false_iff, Option.isNone_iff_eq_none]

theorem mem_values_iff {m : OrderedMap κ ν} {v : ν} :
    v ∈ m.values ↔ ∃ k, m.get k = some v := by
  simp only [values, List.mem_map, get_eq_some_iff, Prod.exists, exists_eq_right]

theorem mem_values_of_get {m : OrderedMap κ ν} {k : κ} {v : ν}
    (h : m.get k = some v) : v ∈ m.values :=
  mem_values_iff.mpr ⟨k, h⟩

/-! ## Writing -/

theorem mem_entries_set {m : OrderedMap κ ν} {k : κ} {v : ν} {e : κ × ν} :
    e ∈ (m.set k v).entries ↔ e = (k, v) ∨ (e.1 ≠ k ∧ e ∈ m.entries) := by
  unfold set
  split
  · next h =>
    rw [mem_replaceEntry m.nodupKeys]
    simp only [h, true_and]
  · next h =>
    rw [List.mem_append, List.mem_singleton]
    constructor
    · rintro (he | he)
      · refine Or.inr ⟨fun hk => h ?_, he⟩
        exact hk ▸ List.mem_map_of_mem (f := Prod.fst) he
      · exact Or.inl he
    · rintro (he | ⟨-, he⟩)
      · exact Or.inr he
      · exact Or.inl he

/-- **What a write reads**: the written value under the written key, what
was there under every other. -/
theorem get_set {m : OrderedMap κ ν} {k j : κ} {v : ν} :
    (m.set k v).get j = if j = k then some v else m.get j := by
  split
  · next h =>
    subst h
    rw [get_eq_some_iff, mem_entries_set]
    exact Or.inl rfl
  · next h =>
    refine Option.ext fun w => ?_
    rw [get_eq_some_iff, get_eq_some_iff, mem_entries_set]
    constructor
    · rintro (he | ⟨-, he⟩)
      · exact absurd (congrArg Prod.fst he) h
      · exact he
    · exact fun he => Or.inr ⟨h, he⟩

@[simp] theorem get_set_self {m : OrderedMap κ ν} {k : κ} {v : ν} :
    (m.set k v).get k = some v := by
  rw [get_set, if_pos rfl]

theorem get_set_of_ne {m : OrderedMap κ ν} {k j : κ} {v : ν} (h : j ≠ k) :
    (m.set k v).get j = m.get j := by
  rw [get_set, if_neg h]

theorem get_erase {m : OrderedMap κ ν} {k j : κ} :
    (m.erase k).get j = if j = k then none else m.get j := by
  refine Option.ext fun w => ?_
  rw [get_eq_some_iff]
  simp only [erase, List.mem_filter, decide_eq_true_eq]
  split
  · next h => simp [h]
  · next h => simp [h, get_eq_some_iff]

theorem get_filterValues {m : OrderedMap κ ν} {p : ν → Bool} {k : κ} :
    (m.filterValues p).get k = (m.get k).filter p := by
  refine Option.ext fun w => ?_
  rw [Option.filter_eq_some_iff, get_eq_some_iff, get_eq_some_iff]
  exact List.mem_filter

omit [DecidableEq κ] in
theorem filterValues_eq_self {m : OrderedMap κ ν} {p : ν → Bool}
    (h : ∀ v ∈ m.values, p v = true) : m.filterValues p = m := by
  refine ext (List.filter_eq_self.mpr fun e he => h e.2 ?_)
  exact List.mem_map_of_mem he

/-- A new key is written after every entry. -/
theorem entries_set_of_get_eq_none {m : OrderedMap κ ν} {k : κ} {v : ν}
    (h : m.get k = none) : (m.set k v).entries = m.entries ++ [(k, v)] := by
  unfold set
  rw [dif_neg (get_eq_none_iff.mp h)]

theorem values_set_of_get_eq_none {m : OrderedMap κ ν} {k : κ} {v : ν}
    (h : m.get k = none) : (m.set k v).values = m.values ++ [v] := by
  rw [values, entries_set_of_get_eq_none h, List.map_append]
  rfl

/-- **What a rewrite of a key leaves of a view of the values**: all of it,
when the new value looks like the old one. -/
theorem map_values_set_of_get {ω : Type} {m : OrderedMap κ ν} {k : κ} {v w : ν} {f : ν → ω}
    (h : m.get k = some w) (hf : f v = f w) : (m.set k v).values.map f = m.values.map f := by
  have hentries : ∀ es : List (κ × ν), lookupEntry k es = some w →
      ((replaceEntry k v es).map Prod.snd).map f = (es.map Prod.snd).map f := by
    intro es
    induction es with
    | nil => intro hnone; simp [lookupEntry] at hnone
    | cons e es ih =>
      unfold lookupEntry replaceEntry
      split
      · intro hw
        simp [hf, Option.some.inj hw]
      · intro hw
        rw [List.map_cons, List.map_cons, ih hw, List.map_cons, List.map_cons]
  have hmem : k ∈ m.entries.map Prod.fst := by
    by_contra hnot
    rw [get_eq_none_iff.mpr hnot] at h
    simp at h
  unfold set
  rw [dif_pos hmem]
  exact hentries m.entries h

/-- A value read after a write is the written one or was readable before,
under another key. -/
theorem mem_values_set {m : OrderedMap κ ν} {k : κ} {v w : ν} :
    w ∈ (m.set k v).values ↔ w = v ∨ ∃ j, j ≠ k ∧ m.get j = some w := by
  simp only [mem_values_iff, get_set]
  constructor
  · rintro ⟨j, hj⟩
    by_cases h : j = k
    · rw [if_pos h, Option.some.injEq] at hj
      exact Or.inl hj.symm
    · rw [if_neg h] at hj
      exact Or.inr ⟨j, h, hj⟩
  · rintro (rfl | ⟨j, h, hj⟩)
    · exact ⟨k, if_pos rfl⟩
    · exact ⟨j, by rw [if_neg h, hj]⟩

/-! ## Maps made from lists -/

/-- **Writing entries under keys of their own**, none of them written before,
keeps them in their order. -/
theorem entries_foldl_set {α : Type} {key : α → κ} {value : α → ν} {xs : List α}
    (h : (xs.map key).Nodup) {m : OrderedMap κ ν} (hnew : ∀ x ∈ xs, m.get (key x) = none) :
    (xs.foldl (fun m x => m.set (key x) (value x)) m).entries
      = m.entries ++ xs.map fun x => (key x, value x) := by
  induction xs generalizing m with
  | nil => exact (List.append_nil _).symm
  | cons x xs ih =>
    rw [List.map_cons, List.nodup_cons] at h
    have hrest : ∀ y ∈ xs, (m.set (key x) (value x)).get (key y) = none := by
      intro y hy
      have hne : key y ≠ key x := fun heq => h.1 (heq ▸ List.mem_map_of_mem hy)
      rw [get_set_of_ne hne]
      exact hnew y (List.mem_cons_of_mem x hy)
    rw [List.foldl_cons, ih h.2 hrest, entries_set_of_get_eq_none (hnew x List.mem_cons_self),
      List.append_assoc, List.map_cons]
    rfl

/-- A map made from a list whose keys are different. -/
theorem entries_foldl_set_empty {α : Type} {key : α → κ} {value : α → ν} {xs : List α}
    (h : (xs.map key).Nodup) :
    (xs.foldl (fun m x => m.set (key x) (value x)) (∅ : OrderedMap κ ν)).entries
      = xs.map fun x => (key x, value x) :=
  entries_foldl_set h fun x _ => get_empty (key x)

end OrderedMap
