import Mathlib.Data.List.Nodup
import Mathlib.Data.List.Perm.Basic

/-!
# Deltas between keyed entries

Two lists of entries, no key twice in either. A delta says of one key what
stood there before and what stands there after; the deltas of the keys at which
the two lists differ, applied to the first one after another, give the entries
of the second (`applyAll_perm`).
-/

/-- **A delta**: what one key held and what it holds. -/
structure KeyedDelta (κ α : Type) where
  key : κ
  prior : Option α
  next : Option α

namespace KeyedDelta

variable {κ α : Type} [DecidableEq κ] {key : α → κ}

/-- The entry of a key. -/
def entryAt (key : α → κ) (entries : List α) (k : κ) : Option α :=
  entries.find? fun e => key e = k

/-- Entries with one delta applied: the entry of its key is taken out, and what
the delta puts there comes in. -/
def apply (key : α → κ) (entries : List α) (d : KeyedDelta κ α) : List α :=
  entries.filter (fun e => key e ≠ d.key) ++ d.next.toList

/-- Deltas applied one after another. -/
def applyAll (key : α → κ) (entries : List α) (deltas : List (KeyedDelta κ α)) : List α :=
  deltas.foldl (apply key) entries

theorem entryAt_eq_some_iff {entries : List α} (h : (entries.map key).Nodup) {k : κ} {e : α} :
    entryAt key entries k = some e ↔ e ∈ entries ∧ key e = k := by
  constructor
  · intro hfound
    exact ⟨List.mem_of_find?_eq_some hfound, by simpa using List.find?_some hfound⟩
  · rintro ⟨he, rfl⟩
    cases hfound : entryAt key entries (key e) with
    | none => exact absurd (List.find?_eq_none.mp hfound e he) (by simp)
    | some e' =>
      have he' := List.mem_of_find?_eq_some hfound
      have hkey : key e' = key e := by simpa using List.find?_some hfound
      rw [List.inj_on_of_nodup_map h he' he hkey]

/-- What an application holds: what the delta puts in, and every entry of
another key. -/
theorem mem_apply {entries : List α} {d : KeyedDelta κ α} {e : α} :
    e ∈ apply key entries d ↔ d.next = some e ∨ (e ∈ entries ∧ key e ≠ d.key) := by
  rw [apply, List.mem_append, List.mem_filter, Option.mem_toList]
  simp only [ne_eq, decide_not, Bool.not_eq_true', decide_eq_false_iff_not]
  exact or_comm

/-- Deltas that put entries of their own keys only. -/
def Placed (key : α → κ) (deltas : List (KeyedDelta κ α)) : Prop :=
  ∀ d ∈ deltas, ∀ e ∈ d.next, key e = d.key

/-- **What deltas of different keys hold together.** -/
theorem mem_applyAll {deltas : List (KeyedDelta κ α)} (hkeys : (deltas.map (·.key)).Nodup)
    (hplaced : Placed key deltas) {entries : List α} {e : α} :
    e ∈ applyAll key entries deltas
      ↔ (∃ d ∈ deltas, d.next = some e) ∨ (e ∈ entries ∧ ∀ d ∈ deltas, key e ≠ d.key) := by
  induction deltas generalizing entries with
  | nil => simp [applyAll]
  | cons d deltas ih =>
    rw [List.map_cons, List.nodup_cons] at hkeys
    have hrest : Placed key deltas := fun d' hd' => hplaced d' (List.mem_cons_of_mem d hd')
    rw [applyAll, List.foldl_cons]
    show e ∈ applyAll key (apply key entries d) deltas ↔ _
    rw [ih hkeys.2 hrest, mem_apply, List.exists_mem_cons_iff, List.forall_mem_cons]
    constructor
    · rintro (hlater | ⟨hnext | ⟨he, hne⟩, hothers⟩)
      · exact .inl (.inr hlater)
      · exact .inl (.inl hnext)
      · exact .inr ⟨he, hne, hothers⟩
    · rintro ((hnext | hlater) | ⟨he, hne, hothers⟩)
      · refine .inr ⟨.inl hnext, fun d' hd' heq => hkeys.1 ?_⟩
        rw [← hplaced d List.mem_cons_self e hnext, heq]
        exact List.mem_map_of_mem hd'
      · exact .inl hlater
      · exact .inr ⟨.inr ⟨he, hne⟩, hothers⟩

/-- Applying a delta keeps the keys apart. -/
theorem nodup_apply {entries : List α} (h : (entries.map key).Nodup) {d : KeyedDelta κ α}
    (hplaced : ∀ e ∈ d.next, key e = d.key) : ((apply key entries d).map key).Nodup := by
  rw [apply, List.map_append, List.nodup_append]
  refine ⟨h.sublist (List.filter_sublist.map key), ?_, ?_⟩
  · cases d.next with
    | none => exact List.nodup_nil
    | some e => exact List.nodup_singleton _
  · intro k hk k' hk' heq
    obtain ⟨e, he, rfl⟩ := List.mem_map.mp hk
    obtain ⟨e', he', rfl⟩ := List.mem_map.mp hk'
    have hkey := hplaced e' (Option.mem_toList.mp he')
    rw [List.mem_filter] at he
    simp only [ne_eq, decide_not, Bool.not_eq_true', decide_eq_false_iff_not] at he
    exact he.2 (heq.trans hkey)

theorem nodup_applyAll {deltas : List (KeyedDelta κ α)} (hplaced : Placed key deltas)
    {entries : List α} (h : (entries.map key).Nodup) :
    ((applyAll key entries deltas).map key).Nodup := by
  induction deltas generalizing entries with
  | nil => exact h
  | cons d deltas ih =>
    exact ih (fun d' hd' => hplaced d' (List.mem_cons_of_mem d hd'))
      (nodup_apply h (hplaced d List.mem_cons_self))

/-- The deltas are those between two lists of entries: one for each key at
which they differ. -/
structure Between (key : α → κ) (base target : List α) (deltas : List (KeyedDelta κ α)) : Prop where
  keys : (deltas.map (·.key)).Nodup
  prior : ∀ d ∈ deltas, d.prior = entryAt key base d.key
  next : ∀ d ∈ deltas, d.next = entryAt key target d.key
  differ : ∀ k, k ∈ deltas.map (·.key) ↔ entryAt key base k ≠ entryAt key target k

/-- **The deltas between two lists of entries lead from one to the other.** -/
theorem applyAll_perm {base target : List α} {deltas : List (KeyedDelta κ α)}
    (hbase : (base.map key).Nodup) (htarget : (target.map key).Nodup)
    (h : Between key base target deltas) : (applyAll key base deltas).Perm target := by
  have hplaced : Placed key deltas := by
    intro d hd e he
    rw [h.next d hd, Option.mem_def, entryAt_eq_some_iff htarget] at he
    exact he.2
  have hnodup := (nodup_applyAll hplaced hbase).of_map
  refine (List.perm_ext_iff_of_nodup hnodup htarget.of_map).mpr fun e => ?_
  rw [mem_applyAll h.keys hplaced]
  constructor
  · rintro (⟨d, hd, hnext⟩ | ⟨he, hothers⟩)
    · rw [h.next d hd, entryAt_eq_some_iff htarget] at hnext
      exact hnext.1
    · -- At a key without a delta both lists hold the same.
      have hsame : entryAt key base (key e) = entryAt key target (key e) := by
        by_contra hne
        obtain ⟨d, hd, hkey⟩ := List.mem_map.mp ((h.differ (key e)).mpr hne)
        exact hothers d hd hkey.symm
      rw [(entryAt_eq_some_iff hbase).mpr ⟨he, rfl⟩] at hsame
      exact ((entryAt_eq_some_iff htarget).mp hsame.symm).1
  · intro he
    have htargetAt := (entryAt_eq_some_iff htarget).mpr ⟨he, rfl⟩
    by_cases hsame : entryAt key base (key e) = entryAt key target (key e)
    · refine .inr ⟨((entryAt_eq_some_iff hbase).mp (hsame.trans htargetAt)).1, ?_⟩
      intro d hd hkey
      have hmem : key e ∈ deltas.map (·.key) := hkey ▸ List.mem_map_of_mem hd
      exact (h.differ (key e)).mp hmem hsame
    · obtain ⟨d, hd, hkey⟩ := List.mem_map.mp ((h.differ (key e)).mpr hsame)
      exact .inl ⟨d, hd, by rw [h.next d hd, hkey, htargetAt]⟩

end KeyedDelta
