import Lifecycle.OrderedMap
import Mathlib.Data.List.Induction

/-!
# Scans that remember the last value of a key

A scan that keeps, for each key, only the last value it has seen finds any two
values with one key that must not share it, whatever the order of the values:
a value that was overwritten was harmless to the one that replaced it, and what
is harmful to the one is harmful to the other.
-/

namespace LastSeen

variable {α κ : Type} [DecidableEq α] [DecidableEq κ] (key : α → κ) (P : α → Prop)

/-- **The last value of each key.** -/
def lastBy (xs : List α) : OrderedMap κ α :=
  xs.foldl (fun m x => m.set (key x) x) OrderedMap.empty

/-- **No two values share a key** where one of them is protected. -/
def Apart (xs : List α) : Prop :=
  ∀ x ∈ xs, ∀ y ∈ xs, x ≠ y → key x = key y → ¬ (P x ∨ P y)

variable {key P}

omit [DecidableEq α] in
theorem lastBy_snoc {xs : List α} {x : α} :
    lastBy key (xs ++ [x]) = (lastBy key xs).set (key x) x := by
  rw [lastBy, List.foldl_append]
  rfl

omit [DecidableEq α] in
/-- What is remembered has been seen. -/
theorem of_get_lastBy {xs : List α} {k : κ} {x : α} (h : (lastBy key xs).get k = some x) :
    x ∈ xs ∧ key x = k := by
  induction xs using List.reverseRecOn with
  | nil =>
    rw [lastBy, List.foldl_nil] at h
    cases h
  | append_singleton xs y ih =>
    rw [lastBy_snoc, OrderedMap.get_set] at h
    split at h
    · next hkey =>
      obtain rfl := Option.some.inj h
      exact ⟨List.mem_append_right _ (List.mem_singleton_self y), hkey.symm⟩
    · obtain ⟨hmem, hkey⟩ := ih h
      exact ⟨List.mem_append_left _ hmem, hkey⟩

omit [DecidableEq α] in
/-- What has been seen has left something behind. -/
theorem exists_get_lastBy {xs : List α} {x : α} (hx : x ∈ xs) :
    ∃ y, (lastBy key xs).get (key x) = some y := by
  induction xs using List.reverseRecOn with
  | nil => cases hx
  | append_singleton xs y ih =>
    rw [lastBy_snoc, OrderedMap.get_set]
    split
    · exact ⟨y, rfl⟩
    · next hne =>
      rcases List.mem_append.mp hx with hx | hx
      · exact ih hx
      · exact absurd (congrArg key (List.mem_singleton.mp hx)) hne

/-- **One more value is compared with the last value of its key only.** -/
theorem apart_snoc_iff {xs : List α} {x : α} :
    Apart key P (xs ++ [x]) ↔ Apart key P xs
      ∧ ∀ prior, (lastBy key xs).get (key x) = some prior → prior ≠ x → ¬ (P prior ∨ P x) := by
  constructor
  · intro h
    refine ⟨fun a ha b hb => h a (List.mem_append_left _ ha) b (List.mem_append_left _ hb), ?_⟩
    intro prior hprior hne
    obtain ⟨hmem, hkey⟩ := of_get_lastBy hprior
    exact h prior (List.mem_append_left _ hmem) x
      (List.mem_append_right _ (List.mem_singleton_self x)) hne hkey
  · rintro ⟨hxs, hlast⟩
    -- an older value with the key of the new one is apart from the last one, or is the last one
    have hold : ∀ y ∈ xs, y ≠ x → key y = key x → ¬ (P y ∨ P x) := by
      intro y hy hne hkey
      obtain ⟨prior, hprior⟩ : ∃ prior, (lastBy key xs).get (key y) = some prior :=
        exists_get_lastBy hy
      rw [hkey] at hprior
      obtain ⟨hmem, hpriorKey⟩ := of_get_lastBy hprior
      by_cases hx : prior = x
      · exact hxs y hy x (hx ▸ hmem) hne hkey
      · have hfree := hlast prior hprior hx
        by_cases hy' : y = prior
        · exact hy' ▸ hfree
        · rintro (hP | hP)
          · exact hxs y hy prior hmem hy' (hkey.trans hpriorKey.symm) (.inl hP)
          · exact hfree (.inr hP)
    intro a ha b hb hne hkey
    rcases List.mem_append.mp ha with ha | ha
    · rcases List.mem_append.mp hb with hb | hb
      · exact hxs a ha b hb hne hkey
      · obtain rfl : x = b := (List.mem_singleton.mp hb).symm
        exact hold a ha hne hkey
    · obtain rfl : x = a := (List.mem_singleton.mp ha).symm
      rcases List.mem_append.mp hb with hb | hb
      · exact fun hP => hold b hb hne.symm hkey.symm hP.symm
      · exact absurd (List.mem_singleton.mp hb).symm hne

end LastSeen
