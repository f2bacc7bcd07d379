import Mathlib.Data.List.Infix

/-!
# Joined segments

Lists of segments joined by a separator that is in none of them: the joined
list determines its segments, and starts another one, with the separator after
it, exactly when its segments are the first ones of the other. Where every
segment has the separator after it, the last one included, the list it makes is
split back into the segments and an empty rest.
-/

namespace Segments

variable {α : Type} [DecidableEq α] {sep : α} {xs ys : List (List α)}

/-- No segment has the separator in it. -/
def Free (sep : α) (xs : List (List α)) : Prop := ∀ x ∈ xs, sep ∉ x

omit [DecidableEq α] in
theorem intercalate_append (hx : xs ≠ []) (hy : ys ≠ []) :
    [sep].intercalate (xs ++ ys) = [sep].intercalate xs ++ sep :: [sep].intercalate ys := by
  induction xs with
  | nil => exact absurd rfl hx
  | cons x xs ih =>
    rw [List.cons_append]
    cases xs with
    | nil =>
      rw [List.nil_append, List.intercalate_singleton, List.intercalate_cons_of_ne_nil hy]
      rw [List.append_assoc, List.singleton_append]
    | cons x' xs =>
      rw [List.cons_append, List.intercalate_cons_cons, List.intercalate_cons_cons]
      rw [← List.cons_append, ih (List.cons_ne_nil _ _)]
      simp only [List.append_assoc]

theorem intercalate_inj (hx : xs ≠ []) (hy : ys ≠ []) (hxs : Free sep xs) (hys : Free sep ys) :
    [sep].intercalate xs = [sep].intercalate ys ↔ xs = ys := by
  constructor
  · intro h
    rw [← List.splitOn_intercalate sep hxs hx, h, List.splitOn_intercalate sep hys hy]
  · rintro rfl
    rfl

theorem free_splitOn (s : List α) : Free sep (s.splitOn sep) := by
  induction s with
  | nil =>
    intro x hx
    rw [List.splitOn_nil] at hx
    rw [List.mem_singleton.mp hx]
    exact List.not_mem_nil
  | cons a s ih =>
    rw [List.splitOn_cons_eq_if_modifyHead]
    split
    · intro x hx
      rcases List.mem_cons.mp hx with rfl | hx
      · exact List.not_mem_nil
      · exact ih x hx
    · next hne =>
      intro x hx
      cases hsplit : s.splitOn sep with
      | nil => exact absurd hsplit (List.splitOn_ne_nil sep s)
      | cons y rest =>
        rw [hsplit] at hx ih
        rcases List.mem_cons.mp hx with rfl | hx
        · intro hmem
          rcases List.mem_cons.mp hmem with rfl | hmem
          · exact hne (beq_self_eq_true _)
          · exact ih y List.mem_cons_self hmem
        · exact ih x (List.mem_cons_of_mem _ hx)

/-- **A joined list starts another with a separator after it exactly when its
segments are the first ones.** -/
theorem intercalate_prefix_iff (hx : xs ≠ []) (hy : ys ≠ []) (hxs : Free sep xs)
    (hys : Free sep ys) :
    [sep].intercalate xs ++ [sep] <+: [sep].intercalate ys ↔ ∃ zs, zs ≠ [] ∧ ys = xs ++ zs := by
  constructor
  · rintro ⟨rest, hrest⟩
    have hsplit : [sep].intercalate (xs ++ rest.splitOn sep) = [sep].intercalate ys := by
      rw [intercalate_append hx (List.splitOn_ne_nil sep rest), List.intercalate_splitOn, ← hrest,
        List.append_assoc, List.singleton_append]
    have hfree : Free sep (xs ++ rest.splitOn sep) := by
      intro x hmem
      rcases List.mem_append.mp hmem with hmem | hmem
      · exact hxs x hmem
      · exact free_splitOn rest x hmem
    refine ⟨rest.splitOn sep, List.splitOn_ne_nil sep rest, ?_⟩
    exact ((intercalate_inj (by simp [hx]) hy hfree hys).mp hsplit).symm
  · rintro ⟨zs, hzs, rfl⟩
    rw [intercalate_append hx hzs]
    exact ⟨[sep].intercalate zs, by rw [List.append_assoc, List.singleton_append]⟩

/-- **Text prefixes of joined lists are prefixes of their segments.** -/
theorem within_iff (hx : xs ≠ []) (hy : ys ≠ []) (hxs : Free sep xs) (hys : Free sep ys) :
    ([sep].intercalate ys = [sep].intercalate xs
        ∨ [sep].intercalate xs ++ [sep] <+: [sep].intercalate ys) ↔ xs <+: ys := by
  rw [intercalate_inj hy hx hys hxs, intercalate_prefix_iff hx hy hxs hys]
  constructor
  · rintro (rfl | ⟨zs, -, rfl⟩)
    · exact List.prefix_refl _
    · exact List.prefix_append xs zs
  · rintro ⟨zs, rfl⟩
    cases zs with
    | nil => exact .inl (List.append_nil xs)
    | cons z zs => exact .inr ⟨z :: zs, List.cons_ne_nil z zs, rfl⟩

omit [DecidableEq α] in
/-- Segments that are not empty do not join to nothing. -/
theorem intercalate_eq_nil_iff (hxs : ∀ x ∈ xs, x ≠ []) :
    [sep].intercalate xs = [] ↔ xs = [] := by
  constructor
  · intro h
    cases xs with
    | nil => rfl
    | cons x xs =>
      refine absurd ?_ (hxs x List.mem_cons_self)
      cases xs with
      | nil => rwa [List.intercalate_singleton] at h
      | cons x' xs =>
        rw [List.intercalate_cons_cons, List.append_assoc] at h
        exact (List.append_eq_nil_iff.mp h).1
  · rintro rfl
    rfl

/-! ## Segments with the separator after each -/

/-- The segments, each with the separator after it. -/
def terminated (sep : α) (xs : List (List α)) : List α := xs.flatMap fun x => x ++ [sep]

omit [DecidableEq α] in
@[simp] theorem terminated_nil : terminated sep ([] : List (List α)) = [] := rfl

omit [DecidableEq α] in
theorem terminated_cons (x : List α) :
    terminated sep (x :: xs) = x ++ sep :: terminated sep xs := by
  rw [terminated, List.flatMap_cons, List.append_assoc, List.singleton_append]
  rfl

omit [DecidableEq α] in
theorem terminated_append : terminated sep (xs ++ ys) = terminated sep xs ++ terminated sep ys :=
  List.flatMap_append

omit [DecidableEq α] in
theorem intercalate_snoc_nil : [sep].intercalate (xs ++ [[]]) = terminated sep xs := by
  induction xs with
  | nil => rfl
  | cons x xs ih =>
    rw [List.cons_append, List.intercalate_cons_of_ne_nil (by simp), ih, terminated_cons]
    rw [List.append_assoc, List.singleton_append]

/-- **Split segments with the separator after each** are the segments and an
empty one. -/
theorem splitOn_terminated (h : Free sep xs) : (terminated sep xs).splitOn sep = xs ++ [[]] := by
  rw [← intercalate_snoc_nil]
  refine List.splitOn_intercalate sep (fun x hx => ?_) (by simp)
  rcases List.mem_append.mp hx with hx | hx
  · exact h x hx
  · rw [List.mem_singleton.mp hx]
    exact List.not_mem_nil

omit [DecidableEq α] in
theorem getLast?_terminated (h : xs ≠ []) : (terminated sep xs).getLast? = some sep := by
  obtain ⟨ys, y, rfl⟩ := List.eq_nil_or_concat' xs |>.resolve_left h
  rw [terminated_append, terminated_cons, terminated_nil, ← List.append_assoc,
    List.getLast?_append_cons, List.getLast?_singleton]

/-- **What ends in the separator is the segments it is split into**, without
the empty one behind the end. -/
theorem exists_terminated {s : List α} (h : s.getLast? = some sep) :
    ∃ xs, xs ≠ [] ∧ Free sep xs ∧ s = terminated sep xs ∧ s.splitOn sep = xs ++ [[]] := by
  obtain ⟨front, rfl⟩ : ∃ front, s = front ++ [sep] := by
    obtain ⟨front, last, rfl⟩ := List.eq_nil_or_concat' s |>.resolve_left (by rintro rfl; cases h)
    rw [List.getLast?_concat, Option.some.injEq] at h
    exact ⟨front, by rw [h]⟩
  have hfront : front ++ [sep] = terminated sep (front.splitOn sep) := by
    rw [← intercalate_snoc_nil, intercalate_append (List.splitOn_ne_nil sep front) (by simp),
      List.intercalate_splitOn, List.intercalate_singleton]
  have hfree : Free sep (front.splitOn sep) := free_splitOn front
  refine ⟨front.splitOn sep, List.splitOn_ne_nil sep front, hfree, hfront, ?_⟩
  rw [hfront, splitOn_terminated hfree]

omit [DecidableEq α] in
/-- Without the last separator the segments are joined. -/
theorem dropLast_terminated (h : xs ≠ []) :
    (terminated sep xs).dropLast = [sep].intercalate xs := by
  rw [← intercalate_snoc_nil, intercalate_append h (List.cons_ne_nil _ _),
    List.intercalate_singleton, List.dropLast_concat]

/-- **Where one such list starts another, its segments are the first ones.** -/
theorem terminated_prefix_iff (hxs : Free sep xs) (hys : Free sep ys) :
    terminated sep xs <+: terminated sep ys ↔ xs <+: ys := by
  constructor
  · intro h
    induction xs generalizing ys with
    | nil => exact List.nil_prefix
    | cons x xs ih =>
      have hx : sep ∉ x := hxs x List.mem_cons_self
      cases ys with
      | nil =>
        rw [terminated_cons, terminated_nil, List.prefix_nil] at h
        exact absurd h (by simp)
      | cons y ys =>
        have hy : sep ∉ y := hys y List.mem_cons_self
        obtain ⟨rest, hrest⟩ := h
        rw [terminated_cons, terminated_cons, List.append_assoc, List.cons_append] at hrest
        have hsplit := congrArg (List.splitOn sep) hrest
        rw [List.splitOn_append_cons_self_of_not_mem hx,
          List.splitOn_append_cons_self_of_not_mem hy, List.cons.injEq] at hsplit
        obtain ⟨rfl, -⟩ := hsplit
        rw [List.append_cancel_left_eq, List.cons.injEq] at hrest
        refine List.cons_prefix_cons.mpr ⟨rfl, ih ?_ ?_ ⟨rest, hrest.2⟩⟩
        · exact fun z hz => hxs z (List.mem_cons_of_mem x hz)
        · exact fun z hz => hys z (List.mem_cons_of_mem x hz)
  · rintro ⟨zs, rfl⟩
    rw [terminated_append]
    exact List.prefix_append _ _

end Segments
