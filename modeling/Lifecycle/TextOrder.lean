import Lifecycle.ControlModel

/-!
# The orders of texts

The two orders texts are sorted by – the one by UTF-16 code units of
`Array.prototype.sort` and the one by code points of `compareCodePoints` –
are linear orders, so a sorted list of texts is determined by what it
holds.
-/

namespace Json

/-! ## Code sequences -/

theorem lexLe_refl : ∀ as : List Nat, lexLe as as = true
  | [] => rfl
  | a :: as => by
    rw [lexLe, lexLe_refl as]
    simp

theorem lexLe_total : ∀ as bs : List Nat, lexLe as bs = true ∨ lexLe bs as = true
  | [], _ => .inl rfl
  | _ :: _, [] => .inr rfl
  | a :: as, b :: bs => by
    simp only [lexLe, Bool.or_eq_true, Bool.and_eq_true, Nat.blt_eq, Nat.beq_eq]
    obtain hlt | rfl | hgt := Nat.lt_trichotomy a b
    · exact .inl (.inl hlt)
    · exact (lexLe_total as bs).imp (fun h => .inr ⟨rfl, h⟩) fun h => .inr ⟨rfl, h⟩
    · exact .inr (.inl hgt)

theorem lexLe_trans : ∀ {as bs cs : List Nat}, lexLe as bs = true → lexLe bs cs = true →
    lexLe as cs = true
  | [], _, _, _, _ => rfl
  | _ :: _, [], _, h, _ => by cases h
  | _ :: _, _ :: _, [], _, h => by cases h
  | a :: as, b :: bs, c :: cs, hab, hbc => by
    simp only [lexLe, Bool.or_eq_true, Bool.and_eq_true, Nat.blt_eq, Nat.beq_eq] at hab hbc ⊢
    obtain hlt | ⟨rfl, hab⟩ := hab
    · obtain hlt' | ⟨rfl, -⟩ := hbc
      · exact .inl (hlt.trans hlt')
      · exact .inl hlt
    · obtain hlt' | ⟨rfl, hbc⟩ := hbc
      · exact .inl hlt'
      · exact .inr ⟨rfl, lexLe_trans hab hbc⟩

theorem lexLe_antisymm : ∀ {as bs : List Nat}, lexLe as bs = true → lexLe bs as = true → as = bs
  | [], [], _, _ => rfl
  | [], _ :: _, _, h => by cases h
  | _ :: _, [], h, _ => by cases h
  | a :: as, b :: bs, hab, hba => by
    simp only [lexLe, Bool.or_eq_true, Bool.and_eq_true, Nat.blt_eq, Nat.beq_eq] at hab hba
    obtain hlt | ⟨rfl, hab⟩ := hab
    · obtain hlt' | ⟨rfl, -⟩ := hba
      · exact absurd hlt (Nat.lt_asymm hlt')
      · exact absurd hlt (Nat.lt_irrefl _)
    · obtain hlt' | ⟨-, hba⟩ := hba
      · exact absurd hlt' (Nat.lt_irrefl _)
      · rw [lexLe_antisymm hab hba]

/-! ## UTF-16 code units -/

/-- A character is no surrogate and below the end of Unicode. -/
theorem toNat_valid (c : Char) : c.toNat < 55296 ∨ 57343 < c.toNat ∧ c.toNat < 1114112 :=
  c.valid

/-- **The code units of a text determine it**: a unit is either a character
or the first of a surrogate pair, and never both. -/
theorem flatMap_utf16Units_inj : ∀ {as bs : List Char},
    as.flatMap utf16Units = bs.flatMap utf16Units → as = bs
  | [], [], _ => rfl
  | [], b :: bs, h => by
    rw [List.flatMap_nil, List.flatMap_cons, utf16Units] at h
    split at h <;> cases h
  | a :: as, [], h => by
    rw [List.flatMap_nil, List.flatMap_cons, utf16Units] at h
    split at h <;> cases h
  | a :: as, b :: bs, h => by
    have ha := toNat_valid a
    have hb := toNat_valid b
    rw [List.flatMap_cons, List.flatMap_cons, utf16Units, utf16Units] at h
    split at h
    · split at h
      · obtain ⟨hhead, htail⟩ := List.cons.inj h
        rw [Char.toNat_inj.mp hhead, flatMap_utf16Units_inj htail]
      · obtain ⟨hhead, -⟩ := List.cons.inj h
        omega
    · split at h
      · obtain ⟨hhead, -⟩ := List.cons.inj h
        omega
      · obtain ⟨hhigh, hrest⟩ := List.cons.inj h
        obtain ⟨hlow, htail⟩ := List.cons.inj hrest
        have hsame : a.toNat = b.toNat := by omega
        rw [Char.toNat_inj.mp hsame, flatMap_utf16Units_inj htail]

instance : Std.Total fun a b : String => codeUnitLe a b = true :=
  ⟨fun _ _ => lexLe_total _ _⟩

instance : IsTrans String fun a b => codeUnitLe a b = true :=
  ⟨fun _ _ _ => lexLe_trans⟩

instance : Std.Antisymm fun a b : String => codeUnitLe a b = true :=
  ⟨fun _ _ hab hba => String.toList_inj.mp (flatMap_utf16Units_inj (lexLe_antisymm hab hba))⟩

/-- **A sorted list of texts is determined by its members.** -/
theorem sortKeys_eq_of_perm {names names' : List String} (h : names.Perm names') :
    sortKeys names = sortKeys names' := by
  refine List.Perm.eq_of_pairwise' (List.pairwise_insertionSort _ _)
    (List.pairwise_insertionSort _ _) ?_
  exact (List.perm_insertionSort _ _).trans (h.trans (List.perm_insertionSort _ _).symm)

end Json
