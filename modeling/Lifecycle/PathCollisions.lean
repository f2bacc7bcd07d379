import Lifecycle.Json
import Lifecycle.LastSeen

/-!
# Authoritative path collisions

Two spellings of a path that a file system may identify must not both occur
where one of them is authoritative. `assertExactAuthoritativePaths` goes over
the prefixes of a tree once and keeps, for each folded text, the last prefix
that folds to it. This finds every collision under case folding and every one
under Unicode normalization, in whatever order the tree is listed, but none
that takes both foldings (`collisionLaw_iff`).
-/

open Fallible Json LastSeen

namespace ProductState

/-! ## The comparison -/

/-- The foldings of the host's strings: `toLowerCase` and `normalize("NFC")`. -/
structure TextFoldings where
  toLowerCase : String → String
  normalizeNFC : String → String

/-- One segment more of a path. -/
def nextPrefix (start segment : String) : String :=
  if start.length = 0 then segment else start ++ "/" ++ segment

/-- **The prefixes of a path**, the path itself last. -/
def pathPrefixes (path : String) : List String :=
  (((path.toList.splitOn '/').map String.ofList).scanl nextPrefix "").tail

/-- The prefixes of all paths of a tree, in its order. -/
def prefixesOf (paths : List String) : List String := paths.flatMap pathPrefixes

/-- `casePrefixes` and `normalizedPrefixes`: the last prefix of each folded text. -/
structure SeenPrefixes where
  casePrefixes : OrderedMap String String
  normalizedPrefixes : OrderedMap String String

/-- The comparison of a prefix with the last one that folds to the same text. -/
def assertNoPrior (authoritative : List String) (folding : String) (prior : Option String)
    (start : String) : Except FoundationError Unit :=
  match prior with
  | none => pure ()
  | some prior =>
    failIf (prior ≠ start ∧ (prior ∈ authoritative ∨ start ∈ authoritative))
      (lifecycleError "lifecycle.path.case-mismatch"
        ("Authoritative paths collide under " ++ folding ++ ": " ++ prior ++ " and " ++ start))

/-- One prefix of the tree. -/
def seePrefix (F : TextFoldings) (authoritative : List String) (seen : SeenPrefixes)
    (start : String) : Except FoundationError SeenPrefixes := do
  let caseKey := F.toLowerCase start
  assertNoPrior authoritative "case folding" (seen.casePrefixes.get caseKey) start
  let normalizedKey := F.normalizeNFC start
  assertNoPrior authoritative "Unicode normalization" (seen.normalizedPrefixes.get normalizedKey)
    start
  pure { casePrefixes := seen.casePrefixes.set caseKey start
         normalizedPrefixes := seen.normalizedPrefixes.set normalizedKey start }

/-- **`assertExactAuthoritativePaths`**, over the paths of the entries and of the tree. -/
def assertExactAuthoritativePaths (F : TextFoldings) (entries tree : List String) :
    Except FoundationError Unit := do
  let authoritativePrefixes := prefixesOf entries
  let _ ← replay (seePrefix F authoritativePrefixes)
    { casePrefixes := OrderedMap.empty, normalizedPrefixes := OrderedMap.empty }
    (prefixesOf tree)
  pure ()

/-! ## What is compared -/

/-- **Two spellings collide** under a folding: two prefixes of the tree, one of
them a prefix of an authoritative entry, become equal. -/
def Collides (fold : String → String) (entries tree : List String) : Prop :=
  ∃ left ∈ prefixesOf tree, ∃ right ∈ prefixesOf tree, left ≠ right
    ∧ fold left = fold right ∧ (left ∈ prefixesOf entries ∨ right ∈ prefixesOf entries)

/-- Both foldings together. -/
def TextFoldings.both (F : TextFoldings) (text : String) : String :=
  F.toLowerCase (F.normalizeNFC text)

theorem not_collides_iff {fold : String → String} {entries tree : List String} :
    ¬ Collides fold entries tree
      ↔ Apart fold (· ∈ prefixesOf entries) (prefixesOf tree) := by
  constructor
  · intro h left hl right hr hne hfold hmem
    exact h ⟨left, hl, right, hr, hne, hfold, hmem⟩
  · rintro h ⟨left, hl, right, hr, hne, hfold, hmem⟩
    exact h left hl right hr hne hfold hmem

theorem assertNoPrior_eq_ok_iff {authoritative : List String} {folding : String}
    {prior : Option String} {start : String} {u : Unit} :
    assertNoPrior authoritative folding prior start = .ok u
      ↔ ∀ p, prior = some p → p ≠ start → ¬ (p ∈ authoritative ∨ start ∈ authoritative) := by
  cases prior with
  | none =>
    constructor
    · intro _ p hp
      cases hp
    · intro _
      rfl
  | some prior =>
    rw [assertNoPrior, failIf_eq_ok, not_and]
    constructor
    · rintro h p ⟨rfl⟩
      exact h
    · intro h
      exact h prior rfl

/-- **One pass compares every pair.** The state is the last prefix of each
folded text. -/
theorem replay_seePrefix_eq_ok_iff {F : TextFoldings} {authoritative : List String}
    {starts : List String} {seen : SeenPrefixes} :
    replay (seePrefix F authoritative)
        { casePrefixes := OrderedMap.empty, normalizedPrefixes := OrderedMap.empty } starts
          = .ok seen
      ↔ (Apart F.toLowerCase (· ∈ authoritative) starts
          ∧ Apart F.normalizeNFC (· ∈ authoritative) starts)
        ∧ { casePrefixes := lastBy F.toLowerCase starts
            normalizedPrefixes := lastBy F.normalizeNFC starts } = seen := by
  induction starts using List.reverseRecOn generalizing seen with
  | nil =>
    rw [replay_nil, Except.ok.injEq]
    refine (and_iff_right ⟨?_, ?_⟩).symm
    all_goals
      intro left hleft
      cases hleft
  | append_singleton starts start ih =>
    rw [replay_snoc_eq_ok, apart_snoc_iff, apart_snoc_iff, lastBy_snoc, lastBy_snoc]
    simp only [ih, seePrefix, bind_eq_ok, assertNoPrior_eq_ok_iff, exists_unit, pure_eq_ok]
    constructor
    · rintro ⟨_, ⟨⟨hcase, hnormal⟩, rfl⟩, hcaseLast, hnormalLast, rfl⟩
      exact ⟨⟨⟨hcase, hcaseLast⟩, hnormal, hnormalLast⟩, rfl⟩
    · rintro ⟨⟨⟨hcase, hcaseLast⟩, hnormal, hnormalLast⟩, rfl⟩
      exact ⟨_, ⟨⟨hcase, hnormal⟩, rfl⟩, hcaseLast, hnormalLast, rfl⟩

/-- **What the pass decides**: no collision under either folding alone. -/
theorem assertExactAuthoritativePaths_eq_ok_iff {F : TextFoldings}
    {entries tree : List String} :
    assertExactAuthoritativePaths F entries tree = .ok ()
      ↔ ¬ Collides F.toLowerCase entries tree ∧ ¬ Collides F.normalizeNFC entries tree := by
  simp only [assertExactAuthoritativePaths, bind_eq_ok, replay_seePrefix_eq_ok_iff, pure_eq_ok,
    not_collides_iff]
  constructor
  · rintro ⟨_, ⟨happart, _⟩, _⟩
    exact happart
  · intro happart
    exact ⟨_, ⟨happart, rfl⟩, trivial⟩

/-- A collision is one of the prefixes of the tree, not of their order. -/
theorem Collides.perm {fold : String → String} {entries tree tree' : List String}
    (hperm : tree.Perm tree') (h : Collides fold entries tree) :
    Collides fold entries tree' := by
  obtain ⟨left, hl, right, hr, hrest⟩ := h
  have hmem : ∀ start ∈ prefixesOf tree, start ∈ prefixesOf tree' := by
    intro start hstart
    obtain ⟨path, hpath, hstart⟩ := List.mem_flatMap.mp hstart
    exact List.mem_flatMap.mpr ⟨path, hperm.mem_iff.mp hpath, hstart⟩
  exact ⟨left, hmem left hl, right, hmem right hr, hrest⟩

/-- **The comparison is exact**: it returns exactly where no two spellings
collide under case folding, under normalization or under both. -/
def CollisionLaw (F : TextFoldings) (entries tree : List String) : Prop :=
  assertExactAuthoritativePaths F entries tree = .ok ()
    ↔ ¬ (Collides F.toLowerCase entries tree ∨ Collides F.normalizeNFC entries tree
      ∨ Collides F.both entries tree)

/-- **When the comparison is exact**: when spellings that collide under both
foldings together are not the only ones that collide. Its verdict never depends
on the order of the tree. -/
theorem collisionLaw_iff (F : TextFoldings) (entries tree : List String) :
    (CollisionLaw F entries tree
      ↔ (Collides F.both entries tree →
          Collides F.toLowerCase entries tree ∨ Collides F.normalizeNFC entries tree))
      ∧ ∀ tree' : List String, tree.Perm tree' →
        (assertExactAuthoritativePaths F entries tree' = .ok ()
          ↔ assertExactAuthoritativePaths F entries tree = .ok ()) := by
  constructor
  · rw [CollisionLaw, assertExactAuthoritativePaths_eq_ok_iff, not_or, not_or]
    constructor
    · intro hlaw hboth
      by_contra hnone
      obtain ⟨hcase, hnormal⟩ := not_or.mp hnone
      exact (hlaw.mp ⟨hcase, hnormal⟩).2.2 hboth
    · intro hboth
      refine ⟨?_, fun h => ⟨h.1, h.2.1⟩⟩
      rintro ⟨hcase, hnormal⟩
      exact ⟨hcase, hnormal, fun h => (hboth h).elim hcase hnormal⟩
  · intro tree' hperm
    rw [assertExactAuthoritativePaths_eq_ok_iff, assertExactAuthoritativePaths_eq_ok_iff]
    refine and_congr (not_congr ?_) (not_congr ?_)
    · exact ⟨Collides.perm hperm.symm, Collides.perm hperm⟩
    · exact ⟨Collides.perm hperm.symm, Collides.perm hperm⟩

/-! ## A spelling of one letter -/

/-- The foldings on the letter E with an acute accent, composed or not. -/
def acuteFoldings : TextFoldings where
  toLowerCase text :=
    if text = "\u00c9" then "\u00e9" else if text = "E\u0301" then "e\u0301" else text
  normalizeNFC text :=
    if text = "E\u0301" then "\u00c9" else if text = "e\u0301" then "\u00e9" else text

/-- **A composed capital and a decomposed small letter are told apart.** -/
theorem acute_not_collisionLaw :
    ¬ CollisionLaw acuteFoldings ["\u00c9"] ["\u00c9", "e\u0301"] := by
  have hprefixes : prefixesOf ["\u00c9", "e\u0301"] = ["\u00c9", "e\u0301"] := by decide +kernel
  have hentries : prefixesOf ["\u00c9"] = ["\u00c9"] := by decide +kernel
  intro hlaw
  have hok : assertExactAuthoritativePaths acuteFoldings ["\u00c9"] ["\u00c9", "e\u0301"]
      = .ok () := by
    rw [assertExactAuthoritativePaths_eq_ok_iff, not_collides_iff, not_collides_iff, hprefixes,
      hentries]
    constructor
    all_goals
      intro left hleft right hright hne hfold
      simp only [List.mem_cons, List.not_mem_nil, or_false] at hleft hright
      rcases hleft with rfl | rfl <;> rcases hright with rfl | rfl
      · exact absurd rfl hne
      · exact absurd hfold (by decide +kernel)
      · exact absurd hfold (by decide +kernel)
      · exact absurd rfl hne
  refine hlaw.mp hok (.inr (.inr ⟨"\u00c9", ?_, "e\u0301", ?_, by decide, by decide +kernel, ?_⟩))
  · rw [hprefixes]
    exact List.mem_cons_self
  · rw [hprefixes]
    exact List.mem_cons_of_mem _ List.mem_cons_self
  · rw [hentries]
    exact .inl List.mem_cons_self

end ProductState
