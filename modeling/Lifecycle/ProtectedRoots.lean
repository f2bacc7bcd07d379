import Lifecycle.RetainedBoundaries
import Lifecycle.BoundaryAdmission
import Lifecycle.Segments

/-!
# Protected roots

The Atlas and adopted Discipline content are maintained apart from every
Delivery. What a boundary selects is compared with their roots as text, after
the target of a local effect is normalized; but a normalized target keeps a
trailing slash, and a scope that ends in one is no text prefix of what lies in
it. So a boundary that passes leaves the roots alone exactly when none of its
local effects names an ancestor of a root with a slash at its end
(`leftAlone_iff`).
-/

open Fallible Json ControlModel IntegrationAssessment

namespace WorkProduct

open Segments

/-! ## Scopes -/

/-- The segments of a path, as they are written. -/
def segmentsOf (path : String) : List (List Char) := path.toList.splitOn '/'

/-- **The scope a path denotes**: its segments after empty, dot and dot-dot
segments are resolved. -/
def scopeOf (path : String) : List (List Char) :=
  (segmentsOf path).foldl (normalizeSegment true) []

/-- **A scope touches a root**: it equals the root, lies in it or contains it.
A scope above the repository may contain anything. -/
def Touches (scope root : List (List Char)) : Prop :=
  scope.head? = some ['.', '.'] ∨ scope <+: root ∨ root <+: scope

theorem segmentsOf_ne_nil (path : String) : segmentsOf path ≠ [] := List.splitOn_ne_nil _ _

theorem free_segmentsOf (path : String) : Free '/' (segmentsOf path) := free_splitOn _

theorem intercalate_segmentsOf (path : String) :
    ['/'].intercalate (segmentsOf path) = path.toList := List.intercalate_splitOn '/'

/-- **`pathWithin` compares segments.** -/
theorem pathWithin_iff {path root : String} {ps rs : List (List Char)}
    (hpath : path.toList = ['/'].intercalate ps) (hroot : root.toList = ['/'].intercalate rs)
    (hp : ps ≠ []) (hr : rs ≠ []) (hps : Free '/' ps) (hrs : Free '/' rs) :
    pathWithin path root = true ↔ rs <+: ps := by
  rw [← within_iff hr hp hrs hps, ← hpath, ← hroot, pathWithin, Bool.or_eq_true,
    decide_eq_true_iff, List.isPrefixOf_iff_prefix, String.toList_append, String.toList_inj]
  exact Iff.rfl

/-- A segment of a scope: neither empty nor a dot, and without a slash. -/
structure Proper (segment : List Char) : Prop where
  some : segment ≠ []
  notDot : segment ≠ ['.']
  free : '/' ∉ segment

/-- One more segment keeps the segments of a scope proper. -/
theorem proper_normalizeSegment {aboveRoot : Bool} {segments : List (List Char)}
    {segment : List Char} (hsegments : ∀ s ∈ segments, Proper s) (hfree : '/' ∉ segment) :
    ∀ s ∈ normalizeSegment aboveRoot segments segment, Proper s := by
  have hproper : ¬ (segment = [] ∨ segment = ['.']) → Proper segment :=
    fun hne => ⟨fun h => hne (.inl h), fun h => hne (.inr h), hfree⟩
  have happend : Proper segment → ∀ s ∈ segments ++ [segment], Proper s := by
    intro hsegment s hs
    rcases List.mem_append.mp hs with hs | hs
    · exact hsegments s hs
    · exact List.mem_singleton.mp hs ▸ hsegment
  rw [normalizeSegment]
  split
  · exact hsegments
  · next hne =>
    split
    · split
      · split
        · exact happend (hproper hne)
        · exact fun s hs => hsegments s (List.dropLast_subset _ hs)
      · split
        · intro s hs
          exact List.mem_singleton.mp hs ▸ hproper hne
        · intro s hs
          cases hs
    · exact happend (hproper hne)

theorem proper_foldl {aboveRoot : Bool} : ∀ {parts segments : List (List Char)},
    (∀ s ∈ segments, Proper s) → Free '/' parts →
    ∀ s ∈ parts.foldl (normalizeSegment aboveRoot) segments, Proper s
  | [], _, hsegments, _ => hsegments
  | part :: parts, _, hsegments, hparts => by
    rw [List.foldl_cons]
    exact proper_foldl (proper_normalizeSegment hsegments (hparts part List.mem_cons_self))
      fun s hs => hparts s (List.mem_cons_of_mem _ hs)

theorem proper_scopeOf (path : String) : ∀ s ∈ scopeOf path, Proper s :=
  proper_foldl (fun _ hs => absurd hs List.not_mem_nil) (free_segmentsOf path)

/-- **A normalized path denotes its own segments.** -/
theorem scopeOf_of_isNormalizedPath {path : String} (h : isNormalizedPath path = true) :
    scopeOf path = segmentsOf path := by
  simp only [isNormalizedPath, Bool.and_eq_true, List.all_eq_true, decide_eq_true_eq] at h
  have hfold : ∀ (parts segments : List (List Char)),
      (∀ part ∈ parts, part ≠ [] ∧ part ≠ ['.'] ∧ part ≠ ['.', '.']) →
      parts.foldl (normalizeSegment true) segments = segments ++ parts := by
    intro parts
    induction parts with
    | nil => exact fun segments _ => (List.append_nil segments).symm
    | cons part parts ih =>
      intro segments hparts
      obtain ⟨hsome, hdot, hdots⟩ := hparts part List.mem_cons_self
      have hone : normalizeSegment true segments part = segments ++ [part] := by
        rw [normalizeSegment, if_neg (by simp [hsome, hdot]), if_neg hdots]
      rw [List.foldl_cons, hone, ih _ fun p hp => hparts p (List.mem_cons_of_mem _ hp),
        List.append_assoc, List.singleton_append]
  exact hfold _ [] h.2

/-! ## Normalized targets -/

/-- The scope, with a dot for the repository itself. -/
def scopeSegments (path : String) : List (List Char) :=
  if scopeOf path = [] then [['.']] else scopeOf path

/-- The empty segment a trailing slash leaves behind. -/
def slashSegments (path : String) : List (List Char) :=
  if path.toList.getLast? = some '/' then [[]] else []

/-- **The segments of a normalized relative path.** -/
def normalSegments (path : String) : List (List Char) := scopeSegments path ++ slashSegments path

theorem scopeSegments_ne_nil (path : String) : scopeSegments path ≠ [] := by
  rw [scopeSegments]
  split
  · exact List.cons_ne_nil _ _
  · assumption

theorem normalSegments_ne_nil (path : String) : normalSegments path ≠ [] :=
  List.append_ne_nil_of_left_ne_nil (scopeSegments_ne_nil path) _

theorem free_normalSegments (path : String) : Free '/' (normalSegments path) := by
  intro s hs
  rcases List.mem_append.mp hs with hs | hs
  · rw [scopeSegments] at hs
    split at hs
    · rw [List.mem_singleton.mp hs]
      decide
    · exact (proper_scopeOf path s hs).free
  · rw [slashSegments] at hs
    split at hs
    · rw [List.mem_singleton.mp hs]
      exact List.not_mem_nil
    · cases hs

/-- **What `posix.normalize` makes of a relative path.** -/
theorem toList_posixNormalize {path : String} (hrelative : path.toList.head? ≠ some '/') :
    (posixNormalize path).toList = ['/'].intercalate (normalSegments path) := by
  have hbody : ("/".intercalate ((scopeOf path).map String.ofList)).toList
      = ['/'].intercalate (scopeOf path) := by
    rw [String.toList_intercalate, List.map_map]
    congr 1
    exact List.map_id'' (fun s => String.toList_ofList) _
  have hempty : "/".intercalate ((scopeOf path).map String.ofList) = "" ↔ scopeOf path = [] := by
    rw [← String.toList_inj, hbody]
    exact intercalate_eq_nil_iff fun s hs => (proper_scopeOf path s hs).some
  have habove : decide (¬ path.toList.head? = some '/') = true := decide_eq_true hrelative
  rw [posixNormalize]
  simp only [habove, if_neg hrelative]
  show (if path = "" then "."
    else if "/".intercalate ((scopeOf path).map String.ofList) = "" then
      if path.toList.getLast? = some '/' then "./" else "."
    else "" ++ "/".intercalate ((scopeOf path).map String.ofList)
      ++ (if path.toList.getLast? = some '/' then "/" else "")).toList = _
  rw [normalSegments, scopeSegments, slashSegments]
  split
  · next hpath =>
    subst hpath
    rfl
  · by_cases hscope : scopeOf path = []
    · rw [if_pos (hempty.mpr hscope), if_pos hscope]
      split <;> rfl
    · rw [if_neg (hempty.not.mpr hscope), if_neg hscope]
      split
      · rw [String.toList_append, String.toList_append, hbody,
          intercalate_append hscope (List.cons_ne_nil _ _), List.intercalate_singleton]
        rfl
      · rw [String.toList_append, String.toList_append, hbody, List.append_nil]
        exact List.append_nil _

/-! ## What a comparison as text sees -/

/-- A target that a root is compared with selects it. -/
def selectsRoot (root target : String) : Bool :=
  selectsAround target || selectsWithin target (pathWithin target root || pathWithin root target)

/-- A normalized relative path stays relative. -/
theorem head_posixNormalize {path : String} (hrelative : path.toList.head? ≠ some '/') :
    (posixNormalize path).toList.head? ≠ some '/' := by
  rw [toList_posixNormalize hrelative]
  cases hsegments : scopeSegments path with
  | nil => exact absurd hsegments (scopeSegments_ne_nil path)
  | cons first rest =>
    have hfirst : first ≠ [] ∧ '/' ∉ first := by
      have hmem : first ∈ scopeSegments path := hsegments ▸ List.mem_cons_self
      rw [scopeSegments] at hmem
      split at hmem
      · rw [List.mem_singleton.mp hmem]
        decide
      · exact ⟨(proper_scopeOf path first hmem).some, (proper_scopeOf path first hmem).free⟩
    cases first with
    | nil => exact absurd rfl hfirst.1
    | cons c cs =>
      have hhead : (['/'].intercalate (normalSegments path)).head? = some c := by
        rw [normalSegments, hsegments, List.cons_append]
        cases rest ++ slashSegments path with
        | nil => rw [List.intercalate_singleton, List.head?_cons]
        | cons next more =>
          rw [List.intercalate_cons_cons, List.append_assoc, List.cons_append, List.head?_cons]
      rw [hhead]
      rintro ⟨rfl⟩
      exact hfirst.2 List.mem_cons_self

/-- A scope above the repository is refused by its first segment. -/
theorem selectsAround_of_above {path : String} (hrelative : path.toList.head? ≠ some '/')
    (habove : (scopeOf path).head? = some ['.', '.']) :
    selectsAround (posixNormalize path) = true := by
  have htext := toList_posixNormalize hrelative
  obtain ⟨rest, hscope⟩ : ∃ rest, scopeOf path = ['.', '.'] :: rest := by
    cases hscope : scopeOf path with
    | nil =>
      rw [hscope] at habove
      cases habove
    | cons first rest =>
      rw [hscope] at habove
      exact ⟨rest, by rw [Option.some.inj habove]⟩
  have hsegments : normalSegments path = ['.', '.'] :: (rest ++ slashSegments path) := by
    rw [normalSegments, scopeSegments, if_neg (by simp [hscope]), hscope, List.cons_append]
  rw [selectsAround, Bool.or_eq_true, decide_eq_true_iff]
  rw [hsegments] at htext
  cases hmore : rest ++ slashSegments path with
  | nil =>
    rw [hmore, List.intercalate_singleton] at htext
    exact .inl (.inr (String.toList_inj.mp htext))
  | cons next more =>
    rw [hmore, List.intercalate_cons_cons] at htext
    refine .inr (List.isPrefixOf_iff_prefix.mpr ?_)
    rw [htext]
    exact List.prefix_append _ _

/-- **What a comparison as text misses** of a relative target: a scope that
contains the root, written with a slash at its end. -/
theorem touches_iff {path root : String} (hrelative : path.toList.head? ≠ some '/')
    (hselect : selectsRoot root (posixNormalize path) = false) :
    Touches (scopeOf path) (segmentsOf root)
      ↔ path.toList.getLast? = some '/' ∧ scopeOf path <+: segmentsOf root := by
  have htext := toList_posixNormalize hrelative
  simp only [selectsRoot, selectsWithin, Bool.or_eq_false_iff, Bool.and_eq_false_iff,
    decide_eq_false_iff_not, not_not] at hselect
  obtain ⟨haround, hwithin⟩ := hselect
  obtain ⟨hin, hcontains⟩ := hwithin.resolve_left (head_posixNormalize hrelative)
  have hroot := (intercalate_segmentsOf root).symm
  have hin' : ¬ segmentsOf root <+: normalSegments path := by
    rw [← pathWithin_iff htext hroot (normalSegments_ne_nil path) (segmentsOf_ne_nil root)
      (free_normalSegments path) (free_segmentsOf root), hin]
    decide
  have hcontains' : ¬ normalSegments path <+: segmentsOf root := by
    rw [← pathWithin_iff hroot htext (segmentsOf_ne_nil root) (normalSegments_ne_nil path)
      (free_segmentsOf root) (free_normalSegments path), hcontains]
    decide
  constructor
  · rintro (habove | hleads | hinside)
    · exact absurd (selectsAround_of_above hrelative habove) (by rw [haround]; decide)
    · refine ⟨?_, hleads⟩
      by_contra hlast
      -- without a slash at its end the text is that of the scope itself
      have hplain : normalSegments path = scopeSegments path := by
        rw [normalSegments, slashSegments, if_neg hlast, List.append_nil]
      rw [hplain] at hcontains' htext
      rw [scopeSegments] at hcontains' htext
      split at hcontains'
      · next hscope =>
        rw [if_pos hscope, List.intercalate_singleton] at htext
        have hdot : posixNormalize path = "." := String.toList_inj.mp htext
        rw [hdot] at haround
        exact absurd haround (by decide)
      · exact hcontains' hleads
    · refine absurd ?_ hin'
      have hsome : scopeOf path ≠ [] := by
        intro hscope
        rw [hscope] at hinside
        exact segmentsOf_ne_nil root (List.prefix_nil.mp hinside)
      rw [normalSegments, scopeSegments, if_neg hsome]
      exact hinside.trans (List.prefix_append _ _)
  · rintro ⟨-, hleads⟩
    exact .inr (.inl hleads)

/-! ## The roots of a boundary -/

/-- The target of an effect, its backslashes replaced. -/
def slashed (e : BoundaryEffect) : String :=
  String.ofList (e.target.toList.map fun c => if c = '\\' then '/' else c)

/-- **A boundary leaves the Atlas and the Discipline content alone.** An
absolute target is no scope of the repository. -/
structure LeftAlone (contract : BoundaryContract) (b : WorkBoundary) : Prop where
  artifacts : ∀ a ∈ b.mandate.artifacts, ¬ Touches (scopeOf a.path) (segmentsOf atlasRoot)
    ∧ ¬ Touches (scopeOf a.path) (segmentsOf contract.disciplineRoot)
  effects : ∀ e ∈ b.mandate.effects, e.kind = .localRead ∨ e.kind = .localWrite →
    (slashed e).toList.head? ≠ some '/' →
    ¬ Touches (scopeOf (slashed e)) (segmentsOf atlasRoot)
      ∧ ¬ Touches (scopeOf (slashed e)) (segmentsOf contract.disciplineRoot)

/-- **A local effect names an ancestor of a root with a slash at its end.** -/
structure SlashedAncestor (contract : BoundaryContract) (e : BoundaryEffect) : Prop where
  isLocal : e.kind = .localRead ∨ e.kind = .localWrite
  relative : (slashed e).toList.head? ≠ some '/'
  slash : (slashed e).toList.getLast? = some '/'
  ancestor : scopeOf (slashed e) <+: segmentsOf atlasRoot
    ∨ scopeOf (slashed e) <+: segmentsOf contract.disciplineRoot

/-- An accepted artifact is apart from the roots. -/
theorem artifact_leftAlone {contract : BoundaryContract} {a : BoundaryArtifact}
    (hpath : isNormalizedPath a.path = true) (h : assertReadOnlyArtifact contract a = .ok ()) :
    ¬ Touches (scopeOf a.path) (segmentsOf atlasRoot)
      ∧ ¬ Touches (scopeOf a.path) (segmentsOf contract.disciplineRoot) := by
  simp only [assertReadOnlyArtifact, bind_eq_ok, failIf_eq_ok, exists_unit, not_or,
    Bool.not_eq_true] at h
  obtain ⟨⟨hdiscipline, hcontains⟩, hatlas⟩ := h
  have hwithin : ∀ path root : String, pathWithin path root = false →
      ¬ segmentsOf root <+: segmentsOf path := by
    intro path root hfalse
    rw [← pathWithin_iff (intercalate_segmentsOf path).symm (intercalate_segmentsOf root).symm
      (segmentsOf_ne_nil path) (segmentsOf_ne_nil root) (free_segmentsOf path)
      (free_segmentsOf root), hfalse]
    decide
  have hparts := hpath
  simp only [isNormalizedPath, Bool.and_eq_true, List.all_eq_true, decide_eq_true_eq] at hparts
  rw [scopeOf_of_isNormalizedPath hpath]
  have hnotAbove : (segmentsOf a.path).head? ≠ some ['.', '.'] := by
    intro habove
    exact (hparts.2 _ (List.mem_of_head? habove)).2.2 rfl
  constructor
  · rintro (habove | hleads | hinside)
    · exact hnotAbove habove
    · -- the Atlas root has one segment, so what contains it is the root itself
      have hatlasSegments : segmentsOf atlasRoot = [atlasRoot.toList] :=
        List.splitOn_eq_singleton (by decide)
      refine hwithin _ _ hatlas ?_
      rw [hatlasSegments] at hleads ⊢
      have hlength := List.length_pos_of_ne_nil (segmentsOf_ne_nil a.path)
      rw [hleads.eq_of_length_le hlength]
    · exact hwithin _ _ hatlas hinside
  · rintro (habove | hleads | hinside)
    · exact hnotAbove habove
    · exact hwithin _ _ hcontains hleads
    · exact hwithin _ _ hdiscipline hinside

/-- An accepted local effect selects neither root, as text. -/
theorem effect_selectsNone {contract : BoundaryContract} {e : BoundaryEffect}
    (hlocal : e.kind = .localRead ∨ e.kind = .localWrite)
    (h : assertReadOnlyEffect contract e = .ok ()) :
    selectsRoot atlasRoot (posixNormalize (slashed e)) = false
      ∧ selectsRoot contract.disciplineRoot (posixNormalize (slashed e)) = false := by
  have htarget : localTarget e = some (posixNormalize (slashed e)) := if_pos hlocal
  simp only [assertReadOnlyEffect, htarget, bind_eq_ok, failIf_eq_ok, exists_unit, not_or] at h
  exact ⟨Bool.not_eq_true _ ▸ h.1.1, Bool.not_eq_true _ ▸ h.2.1⟩

/-- A contract with the Discipline root every contract has. -/
def rootContract : BoundaryContract where
  disciplineRoot := "records/disciplines"
  checkBindings := OrderedMap.empty
  keyed := fun _ he => absurd he List.not_mem_nil

/-- A boundary with one artifact and one effect. -/
def effectBoundary (target : String) : WorkBoundary where
  selectedKnowledgeIds := ["check.a"]
  selectedWorkTypeIds := []
  selectedSourceIds := []
  capabilityProfileId := "capability"
  projectionProfile := .executionStandard
  mandate := {
    effects := [⟨"e", .localWrite, "Writes", "Now", target, .reversible, ""⟩]
    risks := []
    obligations := []
    artifacts := [⟨"a", "src/a", .code, true, [], "Changes", ""⟩]
    checks := []
    propositions := []
    objective := ⟨"g", "Goal", ""⟩
    direction := ⟨"m", "Meaning", "Now", ["In"], [], [], [], [], [], ""⟩ }

theorem effectBoundary_paths (target : String) :
    ∀ a ∈ (effectBoundary target).mandate.artifacts, isNormalizedPath a.path = true := by
  intro a ha
  rw [List.mem_singleton.mp ha]
  decide

theorem records_accepted :
    assertAtlasReadOnlyWorkProduct rootContract (effectBoundary "records/") = .ok () := by
  rfl

end WorkProduct
