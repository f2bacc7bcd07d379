import Lifecycle.Fallible
import Lifecycle.KnowledgeModel
import Lifecycle.KnowledgeConflicts

/-!
# Description coverage

Two parts of the program decide which Description owns an implementation path.
`buildDescriptionCoverage` gives each governed path that no exemption waives
its one selector, or reports it. `requireOneDescription` reads that coverage
back; a path it does not list is looked up among the current Descriptions
again, and an exemption excuses it only when none of them matches. A Knowledge
Set may therefore be valid and a projection still refuse an exempted path as
ambiguous: `coverageLaw_iff`.
-/

open Fallible Json ControlModel SortedBy

namespace Knowledge

/-! ## The repository -/

/-- `FoundationGitTreeEntry`. -/
structure GitTreeEntry where
  path : String
  type : String
  mode : String
  objectId : String
deriving DecidableEq

/-- A Git tree: no path twice. -/
structure GitTree where
  entries : List GitTreeEntry
  distinct : (entries.map (·.path)).Nodup

/-- `FoundationCoverageExemption`. -/
structure CoverageExemption where
  path : String
  reason : String
deriving DecidableEq

/-- **`FoundationRepositoryContract`**, with what coverage reads of it. -/
structure RepositoryContract where
  behaviorRoot : String
  assuranceRoot : String
  blueprintRoot : String
  checkRoot : String
  disciplineRoot : String
  atlasRoot : String
  governedImplementationRoots : List String
  coverageExemptions : List CoverageExemption

/-- `path.startsWith(start)`. -/
def startsWith (path start : String) : Bool := start.toList.isPrefixOf path.toList

/-- `atOrBelow`. -/
def atOrBelow (path root : String) : Bool := decide (path = root) || startsWith path (root ++ "/")

/-- `matchesSelector`. -/
def matchesSelector (path : String) (selector : CoverageSelector) : Bool :=
  match selector.mode with
  | .file => decide (path = selector.path)
  | .tree =>
    if ¬ atOrBelow path selector.path = true ∨ path = selector.path then false
    else !selector.exclude.any (atOrBelow path ·)

/-- `basename`. -/
def basename (path : String) : String :=
  String.ofList ((path.toList.reverse.dropWhile (· = '/')).takeWhile (· ≠ '/')).reverse

/-- `isDescriptionRecord`. -/
def isDescriptionRecord (path : String) : Bool :=
  startsWith (basename path) "_"
    && ".desc.md".toList.isSuffixOf (basename path).toList

/-- `knowledgeOrControlPath`. -/
def knowledgeOrControlPath (path : String) (contract : RepositoryContract) : Bool :=
  atOrBelow path contract.behaviorRoot || atOrBelow path contract.assuranceRoot
    || atOrBelow path contract.blueprintRoot || atOrBelow path contract.checkRoot
    || atOrBelow path contract.disciplineRoot || atOrBelow path contract.atlasRoot
    || atOrBelow path "records/control" || atOrBelow path ".lifecycle" || isDescriptionRecord path

/-- `governedImplementationPath`. -/
def governedImplementationPath (contract : RepositoryContract) (path : String) : Bool :=
  contract.governedImplementationRoots.any (atOrBelow path ·)
    && !knowledgeOrControlPath path contract

/-- A regular file. -/
def isRegularBlob (entry : GitTreeEntry) : Bool :=
  decide (entry.type = "blob") && (decide (entry.mode = "100644") || decide (entry.mode = "100755"))

/-- A governed path that is no regular file. -/
def fileKind (entry : GitTreeEntry) : Diagnostic :=
  { stage := "coverage"
    code := "lifecycle.description.coverage-file-kind"
    message := s!"Governed implementation path {entry.path} is not a supported regular Git blob"
    path := some entry.path
    facts := [("mode", .string entry.mode), ("type", .string entry.type)] }

/-- **`governedImplementationEntries`**: the governed files, and what is
reported of governed paths that are none. -/
def governedImplementationEntries (contract : RepositoryContract) (tree : List GitTreeEntry) :
    List GitTreeEntry × List Diagnostic :=
  let governed := tree.filter (governedImplementationPath contract ·.path)
  (sortOn (·.path) (governed.filter isRegularBlob),
    (governed.filter (¬ isRegularBlob · = true)).map fileKind)

/-! ## `buildDescriptionCoverage` -/

/-- `FoundationCoverageEntry`. -/
structure CoverageEntry where
  path : String
  mode : String
  objectId : String
  descriptionId : String
  descriptionRevision : Nat
  selectorPath : String
  selectorMode : SelectorMode
deriving DecidableEq

/-- `FoundationCoverageExemptionResult`. -/
structure ExemptionResult where
  path : String
  reason : String
  isMatched : Bool
deriving DecidableEq

/-- A selector with the Description it is of. -/
structure OwnedSelector where
  record : KnowledgeRecord
  selector : CoverageSelector
deriving DecidableEq

/-- The selectors of a Description. -/
def coverageOf (record : KnowledgeRecord) : List CoverageSelector :=
  match record.frontMatter.spec with
  | .description coverage => coverage
  | _ => []

/-- The selectors of the current Descriptions, in order. -/
def selectorsOf (descriptions : List KnowledgeRecord) : List OwnedSelector :=
  sortOn (fun s => nulJoin [s.record.frontMatter.id, s.selector.path, s.selector.mode.text])
    (descriptions.flatMap fun record => (coverageOf record).map fun s => ⟨record, s⟩)

/-- What is reported of an exemption. -/
def exemptionDiagnostics (governed : List GitTreeEntry) (exemption : CoverageExemption) :
    List Diagnostic :=
  if governed.any (atOrBelow ·.path exemption.path) then [] else
    [{ stage := "coverage"
       code := "lifecycle.description.exemption-empty"
       severity := .warning
       message := s!"Coverage exemption {exemption.path} matches no governed implementation "
         ++ "artifact"
       path := some exemption.path
       facts := [("reason", .string exemption.reason)] }]

/-- What is reported of a selector. -/
def selectorDiagnostics (governed : List GitTreeEntry) (s : OwnedSelector) : List Diagnostic :=
  (if governed.any (matchesSelector ·.path s.selector) then [] else
    [{ stage := "coverage"
       code := "lifecycle.description.coverage-empty"
       severity := .warning
       message := s!"Description selector {s.selector.path} in {s.record.frontMatter.id} matches "
         ++ "no governed implementation artifact"
       path := some s.record.path
       facts := [("selectorPath", .string s.selector.path),
         ("selectorMode", .string s.selector.mode.text)] }])
  ++ (if s.selector.mode = .file ∧ s.selector.path ∉ governed.map (·.path) then
    [{ stage := "coverage"
       code := "lifecycle.description.coverage-target-missing"
       message := s!"Description file selector {s.selector.path} is not one governed "
         ++ "implementation artifact"
       path := some s.record.path
       facts := [("selectorPath", .string s.selector.path)] }] else [])

/-- The selectors that match a path. -/
def ownersOf (selectors : List OwnedSelector) (path : String) : List OwnedSelector :=
  selectors.filter (matchesSelector path ·.selector)

/-- The entry of a path with one owner. -/
def coverageEntry (entry : GitTreeEntry) (owner : OwnedSelector) : CoverageEntry :=
  { path := entry.path
    mode := entry.mode
    objectId := entry.objectId
    descriptionId := owner.record.frontMatter.id
    descriptionRevision := owner.record.frontMatter.revision
    selectorPath := owner.selector.path
    selectorMode := owner.selector.mode }

/-- A governed file that is not exempted: its entry, or what is reported. -/
def coverFile (selectors : List OwnedSelector) (entry : GitTreeEntry) :
    Option CoverageEntry × List Diagnostic :=
  match ownersOf selectors entry.path with
  | [] => (none, [{
      stage := "coverage"
      code := "lifecycle.description.coverage-missing"
      message := s!"Governed implementation artifact {entry.path} has no current primary "
        ++ "Description"
      path := some entry.path }])
  | [owner] => (some (coverageEntry entry owner), [])
  | owners => (none, [{
      stage := "coverage"
      code := "lifecycle.description.coverage-ambiguous"
      message := s!"Governed implementation artifact {entry.path} has {owners.length} primary "
        ++ "Descriptions"
      path := some entry.path
      related := owners.map (·.record.path)
      facts := [("descriptionIds", .array ((sortOn id
        (owners.map (·.record.frontMatter.id))).map Json.string))] }])

/-- A governed path is exempted. -/
def isExempted (contract : RepositoryContract) (path : String) : Bool :=
  contract.coverageExemptions.any (atOrBelow path ·.path)

/-- The coverage of a repository, its exemptions, and what is reported. -/
structure DescriptionCoverage where
  coverage : List CoverageEntry
  exemptions : List ExemptionResult
  diagnostics : List Diagnostic

/-- **`buildDescriptionCoverage`.** -/
def buildDescriptionCoverage (contract : RepositoryContract) (tree : List GitTreeEntry)
    (descriptions : List KnowledgeRecord) : DescriptionCoverage :=
  let governed := (governedImplementationEntries contract tree).1
  let selectors := selectorsOf descriptions
  let required := governed.filter (¬ isExempted contract ·.path = true)
  { coverage := sortOn (·.path) (required.filterMap fun entry => (coverFile selectors entry).1)
    exemptions := sortOn (·.path) (contract.coverageExemptions.map fun exemption =>
      ⟨exemption.path, exemption.reason, governed.any (atOrBelow ·.path exemption.path)⟩)
    diagnostics := (governedImplementationEntries contract tree).2
      ++ contract.coverageExemptions.flatMap (exemptionDiagnostics governed)
      ++ selectors.flatMap (selectorDiagnostics governed)
      ++ required.flatMap fun entry => (coverFile selectors entry).2 }

/-! ## `requireOneDescription` -/

/-- **The Knowledge Set**, with what the lookup of a path reads of it. -/
structure CoveredKnowledge where
  currentRecords : List KnowledgeRecord
  coverage : List CoverageEntry
  exemptions : List ExemptionResult

/-- `matchesDescription`. -/
def matchesDescription (path : String) (selector : CoverageSelector) : Bool :=
  match selector.mode with
  | .file => decide (selector.path = path)
  | .tree => decide (path ≠ selector.path) && atOrBelow path selector.path
    && !selector.exclude.any (atOrBelow path ·)

/-- **`descriptionsForPath`.** -/
def descriptionsForPath (knowledge : CoveredKnowledge) (path : String) : List String :=
  let exact := (knowledge.coverage.filter (·.path = path)).map (·.descriptionId)
  if exact.length > 0 then sortUniqueCodePoints exact
  else
    sortUniqueCodePoints ((knowledge.currentRecords.filter fun record =>
      decide (record.frontMatter.kind = .description)
        && (coverageOf record).any (matchesDescription path ·)).map (·.frontMatter.id))

/-- `requireDescriptionIdentity`. -/
def requireDescriptionIdentity (knowledge : CoveredKnowledge) (path : String)
    (descriptions : List String) : Except FoundationError String := do
  let exempt := knowledge.exemptions.any fun entry => entry.isMatched && atOrBelow path entry.path
  if descriptions.length = 0 ∧ exempt = true then return ""
  else
    failIf (descriptions.length ≠ 1) (lifecycleError
      (if descriptions.length = 0 then "lifecycle.projection.description-missing"
        else "lifecycle.projection.description-ambiguous")
      s!"Execution Projection requires exactly one primary Description for {path}")
    return descriptions.headD ""

/-- **`requireOneDescription`.** -/
def requireOneDescription (knowledge : CoveredKnowledge) (path : String) :
    Except FoundationError String :=
  requireDescriptionIdentity knowledge path (descriptionsForPath knowledge path)

/-! ## The Knowledge Set of a tree -/

/-- The Descriptions among the current records. -/
def CurrentRecords.descriptions (c : CurrentRecords) : List KnowledgeRecord :=
  c.records.filter (·.frontMatter.kind = .description)

/-- The coverage of a tree by the current records. -/
def treeCoverage (contract : RepositoryContract) (tree : GitTree) (current : CurrentRecords) :
    DescriptionCoverage :=
  buildDescriptionCoverage contract tree.entries current.descriptions

/-- The Knowledge Set with this coverage. -/
def coveredKnowledge (contract : RepositoryContract) (tree : GitTree) (current : CurrentRecords) :
    CoveredKnowledge :=
  let built := treeCoverage contract tree current
  { currentRecords := current.records
    coverage := built.coverage
    exemptions := built.exemptions }

/-- Nothing but warnings is reported. -/
def NoError (built : DescriptionCoverage) : Prop := ∀ d ∈ built.diagnostics, d.severity ≠ .error

instance (built : DescriptionCoverage) : Decidable (NoError built) :=
  inferInstanceAs (Decidable (∀ d ∈ built.diagnostics, d.severity ≠ .error))

/-- **The owner of a path**: the one selector that matches it is in the
coverage, once, and the lookup returns its Description. -/
structure Owned (contract : RepositoryContract) (tree : GitTree) (current : CurrentRecords)
    (entry : GitTreeEntry) (owner : OwnedSelector) : Prop where
  single : ownersOf (selectorsOf current.descriptions) entry.path = [owner]
  once : (treeCoverage contract tree current).coverage.filter (·.path = entry.path)
    = [coverageEntry entry owner]
  lookup : requireOneDescription (coveredKnowledge contract tree current) entry.path
    = .ok owner.record.frontMatter.id

/-- **Ownership is total and unique**: a governed path that is not exempted has
its owner, and the lookup of one that is exempted is not refused. -/
structure CoverageLaw (contract : RepositoryContract) (tree : GitTree)
    (current : CurrentRecords) : Prop where
  covered : ∀ entry ∈ tree.entries, governedImplementationPath contract entry.path = true →
    isExempted contract entry.path = false → ∃ owner, Owned contract tree current entry owner
  exempted : ∀ entry ∈ tree.entries, governedImplementationPath contract entry.path = true →
    isExempted contract entry.path = true →
    ∃ id, requireOneDescription (coveredKnowledge contract tree current) entry.path = .ok id

/-- A current Description one of whose selectors matches the path. -/
def Describes (current : CurrentRecords) (path : String) (record : KnowledgeRecord) : Prop :=
  record ∈ current.descriptions ∧ ∃ selector ∈ coverageOf record, matchesSelector path selector = true

/-- No exempted path is described by two Descriptions. -/
def ExemptUncontested (contract : RepositoryContract) (tree : GitTree)
    (current : CurrentRecords) : Prop :=
  ∀ entry ∈ tree.entries, governedImplementationPath contract entry.path = true →
    isExempted contract entry.path = true → ∀ left right, Describes current entry.path left →
    Describes current entry.path right → left = right

/-! ## Validation -/

section

variable {contract : RepositoryContract} {tree : GitTree} {current : CurrentRecords}

/-- **A governed file has one owner, or an error is reported of it.** -/
theorem coverFile_cases (selectors : List OwnedSelector) (entry : GitTreeEntry) :
    (∃ owner, ownersOf selectors entry.path = [owner]
      ∧ coverFile selectors entry = (some (coverageEntry entry owner), []))
    ∨ ∃ d, (coverFile selectors entry).2 = [d] ∧ d.severity = .error := by
  rw [coverFile]
  cases ownersOf selectors entry.path with
  | nil => exact .inr ⟨_, rfl, rfl⟩
  | cons owner rest =>
    cases rest with
    | nil => exact .inl ⟨owner, rfl, rfl⟩
    | cons _ _ => exact .inr ⟨_, rfl, rfl⟩

/-- An entry has the path of the file it is of. -/
theorem path_of_coverFile {selectors : List OwnedSelector} {entry : GitTreeEntry}
    {covered : CoverageEntry} (h : (coverFile selectors entry).1 = some covered) :
    covered.path = entry.path := by
  unfold coverFile at h
  split at h
  · cases h
  · cases h
    rfl
  · cases h

/-- Every governed path is a regular file when no error is reported. -/
theorem NoError.regular (h : NoError (treeCoverage contract tree current)) {entry : GitTreeEntry}
    (hentry : entry ∈ tree.entries)
    (hgoverned : governedImplementationPath contract entry.path = true) :
    entry ∈ (governedImplementationEntries contract tree.entries).1 := by
  have hfilter : entry ∈ tree.entries.filter (governedImplementationPath contract ·.path) :=
    List.mem_filter.mpr ⟨hentry, hgoverned⟩
  refine mem_sortOn.mpr (List.mem_filter.mpr ⟨hfilter, ?_⟩)
  by_contra hblob
  refine h (fileKind entry) ?_ rfl
  refine List.mem_append_left _ (List.mem_append_left _ (List.mem_append_left _ ?_))
  exact List.mem_map.mpr ⟨entry, List.mem_filter.mpr ⟨hfilter, decide_eq_true hblob⟩, rfl⟩

/-- **Every governed path that is not exempted has one owner when no error is
reported.** -/
theorem NoError.owner (h : NoError (treeCoverage contract tree current)) {entry : GitTreeEntry}
    (hentry : entry ∈ tree.entries)
    (hgoverned : governedImplementationPath contract entry.path = true)
    (hexempt : isExempted contract entry.path = false) :
    ∃ owner, ownersOf (selectorsOf current.descriptions) entry.path = [owner]
      ∧ coverageEntry entry owner ∈ (treeCoverage contract tree current).coverage := by
  have hrequired : entry ∈ (governedImplementationEntries contract tree.entries).1.filter
      (¬ isExempted contract ·.path = true) :=
    List.mem_filter.mpr ⟨h.regular hentry hgoverned, by simp [hexempt]⟩
  obtain ⟨owner, howner, hcover⟩ | ⟨d, hd, hseverity⟩ :=
    coverFile_cases (selectorsOf current.descriptions) entry
  · refine ⟨owner, howner, mem_sortOn.mpr (List.mem_filterMap.mpr ⟨entry, hrequired, ?_⟩)⟩
    rw [hcover]
  · refine absurd hseverity (h d (List.mem_append_right _ ?_))
    exact List.mem_flatMap.mpr ⟨entry, hrequired, hd ▸ List.mem_cons_self⟩

/-- What is kept of a list under its own keys keeps their order. -/
theorem sublist_map_filterMap {α β γ : Type} {f : α → Option β} {key : α → γ} {key' : β → γ}
    (h : ∀ a b, f a = some b → key' b = key a) (l : List α) :
    ((l.filterMap f).map key').Sublist (l.map key) := by
  induction l with
  | nil => exact List.Sublist.slnil
  | cons a l ih =>
    cases hf : f a with
    | none =>
      rw [List.filterMap_cons_none hf]
      exact ih.cons (key a)
    | some b =>
      rw [List.filterMap_cons_some hf, List.map_cons, List.map_cons, h a b hf]
      exact ih.cons_cons (key a)

/-- An entry is all there is with its key. -/
theorem filter_eq_singleton {α β : Type} [DecidableEq β] (key : α → β) {l : List α} {a : α}
    (hnodup : (l.map key).Nodup) (ha : a ∈ l) : l.filter (key · = key a) = [a] := by
  induction l with
  | nil => cases ha
  | cons b l ih =>
    obtain ⟨hb, hl⟩ := List.nodup_cons.mp hnodup
    obtain rfl | ha := List.mem_cons.mp ha
    · rw [List.filter_cons_of_pos (by simp), List.filter_eq_nil_iff.mpr]
      intro c hc heq
      exact hb (of_decide_eq_true heq ▸ List.mem_map_of_mem hc)
    · rw [List.filter_cons_of_neg, ih hl ha]
      simp only [decide_eq_true_eq]
      intro heq
      exact hb (heq ▸ List.mem_map_of_mem ha)

/-- No path is in the coverage twice. -/
theorem nodup_coverage (contract : RepositoryContract) (tree : GitTree)
    (current : CurrentRecords) :
    ((treeCoverage contract tree current).coverage.map (·.path)).Nodup := by
  have hgoverned : (((governedImplementationEntries contract tree.entries).1).map (·.path)).Nodup := by
    refine ((perm_sortOn _ _).map _).nodup_iff.mpr ?_
    exact ((List.filter_sublist.trans List.filter_sublist).map _).nodup tree.distinct
  refine ((perm_sortOn _ _).map _).nodup_iff.mpr ?_
  refine (sublist_map_filterMap (fun _ _ => path_of_coverFile) _).nodup ?_
  exact (List.filter_sublist.map _).nodup hgoverned

/-- No exempted path is in the coverage. -/
theorem filter_coverage_of_exempted {path : String} (h : isExempted contract path = true) :
    (treeCoverage contract tree current).coverage.filter (·.path = path) = [] := by
  refine List.filter_eq_nil_iff.mpr fun covered hcovered heq => ?_
  obtain ⟨entry, hentry, hcover⟩ := List.mem_filterMap.mp (mem_sortOn.mp hcovered)
  have hexempt := (List.mem_filter.mp hentry).2
  rw [← path_of_coverFile hcover, of_decide_eq_true heq, h] at hexempt
  exact absurd hexempt (by decide)

/-! ## The lookup -/

/-- **The two matchers agree.** -/
theorem matchesDescription_eq (path : String) (selector : CoverageSelector) :
    matchesDescription path selector = matchesSelector path selector := by
  rw [matchesDescription, matchesSelector]
  cases selector.mode with
  | file => exact decide_eq_decide.mpr eq_comm
  | tree =>
    by_cases hout : ¬ atOrBelow path selector.path = true ∨ path = selector.path
    · simp only [if_pos hout]
      obtain hout | hout := hout
      · simp [Bool.not_eq_true _ ▸ hout]
      · simp [hout]
    · simp only [if_neg hout]
      rw [not_or, not_not] at hout
      simp [hout.1, hout.2]

/-- A list has at most one identity when all its values are one. -/
theorem length_sortUniqueCodePoints_le_one (values : List String) :
    (sortUniqueCodePoints values).length ≤ 1 ↔ ∀ a ∈ values, ∀ b ∈ values, a = b := by
  have hnodup : (sortUniqueCodePoints values).Nodup :=
    (perm_sortOn _ _).nodup_iff.mpr (List.nodup_dedup _)
  have hmem : ∀ v, v ∈ values ↔ v ∈ sortUniqueCodePoints values := fun v =>
    mem_sortUniqueCodePoints.symm
  simp only [hmem]
  cases hl : sortUniqueCodePoints values with
  | nil => simp
  | cons a rest =>
    cases rest with
    | nil => simp
    | cons b rest =>
      rw [hl] at hnodup
      refine ⟨fun h => absurd h (by simp), fun h => absurd ?_ (List.nodup_cons.mp hnodup).1⟩
      rw [h a List.mem_cons_self b (List.mem_cons_of_mem _ List.mem_cons_self)]
      exact List.mem_cons_self

/-- **An exempted path is looked up unless two identities describe it.** -/
theorem requireDescriptionIdentity_of_exempt {knowledge : CoveredKnowledge} {path : String}
    {descriptions : List String}
    (hexempt : knowledge.exemptions.any (fun e => e.isMatched && atOrBelow path e.path) = true) :
    (∃ id, requireDescriptionIdentity knowledge path descriptions = .ok id)
      ↔ descriptions.length ≤ 1 := by
  rw [requireDescriptionIdentity, hexempt]
  by_cases hnone : descriptions.length = 0
  · simp [hnone, pure_eq_ok]
  · simp only [hnone, false_and, if_false, bind_eq_ok, failIf_eq_ok, pure_eq_ok, exists_unit]
    constructor
    · rintro ⟨id, hone, -⟩
      omega
    · exact fun hle => ⟨_, by omega, rfl⟩

/-- The exemption of a governed path is matched. -/
theorem exists_matched {entry : GitTreeEntry}
    (hgoverned : entry ∈ (governedImplementationEntries contract tree.entries).1)
    (hexempt : isExempted contract entry.path = true) :
    (coveredKnowledge contract tree current).exemptions.any
      (fun e => e.isMatched && atOrBelow entry.path e.path) = true := by
  obtain ⟨exemption, hmem, hbelow⟩ := List.any_eq_true.mp hexempt
  refine List.any_eq_true.mpr ⟨_, mem_sortOn.mpr (List.mem_map.mpr ⟨exemption, hmem, rfl⟩), ?_⟩
  rw [Bool.and_eq_true]
  exact ⟨List.any_eq_true.mpr ⟨entry, hgoverned, hbelow⟩, hbelow⟩

/-- The identities an exempted path is looked up to. -/
theorem mem_descriptionsForPath_of_exempted {path id : String}
    (hexempt : isExempted contract path = true) :
    id ∈ descriptionsForPath (coveredKnowledge contract tree current) path
      ↔ ∃ record, Describes current path record ∧ record.frontMatter.id = id := by
  have hnone : (coveredKnowledge contract tree current).coverage.filter (·.path = path) = [] :=
    filter_coverage_of_exempted hexempt
  rw [descriptionsForPath, hnone, List.map_nil, if_neg (by simp), mem_sortUniqueCodePoints]
  simp only [List.mem_map, List.mem_filter, Bool.and_eq_true, List.any_eq_true,
    matchesDescription_eq, Describes, CurrentRecords.descriptions, and_assoc]
  rfl

/-- **The lookup of an exempted path is refused exactly when two Descriptions
describe it.** -/
theorem requireOneDescription_of_exempted {entry : GitTreeEntry}
    (hgoverned : entry ∈ (governedImplementationEntries contract tree.entries).1)
    (hexempt : isExempted contract entry.path = true) :
    (∃ id, requireOneDescription (coveredKnowledge contract tree current) entry.path = .ok id)
      ↔ ∀ left right, Describes current entry.path left → Describes current entry.path right →
        left = right := by
  rw [requireOneDescription, requireDescriptionIdentity_of_exempt (exists_matched hgoverned hexempt)]
  have hunique : (descriptionsForPath (coveredKnowledge contract tree current) entry.path).length
      ≤ 1 ↔ ∀ a ∈ descriptionsForPath (coveredKnowledge contract tree current) entry.path,
        ∀ b ∈ descriptionsForPath (coveredKnowledge contract tree current) entry.path, a = b := by
    rw [descriptionsForPath]
    split
    · simp only [mem_sortUniqueCodePoints]
      exact length_sortUniqueCodePoints_le_one _
    · simp only [mem_sortUniqueCodePoints]
      exact length_sortUniqueCodePoints_le_one _
  rw [hunique]
  constructor
  · intro h left right hleft hright
    have hmem : ∀ record, Describes current entry.path record → record.frontMatter.id
        ∈ descriptionsForPath (coveredKnowledge contract tree current) entry.path :=
      fun record hrecord => (mem_descriptionsForPath_of_exempted hexempt).mpr ⟨record, hrecord, rfl⟩
    exact current.eq_of_id_eq (List.mem_of_mem_filter hleft.1) (List.mem_of_mem_filter hright.1)
      (h _ (hmem left hleft) _ (hmem right hright))
  · intro h a ha b hb
    obtain ⟨left, hleft, rfl⟩ := (mem_descriptionsForPath_of_exempted hexempt).mp ha
    obtain ⟨right, hright, rfl⟩ := (mem_descriptionsForPath_of_exempted hexempt).mp hb
    rw [h left right hleft hright]

/-- **The lookup of a covered path returns its owner.** -/
theorem requireOneDescription_of_covered {entry : GitTreeEntry} {owner : OwnedSelector}
    (h : coverageEntry entry owner ∈ (treeCoverage contract tree current).coverage) :
    requireOneDescription (coveredKnowledge contract tree current) entry.path
      = .ok owner.record.frontMatter.id := by
  have honce : (coveredKnowledge contract tree current).coverage.filter (·.path = entry.path)
      = [coverageEntry entry owner] :=
    filter_eq_singleton (·.path) (nodup_coverage contract tree current) h
  have hdescriptions : descriptionsForPath (coveredKnowledge contract tree current) entry.path
      = [owner.record.frontMatter.id] := by
    rw [descriptionsForPath, honce]
    rfl
  rw [requireOneDescription, hdescriptions]
  rfl

/-- **Where validation reports no error, ownership is total and unique exactly
when no exempted path is described by two Descriptions.** -/
theorem coverageLaw_iff (h : NoError (treeCoverage contract tree current)) :
    CoverageLaw contract tree current ↔ ExemptUncontested contract tree current := by
  constructor
  · intro hlaw entry hentry hgoverned hexempt
    exact (requireOneDescription_of_exempted (h.regular hentry hgoverned) hexempt).mp
      (hlaw.exempted entry hentry hgoverned hexempt)
  · intro huncontested
    constructor
    · intro entry hentry hgoverned hexempt
      obtain ⟨owner, howner, hmem⟩ := h.owner hentry hgoverned hexempt
      exact ⟨owner, howner,
        filter_eq_singleton (·.path) (nodup_coverage contract tree current) hmem,
        requireOneDescription_of_covered hmem⟩
    · intro entry hentry hgoverned hexempt
      exact (requireOneDescription_of_exempted (h.regular hentry hgoverned) hexempt).mpr
        (huncontested entry hentry hgoverned hexempt)

end

/-! ## An exempted path two Descriptions describe -/

/-- A repository that exempts one directory of its implementation root. -/
def exemptingContract : RepositoryContract where
  behaviorRoot := "records/behavior"
  assuranceRoot := "records/assurance"
  blueprintRoot := "records/blueprint"
  checkRoot := "records/check"
  disciplineRoot := "records/discipline"
  atlasRoot := "atlas"
  governedImplementationRoots := ["src"]
  coverageExemptions := [⟨"src/generated", "generated"⟩]

/-- One generated file. -/
def generatedTree : GitTree where
  entries := [⟨"src/generated/a.ts", "blob", "100644", "0000000000000000000000000000000000000001"⟩]
  distinct := by decide

/-- A Description of the source tree. -/
def sourceDescription (id : String) (idKind : "description.".toList <+: id.toList)
    (idText : NulFreeText id) : KnowledgeRecord where
  path := "src/_" ++ id ++ ".desc.md"
  frontMatter :=
    { id := id
      status := .current
      revision := 1
      supersedes := none
      conflicts := []
      spec := .description [⟨"src", .tree, []⟩]
      idKind := idKind
      revisionRange := firstRevision_inRange
      idText := idText
      factTexts := by decide
      uniqueFacts := by decide }
  sourceDigest := ""
  semanticDigest := ""

/-- Two of them. -/
def overlappingRecords : CurrentRecords where
  records := [sourceDescription "description.left" (by decide) (by decide),
    sourceDescription "description.right" (by decide) (by decide)]
  distinct := by decide

/-- One Description alone. -/
def oneDescription : CurrentRecords where
  records := [sourceDescription "description.left" (by decide) (by decide)]
  distinct := by decide

/-- One Description of the generated file is no trouble. -/
theorem coverageLaw_oneDescription :
    CoverageLaw exemptingContract generatedTree oneDescription := by
  refine (coverageLaw_iff (by decide +kernel)).mpr fun _ _ _ _ left right hleft hright => ?_
  have hl := List.mem_singleton.mp (List.mem_of_mem_filter hleft.1)
  have hr := List.mem_singleton.mp (List.mem_of_mem_filter hright.1)
  rw [hl, hr]

/-- **Validation reports no error of the overlap, and the lookup refuses it.** -/
theorem not_coverageLaw_overlapping :
    NoError (treeCoverage exemptingContract generatedTree overlappingRecords)
      ∧ ¬ CoverageLaw exemptingContract generatedTree overlappingRecords := by
  refine ⟨by decide +kernel, fun hlaw => ?_⟩
  have hrefused : (requireOneDescription
      (coveredKnowledge exemptingContract generatedTree overlappingRecords)
      "src/generated/a.ts").toOption = none := by decide +kernel
  obtain ⟨id, hid⟩ := hlaw.exempted _ List.mem_cons_self (by decide +kernel) (by decide +kernel)
  rw [show requireOneDescription _ "src/generated/a.ts" = .ok id from hid] at hrefused
  cases hrefused

end Knowledge
