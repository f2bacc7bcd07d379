import Lifecycle.EntryPaths

/-!
# The inventory of an output Manifest

`validateManifestInventory` compares whole paths only: no two entries have one
folded path, and no entry has the exact path of another one's directory. Two
directories that fold to one text, or a file and a directory that do, are never
compared. An Input Set refuses both, so the paths of an accepted Manifest obey
the law of an Input Set exactly when no directory of them is folded to another
spelling (`entryPathLaw_iff`).
-/

open Fallible Json CodeUnits CanonicalDomain InputSet

namespace OutputValidation

/-! ## Manifests, specifications and profiles -/

/-- `FoundationExecutionOutputPurposeV1`. -/
inductive OutputPurpose
  | candidateOutput
  | agentWorkProduct
  | checkProof
  | rawProviderOutput
  | rawCheckOutput
  | operationalArtifact
deriving DecidableEq

/-- The name of a purpose. -/
def OutputPurpose.name : OutputPurpose → String
  | .candidateOutput => "candidate-output"
  | .agentWorkProduct => "agent-work-product"
  | .checkProof => "check-proof"
  | .rawProviderOutput => "raw-provider-output"
  | .rawCheckOutput => "raw-check-output"
  | .operationalArtifact => "operational-artifact"

inductive ModeClass
  | regular
  | executable
deriving DecidableEq

def ModeClass.name : ModeClass → String
  | .regular => "regular"
  | .executable => "executable"

/-- `FoundationExecutionOutputManifestEntryV1`. -/
structure ManifestEntry where
  path : CodeUnits
  purpose : OutputPurpose
  mediaType : CodeUnits
  modeClass : ModeClass
  byteLength : Nat
  digest : Sha256Digest

/-- The part of `FoundationExecutionOutputManifestV1` the inventory is judged by. -/
structure OutputManifest where
  entries : List ManifestEntry
  entryCount : Nat
  aggregateByteLength : Nat
  entryInventoryDigest : Sha256Digest

/-- `FoundationExecutionDeclaredOutputRootV1`. -/
structure DeclaredRoot where
  path : CodeUnits
  purpose : OutputPurpose
  required : Bool
  allowedModeClasses : List ModeClass
  maximumEntries : Nat
  maximumBytes : Nat

/-- The kind of an owner. -/
inductive OwnerKind
  | agentAttempt
  | check
deriving DecidableEq

inductive AgentRole
  | builder
  | reviewer
  | reconnaissance
deriving DecidableEq

/-- An operation: an Agent Attempt has a role. -/
inductive OperationKind
  | agentAttempt (role : AgentRole)
  | check
deriving DecidableEq

/-- The part of `FoundationExecutionSpecificationV1` that is read. -/
structure OutputSpecification where
  owner : OwnerKind
  operation : OperationKind
  candidateWrites : Bool
  outputEntries : Nat
  outputBytes : Nat
  outputEntryBytes : Nat
  declaredOutputRoots : List DeclaredRoot
  allowedModeClasses : List ModeClass

/-- The part of `FoundationExecutionBackendProfileV1` that is read. -/
structure BackendProfile where
  maximumOutputEntries : Nat
  maximumOutputBytes : Nat
  maximumOutputEntryBytes : Nat
  allowedModeClasses : List ModeClass

/-- What the validation throws: an error of its own, or one of `canonicalJson`. -/
inductive OutputRefusal
  | foundation (error : FoundationError)
  | canonical (error : CanonicalError)
deriving DecidableEq

/-- `fail`. -/
def outputFailure (code message : String) : OutputRefusal :=
  .foundation (lifecycleError ("lifecycle.execution.output-validation." ++ code) message)

/-! ## The tests of one entry -/

/-- `text.includes(part)`. -/
def includesText (text part : CodeUnits) : Bool := text.tails.any part.isPrefixOf

/-- `/%2f|%5c/iu.test(text)`. -/
def escapesSeparator (text : CodeUnits) : Bool :=
  [[37, 50, 102], [37, 50, 70], [37, 53, 99], [37, 53, 67]].any (includesText text)

/-- **`assertPath`**: the folded path of the entry is a new one. -/
def assertPath (F : UnitFoldings) (path : CodeUnits) (aliases : List CodeUnits) :
    Except OutputRefusal (List CodeUnits) := do
  failIf ((encodeUtf8 path).length > 4096 ∨ 63 ∈ path ∨ 35 ∈ path ∨ escapesSeparator path = true)
    (outputFailure "path" "Execution Output entry path violates portable repository-path rules")
  failIf (F.alias path ∈ aliases)
    (outputFailure "path-alias"
      "Execution Output entry paths contain a case or normalization alias")
  return aliases ++ [F.alias path]

/-- `candidateRepositoryPath`. -/
def candidateRepositoryPath (entryPath declaredRootPath : CodeUnits) :
    Except OutputRefusal CodeUnits := do
  failIf ((declaredRootPath ++ [47]).isPrefixOf entryPath = false)
    (outputFailure "candidate-path"
      "Candidate output entries must be files strictly below the one declared Candidate root")
  let repositoryPath := entryPath.drop (declaredRootPath ++ [47]).length
  failIf (repositoryPath.length = 0 ∨ (encodeUtf8 repositoryPath).length > 4096
      ∨ repositoryPath.head? = some 47 ∨ 92 ∈ repositoryPath
      ∨ includesText repositoryPath [47, 47] = true ∨ 63 ∈ repositoryPath
      ∨ 35 ∈ repositoryPath ∨ escapesSeparator repositoryPath = true
      ∨ ∃ part ∈ pathSegments repositoryPath, part = [] ∨ part = [46] ∨ part = [46, 46])
    (outputFailure "candidate-path"
      "Candidate output does not map to one nonempty normalized repository path")
  return repositoryPath

/-- `candidateOutputRootPath`. -/
def candidateOutputRootPath (specification : OutputSpecification) :
    Except OutputRefusal (Option CodeUnits) :=
  match specification.declaredOutputRoots.filter (·.purpose = .candidateOutput) with
  | [] => .ok none
  | [root] => .ok (some root.path)
  | _ => .error (outputFailure "candidate-writes"
      "Candidate output does not bind one exact complete-tree root")

/-- `OUTPUT_PURPOSES_BY_OWNER`. -/
def outputPurposesByOwner : OwnerKind → List OutputPurpose
  | .agentAttempt => [.candidateOutput, .agentWorkProduct, .rawProviderOutput, .operationalArtifact]
  | .check => [.checkProof, .rawCheckOutput, .operationalArtifact]

/-- `assertPurposeOwner`. -/
def assertPurposeOwner (purpose : OutputPurpose) (specification : OutputSpecification) :
    Except OutputRefusal Unit := do
  failIf (purpose ∉ outputPurposesByOwner specification.owner)
    (outputFailure "purpose"
      "Execution Output purpose does not belong to the selected operation owner")
  failIf (purpose = .candidateOutput ∧ (specification.candidateWrites = false
      ∨ specification.owner ≠ .agentAttempt
      ∨ specification.operation ≠ .agentAttempt .builder))
    (outputFailure "candidate-writes"
      "Candidate output requires an exact builder Candidate-write capability")

/-- `safeAdd`. -/
def safeAdd (left right : Nat) (label : String) : Except OutputRefusal Nat := do
  failIf (maxSafeInteger < left + right)
    (outputFailure "limit" (label ++ " exceeds the safe integer domain"))
  return left + right

/-- The directories of a path, in the order they are looked up in. -/
def directoriesOf (path : CodeUnits) : List CodeUnits :=
  (List.range' 1 ((pathSegments path).length - 1)).map (joinedTo (pathSegments path))

/-- `assertNoPathPrefixCollisions`. -/
def assertNoPathPrefixCollisions (paths : List CodeUnits) : Except OutputRefusal Unit :=
  failIf (∃ path ∈ paths, ∃ start ∈ directoriesOf path, start ∈ paths)
    (outputFailure "path-alias" "Execution Output inventories a file as another file's directory")

/-! ## `validateManifestInventory` -/

/-- `RootCounters`. -/
structure RootCounters where
  entries : Nat
  bytes : Nat

/-- The state of the loop over the entries. -/
structure InventoryState where
  previous : Option CodeUnits
  aliases : List CodeUnits
  paths : List CodeUnits
  counters : List RootCounters
  aggregate : Nat

/-- The roots an entry lies at or below. -/
def matchingRoots (roots : List DeclaredRoot) (path : CodeUnits) : List (DeclaredRoot × Nat) :=
  roots.zipIdx.filter fun r => path = r.1.path || (r.1.path ++ [47]).isPrefixOf path

/-- The account of the declared root of an entry. -/
def countEntry (specification : OutputSpecification) (candidateRootPath : Option CodeUnits)
    (counters : List RootCounters) (entry : ManifestEntry) :
    Except OutputRefusal (List RootCounters) :=
  match matchingRoots specification.declaredOutputRoots entry.path with
  | [(root, rootIndex)] => do
    failIf (entry.purpose ≠ root.purpose)
      (outputFailure "purpose"
        "Execution Output entry purpose differs from its declared output root")
    failIf (entry.modeClass ∉ root.allowedModeClasses)
      (outputFailure "mode"
        "Execution Output entry mode is not allowed by its declared output root")
    if entry.purpose = .candidateOutput then
      match candidateRootPath with
      | none => throw (outputFailure "candidate-writes"
          "Candidate output differs from its exact declared root")
      | some candidateRootPath =>
        failIf (root.path ≠ candidateRootPath)
          (outputFailure "candidate-writes"
            "Candidate output differs from its exact declared root")
        let _ ← candidateRepositoryPath entry.path candidateRootPath
    let counter := counters.getD rootIndex ⟨0, 0⟩
    let bytes ← safeAdd counter.bytes entry.byteLength "Declared output root bytes"
    failIf (root.maximumEntries < counter.entries + 1 ∨ root.maximumBytes < bytes)
      (outputFailure "root-limit"
        "Execution Output entry exceeds its declared output-root bounds")
    return counters.set rootIndex ⟨counter.entries + 1, bytes⟩
  | _ => .error (outputFailure "root"
      "Execution Output entry does not match exactly one declared output root")

/-- One entry of the loop. -/
def validateEntry (F : UnitFoldings) (specification : OutputSpecification)
    (profile : BackendProfile) (candidateRootPath : Option CodeUnits) (state : InventoryState)
    (entry : ManifestEntry) : Except OutputRefusal InventoryState := do
  failIf (state.previous.any (pointsLe entry.path) = true)
    (outputFailure "entry-order"
      "Execution Output Manifest entries are not strictly path ordered")
  let aliases ← assertPath F entry.path state.aliases
  let aggregate ← safeAdd state.aggregate entry.byteLength "Execution Output aggregate bytes"
  failIf (specification.outputEntryBytes < entry.byteLength
      ∨ profile.maximumOutputEntryBytes < entry.byteLength)
    (outputFailure "entry-limit"
      "Execution Output entry exceeds its effective per-stream byte limit")
  failIf (entry.modeClass ∉ specification.allowedModeClasses
      ∨ entry.modeClass ∉ profile.allowedModeClasses)
    (outputFailure "mode" "Execution Output entry mode is not selected by the output policies")
  assertPurposeOwner entry.purpose specification
  let counters ← countEntry specification candidateRootPath state.counters entry
  return { previous := some entry.path, aliases := aliases, paths := state.paths ++ [entry.path]
           counters := counters, aggregate := aggregate }

/-- One declared root, after the entries. -/
def assertRoot (specification : OutputSpecification) (root : DeclaredRoot)
    (counter : RootCounters) : Except OutputRefusal Unit := do
  assertPurposeOwner root.purpose specification
  failIf (root.required = true ∧ counter.entries = 0)
    (outputFailure "required-root" "Execution Output omits one required declared output root")

/-- An entry as its inventory digest sees it. -/
def ManifestEntry.value (entry : ManifestEntry) : HostValue :=
  .object [(sourceUnits "path", .string entry.path),
    (sourceUnits "entryKind", .string (sourceUnits "file")),
    (sourceUnits "purpose", .string (sourceUnits entry.purpose.name)),
    (sourceUnits "mediaType", .string entry.mediaType),
    (sourceUnits "modeClass", .string (sourceUnits entry.modeClass.name)),
    (sourceUnits "byteLength", .number (.integer entry.byteLength)),
    (sourceUnits "digest", .string (sourceUnits entry.digest))]

/-- `digestCanonical(entries)`. -/
def inventoryDigest (entries : List ManifestEntry) : Except OutputRefusal Sha256Digest :=
  match canonicalJson (.array (entries.map ManifestEntry.value)) with
  | .ok text => .ok (sha256Bytes (encodeUtf8 text))
  | .error error => .error (.canonical error)

/-- **`validateManifestInventory`.** -/
def validateManifestInventory (F : UnitFoldings) (manifest : OutputManifest)
    (specification : OutputSpecification) (profile : BackendProfile) :
    Except OutputRefusal Unit := do
  let candidateRootPath ← candidateOutputRootPath specification
  let maximumEntries := min specification.outputEntries profile.maximumOutputEntries
  let maximumBytes := min specification.outputBytes profile.maximumOutputBytes
  failIf (maximumEntries < manifest.entries.length ∨ maximumEntries < manifest.entryCount)
    (outputFailure "entry-limit" "Execution Output Manifest exceeds its effective entry limit")
  failIf (maximumBytes < manifest.aggregateByteLength)
    (outputFailure "aggregate-limit" "Execution Output Manifest exceeds its effective byte limit")
  failIf (manifest.entryCount ≠ manifest.entries.length)
    (outputFailure "entry-count"
      "Execution Output Manifest entry count does not match its inventory")
  let digest ← inventoryDigest manifest.entries
  failIf (manifest.entryInventoryDigest ≠ digest)
    (outputFailure "inventory-digest"
      "Execution Output Manifest inventory digest does not match its entries")
  let state ← replay (validateEntry F specification profile candidateRootPath)
    { previous := none, aliases := [], paths := []
      counters := specification.declaredOutputRoots.map fun _ => ⟨0, 0⟩, aggregate := 0 }
    manifest.entries
  assertNoPathPrefixCollisions state.paths
  failIf (state.aggregate ≠ manifest.aggregateByteLength)
    (outputFailure "aggregate-count"
      "Execution Output Manifest aggregate bytes do not match its entries")
  let _ ← replay (fun _ r => assertRoot specification r.1 r.2) ()
    (specification.declaredOutputRoots.zip state.counters)

/-! ## What an accepted Manifest keeps apart -/

/-- **What the loop remembers** of the entries behind it. -/
structure Remembered (F : UnitFoldings) (entries : List ManifestEntry) (state : InventoryState) :
    Prop where
  previous : state.previous = (entries.map ManifestEntry.path).getLast?
  paths : state.paths = entries.map ManifestEntry.path
  aliases : state.aliases = entries.map fun entry => F.alias entry.path
  distinct : state.aliases.Nodup
  ordered : (entries.map ManifestEntry.path).Pairwise PointsLt

theorem Remembered.step {F : UnitFoldings} {specification : OutputSpecification}
    {profile : BackendProfile} {root : Option CodeUnits} {entries : List ManifestEntry}
    {entry : ManifestEntry} {state next : InventoryState} (h : Remembered F entries state)
    (hstep : validateEntry F specification profile root state entry = .ok next) :
    Remembered F (entries ++ [entry]) next := by
  simp only [validateEntry, assertPath, bind_eq_ok, failIf_eq_ok, exists_unit, pure_eq_ok]
    at hstep
  obtain ⟨hbefore, _, ⟨-, hnew, rfl⟩, _, -, -, -, -, _, -, rfl⟩ := hstep
  constructor
  · rw [List.map_append, List.map_singleton, List.getLast?_concat]
  · rw [h.paths, List.map_append, List.map_singleton]
  · rw [h.aliases, List.map_append, List.map_singleton]
  · rw [List.nodup_append]
    refine ⟨h.distinct, List.nodup_singleton _, ?_⟩
    intro a ha b hb hab
    rw [List.mem_singleton.mp hb] at hab
    exact hnew (hab ▸ ha)
  · rw [List.map_append, List.map_singleton, ← List.isChain_iff_pairwise, List.isChain_append]
    refine ⟨List.isChain_iff_pairwise.mpr h.ordered, .singleton _, fun p hp q hq => ?_⟩
    obtain rfl : entry.path = q := by simpa using hq
    exact previous_free_iff.mp hbefore p (h.previous ▸ hp)

theorem Remembered.run {F : UnitFoldings} {specification : OutputSpecification}
    {profile : BackendProfile} {root : Option CodeUnits} {counters : List RootCounters}
    {entries : List ManifestEntry} {state : InventoryState}
    (h : replay (validateEntry F specification profile root)
      { previous := none, aliases := [], paths := [], counters := counters, aggregate := 0 }
      entries = .ok state) : Remembered F entries state := by
  induction entries using List.reverseRecOn generalizing state with
  | nil =>
    rw [replay_nil, Except.ok.injEq] at h
    subst h
    exact ⟨rfl, rfl, rfl, .nil, .nil⟩
  | append_singleton entries entry ih =>
    obtain ⟨before, hbefore, hstep⟩ := replay_snoc_eq_ok.mp h
    exact (ih hbefore).step hstep

theorem filesOnly_of_accepted {paths : List CodeUnits}
    (h : assertNoPathPrefixCollisions paths = .ok ()) : FilesOnly paths := by
  rw [assertNoPathPrefixCollisions, failIf_eq_ok] at h
  intro p hp q hq hdir
  obtain ⟨stop, hpos, hstop, rfl⟩ := exists_joinedTo_iff.mp (.inr hdir)
  have hlt := (directoryOf_joinedTo_iff hpos hstop).mp hdir
  refine h ⟨q, hq, _, List.mem_map_of_mem ?_, hp⟩
  rw [List.mem_range'_1]
  omega

/-- **No directory has two spellings**: what a directory of an entry folds to, no
other directory or file folds to. -/
def DirectoriesSpelledOnce (F : UnitFoldings) (paths : List CodeUnits) : Prop :=
  ∀ p ∈ paths, ∀ q ∈ paths, ∀ u v, DirectoryOf u p → PrefixOf v q → F.alias u = F.alias v → u = v

/-- **When the paths of an accepted Manifest obey the law of an Input Set.** -/
theorem entryPathLaw_iff (F : UnitFoldings) (manifest : OutputManifest)
    (specification : OutputSpecification) (profile : BackendProfile)
    (haccepted : validateManifestInventory F manifest specification profile = .ok ()) :
    EntryPathLaw F (manifest.entries.map ManifestEntry.path)
      ↔ DirectoriesSpelledOnce F (manifest.entries.map ManifestEntry.path) := by
  simp only [validateManifestInventory, bind_eq_ok, failIf_eq_ok, exists_unit] at haccepted
  obtain ⟨_, -, -, -, -, _, -, -, state, hloop, hfiles, -, -⟩ := haccepted
  have hstate := Remembered.run hloop
  have hdistinct : ∀ p ∈ manifest.entries.map ManifestEntry.path,
      ∀ q ∈ manifest.entries.map ManifestEntry.path, F.alias p = F.alias q → p = q := by
    have hnodup := hstate.distinct
    rw [hstate.aliases, show (fun entry : ManifestEntry => F.alias entry.path)
      = F.alias ∘ ManifestEntry.path from rfl, ← List.map_map] at hnodup
    exact fun p hp q hq => List.inj_on_of_nodup_map hnodup hp hq
  constructor
  · intro hlaw p hp q hq u v hu hv
    exact hlaw.spelled p hp q hq u v (.inr hu) hv
  · intro hdirectories
    refine ⟨hstate.ordered, ?_, ?_⟩
    · have hfree := filesOnly_of_accepted hfiles
      rwa [hstate.paths] at hfree
    · intro p hp q hq u v hu hv hfold
      obtain rfl | hu := hu
      · obtain rfl | hv := hv
        · exact hdistinct p hp q hq hfold
        · exact (hdirectories q hq p hp v p hv (.inl rfl) hfold.symm).symm
      · exact hdirectories p hp q hq u v hu hv hfold

/-! ## Two spellings of one directory -/

/-- The foldings on texts of ASCII characters. -/
def asciiFoldings : UnitFoldings where
  normalizeNFC text := text
  toLowerCase text := text.map fun u => if 65 ≤ u ∧ u ≤ 90 then u + 32 else u

/-- An operational artifact of one byte. -/
def sampleEntry (path : String) : ManifestEntry where
  path := sourceUnits path
  purpose := .operationalArtifact
  mediaType := sourceUnits "text/plain"
  modeClass := .regular
  byteLength := 1
  digest := "sha256:4bf5122f344554c53bde2ebb8cd2b7e3d1600ad631c385a5d7cce23c7785459a"

/-- `out/A/x` and `out/a/y`. -/
def sampleEntries : List ManifestEntry := [sampleEntry "out/A/x", sampleEntry "out/a/y"]

def sampleManifest : OutputManifest where
  entries := sampleEntries
  entryCount := 2
  aggregateByteLength := 2
  entryInventoryDigest := (inventoryDigest sampleEntries).toOption.getD ""

def sampleSpecification : OutputSpecification where
  owner := .check
  operation := .check
  candidateWrites := false
  outputEntries := 16
  outputBytes := 1024
  outputEntryBytes := 1024
  declaredOutputRoots := [{
    path := sourceUnits "out", purpose := .operationalArtifact, required := false
    allowedModeClasses := [.regular, .executable], maximumEntries := 16, maximumBytes := 1024 }]
  allowedModeClasses := [.regular, .executable]

def sampleProfile : BackendProfile where
  maximumOutputEntries := 16
  maximumOutputBytes := 1024
  maximumOutputEntryBytes := 1024
  allowedModeClasses := [.regular, .executable]

/-- The inventory has a digest. -/
theorem sampleDigest : inventoryDigest sampleEntries
    = .ok sampleManifest.entryInventoryDigest := by
  obtain ⟨text, htext⟩ : ∃ text, canonicalJson (.array (sampleEntries.map ManifestEntry.value))
      = .ok text := by
    have hok : (canonicalJson (.array (sampleEntries.map ManifestEntry.value))).isOk = true := by
      decide +kernel
    cases htext : canonicalJson (.array (sampleEntries.map ManifestEntry.value)) with
    | ok text => exact ⟨text, rfl⟩
    | error error =>
      rw [htext] at hok
      cases hok
  have hdigest : inventoryDigest sampleEntries = .ok (sha256Bytes (encodeUtf8 text)) := by
    rw [inventoryDigest, htext]
  rw [hdigest, sampleManifest, hdigest]
  rfl

theorem sampleManifest_accepted :
    validateManifestInventory asciiFoldings sampleManifest sampleSpecification sampleProfile
      = .ok () := by
  refine bind_eq_ok.mpr ⟨none, by decide +kernel, ?_⟩
  refine bind_eq_ok.mpr ⟨(), by decide +kernel, ?_⟩
  refine bind_eq_ok.mpr ⟨(), by decide +kernel, ?_⟩
  refine bind_eq_ok.mpr ⟨(), by decide +kernel, ?_⟩
  refine bind_eq_ok.mpr ⟨_, sampleDigest, ?_⟩
  refine bind_eq_ok.mpr ⟨(), failIf_neg fun h => h rfl, ?_⟩
  decide +kernel

/-- The two directories fold to one text. -/
theorem sampleEntries_not_spelledOnce :
    ¬ SpelledOnce asciiFoldings (sampleManifest.entries.map ManifestEntry.path) := by
  intro h
  have hspelled := h (sourceUnits "out/A/x") (by decide +kernel) (sourceUnits "out/a/y")
    (by decide +kernel) (sourceUnits "out/A") (sourceUnits "out/a")
    (.inr ⟨sourceUnits "x", by decide +kernel⟩) (.inr ⟨sourceUnits "y", by decide +kernel⟩)
    (by decide +kernel)
  exact absurd hspelled (by decide +kernel)

/-- **Two directories of one folded text are accepted.** -/
theorem sampleManifest_not_entryPathLaw :
    validateManifestInventory asciiFoldings sampleManifest sampleSpecification sampleProfile
        = .ok ()
      ∧ ¬ EntryPathLaw asciiFoldings (sampleManifest.entries.map ManifestEntry.path) :=
  ⟨sampleManifest_accepted, fun hlaw => sampleEntries_not_spelledOnce hlaw.spelled⟩

theorem sampleManifest_directories :
    ¬ DirectoriesSpelledOnce asciiFoldings (sampleManifest.entries.map ManifestEntry.path) := by
  intro h
  have hlaw := (entryPathLaw_iff asciiFoldings sampleManifest sampleSpecification sampleProfile
    sampleManifest_accepted).mpr h
  exact sampleEntries_not_spelledOnce hlaw.spelled

end OutputValidation
