import Lifecycle.RetainedBoundaries

/-!
# The Checks of an admitted boundary

Boundary finalization admits the boundary a reconnaissance proposes when its
artifacts and effects leave the separately maintained roots alone, the
contract has the Check Bindings it selects, and its baseline Checks can be run
(`admitBoundary`). Evaluation selects the final Checks of the admitted boundary
by rules of its own (`finalCheckSelections`), and starting one of them applies
some more (`validateSelection`).
-/

open Fallible Json ControlModel IntegrationAssessment

namespace WorkProduct

/-! ## The repository contract -/

/-- **An installed Check Binding.** -/
structure CheckBinding where
  id : String
  checkIds : List String
  allowedModalities : List CheckModality
  implementationDigest : Sha256Digest
  digest : Sha256Digest
  identified : isText id 160 = true ∧ matchesIdPattern id = true
  digested : isSha256 digest = true ∧ isSha256 implementationDigest = true

/-- **What boundaries are admitted under**: the root of adopted Discipline
content, and the installed Check Bindings under their identities. -/
structure BoundaryContract where
  disciplineRoot : String
  checkBindings : OrderedMap String CheckBinding
  keyed : ∀ e ∈ checkBindings.entries, e.2.id = e.1

/-- `contract.atlas.root`. -/
def atlasRoot : String := "atlas"

/-- `fail`, of the finalization of a boundary. -/
def finalizationFailure (code message : String) : FoundationError :=
  lifecycleError s!"lifecycle.work-boundary-finalization-v7.{code}" message

/-! ## What a boundary must leave alone -/

/-- **`pathWithin`.** -/
def pathWithin (path root : String) : Bool :=
  decide (path = root) || (root ++ "/").toList.isPrefixOf path.toList

/-- **`isDisciplineMaintenancePath`.** -/
def isDisciplineMaintenancePath (contract : BoundaryContract) (path : String) : Bool :=
  pathWithin path contract.disciplineRoot

/-- One segment of a path that is normalized, after the segments before it. -/
def normalizeSegment (aboveRoot : Bool) (segments : List (List Char)) (segment : List Char) :
    List (List Char) :=
  if segment = [] ∨ segment = ['.'] then segments
  else if segment = ['.', '.'] then
    match segments.getLast? with
    | some last => if last = ['.', '.'] then segments ++ [segment] else segments.dropLast
    | none => if aboveRoot then [segment] else []
  else segments ++ [segment]

/-- **`posix.normalize`.** -/
def posixNormalize (path : String) : String :=
  let absolute := path.toList.head? = some '/'
  let trailing := path.toList.getLast? = some '/'
  let segments := (path.toList.splitOn '/').foldl (normalizeSegment (decide ¬ absolute)) []
  let body := "/".intercalate (segments.map String.ofList)
  if path = "" then "."
  else if body = "" then if absolute then "/" else if trailing then "./" else "."
  else (if absolute then "/" else "") ++ body ++ (if trailing then "/" else "")

/-- An artifact is outside adopted Discipline content and the Atlas. -/
def assertReadOnlyArtifact (contract : BoundaryContract) (a : BoundaryArtifact) :
    Except FoundationError Unit := do
  failIf (isDisciplineMaintenancePath contract a.path = true
      ∨ pathWithin contract.disciplineRoot a.path = true)
    (lifecycleError "lifecycle.discipline.candidate-mutation"
      "A Work Boundary cannot select adopted Discipline content or its Registry as an Artifact")
  failIf (pathWithin a.path atlasRoot = true)
    (lifecycleError "lifecycle.atlas.candidate-mutation"
      "A Work Boundary cannot select any path under the separately maintained Atlas root")

/-- The path scope of a local effect. -/
def localTarget (e : BoundaryEffect) : Option String :=
  if e.kind = .localRead ∨ e.kind = .localWrite then
    some (posixNormalize (String.ofList (e.target.toList.map fun c => if c = '\\' then '/' else c)))
  else none

/-- A scope that holds the whole repository, or lies outside of it. -/
def selectsAround (target : String) : Bool :=
  decide (target = "." ∨ target = "..") || "../".toList.isPrefixOf target.toList

/-- A scope within the repository that a predicate selects. -/
def selectsWithin (target : String) (within : Bool) : Bool :=
  decide (target.toList.head? ≠ some '/') && within

/-- An effect is not directed at adopted Discipline content or the Atlas. -/
def assertReadOnlyEffect (contract : BoundaryContract) (e : BoundaryEffect) :
    Except FoundationError Unit := do
  let selectsDiscipline := (localTarget e).any fun target => selectsAround target
    || selectsWithin target (isDisciplineMaintenancePath contract target
      || pathWithin contract.disciplineRoot target)
  let selectsAtlas := (localTarget e).any fun target => selectsAround target
    || selectsWithin target (pathWithin target atlasRoot || pathWithin atlasRoot target)
  failIf (selectsAtlas = true ∨ localTarget e = none ∧ pathWithin e.target atlasRoot = true)
    (lifecycleError "lifecycle.atlas.candidate-mutation"
      "A Work Boundary cannot direct an effect at the separately maintained Atlas root")
  failIf (selectsDiscipline = true
      ∨ localTarget e = none ∧ isDisciplineMaintenancePath contract e.target = true)
    (lifecycleError "lifecycle.discipline.candidate-mutation"
      "A Work Boundary cannot direct an effect at adopted Discipline content or its Registry")

/-- **`assertAtlasReadOnlyWorkProduct`.** -/
def assertAtlasReadOnlyWorkProduct (contract : BoundaryContract) (b : WorkBoundary) :
    Except FoundationError Unit := do
  b.mandate.artifacts.forM (assertReadOnlyArtifact contract)
  b.mandate.effects.forM (assertReadOnlyEffect contract)

/-! ## The selected bindings -/

/-- One selected binding of a Check. -/
def selectBinding (contract : BoundaryContract) (checkKnowledgeId : String)
    (selected : OrderedMap String CheckBindingFact) (bindingId : String) :
    Except FoundationError (OrderedMap String CheckBindingFact) := do
  let absent := finalizationFailure "check-binding"
    s!"Selected Check Binding {bindingId} does not bind {checkKnowledgeId}"
  let binding ← orFail (contract.checkBindings.get bindingId) absent
  failIf (binding.id ≠ bindingId ∨ checkKnowledgeId ∉ binding.checkIds) absent
  failIf ((selected.get bindingId).any (fun prior =>
      decide (prior.checkKnowledgeId ≠ checkKnowledgeId)) = true)
    (finalizationFailure "check-binding"
      s!"Check Binding {bindingId} is selected for conflicting Check definitions")
  pure (selected.set bindingId
    ⟨binding.id, checkKnowledgeId, binding.digest, binding.implementationDigest⟩)

/-- The bindings a Check selects. -/
def selectBindings (contract : BoundaryContract) (selected : OrderedMap String CheckBindingFact)
    (c : BoundaryCheck) : Except FoundationError (OrderedMap String CheckBindingFact) :=
  replay (selectBinding contract c.checkKnowledgeId) selected c.bindingIds

/-- **`selectedCheckBindingFacts`.** -/
def selectedCheckBindingFacts (contract : BoundaryContract) (b : WorkBoundary) :
    Except FoundationError (List CheckBindingFact) := do
  let selected ← replay (selectBindings contract) OrderedMap.empty b.mandate.checks
  pure (sortedById (·.id) selected.values)

/-! ## The baseline Checks -/

/-- `MAXIMUM_BASELINE_CHECKS`. -/
def maximumBaselineChecks : Nat := 4096

/-- The one element of a list that has one. -/
def onlyOne {α : Type} : List α → Option α
  | [a] => some a
  | _ => none

/-- One baseline Check, after the selections before it. -/
def preflightBaselineSelection (contract : BoundaryContract) (selectionIds : List String)
    (c : BoundaryCheck) : Except FoundationError (List String) :=
  if c.baselineRequired = false then .ok selectionIds
  else do
    failIf (c.id ∈ selectionIds) (finalizationFailure "baseline-check"
      "Boundary semantics repeat one baseline Check selection")
    let bindingId ← orFail (onlyOne c.bindingIds) (finalizationFailure "check-binding"
      "Each proposed baseline Check requires exactly one installed Binding")
    let incompatible := finalizationFailure "check-binding"
      ("Proposed baseline Check " ++ c.id ++ " is incompatible with installed Binding " ++ bindingId)
    let binding ← orFail (contract.checkBindings.get bindingId) incompatible
    failIf (binding.id ≠ bindingId ∨ c.checkKnowledgeId ∉ binding.checkIds
      ∨ c.modality ∉ binding.allowedModalities) incompatible
    pure (selectionIds ++ [c.id])

/-- **`preflightBaselineSelections`.** -/
def preflightBaselineSelections (contract : BoundaryContract) (b : WorkBoundary) :
    Except FoundationError Unit := do
  failIf ((missingRequiredCheckPhase b.mandate.checks).isSome = true)
    (finalizationFailure "baseline-check" ("Boundary semantics propose no required "
      ++ (missingRequiredCheckPhase b.mandate.checks).getD "" ++ " Check"))
  let selectionIds ← replay (preflightBaselineSelection contract) [] b.mandate.checks
  failIf (maximumBaselineChecks < selectionIds.length) (finalizationFailure "baseline-check"
    s!"Boundary semantics exceed the {maximumBaselineChecks}-Check baseline bound")

/-! ## Admission -/

/-- **A current Knowledge record.** -/
structure KnowledgeRecord where
  id : String
  revision : Nat
  sourceDigest : Sha256Digest
  semanticDigest : Sha256Digest
  identified : isKnowledgeId id = true
  positive : 1 ≤ revision ∧ revision ≤ 2147483647
  digested : isSha256 sourceDigest = true ∧ isSha256 semanticDigest = true

def KnowledgeRecord.fact (k : KnowledgeRecord) : KnowledgeFact :=
  ⟨k.id, k.revision, k.sourceDigest, k.semanticDigest⟩

/-- **What the finalization of a boundary observes** of the repository and of
the retained reconnaissance. -/
structure FinalizationBasis where
  records : List KnowledgeRecord
  adoptions : List KnowledgeFact
  workTypes : List String
  externalSources : List SourceFact
  capabilityProfileId : String
  projectionProfile : ProjectionProfile
  citedKnowledge : List Sha256Digest
  citedSources : List (String × Sha256Digest)

def FinalizationBasis.boundaryBasis (basis : FinalizationBasis)
    (checkBindings : List CheckBindingFact) : BoundaryBasis where
  knowledge := basis.records.map (·.fact)
  adoptions := basis.adoptions
  workTypes := basis.workTypes
  externalSources := basis.externalSources
  capabilityProfileId := basis.capabilityProfileId
  projectionProfile := basis.projectionProfile
  checkBindings := checkBindings
  citedKnowledge := basis.citedKnowledge
  citedSources := basis.citedSources

/-- **The admission of a boundary**, before it is retained. -/
def admitBoundary (contract : BoundaryContract) (basis : FinalizationBasis) (b : WorkBoundary) :
    Except FoundationError RetainedMandate := do
  assertAtlasReadOnlyWorkProduct contract b
  let checkBindings ← selectedCheckBindingFacts contract b
  preflightBaselineSelections contract b
  normalizeMandate (basis.boundaryBasis checkBindings) b

/-! ## Evaluation -/

/-- `fail`, of the preparation of an evaluation. -/
def preparationFailure (code message : String) : FoundationError :=
  lifecycleError s!"lifecycle.evaluation-preparation-v7.{code}" message

/-- `digest`, of a module with its own failures. -/
def exactDigest (failure : String → String → FoundationError) (value label : String) :
    Except FoundationError Sha256Digest := do
  failIf (isSha256 value = false)
    (failure "retained-fact" s!"{label} must be one lowercase SHA-256 digest")
  pure value

/-- **`FinalCheckSelection`.** -/
structure FinalCheckSelection where
  id : String
  definitionId : String
  definition : KnowledgeFact
  bindingId : String
  binding : CheckBinding

/-- One final Check, after the selections before it. -/
def finalCheckSelection (contract : BoundaryContract) (selections : List FinalCheckSelection)
    (k : RetainedCheck) : Except FoundationError (List FinalCheckSelection) :=
  if k.check.finalRequired = false then .ok selections
  else do
    let id ← controlIdentifier k.check.id "Work Boundary Check identity"
    failIf (id ∈ selections.map (·.id))
      (preparationFailure "check-selection" s!"Work Boundary repeats final Check selection {id}")
    let definitionId ← controlIdentifier k.definition.id "Work Boundary Check Definition identity"
    failIf (k.definition.revision < 1 ∨ maxSafeInteger < k.definition.revision)
      (preparationFailure "check-selection"
        "A final Check requires its exact positive Definition revision")
    let sourceDigest ← exactDigest preparationFailure k.definition.sourceDigest
      "Check Definition source digest"
    let semanticDigest ← exactDigest preparationFailure k.definition.semanticDigest
      "Check Definition semantic digest"
    let selected ← orFail (onlyOne k.bindings) (preparationFailure "check-binding-cardinality"
      "Each final Check selection requires exactly one retained Check Binding under the current Check Receipt contract")
    let bindingId ← controlIdentifier selected.id "Work Boundary Check Binding identity"
    let unregistered := preparationFailure "check-binding"
      s!"Final Check selection {id} does not bind one exact registered mechanism"
    let binding ← orFail (contract.checkBindings.get bindingId) unregistered
    failIf (binding.id ≠ bindingId) unregistered
    let digest ← exactDigest preparationFailure selected.digest "Work Boundary Check Binding digest"
    failIf (binding.digest ≠ digest) unregistered
    let implementationDigest ← exactDigest preparationFailure selected.implementationDigest
      "Work Boundary Check Binding implementation digest"
    failIf (binding.implementationDigest ≠ implementationDigest ∨ definitionId ∉ binding.checkIds)
      unregistered
    let definition := ⟨definitionId, k.definition.revision, sourceDigest, semanticDigest⟩
    pure (selections ++ [⟨id, definitionId, definition, bindingId, binding⟩])

/-- **`finalCheckSelections`.** -/
def finalCheckSelections (contract : BoundaryContract) (m : RetainedMandate) :
    Except FoundationError (List FinalCheckSelection) := do
  let selections ← replay (finalCheckSelection contract) [] m.checks
  failIf (selections = [])
    (preparationFailure "final-checks" "Evaluation requires at least one final Check selection")
  pure (sortedById (·.id) selections)

/-! ## Starting a Check -/

/-- `fail`, of the operation of a Check. -/
def operationFailure (code message : String) : FoundationError :=
  lifecycleError s!"lifecycle.check-operation-v7.{code}" message

/-- **`ExactSelection`.** -/
structure ExactSelection where
  modality : CheckModality
  requestedConditions : List String
  definition : KnowledgeFact

/-- **`validateSelection`.** -/
def validateSelection (m : RetainedMandate) (selectionId bindingId : String)
    (binding : CheckBinding) : Except FoundationError ExactSelection := do
  let selected ← orFail (onlyOne (m.checks.filter fun k => k.check.id = selectionId))
    (operationFailure "selection" s!"Work Boundary does not select exactly one {selectionId}")
  let selectedBinding ← orFail (onlyOne (selected.bindings.filter fun fact => fact.id = bindingId))
    (operationFailure "binding" s!"Work Boundary does not select exactly one {bindingId}")
  failIf (binding.id ≠ bindingId ∨ binding.digest ≠ selectedBinding.digest
      ∨ binding.implementationDigest ≠ selectedBinding.implementationDigest)
    (operationFailure "substitution"
      "Caller-supplied Check Binding differs from the exact retained selection")
  failIf (selected.check.modality ∉ binding.allowedModalities) (operationFailure "substitution"
    "Caller-supplied Check Binding does not allow the exact selected modality")
  failIf (selected.definition.id ∉ binding.checkIds) (operationFailure "substitution"
    "Caller-supplied Check Binding does not bind the selected Check Definition")
  failIf (selected.definition.revision < 1 ∨ maxSafeInteger < selected.definition.revision)
    (operationFailure "retained-fact"
      "Work Boundary Check Definition revision must be one positive safe integer")
  let sourceDigest ← exactDigest operationFailure selected.definition.sourceDigest
    "Work Boundary Check Definition source digest"
  let semanticDigest ← exactDigest operationFailure selected.definition.semanticDigest
    "Work Boundary Check Definition semantic digest"
  pure ⟨selected.check.modality, selected.check.environmentRequirements,
    ⟨selected.definition.id, selected.definition.revision, sourceDigest, semanticDigest⟩⟩

end WorkProduct
