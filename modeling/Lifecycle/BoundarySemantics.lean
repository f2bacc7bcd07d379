import Lifecycle.ProposalSections

/-!
# Compiling a Work Boundary

The semantic objects of a reconnaissance get their identities
(`assignIntrinsicIds`), the local handles they name are resolved to those
identities (`resolveLocal`), and the compiled objects are held against one
another: everything is to be reached by an acceptance proposition
(`compileBoundary`). The mandate of a Work Boundary takes the compiled
objects over (`normalizeMandate`).
-/

open Fallible Json ControlModel IntegrationAssessment

namespace WorkProduct

/-! ## Identities -/

/-- What the identity of a semantic object is the digest of. -/
def ParsedBoundaryObject.subject (o : ParsedBoundaryObject) : Json :=
  .object [("objectKind", .string o.objectKind.text),
    ("fields", .object (o.fields.map fun e => (e.1, .array (e.2.map .string)))),
    ("narrative", .string o.narrative)]

/-- **`semanticId`.** -/
def semanticId (kind : String) (value : Json) : Except FoundationError String := do
  let digest ← digestCanonical value
  pure (kind ++ ":" ++ String.ofList (digest.toList.drop "sha256:".length))

/-- The identities of local handles. -/
abbrev IdMap := List (String × String)

/-- **`assignIntrinsicIds`**, of the semantic objects. -/
def assignIntrinsicIds (objects : List ParsedBoundaryObject) : Except FoundationError IdMap := do
  let ids ← objects.mapM fun o => do
    let id ← semanticId "semantic" o.subject
    pure (o.localId, id)
  failIf (¬ (ids.map (·.2)).Nodup)
    (invalid "duplicate-semantic-object" "semantic semantic objects are exact duplicates")
  pure ids

/-- The identity of a local handle. -/
def resolveHandle (ids : IdMap) (label value : String) : Except FoundationError String :=
  orFail (OrderedMap.lookupEntry value ids)
    (invalid "local-reference" s!"{label} names absent local handle {value}")

/-- **`resolveLocal`**: the map it is given does not say of what kind the
objects are. -/
def resolveLocal (values : List String) (ids : IdMap) (label : String) :
    Except FoundationError (List String) := do
  let resolved ← values.mapM (resolveHandle ids label)
  pure (sortUniqueCodePoints resolved)

/-- The identity of an object. -/
def objectId (ids : IdMap) (o : ParsedBoundaryObject) : String :=
  (OrderedMap.lookupEntry o.localId ids).getD ""

/-! ## Compiled objects -/

inductive EffectKind
  | localRead
  | localWrite
  | networkRequest
  | externalMutation
  | notification
  | publication
  | spend
  | deployment
  | other
deriving DecidableEq

inductive Reversibility
  | readOnly
  | reversible
  | compensatable
  | irreversible
deriving DecidableEq

inductive RiskTreatment
  | eliminate
  | mitigate
  | accept
deriving DecidableEq

inductive ObligationKind
  | behavior
  | assurance
  | blueprint
  | description
  | artifact
  | check
  | effect
  | risk
  | exclusion
  | acceptance
deriving DecidableEq

inductive Severity
  | required
  | diagnostic
deriving DecidableEq

inductive ArtifactRole
  | code
  | test
  | behavior
  | assurance
  | blueprint
  | description
  | check
  | documentation
  | externalSource
deriving DecidableEq

inductive CheckModality
  | precondition
  | repairTarget
  | regressionGuard
  | postcondition
  | diagnostic
deriving DecidableEq

inductive EvidenceKind
  | inspection
  | artifact
  | check
  | diff
  | analysis
  | mixed
deriving DecidableEq

inductive ProjectionProfile
  | executionStandard
  | executionLarge
deriving DecidableEq

def effectKinds : List (String × EffectKind) := [("local-read", .localRead),
  ("local-write", .localWrite), ("network-request", .networkRequest),
  ("external-mutation", .externalMutation), ("notification", .notification),
  ("publication", .publication), ("spend", .spend), ("deployment", .deployment),
  ("other", .other)]

def reversibilities : List (String × Reversibility) := [("read-only", .readOnly),
  ("reversible", .reversible), ("compensatable", .compensatable), ("irreversible", .irreversible)]

def riskTreatments : List (String × RiskTreatment) :=
  [("eliminate", .eliminate), ("mitigate", .mitigate), ("accept", .accept)]

def obligationKinds : List (String × ObligationKind) := [("behavior", .behavior),
  ("assurance", .assurance), ("blueprint", .blueprint), ("description", .description),
  ("artifact", .artifact), ("check", .check), ("effect", .effect), ("risk", .risk),
  ("exclusion", .exclusion), ("acceptance", .acceptance)]

def severities : List (String × Severity) := [("required", .required), ("diagnostic", .diagnostic)]

def artifactRoles : List (String × ArtifactRole) := [("code", .code), ("test", .test),
  ("behavior", .behavior), ("assurance", .assurance), ("blueprint", .blueprint),
  ("description", .description), ("check", .check), ("documentation", .documentation),
  ("external-source", .externalSource)]

def checkModalities : List (String × CheckModality) := [("precondition", .precondition),
  ("repair-target", .repairTarget), ("regression-guard", .regressionGuard),
  ("postcondition", .postcondition), ("diagnostic", .diagnostic)]

/-- The kinds of evidence, in the order of their texts. -/
def evidenceKinds : List (String × EvidenceKind) := [("analysis", .analysis),
  ("artifact", .artifact), ("check", .check), ("diff", .diff), ("inspection", .inspection),
  ("mixed", .mixed)]

def projectionProfiles : List (String × ProjectionProfile) :=
  [("execution-standard-v1", .executionStandard), ("execution-large-v1", .executionLarge)]

structure BoundaryObjective where
  id : String
  interpretation : String
  fragmentDigest : Sha256Digest

structure BoundaryDirection where
  id : String
  selectedMeaning : String
  whyNow : String
  included : List String
  excluded : List String
  authorityFacts : List String
  chosenTradeoffs : List String
  assumptions : List String
  falsifiers : List String
  fragmentDigest : Sha256Digest

structure BoundaryEffect where
  id : String
  kind : EffectKind
  summary : String
  trigger : String
  target : String
  reversibility : Reversibility
  fragmentDigest : Sha256Digest

structure BoundaryRisk where
  id : String
  statement : String
  effectIds : List String
  treatment : RiskTreatment
  evidenceArtifactIds : List String
  propositionIds : List String
  fragmentDigest : Sha256Digest

structure BoundaryObligation where
  id : String
  kind : ObligationKind
  statement : String
  sourceIds : List String
  requiredEvidenceArtifactIds : List String
  severity : Severity
  propositionIds : List String
  fragmentDigest : Sha256Digest

structure BoundaryArtifact where
  id : String
  path : String
  role : ArtifactRole
  mustChange : Bool
  obligationIds : List String
  changeRule : String
  fragmentDigest : Sha256Digest

structure BoundaryCheck where
  id : String
  checkKnowledgeId : String
  bindingIds : List String
  modality : CheckModality
  purpose : String
  obligationIds : List String
  baselineRequired : Bool
  finalRequired : Bool
  environmentRequirements : List String
  fragmentDigest : Sha256Digest

structure BoundaryProposition where
  id : String
  claim : String
  evidenceKinds : List EvidenceKind
  evidenceArtifactIds : List String
  obligationIds : List String
  effectIds : List String
  riskIds : List String
  path : Option String
  checkId : Option String
  notApplicableCondition : Option String
  fragmentDigest : Sha256Digest

/-- `allowNotApplicable`. -/
def BoundaryProposition.allowNotApplicable (p : BoundaryProposition) : Bool :=
  p.notApplicableCondition.isSome

/-- **The objects of a mandate** that refer to one another. -/
structure BoundaryObjects where
  effects : List BoundaryEffect
  risks : List BoundaryRisk
  obligations : List BoundaryObligation
  artifacts : List BoundaryArtifact
  checks : List BoundaryCheck
  propositions : List BoundaryProposition

/-- **A mandate.** -/
structure Mandate extends BoundaryObjects where
  objective : BoundaryObjective
  direction : BoundaryDirection

/-- **The semantics of a Work Boundary**: its selection and its mandate. -/
structure WorkBoundary where
  selectedKnowledgeIds : List String
  selectedWorkTypeIds : List String
  selectedSourceIds : List String
  capabilityProfileId : String
  projectionProfile : ProjectionProfile
  mandate : Mandate

/-! ## Compiling one object -/

/-- The one value of a field that must be there. -/
def single (o : ParsedBoundaryObject) (label : String) : String :=
  (fieldOf o.fields label).headD ""

/-- Texts, sorted and without repetitions. -/
def textsOf (values : List String) (label : String) : Except FoundationError (List String) := do
  let texts ← values.mapM fun value => asText value label
  pure (sortUniqueCodePoints texts)

def compileEffect (ids : IdMap) (o : ParsedBoundaryObject) :
    Except FoundationError BoundaryEffect := do
  let kind ← asEnum (single o "Kind") "Boundary Effect kind" effectKinds
  let trigger ← asText (single o "Trigger") "Boundary Effect trigger"
  let target ← asText (single o "Target") "Boundary Effect target"
  let reversibility ← asEnum (single o "Reversibility") "Boundary Effect reversibility"
    reversibilities
  pure ⟨objectId ids o, kind, o.narrative, trigger, target, reversibility, o.digest⟩

def compileRisk (ids : IdMap) (o : ParsedBoundaryObject) : Except FoundationError BoundaryRisk := do
  let effectIds ← resolveLocal (fieldOf o.fields "Effect") ids "Boundary Risk effects"
  let treatment ← asEnum (single o "Treatment") "Boundary Risk treatment" riskTreatments
  let evidenceArtifactIds ← resolveLocal (fieldOf o.fields "Evidence artifact") ids
    "Boundary Risk Evidence artifacts"
  let propositionIds ← resolveLocal (fieldOf o.fields "Proposition") ids
    "Boundary Risk propositions"
  pure ⟨objectId ids o, o.narrative, effectIds, treatment, evidenceArtifactIds, propositionIds,
    o.digest⟩

/-- What one source of an obligation is. -/
def compileSource (ids : IdMap) (mandate : ParsedBoundaryObject) (selectedExternal : List String)
    (source : String) : Except FoundationError String := do
  failIf (source = mandate.localId ∧ source ∈ selectedExternal) (invalid "work-boundary-source"
    s!"Boundary Obligation source {source} is ambiguous between a selected source and the fixed mandate")
  failIf (source ≠ mandate.localId ∧ source ∉ selectedExternal) (invalid "work-boundary-source"
    s!"Boundary Obligation source {source} is not selected Knowledge, a selected source, or the fixed mandate")
  pure (if source = mandate.localId then objectId ids mandate else source)

/-- An obligation, without the propositions that name it. -/
def compileObligation (ids : IdMap) (mandate : ParsedBoundaryObject)
    (selectedExternal : List String) (o : ParsedBoundaryObject) :
    Except FoundationError BoundaryObligation := do
  let kind ← asEnum (single o "Kind") "Boundary Obligation kind" obligationKinds
  let sources ← (fieldOf o.fields "Source").mapM (compileSource ids mandate selectedExternal)
  let requiredEvidenceArtifactIds ← resolveLocal (fieldOf o.fields "Required evidence artifact") ids
    "Required Evidence artifacts"
  let severity ← asEnum (single o "Severity") "Boundary Obligation severity" severities
  pure ⟨objectId ids o, kind, o.narrative, sortUniqueCodePoints sources,
    requiredEvidenceArtifactIds, severity, [], o.digest⟩

def compileArtifact (ids : IdMap) (o : ParsedBoundaryObject) :
    Except FoundationError BoundaryArtifact := do
  let path ← asPath (single o "Path") "Boundary Artifact path"
  let role ← asEnum (single o "Role") "Boundary Artifact role" artifactRoles
  let mustChange ← asBoolean (single o "Must change") "Boundary Artifact must-change"
  let obligationIds ← resolveLocal (fieldOf o.fields "Obligation") ids
    "Boundary Artifact obligations"
  pure ⟨objectId ids o, path, role, mustChange, obligationIds, o.narrative, o.digest⟩

def compileCheck (ids : IdMap) (o : ParsedBoundaryObject) :
    Except FoundationError BoundaryCheck := do
  let checkKnowledgeId ← asKnowledgeId (single o "Check Knowledge") "Boundary Check Knowledge"
  let bindingIds ← sortedIds (fieldOf o.fields "Binding") "Boundary Check bindings"
  let modality ← asEnum (single o "Modality") "Boundary Check modality" checkModalities
  let obligationIds ← resolveLocal (fieldOf o.fields "Obligation") ids "Boundary Check obligations"
  let baselineRequired ← asBoolean (single o "Baseline required") "Boundary Check baseline required"
  let finalRequired ← asBoolean (single o "Final required") "Boundary Check final required"
  let environmentRequirements ← textsOf (fieldOf o.fields "Environment requirement")
    "Environment requirement"
  pure ⟨objectId ids o, checkKnowledgeId, bindingIds, modality, o.narrative, obligationIds,
    baselineRequired, finalRequired, environmentRequirements, o.digest⟩

/-- A field that may be missing. -/
def optional {α : Type} (value : Option String) (read : String → Except FoundationError α) :
    Except FoundationError (Option α) :=
  match value with
  | none => .ok none
  | some text => (read text).map some

def compileProposition (ids : IdMap) (o : ParsedBoundaryObject) :
    Except FoundationError BoundaryProposition := do
  let notApplicableCondition ← optional (fieldOf o.fields "Not applicable condition").head?
    fun value => asText value "Not applicable condition"
  let kinds ← (fieldOf o.fields "Evidence kind").mapM fun value =>
    asEnum value "Evidence kind" evidenceKinds
  let evidenceArtifactIds ← resolveLocal (fieldOf o.fields "Evidence artifact") ids
    "Proposition Evidence artifacts"
  let obligationIds ← resolveLocal (fieldOf o.fields "Obligation") ids "Proposition obligations"
  let effectIds ← resolveLocal (fieldOf o.fields "Effect") ids "Proposition effects"
  let riskIds ← resolveLocal (fieldOf o.fields "Risk") ids "Proposition risks"
  let path ← optional (fieldOf o.fields "Path").head? fun value => asPath value "Proposition path"
  let checkId ← optional (fieldOf o.fields "Check").head? (resolveHandle ids "Proposition Check")
  pure ⟨objectId ids o, o.narrative, (evidenceKinds.map (·.2)).filter (· ∈ kinds),
    evidenceArtifactIds, obligationIds, effectIds, riskIds, path, checkId, notApplicableCondition,
    o.digest⟩

/-- The propositions that name an obligation. -/
def withPropositions (propositions : List BoundaryProposition) (o : BoundaryObligation) :
    BoundaryObligation :=
  { o with
    propositionIds :=
      sortUniqueCodePoints ((propositions.filter fun p => o.id ∈ p.obligationIds).map (·.id)) }

/-! ## The selection -/

/-- A fact of the frozen citation registry. -/
structure CitationFact where
  kind : String
  knowledgeIdentity : Option String

/-- The registry and the subjects the Work Product cites. -/
structure Citations where
  registry : List (String × CitationFact)
  cited : List String

/-- The registry's fact of an identity. -/
def Citations.fact (citations : Citations) (id : String) : Option CitationFact :=
  OrderedMap.lookupEntry id citations.registry

/-- **`citedKnowledgeIdentities`.** -/
def Citations.knowledge (citations : Citations) : List String :=
  citations.cited.filterMap fun id => (citations.fact id).bind (·.knowledgeIdentity)

/-- Selected Knowledge is exact, and cited. -/
def assertSelectedKnowledge (citations : Citations) (id : String) : Except FoundationError Unit := do
  failIf ((citations.fact id).any (fun fact => fact.kind = "knowledge"
      && decide (fact.knowledgeIdentity = some id)) = false)
    (invalid "work-boundary-selection"
      s!"Selected Knowledge {id} is not exact Knowledge in the frozen citation registry")
  failIf (id ∉ citations.knowledge)
    (invalid "selection-citation" s!"Selected Knowledge {id} lacks one exact supporting citation")

/-- A selected source is exact, and cited. -/
def assertSelectedSource (citations : Citations) (id : String) : Except FoundationError Unit := do
  failIf ((citations.fact id).any (fun fact => fact.kind = "source") = false)
    (invalid "work-boundary-selection"
      s!"Selected source {id} is not an exact source in the frozen citation registry")
  failIf (id ∉ citations.cited)
    (invalid "selection-citation" s!"Selected source {id} lacks one exact supporting citation")

/-- The first segment of a Knowledge identity. -/
def knowledgeKind (id : String) : String := String.ofList (id.toList.takeWhile (· ≠ '.'))

/-- Selected Knowledge is what an obligation or a Check is about. -/
def assertKnowledgeCovered (obligations : List BoundaryObligation) (checks : List BoundaryCheck)
    (id : String) : Except FoundationError Unit := do
  failIf ([("behavior", ObligationKind.behavior), ("assurance", .assurance)].any (fun entry =>
      decide (knowledgeKind id = entry.1) && !obligations.any fun o =>
        decide (o.kind = entry.2 ∧ o.severity = .required ∧ id ∈ o.sourceIds)) = true)
    (invalid "work-boundary-coverage"
      s!"Selected Knowledge {id} lacks one required sourced obligation")
  failIf (knowledgeKind id = "check" ∧ checks.countP (fun c => c.checkKnowledgeId = id) ≠ 1)
    (invalid "work-boundary-coverage"
      s!"Selected Check Knowledge {id} requires one exact Boundary Check")

/-! ## Coverage -/

/-- **`missingWorkBoundaryRequiredCheckPhase`.** -/
def missingRequiredCheckPhase (checks : List BoundaryCheck) : Option String :=
  if checks.all (fun c => !c.baselineRequired) then some "baseline"
  else if checks.all (fun c => !c.finalRequired) then some "final"
  else none

/-- Both phases have a required Check. -/
def assertCheckPhases (checks : List BoundaryCheck) : Except FoundationError Unit :=
  match missingRequiredCheckPhase checks with
  | some phase => .error (invalid "work-boundary-coverage"
      s!"A Work Boundary requires at least one {phase}-required Check")
  | none => .ok ()

/-- The failure of an object that no proposition covers. -/
def uncovered (subject id reason : String) : FoundationError :=
  invalid "work-boundary-coverage" s!"{subject} {id} {reason}"

/-- Required obligations, effects, risks and artifacts are reached by an
acceptance proposition. -/
def assertCovered (m : BoundaryObjects) : Except FoundationError Unit := do
  m.obligations.forM fun o => failIf (o.severity = .required ∧ o.propositionIds = [])
    (uncovered "Required Boundary Obligation" o.id "has no acceptance proposition")
  m.effects.forM fun e => failIf (∀ p ∈ m.propositions, e.id ∉ p.effectIds)
    (uncovered "Boundary Effect" e.id "has no acceptance proposition")
  m.risks.forM fun r => failIf (∀ p ∈ m.propositions, r.id ∉ p.riskIds)
    (uncovered "Boundary Risk" r.id "has no acceptance proposition")
  m.artifacts.forM fun a => failIf ((∀ p ∈ m.propositions, a.id ∉ p.evidenceArtifactIds)
      ∧ ∀ o ∈ m.obligations, a.id ∈ o.requiredEvidenceArtifactIds → o.propositionIds = [])
    (uncovered "Boundary Artifact" a.id "is not assessable through an acceptance proposition")

/-- Every Check is named by an acceptance proposition. -/
def assertChecksCovered (m : BoundaryObjects) : Except FoundationError Unit :=
  m.checks.forM fun c => failIf (∀ p ∈ m.propositions, p.checkId ≠ some c.id)
    (uncovered "Boundary Check" c.id "is not covered by one acceptance proposition")

/-! ## The boundary -/

/-- The objects of a kind. -/
def objectsOf (objects : List ParsedBoundaryObject) (kind : ObjectKind) :
    List ParsedBoundaryObject :=
  objects.filter fun o => o.objectKind = kind

/-- Compiled objects, in the order of their identities. -/
def sortedById {α : Type} (id : α → String) (values : List α) : List α :=
  values.insertionSort fun a b => codePointLe (id a) (id b) = true

def compileObjective (ids : IdMap) (o : ParsedBoundaryObject) : BoundaryObjective :=
  ⟨objectId ids o, o.narrative, o.digest⟩

def compileDirection (ids : IdMap) (o : ParsedBoundaryObject) :
    Except FoundationError BoundaryDirection := do
  let whyNow ← asText (single o "Why now") "Boundary why-now"
  let included ← textsOf (fieldOf o.fields "Included") "Boundary included"
  let excluded ← textsOf (fieldOf o.fields "Excluded") "Boundary excluded"
  let authorityFacts ← textsOf (fieldOf o.fields "Authority fact") "Boundary authority fact"
  let chosenTradeoffs ← textsOf (fieldOf o.fields "Chosen tradeoff") "Boundary tradeoff"
  let assumptions ← textsOf (fieldOf o.fields "Assumption") "Boundary assumption"
  let falsifiers ← textsOf (fieldOf o.fields "Falsifier") "Boundary falsifier"
  pure ⟨objectId ids o, o.narrative, whyNow, included, excluded, authorityFacts, chosenTradeoffs,
    assumptions, falsifiers, o.digest⟩

/-- The objects of a boundary, without their coverage. -/
def compileObjects (ids : IdMap) (selectedExternal : List String)
    (objects : List ParsedBoundaryObject) (mandate : ParsedBoundaryObject) :
    Except FoundationError BoundaryObjects := do
  let effects ← (objectsOf objects .effect).mapM (compileEffect ids)
  let risks ← (objectsOf objects .risk).mapM (compileRisk ids)
  let bases ← (objectsOf objects .obligation).mapM (compileObligation ids mandate selectedExternal)
  let artifacts ← (objectsOf objects .artifact).mapM (compileArtifact ids)
  let checks ← (objectsOf objects .check).mapM (compileCheck ids)
  assertCheckPhases checks
  let propositions ← (objectsOf objects .proposition).mapM (compileProposition ids)
  pure ⟨effects, risks, bases.map (withPropositions propositions), artifacts, checks, propositions⟩

/-- The selected subjects of a boundary. -/
structure SelectedSubjects where
  knowledgeIds : List String
  workTypeIds : List String
  sourceIds : List String

/-- The selection is exact, and cited. -/
def compileSelected (citations : Citations) (selection : Fields) :
    Except FoundationError SelectedSubjects := do
  let knowledge ← (fieldOf selection "Selected Knowledge").mapM fun value =>
    asKnowledgeId value "Selected Knowledge"
  let workTypes ← sortedIds (fieldOf selection "Selected work type") "Selected work type"
  let sources ← sortedIds (fieldOf selection "Selected source") "Selected source"
  failIf (knowledge = []) (invalid "work-boundary-selection"
    "Complete Work Boundary semantics require at least one selected Knowledge subject")
  (sortUniqueCodePoints knowledge).forM (assertSelectedKnowledge citations)
  sources.forM (assertSelectedSource citations)
  pure ⟨sortUniqueCodePoints knowledge, workTypes, sources⟩

/-- What a mandate holds, every list in the order of its identities. -/
def BoundaryObjects.sorted (m : BoundaryObjects) : BoundaryObjects where
  effects := sortedById (·.id) m.effects
  risks := sortedById (·.id) m.risks
  obligations := sortedById (·.id) m.obligations
  artifacts := sortedById (·.id) m.artifacts
  checks := sortedById (·.id) m.checks
  propositions := sortedById (·.id) m.propositions

/-- **`compileBoundary`**, of a selection with its semantic objects. -/
def compileSelection (citations : Citations) (ids : IdMap) (selection : Fields)
    (objects : List ParsedBoundaryObject) (objective mandate : ParsedBoundaryObject) :
    Except FoundationError WorkBoundary := do
  let m ← compileObjects ids
    (fieldOf selection "Selected Knowledge" ++ fieldOf selection "Selected source") objects mandate
  let selected ← compileSelected citations selection
  m.checks.forM fun c => failIf (c.checkKnowledgeId ∉ selected.knowledgeIds)
    (invalid "work-boundary-check-selection"
      ("Boundary Check " ++ c.id ++ " names unselected Check Knowledge " ++ c.checkKnowledgeId))
  assertCovered m
  selected.knowledgeIds.forM (assertKnowledgeCovered m.obligations m.checks)
  assertChecksCovered m
  let capabilityProfile ← asId ((fieldOf selection "Capability profile").headD "")
    "Capability Profile"
  let projectionProfile ← asEnum ((fieldOf selection "Projection profile").headD "")
    "Projection profile" projectionProfiles
  let direction ← compileDirection ids mandate
  pure ⟨selected.knowledgeIds, selected.workTypeIds, selected.sourceIds, capabilityProfile,
    projectionProfile, ⟨m.sorted, compileObjective ids objective, direction⟩⟩

/-- What is compiled of a Claim here. -/
inductive ClaimCategory
  | completed
  | remaining
  | diagnosis
  | route
  | uncertainty
  | limitation
deriving DecidableEq

/-- A Claim and its identity. -/
structure IdentifiedClaim where
  category : ClaimCategory
  id : String

/-- **The role semantics of a reconnaissance.** -/
structure RoleSemantics where
  proposal : ProposalKind
  conditionIds : List String
  decisionIds : List String
  effectIds : List String
  workBoundary : Option WorkBoundary

/-- **`compileBoundary`**, without a selection. -/
def compileAlone (proposal : ProposalKind) (claims : List IdentifiedClaim) :
    Except FoundationError RoleSemantics := do
  let idsOf (categories : List ClaimCategory) : List String :=
    if proposal = .noProduct then []
    else sortUniqueCodePoints ((claims.filter fun c => c.category ∈ categories).map (·.id))
  let conditionIds := idsOf [.diagnosis, .uncertainty, .limitation]
  let decisionIds := idsOf [.route]
  failIf (proposal = .preparationCondition ∧ conditionIds = []) (invalid "preparation-condition"
    "A preparation-condition proposal requires one typed diagnosis, uncertainty, or limitation Claim")
  failIf (proposal = .splitRecommended ∧ decisionIds = []) (invalid "split-recommendation"
    "A split-recommended proposal requires one typed route Claim")
  pure ⟨proposal, conditionIds, decisionIds, [], none⟩

/-- A boundary as role semantics. -/
def boundarySemantics (b : WorkBoundary) : RoleSemantics where
  proposal := .workBoundary
  conditionIds := sortUniqueCodePoints (b.mandate.risks.map (·.id))
  decisionIds := sortUniqueCodePoints (b.mandate.propositions.map (·.id))
  effectIds := sortUniqueCodePoints (b.mandate.effects.map (·.id))
  workBoundary := some b

/-- The first object of a kind that must be there. -/
def theObject (objects : List ParsedBoundaryObject) (kind : ObjectKind) :
    Except FoundationError ParsedBoundaryObject :=
  orFail (objectsOf objects kind).head? (invalid "work-boundary-cardinality"
    "Work Boundary semantics require exactly one Objective and one Mandate")

/-- **`compileBoundary`.** -/
def compileBoundary (citations : Citations) (claims : List IdentifiedClaim) (ids : IdMap)
    (parsed : ParsedReconnaissance) : Except FoundationError RoleSemantics :=
  match parsed.selection with
  | none => compileAlone parsed.proposal claims
  | some selection => do
    let objective ← theObject parsed.objects .objective
    let mandate ← theObject parsed.objects .mandate
    let b ← compileSelection citations ids selection parsed.objects objective mandate
    pure (boundarySemantics b)

/-- **Parsing and compilation** of a Proposal section. -/
def compileReconnaissance (citations : Citations) (claims : List IdentifiedClaim)
    (elsewhere lines : List String) : Except FoundationError RoleSemantics := do
  let parsed ← parseBoundary elsewhere lines
  let ids ← assignIntrinsicIds parsed.objects
  compileBoundary citations claims ids parsed

/-! ## Retaining the mandate -/

/-- A Knowledge record of the basis. -/
structure KnowledgeFact where
  id : String
  revision : Nat
  sourceDigest : Sha256Digest
  semanticDigest : Sha256Digest
deriving DecidableEq

/-- An external source of the basis. -/
structure SourceFact where
  sourceId : String
  citationDigest : Sha256Digest

/-- A Check Binding of the basis. -/
structure CheckBindingFact where
  id : String
  checkKnowledgeId : String
  digest : Sha256Digest
  implementationDigest : Sha256Digest

/-- **What the mandate of a Work Boundary is held against.** -/
structure BoundaryBasis where
  knowledge : List KnowledgeFact
  adoptions : List KnowledgeFact
  workTypes : List String
  externalSources : List SourceFact
  capabilityProfileId : String
  projectionProfile : ProjectionProfile
  checkBindings : List CheckBindingFact
  citedKnowledge : List Sha256Digest
  citedSources : List (String × Sha256Digest)

/-- `fail`. -/
def boundaryFailure (code message : String) : FoundationError :=
  lifecycleError s!"lifecycle.control-work-boundary.{code}" message

/-- `stringSet`. -/
def stringSet (values : List String) (label : String) (minimum : Nat) :
    Except FoundationError (List String) := do
  let result := sortUniqueCodePoints values
  failIf (result.length < minimum)
    (boundaryFailure "semantic-coverage" s!"{label} lacks required values")
  pure result

/-- `sortedObjectsById`. -/
def sortedObjectsById {α : Type} (id : α → String) (values : List α) (label : String) :
    Except FoundationError (List α) := do
  values.forM fun value => (controlIdentifier (id value) (label ++ " identity")).map fun _ => ()
  failIf (¬ (values.map id).Nodup)
    (boundaryFailure "semantic-coverage" s!"{label} repeats identity")
  pure (sortedById id values)

/-- Selected Knowledge that is in the basis, cited, and adopted where it is
a Discipline. -/
def knowledgeFact (basis : BoundaryBasis) (id : String) : Except FoundationError KnowledgeFact := do
  let item ← orFail (basis.knowledge.find? fun item => item.id = id) (boundaryFailure "basis"
    s!"Selected Knowledge {id} is absent from the current Knowledge basis")
  failIf (item.sourceDigest ∉ basis.citedKnowledge)
    (boundaryFailure "citation" s!"Selected knowledge {id} lacks an exact retained citation")
  pure item

/-- A selected Discipline is its exact adoption. -/
def assertAdopted (basis : BoundaryBasis) (item : KnowledgeFact) : Except FoundationError Unit := do
  let id := item.id
  failIf (basis.adoptions.any (fun exact => decide (exact.id = id ∧ exact ≠ item)) = true)
    (boundaryFailure "basis"
      s!"Selected Discipline {id} differs from its exact registry adoption")
  failIf ("discipline.".toList.isPrefixOf id.toList = true ∧ ∀ exact ∈ basis.adoptions, exact.id ≠ id)
    (boundaryFailure "basis" s!"Selected Discipline {id} is not adopted in the exact registry")

/-- A selected source that is in the basis, and cited. -/
def sourceFact (basis : BoundaryBasis) (id : String) : Except FoundationError SourceFact := do
  let item ← orFail (basis.externalSources.find? fun item => item.sourceId = id)
    (boundaryFailure "basis" s!"Selected external source {id} is absent from the current basis")
  failIf ((id, item.citationDigest) ∉ basis.citedSources)
    (boundaryFailure "citation" s!"Selected source {id} lacks an exact retained citation")
  pure item

/-- The sources of an obligation resolve to one selected subject each. -/
def assertObligationSources (owners : List String) (o : BoundaryObligation) :
    Except FoundationError Unit :=
  o.sourceIds.forM fun source => failIf (owners.count source ≠ 1) (boundaryFailure
    "semantic-coverage" ("Boundary Obligation " ++ o.id ++ " source " ++ source ++
      " does not resolve exactly to selected Knowledge, a selected external source, or the fixed mandate"))

/-- A retained Check: the definition and the bindings it selects. -/
structure RetainedCheck where
  check : BoundaryCheck
  definition : KnowledgeFact
  bindings : List CheckBindingFact

/-- The binding of a Check. -/
def bindingFact (basis : BoundaryBasis) (checkKnowledgeId id : String) :
    Except FoundationError CheckBindingFact :=
  orFail (basis.checkBindings.find? fun b => decide (b.id = id ∧ b.checkKnowledgeId = checkKnowledgeId))
    (boundaryFailure "basis"
      s!"Boundary Check Binding {id} does not bind exact Check Knowledge {checkKnowledgeId}")

def retainCheck (basis : BoundaryBasis) (knowledge : List KnowledgeFact) (c : BoundaryCheck) :
    Except FoundationError RetainedCheck := do
  let definition ← orFail (knowledge.find? fun item => item.id = c.checkKnowledgeId)
    (boundaryFailure "basis" ("Boundary Check selects absent Knowledge " ++ c.checkKnowledgeId))
  let bindingIds ← stringSet c.bindingIds "Boundary Check bindings" 1
  let bindings ← bindingIds.mapM (bindingFact basis c.checkKnowledgeId)
  let obligationIds ← stringSet c.obligationIds "Boundary Check obligations" 1
  pure ⟨{ c with obligationIds := obligationIds }, definition, bindings⟩

def retainArtifact (a : BoundaryArtifact) : Except FoundationError BoundaryArtifact := do
  let obligationIds ← stringSet a.obligationIds "Boundary Artifact obligations" 1
  pure { a with obligationIds := obligationIds }

def retainProposition (p : BoundaryProposition) : Except FoundationError BoundaryProposition := do
  failIf (p.evidenceKinds = []) (boundaryFailure "semantic-coverage"
    "Boundary Proposition Evidence kinds lacks required values")
  let obligationIds ← stringSet p.obligationIds "Boundary Proposition obligations" 1
  pure { p with
    evidenceArtifactIds := sortUniqueCodePoints p.evidenceArtifactIds
    obligationIds := obligationIds
    effectIds := sortUniqueCodePoints p.effectIds
    riskIds := sortUniqueCodePoints p.riskIds }

def retainRisk (r : BoundaryRisk) : BoundaryRisk :=
  { r with
    effectIds := sortUniqueCodePoints r.effectIds
    evidenceArtifactIds := sortUniqueCodePoints r.evidenceArtifactIds
    propositionIds := sortUniqueCodePoints r.propositionIds }

def retainObligation (o : BoundaryObligation) : BoundaryObligation :=
  { o with
    sourceIds := sortUniqueCodePoints o.sourceIds
    requiredEvidenceArtifactIds := sortUniqueCodePoints o.requiredEvidenceArtifactIds
    propositionIds := sortUniqueCodePoints o.propositionIds }

/-- Both phases still have a required Check. -/
def assertRetainedPhases (checks : List BoundaryCheck) : Except FoundationError Unit :=
  match missingRequiredCheckPhase checks with
  | some phase => .error (boundaryFailure "semantic-coverage"
      s!"A Work Boundary requires at least one {phase} Check")
  | none => .ok ()

/-- **A retained mandate.** -/
structure RetainedMandate where
  objects : BoundaryObjects
  objective : BoundaryObjective
  direction : BoundaryDirection
  checks : List RetainedCheck
  knowledge : List KnowledgeFact
  externalSources : List SourceFact

/-- The selected subjects, resolved in the basis. -/
def resolveSelected (basis : BoundaryBasis) (b : WorkBoundary) :
    Except FoundationError (List KnowledgeFact × List SourceFact) := do
  let selectedKnowledgeIds ← stringSet b.selectedKnowledgeIds "Selected Knowledge" 1
  failIf (¬ (basis.knowledge.map (·.id)).Nodup)
    (boundaryFailure "basis" "Knowledge basis repeats an identity")
  let knowledge ← selectedKnowledgeIds.mapM (knowledgeFact basis)
  b.selectedWorkTypeIds.forM fun id => failIf (id ∉ basis.workTypes) (boundaryFailure "basis"
    s!"Selected Discipline work type {id} is absent from the exact registry")
  knowledge.forM (assertAdopted basis)
  failIf (¬ (basis.externalSources.map (·.sourceId)).Nodup)
    (boundaryFailure "basis" "External-source basis repeats an identity")
  let externalSources ← (sortUniqueCodePoints b.selectedSourceIds).mapM (sourceFact basis)
  failIf (basis.capabilityProfileId ≠ b.capabilityProfileId) (boundaryFailure "basis"
    "Agent-selected Capability Profile is not the exact runtime-selected profile")
  failIf (basis.projectionProfile ≠ b.projectionProfile) (boundaryFailure "basis"
    "Agent-selected Projection profile is not the exact runtime-selected profile")
  pure (knowledge, externalSources)

/-- **`normalizeMandate`.** -/
def normalizeMandate (basis : BoundaryBasis) (b : WorkBoundary) :
    Except FoundationError RetainedMandate := do
  let selected ← resolveSelected basis b
  let m := b.mandate
  let effects ← sortedObjectsById (·.id) m.effects "Boundary effects"
  let risks ← sortedObjectsById (·.id) (m.risks.map retainRisk) "Boundary risks"
  let obligations ← sortedObjectsById (·.id) (m.obligations.map retainObligation)
    "Boundary obligations"
  obligations.forM (assertObligationSources
    (selected.1.map (·.id) ++ selected.2.map (·.sourceId) ++ [m.direction.id]))
  let retainedArtifacts ← m.artifacts.mapM retainArtifact
  let artifacts ← sortedObjectsById (·.id) retainedArtifacts "Boundary artifacts"
  failIf (¬ (basis.checkBindings.map (·.id)).Nodup)
    (boundaryFailure "basis" "Check Binding basis repeats an identity")
  let retainedChecks ← m.checks.mapM (retainCheck basis selected.1)
  let checks ← sortedObjectsById (·.check.id) retainedChecks "Boundary checks"
  assertRetainedPhases (checks.map (·.check))
  let retainedPropositions ← m.propositions.mapM retainProposition
  let propositions ← sortedObjectsById (·.id) retainedPropositions "Boundary propositions"
  pure {
    objects := ⟨effects, risks, obligations, artifacts, checks.map (·.check), propositions⟩
    objective := m.objective
    direction := m.direction
    checks := checks
    knowledge := selected.1
    externalSources := selected.2 }

end WorkProduct
