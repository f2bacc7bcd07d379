import Lifecycle.CheckReceipts
import Lifecycle.KnowledgeModel

/-!
# Evidence facts

What an evaluation is assessed by (`evidence/assessment-v1.ts`): the
requirements of a boundary, the receipts of its Checks, a review and the
observation of the Candidate. The facts are those of their own types, so the
tests that a value is a text or a member of its enumeration have no input
here. A `Map` made of a list is read through `mapGet`: the last value of a key
counts.
-/

open Fallible Json ControlModel Timestamp SortedBy

namespace Evidence

/-! ## Facts -/

inductive FileKind
  | file
  | directory
  | symlink
  | submodule
  | absent
deriving DecidableEq

inductive Existence
  | present
  | absent
deriving DecidableEq

inductive ArtifactChange
  | added
  | modified
  | deleted
  | unchanged
  | notApplicable
  | indeterminate
deriving DecidableEq

inductive ArtifactValidation
  | valid
  | invalid
  | notRequired
  | indeterminate
deriving DecidableEq

/-- `EvidencePacketArtifactObservation`. -/
structure ArtifactObservation where
  artifactId : String
  fileKind : FileKind
  existence : Existence
  change : ArtifactChange
  contentDigest : Option Sha256Digest
  manifestDigest : Option Sha256Digest
  schemaValidation : ArtifactValidation
  semanticValidation : ArtifactValidation
  limitationIds : List String := []

inductive Ownership
  | exact
  | missing
  | ambiguous
  | excluded
  | indeterminate
deriving DecidableEq

inductive ContentChange
  | changed
  | unchanged
  | absent
deriving DecidableEq

inductive ExclusionChange
  | none
  | new
  | widened
  | narrowed
deriving DecidableEq

/-- `EvidencePacketDescriptionObservation`. -/
structure DescriptionObservation where
  path : String
  descriptionId : Option String
  selector : Option String
  ownership : Ownership
  implementationChange : ContentChange
  descriptionChange : ContentChange
  exclusionChange : ExclusionChange
  obligationIds : List String

/-- `EvidencePacketDiagnostic`. -/
structure Diagnostic where
  code : String
  stage : String
  factsDigest : Sha256Digest

/-- A selected rule set or validator. -/
structure SelectedRules where
  id : String
  digest : Sha256Digest
deriving DecidableEq

inductive SubjectDisposition
  | exactReadOnly
  | mutated
  | indeterminate
deriving DecidableEq

/-- `EvidencePacketObservation`. -/
structure PacketObservation where
  evaluatedAt : String
  artifacts : List ArtifactObservation
  descriptionCoverage : List DescriptionObservation
  reviewerSubjectDisposition : SubjectDisposition
  diagnostics : List Diagnostic := []
  ruleSet : SelectedRules
  validator : SelectedRules

structure ExactReference where
  kind : String
  id : String
  revision : JsNumber
  digest : Sha256Digest
deriving DecidableEq

structure DefinitionCoordinate where
  id : String
  revision : JsNumber
  sourceDigest : Sha256Digest
  semanticDigest : Sha256Digest
deriving DecidableEq

structure BindingCoordinate where
  id : String
  digest : Sha256Digest
  implementationDigest : Sha256Digest
deriving DecidableEq

structure CheckSelection where
  id : String
  definition : DefinitionCoordinate
  bindings : List BindingCoordinate
  modality : CheckModality
  baselineRequired : Bool
  finalRequired : Bool
  obligationIds : List String
  environmentRequirements : List String

inductive Severity
  | required
  | diagnostic
deriving DecidableEq

structure BoundaryObligation where
  id : String
  severity : Severity
  requiredEvidenceArtifactIds : List String
  propositionIds : List String

structure BoundaryArtifact where
  id : String
  path : String
  mustChange : Bool
  obligationIds : List String

structure BoundaryProposition where
  id : String
  obligationIds : List String
  allowNotApplicable : Bool
  notApplicableCondition : Option String

/-- `FoundationEvidenceRequirementsV1`. -/
structure Requirements where
  checks : List CheckSelection
  obligations : List BoundaryObligation
  artifacts : List BoundaryArtifact
  propositions : List BoundaryProposition

inductive Allocation
  | notAllocated
  | allocated
deriving DecidableEq

inductive NotRunAuthorization
  | baselinePostcondition
  | upstreamCondition
deriving DecidableEq

/-- `FoundationEvidenceCheckFactsV1`. -/
structure RetainedCheck where
  reference : ExactReference
  proofSubject : ExactReference
  phase : CheckPhase
  modality : CheckModality
  disposition : CheckDisposition
  selectionId : String
  allocation : Allocation
  notRunAuthorization : Option NotRunAuthorization
  startedAt : Option String
  finishedAt : Option String
  definition : DefinitionCoordinate
  binding : BindingCoordinate
  requestedConditions : List String

inductive JudgmentDisposition
  | accepted
  | rejected
  | indeterminate
  | notApplicable
deriving DecidableEq

inductive Uncertainty
  | none
  | bounded
  | material
  | unknown
deriving DecidableEq

structure ReviewJudgment where
  id : String
  propositionId : String
  disposition : JudgmentDisposition
  citationIds : List String
  inspectedSubjectIds : List String
  uncertainty : Uncertainty
  limitationIds : List String
  fragmentDigest : Sha256Digest
deriving DecidableEq

inductive ApplicabilityDisposition
  | applicable
  | requiresReadmission
  | insufficient
  | indeterminate
deriving DecidableEq

structure ApplicabilityJudgment where
  disposition : ApplicabilityDisposition
  citationIds : List String
  rationale : String
  fragmentDigest : Sha256Digest

structure BaselineJudgment extends ApplicabilityJudgment where
  receiptId : String

structure Citation where
  id : String
  subjectId : String
  subjectDigest : Sha256Digest
  subjectKind : String
deriving DecidableEq

structure ParentBasis where
  commit : String
  tree : String
  snapshotDigest : Sha256Digest

/-- The subject of an evaluation; its member `seal` is `candidateSeal` here. -/
structure AssessmentSubject where
  boundary : ExactReference
  candidate : ExactReference
  candidateSeal : ExactReference
  integration : ExactReference
  parent : ParentBasis

/-- `FoundationEvidenceReviewFactsV1`. -/
structure ReviewFacts where
  reference : ExactReference
  subject : AssessmentSubject
  citations : List Citation
  mandateApplicability : ApplicabilityJudgment
  baselineApplicability : List BaselineJudgment
  judgments : List ReviewJudgment
  mandateExcess : Bool
  missingObligationIds : List String
  overallUncertainty : Uncertainty

inductive ContextSeparation
  | distinct
  | shared
  | unobserved
deriving DecidableEq

/-- **`FoundationEvidenceAssessmentInputV1`.** -/
structure AssessmentInput where
  subject : AssessmentSubject
  requirements : Requirements
  checks : List RetainedCheck
  review : ReviewFacts
  contextSeparation : ContextSeparation
  observationSubject : AssessmentSubject
  observation : PacketObservation

/-! ## Checked values -/

section Values

variable {α : Type}

/-- `new Map(values.map((value) => [key(value), value])).get(k)`. -/
def mapGet (key : α → String) (values : List α) (k : String) : Option α :=
  values.reverse.find? fun value => key value = k

/-- `fail`. -/
def evidenceFailure (code message : String) : FoundationError :=
  lifecycleError s!"lifecycle.control-evidence-packet.{code}" message

/-- The error of reading a member of `undefined`. -/
def typeError : FoundationError := lifecycleError "TypeError" "Cannot read properties of undefined"

/-- `digest`. -/
def digest (value label : String) : Except FoundationError Sha256Digest := do
  failIf (isSha256 value = false)
    (evidenceFailure "retained-fact" s!"{label} must be one lowercase SHA-256 digest")
  pure value

def isPositiveSafeInteger : JsNumber → Bool
  | .integer n => decide (1 ≤ n ∧ n ≤ maxSafeInteger)
  | _ => false

/-- `positiveInteger`. -/
def positiveInteger (value : JsNumber) (label : String) : Except FoundationError JsNumber := do
  failIf (isPositiveSafeInteger value = false)
    (evidenceFailure "retained-fact" s!"{label} must be one positive safe integer")
  pure value

/-- `id`. -/
def exactId (value label : String) : Except FoundationError String := do
  failIf (matchesIdPattern value = false)
    (evidenceFailure "identity" s!"{label} is not an exact identity")
  failIf (512 < byteLength value) (evidenceFailure "bound" s!"{label} exceeds its bound")
  pure value

/-- `singleLine`. -/
def singleLine (value label : String) : Except FoundationError String := do
  failIf (value = "" ∨ 4096 < byteLength value
      ∨ value.toList.any CheckReceipts.isLineControl = true)
    (evidenceFailure "observation" s!"{label} must be one bounded printable line")
  pure value

/-- `sortedIds`. -/
def sortedIds (values : List String) (label : String) (maximum : Nat := 4096) :
    Except FoundationError (List String) := do
  failIf (maximum < values.length) (evidenceFailure "bound" s!"{label} exceeds its item bound")
  let ids ← values.mapM fun value => exactId value label
  pure (sortUniqueCodePoints ids)

/-- `timestamp`, followed by `Date.parse`. -/
def timestamp (value label : String) : Except FoundationError Int := do
  let failure := evidenceFailure "time" s!"{label} is not an exact UTC timestamp"
  let instant ← orFail (dateParse value) failure
  failIf (value ≠ toISOString instant ∧ value ≠ wholeSeconds instant) failure
  pure instant

/-- `localId`. -/
def localId (kind : String) (value : JsonObject) : Except FoundationError String := do
  let digest ← digestCanonical (.object value)
  pure (kind ++ "." ++ String.ofList (digest.toList.drop 7))

end Values

end Evidence
