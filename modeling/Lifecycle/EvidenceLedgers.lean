import Lifecycle.EvidenceFacts
import Mathlib.Data.List.Infix

/-!
# Evidence ledgers

The ledgers an evaluation is judged in: every selection has an entry for its
receipt in each phase, every proposition one for its judgment, and every
artifact and Description one for its observation. An entry may be neutral: a
receipt that is not required, a baseline postcondition that was authorized not
to run, a Description that is excluded.
-/

open Fallible Json ControlModel Timestamp SortedBy

namespace Evidence

/-! ## Receipts -/

/-- `checkMatchesSelection`. -/
def checkMatchesSelection (check : RetainedCheck) (selection : CheckSelection) :
    Except FoundationError Unit := do
  failIf (check.selectionId ≠ selection.id ∨ check.modality ≠ selection.modality)
    (evidenceFailure "check"
      "Check Receipt does not reproduce its exact Work Boundary selection")
  failIf (check.definition ≠ selection.definition)
    (evidenceFailure "check" "Check Receipt substitutes its selected Check Definition")
  failIf (check.binding ∉ selection.bindings)
    (evidenceFailure "check" "Check Receipt substitutes its selected Check Binding")
  let requested := sortUniqueCodePoints check.requestedConditions
  let requestedDigest ← digestCanonical (.array (requested.map .string))
  let selectedDigest ← digestCanonical (.array (selection.environmentRequirements.map .string))
  failIf (requestedDigest ≠ selectedDigest) (evidenceFailure "check"
    "Check Receipt requested conditions differ from its exact Work Boundary selection")

/-- `isFoundationAuthorizedBaselinePostconditionV1`. -/
def isFoundationAuthorizedBaselinePostcondition (check : RetainedCheck) : Bool :=
  decide (check.phase = .baseline ∧ check.modality = .postcondition
    ∧ check.disposition = .notRun ∧ check.notRunAuthorization = some .baselinePostcondition
    ∧ check.allocation = .notAllocated ∧ check.startedAt = none ∧ check.finishedAt = none)

def legalBaseline (check : RetainedCheck) : Bool :=
  match check.phase, check.modality with
  | .final, _ => false
  | .baseline, .precondition | .baseline, .regressionGuard => decide (check.disposition = .pass)
  | .baseline, .repairTarget => decide (check.disposition = .pass ∨ check.disposition = .fail)
  | .baseline, .postcondition => isFoundationAuthorizedBaselinePostcondition check
  | .baseline, .diagnostic => true

def legalFinal (check : RetainedCheck) : Bool :=
  decide (check.phase = .final ∧ (check.modality = .diagnostic ∨ check.disposition = .pass))

/-- The legality a phase asks for. -/
def legalIn : CheckPhase → RetainedCheck → Bool
  | .baseline => legalBaseline
  | .final => legalFinal

/-- Whether a selection is required in a phase. -/
def CheckSelection.required (selection : CheckSelection) : CheckPhase → Bool
  | .baseline => selection.baselineRequired
  | .final => selection.finalRequired

inductive Use
  | missing
  | excluded
  | executed
deriving DecidableEq

inductive Freshness
  | fresh
  | stale
  | notApplicable
  | indeterminate
deriving DecidableEq

inductive SubjectEquivalence
  | exact
  | indeterminate
deriving DecidableEq

inductive Provenance
  | runtimeDerived
  | runtimeObserved
  | agentProposed
deriving DecidableEq

inductive ReceiptReason
  | requiredReceiptMissing
  | receiptNotRequired
  | baselinePostconditionNotRun
  | receiptFinishedAfterEvaluation
  | baselineReceiptCurrent
  | baselineDispositionIllegal
  | finalReceiptCurrent
  | finalDispositionIllegal
deriving DecidableEq

def ReceiptReason.text : ReceiptReason → String
  | requiredReceiptMissing => "required-receipt-missing"
  | receiptNotRequired => "receipt-not-required"
  | baselinePostconditionNotRun => "baseline-postcondition-not-run"
  | receiptFinishedAfterEvaluation => "receipt-finished-after-evaluation"
  | baselineReceiptCurrent => "baseline-receipt-current"
  | baselineDispositionIllegal => "baseline-disposition-illegal"
  | finalReceiptCurrent => "final-receipt-current"
  | finalDispositionIllegal => "final-disposition-illegal"

/-- `reasonCode.includes("illegal")`. -/
def ReceiptReason.illegal (reason : ReceiptReason) : Bool :=
  decide ("illegal".toList <:+: reason.text.toList)

/-- An entry of the receipt ledger. -/
structure ReceiptEntry where
  id : String
  checkId : String
  phase : CheckPhase
  receiptId : Option String
  use : Use
  freshness : Freshness
  subjectEquivalence : SubjectEquivalence
  ageMs : Option Int
  maximumAgeMs : Option Int := none
  reasonCode : ReceiptReason
  provenance : Provenance := .runtimeDerived

/-- The freshness of a receipt that may be missing, and its age. -/
def receiptFreshness (required : Bool) (evaluatedMs : Int) :
    Option RetainedCheck → Except FoundationError (Freshness × Option Int)
  | none => pure (if required then .indeterminate else .notApplicable, none)
  | some check =>
    if isFoundationAuthorizedBaselinePostcondition check then pure (.notApplicable, none)
    else match check.finishedAt with
      | none => pure (.indeterminate, none)
      | some finishedAt => do
        let finishedMs ← timestamp finishedAt "Check Receipt finish time"
        let ageMs := evaluatedMs - finishedMs
        pure (if ageMs < 0 then .stale else .fresh, some ageMs)

/-- The use of a receipt that may be missing. -/
def receiptUse (required : Bool) : Option RetainedCheck → Use
  | none => if required then .missing else .excluded
  | some check =>
    if isFoundationAuthorizedBaselinePostcondition check then .excluded else .executed

def receiptReason (required : Bool) (phase : CheckPhase) (freshness : Freshness) :
    Option RetainedCheck → ReceiptReason
  | none => if required then .requiredReceiptMissing else .receiptNotRequired
  | some check =>
    if isFoundationAuthorizedBaselinePostcondition check then .baselinePostconditionNotRun
    else if freshness = .stale then .receiptFinishedAfterEvaluation
    else match phase with
      | .baseline =>
        if legalBaseline check then .baselineReceiptCurrent else .baselineDispositionIllegal
      | .final => if legalFinal check then .finalReceiptCurrent else .finalDispositionIllegal

/-- Whether a receipt leaves the ledger `completeAndLegal`. -/
def completeAndLegal (selection : CheckSelection) (phase : CheckPhase) (freshness : Freshness) :
    Option RetainedCheck → Bool
  | none => !selection.required phase
  | some check =>
    (legalIn phase check
        || !(selection.required phase || decide (selection.modality ≠ .diagnostic)))
      && decide (freshness = .fresh ∨ freshness = .notApplicable)

/-- `byCoordinate.get`: at most one receipt has a coordinate. -/
def receiptAt (checks : List RetainedCheck) (phase : CheckPhase) (selectionId : String) :
    Option RetainedCheck :=
  checks.find? fun check => check.phase = phase ∧ check.selectionId = selectionId

def phaseText : CheckPhase → String
  | .baseline => "baseline"
  | .final => "final"

/-- The entry of one selection and phase, and whether it is complete and
legal. -/
def receiptEntry (checks : List RetainedCheck) (evaluatedMs : Int)
    (coordinate : CheckSelection × CheckPhase) : Except FoundationError (ReceiptEntry × Bool) := do
  let (selection, phase) := coordinate
  let check := receiptAt checks phase selection.id
  let required := selection.required phase
  let (freshness, ageMs) ← receiptFreshness required evaluatedMs check
  let id ← localId "receipt-use"
    [("checkId", .string selection.id), ("phase", .string (phaseText phase))]
  pure ({
    id := id
    checkId := selection.id
    phase := phase
    receiptId := check.map (·.reference.id)
    use := receiptUse required check
    freshness := freshness
    subjectEquivalence := if check.isNone then .indeterminate else .exact
    ageMs := ageMs
    reasonCode := receiptReason required phase freshness check },
    completeAndLegal selection phase freshness check)

/-- One receipt, put beside those of other coordinates. -/
def addReceipt (known : List RetainedCheck) (check : RetainedCheck) :
    Except FoundationError (List RetainedCheck) := do
  failIf (∃ other ∈ known, other.phase = check.phase ∧ other.selectionId = check.selectionId)
    (evidenceFailure "check" (s!"Evidence has more than one {phaseText check.phase} Receipt for "
      ++ check.selectionId))
  pure (known ++ [check])

/-- A receipt, matched with the selection it names. -/
def matchReceipt (facts : Requirements) (check : RetainedCheck) : Except FoundationError Unit := do
  let selection ← orFail (mapGet (·.id) facts.checks check.selectionId) (evidenceFailure "check"
    s!"Check Receipt selects unknown boundary Check {check.selectionId}")
  checkMatchesSelection check selection

structure ReceiptLedgers where
  entries : List ReceiptEntry
  usedChecks : List RetainedCheck
  completeAndLegal : Bool

/-- Every selection in both phases. -/
def coordinates (facts : Requirements) : List (CheckSelection × CheckPhase) :=
  facts.checks.flatMap fun selection => [(selection, .baseline), (selection, .final)]

def receiptLedgers (facts : Requirements) (checks : List RetainedCheck) (evaluatedMs : Int) :
    Except FoundationError ReceiptLedgers := do
  let byCoordinate ← replay addReceipt [] checks
  byCoordinate.forM (matchReceipt facts)
  let rows ← (coordinates facts).mapM (receiptEntry byCoordinate evaluatedMs)
  pure {
    entries := sortOn (·.id) (rows.map Prod.fst)
    usedChecks := sortOn (·.reference.id) byCoordinate
    completeAndLegal := rows.all Prod.snd }

/-! ## The review -/

def reviewFailure (message : String) : FoundationError := evidenceFailure "review" message

/-- `applicability` without the rationale; `receiptId` is there for a baseline
judgment. -/
structure Applicability where
  receiptId : Option String
  disposition : ApplicabilityDisposition
  fragmentDigest : Sha256Digest
deriving DecidableEq

structure NormalizedReview where
  mandateApplicability : Applicability
  baselineApplicability : List Applicability
  judgments : List ReviewJudgment
  mandateExcess : Bool
  missingObligationIds : List String
  overallUncertainty : Uncertainty

def normalizedCitation (citation : Citation) : Except FoundationError Citation := do
  let id ← exactId citation.id "Citation identity"
  let subjectId ← exactId citation.subjectId "Citation subject identity"
  let subjectDigest ← digest citation.subjectDigest "Citation exact subject digest"
  pure ⟨id, subjectId, subjectDigest, citation.subjectKind⟩

/-- Whether a citation is of the exact receipt it names, when it names one. -/
def citesExactly (checks : List RetainedCheck) (citation : Citation) : Bool :=
  (checks.find? fun check => check.reference.id = citation.subjectId).all fun check =>
    citation.subjectKind = "evidence" ∧ citation.subjectDigest = check.reference.digest

/-- The dispositions of a mandate or, with a receipt, of a baseline judgment. -/
def supportedDisposition (receiptId : Option String) (d : ApplicabilityDisposition) : Bool :=
  d = .applicable ∨ d = .indeterminate
    ∨ d = if receiptId.isSome then .insufficient else .requiresReadmission

/-- Whether one of the citations is of the exact baseline receipt. -/
def citesBaseline (citations : List Citation) (checks : List RetainedCheck)
    (citationIds : List String) (receiptId : String) : Bool :=
  (checks.find? fun check => check.phase = .baseline ∧ check.reference.id = receiptId).any
    fun check => citationIds.any fun id => (mapGet (·.id) citations id).any fun citation =>
      citation.subjectId = receiptId ∧ citation.subjectKind = "evidence"
        ∧ citation.subjectDigest = check.reference.digest

/-- `applicability`. -/
def applicability (citations : List Citation) (checks : List RetainedCheck)
    (item : ApplicabilityJudgment) (receiptId : Option String) :
    Except FoundationError Applicability := do
  failIf (supportedDisposition receiptId item.disposition = false)
    (reviewFailure "Integration applicability disposition is unsupported")
  let citationIds ← sortedIds item.citationIds "Applicability citation identity"
  failIf (citationIds = [] ∨ ∃ id ∈ citationIds, mapGet Citation.id citations id |>.isNone)
    (reviewFailure "Integration applicability requires exact resolved citations")
  let receiptId ← receiptId.mapM fun id => exactId id "Baseline applicability Receipt"
  failIf (∃ id ∈ receiptId, citesBaseline citations checks citationIds id = false)
    (reviewFailure "Baseline applicability must cite its exact original Receipt")
  let fragmentDigest ← digest item.fragmentDigest "Applicability fragment digest"
  pure ⟨receiptId, item.disposition, fragmentDigest⟩

def citedSubject (citations : List Citation) (citationId : String) :
    Except FoundationError String := do
  let citation ← orFail (mapGet (·.id) citations citationId)
    (reviewFailure s!"Reviewer judgment cites unknown citation {citationId}")
  pure citation.subjectId

def normalizedJudgment (citations : List Citation) (judgment : ReviewJudgment) :
    Except FoundationError ReviewJudgment := do
  let citationIds ← sortedIds judgment.citationIds "Judgment citation identity"
  failIf (citationIds.length < 1)
    (reviewFailure "Every reviewer judgment requires at least one exact citation")
  let subjects ← citationIds.mapM (citedSubject citations)
  let derivedSubjects ← sortedIds subjects "Inspected subject identity"
  let retainedSubjects ← sortedIds judgment.inspectedSubjectIds
    "Judgment inspected subject identity"
  let derivedDigest ← digestCanonical (.array (derivedSubjects.map .string))
  let retainedDigest ← digestCanonical (.array (retainedSubjects.map .string))
  failIf (derivedDigest ≠ retainedDigest) (reviewFailure
    "Reviewer judgment inspected subjects do not reproduce its exact resolved citations")
  let id ← exactId judgment.id "Reviewer judgment identity"
  let propositionId ← exactId judgment.propositionId "Judgment proposition identity"
  let limitationIds ← sortedIds judgment.limitationIds "Judgment limitation identity"
  let fragmentDigest ← digest judgment.fragmentDigest "Judgment fragment digest"
  pure {
    id := id
    propositionId := propositionId
    disposition := judgment.disposition
    citationIds := citationIds
    inspectedSubjectIds := retainedSubjects
    uncertainty := judgment.uncertainty
    limitationIds := limitationIds
    fragmentDigest := fragmentDigest }

/-- The receipts the baseline has to be judged by. -/
def requiredBaselineIds (facts : Requirements) (checks : List RetainedCheck) : List String :=
  sortOn (fun id => id) ((checks.filter fun check => check.phase = .baseline
    ∧ ∃ selection ∈ facts.checks, selection.id = check.selectionId
      ∧ selection.baselineRequired = true).map (·.reference.id))

/-- **`reviewJudgments`.** -/
def reviewJudgments (review : ReviewFacts) (facts : Requirements) (checks : List RetainedCheck) :
    Except FoundationError NormalizedReview := do
  let citations ← review.citations.mapM normalizedCitation
  failIf (∃ citation ∈ citations, citesExactly checks citation = false)
    (reviewFailure "Reviewer citation substitutes its exact Check observation")
  failIf (¬ (citations.map (·.id)).Nodup)
    (reviewFailure "Reviewer Work Product repeats a citation identity")
  let mandateApplicability ← applicability citations checks review.mandateApplicability none
  let applicabilities ← review.baselineApplicability.mapM fun item =>
    applicability citations checks item.toApplicabilityJudgment (some item.receiptId)
  let baselineApplicability := sortOn (fun item => item.receiptId.getD "") applicabilities
  failIf (baselineApplicability.map (fun item => item.receiptId.getD "")
      ≠ requiredBaselineIds facts checks) (reviewFailure
    "Integration review must judge every and only exact required original baseline Receipt once")
  let judgments ← review.judgments.mapM (normalizedJudgment citations)
  failIf (¬ (judgments.map (·.propositionId)).Nodup)
    (reviewFailure "Reviewer Work Product repeats a proposition judgment")
  failIf (judgments.length ≠ facts.propositions.length
      ∨ ∃ proposition ∈ facts.propositions, proposition.id ∉ judgments.map (·.propositionId))
    (reviewFailure
      "Reviewer Work Product does not judge every exact Work Boundary proposition once")
  let missingObligationIds ← sortedIds review.missingObligationIds
    "Reviewer missing-obligation identity"
  pure {
    mandateApplicability := mandateApplicability
    baselineApplicability := baselineApplicability
    judgments := sortOn (·.propositionId) judgments
    mandateExcess := review.mandateExcess
    missingObligationIds := missingObligationIds
    overallUncertainty := review.overallUncertainty }

/-- **`reviewRequiresMandateResolutionV1`** (`evidence/review-classification-v1.ts`). -/
def reviewRequiresMandateResolution (mandate : ApplicabilityDisposition)
    (baseline : List ApplicabilityDisposition) (mandateExcess : Bool)
    (missingObligationIds : List String) (overall : Uncertainty)
    (judgments : List Uncertainty) : Bool :=
  decide (mandate = .requiresReadmission) || baseline.any (· = .insufficient) || mandateExcess
    || !missingObligationIds.isEmpty || decide (overall = .material)
    || judgments.any (· = .material)

/-- The review of the ledgers, classified. -/
def NormalizedReview.requiresMandateResolution (review : NormalizedReview) : Bool :=
  reviewRequiresMandateResolution review.mandateApplicability.disposition
    (review.baselineApplicability.map (·.disposition)) review.mandateExcess
    review.missingObligationIds review.overallUncertainty (review.judgments.map (·.uncertainty))

/-! ## Propositions, artifacts and Descriptions -/

inductive Validation
  | valid
  | invalid
  | indeterminate
deriving DecidableEq

structure PropositionEntry where
  id : String
  propositionId : String
  reviewerDisposition : JudgmentDisposition
  reviewWorkProductId : String
  fragmentDigest : Sha256Digest
  citationIds : List String
  inspectedSubjectIds : List String
  limitationIds : List String
  uncertainty : Uncertainty
  provenance : Provenance := .agentProposed
  validation : Validation

/-- `legalNotApplicable`. -/
def legalNotApplicable (proposition : BoundaryProposition) (judgment : ReviewJudgment) : Bool :=
  decide (judgment.disposition = .notApplicable) && proposition.allowNotApplicable
    && proposition.notApplicableCondition.isSome

/-- `acceptedWithVisibleLimits`. -/
def acceptedWithVisibleLimits (judgment : ReviewJudgment) : Bool :=
  decide (judgment.disposition = .accepted
    ∧ (judgment.uncertainty = .none ∨ judgment.uncertainty = .bounded))

def propositionValidation (proposition : BoundaryProposition) (judgment : ReviewJudgment) :
    Validation :=
  if legalNotApplicable proposition judgment || acceptedWithVisibleLimits judgment then .valid
  else if judgment.disposition = .indeterminate ∨ judgment.uncertainty = .unknown then
    .indeterminate
  else .invalid

def propositionEntry (workProduct : ExactReference) (facts : Requirements)
    (judgment : ReviewJudgment) : Except FoundationError PropositionEntry := do
  let proposition ← orFail (mapGet (·.id) facts.propositions judgment.propositionId) typeError
  let id ← localId "proposition-decision" [("propositionId", .string proposition.id)]
  pure {
    id := id
    propositionId := proposition.id
    reviewerDisposition := judgment.disposition
    reviewWorkProductId := workProduct.id
    fragmentDigest := judgment.fragmentDigest
    citationIds := judgment.citationIds
    inspectedSubjectIds := judgment.inspectedSubjectIds
    limitationIds := judgment.limitationIds
    uncertainty := judgment.uncertainty
    validation := propositionValidation proposition judgment }

def propositionLedger (workProduct : ExactReference) (facts : Requirements)
    (review : NormalizedReview) : Except FoundationError (List PropositionEntry) :=
  review.judgments.mapM (propositionEntry workProduct facts)

/-- The state of a ledger's entry, or of an obligation. -/
inductive EvidenceState
  | satisfied
  | failed
  | indeterminate
  | missing
  | notApplicable
  | stale
  | unsupported
deriving DecidableEq

structure ArtifactEntry where
  id : String
  artifactId : String
  path : String
  fileKind : FileKind
  existence : Existence
  change : ArtifactChange
  contentDigest : Option Sha256Digest
  manifestDigest : Option Sha256Digest
  schemaValidation : ArtifactValidation
  semanticValidation : ArtifactValidation
  obligationIds : List String
  sourceRecordIds : List String
  limitations : List String
  state : EvidenceState
  provenance : Provenance := .runtimeObserved

def artifactFailure (message : String) : FoundationError := evidenceFailure "artifact" message

def artifactState (artifact : BoundaryArtifact) (observation : ArtifactObservation) :
    EvidenceState :=
  if observation.schemaValidation = .indeterminate ∨ observation.semanticValidation = .indeterminate
      ∨ (artifact.mustChange = true ∧ observation.change = .indeterminate) then .indeterminate
  else if observation.existence = .present
      ∧ (observation.fileKind = .file ∨ observation.fileKind = .directory)
      ∧ (if observation.fileKind = .file then observation.contentDigest ≠ none
        else observation.manifestDigest ≠ none)
      ∧ (observation.schemaValidation = .valid ∨ observation.schemaValidation = .notRequired)
      ∧ (observation.semanticValidation = .valid ∨ observation.semanticValidation = .notRequired)
      ∧ (artifact.mustChange = false ∨ observation.change = .added
        ∨ observation.change = .modified) then .satisfied
  else .failed

/-- The receipts of the Checks that share an obligation with an artifact. -/
def sharingChecks (facts : Requirements) (checks : List RetainedCheck)
    (artifact : BoundaryArtifact) : List RetainedCheck :=
  checks.filter fun check =>
    (facts.checks.find? fun selection => selection.id = check.selectionId).any fun selection =>
      selection.obligationIds.any fun obligationId => artifact.obligationIds.contains obligationId

def artifactEntry (observations : List ArtifactObservation) (facts : Requirements)
    (candidate : ExactReference) (checks : List RetainedCheck) (artifact : BoundaryArtifact) :
    Except FoundationError ArtifactEntry := do
  let observation ← orFail (mapGet (·.artifactId) observations artifact.id) typeError
  failIf ((observation.existence = .absent ∧ observation.fileKind ≠ .absent)
      ∨ (observation.existence = .present ∧ observation.fileKind = .absent)
      ∨ (observation.fileKind = .directory ∧ observation.contentDigest ≠ none)
      ∨ (observation.fileKind ≠ .directory ∧ observation.manifestDigest ≠ none))
    (artifactFailure s!"Artifact observation {artifact.id} has incoherent physical facts")
  let _ ← observation.contentDigest.mapM fun value => digest value "Artifact content digest"
  let _ ← observation.manifestDigest.mapM fun value => digest value "Artifact manifest digest"
  let sourceRecordIds ← sortedIds
    (candidate.id :: (sharingChecks facts checks artifact).map (·.reference.id))
    "Artifact source record identity"
  let id ← localId "artifact-ledger" [("artifactId", .string artifact.id)]
  let limitations ← sortedIds observation.limitationIds "Artifact limitation identity" 1024
  pure {
    id := id
    artifactId := artifact.id
    path := artifact.path
    fileKind := observation.fileKind
    existence := observation.existence
    change := observation.change
    contentDigest := observation.contentDigest
    manifestDigest := observation.manifestDigest
    schemaValidation := observation.schemaValidation
    semanticValidation := observation.semanticValidation
    obligationIds := artifact.obligationIds
    sourceRecordIds := sourceRecordIds
    limitations := limitations
    state := artifactState artifact observation }

def artifactLedger (observations : List ArtifactObservation) (facts : Requirements)
    (candidate : ExactReference) (checks : List RetainedCheck) :
    Except FoundationError (List ArtifactEntry) := do
  failIf (4096 < observations.length)
    (evidenceFailure "bound" "Artifact observations exceed the Evidence profile")
  failIf (¬ (observations.map (·.artifactId)).Nodup
      ∨ observations.length ≠ facts.artifacts.length
      ∨ ∃ artifact ∈ facts.artifacts, artifact.id ∉ observations.map (·.artifactId))
    (artifactFailure "Artifact observations must cover every exact Work Boundary artifact once")
  let entries ← facts.artifacts.mapM (artifactEntry observations facts candidate checks)
  pure (sortOn (·.id) entries)

structure DescriptionEntry where
  id : String
  path : String
  descriptionId : Option String
  selector : Option String
  ownership : Ownership
  implementationChange : ContentChange
  descriptionChange : ContentChange
  exclusionChange : ExclusionChange
  obligationIds : List String
  sourceRecordIds : List String
  state : EvidenceState
  provenance : Provenance := .runtimeObserved

def descriptionFailure (message : String) : FoundationError :=
  evidenceFailure "description" message

/-- A character no `.` of a pattern matches. -/
def isLineTerminator (c : Char) : Bool := [10, 13, 8232, 8233].contains c.toNat

/-- `PATH_PATTERN`: its lookaheads see the first line only, and a path of one
line to its end. -/
def matchesPathPattern (path : String) : Bool :=
  let points := path.toList
  let line := '/' :: points.takeWhile fun c => !isLineTerminator c
  !points.isEmpty && !points.any (fun c => Nat.ble c.toNat 31 || Nat.beq c.toNat 127)
    && decide (¬ "//".toList <:+: line) && decide (¬ "/../".toList <:+: line)
    && !(decide (line.length = points.length + 1) && decide ("/..".toList <:+ line))

def descriptionState (observation : DescriptionObservation) : EvidenceState :=
  if observation.ownership = .indeterminate then .indeterminate
  else if observation.ownership = .excluded then .notApplicable
  else if observation.ownership = .exact ∧ observation.descriptionId ≠ none
      ∧ observation.selector ≠ none ∧ observation.descriptionChange ≠ .absent then .satisfied
  else .failed

/-- The entry of one observation. -/
def descriptionEntry (facts : Requirements) (candidate : ExactReference)
    (observation : DescriptionObservation) : Except FoundationError DescriptionEntry := do
  let selectedObligations ← sortedIds observation.obligationIds "Description obligation identity"
  failIf (∃ obligationId ∈ selectedObligations, obligationId ∉ facts.obligations.map (·.id))
    (descriptionFailure
      "Description observation cites an obligation outside the exact Work Boundary")
  let _ ← observation.descriptionId.mapM fun value => exactId value "Description identity"
  let _ ← observation.selector.mapM fun value => singleLine value "Description selector"
  let id ← localId "description-ledger" [("path", .string observation.path)]
  pure {
    id := id
    path := observation.path
    descriptionId := observation.descriptionId
    selector := observation.selector
    ownership := observation.ownership
    implementationChange := observation.implementationChange
    descriptionChange := observation.descriptionChange
    exclusionChange := observation.exclusionChange
    obligationIds := selectedObligations
    sourceRecordIds := [candidate.id]
    state := descriptionState observation }

/-- One observation, after those of other paths. -/
def addDescription (facts : Requirements) (candidate : ExactReference)
    (entries : List DescriptionEntry) (observation : DescriptionObservation) :
    Except FoundationError (List DescriptionEntry) := do
  failIf (matchesPathPattern observation.path = false
      ∨ 4096 < (observation.path.toList.flatMap utf16Units).length)
    (descriptionFailure "Description observation path is not one normalized relative path")
  failIf (observation.path ∈ entries.map (·.path))
    (descriptionFailure s!"Description coverage repeats path {observation.path}")
  let entry ← descriptionEntry facts candidate observation
  pure (entries ++ [entry])

def descriptionLedger (observations : List DescriptionObservation) (facts : Requirements)
    (candidate : ExactReference) : Except FoundationError (List DescriptionEntry) := do
  failIf (4096 < observations.length)
    (evidenceFailure "bound" "Description observations exceed the Evidence profile")
  let entries ← replay (addDescription facts candidate) [] observations
  pure (sortOn (·.id) entries)

structure IndependenceEntry where
  id : String
  ruleId : String
  contextSeparation : ContextSeparation
  subjectDisposition : SubjectDisposition
  state : EvidenceState

def independenceState (separation : ContextSeparation) (subject : SubjectDisposition) :
    EvidenceState :=
  if separation = .distinct ∧ subject = .exactReadOnly then .satisfied
  else if separation = .shared ∨ subject = .mutated then .failed
  else .indeterminate

def reviewerIndependence (input : AssessmentInput) :
    Except FoundationError (List IndependenceEntry) := do
  let ruleId := "rule.independent-review.standard-v1"
  let id ← localId "independence" [("ruleId", .string ruleId)]
  let subject := input.observation.reviewerSubjectDisposition
  pure [⟨id, ruleId, input.contextSeparation, subject,
    independenceState input.contextSeparation subject⟩]

end Evidence
