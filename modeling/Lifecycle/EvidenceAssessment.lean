import Lifecycle.EvidenceLedgers

/-!
# Evidence assessment

`assessFoundationEvidenceV1` (`evidence/assessment-v1.ts`): the state of each
obligation is folded from the entries of all four ledgers that are linked to
it, and the disposition and the level of uncertainty are computed from the
ledgers, each by an expression of its own.
-/

open Fallible Json ControlModel Timestamp SortedBy

namespace Evidence

/-! ## Obligations -/

inductive ObligationReason
  | reviewerReportedObligationMissing
  | requiredEvidenceEntryMissing
  | evidenceFailed
  | evidenceMissing
  | evidenceStale
  | evidenceUnsupported
  | evidenceIndeterminate
  | diagnosticObligationNotApplicable
  | obligationHasNoEvidenceRoute
  | evidenceSatisfied
deriving DecidableEq

structure ObligationEntry where
  id : String
  obligationId : String
  state : EvidenceState
  checkIds : List String
  receiptIds : List String
  propositionDecisionIds : List String
  artifactLedgerIds : List String
  reasonCode : ObligationReason
  provenance : Provenance := .runtimeDerived

/-- The state a receipt stands for. -/
def ReceiptEntry.state (entry : ReceiptEntry) : EvidenceState :=
  if entry.use = .missing then .missing
  else if entry.freshness = .stale then .stale
  else if entry.freshness = .indeterminate then .indeterminate
  else if entry.reasonCode.illegal then .failed
  else .satisfied

/-- The state a proposition decision stands for. -/
def PropositionEntry.state (entry : PropositionEntry) : EvidenceState :=
  match entry.validation with
  | .valid => .satisfied
  | .indeterminate => .indeterminate
  | .invalid => .failed

/-- The state of an obligation by the states of its entries. -/
def foldedState (severity : Severity) (values : List EvidenceState) :
    EvidenceState × ObligationReason :=
  if .failed ∈ values then (.failed, .evidenceFailed)
  else if .missing ∈ values then (.missing, .evidenceMissing)
  else if .stale ∈ values then (.stale, .evidenceStale)
  else if .unsupported ∈ values then (.unsupported, .evidenceUnsupported)
  else if .indeterminate ∈ values then (.indeterminate, .evidenceIndeterminate)
  else if values = [] ∧ severity = .diagnostic then
    (.notApplicable, .diagnosticObligationNotApplicable)
  else if values = [] then (.missing, .obligationHasNoEvidenceRoute)
  else (.satisfied, .evidenceSatisfied)

/-- What the obligations are judged by. -/
structure Ledgers where
  receiptEntries : List ReceiptEntry
  propositions : List PropositionEntry
  artifacts : List ArtifactEntry
  descriptions : List DescriptionEntry
  review : NormalizedReview

namespace Ledgers

variable (facts : Requirements) (ledgers : Ledgers) (obligation : BoundaryObligation)

def checkSelections : List CheckSelection :=
  facts.checks.filter fun selection => obligation.id ∈ selection.obligationIds

def receipts : List ReceiptEntry :=
  (checkSelections facts obligation).flatMap fun selection =>
    (ledgers.receiptEntries.filter fun entry => entry.checkId = selection.id).filter
      fun entry => selection.required entry.phase

def propositionEntries : List PropositionEntry :=
  obligation.propositionIds.filterMap (mapGet (·.propositionId) ledgers.propositions)

def artifactEntries : List ArtifactEntry :=
  obligation.requiredEvidenceArtifactIds.filterMap (mapGet (·.artifactId) ledgers.artifacts)

def descriptionEntries : List DescriptionEntry :=
  ledgers.descriptions.filter fun entry => obligation.id ∈ entry.obligationIds

/-- The states of the entries of all four ledgers. -/
def values : List EvidenceState :=
  (ledgers.receipts facts obligation).map (·.state)
    ++ (ledgers.propositionEntries obligation).map (·.state)
    ++ (ledgers.artifactEntries obligation).map (·.state)
    ++ (ledgers.descriptionEntries obligation).map (·.state)

def obligationState : EvidenceState × ObligationReason :=
  if obligation.id ∈ ledgers.review.missingObligationIds then
    (.missing, .reviewerReportedObligationMissing)
  else if (ledgers.artifactEntries obligation).length
        ≠ obligation.requiredEvidenceArtifactIds.length
      ∨ (ledgers.propositionEntries obligation).length ≠ obligation.propositionIds.length then
    (.missing, .requiredEvidenceEntryMissing)
  else foldedState obligation.severity (ledgers.values facts obligation)

def obligationEntry : Except FoundationError ObligationEntry := do
  let (state, reasonCode) := ledgers.obligationState facts obligation
  let id ← localId "obligation-state" [("obligationId", .string obligation.id)]
  let receiptIds ← sortedIds ((ledgers.receipts facts obligation).filterMap (·.receiptId))
    "Obligation Receipt identity"
  let propositionDecisionIds ← sortedIds ((ledgers.propositionEntries obligation).map (·.id))
    "Proposition decision identity"
  let artifactLedgerIds ← sortedIds ((ledgers.artifactEntries obligation).map (·.id))
    "Artifact ledger identity"
  pure {
    id := id
    obligationId := obligation.id
    state := state
    checkIds := sortKeys ((checkSelections facts obligation).map (·.id))
    receiptIds := receiptIds
    propositionDecisionIds := propositionDecisionIds
    artifactLedgerIds := artifactLedgerIds
    reasonCode := reasonCode }

end Ledgers

def obligationLedger (facts : Requirements) (ledgers : Ledgers) :
    Except FoundationError (List ObligationEntry) := do
  let entries ← facts.obligations.mapM (ledgers.obligationEntry facts)
  pure (sortOn (·.id) entries)

/-! ## Uncertainty -/

structure UncertaintyLevel where
  level : Uncertainty
  itemIds : List String

/-- A state that leaves nothing open. -/
def EvidenceState.settled (state : EvidenceState) : Bool :=
  decide (state = .satisfied ∨ state = .notApplicable)

/-- A state of an obligation that leaves the uncertainty unknown. -/
def EvidenceState.unsure (state : EvidenceState) : Bool :=
  decide (state = .indeterminate ∨ state = .missing ∨ state = .stale ∨ state = .unsupported)

def uncertaintyLevel (review : NormalizedReview) (obligations : List ObligationEntry)
    (independence : List IndependenceEntry) : Except FoundationError UncertaintyLevel := do
  let items := ((review.judgments.filter fun judgment => judgment.uncertainty ≠ .none).map (·.id))
    ++ ((obligations.filter fun obligation => !obligation.state.settled).map (·.id))
    ++ ((independence.filter fun entry => entry.state ≠ .satisfied).map (·.id))
  let judgmentLevels : List Uncertainty := review.judgments.map (·.uncertainty)
  let level : Uncertainty :=
    if review.requiresMandateResolution then .material
    else if review.mandateApplicability.disposition = .indeterminate
        ∨ (∃ item ∈ review.baselineApplicability, item.disposition = .indeterminate)
        ∨ review.overallUncertainty = .unknown ∨ .unknown ∈ judgmentLevels
        ∨ (∃ obligation ∈ obligations, obligation.state.unsure = true)
        ∨ (∃ entry ∈ independence, entry.state = .indeterminate) then .unknown
    else if review.overallUncertainty = .bounded ∨ .bounded ∈ judgmentLevels then .bounded
    else .none
  let itemIds ← sortedIds items "Uncertainty item identity"
  pure ⟨level, itemIds⟩

/-! ## The assessment -/

def ExactReference.value (reference : ExactReference) : Json :=
  .object [("kind", .string reference.kind), ("id", .string reference.id),
    ("revision", .number reference.revision), ("digest", .string reference.digest)]

def ParentBasis.value (parent : ParentBasis) : Json :=
  .object [("commit", .string parent.commit), ("tree", .string parent.tree),
    ("snapshotDigest", .string parent.snapshotDigest)]

def AssessmentSubject.value (subject : AssessmentSubject) : Json :=
  .object [("boundary", subject.boundary.value), ("candidate", subject.candidate.value),
    ("seal", subject.candidateSeal.value), ("integration", subject.integration.value),
    ("parent", subject.parent.value)]

def SelectedRules.value (rules : SelectedRules) : Json :=
  .object [("id", .string rules.id), ("digest", .string rules.digest)]

def Diagnostic.value (diagnostic : Diagnostic) : Json :=
  .object [("code", .string diagnostic.code), ("stage", .string diagnostic.stage),
    ("factsDigest", .string diagnostic.factsDigest)]

def assertReference (value : ExactReference) : Except FoundationError Unit := do
  let _ ← exactId value.kind "Evidence source kind"
  let _ ← exactId value.id "Evidence source identity"
  let _ ← positiveInteger value.revision "Evidence source revision"
  let _ ← digest value.digest "Evidence source digest"

/-- Two values with unlike canonical texts are refused. -/
def assertSame (left right : Json) (failure : FoundationError) : Except FoundationError Unit := do
  let leftText ← canonicalJson left
  let rightText ← canonicalJson right
  failIf (leftText ≠ rightText) failure

/-- `FOUNDATION_RUNTIME_PROTOCOL`. -/
def foundationRuntimeProtocol : String := "lifecycle.runtime.foundation.v17"

/-- `FOUNDATION_EVIDENCE_RULE_SET_V7`. -/
def foundationEvidenceRuleSet : Except FoundationError SelectedRules := do
  let id := "lifecycle.evidence-packet-rule-set.foundation-v2"
  let digest ← digestCanonical (.object [("id", .string id),
    ("runtimeProtocol", .string foundationRuntimeProtocol),
    ("evidenceProfile", .string "lifecycle.evidence-packet.foundation-v2"),
    ("controlStore", .string "lifecycle.control-record-store.v2")])
  pure ⟨id, digest⟩

/-- `FOUNDATION_EVIDENCE_VALIDATOR_V7`. -/
def foundationEvidenceValidator : Except FoundationError SelectedRules := do
  let id := "lifecycle-runtime-evidence-validator-v7"
  let ruleSet ← foundationEvidenceRuleSet
  let digest ← digestCanonical (.object [("id", .string id),
    ("runtimeProtocol", .string foundationRuntimeProtocol),
    ("ruleSetDigest", .string ruleSet.digest)])
  pure ⟨id, digest⟩

/-- One of the subjects that boundary, candidate and seal are, as the
observation and the review select it. -/
def assertSubject (input : AssessmentInput) (name : AssessmentSubject → ExactReference) :
    Except FoundationError Unit := do
  let failure := evidenceFailure "subject" "Evidence facts select different exact subjects"
  assertReference (name input.subject)
  assertSame (name input.subject).value (name input.observationSubject).value failure
  assertSame (name input.subject).value (name input.review.subject).value failure

/-- The tests of the subjects of an input. -/
def assertSubjects (input : AssessmentInput) : Except FoundationError Unit := do
  assertSubject input (·.boundary)
  assertSubject input (·.candidate)
  assertSubject input (·.candidateSeal)
  assertSame input.review.subject.value input.subject.value (evidenceFailure "subject"
    "Review applicability selects another exact integration subject")
  failIf (Schema.isGitObject input.subject.parent.commit = false
      ∨ Schema.isGitObject input.subject.parent.tree = false)
    (evidenceFailure "subject" "Integration parent has an invalid Git coordinate")
  let _ ← digest input.subject.parent.snapshotDigest "Integration parent Snapshot"
  let failure := evidenceFailure "subject"
    "Physical Evidence facts select another exact integration comparison basis"
  assertSame input.observationSubject.integration.value input.subject.integration.value failure
  assertSame input.observationSubject.parent.value input.subject.parent.value failure
  assertReference input.subject.integration
  assertReference input.review.reference

/-- The subject a receipt of a phase proves. -/
def AssessmentSubject.proved (subject : AssessmentSubject) : CheckPhase → ExactReference
  | .baseline => subject.boundary
  | .final => subject.candidateSeal

def assertCheck (input : AssessmentInput) (check : RetainedCheck) :
    Except FoundationError Unit := do
  assertReference check.reference
  assertSame check.proofSubject.value (input.subject.proved check.phase).value
    (evidenceFailure "check" "Check observation selects a different exact proof subject")

def assertRules (observation : PacketObservation) : Except FoundationError Unit := do
  let failure := evidenceFailure "selection"
    "Evidence assessment selects unsupported semantic rules"
  let ruleSet ← foundationEvidenceRuleSet
  assertSame observation.ruleSet.value ruleSet.value failure
  let validator ← foundationEvidenceValidator
  assertSame observation.validator.value validator.value failure

/-- The identities of one list of requirements. -/
def assertIdentities (ids : List String) : Except FoundationError Unit := do
  failIf (4096 < ids.length ∨ ¬ ids.Nodup) (evidenceFailure "bound"
    "Evidence requirements repeat identities or exceed the selected bound")
  ids.forM fun value => do
    let _ ← exactId value "Evidence requirement identity"

def assertRequirements (requirements : Requirements) : Except FoundationError Unit := do
  assertIdentities (requirements.checks.map (·.id))
  assertIdentities (requirements.obligations.map (·.id))
  assertIdentities (requirements.artifacts.map (·.id))
  assertIdentities (requirements.propositions.map (·.id))

def assertBounds (input : AssessmentInput) : Except FoundationError Unit :=
  failIf (8192 < input.checks.length ∨ 4096 < input.review.citations.length
      ∨ 4096 < input.review.judgments.length ∨ 4096 < input.review.baselineApplicability.length)
    (evidenceFailure "bound" "Evidence observations exceed selected bounds")

def assertDiagnostic (diagnostic : Diagnostic) : Except FoundationError Unit := do
  let _ ← exactId diagnostic.code "Evidence diagnostic"
  let _ ← exactId diagnostic.stage "Evidence diagnostic stage"
  let _ ← digest diagnostic.factsDigest "Evidence diagnostic facts"

def assertDiagnostics (diagnostics : List Diagnostic) : Except FoundationError Unit := do
  let failure := evidenceFailure "diagnostic"
    "Evidence diagnostics repeat or exceed the selected bound"
  failIf (1024 < diagnostics.length) failure
  let digests ← diagnostics.mapM fun diagnostic => digestCanonical diagnostic.value
  failIf (¬ digests.Nodup) failure
  diagnostics.forM assertDiagnostic

inductive AssessmentDisposition
  | mandateResolutionRequired
  | supported
  | indeterminate
  | unmet
deriving DecidableEq

/-- `FoundationEvidenceAssessmentV1`. -/
structure Assessment where
  disposition : AssessmentDisposition
  requiresMandateResolution : Bool
  artifacts : List ArtifactEntry
  descriptions : List DescriptionEntry
  receiptUse : List ReceiptEntry
  mandateApplicability : Applicability
  baselineApplicability : List Applicability
  independence : List IndependenceEntry
  propositions : List PropositionEntry
  obligations : List ObligationEntry
  uncertainty : UncertaintyLevel

/-- The tests of an input before its ledgers. -/
def assertInput (input : AssessmentInput) : Except FoundationError Unit := do
  assertSubjects input
  input.checks.forM (assertCheck input)
  assertRules input.observation
  assertRequirements input.requirements
  assertBounds input
  assertDiagnostics input.observation.diagnostics

/-- `supported`. -/
def supported (receipt : ReceiptLedgers) (review : NormalizedReview)
    (propositions : List PropositionEntry) (obligations : List ObligationEntry)
    (artifacts : List ArtifactEntry) (descriptions : List DescriptionEntry)
    (independence : List IndependenceEntry) (diagnostics : List Diagnostic) : Bool :=
  decide (review.mandateApplicability.disposition = .applicable)
    && review.baselineApplicability.all (·.disposition = .applicable)
    && receipt.completeAndLegal && decide (review.overallUncertainty ≠ .unknown)
    && propositions.all (·.validation = .valid) && obligations.all (·.state.settled)
    && artifacts.all (·.state = .satisfied) && descriptions.all (·.state.settled)
    && independence.all (·.state = .satisfied) && diagnostics.isEmpty

/-- **`assessFoundationEvidenceV1`.** -/
def assessFoundationEvidence (input : AssessmentInput) : Except FoundationError Assessment := do
  assertInput input
  let facts := input.requirements
  let evaluatedMs ← timestamp input.observation.evaluatedAt "Evidence assessment time"
  let receipt ← receiptLedgers facts input.checks evaluatedMs
  let review ← reviewJudgments input.review facts receipt.usedChecks
  let propositions ← propositionLedger input.review.reference facts review
  let artifacts ← artifactLedger input.observation.artifacts facts input.subject.candidate
    receipt.usedChecks
  let descriptions ← descriptionLedger input.observation.descriptionCoverage facts
    input.subject.candidate
  let independence ← reviewerIndependence input
  let obligations ← obligationLedger facts
    ⟨receipt.entries, propositions, artifacts, descriptions, review⟩
  let uncertainty ← uncertaintyLevel review obligations independence
  let requiresMandateResolution := review.requiresMandateResolution
  let supported := supported receipt review propositions obligations artifacts descriptions
    independence input.observation.diagnostics
  let disposition : AssessmentDisposition :=
    if requiresMandateResolution then .mandateResolutionRequired
    else if supported then .supported
    else if uncertainty.level = .unknown then .indeterminate else .unmet
  pure {
    disposition := disposition
    requiresMandateResolution := requiresMandateResolution
    artifacts := artifacts
    descriptions := descriptions
    receiptUse := receipt.entries
    mandateApplicability := review.mandateApplicability
    baselineApplicability := review.baselineApplicability
    independence := independence
    propositions := propositions
    obligations := obligations
    uncertainty := uncertainty }

end Evidence
