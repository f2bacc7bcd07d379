import Lifecycle.AgentHandlers

/-!
# Conditions, seals, checks and evidence

The handlers of `process/delivery-reducer.ts` an activity is concluded by:
the material condition it freezes, the seal of the candidate, the check
receipts of a baseline or of an evaluation, and the evidence packet.
-/

open Fallible Json ControlModel

namespace DeliveryReducer

variable (resolve : DeliveryRecordRevisionResolver)

/-! ## Material conditions -/

/-- The sources of a condition as they are written. -/
def conditionSources : List (String × ConditionSource) :=
  [("agent-proposal", .agentProposal), ("integration-assessment", .integrationAssessment),
    ("projection-compilation", .projectionCompilation)]

def conditionSourceText : ConditionSource → String
  | .agentProposal => "agent-proposal"
  | .integrationAssessment => "integration-assessment"
  | .projectionCompilation => "projection-compilation"

/-- A condition as it is finalized. -/
structure FinalizedCondition where
  activityId : String
  revision : ControlRecordRevision
  source : JsonObject
  observedFactsDigest : Sha256Digest

/-- A condition an integration assessment reports. -/
def assertIntegrationCondition (replay : Replay) (activity : ReplayActivity)
    (c : FinalizedCondition) : Except FoundationError Unit := do
  let unready := reducerError "order"
    "Integration Condition requires the exact constructed successor before finalization"
  failIf (activity.operation ≠ .integrate ∨ activity.family ≠ .integration
      ∨ activity.candidate = none ∨ activity.materialCondition ≠ none
      ∨ activity.resumesAt ≠ some .activityFinalization) unready
  let selected ← orFail activity.integrationAssessment unready
  let assessment ← integrationAssessmentFor resolve replay selected
  let applicabilityDigest ← digestCanonical assessment.contextualApplicability
  failIf (assessment.disposition ≠ .requiresReadmission
      ∨ c.observedFactsDigest ≠ applicabilityDigest
      ∨ asString (member "conditionClass" c.revision.payload)
        ≠ some "integration-context-change")
    (reducerError "record-payload"
      "Integration Condition must reproduce the exact contextual change observation")
  assertOnlyRelationships c.revision ["reported-by", "freezes", "governed-by"]
  let reportedBy ← requiredRelationship c.revision "reported-by" "integration-assessment"
  assertReference reportedBy activity.integrationAssessment "Integration Condition source"
  let freezes ← requiredRelationship c.revision "freezes" "candidate-revision"
  assertReference freezes activity.candidate "Integration frozen Candidate"
  let governedBy ← requiredRelationship c.revision "governed-by" "work-boundary"
  assertReference governedBy replay.subjects.activeBoundary "Integration Condition Boundary"

/-- A reference as the target of a kind, as JSON. -/
def targetOf (kind : String) (r : SubjectReference) : Json :=
  targetJson ⟨kind, r.id, r.revision, r.digest⟩

/-- `foundationProjectionConditionObservedFactsDigestV1`
(`control/projection-condition-facts.ts`). -/
def projectionConditionObservedFactsDigest (activityId : String)
    (boundary candidate : SubjectReference) (candidateSeal : Option SubjectReference)
    (refusal : ControlRecordEvent) (source : JsonObject) :
    Except FoundationError Sha256Digest :=
  digestCanonical (.object [
    ("schema", .string "lifecycle.projection-condition-observed-facts.v1"),
    ("activityId", .string activityId), ("boundary", targetOf "work-boundary" boundary),
    ("candidate", targetOf "candidate-revision" candidate),
    ("seal", match candidateSeal with
      | some r => targetOf "candidate-seal" r
      | none => .null),
    ("refusalEvent", .object [("sequence", nat refusal.sequence),
      ("digest", .string refusal.digest)]),
    ("source", .object source)])

/-- The seal a projection condition of an activity is observed in. -/
def projectionSeal (activity : ReplayActivity) : Option SubjectReference :=
  if activity.operation = .evaluate then activity.candidateSeal else none

/-- The relationship of a projection condition to the seal, when there is
one. -/
def assertObservedIn (revision : ControlRecordRevision)
    (candidateSeal : Option SubjectReference) : Except FoundationError Unit :=
  match candidateSeal with
  | none => .ok ()
  | some r => do
    let observedIn ← requiredRelationship revision "observed-in" "candidate-seal"
    assertReference observedIn (some r) "Projection Condition Seal"

/-- Whether an activity is at the refusal a projection condition reports. -/
def awaitsProjectionCondition (activity : ReplayActivity) : Bool :=
  decide (activity.operation = .evaluate ∨ activity.operation = .continue)
    && decide (activity.family = .agent) && decide (activity.stage = .finalizing)
    && decide (activity.resumesAt = some .activityFinalization)
    && activity.attempt.isNone && activity.providerEffectDigest.isNone
    && activity.providerOutcome.isNone && activity.workProduct.isNone
    && !activity.workProductAbandoned && activity.receipt.isNone
    && activity.materialCondition.isNone

/-- A condition a projection compilation reports, after a refusal. -/
def assertProjectionCondition (replay : Replay) (activity : ReplayActivity)
    (c : FinalizedCondition) : Except FoundationError Unit := do
  let unmeasured := reducerError "order"
    "Projection Condition requires the exact measured pre-intent builder or reviewer refusal"
  let refusal ← orFail activity.preIntentRefusal unmeasured
  failIf (awaitsProjectionCondition activity = false
      ∨ asString (member "resolution" refusal.payload) ≠ some "projection-condition-required"
      ∨ asString (member "diagnosticCode" refusal.payload) ≠ some mandatoryTooLarge
      ∨ strictEq (member "refusalFactsDigest" c.source)
        (member "refusalFactsDigest" refusal.payload) = false
      ∨ asString (member "conditionClass" c.revision.payload)
        ≠ some "projection-closure-exceeded") unmeasured
  let unbound := reducerError "reference" "Projection Condition requires the exact governing Boundary, Candidate, and any evaluation Seal"
  let boundary ← orFail replay.subjects.activeBoundary unbound
  let candidate ← orFail replay.subjects.candidate unbound
  let candidateSeal := projectionSeal activity
  failIf (activity.operation = .evaluate ∧ candidateSeal = none) unbound
  assertOnlyRelationships c.revision (if candidateSeal = none then ["freezes", "governed-by"]
    else ["freezes", "governed-by", "observed-in"])
  let governedBy ← requiredRelationship c.revision "governed-by" "work-boundary"
  let freezes ← requiredRelationship c.revision "freezes" "candidate-revision"
  assertReference governedBy (some boundary) "Projection Condition Boundary"
  assertReference freezes (some candidate) "Projection frozen Candidate"
  assertObservedIn c.revision candidateSeal
  -- The references digested are those just compared with the relationships.
  let factsDigest ← projectionConditionObservedFactsDigest c.activityId boundary candidate
    candidateSeal refusal c.source
  failIf (c.observedFactsDigest ≠ factsDigest)
    (reducerError "record-payload" "Projection Condition must reproduce exact refusal provenance and subject bindings")

/-- A condition an agent proposes. -/
def assertProposedCondition (replay : Replay) (activity : ReplayActivity)
    (c : FinalizedCondition) : Except FoundationError Unit := do
  assertAgentActivity activity .materialConditionFrozen
  assertCoreAgentTerminal activity
  failIf (activity.operation ≠ .continue ∧ activity.operation ≠ .evaluate)
    (reducerError "activity"
      s!"{activity.operation.text} cannot freeze a Material Condition")
  failIf (activity.workProduct = none ∨ activity.receipt = none
      ∨ replay.subjects.candidate = none ∨ replay.subjects.activeBoundary = none)
    (reducerError "order" "Material Condition requires submitted semantics, its Execution Receipt, and the exact governed Candidate")
  failIf (activity.materialCondition ≠ none)
    (reducerError "duplicate" "Activity already retains a Material Condition")
  assertOnlyRelationships c.revision ["reported-by", "observed-in", "freezes", "governed-by"]

/-- What a condition must satisfy, by its source. -/
def assertCondition (replay : Replay) (activity : ReplayActivity) (c : FinalizedCondition) :
    ConditionSource → Except FoundationError Unit
  | .integrationAssessment => assertIntegrationCondition resolve replay activity c
  | .projectionCompilation => assertProjectionCondition replay activity c
  | .agentProposal => assertProposedCondition replay activity c

/-- Where an activity that froze a condition resumes. -/
def frozenStep (source : ConditionSource) (operation : DeliveryOperation) :
    DeliveryRecoveryStep :=
  if source = .agentProposal ∧ operation = .evaluate then .activityFinalization
  else .activityCompleted

/-- **`freezeMaterialCondition`.** -/
def freezeMaterialCondition (replay : Replay) (event : ControlRecordEvent) :
    Except FoundationError Replay := do
  let payload ← exactPayload event ["sourceKind", "activityId", "observedFactsDigest"]
  let sourceKind ← enumField payload "sourceKind" conditionSources
  let observedFactsDigest ← digestField payload "observedFactsDigest"
  let registered ← registerFinalizedSubject resolve replay event "material-condition"
  let revision := registered.1
  failIf (asString (member "observedFactsDigest" revision.payload) ≠ some observedFactsDigest)
    (reducerError "reference"
      "Material Condition event does not bind its exact observed-facts digest")
  let source ← recordObject (member "source" revision.payload) "Material Condition source"
  failIf (asString (member "kind" source) ≠ some (conditionSourceText sourceKind))
    (reducerError "record-payload"
      "Material Condition event and payload source kinds disagree")
  failIf (replay.subjects.materialCondition ≠ none)
    (reducerError "duplicate" "Delivery already retains an unresolved Material Condition")
  let activityId ← stringField payload "activityId"
  let activity ← activityFor replay payload
  assertCondition resolve replay activity ⟨activityId, revision, source, observedFactsDigest⟩
    sourceKind
  let condition := some (retainedReference revision)
  let frozen := registered.2.setActivity { activity with
    materialCondition := condition
    stage := .finalizing
    recovery := recovery .finalization (frozenStep sourceKind activity.operation) none }
  return { frozen with
    subjects := { replay.subjects with materialCondition := condition } }

/-! ## Seals -/

/-- **`sealCandidate`.** -/
def sealCandidate (replay : Replay) (event : ControlRecordEvent) :
    Except FoundationError Replay := do
  let payload ← exactPayload event ["activityId"]
  let activity ← activityFor replay payload
  failIf (activity.operation ≠ .evaluate)
    (reducerError "activity" "Only evaluation can seal the Candidate")
  failIf (activity.candidateSeal ≠ none)
    (reducerError "duplicate" s!"Evaluation {activity.id} already sealed its Candidate")
  failIf (activity.stage ≠ .started ∨ activity.attempt ≠ none ∨ activity.checks ≠ []
      ∨ activity.recovery.map (·.kind) ≠ some .finalization
      ∨ activity.resumesAt ≠ some .candidateSealed)
    (reducerError "order" "Evaluation must seal the exact current Candidate before Checks or reviewer execution")
  let registered ← registerFinalizedSubject resolve replay event "candidate-seal"
  let sealRevision := registered.1
  assertOnlyRelationships sealRevision ["seals", "governed-by"]
  let sealed ← requiredRelationship sealRevision "seals" "candidate-revision"
  assertReference sealed replay.subjects.candidate "Candidate Seal"
  let governedBy ← requiredRelationship sealRevision "governed-by" "work-boundary"
  assertReference governedBy replay.subjects.activeBoundary "Candidate Seal boundary"
  let candidateSeal := some (retainedReference sealRevision)
  let finalized := registered.2.setActivity { activity with
    candidateSeal
    stage := .finalizing
    recovery := recovery .finalization .evaluationChecks none }
  return { finalized with
    subjects := { replay.subjects with
      candidateSeal
      evidence := none }
    evidenceReadiness := none }

/-! ## Check receipts -/

def checkPhases : List (String × CheckPhase) := [("baseline", .baseline), ("final", .final)]

def checkModalities : List (String × CheckModality) :=
  [("precondition", .precondition), ("repair-target", .repairTarget),
    ("regression-guard", .regressionGuard), ("postcondition", .postcondition),
    ("diagnostic", .diagnostic)]

def checkDispositions : List (String × CheckDisposition) :=
  [("pass", .pass), ("fail", .fail), ("indeterminate", .indeterminate),
    ("not-run", .notRun), ("unsupported", .unsupported),
    ("operational-error", .operationalError)]

/-- The selections the receipts of an activity are for. -/
def requiredSelections (replay : Replay) (activity : ReplayActivity) :
    Except FoundationError (List String) :=
  if activity.operation = .evaluate then finalSelectionIds resolve replay activity
  else baselineSelectionIds resolve replay activity

/-- The receipt of an evaluation: final, for its seal, and of a required
selection it has no receipt for yet. -/
def assertFinalReceipt (replay : Replay) (activity : ReplayActivity) (phase : CheckPhase)
    (selectionId : String) (checksBoundary checksSeal : Option SubjectReference) :
    Except FoundationError Unit := do
  failIf (phase ≠ .final)
    (reducerError "record-payload" "Evaluation Check Receipt must have final phase")
  failIf (checksBoundary ≠ none)
    (reducerError "record-relationship"
      "A final Check Receipt cannot also check a Work Boundary")
  assertReference checksSeal activity.candidateSeal "Check Receipt seal"
  failIf (activity.attempt ≠ none)
    (reducerError "order"
      "Evaluation Checks must complete before the reviewer Attempt is prepared")
  let required ← finalSelectionIds resolve replay activity
  failIf (selectionId ∉ required)
    (reducerError "final-selection" s!"Final Check Receipt selects {
      selectionId}, which is not final-required by the exact Work Boundary")
  failIf (selectionId ∈ receivedSelections .final activity)
    (reducerError "duplicate" s!"Activity {
      activity.id} already retained the final Check Receipt for {selectionId}")

/-- The receipt of a baseline: of its boundary, and of a required
selection it has no receipt for yet. -/
def assertBaselineReceipt (replay : Replay) (activity : ReplayActivity) (phase : CheckPhase)
    (selectionId : String) (checksBoundary checksSeal : Option SubjectReference) :
    Except FoundationError Unit := do
  failIf (activity.operation ≠ .prepare ∧ activity.operation ≠ .revise
      ∧ activity.operation ≠ .reaffirm)
    (reducerError "activity" "Only boundary preparation can retain baseline Check Receipts")
  failIf (phase ≠ .baseline)
    (reducerError "record-payload" "Work Boundary Check Receipt must have baseline phase")
  failIf (checksSeal ≠ none)
    (reducerError "record-relationship"
      "A baseline Check Receipt cannot also check a Candidate Seal")
  assertReference checksBoundary activity.boundary "Check Receipt boundary"
  let required ← baselineSelectionIds resolve replay activity
  failIf (selectionId ∉ required)
    (reducerError "baseline-selection" s!"Baseline Check Receipt selects {
      selectionId}, which is not baseline-required by the exact Work Boundary")
  failIf (selectionId ∈ receivedSelections .baseline activity)
    (reducerError "duplicate" s!"Activity {
      activity.id} already retained the baseline Check Receipt for {selectionId}")

/-- What a receipt must satisfy, by the operation that records it. -/
def assertCheckReceipt (replay : Replay) (activity : ReplayActivity) (phase : CheckPhase)
    (selectionId : String) (checksBoundary checksSeal : Option SubjectReference) :
    Except FoundationError Unit :=
  if activity.operation = .evaluate then
    assertFinalReceipt resolve replay activity phase selectionId checksBoundary checksSeal
  else assertBaselineReceipt resolve replay activity phase selectionId checksBoundary checksSeal

/-- Where an activity resumes once a receipt is among its checks. -/
def checkedStep (operation : DeliveryOperation) (required received : List String) :
    DeliveryRecoveryStep :=
  if operation = .evaluate then .evaluationChecks
  else if ∀ selectionId ∈ required, selectionId ∈ received then .activityCompleted
  else .baselineChecks

/-- **`recordCheckReceipt`.** -/
def recordCheckReceipt (replay : Replay) (event : ControlRecordEvent) :
    Except FoundationError Replay := do
  let payload ← exactPayload event ["activityId"]
  let activity ← activityFor replay payload
  assertAgentActivity activity .checkReceiptRecorded
  let registered ← registerFinalizedSubject resolve replay event "check-receipt"
  let checkRevision := registered.1
  assertOnlyRelationships checkRevision ["checks-boundary", "checks-seal"]
  let checksBoundary ← optionalRelationship checkRevision "checks-boundary" "work-boundary"
  let checksSeal ← optionalRelationship checkRevision "checks-seal" "candidate-seal"
  let phase ← recordEnumField checkRevision "phase" checkPhases
  let selectionId ← recordIdentifierField checkRevision "selectionId"
  let modality ← recordEnumField checkRevision "modality" checkModalities
  assertCheckReceipt resolve replay activity phase selectionId checksBoundary checksSeal
  let disposition ← recordEnumField checkRevision "disposition" checkDispositions
  let check : CheckFact :=
    { reference := retainedReference checkRevision, selectionId, phase, modality, disposition }
  let checked := { activity with checks := activity.checks ++ [check] }
  let required ← requiredSelections resolve replay activity
  return registered.2.setActivity { checked with
    recovery := recovery .finalization
      (checkedStep activity.operation required (receivedSelections .baseline checked)) none }

/-! ## Evidence -/

def evidenceReadinesses : List (String × EvidenceReadiness) :=
  [("acceptance-ready", .acceptanceReady), ("correctable", .correctable),
    ("revision-required", .revisionRequired), ("no-ship-recommended", .noShipRecommended)]

/-- Whether the references bound are the expected set: as many, and each
expected. -/
def bindsExactly (bound expected : List SubjectReference) : Prop :=
  bound.length = expected.dedup.length ∧ ∀ r ∈ bound, r ∈ expected

instance (bound expected : List SubjectReference) : Decidable (bindsExactly bound expected) :=
  inferInstanceAs (Decidable (_ ∧ _))

/-- The checks an evidence packet of an evaluation is about. -/
def evidenceChecks (replay : Replay) (activity : ReplayActivity) : List CheckFact :=
  baselineChecksForBoundary replay replay.subjects.activeBoundary ++ activity.checks

/-- Whether a check has a disposition legal for its phase and modality. -/
def legalReceipt (check : CheckFact) : Bool :=
  match check.phase with
  | .baseline => legalBaselineReceipt check
  | .final => legalAcceptanceReceipt check

/-- What an evidence packet is bound to. -/
def assertEvidenceSubjects (replay : Replay) (activity : ReplayActivity)
    (revision : ControlRecordRevision) : Except FoundationError Unit := do
  assertOnlyRelationships revision ["governed-by", "evaluates", "uses-seal", "uses-check",
    "uses-review", "uses-review-receipt"]
  let governedBy ← requiredRelationship revision "governed-by" "work-boundary"
  assertReference governedBy replay.subjects.activeBoundary "Evidence Packet boundary"
  let evaluates ← requiredRelationship revision "evaluates" "candidate-revision"
  assertReference evaluates replay.subjects.candidate "Evidence Packet Candidate"
  let usesSeal ← requiredRelationship revision "uses-seal" "candidate-seal"
  assertReference usesSeal activity.candidateSeal "Evidence Packet seal"
  let usesReview ← requiredRelationship revision "uses-review" "agent-work-product"
  assertReference usesReview activity.workProduct "Evidence Packet review"
  let usesReceipt ← requiredRelationship revision "uses-review-receipt" "execution-receipt"
  assertReference usesReceipt activity.receipt "Evidence Packet review Receipt"
  let retainedChecks ← relationshipReferences revision "uses-check" "check-receipt"
  failIf (¬ bindsExactly retainedChecks ((evidenceChecks replay activity).map (·.reference)))
    (reducerError "record-relationship"
      "Evidence Packet must bind the complete exact Check Receipt set")

/-- **`finalizeEvidence`.** -/
def finalizeEvidence (replay : Replay) (event : ControlRecordEvent) :
    Except FoundationError Replay := do
  let payload ← exactPayload event ["activityId"]
  let activity ← activityFor replay payload
  failIf (activity.operation ≠ .evaluate)
    (reducerError "activity" "Only evaluation can finalize Evidence")
  assertCoreAgentTerminal activity
  failIf (activity.workProduct = none ∨ activity.receipt = none
      ∨ activity.candidateSeal = none)
    (reducerError "order"
      "Evidence requires a Seal, independent review, and its execution Receipt")
  failIf (activity.checks = [])
    (reducerError "order" "Evidence requires at least one exact-subject Check Receipt")
  failIf (activity.evidence ≠ none)
    (reducerError "duplicate" s!"Evaluation {activity.id} already finalized Evidence")
  let registered ← registerFinalizedSubject resolve replay event "evidence-packet"
  let evidenceRevision := registered.1
  assertEvidenceSubjects replay activity evidenceRevision
  let readiness ← recordEnumField evidenceRevision "readiness" evidenceReadinesses
  failIf (readiness = .acceptanceReady
      ∧ ∃ check ∈ evidenceChecks replay activity, legalReceipt check = false)
    (reducerError "evidence" "Acceptance-ready Evidence cannot retain a Check disposition illegal for its phase and modality")
  failIf (readiness = .revisionRequired ∧ replay.subjects.materialCondition = none)
    (reducerError "evidence"
      "Revision-required Evidence must bind a retained Material Condition")
  let evidence := some (retainedReference evidenceRevision)
  let finalized := registered.2.setActivity { activity with
    evidence
    evidenceReadiness := some readiness
    stage := .finalizing
    recovery := recovery .finalization .activityCompleted none }
  return { finalized with
    subjects := { replay.subjects with evidence }
    evidenceReadiness := some readiness }

end DeliveryReducer
