import Lifecycle.OpeningHandlers
import Lifecycle.IntegrationAssessment

/-!
# Attempts, candidates and boundaries

The handlers of `process/delivery-reducer.ts` an activity goes through
while it works: the refusal before an attempt, the attempt and its
provider effect, the work product, the assessment of an integration, the
observed candidate, the execution receipt and the work boundary.
-/

open Fallible Json ControlModel

namespace DeliveryReducer

variable (resolve : DeliveryRecordRevisionResolver)

/-! ## Refusal before an attempt -/

/-- The resolution of a refusal before any attempt. -/
inductive RefusalResolution
  | none
  | projectionConditionRequired
deriving DecidableEq

def refusalResolutions : List (String × RefusalResolution) :=
  [("none", .none), ("projection-condition-required", .projectionConditionRequired)]

/-- The point an agent activity is refused at before its attempt. -/
def preAttemptStage (operation : DeliveryOperation) : DeliveryActivityStage :=
  if operation = .evaluate then .finalizing else .started

/-- The step an agent activity owes where it is refused. -/
def preAttemptStep (operation : DeliveryOperation) : DeliveryRecoveryStep :=
  if operation = .evaluate then .evaluationChecks else .agentAttemptPrepared

/-- The code of a refusal a projection condition can follow. -/
def mandatoryTooLarge : String := "lifecycle.projection.mandatory-too-large"

/-- **`refuseAgentBeforeIntent`.** -/
def refuseAgentBeforeIntent (replay : Replay) (event : ControlRecordEvent) :
    Except FoundationError Replay := do
  let payload ← exactPayload event
    ["activityId", "diagnosticCode", "refusalFactsDigest", "resolution"]
  let activity ← activityFor replay payload
  assertAgentActivity activity .agentPreIntentRefused
  failIf (event.subject ≠ none ∨ activity.stage ≠ preAttemptStage activity.operation
      ∨ activity.attempt ≠ none ∨ activity.providerEffectDigest ≠ none
      ∨ activity.providerOutcome ≠ none ∨ activity.workProduct ≠ none
      ∨ activity.workProductAbandoned = true ∨ activity.receipt ≠ none
      ∨ activity.recovery ≠ recovery .finalization (preAttemptStep activity.operation) none)
    (reducerError "order"
      s!"Agent activity {activity.id} is not at the exact pre-intent refusal boundary")
  let diagnosticCode ← identifierField payload "diagnosticCode"
  let _ ← digestField payload "refusalFactsDigest"
  let resolution ← enumField payload "resolution" refusalResolutions
  failIf (resolution = .projectionConditionRequired
      ∧ ((activity.operation ≠ .evaluate ∧ activity.operation ≠ .continue)
        ∨ diagnosticCode ≠ mandatoryTooLarge))
    (reducerError "order"
      "Only an exact measured builder or reviewer refusal can require a Projection Condition")
  return replay.setActivity { activity with
    preIntentRefusal := some event
    stage := .finalizing
    recovery := recovery .finalization
      (if resolution = .projectionConditionRequired then .activityFinalization
        else .activityCompleted) none }

/-! ## Attempts -/

/-- `workDelegationAgentSelectionMatches`, of a retained attempt's payload
(`control/work-delegation-execution.ts`). -/
def agentSelectionMatches (selection : WorkDelegationAgentSelection) (payload : JsonObject) :
    Except FoundationError Bool := do
  let part (section' name : String) : Option Json :=
    (asObject (member section' payload)).bind (member name)
  let members : List (String × Option Json) := [
    ("backendProfile", part "execution" "backendProfile"),
    ("image", part "execution" "image"), ("model", part "investment" "model"),
    ("reasoning", part "investment" "reasoning"),
    ("wallTimeMs", part "investment" "wallTimeMs"), ("limits", part "investment" "limits")]
  let provider : List (String × Option Json) :=
    [("id", part "provider" "descriptorId"), ("digest", part "provider" "descriptorDigest")]
  let selected ← canonicalJson (WorkDelegation.agentSelectionJson selection)
  let actual ← canonicalJson (.object
    (("providerDescriptor", .object (provider.filterMap fun m => m.2.map (m.1, ·)))
      :: members.filterMap fun m => m.2.map (m.1, ·)))
  return decide (selected = actual)

/-- `workDelegationAgentAttemptMatches`. -/
def agentAttemptMatches (role : DelegatedRole) (selection : WorkDelegationAgentSelection)
    (attempt : ControlRecordRevision) : Except FoundationError Bool := do
  failIf (attempt.recordKind ≠ "agent-attempt")
    (lifecycleError "lifecycle.work-delegation.execution-binding"
      "Execution must match its exact retained Activity resource reservation")
  assertFoundationSchema "urn:lifecycle:schema:agent-attempt-payload:v3"
    Schema.agentAttemptPayload attempt.payload
    s!"{attempt.recordKind}:{attempt.recordId}:revision-{attempt.revision}:payload"
  let matched ← agentSelectionMatches selection attempt.payload
  return decide (asString (member "role" attempt.payload)
    = some (WorkDelegation.roleText role)) && matched

/-- The attempt of a delegated activity reproduces what its agent slot
reserves. -/
def assertReservedAttempt (reservation : Option WorkDelegationReservation)
    (attempt : ControlRecordRevision) : Except FoundationError Unit :=
  match reservation with
  | none => .ok ()
  | some reservation => do
    let unreserved := reducerError "delegation-attempt"
      "The prepared Attempt must reproduce its reserved Agent resource selection"
    let slot ← orFail (WorkDelegation.agentSlot reservation.slots) unreserved
    let matched ← agentAttemptMatches slot.1 slot.2 attempt
    failIf (matched = false) unreserved

/-- The selections the activity has final receipts for. -/
def receivedSelections (phase : CheckPhase) (activity : ReplayActivity) : List String :=
  (activity.checks.filter fun c => c.phase = phase).map (·.selectionId)

/-- What the attempt of a reviewer waits for, and the seal it uses. -/
def assertReviewerAttempt (replay : Replay) (activity : ReplayActivity)
    (usesSeal : Option SubjectReference) : Except FoundationError Unit := do
  let required ← finalSelectionIds resolve replay activity
  failIf (activity.candidateSeal = none
      ∨ activity.recovery.map (·.kind) ≠ some .finalization
      ∨ activity.resumesAt ≠ some .evaluationChecks
      ∨ ¬ ∀ selectionId ∈ required, selectionId ∈ receivedSelections .final activity)
    (reducerError "order" "Reviewer Attempt requires the exact Candidate Seal and complete required final Check set")
  assertReference usesSeal replay.subjects.candidateSeal
    "Reviewer Attempt current Candidate Seal"

/-- What an attempt uses besides its brief, by its operation. -/
def assertAttemptSubjects (replay : Replay) (activity : ReplayActivity)
    (usesBoundary usesCandidate usesSeal : Option SubjectReference) :
    Except FoundationError Unit :=
  if activity.operation = .prepare then do
    assertAbsentRelationship usesBoundary "Preparation Attempt Work Boundary"
    assertAbsentRelationship usesCandidate "Preparation Attempt Candidate"
    assertAbsentRelationship usesSeal "Preparation Attempt Candidate Seal"
  else do
    assertReference usesBoundary replay.subjects.activeBoundary
      "Agent Attempt active Work Boundary"
    assertReference usesCandidate replay.subjects.candidate "Agent Attempt current Candidate"
    if activity.operation = .evaluate then assertReviewerAttempt resolve replay activity usesSeal
    else assertAbsentRelationship usesSeal "Non-reviewer Agent Attempt Candidate Seal"

/-- **`prepareAttempt`.** -/
def prepareAttempt (replay : Replay) (event : ControlRecordEvent) :
    Except FoundationError Replay := do
  let payload ← exactPayload event ["activityId"]
  let activity ← activityFor replay payload
  assertAgentActivity activity .agentAttemptPrepared
  failIf (activity.preIntentRefusal.isSome = true)
    (reducerError "order"
      s!"Agent activity {activity.id} cannot prepare an Attempt after pre-intent refusal")
  failIf (activity.attempt ≠ none ∨ activity.providerEffectDigest ≠ none)
    (reducerError "order" s!"Agent activity {activity.id} already has a prepared Attempt")
  let registered ← registerFinalizedSubject resolve replay event "agent-attempt"
  let attemptRevision := registered.1
  assertReservedAttempt activity.reservation attemptRevision
  assertOnlyRelationships attemptRevision
    ["uses-brief", "uses-boundary", "uses-candidate", "uses-seal"]
  let usesBrief ← requiredRelationship attemptRevision "uses-brief" "director-brief"
  assertReference usesBrief activity.brief "Agent Attempt Director Brief"
  let usesBoundary ← optionalRelationship attemptRevision "uses-boundary" "work-boundary"
  let usesCandidate ← optionalRelationship attemptRevision "uses-candidate"
    "candidate-revision"
  let usesSeal ← optionalRelationship attemptRevision "uses-seal" "candidate-seal"
  assertAttemptSubjects resolve replay activity usesBoundary usesCandidate usesSeal
  return registered.2.setActivity { activity with
    attempt := some (retainedReference attemptRevision)
    stage := .prepared
    recovery := recovery .finalization .providerEffectIntended none }

/-! ## Provider effects -/

/-- **`intendProviderEffect`.** -/
def intendProviderEffect (replay : Replay) (event : ControlRecordEvent) :
    Except FoundationError Replay := do
  let payload ← exactPayload event ["activityId", "effectDigest"]
  let activity ← activityFor replay payload
  assertAgentActivity activity .providerEffectIntended
  assertExactActivitySubject event activity.attempt
  failIf (activity.attempt = none ∨ activity.providerEffectDigest ≠ none)
    (reducerError "order"
      s!"Agent activity {activity.id} is not ready for one provider effect intent")
  let effectDigest ← digestField payload "effectDigest"
  return replay.setActivity { activity with
    providerEffectDigest := some effectDigest
    stage := .effectIntended
    recovery := recovery .provider .providerEffectObserved (some effectDigest) }

/-- The outcomes of a provider as they are written. -/
def providerOutcomes : List (String × ProviderOutcome) :=
  [("completed", .completed), ("failed", .failed), ("not-started", .notStarted)]

/-- **`observeProviderEffect`.** -/
def observeProviderEffect (replay : Replay) (event : ControlRecordEvent) :
    Except FoundationError Replay := do
  let payload ← exactPayload event ["activityId", "effectDigest", "outcome"]
  let activity ← activityFor replay payload
  assertAgentActivity activity .providerEffectObserved
  assertExactActivitySubject event activity.attempt
  let effectDigest ← digestField payload "effectDigest"
  failIf (activity.providerEffectDigest ≠ some effectDigest)
    (reducerError "reference"
      s!"Provider observation does not bind the exact effect for activity {activity.id}")
  failIf (activity.providerOutcome ≠ none)
    (reducerError "duplicate"
      s!"Agent activity {activity.id} already observed its provider effect")
  let outcome ← enumField payload "outcome" providerOutcomes
  return replay.setActivity { activity with
    providerOutcome := some outcome
    stage := .effectObserved
    recovery := recovery .finalization .workProductObservation (some effectDigest) }

/-! ## Work products -/

/-- What an activity owes once its work product is decided. -/
def decidedWorkRecovery (operation : DeliveryOperation) : Option DeliveryRecoveryObligation :=
  if operation = .continue then
    recovery .candidateObservation .candidateRevisionObserved none
  else recovery .finalization .executionReceiptRecorded none

/-- **`submitWorkProduct`.** -/
def submitWorkProduct (replay : Replay) (event : ControlRecordEvent) :
    Except FoundationError Replay := do
  let payload ← exactPayload event ["activityId"]
  let activity ← activityFor replay payload
  assertAgentActivity activity .agentWorkProductSubmitted
  failIf (activity.providerOutcome ≠ some .completed)
    (reducerError "order"
      s!"Agent activity {activity.id} cannot submit work without a completed provider effect")
  assertWorkProductOpen activity
  let registered ← registerFinalizedSubject resolve replay event "agent-work-product"
  return registered.2.setActivity { activity with
    workProduct := some (retainedReference registered.1)
    stage := .submitted
    recovery := decidedWorkRecovery activity.operation }

/-- **`abandonWorkProduct`.** -/
def abandonWorkProduct (replay : Replay) (event : ControlRecordEvent) :
    Except FoundationError Replay := do
  let payload ← exactPayload event ["activityId"]
  let activity ← activityFor replay payload
  assertAgentActivity activity .agentWorkProductAbandoned
  assertExactActivitySubject event activity.attempt
  failIf (activity.providerOutcome = none)
    (reducerError "order" s!"Agent activity {activity.id} has no provider observation")
  assertWorkProductOpen activity
  return replay.setActivity { activity with
    workProductAbandoned := true
    stage := .submitted
    recovery := decidedWorkRecovery activity.operation }

/-! ## Integration -/

/-- `integrationAssessmentFor`. -/
def integrationAssessmentFor (replay : Replay) (selected : SubjectReference) :
    Except FoundationError IntegrationAssessment := do
  let unresolved := reducerError "reference"
    "Integration Activity cannot resolve its exact Assessment"
  let revision ← orFail (resolve (subjectOf selected)) unresolved
  failIf (¬ isExactRevision revision replay.processId "integration-assessment" selected)
    unresolved
  parseIntegrationAssessmentPayload revision.payload

/-- **`assessIntegration`.** -/
def assessIntegration (replay : Replay) (event : ControlRecordEvent) :
    Except FoundationError Replay := do
  let payload ← exactPayload event ["activityId"]
  let activity ← activityFor replay payload
  failIf (activity.operation ≠ .integrate ∨ activity.family ≠ .integration
      ∨ activity.stage ≠ .started ∨ activity.integrationAssessment ≠ none
      ∨ activity.resumesAt ≠ some .integrationAssessed)
    (reducerError "order"
      "Integration Assessment requires its exact new runtime integration Activity")
  let registered ← registerFinalizedSubject resolve replay event "integration-assessment"
  let revision := registered.1
  assertOnlyRelationships revision ["governed-by", "integrates"]
  let governedBy ← requiredRelationship revision "governed-by" "work-boundary"
  assertReference governedBy replay.subjects.activeBoundary "Integration governing Boundary"
  let integrates ← requiredRelationship revision "integrates" "candidate-revision"
  assertReference integrates replay.subjects.candidate "Integration source Candidate"
  let assessment ← parseIntegrationAssessmentPayload revision.payload
  let retained := some (retainedReference revision)
  let assessed := registered.2.setActivity { activity with
    integrationAssessment := retained
    stage := .finalizing
    recovery :=
      if assessment.outcome = .constructed then
        recovery .candidateObservation .candidateRevisionObserved none
      else recovery .finalization .activityCompleted none }
  return { assessed with
    subjects := { replay.subjects with integrationAssessment := retained } }

/-! ## Candidates -/

/-- What an observed candidate revision is and refers to. -/
structure ObservedCandidate where
  revision : ControlRecordRevision
  governedBy : Option SubjectReference
  revises : Option SubjectReference
  resultOf : Option SubjectReference
  integratedFrom : Option SubjectReference

namespace ObservedCandidate

/-- A string of the candidate's payload. -/
def text (c : ObservedCandidate) (name : String) : Option String :=
  asString (member name c.revision.payload)

/-- Whether the candidate advances the previous one by one revision. -/
def Advances (c : ObservedCandidate) (previous : SubjectReference) : Prop :=
  c.revision.recordId = previous.id ∧ c.revision.revision = previous.revision + 1
    ∧ c.revises = some previous

instance (c : ObservedCandidate) (previous : SubjectReference) :
    Decidable (c.Advances previous) :=
  inferInstanceAs (Decidable (_ ∧ _ ∧ _))

end ObservedCandidate

/-- The candidate of an integration. -/
def assertIntegratedCandidate (replay : Replay) (activity : ReplayActivity)
    (c : ObservedCandidate) : Except FoundationError Unit := do
  let unassessed := reducerError "order"
    "Candidate integration requires its exact constructed Assessment"
  let selected ← orFail activity.integrationAssessment unassessed
  failIf (activity.resumesAt ≠ some .candidateRevisionObserved) unassessed
  let assessment ← integrationAssessmentFor resolve replay selected
  assertReference c.governedBy replay.subjects.activeBoundary "Integration Candidate Boundary"
  assertReference c.integratedFrom activity.integrationAssessment
    "Candidate Integration Assessment"
  let inexact := reducerError "reference"
    "Integration must advance the exact current Candidate against its assessed parent"
  let previous ← orFail replay.subjects.candidate inexact
  failIf (¬ c.Advances previous ∨ c.resultOf ≠ none
      ∨ c.text "observation" ≠ some "integration-successor"
      ∨ c.text "candidateBaseCommit" ≠ some assessment.parentCommit
      ∨ assessment.outcome ≠ .constructed) inexact
  let factsDigest ← integratedCandidateFactsDigest c.revision
  failIf (assessment.factsDigest ≠ factsDigest)
    (reducerError "reference"
      "Integration Candidate differs from its Assessment's exact constructed observation")

/-- The candidate of a continuation. -/
def assertBuilderCandidate (replay : Replay) (activity : ReplayActivity)
    (c : ObservedCandidate) : Except FoundationError Unit := do
  failIf (activity.providerOutcome = none)
    (reducerError "order"
      "Candidate revision requires the builder provider terminal observation")
  assertReference c.governedBy replay.subjects.activeBoundary "Candidate boundary"
  let inexact := reducerError "reference"
    "Candidate development must advance the exact current Candidate by one revision"
  let previous ← orFail replay.subjects.candidate inexact
  failIf (¬ c.Advances previous) inexact
  let rebased := reducerError "reference"
    "Candidate development must preserve its predecessor's exact application base"
  let predecessor ← orFail (resolve (subjectOf previous)) rebased
  failIf (strictEq (member "candidateBaseCommit" c.revision.payload)
      (member "candidateBaseCommit" predecessor.payload) = false) rebased
  failIf (c.text "observation" ≠ some "builder-successor" ∨ activity.attempt = none
      ∨ c.resultOf ≠ activity.attempt)
    (reducerError "reference"
      "Candidate builder successor must bind the exact creating Agent Attempt")

/-- The candidate of an admission. -/
def assertInitialCandidate (replay : Replay) (activity : ReplayActivity)
    (c : ObservedCandidate) : Except FoundationError Unit := do
  failIf (activity.transactionOutcome ≠ some .applied)
    (reducerError "order"
      "Candidate initialization requires an observed applied admission transaction")
  assertReference c.governedBy replay.subjects.activeBoundary "Admission boundary"
  failIf (c.text "observation" ≠ some "initialization" ∨ replay.subjects.candidate ≠ none
      ∨ c.revision.revision ≠ 1 ∨ c.revises ≠ none ∨ c.resultOf ≠ none)
    (reducerError "reference"
      "Initial admission must initialize revision 1 of one absent Candidate")

/-- A member of two payloads is canonically the same, a missing one being
`null`. -/
def sameMember (name : String) (left right : JsonObject) : Except FoundationError Bool := do
  let a ← canonicalJson ((member name left).getD .null)
  let b ← canonicalJson ((member name right).getD .null)
  return decide (a = b)

/-- The candidate of a readmission. -/
def assertReboundCandidate (replay : Replay) (activity : ReplayActivity)
    (c : ObservedCandidate) : Except FoundationError Unit := do
  failIf (activity.transactionOutcome ≠ some .applied)
    (reducerError "order"
      "Candidate readmission rebind requires an observed applied transaction")
  assertReference c.governedBy replay.subjects.activeBoundary "Readmission boundary"
  let inexact := reducerError "reference"
    "Candidate readmission rebind must advance the exact continuing Candidate by one revision"
  let previous ← orFail replay.subjects.candidate inexact
  failIf (¬ c.Advances previous) inexact
  let unresolved := reducerError "reference"
    "Candidate readmission rebind cannot resolve its exact predecessor"
  let retainedPrevious ← orFail (resolve (subjectOf previous)) unresolved
  failIf (retainedPrevious.recordKind ≠ "candidate-revision"
      ∨ retainedReference retainedPrevious ≠ previous) unresolved
  let sameState ← sameMember "state" c.revision.payload retainedPrevious.payload
  let sameCarrier ← sameMember "carrierManifest" c.revision.payload retainedPrevious.payload
  failIf (c.text "observation" ≠ some "readmission-rebind" ∨ c.resultOf ≠ none
      ∨ strictEq (member "candidateBaseCommit" c.revision.payload)
        (member "candidateBaseCommit" retainedPrevious.payload) = false
      ∨ sameState = false ∨ sameCarrier = false)
    (reducerError "record-payload" "Candidate readmission rebind must retain byte-identical state, Carrier, and immutable base")

/-- What an observed candidate must satisfy, by the operation that
observes it. -/
def assertObservedCandidate (replay : Replay) (activity : ReplayActivity)
    (c : ObservedCandidate) : Except FoundationError Unit :=
  match activity.operation with
  | .integrate => assertIntegratedCandidate resolve replay activity c
  | .continue => assertBuilderCandidate resolve replay activity c
  | .admitBoundary =>
    match activity.decisionKind with
    | some .admission => assertInitialCandidate replay activity c
    | some .readmission => assertReboundCandidate resolve replay activity c
    | _ => .error (reducerError "activity"
        "delivery.admit cannot observe a Candidate revision at this boundary")
  | operation => .error (reducerError "activity"
      s!"{operation.text} cannot observe a Candidate revision at this boundary")

/-- What an activity owes once its candidate is observed. -/
def observedCandidateRecovery (replay : Replay) (activity : ReplayActivity) :
    Except FoundationError (Option DeliveryRecoveryObligation) :=
  match activity.operation, activity.integrationAssessment with
  | .continue, _ => .ok (recovery .finalization .executionReceiptRecorded none)
  | .integrate, some selected => do
    let assessment ← integrationAssessmentFor resolve replay selected
    return recovery .finalization
      (if assessment.disposition = .requiresReadmission then .activityFinalization
        else .activityCompleted) none
  | _, _ => .ok (recovery .finalization .activityCompleted none)

/-- Whether the candidate is integrated, after an observation. -/
def integratedAfter (observation : Option String) (before : Bool) : Bool :=
  if observation = some "integration-successor" then true
  else if observation = some "initialization" then false
  else before

/-- **`observeCandidateRevision`.** -/
def observeCandidateRevision (replay : Replay) (event : ControlRecordEvent) :
    Except FoundationError Replay := do
  let payload ← exactPayload event ["activityId"]
  let activity ← activityFor replay payload
  failIf (activity.receipt ≠ none)
    (reducerError "order"
      "Candidate revision observation must precede the terminal Execution Receipt")
  let registered ← registerFinalizedSubject resolve replay event "candidate-revision"
  let revision := registered.1
  failIf (asString (member "schema" revision.payload)
      ≠ some "lifecycle.candidate-revision-payload.v3")
    (reducerError "candidate-payload"
      "Candidate observation does not retain one exact reconstructible Revision")
  assertOnlyRelationships revision ["revises", "governed-by", "result-of", "integrated-from"]
  let governedBy ← requiredRelationship revision "governed-by" "work-boundary"
  let revises ← optionalRelationship revision "revises" "candidate-revision"
  let resultOf ← optionalRelationship revision "result-of" "agent-attempt"
  failIf (activity.candidate ≠ none)
    (reducerError "duplicate"
      s!"Activity {activity.id} already observed a Candidate revision")
  let integratedFrom ← optionalRelationship revision "integrated-from"
    "integration-assessment"
  failIf (activity.operation ≠ .integrate ∧ integratedFrom ≠ none)
    (reducerError "reference"
      "Only explicit integration can bind an Integration Assessment")
  let c : ObservedCandidate := ⟨revision, governedBy, revises, resultOf, integratedFrom⟩
  assertObservedCandidate resolve replay activity c
  let owed ← observedCandidateRecovery resolve replay activity
  let candidate := some (retainedReference revision)
  let observed := registered.2.setActivity { activity with
    candidate
    stage := .finalizing
    recovery := owed }
  return { observed with
    candidateIntegrated := integratedAfter (c.text "observation") replay.candidateIntegrated
    subjects := { replay.subjects with
      candidate
      candidateSeal := none
      evidence := none }
    evidenceReadiness := none }

/-! ## Receipts and boundaries -/

/-- What an activity owes once its receipt is recorded. -/
def receiptRecovery (activity : ReplayActivity) : Option DeliveryRecoveryObligation :=
  if activity.workProduct = none then recovery .finalization .activityCompleted none
  else if activity.operation = .prepare ∨ activity.operation = .revise
      ∨ activity.operation = .reaffirm then
    recovery .finalization .workBoundaryFinalized none
  else recovery .finalization .activityFinalization none

/-- **`recordReceipt`.** -/
def recordReceipt (replay : Replay) (event : ControlRecordEvent) :
    Except FoundationError Replay := do
  let payload ← exactPayload event ["activityId"]
  let activity ← activityFor replay payload
  assertAgentActivity activity .executionReceiptRecorded
  assertCoreAgentTerminal activity
  failIf (activity.receipt ≠ none)
    (reducerError "duplicate"
      s!"Agent activity {activity.id} already has an execution Receipt")
  let registered ← registerFinalizedSubject resolve replay event "execution-receipt"
  return registered.2.setActivity { activity with
    receipt := some (retainedReference registered.1)
    stage := .finalizing
    recovery := receiptRecovery activity }

/-- What a boundary must satisfy, by the operation that finalizes it. -/
def assertBoundaryProposal (replay : Replay) (operation : DeliveryOperation)
    (boundary : SubjectReference) (revises resolves : Option SubjectReference) :
    Except FoundationError Unit :=
  if operation = .prepare then do
    failIf (boundary.revision ≠ 1)
      (reducerError "reference" "An initial Work Boundary must begin at revision 1")
    assertAbsentRelationship revises "Initial Work Boundary predecessor"
    assertAbsentRelationship resolves "Initial Work Boundary Condition resolution"
  else do
    let stale := reducerError "reference"
      "A resolved Work Boundary must advance the active boundary by one revision"
    let active ← orFail replay.subjects.activeBoundary stale
    failIf (boundary.id ≠ active.id ∨ boundary.revision ≠ active.revision + 1) stale
    failIf (replay.subjects.materialCondition = none)
      (reducerError "order"
        "A resolved Work Boundary requires the retained Material Condition")
    assertReference revises (some active) "Resolved Work Boundary predecessor"
    assertReference resolves replay.subjects.materialCondition
      "Resolved Work Boundary Condition"

/-- **`finalizeBoundary`.** -/
def finalizeBoundary (replay : Replay) (event : ControlRecordEvent) :
    Except FoundationError Replay := do
  let payload ← exactPayload event ["activityId"]
  let activity ← activityFor replay payload
  assertAgentActivity activity .workBoundaryFinalized
  assertCoreAgentTerminal activity
  failIf (activity.workProduct = none)
    (reducerError "order" "A Work Boundary requires submitted reconnaissance semantics")
  failIf (activity.receipt = none)
    (reducerError "order"
      "A Work Boundary must follow the truthful terminal Execution Receipt")
  failIf (activity.boundary ≠ none)
    (reducerError "duplicate" s!"Activity {activity.id} already finalized a Work Boundary")
  failIf (activity.operation ≠ .prepare ∧ activity.operation ≠ .revise
      ∧ activity.operation ≠ .reaffirm)
    (reducerError "activity"
      s!"{activity.operation.text} cannot finalize a Work Boundary")
  let registered ← registerFinalizedSubject resolve replay event "work-boundary"
  let boundaryRevision := registered.1
  let boundary := retainedReference boundaryRevision
  assertOnlyRelationships boundaryRevision
    ["uses-brief", "proposed-from", "revises", "resolves"]
  let usesBrief ← requiredRelationship boundaryRevision "uses-brief" "director-brief"
  assertReference usesBrief activity.brief "Work Boundary Director Brief"
  let proposedFrom ← requiredRelationship boundaryRevision "proposed-from"
    "agent-work-product"
  assertReference proposedFrom activity.workProduct "Work Boundary Work Product"
  let revises ← optionalRelationship boundaryRevision "revises" "work-boundary"
  let resolves ← optionalRelationship boundaryRevision "resolves" "material-condition"
  assertBoundaryProposal replay activity.operation boundary revises resolves
  return registered.2.setActivity { activity with
    boundary := some boundary
    stage := .finalizing
    recovery := recovery .finalization .baselineChecks none }

end DeliveryReducer
