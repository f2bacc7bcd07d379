import Lifecycle.EvaluationHandlers

/-!
# Decisions, transactions and completion

The handlers of `process/delivery-reducer.ts` that settle an activity: the
director's decision, the effect of a transaction, the closure of the
delivery, and `completeActivity`.
-/

open Fallible Json ControlModel

namespace DeliveryReducer

variable (resolve : DeliveryRecordRevisionResolver)

/-! ## Decisions -/

def directorDecisions : List (String × DirectorDecision) :=
  [("admit", .admission), ("readmit", .readmission), ("accept", .acceptance),
    ("no-ship", .noShip)]

def decisionText : DirectorDecision → String
  | .admission => "admit"
  | .readmission => "readmit"
  | .acceptance => "accept"
  | .noShip => "no-ship"

/-- The decision a transaction activity requires. -/
def expectedDecision (activity : ReplayActivity) : DirectorDecision :=
  if activity.operation = .admitBoundary then
    if activity.originStanding = .awaitingReadmission then .readmission else .admission
  else if activity.operation = .accept then .acceptance
  else .noShip

/-- What a decision selects. -/
structure DecisionSelections where
  boundary : Option SubjectReference
  condition : Option SubjectReference
  candidate : Option SubjectReference
  candidateSeal : Option SubjectReference
  evidence : Option SubjectReference
  continuesFrom : Option SubjectReference
  baselineReceipts : List SubjectReference

/-- The selections of a decision revision. -/
def decisionSelections (revision : ControlRecordRevision) :
    Except FoundationError DecisionSelections := do
  assertOnlyRelationships revision ["selects-boundary", "selects-baseline-receipt",
    "continues-from-boundary", "resolves", "selects-candidate", "selects-seal",
    "selects-evidence"]
  let boundary ← optionalRelationship revision "selects-boundary" "work-boundary"
  let condition ← optionalRelationship revision "resolves" "material-condition"
  let candidate ← optionalRelationship revision "selects-candidate" "candidate-revision"
  let candidateSeal ← optionalRelationship revision "selects-seal" "candidate-seal"
  let evidence ← optionalRelationship revision "selects-evidence" "evidence-packet"
  let continuesFrom ← optionalRelationship revision "continues-from-boundary" "work-boundary"
  let baselineReceipts ← relationshipReferences revision "selects-baseline-receipt"
    "check-receipt"
  return ⟨boundary, condition, candidate, candidateSeal, evidence, continuesFrom,
    baselineReceipts⟩

/-- A selection of what stands, or of nothing where nothing does. -/
def assertSelectsCurrent (selected current : Option SubjectReference)
    (absentLabel label : String) : Except FoundationError Unit :=
  if current = none then assertAbsentRelationship selected absentLabel
  else assertReference selected current label

/-- What an admission adds to the proposed boundary and its receipts. -/
def assertAdmissionKind (replay : Replay) (decision : DirectorDecision)
    (s : DecisionSelections) : Except FoundationError Unit :=
  if decision = .readmission then do
    assertReference s.continuesFrom replay.subjects.activeBoundary
      "Director-selected predecessor Work Boundary"
    assertReference s.condition replay.subjects.materialCondition
      "Director-resolved Material Condition"
    assertReference s.candidate replay.subjects.candidate
      "Director-selected continuing Candidate"
  else do
    assertAbsentRelationship s.continuesFrom
      "Initial admission predecessor Boundary selection"
    assertAbsentRelationship s.condition "Admission Condition resolution"
    assertAbsentRelationship s.candidate "Initial admission Candidate selection"

/-- The selections of an admission or a readmission. -/
def assertAdmissionSelections (replay : Replay) (decision : DirectorDecision)
    (s : DecisionSelections) : Except FoundationError Unit := do
  assertReference s.boundary replay.subjects.proposedBoundary
    "Director-selected Work Boundary"
  let expected := (baselineChecksForBoundary replay replay.subjects.proposedBoundary).map
    (·.reference)
  failIf (¬ bindsExactly s.baselineReceipts expected)
    (reducerError "authority"
      "Director admission must select every and only complete baseline Check Receipt")
  assertAdmissionKind replay decision s
  assertAbsentRelationship s.candidateSeal "Admission Seal selection"
  assertAbsentRelationship s.evidence "Admission Evidence selection"

/-- The selections of an acceptance. -/
def assertAcceptanceSelections (replay : Replay) (s : DecisionSelections) :
    Except FoundationError Unit := do
  failIf (s.baselineReceipts ≠ [])
    (reducerError "record-relationship" "Acceptance cannot select baseline Check Receipts")
  assertAbsentRelationship s.continuesFrom "Acceptance predecessor Boundary selection"
  assertReference s.boundary replay.subjects.activeBoundary
    "Director-selected active Work Boundary"
  assertAbsentRelationship s.condition "Acceptance Condition resolution"
  assertReference s.candidate replay.subjects.candidate "Director-selected Candidate"
  assertReference s.candidateSeal replay.subjects.candidateSeal
    "Director-selected Candidate Seal"
  assertReference s.evidence replay.subjects.evidence "Director-selected Evidence Packet"

/-- The selections of a no-ship. -/
def assertNoShipSelections (replay : Replay) (s : DecisionSelections) :
    Except FoundationError Unit := do
  failIf (s.baselineReceipts ≠ [])
    (reducerError "record-relationship" "No-ship cannot select baseline Check Receipts")
  assertAbsentRelationship s.continuesFrom "No-ship predecessor Boundary selection"
  assertSelectsCurrent s.boundary (currentEstablishedBoundary replay)
    "No-ship Work Boundary selection" "Director-selected current Work Boundary"
  assertSelectsCurrent s.condition replay.subjects.materialCondition
    "No-ship Condition resolution" "Director-resolved Material Condition"
  assertSelectsCurrent s.candidate replay.subjects.candidate
    "No-ship Candidate selection" "Director-selected Candidate"
  assertAbsentRelationship s.candidateSeal "No-ship Seal selection"
  assertAbsentRelationship s.evidence "No-ship Evidence selection"

/-- What a decision must select, by its kind. -/
def assertSelections (replay : Replay) (decision : DirectorDecision)
    (s : DecisionSelections) : Except FoundationError Unit :=
  match decision with
  | .admission => assertAdmissionSelections replay .admission s
  | .readmission => assertAdmissionSelections replay .readmission s
  | .acceptance => assertAcceptanceSelections replay s
  | .noShip => assertNoShipSelections replay s

/-- **`authenticateDecision`.** -/
def authenticateDecision (replay : Replay) (event : ControlRecordEvent) :
    Except FoundationError Replay := do
  let payload ← exactPayload event ["activityId"]
  let activity ← activityFor replay payload
  assertTransactionActivity activity .directorDecisionAuthenticated
  failIf (activity.decision ≠ none)
    (reducerError "duplicate"
      s!"Transaction activity {activity.id} already has a Director Decision")
  let registered ← registerFinalizedSubject resolve replay event "director-decision"
  let decisionRevision := registered.1
  let decision ← recordEnumField decisionRevision "decision" directorDecisions
  failIf (decision ≠ expectedDecision activity)
    (reducerError "authority"
      s!"{activity.operation.text} requires a {
        decisionText (expectedDecision activity)} Director Decision")
  let selections ← decisionSelections decisionRevision
  assertSelections replay decision selections
  return registered.2.setActivity { activity with
    decision := some (retainedReference decisionRevision)
    decisionKind := some decision
    recovery := recovery .finalization .transactionEffectIntended none }

/-! ## Transaction effects -/

/-- **`intendTransactionEffect`.** -/
def intendTransactionEffect (replay : Replay) (event : ControlRecordEvent) :
    Except FoundationError Replay := do
  let payload ← exactPayload event ["activityId", "effectDigest"]
  let activity ← activityFor replay payload
  assertTransactionActivity activity .transactionEffectIntended
  assertExactActivitySubject event activity.decision
  failIf (activity.decision = none ∨ activity.transactionEffectDigest ≠ none)
    (reducerError "order"
      s!"Transaction activity {activity.id} is not ready for one effect intent")
  let effectDigest ← digestField payload "effectDigest"
  return replay.setActivity { activity with
    transactionEffectDigest := some effectDigest
    stage := .effectIntended
    recovery := recovery .transaction .transactionEffectObserved (some effectDigest) }

def transactionOutcomes : List (String × TransactionOutcome) :=
  [("applied", .applied), ("not-applied", .notApplied), ("indeterminate", .indeterminate)]

/-- The operation the facts of an observation are compared with. -/
def factsOperation : DeliveryOperation → FactsOperation
  | .admitBoundary => .admitDelivery
  | .accept => .acceptDelivery
  | .noShip => .noShipDelivery
  | _ => .other

/-- What a transaction activity owes once its effect is determinate. -/
def determinateRecovery (operation : DeliveryOperation) (outcome : TransactionOutcome) :
    Option DeliveryRecoveryObligation :=
  if outcome = .notApplied then recovery .finalization .activityCompleted none
  else if operation = .admitBoundary then
    recovery .candidateObservation .candidateRevisionObserved none
  else recovery .finalization .transactionFinalization none

/-- The activity an observation leaves: an indeterminate one is still owed
its observation. -/
def observedTransaction (activity : ReplayActivity) (outcome : TransactionOutcome)
    (effectDigest : Sha256Digest) : ReplayActivity :=
  if outcome = .indeterminate then
    { activity with
      stage := .effectIntended
      recovery := recovery .transaction .transactionEffectObserved (some effectDigest) }
  else
    { activity with
      transactionOutcome := some outcome
      stage := .effectObserved
      recovery := determinateRecovery activity.operation outcome }

/-- An applied admission makes the proposed boundary the active one. -/
def activateBoundary (replay : Replay) (activity : ReplayActivity) :
    Except FoundationError Replay := do
  failIf (replay.subjects.proposedBoundary = none)
    (reducerError "order" "Applied admission requires the exact proposed Work Boundary")
  failIf (activity.decisionKind = some .readmission ∧ replay.subjects.candidate = none)
    (reducerError "order" "Readmission requires the exact continuing Candidate")
  return { replay with
    subjects := { replay.subjects with
      activeBoundary := replay.subjects.proposedBoundary
      proposedBoundary := none
      materialCondition := none
      candidateSeal := none
      evidence := none }
    activeAdmission := activity.decision
    evidenceReadiness := none }

/-- **`observeTransactionEffect`.** -/
def observeTransactionEffect (replay : Replay) (event : ControlRecordEvent) :
    Except FoundationError Replay := do
  let payload ← exactPayload event
    ["activityId", "effectDigest", "facts", "factsDigest", "outcome"]
  let activity ← activityFor replay payload
  assertTransactionActivity activity .transactionEffectObserved
  assertExactActivitySubject event activity.decision
  let effectDigest ← digestField payload "effectDigest"
  failIf (activity.transactionEffectDigest ≠ some effectDigest)
    (reducerError "reference" s!"Transaction observation does not bind the exact effect for activity {activity.id}")
  failIf (activity.transactionOutcome ≠ none)
    (reducerError "duplicate"
      s!"Transaction activity {activity.id} already observed its effect")
  let outcome ← enumField payload "outcome" transactionOutcomes
  let decisionKind ← orFail activity.decisionKind
    (reducerError "order"
      s!"Transaction activity {activity.id} has no exact Director Decision kind")
  assertTransactionObservationFacts (factsOperation activity.operation) decisionKind outcome
    (member "facts" payload) (member "factsDigest" payload)
  let observed := replay.setActivity (observedTransaction activity outcome effectDigest)
  if outcome = .applied ∧ activity.operation = .admitBoundary then
    activateBoundary observed activity
  else return observed

/-! ## Closure -/

def closureDispositions : List (String × ClosureDisposition) :=
  [("accepted", .accepted), ("no-ship", .noShip)]

def candidateTreatments : List (String × CandidateTreatment) :=
  [("integrated", .integrated), ("abandoned", .abandoned), ("not-created", .notCreated)]

def dispositionText : ClosureDisposition → String
  | .accepted => "accepted"
  | .noShip => "no-ship"

/-- The disposition a terminal operation closes with. -/
def expectedDisposition (operation : DeliveryOperation) : ClosureDisposition :=
  if operation = .accept then .accepted else .noShip

/-- The executions of a closed delivery are contained and retired. -/
def assertTerminalExecutions (revision : ControlRecordRevision) :
    Except FoundationError Unit := do
  let terminalExecutions ← recordObject (member "terminalExecutions" revision.payload)
    "Closure terminal executions"
  let containment ← recordObject (member "containment" terminalExecutions)
    "Closure Execution Containment"
  let retirement ← recordObject (member "retirement" terminalExecutions)
    "Closure Execution Retirement"
  failIf (asString (member "classification" containment) ≠ some "complete"
      ∨ asString (member "classification" retirement) ≠ some "complete")
    (reducerError "order"
      "Closure requires complete Execution Containment and Retirement")

/-- What a no-ship closure says of the candidate. -/
def assertAbandonedCandidate (replay : Replay) (treatment : CandidateTreatment)
    (abandonsCandidate : Option SubjectReference) : Except FoundationError Unit :=
  if replay.subjects.candidate = none then do
    failIf (treatment ≠ .notCreated)
      (reducerError "order" "No-ship without a Candidate must record not-created treatment")
    assertAbsentRelationship abandonsCandidate "No-ship Candidate abandonment"
  else do
    failIf (treatment ≠ .abandoned)
      (reducerError "order" "No-ship with a Candidate must record abandonment")
    assertReference abandonsCandidate replay.subjects.candidate "Closure abandoned Candidate"

/-- What a closure says of the candidate, by its disposition. -/
def assertClosureCandidate (replay : Replay) (disposition : ClosureDisposition)
    (treatment : CandidateTreatment)
    (acceptsCandidate acceptsEvidence abandonsCandidate : Option SubjectReference) :
    Except FoundationError Unit :=
  match disposition with
  | .accepted => do
    failIf (treatment ≠ .integrated)
      (reducerError "order" "Acceptance Closure must integrate its exact Candidate")
    assertReference acceptsCandidate replay.subjects.candidate "Closure accepted Candidate"
    assertReference acceptsEvidence replay.subjects.evidence "Closure accepted Evidence"
    assertAbsentRelationship abandonsCandidate "Acceptance Candidate abandonment"
  | .noShip => do
    assertAbsentRelationship acceptsCandidate "No-ship accepted Candidate"
    assertAbsentRelationship acceptsEvidence "No-ship accepted Evidence"
    assertAbandonedCandidate replay treatment abandonsCandidate

/-- The boundary a closure is governed by. -/
def closureBoundary (replay : Replay) (disposition : ClosureDisposition) :
    Option SubjectReference :=
  match disposition with
  | .accepted => replay.subjects.activeBoundary
  | .noShip => currentEstablishedBoundary replay

/-- What a closure revision is bound to. -/
def assertClosureSubjects (replay : Replay) (activity : ReplayActivity)
    (revision : ControlRecordRevision) (disposition : ClosureDisposition)
    (treatment : CandidateTreatment) : Except FoundationError Unit := do
  assertOnlyRelationships revision ["closes-with", "governed-by", "accepts-candidate",
    "accepts-evidence", "abandons-candidate"]
  let closesWith ← requiredRelationship revision "closes-with" "director-decision"
  assertReference closesWith activity.decision "Closure Director Decision"
  let governedBy ← optionalRelationship revision "governed-by" "work-boundary"
  assertSelectsCurrent governedBy (closureBoundary replay disposition)
    "Closure Work Boundary" "Closure Work Boundary"
  let acceptsCandidate ← optionalRelationship revision "accepts-candidate"
    "candidate-revision"
  let acceptsEvidence ← optionalRelationship revision "accepts-evidence" "evidence-packet"
  let abandonsCandidate ← optionalRelationship revision "abandons-candidate"
    "candidate-revision"
  assertClosureCandidate replay disposition treatment acceptsCandidate acceptsEvidence
    abandonsCandidate

/-- **`recordClosure`.** -/
def recordClosure (replay : Replay) (event : ControlRecordEvent) :
    Except FoundationError Replay := do
  let payload ← exactPayload event ["activityId"]
  let activity ← activityFor replay payload
  assertTransactionActivity activity .closureRecorded
  failIf (activity.operation ≠ .accept ∧ activity.operation ≠ .noShip)
    (reducerError "activity" s!"{activity.operation.text} cannot close Delivery")
  failIf (activity.transactionOutcome ≠ some .applied)
    (reducerError "order" "Closure requires an observed applied terminal transaction")
  failIf (replay.subjects.closure ≠ none ∨ activity.closure ≠ none)
    (reducerError "duplicate" "Delivery already has a terminal Closure")
  let registered ← registerFinalizedSubject resolve replay event "closure"
  let closureRevision := registered.1
  let disposition ← recordEnumField closureRevision "disposition" closureDispositions
  failIf (disposition ≠ expectedDisposition activity.operation)
    (reducerError "authority"
      s!"{activity.operation.text} cannot record {dispositionText disposition} Closure")
  let treatment ← recordEnumField closureRevision "candidateTreatment" candidateTreatments
  assertTerminalExecutions closureRevision
  assertClosureSubjects replay activity closureRevision disposition treatment
  let closure := some (retainedReference closureRevision)
  let closed := registered.2.setActivity { activity with
    closure
    completionOutcome := some .completed
    stage := .completed
    recovery := none }
  return { closed with
    subjects := { replay.subjects with closure }
    closureDisposition := some disposition }

/-! ## Completion -/

def completionOutcomes : List (String × CompletionOutcome) :=
  [("completed", .completed), ("failed", .failed), ("abandoned", .abandoned)]

/-- Whether the activity owes its completion and nothing else. -/
def owesCompletion (activity : ReplayActivity) : Bool :=
  decide (activity.recovery = recovery .finalization .activityCompleted none)

/-- `terminalNotAppliedFailure`. -/
def terminalNotAppliedFailure (activity : ReplayActivity) (outcome : CompletionOutcome) :
    Bool :=
  decide (activity.operation = .accept ∨ activity.operation = .noShip)
    && decide (outcome = .failed) && activity.transactionEffectDigest.isSome
    && decide (activity.transactionOutcome = some .notApplied) && owesCompletion activity

/-- Whether an operation prepares a boundary. -/
def preparesBoundary (operation : DeliveryOperation) : Bool :=
  decide (operation = .prepare ∨ operation = .revise ∨ operation = .reaffirm)

/-- `deterministicBoundaryRefusal`. -/
def deterministicBoundaryRefusal (activity : ReplayActivity) (outcome : CompletionOutcome) :
    Bool :=
  decide (outcome ≠ .completed) && decide (activity.family = .agent)
    && preparesBoundary activity.operation
    && decide (activity.recovery = recovery .finalization .workBoundaryFinalized none)

/-- `preIntentRefusal` of `completeActivity`. -/
def abandonedBeforeIntent (activity : ReplayActivity) (outcome : CompletionOutcome) : Bool :=
  decide (outcome = .abandoned) && decide (activity.family = .agent)
    && decide (activity.stage = .finalizing) && activity.attempt.isNone
    && activity.providerEffectDigest.isNone && activity.providerOutcome.isNone
    && activity.workProduct.isNone && !activity.workProductAbandoned
    && activity.receipt.isNone && owesCompletion activity

/-- Whether the work product of a builder proposes something else than a
material condition. -/
def proposesNoCondition (replay : Replay) (workProduct : SubjectReference) :
    Except FoundationError Bool := do
  let unresolved := reducerError "reference"
    "Continue finalization cannot resolve the exact Agent Work Product"
  let revision ← orFail (resolve (subjectOf workProduct)) unresolved
  failIf (¬ isExactRevision revision replay.processId "agent-work-product" workProduct)
    unresolved
  let semantics ← recordObject (member "roleSemantics" revision.payload)
    "Builder role semantics"
  failIf (asString (member "role" semantics) ≠ some "builder")
    (reducerError "record-payload" "Continue finalization requires builder role semantics")
  return decide (asString (member "proposal" semantics) ≠ some "material-condition")

/-- `directContinueFinalization`. -/
def directContinueFinalization (replay : Replay) (activity : ReplayActivity) :
    Except FoundationError Bool :=
  match activity.workProduct with
  | some workProduct =>
    if activity.operation = .continue
        ∧ activity.recovery = recovery .finalization .activityFinalization none
        ∧ replay.processId ≠ none then
      proposesNoCondition resolve replay workProduct
    else .ok false
  | none => .ok false

/-- What an agent activity completes with, by its operation. -/
def assertAgentResult (activity : ReplayActivity) : Except FoundationError Unit :=
  match activity.operation with
  | .prepare | .revise | .reaffirm => do
    failIf (activity.boundary = none)
      (reducerError "order"
        s!"{activity.operation.text} requires a finalized Work Boundary")
    failIf (activity.checks = [] ∨ ∃ c ∈ activity.checks, legalBaselineReceipt c = false)
      (reducerError "order" s!"{
        activity.operation.text} requires legal baseline Check Receipts for its selected modalities")
  | .continue => .ok ()
  | .evaluate =>
    failIf (activity.evidence = none)
      (reducerError "order" "Completed evaluation requires a finalized Evidence Packet")
  | operation => .error
      (reducerError "activity" s!"{operation.text} is not an agent activity")

/-- The completion of an agent activity. -/
def assertAgentCompletion (activity : ReplayActivity) (outcome : CompletionOutcome) :
    Except FoundationError Unit := do
  onlyIf (abandonedBeforeIntent activity outcome = false) (assertCoreAgentTerminal activity)
  failIf (abandonedBeforeIntent activity outcome = false ∧ activity.receipt = none)
    (reducerError "order"
      s!"Agent activity {activity.id} requires its execution Receipt")
  failIf (outcome = .completed ∧ activity.workProduct = none)
    (reducerError "order"
      s!"Completed agent activity {activity.id} requires submitted work")
  onlyIf (outcome = .completed) (assertAgentResult activity)

/-- The completion of an integration. -/
def assertIntegrationCompletion (replay : Replay) (activity : ReplayActivity)
    (outcome : CompletionOutcome) : Except FoundationError Unit := do
  let unassessed := reducerError "order"
    "Integration completion requires a retained completed assessment"
  let selected ← orFail activity.integrationAssessment unassessed
  failIf (outcome ≠ .completed) unassessed
  let assessment ← integrationAssessmentFor resolve replay selected
  failIf (decide (assessment.outcome = .constructed) ≠ activity.candidate.isSome)
    (reducerError "order"
      "Only a constructed integration completes with a Candidate successor")
  failIf (assessment.outcome = .constructed ∧ assessment.disposition = .requiresReadmission
      ∧ activity.materialCondition = none)
    (reducerError "order" "Integration context changes must freeze the constructed Candidate before completion")

/-- What a transaction completes with. -/
def assertTransactionResult (replay : Replay) (activity : ReplayActivity) :
    Except FoundationError Unit := do
  failIf (activity.transactionOutcome ≠ some .applied)
    (reducerError "order" s!"Completed transaction activity {activity.id} was not applied")
  failIf (activity.operation = .admitBoundary ∧ activity.candidate = none)
    (reducerError "order" (if activity.decisionKind = some .readmission then
        "Readmission cannot complete before Candidate governance rebind"
      else "Initial admission cannot complete before Candidate initialization"))
  failIf (activity.operation = .admitBoundary ∧ activity.decisionKind = some .readmission
      ∧ replay.subjects.proposedBoundary ≠ none)
    (reducerError "order" "Readmission cannot complete before boundary activation")
  failIf (activity.operation ≠ .admitBoundary ∧ activity.closure = none)
    (reducerError "order"
      s!"{activity.operation.text} cannot complete before terminal Closure")

/-- The completion of a transaction. -/
def assertTransactionCompletion (replay : Replay) (activity : ReplayActivity)
    (outcome : CompletionOutcome) : Except FoundationError Unit := do
  failIf ((activity.operation = .accept ∨ activity.operation = .noShip)
      ∧ terminalNotAppliedFailure activity outcome = false)
    (reducerError "order"
      s!"{activity.operation.text} is completed atomically by terminal Closure")
  failIf (activity.transactionOutcome = none
      ∨ activity.transactionOutcome = some .indeterminate)
    (reducerError "order"
      s!"Transaction activity {activity.id} has no determinate effect observation")
  if outcome = .completed then assertTransactionResult replay activity
  else
    failIf (activity.transactionOutcome ≠ some .notApplied)
      (reducerError "order"
        s!"Unsuccessful transaction activity {activity.id} must be observed not applied")

/-- What a completion must satisfy, by the family of the activity. -/
def assertCompletion (replay : Replay) (activity : ReplayActivity)
    (outcome : CompletionOutcome) : Except FoundationError Unit :=
  match activity.family with
  | .agent => assertAgentCompletion activity outcome
  | .integration => assertIntegrationCompletion resolve replay activity outcome
  | .transaction => assertTransactionCompletion replay activity outcome

/-- The proposed boundary after a completion: a completed preparation
proposes its boundary. -/
def proposedAfter (activity : ReplayActivity) (outcome : CompletionOutcome)
    (before : Option SubjectReference) : Option SubjectReference :=
  if activity.family = .agent ∧ outcome = .completed
      ∧ preparesBoundary activity.operation = true then activity.boundary
  else before

/-- **`completeActivity`.** -/
def completeActivity (replay : Replay) (event : ControlRecordEvent) :
    Except FoundationError Replay := do
  let payload ← exactPayload event ["activityId", "outcome"]
  let activity ← activityFor replay payload
  let outcome ← enumField payload "outcome" completionOutcomes
  let direct ← directContinueFinalization resolve replay activity
  failIf (deterministicBoundaryRefusal activity outcome = false ∧ direct = false
      ∧ owesCompletion activity = false)
    (reducerError "order" s!"Activity {
      activity.id} cannot complete before its exact reducer-derived finalization coordinate")
  assertCompletion resolve replay activity outcome
  let completed := replay.setActivity { activity with
    completionOutcome := some outcome
    stage := .completed
    recovery := none }
  return { completed with
    subjects := { replay.subjects with
      proposedBoundary := proposedAfter activity outcome replay.subjects.proposedBoundary } }

end DeliveryReducer
