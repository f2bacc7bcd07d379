import Lifecycle.ControlModel

/-!
# Delivery state

The state of a delivery as it is published (`process/delivery-state.ts`),
the operations with the standings they are legal in
(`process/operation-registry.ts`) and the points a recovery resumes at
(`process/recovery-registry.ts`).
-/

open Json

/-! ## Enumerations -/

/-- `DeliveryStanding`. -/
inductive DeliveryStanding
  | framing
  | awaitingAdmission
  | active
  | boundaryPaused
  | awaitingReadmission
  | decisionReady
  | closed
deriving DecidableEq

/-- `DeliveryCandidateCondition`. -/
inductive DeliveryCandidateCondition
  | absent
  | readyForWork
  | inProgress
  | needsCorrection
  | pausedForBoundary
  | sealedUnderEvaluation
  | readyForDecision
  | terminalRecovery
  | accepted
  | abandoned
deriving DecidableEq

/-- `DeliveryActivityFamily`. -/
inductive DeliveryActivityFamily
  | agent
  | integration
  | transaction
deriving DecidableEq

/-- `DeliveryActivityStage`. -/
inductive DeliveryActivityStage
  | started
  | prepared
  | effectIntended
  | effectObserved
  | submitted
  | finalizing
  | completed
deriving DecidableEq

/-- `DeliveryOperation`. -/
inductive DeliveryOperation
  | prepare
  | admitBoundary
  | continue
  | integrate
  | evaluate
  | revise
  | reaffirm
  | accept
  | noShip
  | recover
deriving DecidableEq

/-- `DeliveryRecoveryObligation["kind"]`. -/
inductive DeliveryRecoveryKind
  | provider
  | candidateObservation
  | transaction
  | finalization
deriving DecidableEq

/-- `DeliveryRecoveryStep`. -/
inductive DeliveryRecoveryStep
  | candidateSealed
  | integrationAssessed
  | agentAttemptPrepared
  | providerEffectIntended
  | providerEffectObserved
  | workProductObservation
  | candidateRevisionObserved
  | executionReceiptRecorded
  | workBoundaryFinalized
  | baselineChecks
  | evaluationChecks
  | activityFinalization
  | activityCompleted
  | directorDecisionAuthenticated
  | transactionEffectIntended
  | transactionEffectObserved
  | transactionFinalization
  | storeSeal
  | storeArchive
deriving DecidableEq

/-! ## State -/

/-- A reference to a retained record revision. -/
structure SubjectReference where
  id : String
  revision : Nat
  digest : Sha256Digest
deriving DecidableEq

/-- `DeliveryRecoveryObligation`. -/
structure DeliveryRecoveryObligation where
  kind : DeliveryRecoveryKind
  resumesAt : DeliveryRecoveryStep
  exactEffectDigest : Option Sha256Digest
deriving DecidableEq

/-- `DeliveryActivity`. -/
structure DeliveryActivity where
  id : String
  operation : DeliveryOperation
  family : DeliveryActivityFamily
  stage : DeliveryActivityStage
  recovery : Option DeliveryRecoveryObligation
deriving DecidableEq

/-- `DeliveryCurrentSubjects`; its member `seal` is `candidateSeal` here. -/
structure DeliverySubjects where
  proposedBoundary : Option SubjectReference := none
  activeBoundary : Option SubjectReference := none
  candidate : Option SubjectReference := none
  integrationAssessment : Option SubjectReference := none
  materialCondition : Option SubjectReference := none
  candidateSeal : Option SubjectReference := none
  evidence : Option SubjectReference := none
  closure : Option SubjectReference := none
deriving DecidableEq

/-- The delegation a state publishes. -/
structure DelegationState where
  admission : Option SubjectReference
  /-- The current delegation and whether it is stopped. -/
  current : Option (SubjectReference × Bool)
  chargedOperations : Nat
  chargedAgentAttempts : Nat
  chargedCellWallTimeMs : Nat
deriving DecidableEq

/-- `DeliveryState`. -/
structure DeliveryState where
  standing : DeliveryStanding
  candidateCondition : DeliveryCandidateCondition
  activities : List DeliveryActivity
  subjects : DeliverySubjects
  delegation : DelegationState
  eventCount : Nat
  headDigest : Option Sha256Digest
deriving DecidableEq

namespace DeliveryState

def standingText : DeliveryStanding → String
  | .framing => "framing"
  | .awaitingAdmission => "awaiting-admission"
  | .active => "active"
  | .boundaryPaused => "boundary-paused"
  | .awaitingReadmission => "awaiting-readmission"
  | .decisionReady => "decision-ready"
  | .closed => "closed"

def conditionText : DeliveryCandidateCondition → String
  | .absent => "absent"
  | .readyForWork => "ready-for-work"
  | .inProgress => "in-progress"
  | .needsCorrection => "needs-correction"
  | .pausedForBoundary => "paused-for-boundary"
  | .sealedUnderEvaluation => "sealed-under-evaluation"
  | .readyForDecision => "ready-for-decision"
  | .terminalRecovery => "terminal-recovery"
  | .accepted => "accepted"
  | .abandoned => "abandoned"

/-- A reference that may be missing, as JSON. -/
def subjectJson : Option SubjectReference → Json
  | some r => .object [("id", .string r.id), ("revision", nat r.revision),
      ("digest", .string r.digest)]
  | none => .null

def subjectsJson (s : DeliverySubjects) : Json :=
  .object [
    ("proposedBoundary", subjectJson s.proposedBoundary),
    ("activeBoundary", subjectJson s.activeBoundary),
    ("candidate", subjectJson s.candidate),
    ("integrationAssessment", subjectJson s.integrationAssessment),
    ("materialCondition", subjectJson s.materialCondition), ("seal", subjectJson s.candidateSeal),
    ("evidence", subjectJson s.evidence), ("closure", subjectJson s.closure)]

def delegationJson (d : DelegationState) : Json :=
  .object [
    ("admission", subjectJson d.admission),
    ("current", match d.current with
      | some (r, stopped) => .object [("reference", subjectJson (some r)),
          ("stopped", .bool stopped)]
      | none => .null),
    ("charged", .object [("operations", nat d.chargedOperations),
      ("agentAttempts", nat d.chargedAgentAttempts),
      ("reservedCellWallTimeMs", nat d.chargedCellWallTimeMs)])]

end DeliveryState

open DeliveryState

/-- `deliveryWorkDecisionBasisDigest`. -/
def deliveryWorkDecisionBasisDigest (state : DeliveryState) :
    Except FoundationError Sha256Digest :=
  digestCanonical (.object [
    ("schema", .string "lifecycle.delivery-work-decision-basis.v1"),
    ("journal", .object [("eventCount", nat state.eventCount),
      ("headDigest", ControlModel.textOrNull state.headDigest)]),
    ("subjects", subjectsJson state.subjects),
    ("delegation", delegationJson state.delegation),
    ("standing", .string (standingText state.standing)),
    ("candidateCondition", .string (conditionText state.candidateCondition))])

/-! ## Operations -/

/-- `DeliveryOperationDescriptor["activity"]`. -/
inductive OperationActivity
  | agent
  | integration
  | transaction
  | recovery
deriving DecidableEq

/-- `DeliveryOperationDescriptor["concurrency"]`. -/
inductive OperationConcurrency
  | freshDelivery
  | processExclusive
  | exactRecovery
deriving DecidableEq

/-- `DeliveryOperationDescriptor["candidateRequirement"]`. -/
inductive CandidateRequirement
  | absent
  | present
  | sealedAndEvidenced
  | any
deriving DecidableEq

/-- `DeliveryOperationDescriptor`. -/
structure DeliveryOperationDescriptor where
  operation : DeliveryOperation
  activity : OperationActivity
  legalStandings : List DeliveryStanding
  concurrency : OperationConcurrency
  candidateRequirement : CandidateRequirement
deriving DecidableEq

namespace DeliveryOperation

def text : DeliveryOperation → String
  | .prepare => "delivery.prepare"
  | .admitBoundary => "delivery.admit"
  | .continue => "delivery.continue"
  | .integrate => "delivery.integrate"
  | .evaluate => "delivery.evaluate"
  | .revise => "delivery.revise"
  | .reaffirm => "delivery.reaffirm"
  | .accept => "delivery.accept"
  | .noShip => "delivery.no-ship"
  | .recover => "delivery.recover"

/-- `DELIVERY_OPERATIONS`. -/
def all : List DeliveryOperation := [.prepare, .admitBoundary, .continue, .integrate, .evaluate,
  .revise, .reaffirm, .accept, .noShip, .recover]

theorem mem_all (o : DeliveryOperation) : o ∈ all := by
  cases o <;> decide

/-- The descriptors of the registry. -/
def descriptor : DeliveryOperation → DeliveryOperationDescriptor
  | .prepare => ⟨.prepare, .agent, [.framing], .freshDelivery, .absent⟩
  | .admitBoundary => ⟨.admitBoundary, .transaction,
      [.awaitingAdmission, .awaitingReadmission], .processExclusive, .any⟩
  | .continue => ⟨.continue, .agent, [.active], .processExclusive, .present⟩
  | .integrate => ⟨.integrate, .integration, [.active, .decisionReady], .processExclusive,
      .present⟩
  | .evaluate => ⟨.evaluate, .agent, [.active], .processExclusive, .present⟩
  | .revise => ⟨.revise, .agent, [.boundaryPaused], .processExclusive, .present⟩
  | .reaffirm => ⟨.reaffirm, .agent, [.boundaryPaused], .processExclusive, .present⟩
  | .accept => ⟨.accept, .transaction, [.decisionReady], .processExclusive,
      .sealedAndEvidenced⟩
  | .noShip => ⟨.noShip, .transaction, [.framing, .awaitingAdmission, .active,
      .boundaryPaused, .awaitingReadmission, .decisionReady], .processExclusive, .any⟩
  | .recover => ⟨.recover, .recovery, [.framing, .awaitingAdmission, .active,
      .boundaryPaused, .awaitingReadmission, .decisionReady, .closed], .exactRecovery, .any⟩

@[simp] theorem descriptor_operation (o : DeliveryOperation) :
    (descriptor o).operation = o := by
  cases o <;> rfl

end DeliveryOperation

/-- `deliveryOperationDescriptor`. -/
def deliveryOperationDescriptor (operation : String) :
    Except FoundationError DeliveryOperationDescriptor :=
  match DeliveryOperation.all.find? fun o => o.text = operation with
  | some o => .ok o.descriptor
  | none => .error (lifecycleError "lifecycle.delivery-operation.operation"
      s!"Unsupported Delivery operation {operation}")

/-- `unresolvedActivities`. -/
def unresolvedActivities (state : DeliveryState) : List DeliveryActivity :=
  state.activities.filter fun a => a.stage ≠ .completed

/-- `candidateSatisfies`. -/
def candidateSatisfies (requirement : CandidateRequirement) (subjects : DeliverySubjects) :
    Bool :=
  match requirement with
  | .absent => subjects.candidate.isNone
  | .present => subjects.candidate.isSome
  | .sealedAndEvidenced =>
    subjects.candidate.isSome && subjects.candidateSeal.isSome && subjects.evidence.isSome
  | .any => true

/-- `concurrencyAllows`. -/
def concurrencyAllows (concurrency : OperationConcurrency) (active : List DeliveryActivity) :
    Bool :=
  match concurrency with
  | .exactRecovery => active.any fun a => a.recovery.isSome
  | _ => !(active.any fun a => a.recovery.isSome) && active.isEmpty

/-- Whether a fresh operation is eligible, no recovery being owed. -/
def operationEligible (state : DeliveryState) (candidateIntegrated : Bool)
    (operation : DeliveryOperation) : Bool :=
  let active := unresolvedActivities state
  let preparation := state.activities.find? fun a => a.operation = .prepare
  let descriptor := operation.descriptor
  decide (operation ≠ .recover)
    && !(decide (operation = .evaluate) && !candidateIntegrated)
    && !(decide (operation = .prepare) && preparation.isSome)
    && !(decide (operation = .noShip) && decide (state.standing = .framing)
      && decide (preparation.map (·.stage) ≠ some .completed))
    && descriptor.legalStandings.contains state.standing
    && candidateSatisfies descriptor.candidateRequirement state.subjects
    && concurrencyAllows descriptor.concurrency active

/-- **`eligibleDeliveryOperations`.** -/
def eligibleDeliveryOperations (state : DeliveryState) (candidateIntegrated : Bool) :
    List DeliveryOperation :=
  if state.standing = .closed then []
  else if (unresolvedActivities state).any fun a => a.recovery.isSome then [.recover]
  else DeliveryOperation.all.filter (operationEligible state candidateIntegrated)

/-! ## Recovery -/

/-- What a recovery descriptor expects next: one of some events, or a
physical action on the store. -/
inductive RecoveryNext
  | event (eventKinds : List String)
  | physical (action : DeliveryRecoveryStep)
deriving DecidableEq

/-- `DeliveryRecoveryDescriptor`. -/
structure DeliveryRecoveryDescriptor where
  kind : DeliveryRecoveryKind
  resumesAt : DeliveryRecoveryStep
  next : RecoveryNext
deriving DecidableEq

namespace DeliveryRecovery

def kindText : DeliveryRecoveryKind → String
  | .provider => "provider"
  | .candidateObservation => "candidate-observation"
  | .transaction => "transaction"
  | .finalization => "finalization"

def stepText : DeliveryRecoveryStep → String
  | .candidateSealed => "candidate-sealed"
  | .integrationAssessed => "integration-assessed"
  | .agentAttemptPrepared => "agent-attempt-prepared"
  | .providerEffectIntended => "provider-effect-intended"
  | .providerEffectObserved => "provider-effect-observed"
  | .workProductObservation => "work-product-observation"
  | .candidateRevisionObserved => "candidate-revision-observed"
  | .executionReceiptRecorded => "execution-receipt-recorded"
  | .workBoundaryFinalized => "work-boundary-finalized"
  | .baselineChecks => "baseline-checks"
  | .evaluationChecks => "evaluation-checks"
  | .activityFinalization => "activity-finalization"
  | .activityCompleted => "activity-completed"
  | .directorDecisionAuthenticated => "director-decision-authenticated"
  | .transactionEffectIntended => "transaction-effect-intended"
  | .transactionEffectObserved => "transaction-effect-observed"
  | .transactionFinalization => "transaction-finalization"
  | .storeSeal => "store-seal"
  | .storeArchive => "store-archive"

/-- The registry, `DESCRIPTORS`. -/
def descriptors : List DeliveryRecoveryDescriptor := [
  ⟨.finalization, .integrationAssessed, .event ["integration-assessed"]⟩,
  ⟨.finalization, .candidateSealed, .event ["candidate-sealed"]⟩,
  ⟨.finalization, .agentAttemptPrepared,
    .event ["agent-attempt-prepared", "agent-pre-intent-refused"]⟩,
  ⟨.finalization, .providerEffectIntended, .event ["provider-effect-intended"]⟩,
  ⟨.provider, .providerEffectObserved, .event ["provider-effect-observed"]⟩,
  ⟨.finalization, .workProductObservation,
    .event ["agent-work-product-submitted", "agent-work-product-abandoned"]⟩,
  ⟨.candidateObservation, .candidateRevisionObserved, .event ["candidate-revision-observed"]⟩,
  ⟨.finalization, .executionReceiptRecorded, .event ["execution-receipt-recorded"]⟩,
  ⟨.finalization, .workBoundaryFinalized,
    .event ["work-boundary-finalized", "activity-completed"]⟩,
  ⟨.finalization, .baselineChecks, .event ["check-receipt-recorded", "activity-completed"]⟩,
  ⟨.finalization, .evaluationChecks,
    .event ["check-receipt-recorded", "agent-attempt-prepared", "agent-pre-intent-refused"]⟩,
  ⟨.finalization, .activityFinalization,
    .event ["check-receipt-recorded", "material-condition-frozen", "evidence-packet-finalized",
      "activity-completed"]⟩,
  ⟨.finalization, .activityCompleted, .event ["activity-completed"]⟩,
  ⟨.finalization, .directorDecisionAuthenticated, .event ["director-decision-authenticated"]⟩,
  ⟨.finalization, .transactionEffectIntended, .event ["transaction-effect-intended"]⟩,
  ⟨.transaction, .transactionEffectObserved, .event ["transaction-effect-observed"]⟩,
  ⟨.finalization, .transactionFinalization,
    .event ["candidate-revision-observed", "activity-completed", "closure-recorded"]⟩,
  ⟨.finalization, .storeSeal, .physical .storeSeal⟩,
  ⟨.finalization, .storeArchive, .physical .storeArchive⟩]

end DeliveryRecovery

/-- **`deliveryRecoveryDescriptor`.** -/
def deliveryRecoveryDescriptor (kind : DeliveryRecoveryKind) (resumesAt : String) :
    Except FoundationError DeliveryRecoveryDescriptor :=
  match DeliveryRecovery.descriptors.find? fun d =>
      d.kind = kind ∧ DeliveryRecovery.stepText d.resumesAt = resumesAt with
  | some d => .ok d
  | none => .error (lifecycleError "lifecycle.delivery-recovery.step"
      s!"Unsupported Delivery recovery obligation {DeliveryRecovery.kindText kind}/{resumesAt}")
