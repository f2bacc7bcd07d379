import Lifecycle.DeliverySteps

/-!
# Replays under a growing resolver

A store only adds revisions, so what a subject resolved to it resolves to
ever after. No handler asks that a subject should not resolve: whatever a
resolver lets through, every resolver that knows more lets through with
the same result (`append_within`). A replay made while the store grew is
therefore the one its full history gives (`replayDeliveryEvents_within`).
-/

open Fallible Json ControlModel DeliveryReducer

/-- **A resolver knows what another knows.** -/
def Knows (more less : DeliveryRecordRevisionResolver) : Prop :=
  ∀ subject revision, less subject = some revision → more subject = some revision

theorem Knows.trans {a b c : DeliveryRecordRevisionResolver} (h : Knows a b) (h' : Knows b c) :
    Knows a c :=
  fun s r hr => h s r (h' s r hr)

variable {resolve more : DeliveryRecordRevisionResolver} {r : Replay}
  {event : ControlRecordEvent} {a : ReplayActivity}

/-! ## Reading a revision -/

theorem resolveDeliveryEventSubject_within {processId : String} (h : Knows more resolve) :
    Within (resolveDeliveryEventSubject event processId resolve)
      (resolveDeliveryEventSubject event processId more) := by
  unfold resolveDeliveryEventSubject
  refine .bind .refl fun _ => .bind .refl fun _ => .bind .refl fun _ => ?_
  exact .bind (.orFail (h _)) fun _ => .refl

theorem requiredCheckSelectionIds_within {selected : Option SubjectReference}
    {requirement : CheckRequirement} {label : String} (h : Knows more resolve) :
    Within (requiredCheckSelectionIds resolve r selected requirement label)
      (requiredCheckSelectionIds more r selected requirement label) := by
  unfold requiredCheckSelectionIds
  refine .bind .refl fun _ => .bind .refl fun _ => ?_
  exact .bind (.orFail (h _)) fun _ => .refl

theorem registerFinalizedSubject_within {kind : String} (h : Knows more resolve) :
    Within (registerFinalizedSubject resolve r event kind)
      (registerFinalizedSubject more r event kind) := by
  unfold registerFinalizedSubject
  refine .bind .refl fun _ => ?_
  exact .bind (resolveDeliveryEventSubject_within h) fun _ => .refl

theorem exactDelegationRevision_within {selected : SubjectReference} {kind : String}
    (h : Knows more resolve) :
    Within (exactDelegationRevision resolve r selected kind)
      (exactDelegationRevision more r selected kind) := by
  unfold exactDelegationRevision
  exact .bind (.orFail (h _)) fun _ => .refl

theorem integrationAssessmentFor_within {selected : SubjectReference} (h : Knows more resolve) :
    Within (integrationAssessmentFor resolve r selected)
      (integrationAssessmentFor more r selected) := by
  unfold integrationAssessmentFor
  exact .bind (.orFail (h _)) fun _ => .refl

/-! ## Openings -/

theorem submitDirectorBrief_within (h : Knows more resolve) :
    Within (submitDirectorBrief resolve r event) (submitDirectorBrief more r event) := by
  unfold submitDirectorBrief
  refine .ite ?_ ?_
  · unfold submitStandingBrief
    refine .bind .refl fun _ => ?_
    exact .bind (registerFinalizedSubject_within h) fun _ => .refl
  · unfold submitActivityBrief
    refine .bind .refl fun _ => .bind .refl fun _ => .bind .refl fun _ => .bind .refl fun _ => ?_
    exact .bind (registerFinalizedSubject_within h) fun _ => .refl

theorem useStandingDirection_within {revision : ControlRecordRevision}
    {directions : List ControlRecordRelationship} {operation : String}
    {selected : Option WorkDelegationReference} (h : Knows more resolve) :
    Within (useStandingDirection resolve revision directions operation selected r)
      (useStandingDirection more revision directions operation selected r) := by
  cases selected with
  | none => exact .refl
  | some selected =>
    unfold useStandingDirection
    refine .bind .refl fun _ => .bind .refl fun _ => ?_
    exact .bind (exactDelegationRevision_within h) fun _ => .refl

theorem setWorkDelegation_within (h : Knows more resolve) :
    Within (setWorkDelegation resolve r event) (setWorkDelegation more r event) := by
  unfold setWorkDelegation
  refine .bind .refl fun _ => .bind .refl fun _ => ?_
  refine .bind (registerFinalizedSubject_within h) fun _ => ?_
  iterate 8 refine .bind .refl fun _ => ?_
  refine .bind (exactDelegationRevision_within h) fun _ => ?_
  iterate 6 refine .bind .refl fun _ => ?_
  refine .bind (useStandingDirection_within h) fun _ => ?_
  exact .bind (useStandingDirection_within h) fun _ => .refl

theorem stopWorkDelegation_within (h : Knows more resolve) :
    Within (stopWorkDelegation resolve r event) (stopWorkDelegation more r event) := by
  unfold stopWorkDelegation
  iterate 5 refine .bind .refl fun _ => ?_
  exact .bind (exactDelegationRevision_within h) fun _ => .refl

theorem assertReservedChecks_within {reservation : WorkDelegationReservation}
    (h : Knows more resolve) :
    Within (assertReservedChecks resolve r reservation)
      (assertReservedChecks more r reservation) := by
  unfold assertReservedChecks
  refine .ite .refl ?_
  unfold assertEvaluationChecks
  refine .bind .refl fun _ => ?_
  exact .bind (exactDelegationRevision_within h) fun _ => .refl

theorem openingBrief_within {activityId : String} {operation : DeliveryOperation}
    {reservation : Option WorkDelegationReservation} (h : Knows more resolve) :
    Within (openingBrief resolve r event activityId operation reservation)
      (openingBrief more r event activityId operation reservation) := by
  cases reservation with
  | none => exact .refl
  | some reservation =>
    unfold openingBrief delegatedBrief
    iterate 8 refine .bind .refl fun _ => ?_
    exact .bind (assertReservedChecks_within h) fun _ => .refl

theorem startActivity_within (h : Knows more resolve) :
    Within (startActivity resolve r event) (startActivity more r event) := by
  unfold startActivity
  iterate 7 refine .bind .refl fun _ => ?_
  exact .bind (openingBrief_within h) fun _ => .refl

/-! ## Agents -/

theorem assertAttemptSubjects_within {usesBoundary usesCandidate usesSeal : Option SubjectReference}
    (h : Knows more resolve) :
    Within (assertAttemptSubjects resolve r a usesBoundary usesCandidate usesSeal)
      (assertAttemptSubjects more r a usesBoundary usesCandidate usesSeal) := by
  unfold assertAttemptSubjects
  refine .ite .refl (.bind .refl fun _ => .bind .refl fun _ => .ite ?_ .refl)
  unfold assertReviewerAttempt
  exact .bind (requiredCheckSelectionIds_within h) fun _ => .refl

theorem prepareAttempt_within (h : Knows more resolve) :
    Within (prepareAttempt resolve r event) (prepareAttempt more r event) := by
  unfold prepareAttempt
  iterate 5 refine .bind .refl fun _ => ?_
  refine .bind (registerFinalizedSubject_within h) fun _ => ?_
  iterate 7 refine .bind .refl fun _ => ?_
  exact .bind (assertAttemptSubjects_within h) fun _ => .refl

theorem submitWorkProduct_within (h : Knows more resolve) :
    Within (submitWorkProduct resolve r event) (submitWorkProduct more r event) := by
  unfold submitWorkProduct
  iterate 5 refine .bind .refl fun _ => ?_
  exact .bind (registerFinalizedSubject_within h) fun _ => .refl

theorem assessIntegration_within (h : Knows more resolve) :
    Within (assessIntegration resolve r event) (assessIntegration more r event) := by
  unfold assessIntegration
  iterate 3 refine .bind .refl fun _ => ?_
  exact .bind (registerFinalizedSubject_within h) fun _ => .refl

theorem assertObservedCandidate_within {c : ObservedCandidate} (h : Knows more resolve) :
    Within (assertObservedCandidate resolve r a c) (assertObservedCandidate more r a c) := by
  unfold assertObservedCandidate
  split
  · unfold assertIntegratedCandidate
    iterate 2 refine .bind .refl fun _ => ?_
    exact .bind (integrationAssessmentFor_within h) fun _ => .refl
  · unfold assertBuilderCandidate
    iterate 4 refine .bind .refl fun _ => ?_
    exact .bind (.orFail (h _)) fun _ => .refl
  · split
    · exact .refl
    · unfold assertReboundCandidate
      iterate 4 refine .bind .refl fun _ => ?_
      exact .bind (.orFail (h _)) fun _ => .refl
    · exact .refl
  · exact .refl

theorem observedCandidateRecovery_within (h : Knows more resolve) :
    Within (observedCandidateRecovery resolve r a) (observedCandidateRecovery more r a) := by
  unfold observedCandidateRecovery
  split
  · exact .refl
  · exact .bind (integrationAssessmentFor_within h) fun _ => .refl
  · exact .refl

theorem observeCandidateRevision_within (h : Knows more resolve) :
    Within (observeCandidateRevision resolve r event)
      (observeCandidateRevision more r event) := by
  unfold observeCandidateRevision
  iterate 3 refine .bind .refl fun _ => ?_
  refine .bind (registerFinalizedSubject_within h) fun _ => ?_
  iterate 8 refine .bind .refl fun _ => ?_
  refine .bind (assertObservedCandidate_within h) fun _ => ?_
  exact .bind (observedCandidateRecovery_within h) fun _ => .refl

theorem recordReceipt_within (h : Knows more resolve) :
    Within (recordReceipt resolve r event) (recordReceipt more r event) := by
  unfold recordReceipt
  iterate 5 refine .bind .refl fun _ => ?_
  exact .bind (registerFinalizedSubject_within h) fun _ => .refl

theorem finalizeBoundary_within (h : Knows more resolve) :
    Within (finalizeBoundary resolve r event) (finalizeBoundary more r event) := by
  unfold finalizeBoundary
  iterate 8 refine .bind .refl fun _ => ?_
  exact .bind (registerFinalizedSubject_within h) fun _ => .refl

/-! ## Evaluation -/

theorem assertCondition_within {c : FinalizedCondition} {source : ConditionSource}
    (h : Knows more resolve) :
    Within (assertCondition resolve r a c source) (assertCondition more r a c source) := by
  cases source with
  | integrationAssessment =>
    unfold assertCondition assertIntegrationCondition
    iterate 2 refine .bind .refl fun _ => ?_
    exact .bind (integrationAssessmentFor_within h) fun _ => .refl
  | projectionCompilation => exact .refl
  | agentProposal => exact .refl

theorem freezeMaterialCondition_within (h : Knows more resolve) :
    Within (freezeMaterialCondition resolve r event) (freezeMaterialCondition more r event) := by
  unfold freezeMaterialCondition
  iterate 3 refine .bind .refl fun _ => ?_
  refine .bind (registerFinalizedSubject_within h) fun _ => ?_
  iterate 6 refine .bind .refl fun _ => ?_
  exact .bind (assertCondition_within h) fun _ => .refl

theorem sealCandidate_within (h : Knows more resolve) :
    Within (sealCandidate resolve r event) (sealCandidate more r event) := by
  unfold sealCandidate
  iterate 5 refine .bind .refl fun _ => ?_
  exact .bind (registerFinalizedSubject_within h) fun _ => .refl

theorem requiredSelections_within (h : Knows more resolve) :
    Within (requiredSelections resolve r a) (requiredSelections more r a) :=
  .ite (requiredCheckSelectionIds_within h) (requiredCheckSelectionIds_within h)

theorem assertCheckReceipt_within {phase : CheckPhase} {selectionId : String}
    {checksBoundary checksSeal : Option SubjectReference} (h : Knows more resolve) :
    Within (assertCheckReceipt resolve r a phase selectionId checksBoundary checksSeal)
      (assertCheckReceipt more r a phase selectionId checksBoundary checksSeal) := by
  unfold assertCheckReceipt
  refine .ite ?_ ?_
  · unfold assertFinalReceipt
    iterate 4 refine .bind .refl fun _ => ?_
    exact .bind (requiredCheckSelectionIds_within h) fun _ => .refl
  · unfold assertBaselineReceipt
    iterate 4 refine .bind .refl fun _ => ?_
    exact .bind (requiredCheckSelectionIds_within h) fun _ => .refl

theorem recordCheckReceipt_within (h : Knows more resolve) :
    Within (recordCheckReceipt resolve r event) (recordCheckReceipt more r event) := by
  unfold recordCheckReceipt
  iterate 3 refine .bind .refl fun _ => ?_
  refine .bind (registerFinalizedSubject_within h) fun _ => ?_
  iterate 6 refine .bind .refl fun _ => ?_
  refine .bind (assertCheckReceipt_within h) fun _ => .bind .refl fun _ => ?_
  exact .bind (requiredSelections_within h) fun _ => .refl

theorem finalizeEvidence_within (h : Knows more resolve) :
    Within (finalizeEvidence resolve r event) (finalizeEvidence more r event) := by
  unfold finalizeEvidence
  iterate 7 refine .bind .refl fun _ => ?_
  exact .bind (registerFinalizedSubject_within h) fun _ => .refl

/-! ## Transactions and completion -/

theorem authenticateDecision_within (h : Knows more resolve) :
    Within (authenticateDecision resolve r event) (authenticateDecision more r event) := by
  unfold authenticateDecision
  iterate 4 refine .bind .refl fun _ => ?_
  exact .bind (registerFinalizedSubject_within h) fun _ => .refl

theorem directContinueFinalization_within (h : Knows more resolve) :
    Within (directContinueFinalization resolve r a) (directContinueFinalization more r a) := by
  unfold directContinueFinalization
  split
  · refine .ite ?_ .refl
    unfold proposesNoCondition
    exact .bind (.orFail (h _)) fun _ => .refl
  · exact .refl

theorem assertCompletion_within {outcome : CompletionOutcome} (h : Knows more resolve) :
    Within (assertCompletion resolve r a outcome) (assertCompletion more r a outcome) := by
  unfold assertCompletion
  split
  · exact .refl
  · unfold assertIntegrationCompletion
    iterate 2 refine .bind .refl fun _ => ?_
    exact .bind (integrationAssessmentFor_within h) fun _ => .refl
  · exact .refl

theorem completeActivity_within (h : Knows more resolve) :
    Within (completeActivity resolve r event) (completeActivity more r event) := by
  unfold completeActivity
  iterate 3 refine .bind .refl fun _ => ?_
  refine .bind (directContinueFinalization_within h) fun _ => .bind .refl fun _ => ?_
  exact .bind (assertCompletion_within h) fun _ => .refl

theorem recordClosure_within (h : Knows more resolve) :
    Within (recordClosure resolve r event) (recordClosure more r event) := by
  unfold recordClosure
  iterate 6 refine .bind .refl fun _ => ?_
  exact .bind (registerFinalizedSubject_within h) fun _ => .refl

/-! ## Replays -/

theorem handle_within {k : DeliveryEventKind} (h : Knows more resolve) :
    Within (handle resolve r event k) (handle more r event k) := by
  cases k with
  | deliveryCreated => exact .refl
  | directorBriefSubmitted => exact submitDirectorBrief_within h
  | workDelegationSet => exact setWorkDelegation_within h
  | workDelegationStopped => exact stopWorkDelegation_within h
  | activityStarted => exact startActivity_within h
  | agentAttemptPrepared => exact prepareAttempt_within h
  | agentWorkProductSubmitted => exact submitWorkProduct_within h
  | integrationAssessed => exact assessIntegration_within h
  | candidateRevisionObserved => exact observeCandidateRevision_within h
  | executionReceiptRecorded => exact recordReceipt_within h
  | workBoundaryFinalized => exact finalizeBoundary_within h
  | materialConditionFrozen => exact freezeMaterialCondition_within h
  | candidateSealed => exact sealCandidate_within h
  | checkReceiptRecorded => exact recordCheckReceipt_within h
  | evidencePacketFinalized => exact finalizeEvidence_within h
  | directorDecisionAuthenticated => exact authenticateDecision_within h
  | activityCompleted => exact completeActivity_within h
  | closureRecorded => exact recordClosure_within h
  | _ => exact .refl

/-- **What a resolver lets through, one that knows more lets through.** -/
theorem append_within (h : Knows more resolve) :
    Within (append resolve r event) (append more r event) := by
  unfold append
  refine .bind .refl fun verified => ?_
  unfold applyEvent
  refine .bind (.bind .refl fun _ => .bind .refl fun _ => ?_) fun _ => .refl
  split
  · exact handle_within h
  · exact .refl

/-- **A journal that is accepted stays accepted**, with the same replay,
while revisions are added. -/
theorem replayDeliveryEvents_within {events : List ControlRecordEvent} (h : Knows more resolve) :
    Within (replayDeliveryEvents resolve events) (replayDeliveryEvents more events) :=
  fun _ => replay_mono fun _ _ s => append_within h s
