import Lifecycle.DeliveryReplay
import Lifecycle.RecordSchemas

/-!
# Briefs, delegations and openings

The handlers of `process/delivery-reducer.ts` that prepare work and open
an activity: the briefs a director submits, the delegation of resources
and its stop, and `startActivity`, the only handler that adds an activity
to the replay.
-/

open Fallible Json ControlModel

namespace DeliveryReducer

variable (resolve : DeliveryRecordRevisionResolver)

/-! ## Director briefs -/

/-- `submitDirectorBrief` of the standing brief of a delegation. -/
def submitStandingBrief (replay : Replay) (event : ControlRecordEvent) :
    Except FoundationError Replay := do
  let payload ← exactPayload event ["delegationId", "delegationRevision", "operation"]
  let registered ← registerFinalizedSubject resolve replay event "director-brief"
  let brief := registered.1
  assertOnlyRelationships brief []
  let scope ← recordObject (member "scope" brief.payload) "Standing Director Brief scope"
  let actual ← canonicalJson (.object scope)
  let expected ← canonicalJson (.object (("kind", .string "delegation") :: payload))
  failIf (actual ≠ expected
      ∨ strictEq (member "inputProfile" brief.payload) (member "operation" payload) = false)
    (reducerError "delegation-brief"
      "Standing direction does not bind its exact delegation and operation")
  let key ← canonicalJson (.object payload)
  failIf (replay.standingBriefs.has key = true)
    (reducerError "delegation-brief"
      "A delegation operation has duplicate standing direction")
  return { registered.2 with
    standingBriefs := replay.standingBriefs.set key (retainedReference brief) }

/-- `submitDirectorBrief` of the brief of a planned activity. -/
def submitActivityBrief (replay : Replay) (event : ControlRecordEvent) :
    Except FoundationError Replay := do
  let payload ← exactPayload event ["activityId"]
  let activityId ← identifierField payload "activityId"
  failIf (replay.activities.has activityId = true)
    (reducerError "order"
      s!"Director Brief for {activityId} must be finalized before the activity starts")
  failIf (replay.plannedBriefs.has activityId = true)
    (reducerError "duplicate"
      s!"Planned agent activity {activityId} already has a Director Brief")
  let registered ← registerFinalizedSubject resolve replay event "director-brief"
  let briefRevision := registered.1
  assertOnlyRelationships briefRevision []
  let inexact := reducerError "brief-scope" "Director Brief must bind its exact Activity scope"
  let scope ← orFail (member "scope" briefRevision.payload) inexact
  let actual ← canonicalJson scope
  let expected ← canonicalJson
    (.object [("kind", .string "activity"), ("activityId", .string activityId)])
  failIf (actual ≠ expected) inexact
  return { registered.2 with
    plannedBriefs := replay.plannedBriefs.set activityId (retainedReference briefRevision) }

/-- **`submitDirectorBrief`.** -/
def submitDirectorBrief (replay : Replay) (event : ControlRecordEvent) :
    Except FoundationError Replay :=
  if hasOwn event.payload "delegationId" = true then submitStandingBrief resolve replay event
  else submitActivityBrief resolve replay event

/-! ## Delegations -/

/-- The lineage of a delegation: an initial one replaces nothing, another
advances the delegation it replaces by one revision. -/
def assertDelegationLineage (previous : Option SubjectReference)
    (revision : ControlRecordRevision) (grant : WorkDelegationPayload)
    (previousRelationship : Option SubjectReference) : Except FoundationError Unit :=
  match previous with
  | none =>
    failIf (grant.replaces ≠ none ∨ previousRelationship ≠ none)
      (reducerError "delegation-revision"
        "Initial resource permission cannot replace an absent delegation")
  | some p => do
    assertReference (grant.replaces.map delegationReference) (some p) "Delegation replacement"
    assertReference previousRelationship (some p) "Delegation replacement relationship"
    failIf (revision.recordId ≠ p.id ∨ revision.revision ≠ p.revision + 1)
      (reducerError "delegation-revision"
        "Resource replacement must advance the same exact delegation lineage")

/-- One round of `setWorkDelegation` over its directions: a selected
direction consumes its standing brief. -/
def useStandingDirection (revision : ControlRecordRevision)
    (directions : List ControlRecordRelationship) (operation : String)
    (selected : Option WorkDelegationReference) (replay : Replay) :
    Except FoundationError Replay :=
  match selected with
  | none => .ok replay
  | some selected => do
    let key ← canonicalJson (.object [("delegationId", .string revision.recordId),
      ("delegationRevision", nat revision.revision), ("operation", .string operation)])
    assertReference (replay.standingBriefs.get key) (some (delegationReference selected))
      "Delegation standing Brief"
    let brief ← exactDelegationRevision resolve replay (delegationReference selected)
      "director-brief"
    failIf (brief.semanticAuthor.id ≠ revision.semanticAuthor.id
        ∨ ¬ ∃ link ∈ directions, targetReference link.target = delegationReference selected)
      (reducerError "delegation-brief"
        "Standing direction must preserve its exact Director and selected relationship")
    return { replay with standingBriefs := replay.standingBriefs.erase key }

/-- **`setWorkDelegation`.** -/
def setWorkDelegation (replay : Replay) (event : ControlRecordEvent) :
    Except FoundationError Replay := do
  let _ ← exactPayload event []
  failIf (replay.subjects.activeBoundary = none ∨ replay.activeAdmission = none
      ∨ replay.subjects.materialCondition ≠ none ∨ replay.HasUnresolved)
    (reducerError "delegation-currentness"
      "Resource delegation requires settled work under an active admitted mandate")
  let registered ← registerFinalizedSubject resolve replay event "work-delegation"
  let revision := registered.1
  let grant ← parseWorkDelegationPayload (.object revision.payload)
  assertOnlyRelationships revision ["uses-boundary", "uses-admission", "uses-brief", "revises"]
  let boundary := some (delegationReference grant.boundary)
  let admission := some (delegationReference grant.admission)
  assertReference boundary replay.subjects.activeBoundary "Delegation Boundary"
  assertReference admission replay.activeAdmission "Delegation admission"
  let usesBoundary ← requiredRelationship revision "uses-boundary" "work-boundary"
  assertReference usesBoundary boundary "Delegation Boundary relationship"
  let usesAdmission ← requiredRelationship revision "uses-admission" "director-decision"
  assertReference usesAdmission admission "Delegation admission relationship"
  let admitted ← exactDelegationRevision resolve replay (delegationReference grant.admission)
    "director-decision"
  failIf (revision.semanticAuthor.id ≠ admitted.semanticAuthor.id)
    (reducerError "delegation-author"
      "Resource direction must preserve the admitted Director's supplied provenance")
  let previousRelationship ← optionalRelationship revision "revises" "work-delegation"
  assertDelegationLineage (replay.delegation.map (·.reference)) revision grant
    previousRelationship
  failIf (∃ e ∈ grant.expiresAt, Timestamp.dateLe e event.occurredAt = true)
    (reducerError "delegation-expiry" "New resource permission must not already be expired")
  failIf (grant.ceilings.operations < replay.delegatedCharges.operations
      ∨ grant.ceilings.agentAttempts < replay.delegatedCharges.agentAttempts
      ∨ grant.ceilings.reservedCellWallTimeMs
        < replay.delegatedCharges.reservedCellWallTimeMs)
    (reducerError "delegation-accounting"
      "A resource replacement cannot erase already reserved work")
  let directions := revision.relationships.filter fun link => link.relation = "uses-brief"
  let selectedDirections := [grant.directionContinue, grant.directionEvaluate].filterMap id
  failIf (directions.length ≠ selectedDirections.length)
    (reducerError "delegation-brief"
      "Resource direction relationships differ from the selected standing Briefs")
  let continued ← useStandingDirection resolve revision directions "delivery.continue"
    grant.directionContinue registered.2
  let evaluated ← useStandingDirection resolve revision directions "delivery.evaluate"
    grant.directionEvaluate continued
  return { evaluated with
    delegation := some ⟨retainedReference revision, grant, false⟩ }

/-- **`stopWorkDelegation`.** -/
def stopWorkDelegation (replay : Replay) (event : ControlRecordEvent) :
    Except FoundationError Replay := do
  let payload ← exactPayload event ["requestDigest", "requestedAt", "requestedBy"]
  let unsettled := reducerError "delegation-stop"
    "A settled stop must identify one current delegation after its reserved work settles"
  let grant ← orFail replay.delegation unsettled
  failIf (grant.stopped = true ∨ replay.HasUnresolved) unsettled
  let subject ← deliveryEventSubject event
  assertReference (some (reference subject)) (some grant.reference) "Stopped delegation"
  let revision ← exactDelegationRevision resolve replay grant.reference "work-delegation"
  let requestedBy ← stringField payload "requestedBy"
  let requestedAt ← stringField payload "requestedAt"
  failIf (requestedBy ≠ revision.semanticAuthor.id
      ∨ Timestamp.dateLt requestedAt revision.createdAt = true
      ∨ Timestamp.dateLt event.occurredAt requestedAt = true)
    (reducerError "delegation-stop" "A stop must retain the exact Director's earlier request")
  let request ← compileWorkDelegationStopRequest event.storeId event.processId
    ⟨"work-delegation", grant.reference.id, grant.reference.revision, grant.reference.digest⟩
    requestedBy requestedAt
  failIf (asString (member "requestDigest" payload) ≠ some request.digest)
    (reducerError "delegation-stop"
      "A stopped delegation must reproduce its exact request digest")
  return { replay with delegation := some { grant with stopped := true } }

/-! ## Reserved checks -/

/-- What a check slot reserves of a selection. -/
structure ReservedCheck where
  selectionId : String
  definition : ReservedDefinition
  binding : ResourceReference
deriving DecidableEq

/-- The check slots of a reservation. -/
def reservedChecks (slots : List WorkDelegationExecutionSlot) : List ReservedCheck :=
  slots.filterMap fun
    | .agent .. => none
    | .check _ selectionId definition binding .. => some ⟨selectionId, definition, binding⟩

/-- Whether one of the admitted bindings is the reserved one. -/
def bindingAdmitted (binding : ResourceReference) : List Json → Except FoundationError Bool
  | [] => .ok false
  | value :: values => do
    let admitted ← recordObject (some value) "Admitted Check Binding"
    if asString (member "id" admitted) = some binding.id
      ∧ asString (member "digest" admitted) = some binding.digest then return true
    else bindingAdmitted binding values

/-- One required selection has its slot, under its definition and an
admitted binding. -/
def assertReservedCheck (slots : List ReservedCheck) (selection : JsonObject) :
    Except FoundationError Unit := do
  let unbound := reducerError "delegation-checks"
    "Reserved Check must bind its exact admitted Definition occurrence"
  let slot ← orFail
    (slots.find? fun s => asString (member "id" selection) = some s.selectionId) unbound
  let definition ← orFail (member "definition" selection) unbound
  let reserved ← canonicalJson (WorkDelegation.definitionJson slot.definition)
  let admitted ← canonicalJson definition
  failIf (reserved ≠ admitted) unbound
  let bindings ← recordArray (member "bindings" selection) "Admitted Check Bindings"
  let found ← bindingAdmitted slot.binding bindings
  failIf (found = false)
    (reducerError "delegation-checks" "Reserved Check must use an admitted exact Binding")

/-- The checks of an evaluation's reservation. -/
def assertEvaluationChecks (replay : Replay) (reservation : WorkDelegationReservation) :
    Except FoundationError Unit := do
  let active ← orFail replay.subjects.activeBoundary
    (reducerError "delegation-checks" "Delegated evaluation requires its active Boundary")
  let boundary ← exactDelegationRevision resolve replay active "work-boundary"
  let mandate ← recordObject (member "mandate" boundary.payload) "Reserved evaluation mandate"
  let checks ← recordArray (member "checks" mandate) "Reserved evaluation Checks"
  let selections ← checks.mapM fun value => recordObject (some value) "Reserved Check selection"
  let required := selections.filter fun s => asBool (member "finalRequired" s) = some true
  let slots := reservedChecks reservation.slots
  failIf (slots.length ≠ required.length)
    (reducerError "delegation-checks"
      "Evaluation must reserve every required final Check exactly once")
  let _ ← required.mapM (assertReservedCheck slots)

/-- **`assertReservedChecks`.** -/
def assertReservedChecks (replay : Replay) (reservation : WorkDelegationReservation) :
    Except FoundationError Unit :=
  if reservation.operation ≠ .evaluate then .ok ()
  else assertEvaluationChecks resolve replay reservation

/-! ## Opening an activity -/

/-- The operation of a delegation an operation is, if any. -/
def delegatedOperation : DeliveryOperation → Option WorkDelegationOperation
  | .continue => some .continue
  | .evaluate => some .evaluate
  | .integrate => some .integrate
  | _ => none

/-- The family of the activities an operation opens. -/
def familyOf : OperationActivity → Option DeliveryActivityFamily
  | .agent => some .agent
  | .integration => some .integration
  | .transaction => some .transaction
  | .recovery => none

/-- The text an error gives for the reason of an allowance. -/
def allowanceText : AllowanceReason → String
  | .withinAllowance => "within-allowance"
  | .stopped => "stopped"
  | .expired => "expired"
  | .operationNotDelegated => "operation-not-delegated"
  | .selectionMismatch => "selection-mismatch"
  | .operationsExhausted => "operations-exhausted"
  | .agentAttemptsExhausted => "agent-attempts-exhausted"
  | .cellWallTimeExhausted => "cell-wall-time-exhausted"

/-- The brief of a delegated opening: the standing direction of its
operation. -/
def delegatedBrief (replay : Replay) (event : ControlRecordEvent) (activityId : String)
    (operation : DeliveryOperation) (reservation : WorkDelegationReservation) :
    Except FoundationError (Option SubjectReference) := do
  let inexact := reducerError "delegation-reservation"
    "Delegated opening must use its exact current resource permission and standing direction"
  let grant ← orFail replay.delegation inexact
  failIf (reservation.activityId ≠ activityId
      ∨ delegatedOperation operation ≠ some reservation.operation
      ∨ replay.subjects.materialCondition ≠ none ∨ replay.plannedBriefs.get activityId ≠ none)
    inexact
  assertReference (some (delegationReference reservation.delegation)) (some grant.reference)
    "Reserved delegation"
  assertReference (some (delegationReference grant.payload.boundary))
    replay.subjects.activeBoundary "Reserved Boundary"
  assertReference (some (delegationReference grant.payload.admission)) replay.activeAdmission
    "Reserved admission"
  let basisDigest ← deliveryWorkDecisionBasisDigest (stateFromReplay replay)
  failIf (replay.lastEvent.map (·.sequence) ≠ some reservation.headSequence
      ∨ replay.lastEvent.map (·.digest) ≠ some reservation.headDigest
      ∨ reservation.basisDigest ≠ basisDigest)
    (reducerError "delegation-basis"
      "A work reservation must bind the exact preceding settled facts")
  failIf (∃ a ∈ replay.activityList,
      a.reservation.map (·.reservationId) = some reservation.reservationId)
    (reducerError "delegation-reservation"
      "A work reservation cannot finance another Activity")
  assertReservedChecks resolve replay reservation
  let allowance ← assessWorkDelegationAllowance grant.payload replay.delegatedCharges
    reservation event.occurredAt grant.stopped
  failIf (allowance.allowed = false)
    (reducerError "delegation-allowance"
      s!"Work reservation is outside its retained allowance: {allowanceText allowance.reason}")
  return match reservation.operation with
    | .continue => grant.payload.directionContinue.map delegationReference
    | .evaluate => grant.payload.directionEvaluate.map delegationReference
    | .integrate => none

/-- Whether a current delegation charges every productive opening under
the active mandate. -/
def allowanceCurrent (replay : Replay) : Prop :=
  ∃ grant ∈ replay.delegation, grant.stopped = false
    ∧ replay.subjects.activeBoundary = some (delegationReference grant.payload.boundary)
    ∧ replay.activeAdmission = some (delegationReference grant.payload.admission)

instance (replay : Replay) : Decidable (allowanceCurrent replay) :=
  inferInstanceAs (Decidable (∃ grant ∈ replay.delegation, _ ∧ _ ∧ _))

/-- The brief an opening proceeds under. -/
def openingBrief (replay : Replay) (event : ControlRecordEvent) (activityId : String)
    (operation : DeliveryOperation) (reservation : Option WorkDelegationReservation) :
    Except FoundationError (Option SubjectReference) :=
  match reservation with
  | some reservation => delegatedBrief resolve replay event activityId operation reservation
  | none => do
    failIf (allowanceCurrent replay ∧ delegatedOperation operation ≠ none)
      (reducerError "delegation-reservation"
        "An active work allowance cannot be bypassed with an uncharged productive opening")
    return replay.plannedBriefs.get activityId

/-- The reservation an opening carries, if any. -/
def openingReservation (payload : JsonObject) :
    Except FoundationError (Option WorkDelegationReservation) :=
  match member "reservation" payload with
  | some value => do
    let reservation ← parseWorkDelegationReservation value
    return some reservation
  | none => .ok none

/-- What a started activity owes first. -/
def startedRecovery (operation : DeliveryOperation) :
    DeliveryActivityFamily → Option DeliveryRecoveryObligation
  | .agent =>
    if operation = .evaluate then recovery .finalization .candidateSealed none
    else recovery .finalization .agentAttemptPrepared none
  | .integration => recovery .finalization .integrationAssessed none
  | .transaction => recovery .finalization .directorDecisionAuthenticated none

/-- The charges after an opening. -/
def openingCharges (replay : Replay) (reservation : Option WorkDelegationReservation) :
    Except FoundationError WorkDelegationAccounting :=
  match reservation with
  | some reservation => addWorkDelegationAccounting replay.delegatedCharges reservation.charges
  | none => .ok replay.delegatedCharges

/-- The members an opening's payload must have. -/
def openingNames (payload : JsonObject) : List String :=
  if hasOwn payload "reservation" = true then ["activityId", "operation", "reservation"]
  else ["activityId", "operation"]

/-- **`startActivity`.** -/
def startActivity (replay : Replay) (event : ControlRecordEvent) :
    Except FoundationError Replay := do
  let payload ← exactPayload event (openingNames event.payload)
  let activityId ← identifierField payload "activityId"
  failIf (replay.activities.has activityId = true)
    (reducerError "duplicate" s!"Delivery activity {activityId} is repeated")
  let operation ← stringField payload "operation"
  let descriptor ← deliveryOperationDescriptor operation
  failIf (descriptor.operation = .recover)
    (reducerError "activity"
      "Recovery resumes an exact retained activity; it cannot create a second activity")
  let reservation ← openingReservation payload
  let brief ← openingBrief resolve replay event activityId descriptor.operation reservation
  failIf (descriptor.activity = .agent ∧ brief = none)
    (reducerError "order"
      s!"Agent activity {activityId} requires its exact finalized Director Brief")
  let planned := (brief.map (·.id)).getD ""
  failIf (descriptor.activity ≠ .agent ∧ brief ≠ none)
    (reducerError "activity" s!"Director Brief {planned
      } is planned for an agent activity, not {descriptor.operation.text}")
  failIf (descriptor.operation ∉ eligibleOperations replay)
    (reducerError "eligibility"
      s!"{descriptor.operation.text} is not eligible in the current Delivery state")
  let family ← orFail (familyOf descriptor.activity)
    (reducerError "activity" "Recovery cannot start a new Activity")
  let delegatedCharges ← openingCharges replay reservation
  let opened := replay.setActivity {
    id := activityId
    operation := descriptor.operation
    family
    originStanding := currentStanding replay
    stage := .started
    recovery := startedRecovery descriptor.operation family
    brief
    reservation }
  return { opened with
    delegatedCharges
    plannedBriefs := replay.plannedBriefs.erase activityId }

/-! ## Recorded recovery -/

/-- The kinds of an obligation as they are written. -/
def recoveryKinds : List (String × DeliveryRecoveryKind) :=
  [("provider", .provider), ("candidate-observation", .candidateObservation),
    ("transaction", .transaction), ("finalization", .finalization)]

/-- **`recordRecovery`**: it changes nothing. -/
def recordRecovery (replay : Replay) (event : ControlRecordEvent) :
    Except FoundationError Replay := do
  let payload ← exactPayload event ["activityId", "exactEffectDigest", "kind", "resumesAt"]
  let activity ← activityFor replay payload
  let owed ← orFail activity.recovery
    (reducerError "recovery"
      s!"Delivery activity {activity.id} has no exact recovery obligation")
  let kind ← enumField payload "kind" recoveryKinds
  let resumesAt ← identifierField payload "resumesAt"
  let recoveryDescriptor ← deliveryRecoveryDescriptor kind resumesAt
  let exactEffectDigest ← nullableDigestField payload "exactEffectDigest"
  failIf (owed.kind ≠ kind ∨ owed.resumesAt ≠ recoveryDescriptor.resumesAt
      ∨ owed.exactEffectDigest ≠ exactEffectDigest)
    (reducerError "recovery"
      s!"Recovery does not resume the exact retained obligation for activity {activity.id}")
  return replay

end DeliveryReducer
