import Lifecycle.DeliveryEvents
import Lifecycle.DeliveryState
import Lifecycle.OrderedMap

/-!
# The replay of a delivery

What the reducer keeps of the events it has accepted
(`process/delivery-reducer.ts`): the activities with the facts they
retain, the current subjects, the registries of what was finalized – and
the state a replay publishes. The helpers through which every handler
reads a payload, a record revision or the replay come first, so that the
handlers read as in the source.

The resolver the source keeps inside a replay is an argument here. A set
keyed by several texts joined with NUL is keyed by their tuple: identities
of accepted events hold no NUL.
-/

open Fallible Json ControlModel

/-! ## Enumerations of the reducer -/

/-- `ProviderOutcome`. -/
inductive ProviderOutcome
  | completed
  | failed
  | notStarted
deriving DecidableEq

/-- `CompletionOutcome`. -/
inductive CompletionOutcome
  | completed
  | failed
  | abandoned
deriving DecidableEq

/-- `EvidenceReadiness`. -/
inductive EvidenceReadiness
  | acceptanceReady
  | correctable
  | revisionRequired
  | noShipRecommended
deriving DecidableEq

/-- `CheckPhase`. -/
inductive CheckPhase
  | baseline
  | final
deriving DecidableEq

/-- `CheckModality`. -/
inductive CheckModality
  | precondition
  | repairTarget
  | regressionGuard
  | postcondition
  | diagnostic
deriving DecidableEq

/-- `CheckDisposition`. -/
inductive CheckDisposition
  | pass
  | fail
  | indeterminate
  | notRun
  | unsupported
  | operationalError
deriving DecidableEq

/-- The disposition of a closure. -/
inductive ClosureDisposition
  | accepted
  | noShip
deriving DecidableEq

/-- The source of a frozen material condition. -/
inductive ConditionSource
  | agentProposal
  | integrationAssessment
  | projectionCompilation
deriving DecidableEq

/-- The treatment of the candidate by a closure. -/
inductive CandidateTreatment
  | integrated
  | abandoned
  | notCreated
deriving DecidableEq

/-! ## Activities -/

/-- One entry of `ReplayActivity["checks"]`. -/
structure CheckFact where
  reference : SubjectReference
  selectionId : String
  phase : CheckPhase
  modality : CheckModality
  disposition : CheckDisposition
deriving DecidableEq

/-- `ReplayActivity`; its member `seal` is `candidateSeal` here. -/
structure ReplayActivity where
  id : String
  operation : DeliveryOperation
  family : DeliveryActivityFamily
  originStanding : DeliveryStanding
  stage : DeliveryActivityStage
  recovery : Option DeliveryRecoveryObligation
  brief : Option SubjectReference := none
  attempt : Option SubjectReference := none
  providerEffectDigest : Option Sha256Digest := none
  providerOutcome : Option ProviderOutcome := none
  preIntentRefusal : Option ControlRecordEvent := none
  workProduct : Option SubjectReference := none
  workProductAbandoned : Bool := false
  candidate : Option SubjectReference := none
  integrationAssessment : Option SubjectReference := none
  receipt : Option SubjectReference := none
  boundary : Option SubjectReference := none
  materialCondition : Option SubjectReference := none
  candidateSeal : Option SubjectReference := none
  checks : List CheckFact := []
  evidence : Option SubjectReference := none
  evidenceReadiness : Option EvidenceReadiness := none
  decision : Option SubjectReference := none
  decisionKind : Option DirectorDecision := none
  transactionEffectDigest : Option Sha256Digest := none
  transactionOutcome : Option TransactionOutcome := none
  closure : Option SubjectReference := none
  completionOutcome : Option CompletionOutcome := none
  reservation : Option WorkDelegationReservation := none

namespace ReplayActivity

/-- Whether the activity is not completed. -/
def Unresolved (a : ReplayActivity) : Prop := a.stage ≠ .completed

instance (a : ReplayActivity) : Decidable a.Unresolved :=
  inferInstanceAs (Decidable (a.stage ≠ .completed))

/-- The point its recovery resumes at, if it owes one. -/
def resumesAt (a : ReplayActivity) : Option DeliveryRecoveryStep :=
  a.recovery.map (·.resumesAt)

end ReplayActivity

/-- `recovery`: an obligation. The registry check of the source passes for
every pair the handlers use (`recovery_registered`). -/
def recovery (kind : DeliveryRecoveryKind) (resumesAt : DeliveryRecoveryStep)
    (exactEffectDigest : Option Sha256Digest) : Option DeliveryRecoveryObligation :=
  some ⟨kind, resumesAt, exactEffectDigest⟩

/-! ## Replays -/

/-- The delegation a replay retains. -/
structure ReplayDelegation where
  reference : SubjectReference
  payload : WorkDelegationPayload
  stopped : Bool
deriving DecidableEq

/-- The key of a standing brief: the canonical text of its payload. -/
abbrev StandingBriefKey := List UInt8

/-- **`Replay`**, without its resolver. -/
structure Replay where
  created : Bool := false
  storeId : Option String := none
  processId : Option String := none
  lastEvent : Option ControlRecordEvent := none
  lastOccurredAt : Option Int := none
  eventIds : List String := []
  finalizedSubjects : List (String × SubjectReference) := []
  recordKinds : OrderedMap String String := ∅
  recordRevisions : OrderedMap (String × Nat) Sha256Digest := ∅
  plannedBriefs : OrderedMap String SubjectReference := ∅
  activities : OrderedMap String ReplayActivity := ∅
  subjects : DeliverySubjects := {}
  evidenceReadiness : Option EvidenceReadiness := none
  closureDisposition : Option ClosureDisposition := none
  candidateIntegrated : Bool := false
  activeAdmission : Option SubjectReference := none
  delegation : Option ReplayDelegation := none
  delegatedCharges : WorkDelegationAccounting := ⟨0, 0, 0⟩
  standingBriefs : OrderedMap StandingBriefKey SubjectReference := ∅

/-- `freshReplay`. -/
def freshReplay : Replay := {}

namespace Replay

/-- The replay with one activity as a handler left it. -/
def setActivity (replay : Replay) (activity : ReplayActivity) : Replay :=
  { replay with activities := replay.activities.set activity.id activity }

/-- The replay with a finalized subject in its registries. -/
def register (replay : Replay) (kind : String) (value : SubjectReference) : Replay :=
  { replay with
    recordKinds := replay.recordKinds.set value.id kind
    recordRevisions := replay.recordRevisions.set (value.id, value.revision) value.digest
    finalizedSubjects := (kind, value) :: replay.finalizedSubjects }

/-- `[...replay.activities.values()]`. -/
def activityList (replay : Replay) : List ReplayActivity := replay.activities.values

/-- Whether some activity is not completed. -/
def HasUnresolved (replay : Replay) : Prop := ∃ a ∈ replay.activityList, a.Unresolved

instance (replay : Replay) : Decidable replay.HasUnresolved :=
  inferInstanceAs (Decidable (∃ a ∈ replay.activityList, a.Unresolved))

end Replay

namespace DeliveryReducer

/-- The errors of the reducer. -/
def reducerError (code message : String) : FoundationError :=
  lifecycleError s!"lifecycle.delivery-reducer.{code}" message

/-! ## Reading a payload -/

/-- `exactPayload`. -/
def exactPayload (event : ControlRecordEvent) (names : List String) :
    Except FoundationError JsonObject := do
  failIf (sortKeys (keys event.payload) ≠ sortKeys names)
    (reducerError "payload" s!"{event.eventKind} payload must contain exactly {
      DeliveryEvents.listed (sortKeys names)}")
  return event.payload

/-- `field`. -/
def field (payload : JsonObject) (name : String) : Except FoundationError Json :=
  orFail (member name payload)
    (reducerError "payload" s!"Delivery event payload omits {name}")

/-- `stringField`. -/
def stringField (payload : JsonObject) (name : String) : Except FoundationError String := do
  let value ← field payload name
  orFail (asString (some value))
    (reducerError "payload" s!"Delivery event payload {name} must be a string")

/-- `identifierField`. -/
def identifierField (payload : JsonObject) (name : String) :
    Except FoundationError String := do
  let value ← stringField payload name
  failIf (isIdentifier value = false)
    (reducerError "payload"
      s!"Delivery event payload {name} must be one bounded opaque identity")
  return value

/-- `digestField`. -/
def digestField (payload : JsonObject) (name : String) :
    Except FoundationError Sha256Digest := do
  let value ← stringField payload name
  failIf (isSha256 value = false)
    (reducerError "payload"
      s!"Delivery event payload {name} must be one lowercase SHA-256 digest")
  return value

/-- A digest, or none for `null`. -/
def digestOrNull : Json → Option (Option Sha256Digest)
  | .null => some none
  | .string s => if isSha256 s then some (some s) else none
  | _ => none

/-- `nullableDigestField`. -/
def nullableDigestField (payload : JsonObject) (name : String) :
    Except FoundationError (Option Sha256Digest) := do
  let value ← field payload name
  orFail (digestOrNull value)
    (reducerError "payload"
      s!"Delivery event payload {name} must be null or one lowercase SHA-256 digest")

/-- `enumField`, with the meaning of each text. -/
def enumField {α : Type} (payload : JsonObject) (name : String) (values : List (String × α)) :
    Except FoundationError α := do
  let value ← stringField payload name
  orFail (values.lookup value)
    (reducerError "payload" s!"Delivery event payload {name} has unsupported value {value}")

/-! ## References -/

/-- `reference`. -/
def reference (subject : ControlRecordEventSubject) : SubjectReference :=
  ⟨subject.recordId, subject.revision, subject.digest⟩

/-- `retainedReference`. -/
def retainedReference (revision : ControlRecordRevision) : SubjectReference :=
  ⟨revision.recordId, revision.revision, revision.digest⟩

/-- The subject that names a reference. -/
def subjectOf (r : SubjectReference) : ControlRecordEventSubject :=
  ⟨r.id, r.revision, r.digest⟩

/-- A delegation's reference as a subject reference. -/
def delegationReference (r : WorkDelegationReference) : SubjectReference :=
  ⟨r.id, r.revision, r.digest⟩

/-- `assertReference`; no caller reads the reference it returns. -/
def assertReference (referenceValue expected : Option SubjectReference) (label : String) :
    Except FoundationError Unit :=
  failIf (referenceValue = none ∨ expected ≠ referenceValue)
    (reducerError "reference" s!"{label} does not bind the exact current Control record subject")

@[simp] theorem assertReference_eq_ok {referenceValue expected : Option SubjectReference}
    {label : String} {u : Unit} :
    assertReference referenceValue expected label = .ok u ↔
      referenceValue ≠ none ∧ expected = referenceValue := by
  simp [assertReference]

/-- `assertAbsentRelationship`. -/
def assertAbsentRelationship (referenceValue : Option SubjectReference) (label : String) :
    Except FoundationError Unit :=
  failIf (referenceValue ≠ none)
    (reducerError "record-relationship" s!"{label} is not legal for this Control record variant")

/-! ## Reading a record revision -/

/-- `recordEnumField`, with the meaning of each text. -/
def recordEnumField {α : Type} (revision : ControlRecordRevision) (name : String)
    (values : List (String × α)) : Except FoundationError α :=
  orFail ((asString (member name revision.payload)).bind fun s => values.lookup s)
    (reducerError "record-payload" s!"{revision.recordKind} {revision.recordId} payload {
      name} has an unsupported value")

/-- `recordIdentifierField`. -/
def recordIdentifierField (revision : ControlRecordRevision) (name : String) :
    Except FoundationError String := do
  let malformed := reducerError "record-payload" s!"{revision.recordKind} {
    revision.recordId} payload {name} must be one bounded opaque identity"
  let value ← orFail (asString (member name revision.payload)) malformed
  failIf (isIdentifier value = false) malformed
  return value

/-- `recordObject`. -/
def recordObject (value : Option Json) (label : String) : Except FoundationError JsonObject :=
  orFail (asObject value) (reducerError "record-payload" s!"{label} must be one object")

/-- `recordArray`. -/
def recordArray (value : Option Json) (label : String) :
    Except FoundationError (List Json) :=
  orFail (asArray value) (reducerError "record-payload" s!"{label} must be one array")

/-- `nestedIdentifier`. -/
def nestedIdentifier (value : Option Json) (label : String) : Except FoundationError String := do
  let malformed := reducerError "record-payload" s!"{label} must be one bounded opaque identity"
  let text ← orFail (asString value) malformed
  failIf (isIdentifier text = false) malformed
  return text

/-- The boolean a member holds, when it holds one. -/
def asBool : Option Json → Option Bool
  | some (.bool b) => some b
  | _ => none

/-- `assertOnlyRelationships`. -/
def assertOnlyRelationships (revision : ControlRecordRevision) (allowed : List String) :
    Except FoundationError Unit :=
  let carried := ((revision.relationships.map (·.relation)).find? fun r => r ∉ allowed).getD ""
  failIf (∃ r ∈ revision.relationships, r.relation ∉ allowed)
    (reducerError "record-relationship"
      s!"{revision.recordKind} {revision.recordId} cannot carry {carried}")

/-- The reference of a relationship's target. -/
def targetReference (t : ControlRecordRelationshipTarget) : SubjectReference :=
  ⟨t.id, t.revision, t.digest⟩

/-- `relationshipReferences`. -/
def relationshipReferences (revision : ControlRecordRevision) (relation targetKind : String) :
    Except FoundationError (List SubjectReference) := do
  let selected := revision.relationships.filter fun r => r.relation = relation
  failIf (∃ r ∈ selected, r.target.kind ≠ targetKind)
    (reducerError "record-relationship" s!"{revision.recordKind} {
      revision.recordId} relationship {relation} must select one exact {targetKind} revision")
  return selected.map fun r => targetReference r.target

/-- `requiredRelationship`. -/
def requiredRelationship (revision : ControlRecordRevision) (relation targetKind : String) :
    Except FoundationError (Option SubjectReference) := do
  let selected ← relationshipReferences revision relation targetKind
  failIf (selected.length ≠ 1)
    (reducerError "record-relationship" s!"{revision.recordKind} {
      revision.recordId} requires exactly one {relation} relationship")
  return selected.head?

/-- `optionalRelationship`. -/
def optionalRelationship (revision : ControlRecordRevision) (relation targetKind : String) :
    Except FoundationError (Option SubjectReference) := do
  let selected ← relationshipReferences revision relation targetKind
  failIf (1 < selected.length)
    (reducerError "record-relationship" s!"{revision.recordKind} {
      revision.recordId} permits at most one {relation} relationship")
  return selected.head?

/-! ## Checks of a boundary -/

/-- Whether a check is required for the baseline or for the final phase. -/
inductive CheckRequirement
  | baselineRequired
  | finalRequired
deriving DecidableEq

def requirementText : CheckRequirement → String
  | .baselineRequired => "baselineRequired"
  | .finalRequired => "finalRequired"

/-- One check selection of a mandate: its identity, and whether it is
required. -/
def checkSelection (requirement : CheckRequirement) (value : Json) :
    Except FoundationError (String × Bool) := do
  let check ← recordObject (some value) "Work Boundary Check selection"
  let selectionId ← nestedIdentifier (member "id" check) "Work Boundary Check selection identity"
  let required ← orFail (asBool (member (requirementText requirement) check))
    (reducerError "record-payload" s!"Work Boundary Check selection {selectionId} {
      requirementText requirement} must be boolean")
  return (selectionId, required)

/-- The required selections of the checks of a mandate, after those seen. -/
def collectSelections (requirement : CheckRequirement) :
    List String → List Json → Except FoundationError (List String)
  | _, [] => .ok []
  | seen, value :: values => do
    let selection ← checkSelection requirement value
    failIf (selection.1 ∈ seen)
      (reducerError "record-payload" s!"Work Boundary repeats Check selection {selection.1}")
    let rest ← collectSelections requirement (selection.1 :: seen) values
    return if selection.2 then selection.1 :: rest else rest

/-- Whether a retained revision is exactly the referenced one. -/
def isExactRevision (revision : ControlRecordRevision) (processId : Option String)
    (kind : String) (selected : SubjectReference) : Prop :=
  some revision.processId = processId ∧ revision.recordKind = kind
    ∧ retainedReference revision = selected

instance (revision : ControlRecordRevision) (processId : Option String) (kind : String)
    (selected : SubjectReference) : Decidable (isExactRevision revision processId kind selected) :=
  inferInstanceAs (Decidable (_ ∧ _ ∧ _))

section Resolver

variable (resolve : DeliveryRecordRevisionResolver)

/-- `requiredCheckSelectionIds`. -/
def requiredCheckSelectionIds (replay : Replay) (selected : Option SubjectReference)
    (requirement : CheckRequirement) (label : String) :
    Except FoundationError (List String) := do
  failIf (replay.processId = none)
    (reducerError "order" s!"{label} has no exact Work Boundary")
  let selected ← orFail selected (reducerError "order" s!"{label} has no exact Work Boundary")
  let unresolved := reducerError "reference" s!"{label} cannot resolve the exact Work Boundary"
  let revision ← orFail (resolve (subjectOf selected)) unresolved
  failIf (¬ isExactRevision revision replay.processId "work-boundary" selected) unresolved
  let mandate ← recordObject (member "mandate" revision.payload) "Work Boundary mandate"
  let checks ← recordArray (member "checks" mandate) "Work Boundary mandate Checks"
  let required ← collectSelections requirement [] checks
  failIf (required = [])
    (reducerError "record-payload" s!"Work Boundary requires at least one {
      requirementText requirement} Check selection")
  return required

/-- `baselineSelectionIds`. -/
def baselineSelectionIds (replay : Replay) (activity : ReplayActivity) :
    Except FoundationError (List String) :=
  requiredCheckSelectionIds resolve replay activity.boundary .baselineRequired
    s!"Activity {activity.id} baseline Checks"

/-- `finalSelectionIds`. -/
def finalSelectionIds (replay : Replay) (activity : ReplayActivity) :
    Except FoundationError (List String) :=
  requiredCheckSelectionIds resolve replay replay.subjects.activeBoundary .finalRequired
    s!"Activity {activity.id} final Checks"

/-! ## Finalized subjects -/

/-- **`registerFinalizedSubject`**: the resolved revision, and the replay
with its kind, its coordinate and its finalization registered. -/
def registerFinalizedSubject (replay : Replay) (event : ControlRecordEvent) (kind : String) :
    Except FoundationError (ControlRecordRevision × Replay) := do
  let processId ← orFail replay.processId
    (reducerError "order" s!"{event.eventKind} cannot precede Delivery creation")
  let resolved ← resolveDeliveryEventSubject event processId resolve
  failIf (resolved.recordKind ≠ kind)
    (reducerError "reference"
      s!"{event.eventKind} cannot finalize {resolved.recordKind} as {kind}")
  let subject ← deliveryEventSubject event
  let value := reference subject
  let retained := (replay.recordKinds.get value.id).getD ""
  failIf (∃ existing ∈ replay.recordKinds.get value.id, existing ≠ kind)
    (reducerError "reference"
      s!"Control record {value.id} is rebound from {retained} to {kind}")
  failIf (∃ retained ∈ replay.recordRevisions.get (value.id, value.revision),
      retained ≠ value.digest)
    (reducerError "corruption"
      s!"Control record {value.id} revision {value.revision} is rebound to different bytes")
  failIf ((kind, value) ∈ replay.finalizedSubjects)
    (reducerError "duplicate"
      s!"{kind} {value.id} revision {value.revision} is finalized more than once")
  return (resolved, replay.register kind value)

/-- `exactDelegationRevision`. -/
def exactDelegationRevision (replay : Replay) (selected : SubjectReference) (kind : String) :
    Except FoundationError ControlRecordRevision := do
  let inexact := reducerError "delegation-subject"
    "Delegated work requires its exact retained subjects"
  let revision ← orFail (resolve (subjectOf selected)) inexact
  failIf (¬ isExactRevision revision replay.processId kind selected) inexact
  return revision

end Resolver

/-! ## Reading the replay -/

/-- `currentEstablishedBoundary`. -/
def currentEstablishedBoundary (replay : Replay) : Option SubjectReference :=
  match replay.subjects.activeBoundary with
  | some b => some b
  | none =>
    match replay.subjects.proposedBoundary with
    | some b => some b
    | none => replay.activityList.reverse.findSome? (·.boundary)

/-- `legalBaselineReceipt`. -/
def legalBaselineReceipt (check : CheckFact) : Bool :=
  match check.phase with
  | .final => false
  | .baseline =>
    match check.modality with
    | .precondition => decide (check.disposition = .pass)
    | .repairTarget => decide (check.disposition = .pass ∨ check.disposition = .fail)
    | .regressionGuard => decide (check.disposition = .pass)
    | .postcondition => decide (check.disposition = .notRun)
    | .diagnostic => true

/-- `legalAcceptanceReceipt`. -/
def legalAcceptanceReceipt (check : CheckFact) : Bool :=
  decide (check.phase = .final)
    && decide (check.modality = .diagnostic ∨ check.disposition = .pass)

/-- `baselineChecksForBoundary`. -/
def baselineChecksForBoundary (replay : Replay) (boundary : Option SubjectReference) :
    List CheckFact :=
  match boundary with
  | none => []
  | some b =>
    match replay.activityList.find? fun a => a.boundary = some b with
    | some owner => owner.checks.filter fun c => c.phase = .baseline
    | none => []

/-- `assertExactActivitySubject`. -/
def assertExactActivitySubject (event : ControlRecordEvent)
    (expected : Option SubjectReference) : Except FoundationError Unit := do
  let expected ← orFail expected
    (reducerError "reference" s!"{event.eventKind} has no retained activity subject to bind")
  let actual ← deliveryEventSubject event
  failIf (reference actual ≠ expected)
    (reducerError "reference"
      s!"{event.eventKind} does not bind the exact retained activity subject")

/-- `publicActivity`. -/
def publicActivity (a : ReplayActivity) : DeliveryActivity :=
  ⟨a.id, a.operation, a.family, a.stage, a.recovery⟩

/-- `currentStanding`. -/
def currentStanding (replay : Replay) : DeliveryStanding :=
  if replay.subjects.closure ≠ none then .closed
  else if replay.subjects.materialCondition ≠ none ∧ replay.subjects.proposedBoundary ≠ none then
    .awaitingReadmission
  else if replay.subjects.materialCondition ≠ none then .boundaryPaused
  else if replay.evidenceReadiness = some .acceptanceReady then .decisionReady
  else if replay.subjects.activeBoundary ≠ none then .active
  else if replay.subjects.proposedBoundary ≠ none then .awaitingAdmission
  else .framing

/-- `currentCandidateCondition`. -/
def currentCandidateCondition (replay : Replay) : DeliveryCandidateCondition :=
  let activeActivity := replay.activityList.find? fun a =>
    a.stage ≠ .completed ∧ a.operation ≠ .prepare
  let activeOperation : Option DeliveryOperation := activeActivity.map (·.operation)
  if replay.subjects.closure ≠ none then
    if replay.subjects.candidate = none then .absent
    else if replay.closureDisposition = some .accepted then .accepted else .abandoned
  else if replay.subjects.candidate = none then .absent
  else if ∃ a ∈ replay.activityList, a.stage ≠ .completed ∧ a.recovery ≠ none
      ∧ ¬ (activeActivity.map (·.id) = some a.id
        ∧ (a.stage = .started ∨ a.stage = .prepared)) then .terminalRecovery
  else if replay.subjects.materialCondition ≠ none then .pausedForBoundary
  else if activeOperation = some .integrate then .inProgress
  else if replay.evidenceReadiness = some .acceptanceReady then .readyForDecision
  else if activeOperation = some .evaluate ∧ replay.subjects.candidateSeal ≠ none then
    .sealedUnderEvaluation
  else if activeOperation ≠ none then .inProgress
  else if replay.evidenceReadiness = some .correctable
      ∨ replay.evidenceReadiness = some .noShipRecommended then .needsCorrection
  else if replay.subjects.candidateSeal ≠ none ∧ replay.subjects.evidence = none then
    .sealedUnderEvaluation
  else .readyForWork

/-- **`stateFromReplay`**: the state a replay publishes. -/
def stateFromReplay (replay : Replay) : DeliveryState where
  standing := currentStanding replay
  candidateCondition := currentCandidateCondition replay
  activities := replay.activityList.map publicActivity
  subjects := replay.subjects
  delegation :=
    { admission := replay.activeAdmission
      current := replay.delegation.map fun d => (d.reference, d.stopped)
      chargedOperations := replay.delegatedCharges.operations
      chargedAgentAttempts := replay.delegatedCharges.agentAttempts
      chargedCellWallTimeMs := replay.delegatedCharges.reservedCellWallTimeMs }
  eventCount := (replay.lastEvent.map (·.sequence)).getD 0
  headDigest := replay.lastEvent.map (·.digest)

/-- The operations eligible in the state a replay publishes, the
`eligibleOperations` of `reducedState`. -/
def eligibleOperations (replay : Replay) : List DeliveryOperation :=
  eligibleDeliveryOperations (stateFromReplay replay) replay.candidateIntegrated

/-- `activityFor`. -/
def activityFor (replay : Replay) (payload : JsonObject) :
    Except FoundationError ReplayActivity := do
  let activityId ← identifierField payload "activityId"
  let activity ← orFail (replay.activities.get activityId)
    (reducerError "activity" s!"Delivery event names unknown activity {activityId}")
  failIf (activity.stage = .completed)
    (reducerError "activity" s!"Delivery activity {activityId} is already complete")
  return activity

/-! ## Assertions about an activity -/

/-- `assertAgentActivity`. -/
def assertAgentActivity (activity : ReplayActivity) (eventKind : DeliveryEventKind) :
    Except FoundationError Unit :=
  failIf (activity.family ≠ .agent)
    (reducerError "activity" s!"{DeliveryEvents.kindText eventKind} requires an agent activity")

/-- `assertTransactionActivity`. -/
def assertTransactionActivity (activity : ReplayActivity) (eventKind : DeliveryEventKind) :
    Except FoundationError Unit :=
  failIf (activity.family ≠ .transaction)
    (reducerError "activity"
      s!"{DeliveryEvents.kindText eventKind} requires a transaction activity")

/-- `assertCoreAgentTerminal`. -/
def assertCoreAgentTerminal (activity : ReplayActivity) : Except FoundationError Unit := do
  failIf (activity.attempt = none ∨ activity.providerOutcome = none)
    (reducerError "order"
      s!"Agent activity {activity.id} has not reached a provider observation")
  failIf (activity.workProduct = none ∧ activity.workProductAbandoned = false)
    (reducerError "order"
      s!"Agent activity {activity.id} has no submitted or abandoned work product")

/-- `assertWorkProductOpen`. -/
def assertWorkProductOpen (activity : ReplayActivity) : Except FoundationError Unit :=
  failIf (activity.workProduct ≠ none ∨ activity.workProductAbandoned = true)
    (reducerError "duplicate"
      s!"Agent activity {activity.id} already has a terminal work-product disposition")

end DeliveryReducer
