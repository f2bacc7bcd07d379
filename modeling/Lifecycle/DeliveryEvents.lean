import Lifecycle.TransactionFacts
import Lifecycle.WorkDelegation

/-!
# Delivery events

The registry of delivery events (`process/delivery-event-registry.ts`):
the kinds, what record a kind binds, the exact fields of its payload, and
the resolution of an event's subject to the record revision it retains.
-/

open Fallible Json ControlModel

/-- `DeliveryEventKind`. -/
inductive DeliveryEventKind
  | deliveryCreated
  | directorBriefSubmitted
  | workDelegationSet
  | workDelegationStopped
  | activityStarted
  | activityRecoveryRecorded
  | agentPreIntentRefused
  | agentAttemptPrepared
  | providerEffectIntended
  | providerEffectObserved
  | agentWorkProductSubmitted
  | agentWorkProductAbandoned
  | candidateRevisionObserved
  | integrationAssessed
  | executionReceiptRecorded
  | workBoundaryFinalized
  | materialConditionFrozen
  | candidateSealed
  | checkReceiptRecorded
  | evidencePacketFinalized
  | directorDecisionAuthenticated
  | transactionEffectIntended
  | transactionEffectObserved
  | activityCompleted
  | closureRecorded
deriving DecidableEq

/-- `DeliveryEventDescriptor["subjectUse"]`. -/
inductive SubjectUse
  | forbidden
  | required
  | exactActivitySubject
deriving DecidableEq

/-- `DeliveryEventDescriptor`. -/
structure DeliveryEventDescriptor where
  kind : DeliveryEventKind
  subjectKind : Option String
  subjectUse : SubjectUse
deriving DecidableEq

/-- `PayloadField`. -/
inductive PayloadField
  | identifier
  | sha256
  | nullableSha256
  | transactionFacts
  | positiveInteger
  | timestamp
  | workReservation
  | values (texts : List String)
deriving DecidableEq

namespace DeliveryEvents

/-- `DELIVERY_EVENT_KINDS`. -/
def kinds : List DeliveryEventKind := [
  .deliveryCreated, .directorBriefSubmitted, .workDelegationSet, .workDelegationStopped,
  .activityStarted, .activityRecoveryRecorded, .agentPreIntentRefused, .agentAttemptPrepared,
  .providerEffectIntended, .providerEffectObserved, .agentWorkProductSubmitted,
  .agentWorkProductAbandoned, .candidateRevisionObserved, .integrationAssessed,
  .executionReceiptRecorded, .workBoundaryFinalized, .materialConditionFrozen,
  .candidateSealed, .checkReceiptRecorded, .evidencePacketFinalized,
  .directorDecisionAuthenticated, .transactionEffectIntended, .transactionEffectObserved,
  .activityCompleted, .closureRecorded]

/-- A kind as it is written. -/
def kindText : DeliveryEventKind → String
  | .deliveryCreated => "delivery-created"
  | .directorBriefSubmitted => "director-brief-submitted"
  | .workDelegationSet => "work-delegation-set"
  | .workDelegationStopped => "work-delegation-stopped"
  | .activityStarted => "activity-started"
  | .activityRecoveryRecorded => "activity-recovery-recorded"
  | .agentPreIntentRefused => "agent-pre-intent-refused"
  | .agentAttemptPrepared => "agent-attempt-prepared"
  | .providerEffectIntended => "provider-effect-intended"
  | .providerEffectObserved => "provider-effect-observed"
  | .agentWorkProductSubmitted => "agent-work-product-submitted"
  | .agentWorkProductAbandoned => "agent-work-product-abandoned"
  | .candidateRevisionObserved => "candidate-revision-observed"
  | .integrationAssessed => "integration-assessed"
  | .executionReceiptRecorded => "execution-receipt-recorded"
  | .workBoundaryFinalized => "work-boundary-finalized"
  | .materialConditionFrozen => "material-condition-frozen"
  | .candidateSealed => "candidate-sealed"
  | .checkReceiptRecorded => "check-receipt-recorded"
  | .evidencePacketFinalized => "evidence-packet-finalized"
  | .directorDecisionAuthenticated => "director-decision-authenticated"
  | .transactionEffectIntended => "transaction-effect-intended"
  | .transactionEffectObserved => "transaction-effect-observed"
  | .activityCompleted => "activity-completed"
  | .closureRecorded => "closure-recorded"

/-- The kind a text names. -/
def parseKind (text : String) : Option DeliveryEventKind :=
  kinds.find? fun k => kindText k = text

theorem parseKind_eq_some {text : String} {k : DeliveryEventKind} :
    parseKind text = some k → kindText k = text := by
  intro h
  simpa using List.find?_some h

/-- The record kind an event of a kind binds, if any. -/
def subjectKind : DeliveryEventKind → Option String
  | .directorBriefSubmitted => some "director-brief"
  | .workDelegationSet => some "work-delegation"
  | .workDelegationStopped => some "work-delegation"
  | .agentAttemptPrepared => some "agent-attempt"
  | .providerEffectIntended => some "agent-attempt"
  | .providerEffectObserved => some "agent-attempt"
  | .agentWorkProductSubmitted => some "agent-work-product"
  | .agentWorkProductAbandoned => some "agent-attempt"
  | .candidateRevisionObserved => some "candidate-revision"
  | .integrationAssessed => some "integration-assessment"
  | .executionReceiptRecorded => some "execution-receipt"
  | .workBoundaryFinalized => some "work-boundary"
  | .materialConditionFrozen => some "material-condition"
  | .candidateSealed => some "candidate-seal"
  | .checkReceiptRecorded => some "check-receipt"
  | .evidencePacketFinalized => some "evidence-packet"
  | .directorDecisionAuthenticated => some "director-decision"
  | .transactionEffectIntended => some "director-decision"
  | .transactionEffectObserved => some "director-decision"
  | .closureRecorded => some "closure"
  | .deliveryCreated => none
  | .activityStarted => none
  | .activityRecoveryRecorded => none
  | .agentPreIntentRefused => none
  | .activityCompleted => none

/-- How an event of a kind uses its subject. -/
def subjectUse : DeliveryEventKind → SubjectUse
  | .deliveryCreated => .forbidden
  | .activityStarted => .forbidden
  | .activityRecoveryRecorded => .forbidden
  | .agentPreIntentRefused => .forbidden
  | .activityCompleted => .forbidden
  | .providerEffectIntended => .exactActivitySubject
  | .providerEffectObserved => .exactActivitySubject
  | .agentWorkProductAbandoned => .exactActivitySubject
  | .transactionEffectIntended => .exactActivitySubject
  | .transactionEffectObserved => .exactActivitySubject
  | _ => .required

def descriptor (kind : DeliveryEventKind) : DeliveryEventDescriptor where
  kind := kind
  subjectKind := subjectKind kind
  subjectUse := subjectUse kind

/-- `OPERATIONS`. -/
def operations : List String :=
  ["delivery.prepare", "delivery.admit", "delivery.continue", "delivery.integrate",
    "delivery.evaluate", "delivery.revise", "delivery.reaffirm", "delivery.accept",
    "delivery.no-ship", "delivery.recover"]

/-- `PAYLOAD_FIELDS`. -/
def payloadFields : DeliveryEventKind → List (String × PayloadField)
  | .deliveryCreated => []
  | .workDelegationSet => []
  | .workDelegationStopped =>
    [("requestDigest", .sha256), ("requestedAt", .timestamp), ("requestedBy", .identifier)]
  | .activityStarted => [("activityId", .identifier), ("operation", .values operations)]
  | .activityRecoveryRecorded =>
    [("activityId", .identifier), ("exactEffectDigest", .nullableSha256),
      ("kind", .values ["provider", "candidate-observation", "transaction", "finalization"]),
      ("resumesAt", .identifier)]
  | .agentPreIntentRefused =>
    [("activityId", .identifier), ("diagnosticCode", .identifier),
      ("refusalFactsDigest", .sha256),
      ("resolution", .values ["none", "projection-condition-required"])]
  | .providerEffectIntended => [("activityId", .identifier), ("effectDigest", .sha256)]
  | .providerEffectObserved =>
    [("activityId", .identifier), ("effectDigest", .sha256),
      ("outcome", .values ["completed", "failed", "not-started"])]
  | .materialConditionFrozen =>
    [("sourceKind", .values
        ["agent-proposal", "integration-assessment", "projection-compilation"]),
      ("activityId", .identifier), ("observedFactsDigest", .sha256)]
  | .transactionEffectIntended => [("activityId", .identifier), ("effectDigest", .sha256)]
  | .transactionEffectObserved =>
    [("activityId", .identifier), ("effectDigest", .sha256), ("facts", .transactionFacts),
      ("factsDigest", .sha256),
      ("outcome", .values ["applied", "not-applied", "indeterminate"])]
  | .activityCompleted =>
    [("activityId", .identifier), ("outcome", .values ["completed", "failed", "abandoned"])]
  | .directorBriefSubmitted => [("activityId", .identifier)]
  | .agentAttemptPrepared => [("activityId", .identifier)]
  | .agentWorkProductSubmitted => [("activityId", .identifier)]
  | .agentWorkProductAbandoned => [("activityId", .identifier)]
  | .candidateRevisionObserved => [("activityId", .identifier)]
  | .integrationAssessed => [("activityId", .identifier)]
  | .executionReceiptRecorded => [("activityId", .identifier)]
  | .workBoundaryFinalized => [("activityId", .identifier)]
  | .candidateSealed => [("activityId", .identifier)]
  | .checkReceiptRecorded => [("activityId", .identifier)]
  | .evidencePacketFinalized => [("activityId", .identifier)]
  | .directorDecisionAuthenticated => [("activityId", .identifier)]
  | .closureRecorded => [("activityId", .identifier)]

/-- The fields an event's payload must have: a standing brief and a
delegated opening have their own. -/
def expectedFields (kind : DeliveryEventKind) (payload : JsonObject) :
    List (String × PayloadField) :=
  if kind = .directorBriefSubmitted ∧ hasOwn payload "delegationId" = true then
    [("delegationId", .identifier), ("delegationRevision", .positiveInteger),
      ("operation", .values ["delivery.continue", "delivery.evaluate"])]
  else if kind = .activityStarted ∧ hasOwn payload "reservation" = true then
    payloadFields .activityStarted ++ [("reservation", .workReservation)]
  else payloadFields kind

/-- The errors of the event registry. -/
def eventError (code message : String) : FoundationError :=
  lifecycleError s!"lifecycle.delivery-event.{code}" message

/-- `assertPayloadValue`. -/
def assertPayloadValue (name : String) (value : Json) (field : PayloadField) :
    Except FoundationError Unit :=
  let fails (requirement : String) : FoundationError :=
    eventError "payload" s!"Delivery event payload {name} {requirement}"
  match field, value with
  | .positiveInteger, .number (.integer n) =>
    failIf (n < 1 ∨ (maxSafeInteger : Int) < n) (fails "requires a positive safe integer")
  | .positiveInteger, _ => .error (fails "requires a positive safe integer")
  | .timestamp, .string s => do
    let _ ← controlTimestamp s s!"Delivery event payload {name}"
  | .timestamp, _ => .error (fails "requires a timestamp")
  | .workReservation, v => do
    let _ ← parseWorkDelegationReservation v
  | .identifier, .string s =>
    failIf (isIdentifier s = false) (fails "must be one bounded opaque identity")
  | .identifier, _ => .error (fails "must be one bounded opaque identity")
  | .sha256, .string s =>
    failIf (isSha256 s = false) (fails "must be one lowercase SHA-256 digest")
  | .sha256, _ => .error (fails "must be one lowercase SHA-256 digest")
  | .nullableSha256, .null => .ok ()
  | .nullableSha256, .string s =>
    failIf (isSha256 s = false) (fails "must be null or one lowercase SHA-256 digest")
  | .nullableSha256, _ => .error (fails "must be null or one lowercase SHA-256 digest")
  | .transactionFacts, v => do
    let _ ← parseTransactionObservationFacts (some v)
  | .values texts, .string s => failIf (s ∉ texts) (fails "has an unsupported value")
  | .values _, _ => .error (fails "has an unsupported value")

/-- The check of one member, when the payload and the fields have it. -/
def assertPayloadMember (payload : JsonObject) (fields : List (String × PayloadField))
    (name : String) : Except FoundationError Unit :=
  match member name payload, fields.lookup name with
  | some value, some field => assertPayloadValue name value field
  | _, _ => .ok ()

/-- The checks of the payload's fields, in the order of their names. -/
def assertPayloadValues (payload : JsonObject) (fields : List (String × PayloadField)) :
    List String → Except FoundationError Unit
  | [] => .ok ()
  | name :: names => do
    assertPayloadMember payload fields name
    assertPayloadValues payload fields names

/-- Names as an error lists them. -/
def listed (names : List String) : String :=
  if names = [] then "no fields" else ", ".intercalate names

/-- The facts of a transaction observation reproduce their digest. -/
def assertFactsDigest (payload : JsonObject) : Except FoundationError Unit := do
  let facts ← parseTransactionObservationFacts (member "facts" payload)
  let actual ← digestCanonical (.object facts)
  failIf (some actual ≠ asString (member "factsDigest" payload))
    (eventError "payload" "Transaction observation facts differ from their retained digest")

end DeliveryEvents

open DeliveryEvents

/-- `deliveryEventDescriptor`. -/
def deliveryEventDescriptor (kind : String) : Except FoundationError DeliveryEventDescriptor :=
  match parseKind kind with
  | some k => .ok (descriptor k)
  | none => .error (eventError "kind" s!"Unsupported Delivery event kind {kind}")

/-- **`assertDeliveryEventPayload`.** -/
def assertDeliveryEventPayload (event : ControlRecordEvent) :
    Except FoundationError JsonObject := do
  let descriptor ← deliveryEventDescriptor event.eventKind
  let fields := expectedFields descriptor.kind event.payload
  let expected := sortKeys (fields.map Prod.fst)
  failIf (sortKeys (keys event.payload) ≠ expected)
    (eventError "payload"
      s!"{kindText descriptor.kind} payload must contain exactly {listed expected}")
  assertPayloadValues event.payload fields expected
  onlyIf (descriptor.kind = .transactionEffectObserved) (assertFactsDigest event.payload)
  return event.payload

/-- **`assertDeliveryEventEnvelope`.** -/
def assertDeliveryEventEnvelope (event : ControlRecordEvent) :
    Except FoundationError DeliveryEventDescriptor := do
  let descriptor ← deliveryEventDescriptor event.eventKind
  failIf (descriptor.subjectUse = .forbidden ∧ event.subject ≠ none)
    (eventError "subject" s!"{kindText descriptor.kind} cannot carry a Control record subject")
  failIf (descriptor.subjectUse ≠ .forbidden ∧ event.subject = none)
    (eventError "subject" s!"{kindText descriptor.kind} must bind its exact Control record subject")
  let _ ← assertDeliveryEventPayload event
  return descriptor

/-- `deliveryEventSubject`. -/
def deliveryEventSubject (event : ControlRecordEvent) :
    Except FoundationError ControlRecordEventSubject := do
  let _ ← assertDeliveryEventEnvelope event
  orFail event.subject (eventError "subject" s!"{event.eventKind} has no Control record subject")

/-- `DeliveryRecordRevisionResolver`: the retained revision a subject
names, if any. -/
abbrev DeliveryRecordRevisionResolver := ControlRecordEventSubject → Option ControlRecordRevision

/-- **`resolveDeliveryEventSubject`.** -/
def resolveDeliveryEventSubject (event : ControlRecordEvent) (processId : String)
    (resolveRevision : DeliveryRecordRevisionResolver) :
    Except FoundationError ControlRecordRevision := do
  let descriptor ← assertDeliveryEventEnvelope event
  let noSubject := eventError "subject"
    s!"{event.eventKind} has no Control record subject to resolve"
  let subjectKind ← orFail descriptor.subjectKind noSubject
  let subject ← orFail event.subject noSubject
  let revision ← orFail (resolveRevision subject)
    (eventError "subject" s!"{event.eventKind} names an unavailable Control record revision")
  failIf (revision.processId ≠ processId ∨ revision.recordId ≠ subject.recordId
    ∨ revision.revision ≠ subject.revision ∨ revision.digest ≠ subject.digest)
    (eventError "subject" s!"{event.eventKind} does not resolve to its exact retained revision")
  failIf (revision.recordKind ≠ subjectKind)
    (eventError "subject-kind"
      s!"{event.eventKind} requires {subjectKind}, received {revision.recordKind}")
  return revision
