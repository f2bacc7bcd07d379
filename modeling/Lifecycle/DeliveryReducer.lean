import Lifecycle.TransactionHandlers
import Lifecycle.TransitionSystem

/-!
# The delivery reducer

The envelope every event is verified by, the dispatch to its handler, and
the replay of a journal (`process/delivery-reducer.ts`). A controller that
is forked copies its replay, which is what a value of the model is. The
replays a journal can reach are those of the transition system
`deliverySystem`, whose labels are the events.
-/

open Fallible Json ControlModel

namespace DeliveryReducer

variable (resolve : DeliveryRecordRevisionResolver)

/-! ## The envelope -/

/-- The input an event would be compiled from. -/
def eventInput (event : ControlRecordEvent) : ControlRecordEventInput :=
  ⟨event.eventId, event.eventKind, event.occurredAt, event.actor, event.subject, event.payload⟩

/-- An event is what its own fields compile to. -/
def assertReproduced (event : ControlRecordEvent) : Except FoundationError Unit := do
  let reproduced ← compileControlRecordEvent event.storeId event.processId event.sequence
    event.predecessorDigest (eventInput event)
  failIf (reproduced.schema ≠ event.schema ∨ reproduced.digest ≠ event.digest)
    (reducerError "corruption"
      s!"Delivery event {event.eventId} does not reproduce its retained digest")

/-- An event binds the event before it, in the same store and process. -/
def assertSuccessor (replay : Replay) (event : ControlRecordEvent) :
    Except FoundationError Unit :=
  match replay.lastEvent with
  | none =>
    failIf (event.predecessorDigest ≠ none)
      (reducerError "sequence" "First Delivery event names a predecessor")
  | some last => do
    failIf (some event.storeId ≠ replay.storeId ∨ some event.processId ≠ replay.processId)
      (reducerError "scope"
        "Delivery replay crosses its retained store or Process identity")
    failIf (event.predecessorDigest ≠ some last.digest)
      (reducerError "sequence"
        s!"Delivery event {event.eventId} does not bind the exact preceding event")

/-- Whether an event is earlier than the last one. A time that is not one
is `NaN`, which is earlier than nothing. -/
def precedes (event : ControlRecordEvent) (replay : Replay) : Prop :=
  ∃ last ∈ replay.lastOccurredAt, ∃ t ∈ Timestamp.dateParse event.occurredAt, t < last

instance (event : ControlRecordEvent) (replay : Replay) : Decidable (precedes event replay) :=
  inferInstanceAs (Decidable (∃ _ ∈ replay.lastOccurredAt, ∃ _ ∈ _, _))

/-- **`verifyEnvelope`.** -/
def verifyEnvelope (replay : Replay) (event : ControlRecordEvent) (expectedSequence : Nat) :
    Except FoundationError Replay := do
  let _ ← assertDeliveryEventEnvelope event
  assertReproduced event
  failIf (event.sequence ≠ expectedSequence)
    (reducerError "sequence" s!"Delivery replay expected event sequence {
      expectedSequence}, received {event.sequence}")
  assertSuccessor replay event
  failIf (event.eventId ∈ replay.eventIds)
    (reducerError "duplicate" s!"Delivery event {event.eventId} is repeated")
  failIf (precedes event replay)
    (reducerError "time"
      s!"Delivery event {event.eventId} precedes the prior durable event time")
  return { replay with
    storeId := if replay.lastEvent.isNone then some event.storeId else replay.storeId
    processId := if replay.lastEvent.isNone then some event.processId else replay.processId
    eventIds := event.eventId :: replay.eventIds
    lastOccurredAt := Timestamp.dateParse event.occurredAt }

/-! ## Dispatch -/

/-- The handler of `delivery-created`. -/
def createDelivery (replay : Replay) (event : ControlRecordEvent) :
    Except FoundationError Replay := do
  let _ ← exactPayload event []
  failIf (replay.created = true ∨ event.sequence ≠ 1)
    (reducerError "duplicate" "Delivery is created exactly once at sequence 1")
  return { replay with created := true }

/-- The handler of a kind. -/
def handle (replay : Replay) (event : ControlRecordEvent) :
    DeliveryEventKind → Except FoundationError Replay
  | .deliveryCreated => createDelivery replay event
  | .directorBriefSubmitted => submitDirectorBrief resolve replay event
  | .workDelegationSet => setWorkDelegation resolve replay event
  | .workDelegationStopped => stopWorkDelegation resolve replay event
  | .activityStarted => startActivity resolve replay event
  | .activityRecoveryRecorded => recordRecovery replay event
  | .agentPreIntentRefused => refuseAgentBeforeIntent replay event
  | .agentAttemptPrepared => prepareAttempt resolve replay event
  | .providerEffectIntended => intendProviderEffect replay event
  | .providerEffectObserved => observeProviderEffect replay event
  | .agentWorkProductSubmitted => submitWorkProduct resolve replay event
  | .agentWorkProductAbandoned => abandonWorkProduct replay event
  | .integrationAssessed => assessIntegration resolve replay event
  | .candidateRevisionObserved => observeCandidateRevision resolve replay event
  | .executionReceiptRecorded => recordReceipt resolve replay event
  | .workBoundaryFinalized => finalizeBoundary resolve replay event
  | .materialConditionFrozen => freezeMaterialCondition resolve replay event
  | .candidateSealed => sealCandidate resolve replay event
  | .checkReceiptRecorded => recordCheckReceipt resolve replay event
  | .evidencePacketFinalized => finalizeEvidence resolve replay event
  | .directorDecisionAuthenticated => authenticateDecision resolve replay event
  | .transactionEffectIntended => intendTransactionEffect replay event
  | .transactionEffectObserved => observeTransactionEffect replay event
  | .activityCompleted => completeActivity resolve replay event
  | .closureRecorded => recordClosure resolve replay event

/-- **`applyEvent`.** -/
def applyEvent (replay : Replay) (event : ControlRecordEvent) :
    Except FoundationError Replay := do
  let kind := DeliveryEvents.parseKind event.eventKind
  failIf (replay.created = false ∧ kind ≠ some .deliveryCreated)
    (reducerError "order" "Delivery replay must begin with delivery-created")
  failIf (replay.subjects.closure ≠ none)
    (reducerError "terminal" "No Delivery event may follow terminal Closure")
  match kind with
  | some kind => handle resolve replay event kind
  | none => return replay

/-- **`append`** of the replay controller. -/
def append (replay : Replay) (event : ControlRecordEvent) : Except FoundationError Replay := do
  let verified ← verifyEnvelope replay event
    ((replay.lastEvent.map (·.sequence)).getD 0 + 1)
  let applied ← applyEvent resolve verified event
  return { applied with lastEvent := some event }

/-! ## Replays of a journal -/

/-- The replay of a journal from the empty one. -/
def replayDeliveryEvents (events : List ControlRecordEvent) : Except FoundationError Replay :=
  Fallible.replay (append resolve) freshReplay events

/-- `ReducedDeliveryState`. -/
structure ReducedDeliveryState extends DeliveryState where
  eligibleOperations : List DeliveryOperation
deriving DecidableEq

/-- `reducedState`. -/
def reducedState (replay : Replay) : ReducedDeliveryState :=
  { stateFromReplay replay with eligibleOperations := eligibleOperations replay }

/-- **`reduceDeliveryEvents`.** -/
def reduceDeliveryEvents (events : List ControlRecordEvent) :
    Except FoundationError ReducedDeliveryState := do
  let replay ← replayDeliveryEvents resolve events
  return reducedState replay

/-- **The deliveries of a resolver**: the replays, and the events that
lead from one to the next. -/
def deliverySystem : TransitionSystem Replay ControlRecordEvent where
  initial replay := replay = freshReplay
  step replay event next := append resolve replay event = .ok next

variable {resolve}

/-- The replays of accepted journals are the reachable ones. -/
theorem reachable_of_replay {events : List ControlRecordEvent} {replay : Replay}
    (h : replayDeliveryEvents resolve events = .ok replay) :
    (deliverySystem resolve).Reachable replay :=
  replay_invariant (P := (deliverySystem resolve).Reachable)
    (fun _ _ _ hs hstep => hs.step hstep) (.of_initial rfl) h

theorem replay_of_reachable {replay : Replay}
    (h : (deliverySystem resolve).Reachable replay) :
    ∃ events, replayDeliveryEvents resolve events = .ok replay := by
  refine h.invariant (P := fun r => ∃ events, replayDeliveryEvents resolve events = .ok r)
    ?_ ?_
  · rintro r rfl
    exact ⟨[], rfl⟩
  · rintro r event next ⟨events, hr⟩ hstep
    exact ⟨events ++ [event], replay_snoc_eq_ok.mpr ⟨r, hr, hstep⟩⟩

end DeliveryReducer
