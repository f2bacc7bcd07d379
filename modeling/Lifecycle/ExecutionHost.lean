import Lifecycle.AskingPrograms
import Lifecycle.ExecutionCheckpoints

/-!
# The execution operation host

`FoundationExecutionOperationHostV1` (`execution/operation-host.ts`) as
programs that ask: every awaited call of the backend, the checkpoint
persistence, the clock, the output validation and the owner is a question,
and any answer of its type may come back, a thrown value included.

A call that fails with some facts observed keeps its code and its message
here; the facts are for a report only.
-/

open Fallible Json Asking

namespace Execution

/-! ## Thrown values -/

/-- **What a call may throw**: an error of the runtime, which may be
retryable or report a change of state, or any other value. -/
inductive Thrown
  | foundation (error : FoundationError) (changed : Bool) (diagnostics : List Json)
  | other

/-- `fail`, of the host. -/
def raise (code message : String) : Thrown :=
  .foundation (hostFailure code message)
    (decide (code ∈ ["backend-interrupted", "containment-ambiguous", "containment-unavailable",
      "persistence"])) []

/-- The code of an error of the runtime. -/
def Thrown.code : Thrown → Option String
  | .foundation error _ _ => some error.code
  | .other => none

/-! ## Questions -/

/-- `FoundationExecutionBackendOperation`, as far as calls of one method are
told apart by it. -/
inductive BackendOperation
  | allocationObserve
  | preDispatchObserve
  | observe
  | terminalRetrieval
  | outputRetrieval
deriving DecidableEq

/-- `FoundationRetrievedExecutionOutputV1`, as far as it is read here. -/
structure RetrievedOutput where
  manifestDigest : Sha256Digest
  specificationDigest : Sha256Digest
  carrierByteLength : Nat
deriving DecidableEq

inductive UnavailableReason
  | missing
  | partly
  | lost
deriving DecidableEq

/-- A retrieved output, or why there is none. -/
inductive Retrieval
  | complete (output : RetrievedOutput)
  | unavailable (reason : UnavailableReason)
deriving DecidableEq

/-- **`FoundationExecutionRetrievalOutcomeV1`.** -/
structure RetrievalOutcome where
  specificationDigest : Sha256Digest
  allocationIdentityDigest : Sha256Digest
  observationDigest : Sha256Digest
  retrieval : Retrieval
  factsDigest : Sha256Digest
deriving DecidableEq

/-- `FoundationValidatedExecutionOutputArtifactV1`, without its bytes. -/
structure ValidatedArtifact where
  path : String
  entryKind : String
  purpose : String
  mediaType : String
  modeClass : String
  candidateRepositoryPath : Option String
  candidateGitMode : Option String
  byteLength : Nat
  digest : Sha256Digest
deriving DecidableEq

/-- `FoundationValidatedExecutionOutputV1`, as far as it is read here. -/
structure ValidatedOutput where
  manifestDigest : Sha256Digest
  carrierByteLength : Nat
  artifacts : List ValidatedArtifact
deriving DecidableEq

/-- `FoundationValidatedExecutionOutputResultV1`. -/
structure ValidatedResult where
  output : ValidatedOutput
  outputStoreBinding : StoreBinding
deriving DecidableEq

/-- The answer of an owner's output validator. -/
inductive OwnerValidation
  | valid
  | invalid
  | unrecognized
deriving DecidableEq

inductive PreDispatchDisposition
  | dispatch
  | refused
deriving DecidableEq

/-- The answer of the owner's pre-dispatch boundary. -/
structure PreDispatchDecision where
  disposition : PreDispatchDisposition
  retained : Retained
deriving DecidableEq

/-- **The calls of a host.** -/
inductive HostCall
  | read
  | compareExchange (expected : Option Coordinate) (checkpoint : Checkpoint)
  | commitPreDispatch (current : Retained) (dispatchCheckpoint refusalCheckpoint : Checkpoint)
  | createAllocationKey
  | now
  | allocate (allocationKey : String)
  | observe (operation : BackendOperation) (handle : String)
  | dispatch (handle : String)
  | cancel (handle : String)
  | retrieve (operation : BackendOperation) (handle : String) (observation : Observation)
  | createReclamationBinding (handle : String) (retirementCheckpointDigest : Sha256Digest)
      (dispatchAuthorityConsumed : Bool)
  | observeTerminalCompletion (manifestDigest : Option Sha256Digest) (output : RetrievedOutput)
  | validateExecutionOutput (output : RetrievedOutput) (runnerDigest : Sha256Digest)
  | validateOwnerOutput (output : ValidatedOutput)
  | reopenExecutionOutput (binding : StoreBinding) (runnerDigest : Sha256Digest)

/-- What a call returns when it does not throw. -/
def HostResult : HostCall → Type
  | .read => Option Retained
  | .compareExchange _ _ => Retained
  | .commitPreDispatch _ _ _ => PreDispatchDecision
  | .createAllocationKey => String
  | .now => String
  | .allocate _ => String
  | .observe _ _ => Observation
  | .dispatch _ => Observation
  | .cancel _ => Observation
  | .retrieve _ _ _ => RetrievalOutcome
  | .createReclamationBinding _ _ _ => ReclamationBinding
  | .observeTerminalCompletion _ _ => OwnerCompletion
  | .validateExecutionOutput _ _ => ValidatedResult
  | .validateOwnerOutput _ => OwnerValidation
  | .reopenExecutionOutput _ _ => ValidatedResult

/-- **What a call answers.** -/
def HostAnswer (q : HostCall) : Type := Except Thrown (HostResult q)

/-- **A program of the host.** -/
abbrev HostProgram (α : Type) := Asking HostCall HostAnswer Thrown α

/-- One call, what it throws turned into something else. -/
def call (q : HostCall) (onThrow : Thrown → Thrown) : HostProgram (HostResult q) :=
  Asking.question q >>= fun answer => Asking.lift (Except.mapError onThrow answer)

/-- A part that calls nothing. -/
def checked {α : Type} (x : Except FoundationError α) : HostProgram α :=
  Asking.lift (x.mapError fun error => .foundation error false [])

/-- Stops with a failure of the host where `c` holds. -/
def refuse (c : Prop) [Decidable c] (code message : String) : HostProgram Unit :=
  Asking.lift (failIf c (raise code message))

/-- A value that may be missing. -/
def present {α : Type} (value : Option α) (code message : String) : HostProgram α :=
  Asking.lift (orFail value (raise code message))

/-- `backendInterrupted`. -/
def backendInterrupted (message : String) (_ : Thrown) : Thrown :=
  raise "backend-interrupted" message

/-- `isDeterministicBackendRefusal` decides what is thrown on. -/
def allocationFailure : Thrown → Thrown
  | .foundation error false diagnostics => .foundation error false diagnostics
  | .foundation _ true _ | .other =>
    raise "backend-interrupted" "Execution allocation was interrupted; reopen its exact allocation key"

/-- **`laterTime`.** -/
def later (lowerBound label : String) : HostProgram String := do
  let value ← call .now fun _ => raise "clock" s!"{label} could not be sampled"
  checked (laterTime value lowerBound label)

/-! ## Hosts -/

/-- **`FoundationExecutionOperationHostV1`**: which of its optional
dependencies a host has. -/
structure OperationHost where
  observeTerminalCompletion : Bool
  validateOwnerOutput : Bool
  commitPreDispatch : Bool
deriving DecidableEq

/-- **`FoundationExecutionOperationAdvanceV1`.** -/
structure Advance where
  retained : Retained
  validatedOutput : Option ValidatedOutput := none

variable (host : OperationHost) (specification : Specification)

/-- A read value. -/
def parseRead : Option Retained → Except FoundationError (Option Retained)
  | none => .ok none
  | some retained => (parseRetained specification retained).map some

/-- **`read`.** -/
def readCheckpoint : HostProgram (Option Retained) := do
  let value ← call .read fun _ => raise "persistence" "Execution checkpoint could not be read"
  checked (parseRead specification value)

/-- **`#commit`.** -/
def commitCheckpoint (current : Option Retained) (checkpoint : Checkpoint) :
    HostProgram Retained := do
  let value ← call (.compareExchange (current.map (·.coordinate)) checkpoint) fun _ =>
    raise "persistence" "Execution checkpoint durable compare-and-swap failed"
  let retained ← checked (parseRetained specification value)
  refuse ((current.any fun c => decide
        (retained.coordinate.revision ≠ c.coordinate.revision + 1)) = true
      ∨ retained.checkpoint.digest ≠ checkpoint.digest ∨ retained.checkpoint ≠ checkpoint)
    "persistence-substitution" "Execution persistence committed another checkpoint value"
  pure retained

/-- A revised checkpoint, sealed and committed. -/
def commitRevised (current : Retained) (revised : Checkpoint) : HostProgram Retained := do
  let checkpoint ← checked (checkpointSubject revised)
  commitCheckpoint specification (some current) checkpoint

/-! ## `open` -/

/-- A checkpoint just opened. -/
def openingCheckpoint (allocationKey openedAt : String) : Checkpoint where
  specificationDigest := specification.digest
  backendProfile := specification.backendProfile
  openedAt := openedAt
  allocationKey := allocationKey
  digest := ""

/-- Opens the operation. -/
def openNew : HostProgram Retained := do
  let inexact := raise "allocation-key"
    "Execution operation could not create one exact allocation key"
  let allocationKey ← call .createAllocationKey fun _ => inexact
  Asking.lift ((assertAllocationKey allocationKey).mapError fun _ => inexact)
  let openedAt ← later "0000-01-01T00:00:00.000Z" "Execution opening time"
  let checkpoint ← checked
    (checkpointSubject (openingCheckpoint specification allocationKey openedAt))
  commitCheckpoint specification none checkpoint

/-- What is there already, or else a new operation. -/
def openUnless : Option Retained → HostProgram Retained
  | some existing => pure existing
  | none => openNew specification

/-- **`open`.** -/
def openOperation : HostProgram Retained :=
  readCheckpoint specification >>= openUnless specification

/-! ## `#recordObservation` -/

/-- The containment an observation establishes. -/
def establish (c : Checkpoint) (observation : Observation) :
    HostProgram (Option Containment) :=
  if (hostContainment observation c.consumed).established = true then do
    let establishedAt ← later (laterOf (latestRuntimeTime c) (some observation.observedAt))
      "Execution Containment time"
    let containment ← checked (containmentSubject observation establishedAt
      (hostContainment observation c.consumed).backendEffectObserved)
    pure (some containment)
  else pure none

/-- **`#recordObservation`.** -/
def recordObservation (current : Retained) (value : Observation) : HostProgram Retained := do
  let observation ← checked
    (parseObservation specification current.checkpoint.observation value)
  refuse (current.checkpoint.consumed = false
      ∧ isDirectPreDispatchReadiness observation = false
      ∧ isDirectPreDispatchAbsence observation = false)
    "backend-substitution"
    "Backend reported productive execution without consumed dispatch authority"
  let containment ← establish current.checkpoint observation
  let retained ← commitRevised specification current
    { current.checkpoint with observation := some observation, containment := containment }
  refuse (observation.allocationState = .ambiguous ∨ observation.dispatchState = .ambiguous
      ∨ observation.processState = .ambiguous ∨ observation.output.disposition = .ambiguous)
    "containment-ambiguous"
    "Execution requires recovery because direct Backend facts are ambiguous"
  refuse (observation.allocationState = .unavailable
      ∨ (observation.processState = .notObserved ∧ containment = none))
    "containment-unavailable"
    "Execution requires recovery because direct Containment facts are unavailable"
  pure retained

/-! ## `#allocate` and `#requestContainment` -/

/-- What `#allocate` asks of the observation after the allocation. -/
def nonrunning (o : Observation) : Prop :=
  o.dispatchState = .notObserved ∧ o.processState = .notStarted ∧ o.terminal = none

instance (o : Observation) : Decidable (nonrunning o) := inferInstanceAs (Decidable (_ ∧ _))

/-- **`#allocate`.** -/
def allocateCell (current : Retained) : HostProgram Retained := do
  let handle ← call (.allocate current.checkpoint.allocationKey) allocationFailure
  checked (privateHandle handle)
  let value ← call (.observe .allocationObserve handle)
    (backendInterrupted "Execution allocation could not be directly observed")
  let observation ← checked (parseObservation specification none value)
  refuse (¬ nonrunning observation) "backend-substitution"
    "Execution allocation was not one exact nonrunning Cell"
  commitRevised specification current
    { current.checkpoint with
      handle := some handle, observation := some observation, containment := none }

/-- **`#requestContainment`.** -/
def requestContainment (current : Retained) : HostProgram Retained := do
  let requestedAt ← later (latestRuntimeTime current.checkpoint)
    "Execution Containment-request time"
  commitRevised specification current
    { current.checkpoint with containmentRequestedAt := some requestedAt }

/-! ## `#dispatch` -/

/-- The checkpoint that consumes dispatch authority. -/
def consuming (c : Checkpoint) (readiness : Observation) (consumedAt : String) : Checkpoint :=
  { c with dispatchAuthorityConsumedAt := some consumedAt, observation := some readiness }

/-- The checkpoint of an owner that refuses the dispatch. -/
def refusing (c : Checkpoint) (readiness : Observation) (consumedAt : String)
    (containment : Containment) : Checkpoint :=
  { c with
    containmentRequestedAt := some consumedAt, observation := some readiness
    containment := some containment }

/-- The owner commits one of the two successors. -/
def ownerDecision (current : Retained) (dispatchCheckpoint refusalCheckpoint : Checkpoint) :
    HostProgram PreDispatchDecision := do
  let decision ← call (.commitPreDispatch current dispatchCheckpoint refusalCheckpoint) fun _ =>
    raise "persistence" "Execution pre-dispatch owner boundary could not be committed"
  let consumed ← checked (parseRetained specification decision.retained)
  let reopened ← readCheckpoint specification
  refuse (reopened ≠ some consumed
      ∨ consumed.checkpoint ≠ (if decision.disposition = .dispatch then dispatchCheckpoint
        else refusalCheckpoint))
    "persistence-substitution" "Execution pre-dispatch owner committed another checkpoint"
  pure ⟨decision.disposition, consumed⟩

/-- Dispatch authority is consumed, or the owner refuses. -/
def consumeAuthority (current : Retained) (dispatchCheckpoint refusalCheckpoint : Checkpoint) :
    HostProgram PreDispatchDecision :=
  if host.commitPreDispatch = true then
    ownerDecision specification current dispatchCheckpoint refusalCheckpoint
  else do
    let consumed ← commitCheckpoint specification (some current) dispatchCheckpoint
    pure ⟨.dispatch, consumed⟩

/-- Enters the backend, unless the owner has refused. -/
def enterBackend (handle : String) (decision : PreDispatchDecision) : HostProgram Retained :=
  match decision.disposition with
  | .refused => pure decision.retained
  | .dispatch => do
    let observation ← call (.dispatch handle) (backendInterrupted
      "Execution dispatch result was lost; redispatch is permanently refused")
    recordObservation specification decision.retained observation

/-- The dispatch of a cell that is directly observed to be ready. -/
def dispatchReady (current : Retained) (handle : String) (readiness : Observation) :
    HostProgram Retained := do
  let consumedAt ← later
    (laterOf (latestRuntimeTime current.checkpoint) (some readiness.observedAt))
    "Execution dispatch-consumption time"
  let dispatchCheckpoint ← checked
    (checkpointSubject (consuming current.checkpoint readiness consumedAt))
  let containment ← checked (containmentSubject readiness consumedAt false)
  let refusalCheckpoint ← checked
    (checkpointSubject (refusing current.checkpoint readiness consumedAt containment))
  let decision ← consumeAuthority host specification current dispatchCheckpoint refusalCheckpoint
  enterBackend specification handle decision

/-- Records an observation that is no readiness, and stops. -/
def dispatchUnready (current : Retained) (readiness : Observation) : HostProgram Retained := do
  let _ ← recordObservation specification current readiness
  Asking.fail (raise "dispatch-readiness"
    "Execution dispatch requires one exact allocated, inert, directly observed Cell")

/-- **`#dispatch`.** -/
def dispatchCell (current : Retained) : HostProgram Retained := do
  let handle ← present current.checkpoint.handle "checkpoint-order"
    "Execution cannot dispatch before allocation"
  let value ← call (.observe .preDispatchObserve handle) (backendInterrupted
    "Execution could not be directly observed before dispatch consumption")
  let readiness ← checked
    (parseObservation specification current.checkpoint.observation value)
  if isDirectPreDispatchAbsence readiness = true then
    recordObservation specification current readiness
  else if isDirectPreDispatchReadiness readiness = false then
    dispatchUnready specification current readiness
  else dispatchReady host specification current handle readiness

/-! ## `#observeOrCancel` -/

/-- The observation, or the cancellation once containment is requested. -/
def observeCall (handle : String) (requested : Option String) : HostProgram Observation :=
  if requested = none then
    call (.observe .observe handle)
      (backendInterrupted "Execution observation or cancellation was interrupted")
  else
    call (.cancel handle)
      (backendInterrupted "Execution observation or cancellation was interrupted")

/-- **`#observeOrCancel`.** -/
def observeOrCancel (current : Retained) : HostProgram Retained := do
  let handle ← present current.checkpoint.handle "checkpoint-order"
    "Execution cannot be observed before allocation"
  let observation ← observeCall handle current.checkpoint.containmentRequestedAt
  recordObservation specification current observation

/-! ## Retrieval -/

def UnavailableReason.text : UnavailableReason → String
  | missing => "missing"
  | partly => "partial"
  | lost => "lost"

/-- The facts of a retrieval. -/
def RetrievalOutcome.facts (outcome : RetrievalOutcome) : JsonObject := [
  ("schema", .string "lifecycle.execution-retrieval-outcome.private.v1"),
  ("specificationDigest", .string outcome.specificationDigest),
  ("allocationIdentityDigest", .string outcome.allocationIdentityDigest),
  ("observationDigest", .string outcome.observationDigest),
  ("disposition", .string (match outcome.retrieval with
    | .complete _ => "complete"
    | .unavailable _ => "unavailable")),
  ("unavailableReason", match outcome.retrieval with
    | .complete _ => .null
    | .unavailable reason => .string reason.text)]

/-- The shape of a retrieved output. -/
def Retrieval.exact : Retrieval → Bool
  | .complete output => decide (output.carrierByteLength ≤ maxSafeInteger)
      && isSha256 output.manifestDigest
      && decide (output.specificationDigest = specification.digest)
  | .unavailable _ => true

/-- **`parseFoundationExecutionRetrievalOutcome`.** -/
def parseRetrieval (handle : String) (outcome : RetrievalOutcome) :
    Except FoundationError RetrievalOutcome := do
  let identity ← allocationIdentityDigest handle
  failIf (outcome.specificationDigest ≠ specification.digest
      ∨ outcome.allocationIdentityDigest ≠ identity
      ∨ isSha256 outcome.observationDigest = false
      ∨ outcome.retrieval.exact specification = false)
    (lifecycleError "lifecycle.execution.retrieval-outcome-invalid"
      "Execution retrieval outcome substituted its exact subject or disposition")
  let facts ← digestCanonical (.object outcome.facts)
  failIf (outcome.factsDigest ≠ facts)
    (lifecycleError "lifecycle.execution.retrieval-outcome-invalid"
      "Execution retrieval outcome failed its exact facts binding")
  pure outcome

/-- A retrieval and what is made of its failures. -/
def retrieve (operation : BackendOperation) (handle : String) (observation : Observation)
    (message : String) : HostProgram RetrievalOutcome := do
  let value ← call (.retrieve operation handle observation) (backendInterrupted message)
  Asking.lift ((parseRetrieval specification handle value).mapError fun _ =>
    raise "backend-interrupted" message)

/-- An output that cannot be retrieved. -/
def unavailableOutput (observation : Observation) (factsDigest : Sha256Digest) :
    Except FoundationError OutputFact :=
  outputSubject observation
    { validation := .unavailable, failureFactsDigest := some factsDigest }

/-! ## `#captureTerminalCompletion` -/

/-- What an owner throws. -/
def ownerObservationFailure : Thrown → Thrown
  | .foundation error changed diagnostics => .foundation error changed diagnostics
  | .other => raise "owner-terminal-completion"
      "Execution owner could not establish one exact terminal completion"

/-- The terminal completion of a retrieved output. -/
def captureRetrieved (current : Retained) (observation : Observation) :
    Retrieval → Sha256Digest → HostProgram Retained
  | .unavailable _, factsDigest => do
    let output ← checked (unavailableOutput observation factsDigest)
    commitRevised specification current { current.checkpoint with output := some output }
  | .complete retrieved, _ => do
    refuse (some retrieved.manifestDigest ≠ observation.output.manifestDigest
        ∨ some retrieved.carrierByteLength ≠ observation.output.carrierByteLength)
      "terminal-completion-unavailable"
      "Contained execution lacks one exact retrievable owner terminal completion"
    let result ← call
      (.observeTerminalCompletion observation.output.manifestDigest retrieved)
      ownerObservationFailure
    let capturedAt ← later (latestRuntimeTime current.checkpoint)
      "Execution terminal-completion time"
    let terminalCompletion ← checked
      (terminalCompletionSubject specification observation capturedAt result)
    commitRevised specification current
      { current.checkpoint with terminalCompletion := some terminalCompletion }

/-- **`#captureTerminalCompletion`.** -/
def captureTerminalCompletion (current : Retained) : HostProgram Retained := do
  let message :=
    "Execution terminal completion requires one contained complete Carrier before output finalization"
  let handle ← present current.checkpoint.handle "checkpoint-order" message
  let observation ← present current.checkpoint.observation "checkpoint-order" message
  refuse (host.observeTerminalCompletion = false ∨ current.checkpoint.containment = none
      ∨ current.checkpoint.terminalCompletion ≠ none ∨ current.checkpoint.output ≠ none
      ∨ observation.output.disposition ≠ .complete)
    "checkpoint-order" message
  let outcome ← retrieve specification .terminalRetrieval handle observation
    "Execution terminal-completion retrieval was interrupted"
  refuse (outcome.observationDigest ≠ observation.digest) "terminal-completion-unavailable"
    "Contained execution terminal retrieval substituted its exact observation"
  captureRetrieved specification current observation outcome.retrieval outcome.factsDigest

/-! ## `#validateOutput` -/

def ValidatedArtifact.toJson (artifact : ValidatedArtifact) : Json :=
  .object [("path", .string artifact.path), ("entryKind", .string artifact.entryKind),
    ("purpose", .string artifact.purpose), ("mediaType", .string artifact.mediaType),
    ("modeClass", .string artifact.modeClass),
    ("candidateRepositoryPath", ControlModel.textOrNull artifact.candidateRepositoryPath),
    ("candidateGitMode", ControlModel.textOrNull artifact.candidateGitMode),
    ("byteLength", nat artifact.byteLength), ("digest", .string artifact.digest)]

/-- `artifactInventoryDigest`. -/
def artifactInventoryDigest (output : ValidatedOutput) : Except FoundationError Sha256Digest :=
  digestCanonical (.array (output.artifacts.map ValidatedArtifact.toJson))

/-- An output fact and the output it is about. -/
structure ValidatedFact where
  output : Option ValidatedOutput
  fact : OutputFact

/-- The refusal of an owner. -/
def ownerRefusal : Thrown :=
  .foundation (lifecycleError "lifecycle.execution.output-validation.owner-semantic"
    "Execution Output failed its exact owner semantic contract") false []

/-- What an owner answers of an output. -/
def ownerAccepts : OwnerValidation → Except Thrown Unit
  | .valid => .ok ()
  | .invalid => .error ownerRefusal
  | .unrecognized => .error
    (raise "owner-output-validator" "Execution owner output validator returned an invalid result")

/-- Owner semantics of an output, where the host has them. -/
def validateOwned (output : ValidatedOutput) : HostProgram Unit :=
  if host.validateOwnerOutput = true then do
    let validation ← call (.validateOwnerOutput output) id
    Asking.lift (ownerAccepts validation)
  else pure ()

/-- The validation of a retrieved output. -/
def validateRetrieved (c : Checkpoint) (observation : Observation)
    (runnerDigest : Sha256Digest) : Retrieval → Sha256Digest → HostProgram ValidatedFact
  | .unavailable _, factsDigest => do
    let fact ← checked (unavailableOutput observation factsDigest)
    pure ⟨none, fact⟩
  | .complete retrieved, _ => do
    refuse (some retrieved.manifestDigest ≠ observation.output.manifestDigest
        ∨ some retrieved.carrierByteLength ≠ observation.output.carrierByteLength)
      "backend-substitution"
      "Retrieved Execution Output differs from its retained direct observation"
    let validated ← call (.validateExecutionOutput retrieved runnerDigest) id
    checked (parseStoreBinding validated.outputStoreBinding)
    validateOwned host validated.output
    let validatedAt ← later (latestRuntimeTime c) "Execution Output validation time"
    let inventory ← checked (artifactInventoryDigest validated.output)
    let fact ← checked (outputSubject observation {
      validation := .valid
      validatedAt := some validatedAt
      runnerDigest := some runnerDigest
      artifactInventoryDigest := some inventory
      outputStoreBinding := some validated.outputStoreBinding })
    pure ⟨some validated.output, fact⟩

/-- **`#validateOutput`.** -/
def validateOutput (current : Retained) (runnerDigest : Sha256Digest) :
    HostProgram ValidatedFact := do
  let message := "Execution Output cannot be retrieved before complete Containment facts"
  let handle ← present current.checkpoint.handle "checkpoint-order" message
  let observation ← present current.checkpoint.observation "checkpoint-order" message
  refuse (current.checkpoint.containment = none ∨ observation.output.disposition ≠ .complete
      ∨ (host.observeTerminalCompletion = true ∧ current.checkpoint.terminalCompletion = none))
    "checkpoint-order" message
  checked (digestText runnerDigest "Execution runner digest")
  let outcome ← retrieve specification .outputRetrieval handle observation
    "Contained Execution Output retrieval was interrupted"
  refuse (outcome.observationDigest ≠ observation.digest) "backend-interrupted"
    "Contained Execution Output retrieval was interrupted"
  validateRetrieved host current.checkpoint observation runnerDigest outcome.retrieval
    outcome.factsDigest

/-! ## `#finalizeOutput` -/

/-- `DETERMINISTIC_EXECUTION_OUTPUT_REFUSAL_CODES`. -/
def deterministicRefusalCodes : List String :=
  "lifecycle.schema.invalid" :: (["aggregate-count", "aggregate-limit", "binding", "byte-digest",
    "candidate-path", "candidate-writes", "carrier-bytes", "chunk", "duplicate-entry",
    "entry-binding", "entry-count", "entry-limit", "entry-order", "entry-reader", "extra-entry",
    "inventory-digest", "limit", "manifest-digest", "mode", "owner-semantic", "oversized-chunk",
    "path", "path-alias", "purpose", "required-root", "root", "root-limit"].map
      ("lifecycle.execution.output-validation." ++ ·))

/-- **`classifyFoundationExecutionOutputValidationFailure`**: what a final
failure is retained as; `none` is a failure to recover from. -/
def classifyFailure (code : String) : Option OutputValidation :=
  if code = "lifecycle.execution.output-validation.partial" then some .unavailable
  else if code ∈ deterministicRefusalCodes then some .invalid
  else none

/-- The digest of the diagnostics of an error, where it has any. -/
def diagnosticsDigest (diagnostics : List Json) : Except FoundationError (Option Sha256Digest) :=
  if diagnostics = [] then .ok none else (digestCanonical (.array diagnostics)).map some

/-- The digest of a final failure. -/
def failureFactsDigest (observation : Observation) (validation : OutputValidation)
    (code : String) (diagnostics : List Json) : Except FoundationError Sha256Digest := do
  let diagnosticsDigest ← diagnosticsDigest diagnostics
  digestCanonical (.object [
    ("schema", .string "lifecycle.execution-output-validation-failure.private.v1"),
    ("observationDigest", .string observation.digest),
    ("manifestDigest", ControlModel.textOrNull observation.output.manifestDigest),
    ("carrierByteLength", natOrNull observation.output.carrierByteLength),
    ("validation", .string validation.text), ("code", .string code),
    ("diagnosticsDigest", ControlModel.textOrNull diagnosticsDigest)])

/-- A final failure: what it is retained as and the digest of its facts. -/
structure FinalFailure where
  invalid : Bool
  factsDigest : Sha256Digest

/-- **`finalOutputValidationFailure`.** -/
def finalOutputValidationFailure (observation : Observation) :
    Thrown → Except FoundationError (Option FinalFailure)
  | .other => .ok none
  | .foundation error _ diagnostics =>
    match classifyFailure error.code with
    | none => .ok none
    | some validation =>
      (failureFactsDigest observation validation error.code diagnostics).map fun digest =>
        some ⟨decide (validation = .invalid), digest⟩

/-- Commits an output fact. -/
def commitOutput (current : Retained) (fact : OutputFact)
    (validatedOutput : Option ValidatedOutput) : HostProgram Advance := do
  let retained ← commitRevised specification current
    { current.checkpoint with output := some fact }
  pure ⟨retained, validatedOutput⟩

/-- Commits an output that is refused. -/
def commitInvalid (current : Retained) (observation : Observation)
    (runnerDigest : Sha256Digest) (failureFactsDigest : Option Sha256Digest) (label : String) :
    HostProgram Advance := do
  let validatedAt ← later (latestRuntimeTime current.checkpoint) label
  let fact ← checked (outputSubject observation {
    validation := .invalid
    validatedAt := some validatedAt
    runnerDigest := some runnerDigest
    failureFactsDigest := failureFactsDigest })
  commitOutput specification current fact none

/-- Commits a final failure, or throws the error on. -/
def commitFailure (current : Retained) (observation : Observation)
    (runnerDigest : Sha256Digest) (error : Thrown) : Option FinalFailure → HostProgram Advance
  | none => Asking.fail error
  | some failure =>
    if failure.invalid = true then
      commitInvalid specification current observation runnerDigest (some failure.factsDigest)
        "Execution Output validation-refusal time"
    else do
      let fact ← checked (unavailableOutput observation failure.factsDigest)
      commitOutput specification current fact none

/-- What follows a failed validation. -/
def finalizeFailed (current : Retained) (observation : Observation)
    (runnerDigest : Sha256Digest) (error : Thrown) : HostProgram Advance :=
  if error.code = some "lifecycle.execution.operation-host.backend-interrupted" then
    -- Once a terminal completion is retained its observation must not move.
    if current.checkpoint.terminalCompletion ≠ none then Asking.fail error
    else do
      let retained ← observeOrCancel specification current
      pure ⟨retained, none⟩
  else do
    let failure ← checked (finalOutputValidationFailure observation error)
    commitFailure specification current observation runnerDigest error failure

/-- Validates a complete output and commits what comes of it. -/
def finalizeComplete (current : Retained) (observation : Observation)
    (runnerDigest : Sha256Digest) : HostProgram Advance :=
  Asking.rescue (finalizeFailed specification current observation runnerDigest) do
    let validated ← validateOutput host specification current runnerDigest
    commitOutput specification current validated.fact validated.output

/-- The output of an observation that is not complete. -/
def incompleteStanding (observation : Observation) : Except FoundationError OutputStanding :=
  match observation.output.disposition with
  | .missing | .partly | .unavailable =>
    (digestCanonical (.object [
      ("schema", .string "lifecycle.execution-output-unavailability.private.v1"),
      ("observationDigest", .string observation.digest),
      ("disposition", .string observation.output.disposition.text)])).map fun digest =>
        { validation := .unavailable, failureFactsDigest := some digest }
  | .notProduced | .complete | .ambiguous => .ok { validation := .notApplicable }

/-- The failure facts of a terminal completion the owner found invalid. -/
def invalidCompletion (c : Checkpoint) : Option TerminalCompletion :=
  c.terminalCompletion.filter fun f => decide (f.disposition = .invalid)

/-- The output of a contained observation is disposed of. -/
def finalizeObserved (current : Retained) (observation : Observation)
    (runnerDigest : Sha256Digest) : HostProgram Advance :=
  if observation.output.disposition = .complete then
    match invalidCompletion current.checkpoint with
    | some completion =>
      commitInvalid specification current observation runnerDigest completion.failureFactsDigest
        "Execution terminal-completion refusal time"
    | none => finalizeComplete host specification current observation runnerDigest
  else do
    let standing ← checked (incompleteStanding observation)
    let fact ← checked (outputSubject observation standing)
    commitOutput specification current fact none

/-- **`#finalizeOutput`.** -/
def finalizeOutput (current : Retained) (runnerDigest : Sha256Digest) : HostProgram Advance := do
  let message := "Execution Output disposition requires direct Containment"
  let _ ← present current.checkpoint.containment "checkpoint-order" message
  let observation ← present current.checkpoint.observation "checkpoint-order" message
  refuse (observation.output.disposition = .ambiguous) "containment-ambiguous"
    "Ambiguous output cannot become a final execution disposition"
  finalizeObserved host specification current observation runnerDigest

/-! ## `#reopenValidatedOutput` -/

/-- What an owner answers of an output it reads again. -/
def ownerStillAccepts : OwnerValidation → Except Thrown Unit
  | .valid => .ok ()
  | .invalid | .unrecognized => .error (raise "output-substitution"
      "Recovered Execution Output no longer satisfies its owner semantics")

/-- Owner semantics of a recovered output, where the host has them. -/
def revalidateOwned (output : ValidatedOutput) : HostProgram Unit :=
  if host.validateOwnerOutput = true then do
    let validation ← call (.validateOwnerOutput output) id
    Asking.lift (ownerStillAccepts validation)
  else pure ()

/-- **`#reopenValidatedOutput`**, of a valid output. -/
def reopenValidatedOutput (current : Retained) (expected : OutputFact)
    (runnerDigest : Sha256Digest) : HostProgram Advance := do
  refuse (expected.runnerDigest ≠ some runnerDigest) "output-substitution"
    "Execution recovery selected another runner identity"
  let binding ← present expected.outputStoreBinding "checkpoint-substitution"
    "Validated Execution Output lacks its retained Store binding"
  let reopened ← call (.reopenExecutionOutput binding runnerDigest) id
  let inventory ← checked (artifactInventoryDigest reopened.output)
  refuse (some reopened.outputStoreBinding ≠ expected.outputStoreBinding
      ∨ some reopened.output.manifestDigest ≠ expected.manifestDigest
      ∨ some reopened.output.carrierByteLength ≠ expected.carrierByteLength
      ∨ some inventory ≠ expected.artifactInventoryDigest)
    "output-substitution"
    "Recovered Execution Output differs from its retained validation fact"
  revalidateOwned host reopened.output
  pure ⟨current, some reopened.output⟩

/-! ## `advance` -/

/-- A step that validates no output. -/
def retainedOnly (step : HostProgram Retained) : HostProgram Advance := do
  let retained ← step
  pure ⟨retained, none⟩

/-- The valid output a checkpoint retains. -/
def validOutput (c : Checkpoint) : Option OutputFact :=
  c.output.filter fun f => decide (f.disposition = .complete ∧ f.validation = .valid)

/-- Containment is to be requested before anything else. -/
def requestsContainment (requested : Bool) (c : Checkpoint) : Prop :=
  c.containmentRequestedAt = none ∧ c.containment = none
    ∧ (requested = true ∨ c.observation.map (·.processState) = some .terminal)

instance (requested : Bool) (c : Checkpoint) : Decidable (requestsContainment requested c) :=
  inferInstanceAs (Decidable (_ ∧ _))

/-- The step of an operation that is not contained. -/
def advanceUncontained (current : Retained) : HostProgram Retained :=
  if current.checkpoint.consumed = false ∧ current.checkpoint.containmentRequestedAt = none then
    dispatchCell host specification current
  else observeOrCancel specification current

/-- The step of a contained operation without an output fact. -/
def advanceContained (current : Retained) (runnerDigest : Sha256Digest) :
    HostProgram Advance :=
  if current.checkpoint.observation.map (·.output.disposition) = some .ambiguous then
    retainedOnly (observeOrCancel specification current)
  else if current.checkpoint.terminalCompletion = none ∧ host.observeTerminalCompletion = true
      ∧ current.checkpoint.observation.map (·.output.disposition) = some .complete then
    retainedOnly (captureTerminalCompletion host specification current)
  else finalizeOutput host specification current runnerDigest

/-- The step of an operation that is neither retired nor validated. -/
def advanceCell (current : Retained) (runnerDigest : Sha256Digest) (requested : Bool) :
    HostProgram Advance :=
  if current.checkpoint.handle = none then
    retainedOnly (allocateCell specification current)
  else if requestsContainment requested current.checkpoint then
    retainedOnly (requestContainment specification current)
  else if current.checkpoint.containment = none then
    retainedOnly (advanceUncontained host specification current)
  else if current.checkpoint.output = none then
    advanceContained host specification current runnerDigest
  else pure ⟨current, none⟩

/-- The step of an operation that is open. -/
def advanceFrom (runnerDigest : Sha256Digest) (requested : Bool) (current : Retained) :
    HostProgram Advance :=
  match validOutput current.checkpoint with
  | some expected => reopenValidatedOutput host current expected runnerDigest
  | none =>
    if current.checkpoint.retirement ≠ none then pure ⟨current, none⟩
    else advanceCell host specification current runnerDigest requested

/-- Opens an operation, or takes its next step. -/
def advanceRead (runnerDigest : Sha256Digest) (requested : Bool) :
    Option Retained → HostProgram Advance
  | none => retainedOnly (openOperation specification)
  | some current => advanceFrom host specification runnerDigest requested current

/-- **`advance`.** -/
def advance (runnerDigest : Sha256Digest) (requested : Bool) : HostProgram Advance := do
  checked (digestText runnerDigest "Execution runner digest")
  let current ← readCheckpoint specification
  advanceRead host specification runnerDigest requested current

/-! ## `retire` -/

/-- The owner's terminal completion is there exactly where it must be. -/
def completionExact (c : Checkpoint) (observation : Observation) (output : OutputFact) : Prop :=
  (host.observeTerminalCompletion = true ∧ observation.output.disposition = .complete →
      output.validation ≠ .unavailable → c.terminalCompletion ≠ none)
    ∧ (¬ (host.observeTerminalCompletion = true ∧ observation.output.disposition = .complete) →
      c.terminalCompletion = none)

instance (c : Checkpoint) (observation : Observation) (output : OutputFact) :
    Decidable (completionExact host c observation output) :=
  inferInstanceAs (Decidable (_ ∧ _))

/-- The retirement of a checkpoint, sealed. -/
def retirementSubject (c : Checkpoint) (observation : Observation) (containment : Containment)
    (output : OutputFact) (retiredAt : String) (retirementCheckpointDigest : Sha256Digest)
    (binding : ReclamationBinding) (obligation : ReclamationObligation) :
    Except FoundationError Retirement := do
  let subject : Retirement := {
    specificationDigest := specification.digest
    retiredAt := retiredAt
    finalObservationDigest := observation.digest
    containmentDigest := containment.digest
    terminalCompletionDigest := c.terminalCompletion.map (·.digest)
    outputDigest := output.digest
    dispatchAuthorityConsumed := c.consumed
    retirementCheckpointDigest := retirementCheckpointDigest
    reclamationBinding := binding
    reclamationObligation := obligation
    digest := "" }
  let digest ← selfDigest subject.record
  pure { subject with digest := digest }

/-- Retires a contained operation with a final output. -/
def retireContained (current : Retained) (handle : String) (observation : Observation)
    (containment : Containment) (output : OutputFact) : HostProgram Retained := do
  let c := current.checkpoint
  refuse (¬ completionExact host c observation output) "checkpoint-order"
    "Execution Retirement does not bind the exact owner terminal-completion requirement"
  let retiredAt ← later (latestRuntimeTime c) "Execution Retirement time"
  let coordinate ← checked (digestCanonical (.object (retirementCore specification.digest
    retiredAt observation.digest containment.digest (c.terminalCompletion.map (·.digest))
    output.digest c.consumed)))
  let binding ← call (.createReclamationBinding handle coordinate c.consumed) (backendInterrupted
    "Execution Reclamation binding could not be recovered from the selected Backend")
  Asking.lift ((parseReclamationBinding specification handle coordinate c.consumed
    binding).mapError fun _ =>
      raise "backend-substitution" "Execution Backend returned another Reclamation binding")
  let obligation ← checked (compileReclamationObligation specification handle coordinate binding)
  let retirement ← checked (retirementSubject specification c observation containment output
    retiredAt coordinate binding obligation)
  commitRevised specification current { c with retirement := some retirement }

/-- Retires an operation that is open. -/
def retireFrom (current : Retained) : HostProgram Retained :=
  if current.checkpoint.retirement ≠ none then pure current
  else do
    let message := "Execution cannot retire before Containment and final output disposition"
    let handle ← present current.checkpoint.handle "checkpoint-order" message
    let observation ← present current.checkpoint.observation "checkpoint-order" message
    let containment ← present current.checkpoint.containment "checkpoint-order" message
    let output ← present current.checkpoint.output "checkpoint-order" message
    retireContained host specification current handle observation containment output

/-- **`retire`.** -/
def retire : HostProgram Retained := do
  let current ← readCheckpoint specification
  let current ← present current "checkpoint-order" "Execution cannot retire before opening"
  retireFrom host specification current

/-! ## Operations -/

/-- **The public operations of a host.** -/
inductive HostOperation
  | read
  | opening
  | advance (runnerDigest : Sha256Digest) (requestContainment : Bool)
  | retire

/-- An operation whose result is dropped. -/
def completing {α : Type} (c : HostProgram α) : HostProgram Unit := do
  let _ ← c
  pure ()

/-- **The program of an operation.** -/
def HostOperation.program : HostOperation → HostProgram Unit
  | read => completing (readCheckpoint specification)
  | opening => completing (openOperation specification)
  | advance runnerDigest requested =>
    completing (Execution.advance host specification runnerDigest requested)
  | retire => completing (Execution.retire host specification)

end Execution
