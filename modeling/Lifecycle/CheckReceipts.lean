import Lifecycle.BoundaryReferences
import Lifecycle.DeliveryReplay
import Lifecycle.ExecutionObservations

/-!
# Check receipts

What a Check Receipt retains of a run Check (`control/check-receipt.ts`). The
observation of a run has some fifteen fields that depend on one another, and
`normalizedExecution` judges them by a chain of rules: each rule rules out some
combinations, and together they leave only observations that are true to their
disposition (`normalizedExecution_truthful`).
-/

open Fallible Json ControlModel IntegrationAssessment Timestamp
open WorkProduct (Matches mem_sortUniqueCodePoints)

namespace CheckReceipts

/-! ## Observations -/

/-- The value of a result fact. -/
inductive ResultValue
  | text (value : String)
  | number (value : JsNumber)
  | flag (value : Bool)
  | null
deriving DecidableEq

/-- `CheckReceiptResultFact`. -/
structure ResultFact where
  name : String
  value : ResultValue
deriving DecidableEq

/-- `CheckReceiptUpstreamConditionAuthorization`. -/
structure UpstreamCondition where
  conditionId : String
  conditionDigest : Sha256Digest
deriving DecidableEq

/-- `CheckReceiptOperationalFailure`. -/
structure OperationalFailure where
  stage : String
  code : String
  factsDigest : Sha256Digest
deriving DecidableEq

/-- Whether the output of a run was retrieved. -/
inductive OutputAvailability
  | retrieved
  | notProduced
  | unavailable
deriving DecidableEq

/-- `CheckReceiptExecutionOutput`. -/
structure ExecutionOutput where
  availability : OutputAvailability
  carrierByteLength : Option JsNumber
  carrierDigest : Option Sha256Digest
  manifestDigest : Option Sha256Digest
deriving DecidableEq

/-- What the parser of a Check made of its output. -/
inductive ParserDisposition
  | passed
  | failed
  | notRun
deriving DecidableEq

/-- `FoundationExecutionImageReferenceV1`. -/
structure ImageReference where
  imageId : String
  imageDigest : Sha256Digest
deriving DecidableEq

/-- `FoundationExecutionInputSetReferenceV1`. -/
structure InputSetReference where
  profileId : String
  digest : Sha256Digest
deriving DecidableEq

/-- A run in an allocated Cell. -/
structure AllocatedExecution where
  backendProfile : Execution.BackendReference
  image : ImageReference
  inputSet : InputSetReference
  specificationDigest : Sha256Digest
  runnerDigest : Sha256Digest
  observationDigest : Sha256Digest
  output : ExecutionOutput
  exitCode : Option JsNumber
  signal : Option String
  timedOut : Bool
  parserDisposition : ParserDisposition
deriving DecidableEq

/-- `CheckReceiptExecution`. -/
inductive CheckExecution
  | allocated (execution : AllocatedExecution)
  | notAllocated
deriving DecidableEq

inductive ContainmentClass
  | contained
  | notRequired
deriving DecidableEq

/-- `CheckReceiptContainment`. -/
structure CheckContainment where
  classification : ContainmentClass
  factsDigest : Option Sha256Digest
deriving DecidableEq

inductive RetirementClass
  | retired
  | notRequired
deriving DecidableEq

/-- `CheckReceiptRetirement`. -/
structure CheckRetirement where
  classification : RetirementClass
  factsDigest : Option Sha256Digest
deriving DecidableEq

inductive SubjectIntegrity
  | unchanged
  | changed
  | unverified
deriving DecidableEq

/-- The environment of a run. -/
structure CheckEnvironment where
  identityDigest : Sha256Digest
  runtimeEnforced : List String
  directorManaged : List String
deriving DecidableEq

/-- The identity of an implementation. -/
structure Implementation where
  id : String
  digest : Sha256Digest
deriving DecidableEq

/-- **`CheckReceiptObservation`**, without its raw materials, its parser and
its limitations. -/
structure CheckObservation where
  startedAt : Option String
  finishedAt : Option String
  environment : CheckEnvironment
  disposition : CheckDisposition
  resultFacts : List ResultFact
  reasonCode : Option String
  notRunAuthorization : Option UpstreamCondition
  operationalFailure : Option OperationalFailure
  execution : CheckExecution
  subjectIntegrity : SubjectIntegrity
  containment : CheckContainment
  retirement : CheckRetirement
  runner : Implementation
deriving DecidableEq

/-! ## Checked values -/

/-- `fail`. -/
def receiptFailure (code message : String) : FoundationError :=
  lifecycleError s!"lifecycle.control-check-receipt.{code}" message

/-- `digest`. -/
def digest (value : Option String) (label : String) : Except FoundationError Sha256Digest := do
  let failure := receiptFailure "digest" s!"{label} must be one lowercase SHA-256 digest"
  let value ← orFail value failure
  failIf (isSha256 value = false) failure
  pure value

/-- A character that `SINGLE_LINE_PATTERN` excludes. -/
def isLineControl (c : Char) : Bool :=
  Nat.ble c.toNat 31 || (Nat.ble 127 c.toNat && Nat.ble c.toNat 159)
    || [8232, 8233].contains c.toNat

/-- `singleLine`. -/
def singleLine (value label : String) : Except FoundationError String := do
  let length := (value.toList.flatMap utf16Units).length
  failIf (length < 1 ∨ 1024 < length ∨ 4096 < byteLength value
      ∨ value.toList.any isLineControl = true)
    (receiptFailure "text" s!"{label} must be one bounded printable line")
  pure value

/-- `exactStringSet`, with its default bound. -/
def exactStringSet (values : List String) (label : String) :
    Except FoundationError (List String) := do
  failIf (128 < values.length)
    (receiptFailure "bound" s!"{label} exceeds the bounded Check Receipt profile")
  let lines ← values.mapM fun value => singleLine value label
  pure (sortUniqueCodePoints lines)

/-- The value of a result fact as JSON. -/
def normalizedValue (name : String) : ResultValue → Except FoundationError Json
  | .text value => do
    let line ← singleLine value s!"Check result fact {name}"
    pure (.string line)
  | .number (.nonFinite _) =>
    .error (receiptFailure "result" s!"Check result fact {name} must be one finite JSON number")
  | .number value => .ok (.number value)
  | .flag value => .ok (.bool value)
  | .null => .ok .null

/-- One result fact, after the facts before it. -/
def normalizedFact (byName : OrderedMap String JsonObject) (fact : ResultFact) :
    Except FoundationError (OrderedMap String JsonObject) := do
  let name ← controlRecordKind fact.name "Check result fact name"
  let value ← normalizedValue name fact.value
  let normalized : JsonObject := [("name", .string name), ("value", value)]
  let conflict := receiptFailure "result" s!"Check result fact {name} has conflicting values"
  let prior := byName.get name
  let priorDigest ← (prior.map fun fact => digestCanonical (.object fact)).getD (.ok "")
  let normalizedDigest ← (prior.map fun _ => digestCanonical (.object normalized)).getD (.ok "")
  failIf (priorDigest ≠ normalizedDigest) conflict
  pure (byName.set name normalized)

/-- **`normalizedFacts`.** -/
def normalizedFacts (values : List ResultFact) : Except FoundationError (List JsonObject) := do
  failIf (256 < values.length)
    (receiptFailure "result" "Check result facts exceed the bounded Receipt profile")
  let byName ← replay normalizedFact OrderedMap.empty values
  pure (byName.values.insertionSort fun a b =>
    codePointLe (stringMember "name" a) (stringMember "name" b) = true)

/-- **`normalizedEnvironment`.** -/
def normalizedEnvironment (environment : CheckEnvironment) (requested : List String) :
    Except FoundationError JsonObject := do
  let runtimeEnforced ← exactStringSet environment.runtimeEnforced "Runtime-enforced conditions"
  let directorManaged ← exactStringSet environment.directorManaged "Director-managed conditions"
  failIf (∃ value ∈ runtimeEnforced, value ∈ directorManaged) (receiptFailure "environment"
    "One environment condition cannot be both runtime-enforced and Director-managed")
  failIf (∃ value ∈ requested, value ∉ runtimeEnforced ∧ value ∉ directorManaged)
    (receiptFailure "environment"
      "Every requested Work Boundary condition requires one observed custody class")
  let identityDigest ← digest (some environment.identityDigest) "Check environment identity digest"
  pure [("identityDigest", .string identityDigest),
    ("requested", .array (requested.map .string)),
    ("runtimeEnforced", .array (runtimeEnforced.map .string)),
    ("directorManaged", .array (directorManaged.map .string))]

/-! ## The observation of a run -/

/-- `startedAt` and `finishedAt`. -/
def normalizedTimes (observation : CheckObservation) :
    Except FoundationError (Option String × Option String) := do
  let startedAt ← observation.startedAt.mapM fun time => controlTimestamp time "Check start time"
  let finishedAt ← observation.finishedAt.mapM fun time => controlTimestamp time "Check finish time"
  failIf (startedAt.isSome ≠ finishedAt.isSome) (receiptFailure "time"
    "Check start and finish observations must be available together")
  failIf (dateLt (finishedAt.getD "") (startedAt.getD "") = true)
    (receiptFailure "time" "Check finish time cannot precede its start time")
  pure (startedAt, finishedAt)

/-- The authorization of a Check that did not run. -/
def normalizedAuthorization (baselinePostcondition : Bool) (observation : CheckObservation) :
    Except FoundationError (Option JsonObject) :=
  if baselinePostcondition = true ∧ observation.disposition = .notRun then do
    failIf (observation.notRunAuthorization ≠ none) (receiptFailure "disposition"
      "Caller cannot substitute the runtime-derived baseline postcondition authorization")
    pure (some [("kind", .string "baseline-postcondition")])
  else observation.notRunAuthorization.mapM fun authorization => do
    let conditionId ← controlIdentifier authorization.conditionId "Upstream condition identity"
    let conditionDigest ← digest (some authorization.conditionDigest) "Upstream condition digest"
    pure [("kind", .string "upstream-condition"), ("conditionId", .string conditionId),
      ("conditionDigest", .string conditionDigest)]

/-- The failure of a Check that was not carried out. -/
def normalizedFailure (failure : OperationalFailure) : Except FoundationError JsonObject := do
  let stage ← controlRecordKind failure.stage "Operational failure stage"
  let code ← controlRecordKind failure.code "Operational failure code"
  let factsDigest ← digest (some failure.factsDigest) "Operational failure facts digest"
  pure [("stage", .string stage), ("code", .string code), ("factsDigest", .string factsDigest)]

/-- A signed integer of 32 bits. -/
def isInt32 : JsNumber → Bool
  | .integer n => decide (-2147483648 ≤ n ∧ n ≤ 2147483647)
  | _ => false

/-- A byte length. -/
def isByteLength : JsNumber → Bool
  | .integer n => decide (0 ≤ n ∧ n ≤ maxSafeInteger)
  | _ => false

/-- The rules of an output. -/
def assertOutput (output : ExecutionOutput) : Except FoundationError Unit :=
  if output.availability = .retrieved then do
    failIf (output.carrierByteLength.any isByteLength = false) (receiptFailure "execution"
      "Retrieved Check output requires one nonnegative safe byte length")
    let _ ← digest output.carrierDigest "Check Output Carrier digest"
    let _ ← digest output.manifestDigest "Check Output Manifest digest"
    pure ()
  else failIf (output.carrierByteLength ≠ none ∨ output.carrierDigest ≠ none
      ∨ output.manifestDigest ≠ none) (receiptFailure "execution"
    "Unavailable Check output cannot carry placeholder byte or digest facts")

def OutputAvailability.text : OutputAvailability → String
  | .retrieved => "retrieved"
  | .notProduced => "not-produced"
  | .unavailable => "unavailable"

def ParserDisposition.text : ParserDisposition → String
  | .passed => "passed"
  | .failed => "failed"
  | .notRun => "not-run"

def numberOrNull : Option JsNumber → Json
  | some n => .number n
  | none => .null

/-- The record of a run in an allocated Cell. -/
def AllocatedExecution.record (execution : AllocatedExecution) : JsonObject := [
  ("allocation", .string "allocated"), ("backendProfile", execution.backendProfile.toJson),
  ("image", .object [("imageId", .string execution.image.imageId),
    ("imageDigest", .string execution.image.imageDigest)]),
  ("inputSet", .object [("profileId", .string execution.inputSet.profileId),
    ("digest", .string execution.inputSet.digest)]),
  ("specificationDigest", .string execution.specificationDigest),
  ("runnerDigest", .string execution.runnerDigest),
  ("observationDigest", .string execution.observationDigest),
  ("output", .object [("availability", .string execution.output.availability.text),
    ("carrierByteLength", numberOrNull execution.output.carrierByteLength),
    ("carrierDigest", textOrNull execution.output.carrierDigest),
    ("manifestDigest", textOrNull execution.output.manifestDigest)]),
  ("exitCode", numberOrNull execution.exitCode), ("signal", textOrNull execution.signal),
  ("timedOut", .bool execution.timedOut),
  ("parserDisposition", .string execution.parserDisposition.text)]

/-- What is read off the mechanism of a Check. -/
structure NormalizedMechanism where
  execution : JsonObject
  parserDisposition : ParserDisposition
  executionFailure : Bool

/-- The mechanism of a Check that was not allocated. -/
def unallocatedMechanism (started : Bool) (observation : CheckObservation) :
    Except FoundationError NormalizedMechanism := do
  failIf (started = true)
    (receiptFailure "execution" "An unallocated Check cannot report execution times")
  failIf (observation.containment.classification ≠ .notRequired
      ∨ observation.containment.factsDigest ≠ none
      ∨ observation.retirement.classification ≠ .notRequired
      ∨ observation.retirement.factsDigest ≠ none) (receiptFailure "execution"
    "An unallocated Check requires exact not-required Containment and Retirement")
  pure { execution := [("allocation", .string "not-allocated")]
         parserDisposition := .notRun, executionFailure := false }

/-- The mechanism of a Check that was allocated. -/
def allocatedMechanism (started : Bool) (observation : CheckObservation)
    (execution : AllocatedExecution) : Except FoundationError NormalizedMechanism := do
  failIf (execution.exitCode.any (fun code => !isInt32 code) = true) (receiptFailure "execution"
    "Check exit code is outside the bounded signed 32-bit range")
  failIf (execution.signal.any (fun signal => !Execution.isSignal signal) = true)
    (receiptFailure "execution" "Check signal is invalid")
  failIf (execution.signal ≠ none ∧ execution.exitCode ≠ none)
    (receiptFailure "execution" "A signaled Check cannot also report an exit code")
  let _ ← digest (some execution.backendProfile.profileDigest) "Check Backend Profile digest"
  let _ ← digest (some execution.backendProfile.implementationDigest)
    "Check Backend implementation digest"
  let _ ← controlIdentifier execution.image.imageId "Check Execution Image identity"
  let _ ← digest (some execution.image.imageDigest) "Check Execution Image digest"
  let _ ← digest (some execution.inputSet.digest) "Check Input Set digest"
  let _ ← digest (some execution.specificationDigest) "Check Execution Specification digest"
  let _ ← digest (some execution.runnerDigest) "Check cell-side runner digest"
  let _ ← digest (some execution.observationDigest) "Check terminal Observation digest"
  failIf (execution.runnerDigest ≠ observation.runner.digest) (receiptFailure "execution"
    "Check Execution runner digest differs from the retained runner implementation")
  assertOutput execution.output
  failIf (observation.containment.classification ≠ .contained
      ∨ observation.retirement.classification ≠ .retired) (receiptFailure "execution"
    "Every allocated Check requires completed Containment and Retirement")
  let _ ← digest observation.containment.factsDigest "Check Containment facts digest"
  let _ ← digest observation.retirement.factsDigest "Check Retirement facts digest"
  failIf (started = false
      ∧ (execution.exitCode ≠ none ∨ execution.signal ≠ none ∨ execution.timedOut = true))
    (receiptFailure "execution" "An unstarted Check cannot report process terminal facts")
  pure { execution := execution.record
         parserDisposition := execution.parserDisposition
         executionFailure := decide (execution.signal ≠ none) || execution.timedOut
           || decide (execution.parserDisposition = .failed)
           || (started && decide (execution.output.availability ≠ .retrieved)) }

/-- The mechanism of a Check. -/
def normalizedMechanism (started : Bool) (observation : CheckObservation) :
    Except FoundationError NormalizedMechanism :=
  match observation.execution with
  | .allocated execution => allocatedMechanism started observation execution
  | .notAllocated => unallocatedMechanism started observation

/-- `lifecycleFailure`. -/
def lifecycleFailure (started : Bool) (mechanism : NormalizedMechanism)
    (observation : CheckObservation) : Bool :=
  mechanism.executionFailure || decide (observation.subjectIntegrity = .changed)
    || (started && decide (observation.subjectIntegrity = .unverified))

/-- A disposition that says what the Check found. -/
def semantic (disposition : CheckDisposition) : Prop :=
  disposition = .pass ∨ disposition = .fail ∨ disposition = .indeterminate

instance (disposition : CheckDisposition) : Decidable (semantic disposition) :=
  inferInstanceAs (Decidable (_ ∨ _ ∨ _))

def dispositionText : CheckDisposition → String
  | .pass => "pass"
  | .fail => "fail"
  | .indeterminate => "indeterminate"
  | .notRun => "not-run"
  | .unsupported => "unsupported"
  | .operationalError => "operational-error"

/-- The facts a disposition is judged by, beside the observation. -/
structure JudgedFacts where
  started : Bool
  baselinePostcondition : Bool
  mechanism : NormalizedMechanism
  reasonCode : Option String
  notRunAuthorization : Option JsonObject
  operationalFailure : Option JsonObject

/-- The rules of a disposition that says what the Check found. -/
def assertSemantic (judged : JudgedFacts) (observation : CheckObservation)
    (facts : List JsonObject) (runtimeEnforced : List String) : Except FoundationError Unit := do
  failIf (semantic observation.disposition
      ∧ (observation.execution = .notAllocated ∨ judged.started = false
        ∨ judged.mechanism.parserDisposition ≠ .passed
        ∨ lifecycleFailure judged.started judged.mechanism observation = true ∨ facts.length < 1
        ∨ "descendant-containment" ∉ runtimeEnforced ∨ "protected-environment" ∉ runtimeEnforced))
    (receiptFailure "disposition" (dispositionText observation.disposition
      ++ " requires a contained exact-subject execution and normalized result facts"))
  failIf (semantic observation.disposition ∧ (judged.reasonCode ≠ none
      ∨ judged.notRunAuthorization.isSome = true ∨ judged.operationalFailure.isSome = true))
    (receiptFailure "disposition"
      "A semantic Check result cannot carry non-execution or operational-failure facts")

/-- The rules of a Check that did not run, and of its authorization. -/
def assertNotRun (judged : JudgedFacts) (observation : CheckObservation) :
    Except FoundationError Unit :=
  if observation.disposition = .notRun then do
    let unstarted := receiptFailure "disposition"
      "not-run requires one exact authorization and an unstarted mechanism"
    failIf (judged.started = true ∨ observation.execution ≠ .notAllocated
      ∨ judged.reasonCode = none) unstarted
    let authorization ← orFail judged.notRunAuthorization unstarted
    failIf (judged.operationalFailure.isSome = true) unstarted
    failIf (strictEq (member "kind" authorization) (some (.string "baseline-postcondition"))
        ≠ judged.baselinePostcondition) (receiptFailure "disposition"
      "Check not-run authorization differs from its exact phase and modality")
  else failIf (judged.notRunAuthorization.isSome = true)
    (receiptFailure "disposition" "Only not-run can retain a Check non-execution authorization")

/-- **The rules of a disposition.** -/
def assertDisposition (judged : JudgedFacts) (observation : CheckObservation)
    (facts : List JsonObject) (runtimeEnforced : List String) : Except FoundationError Unit := do
  assertSemantic judged observation facts runtimeEnforced
  failIf (lifecycleFailure judged.started judged.mechanism observation = true
      ∧ observation.disposition ≠ .operationalError) (receiptFailure "disposition"
    "A Check lifecycle, parser, output, or subject-integrity failure requires operational-error")
  failIf (judged.mechanism.parserDisposition = .notRun ∧ judged.started = true
      ∧ observation.disposition ≠ .operationalError) (receiptFailure "disposition"
    "A started Check without parser execution requires operational-error")
  assertNotRun judged observation
  failIf (judged.baselinePostcondition = true ∧ observation.disposition ≠ .notRun)
    (receiptFailure "disposition" "A baseline postcondition must retain not-run disposition")
  failIf (observation.disposition = .unsupported
      ∧ (judged.started = true ∨ judged.reasonCode = none
        ∨ judged.notRunAuthorization.isSome = true ∨ judged.operationalFailure.isSome = true))
    (receiptFailure "disposition"
      "unsupported requires an unstarted mechanism and exact unavailability facts")
  failIf (observation.disposition = .operationalError
      ∧ (judged.reasonCode = none ∨ judged.operationalFailure.isSome = false
        ∨ judged.notRunAuthorization.isSome = true)) (receiptFailure "disposition"
    "operational-error requires exact typed operational failure facts")
  failIf (observation.disposition ≠ .operationalError ∧ judged.operationalFailure.isSome = true)
    (receiptFailure "disposition" "Check failure facts differ from the selected disposition")
  failIf (judged.mechanism.parserDisposition = .failed
      ∧ observation.disposition ≠ .operationalError)
    (receiptFailure "disposition" "Parser failure requires operational-error disposition")

/-- What a receipt retains of a run. -/
structure NormalizedExecution where
  startedAt : Option String
  finishedAt : Option String
  disposition : CheckDisposition
  execution : JsonObject
  subjectIntegrity : SubjectIntegrity
  containment : JsonObject
  retirement : JsonObject
  reasonCode : Option String
  notRunAuthorization : Option JsonObject
  operationalFailure : Option JsonObject

def CheckContainment.record (containment : CheckContainment) : JsonObject :=
  if containment.classification = .contained then
    [("classification", .string "contained"), ("factsDigest", textOrNull containment.factsDigest)]
  else [("classification", .string "not-required"), ("factsDigest", .null)]

def CheckRetirement.record (retirement : CheckRetirement) : JsonObject :=
  if retirement.classification = .retired then
    [("classification", .string "retired"), ("factsDigest", textOrNull retirement.factsDigest)]
  else [("classification", .string "not-required"), ("factsDigest", .null)]

/-- The conditions an environment record says were enforced. -/
def runtimeEnforcedOf (environment : JsonObject) : Except FoundationError (List String) := do
  let values ← orFail (asArray (member "runtimeEnforced" environment))
    (receiptFailure "retained-fact" "Runtime-enforced conditions must be one exact retained array")
  values.mapM fun value => orFail (asString (some value))
    (receiptFailure "retained-fact" "Runtime-enforced condition must be one exact retained string")

/-- **`normalizedExecution`.** -/
def normalizedExecution (phase : CheckPhase) (modality : CheckModality)
    (observation : CheckObservation) (facts : List JsonObject) (environment : JsonObject) :
    Except FoundationError NormalizedExecution := do
  let times ← normalizedTimes observation
  let reasonCode ← observation.reasonCode.mapM fun code =>
    controlRecordKind code "Check result reason code"
  let baselinePostcondition := decide (phase = .baseline ∧ modality = .postcondition)
  let notRunAuthorization ← normalizedAuthorization baselinePostcondition observation
  let operationalFailure ← observation.operationalFailure.mapM normalizedFailure
  let started := times.1.isSome
  let mechanism ← normalizedMechanism started observation
  let runtimeEnforced ← runtimeEnforcedOf environment
  let judged : JudgedFacts := ⟨started, baselinePostcondition, mechanism, reasonCode,
    notRunAuthorization, operationalFailure⟩
  assertDisposition judged observation facts runtimeEnforced
  pure { startedAt := times.1, finishedAt := times.2
         disposition := observation.disposition
         execution := mechanism.execution
         subjectIntegrity := observation.subjectIntegrity
         containment := observation.containment.record
         retirement := observation.retirement.record
         reasonCode := reasonCode
         notRunAuthorization := notRunAuthorization
         operationalFailure := operationalFailure }

/-! ## Truthful receipts -/

/-- **The Check was carried out**: it started and finished in order in a Cell
that was contained and retired, with its parser passed, its output retrieved
and its subject unchanged. -/
structure CarriedOut (observation : CheckObservation) : Prop where
  times : ∃ startedAt finishedAt, observation.startedAt = some startedAt
    ∧ observation.finishedAt = some finishedAt ∧ dateLe startedAt finishedAt = true
  execution : ∃ execution, observation.execution = .allocated execution
    ∧ execution.parserDisposition = .passed ∧ execution.output.availability = .retrieved
    ∧ execution.signal = none ∧ execution.timedOut = false
  subject : observation.subjectIntegrity = .unchanged
  contained : observation.containment.classification = .contained
  retired : observation.retirement.classification = .retired

/-- The conditions under which a result counts are among those enforced. -/
def Enforced (environment : JsonObject) : Prop :=
  ∃ values, asArray (member "runtimeEnforced" environment) = some values
    ∧ .string "descendant-containment" ∈ values ∧ .string "protected-environment" ∈ values

/-- **The Check failed in a way that is no result of it.** -/
def Unsettled (observation : CheckObservation) : Prop :=
  (∃ execution, observation.execution = .allocated execution
      ∧ (execution.signal ≠ none ∨ execution.timedOut = true
        ∨ execution.parserDisposition = .failed
        ∨ observation.startedAt ≠ none ∧ (execution.output.availability ≠ .retrieved
          ∨ execution.parserDisposition = .notRun)))
    ∨ observation.subjectIntegrity = .changed
    ∨ observation.startedAt ≠ none ∧ observation.subjectIntegrity = .unverified

/-- The authorization a phase and a modality demand of a Check that did not run. -/
def demandedKind (phase : CheckPhase) (modality : CheckModality) : String :=
  if phase = .baseline ∧ modality = .postcondition then "baseline-postcondition"
  else "upstream-condition"

/-- **A receipt is true to its disposition.** -/
structure Truthful (phase : CheckPhase) (modality : CheckModality)
    (observation : CheckObservation) (facts : List JsonObject) (environment : JsonObject)
    (retained : NormalizedExecution) : Prop where
  disposition : retained.disposition = observation.disposition
  result : semantic retained.disposition →
    CarriedOut observation ∧ facts ≠ [] ∧ Enforced environment
  notRun : retained.disposition = .notRun → observation.execution = .notAllocated
    ∧ ∃ authorization, retained.notRunAuthorization = some authorization
      ∧ member "kind" authorization = some (.string (demandedKind phase modality))
  unsupported : retained.disposition = .unsupported → observation.startedAt = none
  unsettled : Unsettled observation → retained.disposition = .operationalError
  failure : retained.disposition = .operationalError →
    ∃ failure, observation.operationalFailure = some failure
      ∧ ∃ record, normalizedFailure failure = .ok record
        ∧ retained.operationalFailure = some record

variable {phase : CheckPhase} {modality : CheckModality} {observation : CheckObservation}
  {facts : List JsonObject} {environment : JsonObject} {retained : NormalizedExecution}
  {started : Bool} {mechanism : NormalizedMechanism} {judged : JudgedFacts}

theorem optional_eq_ok {α β : Type} {value : Option α} {f : α → Except FoundationError β}
    {result : Option β} (h : value.mapM f = .ok result) :
    value = none ∧ result = none ∨ ∃ a b, value = some a ∧ f a = .ok b ∧ result = some b := by
  cases value with
  | none =>
    obtain rfl := Except.ok.inj h
    exact .inl ⟨rfl, rfl⟩
  | some a =>
    rw [Option.mapM_some, ← bind_pure_comp, bind_eq_ok] at h
    obtain ⟨b, hb, hresult⟩ := h
    rw [pure_eq_ok] at hresult
    exact .inr ⟨a, b, rfl, hb, hresult.symm⟩

/-- The times are those observed, and in order. -/
theorem normalizedTimes_eq_ok {times : Option String × Option String}
    (h : normalizedTimes observation = .ok times) :
    times.1 = observation.startedAt ∧ ∀ startedAt, observation.startedAt = some startedAt →
      ∃ finishedAt, observation.finishedAt = some finishedAt
        ∧ dateLe startedAt finishedAt = true := by
  simp only [normalizedTimes, bind_eq_ok, failIf_eq_ok, exists_unit, pure_eq_ok] at h
  obtain ⟨first, hfirst, last, hlast, hboth, horder, rfl⟩ := h
  rcases optional_eq_ok hfirst with ⟨hnone, rfl⟩ | ⟨s, s', hs, htime, rfl⟩
  · refine ⟨hnone.symm, ?_⟩
    intro startedAt hstarted
    rw [hnone] at hstarted
    cases hstarted
  · obtain ⟨rfl, t, ht, -⟩ := controlTimestamp_eq_ok_iff.mp htime
    refine ⟨hs.symm, ?_⟩
    intro startedAt hstarted
    obtain rfl : s' = startedAt := Option.some.inj (hs.symm.trans hstarted)
    rcases optional_eq_ok hlast with ⟨-, rfl⟩ | ⟨f, f', hf, hfinish, rfl⟩
    · exact absurd (not_not.mp hboth) (by simp)
    · obtain ⟨rfl, u, hu, -⟩ := controlTimestamp_eq_ok_iff.mp hfinish
      refine ⟨f', hf, ?_⟩
      simp only [dateLt, Option.getD_some, ht, hu, decide_eq_true_eq, not_lt] at horder
      simp only [dateLe, ht, hu, decide_eq_true_eq]
      exact horder

/-- A Cell that was allocated was contained and retired, and what went wrong in
it is known. -/
theorem allocatedMechanism_eq_ok {execution : AllocatedExecution}
    (h : allocatedMechanism started observation execution = .ok mechanism) :
    observation.containment.classification = .contained
      ∧ observation.retirement.classification = .retired
      ∧ mechanism.parserDisposition = execution.parserDisposition
      ∧ (mechanism.executionFailure = true ↔ execution.signal ≠ none ∨ execution.timedOut = true
        ∨ execution.parserDisposition = .failed
        ∨ started = true ∧ execution.output.availability ≠ .retrieved) := by
  simp only [allocatedMechanism, bind_eq_ok, failIf_eq_ok, exists_unit, pure_eq_ok] at h
  obtain ⟨-, -, -, -, -, -, -, -, -, -, -, -, -, -, -, -, -, -, -, -, -, hcontained, -, -, -, -, -,
    rfl⟩ := h
  obtain ⟨hcontained, hretired⟩ := not_or.mp hcontained
  refine ⟨not_not.mp hcontained, not_not.mp hretired, rfl, ?_⟩
  simp only [Bool.or_eq_true, Bool.and_eq_true, decide_eq_true_eq, or_assoc]

/-- The authorization of a Check that did not run is the one it demands. -/
theorem normalizedAuthorization_eq_ok {baselinePostcondition : Bool}
    {authorization : Option JsonObject} {value : JsonObject}
    (h : normalizedAuthorization baselinePostcondition observation = .ok authorization)
    (hsome : authorization = some value) :
    member "kind" value
      = some (.string (if baselinePostcondition = true ∧ observation.disposition = .notRun
          then "baseline-postcondition" else "upstream-condition")) := by
  subst hsome
  unfold normalizedAuthorization at h
  split at h
  · next hcase =>
    simp only [bind_eq_ok, failIf_eq_ok, exists_unit, pure_eq_ok, Option.some.injEq] at h
    obtain ⟨-, rfl⟩ := h
    rw [if_pos hcase]
    rfl
  · next hcase =>
    rw [if_neg hcase]
    rcases optional_eq_ok h with ⟨-, hnone⟩ | ⟨a, b, -, hrecord, hsome⟩
    · cases hnone
    · obtain rfl := Option.some.inj hsome
      simp only [bind_eq_ok, pure_eq_ok] at hrecord
      obtain ⟨_, -, _, -, rfl⟩ := hrecord
      rfl

/-- **What the rules of a disposition leave.** -/
structure Judged (judged : JudgedFacts) (observation : CheckObservation)
    (facts : List JsonObject) (runtimeEnforced : List String) : Prop where
  result : semantic observation.disposition → observation.execution ≠ .notAllocated
    ∧ judged.started = true ∧ judged.mechanism.parserDisposition = .passed ∧ facts ≠ []
    ∧ "descendant-containment" ∈ runtimeEnforced ∧ "protected-environment" ∈ runtimeEnforced
  settled : observation.disposition ≠ .operationalError →
    lifecycleFailure judged.started judged.mechanism observation = false
      ∧ ¬ (judged.mechanism.parserDisposition = .notRun ∧ judged.started = true)
  notRun : observation.disposition = .notRun → observation.execution = .notAllocated
    ∧ ∃ authorization, judged.notRunAuthorization = some authorization
      ∧ strictEq (member "kind" authorization) (some (.string "baseline-postcondition"))
        = judged.baselinePostcondition
  unsupported : observation.disposition = .unsupported → judged.started = false
  failure : observation.disposition = .operationalError → judged.operationalFailure.isSome = true

theorem assertDisposition_judged {runtimeEnforced : List String}
    (h : assertDisposition judged observation facts runtimeEnforced = .ok ()) :
    Judged judged observation facts runtimeEnforced := by
  simp only [assertDisposition, assertSemantic, bind_eq_ok, failIf_eq_ok, exists_unit,
    not_and] at h
  obtain ⟨⟨hsemantic, -⟩, hlifecycle, hparser, hnotRun, -, hunsupported, hoperational, -, -⟩ := h
  refine ⟨?_, ?_, ?_, ?_, ?_⟩
  · intro hresult
    have hrules := hsemantic hresult
    simp only [not_or, not_not, Bool.not_eq_false, not_lt] at hrules
    obtain ⟨hallocated, hstarted, hpassed, -, hfacts, hdescendants, hprotected⟩ := hrules
    exact ⟨hallocated, hstarted, hpassed, List.ne_nil_of_length_pos hfacts, hdescendants,
      hprotected⟩
  · intro hne
    refine ⟨Bool.eq_false_iff.mpr fun hfailure => hlifecycle hfailure hne, ?_⟩
    rintro ⟨hskipped, hstarted⟩
    exact hparser hskipped hstarted hne
  · intro hdisposition
    simp only [assertNotRun, if_pos hdisposition, bind_eq_ok, failIf_eq_ok, orFail_eq_ok,
      exists_unit, not_or, not_not] at hnotRun
    obtain ⟨⟨-, hunallocated, -⟩, authorization, hauthorization, -, hkind⟩ := hnotRun
    exact ⟨hunallocated, authorization, hauthorization, hkind⟩
  · intro hdisposition
    exact Bool.eq_false_iff.mpr (not_or.mp (hunsupported hdisposition)).1
  · intro hdisposition
    have hrules := hoperational hdisposition
    simp only [not_or, Bool.not_eq_false] at hrules
    exact hrules.2.1

/-- **Whatever goes wrong is a failure of the lifecycle**, or leaves the parser
without a run. -/
theorem lifecycleFailure_of_unsettled (hstarted : started = observation.startedAt.isSome)
    (hmechanism : normalizedMechanism started observation = .ok mechanism)
    (h : Unsettled observation) :
    lifecycleFailure started mechanism observation = true
      ∨ mechanism.parserDisposition = .notRun ∧ started = true := by
  simp only [lifecycleFailure, Bool.or_eq_true, Bool.and_eq_true, decide_eq_true_eq]
  have hpresent : observation.startedAt ≠ none → started = true := by
    intro hne
    rw [hstarted]
    exact Option.isSome_iff_ne_none.mpr hne
  rcases h with ⟨execution, hexecution, hwrong⟩ | hchanged | ⟨hne, hunverified⟩
  · rw [normalizedMechanism, hexecution] at hmechanism
    obtain ⟨-, -, hparser, hfailure⟩ := allocatedMechanism_eq_ok hmechanism
    rw [hparser, hfailure]
    rcases hwrong with hsignal | htimeout | hfailed | ⟨hne, hretrieved | hskipped⟩
    · exact .inl (.inl (.inl (.inl hsignal)))
    · exact .inl (.inl (.inl (.inr (.inl htimeout))))
    · exact .inl (.inl (.inl (.inr (.inr (.inl hfailed)))))
    · exact .inl (.inl (.inl (.inr (.inr (.inr ⟨hpresent hne, hretrieved⟩)))))
    · exact .inr ⟨hskipped, hpresent hne⟩
  · exact .inl (.inl (.inr hchanged))
  · exact .inl (.inr ⟨hpresent hne, hunverified⟩)

/-- A Check with a result was carried out. -/
theorem carriedOut_of_judged (hstarted : started = observation.startedAt.isSome)
    (htimes : ∀ startedAt, observation.startedAt = some startedAt →
      ∃ finishedAt, observation.finishedAt = some finishedAt
        ∧ dateLe startedAt finishedAt = true)
    (hmechanism : normalizedMechanism started observation = .ok mechanism)
    (hallocated : observation.execution ≠ .notAllocated) (hbegun : started = true)
    (hpassed : mechanism.parserDisposition = .passed)
    (hsettled : lifecycleFailure started mechanism observation = false) :
    CarriedOut observation := by
  obtain ⟨startedAt, hsome⟩ := Option.isSome_iff_exists.mp (hstarted.symm.trans hbegun)
  obtain ⟨finishedAt, hfinished, horder⟩ := htimes startedAt hsome
  cases hexecution : observation.execution with
  | notAllocated => exact absurd hexecution hallocated
  | allocated execution =>
    rw [normalizedMechanism, hexecution] at hmechanism
    obtain ⟨hcontained, hretired, hparser, hfailure⟩ := allocatedMechanism_eq_ok hmechanism
    simp only [lifecycleFailure, Bool.or_eq_false_iff, Bool.and_eq_false_iff,
      decide_eq_false_iff_not] at hsettled
    obtain ⟨⟨hnoFailure, hunchanged⟩, hverified⟩ := hsettled
    have hnone := mt hfailure.mpr (Bool.eq_false_iff.mp hnoFailure)
    simp only [not_or, not_and, not_not] at hnone
    obtain ⟨hsignal, htimeout, -, hretrieved⟩ := hnone
    refine ⟨⟨startedAt, finishedAt, hsome, hfinished, horder⟩, ⟨execution, hexecution, ?_⟩, ?_,
      hcontained, hretired⟩
    · exact ⟨hparser ▸ hpassed, hretrieved hbegun, hsignal, Bool.eq_false_iff.mpr htimeout⟩
    · cases hsubject : observation.subjectIntegrity with
      | unchanged => rfl
      | changed => exact absurd hsubject hunchanged
      | unverified =>
        rcases hverified with hverified | hverified
        · rw [hbegun] at hverified
          cases hverified
        · exact absurd hsubject hverified

/-- The conditions read off an environment are in it. -/
theorem mem_of_runtimeEnforcedOf {values : List String} {value : String}
    (h : runtimeEnforcedOf environment = .ok values) (hmem : value ∈ values) :
    ∃ items, asArray (member "runtimeEnforced" environment) = some items
      ∧ .string value ∈ items := by
  simp only [runtimeEnforcedOf, bind_eq_ok, orFail_eq_ok] at h
  obtain ⟨items, hitems, hvalues⟩ := h
  have hmatches : Matches (fun item value => item = .string value) items values := by
    refine Matches.of_mapM hvalues fun item _ value hread => ?_
    rwa [orFail_eq_ok, asString_eq_some, Option.some.injEq] at hread
  obtain ⟨item, hitem, rfl⟩ := hmatches.source value hmem
  exact ⟨items, hitems, hitem⟩

/-- An accepted observation is judged truthfully. -/
theorem truthful_of_normalizedExecution
    (h : normalizedExecution phase modality observation facts environment = .ok retained) :
    Truthful phase modality observation facts environment retained := by
  simp only [normalizedExecution, bind_eq_ok, exists_unit, pure_eq_ok] at h
  obtain ⟨times, htimes, reasonCode, -, authorization, hauthorization, failure, hfailure,
    mechanism, hmechanism, values, hvalues, hdisposition, rfl⟩ := h
  obtain ⟨hstart, horder⟩ := normalizedTimes_eq_ok htimes
  have hstarted : times.1.isSome = observation.startedAt.isSome := congrArg Option.isSome hstart
  have hjudged := assertDisposition_judged hdisposition
  refine ⟨rfl, ?_, ?_, ?_, ?_, ?_⟩
  · intro hresult
    obtain ⟨hallocated, hbegun, hpassed, hfacts, hdescendants, hprotected⟩ :=
      hjudged.result hresult
    have hne : observation.disposition ≠ .operationalError := by
      rcases hresult with hpass | hfail | hindeterminate
      · simp [show observation.disposition = .pass from hpass]
      · simp [show observation.disposition = .fail from hfail]
      · simp [show observation.disposition = .indeterminate from hindeterminate]
    refine ⟨carriedOut_of_judged hstarted horder hmechanism hallocated hbegun hpassed
      (hjudged.settled hne).1, hfacts, ?_⟩
    obtain ⟨items, hitems, hfirst⟩ := mem_of_runtimeEnforcedOf hvalues hdescendants
    obtain ⟨items', hitems', hsecond⟩ := mem_of_runtimeEnforcedOf hvalues hprotected
    obtain rfl := Option.some.inj (hitems.symm.trans hitems')
    exact ⟨items, hitems, hfirst, hsecond⟩
  · intro hnotRun
    obtain ⟨hallocated, value, hvalue, hkind⟩ := hjudged.notRun hnotRun
    have hmember := normalizedAuthorization_eq_ok hauthorization hvalue
    refine ⟨hallocated, value, hvalue, ?_⟩
    rw [hmember, demandedKind]
    by_cases hcase : phase = .baseline ∧ modality = .postcondition
    · rw [if_pos hcase, if_pos ⟨decide_eq_true hcase, hnotRun⟩]
    · rw [if_neg hcase, if_neg fun hboth => hcase (of_decide_eq_true hboth.1)]
  · intro hunsupported
    have hnone : times.1.isSome = false := hjudged.unsupported hunsupported
    rw [hstarted] at hnone
    exact Option.not_isSome_iff_eq_none.mp (Bool.eq_false_iff.mp hnone)
  · intro hunsettled
    by_contra hne
    obtain ⟨hsettled, hparser⟩ := hjudged.settled hne
    rcases lifecycleFailure_of_unsettled hstarted hmechanism hunsettled with hwrong | hwrong
    · rw [hwrong] at hsettled
      cases hsettled
    · exact hparser hwrong
  · intro hoperational
    have hsome := hjudged.failure hoperational
    rcases optional_eq_ok hfailure with ⟨-, rfl⟩ | ⟨f, record, hf, hrecord, rfl⟩
    · cases hsome
    · exact ⟨f, hf, record, hrecord, rfl⟩

/-- Facts come from observed facts. -/
theorem resultFacts_ne_nil {values : List ResultFact} (h : normalizedFacts values = .ok facts)
    (hfacts : facts ≠ []) : values ≠ [] := by
  rintro rfl
  simp only [normalizedFacts, bind_eq_ok, failIf_eq_ok, exists_unit, replay_nil, pure_eq_ok] at h
  obtain ⟨-, byName, hbyName, rfl⟩ := h
  obtain rfl := Except.ok.inj hbyName
  exact hfacts rfl

/-- A condition that an environment record says was enforced was observed. -/
theorem mem_runtimeEnforced {observed : CheckEnvironment} {requested : List String}
    {values : List Json} {value : String}
    (h : normalizedEnvironment observed requested = .ok environment)
    (hvalues : asArray (member "runtimeEnforced" environment) = some values)
    (hmem : .string value ∈ values) : value ∈ observed.runtimeEnforced := by
  simp only [normalizedEnvironment, exactStringSet, bind_eq_ok, failIf_eq_ok, exists_unit,
    pure_eq_ok] at h
  obtain ⟨enforced, ⟨-, lines, hlines, rfl⟩, _, -, -, -, _, -, rfl⟩ := h
  obtain rfl := Option.some.inj hvalues
  obtain ⟨line, hline, heq⟩ := List.mem_map.mp hmem
  obtain rfl := Json.string.inj heq
  have hmatches : Matches (fun source line => line = source) observed.runtimeEnforced lines := by
    refine Matches.of_mapM hlines fun source _ line hread => ?_
    simp only [singleLine, bind_eq_ok, failIf_eq_ok, exists_unit, pure_eq_ok] at hread
    exact hread.2.symm
  obtain ⟨source, hsource, rfl⟩ := hmatches.source line (mem_sortUniqueCodePoints.mp hline)
  exact hsource

/-- **Receipts are truthful**: whatever observation is accepted, its receipt is
true to its disposition, and a receipt with a result has a fact that was
observed in a Cell in which descendants were contained and the environment
protected. -/
theorem normalizedExecution_truthful
    (h : normalizedExecution phase modality observation facts environment = .ok retained) :
    Truthful phase modality observation facts environment retained
      ∧ ∀ requested, normalizedFacts observation.resultFacts = .ok facts →
        normalizedEnvironment observation.environment requested = .ok environment →
        semantic retained.disposition → observation.resultFacts ≠ []
          ∧ "descendant-containment" ∈ observation.environment.runtimeEnforced
          ∧ "protected-environment" ∈ observation.environment.runtimeEnforced := by
  have htruthful := truthful_of_normalizedExecution h
  refine ⟨htruthful, ?_⟩
  intro requested hfacts henvironment hresult
  obtain ⟨-, hne, values, hvalues, hdescendants, hprotected⟩ := htruthful.result hresult
  exact ⟨resultFacts_ne_nil hfacts hne, mem_runtimeEnforced henvironment hvalues hdescendants,
    mem_runtimeEnforced henvironment hvalues hprotected⟩

/-- The digest of nothing in particular. -/
def sampleDigest : Sha256Digest := "sha256:" ++ String.ofList (List.replicate 64 '0')

/-- A run of a Check that passed. -/
def passedExecution : AllocatedExecution where
  backendProfile := ⟨"lifecycle.execution-backend-profile.docker-local.v1", sampleDigest,
    sampleDigest⟩
  image := ⟨"check-image", sampleDigest⟩
  inputSet := ⟨"lifecycle.execution-input-set.v2", sampleDigest⟩
  specificationDigest := sampleDigest
  runnerDigest := sampleDigest
  observationDigest := sampleDigest
  output := ⟨.retrieved, some (.integer 2), some sampleDigest, some sampleDigest⟩
  exitCode := some (.integer 0)
  signal := none
  timedOut := false
  parserDisposition := .passed

/-- Its observation. -/
def passedObservation : CheckObservation where
  startedAt := some "2026-01-01T00:00:00Z"
  finishedAt := some "2026-01-01T00:00:01Z"
  environment := ⟨sampleDigest, ["descendant-containment", "protected-environment"], []⟩
  disposition := .pass
  resultFacts := [⟨"exit-code", .number (.integer 0)⟩]
  reasonCode := none
  notRunAuthorization := none
  operationalFailure := none
  execution := .allocated passedExecution
  subjectIntegrity := .unchanged
  containment := ⟨.contained, some sampleDigest⟩
  retirement := ⟨.retired, some sampleDigest⟩
  runner := ⟨"check-runner", sampleDigest⟩

/-- The environment it reports. -/
def passedEnvironment : JsonObject :=
  [("runtimeEnforced", .array [.string "descendant-containment", .string "protected-environment"])]

/-- The facts it reports. -/
def passedFacts : List JsonObject :=
  [[("name", .string "exit-code"), ("value", .number (.integer 0))]]

/-- The receipt of a Check that passed says that it was carried out. -/
theorem passedObservation_carriedOut : CarriedOut passedObservation := by
  have hok : (normalizedExecution .final .diagnostic passedObservation passedFacts
      passedEnvironment).isOk = true := by
    decide +kernel
  cases hretained : normalizedExecution .final .diagnostic passedObservation passedFacts
      passedEnvironment with
  | error e =>
    rw [hretained] at hok
    cases hok
  | ok retained =>
    have htruthful := (normalizedExecution_truthful hretained).1
    have hpass : retained.disposition = .pass := htruthful.disposition
    exact (htruthful.result (.inl hpass)).1

end CheckReceipts
