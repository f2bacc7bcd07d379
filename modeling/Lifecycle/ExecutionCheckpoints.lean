import Lifecycle.ExecutionObservations
import Lifecycle.OutputStaging

/-!
# Execution checkpoints

The facts an execution operation retains between two of its steps
(`execution/operation-host.ts`), their digests, and the parser every
retained value goes through before the host reads it.

A fact is the record of its declared fields, and an owner's JSON value is
kept in its canonical copy, so that two facts with one canonical text are
equal. The source takes such a copy of everything it parses; it fails where
the self-digest of the same record fails. The Specification is one
`validateSpecification` has accepted: every operation and the parser start
with it and do nothing when it is refused.
-/

open Fallible Json Timestamp

/-! ## Equality of JSON values -/

namespace Json

mutual

/-- The same value, member by member. -/
def same : Json → Json → Bool
  | .null, .null => true
  | .bool a, .bool b => decide (a = b)
  | .number a, .number b => decide (a = b)
  | .string a, .string b => decide (a = b)
  | .array as, .array bs => sameItems as bs
  | .object as, .object bs => sameMembers as bs
  | _, _ => false

def sameItems : List Json → List Json → Bool
  | [], [] => true
  | a :: as, b :: bs => same a b && sameItems as bs
  | _, _ => false

def sameMembers : List (String × Json) → List (String × Json) → Bool
  | [], [] => true
  | (m, a) :: as, (n, b) :: bs => decide (m = n) && same a b && sameMembers as bs
  | _, _ => false

end

mutual

theorem same_iff : ∀ {a b : Json}, same a b = true ↔ a = b
  | .null, b => by cases b <;> simp [same]
  | .bool _, b => by cases b <;> simp [same]
  | .number _, b => by cases b <;> simp [same]
  | .string _, b => by cases b <;> simp [same]
  | .array as, b => by
    cases b with
    | array bs => simpa [same] using @sameItems_iff as bs
    | _ => simp [same]
  | .object as, b => by
    cases b with
    | object bs => simpa [same] using @sameMembers_iff as bs
    | _ => simp [same]

theorem sameItems_iff : ∀ {as bs : List Json}, sameItems as bs = true ↔ as = bs
  | [], bs => by cases bs <;> simp [sameItems]
  | a :: as, [] => by simp [sameItems]
  | a :: as, b :: bs => by
    rw [sameItems, Bool.and_eq_true, same_iff, sameItems_iff, List.cons.injEq]

theorem sameMembers_iff : ∀ {as bs : List (String × Json)},
    sameMembers as bs = true ↔ as = bs
  | [], bs => by cases bs <;> simp [sameMembers]
  | (m, a) :: as, [] => by simp [sameMembers]
  | (m, a) :: as, (n, b) :: bs => by
    rw [sameMembers, Bool.and_eq_true, Bool.and_eq_true, decide_eq_true_eq, same_iff,
      sameMembers_iff, List.cons.injEq, Prod.mk.injEq]

end

end Json

instance : DecidableEq Json := fun _ _ => decidable_of_iff _ Json.same_iff

namespace Execution

/-! ## Failures and shapes -/

/-- `fail`. -/
def hostFailure (code message : String) : FoundationError :=
  lifecycleError s!"lifecycle.execution.operation-host.{code}" message

/-- `lifecycle.execution.operation-host.checkpoint-substitution`. -/
def substitution (message : String) : FoundationError :=
  hostFailure "checkpoint-substitution" message

/-- **`CANONICAL_TIME_PATTERN`**, of a time that is its own ISO text. -/
def isCanonicalTime (value : String) : Bool :=
  decide (byteLength value = 24 ∧ (dateParse value).map toISOString = some value)

/-- `canonicalTime`. -/
def canonicalTime (value label : String) : Except FoundationError Unit :=
  failIf (isCanonicalTime value = false)
    (hostFailure "clock" s!"{label} is not one canonical UTC millisecond timestamp")

/-- `digest`. -/
def digestText (value : Sha256Digest) (label : String) : Except FoundationError Unit :=
  failIf (isSha256 value = false)
    (hostFailure "checkpoint-shape" s!"{label} is not one lowercase SHA-256 digest")

/-- A check of a value that may be missing. -/
def ifSome {α : Type} (value : Option α) (check : α → Except FoundationError Unit) :
    Except FoundationError Unit :=
  match value with
  | some a => check a
  | none => .ok ()

/-- A scheme and 64 hexadecimal digits. -/
def isPrivateCoordinate (scheme value : String) : Bool :=
  let bytes := utf8Bytes value
  let start := utf8Bytes scheme
  decide (bytes.length = start.length + 64) && decide (bytes.take start.length = start)
    && (bytes.drop start.length).all hexClass

/-- **`assertFoundationExecutionAllocationKey`.** -/
def assertAllocationKey (value : String) : Except FoundationError Unit :=
  failIf (isPrivateCoordinate "allocation-v1:" value = false)
    (lifecycleError "lifecycle.execution.allocation-key-invalid"
      "Execution allocation key is not one exact private 256-bit value")

/-- **`privateFoundationExecutionHandle`.** -/
def privateHandle (value : String) : Except FoundationError Unit :=
  failIf (isPrivateCoordinate "execution-handle-v1:" value = false)
    (lifecycleError "lifecycle.execution.handle-invalid"
      "Execution Backend produced an invalid opaque Handle")

/-! ## Facts -/

/-- **`FoundationExecutionContainmentFactV1`.** -/
structure Containment where
  observationDigest : Sha256Digest
  establishedAt : String
  backendEffectObserved : Bool
  digest : Sha256Digest
deriving DecidableEq

inductive CompletionDisposition
  | observed
  | invalid
deriving DecidableEq

/-- **`FoundationExecutionTerminalCompletionFactV1`.** -/
structure TerminalCompletion where
  specificationDigest : Sha256Digest
  observationDigest : Sha256Digest
  capturedAt : String
  disposition : CompletionDisposition
  value : Option JsonObject
  valueDigest : Option Sha256Digest
  failureFactsDigest : Option Sha256Digest
  digest : Sha256Digest
deriving DecidableEq

inductive OutputValidation
  | notApplicable
  | valid
  | invalid
  | unavailable
deriving DecidableEq

/-- **`FoundationExecutionOutputFactV1`.** -/
structure OutputFact where
  observationDigest : Sha256Digest
  disposition : OutputDisposition
  manifestDigest : Option Sha256Digest
  carrierByteLength : Option Nat
  validation : OutputValidation
  validatedAt : Option String
  runnerDigest : Option Sha256Digest
  artifactInventoryDigest : Option Sha256Digest
  outputStoreBinding : Option StoreBinding
  failureFactsDigest : Option Sha256Digest
  digest : Sha256Digest
deriving DecidableEq

/-- **`FoundationExecutionReclamationBindingV1`.** -/
structure ReclamationBinding where
  specificationDigest : Sha256Digest
  backendProfile : BackendReference
  handle : String
  allocationIdentityDigest : Sha256Digest
  retirementCheckpointDigest : Sha256Digest
  dispatchAuthorityConsumed : Bool
  backendBinding : JsonObject
  backendBindingDigest : Sha256Digest
  digest : Sha256Digest
deriving DecidableEq

/-- **`FoundationExecutionReclamationObligationV1`.** -/
structure ReclamationObligation where
  specificationDigest : Sha256Digest
  backendProfile : BackendReference
  allocationIdentityDigest : Sha256Digest
  retirementCheckpointDigest : Sha256Digest
  reclamationBindingDigest : Sha256Digest
  digest : Sha256Digest
deriving DecidableEq

/-- **`FoundationExecutionRetirementFactV1`.** -/
structure Retirement where
  specificationDigest : Sha256Digest
  retiredAt : String
  finalObservationDigest : Sha256Digest
  containmentDigest : Sha256Digest
  terminalCompletionDigest : Option Sha256Digest
  outputDigest : Sha256Digest
  dispatchAuthorityConsumed : Bool
  retirementCheckpointDigest : Sha256Digest
  reclamationBinding : ReclamationBinding
  reclamationObligation : ReclamationObligation
  digest : Sha256Digest
deriving DecidableEq

/-- **`FoundationExecutionOperationCheckpointV1`.** -/
structure Checkpoint where
  specificationDigest : Sha256Digest
  backendProfile : BackendReference
  openedAt : String
  allocationKey : String
  handle : Option String := none
  dispatchAuthorityConsumedAt : Option String := none
  containmentRequestedAt : Option String := none
  observation : Option Observation := none
  containment : Option Containment := none
  terminalCompletion : Option TerminalCompletion := none
  output : Option OutputFact := none
  retirement : Option Retirement := none
  digest : Sha256Digest
deriving DecidableEq

/-- `FoundationExecutionOperationCheckpointCoordinateV1`. -/
structure Coordinate where
  revision : Nat
  checkpointDigest : Sha256Digest
  persistenceDigest : Sha256Digest
deriving DecidableEq

/-- **`FoundationRetainedExecutionOperationCheckpointV1`.** -/
structure Retained where
  coordinate : Coordinate
  checkpoint : Checkpoint
deriving DecidableEq

/-- Dispatch authority is consumed. -/
def Checkpoint.consumed (c : Checkpoint) : Bool := c.dispatchAuthorityConsumedAt.isSome

/-! ## Their records -/

def CompletionDisposition.text : CompletionDisposition → String
  | observed => "observed"
  | invalid => "invalid"

def OutputValidation.text : OutputValidation → String
  | notApplicable => "not-applicable"
  | valid => "valid"
  | invalid => "invalid"
  | unavailable => "unavailable"

/-- An object that may be missing. -/
def objectOrNull : Option JsonObject → Json
  | some o => .object o
  | none => .null

def Containment.record (f : Containment) : JsonObject := [
  ("schema", .string "lifecycle.execution-containment.private.v1"),
  ("observationDigest", .string f.observationDigest),
  ("establishedAt", .string f.establishedAt),
  ("backendEffectObserved", .bool f.backendEffectObserved), ("digest", .string f.digest)]

def TerminalCompletion.record (f : TerminalCompletion) : JsonObject := [
  ("schema", .string "lifecycle.execution-terminal-completion.private.v1"),
  ("specificationDigest", .string f.specificationDigest),
  ("observationDigest", .string f.observationDigest), ("capturedAt", .string f.capturedAt),
  ("disposition", .string f.disposition.text), ("value", objectOrNull f.value),
  ("valueDigest", ControlModel.textOrNull f.valueDigest),
  ("failureFactsDigest", ControlModel.textOrNull f.failureFactsDigest),
  ("digest", .string f.digest)]

/-- An Output Store binding as the source's record. -/
def storeBindingJson (binding : StoreBinding) : Json :=
  .object [("schema", .string "lifecycle.execution-output-store-binding.v1"),
    ("descriptor", binding.descriptor.toJson), ("digest", .string binding.digest)]

def OutputFact.record (f : OutputFact) : JsonObject := [
  ("schema", .string "lifecycle.execution-output-fact.private.v1"),
  ("observationDigest", .string f.observationDigest),
  ("disposition", .string f.disposition.text),
  ("manifestDigest", ControlModel.textOrNull f.manifestDigest),
  ("carrierByteLength", natOrNull f.carrierByteLength),
  ("validation", .string f.validation.text),
  ("validatedAt", ControlModel.textOrNull f.validatedAt),
  ("runnerDigest", ControlModel.textOrNull f.runnerDigest),
  ("artifactInventoryDigest", ControlModel.textOrNull f.artifactInventoryDigest),
  ("outputStoreBinding", (f.outputStoreBinding.map storeBindingJson).getD .null),
  ("failureFactsDigest", ControlModel.textOrNull f.failureFactsDigest),
  ("digest", .string f.digest)]

def ReclamationBinding.record (f : ReclamationBinding) : JsonObject := [
  ("schema", .string "lifecycle.execution-reclamation-binding.private.v1"),
  ("specificationDigest", .string f.specificationDigest),
  ("backendProfile", f.backendProfile.toJson), ("handle", .string f.handle),
  ("allocationIdentityDigest", .string f.allocationIdentityDigest),
  ("retirementCheckpointDigest", .string f.retirementCheckpointDigest),
  ("dispatchAuthorityConsumed", .bool f.dispatchAuthorityConsumed),
  ("backendBinding", .object f.backendBinding),
  ("backendBindingDigest", .string f.backendBindingDigest), ("digest", .string f.digest)]

def ReclamationObligation.record (f : ReclamationObligation) : JsonObject := [
  ("schema", .string "lifecycle.execution-reclamation-obligation.private.v1"),
  ("specificationDigest", .string f.specificationDigest),
  ("backendProfile", f.backendProfile.toJson),
  ("allocationIdentityDigest", .string f.allocationIdentityDigest),
  ("retirementCheckpointDigest", .string f.retirementCheckpointDigest),
  ("reclamationBindingDigest", .string f.reclamationBindingDigest),
  ("digest", .string f.digest)]

def Retirement.record (f : Retirement) : JsonObject := [
  ("schema", .string "lifecycle.execution-retirement.private.v1"),
  ("specificationDigest", .string f.specificationDigest), ("retiredAt", .string f.retiredAt),
  ("finalObservationDigest", .string f.finalObservationDigest),
  ("containmentDigest", .string f.containmentDigest),
  ("terminalCompletionDigest", ControlModel.textOrNull f.terminalCompletionDigest),
  ("outputDigest", .string f.outputDigest),
  ("dispatchAuthorityConsumed", .bool f.dispatchAuthorityConsumed),
  ("retirementCheckpointDigest", .string f.retirementCheckpointDigest),
  ("reclamationBinding", .object f.reclamationBinding.record),
  ("reclamationObligation", .object f.reclamationObligation.record),
  ("digest", .string f.digest)]

/-- A fact that may be missing, as its record. -/
def factOrNull {F : Type} (record : F → JsonObject) (fact : Option F) : Json :=
  objectOrNull (fact.map record)

def Checkpoint.record (c : Checkpoint) : JsonObject := [
  ("schema", .string "lifecycle.execution-operation-checkpoint.private.v2"),
  ("specificationDigest", .string c.specificationDigest),
  ("backendProfile", c.backendProfile.toJson), ("openedAt", .string c.openedAt),
  ("allocationKey", .string c.allocationKey), ("handle", ControlModel.textOrNull c.handle),
  ("dispatchAuthorityConsumedAt", ControlModel.textOrNull c.dispatchAuthorityConsumedAt),
  ("containmentRequestedAt", ControlModel.textOrNull c.containmentRequestedAt),
  ("observation", factOrNull Observation.record c.observation),
  ("containment", factOrNull Containment.record c.containment),
  ("terminalCompletion", factOrNull TerminalCompletion.record c.terminalCompletion),
  ("output", factOrNull OutputFact.record c.output),
  ("retirement", factOrNull Retirement.record c.retirement), ("digest", .string c.digest)]

/-! ## Sealed facts

A fact is sealed with the digest of its other fields; what its `digest`
was before does not enter. -/

/-- **`checkpointSubject`.** -/
def checkpointSubject (c : Checkpoint) : Except FoundationError Checkpoint := do
  let digest ← selfDigest c.record
  pure { c with digest := digest }

/-- **`containmentSubject`.** -/
def containmentSubject (observation : Observation) (establishedAt : String)
    (backendEffectObserved : Bool) : Except FoundationError Containment := do
  let subject : Containment := ⟨observation.digest, establishedAt, backendEffectObserved, ""⟩
  let digest ← selfDigest subject.record
  pure { subject with digest := digest }

/-- What is retained of an output beside its observation. -/
structure OutputStanding where
  validation : OutputValidation
  validatedAt : Option String := none
  runnerDigest : Option Sha256Digest := none
  artifactInventoryDigest : Option Sha256Digest := none
  outputStoreBinding : Option StoreBinding := none
  failureFactsDigest : Option Sha256Digest := none
deriving DecidableEq

/-- **`outputSubject`.** -/
def outputSubject (observation : Observation) (standing : OutputStanding) :
    Except FoundationError OutputFact := do
  let subject : OutputFact := {
    observationDigest := observation.digest
    disposition := observation.output.disposition
    manifestDigest := observation.output.manifestDigest
    carrierByteLength := observation.output.carrierByteLength
    validation := standing.validation
    validatedAt := standing.validatedAt
    runnerDigest := standing.runnerDigest
    artifactInventoryDigest := standing.artifactInventoryDigest
    outputStoreBinding := standing.outputStoreBinding
    failureFactsDigest := standing.failureFactsDigest
    digest := "" }
  let digest ← selfDigest subject.record
  pure { subject with digest := digest }

/-- `MAXIMUM_TERMINAL_COMPLETION_BYTES`. -/
def maximumTerminalCompletionBytes : Nat := 64 * 1024

/-- **`FoundationExecutionOwnerTerminalCompletionResultV1`**, or any other
value an owner may answer. -/
inductive OwnerCompletion
  | observed (value : JsonObject)
  | invalid (failureFactsDigest : Sha256Digest)
  | unrecognized
deriving DecidableEq

/-- The refusal of an owner's answer. -/
def ownerCompletionFailure (message : String) : FoundationError :=
  hostFailure "owner-terminal-completion" message

/-- The answer of an owner as a fact that is not yet sealed. -/
def terminalCompletionFields (specification : Specification) (observation : Observation)
    (capturedAt : String) : OwnerCompletion → Except FoundationError TerminalCompletion
  | .observed value => do
    let bounded := "Execution owner terminal completion is not one bounded JSON object"
    let digest ← orFail (digestCanonical (.object value)).toOption (ownerCompletionFailure bounded)
    failIf (maximumTerminalCompletionBytes < textLength (.object value))
      (ownerCompletionFailure bounded)
    pure ⟨specification.digest, observation.digest, capturedAt, .observed, some value,
      some digest, none, ""⟩
  | .invalid failureFactsDigest => do
    failIf (isSha256 failureFactsDigest = false)
      (ownerCompletionFailure
        "Execution owner terminal completion is not one bounded JSON object")
    pure ⟨specification.digest, observation.digest, capturedAt, .invalid, none, none,
      some failureFactsDigest, ""⟩
  | .unrecognized => .error
    (ownerCompletionFailure "Execution owner terminal completion has no exact disposition")

/-- **`terminalCompletionSubject`.** -/
def terminalCompletionSubject (specification : Specification) (observation : Observation)
    (capturedAt : String) (result : OwnerCompletion) :
    Except FoundationError TerminalCompletion := do
  let subject ← terminalCompletionFields specification observation capturedAt result
  let digest ← selfDigest subject.record
  pure { subject with digest := digest }

/-! ## Reclamation -/

/-- `MAXIMUM_BACKEND_RECLAMATION_BINDING_BYTES`. -/
def maximumReclamationBindingBytes : Nat := 64 * 1024

/-- `lifecycle.execution.reclamation-binding-invalid`. -/
def bindingInvalid (message : String) : FoundationError :=
  lifecycleError "lifecycle.execution.reclamation-binding-invalid" message

/-- `lifecycle.execution.reclamation-obligation-invalid`. -/
def obligationInvalid (message : String) : FoundationError :=
  lifecycleError "lifecycle.execution.reclamation-obligation-invalid" message

/-- **`foundationExecutionAllocationIdentityDigest`.** -/
def allocationIdentityDigest (handle : String) : Except FoundationError Sha256Digest := do
  privateHandle handle
  digestCanonical (.object [
    ("schema", .string "lifecycle.execution-allocation-identity.private.v1"),
    ("handle", .string handle)])

/-- **`exactPrivateJsonObject`.** -/
def exactPrivateJsonObject (value : JsonObject) : Except FoundationError Unit := do
  failIf (canonicalJson (.object value)).toOption.isNone
    (bindingInvalid "Execution Reclamation backend binding is not canonical JSON")
  failIf (maximumReclamationBindingBytes < textLength (.object value))
    (bindingInvalid "Execution Reclamation backend binding exceeds its private byte bound")

/-- **`normalizedReclamationBinding`.** -/
def normalizedReclamationBinding (specification : Specification) (b : ReclamationBinding) :
    Except FoundationError Unit := do
  failIf (b.specificationDigest ≠ specification.digest
      ∨ b.backendProfile ≠ specification.backendProfile
      ∨ isSha256 b.retirementCheckpointDigest = false)
    (bindingInvalid
      "Execution Reclamation binding does not select its exact Specification and Retirement")
  privateHandle b.handle
  exactPrivateJsonObject b.backendBinding
  let backendBindingDigest ← digestCanonical (.object b.backendBinding)
  let identity ← allocationIdentityDigest b.handle
  let digest ← selfDigest b.record
  failIf (b.allocationIdentityDigest ≠ identity ∨ b.backendBindingDigest ≠ backendBindingDigest
      ∨ b.digest ≠ digest)
    (bindingInvalid "Execution Reclamation binding substituted its exact physical facts")

/-- **`parseExecutionReclamationBinding`**, of one selected allocation. -/
def parseReclamationBinding (specification : Specification) (handle : String)
    (retirementCheckpointDigest : Sha256Digest) (dispatchAuthorityConsumed : Bool)
    (b : ReclamationBinding) : Except FoundationError Unit := do
  normalizedReclamationBinding specification b
  failIf (b.handle ≠ handle ∨ b.retirementCheckpointDigest ≠ retirementCheckpointDigest
      ∨ b.dispatchAuthorityConsumed ≠ dispatchAuthorityConsumed)
    (bindingInvalid "Execution Reclamation binding selects another allocation or Retirement")

/-- **`compileExecutionReclamationObligation`.** -/
def compileReclamationObligation (specification : Specification) (handle : String)
    (retirementCheckpointDigest : Sha256Digest) (b : ReclamationBinding) :
    Except FoundationError ReclamationObligation := do
  failIf (isSha256 retirementCheckpointDigest = false)
    (obligationInvalid
      "Execution Reclamation Obligation requires one exact Retirement checkpoint digest")
  parseReclamationBinding specification handle retirementCheckpointDigest
    b.dispatchAuthorityConsumed b
  let identity ← allocationIdentityDigest handle
  let subject : ReclamationObligation := ⟨specification.digest, specification.backendProfile,
    identity, retirementCheckpointDigest, b.digest, ""⟩
  let digest ← selfDigest subject.record
  pure { subject with digest := digest }

/-- **`parseExecutionReclamationObligation`.** -/
def parseReclamationObligation (specification : Specification) (b : ReclamationBinding)
    (o : ReclamationObligation) : Except FoundationError Unit := do
  normalizedReclamationBinding specification b
  let digest ← selfDigest o.record
  failIf (o.specificationDigest ≠ specification.digest
      ∨ o.allocationIdentityDigest ≠ b.allocationIdentityDigest
      ∨ isSha256 o.retirementCheckpointDigest = false
      ∨ o.retirementCheckpointDigest ≠ b.retirementCheckpointDigest
      ∨ o.reclamationBindingDigest ≠ b.digest
      ∨ o.backendProfile ≠ specification.backendProfile ∨ o.digest ≠ digest)
    (obligationInvalid
      "Execution Reclamation Obligation does not bind its exact retired allocation")

/-- **`retirementCore`.** -/
def retirementCore (specificationDigest : Sha256Digest) (retiredAt : String)
    (finalObservationDigest containmentDigest : Sha256Digest)
    (terminalCompletionDigest : Option Sha256Digest) (outputDigest : Sha256Digest)
    (dispatchAuthorityConsumed : Bool) : JsonObject := [
  ("schema", .string "lifecycle.execution-retirement-core.private.v1"),
  ("specificationDigest", .string specificationDigest), ("retiredAt", .string retiredAt),
  ("finalObservationDigest", .string finalObservationDigest),
  ("containmentDigest", .string containmentDigest),
  ("terminalCompletionDigest", ControlModel.textOrNull terminalCompletionDigest),
  ("outputDigest", .string outputDigest),
  ("dispatchAuthorityConsumed", .bool dispatchAuthorityConsumed)]

/-! ## The parser -/

/-- **`parseContainment`.** -/
def parseContainment (c : Checkpoint) (f : Containment) : Except FoundationError Unit := do
  canonicalTime f.establishedAt "Execution Containment time"
  digestText f.observationDigest "Execution Containment observation"
  let digest ← selfDigest f.record
  let observation ← orFail c.observation
    (substitution "Execution Containment does not bind its exact direct observation")
  failIf (f.digest ≠ digest ∨ textBefore f.establishedAt c.openedAt = true
      ∨ textBefore f.establishedAt observation.observedAt = true
      ∨ (c.consumed = false ∧ c.containmentRequestedAt = none
        ∧ isDirectPreDispatchAbsence observation = false)
      ∨ f.observationDigest ≠ observation.digest)
    (substitution "Execution Containment does not bind its exact direct observation")
  failIf ((hostContainment observation c.consumed).established = false
      ∨ (hostContainment observation c.consumed).backendEffectObserved ≠ f.backendEffectObserved)
    (substitution "Execution Containment is not established by its bound direct facts")

/-- The value of a terminal completion and its digests belong together. -/
def TerminalCompletion.joined (f : TerminalCompletion) : Bool :=
  match f.disposition, f.value with
  | .observed, some value => decide (f.valueDigest ≠ none ∧ f.failureFactsDigest = none
      ∧ textLength (.object value) ≤ maximumTerminalCompletionBytes
      ∧ f.valueDigest = (digestCanonical (.object value)).toOption)
  | .invalid, none => decide (f.valueDigest = none ∧ f.failureFactsDigest ≠ none)
  | .observed, none | .invalid, some _ => false

/-- **`parseTerminalCompletion`.** -/
def parseTerminalCompletion (specification : Specification) (containment : Containment)
    (observation : Observation) (f : TerminalCompletion) : Except FoundationError Unit := do
  canonicalTime f.capturedAt "Execution terminal-completion time"
  digestText f.observationDigest "Execution terminal-completion observation"
  ifSome f.valueDigest (digestText · "Execution terminal-completion value")
  ifSome f.failureFactsDigest (digestText · "Execution terminal-completion failure facts")
  let digest ← selfDigest f.record
  failIf (f.joined = false ∨ f.specificationDigest ≠ specification.digest
      ∨ observation.output.disposition ≠ .complete
      ∨ f.observationDigest ≠ observation.digest
      ∨ f.observationDigest ≠ containment.observationDigest
      ∨ textBefore f.capturedAt containment.establishedAt = true ∨ f.digest ≠ digest)
    (substitution "Execution terminal completion does not bind its exact contained observation")

/-- A terminal completion is read only beside its containment. -/
def parseCompletionOf (specification : Specification) (c : Checkpoint) (f : TerminalCompletion) :
    Except FoundationError Unit := do
  let early := hostFailure "checkpoint-order"
    "Execution terminal completion cannot precede direct Containment"
  let containment ← orFail c.containment early
  let observation ← orFail c.observation early
  parseTerminalCompletion specification containment observation f

/-- `lifecycle.execution.output-store.binding`. -/
def storeBindingFailure (message : String) : FoundationError :=
  lifecycleError "lifecycle.execution.output-store.binding" message

/-- **`parseFoundationExecutionOutputStoreBindingV1`.** -/
def parseStoreBinding (binding : StoreBinding) : Except FoundationError Unit := do
  failIf (isSha256 binding.digest = false)
    (storeBindingFailure
      "Execution Output Store binding digest is not one lowercase SHA-256 digest")
  failIf (binding.descriptor.byteLength < 1
      ∨ maximumDescriptorBytes < binding.descriptor.byteLength)
    (storeBindingFailure
      "Execution Output descriptor blob bytes is outside its exact bounded integer domain")
  failIf (isSha256 binding.descriptor.digest = false)
    (storeBindingFailure
      "Execution Output descriptor blob digest is not one lowercase SHA-256 digest")
  let exact ← compileBinding binding.descriptor
  failIf (exact.digest ≠ binding.digest)
    (storeBindingFailure "Execution Output Store binding digest changed")

/-- What each validation of an output fact has and has not. -/
def OutputFact.joined (f : OutputFact) : Bool :=
  match f.validation with
  | .valid => decide (f.disposition = .complete ∧ f.manifestDigest ≠ none ∧ f.validatedAt ≠ none
      ∧ f.runnerDigest ≠ none ∧ f.artifactInventoryDigest ≠ none ∧ f.outputStoreBinding ≠ none
      ∧ f.failureFactsDigest = none)
  | .invalid => decide (f.disposition = .complete ∧ f.manifestDigest ≠ none
      ∧ f.validatedAt ≠ none ∧ f.runnerDigest ≠ none ∧ f.artifactInventoryDigest = none
      ∧ f.outputStoreBinding = none ∧ f.failureFactsDigest ≠ none)
  | .unavailable => decide ((f.disposition = .complete ∨ f.disposition = .missing
        ∨ f.disposition = .partly ∨ f.disposition = .unavailable)
      ∧ f.validatedAt = none ∧ f.runnerDigest = none ∧ f.artifactInventoryDigest = none
      ∧ f.outputStoreBinding = none ∧ f.failureFactsDigest ≠ none)
  | .notApplicable => decide (f.disposition = .notProduced ∧ f.validatedAt = none
      ∧ f.runnerDigest = none ∧ f.artifactInventoryDigest = none ∧ f.outputStoreBinding = none
      ∧ f.failureFactsDigest = none)

/-- **`parseOutput`.** -/
def parseOutput (c : Checkpoint) (f : OutputFact) : Except FoundationError Unit := do
  digestText f.observationDigest "Execution Output observation"
  ifSome f.manifestDigest (digestText · "Execution Output Manifest")
  ifSome f.runnerDigest (digestText · "Execution Output runner")
  ifSome f.artifactInventoryDigest (digestText · "Execution Output artifact inventory")
  ifSome f.failureFactsDigest (digestText · "Execution Output failure facts")
  ifSome f.outputStoreBinding fun binding =>
    (parseStoreBinding binding).mapError fun _ =>
      substitution "Execution Output Store binding is invalid"
  ifSome f.validatedAt (canonicalTime · "Execution Output validation time")
  let inexact := substitution "Execution Output fact does not bind one exact final disposition"
  let digest ← selfDigest f.record
  let containment ← orFail c.containment inexact
  let observation ← orFail c.observation inexact
  failIf (f.digest ≠ digest ∨ f.observationDigest ≠ containment.observationDigest
      ∨ f.observationDigest ≠ observation.digest
      ∨ f.disposition ≠ observation.output.disposition
      ∨ f.manifestDigest ≠ observation.output.manifestDigest
      ∨ f.carrierByteLength ≠ observation.output.carrierByteLength ∨ f.joined = false
      ∨ f.validatedAt.any (textBefore · containment.establishedAt) = true
      ∨ f.disposition = .ambiguous)
    inexact

/-- **`parseRetirement`.** -/
def parseRetirement (specification : Specification) (c : Checkpoint) (f : Retirement) :
    Except FoundationError Unit := do
  canonicalTime f.retiredAt "Execution Retirement time"
  digestText f.finalObservationDigest "Execution Retirement observation"
  digestText f.containmentDigest "Execution Retirement Containment"
  ifSome f.terminalCompletionDigest (digestText · "Execution Retirement terminal completion")
  digestText f.outputDigest "Execution Retirement Output"
  digestText f.retirementCheckpointDigest "Execution Retirement checkpoint"
  let inexact := substitution "Execution Retirement does not bind its exact terminal facts"
  let handle ← orFail c.handle inexact
  let observation ← orFail c.observation inexact
  let containment ← orFail c.containment inexact
  let output ← orFail c.output inexact
  let core ← digestCanonical (.object (retirementCore specification.digest f.retiredAt
    f.finalObservationDigest f.containmentDigest f.terminalCompletionDigest f.outputDigest
    f.dispatchAuthorityConsumed))
  let digest ← selfDigest f.record
  failIf (f.specificationDigest ≠ specification.digest
      ∨ f.dispatchAuthorityConsumed ≠ c.consumed
      ∨ f.finalObservationDigest ≠ observation.digest
      ∨ f.containmentDigest ≠ containment.digest ∨ f.outputDigest ≠ output.digest
      ∨ f.terminalCompletionDigest ≠ c.terminalCompletion.map (·.digest)
      ∨ textBefore f.retiredAt containment.establishedAt = true
      ∨ c.terminalCompletion.any (fun t => textBefore f.retiredAt t.capturedAt) = true
      ∨ output.validatedAt.any (textBefore f.retiredAt ·) = true
      ∨ f.retirementCheckpointDigest ≠ core ∨ f.digest ≠ digest)
    inexact
  parseReclamationBinding specification handle f.retirementCheckpointDigest
    f.dispatchAuthorityConsumed f.reclamationBinding
  parseReclamationObligation specification f.reclamationBinding f.reclamationObligation
  failIf (f.reclamationObligation.retirementCheckpointDigest ≠ f.retirementCheckpointDigest)
    (substitution "Execution Retirement selects another Reclamation handoff")

/-- The facts only an allocated operation has. -/
def Checkpoint.blank (c : Checkpoint) : Prop :=
  c.dispatchAuthorityConsumedAt = none ∧ c.containmentRequestedAt = none ∧ c.observation = none
    ∧ c.containment = none ∧ c.terminalCompletion = none ∧ c.output = none
    ∧ c.retirement = none

instance (c : Checkpoint) : Decidable c.blank := inferInstanceAs (Decidable (_ ∧ _))

/-- The head of a checkpoint: whose it is, and what it selects. -/
def parseHead (specification : Specification) (c : Checkpoint) :
    Except FoundationError Unit := do
  let digest ← selfDigest c.record
  failIf (c.specificationDigest ≠ specification.digest ∨ c.digest ≠ digest)
    (substitution "Execution checkpoint does not bind its exact Specification")
  failIf (c.backendProfile ≠ specification.backendProfile)
    (hostFailure "backend-substitution" "Execution checkpoint selects another Backend Profile")
  canonicalTime c.openedAt "Execution checkpoint opening time"
  assertAllocationKey c.allocationKey
  ifSome c.handle privateHandle
  ifSome c.dispatchAuthorityConsumedAt (canonicalTime · "Execution dispatch-consumption time")
  ifSome c.containmentRequestedAt (canonicalTime · "Execution containment-request time")
  failIf (c.dispatchAuthorityConsumedAt.any (textBefore · c.openedAt) = true
      ∨ c.containmentRequestedAt.any (textBefore · c.openedAt) = true
      ∨ (c.handle = none ∧ ¬ c.blank))
    (hostFailure "checkpoint-order" "Execution checkpoint facts are not causally ordered")

/-- The observation of a checkpoint, read by itself. -/
def parseObserved (specification : Specification) (c : Checkpoint) (o : Observation) :
    Except FoundationError Unit := do
  let _ ← parseObservation specification none o
  failIf (c.consumed = false ∧ isDirectPreDispatchReadiness o = false
      ∧ isDirectPreDispatchAbsence o = false)
    (hostFailure "checkpoint-order"
      "Execution checkpoint observes a Backend effect without consumed authority")

/-- **`parseFoundationExecutionOperationCheckpoint`.** -/
def parseCheckpoint (specification : Specification) (c : Checkpoint) :
    Except FoundationError Checkpoint := do
  parseHead specification c
  ifSome c.observation (parseObserved specification c)
  ifSome c.containment (parseContainment c)
  ifSome c.terminalCompletion (parseCompletionOf specification c)
  ifSome c.output (parseOutput c)
  ifSome c.retirement (parseRetirement specification c)
  pure c

/-- `parseCoordinate`. -/
def parseCoordinate (coordinate : Coordinate) : Except FoundationError Unit := do
  digestText coordinate.checkpointDigest "Execution checkpoint coordinate digest"
  digestText coordinate.persistenceDigest "Execution checkpoint persistence binding"
  failIf (coordinate.revision < 1 ∨ maxSafeInteger < coordinate.revision)
    (hostFailure "persistence-substitution"
      "Execution checkpoint coordinate has an invalid revision")

/-- **`parseRetained`.** -/
def parseRetained (specification : Specification) (retained : Retained) :
    Except FoundationError Retained := do
  let checkpoint ← parseCheckpoint specification retained.checkpoint
  parseCoordinate retained.coordinate
  failIf (retained.coordinate.checkpointDigest ≠ checkpoint.digest)
    (hostFailure "persistence-substitution"
      "Execution checkpoint coordinate selects another value")
  pure ⟨retained.coordinate, checkpoint⟩

/-! ## Times -/

/-- The later of a time and one that may be missing. -/
def laterOf (latest : String) : Option String → String
  | some time => if textBefore latest time then time else latest
  | none => latest

/-- **`latestRuntimeTime`.** -/
def latestRuntimeTime (c : Checkpoint) : String :=
  [some c.openedAt, c.dispatchAuthorityConsumedAt, c.containmentRequestedAt,
    c.observation.map (·.observedAt), c.containment.map (·.establishedAt),
    c.terminalCompletion.map (·.capturedAt), c.output.bind (·.validatedAt),
    c.retirement.map (·.retiredAt)].foldl laterOf c.openedAt

/-- `laterTime`, of a time the clock has answered. -/
def laterTime (value lowerBound label : String) : Except FoundationError String := do
  canonicalTime value label
  failIf (textBefore value lowerBound = true)
    (hostFailure "clock" s!"{label} regresses behind retained execution time")
  pure value

end Execution
