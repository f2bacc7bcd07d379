import Lifecycle.CanonicalText
import Lifecycle.RecordSchemas
import Lifecycle.TextOrder

/-!
# Execution observations

What a backend reports of one execution cell (`execution/contracts.ts`), what
the contract asks of a report by itself and beside the one before it, and
when the reported facts establish that the cell is contained.

A report is a record of its declared fields; `admitted` is what its schema
asks of their values. Of the specification the model has the parts a report
is compared with.
-/

open Fallible Json

namespace Execution

/-! ## Specifications -/

/-- `FoundationExecutionBackendProfileReferenceV1`. -/
structure BackendReference where
  profileId : String
  profileDigest : Sha256Digest
  implementationDigest : Sha256Digest
deriving DecidableEq

/-- The mode of a credential policy. -/
inductive CredentialMode
  | none
  | fixedRunner
  | isolatedBroker
deriving DecidableEq

/-- The provider control plane of a network policy. -/
inductive ControlPlane
  | none
  | fixedServiceChannel
deriving DecidableEq

/-- **`FoundationExecutionSpecificationV1`**, as far as it is read here. -/
structure Specification where
  digest : Sha256Digest
  backendProfile : BackendReference
  imageDigest : Sha256Digest
  inputSetDigest : Sha256Digest
  credentialMode : CredentialMode
  providerControlPlane : ControlPlane
deriving DecidableEq

/-! ## Reported states -/

inductive AllocationState
  | absent
  | allocated
  | ambiguous
  | unavailable
deriving DecidableEq

inductive DispatchState
  | notObserved
  | accepted
  | startObserved
  | terminalObserved
  | ambiguous
deriving DecidableEq

inductive ProcessState
  | notObserved
  | notStarted
  | running
  | terminal
  | ambiguous
deriving DecidableEq

inductive TerminalReason
  | exited
  | cancelled
  | timedOut
  | backendFailure
  | parentLoss
  | unknown
deriving DecidableEq

inductive RunnerDisposition
  | completed
  | refused
  | incomplete
  | unavailable
  | unknown
deriving DecidableEq

inductive RootProcess
  | notStarted
  | terminal
  | running
  | unverified
deriving DecidableEq

/-- Whether descendants, or writers, are there. -/
inductive Presence
  | absent
  | present
  | unverified
deriving DecidableEq

inductive CredentialState
  | revoked
  | active
  | unverified
  | notInjected
deriving DecidableEq

inductive ProviderChannel
  | unreachable
  | reachable
  | unverified
  | notGranted
deriving DecidableEq

inductive OutputMutation
  | impossible
  | possible
  | unverified
deriving DecidableEq

/-- The disposition of an output; `partly` is the source's `partial`. -/
inductive OutputDisposition
  | notProduced
  | complete
  | missing
  | partly
  | unavailable
  | ambiguous
deriving DecidableEq

def AllocationState.text : AllocationState → String
  | absent => "absent"
  | allocated => "allocated"
  | ambiguous => "ambiguous"
  | unavailable => "unavailable"

def DispatchState.text : DispatchState → String
  | notObserved => "not-observed"
  | accepted => "accepted"
  | startObserved => "start-observed"
  | terminalObserved => "terminal-observed"
  | ambiguous => "ambiguous"

def ProcessState.text : ProcessState → String
  | notObserved => "not-observed"
  | notStarted => "not-started"
  | running => "running"
  | terminal => "terminal"
  | ambiguous => "ambiguous"

def TerminalReason.text : TerminalReason → String
  | exited => "exited"
  | cancelled => "cancelled"
  | timedOut => "timed-out"
  | backendFailure => "backend-failure"
  | parentLoss => "parent-loss"
  | unknown => "unknown"

def RunnerDisposition.text : RunnerDisposition → String
  | completed => "completed"
  | refused => "refused"
  | incomplete => "incomplete"
  | unavailable => "unavailable"
  | unknown => "unknown"

def RootProcess.text : RootProcess → String
  | notStarted => "not-started"
  | terminal => "terminal"
  | running => "running"
  | unverified => "unverified"

def Presence.text : Presence → String
  | absent => "absent"
  | present => "present"
  | unverified => "unverified"

def CredentialState.text : CredentialState → String
  | revoked => "revoked"
  | active => "active"
  | unverified => "unverified"
  | notInjected => "not-injected"

def ProviderChannel.text : ProviderChannel → String
  | unreachable => "unreachable"
  | reachable => "reachable"
  | unverified => "unverified"
  | notGranted => "not-granted"

def OutputMutation.text : OutputMutation → String
  | impossible => "impossible"
  | possible => "possible"
  | unverified => "unverified"

def OutputDisposition.text : OutputDisposition → String
  | notProduced => "not-produced"
  | complete => "complete"
  | missing => "missing"
  | partly => "partial"
  | unavailable => "unavailable"
  | ambiguous => "ambiguous"

/-! ## Observations -/

/-- `FoundationExecutionTerminalObservationV1`. -/
structure TerminalObservation where
  finishedAt : String
  reason : TerminalReason
  exitCode : Option Int
  signal : Option String
  runnerDisposition : RunnerDisposition
deriving DecidableEq

/-- The containment facts of an observation. -/
structure ContainmentFacts where
  rootProcess : RootProcess
  descendants : Presence
  writers : Presence
  credentials : CredentialState
  providerChannel : ProviderChannel
  outputMutation : OutputMutation
deriving DecidableEq

/-- The output of an observation. -/
structure ObservedOutput where
  disposition : OutputDisposition
  manifestDigest : Option Sha256Digest
  carrierByteLength : Option Nat
deriving DecidableEq

/-- The resource facts of an observation. -/
structure ResourceFacts where
  wallTimeMilliseconds : Option Nat
  cpuTimeMilliseconds : Option Nat
  peakMemoryBytes : Option Nat
  storageBytes : Option Nat
  outputBytes : Option Nat
  eventCount : Option Nat
  limitBreaches : List String
deriving DecidableEq

/-- **`FoundationExecutionObservationV1`.** -/
structure Observation where
  specificationDigest : Sha256Digest
  backendProfile : BackendReference
  imageDigest : Sha256Digest
  inputSetDigest : Sha256Digest
  observationSequence : Nat
  observedAt : String
  allocationState : AllocationState
  dispatchState : DispatchState
  processState : ProcessState
  terminal : Option TerminalObservation
  containmentFacts : ContainmentFacts
  output : ObservedOutput
  resourceFacts : ResourceFacts
  digest : Sha256Digest
deriving DecidableEq

/-! ## Their records -/

/-- A number that may be missing. -/
def natOrNull : Option Nat → Json
  | some n => nat n
  | none => .null

def BackendReference.toJson (reference : BackendReference) : Json :=
  .object [("profileId", .string reference.profileId),
    ("profileDigest", .string reference.profileDigest),
    ("implementationDigest", .string reference.implementationDigest)]

def TerminalObservation.toJson (terminal : TerminalObservation) : Json :=
  .object [("finishedAt", .string terminal.finishedAt),
    ("reason", .string terminal.reason.text),
    ("exitCode", (terminal.exitCode.map fun code => Json.number (.integer code)).getD .null),
    ("signal", ControlModel.textOrNull terminal.signal),
    ("runnerDisposition", .string terminal.runnerDisposition.text)]

def ContainmentFacts.toJson (facts : ContainmentFacts) : Json :=
  .object [("rootProcess", .string facts.rootProcess.text),
    ("descendants", .string facts.descendants.text), ("writers", .string facts.writers.text),
    ("credentials", .string facts.credentials.text),
    ("providerChannel", .string facts.providerChannel.text),
    ("outputMutation", .string facts.outputMutation.text)]

def ObservedOutput.toJson (output : ObservedOutput) : Json :=
  .object [("disposition", .string output.disposition.text),
    ("manifestDigest", ControlModel.textOrNull output.manifestDigest),
    ("carrierByteLength", natOrNull output.carrierByteLength)]

def ResourceFacts.toJson (facts : ResourceFacts) : Json :=
  .object [("wallTimeMilliseconds", natOrNull facts.wallTimeMilliseconds),
    ("cpuTimeMilliseconds", natOrNull facts.cpuTimeMilliseconds),
    ("peakMemoryBytes", natOrNull facts.peakMemoryBytes),
    ("storageBytes", natOrNull facts.storageBytes),
    ("outputBytes", natOrNull facts.outputBytes), ("eventCount", natOrNull facts.eventCount),
    ("limitBreaches", .array (facts.limitBreaches.map Json.string))]

namespace Observation

/-- An observation as the source's record. -/
def record (o : Observation) : JsonObject := [
  ("schema", .string "lifecycle.execution-observation.v1"),
  ("specificationDigest", .string o.specificationDigest),
  ("backendProfile", o.backendProfile.toJson), ("imageDigest", .string o.imageDigest),
  ("inputSetDigest", .string o.inputSetDigest),
  ("observationSequence", nat o.observationSequence), ("observedAt", .string o.observedAt),
  ("allocationState", .string o.allocationState.text),
  ("dispatchState", .string o.dispatchState.text),
  ("processState", .string o.processState.text),
  ("terminal", (o.terminal.map (·.toJson)).getD .null),
  ("containmentFacts", o.containmentFacts.toJson), ("output", o.output.toJson),
  ("resourceFacts", o.resourceFacts.toJson), ("digest", .string o.digest)]

end Observation

/-! ## What the schema asks -/

/-- A safe integer that may be missing. -/
def safeOrNull (n : Option Nat) : Bool := n.all fun n => decide (n ≤ maxSafeInteger)

/-- The profiles a backend reference may select. -/
def backendProfileIds : List String := [
  "lifecycle.execution-backend-profile.docker-local.v1",
  "lifecycle.execution-backend-profile.fault-injection.v1"]

/-- The breaches an observation may report. -/
def limitBreachNames : List String := [
  "wall-time", "processes", "storage", "output-entries", "output-bytes",
  "output-entry-bytes", "events"]

/-- `^[A-Z0-9]+$` with at most 64 characters. -/
def isSignal (signal : String) : Bool :=
  let bytes := utf8Bytes signal
  decide (1 ≤ bytes.length ∧ bytes.length ≤ 64)
    && bytes.all fun b => (decide (65 ≤ b.toNat) && decide (b.toNat ≤ 90))
      || (decide (48 ≤ b.toNat) && decide (b.toNat ≤ 57))

def BackendReference.admitted (reference : BackendReference) : Bool :=
  decide (reference.profileId ∈ backendProfileIds) && isSha256 reference.profileDigest
    && isSha256 reference.implementationDigest

def TerminalObservation.admitted (terminal : TerminalObservation) : Bool :=
  Schema.isCanonicalTime terminal.finishedAt
    && (terminal.exitCode.all fun code => decide (-2147483648 ≤ code ∧ code ≤ 2147483647))
    && terminal.signal.all isSignal

/-- A complete output has its coordinates, one that does not exist has
none. -/
def ObservedOutput.admitted (output : ObservedOutput) : Bool :=
  output.manifestDigest.all isSha256 && safeOrNull output.carrierByteLength
    && match output.disposition with
      | .complete => output.manifestDigest.isSome && output.carrierByteLength.isSome
      | .notProduced | .missing | .unavailable =>
        output.manifestDigest.isNone && output.carrierByteLength.isNone
      | .partly | .ambiguous => true

def ResourceFacts.admitted (facts : ResourceFacts) : Bool :=
  safeOrNull facts.wallTimeMilliseconds && safeOrNull facts.cpuTimeMilliseconds
    && safeOrNull facts.peakMemoryBytes && safeOrNull facts.storageBytes
    && safeOrNull facts.outputBytes && safeOrNull facts.eventCount
    && (facts.limitBreaches.all fun name => decide (name ∈ limitBreachNames))
    && decide (facts.limitBreaches.length ≤ 16) && decide facts.limitBreaches.Nodup

/-- **What `urn:lifecycle:schema:execution-observation:v1` asks of the
values of an observation.** -/
def Observation.admitted (o : Observation) : Bool :=
  isSha256 o.specificationDigest && o.backendProfile.admitted && isSha256 o.imageDigest
    && isSha256 o.inputSetDigest
    && decide (1 ≤ o.observationSequence ∧ o.observationSequence ≤ maxSafeInteger)
    && Schema.isCanonicalTime o.observedAt
    && o.terminal.all (·.admitted) && o.output.admitted && o.resourceFacts.admitted
    && isSha256 o.digest
    && decide (o.terminal.isSome = true ↔ o.processState = .terminal)

/-! ## Consistency -/

/-- `left < right`, of two texts. -/
def textBefore (left right : String) : Bool := !codeUnitLe right left

/-- The root process a process state stands for. -/
def ProcessState.expectedRootProcess : ProcessState → RootProcess
  | notStarted => .notStarted
  | running => .running
  | terminal => .terminal
  | notObserved | ambiguous => .unverified

/-- What a process state asks of the allocation, the dispatch and the
output. -/
def processProblem (o : Observation) : Option String :=
  match o.processState with
  | .notStarted =>
    if o.allocationState ≠ .allocated
        ∨ (o.dispatchState ≠ .notObserved ∧ o.dispatchState ≠ .accepted) then
      some "Execution Observation not-started fact lacks one directly observed allocated pre-start boundary"
    else if o.output.disposition ≠ .notProduced then
      some "Execution Observation not-started process cannot report produced output"
    else none
  | .running =>
    if o.allocationState ≠ .allocated ∨ o.dispatchState ≠ .startObserved then
      some "Execution Observation running process lacks an allocated start observation"
    else none
  | .terminal =>
    if o.dispatchState ≠ .terminalObserved then
      some "Execution Observation terminal process lacks a terminal dispatch observation"
    else none
  | .ambiguous =>
    if o.allocationState ≠ .ambiguous ∧ o.dispatchState ≠ .ambiguous then
      some "Execution Observation ambiguous process lacks an ambiguous allocation or dispatch fact"
    else none
  | .notObserved => none

/-- What a specification excludes. -/
def exclusionProblem (o : Observation) : Option Specification → Option String
  | none => none
  | some s =>
    if s.credentialMode = .none ∧ o.containmentFacts.credentials ≠ .notInjected
        ∧ o.containmentFacts.credentials ≠ .unverified then
      some "Execution Observation reports injected credentials excluded by its Specification"
    else if s.providerControlPlane = .none ∧ o.containmentFacts.providerChannel ≠ .notGranted
        ∧ o.containmentFacts.providerChannel ≠ .unverified then
      some "Execution Observation reports a provider channel excluded by its Specification"
    else none

/-- **`executionObservationCombinationProblem`.** -/
def combinationProblem (o : Observation) (specification : Option Specification) :
    Option String :=
  if o.containmentFacts.rootProcess ≠ o.processState.expectedRootProcess then
    some "Execution Observation process and root-process facts disagree"
  else (processProblem o).or <|
    if o.terminal.any fun terminal => textBefore o.observedAt terminal.finishedAt then
      some "Execution Observation terminal time is later than its observation time"
    else if o.output.disposition = .complete
        ∧ (o.output.manifestDigest = none ∨ o.output.carrierByteLength = none) then
      some "Execution Observation complete output lacks one complete Manifest binding"
    else if ¬ (o.output.manifestDigest = none ↔ o.output.carrierByteLength = none) then
      some "Execution Observation output availability, Manifest digest, and byte length are not joined"
    else exclusionProblem o specification

/-- `invalid`. -/
def contractInvalid (message : String) : FoundationError :=
  lifecycleError "lifecycle.execution.contract-invalid" message

/-- The rank of a dispatch state; an ambiguous one has none. -/
def DispatchState.rank : DispatchState → Option Nat
  | notObserved => some 0
  | accepted => some 1
  | startObserved => some 2
  | terminalObserved => some 3
  | ambiguous => none

/-- The rank of a process state, where it has one. -/
def ProcessState.rank : ProcessState → Option Nat
  | notStarted => some 0
  | running => some 1
  | terminal => some 2
  | notObserved | ambiguous => none

/-- One rank falls behind another. -/
def regresses (previous observed : Option Nat) : Bool :=
  match previous, observed with
  | some p, some q => decide (q < p)
  | _, _ => false

/-- A direct safe fact is contradicted by an unsafe one. -/
def contradicts {F : Type} [DecidableEq F] (safe : List F) (unverified prior current : F) :
    Bool :=
  decide (prior ∈ safe) && decide (current ≠ prior ∧ current ≠ unverified)

/-- **The direct containment facts an observation contradicts**, in order. -/
def contradictedFacts (previous observed : ContainmentFacts) : List String :=
  (if contradicts [.absent] .unverified previous.descendants observed.descendants
    then ["descendants"] else [])
  ++ (if contradicts [.absent] .unverified previous.writers observed.writers
    then ["writers"] else [])
  ++ (if contradicts [.revoked, .notInjected] .unverified previous.credentials
      observed.credentials then ["credentials"] else [])
  ++ (if contradicts [.unreachable, .notGranted] .unverified previous.providerChannel
      observed.providerChannel then ["providerChannel"] else [])
  ++ (if contradicts [.impossible] .unverified previous.outputMutation observed.outputMutation
    then ["outputMutation"] else [])

/-- The first contradicted fact as an error. -/
def assertUncontradicted (previous o : Observation) : Except FoundationError Unit :=
  match (contradictedFacts previous.containmentFacts o.containmentFacts).head? with
  | some field =>
    .error (contractInvalid
      s!"Execution Observation contradicts an already direct {field} Containment fact")
  | none => .ok ()

/-- **`assertExecutionObservationConsistency`**, beside the observation
before. -/
def assertSuccessor (o previous : Observation) (specification : Specification) :
    Except FoundationError Unit := do
  failIf (combinationProblem previous (some specification) ≠ none)
    (contractInvalid s!"Previous {(combinationProblem previous (some specification)).getD default}")
  failIf (textBefore o.observedAt previous.observedAt = true)
    (contractInvalid "Execution Observation time regresses")
  failIf (previous.dispatchState.rank ≠ none ∧ o.dispatchState = .ambiguous)
    (contractInvalid
      "Execution Observation loses an already observed dispatch milestone to ambiguity")
  failIf (regresses previous.dispatchState.rank o.dispatchState.rank = true)
    (contractInvalid "Execution Observation dispatch standing regresses")
  failIf (regresses previous.processState.rank o.processState.rank = true)
    (contractInvalid "Execution Observation process standing regresses")
  failIf (previous.terminal ≠ none ∧ o.terminal = none)
    (contractInvalid "Execution Observation loses an already observed terminal fact")
  failIf (previous.terminal ≠ none ∧ o.terminal ≠ previous.terminal)
    (contractInvalid "Execution Observation changes an already observed terminal fact")
  failIf (previous.output.disposition = .complete ∧ o.output.disposition = .complete
      ∧ (o.output.manifestDigest ≠ previous.output.manifestDigest
        ∨ o.output.carrierByteLength ≠ previous.output.carrierByteLength))
    (contractInvalid "Execution Observation changes an already complete output binding")
  failIf (previous.output.disposition = .complete ∧ o.output.disposition ≠ .complete
      ∧ o.output.disposition ≠ .unavailable ∧ o.output.disposition ≠ .ambiguous)
    (contractInvalid
      "Execution Observation complete output regresses to an incompatible disposition")
  onlyIf (previous.dispatchState ≠ .notObserved) (assertUncontradicted previous o)

/-- An observation binds a specification. -/
def Observation.Binds (o : Observation) (specification : Specification) : Prop :=
  o.specificationDigest = specification.digest
    ∧ o.backendProfile = specification.backendProfile
    ∧ o.imageDigest = specification.imageDigest
    ∧ o.inputSetDigest = specification.inputSetDigest

instance (o : Observation) (specification : Specification) :
    Decidable (o.Binds specification) :=
  inferInstanceAs (Decidable (_ ∧ _))

/-- What is asked of an observation beside the one before it. -/
def assertFollows (o : Observation) (specification : Specification) :
    Option Observation → Except FoundationError Unit
  | none => .ok ()
  | some previous => do
    assertSuccessor o previous specification
    failIf (¬ previous.Binds specification)
      (contractInvalid
        "Previous Execution Observation does not bind the same exact execution subject")
    failIf (o.observationSequence ≤ previous.observationSequence)
      (contractInvalid "Execution Observation sequence is not monotonically increasing")

/-- **`parseFoundationExecutionObservation`.** -/
def parseObservation (specification : Specification) (previous : Option Observation)
    (o : Observation) : Except FoundationError Observation := do
  failIf (o.admitted = false)
    (lifecycleError "lifecycle.schema.invalid"
      "Execution Observation fails urn:lifecycle:schema:execution-observation:v1")
  let digest ← selfDigest o.record
  failIf (o.digest ≠ digest)
    (contractInvalid
      "Execution Observation self-digest does not match its exact canonical value")
  failIf (¬ o.Binds specification)
    (contractInvalid
      "Execution Observation does not bind its exact Specification, Backend Profile, Image, and Input Set")
  failIf (combinationProblem o (some specification) ≠ none)
    (contractInvalid ((combinationProblem o (some specification)).getD default))
  assertFollows o specification previous
  pure o

/-! ## Containment -/

/-- Nothing is dispatched and the allocation is gone. -/
def Observation.absentBeforeDispatch (o : Observation) : Bool :=
  decide (o.allocationState = .absent ∧ o.dispatchState = .notObserved
    ∧ o.processState = .notObserved ∧ o.terminal = none
    ∧ o.containmentFacts.rootProcess = .unverified ∧ o.output.disposition = .notProduced
    ∧ o.output.manifestDigest = none ∧ o.output.carrierByteLength = none)

/-- The process is over, or never started. -/
def Observation.processContained (o : Observation) (dispatchAuthorityConsumed : Bool) : Bool :=
  if !dispatchAuthorityConsumed && o.absentBeforeDispatch then true
  else if o.processState = .terminal then
    dispatchAuthorityConsumed && decide (o.terminal ≠ none
      ∧ o.dispatchState = .terminalObserved ∧ o.containmentFacts.rootProcess = .terminal)
  else decide (o.processState = .notStarted ∧ o.terminal = none
    ∧ o.containmentFacts.rootProcess = .notStarted
    ∧ (o.dispatchState = .notObserved
      ∨ dispatchAuthorityConsumed = true ∧ o.dispatchState = .accepted))

/-- No process, writer, credential, channel or output of the cell is live. -/
def ContainmentFacts.inert (facts : ContainmentFacts) : Bool :=
  decide (facts.descendants = .absent ∧ facts.writers = .absent
    ∧ (facts.credentials = .revoked ∨ facts.credentials = .notInjected)
    ∧ (facts.providerChannel = .unreachable ∨ facts.providerChannel = .notGranted)
    ∧ facts.outputMutation = .impossible)

/-- **`executionObservationEstablishesContainment`.** -/
def establishesContainment (o : Observation) (dispatchAuthorityConsumed : Bool) : Bool :=
  if combinationProblem o none ≠ none ∨ o.allocationState = .ambiguous
      ∨ o.allocationState = .unavailable ∨ o.dispatchState = .ambiguous
      ∨ o.processState = .ambiguous
      ∨ (dispatchAuthorityConsumed = true ∧ o.allocationState = .absent) then false
  else o.processContained dispatchAuthorityConsumed && o.containmentFacts.inert

/-- **`isDirectPreDispatchAbsence`.** -/
def isDirectPreDispatchAbsence (o : Observation) : Bool :=
  decide (o.allocationState = .absent ∧ o.dispatchState = .notObserved
    ∧ o.processState = .notObserved ∧ o.terminal = none
    ∧ o.output.disposition = .notProduced ∧ o.output.manifestDigest = none
    ∧ o.output.carrierByteLength = none) && establishesContainment o false

/-- **`isDirectPreDispatchReadiness`.** -/
def isDirectPreDispatchReadiness (o : Observation) : Bool :=
  decide (o.allocationState = .allocated ∧ o.dispatchState = .notObserved
    ∧ o.processState = .notStarted ∧ o.terminal = none
    ∧ o.output.disposition = .notProduced ∧ o.output.manifestDigest = none
    ∧ o.output.carrierByteLength = none) && establishesContainment o false

/-- What the host makes of an observation. -/
structure HostContainment where
  established : Bool
  backendEffectObserved : Bool

/-- **`hostContainment`.** -/
def hostContainment (o : Observation) (dispatchAuthorityConsumed : Bool) : HostContainment :=
  let backendEffectObserved := decide (o.dispatchState ≠ .notObserved)
  if backendEffectObserved = true ∧ dispatchAuthorityConsumed = false then
    ⟨false, backendEffectObserved⟩
  else ⟨establishesContainment o dispatchAuthorityConsumed, backendEffectObserved⟩

end Execution
