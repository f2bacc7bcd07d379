import Lifecycle.DeliveryReducer

/-!
# Planning a work reservation

`compileWorkDelegationReservationForDecision`
(`process/work-delegation-reservation.ts`) resolves the complete slots of one
policy decision before anything is retained: it reads the state a store
publishes, the grant and the boundary that are current there, and the installed
resources. The final Checks it reserves are those evaluation selects
(`finalCheckSelections` of `process/evaluation-preparation-v7.ts`), read off the
retained payload; their resources are those the Cell is given
(`compileFoundationCheckCellResourceSelectionV1` of `check/execution-cell-v1.ts`).
The compilation of an installed agent and the installed check resources are
parameters, as they are of the source function.
-/

open Fallible Json ControlModel DeliveryReducer WorkDelegation

namespace ReservationPlanning

/-! ## The repository contract -/

/-- `FoundationCheckBinding`. -/
structure RegisteredBinding where
  id : String
  checkIds : List String
  implementationDigest : Sha256Digest
  digest : Sha256Digest
  timeoutMs : Nat

/-- `FoundationRepositoryContract`. -/
structure RepositoryContract where
  targetId : String
  digest : Sha256Digest
  checkBindings : OrderedMap String RegisteredBinding

/-! ## Resources of a Check -/

/-- The limits of a `FoundationExecutionBackendProfileV1`. -/
structure ProfileLimits where
  maximumWallTimeMilliseconds : Nat
  maximumProcesses : Nat
  maximumStorageBytes : Nat
  maximumOutputEntries : Nat
  maximumOutputBytes : Nat
  maximumOutputEntryBytes : Nat
  maximumEvents : Nat

/-- The profile and the image of a `FoundationCheckCellRuntimeV1`. -/
structure CheckCellRuntime where
  profile : BackendProfileReference
  limits : ProfileLimits
  image : ImageReference

/-- The resources a Check is given. -/
structure CheckCellResources where
  backendProfile : BackendProfileReference
  image : ImageReference
  limits : ExecutionLimits

/-- `MAXIMUM_CHECK_CELL_STORAGE_BYTES`. -/
def maximumCheckCellStorageBytes : Nat := 256 * 1024 * 1024

/-- `compileFoundationCheckCellResourceSelectionV1`. -/
def compileFoundationCheckCellResourceSelection (binding : RegisteredBinding)
    (runtime : CheckCellRuntime) : CheckCellResources where
  backendProfile := runtime.profile
  image := runtime.image
  limits :=
    { wallTimeMilliseconds :=
        min (binding.timeoutMs + 30000) runtime.limits.maximumWallTimeMilliseconds
      processes := min 32 runtime.limits.maximumProcesses
      storageBytes := min maximumCheckCellStorageBytes runtime.limits.maximumStorageBytes
      outputEntries := min 3 runtime.limits.maximumOutputEntries
      outputBytes := min (32 * 1024 * 1024) runtime.limits.maximumOutputBytes
      outputEntryBytes := min (16 * 1024 * 1024) runtime.limits.maximumOutputEntryBytes
      events := min 128 runtime.limits.maximumEvents }

/-! ## Final Checks -/

/-- `fail`, of the preparation of an evaluation. -/
def preparationFailure (code message : String) : FoundationError :=
  lifecycleError s!"lifecycle.evaluation-preparation-v7.{code}" message

def object (value : Option Json) (label : String) : Except FoundationError JsonObject :=
  orFail (asObject value) (preparationFailure "retained-fact" s!"{label} must be one exact object")

def array (value : Option Json) (label : String) : Except FoundationError (List Json) :=
  orFail (asArray value) (preparationFailure "retained-fact" s!"{label} must be one exact array")

def string (value : Option Json) (label : String) : Except FoundationError String :=
  orFail (asString value) (preparationFailure "retained-fact" s!"{label} must be one exact string")

def boolean (value : Option Json) (label : String) : Except FoundationError Bool :=
  orFail (asBool value) (preparationFailure "retained-fact" s!"{label} must be one exact boolean")

def digest (value : Option Json) (label : String) : Except FoundationError Sha256Digest := do
  let selected ← string value label
  failIf (isSha256 selected = false)
    (preparationFailure "retained-fact" s!"{label} must be one lowercase SHA-256 digest")
  return selected

/-- `controlIdentifier` of a text. -/
def identity (value : Option Json) (label : String) : Except FoundationError String := do
  let text ← string value label
  controlIdentifier text label

/-- The positive safe integer a definition's revision must be. -/
def definitionRevision (value : Option Json) : Except FoundationError Nat :=
  match value with
  | some (.number (.integer n)) => do
    failIf (n < 1 ∨ (maxSafeInteger : Int) < n) (preparationFailure "check-selection"
      "A final Check requires its exact positive Definition revision")
    return n.toNat
  | _ => .error (preparationFailure "check-selection"
      "A final Check requires its exact positive Definition revision")

/-- `FinalCheckSelection`. -/
structure FinalCheckSelection where
  id : String
  definition : ReservedDefinition
  bindingId : String
  binding : RegisteredBinding

/-- The exact definition of a Check. -/
def checkDefinition (check : JsonObject) : Except FoundationError ReservedDefinition := do
  let definition ← object (member "definition" check) "Work Boundary Check Definition"
  let id ← identity (member "id" definition) "Work Boundary Check Definition identity"
  let revision ← definitionRevision (member "revision" definition)
  let sourceDigest ← digest (member "sourceDigest" definition) "Check Definition source digest"
  let semanticDigest ← digest (member "semanticDigest" definition)
    "Check Definition semantic digest"
  return ⟨id, revision, sourceDigest, semanticDigest⟩

/-- The one binding a list retains. -/
def onlyBinding (bindings : List Json) : Except FoundationError JsonObject :=
  match bindings with
  | [value] => object (some value) "Work Boundary Check Binding"
  | _ => .error (preparationFailure "check-binding-cardinality"
      "Each final Check selection requires exactly one retained Check Binding under the current Check Receipt contract")

/-- The registered mechanism of a Check, of the one binding it retains, with
the identity it is registered under. -/
def registeredBinding (contract : RepositoryContract) (id definitionId : String)
    (selected : JsonObject) : Except FoundationError (String × RegisteredBinding) := do
  let bindingId ← identity (member "id" selected) "Work Boundary Check Binding identity"
  let unregistered := preparationFailure "check-binding"
    s!"Final Check selection {id} does not bind one exact registered mechanism"
  let binding ← orFail (contract.checkBindings.get bindingId) unregistered
  failIf (binding.id ≠ bindingId) unregistered
  let retained ← digest (member "digest" selected) "Work Boundary Check Binding digest"
  failIf (binding.digest ≠ retained) unregistered
  let implementation ← digest (member "implementationDigest" selected)
    "Work Boundary Check Binding implementation digest"
  failIf (binding.implementationDigest ≠ implementation ∨ definitionId ∉ binding.checkIds)
    unregistered
  return (bindingId, binding)

/-- One required final Check, after the selections before it. -/
def selectFinalCheck (contract : RepositoryContract) (selections : List FinalCheckSelection)
    (check : JsonObject) : Except FoundationError FinalCheckSelection := do
  let id ← identity (member "id" check) "Work Boundary Check identity"
  failIf (id ∈ selections.map (·.id))
    (preparationFailure "check-selection" s!"Work Boundary repeats final Check selection {id}")
  let definition ← checkDefinition check
  let bindings ← array (member "bindings" check) "Work Boundary Check Bindings"
  let selected ← onlyBinding bindings
  let binding ← registeredBinding contract id definition.id selected
  return ⟨id, definition, binding.1, binding.2⟩

/-- One round of `finalCheckSelections`. -/
def finalCheckSelection (contract : RepositoryContract) (selections : List FinalCheckSelection)
    (value : Json) : Except FoundationError (List FinalCheckSelection) := do
  let check ← object (some value) "Work Boundary Check"
  let required ← boolean (member "finalRequired" check) "Work Boundary final-Check requirement"
  if required = false then return selections
  else do
    let selection ← selectFinalCheck contract selections check
    return selections ++ [selection]

/-- **`finalCheckSelections`**, of the retained payload. -/
def finalCheckSelections (contract : RepositoryContract) (boundary : ControlRecordRevision) :
    Except FoundationError (List FinalCheckSelection) := do
  let mandate ← object (member "mandate" boundary.payload) "Work Boundary mandate"
  let checks ← array (member "checks" mandate) "Work Boundary Checks"
  let selections ← replay (finalCheckSelection contract) [] checks
  failIf (selections = [])
    (preparationFailure "final-checks" "Evaluation requires at least one final Check selection")
  return selections.insertionSort fun a b => codePointLe a.id b.id = true

/-! ## What a plan is made from -/

/-- **A store work is planned from**: its identities, its revisions, and the
replay of its journal, which is of its own Process. -/
structure DelegatedStore where
  storeId : String
  processId : String
  targetId : String
  getRevision : String → Nat → Option ControlRecordRevision
  journal : Replay
  /-- Whether `getWorkDelegationStopRequest` returns a request. -/
  stopRequested : Bool
  ofProcess : ∀ p ∈ journal.processId, p = processId

/-- The resolver a store gives its replay. -/
def DelegatedStore.resolver (store : DelegatedStore) : DeliveryRecordRevisionResolver :=
  fun subject => store.getRevision subject.recordId subject.revision

/-- What an installed agent is compiled to. -/
structure InstalledAgent where
  providerDescriptor : ResourceReference
  backendProfile : BackendProfileReference
  image : ImageReference

/-- **`WorkDelegationReservationOwners`**, at one configuration. -/
structure ReservationOwners where
  compileAgent : WorkDelegationAgentSelection → Except FoundationError InstalledAgent
  checkResources : Except FoundationError CheckCellRuntime

/-- The decision a reservation is compiled for. -/
structure WorkDecision where
  operation : WorkDelegationOperation
  reason : String
  basisDigest : Sha256Digest
  headSequence : Nat
  headDigest : Sha256Digest

/-- `fail`. -/
def contextFailure (reason : String) : FoundationError where
  code := "lifecycle.work-delegation.reservation-context"
  message := "A work reservation requires a fresh justified operation and its exact retained resources"
  reason := some reason

/-- The delivery operation of a delegated one. -/
def deliveryOperation : WorkDelegationOperation → DeliveryOperation
  | .continue => .continue
  | .evaluate => .evaluate
  | .integrate => .integrate

/-! ## The current subjects -/

/-- The subjects a decision is current under. -/
structure CurrentSubjects where
  activeBoundary : SubjectReference
  admission : SubjectReference
  delegation : SubjectReference
  stopped : Bool

/-- The subjects of the state a decision is current in. -/
def currentSubjects (store : DelegatedStore) (decision : WorkDecision) :
    Except FoundationError CurrentSubjects := do
  let state := reducedState store.journal
  let stale := contextFailure "currentness"
  failIf (state.standing = .closed ∨ state.subjects.materialCondition ≠ none) stale
  let activeBoundary ← orFail state.subjects.activeBoundary stale
  let admission ← orFail state.delegation.admission stale
  failIf (∃ a ∈ state.activities, a.stage ≠ .completed ∨ a.recovery ≠ none) stale
  let current ← orFail state.delegation.current stale
  failIf (current.2 = true ∨ store.stopRequested = true) stale
  failIf (state.eventCount ≠ decision.headSequence
    ∨ state.headDigest ≠ some decision.headDigest) stale
  let basisDigest ← deliveryWorkDecisionBasisDigest state.toDeliveryState
  failIf (basisDigest ≠ decision.basisDigest
    ∨ deliveryOperation decision.operation ∉ state.eligibleOperations) stale
  return ⟨activeBoundary, admission, current.1, current.2⟩

/-- `exactRevision`. -/
def exactRevision (store : DelegatedStore) (selected : SubjectReference) (kind : String) :
    Except FoundationError ControlRecordRevision := do
  let revision ← orFail (store.getRevision selected.id selected.revision)
    (contextFailure "retained-subject")
  failIf (revision.recordKind ≠ kind ∨ revision.recordId ≠ selected.id
    ∨ revision.revision ≠ selected.revision ∨ revision.digest ≠ selected.digest
    ∨ revision.processId ≠ store.processId) (contextFailure "retained-subject")
  return revision

/-- A subject the grant names is the current one. -/
def assertGoverning (granted : WorkDelegationReference) (kind : String)
    (current : SubjectReference) : Except FoundationError Unit := do
  let retained ← canonicalJson (referenceJson granted)
  let expected ← canonicalJson (referenceJson ⟨kind, current.id, current.revision, current.digest⟩)
  failIf (retained ≠ expected) (contextFailure "governing-admission")

/-- The grant that is current, under the mandate it was given for. -/
def governingGrant (store : DelegatedStore) (current : CurrentSubjects) :
    Except FoundationError WorkDelegationPayload := do
  let revision ← exactRevision store current.delegation "work-delegation"
  let grant ← parseWorkDelegationPayload (.object revision.payload)
  assertGoverning grant.boundary "work-boundary" current.activeBoundary
  assertGoverning grant.admission "director-decision" current.admission
  return grant

/-! ## Slots -/

/-- `resolveAgentResources`. -/
def resolveAgentResources (owners : ReservationOwners)
    (investment : WorkDelegationAgentSelection) :
    Except FoundationError WorkDelegationAgentSelection := do
  let compiled ← owners.compileAgent investment
  return { investment with
    providerDescriptor := compiled.providerDescriptor
    backendProfile := compiled.backendProfile
    image := compiled.image }

/-- The slot of an agent, under the selection the grant delegates. -/
def agentSlot (owners : ReservationOwners) (selection : Option WorkDelegationAgentSelection)
    (role : DelegatedRole) : Except FoundationError WorkDelegationExecutionSlot := do
  let selection ← orFail selection (contextFailure "operation-not-delegated")
  let resolved ← resolveAgentResources owners selection
  let actual ← canonicalJson (agentSelectionJson resolved)
  let expected ← canonicalJson (agentSelectionJson selection)
  failIf (actual ≠ expected) (contextFailure "installed-selection-unavailable")
  return .agent s!"slot-agent-{roleText role}" role selection

/-- The agent slots of an operation. -/
def agentSlots (owners : ReservationOwners) (grant : WorkDelegationPayload) :
    WorkDelegationOperation → Except FoundationError (List WorkDelegationExecutionSlot)
  | .integrate => .ok []
  | .continue => do
    let slot ← agentSlot owners grant.builder .builder
    return [slot]
  | .evaluate => do
    let slot ← agentSlot owners grant.reviewer .reviewer
    return [slot]

/-- `.slice(7)` of a digest: its hexadecimal digits. -/
def digestHex (d : Sha256Digest) : String := String.ofList (d.toList.drop 7)

/-- The slot of a final Check. -/
def checkSlot (runtime : CheckCellRuntime) (check : FinalCheckSelection) :
    Except FoundationError WorkDelegationExecutionSlot := do
  let selectionDigest ← digestCanonical (.object [("selectionId", .string check.id)])
  let resources := compileFoundationCheckCellResourceSelection check.binding runtime
  return .check s!"slot-check-{digestHex selectionDigest}" check.id check.definition
    ⟨check.bindingId, check.binding.digest⟩ resources.backendProfile resources.image
    resources.limits.wallTimeMilliseconds resources.limits

/-- The digest of the contract a boundary was admitted under. -/
def repositoryContractDigest (boundary : ControlRecordRevision) : Option String := do
  let basis ← asObject (member "basis" boundary.payload)
  asString (member "repositoryContractDigest" basis)

/-- The check slots of an evaluation. -/
def evaluationSlots (owners : ReservationOwners) (store : DelegatedStore)
    (contract : RepositoryContract) (activeBoundary : SubjectReference) :
    Except FoundationError (List WorkDelegationExecutionSlot) := do
  let boundary ← exactRevision store activeBoundary "work-boundary"
  failIf (contract.targetId ≠ store.targetId) (contextFailure "target")
  failIf (repositoryContractDigest boundary ≠ some contract.digest)
    (contextFailure "repository-contract")
  let runtime ← owners.checkResources
  let selections ← finalCheckSelections contract boundary
  selections.mapM (checkSlot runtime)

/-- The check slots of an operation. -/
def checkSlots (owners : ReservationOwners) (store : DelegatedStore)
    (contract : RepositoryContract) (activeBoundary : SubjectReference) :
    WorkDelegationOperation → Except FoundationError (List WorkDelegationExecutionSlot)
  | .evaluate => evaluationSlots owners store contract activeBoundary
  | _ => .ok []

/-! ## The reservation -/

/-- What the digest in the identity of a reservation is taken of. -/
def reservationSubject (store : DelegatedStore) (activityId : String) : Json :=
  .object [("storeId", .string store.storeId), ("processId", .string store.processId),
    ("activityId", .string activityId)]

/-- **`compileWorkDelegationReservationForDecision`.** -/
def compileWorkDelegationReservationForDecision (owners : ReservationOwners)
    (store : DelegatedStore) (contract : RepositoryContract) (activityId observedAt : String)
    (decision : WorkDecision) : Except FoundationError WorkDelegationReservation := do
  let activityId ← controlIdentifier activityId "Delegated Activity identity"
  let observedAt ← controlTimestamp observedAt "Delegated work observation time"
  let current ← currentSubjects store decision
  let grant ← governingGrant store current
  let agents ← agentSlots owners grant decision.operation
  let checks ← checkSlots owners store contract current.activeBoundary decision.operation
  let subjectDigest ← digestCanonical (reservationSubject store activityId)
  let reservation ← compileWorkDelegationReservation (partsMembers
    { reservationId := s!"reservation-{digestHex subjectDigest}"
      delegation := ⟨"work-delegation", current.delegation.id, current.delegation.revision,
        current.delegation.digest⟩
      activityId
      operation := decision.operation
      headSequence := decision.headSequence
      headDigest := decision.headDigest
      basisDigest := decision.basisDigest
      reason := decision.reason
      slots := (agents ++ checks).insertionSort fun a b => codePointLe (slotId a) (slotId b) = true })
  let allowance ← assessWorkDelegationAllowance grant store.journal.delegatedCharges reservation
    observedAt current.stopped
  failIf (allowance.allowed = false) (contextFailure (allowanceText allowance.reason))
  return reservation

end ReservationPlanning
