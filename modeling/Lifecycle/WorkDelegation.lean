import Lifecycle.ControlModel

/-!
# Work delegation

The resource contract of delegated work (`control/work-delegation.ts`) and
the request that stops it (`control/work-delegation-stop.ts`): a parsed
delegation, the reservation an activity opens under, the accounting both
are measured in, and the assessment of an allowance.
-/

open Fallible Json ControlModel

/-! ## Types -/

/-- `WorkDelegationOperation`. -/
inductive WorkDelegationOperation
  | continue
  | evaluate
  | integrate
deriving DecidableEq

/-- `WorkDelegationReference`. -/
structure WorkDelegationReference where
  kind : String
  id : String
  revision : Nat
  digest : Sha256Digest
deriving DecidableEq

/-- An identity with its digest. -/
structure ResourceReference where
  id : String
  digest : Sha256Digest
deriving DecidableEq

/-- `FoundationExecutionBackendProfileReferenceV1`. -/
structure BackendProfileReference where
  profileId : String
  profileDigest : Sha256Digest
  implementationDigest : Sha256Digest
deriving DecidableEq

/-- `FoundationExecutionImageReferenceV1`. -/
structure ImageReference where
  imageId : String
  imageDigest : Sha256Digest
deriving DecidableEq

/-- The limits of an agent's investment; `none` is unlimited. -/
structure AgentLimits where
  tokens : Option Nat
  events : Option Nat
  outputBytes : Option Nat
  toolCalls : Option Nat
  processes : Option Nat
  storageBytes : Option Nat
deriving DecidableEq

/-- `WorkDelegationAgentSelection`. -/
structure WorkDelegationAgentSelection where
  providerDescriptor : ResourceReference
  backendProfile : BackendProfileReference
  image : ImageReference
  model : String
  reasoning : String
  wallTimeMs : Nat
  limits : AgentLimits
deriving DecidableEq

/-- `WorkDelegationAccounting`. -/
structure WorkDelegationAccounting where
  operations : Nat
  agentAttempts : Nat
  reservedCellWallTimeMs : Nat
deriving DecidableEq

/-- `WorkDelegationPayload`, without the members fixed by its profile. -/
structure WorkDelegationPayload where
  boundary : WorkDelegationReference
  admission : WorkDelegationReference
  replaces : Option WorkDelegationReference
  allowedOperations : List WorkDelegationOperation
  directionContinue : Option WorkDelegationReference
  directionEvaluate : Option WorkDelegationReference
  builder : Option WorkDelegationAgentSelection
  reviewer : Option WorkDelegationAgentSelection
  ceilings : WorkDelegationAccounting
  expiresAt : Option String
deriving DecidableEq

/-- `FoundationExecutionSpecificationV1["limits"]`. -/
structure ExecutionLimits where
  wallTimeMilliseconds : Nat
  processes : Nat
  storageBytes : Nat
  outputEntries : Nat
  outputBytes : Nat
  outputEntryBytes : Nat
  events : Nat
deriving DecidableEq

/-- The definition a check slot reserves. -/
structure ReservedDefinition where
  id : String
  revision : Nat
  sourceDigest : Sha256Digest
  semanticDigest : Sha256Digest
deriving DecidableEq

/-- The role of an agent slot. -/
inductive DelegatedRole
  | builder
  | reviewer
deriving DecidableEq

/-- `WorkDelegationExecutionSlot`. -/
inductive WorkDelegationExecutionSlot
  | agent (slotId : String) (role : DelegatedRole) (selection : WorkDelegationAgentSelection)
  | check (slotId selectionId : String) (definition : ReservedDefinition)
      (binding : ResourceReference) (backendProfile : BackendProfileReference)
      (image : ImageReference) (wallTimeMs : Nat) (limits : ExecutionLimits)
deriving DecidableEq

/-- `WorkDelegationReservation`, without its charges. -/
structure ReservationParts where
  reservationId : String
  delegation : WorkDelegationReference
  activityId : String
  operation : WorkDelegationOperation
  headSequence : Nat
  headDigest : Sha256Digest
  basisDigest : Sha256Digest
  reason : String
  slots : List WorkDelegationExecutionSlot
deriving DecidableEq

/-- `WorkDelegationReservation`. -/
structure WorkDelegationReservation extends ReservationParts where
  charges : WorkDelegationAccounting
deriving DecidableEq

/-- `WorkDelegationAllowance["reason"]`. -/
inductive AllowanceReason
  | withinAllowance
  | stopped
  | expired
  | operationNotDelegated
  | selectionMismatch
  | operationsExhausted
  | agentAttemptsExhausted
  | cellWallTimeExhausted
deriving DecidableEq

/-- `WorkDelegationAllowance`. -/
structure WorkDelegationAllowance where
  allowed : Bool
  reason : AllowanceReason
  charged : WorkDelegationAccounting
  prospective : WorkDelegationAccounting
deriving DecidableEq

namespace WorkDelegation

def schema : String := "lifecycle.work-delegation.v2"
def reservationSchema : String := "lifecycle.work-delegation-reservation.v1"
def policyId : String := "lifecycle.work-delegation.standard-v1"
def stopRequestSchema : String := "lifecycle.work-delegation-stop-request.v1"
def maximumCellWallTimeMs : Nat := 86400000
def maximumSlots : Nat := 4097

/-- The operation's name in the source. -/
def operationText : WorkDelegationOperation → String
  | .continue => "delivery.continue"
  | .evaluate => "delivery.evaluate"
  | .integrate => "delivery.integrate"

def operations : List WorkDelegationOperation := [.continue, .evaluate, .integrate]

/-- The operation a text names. -/
def parseOperation (text : String) : Option WorkDelegationOperation :=
  operations.find? fun o => operationText o = text

def roleText : DelegatedRole → String
  | .builder => "builder"
  | .reviewer => "reviewer"

/-- `WORK_DELEGATION_POLICY_DEFINITION`. -/
def policyDefinition : Json :=
  .object [
    ("id", .string policyId),
    ("operations", .array (operations.map fun o => .string (operationText o))),
    ("accounting", .string "delivery-lifetime-delegated-reservations-no-refunds"),
    ("stop", .string "finish-reserved-operation"),
    ("authority", .string "no-mandate-or-terminal-decision"),
    ("continuation", .string "fresh-eligible-useful-work-after-settlement"),
    ("maximumCellWallTimeMs", nat maximumCellWallTimeMs),
    ("maximumSlots", nat maximumSlots)]

/-- `WORK_DELEGATION_POLICY_DIGEST`. -/
def policyDigest : Sha256Digest :=
  match digestCanonical policyDefinition with
  | .ok d => d
  | .error _ => ""

/-- The error of a delegation outside its contract. -/
def invalid (reason : String) : FoundationError where
  code := "lifecycle.work-delegation.invalid"
  message := "Work delegation requires one exact bounded resource contract"
  reason := some reason

/-! ## Reading members -/

/-- `object`: exactly the named members. -/
def object (value : Option Json) (names : List String) : Except FoundationError JsonObject :=
  match value with
  | some (.object o) => do
    failIf (o.length ≠ names.length ∨ ∃ key ∈ keys o, key ∉ names) (invalid "members")
    return o
  | _ => .error (invalid "object")

/-- A line separator, `[\r\n\u2028\u2029]`. -/
def isLineSeparator (c : Char) : Bool :=
  Nat.beq c.toNat 13 || Nat.beq c.toNat 10 || Nat.beq c.toNat 8232 || Nat.beq c.toNat 8233

def identifier (value : Option Json) : Except FoundationError String :=
  match value with
  | some (.string s) => do
    failIf (s.toList.any isLineSeparator = true) (invalid "identity")
    controlIdentifier s "Work delegation identity"
  | _ => .error (invalid "identity")

def opaqueIdentity (value : Option Json) : Except FoundationError String := do
  let selected ← identifier value
  failIf (160 < byteLength selected) (invalid "opaque-identity-bound")
  return selected

def digest (value : Option Json) : Except FoundationError Sha256Digest :=
  match value with
  | some (.string s) => do
    failIf (isSha256 s = false) (invalid "digest")
    return s
  | _ => .error (invalid "digest")

/-- `integer`, of a value that is never negative. -/
def integer (value : Option Json) (minimum maximum : Nat) : Except FoundationError Nat :=
  match value with
  | some (.number (.integer n)) => do
    failIf (n < minimum ∨ (maximum : Int) < n) (invalid "integer-bound")
    return n.toNat
  | _ => .error (invalid "integer-bound")

def time (value : Option Json) : Except FoundationError String :=
  match value with
  | some (.string s) => controlTimestamp s "Work delegation time"
  | _ => .error (invalid "time")

/-- A value that may be `null`, read by `read` otherwise. -/
def nullable {α : Type} (value : Option Json) (read : Option Json → Except FoundationError α) :
    Except FoundationError (Option α) :=
  match value with
  | some .null => .ok none
  | v => do
    let a ← read v
    return some a

def exactReference (kind : String) (value : Option Json) :
    Except FoundationError WorkDelegationReference := do
  let selected ← object value ["kind", "id", "revision", "digest"]
  failIf (member "kind" selected |> asString |> (· ≠ some kind)) (invalid "reference-kind")
  let id ← identifier (member "id" selected)
  let revision ← integer (member "revision" selected) 1 maxSafeInteger
  let digest ← digest (member "digest" selected)
  return { kind, id, revision, digest }

def resourceReference (value : Option Json) : Except FoundationError ResourceReference := do
  let selected ← object value ["id", "digest"]
  let id ← identifier (member "id" selected)
  let digest ← digest (member "digest" selected)
  return { id, digest }

def backend (value : Option Json) : Except FoundationError BackendProfileReference := do
  let selected ← object value ["profileId", "profileDigest", "implementationDigest"]
  let profileId ← orFail (asString (member "profileId" selected)) (invalid "backend-profile")
  failIf (profileId ≠ "lifecycle.execution-backend-profile.docker-local.v1"
    ∧ profileId ≠ "lifecycle.execution-backend-profile.fault-injection.v1")
    (invalid "backend-profile")
  let profileDigest ← digest (member "profileDigest" selected)
  let implementationDigest ← digest (member "implementationDigest" selected)
  return { profileId, profileDigest, implementationDigest }

def image (value : Option Json) : Except FoundationError ImageReference := do
  let selected ← object value ["imageId", "imageDigest"]
  let imageId ← identifier (member "imageId" selected)
  let imageDigest ← digest (member "imageDigest" selected)
  return { imageId, imageDigest }

def agentLimits (value : Option Json) : Except FoundationError AgentLimits := do
  let selected ← object value
    ["tokens", "events", "outputBytes", "toolCalls", "processes", "storageBytes"]
  let limit (key : String) := nullable (member key selected) (integer · 1 maxSafeInteger)
  let tokens ← limit "tokens"
  let events ← limit "events"
  let outputBytes ← limit "outputBytes"
  let toolCalls ← limit "toolCalls"
  let processes ← limit "processes"
  let storageBytes ← limit "storageBytes"
  return { tokens, events, outputBytes, toolCalls, processes, storageBytes }

def agentSelection (value : Option Json) :
    Except FoundationError WorkDelegationAgentSelection := do
  let selected ← object value ["providerDescriptor", "backendProfile", "image", "model",
    "reasoning", "wallTimeMs", "limits"]
  let providerDescriptor ← resourceReference (member "providerDescriptor" selected)
  let backendProfile ← backend (member "backendProfile" selected)
  let image ← image (member "image" selected)
  let model ← opaqueIdentity (member "model" selected)
  let reasoning ← opaqueIdentity (member "reasoning" selected)
  let wallTimeMs ← integer (member "wallTimeMs" selected) 1 maximumCellWallTimeMs
  let limits ← agentLimits (member "limits" selected)
  return { providerDescriptor, backendProfile, image, model, reasoning, wallTimeMs, limits }

def executionLimits (value : Option Json) : Except FoundationError ExecutionLimits := do
  let selected ← object value ["wallTimeMilliseconds", "processes", "storageBytes",
    "outputEntries", "outputBytes", "outputEntryBytes", "events"]
  let wallTimeMilliseconds ← integer (member "wallTimeMilliseconds" selected) 1
    maximumCellWallTimeMs
  let processes ← integer (member "processes" selected) 1 maxSafeInteger
  let storageBytes ← integer (member "storageBytes" selected) 1 maxSafeInteger
  let outputEntries ← integer (member "outputEntries" selected) 1 maxSafeInteger
  let outputBytes ← integer (member "outputBytes" selected) 1 maxSafeInteger
  let outputEntryBytes ← integer (member "outputEntryBytes" selected) 1 maxSafeInteger
  let events ← integer (member "events" selected) 1 maxSafeInteger
  return ⟨wallTimeMilliseconds, processes, storageBytes, outputEntries, outputBytes,
    outputEntryBytes, events⟩

/-! ## Values as JSON -/

def referenceJson (r : WorkDelegationReference) : Json :=
  .object [("kind", .string r.kind), ("id", .string r.id), ("revision", nat r.revision),
    ("digest", .string r.digest)]

def resourceJson (r : ResourceReference) : Json :=
  .object [("id", .string r.id), ("digest", .string r.digest)]

def backendJson (b : BackendProfileReference) : Json :=
  .object [("profileId", .string b.profileId), ("profileDigest", .string b.profileDigest),
    ("implementationDigest", .string b.implementationDigest)]

def imageJson (i : ImageReference) : Json :=
  .object [("imageId", .string i.imageId), ("imageDigest", .string i.imageDigest)]

/-- A value that may be missing, as JSON. -/
def orNull {α : Type} (json : α → Json) : Option α → Json
  | some a => json a
  | none => .null

def agentLimitsJson (l : AgentLimits) : Json :=
  .object [("tokens", orNull nat l.tokens), ("events", orNull nat l.events),
    ("outputBytes", orNull nat l.outputBytes), ("toolCalls", orNull nat l.toolCalls),
    ("processes", orNull nat l.processes), ("storageBytes", orNull nat l.storageBytes)]

def agentSelectionJson (s : WorkDelegationAgentSelection) : Json :=
  .object [("providerDescriptor", resourceJson s.providerDescriptor),
    ("backendProfile", backendJson s.backendProfile), ("image", imageJson s.image),
    ("model", .string s.model), ("reasoning", .string s.reasoning),
    ("wallTimeMs", nat s.wallTimeMs), ("limits", agentLimitsJson s.limits)]

def executionLimitsJson (l : ExecutionLimits) : Json :=
  .object [("wallTimeMilliseconds", nat l.wallTimeMilliseconds),
    ("processes", nat l.processes), ("storageBytes", nat l.storageBytes),
    ("outputEntries", nat l.outputEntries), ("outputBytes", nat l.outputBytes),
    ("outputEntryBytes", nat l.outputEntryBytes), ("events", nat l.events)]

def definitionJson (d : ReservedDefinition) : Json :=
  .object [("id", .string d.id), ("revision", nat d.revision),
    ("sourceDigest", .string d.sourceDigest), ("semanticDigest", .string d.semanticDigest)]

def accountingJson (a : WorkDelegationAccounting) : Json :=
  .object [("operations", nat a.operations), ("agentAttempts", nat a.agentAttempts),
    ("reservedCellWallTimeMs", nat a.reservedCellWallTimeMs)]

def payloadJson (p : WorkDelegationPayload) : Json :=
  .object [
    ("schema", .string schema), ("boundary", referenceJson p.boundary),
    ("admission", referenceJson p.admission), ("replaces", orNull referenceJson p.replaces),
    ("policy", .object [("id", .string policyId), ("digest", .string policyDigest)]),
    ("allowedOperations", .array (p.allowedOperations.map fun o => .string (operationText o))),
    ("directions", .object [("continue", orNull referenceJson p.directionContinue),
      ("evaluate", orNull referenceJson p.directionEvaluate)]),
    ("agentSelections", .object [("builder", orNull agentSelectionJson p.builder),
      ("reviewer", orNull agentSelectionJson p.reviewer)]),
    ("ceilings", accountingJson p.ceilings), ("expiresAt", textOrNull p.expiresAt),
    ("stopPolicy", .string "finish-reserved-operation")]

def slotJson : WorkDelegationExecutionSlot → Json
  | .agent slotId role selection =>
    .object [("slotId", .string slotId), ("purpose", .string "agent"),
      ("role", .string (roleText role)), ("selection", agentSelectionJson selection)]
  | .check slotId selectionId definition binding backendProfile image wallTimeMs limits =>
    .object [("slotId", .string slotId), ("purpose", .string "check"),
      ("phase", .string "final"), ("selectionId", .string selectionId),
      ("definition", definitionJson definition), ("binding", resourceJson binding),
      ("backendProfile", backendJson backendProfile), ("image", imageJson image),
      ("wallTimeMs", nat wallTimeMs), ("limits", executionLimitsJson limits)]

/-- The members of a reservation but its charges. -/
def partsMembers (r : ReservationParts) : JsonObject := [
  ("schema", .string reservationSchema), ("reservationId", .string r.reservationId),
  ("delegation", referenceJson r.delegation), ("activityId", .string r.activityId),
  ("operation", .string (operationText r.operation)),
  ("decision", .object [
    ("journalHead", .object [("sequence", nat r.headSequence), ("digest", .string r.headDigest)]),
    ("basisDigest", .string r.basisDigest), ("reason", .string r.reason)]),
  ("slots", .array (r.slots.map slotJson))]

def reservationJson (r : WorkDelegationReservation) : Json :=
  .object (partsMembers r.toReservationParts ++ [("charges", accountingJson r.charges)])

end WorkDelegation

open WorkDelegation

/-! ## Delegations -/

def parseWorkDelegationAccounting (value : Option Json) :
    Except FoundationError WorkDelegationAccounting := do
  let selected ← object value ["operations", "agentAttempts", "reservedCellWallTimeMs"]
  let operations ← integer (member "operations" selected) 0 maxSafeInteger
  let agentAttempts ← integer (member "agentAttempts" selected) 0 maxSafeInteger
  let reservedCellWallTimeMs ← integer (member "reservedCellWallTimeMs" selected) 0
    maxSafeInteger
  return { operations, agentAttempts, reservedCellWallTimeMs }

namespace WorkDelegation

/-- The allowed operations, each known and after the one before it. -/
def parseAllowedOperations : Option WorkDelegationOperation → List Json →
    Except FoundationError (List WorkDelegationOperation)
  | _, [] => .ok []
  | previous, value :: values => do
    let text ← orFail (asString (some value)) (invalid "operation")
    let operation ← orFail (parseOperation text) (invalid "operation")
    failIf (∃ p ∈ previous, codeUnitLe text (operationText p) = true)
      (invalid "operation-order")
    let rest ← parseAllowedOperations (some operation) values
    return operation :: rest

/-- Whether a member is other than `null`. -/
def isPresent (o : JsonObject) (name : String) : Bool :=
  match member name o with
  | some .null => false
  | _ => true

/-- The items of an array member. -/
def arrayItems (value : Option Json) (error : FoundationError) :
    Except FoundationError (List Json) :=
  match value with
  | some (.array items) => .ok items
  | _ => .error error

end WorkDelegation

/-- **`parseWorkDelegationPayload`.** -/
def parseWorkDelegationPayload (value : Json) :
    Except FoundationError WorkDelegationPayload := do
  let selected ← object (some value) ["schema", "boundary", "admission", "replaces", "policy",
    "allowedOperations", "directions", "agentSelections", "ceilings", "expiresAt", "stopPolicy"]
  failIf (asString (member "schema" selected) ≠ some schema
    ∨ asString (member "stopPolicy" selected) ≠ some "finish-reserved-operation")
    (invalid "profile")
  let policy ← object (member "policy" selected) ["id", "digest"]
  failIf (asString (member "id" policy) ≠ some policyId
    ∨ asString (member "digest" policy) ≠ some policyDigest) (invalid "policy")
  let operationInputs ← arrayItems (member "allowedOperations" selected) (invalid "operations")
  failIf (operationInputs.length < 1 ∨ 3 < operationInputs.length) (invalid "operations")
  let allowedOperations ← parseAllowedOperations none operationInputs
  let directions ← object (member "directions" selected) ["continue", "evaluate"]
  let selections ← object (member "agentSelections" selected) ["builder", "reviewer"]
  let builder := allowedOperations.contains .continue
  let reviewer := allowedOperations.contains .evaluate
  failIf (isPresent directions "continue" ≠ builder ∨ isPresent selections "builder" ≠ builder
    ∨ isPresent directions "evaluate" ≠ reviewer ∨ isPresent selections "reviewer" ≠ reviewer)
    (invalid "operation-inputs")
  let ceilings ← parseWorkDelegationAccounting (member "ceilings" selected)
  failIf (ceilings.operations < 1 ∨ ((builder || reviewer) = true
    ∧ (ceilings.agentAttempts < 1 ∨ ceilings.reservedCellWallTimeMs < 1)))
    (invalid "empty-allowance")
  let boundary ← exactReference "work-boundary" (member "boundary" selected)
  let admission ← exactReference "director-decision" (member "admission" selected)
  let replaces ← nullable (member "replaces" selected) (exactReference "work-delegation")
  let directionContinue ← nullable (member "continue" directions)
    (exactReference "director-brief")
  let directionEvaluate ← nullable (member "evaluate" directions)
    (exactReference "director-brief")
  let builderSelection ← nullable (member "builder" selections) agentSelection
  let reviewerSelection ← nullable (member "reviewer" selections) agentSelection
  let expiresAt ← nullable (member "expiresAt" selected) time
  return ⟨boundary, admission, replaces, allowedOperations, directionContinue,
    directionEvaluate, builderSelection, reviewerSelection, ceilings, expiresAt⟩

/-! ## Reservations -/

namespace WorkDelegation

/-- `knowledgeId`'s pattern, of a check definition. -/
def isKnowledgeId (id : String) : Bool :=
  match (utf8Bytes id).splitOn 46 with
  | [] => false
  | kind :: segments =>
    (["behavior", "assurance", "blueprint", "description", "check", "discipline"].map
      utf8Bytes).contains kind
      && !segments.isEmpty && segments.all (relationTail true)

def executionSlot (value : Json) : Except FoundationError WorkDelegationExecutionSlot :=
  match value with
  | .object o =>
    if asString (member "purpose" o) = some "agent" then do
      let selected ← object (some value) ["slotId", "purpose", "role", "selection"]
      let role ← match asString (member "role" selected) with
        | some "builder" => Except.ok DelegatedRole.builder
        | some "reviewer" => Except.ok DelegatedRole.reviewer
        | _ => Except.error (invalid "agent-role")
      let slotId ← identifier (member "slotId" selected)
      let selection ← agentSelection (member "selection" selected)
      return .agent slotId role selection
    else do
      let selected ← object (some value) ["slotId", "purpose", "phase", "selectionId",
        "definition", "binding", "backendProfile", "image", "wallTimeMs", "limits"]
      failIf (asString (member "purpose" selected) ≠ some "check"
        ∨ asString (member "phase" selected) ≠ some "final") (invalid "check-phase")
      let wallTimeMs ← integer (member "wallTimeMs" selected) 1 maximumCellWallTimeMs
      let limits ← executionLimits (member "limits" selected)
      failIf (limits.wallTimeMilliseconds ≠ wallTimeMs) (invalid "check-wall-time")
      let definition ← object (member "definition" selected)
        ["id", "revision", "sourceDigest", "semanticDigest"]
      let definitionId ← opaqueIdentity (member "id" definition)
      failIf (isKnowledgeId definitionId = false) (lifecycleError "foundation.value.knowledge_id"
        "Reserved Check Definition identity is not a valid Knowledge identity")
      failIf ((utf8Bytes definitionId).take 6 ≠ utf8Bytes "check.")
        (invalid "check-definition-kind")
      let slotId ← identifier (member "slotId" selected)
      let selectionId ← identifier (member "selectionId" selected)
      let revision ← integer (member "revision" definition) 1 maxSafeInteger
      let sourceDigest ← digest (member "sourceDigest" definition)
      let semanticDigest ← digest (member "semanticDigest" definition)
      let binding ← resourceReference (member "binding" selected)
      let backendProfile ← backend (member "backendProfile" selected)
      let image ← image (member "image" selected)
      return .check slotId selectionId
        { id := definitionId, revision, sourceDigest, semanticDigest } binding backendProfile
        image wallTimeMs limits
  | _ => .error (invalid "slot")

def slotId : WorkDelegationExecutionSlot → String
  | .agent slotId .. => slotId
  | .check slotId .. => slotId

/-- The wall time a slot charges. -/
def slotWallTimeMs : WorkDelegationExecutionSlot → Nat
  | .agent _ _ selection => selection.wallTimeMs
  | .check _ _ _ _ _ _ wallTimeMs _ => wallTimeMs

/-- The agent slots' roles. -/
def agentRoles (slots : List WorkDelegationExecutionSlot) : List DelegatedRole :=
  slots.filterMap fun
    | .agent _ role _ => some role
    | .check .. => none

/-- The selections the check slots reserve. -/
def checkSelections (slots : List WorkDelegationExecutionSlot) : List String :=
  slots.filterMap fun
    | .agent .. => none
    | .check _ selectionId .. => some selectionId

/-- The slots in strict order of their identities. -/
def slotsOrdered : List WorkDelegationExecutionSlot → Bool
  | a :: b :: slots => !codeUnitLe (slotId b) (slotId a) && slotsOrdered (b :: slots)
  | _ => true

/-- The decision reasons of an operation. -/
def decisionReasons : WorkDelegationOperation → List String
  | .continue => ["develop-candidate", "correct-in-scope-findings"]
  | .integrate => ["integrate-ready-candidate"]
  | .evaluate => ["evaluate-integrated-candidate"]

/-- Whether the slots are those of the operation. -/
def slotsFitOperation (operation : WorkDelegationOperation)
    (slots : List WorkDelegationExecutionSlot) : Bool :=
  match operation with
  | .integrate => slots.isEmpty
  | .continue => decide (agentRoles slots = [.builder]) && decide (slots.length = 1)
  | .evaluate => decide (agentRoles slots = [.reviewer])

/-- `reservationParts`, of the members left after its charges. -/
def reservationParts (value : JsonObject) : Except FoundationError ReservationParts := do
  let selected ← object (some (.object value)) ["schema", "reservationId", "delegation",
    "activityId", "operation", "decision", "slots"]
  failIf (asString (member "schema" selected) ≠ some reservationSchema)
    (invalid "reservation-operation")
  let operation ← orFail ((asString (member "operation" selected)).bind parseOperation)
    (invalid "reservation-operation")
  let decision ← object (member "decision" selected) ["journalHead", "basisDigest", "reason"]
  let head ← object (member "journalHead" decision) ["sequence", "digest"]
  let reason ← orFail (asString (member "reason" decision)) (invalid "decision-reason")
  failIf (reason ∉ decisionReasons operation) (invalid "decision-reason")
  let slotInputs ← arrayItems (member "slots" selected) (invalid "slot-bound")
  failIf (maximumSlots < slotInputs.length) (invalid "slot-bound")
  let slots ← slotInputs.mapM executionSlot
  failIf (slotsOrdered slots = false) (invalid "slot-order")
  failIf (¬ (checkSelections slots).Nodup) (invalid "duplicate-check-selection")
  failIf (slotsFitOperation operation slots = false) (invalid "operation-slots")
  let reservationId ← identifier (member "reservationId" selected)
  let delegation ← exactReference "work-delegation" (member "delegation" selected)
  let activityId ← identifier (member "activityId" selected)
  let headSequence ← integer (member "sequence" head) 1 maxSafeInteger
  let headDigest ← digest (member "digest" head)
  let basisDigest ← digest (member "basisDigest" decision)
  return ⟨reservationId, delegation, activityId, operation, headSequence, headDigest,
    basisDigest, reason, slots⟩

end WorkDelegation

/-- `addWorkDelegationAccounting`. -/
def addWorkDelegationAccounting (left right : WorkDelegationAccounting) :
    Except FoundationError WorkDelegationAccounting := do
  let before ← parseWorkDelegationAccounting (some (accountingJson left))
  let added ← parseWorkDelegationAccounting (some (accountingJson right))
  parseWorkDelegationAccounting (some (accountingJson {
    operations := before.operations + added.operations
    agentAttempts := before.agentAttempts + added.agentAttempts
    reservedCellWallTimeMs := before.reservedCellWallTimeMs + added.reservedCellWallTimeMs }))

namespace WorkDelegation

/-- The charges of one slot. -/
def slotCharges (slot : WorkDelegationExecutionSlot) : WorkDelegationAccounting where
  operations := 0
  agentAttempts := match slot with
    | .agent .. => 1
    | .check .. => 0
  reservedCellWallTimeMs := slotWallTimeMs slot

/-- The charges of a reservation: one operation and its slots. -/
def reservationCharges (slots : List WorkDelegationExecutionSlot) :
    Except FoundationError WorkDelegationAccounting :=
  slots.foldlM (fun charges slot => addWorkDelegationAccounting charges (slotCharges slot))
    { operations := 1, agentAttempts := 0, reservedCellWallTimeMs := 0 }

/-- The bound of a complete delegated opening. -/
def checkOpeningBound (reservation : WorkDelegationReservation) :
    Except FoundationError Unit :=
  match canonicalControlEventJsonObject [
      ("activityId", .string reservation.activityId),
      ("operation", .string (operationText reservation.operation)),
      ("reservation", reservationJson reservation)] "Delegated Activity opening" with
  | .ok _ => .ok ()
  | .error e =>
    if e.code = "lifecycle.control-record-store.json-bounds" then
      .error {
        code := "lifecycle.work-delegation.resource-limit"
        message := "The complete delegated Activity reservation exceeds the Control opening bound; select explicit manual work or a smaller lawful delegated operation"
        reason := some "activity-opening-bound" }
    else .error e

end WorkDelegation

/-- **`compileWorkDelegationReservation`.** -/
def compileWorkDelegationReservation (value : JsonObject) :
    Except FoundationError WorkDelegationReservation := do
  let selected ← reservationParts value
  let charges ← reservationCharges selected.slots
  let reservation : WorkDelegationReservation := { toReservationParts := selected, charges }
  checkOpeningBound reservation
  return reservation

/-- **`parseWorkDelegationReservation`.** -/
def parseWorkDelegationReservation (value : Json) :
    Except FoundationError WorkDelegationReservation := do
  let selected ← object (some value) ["schema", "reservationId", "delegation", "activityId",
    "operation", "decision", "charges", "slots"]
  let compiled ← compileWorkDelegationReservation (selected.filter fun m => m.1 ≠ "charges")
  let charges ← parseWorkDelegationAccounting (member "charges" selected)
  let retainedDigest ← digestCanonical (accountingJson charges)
  let compiledDigest ← digestCanonical (accountingJson compiled.charges)
  failIf (retainedDigest ≠ compiledDigest) (invalid "reservation-charges")
  return compiled

/-! ## Allowance -/

namespace WorkDelegation

/-- The first agent slot. -/
def agentSlot (slots : List WorkDelegationExecutionSlot) :
    Option (DelegatedRole × WorkDelegationAgentSelection) :=
  slots.findSome? fun
    | .agent _ role selection => some (role, selection)
    | .check .. => none

/-- Whether the agent slot's selection differs from the delegated one. -/
def selectionDiffers (grant : WorkDelegationPayload)
    (slots : List WorkDelegationExecutionSlot) : Except FoundationError Bool :=
  match agentSlot slots with
  | none => .ok false
  | some (role, selection) => do
    let selected := match role with
      | .builder => grant.builder
      | .reviewer => grant.reviewer
    let actual ← digestCanonical (agentSelectionJson selection)
    let expected ← digestCanonical (orNull agentSelectionJson selected)
    return decide (actual ≠ expected)

end WorkDelegation

/-- **`assessWorkDelegationAllowance`.** -/
def assessWorkDelegationAllowance (delegation : WorkDelegationPayload)
    (accounting : WorkDelegationAccounting) (reserved : WorkDelegationReservation)
    (observed : String) (stopped : Bool) : Except FoundationError WorkDelegationAllowance := do
  let grant ← parseWorkDelegationPayload (payloadJson delegation)
  let charged ← parseWorkDelegationAccounting (some (accountingJson accounting))
  let reservation ← parseWorkDelegationReservation (reservationJson reserved)
  let observedAt ← time (some (.string observed))
  let prospective ← addWorkDelegationAccounting charged reservation.charges
  let differs ← selectionDiffers grant reservation.slots
  let reason : AllowanceReason :=
    if stopped then .stopped
    else if ∃ e ∈ grant.expiresAt, Timestamp.dateLe e observedAt = true then .expired
    else if reservation.operation ∉ grant.allowedOperations then .operationNotDelegated
    else if differs then .selectionMismatch
    else if grant.ceilings.operations < prospective.operations then .operationsExhausted
    else if grant.ceilings.agentAttempts < prospective.agentAttempts then
      .agentAttemptsExhausted
    else if grant.ceilings.reservedCellWallTimeMs < prospective.reservedCellWallTimeMs then
      .cellWallTimeExhausted
    else .withinAllowance
  return { allowed := decide (reason = .withinAllowance), reason, charged, prospective }

/-! ## Stop requests -/

/-- `WorkDelegationStopRequest`. -/
structure WorkDelegationStopRequest where
  storeId : String
  processId : String
  delegation : WorkDelegationReference
  requestedBy : String
  requestedAt : String
  digest : Sha256Digest
deriving DecidableEq

namespace WorkDelegation

/-- The error of a stop request outside its contract. -/
def stopInvalid : FoundationError where
  code := "lifecycle.work-delegation.stop-request-invalid"
  message := "A stop request must bind one exact Delivery, delegation, Director and request time"

/-- An identity of a stop request. -/
def stopIdentifier (value : String) : Except FoundationError String := do
  failIf (value.toList.any isLineSeparator = true) stopInvalid
  controlIdentifier value "Stop request identity"

/-- The members of a stop request but its digest. -/
def stopRequestBody (r : WorkDelegationStopRequest) : JsonObject := [
  ("schema", .string stopRequestSchema), ("storeId", .string r.storeId),
  ("processId", .string r.processId), ("delegation", referenceJson r.delegation),
  ("requestedBy", .string r.requestedBy), ("requestedAt", .string r.requestedAt)]

end WorkDelegation

/-- **`compileWorkDelegationStopRequest`.** -/
def compileWorkDelegationStopRequest (storeId processId : String)
    (delegation : WorkDelegationReference) (requestedBy requestedAt : String) :
    Except FoundationError WorkDelegationStopRequest := do
  failIf (delegation.kind ≠ "work-delegation" ∨ delegation.revision < 1
    ∨ maxSafeInteger < delegation.revision) stopInvalid
  let storeId ← stopIdentifier storeId
  let processId ← stopIdentifier processId
  let id ← stopIdentifier delegation.id
  failIf (isSha256 delegation.digest = false) stopInvalid
  let requestedBy ← stopIdentifier requestedBy
  let requestedAt ← controlTimestamp requestedAt "Stop request time"
  let body : WorkDelegationStopRequest :=
    { storeId, processId, delegation := { delegation with id }, requestedBy, requestedAt,
      digest := "" }
  let digest ← digestCanonical (.object (stopRequestBody body))
  let _ ← canonicalControlEventJsonObject
    (stopRequestBody body ++ [("digest", .string digest)]) "Stop request"
  return { body with digest }
