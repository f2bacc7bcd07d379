import Lifecycle.TimeOrder

/-!
# The reclamation ledger

The private ledger of retired executions
(`execution/reclamation-ledger-v1.ts`). A handoff is accepted once and
never changes; its standing is claimed under a lease and completed by an
observation. A claimant reads the standing it starts from, compiles the
next one, and writes it in a transaction that compares every column with
what was read. Between the two any other claimant may act: an update that
was compiled is in flight until it runs.

The input of an acceptance and the handoff a claim carries are taken as
they were parsed (`handoffCore`, `parseHandoff`): a handoff is its digests,
what a later step compares, and its retained text.
-/

open Fallible Json ControlModel Timestamp

namespace ReclamationLedger

/-- The errors of the ledger. -/
def ledgerError (code message : String) : FoundationError :=
  lifecycleError s!"lifecycle.execution.reclamation-ledger-v1.{code}" message

/-! ## Records -/

/-- `FoundationExecutionReclamationOwnerV1["kind"]`. -/
inductive OwnerKind
  | agentAttempt
  | check
deriving DecidableEq

/-- `FoundationExecutionReclamationOwnerV1`. -/
structure Owner where
  storeId : String
  processId : String
  activityId : String
  kind : OwnerKind
  subjectDigest : Sha256Digest
deriving DecidableEq

/-- `FoundationExecutionBackendProfileReferenceV1`. -/
structure BackendProfileReference where
  profileId : String
  profileDigest : Sha256Digest
  implementationDigest : Sha256Digest
deriving DecidableEq

/-- `FoundationExecutionReclamationHandoffV1`, parsed. -/
structure Handoff where
  installationId : String
  owner : Owner
  specificationDigest : Sha256Digest
  specificationProfile : BackendProfileReference
  handle : String
  reclamationBindingDigest : Sha256Digest
  obligationDigest : Sha256Digest
  obligationSpecificationDigest : Sha256Digest
  obligationProfile : BackendProfileReference
  retirementDigest : Sha256Digest
  dispatchAuthorityConsumed : Bool
  acceptedAt : String
  coreDigest : Sha256Digest
  digest : Sha256Digest
  /-- The canonical text that is retained. -/
  text : List UInt8
deriving DecidableEq

/-- `FoundationExecutionReclamationStandingStateV1`. -/
inductive StandingState
  | pending
  | claimed
  | reclaimed
  | integrityRefusal
deriving DecidableEq

/-- `FoundationExecutionReclamationObservationV1["disposition"]`. -/
inductive Disposition
  | reclaimed
  | remaining
  | integrityRefusal
deriving DecidableEq

/-- `FoundationExecutionReclamationObservationV1`. -/
structure Observation where
  schema : String
  specificationDigest : Sha256Digest
  obligationDigest : Sha256Digest
  observedAt : String
  disposition : Disposition
  factsDigest : Sha256Digest
  digest : Sha256Digest
deriving DecidableEq

/-- `FoundationExecutionReclamationStandingV1`. -/
structure Standing where
  obligationDigest : Sha256Digest
  generation : Nat
  state : StandingState
  attemptCount : Nat
  nextAttemptAt : Option String
  claimToken : Option String
  claimExpiresAt : Option String
  lastObservation : Option Observation
  updatedAt : String
  digest : Sha256Digest
deriving DecidableEq

/-- `FoundationExecutionReclamationClaimV1`. -/
structure Claim where
  handoff : Handoff
  standingGeneration : Nat
  standingDigest : Sha256Digest
  claimToken : String
  claimedAt : String
  expiresAt : String
  digest : Sha256Digest
deriving DecidableEq

/-- The state an observation's disposition leaves. -/
def stateAfter : Disposition → StandingState
  | .remaining => .pending
  | .reclaimed => .reclaimed
  | .integrityRefusal => .integrityRefusal

/-- Whether a state is never left. -/
def StandingState.Terminal (s : StandingState) : Prop := s = .reclaimed ∨ s = .integrityRefusal

instance (s : StandingState) : Decidable s.Terminal :=
  inferInstanceAs (Decidable (_ ∨ _))

/-! ## Bounds and texts -/

/-- `MAXIMUM_HANDOFFS`. -/
def maximumHandoffs : Nat := 10000

/-- `MINIMUM_LEASE_MILLISECONDS`. -/
def minimumLeaseMilliseconds : Nat := 1000

/-- `MAXIMUM_LEASE_MILLISECONDS`. -/
def maximumLeaseMilliseconds : Nat := 5 * 60 * 1000

/-- `MAXIMUM_RETRY_MILLISECONDS`. -/
def maximumRetryMilliseconds : Nat := 60 * 1000

def decimalDigit (b : UInt8) : Bool := Nat.ble 48 b.toNat && Nat.ble b.toNat 57

/-- Whether bytes follow a template, in which `d` stands for a digit. -/
def followsTemplate : List Char → List UInt8 → Bool
  | [], [] => true
  | 'd' :: ts, b :: bs => decimalDigit b && followsTemplate ts bs
  | t :: ts, b :: bs => decide (b.toNat = t.toNat) && followsTemplate ts bs
  | _, _ => false

/-- `CANONICAL_TIME_PATTERN`. -/
def matchesTimePattern (value : String) : Bool :=
  followsTemplate "dddd-dd-ddTdd:dd:dd.dddZ".toList (utf8Bytes value)

/-- Whether a text is a canonical timestamp with milliseconds. -/
def isTimestamp (value : String) : Bool :=
  matchesTimePattern value && decide ((dateParse value).map toISOString = some value)

/-- `timestamp`. -/
def timestamp (value label : String) : Except FoundationError String := do
  failIf (isTimestamp value = false)
    (ledgerError "time" s!"{label} is not one canonical UTC millisecond timestamp")
  return value

/-- A nullable timestamp. -/
def nullableTimestamp (value : Option String) (label : String) : Except FoundationError Unit :=
  failIf (∃ text ∈ value, isTimestamp text = false)
    (ledgerError "time" s!"{label} is not one canonical UTC millisecond timestamp")

/-- `digest`. -/
def assertDigest (value : Sha256Digest) (label : String) : Except FoundationError Unit :=
  failIf (isSha256 value = false)
    (ledgerError "digest" s!"{label} is not one exact SHA-256 digest")

/-- `CLAIM_TOKEN_PATTERN`. -/
def isClaimToken (value : String) : Bool :=
  let bytes := utf8Bytes value
  let scheme := utf8Bytes "reclamation-claim-v1:"
  decide (bytes.length = 85) && decide (bytes.take 21 = scheme) && (bytes.drop 21).all hexClass

/-- `new Date(t).toISOString()`, which throws outside the range of a time
value. -/
def instantText (t : Int) : Except FoundationError String := do
  failIf (maxTimeValue < t.natAbs) (ledgerError "time" "Invalid time value")
  return toISOString t

/-- The instant of a canonical timestamp that is a number of milliseconds
later. -/
def later (value : String) (milliseconds : Nat) : Except FoundationError String := do
  let t ← orFail (dateParse value) (ledgerError "time" "Invalid time value")
  instantText (t + milliseconds)

/-- `left < right` of two texts. -/
def textLt (left right : String) : Bool := !codeUnitLe right left

/-- The last of three texts in the order of their code points. -/
def latest (a b c : String) : String :=
  let greater := if codePointLe a b then b else a
  if codePointLe greater c then c else greater

/-! ## Observations -/

def dispositionText : Disposition → String
  | .reclaimed => "reclaimed"
  | .remaining => "remaining"
  | .integrityRefusal => "integrity-refusal"

def observationSchema : String := "lifecycle.execution-reclamation-observation.private.v1"

/-- An observation as JSON. -/
def observationMembers (o : Observation) : JsonObject :=
  [("digest", .string o.digest), ("disposition", .string (dispositionText o.disposition)),
    ("factsDigest", .string o.factsDigest), ("obligationDigest", .string o.obligationDigest),
    ("observedAt", .string o.observedAt), ("schema", .string o.schema),
    ("specificationDigest", .string o.specificationDigest)]

/-- **`parseExecutionReclamationObservation`** of an object with exactly
the members of an observation. The envelope of the handoff's obligation was
checked when the handoff was parsed. -/
def parseExecutionReclamationObservation (o : Observation) (handoff : Handoff) :
    Except FoundationError Observation := do
  let digest ← selfDigest (observationMembers o)
  failIf (o.schema ≠ observationSchema
      ∨ o.specificationDigest ≠ handoff.specificationDigest
      ∨ handoff.obligationSpecificationDigest ≠ handoff.specificationDigest
      ∨ handoff.obligationProfile ≠ handoff.specificationProfile
      ∨ o.obligationDigest ≠ handoff.obligationDigest
      ∨ isSha256 o.factsDigest = false ∨ isTimestamp o.observedAt = false
      ∨ o.digest ≠ digest)
    (lifecycleError "lifecycle.execution.reclamation-invalid"
      "Execution Reclamation Observation does not bind one exact result for its Specification")
  return o

/-! ## Standings -/

def stateText : StandingState → String
  | .pending => "pending"
  | .claimed => "claimed"
  | .reclaimed => "reclaimed"
  | .integrityRefusal => "integrity-refusal"

def standingSchema : String := "lifecycle.execution-reclamation-standing.private.v1"

/-- A standing as JSON, without its digest. -/
def standingMembers (s : Standing) : JsonObject :=
  [("attemptCount", nat s.attemptCount), ("claimExpiresAt", textOrNull s.claimExpiresAt),
    ("claimToken", textOrNull s.claimToken), ("generation", nat s.generation),
    ("lastObservation", match s.lastObservation with
      | some o => .object (observationMembers o)
      | none => .null),
    ("nextAttemptAt", textOrNull s.nextAttemptAt),
    ("obligationDigest", .string s.obligationDigest), ("schema", .string standingSchema),
    ("state", .string (stateText s.state)), ("updatedAt", .string s.updatedAt)]

/-- Which columns a state has. -/
def hasStateShape (s : Standing) : Bool :=
  match s.state with
  | .pending => s.nextAttemptAt.isSome && s.claimToken.isNone && s.claimExpiresAt.isNone
  | .claimed => s.nextAttemptAt.isNone && s.claimToken.isSome && s.claimExpiresAt.isSome
  | _ => s.nextAttemptAt.isNone && s.claimToken.isNone && s.claimExpiresAt.isNone
      && s.lastObservation.isSome

/-- Whether a standing contradicts the history of its direct results. -/
def contradictsHistory (s : Standing) : Prop :=
  (s.state = .reclaimed ∧ s.lastObservation.map (·.disposition) ≠ some .reclaimed)
    ∨ (s.state = .integrityRefusal
      ∧ s.lastObservation.map (·.disposition) ≠ some .integrityRefusal)
    ∨ ((s.state = .pending ∨ s.state = .claimed)
      ∧ ∃ o ∈ s.lastObservation, o.disposition ≠ .remaining)
    ∨ ((s.state = .claimed ∨ s.state.Terminal ∨ s.lastObservation ≠ none) ∧ s.attemptCount < 1)

instance (s : Standing) : Decidable (contradictsHistory s) :=
  inferInstanceAs (Decidable (_ ∨ _ ∨ _ ∨ _))

/-- **`compileStanding`**: the standing with its digest. -/
def compileStanding (input : Standing) : Except FoundationError Standing := do
  failIf (input.generation < 1 ∨ maxSafeInteger < input.generation
      ∨ maxSafeInteger < input.attemptCount)
    (ledgerError "standing-integrity" "Execution Reclamation standing has invalid counters")
  assertDigest input.obligationDigest "Execution Reclamation standing obligation"
  let _ ← timestamp input.updatedAt "Execution Reclamation standing update"
  failIf (hasStateShape input = false)
    (ledgerError "standing-integrity"
      "Execution Reclamation standing has an invalid state shape")
  nullableTimestamp input.nextAttemptAt "Execution Reclamation retry"
  nullableTimestamp input.claimExpiresAt "Execution Reclamation claim expiry"
  failIf (∃ token ∈ input.claimToken, isClaimToken token = false)
    (ledgerError "standing-integrity"
      "Execution Reclamation standing has an invalid claim token")
  failIf (∃ o ∈ input.lastObservation, o.obligationDigest ≠ input.obligationDigest)
    (ledgerError "standing-integrity"
      "Execution Reclamation standing observation selects another obligation")
  failIf (contradictsHistory input)
    (ledgerError "standing-integrity"
      "Execution Reclamation standing contradicts its direct result history")
  let digest ← digestCanonical (.object (standingMembers input))
  return { input with digest }

def claimSchema : String := "lifecycle.execution-reclamation-claim.private.v1"

/-- The canonical text of a claim without its digest: its members in the
order of their names, the retained text of its handoff among them. -/
def claimText (c : Claim) : Except FoundationError (List UInt8) := do
  let times ← canonicalJson (.object [("claimToken", .string c.claimToken),
    ("claimedAt", .string c.claimedAt), ("expiresAt", .string c.expiresAt)])
  let coordinates ← canonicalJson (.object [("schema", .string claimSchema),
    ("standingDigest", .string c.standingDigest),
    ("standingGeneration", nat c.standingGeneration)])
  let handoffName := utf8Bytes ",\"handoff\":"
  return times.dropLast ++ handoffName ++ c.handoff.text ++ utf8Bytes "," ++ coordinates.drop 1

/-- **`compileClaim`**: the claim with its digest. -/
def compileClaim (input : Claim) : Except FoundationError Claim := do
  failIf (input.standingGeneration < 1 ∨ maxSafeInteger < input.standingGeneration
      ∨ isClaimToken input.claimToken = false)
    (ledgerError "claim" "Execution Reclamation claim has invalid coordinates")
  assertDigest input.standingDigest "Execution Reclamation claim standing"
  let claimedAt ← timestamp input.claimedAt "Execution Reclamation claim time"
  let expiresAt ← timestamp input.expiresAt "Execution Reclamation claim expiry"
  failIf (codeUnitLe expiresAt claimedAt = true)
    (ledgerError "claim" "Execution Reclamation claim expiry is not later")
  let text ← claimText input
  return { input with digest := sha256Bytes text }

/-! ## Rows -/

/-- A row of `standings`, but its key. The text of an observation stands
for the observation it is the canonical text of. -/
structure StandingRow where
  generation : Nat
  state : StandingState
  attemptCount : Nat
  nextAttemptAt : Option String
  claimToken : Option String
  claimExpiresAt : Option String
  lastObservationDigest : Option Sha256Digest
  lastObservation : Option Observation
  updatedAt : String
  standingDigest : Sha256Digest
deriving DecidableEq

/-- `standingParameters`. -/
def standingParameters (s : Standing) : StandingRow where
  generation := s.generation
  state := s.state
  attemptCount := s.attemptCount
  nextAttemptAt := s.nextAttemptAt
  claimToken := s.claimToken
  claimExpiresAt := s.claimExpiresAt
  lastObservationDigest := s.lastObservation.map (·.digest)
  lastObservation := s.lastObservation
  updatedAt := s.updatedAt
  standingDigest := s.digest

/-- The observation of a row, parsed again. -/
def rowObservation (row : StandingRow) (handoff : Handoff) :
    Except FoundationError (Option Observation) :=
  match row.lastObservation with
  | some o => do
    let observation ← parseExecutionReclamationObservation o handoff
    failIf (row.lastObservationDigest ≠ some observation.digest)
      (ledgerError "standing-integrity"
        "Retained Reclamation observation columns substituted bytes")
    return some observation
  | none => do
    failIf (row.lastObservationDigest ≠ none)
      (ledgerError "standing-integrity" "Retained Reclamation observation is incomplete")
    return none

/-- **`rowStanding`**: the standing computed from a stored row. -/
def rowStanding (row : StandingRow) (handoff : Handoff) : Except FoundationError Standing := do
  let lastObservation ← rowObservation row handoff
  let standing ← compileStanding {
    obligationDigest := handoff.obligationDigest
    generation := row.generation
    state := row.state
    attemptCount := row.attemptCount
    nextAttemptAt := row.nextAttemptAt
    claimToken := row.claimToken
    claimExpiresAt := row.claimExpiresAt
    lastObservation
    updatedAt := row.updatedAt
    digest := "" }
  failIf (row.standingDigest ≠ standing.digest)
    (ledgerError "standing-integrity"
      "Execution Reclamation standing columns substituted retained bytes")
  return standing

/-- The tables of the ledger, keyed by the obligation. -/
structure Ledger where
  handoffs : OrderedMap Sha256Digest Handoff := ∅
  standings : OrderedMap Sha256Digest StandingRow := ∅

/-! ## Acceptance -/

/-- Whether two handoffs share a value of some unique index. -/
def Handoff.Duplicates (a b : Handoff) : Prop :=
  a.coreDigest = b.coreDigest ∨ a.digest = b.digest
    ∨ a.specificationDigest = b.specificationDigest ∨ a.handle = b.handle
    ∨ a.reclamationBindingDigest = b.reclamationBindingDigest
    ∨ a.retirementDigest = b.retirementDigest
    ∨ (a.owner.kind = .agentAttempt ∧ b.owner.kind = .agentAttempt
      ∧ a.owner.storeId = b.owner.storeId ∧ a.owner.processId = b.owner.processId
      ∧ a.owner.activityId = b.owner.activityId
      ∧ a.owner.subjectDigest = b.owner.subjectDigest)

instance (a b : Handoff) : Decidable (a.Duplicates b) :=
  inferInstanceAs (Decidable (_ ∨ _))

/-- The standing an acceptance begins with. -/
def initialStanding (candidate : Handoff) : Standing where
  obligationDigest := candidate.obligationDigest
  generation := 1
  state := .pending
  attemptCount := 0
  nextAttemptAt := some candidate.acceptedAt
  claimToken := none
  claimExpiresAt := none
  lastObservation := none
  updatedAt := candidate.acceptedAt
  digest := ""

/-- Whether a standing row shares a value of some unique index with the row
of another obligation. -/
def rowConflict (ledger : Ledger) (obligation : Sha256Digest) (row : StandingRow) : Prop :=
  ∃ e ∈ ledger.standings.entries, e.1 ≠ obligation
    ∧ (row.claimToken ≠ none ∧ e.2.claimToken = row.claimToken
      ∨ e.2.standingDigest = row.standingDigest)

instance (ledger : Ledger) (obligation : Sha256Digest) (row : StandingRow) :
    Decidable (rowConflict ledger obligation row) :=
  inferInstanceAs (Decidable (∃ e ∈ ledger.standings.entries, _))

/-- **`accept`**: the ledger, with the handoff and its first standing when
the obligation is new. -/
def accept (ledger : Ledger) (candidate : Handoff) : Except FoundationError (Handoff × Ledger) := do
  let _ ← timestamp candidate.acceptedAt "Execution Reclamation handoff acceptance"
  let initial ← compileStanding (initialStanding candidate)
  match ledger.handoffs.get candidate.obligationDigest with
  | some existing =>
    -- A lost-response retry reuses the row when every other byte is exact.
    failIf (existing.coreDigest ≠ candidate.coreDigest
        ∨ { existing with acceptedAt := "", digest := "", text := [] }
          ≠ { candidate with acceptedAt := "", digest := "", text := [] })
      (ledgerError "handoff-substitution"
        "Reclamation obligation replay substituted handoff bytes")
    return (existing, ledger)
  | none =>
    failIf (maximumHandoffs ≤ ledger.handoffs.entries.length)
      (ledgerError "bound" "Execution Reclamation ledger reached its retained handoff bound")
    failIf (∃ h ∈ ledger.handoffs.values, h.Duplicates candidate)
      (ledgerError "handoff-duplicate"
        "Execution Reclamation handoff duplicates another exact owner or allocation")
    failIf (rowConflict ledger candidate.obligationDigest (standingParameters initial))
      (ledgerError "database-cas" "Reclamation standing was not inserted")
    return (candidate, { ledger with
      handoffs := ledger.handoffs.set candidate.obligationDigest candidate
      standings := ledger.standings.set candidate.obligationDigest (standingParameters initial) })

/-! ## Claims -/

/-- What an update in flight is for. -/
inductive UpdateKind
  | claim
  /-- A completion, with the generation its claim was granted at. -/
  | completion (claimGeneration : Nat)
deriving DecidableEq

/-- An update that was compiled from what was read and has not run. -/
structure PendingUpdate where
  kind : UpdateKind
  handoff : Handoff
  prior : Standing
  next : Standing
deriving DecidableEq

/-- Whether a standing may be claimed at a time. -/
def claimable (sampledAt : String) (row : StandingRow) : Bool :=
  match row.state with
  | .pending => row.nextAttemptAt.any fun due => !binaryLt sampledAt due
  | .claimed => row.claimExpiresAt.any fun expiry => !binaryLt sampledAt expiry
  | _ => false

/-- The handoffs whose standing may be claimed, in the order they are
inspected in. -/
def claimCandidates (ledger : Ledger) (sampledAt : String) : List (Handoff × StandingRow) :=
  let joined := ledger.handoffs.entries.filterMap fun e =>
    (ledger.standings.get e.1).map fun row => (e.2, row)
  (joined.filter fun c => claimable sampledAt c.2).mergeSort fun a b =>
    binaryLt a.1.acceptedAt b.1.acceptedAt
      || (decide (a.1.acceptedAt = b.1.acceptedAt)
        && !binaryLt b.1.obligationDigest a.1.obligationDigest)

/-- The first candidate that is eligible, each standing inspected on the
way. -/
def selectCandidate (eligible : Handoff → Bool) :
    Nat → List (Handoff × StandingRow) → Except FoundationError (Option (Handoff × Standing))
  | _, [] => .ok none
  | inspected, (handoff, row) :: rest => do
    failIf (maximumHandoffs < inspected + 1)
      (ledgerError "bound" "Execution Reclamation selection exceeds its retained handoff bound")
    let standing ← rowStanding row handoff
    if eligible handoff then return some (handoff, standing)
    else selectCandidate eligible (inspected + 1) rest

/-- What a claimant supplies: its clock, the lease it asks for, which
handoffs it can reclaim, and a token. -/
structure ClaimRequest where
  sampledAt : String
  leaseMilliseconds : Nat
  eligible : Handoff → Bool
  claimToken : String

/-- The standing of a handoff once it is claimed. -/
def claimedStanding (handoff : Handoff) (prior : Standing) (claimToken claimedAt expiresAt : String) :
    Standing where
  obligationDigest := handoff.obligationDigest
  generation := prior.generation + 1
  state := .claimed
  attemptCount := prior.attemptCount + 1
  nextAttemptAt := none
  claimToken := some claimToken
  claimExpiresAt := some expiresAt
  lastObservation := prior.lastObservation
  updatedAt := claimedAt
  digest := ""

/-- **`claimNext`** up to its transaction: the claim it returns when its
update takes effect, and the update. -/
def claimNext (ledger : Ledger) (request : ClaimRequest) :
    Except FoundationError (Option (Claim × PendingUpdate)) := do
  failIf (request.leaseMilliseconds < minimumLeaseMilliseconds
      ∨ maximumLeaseMilliseconds < request.leaseMilliseconds)
    (ledgerError "claim" "Execution Reclamation lease is outside its bounded duration")
  let sampledAt ← timestamp request.sampledAt "Execution Reclamation claim time"
  let selected ← selectCandidate request.eligible 0 (claimCandidates ledger sampledAt)
  match selected with
  | none => return none
  | some (handoff, prior) =>
    failIf (maxSafeInteger ≤ prior.generation ∨ maxSafeInteger ≤ prior.attemptCount)
      (ledgerError "bound" "Execution Reclamation claim counters reached their safe bound")
    let claimedAt := if textLt sampledAt prior.updatedAt then prior.updatedAt else sampledAt
    let expiresAt ← later claimedAt request.leaseMilliseconds
    failIf (isClaimToken request.claimToken = false)
      (ledgerError "claim" "Execution Reclamation claim token is invalid")
    let standing ← compileStanding
      (claimedStanding handoff prior request.claimToken claimedAt expiresAt)
    let claim ← compileClaim {
      handoff
      standingGeneration := standing.generation
      standingDigest := standing.digest
      claimToken := request.claimToken
      claimedAt
      expiresAt
      digest := "" }
    return some (claim, ⟨.claim, handoff, prior, standing⟩)

/-! ## Completions -/

/-- The milliseconds until the next attempt. -/
def retryMilliseconds (attemptCount : Nat) : Nat :=
  min (1000 * 2 ^ min (attemptCount - 1) 16) maximumRetryMilliseconds

/-- When an attempt that left something remaining is made again. -/
def retryAt (disposition : Disposition) (updatedAt : String) (attemptCount : Nat) :
    Except FoundationError (Option String) :=
  if disposition = .remaining then do
    let due ← later updatedAt (retryMilliseconds attemptCount)
    return some due
  else .ok none

/-- The standing of a handoff once its claim is completed. -/
def completedStanding (handoff : Handoff) (prior : Standing) (observation : Observation)
    (nextAttemptAt : Option String) (updatedAt : String) : Standing where
  obligationDigest := handoff.obligationDigest
  generation := prior.generation + 1
  state := stateAfter observation.disposition
  attemptCount := prior.attemptCount
  nextAttemptAt := nextAttemptAt
  claimToken := none
  claimExpiresAt := none
  lastObservation := some observation
  updatedAt := updatedAt
  digest := ""

/-- What a completion comes to before its transaction: the retained
standing, when the observation is recorded already, or an update. -/
inductive Completion
  | recorded (standing : Standing)
  | update (pending : PendingUpdate)

/-- The handoff and the standing of an obligation, `#entryByObligation`. -/
def entryByObligation (ledger : Ledger) (obligation : Sha256Digest) :
    Except FoundationError (Option (Handoff × Standing)) :=
  match ledger.handoffs.get obligation, ledger.standings.get obligation with
  | some handoff, some row => do
    let standing ← rowStanding row handoff
    return some (handoff, standing)
  | _, _ => .ok none

/-- **`completeClaim`** up to its transaction. -/
def completeClaim (ledger : Ledger) (input : Claim) (value : Observation) (now : String) :
    Except FoundationError Completion := do
  let claim ← compileClaim input
  failIf (claim.digest ≠ input.digest)
    (ledgerError "claim" "Reclamation claim digest is invalid")
  let observation ← parseExecutionReclamationObservation value claim.handoff
  failIf (textLt observation.observedAt claim.claimedAt = true)
    (ledgerError "observation" "Reclamation result predates its exact claim")
  let completedAt ← timestamp now "Execution Reclamation result time"
  let substituted := ledgerError "handoff-substitution"
    "Reclamation result selected another immutable handoff"
  let entry ← entryByObligation ledger claim.handoff.obligationDigest
  let selected ← orFail entry substituted
  failIf (selected.1 ≠ claim.handoff) substituted
  let prior := selected.2
  if prior.lastObservation.map (·.digest) = some observation.digest then
    return .recorded prior
  else
    failIf (maxSafeInteger ≤ prior.generation)
      (ledgerError "bound"
        "Execution Reclamation standing generation reached its safe bound")
    failIf (prior.state ≠ .claimed ∨ prior.generation ≠ claim.standingGeneration
        ∨ prior.digest ≠ claim.standingDigest ∨ prior.claimToken ≠ some claim.claimToken
        ∨ prior.claimExpiresAt ≠ some claim.expiresAt
        ∨ textLt completedAt claim.claimedAt = true ∨ textLt completedAt claim.expiresAt = false
        ∨ textLt observation.observedAt claim.expiresAt = false)
      (ledgerError "claim-cas" "Reclamation result lost or exceeded its exact claim lease")
    let updatedAt := latest completedAt observation.observedAt prior.updatedAt
    let nextAttemptAt ← retryAt observation.disposition updatedAt prior.attemptCount
    let standing ← compileStanding
      (completedStanding selected.1 prior observation nextAttemptAt updatedAt)
    return .update ⟨.completion claim.standingGeneration, selected.1, prior, standing⟩

/-! ## Updates -/

/-- Whether an update takes effect: the row is, column by column, the one
it was compiled from. -/
def PendingUpdate.Effective (ledger : Ledger) (u : PendingUpdate) : Prop :=
  ledger.standings.get u.handoff.obligationDigest = some (standingParameters u.prior)

instance (ledger : Ledger) (u : PendingUpdate) : Decidable (u.Effective ledger) :=
  inferInstanceAs (Decidable (_ = _))

/-- **The transaction of an update**: it fails on a value that is not
unique, and changes nothing when the standing has moved. -/
def runUpdate (ledger : Ledger) (u : PendingUpdate) : Except FoundationError Ledger :=
  if u.Effective ledger then do
    failIf (rowConflict ledger u.handoff.obligationDigest (standingParameters u.next))
      (ledgerError "database-cas" "UNIQUE constraint failed")
    return { ledger with standings :=
      ledger.standings.set u.handoff.obligationDigest (standingParameters u.next) }
  else .ok ledger

end ReclamationLedger
