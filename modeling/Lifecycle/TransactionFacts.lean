import Lifecycle.ControlModel

/-!
# Transaction observation facts

The facts a transaction activity retains with its observation
(`process/transaction-observation-facts-v7.ts`): their closed forms, and
what each form says of the operation, the decision and the outcome it is
retained for.
-/

open Fallible Json ControlModel

/-- `TransactionEffectOutcome`. -/
inductive TransactionOutcome
  | applied
  | notApplied
  | indeterminate
deriving DecidableEq

/-- `FoundationTransactionDecisionKindV7`, the reducer's `DirectorDecision`. -/
inductive DirectorDecision
  | admission
  | readmission
  | acceptance
  | noShip
deriving DecidableEq

/-- The transaction operations facts are retained for, and any other. -/
inductive FactsOperation
  | admitDelivery
  | acceptDelivery
  | noShipDelivery
  | other
deriving DecidableEq

namespace TransactionFacts

def admissionSchema : String := "lifecycle.admission-effect-observation-facts.v2"
def repositorySchema : String := "lifecycle.terminal-repository-effect-observation.v1"
def acceptanceSchema : String := "lifecycle.terminal-acceptance-effect-observation.v2"
def detachedSchema : String := "lifecycle.terminal-detached-canonical-effect-observation.v1"
def failureSchema : String := "lifecycle.terminal-effect-failure.v1"

/-- The errors of transaction observation facts. -/
def factsError (code message : String) : FoundationError :=
  lifecycleError s!"lifecycle.transaction-observation-facts-v7.{code}" message

/-- An outcome as it is written. -/
def outcomeText : TransactionOutcome → String
  | .applied => "applied"
  | .notApplied => "not-applied"
  | .indeterminate => "indeterminate"

/-! ## Reading members -/

def object (value : Option Json) (label : String) : Except FoundationError JsonObject :=
  match value with
  | some (.object o) => .ok o
  | _ => .error (factsError "shape" s!"{label} must be one exact object")

def exactKeys (value : JsonObject) (expected : List String) (label : String) :
    Except FoundationError Unit :=
  failIf (sortKeys (keys value) ≠ sortKeys expected)
    (factsError "shape" (s!"{label} must contain exactly " ++
      ", ".intercalate (sortKeys expected)))

def string (value : Option Json) (label : String) : Except FoundationError String :=
  orFail (asString value) (factsError "shape" s!"{label} must be one string")

def digest (value : Option Json) (label : String) : Except FoundationError Sha256Digest := do
  let selected ← string value label
  failIf (isSha256 selected = false)
    (factsError "digest" s!"{label} must be one lowercase SHA-256 digest")
  return selected

def nullableDigest (value : Option Json) (label : String) :
    Except FoundationError (Option Sha256Digest) :=
  match value with
  | some .null => .ok none
  | v => do
    let d ← digest v label
    return some d

def identifier (value : Option Json) (label : String) : Except FoundationError String := do
  let selected ← string value label
  failIf (isIdentifier selected = false)
    (factsError "identity" s!"{label} must be one bounded opaque identity")
  return selected

/-- `GIT_OBJECT`, `/^[a-f0-9]{40}(?:[a-f0-9]{24})?$/u`. -/
def isGitObject (s : String) : Bool :=
  let bytes := utf8Bytes s
  (decide (bytes.length = 40) || decide (bytes.length = 64)) && bytes.all hexClass

def gitObject (value : Option Json) (label : String) : Except FoundationError String := do
  let selected ← string value label
  failIf (isGitObject selected = false)
    (factsError "git-object" s!"{label} must be one full Git object identity")
  return selected

/-- `GIT_REF` within 512 bytes: a branch name under `refs/heads/` of
letters, digits, dots, underscores, slashes and hyphens, the first a letter
or a digit. -/
def isGitRef (s : String) : Bool :=
  let bytes := utf8Bytes s
  decide (bytes.take 11 = utf8Bytes "refs/heads/") &&
    (match bytes.drop 11 with
      | [] => false
      | b :: bs => alphanumeric b && bs.all fun b => alphanumeric b || Nat.beq b.toNat 46
          || Nat.beq b.toNat 95 || Nat.beq b.toNat 47 || Nat.beq b.toNat 45)
    && decide (bytes.length ≤ 512)

def gitRef (value : Option Json) (label : String) : Except FoundationError String := do
  let selected ← string value label
  failIf (isGitRef selected = false)
    (factsError "git-ref" s!"{label} must be one bounded canonical branch ref")
  return selected

/-- The length of an object identity in a format. -/
def objectLength (format : String) : Nat := if format = "sha1" then 40 else 64

/-- `repositoryCoordinate`: the object format of a checked coordinate. -/
def repositoryCoordinate (value : JsonObject) (label : String) :
    Except FoundationError String := do
  exactKeys value ["ref", "commit", "tree", "objectFormat"] label
  let _ ← gitRef (member "ref" value) s!"{label} ref"
  let format ← orFail (asString (member "objectFormat" value))
    (factsError "shape" s!"{label} object format is unsupported")
  failIf (format ≠ "sha1" ∧ format ≠ "sha256")
    (factsError "shape" s!"{label} object format is unsupported")
  let commit ← gitObject (member "commit" value) s!"{label} commit"
  let tree ← gitObject (member "tree" value) s!"{label} tree"
  failIf (byteLength commit ≠ objectLength format ∨ byteLength tree ≠ objectLength format)
    (factsError "git-object-format"
      s!"{label} Git object lengths must match its declared object format")
  return format

/-- The members of `facts` a coordinate is made of, with the given commit
and tree. -/
def coordinateOf (facts : JsonObject) (commit tree : Option Json) : JsonObject :=
  [("ref", member "ref" facts), ("commit", commit), ("tree", tree),
    ("objectFormat", member "objectFormat" facts)].filterMap fun m => m.2.map (m.1, ·)

/-! ## The forms -/

/-- The disposition of an admission that was not applied. -/
def admissionDisposition (value : Json) : Except FoundationError JsonObject := do
  let disposition ← object (some value) "Admission disposition"
  exactKeys disposition ["outcome", "reason", "observedFactsDigest"] "Admission disposition"
  let reason := asString (member "reason" disposition)
  failIf (asString (member "outcome" disposition) ≠ some "not-applied"
    ∨ (reason ≠ some "repository-basis-mismatch"
      ∧ reason ≠ some "candidate-continuity-mismatch"))
    (factsError "shape" "Admission disposition is unsupported")
  let _ ← digest (member "observedFactsDigest" disposition)
    "Admission disposition observed facts digest"
  return disposition

/-- The disposition member: none when it is `null`. -/
def admissionDisposition? (value : Option Json) : Except FoundationError (Option JsonObject) :=
  match value with
  | some .null => .ok none
  | some v => do
    let disposition ← admissionDisposition v
    return some disposition
  | none => .error (factsError "shape" "Admission disposition must be one exact object")

def admissionFacts (value : JsonObject) : Except FoundationError Unit := do
  exactKeys value ["schema", "outcome", "disposition", "repositoryBasisDigest"]
    "Admission transaction observation facts"
  let outcome := asString (member "outcome" value)
  failIf (outcome ≠ some "applied" ∧ outcome ≠ some "not-applied"
    ∧ outcome ≠ some "indeterminate")
    (factsError "shape" "Admission transaction observation outcome is unsupported")
  let basis ← nullableDigest (member "repositoryBasisDigest" value)
    "Admission repository basis digest"
  let disposition ← admissionDisposition? (member "disposition" value)
  failIf (decide (outcome = some "not-applied") ≠ disposition.isSome)
    (factsError "outcome"
      "Admission disposition must exist exactly for a not-applied observation")
  failIf (outcome ≠ some "indeterminate" ∧ basis = none)
    (factsError "outcome"
      "Determinate Admission observation requires its repository basis digest")
  failIf (∃ d ∈ disposition, asString (member "reason" d) = some "repository-basis-mismatch"
    ∧ asString (member "observedFactsDigest" d) ≠ basis)
    (factsError "outcome"
      "Repository-basis mismatch disposition must bind the observed repository basis")

def terminalFailureFacts (value : JsonObject) : Except FoundationError Unit := do
  exactKeys value ["schema", "stage", "code"] "Terminal failure observation facts"
  failIf (asString (member "stage" value) ∉ ["repository-observation", "accepted-checkout",
    "acceptance-effect", "no-ship-non-integration"].map some)
    (factsError "shape" "Terminal failure observation stage is unsupported")
  let _ ← identifier (member "code" value) "Terminal failure observation code"

def repositoryFacts (facts : JsonObject) : Except FoundationError Unit := do
  exactKeys facts ["schema", "ref", "commit", "tree", "objectFormat"]
    "Terminal repository observation facts"
  let _ ← repositoryCoordinate (coordinateOf facts (member "commit" facts) (member "tree" facts))
    "Terminal repository coordinate"

def acceptanceFacts (facts : JsonObject) : Except FoundationError Unit := do
  exactKeys facts ["schema", "ref", "commit", "tree", "objectFormat", "canonicalResultDigest",
    "observedTip", "recognition"] "Terminal acceptance observation facts"
  let _ ← repositoryCoordinate (coordinateOf facts (member "commit" facts) (member "tree" facts))
    "Terminal acceptance repository coordinate"
  let _ ← digest (member "canonicalResultDigest" facts)
    "Terminal acceptance canonical-result digest"
  let tip ← object (member "observedTip" facts) "Terminal acceptance observed canonical tip"
  exactKeys tip ["commit", "tree"] "Terminal acceptance observed canonical tip"
  let _ ← repositoryCoordinate (coordinateOf facts (member "commit" tip) (member "tree" tip))
    "Terminal acceptance observed canonical tip"
  let recognition := asString (member "recognition" facts)
  let sameCommit := strictEq (member "commit" tip) (member "commit" facts)
  let sameTree := strictEq (member "tree" tip) (member "tree" facts)
  failIf ((recognition ≠ some "at-tip" ∧ recognition ≠ some "ancestor")
    ∨ (recognition = some "at-tip" ∧ (sameCommit = false ∨ sameTree = false))
    ∨ (recognition = some "ancestor" ∧ sameCommit = true))
    (factsError "acceptance-recognition" "Acceptance recognition must distinguish exact accepted commit from its observed canonical tip")

def detachedFacts (facts : JsonObject) : Except FoundationError Unit := do
  exactKeys facts ["schema", "attached", "canonicalRef", "canonicalCommit", "canonicalTree"]
    "Terminal detached observation facts"
  let attached ← object (member "attached" facts) "Terminal attached coordinate"
  let format ← repositoryCoordinate attached "Terminal attached coordinate"
  let _ ← gitRef (member "canonicalRef" facts) "Terminal canonical ref"
  let commit ← gitObject (member "canonicalCommit" facts) "Terminal canonical commit"
  let tree ← gitObject (member "canonicalTree" facts) "Terminal canonical tree"
  failIf (byteLength commit ≠ objectLength format ∨ byteLength tree ≠ objectLength format)
    (factsError "git-object-format"
      "Terminal canonical Git object lengths must match the attached object format")

/-- The checks of facts by their schema. -/
def checkForm (schema : String) (facts : JsonObject) : Except FoundationError Unit :=
  if schema = admissionSchema then admissionFacts facts
  else if schema = repositorySchema then repositoryFacts facts
  else if schema = acceptanceSchema then acceptanceFacts facts
  else if schema = detachedSchema then detachedFacts facts
  else if schema = failureSchema then terminalFailureFacts facts
  else .error (factsError "schema" "Transaction observation facts use an unsupported schema")

end TransactionFacts

open TransactionFacts

/-- **`parseFoundationTransactionObservationFactsV7`.** -/
def parseTransactionObservationFacts (value : Option Json) :
    Except FoundationError JsonObject := do
  let facts ← object value "Transaction observation facts"
  let schema ← string (member "schema" facts) "Transaction observation facts schema"
  checkForm schema facts
  return facts

namespace TransactionFacts

/-- What admission facts say of their activity. -/
def admissionFit (operation : FactsOperation) (decision : DirectorDecision)
    (outcome : TransactionOutcome) (facts : JsonObject) : Except FoundationError Unit := do
  failIf (operation ≠ .admitDelivery ∨ (decision ≠ .admission ∧ decision ≠ .readmission)
    ∨ asString (member "outcome" facts) ≠ some (outcomeText outcome))
    (factsError "operation" "Admission observation facts do not match their activity and outcome")
  let reason := match member "disposition" facts with
    | some (.object d) => asString (member "reason" d)
    | _ => none
  failIf (decision = .admission ∧ reason = some "candidate-continuity-mismatch")
    (factsError "decision" "Initial Admission cannot report a Candidate continuity mismatch")

/-- What terminal facts say of their activity. -/
def terminalFit (schema : String) (operation : FactsOperation) (decision : DirectorDecision)
    (outcome : TransactionOutcome) (facts : JsonObject) : Except FoundationError Unit := do
  failIf (operation ≠ .acceptDelivery ∧ operation ≠ .noShipDelivery)
    (factsError "operation" "Terminal observation facts require one terminal activity")
  failIf ((operation = .acceptDelivery ∧ decision ≠ .acceptance)
    ∨ (operation = .noShipDelivery ∧ decision ≠ .noShip))
    (factsError "operation" "Terminal observation facts differ from their Director Decision")
  failIf (schema = acceptanceSchema ∧ (operation ≠ .acceptDelivery ∨ outcome ≠ .applied))
    (factsError "outcome" "Acceptance result facts require one applied acceptance observation")
  failIf (operation = .acceptDelivery ∧ outcome = .applied ∧ schema ≠ acceptanceSchema)
    (factsError "outcome" "Applied acceptance requires its exact canonical-result digest")
  failIf (schema = detachedSchema ∧ operation ≠ .acceptDelivery)
    (factsError "operation" "Detached canonical observation facts require acceptance")
  failIf (schema = detachedSchema ∧ outcome = .applied)
    (factsError "outcome"
      "Detached canonical observation facts cannot establish applied acceptance")
  let noShip := decide (asString (member "stage" facts) = some "no-ship-non-integration")
  failIf (schema = failureSchema ∧ noShip ≠ decide (operation = .noShipDelivery))
    (factsError "operation" "Terminal failure observation stage differs from its operation")
  failIf (schema = failureSchema ∧ outcome ≠ .indeterminate)
    (factsError "outcome"
      "Terminal failure observation facts require an indeterminate outcome")

end TransactionFacts

/-- **`assertFoundationTransactionObservationFactsV7`.** -/
def assertTransactionObservationFacts (operation : FactsOperation)
    (decision : DirectorDecision) (outcome : TransactionOutcome)
    (facts factsDigest : Option Json) : Except FoundationError Unit := do
  let facts ← parseTransactionObservationFacts facts
  let retainedDigest ← digest factsDigest "Transaction observation facts digest"
  let actual ← digestCanonical (.object facts)
  failIf (actual ≠ retainedDigest)
    (factsError "digest-mismatch"
      "Transaction observation facts differ from their retained digest")
  let schema ← string (member "schema" facts) "Transaction observation facts schema"
  if schema = admissionSchema then admissionFit operation decision outcome facts
  else terminalFit schema operation decision outcome facts
