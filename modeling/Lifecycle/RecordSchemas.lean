import Lifecycle.ControlModel
import Lifecycle.JsonSchema

/-!
# Record schemas

The payload schemas the reducer has the schema engine assert, transcribed
from `spec-source/schemas`: the integration assessment and the agent
attempt, with the repository snapshot and the common definitions they
refer to. `assertFoundationSchema` is the engine's assertion.
-/

open Fallible Json

namespace Schema

/-! ## Common definitions -/

def sha256 : Schema := .all [.type isString, .pattern isSha256]

/-- `^(?:[a-f0-9]{40}|[a-f0-9]{64})$`. -/
def isGitObject (s : String) : Bool :=
  let bytes := utf8Bytes s
  (decide (bytes.length = 40) || decide (bytes.length = 64)) && bytes.all hexClass

def gitObject : Schema := .all [.type isString, .pattern isGitObject]

/-- `^[A-Za-z0-9][A-Za-z0-9._:-]*$` with a bound on its length. -/
def identity (maximumLength : Nat) : Schema :=
  .all [.type isString, .minLength 1, .maxLength maximumLength,
    .pattern ControlModel.matchesIdPattern]

def opaqueId : Schema := identity 160

def controlId : Schema := identity 512

def positiveSafeInteger : Schema :=
  .all [.type isInteger, .minimum 1, .maximum maxSafeInteger]

/-- The format `date-time` within the pattern of `canonicalTime`: a date of
the calendar and a time of the day, the leap second included. -/
def isCanonicalTime (s : String) : Bool :=
  let bytes := utf8Bytes s
  match Timestamp.parseCivil bytes with
  | some c => decide (0 ≤ c.year ∧ c.year ≤ 9999)
      && (decide (bytes.length = 20) || decide (bytes.length = 24))
  | none =>
    -- The one time the format has beyond `parseCivil` is 23:59:60.
    decide ((bytes.drop 10).take 9 = [84, 50, 51, 58, 53, 57, 58, 54, 48])
      && match Timestamp.parseCivil (bytes.take 17 ++ [53, 57] ++ bytes.drop 19) with
        | some c => decide (0 ≤ c.year ∧ c.year ≤ 9999)
            && (decide (bytes.length = 20) || decide (bytes.length = 24))
        | none => false

def canonicalTime : Schema := .all [.type isString, .pattern isCanonicalTime]

/-- A control character or a line separator. -/
def isControl (c : Char) : Bool :=
  Nat.ble c.toNat 31 || (Nat.ble 127 c.toNat && Nat.ble c.toNat 159)
    || Nat.beq c.toNat 8232 || Nat.beq c.toNat 8233

def singleLine : Schema :=
  .all [.type isString, .minLength 1, .maxLength 1024,
    .pattern fun s => !s.toList.isEmpty && s.toList.all fun c => !isControl c]

/-- The characters `.` does not match. -/
def isLineTerminator (c : Char) : Bool :=
  Nat.beq c.toNat 10 || Nat.beq c.toNat 13 || Nat.beq c.toNat 8232 || Nat.beq c.toNat 8233

/-- Whether a segment `.` or `..` stands, at the start of a segment or not,
before a slash or the end of the text. -/
def hasDotSegment (ended : Bool) : Bool → List Char → Bool
  | _, [] => false
  | atStart, c :: cs =>
    (atStart && c == '.' &&
      match cs with
      | [] => ended
      | '/' :: _ => true
      | '.' :: [] => ended
      | '.' :: '/' :: _ => true
      | _ => false)
    || hasDotSegment ended (c == '/') cs

/-- Whether two slashes stand next to each other. -/
def hasEmptySegment : List Char → Bool
  | '/' :: '/' :: _ => true
  | _ :: cs => hasEmptySegment cs
  | [] => false

/-- The pattern of `normalizedPath`; its look-aheads see the first line of
the text. -/
def isNormalizedPath (s : String) : Bool :=
  let cs := s.toList
  let line := cs.takeWhile fun c => !isLineTerminator c
  decide (cs.head? ≠ some '/')
    && !hasDotSegment (decide (line.length = cs.length)) true line
    && !line.contains '\\' && !hasEmptySegment line
    && !cs.isEmpty && !cs.contains '\x00'

def normalizedPath : Schema :=
  .all [.type isString, .minLength 1, .maxLength 4096, .pattern isNormalizedPath]

/-! ## Repository snapshot -/

/-- `urn:lifecycle:schema:repository-snapshot:v1`. -/
def repositorySnapshot : Schema :=
  record [
    ("targetId", opaqueId), ("commit", gitObject), ("tree", gitObject),
    ("objectFormat", .all [.type isString, .enum ["sha1", "sha256"]]),
    ("contractDigest", sha256), ("productStateDigest", sha256), ("atlasStateDigest", sha256),
    ("atlasResolutionDigest", sha256), ("atlasNormalizedModelDigest", sha256),
    ("atlasResourceBindingsDigest", sha256), ("knowledgeSetDigest", sha256),
    ("digest", sha256)]

/-! ## Integration assessment -/

/-- An array of bounded length without repetition. -/
def uniqueArray (maximum : Nat) (item : Schema) : Schema :=
  .all [.type isArray, .maxItems maximum, .uniqueItems, .items item]

/-- The properties of the integration assessment payload. -/
def integrationAssessmentProperties : List (String × Schema) := [
  ("schema", .constString "lifecycle.integration-assessment-payload.v1"),
  ("profileId", .constString "lifecycle.integration-assessment.foundation-v1"),
  ("canonicalParent", repositorySnapshot),
  ("mergeRule", record [
    ("id", .constString "lifecycle.integration.three-way.v2"),
    ("implementationId", controlId), ("implementationDigest", sha256)]),
  ("outcome", .enum ["constructed", "conflicted", "invalid"]),
  ("conflicts", uniqueArray 4096 (record [
    ("path", normalizedPath),
    ("kind", .enum ["content", "add-add", "modify-delete", "rename", "mode", "type",
      "unsupported"])])),
  ("validation", record [
    ("complete", .type isBoolean), ("valid", .type isBoolean),
    ("diagnosticCodes", uniqueArray 4096 controlId), ("factsDigest", sha256)]),
  ("contextualApplicability", record [
    ("disposition", .enum ["unchanged", "requires-readmission"]),
    ("changes", uniqueArray 5 (record [
      ("subject", .enum ["repository-contract", "atlas", "discipline-registry",
        "knowledge-closure", "required-sources"]),
      ("admittedDigest", sha256), ("parentDigest", sha256)]))]),
  ("assessedAt", canonicalTime),
  ("limitations", uniqueArray 128 singleLine)]

/-- `urn:lifecycle:schema:integration-assessment-payload:v1`. -/
def integrationAssessmentPayload : Schema :=
  .all [record integrationAssessmentProperties,
    .cond (.property "outcome" (.constString "constructed"))
      (.all [.property "conflicts" (.maxItems 0),
        .property "validation" (.all [.property "complete" (.constBool true),
          .property "valid" (.constBool true)])])
      (.all []),
    .cond (.property "outcome" (.constString "conflicted"))
      (.property "conflicts" (.minItems 1))
      (.all []),
    .cond (.property "contextualApplicability"
        (.property "disposition" (.constString "unchanged")))
      (.property "contextualApplicability" (.property "changes" (.maxItems 0)))
      (.property "contextualApplicability" (.property "changes" (.minItems 1)))]

/-! ## Agent attempt -/

def nullablePositiveSafeInteger : Schema := .oneOf [.type isNull, positiveSafeInteger]

def nullableDigest : Schema := .oneOf [.type isNull, sha256]

/-- The properties of the agent attempt payload. -/
def agentAttemptProperties : List (String × Schema) := [
  ("schema", .constString "lifecycle.agent-attempt-payload.v3"),
  ("activityId", controlId),
  ("operation", .enum ["delivery.prepare", "delivery.continue", "delivery.evaluate",
    "delivery.revise", "delivery.reaffirm"]),
  ("role", .enum ["reconnaissance", "builder", "reviewer"]),
  ("invocationId", controlId), ("preDispatchStateDigest", sha256),
  ("projection", record [("id", controlId), ("profileId", opaqueId), ("digest", sha256)]),
  ("roleSubjectDigest", sha256),
  ("capability", record [("profileId", opaqueId), ("profileDigest", sha256),
    ("effectiveGrantDigest", sha256)]),
  ("investment", record [
    ("id", controlId), ("digest", sha256), ("model", opaqueId), ("reasoning", opaqueId),
    ("wallTimeMs", .all [.type isInteger, .minimum 1, .maximum 86400000]),
    ("limits", record [
      ("tokens", nullablePositiveSafeInteger), ("events", nullablePositiveSafeInteger),
      ("outputBytes", nullablePositiveSafeInteger), ("toolCalls", nullablePositiveSafeInteger),
      ("processes", nullablePositiveSafeInteger),
      ("storageBytes", nullablePositiveSafeInteger)]),
    ("rationale", opaqueId)]),
  ("provider", record [
    ("descriptorId", controlId), ("descriptorDigest", sha256),
    ("adapter", .constString "lifecycle.provider-adapter.v7"),
    ("executableIdentityClass", controlId), ("installedIdentityDigest", sha256)]),
  ("execution", record [
    ("backendProfile", record [
      ("profileId", .enum ["lifecycle.execution-backend-profile.docker-local.v1",
        "lifecycle.execution-backend-profile.fault-injection.v1"]),
      ("profileDigest", sha256), ("implementationDigest", sha256)]),
    ("image", record [("imageId", controlId), ("imageDigest", sha256)]),
    ("inputSet", record [
      ("profileId", .constString "lifecycle.execution-input-set.v2"), ("digest", sha256)])]),
  ("authoring", record [
    ("roleBriefDigest", sha256), ("templateProfileId", opaqueId), ("templateDigest", sha256),
    ("parserProfileId", opaqueId), ("parserProfileDigest", sha256),
    ("compilerProfileId", opaqueId), ("compilerProfileDigest", sha256),
    ("submissionPolicy", .enum ["explicit", "explicit-or-clean-natural-completion"])]),
  ("input", record [
    ("contentInventoryDigest", sha256), ("inputMaterialDigest", sha256),
    ("citationRegistryDigest", sha256), ("evidenceSetDigest", nullableDigest),
    ("propositionSetDigest", nullableDigest)]),
  ("executionPolicy", record [
    ("cancellationPolicyDigest", sha256), ("containmentPolicyDigest", sha256),
    ("parentLossPolicyDigest", sha256), ("retirementPolicyDigest", sha256),
    ("recoveryPolicyDigest", sha256)]),
  ("adjacentFilePurposes", uniqueArray 16 controlId)]

/-- What the schema says of an attempt in one role. -/
def attemptRole (role : String) (operation evidence proposition : Schema) : Schema :=
  .cond (.all [.property "role" (.constString role), .required ["role"]])
    (.all [.property "operation" operation,
      .property "input" (.all [.property "evidenceSetDigest" evidence,
        .property "propositionSetDigest" proposition])])
    (.all [])

/-- `urn:lifecycle:schema:agent-attempt-payload:v3`. -/
def agentAttemptPayload : Schema :=
  .all [record agentAttemptProperties,
    attemptRole "reconnaissance"
      (.enum ["delivery.prepare", "delivery.revise", "delivery.reaffirm"])
      (.type isNull) (.type isNull),
    attemptRole "builder" (.constString "delivery.continue") sha256 (.type isNull),
    attemptRole "reviewer" (.constString "delivery.evaluate") sha256 sha256]

end Schema

/-! ## The engine's assertion -/

/-- **`assertFoundationSchema`.** The value is put in canonical order, as
the engine normalises it, before it is validated. -/
def assertFoundationSchema (schemaId : String) (schema : Schema) (value : JsonObject)
    (path : String) : Except FoundationError Unit := do
  let _ ← canonicalJson (.object value)
  let count := schema.violations (.object (ControlModel.parsedCanonical value))
  failIf (count ≠ 0) (lifecycleError "lifecycle.schema.invalid"
    (s!"{path} fails {schemaId} with {count} deterministic schema diagnostic" ++
      if count = 1 then "" else "s"))
