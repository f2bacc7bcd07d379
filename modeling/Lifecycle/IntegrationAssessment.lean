import Lifecycle.RecordSchemas

/-!
# Integration assessments

The parsing of an integration assessment's payload and the digest of the
facts a constructed candidate is observed with
(`control/integration-assessment.ts`).
-/

open Fallible Json ControlModel

/-- The outcome of an integration assessment. -/
inductive IntegrationOutcome
  | constructed
  | conflicted
  | invalid
deriving DecidableEq

/-- The disposition of the contextual changes. -/
inductive IntegrationDisposition
  | unchanged
  | requiresReadmission
deriving DecidableEq

/-- What the reducer reads of `FoundationIntegrationAssessmentPayloadV1`. -/
structure IntegrationAssessment where
  /-- The commit of the assessed canonical parent. -/
  parentCommit : String
  outcome : IntegrationOutcome
  /-- The digest of the constructed observation. -/
  factsDigest : Sha256Digest
  disposition : IntegrationDisposition
  /-- The contextual applicability as a whole. -/
  contextualApplicability : Json

namespace IntegrationAssessment

/-- `INTEGRATION_CONTEXT_SUBJECTS`. -/
def contextSubjects : List String :=
  ["repository-contract", "atlas", "discipline-registry", "knowledge-closure",
    "required-sources"]

/-- The error of an assessment that is not one. -/
def assessmentInvalid (message : String) : FoundationError :=
  lifecycleError "lifecycle.integration.assessment-invalid" message

/-! ## Reading members the schema has established -/

def objectMember (name : String) (o : JsonObject) : JsonObject :=
  match member name o with
  | some (.object p) => p
  | _ => []

def arrayMember (name : String) (o : JsonObject) : List Json :=
  match member name o with
  | some (.array items) => items
  | _ => []

def stringMember (name : String) (o : JsonObject) : String :=
  (asString (member name o)).getD ""

def boolMember (name : String) (o : JsonObject) : Bool :=
  match member name o with
  | some (.bool b) => b
  | _ => false

def stringItem (v : Json) : String := (asString (some v)).getD ""

def objectItem : Json → JsonObject
  | .object o => o
  | _ => []

/-! ## Orders -/

/-- The order of conflict facts: by path, then by kind. -/
def conflictLe (a b : Json) : Bool :=
  let left := objectItem a
  let right := objectItem b
  if stringMember "path" left = stringMember "path" right then
    codePointLe (stringMember "kind" left) (stringMember "kind" right)
  else codePointLe (stringMember "path" left) (stringMember "path" right)

/-- `sortUniqueCodePoints`. -/
def sortUniqueCodePoints (values : List String) : List String :=
  values.dedup.insertionSort fun a b => codePointLe a b = true

/-- Whether the changes are unequal comparisons of subjects in their
order. -/
def changesOrdered : List JsonObject → Bool
  | [] => true
  | [c] => stringMember "admittedDigest" c ≠ stringMember "parentDigest" c
  | c :: d :: cs =>
    decide (stringMember "admittedDigest" c ≠ stringMember "parentDigest" c)
      && decide (contextSubjects.idxOf (stringMember "subject" c)
        < contextSubjects.idxOf (stringMember "subject" d))
      && changesOrdered (d :: cs)

def parseOutcome (text : String) : IntegrationOutcome :=
  if text = "constructed" then .constructed
  else if text = "conflicted" then .conflicted
  else .invalid

def parseDisposition (text : String) : IntegrationDisposition :=
  if text = "unchanged" then .unchanged else .requiresReadmission

end IntegrationAssessment

open IntegrationAssessment

/-- **`parseFoundationIntegrationAssessmentPayloadV1`.** -/
def parseIntegrationAssessmentPayload (payload : JsonObject) :
    Except FoundationError IntegrationAssessment := do
  assertFoundationSchema "urn:lifecycle:schema:integration-assessment-payload:v1"
    Schema.integrationAssessmentPayload payload "Integration Assessment payload"
  let canonicalParent := objectMember "canonicalParent" payload
  let parentDigest ← selfDigest canonicalParent
  failIf (parentDigest ≠ stringMember "digest" canonicalParent)
    (assessmentInvalid "Integration parent Snapshot does not reproduce its exact digest")
  let conflicts := arrayMember "conflicts" payload
  let sortedConflicts ← canonicalJson (.array (conflicts.insertionSort
    fun a b => conflictLe a b = true))
  let retainedConflicts ← canonicalJson (.array conflicts)
  failIf (sortedConflicts ≠ retainedConflicts)
    (assessmentInvalid "Integration conflict facts are not canonically ordered")
  let validation := objectMember "validation" payload
  let codes := (arrayMember "diagnosticCodes" validation).map stringItem
  failIf (sortUniqueCodePoints codes ≠ codes)
    (assessmentInvalid
      "Integration validation diagnostics are not canonically ordered and unique")
  let applicability := objectMember "contextualApplicability" payload
  failIf (changesOrdered ((arrayMember "changes" applicability).map objectItem) = false)
    (assessmentInvalid
      "Integration contextual changes must be distinct, ordered, unequal exact comparisons")
  let outcome := parseOutcome (stringMember "outcome" payload)
  failIf (outcome = .invalid ∧ boolMember "complete" validation = true
    ∧ boolMember "valid" validation = true)
    (assessmentInvalid
      "Invalid integration cannot report complete valid physical validation")
  return {
    parentCommit := stringMember "commit" canonicalParent
    outcome := outcome
    factsDigest := stringMember "factsDigest" validation
    disposition := parseDisposition (stringMember "disposition" applicability)
    contextualApplicability := .object applicability }

/-- The refusal of an undefined member by `canonicalJson`. -/
def IntegrationAssessment.definedMember (name : String) (o : JsonObject) :
    Except FoundationError Json :=
  orFail (member name o) (lifecycleError "foundation.canonical.undefined"
    s!"Canonical JSON rejects undefined object member at $.{name}")

/-- `foundationIntegratedCandidateFactsDigestV1`: the digest of what a
constructed candidate is observed with. -/
def integratedCandidateFactsDigest (candidate : ControlRecordRevision) :
    Except FoundationError Sha256Digest := do
  let manifest ← orFail (asObject (member "carrierManifest" candidate.payload))
    (assessmentInvalid "Integrated Candidate lacks an exact Carrier manifest")
  failIf (candidate.recordKind ≠ "candidate-revision")
    (assessmentInvalid "Integrated Candidate lacks an exact Carrier manifest")
  let digest ← orFail (asString (member "digest" manifest))
    (assessmentInvalid "Integrated Candidate lacks an exact Carrier manifest digest")
  failIf (isSha256 digest = false)
    (assessmentInvalid "Integrated Candidate lacks an exact Carrier manifest digest")
  let observer ← definedMember "observer" candidate.payload
  let state ← definedMember "state" candidate.payload
  digestCanonical (.object [
    ("schema", .string "lifecycle.integration-validation-facts.v1"),
    ("manifestFileDigest", .string digest), ("state", state), ("observer", observer)])
