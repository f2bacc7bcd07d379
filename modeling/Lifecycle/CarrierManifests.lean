import Lifecycle.JsonWriters
import Lifecycle.KeyOrder
import Lifecycle.RecordSchemas

/-!
# Carrier manifests

The manifest of a Candidate Revision Carrier, which lists the Git objects of
one closure in the order of their identities and digests the list, itself and
the artifact beside it (`candidate/carrier-manifest.ts`). Compiling writes its
canonical JSON; parsing reads such bytes again, checks them against the schema
and makes sure that they are canonical. The bounds of the two are of different
kinds: the compiler counts objects, the parser bytes and JSON values.
-/

open Fallible Json StrictJson ControlModel

/-! ## Types -/

namespace Carrier

/-- `FoundationGitObjectFormat`. -/
inductive GitObjectFormat
  | sha1
  | sha256
deriving DecidableEq, Repr

def GitObjectFormat.text : GitObjectFormat → String
  | .sha1 => "sha1"
  | .sha256 => "sha256"

def gitObjectFormatOf : String → Option GitObjectFormat
  | "sha1" => some .sha1
  | "sha256" => some .sha256
  | _ => none

/-- **`FoundationCandidateRevisionCarrierObjectV1`.** -/
structure CarrierObject where
  objectId : String
  objectType : String
  byteLength : Int
deriving DecidableEq

/-- `FoundationCandidateRevisionCarrierArtifactV1`, its format aside. -/
structure CarrierArtifact where
  byteLength : Int
  digest : String
deriving DecidableEq

/-- **`FoundationCandidateRevisionCarrierLimitsV1`.** -/
structure CarrierLimits where
  maximumObjects : Nat
  maximumTreeEntries : Nat
  maximumTreeDepth : Nat
  maximumRepositoryPathBytes : Nat
  maximumAggregateObjectBytes : Nat
  maximumCarrierArtifactBytes : Nat
  maximumManifestBytes : Nat

/-- `FOUNDATION_CANDIDATE_REVISION_CARRIER_LIMITS_V1`. -/
def carrierLimitsV1 : CarrierLimits where
  maximumObjects := 1000000
  maximumTreeEntries := 1000000
  maximumTreeDepth := 256
  maximumRepositoryPathBytes := 4096
  maximumAggregateObjectBytes := maxSafeInteger
  maximumCarrierArtifactBytes := maxSafeInteger
  maximumManifestBytes := 256 * 1024 * 1024

/-- **`FoundationCandidateRevisionCarrierManifestV1`**, its constants aside. -/
structure CarrierManifest where
  objectFormat : GitObjectFormat
  rootTree : String
  objectInventory : List CarrierObject
  objectCount : Int
  aggregateObjectBytes : Int
  objectInventoryDigest : String
  carrierArtifact : CarrierArtifact
  digest : String

def carrierManifestSchema : String := "lifecycle.candidate-revision-carrier-manifest.v1"

def carrierManifestSchemaId : String :=
  "urn:lifecycle:schema:candidate-revision-carrier-manifest:v1"

def carrierFormat : String := "git-pack-v2"

def carrierTreeModes : List String := ["040000", "100644", "100755"]

/-! ### As JSON, the keys in order -/

def CarrierObject.record (d : CarrierObject) : JsonObject := [
  ("byteLength", .number (.integer d.byteLength)),
  ("objectId", .string d.objectId),
  ("objectType", .string d.objectType)]

def inventoryJson (inventory : List CarrierObject) : Json :=
  .array (inventory.map fun d => .object d.record)

def CarrierArtifact.record (a : CarrierArtifact) : JsonObject := [
  ("byteLength", .number (.integer a.byteLength)),
  ("digest", .string a.digest),
  ("format", .string carrierFormat)]

def CarrierManifest.record (m : CarrierManifest) : JsonObject := [
  ("aggregateObjectBytes", .number (.integer m.aggregateObjectBytes)),
  ("allowedTreeModes", .array (carrierTreeModes.map .string)),
  ("carrierArtifact", .object m.carrierArtifact.record),
  ("digest", .string m.digest),
  ("objectCount", .number (.integer m.objectCount)),
  ("objectFormat", .string m.objectFormat.text),
  ("objectInventory", inventoryJson m.objectInventory),
  ("objectInventoryDigest", .string m.objectInventoryDigest),
  ("rootTree", .string m.rootTree),
  ("schema", .string carrierManifestSchema)]

/-- The keys of the three records. -/
def carrierObjectKeys : List String := ["byteLength", "objectId", "objectType"]

def carrierArtifactKeys : List String := ["byteLength", "digest", "format"]

def carrierManifestKeys : List String := ["aggregateObjectBytes", "allowedTreeModes",
  "carrierArtifact", "digest", "objectCount", "objectFormat", "objectInventory",
  "objectInventoryDigest", "rootTree", "schema"]

theorem carrierKeys_inOrder : ∀ names ∈ [carrierObjectKeys, carrierArtifactKeys,
    carrierManifestKeys], names.Nodup ∧ names.Pairwise fun a b => codeUnitLe a b = true := by
  decide +kernel

/-! ## Inventories -/

def invalid (message : String) : FoundationError :=
  lifecycleError "lifecycle.candidate.carrier-invalid" message

/-- `objectIdPattern`. -/
def objectIdPattern (objectFormat : GitObjectFormat) (value : String) : Bool :=
  let bytes := utf8Bytes value
  decide (bytes.length = match objectFormat with
    | .sha1 => 40
    | .sha256 => 64) && bytes.all hexClass

/-- `Number.isSafeInteger`. -/
def isSafeInteger (n : Int) : Bool := decide (n.natAbs ≤ maxSafeInteger)

def assertSafeBoundedInteger (value : Int) (maximum : Nat) (label : String) :
    Except FoundationError Unit :=
  failIf (isSafeInteger value = false ∨ value < 0 ∨ (maximum : Int) < value)
    (invalid s!"{label} is outside its exact safe-integer bound")

/-- One descriptor of `exactInventory`, behind the one before it and the bytes
of those before. -/
def exactDescriptor (objectFormat : GitObjectFormat) (limits : CarrierLimits)
    (scanned : Option String × Int) (descriptor : CarrierObject) :
    Except FoundationError (Option String × Int) := do
  let (prior, before) := scanned
  let objectId := descriptor.objectId
  failIf (objectIdPattern objectFormat objectId = false) (invalid
    "Candidate Revision Carrier object identity does not match its Git object format")
  failIf (descriptor.objectType ≠ "blob" ∧ descriptor.objectType ≠ "tree") (invalid
    "Candidate Revision Carrier inventory contains an unsupported object type")
  assertSafeBoundedInteger descriptor.byteLength limits.maximumAggregateObjectBytes
    s!"Candidate Revision Carrier object {objectId} byte length"
  failIf (descriptor.objectType = "tree" ∧ descriptor.byteLength = 0) (invalid
    "Candidate Revision Carrier inventory contains an empty tree object")
  failIf (prior.any fun p => codeUnitLe objectId p) (invalid
    "Candidate Revision Carrier object inventory is not strictly object-identity ordered")
  let aggregate := before + descriptor.byteLength
  failIf (isSafeInteger aggregate = false ∨ (limits.maximumAggregateObjectBytes : Int) < aggregate)
    (invalid "Candidate Revision Carrier aggregate object bytes exceed their bound")
  return (some objectId, aggregate)

/-- **`exactInventory`.** -/
def exactInventory (objectFormat : GitObjectFormat) (input : List CarrierObject)
    (limits : CarrierLimits) : Except FoundationError (List CarrierObject) := do
  failIf (input.length < 1 ∨ limits.maximumObjects < input.length) (invalid
    "Candidate Revision Carrier object inventory is outside its object-count bound")
  let _ ← replay (exactDescriptor objectFormat limits) (none, 0) input
  return input

/-- The `reduce` of `semanticManifest`. -/
def aggregateOf (inventory : List CarrierObject) : Except FoundationError Int :=
  replay (fun sum descriptor => do
    let next := sum + descriptor.byteLength
    failIf (isSafeInteger next = false)
      (invalid "Candidate Revision Carrier aggregate object bytes are unsafe")
    return next) 0 inventory

/-! ## Manifests -/

/-- **`semanticManifest`.** -/
def semanticManifest (value : CarrierManifest) (limits : CarrierLimits) :
    Except FoundationError CarrierManifest := do
  failIf (objectIdPattern value.objectFormat value.rootTree = false) (invalid
    "Candidate Revision Carrier root tree does not match its Git object format")
  let inventory ← exactInventory value.objectFormat value.objectInventory limits
  failIf (value.objectCount ≠ inventory.length) (invalid
    "Candidate Revision Carrier object count does not match its inventory")
  let aggregateObjectBytes ← aggregateOf inventory
  failIf (value.aggregateObjectBytes ≠ aggregateObjectBytes) (invalid
    "Candidate Revision Carrier aggregate object bytes do not match its inventory")
  let objectInventoryDigest ← digestCanonical (inventoryJson inventory)
  failIf (value.objectInventoryDigest ≠ objectInventoryDigest) (invalid
    "Candidate Revision Carrier object-inventory digest does not match its inventory")
  let root := inventory.find? fun d => d.objectId = value.rootTree
  failIf (root.map (·.objectType) ≠ some "tree") (invalid
    "Candidate Revision Carrier root tree is absent or not a tree object")
  assertSafeBoundedInteger value.carrierArtifact.byteLength limits.maximumCarrierArtifactBytes
    "Candidate Revision Carrier artifact byte length"
  failIf (value.carrierArtifact.byteLength < 1) (invalid
    "Candidate Revision Carrier artifact must contain bytes")
  failIf (isSha256 value.carrierArtifact.digest = false) (invalid
    "Candidate Revision Carrier artifact digest is not one lowercase SHA-256 digest")
  let digest ← selfDigest value.record
  failIf (value.digest ≠ digest) (invalid
    "Candidate Revision Carrier manifest self-digest does not match its logical value")
  return { value with
    objectInventory := inventory
    objectCount := inventory.length
    aggregateObjectBytes }

end Carrier

/-! ## The schema -/

namespace Schema

/-- `const`, of an array of texts. -/
def constTexts (values : List String) : Schema :=
  .type fun v => decide ((asArray (some v)).map (·.map fun item => asString (some item))
    = some (values.map some))

def carrierObjectDescriptor : Schema := record [
  ("objectId", gitObject),
  ("objectType", .enum ["blob", "tree"]),
  ("byteLength", .all [.type isInteger, .minimum 0, .maximum maxSafeInteger])]

def carrierArtifact : Schema := record [
  ("format", .constString Carrier.carrierFormat),
  ("byteLength", .all [.type isInteger, .minimum 1, .maximum maxSafeInteger]),
  ("digest", sha256)]

/-- `candidate-revision-carrier-manifest.schema.json`. -/
def candidateRevisionCarrierManifest : Schema := record [
  ("schema", .constString Carrier.carrierManifestSchema),
  ("objectFormat", .enum ["sha1", "sha256"]),
  ("rootTree", gitObject),
  ("allowedTreeModes", constTexts Carrier.carrierTreeModes),
  ("objectInventory", .all [.type isArray, .minItems 1, .maxItems 1000000, .uniqueItems,
    .items carrierObjectDescriptor]),
  ("objectCount", .all [.type isInteger, .minimum 1, .maximum 1000000]),
  ("aggregateObjectBytes", .all [.type isInteger, .minimum 0, .maximum maxSafeInteger]),
  ("objectInventoryDigest", sha256),
  ("carrierArtifact", carrierArtifact),
  ("digest", sha256)]

end Schema

/-! ## Compiling and parsing -/

namespace Carrier

/-- The input of a compilation. -/
structure ManifestInput where
  objectFormat : GitObjectFormat
  rootTree : String
  objectInventory : List CarrierObject
  carrierArtifact : CarrierArtifact
  limits : CarrierLimits

/-- **`compileCandidateRevisionCarrierManifest`**: the manifest and its
bytes. -/
def compileCandidateRevisionCarrierManifest (input : ManifestInput) :
    Except FoundationError (CarrierManifest × List UInt8) := do
  let inventory ← exactInventory input.objectFormat input.objectInventory input.limits
  let objectInventoryDigest ← digestCanonical (inventoryJson inventory)
  let subject : CarrierManifest := {
    objectFormat := input.objectFormat
    rootTree := input.rootTree
    objectInventory := inventory
    objectCount := inventory.length
    aggregateObjectBytes := (inventory.map (·.byteLength)).sum
    objectInventoryDigest
    carrierArtifact := input.carrierArtifact
    digest := "" }
  -- The digest is taken of the subject without its `digest`.
  let digest ← selfDigest subject.record
  let manifest ← semanticManifest { subject with digest } input.limits
  assertFoundationSchema carrierManifestSchemaId Schema.candidateRevisionCarrierManifest
    manifest.record "Candidate Revision Carrier manifest"
  let manifestBytes ← canonicalJson (.object manifest.record)
  return (manifest, manifestBytes)

def integerOf : Option Json → Option Int
  | some (.number (.integer n)) => some n
  | _ => none

def carrierObjectOf (v : Json) : Option CarrierObject := do
  let o ← asObject (some v)
  let objectId ← asString (member "objectId" o)
  let objectType ← asString (member "objectType" o)
  let byteLength ← integerOf (member "byteLength" o)
  return ⟨objectId, objectType, byteLength⟩

/-- `value as FoundationCandidateRevisionCarrierManifestV1`. -/
def carrierManifestOf (o : JsonObject) : Option CarrierManifest := do
  let objectFormat ← (asString (member "objectFormat" o)).bind gitObjectFormatOf
  let rootTree ← asString (member "rootTree" o)
  let items ← asArray (member "objectInventory" o)
  let objectInventory ← items.mapM carrierObjectOf
  let objectCount ← integerOf (member "objectCount" o)
  let aggregateObjectBytes ← integerOf (member "aggregateObjectBytes" o)
  let objectInventoryDigest ← asString (member "objectInventoryDigest" o)
  let artifact ← asObject (member "carrierArtifact" o)
  let byteLength ← integerOf (member "byteLength" artifact)
  let artifactDigest ← asString (member "digest" artifact)
  let digest ← asString (member "digest" o)
  return {
    carrierArtifact := ⟨byteLength, artifactDigest⟩
    objectFormat, rootTree, objectInventory, objectCount, aggregateObjectBytes
    objectInventoryDigest, digest }

/-- The options the parser reads a manifest under. -/
def manifestOptions (limits : CarrierLimits) : StrictJsonOptions where
  maximumBytes := limits.maximumManifestBytes
  maximumDepth := 16
  maximumNodes := limits.maximumObjects * 4 + 64
  maximumObjectProperties := 32
  maximumArrayItems := limits.maximumObjects
  source := "Candidate Revision Carrier manifest"

def invalidManifest : FoundationError := invalid "Candidate Revision Carrier manifest is invalid"

/-- The `catch` of the parser: an error of its own goes through, any other
becomes one. -/
def rethrown {α : Type} (r : Except FoundationError α) : Except FoundationError α :=
  r.mapError fun e => if e.code = "lifecycle.candidate.carrier-invalid" then e else invalidManifest

/-- **`parseCandidateRevisionCarrierManifest`.** -/
def parseCandidateRevisionCarrierManifest (number : String → JsNumber) (bytes : List UInt8)
    (limits : CarrierLimits) : Except FoundationError CarrierManifest := do
  failIf (bytes.length < 1 ∨ limits.maximumManifestBytes < bytes.length)
    (invalid "Candidate Revision Carrier manifest is outside its byte bound")
  let text ← orFail (decodeUtf8 bytes)
    (invalid "Candidate Revision Carrier manifest is not exact UTF-8")
  rethrown do
    let value ← parseStrictJson number text (manifestOptions limits)
    -- What is no object fails the schema.
    let parsed ← orFail (asObject (some value)) invalidManifest
    assertFoundationSchema carrierManifestSchemaId Schema.candidateRevisionCarrierManifest parsed
      "Candidate Revision Carrier manifest"
    let canonical ← canonicalJson value
    failIf (canonical ≠ utf8Bytes text)
      (invalid "Candidate Revision Carrier manifest bytes are not canonical JSON")
    let manifest ← orFail (carrierManifestOf parsed) invalidManifest
    semanticManifest manifest limits

end Carrier
