import Lifecycle.RecordSchemas

/-!
# Kinds of control records

The registry of the record families of a delivery
(`control/kind-registry.ts`) and the validation of a payload by the
profile its family selects (`control/payload-registry.ts`). The profiles
themselves are generated schemas; the validation takes them as an
argument.
-/

open Fallible Json ControlModel

/-- `ControlRecordRelationshipPolicy`; no maximum is `MANY`. -/
structure ControlRecordRelationshipPolicy where
  relation : String
  targetKinds : List String
  minimum : Nat
  maximum : Option Nat
deriving DecidableEq

/-- `ControlRecordKindPolicy`, of what the checks read. -/
structure ControlRecordKindPolicy where
  kind : String
  payloadSchemaId : String
  producer : ControlActorKind
  semanticAuthor : ControlActorKind
  semanticAuthority : ControlSemanticAuthority
  singleRevision : Bool
  finalizationEvent : String
  relationships : List ControlRecordRelationshipPolicy
deriving DecidableEq

namespace ControlKinds

/-- The identity of a payload profile. -/
def payloadSchemaId (name : String) : String :=
  s!"urn:lifecycle:schema:{name}"

/-- `DELIVERY_CONTROL_RECORD_KINDS` with `POLICIES`. -/
def policies : List ControlRecordKindPolicy := [
  ⟨"director-brief", payloadSchemaId "director-brief-payload:v2", .runtime, .director,
    .directorSupplied, true, "director-brief-submitted", []⟩,
  ⟨"work-delegation", payloadSchemaId "work-delegation-payload:v2", .runtime, .director,
    .directorSupplied, false, "work-delegation-set", [
      ⟨"uses-boundary", ["work-boundary"], 1, some 1⟩,
      ⟨"uses-admission", ["director-decision"], 1, some 1⟩,
      ⟨"uses-brief", ["director-brief"], 0, some 2⟩,
      ⟨"revises", ["work-delegation"], 0, some 1⟩]⟩,
  ⟨"agent-attempt", payloadSchemaId "agent-attempt-payload:v3", .runtime, .runtime,
    .runtimeDerived, true, "agent-attempt-prepared", [
      ⟨"uses-brief", ["director-brief"], 1, some 1⟩,
      ⟨"uses-boundary", ["work-boundary"], 0, some 1⟩,
      ⟨"uses-candidate", ["candidate-revision"], 0, some 1⟩,
      ⟨"uses-seal", ["candidate-seal"], 0, some 1⟩]⟩,
  ⟨"agent-work-product", payloadSchemaId "agent-work-product-payload:v5", .runtime, .agent,
    .agentProposed, true, "agent-work-product-submitted", [
      ⟨"result-of", ["agent-attempt"], 1, some 1⟩]⟩,
  ⟨"execution-receipt", payloadSchemaId "execution-receipt-payload:v3", .runtime, .runtime,
    .runtimeObserved, true, "execution-receipt-recorded", [
      ⟨"observes-attempt", ["agent-attempt"], 1, some 1⟩,
      ⟨"observes-work-product", ["agent-work-product"], 0, some 1⟩,
      ⟨"observes-candidate", ["candidate-revision"], 0, some 1⟩]⟩,
  ⟨"candidate-revision", payloadSchemaId "candidate-revision-payload:v3", .runtime, .runtime,
    .runtimeObserved, false, "candidate-revision-observed", [
      ⟨"revises", ["candidate-revision"], 0, some 1⟩,
      ⟨"governed-by", ["work-boundary"], 1, some 1⟩,
      ⟨"result-of", ["agent-attempt"], 0, some 1⟩,
      ⟨"integrated-from", ["integration-assessment"], 0, some 1⟩]⟩,
  ⟨"integration-assessment", payloadSchemaId "integration-assessment-payload:v1", .runtime,
    .runtime, .runtimeObserved, true, "integration-assessed", [
      ⟨"governed-by", ["work-boundary"], 1, some 1⟩,
      ⟨"integrates", ["candidate-revision"], 1, some 1⟩]⟩,
  ⟨"work-boundary", payloadSchemaId "work-boundary-payload:v6", .runtime, .runtime,
    .runtimeDerived, false, "work-boundary-finalized", [
      ⟨"uses-brief", ["director-brief"], 1, some 1⟩,
      ⟨"proposed-from", ["agent-work-product"], 1, some 1⟩,
      ⟨"revises", ["work-boundary"], 0, some 1⟩,
      ⟨"resolves", ["material-condition"], 0, some 1⟩]⟩,
  ⟨"material-condition", payloadSchemaId "material-condition-payload:v4", .runtime, .runtime,
    .runtimeDerived, true, "material-condition-frozen", [
      ⟨"reported-by", ["agent-work-product", "integration-assessment"], 0, some 1⟩,
      ⟨"observed-in", ["execution-receipt", "candidate-seal"], 0, some 1⟩,
      ⟨"freezes", ["candidate-revision"], 1, some 1⟩,
      ⟨"governed-by", ["work-boundary"], 1, some 1⟩]⟩,
  ⟨"director-decision", payloadSchemaId "director-decision-payload:v5", .runtime, .director,
    .directorAuthenticated, true, "director-decision-authenticated", [
      ⟨"selects-boundary", ["work-boundary"], 0, some 1⟩,
      ⟨"selects-baseline-receipt", ["check-receipt"], 0, none⟩,
      ⟨"continues-from-boundary", ["work-boundary"], 0, some 1⟩,
      ⟨"resolves", ["material-condition"], 0, some 1⟩,
      ⟨"selects-candidate", ["candidate-revision"], 0, some 1⟩,
      ⟨"selects-seal", ["candidate-seal"], 0, some 1⟩,
      ⟨"selects-evidence", ["evidence-packet"], 0, some 1⟩]⟩,
  ⟨"candidate-seal", payloadSchemaId "candidate-seal-payload:v2", .runtime, .runtime,
    .runtimeObserved, true, "candidate-sealed", [
      ⟨"seals", ["candidate-revision"], 1, some 1⟩,
      ⟨"governed-by", ["work-boundary"], 1, some 1⟩]⟩,
  ⟨"check-receipt", payloadSchemaId "check-receipt-payload:v3", .runtime, .runtime,
    .runtimeObserved, true, "check-receipt-recorded", [
      ⟨"checks-boundary", ["work-boundary"], 0, some 1⟩,
      ⟨"checks-seal", ["candidate-seal"], 0, some 1⟩]⟩,
  ⟨"evidence-packet", payloadSchemaId "evidence-packet-payload:v2", .runtime, .runtime,
    .runtimeDerived, true, "evidence-packet-finalized", [
      ⟨"governed-by", ["work-boundary"], 1, some 1⟩,
      ⟨"evaluates", ["candidate-revision"], 1, some 1⟩,
      ⟨"uses-seal", ["candidate-seal"], 1, some 1⟩,
      ⟨"uses-check", ["check-receipt"], 0, none⟩,
      ⟨"uses-review", ["agent-work-product"], 1, some 1⟩,
      ⟨"uses-review-receipt", ["execution-receipt"], 1, some 1⟩]⟩,
  ⟨"closure", payloadSchemaId "closure-payload:v6", .runtime, .runtime, .runtimeDerived, true,
    "closure-recorded", [
      ⟨"closes-with", ["director-decision"], 1, some 1⟩,
      ⟨"governed-by", ["work-boundary"], 0, some 1⟩,
      ⟨"accepts-candidate", ["candidate-revision"], 0, some 1⟩,
      ⟨"accepts-evidence", ["evidence-packet"], 0, some 1⟩,
      ⟨"abandons-candidate", ["candidate-revision"], 0, some 1⟩]⟩]

/-- The errors of the registry. -/
def policyError (code message : String) : FoundationError :=
  lifecycleError s!"lifecycle.control-record-policy.{code}" message

def actorKindText : ControlActorKind → String
  | .agent => "agent"
  | .director => "director"
  | .runtime => "runtime"

end ControlKinds

open ControlKinds

/-- `deliveryControlRecordPolicy`. -/
def deliveryControlRecordPolicy (kind : String) : Except FoundationError ControlRecordKindPolicy :=
  orFail (policies.find? fun p => p.kind = kind)
    (policyError "kind" s!"Unsupported Delivery Control record kind {kind}")

namespace ControlKinds

/-- Whether the relationships of a material condition are those of its
source; the payload's profile has the say about any other source. -/
def conditionRelationshipsFit (revision : ControlRecordRevision) : Bool :=
  let reported := revision.relationships.filter fun r => r.relation = "reported-by"
  let observed := revision.relationships.filter fun r => r.relation = "observed-in"
  match (asObject (member "source" revision.payload)).bind fun s => asString (member "kind" s) with
  | some "projection-compilation" => reported.isEmpty && decide (observed.length ≤ 1)
      && observed.all fun r => r.target.kind = "candidate-seal"
  | some "integration-assessment" => decide (reported.length = 1)
      && (reported.all fun r => r.target.kind = "integration-assessment") && observed.isEmpty
  | some "agent-proposal" => decide (reported.length = 1)
      && (reported.all fun r => r.target.kind = "agent-work-product")
      && decide (observed.length = 1)
      && observed.all fun r => r.target.kind = "execution-receipt"
  | _ => true

/-- One relationship is one its family may carry. -/
def assertRelationship (policy : ControlRecordKindPolicy) (r : ControlRecordRelationship) :
    Except FoundationError Unit := do
  let allowed ← orFail (policy.relationships.find? fun p => p.relation = r.relation)
    (policyError "relationship" s!"{policy.kind} cannot carry relationship {r.relation}")
  failIf (r.target.kind ∉ allowed.targetKinds)
    (policyError "relationship-target"
      s!"{policy.kind} relationship {r.relation} cannot target {r.target.kind}")

/-- A relation occurs as often as its family allows. -/
def assertCardinality (kind : String) (relationships : List ControlRecordRelationship)
    (policy : ControlRecordRelationshipPolicy) : Except FoundationError Unit :=
  let count := (relationships.filter fun r => r.relation = policy.relation).length
  failIf (count < policy.minimum ∨ ∃ maximum ∈ policy.maximum, maximum < count)
    (policyError "relationship-cardinality"
      s!"{kind} relationship {policy.relation} has invalid cardinality")

end ControlKinds

/-- **`assertDeliveryControlRecordPolicy`.** -/
def assertDeliveryControlRecordPolicy (revision : ControlRecordRevision) :
    Except FoundationError Unit := do
  let policy ← deliveryControlRecordPolicy revision.recordKind
  let producer := actorKindText policy.producer
  let author := actorKindText policy.semanticAuthor
  let authority := authorityText policy.semanticAuthority
  failIf (revision.producer.kind ≠ policy.producer)
    (policyError "producer" s!"{revision.recordKind} must be produced by {producer}")
  failIf (revision.semanticAuthority ≠ policy.semanticAuthority)
    (policyError "semantic-authority"
      s!"{revision.recordKind} must preserve {authority} as its record-level semantic authority")
  failIf (revision.semanticAuthor.kind ≠ policy.semanticAuthor)
    (policyError "semantic-author"
      s!"{revision.recordKind} semantics must be authored by {author}")
  failIf (policy.singleRevision = true ∧ revision.revision ≠ 1)
    (policyError "revision" s!"{revision.recordKind} is a single-revision Control family")
  failIf (revision.recordKind = "material-condition" ∧ conditionRelationshipsFit revision = false)
    (policyError "relationship-cardinality"
      "Material Condition relationships do not match their exact source kind")
  let _ ← revision.relationships.mapM (assertRelationship policy)
  let _ ← policy.relationships.mapM (assertCardinality revision.recordKind revision.relationships)

/-- **`assertDeliveryControlRecordPayload`**, under the given profiles. -/
def assertDeliveryControlRecordPayload (profiles : String → Schema)
    (revision : ControlRecordRevision) : Except FoundationError Unit := do
  let policy ← deliveryControlRecordPolicy revision.recordKind
  assertFoundationSchema policy.payloadSchemaId (profiles policy.payloadSchemaId) revision.payload
    s!"{revision.recordKind}:{revision.recordId}:revision-{revision.revision}:payload"
