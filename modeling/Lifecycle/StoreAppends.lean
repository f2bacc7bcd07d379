import Lifecycle.ControlStore

/-!
# Appends to a control store

`#appendBatchInTransaction` (`control/store.ts`): an ordered batch of
appends, each an event with or without the revision it finalizes. A batch
whose events are all retained already is a retry and changes nothing; one
of which only some are is refused; any other batch is appended item by item,
the revision first, then its event, each checked against the tables as the
items before it left them, and against the replay of the handle.
-/

open Fallible Json ControlModel DeliveryReducer ControlKinds ControlStore

/-! ## Values -/

/-- `ControlRecordStoreAppend`. -/
structure ControlRecordStoreAppend where
  revision : Option ControlRecordRevisionInput
  event : ControlRecordEventInput

/-- `ControlRecordStoreAppendResult`. -/
structure ControlRecordStoreAppendResult where
  revision : Option ControlRecordRevision
  event : ControlRecordEvent

/-- An append with its compiled revision. -/
structure CompiledAppend where
  input : ControlRecordStoreAppend
  revision : Option ControlRecordRevision

/-- `RetainedAdjacentFileReference`. -/
structure RetainedAdjacentFileReference where
  digest : Sha256Digest
  byteLength : Int
  mediaType : String
  purpose : String
deriving DecidableEq

/-- How a batch was resolved. -/
inductive AppendDisposition
  | appended
  | retained
deriving DecidableEq

namespace ControlStore

/-! ## Files a revision refers to -/

def carrierManifestPurpose : String := "candidate-revision-carrier-manifest"
def carrierManifestMediaType : String :=
  "application/vnd.lifecycle.candidate-revision-carrier-manifest+json"
def builderRepairOutputPurpose : String := "builder-repair-output"

/-- `expectString`. -/
def expectString (value : Option Json) (label : String) : Except FoundationError String :=
  orFail (asString value) (storeError "database-shape" s!"{label} must be text")

/-- `expectDigest`. -/
def expectDigest (value : Option Json) (label : String) : Except FoundationError Sha256Digest :=
  orFail ((asString value).filter isSha256)
    (storeError "database-shape" s!"{label} must be one lowercase SHA-256 digest")

/-- The safe integer a member holds, when it holds one. -/
def asSafeInteger : Option Json → Option Int
  | some (.number (.integer n)) => if n.natAbs ≤ maxSafeInteger then some n else none
  | _ => none

/-- `expectInteger`. -/
def expectInteger (value : Option Json) (label : String) : Except FoundationError Int :=
  orFail (asSafeInteger value) (storeError "database-shape" s!"{label} must be one safe integer")

/-- The purpose of a raw material that is retained. -/
def retainedPurpose (material : Json) : Option String :=
  (asObject (some material)).bind fun m =>
    if asString (member "availability" m) = some "retained" then
      (asObject (member "reference" m)).bind fun reference => asString (member "purpose" reference)
    else none

/-- Whether a receipt is that of a failed builder, with one repair output
and one manifest, and the reference is one of the two. -/
def failedBuilderPair (revision : ControlRecordRevision)
    (reference : RetainedAdjacentFileReference) : Bool :=
  let purposes := ((asArray (member "rawMaterials" revision.payload)).getD []).filterMap
    retainedPurpose
  let candidate := (asObject (member "candidate" revision.payload)).getD []
  decide (revision.recordKind = "execution-receipt")
    && decide (asString (member "role" revision.payload) = some "builder")
    && decide (asString (member "successorDisposition" candidate) = some "invalid")
    && strictEq (member "successor" candidate) (some .null)
    && decide (purposes.count builderRepairOutputPurpose = 1)
    && decide (purposes.count carrierManifestPurpose = 1)
    && if reference.purpose = builderRepairOutputPurpose then
        decide (reference.mediaType = "application/json")
          && decide (reference.byteLength ≤ 64 * 1024)
      else decide (reference.purpose = carrierManifestPurpose)
        && decide (reference.mediaType = carrierManifestMediaType)

/-- `assertAdjacentFileReferenceOwnership`. -/
def assertAdjacentFileReferenceOwnership (revision : ControlRecordRevision)
    (reference : RetainedAdjacentFileReference) : Except FoundationError Unit :=
  if revision.recordKind = "candidate-revision" then
    failIf (reference.purpose ≠ carrierManifestPurpose
        ∨ reference.mediaType ≠ carrierManifestMediaType)
      (storeError "candidate-carrier-reference"
        "candidate-revision must select the reserved Candidate Revision Carrier manifest purpose and media type")
  else
    failIf ((reference.purpose = carrierManifestPurpose
        ∨ reference.mediaType = carrierManifestMediaType
        ∨ reference.purpose = builderRepairOutputPurpose)
        ∧ failedBuilderPair revision reference = false)
      (storeError "candidate-carrier-reference"
        s!"{revision.recordKind} cannot claim a Carrier manifest outside one exact Candidate or failed-builder repair pair")

/-- The reference an object holds. -/
def adjacentReference (reference : JsonObject) (label : String) :
    Except FoundationError RetainedAdjacentFileReference := do
  let digest ← expectDigest (member "digest" reference) s!"{label} digest"
  let byteLength ← expectInteger (member "byteLength" reference) s!"{label} byte length"
  let mediaType ← expectString (member "mediaType" reference) s!"{label} media type"
  let purpose ← expectString (member "purpose" reference) s!"{label} purpose"
  return { digest, byteLength, mediaType, purpose }

/-- The reference of one raw material of a receipt. -/
def materialReference (revision : ControlRecordRevision) (material : Json) :
    Except FoundationError (Option RetainedAdjacentFileReference) := do
  let m ← orFail (asObject (some material))
    (storeError "file-reference" s!"{revision.recordKind} rawMaterials contains an invalid entry")
  let availability := asString (member "availability" m)
  if availability = some "not-retained" ∨ availability = some "unavailable" then return none
  else do
    failIf (availability ≠ some "retained")
      (storeError "file-reference"
        s!"{revision.recordKind} rawMaterials contains an invalid availability")
    let reference ← orFail (asObject (member "reference" m))
      (storeError "file-reference"
        s!"{revision.recordKind} retained raw material has no exact reference")
    let selected ← adjacentReference reference s!"{revision.recordKind} retained file"
    assertAdjacentFileReferenceOwnership revision selected
    return some selected

/-- `retainedAdjacentFileReferencesFromValidatedPayload`. -/
def retainedAdjacentFileReferences (revision : ControlRecordRevision) :
    Except FoundationError (List RetainedAdjacentFileReference) :=
  if revision.recordKind = "candidate-revision" then do
    let reference ← orFail (asObject (member "carrierManifest" revision.payload))
      (storeError "file-reference" "candidate-revision has no exact Carrier manifest reference")
    let selected ← adjacentReference reference "candidate-revision Carrier manifest"
    assertAdjacentFileReferenceOwnership revision selected
    return [selected]
  else if revision.recordKind ≠ "execution-receipt" ∧ revision.recordKind ≠ "check-receipt" then
    .ok []
  else do
    let materials ← orFail (asArray (member "rawMaterials" revision.payload))
      (storeError "file-reference"
        s!"{revision.recordKind} rawMaterials must be one validated array")
    let references ← materials.mapM (materialReference revision)
    return references.filterMap id

/-- The name of the carrier of a digest. -/
def carrierFilename (digest : Sha256Digest) : String :=
  String.ofList ("sha256-".toList ++ digest.toList.drop "sha256:".length)

/-! ## Targets and finalization -/

/-- `assertRetainedFileReferenceDescriptor`. -/
def assertRetainedFileReferenceDescriptor (db : ControlDatabase)
    (revision : ControlRecordRevision) (reference : RetainedAdjacentFileReference) :
    Except FoundationError Unit := do
  let row ← orFail (db.files.find? fun f => f.descriptor.digest = reference.digest)
    (storeError "file-reference" s!"{revision.recordKind} {revision.recordId} revision {
      revision.revision} references an unavailable retained file")
  failIf ((row.descriptor.byteLength : Int) ≠ reference.byteLength
      ∨ row.descriptor.mediaType ≠ reference.mediaType
      ∨ row.descriptor.purpose ≠ reference.purpose
      ∨ row.filename ≠ carrierFilename reference.digest)
    (storeError "file-reference" s!"{revision.recordKind} {revision.recordId} revision {
      revision.revision} does not reproduce the retained file metadata")

/-- `exactRetainedRevisionFacts`. -/
def exactRetainedRevisionFacts (db : ControlDatabase) (recordId : String) (revision : Nat)
    (failureCode label : String) : Except FoundationError ControlRecordRevision :=
  orFail (getRevision db recordId revision)
    (storeError failureCode s!"{label} does not resolve inside this Control Record Store")

/-- One link of a revision selects a retained revision. -/
def assertRelationshipTarget (db : ControlDatabase) (revision : ControlRecordRevision)
    (r : ControlRecordRelationship) : Except FoundationError Unit := do
  let target ← exactRetainedRevisionFacts db r.target.id r.target.revision
    "relationship-reference" s!"{revision.recordKind} relationship {r.relation}"
  failIf (target.recordKind ≠ r.target.kind ∨ target.digest ≠ r.target.digest)
    (storeError "relationship-reference"
      s!"{revision.recordKind} relationship {r.relation} does not bind the exact retained target kind and digest")

/-- **`assertRevisionPolicyAndTargets`**, under the given profiles. -/
def assertRevisionPolicyAndTargets (profiles : String → Schema) (db : ControlDatabase)
    (revision : ControlRecordRevision) : Except FoundationError Unit := do
  assertDeliveryControlRecordPolicy revision
  assertDeliveryControlRecordPayload profiles revision
  let references ← retainedAdjacentFileReferences revision
  let _ ← references.mapM (assertRetainedFileReferenceDescriptor db revision)
  let _ ← revision.relationships.mapM (assertRelationshipTarget db revision)

/-- **`assertRetainedEventDescriptor`.** -/
def assertRetainedEventDescriptor (db : ControlDatabase) (event : ControlRecordEvent) :
    Except FoundationError Unit := do
  let descriptor ← assertDeliveryEventEnvelope event
  match event.subject with
  | none => return ()
  | some selected => do
    let subject ← exactRetainedRevisionFacts db selected.recordId selected.revision
      "event-subject" s!"{event.eventKind} event subject"
    failIf (subject.digest ≠ selected.digest)
      (storeError "event-subject"
        s!"{event.eventKind} does not bind the exact retained subject digest")
    let required := descriptor.subjectKind.getD "subjectless"
    failIf (descriptor.subjectKind ≠ some subject.recordKind)
      (storeError "event-subject-kind"
        s!"{event.eventKind} requires a {required} subject, not {subject.recordKind}")

/-- The subject a revision is. -/
def subjectOfRevision (revision : ControlRecordRevision) : ControlRecordEventSubject :=
  ⟨revision.recordId, revision.revision, revision.digest⟩

/-- `finalizationEventCount`. -/
def finalizationEventCount (db : ControlDatabase) (revision : ControlRecordRevision) :
    Except FoundationError Nat := do
  let policy ← deliveryControlRecordPolicy revision.recordKind
  return (db.events.filter
    (finalizes policy.finalizationEvent (subjectOfRevision revision))).length

/-- `assertExactRevisionFinalization`. -/
def assertExactRevisionFinalization (revision : ControlRecordRevision)
    (event : ControlRecordEvent) : Except FoundationError Unit := do
  let policy ← deliveryControlRecordPolicy revision.recordKind
  failIf (event.eventKind ≠ policy.finalizationEvent)
    (storeError "revision-finalization"
      s!"{revision.recordKind} must finalize with {policy.finalizationEvent}")
  failIf (event.subject ≠ some (subjectOfRevision revision))
    (storeError "event-subject"
      "An atomically appended revision must be the exact event subject")

/-- The finalization an event without a revision of its own makes occurs as
often as it should. -/
def assertSubjectFinalization (db : ControlDatabase) (event : ControlRecordEvent) (count : Nat)
    (message : String) : Except FoundationError Unit :=
  match event.subject with
  | none => .ok ()
  | some selected => do
    let subject ← orFail (getRevision db selected.recordId selected.revision)
      (storeError "event-subject"
        "Event subject does not resolve to one exact retained Control record revision")
    let policy ← deliveryControlRecordPolicy subject.recordKind
    let finalizations ← finalizationEventCount db subject
    failIf (event.eventKind = policy.finalizationEvent ∧ finalizations ≠ count)
      (storeError "revision-finalization" message)

def exactlyOneFinalization : String :=
  "A retained revision must have exactly one registry finalization event"

end ControlStore

/-! ## Batches -/

/-- `assertNoUnboundCandidateRevision`. -/
def assertNoUnboundCandidateRevision (appends : List ControlRecordStoreAppend) :
    Except FoundationError Unit :=
  failIf (∃ a ∈ appends, ∃ r ∈ a.revision, r.recordKind = "candidate-revision")
    (storeError "candidate-carrier-file-required"
      "candidate-revision may be retained only through a file-bound append that supplies its exact Carrier manifest bytes")

namespace ControlStore

/-- The revision of an append, compiled. -/
def compileAppend (identity : ControlRecordStoreIdentity) (input : ControlRecordStoreAppend) :
    Except FoundationError CompiledAppend :=
  match input.revision with
  | none => .ok ⟨input, none⟩
  | some r => do
    let revision ← compileControlRecordRevision identity.processId r
    assertDeliveryControlRecordPolicy revision
    return ⟨input, some revision⟩

/-- **A batch names each event and each revision once.** -/
def assertDistinctAppends (eventIds : List String) (coordinates : List (String × Nat)) :
    List CompiledAppend → Except FoundationError Unit
  | [] => .ok ()
  | item :: items => do
    let eventId ← controlIdentifier item.input.event.eventId "Control record event identity"
    failIf (eventId ∈ eventIds)
      (storeError "batch-conflict" s!"Append batch repeats event identity {eventId}")
    match item.revision with
    | none => assertDistinctAppends (eventId :: eventIds) coordinates items
    | some r => do
      failIf ((r.recordId, r.revision) ∈ coordinates)
        (storeError "batch-conflict"
          s!"Append batch repeats Control revision {r.recordId} revision {r.revision}")
      assertDistinctAppends (eventId :: eventIds) ((r.recordId, r.revision) :: coordinates) items

/-- The pending file custody is the expected one. -/
def assertExpectedPending (db : ControlDatabase) (expected : Option PendingFileBatch) :
    Except FoundationError Unit :=
  match expected with
  | none => failIf (db.pending.isSome = true)
      (storeError "file-batch-conflict"
        "Pending file custody must recover before another Control append")
  | some batch => failIf (∀ retained ∈ db.pending,
        retained.digest ≠ batch.digest ∨ retained.manifestJson ≠ batch.manifestJson)
      (storeError "file-batch-conflict"
        "Pending file custody changed before its exact Control append")

/-! ## Retries -/

/-- One item of a batch that is retained, after the item before it. -/
def retainedAppend (profiles : String → Schema) (db : ControlDatabase)
    (previous : Option ControlRecordEvent) (item : CompiledAppend)
    (existing : ControlRecordEvent) : Except FoundationError ControlRecordStoreAppendResult := do
  assertRetainedEventDescriptor db existing
  let reproduced ← compileControlRecordEvent db.identity.storeId db.identity.processId
    existing.sequence existing.predecessorDigest item.input.event
  assertRetainedEventDescriptor db reproduced
  failIf (reproduced.digest ≠ existing.digest)
    (storeError "event-conflict"
      s!"Event identity {item.input.event.eventId} already names different logical content")
  failIf (∃ before ∈ previous, existing.sequence ≠ before.sequence + 1
      ∨ existing.predecessorDigest ≠ some before.digest)
    (storeError "batch-order"
      "Retained append batch events are not one exact contiguous sequence in supplied order")
  match item.revision with
  | none => do
    assertSubjectFinalization db existing 1 exactlyOneFinalization
    return ⟨none, existing⟩
  | some revision => do
    let retained ← orFail ((getRevision db revision.recordId revision.revision).filter fun r =>
        r.digest = revision.digest)
      (storeError "revision-conflict"
        "Idempotent batch replay names a different Control record revision")
    assertRevisionPolicyAndTargets profiles db retained
    assertExactRevisionFinalization retained existing
    let finalizations ← finalizationEventCount db retained
    failIf (finalizations ≠ 1) (storeError "revision-finalization" exactlyOneFinalization)
    return ⟨some retained, existing⟩

/-- The items of a batch that is retained, in their order. -/
def retainedAppends (profiles : String → Schema) (db : ControlDatabase)
    (previous : Option ControlRecordEvent) :
    List (CompiledAppend × ControlRecordEvent) →
      Except FoundationError (List ControlRecordStoreAppendResult)
  | [] => .ok []
  | (item, existing) :: items => do
    let result ← retainedAppend profiles db previous item existing
    let results ← retainedAppends profiles db (some existing) items
    return result :: results

/-- The rows of the events a batch names. -/
def retainedRows (db : ControlDatabase) (items : List CompiledAppend) :
    List (CompiledAppend × ControlRecordEvent) :=
  items.filterMap fun item =>
    (eventRow db item.input.event.eventId).map fun row => (item, row)

/-! ## Fresh items -/

/-- The record of a fresh revision, entered when it is new. -/
def retainRecord (db : ControlDatabase) (revision : ControlRecordRevision) :
    Except StoreFailure ControlDatabase :=
  match db.records.find? fun row => row.recordId = revision.recordId with
  | none => do
    failIf (maximumControlRecords ≤ db.records.length)
      (refuse "record-limit" "Control Record Store reached its logical record limit")
    failIf (revision.revision ≠ 1)
      (refuse "revision-order" "A new Control record must begin at revision 1")
    execute db (.insertRecord
      ⟨revision.recordId, revision.processId, revision.recordKind, revision.createdAt⟩)
  | some row => do
    failIf (row.recordKind ≠ revision.recordKind)
      (refuse "revision-kind" "A Control record identity cannot change kind across revisions")
    let current ← orFail (maximumRevision db revision.recordId)
      (refuse "database-shape" "Current Control record revision must be one safe integer")
    failIf (revision.revision ≠ current + 1)
      (refuse "revision-order" "A Control record revision must follow its exact current revision")
    return db

/-- The links of a revision, entered one by one. -/
def retainRelationships (db : ControlDatabase) (revision : ControlRecordRevision) :
    Except StoreFailure ControlDatabase :=
  replay (fun db r =>
    execute db (.insertRelationship ⟨revision.recordId, revision.revision, r⟩))
    db revision.relationships

/-- **The revision of a fresh item is entered**, with its record and its
links. -/
def retainRevision (profiles : String → Schema) (db : ControlDatabase)
    (revision : ControlRecordRevision) : Except StoreFailure ControlDatabase := do
  failIf ((getRevision db revision.recordId revision.revision).isSome = true)
    (refuse "revision-conflict"
      "A fresh append batch cannot finalize an already retained Control record revision")
  failIf (maximumControlRevisions ≤ db.revisions.length)
    (refuse "revision-limit" "Control Record Store reached its revision limit")
  let db ← retainRecord db revision
  lifted (assertRevisionPolicyAndTargets profiles db revision)
  let db ← execute db (.insertRevision revision)
  retainRelationships db revision

/-- `getWorkDelegationStopRequest`. -/
def getWorkDelegationStopRequest (db : ControlDatabase) :
    Except FoundationError (Option WorkDelegationStopRequest) := do
  failIf (∃ request ∈ db.stopRequest, request.storeId ≠ db.identity.storeId
      ∨ request.processId ≠ db.identity.processId)
    (storeError "work-stop-integrity"
      "Stop request custody must reproduce its exact Store and delegation bindings")
  return db.stopRequest

/-- The payload of the settlement of a request. -/
def settlementPayload (request : WorkDelegationStopRequest) : JsonObject := [
  ("requestDigest", .string request.digest), ("requestedAt", .string request.requestedAt),
  ("requestedBy", .string request.requestedBy)]

/-- **`#assertWorkDelegationStopBoundary`**: the request the event settles,
if it settles one. -/
def assertWorkDelegationStopBoundary (db : ControlDatabase) (event : ControlRecordEvent) :
    Except FoundationError (Option WorkDelegationStopRequest) := do
  let pending ← getWorkDelegationStopRequest db
  if event.eventKind = "work-delegation-stopped" then do
    let inexact := storeError "work-stop-integrity"
      "Settling a stop requires its exact retained request in the same transaction"
    let request ← orFail pending inexact
    failIf (event.subject ≠ some ⟨request.delegation.id, request.delegation.revision,
      request.delegation.digest⟩) inexact
    let payload ← canonicalJson (.object event.payload)
    let expected ← canonicalJson (.object (settlementPayload request))
    failIf (payload ≠ expected) inexact
    return some request
  else do
    failIf (pending.isSome = true ∧ (event.eventKind = "activity-started"
        ∨ event.eventKind = "work-delegation-set" ∨ event.eventKind = "closure-recorded"))
      (storeError "work-stop-pending"
        "The retained stop must settle before another Activity, delegation or Closure")
    return none

end ControlStore

/-! ## The transaction of a batch -/

/-- An open handle of the store, with the replay it keeps. -/
structure StoreHandle where
  readOnly : Bool
  replay : Replay

/-- **What a transaction works on**: the tables, the handle, and the batch
it appends. -/
structure StoreWork where
  db : ControlDatabase
  /-- The handle, as the transaction leaves it. -/
  handle : Option StoreHandle
  /-- The replay of the handle, continued over the batch. -/
  replay : Replay
  /-- The items not yet appended. -/
  queue : List CompiledAppend := []
  sequence : Nat := 1
  predecessorDigest : Option Sha256Digest := none
  predecessorTime : Option String := none
  appends : List ControlRecordStoreAppendResult := []
  disposition : AppendDisposition := .appended

namespace ControlStore

section Batch

variable (profiles : String → Schema)

/-- The compiled items of a batch, which names each thing once. -/
def compileAppends (identity : ControlRecordStoreIdentity)
    (inputs : List ControlRecordStoreAppend) : Except FoundationError (List CompiledAppend) := do
  failIf (inputs.length < 1 ∨ maximumAppendBatchItems < inputs.length)
    (storeError "batch-bound" s!"A Control Record Store append batch must contain between 1 and {
      maximumAppendBatchItems} ordered items")
  let compiled ← inputs.mapM (compileAppend identity)
  assertDistinctAppends [] [] compiled
  return compiled

/-- A batch none of whose events is retained is taken up. -/
def beginAppends (w : StoreWork) (compiled : List CompiledAppend) :
    Except FoundationError StoreWork := do
  failIf (w.db.storeSeal.isSome = true)
    (storeError "sealed" "A sealed Control Record Store cannot accept another revision or event")
  failIf (maximumJournalEvents < w.db.events.length + compiled.length)
    (storeError "event-limit" "Control Record Store append batch exceeds its Journal event limit")
  return { w with
    queue := compiled
    sequence := ((headRow w.db).map (·.sequence)).getD 0 + 1
    predecessorDigest := (headRow w.db).map (·.digest)
    predecessorTime := (headRow w.db).map (·.occurredAt)
    disposition := .appended }

/-- **A batch is resolved**: refused, found to be retained, or taken up. -/
def resolveAppends (inputs : List ControlRecordStoreAppend) (expected : Option PendingFileBatch)
    (w : StoreWork) : Except FoundationError StoreWork := do
  let compiled ← compileAppends w.db.identity inputs
  assertExpectedPending w.db expected
  if retainedRows w.db compiled = [] then beginAppends w compiled
  else do
    failIf ((retainedRows w.db compiled).length ≠ compiled.length)
      (storeError "batch-partial"
        "Append batch is partially retained and cannot be replayed as one atomic boundary")
    let retained ← retainedAppends profiles w.db none (retainedRows w.db compiled)
    return { w with queue := [], appends := retained, disposition := .retained }

/-- The finalization a fresh event makes is the one its item should make. -/
def assertFreshFinalization (db : ControlDatabase) (revision : Option ControlRecordRevision)
    (event : ControlRecordEvent) : Except FoundationError Unit :=
  match revision with
  | some revision => assertExactRevisionFinalization revision event
  | none => assertSubjectFinalization db event 0
      "A Control record revision cannot have another finalization event"

/-- After its event, an item has made its one finalization. -/
def assertFinalized (db : ControlDatabase) (revision : Option ControlRecordRevision)
    (event : ControlRecordEvent) : Except FoundationError Unit :=
  match revision with
  | some revision => do
    let finalizations ← finalizationEventCount db revision
    failIf (finalizations ≠ 1)
      (storeError "revision-finalization"
        "An appended revision must have exactly one registry finalization event")
  | none => assertSubjectFinalization db event 1 exactlyOneFinalization

/-- The stop request an event settles is removed. -/
def removeSettled (db : ControlDatabase) :
    Option WorkDelegationStopRequest → Except StoreFailure ControlDatabase
  | none => .ok db
  | some request => execute db (.deleteStopRequest request.digest)

/-- **The event of a fresh item is entered**, behind the head of the journal
and within the replay. -/
def retainEvent (w : StoreWork) (item : CompiledAppend) : Except StoreFailure StoreWork := do
  let occurredAt ← lifted (controlTimestamp item.input.event.occurredAt
    "Control record event time")
  lifted (assertEventTime w.predecessorTime occurredAt)
  let event ← lifted (compileControlRecordEvent w.db.identity.storeId w.db.identity.processId
    w.sequence w.predecessorDigest item.input.event)
  lifted (assertRetainedEventDescriptor w.db event)
  lifted (assertFreshFinalization w.db item.revision event)
  let settledStop ← lifted (assertWorkDelegationStopBoundary w.db event)
  let replay ← lifted (append (resolver w.db) w.replay event)
  let db ← execute w.db (.insertEvent event)
  let db ← removeSettled db settledStop
  lifted (assertFinalized db item.revision event)
  return { w with
    db, replay
    sequence := w.sequence + 1
    predecessorDigest := some event.digest
    predecessorTime := some event.occurredAt
    appends := w.appends ++ [⟨item.revision, event⟩] }

/-- The revision of a fresh item, when it has one. -/
def retainItemRevision (db : ControlDatabase) :
    Option ControlRecordRevision → Except StoreFailure ControlDatabase
  | none => .ok db
  | some revision => retainRevision profiles db revision

/-- **The next item of a batch.** -/
def appendItem (w : StoreWork) : Except StoreFailure StoreWork :=
  match w.queue with
  | [] => .ok w
  | item :: rest => do
    let db ← retainItemRevision profiles w.db item.revision
    retainEvent { w with db := db, queue := rest } item

/-- Whether a result is the grant that a standing direction names. -/
def selectsStanding (payload : JsonObject) (result : ControlRecordStoreAppendResult) :
    Option ControlRecordRevision :=
  if result.event.eventKind = "work-delegation-set" then
    result.revision.filter fun r =>
      strictEq (some (.string r.recordId)) (member "delegationId" payload)
        && strictEq (some (nat r.revision)) (member "delegationRevision" payload)
  else none

/-- A standing direction is finalized together with the grant that uses it. -/
def assertStandingBrief (results : List ControlRecordStoreAppendResult)
    (result : ControlRecordStoreAppendResult) : Except FoundationError Unit :=
  if result.event.eventKind = "director-brief-submitted"
      ∧ hasOwn result.event.payload "delegationId" = true then
    failIf (∀ brief ∈ result.revision,
        ∀ grant ∈ results.findSome? (selectsStanding result.event.payload),
          ∀ link ∈ grant.relationships, ¬ (link.relation = "uses-brief"
            ∧ link.target = ⟨"director-brief", brief.recordId, brief.revision, brief.digest⟩))
      (storeError "work-delegation-brief-batch"
        "Standing Director direction must finalize with its exact selecting Work Delegation in one atomic batch")
  else .ok ()

/-- The last check of a fresh batch. -/
def assertStandingBriefs (w : StoreWork) : Except FoundationError StoreWork := do
  let _ ← onlyIf (w.disposition = .appended)
    (discard (w.appends.mapM (assertStandingBrief w.appends)))
  return w

/-- **The statements of `#appendBatchInTransaction`**: the batch is
resolved, its items are appended one by one, and its standing directions
are checked. -/
def appendStatements (inputs : List ControlRecordStoreAppend)
    (expected : Option PendingFileBatch) : List (StoreWork → Except StoreFailure StoreWork) :=
  (fun w => lifted (resolveAppends profiles inputs expected w))
    :: (inputs.map fun _ => appendItem profiles) ++ [fun w => lifted (assertStandingBriefs w)]

end Batch

end ControlStore
