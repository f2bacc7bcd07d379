import Lifecycle.ControlKinds
import Lifecycle.TimeOrder

/-!
# The database of a control store

The tables of a control record store (`control/store.ts`, `schemaSql`), and
the statements the store executes on them, each with the triggers and
constraints that guard it. A row is the value it was written from: the text
columns of the source are canonical JSON, which every read compiles and
digests again.

A revision and its links are read back by joins, so a row of
`record_revisions` is its compiled revision, under the kind and process of
its record; the rows of `record_relationships` stand beside it. The rows of
`pending_file_batches` and `pending_file_entries` are one value.
-/

open Fallible Json ControlModel

/-! ## Values -/

/-- **A failure of the store**: an error of the runtime, or the database
refusing a statement. -/
inductive StoreFailure
  | foundation (error : FoundationError)
  | database (message : String)
deriving DecidableEq

/-- `ControlRecordStoreIdentity`. -/
structure ControlRecordStoreIdentity where
  schema : String
  storeId : String
  targetId : String
  processKind : String
  processId : String
  createdAt : String
deriving DecidableEq

/-- `ControlRecordFile`. -/
structure ControlRecordFile where
  schema : String
  digest : Sha256Digest
  byteLength : Nat
  mediaType : String
  purpose : String
  createdAt : String
deriving DecidableEq

/-- `ControlRecordOperationSupportCoordinate`. -/
structure ControlRecordOperationSupportCoordinate where
  generation : Nat
  payloadDigest : Sha256Digest
deriving DecidableEq

/-- `ControlRecordOperationSupport`, its payload as the canonical text the
row retains. -/
structure ControlRecordOperationSupport where
  schema : String
  storeId : String
  processId : String
  activityId : String
  supportKind : String
  generation : Nat
  payloadJson : List UInt8
  payloadDigest : Sha256Digest
deriving DecidableEq

/-- `OperationSupportTombstone`. -/
structure OperationSupportTombstone where
  storeId : String
  processId : String
  activityId : String
  supportKind : String
  generation : Nat
  deleted : ControlRecordOperationSupportCoordinate
deriving DecidableEq

/-- `RetainedOperationSupport`. -/
inductive RetainedOperationSupport
  | live (support : ControlRecordOperationSupport)
  | deleted (tombstone : OperationSupportTombstone)
deriving DecidableEq

/-- The head a seal binds. -/
structure JournalHead where
  sequence : Nat
  digest : Sha256Digest
deriving DecidableEq

/-- `ControlRecordStoreSeal`. -/
structure ControlRecordStoreSeal where
  closure : ControlRecordEventSubject
  head : JournalHead
  logicalInventoryDigest : Sha256Digest
  sealedAt : String
deriving DecidableEq

/-- `ControlRecordOperationSupportPut`. -/
structure ControlRecordOperationSupportPut where
  activityId : String
  supportKind : String
  payload : JsonObject
  expected : Option ControlRecordOperationSupportCoordinate

/-- `PreparedOperationSupportPut`. -/
structure PreparedOperationSupportPut where
  activityId : String
  supportKind : String
  payloadJson : List UInt8
  payloadDigest : Sha256Digest
  expected : Option ControlRecordOperationSupportCoordinate
  result : ControlRecordOperationSupport
deriving DecidableEq

/-- `PreparedOperationSupportDelete`. -/
structure PreparedOperationSupportDelete where
  activityId : String
  expected : ControlRecordOperationSupportCoordinate
deriving DecidableEq

/-- `PreparedOperationSupportMutation`. -/
inductive PreparedOperationSupportMutation
  | put (value : PreparedOperationSupportPut)
  | delete (value : PreparedOperationSupportDelete)
deriving DecidableEq

/-- The activity of a mutation. -/
def PreparedOperationSupportMutation.activityId : PreparedOperationSupportMutation → String
  | .put value => value.activityId
  | .delete value => value.activityId

/-- `PendingFileManifestAppend`. -/
structure PendingFileManifestAppend where
  revision : Option ControlRecordEventSubject
  event : ControlRecordEventInput

/-- `PendingFileManifest`, its mutations prepared. -/
structure PendingFileManifest where
  files : List ControlRecordFile
  appends : List PendingFileManifestAppend
  supportMutations : List PreparedOperationSupportMutation

/-- `PendingFileEntry`. -/
structure PendingFileEntry where
  descriptor : ControlRecordFile
  filename : String
  temporaryFilename : String
  preexisting : Bool
deriving DecidableEq

/-- `PendingFileBatch`. -/
structure PendingFileBatch where
  digest : Sha256Digest
  manifestJson : List UInt8
  manifest : PendingFileManifest
  entries : List PendingFileEntry

/-! ## Tables -/

/-- A row of `control_records`. -/
structure ControlRecordRow where
  recordId : String
  processId : String
  recordKind : String
  createdAt : String
deriving DecidableEq

/-- A row of `record_relationships`. -/
structure RecordRelationshipRow where
  sourceRecordId : String
  sourceRevision : Nat
  relationship : ControlRecordRelationship
deriving DecidableEq

/-- A row of `referenced_files`. -/
structure ReferencedFileRow where
  descriptor : ControlRecordFile
  filename : String
deriving DecidableEq

/-- **The tables of a store.** -/
structure ControlDatabase where
  /-- `store_metadata`. -/
  identity : ControlRecordStoreIdentity
  records : List ControlRecordRow := []
  revisions : List ControlRecordRevision := []
  relationships : List RecordRelationshipRow := []
  /-- `journal_events`, by their sequence. -/
  events : List ControlRecordEvent := []
  files : List ReferencedFileRow := []
  /-- `pending_file_batches` with `pending_file_entries`. -/
  pending : Option PendingFileBatch := none
  /-- `operation_support`, by activity. -/
  support : OrderedMap String RetainedOperationSupport := ∅
  /-- `work_delegation_stop_request`. -/
  stopRequest : Option WorkDelegationStopRequest := none
  /-- `store_seal`. -/
  storeSeal : Option ControlRecordStoreSeal := none

namespace ControlStore

def controlRecordStoreSchema : String := "lifecycle.control-record-store.v2"
def controlRecordFileSchema : String := "lifecycle.control-record-file.v1"
def operationSupportSchema : String := "lifecycle.control-record-operation-support.v1"

def maximumControlRecords : Nat := 10000
def maximumControlRevisions : Nat := 25000
def maximumJournalEvents : Nat := 100000
def maximumAppendBatchItems : Nat := 256
def maximumReferencedFiles : Nat := 4096
def maximumReferencedFileTotalBytes : Nat := 8 * 1024 * 1024 * 1024
def maximumOperationSupportEntries : Nat := 256

/-- A refusal of the store (`fail`). -/
def refuse (code message : String) : StoreFailure := .foundation (storeError code message)

/-- What the runtime's checks refuse, the store refuses. -/
def lifted {α : Type} : Except FoundationError α → Except StoreFailure α
  | .ok a => .ok a
  | .error e => .error (.foundation e)

@[simp] theorem lifted_eq_ok {α : Type} {x : Except FoundationError α} {a : α} :
    lifted x = .ok a ↔ x = .ok a := by
  cases x with
  | ok b => rw [lifted, Except.ok.injEq, Except.ok.injEq]
  | error e => exact ⟨nofun, nofun⟩

/-! ## Reading -/

variable (db : ControlDatabase)

/-- `getRevision`. -/
def getRevision (recordId : String) (revision : Nat) : Option ControlRecordRevision :=
  db.revisions.find? fun r => r.recordId = recordId ∧ r.revision = revision

/-- The resolver a store gives its replay. -/
def resolver : DeliveryRecordRevisionResolver :=
  fun subject => getRevision db subject.recordId subject.revision

/-- The row of `journal_events` with an event's identity. -/
def eventRow (eventId : String) : Option ControlRecordEvent :=
  db.events.find? fun e => e.eventId = eventId

/-- The last row of `journal_events`. -/
def headRow : Option ControlRecordEvent := db.events.getLast?

/-- The greatest revision of a record. -/
def maximumRevision (recordId : String) : Option Nat :=
  ((db.revisions.filter fun r => r.recordId = recordId).map (·.revision)).max?

/-- Whether an event is the `event_kind` finalization of a subject. -/
def finalizes (eventKind : String) (subject : ControlRecordEventSubject)
    (event : ControlRecordEvent) : Bool :=
  decide (event.eventKind = eventKind) && decide (event.subject = some subject)

/-- How many support rows are live. -/
def liveSupportCount : Nat :=
  (db.support.values.filter fun
    | .live _ => true
    | .deleted _ => false).length

/-- Whether the live support of an activity stands at a coordinate: the
`WHERE` of a support update. -/
def standsAt (activityId : String) (expected : ControlRecordOperationSupportCoordinate) : Bool :=
  match db.support.get activityId with
  | some (.live s) => decide (s.generation = expected.generation)
      && decide (s.payloadDigest = expected.payloadDigest)
  | _ => false

/-- Whether the pending batch takes custody of a new file. -/
def pendingNewFile (digest : Sha256Digest) : Option PendingFileEntry :=
  (db.pending.map (·.entries)).getD [] |>.find? fun e =>
    e.descriptor.digest = digest ∧ e.preexisting = false

end ControlStore

open ControlStore

/-! ## Statements -/

/-- **The statements the store executes** on its tables. -/
inductive ControlStatement
  | insertRecord (row : ControlRecordRow)
  | insertRevision (revision : ControlRecordRevision)
  | insertRelationship (row : RecordRelationshipRow)
  | insertEvent (event : ControlRecordEvent)
  | insertFile (row : ReferencedFileRow)
  | deleteFile (digest : Sha256Digest)
  /-- The rows of a batch and of its entries. -/
  | insertPending (batch : PendingFileBatch)
  | deletePending (digest : Sha256Digest)
  | insertSupport (support : ControlRecordOperationSupport)
  /-- The update of the live row at a coordinate. -/
  | updateSupport (activityId : String) (expected : ControlRecordOperationSupportCoordinate)
      (row : RetainedOperationSupport)
  /-- The removal of every disposed row. -/
  | deleteDisposedSupport
  | insertStopRequest (request : WorkDelegationStopRequest)
  | deleteStopRequest (digest : Sha256Digest)
  | insertSeal (value : ControlRecordStoreSeal)

namespace ControlStore

/-- The triggers `…_reject_after_seal`. -/
def rejectAfterSeal (db : ControlDatabase) : Except StoreFailure Unit :=
  failIf (db.storeSeal ≠ none) (.database "sealed Control Record Store is immutable")

/-- What an update of a support row must keep and advance
(`operation_support_exact_update`). -/
def advancesSupport (before : RetainedOperationSupport) : RetainedOperationSupport → Bool
  | .live s =>
    match before with
    | .live b => decide (s.activityId = b.activityId) && decide (s.schema = b.schema)
        && decide (s.storeId = b.storeId) && decide (s.processId = b.processId)
        && decide (s.supportKind = b.supportKind) && decide (s.generation = b.generation + 1)
    | .deleted _ => false
  | .deleted t =>
    match before with
    | .live b => decide (t.activityId = b.activityId) && decide (t.storeId = b.storeId)
        && decide (t.processId = b.processId) && decide (t.supportKind = b.supportKind)
        && decide (t.generation = b.generation + 1)
        && decide (t.generation = t.deleted.generation + 1)
    | .deleted _ => false

/-- Whether the journal holds the settlement of a stop request
(`work_delegation_stop_request_exact_delete`). -/
def settlesStop (request : WorkDelegationStopRequest) (event : ControlRecordEvent) : Bool :=
  decide (event.eventKind = "work-delegation-stopped")
    && decide (event.subject = some ⟨request.delegation.id, request.delegation.revision,
        request.delegation.digest⟩)
    && decide (asString (member "requestDigest" event.payload) = some request.digest)

/-- `journal_events_contiguous_insert`. -/
def contiguousEvent (db : ControlDatabase) (event : ControlRecordEvent) :
    Except StoreFailure Unit := do
  failIf (event.sequence ≠ ((headRow db).map (·.sequence)).getD 0 + 1)
    (.database "journal_events must be contiguous")
  failIf (event.predecessorDigest ≠ (headRow db).map (·.digest))
    (.database "journal_events must bind the exact predecessor")
  failIf (triggerAdmitsTime ((headRow db).map (·.occurredAt)) event.occurredAt = false)
    (.database "journal_events time cannot move backwards")
  failIf (∃ subject ∈ event.subject,
      (getRevision db subject.recordId subject.revision).map (·.digest) ≠ some subject.digest)
    (.database "journal_events must bind the exact subject revision")

/-- `store_seal_exact_insert`. -/
def exactSeal (db : ControlDatabase) (value : ControlRecordStoreSeal) :
    Except StoreFailure Unit := do
  failIf (db.pending.isSome = true) (.database "store_seal requires empty pending file custody")
  failIf (liveSupportCount db ≠ 0) (.database "store_seal requires no live operation support")
  failIf (db.stopRequest.isSome = true)
    (.database "store_seal requires no pending work delegation stop")
  failIf ((getRevision db value.closure.recordId value.closure.revision).map (·.digest)
      ≠ some value.closure.digest)
    (.database "store_seal must bind the exact Closure revision")
  failIf ((db.events.find? fun e => e.sequence = value.head.sequence).map (·.digest)
      ≠ some value.head.digest)
    (.database "store_seal must bind the exact Journal head")

end ControlStore

/-- **The execution of a statement**, under the triggers and constraints of
its table. -/
def execute (db : ControlDatabase) : ControlStatement → Except StoreFailure ControlDatabase
  | .insertRecord row => do
    rejectAfterSeal db
    failIf (row.recordId ∈ db.records.map (·.recordId))
      (.database "UNIQUE constraint failed: control_records.record_id")
    failIf (row.processId ≠ db.identity.processId) (.database "FOREIGN KEY constraint failed")
    return { db with records := db.records ++ [row] }
  | .insertRevision revision => do
    failIf (revision.revision ≠ ((maximumRevision db revision.recordId).map (· + 1)).getD 1)
      (.database "record_revisions must be contiguous")
    rejectAfterSeal db
    failIf (revision.digest ∈ db.revisions.map (·.digest))
      (.database "UNIQUE constraint failed: record_revisions.digest")
    failIf (revision.recordId ∉ db.records.map (·.recordId))
      (.database "FOREIGN KEY constraint failed")
    return { db with revisions := db.revisions ++ [revision] }
  | .insertRelationship row => do
    rejectAfterSeal db
    failIf (row ∈ db.relationships)
      (.database "UNIQUE constraint failed: record_relationships")
    failIf ((getRevision db row.sourceRecordId row.sourceRevision).isNone = true
        ∨ (getRevision db row.relationship.target.id row.relationship.target.revision).isNone = true)
      (.database "FOREIGN KEY constraint failed")
    return { db with relationships := db.relationships ++ [row] }
  | .insertEvent event => do
    contiguousEvent db event
    rejectAfterSeal db
    failIf (event.eventId ∈ db.events.map (·.eventId))
      (.database "UNIQUE constraint failed: journal_events.event_id")
    failIf (event.digest ∈ db.events.map (·.digest))
      (.database "UNIQUE constraint failed: journal_events.digest")
    return { db with events := db.events ++ [event] }
  | .insertFile row => do
    failIf (∀ e ∈ pendingNewFile db row.descriptor.digest,
        e.descriptor ≠ row.descriptor ∨ e.filename ≠ row.filename)
      (.database "referenced_files require exact pending custody")
    rejectAfterSeal db
    failIf (row.descriptor.digest ∈ db.files.map (·.descriptor.digest))
      (.database "UNIQUE constraint failed: referenced_files.digest")
    failIf (row.filename ∈ db.files.map (·.filename))
      (.database "UNIQUE constraint failed: referenced_files.filename")
    return { db with files := db.files ++ [row] }
  | .deleteFile digest => do
    failIf (digest ∈ db.files.map (·.descriptor.digest) ∧ pendingNewFile db digest = none)
      (.database "referenced_files are immutable")
    return { db with files := db.files.filter fun row => row.descriptor.digest ≠ digest }
  | .insertPending batch => do
    rejectAfterSeal db
    failIf (db.pending.isSome = true)
      (.database "UNIQUE constraint failed: pending_file_batches.singleton")
    return { db with pending := some batch }
  | .deletePending digest =>
    .ok { db with pending := db.pending.filter fun batch => batch.digest ≠ digest }
  | .insertSupport support => do
    failIf (support.generation ≠ 1)
      (.database "operation_support must begin live at generation 1")
    rejectAfterSeal db
    failIf (db.support.has support.activityId = true)
      (.database "UNIQUE constraint failed: operation_support.activity_id")
    return { db with support := db.support.set support.activityId (.live support) }
  | .updateSupport activityId expected row => do
    failIf (standsAt db activityId expected = true ∧ ∃ before ∈ db.support.get activityId,
        advancesSupport before row = false)
      (.database "operation_support update must advance one exact bound generation")
    failIf (standsAt db activityId expected = true ∧ db.storeSeal ≠ none)
      (.database "sealed Control Record Store is immutable")
    if standsAt db activityId expected = true
      then return { db with support := db.support.set activityId row }
      else return db
  | .deleteDisposedSupport => do
    failIf (db.support.values.length ≠ liveSupportCount db ∧ db.storeSeal ≠ none)
      (.database "sealed Control Record Store is immutable")
    return { db with support := db.support.filterValues fun
      | .live _ => true
      | .deleted _ => false }
  | .insertStopRequest request => do
    rejectAfterSeal db
    failIf (∀ revision ∈ getRevision db request.delegation.id request.delegation.revision,
        revision.recordKind ≠ "work-delegation" ∨ revision.digest ≠ request.delegation.digest)
      (.database "stop request requires an exact work delegation")
    failIf (db.stopRequest.isSome = true)
      (.database "UNIQUE constraint failed: work_delegation_stop_request.singleton")
    return { db with stopRequest := some request }
  | .deleteStopRequest digest => do
    failIf (∃ request ∈ db.stopRequest, request.digest = digest
        ∧ db.events.any (settlesStop request) = false)
      (.database "stop request may be removed only with its exact Journal fact")
    return { db with stopRequest := db.stopRequest.filter fun request =>
      request.digest ≠ digest }
  | .insertSeal value => do
    exactSeal db value
    failIf (db.storeSeal.isSome = true) (.database "UNIQUE constraint failed: store_seal.singleton")
    return { db with storeSeal := some value }
