import Lifecycle.StoreAppends
import Lifecycle.Transactions

/-!
# The calls of a control store

The methods of `ControlRecordStore` (`control/store.ts`) that write, each as
the transaction it runs: appends, operation support, stop requests, file
custody and the seal. `storeSystem` is the system of any number of handles
on one database.

The steps of `appendWithFiles` and `commitOperationBatchWithFiles` that
touch the database – beginning the custody of the files, recording their
descriptors, the append and the cleaning – are calls of their own, which may
come in any order. What a call checks before its transaction it checks on
what is then committed; the checks of the file system, and those of
`verifyIntegrity`, only ever refuse and are left out.
-/

open Fallible Json ControlModel DeliveryReducer ControlStore Transactions

/-! ## Values -/

/-- `ControlRecordOperationSupportMutation`. -/
inductive ControlRecordOperationSupportMutation
  | put (value : ControlRecordOperationSupportPut)
  | delete (activityId : String) (expected : ControlRecordOperationSupportCoordinate)

/-- `PreparedPendingFileBatch`, as `preparePendingFileBatch` hands it on. -/
structure PreparedPendingFileBatch where
  digest : Sha256Digest
  manifestJson : List UInt8
  manifest : PendingFileManifest

/-- What a pending batch has come to. -/
inductive PendingFileState
  | absent
  | complete
deriving DecidableEq

namespace ControlStore

/-! ## Operation support -/

/-- `operationSupportCoordinate`. -/
def operationSupportCoordinate (value : ControlRecordOperationSupportCoordinate)
    (label : String) : Except FoundationError ControlRecordOperationSupportCoordinate := do
  failIf (value.generation < 1 ∨ maxSafeInteger < value.generation)
    (storeError "operation-support-cas"
      s!"{label} generation must be one positive safe integer")
  failIf (isSha256 value.payloadDigest = false)
    (storeError "database-shape" s!"{label} payload digest must be one lowercase SHA-256 digest")
  return value

/-- The expectation of a put, when it has one. -/
def expectedCoordinate :
    Option ControlRecordOperationSupportCoordinate →
      Except FoundationError (Option ControlRecordOperationSupportCoordinate)
  | none => .ok none
  | some value => do
    let expected ← operationSupportCoordinate value "Expected operation support"
    failIf (maxSafeInteger ≤ expected.generation)
      (storeError "operation-support-limit"
        "Operation support generation cannot advance safely")
    return some expected

/-- The generation a put leads to. -/
def nextGeneration : Option ControlRecordOperationSupportCoordinate → Nat
  | none => 1
  | some expected => expected.generation + 1

/-- `prepareOperationSupportPut`. -/
def prepareOperationSupportPut (identity : ControlRecordStoreIdentity)
    (input : ControlRecordOperationSupportPut) :
    Except FoundationError PreparedOperationSupportPut := do
  let activityId ← controlIdentifier input.activityId "Operation support activity identity"
  let supportKind ← controlRecordKind input.supportKind "Operation support kind"
  let payloadJson ← canonicalControlJsonObject input.payload "Operation support payload"
  let payloadDigest := sha256Bytes payloadJson
  let expected ← expectedCoordinate input.expected
  return { activityId, supportKind, payloadJson, payloadDigest, expected,
           result := { schema := operationSupportSchema, storeId := identity.storeId,
                       processId := identity.processId, activityId, supportKind,
                       generation := nextGeneration expected, payloadJson, payloadDigest } }

/-- `prepareOperationSupportDelete`. -/
def prepareOperationSupportDelete (activityId : String)
    (expected : ControlRecordOperationSupportCoordinate) :
    Except FoundationError PreparedOperationSupportDelete := do
  let activityId ← controlIdentifier activityId "Operation support activity identity"
  let expected ← operationSupportCoordinate expected "Expected operation support"
  return { activityId, expected }

/-- **`prepareOperationSupportMutation`.** -/
def prepareOperationSupportMutation (identity : ControlRecordStoreIdentity) :
    ControlRecordOperationSupportMutation →
      Except FoundationError PreparedOperationSupportMutation
  | .put value => do
    let prepared ← prepareOperationSupportPut identity value
    return .put prepared
  | .delete activityId expected => do
    let prepared ← prepareOperationSupportDelete activityId expected
    return .delete prepared

/-- Whether a support row is that of the store. -/
def bindsStore (identity : ControlRecordStoreIdentity) : RetainedOperationSupport → Bool
  | .live s => decide (s.schema = operationSupportSchema)
      && decide (s.storeId = identity.storeId) && decide (s.processId = identity.processId)
  | .deleted t => decide (t.storeId = identity.storeId)
      && decide (t.processId = identity.processId)

/-- `#getRetainedOperationSupport`. -/
def getRetainedOperationSupport (db : ControlDatabase) (activityId : String) :
    Except FoundationError (Option RetainedOperationSupport) := do
  let selected ← controlIdentifier activityId "Operation support activity identity"
  failIf (∃ row ∈ db.support.get selected, bindsStore db.identity row = false)
    (storeError "operation-support-integrity"
      "Operation support does not bind the exact selected store and Process")
  return db.support.get selected

/-- A new support row of an activity. -/
def createSupport (db : ControlDatabase) (prepared : PreparedOperationSupportPut)
    (current : Option RetainedOperationSupport) : Except StoreFailure ControlDatabase := do
  failIf (current.isSome = true)
    (refuse "operation-support-cas"
      "Operation support creation requires the exact activity coordinate to be absent")
  failIf (maximumOperationSupportEntries ≤ liveSupportCount db)
    (refuse "operation-support-limit"
      "Control Record Store reached its live operation-support limit")
  failIf (maximumJournalEvents ≤ db.support.values.length)
    (refuse "operation-support-limit"
      "Control Record Store reached its operation-support disposal limit")
  execute db (.insertSupport prepared.result)

/-- Whether a row is the live one a put expects to replace. -/
def replaces (prepared : PreparedOperationSupportPut)
    (expected : ControlRecordOperationSupportCoordinate) :
    Option RetainedOperationSupport → Bool
  | some (.live s) => decide (s.supportKind = prepared.supportKind)
      && decide (s.generation = expected.generation)
      && decide (s.payloadDigest = expected.payloadDigest)
  | _ => false

/-- The live support row of an activity advanced. -/
def advanceSupport (db : ControlDatabase) (prepared : PreparedOperationSupportPut)
    (expected : ControlRecordOperationSupportCoordinate)
    (current : Option RetainedOperationSupport) : Except StoreFailure ControlDatabase := do
  failIf (replaces prepared expected current = false)
    (refuse "operation-support-cas"
      "Operation support update does not match the exact retained activity generation and digest")
  let next ← execute db (.updateSupport prepared.activityId expected (.live prepared.result))
  failIf (standsAt db prepared.activityId expected = false)
    (refuse "operation-support-cas" "Operation support changed before its exact update")
  return next

/-- What a put does to the row its activity has. -/
def writeSupport (db : ControlDatabase) (prepared : PreparedOperationSupportPut)
    (current : Option RetainedOperationSupport) : Except StoreFailure ControlDatabase :=
  match prepared.expected with
  | none => createSupport db prepared current
  | some expected => advanceSupport db prepared expected current

/-- **`#putOperationSupportInTransaction`.** -/
def putOperationSupportInTransaction (db : ControlDatabase)
    (prepared : PreparedOperationSupportPut) : Except StoreFailure ControlDatabase := do
  let current ← lifted (getRetainedOperationSupport db prepared.activityId)
  let next ← writeSupport db prepared current
  let retained ← lifted (getRetainedOperationSupport next prepared.activityId)
  failIf (retained ≠ some (.live prepared.result))
    (refuse "operation-support-integrity"
      "Operation support write did not retain its exact canonical value")
  return next

/-- The live support a row holds at a coordinate, when it holds one. -/
def liveAt (expected : ControlRecordOperationSupportCoordinate) :
    Option RetainedOperationSupport → Option ControlRecordOperationSupport
  | some (.live s) =>
    if s.generation = expected.generation ∧ s.payloadDigest = expected.payloadDigest then some s
    else none
  | _ => none

/-- The tombstone of a support. -/
def tombstone (s : ControlRecordOperationSupport)
    (expected : ControlRecordOperationSupportCoordinate) : OperationSupportTombstone :=
  { storeId := s.storeId, processId := s.processId, activityId := s.activityId,
    supportKind := s.supportKind, generation := s.generation + 1, deleted := expected }

/-- Whether a row is the disposal of a coordinate. -/
def disposes (expected : ControlRecordOperationSupportCoordinate) :
    Option RetainedOperationSupport → Bool
  | some (.deleted t) => decide (t.deleted = expected)
  | _ => false

/-- **`#deleteOperationSupportInTransaction`.** -/
def deleteOperationSupportInTransaction (db : ControlDatabase)
    (prepared : PreparedOperationSupportDelete) : Except StoreFailure ControlDatabase := do
  let current ← lifted (getRetainedOperationSupport db prepared.activityId)
  let support ← orFail (liveAt prepared.expected current)
    (refuse "operation-support-cas"
      "Operation support deletion does not match the exact retained activity generation and digest")
  failIf (maxSafeInteger ≤ support.generation)
    (refuse "operation-support-limit" "Operation support generation cannot advance safely")
  let next ← execute db (.updateSupport prepared.activityId prepared.expected
    (.deleted (tombstone support prepared.expected)))
  failIf (standsAt db prepared.activityId prepared.expected = false)
    (refuse "operation-support-cas" "Operation support changed before its exact deletion")
  let retained ← lifted (getRetainedOperationSupport next prepared.activityId)
  failIf (disposes prepared.expected retained = false)
    (refuse "operation-support-integrity"
      "Operation support deletion did not retain its exact disposal coordinate")
  return next

/-- A mutation carried out. -/
def mutateSupport (db : ControlDatabase) :
    PreparedOperationSupportMutation → Except StoreFailure ControlDatabase
  | .put prepared => putOperationSupportInTransaction db prepared
  | .delete prepared => deleteOperationSupportInTransaction db prepared

/-- **`#operationSupportPostcondition`**, which is also
`pendingSupportPostcondition`. -/
def operationSupportPostcondition (db : ControlDatabase)
    (prepared : PreparedOperationSupportMutation) : Except FoundationError Bool := do
  let retained ← getRetainedOperationSupport db prepared.activityId
  match prepared with
  | .put value => return decide (retained = some (.live value.result))
  | .delete value => return disposes value.expected retained

/-- `pendingSupportPrecondition`. -/
def pendingSupportPrecondition (db : ControlDatabase)
    (prepared : PreparedOperationSupportMutation) : Except FoundationError Bool := do
  let retained ← getRetainedOperationSupport db prepared.activityId
  match prepared with
  | .put value =>
    match value.expected with
    | none => return retained.isNone
    | some expected => return replaces value expected retained
  | .delete value => return (liveAt value.expected retained).isSome

/-- The mutations of a batch prepared, each of an activity of its own. -/
def prepareMutations (identity : ControlRecordStoreIdentity)
    (mutations : List ControlRecordOperationSupportMutation) :
    Except FoundationError (List PreparedOperationSupportMutation) := do
  failIf (mutations.length < 1 ∨ maximumOperationSupportEntries < mutations.length)
    (storeError "operation-batch-bound" s!"An operation batch must contain between 1 and {
      maximumOperationSupportEntries} support mutations")
  let prepared ← mutations.mapM (prepareOperationSupportMutation identity)
  failIf (¬ (prepared.map (·.activityId)).Nodup)
    (storeError "operation-batch-conflict"
      "An operation batch may mutate each activity support coordinate at most once")
  return prepared

/-! ## File custody -/

/-- The items of a pending batch that is retained reproduce one sequence. -/
def reproducesAppends (db : ControlDatabase) (previous : Option ControlRecordEvent) :
    List (PendingFileManifestAppend × ControlRecordEvent) → Except FoundationError Unit
  | [] => .ok ()
  | (item, retained) :: items => do
    let reproduced ← compileControlRecordEvent db.identity.storeId db.identity.processId
      retained.sequence retained.predecessorDigest item.event
    failIf (reproduced.digest ≠ retained.digest ∨ ∃ before ∈ previous,
        retained.sequence ≠ before.sequence + 1
          ∨ retained.predecessorDigest ≠ some before.digest)
      (storeError "pending-file-integrity"
        "Pending file append does not reproduce one exact retained sequence")
    failIf (∃ selected ∈ item.revision,
        (getRevision db selected.recordId selected.revision).map (·.digest)
          ≠ some selected.digest)
      (storeError "pending-file-integrity"
        "Pending file append revision does not reproduce its retained digest")
    reproducesAppends db (some retained) items

/-- `pendingAppendState`. -/
def pendingAppendState (db : ControlDatabase) (manifest : PendingFileManifest) :
    Except FoundationError PendingFileState := do
  let rows := manifest.appends.filterMap fun item =>
    (eventRow db item.event.eventId).map fun row => (item, row)
  if rows = [] then do
    failIf (∃ item ∈ manifest.appends, ∃ selected ∈ item.revision,
        (getRevision db selected.recordId selected.revision).isSome = true)
      (storeError "pending-file-integrity"
        "Pending file append has a revision without its exact event")
    return .absent
  else do
    failIf (rows.length ≠ manifest.appends.length)
      (storeError "pending-file-integrity" "Pending file append is partially retained")
    reproducesAppends db none rows
    return .complete

/-- The support a manifest asks for in its state. -/
def supportExact (db : ControlDatabase) (state : PendingFileState)
    (mutations : List PreparedOperationSupportMutation) : Except FoundationError Bool := do
  let exacts ← mutations.mapM fun mutation =>
    match state with
    | .absent => pendingSupportPrecondition db mutation
    | .complete => operationSupportPostcondition db mutation
  return exacts.all id

/-- A message by the state a batch is in. -/
def stateMessage (absent complete : String) : PendingFileState → String
  | .absent => absent
  | .complete => complete

/-- `pendingOperationState`. -/
def pendingOperationState (db : ControlDatabase) (manifest : PendingFileManifest) :
    Except FoundationError PendingFileState := do
  let state ← pendingAppendState db manifest
  let exact ← supportExact db state manifest.supportMutations
  failIf (exact = false)
    (storeError "pending-file-integrity" (stateMessage
      "Pending file custody has absent appends without its exact support precondition"
      "Pending file custody has retained appends without its exact support postcondition" state))
  return state

/-- The name of the draft of a pending file. -/
def pendingTemporaryFilename (batchDigest fileDigest : Sha256Digest) : String :=
  String.ofList (".pending-file-".toList ++ batchDigest.toList.drop "sha256:".length ++ "-".toList
    ++ fileDigest.toList.drop "sha256:".length ++ ".tmp".toList)

/-- The entry of a file, new unless its descriptor is retained. -/
def pendingEntry (db : ControlDatabase) (batchDigest : Sha256Digest)
    (file : ControlRecordFile) : PendingFileEntry :=
  { descriptor := file
    filename := carrierFilename file.digest
    temporaryFilename := pendingTemporaryFilename batchDigest file.digest
    preexisting := (db.files.find? fun f => f.descriptor.digest = file.digest).isSome }

/-- `assertExactFileDescriptorRow`, of the row a file has. -/
def assertExactFileDescriptor (db : ControlDatabase) (file : ControlRecordFile) :
    Except FoundationError Unit :=
  failIf (∃ row ∈ db.files.find? fun f : ReferencedFileRow => f.descriptor.digest = file.digest,
      row.descriptor ≠ file ∨ row.filename ≠ carrierFilename file.digest)
    (storeError "file-conflict" "One referenced file digest cannot name different metadata")

/-- The support a batch asks for before its custody begins. -/
def assertCustodySupport (db : ControlDatabase) (manifest : PendingFileManifest)
    (absent complete : String) : Except FoundationError Unit := do
  let state ← pendingAppendState db manifest
  let exact ← supportExact db state manifest.supportMutations
  failIf (exact = false)
    (storeError "operation-support-cas" (stateMessage absent complete state))

/-- The limits of the files a store refers to. -/
def assertFileLimits (db : ControlDatabase) (files : List ControlRecordFile) :
    Except FoundationError Unit := do
  let fresh := files.filter fun file =>
    (db.files.find? fun f => f.descriptor.digest = file.digest).isNone
  failIf (maximumReferencedFiles < db.files.length + fresh.length)
    (storeError "file-limit"
      "Control Record Store would exceed its referenced-file count limit")
  failIf (maximumReferencedFileTotalBytes
      < (db.files.map (·.descriptor.byteLength)).sum + (fresh.map (·.byteLength)).sum)
    (storeError "file-limit"
      "Control Record Store would exceed its referenced-file aggregate byte limit")

/-- What `#beginPendingFileBatch` checks before its transaction. -/
def checkPendingBatch (db : ControlDatabase) (prepared : PreparedPendingFileBatch) :
    Except FoundationError Unit := do
  failIf (db.pending.isSome = true)
    (storeError "file-batch-conflict"
      "A different file custody batch is already pending for this Delivery")
  assertCustodySupport db prepared.manifest
    "File custody cannot begin without the exact operation-support precondition"
    "File custody retry does not reproduce the exact operation-support postcondition"
  let _ ← prepared.manifest.files.mapM (assertExactFileDescriptor db)
  assertFileLimits db prepared.manifest.files

/-- **The transaction of `#beginPendingFileBatch`.** -/
def beginPendingFileBatch (prepared : PreparedPendingFileBatch) (db : ControlDatabase) :
    Except StoreFailure ControlDatabase := do
  failIf (db.storeSeal.isSome = true)
    (refuse "sealed" "A sealed Control Record Store cannot begin file custody")
  failIf (db.pending.isSome = true)
    (refuse "file-batch-conflict" "Another file custody batch began concurrently")
  lifted (assertCustodySupport db prepared.manifest
    "File custody cannot begin after its operation-support precondition changed"
    "File custody retry no longer reproduces its operation-support postcondition")
  let _ ← lifted (prepared.manifest.files.mapM (assertExactFileDescriptor db))
  execute db (.insertPending
    { digest := prepared.digest, manifestJson := prepared.manifestJson,
      manifest := prepared.manifest,
      entries := prepared.manifest.files.map (pendingEntry db prepared.digest) })

/-- The descriptor of one entry is recorded. -/
def recordDescriptor (db : ControlDatabase) (entry : PendingFileEntry) :
    Except StoreFailure ControlDatabase :=
  match db.files.find? fun f => f.descriptor.digest = entry.descriptor.digest with
  | none => do
    failIf (entry.preexisting = true)
      (refuse "file-integrity" "A preexisting referenced file descriptor disappeared")
    execute db (.insertFile ⟨entry.descriptor, entry.filename⟩)
  | some row => do
    failIf (row.descriptor ≠ entry.descriptor ∨ row.filename ≠ entry.filename)
      (refuse "file-conflict" "One referenced file digest cannot name different metadata")
    return db

/-- The pending batch a later step of a custody finds. -/
def currentPending (db : ControlDatabase) (batch : PendingFileBatch) (message : String) :
    Except StoreFailure PendingFileBatch :=
  orFail (db.pending.filter fun current =>
      decide (current.digest = batch.digest) && decide (current.manifestJson = batch.manifestJson))
    (refuse "file-batch-conflict" message)

/-- **`#recordPendingFileDescriptors`.** -/
def recordPendingFileDescriptors (batch : PendingFileBatch) (db : ControlDatabase) :
    Except StoreFailure ControlDatabase := do
  let current ← currentPending db batch
    "Pending file custody changed before descriptor retention"
  replay recordDescriptor db current.entries

/-- The descriptor of one new file is removed. -/
def removeDescriptor (db : ControlDatabase) (entry : PendingFileEntry) :
    Except StoreFailure ControlDatabase :=
  if entry.preexisting = true then .ok db else execute db (.deleteFile entry.descriptor.digest)

/-- The descriptors of the new files of a batch that is given up. -/
def removeDescriptors (removeNewCarriers : Bool) (db : ControlDatabase)
    (entries : List PendingFileEntry) : Except StoreFailure ControlDatabase :=
  if removeNewCarriers = true then replay removeDescriptor db entries else .ok db

/-- What `#cleanPendingFileBatch` checks before its transaction. -/
def checkCleaning (db : ControlDatabase) (batch : PendingFileBatch) (removeNewCarriers : Bool) :
    Except StoreFailure Unit := do
  let retained ← currentPending db batch "Pending file custody changed before cleanup"
  let state ← lifted (pendingOperationState db retained.manifest)
  failIf (removeNewCarriers = true ∧ state ≠ .absent
      ∨ removeNewCarriers = false ∧ state ≠ .complete)
    (refuse "pending-file-integrity"
      "Pending file cleanup does not match its exact append disposition")

/-- **The transaction of `#cleanPendingFileBatch`.** -/
def cleanPendingFileBatch (batch : PendingFileBatch) (removeNewCarriers : Bool)
    (db : ControlDatabase) : Except StoreFailure ControlDatabase :=
  if db.pending.isNone = true then .ok db
  else do
    let current ← currentPending db batch "Pending file custody changed during cleanup"
    let db ← removeDescriptors removeNewCarriers db current.entries
    execute db (.deletePending current.digest)

/-! ## Semantic history -/

/-- The events of the journal from a cursor on, checked and replayed. -/
def replayHistory (db : ControlDatabase) (cursor : Nat) (predecessor : Option Sha256Digest)
    (replay : Replay) : List ControlRecordEvent → Except FoundationError Replay
  | [] => .ok replay
  | event :: events => do
    failIf (event.sequence ≠ cursor + 1 ∨ event.predecessorDigest ≠ predecessor)
      (storeError "event-integrity"
        "Control record event history contains a gap, fork, or predecessor mismatch")
    assertRetainedEventDescriptor db event
    let next ← append (resolver db) replay event
    replayHistory db event.sequence (some event.digest) next events

/-- **`#replaySemanticHistory`.** -/
def replaySemanticHistory (db : ControlDatabase) : Except FoundationError Replay := do
  failIf (maximumJournalEvents < db.events.length)
    (storeError "event-limit" "Control Record Store exceeds its Journal event limit")
  replayHistory db 0 none freshReplay db.events

/-- `assertSealableState`, of the state a replay publishes. -/
def assertSealable (replay : Replay) : Except FoundationError Unit :=
  failIf (currentStanding replay ≠ .closed
      ∨ (∀ closure ∈ replay.subjects.closure, ∀ head ∈ replay.lastEvent,
        head.eventKind ≠ "closure-recorded" ∨ head.subject ≠ some (subjectOf closure))
      ∨ replay.HasUnresolved)
    (reducerError "seal"
      "Store sealing requires terminal Closure as the exact Journal head and no incomplete activity")

/-! ## Stop requests -/

/-- Whether the replay is finishing a terminal decision. -/
def finishesTerminally (replay : Replay) : Bool :=
  replay.activityList.any fun a => decide a.Unresolved
    && (decide (a.operation = .accept) || decide (a.operation = .noShip))

/-- The request of a delegation that is stopped, from its journal fact. -/
def stoppedRequest (db : ControlDatabase) (proposed : WorkDelegationStopRequest) :
    Except FoundationError WorkDelegationStopRequest := do
  let event ← orFail (db.events.reverse.find? (finalizes "work-delegation-stopped"
      ⟨proposed.delegation.id, proposed.delegation.revision, proposed.delegation.digest⟩))
    (storeError "work-stop-integrity" "Stopped delegation must retain its exact Journal request")
  let requestedBy ← expectString (member "requestedBy" event.payload) "Stopped Director"
  let requestedAt ← expectString (member "requestedAt" event.payload) "Stopped request time"
  let request ← compileWorkDelegationStopRequest db.identity.storeId db.identity.processId
    proposed.delegation requestedBy requestedAt
  failIf (asString (member "requestDigest" event.payload) ≠ some request.digest)
    (storeError "work-stop-integrity" "Stopped request digest differs")
  return request

/-- A request of a delegation that is not stopped is retained, or found to
be retained. -/
def retainStop (db : ControlDatabase) (replay : Replay) (revision : ControlRecordRevision)
    (proposed : WorkDelegationStopRequest) : Except StoreFailure ControlDatabase := do
  failIf (currentStanding replay = .closed ∨ db.storeSeal.isSome = true
      ∨ finishesTerminally replay = true)
    (refuse "work-stop-terminal"
      "Terminal work must finish through its exact decision or recovery route")
  let pending ← lifted (getWorkDelegationStopRequest db)
  match pending with
  | some retained => do
    failIf (retained.delegation ≠ proposed.delegation
        ∨ retained.requestedBy ≠ proposed.requestedBy)
      (refuse "work-stop-integrity" "Pending stop must still concern the same current delegation")
    return db
  | none => do
    failIf (Timestamp.dateLt proposed.requestedAt revision.createdAt = true)
      (refuse "work-stop-time" "A stop request cannot precede the delegation it stops")
    execute db (.insertStopRequest proposed)

/-- The replay of a stop observes the head of the journal. -/
def assertObservedHead (db : ControlDatabase) (history : Replay) : Except StoreFailure Unit :=
  failIf (∃ last ∈ history.lastEvent,
      ∀ head ∈ db.events.find? fun e : ControlRecordEvent => last.sequence ≤ e.sequence,
        head.sequence ≠ last.sequence ∨ head.digest ≠ last.digest)
    (refuse "work-stop-integrity"
      "Stop observation must bind the exact committed Journal head")

/-- **The transaction of `requestWorkDelegationStop`**: the replay is made
anew, and the handle keeps it. -/
def requestWorkDelegationStop (delegation : WorkDelegationReference)
    (requestedBy requestedAt : String) (w : StoreWork) : Except StoreFailure StoreWork := do
  let proposed ← lifted (compileWorkDelegationStopRequest w.db.identity.storeId
    w.db.identity.processId delegation requestedBy requestedAt)
  let history ← lifted (replaySemanticHistory w.db)
  let wrongSubject := refuse "work-stop-subject"
    "Stop requires the current exact delegation and its supplying Director"
  let current ← orFail history.delegation wrongSubject
  let revision ← orFail (getRevision w.db proposed.delegation.id proposed.delegation.revision)
    wrongSubject
  failIf (current.reference ≠ delegationReference proposed.delegation
      ∨ revision.recordKind ≠ "work-delegation" ∨ revision.digest ≠ proposed.delegation.digest
      ∨ revision.semanticAuthor.kind ≠ .director
      ∨ revision.semanticAuthor.id ≠ proposed.requestedBy) wrongSubject
  if current.stopped = true then do
    let _ ← lifted (stoppedRequest w.db proposed)
    assertObservedHead w.db history
    return { w with handle := w.handle.map fun h => { h with replay := history } }
  else do
    let db ← retainStop w.db history revision proposed
    assertObservedHead db history
    return { w with db := db, handle := w.handle.map fun h => { h with replay := history } }

/-! ## The seal -/

/-- Rows in the order of a text column. -/
def orderedBy {α : Type} (column : α → String) (rows : List α) : List α :=
  rows.insertionSort fun a b => binaryLt (column b) (column a) = false

/-- **`semanticReferencedFileRows`**: the rows but those a pending batch has
only begun. -/
def semanticReferencedFileRows (db : ControlDatabase) :
    Except FoundationError (List ReferencedFileRow) := do
  let rows := orderedBy (·.descriptor.digest) db.files
  match db.pending with
  | none => return rows
  | some pending => do
    let state ← pendingOperationState db pending.manifest
    if state = .complete then return rows
    else return rows.filter fun row => (pendingNewFile db row.descriptor.digest).isNone

/-- The rows of `record_revisions`, by record and revision. -/
def orderedRevisions (db : ControlDatabase) : List ControlRecordRevision :=
  db.revisions.insertionSort fun a b => binaryLt a.recordId b.recordId = true
    ∨ a.recordId = b.recordId ∧ a.revision ≤ b.revision

/-- The identity of a store as JSON. -/
def identityJson (identity : ControlRecordStoreIdentity) : Json :=
  .object [("schema", .string identity.schema), ("storeId", .string identity.storeId),
    ("targetId", .string identity.targetId), ("processKind", .string identity.processKind),
    ("processId", .string identity.processId), ("createdAt", .string identity.createdAt)]

/-- **`logicalInventoryDigest`.** -/
def logicalInventoryDigest (db : ControlDatabase) : Except FoundationError Sha256Digest := do
  let files ← semanticReferencedFileRows db
  digestCanonical (.object [
    ("schema", .string "lifecycle.control-record-store-logical-inventory.v1"),
    ("store", identityJson db.identity),
    ("events", .array (db.events.map fun e => .object [("sequence", nat e.sequence),
      ("eventId", .string e.eventId), ("eventKind", .string e.eventKind),
      ("digest", .string e.digest)])),
    ("revisions", .array ((orderedRevisions db).map fun r => .object [
      ("recordId", .string r.recordId), ("recordKind", .string r.recordKind),
      ("revision", nat r.revision), ("digest", .string r.digest)])),
    ("files", .array (files.map fun f => .object [("digest", .string f.descriptor.digest),
      ("byteLength", nat f.descriptor.byteLength),
      ("mediaType", .string f.descriptor.mediaType),
      ("purpose", .string f.descriptor.purpose)]))])

/-- What `seal` checks before its transaction. A store that is sealed for
the same subject returns its seal, and no transaction begins. -/
def checkSeal (db : ControlDatabase) (closure : ControlRecordEventSubject) (sealedAt : String) :
    Except FoundationError Unit := do
  let pending ← getWorkDelegationStopRequest db
  failIf (pending.isSome = true)
    (storeError "seal-work-stop"
      "Control Record Store cannot seal while a work delegation stop is pending")
  failIf (db.pending.isSome = true)
    (storeError "seal-pending-files"
      "Control Record Store cannot seal while file custody is pending")
  failIf (liveSupportCount db ≠ 0)
    (storeError "seal-operation-support"
      "Control Record Store cannot seal while operation support remains live")
  failIf (db.storeSeal.isSome = true)
    (storeError "seal-conflict"
      "Control Record Store is already sealed for a different exact subject")
  let _ ← controlTimestamp sealedAt "Control Record Store seal time"
  failIf (∀ revision ∈ getRevision db closure.recordId closure.revision,
      revision.recordKind ≠ "closure" ∨ revision.digest ≠ closure.digest)
    (storeError "seal-subject"
      "Control Record Store seal requires one exact retained Closure revision")
  let history ← replaySemanticHistory db
  assertSealable history

/-- **The transaction of `seal`.** -/
def sealStore (closure : ControlRecordEventSubject) (sealedAt : String) (db : ControlDatabase) :
    Except StoreFailure ControlDatabase := do
  let db ← execute db .deleteDisposedSupport
  let wrongHead := refuse "seal-subject"
    "Closure must be the exact subject of the current Journal head"
  let head ← orFail (headRow db) wrongHead
  failIf (head.eventKind ≠ "closure-recorded" ∨ head.subject ≠ some closure) wrongHead
  let digest ← lifted (logicalInventoryDigest db)
  execute db (.insertSeal
    { closure, head := ⟨head.sequence, head.digest⟩, logicalInventoryDigest := digest, sealedAt })

end ControlStore

/-! ## Calls -/

/-- **The calls of a store** that write. -/
inductive StoreCall
  | appendBatch (inputs : List ControlRecordStoreAppend)
  | commitOperationBatch (mutations : List ControlRecordOperationSupportMutation)
      (appends : List ControlRecordStoreAppend)
  | putOperationSupport (input : ControlRecordOperationSupportPut)
  | deleteOperationSupport (activityId : String)
      (expected : ControlRecordOperationSupportCoordinate)
  | requestWorkDelegationStop (delegation : WorkDelegationReference)
      (requestedBy requestedAt : String)
  | beginPendingFileBatch (prepared : PreparedPendingFileBatch)
  | recordPendingFileDescriptors (batch : PendingFileBatch)
  /-- The append of `appendWithFiles`. -/
  | appendFileBatch (batch : PendingFileBatch) (inputs : List ControlRecordStoreAppend)
  /-- The append of `commitOperationBatchWithFiles`. -/
  | commitFileBatch (batch : PendingFileBatch)
      (mutations : List ControlRecordOperationSupportMutation)
      (appends : List ControlRecordStoreAppend)
  | cleanPendingFileBatch (batch : PendingFileBatch) (removeNewCarriers : Bool)
  /-- `seal`. -/
  | sealStore (closure : ControlRecordEventSubject) (sealedAt : String)

namespace ControlStore

/-- A statement of a transaction. -/
abbrev StoreStatement := StoreWork → Except StoreFailure StoreWork

/-- A statement that works on the tables alone. -/
def onTables (f : ControlDatabase → Except StoreFailure ControlDatabase) : StoreStatement :=
  fun w => do
    let db ← f w.db
    return { w with db := db }

/-- An open handle that may write. -/
def assertWritable (handle : Option StoreHandle) (message : String) :
    Except StoreFailure Unit := do
  let handle ← orFail handle (.database "database is not open")
  failIf (handle.readOnly = true) (refuse "read-only" message)

/-- The store is not sealed. -/
def assertUnsealed (db : ControlDatabase) (message : String) : Except StoreFailure Unit :=
  failIf (db.storeSeal.isSome = true) (refuse "sealed" message)

/-- The handle keeps the replay of a batch it has appended. -/
def keepReplay (w : StoreWork) : StoreWork :=
  if w.disposition = .appended then
    { w with handle := w.handle.map fun h => { h with replay := w.replay } }
  else w

/-- A mutation of an operation batch, carried out with a fresh batch and
found carried out with a retained one. -/
def resolveMutation (mutation : ControlRecordOperationSupportMutation) : StoreStatement :=
  fun w => do
    let prepared ← lifted (prepareOperationSupportMutation w.db.identity mutation)
    let holds ← lifted (operationSupportPostcondition w.db prepared)
    if w.disposition = .appended then do
      failIf (holds = true)
        (refuse "operation-batch-partial"
          "Operation support already has the requested postcondition while the append batch was absent")
      let db ← mutateSupport w.db prepared
      return { w with db := db }
    else do
      failIf (holds = false)
        (refuse "operation-batch-partial"
          "Retained appends do not have the exact operation-support postcondition")
      return w

/-- What an operation batch asks before its appends. -/
def openOperationBatch (readOnly closed : String)
    (mutations : List ControlRecordOperationSupportMutation)
    (db : ControlDatabase) (handle : Option StoreHandle) : Except StoreFailure Unit := do
  assertWritable handle readOnly
  assertUnsealed db closed
  let _ ← lifted (prepareMutations db.identity mutations)

/-- A check as the first statement of a transaction. -/
def guarded (check : ControlDatabase → Option StoreHandle → Except StoreFailure Unit) :
    StoreStatement :=
  fun w => do
    check w.db w.handle
    return w

/-- A support call on its own asks for an open store without pending
files. -/
def assertSupportOpen (readOnly closed : String) (db : ControlDatabase)
    (handle : Option StoreHandle) : Except StoreFailure Unit := do
  assertWritable handle readOnly
  assertUnsealed db closed
  failIf (db.pending.isSome = true)
    (refuse "file-batch-conflict"
      "Pending file custody must recover before operation support can change")

/-- The transaction of one mutation on its own. -/
def mutateAlone (mutation : ControlRecordOperationSupportMutation) : StoreStatement :=
  onTables fun db => do
    let prepared ← lifted (prepareOperationSupportMutation db.identity mutation)
    mutateSupport db prepared

section Bodies

variable (profiles : String → Schema)

/-- The statements of an append batch. -/
def appendBatchStatements (inputs : List ControlRecordStoreAppend)
    (expected : Option PendingFileBatch) : List StoreStatement :=
  guarded (fun _ handle =>
      assertWritable handle "Cannot append to a read-only Control Record Store")
    :: appendStatements profiles inputs expected ++ [fun w => .ok (keepReplay w)]

/-- The statements of an operation batch. -/
def operationBatchStatements (readOnly closed : String)
    (mutations : List ControlRecordOperationSupportMutation)
    (appends : List ControlRecordStoreAppend) (expected : Option PendingFileBatch) :
    List StoreStatement :=
  guarded (openOperationBatch readOnly closed mutations)
    :: appendStatements profiles appends expected
      ++ (mutations.map resolveMutation ++ [fun w => .ok (keepReplay w)])

/-- **The checks of a call** before its transaction. -/
def checkCall (db : ControlDatabase) (handle : Option StoreHandle) :
    StoreCall → Except StoreFailure Unit
  | .appendBatch inputs => lifted (assertNoUnboundCandidateRevision inputs)
  | .commitOperationBatch mutations appends => do
    assertWritable handle
      "Cannot commit an operation batch in a read-only Control Record Store"
    assertUnsealed db "A sealed Control Record Store cannot accept an operation batch"
    lifted (assertNoUnboundCandidateRevision appends)
    let _ ← lifted (prepareMutations db.identity mutations)
  | .putOperationSupport _ => do
    assertWritable handle "Cannot write operation support in a read-only Control Record Store"
    assertUnsealed db "A sealed Control Record Store cannot accept operation support"
  | .deleteOperationSupport _ _ => do
    assertWritable handle "Cannot delete operation support in a read-only Control Record Store"
    assertUnsealed db "A sealed Control Record Store cannot delete operation support"
  | .requestWorkDelegationStop .. =>
    assertWritable handle "Cannot request a stop through a read-only Store"
  | .beginPendingFileBatch prepared => do
    assertWritable handle "Cannot append files to a read-only Control Record Store"
    assertUnsealed db "A sealed Control Record Store cannot append files"
    lifted (checkPendingBatch db prepared)
  | .recordPendingFileDescriptors _ => .ok ()
  | .appendFileBatch .. => .ok ()
  | .commitFileBatch .. => .ok ()
  | .cleanPendingFileBatch batch removeNewCarriers => checkCleaning db batch removeNewCarriers
  | .sealStore closure sealedAt => do
    assertWritable handle "Cannot seal a read-only Control Record Store"
    lifted (checkSeal db closure sealedAt)

/-- **The statements of a call.** -/
def callStatements : StoreCall → List StoreStatement
  | .appendBatch inputs => appendBatchStatements profiles inputs none
  | .commitOperationBatch mutations appends =>
    operationBatchStatements profiles
      "Cannot commit an operation batch in a read-only Control Record Store"
      "A sealed Control Record Store cannot accept an operation batch" mutations appends none
  | .putOperationSupport input =>
    [guarded (assertSupportOpen
      "Cannot write operation support in a read-only Control Record Store"
      "A sealed Control Record Store cannot accept operation support"),
      mutateAlone (.put input)]
  | .deleteOperationSupport activityId expected =>
    [guarded (assertSupportOpen
      "Cannot delete operation support in a read-only Control Record Store"
      "A sealed Control Record Store cannot delete operation support"),
      mutateAlone (.delete activityId expected)]
  | .requestWorkDelegationStop delegation requestedBy requestedAt =>
    [requestWorkDelegationStop delegation requestedBy requestedAt]
  | .beginPendingFileBatch prepared => [onTables (ControlStore.beginPendingFileBatch prepared)]
  | .recordPendingFileDescriptors batch =>
    [onTables (ControlStore.recordPendingFileDescriptors batch)]
  | .appendFileBatch batch inputs => appendBatchStatements profiles inputs (some batch)
  | .commitFileBatch batch mutations appends =>
    operationBatchStatements profiles "Cannot commit files to a read-only Control Record Store"
      "A sealed Control Record Store cannot accept a file operation batch" mutations appends
      (some batch)
  | .cleanPendingFileBatch batch removeNewCarriers =>
    [onTables (ControlStore.cleanPendingFileBatch batch removeNewCarriers)]
  | .sealStore closure sealedAt => [onTables (ControlStore.sealStore closure sealedAt)]

/-- **The transaction of a call.** -/
def storeBody (call : StoreCall) :
    TransactionBody ControlDatabase (Option StoreHandle) StoreWork StoreFailure where
  check db handle := checkCall db handle call
  enter db handle :=
    { db, handle, replay := (handle.map (·.replay)).getD freshReplay }
  statements := callStatements profiles call
  leave w := (w.db, w.handle)

/-- How a handle is closed, opened or verified. An open one has replayed the
journal as it read it, which may have grown since: the replay is made
outside a transaction. -/
def recalls (db : ControlDatabase) (_ next : Option StoreHandle) : Prop :=
  ∀ handle ∈ next, ∃ events, events <+: db.events
    ∧ replayDeliveryEvents (resolver db) events = .ok handle.replay

/-- A store just created, no handle open. -/
def created {κ : Type} (identity : ControlRecordStoreIdentity) (db : ControlDatabase)
    (handles : κ → Option StoreHandle) : Prop :=
  db = { identity := identity } ∧ ∀ k, handles k = none

/-- **The handles of one store**, with transactions step by step. -/
def storeSystem (κ : Type) [DecidableEq κ] (identity : ControlRecordStoreIdentity) :
    TransitionSystem (ClientState κ StoreCall ControlDatabase (Option StoreHandle) StoreWork
      StoreFailure) (ClientStep κ StoreCall) :=
  clientSystem (storeBody profiles) recalls (created identity)

end Bodies

end ControlStore
