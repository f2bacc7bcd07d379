import Lifecycle.FaultyPrograms
import Lifecycle.Json
import Lifecycle.OrderedMap

/-!
# Staging of an execution output

One `OutputTransaction` of the execution output store. Artifacts are staged
as files of a private directory, `commit` moves every file into the blob
store under its own digest, writes the descriptor of the inventory there
and removes the directory, and `abort` removes the files and the directory.

Every filesystem operation is an operation of the environment, which may
refuse it. The paths are those one transaction touches: its own directory
and the files in it, the directories of the blob store and the blobs. A
blob is addressed by its digest, which determines its path and is
determined by it. Files have one link and one owner here, and no path is a
symbolic link, so of the custody checks the modes remain. An open directory
handle that is left behind by a failure has no effect and is not kept.
-/

open Fallible Json Faulty

/-! ## Limits and errors -/

/-- `maximumArtifactBytes`. -/
def maximumArtifactBytes : Nat := 512 * 1024 * 1024

/-- `maximumDescriptorBytes`. -/
def maximumDescriptorBytes : Nat := 8 * 1024 * 1024

/-- `READ_CHUNK_BYTES`. -/
def readChunkBytes : Nat := 64 * 1024

/-- **What a call of the store throws**: an error of the runtime, or the
error of a filesystem operation. -/
inductive OutputFailure
  | foundation (error : FoundationError)
  | operational
deriving DecidableEq

/-- `fail`. -/
def outputStoreFailure (code message : String) : OutputFailure :=
  .foundation (lifecycleError s!"lifecycle.execution.output-store.{code}" message)

/-- An error of the runtime is rethrown, any other is reported as `code`. -/
def OutputFailure.orElse (code message : String) : OutputFailure → OutputFailure
  | .foundation error => .foundation error
  | .operational => outputStoreFailure code message

/-! ## The files of a transaction -/

/-- **The paths of one transaction.** -/
inductive Location
  | staging
  | root
  | blobs
  | shard (hexadecimal : String)
  | provisional (name : String)
  | blob (digest : Sha256Digest)
deriving DecidableEq

/-- **The filesystem operations.** Those on an open file name the file; of
the two places where a staged file gets its mode, `chmod` is the one after
the stream and `settle` the one after a failure. -/
inductive FileCall
  | realpath (path : Location)
  | lstat (path : Location)
  | mkdir (path : Location)
  | chmodDirectory (path : Location)
  | openDirectory (path : Location)
  | syncDirectory (path : Location)
  | closeDirectory (path : Location)
  | readdir (path : Location)
  | rmdir (path : Location)
  | openRead (path : Location)
  | stat (path : Location)
  | read (path : Location)
  | closeRead (path : Location)
  | create (name : String)
  | write (name : String)
  | sync (name : String)
  | chmod (name : String)
  | settle (name : String)
  | closeWrite (name : String)
  | rename (name : String) (path : Location)
  | unlink (name : String)
deriving DecidableEq

/-- A file. -/
structure StoredFile where
  bytes : List UInt8
  mode : Nat
deriving DecidableEq

/-- The directory of a transaction. -/
structure StagingDirectory where
  mode : Nat
  entries : OrderedMap String StoredFile

/-- **The part of the disk a transaction touches.** -/
structure StoreDisk where
  umask : Nat
  root : Option StagingDirectory
  shards : OrderedMap String Nat
  blobs : OrderedMap Sha256Digest StoredFile

/-- The mode of a new file or directory. -/
def masked (umask mode : Nat) : Nat := mode &&& (0o777 ^^^ umask)

namespace StoreDisk

/-- The mode of the directory at a path. -/
def directoryMode (d : StoreDisk) : Location → Option Nat
  | .root => d.root.map (·.mode)
  | .shard hexadecimal => d.shards.get hexadecimal
  | .staging | .blobs => some 0o700
  | .provisional _ | .blob _ => none

/-- The file at a path. -/
def file (d : StoreDisk) : Location → Option StoredFile
  | .provisional name => d.root.bind (·.entries.get name)
  | .blob digest => d.blobs.get digest
  | _ => none

/-- The transaction's directory with other entries. -/
def withEntries (d : StoreDisk)
    (f : OrderedMap String StoredFile → OrderedMap String StoredFile) : StoreDisk :=
  { d with root := d.root.map fun dir => { dir with entries := f dir.entries } }

/-- A file of the transaction's directory, changed. -/
def amend (d : StoreDisk) (name : String) (f : StoredFile → StoredFile) : StoreDisk :=
  d.withEntries fun entries =>
    match entries.get name with
    | some file => entries.set name (f file)
    | none => entries

/-- The blob store with one more blob. -/
def holding (d : StoreDisk) (digest : Sha256Digest) (f : StoredFile) : StoreDisk :=
  { d with blobs := d.blobs.set digest f }

end StoreDisk

/-! ## The transaction -/

/-- `FoundationExecutionOutputStagingPlanV1`. -/
structure StagingPlan where
  artifactCount : Nat
  carrierByteLength : Nat
  manifestDigest : Sha256Digest
deriving DecidableEq

/-- `BlobFacts`. -/
structure BlobFacts where
  byteLength : Nat
  digest : Sha256Digest
deriving DecidableEq

/-- The facts of some bytes. -/
def factsOf (bytes : List UInt8) : BlobFacts := ⟨bytes.length, sha256Bytes bytes⟩

/-- `FoundationExecutionOutputStagingBindingV1`. -/
structure ArtifactBinding where
  artifactIndex : Nat
  bindingDigest : Sha256Digest
  byteLength : Nat
  digest : Sha256Digest
deriving DecidableEq

/-- A binding as blob facts. -/
def ArtifactBinding.facts (binding : ArtifactBinding) : BlobFacts :=
  ⟨binding.byteLength, binding.digest⟩

/-- `BlobState`. -/
structure BlobState where
  name : String
  facts : BlobFacts
  published : Bool
deriving DecidableEq

/-- `ArtifactState`; the facts of an artifact are its binding. -/
structure ArtifactState where
  name : String
  binding : ArtifactBinding
  cleanupFacts : Option BlobFacts
  staged : Bool
  published : Bool
deriving DecidableEq

/-- `FoundationExecutionOutputStoreBindingV1`. -/
structure StoreBinding where
  descriptor : BlobFacts
  digest : Sha256Digest
deriving DecidableEq

/-- The condition of a transaction. -/
inductive TransactionState
  | opened
  | poisoned
  | committed
  | aborted
deriving DecidableEq

/-- **`OutputTransaction`.** -/
structure OutputTransaction where
  plan : StagingPlan
  manifest : BlobState
  artifacts : List ArtifactState := []
  descriptor : Option BlobState := none
  state : TransactionState := .opened
  busy : Bool := false
  binding : Option StoreBinding := none
  plannedBytes : Nat := 0
deriving DecidableEq

/-- A blob of a transaction, with the facts `abort` verifies its file by. -/
structure ProvisionalBlob where
  name : String
  facts : BlobFacts
  cleanupFacts : Option BlobFacts
  published : Bool
deriving DecidableEq

/-- The manifest or the descriptor as a blob. -/
def BlobState.blob (b : BlobState) : ProvisionalBlob :=
  ⟨b.name, b.facts, some b.facts, b.published⟩

/-- An artifact as a blob. -/
def ArtifactState.blob (a : ArtifactState) : ProvisionalBlob :=
  ⟨a.name, a.binding.facts, a.cleanupFacts, a.published⟩

/-- Which blob of a transaction. -/
inductive BlobRef
  | artifact (index : Nat)
  | manifest
  | descriptor
deriving DecidableEq

namespace OutputTransaction

/-- The blobs of a transaction. -/
def blobs (tx : OutputTransaction) : List ProvisionalBlob :=
  tx.manifest.blob :: (tx.artifacts.map (·.blob) ++ tx.descriptor.toList.map (·.blob))

/-- **`#remaining`**: the blobs that are not published. -/
def remaining (tx : OutputTransaction) : List ProvisionalBlob :=
  tx.blobs.filter (!·.published)

/-- A blob of the transaction. -/
def blob (tx : OutputTransaction) : BlobRef → Option ProvisionalBlob
  | .artifact index => tx.artifacts[index]?.map (·.blob)
  | .manifest => some tx.manifest.blob
  | .descriptor => tx.descriptor.map (·.blob)

/-- `blob.published = true`. -/
def markPublished (tx : OutputTransaction) : BlobRef → OutputTransaction
  | .artifact index =>
    { tx with artifacts := tx.artifacts.modify index fun a => { a with published := true } }
  | .manifest => { tx with manifest := { tx.manifest with published := true } }
  | .descriptor =>
    { tx with descriptor := tx.descriptor.map fun b => { b with published := true } }

/-- The transaction with one artifact changed. -/
def withArtifact (tx : OutputTransaction) (index : Nat) (f : ArtifactState → ArtifactState) :
    OutputTransaction :=
  { tx with artifacts := tx.artifacts.modify index f }

/-- Every planned artifact is staged. -/
def complete (tx : OutputTransaction) : Bool :=
  decide (tx.artifacts.length = tx.plan.artifactCount)
    && decide (tx.plannedBytes = tx.plan.carrierByteLength)
    && tx.artifacts.all (·.staged)

/-- `if (this.#state === "open") this.#state = "poisoned"`. -/
def poison (tx : OutputTransaction) : OutputTransaction :=
  if tx.state = .opened then { tx with state := .poisoned } else tx

end OutputTransaction

/-- **What a call works on**: the disk and the transaction. -/
structure StagingWorld where
  disk : StoreDisk
  transaction : OutputTransaction

/-- The world with its disk changed. -/
def StagingWorld.onDisk (w : StagingWorld) (f : StoreDisk → StoreDisk) : StagingWorld :=
  { w with disk := f w.disk }

/-- A program of the output store. -/
abbrev StoreProgram (α : Type) : Type := Faulty FileCall StagingWorld OutputFailure α

/-- Changes the transaction. -/
def changeTransaction (f : OutputTransaction → OutputTransaction) : StoreProgram Unit :=
  change fun w => { w with transaction := f w.transaction }

/-- The result of a pure part, or its error. -/
def lifted {α : Type} : Except FoundationError α → StoreProgram α
  | .ok a => pure a
  | .error e => fail (.foundation e)

/-! ## Directories and files -/

/-- **`exactDirectory`.** -/
def exactDirectory (path : Location) (label : String) : StoreProgram Unit := do
  let unavailable := outputStoreFailure "custody" s!"{label} is unavailable"
  look (.realpath path) unavailable (fun w => w.disk.directoryMode path ≠ none) unavailable
  look (.lstat path) unavailable (fun w => w.disk.directoryMode path ≠ none) unavailable
  require (fun w => w.disk.directoryMode path = some 0o700)
    (outputStoreFailure "custody" s!"{label} is not one exact owned private directory")

/-- **`syncDirectory`.** -/
def syncDirectory (path : Location) : StoreProgram Unit := do
  look (.openDirectory path) .operational (fun w => w.disk.directoryMode path ≠ none)
    .operational
  always (quiet (.syncDirectory path) .operational) (quiet (.closeDirectory path) .operational)

/-- **`exists`.** -/
def fileExists (path : Location) : StoreProgram Bool :=
  perform (.lstat path) .operational fun _ w => .ok ((w.disk.file path).isSome, w)

/-- A directory of the blob store that `mkdir` created gets its exact mode. -/
def settleCreated (hexadecimal : String) : Bool → StoreProgram Unit
  | false => pure ()
  | true => do
    perform (.chmodDirectory (.shard hexadecimal)) .operational fun _ w =>
      .ok ((), w.onDisk fun d => { d with shards := d.shards.set hexadecimal 0o700 })
    syncDirectory .blobs

/-- **`ensureDirectory`**, of a shard. -/
def ensureDirectory (hexadecimal label : String) : StoreProgram Unit := do
  let created ← perform (.mkdir (.shard hexadecimal)) .operational fun _ w =>
    if w.disk.shards.has hexadecimal then .ok (false, w)
    else .ok (true, w.onDisk fun d =>
      { d with shards := d.shards.set hexadecimal (masked d.umask 0o700) })
  settleCreated hexadecimal created
  exactDirectory (.shard hexadecimal) label

/-- The shard and the path of a blob. -/
structure BlobLocation where
  shard : String
  blob : Location

/-- **`blobLocation`.** -/
def blobLocation (digest : Sha256Digest) : BlobLocation :=
  ⟨String.ofList ((digest.toList.drop 7).take 2), .blob digest⟩

/-- The file at a path is private and as long as `facts` says. -/
def StoreDisk.exactFile (d : StoreDisk) (path : Location) (facts : BlobFacts) : Bool :=
  (d.file path).any fun f => decide (f.mode = 0o400) && decide (f.bytes.length = facts.byteLength)

/-- The file at a path has the digest `facts` says. -/
def StoreDisk.exactBytes (d : StoreDisk) (path : Location) (facts : BlobFacts) : Bool :=
  (d.file path).any fun f => decide (sha256Bytes f.bytes = facts.digest)

/-- The reading loop of `verifiedFile`: how much one read returns is the
environment's choice. -/
def readAll (path : Location) (label : String) : Nat → Nat → StoreProgram Unit
  | 0, _ => pure ()
  | _ + 1, 0 => pure ()
  | fuel + 1, left + 1 => do
    let read ← perform (.read path) .operational fun answer w =>
      .ok (answer.amount (min readChunkBytes (left + 1)), w)
    if read = 0 then fail (outputStoreFailure "substitution" s!"{label} ended early")
    else readAll path label fuel (left + 1 - read)

/-- What `verifiedFile` does with the open file. -/
def readVerified (path : Location) (expected : BlobFacts) (label : String) :
    StoreProgram Unit := do
  quiet (.stat path) .operational
  require (fun w => w.disk.exactFile path expected = true)
    (outputStoreFailure "substitution" s!"{label} is not one exact owned private blob")
  readAll path label expected.byteLength expected.byteLength

/-- **`verifyFile`**, the complete replay of `verifiedFile`. -/
def verifyFile (path : Location) (facts : BlobFacts) (label : String) : StoreProgram Unit := do
  let unavailable := outputStoreFailure "unavailable" s!"{label} is unavailable"
  look (.openRead path) unavailable (fun w => w.disk.file path ≠ none) unavailable
  always (readVerified path facts label) (quiet (.closeRead path) .operational)
  require (fun w => w.disk.exactBytes path facts = true)
    (outputStoreFailure "substitution" s!"{label} bytes do not match their content coordinate")

/-- `readdir` of the transaction's directory. -/
def readRoot : StoreProgram (List String) :=
  perform (.readdir .root) .operational fun _ w =>
    match w.disk.root with
    | some dir => .ok (dir.entries.keys, w)
    | none => .error .operational

/-- `rmdir` of the transaction's directory. -/
def removeRoot : StoreProgram Unit :=
  perform (.rmdir .root) .operational fun _ w =>
    match w.disk.root with
    | some dir =>
      if dir.entries.keys = [] then .ok ((), w.onDisk fun d => { d with root := none })
      else .error .operational
    | none => .error .operational

/-- Opens a new file of the transaction's directory for writing. -/
def createFile (name : String) : StoreProgram Unit :=
  perform (.create name) .operational fun _ w =>
    match w.disk.root with
    | some dir =>
      if dir.entries.has name then .error .operational
      else .ok ((), w.onDisk fun d => d.withEntries fun entries =>
        entries.set name ⟨[], masked d.umask 0o600⟩)
    | none => .error .operational

/-- **`writeAll`**: how much one write takes is the environment's choice. -/
def writeAll (name : String) : Nat → List UInt8 → StoreProgram Unit
  | 0, _ => pure ()
  | _ + 1, [] => pure ()
  | fuel + 1, byte :: bytes => do
    let written ← perform (.write name) .operational fun answer w =>
      let count := answer.amount (byte :: bytes).length
      .ok (count, w.onDisk fun d => d.amend name fun f =>
        { f with bytes := f.bytes ++ (byte :: bytes).take count })
    if written = 0 then
      fail (outputStoreFailure "write" "Execution Output staging made no progress")
    else writeAll name fuel ((byte :: bytes).drop written)

/-- `handle.chmod(0o400)`. -/
def chmodFile (call : FileCall) (name : String) : StoreProgram Unit :=
  perform call .operational fun _ w =>
    .ok ((), w.onDisk fun d => d.amend name fun f => { f with mode := 0o400 })

/-- `unlink` of a file of the transaction's directory. -/
def unlinkFile (name : String) : StoreProgram Unit :=
  perform (.unlink name) .operational fun _ w =>
    if (w.disk.file (.provisional name)).isSome then
      .ok ((), w.onDisk fun d => d.withEntries fun entries => entries.erase name)
    else .error .operational

/-- `rename` of a file of the transaction's directory into the blob store. -/
def renameFile (name : String) (digest : Sha256Digest) : StoreProgram Unit :=
  perform (.rename name (.blob digest)) .operational fun _ w =>
    match w.disk.file (.provisional name) with
    | some f =>
      .ok ((), w.onDisk fun d => (d.withEntries fun entries => entries.erase name).holding digest f)
    | none => .error .operational

/-- What `writeKnown` does with the open file. -/
def fillKnown (name : String) (bytes : List UInt8) : StoreProgram Unit := do
  writeAll name bytes.length bytes
  quiet (.sync name) .operational
  chmodFile (.chmod name) name

/-- **`writeKnown`.** -/
def writeKnown (name : String) (bytes : List UInt8) : StoreProgram BlobState := do
  createFile name
  always (fillKnown name bytes) (quiet (.closeWrite name) .operational)
  syncDirectory .root
  pure { name := name, facts := factsOf bytes, published := false }

/-! ## `create` -/

/-- `mkdir` of the transaction's directory, at a path no one else has. -/
def makeRoot : StoreProgram Unit :=
  perform (.mkdir .root) .operational fun _ w =>
    match w.disk.root with
    | some _ => .error .operational
    | none => .ok ((), w.onDisk fun d => { d with root := some ⟨masked d.umask 0o700, ∅⟩ })

/-- **`OutputTransaction.create`.** -/
def createTransaction (plan : StagingPlan) (manifestBytes : List UInt8) :
    StoreProgram OutputTransaction := do
  makeRoot
  perform (.chmodDirectory .root) .operational fun _ w =>
    .ok ((), w.onDisk fun d => { d with root := d.root.map fun dir => { dir with mode := 0o700 } })
  syncDirectory .staging
  exactDirectory .root "Execution Output transaction root"
  let manifest ← writeKnown "manifest.json" manifestBytes
  pure { plan := plan, manifest := manifest }

/-! ## Parts shared by the calls -/

/-- **`#enter`.** -/
def enter (operation : String) (allowPoisoned : Bool) : StoreProgram Unit := do
  require (fun w => ¬ (w.transaction.busy = true ∨ w.transaction.state = .committed
      ∨ w.transaction.state = .aborted
      ∨ (w.transaction.state = .poisoned ∧ allowPoisoned = false)))
    (outputStoreFailure "transaction"
      s!"Execution Output transaction cannot {operation} from its current condition")
  changeTransaction fun tx => { tx with busy := true }

/-- **`#assertInventory`.** -/
def assertInventory : StoreProgram Unit := do
  exactDirectory .root "Execution Output transaction root"
  let names ← readRoot
  require (fun w => sortKeys names = sortKeys (w.transaction.remaining.map (·.name)))
    (outputStoreFailure "inventory"
      "Execution Output transaction contains unknown provisional entries")

/-- A blob that the store holds already. -/
def converge (ref : BlobRef) (blob : ProvisionalBlob) : StoreProgram Unit := do
  verifyFile (.blob blob.facts.digest) blob.facts "Execution Output blob"
  unlinkFile blob.name
  changeTransaction fun tx => tx.markPublished ref
  syncDirectory .root

/-- A blob that the store does not hold. -/
def move (ref : BlobRef) (blob : ProvisionalBlob) : StoreProgram Unit := do
  renameFile blob.name blob.facts.digest
  changeTransaction fun tx => tx.markPublished ref
  syncDirectory (.shard (blobLocation blob.facts.digest).shard)
  verifyFile (.blob blob.facts.digest) blob.facts "Execution Output blob"

/-- Publishes a blob that is not published. -/
def publishProvisional (ref : BlobRef) (blob : ProvisionalBlob) : StoreProgram Unit := do
  verifyFile (.provisional blob.name) blob.facts "Execution Output provisional blob"
  let present ← fileExists (blobLocation blob.facts.digest).blob
  if present then converge ref blob else move ref blob

/-- `#publish`, of a blob of the transaction. -/
def publishBlob (ref : BlobRef) (blob : ProvisionalBlob) : StoreProgram Unit := do
  ensureDirectory (blobLocation blob.facts.digest).shard "Execution Output blob shard"
  if blob.published then
    verifyFile (blobLocation blob.facts.digest).blob blob.facts "Execution Output blob"
  else publishProvisional ref blob

/-- **`#publish`.** -/
def publish (ref : BlobRef) : StoreProgram Unit := do
  let blob ← observe fun w => w.transaction.blob ref
  match blob with
  | some blob => publishBlob ref blob
  | none => pure ()

/-! ## `stage` -/

/-- An item of an artifact's byte stream: a chunk, a value that is no byte
array, or the error the stream throws. -/
inductive StreamItem
  | chunk (bytes : List UInt8)
  | other
  | throws (error : OutputFailure)
deriving DecidableEq

/-- The input of `stage`. -/
structure StageInput where
  artifactIndex : Int
  bindingDigest : String
  byteLength : Int
  digest : String
  bytes : List StreamItem
deriving DecidableEq

/-- The error of `integer`. -/
def outsideDomain (label : String) : FoundationError :=
  lifecycleError "lifecycle.execution.output-store.binding"
    s!"{label} is outside its exact bounded integer domain"

/-- The error of `digest`. -/
def notDigest (label : String) : FoundationError :=
  lifecycleError "lifecycle.execution.output-store.binding"
    s!"{label} is not one lowercase SHA-256 digest"

/-- **`parseArtifact`.** -/
def parseArtifact (input : StageInput) (plan : StagingPlan) :
    Except FoundationError ArtifactBinding := do
  failIf (plan.artifactCount = 0)
    (lifecycleError "lifecycle.execution.output-store.binding"
      "Execution Output artifact binding is not one exact closed value")
  failIf (input.artifactIndex < 0 ∨ (plan.artifactCount : Int) - 1 < input.artifactIndex)
    (outsideDomain "Execution Output artifact index")
  failIf (input.byteLength < 0
      ∨ (min maximumArtifactBytes plan.carrierByteLength : Nat) < input.byteLength)
    (outsideDomain "Execution Output artifact bytes")
  failIf (isSha256 input.bindingDigest = false)
    (notDigest "Execution Output artifact binding digest")
  failIf (isSha256 input.digest = false) (notDigest "Execution Output artifact digest")
  pure ⟨input.artifactIndex.toNat, input.bindingDigest, input.byteLength.toNat, input.digest⟩

/-- Why a stream was not taken to its end, and whether the bytes of the
file are still known. -/
structure StreamRefusal where
  error : OutputFailure
  known : Bool

/-- What was taken of a stream. -/
structure Received where
  bytes : List UInt8
  refusal : Option StreamRefusal := none

/-- The error of a chunk outside the byte contract. -/
def streamContract : OutputFailure :=
  outputStoreFailure "stream" "Execution Output artifact stream exceeds its exact byte contract"

/-- **The loop over the byte stream.** -/
def consume (name : String) (byteLength : Nat) :
    List StreamItem → List UInt8 → StoreProgram Received
  | [], received => pure ⟨received, none⟩
  | .throws error :: _, received => pure ⟨received, some ⟨error, true⟩⟩
  | .other :: _, received => pure ⟨received, some ⟨streamContract, true⟩⟩
  | .chunk bytes :: items, received =>
    if bytes = [] ∨ byteLength - received.length < bytes.length then
      pure ⟨received, some ⟨streamContract, true⟩⟩
    else do
      let outcome ← attempt (writeAll name bytes.length bytes)
      match outcome with
      | .ok _ => consume name byteLength items (received ++ bytes)
      | .error error => pure ⟨received, some ⟨error, false⟩⟩

/-- An operation whose failure is swallowed. -/
def ignoring (c : StoreProgram Unit) : StoreProgram Unit := do
  let _ ← attempt c
  pure ()

/-- **The failure of a stream**: the transaction is poisoned, and where the
bytes written are known they are kept for the removal of the file. -/
def salvage (index : Nat) (name : String) (known : Option BlobFacts) (error : OutputFailure) :
    StoreProgram Unit := do
  changeTransaction fun tx => { tx with state := .poisoned }
  changeTransaction fun tx => tx.withArtifact index fun a =>
    { a with cleanupFacts := known.or a.cleanupFacts }
  ignoring (quiet (.sync name) .operational)
  ignoring (chmodFile (.settle name) name)
  fail (error.orElse "stream" "Execution Output artifact staging failed operationally")

/-- Flushes and seals a completely received file. -/
def sealArtifact (binding : ArtifactBinding) (name : String) (bytes : List UInt8) :
    StoreProgram Unit := do
  quiet (.sync name) .operational
  chmodFile (.chmod name) name
  require (fun _ => factsOf bytes = binding.facts)
    (outputStoreFailure "stream"
      "Execution Output artifact bytes do not match their exact binding")
  changeTransaction fun tx => tx.withArtifact binding.artifactIndex fun a =>
    { a with staged := true }

/-- What follows the stream. -/
def receive (binding : ArtifactBinding) (name : String) (received : Received) :
    StoreProgram Unit :=
  match received.refusal with
  | some refusal =>
    salvage binding.artifactIndex name
      (if refusal.known then some (factsOf received.bytes) else none) refusal.error
  | none => do
    changeTransaction fun tx => tx.withArtifact binding.artifactIndex fun a =>
      { a with cleanupFacts := some (factsOf received.bytes) }
    handle (sealArtifact binding name received.bytes) (salvage binding.artifactIndex name none)

/-- The stream of an artifact, into its file. -/
def fillArtifact (binding : ArtifactBinding) (name : String) (items : List StreamItem) :
    StoreProgram Unit := do
  let received ← consume name binding.byteLength items []
  receive binding name received

/-- The name of an artifact's file. -/
def artifactName (index : Nat) : String :=
  let digits := toString index
  let zeros := String.ofList (List.replicate (8 - digits.length) '0')
  s!"artifact-{zeros}{digits}.blob"

/-- The part of `stage` that may fail. -/
def stageArtifact (input : StageInput) : StoreProgram ArtifactBinding := do
  let plan ← observe fun w => w.transaction.plan
  let binding ← lifted (parseArtifact input plan)
  require (fun w => binding.artifactIndex = w.transaction.artifacts.length)
    (outputStoreFailure "binding"
      "Execution Output artifacts must be staged once in exact Manifest order")
  changeTransaction fun tx => { tx with plannedBytes := tx.plannedBytes + binding.byteLength }
  require (fun w => w.transaction.plannedBytes ≤ maxSafeInteger
      ∧ w.transaction.plannedBytes ≤ w.transaction.plan.carrierByteLength)
    (outputStoreFailure "limit" "Execution Output artifacts exceed the carrier plan")
  assertInventory
  let name := artifactName binding.artifactIndex
  createFile name
  changeTransaction fun tx => { tx with artifacts := tx.artifacts ++
    [{ name := name, binding := binding, cleanupFacts := none, staged := false,
       published := false }] }
  always (fillArtifact binding name input.bytes) (quiet (.closeWrite name) .operational)
  syncDirectory .root
  pure binding

/-- **`stage`.** -/
def stage (input : StageInput) : StoreProgram ArtifactBinding := do
  enter "stage" false
  always
    (handle (stageArtifact input) fun error => do
      changeTransaction OutputTransaction.poison
      fail (error.orElse "stage" "Execution Output staging failed operationally"))
    (changeTransaction fun tx => { tx with busy := false })

/-! ## `commit` -/

/-- Blob facts as the source's record. -/
def BlobFacts.toJson (facts : BlobFacts) : Json :=
  .object [("byteLength", nat facts.byteLength), ("digest", .string facts.digest)]

/-- An artifact binding as the source's record. -/
def ArtifactBinding.toJson (binding : ArtifactBinding) : Json :=
  .object [("artifactIndex", nat binding.artifactIndex),
    ("bindingDigest", .string binding.bindingDigest), ("byteLength", nat binding.byteLength),
    ("digest", .string binding.digest)]

/-- A staging plan as the source's record. -/
def StagingPlan.toJson (plan : StagingPlan) : Json :=
  .object [("artifactCount", nat plan.artifactCount),
    ("carrierByteLength", nat plan.carrierByteLength),
    ("manifestDigest", .string plan.manifestDigest)]

/-- **`compileDescriptor`.** -/
def compileDescriptor (plan : StagingPlan) (manifest : BlobFacts)
    (artifacts : List ArtifactBinding) : Except FoundationError JsonObject := do
  let inventory := Json.array (artifacts.map (·.toJson))
  let artifactInventoryDigest ← digestCanonical inventory
  let subject : JsonObject := [
    ("schema", .string "lifecycle.execution-output-store-descriptor.v1"),
    ("plan", plan.toJson), ("manifest", manifest.toJson), ("artifacts", inventory),
    ("artifactInventoryDigest", .string artifactInventoryDigest)]
  let digest ← selfDigest subject
  pure (subject ++ [("digest", .string digest)])

/-- `canonicalJsonLine`. -/
def canonicalJsonLine (value : Json) : Except FoundationError (List UInt8) := do
  let text ← canonicalJson value
  pure (text ++ [10])

/-- The bytes of a transaction's descriptor. -/
def OutputTransaction.descriptorBytes (tx : OutputTransaction) :
    Except FoundationError (List UInt8) := do
  let descriptor ← compileDescriptor tx.plan tx.manifest.facts (tx.artifacts.map (·.binding))
  let bytes ← canonicalJsonLine (.object descriptor)
  failIf (maximumDescriptorBytes < bytes.length)
    (lifecycleError "lifecycle.execution.output-store.limit"
      "Execution Output descriptor exceeds its exact private bound")
  pure bytes

/-- **`compileBinding`.** -/
def compileBinding (descriptor : BlobFacts) : Except FoundationError StoreBinding := do
  let digest ← selfDigest [
    ("schema", .string "lifecycle.execution-output-store-binding.v1"),
    ("descriptor", descriptor.toJson)]
  pure ⟨descriptor, digest⟩

/-- The descriptor's file, written once. -/
def retainDescriptor (bytes : List UInt8) : Option BlobState → StoreProgram Unit
  | none => do
    let descriptor ← writeKnown "descriptor.json" bytes
    changeTransaction fun tx => { tx with descriptor := some descriptor }
  | some descriptor =>
    if descriptor.facts = factsOf bytes then pure ()
    else fail (outputStoreFailure "substitution"
      "Execution Output descriptor changed during retry")

/-- Publishes every blob of a complete transaction, the descriptor last. -/
def publishAll : StoreProgram BlobFacts := do
  let count ← observe fun w => w.transaction.artifacts.length
  forEach (fun index => publish (.artifact index)) (List.range count)
  publish .manifest
  let tx ← observe (·.transaction)
  let bytes ← lifted tx.descriptorBytes
  retainDescriptor bytes tx.descriptor
  publish .descriptor
  pure (factsOf bytes)

/-- Removes the empty directory and concludes the transaction. -/
def concludeCommit (descriptor : BlobFacts) : StoreProgram StoreBinding := do
  let names ← readRoot
  require (fun _ => names = [])
    (outputStoreFailure "inventory" "Execution Output staging is not empty")
  removeRoot
  syncDirectory .staging
  let binding ← lifted (compileBinding descriptor)
  changeTransaction fun tx => { tx with binding := some binding, state := .committed }
  pure binding

/-- The part of `commit` that may fail. -/
def commitOpen : StoreProgram StoreBinding := do
  require (fun w => w.transaction.complete = true)
    (outputStoreFailure "inventory"
      "Execution Output transaction does not match its exact plan")
  assertInventory
  let descriptor ← publishAll
  concludeCommit descriptor

/-- The binding of a committed transaction. -/
def OutputTransaction.committedBinding (tx : OutputTransaction) : Option StoreBinding :=
  if tx.state = .committed then tx.binding else none

/-- **`commit`.** -/
def commit : StoreProgram StoreBinding := do
  let binding ← observe fun w => w.transaction.committedBinding
  match binding with
  | some binding => pure binding
  | none => do
    enter "commit" false
    always
      (handle commitOpen fun error =>
        fail (error.orElse "publication" "Execution Output publication failed operationally"))
      (changeTransaction fun tx => { tx with busy := false })

/-! ## `abort` -/

/-- The files of some blobs, with the facts to verify them by. -/
def cleanupFacts : List ProvisionalBlob → StoreProgram (List (String × BlobFacts))
  | [] => pure []
  | blob :: blobs =>
    match blob.cleanupFacts with
    | some facts => do
      let rest ← cleanupFacts blobs
      pure ((blob.name, facts) :: rest)
    | none => fail (outputStoreFailure "inventory"
      "Execution Output abort lacks exact provisional byte facts")

/-- Removes the files of a transaction and its directory. -/
def removeFiles (remaining : List ProvisionalBlob) : StoreProgram Unit := do
  forEach (fun blob => unlinkFile blob.name) remaining
  syncDirectory .root
  removeRoot
  syncDirectory .staging
  changeTransaction fun tx => { tx with state := .aborted }

/-- The part of `abort` that may fail. -/
def abortOpen : StoreProgram Unit := do
  assertInventory
  let remaining ← observe fun w => w.transaction.remaining
  let facts ← cleanupFacts remaining
  forEach (fun entry => verifyFile (.provisional entry.1) entry.2
    "Execution Output provisional blob") facts
  removeFiles remaining

/-- **`abort`.** -/
def abort : StoreProgram Unit := do
  let state ← observe fun w => w.transaction.state
  if state = .aborted then pure ()
  else do
    enter "abort" true
    always
      (handle abortOpen fun error =>
        fail (error.orElse "abort" "Execution Output transaction could not abort exactly"))
      (changeTransaction fun tx => { tx with busy := false })
