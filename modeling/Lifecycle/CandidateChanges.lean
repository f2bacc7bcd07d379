import Lifecycle.CarrierManifests
import Lifecycle.DescriptionCoverage

/-!
# The changed subjects of a Candidate

What the observer of a Candidate Revision Carrier finds changed between the tree
the Candidate is built on and its own (`candidate/carrier-state-observer.ts`):
the deltas of the two trees, and of each the kind of the change and the digests
of what stood there before and after. Git is a parameter; a blob is read for
its digest once, and what was read is kept under the mode, type and identity of
its entry.
-/

open Fallible Json ControlModel Knowledge SortedBy

/-! ## Git -/

/-- What a Git command leaves (`CommandResult`, `CommandBytesResult`); the
output is text or bytes. -/
structure CommandResult (α : Type) where
  exitCode : Int
  signal : Option String
  timedOut : Bool
  stdoutTruncated : Bool
  stderrTruncated : Bool
  stdout : α

/-- **The Git commands used**, on the repository they are run in: `cat-file
blob` of an object and `cat-file --batch-check` of some lines, both with a bound
for their output. -/
structure Git where
  catFileBlob : String → Nat → Except FoundationError (CommandResult (List UInt8))
  batchCheck : String → Nat → Except FoundationError (CommandResult String)

/-- **`objectBlobBytes`.** -/
def objectBlobBytes (git : Git) (objectId : String) (maximumBytes : Nat) :
    Except FoundationError (List UInt8) := do
  let result ← git.catFileBlob objectId (maximumBytes + 1)
  failIf (result.timedOut = true) (lifecycleError "lifecycle.repository.blob-timeout"
    "Tracked blob read exceeded its time bound")
  failIf (maximumBytes < result.stdout.length ∨ result.stdoutTruncated = true)
    (lifecycleError "lifecycle.repository.blob-bound"
      s!"Tracked blob {objectId} exceeds the {maximumBytes}-byte bound")
  failIf (result.exitCode ≠ 0) (lifecycleError "lifecycle.repository.blob-missing"
    s!"Required tracked blob is unavailable: {objectId}")
  pure result.stdout

/-! ## Changed subjects -/

namespace Candidate

/-- `CandidateChangedSubject["change"]`. -/
inductive SubjectChange
  | added
  | modified
  | deleted
  | modeChanged
  | typeChanged
deriving DecidableEq, Repr

def SubjectChange.text : SubjectChange → String
  | .added => "added"
  | .modified => "modified"
  | .deleted => "deleted"
  | .modeChanged => "mode-changed"
  | .typeChanged => "type-changed"

/-- **`CandidateChangedSubject`.** -/
structure ChangedSubject where
  path : String
  change : SubjectChange
  beforeDigest : Option Sha256Digest
  afterDigest : Option Sha256Digest
deriving DecidableEq

/-- `MAXIMUM_CHANGED_BLOB_BYTES`. -/
def maximumChangedBlobBytes : Nat := 256 * 1024 * 1024

/-- `MAXIMUM_CHANGED_SUBJECTS`. -/
def maximumChangedSubjects : Nat := 16384

/-- `TreeDelta`. -/
structure TreeDelta where
  path : String
  prior : Option GitTreeEntry
  next : Option GitTreeEntry

/-- `invalid`. -/
def invalid (message : String) : FoundationError :=
  lifecycleError "lifecycle.candidate.carrier-state-invalid" message

/-- `new Map(entries.map((entry) => [entry.path, entry]))`. -/
def byPath (entries : List GitTreeEntry) : OrderedMap String GitTreeEntry :=
  entries.foldl (fun m entry => m.set entry.path entry) ∅

/-- **`sameTreeEntry`.** -/
def sameTreeEntry (left right : Option GitTreeEntry) : Bool :=
  decide (left.map (·.mode) = right.map (·.mode) ∧ left.map (·.type) = right.map (·.type)
    ∧ left.map (·.objectId) = right.map (·.objectId))

/-- The paths of two trees, in order. -/
def unionPaths (prior next : OrderedMap String GitTreeEntry) : List String :=
  sortUniqueCodePoints (prior.keys ++ next.keys)

/-- **`treeDeltas`.** -/
def treeDeltas (base candidate : List GitTreeEntry) : Except FoundationError (List TreeDelta) := do
  let prior := byPath base
  let next := byPath candidate
  let deltas := ((unionPaths prior next).filter fun path =>
    !sameTreeEntry (prior.get path) (next.get path)).map fun path =>
      ⟨path, prior.get path, next.get path⟩
  failIf (maximumChangedSubjects < deltas.length)
    (invalid "Candidate changed-subject count exceeds its bound")
  pure deltas

/-- **`changedKind`.** -/
def changedKind (delta : TreeDelta) : SubjectChange :=
  match delta.prior, delta.next with
  | none, _ => .added
  | some _, none => .deleted
  | some prior, some next =>
    if prior.type ≠ next.type then .typeChanged
    else if prior.mode ≠ next.mode then .modeChanged
    else .modified

/-- The facts of an entry that is no blob. -/
def entryFacts (entry : GitTreeEntry) : Json :=
  .object [("mode", .string entry.mode), ("objectId", .string entry.objectId),
    ("type", .string entry.type)]

/-- The digest of an entry that was not read before. -/
def freshDigest (git : Git) (entry : GitTreeEntry) : Except FoundationError Sha256Digest :=
  if entry.type = "blob" then do
    let bytes ← objectBlobBytes git entry.objectId maximumChangedBlobBytes
    pure (sha256Bytes bytes)
  else digestCanonical (entryFacts entry)

/-- The key a digest is kept under. -/
def cacheKey (entry : GitTreeEntry) : String := nulJoin [entry.mode, entry.type, entry.objectId]

/-- **`entryDigest`**, with the digests kept. -/
def entryDigest (git : Git) (entry : Option GitTreeEntry) (cache : OrderedMap String Sha256Digest) :
    Except FoundationError (Option Sha256Digest × OrderedMap String Sha256Digest) :=
  match entry with
  | none => pure (none, cache)
  | some entry =>
    match cache.get (cacheKey entry) with
    | some retained => pure (some retained, cache)
    | none => do
      let digest ← freshDigest git entry
      pure (some digest, cache.set (cacheKey entry) digest)

/-- One subject of `changedSubjects`. -/
def changedSubject (git : Git) (delta : TreeDelta) (cache : OrderedMap String Sha256Digest) :
    Except FoundationError (ChangedSubject × OrderedMap String Sha256Digest) := do
  let (beforeDigest, cache) ← entryDigest git delta.prior cache
  let (afterDigest, cache) ← entryDigest git delta.next cache
  pure (⟨delta.path, changedKind delta, beforeDigest, afterDigest⟩, cache)

/-- The loop of `changedSubjects`. -/
def changedSubjectsFrom (git : Git) :
    List TreeDelta → OrderedMap String Sha256Digest → Except FoundationError (List ChangedSubject)
  | [], _ => pure []
  | delta :: deltas, cache => do
    let (subject, cache) ← changedSubject git delta cache
    let subjects ← changedSubjectsFrom git deltas cache
    pure (subject :: subjects)

/-- **`changedSubjects`.** -/
def changedSubjects (git : Git) (deltas : List TreeDelta) :
    Except FoundationError (List ChangedSubject) :=
  changedSubjectsFrom git deltas ∅

end Candidate
