import Lifecycle.CandidateChanges

/-!
# Code inspection

How the changes of a retained Candidate are shown to its reviewer
(`read-model/code-inspection.ts`). The two trees are compared once more; each
path that differs has to be a retained subject with the same kind of change, and
its two sides take their digests from there and their sizes from Git. The
resulting facts are listed in pages, each row under a cursor that digests the
basis of the listing and the change, and every page is held against the schema
of the protocol (`protocol/src/foundation/code-inspection.ts`).
-/

open Fallible Json ControlModel Knowledge Candidate Carrier

/-! ## Blob sizes -/

/-- `MAXIMUM_TREE_ENTRIES`. -/
def maximumTreeEntries : Nat := 1000000

/-- **`parseObjectId`.** -/
def parseObjectId (value : String) (format : GitObjectFormat) (label : String) :
    Except FoundationError String := do
  failIf (objectIdPattern format value = false) (lifecycleError "lifecycle.repository.object-id"
    s!"{label} is not one {format.text} object identity")
  pure value

/-- `value.length`. -/
def textLength16 (value : String) : Nat := (value.toList.flatMap utf16Units).length

/-- `/^([a-f0-9]{40}|[a-f0-9]{64}) blob (0|[1-9][0-9]*)$/u`, the identity and the
digits. -/
def sizeLine (line : List Char) : Option (List Char × List Char) :=
  let id := line.takeWhile Sha256.isHexDigit
  let rest := line.dropWhile Sha256.isHexDigit
  let digits := rest.drop 6
  if (id.length = 40 ∨ id.length = 64) ∧ rest.take 6 = " blob ".toList
      ∧ digits ≠ [] ∧ digits.all StrictJson.isDigit = true
      ∧ (digits = ['0'] ∨ digits.head? ≠ some '0') then
    some (id, digits)
  else none

/-- One line of the answer, for the object asked for. -/
def blobSize (objectId : String) (line : List Char) : Except FoundationError (String × Nat) := do
  let (id, digits) ← orFail (sizeLine line) (lifecycleError "lifecycle.projection.content-digest"
    "Projection input names a missing or non-blob Git object")
  failIf (String.ofList id ≠ objectId) (lifecycleError "lifecycle.projection.content-digest"
    "Projection input names a missing or non-blob Git object")
  let size := Nat.ofDigitChars 10 digits 0
  failIf (maxSafeInteger < size) (lifecycleError "lifecycle.projection.content-digest"
    "Git blob size is not one nonnegative safe integer")
  pure (String.ofList id, size)

/-- **`parseGitBlobSizeResult`.** -/
def parseGitBlobSizeResult (result : CommandResult String) (unique : List String) :
    Except FoundationError (OrderedMap String Nat) := do
  failIf (result.exitCode ≠ 0 ∨ result.signal ≠ none ∨ result.timedOut = true
      ∨ result.stdoutTruncated = true ∨ result.stderrTruncated = true
      ∨ result.stdout.toList.getLast? ≠ some '\n')
    (lifecycleError "lifecycle.projection.content-digest"
      "Git exact object-size inventory did not complete")
  let lines := result.stdout.toList.dropLast.splitOn '\n'
  failIf (lines.length ≠ unique.length) (lifecycleError "lifecycle.projection.content-digest"
    "Git returned an incomplete exact object-size inventory")
  let values ← (unique.zip lines).mapM fun entry => blobSize entry.1 entry.2
  pure (values.foldl (fun m value => m.set value.1 value.2) ∅)

/-- **`exactBlobSizes`.** -/
def exactBlobSizes (git : Git) (objectIds : List String) :
    Except FoundationError (OrderedMap String Nat) :=
  let unique := sortKeys objectIds.dedup
  if unique.length = 0 then pure ∅
  else do
    failIf (maximumTreeEntries < unique.length) (lifecycleError "lifecycle.repository.blob-bound"
      "Exact Git blob inventory exceeds its object-count bound")
    unique.forM fun objectId => do
      let format := if textLength16 objectId = 40 then GitObjectFormat.sha1 else .sha256
      let _ ← parseObjectId objectId format "Inventoried blob"
      pure ()
    let result ← git.batchCheck (String.ofList (unique.flatMap fun id => id.toList ++ ['\n']))
      (max 1024 (unique.length * 160))
    parseGitBlobSizeResult result unique

/-! ## File facts -/

namespace CodeInspection

/-- `fail`. -/
def fail (code message : String) : FoundationError :=
  lifecycleError s!"lifecycle.context-inspection.code-{code}" message

/-- **`FileObject`**: a blob with its size, or a commit. -/
structure FileObject where
  type : String
  mode : String
  objectId : String
  digest : Sha256Digest
  byteLength : Option Nat
deriving DecidableEq

/-- **`FileFact`.** -/
structure FileFact where
  path : String
  change : SubjectChange
  before : Option FileObject
  after : Option FileObject
deriving DecidableEq

/-- `FOUNDATION_CODE_CHANGED_PATH_LIMIT`. -/
def changedPathLimit : Nat := 16384

/-- **`entryChange`.** -/
def entryChange (before after : Option GitTreeEntry) : Option SubjectChange :=
  match before, after with
  | none, none => none
  | none, some _ => some .added
  | some _, none => some .deleted
  | some before, some after =>
    if before.type ≠ after.type then some .typeChanged
    else if before.mode ≠ after.mode then some .modeChanged
    else if before.objectId = after.objectId then none
    else some .modified

/-- The modes `exactEntryMode` returns. -/
def isEntryMode (entry : GitTreeEntry) : Bool :=
  (decide (entry.type = "blob") && ["100644", "100755", "120000"].contains entry.mode)
    || (decide (entry.type = "commit") && decide (entry.mode = "160000"))

/-- **`exactEntryMode`.** -/
def exactEntryMode (entry : GitTreeEntry) : Except FoundationError String := do
  failIf (isEntryMode entry = false)
    (fail "carrier-invalid" "Candidate tree contains an unsupported Code object mode")
  pure entry.mode

/-- **`fileObject`.** -/
def fileObject (entry : Option GitTreeEntry) (retainedDigest : Option Sha256Digest)
    (blobSizes : OrderedMap String Nat) : Except FoundationError (Option FileObject) :=
  match entry with
  | none => do
    failIf (retainedDigest ≠ none)
      (fail "carrier-invalid" "Absent Code side retains a content digest")
    pure none
  | some entry => do
    let retained ← orFail retainedDigest
      (fail "carrier-invalid" "Present Code side lacks its retained content digest")
    let mode ← exactEntryMode entry
    if entry.type = "commit" then do
      let expected ← digestCanonical (entryFacts entry)
      failIf (retained ≠ expected) (fail "carrier-invalid"
        "Candidate gitlink facts do not reproduce the retained content digest")
      pure (some ⟨"commit", "160000", entry.objectId, retained, none⟩)
    else do
      let byteLength ← orFail (blobSizes.get entry.objectId)
        (fail "carrier-invalid" "Candidate blob size inventory is incomplete")
      pure (some ⟨"blob", mode, entry.objectId, retained, some byteLength⟩)

/-- A path that differs, with the two entries. -/
structure EntryChange where
  path : String
  change : SubjectChange
  before : Option GitTreeEntry
  after : Option GitTreeEntry

/-- The changes between two trees. -/
def changesOf (beforeEntries afterEntries : OrderedMap String GitTreeEntry) : List EntryChange :=
  (unionPaths beforeEntries afterEntries).filterMap fun path =>
    (entryChange (beforeEntries.get path) (afterEntries.get path)).map fun change =>
      ⟨path, change, beforeEntries.get path, afterEntries.get path⟩

/-- The blobs of some changes. -/
def blobIds (changes : List EntryChange) : List String :=
  ((changes.flatMap fun c => [c.before, c.after]).filterMap id).filterMap fun entry =>
    if entry.type = "blob" then some entry.objectId else none

/-- One fact of `deriveFileFacts`. -/
def fileFact (retained : OrderedMap String ChangedSubject) (blobSizes : OrderedMap String Nat)
    (c : EntryChange) : Except FoundationError FileFact := do
  let subject ← orFail (retained.get c.path)
    (fail "carrier-invalid" "Candidate tree change does not reproduce its retained path fact")
  failIf (subject.change ≠ c.change)
    (fail "carrier-invalid" "Candidate tree change does not reproduce its retained path fact")
  let before ← fileObject c.before subject.beforeDigest blobSizes
  let after ← fileObject c.after subject.afterDigest blobSizes
  pure ⟨c.path, c.change, before, after⟩

/-- **`deriveFileFacts`**, of the entries of the application base and of the
Candidate and the retained subjects. -/
def deriveFileFacts (git : Git) (baseEntries candidateEntries : List GitTreeEntry)
    (changedSubjects : List ChangedSubject) : Except FoundationError (List FileFact) := do
  let changes := changesOf (byPath baseEntries) (byPath candidateEntries)
  failIf (changedPathLimit < changes.length) (fail "carrier-invalid"
    "Candidate changed-path inventory exceeds the closed Code bound")
  let retained := changedSubjects.foldl (fun m subject => m.set subject.path subject)
    (∅ : OrderedMap String ChangedSubject)
  failIf (retained.entries.length ≠ changes.length) (fail "carrier-invalid"
    "Candidate tree does not reproduce its retained changed-path inventory")
  let blobSizes ← exactBlobSizes git (blobIds changes)
  changes.mapM (fileFact retained blobSizes)

/-! ## Rows -/

/-- **`FoundationCodeBasis`**: its digest and the number of changed paths. -/
structure CodeBasis where
  digest : Sha256Digest
  changedPathCount : Nat
deriving DecidableEq

/-- **`FoundationCodeFileRow`.** -/
structure CodeFileRow where
  cursor : Sha256Digest
  path : String
  change : SubjectChange
  before : Option FileObject
  after : Option FileObject
deriving DecidableEq

/-- A text or `null`. -/
def nullable : Option String → Json
  | none => .null
  | some text => .string text

/-- What `digestFoundationInspectionCursor` digests, its members in the order
they are written in. -/
def inspectionCursorValue (basisDigest : Sha256Digest) (collection : String) (key : Json) : Json :=
  .object [("basisDigest", .string basisDigest), ("collection", .string collection), ("key", key),
    ("schema", .string "lifecycle.context-inspection-cursor.v1")]

/-- **`digestFoundationInspectionCursor`.** -/
def digestFoundationInspectionCursor (basisDigest : Sha256Digest) (collection : String) (key : Json) :
    Except FoundationError Sha256Digest :=
  digestCanonical (inspectionCursorValue basisDigest collection key)

/-- The key of a change, its members in the order they are written in. -/
def codeFileCursorKey (path : String) (change : SubjectChange) (before after : Option FileObject) :
    Json :=
  .object [("afterObjectId", nullable (after.map (·.objectId))),
    ("beforeObjectId", nullable (before.map (·.objectId))), ("change", .string change.text),
    ("path", .string path)]

/-- **`rowCursor`.** -/
def rowCursor (basis : CodeBasis) (fact : FileFact) : Except FoundationError Sha256Digest :=
  digestFoundationInspectionCursor basis.digest "code-files"
    (codeFileCursorKey fact.path fact.change fact.before fact.after)

/-- **`row`.** -/
def row (basis : CodeBasis) (fact : FileFact) : Except FoundationError CodeFileRow := do
  let cursor ← rowCursor basis fact
  pure ⟨cursor, fact.path, fact.change, fact.before, fact.after⟩

/-! ## The schema of a page -/

/-- `/%(?:2f|5c)/iu`. -/
def encodesSeparator (value : String) : Bool :=
  ["%2f", "%5c"].any fun code => decide (code.toList <:+: value.toList.map Char.toLower)

/-- `FoundationRepositoryRelativePathSchema`. -/
def isRelativePath (value : String) : Bool :=
  decide (value ≠ "") && decide ((utf8Bytes value).length ≤ 4096)
    && decide (value.toList.head? ≠ some '/') && !value.toList.contains '\x00'
    && !value.toList.contains '\\' && !value.toList.contains '?' && !value.toList.contains '#'
    && !encodesSeparator value
    && (value.toList.splitOn '/').all fun segment =>
      decide (segment ≠ [] ∧ segment ≠ ['.'] ∧ segment ≠ ['.', '.'])

/-- `FoundationGitObjectSchema`. -/
def isGitObject (value : String) : Bool := objectIdPattern .sha1 value || objectIdPattern .sha256 value

/-- `FoundationCodeFileObjectSchema`. -/
def isFileObject (o : FileObject) : Bool :=
  isGitObject o.objectId && isSha256 o.digest
    && ((decide (o.type = "blob") && ["100644", "100755", "120000"].contains o.mode
        && o.byteLength.any fun n => decide (n ≤ maxSafeInteger))
      || (decide (o.type = "commit") && decide (o.mode = "160000") && decide (o.byteLength = none)))

/-- What the kind of a change says of the two sides. -/
def changeFits (change : SubjectChange) (before after : Option FileObject) : Bool :=
  match change, before, after with
  | .added, none, some _ => true
  | .deleted, some _, none => true
  | .modified, some before, some after =>
    decide (before.type = after.type ∧ before.mode = after.mode ∧ before.objectId ≠ after.objectId)
  | .modeChanged, some before, some after =>
    decide (before.type = after.type ∧ before.mode ≠ after.mode)
  | .typeChanged, some before, some after => decide (before.type ≠ after.type)
  | _, _, _ => false

/-- `FoundationCodeFileRowSchema`. -/
def isCodeFileRow (r : CodeFileRow) : Bool :=
  isSha256 r.cursor && isRelativePath r.path && r.before.all isFileObject && r.after.all isFileObject
    && changeFits r.change r.before r.after

/-- **`FoundationCodeIndexAvailableResultSchema`.** -/
structure CodeIndexResult where
  basis : CodeBasis
  files : List CodeFileRow
  nextAfterCursor : Option Sha256Digest
deriving DecidableEq

/-- `FOUNDATION_CONTEXT_INDEX_LIMIT`. -/
def contextIndexLimit : Nat := 200

/-- **`FoundationIndexLimitSchema`**: how many rows a page may have. -/
structure IndexLimit where
  value : Nat
  pos : 1 ≤ value
  le : value ≤ contextIndexLimit

/-- The order of `compareFoundationCodePoints`. -/
def precedes (left right : String) : Bool := codePointLe left right && !codePointLe right left

/-- `refineCodeFileRowCursor`. -/
def bindsCursor (basis : CodeBasis) (r : CodeFileRow) : Bool :=
  decide (rowCursor basis ⟨r.path, r.change, r.before, r.after⟩ = .ok r.cursor)

/-- The refinement of a page, and the schemas of its rows. -/
def isCodeIndexResult (result : CodeIndexResult) : Bool :=
  result.files.all isCodeFileRow && decide (result.files.length ≤ contextIndexLimit)
    && result.nextAfterCursor.all isSha256
    && decide ((result.files.map (·.path)).Nodup) && decide ((result.files.map (·.cursor)).Nodup)
    && decide (result.files.length ≤ result.basis.changedPathCount)
    && result.files.all (bindsCursor result.basis)
    && (result.files.zip result.files.tail).all (fun rows => precedes rows.1.path rows.2.path)
    && (decide (result.nextAfterCursor = none)
      || (decide (result.files ≠ [])
        && decide (result.nextAfterCursor = result.files.getLast?.map (·.cursor))
        && decide (result.files.length ≠ result.basis.changedPathCount)))

/-! ## The index -/

/-- Where a page starts: behind the row of the cursor. -/
def pageStart (basis : CodeBasis) (facts : List FileFact) :
    Option Sha256Digest → Except FoundationError Nat
  | none => pure 0
  | some cursor => do
    let cursors ← facts.mapM (rowCursor basis)
    let index ← orFail (cursors.findIdx? fun c => decide (c = cursor)) (fail "cursor-substituted"
      "Code continuation is not a member of the exact Code basis")
    pure (index + 1)

/-- **The page of `compileFoundationCodeIndex`**, of the facts and their basis. -/
def compileFoundationCodeIndex (basis : CodeBasis) (facts : List FileFact)
    (afterCursor : Option Sha256Digest) (limit : IndexLimit) :
    Except FoundationError CodeIndexResult := do
  let start ← pageStart basis facts afterCursor
  let selectedFacts := (facts.drop start).take limit.value
  let rows ← selectedFacts.mapM (row basis)
  let nextAfterCursor :=
    if start + selectedFacts.length < facts.length then rows.getLast?.map (·.cursor) else none
  let result : CodeIndexResult := ⟨basis, rows, nextAfterCursor⟩
  failIf (isCodeIndexResult result = false)
    (lifecycleError "lifecycle.protocol.schema" "Code index violates its protocol schema")
  pure result

end CodeInspection
