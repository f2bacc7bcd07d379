import Lifecycle.CarrierManifests
import Lifecycle.ProposalSections

/-!
# Integration merge output

What `git merge-tree -z` prints for one integration and how it is read
(`candidate/integration-merge.ts`). The output is a list of fields with a NUL
after each: the result tree, the paths left in conflict stages, an empty field,
and the messages, each the number of its paths, the paths, a stable type and a
text for people. Nothing marks the end of a message or of the output; the
counts in it and its exit status are all there is to hold it against.
-/

open Fallible Json ControlModel Carrier

namespace Integration

/-- `FoundationIntegrationConflictV1["kind"]`. -/
inductive ConflictKind
  | content
  | addAdd
  | modifyDelete
  | rename
  | mode
  | type
  | unsupported
deriving DecidableEq, Repr

def ConflictKind.text : ConflictKind → String
  | .content => "content"
  | .addAdd => "add-add"
  | .modifyDelete => "modify-delete"
  | .rename => "rename"
  | .mode => "mode"
  | .type => "type"
  | .unsupported => "unsupported"

/-- **`FoundationIntegrationConflictV1`.** -/
structure IntegrationConflict where
  path : String
  kind : ConflictKind
deriving DecidableEq

/-- **`FoundationIntegrationMergeOutputV1`.** -/
inductive MergeOutput
  | constructed (rootTree : String)
  | conflicted (conflicts : List IntegrationConflict)
deriving DecidableEq

/-- `fail`. -/
def fail (message : String) : FoundationError :=
  lifecycleError "lifecycle.integration.merge-invalid" message

/-- `MAXIMUM_MERGE_OUTPUT_BYTES`. -/
def maximumMergeOutputBytes : Nat := 64 * 1024 * 1024

/-- `MAXIMUM_CONFLICT_PATHS`. -/
def maximumConflictPaths : Nat := 4096

/-! ## Fields -/

/-- The paths `path` returns. -/
def isConflictPath (value : String) : Bool :=
  WorkProduct.isNormalizedPath value && decide ((utf8Bytes value).length ≤ 4096)

/-- **`path`.** -/
def path (value : String) : Except FoundationError String := do
  failIf (isConflictPath value = false)
    (fail "Integration output contains an invalid repository-relative path")
  pure value

/-- `/rename/iu`. -/
def mentionsRename (type : String) : Bool :=
  (type.toList.map Char.toLower).tails.any fun rest => "rename".toList.isPrefixOf rest

/-- Types of conflicts start so. -/
def conflictType (type : String) : Bool := "CONFLICT (".toList.isPrefixOf type.toList

/-- **`conflictKind`.** -/
def conflictKind (type : String) : ConflictKind :=
  if type = "CONFLICT (contents)" ∨ type = "CONFLICT (binary)" then .content
  else if type = "CONFLICT (add/add)" then .addAdd
  else if type = "CONFLICT (modify/delete)" then .modifyDelete
  else if conflictType type && mentionsRename type then .rename
  else if type = "CONFLICT (distinct modes)" then .mode
  else if type = "CONFLICT (file/directory)" ∨ type = "CONFLICT (distinct types)" then .type
  else .unsupported

/-- `/^[1-9][0-9]{0,6}$/u`. -/
def isCountText (value : String) : Bool :=
  match value.toList with
  | [] => false
  | c :: cs => StrictJson.isDigit c && decide (c ≠ '0') && cs.all StrictJson.isDigit
      && decide (cs.length ≤ 6)

/-- `Number` of such a text. -/
def number (value : String) : Nat := Nat.ofDigitChars 10 value.toList 0

/-! ## Facts -/

/-- `Set.prototype.add`. -/
def add (values : List String) (value : String) : List String :=
  if value ∈ values then values else values ++ [value]

/-- The conflicts and the paths their messages explain. -/
structure MergeFacts where
  conflicts : OrderedMap (List UInt8) IntegrationConflict := ∅
  explainedPaths : List String := []

/-- The key of a conflict. -/
def conflictKey (conflict : IntegrationConflict) : Except FoundationError (List UInt8) :=
  canonicalJson (.array [.string conflict.path, .string conflict.kind.text])

/-- **`insert`.** -/
def insert (kind : ConflictKind) (facts : MergeFacts) (conflictPath : String) :
    Except FoundationError MergeFacts := do
  let key ← conflictKey ⟨conflictPath, kind⟩
  let conflicts := facts.conflicts.set key ⟨conflictPath, kind⟩
  failIf (maximumConflictPaths < conflicts.entries.length)
    (fail "Integration conflict facts exceed their bound")
  pure ⟨conflicts, add facts.explainedPaths conflictPath⟩

/-- A staged path becomes a conflict of its own unless a message explains it. -/
def insertUnexplained (facts : MergeFacts) (conflictPath : String) :
    Except FoundationError MergeFacts :=
  if conflictPath ∈ facts.explainedPaths then pure facts
  else insert .unsupported facts conflictPath

/-! ## Sections -/

/-- **The staged paths**, up to the boundary. -/
def readStaged : List String → List String → Except FoundationError (List String × List String)
  | [], staged => pure (staged, [])
  | field :: fields, staged =>
    if field = "" then pure (staged, field :: fields)
    else do
      let stagedPath ← path field
      failIf (maximumConflictPaths < (add staged stagedPath).length)
        (fail "Integration conflict inventory exceeds its bound")
      readStaged fields (add staged stagedPath)

/-- What one message adds. -/
def explain (paths : List String) (type : String) (facts : MergeFacts) :
    Except FoundationError MergeFacts :=
  if type = "Auto-merging" then pure facts
  else do
    failIf (conflictType type = false ∨ type.toList.getLast? ≠ some ')')
      (fail "Integration output contains an unsupported message type")
    replay (insert (conflictKind type)) facts paths

/-- **The messages.** Each has four fields at least, so the number of fields
is fuel enough. -/
def readMessages : Nat → List String → MergeFacts → Except FoundationError MergeFacts
  | _, [], facts => pure facts
  | 0, _ :: _, _ => .error (fail "Integration output has more messages than fields")
  | fuel + 1, countText :: fields, facts => do
    failIf (isCountText countText = false) (fail "Integration message has an invalid path count")
    let count := number countText
    failIf (maximumConflictPaths < count ∨ fields.length < count + 2)
      (fail "Integration message has incomplete bounded framing")
    let paths ← (fields.take count).mapM path
    let facts ← explain paths ((fields.drop count).headD "") facts
    readMessages fuel (fields.drop (count + 2)) facts

/-! ## The output -/

/-- The texts between the NULs. -/
def splitNul (text : String) : List String := (text.toList.splitOn '\x00').map String.ofList

/-- The order of conflicts. -/
def conflictLe : IntegrationConflict → IntegrationConflict → Bool :=
  Comparison.thenBy (fun left right => codePointLe left.path right.path)
    fun left right => codePointLe left.kind.text right.kind.text

/-- **`parseFoundationIntegrationMergeOutputV1`.** -/
def parseMergeOutput (objectFormat : GitObjectFormat) (exitCode : Int) (bytes : List UInt8) :
    Except FoundationError MergeOutput := do
  failIf (exitCode ≠ 0 ∧ exitCode ≠ 1)
    (fail "Integration merge did not complete a supported observation")
  failIf (bytes.length = 0 ∨ maximumMergeOutputBytes < bytes.length ∨ bytes.getLast? ≠ some 0)
    (fail "Integration output is empty, exceeds its bound, or has incomplete NUL framing")
  let text ← orFail (decodeUtf8 bytes) (fail "Integration output is not exact UTF-8")
  let fields := (splitNul text).dropLast
  let rootTree := fields.headD ""
  failIf (objectIdPattern objectFormat rootTree = false)
    (fail "Integration output has no exact result tree identity")
  let (staged, fields) ← readStaged fields.tail []
  failIf (fields.head? ≠ some "")
    (fail "Integration output lacks its message-section boundary")
  let facts ← readMessages fields.tail.length fields.tail {}
  failIf (exitCode = 1 ∧ facts.conflicts.entries.length = 0)
    (fail "Conflicted integration has no complete conflict messages")
  let facts ← replay insertUnexplained facts staged
  if exitCode = 0 then do
    failIf (facts.conflicts.entries.length ≠ 0)
      (fail "Clean integration status contradicts conflict facts")
    pure (.constructed rootTree)
  else do
    failIf (facts.conflicts.entries.length = 0)
      (fail "Conflicted integration has no complete conflict facts")
    pure (.conflicted (Comparison.sortWith conflictLe facts.conflicts.values))

end Integration
