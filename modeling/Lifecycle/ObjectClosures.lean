import Lifecycle.CodeInspection

/-!
# The object closure of a Candidate

What a Candidate Revision Carrier has to hold (`candidate/git-object-closure.ts`):
every tree below the root tree is listed, the blobs and trees its entries name
are collected, each file under its whole path, and Git is asked for the type and
the size of every object collected. The trees still to be listed are a stack;
each carries the path it was found under, its depth and the trees above it, so
that a tree within itself is refused. Git is a parameter.

The loop of the source has no bound of its own, and `walkTrees` may run out of
fuel: what it returns then is `none`.
-/

open Fallible Json ControlModel Knowledge SortedBy Carrier CodeInspection

namespace ObjectClosure

/-! ## Git -/

/-- `DirectTreeEntry["objectType"]`. -/
inductive ObjectType
  | blob
  | tree
  | commit
deriving DecidableEq

def ObjectType.text : ObjectType → String
  | .blob => "blob"
  | .tree => "tree"
  | .commit => "commit"

/-- **The Git commands used**, on the repository: the object format, `cat-file
-t` and `ls-tree -z --full-name` of an object, and `cat-file --batch-check` of
some lines with a bound for its output. -/
structure ClosureGit where
  objectFormat : Except FoundationError GitObjectFormat
  typeOf : String → Except FoundationError (CommandResult String)
  lsTree : String → Except FoundationError (CommandResult (List UInt8))
  batchCheck : String → Nat → Except FoundationError (CommandResult String)

/-- The command returned all it had to say. -/
def CommandResult.Complete {α : Type} (result : CommandResult α) : Prop :=
  ¬ (result.exitCode ≠ 0 ∨ result.stdoutTruncated = true ∨ result.timedOut = true)

instance {α : Type} (result : CommandResult α) : Decidable (CommandResult.Complete result) :=
  inferInstanceAs (Decidable (¬ _))

/-! ## Tree listings -/

/-- `TREE_LISTING_BYTE_BOUND`. -/
def treeListingByteBound : Nat := 256 * 1024 * 1024

/-- **`DirectTreeEntry`.** -/
structure DirectTreeEntry where
  mode : String
  objectType : ObjectType
  objectId : String
  name : String
deriving DecidableEq

/-- **`exactObjectId`.** -/
def exactObjectId (value : String) (objectFormat : GitObjectFormat) (label : String) :
    Except FoundationError String := do
  failIf (objectIdPattern objectFormat value = false)
    (invalid s!"{label} is not one exact {objectFormat.text} Git object identity")
  pure value

/-- **`decodeTreeName`.** -/
def decodeTreeName (bytes : List UInt8) (label : String) : Except FoundationError String := do
  let value ← orFail (decodeUtf8 bytes) (invalid s!"{label} is not exact UTF-8")
  failIf (bytes.length = 0 ∨ value = "." ∨ value = ".." ∨ '/' ∈ value.toList ∨ '\\' ∈ value.toList
      ∨ '?' ∈ value.toList ∨ '#' ∈ value.toList ∨ encodesSeparator value = true
      ∨ value.toList.map Char.toLower = ".git".toList)
    (invalid s!"{label} is not a valid materializable repository path segment")
  pure value

/-- The name of a type between two blanks. -/
def spaced (type : ObjectType) : List Char := ' ' :: type.text.toList ++ [' ']

/-- `/^(\d{6}) (blob|tree|commit) ([a-f0-9]+)$/u`, the three groups. -/
def treeHeader (header : List Char) : Option (List Char × ObjectType × List Char) := do
  let mode := header.take 6
  let rest := header.drop 6
  let type ← [ObjectType.blob, .tree, .commit].find? fun type => (spaced type).isPrefixOf rest
  let id := rest.drop (spaced type).length
  if mode.length = 6 ∧ mode.all StrictJson.isDigit = true ∧ id ≠ []
      ∧ id.all Sha256.isHexDigit = true then
    some (mode, type, id)
  else none

/-- One entry of the loop of `parseDirectTree`, the names before it seen. -/
def parseTreeEntry (objectFormat : GitObjectFormat) (names : List String) (line : List UInt8) :
    Except FoundationError DirectTreeEntry := do
  failIf (line = [])
    (invalid "Candidate Revision Carrier tree contains an empty or unterminated entry")
  let tab := line.idxOf 0x09
  failIf (tab = 0 ∨ line.length ≤ tab + 1)
    (invalid "Candidate Revision Carrier tree contains a malformed entry")
  let header := line.take tab
  failIf (header.any (fun byte => decide (0x7f < byte)) = true)
    (invalid "Candidate Revision Carrier tree entry header is not ASCII")
  let groups ← orFail (treeHeader (header.map fun byte => Char.ofNat byte.toNat))
    (invalid "Candidate Revision Carrier tree entry header is malformed")
  let name ← decodeTreeName (line.drop (tab + 1)) "Candidate Revision Carrier tree entry name"
  failIf (name ∈ names) (invalid "Candidate Revision Carrier tree repeats one entry name")
  let objectId ← exactObjectId (String.ofList groups.2.2) objectFormat s!"Git object for {name}"
  pure ⟨String.ofList groups.1, groups.2.1, objectId, name⟩

/-- The loop of `parseDirectTree`. -/
def parseTreeEntries (objectFormat : GitObjectFormat) :
    List (List UInt8) → List String → Except FoundationError (List DirectTreeEntry)
  | [], _ => pure []
  | line :: lines, names => do
    let entry ← parseTreeEntry objectFormat names line
    let entries ← parseTreeEntries objectFormat lines (names ++ [entry.name])
    pure (entry :: entries)

/-- **`parseDirectTree`.** -/
def parseDirectTree (bytes : List UInt8) (objectFormat : GitObjectFormat) :
    Except FoundationError (List DirectTreeEntry) := do
  failIf (treeListingByteBound < bytes.length)
    (invalid "Candidate Revision Carrier tree listing exceeds its byte bound")
  if bytes = [] then pure []
  else do
    failIf (bytes.getLast? ≠ some 0)
      (invalid "Candidate Revision Carrier tree listing is not NUL terminated")
    let entries ← parseTreeEntries objectFormat (bytes.splitOn 0).dropLast []
    pure (sortOn (·.name) entries)

/-- The trees listed so far. -/
abbrev TreeCache : Type := OrderedMap String (List DirectTreeEntry)

/-- A tree that is listed for the first time. -/
def listTree (git : ClosureGit) (objectFormat : GitObjectFormat) (tree : String) :
    Except FoundationError (List DirectTreeEntry) := do
  let result ← git.lsTree tree
  failIf (¬ CommandResult.Complete result)
    (invalid "Candidate Revision Carrier tree could not be parsed exactly")
  let entries ← parseDirectTree result.stdout objectFormat
  failIf (entries.length = 0)
    (invalid "Candidate Revision Carrier contains an empty reachable tree")
  pure entries

/-- **`directTreeEntries`.** -/
def directTreeEntries (git : ClosureGit) (objectFormat : GitObjectFormat) (tree : String)
    (cache : TreeCache) : Except FoundationError (List DirectTreeEntry × TreeCache) :=
  match cache.get tree with
  | some cached => pure (cached, cache)
  | none => do
    let entries ← listTree git objectFormat tree
    pure (entries, cache.set tree entries)

/-! ## Object facts -/

/-- `/^([a-f0-9]+) (blob|tree) ([0-9]+)$/u`, the three groups. -/
def objectLine (line : List Char) : Option (List Char × ObjectType × List Char) := do
  let id := line.takeWhile Sha256.isHexDigit
  let rest := line.dropWhile Sha256.isHexDigit
  let type ← [ObjectType.blob, .tree].find? fun type => (spaced type).isPrefixOf rest
  let digits := rest.drop (spaced type).length
  if id ≠ [] ∧ digits ≠ [] ∧ digits.all StrictJson.isDigit = true then some (id, type, digits)
  else none

/-- One line of the answer: the object, and the bytes of all before it and of it. -/
def objectFact (objectFormat : GitObjectFormat) (limits : CarrierLimits)
    (expected : OrderedMap String ObjectType) (aggregate : Nat) (expectedId : String)
    (line : List Char) : Except FoundationError (CarrierObject × Nat) := do
  let disagrees :=
    invalid "Candidate Revision Carrier object inspection disagrees with its tree closure"
  let expectedType ← orFail (expected.get expectedId) disagrees
  let groups ← orFail (objectLine line) disagrees
  let id ← exactObjectId (String.ofList groups.1) objectFormat "Inspected Git object"
  failIf (id ≠ expectedId ∨ groups.2.1 ≠ expectedType) disagrees
  let byteLength := Nat.ofDigitChars 10 groups.2.2 0
  failIf (maxSafeInteger < byteLength)
    (invalid "Candidate Revision Carrier object payload byte length is not a safe integer")
  failIf (maxSafeInteger < aggregate + byteLength
      ∨ limits.maximumAggregateObjectBytes < aggregate + byteLength)
    (invalid "Candidate Revision Carrier aggregate object bytes exceed their bound")
  pure (⟨expectedId, expectedType.text, byteLength⟩, aggregate + byteLength)

/-- The loop over the lines of the answer. -/
def objectFactsFrom (objectFormat : GitObjectFormat) (limits : CarrierLimits)
    (expected : OrderedMap String ObjectType) :
    Nat → List (String × List Char) → Except FoundationError (List CarrierObject)
  | _, [] => pure []
  | aggregate, (id, line) :: lines => do
    let (fact, aggregate) ← objectFact objectFormat limits expected aggregate id line
    let facts ← objectFactsFrom objectFormat limits expected aggregate lines
    pure (fact :: facts)

/-- The digits of an object identity. -/
def objectIdLength : GitObjectFormat → Nat
  | .sha1 => 40
  | .sha256 => 64

/-- The lines of an output, with or without a line break behind the last. -/
def outputLines (stdout : String) : List (List Char) :=
  if stdout.toList.getLast? = some '\n' then stdout.toList.dropLast.splitOn '\n'
  else stdout.toList.splitOn '\n'

/-- **`objectFacts`.** -/
def objectFacts (git : ClosureGit) (objectFormat : GitObjectFormat)
    (expected : OrderedMap String ObjectType) (limits : CarrierLimits) :
    Except FoundationError (List CarrierObject) := do
  let objectIds := sortKeys expected.keys
  failIf (objectIds.length < 1 ∨ limits.maximumObjects < objectIds.length)
    (invalid "Candidate Revision Carrier object closure is outside its object-count bound")
  let maximumOutputBytes := min maxSafeInteger
    (objectIds.length * (objectIdLength objectFormat + 32) + 1)
  let result ← git.batchCheck (String.ofList (objectIds.flatMap fun id => id.toList ++ ['\n']))
    maximumOutputBytes
  failIf (¬ CommandResult.Complete result)
    (invalid "Candidate Revision Carrier object closure could not be inspected exactly")
  let lines := outputLines result.stdout
  failIf (lines.length ≠ objectIds.length)
    (invalid "Candidate Revision Carrier object inspection returned an ambiguous inventory")
  objectFactsFrom objectFormat limits expected 0 (objectIds.zip lines)

/-! ## The walk -/

/-- A tree still to be listed. -/
structure Occurrence where
  tree : String
  pathPrefix : String
  depth : Nat
  ancestors : List String

/-- A file that was found. -/
structure FileEntry where
  path : String
  objectId : String
  mode : String
deriving DecidableEq

/-- **What the loop keeps.** The top of the stack comes first. -/
structure Walk where
  expected : OrderedMap String ObjectType
  treeCache : TreeCache
  fileEntries : List FileEntry
  paths : List String
  pending : List Occurrence
  observedTreeEntries : Nat

/-- The type an entry is admitted as. -/
def allowedType (entry : DirectTreeEntry) : Option ObjectType :=
  if entry.mode = "040000" ∧ entry.objectType = .tree then some .tree
  else if (entry.mode = "100644" ∨ entry.mode = "100755") ∧ entry.objectType = .blob then some .blob
  else none

/-- The path of an entry. -/
def Occurrence.pathOf (o : Occurrence) (name : String) : String :=
  if o.pathPrefix = "" then name
  else
    let under := o.pathPrefix
    s!"{under}/{name}"

/-- **One entry of a tree.** -/
def visitEntry (limits : CarrierLimits) (o : Occurrence) (w : Walk) (entry : DirectTreeEntry) :
    Except FoundationError Walk := do
  failIf (limits.maximumTreeEntries < w.observedTreeEntries + 1)
    (invalid "Candidate Revision Carrier tree exceeds its entry bound")
  let path := o.pathOf entry.name
  failIf (limits.maximumRepositoryPathBytes < byteLength path)
    (invalid "Candidate Revision Carrier path exceeds its byte bound")
  failIf (path ∈ w.paths)
    (invalid "Candidate Revision Carrier tree resolves one path more than once")
  let allowed ← orFail (allowedType entry)
    (invalid "Candidate Revision Carrier tree contains an unsupported mode or object type")
  failIf ((w.expected.get entry.objectId).any (fun priorType => decide (priorType ≠ allowed)) = true)
    (invalid "Candidate Revision Carrier object is referenced with conflicting types")
  let expected := w.expected.set entry.objectId allowed
  failIf (limits.maximumObjects < expected.entries.length)
    (invalid "Candidate Revision Carrier object closure exceeds its object-count bound")
  let seen : Walk := { w with
    expected := expected
    paths := w.paths ++ [path]
    observedTreeEntries := w.observedTreeEntries + 1 }
  if allowed = .tree then do
    failIf (entry.objectId ∈ o.ancestors)
      (invalid "Candidate Revision Carrier tree contains a recursive tree reference")
    pure { seen with pending :=
      ⟨entry.objectId, path, o.depth + 1, o.ancestors ++ [entry.objectId]⟩ :: seen.pending }
  else
    pure { seen with fileEntries := seen.fileEntries ++ [⟨path, entry.objectId, entry.mode⟩] }

/-- **One tree of the stack**, the others left on it. -/
def visitTree (git : ClosureGit) (objectFormat : GitObjectFormat) (limits : CarrierLimits)
    (w : Walk) (o : Occurrence) (others : List Occurrence) : Except FoundationError Walk := do
  failIf (limits.maximumTreeDepth < o.depth)
    (invalid "Candidate Revision Carrier tree exceeds its depth bound")
  let (entries, cache) ← directTreeEntries git objectFormat o.tree w.treeCache
  replay (visitEntry limits o) { w with pending := others, treeCache := cache } entries

/-- **The loop over the stack.** -/
def walkTrees (git : ClosureGit) (objectFormat : GitObjectFormat) (limits : CarrierLimits) :
    Nat → Walk → Option (Except FoundationError Walk)
  | 0, w => if w.pending = [] then some (.ok w) else none
  | fuel + 1, w =>
    match w.pending with
    | [] => some (.ok w)
    | o :: others =>
      match visitTree git objectFormat limits w o others with
      | .ok next => walkTrees git objectFormat limits fuel next
      | .error e => some (.error e)

/-- The walk before its first tree. -/
def startWalk (rootTree : String) : Walk where
  expected := (∅ : OrderedMap String ObjectType).set rootTree .tree
  treeCache := ∅
  fileEntries := []
  paths := []
  pending := [⟨rootTree, "", 0, [rootTree]⟩]
  observedTreeEntries := 0

/-! ## The closure -/

/-- `FoundationCandidateRevisionCarrierTreeEntryV1`. -/
structure CarrierTreeEntry where
  path : String
  objectId : String
  mode : String
  byteLength : Int
deriving DecidableEq

/-- **`FoundationCandidateRevisionCarrierClosureV1`.** -/
structure CarrierClosure where
  objectFormat : GitObjectFormat
  rootTree : String
  objectInventory : List CarrierObject
  treeEntries : List CarrierTreeEntry
deriving DecidableEq

/-- The input of the inspection. -/
structure ClosureInput where
  rootTree : String
  limits : CarrierLimits
  expectedObjectFormat : Option GitObjectFormat := none

/-- `text.trim()`. -/
def trim (text : List Char) : List Char :=
  ((text.dropWhile isTrimmed).reverse.dropWhile isTrimmed).reverse

/-- What is tested before the walk. -/
def openRoot (git : ClosureGit) (input : ClosureInput) :
    Except FoundationError (GitObjectFormat × String) := do
  let objectFormat ← git.objectFormat
  failIf (input.expectedObjectFormat.any (fun expected => decide (expected ≠ objectFormat)) = true)
    (invalid "Candidate Revision Carrier Git object format changed across inspection")
  let rootTree ← exactObjectId input.rootTree objectFormat "Candidate Revision Carrier root tree"
  let rootType ← git.typeOf rootTree
  failIf (rootType.exitCode ≠ 0 ∨ trim rootType.stdout.toList ≠ "tree".toList)
    (invalid "Candidate Revision Carrier root identity is unavailable or is not a tree")
  pure (objectFormat, rootTree)

/-- The files with the sizes of their blobs, in the order of their paths. -/
def closureEntries (objectInventory : List CarrierObject) (fileEntries : List FileEntry) :
    List CarrierTreeEntry :=
  let sizes := objectInventory.foldl (fun m object => m.set object.objectId object.byteLength)
    (∅ : OrderedMap String Int)
  sortOn (·.path) (fileEntries.map fun entry =>
    ⟨entry.path, entry.objectId, entry.mode, (sizes.get entry.objectId).getD 0⟩)

/-- What follows the walk. -/
def closeWalk (git : ClosureGit) (objectFormat : GitObjectFormat) (rootTree : String)
    (limits : CarrierLimits) (w : Walk) : Except FoundationError CarrierClosure := do
  let objectInventory ← objectFacts git objectFormat w.expected limits
  pure ⟨objectFormat, rootTree, objectInventory, closureEntries objectInventory w.fileEntries⟩

/-- **`inspectCandidateRevisionCarrierClosure`**, with fuel for its loop. -/
def inspectCandidateRevisionCarrierClosure (git : ClosureGit) (input : ClosureInput) (fuel : Nat) :
    Option (Except FoundationError CarrierClosure) :=
  match openRoot git input with
  | .error e => some (.error e)
  | .ok (objectFormat, rootTree) =>
    (walkTrees git objectFormat input.limits fuel (startWalk rootTree)).map fun walked =>
      walked >>= closeWalk git objectFormat rootTree input.limits

end ObjectClosure
