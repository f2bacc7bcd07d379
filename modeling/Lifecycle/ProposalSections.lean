import Lifecycle.ControlModel
import Lifecycle.IntegrationAssessment
import Lifecycle.OrderedMap

/-!
# The Proposal section of a reconnaissance Work Product

How the semantic Markdown of a Work Boundary is read: the section is split
into the block of its selection and one block for each semantic object, every
block into its metadata lines and its narrative, and the metadata is held
against the rules of the object's kind (`parseBoundary`).

The lines are those of the draft. Anchors are only added to headings and
taken off again, so the heading grammar is written without them; the digest
of a block is that of its anchored text.
-/

open Fallible Json ControlModel IntegrationAssessment

namespace WorkProduct

/-! ## Values -/

/-- `invalid`. -/
def invalid (code message : String) : FoundationError :=
  lifecycleError s!"lifecycle.agent-work-product.invalid.{code}" message

/-- What `text` accepts. -/
def isText (value : String) (maximum : Nat) : Bool :=
  decide (value ≠ "") && decide ((value.toList.flatMap utf16Units).length ≤ maximum)
    && !value.toList.contains (Char.ofNat 0)

/-- The code of a backtick. -/
def backtick : Char := Char.ofNat 96

/-- The text between two backticks. -/
def unfenced (value : String) : List Char := value.toList.tail.dropLast

/-- **`semanticToken`.** -/
def semanticToken (value : String) : String :=
  if value.toList = backtick :: unfenced value ++ [backtick] ∧ unfenced value ≠ []
      ∧ backtick ∉ unfenced value ∧ '\n' ∉ unfenced value then
    String.ofList (unfenced value)
  else value

/-- **`asText`.** -/
def asText (value label : String) : Except FoundationError String := do
  failIf (isText value 16384 = false) (invalid "text" s!"{label} is outside its bounded text domain")
  pure value

/-- **`asId`.** -/
def asId (value label : String) : Except FoundationError String := do
  let token := semanticToken value
  failIf (isText token 160 = false ∨ matchesIdPattern token = false)
    (invalid "identity" s!"{label} is not one valid identity")
  pure token

/-- The kinds of Knowledge. -/
def knowledgeKinds : List String :=
  ["behavior", "assurance", "blueprint", "description", "check", "discipline"]

/-- `[a-z0-9]+(?:-[a-z0-9]+)*`. -/
def isKnowledgeSegment (segment : List Char) : Bool :=
  match utf8Bytes (String.ofList segment) with
  | [] => false
  | b :: bs => lowerAlphanumeric b && relationTail false bs

/-- What `knowledgeId` accepts. -/
def isKnowledgeId (value : String) : Bool :=
  isText value 160 && match value.toList.splitOn '.' with
    | kind :: segments => knowledgeKinds.contains (String.ofList kind) && !segments.isEmpty
        && segments.all isKnowledgeSegment
    | [] => false

/-- **`asKnowledgeId`.** -/
def asKnowledgeId (value label : String) : Except FoundationError String := do
  let token := semanticToken value
  failIf (isKnowledgeId token = false)
    (invalid "knowledge-identity" s!"{label} is not one valid Knowledge identity")
  pure token

/-- What `normalizedPath` accepts. -/
def isNormalizedPath (value : String) : Bool :=
  isText value 4096 && !value.toList.contains '\\'
    && (value.toList.splitOn '/').all fun part =>
      decide (part ≠ [] ∧ part ≠ ['.'] ∧ part ≠ ['.', '.'])

/-- **`asPath`.** -/
def asPath (value label : String) : Except FoundationError String := do
  let token := semanticToken value
  failIf (isNormalizedPath token = false)
    (invalid "path" s!"{label} is not one normalized repository-relative path")
  pure token

/-- **`asEnum`**, of a table of values. -/
def asEnum {α : Type} (value label : String) (values : List (String × α)) :
    Except FoundationError α :=
  orFail (OrderedMap.lookupEntry (semanticToken value) values)
    (invalid "enumeration" s!"{label} uses an unsupported value")

/-- **`asBoolean`.** -/
def asBoolean (value label : String) : Except FoundationError Bool :=
  orFail (OrderedMap.lookupEntry (semanticToken value) [("true", true), ("false", false)])
    (invalid "boolean" s!"{label} must be exactly true or false")

/-- **`sortedIds`.** -/
def sortedIds (values : List String) (label : String) : Except FoundationError (List String) := do
  let ids ← values.mapM fun value => asId value label
  pure (sortUniqueCodePoints ids)

/-! ## Kinds -/

/-- **The kinds of semantic objects.** -/
inductive ObjectKind
  | objective
  | mandate
  | effect
  | risk
  | obligation
  | artifact
  | check
  | proposition
deriving DecidableEq

def ObjectKind.text : ObjectKind → String
  | objective => "Objective"
  | mandate => "Mandate"
  | effect => "Effect"
  | risk => "Risk"
  | obligation => "Obligation"
  | artifact => "Artifact"
  | check => "Check"
  | proposition => "Proposition"

/-- The kinds a section may hold several objects of. -/
def repeatableKinds : List ObjectKind :=
  [.effect, .risk, .obligation, .artifact, .check, .proposition]

/-- What a reconnaissance proposes. -/
inductive ProposalKind
  | workBoundary
  | preparationCondition
  | splitRecommended
  | noProduct
deriving DecidableEq

def proposalKinds : List (String × ProposalKind) := [("work-boundary", .workBoundary),
  ("preparation-condition", .preparationCondition), ("split-recommended", .splitRecommended),
  ("no-product", .noProduct)]

/-! ## Metadata -/

/-- **`MetadataRule`.** -/
structure MetadataRule where
  label : String
  required : Bool
  repeated : Bool
deriving DecidableEq

def boundarySelectionRules : List MetadataRule := [⟨"Kind", true, false⟩,
  ⟨"Capability profile", false, false⟩, ⟨"Projection profile", false, false⟩,
  ⟨"Selected Knowledge", false, true⟩, ⟨"Selected work type", false, true⟩,
  ⟨"Selected source", false, true⟩]

/-- The rules of each kind. -/
def ObjectKind.rules : ObjectKind → List MetadataRule
  | objective => []
  | mandate => [⟨"Why now", true, false⟩, ⟨"Included", true, true⟩, ⟨"Excluded", false, true⟩,
      ⟨"Authority fact", false, true⟩, ⟨"Chosen tradeoff", false, true⟩,
      ⟨"Assumption", false, true⟩, ⟨"Falsifier", false, true⟩]
  | effect => [⟨"Kind", true, false⟩, ⟨"Trigger", true, false⟩, ⟨"Target", true, false⟩,
      ⟨"Reversibility", true, false⟩]
  | risk => [⟨"Effect", false, true⟩, ⟨"Treatment", true, false⟩,
      ⟨"Evidence artifact", false, true⟩, ⟨"Proposition", false, true⟩]
  | obligation => [⟨"Kind", true, false⟩, ⟨"Source", false, true⟩,
      ⟨"Required evidence artifact", false, true⟩, ⟨"Severity", true, false⟩]
  | artifact => [⟨"Path", true, false⟩, ⟨"Role", true, false⟩, ⟨"Must change", true, false⟩,
      ⟨"Obligation", true, true⟩]
  | check => [⟨"Check Knowledge", true, false⟩, ⟨"Binding", true, true⟩,
      ⟨"Modality", true, false⟩, ⟨"Obligation", true, true⟩, ⟨"Baseline required", true, false⟩,
      ⟨"Final required", true, false⟩, ⟨"Environment requirement", false, true⟩]
  | proposition => [⟨"Evidence kind", true, true⟩, ⟨"Evidence artifact", false, true⟩,
      ⟨"Obligation", true, true⟩, ⟨"Effect", false, true⟩, ⟨"Risk", false, true⟩,
      ⟨"Path", false, false⟩, ⟨"Check", false, false⟩,
      ⟨"Not applicable condition", false, false⟩]

/-- `FORBIDDEN_MECHANICS`. -/
def forbiddenMechanics : List String := ["Activity", "Attempt", "Authority", "Candidate",
  "Complete", "Compiler", "Digest", "Identity", "Invocation", "Kind", "Locator", "Order",
  "Process", "Projection digest", "Revision", "Role", "Subject digest"]

/-- `TOKEN_METADATA_FIELDS`. -/
def tokenMetadataFields : List String := ["Baseline required", "Binding", "Capability profile",
  "Category", "Check", "Check Knowledge", "Citation", "Condition class", "Disposition", "Effect",
  "Evidence", "Evidence artifact", "Evidence kind", "Falsified mandate", "Final required", "Kind",
  "Knowledge", "Limitation", "Mandate excess", "Missing obligation", "Modality", "Must change",
  "Obligation", "Path", "Projection profile", "Proposition", "Remaining obligation", "Receipt",
  "Reversibility", "Risk", "Role", "Selected Knowledge", "Selected work type", "Selected source",
  "Severity", "Source", "State", "Subject", "Supports", "Treatment", "Uncertainty"]

/-- The values of each metadata field. -/
abbrev Fields := List (String × List String)

/-- The values of one field, none if it is absent. -/
def fieldOf (fields : Fields) (label : String) : List String :=
  (OrderedMap.lookupEntry label fields).getD []

/-- `No-product reason|[A-Za-z][A-Za-z ]*`. -/
def isMetadataLabel (label : List Char) : Bool :=
  label = "No-product reason".toList || match label with
    | [] => false
    | c :: cs => c.isAlpha && cs.all fun c => c.isAlpha || c = ' '

/-- A character `.` does not match. -/
def isLineTerminator (c : Char) : Bool := [10, 13, 8232, 8233].contains c.toNat

/-- The label of a metadata line, up to its first colon. -/
def metadataLabel (line : String) : List Char := (line.toList.drop 2).takeWhile (· ≠ ':')

/-- The value of a metadata line, after its first colon and a space. -/
def metadataValue (line : String) : List Char := ((line.toList.drop 2).dropWhile (· ≠ ':')).drop 2

/-- `/^- (?<label>…): (?<value>.+)$/u`. -/
def metadataLine (line : String) : Option (String × String) :=
  if line.toList = '-' :: ' ' :: metadataLabel line ++ ':' :: ' ' :: metadataValue line
      ∧ isMetadataLabel (metadataLabel line) = true ∧ metadataValue line ≠ []
      ∧ (metadataValue line).any isLineTerminator = false then
    some (String.ofList (metadataLabel line), String.ofList (metadataValue line))
  else none

/-- `value === value.trim()`. -/
def isTrimmedText (value : String) : Bool :=
  !(value.toList.head?.any isTrimmed || value.toList.getLast?.any isTrimmed)

/-- The rule of a label. -/
def ruleOf (rules : List MetadataRule) (label : String) : Option MetadataRule :=
  rules.find? fun rule => rule.label = label

/-- What a metadata line adds. -/
def addMetadata (rules : List MetadataRule) (label : String)
    (fields : OrderedMap String (List String)) (line : String) :
    Except FoundationError (OrderedMap String (List String)) := do
  let field := ((metadataLine line).map (·.1)).getD ""
  failIf (forbiddenMechanics.contains field = true ∧ ruleOf rules field = none)
    (invalid "mechanics-authored" s!"{label} authors runtime-owned field {field}")
  let unsupported := invalid "metadata" s!"{label} contains an unsupported metadata line"
  let entry ← orFail (metadataLine line) unsupported
  let rule ← orFail (ruleOf rules entry.1) unsupported
  failIf (isTrimmedText entry.2 = false) unsupported
  let values := (fields.get entry.1).getD []
  failIf (rule.repeated = false ∧ values ≠ [])
    (invalid "metadata-repeat" s!"{label} repeats {field}")
  let value := if tokenMetadataFields.contains entry.1 then semanticToken entry.2 else entry.2
  pure (fields.set entry.1 (values ++ [value]))

/-- The metadata lines a block starts with, and what follows them. -/
def splitMetadata : List String → List String × List String
  | [] => ([], [])
  | line :: rest =>
    if line = "" then splitMetadata rest
    else if "- ".toList.isPrefixOf line.toList = true then
      (line :: (splitMetadata rest).1, (splitMetadata rest).2)
    else ([], line :: rest)

/-- Lines without the blank ones around them. -/
def trimBlank (lines : List String) : List String :=
  ((lines.dropWhile (· = "")).reverse.dropWhile (· = "")).reverse

/-- **`ParsedMetadata`.** -/
structure ParsedMetadata where
  fields : Fields
  narrative : Option String

/-- The narrative of a block. -/
def narrativeOf (lines : List String) : Option String :=
  if trimBlank lines = [] then none else some ("\n".intercalate (trimBlank lines))

/-- Whether a block has a narrative where it must, and none where it must
not. -/
def assertNarrative (narrativeRequired : Bool) (label : String) :
    Option String → Except FoundationError Unit
  | none => failIf (narrativeRequired = true)
      (invalid "narrative" s!"{label} requires one bounded nonempty narrative")
  | some narrative => do
    failIf (narrativeRequired = false)
      (invalid "narrative-forbidden" s!"{label} does not accept narrative text")
    let _ ← asText narrative s!"{label} narrative"
    pure ()

/-- The values of a field as they are kept: sorted when it may be repeated. -/
def keptValues (rules : List MetadataRule) (entry : String × List String) : String × List String :=
  (entry.1, if (ruleOf rules entry.1).any (·.repeated) then sortUniqueCodePoints entry.2
    else entry.2)

/-- **`parseMetadata`**, of the lines of a block. -/
def parseMetadata (rules : List MetadataRule) (label : String) (narrativeRequired : Bool)
    (body : List String) : Except FoundationError ParsedMetadata := do
  let split := if rules.isEmpty then ([], body) else splitMetadata body
  let fields ← split.1.foldlM (addMetadata rules label) OrderedMap.empty
  rules.forM fun rule => failIf (rule.required = true ∧ fields.has rule.label = false)
    (invalid "metadata-missing" (label ++ " is missing " ++ rule.label))
  let narrative := narrativeOf split.2
  assertNarrative narrativeRequired label narrative
  pure ⟨fields.entries.map (keptValues rules), narrative⟩

/-! ## Blocks -/

/-- A line of a heading of level three. -/
def isHeading (line : String) : Bool := "### ".toList.isPrefixOf line.toList

/-- The lines before the first heading, and every heading with the lines
under it. -/
def splitBlocks : List String → List String × List (String × List String)
  | [] => ([], [])
  | line :: rest =>
    if isHeading line = true then ([], (line, (splitBlocks rest).1) :: (splitBlocks rest).2)
    else (line :: (splitBlocks rest).1, (splitBlocks rest).2)

/-- **`ParsedBoundaryObject`.** -/
structure ParsedBoundaryObject where
  localId : String
  digest : Sha256Digest
  objectKind : ObjectKind
  fields : Fields
  narrative : String
deriving DecidableEq

/-- The heading of an object of a repeatable kind. -/
def repeatableHeading (line : String) (kind : ObjectKind) : Option (ObjectKind × String) :=
  let start := ("### " ++ kind.text ++ ": ").toList
  let handle := String.ofList (line.toList.drop start.length)
  if start.isPrefixOf line.toList = true ∧ matchesRelationPattern handle = true then
    some (kind, handle)
  else none

/-- **`BOUNDARY_HEADING`**: the kind and the local handle a heading defines. -/
def boundaryHeading (line : String) : Option (ObjectKind × String) :=
  if line = "### Objective" then some (.objective, "objective")
  else if line = "### Mandate" then some (.mandate, "mandate")
  else repeatableKinds.findSome? (repeatableHeading line)

/-- The digest of an anchored block. -/
def blockDigest (line handle : String) (body : List String) : Sha256Digest :=
  let text := "\n".intercalate ((line ++ " \x7b#" ++ handle ++ "\x7d") :: body)
  sha256Bytes (utf8Bytes (if text.toList.getLast? = some '\n' then text else text ++ "\n"))

/-- One semantic object. -/
def parseObject (block : String × List String) : Except FoundationError ParsedBoundaryObject := do
  let heading ← orFail (boundaryHeading block.1) (invalid "item-heading"
    "Work Boundary Semantics item heading does not match its exact anchored grammar")
  let metadata ← parseMetadata heading.1.rules (heading.1.text ++ " " ++ heading.2) true block.2
  pure {
    localId := heading.2
    digest := blockDigest block.1 heading.2 block.2
    objectKind := heading.1
    fields := metadata.fields
    narrative := metadata.narrative.getD "" }

/-- The local handles of `normalizeDraftAnchors` are distinct. -/
def assertDistinctHandles (handles : List String) : Except FoundationError Unit :=
  failIf (¬ handles.Nodup) (invalid "duplicate-local-identity"
    "Agent Work Product defines the same local handle more than once")

/-- **What a reconnaissance proposes**: its selection and its semantic
objects, where there are any. -/
structure ParsedReconnaissance where
  proposal : ProposalKind
  selection : Option Fields
  objects : List ParsedBoundaryObject

/-- A proposal without semantic objects. -/
def parseProposalAlone (lines : List String) : Except FoundationError ParsedReconnaissance := do
  let metadata ← parseMetadata boundarySelectionRules "Reconnaissance Proposal" false lines
  let proposal ← asEnum ((fieldOf metadata.fields "Kind").headD "") "Reconnaissance proposal"
    proposalKinds
  failIf (proposal = .workBoundary) (invalid "work-boundary-incomplete"
    "A work-boundary proposal requires complete Work Boundary semantic objects")
  failIf (["Capability profile", "Projection profile", "Selected Knowledge", "Selected work type",
      "Selected source"].any (fun label => fieldOf metadata.fields label ≠ []) = true)
    (invalid "reconnaissance-selection"
      "Only a work-boundary proposal can select execution subjects or profiles")
  pure ⟨proposal, none, []⟩

/-- How many objects there are of a kind. -/
def countOf (objects : List ParsedBoundaryObject) (kind : ObjectKind) : Nat :=
  objects.countP fun o => o.objectKind = kind

/-- A proposal with semantic objects. -/
def parseProposalObjects (lines : List String) (blocks : List (String × List String)) :
    Except FoundationError ParsedReconnaissance := do
  failIf (4096 < blocks.length) (invalid "collection-bound"
    "Work Boundary semantic objects exceeds its 4096-item semantic bound")
  let selection ← parseMetadata boundarySelectionRules "Work Boundary selection" false lines
  let proposal ← asEnum ((fieldOf selection.fields "Kind").headD "") "Reconnaissance proposal"
    proposalKinds
  failIf (proposal ≠ .workBoundary) (invalid "work-boundary-correspondence"
    "Only a work-boundary proposal can carry Work Boundary semantic objects")
  failIf ((fieldOf selection.fields "Capability profile").length ≠ 1
      ∨ (fieldOf selection.fields "Projection profile").length ≠ 1)
    (invalid "work-boundary-selection"
      "A work-boundary proposal requires one capability and one Projection profile")
  let parsed ← blocks.mapM parseObject
  let objects := parsed.insertionSort fun a b => codePointLe a.localId b.localId = true
  failIf (countOf objects .objective ≠ 1 ∨ countOf objects .mandate ≠ 1)
    (invalid "work-boundary-cardinality"
      "Work Boundary semantics require exactly one Objective and one Mandate")
  failIf ([ObjectKind.obligation, .artifact, .check, .proposition].any
      (fun kind => countOf objects kind = 0) = true)
    (invalid "work-boundary-incomplete"
      "Work Boundary semantics require an obligation, artifact, Check, and proposition")
  pure ⟨.workBoundary, some selection.fields, objects⟩

/-- **`parseBoundary`**, of the lines of a Proposal section and the local
handles that other sections define. -/
def parseBoundary (elsewhere lines : List String) : Except FoundationError ParsedReconnaissance := do
  let blocks := splitBlocks lines
  assertDistinctHandles
    (elsewhere ++ (blocks.2.filterMap fun block => boundaryHeading block.1).map (·.2))
  if blocks.2 = [] then parseProposalAlone lines
  else parseProposalObjects blocks.1 blocks.2

end WorkProduct
