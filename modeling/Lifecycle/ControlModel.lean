import Lifecycle.Timestamp

/-!
# The control model

The records and events of a control store (`control/types.ts`) and their
compilation (`control/model.ts`): the syntax of identities and kinds, the
bounds of a payload, and `compileControlRecordRevision` and
`compileControlRecordEvent`, which give a record revision or an event its
normal form and its digest.
-/

open Fallible Json

/-! ## Types -/

/-- `ControlActorKind`. -/
inductive ControlActorKind
  | agent
  | director
  | runtime
deriving DecidableEq

/-- `ControlActor`. -/
structure ControlActor where
  kind : ControlActorKind
  id : String
deriving DecidableEq

/-- `ControlSemanticAuthority`. -/
inductive ControlSemanticAuthority
  | agentProposed
  | directorSupplied
  | directorAuthenticated
  | runtimeObserved
  | runtimeDerived
deriving DecidableEq

/-- `ControlRecordRelationshipTarget`. -/
structure ControlRecordRelationshipTarget where
  kind : String
  id : String
  revision : Nat
  digest : Sha256Digest
deriving DecidableEq

/-- `ControlRecordRelationship`. -/
structure ControlRecordRelationship where
  relation : String
  target : ControlRecordRelationshipTarget
deriving DecidableEq

/-- `ControlRecordRevisionInput`; omitted relationships are none. -/
structure ControlRecordRevisionInput where
  recordId : String
  recordKind : String
  revision : Nat
  producer : ControlActor
  semanticAuthor : ControlActor
  semanticAuthority : ControlSemanticAuthority
  createdAt : String
  semanticMarkdown : String
  payload : JsonObject
  relationships : List ControlRecordRelationship

/-- `ControlRecordRevision`. -/
structure ControlRecordRevision where
  schema : String
  processId : String
  recordId : String
  recordKind : String
  revision : Nat
  producer : ControlActor
  semanticAuthor : ControlActor
  semanticAuthority : ControlSemanticAuthority
  createdAt : String
  semanticMarkdown : String
  payload : JsonObject
  relationships : List ControlRecordRelationship
  digest : Sha256Digest

/-- `ControlRecordEventSubject`. -/
structure ControlRecordEventSubject where
  recordId : String
  revision : Nat
  digest : Sha256Digest
deriving DecidableEq

/-- `ControlRecordEventInput`. -/
structure ControlRecordEventInput where
  eventId : String
  eventKind : String
  occurredAt : String
  actor : ControlActor
  subject : Option ControlRecordEventSubject
  payload : JsonObject

/-- `ControlRecordEvent`. -/
structure ControlRecordEvent where
  schema : String
  storeId : String
  processId : String
  sequence : Nat
  eventId : String
  eventKind : String
  occurredAt : String
  actor : ControlActor
  subject : Option ControlRecordEventSubject
  payload : JsonObject
  predecessorDigest : Option Sha256Digest
  digest : Sha256Digest

/-- `CONTROL_RECORD_REVISION_SCHEMA`. -/
def controlRecordRevisionSchema : String := "lifecycle.control-record-revision.v2"

/-- `CONTROL_RECORD_EVENT_SCHEMA`. -/
def controlRecordEventSchema : String := "lifecycle.control-record-event.v6"

namespace ControlModel

def maximumSemanticMarkdownBytes : Nat := 1024 * 1024
def maximumRevisionPayloadBytes : Nat := 2 * 1024 * 1024
def maximumEventPayloadBytes : Nat := 64 * 1024
def maximumJsonDepth : Nat := 64
def maximumJsonMembers : Nat := 16384
def maximumJsonValues : Nat := 262144
def maximumRelationships : Nat := 4096

/-- The errors of the control model. -/
def storeError (code message : String) : FoundationError :=
  lifecycleError s!"lifecycle.control-record-store.{code}" message

/-! ## Identities and kinds

The character classes of these patterns are ASCII, so they are decided on
the bytes of a text. -/

/-- `[A-Za-z0-9]`. -/
def alphanumeric (b : UInt8) : Bool :=
  (Nat.ble 97 b.toNat && Nat.ble b.toNat 122) || (Nat.ble 65 b.toNat && Nat.ble b.toNat 90)
    || (Nat.ble 48 b.toNat && Nat.ble b.toNat 57)

/-- `[A-Za-z0-9._:-]`. -/
def identityByte (b : UInt8) : Bool :=
  alphanumeric b || Nat.beq b.toNat 46 || Nat.beq b.toNat 95 || Nat.beq b.toNat 58
    || Nat.beq b.toNat 45

/-- `ID_PATTERN`, `/^[A-Za-z0-9][A-Za-z0-9._:-]*$/u`. -/
def matchesIdPattern (value : String) : Bool :=
  match utf8Bytes value with
  | [] => false
  | b :: bs => alphanumeric b && bs.all identityByte

/-- A bounded opaque identity: the pattern within 512 bytes. -/
def isIdentifier (value : String) : Bool :=
  matchesIdPattern value && decide (byteLength value ≤ 512)

/-- `[a-z0-9]`. -/
def lowerAlphanumeric (b : UInt8) : Bool :=
  (Nat.ble 97 b.toNat && Nat.ble b.toNat 122) || (Nat.ble 48 b.toNat && Nat.ble b.toNat 57)

/-- The rest of a hyphenated kind, after a hyphen or not. -/
def relationTail : Bool → List UInt8 → Bool
  | afterHyphen, [] => !afterHyphen
  | afterHyphen, b :: bs =>
    if lowerAlphanumeric b then relationTail false bs
    else Nat.beq b.toNat 45 && !afterHyphen && relationTail true bs

/-- `RELATION_PATTERN`, `/^[a-z][a-z0-9]*(?:-[a-z0-9]+)*$/u`. -/
def matchesRelationPattern (value : String) : Bool :=
  match utf8Bytes value with
  | [] => false
  | b :: bs => Nat.ble 97 b.toNat && Nat.ble b.toNat 122 && relationTail false bs

end ControlModel

open ControlModel

def controlIdentifier (value label : String) : Except FoundationError String := do
  failIf (isIdentifier value = false)
    (storeError "identity" s!"{label} must be one bounded opaque identity")
  return value

def controlRecordKind (value label : String) : Except FoundationError String := do
  failIf (matchesRelationPattern value = false ∨ 160 < byteLength value)
    (storeError "kind" s!"{label} must use lowercase hyphenated identity syntax")
  return value

/-! ## Semantic Markdown -/

namespace ControlModel

/-- `replaceAll("\r\n", "\n")`. -/
def unixLineEndings : List Char → List Char
  | '\r' :: '\n' :: cs => '\n' :: unixLineEndings cs
  | c :: cs => c :: unixLineEndings cs
  | [] => []

/-- The white space `String.prototype.trim` removes. -/
def isTrimmed (c : Char) : Bool :=
  [9, 10, 11, 12, 13, 32, 160, 5760, 8232, 8233, 8239, 8287, 12288, 65279].contains c.toNat
    || (Nat.ble 8192 c.toNat && Nat.ble c.toNat 8202)

end ControlModel

def normalizeSemanticMarkdown (value : String) : Except FoundationError String := do
  failIf ('\x00' ∈ value.toList ∨ value.toList.head? = some '\ufeff')
    (storeError "semantic-markdown" "Semantic Markdown must be UTF-8 text without BOM or NUL")
  let normalized := unixLineEndings value.toList
  failIf ('\r' ∈ normalized)
    (storeError "semantic-markdown"
      "Semantic Markdown must use LF or CRLF line endings consistently")
  let canonical := (normalized.reverse.dropWhile (· == '\n')).reverse ++ ['\n']
  failIf (canonical.all isTrimmed = true)
    (storeError "semantic-markdown" "Semantic Markdown must contain non-whitespace content")
  failIf (maximumSemanticMarkdownBytes < byteLength (String.ofList canonical))
    (storeError "semantic-markdown" "Semantic Markdown exceeds the Control record limit")
  return String.ofList canonical

/-! ## Bounded JSON -/

namespace ControlModel

/-- The values still to be visited after one: its members on top of the
stack, the last on top. -/
def pushMembers (members : List Json) (depth : Nat) (pending : List (Json × Nat)) :
    List (Json × Nat) :=
  (members.map fun member => (member, depth + 1)).reverse ++ pending

/-- The walk of `boundedControlJson` over a payload, with the number of
values it may still visit. The UTF-16 length of a text never exceeds its
UTF-8 length, so the walk tests the latter only. -/
def boundsWalk (label : String) (maximumBytes : Nat) :
    Nat → List (Json × Nat) → Except FoundationError Unit
  | _, [] => .ok ()
  | 0, _ :: _ => .error
      (storeError "json-bounds" s!"{label} exceeds the maximum JSON value count")
  | remaining + 1, (value, depth) :: pending => do
    failIf (maximumJsonDepth < depth)
      (storeError "json-bounds" s!"{label} exceeds the maximum JSON nesting depth")
    match value with
    | .string s =>
      failIf (maximumBytes < byteLength s)
        (storeError "json-bounds" s!"{label} contains a string larger than its byte limit")
      boundsWalk label maximumBytes remaining pending
    | .array items =>
      failIf (maximumJsonMembers < items.length)
        (storeError "json-bounds" s!"{label} contains too many members in one collection")
      boundsWalk label maximumBytes remaining (pushMembers items depth pending)
    | .object members =>
      failIf (maximumJsonMembers < members.length)
        (storeError "json-bounds" s!"{label} contains too many members in one collection")
      boundsWalk label maximumBytes remaining
        (pushMembers (members.map Prod.snd) depth pending)
    | _ => boundsWalk label maximumBytes remaining pending

/-- `boundedControlJson`: the canonical text of a payload within its
bounds. -/
def boundedControlJson (value : JsonObject) (label : String) (maximumBytes : Nat) :
    Except FoundationError (List UInt8) := do
  boundsWalk label maximumBytes maximumJsonValues [(.object value, 1)]
  match canonicalJson (.object value) with
  | .error e => .error (storeError "json"
      s!"{label} is outside the bounded canonical JSON domain: {e.message}")
  | .ok canonical =>
    failIf (maximumBytes < canonical.length)
      (storeError "json-bounds" s!"{label} exceeds its canonical byte limit")
    return canonical

mutual
/-- A value with the members of every object in canonical order. -/
def canonicalOrder : Json → Json
  | .array items => .array (canonicalOrderItems items)
  | .object members => .object ((canonicalOrderMembers members).insertionSort
      (fun a b => codeUnitLe a.1 b.1 = true))
  | value => value

def canonicalOrderItems : List Json → List Json
  | [] => []
  | item :: items => canonicalOrder item :: canonicalOrderItems items

def canonicalOrderMembers : List (String × Json) → List (String × Json)
  | [] => []
  | (name, value) :: members => (name, canonicalOrder value) :: canonicalOrderMembers members
end

/-- `JSON.parse` of the canonical text of an object: the same object, its
members in canonical order. -/
def parsedCanonical (value : JsonObject) : JsonObject :=
  (canonicalOrderMembers value).insertionSort (fun a b => codeUnitLe a.1 b.1 = true)

/-- `normalizedControlJsonObject`. -/
def normalizedControlJsonObject (value : JsonObject) (label : String) (maximumBytes : Nat) :
    Except FoundationError JsonObject := do
  let _ ← boundedControlJson value label maximumBytes
  return parsedCanonical value

end ControlModel

def canonicalControlJsonObject (value : JsonObject) (label : String) :
    Except FoundationError (List UInt8) :=
  boundedControlJson value label maximumRevisionPayloadBytes

def canonicalControlEventJsonObject (value : JsonObject) (label : String) :
    Except FoundationError (List UInt8) :=
  boundedControlJson value label maximumEventPayloadBytes

/-! ## Actors and relationships -/

namespace ControlModel

/-- `normalizedActor`. -/
def normalizedActor (actor : ControlActor) (label : String) :
    Except FoundationError ControlActor := do
  let id ← controlIdentifier actor.id s!"{label} identity"
  return { kind := actor.kind, id := id }

/-- `compareCodePoints`, as the test that the first text does not come
after the second. -/
def codePointLe (a b : String) : Bool :=
  lexLe (a.toList.map Char.toNat) (b.toList.map Char.toNat)

/-- The text relationships are ordered by. -/
def relationshipKey (r : ControlRecordRelationship) : String :=
  s!"{r.relation}\x00{r.target.kind}\x00{r.target.id}\x00{r.target.revision}\x00{r.target.digest}"

/-- One relationship, checked; `index` counts from one. -/
def normalizedRelationship (index : Nat) (value : ControlRecordRelationship) :
    Except FoundationError ControlRecordRelationship := do
  let relation ← controlRecordKind value.relation s!"Relationship {index} type"
  failIf (value.target.revision < 1 ∨ maxSafeInteger < value.target.revision)
    (storeError "relationship" s!"Relationship {index} target revision must be a positive integer")
  failIf (isSha256 value.target.digest = false)
    (storeError "relationship"
      s!"Relationship {index} target digest must be one lowercase SHA-256 digest")
  let kind ← controlRecordKind value.target.kind s!"Relationship {index} target kind"
  let id ← controlIdentifier value.target.id s!"Relationship {index} target identity"
  return { relation := relation, target := { value.target with kind := kind, id := id } }

/-- `normalizedRelationships`. -/
def normalizedRelationships (values : List ControlRecordRelationship) :
    Except FoundationError (List ControlRecordRelationship) := do
  failIf (maximumRelationships < values.length)
    (storeError "relationship" "Control record revision exceeds the relationship limit")
  let checked ← values.zipIdx.mapM fun v => normalizedRelationship (v.2 + 1) v.1
  let sorted := checked.insertionSort
    (fun a b => codePointLe (relationshipKey a) (relationshipKey b) = true)
  failIf (¬ (sorted.map relationshipKey).Nodup)
    (storeError "relationship" "Control record relationships must be unique")
  return sorted

/-! ## The digested subjects -/

/-- An actor as a JSON value. -/
def actorJson (a : ControlActor) : Json :=
  .object [
    ("kind", .string (match a.kind with
      | .agent => "agent"
      | .director => "director"
      | .runtime => "runtime")),
    ("id", .string a.id)]

/-- A semantic authority as it is written. -/
def authorityText : ControlSemanticAuthority → String
  | .agentProposed => "agent-proposed"
  | .directorSupplied => "director-supplied"
  | .directorAuthenticated => "director-authenticated"
  | .runtimeObserved => "runtime-observed"
  | .runtimeDerived => "runtime-derived"

/-- A relationship target as a JSON value. -/
def targetJson (t : ControlRecordRelationshipTarget) : Json :=
  .object [("kind", .string t.kind), ("id", .string t.id), ("revision", nat t.revision),
    ("digest", .string t.digest)]

/-- The digested part of a record revision. -/
def revisionSubject (r : ControlRecordRevision) : Json :=
  .object [
    ("schema", .string r.schema), ("processId", .string r.processId),
    ("recordId", .string r.recordId), ("recordKind", .string r.recordKind),
    ("revision", nat r.revision), ("producer", actorJson r.producer),
    ("semanticAuthor", actorJson r.semanticAuthor),
    ("semanticAuthority", .string (authorityText r.semanticAuthority)),
    ("createdAt", .string r.createdAt), ("semanticMarkdown", .string r.semanticMarkdown),
    ("payload", .object r.payload),
    ("relationships", .array (r.relationships.map fun l =>
      .object [("relation", .string l.relation), ("target", targetJson l.target)]))]

/-- An optional text as a JSON value. -/
def textOrNull : Option String → Json
  | some s => .string s
  | none => .null

/-- The digested part of an event. -/
def eventSubjectJson (e : ControlRecordEvent) : Json :=
  .object [
    ("schema", .string e.schema), ("storeId", .string e.storeId),
    ("processId", .string e.processId), ("sequence", nat e.sequence),
    ("eventId", .string e.eventId), ("eventKind", .string e.eventKind),
    ("occurredAt", .string e.occurredAt), ("actor", actorJson e.actor),
    ("subject", match e.subject with
      | some s => .object [("recordId", .string s.recordId), ("revision", nat s.revision),
          ("digest", .string s.digest)]
      | none => .null),
    ("payload", .object e.payload),
    ("predecessorDigest", textOrNull e.predecessorDigest)]

end ControlModel

/-! ## Compilation -/

/-- **`compileControlRecordRevision`.** -/
def compileControlRecordRevision (processId : String) (input : ControlRecordRevisionInput) :
    Except FoundationError ControlRecordRevision := do
  let recordId ← controlIdentifier input.recordId "Control record identity"
  let recordKind ← controlRecordKind input.recordKind "Control record kind"
  failIf (input.revision < 1 ∨ maxSafeInteger < input.revision)
    (storeError "revision" "Control record revision must be a positive safe integer")
  let producer ← normalizedActor input.producer "Control record producer"
  let semanticAuthor ← normalizedActor input.semanticAuthor "Control record semantic author"
  let semanticMarkdown ← normalizeSemanticMarkdown input.semanticMarkdown
  let relationships ← normalizedRelationships input.relationships
  let payload ← normalizedControlJsonObject input.payload "Control record payload"
    maximumRevisionPayloadBytes
  let processId ← controlIdentifier processId "Process identity"
  let createdAt ← controlTimestamp input.createdAt "Control record creation time"
  let subject : ControlRecordRevision :=
    { schema := controlRecordRevisionSchema, processId, recordId, recordKind,
      revision := input.revision, producer, semanticAuthor,
      semanticAuthority := input.semanticAuthority, createdAt, semanticMarkdown, payload,
      relationships, digest := "" }
  let digest ← digestCanonical (revisionSubject subject)
  return { subject with digest := digest }

/-- The event `compileControlRecordEvent` gives an input, but its digest. -/
def ControlModel.undigestedEvent (storeId processId : String) (sequence : Nat)
    (predecessorDigest : Option Sha256Digest) (event : ControlRecordEventInput)
    (payload : JsonObject) : ControlRecordEvent :=
  { schema := controlRecordEventSchema, storeId, processId, sequence,
    eventId := event.eventId, eventKind := event.eventKind, occurredAt := event.occurredAt,
    actor := event.actor, subject := event.subject, payload, predecessorDigest, digest := "" }

/-- The checks of an event's subject. -/
def ControlModel.checkEventSubject :
    Option ControlRecordEventSubject → Except FoundationError Unit
  | none => .ok ()
  | some subject => do
    let _ ← controlIdentifier subject.recordId "Event subject record identity"
    failIf (subject.revision < 1 ∨ maxSafeInteger < subject.revision)
      (storeError "event-subject" "Event subject revision must be a positive safe integer")
    failIf (isSha256 subject.digest = false)
      (storeError "event-subject" "Event subject digest must be one lowercase SHA-256 digest")

/-- **`compileControlRecordEvent`.** -/
def compileControlRecordEvent (storeId processId : String) (sequence : Nat)
    (predecessorDigest : Option Sha256Digest) (event : ControlRecordEventInput) :
    Except FoundationError ControlRecordEvent := do
  failIf (sequence < 1 ∨ maxSafeInteger < sequence)
    (storeError "event-sequence" "Control record event sequence must be a positive safe integer")
  failIf (decide (sequence = 1) ≠ decide (predecessorDigest = none))
    (storeError "event-predecessor"
      "Only the first Control record event can omit its predecessor digest")
  let payload ← normalizedControlJsonObject event.payload "Control record event payload"
    maximumEventPayloadBytes
  checkEventSubject event.subject
  let _ ← controlIdentifier storeId "Control Record Store identity"
  let _ ← controlIdentifier processId "Process identity"
  let _ ← controlIdentifier event.eventId "Control record event identity"
  let _ ← controlRecordKind event.eventKind "Control record event kind"
  let _ ← controlTimestamp event.occurredAt "Control record event time"
  let _ ← normalizedActor event.actor "Control record event actor"
  let values := undigestedEvent storeId processId sequence predecessorDigest event payload
  let digest ← digestCanonical (eventSubjectJson values)
  return { values with digest := digest }
