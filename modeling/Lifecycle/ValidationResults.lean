import Lifecycle.CanonicalTexts

/-!
# Validation results

`DiagnosticCollector` (`validation/result.ts`) collects diagnostics and makes
one result of them. The diagnostics are sorted twice, for the result by
`compareDiagnostics` and, without their messages, for its digest by
`compareDigestDiagnostics`. Both comparators read a missing text as the empty
one and a missing number as the largest safe integer, and neither reads the
length of a location.

Facts are kept as what `JSON.parse` makes of their canonical text; here a
record stands for it together with that text, which is all that is read of
them.
-/

open Fallible CodeUnits CanonicalDomain Comparison

namespace Validation

/-! ## Diagnostics -/

inductive DiagnosticSeverity
  | error
  | warning
  | information
deriving DecidableEq

def DiagnosticSeverity.text : DiagnosticSeverity → CodeUnits
  | error => sourceUnits "error"
  | warning => sourceUnits "warning"
  | information => sourceUnits "information"

/-- **A location**; a missing part is `null`. -/
structure DiagnosticLocation where
  locator : Option CodeUnits := none
  jsonPointer : Option CodeUnits := none
  line : Option Int := none
  column : Option Int := none
  length : Option Int := none
deriving DecidableEq

structure DiagnosticRelated where
  kind : CodeUnits
  id : CodeUnits
  digest : Option CodeUnits
  location : DiagnosticLocation
deriving DecidableEq

/-- **Facts**: a record with its canonical text. -/
structure Facts where
  value : HostValue
  text : CodeUnits
  written : Writes value text

/-- A diagnostic without its message. -/
structure DigestDiagnostic where
  code : CodeUnits
  severity : DiagnosticSeverity
  stage : CodeUnits
  location : DiagnosticLocation
  related : List DiagnosticRelated
  facts : Facts

structure ValidationDiagnostic extends DigestDiagnostic where
  message : CodeUnits

/-- What `add` is given. -/
structure Addition where
  stage : CodeUnits
  code : CodeUnits
  severity : Option DiagnosticSeverity := none
  message : CodeUnits
  path : Option CodeUnits := none
  pointer : Option CodeUnits := none
  line : Option Int := none
  column : Option Int := none
  length : Option Int := none
  related : List CodeUnits := []
  facts : List (CodeUnits × HostValue) := []

/-- `validationFailure`. -/
def validationFailure (code : String) (message : CodeUnits) : CanonicalError := ⟨code, message⟩

def cloneJsonRecord (value : HostValue) (label : CodeUnits) : Except CanonicalError Facts :=
  match h : canonicalJson value with
  | .ok text => .ok ⟨value, text, h⟩
  | .error _ => .error (validationFailure "foundation.validation.facts"
      (label ++ sourceUnits " must contain only bounded canonical JSON values"))

/-- `location`. -/
def Addition.location (options : Addition) : DiagnosticLocation where
  locator := options.path
  jsonPointer := options.pointer
  line := options.line
  column := options.column
  length := options.length

/-- `related`. -/
def relatedSubject (value : CodeUnits) : DiagnosticRelated :=
  if 47 ∈ value then ⟨sourceUnits "repository-path", value, none, { locator := some value }⟩
  else ⟨sourceUnits "identity", value, none, {}⟩

/-! ## Comparators -/

def compareNullableCodePoints (left right : Option CodeUnits) : Bool :=
  pointsLe (left.getD []) (right.getD [])

def compareOptionalInteger (left right : Option Int) : Bool :=
  decide (left.getD maxSafeInteger ≤ right.getD maxSafeInteger)

def compareRelated : DiagnosticRelated → DiagnosticRelated → Bool :=
  thenBy (fun left right => pointsLe left.kind right.kind) <|
  thenBy (fun left right => pointsLe left.id right.id) <|
  thenBy (fun left right => compareNullableCodePoints left.digest right.digest) <|
  thenBy (fun left right =>
    compareNullableCodePoints left.location.locator right.location.locator) <|
  thenBy (fun left right =>
    compareNullableCodePoints left.location.jsonPointer right.location.jsonPointer) <|
  thenBy (fun left right => compareOptionalInteger left.location.line right.location.line)
    fun left right => compareOptionalInteger left.location.column right.location.column

/-- `sortUniqueCodePoints`. -/
def sortUniqueCodePoints (values : List CodeUnits) : List CodeUnits := sortWith pointsLe values.dedup

/-- The related subjects of a diagnostic. -/
def relatedSubjects (values : List CodeUnits) : List DiagnosticRelated :=
  sortWith compareRelated ((sortUniqueCodePoints values).map relatedSubject)

/-- An integer, or `null`. -/
def integerValue : Option Int → HostValue := nullable fun n => .number (.integer n)

/-- A text, or `null`. -/
def textValue : Option CodeUnits → HostValue := nullable .string

def DiagnosticLocation.value (l : DiagnosticLocation) : HostValue :=
  .object [(sourceUnits "locator", textValue l.locator),
    (sourceUnits "jsonPointer", textValue l.jsonPointer), (sourceUnits "line", integerValue l.line),
    (sourceUnits "column", integerValue l.column), (sourceUnits "length", integerValue l.length)]

def DiagnosticRelated.value (r : DiagnosticRelated) : HostValue :=
  .object [(sourceUnits "kind", .string r.kind), (sourceUnits "id", .string r.id),
    (sourceUnits "digest", textValue r.digest), (sourceUnits "location", r.location.value)]

def relatedValue (related : List DiagnosticRelated) : HostValue :=
  .array (related.map DiagnosticRelated.value)

/-- `canonicalJson(related)`, where it returns. -/
def relatedText (d : DigestDiagnostic) : CodeUnits :=
  (canonicalJson (relatedValue d.related)).toOption.getD []

/-- What `canonicalJson(related)` throws. -/
def relatedRefusal (d : DigestDiagnostic) : Option CanonicalError :=
  match canonicalJson (relatedValue d.related) with
  | .ok _ => none
  | .error refusal => some refusal

/-- `compareDiagnostics`, as far as it cannot throw. -/
def compareUpToFacts : ValidationDiagnostic → ValidationDiagnostic → Bool :=
  thenBy (fun left right =>
    compareNullableCodePoints left.location.locator right.location.locator) <|
  thenBy (fun left right => compareOptionalInteger left.location.line right.location.line) <|
  thenBy (fun left right => compareOptionalInteger left.location.column right.location.column) <|
  thenBy (fun left right => pointsLe left.code right.code) <|
  thenBy (fun left right => pointsLe left.message right.message) <|
  thenBy (fun left right => pointsLe left.stage right.stage) <|
  thenBy (fun left right =>
    compareNullableCodePoints left.location.jsonPointer right.location.jsonPointer)
    fun left right => pointsLe left.facts.text right.facts.text

def compareDiagnostics : ValidationDiagnostic → ValidationDiagnostic → Bool :=
  thenBy compareUpToFacts fun left right =>
    pointsLe (relatedText left.toDigestDiagnostic) (relatedText right.toDigestDiagnostic)

/-- `compareDigestDiagnostics`, as far as it cannot throw. -/
def compareDigestUpToFacts : DigestDiagnostic → DigestDiagnostic → Bool :=
  thenBy (fun left right =>
    compareNullableCodePoints left.location.locator right.location.locator) <|
  thenBy (fun left right => compareOptionalInteger left.location.line right.location.line) <|
  thenBy (fun left right => compareOptionalInteger left.location.column right.location.column) <|
  thenBy (fun left right => pointsLe left.code right.code) <|
  thenBy (fun left right => pointsLe left.severity.text right.severity.text) <|
  thenBy (fun left right => pointsLe left.stage right.stage) <|
  thenBy (fun left right =>
    compareNullableCodePoints left.location.jsonPointer right.location.jsonPointer)
    fun left right => pointsLe left.facts.text right.facts.text

def compareDigestDiagnostics : DigestDiagnostic → DigestDiagnostic → Bool :=
  thenBy compareDigestUpToFacts fun left right => pointsLe (relatedText left) (relatedText right)

/-- **`sort` with a comparator that may throw.** Entries that `upToFacts` ties
end side by side, and neighbours have been compared, so the sort throws
exactly when one of two such entries is refused. -/
def sortOrThrow {α : Type} (upToFacts compare : α → α → Bool)
    (refusal : α → Option CanonicalError) (entries : List α) : Except CanonicalError (List α) :=
  match entries.findSome? refusal with
  | none => .ok (sortWith compare entries)
  | some error =>
    if entries.Pairwise fun a b => (upToFacts a b && upToFacts b a) = true →
      refusal a = none ∧ refusal b = none
    then .ok (sortWith compare entries)
    else .error error

/-! ## Results -/

/-- A stage as it is declared: by its name, or with its completeness. -/
inductive StageInput
  | name (id : CodeUnits)
  | declaration (id : CodeUnits) (complete : Bool) (durationMs : Option HostNumber)

structure StageDeclaration where
  id : CodeUnits
  complete : Bool
  durationMs : HostNumber

def StageInput.declared : StageInput → StageDeclaration
  | name id => ⟨id, true, .integer 0⟩
  | declaration id complete durationMs => ⟨id, complete, durationMs.getD (.integer 0)⟩

structure ValidationStage where
  id : CodeUnits
  complete : Bool
  valid : Bool
  diagnosticCount : Nat
  durationMs : HostNumber

inductive SubjectRevision
  | text (s : CodeUnits)
  | number (n : HostNumber)

def SubjectRevision.value : SubjectRevision → HostValue
  | text s => .string s
  | number n => .number n

structure ValidationSubject where
  kind : CodeUnits
  id : CodeUnits
  digest : Option CodeUnits
  revision : Option SubjectRevision
  locator : Option CodeUnits

def ValidationSubject.value (s : ValidationSubject) : HostValue :=
  .object [(sourceUnits "kind", .string s.kind), (sourceUnits "id", .string s.id),
    (sourceUnits "digest", textValue s.digest),
    (sourceUnits "revision", nullable SubjectRevision.value s.revision),
    (sourceUnits "locator", textValue s.locator)]

/-- **The limits of a run**; the keys of an object are distinct. -/
structure Limits where
  entries : List (CodeUnits × HostNumber)
  nodup : (entries.map Prod.fst).Nodup

/-- What `result` is given. -/
structure ResultOptions where
  profile : CodeUnits
  subject : ValidationSubject
  publicationDigest : Option CodeUnits := none
  stages : List StageInput
  limits : Limits := ⟨[], List.nodup_nil⟩
  observedAt : CodeUnits

/-- A result before its digest. -/
structure ValidationBase where
  publicationDigest : Option CodeUnits
  profile : CodeUnits
  subject : ValidationSubject
  complete : Bool
  valid : Bool
  stages : List ValidationStage
  diagnostics : List ValidationDiagnostic
  limits : List (CodeUnits × HostNumber)
  observedAt : CodeUnits

structure ValidationResult extends ValidationBase where
  digest : Sha256Digest

/-- `[A-Za-z]`. -/
def isLetter (u : UInt16) : Bool :=
  (Nat.ble 65 u.toNat && Nat.ble u.toNat 90) || (Nat.ble 97 u.toNat && Nat.ble u.toNat 122)

/-- `[A-Za-z0-9._:-]`. -/
def isLimitUnit (u : UInt16) : Bool :=
  isLetter u || (Nat.ble 48 u.toNat && Nat.ble u.toNat 57) || u == 46 || u == 95 || u == 58
    || u == 45

/-- `/^[A-Za-z][A-Za-z0-9._:-]*$/u`. -/
def isLimitId : CodeUnits → Bool
  | [] => false
  | u :: us => isLetter u && us.all isLimitUnit

/-- `Number.isSafeInteger(value)` of a number that is not negative. -/
def isNonnegativeSafeInteger : HostNumber → Bool
  | .negativeZero => true
  | .integer n => decide (0 ≤ n) && decide (n.natAbs ≤ maxSafeInteger)
  | _ => false

def normalizeLimits (values : Limits) : Except CanonicalError (List (CodeUnits × HostNumber)) := do
  let entries := sortWith (fun left right => pointsLe left.1 right.1) values.entries
  failIf ((entries.all fun entry => isLimitId entry.1 && isNonnegativeSafeInteger entry.2) = false)
    (validationFailure "foundation.validation.limit"
      (sourceUnits "Validation limits require named nonnegative safe integers"))
  return entries

/-! ### The digest -/

/-- `startsWith("lifecycle.")`. -/
def isLifecycleCode (code : CodeUnits) : Bool := (sourceUnits "lifecycle.").isPrefixOf code

def isImplementationInformation (d : DigestDiagnostic) : Bool :=
  decide (d.severity = .information) && !isLifecycleCode d.code

def DigestDiagnostic.value (d : DigestDiagnostic) : HostValue :=
  .object [(sourceUnits "code", .string d.code), (sourceUnits "severity", .string d.severity.text),
    (sourceUnits "stage", .string d.stage), (sourceUnits "location", d.location.value),
    (sourceUnits "related", relatedValue d.related), (sourceUnits "facts", d.facts.value)]

def ValidationStage.value (s : ValidationStage) : HostValue :=
  .object [(sourceUnits "id", .string s.id), (sourceUnits "complete", .bool s.complete),
    (sourceUnits "valid", .bool s.valid)]

/-- The members of a digest subject but its diagnostics. -/
def ValidationBase.members (base : ValidationBase) : List (CodeUnits × HostValue) :=
  [(sourceUnits "schema", .string (sourceUnits "lifecycle.validation-result.v1")),
    (sourceUnits "specificationRevision",
      .string (sourceUnits "lifecycle.foundation.1.0.0-rc.17")),
    (sourceUnits "publicationDigest", textValue base.publicationDigest),
    (sourceUnits "profile", .string base.profile), (sourceUnits "subject", base.subject.value),
    (sourceUnits "complete", .bool base.complete), (sourceUnits "valid", .bool base.valid),
    (sourceUnits "stages", .array (base.stages.map ValidationStage.value)),
    (sourceUnits "limits", .object (base.limits.map fun entry => (entry.1, .number entry.2)))]

def ValidationBase.subjectValue (base : ValidationBase) (diagnostics : List DigestDiagnostic) :
    HostValue :=
  .object ((sourceUnits "diagnostics", .array (diagnostics.map DigestDiagnostic.value))
    :: base.members)

/-- The diagnostics the digest is about. -/
def digestDiagnostics (diagnostics : List ValidationDiagnostic) : List DigestDiagnostic :=
  (diagnostics.filter fun d => !isImplementationInformation d.toDigestDiagnostic).map
    ValidationDiagnostic.toDigestDiagnostic

/-- **`validationDigestSubject`.** -/
def validationDigestSubject (base : ValidationBase) : Except CanonicalError HostValue := do
  let diagnostics ← sortOrThrow compareDigestUpToFacts compareDigestDiagnostics relatedRefusal
    (digestDiagnostics base.diagnostics)
  return base.subjectValue diagnostics

/-- What the digest of a result is computed from. -/
def digestPreimage (base : ValidationBase) : Except CanonicalError CodeUnits := do
  let subject ← validationDigestSubject base
  canonicalJson subject

/-- **`validationResultDigest`.** -/
def validationResultDigest (base : ValidationBase) : Except CanonicalError Sha256Digest := do
  let text ← digestPreimage base
  return Json.sha256Bytes (encodeUtf8 text)

/-! ### The collector -/

/-- The diagnostic of an addition. -/
def Addition.diagnostic (options : Addition) (facts : Facts) : ValidationDiagnostic where
  code := options.code
  severity := options.severity.getD .error
  message := options.message
  stage := options.stage
  location := options.location
  related := relatedSubjects options.related
  facts := facts

structure DiagnosticCollector where
  values : List ValidationDiagnostic := []
  finalized : Bool := false

namespace DiagnosticCollector

/-- **`add`.** -/
def add (collector : DiagnosticCollector) (options : Addition) :
    Except CanonicalError DiagnosticCollector := do
  failIf (collector.finalized = true) (validationFailure "foundation.validation.finalized"
    (sourceUnits "A finalized diagnostic collection cannot be changed"))
  let facts ← cloneJsonRecord (.object options.facts) (sourceUnits "Facts for " ++ options.code)
  return { collector with values := collector.values ++ [options.diagnostic facts] }

/-- The stages of a result. -/
def stagesOf (declarations : List StageDeclaration) (diagnostics : List ValidationDiagnostic) :
    List ValidationStage :=
  declarations.map fun declaration =>
    let stageDiagnostics := diagnostics.filter fun d => decide (d.stage = declaration.id)
    { id := declaration.id
      complete := declaration.complete
      valid := declaration.complete && !stageDiagnostics.any fun d => decide (d.severity = .error)
      diagnosticCount := stageDiagnostics.length
      durationMs := declaration.durationMs }

/-- A result of some diagnostics before its digest. -/
def resultBase (options : ResultOptions) (diagnostics : List ValidationDiagnostic)
    (limits : List (CodeUnits × HostNumber)) : ValidationBase :=
  let stages := stagesOf (options.stages.map StageInput.declared) diagnostics
  let complete := stages.all (·.complete)
  { publicationDigest := options.publicationDigest
    profile := options.profile
    subject := options.subject
    complete := complete
    valid := complete && stages.all (·.valid)
      && !diagnostics.any fun d => decide (d.severity = .error)
    stages := stages
    diagnostics := diagnostics
    limits := limits
    observedAt := options.observedAt }

/-- What `result` makes of the values, once the collection is finalized. The
check of an implementation that is passed in is left out: it throws or has no
effect on the digest. -/
def finalResult (values : List ValidationDiagnostic) (options : ResultOptions) :
    Except CanonicalError ValidationResult := do
  let declarations := options.stages.map StageInput.declared
  let ids := declarations.map StageDeclaration.id
  failIf (¬ ids.Nodup) (validationFailure "foundation.validation.stage-duplicate"
    (sourceUnits "Validation stages must be declared exactly once"))
  failIf (∃ d ∈ values, d.stage ∉ ids) (validationFailure "foundation.validation.stage-undeclared"
    (sourceUnits "Every diagnostic must name one explicitly declared validation stage"))
  failIf (∃ declaration ∈ declarations, isNonnegativeSafeInteger declaration.durationMs = false)
    (validationFailure "foundation.validation.duration"
      (sourceUnits "Stage duration must be one nonnegative safe integer"))
  let diagnostics ← sortOrThrow compareUpToFacts compareDiagnostics
    (fun d => relatedRefusal d.toDigestDiagnostic) values
  let limits ← normalizeLimits options.limits
  let base := resultBase options diagnostics limits
  let digest ← validationResultDigest base
  return { base with digest := digest }

/-- **`result`.** -/
def result (collector : DiagnosticCollector) (options : ResultOptions) :
    DiagnosticCollector × Except CanonicalError ValidationResult :=
  if collector.finalized then
    (collector, .error (validationFailure "foundation.validation.finalized"
      (sourceUnits "A diagnostic collection can produce only one validation result")))
  else ({ collector with finalized := true }, finalResult collector.values options)

end DiagnosticCollector

/-- **A run of a collector**: what was added, and what the result was made
with. -/
structure ValidationRun where
  additions : List Addition
  options : ResultOptions

def ValidationRun.result (r : ValidationRun) : Except CanonicalError ValidationResult := do
  let collector ← r.additions.foldlM DiagnosticCollector.add {}
  (collector.result r.options).2

end Validation
