import Lifecycle.ValidationResults
import Mathlib.Data.Finset.Dedup

/-!
# What a validation digest depends on

A finding is what a diagnostic says without its message, its related subjects
as a set. Two runs with the same findings have the same digest whenever the
comparator of the digest tells every two different findings apart, and only
then (`digestLaw_iff`): tied diagnostics keep the order in which the first sort
has left them, and that sort ties them too, unless their messages differ. What
the comparator does not read is the length of a location, and the difference
between a missing part and the value it is read as.

The other half of the law holds without a condition: every field of a finding
is in the preimage, and the preimage is read in one way (`common_subject`).
-/

open Fallible CodeUnits CanonicalDomain Comparison

namespace Validation

/-! ## Findings -/

/-- **A finding**: what a diagnostic says, without its message and without an
order of its related subjects. -/
structure Finding where
  code : CodeUnits
  severity : DiagnosticSeverity
  stage : CodeUnits
  location : DiagnosticLocation
  related : Finset CodeUnits
  facts : CodeUnits
deriving DecidableEq

/-- The finding of an addition. -/
def Addition.finding (a : Addition) : Finding where
  code := a.code
  severity := a.severity.getD .error
  stage := a.stage
  location := a.location
  related := a.related.toFinset
  facts := (canonicalJson (.object a.facts)).toOption.getD []

/-- The addition is no information of the implementation's own. -/
def Addition.isLifecycle (a : Addition) : Bool :=
  !(decide (a.severity.getD .error = .information) && !isLifecycleCode a.code)

/-- **The findings of a run.** -/
def ValidationRun.findings (r : ValidationRun) : List Finding :=
  (r.additions.filter Addition.isLifecycle).map Addition.finding

/-- **Two findings the digest's comparator does not tell apart.** -/
structure Finding.Tied (f g : Finding) : Prop where
  locator : f.location.locator.getD [] = g.location.locator.getD []
  line : f.location.line.getD maxSafeInteger = g.location.line.getD maxSafeInteger
  column : f.location.column.getD maxSafeInteger = g.location.column.getD maxSafeInteger
  code : f.code = g.code
  severity : f.severity = g.severity
  stage : f.stage = g.stage
  jsonPointer : f.location.jsonPointer.getD [] = g.location.jsonPointer.getD []
  facts : f.facts = g.facts
  related : f.related = g.related

/-- The finding of a stored diagnostic. -/
def DigestDiagnostic.finding (d : DigestDiagnostic) : Finding where
  code := d.code
  severity := d.severity
  stage := d.stage
  location := d.location
  related := (d.related.map DiagnosticRelated.id).toFinset
  facts := d.facts.text

/-! ### Related subjects -/

theorem relatedSubject_id (value : CodeUnits) : (relatedSubject value).id = value := by
  unfold relatedSubject
  split <;> rfl

theorem mem_sortUniqueCodePoints {values : List CodeUnits} {s : CodeUnits} :
    s ∈ sortUniqueCodePoints values ↔ s ∈ values := by
  rw [sortUniqueCodePoints, mem_sortWith, List.mem_dedup]

/-- **The related subjects of a diagnostic do not depend on the order they were
named in.** -/
theorem relatedSubjects_eq {values values' : List CodeUnits}
    (h : values.toFinset = values'.toFinset) : relatedSubjects values = relatedSubjects values' := by
  have hperm : values.dedup.Perm values'.dedup := by
    rw [List.perm_ext_iff_of_nodup (List.nodup_dedup _) (List.nodup_dedup _)]
    intro s
    rw [List.mem_dedup, List.mem_dedup, ← List.mem_toFinset, h, List.mem_toFinset]
  rw [relatedSubjects, relatedSubjects, sortUniqueCodePoints, sortUniqueCodePoints,
    sortWith_eq_of_perm comparison_pointsLe hperm fun _ _ _ _ htied => tied_pointsLe.mp htied]

theorem toFinset_relatedSubjects (values : List CodeUnits) :
    ((relatedSubjects values).map DiagnosticRelated.id).toFinset = values.toFinset := by
  ext s
  rw [List.mem_toFinset, List.mem_toFinset, List.mem_map]
  constructor
  · rintro ⟨r, hr, rfl⟩
    obtain ⟨value, hvalue, rfl⟩ := List.mem_map.mp (mem_sortWith.mp hr)
    rw [relatedSubject_id]
    exact mem_sortUniqueCodePoints.mp hvalue
  · intro hs
    refine ⟨relatedSubject s, mem_sortWith.mpr (List.mem_map.mpr ⟨s, ?_, rfl⟩), relatedSubject_id s⟩
    exact mem_sortUniqueCodePoints.mpr hs

/-- The diagnostic has related subjects that `add` has made. -/
def DigestDiagnostic.Proper (d : DigestDiagnostic) : Prop :=
  ∃ values, d.related = relatedSubjects values

/-- Related subjects are told by their identities. -/
theorem DigestDiagnostic.Proper.related_eq {d e : DigestDiagnostic} (hd : d.Proper) (he : e.Proper)
    (h : d.finding.related = e.finding.related) : d.related = e.related := by
  obtain ⟨values, hvalues⟩ := hd
  obtain ⟨values', hvalues'⟩ := he
  simp only [finding, hvalues, hvalues', toFinset_relatedSubjects] at h
  rw [hvalues, hvalues', relatedSubjects_eq h]

/-! ### What is collected -/

theorem Facts.eq_of_value {f g : Facts} (h : f.value = g.value) : f = g := by
  obtain ⟨value, text, hwritten⟩ := f
  obtain ⟨value', text', hwritten'⟩ := g
  obtain rfl : value = value' := h
  obtain rfl := hwritten.unique hwritten'
  rfl

theorem cloneJsonRecord_eq_ok {value : HostValue} {label : CodeUnits} {facts : Facts} :
    cloneJsonRecord value label = .ok facts ↔ facts.value = value := by
  constructor
  · intro h
    unfold cloneJsonRecord at h
    split at h
    · exact congrArg Facts.value (Except.ok.inj h).symm
    · cases h
  · rintro rfl
    unfold cloneJsonRecord
    split
    · rename_i text htext
      exact congrArg Except.ok (Facts.eq_of_value rfl)
    · rename_i e he
      rw [facts.written] at he
      cases he

/-- **A diagnostic is what `add` makes of an addition.** -/
def MadeOf (a : Addition) (d : ValidationDiagnostic) : Prop :=
  ∃ facts : Facts, facts.value = .object a.facts ∧ d = a.diagnostic facts

theorem MadeOf.finding {a : Addition} {d : ValidationDiagnostic} (h : MadeOf a d) :
    d.toDigestDiagnostic.finding = a.finding := by
  obtain ⟨facts, hvalue, rfl⟩ := h
  have htext : (canonicalJson (.object a.facts)).toOption.getD [] = facts.text := by
    rw [← hvalue, show canonicalJson facts.value = .ok facts.text from facts.written]
    rfl
  unfold DigestDiagnostic.finding Addition.finding
  rw [htext]
  congr 1
  exact toFinset_relatedSubjects a.related

theorem MadeOf.proper {a : Addition} {d : ValidationDiagnostic} (h : MadeOf a d) :
    d.toDigestDiagnostic.Proper := by
  obtain ⟨facts, -, rfl⟩ := h
  exact ⟨a.related, rfl⟩

theorem MadeOf.isImplementationInformation {a : Addition} {d : ValidationDiagnostic}
    (h : MadeOf a d) : (!Validation.isImplementationInformation d.toDigestDiagnostic)
      = a.isLifecycle := by
  obtain ⟨facts, -, rfl⟩ := h
  rfl

/-- **The values of a collector** are what `add` has made of the additions. -/
theorem foldlM_add {additions : List Addition} {c c' : DiagnosticCollector}
    (hopen : c.finalized = false) :
    additions.foldlM DiagnosticCollector.add c = .ok c' ↔ c'.finalized = false
      ∧ ∃ values, List.Forall₂ MadeOf additions values ∧ c'.values = c.values ++ values := by
  have hadd {c c' : DiagnosticCollector} {a : Addition} (hopen : c.finalized = false) :
      c.add a = .ok c' ↔ ∃ d, MadeOf a d ∧ c' = { c with values := c.values ++ [d] } := by
    simp only [DiagnosticCollector.add, bind_eq_ok, failIf_eq_ok, pure_eq_ok, exists_unit,
      cloneJsonRecord_eq_ok, hopen, Bool.false_eq_true, not_false_eq_true, true_and]
    constructor
    · rintro ⟨facts, hvalue, rfl⟩
      exact ⟨_, ⟨facts, hvalue, rfl⟩, rfl⟩
    · rintro ⟨d, ⟨facts, hvalue, rfl⟩, rfl⟩
      exact ⟨facts, hvalue, rfl⟩
  induction additions generalizing c with
  | nil =>
    simp only [List.foldlM_nil, pure_eq_ok]
    constructor
    · rintro rfl
      exact ⟨hopen, [], .nil, (List.append_nil _).symm⟩
    · rintro ⟨hclosed, values, hvalues, hall⟩
      cases hvalues
      obtain ⟨values, finalized⟩ := c
      obtain ⟨values', finalized'⟩ := c'
      simp only at hopen hclosed hall
      rw [hall, hopen, hclosed, List.append_nil]
  | cons a additions ih =>
    simp only [List.foldlM_cons, bind_eq_ok, hadd hopen]
    constructor
    · rintro ⟨_, ⟨d, hd, rfl⟩, hrest⟩
      obtain ⟨hclosed, values, hvalues, hall⟩ :=
        (ih (c := { c with values := c.values ++ [d] }) hopen).mp hrest
      refine ⟨hclosed, d :: values, .cons hd hvalues, ?_⟩
      rw [hall, List.append_assoc]
      rfl
    · rintro ⟨hclosed, _, hvalues, hall⟩
      cases hvalues with
      | @cons _ d _ values hd hrest =>
        have hnext := ih (c := { c with values := c.values ++ [d] }) hopen
        refine ⟨_, ⟨d, hd, rfl⟩, hnext.mpr ⟨hclosed, values, hrest, ?_⟩⟩
        rw [hall, List.append_assoc]
        rfl

theorem result_eq_ok {r : ValidationRun} {x : ValidationResult} : r.result = .ok x
    ↔ ∃ values, List.Forall₂ MadeOf r.additions values
      ∧ DiagnosticCollector.finalResult values r.options = .ok x := by
  unfold ValidationRun.result
  simp only [bind_eq_ok, foldlM_add (c := {}) rfl]
  constructor
  · rintro ⟨c, ⟨hopen, values, hvalues, hall⟩, hresult⟩
    obtain rfl : c.values = values := hall
    refine ⟨c.values, hvalues, ?_⟩
    rwa [DiagnosticCollector.result, if_neg (by simp [hopen])] at hresult
  · rintro ⟨values, hvalues, hresult⟩
    exact ⟨{ values := values }, ⟨rfl, values, hvalues, rfl⟩, hresult⟩

/-! ## The order of findings -/

/-- The text of the related subjects of a finding. -/
noncomputable def Finding.relatedText (f : Finding) : CodeUnits :=
  (canonicalJson (relatedValue (relatedSubjects f.related.toList))).toOption.getD []

/-- `compareDigestDiagnostics`, of findings, up to their facts. -/
def Finding.leUpToFacts : Finding → Finding → Bool :=
  thenBy (fun left right =>
    compareNullableCodePoints left.location.locator right.location.locator) <|
  thenBy (fun left right => compareOptionalInteger left.location.line right.location.line) <|
  thenBy (fun left right => compareOptionalInteger left.location.column right.location.column) <|
  thenBy (fun left right => pointsLe left.code right.code) <|
  thenBy (fun left right => pointsLe left.severity.text right.severity.text) <|
  thenBy (fun left right => pointsLe left.stage right.stage) <|
  thenBy (fun left right =>
    compareNullableCodePoints left.location.jsonPointer right.location.jsonPointer)
    fun left right => pointsLe left.facts right.facts

/-- `compareDigestDiagnostics`, of findings. -/
noncomputable def Finding.le : Finding → Finding → Bool :=
  thenBy Finding.leUpToFacts fun left right => pointsLe left.relatedText right.relatedText

theorem comparison_nullable : Comparison compareNullableCodePoints :=
  comparison_pointsLe.comap fun a : Option CodeUnits => a.getD []

theorem comparison_optionalInteger : Comparison compareOptionalInteger :=
  Comparison.int.comap fun a : Option Int => a.getD maxSafeInteger

theorem tied_nullable {a b : Option CodeUnits} :
    Comparison.Tied compareNullableCodePoints a b ↔ a.getD [] = b.getD [] :=
  tied_pointsLe

theorem tied_optionalInteger {a b : Option Int} : Comparison.Tied compareOptionalInteger a b
    ↔ a.getD maxSafeInteger = b.getD maxSafeInteger :=
  tied_int

theorem text_severity_injective {s s' : DiagnosticSeverity} (h : s.text = s'.text) : s = s' := by
  cases s <;> cases s' <;> first | rfl | exact absurd h (by decide)

theorem comparison_le : Comparison Finding.le :=
  ((comparison_nullable.comap fun f : Finding => f.location.locator).then_by <|
    (comparison_optionalInteger.comap fun f : Finding => f.location.line).then_by <|
    (comparison_optionalInteger.comap fun f : Finding => f.location.column).then_by <|
    (comparison_pointsLe.comap fun f : Finding => f.code).then_by <|
    (comparison_pointsLe.comap fun f : Finding => f.severity.text).then_by <|
    (comparison_pointsLe.comap fun f : Finding => f.stage).then_by <|
    (comparison_nullable.comap fun f : Finding => f.location.jsonPointer).then_by <|
    comparison_pointsLe.comap fun f : Finding => f.facts).then_by <|
  comparison_pointsLe.comap Finding.relatedText

/-- The related subjects of a diagnostic are those of its finding. -/
theorem relatedSubjects_finding {d : DigestDiagnostic} (hd : d.Proper) :
    relatedSubjects d.finding.related.toList = d.related := by
  obtain ⟨values, hvalues⟩ := hd
  rw [hvalues]
  refine relatedSubjects_eq ?_
  rw [Finset.toList_toFinset]
  simp only [DigestDiagnostic.finding, hvalues, toFinset_relatedSubjects]

theorem relatedText_eq {d : DigestDiagnostic} (hd : d.Proper) :
    relatedText d = d.finding.relatedText := by
  rw [relatedText, Finding.relatedText, relatedSubjects_finding hd]

/-- The stored diagnostics are compared as their findings are. -/
theorem compare_eq_le {d e : DigestDiagnostic} (hd : d.Proper) (he : e.Proper) :
    compareDigestDiagnostics d e = Finding.le d.finding e.finding := by
  have hup : ∀ d e : DigestDiagnostic,
      compareDigestUpToFacts d e = Finding.leUpToFacts d.finding e.finding := fun _ _ => rfl
  simp only [compareDigestDiagnostics, Finding.le, thenBy, hup, relatedText_eq hd,
    relatedText_eq he]

/-- **What ties two findings.** -/
theorem tied_le {f g : Finding} : Comparison.Tied Finding.le f g
    ↔ f.location.locator.getD [] = g.location.locator.getD []
      ∧ f.location.line.getD maxSafeInteger = g.location.line.getD maxSafeInteger
      ∧ f.location.column.getD maxSafeInteger = g.location.column.getD maxSafeInteger
      ∧ f.code = g.code ∧ f.severity = g.severity ∧ f.stage = g.stage
      ∧ f.location.jsonPointer.getD [] = g.location.jsonPointer.getD []
      ∧ f.facts = g.facts ∧ f.relatedText = g.relatedText := by
  rw [Finding.le, tied_thenBy, Finding.leUpToFacts, tied_thenBy, tied_thenBy, tied_thenBy,
    tied_thenBy, tied_thenBy, tied_thenBy, tied_thenBy]
  constructor
  · rintro ⟨⟨hlocator, hline, hcolumn, hcode, hseverity, hstage, hpointer, hfacts⟩, hrelated⟩
    exact ⟨tied_nullable.mp hlocator, tied_optionalInteger.mp hline,
      tied_optionalInteger.mp hcolumn, tied_pointsLe.mp hcode,
      text_severity_injective (tied_pointsLe.mp hseverity), tied_pointsLe.mp hstage,
      tied_nullable.mp hpointer, tied_pointsLe.mp hfacts, tied_pointsLe.mp hrelated⟩
  · rintro ⟨hlocator, hline, hcolumn, hcode, hseverity, hstage, hpointer, hfacts, hrelated⟩
    exact ⟨⟨tied_nullable.mpr hlocator, tied_optionalInteger.mpr hline,
      tied_optionalInteger.mpr hcolumn, tied_pointsLe.mpr hcode,
      tied_pointsLe.mpr (congrArg _ hseverity), tied_pointsLe.mpr hstage,
      tied_nullable.mpr hpointer, tied_pointsLe.mpr hfacts⟩, tied_pointsLe.mpr hrelated⟩

/-! ## What the preimage tells -/

theorem common_textValue {a b : Option CodeUnits} (h : Common (textValue a) (textValue b)) :
    a = b :=
  h.nullable (fun _ hkind => by cases hkind) fun _ _ hcommon => hcommon.string

theorem common_integerValue {a b : Option Int} (h : Common (integerValue a) (integerValue b)) :
    a = b :=
  h.nullable (fun _ hkind => by cases hkind) fun _ _ hcommon => hcommon.integer

theorem common_location {l l' : DiagnosticLocation} (h : Common l.value l'.value) : l = l' := by
  have hnodup : ([sourceUnits "locator", sourceUnits "jsonPointer", sourceUnits "line",
      sourceUnits "column", sourceUnits "length"] : List CodeUnits).Nodup := by decide
  have hall := Common.values [_, _, _, _, _] [_, _, _, _, _] hnodup rfl rfl h
  simp only [List.forall₂_cons] at hall
  obtain ⟨hlocator, hpointer, hline, hcolumn, hlength, -⟩ := hall
  obtain ⟨locator, jsonPointer, line, column, length⟩ := l
  obtain ⟨locator', jsonPointer', line', column', length'⟩ := l'
  obtain rfl : locator = locator' := common_textValue hlocator
  obtain rfl : jsonPointer = jsonPointer' := common_textValue hpointer
  obtain rfl : line = line' := common_integerValue hline
  obtain rfl : column = column' := common_integerValue hcolumn
  obtain rfl : length = length' := common_integerValue hlength
  rfl

theorem common_relatedValue {rs rs' : List DiagnosticRelated}
    (h : Common (relatedValue rs) (relatedValue rs')) :
    rs.map DiagnosticRelated.id = rs'.map DiagnosticRelated.id := by
  have hnodup : ([sourceUnits "kind", sourceUnits "id", sourceUnits "digest",
      sourceUnits "location"] : List CodeUnits).Nodup := by decide
  have hitems := h.items
  rw [List.forall₂_map_left_iff, List.forall₂_map_right_iff] at hitems
  rw [← List.forall₂_eq_eq_eq, List.forall₂_map_left_iff, List.forall₂_map_right_iff]
  refine hitems.imp fun r r' hr => ?_
  have hall := Common.values [_, _, _, _] [_, _, _, _] hnodup rfl rfl hr
  simp only [List.forall₂_cons] at hall
  exact hall.2.1.string

/-- **The finding is in the text of a diagnostic.** -/
theorem common_diagnostic {d e : DigestDiagnostic} (h : Common d.value e.value) :
    d.finding = e.finding := by
  have hnodup : ([sourceUnits "code", sourceUnits "severity", sourceUnits "stage",
      sourceUnits "location", sourceUnits "related", sourceUnits "facts"] : List CodeUnits).Nodup := by
    decide
  have hall := Common.values [_, _, _, _, _, _] [_, _, _, _, _, _] hnodup rfl rfl h
  simp only [List.forall₂_cons] at hall
  obtain ⟨hcode, hseverity, hstage, hlocation, hrelated, hfacts, -⟩ := hall
  have htext : d.facts.text = e.facts.text := by
    obtain ⟨t, hd, he⟩ := hfacts
    rw [d.facts.written.unique hd, e.facts.written.unique he]
  unfold DigestDiagnostic.finding
  rw [hcode.string, text_severity_injective hseverity.string, hstage.string,
    common_location hlocation, common_relatedValue hrelated, htext]

/-- **The findings are in the preimage**, in their order. -/
theorem common_subject {base base' : ValidationBase} {ds ds' : List DigestDiagnostic}
    (h : Common (base.subjectValue ds) (base'.subjectValue ds')) :
    ds.map DigestDiagnostic.finding = ds'.map DigestDiagnostic.finding := by
  have hnodup : ([sourceUnits "diagnostics", sourceUnits "schema",
      sourceUnits "specificationRevision", sourceUnits "publicationDigest", sourceUnits "profile",
      sourceUnits "subject", sourceUnits "complete", sourceUnits "valid", sourceUnits "stages",
      sourceUnits "limits"] : List CodeUnits).Nodup := by
    decide
  have hdiagnostics : Common (.array (ds.map DigestDiagnostic.value))
      (.array (ds'.map DigestDiagnostic.value)) :=
    h.member hnodup List.mem_cons_self List.mem_cons_self
  have hitems := hdiagnostics.items
  rw [List.forall₂_map_left_iff, List.forall₂_map_right_iff] at hitems
  rw [← List.forall₂_eq_eq_eq, List.forall₂_map_left_iff, List.forall₂_map_right_iff]
  exact hitems.imp fun _ _ => common_diagnostic

/-- **Diagnostics with one finding have one text.** -/
theorem sameText_diagnostic {d e : DigestDiagnostic} (hd : d.Proper) (he : e.Proper)
    (h : d.finding = e.finding) : SameText d.value e.value := by
  have hfacts : SameText d.facts.value e.facts.value := by
    have htext : d.facts.text = e.facts.text := congrArg Finding.facts h
    have hwritten := e.facts.written
    rw [← htext] at hwritten
    intro t
    constructor
    · intro ht
      rwa [d.facts.written.unique ht] at hwritten
    · intro ht
      rw [← hwritten.unique ht]
      exact d.facts.written
  have hcode : d.code = e.code := congrArg Finding.code h
  have hseverity : d.severity = e.severity := congrArg Finding.severity h
  have hstage : d.stage = e.stage := congrArg Finding.stage h
  have hlocation : d.location = e.location := congrArg Finding.location h
  have hrelated := hd.related_eq he (congrArg Finding.related h)
  unfold DigestDiagnostic.value
  rw [hcode, hseverity, hstage, hlocation, hrelated]
  refine SameText.object ?_
  have hsame (m : CodeUnits × HostValue) : m.1 = m.1 ∧ SameText m.2 m.2 := ⟨rfl, .refl _⟩
  exact .cons (hsame _) (.cons (hsame _) (.cons (hsame _) (.cons (hsame _) (.cons (hsame _)
    (.cons ⟨rfl, hfacts⟩ .nil)))))

/-! ## Runs that return -/

theorem relatedRefusal_eq_none {d : DigestDiagnostic} :
    relatedRefusal d = none ↔ ∃ t, Writes (relatedValue d.related) t := by
  unfold relatedRefusal Writes
  cases canonicalJson (relatedValue d.related) with
  | ok t => exact ⟨fun _ => ⟨t, rfl⟩, fun _ => rfl⟩
  | error e => exact ⟨fun h => (by cases h), fun ⟨_, h⟩ => by cases h⟩

/-- A sort that returns has sorted. -/
theorem sorted_of_sortOrThrow {α : Type} {upToFacts compare : α → α → Bool}
    {refusal : α → Option CanonicalError} {entries sorted : List α}
    (h : sortOrThrow upToFacts compare refusal entries = .ok sorted) :
    sorted = sortWith compare entries := by
  unfold sortOrThrow at h
  split at h
  · exact (Except.ok.inj h).symm
  · split at h
    · exact (Except.ok.inj h).symm
    · cases h

/-- Nothing is thrown where nothing is refused. -/
theorem sortOrThrow_of_forall {α : Type} {upToFacts compare : α → α → Bool}
    {refusal : α → Option CanonicalError} {entries : List α}
    (h : ∀ a ∈ entries, refusal a = none) :
    sortOrThrow upToFacts compare refusal entries = .ok (sortWith compare entries) := by
  have hnone : entries.findSome? refusal = none := List.findSome?_eq_none_iff.mpr h
  unfold sortOrThrow
  rw [hnone]

/-- The diagnostics of a preimage, in their order. -/
def preimageDiagnostics (values : List ValidationDiagnostic) : List DigestDiagnostic :=
  sortWith compareDigestDiagnostics (digestDiagnostics (sortWith compareDiagnostics values))

/-- What `result` has tested. -/
structure Tested (values : List ValidationDiagnostic) (options : ResultOptions) : Prop where
  stages : (options.stages.map fun s => s.declared.id).Nodup
  declared : ∀ d ∈ values, d.stage ∈ options.stages.map fun s => s.declared.id
  durations : ∀ s ∈ options.stages, isNonnegativeSafeInteger s.declared.durationMs = true
  limits : (options.limits.entries.all fun entry =>
    isLimitId entry.1 && isNonnegativeSafeInteger entry.2) = true

/-- The limits in their order. -/
def sortedLimits (options : ResultOptions) : List (CodeUnits × HostNumber) :=
  sortWith (fun left right => pointsLe left.1 right.1) options.limits.entries

/-- The result before its digest. -/
def baseOf (values : List ValidationDiagnostic) (options : ResultOptions) : ValidationBase :=
  DiagnosticCollector.resultBase options (sortWith compareDiagnostics values) (sortedLimits options)

theorem normalizeLimits_eq_ok {options : ResultOptions} {entries : List (CodeUnits × HostNumber)} :
    normalizeLimits options.limits = .ok entries ↔ entries = sortedLimits options
      ∧ (options.limits.entries.all fun entry =>
        isLimitId entry.1 && isNonnegativeSafeInteger entry.2) = true := by
  have hall := (perm_sortWith (fun left right : CodeUnits × HostNumber => pointsLe left.1 right.1)
    options.limits.entries).all_eq (f := fun entry =>
      isLimitId entry.1 && isNonnegativeSafeInteger entry.2)
  simp only [normalizeLimits, bind_eq_ok, failIf_eq_ok, pure_eq_ok, exists_unit, hall,
    Bool.not_eq_false]
  rw [and_comm, eq_comm]
  rfl

/-- **What a result holds.** -/
structure Returned (values : List ValidationDiagnostic) (options : ResultOptions)
    (x : ValidationResult) (t : CodeUnits) : Prop where
  tested : Tested values options
  base : x.toValidationBase = baseOf values options
  preimage : Writes ((baseOf values options).subjectValue (preimageDiagnostics values)) t
  digest : x.digest = Json.sha256Bytes (encodeUtf8 t)

theorem digestPreimage_eq {values : List ValidationDiagnostic} {options : ResultOptions}
    {t : CodeUnits} (h : digestPreimage (baseOf values options) = .ok t) :
    Writes ((baseOf values options).subjectValue (preimageDiagnostics values)) t := by
  simp only [digestPreimage, validationDigestSubject, bind_eq_ok, pure_eq_ok] at h
  obtain ⟨_, ⟨sorted, hsorted, rfl⟩, ht⟩ := h
  obtain rfl := sorted_of_sortOrThrow hsorted
  exact ht

theorem exists_returned {values : List ValidationDiagnostic} {options : ResultOptions}
    {x : ValidationResult} (h : DiagnosticCollector.finalResult values options = .ok x) :
    ∃ t, Returned values options x t ∧ digestPreimage x.toValidationBase = .ok t := by
  simp only [DiagnosticCollector.finalResult, bind_eq_ok, failIf_eq_ok, pure_eq_ok, exists_unit,
    normalizeLimits_eq_ok, validationResultDigest] at h
  obtain ⟨hstages, hdeclared, hdurations, sorted, hsorted, limits, ⟨rfl, hlimits⟩, digest,
    ⟨t, ht, rfl⟩, rfl⟩ := h
  obtain rfl := sorted_of_sortOrThrow hsorted
  refine ⟨t, ⟨⟨?_, ?_, ?_, hlimits⟩, rfl, digestPreimage_eq ht, rfl⟩, ht⟩
  · rw [not_not, List.map_map] at hstages
    exact hstages
  · intro d hd
    rw [List.map_map] at hdeclared
    exact not_not.mp fun hnot => hdeclared ⟨d, hd, hnot⟩
  · intro s hs
    rw [← Bool.not_eq_false]
    exact fun hnot => hdurations ⟨_, List.mem_map_of_mem hs, hnot⟩

/-- The related subjects of what is in a preimage are canonical. -/
theorem relatedRefusal_of_writes {base : ValidationBase} {ds : List DigestDiagnostic} {t : CodeUnits}
    (h : Writes (base.subjectValue ds) t) : ∀ d ∈ ds, relatedRefusal d = none := by
  intro d hd
  have hsubject := exists_writes_object.mp ⟨t, h⟩
  obtain ⟨-, hdiagnostics⟩ := hsubject _ List.mem_cons_self
  have hvalue := exists_writes_array.mp hdiagnostics _ (List.mem_map_of_mem hd)
  have hmembers := exists_writes_object.mp hvalue
  have hrelated : (sourceUnits "related", relatedValue d.related)
      ∈ [(sourceUnits "code", HostValue.string d.code),
        (sourceUnits "severity", .string d.severity.text), (sourceUnits "stage", .string d.stage),
        (sourceUnits "location", d.location.value), (sourceUnits "related", relatedValue d.related),
        (sourceUnits "facts", d.facts.value)] := by
    simp
  exact relatedRefusal_eq_none.mpr (hmembers _ hrelated).2

theorem mem_digestDiagnostics {values : List ValidationDiagnostic} {d : DigestDiagnostic} :
    d ∈ digestDiagnostics values
      ↔ ∃ v ∈ values, isImplementationInformation d = false ∧ v.toDigestDiagnostic = d := by
  simp only [digestDiagnostics, List.mem_map, List.mem_filter, Bool.not_eq_true']
  constructor
  · rintro ⟨v, ⟨hv, hplain⟩, rfl⟩
    exact ⟨v, hv, hplain, rfl⟩
  · rintro ⟨v, hv, hplain, rfl⟩
    exact ⟨v, ⟨hv, hplain⟩, rfl⟩

theorem mem_preimageDiagnostics {values : List ValidationDiagnostic} {d : DigestDiagnostic} :
    d ∈ preimageDiagnostics values
      ↔ ∃ v ∈ values, isImplementationInformation d = false ∧ v.toDigestDiagnostic = d := by
  rw [preimageDiagnostics, mem_sortWith, mem_digestDiagnostics]
  simp only [mem_sortWith]

/-- **A run returns** where everything is tested and canonical. -/
theorem exists_finalResult {values : List ValidationDiagnostic} {options : ResultOptions}
    {t : CodeUnits} (htested : Tested values options)
    (hrelated : ∀ d ∈ values, relatedRefusal d.toDigestDiagnostic = none)
    (h : Writes ((baseOf values options).subjectValue (preimageDiagnostics values)) t) :
    ∃ x, DiagnosticCollector.finalResult values options = .ok x := by
  have hpreimage : digestPreimage (baseOf values options) = .ok t := by
    have hsorted : sortOrThrow compareDigestUpToFacts compareDigestDiagnostics relatedRefusal
        (digestDiagnostics (baseOf values options).diagnostics)
        = .ok (preimageDiagnostics values) := by
      refine sortOrThrow_of_forall fun d hd => ?_
      obtain ⟨v, hv, -, rfl⟩ := mem_digestDiagnostics.mp hd
      exact hrelated v (mem_sortWith.mp hv)
    simp only [digestPreimage, validationDigestSubject, bind_eq_ok, pure_eq_ok]
    exact ⟨_, ⟨_, hsorted, rfl⟩, h⟩
  simp only [DiagnosticCollector.finalResult, bind_eq_ok, failIf_eq_ok, pure_eq_ok, exists_unit,
    normalizeLimits_eq_ok, validationResultDigest]
  refine ⟨_, ?_, ?_, ?_, _, sortOrThrow_of_forall hrelated, _, ⟨rfl, htested.limits⟩, _,
    ⟨t, hpreimage, rfl⟩, rfl⟩
  · rw [not_not, List.map_map]
    exact htested.stages
  · rw [List.map_map]
    rintro ⟨d, hd, hnot⟩
    exact hnot (htested.declared d hd)
  · rintro ⟨declaration, hdeclaration, hnot⟩
    obtain ⟨s, hs, rfl⟩ := List.mem_map.mp hdeclaration
    rw [htested.durations s hs] at hnot
    cases hnot

/-! ### The findings of the values -/

/-- **The findings of a run** are those of the diagnostics its digest is
about. -/
theorem findings_eq {additions : List Addition} {values : List ValidationDiagnostic}
    (h : List.Forall₂ MadeOf additions values) :
    (digestDiagnostics values).map DigestDiagnostic.finding
      = (additions.filter Addition.isLifecycle).map Addition.finding := by
  induction h with
  | nil => rfl
  | @cons a d additions values hone _ ih =>
    have hkind := hone.isImplementationInformation
    unfold digestDiagnostics at ih ⊢
    rw [List.filter_cons, List.filter_cons, hkind]
    split
    · rw [List.map_cons, List.map_cons, List.map_cons, ih, hone.finding]
    · exact ih

theorem perm_preimageDiagnostics (values : List ValidationDiagnostic) :
    (preimageDiagnostics values).Perm (digestDiagnostics values) :=
  (perm_sortWith _ _).trans (((perm_sortWith _ values).filter _).map _)

theorem exists_madeOf {additions : List Addition} {values : List ValidationDiagnostic}
    (h : List.Forall₂ MadeOf additions values) {d : ValidationDiagnostic} (hd : d ∈ values) :
    ∃ a ∈ additions, MadeOf a d :=
  exists_of_forall₂ h hd

/-- Every error is a finding. -/
theorem any_error_eq {values : List ValidationDiagnostic} (p : CodeUnits → Bool) :
    (values.any fun d => p d.stage && decide (d.severity = .error))
      = ((digestDiagnostics values).map DigestDiagnostic.finding).any fun f =>
        p f.stage && decide (f.severity = .error) := by
  unfold digestDiagnostics
  rw [List.any_map, List.any_map, List.any_filter]
  refine congrArg (fun q => values.any q) (funext fun d => ?_)
  show _ = (!isImplementationInformation d.toDigestDiagnostic
    && (p d.stage && decide (d.severity = .error)))
  unfold isImplementationInformation
  cases d.severity <;> simp

/-- **What two runs have in common** besides their findings. -/
structure ResultOptions.Same (o o' : ResultOptions) : Prop where
  profile : o.profile = o'.profile
  subject : o.subject = o'.subject
  publicationDigest : o.publicationDigest = o'.publicationDigest
  stages : (o.stages.map fun s => (s.declared.id, s.declared.complete))
    = o'.stages.map fun s => (s.declared.id, s.declared.complete)
  limits : o.limits.entries.Perm o'.limits.entries

theorem ResultOptions.Same.refl (o : ResultOptions) : o.Same o := ⟨rfl, rfl, rfl, rfl, .refl _⟩

/-- The order of the limits does not matter. -/
theorem sortedLimits_eq {o o' : ResultOptions} (h : o.limits.entries.Perm o'.limits.entries) :
    sortedLimits o = sortedLimits o' := by
  refine sortWith_eq_of_perm (comparison_pointsLe.comap Prod.fst) h fun a ha b hb htied => ?_
  exact List.inj_on_of_nodup_map o.limits.nodup ha hb (tied_pointsLe.mp htied)

/-- Some diagnostic of the stages meant is an error. -/
def hasError (values : List ValidationDiagnostic) (p : CodeUnits → Bool) : Bool :=
  values.any fun d => p d.stage && decide (d.severity = .error)

theorem hasError_eq {values values' : List ValidationDiagnostic} (p : CodeUnits → Bool)
    (h : ((digestDiagnostics values).map DigestDiagnostic.finding).Perm
      ((digestDiagnostics values').map DigestDiagnostic.finding)) :
    hasError (sortWith compareDiagnostics values) p
      = hasError (sortWith compareDiagnostics values') p := by
  rw [hasError, hasError, (perm_sortWith _ values).any_eq, (perm_sortWith _ values').any_eq,
    any_error_eq, any_error_eq, h.any_eq]

/-- What the digest reads of the stages. -/
theorem stagesOf_eq (o : ResultOptions) (values : List ValidationDiagnostic) :
    (DiagnosticCollector.stagesOf (o.stages.map StageInput.declared) values).map
        (fun s => (s.id, s.complete, s.valid))
      = (o.stages.map fun s => (s.declared.id, s.declared.complete)).map fun s =>
        (s.1, s.2, s.2 && !hasError values fun id => decide (id = s.1)) := by
  rw [DiagnosticCollector.stagesOf, List.map_map, List.map_map, List.map_map]
  refine List.map_congr_left fun s _ => ?_
  simp only [Function.comp_apply, List.any_filter, hasError]

/-- **The rest of the preimage** depends on nothing else. -/
theorem members_eq {o o' : ResultOptions} {values values' : List ValidationDiagnostic}
    (hsame : o.Same o')
    (h : ((digestDiagnostics values).map DigestDiagnostic.finding).Perm
      ((digestDiagnostics values').map DigestDiagnostic.finding)) :
    (baseOf values o).members = (baseOf values' o').members := by
  have hstages : (baseOf values o).stages.map (fun s => (s.id, s.complete, s.valid))
      = (baseOf values' o').stages.map fun s => (s.id, s.complete, s.valid) := by
    rw [baseOf, baseOf, DiagnosticCollector.resultBase, DiagnosticCollector.resultBase,
      stagesOf_eq, stagesOf_eq, hsame.stages]
    refine List.map_congr_left fun s _ => ?_
    rw [hasError_eq _ h]
  have hvalues (base : ValidationBase) : base.stages.map ValidationStage.value
      = (base.stages.map fun s => (s.id, s.complete, s.valid)).map fun s =>
        .object [(sourceUnits "id", .string s.1), (sourceUnits "complete", .bool s.2.1),
          (sourceUnits "valid", .bool s.2.2)] := by
    rw [List.map_map]
    rfl
  have hcomplete (values : List ValidationDiagnostic) (o : ResultOptions) :
      (baseOf values o).complete
        = ((baseOf values o).stages.map fun s => (s.id, s.complete, s.valid)).all (·.2.1) := by
    rw [List.all_map]
    rfl
  have hvalid (values : List ValidationDiagnostic) (o : ResultOptions) : (baseOf values o).valid
      = ((baseOf values o).complete
        && ((baseOf values o).stages.map fun s => (s.id, s.complete, s.valid)).all (·.2.2)
        && !hasError (sortWith compareDiagnostics values) fun _ => true) := by
    rw [List.all_map, hasError]
    rfl
  have hlimits : (baseOf values o).limits = (baseOf values' o').limits := sortedLimits_eq hsame.limits
  unfold ValidationBase.members
  rw [hvalues, hvalues (baseOf values' o'), hvalid, hvalid values', hcomplete, hcomplete values',
    hstages, hasError_eq _ h, hlimits]
  show _ :: _ :: (_, textValue o.publicationDigest) :: (_, HostValue.string o.profile)
    :: (_, o.subject.value) :: _ = _
  rw [hsame.publicationDigest, hsame.profile, hsame.subject]
  rfl

/-! ## The law of the digests -/

/-- No two different findings of the run are tied. -/
def ValidationRun.Untied (r : ValidationRun) : Prop :=
  ∀ f ∈ r.findings, ∀ g ∈ r.findings, f.Tied g → f = g

/-- **The law of the digests**, for one run and its result. -/
structure DigestLaw (r : ValidationRun) (x : ValidationResult) : Prop where
  order : ∀ (r' : ValidationRun) (x' : ValidationResult), r'.result = .ok x' →
    r.options.Same r'.options → r.findings.Perm r'.findings →
    digestPreimage x'.toValidationBase = digestPreimage x.toValidationBase ∧ x'.digest = x.digest
  separates : ∀ (r' : ValidationRun) (x' : ValidationResult), r'.result = .ok x' →
    digestPreimage x'.toValidationBase = digestPreimage x.toValidationBase →
    r.findings.Perm r'.findings

/-- The diagnostics of a preimage, as findings, in their order. -/
theorem map_preimageDiagnostics {additions : List Addition} {values : List ValidationDiagnostic}
    (h : List.Forall₂ MadeOf additions values) :
    (preimageDiagnostics values).map DigestDiagnostic.finding
      = sortWith Finding.le
        ((digestDiagnostics (sortWith compareDiagnostics values)).map DigestDiagnostic.finding) := by
  have hproper : ∀ d ∈ digestDiagnostics (sortWith compareDiagnostics values), d.Proper := by
    intro d hd
    obtain ⟨v, hv, -, rfl⟩ := mem_digestDiagnostics.mp hd
    obtain ⟨a, -, hmade⟩ := exists_madeOf h (mem_sortWith.mp hv)
    exact hmade.proper
  rw [preimageDiagnostics, sortWith, sortWith]
  refine List.map_insertionSort _ _ _ _ fun d hd e he => ?_
  rw [compare_eq_le (hproper d hd) (hproper e he)]

/-- **What has gone into a result.** -/
structure Made (r : ValidationRun) (x : ValidationResult) (values : List ValidationDiagnostic)
    (t : CodeUnits) : Prop where
  collected : List.Forall₂ MadeOf r.additions values
  returned : Returned values r.options x t
  preimage : digestPreimage x.toValidationBase = .ok t

theorem exists_made {r : ValidationRun} {x : ValidationResult} (h : r.result = .ok x) :
    ∃ values t, Made r x values t := by
  obtain ⟨values, hvalues, hresult⟩ := result_eq_ok.mp h
  obtain ⟨t, hreturned, hpreimage⟩ := exists_returned hresult
  exact ⟨values, t, hvalues, hreturned, hpreimage⟩

namespace Made

variable {r r' : ValidationRun} {x x' : ValidationResult} {values values' : List ValidationDiagnostic}
  {t t' : CodeUnits}

theorem findings (h : Made r x values t) :
    (digestDiagnostics values).map DigestDiagnostic.finding = r.findings :=
  findings_eq h.collected

theorem perm_findings (h : Made r x values t) :
    ((preimageDiagnostics values).map DigestDiagnostic.finding).Perm r.findings := by
  rw [← h.findings]
  exact (perm_preimageDiagnostics values).map _

/-- What a finding of the run is the finding of. -/
theorem exists_finding (h : Made r x values t) {f : Finding} (hf : f ∈ r.findings) :
    ∃ d, d.finding = f ∧ d.Proper ∧ relatedRefusal d = none := by
  obtain ⟨d, hd, rfl⟩ := List.mem_map.mp (h.perm_findings.mem_iff.mpr hf)
  obtain ⟨v, hv, -, hvd⟩ := mem_preimageDiagnostics.mp hd
  obtain ⟨a, -, hmade⟩ := exists_madeOf h.collected hv
  exact ⟨d, rfl, hvd ▸ hmade.proper, relatedRefusal_of_writes h.returned.preimage d hd⟩

/-- **The comparator ties what it does not read.** -/
theorem tied_iff (h : Made r x values t) {f g : Finding} (hf : f ∈ r.findings)
    (hg : g ∈ r.findings) : Comparison.Tied Finding.le f g ↔ f.Tied g := by
  obtain ⟨d, rfl, hd, hcanonical⟩ := h.exists_finding hf
  obtain ⟨e, rfl, he, hcanonical'⟩ := h.exists_finding hg
  have htext {d : DigestDiagnostic} (hd : d.Proper) (hcanonical : relatedRefusal d = none) :
      Writes (relatedValue d.related) d.finding.relatedText := by
    obtain ⟨text, hwritten⟩ := relatedRefusal_eq_none.mp hcanonical
    rw [← relatedText_eq hd, relatedText, show canonicalJson (relatedValue d.related) = .ok text from
      hwritten]
    exact hwritten
  rw [tied_le]
  constructor
  · rintro ⟨hlocator, hline, hcolumn, hcode, hseverity, hstage, hpointer, hfacts, hrelated⟩
    have hcommon := htext he hcanonical'
    rw [← hrelated] at hcommon
    have hids := common_relatedValue ⟨_, htext hd hcanonical, hcommon⟩
    exact ⟨hlocator, hline, hcolumn, hcode, hseverity, hstage, hpointer, hfacts,
      congrArg List.toFinset hids⟩
  · intro htied
    refine ⟨htied.locator, htied.line, htied.column, htied.code, htied.severity, htied.stage,
      htied.jsonPointer, htied.facts, ?_⟩
    rw [Finding.relatedText, Finding.relatedText, htied.related]

/-- **The preimage tells the findings.** -/
theorem perm_of_preimage (h : Made r x values t) (h' : Made r' x' values' t) :
    (preimageDiagnostics values).map DigestDiagnostic.finding
      = (preimageDiagnostics values').map DigestDiagnostic.finding :=
  common_subject ⟨t, h.returned.preimage, h'.returned.preimage⟩

/-- **Where no findings are tied, the preimage does not depend on their
order.** -/
theorem preimage_eq (h : Made r x values t) (h' : Made r' x' values' t')
    (hsame : r.options.Same r'.options) (hperm : r.findings.Perm r'.findings) (huntied : r.Untied) :
    t = t' := by
  have hall {r : ValidationRun} {x : ValidationResult} {values : List ValidationDiagnostic}
      {t : CodeUnits} (h : Made r x values t) :
      ((digestDiagnostics (sortWith compareDiagnostics values)).map
        DigestDiagnostic.finding).Perm r.findings := by
    rw [← h.findings]
    exact (((perm_sortWith _ values).filter _).map _).map _
  have hsorted : (preimageDiagnostics values).map DigestDiagnostic.finding
      = (preimageDiagnostics values').map DigestDiagnostic.finding := by
    rw [map_preimageDiagnostics h.collected, map_preimageDiagnostics h'.collected]
    refine sortWith_eq_of_perm comparison_le ((hall h).trans (hperm.trans (hall h').symm))
      fun f hf g hg htied => ?_
    have hf' := (hall h).mem_iff.mp hf
    have hg' := (hall h).mem_iff.mp hg
    exact huntied f hf' g hg' ((h.tied_iff hf' hg').mp htied)
  have hproper {r : ValidationRun} {x : ValidationResult} {values : List ValidationDiagnostic}
      {t : CodeUnits} (h : Made r x values t) : ∀ d ∈ preimageDiagnostics values, d.Proper := by
    intro d hd
    obtain ⟨v, hv, -, rfl⟩ := mem_preimageDiagnostics.mp hd
    obtain ⟨a, -, hmade⟩ := exists_madeOf h.collected hv
    exact hmade.proper
  have hdiagnostics : List.Forall₂ SameText
      ((preimageDiagnostics values).map DigestDiagnostic.value)
      ((preimageDiagnostics values').map DigestDiagnostic.value) := by
    rw [List.forall₂_map_left_iff, List.forall₂_map_right_iff]
    rw [← List.forall₂_eq_eq_eq, List.forall₂_map_left_iff, List.forall₂_map_right_iff] at hsorted
    have hleft := (List.forall₂_and_left _ _).mpr ⟨hproper h, hsorted⟩
    have hboth := (List.forall₂_and_left _ _).mpr ⟨hproper h', hleft.flip⟩
    exact hboth.flip.imp fun d e hde => sameText_diagnostic hde.2.1 hde.1 hde.2.2
  have hsubject : SameText ((baseOf values r.options).subjectValue (preimageDiagnostics values))
      ((baseOf values' r'.options).subjectValue (preimageDiagnostics values')) := by
    have hmembers : (baseOf values r.options).members = (baseOf values' r'.options).members := by
      refine members_eq hsame ?_
      rw [h.findings, h'.findings]
      exact hperm
    unfold ValidationBase.subjectValue
    rw [hmembers]
    refine SameText.object (.cons ⟨rfl, SameText.array hdiagnostics⟩ ?_)
    exact List.forall₂_same.mpr fun m _ => ⟨rfl, .refl _⟩
  exact ((hsubject t).mp h.returned.preimage).unique h'.returned.preimage

end Made

/-! ### Runs without messages -/

/-- The addition with an empty message. -/
def Addition.silent (a : Addition) : Addition := { a with message := [] }

theorem MadeOf.toDigestDiagnostic_eq {a : Addition} {d e : ValidationDiagnostic}
    (hd : MadeOf a.silent d) (he : MadeOf a e) : d.toDigestDiagnostic = e.toDigestDiagnostic := by
  obtain ⟨facts, hvalue, rfl⟩ := hd
  obtain ⟨facts', hvalue', rfl⟩ := he
  obtain rfl := Facts.eq_of_value (hvalue.trans hvalue'.symm)
  rfl

theorem filter_silent {additions : List Addition} (h : ∀ a ∈ additions, a.isLifecycle = true) :
    ((additions.map Addition.silent).filter Addition.isLifecycle).map Addition.finding
      = additions.map Addition.finding := by
  have hall : (additions.map Addition.silent).filter Addition.isLifecycle
      = additions.map Addition.silent := by
    refine List.filter_eq_self.mpr fun b hb => ?_
    obtain ⟨a, ha, rfl⟩ := List.mem_map.mp hb
    exact h a ha
  rw [hall, List.map_map]
  rfl

/-- **The findings of a run can be added in any order**, without messages. -/
theorem Made.exists_silent {r : ValidationRun} {x : ValidationResult}
    {values : List ValidationDiagnostic} {t : CodeUnits} (h : Made r x values t)
    {additions : List Addition} (hperm : (r.additions.filter Addition.isLifecycle).Perm additions) :
    ∃ x' values' t', ValidationRun.result ⟨additions.map Addition.silent, r.options⟩ = .ok x'
      ∧ Made ⟨additions.map Addition.silent, r.options⟩ x' values' t' := by
  have hmem {a : Addition} (ha : a ∈ additions) : a ∈ r.additions ∧ a.isLifecycle = true :=
    List.mem_filter.mp (hperm.mem_iff.mpr ha)
  have hstored {a : Addition} (ha : a ∈ additions) : ∃ e ∈ values, MadeOf a e
      ∧ e.toDigestDiagnostic ∈ preimageDiagnostics values := by
    obtain ⟨e, he, hflip⟩ := exists_of_forall₂ h.collected.flip (hmem ha).1
    have hmade : MadeOf a e := hflip
    have hkind := hmade.isImplementationInformation
    rw [(hmem ha).2, Bool.not_eq_true'] at hkind
    exact ⟨e, he, hmade, mem_preimageDiagnostics.mpr ⟨e, he, hkind, rfl⟩⟩
  obtain ⟨values', hvalues'⟩ : ∃ values', List.Forall₂ MadeOf (additions.map Addition.silent)
      values' := by
    refine exists_forall₂_iff.mpr fun b hb => ?_
    obtain ⟨a, ha, rfl⟩ := List.mem_map.mp hb
    obtain ⟨e, -, ⟨facts, hvalue, -⟩, -⟩ := hstored ha
    exact ⟨_, facts, hvalue, rfl⟩
  have hsame : ∀ d ∈ values', ∃ e ∈ values, d.toDigestDiagnostic = e.toDigestDiagnostic
      ∧ e.toDigestDiagnostic ∈ preimageDiagnostics values := by
    intro d hd
    obtain ⟨b, hb, hmade⟩ := exists_madeOf hvalues' hd
    obtain ⟨a, ha, rfl⟩ := List.mem_map.mp hb
    obtain ⟨e, he, hmade', hpreimage⟩ := hstored ha
    exact ⟨e, he, hmade.toDigestDiagnostic_eq hmade', hpreimage⟩
  have htested : Tested values' r.options := by
    refine ⟨h.returned.tested.stages, fun d hd => ?_, h.returned.tested.durations,
      h.returned.tested.limits⟩
    obtain ⟨e, he, heq, -⟩ := hsame d hd
    have hstage : d.stage = e.stage := congrArg DigestDiagnostic.stage heq
    rw [hstage]
    exact h.returned.tested.declared e he
  have hrelated : ∀ d ∈ values', relatedRefusal d.toDigestDiagnostic = none := by
    intro d hd
    obtain ⟨e, -, heq, hpreimage⟩ := hsame d hd
    rw [heq]
    exact relatedRefusal_of_writes h.returned.preimage _ hpreimage
  have hmembers : (baseOf values r.options).members = (baseOf values' r.options).members := by
    refine members_eq (.refl _) ?_
    rw [findings_eq h.collected, findings_eq hvalues', filter_silent fun a ha => (hmem ha).2]
    exact hperm.map _
  obtain ⟨t', ht'⟩ : ∃ t', Writes ((baseOf values' r.options).subjectValue
      (preimageDiagnostics values')) t' := by
    have hsubject := exists_writes_object.mp ⟨t, h.returned.preimage⟩
    refine exists_writes_object.mpr fun m hm => ?_
    obtain rfl | hm := List.mem_cons.mp hm
    · obtain ⟨hname, hdiagnostics⟩ := hsubject _ List.mem_cons_self
      refine ⟨hname, exists_writes_array.mpr fun v hv => ?_⟩
      obtain ⟨d, hd, rfl⟩ := List.mem_map.mp hv
      obtain ⟨w, hw, -, rfl⟩ := mem_preimageDiagnostics.mp hd
      obtain ⟨e, -, heq, hpreimage⟩ := hsame w hw
      rw [heq]
      exact exists_writes_array.mp hdiagnostics _ (List.mem_map_of_mem hpreimage)
    · rw [← hmembers] at hm
      exact hsubject m (List.mem_cons_of_mem _ hm)
  obtain ⟨x', hx'⟩ := exists_finalResult htested hrelated ht'
  have hresult : ValidationRun.result ⟨additions.map Addition.silent, r.options⟩ = .ok x' :=
    result_eq_ok.mpr ⟨values', hvalues', hx'⟩
  obtain ⟨values', t', hmade⟩ := exists_made hresult
  exact ⟨x', values', t', hresult, hmade⟩

theorem comparison_diagnostics : Comparison compareDiagnostics :=
  ((comparison_nullable.comap fun d : ValidationDiagnostic => d.location.locator).then_by <|
    (comparison_optionalInteger.comap fun d : ValidationDiagnostic => d.location.line).then_by <|
    (comparison_optionalInteger.comap fun d : ValidationDiagnostic => d.location.column).then_by <|
    (comparison_pointsLe.comap fun d : ValidationDiagnostic => d.code).then_by <|
    (comparison_pointsLe.comap fun d : ValidationDiagnostic => d.message).then_by <|
    (comparison_pointsLe.comap fun d : ValidationDiagnostic => d.stage).then_by <|
    (comparison_nullable.comap fun d : ValidationDiagnostic => d.location.jsonPointer).then_by <|
    comparison_pointsLe.comap fun d : ValidationDiagnostic => d.facts.text).then_by <|
  comparison_pointsLe.comap fun d : ValidationDiagnostic => relatedText d.toDigestDiagnostic

/-- What is tied for the digest is tied for the result, unless its message
differs. -/
theorem tied_compareDiagnostics {d e : ValidationDiagnostic} (hd : d.toDigestDiagnostic.Proper)
    (he : e.toDigestDiagnostic.Proper) (hmessage : d.message = e.message)
    (h : Comparison.Tied Finding.le d.toDigestDiagnostic.finding e.toDigestDiagnostic.finding) :
    Comparison.Tied compareDiagnostics d e := by
  obtain ⟨hlocator, hline, hcolumn, hcode, -, hstage, hpointer, hfacts, hrelated⟩ := tied_le.mp h
  rw [← relatedText_eq hd, ← relatedText_eq he] at hrelated
  rw [compareDiagnostics, tied_thenBy, compareUpToFacts, tied_thenBy, tied_thenBy, tied_thenBy,
    tied_thenBy, tied_thenBy, tied_thenBy, tied_thenBy]
  exact ⟨⟨tied_nullable.mpr hlocator, tied_optionalInteger.mpr hline,
    tied_optionalInteger.mpr hcolumn, tied_pointsLe.mpr hcode, tied_pointsLe.mpr hmessage,
    tied_pointsLe.mpr hstage, tied_nullable.mpr hpointer, tied_pointsLe.mpr hfacts⟩,
    tied_pointsLe.mpr hrelated⟩

/-- **Tied findings stand in the preimage as they were added**, when no
messages tell them apart. -/
theorem tiedWith_preimage {additions : List Addition} {values : List ValidationDiagnostic}
    (h : List.Forall₂ MadeOf additions values) (hsilent : ∀ a ∈ additions, a.message = [])
    {a : Addition} (ha : a ∈ additions) :
    tiedWith Finding.le a.finding ((preimageDiagnostics values).map DigestDiagnostic.finding)
      = tiedWith Finding.le a.finding
        ((additions.filter Addition.isLifecycle).map Addition.finding) := by
  obtain ⟨d, hd, hflip⟩ := exists_of_forall₂ h.flip ha
  have hmade : MadeOf a d := hflip
  have hmessage : ∀ e ∈ values, e.message = [] := by
    intro e he
    obtain ⟨b, hb, facts, -, rfl⟩ := exists_madeOf h he
    exact hsilent b hb
  have hfilter : ∀ l : List ValidationDiagnostic,
      tiedWith Finding.le a.finding ((digestDiagnostics l).map DigestDiagnostic.finding)
        = (digestDiagnostics (l.filter fun e =>
            Finding.le a.finding e.toDigestDiagnostic.finding
              && Finding.le e.toDigestDiagnostic.finding a.finding)).map
          DigestDiagnostic.finding := by
    intro l
    rw [tiedWith, digestDiagnostics, digestDiagnostics, List.filter_map, List.filter_map,
      List.filter_filter, List.filter_filter]
    refine congrArg (fun l => (List.map _ (List.map _ l))) (List.filter_congr fun e _ => ?_)
    exact Bool.and_comm _ _
  rw [map_preimageDiagnostics h, tiedWith_sortWith comparison_le, ← findings_eq h, hfilter, hfilter,
    filter_sortWith comparison_diagnostics d]
  intro e he htied
  rw [Bool.and_eq_true, ← hmade.finding] at htied
  obtain ⟨b, -, hmadeb⟩ := exists_madeOf h he
  exact tied_compareDiagnostics hmade.proper hmadeb.proper
    ((hmessage d hd).trans (hmessage e he).symm) htied

/-- **A law of order needs findings that are not tied.** -/
theorem untied_of_law {r : ValidationRun} {x : ValidationResult} (h : r.result = .ok x)
    (hlaw : DigestLaw r x) : r.Untied := by
  intro f hf g hg htied
  by_contra hne
  obtain ⟨values, t, hmade⟩ := exists_made h
  obtain ⟨a, ha, rfl⟩ := List.mem_map.mp hf
  obtain ⟨b, hb, rfl⟩ := List.mem_map.mp hg
  -- the two findings first, in either order
  obtain ⟨first, second, hsplit⟩ := List.append_of_mem ha
  have hrest : b ∈ first ++ second := by
    rw [hsplit, List.mem_append, List.mem_cons] at hb
    obtain hb | rfl | hb := hb
    · exact List.mem_append_left _ hb
    · exact absurd rfl hne
    · exact List.mem_append_right _ hb
  obtain ⟨third, fourth, hsplit'⟩ := List.append_of_mem hrest
  have hperm : (r.additions.filter Addition.isLifecycle).Perm (a :: b :: (third ++ fourth)) := by
    rw [hsplit]
    refine List.perm_middle.trans (.cons a ?_)
    rw [hsplit']
    exact List.perm_middle
  have hswapped := hperm.trans (.swap b a _)
  have hlifecycle {additions : List Addition}
      (hperm : (r.additions.filter Addition.isLifecycle).Perm additions) :
      ∀ c ∈ additions, c.isLifecycle = true :=
    fun c hc => (List.mem_filter.mp (hperm.mem_iff.mpr hc)).2
  have hsilent (additions : List Addition) : ∀ c ∈ additions.map Addition.silent, c.message = [] := by
    intro c hc
    obtain ⟨a, -, rfl⟩ := List.mem_map.mp hc
    rfl
  have hread {additions : List Addition} {x' : ValidationResult}
      {values' : List ValidationDiagnostic} {t' : CodeUnits}
      (hperm : (r.additions.filter Addition.isLifecycle).Perm additions)
      (hresult : ValidationRun.result ⟨additions.map Addition.silent, r.options⟩ = .ok x')
      (hmade' : Made ⟨additions.map Addition.silent, r.options⟩ x' values' t')
      (hmem : a ∈ additions) : t' = t
        ∧ tiedWith Finding.le a.finding
            ((preimageDiagnostics values').map DigestDiagnostic.finding)
          = tiedWith Finding.le a.finding (additions.map Addition.finding) := by
    have hfindings : r.findings.Perm
        (ValidationRun.findings ⟨additions.map Addition.silent, r.options⟩) := by
      show List.Perm _ (((additions.map Addition.silent).filter _).map _)
      rw [filter_silent (hlifecycle hperm)]
      exact hperm.map _
    have hsame := (hlaw.order _ x' hresult (.refl _) hfindings).1
    rw [hmade'.preimage, hmade.preimage] at hsame
    refine ⟨Except.ok.inj hsame, ?_⟩
    have htied' := tiedWith_preimage hmade'.collected (hsilent additions)
      (List.mem_map_of_mem hmem)
    rwa [filter_silent (hlifecycle hperm)] at htied'
  obtain ⟨x₁, values₁, t₁, hresult₁, hmade₁⟩ := hmade.exists_silent hperm
  obtain ⟨x₂, values₂, t₂, hresult₂, hmade₂⟩ := hmade.exists_silent hswapped
  obtain ⟨rfl, hfirst⟩ := hread hperm hresult₁ hmade₁ List.mem_cons_self
  obtain ⟨rfl, hsecond⟩ := hread hswapped hresult₂ hmade₂
    (List.mem_cons_of_mem b List.mem_cons_self)
  rw [hmade₁.perm_of_preimage hmade₂, hsecond] at hfirst
  obtain ⟨hab, hba⟩ := (hmade.tied_iff hf hg).mpr htied
  have hself : Finding.le a.finding a.finding = true := comparison_le.refl _
  simp only [tiedWith, List.map_cons, List.filter_cons, hself, hab, hba, Bool.and_self,
    if_true] at hfirst
  exact hne (List.cons.inj hfirst).1.symm

/-- **The law of the digests holds** of a run exactly when no two of its
findings are tied. -/
theorem digestLaw_iff {r : ValidationRun} {x : ValidationResult} (h : r.result = .ok x) :
    DigestLaw r x ↔ r.Untied := by
  refine ⟨untied_of_law h, fun huntied => ?_⟩
  obtain ⟨values, t, hmade⟩ := exists_made h
  refine ⟨fun r' x' hx' hsame hperm => ?_, fun r' x' hx' hpreimage => ?_⟩
  · obtain ⟨values', t', hmade'⟩ := exists_made hx'
    obtain rfl := hmade.preimage_eq hmade' hsame hperm huntied
    refine ⟨hmade'.preimage.trans hmade.preimage.symm, ?_⟩
    rw [hmade'.returned.digest, hmade.returned.digest]
  · obtain ⟨values', t', hmade'⟩ := exists_made hx'
    rw [hmade.preimage, hmade'.preimage] at hpreimage
    obtain rfl := Except.ok.inj hpreimage
    refine hmade.perm_findings.symm.trans ?_
    rw [hmade.perm_of_preimage hmade']
    exact hmade'.perm_findings

namespace Sample

/-- A finding at some length of one file. -/
def addition (code : String) (length : Int) : Addition where
  stage := sourceUnits "schema"
  code := sourceUnits code
  message := []
  path := some (sourceUnits "a.md")
  length := some length

def options : ResultOptions where
  profile := sourceUnits "structural-v1"
  subject := ⟨sourceUnits "record", sourceUnits "a", none, none, none⟩
  stages := [.name (sourceUnits "schema")]
  observedAt := []

/-- Findings of two codes. -/
def apart : ValidationRun := ⟨[addition "lifecycle.a" 1, addition "lifecycle.b" 2], options⟩

/-- Findings that differ in their length. -/
def tied : ValidationRun := ⟨[addition "lifecycle.a" 1, addition "lifecycle.a" 2], options⟩

/-- The same findings, the other one first. -/
def reordered : ValidationRun := ⟨[addition "lifecycle.a" 2, addition "lifecycle.a" 1], options⟩

end Sample

theorem exists_result {r : ValidationRun} (h : r.result.isOk = true) : ∃ x, r.result = .ok x := by
  cases hr : r.result with
  | ok x => exact ⟨x, rfl⟩
  | error e =>
    rw [hr] at h
    cases h

/-- Findings with different codes are not tied. -/
theorem digestLaw_apart : ∃ x, Sample.apart.result = .ok x ∧ DigestLaw Sample.apart x := by
  obtain ⟨x, hx⟩ := exists_result (r := Sample.apart) (by decide +kernel)
  refine ⟨x, hx, (digestLaw_iff hx).mpr fun f hf g hg htied => ?_⟩
  have hcodes : ∀ f ∈ Sample.apart.findings, ∀ g ∈ Sample.apart.findings, f.code = g.code →
      f = g := by
    decide +kernel
  exact hcodes f hf g hg htied.code

/-- **Two orders, two digests**: no comparator reads the length of a
location. -/
theorem not_digestLaw_tied : ∃ x x', Sample.tied.result = .ok x ∧ Sample.reordered.result = .ok x'
    ∧ Sample.tied.findings.Perm Sample.reordered.findings ∧ x'.digest ≠ x.digest
    ∧ ¬ DigestLaw Sample.tied x := by
  obtain ⟨x, hx⟩ := exists_result (r := Sample.tied) (by decide +kernel)
  obtain ⟨x', hx'⟩ := exists_result (r := Sample.reordered) (by decide +kernel)
  have hdigest : x'.digest ≠ x.digest := by
    have hevaluated : (Sample.reordered.result.map ValidationResult.digest).toOption
        ≠ (Sample.tied.result.map ValidationResult.digest).toOption := by
      decide +kernel
    rw [hx, hx'] at hevaluated
    exact fun h => hevaluated (congrArg some h)
  have hperm : Sample.tied.findings.Perm Sample.reordered.findings := .swap _ _ []
  refine ⟨x, x', hx, hx', hperm, hdigest, fun hlaw => ?_⟩
  exact hdigest (hlaw.order Sample.reordered x' hx' (.refl _) hperm).2

end Validation
