import Lifecycle.KnowledgeModel
import Lifecycle.PlainPayloads
import Mathlib.Data.Sym.Sym2

/-!
# Knowledge conflicts

`detectKnowledgeConflicts` reports what the structured facts of the current
records establish: a Behavior fact one record includes and one excludes, and an
Assurance or Blueprint conflict both sides declare. Declared conflicts are kept
once by their key. Behavior conflicts are not: the two lists of a pair of
records are filtered against each other in both directions and appended, so a
fact that both records include and both exclude is reported twice.
`conflictLaw_iff` says that this is all that can go wrong.
-/

open Json ControlModel SortedBy

namespace Knowledge

/-! ## Conflict results -/

/-- The types of a conflict. -/
inductive ConflictType
  | behaviorInclusionExclusion | assuranceLimit | blueprintConstraint
deriving DecidableEq

/-- The name of a type. -/
def ConflictType.text : ConflictType → String
  | .behaviorInclusionExclusion => "behavior-inclusion-exclusion"
  | .assuranceLimit => "assurance-limit"
  | .blueprintConstraint => "blueprint-constraint"

/-- The type of a declared conflict. -/
def DeclaredType.conflict : DeclaredType → ConflictType
  | .assuranceLimit => .assuranceLimit
  | .blueprintConstraint => .blueprintConstraint

/-- What the digest of a conflict covers. -/
structure ConflictSubject where
  type : ConflictType
  leftId : String
  leftRevision : Nat
  leftFact : String
  rightId : String
  rightRevision : Nat
  rightFact : String
deriving DecidableEq

/-- The subject as a JSON value, its members in canonical order. -/
def ConflictSubject.json (s : ConflictSubject) : Json :=
  .object [("leftFact", .string s.leftFact), ("leftId", .string s.leftId),
    ("leftRevision", nat s.leftRevision), ("rightFact", .string s.rightFact),
    ("rightId", .string s.rightId), ("rightRevision", nat s.rightRevision),
    ("type", .string s.type.text)]

/-- The digest of a subject. Revisions are small integers, so it always has
one (`digestCanonical_subject`). -/
def ConflictSubject.digest (s : ConflictSubject) : Sha256Digest :=
  (digestCanonical s.json).toOption.getD ""

/-- **`FoundationKnowledgeConflictResult`.** -/
structure ConflictResult where
  subject : ConflictSubject
  digest : Sha256Digest
deriving DecidableEq

/-- `padStart(10, "0")` of a revision. -/
def paddedRevision (n : Nat) : String :=
  let digits := (toString n).toList
  String.ofList (List.replicate (10 - digits.length) '0' ++ digits)

/-- `conflictKey`. -/
def conflictKey (value : ConflictResult) : String :=
  nulJoin [value.subject.type.text, value.subject.leftId,
    paddedRevision value.subject.leftRevision, value.subject.leftFact, value.subject.rightId,
    paddedRevision value.subject.rightRevision, value.subject.rightFact]

/-- The result over two sides in the given order. -/
def sided (type : ConflictType) (left : KnowledgeRecord) (leftFact : String)
    (right : KnowledgeRecord) (rightFact : String) : ConflictResult :=
  let subject : ConflictSubject :=
    { type := type
      leftId := left.frontMatter.id
      leftRevision := left.frontMatter.revision
      leftFact := leftFact
      rightId := right.frontMatter.id
      rightRevision := right.frontMatter.revision
      rightFact := rightFact }
  { subject := subject, digest := subject.digest }

/-- **`result`**: the sides in canonical order. -/
def result (type : ConflictType) (left : KnowledgeRecord) (leftFact : String)
    (right : KnowledgeRecord) (rightFact : String) : ConflictResult :=
  if codePointLe left.frontMatter.id right.frontMatter.id = false
      ∨ (left.frontMatter.id = right.frontMatter.id ∧ codePointLe leftFact rightFact = false) then
    sided type right rightFact left leftFact
  else sided type left leftFact right rightFact

/-- `addAuthorityConflict`. -/
def authorityConflict (conflict : ConflictResult) (left right : KnowledgeRecord) : Diagnostic :=
  { stage := "conflicts"
    code := "lifecycle.knowledge.authority-conflict"
    message := s!"{conflict.subject.leftId} and {conflict.subject.rightId} assert one exact "
      ++ s!"{conflict.subject.type.text} conflict"
    path := some left.path
    related := if left.path = right.path then [] else [right.path]
    facts := [("conflictDigest", .string conflict.digest),
      ("leftFact", .string conflict.subject.leftFact), ("leftId", .string conflict.subject.leftId),
      ("rightFact", .string conflict.subject.rightFact),
      ("rightId", .string conflict.subject.rightId),
      ("type", .string conflict.subject.type.text)] }

/-! ## Behavior conflicts -/

/-- The included facts of a Behavior. -/
def included (r : KnowledgeRecord) : List String :=
  match r.frontMatter.spec with
  | .behavior facts _ => facts
  | _ => []

/-- The excluded facts of a Behavior. -/
def excluded (r : KnowledgeRecord) : List String :=
  match r.frontMatter.spec with
  | .behavior _ facts => facts
  | _ => []

/-- A conflict found, with the records it was found between. -/
structure Finding where
  conflict : ConflictResult
  left : KnowledgeRecord
  right : KnowledgeRecord

/-- The facts of one Behavior in conflict with itself. -/
def selfFacts (left : KnowledgeRecord) : List String :=
  sortOn id ((included left).filter (· ∈ excluded left))

/-- The facts of two Behaviors in conflict, once for each direction. -/
def pairFacts (left right : KnowledgeRecord) : List (String × String) :=
  sortOn (fun p => nulJoin [p.1, p.2])
    (((included left).filter (· ∈ excluded right)).map (fun fact => (fact, fact))
      ++ ((excluded left).filter (· ∈ included right)).map fun fact => (fact, fact))

/-- The loops of `behaviorConflicts`: each record with itself and with every
later one. -/
def behaviorFindings : List KnowledgeRecord → List Finding
  | [] => []
  | left :: rest =>
    (selfFacts left).map (fun fact =>
      ⟨result .behaviorInclusionExclusion left fact left fact, left, left⟩)
      ++ rest.flatMap (fun right => (pairFacts left right).map fun p =>
        ⟨result .behaviorInclusionExclusion left p.1 right p.2, left, right⟩)
      ++ behaviorFindings rest

/-- The current Behaviors, in the order of their identities. -/
def behaviorsOf (currentRecords : List KnowledgeRecord) : List KnowledgeRecord :=
  sortOn (·.frontMatter.id) (currentRecords.filter (·.frontMatter.kind = .behavior))

/-- **`behaviorConflicts`.** -/
def behaviorConflicts (currentRecords : List KnowledgeRecord) :
    List ConflictResult × List Diagnostic :=
  let findings := behaviorFindings (behaviorsOf currentRecords)
  (findings.map (·.conflict), findings.map fun f => authorityConflict f.conflict f.left f.right)

/-! ## Declared conflicts -/

/-- `declarationFacts`. -/
def declarationFacts (r : KnowledgeRecord) : List String :=
  match r.frontMatter.spec with
  | .assurance limits => limits
  | .blueprint constraints => constraints
  | _ => []

/-- `mirrorOf`. -/
def mirrorOf (candidate : DeclaredConflict) (sourceId : String) (declaration : DeclaredConflict) :
    Bool :=
  decide (candidate.type = declaration.type) && decide (candidate.target = sourceId)
    && decide (candidate.localFact = declaration.targetFact)
    && decide (candidate.targetFact = declaration.localFact)

/-- The kind of record a declared conflict connects. -/
def DeclaredType.kind : DeclaredType → KnowledgeKind
  | .assuranceLimit => .assurance
  | .blueprintConstraint => .blueprint

/-- A declaration one of whose facts its record does not have. -/
def factDiagnostic (source : KnowledgeRecord) (d : DeclaredConflict) : List Diagnostic :=
  if d.localFact ∈ declarationFacts source then []
  else [{ stage := "conflicts"
          code := "lifecycle.knowledge.conflict-fact"
          message := s!"{source.frontMatter.id} conflict localFact is not an exact current "
            ++ s!"{d.type.conflict.text} fact"
          path := some source.path
          facts := [("localFact", .string d.localFact), ("target", .string d.target),
            ("type", .string d.type.conflict.text)] }]

/-- A declaration whose target is not current. -/
def targetMissing (source : KnowledgeRecord) (d : DeclaredConflict) : Diagnostic :=
  { stage := "conflicts"
    code := "lifecycle.knowledge.conflict-target-missing"
    message := s!"{source.frontMatter.id} conflict targets unavailable current record {d.target}"
    path := some source.path
    related := [d.target]
    facts := [("type", .string d.type.conflict.text)] }

/-- What is wrong with a declaration and its target. -/
def targetDiagnostics (source : KnowledgeRecord) (d : DeclaredConflict) (target : KnowledgeRecord) :
    List Diagnostic :=
  (if source.frontMatter.kind ≠ d.type.kind ∨ target.frontMatter.kind ≠ d.type.kind then
    [{ stage := "conflicts"
       code := "lifecycle.knowledge.conflict-kind"
       message := s!"{d.type.conflict.text} must connect two current {d.type.kind.text} records"
       path := some source.path
       related := [target.path]
       facts := [("sourceKind", .string source.frontMatter.kind.text),
         ("targetKind", .string target.frontMatter.kind.text)] }] else [])
  ++ (if d.targetFact ∈ declarationFacts target then []
    else [{ stage := "conflicts"
            code := "lifecycle.knowledge.conflict-fact"
            message := s!"{source.frontMatter.id} conflict targetFact is not an exact current "
              ++ s!"{d.type.conflict.text} fact on {target.frontMatter.id}"
            path := some source.path
            related := [target.path]
            facts := [("targetFact", .string d.targetFact),
              ("type", .string d.type.conflict.text)] }])
  ++ (if target.frontMatter.conflicts.any (mirrorOf · source.frontMatter.id d) then []
    else [{ stage := "conflicts"
            code := "lifecycle.knowledge.conflict-unilateral"
            message := s!"{source.frontMatter.id} conflict with {target.frontMatter.id} lacks "
              ++ "an exact reciprocal declaration"
            path := some source.path
            related := [target.path]
            facts := [("localFact", .string d.localFact), ("targetFact", .string d.targetFact),
              ("type", .string d.type.conflict.text)] }])

/-- What the loop over the declarations carries. -/
structure Declared where
  emitted : List String := []
  results : List ConflictResult := []
  diagnostics : List Diagnostic := []

/-- One declaration. -/
def declare (currentByIdentity : OrderedMap String KnowledgeRecord) (st : Declared)
    (entry : KnowledgeRecord × DeclaredConflict) : Declared :=
  let source := entry.1
  let d := entry.2
  match currentByIdentity.get d.target with
  | none => { st with diagnostics :=
      st.diagnostics ++ factDiagnostic source d ++ [targetMissing source d] }
  | some target =>
    let found := factDiagnostic source d ++ targetDiagnostics source d target
    if found.length > 0 then { st with diagnostics := st.diagnostics ++ found }
    else
      let conflict := result d.type.conflict source d.localFact target d.targetFact
      if conflictKey conflict ∈ st.emitted then st
      else { emitted := st.emitted ++ [conflictKey conflict]
             results := st.results ++ [conflict]
             diagnostics := st.diagnostics ++ [authorityConflict conflict source target] }

/-- The declarations in the order they are looked at. -/
def declarationsOf (currentRecords : List KnowledgeRecord) :
    List (KnowledgeRecord × DeclaredConflict) :=
  (sortOn (·.frontMatter.id) (currentRecords.filter (·.frontMatter.conflicts.length > 0))).flatMap
    fun source => source.frontMatter.conflicts.map fun d => (source, d)

/-- **`declaredConflicts`.** -/
def declaredConflicts (currentRecords : List KnowledgeRecord)
    (currentByIdentity : OrderedMap String KnowledgeRecord) :
    List ConflictResult × List Diagnostic :=
  let st := (declarationsOf currentRecords).foldl (declare currentByIdentity) {}
  (sortOn conflictKey st.results, st.diagnostics)

/-- **`detectKnowledgeConflicts`**: the conflicts, and what is reported on the
way. -/
def detectKnowledgeConflicts (currentRecords : List KnowledgeRecord)
    (currentByIdentity : OrderedMap String KnowledgeRecord) :
    List ConflictResult × List Diagnostic :=
  let behavior := behaviorConflicts currentRecords
  let declared := declaredConflicts currentRecords currentByIdentity
  (sortOn conflictKey (behavior.1 ++ declared.1), behavior.2 ++ declared.2)

/-! ## What is to be found -/

/-- **The current records**: one of each identity. -/
structure CurrentRecords where
  records : List KnowledgeRecord
  distinct : (records.map (·.frontMatter.id)).Nodup

/-- `currentByIdentity`. -/
def CurrentRecords.byIdentity (c : CurrentRecords) : OrderedMap String KnowledgeRecord :=
  ⟨c.records.map fun r => (r.frontMatter.id, r), by
    rw [List.map_map]
    exact c.distinct⟩

/-- The conflicts found in the current records. -/
def CurrentRecords.conflicts (c : CurrentRecords) : List ConflictResult :=
  (detectKnowledgeConflicts c.records c.byIdentity).1

/-- **A well-formed declaration**: both sides are of its kind, have its facts,
and the target declares the same conflict the other way. -/
structure Mutual (source : KnowledgeRecord) (d : DeclaredConflict) (target : KnowledgeRecord) :
    Prop where
  localFact : d.localFact ∈ declarationFacts source
  sourceKind : source.frontMatter.kind = d.type.kind
  targetKind : target.frontMatter.kind = d.type.kind
  targetFact : d.targetFact ∈ declarationFacts target
  mirrored : ∃ e ∈ target.frontMatter.conflicts, e.type = d.type
    ∧ e.target = source.frontMatter.id ∧ e.localFact = d.targetFact ∧ e.targetFact = d.localFact

/-- **What the records establish**: a fact one of them includes and the same or
another excludes, or a conflict two of them declare of each other. -/
inductive Established (records : List KnowledgeRecord) : ConflictResult → Prop
  | behavior {left right : KnowledgeRecord} {fact : String} :
    left ∈ records → right ∈ records → fact ∈ included left → fact ∈ excluded right →
    Established records (result .behaviorInclusionExclusion left fact right fact)
  | declared {source target : KnowledgeRecord} {d : DeclaredConflict} :
    source ∈ records → target ∈ records → d ∈ source.frontMatter.conflicts →
    target.frontMatter.id = d.target → Mutual source d target →
    Established records (result d.type.conflict source d.localFact target d.targetFact)

/-- The same record with its facts and declarations in another order. -/
structure Reordered (r r' : KnowledgeRecord) : Prop where
  path : r.path = r'.path
  id : r.frontMatter.id = r'.frontMatter.id
  revision : r.frontMatter.revision = r'.frontMatter.revision
  kind : r.frontMatter.kind = r'.frontMatter.kind
  included : (included r).Perm (included r')
  excluded : (excluded r).Perm (excluded r')
  declarationFacts : (declarationFacts r).Perm (declarationFacts r')
  conflicts : r.frontMatter.conflicts.Perm r'.frontMatter.conflicts

/-- The same records in another order, each with its facts and declarations in
another order. -/
def CurrentRecords.Reordered (c c' : CurrentRecords) : Prop :=
  (∀ r ∈ c.records, ∃ r' ∈ c'.records, Knowledge.Reordered r r')
    ∧ ∀ r' ∈ c'.records, ∃ r ∈ c.records, Knowledge.Reordered r r'

/-- **Conflicts are reported exactly.** -/
structure ConflictLaw (c : CurrentRecords) : Prop where
  exact : ∀ k, k ∈ c.conflicts ↔ Established c.records k
  nodup : c.conflicts.Nodup
  ordered : ∀ c' : CurrentRecords, c.Reordered c' → c'.conflicts = c.conflicts

/-- No fact is included and excluded by both of two records. -/
def NoFactTwice (c : CurrentRecords) : Prop :=
  ∀ left ∈ c.records, ∀ right ∈ c.records, left ≠ right → ∀ fact ∈ included left,
    fact ∈ excluded left → fact ∈ included right → fact ∉ excluded right

/-! ## Results and their keys -/

/-- The records of a set are told apart by their identities. -/
theorem CurrentRecords.eq_of_id_eq {c : CurrentRecords} {r r' : KnowledgeRecord}
    (hr : r ∈ c.records) (hr' : r' ∈ c.records) (h : r.frontMatter.id = r'.frontMatter.id) :
    r = r' :=
  List.inj_on_of_nodup_map c.distinct hr hr' h

theorem CurrentRecords.get_byIdentity {c : CurrentRecords} {id : String} {r : KnowledgeRecord} :
    c.byIdentity.get id = some r ↔ r ∈ c.records ∧ r.frontMatter.id = id := by
  rw [OrderedMap.get_eq_some_iff]
  simp only [CurrentRecords.byIdentity, List.mem_map, Prod.mk.injEq]
  constructor
  · rintro ⟨a, ha, rfl, rfl⟩
    exact ⟨ha, rfl⟩
  · rintro ⟨hr, rfl⟩
    exact ⟨r, hr, rfl, rfl⟩

/-- A result is over its two sides, in one order or the other. -/
theorem result_cases (type : ConflictType) (left : KnowledgeRecord) (leftFact : String)
    (right : KnowledgeRecord) (rightFact : String) :
    result type left leftFact right rightFact = sided type left leftFact right rightFact
      ∨ result type left leftFact right rightFact = sided type right rightFact left leftFact := by
  unfold result
  split
  · exact .inr rfl
  · exact .inl rfl

theorem codePointLe_total (a b : String) : codePointLe a b = true ∨ codePointLe b a = true :=
  lexLe_total _ _

/-- **The order in which the sides are given does not matter.** -/
theorem result_comm {type : ConflictType} {left right : KnowledgeRecord}
    {leftFact rightFact : String} (h : left.frontMatter.id = right.frontMatter.id → left = right) :
    result type left leftFact right rightFact = result type right rightFact left leftFact := by
  unfold result
  by_cases hid : left.frontMatter.id = right.frontMatter.id
  · obtain rfl := h hid
    have hrefl : codePointLe left.frontMatter.id left.frontMatter.id = true := lexLe_refl _
    simp only [hrefl, Bool.true_eq_false, false_or, true_and]
    split
    · next hfact =>
      have hother := (codePointLe_total leftFact rightFact).resolve_left (by simp [hfact])
      rw [if_neg (by simp [hother])]
    · next hfact =>
      rw [Bool.not_eq_false] at hfact
      split
      · rfl
      · next hother =>
        rw [Bool.not_eq_false] at hother
        rw [codePointLe_antisymm hfact hother]
  · simp only [hid, Ne.symm hid, false_and, or_false]
    split
    · next hle =>
      have hother := (codePointLe_total left.frontMatter.id right.frontMatter.id).resolve_left
        (by simp [hle])
      rw [if_neg (by simp [hother])]
    · next hle =>
      rw [Bool.not_eq_false] at hle
      split
      · rfl
      · next hother =>
        rw [Bool.not_eq_false] at hother
        exact absurd (codePointLe_antisymm hle hother) hid

/-- The two identities of a result. -/
theorem ids_result (type : ConflictType) (left : KnowledgeRecord) (leftFact : String)
    (right : KnowledgeRecord) (rightFact : String) :
    s((result type left leftFact right rightFact).subject.leftId,
      (result type left leftFact right rightFact).subject.rightId)
      = s(left.frontMatter.id, right.frontMatter.id) := by
  obtain h | h := result_cases type left leftFact right rightFact
  · rw [h]
    rfl
  · rw [h]
    exact Sym2.eq_swap

theorem type_result (type : ConflictType) (left : KnowledgeRecord) (leftFact : String)
    (right : KnowledgeRecord) (rightFact : String) :
    (result type left leftFact right rightFact).subject.type = type := by
  obtain h | h := result_cases type left leftFact right rightFact
  · rw [h]
    rfl
  · rw [h]
    rfl

/-- The one fact of a Behavior conflict. -/
theorem leftFact_result (type : ConflictType) (left right : KnowledgeRecord) (fact : String) :
    (result type left fact right fact).subject.leftFact = fact := by
  obtain h | h := result_cases type left fact right fact
  · rw [h]
    rfl
  · rw [h]
    rfl

/-- A result is of the sides it was made of: two records of the set and texts
without NULs. -/
def Sound (c : CurrentRecords) (k : ConflictResult) : Prop :=
  ∃ type, ∃ left ∈ c.records, ∃ leftFact, ∃ right ∈ c.records, ∃ rightFact,
    NulFreeText leftFact ∧ NulFreeText rightFact ∧ k = sided type left leftFact right rightFact

theorem sound_result {c : CurrentRecords} {type : ConflictType} {left right : KnowledgeRecord}
    {leftFact rightFact : String} (hl : left ∈ c.records) (hr : right ∈ c.records)
    (hlf : NulFreeText leftFact) (hrf : NulFreeText rightFact) :
    Sound c (result type left leftFact right rightFact) := by
  obtain h | h := result_cases type left leftFact right rightFact
  · exact ⟨type, left, hl, leftFact, right, hr, rightFact, hlf, hrf, h⟩
  · exact ⟨type, right, hr, rightFact, left, hl, leftFact, hrf, hlf, h⟩

theorem nulFree_paddedRevision (n : Nat) : NulFreeText (paddedRevision n) := by
  rw [NulFreeText, paddedRevision, String.toList_ofList, List.mem_append, not_or]
  refine ⟨fun h => absurd (List.eq_of_mem_replicate h) (by decide), fun h => ?_⟩
  exact absurd (Nat.isDigit_of_mem_toDigits (by omega) (by omega) (Nat.toList_repr ▸ h)) (by decide)

theorem nulFree_typeText (t : ConflictType) : NulFreeText t.text := by
  cases t <;> decide

theorem typeText_inj {t t' : ConflictType} (h : t.text = t'.text) : t = t' := by
  cases t <;> cases t' <;> first | rfl | exact absurd h (by decide)

/-- **A conflict's key determines it** among those of one set. -/
theorem conflictKey_inj {c : CurrentRecords} {k k' : ConflictResult} (hk : Sound c k)
    (hk' : Sound c k') (h : conflictKey k = conflictKey k') : k = k' := by
  obtain ⟨type, left, hl, lf, right, hr, rf, hlf, hrf, rfl⟩ := hk
  obtain ⟨type', left', hl', lf', right', hr', rf', hlf', hrf', rfl⟩ := hk'
  have hparts : ∀ (t : ConflictType) (l : KnowledgeRecord) (f : String) (r : KnowledgeRecord)
      (g : String), NulFreeText f → NulFreeText g → ∀ s ∈ [t.text, l.frontMatter.id,
        paddedRevision l.frontMatter.revision, f, r.frontMatter.id,
        paddedRevision r.frontMatter.revision, g], NulFreeText s := by
    intro t l f r g hf hg s hs
    simp only [List.mem_cons, List.not_mem_nil, or_false] at hs
    obtain rfl | rfl | rfl | rfl | rfl | rfl | rfl := hs
    · exact nulFree_typeText t
    · exact l.frontMatter.idText
    · exact nulFree_paddedRevision _
    · exact hf
    · exact r.frontMatter.idText
    · exact nulFree_paddedRevision _
    · exact hg
  have heq := nulJoin_inj (List.cons_ne_nil _ _) (List.cons_ne_nil _ _)
    (hparts type left lf right rf hlf hrf) (hparts type' left' lf' right' rf' hlf' hrf') h
  simp only [List.cons.injEq] at heq
  obtain ⟨htype, hleft, -, rfl, hright, -, rfl, -⟩ := heq
  rw [typeText_inj htype, c.eq_of_id_eq hl hl' hleft, c.eq_of_id_eq hr hr' hright]

/-! ## Behavior conflicts, found -/

theorem mem_selfFacts {left : KnowledgeRecord} {fact : String} :
    fact ∈ selfFacts left ↔ fact ∈ included left ∧ fact ∈ excluded left := by
  rw [selfFacts, mem_sortOn, List.mem_filter, decide_eq_true_eq]

theorem mem_pairFacts {left right : KnowledgeRecord} {a b : String} :
    (a, b) ∈ pairFacts left right ↔ b = a ∧ (a ∈ included left ∧ a ∈ excluded right
      ∨ a ∈ excluded left ∧ a ∈ included right) := by
  rw [pairFacts, mem_sortOn]
  simp only [List.mem_append, List.mem_map, List.mem_filter, decide_eq_true_eq, Prod.mk.injEq]
  constructor
  · rintro (⟨f, hf, rfl, rfl⟩ | ⟨f, hf, rfl, rfl⟩)
    · exact ⟨rfl, .inl hf⟩
    · exact ⟨rfl, .inr hf⟩
  · rintro ⟨rfl, hf | hf⟩
    · exact .inl ⟨_, hf, rfl, rfl⟩
    · exact .inr ⟨_, hf, rfl, rfl⟩

/-- A Behavior conflict between two records of a list. -/
def BehaviorConflict (records : List KnowledgeRecord) (k : ConflictResult) : Prop :=
  ∃ left ∈ records, ∃ right ∈ records, ∃ fact, fact ∈ included left ∧ fact ∈ excluded right
    ∧ k = result .behaviorInclusionExclusion left fact right fact

/-- The conflicts between a record and a later one. -/
theorem mem_pairConflicts {left right : KnowledgeRecord} {k : ConflictResult}
    (hne : left.frontMatter.id ≠ right.frontMatter.id) :
    (∃ p ∈ pairFacts left right,
      result .behaviorInclusionExclusion left p.1 right p.2 = k)
      ↔ ∃ fact, (fact ∈ included left ∧ fact ∈ excluded right
          ∧ k = result .behaviorInclusionExclusion left fact right fact)
        ∨ fact ∈ included right ∧ fact ∈ excluded left
          ∧ k = result .behaviorInclusionExclusion right fact left fact := by
  constructor
  · rintro ⟨⟨a, b⟩, hp, rfl⟩
    obtain ⟨rfl, ⟨hi, he⟩ | ⟨he, hi⟩⟩ := mem_pairFacts.mp hp
    · exact ⟨_, .inl ⟨hi, he, rfl⟩⟩
    · exact ⟨_, .inr ⟨hi, he, result_comm fun h => absurd h hne⟩⟩
  · rintro ⟨fact, ⟨hi, he, rfl⟩ | ⟨hi, he, rfl⟩⟩
    · exact ⟨(fact, fact), mem_pairFacts.mpr ⟨rfl, .inl ⟨hi, he⟩⟩, rfl⟩
    · exact ⟨(fact, fact), mem_pairFacts.mpr ⟨rfl, .inr ⟨he, hi⟩⟩,
        result_comm fun h => absurd h hne⟩

/-- **The loops find every Behavior conflict**, and nothing else. -/
theorem mem_behaviorFindings {bs : List KnowledgeRecord}
    (hdistinct : (bs.map (·.frontMatter.id)).Nodup) {k : ConflictResult} :
    k ∈ (behaviorFindings bs).map (·.conflict) ↔ BehaviorConflict bs k := by
  induction bs with
  | nil =>
    refine ⟨fun h => absurd h List.not_mem_nil, ?_⟩
    rintro ⟨_, h, _⟩
    exact absurd h List.not_mem_nil
  | cons left rest ih =>
    obtain ⟨hfresh, hrest⟩ := List.nodup_cons.mp hdistinct
    have hne : ∀ right ∈ rest, left.frontMatter.id ≠ right.frontMatter.id := fun right hright h =>
      hfresh (List.mem_map.mpr ⟨right, hright, h.symm⟩)
    rw [behaviorFindings, List.map_append, List.map_append, List.mem_append, List.mem_append,
      ih hrest, List.map_map, List.map_flatMap]
    simp only [List.mem_map, List.mem_flatMap, Function.comp_apply, List.map_map]
    constructor
    · rintro ((⟨fact, hfact, rfl⟩ | ⟨right, hright, hk⟩) | ⟨a, ha, b, hb, fact, hk⟩)
      · obtain ⟨hi, he⟩ := mem_selfFacts.mp hfact
        exact ⟨left, List.mem_cons_self, left, List.mem_cons_self, fact, hi, he, rfl⟩
      · have hr := List.mem_cons_of_mem left hright
        obtain ⟨fact, ⟨hi, he, rfl⟩ | ⟨hi, he, rfl⟩⟩ := (mem_pairConflicts (hne right hright)).mp hk
        · exact ⟨left, List.mem_cons_self, right, hr, fact, hi, he, rfl⟩
        · exact ⟨right, hr, left, List.mem_cons_self, fact, hi, he, rfl⟩
      · exact ⟨a, List.mem_cons_of_mem left ha, b, List.mem_cons_of_mem left hb, fact, hk⟩
    · rintro ⟨a, ha, b, hb, fact, hi, he, rfl⟩
      obtain hal | har := List.mem_cons.mp ha
      · obtain hbl | hbr := List.mem_cons.mp hb
        · rw [hal] at hi ⊢
          rw [hbl] at he ⊢
          exact .inl (.inl ⟨fact, mem_selfFacts.mpr ⟨hi, he⟩, rfl⟩)
        · rw [hal] at hi ⊢
          exact .inl (.inr ⟨b, hbr, (mem_pairConflicts (hne b hbr)).mpr ⟨fact, .inl ⟨hi, he, rfl⟩⟩⟩)
      · obtain hbl | hbr := List.mem_cons.mp hb
        · rw [hbl] at he ⊢
          exact .inl (.inr ⟨a, har, (mem_pairConflicts (hne a har)).mpr ⟨fact, .inr ⟨hi, he, rfl⟩⟩⟩)
        · exact .inr ⟨a, har, b, hbr, fact, hi, he, rfl⟩

theorem nodup_included (r : KnowledgeRecord) : (included r).Nodup := by
  have h := r.frontMatter.uniqueFacts
  unfold included
  split
  · next hspec =>
    rw [hspec] at h
    exact h _ (by simp [KnowledgeSpec.factLists])
  · exact List.nodup_nil

theorem nodup_excluded (r : KnowledgeRecord) : (excluded r).Nodup := by
  have h := r.frontMatter.uniqueFacts
  unfold excluded
  split
  · next hspec =>
    rw [hspec] at h
    exact h _ (by simp [KnowledgeSpec.factLists])
  · exact List.nodup_nil

/-- The conflicts of a pair come out once each exactly when no fact is on all
four sides. -/
theorem nodup_pairConflicts_iff {left right : KnowledgeRecord} :
    ((pairFacts left right).map fun p =>
        result .behaviorInclusionExclusion left p.1 right p.2).Nodup
      ↔ ∀ fact ∈ included left, fact ∈ excluded left → fact ∈ included right →
        fact ∉ excluded right := by
  have hfacts : ((pairFacts left right).map fun p =>
        result .behaviorInclusionExclusion left p.1 right p.2).Nodup
      ↔ (pairFacts left right).Nodup := by
    refine ⟨fun h => h.of_map _, fun h => h.map_on fun p hp q hq h => ?_⟩
    obtain ⟨a, b⟩ := p
    obtain ⟨c, d⟩ := q
    obtain rfl := (mem_pairFacts.mp hp).1
    obtain rfl := (mem_pairFacts.mp hq).1
    have hfact := congrArg (fun k : ConflictResult => k.subject.leftFact) h
    simp only [leftFact_result] at hfact
    rw [hfact]
  have hpair : Function.Injective fun fact : String => (fact, fact) := fun a b h =>
    (Prod.mk.inj h).1
  rw [hfacts, pairFacts, (perm_sortOn _ _).nodup_iff, List.nodup_append,
    List.nodup_map_iff hpair, List.nodup_map_iff hpair]
  constructor
  · rintro ⟨-, -, hdisjoint⟩ fact hil hel hir her
    refine hdisjoint (fact, fact) (List.mem_map_of_mem ?_) (fact, fact) (List.mem_map_of_mem ?_) rfl
    · exact List.mem_filter.mpr ⟨hil, by simpa using her⟩
    · exact List.mem_filter.mpr ⟨hel, by simpa using hir⟩
  · intro h
    refine ⟨(nodup_included left).filter _, (nodup_excluded left).filter _, ?_⟩
    rintro p hp q hq rfl
    obtain ⟨f, hf, rfl⟩ := List.mem_map.mp hp
    obtain ⟨g, hg, hgf⟩ := List.mem_map.mp hq
    obtain rfl := (Prod.mk.inj hgf).1
    simp only [List.mem_filter, decide_eq_true_eq] at hf hg
    exact h g hf.1 hg.1 hg.2 hf.2

/-- **Behavior conflicts come out once each** exactly when no two records have
a fact on all four sides. -/
theorem nodup_behaviorFindings_iff {bs : List KnowledgeRecord}
    (hdistinct : (bs.map (·.frontMatter.id)).Nodup) :
    ((behaviorFindings bs).map (·.conflict)).Nodup
      ↔ bs.Pairwise fun left right => ∀ fact ∈ included left, fact ∈ excluded left →
        fact ∈ included right → fact ∉ excluded right := by
  induction bs with
  | nil => simp [behaviorFindings]
  | cons left rest ih =>
    obtain ⟨hfresh, hrest⟩ := List.nodup_cons.mp hdistinct
    have hne : ∀ right ∈ rest, left.frontMatter.id ≠ right.frontMatter.id := fun right hright h =>
      hfresh (List.mem_map.mpr ⟨right, hright, h.symm⟩)
    have hself : ((selfFacts left).map fun fact =>
        result .behaviorInclusionExclusion left fact left fact).Nodup := by
      refine List.Nodup.map_on (fun a _ b _ h => ?_)
        ((perm_sortOn _ _).nodup_iff.mpr ((nodup_included left).filter _))
      have hfact := congrArg (fun k : ConflictResult => k.subject.leftFact) h
      simpa only [leftFact_result] using hfact
    rw [behaviorFindings, List.map_append, List.map_append, List.map_map, List.map_flatMap,
      List.nodup_append, List.nodup_append, ih hrest, List.pairwise_cons, List.nodup_flatMap]
    simp only [List.map_map, Function.comp_def, nodup_pairConflicts_iff]
    constructor
    · rintro ⟨⟨-, ⟨hpairs, -⟩, -⟩, hlater, -⟩
      exact ⟨hpairs, hlater⟩
    · rintro ⟨hpairs, hlater⟩
      refine ⟨⟨hself, ⟨hpairs, ?_⟩, ?_⟩, hlater, ?_⟩
      · -- conflicts with different later records have different identities
        have hids : rest.Pairwise fun a b => a.frontMatter.id ≠ b.frontMatter.id :=
          List.pairwise_map.mp hrest
        refine hids.imp fun {a b} hab => ?_
        refine List.disjoint_left.mpr fun k hka hkb => ?_
        obtain ⟨p, -, rfl⟩ := List.mem_map.mp hka
        obtain ⟨q, -, hq⟩ := List.mem_map.mp hkb
        have h := ids_result .behaviorInclusionExclusion left p.1 a p.2
        rw [← hq, ids_result] at h
        exact hab (Sym2.congr_right.mp h).symm
      · rintro k hk k' hk' rfl
        obtain ⟨fact, -, rfl⟩ := List.mem_map.mp hk
        obtain ⟨right, hright, hk'⟩ := List.mem_flatMap.mp hk'
        obtain ⟨p, -, hp⟩ := List.mem_map.mp hk'
        have h := ids_result .behaviorInclusionExclusion left fact left fact
        rw [← hp, ids_result] at h
        exact hne right hright (Sym2.congr_right.mp h).symm
      · rintro k hk k' hk' rfl
        have hleft : left.frontMatter.id ∈ s(k.subject.leftId, k.subject.rightId) := by
          obtain hk | hk := List.mem_append.mp hk
          · obtain ⟨fact, -, rfl⟩ := List.mem_map.mp hk
            rw [ids_result]
            exact Sym2.mem_mk_left _ _
          · obtain ⟨right, -, hk⟩ := List.mem_flatMap.mp hk
            obtain ⟨p, -, rfl⟩ := List.mem_map.mp hk
            rw [ids_result]
            exact Sym2.mem_mk_left _ _
        obtain ⟨a, ha, b, hb, fact, -, -, rfl⟩ := (mem_behaviorFindings hrest).mp hk'
        rw [ids_result] at hleft
        obtain h | h := Sym2.mem_iff.mp hleft
        · exact hne a ha h
        · exact hne b hb h

/-! ## Declared conflicts, found -/

/-- Nothing is wrong with a declaration exactly when it is well formed. -/
theorem diagnostics_eq_nil_iff {source target : KnowledgeRecord} {d : DeclaredConflict} :
    ¬ (factDiagnostic source d ++ targetDiagnostics source d target).length > 0
      ↔ Mutual source d target := by
  have hmirror : target.frontMatter.conflicts.any (mirrorOf · source.frontMatter.id d) = true
      ↔ ∃ e ∈ target.frontMatter.conflicts, e.type = d.type ∧ e.target = source.frontMatter.id
        ∧ e.localFact = d.targetFact ∧ e.targetFact = d.localFact := by
    simp only [List.any_eq_true, mirrorOf, Bool.and_eq_true, decide_eq_true_eq, and_assoc]
  rw [gt_iff_lt, Nat.not_lt, Nat.le_zero, List.length_eq_zero_iff, List.append_eq_nil_iff]
  simp only [factDiagnostic, targetDiagnostics, List.append_eq_nil_iff, ite_eq_left_iff,
    ite_eq_right_iff, List.cons_ne_nil, imp_false, not_not, not_or]
  constructor
  · rintro ⟨hlocal, ⟨⟨hsource, htarget⟩, hfact⟩, hany⟩
    exact ⟨hlocal, hsource, htarget, hfact, hmirror.mp hany⟩
  · intro h
    exact ⟨h.localFact, ⟨⟨h.sourceKind, h.targetKind⟩, h.targetFact⟩, hmirror.mpr h.mirrored⟩

/-- A conflict a declaration establishes. -/
def FoundAt (currentByIdentity : OrderedMap String KnowledgeRecord)
    (entry : KnowledgeRecord × DeclaredConflict) (k : ConflictResult) : Prop :=
  ∃ target, currentByIdentity.get entry.2.target = some target ∧ Mutual entry.1 entry.2 target
    ∧ k = result entry.2.type.conflict entry.1 entry.2.localFact target entry.2.targetFact

/-- **What the loop carries after some declarations**: each conflict they
establish, once. -/
structure DeclaredSoFar (currentByIdentity : OrderedMap String KnowledgeRecord)
    (entries : List (KnowledgeRecord × DeclaredConflict)) (st : Declared) : Prop where
  emitted : st.emitted = st.results.map conflictKey
  nodup : st.emitted.Nodup
  mem : ∀ k, k ∈ st.results ↔ ∃ e ∈ entries, FoundAt currentByIdentity e k

theorem nulFree_declarationFacts {r : KnowledgeRecord} {fact : String}
    (h : fact ∈ declarationFacts r) : NulFreeText fact := by
  have htexts := r.frontMatter.factTexts
  unfold declarationFacts at h
  split at h
  · next hspec =>
    rw [hspec] at htexts
    exact htexts _ (by simp [KnowledgeSpec.factLists]) fact h
  · next hspec =>
    rw [hspec] at htexts
    exact htexts _ (by simp [KnowledgeSpec.factLists]) fact h
  · exact absurd h List.not_mem_nil

theorem nulFree_included {r : KnowledgeRecord} {fact : String} (h : fact ∈ included r) :
    NulFreeText fact := by
  have htexts := r.frontMatter.factTexts
  unfold included at h
  split at h
  · next hspec =>
    rw [hspec] at htexts
    exact htexts _ (by simp [KnowledgeSpec.factLists]) fact h
  · exact absurd h List.not_mem_nil

theorem sound_of_foundAt {c : CurrentRecords} {e : KnowledgeRecord × DeclaredConflict}
    {k : ConflictResult} (he : e.1 ∈ c.records) (h : FoundAt c.byIdentity e k) : Sound c k := by
  obtain ⟨target, htarget, hmutual, rfl⟩ := h
  exact sound_result he (CurrentRecords.get_byIdentity.mp htarget).1
    (nulFree_declarationFacts hmutual.localFact) (nulFree_declarationFacts hmutual.targetFact)

/-- **One declaration more.** -/
theorem DeclaredSoFar.declare {c : CurrentRecords}
    {entries : List (KnowledgeRecord × DeclaredConflict)}
    {e : KnowledgeRecord × DeclaredConflict} {st : Declared}
    (hentries : ∀ d ∈ entries, d.1 ∈ c.records) (he : e.1 ∈ c.records)
    (h : DeclaredSoFar c.byIdentity entries st) :
    DeclaredSoFar c.byIdentity (entries ++ [e]) (declare c.byIdentity st e) := by
  have hsplit : ∀ k, (∃ d ∈ entries ++ [e], FoundAt c.byIdentity d k)
      ↔ (∃ d ∈ entries, FoundAt c.byIdentity d k) ∨ FoundAt c.byIdentity e k := by
    intro k
    simp only [List.mem_append, List.mem_singleton, or_and_right, exists_or, exists_eq_left]
  have hkeep : ∀ {st' : Declared}, st'.emitted = st.emitted → st'.results = st.results →
      (∀ k, ¬ FoundAt c.byIdentity e k) → DeclaredSoFar c.byIdentity (entries ++ [e]) st' := by
    intro st' hemitted hresults hnone
    refine ⟨by rw [hemitted, hresults, h.emitted], by rw [hemitted]; exact h.nodup, fun k => ?_⟩
    rw [hresults, h.mem k, hsplit k]
    exact ⟨.inl, fun hk => hk.resolve_right (hnone k)⟩
  unfold Knowledge.declare
  simp only
  split
  · next hnone =>
    refine hkeep rfl rfl fun k hk => ?_
    obtain ⟨target, htarget, -⟩ := hk
    rw [hnone] at htarget
    cases htarget
  · next target htarget =>
    have hfound : ∀ k, FoundAt c.byIdentity e k ↔ Mutual e.1 e.2 target
        ∧ k = result e.2.type.conflict e.1 e.2.localFact target e.2.targetFact := by
      intro k
      constructor
      · rintro ⟨t, ht, hk⟩
        rw [htarget] at ht
        obtain rfl := Option.some.inj ht
        exact hk
      · exact fun hk => ⟨target, htarget, hk⟩
    split
    · next hwrong =>
      refine hkeep rfl rfl fun k hk => ?_
      exact absurd hwrong (diagnostics_eq_nil_iff.mpr ((hfound k).mp hk).1)
    · next hright =>
      have hmutual := diagnostics_eq_nil_iff.mp hright
      have hat := (hfound _).mpr ⟨hmutual, rfl⟩
      split
      · next hemitted =>
        -- the same key is that of a conflict already kept
        refine ⟨h.emitted, h.nodup, fun k => ?_⟩
        rw [h.mem k, hsplit k]
        refine ⟨.inl, fun hk => hk.elim id fun hk => ?_⟩
        rw [((hfound k).mp hk).2]
        rw [h.emitted] at hemitted
        obtain ⟨k', hk', hkey⟩ := List.mem_map.mp hemitted
        obtain ⟨d, hd, hfoundd⟩ := (h.mem k').mp hk'
        rw [← conflictKey_inj (sound_of_foundAt (hentries d hd) hfoundd)
          (sound_of_foundAt he hat) hkey]
        exact ⟨d, hd, hfoundd⟩
      · next hemitted =>
        refine ⟨by rw [h.emitted, List.map_append]; rfl, ?_, fun k => ?_⟩
        · rw [List.nodup_append]
          refine ⟨h.nodup, List.nodup_singleton _, fun a ha b hb hab => ?_⟩
          rw [List.mem_singleton.mp hb] at hab
          exact hemitted (hab ▸ ha)
        · rw [List.mem_append, List.mem_singleton, h.mem k, hsplit k, hfound k]
          exact or_congr_right ⟨fun hk => ⟨hmutual, hk⟩, And.right⟩

theorem declaredSoFar_foldl {c : CurrentRecords} :
    ∀ entries : List (KnowledgeRecord × DeclaredConflict), (∀ d ∈ entries, d.1 ∈ c.records) →
      DeclaredSoFar c.byIdentity entries (entries.foldl (Knowledge.declare c.byIdentity) {}) := by
  intro entries
  induction entries using List.reverseRecOn with
  | nil =>
    intro _
    refine ⟨rfl, List.nodup_nil, fun k => ⟨fun hk => absurd hk List.not_mem_nil, ?_⟩⟩
    rintro ⟨d, hd, -⟩
    exact absurd hd List.not_mem_nil
  | append_singleton entries e ih =>
    intro hentries
    rw [List.foldl_append]
    have hfront : ∀ d ∈ entries, d.1 ∈ c.records := fun d hd =>
      hentries d (List.mem_append_left _ hd)
    exact (ih hfront).declare hfront (hentries e (List.mem_append_right _ List.mem_cons_self))

theorem mem_declarationsOf {records : List KnowledgeRecord}
    {e : KnowledgeRecord × DeclaredConflict} :
    e ∈ declarationsOf records ↔ e.1 ∈ records ∧ e.2 ∈ e.1.frontMatter.conflicts := by
  obtain ⟨source, d⟩ := e
  simp only [declarationsOf, List.mem_flatMap, mem_sortOn, List.mem_filter, List.mem_map,
    Prod.mk.injEq, decide_eq_true_eq]
  constructor
  · rintro ⟨_, ⟨hr, -⟩, _, hd, rfl, rfl⟩
    exact ⟨hr, hd⟩
  · rintro ⟨hr, hd⟩
    exact ⟨source, ⟨hr, List.length_pos_of_mem hd⟩, d, hd, rfl, rfl⟩

/-- **A declared conflict is found exactly when it is established.** -/
theorem mem_declaredConflicts {c : CurrentRecords} {k : ConflictResult} :
    k ∈ (declaredConflicts c.records c.byIdentity).1
      ↔ ∃ source ∈ c.records, ∃ target ∈ c.records, ∃ d ∈ source.frontMatter.conflicts,
        target.frontMatter.id = d.target ∧ Mutual source d target
          ∧ k = result d.type.conflict source d.localFact target d.targetFact := by
  have hloop := declaredSoFar_foldl (c := c) (declarationsOf c.records) fun e he =>
    (mem_declarationsOf.mp he).1
  rw [declaredConflicts, mem_sortOn, hloop.mem k]
  constructor
  · rintro ⟨e, he, target, htarget, hmutual, rfl⟩
    obtain ⟨hr, hd⟩ := mem_declarationsOf.mp he
    obtain ⟨ht, hid⟩ := CurrentRecords.get_byIdentity.mp htarget
    exact ⟨e.1, hr, target, ht, e.2, hd, hid, hmutual, rfl⟩
  · rintro ⟨source, hr, target, ht, d, hd, hid, hmutual, rfl⟩
    exact ⟨(source, d), mem_declarationsOf.mpr ⟨hr, hd⟩, target,
      CurrentRecords.get_byIdentity.mpr ⟨ht, hid⟩, hmutual, rfl⟩

theorem nodup_declaredConflicts (c : CurrentRecords) :
    (declaredConflicts c.records c.byIdentity).1.Nodup := by
  have hloop := declaredSoFar_foldl (c := c) (declarationsOf c.records) fun e he =>
    (mem_declarationsOf.mp he).1
  rw [declaredConflicts, (perm_sortOn _ _).nodup_iff]
  refine List.Nodup.of_map conflictKey ?_
  rw [← hloop.emitted]
  exact hloop.nodup

/-! ## The law -/

/-- The Behaviors in order are told apart by their identities. -/
theorem distinct_behaviorsOf (c : CurrentRecords) :
    ((behaviorsOf c.records).map (·.frontMatter.id)).Nodup := by
  rw [behaviorsOf, ((perm_sortOn _ _).map _).nodup_iff]
  exact c.distinct.sublist (List.filter_sublist.map _)

theorem mem_behaviorsOf {records : List KnowledgeRecord} {r : KnowledgeRecord} :
    r ∈ behaviorsOf records ↔ r ∈ records ∧ r.frontMatter.kind = .behavior := by
  rw [behaviorsOf, mem_sortOn, List.mem_filter, decide_eq_true_eq]

theorem kind_of_mem_included {r : KnowledgeRecord} {fact : String} (h : fact ∈ included r) :
    r.frontMatter.kind = .behavior := by
  unfold included at h
  split at h
  · next hspec => rw [FrontMatter.kind, hspec, KnowledgeSpec.kind]
  · exact absurd h List.not_mem_nil

theorem kind_of_mem_excluded {r : KnowledgeRecord} {fact : String} (h : fact ∈ excluded r) :
    r.frontMatter.kind = .behavior := by
  unfold excluded at h
  split at h
  · next hspec => rw [FrontMatter.kind, hspec, KnowledgeSpec.kind]
  · exact absurd h List.not_mem_nil

/-- **Exactly what is established is reported.** -/
theorem mem_conflicts_iff (c : CurrentRecords) (k : ConflictResult) :
    k ∈ c.conflicts ↔ Established c.records k := by
  rw [CurrentRecords.conflicts, detectKnowledgeConflicts, mem_sortOn, List.mem_append,
    mem_declaredConflicts, behaviorConflicts, mem_behaviorFindings (distinct_behaviorsOf c)]
  constructor
  · rintro (⟨left, hl, right, hr, fact, hi, he, rfl⟩ | ⟨s, hs, t, ht, d, hd, hid, hmutual, rfl⟩)
    · exact .behavior (mem_behaviorsOf.mp hl).1 (mem_behaviorsOf.mp hr).1 hi he
    · exact .declared hs ht hd hid hmutual
  · rintro (⟨hl, hr, hi, he⟩ | ⟨hs, ht, hd, hid, hmutual⟩)
    · exact .inl ⟨_, mem_behaviorsOf.mpr ⟨hl, kind_of_mem_included hi⟩, _,
        mem_behaviorsOf.mpr ⟨hr, kind_of_mem_excluded he⟩, _, hi, he, rfl⟩
    · exact .inr ⟨_, hs, _, ht, _, hd, hid, hmutual, rfl⟩

/-- The sides of a pair may be taken in either order. -/
theorem noFactTwice_iff (c : CurrentRecords) : NoFactTwice c
    ↔ (behaviorsOf c.records).Pairwise fun left right => ∀ fact ∈ included left,
      fact ∈ excluded left → fact ∈ included right → fact ∉ excluded right := by
  constructor
  · intro h
    have hids := List.pairwise_map.mp (distinct_behaviorsOf c)
    refine hids.imp_of_mem fun {left right} hl hr hne => ?_
    exact h left (mem_behaviorsOf.mp hl).1 right (mem_behaviorsOf.mp hr).1
      fun heq => hne (by rw [heq])
  · intro h left hl right hr hne fact hil hel hir her
    have : Std.Symm fun left right : KnowledgeRecord => ∀ fact ∈ included left,
        fact ∈ excluded left → fact ∈ included right → fact ∉ excluded right :=
      ⟨fun a b hab fact hib heb hia hea => hab fact hia hea hib heb⟩
    exact h.forall (mem_behaviorsOf.mpr ⟨hl, kind_of_mem_included hil⟩)
      (mem_behaviorsOf.mpr ⟨hr, kind_of_mem_included hir⟩) hne fact hil hel hir her

theorem nodup_conflicts_iff (c : CurrentRecords) : c.conflicts.Nodup ↔ NoFactTwice c := by
  rw [CurrentRecords.conflicts, detectKnowledgeConflicts, (perm_sortOn _ _).nodup_iff,
    List.nodup_append, behaviorConflicts, nodup_behaviorFindings_iff (distinct_behaviorsOf c),
    ← noFactTwice_iff]
  refine ⟨And.left, fun h => ⟨h, nodup_declaredConflicts c, ?_⟩⟩
  rintro k hk k' hk' rfl
  obtain ⟨left, -, right, -, fact, -, -, rfl⟩ :=
    (mem_behaviorFindings (distinct_behaviorsOf c)).mp hk
  obtain ⟨s, -, t, -, d, -, -, -, h⟩ := mem_declaredConflicts.mp hk'
  have htype := congrArg (fun k : ConflictResult => k.subject.type) h
  simp only [type_result] at htype
  cases hd : d.type <;> rw [hd] at htype <;> cases htype

/-- What a result is made of is read of its sides. -/
theorem result_congr {type : ConflictType} {left right left' right' : KnowledgeRecord}
    {leftFact rightFact : String} (hl : Reordered left left') (hr : Reordered right right') :
    result type left leftFact right rightFact = result type left' leftFact right' rightFact := by
  simp only [result, sided, hl.id, hl.revision, hr.id, hr.revision]

theorem Mutual.reordered {source target source' target' : KnowledgeRecord} {d : DeclaredConflict}
    (h : Mutual source d target) (hs : Reordered source source') (ht : Reordered target target') :
    Mutual source' d target' := by
  refine ⟨hs.declarationFacts.mem_iff.mp h.localFact, hs.kind ▸ h.sourceKind,
    ht.kind ▸ h.targetKind, ht.declarationFacts.mem_iff.mp h.targetFact, ?_⟩
  obtain ⟨e, he, htype, htarget, hfacts⟩ := h.mirrored
  exact ⟨e, ht.conflicts.mem_iff.mp he, htype, htarget.trans hs.id, hfacts⟩

theorem Established.reordered {records records' : List KnowledgeRecord} {k : ConflictResult}
    (hrecords : ∀ r ∈ records, ∃ r' ∈ records', Reordered r r') (h : Established records k) :
    Established records' k := by
  cases h with
  | behavior hl hr hi he =>
    obtain ⟨left', hl', hleft⟩ := hrecords _ hl
    obtain ⟨right', hr', hright⟩ := hrecords _ hr
    rw [result_congr hleft hright]
    exact .behavior hl' hr' (hleft.included.mem_iff.mp hi) (hright.excluded.mem_iff.mp he)
  | declared hs ht hd hid hmutual =>
    obtain ⟨source', hs', hsource⟩ := hrecords _ hs
    obtain ⟨target', ht', htarget⟩ := hrecords _ ht
    rw [result_congr hsource htarget]
    exact .declared hs' ht' (hsource.conflicts.mem_iff.mp hd) (htarget.id ▸ hid)
      (hmutual.reordered hsource htarget)

theorem Reordered.symm {r r' : KnowledgeRecord} (h : Reordered r r') : Reordered r' r :=
  ⟨h.path.symm, h.id.symm, h.revision.symm, h.kind.symm, h.included.symm, h.excluded.symm,
    h.declarationFacts.symm, h.conflicts.symm⟩

theorem CurrentRecords.Reordered.symm {c c' : CurrentRecords} (h : c.Reordered c') :
    c'.Reordered c :=
  ⟨fun r hr => (h.2 r hr).imp fun _ hr' => ⟨hr'.1, hr'.2.symm⟩,
    fun r hr => (h.1 r hr).imp fun _ hr' => ⟨hr'.1, hr'.2.symm⟩⟩

theorem NoFactTwice.reordered {c c' : CurrentRecords} (h : NoFactTwice c)
    (hc : c.Reordered c') : NoFactTwice c' := by
  intro left hl right hr hne fact hil hel hir her
  obtain ⟨left', hl', hleft⟩ := hc.2 left hl
  obtain ⟨right', hr', hright⟩ := hc.2 right hr
  refine h left' hl' right' hr' (fun heq => hne ?_) fact (hleft.included.mem_iff.mpr hil)
    (hleft.excluded.mem_iff.mpr hel) (hright.included.mem_iff.mpr hir)
    (hright.excluded.mem_iff.mpr her)
  refine c'.eq_of_id_eq hl hr ?_
  rw [← hleft.id, ← hright.id, heq]

theorem sound_of_established {c : CurrentRecords} {k : ConflictResult}
    (h : Established c.records k) : Sound c k := by
  cases h with
  | behavior hl hr hi he =>
    exact sound_result hl hr (nulFree_included hi) (nulFree_included hi)
  | declared hs ht hd hid hmutual =>
    exact sound_result hs ht (nulFree_declarationFacts hmutual.localFact)
      (nulFree_declarationFacts hmutual.targetFact)

/-- **Sorted again, the list is the same.** -/
theorem sortOn_conflicts (c : CurrentRecords) : sortOn conflictKey c.conflicts = c.conflicts :=
  Comparison.sortWith_sortWith (codePoint.comap conflictKey) _

/-- **Conflicts are reported exactly when no fact is on all four sides** of two
records. -/
theorem conflictLaw_iff (c : CurrentRecords) : ConflictLaw c ↔ NoFactTwice c := by
  refine ⟨fun h => (nodup_conflicts_iff c).mp h.nodup, fun h => ?_⟩
  refine ⟨mem_conflicts_iff c, (nodup_conflicts_iff c).mpr h, fun c' hc => ?_⟩
  have hmem : ∀ k, k ∈ c'.conflicts ↔ k ∈ c.conflicts := by
    intro k
    rw [mem_conflicts_iff, mem_conflicts_iff]
    exact ⟨Established.reordered hc.symm.1, Established.reordered hc.1⟩
  have hperm : c'.conflicts.Perm c.conflicts :=
    (List.perm_ext_iff_of_nodup ((nodup_conflicts_iff c').mpr (h.reordered hc))
      ((nodup_conflicts_iff c).mpr h)).mpr hmem
  rw [← sortOn_conflicts c', ← sortOn_conflicts c]
  refine sortOn_eq_of_perm hperm fun k hk k' hk' hkey => ?_
  exact conflictKey_inj (sound_of_established ((mem_conflicts_iff c' k).mp hk))
    (sound_of_established ((mem_conflicts_iff c' k').mp hk')) hkey

/-- A Behavior that both includes and excludes the one fact. -/
def contraryBehavior (id : String) (idKind : "behavior.".toList <+: id.toList)
    (idText : NulFreeText id) : KnowledgeRecord :=
  { path := "records/behavior/" ++ id ++ ".md"
    frontMatter :=
      { id := id
        status := .current
        revision := 1
        supersedes := none
        conflicts := []
        spec := .behavior ["accept"] ["accept"]
        idKind := idKind
        revisionRange := firstRevision_inRange
        idText := idText
        factTexts := by decide
        uniqueFacts := by decide }
    sourceDigest := ""
    semanticDigest := "" }

/-- Two such Behaviors. -/
def contraryRecords : CurrentRecords where
  records := [contraryBehavior "behavior.left" (by decide) (by decide),
    contraryBehavior "behavior.right" (by decide) (by decide)]
  distinct := by decide

/-- **The fact both include and both exclude is reported twice.** -/
theorem not_conflictLaw_contrary : ¬ ConflictLaw contraryRecords := by
  intro h
  have htwice := (nodup_conflicts_iff contraryRecords).mp h.nodup
  exact htwice (contraryBehavior "behavior.left" (by decide) (by decide)) List.mem_cons_self
    (contraryBehavior "behavior.right" (by decide) (by decide))
    (List.mem_cons_of_mem _ List.mem_cons_self) (by decide) "accept" List.mem_cons_self
    List.mem_cons_self List.mem_cons_self List.mem_cons_self

end Knowledge
