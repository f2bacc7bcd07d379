import Lifecycle.KnowledgeModel
import Mathlib.Data.List.Induction
import Mathlib.Data.List.Range

/-!
# Revision histories

`buildRevisionIndexes` orders the records of each identity by revision and
reports every gap, every predecessor that is not bound exactly, a second
current revision, and a revision behind the current one that is no draft. A
history nothing is reported about is a chain of exact predecessors with one
current revision at most (`historyLaw_of_quiet`). Statuses are compared for
adjacent revisions only: what stands directly before the current revision is
superseded, what stands before that need not be.
-/

open Json ControlModel SortedBy Comparison

namespace Knowledge

/-! ## Orders and keys -/

/-- `recordIdentityRevision`. -/
def recordIdentityRevision (record : KnowledgeRecord) : String :=
  record.frontMatter.id ++ "@" ++ toString record.frontMatter.revision

/-- The order of the revisions of one identity. -/
def revisionLe : KnowledgeRecord → KnowledgeRecord → Bool :=
  thenBy (fun a b => Nat.ble a.frontMatter.revision b.frontMatter.revision)
    fun a b => codePointLe a.path b.path

/-- `compareKnowledgeRecords`. -/
def knowledgeLe : KnowledgeRecord → KnowledgeRecord → Bool :=
  thenBy (fun a b => Nat.ble a.frontMatter.kind.order b.frontMatter.kind.order)
    (thenBy (fun a b => codePointLe a.frontMatter.id b.frontMatter.id)
      (thenBy (fun a b => Nat.ble a.frontMatter.revision b.frontMatter.revision)
        fun a b => codePointLe a.path b.path))

/-! ## Reading the records in -/

/-- What the first loop carries. -/
structure ReadRecords where
  byIdentityRevision : OrderedMap String KnowledgeRecord
  revisionsByIdentity : OrderedMap String (List KnowledgeRecord)
  diagnostics : List Diagnostic

/-- A revision declared more than once. -/
def duplicateRevision (record prior : KnowledgeRecord) : Diagnostic :=
  { stage := "revision"
    code := "lifecycle.knowledge.id-duplicate"
    message := s!"Knowledge revision {recordIdentityRevision record} is declared more than once"
    path := some record.path
    related := [prior.path] }

/-- One record of the first loop. -/
def readRecord (st : ReadRecords) (record : KnowledgeRecord) : ReadRecords :=
  let key := recordIdentityRevision record
  match st.byIdentityRevision.get key with
  | some prior => { st with diagnostics := st.diagnostics ++ [duplicateRevision record prior] }
  | none =>
    let values := (st.revisionsByIdentity.get record.frontMatter.id).getD []
    { st with
      byIdentityRevision := st.byIdentityRevision.set key record
      revisionsByIdentity := st.revisionsByIdentity.set record.frontMatter.id (values ++ [record]) }

/-- The first loop. -/
def readRecords (records : List KnowledgeRecord) : ReadRecords :=
  records.foldl readRecord ⟨∅, ∅, []⟩

/-! ## The chain of one identity -/

/-- The revision a record stands at is not the one of its number. -/
def gapDiagnostics (identity : String) (expected : Nat) (record : KnowledgeRecord) :
    List Diagnostic :=
  if record.frontMatter.revision ≠ expected then
    [{ stage := "revision"
       code := "lifecycle.knowledge.revision-gap"
       message := s!"{identity} expected revision {expected} but found "
         ++ s!"{record.frontMatter.revision}"
       path := some record.path
       facts := [("expectedRevision", nat expected),
         ("actualRevision", nat record.frontMatter.revision)] }]
  else []

/-- The identity of a record as its successor has to bind it. -/
def bound (identity : String) (previous : KnowledgeRecord) : RevisionIdentity :=
  { id := identity
    revision := previous.frontMatter.revision
    sourceDigest := previous.sourceDigest
    semanticDigest := previous.semanticDigest }

/-- What a record says of its predecessor, and their statuses. -/
def predecessorDiagnostics (identity : String) (previous record : KnowledgeRecord) :
    List Diagnostic :=
  (if record.frontMatter.supersedes ≠ some (bound identity previous) then
    [{ stage := "revision"
       code := "lifecycle.knowledge.supersession-invalid"
       message := s!"{identity} revision {record.frontMatter.revision} does not bind the exact "
         ++ "preceding revision"
       path := some record.path
       related := [previous.path]
       facts := [("expectedRevision", nat previous.frontMatter.revision),
         ("expectedSourceDigest", .string previous.sourceDigest),
         ("expectedSemanticDigest", .string previous.semanticDigest)] }] else [])
  ++ (if record.frontMatter.status = .current ∧ previous.frontMatter.status ≠ .superseded then
    [{ stage := "revision"
       code := "lifecycle.knowledge.supersession-invalid"
       message := s!"{identity} prior revision {previous.frontMatter.revision} must be superseded "
         ++ s!"when revision {record.frontMatter.revision} becomes current"
       path := some previous.path
       related := [record.path]
       facts := [("priorStatus", .string previous.frontMatter.status.text)] }] else [])

/-- The loop over the ordered revisions of one identity. Adopted publisher
revisions are not checked against each other. -/
def chainDiagnostics (identity : String) :
    Nat → Option KnowledgeRecord → List KnowledgeRecord → List Diagnostic
  | _, _, [] => []
  | index, previous, record :: rest =>
    (if record.frontMatter.kind = .discipline then [] else
      gapDiagnostics identity (index + 1) record ++ (match previous with
        | none => []
        | some previous => predecessorDiagnostics identity previous record))
      ++ chainDiagnostics identity (index + 1) (some record) rest

/-- The current revisions among those of one identity. -/
def currentsOf (revisions : List KnowledgeRecord) : List KnowledgeRecord :=
  revisions.filter (·.frontMatter.status = .current)

/-- A second current revision. -/
def duplicateCurrents (identity : String) (currents : List KnowledgeRecord) : List Diagnostic :=
  currents.map fun record =>
    { stage := "revision"
      code := "lifecycle.knowledge.current-duplicate"
      message := s!"{identity} has {currents.length} current revisions"
      path := some record.path
      related := (currents.filter (· ≠ record)).map (·.path) }

/-- A revision behind the current one that is no Product draft. -/
def laterDiagnostics (identity : String) (revisions : List KnowledgeRecord)
    (current : KnowledgeRecord) : List Diagnostic :=
  let later := revisions.filter fun r => current.frontMatter.revision < r.frontMatter.revision
  if later.any (fun r => r.frontMatter.kind = .discipline || r.frontMatter.status ≠ .draft) then
    [{ stage := "revision"
       code := "lifecycle.knowledge.current-not-latest"
       message := s!"{identity} current revision may be followed only by non-governing Product "
         ++ "drafts"
       path := some current.path
       related := (revisions.getLast?.map (·.path)).toList }]
  else []

/-- What the second loop carries. -/
structure ReadIdentities where
  currentByIdentity : OrderedMap String KnowledgeRecord
  diagnostics : List Diagnostic

/-- One identity of the second loop, with its ordered revisions. -/
def readIdentity (st : ReadIdentities) (entry : String × List KnowledgeRecord) : ReadIdentities :=
  let identity := entry.1
  let revisions := entry.2
  let diagnostics := st.diagnostics ++ chainDiagnostics identity 0 none revisions
  match currentsOf revisions with
  | [] => { st with diagnostics := diagnostics }
  | [current] =>
    { currentByIdentity := st.currentByIdentity.set identity current
      diagnostics := diagnostics ++ laterDiagnostics identity revisions current }
  | currents => { st with diagnostics := diagnostics ++ duplicateCurrents identity currents }

/-! ## `buildRevisionIndexes` -/

/-- **The indexes.** -/
structure RevisionIndexes where
  byIdentityRevision : OrderedMap String KnowledgeRecord
  revisionsByIdentity : List (String × List KnowledgeRecord)
  currentByIdentity : OrderedMap String KnowledgeRecord
  currentRecords : List KnowledgeRecord
  historicalRecords : List KnowledgeRecord

/-- The identities in order, each with its revisions in order. -/
def orderedRevisions (st : ReadRecords) : List (String × List KnowledgeRecord) :=
  (sortOn Prod.fst st.revisionsByIdentity.entries).map fun e => (e.1, sortWith revisionLe e.2)

/-- **`buildRevisionIndexes`**: the indexes, and what is reported. -/
def buildRevisionIndexes (records : List KnowledgeRecord) : RevisionIndexes × List Diagnostic :=
  let st := readRecords records
  let revisions := orderedRevisions st
  let identities := revisions.foldl readIdentity ⟨∅, st.diagnostics⟩
  let currentRecords := sortOn (·.frontMatter.id) identities.currentByIdentity.values
  let currentKeys := currentRecords.map recordIdentityRevision
  ({ byIdentityRevision := st.byIdentityRevision
     revisionsByIdentity := revisions
     currentByIdentity := identities.currentByIdentity
     currentRecords := currentRecords
     historicalRecords := sortWith knowledgeLe
       (records.filter fun record => recordIdentityRevision record ∉ currentKeys) },
    identities.diagnostics)

/-- Nothing is reported about the records. -/
def Quiet (records : List KnowledgeRecord) : Prop := (buildRevisionIndexes records).2.length = 0

/-! ## Keys -/

/-- What stands before the last separator and behind it. -/
theorem append_separator_inj {sep : Char} : ∀ {a b d e : List Char}, sep ∉ d → sep ∉ e →
    a ++ sep :: d = b ++ sep :: e → a = b ∧ d = e
  | [], [], _, _, _, _, h => ⟨rfl, (List.cons.inj h).2⟩
  | [], c :: b, d, e, hd, _, h => by
    obtain ⟨-, htail⟩ := List.cons.inj h
    exact absurd (htail ▸ List.mem_append_right b List.mem_cons_self) hd
  | c :: a, [], d, e, _, he, h => by
    obtain ⟨-, htail⟩ := List.cons.inj h
    exact absurd (htail ▸ List.mem_append_right a List.mem_cons_self) he
  | c :: a, c' :: b, d, e, hd, he, h => by
    obtain ⟨rfl, htail⟩ := List.cons.inj h
    obtain ⟨rfl, hde⟩ := append_separator_inj hd he htail
    exact ⟨rfl, hde⟩

/-- **A key determines the identity and the revision.** -/
theorem recordIdentityRevision_inj {r r' : KnowledgeRecord} :
    recordIdentityRevision r = recordIdentityRevision r'
      ↔ r.frontMatter.id = r'.frontMatter.id ∧ r.frontMatter.revision = r'.frontMatter.revision := by
  have hlist : ∀ r : KnowledgeRecord, (recordIdentityRevision r).toList
      = r.frontMatter.id.toList ++ '@' :: Nat.toDigits 10 r.frontMatter.revision := by
    intro r
    rw [recordIdentityRevision, String.toList_append, String.toList_append, List.append_assoc]
    exact congrArg (r.frontMatter.id.toList ++ '@' :: ·) Nat.toList_repr
  have hdigits : ∀ n : Nat, '@' ∉ Nat.toDigits 10 n := fun n h =>
    absurd (Nat.isDigit_of_mem_toDigits (by omega) (by omega) h) (by decide)
  constructor
  · intro h
    have heq := congrArg String.toList h
    rw [hlist, hlist] at heq
    obtain ⟨hid, hrevision⟩ := append_separator_inj (hdigits _) (hdigits _) heq
    refine ⟨String.toList_inj.mp hid, ?_⟩
    rw [← Nat.ofDigitChars_ten_toDigits (n := r.frontMatter.revision), hrevision,
      Nat.ofDigitChars_ten_toDigits]
  · rintro ⟨hid, hrevision⟩
    rw [recordIdentityRevision, recordIdentityRevision, hid, hrevision]

/-- No revision is given twice. -/
def DistinctRevisions (records : List KnowledgeRecord) : Prop :=
  (records.map recordIdentityRevision).Nodup

theorem DistinctRevisions.eq {records : List KnowledgeRecord} (h : DistinctRevisions records)
    {r r' : KnowledgeRecord} (hr : r ∈ records) (hr' : r' ∈ records)
    (hid : r.frontMatter.id = r'.frontMatter.id)
    (hrevision : r.frontMatter.revision = r'.frontMatter.revision) : r = r' :=
  List.inj_on_of_nodup_map h hr hr' (recordIdentityRevision_inj.mpr ⟨hid, hrevision⟩)

/-! ## What the first loop leaves -/

/-- The revisions of one identity, in the order given. -/
def revisionsOf (records : List KnowledgeRecord) (id : String) : List KnowledgeRecord :=
  records.filter fun r => r.frontMatter.id = id

theorem mem_revisionsOf {records : List KnowledgeRecord} {id : String} {r : KnowledgeRecord} :
    r ∈ revisionsOf records id ↔ r ∈ records ∧ r.frontMatter.id = id := by
  rw [revisionsOf, List.mem_filter, decide_eq_true_eq]

/-- **The first loop over records given once each.** -/
structure AllRead (records : List KnowledgeRecord) (st : ReadRecords) : Prop where
  byIdentityRevision : st.byIdentityRevision.entries
    = records.map fun r => (recordIdentityRevision r, r)
  revisions : ∀ id, (st.revisionsByIdentity.get id).getD [] = revisionsOf records id
  identities : ∀ id, st.revisionsByIdentity.has id = true ↔ ∃ r ∈ records, r.frontMatter.id = id
  diagnostics : st.diagnostics = []

theorem readRecords_append (records : List KnowledgeRecord) (r : KnowledgeRecord) :
    readRecords (records ++ [r]) = readRecord (readRecords records) r := by
  rw [readRecords, List.foldl_append]
  rfl

theorem AllRead.get_eq_none {records : List KnowledgeRecord} {st : ReadRecords}
    (h : AllRead records st) {key : String} :
    st.byIdentityRevision.get key = none ↔ key ∉ records.map recordIdentityRevision := by
  rw [OrderedMap.get_eq_none_iff, h.byIdentityRevision, List.map_map]
  rfl

theorem AllRead.read {records : List KnowledgeRecord} {st : ReadRecords} {r : KnowledgeRecord}
    (h : AllRead records st) (hr : recordIdentityRevision r ∉ records.map recordIdentityRevision) :
    AllRead (records ++ [r]) (readRecord st r) := by
  have hnone := h.get_eq_none.mpr hr
  unfold readRecord
  simp only [hnone]
  refine ⟨?_, fun id => ?_, fun id => ?_, h.diagnostics⟩
  · rw [OrderedMap.entries_set_of_get_eq_none hnone, h.byIdentityRevision, List.map_append]
    rfl
  · rw [OrderedMap.get_set, revisionsOf, List.filter_append]
    split
    · next hid =>
      rw [Option.getD_some, h.revisions, hid, List.filter_cons_of_pos (by simp), List.filter_nil]
      rfl
    · next hid =>
      rw [h.revisions, List.filter_cons_of_neg (by simpa using Ne.symm hid), List.filter_nil,
        List.append_nil]
      rfl
  · rw [OrderedMap.has, OrderedMap.get_set]
    simp only [List.mem_append, List.mem_singleton, or_and_right, exists_or, exists_eq_left]
    split
    · next hid => exact ⟨fun _ => .inr hid.symm, fun _ => rfl⟩
    · next hid =>
      rw [← OrderedMap.has, h.identities]
      exact ⟨.inl, fun hor => hor.resolve_right (Ne.symm hid)⟩

/-- Records given once each are all read, and nothing is reported. -/
theorem allRead_of_distinct : ∀ {records : List KnowledgeRecord}, DistinctRevisions records →
    AllRead records (readRecords records) := by
  intro records
  induction records using List.reverseRecOn with
  | nil =>
    intro _
    exact ⟨rfl, fun _ => rfl, fun id => by simp [readRecords, OrderedMap.has], rfl⟩
  | append_singleton records r ih =>
    intro h
    rw [DistinctRevisions, List.map_append, List.nodup_append] at h
    rw [readRecords_append]
    refine (ih h.1).read fun hmem => ?_
    exact h.2.2 _ hmem _ List.mem_cons_self rfl

/-- Where nothing is reported, records are given once each. -/
theorem distinct_of_diagnostics : ∀ {records : List KnowledgeRecord},
    (readRecords records).diagnostics = [] → DistinctRevisions records := by
  intro records
  induction records using List.reverseRecOn with
  | nil => exact fun _ => List.nodup_nil
  | append_singleton records r ih =>
    intro h
    rw [readRecords_append] at h
    unfold readRecord at h
    simp only at h
    split at h
    · exact absurd h (by simp)
    · next hnone =>
      have hdistinct := ih h
      have hfresh := (allRead_of_distinct hdistinct).get_eq_none.mp hnone
      rw [DistinctRevisions, List.map_append, List.nodup_append]
      refine ⟨hdistinct, List.nodup_singleton _, fun a ha b hb hab => ?_⟩
      rw [List.mem_singleton.mp hb] at hab
      exact hfresh (hab ▸ ha)

/-! ## The ordered revisions -/

/-- The identities given, in order. -/
def identitiesOf (records : List KnowledgeRecord) : List String :=
  sortUniqueCodePoints (records.map (·.frontMatter.id))

/-- The revisions of an identity, in order. -/
def orderedOf (records : List KnowledgeRecord) (id : String) : List KnowledgeRecord :=
  sortWith revisionLe (revisionsOf records id)

theorem mem_orderedOf {records : List KnowledgeRecord} {id : String} {r : KnowledgeRecord} :
    r ∈ orderedOf records id ↔ r ∈ records ∧ r.frontMatter.id = id := by
  rw [orderedOf, mem_sortWith, mem_revisionsOf]

theorem mem_identitiesOf {records : List KnowledgeRecord} {id : String} :
    id ∈ identitiesOf records ↔ ∃ r ∈ records, r.frontMatter.id = id := by
  rw [identitiesOf, mem_sortUniqueCodePoints, List.mem_map]

/-- **Each identity in order, with its revisions in order.** -/
theorem orderedRevisions_eq {records : List KnowledgeRecord} (h : DistinctRevisions records) :
    orderedRevisions (readRecords records)
      = (identitiesOf records).map fun id => (id, orderedOf records id) := by
  have hread := allRead_of_distinct h
  have hvalue : ∀ e ∈ sortOn Prod.fst (readRecords records).revisionsByIdentity.entries,
      (e.1, sortWith revisionLe e.2) = (e.1, orderedOf records e.1) := by
    intro e he
    have hget := OrderedMap.get_eq_some_iff.mpr (mem_sortOn.mp he)
    have hrevisions := hread.revisions e.1
    rw [hget, Option.getD_some] at hrevisions
    rw [orderedOf, hrevisions]
  have hkeys : (sortOn Prod.fst (readRecords records).revisionsByIdentity.entries).map Prod.fst
      = identitiesOf records := by
    have hmap : (sortOn Prod.fst (readRecords records).revisionsByIdentity.entries).map Prod.fst
        = sortOn id ((readRecords records).revisionsByIdentity.entries.map Prod.fst) :=
      List.map_insertionSort _ _ Prod.fst _ fun _ _ _ _ => Iff.rfl
    rw [hmap, identitiesOf, sortUniqueCodePoints]
    refine sortOn_eq_of_perm ?_ fun a _ b _ hab => hab
    refine (List.perm_ext_iff_of_nodup (readRecords records).revisionsByIdentity.nodupKeys
      (List.nodup_dedup _)).mpr fun id => ?_
    have hgiven : id ∈ records.map (·.frontMatter.id) ↔ ∃ r ∈ records, r.frontMatter.id = id :=
      List.mem_map
    rw [List.mem_dedup, hgiven, ← hread.identities, OrderedMap.has_eq_true_iff]
    simp only [OrderedMap.get_eq_some_iff, List.mem_map, Prod.exists, exists_and_right,
      exists_eq_right]
  rw [orderedRevisions, List.map_congr_left hvalue, ← hkeys, List.map_map]
  rfl

theorem revisionLe_comparison : Comparison revisionLe :=
  Comparison.then_by (Comparison.nat.comap _) (codePoint.comap _)

theorem knowledgeLe_comparison : Comparison knowledgeLe :=
  Comparison.then_by (Comparison.nat.comap _) (Comparison.then_by (codePoint.comap _)
    (Comparison.then_by (Comparison.nat.comap _) (codePoint.comap _)))

theorem revision_eq_of_tied {a b : KnowledgeRecord} (h : Tied revisionLe a b) :
    a.frontMatter.revision = b.frontMatter.revision :=
  tied_nat.mp (tied_thenBy.mp h).1

theorem id_revision_eq_of_tied {a b : KnowledgeRecord} (h : Tied knowledgeLe a b) :
    a.frontMatter.id = b.frontMatter.id ∧ a.frontMatter.revision = b.frontMatter.revision := by
  have hid := tied_thenBy.mp (tied_thenBy.mp h).2
  exact ⟨tied_codePoint.mp hid.1, tied_nat.mp (tied_thenBy.mp hid.2).1⟩

/-- The ordered revisions do not depend on the order of the records. -/
theorem orderedOf_eq_of_perm {records records' : List KnowledgeRecord}
    (h : DistinctRevisions records) (hperm : records.Perm records') (id : String) :
    orderedOf records id = orderedOf records' id := by
  refine sortWith_eq_of_perm revisionLe_comparison (hperm.filter _) fun a ha b hb hab => ?_
  obtain ⟨ha, hida⟩ := mem_revisionsOf.mp ha
  obtain ⟨hb, hidb⟩ := mem_revisionsOf.mp hb
  exact h.eq ha hb (hida.trans hidb.symm) (revision_eq_of_tied hab)

theorem identitiesOf_eq_of_perm {records records' : List KnowledgeRecord}
    (hperm : records.Perm records') : identitiesOf records = identitiesOf records' :=
  sortUniqueCodePoints_eq_of_mem_iff fun _ => (hperm.map _).mem_iff

/-! ## What the second loop reports -/

/-- What is reported of one identity. -/
def identityDiagnostics (entry : String × List KnowledgeRecord) : List Diagnostic :=
  chainDiagnostics entry.1 0 none entry.2 ++ (match currentsOf entry.2 with
    | [] => []
    | [current] => laterDiagnostics entry.1 entry.2 current
    | currents => duplicateCurrents entry.1 currents)

theorem diagnostics_readIdentity (st : ReadIdentities) (entry : String × List KnowledgeRecord) :
    (readIdentity st entry).diagnostics = st.diagnostics ++ identityDiagnostics entry := by
  unfold readIdentity identityDiagnostics
  simp only
  split
  · rw [List.append_nil]
  · rw [List.append_assoc]
  · rw [List.append_assoc]

theorem diagnostics_foldl : ∀ (entries : List (String × List KnowledgeRecord))
    (st : ReadIdentities), (entries.foldl readIdentity st).diagnostics
      = st.diagnostics ++ entries.flatMap identityDiagnostics
  | [], st => by rw [List.foldl_nil, List.flatMap_nil, List.append_nil]
  | e :: entries, st => by
    rw [List.foldl_cons, diagnostics_foldl entries, diagnostics_readIdentity, List.flatMap_cons,
      List.append_assoc]

/-- **Nothing is reported** exactly when the records are given once each and
nothing is reported of any identity. -/
theorem quiet_iff {records : List KnowledgeRecord} : Quiet records ↔ DistinctRevisions records
    ∧ ∀ id ∈ identitiesOf records, identityDiagnostics (id, orderedOf records id) = [] := by
  rw [Quiet, List.length_eq_zero_iff, buildRevisionIndexes, diagnostics_foldl,
    List.append_eq_nil_iff, List.flatMap_eq_nil_iff]
  constructor
  · rintro ⟨hread, hall⟩
    have hdistinct := distinct_of_diagnostics hread
    rw [orderedRevisions_eq hdistinct] at hall
    exact ⟨hdistinct, fun id hid => hall _ (List.mem_map_of_mem hid)⟩
  · rintro ⟨hdistinct, hall⟩
    refine ⟨(allRead_of_distinct hdistinct).diagnostics, fun e he => ?_⟩
    rw [orderedRevisions_eq hdistinct] at he
    obtain ⟨id, hid, rfl⟩ := List.mem_map.mp he
    exact hall id hid

/-- An identity leaves the current revision of every other alone. -/
theorem get_readIdentity_of_ne {st : ReadIdentities} {e : String × List KnowledgeRecord}
    {id : String} (hne : e.1 ≠ id) :
    (readIdentity st e).currentByIdentity.get id = st.currentByIdentity.get id := by
  unfold readIdentity
  simp only
  split
  · rfl
  · exact OrderedMap.get_set_of_ne (Ne.symm hne)
  · rfl

theorem get_foldl_of_not_mem {id : String} : ∀ (entries : List (String × List KnowledgeRecord))
    (st : ReadIdentities), id ∉ entries.map Prod.fst →
    (entries.foldl readIdentity st).currentByIdentity.get id = st.currentByIdentity.get id
  | [], _, _ => rfl
  | e :: entries, st, hid => by
    rw [List.map_cons, List.mem_cons, not_or] at hid
    rw [List.foldl_cons, get_foldl_of_not_mem entries _ hid.2,
      get_readIdentity_of_ne (Ne.symm hid.1)]

/-- An identity with one current revision is entered. -/
theorem get_readIdentity_self {st : ReadIdentities} {id : String}
    {revisions : List KnowledgeRecord} {r : KnowledgeRecord}
    (hnone : st.currentByIdentity.get id = none) :
    (readIdentity st (id, revisions)).currentByIdentity.get id = some r
      ↔ currentsOf revisions = [r] := by
  unfold readIdentity
  simp only
  split
  · next hcurrents => simp [hnone, hcurrents]
  · next current hcurrents => simp [hcurrents]
  · next hcurrents hnil hone =>
    rw [hnone]
    exact ⟨fun h => (by cases h), fun h => absurd h (hone r)⟩

/-- The current revision of an identity, when it has one only. -/
theorem get_foldl_of_mem {id : String} {r : KnowledgeRecord} {revisions : List KnowledgeRecord} :
    ∀ (entries : List (String × List KnowledgeRecord)) (st : ReadIdentities),
      (entries.map Prod.fst).Nodup → (id, revisions) ∈ entries →
      st.currentByIdentity.get id = none →
      ((entries.foldl readIdentity st).currentByIdentity.get id = some r
        ↔ currentsOf revisions = [r])
  | [], _, _, hmem, _ => absurd hmem List.not_mem_nil
  | e :: entries, st, hdistinct, hmem, hnone => by
    rw [List.map_cons, List.nodup_cons] at hdistinct
    rw [List.foldl_cons]
    obtain rfl | hmem := List.mem_cons.mp hmem
    · rw [get_foldl_of_not_mem entries _ hdistinct.1, get_readIdentity_self hnone]
    · have hne : e.1 ≠ id := fun heq =>
        hdistinct.1 (heq ▸ List.mem_map_of_mem (f := Prod.fst) hmem)
      exact get_foldl_of_mem entries _ hdistinct.2 hmem
        (by rw [get_readIdentity_of_ne hne]; exact hnone)

/-! ## Chains -/

/-- A record follows its predecessor: it binds it exactly, and when it is
current the predecessor is superseded. -/
def Follows (identity : String) (previous record : KnowledgeRecord) : Prop :=
  record.frontMatter.supersedes = some (bound identity previous)
    ∧ (record.frontMatter.status = .current → previous.frontMatter.status = .superseded)

theorem follows_of_diagnostics {identity : String} {previous record : KnowledgeRecord}
    (h : predecessorDiagnostics identity previous record = []) :
    Follows identity previous record := by
  rw [predecessorDiagnostics, List.append_eq_nil_iff] at h
  obtain ⟨hbinds, hstatus⟩ := h
  refine ⟨?_, fun hcurrent => ?_⟩
  · by_contra hne
    rw [if_pos hne] at hbinds
    cases hbinds
  · by_contra hne
    rw [if_pos ⟨hcurrent, hne⟩] at hstatus
    cases hstatus

/-- **Where nothing is reported of Product revisions, they count from one and
each follows the one before.** -/
theorem chain_of_diagnostics {identity : String} : ∀ {revisions : List KnowledgeRecord}
    {index : Nat} {previous : Option KnowledgeRecord},
    (∀ r ∈ revisions, r.frontMatter.kind ≠ .discipline) →
    chainDiagnostics identity index previous revisions = [] →
    revisions.map (·.frontMatter.revision) = List.range' (index + 1) revisions.length
      ∧ revisions.IsChain (Follows identity)
      ∧ ∀ p ∈ previous, ∀ r ∈ revisions.head?, Follows identity p r
  | [], _, _, _, _ => ⟨rfl, .nil, fun _ _ _ hr => by cases hr⟩
  | record :: rest, index, previous, hproduct, h => by
    have hkind := hproduct record List.mem_cons_self
    rw [chainDiagnostics.eq_def] at h
    simp only [if_neg hkind, List.append_eq_nil_iff] at h
    obtain ⟨⟨hgap, hprevious⟩, hrest⟩ := h
    obtain ⟨hcount, hchain, hhead⟩ :=
      chain_of_diagnostics (fun r hr => hproduct r (List.mem_cons_of_mem record hr)) hrest
    have hrevision : record.frontMatter.revision = index + 1 := by
      by_contra hne
      rw [gapDiagnostics, if_pos hne] at hgap
      cases hgap
    refine ⟨?_, ?_, ?_⟩
    · rw [List.map_cons, hrevision, hcount]
      rfl
    · exact List.isChain_cons.mpr ⟨fun r hr => hhead record rfl r hr, hchain⟩
    · intro p hp r hr
      obtain rfl : record = r := Option.some.inj hr
      obtain rfl : previous = some p := hp
      exact follows_of_diagnostics hprevious

/-- **Neighbours by number are neighbours in the list.** -/
theorem adjacent_of_range {α : Type} {R : α → α → Prop} {f : α → Nat} :
    ∀ {l : List α} {start : Nat}, l.map f = List.range' start l.length → l.IsChain R →
      ∀ {a b : α}, a ∈ l → b ∈ l → f a + 1 = f b → R a b
  | [], _, _, _, _, _, ha, _, _ => absurd ha List.not_mem_nil
  | [x], start, hmap, _, a, b, ha, hb, hab => by
    rw [List.mem_singleton.mp ha, List.mem_singleton.mp hb] at hab
    omega
  | x :: y :: rest, start, hmap, hchain, a, b, ha, hb, hab => by
    obtain ⟨hxy, hrest⟩ := List.isChain_cons_cons.mp hchain
    obtain ⟨hx, htail⟩ := List.cons.inj hmap
    have hge : ∀ c ∈ y :: rest, start + 1 ≤ f c := by
      intro c hc
      have hmem := List.mem_map_of_mem (f := f) hc
      rw [htail] at hmem
      exact (List.mem_range'_1.mp hmem).1
    have hlater : ∀ c ∈ rest, start + 2 ≤ f c := by
      intro c hc
      have hmem := List.mem_map_of_mem (f := f) hc
      rw [(List.cons.inj htail).2] at hmem
      exact (List.mem_range'_1.mp hmem).1
    obtain hax | ha := List.mem_cons.mp ha
    · obtain hbx | hb := List.mem_cons.mp hb
      · rw [hax, hbx] at hab
        omega
      · obtain hby | hb := List.mem_cons.mp hb
        · rw [hax, hby]
          exact hxy
        · have hb' := hlater b hb
          rw [hax] at hab
          omega
    · obtain hbx | hb := List.mem_cons.mp hb
      · have ha' := hge a ha
        rw [hbx] at hab
        omega
      · exact adjacent_of_range htail hrest ha hb hab

/-! ## The law of a history -/

/-- The revisions of an identity that are no publisher's are numbered from one
to some number. -/
def Contiguous (records : List KnowledgeRecord) (id : String) : Prop :=
  ∃ n, ∀ m, (∃ r ∈ records, r.frontMatter.id = id ∧ r.frontMatter.kind ≠ .discipline
    ∧ r.frontMatter.revision = m) ↔ 1 ≤ m ∧ m ≤ n

/-- **A settled history.** -/
structure HistoryLaw (records : List KnowledgeRecord) : Prop where
  once : DistinctRevisions records
  contiguous : ∀ id, Contiguous records id
  binds : ∀ r ∈ records, r.frontMatter.kind ≠ .discipline → ∀ p ∈ records,
    p.frontMatter.id = r.frontMatter.id → p.frontMatter.revision + 1 = r.frontMatter.revision →
    r.frontMatter.supersedes = some (bound r.frontMatter.id p)
  oneCurrent : ∀ r ∈ records, ∀ r' ∈ records, r.frontMatter.id = r'.frontMatter.id →
    r.frontMatter.status = .current → r'.frontMatter.status = .current → r = r'
  before : ∀ r ∈ records, r.frontMatter.kind ≠ .discipline → r.frontMatter.status = .current →
    ∀ p ∈ records, p.frontMatter.id = r.frontMatter.id →
    p.frontMatter.revision + 1 = r.frontMatter.revision → p.frontMatter.status = .superseded
  after : ∀ r ∈ records, r.frontMatter.status = .current → ∀ l ∈ records,
    l.frontMatter.id = r.frontMatter.id → r.frontMatter.revision < l.frontMatter.revision →
    l.frontMatter.status = .draft
  currentOrHistorical : ∀ r ∈ records,
    Xor (r ∈ (buildRevisionIndexes records).1.currentRecords)
      (r ∈ (buildRevisionIndexes records).1.historicalRecords)
  ordered : ∀ records', records.Perm records' →
    (∀ key, (buildRevisionIndexes records').1.byIdentityRevision.get key
      = (buildRevisionIndexes records).1.byIdentityRevision.get key)
    ∧ (buildRevisionIndexes records').1.revisionsByIdentity
      = (buildRevisionIndexes records).1.revisionsByIdentity
    ∧ (buildRevisionIndexes records').1.currentByIdentity
      = (buildRevisionIndexes records).1.currentByIdentity
    ∧ (buildRevisionIndexes records').1.currentRecords
      = (buildRevisionIndexes records).1.currentRecords
    ∧ (buildRevisionIndexes records').1.historicalRecords
      = (buildRevisionIndexes records).1.historicalRecords

/-- Every revision before the current one is superseded. -/
def EarlierSuperseded (records : List KnowledgeRecord) : Prop :=
  ∀ r ∈ records, r.frontMatter.kind ≠ .discipline → r.frontMatter.status = .current →
    ∀ p ∈ records, p.frontMatter.id = r.frontMatter.id →
    p.frontMatter.revision < r.frontMatter.revision → p.frontMatter.status = .superseded

section Settled

variable {records : List KnowledgeRecord}

/-- What is not reported of the identity of a record. -/
theorem diagnostics_of_quiet (h : Quiet records) {r : KnowledgeRecord} (hr : r ∈ records) :
    identityDiagnostics (r.frontMatter.id, orderedOf records r.frontMatter.id) = [] :=
  (quiet_iff.mp h).2 _ (mem_identitiesOf.mpr ⟨r, hr, rfl⟩)

theorem chain_of_quiet (h : Quiet records) {r : KnowledgeRecord} (hr : r ∈ records)
    (hkind : r.frontMatter.kind ≠ .discipline) :
    (orderedOf records r.frontMatter.id).map (·.frontMatter.revision)
        = List.range' 1 (orderedOf records r.frontMatter.id).length
      ∧ (orderedOf records r.frontMatter.id).IsChain (Follows r.frontMatter.id) := by
  have hnone := diagnostics_of_quiet h hr
  rw [identityDiagnostics, List.append_eq_nil_iff] at hnone
  have hproduct : ∀ p ∈ orderedOf records r.frontMatter.id, p.frontMatter.kind ≠ .discipline := by
    intro p hp
    rw [kind_eq_of_id_eq (mem_orderedOf.mp hp).2]
    exact hkind
  obtain ⟨hcount, hchain, -⟩ := chain_of_diagnostics hproduct hnone.1
  exact ⟨hcount, hchain⟩

theorem follows_of_quiet (h : Quiet records) {r p : KnowledgeRecord} (hr : r ∈ records)
    (hkind : r.frontMatter.kind ≠ .discipline) (hp : p ∈ records)
    (hid : p.frontMatter.id = r.frontMatter.id)
    (hnext : p.frontMatter.revision + 1 = r.frontMatter.revision) :
    Follows r.frontMatter.id p r := by
  obtain ⟨hcount, hchain⟩ := chain_of_quiet h hr hkind
  exact adjacent_of_range hcount hchain (mem_orderedOf.mpr ⟨hp, hid⟩)
    (mem_orderedOf.mpr ⟨hr, rfl⟩) hnext

/-- A current record is the only one of its identity. -/
theorem currentsOf_of_quiet (h : Quiet records) {r : KnowledgeRecord} (hr : r ∈ records)
    (hcurrent : r.frontMatter.status = .current) :
    currentsOf (orderedOf records r.frontMatter.id) = [r]
      ∧ laterDiagnostics r.frontMatter.id (orderedOf records r.frontMatter.id) r = [] := by
  have hnone := diagnostics_of_quiet h hr
  rw [identityDiagnostics, List.append_eq_nil_iff] at hnone
  have hmem : r ∈ currentsOf (orderedOf records r.frontMatter.id) :=
    List.mem_filter.mpr ⟨mem_orderedOf.mpr ⟨hr, rfl⟩, by simpa using hcurrent⟩
  obtain ⟨-, hlast⟩ := hnone
  split at hlast
  · next hnil =>
    rw [hnil] at hmem
    exact absurd hmem List.not_mem_nil
  · next current hone =>
    rw [hone, List.mem_singleton] at hmem
    rw [hmem]
    rw [hmem] at hone hlast
    exact ⟨hone, hlast⟩
  · next hnil hone =>
    rw [duplicateCurrents, List.map_eq_nil_iff] at hlast
    rw [hlast] at hmem
    exact absurd hmem List.not_mem_nil

theorem contiguous_of_quiet (h : Quiet records) (id : String) : Contiguous records id := by
  by_cases hgiven : ∃ r ∈ records, r.frontMatter.id = id ∧ r.frontMatter.kind ≠ .discipline
  · obtain ⟨r, hr, rfl, hkind⟩ := hgiven
    obtain ⟨hcount, -⟩ := chain_of_quiet h hr hkind
    refine ⟨(orderedOf records r.frontMatter.id).length, fun m => ?_⟩
    have hmem : m ∈ (orderedOf records r.frontMatter.id).map (·.frontMatter.revision)
        ↔ 1 ≤ m ∧ m ≤ (orderedOf records r.frontMatter.id).length := by
      rw [hcount, List.mem_range'_1]
      omega
    rw [← hmem, List.mem_map]
    constructor
    · rintro ⟨p, hp, hid, -, rfl⟩
      exact ⟨p, mem_orderedOf.mpr ⟨hp, hid⟩, rfl⟩
    · rintro ⟨p, hp, rfl⟩
      obtain ⟨hp, hid⟩ := mem_orderedOf.mp hp
      exact ⟨p, hp, hid, by rw [kind_eq_of_id_eq hid]; exact hkind, rfl⟩
  · refine ⟨0, fun m => ⟨?_, fun hm => by omega⟩⟩
    rintro ⟨r, hr, hid, hkind, -⟩
    exact absurd ⟨r, hr, hid, hkind⟩ hgiven

theorem draft_of_quiet (h : Quiet records) {r l : KnowledgeRecord} (hr : r ∈ records)
    (hcurrent : r.frontMatter.status = .current) (hl : l ∈ records)
    (hid : l.frontMatter.id = r.frontMatter.id)
    (hlater : r.frontMatter.revision < l.frontMatter.revision) : l.frontMatter.status = .draft := by
  obtain ⟨-, hnone⟩ := currentsOf_of_quiet h hr hcurrent
  by_contra hdraft
  rw [laterDiagnostics, if_pos] at hnone
  · cases hnone
  · refine List.any_eq_true.mpr ⟨l, List.mem_filter.mpr ⟨mem_orderedOf.mpr ⟨hl, hid⟩, ?_⟩, ?_⟩
    · exact decide_eq_true hlater
    · simp [hdraft]

theorem get_currentByIdentity (h : Quiet records) {id : String} {r : KnowledgeRecord} :
    (buildRevisionIndexes records).1.currentByIdentity.get id = some r
      ↔ id ∈ identitiesOf records ∧ currentsOf (orderedOf records id) = [r] := by
  have hfst : ((identitiesOf records).map fun id => (id, orderedOf records id)).map Prod.fst
      = identitiesOf records := by
    rw [List.map_map]
    exact List.map_id _
  have hnodup : (identitiesOf records).Nodup :=
    (perm_sortOn _ _).nodup_iff.mpr (List.nodup_dedup _)
  show ((orderedRevisions (readRecords records)).foldl readIdentity _).currentByIdentity.get id
    = some r ↔ _
  rw [orderedRevisions_eq (quiet_iff.mp h).1]
  by_cases hid : id ∈ identitiesOf records
  · have hmem : (id, orderedOf records id)
        ∈ (identitiesOf records).map fun id => (id, orderedOf records id) :=
      List.mem_map_of_mem hid
    rw [get_foldl_of_mem _ _ (by rw [hfst]; exact hnodup) hmem rfl]
    exact ⟨fun hone => ⟨hid, hone⟩, And.right⟩
  · rw [get_foldl_of_not_mem _ _ (by rw [hfst]; exact hid)]
    exact ⟨fun hget => (by cases hget), fun hmem => absurd hmem.1 hid⟩

/-- The current records are those of current status. -/
theorem mem_currentRecords (h : Quiet records) {r : KnowledgeRecord} :
    r ∈ (buildRevisionIndexes records).1.currentRecords
      ↔ r ∈ records ∧ r.frontMatter.status = .current := by
  show r ∈ sortOn _ (buildRevisionIndexes records).1.currentByIdentity.values ↔ _
  rw [mem_sortOn, OrderedMap.mem_values_iff]
  constructor
  · rintro ⟨id, hid⟩
    have hmem : r ∈ currentsOf (orderedOf records id) := by
      rw [((get_currentByIdentity h).mp hid).2]
      exact List.mem_cons_self
    obtain ⟨hr, hcurrent⟩ := List.mem_filter.mp hmem
    exact ⟨(mem_orderedOf.mp hr).1, by simpa using hcurrent⟩
  · rintro ⟨hr, hcurrent⟩
    exact ⟨r.frontMatter.id, (get_currentByIdentity h).mpr
      ⟨mem_identitiesOf.mpr ⟨r, hr, rfl⟩, (currentsOf_of_quiet h hr hcurrent).1⟩⟩

/-- The historical records are the others. -/
theorem mem_historicalRecords (h : Quiet records) {r : KnowledgeRecord} (hr : r ∈ records) :
    r ∈ (buildRevisionIndexes records).1.historicalRecords
      ↔ r ∉ (buildRevisionIndexes records).1.currentRecords := by
  show r ∈ sortWith knowledgeLe (records.filter fun r => recordIdentityRevision r ∉
    (buildRevisionIndexes records).1.currentRecords.map recordIdentityRevision) ↔ _
  rw [mem_sortWith, List.mem_filter, decide_eq_true_eq]
  constructor
  · exact fun hmem hcurrent => hmem.2 (List.mem_map_of_mem hcurrent)
  · intro hcurrent
    refine ⟨hr, fun hmem => hcurrent ?_⟩
    obtain ⟨c, hc, hkey⟩ := List.mem_map.mp hmem
    have heq := List.inj_on_of_nodup_map (quiet_iff.mp h).1 ((mem_currentRecords h).mp hc).1 hr hkey
    rw [← heq]
    exact hc

/-- **The indexes do not depend on the order of the records.** -/
theorem indexes_eq_of_perm (h : DistinctRevisions records) {records' : List KnowledgeRecord}
    (hperm : records.Perm records') :
    (∀ key, (buildRevisionIndexes records').1.byIdentityRevision.get key
      = (buildRevisionIndexes records).1.byIdentityRevision.get key)
    ∧ (buildRevisionIndexes records').1.revisionsByIdentity
      = (buildRevisionIndexes records).1.revisionsByIdentity
    ∧ (buildRevisionIndexes records').1.currentByIdentity
      = (buildRevisionIndexes records).1.currentByIdentity
    ∧ (buildRevisionIndexes records').1.currentRecords
      = (buildRevisionIndexes records).1.currentRecords
    ∧ (buildRevisionIndexes records').1.historicalRecords
      = (buildRevisionIndexes records).1.historicalRecords := by
  have h' : DistinctRevisions records' := (hperm.map _).nodup_iff.mp h
  have hrevisions : orderedRevisions (readRecords records')
      = orderedRevisions (readRecords records) := by
    rw [orderedRevisions_eq h', orderedRevisions_eq h, identitiesOf_eq_of_perm hperm]
    exact List.map_congr_left fun id _ => by rw [orderedOf_eq_of_perm h hperm]
  have hcurrent : (buildRevisionIndexes records').1.currentByIdentity
      = (buildRevisionIndexes records).1.currentByIdentity := by
    show ((orderedRevisions (readRecords records')).foldl readIdentity _).currentByIdentity
      = ((orderedRevisions (readRecords records)).foldl readIdentity _).currentByIdentity
    rw [hrevisions, (allRead_of_distinct h').diagnostics, (allRead_of_distinct h).diagnostics]
  have hrecords : (buildRevisionIndexes records').1.currentRecords
      = (buildRevisionIndexes records).1.currentRecords := by
    show sortOn _ (buildRevisionIndexes records').1.currentByIdentity.values
      = sortOn _ (buildRevisionIndexes records).1.currentByIdentity.values
    rw [hcurrent]
  refine ⟨fun key => ?_, hrevisions, hcurrent, hrecords, ?_⟩
  · refine Option.ext fun r => ?_
    show (readRecords records').byIdentityRevision.get key = some r
      ↔ (readRecords records).byIdentityRevision.get key = some r
    rw [OrderedMap.get_eq_some_iff, OrderedMap.get_eq_some_iff,
      (allRead_of_distinct h').byIdentityRevision, (allRead_of_distinct h).byIdentityRevision]
    exact (hperm.map _).mem_iff.symm
  · show sortWith knowledgeLe (records'.filter fun r => recordIdentityRevision r ∉
        (buildRevisionIndexes records').1.currentRecords.map recordIdentityRevision)
      = sortWith knowledgeLe (records.filter fun r => recordIdentityRevision r ∉
        (buildRevisionIndexes records).1.currentRecords.map recordIdentityRevision)
    rw [hrecords]
    refine sortWith_eq_of_perm knowledgeLe_comparison (hperm.symm.filter _) fun a ha b hb hab => ?_
    have hkey := id_revision_eq_of_tied hab
    exact h'.eq (List.mem_of_mem_filter ha) (List.mem_of_mem_filter hb) hkey.1 hkey.2

end Settled

/-- **What nothing is reported about is a settled history.** -/
theorem historyLaw_of_quiet {records : List KnowledgeRecord} (h : Quiet records) :
    HistoryLaw records where
  once := (quiet_iff.mp h).1
  contiguous := contiguous_of_quiet h
  binds r hr hkind p hp hid hnext := (follows_of_quiet h hr hkind hp hid hnext).1
  oneCurrent r hr r' hr' hid hcurrent hcurrent' := by
    have hone := (currentsOf_of_quiet h hr hcurrent).1
    rw [hid, (currentsOf_of_quiet h hr' hcurrent').1] at hone
    exact (List.cons.inj hone).1.symm
  before r hr hkind hcurrent p hp hid hnext :=
    (follows_of_quiet h hr hkind hp hid hnext).2 hcurrent
  after r hr hcurrent l hl hid hlater := draft_of_quiet h hr hcurrent hl hid hlater
  currentOrHistorical r hr := by
    rw [mem_historicalRecords h hr]
    exact xor_not_right.mpr Iff.rfl
  ordered records' hperm := indexes_eq_of_perm (quiet_iff.mp h).1 hperm

/-- A revision of one Behavior. -/
def behaviorRevision (revision : Nat) (status : KnowledgeStatus)
    (supersedes : Option RevisionIdentity) (range : 1 ≤ revision ∧ revision ≤ 2147483647) :
    KnowledgeRecord :=
  { path := "records/behavior/sample-r" ++ toString revision ++ ".md"
    frontMatter :=
      { id := "behavior.sample"
        status := status
        revision := revision
        supersedes := supersedes
        conflicts := []
        spec := .behavior [] []
        idKind := by decide
        revisionRange := range
        idText := by decide
        factTexts := by decide
        uniqueFacts := by decide }
    sourceDigest := "source " ++ toString revision
    semanticDigest := "semantic " ++ toString revision }

theorem secondRevision_inRange : 1 ≤ 2 ∧ 2 ≤ 2147483647 := by decide

theorem thirdRevision_inRange : 1 ≤ 3 ∧ 3 ≤ 2147483647 := by decide

/-- A draft, a superseded revision over it, and a current one over that. -/
def draftBelow : List KnowledgeRecord :=
  let first := behaviorRevision 1 .draft none firstRevision_inRange
  let second := behaviorRevision 2 .superseded (some (bound "behavior.sample" first))
    secondRevision_inRange
  let third := behaviorRevision 3 .current (some (bound "behavior.sample" second))
    thirdRevision_inRange
  [third, first, second]

theorem quiet_draftBelow : Quiet draftBelow := by
  unfold Quiet
  decide +kernel

/-- A history nothing is reported about. -/
theorem historyLaw_draftBelow : Quiet draftBelow ∧ HistoryLaw draftBelow :=
  ⟨quiet_draftBelow, historyLaw_of_quiet quiet_draftBelow⟩

/-- **The draft at its bottom is not superseded.** -/
theorem not_earlierSuperseded_draftBelow :
    ¬ ∀ records : List KnowledgeRecord, Quiet records →
      HistoryLaw records ∧ EarlierSuperseded records := by
  intro h
  have hearlier := (h draftBelow quiet_draftBelow).2
  have hfirst := hearlier _ List.mem_cons_self (by decide) (by decide)
    (behaviorRevision 1 .draft none firstRevision_inRange)
    (List.mem_cons_of_mem _ List.mem_cons_self) rfl (by decide)
  exact absurd hfirst (by decide)

end Knowledge
