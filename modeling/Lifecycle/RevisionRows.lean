import Lifecycle.RevisionStability
import Lifecycle.StoreInvariants

/-!
# Reading a record revision back

The row an append writes for a revision, and `revisionFromRow`, which
compiles the row again and compares digests (`control/store.ts`). The text
columns hold canonical JSON, and `JSON.parse` of a canonical text is the
value it was written from with its keys in canonical order. Every revision
of a reachable store was compiled under the identity of the store and has
exactly its own links beside it (`RevisionsSound`), so its row is always
accepted.
-/

open Fallible Json ControlModel ControlStore Comparison SortedBy Transactions TransactionBody

/-! ## Rows -/

namespace ControlStore

/-- A text column of canonical JSON, and what `JSON.parse` reads from it. -/
structure JsonColumn where
  text : List UInt8
  parsed : Json

/-- `canonicalJson(value)` as a column. -/
def writtenJson (value : Json) : Except FoundationError JsonColumn := do
  let text ← canonicalJson value
  return ⟨text, canonicalOrder value⟩

/-- A row of `record_revisions`. -/
structure RecordRevisionRow where
  recordId : String
  revision : Nat
  producerJson : JsonColumn
  semanticAuthorJson : JsonColumn
  semanticAuthority : String
  createdAt : String
  semanticMarkdown : String
  payloadJson : JsonColumn
  digest : String

/-- The row an append inserts for a revision. -/
def writtenRow (r : ControlRecordRevision) : Except FoundationError RecordRevisionRow := do
  let producerJson ← writtenJson (actorJson r.producer)
  let semanticAuthorJson ← writtenJson (actorJson r.semanticAuthor)
  let payloadJson ← writtenJson (.object r.payload)
  return {
    recordId := r.recordId
    revision := r.revision
    producerJson, semanticAuthorJson
    semanticAuthority := authorityText r.semanticAuthority
    createdAt := r.createdAt
    semanticMarkdown := r.semanticMarkdown
    payloadJson
    digest := r.digest }

def parseJsonObject (column : JsonColumn) (label : String) : Except FoundationError JsonObject :=
  match column.parsed with
  | .object parsed => do
    let canonical ← canonicalControlJsonObject parsed label
    failIf (canonical ≠ column.text)
      (storeError "database-json" s!"{label} is not canonical JSON")
    return parsed
  | _ => .error (storeError "database-json" s!"{label} is not one JSON object")

def actorKindOf : String → Option ControlActorKind
  | "agent" => some .agent
  | "director" => some .director
  | "runtime" => some .runtime
  | _ => none

def actorFromJson (column : JsonColumn) (label : String) : Except FoundationError ControlActor := do
  let parsed ← parseJsonObject column label
  let shape := storeError "database-shape" s!"{label} has an invalid actor shape"
  failIf (parsed.length ≠ 2) shape
  let kind ← orFail ((asString (member "kind" parsed)).bind actorKindOf) shape
  let id ← orFail (asString (member "id" parsed)) shape
  return ⟨kind, id⟩

def authorityOf : String → Option ControlSemanticAuthority
  | "agent-proposed" => some .agentProposed
  | "director-supplied" => some .directorSupplied
  | "director-authenticated" => some .directorAuthenticated
  | "runtime-observed" => some .runtimeObserved
  | "runtime-derived" => some .runtimeDerived
  | _ => none

/-- `ORDER BY relation, target_kind, target_id, target_revision,
target_digest`. -/
def linkLe : ControlRecordRelationship → ControlRecordRelationship → Bool :=
  thenBy (fun a b => codePointLe a.relation b.relation)
    (thenBy (fun a b => codePointLe a.target.kind b.target.kind)
      (thenBy (fun a b => codePointLe a.target.id b.target.id)
        (thenBy (fun a b => Nat.ble a.target.revision b.target.revision)
          fun a b => codePointLe a.target.digest b.target.digest)))

/-- The rows of `record_relationships` of a revision. -/
def linkRows (db : ControlDatabase) (recordId : String) (revision : Nat) :
    List ControlRecordRelationship :=
  (db.relationships.filter fun row =>
    row.sourceRecordId = recordId ∧ row.sourceRevision = revision).map (·.relationship)

/-- One relationship row, its columns of their types. -/
def linkFromRow (link : ControlRecordRelationship) :
    Except FoundationError ControlRecordRelationship := do
  failIf (maxSafeInteger < link.target.revision)
    (storeError "database-shape" "Relationship target revision must be one safe integer")
  failIf (isSha256 link.target.digest = false)
    (storeError "database-shape" "Relationship target digest must be one lowercase SHA-256 digest")
  return link

def relationshipsFor (db : ControlDatabase) (recordId : String) (revision : Nat) :
    Except FoundationError (List ControlRecordRelationship) :=
  (sortWith linkLe (linkRows db recordId revision)).mapM linkFromRow

/-- **`revisionFromRow`**, of a revision's row joined with the row of its
record. -/
def revisionFromRow (db : ControlDatabase) (record : ControlRecordRow) (row : RecordRevisionRow) :
    Except FoundationError ControlRecordRevision := do
  failIf (maxSafeInteger < row.revision)
    (storeError "database-shape" "Control record revision must be one safe integer")
  let producer ← actorFromJson row.producerJson "Control record producer"
  let semanticAuthor ← actorFromJson row.semanticAuthorJson "Control record semantic author"
  let semanticAuthority ← orFail (authorityOf row.semanticAuthority)
    (storeError "semantic-authority"
      "Control record revision has an unsupported semantic authority")
  let payload ← parseJsonObject row.payloadJson "Control record payload"
  let relationships ← relationshipsFor db row.recordId row.revision
  let parsed ← compileControlRecordRevision record.processId {
    recordId := row.recordId
    recordKind := record.recordKind
    revision := row.revision
    producer, semanticAuthor, semanticAuthority
    createdAt := row.createdAt
    semanticMarkdown := row.semanticMarkdown
    payload, relationships }
  failIf (isSha256 row.digest = false)
    (storeError "database-shape"
      "Control record revision digest must be one lowercase SHA-256 digest")
  failIf (parsed.digest ≠ row.digest)
    (storeError "revision-integrity"
      s!"Control record {row.recordId} revision {row.revision} digest does not match its logical value")
  return parsed

end ControlStore

/-! ## What a column reads back as -/

namespace ControlStore

theorem authorityOf_text (authority : ControlSemanticAuthority) :
    authorityOf (authorityText authority) = some authority := by
  cases authority <;> rfl

/-- An object within its bounds is read back in canonical order. -/
theorem parseJsonObject_written {value : JsonObject} {text : List UInt8} {label : String}
    (label' : String) (h : canonicalControlJsonObject value label = .ok text) :
    ∃ column, writtenJson (.object value) = .ok column
      ∧ parseJsonObject column label' = .ok (parsedCanonical value) := by
  have htext := (boundedControlJson_eq_ok.mp h).2.1
  have hparsed : canonicalControlJsonObject (parsedCanonical value) label' = .ok text :=
    boundedControlJson_congr (canonicalOrder_parsedCanonical value).symm h
  refine ⟨⟨text, .object (parsedCanonical value)⟩, ?_, ?_⟩
  · rw [writtenJson, htext, ok_bind, canonicalOrder_payload]
    rfl
  · simp only [parseJsonObject, bind_eq_ok, failIf_eq_ok, exists_unit, pure_eq_ok, not_not]
    exact ⟨text, hparsed, rfl, trivial⟩

/-- An actor is read back from its column. -/
theorem actorFromJson_written {actor : ControlActor} (h : isIdentifier actor.id = true)
    (label : String) :
    ∃ column, writtenJson (actorJson actor) = .ok column
      ∧ actorFromJson column label = .ok actor := by
  obtain ⟨kind, id⟩ := actor
  have hid : byteLength id ≤ 512 := by
    rw [isIdentifier, Bool.and_eq_true, decide_eq_true_eq] at h
    exact h.2
  obtain ⟨kindText, hkind, hbytes, hjson⟩ : ∃ kindText, actorKindOf kindText = some kind
      ∧ byteLength kindText ≤ 8
      ∧ actorJson ⟨kind, id⟩ = .object [("kind", .string kindText), ("id", .string id)] := by
    cases kind
    · exact ⟨"agent", rfl, by decide +kernel, rfl⟩
    · exact ⟨"director", rfl, by decide +kernel, rfl⟩
    · exact ⟨"runtime", rfl, by decide +kernel, rfl⟩
  rw [hjson]
  have hstrings : ∀ m ∈ [("kind", Json.string kindText), ("id", .string id)],
      Canonicalizable m.2 := by
    intro m hm
    rcases List.mem_pair.mp hm with rfl | rfl
    · exact canonicalizable_string _
    · exact canonicalizable_string _
  obtain ⟨text, htext, hlength⟩ := exists_text_object hstrings
  have hmaximum : text.length ≤ maximumRevisionPayloadBytes := by
    have hname := length_quoted "kind"
    have hname' := length_quoted "id"
    have hvalue := length_quoted kindText
    have hvalue' := length_quoted id
    have hnames : byteLength "kind" = 4 ∧ byteLength "id" = 2 := by decide +kernel
    rw [hnames.1] at hname
    rw [hnames.2] at hname'
    have hquoted : ∀ s : String, textLength (.string s) = (quoted s).length := fun _ => rfl
    simp only [List.map_cons, List.map_nil, List.sum_cons, List.sum_nil, hquoted] at hlength
    have hlimit : maximumRevisionPayloadBytes = 2097152 := rfl
    omega
  have hbounded : canonicalControlJsonObject [("kind", .string kindText), ("id", .string id)]
      label = .ok text := by
    refine boundedControlJson_eq_ok.mpr ⟨⟨?_, ?_⟩, htext, hmaximum⟩
    · simp [nodeCount, nodeCountMembers, maximumJsonValues]
    · have hlimit : maximumRevisionPayloadBytes = 2097152 := rfl
      refine ⟨by decide, Nat.le_of_ble_eq_true rfl, ⟨by decide, ?_⟩, ⟨by decide, ?_⟩, trivial⟩ <;> omega
  obtain ⟨column, hcolumn, hparsed⟩ := parseJsonObject_written label hbounded
  refine ⟨column, hcolumn, ?_⟩
  have horder : parsedCanonical [("kind", .string kindText), ("id", .string id)]
      = [("id", .string id), ("kind", .string kindText)] := by
    have hlate : codeUnitLe "kind" "id" = false := by decide +kernel
    simp [parsedCanonical, canonicalOrderMembers, canonicalOrder, hlate]
  rw [horder] at hparsed
  simp only [actorFromJson, hparsed, ok_bind, bind_eq_ok, failIf_eq_ok, exists_unit, orFail_eq_ok,
    pure_eq_ok]
  exact ⟨fun hne => hne rfl, kind, hkind, id, rfl, rfl⟩

/-- What is sorted is still the links of the revision. -/
theorem relationshipsFor_eq_ok {db : ControlDatabase} {recordId : String} {revision : Nat}
    (h : ∀ link ∈ linkRows db recordId revision, LinkAdmitted link) :
    ∃ links, relationshipsFor db recordId revision = .ok links
      ∧ links.Perm (linkRows db recordId revision) := by
  refine ⟨_, ?_, perm_sortWith linkLe _⟩
  rw [relationshipsFor, mapM_eq_ok_iff]
  refine List.forall₂_same.mpr fun link hlink => ?_
  have hadmitted := h link (mem_sortWith.mp hlink)
  simp only [linkFromRow, bind_eq_ok, failIf_eq_ok, exists_unit, pure_eq_ok]
  exact ⟨fun hlarge => hadmitted.revision (.inr hlarge), hadmitted.digest, trivial⟩

end ControlStore

/-! ## Rows and their revisions -/

/-- What compilation says of a revision's parts. -/
structure CompiledParts (r : ControlRecordRevision) : Prop where
  revision : r.revision ≤ maxSafeInteger
  producer : isIdentifier r.producer.id = true
  semanticAuthor : isIdentifier r.semanticAuthor.id = true
  payload : ∃ text, canonicalControlJsonObject r.payload "Control record payload" = .ok text
  canonical : parsedCanonical r.payload = r.payload
  links : ∀ link ∈ r.relationships, LinkAdmitted link
  digest : isSha256 r.digest = true

theorem compiledParts {processId : String} {input : ControlRecordRevisionInput}
    {r : ControlRecordRevision} (h : compileControlRecordRevision processId input = .ok r) :
    CompiledParts r := by
  simp only [compileControlRecordRevision, normalizedActor, controlIdentifier_eq_ok, bind_eq_ok,
    failIf_eq_ok, exists_unit, pure_eq_ok] at h
  obtain ⟨_, -, _, -, hrevision, _, ⟨_, ⟨hproducer, rfl⟩, rfl⟩, _, ⟨_, ⟨hauthor, rfl⟩, rfl⟩, _, -,
    links, hlinks, payload, hpayload, _, -, _, -, digest, hdigest, rfl⟩ := h
  obtain rfl := normalizedControlJsonObject_eq hpayload
  simp only [normalizedControlJsonObject, bind_eq_ok] at hpayload
  obtain ⟨text, htext, -⟩ := hpayload
  obtain ⟨-, hadmitted, -, rfl⟩ := normalizedRelationships_eq_ok.mp hlinks
  constructor
  · exact Nat.not_lt.mp fun hlarge => hrevision (.inr hlarge)
  · exact hproducer
  · exact hauthor
  · exact ⟨text, boundedControlJson_congr (canonicalOrder_parsedCanonical _).symm htext⟩
  · exact parsedCanonical_congr (canonicalOrder_parsedCanonical _)
  · exact fun link hlink => hadmitted link (mem_sortOn.mp hlink)
  · exact isSha256_digestCanonical hdigest

/-- **A row reads back as its revision**, beside the row of its record and
its own links. -/
theorem revisionFromRow_written {db : ControlDatabase} {processId : String}
    {input : ControlRecordRevisionInput} {r : ControlRecordRevision} {record : ControlRecordRow}
    (h : compileControlRecordRevision processId input = .ok r)
    (hprocess : record.processId = r.processId) (hkind : record.recordKind = r.recordKind)
    (hlinks : (linkRows db r.recordId r.revision).Perm r.relationships) :
    ∃ row, writtenRow r = .ok row ∧ revisionFromRow db record row = .ok r := by
  have hparts := compiledParts h
  obtain ⟨text, htext⟩ := hparts.payload
  obtain ⟨producer, hproducer, hproducer'⟩ :=
    actorFromJson_written hparts.producer "Control record producer"
  obtain ⟨author, hauthor, hauthor'⟩ :=
    actorFromJson_written hparts.semanticAuthor "Control record semantic author"
  obtain ⟨payload, hpayload, hpayload'⟩ :=
    parseJsonObject_written "Control record payload" htext
  rw [hparts.canonical] at hpayload'
  obtain ⟨links, hread, hperm⟩ := relationshipsFor_eq_ok
    fun link hlink => hparts.links link (hlinks.mem_iff.mp hlink)
  refine ⟨_, bind_eq_ok.mpr ⟨producer, hproducer, bind_eq_ok.mpr ⟨author, hauthor,
    bind_eq_ok.mpr ⟨payload, hpayload, rfl⟩⟩⟩, ?_⟩
  have hcompiled : compileControlRecordRevision r.processId
      { inputOf r with relationships := links } = .ok r := by
    refine compileControlRecordRevision_congr ⟨rfl, rfl, rfl, hperm.trans hlinks⟩
      (compileControlRecordRevision_inputOf h)
  simp only [revisionFromRow, bind_eq_ok, failIf_eq_ok, exists_unit, orFail_eq_ok, pure_eq_ok]
  refine ⟨Nat.not_lt.mpr hparts.revision, _, hproducer', _, hauthor', _,
    authorityOf_text r.semanticAuthority, _, hpayload', _, hread, r, ?_, ?_, fun hne => hne rfl,
    rfl⟩
  · rw [hprocess, hkind]
    exact hcompiled
  · rw [hparts.digest]
    exact Bool.noConfusion

/-! ## The revisions of a store -/

variable {profiles : String → Schema} {db db' : ControlDatabase} {w w' : StoreWork}

/-- The tables revisions are read from are as they were. -/
structure SameRevisions (db db' : ControlDatabase) : Prop where
  identity : db'.identity = db.identity
  records : db'.records = db.records
  revisions : db'.revisions = db.revisions
  relationships : db'.relationships = db.relationships

theorem SameRevisions.refl (db : ControlDatabase) : SameRevisions db db := ⟨rfl, rfl, rfl, rfl⟩

theorem SameRevisions.trans {db'' : ControlDatabase} (h : SameRevisions db db')
    (h' : SameRevisions db' db'') : SameRevisions db db'' :=
  ⟨h'.identity.trans h.identity, h'.records.trans h.records, h'.revisions.trans h.revisions,
    h'.relationships.trans h.relationships⟩

/-- Only the statements that enter a revision touch these tables. -/
theorem Executed.sameRevisions {s : ControlStatement} (h : Executed db s db')
    (hs : ¬ s.Revising) : SameRevisions db db' := by
  cases h with
  | record => exact absurd trivial hs
  | revision => exact absurd trivial hs
  | relationship => exact absurd trivial hs
  | _ => exact ⟨rfl, rfl, rfl, rfl⟩

theorem Writes.sameRevisions {S : ControlStatement → Prop} (hS : ∀ s, S s → ¬ s.Revising)
    (h : Writes S db db') : SameRevisions db db' :=
  h.invariant (P := SameRevisions db) (.refl db) fun s _ _ hs ha hb =>
    ha.trans (hb.sameRevisions (hS s hs))

/-- **The revisions of a store are sound**: each was compiled under the
identity of the store, and beside it stand the row of its record and exactly
its own links. -/
structure RevisionsSound (db : ControlDatabase) : Prop where
  compiled : ∀ r ∈ db.revisions, ∃ input,
    compileControlRecordRevision db.identity.processId input = .ok r
  processes : ∀ record ∈ db.records, record.processId = db.identity.processId
  unique : (db.records.map (·.recordId)).Nodup
  recorded : ∀ r ∈ db.revisions, ∃ record ∈ db.records, record.recordId = r.recordId
    ∧ record.recordKind = r.recordKind
  linked : ∀ r ∈ db.revisions, linkRows db r.recordId r.revision = r.relationships
  sources : ∀ link ∈ db.relationships, ∃ r ∈ db.revisions, r.recordId = link.sourceRecordId
    ∧ r.revision = link.sourceRevision

theorem RevisionsSound.congr (h : RevisionsSound db) (hsame : SameRevisions db db') :
    RevisionsSound db' := by
  obtain ⟨hidentity, hrecords, hrevisions, hrelationships⟩ := hsame
  constructor
  · rw [hrevisions, hidentity]
    exact h.compiled
  · rw [hrecords, hidentity]
    exact h.processes
  · rw [hrecords]
    exact h.unique
  · rw [hrevisions, hrecords]
    exact h.recorded
  · rw [hrevisions]
    unfold linkRows
    rw [hrelationships]
    exact h.linked
  · rw [hrelationships, hrevisions]
    exact h.sources

/-- A record that is found is the only one of its identity. -/
theorem RevisionsSound.record_eq (h : RevisionsSound db) {a b : ControlRecordRow}
    (ha : a ∈ db.records) (hb : b ∈ db.records) (heq : a.recordId = b.recordId) : a = b :=
  List.inj_on_of_nodup_map h.unique ha hb heq

/-- **Every revision of sound tables is read back.** -/
theorem RevisionsSound.readBack (h : RevisionsSound db) {r : ControlRecordRevision}
    (hr : r ∈ db.revisions) : ∃ row, writtenRow r = .ok row
      ∧ (∃ record ∈ db.records, record.recordId = row.recordId)
      ∧ ∀ record ∈ db.records, record.recordId = row.recordId →
        revisionFromRow db record row = .ok r := by
  obtain ⟨input, hcompiled⟩ := h.compiled r hr
  obtain ⟨record, hrecord, hid, hkind⟩ := h.recorded r hr
  have hprocess : record.processId = r.processId :=
    (h.processes record hrecord).trans (sameContent_inputOf hcompiled).1.symm
  obtain ⟨row, hrow, hread⟩ := revisionFromRow_written hcompiled hprocess hkind
    (List.Perm.of_eq (h.linked r hr))
  have hrowId : row.recordId = r.recordId := by
    simp only [writtenRow, bind_eq_ok, pure_eq_ok] at hrow
    obtain ⟨_, -, _, -, _, -, rfl⟩ := hrow
    rfl
  refine ⟨row, hrow, ⟨record, hrecord, hid.trans hrowId.symm⟩, fun other hother hotherId => ?_⟩
  rw [h.record_eq hother hrecord (hotherId.trans (hrowId.trans hid.symm))]
  exact hread

/-! ## Entering a revision -/

/-- What entering the record of a revision leaves. -/
theorem retainRecord_sound {input : ControlRecordRevisionInput} {r : ControlRecordRevision}
    (hs : RevisionsSound db)
    (hcompiled : compileControlRecordRevision db.identity.processId input = .ok r)
    (h : retainRecord db r = .ok db') :
    RevisionsSound db' ∧ db'.identity = db.identity ∧ db'.revisions = db.revisions
      ∧ ∃ record ∈ db'.records, record.recordId = r.recordId
        ∧ record.recordKind = r.recordKind := by
  unfold retainRecord at h
  split at h
  · next hnone =>
    simp only [bind_eq_ok, failIf_eq_ok, exists_unit] at h
    obtain ⟨-, -, hexecute⟩ := h
    have hfresh : ∀ record ∈ db.records, record.recordId ≠ r.recordId := by
      intro record hrecord heq
      exact absurd (decide_eq_true heq) (List.find?_eq_none.mp hnone record hrecord)
    cases execute_executed hexecute
    refine ⟨⟨hs.compiled, ?_, ?_, ?_, hs.linked, hs.sources⟩, rfl, rfl, _,
      List.mem_append_right _ List.mem_cons_self, rfl, rfl⟩
    · intro record hrecord
      rcases List.mem_append.mp hrecord with hrecord | hrecord
      · exact hs.processes record hrecord
      · obtain rfl := List.mem_singleton.mp hrecord
        exact (sameContent_inputOf hcompiled).1
    · rw [List.map_append, List.map_singleton]
      refine hs.unique.append (List.nodup_singleton _) ?_
      rw [List.disjoint_singleton]
      intro hmem
      obtain ⟨record, hrecord, heq⟩ := List.mem_map.mp hmem
      exact hfresh record hrecord heq
    · intro r' hr'
      obtain ⟨record, hrecord, heq⟩ := hs.recorded r' hr'
      exact ⟨record, List.mem_append_left _ hrecord, heq⟩
  · next record hsome =>
    simp only [bind_eq_ok, failIf_eq_ok, orFail_eq_ok, exists_unit, pure_eq_ok, not_not] at h
    obtain ⟨hkind, _, -, -, rfl⟩ := h
    have hid := List.find?_some hsome
    exact ⟨hs, rfl, rfl, record, List.mem_of_find?_eq_some hsome, of_decide_eq_true hid, hkind⟩

/-- The links of a revision are entered one by one, behind those there. -/
theorem retainRelationships_rows {recordId : String} {revision : Nat}
    {links : List ControlRecordRelationship}
    (h : replay (fun db link => execute db (.insertRelationship ⟨recordId, revision, link⟩)) db
      links = .ok db') :
    db'.identity = db.identity ∧ db'.records = db.records ∧ db'.revisions = db.revisions
      ∧ db'.relationships = db.relationships ++ links.map fun link => ⟨recordId, revision, link⟩ := by
  induction links generalizing db with
  | nil =>
    obtain rfl := Except.ok.inj h
    simp
  | cons link links ih =>
    obtain ⟨next, hfirst, hrest⟩ := bind_eq_ok.mp (replay_cons ▸ h)
    cases execute_executed hfirst
    obtain ⟨hidentity, hrecords, hrevisions, hrelationships⟩ := ih hrest
    refine ⟨hidentity, hrecords, hrevisions, ?_⟩
    rw [hrelationships, List.append_assoc]
    rfl

/-- **A revision that is entered keeps the tables sound.** -/
theorem retainRevision_sound {input : ControlRecordRevisionInput} {r : ControlRecordRevision}
    (hs : RevisionsSound db)
    (hcompiled : compileControlRecordRevision db.identity.processId input = .ok r)
    (h : retainRevision profiles db r = .ok db') :
    RevisionsSound db' ∧ db'.identity = db.identity := by
  simp only [retainRevision, bind_eq_ok, failIf_eq_ok, exists_unit, lifted_eq_ok,
    isSome_ne_true] at h
  obtain ⟨hnew, -, db₁, hrecord, -, db₂, hrevision, hrelationships⟩ := h
  obtain ⟨hs₁, hidentity₁, hrevisions₁, record, hmem, hid, hkind⟩ :=
    retainRecord_sound hs hcompiled hrecord
  -- No revision of the tables has the coordinate of the new one.
  have hfree : ∀ r' ∈ db₁.revisions, ¬ (r'.recordId = r.recordId ∧ r'.revision = r.revision) := by
    intro r' hr' heq
    rw [hrevisions₁] at hr'
    exact absurd (decide_eq_true heq) (List.find?_eq_none.mp hnew r' hr')
  have hunlinked : linkRows db₁ r.recordId r.revision = [] := by
    rw [linkRows, List.map_eq_nil_iff, List.filter_eq_nil_iff]
    intro link hlink heq
    obtain ⟨r', hr', hid', hrevision'⟩ := hs₁.sources link hlink
    obtain ⟨hsource, hnumber⟩ := of_decide_eq_true heq
    exact hfree r' hr' ⟨hid'.trans hsource, hrevision'.trans hnumber⟩
  cases execute_executed hrevision
  obtain ⟨hidentity, hrecords, hrevisions, hlinks⟩ := retainRelationships_rows hrelationships
  have hrows : ∀ recordId revision, linkRows db' recordId revision
      = linkRows db₁ recordId revision
        ++ if r.recordId = recordId ∧ r.revision = revision then r.relationships else [] := by
    intro recordId revision
    rw [linkRows, hlinks, List.filter_append, List.map_append, linkRows]
    congr 1
    by_cases hcoordinate : r.recordId = recordId ∧ r.revision = revision
    · simp [hcoordinate.1, hcoordinate.2, List.filter_map, Function.comp_def]
    · simp [hcoordinate, List.filter_map, Function.comp_def]
  refine ⟨⟨?_, ?_, ?_, ?_, ?_, ?_⟩, hidentity.trans hidentity₁⟩
  · rw [hrevisions, hidentity]
    intro r' hr'
    rcases List.mem_append.mp hr' with hr' | hr'
    · exact hs₁.compiled r' hr'
    · obtain rfl := List.mem_singleton.mp hr'
      exact ⟨input, by rw [hidentity₁]; exact hcompiled⟩
  · rw [hrecords, hidentity]
    exact hs₁.processes
  · rw [hrecords]
    exact hs₁.unique
  · rw [hrevisions, hrecords]
    intro r' hr'
    rcases List.mem_append.mp hr' with hr' | hr'
    · exact hs₁.recorded r' hr'
    · obtain rfl := List.mem_singleton.mp hr'
      exact ⟨record, hmem, hid, hkind⟩
  · rw [hrevisions]
    intro r' hr'
    rw [hrows]
    rcases List.mem_append.mp hr' with hr' | hr'
    · rw [if_neg fun heq => hfree r' hr' ⟨heq.1.symm, heq.2.symm⟩, List.append_nil]
      exact hs₁.linked r' hr'
    · obtain rfl := List.mem_singleton.mp hr'
      rw [if_pos ⟨rfl, rfl⟩, hunlinked, List.nil_append]
  · rw [hlinks, hrevisions]
    intro link hlink
    rcases List.mem_append.mp hlink with hlink | hlink
    · obtain ⟨r', hr', heq⟩ := hs₁.sources link hlink
      exact ⟨r', List.mem_append_left _ hr', heq⟩
    · obtain ⟨_, -, rfl⟩ := List.mem_map.mp hlink
      exact ⟨r, List.mem_append_right _ List.mem_cons_self, rfl, rfl⟩

/-! ## Statements and calls -/

/-- **A transaction keeps the revisions sound**: its tables are, and the
items it has yet to append are compiled. -/
structure KeepsRevisions (w : StoreWork) : Prop where
  sound : RevisionsSound w.db
  queued : ∀ item ∈ w.queue, ∀ r ∈ item.revision, ∃ input,
    compileControlRecordRevision w.db.identity.processId input = .ok r

theorem resolveAppends_keeps {inputs : List ControlRecordStoreAppend}
    {expected : Option PendingFileBatch} (hw : KeepsRevisions w)
    (h : resolveAppends profiles inputs expected w = .ok w') : KeepsRevisions w' := by
  simp only [resolveAppends, bind_eq_ok, exists_unit] at h
  obtain ⟨items, hcompiled, -, h⟩ := h
  split at h
  · simp only [beginAppends, bind_eq_ok, failIf_eq_ok, exists_unit, pure_eq_ok] at h
    obtain ⟨-, -, rfl⟩ := h
    refine ⟨hw.sound, fun item hitem r hr => ?_⟩
    obtain ⟨-, hitems⟩ := compileAppends_items hcompiled
    obtain ⟨input, -, -, hnone, hsome⟩ := exists_partner hitems.flip hitem
    cases hrevision : input.revision with
    | none =>
      rw [hnone hrevision] at hr
      cases hr
    | some given =>
      obtain ⟨compiled, hgiven, heq⟩ := hsome given hrevision
      rw [heq] at hr
      obtain rfl := Option.some.inj hr
      exact ⟨given, hgiven⟩
  · simp only [bind_eq_ok, failIf_eq_ok, exists_unit, pure_eq_ok] at h
    obtain ⟨-, _, -, rfl⟩ := h
    refine ⟨hw.sound, fun _ hitem => ?_⟩
    cases hitem

theorem appendItem_keeps (hw : KeepsRevisions w) (h : appendItem profiles w = .ok w') :
    KeepsRevisions w' := by
  cases hqueue : w.queue with
  | nil =>
    rw [appendItem, hqueue] at h
    obtain rfl := Except.ok.inj h
    exact hw
  | cons item rest =>
    rw [appendItem, hqueue] at h
    obtain ⟨db₁, hrevision, h⟩ := bind_eq_ok.mp h
    simp only [retainEvent, bind_eq_ok, exists_unit, lifted_eq_ok, pure_eq_ok] at h
    obtain ⟨_, -, -, event, -, -, -, settled, -, replay, -, db₂, hinsert, db₃, hremove, -, rfl⟩ := h
    have hentered : RevisionsSound db₁ ∧ db₁.identity = w.db.identity := by
      cases hr : item.revision with
      | none =>
        rw [hr] at hrevision
        obtain rfl := Except.ok.inj hrevision
        exact ⟨hw.sound, rfl⟩
      | some r =>
        rw [hr] at hrevision
        obtain ⟨input, hcompiled⟩ := hw.queued item (hqueue ▸ List.mem_cons_self) r hr
        exact retainRevision_sound hw.sound hcompiled hrevision
    have hevent : SameRevisions db₁ db₂ :=
      (execute_executed hinsert).sameRevisions fun hs => hs
    have hsettled : SameRevisions db₂ db₃ := by
      cases settled with
      | none =>
        obtain rfl := Except.ok.inj hremove
        exact .refl _
      | some request =>
        have hexecuted := execute_executed (s := .deleteStopRequest request.digest) hremove
        exact hexecuted.sameRevisions fun hs => hs
    have hsame := hevent.trans hsettled
    refine ⟨hentered.1.congr hsame, fun item' hitem' => ?_⟩
    rw [hsame.identity, hentered.2]
    exact hw.queued item' (hqueue ▸ List.mem_cons_of_mem _ hitem')

/-- What every statement keeps, a list of statements keeps. -/
theorem runStatements_keeps {P : StoreWork → Prop} {statements : List StoreStatement}
    (hstep : ∀ statement ∈ statements, ∀ w w', P w → statement w = .ok w' → P w') (hw : P w)
    (h : runStatements w statements = .ok w') : P w' := by
  induction statements generalizing w with
  | nil =>
    obtain rfl := Except.ok.inj h
    exact hw
  | cons statement statements ih =>
    obtain ⟨next, hfirst, hrest⟩ := bind_eq_ok.mp h
    exact ih (fun s hs => hstep s (List.mem_cons_of_mem _ hs))
      (hstep statement List.mem_cons_self w next hw hfirst) hrest

theorem appendStatements_keeps {inputs : List ControlRecordStoreAppend}
    {expected : Option PendingFileBatch} (hw : KeepsRevisions w)
    (h : runStatements w (appendStatements profiles inputs expected) = .ok w') :
    KeepsRevisions w' := by
  refine runStatements_keeps (fun statement hmem w w' hw h => ?_) hw h
  simp only [appendStatements, List.mem_append, List.mem_cons, List.mem_map, List.not_mem_nil,
    or_false] at hmem
  rcases hmem with (rfl | ⟨_, -, rfl⟩) | rfl
  · exact resolveAppends_keeps hw (lifted_eq_ok.mp h)
  · exact appendItem_keeps hw h
  · simp only [lifted_eq_ok, assertStandingBriefs, bind_eq_ok, pure_eq_ok] at h
    obtain ⟨_, -, rfl⟩ := h
    exact hw

theorem guarded_eq {check : ControlDatabase → Option StoreHandle → Except StoreFailure Unit}
    (h : guarded check w = .ok w') : w' = w := by
  simp only [guarded, bind_eq_ok, exists_unit, pure_eq_ok] at h
  exact h.2.symm

theorem Writes.support_sameRevisions (h : Writes ControlStatement.Support db db') :
    SameRevisions db db' :=
  h.sameRevisions fun s hs hrevising => by cases s <;> first | exact hs | exact hrevising

theorem Writes.custody_sameRevisions (h : Writes ControlStatement.Custody db db') :
    SameRevisions db db' :=
  h.sameRevisions fun s hs hrevising => by cases s <;> first | exact hs | exact hrevising

/-- **Every call keeps the revisions sound.** -/
theorem callStatements_sound {call : StoreCall} (hw : KeepsRevisions w)
    (h : runStatements w (callStatements profiles call) = .ok w') : RevisionsSound w'.db := by
  have hbatch : ∀ {inputs expected} {check : ControlDatabase → Option StoreHandle →
      Except StoreFailure Unit} {last : List StoreStatement} {w₂ : StoreWork},
      runStatements w ((guarded check :: appendStatements profiles inputs expected) ++ last)
        = .ok w₂ → ∃ w₁, KeepsRevisions w₁ ∧ runStatements w₁ last = .ok w₂ := by
    intro inputs expected check last w₂ hrun
    rw [List.cons_append] at hrun
    obtain ⟨w₀, hguard, hrest⟩ := bind_eq_ok.mp hrun
    obtain rfl := guarded_eq hguard
    obtain ⟨w₁, happends, hlast⟩ := replay_append_eq_ok.mp hrest
    exact ⟨w₁, appendStatements_keeps hw happends, hlast⟩
  have hoperation : ∀ {readOnly closed mutations appends expected} {w₂ : StoreWork},
      runStatements w (operationBatchStatements profiles readOnly closed mutations appends
        expected) = .ok w₂ → RevisionsSound w₂.db := by
    intro readOnly closed mutations appends expected w₂ hrun
    obtain ⟨w₁, hkeeps, hlast⟩ := hbatch hrun
    rw [runStatements, replay_append_eq_ok] at hlast
    obtain ⟨w₃, hmutations, hkept⟩ := hlast
    obtain ⟨hwrites, -⟩ := resolveMutations_writes hmutations
    obtain rfl := Except.ok.inj hkept
    rw [keepReplay_db]
    exact hkeeps.sound.congr hwrites.support_sameRevisions
  have happend : ∀ {inputs expected} {w₂ : StoreWork},
      runStatements w (appendBatchStatements profiles inputs expected) = .ok w₂ →
        RevisionsSound w₂.db := by
    intro inputs expected w₂ hrun
    obtain ⟨w₁, hkeeps, hlast⟩ := hbatch hrun
    obtain rfl := Except.ok.inj hlast
    rw [keepReplay_db]
    exact hkeeps.sound
  have houtcome := callOutcome h
  cases houtcome with
  | appendBatch | appendFileBatch => exact happend h
  | commitOperationBatch | commitFileBatch => exact hoperation h
  | putOperationSupport hmutation | deleteOperationSupport hmutation =>
    obtain ⟨-, ⟨_, -, hmutate⟩, -⟩ := hmutation
    exact hw.sound.congr (mutateSupport_writes hmutate).support_sameRevisions
  | requestWorkDelegationStop hstop =>
    rcases hstop.tables with hsame | ⟨request, hexecute, -⟩
    · rw [hsame]
      exact hw.sound
    · exact hw.sound.congr ((execute_executed hexecute).sameRevisions fun hs => hs)
  | beginPendingFileBatch htables | recordPendingFileDescriptors htables
  | cleanPendingFileBatch htables => exact hw.sound.congr htables.1.custody_sameRevisions
  | sealStore hseal =>
    simp only [ControlStore.sealStore, bind_eq_ok, orFail_eq_ok, failIf_eq_ok, exists_unit,
      lifted_eq_ok] at hseal
    obtain ⟨db₁, hdisposed, _, -, -, _, -, hexecute⟩ := hseal
    exact hw.sound.congr (((execute_executed hdisposed).sameRevisions fun hs => hs).trans
      ((execute_executed hexecute).sameRevisions fun hs => hs))

/-! ## Reachable stores -/

section Reachable

variable {κ : Type} [DecidableEq κ] {identity : ControlRecordStoreIdentity}

theorem RevisionsSound.of_reachable {s : StoreState κ}
    (h : (storeCalls profiles κ identity).Reachable s) : RevisionsSound s.shared := by
  refine h.invariant (P := fun s => RevisionsSound s.shared) ?_ fun s l t hs hstep => ?_
  · rintro s ⟨⟨hdb, -⟩, -⟩
    rw [hdb]
    exact ⟨nofun, nofun, List.nodup_nil, nofun, nofun, nofun⟩
  · cases l with
    | check k call =>
      obtain ⟨-, rfl⟩ := hstep
      exact hs
    | renew k =>
      obtain ⟨_, -, rfl⟩ := hstep
      exact hs
    | call k call =>
      obtain ⟨-, w', hrun, rfl⟩ := hstep
      exact callStatements_sound ⟨hs, fun _ hitem => absurd hitem List.not_mem_nil⟩ hrun

/-- **The revisions of every reachable store are sound.** -/
theorem revisionsSound {s : ClientState κ StoreCall ControlDatabase (Option StoreHandle) StoreWork
    StoreFailure} (h : (storeSystem profiles κ identity).Reachable s) :
    RevisionsSound s.shared :=
  .of_reachable (committed_reachable h)

end Reachable

/-! ## Stability -/

/-- **Two inputs that differ only in spelling**: in line ends and final
newlines of the Markdown, in the order of object keys at any depth of the
payload, and in the order of relationships. -/
structure Rearranged (a b : ControlRecordRevisionInput) : Prop where
  fields : b = { a with
    semanticMarkdown := b.semanticMarkdown
    payload := b.payload
    relationships := b.relationships }
  semanticMarkdown : markdownBody a.semanticMarkdown = markdownBody b.semanticMarkdown
  payload : Reordered (.object a.payload) (.object b.payload)
  relationships : b.relationships.Perm a.relationships

theorem Rearranged.sameContent {a b : ControlRecordRevisionInput} (h : Rearranged a b) :
    SameContent a b :=
  ⟨h.fields, h.semanticMarkdown, h.payload.canonicalOrder_eq, h.relationships⟩

/-- **Recompilation is stable.** A compiled revision compiles to itself, its
Markdown and its relationships being normal already. Inputs that differ only
in spelling compile to the same revision, with its digest. The row of every
revision of a reachable store is read back as that revision. -/
theorem revisionStability (profiles : String → Schema) (κ : Type) [DecidableEq κ]
    (identity : ControlRecordStoreIdentity) :
    (∀ processId input r, compileControlRecordRevision processId input = .ok r →
      compileControlRecordRevision r.processId (inputOf r) = .ok r
      ∧ normalizeSemanticMarkdown r.semanticMarkdown = .ok r.semanticMarkdown
      ∧ normalizedRelationships r.relationships = .ok r.relationships
      ∧ ∀ input', Rearranged input input' →
        compileControlRecordRevision processId input' = .ok r)
    ∧ ∀ s, (storeSystem profiles κ identity).Reachable s → ∀ r ∈ s.shared.revisions,
      ∃ row, writtenRow r = .ok row
        ∧ (∃ record ∈ s.shared.records, record.recordId = row.recordId)
        ∧ ∀ record ∈ s.shared.records, record.recordId = row.recordId →
          revisionFromRow s.shared record row = .ok r := by
  refine ⟨fun processId input r h => ⟨compileControlRecordRevision_inputOf h, ?_, ?_,
    fun input' hinput' => compileControlRecordRevision_congr hinput'.sameContent h⟩,
    fun s hs r hr => (revisionsSound hs).readBack hr⟩
  · simp only [compileControlRecordRevision, bind_eq_ok, failIf_eq_ok, exists_unit,
      pure_eq_ok] at h
    obtain ⟨_, -, _, -, -, _, -, _, -, _, hmarkdown, _, -, _, -, _, -, _, -, _, -, rfl⟩ := h
    exact normalizeSemanticMarkdown_normalized hmarkdown
  · simp only [compileControlRecordRevision, bind_eq_ok, failIf_eq_ok, exists_unit,
      pure_eq_ok] at h
    obtain ⟨_, -, _, -, -, _, -, _, -, _, -, links, hlinks, _, -, _, -, _, -, _, -, rfl⟩ := h
    exact normalizedRelationships_perm (normalizedRelationships_isPerm hlinks) hlinks

namespace Sample

/-- A link to the first revision of a brief. -/
def briefLink (id : String) : ControlRecordRelationship :=
  ⟨"uses-brief",
    ⟨"director-brief", id, 1, String.ofList ("sha256:".toList ++ List.replicate 64 '0')⟩⟩

/-- An input with CRLF line ends, its keys and its links out of order. -/
def looseInput : ControlRecordRevisionInput where
  recordId := "note-1"
  recordKind := "note"
  revision := 1
  producer := ⟨.agent, "agent-1"⟩
  semanticAuthor := ⟨.director, "director-1"⟩
  semanticAuthority := .agentProposed
  createdAt := "2026-01-05T09:00:00Z"
  semanticMarkdown := "Text\r\n\r\n"
  payload := [("b", .string "x"), ("a", nat 1)]
  relationships := [briefLink "brief-2", briefLink "brief-1"]

/-- The same input, spelled as it is compiled. -/
def tidyInput : ControlRecordRevisionInput :=
  { looseInput with
    semanticMarkdown := "Text\n"
    payload := [("a", nat 1), ("b", .string "x")]
    relationships := [briefLink "brief-1", briefLink "brief-2"] }

theorem rearranged_tidyInput : Rearranged looseInput tidyInput := by
  refine ⟨rfl, by decide +kernel, ?_, List.Perm.swap _ _ _⟩
  refine ⟨by simp [keys, looseInput], looseInput.payload, _, rfl, ?_, List.Perm.swap _ _ _⟩
  exact ⟨_, _, rfl, rfl, _, _, rfl, rfl, rfl⟩

end Sample

/-- The two spellings compile to one revision, which compiles to itself. -/
theorem looseInput_stable : ∃ r,
    compileControlRecordRevision "delivery-1" Sample.looseInput = .ok r
      ∧ compileControlRecordRevision r.processId (inputOf r) = .ok r
      ∧ compileControlRecordRevision "delivery-1" Sample.tidyInput = .ok r := by
  have hok : (compileControlRecordRevision "delivery-1" Sample.looseInput).isOk = true := by
    decide +kernel
  cases h : compileControlRecordRevision "delivery-1" Sample.looseInput with
  | error e =>
    rw [h] at hok
    cases hok
  | ok r =>
    obtain ⟨hself, -, -, hsame⟩ :=
      (revisionStability Sample.noProfiles Nat Sample.storeIdentity).1 _ _ _ h
    exact ⟨r, rfl, hself, hsame _ Sample.rearranged_tidyInput⟩
