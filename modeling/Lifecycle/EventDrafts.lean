import Lifecycle.DeliverySteps
import Lifecycle.PlainPayloads
import Mathlib.Data.Fintype.BigOperators

/-!
# Drafts of events

What a journal may go on with. A draft is an event that has no place in a
journal yet: its kind, its subject and its payload. Placed after the last
event of a replay it is compiled as a control store compiles it, and its
envelope is verified whatever the journal holds (`append_place`). Whether
a draft is accepted is then a matter of its handler alone. After any
journal with room there is a place (`exists_place`).
-/

open Fallible Json ControlModel DeliveryReducer

/-! ## Drafts -/

/-- **An event without its place in a journal.** -/
structure EventDraft where
  kind : DeliveryEventKind
  subject : Option ControlRecordEventSubject
  payload : JsonObject

namespace EventDraft

/-- **A draft a store compiles and the event registry admits.** -/
structure Admissible (d : EventDraft) : Prop where
  light : LightPayload d.payload
  subject : checkEventSubject d.subject = .ok ()
  use : DeliveryEvents.subjectUse d.kind = .forbidden ↔ d.subject = none
  fields : sortKeys (keys d.payload)
    = sortKeys ((DeliveryEvents.expectedFields d.kind d.payload).map Prod.fst)
  values : ∀ name v field, member name d.payload = some v →
    (DeliveryEvents.expectedFields d.kind d.payload).lookup name = some field →
    DeliveryEvents.assertPayloadValue name v field = .ok ()
  facts : d.kind = .transactionEffectObserved →
    DeliveryEvents.assertFactsDigest d.payload = .ok ()

end EventDraft

theorem assertPayloadValues_eq_ok {payload : JsonObject}
    {fields : List (String × PayloadField)} {names : List String}
    (h : ∀ name v field, member name payload = some v → fields.lookup name = some field →
      DeliveryEvents.assertPayloadValue name v field = .ok ()) :
    DeliveryEvents.assertPayloadValues payload fields names = .ok () := by
  induction names with
  | nil => rfl
  | cons name names ih =>
    have hmember : DeliveryEvents.assertPayloadMember payload fields name = .ok () := by
      unfold DeliveryEvents.assertPayloadMember
      split
      · next value field hvalue hfield => exact h name value field hvalue hfield
      · rfl
    rw [DeliveryEvents.assertPayloadValues, hmember, ok_bind, ih]

theorem parseKind_kindText (k : DeliveryEventKind) :
    DeliveryEvents.parseKind (DeliveryEvents.kindText k) = some k := by
  cases k <;> decide +kernel

/-- The envelope of an event is that of its kind, its subject and its
payload. -/
theorem EventDraft.Admissible.envelope {d : EventDraft} (h : d.Admissible)
    {event : ControlRecordEvent} (hkind : event.eventKind = DeliveryEvents.kindText d.kind)
    (hsubject : event.subject = d.subject) (hpayload : event.payload = d.payload) :
    assertDeliveryEventEnvelope event = .ok (DeliveryEvents.descriptor d.kind) := by
  have hdescriptor : deliveryEventDescriptor event.eventKind
      = .ok (DeliveryEvents.descriptor d.kind) := by
    rw [deliveryEventDescriptor, hkind, parseKind_kindText]
  have hchecked : assertDeliveryEventPayload event = .ok event.payload := by
    simp only [assertDeliveryEventPayload, bind_eq_ok, failIf_eq_ok, exists_unit, pure_eq_ok,
      onlyIf_eq_ok, not_not]
    refine ⟨_, hdescriptor, ?_, ?_, ?_, trivial⟩
    · rw [hpayload]
      exact h.fields
    · rw [hpayload]
      exact assertPayloadValues_eq_ok h.values
    · rw [hpayload]
      exact h.facts
  have huse : (DeliveryEvents.descriptor d.kind).subjectUse = .forbidden ↔ d.subject = none :=
    h.use
  simp only [assertDeliveryEventEnvelope, bind_eq_ok, failIf_eq_ok, exists_unit, pure_eq_ok]
  refine ⟨_, hdescriptor, ?_, ?_, _, hchecked, rfl⟩
  · rw [hsubject, huse]
    tauto
  · rw [hsubject, ne_eq, huse]
    tauto

/-! ## Drafts of texts -/

/-- The payload whose members are texts. -/
def textPayload (texts : List (String × String)) : JsonObject :=
  texts.map fun t => (t.1, .string t.2)

/-- Whether a text is a value of a field. -/
def TextFits : PayloadField → String → Prop
  | .identifier, s => isIdentifier s = true
  | .sha256, s => isSha256 s = true
  | .values texts, s => s ∈ texts
  | _, _ => False

instance : (field : PayloadField) → (s : String) → Decidable (TextFits field s)
  | .identifier, s => inferInstanceAs (Decidable (isIdentifier s = true))
  | .sha256, s => inferInstanceAs (Decidable (isSha256 s = true))
  | .values texts, s => inferInstanceAs (Decidable (s ∈ texts))
  | .nullableSha256, _ => inferInstanceAs (Decidable False)
  | .transactionFacts, _ => inferInstanceAs (Decidable False)
  | .positiveInteger, _ => inferInstanceAs (Decidable False)
  | .timestamp, _ => inferInstanceAs (Decidable False)
  | .workReservation, _ => inferInstanceAs (Decidable False)

/-- The names of a payload's members are those of a kind, in order. -/
structure NamesFit (k : DeliveryEventKind) (names : List String) : Prop where
  fields : sortKeys names = sortKeys ((DeliveryEvents.payloadFields k).map Prod.fst)
  sorted : names.Pairwise fun a b => codeUnitLe a b = true
  few : names.length ≤ 4
  short : ∀ name ∈ names, byteLength name ≤ 32

instance (k : DeliveryEventKind) (names : List String) : Decidable (NamesFit k names) :=
  decidable_of_iff
    (sortKeys names = sortKeys ((DeliveryEvents.payloadFields k).map Prod.fst)
      ∧ (names.Pairwise fun a b => codeUnitLe a b = true) ∧ names.length ≤ 4
      ∧ ∀ name ∈ names, byteLength name ≤ 32)
    ⟨fun h => ⟨h.1, h.2.1, h.2.2.1, h.2.2.2⟩, fun h => ⟨h.fields, h.sorted, h.few, h.short⟩⟩

theorem mem_of_sortKeys_eq {as bs : List String} (h : sortKeys as = sortKeys bs) {name : String}
    (hname : name ∈ as) : name ∈ bs := by
  have hsorted : name ∈ sortKeys as := (List.mem_insertionSort _).mpr hname
  rw [h] at hsorted
  exact (List.mem_insertionSort _).mp hsorted

theorem keys_textPayload (texts : List (String × String)) :
    keys (textPayload texts) = texts.map Prod.fst := by
  simp [keys, textPayload]

theorem mem_keys_of_hasOwn {o : JsonObject} {name : String} (h : hasOwn o name = true) :
    name ∈ keys o := by
  induction o with
  | nil => simp [hasOwn, member] at h
  | cons m ms ih =>
    rw [hasOwn, member] at h
    split at h
    · next heq => simp [keys, heq]
    · exact List.mem_cons_of_mem _ (ih h)

theorem member_textPayload {texts : List (String × String)} {name : String} {v : Json}
    (h : member name (textPayload texts) = some v) :
    ∃ s, v = .string s ∧ (name, s) ∈ texts := by
  induction texts with
  | nil => simp [textPayload, member] at h
  | cons t ts ih =>
    rw [textPayload, List.map_cons, member] at h
    split at h
    · next heq =>
      obtain rfl := Option.some.inj h
      exact ⟨t.2, rfl, by simp [← heq]⟩
    · obtain ⟨s, rfl, hs⟩ := ih h
      exact ⟨s, rfl, List.mem_cons_of_mem _ hs⟩

theorem byteLength_of_isSha256 {s : String} (h : isSha256 s = true) : byteLength s = 71 := by
  simp only [isSha256, Bool.and_eq_true, decide_eq_true_eq] at h
  exact h.1.1

theorem byteLength_of_mem_values (k : DeliveryEventKind) :
    ∀ f ∈ DeliveryEvents.payloadFields k, ∀ texts, f.2 = .values texts →
      ∀ s ∈ texts, byteLength s ≤ 512 := by
  have hshort : ∀ f ∈ DeliveryEvents.payloadFields k, ∀ s ∈ (match f.2 with
      | .values texts => texts
      | _ => []), byteLength s ≤ 512 := by
    cases k <;> decide +kernel
  intro f hf texts htexts s hs
  refine hshort f hf s ?_
  rw [htexts]
  exact hs

/-- A text that fits a field is short, and passes the field's check. -/
theorem TextFits.checked {k : DeliveryEventKind} {name s : String} {field : PayloadField}
    (hfield : (name, field) ∈ DeliveryEvents.payloadFields k) (h : TextFits field s) :
    byteLength s ≤ 512 ∧ DeliveryEvents.assertPayloadValue name (.string s) field = .ok () := by
  cases field with
  | identifier =>
    have hid : isIdentifier s = true := h
    refine ⟨?_, failIf_neg (by simp [hid])⟩
    rw [isIdentifier, Bool.and_eq_true, decide_eq_true_eq] at hid
    exact hid.2
  | sha256 =>
    have hsha : isSha256 s = true := h
    refine ⟨?_, failIf_neg (by simp [hsha])⟩
    rw [byteLength_of_isSha256 hsha]
    omega
  | values texts => exact ⟨byteLength_of_mem_values k _ hfield texts rfl s h, failIf_neg (not_not.mpr h)⟩
  | _ => exact absurd h not_false

/-- The texts fit the fields of a kind. -/
def TextsFit (k : DeliveryEventKind) (texts : List (String × String)) : Prop :=
  ∀ t ∈ texts, ∀ field ∈ (DeliveryEvents.payloadFields k).lookup t.1, TextFits field t.2

instance (k : DeliveryEventKind) (texts : List (String × String)) :
    Decidable (TextsFit k texts) :=
  inferInstanceAs (Decidable (∀ t ∈ texts, ∀ field ∈ _, TextFits field t.2))

theorem mem_of_lookup_eq_some {fields : List (String × PayloadField)} {name : String}
    {field : PayloadField} (h : fields.lookup name = some field) : (name, field) ∈ fields := by
  obtain ⟨before, after, rfl, -⟩ := List.lookup_eq_some_iff.mp h
  simp

/-- A payload of few short texts is light. -/
theorem light_textPayload {texts : List (String × String)}
    (hsorted : (texts.map Prod.fst).Pairwise fun a b => codeUnitLe a b = true)
    (hfew : texts.length ≤ 4) (hshort : ∀ t ∈ texts, byteLength t.1 ≤ 32 ∧ byteLength t.2 ≤ 512) :
    LightPayload (textPayload texts) := by
  have hplain : ∀ ts : List (String × String), PlainMembers (textPayload ts) := by
    intro ts
    induction ts with
    | nil => trivial
    | cons t ts ih => exact ⟨trivial, ih⟩
  have hweight : ∀ ts : List (String × String),
      (∀ t ∈ ts, byteLength t.1 ≤ 32 ∧ byteLength t.2 ≤ 512) →
      weightMembers (textPayload ts) ≤ 3270 * ts.length := by
    intro ts hts
    induction ts with
    | nil => exact Nat.le_refl _
    | cons t ts ih =>
      obtain ⟨hname, hvalue⟩ := hts t List.mem_cons_self
      have hrest := ih fun u hu => hts u (List.mem_cons_of_mem _ hu)
      show 6 * byteLength t.1 + 4 + (6 * byteLength t.2 + 2) + weightMembers (textPayload ts) ≤ _
      rw [List.length_cons]
      omega
  have hheight : ∀ ts : List (String × String), heightMembers (textPayload ts) = 0 := by
    intro ts
    induction ts with
    | nil => rfl
    | cons t ts ih => exact Nat.max_eq_zero_iff.mpr ⟨rfl, ih⟩
  refine ⟨⟨hplain texts, by rwa [keys_textPayload]⟩, ?_, ?_⟩
  · have hle := hweight texts hshort
    rw [weight]
    omega
  · rw [height, hheight]
    omega

/-- The fields expected of a payload are those of its kind, unless it is a
standing brief or a delegated opening. -/
theorem expectedFields_of_keys {k : DeliveryEventKind} {payload : JsonObject}
    (h : sortKeys (keys payload) = sortKeys ((DeliveryEvents.payloadFields k).map Prod.fst)) :
    DeliveryEvents.expectedFields k payload = DeliveryEvents.payloadFields k := by
  unfold DeliveryEvents.expectedFields
  rw [if_neg, if_neg]
  · rintro ⟨rfl, hown⟩
    have hmem := mem_of_sortKeys_eq h (mem_keys_of_hasOwn hown)
    revert hmem
    decide
  · rintro ⟨rfl, hown⟩
    have hmem := mem_of_sortKeys_eq h (mem_keys_of_hasOwn hown)
    revert hmem
    decide

/-- **A draft of texts that fit is admissible.** -/
theorem admissible_texts {k : DeliveryEventKind} {subject : Option ControlRecordEventSubject}
    {texts : List (String × String)} (hkind : k ≠ .transactionEffectObserved)
    (hnames : NamesFit k (texts.map Prod.fst)) (htexts : TextsFit k texts)
    (hsubject : checkEventSubject subject = .ok ())
    (huse : DeliveryEvents.subjectUse k = .forbidden ↔ subject = none) :
    (EventDraft.mk k subject (textPayload texts)).Admissible := by
  have hchecked : ∀ t ∈ texts, ∀ field, (DeliveryEvents.payloadFields k).lookup t.1 = some field →
      byteLength t.2 ≤ 512 ∧ DeliveryEvents.assertPayloadValue t.1 (.string t.2) field = .ok () :=
    fun t ht field hfield => (htexts t ht field hfield).checked (mem_of_lookup_eq_some hfield)
  have hkeys : sortKeys (keys (textPayload texts))
      = sortKeys ((DeliveryEvents.payloadFields k).map Prod.fst) := by
    rw [keys_textPayload]
    exact hnames.fields
  have hexpected := expectedFields_of_keys hkeys
  have hshort : ∀ t ∈ texts, byteLength t.1 ≤ 32 ∧ byteLength t.2 ≤ 512 := by
    intro t ht
    have hmem := List.mem_map_of_mem (f := Prod.fst) ht
    refine ⟨hnames.short _ hmem, ?_⟩
    obtain ⟨field, hfield, hname⟩ := List.mem_map.mp (mem_of_sortKeys_eq hnames.fields hmem)
    have hsome : ((DeliveryEvents.payloadFields k).lookup t.1).isSome = true :=
      List.lookup_isSome_iff.mpr ⟨field, hfield, by simp [hname]⟩
    obtain ⟨found, hfound⟩ := Option.isSome_iff_exists.mp hsome
    exact (hchecked t ht found hfound).1
  refine ⟨light_textPayload hnames.sorted (by simpa using hnames.few) hshort, hsubject, huse, ?_,
    ?_, fun h => absurd h hkind⟩
  · show sortKeys (keys (textPayload texts)) = _
    rw [hexpected, hkeys]
  · intro name v field hv hfield
    replace hfield : (DeliveryEvents.payloadFields k).lookup name = some field := hexpected ▸ hfield
    obtain ⟨s, rfl, hs⟩ := member_textPayload hv
    exact (hchecked _ hs field hfield).2

/-! ## Drafts of transaction observations -/

/-- The digest of a value, when it has one. -/
def digestOf (v : Json) : Sha256Digest := (digestCanonical v).toOption.getD ""

theorem digestCanonical_of_plain {v : Json} (h : v.Plain) :
    digestCanonical v = .ok (digestOf v) ∧ isSha256 (digestOf v) = true := by
  obtain ⟨text, htext, -⟩ := exists_text_of_plain h
  have hdigest : digestCanonical v = .ok (sha256Bytes text) := by
    rw [digestCanonical, htext]
    rfl
  rw [digestOf, hdigest]
  exact ⟨rfl, isSha256_sha256Bytes text⟩

/-- The payload of a transaction's observation. -/
def observationPayload (activityId : String) (effectDigest : Sha256Digest) (facts : JsonObject)
    (outcome : TransactionOutcome) : JsonObject :=
  [("activityId", .string activityId), ("effectDigest", .string effectDigest),
    ("facts", .object facts), ("factsDigest", .string (digestOf (.object facts))),
    ("outcome", .string (TransactionFacts.outcomeText outcome))]

/-- **Facts light enough to observe a transaction by.** -/
structure LightFacts (facts : JsonObject) : Prop where
  plain : Plain (.object facts)
  light : weight (.object facts) ≤ 8192
  shallow : height (.object facts) ≤ 8
  parsed : parseTransactionObservationFacts (some (.object facts)) = .ok facts

theorem observationPayload_names :
    sortKeys ["activityId", "effectDigest", "facts", "factsDigest", "outcome"]
        = sortKeys ((DeliveryEvents.payloadFields .transactionEffectObserved).map Prod.fst)
      ∧ ["activityId", "effectDigest", "facts", "factsDigest", "outcome"].Pairwise
        (fun a b => codeUnitLe a b = true) := by
  decide +kernel

theorem light_observationPayload {activityId : String} {effectDigest : Sha256Digest}
    {facts : JsonObject} {outcome : TransactionOutcome} (hid : isIdentifier activityId = true)
    (heffect : isSha256 effectDigest = true) (hfacts : LightFacts facts) :
    LightPayload (observationPayload activityId effectDigest facts outcome) := by
  have hnames : byteLength "activityId" = 10 ∧ byteLength "effectDigest" = 12
      ∧ byteLength "facts" = 5 ∧ byteLength "factsDigest" = 11 ∧ byteLength "outcome" = 7 := by
    decide +kernel
  have houtcome : byteLength (TransactionFacts.outcomeText outcome) ≤ 16 := by
    cases outcome <;> decide +kernel
  have hshort : byteLength activityId ≤ 512 := by
    rw [isIdentifier, Bool.and_eq_true, decide_eq_true_eq] at hid
    exact hid.2
  have heffect := byteLength_of_isSha256 heffect
  have hdigest := byteLength_of_isSha256 (digestCanonical_of_plain hfacts.plain).2
  have hlight := hfacts.light
  have hshallow := hfacts.shallow
  obtain ⟨h₁, h₂, h₃, h₄, h₅⟩ := hnames
  refine ⟨⟨⟨trivial, trivial, hfacts.plain, trivial, trivial, trivial⟩,
    observationPayload_names.2⟩, ?_, ?_⟩
  · simp only [observationPayload, weight, weightMembers] at hlight ⊢
    omega
  · simp only [observationPayload, height, heightMembers] at hshallow ⊢
    omega

/-- **A draft that observes a transaction by light facts is admissible.** -/
theorem admissible_observation {activityId : String} {effectDigest : Sha256Digest}
    {facts : JsonObject} {outcome : TransactionOutcome} {subject : ControlRecordEventSubject}
    (hid : isIdentifier activityId = true) (heffect : isSha256 effectDigest = true)
    (hfacts : LightFacts facts) (hsubject : checkEventSubject (some subject) = .ok ()) :
    (EventDraft.mk .transactionEffectObserved (some subject)
      (observationPayload activityId effectDigest facts outcome)).Admissible := by
  have hdigest := digestCanonical_of_plain hfacts.plain
  have hexpected : DeliveryEvents.expectedFields .transactionEffectObserved
      (observationPayload activityId effectDigest facts outcome)
        = DeliveryEvents.payloadFields .transactionEffectObserved :=
    expectedFields_of_keys observationPayload_names.1
  refine ⟨light_observationPayload hid heffect hfacts, hsubject, by
    simp [DeliveryEvents.subjectUse], ?_, ?_, ?_⟩
  · rw [hexpected]
    exact observationPayload_names.1
  · intro name v field hv hfield
    rw [hexpected] at hfield
    have hmem := mem_of_lookup_eq_some hfield
    simp only [DeliveryEvents.payloadFields, List.mem_cons, Prod.mk.injEq, List.not_mem_nil,
      or_false] at hmem
    rcases hmem with ⟨rfl, rfl⟩ | ⟨rfl, rfl⟩ | ⟨rfl, rfl⟩ | ⟨rfl, rfl⟩ | ⟨rfl, rfl⟩ <;>
      simp only [observationPayload, member, String.reduceEq, if_true, if_false,
        Option.some.injEq] at hv <;> subst hv
    · exact failIf_neg (by simp [hid])
    · exact failIf_neg (by simp [heffect])
    · simp only [DeliveryEvents.assertPayloadValue, bind_eq_ok]
      exact ⟨facts, hfacts.parsed, rfl⟩
    · exact failIf_neg (by simp [hdigest.2])
    · refine failIf_neg (not_not.mpr ?_)
      cases outcome <;> decide
  · intro _
    simp only [DeliveryEvents.assertFactsDigest, bind_eq_ok, failIf_eq_ok]
    exact ⟨facts, hfacts.parsed, _, hdigest.1, by simp [observationPayload, member, asString]⟩

/-! ## Places -/

/-- Where an event stands in a journal, but for what the journal itself
says. -/
structure EventPlace where
  storeId : String
  processId : String
  eventId : String
  occurredAt : String
  actor : ControlActor

/-- The sequence of the last event of a replay. -/
def lastSequence (r : Replay) : Nat := (r.lastEvent.map (·.sequence)).getD 0

/-- **A place after the last event of a replay.** -/
structure EventPlace.Follows (p : EventPlace) (r : Replay) : Prop where
  store : isIdentifier p.storeId = true
  process : isIdentifier p.processId = true
  event : isIdentifier p.eventId = true
  actor : isIdentifier p.actor.id = true
  time : ∀ label, controlTimestamp p.occurredAt label = .ok p.occurredAt
  room : lastSequence r + 1 ≤ maxSafeInteger
  scope : ∀ last ∈ r.lastEvent, r.storeId = some p.storeId ∧ r.processId = some p.processId
    ∧ 1 ≤ last.sequence
  fresh : p.eventId ∉ r.eventIds
  notBefore : ¬ ∃ last ∈ r.lastOccurredAt, ∃ t ∈ Timestamp.dateParse p.occurredAt, t < last

/-- A draft in its place, but its digest. -/
def undigestedPlace (r : Replay) (p : EventPlace) (d : EventDraft) : ControlRecordEvent :=
  undigestedEvent p.storeId p.processId (lastSequence r + 1) (r.lastEvent.map (·.digest))
    ⟨p.eventId, DeliveryEvents.kindText d.kind, p.occurredAt, p.actor, d.subject, d.payload⟩
    d.payload

/-- **A draft in its place.** -/
def place (r : Replay) (p : EventPlace) (d : EventDraft) : ControlRecordEvent :=
  { undigestedPlace r p d with
    digest := (digestCanonical (eventSubjectJson (undigestedPlace r p d))).toOption.getD "" }

/-- The replay once an envelope was verified. -/
def verifiedReplay (r : Replay) (event : ControlRecordEvent) : Replay :=
  { r with
    storeId := if r.lastEvent.isNone then some event.storeId else r.storeId
    processId := if r.lastEvent.isNone then some event.processId else r.processId
    eventIds := event.eventId :: r.eventIds
    lastOccurredAt := Timestamp.dateParse event.occurredAt }

section Place

variable {r next : Replay} {p : EventPlace} {d : EventDraft}

theorem matchesRelationPattern_kindText (k : DeliveryEventKind) :
    matchesRelationPattern (DeliveryEvents.kindText k) = true
      ∧ byteLength (DeliveryEvents.kindText k) ≤ 160 := by
  cases k <;> decide +kernel

theorem checkEventSubject_revision {s : ControlRecordEventSubject} {u : Unit}
    (h : checkEventSubject (some s) = .ok u) : s.revision ≤ maxSafeInteger := by
  simp only [checkEventSubject, bind_eq_ok, failIf_eq_ok] at h
  obtain ⟨-, -, -, hrevision, -⟩ := h
  omega

/-- The digested part of a placed draft has a canonical text. -/
theorem canonicalizable_undigestedPlace (hd : d.Admissible) (hp : p.Follows r) :
    Canonicalizable (eventSubjectJson (undigestedPlace r p d)) := by
  have hpayload : Canonicalizable (.object d.payload) := by
    obtain ⟨t, ht, -⟩ := exists_text_of_plain hd.light.plain
    exact ⟨t, ht⟩
  have hactor : Canonicalizable (actorJson p.actor) := by
    refine canonicalizable_object ?_
    simp only [List.mem_cons, List.not_mem_nil, or_false, forall_eq_or_imp, forall_eq]
    exact ⟨canonicalizable_string _, canonicalizable_string _⟩
  refine canonicalizable_object ?_
  simp only [List.mem_cons, List.not_mem_nil, or_false, forall_eq_or_imp, forall_eq,
    undigestedPlace, undigestedEvent]
  refine ⟨canonicalizable_string _, canonicalizable_string _, canonicalizable_string _,
    canonicalizable_nat hp.room, canonicalizable_string _, canonicalizable_string _,
    canonicalizable_string _, hactor, ?_, hpayload, canonicalizable_textOrNull _⟩
  cases hs : d.subject with
  | none => exact canonicalizable_null
  | some s =>
    refine canonicalizable_object ?_
    simp only [List.mem_cons, List.not_mem_nil, or_false, forall_eq_or_imp, forall_eq]
    exact ⟨canonicalizable_string _,
      canonicalizable_nat (checkEventSubject_revision (hs ▸ hd.subject)),
      canonicalizable_string _⟩

/-- **A placed draft is what it compiles to.** -/
theorem compile_place (hd : d.Admissible) (hp : p.Follows r) :
    compileControlRecordEvent p.storeId p.processId (lastSequence r + 1)
      (r.lastEvent.map (·.digest)) (eventInput (place r p d)) = .ok (place r p d) := by
  obtain ⟨text, htext⟩ := canonicalizable_undigestedPlace hd hp
  have hroom := hp.room
  have hfirst : decide (lastSequence r + 1 = 1)
      = decide (r.lastEvent.map (·.digest) = none) := by
    cases hlast : r.lastEvent with
    | none => simp [lastSequence, hlast]
    | some last =>
      have hsequence := (hp.scope last hlast).2.2
      simp only [lastSequence, hlast, Option.map_some, Option.getD_some, reduceCtorEq,
        decide_false, decide_eq_false_iff_not]
      omega
  obtain ⟨hkind, hlength⟩ := matchesRelationPattern_kindText d.kind
  have hevent : eventInput (place r p d) = ⟨p.eventId, DeliveryEvents.kindText d.kind,
      p.occurredAt, p.actor, d.subject, d.payload⟩ := rfl
  have hidentifier : ∀ {value label : String}, isIdentifier value = true →
      controlIdentifier value label = .ok value := by
    intro value label h
    rw [controlIdentifier, failIf_neg (by simp [h])]
    rfl
  have hdigest : digestCanonical (eventSubjectJson (undigestedPlace r p d))
      = .ok (sha256Bytes text) := by
    rw [digestCanonical, htext]
    rfl
  simp only [compileControlRecordEvent, bind_eq_ok, failIf_eq_ok, exists_unit, pure_eq_ok,
    not_not]
  refine ⟨by omega, hfirst, _, hd.light.normalized _ (by decide), hd.subject, _, hidentifier hp.store, _,
    hidentifier hp.process, _, hidentifier hp.event, DeliveryEvents.kindText d.kind, ?_, _,
    hp.time _, p.actor, ?_, _, hdigest, ?_⟩
  · simp only [controlRecordKind, bind_eq_ok, failIf_eq_ok, exists_unit, pure_eq_ok]
    refine ⟨?_, rfl⟩
    show ¬ (matchesRelationPattern (DeliveryEvents.kindText d.kind) = false
      ∨ 160 < byteLength (DeliveryEvents.kindText d.kind))
    rintro (h | h)
    · exact absurd (hkind.symm.trans h) (by decide)
    · exact absurd h (by omega)
  · simp only [normalizedActor, bind_eq_ok, pure_eq_ok]
    exact ⟨_, hidentifier hp.actor, rfl⟩
  · simp only [place, hdigest]
    rfl

/-- **The envelope of a placed draft is verified.** -/
theorem verifyEnvelope_place (hd : d.Admissible) (hp : p.Follows r) :
    verifyEnvelope r (place r p d) (lastSequence r + 1)
      = .ok (verifiedReplay r (place r p d)) := by
  have hreproduced : assertReproduced (place r p d) = .ok () := by
    simp only [assertReproduced, bind_eq_ok, failIf_eq_ok]
    exact ⟨_, compile_place hd hp, by simp⟩
  have hsuccessor : assertSuccessor r (place r p d) = .ok () := by
    unfold assertSuccessor
    cases hlast : r.lastEvent with
    | none =>
      simp only [failIf_eq_ok, not_not]
      simp [place, undigestedPlace, undigestedEvent, hlast]
    | some last =>
      obtain ⟨hstore, hprocess, -⟩ := hp.scope last hlast
      simp only [bind_eq_ok, failIf_eq_ok, exists_unit, not_not, not_or]
      refine ⟨⟨hstore.symm, hprocess.symm⟩, ?_⟩
      simp [place, undigestedPlace, undigestedEvent, hlast]
  simp only [verifyEnvelope, bind_eq_ok, failIf_eq_ok, exists_unit, pure_eq_ok, not_not]
  exact ⟨_, hd.envelope rfl rfl rfl, hreproduced, rfl, hsuccessor, hp.fresh, hp.notBefore, rfl⟩

/-- **A placed draft is accepted when its handler accepts it.** -/
theorem append_place {resolve : DeliveryRecordRevisionResolver} (hd : d.Admissible)
    (hp : p.Follows r) (hcreated : r.created = true ∨ d.kind = .deliveryCreated)
    (hclosure : r.subjects.closure = none)
    (hhandle : handle resolve (verifiedReplay r (place r p d)) (place r p d) d.kind = .ok next) :
    append resolve r (place r p d)
      = .ok { next with lastEvent := some (place r p d) } :=
  append_eq_ok.mpr ⟨_, next, d.kind, verifyEnvelope_place hd hp, parseKind_kindText _, hcreated,
    hclosure, hhandle, rfl⟩

end Place

/-! ## The place after a journal -/

/-- **What the envelopes of a journal leave behind.** -/
structure Journaled (r : Replay) : Prop where
  first : r.lastEvent = none → r = freshReplay
  created : ∀ last ∈ r.lastEvent, r.created = true
  scope : ∀ last ∈ r.lastEvent, r.storeId = some last.storeId
    ∧ r.processId = some last.processId ∧ 1 ≤ last.sequence
  identified : ∀ last ∈ r.lastEvent, isIdentifier last.storeId = true
    ∧ isIdentifier last.processId = true
  time : ∀ last ∈ r.lastEvent, r.lastOccurredAt = Timestamp.dateParse last.occurredAt
    ∧ ∀ label, controlTimestamp last.occurredAt label = .ok last.occurredAt
  counted : r.eventIds.length = lastSequence r

section Journal

variable {resolve : DeliveryRecordRevisionResolver} {r next : Replay}
  {event : ControlRecordEvent}

theorem controlIdentifier_eq_ok {value label v : String} :
    controlIdentifier value label = .ok v ↔ isIdentifier value = true ∧ v = value := by
  simp only [controlIdentifier, bind_eq_ok, failIf_eq_ok, exists_unit, pure_eq_ok,
    Bool.not_eq_false]
  exact and_congr_right fun _ => eq_comm

theorem controlTimestamp_label {value label label' v : String}
    (h : controlTimestamp value label = .ok v) : controlTimestamp value label' = .ok value := by
  obtain ⟨-, ht⟩ := controlTimestamp_eq_ok_iff.mp h
  exact controlTimestamp_eq_ok_iff.mpr ⟨rfl, ht⟩

/-- What a verified envelope says of its event, and the replay it leaves. -/
theorem verifyEnvelope_eq_ok {n : Nat} (h : verifyEnvelope r event n = .ok next) :
    next = verifiedReplay r event ∧ event.sequence = n ∧ 1 ≤ n
      ∧ isIdentifier event.storeId = true ∧ isIdentifier event.processId = true
      ∧ (∀ label, controlTimestamp event.occurredAt label = .ok event.occurredAt)
      ∧ assertSuccessor r event = .ok () := by
  simp only [verifyEnvelope, assertReproduced, compileControlRecordEvent, bind_eq_ok,
    failIf_eq_ok, exists_unit, pure_eq_ok, not_not, controlIdentifier_eq_ok] at h
  obtain ⟨-, -, ⟨_, ⟨hsequence, -, -, -, -, -, ⟨hstore, -⟩, -, ⟨hprocess, -⟩, -, -, -, -, _,
    htime, -⟩, -⟩, rfl, hsuccessor, -, -, rfl⟩ := h
  exact ⟨rfl, rfl, by omega, hstore, hprocess, fun _ => controlTimestamp_label htime, hsuccessor⟩

/-- **The envelopes of an accepted journal are in order.** -/
theorem Journaled.of_reachable (h : (deliverySystem resolve).Reachable r) : Journaled r := by
  refine h.invariant ?_ ?_
  · rintro s rfl
    exact ⟨fun _ => rfl, by simp [freshReplay], by simp [freshReplay], by simp [freshReplay],
      by simp [freshReplay], rfl⟩
  · intro s event t hs happend
    obtain ⟨verified, applied, k, hverified, -, hcreated, -, happlied, rfl⟩ :=
      append_eq_ok.mp happend
    obtain ⟨rfl, hsequence, hpositive, hstore, hprocess, htime, hsuccessor⟩ :=
      verifyEnvelope_eq_ok hverified
    have hstep := handle_step happlied
    have hsame := hstep.sameEnvelope
    have hdone : applied.created = true := by
      rcases hcreated with hc | rfl
      · exact hsame.created hc
      · cases hstep with
        | quiet _ _ _ _ hc => exact hc rfl
        | progress _ hprogress => cases hprogress
    have hscope : (verifiedReplay s event).storeId = some event.storeId
        ∧ (verifiedReplay s event).processId = some event.processId := by
      unfold verifiedReplay
      cases hlast : s.lastEvent with
      | none => simp
      | some last =>
        rw [assertSuccessor, hlast] at hsuccessor
        simp only [bind_eq_ok, failIf_eq_ok, exists_unit, not_or, not_not] at hsuccessor
        exact ⟨hsuccessor.1.1.symm, hsuccessor.1.2.symm⟩
    refine ⟨by simp, ?_, ?_, ?_, ?_, ?_⟩ <;>
      simp only [Option.mem_def, Option.some.injEq, forall_eq']
    · exact hdone
    · exact ⟨hsame.storeId.trans hscope.1, hsame.processId.trans hscope.2, by omega⟩
    · exact ⟨hstore, hprocess⟩
    · exact ⟨hsame.lastOccurredAt, htime⟩
    · have hcount := hs.counted
      show applied.eventIds.length = event.sequence
      rw [hsame.eventIds, hsequence]
      simp only [verifiedReplay, List.length_cons, hcount, lastSequence]

/-- The place after an event, in its scope and at its time. -/
def placeAfter (last : ControlRecordEvent) (eventId : String) : EventPlace :=
  ⟨last.storeId, last.processId, eventId, last.occurredAt, ⟨.runtime, last.processId⟩⟩

/-- **The place after the last event of a journal follows it.** -/
theorem placeAfter_follows {last : ControlRecordEvent} {eventId : String} (h : Journaled r)
    (hlast : r.lastEvent = some last) (hroom : last.sequence < maxSafeInteger)
    (hevent : isIdentifier eventId = true) (hfresh : eventId ∉ r.eventIds) :
    (placeAfter last eventId).Follows r where
  store := (h.identified last hlast).1
  process := (h.identified last hlast).2
  event := hevent
  actor := (h.identified last hlast).2
  time := (h.time last hlast).2
  room := by
    rw [lastSequence, hlast]
    exact hroom
  scope := by
    rw [hlast]
    simp only [Option.mem_def, Option.some.injEq, forall_eq']
    exact h.scope last hlast
  fresh := hfresh
  notBefore := by
    rintro ⟨t, ht, u, hu, hlt⟩
    rw [(h.time last hlast).1] at ht
    rw [Option.mem_def] at ht hu
    exact absurd (Option.some.inj (ht.symm.trans hu)) (by omega)

end Journal
