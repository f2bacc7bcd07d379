import Lifecycle.EventDrafts

/-!
# Rehearsed journals

A journal is rehearsed by its drafts: each is given its place after the
last event and goes to its handler, without compiling its envelope again.
What is rehearsed is accepted (`exists_replay`), so the journal of a
fixed delivery can be evaluated cheaply. The delivery of `Sample` is
prepared and admitted; the journals of single results go on from there.
-/

open Fallible Json ControlModel DeliveryReducer

/-! ## Entries -/

/-- The draft of a rehearsed event, with the identity it is given. -/
inductive RehearsalEntry
  | texts (eventId : String) (kind : DeliveryEventKind)
      (subject : Option ControlRecordEventSubject) (members : List (String × String))
  | observation (eventId : String) (subject : ControlRecordEventSubject)
      (activityId : String) (effectDigest : Sha256Digest) (facts : JsonObject)
      (outcome : TransactionOutcome)

namespace RehearsalEntry

def eventId : RehearsalEntry → String
  | .texts id .. => id
  | .observation id .. => id

def draft : RehearsalEntry → EventDraft
  | .texts _ kind subject members => ⟨kind, subject, textPayload members⟩
  | .observation _ subject activityId effectDigest facts outcome =>
    ⟨.transactionEffectObserved, some subject,
      observationPayload activityId effectDigest facts outcome⟩

/-- Whether the draft of an entry is admissible. -/
def Admits : RehearsalEntry → Prop
  | .texts _ kind subject members => kind ≠ .transactionEffectObserved
      ∧ NamesFit kind (members.map Prod.fst) ∧ TextsFit kind members
      ∧ (checkEventSubject subject).isOk = true
      ∧ (DeliveryEvents.subjectUse kind = .forbidden ↔ subject = none)
  | .observation _ subject activityId effectDigest facts _ => isIdentifier activityId = true
      ∧ isSha256 effectDigest = true ∧ Plain (.object facts)
      ∧ weight (.object facts) ≤ 8192 ∧ height (.object facts) ≤ 8
      ∧ (parseTransactionObservationFacts (some (.object facts))).isOk = true
      ∧ (checkEventSubject (some subject)).isOk = true

instance : (entry : RehearsalEntry) → Decidable entry.Admits
  | .texts .. => inferInstanceAs (Decidable (_ ∧ _ ∧ _ ∧ _ ∧ _))
  | .observation .. => inferInstanceAs (Decidable (_ ∧ _ ∧ _ ∧ _ ∧ _ ∧ _ ∧ _))

theorem eq_ok_of_isOk {x : Except FoundationError Unit} (h : x.isOk = true) : x = .ok () := by
  cases x with
  | error e => simp [Except.isOk, Except.toBool] at h
  | ok u => rfl

theorem parse_of_isOk {facts : JsonObject}
    (h : (parseTransactionObservationFacts (some (.object facts))).isOk = true) :
    parseTransactionObservationFacts (some (.object facts)) = .ok facts := by
  cases hparse : parseTransactionObservationFacts (some (.object facts)) with
  | error e => simp [hparse, Except.isOk, Except.toBool] at h
  | ok parsed =>
    simp only [parseTransactionObservationFacts, TransactionFacts.object, ok_bind, bind_eq_ok,
      exists_unit, pure_eq_ok] at hparse
    obtain ⟨_, -, -, rfl⟩ := hparse
    rfl

/-- **The draft of an admitted entry is admissible.** -/
theorem Admits.admissible {entry : RehearsalEntry} (h : entry.Admits) :
    entry.draft.Admissible := by
  cases entry with
  | texts eventId kind subject members =>
    obtain ⟨hkind, hnames, htexts, hsubject, huse⟩ := h
    exact admissible_texts hkind hnames htexts (eq_ok_of_isOk hsubject) huse
  | observation eventId subject activityId effectDigest facts outcome =>
    obtain ⟨hid, heffect, hplain, hlight, hshallow, hparse, hsubject⟩ := h
    exact admissible_observation hid heffect ⟨hplain, hlight, hshallow, parse_of_isOk hparse⟩
      (eq_ok_of_isOk hsubject)

end RehearsalEntry

/-! ## Rehearsals -/

/-- The refusal of an entry there is no place for. -/
def misplaced (entry : RehearsalEntry) : FoundationError :=
  reducerError "order" s!"Delivery event {entry.eventId} has no place in its journal"

/-- The event of an entry, after the last one. -/
def rehearsedEvent (r : Replay) (last : ControlRecordEvent) (entry : RehearsalEntry) :
    ControlRecordEvent :=
  place r (placeAfter last entry.eventId) entry.draft

/-- **One event of a rehearsal.** -/
def rehearse (resolve : DeliveryRecordRevisionResolver) (r : Replay) (entry : RehearsalEntry) :
    Except FoundationError Replay := do
  let last ← orFail r.lastEvent (misplaced entry)
  failIf (¬ (isIdentifier entry.eventId = true ∧ entry.eventId ∉ r.eventIds
    ∧ last.sequence < maxSafeInteger ∧ r.subjects.closure = none)) (misplaced entry)
  let event := rehearsedEvent r last entry
  let applied ← handle resolve (verifiedReplay r event) event entry.draft.kind
  return { applied with lastEvent := some event }

section Rehearse

variable {resolve : DeliveryRecordRevisionResolver} {r next : Replay} {entry : RehearsalEntry}

/-- **A rehearsed event is accepted.** -/
theorem append_of_rehearse (h : Journaled r) (hadmits : entry.Admits)
    (hrehearse : rehearse resolve r entry = .ok next) :
    ∃ last, r.lastEvent = some last
      ∧ append resolve r (rehearsedEvent r last entry) = .ok next := by
  simp only [rehearse, bind_eq_ok, orFail_eq_ok, failIf_eq_ok, exists_unit, pure_eq_ok,
    not_not] at hrehearse
  obtain ⟨last, hlast, ⟨hid, hfresh, hroom, hclosure⟩, applied, happlied, rfl⟩ := hrehearse
  exact ⟨last, hlast, append_place hadmits.admissible
    (placeAfter_follows h hlast hroom hid hfresh) (.inl (h.created last hlast)) hclosure happlied⟩

/-- What a rehearsal goes through is reachable. -/
theorem reachable_of_rehearse {entries : List RehearsalEntry}
    (h : (deliverySystem resolve).Reachable r) (hadmits : ∀ entry ∈ entries, entry.Admits)
    (hrehearse : Fallible.replay (rehearse resolve) r entries = .ok next) :
    (deliverySystem resolve).Reachable next := by
  induction entries generalizing r with
  | nil =>
    rw [replay_nil, Except.ok.injEq] at hrehearse
    exact hrehearse ▸ h
  | cons entry entries ih =>
    rw [replay_cons, bind_eq_ok] at hrehearse
    obtain ⟨s, hs, hrest⟩ := hrehearse
    obtain ⟨last, -, happend⟩ :=
      append_of_rehearse (Journaled.of_reachable h) (hadmits entry List.mem_cons_self) hs
    exact ih (h.step happend) (fun e he => hadmits e (List.mem_cons_of_mem _ he)) hrest

end Rehearse

/-- The revision of a list a subject names. -/
def resolverOf (revisions : List ControlRecordRevision) : DeliveryRecordRevisionResolver :=
  fun s => revisions.find? fun r =>
    r.recordId = s.recordId ∧ r.revision = s.revision ∧ r.digest = s.digest

/-! ## A sample delivery -/

namespace Sample

/-- The place of the first event. -/
def firstPlace : EventPlace :=
  ⟨"store-1", "delivery-1", "event-1", "2026-01-05T09:00:00Z", ⟨.runtime, "runtime"⟩⟩

/-- The event that creates the delivery. -/
def creation : ControlRecordEvent := place freshReplay firstPlace ⟨.deliveryCreated, none, []⟩

/-- The replay of its creation. -/
def created : Replay :=
  { verifiedReplay freshReplay creation with created := true, lastEvent := some creation }

theorem firstPlace_follows : firstPlace.Follows freshReplay where
  store := by decide +kernel
  process := by decide +kernel
  event := by decide +kernel
  actor := by decide +kernel
  time label := by
    have hparse : ∃ t, Timestamp.dateParse firstPlace.occurredAt = some t
        ∧ firstPlace.occurredAt = Timestamp.wholeSeconds t :=
      ⟨1767603600000, by decide +kernel, by decide +kernel⟩
    obtain ⟨t, ht, htext⟩ := hparse
    exact controlTimestamp_eq_ok_iff.mpr ⟨rfl, t, ht, .inr htext⟩
  room := by decide
  scope := by simp [freshReplay]
  fresh := by simp [freshReplay]
  notBefore := by simp [freshReplay]

theorem creation_admissible : (⟨.deliveryCreated, none, []⟩ : EventDraft).Admissible := by
  have hadmits : (RehearsalEntry.texts "event-1" .deliveryCreated none []).Admits := by
    decide +kernel
  exact hadmits.admissible

/-- The creation is accepted as a first event. -/
theorem append_creation (resolve : DeliveryRecordRevisionResolver) :
    append resolve freshReplay creation = .ok created := by
  have hhandle : handle resolve (verifiedReplay freshReplay creation) creation .deliveryCreated
      = .ok { verifiedReplay freshReplay creation with created := true } := by
    simp only [handle, createDelivery, bind_eq_ok, exactPayload_eq_ok, failIf_eq_ok, exists_unit,
      pure_eq_ok]
    refine ⟨_, ⟨rfl, rfl⟩, ?_, trivial⟩
    rintro (h | h)
    · exact absurd h (by decide)
    · exact h rfl
  exact append_place creation_admissible firstPlace_follows (.inr rfl) rfl hhandle

theorem reachable_created (resolve : DeliveryRecordRevisionResolver) :
    (deliverySystem resolve).Reachable created :=
  (TransitionSystem.Reachable.of_initial rfl).step (append_creation resolve)

/-- The creation alone is a journal. -/
theorem replay_creation (resolve : DeliveryRecordRevisionResolver) :
    replayDeliveryEvents resolve [creation] = .ok created := by
  rw [replayDeliveryEvents, replay_cons, append_creation, ok_bind, replay_nil]

/-- **The journal of a sample delivery, rehearsed.** -/
def rehearsed (revisions : List ControlRecordRevision) (entries : List RehearsalEntry) :
    Except FoundationError Replay :=
  Fallible.replay (rehearse (resolverOf revisions)) created entries

/-- Whether a rehearsal goes through, to a replay with the given facts. -/
def reaches (revisions : List ControlRecordRevision) (entries : List RehearsalEntry)
    (facts : Replay → Bool) : Bool :=
  match rehearsed revisions entries with
  | .ok r => facts r
  | .error _ => false

/-- **A rehearsed journal is accepted.** -/
theorem exists_replay {revisions : List ControlRecordRevision} {entries : List RehearsalEntry}
    {facts : Replay → Bool} (hadmits : ∀ entry ∈ entries, entry.Admits)
    (h : reaches revisions entries facts = true) :
    ∃ r events, replayDeliveryEvents (resolverOf revisions) events = .ok r ∧ facts r = true := by
  unfold reaches at h
  split at h
  · next r hr =>
    obtain ⟨events, hevents⟩ :=
      replay_of_reachable (reachable_of_rehearse (reachable_created _) hadmits hr)
    exact ⟨r, events, hevents, h⟩
  · exact absurd h (by simp)

/-- A record revision of the sample, with its compiled digest. -/
def revisionOf (recordKind recordId : String) (revision : Nat) (payload : JsonObject)
    (relationships : List ControlRecordRelationship) (digest : Sha256Digest) :
    ControlRecordRevision where
  schema := controlRecordRevisionSchema
  processId := "delivery-1"
  recordId := recordId
  recordKind := recordKind
  revision := revision
  producer := ⟨.runtime, "runtime"⟩
  semanticAuthor := ⟨.director, "director-1"⟩
  semanticAuthority := .runtimeObserved
  createdAt := "2026-01-05T09:00:00Z"
  semanticMarkdown := "Sample\n"
  payload := payload
  relationships := relationships
  digest := digest

def link (relation : String) (target : ControlRecordRevision) : ControlRecordRelationship :=
  ⟨relation, ⟨target.recordKind, target.recordId, target.revision, target.digest⟩⟩

/-- The subject that names a revision. -/
def subjectTo (revision : ControlRecordRevision) : ControlRecordEventSubject :=
  subjectOf (retainedReference revision)

/-- An event of an activity that finalizes a revision. -/
def finalizes (eventId : String) (kind : DeliveryEventKind) (activityId : String)
    (revision : ControlRecordRevision) : RehearsalEntry :=
  .texts eventId kind (some (subjectTo revision)) [("activityId", activityId)]

/-- An event that starts an activity. -/
def starts (eventId activityId : String) (operation : DeliveryOperation) : RehearsalEntry :=
  .texts eventId .activityStarted none
    [("activityId", activityId), ("operation", operation.text)]

/-- An event that completes an activity. -/
def completes (eventId activityId outcome : String) : RehearsalEntry :=
  .texts eventId .activityCompleted none [("activityId", activityId), ("outcome", outcome)]

/-- The digest of the one effect of every activity. -/
def effectDigest : Sha256Digest :=
  "sha256:0f5b2c1d9e8a7f6043521c0d9e8b7a6f5e4d3c2b1a09f8e7d6c5b4a392817065"

/-- The events that intend and observe the provider effect of an attempt. -/
def provides (intentId observationId activityId : String) (attempt : ControlRecordRevision) :
    List RehearsalEntry := [
  .texts intentId .providerEffectIntended (some (subjectTo attempt))
    [("activityId", activityId), ("effectDigest", effectDigest)],
  .texts observationId .providerEffectObserved (some (subjectTo attempt))
    [("activityId", activityId), ("effectDigest", effectDigest), ("outcome", "completed")]]

/-- The brief of an activity. -/
def briefOf (recordId activityId : String) (digest : Sha256Digest) : ControlRecordRevision :=
  revisionOf "director-brief" recordId 1
    [("scope", .object [("activityId", .string activityId), ("kind", .string "activity")])] []
    digest

/-! ### Preparation -/

def prepareBrief : ControlRecordRevision :=
  briefOf "brief-1" "prepare-1"
    "sha256:da9cb224d816d46e2a4d7d7f5848e1f39fe2190e2bca6c03e2262d9ee7e312e6"

def prepareAttempt : ControlRecordRevision :=
  revisionOf "agent-attempt" "attempt-1" 1 [] [link "uses-brief" prepareBrief]
    "sha256:5667a4f378104fa7d57768802ba9362b097ccfcaad1bfa296b2a32fc43e61a1c"

def prepareWork : ControlRecordRevision :=
  revisionOf "agent-work-product" "work-1" 1 [] []
    "sha256:01608eb20a776ec6f34cf5b93a453ac4fa0098bfc3b72c3bf7ac4d01ec738b01"

def prepareReceipt : ControlRecordRevision :=
  revisionOf "execution-receipt" "receipt-1" 1 [] []
    "sha256:dc1cef19f1c35bddd93c712035129c87c88bbec0e81a343284bcbaa6a561dcb5"

/-- The mandate: one check, a regression guard, required for the baseline
and for the final phase. -/
def mandate : JsonObject :=
  [("mandate", .object [("checks", .array [.object [("baselineRequired", .bool true),
    ("finalRequired", .bool true), ("id", .string "check-1"),
    ("modality", .string "regression-guard")]])])]

def boundary : ControlRecordRevision :=
  revisionOf "work-boundary" "boundary-1" 1 mandate
    [link "proposed-from" prepareWork, link "uses-brief" prepareBrief]
    "sha256:6a74c1f070854bf5ade51e143b5854aa1ee81992f1e18637de1ba05c007c4bc8"

/-- The payload of a check receipt. -/
def checkPayload (phase modality disposition : String) : JsonObject :=
  [("disposition", .string disposition), ("modality", .string modality),
    ("phase", .string phase), ("selectionId", .string "check-1")]

def baselineReceipt : ControlRecordRevision :=
  revisionOf "check-receipt" "baseline-1" 1 (checkPayload "baseline" "regression-guard" "pass")
    [link "checks-boundary" boundary]
    "sha256:51d80cd473332ee1e6c825a1287c7438df3cf243c06c3b30d1f8f0fe78096a3a"

/-- The delivery is prepared. -/
def preparation : List RehearsalEntry := [
  finalizes "event-2" .directorBriefSubmitted "prepare-1" prepareBrief,
  starts "event-3" "prepare-1" .prepare,
  finalizes "event-4" .agentAttemptPrepared "prepare-1" prepareAttempt]
  ++ provides "event-5" "event-6" "prepare-1" prepareAttempt ++ [
  finalizes "event-7" .agentWorkProductSubmitted "prepare-1" prepareWork,
  finalizes "event-8" .executionReceiptRecorded "prepare-1" prepareReceipt,
  finalizes "event-9" .workBoundaryFinalized "prepare-1" boundary,
  finalizes "event-10" .checkReceiptRecorded "prepare-1" baselineReceipt,
  completes "event-11" "prepare-1" "completed"]

/-! ### Admission -/

def admission : ControlRecordRevision :=
  revisionOf "director-decision" "decision-1" 1 [("decision", .string "admit")]
    [link "selects-baseline-receipt" baselineReceipt, link "selects-boundary" boundary]
    "sha256:79df662f35c52e7f209ae59fb74256f48f992946bc245d7b8161e2a1a63da908"

/-- The facts an admission is observed to be applied by. -/
def admissionFacts : JsonObject :=
  [("disposition", .null), ("outcome", .string "applied"),
    ("repositoryBasisDigest", .string effectDigest),
    ("schema", .string TransactionFacts.admissionSchema)]

/-- The payload of a candidate revision. -/
def candidatePayload (observation : String) : JsonObject :=
  [("candidateBaseCommit", .string "4c1f0a9be8d7c6b5a493827160f5e4d3c2b1a098"),
    ("carrierManifest", .object [("digest", .string effectDigest)]),
    ("observation", .string observation), ("observer", .null),
    ("schema", .string "lifecycle.candidate-revision-payload.v3"), ("state", .null)]

def candidate : ControlRecordRevision :=
  revisionOf "candidate-revision" "candidate-1" 1 (candidatePayload "initialization")
    [link "governed-by" boundary]
    "sha256:3694e8693f9134d9336fc84b41ac2dd1feafd92ccb411f0fa19d909b5a8ab20f"

/-- The prepared boundary is admitted. -/
def admitted : List RehearsalEntry := preparation ++ [
  starts "event-12" "admit-1" .admitBoundary,
  finalizes "event-13" .directorDecisionAuthenticated "admit-1" admission,
  .texts "event-14" .transactionEffectIntended (some (subjectTo admission))
    [("activityId", "admit-1"), ("effectDigest", effectDigest)],
  .observation "event-15" (subjectTo admission) "admit-1" effectDigest admissionFacts .applied,
  finalizes "event-16" .candidateRevisionObserved "admit-1" candidate,
  completes "event-17" "admit-1" "completed"]

/-- The revisions the admitted delivery retains. -/
def admittedRevisions : List ControlRecordRevision := [prepareBrief, prepareAttempt, prepareWork,
  prepareReceipt, boundary, baselineReceipt, admission, candidate]

end Sample
