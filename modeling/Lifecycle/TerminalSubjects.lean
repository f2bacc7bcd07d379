import Lifecycle.Comparators
import Lifecycle.JsonWriters
import Lifecycle.ReclamationLeases

/-!
# Terminal subjects of the reclamation ledger

When a Process is closed, every retained Receipt and every refusal before the
intent is reconciled with the handoffs the ledger holds of that Process
(`verifyTerminalSubjects`). A Receipt is matched by its Retirement, a refusal
by the one undispatched Agent handoff of its Activity. This module has the
functions and what their normalization of the inputs comes to: what is
normalized is sorted by canonical text, and no two parts that the checks let
pass have one text, so the order of the inputs leaves no trace
(`normalizedTerminalSubjects_iff`, `normalizedPreIntentRefusals_iff`).

The inputs have the declared types, so the tests of their shapes have no input
here. The canonical texts of subjects and owners are compared as UTF-8 bytes,
whose order is the one of the code points.
-/

open Fallible Json ControlModel Comparison ReclamationLedger

namespace ReclamationLedger

/-! ## Subjects and refusals -/

/-- `FoundationExecutionReclamationTerminalReceiptV1["kind"]`. -/
inductive ReceiptKind
  | executionReceipt
  | checkReceipt
deriving DecidableEq

/-- `FoundationExecutionReclamationTerminalReceiptV1`. -/
structure TerminalReceipt where
  kind : ReceiptKind
  id : String
  revision : Int
  digest : Sha256Digest
deriving DecidableEq

/-- `FoundationExecutionReclamationTerminalSubjectV1`. -/
structure TerminalSubject where
  receipt : TerminalReceipt
  owner : Owner
  retirementFactsDigest : Sha256Digest
deriving DecidableEq

/-- `FoundationExecutionReclamationTerminalEventReferenceV1`. -/
structure TerminalEventReference where
  sequence : Int
  eventId : String
  digest : Sha256Digest
deriving DecidableEq

/-- `FoundationExecutionReclamationPreIntentRefusalV1`. -/
structure PreIntentRefusal where
  event : TerminalEventReference
  activityId : String
deriving DecidableEq

/-! ## Their values and texts -/

def OwnerKind.text : OwnerKind → String
  | .agentAttempt => "agent-attempt"
  | .check => "check"

def ReceiptKind.text : ReceiptKind → String
  | .executionReceipt => "execution-receipt"
  | .checkReceipt => "check-receipt"

def Owner.value (owner : Owner) : Json :=
  .object [("activityId", .string owner.activityId), ("kind", .string owner.kind.text),
    ("processId", .string owner.processId), ("storeId", .string owner.storeId),
    ("subjectDigest", .string owner.subjectDigest)]

def TerminalReceipt.value (receipt : TerminalReceipt) : Json :=
  .object [("digest", .string receipt.digest), ("id", .string receipt.id),
    ("kind", .string receipt.kind.text), ("revision", .number (.integer receipt.revision))]

def TerminalSubject.value (subject : TerminalSubject) : Json :=
  .object [("owner", subject.owner.value), ("receipt", subject.receipt.value),
    ("retirementFactsDigest", .string subject.retirementFactsDigest)]

/-- The part of a subject its set digest selects. -/
def TerminalSubject.selector (subject : TerminalSubject) : Json :=
  .object [("owner", subject.owner.value), ("receipt", subject.receipt.value)]

def PreIntentRefusal.value (refusal : PreIntentRefusal) : Json :=
  .object [("activityId", .string refusal.activityId),
    ("event", .object [("digest", .string refusal.event.digest),
      ("eventId", .string refusal.event.eventId),
      ("sequence", .number (.integer refusal.event.sequence))])]

/-- `canonicalJson(value)` of a value that has a text. -/
def textOf (value : Json) : List UInt8 := (canonicalJson value).toOption.getD []

/-- `compareCodePoints` of two canonical texts. -/
def textLe (a b : Json) : Bool :=
  lexLe ((textOf a).map UInt8.toNat) ((textOf b).map UInt8.toNat)

/-! ## Their normalization -/

/-- `identifier`. -/
def identifier (value label : String) : Except FoundationError String := do
  failIf (isIdentifier value = false)
    (ledgerError "identity" s!"{label} is not one bounded identity")
  return value

/-- `positiveInteger`. -/
def positiveInteger (value : Int) (label : String) : Except FoundationError Int := do
  failIf (maxSafeInteger < value.natAbs)
    (ledgerError "database-row" s!"{label} is not one safe integer")
  failIf (value < 1)
    (ledgerError "terminal-subject-set" s!"{label} is not one positive safe integer")
  return value

/-- `fail("terminal-subject-set", …)`. -/
def subjectSetError (message : String) : FoundationError :=
  ledgerError "terminal-subject-set" message

/-- `terminalOwner`. -/
def terminalOwner (owner : Owner) (storeId processId : String) : Except FoundationError Unit := do
  let _ ← identifier owner.storeId "Terminal execution Store identity"
  let _ ← identifier owner.processId "Terminal execution Process identity"
  let _ ← identifier owner.activityId "Terminal execution Activity identity"
  assertDigest owner.subjectDigest "Terminal execution owner subject"
  failIf (owner.storeId ≠ storeId ∨ owner.processId ≠ processId)
    (subjectSetError "Terminal execution owner selects another Store or Process")

/-- The kind of the owner of a Receipt. -/
def ReceiptKind.owner : ReceiptKind → OwnerKind
  | .executionReceipt => .agentAttempt
  | .checkReceipt => .check

/-- `terminalReceipt`. -/
def terminalReceipt (receipt : TerminalReceipt) (ownerKind : OwnerKind) :
    Except FoundationError Unit := do
  failIf (receipt.kind.owner ≠ ownerKind)
    (subjectSetError "Terminal execution Receipt kind differs from its ledger owner")
  let _ ← identifier receipt.id "Terminal execution Receipt identity"
  let _ ← positiveInteger receipt.revision "Terminal execution Receipt revision"
  assertDigest receipt.digest "Terminal execution Receipt digest"

/-- One subject, copied. -/
def terminalSubject (storeId processId : String) (subject : TerminalSubject) :
    Except FoundationError TerminalSubject := do
  terminalOwner subject.owner storeId processId
  terminalReceipt subject.receipt subject.owner.kind
  assertDigest subject.retirementFactsDigest "Terminal execution Retirement facts"
  return subject

/-- What the pass over the sorted subjects has seen. -/
structure SeenSubjects where
  receiptKeys : List (List UInt8)
  retirementKeys : List Sha256Digest
  agentOwnerKeys : List (List UInt8)

/-- One subject of the pass. -/
def seeSubject (seen : SeenSubjects) (subject : TerminalSubject) :
    Except FoundationError SeenSubjects := do
  failIf (textOf subject.receipt.value ∈ seen.receiptKeys
      ∨ subject.retirementFactsDigest ∈ seen.retirementKeys
      ∨ (subject.owner.kind = .agentAttempt ∧ textOf subject.owner.value ∈ seen.agentOwnerKeys))
    (subjectSetError "Terminal execution subjects repeat a Receipt, Retirement, or Agent owner")
  return { receiptKeys := seen.receiptKeys ++ [textOf subject.receipt.value]
           retirementKeys := seen.retirementKeys ++ [subject.retirementFactsDigest]
           agentOwnerKeys := if subject.owner.kind = .agentAttempt then
               seen.agentOwnerKeys ++ [textOf subject.owner.value]
             else seen.agentOwnerKeys }

/-- The order of the normalized subjects. -/
def sortSubjects (subjects : List TerminalSubject) : List TerminalSubject :=
  sortWith (fun a b => textLe a.value b.value) subjects

/-- **`normalizedTerminalSubjects`.** -/
def normalizedTerminalSubjects (storeId processId : String) (subjects : List TerminalSubject) :
    Except FoundationError (List TerminalSubject) := do
  failIf (maximumHandoffs < subjects.length)
    (subjectSetError "Terminal execution subject set exceeds its ledger bound")
  let copied ← subjects.mapM (terminalSubject storeId processId)
  let sorted := sortSubjects copied
  let _ ← replay seeSubject ⟨[], [], []⟩ sorted
  return sorted

/-- `terminalEventReference`. -/
def terminalEventReference (event : TerminalEventReference) : Except FoundationError Unit := do
  let _ ← positiveInteger event.sequence "Pre-intent refusal event sequence"
  let _ ← identifier event.eventId "Pre-intent refusal event identity"
  assertDigest event.digest "Pre-intent refusal event digest"

/-- One refusal, copied. -/
def preIntentRefusal (refusal : PreIntentRefusal) : Except FoundationError PreIntentRefusal := do
  terminalEventReference refusal.event
  let _ ← identifier refusal.activityId "Pre-intent refusal Activity identity"
  return refusal

/-- What the pass over the sorted refusals has seen. -/
structure SeenRefusals where
  eventSequences : List Int
  eventIds : List String
  eventDigests : List Sha256Digest
  activityIds : List String

/-- One refusal of the pass. -/
def seeRefusal (seen : SeenRefusals) (refusal : PreIntentRefusal) :
    Except FoundationError SeenRefusals := do
  failIf (refusal.event.sequence ∈ seen.eventSequences ∨ refusal.event.eventId ∈ seen.eventIds
      ∨ refusal.event.digest ∈ seen.eventDigests ∨ refusal.activityId ∈ seen.activityIds)
    (subjectSetError "Pre-intent refusal selectors repeat an event or Activity")
  return { eventSequences := seen.eventSequences ++ [refusal.event.sequence]
           eventIds := seen.eventIds ++ [refusal.event.eventId]
           eventDigests := seen.eventDigests ++ [refusal.event.digest]
           activityIds := seen.activityIds ++ [refusal.activityId] }

/-- The order of the normalized refusals. -/
def sortRefusals (refusals : List PreIntentRefusal) : List PreIntentRefusal :=
  sortWith (fun a b => textLe a.value b.value) refusals

/-- **`normalizedPreIntentRefusals`.** -/
def normalizedPreIntentRefusals (refusals : List PreIntentRefusal) :
    Except FoundationError (List PreIntentRefusal) := do
  failIf (maximumHandoffs < refusals.length)
    (subjectSetError "Pre-intent refusal selector set exceeds its ledger bound")
  let copied ← refusals.mapM preIntentRefusal
  let sorted := sortRefusals copied
  let _ ← replay seeRefusal ⟨[], [], [], []⟩ sorted
  return sorted

/-- What the digest of the refusals is of. -/
def refusalSet (storeId processId : String) (refusals : List PreIntentRefusal) : Json :=
  .object [
    ("preIntentRefusals", .array (refusals.map PreIntentRefusal.value)),
    ("processId", .string processId),
    ("schema",
      .string "lifecycle.execution-reclamation-pre-intent-refusal-set.private.v1"),
    ("storeId", .string storeId)]

/-- What the digest of the subjects is of. -/
def subjectSet (storeId processId : String) (subjects : List TerminalSubject) : Json :=
  .object [
    ("processId", .string processId),
    ("schema", .string "lifecycle.execution-reclamation-terminal-subject-set.private.v1"),
    ("storeId", .string storeId),
    ("subjects", .array (sortWith textLe (subjects.map TerminalSubject.selector)))]

/-- What the digest of the obligations is of. -/
def obligationSet (digests : List Sha256Digest) : Json :=
  .object [
    ("obligationDigests", .array (digests.map .string)),
    ("schema", .string "lifecycle.execution-reclamation-obligation-set.private.v1")]

/-- `foundationExecutionReclamationPreIntentRefusalSetDigestV1`. -/
def preIntentRefusalSetDigest (storeId processId : String) (refusals : List PreIntentRefusal) :
    Except FoundationError Sha256Digest := do
  let storeId ← identifier storeId "Pre-intent refusal Store identity"
  let processId ← identifier processId "Pre-intent refusal Process identity"
  let refusals ← normalizedPreIntentRefusals refusals
  digestCanonical (refusalSet storeId processId refusals)

/-- `foundationExecutionReclamationTerminalSubjectSetDigestV1`. -/
def terminalSubjectSetDigest (storeId processId : String) (subjects : List TerminalSubject) :
    Except FoundationError Sha256Digest := do
  let storeId ← identifier storeId "Terminal execution Store identity"
  let processId ← identifier processId "Terminal execution Process identity"
  let subjects ← normalizedTerminalSubjects storeId processId subjects
  digestCanonical (subjectSet storeId processId subjects)

/-! ## `verifyTerminalSubjects` -/

/-- `FoundationExecutionReclamationTerminalVerificationV1`. -/
structure TerminalVerification where
  terminalExecutionSetDigest : Sha256Digest
  executionCount : Nat
  preIntentRefusalSetDigest : Sha256Digest
  preIntentRefusalCount : Nat
  obligationSetDigest : Sha256Digest
  obligationCount : Nat
deriving DecidableEq

/-- The rows of a Process, in the order of their obligations. -/
def terminalRows (ledger : Ledger) (storeId processId : String) : List (Handoff × StandingRow) :=
  let joined := ledger.handoffs.entries.filterMap fun e =>
    (ledger.standings.get e.1).map fun row => (e.2, row)
  let selected := joined.filter fun c =>
    decide (c.1.owner.storeId = storeId) && decide (c.1.owner.processId = processId)
  (selected.mergeSort fun a b => !binaryLt b.1.obligationDigest a.1.obligationDigest).take
    (maximumHandoffs + 1)

/-- The handoff of a row, its standing parsed. -/
def rowTerminalHandoff (row : Handoff × StandingRow) : Except FoundationError Handoff := do
  let _ ← rowStanding row.2 row.1
  return row.1

/-- One handoff more in `handoffByRetirement`. -/
def indexRetirement (byRetirement : OrderedMap Sha256Digest Handoff) (handoff : Handoff) :
    Except FoundationError (OrderedMap Sha256Digest Handoff) := do
  failIf (byRetirement.has handoff.retirementDigest = true)
    (subjectSetError "Immutable Reclamation handoffs repeat one exact Retirement")
  return byRetirement.set handoff.retirementDigest handoff

def receiptMismatch : FoundationError :=
  subjectSetError "Terminal Receipt does not reproduce one exact immutable Reclamation handoff"

/-- One subject: the obligations matched so far are `matchedObligations`. -/
def matchSubject (byRetirement : OrderedMap Sha256Digest Handoff) (matched : List Sha256Digest)
    (subject : TerminalSubject) : Except FoundationError (List Sha256Digest) := do
  let handoff ← orFail (byRetirement.get subject.retirementFactsDigest) receiptMismatch
  failIf (handoff.obligationDigest ∈ matched
      ∨ textOf handoff.owner.value ≠ textOf subject.owner.value
      ∨ (subject.receipt.kind = .executionReceipt ∧ handoff.dispatchAuthorityConsumed ≠ true))
    receiptMismatch
  return matched ++ [handoff.obligationDigest]

/-- Whether a handoff is one a refusal may select. -/
def Undispatched (handoff : Handoff) : Prop :=
  handoff.owner.kind = .agentAttempt ∧ handoff.dispatchAuthorityConsumed = false

instance (handoff : Handoff) : Decidable (Undispatched handoff) :=
  inferInstanceAs (Decidable (_ ∧ _))

/-- One handoff more in `undispatchedAgentHandoffs`. -/
def groupUndispatched (matched : List Sha256Digest) (groups : OrderedMap String (List Handoff))
    (handoff : Handoff) : OrderedMap String (List Handoff) :=
  if handoff.obligationDigest ∉ matched ∧ Undispatched handoff then
    groups.set handoff.owner.activityId
      ((groups.get handoff.owner.activityId).getD [] ++ [handoff])
  else groups

/-- `matchedObligations.add(handoff.obligation.digest)`. -/
def addObligation (matched : List Sha256Digest) (handoff : Handoff) : List Sha256Digest :=
  if handoff.obligationDigest ∈ matched then matched else matched ++ [handoff.obligationDigest]

/-- One refusal: the obligations matched so far, and the groups not selected yet. -/
def matchRefusal (state : List Sha256Digest × OrderedMap String (List Handoff))
    (refusal : PreIntentRefusal) :
    Except FoundationError (List Sha256Digest × OrderedMap String (List Handoff)) :=
  match (state.2.get refusal.activityId).getD [] with
  | [handoff] => .ok (addObligation state.1 handoff, state.2.erase refusal.activityId)
  | _ => .error (subjectSetError
      "Pre-intent refusal does not select one unique never-dispatched Agent Reclamation handoff")

/-- The matching of the normalized subjects and refusals with the handoffs. -/
def matchTerminal (handoffs : List Handoff) (subjects : List TerminalSubject)
    (refusals : List PreIntentRefusal) : Except FoundationError Unit := do
  let byRetirement ← replay indexRetirement ∅ handoffs
  let matched ← replay (matchSubject byRetirement) [] subjects
  let undispatched := handoffs.foldl (groupUndispatched matched) ∅
  let state ← replay matchRefusal (matched, undispatched) refusals
  failIf (state.1.length ≠ handoffs.length ∨ subjects.length + refusals.length ≠ handoffs.length)
    (subjectSetError
      "Terminal subjects do not exactly reproduce every immutable Reclamation handoff")

/-- **`verifyTerminalSubjects`.** -/
def verifyTerminalSubjects (ledger : Ledger) (storeId processId : String)
    (subjects : List TerminalSubject) (refusals : List PreIntentRefusal) :
    Except FoundationError TerminalVerification := do
  let storeId ← identifier storeId "Terminal execution Store identity"
  let processId ← identifier processId "Terminal execution Process identity"
  let subjects ← normalizedTerminalSubjects storeId processId subjects
  let refusals ← normalizedPreIntentRefusals refusals
  let rows := terminalRows ledger storeId processId
  failIf (maximumHandoffs < rows.length)
    (subjectSetError "Terminal Reclamation handoff set exceeds its ledger bound")
  let handoffs ← rows.mapM rowTerminalHandoff
  matchTerminal handoffs subjects refusals
  let obligationDigests := sortWith codePointLe (handoffs.map Handoff.obligationDigest)
  let terminalExecutionSetDigest ← terminalSubjectSetDigest storeId processId subjects
  let refusalSetDigest ← preIntentRefusalSetDigest storeId processId refusals
  let obligationSetDigest ← digestCanonical (obligationSet obligationDigests)
  return { terminalExecutionSetDigest := terminalExecutionSetDigest
           executionCount := subjects.length
           preIntentRefusalSetDigest := refusalSetDigest
           preIntentRefusalCount := refusals.length
           obligationSetDigest := obligationSetDigest
           obligationCount := obligationDigests.length }

/-! ## What the normalization admits -/

/-- A subject that is copied. -/
structure WellFormedSubject (storeId processId : String) (subject : TerminalSubject) : Prop where
  storeId : subject.owner.storeId = storeId
  processId : subject.owner.processId = processId
  store : isIdentifier subject.owner.storeId = true
  process : isIdentifier subject.owner.processId = true
  activity : isIdentifier subject.owner.activityId = true
  subjectDigest : isSha256 subject.owner.subjectDigest = true
  kind : subject.receipt.kind.owner = subject.owner.kind
  receipt : isIdentifier subject.receipt.id = true
  revision : 1 ≤ subject.receipt.revision ∧ subject.receipt.revision.natAbs ≤ maxSafeInteger
  receiptDigest : isSha256 subject.receipt.digest = true
  retirement : isSha256 subject.retirementFactsDigest = true

/-- A refusal that is copied. -/
structure WellFormedRefusal (refusal : PreIntentRefusal) : Prop where
  sequence : 1 ≤ refusal.event.sequence ∧ refusal.event.sequence.natAbs ≤ maxSafeInteger
  eventId : isIdentifier refusal.event.eventId = true
  digest : isSha256 refusal.event.digest = true
  activity : isIdentifier refusal.activityId = true

theorem terminalSubject_eq_ok {storeId processId : String} {subject copied : TerminalSubject} :
    terminalSubject storeId processId subject = .ok copied
      ↔ WellFormedSubject storeId processId subject ∧ subject = copied := by
  simp only [terminalSubject, terminalOwner, terminalReceipt, identifier, positiveInteger,
    assertDigest, bind_eq_ok, failIf_eq_ok, exists_unit, pure_eq_ok, not_or, not_not, not_lt,
    Bool.not_eq_false, exists_and_right, exists_and_left, exists_eq', and_true]
  constructor
  · rintro ⟨⟨hs, hp, ha, hd, hstore, hprocess⟩, ⟨hkind, hid, ⟨hsafe, hpos⟩, hr⟩, hret, hcopied⟩
    exact ⟨⟨hstore, hprocess, hs, hp, ha, hd, hkind, hid, ⟨hpos, hsafe⟩, hr, hret⟩, hcopied⟩
  · rintro ⟨h, hcopied⟩
    exact ⟨⟨h.store, h.process, h.activity, h.subjectDigest, h.storeId, h.processId⟩,
      ⟨h.kind, h.receipt, ⟨h.revision.2, h.revision.1⟩, h.receiptDigest⟩, h.retirement, hcopied⟩

theorem preIntentRefusal_eq_ok {refusal copied : PreIntentRefusal} :
    preIntentRefusal refusal = .ok copied ↔ WellFormedRefusal refusal ∧ refusal = copied := by
  simp only [preIntentRefusal, terminalEventReference, identifier, positiveInteger,
    assertDigest, bind_eq_ok, failIf_eq_ok, exists_unit, pure_eq_ok, not_lt,
    Bool.not_eq_false, exists_and_right, exists_and_left, exists_eq', and_true]
  constructor
  · rintro ⟨⟨⟨hsafe, hpos⟩, hid, hdigest⟩, hactivity, hcopied⟩
    exact ⟨⟨⟨hpos, hsafe⟩, hid, hdigest, hactivity⟩, hcopied⟩
  · rintro ⟨h, hcopied⟩
    exact ⟨⟨⟨h.sequence.2, h.sequence.1⟩, h.eventId, h.digest⟩, h.activity, hcopied⟩

/-- Copying a list of parts is checking each of them. -/
theorem mapM_copy_eq_ok {α : Type} {copy : α → Except FoundationError α} {P : α → Prop}
    (hcopy : ∀ a b, copy a = .ok b ↔ P a ∧ a = b) {l out : List α} :
    l.mapM copy = .ok out ↔ (∀ a ∈ l, P a) ∧ l = out := by
  rw [mapM_eq_ok_iff]
  constructor
  · intro h
    induction h with
    | nil => exact ⟨fun a ha => absurd ha List.not_mem_nil, rfl⟩
    | @cons a b l out hab _ ih =>
      obtain ⟨ha, rfl⟩ := (hcopy a b).mp hab
      exact ⟨List.forall_mem_cons.mpr ⟨ha, ih.1⟩, congrArg _ ih.2⟩
  · rintro ⟨hall, rfl⟩
    exact List.forall₂_same.mpr fun a ha => (hcopy a a).mpr ⟨hall a ha, rfl⟩

/-! ## Texts and what they are texts of -/

/-- Names in canonical order. -/
def InOrder (names : List String) : Prop := names.Pairwise fun a b => codeUnitLe a b = true

theorem inOrder_names :
    (InOrder ["activityId", "kind", "processId", "storeId", "subjectDigest"]
      ∧ InOrder ["digest", "id", "kind", "revision"]
      ∧ InOrder ["owner", "receipt", "retirementFactsDigest"] ∧ InOrder ["owner", "receipt"])
    ∧ (InOrder ["digest", "eventId", "sequence"] ∧ InOrder ["activityId", "event"])
    ∧ InOrder ["processId", "schema", "storeId", "subjects"]
    ∧ InOrder ["preIntentRefusals", "processId", "schema", "storeId"]
    ∧ InOrder ["obligationDigests", "schema"] := by
  unfold InOrder
  decide +kernel

theorem plain_owner (owner : Owner) : owner.value.Plain :=
  ⟨⟨trivial, trivial, trivial, trivial, trivial, trivial⟩, inOrder_names.1.1⟩

theorem plain_receipt {receipt : TerminalReceipt}
    (h : receipt.revision.natAbs ≤ maxSafeInteger) : receipt.value.Plain :=
  ⟨⟨trivial, trivial, trivial, h, trivial⟩, inOrder_names.1.2.1⟩

theorem plain_subject {subject : TerminalSubject}
    (h : subject.receipt.revision.natAbs ≤ maxSafeInteger) : subject.value.Plain :=
  ⟨⟨plain_owner _, plain_receipt h, trivial, trivial⟩, inOrder_names.1.2.2.1⟩

theorem plain_selector {subject : TerminalSubject}
    (h : subject.receipt.revision.natAbs ≤ maxSafeInteger) : subject.selector.Plain :=
  ⟨⟨plain_owner _, plain_receipt h, trivial⟩, inOrder_names.1.2.2.2⟩

theorem plain_refusal {refusal : PreIntentRefusal}
    (h : refusal.event.sequence.natAbs ≤ maxSafeInteger) : refusal.value.Plain :=
  ⟨⟨trivial, ⟨⟨trivial, trivial, h, trivial⟩, inOrder_names.2.1.1⟩, trivial⟩,
    inOrder_names.2.1.2⟩

theorem nodup_names :
    (["activityId", "kind", "processId", "storeId", "subjectDigest"].Nodup
      ∧ ["digest", "id", "kind", "revision"].Nodup
      ∧ ["owner", "receipt", "retirementFactsDigest"].Nodup)
    ∧ ["digest", "eventId", "sequence"].Nodup ∧ ["activityId", "event"].Nodup := by
  simp

theorem distinct_owner (owner : Owner) : owner.value.DistinctNames :=
  ⟨nodup_names.1.1, trivial, trivial, trivial, trivial, trivial, trivial⟩

theorem distinct_receipt (receipt : TerminalReceipt) : receipt.value.DistinctNames :=
  ⟨nodup_names.1.2.1, trivial, trivial, trivial, trivial, trivial⟩

theorem distinct_subject (subject : TerminalSubject) : subject.value.DistinctNames :=
  ⟨nodup_names.1.2.2, distinct_owner _, distinct_receipt _, trivial, trivial⟩

theorem distinct_refusal (refusal : PreIntentRefusal) : refusal.value.DistinctNames :=
  ⟨nodup_names.2.2, trivial, ⟨nodup_names.2.1, trivial, trivial, trivial, trivial⟩, trivial⟩

/-- **Plain values have one text only when they are one.** -/
theorem textOf_inj {v w : Json} (hv : v.Plain) (hvnames : v.DistinctNames) (hw : w.Plain)
    (hwnames : w.DistinctNames) : textOf v = textOf w ↔ v = w := by
  constructor
  · intro h
    obtain ⟨t, ht, -⟩ := exists_text_of_plain hv
    obtain ⟨u, hu, -⟩ := exists_text_of_plain hw
    rw [textOf, textOf, ht, hu] at h
    obtain rfl : t = u := h
    exact canonicalJson_injective hv hvnames hw hwnames ht hu
  · rintro rfl
    rfl

theorem OwnerKind.text_injective : Function.Injective OwnerKind.text := by
  intro a b h
  cases a <;> cases b <;> first | rfl | exact absurd h (by decide)

theorem ReceiptKind.text_injective : Function.Injective ReceiptKind.text := by
  intro a b h
  cases a <;> cases b <;> first | rfl | exact absurd h (by decide)

theorem Owner.value_injective : Function.Injective Owner.value := by
  rintro ⟨store, process, activity, kind, subject⟩ ⟨store', process', activity', kind', subject'⟩ h
  simp only [Owner.value, Json.object.injEq, List.cons.injEq, Prod.mk.injEq, Json.string.injEq,
    true_and, and_true] at h
  obtain ⟨rfl, hkind, rfl, rfl, rfl⟩ := h
  rw [OwnerKind.text_injective hkind]

theorem TerminalReceipt.value_injective : Function.Injective TerminalReceipt.value := by
  rintro ⟨kind, id, revision, digest⟩ ⟨kind', id', revision', digest'⟩ h
  simp only [TerminalReceipt.value, Json.object.injEq, List.cons.injEq, Prod.mk.injEq,
    Json.string.injEq, Json.number.injEq, JsNumber.integer.injEq, true_and, and_true] at h
  obtain ⟨rfl, rfl, hkind, rfl⟩ := h
  rw [ReceiptKind.text_injective hkind]

theorem TerminalSubject.value_injective : Function.Injective TerminalSubject.value := by
  rintro ⟨receipt, owner, retirement⟩ ⟨receipt', owner', retirement'⟩ h
  simp only [TerminalSubject.value, Json.object.injEq, List.cons.injEq, Prod.mk.injEq,
    Json.string.injEq, true_and, and_true] at h
  obtain ⟨howner, hreceipt, rfl⟩ := h
  rw [Owner.value_injective howner, TerminalReceipt.value_injective hreceipt]

theorem PreIntentRefusal.value_injective : Function.Injective PreIntentRefusal.value := by
  rintro ⟨⟨sequence, id, digest⟩, activity⟩ ⟨⟨sequence', id', digest'⟩, activity'⟩ h
  simp only [PreIntentRefusal.value, Json.object.injEq, List.cons.injEq, Prod.mk.injEq,
    Json.string.injEq, Json.number.injEq, JsNumber.integer.injEq, true_and, and_true] at h
  obtain ⟨rfl, rfl, rfl, rfl⟩ := h
  rfl

theorem textOf_owner {a b : Owner} : textOf a.value = textOf b.value ↔ a = b :=
  (textOf_inj (plain_owner a) (distinct_owner a) (plain_owner b) (distinct_owner b)).trans
    Owner.value_injective.eq_iff

theorem comparison_textLe : Comparison textLe :=
  ⟨fun _ _ => lexLe_total _ _, lexLe_trans⟩

/-- Values that are tied have one text. -/
theorem textOf_of_tied {a b : Json} (h : Tied textLe a b) : textOf a = textOf b :=
  List.map_injective_iff.mpr (fun _ _ => UInt8.toNat_inj.mp) (lexLe_antisymm h.1 h.2)

/-! ## Sorted inputs -/

theorem sortSubjects_eq_of_perm {subjects subjects' : List TerminalSubject}
    (hperm : subjects.Perm subjects')
    (hsafe : ∀ s ∈ subjects, s.receipt.revision.natAbs ≤ maxSafeInteger) :
    sortSubjects subjects = sortSubjects subjects' := by
  refine sortWith_eq_of_perm (comparison_textLe.comap TerminalSubject.value) hperm ?_
  intro a ha b hb htied
  have hvalue := (textOf_inj (plain_subject (hsafe a ha)) (distinct_subject a)
    (plain_subject (hsafe b hb)) (distinct_subject b)).mp (textOf_of_tied htied)
  exact TerminalSubject.value_injective hvalue

theorem sortRefusals_eq_of_perm {refusals refusals' : List PreIntentRefusal}
    (hperm : refusals.Perm refusals')
    (hsafe : ∀ r ∈ refusals, r.event.sequence.natAbs ≤ maxSafeInteger) :
    sortRefusals refusals = sortRefusals refusals' := by
  refine sortWith_eq_of_perm (comparison_textLe.comap PreIntentRefusal.value) hperm ?_
  intro a ha b hb htied
  have hvalue := (textOf_inj (plain_refusal (hsafe a ha)) (distinct_refusal a)
    (plain_refusal (hsafe b hb)) (distinct_refusal b)).mp (textOf_of_tied htied)
  exact PreIntentRefusal.value_injective hvalue

/-- Keys that tell the same entries apart repeat together. -/
theorem nodup_map_congr {α β γ : Type} {f : α → β} {g : α → γ} {l : List α}
    (h : ∀ a ∈ l, ∀ b ∈ l, f a = f b ↔ g a = g b) : (l.map f).Nodup ↔ (l.map g).Nodup := by
  rw [List.Nodup, List.pairwise_map, List.Nodup, List.pairwise_map]
  exact List.Pairwise.iff_of_mem fun {a b} ha hb => not_congr (h a ha b hb)

/-- **The subjects a normalization returns.** -/
structure SubjectsAdmitted (storeId processId : String) (subjects : List TerminalSubject) :
    Prop where
  bounded : subjects.length ≤ maximumHandoffs
  wellFormed : ∀ s ∈ subjects, WellFormedSubject storeId processId s
  receipts : (subjects.map TerminalSubject.receipt).Nodup
  retirements : (subjects.map TerminalSubject.retirementFactsDigest).Nodup
  agents : ((subjects.filter fun s => s.owner.kind = .agentAttempt).map
    TerminalSubject.owner).Nodup

/-- **The refusals a normalization returns.** -/
structure RefusalsAdmitted (refusals : List PreIntentRefusal) : Prop where
  bounded : refusals.length ≤ maximumHandoffs
  wellFormed : ∀ r ∈ refusals, WellFormedRefusal r
  sequences : (refusals.map fun r => r.event.sequence).Nodup
  eventIds : (refusals.map fun r => r.event.eventId).Nodup
  digests : (refusals.map fun r => r.event.digest).Nodup
  activities : (refusals.map PreIntentRefusal.activityId).Nodup

theorem nodup_snoc {α : Type} {l : List α} {a : α} : (l ++ [a]).Nodup ↔ l.Nodup ∧ a ∉ l := by
  rw [List.nodup_append]
  constructor
  · rintro ⟨hl, -, hdisjoint⟩
    exact ⟨hl, fun ha => hdisjoint a ha a (List.mem_singleton_self a) rfl⟩
  · rintro ⟨hl, ha⟩
    refine ⟨hl, List.nodup_singleton a, ?_⟩
    rintro x hx y hy rfl
    exact ha (List.mem_singleton.mp hy ▸ hx)

/-- **What the pass over the subjects refuses** is a repeated key. -/
theorem replay_seeSubject_iff {subjects : List TerminalSubject} {seen : SeenSubjects} :
    replay seeSubject ⟨[], [], []⟩ subjects = .ok seen
      ↔ ((subjects.map fun s => textOf s.receipt.value).Nodup
          ∧ (subjects.map TerminalSubject.retirementFactsDigest).Nodup
          ∧ ((subjects.filter fun s => s.owner.kind = .agentAttempt).map
            fun s => textOf s.owner.value).Nodup)
        ∧ { receiptKeys := subjects.map fun s => textOf s.receipt.value
            retirementKeys := subjects.map TerminalSubject.retirementFactsDigest
            agentOwnerKeys := (subjects.filter fun s => s.owner.kind = .agentAttempt).map
              fun s => textOf s.owner.value } = seen := by
  induction subjects using List.reverseRecOn generalizing seen with
  | nil =>
    rw [replay_nil, Except.ok.injEq]
    exact (and_iff_right ⟨.nil, .nil, .nil⟩).symm
  | append_singleton subjects subject ih =>
    rw [replay_snoc_eq_ok]
    simp only [ih, seeSubject, bind_eq_ok, failIf_eq_ok, exists_unit, pure_eq_ok, not_or,
      List.map_append, List.map_singleton, List.filter_append, nodup_snoc]
    by_cases hagent : subject.owner.kind = .agentAttempt
    · have hfilter : [subject].filter (fun s => decide (s.owner.kind = .agentAttempt))
          = [subject] := by simp [hagent]
      simp only [hfilter, List.map_singleton, nodup_snoc, not_and, hagent, true_implies]
      constructor
      · rintro ⟨_, ⟨⟨hr, ht, ha⟩, rfl⟩, ⟨hr', ht', ha'⟩, rfl⟩
        exact ⟨⟨⟨hr, hr'⟩, ⟨ht, ht'⟩, ha, ha'⟩, rfl⟩
      · rintro ⟨⟨⟨hr, hr'⟩, ⟨ht, ht'⟩, ha, ha'⟩, rfl⟩
        exact ⟨_, ⟨⟨hr, ht, ha⟩, rfl⟩, ⟨hr', ht', ha'⟩, rfl⟩
    · have hfilter : [subject].filter (fun s => decide (s.owner.kind = .agentAttempt))
          = [] := by simp [hagent]
      simp only [hfilter, List.map_nil, List.append_nil, not_and, hagent, false_implies, and_true]
      constructor
      · rintro ⟨_, ⟨⟨hr, ht, ha⟩, rfl⟩, ⟨hr', ht'⟩, rfl⟩
        exact ⟨⟨⟨hr, hr'⟩, ⟨ht, ht'⟩, ha⟩, rfl⟩
      · rintro ⟨⟨⟨hr, hr'⟩, ⟨ht, ht'⟩, ha⟩, rfl⟩
        exact ⟨_, ⟨⟨hr, ht, ha⟩, rfl⟩, ⟨hr', ht'⟩, rfl⟩

/-- **What the pass over the refusals refuses** is a repeated key. -/
theorem replay_seeRefusal_iff {refusals : List PreIntentRefusal} {seen : SeenRefusals} :
    replay seeRefusal ⟨[], [], [], []⟩ refusals = .ok seen
      ↔ ((refusals.map fun r => r.event.sequence).Nodup
          ∧ (refusals.map fun r => r.event.eventId).Nodup
          ∧ (refusals.map fun r => r.event.digest).Nodup
          ∧ (refusals.map PreIntentRefusal.activityId).Nodup)
        ∧ { eventSequences := refusals.map fun r => r.event.sequence
            eventIds := refusals.map fun r => r.event.eventId
            eventDigests := refusals.map fun r => r.event.digest
            activityIds := refusals.map PreIntentRefusal.activityId } = seen := by
  induction refusals using List.reverseRecOn generalizing seen with
  | nil =>
    rw [replay_nil, Except.ok.injEq]
    exact (and_iff_right ⟨.nil, .nil, .nil, .nil⟩).symm
  | append_singleton refusals refusal ih =>
    rw [replay_snoc_eq_ok]
    simp only [ih, seeRefusal, bind_eq_ok, failIf_eq_ok, exists_unit, pure_eq_ok, not_or,
      List.map_append, List.map_singleton, nodup_snoc]
    constructor
    · rintro ⟨_, ⟨⟨hs, hi, hd, ha⟩, rfl⟩, ⟨hs', hi', hd', ha'⟩, rfl⟩
      exact ⟨⟨⟨hs, hs'⟩, ⟨hi, hi'⟩, ⟨hd, hd'⟩, ha, ha'⟩, rfl⟩
    · rintro ⟨⟨⟨hs, hs'⟩, ⟨hi, hi'⟩, ⟨hd, hd'⟩, ha, ha'⟩, rfl⟩
      exact ⟨_, ⟨⟨hs, hi, hd, ha⟩, rfl⟩, ⟨hs', hi', hd', ha'⟩, rfl⟩

/-- **The normalization of the subjects**: what it admits, and the sorted list. -/
theorem normalizedTerminalSubjects_iff {storeId processId : String}
    {subjects out : List TerminalSubject} :
    normalizedTerminalSubjects storeId processId subjects = .ok out
      ↔ SubjectsAdmitted storeId processId subjects ∧ sortSubjects subjects = out := by
  have hperm : (sortSubjects subjects).Perm subjects := perm_sortWith _ subjects
  have hkeys (hsafe : ∀ s ∈ subjects, s.receipt.revision.natAbs ≤ maxSafeInteger) :
      ((sortSubjects subjects).map fun s => textOf s.receipt.value).Nodup
        ↔ (subjects.map TerminalSubject.receipt).Nodup := by
    rw [(hperm.map _).nodup_iff]
    refine nodup_map_congr fun a ha b hb => ?_
    rw [textOf_inj (plain_receipt (hsafe a ha)) (distinct_receipt _) (plain_receipt (hsafe b hb))
      (distinct_receipt _), TerminalReceipt.value_injective.eq_iff]
  have hagents : (((sortSubjects subjects).filter fun s => s.owner.kind = .agentAttempt).map
        fun s => textOf s.owner.value).Nodup
      ↔ ((subjects.filter fun s => s.owner.kind = .agentAttempt).map
        TerminalSubject.owner).Nodup := by
    rw [((hperm.filter _).map _).nodup_iff]
    exact nodup_map_congr fun a _ b _ => textOf_owner
  simp only [normalizedTerminalSubjects, bind_eq_ok, failIf_eq_ok, exists_unit, pure_eq_ok, not_lt,
    mapM_copy_eq_ok fun a b => terminalSubject_eq_ok]
  constructor
  · rintro ⟨hbounded, _, ⟨hformed, rfl⟩, _, hseen, rfl⟩
    obtain ⟨⟨hr, ht, ha⟩, -⟩ := replay_seeSubject_iff.mp hseen
    exact ⟨⟨hbounded, hformed, (hkeys fun s hs => (hformed s hs).revision.2).mp hr,
      (hperm.map _).nodup_iff.mp ht, hagents.mp ha⟩, rfl⟩
  · rintro ⟨h, rfl⟩
    refine ⟨h.bounded, _, ⟨h.wellFormed, rfl⟩, _, replay_seeSubject_iff.mpr ⟨?_, rfl⟩, rfl⟩
    exact ⟨(hkeys fun s hs => (h.wellFormed s hs).revision.2).mpr h.receipts,
      (hperm.map _).nodup_iff.mpr h.retirements, hagents.mpr h.agents⟩

/-- **The normalization of the refusals**: what it admits, and the sorted list. -/
theorem normalizedPreIntentRefusals_iff {refusals out : List PreIntentRefusal} :
    normalizedPreIntentRefusals refusals = .ok out
      ↔ RefusalsAdmitted refusals ∧ sortRefusals refusals = out := by
  have hperm : (sortRefusals refusals).Perm refusals := perm_sortWith _ refusals
  simp only [normalizedPreIntentRefusals, bind_eq_ok, failIf_eq_ok, exists_unit, pure_eq_ok, not_lt,
    mapM_copy_eq_ok fun a b => preIntentRefusal_eq_ok]
  constructor
  · rintro ⟨hbounded, _, ⟨hformed, rfl⟩, _, hseen, rfl⟩
    obtain ⟨⟨hs, hi, hd, ha⟩, -⟩ := replay_seeRefusal_iff.mp hseen
    exact ⟨⟨hbounded, hformed, (hperm.map _).nodup_iff.mp hs, (hperm.map _).nodup_iff.mp hi,
      (hperm.map _).nodup_iff.mp hd, (hperm.map _).nodup_iff.mp ha⟩, rfl⟩
  · rintro ⟨h, rfl⟩
    refine ⟨h.bounded, _, ⟨h.wellFormed, rfl⟩, _, replay_seeRefusal_iff.mpr ⟨?_, rfl⟩, rfl⟩
    exact ⟨(hperm.map _).nodup_iff.mpr h.sequences, (hperm.map _).nodup_iff.mpr h.eventIds,
      (hperm.map _).nodup_iff.mpr h.digests, (hperm.map _).nodup_iff.mpr h.activities⟩

theorem SubjectsAdmitted.perm {storeId processId : String}
    {subjects subjects' : List TerminalSubject} (h : SubjectsAdmitted storeId processId subjects)
    (hperm : subjects.Perm subjects') :
    SubjectsAdmitted storeId processId subjects' where
  bounded := hperm.length_eq ▸ h.bounded
  wellFormed s hs := h.wellFormed s (hperm.mem_iff.mpr hs)
  receipts := (hperm.map _).nodup_iff.mp h.receipts
  retirements := (hperm.map _).nodup_iff.mp h.retirements
  agents := ((hperm.filter _).map _).nodup_iff.mp h.agents

theorem RefusalsAdmitted.perm {refusals refusals' : List PreIntentRefusal}
    (h : RefusalsAdmitted refusals) (hperm : refusals.Perm refusals') :
    RefusalsAdmitted refusals' where
  bounded := hperm.length_eq ▸ h.bounded
  wellFormed r hr := h.wellFormed r (hperm.mem_iff.mpr hr)
  sequences := (hperm.map _).nodup_iff.mp h.sequences
  eventIds := (hperm.map _).nodup_iff.mp h.eventIds
  digests := (hperm.map _).nodup_iff.mp h.digests
  activities := (hperm.map _).nodup_iff.mp h.activities

/-- **The order of the subjects leaves no trace.** -/
theorem normalizedTerminalSubjects_perm {storeId processId : String}
    {subjects subjects' out : List TerminalSubject} (hperm : subjects.Perm subjects') :
    normalizedTerminalSubjects storeId processId subjects = .ok out
      ↔ normalizedTerminalSubjects storeId processId subjects' = .ok out := by
  rw [normalizedTerminalSubjects_iff, normalizedTerminalSubjects_iff]
  have hsorted (h : SubjectsAdmitted storeId processId subjects) :
      sortSubjects subjects = sortSubjects subjects' :=
    sortSubjects_eq_of_perm hperm fun s hs => (h.wellFormed s hs).revision.2
  constructor
  · rintro ⟨h, rfl⟩
    exact ⟨h.perm hperm, (hsorted h).symm⟩
  · rintro ⟨h, rfl⟩
    exact ⟨h.perm hperm.symm, hsorted (h.perm hperm.symm)⟩

/-- **The order of the refusals leaves no trace.** -/
theorem normalizedPreIntentRefusals_perm {refusals refusals' out : List PreIntentRefusal}
    (hperm : refusals.Perm refusals') :
    normalizedPreIntentRefusals refusals = .ok out
      ↔ normalizedPreIntentRefusals refusals' = .ok out := by
  rw [normalizedPreIntentRefusals_iff, normalizedPreIntentRefusals_iff]
  have hsorted (h : RefusalsAdmitted refusals) : sortRefusals refusals = sortRefusals refusals' :=
    sortRefusals_eq_of_perm hperm fun r hr => (h.wellFormed r hr).sequence.2
  constructor
  · rintro ⟨h, rfl⟩
    exact ⟨h.perm hperm, (hsorted h).symm⟩
  · rintro ⟨h, rfl⟩
    exact ⟨h.perm hperm.symm, hsorted (h.perm hperm.symm)⟩

end ReclamationLedger
