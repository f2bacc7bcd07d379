import Lifecycle.DeliveryReducer

/-!
# What one event does

Each handler of the reducer is inverted once. `DeliveryStep` says what an
accepted event of a kind establishes and what replay it leaves;
`Progress` is the part of it for the handlers that only move their
activity. Every invariant of the delivery is derived from these relations,
never from the handlers.
-/

open Fallible Json ControlModel DeliveryReducer

variable {resolve : DeliveryRecordRevisionResolver} {r next : Replay}
  {event : ControlRecordEvent}

/-! ## The envelope -/

/-- **Replays with the same facts**: they differ at most in what only the
envelope of an event, a brief or a delegation reads. -/
structure SameFacts (r r' : Replay) : Prop where
  activities : r'.activities = r.activities
  subjects : r'.subjects = r.subjects
  evidenceReadiness : r'.evidenceReadiness = r.evidenceReadiness
  closureDisposition : r'.closureDisposition = r.closureDisposition
  candidateIntegrated : r'.candidateIntegrated = r.candidateIntegrated
  recordKinds : r'.recordKinds = r.recordKinds
  recordRevisions : r'.recordRevisions = r.recordRevisions
  finalizedSubjects : r'.finalizedSubjects = r.finalizedSubjects

namespace SameFacts

theorem rfl {r : Replay} : SameFacts r r := ⟨.refl _, .refl _, .refl _, .refl _, .refl _,
  .refl _, .refl _, .refl _⟩

theorem trans {s t : Replay} (h : SameFacts r s) (h' : SameFacts s t) : SameFacts r t :=
  ⟨h'.activities.trans h.activities, h'.subjects.trans h.subjects,
    h'.evidenceReadiness.trans h.evidenceReadiness,
    h'.closureDisposition.trans h.closureDisposition,
    h'.candidateIntegrated.trans h.candidateIntegrated, h'.recordKinds.trans h.recordKinds,
    h'.recordRevisions.trans h.recordRevisions,
    h'.finalizedSubjects.trans h.finalizedSubjects⟩

end SameFacts

/-- **Replays with the same envelope**: no handler changes what the
envelope of the next event is verified against. -/
structure SameEnvelope (r r' : Replay) : Prop where
  storeId : r'.storeId = r.storeId
  processId : r'.processId = r.processId
  lastEvent : r'.lastEvent = r.lastEvent
  lastOccurredAt : r'.lastOccurredAt = r.lastOccurredAt
  eventIds : r'.eventIds = r.eventIds
  created : r.created = true → r'.created = true

namespace SameEnvelope

theorem rfl {r : Replay} : SameEnvelope r r := ⟨.refl _, .refl _, .refl _, .refl _, .refl _, id⟩

theorem trans {s t : Replay} (h : SameEnvelope r s) (h' : SameEnvelope s t) :
    SameEnvelope r t :=
  ⟨h'.storeId.trans h.storeId, h'.processId.trans h.processId, h'.lastEvent.trans h.lastEvent,
    h'.lastOccurredAt.trans h.lastOccurredAt, h'.eventIds.trans h.eventIds,
    fun hc => h'.created (h.created hc)⟩

end SameEnvelope

/-- An envelope that was verified left the facts as they were. -/
theorem verifyEnvelope_sameFacts {n : Nat} (h : verifyEnvelope r event n = .ok next) :
    SameFacts r next := by
  simp only [verifyEnvelope, bind_eq_ok, pure_eq_ok] at h
  obtain ⟨-, -, -, -, -, -, -, -, -, -, -, -, rfl⟩ := h
  exact ⟨rfl, rfl, rfl, rfl, rfl, rfl, rfl, rfl⟩

/-- **What an accepted event went through**: the envelope, then the handler
of its kind, in a delivery that is not closed. -/
theorem append_eq_ok : append resolve r event = .ok next ↔
    ∃ verified applied k, verifyEnvelope r event ((r.lastEvent.map (·.sequence)).getD 0 + 1)
        = .ok verified
      ∧ DeliveryEvents.parseKind event.eventKind = some k
      ∧ (verified.created = true ∨ k = .deliveryCreated)
      ∧ verified.subjects.closure = none
      ∧ handle resolve verified event k = .ok applied
      ∧ next = { applied with lastEvent := some event } := by
  constructor
  · intro h
    simp only [append, bind_eq_ok, pure_eq_ok] at h
    obtain ⟨verified, hverified, applied, happlied, rfl⟩ := h
    obtain ⟨d, hd⟩ : ∃ d, deliveryEventDescriptor event.eventKind = .ok d := by
      simp only [verifyEnvelope, assertDeliveryEventEnvelope, bind_eq_ok] at hverified
      obtain ⟨-, ⟨d, hd, -⟩, -⟩ := hverified
      exact ⟨d, hd⟩
    simp only [applyEvent, bind_eq_ok, failIf_eq_ok] at happlied
    obtain ⟨-, hcreated, -, hclosure, happlied⟩ := happlied
    cases hk : DeliveryEvents.parseKind event.eventKind with
    | none => simp [deliveryEventDescriptor, hk] at hd
    | some k =>
      rw [hk] at happlied hcreated
      refine ⟨verified, applied, k, hverified, rfl, ?_, not_not.mp hclosure, happlied, rfl⟩
      by_contra hne
      push Not at hne
      exact hcreated ⟨by simpa using hne.1, by simpa using hne.2⟩
  · rintro ⟨verified, applied, k, hverified, hk, hcreated, hclosure, happlied, rfl⟩
    simp only [append, hverified, ok_bind, applyEvent, hk]
    rw [failIf_neg (by rintro ⟨h, hne⟩; rcases hcreated with hc | hc <;> simp_all),
      failIf_neg (by simpa using hclosure)]
    simp only [ok_bind, happlied]
    rfl

/-! ## Activities and finalized subjects -/

/-- An event's activity is the open one its payload names. -/
theorem activityFor_eq_ok {payload : JsonObject} {a : ReplayActivity} :
    activityFor r payload = .ok a ↔
      ∃ id, identifierField payload "activityId" = .ok id ∧ r.activities.get id = some a
        ∧ a.stage ≠ .completed := by
  simp only [activityFor, bind_eq_ok, orFail_eq_ok, failIf_eq_ok, pure_eq_ok]
  constructor
  · rintro ⟨id, hid, b, hb, -, hstage, rfl⟩
    exact ⟨id, hid, hb, hstage⟩
  · rintro ⟨id, hid, hb, hstage⟩
    exact ⟨id, hid, a, hb, (), hstage, rfl⟩

/-- **What the finalization of a subject establishes**: the event's subject
resolves to the revision, of the process and of the kind, and the
registries have nothing else for it. -/
structure Finalizes (resolve : DeliveryRecordRevisionResolver) (r : Replay)
    (event : ControlRecordEvent) (kind : String) (revision : ControlRecordRevision) : Prop where
  process : r.processId = some revision.processId
  subject : event.subject = some (subjectOf (retainedReference revision))
  resolved : resolve (subjectOf (retainedReference revision)) = some revision
  recordKind : revision.recordKind = kind
  sameKind : ∀ k ∈ r.recordKinds.get revision.recordId, k = kind
  sameDigest : ∀ d ∈ r.recordRevisions.get (revision.recordId, revision.revision),
    d = revision.digest
  unfinalized : (kind, retainedReference revision) ∉ r.finalizedSubjects

/-- **`registerFinalizedSubject` finalizes.** -/
theorem registerFinalizedSubject_eq_ok {kind : String} {p : ControlRecordRevision × Replay} :
    registerFinalizedSubject resolve r event kind = .ok p ↔
      (∃ d, assertDeliveryEventEnvelope event = .ok d ∧ d.subjectKind = some kind)
        ∧ Finalizes resolve r event kind p.1
        ∧ p.2 = r.register kind (retainedReference p.1) := by
  simp only [registerFinalizedSubject, resolveDeliveryEventSubject, deliveryEventSubject,
    bind_eq_ok, orFail_eq_ok, failIf_eq_ok, pure_eq_ok]
  constructor
  · rintro ⟨processId, hprocess, revision, ⟨d, hd, kind', hkind', subject, hsubject,
      revision', hrevision', -, hexact, -, hkind, rfl⟩, -, hkind'', subject', ⟨-, -, hs⟩,
      -, hkinds, -, hrevisions, -, hfinal, rfl⟩
    rw [hsubject, Option.some.injEq] at hs
    subst hs
    push Not at hexact hkind hkind''
    obtain ⟨hp, hid, hrev, hdig⟩ := hexact
    have hsub : subjectOf (retainedReference revision') = subject := by
      simp only [subjectOf, retainedReference, hid, hrev, hdig]
    have href : reference subject = retainedReference revision' := by
      simp only [reference, retainedReference, hid, hrev, hdig]
    rw [href] at hkinds hrevisions hfinal ⊢
    push Not at hkinds hrevisions
    refine ⟨⟨d, hd, by rw [hkind', ← hkind, hkind'']⟩, ?_, rfl⟩
    exact ⟨by rw [hprocess, hp], by rw [hsub, hsubject], by rw [hsub, hrevision'], hkind'',
      hkinds, hrevisions, hfinal⟩
  · rintro ⟨⟨d, hd, hkind⟩, h, hp⟩
    obtain ⟨revision, registered⟩ := p
    obtain rfl : registered = r.register kind (retainedReference revision) := hp
    replace h : Finalizes resolve r event kind revision := h
    refine ⟨_, h.process, revision, ⟨d, hd, kind, hkind, _, h.subject, revision, h.resolved,
      (), ?_, (), ?_, rfl⟩, (), ?_, _, ⟨d, hd, h.subject⟩, (), ?_, (), ?_, (), ?_, rfl⟩
    · simp [subjectOf, retainedReference]
    · simpa using h.recordKind
    · simpa using h.recordKind
    · push Not
      exact h.sameKind
    · push Not
      exact h.sameDigest
    · exact h.unfinalized

/-- A registration that is continued: some revision is finalized. -/
theorem exists_registered {kind : String} {P : ControlRecordRevision × Replay → Prop} :
    (∃ p, registerFinalizedSubject resolve r event kind = .ok p ∧ P p) ↔
      (∃ d, assertDeliveryEventEnvelope event = .ok d ∧ d.subjectKind = some kind)
        ∧ ∃ revision, Finalizes resolve r event kind revision
          ∧ P (revision, r.register kind (retainedReference revision)) := by
  simp only [registerFinalizedSubject_eq_ok]
  constructor
  · rintro ⟨p, ⟨henvelope, hfin, hreg⟩, hp⟩
    refine ⟨henvelope, p.1, hfin, ?_⟩
    rwa [← hreg]
  · rintro ⟨henvelope, revision, hfin, hp⟩
    exact ⟨_, ⟨henvelope, hfin, rfl⟩, hp⟩

/-! ## Steps that only move their activity -/

/-- An agent activity whose attempt was observed and whose work product is
decided. -/
def CoreAgentTerminal (a : ReplayActivity) : Prop :=
  a.attempt ≠ none ∧ a.providerOutcome ≠ none
    ∧ (a.workProduct ≠ none ∨ a.workProductAbandoned = true)

theorem assertCoreAgentTerminal_eq_ok {a : ReplayActivity} {u : Unit} :
    assertCoreAgentTerminal a = .ok u ↔ CoreAgentTerminal a := by
  simp only [assertCoreAgentTerminal, bind_eq_ok, failIf_eq_ok, exists_unit, CoreAgentTerminal]
  constructor
  · rintro ⟨h₁, h₂⟩
    push Not at h₁ h₂
    refine ⟨h₁.1, h₁.2, ?_⟩
    by_cases hw : a.workProduct = none
    · exact .inr (by simpa using h₂ hw)
    · exact .inl hw
  · rintro ⟨h₁, h₂, h₃⟩
    refine ⟨by simp [h₁, h₂], ?_⟩
    rintro ⟨hw, hx⟩
    rcases h₃ with h | h
    · exact h hw
    · simp [h] at hx

/-- What a finalized boundary advances: nothing in a preparation, else the
active boundary, under a standing condition. -/
def ProposesBoundary (r : Replay) (operation : DeliveryOperation) (b : SubjectReference) :
    Prop :=
  if operation = .prepare then b.revision = 1
  else ∃ active, r.subjects.activeBoundary = some active ∧ b.id = active.id
    ∧ b.revision = active.revision + 1 ∧ r.subjects.materialCondition ≠ none

/-- What the refusal a projection condition follows says. -/
structure RequiresProjectionCondition (refusal : ControlRecordEvent) : Prop where
  resolution : asString (member "resolution" refusal.payload)
    = some "projection-condition-required"
  diagnosticCode : asString (member "diagnosticCode" refusal.payload) = some mandatoryTooLarge
  refusalFactsDigest : ∃ d, isSha256 d = true
    ∧ asString (member "refusalFactsDigest" refusal.payload) = some d

/-- **What a handler that only moves its activity does to it**: the replay
with the finalized subject registered, if there is one, and the activity
it leaves. -/
inductive Progress (resolve : DeliveryRecordRevisionResolver) (r : Replay)
    (event : ControlRecordEvent) (a : ReplayActivity) :
    DeliveryEventKind → Replay → ReplayActivity → Prop
  | refused {step : DeliveryRecoveryStep} :
      a.family = .agent → a.stage = preAttemptStage a.operation → a.attempt = none →
      a.providerEffectDigest = none → a.providerOutcome = none → a.workProduct = none →
      a.workProductAbandoned = false → a.receipt = none →
      a.recovery = recovery .finalization (preAttemptStep a.operation) none →
      (step = .activityFinalization ∧ (a.operation = .evaluate ∨ a.operation = .continue)
          ∧ RequiresProjectionCondition event
        ∨ step = .activityCompleted) →
      Progress resolve r event a .agentPreIntentRefused r { a with
        preIntentRefusal := some event
        stage := .finalizing
        recovery := recovery .finalization step none }
  | prepared {revision : ControlRecordRevision} :
      Finalizes resolve r event "agent-attempt" revision →
      a.family = .agent → a.preIntentRefusal.isSome = false → a.attempt = none →
      a.providerEffectDigest = none →
      (a.operation = .evaluate → a.candidateSeal ≠ none
        ∧ a.recovery.map (·.kind) = some .finalization
        ∧ a.resumesAt = some .evaluationChecks
        ∧ ∃ required, finalSelectionIds resolve r a = .ok required
          ∧ ∀ s ∈ required, s ∈ receivedSelections .final a) →
      Progress resolve r event a .agentAttemptPrepared
        (r.register "agent-attempt" (retainedReference revision)) { a with
          attempt := some (retainedReference revision)
          stage := .prepared
          recovery := recovery .finalization .providerEffectIntended none }
  | providerIntended {d : Sha256Digest} :
      a.family = .agent → a.attempt ≠ none → a.providerEffectDigest = none →
      Progress resolve r event a .providerEffectIntended r { a with
        providerEffectDigest := some d
        stage := .effectIntended
        recovery := recovery .provider .providerEffectObserved (some d) }
  | providerObserved {d : Sha256Digest} {outcome : ProviderOutcome} :
      a.family = .agent → a.attempt ≠ none → a.providerEffectDigest = some d →
      a.providerOutcome = none →
      Progress resolve r event a .providerEffectObserved r { a with
        providerOutcome := some outcome
        stage := .effectObserved
        recovery := recovery .finalization .workProductObservation (some d) }
  | submitted {revision : ControlRecordRevision} :
      Finalizes resolve r event "agent-work-product" revision →
      a.family = .agent → a.providerOutcome = some .completed → a.workProduct = none →
      a.workProductAbandoned = false →
      Progress resolve r event a .agentWorkProductSubmitted
        (r.register "agent-work-product" (retainedReference revision)) { a with
          workProduct := some (retainedReference revision)
          stage := .submitted
          recovery := decidedWorkRecovery a.operation }
  | abandoned :
      a.family = .agent → a.attempt ≠ none → a.providerOutcome ≠ none →
      a.workProduct = none → a.workProductAbandoned = false →
      Progress resolve r event a .agentWorkProductAbandoned r { a with
        workProductAbandoned := true
        stage := .submitted
        recovery := decidedWorkRecovery a.operation }
  | receipted {revision : ControlRecordRevision} :
      Finalizes resolve r event "execution-receipt" revision →
      a.family = .agent → CoreAgentTerminal a → a.receipt = none →
      Progress resolve r event a .executionReceiptRecorded
        (r.register "execution-receipt" (retainedReference revision)) { a with
          receipt := some (retainedReference revision)
          stage := .finalizing
          recovery := receiptRecovery a }
  | bounded {revision : ControlRecordRevision} :
      Finalizes resolve r event "work-boundary" revision →
      a.family = .agent → CoreAgentTerminal a → a.workProduct ≠ none → a.receipt ≠ none →
      a.boundary = none → preparesBoundary a.operation = true →
      ProposesBoundary r a.operation (retainedReference revision) →
      Progress resolve r event a .workBoundaryFinalized
        (r.register "work-boundary" (retainedReference revision)) { a with
          boundary := some (retainedReference revision)
          stage := .finalizing
          recovery := recovery .finalization .baselineChecks none }
  | checked {revision : ControlRecordRevision} {check : CheckFact} {required : List String} :
      Finalizes resolve r event "check-receipt" revision →
      a.family = .agent → check.reference = retainedReference revision →
      requiredSelections resolve r a = .ok required → check.selectionId ∈ required →
      check.selectionId ∉ receivedSelections check.phase a →
      (a.operation = .evaluate ∧ check.phase = .final ∧ a.candidateSeal ≠ none
          ∧ a.attempt = none
          ∧ optionalRelationship revision "checks-seal" "candidate-seal" = .ok a.candidateSeal
        ∨ preparesBoundary a.operation = true ∧ check.phase = .baseline ∧ a.boundary ≠ none) →
      Progress resolve r event a .checkReceiptRecorded
        (r.register "check-receipt" (retainedReference revision)) { a with
          checks := a.checks ++ [check]
          recovery := recovery .finalization (checkedStep a.operation required
            (receivedSelections .baseline { a with checks := a.checks ++ [check] })) none }
  | decided {revision : ControlRecordRevision} :
      Finalizes resolve r event "director-decision" revision →
      a.family = .transaction → a.decision = none →
      Progress resolve r event a .directorDecisionAuthenticated
        (r.register "director-decision" (retainedReference revision)) { a with
          decision := some (retainedReference revision)
          decisionKind := some (expectedDecision a)
          recovery := recovery .finalization .transactionEffectIntended none }
  | transactionIntended {d : Sha256Digest} :
      a.family = .transaction → a.decision ≠ none → a.transactionEffectDigest = none →
      Progress resolve r event a .transactionEffectIntended r { a with
        transactionEffectDigest := some d
        stage := .effectIntended
        recovery := recovery .transaction .transactionEffectObserved (some d) }
  | transactionObserved {d : Sha256Digest} {outcome : TransactionOutcome} :
      a.family = .transaction → a.decision ≠ none → a.transactionEffectDigest = some d →
      a.transactionOutcome = none → a.decisionKind ≠ none →
      ¬ (outcome = .applied ∧ a.operation = .admitBoundary) →
      Progress resolve r event a .transactionEffectObserved r
        (observedTransaction a outcome d)

/-- An exact subject is the retained one. -/
theorem ne_none_of_assertExactActivitySubject {expected : Option SubjectReference} {u : Unit}
    (h : assertExactActivitySubject event expected = .ok u) : expected ≠ none := by
  rintro rfl
  simp [assertExactActivitySubject, orFail, bind, Except.bind] at h

section Progress

variable {a : ReplayActivity}

/-- What a step of a kind that only moves its activity comes to. -/
def ProgressStep (resolve : DeliveryRecordRevisionResolver) (r : Replay)
    (event : ControlRecordEvent) (k : DeliveryEventKind) (next : Replay) : Prop :=
  ∃ a r₁ b, activityFor r event.payload = .ok a ∧ Progress resolve r event a k r₁ b
    ∧ next = r₁.setActivity b

theorem exactPayload_eq_ok {names : List String} {payload : JsonObject} :
    exactPayload event names = .ok payload ↔
      sortKeys (keys event.payload) = sortKeys names ∧ payload = event.payload := by
  simp only [exactPayload, bind_eq_ok, failIf_eq_ok, exists_unit, pure_eq_ok, not_not]
  exact and_congr_right fun _ => eq_comm

theorem stringField_eq_ok {payload : JsonObject} {name s : String} :
    stringField payload name = .ok s ↔ member name payload = some (.string s) := by
  simp only [stringField, field, bind_eq_ok, orFail_eq_ok, asString_eq_some]
  constructor
  · rintro ⟨v, hv, hs⟩
    rw [hv, hs]
  · intro h
    exact ⟨_, h, rfl⟩

theorem enumField_eq_ok {α : Type} {payload : JsonObject} {name : String}
    {values : List (String × α)} {v : α} :
    enumField payload name values = .ok v ↔
      ∃ s, member name payload = some (.string s) ∧ values.lookup s = some v := by
  simp only [enumField, bind_eq_ok, orFail_eq_ok, stringField_eq_ok]

theorem identifierField_eq_ok {payload : JsonObject} {name s : String} :
    identifierField payload name = .ok s ↔
      member name payload = some (.string s) ∧ isIdentifier s = true := by
  simp only [identifierField, bind_eq_ok, stringField_eq_ok, failIf_eq_ok, exists_unit,
    pure_eq_ok, Bool.not_eq_false]
  constructor
  · rintro ⟨_, hs, hid, rfl⟩
    exact ⟨hs, hid⟩
  · rintro ⟨hs, hid⟩
    exact ⟨s, hs, hid, rfl⟩

theorem digestField_eq_ok {payload : JsonObject} {name s : String} :
    digestField payload name = .ok s ↔
      member name payload = some (.string s) ∧ isSha256 s = true := by
  simp only [digestField, bind_eq_ok, stringField_eq_ok, failIf_eq_ok, exists_unit,
    pure_eq_ok, Bool.not_eq_false]
  constructor
  · rintro ⟨_, hs, hid, rfl⟩
    exact ⟨hs, hid⟩
  · rintro ⟨hs, hid⟩
    exact ⟨s, hs, hid, rfl⟩

theorem refusalResolutions_lookup {s : String}
    (h : refusalResolutions.lookup s = some .projectionConditionRequired) :
    s = "projection-condition-required" := by
  simp only [refusalResolutions, List.lookup_cons, List.lookup_nil] at h
  split at h <;> simp_all
  split at h <;> simp_all

theorem refuseAgentBeforeIntent_step (h : refuseAgentBeforeIntent r event = .ok next) :
    ProgressStep resolve r event .agentPreIntentRefused next := by
  simp only [refuseAgentBeforeIntent, assertAgentActivity, bind_eq_ok, exactPayload_eq_ok,
    failIf_eq_ok, pure_eq_ok, exists_unit, identifierField_eq_ok, digestField_eq_ok,
    enumField_eq_ok] at h
  obtain ⟨_, ⟨-, rfl⟩, a, ha, hfamily, hready, code, ⟨hcode, -⟩, d, ⟨hd, hsha⟩, resolution,
    ⟨s, hs, hlookup⟩, hresolution, rfl⟩ := h
  push Not at hfamily hready hresolution
  obtain ⟨-, h₁, h₂, h₃, h₄, h₅, h₆, h₇, h₈⟩ := hready
  refine ⟨a, r, _, ha, .refused hfamily h₁ h₂ h₃ h₄ h₅ (by simpa using h₆) h₇ h₈ ?_, rfl⟩
  split
  · rename_i hres
    obtain ⟨hop, rfl⟩ := hresolution hres
    refine .inl ⟨rfl, ?_, ?_, ?_, d, hsha, ?_⟩
    · by_contra hne
      push Not at hne
      exact hne.2 (hop hne.1)
    · rw [hres] at hlookup
      rw [hs, refusalResolutions_lookup hlookup]
      rfl
    · rw [hcode]
      rfl
    · rw [hd]
      rfl
  · exact .inr rfl

theorem prepareAttempt_step (h : prepareAttempt resolve r event = .ok next) :
    ProgressStep resolve r event .agentAttemptPrepared next := by
  simp only [prepareAttempt, assertAgentActivity, bind_eq_ok, exactPayload_eq_ok,
    failIf_eq_ok, pure_eq_ok, exists_unit, exists_registered] at h
  obtain ⟨_, ⟨-, rfl⟩, a, ha, hfamily, hrefusal, hfresh, -, revision, hfin, -, -,
    -, -, -, _, -, _, -, _, -, hsubjects, rfl⟩ := h
  push Not at hfamily hfresh
  refine ⟨a, _, _, ha, .prepared hfin hfamily (by simpa using hrefusal) hfresh.1 hfresh.2 ?_,
    rfl⟩
  intro hop
  have hprepare : a.operation ≠ .prepare := by simp [hop]
  simp only [assertAttemptSubjects, if_neg hprepare, if_pos hop, bind_eq_ok, exists_unit,
    assertReviewerAttempt, failIf_eq_ok] at hsubjects
  obtain ⟨-, -, required, hrequired, hready, -⟩ := hsubjects
  push Not at hready
  exact ⟨hready.1, hready.2.1, hready.2.2.1, required, hrequired, hready.2.2.2⟩

theorem intendProviderEffect_step (h : intendProviderEffect r event = .ok next) :
    ProgressStep resolve r event .providerEffectIntended next := by
  simp only [intendProviderEffect, assertAgentActivity, bind_eq_ok, exactPayload_eq_ok,
    failIf_eq_ok, pure_eq_ok, exists_unit] at h
  obtain ⟨_, ⟨-, rfl⟩, a, ha, hfamily, -, hready, d, -, rfl⟩ := h
  push Not at hfamily hready
  exact ⟨a, r, _, ha, .providerIntended hfamily hready.1 hready.2, rfl⟩

theorem observeProviderEffect_step (h : observeProviderEffect r event = .ok next) :
    ProgressStep resolve r event .providerEffectObserved next := by
  simp only [observeProviderEffect, assertAgentActivity, bind_eq_ok, exactPayload_eq_ok,
    failIf_eq_ok, pure_eq_ok, exists_unit] at h
  obtain ⟨_, ⟨-, rfl⟩, a, ha, hfamily, hsubject, d, -, hdigest,
    houtcome, outcome, -,
    rfl⟩ := h
  push Not at hfamily hdigest houtcome
  exact ⟨a, r, _, ha, .providerObserved hfamily
    (ne_none_of_assertExactActivitySubject hsubject) hdigest houtcome, rfl⟩

/-- An open work product is neither submitted nor abandoned. -/
theorem assertWorkProductOpen_eq_ok {u : Unit} :
    assertWorkProductOpen a = .ok u ↔ a.workProduct = none ∧ a.workProductAbandoned = false := by
  simp [assertWorkProductOpen]

theorem submitWorkProduct_step (h : submitWorkProduct resolve r event = .ok next) :
    ProgressStep resolve r event .agentWorkProductSubmitted next := by
  simp only [submitWorkProduct, assertAgentActivity, bind_eq_ok, exactPayload_eq_ok,
    failIf_eq_ok, pure_eq_ok, exists_unit, exists_registered,
    assertWorkProductOpen_eq_ok] at h
  obtain ⟨_, ⟨-, rfl⟩, a, ha, hfamily, houtcome, ⟨hw, hx⟩, -, revision, hfin,
    rfl⟩ := h
  push Not at hfamily houtcome
  exact ⟨a, _, _, ha, .submitted hfin hfamily houtcome hw hx, rfl⟩

theorem abandonWorkProduct_step (h : abandonWorkProduct r event = .ok next) :
    ProgressStep resolve r event .agentWorkProductAbandoned next := by
  simp only [abandonWorkProduct, assertAgentActivity, bind_eq_ok, exactPayload_eq_ok,
    failIf_eq_ok, pure_eq_ok, exists_unit, assertWorkProductOpen_eq_ok] at h
  obtain ⟨_, ⟨-, rfl⟩, a, ha, hfamily, hsubject, houtcome, ⟨hw, hx⟩, rfl⟩ := h
  push Not at hfamily
  exact ⟨a, r, _, ha, .abandoned hfamily (ne_none_of_assertExactActivitySubject hsubject)
    houtcome hw hx, rfl⟩

theorem recordReceipt_step (h : recordReceipt resolve r event = .ok next) :
    ProgressStep resolve r event .executionReceiptRecorded next := by
  simp only [recordReceipt, assertAgentActivity, bind_eq_ok, exactPayload_eq_ok,
    failIf_eq_ok, pure_eq_ok, exists_unit, exists_registered,
    assertCoreAgentTerminal_eq_ok] at h
  obtain ⟨_, ⟨-, rfl⟩, a, ha, hfamily, hterminal, hreceipt, -, revision, hfin,
    rfl⟩ := h
  push Not at hfamily hreceipt
  exact ⟨a, _, _, ha, .receipted hfin hfamily hterminal hreceipt, rfl⟩

theorem finalizeBoundary_step (h : finalizeBoundary resolve r event = .ok next) :
    ProgressStep resolve r event .workBoundaryFinalized next := by
  simp only [finalizeBoundary, assertAgentActivity, bind_eq_ok, exactPayload_eq_ok,
    failIf_eq_ok, pure_eq_ok, exists_unit, exists_registered,
    assertCoreAgentTerminal_eq_ok] at h
  obtain ⟨_, ⟨-, rfl⟩, a, ha, hfamily, hterminal, hwork, hreceipt, hboundary, hop,
    -, revision, hfin, -, -, -, -, -, -, -, _, -, _, -, hproposal, rfl⟩ := h
  push Not at hfamily hboundary
  refine ⟨a, _, _, ha, .bounded hfin hfamily hterminal hwork hreceipt hboundary ?_ ?_, rfl⟩
  · simp only [preparesBoundary, decide_eq_true_eq]
    by_contra hne
    push Not at hne
    exact hop hne
  · unfold ProposesBoundary
    simp only [assertBoundaryProposal] at hproposal
    by_cases hprepare : a.operation = .prepare
    · rw [if_pos hprepare] at hproposal ⊢
      simp only [bind_eq_ok, failIf_eq_ok, exists_unit, not_not] at hproposal
      exact hproposal.1
    · rw [if_neg hprepare] at hproposal ⊢
      simp only [bind_eq_ok, failIf_eq_ok, orFail_eq_ok, exists_unit] at hproposal
      obtain ⟨active, hactive, hadvances, hcondition, -⟩ := hproposal
      push Not at hadvances
      exact ⟨active, hactive, hadvances.1, hadvances.2, hcondition⟩

theorem recordCheckReceipt_step (h : recordCheckReceipt resolve r event = .ok next) :
    ProgressStep resolve r event .checkReceiptRecorded next := by
  simp only [recordCheckReceipt, assertAgentActivity, bind_eq_ok, exactPayload_eq_ok,
    failIf_eq_ok, pure_eq_ok, exists_unit, exists_registered] at h
  obtain ⟨_, ⟨-, rfl⟩, a, ha, hfamily, -, revision, hfin, -, boundary, hboundary, sealed, hseal,
    phase, -, selectionId, -, modality, -, hcheck, disposition, -, required, hrequired, rfl⟩ := h
  push Not at hfamily
  let check : CheckFact := ⟨retainedReference revision, selectionId, phase, modality, disposition⟩
  have hsplit : selectionId ∈ required ∧ selectionId ∉ receivedSelections phase a
      ∧ (a.operation = .evaluate ∧ phase = .final ∧ a.candidateSeal ≠ none ∧ a.attempt = none
          ∧ optionalRelationship revision "checks-seal" "candidate-seal" = .ok a.candidateSeal
        ∨ preparesBoundary a.operation = true ∧ phase = .baseline ∧ a.boundary ≠ none) := by
    by_cases hop : a.operation = .evaluate
    · simp only [assertCheckReceipt, if_pos hop, assertFinalReceipt, bind_eq_ok, failIf_eq_ok,
        exists_unit, assertReference_eq_ok, not_not] at hcheck
      obtain ⟨hphase, -, ⟨hne, hsealed⟩, hattempt, required', hrequired', hmem, hnew⟩ := hcheck
      rw [requiredSelections, if_pos hop, hrequired', Except.ok.injEq] at hrequired
      subst hrequired
      refine ⟨hmem, by rwa [hphase], .inl ⟨hop, hphase, hsealed ▸ hne, hattempt, ?_⟩⟩
      rw [hseal, hsealed]
    · simp only [assertCheckReceipt, if_neg hop, assertBaselineReceipt, bind_eq_ok,
        failIf_eq_ok, exists_unit, assertReference_eq_ok, not_not] at hcheck
      obtain ⟨hprepares, hphase, -, ⟨hne, hbound⟩, required', hrequired', hmem, hnew⟩ := hcheck
      rw [requiredSelections, if_neg hop, hrequired', Except.ok.injEq] at hrequired
      subst hrequired
      refine ⟨hmem, by rwa [hphase], .inr ⟨?_, hphase, hbound ▸ hne⟩⟩
      simp only [preparesBoundary, decide_eq_true_eq]
      by_contra hno
      push Not at hno
      exact hprepares hno
  have hchecked := Progress.checked hfin hfamily (show check.reference = _ from rfl) hrequired
    hsplit.1 hsplit.2.1 hsplit.2.2
  exact ⟨a, _, _, ha, hchecked, rfl⟩

theorem authenticateDecision_step (h : authenticateDecision resolve r event = .ok next) :
    ProgressStep resolve r event .directorDecisionAuthenticated next := by
  simp only [authenticateDecision, assertTransactionActivity, bind_eq_ok, exactPayload_eq_ok,
    failIf_eq_ok, pure_eq_ok, exists_unit, exists_registered, not_not] at h
  obtain ⟨_, ⟨-, rfl⟩, a, ha, hfamily, hdecision, -, revision, hfin, decision, -, rfl,
    selections, -, -, rfl⟩ := h
  exact ⟨a, _, _, ha, .decided hfin hfamily hdecision, rfl⟩

theorem intendTransactionEffect_step (h : intendTransactionEffect r event = .ok next) :
    ProgressStep resolve r event .transactionEffectIntended next := by
  simp only [intendTransactionEffect, assertTransactionActivity, bind_eq_ok,
    exactPayload_eq_ok, failIf_eq_ok, pure_eq_ok, exists_unit, not_not] at h
  obtain ⟨_, ⟨-, rfl⟩, a, ha, hfamily, -, hready, d, -, rfl⟩ := h
  push Not at hready
  exact ⟨a, r, _, ha, .transactionIntended hfamily hready.1 hready.2, rfl⟩

end Progress

/-! ## Steps -/

/-- What freezing a condition requires, by its source. -/
inductive FreezesCondition (resolve : DeliveryRecordRevisionResolver) (r : Replay)
    (a : ReplayActivity) : ConditionSource → Prop
  | integration {selected : SubjectReference} :
      a.operation = .integrate → a.family = .integration → a.candidate ≠ none →
      a.integrationAssessment = some selected → a.materialCondition = none →
      a.resumesAt = some .activityFinalization → r.subjects.activeBoundary ≠ none →
      FreezesCondition resolve r a .integrationAssessment
  | projection :
      awaitsProjectionCondition a = true → a.preIntentRefusal.isSome = true →
      r.subjects.activeBoundary ≠ none → r.subjects.candidate ≠ none →
      FreezesCondition resolve r a .projectionCompilation
  | proposed :
      a.family = .agent → CoreAgentTerminal a →
      (a.operation = .continue ∨ a.operation = .evaluate) → a.workProduct ≠ none →
      a.receipt ≠ none → a.materialCondition = none →
      r.subjects.activeBoundary ≠ none → r.subjects.candidate ≠ none →
      FreezesCondition resolve r a .agentProposal

/-- The activity an opening adds. -/
def openedActivity (r : Replay) (activityId : String) (operation : DeliveryOperation)
    (family : DeliveryActivityFamily) (brief : Option SubjectReference)
    (reservation : Option WorkDelegationReservation) : ReplayActivity where
  id := activityId
  operation := operation
  family := family
  originStanding := currentStanding r
  stage := .started
  recovery := startedRecovery operation family
  brief := brief
  reservation := reservation

/-- Which candidate an activity observes, by its operation. -/
def ObservesCandidate (resolve : DeliveryRecordRevisionResolver) (r : Replay)
    (a : ReplayActivity) (c : ObservedCandidate) : Prop :=
  assertObservedCandidate resolve r a c = .ok ()

/-- **What an accepted event of a kind does.** -/
inductive DeliveryStep (resolve : DeliveryRecordRevisionResolver) (r : Replay)
    (event : ControlRecordEvent) : DeliveryEventKind → Replay → Prop
  /-- An event that moves no activity, a brief or a delegation finalized or
  not. -/
  | quiet {k : DeliveryEventKind} {r₁ next : Replay} :
      k ∈ [DeliveryEventKind.deliveryCreated, .directorBriefSubmitted, .workDelegationSet,
        .workDelegationStopped, .activityRecoveryRecorded] →
      (r₁ = r ∨ ∃ kind revision, kind ∈ ["director-brief", "work-delegation"]
        ∧ Finalizes resolve r event kind revision
        ∧ r₁ = r.register kind (retainedReference revision)) →
      SameFacts r₁ next → SameEnvelope r next →
      (k = .deliveryCreated → next.created = true) → DeliveryStep resolve r event k next
  | started {activityId : String} {operation : DeliveryOperation}
      {family : DeliveryActivityFamily} {brief : Option SubjectReference}
      {reservation : Option WorkDelegationReservation} {next : Replay} :
      r.activities.get activityId = none → operation ∈ eligibleOperations r →
      operation ≠ .recover → familyOf operation.descriptor.activity = some family →
      SameFacts (r.setActivity (openedActivity r activityId operation family brief reservation))
        next →
      SameEnvelope r next →
      DeliveryStep resolve r event .activityStarted next
  | progress {k : DeliveryEventKind} {a b : ReplayActivity} {r₁ : Replay} :
      activityFor r event.payload = .ok a → Progress resolve r event a k r₁ b →
      DeliveryStep resolve r event k (r₁.setActivity b)
  | assessed {a : ReplayActivity} {revision : ControlRecordRevision}
      {assessment : IntegrationAssessment} :
      activityFor r event.payload = .ok a →
      Finalizes resolve r event "integration-assessment" revision →
      a.operation = .integrate → a.family = .integration → a.stage = .started →
      a.integrationAssessment = none → a.resumesAt = some .integrationAssessed →
      parseIntegrationAssessmentPayload revision.payload = .ok assessment →
      DeliveryStep resolve r event .integrationAssessed
        { (r.register "integration-assessment" (retainedReference revision)).setActivity { a with
            integrationAssessment := some (retainedReference revision)
            stage := .finalizing
            recovery :=
              if assessment.outcome = .constructed then
                recovery .candidateObservation .candidateRevisionObserved none
              else recovery .finalization .activityCompleted none } with
          subjects := { r.subjects with
            integrationAssessment := some (retainedReference revision) } }
  | observed {a : ReplayActivity} {c : ObservedCandidate}
      {owed : Option DeliveryRecoveryObligation} :
      activityFor r event.payload = .ok a →
      Finalizes resolve r event "candidate-revision" c.revision →
      a.receipt = none → a.candidate = none → ObservesCandidate resolve r a c →
      observedCandidateRecovery resolve r a = .ok owed →
      DeliveryStep resolve r event .candidateRevisionObserved
        { (r.register "candidate-revision" (retainedReference c.revision)).setActivity { a with
            candidate := some (retainedReference c.revision)
            stage := .finalizing
            recovery := owed } with
          candidateIntegrated := integratedAfter (c.text "observation") r.candidateIntegrated
          subjects := { r.subjects with
            candidate := some (retainedReference c.revision)
            candidateSeal := none
            evidence := none }
          evidenceReadiness := none }
  | frozen {a : ReplayActivity} {revision : ControlRecordRevision} {source : ConditionSource} :
      activityFor r event.payload = .ok a →
      Finalizes resolve r event "material-condition" revision →
      r.subjects.materialCondition = none → FreezesCondition resolve r a source →
      DeliveryStep resolve r event .materialConditionFrozen
        { (r.register "material-condition" (retainedReference revision)).setActivity { a with
            materialCondition := some (retainedReference revision)
            stage := .finalizing
            recovery := recovery .finalization (frozenStep source a.operation) none } with
          subjects := { r.subjects with
            materialCondition := some (retainedReference revision) } }
  | sealed {a : ReplayActivity} {revision : ControlRecordRevision} :
      activityFor r event.payload = .ok a →
      Finalizes resolve r event "candidate-seal" revision →
      a.operation = .evaluate → a.candidateSeal = none → a.stage = .started →
      a.attempt = none → a.checks = [] → a.resumesAt = some .candidateSealed →
      r.subjects.candidate ≠ none → r.subjects.activeBoundary ≠ none →
      requiredRelationship revision "seals" "candidate-revision" = .ok r.subjects.candidate →
      requiredRelationship revision "governed-by" "work-boundary"
        = .ok r.subjects.activeBoundary →
      DeliveryStep resolve r event .candidateSealed
        { (r.register "candidate-seal" (retainedReference revision)).setActivity { a with
            candidateSeal := some (retainedReference revision)
            stage := .finalizing
            recovery := recovery .finalization .evaluationChecks none } with
          subjects := { r.subjects with
            candidateSeal := some (retainedReference revision)
            evidence := none }
          evidenceReadiness := none }
  | evidenced {a : ReplayActivity} {revision : ControlRecordRevision}
      {readiness : EvidenceReadiness} :
      activityFor r event.payload = .ok a →
      Finalizes resolve r event "evidence-packet" revision →
      a.operation = .evaluate → CoreAgentTerminal a → a.workProduct ≠ none →
      a.receipt ≠ none → a.candidateSeal ≠ none → a.checks ≠ [] → a.evidence = none →
      assertEvidenceSubjects r a revision = .ok () →
      recordEnumField revision "readiness" evidenceReadinesses = .ok readiness →
      (readiness = .acceptanceReady →
        ∀ check ∈ evidenceChecks r a, legalReceipt check = true) →
      DeliveryStep resolve r event .evidencePacketFinalized
        { (r.register "evidence-packet" (retainedReference revision)).setActivity { a with
            evidence := some (retainedReference revision)
            evidenceReadiness := some readiness
            stage := .finalizing
            recovery := recovery .finalization .activityCompleted none } with
          subjects := { r.subjects with evidence := some (retainedReference revision) }
          evidenceReadiness := some readiness }
  | activated {a : ReplayActivity} {d : Sha256Digest} :
      activityFor r event.payload = .ok a → a.family = .transaction →
      a.operation = .admitBoundary → a.decision ≠ none →
      a.transactionEffectDigest = some d → a.transactionOutcome = none →
      a.decisionKind ≠ none → r.subjects.proposedBoundary ≠ none →
      (a.decisionKind = some .readmission → r.subjects.candidate ≠ none) →
      DeliveryStep resolve r event .transactionEffectObserved
        { r.setActivity (observedTransaction a .applied d) with
          subjects := { r.subjects with
            activeBoundary := r.subjects.proposedBoundary
            proposedBoundary := none
            materialCondition := none
            candidateSeal := none
            evidence := none }
          activeAdmission := a.decision
          evidenceReadiness := none }
  | completed {a : ReplayActivity} {outcome : CompletionOutcome} {direct : Bool} :
      activityFor r event.payload = .ok a →
      directContinueFinalization resolve r a = .ok direct →
      (deterministicBoundaryRefusal a outcome = true ∨ direct = true
        ∨ owesCompletion a = true) →
      assertCompletion resolve r a outcome = .ok () →
      DeliveryStep resolve r event .activityCompleted
        { r.setActivity { a with
            completionOutcome := some outcome
            stage := .completed
            recovery := none } with
          subjects := { r.subjects with
            proposedBoundary := proposedAfter a outcome r.subjects.proposedBoundary } }
  | closed {a : ReplayActivity} {revision : ControlRecordRevision}
      {treatment : CandidateTreatment} :
      activityFor r event.payload = .ok a → Finalizes resolve r event "closure" revision →
      a.family = .transaction → (a.operation = .accept ∨ a.operation = .noShip) →
      a.transactionOutcome = some .applied → r.subjects.closure = none →
      assertClosureSubjects r a revision (expectedDisposition a.operation) treatment
        = .ok () →
      DeliveryStep resolve r event .closureRecorded
        { (r.register "closure" (retainedReference revision)).setActivity { a with
            closure := some (retainedReference revision)
            completionOutcome := some .completed
            stage := .completed
            recovery := none } with
          subjects := { r.subjects with closure := some (retainedReference revision) }
          closureDisposition := some (expectedDisposition a.operation) }

theorem ProgressStep.step {k : DeliveryEventKind} (h : ProgressStep resolve r event k next) :
    DeliveryStep resolve r event k next := by
  obtain ⟨a, r₁, b, ha, hprogress, rfl⟩ := h
  exact .progress ha hprogress

theorem createDelivery_step (h : createDelivery r event = .ok next) :
    DeliveryStep resolve r event .deliveryCreated next := by
  simp only [createDelivery, bind_eq_ok, exactPayload_eq_ok, failIf_eq_ok, pure_eq_ok,
    exists_unit] at h
  obtain ⟨_, ⟨-, rfl⟩, -, rfl⟩ := h
  exact .quiet (by simp) (.inl rfl) ⟨rfl, rfl, rfl, rfl, rfl, rfl, rfl, rfl⟩
    ⟨rfl, rfl, rfl, rfl, rfl, fun _ => rfl⟩ fun _ => rfl

theorem submitDirectorBrief_step (h : submitDirectorBrief resolve r event = .ok next) :
    DeliveryStep resolve r event .directorBriefSubmitted next := by
  unfold submitDirectorBrief at h
  split at h
  · simp only [submitStandingBrief, bind_eq_ok, exactPayload_eq_ok, failIf_eq_ok, pure_eq_ok,
      exists_unit, exists_registered] at h
    obtain ⟨_, ⟨-, rfl⟩, -, revision, hfin, -, _, -, _, -, _, -, -, key, -, -, rfl⟩ := h
    exact .quiet (by simp) (.inr ⟨_, revision, by simp, hfin, rfl⟩)
      ⟨rfl, rfl, rfl, rfl, rfl, rfl, rfl, rfl⟩ ⟨rfl, rfl, rfl, rfl, rfl, id⟩ (by simp)
  · simp only [submitActivityBrief, bind_eq_ok, exactPayload_eq_ok, failIf_eq_ok, pure_eq_ok,
      exists_unit, exists_registered] at h
    obtain ⟨_, ⟨-, rfl⟩, activityId, -, -, -, -, revision, hfin, -, _, -, _, -, _, -, -, rfl⟩ := h
    exact .quiet (by simp) (.inr ⟨_, revision, by simp, hfin, rfl⟩)
      ⟨rfl, rfl, rfl, rfl, rfl, rfl, rfl, rfl⟩ ⟨rfl, rfl, rfl, rfl, rfl, id⟩ (by simp)

/-- Taking up a standing direction changes neither. -/
theorem useStandingDirection_same {revision : ControlRecordRevision}
    {directions : List ControlRecordRelationship} {operation : String}
    {selected : Option WorkDelegationReference}
    (h : useStandingDirection resolve revision directions operation selected r = .ok next) :
    SameFacts r next ∧ SameEnvelope r next := by
  cases selected with
  | none =>
    simp only [useStandingDirection, Except.ok.injEq] at h
    exact h ▸ ⟨.rfl, .rfl⟩
  | some selected =>
    simp only [useStandingDirection, bind_eq_ok, pure_eq_ok] at h
    obtain ⟨_, -, -, -, _, -, -, -, rfl⟩ := h
    exact ⟨⟨rfl, rfl, rfl, rfl, rfl, rfl, rfl, rfl⟩, ⟨rfl, rfl, rfl, rfl, rfl, id⟩⟩

theorem setWorkDelegation_step (h : setWorkDelegation resolve r event = .ok next) :
    DeliveryStep resolve r event .workDelegationSet next := by
  simp only [setWorkDelegation, bind_eq_ok, exactPayload_eq_ok, failIf_eq_ok, pure_eq_ok,
    exists_unit, exists_registered] at h
  obtain ⟨_, ⟨-, rfl⟩, -, -, revision, hfin, grant, -, -, -, -, _, -, -, _, -, -, _, -, -, _, -,
    -, -, -, -, continued, hcontinued, evaluated, hevaluated, rfl⟩ := h
  obtain ⟨hfacts, henvelope⟩ := useStandingDirection_same hcontinued
  obtain ⟨hfacts', henvelope'⟩ := useStandingDirection_same hevaluated
  refine .quiet (by simp) (.inr ⟨_, revision, by simp, hfin, rfl⟩)
    (hfacts.trans (hfacts'.trans ⟨rfl, rfl, rfl, rfl, rfl, rfl, rfl, rfl⟩)) ?_ (by simp)
  have hregistered : SameEnvelope r (r.register "work-delegation" (retainedReference revision)) :=
    ⟨rfl, rfl, rfl, rfl, rfl, id⟩
  exact hregistered.trans (henvelope.trans (henvelope'.trans ⟨rfl, rfl, rfl, rfl, rfl, id⟩))

theorem stopWorkDelegation_step (h : stopWorkDelegation resolve r event = .ok next) :
    DeliveryStep resolve r event .workDelegationStopped next := by
  simp only [stopWorkDelegation, bind_eq_ok, exactPayload_eq_ok, failIf_eq_ok, pure_eq_ok,
    exists_unit] at h
  obtain ⟨_, ⟨-, rfl⟩, grant, -, -, _, -, -, _, -, _, -, _, -, -, _, -, -, rfl⟩ := h
  exact .quiet (by simp) (.inl rfl) ⟨rfl, rfl, rfl, rfl, rfl, rfl, rfl, rfl⟩
    ⟨rfl, rfl, rfl, rfl, rfl, id⟩ (by simp)

theorem recordRecovery_eq (h : recordRecovery r event = .ok next) : next = r := by
  simp only [recordRecovery, bind_eq_ok, pure_eq_ok] at h
  obtain ⟨_, -, _, -, _, -, _, -, _, -, _, -, _, -, _, -, rfl⟩ := h
  rfl

theorem recordRecovery_step (h : recordRecovery r event = .ok next) :
    DeliveryStep resolve r event .activityRecoveryRecorded next := by
  obtain rfl := recordRecovery_eq h
  exact .quiet (by simp) (.inl rfl) .rfl .rfl (by simp)

theorem deliveryOperationDescriptor_eq_ok {text : String} {d : DeliveryOperationDescriptor}
    (h : deliveryOperationDescriptor text = .ok d) : d = d.operation.descriptor := by
  unfold deliveryOperationDescriptor at h
  split at h
  · rw [Except.ok.injEq] at h
    subst h
    rw [DeliveryOperation.descriptor_operation]
  · exact absurd h (by simp)

theorem startActivity_step (h : startActivity resolve r event = .ok next) :
    DeliveryStep resolve r event .activityStarted next := by
  simp only [startActivity, bind_eq_ok, exactPayload_eq_ok, failIf_eq_ok, pure_eq_ok,
    orFail_eq_ok, exists_unit] at h
  obtain ⟨_, ⟨-, rfl⟩, activityId, -, hnew, _, -, d, hd, hrecover, reservation, -, brief, -, -, -,
    heligible, family, hfamily, _, -, rfl⟩ := h
  rw [deliveryOperationDescriptor_eq_ok hd] at hfamily
  have hfresh : r.activities.get activityId = none := by simpa [OrderedMap.has] using hnew
  exact @DeliveryStep.started _ _ _ activityId d.operation family brief reservation _ hfresh
    (not_not.mp heligible) hrecover hfamily ⟨rfl, rfl, rfl, rfl, rfl, rfl, rfl, rfl⟩
    ⟨rfl, rfl, rfl, rfl, rfl, id⟩

theorem assessIntegration_step (h : assessIntegration resolve r event = .ok next) :
    DeliveryStep resolve r event .integrationAssessed next := by
  simp only [assessIntegration, bind_eq_ok, exactPayload_eq_ok, failIf_eq_ok, pure_eq_ok,
    exists_unit, exists_registered] at h
  obtain ⟨_, ⟨-, rfl⟩, a, ha, hready, -, revision, hfin, -, _, -, -, _, -, -, assessment, hparse,
    rfl⟩ := h
  push Not at hready
  obtain ⟨h₁, h₂, h₃, h₄, h₅⟩ := hready
  exact .assessed ha hfin h₁ h₂ h₃ h₄ h₅ hparse

theorem observeCandidateRevision_step
    (h : observeCandidateRevision resolve r event = .ok next) :
    DeliveryStep resolve r event .candidateRevisionObserved next := by
  simp only [observeCandidateRevision, bind_eq_ok, exactPayload_eq_ok, failIf_eq_ok,
    pure_eq_ok, exists_unit, exists_registered, not_not] at h
  obtain ⟨_, ⟨-, rfl⟩, a, ha, hreceipt, -, revision, hfin, -, -, governedBy, -, revises, -,
    resultOf, -, hcandidate, integratedFrom, -, -, hobserves, owed, howed, rfl⟩ := h
  exact .observed (c := ⟨revision, governedBy, revises, resultOf, integratedFrom⟩) ha hfin
    hreceipt hcandidate hobserves howed

theorem freezeMaterialCondition_step
    (h : freezeMaterialCondition resolve r event = .ok next) :
    DeliveryStep resolve r event .materialConditionFrozen next := by
  simp only [freezeMaterialCondition, bind_eq_ok, exactPayload_eq_ok, failIf_eq_ok,
    pure_eq_ok, exists_unit, exists_registered, not_not] at h
  obtain ⟨_, ⟨-, rfl⟩, source, -, digest, -, -, revision, hfin, -, object, -, -, hcondition, id, -,
    a, ha, hassert, rfl⟩ := h
  refine .frozen ha hfin hcondition ?_
  cases source with
  | integrationAssessment =>
    simp only [assertCondition, assertIntegrationCondition, bind_eq_ok, failIf_eq_ok,
      orFail_eq_ok, exists_unit, assertReference_eq_ok] at hassert
    obtain ⟨hready, selected, hselected, _, -, _, -, -, -, _, -, -, _, -, -, governedBy, -, hne,
      hactive⟩ := hassert
    push Not at hready
    obtain ⟨h₁, h₂, h₃, h₄, h₅⟩ := hready
    exact .integration h₁ h₂ h₃ hselected h₄ h₅ (hactive ▸ hne)
  | projectionCompilation =>
    simp only [assertCondition, assertProjectionCondition, bind_eq_ok, failIf_eq_ok,
      orFail_eq_ok, exists_unit] at hassert
    obtain ⟨refusal, hrefusal, hready, boundary, hboundary, candidate, hcandidate, -⟩ := hassert
    push Not at hready
    exact .projection (by simpa using hready.1) (by simp [hrefusal]) (by simp [hboundary])
      (by simp [hcandidate])
  | agentProposal =>
    simp only [assertCondition, assertProposedCondition, assertAgentActivity, bind_eq_ok,
      failIf_eq_ok, exists_unit, assertCoreAgentTerminal_eq_ok, not_not] at hassert
    obtain ⟨hfamily, hterminal, hop, hready, hnone, -⟩ := hassert
    push Not at hready
    refine .proposed hfamily hterminal ?_ hready.1 hready.2.1 hnone hready.2.2.2 hready.2.2.1
    by_contra hne
    push Not at hne
    exact hop hne

theorem sealCandidate_step (h : sealCandidate resolve r event = .ok next) :
    DeliveryStep resolve r event .candidateSealed next := by
  simp only [sealCandidate, bind_eq_ok, exactPayload_eq_ok, failIf_eq_ok, pure_eq_ok,
    exists_unit, exists_registered, not_not, assertReference_eq_ok] at h
  obtain ⟨_, ⟨-, rfl⟩, a, ha, hop, hnone, hready, -, revision, hfin, -, sealed, hseals,
    ⟨hsealed, hcandidate⟩, governedBy, hgoverned, ⟨hboundary, hactive⟩, rfl⟩ := h
  push Not at hready
  obtain ⟨h₁, h₂, h₃, -, h₄⟩ := hready
  exact .sealed ha hfin hop hnone h₁ h₂ h₃ h₄ (hcandidate ▸ hsealed) (hactive ▸ hboundary)
    (hcandidate ▸ hseals) (hactive ▸ hgoverned)

theorem finalizeEvidence_step (h : finalizeEvidence resolve r event = .ok next) :
    DeliveryStep resolve r event .evidencePacketFinalized next := by
  simp only [finalizeEvidence, bind_eq_ok, exactPayload_eq_ok, failIf_eq_ok, pure_eq_ok,
    exists_unit, exists_registered, not_not, assertCoreAgentTerminal_eq_ok] at h
  obtain ⟨_, ⟨-, rfl⟩, a, ha, hop, hterminal, hready, hchecks, hnone, -, revision, hfin,
    hsubjects, readiness, hreadiness, hlegal, -, rfl⟩ := h
  push Not at hready
  refine .evidenced ha hfin hop hterminal hready.1 hready.2.1 hready.2.2 hchecks hnone
    hsubjects hreadiness ?_
  intro hacceptance check hcheck
  by_contra hillegal
  exact hlegal ⟨hacceptance, check, hcheck, by simpa using hillegal⟩

theorem observeTransactionEffect_step
    (h : observeTransactionEffect r event = .ok next) :
    DeliveryStep resolve r event .transactionEffectObserved next := by
  simp only [observeTransactionEffect, assertTransactionActivity, bind_eq_ok,
    exactPayload_eq_ok, failIf_eq_ok, orFail_eq_ok, exists_unit, not_not] at h
  obtain ⟨_, ⟨-, rfl⟩, a, ha, hfamily, hsubject, d, -, hdigest, hnone, outcome, -, decision,
    hdecision, -, h⟩ := h
  have hne := ne_none_of_assertExactActivitySubject hsubject
  by_cases happlied : outcome = .applied ∧ a.operation = .admitBoundary
  · rw [if_pos happlied] at h
    simp only [activateBoundary, bind_eq_ok, failIf_eq_ok, exists_unit, pure_eq_ok] at h
    obtain ⟨hproposed, hcandidate, rfl⟩ := h
    obtain ⟨rfl, hop⟩ := happlied
    refine .activated ha hfamily hop hne hdigest hnone (by simp [hdecision]) hproposed ?_
    intro hreadmission hc
    exact hcandidate ⟨hreadmission, hc⟩
  · rw [if_neg happlied, pure_eq_ok] at h
    exact h ▸ .progress ha
      (.transactionObserved hfamily hne hdigest hnone (by simp [hdecision]) happlied)

theorem completeActivity_step (h : completeActivity resolve r event = .ok next) :
    DeliveryStep resolve r event .activityCompleted next := by
  simp only [completeActivity, bind_eq_ok, exactPayload_eq_ok, failIf_eq_ok, pure_eq_ok,
    exists_unit] at h
  obtain ⟨_, ⟨-, rfl⟩, a, ha, outcome, -, direct, hdirect, hready, hassert, rfl⟩ := h
  refine .completed ha hdirect ?_ hassert
  by_contra hne
  push Not at hne
  exact hready (by simpa using hne)

theorem recordClosure_step (h : recordClosure resolve r event = .ok next) :
    DeliveryStep resolve r event .closureRecorded next := by
  simp only [recordClosure, assertTransactionActivity, bind_eq_ok, exactPayload_eq_ok,
    failIf_eq_ok, pure_eq_ok, exists_unit, exists_registered, not_not] at h
  obtain ⟨_, ⟨-, rfl⟩, a, ha, hfamily, hop, happlied, hnone, -, revision, hfin, disposition, -,
    rfl, treatment, -, -, hsubjects, rfl⟩ := h
  push Not at hnone
  refine .closed ha hfin hfamily ?_ happlied hnone.1 hsubjects
  by_contra hne
  push Not at hne
  exact hop hne

/-- **Every accepted event is a step.** -/
theorem handle_step {k : DeliveryEventKind} (h : handle resolve r event k = .ok next) :
    DeliveryStep resolve r event k next := by
  cases k with
  | deliveryCreated => exact createDelivery_step h
  | directorBriefSubmitted => exact submitDirectorBrief_step h
  | workDelegationSet => exact setWorkDelegation_step h
  | workDelegationStopped => exact stopWorkDelegation_step h
  | activityStarted => exact startActivity_step h
  | activityRecoveryRecorded => exact recordRecovery_step h
  | agentPreIntentRefused => exact (refuseAgentBeforeIntent_step h).step
  | agentAttemptPrepared => exact (prepareAttempt_step h).step
  | providerEffectIntended => exact (intendProviderEffect_step h).step
  | providerEffectObserved => exact (observeProviderEffect_step h).step
  | agentWorkProductSubmitted => exact (submitWorkProduct_step h).step
  | agentWorkProductAbandoned => exact (abandonWorkProduct_step h).step
  | candidateRevisionObserved => exact observeCandidateRevision_step h
  | integrationAssessed => exact assessIntegration_step h
  | executionReceiptRecorded => exact (recordReceipt_step h).step
  | workBoundaryFinalized => exact (finalizeBoundary_step h).step
  | materialConditionFrozen => exact freezeMaterialCondition_step h
  | candidateSealed => exact sealCandidate_step h
  | checkReceiptRecorded => exact (recordCheckReceipt_step h).step
  | evidencePacketFinalized => exact finalizeEvidence_step h
  | directorDecisionAuthenticated => exact (authenticateDecision_step h).step
  | transactionEffectIntended => exact (intendTransactionEffect_step h).step
  | transactionEffectObserved => exact observeTransactionEffect_step h
  | activityCompleted => exact completeActivity_step h
  | closureRecorded => exact recordClosure_step h

/-- No step changes the envelope. -/
theorem DeliveryStep.sameEnvelope {k : DeliveryEventKind}
    (h : DeliveryStep resolve r event k next) : SameEnvelope r next := by
  cases h with
  | quiet _ _ _ henvelope => exact henvelope
  | started _ _ _ _ _ henvelope => exact henvelope
  | progress _ hprogress => cases hprogress <;> exact ⟨rfl, rfl, rfl, rfl, rfl, id⟩
  | _ => exact ⟨rfl, rfl, rfl, rfl, rfl, id⟩

/-! ## Steps of a journal -/

/-- **What an accepted event did**: a step between two replays with the
facts before and after it, in a delivery that was not closed. -/
theorem step_of_append (h : append resolve r event = .ok next) :
    ∃ verified applied k, SameFacts r verified
      ∧ DeliveryEvents.parseKind event.eventKind = some k
      ∧ verified.subjects.closure = none ∧ DeliveryStep resolve verified event k applied
      ∧ SameFacts applied next := by
  obtain ⟨verified, applied, k, hverified, hk, -, hclosure, happlied, rfl⟩ := append_eq_ok.mp h
  exact ⟨verified, applied, k, verifyEnvelope_sameFacts hverified, hk, hclosure,
    handle_step happlied, ⟨rfl, rfl, rfl, rfl, rfl, rfl, rfl, rfl⟩⟩

/-- **The invariant rule of the reducer**: what holds of the empty replay,
reads only facts and is kept by every step, holds of every replay. -/
theorem reachable_invariant {P : Replay → Prop} (hinitial : P freshReplay)
    (hsame : ∀ r r', SameFacts r r' → P r → P r')
    (hstep : ∀ r event k next, r.subjects.closure = none → P r →
      DeliveryStep resolve r event k next → P next)
    (h : (deliverySystem resolve).Reachable r) : P r := by
  refine h.invariant (fun s hs => hs ▸ hinitial) ?_
  intro s event t hs happend
  obtain ⟨verified, applied, k, hbefore, -, hclosure, hstep', hafter⟩ := step_of_append happend
  exact hsame _ _ hafter (hstep _ _ _ _ hclosure (hsame _ _ hbefore hs) hstep')
