import Lifecycle.DeliveryInvariants

/-!
# The lineage of the candidate

Every candidate of a delivery is observed by an event of its journal. The
first one is initialized by an admission; every later one, whoever builds,
integrates or rebinds it, names the exact one before it. The candidates of
a journal are therefore the revisions of one record, in order and without
a gap (`replay_lineage`), and no standing of one survives the next.
-/

open Fallible Json ControlModel DeliveryReducer

variable {resolve : DeliveryRecordRevisionResolver} {r next : Replay}
  {event : ControlRecordEvent} {a : ReplayActivity}

/-! ## Candidates of a journal -/

/-- The candidate an event observes, if it observes one. -/
def observedReference (event : ControlRecordEvent) : Option SubjectReference :=
  if DeliveryEvents.parseKind event.eventKind = some .candidateRevisionObserved then
    event.subject.map reference
  else none

/-- **The candidates of a journal**, in the order they were observed. -/
def candidateReferences (events : List ControlRecordEvent) : List SubjectReference :=
  events.filterMap observedReference

/-- What a candidate revision must keep of the one before it, by what it
says was observed. -/
structure KeepsPredecessor (resolve : DeliveryRecordRevisionResolver)
    (previous : SubjectReference) (revision : ControlRecordRevision) : Prop where
  /-- A rebind keeps the state, the carrier's manifest and the base. -/
  rebinds : asString (member "observation" revision.payload) = some "readmission-rebind" →
    ∃ before, resolve (subjectOf previous) = some before ∧ retainedReference before = previous
      ∧ sameMember "state" revision.payload before.payload = .ok true
      ∧ sameMember "carrierManifest" revision.payload before.payload = .ok true
      ∧ strictEq (member "candidateBaseCommit" revision.payload)
        (member "candidateBaseCommit" before.payload) = true
  /-- A builder's successor keeps the base. -/
  builds : asString (member "observation" revision.payload) = some "builder-successor" →
    ∃ before, resolve (subjectOf previous) = some before
      ∧ strictEq (member "candidateBaseCommit" revision.payload)
        (member "candidateBaseCommit" before.payload) = true

/-- **One candidate succeeds another**: the next revision of its record,
which revises exactly it and keeps of it what it must. -/
structure Succeeds (resolve : DeliveryRecordRevisionResolver)
    (previous candidate : SubjectReference) : Prop where
  id : candidate.id = previous.id
  revision : candidate.revision = previous.revision + 1
  revises : ∃ revision, resolve (subjectOf candidate) = some revision
    ∧ retainedReference revision = candidate
    ∧ optionalRelationship revision "revises" "candidate-revision" = .ok (some previous)
    ∧ KeepsPredecessor resolve previous revision

/-- **Nothing stands for the candidate before**: no seal, no evidence, no
readiness to decide, and no decision under way. -/
structure DropsStanding (r : Replay) : Prop where
  candidateSeal : r.subjects.candidateSeal = none
  evidence : r.subjects.evidence = none
  readiness : r.evidenceReadiness = none
  standing : currentStanding r ≠ .decisionReady
  decision : ∀ x, OpenIn r x → x.operation ≠ .accept ∧ x.operation ≠ .noShip

/-! ## One observation -/

/-- What an accepted observation reads of its revision. -/
theorem observeCandidateRevision_reads
    (h : observeCandidateRevision resolve r event = .ok next) :
    ∃ (a : ReplayActivity) (c : ObservedCandidate), activityFor r event.payload = .ok a
      ∧ Finalizes resolve r event "candidate-revision" c.revision
      ∧ optionalRelationship c.revision "revises" "candidate-revision" = .ok c.revises
      ∧ ObservesCandidate resolve r a c
      ∧ next.subjects.candidate = some (retainedReference c.revision) := by
  simp only [observeCandidateRevision, bind_eq_ok, exactPayload_eq_ok, failIf_eq_ok,
    pure_eq_ok, exists_unit, exists_registered, not_not] at h
  obtain ⟨_, ⟨-, rfl⟩, a, ha, -, -, revision, hfin, -, -, governedBy, -, revises, hrevises,
    resultOf, -, -, integratedFrom, -, -, hobserves, owed, -, rfl⟩ := h
  exact ⟨a, ⟨revision, governedBy, revises, resultOf, integratedFrom⟩, ha, hfin, hrevises,
    hobserves, rfl⟩

/-- A candidate that advances the current one succeeds it. -/
theorem succeeds_of_advances {c : ObservedCandidate} {previous : SubjectReference}
    (h : c.Advances previous)
    (hresolved : resolve (subjectOf (retainedReference c.revision)) = some c.revision)
    (hrevises : optionalRelationship c.revision "revises" "candidate-revision" = .ok c.revises)
    (hkeeps : KeepsPredecessor resolve previous c.revision) :
    Succeeds resolve previous (retainedReference c.revision) :=
  ⟨h.1, h.2.1, c.revision, hresolved, rfl, hrevises.trans (congrArg _ h.2.2), hkeeps⟩

/-- **An observed candidate succeeds the current one**, or is the first. -/
theorem ObservesCandidate.succeeds {c : ObservedCandidate} (h : ObservesCandidate resolve r a c)
    (hresolved : resolve (subjectOf (retainedReference c.revision)) = some c.revision)
    (hrevises : optionalRelationship c.revision "revises" "candidate-revision" = .ok c.revises) :
    (r.subjects.candidate = none ∧ c.revision.revision = 1)
      ∨ ∃ previous, r.subjects.candidate = some previous
        ∧ Succeeds resolve previous (retainedReference c.revision) := by
  unfold ObservesCandidate assertObservedCandidate at h
  split at h
  · -- An integration writes neither a rebind nor a builder's successor.
    simp only [assertIntegratedCandidate, bind_eq_ok, orFail_eq_ok, failIf_eq_ok,
      exists_unit] at h
    obtain ⟨_, -, -, _, -, -, -, previous, hprevious, hadvances, -⟩ := h
    push Not at hadvances
    obtain ⟨hadvances, -, hobservation, -, -⟩ := hadvances
    rw [ObservedCandidate.text] at hobservation
    refine .inr ⟨previous, hprevious, succeeds_of_advances hadvances hresolved hrevises ⟨?_, ?_⟩⟩ <;>
      intro hother <;> simp [hobservation] at hother
  · simp only [assertBuilderCandidate, bind_eq_ok, orFail_eq_ok, failIf_eq_ok, exists_unit,
      not_not] at h
    obtain ⟨-, -, previous, hprevious, hadvances, before, hbefore, hbase, hbuilds⟩ := h
    push Not at hbuilds
    have hobservation := hbuilds.1
    rw [ObservedCandidate.text] at hobservation
    refine .inr ⟨previous, hprevious, succeeds_of_advances hadvances hresolved hrevises ⟨?_, ?_⟩⟩
    · intro hother
      simp [hobservation] at hother
    · intro _
      exact ⟨before, hbefore, by simpa using hbase⟩
  · split at h
    · simp only [assertInitialCandidate, bind_eq_ok, failIf_eq_ok, exists_unit] at h
      obtain ⟨-, -, hfirst⟩ := h
      push Not at hfirst
      exact .inl ⟨hfirst.2.1, hfirst.2.2.1⟩
    · simp only [assertReboundCandidate, bind_eq_ok, orFail_eq_ok, failIf_eq_ok, exists_unit,
        not_not] at h
      obtain ⟨-, -, previous, hprevious, hadvances, before, hbefore, hretained, sameState, hstate,
        sameCarrier, hcarrier, hkept⟩ := h
      push Not at hretained hkept
      obtain ⟨hobservation, -, hbase, hsameState, hsameCarrier⟩ := hkept
      rw [ObservedCandidate.text] at hobservation
      refine .inr ⟨previous, hprevious, succeeds_of_advances hadvances hresolved hrevises ⟨?_, ?_⟩⟩
      · intro _
        refine ⟨before, hbefore, hretained.2, ?_, ?_, by simpa using hbase⟩
        · rw [hstate, show sameState = true by simpa using hsameState]
        · rw [hcarrier, show sameCarrier = true by simpa using hsameCarrier]
      · intro hother
        simp [hobservation] at hother
    · exact absurd h (by simp)
  · exact absurd h (by simp)

/-! ## One event -/

/-- Only an observation changes the candidate. -/
theorem DeliveryStep.candidate {k : DeliveryEventKind} (h : DeliveryStep resolve r event k next)
    (hk : k ≠ .candidateRevisionObserved) : next.subjects.candidate = r.subjects.candidate := by
  cases h with
  | quiet _ hreg hsame =>
    rw [hsame.subjects]
    obtain rfl | ⟨_, _, -, -, rfl⟩ := hreg <;> rfl
  | started _ _ _ _ hsame => rw [hsame.subjects]; rfl
  | progress _ hprogress =>
    obtain rfl | ⟨_, _, -, rfl⟩ := hprogress.facts <;> rfl
  | observed => exact absurd rfl hk
  | _ => rfl

/-- **What an accepted event does to the candidates.** -/
theorem candidate_of_append (h : append resolve r event = .ok next) :
    (observedReference event = none ∧ next.subjects.candidate = r.subjects.candidate)
      ∨ ∃ c, observedReference event = some c ∧ next.subjects.candidate = some c
        ∧ ((r.subjects.candidate = none ∧ c.revision = 1)
          ∨ ∃ previous, r.subjects.candidate = some previous ∧ Succeeds resolve previous c) := by
  obtain ⟨verified, applied, k, hverified, hk, -, -, happlied, rfl⟩ := append_eq_ok.mp h
  have hsame := (verifyEnvelope_sameFacts hverified).subjects
  by_cases hkind : k = .candidateRevisionObserved
  · subst hkind
    obtain ⟨a, c, -, hfin, hrevises, hobserves, hcandidate⟩ :=
      observeCandidateRevision_reads happlied
    refine .inr ⟨retainedReference c.revision, ?_, hcandidate, ?_⟩
    · rw [observedReference, if_pos hk, hfin.subject]
      rfl
    · rw [← hsame]
      exact hobserves.succeeds hfin.resolved hrevises
  · refine .inl ⟨?_, ?_⟩
    · rw [observedReference, if_neg]
      rw [hk, Option.some.injEq]
      exact hkind
    · rw [← hsame]
      exact (handle_step happlied).candidate hkind

/-- **An observation drops what stood for the candidate before.** -/
theorem dropsStanding_of_append (hr : Structural r) (h : append resolve r event = .ok next)
    (hk : DeliveryEvents.parseKind event.eventKind = some .candidateRevisionObserved) :
    DropsStanding next := by
  obtain ⟨verified, applied, k, hverified, hk', -, hclosure, happlied, rfl⟩ := append_eq_ok.mp h
  obtain rfl := Option.some.inj (hk.symm.trans hk')
  have hstructural := hr.sameFacts (verifyEnvelope_sameFacts hverified)
  have hafter := (hstructural.step hclosure (handle_step happlied)).sameFacts
    (⟨rfl, rfl, rfl, rfl, rfl, rfl, rfl, rfl⟩ : SameFacts applied { applied with
      lastEvent := some event })
  cases handle_step happlied with
  | quiet hquiet => simp at hquiet
  | progress _ hprogress => cases hprogress
  | @observed a c owed ha hfin hreceipt hcandidate hobserves howed =>
    refine ⟨rfl, rfl, rfl, ?_, ?_⟩
    · intro hready
      exact absurd (standingFacts hready).2.2 (by simp)
    · -- The observing activity is the only one that is open.
      intro x hx
      obtain ⟨-, hop⟩ := hobserves.governed
      have hopen := openIn_of_activityFor ha
      obtain rfl := hstructural.eq_of_open hopen (by rfl) (by rfl) hx
      rcases hop with hop | hop | hop <;> simp [hop]

/-! ## Journals -/

/-- **The lineage of the candidates of a journal.** -/
structure Lineage (resolve : DeliveryRecordRevisionResolver) (events : List ControlRecordEvent)
    (r : Replay) : Prop where
  /-- All candidates are of one record. -/
  oneId : ∀ x ∈ candidateReferences events, ∀ y ∈ candidateReferences events, x.id = y.id
  /-- Their revisions count from one. -/
  revisions : (candidateReferences events).map (·.revision)
    = List.range' 1 (candidateReferences events).length
  /-- Each succeeds the one before it. -/
  chain : (candidateReferences events).IsChain (Succeeds resolve)
  /-- The last one is current. -/
  current : r.subjects.candidate = (candidateReferences events).getLast?
  /-- An observation leaves nothing standing for the one before. -/
  drops : ∀ event next, append resolve r event = .ok next →
    DeliveryEvents.parseKind event.eventKind = some .candidateRevisionObserved →
      DropsStanding next

theorem candidateReferences_snoc {events : List ControlRecordEvent} {event : ControlRecordEvent} :
    candidateReferences (events ++ [event])
      = candidateReferences events ++ (observedReference event).toList := by
  rw [candidateReferences, List.filterMap_append, candidateReferences]
  congr 1
