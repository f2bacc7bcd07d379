import Lifecycle.Rehearsal

/-!
# The structure of a replay

What holds of every replay the reducer can reach: its activities run one
at a time, its current subjects depend on one another as they should, and
the eligible operations follow from both. The invariant proper is
`Structural`; the activities alone are `OneAtATime`, which every step
keeps because every step either adds an activity when none is open or
moves the one that is.
-/

open Fallible Json ControlModel DeliveryReducer

variable {resolve : DeliveryRecordRevisionResolver} {r next : Replay}
  {event : ControlRecordEvent}

/-! ## Activities one at a time -/

/-- **Activities one at a time**: each under its own identity, owing
something exactly until it is completed, and at most one of them open. -/
structure OneAtATime (activities : OrderedMap String ReplayActivity) : Prop where
  keyed : ∀ k a, activities.get k = some a → a.id = k
  recoverable : ∀ a ∈ activities.values, a.recovery = none ↔ a.stage = .completed
  single : ∀ a ∈ activities.values, ∀ b ∈ activities.values,
    a.Unresolved → b.Unresolved → a = b

namespace OneAtATime

variable {activities : OrderedMap String ReplayActivity} {a b x : ReplayActivity}

theorem get_of_mem (h : OneAtATime activities) (ha : a ∈ activities.values) :
    activities.get a.id = some a := by
  obtain ⟨k, hk⟩ := OrderedMap.mem_values_iff.mp ha
  rwa [h.keyed k a hk]

/-- What an update leaves: the activity it writes, and the others. -/
theorem mem_update (h : OneAtATime activities) :
    x ∈ (activities.set b.id b).values ↔
      x = b ∨ (x ∈ activities.values ∧ x.id ≠ b.id) := by
  rw [OrderedMap.mem_values_set]
  refine or_congr_right ?_
  constructor
  · rintro ⟨j, hj, hget⟩
    exact ⟨OrderedMap.mem_values_of_get hget, by rwa [h.keyed j x hget]⟩
  · rintro ⟨hx, hid⟩
    exact ⟨x.id, hid, h.get_of_mem hx⟩

/-- **After the open activity moved, only it can be open.** -/
theorem eq_of_open_update (h : OneAtATime activities) (ha : a ∈ activities.values)
    (hopen : a.Unresolved) (hid : b.id = a.id) (hx : x ∈ (activities.set b.id b).values)
    (hxopen : x.Unresolved) : x = b := by
  rcases h.mem_update.mp hx with rfl | ⟨hold, hne⟩
  · rfl
  · exact absurd (h.single x hold a ha hxopen hopen ▸ hid.symm) hne

/-- After an activity was added when none was open, only it can be open. -/
theorem eq_of_open_insert (h : OneAtATime activities)
    (hsettled : ∀ y ∈ activities.values, ¬ y.Unresolved)
    (hx : x ∈ (activities.set b.id b).values) (hxopen : x.Unresolved) : x = b := by
  rcases h.mem_update.mp hx with rfl | ⟨hold, -⟩
  · rfl
  · exact absurd hxopen (hsettled x hold)

theorem keyed_set (h : OneAtATime activities) (k : String) (x : ReplayActivity)
    (hget : (activities.set b.id b).get k = some x) : x.id = k := by
  rw [OrderedMap.get_set] at hget
  split at hget
  · next hk => rw [← Option.some.inj hget, hk]
  · exact h.keyed k x hget

theorem recoverable_set (h : OneAtATime activities)
    (hb : b.recovery = none ↔ b.stage = .completed) :
    ∀ x ∈ (activities.set b.id b).values, x.recovery = none ↔ x.stage = .completed := by
  intro x hx
  rcases h.mem_update.mp hx with rfl | ⟨hold, -⟩
  · exact hb
  · exact h.recoverable x hold

/-- The open activity may move. -/
theorem update (h : OneAtATime activities) (ha : a ∈ activities.values)
    (hopen : a.Unresolved) (hid : b.id = a.id)
    (hb : b.recovery = none ↔ b.stage = .completed) :
    OneAtATime (activities.set b.id b) where
  keyed := h.keyed_set
  recoverable := h.recoverable_set hb
  single _ hx _ hy hxopen hyopen :=
    (h.eq_of_open_update ha hopen hid hx hxopen).trans
      (h.eq_of_open_update ha hopen hid hy hyopen).symm

/-- An activity may be added when none is open. -/
theorem insert (h : OneAtATime activities)
    (hsettled : ∀ y ∈ activities.values, ¬ y.Unresolved)
    (hb : b.recovery = none ↔ b.stage = .completed) :
    OneAtATime (activities.set b.id b) where
  keyed := h.keyed_set
  recoverable := h.recoverable_set hb
  single _ hx _ hy hxopen hyopen :=
    (h.eq_of_open_insert hsettled hx hxopen).trans
      (h.eq_of_open_insert hsettled hy hyopen).symm

theorem empty : OneAtATime ∅ where
  keyed k a h := by simp at h
  recoverable a h := by simp at h
  single a h := by simp at h

end OneAtATime

/-! ## The open activity -/

/-- **The open activity** of a replay. -/
def OpenIn (r : Replay) (a : ReplayActivity) : Prop := a ∈ r.activityList ∧ a.Unresolved

/-- The activity an event names is open. -/
theorem openIn_of_activityFor {payload : JsonObject} {a : ReplayActivity}
    (h : activityFor r payload = .ok a) : OpenIn r a := by
  obtain ⟨id, -, hget, hstage⟩ := activityFor_eq_ok.mp h
  exact ⟨OrderedMap.mem_values_of_get hget, hstage⟩

/-- What no step changes of its activity. -/
structure SameActivity (a b : ReplayActivity) : Prop where
  id : b.id = a.id
  operation : b.operation = a.operation
  family : b.family = a.family
  originStanding : b.originStanding = a.originStanding

theorem sameActivity_observedTransaction {a : ReplayActivity} {outcome : TransactionOutcome}
    {d : Sha256Digest} : SameActivity a (observedTransaction a outcome d) := by
  unfold observedTransaction
  split <;> exact ⟨rfl, rfl, rfl, rfl⟩

theorem Progress.sameActivity {k : DeliveryEventKind} {r₁ : Replay} {a b : ReplayActivity}
    (h : Progress resolve r event a k r₁ b) : SameActivity a b := by
  cases h with
  | transactionObserved => exact sameActivity_observedTransaction
  | _ => exact ⟨rfl, rfl, rfl, rfl⟩

@[simp] theorem recovery_ne_none {kind : DeliveryRecoveryKind} {step : DeliveryRecoveryStep}
    {d : Option Sha256Digest} : recovery kind step d ≠ none := by
  simp [recovery]

theorem observedTransaction_open {a : ReplayActivity} {outcome : TransactionOutcome}
    {d : Sha256Digest} : (observedTransaction a outcome d).Unresolved
      ∧ (observedTransaction a outcome d).recovery ≠ none := by
  simp only [observedTransaction, ReplayActivity.Unresolved]
  split
  · exact ⟨by simp, recovery_ne_none⟩
  · refine ⟨by simp, ?_⟩
    simp only [determinateRecovery]
    split
    · exact recovery_ne_none
    · split <;> exact recovery_ne_none

/-- **A step that only moves its activity leaves it open.** -/
theorem Progress.open {k : DeliveryEventKind} {r₁ : Replay} {a b : ReplayActivity}
    (h : Progress resolve r event a k r₁ b) (ha : a.Unresolved) :
    b.Unresolved ∧ b.recovery ≠ none := by
  cases h with
  | transactionObserved => exact observedTransaction_open
  | submitted | abandoned =>
    refine ⟨by simp [ReplayActivity.Unresolved], ?_⟩
    simp only [decidedWorkRecovery]
    split <;> exact recovery_ne_none
  | receipted =>
    refine ⟨by simp [ReplayActivity.Unresolved], ?_⟩
    simp only [receiptRecovery]
    split
    · exact recovery_ne_none
    · split <;> exact recovery_ne_none
  | checked | decided => exact ⟨ha, recovery_ne_none⟩
  | _ => exact ⟨by simp [ReplayActivity.Unresolved], recovery_ne_none⟩

/-- It changes nothing else but the registries. -/
theorem Progress.facts {k : DeliveryEventKind} {r₁ : Replay} {a b : ReplayActivity}
    (h : Progress resolve r event a k r₁ b) :
    r₁ = r ∨ ∃ kind revision, Finalizes resolve r event kind revision
      ∧ r₁ = r.register kind (retainedReference revision) := by
  cases h with
  | prepared hfin => exact .inr ⟨_, _, hfin, rfl⟩
  | submitted hfin => exact .inr ⟨_, _, hfin, rfl⟩
  | receipted hfin => exact .inr ⟨_, _, hfin, rfl⟩
  | bounded hfin => exact .inr ⟨_, _, hfin, rfl⟩
  | checked hfin => exact .inr ⟨_, _, hfin, rfl⟩
  | decided hfin => exact .inr ⟨_, _, hfin, rfl⟩
  | _ => exact .inl rfl

theorem Progress.candidateSeal {k : DeliveryEventKind} {r₁ : Replay} {a b : ReplayActivity}
    (h : Progress resolve r event a k r₁ b) : b.candidateSeal = a.candidateSeal := by
  cases h with
  | transactionObserved =>
    unfold observedTransaction
    split <;> rfl
  | _ => rfl

theorem Progress.candidate {k : DeliveryEventKind} {r₁ : Replay} {a b : ReplayActivity}
    (h : Progress resolve r event a k r₁ b) : b.candidate = a.candidate := by
  cases h with
  | transactionObserved =>
    unfold observedTransaction
    split <;> rfl
  | _ => rfl

/-- **A candidate is observed under an active boundary**, by an admission,
a continuation or an integration. -/
theorem ObservesCandidate.governed {a : ReplayActivity} {c : ObservedCandidate}
    (h : ObservesCandidate resolve r a c) : r.subjects.activeBoundary ≠ none
      ∧ (a.operation = .integrate ∨ a.operation = .continue ∨ a.operation = .admitBoundary) := by
  unfold ObservesCandidate assertObservedCandidate at h
  split at h
  · next hop =>
    simp only [assertIntegratedCandidate, bind_eq_ok, orFail_eq_ok, failIf_eq_ok, exists_unit,
      assertReference_eq_ok] at h
    obtain ⟨_, -, -, _, -, ⟨hne, hactive⟩, -⟩ := h
    exact ⟨hactive ▸ hne, .inl hop⟩
  · next hop =>
    simp only [assertBuilderCandidate, bind_eq_ok, orFail_eq_ok, failIf_eq_ok, exists_unit,
      assertReference_eq_ok] at h
    obtain ⟨-, ⟨hne, hactive⟩, -⟩ := h
    exact ⟨hactive ▸ hne, .inr (.inl hop)⟩
  · next hop =>
    split at h
    · simp only [assertInitialCandidate, bind_eq_ok, failIf_eq_ok, exists_unit,
        assertReference_eq_ok] at h
      obtain ⟨-, ⟨hne, hactive⟩, -⟩ := h
      exact ⟨hactive ▸ hne, .inr (.inr hop)⟩
    · simp only [assertReboundCandidate, bind_eq_ok, orFail_eq_ok, failIf_eq_ok, exists_unit,
        assertReference_eq_ok] at h
      obtain ⟨-, ⟨hne, hactive⟩, -⟩ := h
      exact ⟨hactive ▸ hne, .inr (.inr hop)⟩
    · exact absurd h (by simp)
  · exact absurd h (by simp)

theorem observedCandidateRecovery_ne_none {a : ReplayActivity}
    {owed : Option DeliveryRecoveryObligation}
    (h : observedCandidateRecovery resolve r a = .ok owed) : owed ≠ none := by
  unfold observedCandidateRecovery at h
  split at h
  · rw [Except.ok.injEq] at h
    exact h ▸ recovery_ne_none
  · simp only [bind_eq_ok, pure_eq_ok] at h
    obtain ⟨_, -, rfl⟩ := h
    exact recovery_ne_none
  · rw [Except.ok.injEq] at h
    exact h ▸ recovery_ne_none

/-! ## Eligibility -/

/-- Whether recovery is owed is read off the open activities. -/
theorem any_unresolved_recovery :
    ((unresolvedActivities (stateFromReplay r)).any fun a => a.recovery.isSome) = true ↔
      ∃ a, OpenIn r a ∧ a.recovery ≠ none := by
  simp only [unresolvedActivities, stateFromReplay, List.any_eq_true, List.mem_filter,
    List.mem_map, decide_eq_true_eq, publicActivity, Option.isSome_iff_ne_none, OpenIn,
    ReplayActivity.Unresolved]
  constructor
  · rintro ⟨_, ⟨⟨a, ha, rfl⟩, hstage⟩, hrecovery⟩
    exact ⟨a, ⟨ha, hstage⟩, hrecovery⟩
  · rintro ⟨a, ⟨ha, hstage⟩, hrecovery⟩
    exact ⟨_, ⟨⟨a, ha, rfl⟩, hstage⟩, hrecovery⟩

/-- What a standing says of the subjects. -/
def StandingFacts (r : Replay) : DeliveryStanding → Prop
  | .closed => r.subjects.closure ≠ none
  | .awaitingReadmission => r.subjects.closure = none ∧ r.subjects.materialCondition ≠ none
      ∧ r.subjects.proposedBoundary ≠ none
  | .boundaryPaused => r.subjects.closure = none ∧ r.subjects.materialCondition ≠ none
      ∧ r.subjects.proposedBoundary = none
  | .decisionReady => r.subjects.closure = none ∧ r.subjects.materialCondition = none
      ∧ r.evidenceReadiness = some .acceptanceReady
  | .active => r.subjects.closure = none ∧ r.subjects.materialCondition = none
      ∧ r.subjects.activeBoundary ≠ none ∧ r.evidenceReadiness ≠ some .acceptanceReady
  | .awaitingAdmission => r.subjects.closure = none ∧ r.subjects.materialCondition = none
      ∧ r.subjects.activeBoundary = none ∧ r.subjects.proposedBoundary ≠ none
  | .framing => r.subjects.closure = none ∧ r.subjects.materialCondition = none
      ∧ r.subjects.activeBoundary = none ∧ r.subjects.proposedBoundary = none

/-- **A replay is in the standing its subjects say.** -/
theorem standingFacts_currentStanding (r : Replay) : StandingFacts r (currentStanding r) := by
  unfold currentStanding
  by_cases hclosed : r.subjects.closure = none
  · rw [if_neg (not_not.mpr hclosed)]
    by_cases hcondition : r.subjects.materialCondition = none
    · rw [if_neg (by simp [hcondition]), if_neg (by simp [hcondition])]
      by_cases hready : r.evidenceReadiness = some .acceptanceReady
      · rw [if_pos hready]
        exact ⟨hclosed, hcondition, hready⟩
      · rw [if_neg hready]
        by_cases hactive : r.subjects.activeBoundary = none
        · rw [if_neg (not_not.mpr hactive)]
          by_cases hproposed : r.subjects.proposedBoundary = none
          · rw [if_neg (not_not.mpr hproposed)]
            exact ⟨hclosed, hcondition, hactive, hproposed⟩
          · rw [if_pos hproposed]
            exact ⟨hclosed, hcondition, hactive, hproposed⟩
        · rw [if_pos hactive]
          exact ⟨hclosed, hcondition, hactive, hready⟩
    · by_cases hproposed : r.subjects.proposedBoundary = none
      · rw [if_neg (by simp [hproposed]), if_pos hcondition]
        exact ⟨hclosed, hcondition, hproposed⟩
      · rw [if_pos ⟨hcondition, hproposed⟩]
        exact ⟨hclosed, hcondition, hproposed⟩
  · rw [if_pos hclosed]
    exact hclosed

/-- The facts of the standing a replay is known to be in. -/
theorem standingFacts {s : DeliveryStanding} (h : currentStanding r = s) :
    StandingFacts r s :=
  h ▸ standingFacts_currentStanding r

theorem currentStanding_eq_closed :
    currentStanding r = .closed ↔ r.subjects.closure ≠ none := by
  constructor
  · exact standingFacts
  · intro h
    rw [currentStanding, if_pos h]

@[simp] theorem stateFromReplay_standing :
    (stateFromReplay r).standing = currentStanding r := rfl

@[simp] theorem stateFromReplay_subjects : (stateFromReplay r).subjects = r.subjects := rfl

/-- **The three cases of eligibility.** -/
theorem eligibleOperations_cases (r : Replay) :
    (r.subjects.closure ≠ none ∧ eligibleOperations r = [])
      ∨ (r.subjects.closure = none ∧ (∃ a, OpenIn r a ∧ a.recovery ≠ none)
        ∧ eligibleOperations r = [.recover])
      ∨ (r.subjects.closure = none ∧ (¬ ∃ a, OpenIn r a ∧ a.recovery ≠ none)
        ∧ eligibleOperations r = DeliveryOperation.all.filter
          (operationEligible (stateFromReplay r) r.candidateIntegrated)) := by
  by_cases hclosed : r.subjects.closure = none
  · have hstanding : (stateFromReplay r).standing ≠ .closed := fun h =>
      currentStanding_eq_closed.mp h hclosed
    by_cases howed : ∃ a, OpenIn r a ∧ a.recovery ≠ none
    · refine .inr (.inl ⟨hclosed, howed, ?_⟩)
      rw [eligibleOperations, eligibleDeliveryOperations, if_neg hstanding,
        if_pos (any_unresolved_recovery.mpr howed)]
    · refine .inr (.inr ⟨hclosed, howed, ?_⟩)
      rw [eligibleOperations, eligibleDeliveryOperations, if_neg hstanding,
        if_neg (fun h => howed (any_unresolved_recovery.mp h))]
  · refine .inl ⟨hclosed, ?_⟩
    rw [eligibleOperations, eligibleDeliveryOperations, stateFromReplay_standing,
      if_pos (currentStanding_eq_closed.mpr hclosed)]

/-- What an operation that may open an activity requires. -/
theorem opens_of_mem_eligible {o : DeliveryOperation} (h : o ∈ eligibleOperations r)
    (hne : o ≠ .recover) :
    r.subjects.closure = none ∧ (¬ ∃ a, OpenIn r a ∧ a.recovery ≠ none)
      ∧ operationEligible (stateFromReplay r) r.candidateIntegrated o = true := by
  obtain ⟨-, heq⟩ | ⟨-, -, heq⟩ | ⟨hclosed, hsettled, heq⟩ := eligibleOperations_cases r
  · rw [heq] at h
    exact absurd h (by simp)
  · rw [heq, List.mem_singleton] at h
    exact absurd h hne
  · rw [heq, List.mem_filter] at h
    exact ⟨hclosed, hsettled, h.2⟩

/-- An eligible operation is legal in the standing. -/
theorem legal_of_operationEligible {o : DeliveryOperation}
    (h : operationEligible (stateFromReplay r) r.candidateIntegrated o = true) :
    currentStanding r ∈ o.descriptor.legalStandings := by
  simp only [operationEligible, Bool.and_eq_true] at h
  simpa using h.1.1.2

/-! ## The invariant -/

/-- **How the current subjects depend on one another.** -/
structure SubjectsFit (s : DeliverySubjects) (readiness : Option EvidenceReadiness) : Prop where
  candidateGoverned : s.candidate ≠ none → s.activeBoundary ≠ none
  sealOfCandidate : s.candidateSeal ≠ none → s.candidate ≠ none
  evidenceOfSeal : s.evidence ≠ none → s.candidateSeal ≠ none
  readinessOfEvidence : readiness ≠ none ↔ s.evidence ≠ none
  revisesUnderCondition :
    s.proposedBoundary ≠ none → s.activeBoundary ≠ none → s.materialCondition ≠ none
  conditionOfCandidate : s.materialCondition ≠ none → s.candidate ≠ none

/-- What holds of the open activity. -/
structure OpenFits (r : Replay) (a : ReplayActivity) : Prop where
  family : familyOf a.operation.descriptor.activity = some a.family
  prepares : a.operation = .prepare → r.subjects.activeBoundary = none
  revises : a.operation = .revise ∨ a.operation = .reaffirm →
    r.subjects.materialCondition ≠ none
  seals : a.candidateSeal ≠ none →
    a.operation = .evaluate ∧ r.subjects.candidateSeal = a.candidateSeal
  observes : a.candidate ≠ none → r.subjects.candidate = a.candidate

/-- **The structure of a replay.** -/
structure Structural (r : Replay) : Prop where
  sequential : OneAtATime r.activities
  subjects : SubjectsFit r.subjects r.evidenceReadiness
  fits : ∀ a, OpenIn r a → OpenFits r a
  settled : r.subjects.closure ≠ none → ∀ a, ¬ OpenIn r a

namespace Structural

theorem initial : Structural freshReplay where
  sequential := .empty
  subjects := ⟨by simp [freshReplay], by simp [freshReplay], by simp [freshReplay],
    by simp [freshReplay], by simp [freshReplay], by simp [freshReplay]⟩
  fits a h := absurd h.1 (by simp [freshReplay, Replay.activityList])
  settled h := absurd rfl h

/-- The structure is one of the activities, the subjects and the
readiness. -/
theorem congr (h : Structural r) (hactivities : next.activities = r.activities)
    (hsubjects : next.subjects = r.subjects)
    (hreadiness : next.evidenceReadiness = r.evidenceReadiness) : Structural next where
  sequential := hactivities ▸ h.sequential
  subjects := by rw [hsubjects, hreadiness]; exact h.subjects
  fits a ha := by
    rw [OpenIn, Replay.activityList, hactivities] at ha
    obtain ⟨h₁, h₂, h₃, h₄, h₅⟩ := h.fits a ha
    exact ⟨h₁, by rwa [hsubjects], by rwa [hsubjects], by rwa [hsubjects],
      by rwa [hsubjects]⟩
  settled hclosed a ha := by
    rw [OpenIn, Replay.activityList, hactivities] at ha
    exact h.settled (hsubjects ▸ hclosed) a ha

theorem sameFacts (h : Structural r) (hsame : SameFacts r next) : Structural next :=
  h.congr hsame.activities hsame.subjects hsame.evidenceReadiness

variable {a b : ReplayActivity}

theorem owes (h : Structural r) (ha : OpenIn r a) : a.recovery ≠ none :=
  fun hnone => ha.2 ((h.sequential.recoverable a ha.1).mp hnone)

/-- Nothing is open where an operation may open an activity. -/
theorem settled_of_eligible {o : DeliveryOperation} (h : Structural r)
    (ho : o ∈ eligibleOperations r) (hne : o ≠ .recover) : ∀ x, ¬ OpenIn r x :=
  fun x hx => (opens_of_mem_eligible ho hne).2.1 ⟨x, hx, h.owes hx⟩

/-- After the open activity moved, what is open is what it became. -/
theorem eq_of_open (h : Structural r) (ha : OpenIn r a)
    (hactivities : next.activities = r.activities.set b.id b) (hid : b.id = a.id)
    {x : ReplayActivity} (hx : OpenIn next x) : x = b := by
  have hmem := hx.1
  rw [Replay.activityList, hactivities] at hmem
  exact h.sequential.eq_of_open_update ha.1 ha.2 hid hmem hx.2

/-- **What a step on the open activity must establish.** -/
theorem move (h : Structural r) (ha : OpenIn r a)
    (hactivities : next.activities = r.activities.set b.id b) (hsame : SameActivity a b)
    (hrecovery : b.recovery = none ↔ b.stage = .completed)
    (hsubjects : SubjectsFit next.subjects next.evidenceReadiness)
    (hfits : b.Unresolved → OpenFits next b)
    (hclosed : next.subjects.closure ≠ none → ¬ b.Unresolved) : Structural next where
  sequential := hactivities ▸ h.sequential.update ha.1 ha.2 hsame.id hrecovery
  subjects := hsubjects
  fits x hx := by
    obtain rfl := h.eq_of_open ha hactivities hsame.id hx
    exact hfits hx.2
  settled hc x hx := by
    obtain rfl := h.eq_of_open ha hactivities hsame.id hx
    exact hclosed hc hx.2

/-- An opening keeps the structure. -/
theorem opened {activityId : String} {operation : DeliveryOperation}
    {family : DeliveryActivityFamily} {brief : Option SubjectReference}
    {reservation : Option WorkDelegationReservation} (h : Structural r)
    (heligible : operation ∈ eligibleOperations r) (hne : operation ≠ .recover)
    (hfamily : familyOf operation.descriptor.activity = some family) :
    Structural (r.setActivity
      (openedActivity r activityId operation family brief reservation)) := by
  obtain ⟨hopen, -, hlegal⟩ := opens_of_mem_eligible heligible hne
  have hstanding := legal_of_operationEligible hlegal
  have hsettled := h.settled_of_eligible heligible hne
  have hsettled' : ∀ y ∈ r.activities.values, ¬ y.Unresolved :=
    fun y hy hunresolved => hsettled y ⟨hy, hunresolved⟩
  have hrecovery : startedRecovery operation family ≠ none := by
    unfold startedRecovery
    split
    · split <;> exact recovery_ne_none
    · exact recovery_ne_none
    · exact recovery_ne_none
  refine ⟨h.sequential.insert hsettled' ?_, h.subjects, ?_, fun hclosed => absurd hopen hclosed⟩
  · simp [openedActivity, hrecovery]
  · intro x hx
    obtain rfl := h.sequential.eq_of_open_insert hsettled' hx.1 hx.2
    refine ⟨hfamily, ?_, ?_, fun hseal => absurd rfl hseal, fun hcand => absurd rfl hcand⟩
    · intro hop
      obtain rfl : operation = .prepare := hop
      exact (standingFacts (List.mem_singleton.mp hstanding)).2.2.1
    · rintro (hop | hop)
      · obtain rfl : operation = .revise := hop
        exact (standingFacts (List.mem_singleton.mp hstanding)).2.1
      · obtain rfl : operation = .reaffirm := hop
        exact (standingFacts (List.mem_singleton.mp hstanding)).2.1

/-- A step that only moves its activity keeps the structure. -/
theorem progress {k : DeliveryEventKind} {r₁ : Replay} (h : Structural r) (ha : OpenIn r a)
    (hprogress : Progress resolve r event a k r₁ b) : Structural (r₁.setActivity b) := by
  have hsame := hprogress.sameActivity
  obtain ⟨hopen, howes⟩ := hprogress.open ha.2
  have hseal := hprogress.candidateSeal
  have hcandidate := hprogress.candidate
  obtain ⟨h₁, h₂, h₃, h₄, h₅⟩ := h.fits a ha
  have hfits : OpenFits r b := ⟨by rw [hsame.operation, hsame.family, h₁],
    by rwa [hsame.operation], by rwa [hsame.operation], by rwa [hseal, hsame.operation],
    by rwa [hcandidate]⟩
  have hrecovery : b.recovery = none ↔ b.stage = .completed :=
    ⟨fun hnone => absurd hnone howes, fun hdone => absurd hdone hopen⟩
  obtain rfl | ⟨kind, revision, -, rfl⟩ := hprogress.facts
  · exact h.move ha rfl hsame hrecovery h.subjects
      (fun _ => ⟨hfits.1, hfits.2, hfits.3, hfits.4, hfits.5⟩)
      (fun hclosed => absurd ha (h.settled hclosed a))
  · exact h.move ha rfl hsame hrecovery h.subjects
      (fun _ => ⟨hfits.1, hfits.2, hfits.3, hfits.4, hfits.5⟩)
      (fun hclosed => absurd ha (h.settled hclosed a))

/-- **Every step keeps the structure.** -/
theorem step {k : DeliveryEventKind} (h : Structural r) (hopen : r.subjects.closure = none)
    (hstep : DeliveryStep resolve r event k next) : Structural next := by
  cases hstep with
  | quiet _ hreg hsame =>
    obtain rfl | ⟨kind, revision, -, -, rfl⟩ := hreg
    · exact h.sameFacts hsame
    · exact h.congr hsame.activities hsame.subjects hsame.evidenceReadiness
  | started _ heligible hne hfamily hsame =>
    exact (h.opened heligible hne hfamily).sameFacts hsame
  | progress ha hprogress => exact h.progress (openIn_of_activityFor ha) hprogress
  | @assessed a _ assessment ha _ hop =>
    have ha := openIn_of_activityFor ha
    obtain ⟨h₁, h₂, h₃, h₄, h₅⟩ := h.fits a ha
    obtain ⟨s₁, s₂, s₃, s₄, s₅, s₆⟩ := h.subjects
    refine h.move ha rfl ⟨rfl, rfl, rfl, rfl⟩ ?_ ⟨s₁, s₂, s₃, s₄, s₅, s₆⟩
      (fun _ => ⟨h₁, h₂, h₃, h₄, h₅⟩) (fun hclosed => absurd hopen hclosed)
    by_cases hbuilt : assessment.outcome = .constructed <;> simp [hbuilt]
  | @observed a _ _ ha _ _ _ hobserves howed =>
    have ha := openIn_of_activityFor ha
    obtain ⟨h₁, -, -, h₄, -⟩ := h.fits _ ha
    obtain ⟨s₁, s₂, s₃, s₄, s₅, s₆⟩ := h.subjects
    obtain ⟨hgoverned, hop⟩ := hobserves.governed
    refine h.move ha rfl ⟨rfl, rfl, rfl, rfl⟩ ?_
      ⟨fun _ => hgoverned, by simp, by simp, by simp, s₅, by simp⟩
      (fun _ => ⟨h₁, ?_, ?_, ?_, fun _ => rfl⟩) (fun hclosed => absurd hopen hclosed)
    · simp [observedCandidateRecovery_ne_none howed]
    · rintro (hprepare : a.operation = .prepare)
      simp [hprepare] at hop
    · rintro ((hrevise : a.operation = .revise) | (hreaffirm : a.operation = .reaffirm))
      · simp [hrevise] at hop
      · simp [hreaffirm] at hop
    · intro hseal
      rw [(h₄ hseal).1] at hop
      simp at hop
  | frozen ha _ _ hfreezes =>
    have ha := openIn_of_activityFor ha
    obtain ⟨h₁, h₂, h₃, h₄, h₅⟩ := h.fits _ ha
    obtain ⟨s₁, s₂, s₃, s₄, s₅, s₆⟩ := h.subjects
    refine h.move ha rfl ⟨rfl, rfl, rfl, rfl⟩ (by simp)
      ⟨s₁, s₂, s₃, s₄, by simp, fun _ => ?_⟩
      (fun _ => ⟨h₁, h₂, by simp, h₄, h₅⟩) (fun hclosed => absurd hopen hclosed)
    cases hfreezes with
    | integration _ _ hcandidate => exact h₅ hcandidate ▸ hcandidate
    | projection _ _ _ hcandidate => exact hcandidate
    | proposed _ _ _ _ _ _ _ hcandidate => exact hcandidate
  | sealed ha _ hop _ _ _ _ _ hcandidate =>
    have ha := openIn_of_activityFor ha
    obtain ⟨h₁, h₂, h₃, h₄, h₅⟩ := h.fits _ ha
    obtain ⟨s₁, s₂, s₃, s₄, s₅, s₆⟩ := h.subjects
    exact h.move ha rfl ⟨rfl, rfl, rfl, rfl⟩ (by simp)
      ⟨s₁, fun _ => hcandidate, by simp, by simp, s₅, s₆⟩
      (fun _ => ⟨h₁, h₂, h₃, fun _ => ⟨hop, rfl⟩, h₅⟩) (fun hclosed => absurd hopen hclosed)
  | evidenced ha _ _ _ _ _ hseal =>
    have ha := openIn_of_activityFor ha
    obtain ⟨h₁, h₂, h₃, h₄, h₅⟩ := h.fits _ ha
    obtain ⟨s₁, s₂, s₃, s₄, s₅, s₆⟩ := h.subjects
    exact h.move ha rfl ⟨rfl, rfl, rfl, rfl⟩ (by simp)
      ⟨s₁, s₂, fun _ => (h₄ hseal).2 ▸ hseal, by simp, s₅, s₆⟩
      (fun _ => ⟨h₁, h₂, h₃, h₄, h₅⟩) (fun hclosed => absurd hopen hclosed)
  | activated ha _ hop _ _ _ _ hproposed =>
    have ha := openIn_of_activityFor ha
    obtain ⟨h₁, -, -, h₄, h₅⟩ := h.fits _ ha
    obtain ⟨s₁, s₂, s₃, s₄, s₅, s₆⟩ := h.subjects
    refine h.move ha rfl sameActivity_observedTransaction ?_
      ⟨fun _ => hproposed, by simp, by simp, by simp, by simp, by simp⟩
      (fun _ => ⟨h₁, ?_, ?_, ?_, h₅⟩) (fun hclosed => absurd hopen hclosed)
    · simp [observedTransaction, determinateRecovery, hop]
    · intro hprepare
      exact absurd (hop.symm.trans hprepare) (by simp)
    · rintro (hrevise | hreaffirm)
      · exact absurd (hop.symm.trans hrevise) (by simp)
      · exact absurd (hop.symm.trans hreaffirm) (by simp)
    · intro hseal
      exact absurd (hop.symm.trans (h₄ hseal).1) (by simp)
  | @completed a outcome _ ha =>
    have ha := openIn_of_activityFor ha
    obtain ⟨-, h₂, h₃, -, -⟩ := h.fits _ ha
    obtain ⟨s₁, s₂, s₃, s₄, s₅, s₆⟩ := h.subjects
    refine h.move ha rfl ⟨rfl, rfl, rfl, rfl⟩ (by simp) ⟨s₁, s₂, s₃, s₄, ?_, s₆⟩
      (fun hunresolved => absurd rfl hunresolved) (fun hclosed => absurd hopen hclosed)
    intro hproposed hactive
    simp only [proposedAfter] at hproposed
    split at hproposed
    · next hproposes =>
      have hprepares : a.operation = .prepare ∨ a.operation = .revise
          ∨ a.operation = .reaffirm := by simpa [preparesBoundary] using hproposes.2.2
      exact hprepares.elim (fun hop => absurd (h₂ hop) hactive) h₃
    · exact s₅ hproposed hactive
  | closed ha =>
    have ha := openIn_of_activityFor ha
    obtain ⟨s₁, s₂, s₃, s₄, s₅, s₆⟩ := h.subjects
    exact h.move ha rfl ⟨rfl, rfl, rfl, rfl⟩ (by simp) ⟨s₁, s₂, s₃, s₄, s₅, s₆⟩
      (fun hunresolved => absurd rfl hunresolved) (fun _ hunresolved => hunresolved rfl)

end Structural

theorem Structural.of_reachable (h : (deliverySystem resolve).Reachable r) : Structural r :=
  reachable_invariant .initial (fun _ _ hsame hs => hs.sameFacts hsame)
    (fun _ _ _ _ hopen hs hstep => hs.step hopen hstep) h

/-! ## What every replay satisfies -/

/-- At most one activity is unresolved. -/
theorem OneAtATime.length_unresolved {activities : OrderedMap String ReplayActivity}
    (h : OneAtATime activities) :
    (activities.values.filter fun a => a.Unresolved).length ≤ 1 := by
  have hnodup : (activities.values.map (·.id)).Nodup := by
    have heq : activities.values.map (·.id) = activities.entries.map Prod.fst := by
      rw [OrderedMap.values, List.map_map]
      refine List.map_congr_left fun e he => ?_
      exact h.keyed e.1 e.2 (OrderedMap.get_eq_some_iff.mpr he)
    rw [heq]
    exact activities.nodupKeys
  have hsub := (hnodup.of_map _).filter fun a => a.Unresolved
  rcases hlist : activities.values.filter fun a => a.Unresolved with _ | ⟨a, _ | ⟨b, rest⟩⟩
  · rw [hlist]
    simp
  · rw [hlist]
    simp
  · rw [hlist] at hsub
    have ha : a ∈ activities.values.filter fun a => a.Unresolved := by simp [hlist]
    have hb : b ∈ activities.values.filter fun a => a.Unresolved := by simp [hlist]
    rw [List.mem_filter, decide_eq_true_eq] at ha hb
    have heq := h.single a ha.1 b hb.1 ha.2 hb.2
    simp [heq] at hsub

/-- Where nothing is open, some operation is eligible: a preparation
before the first one, else a no-ship. -/
theorem Structural.exists_eligible (h : Structural r) (hclosed : r.subjects.closure = none)
    (hsettled : ∀ a, ¬ OpenIn r a) :
    ∃ o, o ≠ .recover
      ∧ operationEligible (stateFromReplay r) r.candidateIntegrated o = true := by
  have hactive : unresolvedActivities (stateFromReplay r) = [] := by
    rw [unresolvedActivities, List.filter_eq_nil_iff]
    simp only [stateFromReplay, List.mem_map, decide_eq_true_eq]
    rintro _ ⟨a, ha, rfl⟩ hstage
    exact hsettled a ⟨ha, hstage⟩
  have hstanding : currentStanding r ≠ .closed :=
    fun heq => currentStanding_eq_closed.mp heq hclosed
  by_cases hframing : currentStanding r = .framing
  · have hcandidate : r.subjects.candidate = none := by
      by_contra hne
      exact h.subjects.candidateGoverned hne (standingFacts hframing).2.2.1
    cases hprepared : (stateFromReplay r).activities.find? fun a => a.operation = .prepare with
    | none =>
      refine ⟨.prepare, by simp, ?_⟩
      simp [operationEligible, hactive, hprepared, hframing, DeliveryOperation.descriptor,
        candidateSatisfies, concurrencyAllows, hcandidate]
    | some p =>
      have hdone : p.stage = .completed := by
        have hmem := List.mem_of_find?_eq_some hprepared
        simp only [stateFromReplay, List.mem_map] at hmem
        obtain ⟨a, ha, rfl⟩ := hmem
        by_contra hstage
        exact hsettled a ⟨ha, hstage⟩
      refine ⟨.noShip, by simp, ?_⟩
      simp [operationEligible, hactive, hprepared, hframing, DeliveryOperation.descriptor,
        candidateSatisfies, concurrencyAllows, hdone]
  · refine ⟨.noShip, by simp, ?_⟩
    simp only [operationEligible, hactive, hframing, candidateSatisfies, concurrencyAllows,
      DeliveryOperation.descriptor, stateFromReplay_standing]
    revert hstanding hframing
    cases currentStanding r <;> simp

/-- No event is accepted after a closure. -/
theorem append_of_closed (h : r.subjects.closure ≠ none) :
    append resolve r event ≠ .ok next := by
  intro happend
  obtain ⟨verified, -, -, hverified, -, -, hclosure, -⟩ := append_eq_ok.mp happend
  exact h ((verifyEnvelope_sameFacts hverified).subjects ▸ hclosure)

/-- **A well-structured replay**, with what it says of the operations that
are eligible in it and of the events it accepts. -/
structure WellStructured (resolve : DeliveryRecordRevisionResolver) (r : Replay) : Prop where
  oneOpen : (r.activityList.filter fun a => a.Unresolved).length ≤ 1
  recovery : ∀ a ∈ r.activityList, a.recovery = none ↔ a.stage = .completed
  candidateGoverned : r.subjects.candidate ≠ none → r.subjects.activeBoundary ≠ none
  sealOfCandidate : r.subjects.candidateSeal ≠ none → r.subjects.candidate ≠ none
  evidenceOfSeal : r.subjects.evidence ≠ none → r.subjects.candidateSeal ≠ none
  readinessOfEvidence : r.evidenceReadiness ≠ none ↔ r.subjects.evidence ≠ none
  revisesUnderCondition : r.subjects.proposedBoundary ≠ none →
    r.subjects.activeBoundary ≠ none → r.subjects.materialCondition ≠ none
  closed : (stateFromReplay r).standing = .closed →
    ¬ r.HasUnresolved ∧ (∀ event next, append resolve r event ≠ .ok next)
      ∧ (reducedState r).eligibleOperations = []
  notClosed : (stateFromReplay r).standing ≠ .closed →
    (reducedState r).eligibleOperations ≠ []
      ∧ ((reducedState r).eligibleOperations = [.recover] ↔ r.HasUnresolved)

/-- **The structure of a replay is well.** -/
theorem Structural.wellStructured (h : Structural r) : WellStructured resolve r where
  oneOpen := h.sequential.length_unresolved
  recovery := h.sequential.recoverable
  candidateGoverned := h.subjects.candidateGoverned
  sealOfCandidate := h.subjects.sealOfCandidate
  evidenceOfSeal := h.subjects.evidenceOfSeal
  readinessOfEvidence := h.subjects.readinessOfEvidence
  revisesUnderCondition := h.subjects.revisesUnderCondition
  closed hstanding := by
    have hclosed := currentStanding_eq_closed.mp hstanding
    refine ⟨?_, fun _ _ => append_of_closed hclosed, ?_⟩
    · rintro ⟨a, ha, hunresolved⟩
      exact h.settled hclosed a ⟨ha, hunresolved⟩
    · obtain ⟨-, heq⟩ | ⟨hopen, -⟩ | ⟨hopen, -⟩ := eligibleOperations_cases r
      · exact heq
      · exact absurd hopen hclosed
      · exact absurd hopen hclosed
  notClosed hstanding := by
    obtain ⟨hclosed, -⟩ | ⟨-, ⟨a, ha, -⟩, heq⟩ | ⟨hopen, hsettled, heq⟩ :=
      eligibleOperations_cases r
    · exact absurd (currentStanding_eq_closed.mpr hclosed) hstanding
    · refine ⟨by simp [reducedState, heq], ?_⟩
      simp only [reducedState, heq, true_iff]
      exact ⟨a, ha.1, ha.2⟩
    · have hnone : ∀ a, ¬ OpenIn r a := fun a ha => hsettled ⟨a, ha, h.owes ha⟩
      obtain ⟨o, hne, ho⟩ := h.exists_eligible hopen hnone
      have hmem : o ∈ eligibleOperations r := by
        rw [heq, List.mem_filter]
        exact ⟨o.mem_all, ho⟩
      refine ⟨List.ne_nil_of_mem hmem, ?_⟩
      constructor
      · intro hrecover
        replace hrecover : eligibleOperations r = [.recover] := hrecover
        rw [hrecover, List.mem_singleton] at hmem
        exact absurd hmem hne
      · rintro ⟨a, ha, hunresolved⟩
        exact absurd ⟨ha, hunresolved⟩ (hnone a)

/-- **Every replay the reducer can reach is well structured.** -/
theorem replay_wellStructured {events : List ControlRecordEvent}
    (h : replayDeliveryEvents resolve events = .ok r) : WellStructured resolve r :=
  (Structural.of_reachable (reachable_of_replay h)).wellStructured

/-- The admitted sample delivery is such a replay, with its candidate and
its active boundary. -/
theorem replay_wellStructured_sample : ∃ r events,
    replayDeliveryEvents (resolverOf Sample.admittedRevisions) events = .ok r
      ∧ (r.subjects.candidate.isSome && r.subjects.activeBoundary.isSome) = true
      ∧ WellStructured (resolverOf Sample.admittedRevisions) r := by
  have hadmits : ∀ entry ∈ Sample.admitted, entry.Admits := by decide +kernel
  have hreaches : Sample.reaches Sample.admittedRevisions Sample.admitted
      (fun r => r.subjects.candidate.isSome && r.subjects.activeBoundary.isSome) = true := by
    decide +kernel
  obtain ⟨r, events, hreplay, hfacts⟩ := Sample.exists_replay hadmits hreaches
  exact ⟨r, events, hreplay, hfacts, replay_wellStructured hreplay⟩
