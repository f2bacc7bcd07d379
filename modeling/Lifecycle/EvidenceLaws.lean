import Lifecycle.EvidenceEntries

/-!
# What satisfied evidence rests on

A satisfied obligation has no linked entry that is failed, missing, stale,
unsupported or indeterminate. That it has one which establishes something is
not the same: an entry may be neutral, and `foldedState` asks only that there
be entries at all. The obligations that are satisfied by neutral entries alone
are those of `OnlyNeutral`, a matter of the input. A supported disposition,
likewise, is a matter of the input (`supported_iff`), and it comes with an
unknown level of uncertainty exactly when some judgment of it is uncertain so
(`evidenceLaw_iff`).
-/

open Fallible Json ControlModel Timestamp SortedBy
open WorkProduct (Matches)

namespace Evidence

/-! ## Linked entries -/

/-- An entry of one of the ledgers. -/
inductive Entry
  | receipt (entry : ReceiptEntry)
  | proposition (entry : PropositionEntry)
  | artifact (entry : ArtifactEntry)
  | description (entry : DescriptionEntry)

def Entry.state : Entry → EvidenceState
  | receipt entry => entry.state
  | proposition entry => entry.state
  | artifact entry => entry.state
  | description entry => entry.state

/-- **An entry that stands against its obligations.** -/
def Entry.Adverse (x : Entry) : Prop :=
  x.state ∈ [EvidenceState.failed, .missing, .stale, .unsupported, .indeterminate]

theorem Entry.adverse_iff {x : Entry} : x.Adverse ↔ ¬ x.state.settled = true := by
  unfold Entry.Adverse
  cases x.state <;> decide

/-- **The entries linked to an obligation**: the receipts of the selections
that name it, in the phases these are required in, the decisions and the
artifacts it names, and the Descriptions that name it. -/
def Linked (facts : Requirements) (a : Assessment) (obligation : BoundaryObligation) :
    Entry → Prop
  | .receipt entry => entry ∈ a.receiptUse ∧ ∃ selection ∈ facts.checks,
      obligation.id ∈ selection.obligationIds ∧ entry.checkId = selection.id
        ∧ selection.required entry.phase = true
  | .proposition entry => entry ∈ a.propositions ∧ entry.propositionId ∈ obligation.propositionIds
  | .artifact entry =>
    entry ∈ a.artifacts ∧ entry.artifactId ∈ obligation.requiredEvidenceArtifactIds
  | .description entry => entry ∈ a.descriptions ∧ obligation.id ∈ entry.obligationIds

/-- **An entry that establishes something**: an executed legal receipt, a valid
decision, a satisfied artifact, a satisfied Description. -/
def Established (input : AssessmentInput) : Entry → Prop
  | .receipt entry => entry.use = .executed ∧ ∃ check ∈ input.checks,
      entry.receiptId = some check.reference.id ∧ check.phase = entry.phase
        ∧ check.selectionId = entry.checkId ∧ legalIn entry.phase check = true
  | .proposition entry => entry.validation = .valid
  | .artifact entry => entry.state = .satisfied
  | .description entry => entry.state = .satisfied

/-- **No vacuous evidence**: what is reported satisfied has an entry that
establishes something and none against it, and a supported disposition has
every required obligation so established and is not uncertain. -/
structure EvidenceLaw (input : AssessmentInput) (a : Assessment) : Prop where
  satisfied : ∀ entry ∈ a.obligations, entry.state = .satisfied →
    ∃ obligation ∈ input.requirements.obligations, obligation.id = entry.obligationId
      ∧ (∃ x, Linked input.requirements a obligation x ∧ Established input x)
      ∧ ∀ x, Linked input.requirements a obligation x → ¬ x.Adverse
  required : a.disposition = .supported → ∀ obligation ∈ input.requirements.obligations,
    obligation.severity = .required → ∃ entry ∈ a.obligations,
      entry.obligationId = obligation.id ∧ entry.state = .satisfied
        ∧ ∃ x, Linked input.requirements a obligation x ∧ Established input x
  certain : a.disposition = .supported →
    a.uncertainty.level = .none ∨ a.uncertainty.level = .bounded

/-- Whether everything an obligation names is among the requirements. -/
def Named (facts : Requirements) (obligation : BoundaryObligation) : Prop :=
  (∀ id ∈ obligation.requiredEvidenceArtifactIds, id ∈ facts.artifacts.map (·.id))
    ∧ ∀ id ∈ obligation.propositionIds, id ∈ facts.propositions.map (·.id)

/-! ## Assessments -/

/-- **An assessment**, with the receipts and the review it was made of. -/
structure Assessed (input : AssessmentInput) (a : Assessment) (evaluatedMs : Int)
    (receipt : ReceiptLedgers) (review : NormalizedReview) : Prop where
  checkIds : (input.requirements.checks.map (·.id)).Nodup
  obligationIds : (input.requirements.obligations.map (·.id)).Nodup
  artifactIds : (input.requirements.artifacts.map (·.id)).Nodup
  propositionIds : (input.requirements.propositions.map (·.id)).Nodup
  evaluated : dateParse input.observation.evaluatedAt = some evaluatedMs
  receipts : ReceiptsHold input.requirements input.checks evaluatedMs receipt
  receiptUse : a.receiptUse = receipt.entries
  reviewed : ReviewHold input.review input.requirements review
  propositions : propositionLedger input.review.reference input.requirements review
    = .ok a.propositions
  artifacts : ArtifactsHold input.observation.artifacts input.requirements a.artifacts
  descriptions : Matches Describes input.observation.descriptionCoverage a.descriptions
  independence : ∃ entry, a.independence = [entry] ∧ entry.state
    = independenceState input.contextSeparation input.observation.reviewerSubjectDisposition
  obligations : obligationLedger input.requirements
    ⟨a.receiptUse, a.propositions, a.artifacts, a.descriptions, review⟩ = .ok a.obligations
  uncertainty : uncertaintyLevel review a.obligations a.independence = .ok a.uncertainty
  disposition : a.disposition = if review.requiresMandateResolution then
      .mandateResolutionRequired
    else if supported receipt review a.propositions a.obligations a.artifacts a.descriptions
      a.independence input.observation.diagnostics then .supported
    else if a.uncertainty.level = .unknown then .indeterminate else .unmet

theorem assertIdentities_eq_ok {ids : List String} (h : assertIdentities ids = .ok ()) :
    ids.Nodup := by
  simp only [assertIdentities, bind_eq_ok, failIf_eq_ok, exists_unit, not_or, not_not] at h
  exact h.1.2

theorem exists_assessed {input : AssessmentInput} {a : Assessment}
    (h : assessFoundationEvidence input = .ok a) :
    ∃ evaluatedMs receipt review, Assessed input a evaluatedMs receipt review := by
  simp only [assessFoundationEvidence, assertInput, assertRequirements, bind_eq_ok, exists_unit,
    pure_eq_ok] at h
  obtain ⟨⟨-, -, -, ⟨hchecks, hobligations, hartifacts, hpropositions⟩, -⟩, evaluatedMs,
    hevaluated, receipt, hreceipt, review, hreview, propositions, hproposition, artifacts, hartifact,
    descriptions, hdescription, independence, hindependence, obligations, hobligation,
    uncertainty, huncertainty, rfl⟩ := h
  exact ⟨evaluatedMs, receipt, review, {
    checkIds := assertIdentities_eq_ok hchecks
    obligationIds := assertIdentities_eq_ok hobligations
    artifactIds := assertIdentities_eq_ok hartifacts
    propositionIds := assertIdentities_eq_ok hpropositions
    evaluated := timestamp_eq_ok hevaluated
    receipts := receiptLedgers_hold hreceipt
    receiptUse := rfl
    reviewed := reviewJudgments_hold hreview
    propositions := hproposition
    artifacts := artifactLedger_hold hartifact
    descriptions := descriptionLedger_matches hdescription
    independence := reviewerIndependence_eq_ok hindependence
    obligations := hobligation
    uncertainty := huncertainty
    disposition := rfl }⟩

namespace Assessed

variable {input : AssessmentInput} {a : Assessment} {evaluatedMs : Int}
  {receipt : ReceiptLedgers} {review : NormalizedReview}

/-- The ledgers the obligations of an assessment are judged by. -/
def ledgers (a : Assessment) (review : NormalizedReview) : Ledgers :=
  ⟨a.receiptUse, a.propositions, a.artifacts, a.descriptions, review⟩

theorem distinct_propositions (h : Assessed input a evaluatedMs receipt review) :
    (a.propositions.map (·.propositionId)).Nodup := by
  rw [map_eq_of_mapM (fun _ _ hentry => (propositionEntry_eq_ok hentry).1) h.propositions]
  exact h.reviewed.distinct

theorem distinct_artifacts (h : Assessed input a evaluatedMs receipt review) :
    (a.artifacts.map (·.artifactId)).Nodup :=
  h.artifacts.keys.nodup_iff.mpr h.artifactIds

/-- **The states an obligation is judged by are those of its linked entries.** -/
theorem mem_values_iff (h : Assessed input a evaluatedMs receipt review)
    {obligation : BoundaryObligation} {state : EvidenceState} :
    state ∈ (ledgers a review).values input.requirements obligation
      ↔ ∃ x, Linked input.requirements a obligation x ∧ x.state = state := by
  simp only [Ledgers.values, Ledgers.receipts, Ledgers.checkSelections, Ledgers.propositionEntries,
    Ledgers.artifactEntries, Ledgers.descriptionEntries, ledgers, List.mem_append, List.mem_map,
    List.mem_flatMap, List.mem_filter, decide_eq_true_eq,
    mem_filterMap_mapGet h.distinct_propositions, mem_filterMap_mapGet h.distinct_artifacts]
  constructor
  · rintro (((⟨entry, ⟨selection, ⟨hs, ho⟩, ⟨he, hid⟩, hr⟩, rfl⟩ | ⟨entry, hl, rfl⟩)
      | ⟨entry, hl, rfl⟩) | ⟨entry, hl, rfl⟩)
    · exact ⟨.receipt entry, ⟨he, selection, hs, ho, hid, hr⟩, rfl⟩
    · exact ⟨.proposition entry, hl, rfl⟩
    · exact ⟨.artifact entry, hl, rfl⟩
    · exact ⟨.description entry, hl, rfl⟩
  · rintro ⟨entry | entry | entry | entry, hl, rfl⟩
    · obtain ⟨he, selection, hs, ho, hid, hr⟩ := hl
      exact .inl (.inl (.inl ⟨entry, ⟨selection, ⟨hs, ho⟩, ⟨he, hid⟩, hr⟩, rfl⟩))
    · exact .inl (.inl (.inr ⟨entry, hl, rfl⟩))
    · exact .inl (.inr ⟨entry, hl, rfl⟩)
    · exact .inr ⟨entry, hl, rfl⟩

theorem values_ne_nil_iff (h : Assessed input a evaluatedMs receipt review)
    {obligation : BoundaryObligation} :
    (ledgers a review).values input.requirements obligation ≠ []
      ↔ ∃ x, Linked input.requirements a obligation x := by
  rw [← List.length_pos_iff, List.length_pos_iff_exists_mem]
  simp only [h.mem_values_iff]
  exact ⟨fun ⟨_, x, hx, _⟩ => ⟨x, hx⟩, fun ⟨x, hx⟩ => ⟨x.state, x, hx, rfl⟩⟩

theorem forall_values_iff (h : Assessed input a evaluatedMs receipt review)
    {obligation : BoundaryObligation} :
    (∀ value ∈ (ledgers a review).values input.requirements obligation, value.settled = true)
      ↔ ∀ x, Linked input.requirements a obligation x → x.state.settled = true := by
  simp only [h.mem_values_iff]
  exact ⟨fun hall x hx => hall _ ⟨x, hx, rfl⟩, fun hall _ ⟨x, hx, hstate⟩ => hstate ▸ hall x hx⟩

/-- Every obligation has its entry, and every entry its obligation. -/
theorem obligations_matches (h : Assessed input a evaluatedMs receipt review) :
    Matches (fun obligation entry => entry.obligationId = obligation.id
      ∧ entry.state = ((ledgers a review).obligationState input.requirements obligation).1)
      input.requirements.obligations a.obligations := by
  have hledger := h.obligations
  simp only [obligationLedger, bind_eq_ok, pure_eq_ok] at hledger
  obtain ⟨entries, hentries, hsorted⟩ := hledger
  rw [← hsorted]
  refine matches_sortOn (.of_mapM hentries fun obligation _ entry hentry => ?_) _
  simp only [Ledgers.obligationEntry, bind_eq_ok, pure_eq_ok] at hentry
  obtain ⟨id, -, receiptIds, -, decisionIds, -, artifactIds, -, rfl⟩ := hentry
  exact ⟨rfl, rfl⟩

theorem mem_propositionIds_iff (h : Assessed input a evaluatedMs receipt review) {id : String} :
    id ∈ a.propositions.map (·.propositionId) ↔ id ∈ input.requirements.propositions.map (·.id) := by
  simp only [List.mem_map]
  constructor
  · rintro ⟨entry, hentry, rfl⟩
    obtain ⟨judgment, -, hj⟩ := (matches_mapM h.propositions).source entry hentry
    obtain ⟨hid, proposition, hp, hpid, -⟩ := propositionEntry_eq_ok hj
    exact ⟨proposition, hp, hpid.trans hid.symm⟩
  · rintro ⟨proposition, hp, rfl⟩
    obtain ⟨judgment, hj, hid⟩ := h.reviewed.covered proposition hp
    obtain ⟨entry, hentry, hmade⟩ := (matches_mapM h.propositions).value judgment hj
    exact ⟨entry, hentry, (propositionEntry_eq_ok hmade).1.trans hid⟩

/-- The tests of an obligation before its entries are judged. -/
theorem named_iff (h : Assessed input a evaluatedMs receipt review)
    {obligation : BoundaryObligation} : Named input.requirements obligation
      ↔ ((ledgers a review).artifactEntries obligation).length
          = obligation.requiredEvidenceArtifactIds.length
        ∧ ((ledgers a review).propositionEntries obligation).length
          = obligation.propositionIds.length := by
  simp only [Ledgers.artifactEntries, Ledgers.propositionEntries, length_filterMap_eq_iff,
    mapGet_isSome_iff, ledgers, h.mem_propositionIds_iff, h.artifacts.keys.mem_iff, Named]

theorem obligationState_eq (h : Assessed input a evaluatedMs receipt review)
    (obligation : BoundaryObligation) :
    ((ledgers a review).obligationState input.requirements obligation).1
        = (foldedState obligation.severity
          ((ledgers a review).values input.requirements obligation)).1
      ∧ obligation.id ∉ input.review.missingObligationIds ∧ Named input.requirements obligation
    ∨ ((ledgers a review).obligationState input.requirements obligation).1 = .missing
      ∧ ¬ (obligation.id ∉ input.review.missingObligationIds
        ∧ Named input.requirements obligation) := by
  rw [h.named_iff, ← h.reviewed.missing obligation.id]
  unfold Ledgers.obligationState
  split_ifs with hmissing hlength
  · exact .inr ⟨rfl, fun hnot => hnot.1 hmissing⟩
  · refine .inr ⟨rfl, fun hnot => ?_⟩
    exact hlength.elim (· hnot.2.1) (· hnot.2.2)
  · push Not at hlength
    exact .inl ⟨rfl, hmissing, hlength⟩

/-- **When an obligation is satisfied**: it is not reported missing, what it
names is there, it has entries, and all of them are settled. -/
theorem satisfied_iff (h : Assessed input a evaluatedMs receipt review)
    {obligation : BoundaryObligation} :
    ((ledgers a review).obligationState input.requirements obligation).1 = .satisfied
      ↔ (obligation.id ∉ input.review.missingObligationIds
          ∧ Named input.requirements obligation)
        ∧ (∃ x, Linked input.requirements a obligation x)
        ∧ ∀ x, Linked input.requirements a obligation x → x.state.settled = true := by
  obtain ⟨hstate, hnamed⟩ | ⟨hstate, hnamed⟩ := h.obligationState_eq obligation
  · rw [hstate, foldedState_satisfied_iff, h.values_ne_nil_iff, h.forall_values_iff]
    exact (and_iff_right hnamed).symm
  · rw [hstate]
    exact iff_of_false (by decide) fun hall => hnamed hall.1

/-- When an obligation is settled: a diagnostic one need not have entries. -/
theorem settled_iff (h : Assessed input a evaluatedMs receipt review)
    {obligation : BoundaryObligation} :
    ((ledgers a review).obligationState input.requirements obligation).1.settled = true
      ↔ (obligation.id ∉ input.review.missingObligationIds
          ∧ Named input.requirements obligation)
        ∧ ((∃ x, Linked input.requirements a obligation x) ∨ obligation.severity = .diagnostic)
        ∧ ∀ x, Linked input.requirements a obligation x → x.state.settled = true := by
  obtain ⟨hstate, hnamed⟩ | ⟨hstate, hnamed⟩ := h.obligationState_eq obligation
  · rw [hstate, foldedState_settled_iff, h.values_ne_nil_iff, h.forall_values_iff]
    exact (and_iff_right hnamed).symm
  · rw [hstate]
    exact iff_of_false (by decide) fun hall => hnamed hall.1

/-! ## Neutral entries -/

/-- A linked receipt is that of a selection in a phase it is required in. -/
theorem linked_receipt_iff (h : Assessed input a evaluatedMs receipt review)
    {obligation : BoundaryObligation} {entry : ReceiptEntry} :
    Linked input.requirements a obligation (.receipt entry)
      ↔ ∃ selection ∈ input.requirements.checks, obligation.id ∈ selection.obligationIds
        ∧ selection.required entry.phase = true ∧ ∃ complete,
          receiptEntry input.checks evaluatedMs (selection, entry.phase)
            = .ok (entry, complete) := by
  constructor
  · rintro ⟨hentry, selection, hs, ho, hid, hrequired⟩
    rw [h.receiptUse] at hentry
    obtain ⟨made, hm, phase, complete, hmade⟩ := (h.receipts.entries entry).mp hentry
    obtain ⟨-, -, hcheckId, rfl, -⟩ := receiptEntry_eq_ok hmade
    obtain rfl := List.inj_on_of_nodup_map h.checkIds hs hm (hid.symm.trans hcheckId)
    exact ⟨selection, hs, ho, hrequired, complete, hmade⟩
  · rintro ⟨selection, hs, ho, hrequired, complete, hmade⟩
    obtain ⟨-, -, hcheckId, -⟩ := receiptEntry_eq_ok hmade
    refine ⟨?_, selection, hs, ho, hcheckId, hrequired⟩
    rw [h.receiptUse]
    exact (h.receipts.entries entry).mpr ⟨selection, hs, entry.phase, complete, hmade⟩

end Assessed

/-- **A neutral entry**: a receipt of what was not executed, or a Description
that is excluded. -/
def Entry.Neutral : Entry → Prop
  | .receipt entry => entry.use = .excluded
  | .proposition _ => False
  | .artifact _ => False
  | .description entry => entry.state = .notApplicable

theorem Entry.Neutral.not_established {input : AssessmentInput} {x : Entry} (h : x.Neutral) :
    ¬ Established input x := by
  intro hestablished
  cases x with
  | receipt entry => exact nomatch h.symm.trans hestablished.1
  | proposition entry => exact h
  | artifact entry => exact h
  | description entry => exact nomatch h.symm.trans hestablished

theorem descriptionState_eq_notApplicable_iff {observation : DescriptionObservation} :
    descriptionState observation = .notApplicable ↔ observation.ownership = .excluded := by
  unfold descriptionState
  split_ifs with hindeterminate hexcluded hexact
  · exact iff_of_false (by decide) fun h => nomatch hindeterminate.symm.trans h
  · exact iff_of_true rfl hexcluded
  · exact iff_of_false (by decide) hexcluded
  · exact iff_of_false (by decide) hexcluded

theorem artifactState_ne_notApplicable {artifact : BoundaryArtifact}
    {observation : ArtifactObservation} : artifactState artifact observation ≠ .notApplicable := by
  unfold artifactState
  split_ifs <;> decide

namespace Assessed

variable {input : AssessmentInput} {a : Assessment} {evaluatedMs : Int}
  {receipt : ReceiptLedgers} {review : NormalizedReview}

/-- **A settled entry is neutral or establishes something.** -/
theorem neutral_or_established (h : Assessed input a evaluatedMs receipt review)
    {obligation : BoundaryObligation} {x : Entry}
    (hx : Linked input.requirements a obligation x) (hsettled : x.state.settled = true) :
    x.Neutral ∨ Established input x := by
  cases x with
  | receipt entry =>
    obtain ⟨selection, hs, ho, hrequired, complete, hmade⟩ := h.linked_receipt_iff.mp hx
    change entry.state.settled = true at hsettled
    cases hcheck : receiptAt input.checks entry.phase selection.id with
    | none =>
      rw [receiptEntry_missing hmade hcheck hrequired] at hsettled
      exact nomatch hsettled
    | some check =>
      by_cases hauthorized : isFoundationAuthorizedBaselinePostcondition check = true
      · exact .inl (receiptEntry_authorized hmade hcheck hauthorized).1
      · obtain ⟨huse, hstate, -⟩ :=
          receiptEntry_executed h.evaluated hmade hcheck hauthorized
        obtain ⟨-, -, hcheckId, -, hreceiptId, -⟩ := receiptEntry_eq_ok hmade
        obtain ⟨hmem, hphase, hselection⟩ := receiptAt_eq_some hcheck
        rw [hcheck] at hreceiptId
        exact .inr ⟨huse, check, hmem, hreceiptId, hphase, hselection.trans hcheckId.symm,
          (hstate.mp hsettled).1⟩
  | proposition entry =>
    refine .inr ?_
    change (PropositionEntry.state entry).settled = true at hsettled
    cases hvalidation : entry.validation <;>
      simp [PropositionEntry.state, hvalidation, EvidenceState.settled] at hsettled
    exact hvalidation
  | artifact entry =>
    refine .inr ?_
    obtain ⟨artifact, -, -, observation, -, -, hstate⟩ := h.artifacts.entries.source entry hx.1
    obtain hs | hs := of_decide_eq_true hsettled
    · exact hs
    · exact absurd (hstate.symm.trans hs) artifactState_ne_notApplicable
  | description entry => exact (of_decide_eq_true hsettled).symm

end Assessed

/-- **An obligation that only neutral facts are linked to**: it names nothing,
no selection that names it is required to be final, those required of the
baseline have receipts of postconditions authorized not to run, and the
Descriptions that name it are excluded. -/
structure OnlyNeutral (input : AssessmentInput) (obligation : BoundaryObligation) : Prop where
  admitted : obligation.id ∉ input.review.missingObligationIds
  artifacts : obligation.requiredEvidenceArtifactIds = []
  propositions : obligation.propositionIds = []
  final : ∀ selection ∈ input.requirements.checks, obligation.id ∈ selection.obligationIds →
    selection.finalRequired = false
  baseline : ∀ selection ∈ input.requirements.checks, obligation.id ∈ selection.obligationIds →
    selection.baselineRequired = true → ∃ check ∈ input.checks,
      check.selectionId = selection.id ∧ isFoundationAuthorizedBaselinePostcondition check = true
  descriptions : ∀ observation ∈ input.observation.descriptionCoverage,
    obligation.id ∈ observation.obligationIds → observation.ownership = .excluded
  linked : (∃ selection ∈ input.requirements.checks, obligation.id ∈ selection.obligationIds
      ∧ selection.baselineRequired = true)
    ∨ ∃ observation ∈ input.observation.descriptionCoverage,
      obligation.id ∈ observation.obligationIds

theorem phase_of_authorized {check : RetainedCheck}
    (h : isFoundationAuthorizedBaselinePostcondition check = true) : check.phase = .baseline :=
  (of_decide_eq_true h).1

namespace Assessed

variable {input : AssessmentInput} {a : Assessment} {evaluatedMs : Int}
  {receipt : ReceiptLedgers} {review : NormalizedReview}

/-- A baseline receipt that is required is linked to the obligations its
selection names. -/
theorem exists_linked_receipt (h : Assessed input a evaluatedMs receipt review)
    {obligation : BoundaryObligation} {selection : CheckSelection} {phase : CheckPhase}
    (hs : selection ∈ input.requirements.checks) (ho : obligation.id ∈ selection.obligationIds)
    (hrequired : selection.required phase = true) : ∃ entry complete,
      Linked input.requirements a obligation (.receipt entry) ∧ entry.phase = phase
        ∧ receiptEntry input.checks evaluatedMs (selection, phase) = .ok (entry, complete) := by
  obtain ⟨⟨entry, complete⟩, hmade⟩ := h.receipts.recorded selection hs phase
  obtain ⟨-, -, -, hphase, -⟩ := receiptEntry_eq_ok hmade
  subst hphase
  exact ⟨entry, complete,
    h.linked_receipt_iff.mpr ⟨selection, hs, ho, hrequired, complete, hmade⟩, rfl, hmade⟩

theorem exists_linked_description (h : Assessed input a evaluatedMs receipt review)
    {obligation : BoundaryObligation} {observation : DescriptionObservation}
    (hobservation : observation ∈ input.observation.descriptionCoverage)
    (ho : obligation.id ∈ observation.obligationIds) : ∃ entry,
      Linked input.requirements a obligation (.description entry)
        ∧ entry.state = descriptionState observation := by
  obtain ⟨entry, hentry, hstate, hids⟩ := h.descriptions.value observation hobservation
  exact ⟨entry, ⟨hentry, (hids _).mpr ho⟩, hstate⟩

/-- What is linked to such an obligation is neutral, and settled. -/
theorem neutral_of_onlyNeutral (h : Assessed input a evaluatedMs receipt review)
    {obligation : BoundaryObligation} (honly : OnlyNeutral input obligation) {x : Entry}
    (hx : Linked input.requirements a obligation x) : x.Neutral ∧ x.state.settled = true := by
  cases x with
  | receipt entry =>
    obtain ⟨selection, hs, ho, hrequired, complete, hmade⟩ := h.linked_receipt_iff.mp hx
    cases hphase : entry.phase with
    | final =>
      rw [hphase] at hrequired
      exact nomatch hrequired.symm.trans (honly.final selection hs ho)
    | baseline =>
      rw [hphase] at hrequired hmade
      obtain ⟨check, hc, hid, hauthorized⟩ := honly.baseline selection hs ho hrequired
      have hcheck := receiptAt_of_mem h.receipts.distinct hc
      rw [phase_of_authorized hauthorized, hid] at hcheck
      obtain ⟨huse, -, hstate⟩ := receiptEntry_authorized hmade hcheck hauthorized
      exact ⟨huse, by rw [Entry.state, hstate]; rfl⟩
  | proposition entry => exact nomatch honly.propositions ▸ hx.2
  | artifact entry => exact nomatch honly.artifacts ▸ hx.2
  | description entry =>
    obtain ⟨observation, hobservation, hstate, hids⟩ := h.descriptions.source entry hx.1
    have hneutral : entry.state = .notApplicable := by
      rw [hstate, descriptionState_eq_notApplicable_iff]
      exact honly.descriptions observation hobservation ((hids _).mp hx.2)
    exact ⟨hneutral, by rw [Entry.state, hneutral]; rfl⟩

/-- **The obligations that are satisfied by neutral entries alone.** -/
theorem onlyNeutral_iff (h : Assessed input a evaluatedMs receipt review)
    {obligation : BoundaryObligation} : OnlyNeutral input obligation
      ↔ ((ledgers a review).obligationState input.requirements obligation).1 = .satisfied
        ∧ ∀ x, Linked input.requirements a obligation x → x.Neutral := by
  rw [h.satisfied_iff]
  constructor
  · intro honly
    refine ⟨⟨⟨honly.admitted, ?_⟩, ?_, fun x hx => (h.neutral_of_onlyNeutral honly hx).2⟩,
      fun x hx => (h.neutral_of_onlyNeutral honly hx).1⟩
    · simp [Named, honly.artifacts, honly.propositions]
    · obtain ⟨selection, hs, ho, hrequired⟩ | ⟨observation, hobservation, ho⟩ := honly.linked
      · have hbaseline : selection.required .baseline = true := hrequired
        obtain ⟨entry, -, hlinked, -⟩ := h.exists_linked_receipt hs ho hbaseline
        exact ⟨_, hlinked⟩
      · obtain ⟨entry, hlinked, -⟩ := h.exists_linked_description hobservation ho
        exact ⟨_, hlinked⟩
  · rintro ⟨⟨⟨hadmitted, hartifacts, hpropositions⟩, ⟨x, hx⟩, hsettled⟩, hneutral⟩
    have hexcluded : ∀ selection ∈ input.requirements.checks,
        obligation.id ∈ selection.obligationIds → ∀ phase, selection.required phase = true →
        ∃ check ∈ input.checks, check.phase = phase ∧ check.selectionId = selection.id
          ∧ isFoundationAuthorizedBaselinePostcondition check = true := by
      intro selection hs ho phase hrequired
      obtain ⟨entry, complete, hlinked, rfl, hmade⟩ := h.exists_linked_receipt hs ho hrequired
      have huse : entry.use = .excluded := hneutral _ hlinked
      cases hcheck : receiptAt input.checks entry.phase selection.id with
      | none =>
        have hstate := hsettled _ hlinked
        rw [Entry.state, receiptEntry_missing hmade hcheck hrequired] at hstate
        exact nomatch hstate
      | some check =>
        obtain ⟨hmem, hphase, hid⟩ := receiptAt_eq_some hcheck
        refine ⟨check, hmem, hphase, hid, ?_⟩
        by_contra hauthorized
        exact nomatch huse.symm.trans
          (receiptEntry_executed h.evaluated hmade hcheck hauthorized).1
    refine ⟨hadmitted, ?_, ?_, fun selection hs ho => ?_, fun selection hs ho hrequired => ?_,
      fun observation hobservation ho => ?_, ?_⟩
    · refine List.eq_nil_iff_forall_not_mem.mpr fun id hid => ?_
      obtain ⟨artifact, ha, rfl⟩ := List.mem_map.mp (hartifacts id hid)
      obtain ⟨entry, hentry, heq, -⟩ := h.artifacts.entries.value artifact ha
      exact hneutral (.artifact entry) ⟨hentry, heq ▸ hid⟩
    · refine List.eq_nil_iff_forall_not_mem.mpr fun id hid => ?_
      obtain ⟨entry, hentry, rfl⟩ :=
        List.mem_map.mp (h.mem_propositionIds_iff.mpr (hpropositions id hid))
      exact hneutral (.proposition entry) ⟨hentry, hid⟩
    · rw [← Bool.not_eq_true]
      intro hrequired
      obtain ⟨check, -, hphase, -, hauthorized⟩ := hexcluded selection hs ho .final hrequired
      exact nomatch hphase.symm.trans (phase_of_authorized hauthorized)
    · obtain ⟨check, hc, -, hid, hauthorized⟩ := hexcluded selection hs ho .baseline hrequired
      exact ⟨check, hc, hid, hauthorized⟩
    · obtain ⟨entry, hlinked, hstate⟩ := h.exists_linked_description hobservation ho
      exact descriptionState_eq_notApplicable_iff.mp (hstate.symm.trans (hneutral _ hlinked))
    · cases x with
      | receipt entry =>
        obtain ⟨selection, hs, ho, hrequired, -⟩ := h.linked_receipt_iff.mp hx
        obtain ⟨check, -, hphase, -, hauthorized⟩ :=
          hexcluded selection hs ho entry.phase hrequired
        rw [← hphase, phase_of_authorized hauthorized] at hrequired
        exact .inl ⟨selection, hs, ho, hrequired⟩
      | proposition entry => exact absurd (hneutral _ hx) id
      | artifact entry => exact absurd (hneutral _ hx) id
      | description entry =>
        obtain ⟨observation, hobservation, -, hids⟩ := h.descriptions.source entry hx.1
        exact .inr ⟨observation, hobservation, (hids _).mp hx.2⟩

end Assessed

/-! ## Support -/

/-- Whether anything is linked to an obligation. -/
def Routed (input : AssessmentInput) (obligation : BoundaryObligation) : Prop :=
  obligation.requiredEvidenceArtifactIds ≠ [] ∨ obligation.propositionIds ≠ []
    ∨ (∃ selection ∈ input.requirements.checks, obligation.id ∈ selection.obligationIds
        ∧ ∃ phase, selection.required phase = true)
    ∨ ∃ observation ∈ input.observation.descriptionCoverage,
        obligation.id ∈ observation.obligationIds

/-- **What supports a Candidate**, in terms of the facts alone. -/
structure Supporting (input : AssessmentInput) : Prop where
  resolved : reviewRequiresMandateResolution input.review.mandateApplicability.disposition
    (input.review.baselineApplicability.map (·.disposition)) input.review.mandateExcess
    input.review.missingObligationIds input.review.overallUncertainty
    (input.review.judgments.map (·.uncertainty)) = false
  mandate : input.review.mandateApplicability.disposition = .applicable
  baseline : ∀ item ∈ input.review.baselineApplicability, item.disposition = .applicable
  overall : input.review.overallUncertainty ≠ .unknown
  recorded : ∀ selection ∈ input.requirements.checks, ∀ phase, selection.required phase = true →
    ∃ check ∈ input.checks, check.phase = phase ∧ check.selectionId = selection.id
  legal : ∀ check ∈ input.checks, legalIn check.phase check = true
  timely : ∀ check ∈ input.checks, isFoundationAuthorizedBaselinePostcondition check = true
    ∨ FinishedBy input.observation.evaluatedAt check
  judged : ∀ judgment ∈ input.review.judgments, ∀ proposition ∈ input.requirements.propositions,
    proposition.id = judgment.propositionId → propositionValidation proposition judgment = .valid
  produced : ∀ artifact ∈ input.requirements.artifacts,
    ∀ observation ∈ input.observation.artifacts, observation.artifactId = artifact.id →
      artifactState artifact observation = .satisfied
  described : ∀ observation ∈ input.observation.descriptionCoverage,
    (descriptionState observation).settled = true
  independent : input.contextSeparation = .distinct
    ∧ input.observation.reviewerSubjectDisposition = .exactReadOnly
  undiagnosed : input.observation.diagnostics = []
  routed : ∀ obligation ∈ input.requirements.obligations, Named input.requirements obligation
    ∧ (Routed input obligation ∨ obligation.severity = .diagnostic)

theorem legal_of_diagnostic {check : RetainedCheck} (h : check.modality = .diagnostic) :
    legalIn check.phase check = true := by
  cases hphase : check.phase <;> simp [legalIn, legalBaseline, legalFinal, hphase, h]

namespace Assessed

variable {input : AssessmentInput} {a : Assessment} {evaluatedMs : Int}
  {receipt : ReceiptLedgers} {review : NormalizedReview}

theorem exists_linked_iff (h : Assessed input a evaluatedMs receipt review)
    {obligation : BoundaryObligation} (hnamed : Named input.requirements obligation) :
    (∃ x, Linked input.requirements a obligation x) ↔ Routed input obligation := by
  constructor
  · rintro ⟨entry | entry | entry | entry, hx⟩
    · obtain ⟨selection, hs, ho, hrequired, -⟩ := h.linked_receipt_iff.mp hx
      exact .inr (.inr (.inl ⟨selection, hs, ho, _, hrequired⟩))
    · exact .inr (.inl (List.ne_nil_of_mem hx.2))
    · exact .inl (List.ne_nil_of_mem hx.2)
    · obtain ⟨observation, hobservation, -, hids⟩ := h.descriptions.source entry hx.1
      exact .inr (.inr (.inr ⟨observation, hobservation, (hids _).mp hx.2⟩))
  · rintro (hne | hne | ⟨selection, hs, ho, phase, hrequired⟩ | ⟨observation, hobservation, ho⟩)
    · obtain ⟨id, hid⟩ := List.exists_mem_of_ne_nil _ hne
      obtain ⟨artifact, ha, rfl⟩ := List.mem_map.mp (hnamed.1 id hid)
      obtain ⟨entry, hentry, heq, -⟩ := h.artifacts.entries.value artifact ha
      exact ⟨.artifact entry, hentry, heq ▸ hid⟩
    · obtain ⟨id, hid⟩ := List.exists_mem_of_ne_nil _ hne
      obtain ⟨entry, hentry, rfl⟩ :=
        List.mem_map.mp (h.mem_propositionIds_iff.mpr (hnamed.2 id hid))
      exact ⟨.proposition entry, hentry, hid⟩
    · obtain ⟨entry, -, hlinked, -⟩ := h.exists_linked_receipt hs ho hrequired
      exact ⟨_, hlinked⟩
    · obtain ⟨entry, hlinked, -⟩ := h.exists_linked_description hobservation ho
      exact ⟨_, hlinked⟩

/-- **The receipts are complete and legal** when every required one is there
and every one that is there is legal and, if it was executed, finished in
time. -/
theorem completeAndLegal_iff (h : Assessed input a evaluatedMs receipt review) :
    receipt.completeAndLegal = true
      ↔ (∀ selection ∈ input.requirements.checks, ∀ phase, selection.required phase = true →
          ∃ check ∈ input.checks, check.phase = phase ∧ check.selectionId = selection.id)
        ∧ (∀ check ∈ input.checks, legalIn check.phase check = true)
        ∧ ∀ check ∈ input.checks, isFoundationAuthorizedBaselinePostcondition check = true
          ∨ FinishedBy input.observation.evaluatedAt check := by
  rw [h.receipts.complete]
  constructor
  · intro hall
    have hat : ∀ check ∈ input.checks, legalIn check.phase check = true
        ∧ (isFoundationAuthorizedBaselinePostcondition check = true
          ∨ FinishedBy input.observation.evaluatedAt check) := by
      intro check hc
      obtain ⟨selection, hs, hid, hmodality⟩ := h.receipts.matched check hc
      obtain ⟨⟨entry, complete⟩, hmade⟩ := h.receipts.recorded selection hs check.phase
      have hcheck := receiptAt_of_mem h.receipts.distinct hc
      rw [← hid] at hcheck
      have hcomplete : complete = true := hall selection hs check.phase _ hmade
      obtain ⟨-, -, -, -, -, -, -, heq⟩ := receiptEntry_eq_ok hmade
      rw [hcheck, hcomplete, eq_comm] at heq
      simp only [completeAndLegal, Bool.and_eq_true, Bool.or_eq_true, Bool.not_eq_true',
        Bool.or_eq_false_iff, decide_eq_false_iff_not, decide_eq_true_eq, not_not] at heq
      refine ⟨heq.1.elim id fun hdiagnostic =>
        legal_of_diagnostic (hmodality.trans hdiagnostic.2), ?_⟩
      by_cases hauthorized : isFoundationAuthorizedBaselinePostcondition check = true
      · exact .inl hauthorized
      · exact .inr ((receiptEntry_executed h.evaluated hmade hcheck hauthorized).2.2.mp heq.2)
    refine ⟨fun selection hs phase hrequired => ?_, fun check hc => (hat check hc).1,
      fun check hc => (hat check hc).2⟩
    obtain ⟨⟨entry, complete⟩, hmade⟩ := h.receipts.recorded selection hs phase
    have hcomplete : complete = true := hall selection hs phase _ hmade
    obtain ⟨-, -, -, -, -, -, -, heq⟩ := receiptEntry_eq_ok hmade
    cases hcheck : receiptAt input.checks phase selection.id with
    | none => simp [hcheck, hcomplete, completeAndLegal, hrequired] at heq
    | some check => exact ⟨check, receiptAt_eq_some hcheck⟩
  · rintro ⟨hrecorded, hlegal, htimely⟩ selection hs phase ⟨entry, complete⟩ hmade
    obtain ⟨-, -, -, -, -, -, -, heq⟩ := receiptEntry_eq_ok hmade
    change complete = true
    rw [heq]
    cases hcheck : receiptAt input.checks phase selection.id with
    | none =>
      rw [completeAndLegal, Bool.not_eq_true', ← Bool.not_eq_true]
      intro hrequired
      obtain ⟨check, hc, rfl, hid⟩ := hrecorded selection hs phase hrequired
      have hsome := receiptAt_of_mem h.receipts.distinct hc
      rw [hid, hcheck] at hsome
      exact nomatch hsome
    | some check =>
      obtain ⟨hmem, rfl, -⟩ := receiptAt_eq_some hcheck
      have hfresh : entry.freshness = .fresh ∨ entry.freshness = .notApplicable := by
        by_cases hauthorized : isFoundationAuthorizedBaselinePostcondition check = true
        · exact .inr (receiptEntry_authorized hmade hcheck hauthorized).2.1
        · exact (receiptEntry_executed h.evaluated hmade hcheck hauthorized).2.2.mpr
            ((htimely check hmem).resolve_left hauthorized)
      simp [completeAndLegal, hlegal check hmem, hfresh]

theorem propositions_valid_iff (h : Assessed input a evaluatedMs receipt review) :
    (∀ entry ∈ a.propositions, entry.validation = .valid)
      ↔ ∀ judgment ∈ input.review.judgments, ∀ proposition ∈ input.requirements.propositions,
        proposition.id = judgment.propositionId →
          propositionValidation proposition judgment = .valid := by
  constructor
  · intro hall judgment hj proposition hp hid
    obtain ⟨judged, hjudged, hsame⟩ := h.reviewed.judgments.value judgment hj
    obtain ⟨entry, hentry, hmade⟩ := (matches_mapM h.propositions).value judged hjudged
    obtain ⟨-, named, hn, hnid, hvalidation⟩ := propositionEntry_eq_ok hmade
    obtain rfl := List.inj_on_of_nodup_map h.propositionIds hp hn
      (hid.trans (hsame.propositionId.symm.trans hnid.symm))
    rw [← hsame.validation, ← hvalidation]
    exact hall entry hentry
  · intro hall entry hentry
    obtain ⟨judged, hjudged, hmade⟩ := (matches_mapM h.propositions).source entry hentry
    obtain ⟨-, proposition, hp, hid, hvalidation⟩ := propositionEntry_eq_ok hmade
    obtain ⟨judgment, hj, hsame⟩ := h.reviewed.judgments.source judged hjudged
    rw [hvalidation, hsame.validation]
    exact hall judgment hj proposition hp (hid.trans hsame.propositionId)

theorem artifacts_satisfied_iff (h : Assessed input a evaluatedMs receipt review) :
    (∀ entry ∈ a.artifacts, entry.state = .satisfied)
      ↔ ∀ artifact ∈ input.requirements.artifacts, ∀ observation ∈ input.observation.artifacts,
        observation.artifactId = artifact.id →
          artifactState artifact observation = .satisfied := by
  constructor
  · intro hall artifact ha observation ho hid
    obtain ⟨entry, hentry, -, seen, hs, hseen, hstate⟩ := h.artifacts.entries.value artifact ha
    obtain rfl := List.inj_on_of_nodup_map h.artifacts.observed ho hs (hid.trans hseen.symm)
    exact hstate ▸ hall entry hentry
  · intro hall entry hentry
    obtain ⟨artifact, ha, -, observation, ho, hid, hstate⟩ :=
      h.artifacts.entries.source entry hentry
    exact hstate ▸ hall artifact ha observation ho hid

theorem descriptions_settled_iff (h : Assessed input a evaluatedMs receipt review) :
    (∀ entry ∈ a.descriptions, entry.state.settled = true)
      ↔ ∀ observation ∈ input.observation.descriptionCoverage,
        (descriptionState observation).settled = true := by
  constructor
  · intro hall observation ho
    obtain ⟨entry, hentry, hstate, -⟩ := h.descriptions.value observation ho
    exact hstate ▸ hall entry hentry
  · intro hall entry hentry
    obtain ⟨observation, ho, hstate, -⟩ := h.descriptions.source entry hentry
    exact hstate ▸ hall observation ho

theorem independence_satisfied_iff (h : Assessed input a evaluatedMs receipt review) :
    (∀ entry ∈ a.independence, entry.state = .satisfied) ↔ input.contextSeparation = .distinct
      ∧ input.observation.reviewerSubjectDisposition = .exactReadOnly := by
  obtain ⟨entry, hentries, hstate⟩ := h.independence
  rw [hentries, List.forall_mem_singleton, hstate]
  cases input.contextSeparation <;> cases input.observation.reviewerSubjectDisposition <;>
    decide

/-- Entries that are all settled settle the obligations that have them. -/
theorem obligations_settled_iff (h : Assessed input a evaluatedMs receipt review)
    (hmissing : input.review.missingObligationIds = [])
    (hcomplete : receipt.completeAndLegal = true)
    (hpropositions : ∀ entry ∈ a.propositions, entry.validation = .valid)
    (hartifacts : ∀ entry ∈ a.artifacts, entry.state = .satisfied)
    (hdescriptions : ∀ entry ∈ a.descriptions, entry.state.settled = true) :
    (∀ entry ∈ a.obligations, entry.state.settled = true)
      ↔ ∀ obligation ∈ input.requirements.obligations, Named input.requirements obligation
        ∧ (Routed input obligation ∨ obligation.severity = .diagnostic) := by
  have hlinked : ∀ obligation x, Linked input.requirements a obligation x →
      x.state.settled = true := by
    rintro obligation (entry | entry | entry | entry) hx
    · obtain ⟨selection, hs, -, hrequired, complete, hmade⟩ := h.linked_receipt_iff.mp hx
      obtain ⟨hrecorded, hlegal, htimely⟩ := h.completeAndLegal_iff.mp hcomplete
      obtain ⟨check, hc, hphase, hid⟩ := hrecorded selection hs entry.phase hrequired
      have hcheck := receiptAt_of_mem h.receipts.distinct hc
      rw [hphase, hid] at hcheck
      change entry.state.settled = true
      by_cases hauthorized : isFoundationAuthorizedBaselinePostcondition check = true
      · rw [(receiptEntry_authorized hmade hcheck hauthorized).2.2]
        rfl
      · exact (receiptEntry_executed h.evaluated hmade hcheck hauthorized).2.1.mpr
          ⟨hphase ▸ hlegal check hc, (htimely check hc).resolve_left hauthorized⟩
    · change (PropositionEntry.state entry).settled = true
      rw [PropositionEntry.state, hpropositions entry hx.1]
      rfl
    · change entry.state.settled = true
      rw [hartifacts entry hx.1]
      rfl
    · exact hdescriptions entry hx.1
  have hstate : ∀ obligation : BoundaryObligation,
      ((ledgers a review).obligationState input.requirements obligation).1.settled = true
        ↔ Named input.requirements obligation
          ∧ (Routed input obligation ∨ obligation.severity = .diagnostic) := by
    intro obligation
    rw [h.settled_iff, hmissing, and_iff_left (hlinked obligation)]
    simp only [List.not_mem_nil, not_false_eq_true, true_and]
    refine and_congr_right fun hnamed => ?_
    rw [h.exists_linked_iff hnamed]
  constructor
  · intro hall obligation ho
    obtain ⟨entry, hentry, -, heq⟩ := h.obligations_matches.value obligation ho
    exact (hstate obligation).mp (heq ▸ hall entry hentry)
  · intro hall entry hentry
    obtain ⟨obligation, ho, -, heq⟩ := h.obligations_matches.source entry hentry
    exact heq ▸ (hstate obligation).mpr (hall obligation ho)

theorem baseline_applicable_iff (h : Assessed input a evaluatedMs receipt review) :
    (∀ item ∈ review.baselineApplicability, item.disposition = .applicable)
      ↔ ∀ item ∈ input.review.baselineApplicability, item.disposition = .applicable := by
  constructor
  · intro hall item hitem
    obtain ⟨judged, hjudged, hsame⟩ := h.reviewed.baseline.value item hitem
    exact hsame ▸ hall judged hjudged
  · intro hall judged hjudged
    obtain ⟨item, hitem, hsame⟩ := h.reviewed.baseline.source judged hjudged
    exact hsame ▸ hall item hitem

theorem missing_of_resolved {mandate : ApplicabilityDisposition}
    {baseline : List ApplicabilityDisposition} {mandateExcess : Bool} {missing : List String}
    {overall : Uncertainty} {judgments : List Uncertainty}
    (h : reviewRequiresMandateResolution mandate baseline mandateExcess missing overall judgments
      = false) : missing = [] := by
  simp only [reviewRequiresMandateResolution, Bool.or_eq_false_iff, Bool.not_eq_false',
    List.isEmpty_iff] at h
  exact h.1.1.2

/-- Supporting facts settle every obligation. -/
theorem obligations_settled (h : Assessed input a evaluatedMs receipt review)
    (hs : Supporting input) : ∀ entry ∈ a.obligations, entry.state.settled = true :=
  (h.obligations_settled_iff (missing_of_resolved hs.resolved)
    (h.completeAndLegal_iff.mpr ⟨hs.recorded, hs.legal, hs.timely⟩)
    (h.propositions_valid_iff.mpr hs.judged) (h.artifacts_satisfied_iff.mpr hs.produced)
    (h.descriptions_settled_iff.mpr hs.described)).mpr hs.routed

/-- **A disposition is supported exactly by supporting facts.** -/
theorem supported_iff (h : Assessed input a evaluatedMs receipt review) :
    a.disposition = .supported ↔ Supporting input := by
  have hdisposition : a.disposition = .supported ↔ review.requiresMandateResolution = false
      ∧ supported receipt review a.propositions a.obligations a.artifacts a.descriptions
        a.independence input.observation.diagnostics = true := by
    rw [h.disposition]
    split_ifs with hresolution hsupported hunknown <;> simp_all
  rw [hdisposition, h.reviewed.requiresMandateResolution]
  simp only [supported, Bool.and_eq_true, List.all_eq_true, decide_eq_true_eq,
    List.isEmpty_iff, h.baseline_applicable_iff, h.propositions_valid_iff,
    h.artifacts_satisfied_iff, h.descriptions_settled_iff, h.independence_satisfied_iff,
    h.reviewed.mandate, h.reviewed.overall]
  constructor
  · rintro ⟨hresolved, ⟨⟨⟨⟨⟨⟨⟨⟨⟨hmandate, hbaseline⟩, hcomplete⟩, hoverall⟩, hjudged⟩,
      hobligations⟩, hproduced⟩, hdescribed⟩, hindependent⟩, hdiagnostics⟩⟩
    obtain ⟨hrecorded, hlegal, htimely⟩ := h.completeAndLegal_iff.mp hcomplete
    exact ⟨hresolved, hmandate, hbaseline, hoverall, hrecorded, hlegal, htimely, hjudged,
      hproduced, hdescribed, hindependent, hdiagnostics,
      (h.obligations_settled_iff (missing_of_resolved hresolved) hcomplete
        (h.propositions_valid_iff.mpr hjudged) (h.artifacts_satisfied_iff.mpr hproduced)
        (h.descriptions_settled_iff.mpr hdescribed)).mp hobligations⟩
  · intro hs
    have hcomplete := h.completeAndLegal_iff.mpr ⟨hs.recorded, hs.legal, hs.timely⟩
    exact ⟨hs.resolved, ⟨⟨⟨⟨⟨⟨⟨⟨⟨hs.mandate, hs.baseline⟩, hcomplete⟩, hs.overall⟩, hs.judged⟩,
      h.obligations_settled hs⟩, hs.produced⟩, hs.described⟩, hs.independent⟩, hs.undiagnosed⟩⟩

/-- **The uncertainty of a supported disposition** is that of its judgments:
it is unknown when one of them is. -/
theorem certain_iff (h : Assessed input a evaluatedMs receipt review)
    (hs : Supporting input) :
    (a.uncertainty.level = .none ∨ a.uncertainty.level = .bounded)
      ↔ ¬ ∃ judgment ∈ input.review.judgments, judgment.uncertainty = .unknown := by
  have hunknown : .unknown ∈ review.judgments.map (·.uncertainty)
      ↔ ∃ judgment ∈ input.review.judgments, judgment.uncertainty = .unknown := by
    rw [List.mem_map]
    constructor
    · rintro ⟨judged, hjudged, hu⟩
      obtain ⟨judgment, hj, hsame⟩ := h.reviewed.judgments.source judged hjudged
      exact ⟨judgment, hj, hsame.uncertainty ▸ hu⟩
    · rintro ⟨judgment, hj, hu⟩
      obtain ⟨judged, hjudged, hsame⟩ := h.reviewed.judgments.value judgment hj
      exact ⟨judged, hjudged, hsame.uncertainty.trans hu⟩
  have hresolved : review.requiresMandateResolution = false :=
    h.reviewed.requiresMandateResolution.trans hs.resolved
  have hmandate : ¬ review.mandateApplicability.disposition = .indeterminate := by
    rw [h.reviewed.mandate, hs.mandate]
    decide
  have hbaseline : ¬ ∃ item ∈ review.baselineApplicability, item.disposition = .indeterminate := by
    rintro ⟨item, hitem, hd⟩
    cases (h.baseline_applicable_iff.mpr hs.baseline item hitem).symm.trans hd
  have hoverall : ¬ review.overallUncertainty = .unknown := h.reviewed.overall ▸ hs.overall
  have hobligations : ¬ ∃ entry ∈ a.obligations, entry.state.unsure = true := by
    rintro ⟨entry, hentry, hunsure⟩
    have hsettled := h.obligations_settled hs entry hentry
    cases hstate : entry.state <;>
      simp [hstate, EvidenceState.settled, EvidenceState.unsure] at hsettled hunsure
  have hindependence : ¬ ∃ entry ∈ a.independence, entry.state = .indeterminate := by
    rintro ⟨entry, hentry, hstate⟩
    cases (h.independence_satisfied_iff.mpr hs.independent entry hentry).symm.trans hstate
  have hlevel := h.uncertainty
  simp only [uncertaintyLevel, bind_eq_ok, pure_eq_ok] at hlevel
  obtain ⟨itemIds, -, hlevel⟩ := hlevel
  rw [← hlevel, ← hunknown]
  simp only [hresolved, hmandate, hbaseline, hoverall, hobligations, hindependence, or_false,
    false_or, Bool.false_eq_true, if_false]
  split_ifs with hjudgments hbounded
  · exact iff_of_false (by decide) (not_not.mpr hjudgments)
  · exact iff_of_true (.inr rfl) hjudgments
  · exact iff_of_true (.inl rfl) hjudgments

end Assessed

/-! ## The law -/

/-- **Which evidence is not vacuous**: that of the inputs with no obligation
that only neutral facts are linked to, and with no judgment of unknown
uncertainty where everything else is supporting. -/
theorem evidenceLaw_iff_of_assessed {input : AssessmentInput} {a : Assessment} {evaluatedMs : Int}
    {receipt : ReceiptLedgers} {review : NormalizedReview}
    (h : Assessed input a evaluatedMs receipt review) : EvidenceLaw input a
      ↔ (∀ obligation ∈ input.requirements.obligations, ¬ OnlyNeutral input obligation)
        ∧ ¬ (Supporting input
          ∧ ∃ judgment ∈ input.review.judgments, judgment.uncertainty = .unknown) := by
  constructor
  · intro hlaw
    refine ⟨fun obligation ho honly => ?_, fun ⟨hs, hunknown⟩ => ?_⟩
    · obtain ⟨hsatisfied, hneutral⟩ := h.onlyNeutral_iff.mp honly
      obtain ⟨entry, hentry, hid, hstate⟩ := h.obligations_matches.value obligation ho
      obtain ⟨named, hn, hnid, ⟨x, hx, hestablished⟩, -⟩ :=
        hlaw.satisfied entry hentry (hstate.trans hsatisfied)
      obtain rfl := List.inj_on_of_nodup_map h.obligationIds hn ho (hnid.trans hid)
      exact (hneutral x hx).not_established hestablished
    · exact (h.certain_iff hs).mp (hlaw.certain (h.supported_iff.mpr hs)) hunknown
  · rintro ⟨hneutral, hcertain⟩
    have hsatisfied : ∀ obligation ∈ input.requirements.obligations,
        ((Assessed.ledgers a review).obligationState input.requirements obligation).1 = .satisfied →
        (∃ x, Linked input.requirements a obligation x ∧ Established input x)
          ∧ ∀ x, Linked input.requirements a obligation x → ¬ x.Adverse := by
      intro obligation ho hstate
      have hsettled := (h.satisfied_iff.mp hstate).2.2
      refine ⟨?_, fun x hx => ?_⟩
      · by_contra hnone
        refine hneutral obligation ho (h.onlyNeutral_iff.mpr ⟨hstate, fun x hx => ?_⟩)
        exact (h.neutral_or_established hx (hsettled x hx)).resolve_right fun hestablished =>
          hnone ⟨x, hx, hestablished⟩
      · rw [Entry.adverse_iff, not_not]
        exact hsettled x hx
    refine ⟨fun entry hentry hstate => ?_, fun hsupported obligation ho hrequired => ?_,
      fun hsupported => ?_⟩
    · obtain ⟨obligation, ho, hid, heq⟩ := h.obligations_matches.source entry hentry
      exact ⟨obligation, ho, hid.symm, hsatisfied obligation ho (heq.symm.trans hstate)⟩
    · have hs := h.supported_iff.mp hsupported
      obtain ⟨entry, hentry, hid, heq⟩ := h.obligations_matches.value obligation ho
      have hsettled := h.obligations_settled hs entry hentry
      rw [heq, h.settled_iff] at hsettled
      have hsome := hsettled.2.1.resolve_right fun hdiagnostic => by
        cases hrequired.symm.trans hdiagnostic
      have hstate := h.satisfied_iff.mpr ⟨hsettled.1, hsome, hsettled.2.2⟩
      exact ⟨entry, hentry, hid, heq.trans hstate, (hsatisfied obligation ho hstate).1⟩
    · have hs := h.supported_iff.mp hsupported
      exact (h.certain_iff hs).mpr fun hunknown => hcertain ⟨hs, hunknown⟩

/-- **Evidence is not vacuous exactly where** no obligation has only neutral
facts linked to it and a supported disposition has no judgment of unknown
uncertainty. -/
theorem evidenceLaw_iff {input : AssessmentInput} {a : Assessment}
    (h : assessFoundationEvidence input = .ok a) : EvidenceLaw input a
      ↔ (∀ obligation ∈ input.requirements.obligations, ¬ OnlyNeutral input obligation)
        ∧ ¬ (Supporting input
          ∧ ∃ judgment ∈ input.review.judgments, judgment.uncertainty = .unknown) := by
  obtain ⟨evaluatedMs, receipt, review, hassessed⟩ := exists_assessed h
  exact evidenceLaw_iff_of_assessed hassessed

/-! ## A Description beside the product

A boundary with a required obligation, which a proposition answers, and a
diagnostic one about a Description. -/

def sampleDigest : Sha256Digest :=
  "sha256:1111111111111111111111111111111111111111111111111111111111111111"

def sampleReference (kind id : String) : ExactReference := ⟨kind, id, .integer 1, sampleDigest⟩

def sampleSubject : AssessmentSubject where
  boundary := sampleReference "boundary" "w"
  candidate := sampleReference "candidate" "c"
  candidateSeal := sampleReference "seal" "s"
  integration := sampleReference "integration" "a"
  parent := ⟨"1111111111111111111111111111111111111111",
    "2222222222222222222222222222222222222222", sampleDigest⟩

def selectedRules (rules : Except FoundationError SelectedRules) : SelectedRules :=
  rules.toOption.getD ⟨"", ""⟩

def sampleRequirements : Requirements where
  checks := []
  obligations := [⟨"product", .required, [], ["works"]⟩, ⟨"notes", .diagnostic, [], []⟩]
  artifacts := []
  propositions := [⟨"works", ["product"], false, none⟩]

def sampleJudgment : ReviewJudgment :=
  ⟨"j", "works", .accepted, ["seal"], ["s"], .none, [], sampleDigest⟩

def sampleReview : ReviewFacts where
  reference := sampleReference "review" "r"
  subject := sampleSubject
  citations := [⟨"seal", "s", sampleDigest, "candidate"⟩]
  mandateApplicability := ⟨.applicable, ["seal"], "", sampleDigest⟩
  baselineApplicability := []
  judgments := [sampleJudgment]
  mandateExcess := false
  missingObligationIds := []
  overallUncertainty := .none

/-- The evaluation, by what owns the Description. -/
def sampleInput (ownership : Ownership) : AssessmentInput where
  subject := sampleSubject
  requirements := sampleRequirements
  checks := []
  review := sampleReview
  contextSeparation := .distinct
  observationSubject := sampleSubject
  observation := {
    evaluatedAt := "2026-09-05T10:00:01Z"
    artifacts := []
    descriptionCoverage := [⟨"notes.md", some "notes", some "docs", ownership, .unchanged,
      .unchanged, .none, ["notes"]⟩]
    reviewerSubjectDisposition := .exactReadOnly
    ruleSet := selectedRules foundationEvidenceRuleSet
    validator := selectedRules foundationEvidenceValidator }

/-- The review as it is normalized. -/
def normalizedSample : NormalizedReview :=
  ⟨⟨none, .applicable, sampleDigest⟩, [], [sampleJudgment], false, [], .none⟩

theorem reviewJudgments_sample :
    reviewJudgments sampleReview sampleRequirements [] = .ok normalizedSample := by
  refine bind_eq_ok.mpr ⟨[⟨"seal", "s", sampleDigest, "candidate"⟩], by decide +kernel, ?_⟩
  refine bind_eq_ok.mpr ⟨(), by decide +kernel, ?_⟩
  refine bind_eq_ok.mpr ⟨(), by decide +kernel, ?_⟩
  refine bind_eq_ok.mpr ⟨⟨none, .applicable, sampleDigest⟩, by decide +kernel, ?_⟩
  refine bind_eq_ok.mpr ⟨[], rfl, ?_⟩
  refine bind_eq_ok.mpr ⟨(), rfl, ?_⟩
  refine bind_eq_ok.mpr ⟨[sampleJudgment], by decide +kernel, ?_⟩
  refine bind_eq_ok.mpr ⟨(), by decide +kernel, ?_⟩
  refine bind_eq_ok.mpr ⟨(), by decide +kernel, ?_⟩
  exact bind_eq_ok.mpr ⟨[], rfl, rfl⟩

theorem assertInput_sample (ownership : Ownership) :
    assertInput (sampleInput ownership) = .ok () := by
  refine bind_eq_ok.mpr ⟨(), show assertSubjects (sampleInput .exact) = .ok () by
    decide +kernel, ?_⟩
  refine bind_eq_ok.mpr ⟨(), rfl, ?_⟩
  refine bind_eq_ok.mpr ⟨(), show assertRules (sampleInput .exact).observation = .ok () by
    decide +kernel, ?_⟩
  exact bind_eq_ok.mpr ⟨(), show assertRequirements sampleRequirements = .ok () by
    decide +kernel, rfl⟩

/-- What follows the review of the evaluation. -/
def assessedSample (ownership : Ownership) : Except FoundationError Unit := do
  let input := sampleInput ownership
  let propositions ← propositionLedger input.review.reference sampleRequirements normalizedSample
  let descriptions ← descriptionLedger input.observation.descriptionCoverage sampleRequirements
    input.subject.candidate
  let independence ← reviewerIndependence input
  let obligations ← obligationLedger sampleRequirements
    ⟨[], propositions, [], descriptions, normalizedSample⟩
  let _ ← uncertaintyLevel normalizedSample obligations independence

theorem exists_bind {α β : Type} {x : Except FoundationError α}
    {f : α → Except FoundationError β} {a : α} (hx : x = .ok a) (h : ∃ b, f a = .ok b) :
    ∃ b, (x >>= f) = .ok b := by
  rwa [hx, ok_bind]

theorem exists_assessment (ownership : Ownership) (h : assessedSample ownership = .ok ()) :
    ∃ a, assessFoundationEvidence (sampleInput ownership) = .ok a := by
  simp only [assessedSample, bind_eq_ok] at h
  obtain ⟨propositions, hpropositions, descriptions, hdescriptions, independence, hindependence,
    obligations, hobligations, uncertainty, huncertainty, -⟩ := h
  unfold assessFoundationEvidence
  refine exists_bind (assertInput_sample ownership) ?_
  refine exists_bind (a := 1788602401000) (by rfl) ?_
  refine exists_bind (a := ⟨[], [], true⟩) (by rfl) ?_
  refine exists_bind reviewJudgments_sample ?_
  refine exists_bind hpropositions ?_
  refine exists_bind (a := []) (by rfl) ?_
  refine exists_bind hdescriptions ?_
  refine exists_bind hindependence ?_
  refine exists_bind hobligations ?_
  exact exists_bind huncertainty ⟨_, rfl⟩

/-- A Description of its own leaves nothing vacuous. -/
theorem evidenceLaw_exact : ∃ a, assessFoundationEvidence (sampleInput .exact) = .ok a
    ∧ EvidenceLaw (sampleInput .exact) a := by
  obtain ⟨a, ha⟩ := exists_assessment .exact (by decide +kernel)
  refine ⟨a, ha, (evidenceLaw_iff ha).mpr ⟨?_, ?_⟩⟩
  · intro obligation ho honly
    obtain rfl | rfl := List.mem_pair.mp ho
    · exact nomatch honly.propositions
    · exact nomatch honly.descriptions _ (List.mem_singleton.mpr rfl) (List.mem_singleton.mpr rfl)
  · rintro ⟨-, judgment, hj, hunknown⟩
    obtain rfl := List.mem_singleton.mp hj
    exact nomatch hunknown

/-- **An excluded Description satisfies the obligation about it.** -/
theorem not_evidenceLaw_excluded : ∃ a, assessFoundationEvidence (sampleInput .excluded) = .ok a
    ∧ ¬ EvidenceLaw (sampleInput .excluded) a := by
  obtain ⟨a, ha⟩ := exists_assessment .excluded (by decide +kernel)
  obtain ⟨evaluatedMs, receipt, review, hassessed⟩ := exists_assessed ha
  refine ⟨a, ha, fun hlaw => ?_⟩
  have hnotes : ⟨"notes", .diagnostic, [], []⟩ ∈ (sampleInput .excluded).requirements.obligations :=
    List.mem_pair.mpr (.inr rfl)
  refine ((evidenceLaw_iff_of_assessed hassessed).mp hlaw).1 _ hnotes ?_
  have hexcluded : ∀ observation ∈ (sampleInput .excluded).observation.descriptionCoverage,
      observation.ownership = .excluded := by decide
  exact ⟨List.not_mem_nil, rfl, rfl, fun _ hs => absurd hs List.not_mem_nil,
    fun _ hs => absurd hs List.not_mem_nil, fun observation ho _ => hexcluded observation ho,
    .inr ⟨_, List.mem_singleton.mpr rfl, List.mem_singleton.mpr rfl⟩⟩

end Evidence
