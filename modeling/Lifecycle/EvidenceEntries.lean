import Lifecycle.EvidenceAssessment

/-!
# The entries of the evidence ledgers

What a ledger that was made holds: each entry comes from a selection, a
judgment, a requirement or an observation, and each of these has its entry.
What an entry of a receipt says of it is told apart by what the receipt is:
an authorized baseline postcondition settles its entry without being executed
(`receiptEntry_authorized`), any other receipt by being legal and finished in
time (`receiptEntry_executed`).
-/

open Fallible Json ControlModel Timestamp SortedBy
open WorkProduct (Matches)

namespace Evidence

/-! ## Lists read by a key -/

section Keys

variable {α β : Type} {key : α → String} {values : List α} {k : String} {v : α}

theorem mapGet_eq_some (h : mapGet key values k = some v) : v ∈ values ∧ key v = k :=
  ⟨List.mem_reverse.mp (List.mem_of_find?_eq_some h), by
    simpa using List.find?_some h⟩

theorem mapGet_isSome_iff : (mapGet key values k).isSome = true ↔ k ∈ values.map key := by
  simp [mapGet, List.find?_isSome]

/-- A value of a key of its own is found by it. -/
theorem mapGet_of_mem (hkeys : (values.map key).Nodup) (hv : v ∈ values) :
    mapGet key values (key v) = some v := by
  obtain ⟨w, hw⟩ := Option.isSome_iff_exists.mp
    (mapGet_isSome_iff.mpr (List.mem_map_of_mem hv))
  obtain ⟨hmem, hkey⟩ := mapGet_eq_some hw
  rw [hw, List.inj_on_of_nodup_map hkeys hmem hv hkey]

/-- The values read at some keys are those of these keys. -/
theorem mem_filterMap_mapGet (hkeys : (values.map key).Nodup) {keys : List String} :
    v ∈ keys.filterMap (mapGet key values) ↔ v ∈ values ∧ key v ∈ keys := by
  rw [List.mem_filterMap]
  constructor
  · rintro ⟨k, hk, hv⟩
    obtain ⟨hmem, rfl⟩ := mapGet_eq_some hv
    exact ⟨hmem, hk⟩
  · rintro ⟨hmem, hk⟩
    exact ⟨key v, hk, mapGet_of_mem hkeys hmem⟩

/-- Every one of the keys is found when as many values are as there are keys. -/
theorem length_filterMap_eq_iff {f : β → Option α} {keys : List β} :
    (keys.filterMap f).length = keys.length ↔ ∀ k ∈ keys, (f k).isSome = true := by
  induction keys with
  | nil => simp
  | cons k keys ih =>
    cases h : f k with
    | none =>
      have hle := List.length_filterMap_le f keys
      simp only [List.filterMap_cons, h, List.length_cons, List.forall_mem_cons]
      simp only [Option.isSome_none, Bool.false_eq_true, false_and, iff_false]
      omega
    | some v => simp [h, ih]

theorem matches_mapM {f : α → Except FoundationError β} {xs : List α} {ys : List β}
    (h : xs.mapM f = .ok ys) : Matches (fun x y => f x = .ok y) xs ys :=
  .of_mapM h fun _ _ _ hone => hone

/-- The values of a checked traversal are those of its entries. -/
theorem mem_of_mapM {f : α → Except FoundationError β} {xs : List α} {ys : List β}
    (h : xs.mapM f = .ok ys) {y : β} : y ∈ ys ↔ ∃ x ∈ xs, f x = .ok y := by
  refine ⟨(matches_mapM h).source y, ?_⟩
  rintro ⟨x, hx, hy⟩
  obtain ⟨z, hz, hxz⟩ := (matches_mapM h).value x hx
  rw [hy, Except.ok.injEq] at hxz
  exact hxz ▸ hz

theorem map_eq_of_mapM {γ : Type} {f : α → Except FoundationError β} {g : β → γ} {k : α → γ}
    (hf : ∀ x y, f x = .ok y → g y = k x) {xs : List α} {ys : List β}
    (h : xs.mapM f = .ok ys) : ys.map g = xs.map k := by
  replace h := mapM_eq_ok_iff.mp h
  induction h with
  | nil => rfl
  | cons hone _ ih => rw [List.map_cons, List.map_cons, ih, hf _ _ hone]

end Keys

/-! ## Checked values -/

theorem exactId_eq_ok {value label v : String} (h : exactId value label = .ok v) : v = value := by
  simp only [exactId, bind_eq_ok, failIf_eq_ok, exists_unit, pure_eq_ok] at h
  exact h.2.2.symm

theorem mem_sortedIds {values ids : List String} {label : String} {maximum : Nat}
    (h : sortedIds values label maximum = .ok ids) {v : String} : v ∈ ids ↔ v ∈ values := by
  simp only [sortedIds, bind_eq_ok, pure_eq_ok] at h
  obtain ⟨-, -, checked, hchecked, rfl⟩ := h
  have hsame := map_eq_of_mapM (g := fun id => id) (k := fun id => id)
    (fun _ _ => exactId_eq_ok) hchecked
  rw [List.map_id', List.map_id'] at hsame
  rw [mem_sortUniqueCodePoints, hsame]

theorem timestamp_eq_ok {value label : String} {t : Int} (h : timestamp value label = .ok t) :
    dateParse value = some t := by
  simp only [timestamp, bind_eq_ok, orFail_eq_ok, failIf_eq_ok, exists_unit, pure_eq_ok] at h
  obtain ⟨t', ht', -, rfl⟩ := h
  exact ht'

/-! ## Receipts -/

/-- What the receipts of an evaluation are told apart by. -/
def RetainedCheck.coordinate (check : RetainedCheck) : CheckPhase × String :=
  (check.phase, check.selectionId)

theorem mem_coordinates {facts : Requirements} {selection : CheckSelection} {phase : CheckPhase} :
    (selection, phase) ∈ coordinates facts ↔ selection ∈ facts.checks := by
  cases phase <;> simp [coordinates]

theorem replay_addReceipt : ∀ {checks known result : List RetainedCheck},
    replay addReceipt known checks = .ok result → (known.map (·.coordinate)).Nodup →
    result = known ++ checks ∧ (result.map (·.coordinate)).Nodup
  | [], known, result, h, hknown => by
    rw [replay_nil, Except.ok.injEq] at h
    exact ⟨by rw [List.append_nil, h], h ▸ hknown⟩
  | check :: checks, known, result, h, hknown => by
    rw [replay_cons, bind_eq_ok] at h
    obtain ⟨extended, hstep, h⟩ := h
    simp only [addReceipt, bind_eq_ok, failIf_eq_ok, exists_unit, pure_eq_ok] at hstep
    obtain ⟨hfresh, rfl⟩ := hstep
    have hdistinct : ((known ++ [check]).map (·.coordinate)).Nodup := by
      rw [List.map_append, List.nodup_append]
      refine ⟨hknown, List.nodup_singleton _, fun a ha b hb hab => hfresh ?_⟩
      obtain ⟨other, hother, rfl⟩ := List.mem_map.mp ha
      obtain rfl : b = check.coordinate := by simpa using hb
      exact ⟨other, hother, congrArg Prod.fst hab, congrArg Prod.snd hab⟩
    obtain ⟨rfl, hresult⟩ := replay_addReceipt h hdistinct
    exact ⟨by rw [List.append_assoc, List.singleton_append], hresult⟩

theorem receiptAt_eq_some {checks : List RetainedCheck} {phase : CheckPhase} {id : String}
    {check : RetainedCheck} (h : receiptAt checks phase id = some check) :
    check ∈ checks ∧ check.phase = phase ∧ check.selectionId = id :=
  ⟨List.mem_of_find?_eq_some h, by simpa using List.find?_some h⟩

theorem receiptAt_of_mem {checks : List RetainedCheck} {check : RetainedCheck}
    (hdistinct : (checks.map (·.coordinate)).Nodup) (hc : check ∈ checks) :
    receiptAt checks check.phase check.selectionId = some check := by
  have hsome : (receiptAt checks check.phase check.selectionId).isSome = true := by
    rw [receiptAt, List.find?_isSome]
    exact ⟨check, hc, by simp⟩
  obtain ⟨other, hother⟩ := Option.isSome_iff_exists.mp hsome
  obtain ⟨hmem, hphase, hid⟩ := receiptAt_eq_some hother
  rw [hother, List.inj_on_of_nodup_map hdistinct hmem hc (Prod.ext hphase hid)]

/-- **What the receipt ledgers are made of.** -/
structure ReceiptsHold (facts : Requirements) (checks : List RetainedCheck) (evaluatedMs : Int)
    (receipt : ReceiptLedgers) : Prop where
  distinct : (checks.map (·.coordinate)).Nodup
  matched : ∀ check ∈ checks, ∃ selection ∈ facts.checks,
    selection.id = check.selectionId ∧ check.modality = selection.modality
  recorded : ∀ selection ∈ facts.checks, ∀ phase, ∃ row,
    receiptEntry checks evaluatedMs (selection, phase) = .ok row
  entries : ∀ entry, entry ∈ receipt.entries ↔ ∃ selection ∈ facts.checks, ∃ phase complete,
    receiptEntry checks evaluatedMs (selection, phase) = .ok (entry, complete)
  complete : receipt.completeAndLegal = true ↔ ∀ selection ∈ facts.checks, ∀ phase row,
    receiptEntry checks evaluatedMs (selection, phase) = .ok row → row.2 = true
  used : ∀ check, check ∈ receipt.usedChecks ↔ check ∈ checks

theorem matchReceipt_eq_ok {facts : Requirements} {check : RetainedCheck}
    (h : matchReceipt facts check = .ok ()) : ∃ selection ∈ facts.checks,
      selection.id = check.selectionId ∧ check.modality = selection.modality := by
  simp only [matchReceipt, checkMatchesSelection, bind_eq_ok, orFail_eq_ok, failIf_eq_ok,
    exists_unit, not_or, not_not] at h
  obtain ⟨selection, hfound, ⟨-, hmodality⟩, -⟩ := h
  obtain ⟨hmem, hid⟩ := mapGet_eq_some hfound
  exact ⟨selection, hmem, hid, hmodality⟩

theorem receiptLedgers_hold {facts : Requirements} {checks : List RetainedCheck} {evaluatedMs : Int}
    {receipt : ReceiptLedgers} (h : receiptLedgers facts checks evaluatedMs = .ok receipt) :
    ReceiptsHold facts checks evaluatedMs receipt := by
  simp only [receiptLedgers, bind_eq_ok, exists_unit, pure_eq_ok] at h
  obtain ⟨known, hknown, hmatched, rows, hrows, rfl⟩ := h
  obtain ⟨rfl, hdistinct⟩ := replay_addReceipt hknown List.nodup_nil
  have hrow := fun row => mem_of_mapM (y := row) hrows
  refine ⟨hdistinct, fun check hc => matchReceipt_eq_ok (forM_eq_ok.mp hmatched check hc),
    fun selection hs phase => ?_, fun entry => ?_, ?_, fun check => ?_⟩
  · obtain ⟨row, -, hrow⟩ := (matches_mapM hrows).value _ (mem_coordinates.mpr hs)
    exact ⟨row, hrow⟩
  · simp only [mem_sortOn, List.mem_map, Prod.exists, exists_and_right, exists_eq_right, hrow,
      mem_coordinates]
    constructor
    · rintro ⟨complete, selection, phase, hs, hentry⟩
      exact ⟨selection, hs, phase, complete, hentry⟩
    · rintro ⟨selection, hs, phase, complete, hentry⟩
      exact ⟨complete, selection, phase, hs, hentry⟩
  · simp only [List.all_eq_true, hrow, Prod.exists, mem_coordinates]
    constructor
    · intro hall selection hs phase row hentry
      exact hall row ⟨selection, phase, hs, hentry⟩
    · rintro hall row ⟨selection, phase, hs, hentry⟩
      exact hall selection hs phase row hentry
  · exact mem_sortOn

/-- The entry of one selection and phase. -/
theorem receiptEntry_eq_ok {checks : List RetainedCheck} {evaluatedMs : Int}
    {selection : CheckSelection} {phase : CheckPhase} {entry : ReceiptEntry} {complete : Bool}
    (h : receiptEntry checks evaluatedMs (selection, phase) = .ok (entry, complete)) :
    ∃ ageMs, receiptFreshness (selection.required phase) evaluatedMs
        (receiptAt checks phase selection.id) = .ok (entry.freshness, ageMs)
      ∧ entry.checkId = selection.id ∧ entry.phase = phase
      ∧ entry.receiptId = (receiptAt checks phase selection.id).map (·.reference.id)
      ∧ entry.use = receiptUse (selection.required phase) (receiptAt checks phase selection.id)
      ∧ entry.reasonCode = receiptReason (selection.required phase) phase entry.freshness
          (receiptAt checks phase selection.id)
      ∧ complete = completeAndLegal selection phase entry.freshness
          (receiptAt checks phase selection.id) := by
  simp only [receiptEntry, bind_eq_ok, pure_eq_ok, Prod.mk.injEq] at h
  obtain ⟨⟨freshness, ageMs⟩, hfreshness, id, -, rfl, rfl⟩ := h
  exact ⟨ageMs, hfreshness, rfl, rfl, rfl, rfl, rfl, rfl⟩

theorem ReceiptReason.illegal_eq (reason : ReceiptReason) :
    reason.illegal = decide (reason = .baselineDispositionIllegal
      ∨ reason = .finalDispositionIllegal) := by
  cases reason <;> decide +kernel

/-- An authorized baseline postcondition leaves a settled entry that is not
executed. -/
theorem receiptEntry_authorized {checks : List RetainedCheck} {evaluatedMs : Int}
    {selection : CheckSelection} {phase : CheckPhase} {entry : ReceiptEntry} {complete : Bool}
    (h : receiptEntry checks evaluatedMs (selection, phase) = .ok (entry, complete))
    {check : RetainedCheck} (hcheck : receiptAt checks phase selection.id = some check)
    (hauthorized : isFoundationAuthorizedBaselinePostcondition check = true) :
    entry.use = .excluded ∧ entry.freshness = .notApplicable ∧ entry.state = .satisfied := by
  obtain ⟨ageMs, hfreshness, -, -, -, huse, hreason, -⟩ := receiptEntry_eq_ok h
  rw [hcheck, receiptFreshness, if_pos hauthorized, pure_eq_ok, Prod.mk.injEq] at hfreshness
  rw [hcheck, receiptUse, if_pos hauthorized] at huse
  have hlegal : entry.reasonCode.illegal = false := by
    rw [hreason, hcheck, ReceiptReason.illegal_eq]
    simp [receiptReason, hauthorized]
  refine ⟨huse, hfreshness.1.symm, ?_⟩
  simp [ReceiptEntry.state, huse, ← hfreshness.1, hlegal]

/-- A required receipt that is missing leaves an entry that says so. -/
theorem receiptEntry_missing {checks : List RetainedCheck} {evaluatedMs : Int}
    {selection : CheckSelection} {phase : CheckPhase} {entry : ReceiptEntry} {complete : Bool}
    (h : receiptEntry checks evaluatedMs (selection, phase) = .ok (entry, complete))
    (hcheck : receiptAt checks phase selection.id = none)
    (hrequired : selection.required phase = true) : entry.state = .missing := by
  obtain ⟨-, -, -, -, -, huse, -⟩ := receiptEntry_eq_ok h
  rw [hcheck, receiptUse, if_pos hrequired] at huse
  rw [ReceiptEntry.state, if_pos huse]

theorem illegal_receiptReason {required : Bool} {phase : CheckPhase} {check : RetainedCheck}
    (hauthorized : ¬ isFoundationAuthorizedBaselinePostcondition check = true) :
    (receiptReason required phase .fresh (some check)).illegal = !legalIn phase check := by
  rw [ReceiptReason.illegal_eq]
  cases phase with
  | baseline => cases h : legalBaseline check <;> simp [receiptReason, legalIn, hauthorized, h]
  | final => cases h : legalFinal check <;> simp [receiptReason, legalIn, hauthorized, h]

/-- Whether a receipt was finished by the time of the evaluation. -/
def FinishedBy (evaluatedAt : String) (check : RetainedCheck) : Prop :=
  ∃ finishedAt, check.finishedAt = some finishedAt ∧ dateLe finishedAt evaluatedAt = true

/-- **An executed receipt is settled when it is legal and finished in time**,
and its selection is complete and legal under the same condition. -/
theorem receiptEntry_executed {checks : List RetainedCheck} {evaluatedAt : String}
    {evaluatedMs : Int} (hevaluated : dateParse evaluatedAt = some evaluatedMs)
    {selection : CheckSelection} {phase : CheckPhase} {entry : ReceiptEntry} {complete : Bool}
    (h : receiptEntry checks evaluatedMs (selection, phase) = .ok (entry, complete))
    {check : RetainedCheck} (hcheck : receiptAt checks phase selection.id = some check)
    (hauthorized : ¬ isFoundationAuthorizedBaselinePostcondition check = true) :
    entry.use = .executed ∧ (entry.state.settled = true
        ↔ legalIn phase check = true ∧ FinishedBy evaluatedAt check)
      ∧ (entry.freshness = .fresh ∨ entry.freshness = .notApplicable
        ↔ FinishedBy evaluatedAt check) := by
  obtain ⟨ageMs, hfreshness, -, -, -, huse, hreason, -⟩ := receiptEntry_eq_ok h
  rw [hcheck, receiptFreshness, if_neg hauthorized] at hfreshness
  rw [hcheck, receiptUse, if_neg hauthorized] at huse
  rw [hcheck] at hreason
  refine ⟨huse, ?_⟩
  cases hfinished : check.finishedAt with
  | none =>
    simp only [hfinished, pure_eq_ok, Prod.mk.injEq] at hfreshness
    have hnever : ¬ FinishedBy evaluatedAt check := by
      rintro ⟨finishedAt, hsome, -⟩
      cases hfinished.symm.trans hsome
    simp [ReceiptEntry.state, huse, ← hfreshness.1, hnever, EvidenceState.settled]
  | some finishedAt =>
    simp only [hfinished, bind_eq_ok, pure_eq_ok, Prod.mk.injEq] at hfreshness
    obtain ⟨finishedMs, hms, hfresh, -⟩ := hfreshness
    have hby : FinishedBy evaluatedAt check ↔ ¬ evaluatedMs - finishedMs < 0 := by
      simp [FinishedBy, hfinished, dateLe, timestamp_eq_ok hms, hevaluated]
    by_cases hage : evaluatedMs - finishedMs < 0
    · rw [if_pos hage] at hfresh
      simp [ReceiptEntry.state, huse, ← hfresh, hby, hage, EvidenceState.settled]
    · rw [if_neg hage] at hfresh
      rw [← hfresh] at hreason
      have hillegal : entry.reasonCode.illegal = !legalIn phase check :=
        hreason ▸ illegal_receiptReason hauthorized
      cases hlegal : legalIn phase check <;>
        simp [ReceiptEntry.state, huse, ← hfresh, hby, hage, EvidenceState.settled, hillegal, hlegal]

/-! ## The review -/

/-- A judgment, as the review retains it and as it is normalized. -/
structure SameJudgment (raw judged : ReviewJudgment) : Prop where
  propositionId : judged.propositionId = raw.propositionId
  disposition : judged.disposition = raw.disposition
  uncertainty : judged.uncertainty = raw.uncertainty

/-- **What the normalized review keeps of the review.** -/
structure ReviewHold (raw : ReviewFacts) (facts : Requirements) (review : NormalizedReview) :
    Prop where
  mandate : review.mandateApplicability.disposition = raw.mandateApplicability.disposition
  baseline : Matches (fun item judged => judged.disposition = item.disposition)
    raw.baselineApplicability review.baselineApplicability
  judgments : Matches SameJudgment raw.judgments review.judgments
  distinct : (review.judgments.map (·.propositionId)).Nodup
  covered : ∀ proposition ∈ facts.propositions, ∃ judgment ∈ review.judgments,
    judgment.propositionId = proposition.id
  mandateExcess : review.mandateExcess = raw.mandateExcess
  missing : ∀ id, id ∈ review.missingObligationIds ↔ id ∈ raw.missingObligationIds
  overall : review.overallUncertainty = raw.overallUncertainty

theorem applicability_eq_ok {citations : List Citation} {checks : List RetainedCheck}
    {item : ApplicabilityJudgment} {receiptId : Option String} {judged : Applicability}
    (h : applicability citations checks item receiptId = .ok judged) :
    judged.disposition = item.disposition := by
  simp only [applicability, bind_eq_ok, failIf_eq_ok, exists_unit, pure_eq_ok] at h
  obtain ⟨-, citationIds, -, -, receipt, -, -, fragmentDigest, -, rfl⟩ := h
  rfl

theorem normalizedJudgment_eq_ok {citations : List Citation} {raw judged : ReviewJudgment}
    (h : normalizedJudgment citations raw = .ok judged) : SameJudgment raw judged := by
  simp only [normalizedJudgment, bind_eq_ok, failIf_eq_ok, exists_unit, pure_eq_ok] at h
  obtain ⟨citationIds, -, -, subjects, -, derived, -, retained, -, derivedDigest, -,
    retainedDigest, -, -, id, -, propositionId, hproposition, limitationIds, -,
    fragmentDigest, -, rfl⟩ := h
  exact ⟨exactId_eq_ok hproposition, rfl, rfl⟩

theorem matches_sortOn {α β : Type} {R : α → β → Prop} {sources : List α} {values : List β}
    (h : Matches R sources values) (key : β → String) :
    Matches R sources (SortedBy.sortOn key values) :=
  ⟨fun b hb => h.source b (mem_sortOn.mp hb), fun a ha =>
    let ⟨b, hb, hab⟩ := h.value a ha
    ⟨b, mem_sortOn.mpr hb, hab⟩⟩

/-- What matched values have in common, they have or lack as their sources do. -/
theorem any_eq_of_matches {α β : Type} {R : α → β → Prop} {sources : List α} {values : List β}
    (h : Matches R sources values) {p : α → Bool} {q : β → Bool}
    (hpq : ∀ a b, R a b → p a = q b) : sources.any p = values.any q := by
  rw [Bool.eq_iff_iff, List.any_eq_true, List.any_eq_true]
  constructor
  · rintro ⟨a, ha, hp⟩
    obtain ⟨b, hb, hab⟩ := h.value a ha
    exact ⟨b, hb, hpq a b hab ▸ hp⟩
  · rintro ⟨b, hb, hq⟩
    obtain ⟨a, ha, hab⟩ := h.source b hb
    exact ⟨a, ha, (hpq a b hab).trans hq⟩

theorem reviewJudgments_hold {raw : ReviewFacts} {facts : Requirements}
    {checks : List RetainedCheck} {review : NormalizedReview}
    (h : reviewJudgments raw facts checks = .ok review) : ReviewHold raw facts review := by
  simp only [reviewJudgments, bind_eq_ok, failIf_eq_ok, exists_unit, pure_eq_ok, not_not,
    not_or, not_exists, not_and] at h
  obtain ⟨citations, -, -, -, mandate, hmandate, applicabilities, hbaseline, -, judgments,
    hjudgments, hdistinct, ⟨-, hcovered⟩, missing, hmissing, rfl⟩ := h
  refine ⟨applicability_eq_ok hmandate, ?_, ?_, ?_, fun proposition hp => ?_, rfl,
    fun id => mem_sortedIds hmissing, rfl⟩
  · exact matches_sortOn (.of_mapM hbaseline fun _ _ _ => applicability_eq_ok) _
  · exact matches_sortOn (.of_mapM hjudgments fun _ _ _ => normalizedJudgment_eq_ok) _
  · exact ((perm_sortOn _ judgments).map _).nodup_iff.mpr hdistinct
  · obtain ⟨judgment, hj, hid⟩ := List.mem_map.mp (hcovered proposition hp)
    exact ⟨judgment, mem_sortOn.mpr hj, hid⟩

theorem SameJudgment.validation {raw judged : ReviewJudgment} (h : SameJudgment raw judged)
    (proposition : BoundaryProposition) :
    propositionValidation proposition judged = propositionValidation proposition raw := by
  unfold propositionValidation legalNotApplicable acceptedWithVisibleLimits
  rw [h.disposition, h.uncertainty]

/-- The normalized review is classified as the review is. -/
theorem ReviewHold.requiresMandateResolution {raw : ReviewFacts} {facts : Requirements}
    {review : NormalizedReview} (h : ReviewHold raw facts review) :
    review.requiresMandateResolution = reviewRequiresMandateResolution
      raw.mandateApplicability.disposition (raw.baselineApplicability.map (·.disposition))
      raw.mandateExcess raw.missingObligationIds raw.overallUncertainty
      (raw.judgments.map (·.uncertainty)) := by
  have hbaseline : raw.baselineApplicability.any (·.disposition = .insufficient)
      = review.baselineApplicability.any (·.disposition = .insufficient) :=
    any_eq_of_matches h.baseline fun _ _ hsame => by rw [hsame]
  have hmissing : review.missingObligationIds.isEmpty = raw.missingObligationIds.isEmpty := by
    rw [Bool.eq_iff_iff]
    simp only [List.isEmpty_iff, List.eq_nil_iff_forall_not_mem, h.missing]
  have hmaterial : raw.judgments.any (·.uncertainty = .material)
      = review.judgments.any (·.uncertainty = .material) :=
    any_eq_of_matches h.judgments fun _ _ hsame => by rw [hsame.uncertainty]
  simp only [NormalizedReview.requiresMandateResolution, reviewRequiresMandateResolution,
    List.any_map, Function.comp_def, h.mandate, hbaseline, hmissing, hmaterial, h.mandateExcess,
    h.overall]

/-! ## Propositions, artifacts and Descriptions -/

theorem propositionEntry_eq_ok {workProduct : ExactReference} {facts : Requirements}
    {judgment : ReviewJudgment} {entry : PropositionEntry}
    (h : propositionEntry workProduct facts judgment = .ok entry) :
    entry.propositionId = judgment.propositionId ∧ ∃ proposition ∈ facts.propositions,
      proposition.id = judgment.propositionId
        ∧ entry.validation = propositionValidation proposition judgment := by
  simp only [propositionEntry, bind_eq_ok, orFail_eq_ok, pure_eq_ok] at h
  obtain ⟨proposition, hfound, id, -, rfl⟩ := h
  obtain ⟨hmem, hid⟩ := mapGet_eq_some hfound
  exact ⟨hid, proposition, hmem, hid, rfl⟩

theorem artifactEntry_eq_ok {observations : List ArtifactObservation} {facts : Requirements}
    {candidate : ExactReference} {checks : List RetainedCheck} {artifact : BoundaryArtifact}
    {entry : ArtifactEntry}
    (h : artifactEntry observations facts candidate checks artifact = .ok entry) :
    entry.artifactId = artifact.id ∧ ∃ observation ∈ observations,
      observation.artifactId = artifact.id ∧ entry.state = artifactState artifact observation := by
  simp only [artifactEntry, bind_eq_ok, orFail_eq_ok, failIf_eq_ok, exists_unit, pure_eq_ok] at h
  obtain ⟨observation, hfound, -, -, -, -, -, sources, -, id, -, limitations, -, rfl⟩ := h
  obtain ⟨hmem, hid⟩ := mapGet_eq_some hfound
  exact ⟨rfl, observation, hmem, hid, rfl⟩

/-- **What the artifact ledger holds.** -/
structure ArtifactsHold (observations : List ArtifactObservation) (facts : Requirements)
    (entries : List ArtifactEntry) : Prop where
  observed : (observations.map (·.artifactId)).Nodup
  keys : (entries.map (·.artifactId)).Perm (facts.artifacts.map (·.id))
  entries : Matches (fun artifact entry => entry.artifactId = artifact.id
    ∧ ∃ observation ∈ observations, observation.artifactId = artifact.id
      ∧ entry.state = artifactState artifact observation) facts.artifacts entries

theorem artifactLedger_hold {observations : List ArtifactObservation} {facts : Requirements}
    {candidate : ExactReference} {checks : List RetainedCheck} {entries : List ArtifactEntry}
    (h : artifactLedger observations facts candidate checks = .ok entries) :
    ArtifactsHold observations facts entries := by
  simp only [artifactLedger, bind_eq_ok, failIf_eq_ok, exists_unit, pure_eq_ok, not_or,
    not_not] at h
  obtain ⟨-, ⟨hobserved, -⟩, made, hmade, rfl⟩ := h
  refine ⟨hobserved, ((perm_sortOn _ made).map _).trans (.of_eq ?_),
    matches_sortOn (.of_mapM hmade fun _ _ _ => artifactEntry_eq_ok) _⟩
  exact map_eq_of_mapM (fun _ _ hentry => (artifactEntry_eq_ok hentry).1) hmade

/-- What the entry of an observed Description keeps of it. -/
def Describes (observation : DescriptionObservation) (entry : DescriptionEntry) : Prop :=
  entry.state = descriptionState observation
    ∧ ∀ id, id ∈ entry.obligationIds ↔ id ∈ observation.obligationIds

theorem descriptionEntry_eq_ok {facts : Requirements} {candidate : ExactReference}
    {observation : DescriptionObservation} {entry : DescriptionEntry}
    (h : descriptionEntry facts candidate observation = .ok entry) :
    Describes observation entry := by
  simp only [descriptionEntry, bind_eq_ok, failIf_eq_ok, exists_unit, pure_eq_ok] at h
  obtain ⟨selected, hselected, -, -, -, -, -, id, -, rfl⟩ := h
  exact ⟨rfl, fun id => mem_sortedIds hselected⟩

theorem replay_addDescription {facts : Requirements} {candidate : ExactReference} :
    ∀ {observations : List DescriptionObservation} {known result : List DescriptionEntry},
      replay (addDescription facts candidate) known observations = .ok result →
      ∃ entries, result = known ++ entries ∧ Matches Describes observations entries
  | [], known, result, h => by
    rw [replay_nil, Except.ok.injEq] at h
    exact ⟨[], by rw [List.append_nil, h], ⟨by simp, by simp⟩⟩
  | observation :: observations, known, result, h => by
    rw [replay_cons, bind_eq_ok] at h
    obtain ⟨extended, hstep, h⟩ := h
    simp only [addDescription, bind_eq_ok, failIf_eq_ok, exists_unit, pure_eq_ok] at hstep
    obtain ⟨-, -, entry, hentry, rfl⟩ := hstep
    have hdescribes := descriptionEntry_eq_ok hentry
    obtain ⟨entries, rfl, hrest⟩ := replay_addDescription h
    refine ⟨entry :: entries, by rw [List.append_assoc, List.singleton_append], ?_, ?_⟩
    · rw [List.forall_mem_cons]
      refine ⟨⟨observation, List.mem_cons_self, hdescribes⟩, fun e he => ?_⟩
      obtain ⟨o, ho, hoe⟩ := hrest.source e he
      exact ⟨o, List.mem_cons_of_mem _ ho, hoe⟩
    · rw [List.forall_mem_cons]
      refine ⟨⟨entry, List.mem_cons_self, hdescribes⟩, fun o ho => ?_⟩
      obtain ⟨e, he, hoe⟩ := hrest.value o ho
      exact ⟨e, List.mem_cons_of_mem _ he, hoe⟩

theorem descriptionLedger_matches {observations : List DescriptionObservation}
    {facts : Requirements} {candidate : ExactReference} {entries : List DescriptionEntry}
    (h : descriptionLedger observations facts candidate = .ok entries) :
    Matches Describes observations entries := by
  simp only [descriptionLedger, bind_eq_ok, failIf_eq_ok, exists_unit, pure_eq_ok] at h
  obtain ⟨-, made, hmade, rfl⟩ := h
  obtain ⟨entries, rfl, hentries⟩ := replay_addDescription hmade
  exact matches_sortOn hentries _

theorem reviewerIndependence_eq_ok {input : AssessmentInput} {entries : List IndependenceEntry}
    (h : reviewerIndependence input = .ok entries) : ∃ entry, entries = [entry]
      ∧ entry.state = independenceState input.contextSeparation
        input.observation.reviewerSubjectDisposition := by
  simp only [reviewerIndependence, bind_eq_ok, pure_eq_ok] at h
  obtain ⟨id, -, rfl⟩ := h
  exact ⟨_, rfl, rfl⟩

/-! ## Obligations -/

/-- **An obligation is satisfied by entries that are all settled**, when there
are any: none of them need be satisfied. -/
theorem foldedState_satisfied_iff {severity : Severity} {values : List EvidenceState} :
    (foldedState severity values).1 = .satisfied
      ↔ values ≠ [] ∧ ∀ value ∈ values, value.settled = true := by
  constructor
  · intro h
    unfold foldedState at h
    split_ifs at h with hfailed hmissing hstale hunsupported hindeterminate _ hempty
    refine ⟨hempty, fun value hvalue => ?_⟩
    cases value <;> first | rfl | contradiction
  · rintro ⟨hempty, hall⟩
    have hnone : ∀ value : EvidenceState, value.settled = false → value ∉ values :=
      fun value hvalue hmem => by simp [hall value hmem] at hvalue
    simp [foldedState, hnone .failed rfl, hnone .missing rfl, hnone .stale rfl,
      hnone .unsupported rfl, hnone .indeterminate rfl, hempty]

/-- An obligation without entries is settled when it is a diagnostic one. -/
theorem foldedState_settled_iff {severity : Severity} {values : List EvidenceState} :
    (foldedState severity values).1.settled = true
      ↔ (values ≠ [] ∨ severity = .diagnostic) ∧ ∀ value ∈ values, value.settled = true := by
  by_cases hsatisfied : (foldedState severity values).1 = .satisfied
  · have h := foldedState_satisfied_iff.mp hsatisfied
    exact iff_of_true (by rw [hsatisfied]; rfl) ⟨.inl h.1, h.2⟩
  · by_cases hempty : values = []
    · subst hempty
      cases severity <;> simp [foldedState, EvidenceState.settled]
    · refine iff_of_false (fun hsettled => ?_) fun h =>
        hsatisfied (foldedState_satisfied_iff.mpr ⟨hempty, h.2⟩)
      unfold foldedState at hsettled hsatisfied
      split_ifs at hsettled hsatisfied <;> simp_all [EvidenceState.settled]

end Evidence
