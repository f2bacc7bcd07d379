import Lifecycle.BoundaryAdmission
import Lifecycle.EventDrafts

/-!
# Final Checks of admitted boundaries

Admission looks at the bindings of all Checks, but holds only the baseline
Checks against the rules of one binding with the right modality. An admitted
boundary can be evaluated exactly when its other final Checks keep these rules
as well (`evaluable_iff`).
-/

open Fallible Json ControlModel IntegrationAssessment

namespace WorkProduct

/-! ## Identities -/

/-- A character has at most three bytes for each of its code units. -/
theorem utf8Size_le (c : Char) :
    (String.utf8EncodeChar c).length ≤ 3 * (utf16Units c).length := by
  rw [String.length_utf8EncodeChar, utf16Units]
  split
  · next h =>
    have hval : ¬ 0xffff < c.val := by
      intro hlt
      have hnat := UInt32.lt_iff_toNat_lt.mp hlt
      change 65535 < c.toNat at hnat
      omega
    have hfour : c.utf8Size ≠ 4 := fun hsize => hval (Char.utf8Size_eq_four_iff.mp hsize)
    have hle := Char.utf8Size_le_four c
    show c.utf8Size ≤ 3
    omega
  · have hle := Char.utf8Size_le_four c
    show c.utf8Size ≤ 6
    omega

theorem utf8Bytes_eq_flatMap (s : String) :
    utf8Bytes s = s.toList.flatMap String.utf8EncodeChar := by
  rw [← utf8Bytes_ofList, String.ofList_toList]

theorem byteLength_of_isText {value : String} {maximum : Nat} (h : isText value maximum = true) :
    byteLength value ≤ 3 * maximum := by
  simp only [isText, Bool.and_eq_true, decide_eq_true_eq] at h
  have hle : ∀ cs : List Char, (cs.flatMap String.utf8EncodeChar).length
      ≤ 3 * (cs.flatMap utf16Units).length := by
    intro cs
    induction cs with
    | nil => exact Nat.zero_le _
    | cons c cs ih =>
      have hc := utf8Size_le c
      rw [List.flatMap_cons, List.flatMap_cons, List.length_append, List.length_append]
      omega
  rw [byteLength, utf8Bytes_eq_flatMap]
  have hvalue := hle value.toList
  omega

/-- The identity of a binding is one of the control model. -/
theorem CheckBinding.isIdentifier (binding : CheckBinding) : isIdentifier binding.id = true := by
  have hlength := byteLength_of_isText binding.identified.1
  rw [ControlModel.isIdentifier, binding.identified.2, Bool.true_and, decide_eq_true_eq]
  omega

/-- The bytes of a segment of a Knowledge identity. -/
theorem identityByte_of_relationTail : ∀ {bs : List UInt8} {afterHyphen : Bool},
    relationTail afterHyphen bs = true → ∀ b ∈ bs, identityByte b = true
  | [], _, _, _, hb => by cases hb
  | b :: bs, afterHyphen, h, c, hc => by
    have halphanumeric : lowerAlphanumeric b = true → identityByte b = true := by
      intro hlower
      simp only [lowerAlphanumeric, Bool.or_eq_true] at hlower
      rcases hlower with hlower | hlower <;> simp [identityByte, alphanumeric, hlower]
    rw [relationTail] at h
    split at h
    · next hlower =>
      rcases List.mem_cons.mp hc with rfl | hc
      · exact halphanumeric hlower
      · exact identityByte_of_relationTail h c hc
    · simp only [Bool.and_eq_true] at h
      rcases List.mem_cons.mp hc with rfl | hc
      · simp [identityByte, h.1.1]
      · exact identityByte_of_relationTail h.2 c hc

theorem identityByte_of_isKnowledgeSegment {segment : List Char}
    (h : isKnowledgeSegment segment = true) :
    ∀ b ∈ utf8Bytes (String.ofList segment), identityByte b = true := by
  intro c hc
  rw [isKnowledgeSegment] at h
  cases hbytes : utf8Bytes (String.ofList segment) with
  | nil =>
    rw [hbytes] at hc
    cases hc
  | cons b bs =>
    rw [hbytes] at h hc
    have htail : relationTail false (b :: bs) = true := by
      simp only [Bool.and_eq_true] at h
      rw [relationTail, if_pos h.1]
      exact h.2
    exact identityByte_of_relationTail htail c hc

/-- The bytes of segments between dots. -/
theorem identityByte_of_intercalate : ∀ {segments : List (List Char)},
    (∀ segment ∈ segments, ∀ b ∈ utf8Bytes (String.ofList segment), identityByte b = true) →
    ∀ b ∈ (['.'].intercalate segments).flatMap String.utf8EncodeChar, identityByte b = true
  | [], _, b, hb => by cases hb
  | [segment], h, b, hb => by
    rw [List.intercalate_singleton, ← utf8Bytes_ofList] at hb
    exact h segment (List.mem_singleton_self segment) b hb
  | segment :: next :: rest, h, b, hb => by
    rw [List.intercalate_cons_cons, List.flatMap_append, List.flatMap_append, List.mem_append,
      List.mem_append] at hb
    rcases hb with (hb | hb) | hb
    · exact h segment List.mem_cons_self b (utf8Bytes_ofList segment ▸ hb)
    · have hdot : b ∈ ([46] : List UInt8) := hb
      rw [List.mem_singleton.mp hdot]
      rfl
    · exact identityByte_of_intercalate
        (fun segment hsegment => h segment (List.mem_cons_of_mem _ hsegment)) b hb

/-- The kinds of Knowledge start with a letter. -/
theorem bytes_of_mem_knowledgeKinds : ∀ kind ∈ knowledgeKinds,
    (∀ b ∈ utf8Bytes kind, identityByte b = true)
      ∧ (utf8Bytes kind).head?.any alphanumeric = true := by
  decide +kernel

/-- **Knowledge identities are identities of the control model.** -/
theorem isIdentifier_of_isKnowledgeId {id : String} (h : isKnowledgeId id = true) :
    isIdentifier id = true := by
  rw [isKnowledgeId, Bool.and_eq_true] at h
  obtain ⟨htext, h⟩ := h
  have hlength := byteLength_of_isText htext
  rw [isIdentifier, Bool.and_eq_true, decide_eq_true_eq]
  refine ⟨?_, by omega⟩
  have hjoined : ['.'].intercalate (id.toList.splitOn '.') = id.toList :=
    List.intercalate_splitOn '.'
  cases hsplit : id.toList.splitOn '.' with
  | nil =>
    rw [hsplit] at h
    cases h
  | cons kind segments =>
    rw [hsplit] at h hjoined
    simp only [Bool.and_eq_true, List.contains_iff_mem, List.all_eq_true] at h
    obtain ⟨⟨hkind, -⟩, hsegments⟩ := h
    obtain ⟨hkindBytes, hhead⟩ := bytes_of_mem_knowledgeKinds _ hkind
    have hbytes : ∀ b ∈ utf8Bytes id, identityByte b = true := by
      rw [utf8Bytes_eq_flatMap, ← hjoined]
      refine identityByte_of_intercalate fun segment hsegment => ?_
      rcases List.mem_cons.mp hsegment with rfl | hsegment
      · exact hkindBytes
      · exact identityByte_of_isKnowledgeSegment (hsegments segment hsegment)
    have hfirst : ∃ rest, utf8Bytes id = utf8Bytes (String.ofList kind) ++ rest := by
      rw [utf8Bytes_eq_flatMap id, ← hjoined, utf8Bytes_ofList]
      cases segments with
      | nil => exact ⟨[], by rw [List.intercalate_singleton, List.append_nil]⟩
      | cons next rest =>
        rw [List.intercalate_cons_cons, List.append_assoc, List.flatMap_append]
        exact ⟨_, rfl⟩
    obtain ⟨rest, hrest⟩ := hfirst
    rw [matchesIdPattern]
    cases hkindId : utf8Bytes (String.ofList kind) with
    | nil =>
      rw [hkindId] at hhead
      cases hhead
    | cons b bs =>
      rw [hkindId] at hhead hrest
      rw [hrest] at hbytes ⊢
      rw [List.cons_append] at hbytes ⊢
      simp only [List.forall_mem_cons] at hbytes
      exact Bool.and_eq_true_iff.mpr ⟨hhead, List.all_eq_true.mpr hbytes.2⟩

/-! ## What admission says of the Checks -/

/-- **The binding a fact is about is installed.** -/
structure Installed (contract : BoundaryContract) (fact : CheckBindingFact)
    (binding : CheckBinding) : Prop where
  found : contract.checkBindings.get fact.id = some binding
  binds : fact.checkKnowledgeId ∈ binding.checkIds
  digest : fact.digest = binding.digest
  implementation : fact.implementationDigest = binding.implementationDigest

theorem BoundaryContract.id_of_get (contract : BoundaryContract) {id : String}
    {binding : CheckBinding} (h : contract.checkBindings.get id = some binding) :
    binding.id = id :=
  contract.keyed _ (OrderedMap.get_eq_some_iff.mp h)

/-- One selected binding is installed, and so are those before it. -/
theorem installed_selectBinding {contract : BoundaryContract} {checkKnowledgeId bindingId : String}
    {selected next : OrderedMap String CheckBindingFact}
    (hselected : ∀ fact ∈ selected.values, ∃ binding, Installed contract fact binding)
    (h : selectBinding contract checkKnowledgeId selected bindingId = .ok next) :
    ∀ fact ∈ next.values, ∃ binding, Installed contract fact binding := by
  simp only [selectBinding, bind_eq_ok, orFail_eq_ok, failIf_eq_ok, exists_unit, pure_eq_ok,
    not_or, not_not] at h
  obtain ⟨binding, hbinding, ⟨hid, hbinds⟩, -, rfl⟩ := h
  intro fact hfact
  obtain ⟨key, hkey⟩ := OrderedMap.mem_values_iff.mp hfact
  rw [OrderedMap.get_set] at hkey
  split at hkey
  · obtain rfl := Option.some.inj hkey
    exact ⟨binding, hid ▸ hbinding, hbinds, rfl, rfl⟩
  · exact hselected fact (OrderedMap.mem_values_of_get hkey)

theorem installed_selectedCheckBindingFacts {contract : BoundaryContract} {b : WorkBoundary}
    {facts : List CheckBindingFact} (h : selectedCheckBindingFacts contract b = .ok facts) :
    ∀ fact ∈ facts, ∃ binding, Installed contract fact binding := by
  simp only [selectedCheckBindingFacts, bind_eq_ok, pure_eq_ok] at h
  obtain ⟨selected, hselected, rfl⟩ := h
  have hall : ∀ fact ∈ selected.values, ∃ binding, Installed contract fact binding := by
    refine replay_invariant (P := fun s : OrderedMap String CheckBindingFact =>
      ∀ fact ∈ s.values, ∃ binding, Installed contract fact binding) ?_ ?_ hselected
    · intro s c t hs hstep
      exact replay_invariant (fun _ _ _ => installed_selectBinding) hs hstep
    · intro fact hfact
      cases hfact
  intro fact hfact
  exact hall fact ((List.mem_insertionSort _).mp hfact)

/-- **A Check of a boundary, as it is retained.** -/
structure AdmittedCheck (contract : BoundaryContract) (c : BoundaryCheck) (k : RetainedCheck) :
    Prop where
  check : k.check = { c with obligationIds := k.check.obligationIds }
  identified : isIdentifier c.id = true
  definition : ∃ record : KnowledgeRecord, k.definition = record.fact
    ∧ record.id = c.checkKnowledgeId
  ids : k.bindings.map (·.id) = sortUniqueCodePoints c.bindingIds
  some : k.bindings ≠ []
  installed : ∀ fact ∈ k.bindings, fact.checkKnowledgeId = c.checkKnowledgeId
    ∧ ∃ binding, Installed contract fact binding

theorem onlyOne_eq_some {α : Type} {xs : List α} {a : α} : onlyOne xs = some a ↔ xs = [a] := by
  cases xs with
  | nil => exact iff_of_false (by simp [onlyOne]) (by simp)
  | cons x rest =>
    cases rest with
    | nil => simp [onlyOne]
    | cons y rest => exact iff_of_false (by simp [onlyOne]) (by simp)

/-- **A Check can be evaluated**: it selects one installed binding, which
allows its modality. -/
def Evaluable (contract : BoundaryContract) (c : BoundaryCheck) : Prop :=
  ∃ binding, (∀ id ∈ c.bindingIds, id = binding.id)
    ∧ contract.checkBindings.get binding.id = some binding
    ∧ c.modality ∈ binding.allowedModalities

/-- What a replay accepts, it accepts in some state. -/
theorem exists_of_replay {σ α : Type} {step : σ → α → Except FoundationError σ} :
    ∀ {xs : List α} {s t : σ}, replay step s xs = .ok t → ∀ x ∈ xs, ∃ u v, step u x = .ok v
  | [], _, _, _, _, hx => by cases hx
  | x :: xs, s, t, h, y, hy => by
    rw [replay_cons, bind_eq_ok] at h
    obtain ⟨v, hv, hrest⟩ := h
    rcases List.mem_cons.mp hy with rfl | hy
    · exact ⟨s, v, hv⟩
    · exact exists_of_replay hrest y hy

/-- **Baseline Checks pass the preflight only if they can be evaluated.** -/
theorem evaluable_of_baseline {contract : BoundaryContract} {b : WorkBoundary}
    (h : preflightBaselineSelections contract b = .ok ()) :
    ∀ c ∈ b.mandate.checks, c.baselineRequired = true → Evaluable contract c := by
  intro c hc hrequired
  simp only [preflightBaselineSelections, bind_eq_ok, exists_unit] at h
  obtain ⟨-, _, hreplay, -⟩ := h
  obtain ⟨_, _, hstep⟩ := exists_of_replay hreplay c hc
  rw [preflightBaselineSelection, if_neg (by simp [hrequired])] at hstep
  simp only [bind_eq_ok, orFail_eq_ok, failIf_eq_ok, exists_unit, not_or, not_not,
    onlyOne_eq_some] at hstep
  obtain ⟨-, bindingId, hone, binding, hfound, ⟨rfl, -, hmodality⟩, -⟩ := hstep
  refine ⟨binding, fun id hid => ?_, hfound, hmodality⟩
  rw [hone] at hid
  exact List.mem_singleton.mp hid

/-- Selected Knowledge is in the basis. -/
theorem mem_of_resolveSelected {basis : BoundaryBasis} {b : WorkBoundary}
    {selected : List KnowledgeFact × List SourceFact}
    (h : resolveSelected basis b = .ok selected) : ∀ item ∈ selected.1, item ∈ basis.knowledge := by
  simp only [resolveSelected, bind_eq_ok, pure_eq_ok] at h
  obtain ⟨_, _, _, _, knowledge, hknowledge, _, _, _, _, _, _, _, _, _, _, _, _, rfl⟩ := h
  have hmatches : Matches (fun id item => knowledgeFact basis id = .ok item) _ knowledge :=
    .of_mapM hknowledge fun _ _ _ hitem => hitem
  intro item hitem
  obtain ⟨id, -, hid⟩ := hmatches.source item hitem
  simp only [knowledgeFact, bind_eq_ok, orFail_eq_ok, pure_eq_ok] at hid
  obtain ⟨found, hfound, -, -, rfl⟩ := hid
  exact List.mem_of_find?_eq_some hfound

/-- **A retained Check is an admitted one.** -/
theorem admittedCheck_of_retainCheck {contract : BoundaryContract} {basis : FinalizationBasis}
    {facts : List CheckBindingFact} {knowledge : List KnowledgeFact} {c : BoundaryCheck}
    {k : RetainedCheck} (hknowledge : ∀ item ∈ knowledge, item ∈ basis.records.map (·.fact))
    (hfacts : ∀ fact ∈ facts, ∃ binding, Installed contract fact binding)
    (hid : isIdentifier c.id = true)
    (h : retainCheck (basis.boundaryBasis facts) knowledge c = .ok k) :
    AdmittedCheck contract c k := by
  simp only [retainCheck, stringSet, bind_eq_ok, orFail_eq_ok, failIf_eq_ok, exists_unit,
    pure_eq_ok] at h
  obtain ⟨definition, hdefinition, ids, ⟨hsome, rfl⟩, bindings, hbindings, obligationIds, -, rfl⟩ := h
  have hfound : ∀ {id fact}, bindingFact (basis.boundaryBasis facts) c.checkKnowledgeId id = .ok fact →
      fact ∈ facts ∧ fact.id = id ∧ fact.checkKnowledgeId = c.checkKnowledgeId := by
    intro id fact hfact
    have hfind := orFail_eq_ok.mp hfact
    have hmatch := List.find?_some hfind
    exact ⟨List.mem_of_find?_eq_some hfind, of_decide_eq_true hmatch⟩
  have hids : bindings.map (·.id) = sortUniqueCodePoints c.bindingIds := by
    have hpairs := mapM_eq_ok_iff.mp hbindings
    clear hbindings hsome
    revert hpairs
    generalize sortUniqueCodePoints c.bindingIds = ids
    intro hpairs
    induction hpairs with
    | nil => rfl
    | cons hfact _ ih => rw [List.map_cons, ih, (hfound hfact).2.1]
  refine ⟨rfl, hid, ?_, hids, ?_, fun fact hfact => ?_⟩
  · obtain ⟨record, -, hrecord⟩ :=
      List.mem_map.mp (hknowledge definition (List.mem_of_find?_eq_some hdefinition))
    have hsame := List.find?_some hdefinition
    exact ⟨record, hrecord.symm,
      (congrArg KnowledgeFact.id hrecord).trans (of_decide_eq_true hsame)⟩
  · rintro rfl
    rw [← hids] at hsome
    exact hsome Nat.zero_lt_one
  · have hmatches : Matches
        (fun id fact => bindingFact (basis.boundaryBasis facts) c.checkKnowledgeId id = .ok fact)
        _ bindings := .of_mapM hbindings fun _ _ _ hfact => hfact
    obtain ⟨id, -, hid⟩ := hmatches.source fact hfact
    obtain ⟨hmem, -, hdefines⟩ := hfound hid
    exact ⟨hdefines, hfacts fact hmem⟩

/-- **What is admitted.** -/
structure Admitted (contract : BoundaryContract) (b : WorkBoundary) (m : RetainedMandate) :
    Prop where
  checks : Matches (AdmittedCheck contract) b.mandate.checks m.checks
  distinct : (m.checks.map (·.check.id)).Nodup
  final : ∃ k ∈ m.checks, k.check.finalRequired = true
  baseline : ∀ c ∈ b.mandate.checks, c.baselineRequired = true → Evaluable contract c

theorem exists_final_of_assertRetainedPhases {checks : List BoundaryCheck}
    (h : assertRetainedPhases checks = .ok ()) : ∃ c ∈ checks, c.finalRequired = true := by
  by_contra hnone
  have hall : checks.all (fun c => !c.finalRequired) = true := by
    rw [List.all_eq_true]
    intro c hc
    cases hfinal : c.finalRequired with
    | true => exact absurd ⟨c, hc, hfinal⟩ hnone
    | false => rfl
  rw [assertRetainedPhases, missingRequiredCheckPhase] at h
  split at h
  · cases h
  · next hphase =>
    rw [if_pos hall] at hphase
    split at hphase <;> cases hphase

theorem admitted_of_admitBoundary {contract : BoundaryContract} {basis : FinalizationBasis}
    {b : WorkBoundary} {m : RetainedMandate} (h : admitBoundary contract basis b = .ok m) :
    Admitted contract b m := by
  simp only [admitBoundary, bind_eq_ok, exists_unit] at h
  obtain ⟨-, facts, hfacts, hpreflight, h⟩ := h
  have hinstalled := installed_selectedCheckBindingFacts hfacts
  simp only [normalizeMandate, bind_eq_ok, pure_eq_ok] at h
  obtain ⟨selected, hselected, _, _, _, _, _, _, _, _, _, _, _, _, _, _, checks, hchecks, sorted,
    hsorted, _, hphases, _, _, _, _, rfl⟩ := h
  have hids : (checks.map (·.check.id)).Nodup ∧ ∀ k ∈ checks, isIdentifier k.check.id = true := by
    simp only [sortedObjectsById, bind_eq_ok, failIf_eq_ok, exists_unit, not_not] at hsorted
    obtain ⟨hidentified, hnodup, -⟩ := hsorted
    refine ⟨hnodup, fun k hk => ?_⟩
    have hcontrol := forM_eq_ok.mp hidentified k hk
    cases hidentifier : controlIdentifier k.check.id ("Boundary checks" ++ " identity") with
    | error e =>
      rw [hidentifier] at hcontrol
      cases hcontrol
    | ok id => exact (controlIdentifier_eq_ok.mp hidentifier).1
  have hperm : sorted.Perm checks := by
    rw [sortedObjectsById_eq_ok hsorted]
    exact List.perm_insertionSort _ _
  have hmatches : Matches (AdmittedCheck contract) b.mandate.checks checks := by
    have hretained : Matches (fun c k => retainCheck (basis.boundaryBasis facts) selected.1 c = .ok k)
        b.mandate.checks checks := .of_mapM hchecks fun _ _ _ hk => hk
    have hof : ∀ c k, k ∈ checks → retainCheck (basis.boundaryBasis facts) selected.1 c = .ok k →
        AdmittedCheck contract c k := by
      intro c k hk hretains
      refine admittedCheck_of_retainCheck (mem_of_resolveSelected hselected) hinstalled ?_ hretains
      rw [← (retainCheck_kept hretains).id]
      exact hids.2 k hk
    refine ⟨fun k hk => ?_, fun c hc => ?_⟩
    · obtain ⟨c, hc, hck⟩ := hretained.source k hk
      exact ⟨c, hc, hof c k hk hck⟩
    · obtain ⟨k, hk, hck⟩ := hretained.value c hc
      exact ⟨k, hk, hof c k hk hck⟩
  refine ⟨⟨fun k hk => hmatches.source k (hperm.mem_iff.mp hk), fun c hc => ?_⟩, ?_, ?_,
    evaluable_of_baseline hpreflight⟩
  · obtain ⟨k, hk, hck⟩ := hmatches.value c hc
    exact ⟨k, hperm.mem_iff.mpr hk, hck⟩
  · exact ((hperm.map (·.check.id)).nodup_iff).mpr hids.1
  · obtain ⟨check, hcheck, hfinal⟩ := exists_final_of_assertRetainedPhases hphases
    obtain ⟨k, hk, rfl⟩ := List.mem_map.mp hcheck
    exact ⟨k, hk, hfinal⟩

/-! ## Selecting the final Checks -/

/-- The selection of a Check with one binding. -/
def selectionOf (k : RetainedCheck) (fact : CheckBindingFact) (binding : CheckBinding) :
    FinalCheckSelection :=
  ⟨k.check.id, k.definition.id, k.definition, fact.id, binding⟩

/-- **A Check is selected with its one binding.** -/
structure Selected (contract : BoundaryContract) (k : RetainedCheck) (s : FinalCheckSelection) :
    Prop where
  final : k.check.finalRequired = true
  one : ∃ fact binding, k.bindings = [fact] ∧ Installed contract fact binding
    ∧ s = selectionOf k fact binding

section Selection

variable {contract : BoundaryContract} {c : BoundaryCheck} {k : RetainedCheck}

theorem AdmittedCheck.id (hk : AdmittedCheck contract c k) : k.check.id = c.id :=
  (congrArg BoundaryCheck.id hk.check).trans rfl

/-- Its one binding is installed, and binds its definition. -/
theorem AdmittedCheck.binding (hk : AdmittedCheck contract c k) {fact : CheckBindingFact}
    (hfact : fact ∈ k.bindings) :
    ∃ binding, Installed contract fact binding ∧ k.definition.id ∈ binding.checkIds := by
  obtain ⟨hdefines, binding, hbinding⟩ := hk.installed fact hfact
  obtain ⟨record, hrecord, hid⟩ := hk.definition
  refine ⟨binding, hbinding, ?_⟩
  have hdefinition : k.definition.id = fact.checkKnowledgeId := by
    rw [hrecord, hdefines]
    exact hid
  exact hdefinition ▸ hbinding.binds

theorem exactDigest_eq_ok {failure : String → String → FoundationError} {value label d : String} :
    exactDigest failure value label = .ok d ↔ isSha256 value = true ∧ value = d := by
  simp only [exactDigest, bind_eq_ok, failIf_eq_ok, exists_unit, pure_eq_ok, Bool.not_eq_false]

/-- **A final Check is selected exactly when it has one binding.** -/
theorem finalCheckSelection_eq_ok (hk : AdmittedCheck contract c k)
    (hfinal : k.check.finalRequired = true) {selections next : List FinalCheckSelection} :
    finalCheckSelection contract selections k = .ok next
      ↔ k.check.id ∉ selections.map (·.id)
        ∧ ∃ s, Selected contract k s ∧ next = selections ++ [s] := by
  obtain ⟨record, hrecord, -⟩ := hk.definition
  have hidentified := isIdentifier_of_isKnowledgeId record.identified
  have hsafe : record.revision ≤ maxSafeInteger := record.positive.2.trans (by decide)
  rw [finalCheckSelection, if_neg (by simp [hfinal])]
  simp only [bind_eq_ok, failIf_eq_ok, exists_unit, pure_eq_ok, orFail_eq_ok, not_or, not_not,
    onlyOne_eq_some, controlIdentifier_eq_ok, exactDigest_eq_ok]
  constructor
  · rintro ⟨_, ⟨-, rfl⟩, hfresh, _, ⟨-, rfl⟩, -, _, ⟨-, rfl⟩, _, ⟨-, rfl⟩, fact, hone, _,
      ⟨-, rfl⟩, binding, hfound, -, _, ⟨-, rfl⟩, hdigest, _, ⟨-, rfl⟩, ⟨himplementation, -⟩, rfl⟩
    refine ⟨hfresh, _, ⟨hfinal, fact, binding, hone, ?_, rfl⟩, rfl⟩
    obtain ⟨installed, hinstalled, -⟩ := hk.binding (hone ▸ List.mem_singleton_self fact)
    obtain rfl : installed = binding := Option.some.inj (hinstalled.found.symm.trans hfound)
    exact hinstalled
  · rintro ⟨hfresh, _, ⟨-, fact, binding, hone, hinstalled, rfl⟩, rfl⟩
    obtain ⟨installed, hother, hbinds⟩ := hk.binding (hone ▸ List.mem_singleton_self fact)
    obtain rfl : installed = binding :=
      Option.some.inj (hother.found.symm.trans hinstalled.found)
    have hid : installed.id = fact.id := contract.id_of_get hinstalled.found
    refine ⟨k.check.id, ⟨hk.id ▸ hk.identified, rfl⟩, hfresh, k.definition.id, ⟨?_, rfl⟩, ⟨?_, ?_⟩,
      _, ⟨?_, rfl⟩, _, ⟨?_, rfl⟩, fact, hone, fact.id, ⟨hid ▸ installed.isIdentifier, rfl⟩,
      installed, hinstalled.found, hid, _, ⟨?_, rfl⟩, hinstalled.digest.symm, _, ⟨?_, rfl⟩,
      ⟨hinstalled.implementation.symm, hbinds⟩, rfl⟩
    · rw [hrecord]
      exact hidentified
    · rw [hrecord]
      exact Nat.not_lt.mpr record.positive.1
    · rw [hrecord]
      exact Nat.not_lt.mpr hsafe
    · rw [hrecord]
      exact record.digested.1
    · rw [hrecord]
      exact record.digested.2
    · rw [hinstalled.digest]
      exact installed.digested.1
    · rw [hinstalled.implementation]
      exact installed.digested.2

/-- **What is selected in a run over the Checks**: every final Check, and
nothing else. -/
theorem selected_of_replay : ∀ {ks : List RetainedCheck} {selections out : List FinalCheckSelection},
    (∀ k ∈ ks, ∃ c, AdmittedCheck contract c k) →
    replay (finalCheckSelection contract) selections ks = .ok out →
    (∀ k ∈ ks, k.check.finalRequired = true → ∃ s ∈ out, Selected contract k s)
      ∧ (∀ s ∈ selections, s ∈ out)
      ∧ ∀ s ∈ out, s ∈ selections ∨ ∃ k ∈ ks, Selected contract k s
  | [], selections, out, _, h => by
    obtain rfl : selections = out := Except.ok.inj h
    exact ⟨fun k hk => absurd hk List.not_mem_nil, fun s hs => hs, fun s hs => .inl hs⟩
  | k :: ks, selections, out, hks, h => by
    rw [replay_cons, bind_eq_ok] at h
    obtain ⟨next, hstep, hrest⟩ := h
    obtain ⟨hall, hkept, hsource⟩ :=
      selected_of_replay (fun k hk => hks k (List.mem_cons_of_mem _ hk)) hrest
    obtain ⟨c, hc⟩ := hks k List.mem_cons_self
    by_cases hfinal : k.check.finalRequired = true
    · obtain ⟨-, s, hselected, rfl⟩ := (finalCheckSelection_eq_ok hc hfinal).mp hstep
      have hs : s ∈ out := hkept s (List.mem_append_right _ (List.mem_singleton_self s))
      refine ⟨fun j hj hjfinal => ?_, fun t ht => hkept t (List.mem_append_left _ ht),
        fun t ht => ?_⟩
      · rcases List.mem_cons.mp hj with rfl | hj
        · exact ⟨s, hs, hselected⟩
        · exact hall j hj hjfinal
      · rcases hsource t ht with hsel | ⟨j, hj, hjs⟩
        · rcases List.mem_append.mp hsel with hsel | hsel
          · exact .inl hsel
          · rw [List.mem_singleton.mp hsel]
            exact .inr ⟨k, List.mem_cons_self, hselected⟩
        · exact .inr ⟨j, List.mem_cons_of_mem _ hj, hjs⟩
    · rw [finalCheckSelection, if_pos (Bool.not_eq_true _ ▸ hfinal)] at hstep
      obtain rfl : selections = next := Except.ok.inj hstep
      refine ⟨fun j hj hjfinal => ?_, hkept, fun t ht => ?_⟩
      · rcases List.mem_cons.mp hj with rfl | hj
        · exact absurd hjfinal hfinal
        · exact hall j hj hjfinal
      · rcases hsource t ht with hsel | ⟨j, hj, hjs⟩
        · exact .inl hsel
        · exact .inr ⟨j, List.mem_cons_of_mem _ hj, hjs⟩

/-- **Checks with one binding each are all selected.** -/
theorem exists_selections : ∀ {ks : List RetainedCheck} {selections : List FinalCheckSelection},
    (∀ k ∈ ks, ∃ c, AdmittedCheck contract c k) →
    (∀ k ∈ ks, k.check.finalRequired = true → ∃ s, Selected contract k s) →
    (ks.map (·.check.id)).Nodup → (∀ k ∈ ks, k.check.id ∉ selections.map (·.id)) →
    ∃ out, replay (finalCheckSelection contract) selections ks = .ok out
  | [], selections, _, _, _, _ => ⟨selections, rfl⟩
  | k :: ks, selections, hks, hone, hdistinct, hfresh => by
    rw [List.map_cons, List.nodup_cons] at hdistinct
    have hrest : ∀ next : List FinalCheckSelection,
        (∀ j ∈ ks, j.check.id ∉ next.map (·.id)) →
        ∃ out, replay (finalCheckSelection contract) next ks = .ok out :=
      fun next hnext => exists_selections (fun j hj => hks j (List.mem_cons_of_mem _ hj))
        (fun j hj => hone j (List.mem_cons_of_mem _ hj)) hdistinct.2 hnext
    simp only [replay_cons, bind_eq_ok]
    by_cases hfinal : k.check.finalRequired = true
    · obtain ⟨c, hc⟩ := hks k List.mem_cons_self
      obtain ⟨s, hs⟩ := hone k List.mem_cons_self hfinal
      have hstep := (finalCheckSelection_eq_ok hc hfinal).mpr
        ⟨hfresh k List.mem_cons_self, s, hs, rfl⟩
      obtain ⟨out, hout⟩ := hrest (selections ++ [s]) fun j hj hmem => by
        rw [List.map_append, List.mem_append] at hmem
        rcases hmem with hmem | hmem
        · exact hfresh j (List.mem_cons_of_mem _ hj) hmem
        · obtain ⟨-, fact, binding, -, -, rfl⟩ := hs
          have hsame : j.check.id = k.check.id := List.mem_singleton.mp hmem
          exact hdistinct.1 (hsame ▸ List.mem_map_of_mem hj)
      exact ⟨out, _, hstep, hout⟩
    · obtain ⟨out, hout⟩ := hrest selections fun j hj => hfresh j (List.mem_cons_of_mem _ hj)
      refine ⟨out, selections, ?_, hout⟩
      rw [finalCheckSelection, if_pos (Bool.not_eq_true _ ▸ hfinal)]

/-! ## Starting a selected Check -/

/-- One value has an identity that no other has. -/
theorem filter_eq_singleton {α : Type} {id : α → String} : ∀ {xs : List α},
    (xs.map id).Nodup → ∀ a ∈ xs, (xs.filter fun x => id x = id a) = [a]
  | x :: xs, hdistinct, a, ha => by
    rw [List.map_cons, List.nodup_cons] at hdistinct
    rcases List.mem_cons.mp ha with rfl | ha
    · rw [List.filter_cons_of_pos (by simp), List.filter_eq_nil_iff.mpr]
      intro y hy hsame
      exact hdistinct.1 (of_decide_eq_true hsame ▸ List.mem_map_of_mem hy)
    · have hne : id x ≠ id a := fun hsame => hdistinct.1 (hsame ▸ List.mem_map_of_mem ha)
      rw [List.filter_cons_of_neg (by simp [hne])]
      exact filter_eq_singleton hdistinct.2 a ha

/-- **A selected Check can be started exactly when its binding allows its
modality.** -/
theorem validateSelection_iff {m : RetainedMandate} (hdistinct : (m.checks.map (·.check.id)).Nodup)
    (hk : AdmittedCheck contract c k) (hmem : k ∈ m.checks) {s : FinalCheckSelection}
    (hs : Selected contract k s) :
    (∃ exact, validateSelection m s.id s.bindingId s.binding = .ok exact)
      ↔ k.check.modality ∈ s.binding.allowedModalities := by
  obtain ⟨-, fact, binding, hone, hinstalled, rfl⟩ := hs
  obtain ⟨record, hrecord, -⟩ := hk.definition
  obtain ⟨other, hother, hbinds⟩ := hk.binding (hone ▸ List.mem_singleton_self fact)
  obtain rfl : other = binding := Option.some.inj (hother.found.symm.trans hinstalled.found)
  have hsafe : record.revision ≤ maxSafeInteger := record.positive.2.trans (by decide)
  have hselected : (m.checks.filter fun j => j.check.id = k.check.id) = [k] :=
    @filter_eq_singleton _ (·.check.id) m.checks hdistinct k hmem
  have hbinding : (k.bindings.filter fun f => f.id = fact.id) = [fact] := by
    rw [hone, List.filter_cons_of_pos (by simp), List.filter_nil]
  have hid : other.id = fact.id := contract.id_of_get hinstalled.found
  show (∃ exact, validateSelection m k.check.id fact.id other = .ok exact)
    ↔ k.check.modality ∈ other.allowedModalities
  simp only [validateSelection, bind_eq_ok, failIf_eq_ok, exists_unit, pure_eq_ok,
    orFail_eq_ok, not_or, not_not, onlyOne_eq_some, exactDigest_eq_ok, hselected]
  constructor
  · rintro ⟨_, j, hj, _, -, -, hmodality, -⟩
    obtain rfl : k = j := List.singleton_inj.mp hj
    exact hmodality
  · intro hmodality
    refine ⟨_, k, rfl, fact, hbinding, ⟨hid, hinstalled.digest.symm,
      hinstalled.implementation.symm⟩, hmodality, hbinds, ⟨?_, ?_⟩, _, ⟨?_, rfl⟩, _, ⟨?_, rfl⟩, rfl⟩
    · rw [hrecord]
      exact Nat.not_lt.mpr record.positive.1
    · rw [hrecord]
      exact Nat.not_lt.mpr hsafe
    · rw [hrecord]
      exact record.digested.1
    · rw [hrecord]
      exact record.digested.2

/-! ## Evaluation of an admitted boundary -/

/-- A list without repetitions whose elements are all the same. -/
theorem sortUnique_eq_singleton {values : List String} {id : String}
    (hsome : sortUniqueCodePoints values ≠ []) (hall : ∀ value ∈ values, value = id) :
    sortUniqueCodePoints values = [id] := by
  have hnodup : (sortUniqueCodePoints values).Nodup :=
    (List.perm_insertionSort _ _).nodup_iff.mpr (List.nodup_dedup values)
  have hsame : ∀ value ∈ sortUniqueCodePoints values, value = id :=
    fun value hvalue => hall value (mem_sortUniqueCodePoints.mp hvalue)
  cases hsorted : sortUniqueCodePoints values with
  | nil => exact absurd hsorted hsome
  | cons first rest =>
    rw [hsorted] at hnodup hsame
    obtain rfl := hsame first List.mem_cons_self
    cases rest with
    | nil => rfl
    | cons second rest =>
      have hsecond := hsame second (List.mem_cons_of_mem _ List.mem_cons_self)
      exact absurd (hsecond ▸ List.mem_cons_self) (List.nodup_cons.mp hnodup).1

/-- **What a Check needs to be evaluated**, of the Check as it is retained. -/
theorem AdmittedCheck.bindings_iff (hk : AdmittedCheck contract c k) :
    Evaluable contract c ↔ ∃ fact binding, k.bindings = [fact] ∧ Installed contract fact binding
      ∧ k.check.modality ∈ binding.allowedModalities := by
  have hmodality : k.check.modality = c.modality := by rw [hk.check]
  rw [hmodality]
  constructor
  · rintro ⟨binding, hall, hfound, hallowed⟩
    have hsome : sortUniqueCodePoints c.bindingIds ≠ [] := by
      rw [← hk.ids]
      exact fun hnil => hk.some (List.map_eq_nil_iff.mp hnil)
    have hids := hk.ids.trans (sortUnique_eq_singleton hsome hall)
    obtain ⟨fact, hone, hid⟩ := List.map_eq_singleton_iff.mp hids
    obtain ⟨other, hother, -⟩ := hk.binding (hone ▸ List.mem_singleton_self fact)
    have hfact := hother.found
    rw [hid] at hfact
    obtain rfl : other = binding := Option.some.inj (hfact.symm.trans hfound)
    exact ⟨fact, other, hone, hother, hallowed⟩
  · rintro ⟨fact, binding, hone, hinstalled, hallowed⟩
    have hid : binding.id = fact.id := contract.id_of_get hinstalled.found
    refine ⟨binding, fun id hmem => ?_, hid ▸ hinstalled.found, hallowed⟩
    have hsorted : id ∈ sortUniqueCodePoints c.bindingIds := mem_sortUniqueCodePoints.mpr hmem
    rw [← hk.ids, hone] at hsorted
    exact (List.mem_singleton.mp hsorted).trans hid.symm

end Selection

/-- **An admitted boundary can be evaluated, Check by Check.** -/
theorem Admitted.checks_iff {contract : BoundaryContract} {b : WorkBoundary}
    {m : RetainedMandate} (h : Admitted contract b m) :
    (∃ selections, finalCheckSelections contract m = .ok selections
        ∧ ∀ s ∈ selections, ∃ exact, validateSelection m s.id s.bindingId s.binding = .ok exact)
      ↔ ∀ c ∈ b.mandate.checks, c.finalRequired = true → c.baselineRequired = false →
        Evaluable contract c := by
  have hsources : ∀ k ∈ m.checks, ∃ c, AdmittedCheck contract c k := by
    intro k hk
    obtain ⟨c, -, hck⟩ := h.checks.source k hk
    exact ⟨c, hck⟩
  simp only [finalCheckSelections, bind_eq_ok, failIf_eq_ok, exists_unit, pure_eq_ok]
  constructor
  · rintro ⟨_, ⟨out, hreplay, -, rfl⟩, hstarted⟩ c hc hfinal -
    obtain ⟨k, hk, hck⟩ := h.checks.value c hc
    have hkfinal : k.check.finalRequired = true := by
      rw [hck.check]
      exact hfinal
    obtain ⟨s, hs, hselected⟩ := (selected_of_replay hsources hreplay).1 k hk hkfinal
    have hallowed := (validateSelection_iff h.distinct hck hk hselected).mp
      (hstarted s ((List.mem_insertionSort _).mpr hs))
    obtain ⟨-, fact, binding, hone, hinstalled, rfl⟩ := hselected
    exact hck.bindings_iff.mpr ⟨fact, binding, hone, hinstalled, hallowed⟩
  · intro hother
    have hall : ∀ k ∈ m.checks, k.check.finalRequired = true → ∃ c, AdmittedCheck contract c k
        ∧ Evaluable contract c := by
      intro k hk hkfinal
      obtain ⟨c, hc, hck⟩ := h.checks.source k hk
      refine ⟨c, hck, ?_⟩
      cases hbaseline : c.baselineRequired with
      | true => exact h.baseline c hc hbaseline
      | false =>
        rw [hck.check] at hkfinal
        exact hother c hc hkfinal hbaseline
    have hone : ∀ k ∈ m.checks, k.check.finalRequired = true → ∃ s, Selected contract k s := by
      intro k hk hkfinal
      obtain ⟨c, hck, hevaluable⟩ := hall k hk hkfinal
      obtain ⟨fact, binding, hbindings, hinstalled, -⟩ := hck.bindings_iff.mp hevaluable
      exact ⟨_, hkfinal, fact, binding, hbindings, hinstalled, rfl⟩
    have hfresh : ∀ k ∈ m.checks, k.check.id ∉ ([] : List FinalCheckSelection).map (·.id) :=
      fun _ _ => List.not_mem_nil
    obtain ⟨out, hout⟩ := exists_selections hsources hone h.distinct hfresh
    obtain ⟨hselected, -, hsource⟩ := selected_of_replay hsources hout
    refine ⟨_, ⟨out, hout, ?_, rfl⟩, fun s hs => ?_⟩
    · obtain ⟨k, hk, hkfinal⟩ := h.final
      obtain ⟨s, hs, -⟩ := hselected k hk hkfinal
      exact List.ne_nil_of_mem hs
    · rcases hsource s ((List.mem_insertionSort _).mp hs) with hnil | ⟨k, hk, hks⟩
      · exact absurd hnil List.not_mem_nil
      · obtain ⟨c, hck, hevaluable⟩ := hall k hk hks.final
        refine (validateSelection_iff h.distinct hck hk hks).mpr ?_
        obtain ⟨fact, binding, hbindings, hinstalled, hallowed⟩ :=
          hck.bindings_iff.mp hevaluable
        obtain ⟨-, fact', binding', hbindings', hinstalled', rfl⟩ := hks
        obtain rfl := List.singleton_inj.mp (hbindings.symm.trans hbindings')
        obtain rfl : binding = binding' :=
          Option.some.inj (hinstalled.found.symm.trans hinstalled'.found)
        exact hallowed

/-- **A boundary that is admitted can be evaluated exactly when the final
Checks that are no baseline Checks can be as well.** -/
theorem evaluable_iff {contract : BoundaryContract} {basis : FinalizationBasis} {b : WorkBoundary}
    {m : RetainedMandate} (h : admitBoundary contract basis b = .ok m) :
    (∃ selections, finalCheckSelections contract m = .ok selections
        ∧ ∀ s ∈ selections, ∃ exact, validateSelection m s.id s.bindingId s.binding = .ok exact)
      ↔ ∀ c ∈ b.mandate.checks, c.finalRequired = true → c.baselineRequired = false →
        Evaluable contract c :=
  (admitted_of_admitBoundary h).checks_iff

/-! ## A final Check with two bindings -/

/-- A digest. -/
def someDigest : Sha256Digest :=
  "sha256:0000000000000000000000000000000000000000000000000000000000000000"

theorem isSha256_someDigest : isSha256 someDigest = true := by
  decide +kernel

/-- The binding of a definition, under an identity. -/
def plainBinding (id definition : String)
    (h : isText id 160 = true ∧ matchesIdPattern id = true) : CheckBinding :=
  ⟨id, [definition], [.regressionGuard], someDigest, someDigest, h,
    ⟨isSha256_someDigest, isSha256_someDigest⟩⟩

/-- A contract with one binding of a first definition, and two of a second. -/
def threeBindings : BoundaryContract where
  disciplineRoot := "knowledge/discipline"
  checkBindings := ⟨[("b", plainBinding "b" "check.a" (by decide +kernel)),
    ("c", plainBinding "c" "check.b" (by decide +kernel)),
    ("d", plainBinding "d" "check.b" (by decide +kernel))], by decide⟩
  keyed := by
    intro e he
    simp only [List.mem_cons, List.not_mem_nil, or_false] at he
    rcases he with rfl | rfl | rfl <;> rfl

theorem oneIsRevision : 1 ≤ 1 ∧ 1 ≤ 2147483647 := by decide

/-- The record of a Check definition. -/
def plainRecord (id : String) (h : isKnowledgeId id = true) : KnowledgeRecord :=
  ⟨id, 1, someDigest, someDigest, h, oneIsRevision, ⟨isSha256_someDigest, isSha256_someDigest⟩⟩

def twoDefinitions : FinalizationBasis where
  records := [plainRecord "check.a" (by decide +kernel), plainRecord "check.b" (by decide +kernel)]
  adoptions := []
  workTypes := []
  externalSources := []
  capabilityProfileId := "capability"
  projectionProfile := .executionStandard
  citedKnowledge := [someDigest]
  citedSources := []

/-- A final Check of a definition, with its bindings. -/
def finalCheck (id definition : String) (bindingIds : List String) (baseline : Bool) :
    BoundaryCheck :=
  ⟨id, definition, bindingIds, .regressionGuard, "Guards", ["o"], baseline, true, [], someDigest⟩

/-- The acceptance proposition of a Check. -/
def checkProposition (id check : String) : BoundaryProposition :=
  ⟨id, "Holds", [.check], ["a"], ["o"], [], [], none, some check, none, someDigest⟩

/-- A boundary whose second Check is final only, and selects two bindings. -/
def twoBindings : WorkBoundary where
  selectedKnowledgeIds := ["check.a", "check.b"]
  selectedWorkTypeIds := []
  selectedSourceIds := []
  capabilityProfileId := "capability"
  projectionProfile := .executionStandard
  mandate := {
    effects := []
    risks := []
    obligations := [⟨"o", .behavior, "Behaves", [], [], .required, ["p", "q"], someDigest⟩]
    artifacts := [⟨"a", "src/a", .code, true, ["o"], "Changes", someDigest⟩]
    checks := [finalCheck "k" "check.a" ["b"] true, finalCheck "l" "check.b" ["c", "d"] false]
    propositions := [checkProposition "p" "k", checkProposition "q" "l"]
    objective := ⟨"g", "Goal", someDigest⟩
    direction := ⟨"m", "Meaning", "Now", ["In"], [], [], [], [], [], someDigest⟩ }

theorem twoBindings_admitted :
    (admitBoundary threeBindings twoDefinitions twoBindings).isOk = true := by
  decide +kernel

/-- **Two bindings are more than evaluation can select.** -/
theorem twoBindings_not_evaluable : ¬ ∀ c ∈ twoBindings.mandate.checks, c.finalRequired = true →
    c.baselineRequired = false → Evaluable threeBindings c := by
  intro h
  obtain ⟨binding, hall, -, -⟩ := h (finalCheck "l" "check.b" ["c", "d"] false)
    (List.mem_cons_of_mem _ List.mem_cons_self) rfl rfl
  have hc : "c" = binding.id := hall "c" List.mem_cons_self
  have hd : "d" = binding.id := hall "d" (List.mem_cons_of_mem _ List.mem_cons_self)
  exact absurd (hc.trans hd.symm) (by decide)

theorem exists_admitted : ∃ m, admitBoundary threeBindings twoDefinitions twoBindings = .ok m := by
  have hok := twoBindings_admitted
  cases hadmission : admitBoundary threeBindings twoDefinitions twoBindings with
  | error e =>
    rw [hadmission] at hok
    cases hok
  | ok m => exact ⟨m, rfl⟩

/-- **Not every admitted boundary can be evaluated.** -/
theorem not_evaluable : ¬ ∀ contract basis b m, admitBoundary contract basis b = .ok m →
    ∃ selections, finalCheckSelections contract m = .ok selections
      ∧ ∀ s ∈ selections, ∃ exact,
        validateSelection m s.id s.bindingId s.binding = .ok exact := by
  intro h
  obtain ⟨m, hm⟩ := exists_admitted
  exact twoBindings_not_evaluable
    ((admitted_of_admitBoundary hm).checks_iff.mp (h _ _ _ m hm))

theorem twoBindings_not_selected : ∃ m, admitBoundary threeBindings twoDefinitions twoBindings = .ok m
    ∧ ¬ ∃ selections, finalCheckSelections threeBindings m = .ok selections
      ∧ ∀ s ∈ selections, ∃ exact,
        validateSelection m s.id s.bindingId s.binding = .ok exact := by
  obtain ⟨m, hm⟩ := exists_admitted
  exact ⟨m, hm, fun hselected => twoBindings_not_evaluable ((evaluable_iff hm).mp hselected)⟩

end WorkProduct
