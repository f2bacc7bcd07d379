import Lifecycle.BoundaryReferences

/-!
# Compiled and retained boundaries

What the compiler makes of the objects of a reconnaissance (`Represents`), why
its references are of the right kinds exactly when the source's are
(`Represents.wellKinded_iff`), and that sorting a boundary and retaining it as
a mandate change none of its references (`Keeps`).
-/

open Fallible Json ControlModel IntegrationAssessment

namespace WorkProduct

/-! ## What objects are compiled to -/

structure RiskOf (ids : IdMap) (o : ParsedBoundaryObject) (r : BoundaryRisk) : Prop where
  id : r.id = objectId ids o
  effects : Resolves ids (fieldOf o.fields "Effect") r.effectIds
  artifacts : Resolves ids (fieldOf o.fields "Evidence artifact") r.evidenceArtifactIds
  propositions : Resolves ids (fieldOf o.fields "Proposition") r.propositionIds

structure ObligationOf (ids : IdMap) (o : ParsedBoundaryObject) (b : BoundaryObligation) :
    Prop where
  id : b.id = objectId ids o
  artifacts : Resolves ids (fieldOf o.fields "Required evidence artifact")
    b.requiredEvidenceArtifactIds

structure ArtifactOf (ids : IdMap) (o : ParsedBoundaryObject) (a : BoundaryArtifact) : Prop where
  id : a.id = objectId ids o
  obligations : Resolves ids (fieldOf o.fields "Obligation") a.obligationIds

structure CheckOf (ids : IdMap) (o : ParsedBoundaryObject) (c : BoundaryCheck) : Prop where
  id : c.id = objectId ids o
  obligations : Resolves ids (fieldOf o.fields "Obligation") c.obligationIds

structure PropositionOf (ids : IdMap) (o : ParsedBoundaryObject) (p : BoundaryProposition) :
    Prop where
  id : p.id = objectId ids o
  artifacts : Resolves ids (fieldOf o.fields "Evidence artifact") p.evidenceArtifactIds
  obligations : Resolves ids (fieldOf o.fields "Obligation") p.obligationIds
  effects : Resolves ids (fieldOf o.fields "Effect") p.effectIds
  risks : Resolves ids (fieldOf o.fields "Risk") p.riskIds
  check : Resolves ids (checkOf o) p.checkId.toList

theorem effectOf_compile {ids : IdMap} {o : ParsedBoundaryObject} {e : BoundaryEffect}
    (h : compileEffect ids o = .ok e) : e.id = objectId ids o := by
  simp only [compileEffect, bind_eq_ok, pure_eq_ok] at h
  obtain ⟨_, _, _, _, _, _, _, _, rfl⟩ := h
  rfl

theorem riskOf_compile {ids : IdMap} {o : ParsedBoundaryObject} {r : BoundaryRisk}
    (h : compileRisk ids o = .ok r) : RiskOf ids o r := by
  simp only [compileRisk, bind_eq_ok, pure_eq_ok] at h
  obtain ⟨_, heffects, _, _, _, hartifacts, _, hpropositions, rfl⟩ := h
  exact ⟨rfl, resolves_of_resolveLocal heffects, resolves_of_resolveLocal hartifacts,
    resolves_of_resolveLocal hpropositions⟩

theorem obligationOf_compile {ids : IdMap} {mandate o : ParsedBoundaryObject}
    {selectedExternal : List String} {b : BoundaryObligation}
    (h : compileObligation ids mandate selectedExternal o = .ok b) : ObligationOf ids o b := by
  simp only [compileObligation, bind_eq_ok, pure_eq_ok] at h
  obtain ⟨_, _, _, _, _, hartifacts, _, _, rfl⟩ := h
  exact ⟨rfl, resolves_of_resolveLocal hartifacts⟩

theorem artifactOf_compile {ids : IdMap} {o : ParsedBoundaryObject} {a : BoundaryArtifact}
    (h : compileArtifact ids o = .ok a) : ArtifactOf ids o a := by
  simp only [compileArtifact, bind_eq_ok, pure_eq_ok] at h
  obtain ⟨_, _, _, _, _, _, _, hobligations, rfl⟩ := h
  exact ⟨rfl, resolves_of_resolveLocal hobligations⟩

theorem checkOf_compile {ids : IdMap} {o : ParsedBoundaryObject} {c : BoundaryCheck}
    (h : compileCheck ids o = .ok c) : CheckOf ids o c := by
  simp only [compileCheck, bind_eq_ok, pure_eq_ok] at h
  obtain ⟨_, _, _, _, _, _, _, hobligations, _, _, _, _, _, _, rfl⟩ := h
  exact ⟨rfl, resolves_of_resolveLocal hobligations⟩

/-- The one handle of a field is resolved as several are. -/
theorem resolves_of_optional {ids : IdMap} {label : String} {value resolved : Option String}
    (h : optional value (resolveHandle ids label) = .ok resolved) :
    Resolves ids value.toList resolved.toList := by
  cases value with
  | none =>
    obtain rfl : none = resolved := Except.ok.inj h
    refine ⟨fun handle hhandle => ?_, fun id hid => ?_⟩
    · cases hhandle
    · cases hid
  | some handle =>
    have hmapped : (resolveHandle ids label handle).map some = .ok resolved := h
    cases hfound : resolveHandle ids label handle with
    | error e =>
      rw [hfound] at hmapped
      cases hmapped
    | ok id =>
      rw [hfound] at hmapped
      obtain rfl : some id = resolved := Except.ok.inj hmapped
      have hlookup := orFail_eq_ok.mp hfound
      refine ⟨fun x hx => ?_, fun x hx => ?_⟩
      · obtain rfl := List.mem_singleton.mp hx
        exact ⟨id, List.mem_singleton_self id, hlookup⟩
      · obtain rfl := List.mem_singleton.mp hx
        exact ⟨handle, List.mem_singleton_self handle, hlookup⟩

theorem propositionOf_compile {ids : IdMap} {o : ParsedBoundaryObject} {p : BoundaryProposition}
    (h : compileProposition ids o = .ok p) : PropositionOf ids o p := by
  simp only [compileProposition, bind_eq_ok, pure_eq_ok] at h
  obtain ⟨_, _, _, _, _, hartifacts, _, hobligations, _, heffects, _, hrisks, _, _, _, hcheck,
    rfl⟩ := h
  exact ⟨rfl, resolves_of_resolveLocal hartifacts, resolves_of_resolveLocal hobligations,
    resolves_of_resolveLocal heffects, resolves_of_resolveLocal hrisks,
    resolves_of_optional hcheck⟩

/-- **The objects of a boundary are what its source is compiled to.** -/
structure Represents (objects : List ParsedBoundaryObject) (ids : IdMap) (m : BoundaryObjects) :
    Prop where
  effects : Matches (fun o (e : BoundaryEffect) => e.id = objectId ids o)
    (objectsOf objects .effect) m.effects
  risks : Matches (RiskOf ids) (objectsOf objects .risk) m.risks
  obligations : Matches (ObligationOf ids) (objectsOf objects .obligation) m.obligations
  artifacts : Matches (ArtifactOf ids) (objectsOf objects .artifact) m.artifacts
  checks : Matches (CheckOf ids) (objectsOf objects .check) m.checks
  propositions : Matches (PropositionOf ids) (objectsOf objects .proposition) m.propositions

/-- **The index of the obligations is the inverse of the propositions' own
lists.** -/
theorem indexed_withPropositions {m : BoundaryObjects} {bases : List BoundaryObligation}
    (h : m.obligations = bases.map (withPropositions m.propositions)) : Indexed m := by
  intro o ho id
  rw [h] at ho
  obtain ⟨base, _, rfl⟩ := List.mem_map.mp ho
  simp only [withPropositions, mem_sortUniqueCodePoints, List.mem_map, List.mem_filter,
    decide_eq_true_eq]
  constructor
  · rintro ⟨p, ⟨hp, hnames⟩, hid⟩
    exact ⟨p, hp, hid, hnames⟩
  · rintro ⟨p, hp, hid, hnames⟩
    exact ⟨p, ⟨hp, hnames⟩, hid⟩

theorem represents_compileObjects {ids : IdMap} {selectedExternal : List String}
    {objects : List ParsedBoundaryObject} {mandate : ParsedBoundaryObject} {m : BoundaryObjects}
    (h : compileObjects ids selectedExternal objects mandate = .ok m) :
    Represents objects ids m ∧ Indexed m := by
  simp only [compileObjects, bind_eq_ok, pure_eq_ok] at h
  obtain ⟨effects, heffects, risks, hrisks, bases, hbases, artifacts, hartifacts, checks, hchecks,
    _, _, propositions, hpropositions, rfl⟩ := h
  refine ⟨⟨?_, ?_, ?_, ?_, ?_, ?_⟩, indexed_withPropositions rfl⟩
  · exact .of_mapM heffects fun _ _ _ => effectOf_compile
  · exact .of_mapM hrisks fun _ _ _ => riskOf_compile
  · have hown : Matches (ObligationOf ids) (objectsOf objects .obligation) bases :=
      .of_mapM hbases fun _ _ _ => obligationOf_compile
    exact hown.map fun o b hob => ⟨hob.id, hob.artifacts⟩
  · exact .of_mapM hartifacts fun _ _ _ => artifactOf_compile
  · exact .of_mapM hchecks fun _ _ _ => checkOf_compile
  · exact .of_mapM hpropositions fun _ _ _ => propositionOf_compile

/-! ## Kinds -/

/-- **What a source names, field by field.** -/
theorem namesKinds_iff {objects : List ParsedBoundaryObject} :
    NamesKinds objects ↔
      (NamesIn objects .risk (fun o => fieldOf o.fields "Effect") .effect
        ∧ NamesIn objects .risk (fun o => fieldOf o.fields "Evidence artifact") .artifact
        ∧ NamesIn objects .risk (fun o => fieldOf o.fields "Proposition") .proposition)
      ∧ NamesIn objects .obligation (fun o => fieldOf o.fields "Required evidence artifact")
        .artifact
      ∧ NamesIn objects .artifact (fun o => fieldOf o.fields "Obligation") .obligation
      ∧ NamesIn objects .check (fun o => fieldOf o.fields "Obligation") .obligation
      ∧ NamesIn objects .proposition (fun o => fieldOf o.fields "Evidence artifact") .artifact
      ∧ NamesIn objects .proposition (fun o => fieldOf o.fields "Obligation") .obligation
      ∧ NamesIn objects .proposition (fun o => fieldOf o.fields "Effect") .effect
      ∧ NamesIn objects .proposition (fun o => fieldOf o.fields "Risk") .risk
      ∧ NamesIn objects .proposition checkOf .check := by
  simp only [NamesIn, mem_objectsOf, and_imp]
  constructor
  · intro h
    -- a handle of a field is among the references of its object
    have hfield : ∀ {owner kind : ObjectKind} {handles : ParsedBoundaryObject → List String},
        (∀ o : ParsedBoundaryObject, o.objectKind = owner →
          ∀ handle ∈ handles o, (handle, kind) ∈ references o) →
        ∀ o ∈ objects, o.objectKind = owner → ∀ handle ∈ handles o,
          ∃ t ∈ objects, t.localId = handle ∧ t.objectKind = kind :=
      fun hmem o ho hkind handle hhandle => h o ho (handle, _) (hmem o hkind handle hhandle)
    refine ⟨⟨hfield ?_, hfield ?_, hfield ?_⟩, hfield ?_, hfield ?_, hfield ?_, hfield ?_,
      hfield ?_, hfield ?_, hfield ?_, hfield ?_⟩
    all_goals
      intro o hkind handle hhandle
      simp [references, hkind, namedIn, hhandle]
  · rintro ⟨⟨hriskEffects, hriskArtifacts, hriskPropositions⟩, hobligations, hartifacts, hchecks,
      hevidence, hown, heffects, hrisks, hcheck⟩ o ho r hr
    cases hkind : o.objectKind <;>
      simp only [references, hkind, namedIn, List.mem_append, List.mem_map, List.not_mem_nil] at hr
    case risk =>
      obtain (⟨handle, hhandle, rfl⟩ | ⟨handle, hhandle, rfl⟩) | ⟨handle, hhandle, rfl⟩ := hr
      · exact hriskEffects o ho hkind handle hhandle
      · exact hriskArtifacts o ho hkind handle hhandle
      · exact hriskPropositions o ho hkind handle hhandle
    case obligation =>
      obtain ⟨handle, hhandle, rfl⟩ := hr
      exact hobligations o ho hkind handle hhandle
    case artifact =>
      obtain ⟨handle, hhandle, rfl⟩ := hr
      exact hartifacts o ho hkind handle hhandle
    case check =>
      obtain ⟨handle, hhandle, rfl⟩ := hr
      exact hchecks o ho hkind handle hhandle
    case proposition =>
      obtain (((⟨handle, hhandle, rfl⟩ | ⟨handle, hhandle, rfl⟩) | ⟨handle, hhandle, rfl⟩)
        | ⟨handle, hhandle, rfl⟩) | ⟨handle, hhandle, rfl⟩ := hr
      · exact hevidence o ho hkind handle hhandle
      · exact hown o ho hkind handle hhandle
      · exact heffects o ho hkind handle hhandle
      · exact hrisks o ho hkind handle hhandle
      · exact hcheck o ho hkind handle hhandle

/-- **References are of the right kinds exactly when the source's are.** -/
theorem Represents.wellKinded_iff {objects : List ParsedBoundaryObject} {ids : IdMap}
    {m : BoundaryObjects} (h : Represents objects ids m) (hids : Identified objects ids)
    (hindexed : Indexed m) : WellKinded m ↔ NamesKinds objects := by
  have heffect : ∀ o (e : BoundaryEffect), e.id = objectId ids o → e.id = objectId ids o :=
    fun _ _ hid => hid
  have hartifact : ∀ o a, ArtifactOf ids o a → a.id = objectId ids o := fun _ _ ha => ha.id
  have hobligation : ∀ o b, ObligationOf ids o b → b.id = objectId ids o := fun _ _ hb => hb.id
  rw [namesKinds_iff,
    ← h.risks.namesIn_iff hids (fun _ _ hr => hr.effects) h.effects heffect,
    ← h.risks.namesIn_iff hids (fun _ _ hr => hr.artifacts) h.artifacts hartifact,
    ← h.risks.namesIn_iff hids (fun _ _ hr => hr.propositions) h.propositions
      fun _ _ hp => hp.id,
    ← h.obligations.namesIn_iff hids (fun _ _ hb => hb.artifacts) h.artifacts hartifact,
    ← h.artifacts.namesIn_iff hids (fun _ _ ha => ha.obligations) h.obligations hobligation,
    ← h.checks.namesIn_iff hids (fun _ _ hc => hc.obligations) h.obligations hobligation,
    ← h.propositions.namesIn_iff hids (fun _ _ hp => hp.artifacts) h.artifacts hartifact,
    ← h.propositions.namesIn_iff hids (fun _ _ hp => hp.obligations) h.obligations hobligation,
    ← h.propositions.namesIn_iff hids (fun _ _ hp => hp.effects) h.effects heffect,
    ← h.propositions.namesIn_iff hids (fun _ _ hp => hp.risks) h.risks fun _ _ hr => hr.id,
    ← h.propositions.namesIn_iff hids (fun _ _ hp => hp.check) h.checks fun _ _ hc => hc.id]
  constructor
  · intro hm
    refine ⟨⟨hm.riskEffects, hm.riskArtifacts, hm.riskPropositions⟩, hm.obligationArtifacts,
      hm.artifactObligations, hm.checkObligations, hm.propositionArtifacts,
      hm.propositionObligations, hm.propositionEffects, hm.propositionRisks, ?_⟩
    intro p hp id hid
    exact hm.propositionCheck p hp id (Option.mem_toList.mp hid)
  · rintro ⟨⟨hriskEffects, hriskArtifacts, hriskPropositions⟩, hobligations, hartifacts, hchecks,
      hevidence, hown, heffects, hrisks, hcheck⟩
    refine ⟨hriskEffects, hriskArtifacts, hriskPropositions, hobligations, ?_, hartifacts, hchecks,
      hevidence, hown, heffects, hrisks, ?_⟩
    · intro o ho id hid
      obtain ⟨p, hp, hpid, _⟩ := (hindexed o ho id).mp hid
      exact ⟨p, hp, hpid⟩
    · intro p hp id hid
      exact hcheck p hp id (Option.mem_toList.mpr hid)

/-! ## Coverage -/

/-- An index that is not empty has a proposition. -/
theorem Indexed.exists_proposition {m : BoundaryObjects} (h : Indexed m) {o : BoundaryObligation}
    (ho : o ∈ m.obligations) (hids : o.propositionIds ≠ []) :
    ∃ p ∈ m.propositions, o.id ∈ p.obligationIds := by
  obtain ⟨id, hid⟩ := List.exists_mem_of_ne_nil _ hids
  obtain ⟨p, hp, _, hnames⟩ := (h o ho id).mp hid
  exact ⟨p, hp, hnames⟩

/-- **What passes the assertions is covered.** -/
theorem covered_of_asserted {m : BoundaryObjects} (hindexed : Indexed m)
    (hcovered : assertCovered m = .ok ()) (hchecks : assertChecksCovered m = .ok ()) :
    Covered m := by
  simp only [assertCovered, bind_eq_ok, exists_unit] at hcovered
  obtain ⟨hobligations, heffects, hrisks, hartifacts⟩ := hcovered
  rw [forM_eq_ok] at hobligations heffects hrisks hartifacts
  rw [assertChecksCovered, forM_eq_ok] at hchecks
  refine ⟨fun o ho hrequired => ?_, fun e he => ?_, fun r hr => ?_, fun a ha => ?_, fun c hc => ?_⟩
  · have hids := failIf_eq_ok.mp (hobligations o ho)
    exact hindexed.exists_proposition ho fun hempty => hids ⟨hrequired, hempty⟩
  · simpa only [failIf_eq_ok, not_forall, exists_prop, not_not] using heffects e he
  · simpa only [failIf_eq_ok, not_forall, exists_prop, not_not] using hrisks r hr
  · have hreached := failIf_eq_ok.mp (hartifacts a ha)
    rcases Classical.em (∃ p ∈ m.propositions, a.id ∈ p.evidenceArtifactIds) with hp | hp
    · exact .inl hp
    · refine .inr ?_
      have hnone : ∀ p ∈ m.propositions, a.id ∉ p.evidenceArtifactIds :=
        fun p hmem hnames => hp ⟨p, hmem, hnames⟩
      have hsome : ¬ ∀ o ∈ m.obligations, a.id ∈ o.requiredEvidenceArtifactIds →
          o.propositionIds = [] := fun hempty => hreached ⟨hnone, hempty⟩
      simp only [not_forall, exists_prop] at hsome
      obtain ⟨o, ho, hrequires, hids⟩ := hsome
      exact ⟨o, ho, hrequires, hindexed.exists_proposition ho hids⟩
  · simpa only [failIf_eq_ok, not_forall, exists_prop, not_not] using hchecks c hc

/-! ## What keeps the references -/

/-- Two lists that hold the same identities. -/
def SameIds (ids kept : List String) : Prop := ∀ id, id ∈ kept ↔ id ∈ ids

theorem SameIds.refl (ids : List String) : SameIds ids ids := fun _ => Iff.rfl

theorem SameIds.sorted {ids kept : List String} (h : SameIds ids kept) :
    SameIds ids (sortUniqueCodePoints kept) :=
  fun id => mem_sortUniqueCodePoints.trans (h id)

structure RiskKept (r kept : BoundaryRisk) : Prop where
  id : kept.id = r.id
  effects : SameIds r.effectIds kept.effectIds
  artifacts : SameIds r.evidenceArtifactIds kept.evidenceArtifactIds
  propositions : SameIds r.propositionIds kept.propositionIds

structure ObligationKept (o kept : BoundaryObligation) : Prop where
  id : kept.id = o.id
  severity : kept.severity = o.severity
  artifacts : SameIds o.requiredEvidenceArtifactIds kept.requiredEvidenceArtifactIds
  propositions : SameIds o.propositionIds kept.propositionIds

structure ArtifactKept (a kept : BoundaryArtifact) : Prop where
  id : kept.id = a.id
  obligations : SameIds a.obligationIds kept.obligationIds

structure CheckKept (c kept : BoundaryCheck) : Prop where
  id : kept.id = c.id
  obligations : SameIds c.obligationIds kept.obligationIds

structure PropositionKept (p kept : BoundaryProposition) : Prop where
  id : kept.id = p.id
  artifacts : SameIds p.evidenceArtifactIds kept.evidenceArtifactIds
  obligations : SameIds p.obligationIds kept.obligationIds
  effects : SameIds p.effectIds kept.effectIds
  risks : SameIds p.riskIds kept.riskIds
  check : kept.checkId = p.checkId

/-- **The objects of one boundary are those of another**, with the same
references in perhaps another order. -/
structure Keeps (m kept : BoundaryObjects) : Prop where
  effects : Matches (fun e k : BoundaryEffect => k.id = e.id) m.effects kept.effects
  risks : Matches RiskKept m.risks kept.risks
  obligations : Matches ObligationKept m.obligations kept.obligations
  artifacts : Matches ArtifactKept m.artifacts kept.artifacts
  checks : Matches CheckKept m.checks kept.checks
  propositions : Matches PropositionKept m.propositions kept.propositions

/-- What is retained refers to retained objects where its sources did. -/
theorem Matches.refers {α β τ υ : Type} {R : α → β → Prop} {S : τ → υ → Prop} {owners : List α}
    {kept : List β} {targets : List τ} {keptTargets : List υ} {refs : α → List String}
    {keptRefs : β → List String} {id : τ → String} {keptId : υ → String}
    (howners : Matches R owners kept) (hrefs : ∀ a b, R a b → SameIds (refs a) (keptRefs b))
    (htargets : Matches S targets keptTargets) (hid : ∀ t u, S t u → keptId u = id t)
    (h : ∀ a ∈ owners, ∀ i ∈ refs a, ∃ t ∈ targets, id t = i) :
    ∀ b ∈ kept, ∀ i ∈ keptRefs b, ∃ u ∈ keptTargets, keptId u = i := by
  intro b hb i hi
  obtain ⟨a, ha, hab⟩ := howners.source b hb
  obtain ⟨t, ht, rfl⟩ := h a ha i ((hrefs a b hab i).mp hi)
  obtain ⟨u, hu, htu⟩ := htargets.value t ht
  exact ⟨u, hu, hid t u htu⟩

/-- Where something is named it is named by what is retained as well. -/
theorem Matches.names {β γ : Type} {R : β → γ → Prop} {owners : List β} {kept : List γ}
    {refs : β → List String} {keptRefs : γ → List String} (howners : Matches R owners kept)
    (hrefs : ∀ a b, R a b → SameIds (refs a) (keptRefs b)) {id : String}
    (h : ∃ p ∈ owners, id ∈ refs p) : ∃ p ∈ kept, id ∈ keptRefs p := by
  obtain ⟨p, hp, hnames⟩ := h
  obtain ⟨k, hk, hpk⟩ := howners.value p hp
  exact ⟨k, hk, (hrefs p k hpk id).mpr hnames⟩

theorem SameIds.symm {ids kept : List String} (h : SameIds ids kept) : SameIds kept ids :=
  fun id => (h id).symm

theorem Matches.symm {α β : Type} {R : α → β → Prop} {S : β → α → Prop} {sources : List α}
    {values : List β} (h : Matches R sources values) (hS : ∀ a b, R a b → S b a) :
    Matches S values sources := by
  refine ⟨fun a ha => ?_, fun b hb => ?_⟩
  · obtain ⟨b, hb, hab⟩ := h.value a ha
    exact ⟨b, hb, hS a b hab⟩
  · obtain ⟨a, ha, hab⟩ := h.source b hb
    exact ⟨a, ha, hS a b hab⟩

namespace Keeps

variable {m kept : BoundaryObjects}

theorem symm (h : Keeps m kept) : Keeps kept m where
  effects := h.effects.symm fun _ _ he => he.symm
  risks := h.risks.symm fun _ _ hr =>
    ⟨hr.id.symm, hr.effects.symm, hr.artifacts.symm, hr.propositions.symm⟩
  obligations := h.obligations.symm fun _ _ ho =>
    ⟨ho.id.symm, ho.severity.symm, ho.artifacts.symm, ho.propositions.symm⟩
  artifacts := h.artifacts.symm fun _ _ ha => ⟨ha.id.symm, ha.obligations.symm⟩
  checks := h.checks.symm fun _ _ hc => ⟨hc.id.symm, hc.obligations.symm⟩
  propositions := h.propositions.symm fun _ _ hp =>
    ⟨hp.id.symm, hp.artifacts.symm, hp.obligations.symm, hp.effects.symm, hp.risks.symm,
      hp.check.symm⟩

theorem wellKinded (h : Keeps m kept) (hm : WellKinded m) : WellKinded kept where
  riskEffects := h.risks.refers (fun _ _ hr => hr.effects) h.effects (fun _ _ he => he)
    hm.riskEffects
  riskArtifacts := h.risks.refers (fun _ _ hr => hr.artifacts) h.artifacts (fun _ _ ha => ha.id)
    hm.riskArtifacts
  riskPropositions := h.risks.refers (fun _ _ hr => hr.propositions) h.propositions
    (fun _ _ hp => hp.id) hm.riskPropositions
  obligationArtifacts := h.obligations.refers (fun _ _ ho => ho.artifacts) h.artifacts
    (fun _ _ ha => ha.id) hm.obligationArtifacts
  obligationPropositions := h.obligations.refers (fun _ _ ho => ho.propositions) h.propositions
    (fun _ _ hp => hp.id) hm.obligationPropositions
  artifactObligations := h.artifacts.refers (fun _ _ ha => ha.obligations) h.obligations
    (fun _ _ ho => ho.id) hm.artifactObligations
  checkObligations := h.checks.refers (fun _ _ hc => hc.obligations) h.obligations
    (fun _ _ ho => ho.id) hm.checkObligations
  propositionArtifacts := h.propositions.refers (fun _ _ hp => hp.artifacts) h.artifacts
    (fun _ _ ha => ha.id) hm.propositionArtifacts
  propositionObligations := h.propositions.refers (fun _ _ hp => hp.obligations) h.obligations
    (fun _ _ ho => ho.id) hm.propositionObligations
  propositionEffects := h.propositions.refers (fun _ _ hp => hp.effects) h.effects
    (fun _ _ he => he) hm.propositionEffects
  propositionRisks := h.propositions.refers (fun _ _ hp => hp.risks) h.risks
    (fun _ _ hr => hr.id) hm.propositionRisks
  propositionCheck := by
    intro p hp id hid
    obtain ⟨source, hsource, hkept⟩ := h.propositions.source p hp
    obtain ⟨c, hc, rfl⟩ := hm.propositionCheck source hsource id (hkept.check.symm.trans hid)
    obtain ⟨k, hk, hck⟩ := h.checks.value c hc
    exact ⟨k, hk, hck.id⟩

theorem covered (h : Keeps m kept) (hm : Covered m) : Covered kept := by
  refine ⟨fun o ho hrequired => ?_, fun e he => ?_, fun r hr => ?_, fun a ha => ?_, fun c hc => ?_⟩
  · obtain ⟨source, hsource, hkept⟩ := h.obligations.source o ho
    rw [hkept.id]
    exact h.propositions.names (fun _ _ hp => hp.obligations)
      (hm.obligations source hsource (hkept.severity.symm.trans hrequired))
  · obtain ⟨source, hsource, hkept⟩ := h.effects.source e he
    rw [hkept]
    exact h.propositions.names (fun _ _ hp => hp.effects) (hm.effects source hsource)
  · obtain ⟨source, hsource, hkept⟩ := h.risks.source r hr
    rw [hkept.id]
    exact h.propositions.names (fun _ _ hp => hp.risks) (hm.risks source hsource)
  · obtain ⟨source, hsource, hkept⟩ := h.artifacts.source a ha
    rw [hkept.id]
    rcases hm.artifacts source hsource with hevidence | ⟨o, ho, hrequires, hreached⟩
    · exact .inl (h.propositions.names (fun _ _ hp => hp.artifacts) hevidence)
    · obtain ⟨k, hk, hok⟩ := h.obligations.value o ho
      refine .inr ⟨k, hk, (hok.artifacts _).mpr hrequires, ?_⟩
      rw [hok.id]
      exact h.propositions.names (fun _ _ hp => hp.obligations) hreached
  · obtain ⟨source, hsource, hkept⟩ := h.checks.source c hc
    obtain ⟨p, hp, hcheck⟩ := hm.checks source hsource
    obtain ⟨k, hk, hpk⟩ := h.propositions.value p hp
    exact ⟨k, hk, by rw [hkept.id, hpk.check, hcheck]⟩

theorem indexed (h : Keeps m kept) (hm : Indexed m) : Indexed kept := by
  intro o ho id
  obtain ⟨source, hsource, hkept⟩ := h.obligations.source o ho
  rw [hkept.propositions id, hm source hsource id, hkept.id]
  constructor
  · rintro ⟨p, hp, rfl, hnames⟩
    obtain ⟨k, hk, hpk⟩ := h.propositions.value p hp
    exact ⟨k, hk, hpk.id, (hpk.obligations _).mpr hnames⟩
  · rintro ⟨k, hk, rfl, hnames⟩
    obtain ⟨p, hp, hpk⟩ := h.propositions.source k hk
    exact ⟨p, hp, hpk.id.symm, (hpk.obligations _).mp hnames⟩

theorem wellReferenced (h : Keeps m kept) (hm : WellReferenced m) : WellReferenced kept :=
  ⟨h.wellKinded hm.kinds, h.covered hm.covered, h.indexed hm.indexed⟩

theorem references_iff (h : Keeps m kept) : WellReferenced kept ↔ WellReferenced m :=
  ⟨h.symm.wellReferenced, h.wellReferenced⟩

end Keeps

theorem effects_kept (effects : List BoundaryEffect) :
    Matches (fun e k : BoundaryEffect => k.id = e.id) effects (sortedById (·.id) effects) := by
  have hrefl : Matches (fun e k : BoundaryEffect => k.id = e.id) effects effects :=
    .of_eq fun _ => rfl
  exact hrefl.sorted

/-- **The order of the lists is no reference.** -/
theorem keeps_sorted (m : BoundaryObjects) : Keeps m m.sorted where
  effects := effects_kept m.effects
  risks := (Matches.of_eq fun _ => ⟨rfl, .refl _, .refl _, .refl _⟩).sorted
  obligations := (Matches.of_eq fun _ => ⟨rfl, rfl, .refl _, .refl _⟩).sorted
  artifacts := (Matches.of_eq fun _ => ⟨rfl, .refl _⟩).sorted
  checks := (Matches.of_eq fun _ => ⟨rfl, .refl _⟩).sorted
  propositions :=
    (Matches.of_eq fun _ => ⟨rfl, .refl _, .refl _, .refl _, .refl _, rfl⟩).sorted

/-! ## The retained mandate -/

theorem sortedObjectsById_eq_ok {α : Type} {id : α → String} {values sorted : List α}
    {label : String} (h : sortedObjectsById id values label = .ok sorted) :
    sorted = sortedById id values := by
  simp only [sortedObjectsById, bind_eq_ok, pure_eq_ok] at h
  obtain ⟨_, _, _, _, rfl⟩ := h
  rfl

theorem stringSet_eq_ok {values ids : List String} {label : String} {minimum : Nat}
    (h : stringSet values label minimum = .ok ids) : SameIds values ids := by
  simp only [stringSet, bind_eq_ok, pure_eq_ok] at h
  obtain ⟨_, _, rfl⟩ := h
  exact .sorted (.refl values)

theorem retainCheck_kept {basis : BoundaryBasis} {knowledge : List KnowledgeFact}
    {c : BoundaryCheck} {kept : RetainedCheck} (h : retainCheck basis knowledge c = .ok kept) :
    CheckKept c kept.check := by
  simp only [retainCheck, bind_eq_ok, pure_eq_ok] at h
  obtain ⟨_, _, _, _, _, _, _, hobligations, rfl⟩ := h
  exact ⟨rfl, stringSet_eq_ok hobligations⟩

theorem retainArtifact_kept {a kept : BoundaryArtifact} (h : retainArtifact a = .ok kept) :
    ArtifactKept a kept := by
  simp only [retainArtifact, bind_eq_ok, pure_eq_ok] at h
  obtain ⟨_, hobligations, rfl⟩ := h
  exact ⟨rfl, stringSet_eq_ok hobligations⟩

theorem retainProposition_kept {p kept : BoundaryProposition}
    (h : retainProposition p = .ok kept) : PropositionKept p kept := by
  simp only [retainProposition, bind_eq_ok, pure_eq_ok] at h
  obtain ⟨_, _, _, hobligations, rfl⟩ := h
  exact ⟨rfl, .sorted (.refl _), stringSet_eq_ok hobligations, .sorted (.refl _), .sorted (.refl _), rfl⟩

/-- **A retained mandate keeps the references of its boundary.** -/
theorem keeps_normalizeMandate {basis : BoundaryBasis} {b : WorkBoundary}
    {retained : RetainedMandate} (h : normalizeMandate basis b = .ok retained) :
    Keeps b.mandate.toBoundaryObjects retained.objects := by
  simp only [normalizeMandate, bind_eq_ok, pure_eq_ok] at h
  obtain ⟨_, _, effects, heffects, risks, hrisks, obligations, hobligations, _, _, artifacts,
    hartifacts, _, hartifactsSorted, _, _, checks, hchecks, _, hchecksSorted, _, _, propositions,
    hpropositions, _, hpropositionsSorted, rfl⟩ := h
  rw [sortedObjectsById_eq_ok heffects, sortedObjectsById_eq_ok hrisks,
    sortedObjectsById_eq_ok hobligations, sortedObjectsById_eq_ok hartifactsSorted,
    sortedObjectsById_eq_ok hchecksSorted, sortedObjectsById_eq_ok hpropositionsSorted]
  refine ⟨?_, ?_, ?_, ?_, ?_, ?_⟩
  · exact effects_kept b.mandate.effects
  · have hrefl : Matches RiskKept b.mandate.risks b.mandate.risks :=
      .of_eq fun _ => ⟨rfl, .refl _, .refl _, .refl _⟩
    refine Matches.sorted (hrefl.map fun r k hrk => ?_)
    exact ⟨hrk.id, hrk.effects.sorted, hrk.artifacts.sorted, hrk.propositions.sorted⟩
  · have hrefl : Matches ObligationKept b.mandate.obligations b.mandate.obligations :=
      .of_eq fun _ => ⟨rfl, rfl, .refl _, .refl _⟩
    refine Matches.sorted (hrefl.map fun o k hok => ?_)
    exact ⟨hok.id, hok.severity, hok.artifacts.sorted, hok.propositions.sorted⟩
  · exact Matches.sorted (.of_mapM hartifacts fun _ _ _ => retainArtifact_kept)
  · have hkept : Matches (fun c (k : RetainedCheck) => CheckKept c k.check) b.mandate.checks checks :=
      .of_mapM hchecks fun _ _ _ => retainCheck_kept
    exact hkept.sorted.map fun _ _ hck => hck
  · exact Matches.sorted (.of_mapM hpropositions fun _ _ _ => retainProposition_kept)

/-! ## The references of a compiled boundary -/

/-- **A compiled boundary** has objects that its source is compiled to, and
they pass every assertion about their coverage. -/
theorem compileSelection_objects {citations : Citations} {ids : IdMap} {selection : Fields}
    {objects : List ParsedBoundaryObject} {objective mandate : ParsedBoundaryObject}
    {b : WorkBoundary}
    (h : compileSelection citations ids selection objects objective mandate = .ok b) :
    ∃ m, Represents objects ids m ∧ Indexed m ∧ Covered m
      ∧ Keeps m b.mandate.toBoundaryObjects := by
  simp only [compileSelection, bind_eq_ok, pure_eq_ok] at h
  obtain ⟨m, hm, _, _, _, _, _, hcovered, _, _, _, hchecks, _, _, _, _, _, _, rfl⟩ := h
  obtain ⟨hrepresents, hindexed⟩ := represents_compileObjects hm
  exact ⟨m, hrepresents, hindexed, covered_of_asserted hindexed hcovered hchecks, keeps_sorted m⟩

/-- The Proposal section of a small boundary. Its artifact's obligation is the
handle of the Check. -/
def misnamingLines : List String := ["- Kind: work-boundary", "- Capability profile: b",
  "- Projection profile: execution-standard-v1", "- Selected Knowledge: check.c",
  "### Objective", "O",
  "### Mandate", "- Why now: n", "- Included: i", "M",
  "### Obligation: o", "- Kind: behavior", "- Severity: required", "o",
  "### Artifact: a", "- Path: a", "- Role: code", "- Must change: true", "- Obligation: c", "a",
  "### Check: c", "- Check Knowledge: check.c", "- Binding: b", "- Modality: diagnostic",
  "- Obligation: o", "- Baseline required: true", "- Final required: true", "c",
  "### Proposition: p", "- Evidence kind: check", "- Evidence artifact: a", "- Obligation: o",
  "- Check: c", "p"]

/-- A registry with the one Check Knowledge, which is cited. -/
def checkCitations : Citations :=
  ⟨[("check.c", ⟨"knowledge", some "check.c"⟩)], ["check.c"]⟩

/-- Whether an artifact refers to something that is no obligation. -/
def misnames (b : WorkBoundary) : Bool :=
  b.mandate.artifacts.any fun a => a.obligationIds.any fun id =>
    b.mandate.obligations.all fun o => decide (o.id ≠ id)

theorem not_wellReferenced_of_misnames {b : WorkBoundary} (h : misnames b = true) :
    ¬ WellReferenced b.mandate.toBoundaryObjects := by
  intro hb
  simp only [misnames, List.any_eq_true, List.all_eq_true, decide_eq_true_eq] at h
  obtain ⟨a, ha, id, hid, hnone⟩ := h
  obtain ⟨o, ho, hsame⟩ := hb.kinds.artifactObligations a ha id hid
  exact hnone o ho hsame

set_option maxRecDepth 100000 in
theorem misnamingLines_compiled :
    ((compileReconnaissance checkCitations [] [] misnamingLines).toOption.any
      fun semantics => semantics.workBoundary.any misnames) = true := by
  decide +kernel

/-- **The section is accepted**, and its boundary cannot be relied on. -/
theorem exists_misnaming : ∃ parsed semantics b, parseBoundary [] misnamingLines = .ok parsed
    ∧ compileReconnaissance checkCitations [] [] misnamingLines = .ok semantics
    ∧ semantics.workBoundary = some b ∧ ¬ WellReferenced b.mandate.toBoundaryObjects := by
  have hcompiled := misnamingLines_compiled
  cases hsemantics : compileReconnaissance checkCitations [] [] misnamingLines with
  | error e =>
    rw [hsemantics] at hcompiled
    cases hcompiled
  | ok semantics =>
    rw [hsemantics] at hcompiled
    cases hb : semantics.workBoundary with
    | none =>
      have hnone : semantics.workBoundary.any misnames = true := hcompiled
      rw [hb] at hnone
      cases hnone
    | some b =>
      have hsome : semantics.workBoundary.any misnames = true := hcompiled
      rw [hb] at hsome
      have hparses := hsemantics
      rw [compileReconnaissance, bind_eq_ok] at hparses
      obtain ⟨parsed, hparsed, _⟩ := hparses
      exact ⟨parsed, semantics, b, hparsed, rfl, hb, not_wellReferenced_of_misnames hsome⟩

end WorkProduct
