import Lifecycle.ReservationPlanning
import Lifecycle.ReservationReadings

/-!
# What is planned is accepted

The reducer checks an opening that carries a reservation against its own
replay (`startActivity`), the planner compiles the reservation against the state
the replay publishes (`compileWorkDelegationReservationForDecision`). A planned
reservation is accepted, as the next event and at the instant it was planned
for, exactly when its activity and its identity are fresh and the boundary
retains no more of the reserved definitions than a slot carries. What else is
accepted in its place reserves the same agent and the same Checks.
-/

open Fallible Json ControlModel DeliveryReducer WorkDelegation

namespace ReservationPlanning

variable {owners : ReservationOwners} {store : DelegatedStore} {contract : RepositoryContract}
variable {decision : WorkDecision} {reservation : WorkDelegationReservation}

/-! ## The grant of a replay -/

section Grant

variable {resolve : DeliveryRecordRevisionResolver} {r next : Replay} {event : ControlRecordEvent}

/-- **A replay's grant is the payload of its revision.** -/
def GrantRetained (resolve : DeliveryRecordRevisionResolver) (r : Replay) : Prop :=
  ∀ d ∈ r.delegation, ∃ revision, resolve (subjectOf d.reference) = some revision
    ∧ parseWorkDelegationPayload (.object revision.payload) = .ok d.payload

theorem setWorkDelegation_grant (h : setWorkDelegation resolve r event = .ok next) :
    GrantRetained resolve next := by
  simp only [setWorkDelegation, bind_eq_ok, exactPayload_eq_ok, failIf_eq_ok, pure_eq_ok,
    exists_unit, exists_registered] at h
  obtain ⟨_, ⟨-, rfl⟩, -, -, revision, hfinal, grant, hgrant, -, -, -, _, -, -, _, -, -, _, -, -,
    _, -, -, -, -, -, continued, -, evaluated, -, rfl⟩ := h
  intro d hd
  rw [Option.mem_def, Option.some.injEq] at hd
  subst hd
  exact ⟨revision, hfinal.resolved, hgrant⟩

theorem GrantRetained.of_delegation (h : GrantRetained resolve r)
    (hsame : ∀ d ∈ next.delegation, ∃ e ∈ r.delegation, e.reference = d.reference
      ∧ e.payload = d.payload) : GrantRetained resolve next := by
  intro d hd
  obtain ⟨e, he, hreference, hpayload⟩ := hsame d hd
  rw [← hreference, ← hpayload]
  exact h e he

theorem grantRetained_of_reachable (h : (deliverySystem resolve).Reachable r) :
    GrantRetained resolve r := by
  refine h.invariant_of (fun s hs => ?_) ?_
  · obtain rfl := hs
    intro d hd
    cases hd
  · intro s event t hs hretained happend
    obtain ⟨verified, applied, k, hverified, -, -, -, happlied, rfl⟩ := append_eq_ok.mp happend
    obtain ⟨-, hdelegation, -, -⟩ := verifyEnvelope_accounts hverified
    have hstructural := (Structural.of_reachable hs).sameFacts (verifyEnvelope_sameFacts hverified)
    have hkept : GrantRetained resolve verified :=
      hretained.of_delegation fun d hd => ⟨d, hdelegation ▸ hd, rfl, rfl⟩
    show GrantRetained resolve applied
    have hstep := handle_accounts hstructural happlied
    -- Only a grant brings a payload, and a stop keeps the one it stops.
    cases hstep with
    | kept _ hsame => exact hkept.of_delegation fun d hd => ⟨d, hsame.delegation ▸ hd, rfl, rfl⟩
    | granted => exact setWorkDelegation_grant happlied
    | stopped hcurrent hnext =>
      refine hkept.of_delegation fun d hd => ⟨_, hcurrent, ?_⟩
      rw [hnext, Option.mem_def, Option.some.injEq] at hd
      rw [← hd]
      exact ⟨rfl, rfl⟩
    | opened _ hsame => exact hkept.of_delegation fun d hd => ⟨d, hsame ▸ hd, rfl, rfl⟩

end Grant

/-! ## Final Checks -/

section FinalChecks

/-- The members of a definition a slot carries. -/
structure DefinitionOf (definition : JsonObject) (d : ReservedDefinition) : Prop where
  id : member "id" definition = some (.string d.id)
  revision : member "revision" definition = some (nat d.revision)
  sourceDigest : member "sourceDigest" definition = some (.string d.sourceDigest)
  semanticDigest : member "semanticDigest" definition = some (.string d.semanticDigest)

/-- **What a selection says of the retained Check** it was made of. -/
structure Chosen (check : JsonObject) (s : FinalCheckSelection) : Prop where
  bounded : s.definition.revision ≤ maxSafeInteger
  id : member "id" check = some (.string s.id)
  definition : ∃ definition, member "definition" check = some (.object definition)
    ∧ DefinitionOf definition s.definition
  binding : ∃ selected, member "bindings" check = some (.array [.object selected])
    ∧ member "id" selected = some (.string s.bindingId)
    ∧ member "digest" selected = some (.string s.binding.digest)

/-- Whether a retained Check is required for the final phase. -/
def finalRequired (check : JsonObject) : Bool := asBool (member "finalRequired" check) = some true

variable {check : JsonObject} {s : FinalCheckSelection} {selections out : List FinalCheckSelection}

theorem object_eq_ok_iff {v : Option Json} {label : String} {o : JsonObject} :
    object v label = .ok o ↔ v = some (.object o) := by
  rw [object, orFail_eq_ok, asObject_eq_some]

theorem array_eq_ok_iff {v : Option Json} {label : String} {items : List Json} :
    array v label = .ok items ↔ v = some (.array items) := by
  rw [array, orFail_eq_ok, asArray_eq_some]

theorem identity_eq_ok {v : Option Json} {label id : String} (h : identity v label = .ok id) :
    v = some (.string id) := by
  simp only [identity, string, controlIdentifier, bind_eq_ok, orFail_eq_ok, asString_eq_some,
    failIf_eq_ok, exists_unit, pure_eq_ok] at h
  obtain ⟨text, htext, -, rfl⟩ := h
  exact htext

theorem digest_eq_ok {v : Option Json} {label d : String} (h : digest v label = .ok d) :
    v = some (.string d) := by
  simp only [digest, string, bind_eq_ok, orFail_eq_ok, asString_eq_some, failIf_eq_ok, exists_unit,
    pure_eq_ok] at h
  obtain ⟨text, htext, -, rfl⟩ := h
  exact htext

theorem definitionRevision_eq_ok {v : Option Json} {n : Nat} (h : definitionRevision v = .ok n) :
    v = some (nat n) ∧ n ≤ maxSafeInteger := by
  unfold definitionRevision at h
  split at h
  · next k =>
    simp only [bind_eq_ok, failIf_eq_ok, exists_unit, pure_eq_ok, not_or, not_lt] at h
    obtain ⟨⟨hpositive, hbounded⟩, rfl⟩ := h
    rw [nat, Int.toNat_of_nonneg (by omega)]
    exact ⟨rfl, by omega⟩
  · cases h

theorem checkDefinition_eq_ok {d : ReservedDefinition} (h : checkDefinition check = .ok d) :
    d.revision ≤ maxSafeInteger ∧ ∃ definition,
      member "definition" check = some (.object definition) ∧ DefinitionOf definition d := by
  simp only [checkDefinition, bind_eq_ok, object_eq_ok_iff, pure_eq_ok] at h
  obtain ⟨definition, hdefinition, id, hid, revision, hrevision, source, hsource, semantic,
    hsemantic, rfl⟩ := h
  obtain ⟨hread, hbounded⟩ := definitionRevision_eq_ok hrevision
  exact ⟨hbounded, definition, hdefinition, identity_eq_ok hid, hread, digest_eq_ok hsource,
    digest_eq_ok hsemantic⟩

theorem onlyBinding_eq_ok {bindings : List Json} {selected : JsonObject}
    (h : onlyBinding bindings = .ok selected) : bindings = [.object selected] := by
  unfold onlyBinding at h
  split at h
  · rw [object_eq_ok_iff, Option.some.injEq] at h
    rw [h]
  · cases h

theorem registeredBinding_eq_ok {id definitionId : String} {selected : JsonObject}
    {binding : String × RegisteredBinding}
    (h : registeredBinding contract id definitionId selected = .ok binding) :
    member "id" selected = some (.string binding.1)
      ∧ member "digest" selected = some (.string binding.2.digest) := by
  simp only [registeredBinding, bind_eq_ok, orFail_eq_ok, failIf_eq_ok, exists_unit,
    pure_eq_ok] at h
  obtain ⟨bindingId, hid, registered, -, -, retained, hretained, hdigest, -, -, -, rfl⟩ := h
  exact ⟨identity_eq_ok hid, by rw [digest_eq_ok hretained, not_not.mp hdigest]⟩

theorem selectFinalCheck_eq_ok (h : selectFinalCheck contract selections check = .ok s) :
    Chosen check s ∧ s.id ∉ selections.map (·.id) := by
  simp only [selectFinalCheck, bind_eq_ok, failIf_eq_ok, exists_unit, array_eq_ok_iff,
    pure_eq_ok] at h
  obtain ⟨id, hid, hfresh, d, hd, bindings, hbindings, selected, hselected, binding, hbinding,
    rfl⟩ := h
  obtain rfl := onlyBinding_eq_ok hselected
  obtain ⟨hbounded, hdefinition⟩ := checkDefinition_eq_ok hd
  exact ⟨⟨hbounded, identity_eq_ok hid, hdefinition, selected, hbindings,
    registeredBinding_eq_ok hbinding⟩, hfresh⟩

/-- **The selections of a list of Checks** are made of the required ones, in
order and under distinct identities. -/
theorem chosen_of_replay : ∀ {checks : List Json} {selections out : List FinalCheckSelection},
    (selections.map (·.id)).Nodup → replay (finalCheckSelection contract) selections checks = .ok out →
    ∃ (objects : List JsonObject) (chosen : List FinalCheckSelection),
      checks = objects.map .object ∧ out = selections ++ chosen
      ∧ List.Forall₂ Chosen (objects.filter finalRequired) chosen ∧ (out.map (·.id)).Nodup
  | [], selections, out, hnodup, h => by
    rw [replay_nil, Except.ok.injEq] at h
    obtain rfl := h
    exact ⟨[], [], rfl, (List.append_nil _).symm, .nil, hnodup⟩
  | value :: checks, selections, out, hnodup, h => by
    rw [replay_cons, bind_eq_ok] at h
    obtain ⟨next, hround, h⟩ := h
    simp only [finalCheckSelection, boolean, bind_eq_ok, object_eq_ok_iff, orFail_eq_ok] at hround
    obtain ⟨check, hcheck, required, hrequired, hround⟩ := hround
    obtain rfl := Option.some.inj hcheck
    cases required with
    | false =>
      rw [if_pos rfl, pure_eq_ok] at hround
      obtain rfl := hround
      obtain ⟨objects, chosen, rfl, rfl, hchosen, hdistinct⟩ := chosen_of_replay hnodup h
      refine ⟨check :: objects, chosen, rfl, rfl, ?_, hdistinct⟩
      rwa [List.filter_cons_of_neg (by simp [finalRequired, hrequired])]
    | true =>
      rw [if_neg (by simp)] at hround
      simp only [bind_eq_ok, pure_eq_ok] at hround
      obtain ⟨s, hs, rfl⟩ := hround
      obtain ⟨hchosen, hfresh⟩ := selectFinalCheck_eq_ok hs
      have hextended : ((selections ++ [s]).map (·.id)).Nodup := by
        rw [List.map_append, List.map_singleton, List.nodup_append_comm]
        exact List.nodup_cons.mpr ⟨hfresh, hnodup⟩
      obtain ⟨objects, chosen, rfl, rfl, hrest, hdistinct⟩ := chosen_of_replay hextended h
      refine ⟨check :: objects, s :: chosen, rfl, List.append_assoc _ _ _, ?_, hdistinct⟩
      rw [List.filter_cons_of_pos (by simp [finalRequired, hrequired])]
      exact .cons hchosen hrest

/-- A Check of a boundary that is required for the final phase. -/
def IsFinalCheck (boundary : ControlRecordRevision) (check : JsonObject) : Prop :=
  ∃ mandate checks, member "mandate" boundary.payload = some (.object mandate)
    ∧ member "checks" mandate = some (.array checks) ∧ .object check ∈ checks
    ∧ finalRequired check = true

/-- **What the final selections of a boundary are made of.** -/
theorem finalCheckSelections_eq_ok {boundary : ControlRecordRevision}
    (h : finalCheckSelections contract boundary = .ok selections) :
    ∃ mandate, ∃ objects : List JsonObject, ∃ chosen : List FinalCheckSelection,
      member "mandate" boundary.payload = some (.object mandate)
      ∧ member "checks" mandate = some (.array (objects.map .object))
      ∧ List.Forall₂ Chosen (objects.filter finalRequired) chosen
      ∧ (chosen.map (·.id)).Nodup ∧ selections.Perm chosen := by
  simp only [finalCheckSelections, bind_eq_ok, object_eq_ok_iff, array_eq_ok_iff, failIf_eq_ok,
    exists_unit, pure_eq_ok] at h
  obtain ⟨mandate, hmandate, checks, hchecks, unsorted, hunsorted, -, rfl⟩ := h
  have hnone : (([] : List FinalCheckSelection).map (·.id)).Nodup := List.nodup_nil
  obtain ⟨objects, chosen, rfl, hout, hchosen, hdistinct⟩ := chosen_of_replay hnone hunsorted
  rw [List.nil_append] at hout
  subst hout
  exact ⟨mandate, objects, _, hmandate, hchecks, hchosen, hdistinct,
    List.perm_insertionSort _ _⟩

end FinalChecks

/-! ## Reserved Checks -/

section ReservedChecks

variable {resolve : DeliveryRecordRevisionResolver} {r : Replay}
variable {boundary : ControlRecordRevision} {active : SubjectReference}

/-- What a slot reserves of a selection. -/
def FinalCheckSelection.reserved (s : FinalCheckSelection) : ReservedCheck :=
  ⟨s.id, s.definition, ⟨s.bindingId, s.binding.digest⟩⟩

/-- A slot reserves the retained Check a selection was made of: under its
identity, its one binding, and a definition with the retained text. -/
def Reserves (slots : List ReservedCheck) (check : JsonObject) (s : FinalCheckSelection) : Prop :=
  ∃ slot ∈ slots, slot.selectionId = s.id ∧ slot.binding = s.reserved.binding
    ∧ ∃ definition text, member "definition" check = some (.object definition)
      ∧ canonicalJson (definitionJson slot.definition) = .ok text
      ∧ canonicalJson (.object definition) = .ok text

theorem bindingAdmitted_only {binding : ResourceReference} {selected : JsonObject} :
    bindingAdmitted binding [.object selected] = .ok true ↔
      member "id" selected = some (.string binding.id)
        ∧ member "digest" selected = some (.string binding.digest) := by
  have hread : recordObject (some (.object selected)) "Admitted Check Binding" = .ok selected := rfl
  rw [bindingAdmitted, hread, ok_bind]
  split
  · next h =>
    simp only [asString_eq_some] at h
    exact iff_of_true rfl h
  · next h =>
    simp only [asString_eq_some] at h
    exact iff_of_false (by simp [bindingAdmitted]) h

/-- **What the reducer asserts of a Check that was selected.** -/
theorem assertReservedCheck_eq_ok {slots : List ReservedCheck} {check : JsonObject}
    {s : FinalCheckSelection} (hdistinct : (slots.map (·.selectionId)).Nodup)
    (hchosen : Chosen check s) :
    assertReservedCheck slots check = .ok () ↔ Reserves slots check s := by
  obtain ⟨-, hid, ⟨definition, hdefinition, -⟩, selected, hbindings, hbindingId,
    hbindingDigest⟩ := hchosen
  simp only [assertReservedCheck, recordArray, bind_eq_ok, orFail_eq_ok, failIf_eq_ok, exists_unit,
    hid, hdefinition, hbindings, asString, asArray, Option.some.injEq, Bool.not_eq_false]
  constructor
  · rintro ⟨slot, hslot, _, rfl, reserved, hreserved, admitted, hadmitted, hsame, _, rfl, found,
      hfound, rfl⟩
    rw [bindingAdmitted_only, hbindingId, hbindingDigest] at hfound
    obtain rfl := not_not.mp hsame
    have hpicked := List.find?_some hslot
    rw [decide_eq_true_eq] at hpicked
    refine ⟨slot, List.mem_of_find?_eq_some hslot, hpicked.symm, ?_, definition, reserved,
      hdefinition, hreserved, hadmitted⟩
    obtain ⟨hfirst, hsecond⟩ := hfound
    rw [Option.some.injEq, Json.string.injEq] at hfirst hsecond
    rw [FinalCheckSelection.reserved, hfirst, hsecond]
  · rintro ⟨slot, hslot, hselection, hbinding, retained, text, hretained, hreserved, hadmitted⟩
    obtain rfl := Json.object.inj (Option.some.inj (hdefinition.symm.trans hretained))
    refine ⟨slot, ?_, _, rfl, text, hreserved, text, hadmitted, not_not.mpr rfl, _, rfl, true, ?_,
      rfl⟩
    · -- The slots are under distinct identities, so the first found is this one.
      have hsome : (slots.find? fun x => decide (s.id = x.selectionId)).isSome = true :=
        List.find?_isSome.mpr ⟨slot, hslot, decide_eq_true hselection.symm⟩
      obtain ⟨found, hfound⟩ := Option.isSome_iff_exists.mp hsome
      have hpicked := List.find?_some hfound
      rw [decide_eq_true_eq] at hpicked
      rw [hfound, List.inj_on_of_nodup_map hdistinct (List.mem_of_find?_eq_some hfound) hslot
        (hpicked.symm.trans hselection.symm)]
    · rw [bindingAdmitted_only, hbinding, hbindingId, hbindingDigest]
      exact ⟨rfl, rfl⟩

/-- A traversal that only checks. -/
theorem exists_mapM_unit {α : Type} {f : α → Except FoundationError Unit} {xs : List α} :
    (∃ us, xs.mapM f = .ok us) ↔ ∀ x ∈ xs, f x = .ok () := by
  induction xs with
  | nil => exact iff_of_true ⟨[], rfl⟩ (by simp)
  | cons x xs ih =>
    rw [List.forall_mem_cons, ← ih]
    simp only [List.mapM_cons, bind_eq_ok, exists_unit, pure_eq_ok]
    constructor
    · rintro ⟨us, hx, vs, hvs, -⟩
      exact ⟨hx, vs, hvs⟩
    · rintro ⟨hx, vs, hvs⟩
      exact ⟨_, hx, vs, hvs, rfl⟩

/-- The records a list of objects is read as. -/
theorem mapM_recordObject {label : String} (objects : List JsonObject) :
    (objects.map .object).mapM (fun value => recordObject (some value) label) = .ok objects := by
  rw [mapM_eq_ok_iff, List.forall₂_map_left_iff, List.forall₂_same]
  exact fun _ _ => rfl

/-- **What the reducer asserts of the Checks of a boundary** the planner
selected them from. -/
theorem assertEvaluationChecks_eq_ok {o : WorkDelegationReservation} {mandate : JsonObject}
    {objects : List JsonObject} {chosen : List FinalCheckSelection}
    (hactive : r.subjects.activeBoundary = some active)
    (hboundary : exactDelegationRevision resolve r active "work-boundary" = .ok boundary)
    (hmandate : member "mandate" boundary.payload = some (.object mandate))
    (hchecks : member "checks" mandate = some (.array (objects.map .object)))
    (hchosen : List.Forall₂ Chosen (objects.filter finalRequired) chosen) :
    assertEvaluationChecks resolve r o = .ok () ↔
      (reservedChecks o.slots).length = chosen.length ∧ ∀ check ∈ objects.filter finalRequired,
        assertReservedCheck (reservedChecks o.slots) check = .ok () := by
  have hread := @mapM_recordObject "Reserved Check selection" objects
  have hobject : recordObject (member "mandate" boundary.payload) "Reserved evaluation mandate"
      = .ok mandate := by
    rw [hmandate]
    rfl
  have harray : recordArray (member "checks" mandate) "Reserved evaluation Checks"
      = .ok (objects.map .object) := by
    rw [hchecks]
    rfl
  unfold assertEvaluationChecks
  rw [hactive, orFail, ok_bind, hboundary, ok_bind, hobject, ok_bind, harray, ok_bind, hread,
    ok_bind]
  simp only [bind_eq_ok, failIf_eq_ok, exists_unit, not_not, pure_eq_ok, and_true]
  rw [exists_mapM_unit]
  show (_ = (objects.filter finalRequired).length
    ∧ ∀ check ∈ objects.filter finalRequired, _) ↔ _
  rw [hchosen.length_eq]

end ReservedChecks

/-! ## Openings -/

section Opening

variable {resolve : DeliveryRecordRevisionResolver} {r : Replay} {event : ControlRecordEvent}
variable {activityId observedAt : String} {o : WorkDelegationReservation}

/-- **An event that opens an activity under a reservation.** -/
structure OpensWith (event : ControlRecordEvent) (activityId : String)
    (operation : WorkDelegationOperation) (o : WorkDelegationReservation) : Prop where
  names : sortKeys (keys event.payload) = sortKeys ["activityId", "operation", "reservation"]
  activity : member "activityId" event.payload = some (.string activityId)
  operation : member "operation" event.payload = some (.string (operationText operation))
  reservation : ∃ value, member "reservation" event.payload = some value
    ∧ parseWorkDelegationReservation value = .ok o

/-- The standing direction of an operation. -/
def standingBrief (grant : WorkDelegationPayload) :
    WorkDelegationOperation → Option SubjectReference
  | .continue => grant.directionContinue.map delegationReference
  | .evaluate => grant.directionEvaluate.map delegationReference
  | .integrate => none

/-- **The current permission a reservation is opened under**, at an instant. -/
structure Permitted (r : Replay) (observedAt : String) (o : WorkDelegationReservation)
    (d : ReplayDelegation) : Prop where
  delegation : r.delegation = some d
  unconditional : r.subjects.materialCondition = none
  reference : d.reference = delegationReference o.delegation
  boundary : r.subjects.activeBoundary = some (delegationReference d.payload.boundary)
  admission : r.activeAdmission = some (delegationReference d.payload.admission)
  sequence : r.lastEvent.map (·.sequence) = some o.headSequence
  head : r.lastEvent.map (·.digest) = some o.headDigest
  basis : deliveryWorkDecisionBasisDigest (stateFromReplay r) = .ok o.basisDigest
  allowance : ∃ allowance, assessWorkDelegationAllowance d.payload r.delegatedCharges o observedAt
    d.stopped = .ok allowance ∧ allowance.allowed = true

/-- **What the reducer asks of a delegated opening.** -/
theorem delegatedBrief_eq_ok {operation : DeliveryOperation} {brief : Option SubjectReference} :
    delegatedBrief resolve r event activityId operation o = .ok brief ↔
      (∃ d, Permitted r event.occurredAt o d ∧ brief = standingBrief d.payload o.operation)
        ∧ o.activityId = activityId ∧ delegatedOperation operation = some o.operation
        ∧ r.plannedBriefs.get activityId = none
        ∧ (¬ ∃ a ∈ r.activityList, a.reservation.map (·.reservationId) = some o.reservationId)
        ∧ assertReservedChecks resolve r o = .ok () := by
  simp only [delegatedBrief, bind_eq_ok, orFail_eq_ok, failIf_eq_ok, exists_unit,
    assertReference_eq_ok, pure_eq_ok, Bool.not_eq_false]
  constructor
  · rintro ⟨d, hd, hexact, ⟨-, hreference⟩, ⟨-, hboundary⟩, ⟨-, hadmission⟩, basis, hbasis, hhead,
      hunused, hchecks, allowance, hallowance, hallowed, rfl⟩
    push Not at hexact hhead
    obtain ⟨hactivity, hoperation, hmaterial, hplanned⟩ := hexact
    obtain ⟨hsequence, hdigest, rfl⟩ := hhead
    exact ⟨⟨d, ⟨hd, hmaterial, Option.some.inj hreference, hboundary, hadmission, hsequence,
      hdigest, hbasis, allowance, hallowance, hallowed⟩, rfl⟩, hactivity, hoperation, hplanned,
      hunused, hchecks⟩
  · rintro ⟨⟨d, hd, rfl⟩, hactivity, hoperation, hplanned, hunused, hchecks⟩
    obtain ⟨allowance, hallowance, hallowed⟩ := hd.allowance
    refine ⟨d, hd.delegation, ?_, ⟨by simp, by rw [hd.reference]⟩, ⟨by simp, hd.boundary⟩,
      ⟨by simp, hd.admission⟩, o.basisDigest, hd.basis, ?_, hunused, hchecks, allowance,
      hallowance, hallowed, rfl⟩
    · push Not
      exact ⟨hactivity, hoperation, hd.unconditional, hplanned⟩
    · push Not
      exact ⟨hd.sequence, hd.head, rfl⟩

theorem descriptor_operationText (operation : WorkDelegationOperation) :
    deliveryOperationDescriptor (operationText operation)
      = .ok (deliveryOperation operation).descriptor := by
  cases operation <;> rfl

/-- **What opens a delegated activity.** -/
theorem startActivity_opensWith {operation : WorkDelegationOperation}
    (h : OpensWith event activityId operation o) :
    (∃ next, startActivity resolve r event = .ok next) ↔
      isIdentifier activityId = true ∧ r.activities.has activityId = false
        ∧ (∃ brief, delegatedBrief resolve r event activityId (deliveryOperation operation) o
            = .ok brief ∧ (brief = none ↔ operation = .integrate))
        ∧ deliveryOperation operation ∈ eligibleOperations r
        ∧ ∃ charges, addWorkDelegationAccounting r.delegatedCharges o.charges = .ok charges := by
  obtain ⟨hnames, hactivity, hoperation, value, hvalue, hparsed⟩ := h
  have hown : hasOwn event.payload "reservation" = true := by
    rw [hasOwn, hvalue]
    rfl
  have hpayload : exactPayload event (openingNames event.payload) = .ok event.payload := by
    rw [exactPayload_eq_ok, openingNames, if_pos hown]
    exact ⟨hnames, rfl⟩
  have hopening : openingReservation event.payload = .ok (some o) := by
    rw [openingReservation, hvalue]
    show (parseWorkDelegationReservation value >>= fun a => pure (some a)) = _
    rw [hparsed]
    rfl
  have hdescribed := descriptor_operationText operation
  have hfamily : ∃ family, familyOf (deliveryOperation operation).descriptor.activity
      = some family := by
    cases operation <;> exact ⟨_, rfl⟩
  obtain ⟨family, hfamily⟩ := hfamily
  have hagent : (deliveryOperation operation).descriptor.activity = .agent
      ↔ operation ≠ .integrate := by
    cases operation <;> simp [deliveryOperation, DeliveryOperation.descriptor]
  simp only [startActivity, bind_eq_ok, hpayload, Except.ok.injEq, exists_eq_left',
    identifierField_eq_ok, hactivity, Option.some.injEq, Json.string.injEq, stringField_eq_ok,
    hoperation, failIf_eq_ok, exists_unit, hdescribed, hopening, openingBrief, openingCharges,
    orFail_eq_ok, hfamily, hagent, pure_eq_ok, DeliveryOperation.descriptor_operation]
  constructor
  · rintro ⟨next, id, ⟨rfl, hid⟩, hnew, -, brief, hbrief, hsome, hnone, heligible, charges,
      hcharges, -⟩
    refine ⟨hid, by simpa using hnew, ⟨brief, hbrief, ?_⟩, not_not.mp heligible, charges, hcharges⟩
    grind
  · rintro ⟨hid, hnew, ⟨brief, hbrief, hexact⟩, heligible, charges, hcharges⟩
    refine ⟨_, activityId, ⟨rfl, hid⟩, by simp [hnew], ?_, brief, hbrief, ?_, ?_,
      not_not.mpr heligible, charges, hcharges, rfl⟩
    · cases operation <;> simp [deliveryOperation]
    · grind
    · grind

end Opening

/-! ## Plans -/

section Plan

variable {activityId observedAt : String} {current : CurrentSubjects}
variable {grant : WorkDelegationPayload} {agents checks : List WorkDelegationExecutionSlot}

/-- **What a decision is current in.** -/
structure CurrentIn (store : DelegatedStore) (decision : WorkDecision) (current : CurrentSubjects) :
    Prop where
  standing : currentStanding store.journal ≠ .closed
  unconditional : store.journal.subjects.materialCondition = none
  boundary : store.journal.subjects.activeBoundary = some current.activeBoundary
  admission : store.journal.activeAdmission = some current.admission
  delegation : ∃ d, store.journal.delegation = some d ∧ d.reference = current.delegation
    ∧ d.stopped = current.stopped
  sequence : store.journal.lastEvent.map (·.sequence) = some decision.headSequence
  head : store.journal.lastEvent.map (·.digest) = some decision.headDigest
  basis : deliveryWorkDecisionBasisDigest (stateFromReplay store.journal) = .ok decision.basisDigest
  eligible : deliveryOperation decision.operation ∈ eligibleOperations store.journal

theorem currentSubjects_eq_ok (h : currentSubjects store decision = .ok current) :
    CurrentIn store decision current := by
  simp only [currentSubjects, bind_eq_ok, orFail_eq_ok, failIf_eq_ok, exists_unit, pure_eq_ok] at h
  obtain ⟨hopen, boundary, hboundary, admission, hadmission, -, published, hpublished, -, hhead,
    basis, hbasis, hlast, rfl⟩ := h
  push Not at hopen hhead hlast
  obtain ⟨d, hd, rfl⟩ := Option.map_eq_some_iff.mp hpublished
  obtain ⟨e, he, -⟩ := Option.map_eq_some_iff.mp hhead.2
  obtain ⟨rfl, heligible⟩ := hlast
  have hsequence : (store.journal.lastEvent.map (·.sequence)).getD 0 = decision.headSequence :=
    hhead.1
  rw [he] at hsequence
  refine ⟨hopen.1, hopen.2, hboundary, hadmission, ⟨d, hd, rfl, rfl⟩, ?_, hhead.2, hbasis,
    heligible⟩
  rw [he]
  exact congrArg some hsequence

theorem exactRevision_eq_ok {selected : SubjectReference} {kind : String}
    {revision : ControlRecordRevision} (h : exactRevision store selected kind = .ok revision) :
    store.resolver (subjectOf selected) = some revision ∧ revision.recordKind = kind
      ∧ retainedReference revision = selected ∧ revision.processId = store.processId := by
  simp only [exactRevision, bind_eq_ok, orFail_eq_ok, failIf_eq_ok, exists_unit, pure_eq_ok] at h
  obtain ⟨_, hrevision, hexact, rfl⟩ := h
  push Not at hexact
  obtain ⟨hkind, hid, hnumber, hdigest, hprocess⟩ := hexact
  refine ⟨hrevision, hkind, ?_, hprocess⟩
  rw [retainedReference, hid, hnumber, hdigest]

theorem assertGoverning_eq_ok {granted : WorkDelegationReference} {kind : String}
    {reference : SubjectReference} (h : assertGoverning granted kind reference = .ok ()) :
    delegationReference granted = reference := by
  simp only [assertGoverning, bind_eq_ok, failIf_eq_ok] at h
  obtain ⟨text, htext, text', htext', hsame⟩ := h
  obtain rfl := not_not.mp hsame
  rw [referenceJson_injective htext htext']
  rfl

/-- **The grant a plan is made under** is the replay's. -/
theorem governingGrant_eq_ok {d : ReplayDelegation}
    (hretained : GrantRetained store.resolver store.journal)
    (hd : store.journal.delegation = some d) (hreference : d.reference = current.delegation)
    (h : governingGrant store current = .ok grant) :
    d.payload = grant ∧ delegationReference grant.boundary = current.activeBoundary
      ∧ delegationReference grant.admission = current.admission
      ∧ grant.directionContinue.isSome = grant.builder.isSome
      ∧ grant.directionEvaluate.isSome = grant.reviewer.isSome := by
  simp only [governingGrant, bind_eq_ok, exists_unit, pure_eq_ok] at h
  obtain ⟨revision, hrevision, parsed, hparsed, hboundary, hadmission, rfl⟩ := h
  obtain ⟨hresolved, -⟩ := exactRevision_eq_ok hrevision
  obtain ⟨retained, hsame, hpayload⟩ := hretained d hd
  rw [hreference, hresolved, Option.some.injEq] at hsame
  subst hsame
  rw [hparsed, Except.ok.injEq] at hpayload
  obtain ⟨hcontinue, hevaluate⟩ := parseWorkDelegationPayload_directed hparsed
  exact ⟨hpayload.symm, assertGoverning_eq_ok hboundary, assertGoverning_eq_ok hadmission,
    hcontinue, hevaluate⟩

/-- The slot of an agent carries the selection the grant delegates. -/
theorem agentSlot_eq_ok {selection : Option WorkDelegationAgentSelection} {role : DelegatedRole}
    {slot : WorkDelegationExecutionSlot} (h : agentSlot owners selection role = .ok slot) :
    ∃ id selected, selection = some selected ∧ slot = .agent id role selected := by
  simp only [agentSlot, bind_eq_ok, orFail_eq_ok, failIf_eq_ok, exists_unit, pure_eq_ok] at h
  obtain ⟨selected, hselected, resolved, -, _, -, _, -, -, rfl⟩ := h
  exact ⟨_, selected, hselected, rfl⟩

/-- **What was planned.** -/
structure Planned (owners : ReservationOwners) (store : DelegatedStore)
    (contract : RepositoryContract) (activityId observedAt : String) (decision : WorkDecision)
    (reservation : WorkDelegationReservation) (current : CurrentSubjects)
    (grant : WorkDelegationPayload) (agents checks : List WorkDelegationExecutionSlot) :
    Prop where
  identified : isIdentifier activityId = true
  currentIn : CurrentIn store decision current
  governing : governingGrant store current = .ok grant
  ofAgents : agentSlots owners grant decision.operation = .ok agents
  ofChecks : checkSlots owners store contract current.activeBoundary decision.operation = .ok checks
  activity : reservation.activityId = activityId
  operation : reservation.operation = decision.operation
  delegation : delegationReference reservation.delegation = current.delegation
  sequence : reservation.headSequence = decision.headSequence
  head : reservation.headDigest = decision.headDigest
  basis : reservation.basisDigest = decision.basisDigest
  slots : reservation.slots.Perm (agents ++ checks)
  compiled : ∃ value, compileWorkDelegationReservation value = .ok reservation
  allowance : ∃ allowance, assessWorkDelegationAllowance grant store.journal.delegatedCharges
    reservation observedAt current.stopped = .ok allowance ∧ allowance.allowed = true

/-- **What a returned reservation was planned from.** -/
theorem planned_of_compile
    (h : compileWorkDelegationReservationForDecision owners store contract activityId observedAt
      decision = .ok reservation) :
    ∃ current grant agents checks, Planned owners store contract activityId observedAt decision
      reservation current grant agents checks := by
  simp only [compileWorkDelegationReservationForDecision, controlIdentifier,
    bind_eq_ok, failIf_eq_ok, exists_unit, pure_eq_ok, Bool.not_eq_false] at h
  obtain ⟨_, ⟨hidentified, rfl⟩, at', hat, current, hcurrent, grant, hgrant, agents, hagents, checks,
    hchecks, subjectDigest, -, compiled, hcompiled, allowance, hallowance, hallowed, rfl⟩ := h
  obtain ⟨rfl, -⟩ := controlTimestamp_eq_ok_iff.mp hat
  obtain ⟨hparts, -⟩ := compileWorkDelegationReservation_charges hcompiled
  have hread := reservationParts_members hparts
  refine ⟨current, grant, agents, checks, hidentified, currentSubjects_eq_ok hcurrent, hgrant,
    hagents, hchecks, congrArg ReservationParts.activityId hread,
    congrArg ReservationParts.operation hread, ?_, congrArg ReservationParts.headSequence hread,
    congrArg ReservationParts.headDigest hread, congrArg ReservationParts.basisDigest hread, ?_,
    ⟨_, hcompiled⟩, allowance, hallowance, hallowed⟩
  · exact congrArg (fun parts => delegationReference parts.delegation) hread
  · rw [show compiled.slots = _ from congrArg ReservationParts.slots hread]
    exact List.perm_insertionSort _ _

variable (h : Planned owners store contract activityId observedAt decision reservation current grant
  agents checks)

include h in
/-- **A plan is made under the current permission.** -/
theorem Planned.permitted (hreachable : (deliverySystem store.resolver).Reachable store.journal) :
    ∃ d, Permitted store.journal observedAt reservation d ∧ d.payload = grant := by
  obtain ⟨d, hd, hreference, hstopped⟩ := h.currentIn.delegation
  obtain ⟨rfl, hboundary, hadmission, -, -⟩ :=
    governingGrant_eq_ok (grantRetained_of_reachable hreachable) hd hreference h.governing
  refine ⟨d, ⟨hd, h.currentIn.unconditional, ?_, ?_, ?_, ?_, ?_, ?_, ?_⟩, rfl⟩
  · rw [hreference, h.delegation]
  · rw [hboundary, h.currentIn.boundary]
  · rw [hadmission, h.currentIn.admission]
  · rw [h.sequence, h.currentIn.sequence]
  · rw [h.head, h.currentIn.head]
  · rw [h.basis, h.currentIn.basis]
  · rw [hstopped]
    exact h.allowance

include h in
/-- **A planned operation is directed**, when an agent works on it. -/
theorem Planned.directed (hreachable : (deliverySystem store.resolver).Reachable store.journal) :
    standingBrief grant reservation.operation = none ↔ reservation.operation = .integrate := by
  obtain ⟨d, hd, hreference, -⟩ := h.currentIn.delegation
  obtain ⟨-, -, -, hcontinue, hevaluate⟩ :=
    governingGrant_eq_ok (grantRetained_of_reachable hreachable) hd hreference h.governing
  have hagents := h.ofAgents
  rw [h.operation]
  cases hoperation : decision.operation with
  | «continue» =>
    simp only [hoperation, agentSlots, bind_eq_ok, pure_eq_ok] at hagents
    obtain ⟨slot, hslot, -⟩ := hagents
    obtain ⟨_, selected, hselected, -⟩ := agentSlot_eq_ok hslot
    rw [hselected] at hcontinue
    simp [standingBrief, Option.isSome_iff_ne_none.mp hcontinue]
  | evaluate =>
    simp only [hoperation, agentSlots, bind_eq_ok, pure_eq_ok] at hagents
    obtain ⟨slot, hslot, -⟩ := hagents
    obtain ⟨_, selected, hselected, -⟩ := agentSlot_eq_ok hslot
    rw [hselected] at hevaluate
    simp [standingBrief, Option.isSome_iff_ne_none.mp hevaluate]
  | integrate => simp [standingBrief]

/-- What an allowance was assessed for can be charged. -/
theorem exists_charges {value : JsonObject} {accounting : WorkDelegationAccounting}
    {stopped : Bool} {allowance : WorkDelegationAllowance}
    (hcompiled : compileWorkDelegationReservation value = .ok reservation)
    (h : assessWorkDelegationAllowance grant accounting reservation observedAt stopped
      = .ok allowance) :
    ∃ charges, addWorkDelegationAccounting accounting reservation.charges = .ok charges := by
  simp only [assessWorkDelegationAllowance, bind_eq_ok] at h
  obtain ⟨_, -, charged, hcharged, parsed, hparsed, _, -, prospective, hprospective, -⟩ := h
  rw [parseWorkDelegationAccounting_json hcharged,
    parseWorkDelegationReservation_compiled hcompiled hparsed] at hprospective
  exact ⟨prospective, hprospective⟩

/-- **A fresh opening**: of an activity that was neither started nor planned,
under a reservation no activity carries. -/
structure Fresh (r : Replay) (o : WorkDelegationReservation) : Prop where
  activity : r.activities.has o.activityId = false
  unplanned : r.plannedBriefs.get o.activityId = none
  unused : ¬ ∃ a ∈ r.activityList, a.reservation.map (·.reservationId) = some o.reservationId

/-- **What opens under the current permission** is fresh and reserves its
Checks. -/
theorem startActivity_permitted {resolve : DeliveryRecordRevisionResolver} {r : Replay}
    {event : ControlRecordEvent} {o : WorkDelegationReservation} {d : ReplayDelegation}
    (hd : Permitted r event.occurredAt o d) (hopens : OpensWith event o.activityId o.operation o)
    (hid : isIdentifier o.activityId = true)
    (hdirected : standingBrief d.payload o.operation = none ↔ o.operation = .integrate)
    (heligible : deliveryOperation o.operation ∈ eligibleOperations r)
    (hcharges : ∃ charges, addWorkDelegationAccounting r.delegatedCharges o.charges = .ok charges) :
    (∃ next, startActivity resolve r event = .ok next)
      ↔ Fresh r o ∧ assertReservedChecks resolve r o = .ok () := by
  rw [startActivity_opensWith hopens]
  simp only [delegatedBrief_eq_ok]
  constructor
  · rintro ⟨-, hnew, ⟨brief, ⟨-, -, -, hplanned, hunused, hchecks⟩, -⟩, -, -⟩
    exact ⟨⟨hnew, hplanned, hunused⟩, hchecks⟩
  · rintro ⟨hfresh, hchecks⟩
    have hoperation : delegatedOperation (deliveryOperation o.operation) = some o.operation := by
      cases o.operation <;> rfl
    exact ⟨hid, hfresh.activity, ⟨_, ⟨⟨d, hd, rfl⟩, trivial, hoperation, hfresh.unplanned,
      hfresh.unused, hchecks⟩, hdirected⟩, heligible, hcharges⟩

/-! ## Planned Checks -/

/-- The agents' slots reserve no Check. -/
theorem reservedChecks_agentSlots {operation : WorkDelegationOperation}
    (h : agentSlots owners grant operation = .ok agents) :
    reservedChecks agents = [] := by
  cases operation with
  | integrate =>
    rw [agentSlots, Except.ok.injEq] at h
    rw [← h]
    rfl
  | _ =>
    simp only [agentSlots, bind_eq_ok, pure_eq_ok] at h
    obtain ⟨slot, hslot, rfl⟩ := h
    obtain ⟨_, _, -, rfl⟩ := agentSlot_eq_ok hslot
    rfl

/-- The slots of final Checks reserve what was selected. -/
theorem reservedChecks_of_mapM {runtime : CheckCellRuntime} {selections : List FinalCheckSelection}
    {slots : List WorkDelegationExecutionSlot} (h : selections.mapM (checkSlot runtime) = .ok slots) :
    reservedChecks slots = selections.map (·.reserved) := by
  rw [mapM_eq_ok_iff] at h
  induction h with
  | nil => rfl
  | cons hslot _ ih =>
    simp only [checkSlot, bind_eq_ok, pure_eq_ok] at hslot
    obtain ⟨_, -, rfl⟩ := hslot
    rw [List.map_cons, ← ih]
    rfl

include h in
/-- **What a planned evaluation reserves.** -/
theorem Planned.reservedChecks_perm (hevaluate : decision.operation = .evaluate) :
    ∃ boundary selections, exactRevision store current.activeBoundary "work-boundary" = .ok boundary
      ∧ finalCheckSelections contract boundary = .ok selections
      ∧ (reservedChecks reservation.slots).Perm (selections.map (·.reserved)) := by
  have hchecks := h.ofChecks
  rw [hevaluate, checkSlots] at hchecks
  simp only [evaluationSlots, bind_eq_ok, failIf_eq_ok, exists_unit] at hchecks
  obtain ⟨boundary, hboundary, -, -, runtime, -, selections, hselections, hslots⟩ := hchecks
  refine ⟨boundary, selections, hboundary, hselections, ?_⟩
  rw [← reservedChecks_of_mapM hslots, ← List.nil_append (reservedChecks checks),
    ← reservedChecks_agentSlots h.ofAgents, reservedChecks, reservedChecks, reservedChecks,
    ← List.filterMap_append]
  exact h.slots.filterMap _

/-- **The boundary retains no more of the definitions** an evaluation reserves
than a slot carries: a retained definition has the text of what is read off it. -/
def DefinitionsRetained (store : DelegatedStore) (operation : WorkDelegationOperation) : Prop :=
  operation = .evaluate → ∀ active boundary,
    store.journal.subjects.activeBoundary = some active →
    store.resolver (subjectOf active) = some boundary → ∀ check, IsFinalCheck boundary check →
    ∀ definition d, member "definition" check = some (.object definition) →
    DefinitionOf definition d →
    canonicalJson (.object definition) = canonicalJson (definitionJson d)

theorem DefinitionOf.unique {definition : JsonObject} {d e : ReservedDefinition}
    (hd : DefinitionOf definition d) (he : DefinitionOf definition e) : d = e := by
  have hid := hd.id.symm.trans he.id
  have hrevision := hd.revision.symm.trans he.revision
  have hsource := hd.sourceDigest.symm.trans he.sourceDigest
  have hsemantic := hd.semanticDigest.symm.trans he.semanticDigest
  simp only [nat, Option.some.injEq, Json.string.injEq, Json.number.injEq, JsNumber.integer.injEq,
    Int.natCast_inj] at hid hrevision hsource hsemantic
  cases d
  cases e
  simp_all

theorem canonicalizable_definitionJson {d : ReservedDefinition} (h : d.revision ≤ maxSafeInteger) :
    Canonicalizable (definitionJson d) := by
  refine canonicalizable_object fun m hm => ?_
  simp only [List.mem_cons, List.not_mem_nil, or_false] at hm
  rcases hm with rfl | rfl | rfl | rfl
  · exact canonicalizable_string _
  · exact canonicalizable_nat h
  · exact canonicalizable_string _
  · exact canonicalizable_string _

/-- **A selection that has its slot** is reserved when its definition is
retained with the text of what was selected. -/
theorem reserves_iff {slots : List ReservedCheck} {check definition : JsonObject}
    {s : FinalCheckSelection} (hdistinct : (slots.map (·.selectionId)).Nodup)
    (hslot : s.reserved ∈ slots) (hchosen : Chosen check s)
    (hdefinition : member "definition" check = some (.object definition)) :
    Reserves slots check s ↔
      canonicalJson (.object definition) = canonicalJson (definitionJson s.definition) := by
  constructor
  · rintro ⟨slot, hmem, hid, -, retained, text, hretained, hreserved, hadmitted⟩
    obtain rfl := Json.object.inj (Option.some.inj (hdefinition.symm.trans hretained))
    obtain rfl := List.inj_on_of_nodup_map hdistinct hmem hslot hid
    exact hadmitted.trans hreserved.symm
  · intro hsame
    obtain ⟨text, htext⟩ := canonicalizable_definitionJson hchosen.bounded
    exact ⟨s.reserved, hslot, rfl, rfl, definition, text, hdefinition, htext, hsame.trans htext⟩

/-- **The retained Checks a planned evaluation reserves**, as a replay of the
same boundary reads them. -/
structure Evaluated (store : DelegatedStore) (r : Replay) (reservation : WorkDelegationReservation)
    (active : SubjectReference) (boundary : ControlRecordRevision) (mandate : JsonObject)
    (objects : List JsonObject) (chosen : List FinalCheckSelection) : Prop where
  bound : r.subjects.activeBoundary = some active
  resolved : store.resolver (subjectOf active) = some boundary
  exact : exactDelegationRevision store.resolver r active "work-boundary" = .ok boundary
  mandated : member "mandate" boundary.payload = some (.object mandate)
  checks : member "checks" mandate = some (.array (objects.map .object))
  selected : List.Forall₂ Chosen (objects.filter finalRequired) chosen
  distinct : (chosen.map (·.id)).Nodup
  slots : (reservedChecks reservation.slots).Perm (chosen.map (·.reserved))

include h in
theorem Planned.evaluated {r : Replay} (hevaluate : reservation.operation = .evaluate)
    (hactive : r.subjects.activeBoundary = store.journal.subjects.activeBoundary)
    (hprocess : r.processId = some store.processId) :
    ∃ boundary mandate objects chosen,
      Evaluated store r reservation current.activeBoundary boundary mandate objects chosen := by
  obtain ⟨boundary, selections, hboundary, hselections, hperm⟩ :=
    h.reservedChecks_perm (h.operation ▸ hevaluate)
  obtain ⟨hresolved, hkind, hretained, hownProcess⟩ := exactRevision_eq_ok hboundary
  obtain ⟨mandate, objects, chosen, hmandate, hobjects, hchosen, hdistinct, hsorted⟩ :=
    finalCheckSelections_eq_ok hselections
  refine ⟨boundary, mandate, objects, chosen, hactive.trans h.currentIn.boundary, hresolved, ?_,
    hmandate, hobjects, hchosen, hdistinct, hperm.trans (hsorted.map _)⟩
  simp only [exactDelegationRevision, bind_eq_ok, orFail_eq_ok, failIf_eq_ok, exists_unit,
    pure_eq_ok, not_not]
  exact ⟨boundary, hresolved, ⟨by rw [hprocess, hownProcess], hkind, hretained⟩, rfl⟩

section Evaluated

variable {r : Replay} {active : SubjectReference} {boundary : ControlRecordRevision}
variable {mandate : JsonObject} {objects : List JsonObject} {chosen : List FinalCheckSelection}
  (he : Evaluated store r reservation active boundary mandate objects chosen)
include he

/-- The slots of an evaluation are under distinct identities. -/
theorem Evaluated.nodup_slots :
    ((reservedChecks reservation.slots).map (·.selectionId)).Nodup := by
  rw [(he.slots.map _).nodup_iff, List.map_map]
  exact he.distinct

theorem Evaluated.length_slots :
    (reservedChecks reservation.slots).length = chosen.length := by
  rw [he.slots.length_eq, List.length_map]

/-- The Checks that are looked at are the final ones of the boundary. -/
theorem Evaluated.mem_iff {check : JsonObject} :
    check ∈ objects.filter finalRequired ↔ IsFinalCheck boundary check := by
  rw [List.mem_filter]
  constructor
  · rintro ⟨hmem, hrequired⟩
    exact ⟨mandate, _, he.mandated, he.checks, List.mem_map_of_mem hmem, hrequired⟩
  · rintro ⟨mandate', values, hmandate', hvalues, hmem, hrequired⟩
    obtain rfl := Json.object.inj (Option.some.inj (he.mandated.symm.trans hmandate'))
    obtain rfl := Json.array.inj (Option.some.inj (he.checks.symm.trans hvalues))
    obtain ⟨_, hobject, heq⟩ := List.mem_map.mp hmem
    obtain rfl := Json.object.inj heq
    exact ⟨hobject, hrequired⟩

/-- A final Check is asserted of the planned slots when it retains what was
selected. -/
theorem Evaluated.assertReservedCheck_eq_ok {check definition : JsonObject}
    {s : FinalCheckSelection} (hcs : Chosen check s) (hs : s ∈ chosen)
    (hdefinition : member "definition" check = some (.object definition)) :
    assertReservedCheck (reservedChecks reservation.slots) check = .ok () ↔
      canonicalJson (.object definition) = canonicalJson (definitionJson s.definition) := by
  rw [ReservationPlanning.assertReservedCheck_eq_ok he.nodup_slots hcs]
  exact reserves_iff he.nodup_slots (he.slots.mem_iff.mpr (List.mem_map_of_mem hs)) hcs hdefinition

end Evaluated

include h in
/-- **The reducer asserts the Checks of a planned reservation** exactly when
their definitions are retained as reserved. -/
theorem Planned.assertReservedChecks_eq_ok {r : Replay}
    (hactive : r.subjects.activeBoundary = store.journal.subjects.activeBoundary)
    (hprocess : r.processId = some store.processId) :
    assertReservedChecks store.resolver r reservation = .ok ()
      ↔ DefinitionsRetained store reservation.operation := by
  rw [assertReservedChecks]
  by_cases hevaluate : reservation.operation = .evaluate
  swap
  · rw [if_pos hevaluate]
    exact iff_of_true rfl fun hoperation => absurd hoperation hevaluate
  rw [if_neg (not_not.mpr hevaluate)]
  obtain ⟨boundary, mandate, objects, chosen, he⟩ := h.evaluated hevaluate hactive hprocess
  rw [assertEvaluationChecks_eq_ok he.bound he.exact he.mandated he.checks he.selected,
    and_iff_right he.length_slots]
  constructor
  · intro hasserted _ active boundary' hactive' hresolved' check hcheck definition d hdefinition hd
    obtain rfl := Option.some.inj (h.currentIn.boundary.symm.trans hactive')
    obtain rfl := Option.some.inj (he.resolved.symm.trans hresolved')
    have hmem := he.mem_iff.mpr hcheck
    obtain ⟨s, hs, hcs⟩ := exists_of_forall₂ he.selected.flip hmem
    obtain ⟨retained, hretained, hofs⟩ := hcs.definition
    obtain rfl := Json.object.inj (Option.some.inj (hdefinition.symm.trans hretained))
    rw [hd.unique hofs]
    exact (he.assertReservedCheck_eq_ok hcs hs hdefinition).mp (hasserted check hmem)
  · intro hsame check hmem
    obtain ⟨s, hs, hcs⟩ := exists_of_forall₂ he.selected.flip hmem
    obtain ⟨definition, hdefinition, hofs⟩ := hcs.definition
    exact (he.assertReservedCheck_eq_ok hcs hs hdefinition).mpr (hsame hevaluate _ _
      h.currentIn.boundary he.resolved check (he.mem_iff.mp hmem) definition _ hdefinition hofs)

end Plan

end ReservationPlanning
