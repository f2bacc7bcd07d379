import Lifecycle.JournalIntegrity
import Lifecycle.Rehearsal
import Lifecycle.ReservationAgreement
import Lifecycle.ReservationOrder
import Lifecycle.TextOrder
import Lifecycle.WorkAllowances

/-!
# What is accepted in place of a plan

An opening that carries another reservation than the planned one may be
accepted: the reducer does not look at the identities of the slots, nor at the
profile, the image and the limits of a Check. What it does look at determines
the rest: whatever is accepted after the same journal for the same operation
reserves the agent selection the grant delegates and the final Checks of the
active boundary, and is charged for its own slots.
-/

open Fallible Json ControlModel DeliveryReducer WorkDelegation

namespace ReservationPlanning

/-! ## Checks -/

section Checks

variable {β : Type} {f : ReservedCheck → β} {slots : List ReservedCheck}
  {chosen : List FinalCheckSelection}

/-- Slots as many as the selections, among which every selection is seen, show
nothing else. -/
theorem perm_of_seen (hlength : slots.length = chosen.length)
    (hdistinct : (chosen.map fun s => f s.reserved).Nodup)
    (hseen : ∀ s ∈ chosen, f s.reserved ∈ slots.map f) :
    (slots.map f).Perm (chosen.map fun s => f s.reserved) := by
  have hsubset : chosen.map (fun s => f s.reserved) ⊆ slots.map f := by
    intro b hb
    obtain ⟨s, hs, rfl⟩ := List.mem_map.mp hb
    exact hseen s hs
  refine ((hdistinct.subperm hsubset).perm_of_length_le ?_).symm
  rw [List.length_map, List.length_map, hlength]

/-- What the reducer compares of a Check but its definition. -/
def comparedCheck (c : ReservedCheck) : String × ResourceReference := (c.selectionId, c.binding)

/-- The Checks of a reservation, as the reducer compares them. -/
def comparedChecks (slots : List WorkDelegationExecutionSlot) :
    List (String × ResourceReference) := (reservedChecks slots).map comparedCheck

theorem nodup_of_ids (hids : (chosen.map (·.id)).Nodup)
    (hf : ∀ s t : FinalCheckSelection, f s.reserved = f t.reserved → s.id = t.id) :
    (chosen.map fun s => f s.reserved).Nodup :=
  (List.Nodup.of_map _ hids).map_on fun s hs t ht hsame =>
    List.inj_on_of_nodup_map hids hs ht (hf s t hsame)

end Checks

section Accepted

variable {owners : ReservationOwners} {store : DelegatedStore} {contract : RepositoryContract}
variable {decision : WorkDecision} {reservation : WorkDelegationReservation}
variable {activityId observedAt : String} {current : CurrentSubjects}
variable {grant : WorkDelegationPayload} {agents checks : List WorkDelegationExecutionSlot}
variable {r : Replay} {o : WorkDelegationReservation}

/-- **What the reducer asserted of an evaluation** reserves the Checks that were
planned, under the definitions that were planned when no more is retained. -/
theorem Planned.perm_of_asserted (h : Planned owners store contract activityId observedAt decision
      reservation current grant agents checks) (hevaluate : reservation.operation = .evaluate)
    (hactive : r.subjects.activeBoundary = store.journal.subjects.activeBoundary)
    (hprocess : r.processId = some store.processId) (hoperation : o.operation = .evaluate)
    (hdistinct : ((reservedChecks o.slots).map (·.selectionId)).Nodup)
    (hasserted : assertReservedChecks store.resolver r o = .ok ()) :
    (comparedChecks o.slots).Perm (comparedChecks reservation.slots)
      ∧ (DefinitionsRetained store .evaluate →
        (reservedChecks o.slots).Perm (reservedChecks reservation.slots)) := by
  obtain ⟨boundary, mandate, objects, chosen, he⟩ := h.evaluated hevaluate hactive hprocess
  rw [assertReservedChecks, if_neg (not_not.mpr hoperation),
    assertEvaluationChecks_eq_ok he.bound he.exact he.mandated he.checks he.selected] at hasserted
  obtain ⟨hlength, hasserted⟩ := hasserted
  have hreserved : ∀ s ∈ chosen, ∃ check ∈ objects.filter finalRequired, Chosen check s
      ∧ Reserves (reservedChecks o.slots) check s := by
    intro s hs
    obtain ⟨check, hcheck, hcs⟩ := exists_of_forall₂ he.selected hs
    exact ⟨check, hcheck, hcs, (assertReservedCheck_eq_ok hdistinct hcs).mp (hasserted check hcheck)⟩
  constructor
  · refine (perm_of_seen hlength ?_ ?_).trans ?_
    · refine nodup_of_ids he.distinct fun s t hsame => ?_
      exact (Prod.mk.inj hsame).1
    · intro s hs
      obtain ⟨check, -, -, slot, hslot, hid, hbinding, -⟩ := hreserved s hs
      refine List.mem_map.mpr ⟨slot, hslot, ?_⟩
      rw [comparedCheck, hid, hbinding]
      rfl
    · have hplanned := (he.slots.map comparedCheck).symm
      rwa [List.map_map] at hplanned
  · intro hretained
    refine List.Perm.trans ?_ he.slots.symm
    rw [← List.map_id (reservedChecks o.slots)]
    refine perm_of_seen hlength ?_ ?_
    · exact nodup_of_ids he.distinct fun s t hsame => congrArg ReservedCheck.selectionId hsame
    · intro s hs
      obtain ⟨check, hcheck, hcs, slot, hslot, hid, hbinding, definition, text, hdefinition,
        hreservedText, hadmitted⟩ := hreserved s hs
      obtain ⟨definition', hdefinition', hofs⟩ := hcs.definition
      obtain rfl := Json.object.inj (Option.some.inj (hdefinition.symm.trans hdefinition'))
      have hsame := hretained rfl _ _ h.currentIn.boundary he.resolved check
        (he.mem_iff.mp hcheck) definition _ hdefinition hofs
      rw [hadmitted] at hsame
      have hdefinitions := definitionJson_injective hreservedText hsame.symm
      have hwhole : slot = s.reserved := by
        cases slot
        simp only at hid hbinding hdefinitions
        rw [hid, hbinding, hdefinitions]
        rfl
      rw [List.map_id, id, ← hwhole]
      exact hslot

/-- **A delegated opening that was accepted** was permitted. -/
theorem permitted_of_append {resolve : DeliveryRecordRevisionResolver} {next : Replay}
    {event : ControlRecordEvent} {operation : WorkDelegationOperation}
    (hopens : OpensWith event activityId operation o)
    (hkind : DeliveryEvents.parseKind event.eventKind = some .activityStarted)
    (happend : append resolve r event = .ok next) :
    o.operation = operation ∧ (∃ d, Permitted r event.occurredAt o d)
      ∧ assertReservedChecks resolve (verifiedReplay r event) o = .ok () := by
  obtain ⟨verified, applied, k, hverified, hk, -, -, happlied, -⟩ := append_eq_ok.mp happend
  obtain rfl := Option.some.inj (hkind.symm.trans hk)
  obtain ⟨rfl, -⟩ := verifyEnvelope_eq_ok hverified
  obtain ⟨-, -, ⟨brief, hbrief, -⟩, -, -⟩ := (startActivity_opensWith hopens).mp ⟨applied, happlied⟩
  obtain ⟨⟨d, hd, -⟩, -, hoperation, -, -, hchecks⟩ := delegatedBrief_eq_ok.mp hbrief
  refine ⟨?_, ⟨d, ⟨hd.delegation, hd.unconditional, hd.reference, hd.boundary, hd.admission,
    hd.sequence, hd.head, hd.basis, hd.allowance⟩⟩, hchecks⟩
  have hsame : delegatedOperation (deliveryOperation operation) = some operation := by
    cases operation <;> rfl
  exact Option.some.inj (hoperation.symm.trans hsame)

/-- What was parsed was compiled. -/
theorem compiled_of_parse {value : Json} (h : parseWorkDelegationReservation value = .ok o) :
    ∃ members, compileWorkDelegationReservation members = .ok o := by
  simp only [parseWorkDelegationReservation, bind_eq_ok, failIf_eq_ok, exists_unit,
    pure_eq_ok] at h
  obtain ⟨_, -, compiled, hcompiled, _, -, _, -, _, -, -, rfl⟩ := h
  exact ⟨_, hcompiled⟩

/-- The Process of a store is its replay's, once something was appended. -/
theorem verifiedReplay_processId (event : ControlRecordEvent) {last : ControlRecordEvent}
    (hreachable : (deliverySystem store.resolver).Reachable store.journal)
    (hlast : store.journal.lastEvent = some last) :
    (verifiedReplay store.journal event).processId = some store.processId := by
  obtain ⟨-, hprocess, -⟩ := (Journaled.of_reachable hreachable).scope last hlast
  have hread : (verifiedReplay store.journal event).processId = store.journal.processId := by
    rw [verifiedReplay, hlast]
    rfl
  rw [hread, hprocess, store.ofProcess _ hprocess]

/-- **What two reservations have in common** when both are accepted after one
journal for one operation. -/
structure SameWork (store : DelegatedStore) (reservation o : WorkDelegationReservation) : Prop where
  charges : reservationCharges o.slots = .ok o.charges
  delegation : delegationReference o.delegation = delegationReference reservation.delegation
  sequence : o.headSequence = reservation.headSequence
  head : o.headDigest = reservation.headDigest
  basis : o.basisDigest = reservation.basisDigest
  agents : reservedAgents o.slots = reservedAgents reservation.slots
  checks : (comparedChecks o.slots).Perm (comparedChecks reservation.slots)
  definitions : DefinitionsRetained store reservation.operation →
    (reservedChecks o.slots).Perm (reservedChecks reservation.slots)

theorem reservedChecks_of_not_evaluate {value : JsonObject}
    (h : compileWorkDelegationReservation value = .ok o) (hoperation : o.operation ≠ .evaluate) :
    reservedChecks o.slots = [] := by
  obtain ⟨hfits, -⟩ := slotsFit_of_compiled h
  cases hcase : o.operation with
  | evaluate => exact absurd hcase hoperation
  | integrate =>
    rw [hcase, slotsFitOperation, List.isEmpty_iff] at hfits
    rw [hfits]
    rfl
  | «continue» =>
    rw [hcase, slotsFitOperation, Bool.and_eq_true, decide_eq_true_eq, decide_eq_true_eq] at hfits
    obtain ⟨hroles, hlength⟩ := hfits
    obtain ⟨slot, hslots⟩ := List.length_eq_one_iff.mp hlength
    rw [hslots] at hroles ⊢
    cases slot with
    | agent => rfl
    | check => cases hroles

/-- **How a planned reservation opens** after the journal it was planned for. -/
structure OpensAsPlanned (store : DelegatedStore) (activityId observedAt : String)
    (decision : WorkDecision) (reservation : WorkDelegationReservation) : Prop where
  /-- At the time of the plan, its opening is accepted as the next event exactly
  when it is fresh and the boundary retains no more of the reserved definitions
  than a slot carries. -/
  accepted : ∀ event verified,
    verifyEnvelope store.journal event (lastSequence store.journal + 1) = .ok verified →
    DeliveryEvents.parseKind event.eventKind = some .activityStarted →
    event.occurredAt = observedAt → OpensWith event activityId decision.operation reservation →
    ((∃ next, append store.resolver store.journal event = .ok next)
      ↔ Fresh store.journal reservation ∧ DefinitionsRetained store decision.operation)
  /-- Whatever is accepted in its place is charged for its own slots and
  reserves the same agent and the same Checks. -/
  others : ∀ event next id o, append store.resolver store.journal event = .ok next →
    DeliveryEvents.parseKind event.eventKind = some .activityStarted →
    OpensWith event id decision.operation o → SameWork store reservation o

end Accepted

/-! ## The opening in the journal -/

section Opening

variable {o : WorkDelegationReservation} {members : JsonObject}

theorem distinctNames_openingMembers (o : WorkDelegationReservation) :
    (Json.object (openingMembers o)).DistinctNames :=
  ⟨by simp [keys, openingMembers], trivial, trivial, distinctNames_reservationJson o, trivial⟩

/-- The members of an opening, in canonical order. -/
theorem member_opening {name : String} {v : Json}
    (h : member name (parsedCanonical (openingMembers o)) = some v) :
    (name = "activityId" ∧ v = .string o.activityId)
      ∨ (name = "operation" ∧ v = .string (operationText o.operation))
      ∨ (name = "reservation" ∧ v = canonicalOrder (reservationJson o)) := by
  obtain ⟨w, hw, rfl⟩ := (member_parsedCanonical (distinctNames_openingMembers o).1).mp h
  rw [member_eq_some_iff (distinctNames_openingMembers o).1] at hw
  simp only [openingMembers, List.mem_cons, Prod.mk.injEq, List.not_mem_nil, or_false] at hw
  rcases hw with ⟨rfl, rfl⟩ | ⟨rfl, rfl⟩ | ⟨rfl, rfl⟩
  · exact .inl ⟨rfl, rfl⟩
  · exact .inr (.inl ⟨rfl, rfl⟩)
  · exact .inr (.inr ⟨rfl, rfl⟩)

theorem member_openingMembers (name : String) :
    member name (parsedCanonical (openingMembers o))
      = (member name (openingMembers o)).map canonicalOrder :=
  (reordered_parsedCanonical (distinctNames_openingMembers o)).found name

theorem parse_ordered_compiled (hcompiled : compileWorkDelegationReservation members = .ok o) :
    parseWorkDelegationReservation (canonicalOrder (reservationJson o)) = .ok o :=
  parseWorkDelegationReservation_ordered (distinctNames_reservationJson o)
    (parseWorkDelegationReservation_iff.mpr ⟨members, hcompiled⟩)

/-- **An opening in canonical order** opens with the reservation that was
compiled. -/
theorem opensWith_of_payload {event : ControlRecordEvent}
    (hcompiled : compileWorkDelegationReservation members = .ok o)
    (hpayload : event.payload = parsedCanonical (openingMembers o)) :
    OpensWith event o.activityId o.operation o where
  names := by
    rw [hpayload, sortKeys_eq_of_perm (perm_keys_parsedCanonical (openingMembers o))]
    rfl
  activity := by
    rw [hpayload, member_openingMembers]
    rfl
  operation := by
    rw [hpayload, member_openingMembers]
    rfl
  reservation := by
    refine ⟨canonicalOrder (reservationJson o), ?_, parse_ordered_compiled hcompiled⟩
    rw [hpayload, member_openingMembers]
    rfl

/-- **A compiled reservation survives the journal.** The event that is compiled
with its opening carries the same reservation, in canonical order. -/
theorem compiledOpening_opensWith {storeId processId : String} {sequence : Nat}
    {predecessor : Option Sha256Digest} {input : ControlRecordEventInput} {event : ControlRecordEvent}
    (hcompiled : compileWorkDelegationReservation members = .ok o)
    (hinput : input.payload = openingMembers o)
    (hevent : compileControlRecordEvent storeId processId sequence predecessor input = .ok event) :
    OpensWith event o.activityId o.operation o := by
  simp only [compileControlRecordEvent, normalizedControlJsonObject, bind_eq_ok, failIf_eq_ok,
    exists_unit, pure_eq_ok, hinput] at hevent
  obtain ⟨-, -, _, ⟨_, -, rfl⟩, -, _, -, _, -, _, -, _, -, _, -, _, -, _, -, rfl⟩ := hevent
  exact opensWith_of_payload hcompiled rfl

/-- A value that is there. -/
theorem exists_of_isOk {α : Type} {x : Except FoundationError α} (h : x.isOk = true) :
    ∃ a, x = .ok a := by
  cases x with
  | error e => cases h
  | ok a => exact ⟨a, rfl⟩

/-- The opening of an integration in an empty journal. -/
theorem compiledOpening_opensWith_sample : ∃ members o input event,
    compileWorkDelegationReservation members = .ok o ∧ input.payload = openingMembers o
      ∧ compileControlRecordEvent "store-1" "delivery-1" 1 none input = .ok event
      ∧ OpensWith event o.activityId o.operation o := by
  let parts : ReservationParts := ⟨"reservation-1", ⟨"work-delegation", "delegation-1", 1,
    Sample.effectDigest⟩, "integrate-1", .integrate, 1, Sample.effectDigest, Sample.effectDigest,
    "integrate-ready-candidate", []⟩
  let o : WorkDelegationReservation := ⟨parts, ⟨1, 0, 0⟩⟩
  let input : ControlRecordEventInput := ⟨"event-1", "activity-started", "2026-01-05T09:00:00Z",
    ⟨.runtime, "runtime"⟩, none, openingMembers o⟩
  have hcompiled : compileWorkDelegationReservation (partsMembers parts) = .ok o := by
    decide +kernel
  have hcompiles : (compileControlRecordEvent "store-1" "delivery-1" 1 none input).isOk = true := by
    decide +kernel
  obtain ⟨event, hevent⟩ := exists_of_isOk hcompiles
  exact ⟨_, o, input, event, hcompiled, rfl, hevent, compiledOpening_opensWith hcompiled rfl hevent⟩

/-- **The draft of a light opening is admissible.** -/
theorem opening_admissible (hcompiled : compileWorkDelegationReservation members = .ok o)
    (hlight : LightPayload (parsedCanonical (openingMembers o))) :
    (EventDraft.mk .activityStarted none (parsedCanonical (openingMembers o))).Admissible := by
  have hown : hasOwn (parsedCanonical (openingMembers o)) "reservation" = true := by
    rw [hasOwn, member_openingMembers]
    rfl
  have hexpected : DeliveryEvents.expectedFields .activityStarted
      (parsedCanonical (openingMembers o))
        = DeliveryEvents.payloadFields .activityStarted ++ [("reservation", .workReservation)] := by
    rw [DeliveryEvents.expectedFields, if_neg (by simp), if_pos ⟨rfl, hown⟩]
  have hid : isIdentifier o.activityId = true := by
    have hread := (partsFit_of_ok (compileWorkDelegationReservation_charges hcompiled).1).activityId
    simp only [identifier, controlIdentifier, bind_eq_ok, failIf_eq_ok, exists_unit, pure_eq_ok,
      Bool.not_eq_false] at hread
    exact hread.2.1
  refine ⟨hlight, rfl, by simp [DeliveryEvents.subjectUse], ?_, ?_, by simp⟩
  · show sortKeys (keys (parsedCanonical (openingMembers o))) = _
    rw [hexpected, sortKeys_eq_of_perm (perm_keys_parsedCanonical (openingMembers o))]
    rfl
  · intro name v field hv hfield
    replace hfield : (DeliveryEvents.payloadFields .activityStarted
        ++ [("reservation", PayloadField.workReservation)]).lookup name = some field :=
      hexpected ▸ hfield
    have hmem := mem_of_lookup_eq_some hfield
    simp only [DeliveryEvents.payloadFields, List.cons_append, List.nil_append, List.mem_cons,
      Prod.mk.injEq, List.not_mem_nil, or_false] at hmem
    rcases member_opening hv with ⟨rfl, rfl⟩ | ⟨rfl, rfl⟩ | ⟨rfl, rfl⟩ <;>
      simp only [String.reduceEq, false_and, true_and, or_false, false_or] at hmem <;> subst hmem
    · exact failIf_neg (by simp [hid])
    · refine failIf_neg (not_not.mpr ?_)
      cases o.operation <;> decide
    · have hread := parse_ordered_compiled hcompiled
      rw [DeliveryEvents.assertPayloadValue, hread]
      rfl

end Opening

/-! ## A sample plan -/

namespace PlanSample

/-- The agent continuations are delegated to. -/
def builder : WorkDelegationAgentSelection where
  providerDescriptor := ⟨"provider-1", Sample.effectDigest⟩
  backendProfile := ⟨"lifecycle.execution-backend-profile.docker-local.v1", Sample.effectDigest,
    Sample.effectDigest⟩
  image := ⟨"image-1", Sample.effectDigest⟩
  model := "model-1"
  reasoning := "medium"
  wallTimeMs := 60000
  limits := ⟨none, none, none, none, none, none⟩

/-- The standing direction of continuations. -/
def direction : ControlRecordRevision :=
  Sample.revisionOf "director-brief" "brief-2" 1 [("inputProfile", .string "delivery.continue"),
    ("scope", .object [("delegationId", .string "delegation-1"), ("delegationRevision", nat 1),
      ("kind", .string "delegation"), ("operation", .string "delivery.continue")])] []
    "sha256:726b2b622ebd04024e43e1a5980e5d9588f4807c8d875ba27ae2fd8840618721"

/-- A grant of two continuations under the admitted boundary. -/
def grant : WorkDelegationPayload :=
  { Sample.grant with
    allowedOperations := [.continue]
    directionContinue :=
      some ⟨"director-brief", direction.recordId, direction.revision, direction.digest⟩
    builder := some builder
    ceilings := ⟨2, 2, 120000⟩ }

/-- Its members, as they are retained. -/
def grantMembers : JsonObject :=
  match payloadJson grant with
  | .object members => members
  | _ => []

def delegation : ControlRecordRevision :=
  Sample.revisionOf "work-delegation" "delegation-1" 1 grantMembers
    [Sample.link "uses-admission" Sample.admission, Sample.link "uses-boundary" Sample.boundary,
      Sample.link "uses-brief" direction]
    "sha256:a2f42051c882c5c01eec2cb746d2d2f4689379f7f87bb3318573eb6a52d6c23e"

/-- The revisions the store of the sample retains. -/
def revisions : List ControlRecordRevision := direction :: delegation :: Sample.admittedRevisions

def getRevision (recordId : String) (revision : Nat) : Option ControlRecordRevision :=
  revisions.find? fun r => r.recordId = recordId ∧ r.revision = revision

def retained : DeliveryRecordRevisionResolver := fun subject =>
  getRevision subject.recordId subject.revision

/-- The refusal of a draft there is no place for. -/
def misplaced (eventId : String) : FoundationError :=
  reducerError "order" s!"Delivery event {eventId} has no place in its journal"

/-- The event of a draft, after the last one. -/
def draftedEvent (r : Replay) (last : ControlRecordEvent) (eventId : String) (d : EventDraft) :
    ControlRecordEvent :=
  place r (placeAfter last eventId) d

/-- One drafted event. -/
def drafted (r : Replay) (eventId : String) (d : EventDraft) : Except FoundationError Replay := do
  let last ← orFail r.lastEvent (misplaced eventId)
  failIf (¬ (isIdentifier eventId = true ∧ eventId ∉ r.eventIds
    ∧ last.sequence < maxSafeInteger ∧ r.subjects.closure = none)) (misplaced eventId)
  let event := draftedEvent r last eventId d
  let applied ← handle retained (verifiedReplay r event) event d.kind
  return { applied with lastEvent := some event }

theorem append_drafted {r next : Replay} {eventId : String} {d : EventDraft} (h : Journaled r)
    (hd : d.Admissible) (hdrafted : drafted r eventId d = .ok next) :
    ∃ last, r.lastEvent = some last ∧ append retained r (draftedEvent r last eventId d) = .ok next := by
  simp only [drafted, bind_eq_ok, orFail_eq_ok, failIf_eq_ok, exists_unit, pure_eq_ok,
    not_not] at hdrafted
  obtain ⟨last, hlast, ⟨hid, hfresh, hroom, hclosure⟩, applied, happlied, rfl⟩ := hdrafted
  exact ⟨last, hlast, append_place hd (placeAfter_follows h hlast hroom hid hfresh)
    (.inl (h.created last hlast)) hclosure happlied⟩

/-- The draft that submits the standing direction. -/
def directs : EventDraft where
  kind := .directorBriefSubmitted
  subject := some (Sample.subjectTo direction)
  payload := [("delegationId", .string "delegation-1"), ("delegationRevision", nat 1),
    ("operation", .string "delivery.continue")]

/-- The draft that sets the delegation. -/
def delegates : RehearsalEntry :=
  .texts "event-19" .workDelegationSet (some (Sample.subjectTo delegation)) []

/-- **The journal of the sample**: admitted, directed and delegated. -/
def journal : Except FoundationError Replay := do
  let admitted ← Fallible.replay (rehearse retained) Sample.created Sample.admitted
  let directed ← drafted admitted "event-18" directs
  rehearse retained directed delegates

/-- What the journal of the sample leaves behind. -/
def Settled (r : Replay) : Prop :=
  (r.processId = some "delivery-1" ∧ r.lastEvent.map (·.occurredAt) = some "2026-01-05T09:00:00Z"
    ∧ lastSequence r = 19 ∧ "event-20" ∉ r.eventIds)
  ∧ (currentStanding r ≠ .closed ∧ r.subjects.materialCondition = none
    ∧ r.subjects.activeBoundary = some (retainedReference Sample.boundary)
    ∧ r.activeAdmission = some (retainedReference Sample.admission)
    ∧ r.delegation = some ⟨retainedReference delegation, grant, false⟩
    ∧ r.delegatedCharges = ⟨0, 0, 0⟩)
  ∧ (¬ ∃ a ∈ (reducedState r).activities, a.stage ≠ .completed ∨ a.recovery ≠ none)
  ∧ DeliveryOperation.continue ∈ eligibleOperations r
  ∧ (r.activities.has "continue-1" = false ∧ r.plannedBriefs.get "continue-1" = none
    ∧ ∀ a ∈ r.activityList, a.reservation = none)
  ∧ (deliveryWorkDecisionBasisDigest (stateFromReplay r)).isOk = true

instance (r : Replay) : Decidable (Settled r) :=
  inferInstanceAs (Decidable ((_ ∧ _ ∧ _ ∧ _) ∧ (_ ∧ _ ∧ _ ∧ _ ∧ _ ∧ _) ∧ _ ∧ _
    ∧ (_ ∧ _ ∧ _) ∧ _))

/-- The last event of a journal has a digest. -/
theorem lastDigest_of_reachable {resolve : DeliveryRecordRevisionResolver} {r : Replay}
    (h : (deliverySystem resolve).Reachable r) :
    ∀ last, r.lastEvent = some last → isSha256 last.digest = true := by
  refine h.invariant (P := fun r => ∀ last, r.lastEvent = some last → isSha256 last.digest = true)
    ?_ ?_
  · rintro s rfl last hlast
    cases hlast
  · intro s event t _ happend last hlast
    obtain ⟨⟨-, -, -, _, -, hdigest⟩, -, hlast'⟩ := reproduced_of_append happend
    obtain rfl := Option.some.inj (hlast'.symm.trans hlast)
    exact hdigest ▸ isSha256_sha256Bytes _

/-! ### The planned reservation -/

/-- The parts of a reservation of one continuation, with its slot under a given
identity. -/
def parts (slot : String) (head basis : Sha256Digest) : ReservationParts where
  reservationId := "reservation-f987e52dc32dd473fa14e4fd811c228ae8131734e297b9cf8718dcaff7b169dc"
  delegation := ⟨"work-delegation", delegation.recordId, delegation.revision, delegation.digest⟩
  activityId := "continue-1"
  operation := .continue
  headSequence := 19
  headDigest := head
  basisDigest := basis
  reason := "develop-candidate"
  slots := [.agent slot .builder builder]

/-- What it charges: an operation, an attempt and the time of its agent. -/
def charges : WorkDelegationAccounting := ⟨1, 1, 60000⟩

/-- The identities of the slot: the planned one and another. -/
def slotIds : List String := ["slot-agent-builder", "slot-builder"]

/-- The digest of what the reservation is identified by. -/
def subjectDigest : Sha256Digest :=
  "sha256:f987e52dc32dd473fa14e4fd811c228ae8131734e297b9cf8718dcaff7b169dc"

/-- The time of the plan, and of every event of the journal. -/
def observedAt : String := "2026-01-05T09:00:00Z"

/-- The installed agents are compiled to the resources they select. -/
def owners : ReservationOwners where
  compileAgent selection := .ok ⟨selection.providerDescriptor, selection.backendProfile, selection.image⟩
  checkResources := .error (contextFailure "checks")

def contract : RepositoryContract := ⟨"target-1", Sample.effectDigest, .empty⟩

/-- What is current in the sample. -/
def current : CurrentSubjects where
  activeBoundary := retainedReference Sample.boundary
  admission := retainedReference Sample.admission
  delegation := retainedReference delegation
  stopped := false

/-- Whether a journal goes through, to a replay with the given facts. -/
def leaves (journal : Except FoundationError Replay) (facts : Replay → Bool) : Bool :=
  match journal with
  | .ok r => facts r
  | .error _ => false

/-- **What the sample computes.** -/
structure Computed : Prop where
  activity : isIdentifier "continue-1" = true
  event : isIdentifier "event-20" = true
  parsedTime : Timestamp.dateParse observedAt = some 1767603600000
  timeText : observedAt = Timestamp.wholeSeconds 1767603600000
  parsed : parseWorkDelegationPayload (.object delegation.payload) = .ok grant
  onBoundary : (assertGoverning grant.boundary "work-boundary" current.activeBoundary).isOk = true
  onAdmission : (assertGoverning grant.admission "director-decision" current.admission).isOk = true
  agents : agentSlots owners grant .continue = .ok [.agent "slot-agent-builder" .builder builder]
  subject : digestCanonical (.object [("storeId", .string "store-1"),
    ("processId", .string "delivery-1"), ("activityId", .string "continue-1")]) = .ok subjectDigest
  reserved : s!"reservation-{digestHex subjectDigest}" = (parts "" "" "").reservationId
  reservationId : identifier (some (.string (parts "" "" "").reservationId))
    = .ok (parts "" "" "").reservationId
  activityId : identifier (some (.string "continue-1")) = .ok "continue-1"
  reference : exactReference "work-delegation" (some (referenceJson (parts "" "" "").delegation))
    = .ok (parts "" "" "").delegation
  readSlots : ∀ slot ∈ slotIds, [slotJson (.agent slot .builder builder)].mapM executionSlot
    = .ok [.agent slot .builder builder]
  slotCharges : ∀ slot ∈ slotIds, reservationCharges [.agent slot .builder builder] = .ok charges
  uncharged : parseWorkDelegationAccounting (some (accountingJson ⟨0, 0, 0⟩)) = .ok ⟨0, 0, 0⟩
  charged : addWorkDelegationAccounting ⟨0, 0, 0⟩ charges = .ok charges
  digestLength : byteLength Sample.effectDigest = 71
  light : ∀ slot ∈ slotIds, weight (.object (openingMembers
    ⟨parts slot Sample.effectDigest Sample.effectDigest, charges⟩)) ≤ 16384
  shallow : height (.object (openingMembers ⟨parts "" "" "", charges⟩)) ≤ 16
  values : ∀ m ∈ directs.payload, ∀ f ∈ DeliveryEvents.expectedFields directs.kind directs.payload,
    m.1 = f.1 → (DeliveryEvents.assertPayloadValue m.1 m.2 f.2).isOk = true
  payload : LightPayload directs.payload
  named : (checkEventSubject directs.subject).isOk = true
  use : DeliveryEvents.subjectUse directs.kind = .forbidden ↔ directs.subject = none
  fields : sortKeys (keys directs.payload)
    = sortKeys ((DeliveryEvents.expectedFields directs.kind directs.payload).map Prod.fst)
  kind : directs.kind ≠ .transactionEffectObserved
  admits : ∀ entry ∈ Sample.admitted, entry.Admits
  sets : delegates.Admits
  settles : leaves journal (fun r => decide (Settled r)) = true

section Parts

variable {slot : String} {head basis : Sha256Digest}

theorem parts_fit (hc : Computed) (hslot : slot ∈ slotIds) (hhead : isSha256 head = true)
    (hbasis : isSha256 basis = true) : PartsFit (parts slot head basis) := by
  have hsequence : 1 ≤ 19 ∧ 19 ≤ maxSafeInteger := by decide
  have hreason : "develop-candidate" ∈ decisionReasons .continue := by decide
  have hbound : 1 ≤ maximumSlots := by decide
  exact ⟨hc.reservationId, hc.reference, hc.activityId, hsequence, hhead, hbasis,
    hreason, hbound, hc.readSlots slot hslot, rfl, List.nodup_nil, rfl⟩

/-- The opening weighs what it weighs with the digests of the sample. -/
theorem weight_opening (hc : Computed) (hslot : slot ∈ slotIds) (hhead : isSha256 head = true)
    (hbasis : isSha256 basis = true) :
    weight (.object (openingMembers ⟨parts slot head basis, charges⟩)) ≤ 16384 := by
  have hheadLength := (byteLength_of_isSha256 hhead).trans hc.digestLength.symm
  have hbasisLength := (byteLength_of_isSha256 hbasis).trans hc.digestLength.symm
  refine le_trans (le_of_eq ?_) (hc.light slot hslot)
  simp only [openingMembers, reservationJson, partsMembers, parts, List.cons_append,
    List.nil_append, weight, weightMembers, hheadLength, hbasisLength]

theorem height_opening (hc : Computed) :
    height (.object (openingMembers ⟨parts slot head basis, charges⟩)) ≤ 16 :=
  hc.shallow

theorem numbered_opening : (Json.object (openingMembers ⟨parts slot head basis, charges⟩)).Numbered := by
  simp only [openingMembers, reservationJson, partsMembers, parts, charges, builder, slotJson,
    List.map_cons, List.map_nil, List.cons_append, List.nil_append, Numbered, NumberedMembers,
    NumberedItems, referenceJson, resourceJson, backendJson, imageJson, agentSelectionJson,
    agentLimitsJson, accountingJson, orNull, nat]
  decide

end Parts

theorem time_observedAt (hc : Computed) (label : String) :
    controlTimestamp observedAt label = .ok observedAt :=
  controlTimestamp_eq_ok_iff.mpr ⟨rfl, _, hc.parsedTime, .inr hc.timeText⟩

/-- The store of the sample. -/
def store (r : Replay) (h : r.processId = some "delivery-1") : DelegatedStore where
  storeId := "store-1"
  processId := "delivery-1"
  targetId := "target-1"
  getRevision := getRevision
  journal := r
  stopRequested := false
  ofProcess _ hp := Option.some.inj (hp.symm.trans h)

def decision (head basis : Sha256Digest) : WorkDecision where
  operation := .continue
  reason := "develop-candidate"
  basisDigest := basis
  headSequence := 19
  headDigest := head

/-- The slot that is planned, and one under another identity. -/
def reservation (slot : String) (head basis : Sha256Digest) : WorkDelegationReservation :=
  ⟨parts slot head basis, charges⟩

section Settled

variable {r : Replay} {slot : String} {head basis : Sha256Digest}

theorem currentSubjects_settled (hs : Settled r) (hprocess : r.processId = some "delivery-1")
    (hhead : r.lastEvent.map (·.digest) = some head)
    (hbasis : deliveryWorkDecisionBasisDigest (stateFromReplay r) = .ok basis) :
    currentSubjects (store r hprocess) (decision head basis) = .ok current := by
  obtain ⟨⟨-, -, hsequence, -⟩, ⟨hopen, hcondition, hboundary, hadmission, hdelegation, -⟩, hcomplete,
    heligible, -, -⟩ := hs
  simp only [currentSubjects, bind_eq_ok, orFail_eq_ok, failIf_eq_ok, exists_unit, pure_eq_ok]
  refine ⟨?_, current.activeBoundary, hboundary, current.admission, hadmission, hcomplete,
    (current.delegation, false), ?_, ?_, ?_, basis, hbasis, ?_, rfl⟩
  · rintro (h | h)
    · exact hopen h
    · exact h hcondition
  · show r.delegation.map (fun d => (d.reference, d.stopped)) = _
    rw [hdelegation]
    rfl
  · rintro (h | h) <;> cases h
  · rintro (h | h)
    · exact h hsequence
    · exact h hhead
  · rintro (h | h)
    · exact h rfl
    · exact h heligible

theorem governingGrant_settled (hc : Computed) (hprocess : r.processId = some "delivery-1") :
    governingGrant (store r hprocess) current = .ok grant := by
  simp only [governingGrant, exactRevision, bind_eq_ok, orFail_eq_ok, failIf_eq_ok, exists_unit,
    pure_eq_ok]
  refine ⟨delegation, ⟨delegation, rfl, ?_, rfl⟩, grant, hc.parsed,
    RehearsalEntry.eq_ok_of_isOk hc.onBoundary,
    RehearsalEntry.eq_ok_of_isOk hc.onAdmission, rfl⟩
  rintro (h | h | h | h | h) <;> exact h rfl

theorem allowed_settled (hc : Computed) :
    Allowed grant ⟨0, 0, 0⟩ (reservation slot head basis) observedAt false := by
  have hceilings : (⟨0, 0, 0⟩ + charges : WorkDelegationAccounting) ≤ grant.ceilings :=
    ⟨by decide, by decide, by decide⟩
  exact ⟨rfl, time_observedAt hc _, by simp [grant, Sample.grant], List.mem_cons_self, rfl, hceilings⟩

theorem compiled_settled (hc : Computed) (hslot : slot ∈ slotIds) (hhead : isSha256 head = true)
    (hbasis : isSha256 basis = true) :
    compileWorkDelegationReservation (partsMembers (parts slot head basis))
      = .ok (reservation slot head basis) :=
  compileWorkDelegationReservation_of_fit (parts_fit hc hslot hhead hbasis)
    (hc.slotCharges slot hslot) numbered_opening (weight_opening hc hslot hhead hbasis)
    (height_opening hc)

/-- **A continuation is planned.** -/
theorem planned_settled (hc : Computed) (hs : Settled r)
    (hprocess : r.processId = some "delivery-1")
    (hhead : r.lastEvent.map (·.digest) = some head)
    (hbasis : deliveryWorkDecisionBasisDigest (stateFromReplay r) = .ok basis)
    (hheadDigest : isSha256 head = true) :
    compileWorkDelegationReservationForDecision owners (store r hprocess) contract "continue-1"
      observedAt (decision head basis) = .ok (reservation "slot-agent-builder" head basis) := by
  have hcompiled := @compiled_settled "slot-agent-builder" head basis hc List.mem_cons_self hheadDigest
    (Carrier.digestCanonical_isSha256 hbasis)
  obtain ⟨allowance, hallowance, hallowed⟩ :=
    (assessWorkDelegationAllowance_iff hc.parsed hc.uncharged hcompiled).mpr (allowed_settled hc)
  have hcharges : r.delegatedCharges = ⟨0, 0, 0⟩ := hs.2.1.2.2.2.2.2
  simp only [compileWorkDelegationReservationForDecision, controlIdentifier, bind_eq_ok,
    failIf_eq_ok, exists_unit, pure_eq_ok]
  refine ⟨_, ⟨by simp [hc.activity], rfl⟩, observedAt, time_observedAt hc _, current,
    currentSubjects_settled hs hprocess hhead hbasis, grant, governingGrant_settled hc hprocess, _,
    hc.agents, [], rfl, subjectDigest, hc.subject, _, ?_, allowance, ?_, ?_, rfl⟩
  · refine (congrArg compileWorkDelegationReservation (congrArg partsMembers ?_)).trans hcompiled
    rw [hc.reserved]
    rfl
  · show assessWorkDelegationAllowance grant r.delegatedCharges _ _ _ = _
    rw [hcharges]
    exact hallowance
  · simp [hallowed]

/-- Nothing in the sample stands in the way of its opening. -/
theorem fresh_settled (hs : Settled r) : Fresh r (reservation slot head basis) where
  activity := hs.2.2.2.2.1.1
  unplanned := hs.2.2.2.2.1.2.1
  unused := by
    rintro ⟨a, ha, hreservation⟩
    rw [hs.2.2.2.2.1.2.2 a ha] at hreservation
    cases hreservation

theorem permitted_settled (hc : Computed) (hs : Settled r)
    (hhead : r.lastEvent.map (·.digest) = some head)
    (hbasis : deliveryWorkDecisionBasisDigest (stateFromReplay r) = .ok basis)
    (hheadDigest : isSha256 head = true) (hslot : slot ∈ slotIds) :
    Permitted r observedAt (reservation slot head basis)
      ⟨retainedReference delegation, grant, false⟩ := by
  have hcompiled := compiled_settled hc hslot hheadDigest (Carrier.digestCanonical_isSha256 hbasis)
  have hallowed := (assessWorkDelegationAllowance_iff hc.parsed hc.uncharged hcompiled).mpr
    (allowed_settled hc)
  obtain ⟨⟨-, -, hsequence, -⟩, ⟨-, hcondition, hboundary, hadmission, hdelegation, hcharges⟩, -⟩ := hs
  obtain ⟨last, hlast, -⟩ := Option.map_eq_some_iff.mp hhead
  refine ⟨hdelegation, hcondition, rfl, hboundary, hadmission, ?_, hhead, hbasis, ?_⟩
  · rw [lastSequence, hlast] at hsequence
    rw [hlast]
    exact congrArg some hsequence
  · rw [hcharges]
    exact hallowed

/-- The event that opens the activity under a reservation. -/
def opening (r : Replay) (last : ControlRecordEvent) (o : WorkDelegationReservation) :
    ControlRecordEvent :=
  draftedEvent r last "event-20" ⟨.activityStarted, none, parsedCanonical (openingMembers o)⟩

/-- **The opening is accepted**, under either identity of its slot. -/
theorem exists_opened (hc : Computed) (hreachable : (deliverySystem retained).Reachable r)
    (hs : Settled r) {last : ControlRecordEvent} (hlast : r.lastEvent = some last)
    (hbasis : deliveryWorkDecisionBasisDigest (stateFromReplay r) = .ok basis)
    (hheadDigest : isSha256 last.digest = true) (hslot : slot ∈ slotIds) :
    ∃ next, append retained r (opening r last (reservation slot last.digest basis)) = .ok next := by
  have hjournaled := Journaled.of_reachable hreachable
  have hhead : r.lastEvent.map (·.digest) = some last.digest := by rw [hlast]; rfl
  have hcompiled := compiled_settled hc hslot hheadDigest (Carrier.digestCanonical_isSha256 hbasis)
  have hadmissible := opening_admissible hcompiled (light_parsedCanonical numbered_opening
    (weight_opening hc hslot hheadDigest (Carrier.digestCanonical_isSha256 hbasis)) (height_opening hc))
  have hpermitted := permitted_settled hc hs hhead hbasis hheadDigest hslot
  obtain ⟨⟨-, htime, hsequence, hunused⟩, ⟨hopen, -, -, -, -, hcharged⟩, -, heligible, -, -⟩ := id hs
  have hroom : last.sequence < maxSafeInteger := by
    rw [lastSequence, hlast] at hsequence
    have hnineteen : last.sequence = 19 := hsequence
    rw [hnineteen]
    decide
  have hoccurred : last.occurredAt = observedAt := by
    rw [hlast] at htime
    exact Option.some.inj htime
  let event := opening r last (reservation slot last.digest basis)
  have hopens : OpensWith event "continue-1" .continue (reservation slot last.digest basis) :=
    opensWith_of_payload hcompiled rfl
  have hpermitted' : Permitted (verifiedReplay r event) event.occurredAt
      (reservation slot last.digest basis) ⟨retainedReference delegation, grant, false⟩ := by
    rw [show event.occurredAt = observedAt from hoccurred]
    exact ⟨hpermitted.delegation, hpermitted.unconditional, hpermitted.reference,
      hpermitted.boundary, hpermitted.admission, hpermitted.sequence, hpermitted.head,
      hpermitted.basis, hpermitted.allowance⟩
  have hfresh := @fresh_settled r slot last.digest basis hs
  have hdirected : standingBrief grant .continue = none
      ↔ WorkDelegationOperation.continue = .integrate := by
    constructor <;> intro h <;> cases h
  obtain ⟨next, hnext⟩ := (@startActivity_permitted retained _ event _ _ hpermitted' hopens hc.activity
    hdirected heligible (hcharged ▸ ⟨charges, hc.charged⟩)).mpr
      ⟨⟨hfresh.activity, hfresh.unplanned, hfresh.unused⟩, rfl⟩
  exact ⟨_, append_place hadmissible (placeAfter_follows hjournaled hlast hroom hc.event hunused)
    (.inl (hjournaled.created last hlast)) (not_not.mp (mt currentStanding_eq_closed.mpr hopen))
    hnext⟩

end Settled

theorem directs_admissible (hc : Computed) : directs.Admissible where
  light := hc.payload
  subject := RehearsalEntry.eq_ok_of_isOk hc.named
  use := hc.use
  fields := hc.fields
  values _ _ _ hv hfield := RehearsalEntry.eq_ok_of_isOk (hc.values _
    ((member_eq_some_iff (by simp [directs, keys])).mp hv) _ (mem_of_lookup_eq_some hfield) rfl)
  facts h := absurd h hc.kind

theorem reachable_journal (hc : Computed) {r : Replay} (h : journal = .ok r) :
    (deliverySystem retained).Reachable r := by
  simp only [journal, bind_eq_ok] at h
  obtain ⟨admitted, hadmitted, directed, hdirected, hdelegated⟩ := h
  have hreachable := reachable_of_rehearse (Sample.reachable_created retained) hc.admits hadmitted
  obtain ⟨_, -, hdirects⟩ :=
    append_drafted (Journaled.of_reachable hreachable) (directs_admissible hc) hdirected
  have hreached := hreachable.step hdirects
  obtain ⟨_, -, hset⟩ := append_of_rehearse (Journaled.of_reachable hreached) hc.sets hdelegated
  exact hreached.step hset

theorem exists_of_leaves {journal : Except FoundationError Replay} {facts : Replay → Bool}
    (h : leaves journal facts = true) : ∃ r, journal = .ok r ∧ facts r = true := by
  cases journal with
  | error e => cases h
  | ok r => exact ⟨r, rfl, h⟩

theorem exists_settled (hc : Computed) : ∃ r, journal = .ok r ∧ Settled r := by
  obtain ⟨r, hr, hs⟩ := exists_of_leaves hc.settles
  exact ⟨r, hr, of_decide_eq_true hs⟩

theorem computed : Computed := by
  constructor <;> decide +kernel

end PlanSample

end ReservationPlanning
