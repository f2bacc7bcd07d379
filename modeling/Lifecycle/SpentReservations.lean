import Lifecycle.ReservationAgreement

/-!
# A reservation is spent once

An activity that opens under a reservation carries it, and its charges are added
to what was charged before. In every replay the carried reservations were each
opened at a position of the journal and under an identity of their own, and what
is charged is a recount of their slots (`reservations_spent`).
-/

open Fallible Json ControlModel DeliveryReducer WorkDelegation

namespace ReservationPlanning

variable {resolve : DeliveryRecordRevisionResolver} {r next : Replay} {event : ControlRecordEvent}

/-! ## A recount -/

/-- **What slots are charged**: one operation, an attempt for each agent, and
the time of all. -/
def slotAccounts (slots : List WorkDelegationExecutionSlot) : WorkDelegationAccounting :=
  ⟨1, (agentRoles slots).length, (slots.map slotWallTimeMs).sum⟩

theorem charges_of_foldlM {slots : List WorkDelegationExecutionSlot} {operations attempts time : Nat}
    {charges : WorkDelegationAccounting}
    (h : slots.foldlM (fun charges slot => addWorkDelegationAccounting charges (slotCharges slot))
      (WorkDelegationAccounting.mk operations attempts time) = .ok charges) :
    charges = ⟨operations, attempts + (agentRoles slots).length,
      time + (slots.map slotWallTimeMs).sum⟩ := by
  induction slots generalizing operations attempts time with
  | nil => exact (Except.ok.inj h).symm
  | cons slot slots ih =>
    rw [List.foldlM_cons, bind_eq_ok] at h
    obtain ⟨counted, hcounted, h⟩ := h
    obtain rfl := addWorkDelegationAccounting_eq_ok hcounted
    rw [ih h, List.map_cons, List.sum_cons, ← Nat.add_assoc]
    cases slot with
    | agent => exact congrArg (WorkDelegationAccounting.mk _ · _) (Nat.add_right_comm ..)
    | check => rfl

theorem reservationCharges_eq {slots : List WorkDelegationExecutionSlot}
    {charges : WorkDelegationAccounting} (h : reservationCharges slots = .ok charges) :
    charges = slotAccounts slots := by
  rw [charges_of_foldlM h, slotAccounts, Nat.zero_add, Nat.zero_add]

/-- The reservations a replay carries, in the order they were opened. -/
def carriedReservations (r : Replay) : List WorkDelegationReservation :=
  r.activityList.filterMap (·.reservation)

theorem carriedReservations_congr
    (h : next.activityList.map (·.carried) = r.activityList.map (·.carried)) :
    carriedReservations next = carriedReservations r := by
  have hsame := congrArg (List.filterMap Prod.snd) h
  rwa [List.filterMap_map, List.filterMap_map] at hsame

/-! ## Openings -/

/-- **A reservation is spent** after a replay: at its head, under a new
identity, and for the charges of its slots. -/
structure Spends (r : Replay) (o : WorkDelegationReservation) : Prop where
  charged : o.charges = slotAccounts o.slots
  head : o.headSequence = lastSequence r
  fresh : ∀ p ∈ carriedReservations r, p.reservationId ≠ o.reservationId

/-- A reservation a brief was opened under is spent. -/
theorem spends_of_brief {activityId : String} {operation : DeliveryOperation}
    {brief : Option SubjectReference} {value : Json} {o : WorkDelegationReservation}
    (hparsed : parseWorkDelegationReservation value = .ok o)
    (hbrief : delegatedBrief resolve r event activityId operation o = .ok brief) : Spends r o := by
  obtain ⟨⟨e, he, -⟩, -, -, -, hunused, -⟩ := delegatedBrief_eq_ok.mp hbrief
  simp only [parseWorkDelegationReservation, bind_eq_ok, exists_unit, pure_eq_ok] at hparsed
  obtain ⟨_, -, compiled, hcompiled, _, -, _, -, _, -, -, rfl⟩ := hparsed
  refine ⟨reservationCharges_eq (compileWorkDelegationReservation_charges hcompiled).2, ?_, ?_⟩
  · rw [lastSequence, he.sequence]
    rfl
  · intro p hp hsame
    obtain ⟨a, ha, hcarries⟩ := List.mem_filterMap.mp hp
    exact hunused ⟨a, ha, by rw [hcarries, ← hsame]; rfl⟩

/-- What an opening that was accepted carries is spent. -/
theorem startActivity_spends (h : startActivity resolve r event = .ok next) :
    carriedReservations next = carriedReservations r
      ∨ ∃ o, Spends r o ∧ carriedReservations next = carriedReservations r ++ [o] := by
  simp only [startActivity, bind_eq_ok, failIf_eq_ok, pure_eq_ok, orFail_eq_ok, exists_unit] at h
  obtain ⟨_, -, activityId, -, hnew, _, -, d, -, -, reservation, hreservation, brief, hbrief, -, -,
    -, family, -, charges, -, rfl⟩ := h
  have hfresh : r.activities.get activityId = none := by simpa [OrderedMap.has] using hnew
  have hlist := OrderedMap.values_set_of_get_eq_none
    (v := openedActivity r activityId d.operation family brief reservation) hfresh
  have hcarried := congrArg (List.filterMap ReplayActivity.reservation) hlist
  rw [List.filterMap_append] at hcarried
  cases reservation with
  | none => exact .inl (hcarried.trans (List.append_nil _))
  | some o =>
    simp only [openingReservation] at hreservation
    split at hreservation
    · simp only [bind_eq_ok, pure_eq_ok, Option.some.injEq] at hreservation
      obtain ⟨_, hparsed, rfl⟩ := hreservation
      exact .inr ⟨_, spends_of_brief hparsed hbrief, hcarried⟩
    · cases hreservation

/-- **An accepted event spends one reservation** or none. -/
theorem spends_of_append (hs : Structural r) (h : append resolve r event = .ok next) :
    lastSequence next = lastSequence r + 1 ∧ (carriedReservations next = carriedReservations r
      ∨ ∃ o, Spends r o ∧ carriedReservations next = carriedReservations r ++ [o]) := by
  obtain ⟨k, hk, hstep⟩ := accountStep_of_append hs h
  obtain ⟨_, applied, k', hverified, hk', -, -, happlied, rfl⟩ := append_eq_ok.mp h
  obtain rfl := Option.some.inj (hk.symm.trans hk')
  obtain ⟨rfl, hsequence, -⟩ := verifyEnvelope_eq_ok hverified
  refine ⟨hsequence, ?_⟩
  cases hstep with
  | kept _ hsame => exact .inl (carriedReservations_congr hsame.carried)
  | granted _ _ _ _ hcarried => exact .inl (carriedReservations_congr hcarried)
  | stopped _ _ _ hcarried => exact .inl (carriedReservations_congr hcarried)
  | opened =>
    rcases startActivity_spends happlied with hsame | ⟨o, ho, hadded⟩
    · exact .inl hsame
    · exact .inr ⟨o, ⟨ho.charged, ho.head, ho.fresh⟩, hadded⟩

/-! ## Every journal -/

/-- **The reservations of a replay were spent**, each once. -/
structure Spent (r : Replay) : Prop where
  charged : ∀ o ∈ carriedReservations r, o.charges = slotAccounts o.slots
  past : ∀ o ∈ carriedReservations r, o.headSequence < lastSequence r
  once : (carriedReservations r).Pairwise fun o p =>
    o.headSequence < p.headSequence ∧ o.reservationId ≠ p.reservationId

theorem Spent.of_reachable (h : (deliverySystem resolve).Reachable r) : Spent r := by
  refine h.invariant_of (fun s hs => ?_) ?_
  · obtain rfl := hs
    exact ⟨List.forall_mem_nil _, List.forall_mem_nil _, .nil⟩
  · intro s event t hs ⟨hcharged, hpast, honce⟩ happend
    obtain ⟨hlast, hsame | ⟨o, ho, hadded⟩⟩ := spends_of_append (.of_reachable hs) happend
    · refine ⟨hsame ▸ hcharged, fun p hp => ?_, hsame ▸ honce⟩
      rw [hlast]
      exact Nat.lt_succ_of_lt (hpast p (hsame ▸ hp))
    · refine ⟨?_, ?_, ?_⟩
      · rw [hadded, List.forall_mem_append, List.forall_mem_singleton]
        exact ⟨hcharged, ho.charged⟩
      · rw [hadded, hlast, List.forall_mem_append, List.forall_mem_singleton, ho.head]
        exact ⟨fun p hp => Nat.lt_succ_of_lt (hpast p hp), Nat.lt_succ_self _⟩
      · rw [hadded, List.pairwise_append]
        refine ⟨honce, List.pairwise_singleton _ _, fun p hp q hq => ?_⟩
        obtain rfl := List.mem_singleton.mp hq
        exact ⟨ho.head ▸ hpast p hp, ho.fresh p hp⟩

end ReservationPlanning
