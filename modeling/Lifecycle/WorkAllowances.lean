import Lifecycle.OpeningHandlers
import Lifecycle.ReservationRoundTrip

/-!
# When work is allowed

`assessWorkDelegationAllowance` reads the grant, the accounts and the
reservation again before it compares them, and gives the first reason that
speaks against the work. Of values that were read before, nothing fails on its
form, so the work is allowed exactly when no reason applies
(`assessWorkDelegationAllowance_iff`).
-/

open Fallible Json ControlModel DeliveryReducer WorkDelegation

namespace ReservationPlanning

/-! ## Agents -/

section Agents

variable {slots : List WorkDelegationExecutionSlot} {operation : WorkDelegationOperation}

/-- The agent that works on an operation. -/
def operationAgent : WorkDelegationOperation → Option DelegatedRole
  | .continue => some .builder
  | .evaluate => some .reviewer
  | .integrate => none

/-- The selection a grant delegates to an agent. -/
def delegatedSelection (grant : WorkDelegationPayload) :
    DelegatedRole → Option WorkDelegationAgentSelection
  | .builder => grant.builder
  | .reviewer => grant.reviewer

/-- The agent a slot reserves. -/
def reservedAgent : WorkDelegationExecutionSlot → Option (DelegatedRole × WorkDelegationAgentSelection)
  | .agent _ role selection => some (role, selection)
  | .check .. => none

/-- The agents a reservation reserves, each with the digest of its selection. -/
def reservedAgents (slots : List WorkDelegationExecutionSlot) :
    List (DelegatedRole × Except FoundationError Sha256Digest) :=
  (slots.filterMap reservedAgent).map fun agent =>
    (agent.1, digestCanonical (agentSelectionJson agent.2))

theorem agentRoles_eq (slots : List WorkDelegationExecutionSlot) :
    agentRoles slots = (slots.filterMap reservedAgent).map (·.1) := by
  rw [agentRoles, List.map_filterMap]
  refine congrArg (fun f => slots.filterMap f) (funext fun slot => ?_)
  cases slot <;> rfl

theorem agentSlot_eq (slots : List WorkDelegationExecutionSlot) :
    WorkDelegation.agentSlot slots = (slots.filterMap reservedAgent).head? := by
  rw [List.head?_filterMap, WorkDelegation.agentSlot]
  refine congrArg (fun f => slots.findSome? f) (funext fun slot => ?_)
  cases slot <;> rfl

theorem checkSelections_eq (slots : List WorkDelegationExecutionSlot) :
    checkSelections slots = (reservedChecks slots).map (·.selectionId) := by
  rw [checkSelections, reservedChecks, List.map_filterMap]
  refine congrArg (fun f => slots.filterMap f) (funext fun slot => ?_)
  cases slot <;> rfl

/-- **The slots of an operation** are of its one agent. -/
theorem agentRoles_of_slotsFit (h : slotsFitOperation operation slots = true) :
    agentRoles slots = (operationAgent operation).toList := by
  cases operation with
  | integrate =>
    rw [slotsFitOperation, List.isEmpty_iff] at h
    rw [h]
    rfl
  | «continue» =>
    rw [slotsFitOperation, Bool.and_eq_true, decide_eq_true_eq] at h
    exact h.1
  | evaluate => exact of_decide_eq_true h

/-- The form every compiled reservation has. -/
theorem slotsFit_of_compiled {value : JsonObject} {r : WorkDelegationReservation}
    (h : compileWorkDelegationReservation value = .ok r) :
    slotsFitOperation r.operation r.slots = true
      ∧ ((reservedChecks r.slots).map (·.selectionId)).Nodup := by
  have hfit := partsFit_of_ok (compileWorkDelegationReservation_charges h).1
  exact ⟨hfit.fits, checkSelections_eq r.slots ▸ hfit.distinct⟩

/-- **A reservation reserves what a grant delegates** to the agent of its
operation. -/
def ReservesDelegated (grant : WorkDelegationPayload) (o : WorkDelegationReservation) : Prop :=
  reservedAgents o.slots = (operationAgent o.operation).toList.map fun role =>
    (role, digestCanonical (orNull agentSelectionJson (delegatedSelection grant role)))

/-- A selection that was read has a digest. -/
theorem exists_selectionDigest {v : Option Json} {s : WorkDelegationAgentSelection}
    (h : agentSelection v = .ok s) : ∃ d, digestCanonical (agentSelectionJson s) = .ok d := by
  have hread := readsBack_agentSelection _ _ h
  simp only [agentSelection, agentSelectionJson, bind_eq_ok, pure_eq_ok] at hread
  obtain ⟨_, hobject, _, -, _, -, _, -, _, -, _, -, wall, hwall, limits, hlimits, -⟩ := hread
  obtain rfl := object_eq_ok hobject
  have hwall : s.wallTimeMs ≤ maxSafeInteger :=
    (integer_nat_iff.mp hwall).1.2.trans (by decide)
  have hlimits' := hlimits
  simp only [agentLimits, agentLimitsJson, bind_eq_ok, pure_eq_ok] at hlimits'
  obtain ⟨_, hobject, tokens, htokens, events, hevents, outputBytes, houtput, toolCalls, htools,
    processes, hprocesses, storageBytes, hstorage, -⟩ := hlimits'
  obtain rfl := object_eq_ok hobject
  have hlimit : ∀ {o p : Option Nat}, nullable (some (orNull nat o))
      (WorkDelegation.integer · 1 maxSafeInteger) = .ok p → (orNull nat o).Numbered := by
    intro o p ho
    cases o with
    | none => trivial
    | some n =>
      simp only [orNull, nullable, nat, bind_eq_ok, pure_eq_ok] at ho
      obtain ⟨m, hm, -⟩ := ho
      exact (integer_nat_iff.mp hm).1.2
  have hnumbered : (agentSelectionJson s).Numbered :=
    ⟨⟨trivial, trivial, trivial⟩, ⟨trivial, trivial, trivial, trivial⟩, ⟨trivial, trivial, trivial⟩,
      trivial, trivial, hwall, ⟨hlimit htokens, hlimit hevents, hlimit houtput, hlimit htools,
        hlimit hprocesses, hlimit hstorage, trivial⟩, trivial⟩
  obtain ⟨text, htext, -⟩ := exists_text_of_numbered hnumbered
  exact ⟨sha256Bytes text, by rw [digestCanonical, htext]; rfl⟩

/-- The agents of read slots have digests. -/
theorem exists_reservedDigest {p : ReservationParts} (h : PartsFit p)
    {agent : DelegatedRole × WorkDelegationAgentSelection}
    (hagent : agent ∈ p.slots.filterMap reservedAgent) :
    ∃ d, digestCanonical (agentSelectionJson agent.2) = .ok d := by
  obtain ⟨slot, hslot, hreserved⟩ := List.mem_filterMap.mp hagent
  have hread := mapM_eq_ok_iff.mp h.read
  rw [List.forall₂_map_left_iff, List.forall₂_same] at hread
  cases slot with
  | check => cases hreserved
  | agent id role selection =>
    obtain rfl := Option.some.inj hreserved
    obtain ⟨_, -, _, hselection, -⟩ := executionSlot_agent.mp (hread _ hslot)
    exact exists_selectionDigest ((agentSelection_json hselection) ▸ hselection)

/-- **The comparison of the agent's selection** finds no difference exactly when
what is reserved is what is delegated. -/
theorem selectionDiffers_eq_ok_false {grant : WorkDelegationPayload} {o : WorkDelegationReservation}
    (hfit : PartsFit o.toReservationParts) :
    selectionDiffers grant o.slots = .ok false ↔ ReservesDelegated grant o := by
  have hroles := agentRoles_of_slotsFit hfit.fits
  rw [agentRoles_eq] at hroles
  rw [selectionDiffers, agentSlot_eq, ReservesDelegated, reservedAgents]
  cases hagents : o.slots.filterMap reservedAgent with
  | nil =>
    rw [hagents, List.map_nil] at hroles
    rw [← hroles]
    exact iff_of_true rfl rfl
  | cons agent rest =>
    obtain ⟨actual, hactual⟩ := exists_reservedDigest hfit (hagents ▸ List.mem_cons_self)
    obtain ⟨role, selection⟩ := agent
    rw [hagents, List.map_cons] at hroles
    have hrest : rest = [] ∧ (operationAgent o.operation).toList = [role] := by
      cases hone : operationAgent o.operation with
      | none => simp [hone] at hroles
      | some only =>
        simp only [hone, Option.toList_some, List.cons.injEq, List.map_eq_nil_iff] at hroles
        exact ⟨hroles.2, by rw [← hroles.1]; rfl⟩
    obtain ⟨rfl, hone⟩ := hrest
    rw [List.head?_cons, hone, List.map_cons, List.map_cons, List.map_nil, List.map_nil]
    simp only [bind_eq_ok, pure_eq_ok, hactual, Except.ok.injEq, exists_eq_left',
      decide_eq_false_iff_not, not_not, List.cons.injEq, Prod.mk.injEq, true_and, and_true]
    constructor
    · rintro ⟨expected, hexpected, rfl⟩
      exact hexpected.symm
    · intro hsame
      exact ⟨actual, hsame.symm, rfl⟩

end Agents

/-! ## Allowances -/

section Allowances

variable {grant : WorkDelegationPayload} {accounting : WorkDelegationAccounting}
variable {o : WorkDelegationReservation} {observed : String} {stopped : Bool}

/-- Accounts within what can be read can be read. -/
theorem accounting_of_le {a b : WorkDelegationAccounting} {v : Option Json}
    (hb : parseWorkDelegationAccounting v = .ok b) (h : a ≤ b) :
    parseWorkDelegationAccounting (some (accountingJson a)) = .ok a := by
  have hread := readsBack_accounting _ _ hb
  simp only [parseWorkDelegationAccounting, accountingJson, bind_eq_ok, pure_eq_ok] at hread
  obtain ⟨_, hobject, operations, hoperations, attempts, hattempts, cells, hcells, -⟩ := hread
  obtain rfl := object_eq_ok hobject
  obtain ⟨h₁, h₂, h₃⟩ := h
  simp only [parseWorkDelegationAccounting, accountingJson, bind_eq_ok, pure_eq_ok]
  exact ⟨_, rfl, a.operations,
    integer_nat_iff.mpr ⟨⟨Nat.zero_le _, h₁.trans (integer_nat_iff.mp hoperations).1.2⟩, rfl⟩,
    a.agentAttempts,
    integer_nat_iff.mpr ⟨⟨Nat.zero_le _, h₂.trans (integer_nat_iff.mp hattempts).1.2⟩, rfl⟩,
    a.reservedCellWallTimeMs,
    integer_nat_iff.mpr ⟨⟨Nat.zero_le _, h₃.trans (integer_nat_iff.mp hcells).1.2⟩, rfl⟩, rfl⟩

/-- **Work is allowed** at an instant. -/
structure Allowed (grant : WorkDelegationPayload) (accounting : WorkDelegationAccounting)
    (o : WorkDelegationReservation) (observed : String) (stopped : Bool) : Prop where
  going : stopped = false
  instant : WorkDelegation.time (some (.string observed)) = .ok observed
  unexpired : ∀ e ∈ grant.expiresAt, Timestamp.dateLe e observed = false
  delegated : o.operation ∈ grant.allowedOperations
  agent : ReservesDelegated grant o
  ceilings : accounting + o.charges ≤ grant.ceilings

/-- **Work is allowed exactly when no reason speaks against it**: of a grant, of
accounts and of a reservation that were read or compiled before. -/
theorem assessWorkDelegationAllowance_iff {value : Json} {members : JsonObject}
    (hgrant : parseWorkDelegationPayload value = .ok grant)
    (haccounting : parseWorkDelegationAccounting (some (accountingJson accounting)) = .ok accounting)
    (hcompiled : compileWorkDelegationReservation members = .ok o) :
    (∃ allowance, assessWorkDelegationAllowance grant accounting o observed stopped = .ok allowance
      ∧ allowance.allowed = true) ↔ Allowed grant accounting o observed stopped := by
  have hgrant' := parseWorkDelegationPayload_payloadJson hgrant
  have hread := parseWorkDelegationReservation_iff.mpr ⟨members, hcompiled⟩
  obtain ⟨hparts, hcharges⟩ := compileWorkDelegationReservation_charges hcompiled
  have hdiffers := @selectionDiffers_eq_ok_false grant o (partsFit_of_ok hparts)
  simp only [assessWorkDelegationAllowance, hgrant', ok_bind, haccounting, hread, bind_eq_ok,
    pure_eq_ok]
  constructor
  · rintro ⟨_, ⟨observedAt, htime, prospective, hprospective, differs, hdiffer, rfl⟩, hallowed⟩
    obtain rfl := Json.string.inj (Option.some.inj (value_of_time htime))
    obtain rfl := addWorkDelegationAccounting_eq_ok hprospective
    rw [decide_eq_true_eq] at hallowed
    -- Every reason but the last is passed over.
    split at hallowed
    · cases hallowed
    split at hallowed
    · cases hallowed
    split at hallowed
    · cases hallowed
    split at hallowed
    · cases hallowed
    split at hallowed
    · cases hallowed
    split at hallowed
    · cases hallowed
    split at hallowed
    · cases hallowed
    next hgoing hunexpired hdelegated hsame hoperations hattempts hcells =>
    rw [Bool.not_eq_true] at hgoing hsame
    subst hsame
    refine ⟨hgoing, htime, ?_, not_not.mp hdelegated, hdiffers.mp hdiffer,
      Nat.le_of_not_lt hoperations, Nat.le_of_not_lt hattempts, Nat.le_of_not_lt hcells⟩
    intro e he
    rw [← Bool.not_eq_true]
    exact fun hexpired => hunexpired ⟨e, he, hexpired⟩
  · rintro ⟨hgoing, htime, hunexpired, hdelegated, hagent, hceilings⟩
    have hgrantCeilings : ∃ v, parseWorkDelegationAccounting v = .ok grant.ceilings := by
      simp only [parseWorkDelegationPayload, bind_eq_ok, exists_unit, pure_eq_ok] at hgrant
      obtain ⟨_, -, -, _, -, -, _, -, -, _, -, _, -, _, -, -, ceilings, hread, -, _, -, _, -, _, -,
        _, -, _, -, _, -, _, -, _, -, rfl⟩ := hgrant
      exact ⟨_, hread⟩
    obtain ⟨v, hv⟩ := hgrantCeilings
    have hsum : addWorkDelegationAccounting accounting o.charges
        = .ok (accounting + o.charges) := by
      rw [addWorkDelegationAccounting, haccounting, ok_bind, reservationCharges_readable hcharges,
        ok_bind]
      exact accounting_of_le hv hceilings
    refine ⟨_, ⟨observed, htime, _, hsum, false, hdiffers.mpr hagent, rfl⟩, ?_⟩
    have hexpired : ¬ ∃ e ∈ grant.expiresAt, Timestamp.dateLe e observed = true := by
      rintro ⟨e, he, hle⟩
      rw [hunexpired e he] at hle
      cases hle
    rw [decide_eq_true_eq, hgoing, if_neg Bool.false_ne_true, if_neg hexpired,
      if_neg (not_not.mpr hdelegated), if_neg Bool.false_ne_true, if_neg (Nat.not_lt.mpr hceilings.1),
      if_neg (Nat.not_lt.mpr hceilings.2.1), if_neg (Nat.not_lt.mpr hceilings.2.2)]

/-- What an assessment allowed was allowed. -/
theorem allowed_of_assess {value : Json} {members : JsonObject}
    {allowance : WorkDelegationAllowance}
    (hgrant : parseWorkDelegationPayload value = .ok grant)
    (hcompiled : compileWorkDelegationReservation members = .ok o)
    (h : assessWorkDelegationAllowance grant accounting o observed stopped = .ok allowance)
    (hallowed : allowance.allowed = true) : Allowed grant accounting o observed stopped := by
  have hread := h
  simp only [assessWorkDelegationAllowance, bind_eq_ok] at hread
  obtain ⟨_, -, charged, hcharged, -⟩ := hread
  have haccounting := parseWorkDelegationAccounting_json hcharged ▸ hcharged
  exact (assessWorkDelegationAllowance_iff hgrant haccounting hcompiled).mp
    ⟨allowance, h, hallowed⟩

end Allowances

end ReservationPlanning
