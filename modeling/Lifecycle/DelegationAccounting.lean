import Lifecycle.DeliveryInvariants

/-!
# The accounts of delegated work

A delegation grants ceilings; an activity that opens under it carries a
reservation, and the reducer adds the reservation's charges to what the
delivery has been charged. What is charged is read back here from the
activities (`lineageCharges`): nothing is charged that no activity
carries, nothing carried is forgotten by a replacement of the delegation,
and no grant is overdrawn (`replay_accounted`).
-/

open Fallible Json ControlModel DeliveryReducer WorkDelegation

variable {resolve : DeliveryRecordRevisionResolver} {r next : Replay}
  {event : ControlRecordEvent}

/-! ## Accounts -/

namespace WorkDelegationAccounting

/-- The componentwise sum of two accounts. -/
instance : Add WorkDelegationAccounting where
  add a b := ⟨a.operations + b.operations, a.agentAttempts + b.agentAttempts,
    a.reservedCellWallTimeMs + b.reservedCellWallTimeMs⟩

/-- One account is within another: in every component. -/
instance : LE WorkDelegationAccounting where
  le a b := a.operations ≤ b.operations ∧ a.agentAttempts ≤ b.agentAttempts
    ∧ a.reservedCellWallTimeMs ≤ b.reservedCellWallTimeMs

/-- **The componentwise sum** of a list of accounts. -/
def sum (charges : List WorkDelegationAccounting) : WorkDelegationAccounting where
  operations := (charges.map (·.operations)).sum
  agentAttempts := (charges.map (·.agentAttempts)).sum
  reservedCellWallTimeMs := (charges.map (·.reservedCellWallTimeMs)).sum

variable {a b : WorkDelegationAccounting}

theorem le_refl : a ≤ a := ⟨Nat.le_refl _, Nat.le_refl _, Nat.le_refl _⟩

theorem le_add : a ≤ a + b := ⟨Nat.le_add_right _ _, Nat.le_add_right _ _, Nat.le_add_right _ _⟩

theorem sum_append {xs ys : List WorkDelegationAccounting} : sum (xs ++ ys) = sum xs + sum ys := by
  simp only [sum, List.map_append, List.sum_append]
  rfl

theorem sum_singleton : sum [a] = a := by simp [sum]

end WorkDelegationAccounting

/-! ## What parsing keeps -/

theorem object_eq_ok {members : JsonObject} {names : List String} {o : JsonObject}
    (h : WorkDelegation.object (some (.object members)) names = .ok o) : o = members := by
  simp only [WorkDelegation.object, bind_eq_ok, failIf_eq_ok, exists_unit, pure_eq_ok] at h
  exact h.2.symm

/-- An integer that was read is the one written. -/
theorem integer_nat {n m minimum maximum : Nat}
    (h : WorkDelegation.integer (some (nat n)) minimum maximum = .ok m) : m = n := by
  simp only [WorkDelegation.integer, nat, bind_eq_ok, failIf_eq_ok, exists_unit, pure_eq_ok] at h
  simpa using h.2.symm

/-- **Accounts survive a reading.** -/
theorem parseWorkDelegationAccounting_json {a b : WorkDelegationAccounting}
    (h : parseWorkDelegationAccounting (some (accountingJson a)) = .ok b) : b = a := by
  simp only [parseWorkDelegationAccounting, accountingJson, bind_eq_ok, pure_eq_ok] at h
  obtain ⟨selected, hselected, operations, hoperations, attempts, hattempts, cells, hcells,
    rfl⟩ := h
  obtain rfl := object_eq_ok hselected
  obtain rfl := integer_nat (n := a.operations) hoperations
  obtain rfl := integer_nat (n := a.agentAttempts) hattempts
  obtain rfl := integer_nat (n := a.reservedCellWallTimeMs) hcells
  rfl

/-- **`addWorkDelegationAccounting` adds**, when it returns. -/
theorem addWorkDelegationAccounting_eq_ok {a b c : WorkDelegationAccounting}
    (h : addWorkDelegationAccounting a b = .ok c) : c = a + b := by
  simp only [addWorkDelegationAccounting, bind_eq_ok] at h
  obtain ⟨before, hbefore, added, hadded, hsum⟩ := h
  rw [parseWorkDelegationAccounting_json hsum, parseWorkDelegationAccounting_json hbefore,
    parseWorkDelegationAccounting_json hadded]
  rfl

/-- A time that was read is canonical, and the one written. -/
theorem nullable_time {expires e : Option String}
    (h : WorkDelegation.nullable (some (textOrNull expires)) WorkDelegation.time = .ok e) :
    e = expires ∧ ∀ text ∈ expires, WorkDelegation.time (some (.string text)) = .ok text := by
  cases expires with
  | none => simpa [WorkDelegation.nullable, textOrNull] using h.symm
  | some text =>
    simp only [WorkDelegation.nullable, textOrNull, bind_eq_ok, pure_eq_ok] at h
    obtain ⟨parsed, hparsed, rfl⟩ := h
    have htext := hparsed
    simp only [WorkDelegation.time, controlTimestamp_eq_ok_iff] at htext
    rw [htext.1] at hparsed ⊢
    simpa using hparsed

/-- **The ceilings and the expiry of a grant survive a reading.** -/
theorem parseWorkDelegationPayload_json {p q : WorkDelegationPayload}
    (h : parseWorkDelegationPayload (payloadJson p) = .ok q) :
    q.ceilings = p.ceilings ∧ q.expiresAt = p.expiresAt
      ∧ ∀ e ∈ p.expiresAt, WorkDelegation.time (some (.string e)) = .ok e := by
  simp only [parseWorkDelegationPayload, payloadJson, bind_eq_ok, pure_eq_ok] at h
  obtain ⟨selected, hselected, -, -, _, -, -, -, _, -, -, -, _, -, _, -, _, -, -, -, ceilings,
    hceilings, -, -, _, -, _, -, _, -, _, -, _, -, _, -, _, -, expiresAt, hexpires, rfl⟩ := h
  obtain rfl := object_eq_ok hselected
  exact ⟨parseWorkDelegationAccounting_json hceilings, nullable_time hexpires⟩

/-- What an agent's slot charges survives a reading. -/
theorem agentSelection_wallTimeMs {selection parsed : WorkDelegationAgentSelection}
    (h : WorkDelegation.agentSelection (some (agentSelectionJson selection)) = .ok parsed) :
    parsed.wallTimeMs = selection.wallTimeMs := by
  simp only [WorkDelegation.agentSelection, agentSelectionJson, bind_eq_ok, pure_eq_ok] at h
  obtain ⟨selected, hselected, _, -, _, -, _, -, _, -, _, -, wallTimeMs, hwall, _, -, rfl⟩ := h
  obtain rfl := object_eq_ok hselected
  exact integer_nat (n := selection.wallTimeMs) hwall

/-- **What a slot charges survives a reading.** -/
theorem executionSlot_slotCharges {slot parsed : WorkDelegationExecutionSlot}
    (h : executionSlot (slotJson slot) = .ok parsed) : slotCharges parsed = slotCharges slot := by
  cases slot with
  | agent slotId role selection =>
    rw [slotJson, executionSlot, if_pos (by rfl), bind_eq_ok] at h
    obtain ⟨selected, hselected, h⟩ := h
    obtain rfl := object_eq_ok hselected
    -- Whatever the role is, the selection is read the same.
    have hparsed : ∃ role slotId' selection', agentSelection (some (agentSelectionJson selection))
        = .ok selection' ∧ parsed = .agent slotId' role selection' := by
      split at h <;> simp only [ok_bind, error_bind, reduceCtorEq, bind_eq_ok, pure_eq_ok] at h
      all_goals
        obtain ⟨slotId', -, selection', hselection, rfl⟩ := h
        exact ⟨_, slotId', selection', hselection, rfl⟩
    obtain ⟨_, _, parsedSelection, hselection, rfl⟩ := hparsed
    simp only [slotCharges, slotWallTimeMs, agentSelection_wallTimeMs hselection]
  | check slotId selectionId definition binding backendProfile image wallTimeMs limits =>
    rw [slotJson, executionSlot, if_neg (by rw [show asString _ = some "check" from rfl]; decide)]
      at h
    simp only [bind_eq_ok, pure_eq_ok] at h
    obtain ⟨selected, hselected, -, -, parsedWall, hwall, _, -, -, -, _, -, _, -, -, -, -, -, _,
      -, _, -, _, -, _, -, _, -, _, -, _, -, _, -, rfl⟩ := h
    obtain rfl := object_eq_ok hselected
    obtain rfl := integer_nat (n := wallTimeMs) hwall
    rfl

/-- What a compiled reservation charges is what its slots charge. -/
theorem compileWorkDelegationReservation_charges {value : JsonObject}
    {reservation : WorkDelegationReservation}
    (h : compileWorkDelegationReservation value = .ok reservation) :
    WorkDelegation.reservationParts value = .ok reservation.toReservationParts
      ∧ reservationCharges reservation.slots = .ok reservation.charges := by
  simp only [compileWorkDelegationReservation, bind_eq_ok, pure_eq_ok] at h
  obtain ⟨parts, hparts, charges, hcharges, -, -, rfl⟩ := h
  exact ⟨hparts, hcharges⟩

/-- Slots that charge alike charge a reservation alike. -/
theorem reservationCharges_congr {slots parsed : List WorkDelegationExecutionSlot}
    (h : List.Forall₂ (fun s p => slotCharges p = slotCharges s) slots parsed) :
    reservationCharges parsed = reservationCharges slots := by
  have hfold : ∀ charges, parsed.foldlM (fun c s => addWorkDelegationAccounting c (slotCharges s))
      charges = slots.foldlM (fun c s => addWorkDelegationAccounting c (slotCharges s)) charges := by
    induction h with
    | nil => exact fun _ => rfl
    | cons hslot _ ih =>
      intro charges
      rw [List.foldlM_cons, List.foldlM_cons, hslot]
      exact bind_congr fun c => ih c
  exact hfold _

/-- **The charges of a reservation survive a reading.** -/
theorem parseWorkDelegationReservation_json {value : Json}
    {reservation parsed : WorkDelegationReservation}
    (hreservation : parseWorkDelegationReservation value = .ok reservation)
    (h : parseWorkDelegationReservation (reservationJson reservation) = .ok parsed) :
    parsed.charges = reservation.charges := by
  simp only [parseWorkDelegationReservation, bind_eq_ok, pure_eq_ok] at hreservation h
  obtain ⟨_, -, first, hfirst, _, -, _, -, _, -, -, -, rfl⟩ := hreservation
  obtain ⟨selected, hselected, second, hsecond, _, -, _, -, _, -, -, -, rfl⟩ := h
  obtain rfl := object_eq_ok hselected
  obtain ⟨-, hcharges⟩ := compileWorkDelegationReservation_charges hfirst
  obtain ⟨hparts, hsecondCharges⟩ := compileWorkDelegationReservation_charges hsecond
  simp only [WorkDelegation.reservationParts, bind_eq_ok, pure_eq_ok] at hparts
  obtain ⟨members, hmembers, -, -, _, -, _, -, _, -, _, -, -, -, items, hitems, -, -, slots,
    hslots, -, -, -, -, -, -, _, -, _, -, _, -, _, -, _, -, _, -, hend⟩ := hparts
  have hsame : slots = second.slots := by rw [← hend]
  obtain rfl := object_eq_ok hmembers
  have hitems' : items = first.slots.map slotJson := by
    simpa [arrayItems, partsMembers, member] using hitems.symm
  rw [hitems', mapM_eq_ok_iff, List.forall₂_map_left_iff] at hslots
  have halike := hslots.imp fun _ _ => executionSlot_slotCharges
  rw [← hsame, reservationCharges_congr halike, hcharges, Except.ok.injEq] at hsecondCharges
  exact hsecondCharges.symm

/-- Of two canonical instants, one is before the other or the other is not
after it. -/
theorem dateLt_of_not_dateLe {left right : String}
    (hleft : WorkDelegation.time (some (.string left)) = .ok left)
    (hright : WorkDelegation.time (some (.string right)) = .ok right)
    (h : ¬ Timestamp.dateLe left right = true) : Timestamp.dateLt right left = true := by
  simp only [WorkDelegation.time, controlTimestamp_eq_ok_iff, true_and] at hleft hright
  obtain ⟨t, ht, -⟩ := hleft
  obtain ⟨u, hu, -⟩ := hright
  simp only [Timestamp.dateLe, Timestamp.dateLt, ht, hu, decide_eq_true_eq] at h ⊢
  omega

/-- **What an allowance that was given says**: the delegation is not
stopped, the instant is before its expiry, and the ceilings bear the
reservation's charges. -/
theorem assessWorkDelegationAllowance_allowed {grant : WorkDelegationPayload}
    {accounting : WorkDelegationAccounting} {reservation : WorkDelegationReservation}
    {observed : String} {stopped : Bool} {allowance : WorkDelegationAllowance} {value : Json}
    (hreservation : parseWorkDelegationReservation value = .ok reservation)
    (h : assessWorkDelegationAllowance grant accounting reservation observed stopped
      = .ok allowance) (hallowed : allowance.allowed = true) :
    stopped = false ∧ (∀ e ∈ grant.expiresAt, Timestamp.dateLt observed e = true)
      ∧ accounting + reservation.charges ≤ grant.ceilings := by
  simp only [assessWorkDelegationAllowance, bind_eq_ok, pure_eq_ok] at h
  obtain ⟨parsedGrant, hgrant, charged, hcharged, parsed, hparsed, observedAt, hobserved,
    prospective, hprospective, differs, -, rfl⟩ := h
  obtain ⟨hceilings, hexpires, htimes⟩ := parseWorkDelegationPayload_json hgrant
  obtain rfl := parseWorkDelegationAccounting_json hcharged
  have hcharges := parseWorkDelegationReservation_json hreservation hparsed
  obtain rfl := addWorkDelegationAccounting_eq_ok hprospective
  have hsame : observedAt = observed := by
    have hat := hobserved
    simp only [WorkDelegation.time, controlTimestamp_eq_ok_iff] at hat
    exact hat.1
  rw [hsame] at hallowed hobserved
  rw [hceilings, hexpires, hcharges, decide_eq_true_eq] at hallowed
  -- Every reason but the last is passed over.
  split at hallowed
  · cases hallowed
  split at hallowed
  · cases hallowed
  split at hallowed
  · cases hallowed
  split at hallowed
  · cases hallowed
  split at hallowed
  · cases hallowed
  split at hallowed
  · cases hallowed
  split at hallowed
  · cases hallowed
  next hstopped hexpired _ _ hoperations hattempts hcells =>
  refine ⟨by simpa using hstopped, ?_, Nat.le_of_not_lt hoperations,
    Nat.le_of_not_lt hattempts, Nat.le_of_not_lt hcells⟩
  intro e he
  refine dateLt_of_not_dateLe (htimes e he) hobserved ?_
  intro hle
  exact hexpired ⟨e, he, hle⟩

/-! ## What an event does to the accounts -/

/-- What the accounts read of an activity. -/
def ReplayActivity.carried (a : ReplayActivity) : String × Option WorkDelegationReservation :=
  (a.id, a.reservation)

/-- **Replays with the same accounts.** -/
structure SameAccounts (r next : Replay) : Prop where
  delegation : next.delegation = r.delegation
  charges : next.delegatedCharges = r.delegatedCharges
  carried : next.activityList.map (·.carried) = r.activityList.map (·.carried)

/-- **A charged reservation**: of the exact current delegation, which is
not stopped, at an instant before its expiry, and within its ceilings. -/
structure Charged (r next : Replay) (event : ControlRecordEvent)
    (reservation : WorkDelegationReservation) : Prop where
  charges : next.delegatedCharges = r.delegatedCharges + reservation.charges
  current : ∃ d ∈ r.delegation, d.reference = delegationReference reservation.delegation
    ∧ d.stopped = false ∧ (∀ e ∈ d.payload.expiresAt, Timestamp.dateLt event.occurredAt e = true)
    ∧ next.delegatedCharges ≤ d.payload.ceilings

/-- **What an opening charges**: its reservation, and nothing when it
carries none, which no productive opening does under a current
allowance. -/
def OpensCharged (r next : Replay) (event : ControlRecordEvent) (activity : ReplayActivity) :
    Prop :=
  match activity.reservation with
  | some reservation => Charged r next event reservation
  | none => next.delegatedCharges = r.delegatedCharges
      ∧ (allowanceCurrent r → delegatedOperation activity.operation = none)

/-- One delegation replaces another: the next revision of its record. -/
def Replaces (d previous : ReplayDelegation) : Prop :=
  d.reference.id = previous.reference.id
    ∧ d.reference.revision = previous.reference.revision + 1

/-- **What an accepted event of a kind does to the accounts.** -/
inductive AccountStep (r : Replay) (event : ControlRecordEvent) :
    DeliveryEventKind → Replay → Prop
  | kept {k : DeliveryEventKind} {next : Replay} :
      k ≠ .activityStarted → SameAccounts r next → AccountStep r event k next
  | granted {d : ReplayDelegation} {next : Replay} :
      next.delegation = some d → (∀ previous ∈ r.delegation, Replaces d previous) →
      r.delegatedCharges ≤ d.payload.ceilings → next.delegatedCharges = r.delegatedCharges →
      next.activityList.map (·.carried) = r.activityList.map (·.carried) →
      AccountStep r event .workDelegationSet next
  | stopped {d : ReplayDelegation} {next : Replay} :
      r.delegation = some d → next.delegation = some { d with stopped := true } →
      next.delegatedCharges = r.delegatedCharges →
      next.activityList.map (·.carried) = r.activityList.map (·.carried) →
      AccountStep r event .workDelegationStopped next
  | opened {activity : ReplayActivity} {next : Replay} :
      next.activityList = r.activityList ++ [activity] → next.delegation = r.delegation →
      OpensCharged r next event activity → AccountStep r event .activityStarted next

/-- An activity that moves carries what it carried. -/
theorem SameAccounts.of_set {a b : ReplayActivity} {payload : JsonObject}
    (hs : Structural r) (ha : activityFor r payload = .ok a)
    (hactivities : next.activities = r.activities.set b.id b)
    (hcarried : b.carried = a.carried) (hdelegation : next.delegation = r.delegation)
    (hcharges : next.delegatedCharges = r.delegatedCharges) : SameAccounts r next where
  delegation := hdelegation
  charges := hcharges
  carried := by
    have hget := hs.sequential.get_of_mem (openIn_of_activityFor ha).1
    have hid : b.id = a.id := congrArg Prod.fst hcarried
    rw [Replay.activityList, hactivities, hid]
    exact OrderedMap.map_values_set_of_get hget hcarried

theorem carried_observedTransaction {a : ReplayActivity} {outcome : TransactionOutcome}
    {d : Sha256Digest} : (observedTransaction a outcome d).carried = a.carried := by
  unfold observedTransaction
  split <;> rfl

theorem Progress.carried {k : DeliveryEventKind} {r₁ : Replay} {a b : ReplayActivity}
    (h : Progress resolve r event a k r₁ b) : b.carried = a.carried := by
  cases h with
  | transactionObserved => exact carried_observedTransaction
  | _ => rfl

theorem Progress.accounts {k : DeliveryEventKind} {r₁ : Replay} {a b : ReplayActivity}
    (h : Progress resolve r event a k r₁ b) : r₁.activities = r.activities
      ∧ r₁.delegation = r.delegation ∧ r₁.delegatedCharges = r.delegatedCharges := by
  cases h <;> exact ⟨rfl, rfl, rfl⟩

/-- **A step that moves an activity keeps the accounts.** -/
theorem DeliveryStep.sameAccounts {k : DeliveryEventKind} (hs : Structural r)
    (h : DeliveryStep resolve r event k next)
    (hk : k ∉ [DeliveryEventKind.deliveryCreated, .directorBriefSubmitted, .workDelegationSet,
      .workDelegationStopped, .activityRecoveryRecorded, .activityStarted]) :
    SameAccounts r next := by
  cases h with
  | quiet hquiet =>
    refine absurd ?_ hk
    simp only [List.mem_cons, List.not_mem_nil, or_false] at hquiet ⊢
    tauto
  | started => simp at hk
  | progress ha hprogress =>
    obtain ⟨hactivities, hdelegation, hcharges⟩ := hprogress.accounts
    refine .of_set hs ha ?_ hprogress.carried hdelegation hcharges
    rw [Replay.setActivity, hactivities]
  | activated ha => exact .of_set hs ha rfl carried_observedTransaction rfl rfl
  | assessed ha => exact .of_set hs ha rfl rfl rfl rfl
  | observed ha => exact .of_set hs ha rfl rfl rfl rfl
  | frozen ha => exact .of_set hs ha rfl rfl rfl rfl
  | sealed ha => exact .of_set hs ha rfl rfl rfl rfl
  | evidenced ha => exact .of_set hs ha rfl rfl rfl rfl
  | completed ha => exact .of_set hs ha rfl rfl rfl rfl
  | closed ha => exact .of_set hs ha rfl rfl rfl rfl

theorem createDelivery_accounts (h : createDelivery r event = .ok next) : SameAccounts r next := by
  simp only [createDelivery, bind_eq_ok, pure_eq_ok] at h
  obtain ⟨_, -, -, -, rfl⟩ := h
  exact ⟨rfl, rfl, rfl⟩

theorem submitDirectorBrief_accounts (h : submitDirectorBrief resolve r event = .ok next) :
    SameAccounts r next := by
  unfold submitDirectorBrief at h
  split at h
  · simp only [submitStandingBrief, bind_eq_ok, pure_eq_ok, exists_registered] at h
    obtain ⟨_, -, -, revision, -, -, -, _, -, _, -, _, -, -, -, key, -, -, -, rfl⟩ := h
    exact ⟨rfl, rfl, rfl⟩
  · simp only [submitActivityBrief, bind_eq_ok, pure_eq_ok, exists_registered] at h
    obtain ⟨_, -, activityId, -, -, -, -, -, -, revision, -, -, -, _, -, _, -, _, -, -, -, rfl⟩ := h
    exact ⟨rfl, rfl, rfl⟩

/-- Taking up a standing direction keeps the accounts. -/
theorem useStandingDirection_accounts {revision : ControlRecordRevision}
    {directions : List ControlRecordRelationship} {operation : String}
    {selected : Option WorkDelegationReference}
    (h : useStandingDirection resolve revision directions operation selected r = .ok next) :
    next.activities = r.activities ∧ next.delegatedCharges = r.delegatedCharges := by
  cases selected with
  | none =>
    simp only [useStandingDirection, Except.ok.injEq] at h
    exact h ▸ ⟨rfl, rfl⟩
  | some selected =>
    simp only [useStandingDirection, bind_eq_ok, pure_eq_ok] at h
    obtain ⟨_, -, -, -, _, -, -, -, rfl⟩ := h
    exact ⟨rfl, rfl⟩

/-- A delegation replaces the current one. -/
theorem assertDelegationLineage_replaces {d previous : ReplayDelegation}
    {revision : ControlRecordRevision} {grant : WorkDelegationPayload}
    {link : Option SubjectReference} {u : Unit} (hd : d.reference = retainedReference revision)
    (h : assertDelegationLineage (some previous.reference) revision grant link = .ok u) :
    Replaces d previous := by
  simp only [assertDelegationLineage, bind_eq_ok, failIf_eq_ok, exists_unit] at h
  obtain ⟨-, -, hadvances⟩ := h
  push Not at hadvances
  rw [Replaces, hd]
  exact hadvances

theorem setWorkDelegation_accounts (h : setWorkDelegation resolve r event = .ok next) :
    AccountStep r event .workDelegationSet next := by
  simp only [setWorkDelegation, bind_eq_ok, exactPayload_eq_ok, failIf_eq_ok, pure_eq_ok,
    exists_unit, exists_registered] at h
  obtain ⟨_, ⟨-, rfl⟩, -, -, revision, -, grant, -, -, -, -, _, -, -, _, -, -, _, -, -, link, -,
    hlineage, -, hceilings, -, continued, hcontinued, evaluated, hevaluated, rfl⟩ := h
  obtain ⟨hactivities, hcharges⟩ := useStandingDirection_accounts hcontinued
  obtain ⟨hactivities', hcharges'⟩ := useStandingDirection_accounts hevaluated
  push Not at hceilings
  refine .granted rfl ?_ hceilings (hcharges'.trans hcharges) ?_
  · intro previous hprevious
    rw [Option.mem_def.mp hprevious] at hlineage
    exact assertDelegationLineage_replaces rfl hlineage
  · show evaluated.activities.values.map _ = _
    rw [hactivities', hactivities]
    rfl

theorem stopWorkDelegation_accounts (h : stopWorkDelegation resolve r event = .ok next) :
    AccountStep r event .workDelegationStopped next := by
  simp only [stopWorkDelegation, bind_eq_ok, exactPayload_eq_ok, failIf_eq_ok, pure_eq_ok,
    orFail_eq_ok, exists_unit] at h
  obtain ⟨_, ⟨-, rfl⟩, grant, hgrant, -, _, -, -, _, -, _, -, _, -, -, _, -, -, rfl⟩ := h
  exact .stopped hgrant rfl rfl rfl

/-- **A delegated opening is charged under the current delegation.** -/
theorem delegatedBrief_charged {activityId : String} {operation : DeliveryOperation}
    {reservation : WorkDelegationReservation} {brief : Option SubjectReference} {value : Json}
    (hreservation : parseWorkDelegationReservation value = .ok reservation)
    (h : delegatedBrief resolve r event activityId operation reservation = .ok brief)
    (hcharges : next.delegatedCharges = r.delegatedCharges + reservation.charges) :
    Charged r next event reservation := by
  simp only [delegatedBrief, bind_eq_ok, failIf_eq_ok, orFail_eq_ok, exists_unit,
    assertReference_eq_ok, Bool.not_eq_false] at h
  obtain ⟨grant, hgrant, -, ⟨-, hreference⟩, -, -, _, -, -, -, -, allowance, hallowance, hallowed,
    -⟩ := h
  rw [Option.some.injEq] at hreference
  obtain ⟨hstopped, hexpires, hceilings⟩ :=
    assessWorkDelegationAllowance_allowed hreservation hallowance hallowed
  exact ⟨hcharges, grant, hgrant, hreference, hstopped, hexpires, hcharges ▸ hceilings⟩

theorem startActivity_accounts (h : startActivity resolve r event = .ok next) :
    AccountStep r event .activityStarted next := by
  simp only [startActivity, bind_eq_ok, exactPayload_eq_ok, failIf_eq_ok, pure_eq_ok,
    orFail_eq_ok, exists_unit] at h
  obtain ⟨_, ⟨-, rfl⟩, activityId, -, hnew, _, -, d, hd, hrecover, reservation, hreservation, brief,
    hbrief, -, -, heligible, family, -, charges, hcharges, rfl⟩ := h
  have hfresh : r.activities.get activityId = none := by simpa [OrderedMap.has] using hnew
  refine @AccountStep.opened r event (openedActivity r activityId d.operation family brief reservation)
    _ (OrderedMap.values_set_of_get_eq_none hfresh) rfl ?_
  cases reservation with
  | none =>
    -- Without a reservation nothing is charged, and no current allowance is passed by.
    simp only [openingCharges, Except.ok.injEq] at hcharges
    simp only [openingBrief, bind_eq_ok, failIf_eq_ok, exists_unit, not_and, not_not] at hbrief
    exact ⟨hcharges.symm, hbrief.1⟩
  | some reservation =>
    simp only [openingReservation] at hreservation
    split at hreservation
    · simp only [bind_eq_ok, pure_eq_ok, Option.some.injEq] at hreservation
      obtain ⟨_, hparsed, rfl⟩ := hreservation
      exact delegatedBrief_charged hparsed hbrief (addWorkDelegationAccounting_eq_ok hcharges)
    · cases hreservation

/-- **Every accepted event keeps the accounts or settles them.** -/
theorem handle_accounts {k : DeliveryEventKind} (hs : Structural r)
    (h : handle resolve r event k = .ok next) : AccountStep r event k next := by
  have hmoves := fun hk => DeliveryStep.sameAccounts hs (handle_step h) hk
  cases k with
  | deliveryCreated => exact .kept (by simp) (createDelivery_accounts h)
  | directorBriefSubmitted => exact .kept (by simp) (submitDirectorBrief_accounts h)
  | workDelegationSet => exact setWorkDelegation_accounts h
  | workDelegationStopped => exact stopWorkDelegation_accounts h
  | activityStarted => exact startActivity_accounts h
  | activityRecoveryRecorded =>
    obtain rfl := recordRecovery_eq h
    exact .kept (by simp) ⟨rfl, rfl, rfl⟩
  | _ => exact .kept (by simp) (hmoves (by simp))

/-- A verified envelope leaves what the accounts read. -/
theorem verifyEnvelope_accounts {n : Nat} {verified : Replay}
    (h : verifyEnvelope r event n = .ok verified) :
    verified.activities = r.activities ∧ verified.delegation = r.delegation
      ∧ verified.delegatedCharges = r.delegatedCharges
      ∧ (allowanceCurrent verified ↔ allowanceCurrent r) := by
  simp only [verifyEnvelope, bind_eq_ok, pure_eq_ok] at h
  obtain ⟨-, -, -, -, -, -, -, -, -, -, -, -, rfl⟩ := h
  exact ⟨rfl, rfl, rfl, Iff.rfl⟩

/-- **What an accepted event does to the accounts of a reachable replay.** -/
theorem accountStep_of_append (hs : Structural r) (h : append resolve r event = .ok next) :
    ∃ k, DeliveryEvents.parseKind event.eventKind = some k ∧ AccountStep r event k next := by
  obtain ⟨verified, applied, k, hverified, hk, -, -, happlied, rfl⟩ := append_eq_ok.mp h
  obtain ⟨hactivities, hdelegation, hcharges, hallowance⟩ := verifyEnvelope_accounts hverified
  have hstep := handle_accounts (hs.sameFacts (verifyEnvelope_sameFacts hverified)) happlied
  have hlist : verified.activityList = r.activityList := by
    rw [Replay.activityList, hactivities, Replay.activityList]
  refine ⟨k, hk, ?_⟩
  cases hstep with
  | kept hne hsame =>
    exact .kept hne ⟨hsame.delegation.trans hdelegation, hsame.charges.trans hcharges,
      hsame.carried.trans (by rw [hlist])⟩
  | granted hnext hreplaces hceilings hsame hcarried =>
    exact .granted hnext (hdelegation ▸ hreplaces) (hcharges ▸ hceilings) (hsame.trans hcharges)
      (hcarried.trans (by rw [hlist]))
  | stopped hcurrent hnext hsame hcarried =>
    exact .stopped (hdelegation ▸ hcurrent) hnext (hsame.trans hcharges)
      (hcarried.trans (by rw [hlist]))
  | @opened activity _ hadded hsame hopens =>
    refine .opened (hadded.trans (by rw [hlist])) (hsame.trans hdelegation) ?_
    unfold OpensCharged at hopens ⊢
    cases hreservation : activity.reservation with
    | none =>
      rw [hreservation, hallowance] at hopens
      exact ⟨hopens.1.trans hcharges, hopens.2⟩
    | some reservation =>
      rw [hreservation] at hopens
      exact ⟨hcharges ▸ hopens.charges, hdelegation ▸ hopens.current⟩

/-! ## The invariant -/

/-- The charges of a reservation of a lineage, if it is one. -/
def chargesIn (lineage : Option String) (carried : String × Option WorkDelegationReservation) :
    Option WorkDelegationAccounting :=
  carried.2.bind fun reservation =>
    if lineage = some reservation.delegation.id then some reservation.charges else none

/-- **The charges of a delegation's lineage**: those of the reservations
its activities carry, in the order they started. -/
def lineageCharges (r : Replay) : List WorkDelegationAccounting :=
  r.activityList.filterMap fun a => chargesIn (r.delegation.map (·.reference.id)) a.carried

/-- A reservation is of the current delegation or of one it replaced. -/
def OfLineage (r : Replay) (reservation : WorkDelegationReservation) : Prop :=
  ∃ d ∈ r.delegation, reservation.delegation.id = d.reference.id
    ∧ reservation.delegation.revision ≤ d.reference.revision

/-- **The books are balanced.** -/
structure BooksBalanced (r : Replay) : Prop where
  balance : r.delegatedCharges = .sum (lineageCharges r)
  lineage : ∀ a ∈ r.activityList, ∀ reservation ∈ a.reservation, OfLineage r reservation
  ceilings : ∀ d ∈ r.delegation, r.delegatedCharges ≤ d.payload.ceilings

theorem lineageCharges_eq :
    lineageCharges r = (r.activityList.map (·.carried)).filterMap
      (chargesIn (r.delegation.map (·.reference.id))) := by
  rw [List.filterMap_map]
  rfl

/-- The lineage's charges are those of one record and of what is carried. -/
theorem lineageCharges_congr
    (hid : next.delegation.map (·.reference.id) = r.delegation.map (·.reference.id))
    (hcarried : next.activityList.map (·.carried) = r.activityList.map (·.carried)) :
    lineageCharges next = lineageCharges r := by
  rw [lineageCharges_eq, lineageCharges_eq, hid, hcarried]

/-- What is carried after a step that opens nothing was carried before. -/
theorem exists_carried (hcarried : next.activityList.map (·.carried)
      = r.activityList.map (·.carried)) {a : ReplayActivity} (ha : a ∈ next.activityList) :
    ∃ b ∈ r.activityList, b.id = a.id ∧ b.reservation = a.reservation := by
  have hmem : a.carried ∈ r.activityList.map (·.carried) :=
    hcarried ▸ List.mem_map_of_mem ha
  obtain ⟨b, hb, hsame⟩ := List.mem_map.mp hmem
  exact ⟨b, hb, congrArg Prod.fst hsame, congrArg Prod.snd hsame⟩

namespace BooksBalanced

theorem initial : BooksBalanced freshReplay :=
  ⟨rfl, by simp [freshReplay, Replay.activityList], by simp [freshReplay]⟩

/-- Without a delegation nothing is carried. -/
theorem carries_nothing (h : BooksBalanced r) (hnone : r.delegation = none) {a : ReplayActivity}
    (ha : a ∈ r.activityList) : a.reservation = none := by
  cases hreservation : a.reservation with
  | none => rfl
  | some reservation =>
    obtain ⟨d, hd, -⟩ := h.lineage a ha reservation hreservation
    rw [hnone] at hd
    cases hd

/-- The same accounts are balanced. -/
theorem same (h : BooksBalanced r) (hsame : SameAccounts r next) : BooksBalanced next where
  balance := by
    rw [hsame.charges, h.balance, lineageCharges_congr (by rw [hsame.delegation]) hsame.carried]
  lineage a ha reservation hreservation := by
    obtain ⟨b, hb, -, hcarries⟩ := exists_carried hsame.carried ha
    rw [OfLineage, hsame.delegation]
    exact h.lineage b hb reservation (hcarries.trans hreservation)
  ceilings d hd := by
    rw [hsame.charges]
    exact h.ceilings d (hsame.delegation ▸ hd)

/-- **A grant that replaces another carries its charges over.** -/
theorem granted {d : ReplayDelegation} (h : BooksBalanced r) (hnext : next.delegation = some d)
    (hreplaces : ∀ previous ∈ r.delegation, Replaces d previous)
    (hceilings : r.delegatedCharges ≤ d.payload.ceilings)
    (hcharges : next.delegatedCharges = r.delegatedCharges)
    (hcarried : next.activityList.map (·.carried) = r.activityList.map (·.carried)) :
    BooksBalanced next where
  balance := by
    rw [hcharges, h.balance]
    cases hprevious : r.delegation with
    | some previous =>
      have hid := (hreplaces previous hprevious).1
      have hlineage : next.delegation.map (·.reference.id)
          = r.delegation.map (·.reference.id) := by
        rw [hnext, hprevious]
        simp [hid]
      rw [lineageCharges_congr hlineage hcarried]
    | none =>
      -- No activity of a delivery without a delegation carries a reservation.
      have hnothing : ∀ lineage, (r.activityList.map (·.carried)).filterMap (chargesIn lineage)
          = [] := by
        intro lineage
        rw [List.filterMap_eq_nil_iff, List.forall_mem_map]
        intro a ha
        rw [chargesIn, ReplayActivity.carried, h.carries_nothing hprevious ha, Option.bind_none]
      rw [lineageCharges_eq, lineageCharges_eq, hcarried, hnothing, hnothing]
  lineage a ha reservation hreservation := by
    obtain ⟨b, hb, -, hcarries⟩ := exists_carried hcarried ha
    obtain ⟨previous, hprevious, hid, hrevision⟩ :=
      h.lineage b hb reservation (hcarries.trans hreservation)
    obtain ⟨hsame, hadvances⟩ := hreplaces previous hprevious
    exact ⟨d, hnext, hid.trans hsame.symm, by omega⟩
  ceilings e he := by
    rw [hnext, Option.mem_def, Option.some.injEq] at he
    rw [hcharges, ← he]
    exact hceilings

/-- A stop changes neither what is granted nor what is charged. -/
theorem stopped {d : ReplayDelegation} (h : BooksBalanced r) (hcurrent : r.delegation = some d)
    (hnext : next.delegation = some { d with stopped := true })
    (hcharges : next.delegatedCharges = r.delegatedCharges)
    (hcarried : next.activityList.map (·.carried) = r.activityList.map (·.carried)) :
    BooksBalanced next where
  balance := by
    rw [hcharges, h.balance, lineageCharges_congr (by rw [hnext, hcurrent]; rfl) hcarried]
  lineage a ha reservation hreservation := by
    obtain ⟨b, hb, -, hcarries⟩ := exists_carried hcarried ha
    obtain ⟨e, he, hid, hrevision⟩ := h.lineage b hb reservation (hcarries.trans hreservation)
    rw [hcurrent, Option.mem_def, Option.some.injEq] at he
    subst he
    exact ⟨_, hnext, hid, hrevision⟩
  ceilings e he := by
    rw [hnext, Option.mem_def, Option.some.injEq] at he
    rw [hcharges, ← he]
    exact h.ceilings d hcurrent

/-- **An opening is charged what it carries.** -/
theorem opened {activity : ReplayActivity} (h : BooksBalanced r)
    (hadded : next.activityList = r.activityList ++ [activity])
    (hsame : next.delegation = r.delegation) (hopens : OpensCharged r next event activity) :
    BooksBalanced next := by
  have hlist : lineageCharges next = lineageCharges r
      ++ (chargesIn (r.delegation.map (·.reference.id)) activity.carried).toList := by
    rw [lineageCharges, hadded, List.filterMap_append, hsame]
    congr 1
  unfold OpensCharged at hopens
  cases hcarries : activity.reservation with
  | none =>
    rw [hcarries] at hopens
    refine ⟨?_, ?_, ?_⟩
    · rw [hopens.1, h.balance, hlist, chargesIn, ReplayActivity.carried, hcarries]
      simp
    · intro a ha reservation hreservation
      rw [hadded, List.mem_append, List.mem_singleton] at ha
      rw [OfLineage, hsame]
      rcases ha with ha | rfl
      · exact h.lineage a ha reservation hreservation
      · simp [hcarries] at hreservation
    · rw [hopens.1, hsame]
      exact h.ceilings
  | some reservation =>
    rw [hcarries] at hopens
    obtain ⟨d, hd, hreference, -, -, hceilings⟩ := hopens.current
    have hid : d.reference.id = reservation.delegation.id := by rw [hreference]; rfl
    have hrevision : d.reference.revision = reservation.delegation.revision := by
      rw [hreference]; rfl
    refine ⟨?_, ?_, ?_⟩
    · rw [hopens.charges, h.balance, hlist, chargesIn, ReplayActivity.carried, hcarries,
        Option.mem_def.mp hd]
      simp only [Option.map_some, hid, Option.bind_some, if_true, Option.toList_some]
      rw [WorkDelegationAccounting.sum_append, WorkDelegationAccounting.sum_singleton]
    · intro a ha other hother
      rw [hadded, List.mem_append, List.mem_singleton] at ha
      rw [OfLineage, hsame]
      rcases ha with ha | rfl
      · exact h.lineage a ha other hother
      · rw [hcarries, Option.mem_def, Option.some.injEq] at hother
        exact ⟨d, hd, by rw [← hother, hid], by rw [← hother, hrevision]⟩
    · intro e he
      rw [hsame, Option.mem_def.mp hd, Option.mem_def, Option.some.injEq] at he
      exact he ▸ hceilings

/-- **No step unbalances the books.** -/
theorem step {k : DeliveryEventKind} (h : BooksBalanced r) (hstep : AccountStep r event k next) :
    BooksBalanced next := by
  cases hstep with
  | kept _ hsame => exact h.same hsame
  | granted hnext hreplaces hceilings hcharges hcarried =>
    exact h.granted hnext hreplaces hceilings hcharges hcarried
  | stopped hcurrent hnext hcharges hcarried => exact h.stopped hcurrent hnext hcharges hcarried
  | opened hadded hsame hopens => exact h.opened hadded hsame hopens

/-- **The books of every replay are balanced.** -/
theorem of_reachable (h : (deliverySystem resolve).Reachable r) : BooksBalanced r := by
  refine h.invariant_of (fun s hs => hs ▸ initial) ?_
  intro s event t hs hbalanced happend
  obtain ⟨k, -, hstep⟩ := accountStep_of_append (.of_reachable hs) happend
  exact hbalanced.step hstep

end BooksBalanced

/-! ## After a stop -/

/-- **Nothing was charged to a stopped delegation since**: it is stopped
or replaced, and what its activities carry was carried at the stop. -/
structure ChargedOut (r : Replay) (d : ReplayDelegation) (s : Replay) : Prop where
  current : ∃ e ∈ s.delegation, d.reference.revision ≤ e.reference.revision
    ∧ (e.reference.revision = d.reference.revision → e.stopped = true)
  carried : ∀ a ∈ s.activityList, ∀ reservation ∈ a.reservation,
    reservation.delegation.revision ≤ d.reference.revision →
      ∃ b ∈ r.activityList, b.id = a.id ∧ b.reservation = some reservation

theorem ChargedOut.step {s t : Replay} {d : ReplayDelegation} {k : DeliveryEventKind}
    (h : ChargedOut r d s) (hstep : AccountStep s event k t) : ChargedOut r d t := by
  obtain ⟨e, he, hle, hstopped⟩ := h.current
  have hkept : t.activityList.map (·.carried) = s.activityList.map (·.carried) →
      ∀ a ∈ t.activityList, ∀ reservation ∈ a.reservation,
        reservation.delegation.revision ≤ d.reference.revision →
          ∃ b ∈ r.activityList, b.id = a.id ∧ b.reservation = some reservation := by
    intro hcarried a ha reservation hreservation hrevision
    obtain ⟨b, hb, hid, hcarries⟩ := exists_carried hcarried ha
    obtain ⟨c, hc, hcid, hcarries'⟩ := h.carried b hb reservation (hcarries.trans hreservation)
      hrevision
    exact ⟨c, hc, hcid.trans hid, hcarries'⟩
  cases hstep with
  | kept _ hsame => exact ⟨⟨e, hsame.delegation ▸ he, hle, hstopped⟩, hkept hsame.carried⟩
  | granted hnext hreplaces _ _ hcarried =>
    have hadvances := (hreplaces e he).2
    exact ⟨⟨_, hnext, by omega, by omega⟩, hkept hcarried⟩
  | stopped hcurrent hnext _ hcarried =>
    rw [hcurrent, Option.mem_def, Option.some.injEq] at he
    subst he
    exact ⟨⟨_, hnext, hle, fun _ => rfl⟩, hkept hcarried⟩
  | opened hadded hsame hopens =>
    refine ⟨⟨e, hsame ▸ he, hle, hstopped⟩, ?_⟩
    intro a ha reservation hreservation hrevision
    rw [hadded, List.mem_append, List.mem_singleton] at ha
    rcases ha with ha | rfl
    · exact h.carried a ha reservation hreservation hrevision
    · -- An opening is charged to the current delegation, which is not the stopped one.
      rw [OpensCharged, Option.mem_def.mp hreservation] at hopens
      obtain ⟨f, hf, hreference, hgoing, -, -⟩ := hopens.current
      rw [Option.mem_def.mp he, Option.mem_def, Option.some.injEq] at hf
      subst hf
      have hsame' : e.reference.revision = reservation.delegation.revision := by
        rw [hreference]; rfl
      rw [hstopped (by omega)] at hgoing
      cases hgoing

/-- **A stopped delegation is never charged again.** -/
theorem chargedOut_of_replay {rest : List ControlRecordEvent} {d : ReplayDelegation}
    {later : Replay} (hr : (deliverySystem resolve).Reachable r) (hd : r.delegation = some d)
    (hstopped : d.stopped = true) (h : replay (append resolve) r rest = .ok later) :
    ChargedOut r d later := by
  have hinitial : ChargedOut r d r :=
    ⟨⟨d, hd, Nat.le_refl _, fun _ => hstopped⟩, fun a ha reservation hreservation _ =>
      ⟨a, ha, rfl, hreservation⟩⟩
  have hboth : (deliverySystem resolve).Reachable later ∧ ChargedOut r d later := by
    refine replay_invariant (P := fun s => (deliverySystem resolve).Reachable s
      ∧ ChargedOut r d s) ?_ ⟨hr, hinitial⟩ h
    rintro s event t ⟨hs, hout⟩ happend
    obtain ⟨k, -, hstep⟩ := accountStep_of_append (.of_reachable hs) happend
    exact ⟨hs.step happend, hout.step hstep⟩
  exact hboth.2

/-! ## The accounts of a journal -/

/-- **The accounts of delegated work.** -/
structure Accounted (resolve : DeliveryRecordRevisionResolver) (r : Replay) : Prop where
  /-- What is charged is what the activities of the lineage carry. -/
  balance : r.delegatedCharges = .sum (lineageCharges r)
  /-- No activity carries a reservation of another lineage. -/
  lineage : ∀ a ∈ r.activityList, ∀ reservation ∈ a.reservation, OfLineage r reservation
  /-- No grant is overdrawn. -/
  ceilings : ∀ d ∈ r.delegation, r.delegatedCharges ≤ d.payload.ceilings
  /-- No event takes a charge back. -/
  grows : ∀ event next, append resolve r event = .ok next →
    r.delegatedCharges ≤ next.delegatedCharges
  /-- Only an opening charges. -/
  charges : ∀ event next, append resolve r event = .ok next →
    DeliveryEvents.parseKind event.eventKind ≠ some .activityStarted →
      next.delegatedCharges = r.delegatedCharges
  /-- An opening adds one activity. It is charged what it carries, under the
  current delegation, unstopped and unexpired; while an allowance is
  current, a productive one carries a reservation. -/
  opens : ∀ event next, append resolve r event = .ok next →
    DeliveryEvents.parseKind event.eventKind = some .activityStarted →
      ∃ activity, next.activityList = r.activityList ++ [activity]
        ∧ OpensCharged r next event activity
        ∧ (allowanceCurrent r → delegatedOperation activity.operation ≠ none →
          ∃ reservation, activity.reservation = some reservation)
  /-- After a stop, whatever follows in the journal, no further activity is
  charged to the stopped delegation or one before it. -/
  stopped : ∀ d ∈ r.delegation, d.stopped = true → ∀ rest later,
    replay (append resolve) r rest = .ok later →
      ∀ a ∈ later.activityList, ∀ reservation ∈ a.reservation,
        reservation.delegation.revision ≤ d.reference.revision →
          ∃ b ∈ r.activityList, b.id = a.id ∧ b.reservation = some reservation

/-- A step charges at least nothing. -/
theorem AccountStep.grows {k : DeliveryEventKind} (h : AccountStep r event k next) :
    r.delegatedCharges ≤ next.delegatedCharges := by
  cases h with
  | kept _ hsame => rw [hsame.charges]; exact WorkDelegationAccounting.le_refl
  | granted _ _ _ hcharges => rw [hcharges]; exact WorkDelegationAccounting.le_refl
  | stopped _ _ hcharges => rw [hcharges]; exact WorkDelegationAccounting.le_refl
  | @opened activity _ _ _ hopens =>
    unfold OpensCharged at hopens
    cases hcarries : activity.reservation with
    | none =>
      rw [hcarries] at hopens
      rw [hopens.1]
      exact WorkDelegationAccounting.le_refl
    | some reservation =>
      rw [hcarries] at hopens
      rw [hopens.charges]
      exact WorkDelegationAccounting.le_add

namespace Sample

/-- A grant of two integrations under the admitted boundary. -/
def grant : WorkDelegationPayload where
  boundary := ⟨"work-boundary", boundary.recordId, boundary.revision, boundary.digest⟩
  admission := ⟨"director-decision", admission.recordId, admission.revision, admission.digest⟩
  replaces := none
  allowedOperations := [.integrate]
  directionContinue := none
  directionEvaluate := none
  builder := none
  reviewer := none
  ceilings := ⟨2, 0, 0⟩
  expiresAt := none

/-- Its members, as they are retained. -/
def grantMembers : JsonObject :=
  match payloadJson grant with
  | .object members => members
  | _ => []

def delegation : ControlRecordRevision :=
  revisionOf "work-delegation" "delegation-1" 1 grantMembers
    [link "uses-admission" admission, link "uses-boundary" boundary]
    "sha256:3294c0d53804a8221dcebea8fb87f5037cf7f89871ed5be6932c7305f8ae0fa6"

/-- Integrations are delegated. -/
def delegated : List RehearsalEntry := admitted ++ [
  .texts "event-18" .workDelegationSet (some (subjectTo delegation)) []]

end Sample
