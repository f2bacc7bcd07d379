import Lifecycle.ReservationReadings

/-!
# What was read is read back

A value a reader of work delegation returned is written with the reader's own
members, and the reader returns it again: the readers accept what they write.
Grants and reservations are stored as JSON and read in every assessment of an
allowance, so an assessment of what was once read never fails on its form.
-/

open Fallible Json ControlModel WorkDelegation
open Comparison (mem_sortWith pairwise_sortWith perm_sortWith)

/-! ## Texts and numbers -/

theorem value_of_identifier {v : Option Json} {s : String} (h : identifier v = .ok s) :
    v = some (.string s) := by
  unfold identifier at h
  split at h
  · simp only [controlIdentifier, bind_eq_ok, failIf_eq_ok, exists_unit, pure_eq_ok] at h
    obtain ⟨-, -, rfl⟩ := h
    rfl
  · cases h

theorem value_of_opaqueIdentity {v : Option Json} {s : String} (h : opaqueIdentity v = .ok s) :
    v = some (.string s) := by
  simp only [opaqueIdentity, bind_eq_ok, failIf_eq_ok, exists_unit, pure_eq_ok] at h
  obtain ⟨_, hread, -, rfl⟩ := h
  exact value_of_identifier hread

theorem value_of_digest {v : Option Json} {d : String} (h : WorkDelegation.digest v = .ok d) :
    v = some (.string d) := by
  unfold WorkDelegation.digest at h
  split at h
  · simp only [bind_eq_ok, failIf_eq_ok, exists_unit, pure_eq_ok] at h
    obtain ⟨-, rfl⟩ := h
    rfl
  · cases h

theorem value_of_integer {v : Option Json} {n minimum maximum : Nat}
    (h : WorkDelegation.integer v minimum maximum = .ok n) : v = some (nat n) := by
  unfold WorkDelegation.integer at h
  split at h
  · next k =>
    simp only [bind_eq_ok, failIf_eq_ok, exists_unit, pure_eq_ok, not_or, not_lt] at h
    obtain ⟨⟨hminimum, -⟩, rfl⟩ := h
    rw [nat, Int.toNat_of_nonneg (by omega)]
  · cases h

theorem value_of_time {v : Option Json} {t : String} (h : WorkDelegation.time v = .ok t) :
    v = some (.string t) := by
  unfold WorkDelegation.time at h
  split at h
  · obtain ⟨rfl, -⟩ := controlTimestamp_eq_ok_iff.mp h
    rfl
  · cases h

/-- **A reader that returns what it wrote**: of a value, and of the JSON of the
value it returned. -/
def ReadsBack {α : Type} (read : Option Json → Except FoundationError α) (json : α → Json) : Prop :=
  ∀ v a, read v = .ok a → read (some (json a)) = .ok a

/-- A reader of one kind of value reads it back. -/
theorem ReadsBack.of_value {α : Type} {read : Option Json → Except FoundationError α}
    {json : α → Json} (h : ∀ v a, read v = .ok a → v = some (json a)) : ReadsBack read json := by
  intro v a hread
  rw [← h v a hread, hread]

theorem readsBack_identifier : ReadsBack identifier .string :=
  .of_value fun _ _ => value_of_identifier

theorem readsBack_opaqueIdentity : ReadsBack opaqueIdentity .string :=
  .of_value fun _ _ => value_of_opaqueIdentity

theorem readsBack_digest : ReadsBack WorkDelegation.digest .string :=
  .of_value fun _ _ => value_of_digest

theorem readsBack_integer (minimum maximum : Nat) :
    ReadsBack (WorkDelegation.integer · minimum maximum) nat :=
  .of_value fun _ _ => value_of_integer

theorem readsBack_time : ReadsBack WorkDelegation.time .string :=
  .of_value fun _ _ => value_of_time

/-- A value that may be missing is read back when it is one that is not. -/
theorem ReadsBack.nullable {α : Type} {read : Option Json → Except FoundationError α}
    {json : α → Json} (h : ReadsBack read json) (hjson : ∀ a, json a ≠ .null) :
    ReadsBack (fun v => WorkDelegation.nullable v read) (orNull json) := by
  intro v o hread
  replace hread : WorkDelegation.nullable v read = .ok o := hread
  unfold WorkDelegation.nullable at hread
  split at hread
  · rw [Except.ok.injEq] at hread
    rw [← hread]
    rfl
  · simp only [bind_eq_ok, pure_eq_ok] at hread
    obtain ⟨a, ha, rfl⟩ := hread
    have hagain := h _ a ha
    show WorkDelegation.nullable (some (json a)) read = .ok (some a)
    unfold WorkDelegation.nullable
    split
    · next heq => exact absurd (Option.some.inj heq) (hjson a)
    · rw [hagain]
      rfl

/-! ## Components -/

theorem readsBack_exactReference (kind : String) :
    ReadsBack (exactReference kind) referenceJson := by
  intro v r h
  simp only [exactReference, bind_eq_ok, failIf_eq_ok, exists_unit, pure_eq_ok] at h
  obtain ⟨_, -, -, id, hid, revision, hrevision, digest, hdigest, rfl⟩ := h
  simp only [exactReference, referenceJson, bind_eq_ok, failIf_eq_ok, exists_unit, pure_eq_ok]
  exact ⟨_, rfl, not_not.mpr rfl, id, readsBack_identifier _ _ hid, revision,
    readsBack_integer _ _ _ _ hrevision, digest, readsBack_digest _ _ hdigest, rfl⟩

theorem readsBack_resourceReference : ReadsBack resourceReference resourceJson := by
  intro v r h
  simp only [resourceReference, bind_eq_ok, pure_eq_ok] at h
  obtain ⟨_, -, id, hid, digest, hdigest, rfl⟩ := h
  simp only [resourceReference, resourceJson, bind_eq_ok, pure_eq_ok]
  exact ⟨_, rfl, id, readsBack_identifier _ _ hid, digest, readsBack_digest _ _ hdigest, rfl⟩

theorem readsBack_backend : ReadsBack backend backendJson := by
  intro v b h
  simp only [backend, bind_eq_ok, orFail_eq_ok, failIf_eq_ok, exists_unit, pure_eq_ok] at h
  obtain ⟨_, -, profileId, -, hprofileId, profile, hprofile, implementation, himplementation,
    rfl⟩ := h
  simp only [backend, backendJson, bind_eq_ok, orFail_eq_ok, failIf_eq_ok, exists_unit, pure_eq_ok]
  exact ⟨_, rfl, profileId, rfl, hprofileId, profile, readsBack_digest _ _ hprofile,
    implementation, readsBack_digest _ _ himplementation, rfl⟩

theorem readsBack_image : ReadsBack WorkDelegation.image imageJson := by
  intro v i h
  simp only [WorkDelegation.image, bind_eq_ok, pure_eq_ok] at h
  obtain ⟨_, -, id, hid, digest, hdigest, rfl⟩ := h
  simp only [WorkDelegation.image, imageJson, bind_eq_ok, pure_eq_ok]
  exact ⟨_, rfl, id, readsBack_identifier _ _ hid, digest, readsBack_digest _ _ hdigest, rfl⟩

theorem readsBack_agentLimits : ReadsBack agentLimits agentLimitsJson := by
  have hlimit : ReadsBack (fun v => nullable v (WorkDelegation.integer · 1 maxSafeInteger))
      (orNull nat) := (readsBack_integer 1 maxSafeInteger).nullable (by simp [nat])
  intro v l h
  simp only [agentLimits, bind_eq_ok, pure_eq_ok] at h
  obtain ⟨_, -, tokens, htokens, events, hevents, outputBytes, houtput, toolCalls, htools,
    processes, hprocesses, storageBytes, hstorage, rfl⟩ := h
  simp only [agentLimits, agentLimitsJson, bind_eq_ok, pure_eq_ok]
  exact ⟨_, rfl, tokens, hlimit _ _ htokens, events, hlimit _ _ hevents, outputBytes,
    hlimit _ _ houtput, toolCalls, hlimit _ _ htools, processes, hlimit _ _ hprocesses,
    storageBytes, hlimit _ _ hstorage, rfl⟩

theorem readsBack_agentSelection : ReadsBack agentSelection agentSelectionJson := by
  intro v s h
  simp only [agentSelection, bind_eq_ok, pure_eq_ok] at h
  obtain ⟨_, -, provider, hprovider, profile, hprofile, image, himage, model, hmodel, reasoning,
    hreasoning, wallTimeMs, hwall, limits, hlimits, rfl⟩ := h
  simp only [agentSelection, agentSelectionJson, bind_eq_ok, pure_eq_ok]
  exact ⟨_, rfl, provider, readsBack_resourceReference _ _ hprovider, profile,
    readsBack_backend _ _ hprofile, image, readsBack_image _ _ himage, model,
    readsBack_opaqueIdentity _ _ hmodel, reasoning, readsBack_opaqueIdentity _ _ hreasoning,
    wallTimeMs, readsBack_integer _ _ _ _ hwall, limits, readsBack_agentLimits _ _ hlimits, rfl⟩

theorem readsBack_executionLimits : ReadsBack executionLimits executionLimitsJson := by
  intro v l h
  simp only [executionLimits, bind_eq_ok, pure_eq_ok] at h
  obtain ⟨_, -, wall, hwall, processes, hprocesses, storage, hstorage, entries, hentries, bytes,
    hbytes, entryBytes, hentryBytes, events, hevents, rfl⟩ := h
  simp only [executionLimits, executionLimitsJson, bind_eq_ok, pure_eq_ok]
  exact ⟨_, rfl, wall, readsBack_integer _ _ _ _ hwall, processes,
    readsBack_integer _ _ _ _ hprocesses, storage, readsBack_integer _ _ _ _ hstorage, entries,
    readsBack_integer _ _ _ _ hentries, bytes, readsBack_integer _ _ _ _ hbytes, entryBytes,
    readsBack_integer _ _ _ _ hentryBytes, events, readsBack_integer _ _ _ _ hevents, rfl⟩

theorem readsBack_accounting : ReadsBack parseWorkDelegationAccounting accountingJson := by
  intro v a h
  simp only [parseWorkDelegationAccounting, bind_eq_ok, pure_eq_ok] at h
  obtain ⟨_, -, operations, hoperations, attempts, hattempts, cells, hcells, rfl⟩ := h
  simp only [parseWorkDelegationAccounting, accountingJson, bind_eq_ok, pure_eq_ok]
  exact ⟨_, rfl, operations, readsBack_integer _ _ _ _ hoperations, attempts,
    readsBack_integer _ _ _ _ hattempts, cells, readsBack_integer _ _ _ _ hcells, rfl⟩

/-! ## Slots -/

/-- **A slot is read back.** -/
theorem executionSlot_slotJson {value : Json} {slot : WorkDelegationExecutionSlot}
    (h : executionSlot value = .ok slot) : executionSlot (slotJson slot) = .ok slot := by
  unfold executionSlot at h
  split at h
  · split at h
    · rw [bind_eq_ok] at h
      obtain ⟨_, -, h⟩ := h
      have hagent : ∃ id role selection, slot = .agent id role selection
          ∧ identifier (some (.string id)) = .ok id
          ∧ agentSelection (some (agentSelectionJson selection)) = .ok selection := by
        split at h <;> simp only [ok_bind, error_bind, reduceCtorEq, bind_eq_ok, pure_eq_ok] at h
        all_goals
          obtain ⟨id, hid, selection, hselection, rfl⟩ := h
          exact ⟨id, _, selection, rfl, readsBack_identifier _ _ hid,
            readsBack_agentSelection _ _ hselection⟩
      obtain ⟨id, role, selection, rfl, hid, hselection⟩ := hagent
      exact executionSlot_agent.mpr ⟨id, hid, selection, hselection, rfl⟩
    · simp only [bind_eq_ok, failIf_eq_ok, exists_unit, pure_eq_ok] at h
      obtain ⟨_, -, -, wall, hwall, limits, hlimits, hsame, _, -, definitionId, hdefinitionId,
        hknowledge, hcheck, id, hid, selectionId, hselection, revision, hrevision, sourceDigest,
        hsource, semanticDigest, hsemantic, binding, hbinding, profile, hprofile, image, himage,
        rfl⟩ := h
      rw [slotJson, executionSlot, if_neg (by rw [show asString _ = some "check" from rfl]; decide)]
      simp only [bind_eq_ok, failIf_eq_ok, exists_unit, pure_eq_ok]
      refine ⟨_, rfl, ?_, wall, readsBack_integer _ _ _ _ hwall, limits,
        readsBack_executionLimits _ _ hlimits, hsame, _, rfl, definitionId,
        readsBack_opaqueIdentity _ _ hdefinitionId, hknowledge, hcheck, id,
        readsBack_identifier _ _ hid, selectionId, readsBack_identifier _ _ hselection, revision,
        readsBack_integer _ _ _ _ hrevision, sourceDigest, readsBack_digest _ _ hsource,
        semanticDigest, readsBack_digest _ _ hsemantic, binding,
        readsBack_resourceReference _ _ hbinding, profile, readsBack_backend _ _ hprofile, image,
        readsBack_image _ _ himage, rfl⟩
      rintro (h | h) <;> exact h rfl
  · cases h

theorem mapM_executionSlot_slotJson {values : List Json} {slots : List WorkDelegationExecutionSlot}
    (h : values.mapM executionSlot = .ok slots) :
    (slots.map slotJson).mapM executionSlot = .ok slots := by
  rw [mapM_eq_ok_iff] at h ⊢
  rw [List.forall₂_map_left_iff, List.forall₂_same]
  intro slot hslot
  obtain ⟨value, -, hread⟩ := exists_of_forall₂ h hslot
  exact executionSlot_slotJson hread

/-! ## Reservations -/

/-- **Parts a reservation can be compiled of.** -/
structure PartsFit (p : ReservationParts) : Prop where
  reservationId : identifier (some (.string p.reservationId)) = .ok p.reservationId
  delegation : exactReference "work-delegation" (some (referenceJson p.delegation))
    = .ok p.delegation
  activityId : identifier (some (.string p.activityId)) = .ok p.activityId
  sequence : 1 ≤ p.headSequence ∧ p.headSequence ≤ maxSafeInteger
  head : isSha256 p.headDigest = true
  basis : isSha256 p.basisDigest = true
  reason : p.reason ∈ decisionReasons p.operation
  bounded : p.slots.length ≤ maximumSlots
  read : (p.slots.map slotJson).mapM executionSlot = .ok p.slots
  ordered : slotsOrdered p.slots = true
  distinct : (checkSelections p.slots).Nodup
  fits : slotsFitOperation p.operation p.slots = true

theorem digest_eq_ok_iff {d e : String} :
    WorkDelegation.digest (some (.string d)) = .ok e ↔ isSha256 d = true ∧ d = e := by
  simp only [WorkDelegation.digest, bind_eq_ok, failIf_eq_ok, exists_unit, pure_eq_ok,
    Bool.not_eq_false]

theorem integer_nat_iff {n m minimum maximum : Nat} :
    WorkDelegation.integer (some (nat n)) minimum maximum = .ok m
      ↔ (minimum ≤ n ∧ n ≤ maximum) ∧ n = m := by
  simp only [WorkDelegation.integer, nat, bind_eq_ok, failIf_eq_ok, exists_unit, pure_eq_ok,
    not_or, not_lt, Int.ofNat_le, Int.toNat_natCast]

/-- **What is compiled fits.** -/
theorem partsFit_of_ok {value : JsonObject} {p : ReservationParts}
    (h : WorkDelegation.reservationParts value = .ok p) : PartsFit p := by
  simp only [WorkDelegation.reservationParts, bind_eq_ok, orFail_eq_ok, failIf_eq_ok, exists_unit,
    pure_eq_ok, not_not, not_lt, Bool.not_eq_false] at h
  obtain ⟨_, -, -, operation, -, _, -, _, -, reason, -, hreason, items, -, hbound, slots, hslots,
    hordered, hdistinct, hfits, reservationId, hid, delegation, hdelegation, activityId, hactivity,
    sequence, hsequence, head, hhead, basis, hbasis, rfl⟩ := h
  have hlength := (mapM_eq_ok_iff.mp hslots).length_eq
  exact ⟨readsBack_identifier _ _ hid, readsBack_exactReference _ _ _ hdelegation,
    readsBack_identifier _ _ hactivity,
    (integer_nat_iff.mp (readsBack_integer _ _ _ _ hsequence)).1,
    (digest_eq_ok_iff.mp (readsBack_digest _ _ hhead)).1,
    (digest_eq_ok_iff.mp (readsBack_digest _ _ hbasis)).1, hreason, hlength ▸ hbound,
    mapM_executionSlot_slotJson hslots, hordered, hdistinct, hfits⟩

/-- **What fits is read back**, of its own members. -/
theorem reservationParts_partsMembers {p : ReservationParts} (h : PartsFit p) :
    WorkDelegation.reservationParts (partsMembers p) = .ok p := by
  simp only [WorkDelegation.reservationParts, bind_eq_ok, orFail_eq_ok, failIf_eq_ok, exists_unit,
    pure_eq_ok, not_not, not_lt, Bool.not_eq_false]
  refine ⟨_, rfl, rfl, p.operation, parseOperation_operationText _, _, rfl, _, rfl, p.reason, rfl,
    h.reason, p.slots.map slotJson, rfl, ?_, p.slots, h.read, h.ordered, h.distinct, h.fits,
    p.reservationId, h.reservationId, p.delegation, h.delegation, p.activityId, h.activityId,
    p.headSequence, integer_nat_iff.mpr ⟨h.sequence, rfl⟩, p.headDigest,
    digest_eq_ok_iff.mpr ⟨h.head, rfl⟩, p.basisDigest, digest_eq_ok_iff.mpr ⟨h.basis, rfl⟩, rfl⟩
  rw [List.length_map]
  exact h.bounded

/-- A reading of accounts has a digest. -/
theorem exists_accountingDigest {v : Option Json} {a : WorkDelegationAccounting}
    (h : parseWorkDelegationAccounting v = .ok a) : ∃ d, digestCanonical (accountingJson a) = .ok d := by
  simp only [parseWorkDelegationAccounting, bind_eq_ok, pure_eq_ok] at h
  obtain ⟨_, -, operations, hoperations, attempts, hattempts, cells, hcells, rfl⟩ := h
  have hbound := fun {w n} (h : WorkDelegation.integer w 0 maxSafeInteger = .ok n) =>
    (integer_nat_iff.mp (readsBack_integer _ _ w n h)).1.2
  have hcanonical : Canonicalizable (accountingJson ⟨operations, attempts, cells⟩) := by
    refine canonicalizable_object fun m hm => ?_
    simp only [List.mem_cons, List.not_mem_nil, or_false] at hm
    rcases hm with rfl | rfl | rfl
    · exact canonicalizable_nat (hbound hoperations)
    · exact canonicalizable_nat (hbound hattempts)
    · exact canonicalizable_nat (hbound hcells)
  obtain ⟨text, htext⟩ := hcanonical
  exact ⟨sha256Bytes text, by rw [digestCanonical, htext]; rfl⟩

/-- What a reservation charges can be read. -/
theorem reservationCharges_readable {slots : List WorkDelegationExecutionSlot}
    {charges : WorkDelegationAccounting} (h : reservationCharges slots = .ok charges) :
    parseWorkDelegationAccounting (some (accountingJson charges)) = .ok charges := by
  have hfold : ∀ {slots : List WorkDelegationExecutionSlot} {start charges},
      parseWorkDelegationAccounting (some (accountingJson start)) = .ok start →
      slots.foldlM (fun charges slot => addWorkDelegationAccounting charges (slotCharges slot)) start
        = .ok charges →
      parseWorkDelegationAccounting (some (accountingJson charges)) = .ok charges := by
    intro slots
    induction slots with
    | nil =>
      intro start charges hstart h
      rw [List.foldlM_nil, pure_eq_ok] at h
      exact h ▸ hstart
    | cons slot slots ih =>
      intro start charges _ h
      rw [List.foldlM_cons, bind_eq_ok] at h
      obtain ⟨next, hnext, h⟩ := h
      simp only [addWorkDelegationAccounting, bind_eq_ok] at hnext
      obtain ⟨_, -, _, -, hnext⟩ := hnext
      exact ih (readsBack_accounting _ _ hnext) h
  exact hfold rfl h

/-- **What is compiled is read back**, and nothing else is ever read. -/
theorem parseWorkDelegationReservation_iff {r : WorkDelegationReservation} :
    parseWorkDelegationReservation (reservationJson r) = .ok r
      ↔ ∃ value, compileWorkDelegationReservation value = .ok r := by
  constructor
  · intro h
    simp only [parseWorkDelegationReservation, bind_eq_ok, failIf_eq_ok, exists_unit,
      pure_eq_ok] at h
    obtain ⟨_, -, compiled, hcompiled, _, -, _, -, _, -, -, rfl⟩ := h
    exact ⟨_, hcompiled⟩
  · rintro ⟨value, hcompiled⟩
    obtain ⟨hparts, hcharges⟩ := compileWorkDelegationReservation_charges hcompiled
    have hbounded : checkOpeningBound r = .ok () := by
      simp only [compileWorkDelegationReservation, bind_eq_ok, exists_unit, pure_eq_ok] at hcompiled
      obtain ⟨_, -, _, -, hbounded, rfl⟩ := hcompiled
      exact hbounded
    have hread := reservationParts_partsMembers (partsFit_of_ok hparts)
    have hagain : compileWorkDelegationReservation (partsMembers r.toReservationParts) = .ok r := by
      simp only [compileWorkDelegationReservation, bind_eq_ok, exists_unit, pure_eq_ok]
      exact ⟨_, hread, _, hcharges, hbounded, rfl⟩
    have hreadable := reservationCharges_readable hcharges
    obtain ⟨digest, hdigest⟩ := exists_accountingDigest hreadable
    simp only [parseWorkDelegationReservation, bind_eq_ok, failIf_eq_ok, exists_unit, pure_eq_ok]
    refine ⟨partsMembers r.toReservationParts ++ [("charges", accountingJson r.charges)], rfl, r, ?_,
      r.charges, hreadable, digest, hdigest, digest, hdigest, not_not.mpr rfl, rfl⟩
    rw [filter_reservationJson]
    exact hagain

/-! ## Grants -/

/-- Operations in their order are read back. -/
theorem parseAllowedOperations_texts : ∀ {values : List Json}
    {previous : Option WorkDelegationOperation} {operations : List WorkDelegationOperation},
    parseAllowedOperations previous values = .ok operations →
    parseAllowedOperations previous (operations.map fun o => .string (operationText o))
      = .ok operations ∧ operations.length = values.length
  | [], _, _, h => by
    rw [parseAllowedOperations, Except.ok.injEq] at h
    subst h
    exact ⟨rfl, rfl⟩
  | value :: values, previous, _, h => by
    simp only [parseAllowedOperations, bind_eq_ok, orFail_eq_ok, failIf_eq_ok, exists_unit,
      pure_eq_ok] at h
    obtain ⟨text, -, operation, hoperation, horder, rest, hrest, rfl⟩ := h
    obtain ⟨hagain, hlength⟩ := parseAllowedOperations_texts hrest
    have htext : operationText operation = text := by
      have hfound := List.find?_some hoperation
      rwa [decide_eq_true_eq] at hfound
    simp only [List.map_cons, parseAllowedOperations, bind_eq_ok, orFail_eq_ok, failIf_eq_ok,
      exists_unit, pure_eq_ok, List.length_cons, hlength, and_true]
    exact ⟨operationText operation, rfl, operation, parseOperation_operationText _,
      htext ▸ horder, rest, hagain, rfl⟩

theorem orNull_string (o : Option String) : orNull Json.string o = textOrNull o := by
  cases o <;> rfl

/-- **A grant that was read is read back.** -/
theorem parseWorkDelegationPayload_payloadJson {value : Json} {p : WorkDelegationPayload}
    (h : parseWorkDelegationPayload value = .ok p) :
    parseWorkDelegationPayload (payloadJson p) = .ok p := by
  have hreference : ∀ r, referenceJson r ≠ .null := by simp [referenceJson]
  have hselection : ∀ s, agentSelectionJson s ≠ .null := by simp [agentSelectionJson]
  simp only [parseWorkDelegationPayload, bind_eq_ok, failIf_eq_ok, exists_unit, pure_eq_ok,
    not_or, not_lt] at h
  obtain ⟨_, -, -, _, -, -, items, -, hcount, operations, hoperations, _, -, _, -, hpresent,
    ceilings, hceilings, hallowance, boundary, hboundary, admission, hadmission, replaces,
    hreplaces, continued, hcontinued, evaluated, hevaluated, builder, hbuilder, reviewer,
    hreviewer, expiresAt, hexpires, rfl⟩ := h
  rw [isSome_of_isPresent hcontinued, isSome_of_isPresent hevaluated,
    isSome_of_isPresent hbuilder, isSome_of_isPresent hreviewer] at hpresent
  obtain ⟨hagain, hlength⟩ := parseAllowedOperations_texts hoperations
  have hnullable := fun {kind v o} (h : nullable v (exactReference kind) = .ok o) =>
    (readsBack_exactReference kind).nullable hreference v o h
  have hagents := fun {v o} (h : nullable v agentSelection = .ok o) =>
    readsBack_agentSelection.nullable hselection v o h
  have htime := readsBack_time.nullable (by simp) _ _ hexpires
  rw [orNull_string] at htime
  simp only [parseWorkDelegationPayload, payloadJson, bind_eq_ok, failIf_eq_ok, exists_unit,
    pure_eq_ok, not_or, not_lt]
  refine ⟨_, rfl, ⟨not_not.mpr rfl, not_not.mpr rfl⟩, _, rfl, ⟨not_not.mpr rfl, not_not.mpr rfl⟩,
    _, rfl, ?_, operations, hagain, [("continue", orNull referenceJson continued),
      ("evaluate", orNull referenceJson evaluated)], rfl,
    [("builder", orNull agentSelectionJson builder),
      ("reviewer", orNull agentSelectionJson reviewer)], rfl, ?_, ceilings,
    readsBack_accounting _ _ hceilings, hallowance, boundary,
    readsBack_exactReference _ _ _ hboundary, admission, readsBack_exactReference _ _ _ hadmission,
    replaces, hnullable hreplaces, continued, hnullable hcontinued, evaluated,
    hnullable hevaluated, builder, hagents hbuilder, reviewer, hagents hreviewer, expiresAt, htime,
    rfl⟩
  · rw [List.length_map, hlength]
    exact hcount
  · -- A member is present when something was written.
    cases continued <;> cases evaluated <;> cases builder <;> cases reviewer <;> exact hpresent

/-! ## Bounds -/

namespace Json

mutual
/-- **A value of safe numbers**, its objects in any order. -/
def Numbered : Json → Prop
  | .number (.integer n) => n.natAbs ≤ maxSafeInteger
  | .number _ => False
  | .array items => NumberedItems items
  | .object members => NumberedMembers members
  | _ => True

def NumberedItems : List Json → Prop
  | [] => True
  | item :: items => Numbered item ∧ NumberedItems items

def NumberedMembers : List (String × Json) → Prop
  | [] => True
  | (_, value) :: members => Numbered value ∧ NumberedMembers members
end

mutual
/-- **A value of safe numbers is plain in canonical order.** -/
theorem plain_canonicalOrder : ∀ {v : Json}, v.Numbered → (canonicalOrder v).Plain
  | .null, _ | .bool _, _ | .string _, _ => trivial
  | .number (.integer _), h => h
  | .number (.fraction _), h => absurd h (by simp [Numbered])
  | .number (.nonFinite _), h => absurd h (by simp [Numbered])
  | .array _, h => plain_canonicalOrderItems h
  | .object members, h => by
    rw [canonicalOrder_object]
    refine ⟨plainMembers_iff.mpr fun m hm => ?_, ?_⟩
    · exact plainMembers_iff.mp (plain_canonicalOrderMembers h) m (mem_sortWith.mp hm)
    · exact List.pairwise_map.mpr (pairwise_sortWith comparison_byName _)

theorem plain_canonicalOrderItems : ∀ {items : List Json}, NumberedItems items →
    PlainItems (canonicalOrderItems items)
  | [], _ => trivial
  | _ :: _, h => ⟨plain_canonicalOrder h.1, plain_canonicalOrderItems h.2⟩

theorem plain_canonicalOrderMembers : ∀ {members : List (String × Json)}, NumberedMembers members →
    PlainMembers (canonicalOrderMembers members)
  | [], _ => trivial
  | _ :: _, h => ⟨plain_canonicalOrder h.1, plain_canonicalOrderMembers h.2⟩
end

theorem weightMembers_eq (members : List (String × Json)) : weightMembers members
    = (members.map fun m => 6 * byteLength m.1 + 4 + weight m.2).sum := by
  induction members with
  | nil => rfl
  | cons m members ih => rw [weightMembers, ih, List.map_cons, List.sum_cons]

mutual
/-- The order weighs nothing. -/
theorem weight_canonicalOrder : ∀ v : Json, weight (canonicalOrder v) = weight v
  | .null | .bool _ | .number _ | .string _ => rfl
  | .array items => by
    rw [canonicalOrder, weight, weight, weightItems_canonicalOrder items]
  | .object members => by
    have hperm := perm_sortWith byName (canonicalOrderMembers members)
    rw [canonicalOrder_object, weight, weight, ← weightMembers_canonicalOrder members,
      weightMembers_eq, weightMembers_eq, (hperm.map _).sum_nat]

theorem weightItems_canonicalOrder : ∀ items : List Json,
    weightItems (canonicalOrderItems items) = weightItems items
  | [] => rfl
  | item :: items => by
    rw [canonicalOrderItems, weightItems, weightItems, weight_canonicalOrder item,
      weightItems_canonicalOrder items]

theorem weightMembers_canonicalOrder : ∀ members : List (String × Json),
    weightMembers (canonicalOrderMembers members) = weightMembers members
  | [] => rfl
  | (_, value) :: members => by
    rw [canonicalOrderMembers, weightMembers, weightMembers, weight_canonicalOrder value,
      weightMembers_canonicalOrder members]
end

/-- **A value of safe numbers has a text**, no longer than it weighs. -/
theorem exists_text_of_numbered {v : Json} (h : v.Numbered) :
    ∃ t, canonicalJson v = .ok t ∧ t.length ≤ weight v := by
  obtain ⟨t, ht, hlength⟩ := exists_text_of_plain (plain_canonicalOrder h)
  rw [canonicalJson, canonicalize_canonicalOrder] at ht
  exact ⟨t, ht, hlength.trans_eq (weight_canonicalOrder v)⟩

end Json

/-- **A light object of safe numbers is within every bound**, in any order. -/
theorem boundedControlJson_of_numbered {value : JsonObject} (hnumbered : (Json.object value).Numbered)
    (hlight : weight (.object value) ≤ 16384) (hshallow : height (.object value) ≤ 16)
    (label : String) {maximum : Nat} (hmaximum : 16384 ≤ maximum) :
    ∃ text, boundedControlJson value label maximum = .ok text := by
  obtain ⟨text, htext, hlength⟩ := exists_text_of_numbered hnumbered
  have hweight : pendingWeight [(.object value, 1)] = weight (.object value) := by
    simp [pendingWeight]
  have hwalk : boundsWalk label maximum maximumJsonValues [(.object value, 1)] = .ok () := by
    have hvalues : maximumJsonValues = 262144 := rfl
    have hmany : maximumJsonMembers = 16384 := rfl
    have hdeep : maximumJsonDepth = 64 := rfl
    refine boundsWalk_of_light hmaximum _ _ ?_ (by omega) (by omega)
    simp only [List.mem_singleton, forall_eq]
    omega
  refine ⟨text, ?_⟩
  rw [boundedControlJson, hwalk, ok_bind, htext]
  simp only [bind_eq_ok, failIf_eq_ok, exists_unit, pure_eq_ok]
  exact ⟨by omega, trivial⟩

/-- The payload of a delegated opening. -/
def openingMembers (r : WorkDelegationReservation) : JsonObject := [
  ("activityId", .string r.activityId), ("operation", .string (operationText r.operation)),
  ("reservation", reservationJson r)]

/-- **What fits is compiled**, when its opening is light. -/
theorem compileWorkDelegationReservation_of_fit {p : ReservationParts}
    {charges : WorkDelegationAccounting} (h : PartsFit p)
    (hcharges : reservationCharges p.slots = .ok charges)
    (hnumbered : (Json.object (openingMembers ⟨p, charges⟩)).Numbered)
    (hlight : weight (.object (openingMembers ⟨p, charges⟩)) ≤ 16384)
    (hshallow : height (.object (openingMembers ⟨p, charges⟩)) ≤ 16) :
    compileWorkDelegationReservation (partsMembers p) = .ok ⟨p, charges⟩ := by
  have hmaximum : 16384 ≤ maximumEventPayloadBytes := by decide
  obtain ⟨text, htext⟩ := boundedControlJson_of_numbered hnumbered hlight hshallow
    "Delegated Activity opening" hmaximum
  have hopening : canonicalControlEventJsonObject (openingMembers ⟨p, charges⟩)
      "Delegated Activity opening" = .ok text := htext
  have hbounded : checkOpeningBound ⟨p, charges⟩ = .ok () := by
    unfold checkOpeningBound
    rw [openingMembers] at hopening
    rw [hopening]
  simp only [compileWorkDelegationReservation, bind_eq_ok, exists_unit, pure_eq_ok]
  exact ⟨p, reservationParts_partsMembers h, charges, hcharges, hbounded, rfl⟩
