import Lifecycle.DelegationAccounting
import Lifecycle.WrittenValues

/-!
# Reading a reservation back

A compiled reservation is written into the payload of its opening and read
again there, and once more when its allowance is assessed. What is read is what
was written: component by component (`agentSelection_json`,
`executionSlot_json`), then for the reservation as a whole
(`parseWorkDelegationReservation_reservationJson`).
-/

open Fallible Json ControlModel WorkDelegation

/-! ## Components -/

theorem identifier_string {s t : String} (h : identifier (some (.string s)) = .ok t) : t = s := by
  simp only [identifier, controlIdentifier, bind_eq_ok, failIf_eq_ok, exists_unit, pure_eq_ok] at h
  exact h.2.2.symm

theorem opaqueIdentity_string {s t : String} (h : opaqueIdentity (some (.string s)) = .ok t) :
    t = s := by
  simp only [opaqueIdentity, bind_eq_ok, failIf_eq_ok, exists_unit, pure_eq_ok] at h
  obtain ⟨selected, hselected, -, rfl⟩ := h
  exact identifier_string hselected

theorem digest_string {s d : String} (h : WorkDelegation.digest (some (.string s)) = .ok d) :
    d = s := by
  simp only [WorkDelegation.digest, bind_eq_ok, failIf_eq_ok, exists_unit, pure_eq_ok] at h
  exact h.2.symm

theorem nullable_orNull {α : Type} {json : α → Json} {read : Option Json → Except FoundationError α}
    (hjson : ∀ a, json a ≠ .null) (hread : ∀ a b, read (some (json a)) = .ok b → b = a)
    {o p : Option α} (h : nullable (some (orNull json o)) read = .ok p) : p = o := by
  cases o with
  | none =>
    rw [orNull, nullable, Except.ok.injEq] at h
    exact h.symm
  | some a =>
    have hsome : nullable (some (json a)) read = (read (some (json a)) >>= fun b => pure (some b)) := by
      unfold nullable
      split
      · next heq => exact absurd (Option.some.inj heq) (hjson a)
      · rfl
    rw [orNull, hsome, bind_eq_ok] at h
    obtain ⟨b, hb, hp⟩ := h
    rw [pure_eq_ok] at hp
    rw [← hp, hread a b hb]

theorem exactReference_json {kind : String} {r s : WorkDelegationReference}
    (h : exactReference kind (some (referenceJson r)) = .ok s) : s = r := by
  simp only [exactReference, referenceJson, bind_eq_ok, failIf_eq_ok, exists_unit, pure_eq_ok] at h
  obtain ⟨selected, hselected, hkind, id, hid, revision, hrevision, digest, hdigest, rfl⟩ := h
  obtain rfl := object_eq_ok hselected
  obtain rfl := identifier_string (s := r.id) hid
  obtain rfl := integer_nat (n := r.revision) hrevision
  obtain rfl := digest_string (s := r.digest) hdigest
  have hsame : some r.kind = some kind := not_not.mp hkind
  rw [Option.some.injEq] at hsame
  rw [← hsame]

theorem resourceReference_json {r s : ResourceReference}
    (h : resourceReference (some (resourceJson r)) = .ok s) : s = r := by
  simp only [resourceReference, resourceJson, bind_eq_ok, pure_eq_ok] at h
  obtain ⟨selected, hselected, id, hid, digest, hdigest, rfl⟩ := h
  obtain rfl := object_eq_ok hselected
  obtain rfl := identifier_string (s := r.id) hid
  obtain rfl := digest_string (s := r.digest) hdigest
  rfl

theorem backend_json {b c : BackendProfileReference}
    (h : backend (some (backendJson b)) = .ok c) : c = b := by
  simp only [backend, backendJson, bind_eq_ok, failIf_eq_ok, orFail_eq_ok, exists_unit,
    pure_eq_ok] at h
  obtain ⟨selected, hselected, profileId, hprofileId, -, profileDigest, hprofile,
    implementationDigest, himplementation, rfl⟩ := h
  obtain rfl := object_eq_ok hselected
  have hsame : some b.profileId = some profileId := hprofileId
  obtain rfl := Option.some.inj hsame
  obtain rfl := digest_string (s := b.profileDigest) hprofile
  obtain rfl := digest_string (s := b.implementationDigest) himplementation
  rfl

theorem image_json {i j : ImageReference}
    (h : WorkDelegation.image (some (imageJson i)) = .ok j) : j = i := by
  simp only [WorkDelegation.image, imageJson, bind_eq_ok, pure_eq_ok] at h
  obtain ⟨selected, hselected, id, hid, digest, hdigest, rfl⟩ := h
  obtain rfl := object_eq_ok hselected
  obtain rfl := identifier_string (s := i.imageId) hid
  obtain rfl := digest_string (s := i.imageDigest) hdigest
  rfl

/-- A limit that was read is the one written. -/
theorem nullable_limit {n m : Option Nat} {minimum maximum : Nat}
    (h : nullable (some (orNull nat n)) (WorkDelegation.integer · minimum maximum) = .ok m) :
    m = n :=
  nullable_orNull (by simp [nat]) (fun _ _ => integer_nat) h

theorem agentLimits_json {l k : AgentLimits}
    (h : agentLimits (some (agentLimitsJson l)) = .ok k) : k = l := by
  simp only [agentLimits, agentLimitsJson, bind_eq_ok, pure_eq_ok] at h
  obtain ⟨selected, hselected, tokens, htokens, events, hevents, outputBytes, houtput, toolCalls,
    htools, processes, hprocesses, storageBytes, hstorage, rfl⟩ := h
  obtain rfl := object_eq_ok hselected
  obtain rfl := nullable_limit (n := l.tokens) htokens
  obtain rfl := nullable_limit (n := l.events) hevents
  obtain rfl := nullable_limit (n := l.outputBytes) houtput
  obtain rfl := nullable_limit (n := l.toolCalls) htools
  obtain rfl := nullable_limit (n := l.processes) hprocesses
  obtain rfl := nullable_limit (n := l.storageBytes) hstorage
  rfl

/-- **An agent's selection survives a reading.** -/
theorem agentSelection_json {s t : WorkDelegationAgentSelection}
    (h : agentSelection (some (agentSelectionJson s)) = .ok t) : t = s := by
  simp only [agentSelection, agentSelectionJson, bind_eq_ok, pure_eq_ok] at h
  obtain ⟨selected, hselected, provider, hprovider, profile, hprofile, image, himage, model,
    hmodel, reasoning, hreasoning, wallTimeMs, hwall, limits, hlimits, rfl⟩ := h
  obtain rfl := object_eq_ok hselected
  obtain rfl := resourceReference_json (r := s.providerDescriptor) hprovider
  obtain rfl := backend_json (b := s.backendProfile) hprofile
  obtain rfl := image_json (i := s.image) himage
  obtain rfl := opaqueIdentity_string (s := s.model) hmodel
  obtain rfl := opaqueIdentity_string (s := s.reasoning) hreasoning
  obtain rfl := integer_nat (n := s.wallTimeMs) hwall
  obtain rfl := agentLimits_json (l := s.limits) hlimits
  rfl

theorem executionLimits_json {l k : ExecutionLimits}
    (h : executionLimits (some (executionLimitsJson l)) = .ok k) : k = l := by
  simp only [executionLimits, executionLimitsJson, bind_eq_ok, pure_eq_ok] at h
  obtain ⟨selected, hselected, wall, hwall, processes, hprocesses, storage, hstorage, entries,
    hentries, bytes, hbytes, entryBytes, hentryBytes, events, hevents, rfl⟩ := h
  obtain rfl := object_eq_ok hselected
  obtain rfl := integer_nat (n := l.wallTimeMilliseconds) hwall
  obtain rfl := integer_nat (n := l.processes) hprocesses
  obtain rfl := integer_nat (n := l.storageBytes) hstorage
  obtain rfl := integer_nat (n := l.outputEntries) hentries
  obtain rfl := integer_nat (n := l.outputBytes) hbytes
  obtain rfl := integer_nat (n := l.outputEntryBytes) hentryBytes
  obtain rfl := integer_nat (n := l.events) hevents
  rfl

/-! ## Slots -/

/-- **What the slot of an agent is read from.** -/
theorem executionSlot_agent {id : String} {role : DelegatedRole}
    {selection : WorkDelegationAgentSelection} {parsed : WorkDelegationExecutionSlot} :
    executionSlot (slotJson (.agent id role selection)) = .ok parsed ↔
      ∃ id', identifier (some (.string id)) = .ok id' ∧ ∃ selection',
        agentSelection (some (agentSelectionJson selection)) = .ok selection'
          ∧ .agent id' role selection' = parsed := by
  have hobject : WorkDelegation.object (some (slotJson (.agent id role selection)))
      ["slotId", "purpose", "role", "selection"] = .ok [("slotId", .string id),
        ("purpose", .string "agent"), ("role", .string (roleText role)),
        ("selection", agentSelectionJson selection)] := rfl
  rw [slotJson, executionSlot, if_pos (by rfl), ← slotJson, hobject, ok_bind]
  cases role <;>
    simp only [member, asString, roleText, String.reduceEq, if_true, if_false, ok_bind,
      bind_eq_ok, pure_eq_ok]

/-- **A slot survives a reading.** -/
theorem executionSlot_json {slot parsed : WorkDelegationExecutionSlot}
    (h : executionSlot (slotJson slot) = .ok parsed) : parsed = slot := by
  cases slot with
  | agent id role selection =>
    obtain ⟨_, hid, _, hselection, rfl⟩ := executionSlot_agent.mp h
    rw [identifier_string hid, agentSelection_json hselection]
  | check id selectionId definition binding backendProfile image wallTimeMs limits =>
    rw [slotJson, executionSlot, if_neg (by rw [show asString _ = some "check" from rfl]; decide)]
      at h
    simp only [bind_eq_ok, failIf_eq_ok, exists_unit, pure_eq_ok] at h
    obtain ⟨selected, hselected, -, wall, hwall, parsedLimits, hlimits, -, definitionMembers,
      hdefinition, definitionId, hdefinitionId, -, -, id', hid, selectionId', hselection, revision,
      hrevision, sourceDigest, hsource, semanticDigest, hsemantic, binding', hbinding, profile,
      hprofile, image', himage, rfl⟩ := h
    obtain rfl := object_eq_ok hselected
    obtain rfl := @object_eq_ok [("id", .string definition.id),
      ("revision", nat definition.revision), ("sourceDigest", .string definition.sourceDigest),
      ("semanticDigest", .string definition.semanticDigest)] _ _ hdefinition
    obtain rfl := integer_nat (n := wallTimeMs) hwall
    obtain rfl := executionLimits_json (l := limits) hlimits
    obtain rfl := opaqueIdentity_string (s := definition.id) hdefinitionId
    obtain rfl := identifier_string (s := id) hid
    obtain rfl := identifier_string (s := selectionId) hselection
    obtain rfl := integer_nat (n := definition.revision) hrevision
    obtain rfl := digest_string (s := definition.sourceDigest) hsource
    obtain rfl := digest_string (s := definition.semanticDigest) hsemantic
    obtain rfl := resourceReference_json (r := binding) hbinding
    obtain rfl := backend_json (b := backendProfile) hprofile
    obtain rfl := image_json (i := image) himage
    rfl

theorem mapM_executionSlot_json {slots parsed : List WorkDelegationExecutionSlot}
    (h : (slots.map slotJson).mapM executionSlot = .ok parsed) : parsed = slots := by
  rw [mapM_eq_ok_iff, List.forall₂_map_left_iff] at h
  induction h with
  | nil => rfl
  | cons hslot _ ih => rw [executionSlot_json hslot, ih]

/-! ## Reservations -/

theorem parseOperation_operationText (o : WorkDelegationOperation) :
    parseOperation (operationText o) = some o := by
  cases o <;> decide

/-- **The parts of a reservation survive a reading**, when they are read at
all. -/
theorem reservationParts_members {p q : ReservationParts}
    (h : WorkDelegation.reservationParts (partsMembers p) = .ok q) : q = p := by
  simp only [WorkDelegation.reservationParts, bind_eq_ok, orFail_eq_ok, failIf_eq_ok, exists_unit,
    pure_eq_ok] at h
  obtain ⟨selected, hselected, -, operation, hoperation, decision, hdecision, head, hhead, reason,
    hreason, -, items, hitems, -, slots, hslots, -, -, -, reservationId, hid, delegation,
    hdelegation, activityId, hactivity, headSequence, hsequence, headDigest, hheadDigest,
    basisDigest, hbasis, rfl⟩ := h
  obtain rfl := object_eq_ok hselected
  obtain rfl := @object_eq_ok [
    ("journalHead", .object [("sequence", nat p.headSequence), ("digest", .string p.headDigest)]),
    ("basisDigest", .string p.basisDigest), ("reason", .string p.reason)] _ _ hdecision
  obtain rfl := @object_eq_ok [("sequence", nat p.headSequence),
    ("digest", .string p.headDigest)] _ _ hhead
  have hop : some p.operation = some operation := by
    rw [← parseOperation_operationText]
    exact hoperation
  have hre : some p.reason = some reason := hreason
  have hit : items = p.slots.map slotJson := Except.ok.inj hitems.symm
  rw [hit] at hslots
  obtain rfl := mapM_executionSlot_json hslots
  obtain rfl := Option.some.inj hop
  obtain rfl := Option.some.inj hre
  obtain rfl := identifier_string (s := p.reservationId) hid
  obtain rfl := exactReference_json (r := p.delegation) hdelegation
  obtain rfl := identifier_string (s := p.activityId) hactivity
  obtain rfl := integer_nat (n := p.headSequence) hsequence
  obtain rfl := digest_string (s := p.headDigest) hheadDigest
  obtain rfl := digest_string (s := p.basisDigest) hbasis
  rfl

/-- The members of a written reservation but its charges. -/
theorem filter_reservationJson (r : WorkDelegationReservation) :
    (partsMembers r.toReservationParts ++ [("charges", accountingJson r.charges)]).filter
      (fun m => m.1 ≠ "charges") = partsMembers r.toReservationParts := by
  simp [partsMembers]

/-- **A reservation survives a reading**, when it is read at all. -/
theorem parseWorkDelegationReservation_reservationJson {r s : WorkDelegationReservation}
    (h : parseWorkDelegationReservation (reservationJson r) = .ok s) : s.toReservationParts
      = r.toReservationParts := by
  simp only [parseWorkDelegationReservation, reservationJson, bind_eq_ok, pure_eq_ok] at h
  obtain ⟨selected, hselected, compiled, hcompiled, _, -, _, -, _, -, -, -, rfl⟩ := h
  obtain rfl := object_eq_ok hselected
  rw [filter_reservationJson] at hcompiled
  exact reservationParts_members (compileWorkDelegationReservation_charges hcompiled).1

/-- **A compiled reservation is read back as it is.** -/
theorem parseWorkDelegationReservation_compiled {value : JsonObject}
    {r s : WorkDelegationReservation} (hcompiled : compileWorkDelegationReservation value = .ok r)
    (h : parseWorkDelegationReservation (reservationJson r) = .ok s) : s = r := by
  have hparts := parseWorkDelegationReservation_reservationJson h
  simp only [parseWorkDelegationReservation, bind_eq_ok, pure_eq_ok] at h
  obtain ⟨_, -, compiled, hagain, _, -, _, -, _, -, -, -, rfl⟩ := h
  have hcharges := (compileWorkDelegationReservation_charges hcompiled).2
  have hcharges' := (compileWorkDelegationReservation_charges hagain).2
  rw [show compiled.slots = r.slots from congrArg ReservationParts.slots hparts, hcharges,
    Except.ok.injEq] at hcharges'
  obtain ⟨parts, charges⟩ := compiled
  obtain ⟨parts', charges'⟩ := r
  obtain rfl : parts = parts' := hparts
  obtain rfl : charges' = charges := hcharges'
  rfl

/-! ## Grants -/

/-- A present member is read to something. -/
theorem isSome_of_isPresent {α : Type} {o : JsonObject} {name : String}
    {read : Option Json → Except FoundationError α} {p : Option α}
    (h : nullable (member name o) read = .ok p) : isPresent o name = p.isSome := by
  unfold nullable at h
  unfold isPresent
  split at h
  · next heq =>
    rw [Except.ok.injEq] at h
    rw [← h]
    rfl
  · next hnull =>
    rw [bind_eq_ok] at h
    obtain ⟨a, -, h⟩ := h
    rw [pure_eq_ok] at h
    rw [← h]
    rfl

/-- **A grant that selects an agent directs it.** -/
theorem parseWorkDelegationPayload_directed {value : Json} {p : WorkDelegationPayload}
    (h : parseWorkDelegationPayload value = .ok p) :
    p.directionContinue.isSome = p.builder.isSome
      ∧ p.directionEvaluate.isSome = p.reviewer.isSome := by
  simp only [parseWorkDelegationPayload, bind_eq_ok, failIf_eq_ok, exists_unit, pure_eq_ok] at h
  obtain ⟨_, -, -, _, -, -, _, -, -, operations, -, directions, -, selections, -, hpresent, _, -,
    -, _, -, _, -, _, -, continued, hcontinued, evaluated, hevaluated, builder, hbuilder,
    reviewer, hreviewer, _, -, rfl⟩ := h
  rw [isSome_of_isPresent hcontinued, isSome_of_isPresent hevaluated,
    isSome_of_isPresent hbuilder, isSome_of_isPresent hreviewer] at hpresent
  push Not at hpresent
  obtain ⟨h₁, h₂, h₃, h₄⟩ := hpresent
  exact ⟨h₁.trans h₂.symm, h₃.trans h₄.symm⟩

/-! ## Canonical texts -/

/-- A number in an object with a text is within the safe integers. -/
theorem canonicalizable_natMember {members : JsonObject} {bytes : List UInt8} {name : String}
    {n : Nat} (h : canonicalJson (.object members) = .ok bytes) (hm : (name, nat n) ∈ members) :
    n ≤ maxSafeInteger := by
  obtain ⟨text, htext⟩ := Canonicalizable.member ⟨bytes, h⟩ hm
  simp only [canonicalJson, nat, canonicalize, canonicalNumber, bind_eq_ok, failIf_eq_ok,
    exists_unit] at htext
  exact Nat.not_lt.mp htext.1

/-- **The canonical text of a reference determines it.** -/
theorem referenceJson_injective {r s : WorkDelegationReference} {bytes : List UInt8}
    (h : canonicalJson (referenceJson r) = .ok bytes)
    (h' : canonicalJson (referenceJson s) = .ok bytes) : r = s := by
  have hwritten : ∀ {t : WorkDelegationReference}, canonicalJson (referenceJson t) = .ok bytes →
      (referenceJson t).Written := by
    intro t ht
    have hrevision := @canonicalizable_natMember _ _ "revision" t.revision ht (by simp)
    refine written_object (by simp [keys]) ?_
    simp only [List.forall_mem_cons]
    exact ⟨written_string _, written_string _, written_nat hrevision, written_string _,
      List.forall_mem_nil _⟩
  have hsame := members_eq_of_ordered ((hwritten h).eq_of_text (hwritten h') h h') rfl (by simp [keys])
  simp only [List.map_cons, canonicalOrder, nat, List.cons.injEq, Json.string.injEq,
    Json.number.injEq, JsNumber.integer.injEq, Int.natCast_inj] at hsame
  obtain ⟨hkind, hid, hrevision, hdigest, -⟩ := hsame
  cases r
  cases s
  simp_all

/-- **The canonical text of a reserved definition determines it.** -/
theorem definitionJson_injective {d e : ReservedDefinition} {bytes : List UInt8}
    (h : canonicalJson (definitionJson d) = .ok bytes)
    (h' : canonicalJson (definitionJson e) = .ok bytes) : d = e := by
  have hwritten : ∀ {t : ReservedDefinition}, canonicalJson (definitionJson t) = .ok bytes →
      (definitionJson t).Written := by
    intro t ht
    have hrevision := @canonicalizable_natMember _ _ "revision" t.revision ht (by simp)
    refine written_object (by simp [keys]) ?_
    simp only [List.forall_mem_cons]
    exact ⟨written_string _, written_nat hrevision, written_string _, written_string _,
      List.forall_mem_nil _⟩
  have hsame := members_eq_of_ordered ((hwritten h).eq_of_text (hwritten h') h h') rfl (by simp [keys])
  simp only [List.map_cons, canonicalOrder, nat, List.cons.injEq, Json.string.injEq,
    Json.number.injEq, JsNumber.integer.injEq, Int.natCast_inj] at hsame
  obtain ⟨hid, hrevision, hsource, hsemantic, -⟩ := hsame
  cases d
  cases e
  simp_all
