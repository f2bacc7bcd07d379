import Lifecycle.CarrierRoundTrip
import Lifecycle.ReservationRoundTrip

/-!
# Reading in canonical order

The journal keeps the payload of an opening in canonical order. The readers of
a reservation find members by their names, so the order the journal put them in
does not matter to them (`parseWorkDelegationReservation_ordered`).
-/

open Fallible Json ControlModel WorkDelegation Comparison

/-! ## Reordered objects -/

/-- **An object in canonical order**, as it is read: the same names, and under
each the same member in canonical order. -/
structure Reordered (o ordered : JsonObject) : Prop where
  names : (keys ordered).Perm (keys o)
  found : ∀ name, member name ordered = (member name o).map canonicalOrder
  distinct : ∀ name v, member name o = some v → v.DistinctNames

theorem reordered_parsedCanonical {o : JsonObject} (h : (Json.object o).DistinctNames) :
    Reordered o (parsedCanonical o) where
  names := perm_keys_parsedCanonical o
  found name := by
    cases hm : member name o with
    | none =>
      by_contra hsome
      obtain ⟨v, hv⟩ := Option.ne_none_iff_exists'.mp hsome
      obtain ⟨w, hw, -⟩ := (member_parsedCanonical h.1).mp hv
      rw [hm] at hw
      cases hw
    | some w => exact (member_parsedCanonical h.1).mpr ⟨w, hm, rfl⟩
  distinct name v hv := Carrier.distinctNames_of_member h.2 hv

theorem member_filter (o : JsonObject) (name dropped : String) :
    member name (o.filter fun m => m.1 ≠ dropped)
      = if name = dropped then none else member name o := by
  induction o with
  | nil => simp [member]
  | cons m o ih =>
    by_cases hm : m.1 = dropped
    · rw [List.filter_cons_of_neg (by simpa using hm), ih, member]
      split
      · rfl
      · next hne => rw [if_neg (hm.trans_ne (Ne.symm hne))]
    · rw [List.filter_cons_of_pos (by simpa using hm), member, member, ih]
      by_cases hname : m.1 = name
      · rw [if_pos hname, if_pos hname, if_neg (hname ▸ hm)]
      · rw [if_neg hname, if_neg hname]

/-- A member is dropped from both. -/
theorem Reordered.filter {o ordered : JsonObject} (h : Reordered o ordered) (dropped : String) :
    Reordered (o.filter fun m => m.1 ≠ dropped) (ordered.filter fun m => m.1 ≠ dropped) where
  names := by
    have hkeys : ∀ o : JsonObject, keys (o.filter fun m => m.1 ≠ dropped)
        = (keys o).filter fun name => name ≠ dropped := fun o => by
      rw [keys, keys, List.filter_map]
      rfl
    rw [hkeys, hkeys]
    exact h.names.filter _
  found name := by
    rw [member_filter, member_filter, h.found]
    split <;> rfl
  distinct name v hv := by
    rw [member_filter] at hv
    split at hv
    · cases hv
    · exact h.distinct name v hv

/-! ## Readers -/

variable {α : Type} {read : Option Json → Except FoundationError α} {o ordered : JsonObject}
  {name : String} {v : Json}

/-- **A reader the order does not matter to.** -/
def OrderFree (read : Option Json → Except FoundationError α) : Prop :=
  ∀ v a, v.DistinctNames → read (some v) = .ok a → read (some (canonicalOrder v)) = .ok a

theorem OrderFree.member (h : OrderFree read) (hordered : Reordered o ordered) {a : α}
    (hread : read (Json.member name o) = .ok a) : read (Json.member name ordered) = .ok a := by
  rw [hordered.found]
  cases hm : Json.member name o with
  | none => rwa [hm] at hread
  | some v =>
    rw [hm] at hread
    exact h v a (hordered.distinct name v hm) hread

/-- Texts and numbers have no order. -/
theorem OrderFree.of_text {json : α → Json}
    (h : ∀ v a, read v = .ok a → v = some (json a)) (hjson : ∀ a, canonicalOrder (json a) = json a) :
    OrderFree read := by
  intro v a _ hread
  obtain rfl := Option.some.inj (h _ a hread)
  rw [hjson, hread]

theorem OrderFree.nullable (h : OrderFree read) :
    OrderFree (fun v => WorkDelegation.nullable v read) := by
  intro v p hdistinct hread
  by_cases hnull : v = .null
  · subst hnull
    exact hread
  have hsome : ∀ w : Json, w ≠ .null →
      WorkDelegation.nullable (some w) read = (read (some w) >>= fun a => pure (some a)) := by
    intro w hw
    unfold WorkDelegation.nullable
    split
    · next heq => exact absurd (Option.some.inj heq) hw
    · rfl
  have hordered : canonicalOrder v ≠ .null := by
    cases v <;> simp_all [canonicalOrder]
  replace hread : WorkDelegation.nullable (some v) read = .ok p := hread
  show WorkDelegation.nullable (some (canonicalOrder v)) read = .ok p
  rw [hsome v hnull, bind_eq_ok] at hread
  obtain ⟨a, ha, hp⟩ := hread
  rw [hsome _ hordered, h v a hdistinct ha, ok_bind, hp]

theorem orderFree_identifier : OrderFree identifier :=
  .of_text (fun _ _ => value_of_identifier) fun _ => rfl

theorem orderFree_opaqueIdentity : OrderFree opaqueIdentity :=
  .of_text (fun _ _ => value_of_opaqueIdentity) fun _ => rfl

theorem orderFree_digest : OrderFree WorkDelegation.digest :=
  .of_text (fun _ _ => value_of_digest) fun _ => rfl

theorem orderFree_integer (minimum maximum : Nat) :
    OrderFree (WorkDelegation.integer · minimum maximum) :=
  .of_text (fun _ _ => value_of_integer) fun _ => rfl

/-- A text is found in canonical order as it was. -/
theorem Reordered.asString (h : Reordered o ordered) (name : String) :
    Json.asString (Json.member name ordered) = Json.asString (Json.member name o) := by
  rw [h.found]
  cases hm : Json.member name o with
  | none => rfl
  | some v => cases v <;> rfl

/-- **An object of exact members is one in canonical order.** -/
theorem Reordered.object {names : List String} {selected : JsonObject} (h : Reordered o ordered)
    (hread : WorkDelegation.object (some (.object o)) names = .ok selected) :
    selected = o ∧ WorkDelegation.object (some (.object ordered)) names = .ok ordered := by
  simp only [WorkDelegation.object, bind_eq_ok, failIf_eq_ok, exists_unit, pure_eq_ok] at hread ⊢
  obtain ⟨hexact, rfl⟩ := hread
  have hlength : ordered.length = o.length := by
    have hsame := h.names.length_eq
    rwa [keys, keys, List.length_map, List.length_map] at hsame
  rw [hlength]
  refine ⟨rfl, fun hbad => hexact (hbad.imp_right ?_), trivial⟩
  rintro ⟨key, hkey, hother⟩
  exact ⟨key, h.names.mem_iff.mp hkey, hother⟩

theorem reordered_of_object {names : List String} (hdistinct : v.DistinctNames)
    (h : WorkDelegation.object (some v) names = .ok o) :
    ∃ ordered, Reordered o ordered
      ∧ WorkDelegation.object (some (canonicalOrder v)) names = .ok ordered := by
  cases v with
  | object members =>
    have hordered := reordered_parsedCanonical hdistinct
    obtain ⟨rfl, hread⟩ := hordered.object h
    exact ⟨parsedCanonical o, hordered, hread⟩
  | _ => cases h

/-- An object that is a member is one in canonical order. -/
theorem Reordered.objectMember {names : List String} {selected : JsonObject}
    (h : Reordered o ordered) (hread : WorkDelegation.object (Json.member name o) names = .ok selected) :
    ∃ members, Reordered selected members
      ∧ WorkDelegation.object (Json.member name ordered) names = .ok members := by
  rw [h.found]
  cases hm : Json.member name o with
  | none =>
    rw [hm] at hread
    cases hread
  | some v =>
    rw [hm] at hread
    exact reordered_of_object (h.distinct _ _ hm) hread

/-- A reader of the members of an object. -/
theorem OrderFree.of_object {names : List String} {body : JsonObject → Except FoundationError α}
    (h : ∀ {o ordered : JsonObject} {a : α}, Reordered o ordered → body o = .ok a →
      body ordered = .ok a) :
    OrderFree fun v => WorkDelegation.object v names >>= body := by
  intro v a hdistinct hread
  obtain ⟨o, ho, hbody⟩ := bind_eq_ok.mp hread
  obtain ⟨ordered, hordered, hobject⟩ := reordered_of_object hdistinct ho
  exact bind_eq_ok.mpr ⟨ordered, hobject, h hordered hbody⟩

/-- The items of an array are those of one in canonical order. -/
theorem Reordered.items {items : List Json} {error : FoundationError} (h : Reordered o ordered)
    (hread : arrayItems (Json.member name o) error = .ok items) :
    arrayItems (Json.member name ordered) error = .ok (items.map canonicalOrder)
      ∧ ∀ item ∈ items, item.DistinctNames := by
  unfold arrayItems at hread
  split at hread
  · next found hm =>
    rw [Except.ok.injEq] at hread
    subst hread
    rw [h.found, hm]
    have hdistinct : DistinctNamesItems found := h.distinct _ _ hm
    refine ⟨?_, fun item hitem => ?_⟩
    · rw [Option.map_some, canonicalOrder, canonicalOrderItems_eq]
      rfl
    · clear hm
      induction found with
      | nil => cases hitem
      | cons first found ih =>
        rcases List.mem_cons.mp hitem with rfl | hitem
        · exact hdistinct.1
        · exact ih hdistinct.2 hitem
  · cases hread

/-! ## Components -/

theorem orderFree_exactReference (kind : String) : OrderFree (exactReference kind) := by
  refine .of_object fun ho h => ?_
  simp only [bind_eq_ok, failIf_eq_ok, exists_unit, pure_eq_ok] at h ⊢
  obtain ⟨hkind, id, hid, revision, hrevision, digest, hdigest, rfl⟩ := h
  rw [← ho.asString] at hkind
  exact ⟨hkind, id, orderFree_identifier.member ho hid, revision,
    (orderFree_integer _ _).member ho hrevision, digest, orderFree_digest.member ho hdigest, rfl⟩

theorem orderFree_resourceReference : OrderFree resourceReference := by
  refine .of_object fun ho h => ?_
  simp only [bind_eq_ok, pure_eq_ok] at h ⊢
  obtain ⟨id, hid, digest, hdigest, rfl⟩ := h
  exact ⟨id, orderFree_identifier.member ho hid, digest, orderFree_digest.member ho hdigest, rfl⟩

theorem orderFree_backend : OrderFree backend := by
  refine .of_object fun ho h => ?_
  simp only [bind_eq_ok, orFail_eq_ok, failIf_eq_ok, exists_unit, pure_eq_ok] at h ⊢
  obtain ⟨profileId, hid, hknown, profile, hprofile, implementation, himplementation, rfl⟩ := h
  rw [← ho.asString] at hid
  exact ⟨profileId, hid, hknown, profile, orderFree_digest.member ho hprofile, implementation,
    orderFree_digest.member ho himplementation, rfl⟩

theorem orderFree_image : OrderFree WorkDelegation.image := by
  refine .of_object fun ho h => ?_
  simp only [bind_eq_ok, pure_eq_ok] at h ⊢
  obtain ⟨id, hid, digest, hdigest, rfl⟩ := h
  exact ⟨id, orderFree_identifier.member ho hid, digest, orderFree_digest.member ho hdigest, rfl⟩

theorem orderFree_agentLimits : OrderFree agentLimits := by
  have hlimit := (orderFree_integer 1 maxSafeInteger).nullable
  refine .of_object fun ho h => ?_
  simp only [bind_eq_ok, pure_eq_ok] at h ⊢
  obtain ⟨tokens, htokens, events, hevents, outputBytes, houtput, toolCalls, htools, processes,
    hprocesses, storageBytes, hstorage, rfl⟩ := h
  exact ⟨tokens, hlimit.member ho htokens, events, hlimit.member ho hevents, outputBytes,
    hlimit.member ho houtput, toolCalls, hlimit.member ho htools, processes,
    hlimit.member ho hprocesses, storageBytes, hlimit.member ho hstorage, rfl⟩

theorem orderFree_agentSelection : OrderFree agentSelection := by
  refine .of_object fun ho h => ?_
  simp only [bind_eq_ok, pure_eq_ok] at h ⊢
  obtain ⟨provider, hprovider, profile, hprofile, image, himage, model, hmodel, reasoning,
    hreasoning, wallTimeMs, hwall, limits, hlimits, rfl⟩ := h
  exact ⟨provider, orderFree_resourceReference.member ho hprovider, profile,
    orderFree_backend.member ho hprofile, image, orderFree_image.member ho himage, model,
    orderFree_opaqueIdentity.member ho hmodel, reasoning,
    orderFree_opaqueIdentity.member ho hreasoning, wallTimeMs,
    (orderFree_integer _ _).member ho hwall, limits, orderFree_agentLimits.member ho hlimits, rfl⟩

theorem orderFree_executionLimits : OrderFree executionLimits := by
  refine .of_object fun {o _ _} ho h => ?_
  have hinteger := fun {name minimum maximum n}
    (h : WorkDelegation.integer (Json.member name o) minimum maximum = .ok n) =>
      (orderFree_integer minimum maximum).member ho h
  simp only [bind_eq_ok, pure_eq_ok] at h ⊢
  obtain ⟨wall, hwall, processes, hprocesses, storage, hstorage, entries, hentries, bytes, hbytes,
    entryBytes, hentryBytes, events, hevents, rfl⟩ := h
  exact ⟨wall, hinteger hwall, processes, hinteger hprocesses, storage, hinteger hstorage, entries,
    hinteger hentries, bytes, hinteger hbytes, entryBytes, hinteger hentryBytes, events,
    hinteger hevents, rfl⟩

theorem orderFree_accounting : OrderFree parseWorkDelegationAccounting := by
  refine .of_object fun ho h => ?_
  simp only [bind_eq_ok, pure_eq_ok] at h ⊢
  obtain ⟨operations, hoperations, attempts, hattempts, cells, hcells, rfl⟩ := h
  exact ⟨operations, (orderFree_integer _ _).member ho hoperations, attempts,
    (orderFree_integer _ _).member ho hattempts, cells,
    (orderFree_integer _ _).member ho hcells, rfl⟩

/-! ## Slots -/

theorem executionSlot_ordered {value : Json} {slot : WorkDelegationExecutionSlot}
    (hdistinct : value.DistinctNames) (h : executionSlot value = .ok slot) :
    executionSlot (canonicalOrder value) = .ok slot := by
  cases value with
  | object o =>
    have hordered := reordered_parsedCanonical hdistinct
    rw [canonicalOrder_payload]
    unfold executionSlot at h ⊢
    dsimp only at h ⊢
    rw [hordered.asString]
    split at h
    · next hagent =>
      rw [if_pos hagent, bind_eq_ok]
      rw [bind_eq_ok] at h
      obtain ⟨selected, hselected, h⟩ := h
      obtain ⟨rfl, hread⟩ := hordered.object hselected
      refine ⟨_, hread, ?_⟩
      rw [hordered.asString]
      -- Whatever the role is, the identity and the selection are read the same.
      split at h <;> simp only [ok_bind, error_bind, reduceCtorEq, bind_eq_ok, pure_eq_ok] at h
      all_goals
        obtain ⟨id, hid, selection, hselection, rfl⟩ := h
        simp only [ok_bind, bind_eq_ok, pure_eq_ok]
        exact ⟨id, orderFree_identifier.member hordered hid, selection,
          orderFree_agentSelection.member hordered hselection, rfl⟩
    · next hcheck =>
      rw [if_neg hcheck]
      simp only [bind_eq_ok, failIf_eq_ok, exists_unit, pure_eq_ok] at h ⊢
      obtain ⟨selected, hselected, hphase, wall, hwall, limits, hlimits, hsame, definition,
        hdefinition, definitionId, hdefinitionId, hknowledge, hkind, id, hid, selectionId,
        hselection, revision, hrevision, sourceDigest, hsource, semanticDigest, hsemantic, binding,
        hbinding, profile, hprofile, image, himage, rfl⟩ := h
      obtain ⟨rfl, hread⟩ := hordered.object hselected
      obtain ⟨members, hmembers, hdefinitionRead⟩ := hordered.objectMember hdefinition
      rw [← hordered.asString, ← hordered.asString "phase"] at hphase
      exact ⟨_, hread, hphase, wall, (orderFree_integer _ _).member hordered hwall, limits,
        orderFree_executionLimits.member hordered hlimits, hsame, members, hdefinitionRead,
        definitionId, orderFree_opaqueIdentity.member hmembers hdefinitionId, hknowledge, hkind, id,
        orderFree_identifier.member hordered hid, selectionId,
        orderFree_identifier.member hordered hselection, revision,
        (orderFree_integer _ _).member hmembers hrevision, sourceDigest,
        orderFree_digest.member hmembers hsource, semanticDigest,
        orderFree_digest.member hmembers hsemantic, binding,
        orderFree_resourceReference.member hordered hbinding, profile,
        orderFree_backend.member hordered hprofile, image, orderFree_image.member hordered himage,
        rfl⟩
  | _ => cases h

theorem mapM_executionSlot_ordered {items : List Json} {slots : List WorkDelegationExecutionSlot}
    (hdistinct : ∀ item ∈ items, item.DistinctNames) (h : items.mapM executionSlot = .ok slots) :
    (items.map canonicalOrder).mapM executionSlot = .ok slots := by
  rw [mapM_eq_ok_iff] at h ⊢
  rw [List.forall₂_map_left_iff]
  induction h with
  | nil => exact .nil
  | cons hslot _ ih =>
    exact .cons (executionSlot_ordered (hdistinct _ List.mem_cons_self) hslot)
      (ih fun item hitem => hdistinct item (List.mem_cons_of_mem _ hitem))

/-! ## Reservations -/

theorem reservationParts_ordered {p : ReservationParts} (h : Reordered o ordered)
    (hread : WorkDelegation.reservationParts o = .ok p) :
    WorkDelegation.reservationParts ordered = .ok p := by
  simp only [WorkDelegation.reservationParts, bind_eq_ok, orFail_eq_ok, failIf_eq_ok, exists_unit,
    pure_eq_ok] at hread ⊢
  obtain ⟨selected, hselected, hschema, operation, hoperation, decision, hdecision, head, hhead,
    reason, hreason, hallowed, items, hitems, hbound, slots, hslots, hsorted, hdistinct, hfits,
    reservationId, hid, delegation, hdelegation, activityId, hactivity, sequence, hsequence,
    headDigest, hheadDigest, basis, hbasis, rfl⟩ := hread
  obtain ⟨rfl, hobject⟩ := h.object hselected
  obtain ⟨decision', hdecided, hdecision'⟩ := h.objectMember hdecision
  obtain ⟨head', hheaded, hhead'⟩ := hdecided.objectMember hhead
  obtain ⟨hitems', hnames⟩ := h.items hitems
  rw [← h.asString] at hschema hoperation
  rw [← hdecided.asString] at hreason
  refine ⟨_, hobject, hschema, operation, hoperation, decision', hdecision', head', hhead', reason,
    hreason, hallowed, _, hitems', ?_, slots, mapM_executionSlot_ordered hnames hslots, hsorted,
    hdistinct, hfits, reservationId, orderFree_identifier.member h hid, delegation,
    (orderFree_exactReference _).member h hdelegation, activityId,
    orderFree_identifier.member h hactivity, sequence,
    (orderFree_integer _ _).member hheaded hsequence, headDigest,
    orderFree_digest.member hheaded hheadDigest, basis, orderFree_digest.member hdecided hbasis,
    rfl⟩
  rw [List.length_map]
  exact hbound

/-- **A reservation is read the same in canonical order.** -/
theorem parseWorkDelegationReservation_ordered {value : Json} {r : WorkDelegationReservation}
    (hdistinct : value.DistinctNames) (h : parseWorkDelegationReservation value = .ok r) :
    parseWorkDelegationReservation (canonicalOrder value) = .ok r := by
  simp only [parseWorkDelegationReservation, compileWorkDelegationReservation, bind_eq_ok,
    failIf_eq_ok, exists_unit, pure_eq_ok] at h ⊢
  obtain ⟨selected, hselected, compiled, ⟨parts, hparts, hcompiled⟩, charges, hcharges, hdigest⟩ := h
  obtain ⟨ordered, hordered, hobject⟩ := reordered_of_object hdistinct hselected
  exact ⟨ordered, hobject, compiled, ⟨parts,
    reservationParts_ordered (hordered.filter "charges") hparts, hcompiled⟩, charges,
    orderFree_accounting.member hordered hcharges, hdigest⟩

/-! ## What is written -/

theorem distinctNames_referenceJson (r : WorkDelegationReference) : (referenceJson r).DistinctNames :=
  ⟨by simp [keys], trivial, trivial, trivial, trivial, trivial⟩

theorem distinctNames_resourceJson (r : ResourceReference) : (resourceJson r).DistinctNames :=
  ⟨by simp [keys], trivial, trivial, trivial⟩

theorem distinctNames_backendJson (b : BackendProfileReference) : (backendJson b).DistinctNames :=
  ⟨by simp [keys], trivial, trivial, trivial, trivial⟩

theorem distinctNames_imageJson (i : ImageReference) : (imageJson i).DistinctNames :=
  ⟨by simp [keys], trivial, trivial, trivial⟩

theorem distinctNames_orNull {json : α → Json} (h : ∀ a, (json a).DistinctNames) (p : Option α) :
    (orNull json p).DistinctNames := by
  cases p with
  | none => trivial
  | some a => exact h a

theorem distinctNames_agentSelectionJson (s : WorkDelegationAgentSelection) :
    (agentSelectionJson s).DistinctNames := by
  have hlimit := @distinctNames_orNull Nat nat fun _ => trivial
  have hlimits : (agentLimitsJson s.limits).DistinctNames :=
    ⟨by simp [keys], hlimit _, hlimit _, hlimit _, hlimit _, hlimit _, hlimit _, trivial⟩
  exact ⟨by simp [keys], distinctNames_resourceJson _, distinctNames_backendJson _,
    distinctNames_imageJson _, trivial, trivial, trivial, hlimits, trivial⟩

theorem distinctNames_slotJson (slot : WorkDelegationExecutionSlot) :
    (slotJson slot).DistinctNames := by
  cases slot with
  | agent id role selection =>
    exact ⟨by simp [keys], trivial, trivial, trivial, distinctNames_agentSelectionJson _, trivial⟩
  | check id selectionId definition binding profile image wallTimeMs limits =>
    have hdefinition : (definitionJson definition).DistinctNames :=
      ⟨by simp [keys], trivial, trivial, trivial, trivial, trivial⟩
    have hlimits : (executionLimitsJson limits).DistinctNames :=
      ⟨by simp [keys], trivial, trivial, trivial, trivial, trivial, trivial, trivial, trivial⟩
    exact ⟨by simp [keys], trivial, trivial, trivial, trivial, hdefinition,
      distinctNames_resourceJson _, distinctNames_backendJson _, distinctNames_imageJson _, trivial,
      hlimits, trivial⟩

/-- No object of a written reservation has a name twice. -/
theorem distinctNames_reservationJson (r : WorkDelegationReservation) :
    (reservationJson r).DistinctNames := by
  have hslots : DistinctNamesItems (r.slots.map slotJson) := by
    refine distinctNamesItems_of_forall fun v hv => ?_
    obtain ⟨slot, -, rfl⟩ := List.mem_map.mp hv
    exact distinctNames_slotJson slot
  have hdecision : (Json.object [("journalHead", .object [("sequence", nat r.headSequence),
      ("digest", .string r.headDigest)]), ("basisDigest", .string r.basisDigest),
      ("reason", .string r.reason)]).DistinctNames :=
    ⟨by simp [keys], ⟨by simp [keys], trivial, trivial, trivial⟩, trivial, trivial, trivial⟩
  have hcharges : (accountingJson r.charges).DistinctNames :=
    ⟨by simp [keys], trivial, trivial, trivial, trivial⟩
  exact ⟨by simp [keys, partsMembers], trivial, trivial, distinctNames_referenceJson _, trivial,
    trivial, hdecision, hslots, hcharges, trivial⟩

/-! ## Light values in canonical order -/

theorem heightMembers_eq (members : List (String × Json)) : heightMembers members
    = (members.map fun m => height m.2).foldr max 0 := by
  induction members with
  | nil => rfl
  | cons m members ih => rw [heightMembers, ih, List.map_cons, List.foldr_cons]

mutual
/-- The order is as deep. -/
theorem height_canonicalOrder : ∀ v : Json, height (canonicalOrder v) = height v
  | .null | .bool _ | .number _ | .string _ => rfl
  | .array items => by
    rw [canonicalOrder, height, height, heightItems_canonicalOrder items]
  | .object members => by
    have hperm := perm_sortWith byName (canonicalOrderMembers members)
    rw [canonicalOrder_object, height, height, ← heightMembers_canonicalOrder members,
      heightMembers_eq, heightMembers_eq, (hperm.map _).foldr_eq]

theorem heightItems_canonicalOrder : ∀ items : List Json,
    heightItems (canonicalOrderItems items) = heightItems items
  | [] => rfl
  | item :: items => by
    rw [canonicalOrderItems, heightItems, heightItems, height_canonicalOrder item,
      heightItems_canonicalOrder items]

theorem heightMembers_canonicalOrder : ∀ members : List (String × Json),
    heightMembers (canonicalOrderMembers members) = heightMembers members
  | [] => rfl
  | (_, value) :: members => by
    rw [canonicalOrderMembers, heightMembers, heightMembers, height_canonicalOrder value,
      heightMembers_canonicalOrder members]
end

/-- **A light object of safe numbers is a light payload in canonical order.** -/
theorem light_parsedCanonical {value : JsonObject} (hnumbered : (Json.object value).Numbered)
    (hlight : weight (.object value) ≤ 16384) (hshallow : height (.object value) ≤ 16) :
    LightPayload (parsedCanonical value) where
  plain := plain_canonicalOrder hnumbered
  light := (weight_canonicalOrder (.object value)).trans_le hlight
  shallow := (height_canonicalOrder (.object value)).trans_le hshallow
