import Lifecycle.TerminalSubjects

/-!
# Terminal subjects and handoffs correspond

`verifyTerminalSubjects` matches greedily: each Receipt takes the handoff of its
Retirement, each refusal the one undispatched Agent handoff of its Activity that
no Receipt took. No choice is ever made, so the greedy matching finds a
correspondence wherever there is one (`matchTerminal_iff`). That a Receipt may
not take what a refusal selects is the kind of the Receipt: an undispatched
Agent handoff would need an execution Receipt, and that needs a dispatch.

In a ledger that the claimants reached the handoffs differ in every coordinate
they are matched by (`LedgerUnique`). A repeated Retirement, Agent owner or
Activity is therefore refused by the correspondence already. Only a repeated
Receipt or refusal event is refused on its own (`verifyTerminalSubjects_iff`).
-/

open Fallible Json ControlModel Comparison ReclamationLedger

/-! ## What the handoffs of a ledger differ in -/

/-- **No two handoffs share a unique index**, and their number is bounded. -/
structure LedgerUnique (ledger : Ledger) : Prop where
  bounded : ledger.handoffs.entries.length ≤ maximumHandoffs
  distinct : ∀ d d' h h', ledger.handoffs.get d = some h → ledger.handoffs.get d' = some h' →
    d ≠ d' → ¬ h.Duplicates h'

theorem ReclamationLedger.Handoff.Duplicates.symm {a b : Handoff} (h : a.Duplicates b) :
    b.Duplicates a := by
  simp only [Handoff.Duplicates] at h ⊢
  obtain h | h | h | h | h | h | ⟨h1, h2, h3, h4, h5, h6⟩ := h
  · exact .inl h.symm
  · exact .inr (.inl h.symm)
  · exact .inr (.inr (.inl h.symm))
  · exact .inr (.inr (.inr (.inl h.symm)))
  · exact .inr (.inr (.inr (.inr (.inl h.symm))))
  · exact .inr (.inr (.inr (.inr (.inr (.inl h.symm)))))
  · exact .inr (.inr (.inr (.inr (.inr (.inr ⟨h2, h1, h3.symm, h4.symm, h5.symm, h6.symm⟩)))))

/-- What the acceptance of a handoff has tested. -/
theorem accept_tested {ledger next : Ledger} {candidate handoff : Handoff}
    (h : accept ledger candidate = .ok (handoff, next)) :
    next.handoffs = ledger.handoffs
      ∨ (ledger.handoffs.entries.length < maximumHandoffs
        ∧ (∀ x ∈ ledger.handoffs.values, ¬ x.Duplicates candidate)
        ∧ ledger.handoffs.get candidate.obligationDigest = none
        ∧ next.handoffs = ledger.handoffs.set candidate.obligationDigest candidate) := by
  simp only [accept, bind_eq_ok] at h
  obtain ⟨-, -, initial, -, h⟩ := h
  split at h
  · simp only [bind_eq_ok, exists_unit, pure_eq_ok, Prod.mk.injEq] at h
    exact .inl (by rw [h.2.2])
  · next hnew =>
    simp only [bind_eq_ok, failIf_eq_ok, exists_unit, pure_eq_ok, Prod.mk.injEq, not_le,
      not_exists, not_and] at h
    obtain ⟨hbound, hdistinct, -, -, rfl⟩ := h
    exact .inr ⟨hbound, hdistinct, hnew, rfl⟩

theorem LedgerUnique.accept {ledger next : Ledger} {candidate handoff : Handoff}
    (h : LedgerUnique ledger) (haccept : accept ledger candidate = .ok (handoff, next)) :
    LedgerUnique next := by
  obtain hsame | ⟨hbound, hdistinct, hnew, hnext⟩ := accept_tested haccept
  · exact ⟨hsame ▸ h.bounded, hsame ▸ h.distinct⟩
  · constructor
    · rw [hnext, OrderedMap.entries_set_of_get_eq_none hnew, List.length_append]
      exact hbound
    · intro d d' x x' hx hx' hne
      rw [hnext, OrderedMap.get_set] at hx hx'
      split at hx
      · next hd =>
        obtain rfl := Option.some.inj hx
        rw [if_neg fun hd' => hne (hd.trans hd'.symm)] at hx'
        exact fun hdup => hdistinct x' (OrderedMap.mem_values_of_get hx') hdup.symm
      · split at hx'
        · obtain rfl := Option.some.inj hx'
          exact hdistinct x (OrderedMap.mem_values_of_get hx)
        · exact h.distinct d d' x x' hx hx' hne

/-- **Every ledger of a run is unique in its indexes.** -/
theorem LedgerUnique.of_reachable {s : LedgerState} (h : ledgerSystem.Reachable s) :
    LedgerUnique s.ledger := by
  refine h.invariant (P := fun s => LedgerUnique s.ledger) ?_ fun s label t hs hstep => ?_
  · rintro s rfl
    exact ⟨Nat.zero_le _, by simp⟩
  · cases hstep with
    | accepts haccept => exact hs.accept haccept
    | claims => exact hs
    | completes => exact hs
    | @runs u _ hu heffective hrun =>
      obtain rfl := runUpdate_eq_ok heffective hrun
      exact ⟨hs.bounded, hs.distinct⟩
    | drops => exact hs
    | returns => exact hs

/-! ## The handoffs of a Process -/

namespace ReclamationLedger

/-- **The handoffs a ledger holds of a Process.** -/
def handoffsOf (ledger : Ledger) (storeId processId : String) : List Handoff :=
  ledger.handoffs.values.filter fun h =>
    decide (h.owner.storeId = storeId) && decide (h.owner.processId = processId)

/-- What the matching relies on. -/
structure DistinctHandoffs (handoffs : List Handoff) : Prop where
  obligations : (handoffs.map Handoff.obligationDigest).Nodup
  retirements : (handoffs.map Handoff.retirementDigest).Nodup

theorem DistinctHandoffs.perm {handoffs handoffs' : List Handoff} (h : DistinctHandoffs handoffs)
    (hperm : handoffs.Perm handoffs') : DistinctHandoffs handoffs' :=
  ⟨(hperm.map _).nodup_iff.mp h.obligations, (hperm.map _).nodup_iff.mp h.retirements⟩

theorem map_obligationDigest_values {ledger : Ledger} (h : TablesAgree ledger) :
    ledger.handoffs.values.map Handoff.obligationDigest = ledger.handoffs.keys := by
  rw [OrderedMap.values, OrderedMap.keys, List.map_map]
  refine List.map_congr_left fun e he => ?_
  exact h.keyed e.1 e.2 (OrderedMap.get_eq_some_iff.mpr he)

theorem nodup_values {ledger : Ledger} (h : TablesAgree ledger) : ledger.handoffs.values.Nodup := by
  refine List.Nodup.of_map Handoff.obligationDigest ?_
  rw [map_obligationDigest_values h]
  exact ledger.handoffs.nodupKeys

/-- What differs from handoff to handoff is no value of a unique index. -/
theorem not_duplicates_of_ne {ledger : Ledger} (hunique : LedgerUnique ledger) {x y : Handoff}
    (hx : x ∈ ledger.handoffs.values) (hy : y ∈ ledger.handoffs.values) (hne : x ≠ y) :
    ¬ x.Duplicates y := by
  obtain ⟨d, hd⟩ := OrderedMap.mem_values_iff.mp hx
  obtain ⟨e, he⟩ := OrderedMap.mem_values_iff.mp hy
  refine hunique.distinct d e x y hd he ?_
  rintro rfl
  exact hne (Option.some.inj (hd.symm.trans he))

theorem distinctHandoffs_handoffsOf {ledger : Ledger} (htables : TablesAgree ledger)
    (hunique : LedgerUnique ledger) (storeId processId : String) :
    DistinctHandoffs (handoffsOf ledger storeId processId) := by
  have hnodup : (handoffsOf ledger storeId processId).Nodup := (nodup_values htables).filter _
  constructor
  · refine List.Sublist.nodup (List.filter_sublist.map _) ?_
    rw [map_obligationDigest_values htables]
    exact ledger.handoffs.nodupKeys
  · refine hnodup.map_on fun x hx y hy hxy => ?_
    by_contra hne
    refine not_duplicates_of_ne hunique (List.mem_of_mem_filter hx)
      (List.mem_of_mem_filter hy) hne ?_
    exact .inr (.inr (.inr (.inr (.inr (.inl hxy)))))

/-- **The rows that are read are those of the handoffs of the Process.** -/
theorem terminalRows_perm {ledger : Ledger} (htables : TablesAgree ledger)
    (hunique : LedgerUnique ledger) (storeId processId : String) :
    ((terminalRows ledger storeId processId).map Prod.fst).Perm
        (handoffsOf ledger storeId processId)
      ∧ ∀ row ∈ terminalRows ledger storeId processId,
        ∃ standing, rowStanding row.2 row.1 = .ok standing := by
  have hstanding : ∀ e ∈ ledger.handoffs.entries, ∃ row,
      ledger.standings.get e.1 = some row ∧ ∃ standing, rowStanding row e.2 = .ok standing := by
    intro e he
    have hget := OrderedMap.get_eq_some_iff.mpr he
    obtain ⟨row, hrow⟩ := htables.standing e.1 e.2 hget
    obtain ⟨standing, hparsed, -⟩ := rowStanding_of_stored htables hget hrow
    exact ⟨row, hrow, standing, hparsed⟩
  let joined := ledger.handoffs.entries.filterMap fun e =>
    (ledger.standings.get e.1).map fun row => (e.2, row)
  have hjoined : joined.map Prod.fst = ledger.handoffs.values := by
    have hall : ∀ es : List (Sha256Digest × Handoff), (∀ e ∈ es, e ∈ ledger.handoffs.entries) →
        (es.filterMap fun e => (ledger.standings.get e.1).map fun row => (e.2, row)).map Prod.fst
          = es.map Prod.snd := by
      intro es hes
      induction es with
      | nil => rfl
      | cons e es ih =>
        obtain ⟨row, hrow, -⟩ := hstanding e (hes e List.mem_cons_self)
        rw [List.filterMap_cons, hrow, Option.map_some, List.map_cons, List.map_cons,
          ih fun x hx => hes x (List.mem_cons_of_mem _ hx)]
    exact hall _ fun e he => he
  let selected := joined.filter fun c =>
    decide (c.1.owner.storeId = storeId) && decide (c.1.owner.processId = processId)
  have hselected : selected.map Prod.fst = handoffsOf ledger storeId processId := by
    rw [handoffsOf, ← hjoined, List.filter_map]
    rfl
  have hbounded : selected.length ≤ maximumHandoffs := by
    have hlength := congrArg List.length hselected
    rw [List.length_map] at hlength
    rw [hlength, handoffsOf]
    refine (List.length_filter_le _ _).trans ?_
    rw [OrderedMap.values, List.length_map]
    exact hunique.bounded
  have hrows : (terminalRows ledger storeId processId).Perm selected := by
    rw [show terminalRows ledger storeId processId
      = (selected.mergeSort fun a b => !binaryLt b.1.obligationDigest a.1.obligationDigest).take
        (maximumHandoffs + 1) from rfl, List.take_of_length_le]
    · exact List.mergeSort_perm _ _
    · rw [(List.mergeSort_perm _ _).length_eq]
      omega
  refine ⟨hselected ▸ hrows.map Prod.fst, fun row hrow => ?_⟩
  have hmem : row ∈ joined := List.mem_of_mem_filter (hrows.mem_iff.mp hrow)
  obtain ⟨e, he, hrow⟩ := List.mem_filterMap.mp hmem
  obtain ⟨stored, hstored, standing, hparsed⟩ := hstanding e he
  rw [hstored, Option.map_some, Option.some.injEq] at hrow
  exact ⟨standing, hrow ▸ hparsed⟩

/-! ## The correspondence -/

/-- **A subject reproduces a handoff**: its Retirement, its owner, and for an
execution Receipt its dispatch. -/
def MatchesReceipt (subject : TerminalSubject) (handoff : Handoff) : Prop :=
  handoff.retirementDigest = subject.retirementFactsDigest ∧ handoff.owner = subject.owner
    ∧ (subject.receipt.kind = .executionReceipt → handoff.dispatchAuthorityConsumed = true)

/-- An undispatched Agent handoff of the Activity of a refusal. -/
def Selects (refusal : PreIntentRefusal) (handoff : Handoff) : Prop :=
  Undispatched handoff ∧ handoff.owner.activityId = refusal.activityId

/-- **A refusal selects the unique undispatched Agent handoff of its Activity.** -/
def MatchesRefusal (handoffs : List Handoff) (refusal : PreIntentRefusal) (handoff : Handoff) :
    Prop :=
  Selects refusal handoff ∧ ∀ other ∈ handoffs, Selects refusal other → other = handoff

/-- **The exact correspondence** of subjects and refusals with the handoffs: the
handoffs are, in some order, one for each subject and one for each refusal. -/
def ExactCorrespondence (handoffs : List Handoff) (subjects : List TerminalSubject)
    (refusals : List PreIntentRefusal) : Prop :=
  ∃ received refused, (received ++ refused).Perm handoffs
    ∧ List.Forall₂ MatchesReceipt subjects received
    ∧ List.Forall₂ (MatchesRefusal handoffs) refusals refused

/-- The order of neither list matters. -/
theorem ExactCorrespondence.perm {handoffs handoffs' : List Handoff}
    {subjects subjects' : List TerminalSubject} {refusals refusals' : List PreIntentRefusal}
    (h : ExactCorrespondence handoffs subjects refusals) (hhandoffs : handoffs.Perm handoffs')
    (hsubjects : subjects'.Perm subjects) (hrefusals : refusals'.Perm refusals) :
    ExactCorrespondence handoffs' subjects' refusals' := by
  obtain ⟨received, refused, hperm, hreceived, hrefused⟩ := h
  obtain ⟨received', hreceived', hperm'⟩ := List.perm_comp_forall₂ hsubjects hreceived
  obtain ⟨refused', hrefused', hperm''⟩ := List.perm_comp_forall₂ hrefusals hrefused
  refine ⟨received', refused', (hperm'.append hperm'').trans (hperm.trans hhandoffs),
    hreceived', ?_⟩
  refine hrefused'.imp fun refusal handoff hmatch => ⟨hmatch.1, fun other hother => ?_⟩
  exact hmatch.2 other (hhandoffs.mem_iff.mpr hother)

/-! ## The index of the Retirements -/

/-- The index holds the handoff of each Retirement. -/
def Indexes (byRetirement : OrderedMap Sha256Digest Handoff) (handoffs : List Handoff) : Prop :=
  ∀ d h, byRetirement.get d = some h ↔ h ∈ handoffs ∧ h.retirementDigest = d

theorem replay_indexRetirement_iff {handoffs : List Handoff}
    {byRetirement : OrderedMap Sha256Digest Handoff} :
    replay indexRetirement ∅ handoffs = .ok byRetirement →
      (handoffs.map Handoff.retirementDigest).Nodup ∧ Indexes byRetirement handoffs := by
  induction handoffs using List.reverseRecOn generalizing byRetirement with
  | nil =>
    intro h
    rw [replay_nil, Except.ok.injEq] at h
    subst h
    exact ⟨.nil, fun d h => by simp⟩
  | append_singleton handoffs handoff ih =>
    intro h
    rw [replay_snoc_eq_ok] at h
    obtain ⟨before, hbefore, h⟩ := h
    obtain ⟨hnodup, hindexes⟩ := ih hbefore
    simp only [indexRetirement, bind_eq_ok, failIf_eq_ok, exists_unit, pure_eq_ok,
      Bool.not_eq_true, OrderedMap.has_eq_false_iff] at h
    obtain ⟨hnew, rfl⟩ := h
    constructor
    · rw [List.map_append, List.map_singleton, nodup_snoc]
      refine ⟨hnodup, fun hmem => ?_⟩
      obtain ⟨other, hother, hsame⟩ := List.mem_map.mp hmem
      exact absurd (((hindexes _ other).mpr ⟨hother, hsame⟩).symm.trans hnew) (by simp)
    · intro d h
      rw [OrderedMap.get_set, List.mem_append, List.mem_singleton]
      split
      · next hd =>
        constructor
        · intro heq
          obtain rfl := Option.some.inj heq
          exact ⟨.inr rfl, hd.symm⟩
        · rintro ⟨hmem | rfl, hret⟩
          · have hget := (hindexes d h).mpr ⟨hmem, hret⟩
            rw [hd, hnew] at hget
            cases hget
          · rfl
      · next hd =>
        rw [hindexes d h]
        constructor
        · rintro ⟨hmem, hret⟩
          exact ⟨.inl hmem, hret⟩
        · rintro ⟨hmem | rfl, hret⟩
          · exact ⟨hmem, hret⟩
          · exact absurd hret.symm hd

theorem exists_indexed {handoffs : List Handoff}
    (h : (handoffs.map Handoff.retirementDigest).Nodup) :
    ∃ byRetirement, replay indexRetirement ∅ handoffs = .ok byRetirement := by
  induction handoffs using List.reverseRecOn with
  | nil => exact ⟨∅, rfl⟩
  | append_singleton handoffs handoff ih =>
    rw [List.map_append, List.map_singleton, nodup_snoc] at h
    obtain ⟨before, hbefore⟩ := ih h.1
    refine ⟨_, replay_snoc_eq_ok.mpr ⟨before, hbefore, bind_eq_ok.mpr ⟨(), failIf_neg ?_, rfl⟩⟩⟩
    rw [Bool.not_eq_true, OrderedMap.has_eq_false_iff]
    by_contra hget
    obtain ⟨other, hother⟩ := Option.ne_none_iff_exists'.mp hget
    obtain ⟨hmem, hret⟩ := ((replay_indexRetirement_iff hbefore).2 _ _).mp hother
    exact h.2 (List.mem_map.mpr ⟨other, hmem, hret⟩)

/-! ## The Receipts -/

section Receipts

variable {byRetirement : OrderedMap Sha256Digest Handoff} {handoffs : List Handoff}

theorem matchSubject_eq_ok (hindex : Indexes byRetirement handoffs)
    {matched next : List Sha256Digest} {subject : TerminalSubject} :
    matchSubject byRetirement matched subject = .ok next
      ↔ ∃ handoff ∈ handoffs, MatchesReceipt subject handoff
        ∧ handoff.obligationDigest ∉ matched ∧ matched ++ [handoff.obligationDigest] = next := by
  simp only [matchSubject, bind_eq_ok, orFail_eq_ok, failIf_eq_ok, exists_unit, pure_eq_ok,
    hindex _ _, not_or, not_not, textOf_owner, not_and]
  constructor
  · rintro ⟨handoff, ⟨hmem, hret⟩, ⟨hnew, howner, hdispatch⟩, rfl⟩
    exact ⟨handoff, hmem, ⟨hret, howner, hdispatch⟩, hnew, rfl⟩
  · rintro ⟨handoff, hmem, ⟨hret, howner, hdispatch⟩, hnew, rfl⟩
    exact ⟨handoff, ⟨hmem, hret⟩, ⟨hnew, howner, hdispatch⟩, rfl⟩

/-- **Every subject takes the handoff of its Retirement**, none twice. -/
theorem replay_matchSubject_iff (hindex : Indexes byRetirement handoffs)
    {subjects : List TerminalSubject} {matched result : List Sha256Digest}
    (hmatched : matched.Nodup) :
    replay (matchSubject byRetirement) matched subjects = .ok result
      ↔ ∃ received, List.Forall₂ MatchesReceipt subjects received
        ∧ (∀ h ∈ received, h ∈ handoffs)
        ∧ (matched ++ received.map Handoff.obligationDigest).Nodup
        ∧ matched ++ received.map Handoff.obligationDigest = result := by
  induction subjects generalizing matched with
  | nil =>
    rw [replay_nil, Except.ok.injEq]
    constructor
    · rintro rfl
      refine ⟨[], .nil, fun h hh => absurd hh List.not_mem_nil, ?_, ?_⟩
      · rwa [List.map_nil, List.append_nil]
      · rw [List.map_nil, List.append_nil]
    · rintro ⟨received, hreceived, -, -, rfl⟩
      rw [List.forall₂_nil_left_iff.mp hreceived, List.map_nil, List.append_nil]
  | cons subject subjects ih =>
    rw [replay_cons, bind_eq_ok]
    constructor
    · rintro ⟨next, hnext, hrest⟩
      obtain ⟨handoff, hmem, hmatch, hnew, rfl⟩ := (matchSubject_eq_ok hindex).mp hnext
      obtain ⟨received, hreceived, hheld, hnodup, rfl⟩ :=
        (ih (nodup_snoc.mpr ⟨hmatched, hnew⟩)).mp hrest
      rw [List.append_assoc] at hnodup
      refine ⟨handoff :: received, .cons hmatch hreceived,
        List.forall_mem_cons.mpr ⟨hmem, hheld⟩, hnodup, ?_⟩
      rw [List.append_assoc]
      rfl
    · rintro ⟨received, hreceived, hheld, hnodup, rfl⟩
      obtain ⟨handoff, rest, hmatch, hrest, rfl⟩ := List.forall₂_cons_left_iff.mp hreceived
      obtain ⟨hmem, hheld⟩ := List.forall_mem_cons.mp hheld
      have hassoc : matched ++ (handoff :: rest).map Handoff.obligationDigest
          = (matched ++ [handoff.obligationDigest]) ++ rest.map Handoff.obligationDigest := by
        rw [List.append_assoc]
        rfl
      rw [hassoc] at hnodup
      have hnew := List.Nodup.of_append_left hnodup
      refine ⟨matched ++ [handoff.obligationDigest], ?_, ?_⟩
      · exact (matchSubject_eq_ok hindex).mpr
          ⟨handoff, hmem, hmatch, (nodup_snoc.mp hnew).2, rfl⟩
      · exact (ih hnew).mpr ⟨rest, hrest, hheld, hnodup, hassoc.symm⟩

end Receipts

/-! ## The refusals -/

/-- The handoffs a refusal of an Activity may select. -/
def undispatchedOf (matched : List Sha256Digest) (handoffs : List Handoff) (activityId : String) :
    List Handoff :=
  handoffs.filter fun h => decide (h.obligationDigest ∉ matched ∧ Undispatched h)
    && decide (h.owner.activityId = activityId)

theorem get_foldl_groupUndispatched {matched : List Sha256Digest} {activityId : String}
    (handoffs : List Handoff) (groups : OrderedMap String (List Handoff)) :
    ((handoffs.foldl (groupUndispatched matched) groups).get activityId).getD []
      = (groups.get activityId).getD [] ++ undispatchedOf matched handoffs activityId := by
  induction handoffs generalizing groups with
  | nil => exact (List.append_nil _).symm
  | cons handoff handoffs ih =>
    rw [List.foldl_cons, ih, groupUndispatched, undispatchedOf, undispatchedOf, List.filter_cons]
    split
    · next hfree =>
      rw [OrderedMap.get_set]
      by_cases hactivity : activityId = handoff.owner.activityId
      · rw [if_pos hactivity, if_pos (by simp [hfree, hactivity]), hactivity, Option.getD_some,
          List.append_assoc]
        rfl
      · rw [if_neg hactivity, if_neg]
        rw [Bool.and_eq_true, decide_eq_true_eq, decide_eq_true_eq]
        exact fun h => hactivity h.2.symm
    · next hfree =>
      rw [if_neg]
      rw [Bool.and_eq_true, decide_eq_true_eq, decide_eq_true_eq]
      exact fun h => hfree h.1

theorem matchRefusal_eq_ok {matched : List Sha256Digest} {groups : OrderedMap String (List Handoff)}
    {refusal : PreIntentRefusal} {state : List Sha256Digest × OrderedMap String (List Handoff)} :
    matchRefusal (matched, groups) refusal = .ok state
      ↔ ∃ handoff, (groups.get refusal.activityId).getD [] = [handoff]
        ∧ (addObligation matched handoff, groups.erase refusal.activityId) = state := by
  rw [matchRefusal]
  split
  · next handoff hgroup =>
    rw [Except.ok.injEq]
    constructor
    · exact fun h => ⟨handoff, hgroup, h⟩
    · rintro ⟨other, hother, h⟩
      obtain rfl : handoff = other := (List.cons.inj (hgroup.symm.trans hother)).1
      exact h
  · next hgroup =>
    constructor
    · intro h
      cases h
    · rintro ⟨handoff, hhandoff, -⟩
      exact absurd hhandoff (hgroup handoff)

/-- **Every refusal takes the one handoff of its Activity**, no Activity twice. -/
theorem replay_matchRefusal_iff {refusals : List PreIntentRefusal}
    {matched result : List Sha256Digest} {groups : OrderedMap String (List Handoff)} :
    (∃ rest, replay matchRefusal (matched, groups) refusals = .ok (result, rest))
      ↔ ∃ refused, List.Forall₂
          (fun r h => (groups.get r.activityId).getD [] = [h]) refusals refused
        ∧ (refusals.map PreIntentRefusal.activityId).Nodup
        ∧ refused.foldl addObligation matched = result := by
  induction refusals generalizing matched groups with
  | nil =>
    simp only [replay_nil, Except.ok.injEq, Prod.mk.injEq, List.forall₂_nil_left_iff]
    constructor
    · rintro ⟨_, rfl, -⟩
      exact ⟨[], rfl, .nil, rfl⟩
    · rintro ⟨_, rfl, -, rfl⟩
      exact ⟨groups, rfl, rfl⟩
  | cons refusal refusals ih =>
    -- what is left of the groups has none for the Activity that was selected
    have herased : ∀ refused, List.Forall₂ (fun r h =>
          ((groups.erase refusal.activityId).get r.activityId).getD [] = [h]) refusals refused
        ↔ (∀ r ∈ refusals, r.activityId ≠ refusal.activityId)
          ∧ List.Forall₂ (fun r h => (groups.get r.activityId).getD [] = [h]) refusals refused := by
      intro refused
      rw [← List.forall₂_and_left]
      have hone : ∀ (r : PreIntentRefusal) (h : Handoff),
          ((groups.erase refusal.activityId).get r.activityId).getD [] = [h]
            ↔ r.activityId ≠ refusal.activityId ∧ (groups.get r.activityId).getD [] = [h] := by
        intro r h
        rw [OrderedMap.get_erase]
        by_cases hsame : r.activityId = refusal.activityId
        · simp [hsame]
        · simp [hsame]
      simp only [hone]
    constructor
    · rintro ⟨rest, hrun⟩
      rw [replay_cons, bind_eq_ok] at hrun
      obtain ⟨state, hstate, hrun⟩ := hrun
      obtain ⟨handoff, hgroup, rfl⟩ := matchRefusal_eq_ok.mp hstate
      obtain ⟨refused, hrefused, hnodup, rfl⟩ := ih.mp ⟨rest, hrun⟩
      obtain ⟨hother, hrefused⟩ := (herased refused).mp hrefused
      refine ⟨handoff :: refused, .cons hgroup hrefused, ?_, rfl⟩
      rw [List.map_cons, List.nodup_cons]
      refine ⟨fun hmem => ?_, hnodup⟩
      obtain ⟨r, hr, hsame⟩ := List.mem_map.mp hmem
      exact hother r hr hsame
    · rintro ⟨refused, hrefused, hnodup, rfl⟩
      obtain ⟨handoff, tail, hgroup, htail, rfl⟩ := List.forall₂_cons_left_iff.mp hrefused
      rw [List.map_cons, List.nodup_cons] at hnodup
      have hother : ∀ r ∈ refusals, r.activityId ≠ refusal.activityId :=
        fun r hr hsame => hnodup.1 (List.mem_map.mpr ⟨r, hr, hsame⟩)
      have htail := (herased tail).mpr ⟨hother, htail⟩
      obtain ⟨rest, hrun⟩ := ih.mpr ⟨tail, htail, hnodup.2, rfl⟩
      refine ⟨rest, ?_⟩
      rw [replay_cons, bind_eq_ok]
      exact ⟨_, matchRefusal_eq_ok.mpr ⟨handoff, hgroup, rfl⟩, hrun⟩

theorem foldl_addObligation {matched : List Sha256Digest} {refused : List Handoff}
    (h : (matched ++ refused.map Handoff.obligationDigest).Nodup) :
    refused.foldl addObligation matched = matched ++ refused.map Handoff.obligationDigest := by
  induction refused generalizing matched with
  | nil => exact (List.append_nil matched).symm
  | cons handoff refused ih =>
    have hassoc : matched ++ (handoff :: refused).map Handoff.obligationDigest
        = (matched ++ [handoff.obligationDigest]) ++ refused.map Handoff.obligationDigest := by
      rw [List.append_assoc]
      rfl
    rw [hassoc] at h ⊢
    have hnew := (nodup_snoc.mp (List.Nodup.of_append_left h)).2
    rw [List.foldl_cons, addObligation, if_neg hnew, ih h]

/-! ## The matching finds the correspondence -/

theorem filter_eq_singleton {α : Type} {l : List α} {p : α → Bool} {a : α} (hl : l.Nodup)
    (ha : a ∈ l) (hp : p a = true) (hunique : ∀ b ∈ l, p b = true → b = a) : l.filter p = [a] := by
  refine List.perm_singleton.mp ?_
  refine (List.perm_ext_iff_of_nodup (hl.filter p) (List.nodup_singleton a)).mpr fun b => ?_
  rw [List.mem_filter, List.mem_singleton]
  constructor
  · exact fun h => hunique b h.1 h.2
  · rintro rfl
    exact ⟨ha, hp⟩

section Matching

variable {handoffs : List Handoff} {subjects : List TerminalSubject}
  {refusals : List PreIntentRefusal}

/-- **No Receipt takes what a refusal selects.** -/
theorem MatchesReceipt.not_undispatched {subject : TerminalSubject} {handoff : Handoff}
    (h : MatchesReceipt subject handoff) (hkind : subject.receipt.kind.owner = subject.owner.kind) :
    ¬ Undispatched handoff := by
  rintro ⟨hagent, hdispatch⟩
  have hreceipt : subject.receipt.kind = .executionReceipt := by
    rw [h.2.1, ← hkind] at hagent
    cases hk : subject.receipt.kind with
    | executionReceipt => rfl
    | checkReceipt =>
      rw [hk] at hagent
      cases hagent
  exact absurd (h.2.2 hreceipt) (by rw [hdispatch]; exact Bool.false_ne_true)

theorem mem_undispatchedOf {matched : List Sha256Digest} {activityId : String} {handoff : Handoff} :
    handoff ∈ undispatchedOf matched handoffs activityId
      ↔ handoff ∈ handoffs ∧ handoff.obligationDigest ∉ matched ∧ Undispatched handoff
        ∧ handoff.owner.activityId = activityId := by
  rw [undispatchedOf, List.mem_filter, Bool.and_eq_true, decide_eq_true_eq, decide_eq_true_eq,
    and_assoc]

theorem map_activityId_eq {refused : List Handoff} {R : PreIntentRefusal → Handoff → Prop}
    (hR : ∀ r h, R r h → h.owner.activityId = r.activityId)
    (h : List.Forall₂ R refusals refused) :
    refused.map (fun h => h.owner.activityId) = refusals.map PreIntentRefusal.activityId := by
  induction h with
  | nil => rfl
  | @cons r h refusals refused hrh _ ih => rw [List.map_cons, List.map_cons, hR r h hrh, ih]

/-- The undispatched handoffs of an Activity, when no Receipt took one, are those
a refusal selects. -/
theorem ExactCorrespondence.of_matched (hdistinct : DistinctHandoffs handoffs)
    (hkinds : ∀ s ∈ subjects, s.receipt.kind.owner = s.owner.kind) {received refused : List Handoff}
    (hreceived : List.Forall₂ MatchesReceipt subjects received)
    (hheld : ∀ h ∈ received, h ∈ handoffs)
    (hnodup : (received.map Handoff.obligationDigest).Nodup)
    (hrefused : List.Forall₂ (fun r h => undispatchedOf (received.map Handoff.obligationDigest)
      handoffs r.activityId = [h]) refusals refused)
    (hactivities : (refusals.map PreIntentRefusal.activityId).Nodup)
    (hlength : subjects.length + refusals.length = handoffs.length) :
    ExactCorrespondence handoffs subjects refusals := by
  have hselected : ∀ r h, undispatchedOf (received.map Handoff.obligationDigest) handoffs
      r.activityId = [h] → h ∈ handoffs
        ∧ h.obligationDigest ∉ received.map Handoff.obligationDigest ∧ Selects r h := by
    intro r h hone
    obtain ⟨hmem, hfree, hundispatched, hactivity⟩ :=
      mem_undispatchedOf.mp (hone ▸ List.mem_singleton_self h)
    exact ⟨hmem, hfree, hundispatched, hactivity⟩
  have hinj := List.inj_on_of_nodup_map hdistinct.obligations
  have hrefusedMem : ∀ h ∈ refused, h ∈ handoffs
      ∧ h.obligationDigest ∉ received.map Handoff.obligationDigest := by
    intro h hh
    obtain ⟨r, -, hone⟩ := exists_of_forall₂ hrefused hh
    exact ⟨(hselected r h hone).1, (hselected r h hone).2.1⟩
  have hrefusedNodup : refused.Nodup := by
    refine List.Nodup.of_map (fun h => h.owner.activityId) ?_
    rwa [map_activityId_eq (fun r h hone => (hselected r h hone).2.2.2) hrefused]
  have hallNodup : (received ++ refused).Nodup := by
    refine List.nodup_append.mpr ⟨List.Nodup.of_map _ hnodup, hrefusedNodup, ?_⟩
    rintro x hx y hy rfl
    exact (hrefusedMem x hy).2 (List.mem_map_of_mem hx)
  refine ⟨received, refused, ?_, hreceived, hrefused.imp fun r h hone => ?_⟩
  · refine (List.subperm_of_subset hallNodup ?_).perm_of_length_le ?_
    · intro h hh
      obtain hh | hh := List.mem_append.mp hh
      · exact hheld h hh
      · exact (hrefusedMem h hh).1
    · rw [List.length_append, ← hreceived.length_eq, ← hrefused.length_eq, hlength]
  · refine ⟨(hselected r h hone).2.2, fun other hother hselects => ?_⟩
    -- what a Receipt took is dispatched, or is of a Check
    have hfree : other.obligationDigest ∉ received.map Handoff.obligationDigest := by
      intro htaken
      obtain ⟨x, hx, hsame⟩ := List.mem_map.mp htaken
      obtain ⟨s, hs, hmatch⟩ := exists_of_forall₂ hreceived hx
      rw [hinj (hheld x hx) hother hsame] at hmatch
      exact hmatch.not_undispatched (hkinds s hs) hselects.1
    have hmem := mem_undispatchedOf.mpr ⟨hother, hfree, hselects.1, hselects.2⟩
    rw [hone] at hmem
    exact List.mem_singleton.mp hmem

/-- A correspondence is one the matching runs into. -/
theorem ExactCorrespondence.matched (hdistinct : DistinctHandoffs handoffs)
    {received refused : List Handoff} (hperm : (received ++ refused).Perm handoffs)
    (hrefused : List.Forall₂ (MatchesRefusal handoffs) refusals refused) :
    List.Forall₂ (fun r h => undispatchedOf (received.map Handoff.obligationDigest)
        handoffs r.activityId = [h]) refusals refused
      ∧ (refusals.map PreIntentRefusal.activityId).Nodup
      ∧ ((received ++ refused).map Handoff.obligationDigest).Nodup := by
  have hallNodup := (hperm.map Handoff.obligationDigest).nodup_iff.mpr hdistinct.obligations
  have hsplit := hallNodup
  rw [List.map_append] at hsplit
  refine ⟨?_, ?_, hallNodup⟩
  · rw [List.forall₂_iff_zip] at hrefused ⊢
    refine ⟨hrefused.1, fun {r h} hzip => ?_⟩
    obtain ⟨hselects, hunique⟩ := hrefused.2 hzip
    have hh : h ∈ refused := (List.of_mem_zip hzip).2
    have hmem : h ∈ handoffs := hperm.mem_iff.mp (List.mem_append_right _ hh)
    have hfree : h.obligationDigest ∉ received.map Handoff.obligationDigest :=
      fun htaken => (List.nodup_append.mp hsplit).2.2 _ htaken _ (List.mem_map_of_mem hh) rfl
    refine filter_eq_singleton (List.Nodup.of_map _ hdistinct.obligations) hmem ?_ ?_
    · rw [Bool.and_eq_true, decide_eq_true_eq, decide_eq_true_eq]
      exact ⟨⟨hfree, hselects.1⟩, hselects.2⟩
    · intro other hother hpicked
      rw [Bool.and_eq_true, decide_eq_true_eq, decide_eq_true_eq] at hpicked
      exact hunique other hother ⟨hpicked.1.2, hpicked.2⟩
  · rw [← map_activityId_eq (fun r h hmatch => hmatch.1.2) hrefused]
    have hnodup : refused.Nodup :=
      List.Nodup.of_map _ (List.nodup_append.mp hsplit).2.1
    refine hnodup.map_on fun x hx y hy hsame => ?_
    obtain ⟨r, -, hselects, hunique⟩ := exists_of_forall₂ hrefused hx
    obtain ⟨r', -, hselects', -⟩ := exists_of_forall₂ hrefused hy
    refine (hunique y (hperm.mem_iff.mp (List.mem_append_right _ hy)) ⟨hselects'.1, ?_⟩).symm
    exact hsame.symm.trans hselects.2

/-- **The greedy matching succeeds exactly where there is a correspondence.** -/
theorem matchTerminal_iff (hdistinct : DistinctHandoffs handoffs)
    (hkinds : ∀ s ∈ subjects, s.receipt.kind.owner = s.owner.kind) :
    matchTerminal handoffs subjects refusals = .ok ()
      ↔ ExactCorrespondence handoffs subjects refusals := by
  have hgroups : ∀ (matched : List Sha256Digest) (a : String),
      ((handoffs.foldl (groupUndispatched matched) ∅).get a).getD []
        = undispatchedOf matched handoffs a := by
    intro matched a
    rw [get_foldl_groupUndispatched, OrderedMap.get_empty]
    rfl
  simp only [matchTerminal, bind_eq_ok, failIf_eq_ok, not_or, not_not]
  constructor
  · rintro ⟨byRetirement, hindex, matched, hmatched, ⟨result, rest⟩, hrun, -, hlength⟩
    obtain ⟨-, hindexes⟩ := replay_indexRetirement_iff hindex
    obtain ⟨received, hreceived, hheld, hnodup, rfl⟩ :=
      (replay_matchSubject_iff hindexes .nil).mp hmatched
    rw [List.nil_append] at hnodup hrun
    obtain ⟨refused, hrefused, hactivities, -⟩ := replay_matchRefusal_iff.mp ⟨rest, hrun⟩
    simp only [hgroups] at hrefused
    exact .of_matched hdistinct hkinds hreceived hheld hnodup hrefused hactivities hlength
  · rintro ⟨received, refused, hperm, hreceived, hrefused⟩
    obtain ⟨hone, hactivities, hnodup⟩ := ExactCorrespondence.matched hdistinct hperm hrefused
    rw [List.map_append] at hnodup
    obtain ⟨byRetirement, hindex⟩ := exists_indexed hdistinct.retirements
    obtain ⟨-, hindexes⟩ := replay_indexRetirement_iff hindex
    have hmatched : replay (matchSubject byRetirement) [] subjects
        = .ok (received.map Handoff.obligationDigest) :=
      (replay_matchSubject_iff hindexes .nil).mpr ⟨received, hreceived,
        fun h hh => hperm.mem_iff.mp (List.mem_append_left _ hh),
        (List.nodup_append.mp hnodup).1, List.nil_append _⟩
    have hgrouped : List.Forall₂ (fun r h =>
        ((handoffs.foldl (groupUndispatched (received.map Handoff.obligationDigest)) ∅).get
          r.activityId).getD [] = [h]) refusals refused := by
      simp only [hgroups]
      exact hone
    obtain ⟨rest, hrun⟩ := replay_matchRefusal_iff.mpr
      ⟨refused, hgrouped, hactivities, foldl_addObligation hnodup⟩
    have hlength := hperm.length_eq
    rw [List.length_append] at hlength
    refine ⟨byRetirement, hindex, _, hmatched, _, hrun, ?_, ?_⟩
    · rw [List.length_append, List.length_map, List.length_map, hlength]
    · rw [hreceived.length_eq, hrefused.length_eq, hlength]

end Matching

/-! ## The verification -/

/-- **What is tested of the inputs alone**: identities, digests and positive
numbers, no Receipt twice, and no coordinate of a refusal event twice. -/
structure ExactInputs (storeId processId : String) (subjects : List TerminalSubject)
    (refusals : List PreIntentRefusal) : Prop where
  store : isIdentifier storeId = true
  process : isIdentifier processId = true
  wellFormed : ∀ s ∈ subjects, WellFormedSubject storeId processId s
  selectors : ∀ r ∈ refusals, WellFormedRefusal r
  receipts : (subjects.map TerminalSubject.receipt).Nodup
  sequences : (refusals.map fun r => r.event.sequence).Nodup
  eventIds : (refusals.map fun r => r.event.eventId).Nodup
  digests : (refusals.map fun r => r.event.digest).Nodup

theorem exists_digestCanonical {value : Json} (h : value.Plain) :
    ∃ d, digestCanonical value = .ok d := by
  obtain ⟨text, htext, -⟩ := exists_text_of_plain h
  exact ⟨sha256Bytes text, bind_eq_ok.mpr ⟨text, htext, rfl⟩⟩

theorem plainItems_of_forall {values : List Json} (h : ∀ v ∈ values, v.Plain) :
    PlainItems values := by
  induction values with
  | nil => trivial
  | cons v vs ih => exact ⟨h v List.mem_cons_self, ih fun w hw => h w (List.mem_cons_of_mem _ hw)⟩

theorem identifier_eq_ok {value label out : String} :
    identifier value label = .ok out ↔ isIdentifier value = true ∧ value = out := by
  simp only [identifier, bind_eq_ok, failIf_eq_ok, exists_unit, pure_eq_ok, Bool.not_eq_false]

theorem plain_subjectSet {storeId processId : String} {subjects : List TerminalSubject}
    (h : ∀ s ∈ subjects, WellFormedSubject storeId processId s) :
    (subjectSet storeId processId subjects).Plain := by
  have hselectors : ∀ v ∈ sortWith textLe (subjects.map TerminalSubject.selector), v.Plain := by
    intro v hv
    obtain ⟨s, hs, rfl⟩ := List.mem_map.mp (mem_sortWith.mp hv)
    exact plain_selector (h s hs).revision.2
  exact ⟨⟨trivial, trivial, trivial, plainItems_of_forall hselectors, trivial⟩,
    inOrder_names.2.2.1⟩

theorem plain_refusalSet {storeId processId : String} {refusals : List PreIntentRefusal}
    (h : ∀ r ∈ refusals, WellFormedRefusal r) :
    (refusalSet storeId processId refusals).Plain := by
  have hvalues : ∀ v ∈ refusals.map PreIntentRefusal.value, v.Plain := by
    intro v hv
    obtain ⟨r, hr, rfl⟩ := List.mem_map.mp hv
    exact plain_refusal (h r hr).sequence.2
  exact ⟨⟨plainItems_of_forall hvalues, trivial, trivial, trivial, trivial⟩,
    inOrder_names.2.2.2.1⟩

theorem plain_obligationSet (digests : List Sha256Digest) : (obligationSet digests).Plain := by
  have hvalues : ∀ v ∈ digests.map Json.string, v.Plain := by
    intro v hv
    obtain ⟨d, -, rfl⟩ := List.mem_map.mp hv
    trivial
  exact ⟨⟨plainItems_of_forall hvalues, trivial, trivial⟩, inOrder_names.2.2.2.2⟩

theorem exists_terminalSubjectSetDigest {storeId processId : String}
    {subjects : List TerminalSubject} (hstore : isIdentifier storeId = true)
    (hprocess : isIdentifier processId = true)
    (h : SubjectsAdmitted storeId processId subjects) :
    ∃ d, terminalSubjectSetDigest storeId processId subjects = .ok d := by
  have hplain : (subjectSet storeId processId (sortSubjects subjects)).Plain :=
    plain_subjectSet fun s hs => h.wellFormed s (mem_sortWith.mp hs)
  obtain ⟨d, hd⟩ := exists_digestCanonical hplain
  refine ⟨d, ?_⟩
  refine bind_eq_ok.mpr ⟨storeId, identifier_eq_ok.mpr ⟨hstore, rfl⟩, ?_⟩
  refine bind_eq_ok.mpr ⟨processId, identifier_eq_ok.mpr ⟨hprocess, rfl⟩, ?_⟩
  exact bind_eq_ok.mpr ⟨_, normalizedTerminalSubjects_iff.mpr ⟨h, rfl⟩, hd⟩

theorem exists_preIntentRefusalSetDigest {storeId processId : String}
    {refusals : List PreIntentRefusal} (hstore : isIdentifier storeId = true)
    (hprocess : isIdentifier processId = true) (h : RefusalsAdmitted refusals) :
    ∃ d, preIntentRefusalSetDigest storeId processId refusals = .ok d := by
  have hplain : (refusalSet storeId processId (sortRefusals refusals)).Plain :=
    plain_refusalSet fun r hr => h.wellFormed r (mem_sortWith.mp hr)
  obtain ⟨d, hd⟩ := exists_digestCanonical hplain
  refine ⟨d, ?_⟩
  refine bind_eq_ok.mpr ⟨storeId, identifier_eq_ok.mpr ⟨hstore, rfl⟩, ?_⟩
  refine bind_eq_ok.mpr ⟨processId, identifier_eq_ok.mpr ⟨hprocess, rfl⟩, ?_⟩
  exact bind_eq_ok.mpr ⟨_, normalizedPreIntentRefusals_iff.mpr ⟨h, rfl⟩, hd⟩

/-- **What the correspondence refuses already**: a repeated Retirement, Agent
owner or Activity, and lists longer than the ledger. -/
theorem ExactInputs.admitted {ledger : Ledger} {storeId processId : String}
    {subjects : List TerminalSubject} {refusals : List PreIntentRefusal}
    (hunique : LedgerUnique ledger) (htables : TablesAgree ledger)
    (hinputs : ExactInputs storeId processId subjects refusals)
    (hexact : ExactCorrespondence (handoffsOf ledger storeId processId) subjects refusals) :
    SubjectsAdmitted storeId processId subjects ∧ RefusalsAdmitted refusals := by
  have hdistinct := distinctHandoffs_handoffsOf htables hunique storeId processId
  obtain ⟨received, refused, hperm, hreceived, hrefused⟩ := hexact
  have hactivities := (ExactCorrespondence.matched hdistinct hperm hrefused).2.1
  have hlength : received.length + refused.length ≤ maximumHandoffs := by
    rw [← List.length_append, hperm.length_eq, handoffsOf]
    refine (List.length_filter_le _ _).trans ?_
    rw [OrderedMap.values, List.length_map]
    exact hunique.bounded
  have hheld : ∀ h ∈ received, h ∈ ledger.handoffs.values := fun h hh =>
    List.mem_of_mem_filter (hperm.mem_iff.mp (List.mem_append_left _ hh))
  have hnodup : received.Nodup := by
    have hall := hperm.nodup_iff.mpr (List.Nodup.of_map _ hdistinct.obligations)
    exact (List.nodup_append.mp hall).1
  have hretirements : subjects.map TerminalSubject.retirementFactsDigest
      = received.map Handoff.retirementDigest := by
    clear hperm hlength hheld hnodup hinputs
    induction hreceived with
    | nil => rfl
    | cons hmatch _ ih => rw [List.map_cons, List.map_cons, ih, hmatch.1]
  have howners : subjects.map TerminalSubject.owner = received.map Handoff.owner := by
    clear hperm hlength hheld hnodup hinputs hretirements
    induction hreceived with
    | nil => rfl
    | cons hmatch _ ih => rw [List.map_cons, List.map_cons, ih, hmatch.2.1]
  constructor
  · refine ⟨?_, hinputs.wellFormed, hinputs.receipts, ?_, ?_⟩
    · rw [hreceived.length_eq]
      omega
    · rw [hretirements]
      exact List.Nodup.sublist ((List.sublist_append_left received refused).map _)
        ((hperm.map _).nodup_iff.mpr hdistinct.retirements)
    · have hagents : (subjects.filter fun s => s.owner.kind = .agentAttempt).map
            TerminalSubject.owner
          = (received.filter fun h => h.owner.kind = .agentAttempt).map Handoff.owner := by
        have hfiltered := congrArg
          (List.filter fun o : Owner => decide (o.kind = .agentAttempt)) howners
        rw [List.filter_map, List.filter_map] at hfiltered
        exact hfiltered
      rw [hagents]
      refine (hnodup.filter _).map_on fun x hx y hy hsame => ?_
      have hx' := List.mem_filter.mp hx
      have hy' := List.mem_filter.mp hy
      by_contra hne
      refine not_duplicates_of_ne hunique (hheld x hx'.1) (hheld y hy'.1) hne ?_
      refine .inr (.inr (.inr (.inr (.inr (.inr ⟨?_, ?_, ?_⟩)))))
      · exact of_decide_eq_true hx'.2
      · exact of_decide_eq_true hy'.2
      · rw [hsame]
        exact ⟨rfl, rfl, rfl, rfl⟩
  · refine ⟨?_, hinputs.selectors, hinputs.sequences, hinputs.eventIds, hinputs.digests,
      hactivities⟩
    rw [hrefused.length_eq]
    omega

/-- The rows of a Process parse to its handoffs. -/
theorem exists_terminalHandoffs {ledger : Ledger} (htables : TablesAgree ledger)
    (hunique : LedgerUnique ledger) (storeId processId : String) :
    (terminalRows ledger storeId processId).length ≤ maximumHandoffs
      ∧ ∃ handoffs, (terminalRows ledger storeId processId).mapM rowTerminalHandoff = .ok handoffs
        ∧ handoffs.Perm (handoffsOf ledger storeId processId) := by
  obtain ⟨hperm, hparsed⟩ := terminalRows_perm htables hunique storeId processId
  constructor
  · have hlength := hperm.length_eq
    rw [List.length_map] at hlength
    rw [hlength, handoffsOf]
    refine (List.length_filter_le _ _).trans ?_
    rw [OrderedMap.values, List.length_map]
    exact hunique.bounded
  · refine ⟨(terminalRows ledger storeId processId).map Prod.fst, ?_, hperm⟩
    rw [mapM_eq_ok_iff, List.forall₂_map_right_iff, List.forall₂_same]
    intro row hrow
    obtain ⟨standing, hstanding⟩ := hparsed row hrow
    exact bind_eq_ok.mpr ⟨standing, hstanding, rfl⟩

/-- **What a verification has established**, and where it returns. -/
theorem exists_verified_iff {ledger : Ledger} (htables : TablesAgree ledger)
    (hunique : LedgerUnique ledger) (storeId processId : String) (subjects : List TerminalSubject)
    (refusals : List PreIntentRefusal) :
    (∃ verification,
        verifyTerminalSubjects ledger storeId processId subjects refusals = .ok verification)
      ↔ ExactInputs storeId processId subjects refusals
        ∧ ExactCorrespondence (handoffsOf ledger storeId processId) subjects refusals := by
  obtain ⟨hrows, handoffs, hhandoffs, hperm⟩ :=
    exists_terminalHandoffs htables hunique storeId processId
  have hdistinct : DistinctHandoffs handoffs :=
    (distinctHandoffs_handoffsOf htables hunique storeId processId).perm hperm.symm
  have hsubjects : (sortSubjects subjects).Perm subjects := perm_sortWith _ subjects
  have hrefusals : (sortRefusals refusals).Perm refusals := perm_sortWith _ refusals
  have hmatching (h : SubjectsAdmitted storeId processId subjects) :
      matchTerminal handoffs (sortSubjects subjects) (sortRefusals refusals) = .ok ()
        ↔ ExactCorrespondence (handoffsOf ledger storeId processId) subjects refusals := by
    rw [matchTerminal_iff hdistinct fun s hs => (h.wellFormed s (hsubjects.mem_iff.mp hs)).kind]
    constructor
    · exact fun hexact => hexact.perm hperm hsubjects.symm hrefusals.symm
    · exact fun hexact => hexact.perm hperm.symm hsubjects hrefusals
  constructor
  · rintro ⟨verification, h⟩
    simp only [verifyTerminalSubjects, bind_eq_ok, identifier_eq_ok, failIf_eq_ok,
      normalizedTerminalSubjects_iff, normalizedPreIntentRefusals_iff, exists_unit] at h
    obtain ⟨_, ⟨hstore, rfl⟩, _, ⟨hprocess, rfl⟩, _, ⟨hadmitted, rfl⟩, _, ⟨hselectors, rfl⟩, -, _,
      hsame, hmatched, -⟩ := h
    obtain rfl := Except.ok.inj (hhandoffs.symm.trans hsame)
    exact ⟨⟨hstore, hprocess, hadmitted.wellFormed, hselectors.wellFormed, hadmitted.receipts,
      hselectors.sequences, hselectors.eventIds, hselectors.digests⟩,
      (hmatching hadmitted).mp hmatched⟩
  · rintro ⟨hinputs, hexact⟩
    obtain ⟨hadmitted, hselectors⟩ := hinputs.admitted hunique htables hexact
    obtain ⟨d, hd⟩ := exists_terminalSubjectSetDigest hinputs.store hinputs.process
      (hadmitted.perm hsubjects.symm)
    obtain ⟨e, he⟩ := exists_preIntentRefusalSetDigest hinputs.store hinputs.process
      (hselectors.perm hrefusals.symm)
    obtain ⟨o, ho⟩ := exists_digestCanonical
      (plain_obligationSet (sortWith codePointLe (handoffs.map Handoff.obligationDigest)))
    refine ⟨⟨d, (sortSubjects subjects).length, e, (sortRefusals refusals).length, o,
      (sortWith codePointLe (handoffs.map Handoff.obligationDigest)).length⟩, ?_⟩
    refine bind_eq_ok.mpr ⟨storeId, identifier_eq_ok.mpr ⟨hinputs.store, rfl⟩, ?_⟩
    refine bind_eq_ok.mpr ⟨processId, identifier_eq_ok.mpr ⟨hinputs.process, rfl⟩, ?_⟩
    refine bind_eq_ok.mpr ⟨_, normalizedTerminalSubjects_iff.mpr ⟨hadmitted, rfl⟩, ?_⟩
    refine bind_eq_ok.mpr ⟨_, normalizedPreIntentRefusals_iff.mpr ⟨hselectors, rfl⟩, ?_⟩
    refine bind_eq_ok.mpr ⟨(), failIf_neg (Nat.not_lt.mpr hrows), ?_⟩
    refine bind_eq_ok.mpr ⟨handoffs, hhandoffs, ?_⟩
    refine bind_eq_ok.mpr ⟨(), (hmatching hadmitted).mpr hexact, ?_⟩
    exact bind_eq_ok.mpr ⟨d, hd, bind_eq_ok.mpr ⟨e, he, bind_eq_ok.mpr ⟨o, ho, rfl⟩⟩⟩

/-- **The order of the inputs leaves no trace** in what is verified. -/
theorem verified_of_perm {ledger : Ledger} {storeId processId : String}
    {subjects subjects' : List TerminalSubject} {refusals refusals' : List PreIntentRefusal}
    {verification : TerminalVerification} (hsubjects : subjects.Perm subjects')
    (hrefusals : refusals.Perm refusals')
    (h : verifyTerminalSubjects ledger storeId processId subjects refusals = .ok verification) :
    verifyTerminalSubjects ledger storeId processId subjects' refusals' = .ok verification := by
  rw [verifyTerminalSubjects, bind_eq_ok] at h ⊢
  obtain ⟨store, hstore, h⟩ := h
  refine ⟨store, hstore, ?_⟩
  rw [bind_eq_ok] at h ⊢
  obtain ⟨process, hprocess, h⟩ := h
  refine ⟨process, hprocess, ?_⟩
  rw [bind_eq_ok] at h ⊢
  obtain ⟨sorted, hsorted, h⟩ := h
  refine ⟨sorted, (normalizedTerminalSubjects_perm hsubjects).mp hsorted, ?_⟩
  rw [bind_eq_ok] at h ⊢
  obtain ⟨selectors, hselectors, h⟩ := h
  exact ⟨selectors, (normalizedPreIntentRefusals_perm hrefusals).mp hselectors, h⟩

/-- **Terminal subjects and refusals are verified exactly where they correspond
to the handoffs of their Process**, in whatever order they are given. -/
theorem verifyTerminalSubjects_iff {s : LedgerState} (hs : ledgerSystem.Reachable s)
    (storeId processId : String) (subjects : List TerminalSubject)
    (refusals : List PreIntentRefusal) :
    ((∃ verification,
        verifyTerminalSubjects s.ledger storeId processId subjects refusals = .ok verification)
      ↔ ExactInputs storeId processId subjects refusals
        ∧ ExactCorrespondence (handoffsOf s.ledger storeId processId) subjects refusals)
    ∧ ∀ subjects' refusals', subjects.Perm subjects' → refusals.Perm refusals' →
        ∀ verification,
          verifyTerminalSubjects s.ledger storeId processId subjects refusals = .ok verification
            ↔ verifyTerminalSubjects s.ledger storeId processId subjects' refusals'
              = .ok verification := by
  refine ⟨exists_verified_iff (Consistent.of_reachable hs).tables (.of_reachable hs) storeId
    processId subjects refusals, ?_⟩
  intro subjects' refusals' hsubjects hrefusals verification
  exact ⟨verified_of_perm hsubjects hrefusals, verified_of_perm hsubjects.symm hrefusals.symm⟩

/-! ## A Check of two executions -/

namespace Sample

def otherDigest : Sha256Digest :=
  "sha256:1f5b2c1d9e8a7f6043521c0d9e8b7a6f5e4d3c2b1a09f8e7d6c5b4a392817065"

/-- A second handoff of the owner of the sample handoff. -/
def secondHandoff : Handoff :=
  { handoff with
    specificationDigest := otherDigest
    handle := "handle-2"
    reclamationBindingDigest := otherDigest
    obligationDigest := otherDigest
    obligationSpecificationDigest := otherDigest
    retirementDigest := otherDigest
    coreDigest := otherDigest
    digest := otherDigest }

/-- The subject of a handoff, with a Check Receipt of some identity. -/
def subjectOf (handoff : Handoff) (receiptId : String) : TerminalSubject where
  receipt := ⟨.checkReceipt, receiptId, 1, someDigest⟩
  owner := handoff.owner
  retirementFactsDigest := handoff.retirementDigest

/-- A ledger that accepted both handoffs is reached. -/
theorem exists_two : ∃ s, ledgerSystem.Reachable s
    ∧ handoffsOf s.ledger "store-1" "delivery-1" = [handoff, secondHandoff] := by
  have hall : (do
      let first ← accept {} handoff
      let second ← accept first.2 secondHandoff
      pure (handoffsOf second.2 "store-1" "delivery-1")) = .ok [handoff, secondHandoff] := by
    decide +kernel
  simp only [bind_eq_ok, pure_eq_ok] at hall
  obtain ⟨first, hfirst, second, hsecond, hhandoffs⟩ := hall
  have hstart : ledgerSystem.Reachable {} := .of_initial rfl
  have hone : ledgerSystem.Reachable ⟨first.2, []⟩ := hstart.step (.accepts hfirst)
  have htwo : ledgerSystem.Reachable ⟨second.2, []⟩ := hone.step (.accepts hsecond)
  exact ⟨_, htwo, hhandoffs⟩

/-- Any two Receipts of the Check correspond to its two handoffs. -/
theorem correspondence (a b : String) : ExactCorrespondence [handoff, secondHandoff]
    [subjectOf handoff a, subjectOf secondHandoff b] [] := by
  refine ⟨[handoff, secondHandoff], [], .rfl, .cons ?_ (.cons ?_ .nil), .nil⟩
  · exact ⟨rfl, rfl, fun _ => rfl⟩
  · exact ⟨rfl, rfl, fun _ => rfl⟩

end Sample

/-- **One Receipt for two executions corresponds, and is refused.** -/
theorem repeated_receipt_not_verified : ∃ s, ledgerSystem.Reachable s
    ∧ ExactCorrespondence (handoffsOf s.ledger "store-1" "delivery-1")
      [Sample.subjectOf Sample.handoff "receipt-1",
        Sample.subjectOf Sample.secondHandoff "receipt-1"] []
    ∧ ∀ verification, verifyTerminalSubjects s.ledger "store-1" "delivery-1"
      [Sample.subjectOf Sample.handoff "receipt-1",
        Sample.subjectOf Sample.secondHandoff "receipt-1"] [] ≠ .ok verification := by
  obtain ⟨s, hs, hhandoffs⟩ := Sample.exists_two
  refine ⟨s, hs, hhandoffs ▸ Sample.correspondence _ _, fun verification h => ?_⟩
  obtain ⟨hinputs, -⟩ := (exists_verified_iff (Consistent.of_reachable hs).tables
    (.of_reachable hs) _ _ _ _).mp ⟨verification, h⟩
  have hreceipts := hinputs.receipts
  simp [Sample.subjectOf] at hreceipts

/-- **Two Receipts for two executions are verified.** -/
theorem two_receipts_verified : ∃ s, ledgerSystem.Reachable s
    ∧ ∃ verification, verifyTerminalSubjects s.ledger "store-1" "delivery-1"
      [Sample.subjectOf Sample.handoff "receipt-1",
        Sample.subjectOf Sample.secondHandoff "receipt-2"] [] = .ok verification := by
  obtain ⟨s, hs, hhandoffs⟩ := Sample.exists_two
  refine ⟨s, hs, (verifyTerminalSubjects_iff hs _ _ _ _).1.mpr
    ⟨⟨by decide +kernel, by decide +kernel, ?_, ?_, ?_, .nil, .nil, .nil⟩,
      hhandoffs ▸ Sample.correspondence _ _⟩⟩
  · refine List.forall_mem_cons.mpr ⟨?_, List.forall_mem_cons.mpr ⟨?_, by simp⟩⟩
    · constructor <;> decide +kernel
    · constructor <;> decide +kernel
  · exact fun r hr => absurd hr List.not_mem_nil
  · decide +kernel

end ReclamationLedger
