import Lifecycle.ReclamationLedger

/-!
# Leases of the reclamation ledger

The claimants of a ledger, any number of them, act in any order and by any
clock: each reads, compiles its update, and runs it later or never. Along
every such run a standing is written only over the one its writer read, so
the leases are safe (`ledger_leasesSafe`).
-/

open Fallible Json ControlModel Timestamp ReclamationLedger

/-! ## Runs of the claimants -/

/-- The ledger and the updates in flight. -/
structure LedgerState where
  ledger : Ledger := {}
  inFlight : List PendingUpdate := []

/-- What happened to the ledger. -/
inductive LedgerLabel
  /-- A handoff was accepted, or replayed. -/
  | accepted (candidate : Handoff)
  /-- An update was compiled. -/
  | compiled (u : PendingUpdate)
  /-- An update took effect. -/
  | effected (u : PendingUpdate)
  /-- A call returned or was refused without effect, or a claimant stopped
  before its update ran. -/
  | unaffected
deriving DecidableEq

/-- **One step of some claimant.** -/
inductive LedgerStep (s : LedgerState) : LedgerLabel → LedgerState → Prop
  | accepts {candidate handoff : Handoff} {ledger : Ledger} :
      accept s.ledger candidate = .ok (handoff, ledger) →
      LedgerStep s (.accepted candidate) { s with ledger }
  | claims {request : ClaimRequest} {claim : Claim} {u : PendingUpdate} :
      claimNext s.ledger request = .ok (some (claim, u)) →
      LedgerStep s (.compiled u) { s with inFlight := u :: s.inFlight }
  | completes {claim : Claim} {observation : Observation} {now : String} {u : PendingUpdate} :
      completeClaim s.ledger claim observation now = .ok (.update u) →
      LedgerStep s (.compiled u) { s with inFlight := u :: s.inFlight }
  | runs {u : PendingUpdate} {ledger : Ledger} :
      u ∈ s.inFlight → u.Effective s.ledger → runUpdate s.ledger u = .ok ledger →
      LedgerStep s (.effected u) ⟨ledger, s.inFlight.erase u⟩
  | drops {u : PendingUpdate} :
      u ∈ s.inFlight → LedgerStep s .unaffected { s with inFlight := s.inFlight.erase u }
  | returns : LedgerStep s .unaffected s

/-- **The ledger and its claimants**, from the empty ledger. -/
def ledgerSystem : TransitionSystem LedgerState LedgerLabel where
  initial s := s = {}
  step := LedgerStep

/-- An effective claim of an obligation. -/
def isClaimOf (d : Sha256Digest) : LedgerLabel → Bool
  | .effected u => decide (u.handoff.obligationDigest = d) && decide (u.kind = .claim)
  | _ => false

/-- An effective completion of the claim an obligation was granted at a
generation. -/
def isCompletionOf (d : Sha256Digest) (generation : Nat) : LedgerLabel → Bool
  | .effected u => decide (u.handoff.obligationDigest = d)
      && decide (u.kind = .completion generation)
  | _ => false

/-! ## Standings as they are stored -/

/-- **A standing that may be stored for a handoff.** -/
structure Retainable (handoff : Handoff) (standing : Standing) : Prop where
  obligation : standing.obligationDigest = handoff.obligationDigest
  compiled : compileStanding standing = .ok standing
  observed : ∀ o ∈ standing.lastObservation,
    parseExecutionReclamationObservation o handoff = .ok o

theorem compileStanding_digest {s : Standing} {d : Sha256Digest} :
    compileStanding { s with digest := d } = compileStanding s := rfl

/-- What was compiled compiles to itself. -/
theorem compileStanding_idem {input standing : Standing}
    (h : compileStanding input = .ok standing) :
    compileStanding standing = .ok standing ∧ ∃ d, standing = { input with digest := d } := by
  have hdigest : ∃ d, standing = { input with digest := d } := by
    simp only [compileStanding, bind_eq_ok, pure_eq_ok] at h
    obtain ⟨-, -, -, -, -, -, -, -, -, -, -, -, -, -, -, -, -, -, d, -, rfl⟩ := h
    exact ⟨d, rfl⟩
  obtain ⟨d, rfl⟩ := hdigest
  exact ⟨compileStanding_digest.trans h, d, rfl⟩

/-- The compiled standing of an input for a handoff may be stored. -/
theorem retainable_of_compile {handoff : Handoff} {input standing : Standing}
    (h : compileStanding input = .ok standing)
    (hobligation : input.obligationDigest = handoff.obligationDigest)
    (hobserved : ∀ o ∈ input.lastObservation,
      parseExecutionReclamationObservation o handoff = .ok o) :
    Retainable handoff standing := by
  obtain ⟨hcompiled, d, rfl⟩ := compileStanding_idem h
  exact ⟨hobligation, hcompiled, hobserved⟩

/-- **The standing computed from a stored row is the one that was
stored.** -/
theorem rowStanding_standingParameters {handoff : Handoff} {standing : Standing}
    (h : Retainable handoff standing) :
    rowStanding (standingParameters standing) handoff = .ok standing := by
  have hobservation : rowObservation (standingParameters standing) handoff
      = .ok standing.lastObservation := by
    unfold rowObservation
    cases hlast : standing.lastObservation with
    | none =>
      simp only [standingParameters, hlast, Option.map_none]
      rfl
    | some o =>
      simp only [standingParameters, hlast, Option.map_some]
      rw [h.observed o hlast, ok_bind, failIf_neg (by simp)]
      rfl
  rw [rowStanding, hobservation, ok_bind]
  have hinput : compileStanding {
      obligationDigest := handoff.obligationDigest
      generation := (standingParameters standing).generation
      state := (standingParameters standing).state
      attemptCount := (standingParameters standing).attemptCount
      nextAttemptAt := (standingParameters standing).nextAttemptAt
      claimToken := (standingParameters standing).claimToken
      claimExpiresAt := (standingParameters standing).claimExpiresAt
      lastObservation := standing.lastObservation
      updatedAt := (standingParameters standing).updatedAt
      digest := "" } = .ok standing := by
    rw [← h.obligation]
    exact compileStanding_digest.trans h.compiled
  rw [hinput, ok_bind, failIf_neg (by simp [standingParameters])]
  rfl

/-! ## What the calls compile -/

/-- What an update of a kind does to a standing. -/
structure Advances (u : PendingUpdate) : Prop where
  prior : Retainable u.handoff u.prior
  next : Retainable u.handoff u.next
  generation : u.next.generation = u.prior.generation + 1
  unfinished : ¬ u.prior.state.Terminal
  attempts : u.next.attemptCount
    = u.prior.attemptCount + if u.kind = .claim then 1 else 0

/-- **Within its lease**: a completion was compiled from the standing its
claim left, before the lease expired by the claimant's clock. -/
def WithinLease (u : PendingUpdate) : Prop :=
  ∀ g, u.kind = .completion g → ∃ (claim : Claim) (now : String),
    claim.standingGeneration = g ∧ u.prior.state = .claimed ∧ u.prior.generation = g
      ∧ u.prior.digest = claim.standingDigest ∧ u.prior.claimToken = some claim.claimToken
      ∧ u.prior.claimExpiresAt = some claim.expiresAt ∧ textLt now claim.expiresAt = true

/-- **The tables agree**: every standing is of an accepted handoff and may
be stored for it. -/
structure TablesAgree (ledger : Ledger) : Prop where
  keyed : ∀ d h, ledger.handoffs.get d = some h → h.obligationDigest = d
  stored : ∀ d row, ledger.standings.get d = some row → ∃ handoff standing,
    ledger.handoffs.get d = some handoff ∧ Retainable handoff standing
      ∧ row = standingParameters standing
  standing : ∀ d h, ledger.handoffs.get d = some h → ∃ row, ledger.standings.get d = some row

section Calls

variable {ledger : Ledger}

theorem rowStanding_of_stored (h : TablesAgree ledger) {d : Sha256Digest} {handoff : Handoff}
    {row : StandingRow} (hhandoff : ledger.handoffs.get d = some handoff)
    (hrow : ledger.standings.get d = some row) :
    ∃ standing, rowStanding row handoff = .ok standing ∧ Retainable handoff standing
      ∧ row = standingParameters standing := by
  obtain ⟨handoff', standing, hhandoff', hretainable, rfl⟩ := h.stored d row hrow
  obtain rfl := Option.some.inj (hhandoff.symm.trans hhandoff')
  exact ⟨standing, rowStanding_standingParameters hretainable, hretainable, rfl⟩

theorem selectCandidate_mem {eligible : Handoff → Bool} {candidates : List (Handoff × StandingRow)}
    {inspected : Nat} {handoff : Handoff} {standing : Standing}
    (h : selectCandidate eligible inspected candidates = .ok (some (handoff, standing))) :
    ∃ row, (handoff, row) ∈ candidates ∧ rowStanding row handoff = .ok standing := by
  induction candidates generalizing inspected with
  | nil => simp [selectCandidate] at h
  | cons c rest ih =>
    obtain ⟨candidate, row⟩ := c
    simp only [selectCandidate, bind_eq_ok, exists_unit] at h
    obtain ⟨-, read, hread, h⟩ := h
    split at h
    · rw [pure_eq_ok, Option.some.injEq, Prod.mk.injEq] at h
      obtain ⟨rfl, rfl⟩ := h
      exact ⟨row, List.mem_cons_self, hread⟩
    · obtain ⟨row', hmem, hrow'⟩ := ih h
      exact ⟨row', List.mem_cons_of_mem _ hmem, hrow'⟩

theorem mem_claimCandidates {sampledAt : String} {handoff : Handoff} {row : StandingRow}
    (h : (handoff, row) ∈ claimCandidates ledger sampledAt) :
    (∃ d, ledger.handoffs.get d = some handoff ∧ ledger.standings.get d = some row)
      ∧ claimable sampledAt row = true := by
  simp only [claimCandidates, List.mem_mergeSort, List.mem_filter, List.mem_filterMap,
    Option.map_eq_some_iff, Prod.mk.injEq] at h
  obtain ⟨⟨e, he, row', hrow', rfl, rfl⟩, hclaimable⟩ := h
  exact ⟨⟨e.1, OrderedMap.get_eq_some_iff.mpr he, hrow'⟩, hclaimable⟩

/-- Only a pending or a claimed standing is claimable. -/
theorem unfinished_of_claimable {sampledAt : String} {row : StandingRow}
    (h : claimable sampledAt row = true) : ¬ row.state.Terminal := by
  unfold claimable at h
  split at h
  · next hstate => simp [StandingState.Terminal, hstate]
  · next hstate => simp [StandingState.Terminal, hstate]
  · exact absurd h (by simp)

/-- **A claim advances the standing it read.** -/
theorem claimNext_advances (h : TablesAgree ledger) {request : ClaimRequest} {claim : Claim}
    {u : PendingUpdate} (hclaim : claimNext ledger request = .ok (some (claim, u))) :
    Advances u ∧ u.kind = .claim
      ∧ ledger.handoffs.get u.handoff.obligationDigest = some u.handoff := by
  simp only [claimNext, bind_eq_ok, exists_unit] at hclaim
  obtain ⟨-, sampledAt, -, selected, hselected, hclaim⟩ := hclaim
  cases selected with
  | none => simp [pure_eq_ok] at hclaim
  | some c =>
    obtain ⟨handoff, prior⟩ := c
    simp only [bind_eq_ok, exists_unit, pure_eq_ok, Option.some.injEq, Prod.mk.injEq] at hclaim
    obtain ⟨-, expiresAt, -, -, standing, hstanding, -, -, -, rfl⟩ := hclaim
    obtain ⟨row, hmem, hprior⟩ := selectCandidate_mem hselected
    obtain ⟨⟨d, hhandoff, hrow⟩, hclaimable⟩ := mem_claimCandidates hmem
    obtain ⟨standing', hread, hretainable, rfl⟩ := rowStanding_of_stored h hhandoff hrow
    obtain rfl := Except.ok.inj (hprior.symm.trans hread)
    obtain rfl := h.keyed d handoff hhandoff
    have hnext : Retainable handoff standing :=
      retainable_of_compile hstanding rfl hretainable.observed
    obtain ⟨-, digest, rfl⟩ := compileStanding_idem hstanding
    exact ⟨⟨hretainable, hnext, rfl, unfinished_of_claimable hclaimable, rfl⟩, rfl, hhandoff⟩

/-- **A completion advances the standing its claim left**, within its
lease. -/
theorem completeClaim_advances (h : TablesAgree ledger) {input : Claim} {value : Observation}
    {now : String} {u : PendingUpdate}
    (hcomplete : completeClaim ledger input value now = .ok (.update u)) :
    Advances u ∧ WithinLease u
      ∧ ledger.handoffs.get u.handoff.obligationDigest = some u.handoff := by
  simp only [completeClaim, bind_eq_ok, exists_unit, orFail_eq_ok, failIf_eq_ok, not_not]
    at hcomplete
  obtain ⟨claim, -, -, observation, hobservation, -, completedAt, hnow, entry, hentry, ⟨handoff, prior⟩,
    rfl, hsame, hcomplete⟩ := hcomplete
  obtain rfl : handoff = claim.handoff := hsame
  split at hcomplete
  · simp [pure_eq_ok] at hcomplete
  · simp only [bind_eq_ok, exists_unit, failIf_eq_ok, pure_eq_ok, Completion.update.injEq]
      at hcomplete
    obtain ⟨-, hlease, nextAttemptAt, -, standing, hstanding, rfl⟩ := hcomplete
    push Not at hlease
    obtain ⟨hclaimed, hgeneration, hdigest, htoken, hexpiry, -, hbefore, -⟩ := hlease
    -- The standing was read from the tables.
    simp only [entryByObligation] at hentry
    split at hentry
    · next handoff row hhandoff hrow =>
      simp only [bind_eq_ok, pure_eq_ok, Option.some.injEq, Prod.mk.injEq] at hentry
      obtain ⟨prior', hprior, rfl, rfl⟩ := hentry
      obtain ⟨standing', hread, hretainable, rfl⟩ := rowStanding_of_stored h hhandoff hrow
      obtain rfl := Except.ok.inj (hprior.symm.trans hread)
      have hparsed : parseExecutionReclamationObservation observation claim.handoff
          = .ok observation := by
        simp only [parseExecutionReclamationObservation, bind_eq_ok, failIf_eq_ok, exists_unit,
          pure_eq_ok] at hobservation ⊢
        obtain ⟨digest, hdigest, hexact, rfl⟩ := hobservation
        exact ⟨digest, hdigest, hexact, trivial⟩
      have hnext : Retainable claim.handoff standing :=
        retainable_of_compile hstanding rfl (by
          simp only [completedStanding, Option.mem_def, Option.some.injEq, forall_eq']
          exact hparsed)
      obtain ⟨-, digest, rfl⟩ := compileStanding_idem hstanding
      refine ⟨⟨hretainable, hnext, rfl, ?_, rfl⟩, ?_, hhandoff⟩
      · simp [StandingState.Terminal, hclaimed]
      · intro g hg
        obtain rfl : claim.standingGeneration = g := by simpa using hg
        exact ⟨claim, completedAt, rfl, hclaimed, hgeneration, hdigest, htoken, hexpiry,
          by simpa using hbefore⟩
    · simp at hentry

end Calls

/-! ## Safety -/

/-- **The ledger is consistent**: its tables agree, and every update in
flight advances a standing of its handoff, a completion within its lease. -/
structure Consistent (s : LedgerState) : Prop where
  tables : TablesAgree s.ledger
  inFlight : ∀ u ∈ s.inFlight, Advances u ∧ WithinLease u
    ∧ s.ledger.handoffs.get u.handoff.obligationDigest = some u.handoff

/-- **What one step does to the standing of an obligation.** -/
inductive StandingChange (label : LedgerLabel) (d : Sha256Digest) :
    Option StandingRow → Option StandingRow → Prop
  | kept {row : Option StandingRow} :
      isClaimOf d label = false → (∀ g, isCompletionOf d g label = false) →
      StandingChange label d row row
  | begun {row : StandingRow} {candidate : Handoff} :
      label = .accepted candidate → row.generation = 1 → row.attemptCount = 0 →
      StandingChange label d none (some row)
  | effected {u : PendingUpdate} :
      label = .effected u → u.handoff.obligationDigest = d → Advances u → WithinLease u →
      StandingChange label d (some (standingParameters u.prior)) (some (standingParameters u.next))

section Steps

variable {s t : LedgerState} {label : LedgerLabel}

/-- What an accepted handoff leaves. -/
theorem accept_eq_ok {ledger next : Ledger} {candidate handoff : Handoff}
    (h : accept ledger candidate = .ok (handoff, next)) :
    next = ledger ∨ (ledger.handoffs.get candidate.obligationDigest = none
      ∧ ∃ initial, compileStanding (initialStanding candidate) = .ok initial
        ∧ next = { ledger with
          handoffs := ledger.handoffs.set candidate.obligationDigest candidate
          standings :=
            ledger.standings.set candidate.obligationDigest (standingParameters initial) }) := by
  simp only [accept, bind_eq_ok] at h
  obtain ⟨-, -, initial, hinitial, h⟩ := h
  split at h
  · simp only [bind_eq_ok, exists_unit, pure_eq_ok, Prod.mk.injEq] at h
    exact .inl h.2.2.symm
  · next hnew =>
    simp only [bind_eq_ok, exists_unit, pure_eq_ok, Prod.mk.injEq] at h
    exact .inr ⟨hnew, initial, hinitial, h.2.2.2.2.symm⟩

theorem runUpdate_eq_ok {ledger next : Ledger} {u : PendingUpdate} (heffective : u.Effective ledger)
    (h : runUpdate ledger u = .ok next) :
    next = { ledger with standings :=
      ledger.standings.set u.handoff.obligationDigest (standingParameters u.next) } := by
  rw [runUpdate, if_pos heffective] at h
  simp only [bind_eq_ok, exists_unit, pure_eq_ok] at h
  exact h.2.symm

/-- An accepted handoff keeps the tables in agreement, and the handoffs
that were there. -/
theorem TablesAgree.accept {ledger next : Ledger} {candidate handoff : Handoff}
    (h : TablesAgree ledger) (haccept : accept ledger candidate = .ok (handoff, next)) :
    TablesAgree next ∧ ∀ d x, ledger.handoffs.get d = some x → next.handoffs.get d = some x := by
  obtain rfl | ⟨hnew, initial, hinitial, rfl⟩ := accept_eq_ok haccept
  · exact ⟨h, fun _ _ hx => hx⟩
  · refine ⟨⟨?_, ?_, ?_⟩, ?_⟩
    · intro d x hx
      rw [OrderedMap.get_set] at hx
      split at hx
      · next hd => rw [← Option.some.inj hx, hd]
      · exact h.keyed d x hx
    · intro d row hrow
      rw [OrderedMap.get_set] at hrow
      by_cases hd : d = candidate.obligationDigest
      · rw [if_pos hd, Option.some.injEq] at hrow
        subst hd
        refine ⟨candidate, initial, OrderedMap.get_set_self, ?_, hrow.symm⟩
        exact retainable_of_compile hinitial rfl (by simp [initialStanding])
      · rw [if_neg hd] at hrow
        obtain ⟨x, standing, hx, hretainable, hparameters⟩ := h.stored d row hrow
        exact ⟨x, standing, by rwa [OrderedMap.get_set_of_ne hd], hretainable, hparameters⟩
    · intro d x hx
      by_cases hd : d = candidate.obligationDigest
      · exact ⟨_, by rw [hd]; exact OrderedMap.get_set_self⟩
      · rw [OrderedMap.get_set_of_ne hd] at hx ⊢
        exact h.standing d x hx
    · intro d x hx
      rwa [OrderedMap.get_set_of_ne]
      rintro rfl
      exact absurd (hnew.symm.trans hx) (by simp)

/-- An update that took effect keeps the tables in agreement. -/
theorem TablesAgree.update {ledger next : Ledger} {u : PendingUpdate} (h : TablesAgree ledger)
    (hu : Advances u)
    (hhandoff : ledger.handoffs.get u.handoff.obligationDigest = some u.handoff)
    (heffective : u.Effective ledger) (hrun : runUpdate ledger u = .ok next) :
    TablesAgree next ∧ next.handoffs = ledger.handoffs := by
  obtain rfl := runUpdate_eq_ok heffective hrun
  refine ⟨⟨h.keyed, ?_, ?_⟩, rfl⟩
  · intro d row hrow
    rw [OrderedMap.get_set] at hrow
    split at hrow
    · next hd =>
      rw [Option.some.injEq] at hrow
      exact ⟨u.handoff, u.next, by rw [hd, hhandoff], hu.next, hrow.symm⟩
    · exact h.stored d row hrow
  · intro d x hx
    by_cases hd : d = u.handoff.obligationDigest
    · exact ⟨_, by rw [hd]; exact OrderedMap.get_set_self⟩
    · rw [OrderedMap.get_set_of_ne hd]
      exact h.standing d x hx

/-- **Every step keeps the ledger consistent.** -/
theorem Consistent.step (h : Consistent s) (hstep : LedgerStep s label t) : Consistent t := by
  cases hstep with
  | accepts haccept =>
    obtain ⟨htables, hkept⟩ := h.tables.accept haccept
    refine ⟨htables, fun u hu => ?_⟩
    obtain ⟨hadvances, hlease, hhandoff⟩ := h.inFlight u hu
    exact ⟨hadvances, hlease, hkept _ _ hhandoff⟩
  | claims hclaim =>
    obtain ⟨hadvances, hkind, hhandoff⟩ := claimNext_advances h.tables hclaim
    refine ⟨h.tables, List.forall_mem_cons.mpr ⟨⟨hadvances, ?_, hhandoff⟩, h.inFlight⟩⟩
    intro g hg
    exact absurd (hkind.symm.trans hg) (by simp)
  | completes hcomplete =>
    exact ⟨h.tables, List.forall_mem_cons.mpr
      ⟨completeClaim_advances h.tables hcomplete, h.inFlight⟩⟩
  | @runs u _ hu heffective hrun =>
    obtain ⟨hadvances, -, hhandoff⟩ := h.inFlight u hu
    obtain ⟨htables, hsame⟩ := h.tables.update hadvances hhandoff heffective hrun
    refine ⟨htables, fun v hv => ?_⟩
    rw [hsame]
    exact h.inFlight v (List.mem_of_mem_erase hv)
  | drops => exact ⟨h.tables, fun v hv => h.inFlight v (List.mem_of_mem_erase hv)⟩
  | returns => exact h

theorem Consistent.of_reachable (h : ledgerSystem.Reachable s) : Consistent s := by
  refine h.invariant ?_ (fun _ _ _ hs hstep => hs.step hstep)
  rintro s rfl
  refine ⟨⟨?_, ?_, ?_⟩, ?_⟩ <;> simp

/-- **Every step changes a standing as an update that was compiled from
it, or not at all.** -/
theorem LedgerStep.standingChange (h : Consistent s) (hstep : LedgerStep s label t)
    (d : Sha256Digest) :
    StandingChange label d (s.ledger.standings.get d) (t.ledger.standings.get d) := by
  cases hstep with
  | @accepts candidate _ _ haccept =>
    obtain hsame | ⟨hnew, initial, hinitial, hset⟩ := accept_eq_ok haccept
    · rw [show _ = s.ledger from hsame]
      exact .kept rfl fun _ => rfl
    · rw [show _ = _ from hset]
      by_cases hd : d = candidate.obligationDigest
      · subst hd
        have hnone : s.ledger.standings.get candidate.obligationDigest = none := by
          cases hrow : s.ledger.standings.get candidate.obligationDigest with
          | none => rfl
          | some row =>
            obtain ⟨x, -, hx, -⟩ := h.tables.stored _ row hrow
            exact absurd (hnew.symm.trans hx) (by simp)
        rw [hnone, OrderedMap.get_set_self]
        obtain ⟨-, digest, rfl⟩ := compileStanding_idem hinitial
        exact .begun rfl rfl rfl
      · rw [OrderedMap.get_set_of_ne hd]
        exact .kept rfl fun _ => rfl
  | claims => exact .kept rfl fun _ => rfl
  | completes => exact .kept rfl fun _ => rfl
  | @runs u _ hu heffective hrun =>
    obtain ⟨hadvances, hlease, -⟩ := h.inFlight u hu
    obtain rfl := runUpdate_eq_ok heffective hrun
    by_cases hd : d = u.handoff.obligationDigest
    · subst hd
      rw [show s.ledger.standings.get _ = _ from heffective, OrderedMap.get_set_self]
      exact .effected rfl rfl hadvances hlease
    · rw [OrderedMap.get_set_of_ne hd]
      refine .kept ?_ fun g => ?_ <;> simp [isClaimOf, isCompletionOf, Ne.symm hd]
  | drops => exact .kept rfl fun _ => rfl
  | returns => exact .kept rfl fun _ => rfl

end Steps

/-! ## Runs -/

/-- **The history of a standing**: its attempts are the claims that took
effect, and no claim was completed twice or at a generation to come. -/
structure History (labels : List LedgerLabel) (d : Sha256Digest) (row : Option StandingRow) :
    Prop where
  attempts : labels.countP (isClaimOf d) = (row.map (·.attemptCount)).getD 0
  later : ∀ g, (row.map (·.generation)).getD 0 ≤ g → labels.countP (isCompletionOf d g) = 0
  once : ∀ g, labels.countP (isCompletionOf d g) ≤ 1

theorem History.step {labels : List LedgerLabel} {label : LedgerLabel} {d : Sha256Digest}
    {row next : Option StandingRow} (h : History labels d row)
    (hchange : StandingChange label d row next) : History (labels ++ [label]) d next := by
  have hcount : ∀ p : LedgerLabel → Bool, (labels ++ [label]).countP p
      = labels.countP p + if p label = true then 1 else 0 := by
    intro p
    rw [List.countP_append, List.countP_singleton]
  cases hchange with
  | kept hclaim hcompletion =>
    refine ⟨?_, fun g hg => ?_, fun g => ?_⟩
    · rw [hcount, hclaim, h.attempts]
      simp
    · rw [hcount, hcompletion, h.later g hg]
      simp
    · rw [hcount, hcompletion]
      simpa using h.once g
  | begun hlabel hgeneration hattempts =>
    subst hlabel
    refine ⟨?_, fun g _ => ?_, fun g => ?_⟩
    · rw [hcount, h.attempts]
      simp [isClaimOf, hattempts]
    · rw [hcount, h.later g (by simp)]
      simp [isCompletionOf]
    · rw [hcount]
      simpa [isCompletionOf] using h.once g
  | @effected u hlabel hd hadvances hlease =>
    subst hlabel hd
    have hattempts := h.attempts
    have hlater := h.later
    simp only [Option.map_some, Option.getD_some, standingParameters] at hattempts hlater
    -- A completion is of the claim granted at the generation it was written over.
    have hcurrent : ∀ g, u.kind = .completion g → u.prior.generation = g := by
      intro g hg
      obtain ⟨_, _, -, -, hgeneration, -⟩ := hlease g hg
      exact hgeneration
    refine ⟨?_, fun g hg => ?_, fun g => ?_⟩
    · rw [hcount, hattempts]
      simp [isClaimOf, standingParameters, hadvances.attempts]
    · simp only [Option.map_some, Option.getD_some, standingParameters, hadvances.generation] at hg
      rw [hcount, hlater g (by omega)]
      simp only [isCompletionOf, decide_true, Bool.true_and, decide_eq_true_eq, Nat.zero_add,
        ite_eq_right_iff, one_ne_zero, imp_false]
      intro hkind
      have := hcurrent g hkind
      omega
    · rw [hcount]
      by_cases hkind : u.kind = .completion g
      · rw [hlater g (le_of_eq (hcurrent g hkind))]
        split <;> simp
      · simpa [isCompletionOf, hkind] using h.once g

/-- A terminal standing is never left. -/
theorem terminal_kept {s t : LedgerState} {later : List LedgerLabel} (hs : Consistent s)
    (hrun : ledgerSystem.Run s later t) {d : Sha256Digest} {row : StandingRow}
    (hrow : s.ledger.standings.get d = some row) (hterminal : row.state.Terminal) :
    t.ledger.standings.get d = some row := by
  have hboth : Consistent t ∧ t.ledger.standings.get d = some row := by
    refine hrun.invariant (P := fun t => Consistent t ∧ t.ledger.standings.get d = some row)
      ?_ ⟨hs, hrow⟩
    rintro t label u ⟨ht, hkept⟩ hstep
    refine ⟨ht.step hstep, ?_⟩
    have hchange := LedgerStep.standingChange ht hstep d
    rw [hkept] at hchange
    cases hchange' : u.ledger.standings.get d with
    | none =>
      rw [hchange'] at hchange
      nomatch hchange
    | some next =>
      rw [hchange'] at hchange
      cases hchange with
      | kept => rfl
      | effected _ _ hadvances => exact absurd hterminal hadvances.unfinished
  exact hboth.2

/-- **Safe leases** after a run of the claimants. -/
structure LeasesSafe (labels : List LedgerLabel) (s : LedgerState) : Prop where
  /-- At most one completion takes effect per claim generation. -/
  oneCompletion : ∀ d g, labels.countP (isCompletionOf d g) ≤ 1
  /-- A completion is written over the standing its own claim left, compiled
  before the lease expired. -/
  lease : ∀ u t g, LedgerStep s (.effected u) t → u.kind = .completion g →
    ∃ (claim : Claim) (now : String) (row : StandingRow),
      s.ledger.standings.get u.handoff.obligationDigest = some row
        ∧ claim.standingGeneration = g ∧ row.state = .claimed ∧ row.generation = g
        ∧ row.standingDigest = claim.standingDigest ∧ row.claimToken = some claim.claimToken
        ∧ row.claimExpiresAt = some claim.expiresAt ∧ textLt now claim.expiresAt = true
  /-- A terminal standing is never left. -/
  terminal : ∀ later t, ledgerSystem.Run s later t → ∀ d row,
    s.ledger.standings.get d = some row → row.state.Terminal →
      t.ledger.standings.get d = some row
  /-- A standing that changes advances its generation by one. -/
  generation : ∀ label t d row, LedgerStep s label t →
    s.ledger.standings.get d = some row → ∃ next, t.ledger.standings.get d = some next
      ∧ (next = row ∨ next.generation = row.generation + 1)
  /-- The attempts are the claims that took effect. -/
  attempts : ∀ d row, s.ledger.standings.get d = some row →
    row.attemptCount = labels.countP (isClaimOf d)
  /-- The standing computed from a stored row is accepted. -/
  consistent : ∀ d row, s.ledger.standings.get d = some row → ∃ handoff standing,
    s.ledger.handoffs.get d = some handoff ∧ rowStanding row handoff = .ok standing

/-- **The leases of a ledger are safe**, in every run of any number of
claimants. -/
theorem ledger_leasesSafe {labels : List LedgerLabel} {s : LedgerState}
    (hrun : ledgerSystem.Run {} labels s) : LeasesSafe labels s := by
  have hconsistent : Consistent s := Consistent.of_reachable ⟨{}, labels, rfl, hrun⟩
  have hhistory : ∀ d, History labels d (s.ledger.standings.get d) := by
    intro d
    induction hrun with
    | nil => exact ⟨rfl, fun _ _ => rfl, fun _ => Nat.zero_le _⟩
    | snoc hbefore hstep ih =>
      have hbefore' := Consistent.of_reachable (⟨{}, _, rfl, hbefore⟩ : ledgerSystem.Reachable _)
      exact (ih hbefore').step (LedgerStep.standingChange hbefore' hstep d)
  refine ⟨fun d => (hhistory d).once, ?_, fun _ _ => terminal_kept hconsistent, ?_, ?_, ?_⟩
  · intro u t g hstep hkind
    cases hstep with
    | runs hu heffective =>
      obtain ⟨-, hlease, -⟩ := hconsistent.inFlight u hu
      obtain ⟨claim, now, hgeneration, hstate, hprior, hdigest, htoken, hexpiry, hbefore⟩ :=
        hlease g hkind
      exact ⟨claim, now, _, heffective, hgeneration, hstate, hprior, hdigest, htoken, hexpiry,
        hbefore⟩
  · intro label t d row hstep hrow
    have hchange := LedgerStep.standingChange hconsistent hstep d
    rw [hrow] at hchange
    cases hnext : t.ledger.standings.get d with
    | none =>
      rw [hnext] at hchange
      nomatch hchange
    | some next =>
      rw [hnext] at hchange
      refine ⟨next, rfl, ?_⟩
      cases hchange with
      | kept => exact .inl rfl
      | effected _ _ hadvances => exact .inr hadvances.generation
  · intro d row hrow
    have hattempts := (hhistory d).attempts
    rw [hrow] at hattempts
    exact hattempts.symm
  · intro d row hrow
    obtain ⟨handoff, standing, hhandoff, hretainable, rfl⟩ := hconsistent.tables.stored d row hrow
    exact ⟨handoff, standing, hhandoff, rowStanding_standingParameters hretainable⟩

namespace ReclamationLedger.Sample

/-- The digest every digest of the sample handoff is. -/
def someDigest : Sha256Digest :=
  "sha256:0f5b2c1d9e8a7f6043521c0d9e8b7a6f5e4d3c2b1a09f8e7d6c5b4a392817065"

def profile : BackendProfileReference :=
  ⟨"lifecycle.execution-backend-profile.docker-local.v1", someDigest, someDigest⟩

def handoff : Handoff where
  installationId := "installation-1"
  owner := ⟨"store-1", "delivery-1", "evaluate-1", .check, someDigest⟩
  specificationDigest := someDigest
  specificationProfile := profile
  handle := "handle-1"
  reclamationBindingDigest := someDigest
  obligationDigest := someDigest
  obligationSpecificationDigest := someDigest
  obligationProfile := profile
  retirementDigest := someDigest
  dispatchAuthorityConsumed := true
  acceptedAt := "2026-01-05T09:00:00.000Z"
  coreDigest := someDigest
  digest := someDigest
  text := [123, 125]

def request : ClaimRequest :=
  ⟨"2026-01-05T09:00:01.000Z", 60000, fun _ => true,
    "reclamation-claim-v1:0f5b2c1d9e8a7f6043521c0d9e8b7a6f5e4d3c2b1a09f8e7d6c5b4a392817065"⟩

/-- The ledger with the sample handoff. -/
def acceptedLedger : Ledger :=
  match accept {} handoff with
  | .ok p => p.2
  | .error _ => {}

/-- The claim of the sample handoff, with its update. -/
def claimed : Option (Claim × PendingUpdate) :=
  match claimNext acceptedLedger request with
  | .ok c => c
  | .error _ => none

theorem exists_run : ∃ labels s, ledgerSystem.Run {} labels s
    ∧ 1 ≤ labels.countP (isClaimOf someDigest) := by
  have hall : ((accept {} handoff).isOk
      && claimed.any fun c => decide (c.2.Effective acceptedLedger)
        && (runUpdate acceptedLedger c.2).isOk
        && decide (c.2.handoff.obligationDigest = someDigest) && decide (c.2.kind = .claim))
      = true := by
    decide +kernel
  rw [Bool.and_eq_true, Option.any_eq_true] at hall
  obtain ⟨haccept, ⟨claim, u⟩, hclaimed, heffective⟩ := hall
  simp only [Bool.and_eq_true, decide_eq_true_eq] at heffective
  obtain ⟨⟨⟨heffect, hok⟩, hobligation⟩, hkind⟩ := heffective
  have haccepts : ∃ retained, accept {} handoff = .ok (retained, acceptedLedger) := by
    unfold acceptedLedger
    cases h : accept {} handoff with
    | error e => simp [h, Except.isOk, Except.toBool] at haccept
    | ok p => exact ⟨p.1, rfl⟩
  obtain ⟨retained, haccepts⟩ := haccepts
  have hclaims : claimNext acceptedLedger request = .ok (some (claim, u)) := by
    have h := hclaimed
    rw [claimed] at h
    split at h
    · next c hc => rw [hc, h]
    · exact absurd h (by simp)
  obtain ⟨next, hnext⟩ : ∃ next, runUpdate acceptedLedger u = .ok next := by
    cases h : runUpdate acceptedLedger u with
    | error e => simp [h, Except.isOk, Except.toBool] at hok
    | ok next => exact ⟨next, rfl⟩
  have hstart : LedgerStep {} (.accepted handoff) ⟨acceptedLedger, []⟩ := .accepts haccepts
  have hrun := ((TransitionSystem.Run.nil (M := ledgerSystem) (s := {})).snoc hstart).snoc
    (LedgerStep.claims (s := ⟨acceptedLedger, []⟩) hclaims)
  have hrun := hrun.snoc (LedgerStep.runs (u := u) List.mem_cons_self heffect hnext)
  refine ⟨_, _, hrun, ?_⟩
  simp [isClaimOf, hobligation, hkind]

end ReclamationLedger.Sample

/-- A ledger that has accepted a handoff and granted a claim of it. -/
theorem ledger_leasesSafe_sample : ∃ labels s, ledgerSystem.Run {} labels s
    ∧ 1 ≤ labels.countP (isClaimOf ReclamationLedger.Sample.someDigest)
    ∧ LeasesSafe labels s := by
  obtain ⟨labels, s, hrun, hclaims⟩ := ReclamationLedger.Sample.exists_run
  exact ⟨labels, s, hrun, hclaims, ledger_leasesSafe hrun⟩
