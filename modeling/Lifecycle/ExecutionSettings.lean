import Lifecycle.ExecutionSuccessors

/-!
# Hosts in a setting

A setting says what a host can count on: how the checkpoint persistence and
the backend answer it, and what others may do in between. In every setting
the operations of a host keep one promise (`HostOperation.keeps`): each
checkpoint they ask to retain is a successor of the checkpoint they name,
and they enter the backend only when the setting entitles them to.

What a setting is for is chosen by `Known`, what is known of a checkpoint
that was read, and `Entitled`, what is known once a host has won the
consumption of dispatch authority.
-/

open Fallible Json Asking

namespace Execution

/-- **What a host can count on.** -/
structure HostSetting (specification : Specification) (σ : Type) where
  rely : σ → σ → Prop
  serve : (q : HostCall) → σ → HostAnswer q → σ → Prop
  Known : σ → Retained → Prop
  Entitled : σ → Prop
  inert : Observation → Prop
  refl : ∀ s, rely s s
  trans : ∀ {s t u}, rely s t → rely t u → rely s u
  known_rely : ∀ {s t r}, rely s t → Known s r → Known t r
  known_serve : ∀ {q s a t r}, serve q s a t → Known s r → Known t r
  entitled_rely : ∀ {s t}, rely s t → Entitled s → Entitled t
  entitled_read : ∀ {s a t}, serve .read s a t → Entitled s → Entitled t
  read : ∀ {s t r}, serve .read s (.ok (some r)) t → Known t r
  exchange : ∀ {k c s t r}, serve (.compareExchange k c) s (.ok r) t → Known t r
  consume : ∀ {current c s t r}, Known s current →
    Consumes specification current.checkpoint c →
    serve (.compareExchange (some current.coordinate) c) s (.ok r) t → Entitled t
  decide : ∀ {current c f s t decision},
    serve (.commitPreDispatch current c f) s (.ok decision) t → Known t decision.retained
  decided : ∀ {current c f s t decision}, Known s current →
    Consumes specification current.checkpoint c →
    serve (.commitPreDispatch current c f) s (.ok decision) t →
    decision.disposition = .dispatch → decision.retained.checkpoint = c → Entitled t
  observe : ∀ {handle s t o},
    serve (.observe .allocationObserve handle) s (.ok o) t → inert o

variable {host : OperationHost} {specification : Specification} {σ : Type} {α β : Type}
  {s : σ} {current : Retained}

namespace HostSetting

variable (S : HostSetting specification σ)

/-- A checkpoint that was read, and that the parser accepted. -/
structure Held (r : Retained) (s : σ) : Prop where
  known : S.Known s r
  accepted : Accepted specification r.checkpoint

/-- **What every question of a host promises.** -/
def Promise (host : OperationHost) (s : σ) : HostCall → Prop
  | .compareExchange none c => Opens specification c
  | .compareExchange (some coordinate) c => ∃ current : Retained, S.Held current s
      ∧ current.coordinate = coordinate ∧ Succeeds host specification S.inert current.checkpoint c
  | .commitPreDispatch current c f => S.Held current s
      ∧ Consumes specification current.checkpoint c ∧ Refuses specification current.checkpoint f
  | .dispatch _ => S.Entitled s
  | _ => True

/-- **A program of a host keeps its promise** in a setting. -/
structure Keeping (host : OperationHost) (P : α → σ → Prop) (c : HostProgram α) (s : σ) :
    Prop where
  keeps : Keeps S.rely S.serve (S.Promise host) P (fun _ _ => True) c s

variable {S} {P : α → σ → Prop} {Q : β → σ → Prop}

theorem Held.rely {t : σ} (h : S.Held current s) (hst : S.rely s t) : S.Held current t :=
  ⟨S.known_rely hst h.known, h.accepted⟩

/-! ## Rules -/

/-- What a program returns, and what it throws, it does beside a checkpoint
that is held. -/
theorem Keeping.held {c : HostProgram α} (hc : S.Keeping host P c s) (hs : S.Held current s) :
    Keeps S.rely S.serve (S.Promise host) (fun a t => P a t ∧ S.Held current t)
      (fun _ t => S.Held current t) c s :=
  Keeps.mono (Keeps.frame (fun hst h => Held.rely h hst)
    (fun hq h => ⟨S.known_serve hq h.known, h.accepted⟩) hc.keeps hs) (fun _ _ h => h)
    fun _ _ h => h.2

/-- **Sequencing**, beside a checkpoint that is held. -/
theorem bind {c : HostProgram α} {f : α → HostProgram β} (hc : S.Keeping host P c s)
    (hs : S.Held current s)
    (hf : ∀ a t, P a t → S.Held current t → S.Keeping host Q (f a) t) :
    S.Keeping host Q (c >>= f) s :=
  ⟨Keeps.bind S.refl (Keeps.mono (hc.held hs) (fun _ _ h => h) fun _ _ _ => trivial)
    fun a t h => (hf a t h.1 h.2).keeps⟩

/-- Sequencing, before anything is held. -/
theorem first {c : HostProgram α} {f : α → HostProgram β} (hc : S.Keeping host P c s)
    (hf : ∀ a t, P a t → S.Keeping host Q (f a) t) : S.Keeping host Q (c >>= f) s :=
  ⟨Keeps.bind S.refl hc.keeps fun a t h => (hf a t h).keeps⟩

/-- `try … catch`, beside a checkpoint that is held. -/
theorem rescue {c : HostProgram α} {h : Thrown → HostProgram α} (hc : S.Keeping host P c s)
    (hs : S.Held current s)
    (hh : ∀ e t, S.Held current t → S.Keeping host P (h e) t) :
    S.Keeping host P (Asking.rescue h c) s :=
  ⟨Keeps.rescue S.refl (Keeps.mono (hc.held hs) (fun _ _ h => h.1) fun _ _ h => h)
    fun e t h => (hh e t h).keeps⟩

theorem pure {a : α} (h : ∀ t, S.rely s t → P a t) : S.Keeping host P (Pure.pure a) s :=
  ⟨Keeps.pure h⟩

theorem fail {e : Thrown} : S.Keeping host P (Asking.fail e) s :=
  ⟨Keeps.fail fun _ _ => trivial⟩

/-- **A call**, when its question keeps the promise. -/
theorem call {q : HostCall} {onThrow : Thrown → Thrown} {f : HostResult q → HostProgram β}
    (hq : ∀ t, S.rely s t → S.Promise host t q)
    (hr : ∀ t r u, S.rely s t → S.serve q t (.ok r) u → S.Keeping host Q (f r) u) :
    S.Keeping host Q (Execution.call q onThrow >>= f) s := by
  refine ⟨fun t ht => ⟨hq t ht, fun answer u hu => ?_⟩⟩
  cases answer with
  | ok r => exact (hr t r u ht hu).keeps
  | error e => exact fun _ _ => trivial

/-- A call that promises nothing. -/
theorem free {q : HostCall} {onThrow : Thrown → Thrown} {f : HostResult q → HostProgram β}
    (hq : ∀ t, S.Promise host t q)
    (hr : ∀ r u, (∀ {current}, S.Held current s → S.Held current u) →
      S.Keeping host Q (f r) u) :
    S.Keeping host Q (Execution.call q onThrow >>= f) s :=
  call (fun t _ => hq t) fun _ r u ht hserve => hr r u fun hs =>
    ⟨S.known_serve hserve (hs.rely ht).known, hs.accepted⟩

/-- A part that calls nothing. -/
theorem lift {x : Except Thrown α} {f : α → HostProgram β}
    (h : ∀ a, x = .ok a → S.Keeping host Q (f a) s) :
    S.Keeping host Q (Asking.lift x >>= f) s := by
  cases x with
  | ok a => exact h a rfl
  | error e => exact ⟨fun _ _ => trivial⟩

theorem lifted {ε : Type} {x : Except ε α} {onThrow : ε → Thrown} {f : α → HostProgram β}
    (h : ∀ a, x = .ok a → S.Keeping host Q (f a) s) :
    S.Keeping host Q (Asking.lift (x.mapError onThrow) >>= f) s := by
  refine lift fun a ha => h a ?_
  cases x with
  | ok b => exact congrArg Except.ok (Except.ok.inj ha)
  | error e => cases ha

theorem checked {x : Except FoundationError α} {f : α → HostProgram β}
    (h : ∀ a, x = .ok a → S.Keeping host Q (f a) s) :
    S.Keeping host Q (Execution.checked x >>= f) s :=
  lifted h

theorem refuse {c : Prop} [Decidable c] {code message : String} {f : Unit → HostProgram β}
    (h : ¬ c → S.Keeping host Q (f ()) s) :
    S.Keeping host Q (Execution.refuse c code message >>= f) s :=
  lift fun _ hok => h (failIf_eq_ok.mp hok)

theorem present {value : Option α} {code message : String} {f : α → HostProgram β}
    (h : ∀ a, value = some a → S.Keeping host Q (f a) s) :
    S.Keeping host Q (Execution.present value code message >>= f) s :=
  lift fun a hok => h a (orFail_eq_ok.mp hok)

/-- **The clock** answers a canonical time at or after the bound. -/
theorem later {lowerBound label : String} {f : String → HostProgram β}
    (h : ∀ t u, isCanonicalTime t = true → textBefore t lowerBound = false →
      (∀ {current}, S.Held current s → S.Held current u) → S.Keeping host Q (f t) u) :
    S.Keeping host Q (Execution.later lowerBound label >>= f) s := by
  rw [Execution.later, bind_assoc]
  refine free (fun _ => trivial) fun value u hu => checked fun t ht => ?_
  obtain ⟨hvalue, hcanonical, hlower⟩ := laterTime_eq_ok.mp ht
  exact hvalue ▸ h value u hcanonical hlower hu

/-! ## Reading and committing -/

theorem parseRetained_eq_ok {retained r : Retained}
    (h : parseRetained specification retained = .ok r) :
    r = retained ∧ Accepted specification r.checkpoint := by
  simp only [parseRetained, bind_eq_ok, exists_unit, failIf_eq_ok, pure_eq_ok] at h
  obtain ⟨c, hc, -, -, rfl⟩ := h
  have hsame : c = retained.checkpoint := by
    simp only [parseCheckpoint, bind_eq_ok, exists_unit, pure_eq_ok] at hc
    exact hc.2.2.2.2.2.2.symm
  obtain rfl := hsame
  exact ⟨rfl, hc⟩

theorem parseRead_eq_ok {value : Option Retained} {r : Retained}
    (h : parseRead specification value = .ok (some r)) :
    value = some r ∧ Accepted specification r.checkpoint := by
  cases value with
  | none => cases h
  | some retained =>
    cases hparse : parseRetained specification retained with
    | error e =>
      rw [parseRead, hparse] at h
      cases h
    | ok r' =>
      rw [parseRead, hparse] at h
      obtain rfl := Option.some.inj (Except.ok.inj h)
      obtain ⟨rfl, haccepted⟩ := parseRetained_eq_ok hparse
      exact ⟨rfl, haccepted⟩

/-- **`read`** returns a checkpoint that is held. -/
theorem readCheckpoint {f : Option Retained → HostProgram β}
    (h : ∀ value t u, S.rely s t → (∃ a, S.serve .read t a u) →
      (∀ r, value = some r → S.Held r u) → S.Keeping host Q (f value) u) :
    S.Keeping host Q (Execution.readCheckpoint specification >>= f) s := by
  rw [Execution.readCheckpoint, bind_assoc]
  refine call (fun _ _ => trivial) fun t value u ht hserve => checked fun value' hvalue => ?_
  refine h value' t u ht ⟨_, hserve⟩ fun r hr => ?_
  obtain rfl := hr
  obtain ⟨rfl, haccepted⟩ := parseRead_eq_ok hvalue
  exact ⟨S.read hserve, haccepted⟩

/-- **`#commit`** returns the checkpoint that was to be committed. -/
theorem commitCheckpoint {expected : Option Retained} {c : Checkpoint}
    {f : Retained → HostProgram β}
    (hq : ∀ t, S.rely s t →
      S.Promise host t (.compareExchange (expected.map (·.coordinate)) c))
    (hr : ∀ t r u, S.rely s t →
      S.serve (.compareExchange (expected.map (·.coordinate)) c) t (.ok r) u →
      r.checkpoint = c → S.Held r u → S.Keeping host Q (f r) u) :
    S.Keeping host Q (Execution.commitCheckpoint specification expected c >>= f) s := by
  simp only [Execution.commitCheckpoint, bind_assoc, pure_bind]
  refine call hq fun t value u ht hserve => checked fun r hparse => refuse fun hsame => ?_
  simp only [not_or, not_not] at hsame
  obtain ⟨rfl, haccepted⟩ := parseRetained_eq_ok hparse
  exact hr t r u ht hserve hsame.2.2 ⟨S.exchange hserve, haccepted⟩

/-- **A successor of a checkpoint that is held may be committed.** -/
theorem commitRevised {r : Checkpoint} {f : Retained → HostProgram β} (hs : S.Held current s)
    (hr : ∀ c, checkpointSubject r = .ok c →
      Succeeds host specification S.inert current.checkpoint c)
    (h : ∀ retained u, checkpointSubject r = .ok retained.checkpoint → S.Held retained u →
      S.Keeping host Q (f retained) u) :
    S.Keeping host Q (Execution.commitRevised specification current r >>= f) s := by
  rw [Execution.commitRevised, bind_assoc]
  refine checked fun c hc => commitCheckpoint
    (fun t ht => ⟨current, hs.rely ht, rfl, hr c hc⟩) fun t retained u _ _ hsame hheld => ?_
  exact h retained u (hsame ▸ hc) hheld

/-- A program that ends with a commit. -/
theorem commitRevised_last {r : Checkpoint} (hs : S.Held current s)
    (hr : ∀ c, checkpointSubject r = .ok c →
      Succeeds host specification S.inert current.checkpoint c) :
    S.Keeping host (fun _ _ => True) (Execution.commitRevised specification current r) s := by
  rw [← bind_pure (Execution.commitRevised specification current r)]
  exact commitRevised hs hr fun _ _ _ _ => pure fun _ _ => trivial

/-! ## `open`, `#allocate` and `#requestContainment` -/

theorem openNew : S.Keeping host (fun _ _ => True) (Execution.openNew specification) s := by
  refine free (fun _ => trivial) fun key t _ => lifted fun _ hkey => ?_
  refine later fun openedAt u hcanonical _ _ => checked fun c hc => ?_
  rw [← bind_pure (Execution.commitCheckpoint specification none c)]
  exact commitCheckpoint (fun _ _ => ⟨key, openedAt, hkey, hcanonical, hc⟩)
    fun _ _ _ _ _ _ _ => pure fun _ _ => trivial

theorem openOperation :
    S.Keeping host (fun _ _ => True) (Execution.openOperation specification) s := by
  refine readCheckpoint fun value t u _ _ hvalue => ?_
  cases value with
  | some existing => exact pure fun _ _ => trivial
  | none => exact openNew

theorem allocateCell (hs : S.Held current s) (hnone : current.checkpoint.handle = none) :
    S.Keeping host (fun _ _ => True) (Execution.allocateCell specification current) s := by
  refine free (fun _ => trivial) fun handle t ht => checked fun _ hhandle => ?_
  refine call (fun _ _ => trivial) fun u value v hu hserve => checked fun o ho => ?_
  refine refuse fun hnonrunning => ?_
  rw [not_not] at hnonrunning
  have hheld : S.Held current v := ⟨S.known_serve hserve ((ht hs).rely hu).known, hs.accepted⟩
  obtain ⟨hsame, hparsed⟩ := parseObservation_eq_ok ho
  exact commitRevised_last hheld fun c hc =>
    .allocated hnone hhandle hparsed hnonrunning (S.observe (hsame ▸ hserve)) hc

theorem requestContainment (hs : S.Held current s) (hhandle : current.checkpoint.handle ≠ none)
    (hrequested : current.checkpoint.containmentRequestedAt = none)
    (hcontainment : current.checkpoint.containment = none) :
    S.Keeping host (fun _ _ => True) (Execution.requestContainment specification current) s :=
  later fun _ _ hcanonical hlatest hu => commitRevised_last (hu hs) fun _ hc =>
    .requested hhandle hrequested hcontainment ⟨hcanonical, hlatest⟩ hc

/-! ## `#recordObservation` -/

/-- A time after all a checkpoint retains and after an observation. -/
theorem current_of_later {c : Checkpoint} {o : Observation} {t : String}
    (hcanonical : isCanonicalTime t = true)
    (hlater : textBefore t (laterOf (latestRuntimeTime c) (some o.observedAt)) = false) :
    Current c t ∧ textBefore t o.observedAt = false :=
  ⟨⟨hcanonical, not_before_trans (not_before_laterOf _ _) hlater⟩,
    not_before_trans (not_before_laterOf_some _ _) hlater⟩

theorem establish {c : Checkpoint} {o : Observation}
    (hcause : c.consumed = true ∨ c.containmentRequestedAt ≠ none
      ∨ isDirectPreDispatchAbsence o = true) :
    S.Keeping host (fun containment _ => Establishes c o containment)
      (Execution.establish c o) s := by
  unfold Execution.establish
  by_cases h : (hostContainment o c.consumed).established = true
  · rw [if_pos h]
    refine later fun t u hcanonical hlater _ => checked fun f hf => pure fun _ _ => ?_
    obtain ⟨hcurrent, hobserved⟩ := current_of_later hcanonical hlater
    rintro _ ⟨⟩
    exact ⟨t, hcurrent, hobserved, hcause, h, hf⟩
  · rw [if_neg h]
    refine pure fun _ _ f hf => ?_
    cases hf

/-- **An observation may be recorded** as long as nothing is bound to the
one before, and nothing takes a ready cell for contained. -/
theorem recordObservation {value : Observation} (hs : S.Held current s)
    (hhandle : current.checkpoint.handle ≠ none)
    (hcompletion : current.checkpoint.terminalCompletion = none)
    (houtput : current.checkpoint.output = none)
    (hbarred : current.checkpoint.containment = none ∨ current.checkpoint.consumed = true)
    (hcause : current.checkpoint.consumed = true
      ∨ current.checkpoint.containmentRequestedAt ≠ none
      ∨ isDirectPreDispatchReadiness value = false) :
    S.Keeping host (fun _ _ => True)
      (Execution.recordObservation specification current value) s := by
  refine checked fun o ho => refuse fun hinert => ?_
  obtain ⟨rfl, hparsed⟩ := parseObservation_eq_ok ho
  have hready : current.checkpoint.consumed = false →
      isDirectPreDispatchReadiness o = true ∨ isDirectPreDispatchAbsence o = true := by
    intro hunconsumed
    by_contra hneither
    simp only [not_or, Bool.not_eq_true] at hneither
    exact hinert ⟨hunconsumed, hneither⟩
  have hcause' : current.checkpoint.consumed = true
      ∨ current.checkpoint.containmentRequestedAt ≠ none
      ∨ isDirectPreDispatchAbsence o = true := by
    cases hconsumed : current.checkpoint.consumed with
    | true => exact .inl rfl
    | false =>
      rcases hcause with h | h | h
      · cases hconsumed.symm.trans h
      · exact .inr (.inl h)
      · refine .inr (.inr ((hready hconsumed).resolve_left fun htrue => ?_))
        cases h.symm.trans htrue
  refine bind (establish hcause') hs fun containment t hestablishes ht => ?_
  refine commitRevised ht (fun c hc => .observed hhandle hcompletion houtput hbarred hparsed hready
    hestablishes hc) fun retained u _ _ => ?_
  exact refuse fun _ => refuse fun _ => pure fun _ _ => trivial

/-! ## `#dispatch` and `#observeOrCancel` -/

/-- **The owner commits one of the two successors.** -/
theorem ownerDecision {c f : Checkpoint} (hs : S.Held current s)
    (hconsumes : Consumes specification current.checkpoint c)
    (hrefuses : Refuses specification current.checkpoint f) :
    S.Keeping host (fun decision t => S.Held decision.retained t
        ∧ (decision.disposition = .dispatch →
          S.Entitled t ∧ decision.retained.checkpoint = c))
      (Execution.ownerDecision specification current c f) s := by
  refine call (fun t ht => ⟨hs.rely ht, hconsumes, hrefuses⟩) fun t decision u ht hserve =>
    checked fun consumed hparse => ?_
  obtain ⟨rfl, haccepted⟩ := parseRetained_eq_ok hparse
  have hheld : S.Held decision.retained u := ⟨S.decide hserve, haccepted⟩
  refine readCheckpoint fun reopened v w hv hread _ => refuse fun hsame => ?_
  simp only [not_or, not_not] at hsame
  obtain ⟨a, hread⟩ := hread
  have hheld' : S.Held decision.retained w :=
    ⟨S.known_serve hread (hheld.rely hv).known, haccepted⟩
  refine pure fun x hx => ⟨hheld'.rely hx, fun hdispatch => ?_⟩
  have hchecked : decision.retained.checkpoint = c := by
    rw [hsame.2, if_pos hdispatch]
  refine ⟨S.entitled_rely hx (S.entitled_read hread (S.entitled_rely hv ?_)), hchecked⟩
  exact S.decided (hs.rely ht).known hconsumes hserve hdispatch hchecked

/-- **Whoever is to dispatch has consumed the authority itself.** -/
theorem consumeAuthority {c f : Checkpoint} (hs : S.Held current s)
    (hconsumes : Consumes specification current.checkpoint c)
    (hrefuses : Refuses specification current.checkpoint f) :
    S.Keeping host (fun decision t => S.Held decision.retained t
        ∧ (decision.disposition = .dispatch →
          S.Entitled t ∧ decision.retained.checkpoint = c))
      (Execution.consumeAuthority host specification current c f) s := by
  unfold Execution.consumeAuthority
  by_cases h : host.commitPreDispatch = true
  · rw [if_pos h]
    exact ownerDecision hs hconsumes hrefuses
  · rw [if_neg h]
    refine commitCheckpoint (fun t ht => ⟨current, hs.rely ht, rfl, .consumed hconsumes⟩)
      fun t retained u ht hserve hsame hheld => ?_
    exact pure fun v hv => ⟨hheld.rely hv, fun _ =>
      ⟨S.entitled_rely hv (S.consume (hs.rely ht).known hconsumes hserve), hsame⟩⟩

theorem dispatchReady {handle : String} {o : Observation} (hs : S.Held current s)
    (hready : ∀ t, isCanonicalTime t = true →
      textBefore t (laterOf (latestRuntimeTime current.checkpoint) (some o.observedAt)) = false →
      Ready specification current.checkpoint o t) :
    S.Keeping host (fun _ _ => True)
      (Execution.dispatchReady host specification current handle o) s := by
  refine later fun t u hcanonical hlater hu => checked fun c hc => checked fun k hk =>
    checked fun f hf => ?_
  have hcell := hready t hcanonical hlater
  refine first (consumeAuthority (hu hs) ⟨o, t, hcell, hc⟩ ⟨o, t, k, hcell, hk, hf⟩)
    fun decision v hdecision => ?_
  obtain ⟨hheld, hentitled⟩ := hdecision
  unfold Execution.enterBackend
  cases hdisposition : decision.disposition with
  | refused => exact pure fun _ _ => trivial
  | dispatch =>
    obtain ⟨hentitled, hsame⟩ := hentitled hdisposition
    refine call (fun w hw => S.entitled_rely hw hentitled) fun w value x hw hserve => ?_
    have hconsumed : decision.retained.checkpoint.consumed = true := by
      rw [hsame]
      exact Consumes.consumed ⟨o, t, hcell, hc⟩
    obtain ⟨d, -, hc⟩ := checkpointSubject_eq_ok.mp hc
    have hbare := hs.accepted.lawful.bare hcell.uncontained
    refine recordObservation ⟨S.known_serve hserve (hheld.rely hw).known, hheld.accepted⟩ ?_ ?_ ?_
      (.inr hconsumed) (.inl hconsumed)
    · rw [hsame, hc]
      exact hcell.handle
    · rw [hsame, hc]
      exact hbare.1
    · rw [hsame, hc]
      exact hbare.2.1

/-- The step of a cell that nothing has dispatched or contained. -/
theorem dispatchCell (hs : S.Held current s)
    (hunconsumed : current.checkpoint.consumed = false)
    (hrequested : current.checkpoint.containmentRequestedAt = none)
    (hcontainment : current.checkpoint.containment = none) :
    S.Keeping host (fun _ _ => True) (Execution.dispatchCell host specification current) s := by
  obtain ⟨hcompletion, houtput, -⟩ := hs.accepted.lawful.bare hcontainment
  refine present fun handle hhandle => free (fun _ => trivial) fun value t ht =>
    checked fun o ho => ?_
  have hsome : current.checkpoint.handle ≠ none := by
    rw [hhandle]
    exact Option.some_ne_none handle
  obtain ⟨rfl, hparsed⟩ := parseObservation_eq_ok ho
  by_cases habsent : isDirectPreDispatchAbsence o = true
  · rw [if_pos habsent]
    refine recordObservation (ht hs) hsome hcompletion houtput (.inl hcontainment)
      (.inr (.inr ?_))
    exact not_ready_of_absent habsent
  · rw [if_neg habsent]
    by_cases hready : isDirectPreDispatchReadiness o = false
    · rw [if_pos hready]
      exact bind (recordObservation (ht hs) hsome hcompletion houtput (.inl hcontainment)
        (.inr (.inr hready))) (ht hs) fun _ _ _ _ => fail
    · rw [if_neg hready]
      refine dispatchReady (ht hs) fun u hcanonical hlater => ?_
      obtain ⟨hcurrent, hobserved⟩ := current_of_later hcanonical hlater
      exact ⟨hsome, hunconsumed, hrequested, hcontainment, hparsed, Bool.eq_true_of_not_eq_false hready,
        hcurrent, hobserved⟩

theorem observeOrCancel (hs : S.Held current s)
    (hcompletion : current.checkpoint.terminalCompletion = none)
    (houtput : current.checkpoint.output = none)
    (hbarred : current.checkpoint.containment = none ∨ current.checkpoint.consumed = true)
    (hcause : current.checkpoint.consumed = true
      ∨ current.checkpoint.containmentRequestedAt ≠ none) :
    S.Keeping host (fun _ _ => True) (Execution.observeOrCancel specification current) s := by
  refine present fun handle hhandle => ?_
  have hsome : current.checkpoint.handle ≠ none := by
    rw [hhandle]
    exact Option.some_ne_none handle
  have hrecord : ∀ value u, S.Held current u → S.Keeping host (fun _ _ => True)
      (Execution.recordObservation specification current value) u := fun value u hu =>
    recordObservation hu hsome hcompletion houtput hbarred (hcause.imp_right .inl)
  by_cases h : current.checkpoint.containmentRequestedAt = none
  · have hcall : Execution.observeCall handle current.checkpoint.containmentRequestedAt
        = Execution.call (.observe .observe handle)
          (backendInterrupted "Execution observation or cancellation was interrupted") := if_pos h
    rw [hcall]
    exact free (fun _ => trivial) fun value u hu => hrecord value u (hu hs)
  · have hcall : Execution.observeCall handle current.checkpoint.containmentRequestedAt
        = Execution.call (.cancel handle)
          (backendInterrupted "Execution observation or cancellation was interrupted") := if_neg h
    rw [hcall]
    exact free (fun _ => trivial) fun value u hu => hrecord value u (hu hs)

/-! ## `#captureTerminalCompletion` -/

/-- A retrieval, beside a checkpoint that is held. -/
theorem retrieve {operation : BackendOperation} {handle message : String} {o : Observation}
    {f : RetrievalOutcome → HostProgram β}
    (h : ∀ outcome u, parseRetrieval specification handle outcome = .ok outcome →
      (∀ {current}, S.Held current s → S.Held current u) → S.Keeping host Q (f outcome) u) :
    S.Keeping host Q (Execution.retrieve specification operation handle o message >>= f) s := by
  rw [Execution.retrieve, bind_assoc]
  refine free (fun _ => trivial) fun value u hu => lifted fun outcome hparse => ?_
  have hsame : outcome = value := by
    simp only [parseRetrieval, bind_eq_ok, exists_unit, failIf_eq_ok] at hparse
    obtain ⟨identity, -, -, d, -, -, hpure⟩ := hparse
    exact (pure_eq_ok.mp hpure).symm
  obtain rfl := hsame
  exact h outcome u hparse hu

/-- The facts of a retrieval have a digest. -/
theorem isSha256_factsDigest {handle : String} {outcome : RetrievalOutcome}
    (h : parseRetrieval specification handle outcome = .ok outcome) :
    isSha256 outcome.factsDigest = true := by
  simp only [parseRetrieval, bind_eq_ok, exists_unit, failIf_eq_ok, not_not, pure_eq_ok] at h
  obtain ⟨identity, -, -, d, hd, hsame, -⟩ := h
  exact hsame ▸ isSha256_digestCanonical hd

/-- An output that is not there any more. -/
theorem finalizes_unavailable {c : Checkpoint} {o : Observation} {d : Sha256Digest}
    (hdisposition : o.output.disposition = .complete ∨ o.output.disposition = .missing
      ∨ o.output.disposition = .partly ∨ o.output.disposition = .unavailable)
    (hd : isSha256 d = true) :
    Finalizes c o { validation := .unavailable, failureFactsDigest := some d } := by
  refine ⟨fun t ht => ?_, fun t ht => ?_, fun t ht => ?_, fun b hb => ?_, ?_, fun f hf => ?_⟩
  · cases ht
  · cases ht
  · cases ht
  · cases hb
  · rintro _ ⟨⟩
    exact hd
  · obtain ⟨-, -, hsame, -, -, hvalidated, hrunner, hinventory, hbinding, hfailure, hvalidation⟩ :=
      outputSubject_eq_ok hf
    simp only [OutputFact.joined, hvalidation, hsame, hvalidated, hrunner, hinventory, hbinding,
      hfailure, decide_eq_true_eq]
    exact ⟨hdisposition, trivial, trivial, trivial, trivial, Option.some_ne_none d⟩

theorem captureRetrieved {o : Observation} {retrieval : Retrieval} {d : Sha256Digest}
    (hs : S.Held current s) (ho : current.checkpoint.observation = some o)
    (hcontainment : current.checkpoint.containment ≠ none)
    (hcompletion : current.checkpoint.terminalCompletion = none)
    (houtput : current.checkpoint.output = none) (hcomplete : o.output.disposition = .complete)
    (hd : isSha256 d = true) :
    S.Keeping host (fun _ _ => True)
      (Execution.captureRetrieved specification current o retrieval d) s := by
  have hfinal : o.output.disposition ≠ .ambiguous := by
    rw [hcomplete]
    decide
  cases retrieval with
  | unavailable reason =>
    exact checked fun f hf => commitRevised_last hs fun c hc =>
      .finalized hcontainment houtput ho hfinal (finalizes_unavailable (.inl hcomplete) hd) hf hc
  | complete retrieved =>
    refine refuse fun _ => free (fun _ => trivial) fun result t ht => ?_
    refine later fun time u hcanonical hlatest hu => checked fun f hf => ?_
    exact commitRevised_last (hu (ht hs)) fun c hc =>
      .completed hcontainment hcompletion houtput ho hcomplete ⟨hcanonical, hlatest⟩ hf hc

theorem captureTerminalCompletion (hs : S.Held current s) :
    S.Keeping host (fun _ _ => True)
      (Execution.captureTerminalCompletion host specification current) s := by
  refine present fun handle hhandle => present fun o ho => refuse fun hguard => ?_
  simp only [not_or, not_not] at hguard
  obtain ⟨-, hcontainment, hcompletion, houtput, hcomplete⟩ := hguard
  refine retrieve fun outcome t hparse ht => refuse fun _ => ?_
  exact captureRetrieved (ht hs) ho hcontainment hcompletion houtput hcomplete
    (isSha256_factsDigest hparse)

/-! ## `#finalizeOutput` -/

/-- A complete observation has a manifest. -/
theorem manifest_of_complete {o : Observation} (hs : S.Held current s)
    (ho : current.checkpoint.observation = some o) (hcomplete : o.output.disposition = .complete) :
    o.output.manifestDigest ≠ none :=
  (hs.accepted.lawful.read ho).complete hcomplete

/-- An output the owner, or the validation, refused. -/
theorem finalizes_invalid {c : Checkpoint} {o : Observation} {t : String}
    {runnerDigest d : Sha256Digest} (hcomplete : o.output.disposition = .complete)
    (hmanifest : o.output.manifestDigest ≠ none) (ht : Current c t)
    (hrunner : isSha256 runnerDigest = true) (hd : isSha256 d = true) :
    Finalizes c o {
      validation := .invalid, validatedAt := some t, runnerDigest := some runnerDigest
      failureFactsDigest := some d } := by
  refine ⟨?_, ?_, fun t ht => ?_, fun b hb => ?_, ?_, fun f hf => ?_⟩
  · rintro _ ⟨⟩
    exact ht
  · rintro _ ⟨⟩
    exact hrunner
  · cases ht
  · cases hb
  · rintro _ ⟨⟩
    exact hd
  · obtain ⟨-, -, hsame, hmanifest', -, hvalidated, hrunner, hinventory, hbinding, hfailure,
      hvalidation⟩ := outputSubject_eq_ok hf
    simp only [OutputFact.joined, hvalidation, hsame, hmanifest', hvalidated, hrunner, hinventory,
      hbinding, hfailure, decide_eq_true_eq]
    exact ⟨hcomplete, hmanifest, Option.some_ne_none t, Option.some_ne_none _, trivial, trivial,
      Option.some_ne_none d⟩

/-- A valid output. -/
theorem finalizes_valid {c : Checkpoint} {o : Observation} {t : String}
    {runnerDigest inventory : Sha256Digest} {b : StoreBinding}
    (hcomplete : o.output.disposition = .complete) (hmanifest : o.output.manifestDigest ≠ none)
    (ht : Current c t) (hrunner : isSha256 runnerDigest = true)
    (hinventory : isSha256 inventory = true) (hb : parseStoreBinding b = .ok ()) :
    Finalizes c o {
      validation := .valid, validatedAt := some t, runnerDigest := some runnerDigest
      artifactInventoryDigest := some inventory, outputStoreBinding := some b } := by
  refine ⟨?_, ?_, ?_, ?_, fun d hd => ?_, fun f hf => ?_⟩
  · rintro _ ⟨⟩
    exact ht
  · rintro _ ⟨⟩
    exact hrunner
  · rintro _ ⟨⟩
    exact hinventory
  · rintro _ ⟨⟩
    exact hb
  · cases hd
  · obtain ⟨-, -, hsame, hmanifest', -, hvalidated, hrunner, hinventory, hbinding, hfailure,
      hvalidation⟩ := outputSubject_eq_ok hf
    simp only [OutputFact.joined, hvalidation, hsame, hmanifest', hvalidated, hrunner, hinventory,
      hbinding, hfailure, decide_eq_true_eq]
    exact ⟨hcomplete, hmanifest, Option.some_ne_none t, Option.some_ne_none _,
      Option.some_ne_none _, Option.some_ne_none b, trivial⟩

/-- **An output may be finalized** beside a contained observation. -/
theorem commitOutput {o : Observation} {standing : OutputStanding} {fact : OutputFact}
    {validatedOutput : Option ValidatedOutput} (hs : S.Held current s)
    (hcontainment : current.checkpoint.containment ≠ none)
    (houtput : current.checkpoint.output = none) (ho : current.checkpoint.observation = some o)
    (hfinal : o.output.disposition ≠ .ambiguous)
    (hstanding : Finalizes current.checkpoint o standing)
    (hfact : outputSubject o standing = .ok fact) :
    S.Keeping host (fun _ _ => True)
      (Execution.commitOutput specification current fact validatedOutput) s :=
  commitRevised hs (fun _ hc => .finalized hcontainment houtput ho hfinal hstanding hfact hc)
    fun _ _ _ _ => pure fun _ _ => trivial

/-- What was validated is committed as it was validated. -/
theorem validateRetrieved {o : Observation} {runnerDigest digest : Sha256Digest}
    {retrieval : Retrieval} {f : ValidatedFact → HostProgram β} (hs : S.Held current s)
    (ho : current.checkpoint.observation = some o) (hcomplete : o.output.disposition = .complete)
    (hrunner : isSha256 runnerDigest = true)
    (hdigest : isSha256 digest = true)
    (h : ∀ validated standing u, Finalizes current.checkpoint o standing →
      outputSubject o standing = .ok validated.fact → S.Held current u →
      S.Keeping host Q (f validated) u) :
    S.Keeping host Q (Execution.validateRetrieved host current.checkpoint o runnerDigest retrieval
      digest >>= f) s := by
  cases retrieval with
  | unavailable reason =>
    rw [Execution.validateRetrieved, bind_assoc]
    exact checked fun fact hfact => h ⟨none, fact⟩ _ s
      (finalizes_unavailable (.inl hcomplete) hdigest) hfact hs
  | complete retrieved =>
    have howned : ∀ (output : ValidatedOutput) (g : Unit → HostProgram β) (t : σ),
        S.Held current t → (∀ u, S.Held current u → S.Keeping host Q (g ()) u) →
        S.Keeping host Q (Execution.validateOwned host output >>= g) t := by
      intro output g t ht hg
      unfold Execution.validateOwned
      by_cases howner : host.validateOwnerOutput = true
      · rw [if_pos howner, bind_assoc]
        exact free (fun _ => trivial) fun validation u hu => lift fun _ _ => hg u (hu ht)
      · rw [if_neg howner]
        exact hg t ht
    simp only [Execution.validateRetrieved, bind_assoc, pure_bind]
    refine refuse fun _ => free (fun _ => trivial) fun validated t ht => checked fun _ hb => ?_
    refine howned validated.output _ t (ht hs) fun u hu => ?_
    refine later fun time v hcanonical hlatest hv => checked fun inventory hinventory =>
      checked fun fact hfact => ?_
    exact h ⟨some validated.output, fact⟩ _ v
      (finalizes_valid hcomplete (manifest_of_complete hs ho hcomplete) ⟨hcanonical, hlatest⟩ hrunner
        (isSha256_digestCanonical hinventory) hb) hfact (hv hu)

theorem validateOutput {o : Observation} {runnerDigest : Sha256Digest}
    {f : ValidatedFact → HostProgram β} (hs : S.Held current s)
    (ho : current.checkpoint.observation = some o) (hcomplete : o.output.disposition = .complete)
    (hrunner : isSha256 runnerDigest = true)
    (h : ∀ validated standing u, Finalizes current.checkpoint o standing →
      outputSubject o standing = .ok validated.fact → S.Held current u →
      S.Keeping host Q (f validated) u) :
    S.Keeping host Q (Execution.validateOutput host specification current runnerDigest >>= f) s := by
  simp only [Execution.validateOutput, bind_assoc]
  refine present fun handle hhandle => present fun o' ho' => refuse fun _ => checked fun _ _ => ?_
  obtain rfl := Option.some.inj (ho.symm.trans ho')
  refine retrieve fun outcome t hparse ht => refuse fun _ => ?_
  exact validateRetrieved (ht hs) ho hcomplete hrunner (isSha256_factsDigest hparse) h

/-- The facts of a final failure have a digest. -/
theorem isSha256_finalFailure {o : Observation} {error : Thrown} {failure : FinalFailure}
    (h : finalOutputValidationFailure o error = .ok (some failure)) :
    isSha256 failure.factsDigest = true := by
  cases error with
  | other => cases h
  | foundation error changed diagnostics =>
    cases hclass : classifyFailure error.code with
    | none =>
      simp only [finalOutputValidationFailure, hclass] at h
      cases h
    | some validation =>
      simp only [finalOutputValidationFailure, hclass] at h
      cases hdigest : failureFactsDigest o validation error.code diagnostics with
      | error e =>
        simp only [hdigest] at h
        cases h
      | ok digest =>
        simp only [hdigest] at h
        obtain rfl := Option.some.inj (Except.ok.inj h)
        simp only [failureFactsDigest, bind_eq_ok] at hdigest
        obtain ⟨d, -, hdigest⟩ := hdigest
        exact isSha256_digestCanonical hdigest

section Complete

/-! What may be committed of a complete output. -/

variable {o : Observation} {runnerDigest : Sha256Digest} (hs : S.Held current s)
  (hcontainment : current.checkpoint.containment ≠ none)
  (houtput : current.checkpoint.output = none) (ho : current.checkpoint.observation = some o)
  (hcomplete : o.output.disposition = .complete)

include hs hcontainment houtput ho hcomplete

theorem commitInvalid {d : Option Sha256Digest} {label : String}
    (hrunner : isSha256 runnerDigest = true) (hd : ∃ digest, d = some digest ∧ isSha256 digest = true) :
    S.Keeping host (fun _ _ => True)
      (Execution.commitInvalid specification current o runnerDigest d label) s := by
  obtain ⟨digest, rfl, hdigest⟩ := hd
  refine later fun t u hcanonical hlatest hu => checked fun fact hfact => ?_
  have hfinal : o.output.disposition ≠ .ambiguous := by
    rw [hcomplete]
    decide
  exact commitOutput (hu hs) hcontainment houtput ho hfinal
    (finalizes_invalid hcomplete (manifest_of_complete hs ho hcomplete) ⟨hcanonical, hlatest⟩
      hrunner hdigest) hfact

theorem commitUnavailable {digest : Sha256Digest} {fact : OutputFact}
    {validatedOutput : Option ValidatedOutput} (hdigest : isSha256 digest = true)
    (hfact : unavailableOutput o digest = .ok fact) :
    S.Keeping host (fun _ _ => True)
      (Execution.commitOutput specification current fact validatedOutput) s := by
  have hfinal : o.output.disposition ≠ .ambiguous := by
    rw [hcomplete]
    decide
  exact commitOutput hs hcontainment houtput ho hfinal
    (finalizes_unavailable (.inl hcomplete) hdigest) hfact

theorem commitFailure {error : Thrown} {failure : Option FinalFailure}
    (hrunner : isSha256 runnerDigest = true)
    (hfailure : finalOutputValidationFailure o error = .ok failure) :
    S.Keeping host (fun _ _ => True)
      (Execution.commitFailure specification current o runnerDigest error failure) s := by
  cases failure with
  | none => exact fail
  | some failure =>
    have hdigest : isSha256 failure.factsDigest = true := isSha256_finalFailure hfailure
    by_cases hinvalid : failure.invalid = true
    · simp only [Execution.commitFailure, if_pos hinvalid]
      exact commitInvalid hs hcontainment houtput ho hcomplete hrunner ⟨_, rfl, hdigest⟩
    · simp only [Execution.commitFailure, if_neg hinvalid]
      exact checked fun fact hfact =>
        commitUnavailable hs hcontainment houtput ho hcomplete hdigest hfact

theorem finalizeFailed {error : Thrown} (hrunner : isSha256 runnerDigest = true) :
    S.Keeping host (fun _ _ => True)
      (Execution.finalizeFailed specification current o runnerDigest error) s := by
  unfold Execution.finalizeFailed
  by_cases hcode : error.code = some "lifecycle.execution.operation-host.backend-interrupted"
  · rw [if_pos hcode]
    by_cases hcompletion : current.checkpoint.terminalCompletion ≠ none
    · rw [if_pos hcompletion]
      exact fail
    · rw [if_neg hcompletion]
      rw [not_not] at hcompletion
      have hconsumed := hs.accepted.lawful.consumed_of_produced ho fun hnone => by
        cases hcomplete.symm.trans hnone
      exact bind (observeOrCancel hs hcompletion houtput (.inr hconsumed) (.inl hconsumed)) hs
        fun _ _ _ _ => pure fun _ _ => trivial
  · rw [if_neg hcode]
    exact checked fun failure hfailure =>
      commitFailure hs hcontainment houtput ho hcomplete hrunner hfailure

theorem finalizeComplete (hrunner : isSha256 runnerDigest = true) :
    S.Keeping host (fun _ _ => True)
      (Execution.finalizeComplete host specification current o runnerDigest) s := by
  have hfinal : o.output.disposition ≠ .ambiguous := by
    rw [hcomplete]
    decide
  refine rescue (validateOutput hs ho hcomplete hrunner fun validated standing u hstanding hfact
    hu => commitOutput hu hcontainment houtput ho hfinal hstanding hfact) hs fun error t ht => ?_
  exact finalizeFailed ht hcontainment houtput ho hcomplete hrunner

end Complete

/-- An output that was never produced. -/
theorem finalizes_notApplicable {c : Checkpoint} {o : Observation}
    (hnone : o.output.disposition = .notProduced) :
    Finalizes c o { validation := .notApplicable } := by
  refine ⟨fun t ht => ?_, fun d hd => ?_, fun d hd => ?_, fun b hb => ?_, fun d hd => ?_,
    fun f hf => ?_⟩
  · cases ht
  · cases hd
  · cases hd
  · cases hb
  · cases hd
  · obtain ⟨-, -, hsame, -, -, hvalidated, hrunner, hinventory, hbinding, hfailure, hvalidation⟩ :=
      outputSubject_eq_ok hf
    simp only [OutputFact.joined, hvalidation, hsame, hvalidated, hrunner, hinventory, hbinding,
      hfailure, decide_eq_true_eq]
    exact ⟨hnone, trivial, trivial, trivial, trivial, trivial⟩

/-- What an observation that is not complete is finalized as. -/
theorem finalizes_incomplete {c : Checkpoint} {o : Observation} {standing : OutputStanding}
    (hcomplete : o.output.disposition ≠ .complete) (hambiguous : o.output.disposition ≠ .ambiguous)
    (h : incompleteStanding o = .ok standing) : Finalizes c o standing := by
  have hunavailable : o.output.disposition = .missing ∨ o.output.disposition = .partly
      ∨ o.output.disposition = .unavailable → Finalizes c o standing := by
    intro hdisposition
    have hfacts : ∃ digest, isSha256 digest = true
        ∧ standing = { validation := .unavailable, failureFactsDigest := some digest } := by
      cases hdigest : digestCanonical (.object [
          ("schema", .string "lifecycle.execution-output-unavailability.private.v1"),
          ("observationDigest", .string o.digest),
          ("disposition", .string o.output.disposition.text)]) with
      | error e =>
        rcases hdisposition with hd | hd | hd <;>
          · rw [hd] at hdigest
            simp only [incompleteStanding, hd, hdigest] at h
            cases h
      | ok digest =>
        refine ⟨digest, isSha256_digestCanonical hdigest, ?_⟩
        rcases hdisposition with hd | hd | hd <;>
          · rw [hd] at hdigest
            simp only [incompleteStanding, hd, hdigest] at h
            exact (Except.ok.inj h).symm
    obtain ⟨digest, hdigest, rfl⟩ := hfacts
    exact finalizes_unavailable (.inr hdisposition) hdigest
  cases hdisposition : o.output.disposition with
  | complete => exact absurd hdisposition hcomplete
  | ambiguous => exact absurd hdisposition hambiguous
  | missing => exact hunavailable (.inl hdisposition)
  | partly => exact hunavailable (.inr (.inl hdisposition))
  | unavailable => exact hunavailable (.inr (.inr hdisposition))
  | notProduced =>
    simp only [incompleteStanding, hdisposition] at h
    exact Except.ok.inj h ▸ finalizes_notApplicable hdisposition

theorem finalizeObserved {o : Observation} {runnerDigest : Sha256Digest} (hs : S.Held current s)
    (hcontainment : current.checkpoint.containment ≠ none)
    (houtput : current.checkpoint.output = none) (ho : current.checkpoint.observation = some o)
    (hambiguous : o.output.disposition ≠ .ambiguous) (hrunner : isSha256 runnerDigest = true) :
    S.Keeping host (fun _ _ => True)
      (Execution.finalizeObserved host specification current o runnerDigest) s := by
  unfold Execution.finalizeObserved
  by_cases hcomplete : o.output.disposition = .complete
  · rw [if_pos hcomplete]
    cases hcompletion : invalidCompletion current.checkpoint with
    | none => exact finalizeComplete hs hcontainment houtput ho hcomplete hrunner
    | some completion =>
      exact commitInvalid hs hcontainment houtput ho hcomplete hrunner
        (hs.accepted.lawful.failure_of_invalid hcompletion)
  · rw [if_neg hcomplete]
    exact checked fun standing hstanding => checked fun fact hfact =>
      commitOutput hs hcontainment houtput ho hambiguous
        (finalizes_incomplete hcomplete hambiguous hstanding) hfact

theorem finalizeOutput {runnerDigest : Sha256Digest} (hs : S.Held current s)
    (houtput : current.checkpoint.output = none) (hrunner : isSha256 runnerDigest = true) :
    S.Keeping host (fun _ _ => True)
      (Execution.finalizeOutput host specification current runnerDigest) s := by
  refine present fun k hk => present fun o ho => refuse fun hambiguous => ?_
  have hcontainment : current.checkpoint.containment ≠ none := by
    rw [hk]
    exact Option.some_ne_none k
  exact finalizeObserved hs hcontainment houtput ho hambiguous hrunner

/-! ## `advance` and `retire` -/

theorem reopenValidatedOutput {expected : OutputFact} {runnerDigest : Sha256Digest} :
    S.Keeping host (fun _ _ => True)
      (Execution.reopenValidatedOutput host current expected runnerDigest) s := by
  refine refuse fun _ => present fun binding _ => free (fun _ => trivial) fun reopened t _ =>
    checked fun inventory _ => refuse fun _ => ?_
  unfold Execution.revalidateOwned
  by_cases howner : host.validateOwnerOutput = true
  · rw [if_pos howner, bind_assoc]
    exact free (fun _ => trivial) fun validation u _ => lift fun _ _ => pure fun _ _ => trivial
  · rw [if_neg howner]
    exact pure fun _ _ => trivial

/-- A step that validates no output. -/
theorem retainedOnly {step : HostProgram Retained}
    (h : S.Keeping host (fun _ _ => True) step s) :
    S.Keeping host (fun _ _ => True) (Execution.retainedOnly step) s :=
  first h fun _ _ _ => pure fun _ _ => trivial

theorem advanceContained {runnerDigest : Sha256Digest} (hs : S.Held current s)
    (houtput : current.checkpoint.output = none) (hrunner : isSha256 runnerDigest = true) :
    S.Keeping host (fun _ _ => True)
      (Execution.advanceContained host specification current runnerDigest) s := by
  unfold Execution.advanceContained
  by_cases hambiguous : current.checkpoint.observation.map (·.output.disposition)
      = some .ambiguous
  · rw [if_pos hambiguous]
    obtain ⟨o, ho, hdisposition⟩ := Option.map_eq_some_iff.mp hambiguous
    have hconsumed := hs.accepted.lawful.consumed_of_produced ho fun hnone => by
      cases hdisposition.symm.trans hnone
    have hcompletion : current.checkpoint.terminalCompletion = none := by
      cases hf : current.checkpoint.terminalCompletion with
      | none => rfl
      | some f =>
        obtain ⟨p, hp, hcomplete, -⟩ := hs.accepted.lawful.completed hf
        obtain rfl := Option.some.inj (ho.symm.trans hp)
        cases hdisposition.symm.trans hcomplete
    exact retainedOnly (observeOrCancel hs hcompletion houtput (.inr hconsumed) (.inl hconsumed))
  · rw [if_neg hambiguous]
    by_cases hcapture : current.checkpoint.terminalCompletion = none
        ∧ host.observeTerminalCompletion = true
        ∧ current.checkpoint.observation.map (·.output.disposition) = some .complete
    · rw [if_pos hcapture]
      exact retainedOnly (captureTerminalCompletion hs)
    · rw [if_neg hcapture]
      exact finalizeOutput hs houtput hrunner

theorem advanceUncontained (hs : S.Held current s)
    (hcontainment : current.checkpoint.containment = none) :
    S.Keeping host (fun _ _ => True) (Execution.advanceUncontained host specification current) s := by
  obtain ⟨hcompletion, houtput, -⟩ := hs.accepted.lawful.bare hcontainment
  unfold Execution.advanceUncontained
  by_cases h : current.checkpoint.consumed = false
      ∧ current.checkpoint.containmentRequestedAt = none
  · rw [if_pos h]
    exact dispatchCell hs h.1 h.2 hcontainment
  · rw [if_neg h]
    refine observeOrCancel hs hcompletion houtput (.inl hcontainment) ?_
    rw [not_and_or, Bool.not_eq_false] at h
    exact h

theorem advanceCell {runnerDigest : Sha256Digest} {requested : Bool} (hs : S.Held current s)
    (hrunner : isSha256 runnerDigest = true) :
    S.Keeping host (fun _ _ => True)
      (Execution.advanceCell host specification current runnerDigest requested) s := by
  unfold Execution.advanceCell
  by_cases hhandle : current.checkpoint.handle = none
  · rw [if_pos hhandle]
    exact retainedOnly (allocateCell hs hhandle)
  rw [if_neg hhandle]
  by_cases hrequests : requestsContainment requested current.checkpoint
  · rw [if_pos hrequests]
    exact retainedOnly (requestContainment hs hhandle hrequests.1 hrequests.2.1)
  rw [if_neg hrequests]
  by_cases hcontainment : current.checkpoint.containment = none
  · rw [if_pos hcontainment]
    exact retainedOnly (advanceUncontained hs hcontainment)
  rw [if_neg hcontainment]
  by_cases houtput : current.checkpoint.output = none
  · rw [if_pos houtput]
    exact advanceContained hs houtput hrunner
  · rw [if_neg houtput]
    exact pure fun _ _ => trivial

theorem advance {runnerDigest : Sha256Digest} {requested : Bool} :
    S.Keeping host (fun _ _ => True)
      (Execution.advance host specification runnerDigest requested) s := by
  refine checked fun _ hrunner => readCheckpoint fun value t u _ _ hvalue => ?_
  have hrunner := digestText_eq_ok.mp hrunner
  cases value with
  | none => exact retainedOnly openOperation
  | some current =>
    have hheld := hvalue current rfl
    simp only [Execution.advanceRead, Execution.advanceFrom]
    cases hvalid : validOutput current.checkpoint with
    | some expected => exact reopenValidatedOutput
    | none =>
      by_cases hretired : current.checkpoint.retirement ≠ none
      · simp only [if_pos hretired]
        exact pure fun _ _ => trivial
      · simp only [if_neg hretired]
        exact advanceCell hheld hrunner

theorem retireContained {handle : String} {o : Observation} {k : Containment} {out : OutputFact}
    (hs : S.Held current s) (hretirement : current.checkpoint.retirement = none)
    (hhandle : current.checkpoint.handle = some handle)
    (ho : current.checkpoint.observation = some o) (hk : current.checkpoint.containment = some k)
    (hout : current.checkpoint.output = some out) :
    S.Keeping host (fun _ _ => True)
      (Execution.retireContained host specification current handle o k out) s := by
  refine refuse fun hexact => later fun t u hcanonical hlatest hu => checked fun coordinate hcore =>
    free (fun _ => trivial) fun b v hv => lifted fun _ hb => checked fun obligation hobligation =>
      checked fun f hf => ?_
  rw [not_not] at hexact
  exact commitRevised_last (hv (hu hs)) fun c hc =>
    .retired hretirement hhandle ho hk hout hexact ⟨hcanonical, hlatest⟩ hcore hb hobligation hf hc

theorem retire : S.Keeping host (fun _ _ => True) (Execution.retire host specification) s := by
  refine readCheckpoint fun value t u _ _ hvalue => present fun current hcurrent => ?_
  have hheld := hvalue current hcurrent
  unfold Execution.retireFrom
  by_cases hretired : current.checkpoint.retirement ≠ none
  · rw [if_pos hretired]
    exact pure fun _ _ => trivial
  · rw [if_neg hretired]
    rw [not_not] at hretired
    exact present fun handle hhandle => present fun o ho => present fun k hk =>
      present fun out hout => retireContained hheld hretired hhandle ho hk hout

end HostSetting

/-- **Every operation of a host keeps its promise**, in every setting. -/
theorem HostOperation.keeps (S : HostSetting specification σ) (operation : HostOperation) :
    S.Keeping host (fun _ _ => True) (operation.program host specification) s := by
  have hdrop : ∀ {α : Type} {c : HostProgram α}, S.Keeping host (fun _ _ => True) c s →
      S.Keeping host (fun _ _ => True) (completing c) s := fun hc =>
    HostSetting.first hc fun _ _ _ => HostSetting.pure fun _ _ => trivial
  cases operation with
  | read =>
    refine HostSetting.readCheckpoint fun value t u _ _ _ => ?_
    exact HostSetting.pure fun _ _ => trivial
  | opening => exact hdrop HostSetting.openOperation
  | advance runnerDigest requested => exact hdrop HostSetting.advance
  | retire => exact hdrop HostSetting.retire

end Execution
