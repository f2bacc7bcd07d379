import Lifecycle.ExecutionHost

/-!
# Successors of a checkpoint

What each step of an execution operation makes of the checkpoint before it,
as one relation with a case for every place of the host that builds a
successor. Two facts about the relation carry everything that is said of
whole operations: a successor of a checkpoint the parser accepts is accepted
(`accepted_of_succeeds`), and it keeps the facts its predecessor has
(`Succeeds.preserves`).

The first has one exception. After an allocation the host retains what it
observed, whereas the parser asks of an observation under unconsumed
authority that it is inert. `inert` is what is known of the observations of
allocations.
-/

open Fallible Json

namespace Execution

variable {host : OperationHost} {specification : Specification} {inert : Observation → Prop}
  {c c' : Checkpoint} {o : Observation}

/-! ## Times -/

theorem textBefore_self (a : String) : textBefore a a = false := by
  rw [textBefore, codeUnitLe, lexLe_refl]
  rfl

/-- What is not before a time is not before an earlier one. -/
theorem not_before_trans {a b c : String} (hab : textBefore b a = false)
    (hbc : textBefore c b = false) : textBefore c a = false := by
  simp only [textBefore, Bool.not_eq_false'] at hab hbc ⊢
  exact lexLe_trans hab hbc

theorem not_before_laterOf (latest : String) (time : Option String) :
    textBefore (laterOf latest time) latest = false := by
  cases time with
  | none => exact textBefore_self latest
  | some t =>
    show textBefore (if textBefore latest t = true then t else latest) latest = false
    by_cases h : textBefore latest t = true
    · rw [if_pos h]
      rw [textBefore, Bool.not_eq_true'] at h
      simp only [textBefore, Bool.not_eq_false']
      obtain hle | hle := lexLe_total (latest.toList.flatMap utf16Units) (t.toList.flatMap utf16Units)
      · exact hle
      · rw [codeUnitLe, hle] at h
        cases h
    · rw [if_neg h]
      exact textBefore_self latest

theorem not_before_laterOf_of {t latest u : String} (hlatest : textBefore t latest = false)
    (hu : textBefore t u = false) : textBefore t (laterOf latest (some u)) = false := by
  rw [laterOf]
  split
  · exact hu
  · exact hlatest

theorem not_before_laterOf_some (latest t : String) :
    textBefore (laterOf latest (some t)) t = false := by
  show textBefore (if textBefore latest t = true then t else latest) t = false
  by_cases h : textBefore latest t = true
  · rw [if_pos h]
    exact textBefore_self t
  · rw [if_neg h]
    exact Bool.eq_false_iff.mpr h

theorem not_before_foldl_laterOf {times : List (Option String)} {start : String} :
    textBefore (times.foldl laterOf start) start = false := by
  induction times generalizing start with
  | nil => exact textBefore_self start
  | cons time times ih => exact not_before_trans (not_before_laterOf start time) ih

/-- **The latest of some times is before none of them.** -/
theorem not_before_of_mem {times : List (Option String)} {start t : String}
    (h : some t ∈ times) : textBefore (times.foldl laterOf start) t = false := by
  induction times generalizing start with
  | nil => cases h
  | cons time times ih =>
    rcases List.mem_cons.mp h with rfl | h
    · exact not_before_trans (not_before_laterOf_some start t) not_before_foldl_laterOf
    · exact ih h

/-- A time a checkpoint has. -/
inductive HasTime (c : Checkpoint) : String → Prop
  | opened : HasTime c c.openedAt
  | consumed {t : String} : c.dispatchAuthorityConsumedAt = some t → HasTime c t
  | requested {t : String} : c.containmentRequestedAt = some t → HasTime c t
  | observed {o : Observation} : c.observation = some o → HasTime c o.observedAt
  | contained {f : Containment} : c.containment = some f → HasTime c f.establishedAt
  | completed {f : TerminalCompletion} : c.terminalCompletion = some f → HasTime c f.capturedAt
  | validated {f : OutputFact} {t : String} : c.output = some f → f.validatedAt = some t →
      HasTime c t

/-- **Nothing a checkpoint retains is later than its latest time.** -/
theorem not_before_latest {t : String} (h : HasTime c t) :
    textBefore (latestRuntimeTime c) t = false := by
  refine not_before_of_mem ?_
  cases h with
  | opened => simp
  | consumed h => simp [h]
  | requested h => simp [h]
  | observed h => simp [h]
  | contained h => simp [h]
  | completed h => simp [h]
  | validated h ht => simp [h, ht]

/-- What `laterTime` returns. -/
theorem laterTime_eq_ok {value lowerBound label t : String} :
    laterTime value lowerBound label = .ok t
      ↔ t = value ∧ isCanonicalTime value = true ∧ textBefore value lowerBound = false := by
  simp only [laterTime, canonicalTime, bind_eq_ok, failIf_eq_ok, exists_unit, pure_eq_ok,
    Bool.not_eq_false, Bool.not_eq_true]
  constructor
  · rintro ⟨hcanonical, hlower, rfl⟩
    exact ⟨rfl, hcanonical, hlower⟩
  · rintro ⟨rfl, hcanonical, hlower⟩
    exact ⟨hcanonical, hlower, rfl⟩

/-- A canonical time at or after all a checkpoint retains. -/
structure Current (c : Checkpoint) (t : String) : Prop where
  canonical : isCanonicalTime t = true
  latest : textBefore t (latestRuntimeTime c) = false

theorem Current.not_before {t u : String} (h : Current c t) (hu : HasTime c u) :
    textBefore t u = false :=
  not_before_trans (not_before_latest hu) h.latest

/-! ## Accepted checkpoints -/

/-- **The parser accepts a checkpoint.** -/
def Accepted (specification : Specification) (c : Checkpoint) : Prop :=
  parseCheckpoint specification c = .ok c

/-- **What the parser asks of a checkpoint beside its digest.** -/
structure Lawful (specification : Specification) (c : Checkpoint) : Prop where
  bound : c.specificationDigest = specification.digest
  backend : c.backendProfile = specification.backendProfile
  opened : isCanonicalTime c.openedAt = true
  key : assertAllocationKey c.allocationKey = .ok ()
  handle : ∀ handle, c.handle = some handle → privateHandle handle = .ok ()
  consumed : ∀ t, c.dispatchAuthorityConsumedAt = some t →
    isCanonicalTime t = true ∧ textBefore t c.openedAt = false
  requested : ∀ t, c.containmentRequestedAt = some t →
    isCanonicalTime t = true ∧ textBefore t c.openedAt = false
  blank : c.handle = none → c.blank
  observation : ∀ o, c.observation = some o → parseObserved specification c o = .ok ()
  containment : ∀ f, c.containment = some f → parseContainment c f = .ok ()
  completion : ∀ f, c.terminalCompletion = some f → parseCompletionOf specification c f = .ok ()
  output : ∀ f, c.output = some f → parseOutput c f = .ok ()
  retirement : ∀ f, c.retirement = some f → parseRetirement specification c f = .ok ()

theorem ifSome_eq_ok {α : Type} {value : Option α} {check : α → Except FoundationError Unit} :
    ifSome value check = .ok () ↔ ∀ a, value = some a → check a = .ok () := by
  cases value <;> simp [ifSome]

theorem canonicalTime_eq_ok {value label : String} :
    canonicalTime value label = .ok () ↔ isCanonicalTime value = true := by
  simp [canonicalTime]

theorem digestText_eq_ok {value : Sha256Digest} {label : String} :
    digestText value label = .ok () ↔ isSha256 value = true := by
  simp [digestText]

theorem any_eq_false {α : Type} {value : Option α} {p : α → Bool} :
    ¬ value.any p = true ↔ ∀ a, value = some a → p a = false := by
  cases value <;> simp

theorem any_eq_true {α : Type} {value : Option α} {p : α → Bool} :
    value.any p = true ↔ ∃ a, value = some a ∧ p a = true := by
  cases value <;> simp

theorem parseHead_eq_ok : parseHead specification c = .ok ()
    ↔ selfDigest c.record = .ok c.digest ∧ c.specificationDigest = specification.digest
      ∧ c.backendProfile = specification.backendProfile ∧ isCanonicalTime c.openedAt = true
      ∧ assertAllocationKey c.allocationKey = .ok ()
      ∧ (∀ handle, c.handle = some handle → privateHandle handle = .ok ())
      ∧ (∀ t, c.dispatchAuthorityConsumedAt = some t →
        isCanonicalTime t = true ∧ textBefore t c.openedAt = false)
      ∧ (∀ t, c.containmentRequestedAt = some t →
        isCanonicalTime t = true ∧ textBefore t c.openedAt = false)
      ∧ (c.handle = none → c.blank) := by
  simp only [parseHead, bind_eq_ok, failIf_eq_ok, exists_unit, canonicalTime_eq_ok,
    ifSome_eq_ok, not_or, any_eq_false, not_and, not_not]
  constructor
  · rintro ⟨d, hd, ⟨hspec, hdigest⟩, hback, htime, hkey, hhandle, hconsumed, hrequested,
      hconsumedAt, hrequestedAt, hblank⟩
    exact ⟨hdigest ▸ hd, hspec, hback, htime, hkey, hhandle,
      fun t ht => ⟨hconsumed t ht, hconsumedAt t ht⟩,
      fun t ht => ⟨hrequested t ht, hrequestedAt t ht⟩, hblank⟩
  · rintro ⟨hd, hspec, hback, htime, hkey, hhandle, hconsumed, hrequested, hblank⟩
    exact ⟨c.digest, hd, ⟨hspec, rfl⟩, hback, htime, hkey, hhandle,
      fun t ht => (hconsumed t ht).1, fun t ht => (hrequested t ht).1,
      fun t ht => (hconsumed t ht).2, fun t ht => (hrequested t ht).2, hblank⟩

/-- **The parser accepts what is lawful and carries its own digest.** -/
theorem accepted_iff :
    Accepted specification c ↔ selfDigest c.record = .ok c.digest ∧ Lawful specification c := by
  simp only [Accepted, parseCheckpoint, bind_eq_ok, exists_unit, parseHead_eq_ok, ifSome_eq_ok,
    pure_eq_ok]
  constructor
  · rintro ⟨⟨hd, h₁, h₂, h₃, h₄, h₅, h₆, h₇, h₈⟩, ho, hf, ht, hout, hr, -⟩
    exact ⟨hd, h₁, h₂, h₃, h₄, h₅, h₆, h₇, h₈, ho, hf, ht, hout, hr⟩
  · rintro ⟨hd, h⟩
    exact ⟨⟨hd, h.bound, h.backend, h.opened, h.key, h.handle, h.consumed, h.requested,
      h.blank⟩, h.observation, h.containment, h.completion, h.output, h.retirement, trivial⟩

theorem Accepted.lawful (h : Accepted specification c) : Lawful specification c :=
  (accepted_iff.mp h).2

/-- A sealed checkpoint has the fields of its subject. -/
theorem checkpointSubject_eq_ok {r : Checkpoint} :
    checkpointSubject r = .ok c'
      ↔ ∃ d, selfDigest r.record = .ok d ∧ c' = { r with digest := d } := by
  rw [checkpointSubject, bind_eq_ok]
  constructor
  · rintro ⟨d, hd, h⟩
    exact ⟨d, hd, (pure_eq_ok.mp h).symm⟩
  · rintro ⟨d, hd, rfl⟩
    exact ⟨d, hd, rfl⟩

/-- The digest an object carries last is no part of what it is of. -/
theorem selfDigest_congr {a b : JsonObject} {v w : Json}
    (ha : a = a.dropLast ++ [("digest", v)]) (hb : b = b.dropLast ++ [("digest", w)])
    (h : a.dropLast = b.dropLast) : selfDigest a = selfDigest b := by
  rw [ha, hb, h]
  simp [selfDigest, List.filter_append]

theorem selfDigest_record (r : Checkpoint) (d : Sha256Digest) :
    selfDigest { r with digest := d }.record = selfDigest r.record :=
  selfDigest_congr rfl rfl rfl

/-- **A sealed checkpoint is accepted when its subject is lawful.** -/
theorem accepted_of_sealed {r : Checkpoint} (h : Lawful specification r)
    (hsealed : checkpointSubject r = .ok c') : Accepted specification c' := by
  obtain ⟨d, hd, rfl⟩ := checkpointSubject_eq_ok.mp hsealed
  refine accepted_iff.mpr ⟨(selfDigest_record r d).trans hd, ?_⟩
  exact ⟨h.bound, h.backend, h.opened, h.key, h.handle, h.consumed, h.requested, h.blank,
    h.observation, h.containment, h.completion, h.output, h.retirement⟩

/-- An accepted checkpoint is only about a lawful subject. -/
theorem lawful_of_sealed {r : Checkpoint} (hsealed : checkpointSubject r = .ok c')
    (h : Accepted specification c') : Lawful specification r := by
  obtain ⟨d, -, rfl⟩ := checkpointSubject_eq_ok.mp hsealed
  have h := h.lawful
  exact ⟨h.bound, h.backend, h.opened, h.key, h.handle, h.consumed, h.requested, h.blank,
    h.observation, h.containment, h.completion, h.output, h.retirement⟩

/-! ## Facts of an accepted checkpoint -/

/-- **An observation that is parsed beside another is one by itself.** -/
theorem parseObservation_eq_ok {previous : Option Observation} {value : Observation}
    (h : parseObservation specification previous value = .ok o) :
    o = value ∧ parseObservation specification none o = .ok o := by
  simp only [parseObservation, bind_eq_ok, failIf_eq_ok, exists_unit, pure_eq_ok] at h
  obtain ⟨hadmitted, d, hd, hdigest, hbinds, hproblem, -, rfl⟩ := h
  refine ⟨rfl, ?_⟩
  simp only [parseObservation, bind_eq_ok, failIf_eq_ok, exists_unit, pure_eq_ok]
  exact ⟨hadmitted, d, hd, hdigest, hbinds, hproblem, rfl, trivial⟩

/-- What is read of a parsed observation beside its own facts. -/
structure Read (o : Observation) : Prop where
  digest : isSha256 o.digest = true
  manifest : ∀ d, o.output.manifestDigest = some d → isSha256 d = true
  complete : o.output.disposition = .complete → o.output.manifestDigest ≠ none

theorem read_of_parse (h : parseObservation specification none o = .ok o) : Read o := by
  simp only [parseObservation, bind_eq_ok, failIf_eq_ok, exists_unit, pure_eq_ok,
    Bool.not_eq_false] at h
  obtain ⟨hadmitted, -⟩ := h
  simp only [Observation.admitted, Bool.and_eq_true] at hadmitted
  obtain ⟨⟨⟨⟨-, houtput⟩, -⟩, hdigest⟩, -⟩ := hadmitted
  simp only [ObservedOutput.admitted, Bool.and_eq_true] at houtput
  refine ⟨hdigest, fun d hd => ?_, fun hcomplete => ?_⟩
  · have hmanifest := houtput.1.1
    rw [hd] at hmanifest
    exact hmanifest
  · have hcase := houtput.2
    rw [hcomplete] at hcase
    simp only [Bool.and_eq_true, Option.isSome_iff_ne_none] at hcase
    exact hcase.1

/-- Under unconsumed authority an observation is inert. -/
theorem parseObserved_eq_ok :
    parseObserved specification c o = .ok ()
      ↔ parseObservation specification none o = .ok o
        ∧ (c.consumed = false →
          isDirectPreDispatchReadiness o = true ∨ isDirectPreDispatchAbsence o = true) := by
  simp only [parseObserved, bind_eq_ok, failIf_eq_ok]
  constructor
  · rintro ⟨p, hp, hinert⟩
    obtain ⟨rfl, hp⟩ := parseObservation_eq_ok hp
    refine ⟨hp, fun hc => ?_⟩
    by_contra hneither
    simp only [not_or, Bool.not_eq_true] at hneither
    exact hinert ⟨hc, hneither⟩
  · rintro ⟨hp, hinert⟩
    refine ⟨o, hp, ?_⟩
    rintro ⟨hc, hready, habsent⟩
    rcases hinert hc with h | h
    · rw [h] at hready
      cases hready
    · rw [h] at habsent
      cases habsent

namespace Lawful

variable (h : Lawful specification c)

include h

theorem parsed (ho : c.observation = some o) : parseObservation specification none o = .ok o :=
  (parseObserved_eq_ok.mp (h.observation o ho)).1

theorem read (ho : c.observation = some o) : Read o := read_of_parse (h.parsed ho)

/-- Output is produced under consumed authority only. -/
theorem consumed_of_produced (ho : c.observation = some o)
    (hproduced : o.output.disposition ≠ .notProduced) : c.consumed = true := by
  by_contra hconsumed
  rw [Bool.not_eq_true] at hconsumed
  rcases (parseObserved_eq_ok.mp (h.observation o ho)).2 hconsumed with hinert | hinert
  · simp only [isDirectPreDispatchReadiness, Bool.and_eq_true, decide_eq_true_eq] at hinert
    exact hproduced hinert.1.2.2.2.2.1
  · simp only [isDirectPreDispatchAbsence, Bool.and_eq_true, decide_eq_true_eq] at hinert
    exact hproduced hinert.1.2.2.2.2.1

/-- Containment is about the retained observation. -/
theorem contained {f : Containment} (hf : c.containment = some f) :
    ∃ o, c.observation = some o ∧ f.observationDigest = o.digest
      ∧ (hostContainment o c.consumed).established = true ∧ isSha256 f.digest = true := by
  have hparse := h.containment f hf
  simp only [parseContainment, bind_eq_ok, failIf_eq_ok, exists_unit, orFail_eq_ok, not_or,
    Bool.not_eq_false, not_not] at hparse
  obtain ⟨-, -, d, hd, o, ho, ⟨hdigest, -, -, -, hsource⟩, hestablished, -⟩ := hparse
  exact ⟨o, ho, hsource, hestablished, hdigest ▸ isSha256_digestCanonical hd⟩

theorem completion_none (hcontainment : c.containment = none) : c.terminalCompletion = none := by
  cases hf : c.terminalCompletion with
  | none => rfl
  | some f =>
    have hparse := h.completion f hf
    simp only [parseCompletionOf, bind_eq_ok, orFail_eq_ok, hcontainment] at hparse
    obtain ⟨k, hk, -⟩ := hparse
    cases hk

/-- A terminal completion is about a complete output. -/
theorem completed {f : TerminalCompletion} (hf : c.terminalCompletion = some f) :
    ∃ o, c.observation = some o ∧ o.output.disposition = .complete ∧ f.joined = true := by
  have hparse := h.completion f hf
  simp only [parseCompletionOf, parseTerminalCompletion, bind_eq_ok, failIf_eq_ok, exists_unit,
    orFail_eq_ok, not_or, not_not, Bool.not_eq_false] at hparse
  obtain ⟨k, -, o, ho, -, -, -, -, d, -, hjoined, -, hcomplete, -⟩ := hparse
  exact ⟨o, ho, hcomplete, hjoined⟩

/-- An invalid completion has the digest of its failure. -/
theorem failure_of_invalid {f : TerminalCompletion} (hf : invalidCompletion c = some f) :
    ∃ d, f.failureFactsDigest = some d ∧ isSha256 d = true := by
  rw [invalidCompletion, Option.filter_eq_some_iff, decide_eq_true_eq] at hf
  have hparse := h.completion f hf.1
  simp only [parseCompletionOf, parseTerminalCompletion, bind_eq_ok, failIf_eq_ok, exists_unit,
    orFail_eq_ok, not_or, not_not, Bool.not_eq_false, ifSome_eq_ok, digestText_eq_ok] at hparse
  obtain ⟨k, -, o, -, -, -, -, hfailure, d, -, hjoined, -⟩ := hparse
  rw [TerminalCompletion.joined, hf.2] at hjoined
  cases hvalue : f.value with
  | some value =>
    rw [hvalue] at hjoined
    cases hjoined
  | none =>
    rw [hvalue] at hjoined
    simp only [decide_eq_true_eq] at hjoined
    obtain ⟨d', hd'⟩ := Option.ne_none_iff_exists'.mp hjoined.2
    exact ⟨d', hd', hfailure d' hd'⟩

theorem completionDigest {f : TerminalCompletion} (hf : c.terminalCompletion = some f) :
    isSha256 f.digest = true := by
  have hparse := h.completion f hf
  simp only [parseCompletionOf, parseTerminalCompletion, bind_eq_ok, failIf_eq_ok, exists_unit,
    orFail_eq_ok, not_or, not_not] at hparse
  obtain ⟨k, -, o, -, -, -, -, -, d, hd, -, -, -, -, -, -, hdigest⟩ := hparse
  exact hdigest ▸ isSha256_digestCanonical hd

theorem output_none (hcontainment : c.containment = none) : c.output = none := by
  cases hf : c.output with
  | none => rfl
  | some f =>
    have hparse := h.output f hf
    simp only [parseOutput, bind_eq_ok, orFail_eq_ok, hcontainment] at hparse
    obtain ⟨-, -, -, -, -, -, -, -, -, -, -, -, -, -, d, hd, k, hk, -⟩ := hparse
    cases hk

/-- An output fact is sealed and about a final disposition. -/
theorem finalOutput {f : OutputFact} (hf : c.output = some f) :
    isSha256 f.digest = true ∧ f.disposition ≠ .ambiguous := by
  have hparse := h.output f hf
  simp only [parseOutput, bind_eq_ok, orFail_eq_ok, failIf_eq_ok, exists_unit, not_or,
    not_not] at hparse
  obtain ⟨-, -, -, -, -, -, -, d, hd, k, -, o, -, hdigest, -, -, -, -, -, -, -, hfinal⟩ := hparse
  exact ⟨hdigest ▸ isSha256_digestCanonical hd, hfinal⟩

/-- An output fact has the disposition of the retained observation. -/
theorem outputOf {f : OutputFact} (hf : c.output = some f) (ho : c.observation = some o) :
    f.disposition = o.output.disposition := by
  have hparse := h.output f hf
  simp only [parseOutput, bind_eq_ok, orFail_eq_ok, failIf_eq_ok, exists_unit, not_or,
    not_not] at hparse
  obtain ⟨-, -, -, -, -, -, -, d, -, k, -, p, hp, -, -, -, hdisposition, -⟩ := hparse
  rw [ho] at hp
  exact Option.some.inj hp ▸ hdisposition

theorem retirement_none (houtput : c.output = none) : c.retirement = none := by
  cases hf : c.retirement with
  | none => rfl
  | some f =>
    have hparse := h.retirement f hf
    simp only [parseRetirement, bind_eq_ok, orFail_eq_ok, houtput] at hparse
    obtain ⟨-, -, -, -, -, -, -, -, -, -, -, -, handle, -, o, -, k, -, out, hout, -⟩ := hparse
    cases hout

end Lawful

/-! ## Successors -/

/-- **What a containment must be that a checkpoint takes over with an
observation.** -/
def Establishes (c : Checkpoint) (o : Observation) (containment : Option Containment) : Prop :=
  ∀ f, containment = some f → ∃ t, Current c t ∧ textBefore t o.observedAt = false
    ∧ (c.consumed = true ∨ c.containmentRequestedAt ≠ none ∨ isDirectPreDispatchAbsence o = true)
    ∧ (hostContainment o c.consumed).established = true
    ∧ containmentSubject o t (hostContainment o c.consumed).backendEffectObserved = .ok f

/-- **A cell that is about to be dispatched**: allocated and not contained,
its authority unconsumed, and directly observed to be ready. -/
structure Ready (specification : Specification) (c : Checkpoint) (o : Observation) (t : String) :
    Prop where
  handle : c.handle ≠ none
  unconsumed : c.consumed = false
  unrequested : c.containmentRequestedAt = none
  uncontained : c.containment = none
  parsed : parseObservation specification none o = .ok o
  ready : isDirectPreDispatchReadiness o = true
  current : Current c t
  observed : textBefore t o.observedAt = false

/-- **What an output is retained as**, of a contained observation. -/
structure Finalizes (c : Checkpoint) (o : Observation) (standing : OutputStanding) : Prop where
  validated : ∀ t, standing.validatedAt = some t → Current c t
  runner : ∀ d, standing.runnerDigest = some d → isSha256 d = true
  inventory : ∀ d, standing.artifactInventoryDigest = some d → isSha256 d = true
  binding : ∀ b, standing.outputStoreBinding = some b → parseStoreBinding b = .ok ()
  failure : ∀ d, standing.failureFactsDigest = some d → isSha256 d = true
  joined : ∀ f, outputSubject o standing = .ok f → f.joined = true

/-- The authority of a ready cell is consumed. -/
def Consumes (specification : Specification) (c c' : Checkpoint) : Prop :=
  ∃ o t, Ready specification c o t ∧ checkpointSubject (consuming c o t) = .ok c'

/-- The owner of a ready cell refuses its dispatch. -/
def Refuses (specification : Specification) (c c' : Checkpoint) : Prop :=
  ∃ o t f, Ready specification c o t ∧ containmentSubject o t false = .ok f
    ∧ checkpointSubject (refusing c o t f) = .ok c'

/-- **One checkpoint succeeds another**: one case for each place of the host
that builds a successor. -/
inductive Succeeds (host : OperationHost) (specification : Specification)
    (inert : Observation → Prop) : Checkpoint → Checkpoint → Prop
  | allocated {c c' : Checkpoint} {handle : String} {o : Observation} :
      c.handle = none → privateHandle handle = .ok () →
      parseObservation specification none o = .ok o → nonrunning o → inert o →
      checkpointSubject { c with
        handle := some handle, observation := some o, containment := none } = .ok c' →
      Succeeds host specification inert c c'
  | requested {c c' : Checkpoint} {t : String} :
      c.handle ≠ none → c.containmentRequestedAt = none → c.containment = none → Current c t →
      checkpointSubject { c with containmentRequestedAt := some t } = .ok c' →
      Succeeds host specification inert c c'
  | observed {c c' : Checkpoint} {o : Observation} {containment : Option Containment} :
      c.handle ≠ none → c.terminalCompletion = none → c.output = none →
      (c.containment = none ∨ c.consumed = true) →
      parseObservation specification none o = .ok o →
      (c.consumed = false →
        isDirectPreDispatchReadiness o = true ∨ isDirectPreDispatchAbsence o = true) →
      Establishes c o containment →
      checkpointSubject { c with observation := some o, containment := containment } = .ok c' →
      Succeeds host specification inert c c'
  | consumed {c c' : Checkpoint} :
      Consumes specification c c' → Succeeds host specification inert c c'
  | refused {c c' : Checkpoint} :
      Refuses specification c c' → Succeeds host specification inert c c'
  | completed {c c' : Checkpoint} {o : Observation} {t : String} {result : OwnerCompletion}
      {f : TerminalCompletion} :
      c.containment ≠ none → c.terminalCompletion = none → c.output = none →
      c.observation = some o → o.output.disposition = .complete → Current c t →
      terminalCompletionSubject specification o t result = .ok f →
      checkpointSubject { c with terminalCompletion := some f } = .ok c' →
      Succeeds host specification inert c c'
  | finalized {c c' : Checkpoint} {o : Observation} {standing : OutputStanding}
      {f : OutputFact} :
      c.containment ≠ none → c.output = none → c.observation = some o →
      o.output.disposition ≠ .ambiguous → Finalizes c o standing →
      outputSubject o standing = .ok f →
      checkpointSubject { c with output := some f } = .ok c' →
      Succeeds host specification inert c c'
  | retired {c c' : Checkpoint} {handle t : String} {o : Observation} {k : Containment}
      {out : OutputFact} {coordinate : Sha256Digest} {b : ReclamationBinding}
      {obligation : ReclamationObligation} {f : Retirement} :
      c.retirement = none → c.handle = some handle → c.observation = some o →
      c.containment = some k → c.output = some out → completionExact host c o out →
      Current c t →
      digestCanonical (.object (retirementCore specification.digest t o.digest k.digest
        (c.terminalCompletion.map (·.digest)) out.digest c.consumed)) = .ok coordinate →
      parseReclamationBinding specification handle coordinate c.consumed b = .ok () →
      compileReclamationObligation specification handle coordinate b = .ok obligation →
      retirementSubject specification c o k out t coordinate b obligation = .ok f →
      checkpointSubject { c with retirement := some f } = .ok c' →
      Succeeds host specification inert c c'

/-! ## What the parser makes of each successor -/

theorem containmentSubject_eq_ok {t : String} {effect : Bool} {f : Containment}
    (h : containmentSubject o t effect = .ok f) :
    selfDigest f.record = .ok f.digest ∧ f.observationDigest = o.digest ∧ f.establishedAt = t
      ∧ f.backendEffectObserved = effect := by
  rw [containmentSubject, bind_eq_ok] at h
  obtain ⟨d, hd, h⟩ := h
  rw [pure_eq_ok] at h
  obtain rfl := h
  exact ⟨(selfDigest_congr rfl rfl rfl).trans hd, rfl, rfl, rfl⟩

/-- **A containment a checkpoint takes over is accepted with it.** -/
theorem parseContainment_of_establishes {r : Checkpoint} {f : Containment} {t : String}
    {effect : Bool} (hread : Read o) (ho : r.observation = some o)
    (hcanonical : isCanonicalTime t = true) (hopened : textBefore t r.openedAt = false)
    (hobserved : textBefore t o.observedAt = false)
    (hcause : r.consumed = true ∨ r.containmentRequestedAt ≠ none
      ∨ isDirectPreDispatchAbsence o = true)
    (hestablished : (hostContainment o r.consumed).established = true)
    (heffect : (hostContainment o r.consumed).backendEffectObserved = effect)
    (hf : containmentSubject o t effect = .ok f) : parseContainment r f = .ok () := by
  obtain ⟨hdigest, hsource, rfl, hsame⟩ := containmentSubject_eq_ok hf
  simp only [parseContainment, bind_eq_ok, failIf_eq_ok, exists_unit, orFail_eq_ok,
    canonicalTime_eq_ok, digestText_eq_ok]
  refine ⟨hcanonical, hsource ▸ hread.digest, f.digest, hdigest, o, ho, ?_, ?_⟩
  · rintro (h | h | h | ⟨hconsumed, hrequested, habsent⟩ | h)
    · exact h rfl
    · rw [hopened] at h
      cases h
    · rw [hobserved] at h
      cases h
    · rcases hcause with hc | hc | hc
      · rw [hconsumed] at hc
        cases hc
      · exact hc hrequested
      · rw [habsent] at hc
        cases hc
    · exact h hsource
  · rintro (h | h)
    · rw [hestablished] at h
      cases h
    · exact h (heffect.trans hsame.symm)

namespace Lawful

variable (h : Lawful specification c)

include h

/-- **An allocation is lawful when what it observed is inert**, and only then. -/
theorem allocated {handle : String} (hnone : c.handle = none)
    (hhandle : privateHandle handle = .ok ())
    (ho : parseObservation specification none o = .ok o) (hnonrunning : nonrunning o) :
    Lawful specification
        { c with handle := some handle, observation := some o, containment := none }
      ↔ isDirectPreDispatchReadiness o = true := by
  obtain ⟨hconsumed, hrequested, hobservation, hcontainment, hcompletion, houtput, hretirement⟩ :=
    h.blank hnone
  have hunconsumed : c.consumed = false := by rw [Checkpoint.consumed, hconsumed]; rfl
  constructor
  · intro hlawful
    have hobserved := (parseObserved_eq_ok.mp (hlawful.observation o rfl)).2 hunconsumed
    refine hobserved.resolve_right fun habsent => ?_
    simp only [isDirectPreDispatchAbsence, Bool.and_eq_true, decide_eq_true_eq] at habsent
    exact absurd (hnonrunning.2.1.symm.trans habsent.1.2.2.1) (by decide)
  · intro hready
    refine ⟨h.bound, h.backend, h.opened, h.key, ?_, h.consumed, h.requested, ?_, ?_, ?_, ?_, ?_, ?_⟩
    · rintro _ ⟨⟩
      exact hhandle
    · intro h
      cases h
    · rintro _ ⟨⟩
      exact parseObserved_eq_ok.mpr ⟨ho, fun _ => .inl hready⟩
    · intro f hf
      cases hf
    · intro f hf
      cases hcompletion.symm.trans hf
    · intro f hf
      cases houtput.symm.trans hf
    · intro f hf
      cases hretirement.symm.trans hf

/-- Nothing follows where there is no containment. -/
theorem bare (hcontainment : c.containment = none) :
    c.terminalCompletion = none ∧ c.output = none ∧ c.retirement = none :=
  ⟨h.completion_none hcontainment, h.output_none hcontainment,
    h.retirement_none (h.output_none hcontainment)⟩

theorem requestedAt {t : String} (hhandle : c.handle ≠ none) (hcontainment : c.containment = none)
    (ht : Current c t) : Lawful specification { c with containmentRequestedAt := some t } := by
  obtain ⟨hcompletion, houtput, hretirement⟩ := h.bare hcontainment
  refine ⟨h.bound, h.backend, h.opened, h.key, h.handle, h.consumed, ?_, ?_, h.observation, ?_, ?_,
    ?_, ?_⟩
  · rintro _ ⟨⟩
    exact ⟨ht.canonical, ht.not_before .opened⟩
  · intro hnone
    exact absurd hnone hhandle
  · intro f hf
    cases hcontainment.symm.trans hf
  · intro f hf
    cases hcompletion.symm.trans hf
  · intro f hf
    cases houtput.symm.trans hf
  · intro f hf
    cases hretirement.symm.trans hf

theorem observedAt {containment : Option Containment} (hhandle : c.handle ≠ none)
    (hcompletion : c.terminalCompletion = none) (houtput : c.output = none)
    (ho : parseObservation specification none o = .ok o)
    (hinert : c.consumed = false →
      isDirectPreDispatchReadiness o = true ∨ isDirectPreDispatchAbsence o = true)
    (hestablishes : Establishes c o containment) :
    Lawful specification { c with observation := some o, containment := containment } := by
  refine ⟨h.bound, h.backend, h.opened, h.key, h.handle, h.consumed, h.requested, ?_, ?_, ?_, ?_, ?_,
    ?_⟩
  · intro hnone
    exact absurd hnone hhandle
  · rintro _ ⟨⟩
    exact parseObserved_eq_ok.mpr ⟨ho, hinert⟩
  · intro f hf
    obtain ⟨t, ht, hobserved, hcause, hestablished, hsubject⟩ := hestablishes f hf
    exact parseContainment_of_establishes (read_of_parse ho) rfl ht.canonical
      (ht.not_before .opened) hobserved hcause hestablished rfl hsubject
  · intro f hf
    cases hcompletion.symm.trans hf
  · intro f hf
    cases houtput.symm.trans hf
  · intro f hf
    cases (h.retirement_none houtput).symm.trans hf

theorem consumedAt {t : String} (hready : Ready specification c o t) :
    Lawful specification (consuming c o t) := by
  obtain ⟨hcompletion, houtput, hretirement⟩ := h.bare hready.uncontained
  refine ⟨h.bound, h.backend, h.opened, h.key, h.handle, ?_, h.requested, ?_, ?_, ?_, ?_, ?_, ?_⟩
  · rintro _ ⟨⟩
    exact ⟨hready.current.canonical, hready.current.not_before .opened⟩
  · intro hnone
    exact absurd hnone hready.handle
  · rintro _ ⟨⟩
    exact parseObserved_eq_ok.mpr ⟨hready.parsed, fun hconsumed => by cases hconsumed⟩
  · intro f hf
    cases hready.uncontained.symm.trans hf
  · intro f hf
    cases hcompletion.symm.trans hf
  · intro f hf
    cases houtput.symm.trans hf
  · intro f hf
    cases hretirement.symm.trans hf

end Lawful

/-- A cell that is ready is contained as long as nothing dispatches it. -/
theorem established_of_ready (hready : isDirectPreDispatchReadiness o = true) :
    (hostContainment o false).established = true
      ∧ (hostContainment o false).backendEffectObserved = false := by
  simp only [isDirectPreDispatchReadiness, Bool.and_eq_true, decide_eq_true_eq] at hready
  obtain ⟨⟨-, hdispatch, -⟩, hestablished⟩ := hready
  have heffect : decide (o.dispatchState ≠ .notObserved) = false := by simp [hdispatch]
  rw [hostContainment, heffect]
  exact ⟨hestablished, rfl⟩

/-- A cell that is gone is not ready. -/
theorem not_ready_of_absent (h : isDirectPreDispatchAbsence o = true) :
    isDirectPreDispatchReadiness o = false := by
  simp only [isDirectPreDispatchAbsence, Bool.and_eq_true, decide_eq_true_eq] at h
  rw [isDirectPreDispatchReadiness, h.1.1]
  rfl

/-- The digest of a completion's value is there. -/
theorem terminalCompletionFields_eq_ok {t : String} {result : OwnerCompletion}
    {f : TerminalCompletion} (h : terminalCompletionFields specification o t result = .ok f) :
    f.specificationDigest = specification.digest ∧ f.observationDigest = o.digest
      ∧ f.capturedAt = t ∧ f.joined = true ∧ (∀ d, f.valueDigest = some d → isSha256 d = true)
      ∧ ∀ d, f.failureFactsDigest = some d → isSha256 d = true := by
  cases result with
  | observed value =>
    simp only [terminalCompletionFields, bind_eq_ok, orFail_eq_ok, failIf_eq_ok, exists_unit,
      pure_eq_ok, not_lt] at h
    obtain ⟨d, hd, hbound, rfl⟩ := h
    have hdigest : digestCanonical (.object value) = .ok d := by
      cases hvalue : digestCanonical (.object value) with
      | error e =>
        rw [hvalue] at hd
        cases hd
      | ok d' =>
        rw [hvalue] at hd
        rw [Option.some.inj hd]
    refine ⟨rfl, rfl, rfl, ?_, ?_, ?_⟩
    · simp only [TerminalCompletion.joined, decide_eq_true_eq]
      refine ⟨by simp, trivial, hbound, hd.symm⟩
    · rintro _ ⟨⟩
      exact isSha256_digestCanonical hdigest
    · intro d hd
      cases hd
  | invalid failureFactsDigest =>
    simp only [terminalCompletionFields, bind_eq_ok, failIf_eq_ok, exists_unit, pure_eq_ok,
      Bool.not_eq_false] at h
    obtain ⟨hdigest, rfl⟩ := h
    refine ⟨rfl, rfl, rfl, ?_, ?_, ?_⟩
    · simp [TerminalCompletion.joined]
    · intro d hd
      cases hd
    · rintro _ ⟨⟩
      exact hdigest
  | unrecognized => cases h

theorem terminalCompletionSubject_eq_ok {t : String} {result : OwnerCompletion}
    {f : TerminalCompletion} (h : terminalCompletionSubject specification o t result = .ok f) :
    selfDigest f.record = .ok f.digest
      ∧ f.specificationDigest = specification.digest ∧ f.observationDigest = o.digest
      ∧ f.capturedAt = t ∧ f.joined = true ∧ (∀ d, f.valueDigest = some d → isSha256 d = true)
      ∧ ∀ d, f.failureFactsDigest = some d → isSha256 d = true := by
  simp only [terminalCompletionSubject, bind_eq_ok] at h
  obtain ⟨subject, hsubject, d, hd, h⟩ := h
  rw [pure_eq_ok] at h
  obtain rfl := h
  obtain ⟨h₁, h₂, h₃, h₄, h₅, h₆⟩ := terminalCompletionFields_eq_ok hsubject
  exact ⟨(selfDigest_congr rfl rfl rfl).trans hd, h₁, h₂, h₃, h₄, h₅, h₆⟩

theorem outputSubject_eq_ok {standing : OutputStanding} {f : OutputFact}
    (h : outputSubject o standing = .ok f) :
    selfDigest f.record = .ok f.digest ∧ f.observationDigest = o.digest
      ∧ f.disposition = o.output.disposition ∧ f.manifestDigest = o.output.manifestDigest
      ∧ f.carrierByteLength = o.output.carrierByteLength ∧ f.validatedAt = standing.validatedAt
      ∧ f.runnerDigest = standing.runnerDigest
      ∧ f.artifactInventoryDigest = standing.artifactInventoryDigest
      ∧ f.outputStoreBinding = standing.outputStoreBinding
      ∧ f.failureFactsDigest = standing.failureFactsDigest
      ∧ f.validation = standing.validation := by
  simp only [outputSubject, bind_eq_ok] at h
  obtain ⟨d, hd, h⟩ := h
  rw [pure_eq_ok] at h
  obtain rfl := h
  exact ⟨(selfDigest_congr rfl rfl rfl).trans hd, rfl, rfl, rfl, rfl, rfl, rfl, rfl, rfl, rfl, rfl⟩

namespace Lawful

variable (h : Lawful specification c)

include h

theorem refusedAt {t : String} {f : Containment} (hready : Ready specification c o t)
    (hf : containmentSubject o t false = .ok f) :
    Lawful specification (refusing c o t f) := by
  obtain ⟨hcompletion, houtput, hretirement⟩ := h.bare hready.uncontained
  have hunconsumed : (refusing c o t f).consumed = false := hready.unconsumed
  have hcontained := established_of_ready hready.ready
  refine ⟨h.bound, h.backend, h.opened, h.key, h.handle, h.consumed, ?_, ?_, ?_, ?_, ?_, ?_, ?_⟩
  · rintro _ ⟨⟩
    exact ⟨hready.current.canonical, hready.current.not_before .opened⟩
  · intro hnone
    exact absurd hnone hready.handle
  · rintro _ ⟨⟩
    exact parseObserved_eq_ok.mpr ⟨hready.parsed, fun _ => .inl hready.ready⟩
  · rintro _ ⟨⟩
    have hrequested : (refusing c o t f).containmentRequestedAt ≠ none := fun hnone => by
      cases hnone
    exact parseContainment_of_establishes (read_of_parse hready.parsed) rfl
      hready.current.canonical (hready.current.not_before .opened) hready.observed
      (.inr (.inl hrequested)) (hunconsumed ▸ hcontained.1) (hunconsumed ▸ hcontained.2) hf
  · intro f hf
    cases hcompletion.symm.trans hf
  · intro f hf
    cases houtput.symm.trans hf
  · intro f hf
    cases hretirement.symm.trans hf

/-- The observation of a contained checkpoint is the one its containment is
about. -/
theorem source {k : Containment} (hk : c.containment = some k) (ho : c.observation = some o) :
    k.observationDigest = o.digest := by
  obtain ⟨p, hp, hsource, -⟩ := h.contained hk
  rw [ho] at hp
  exact Option.some.inj hp ▸ hsource

theorem completedAt {t : String} {result : OwnerCompletion} {f : TerminalCompletion}
    (hcontainment : c.containment ≠ none) (houtput : c.output = none)
    (ho : c.observation = some o) (hcomplete : o.output.disposition = .complete)
    (ht : Current c t) (hf : terminalCompletionSubject specification o t result = .ok f) :
    Lawful specification { c with terminalCompletion := some f } := by
  obtain ⟨k, hk⟩ := Option.ne_none_iff_exists'.mp hcontainment
  obtain ⟨hdigest, hspecification, hobservation, rfl, hjoined, hvalue, hfailure⟩ :=
    terminalCompletionSubject_eq_ok hf
  refine ⟨h.bound, h.backend, h.opened, h.key, h.handle, h.consumed, h.requested, ?_, h.observation,
    h.containment, ?_, ?_, ?_⟩
  · intro hnone
    exact absurd (h.blank hnone).2.2.2.1 hcontainment
  · rintro _ ⟨⟩
    simp only [parseCompletionOf, parseTerminalCompletion, bind_eq_ok, orFail_eq_ok, exists_unit,
      failIf_eq_ok, canonicalTime_eq_ok, digestText_eq_ok, ifSome_eq_ok]
    refine ⟨k, hk, o, ho, ht.canonical, hobservation ▸ (h.read ho).digest, hvalue, hfailure,
      f.digest, hdigest, ?_⟩
    rintro (hc | hc | hc | hc | hc | hc | hc)
    · rw [hjoined] at hc
      cases hc
    · exact hc hspecification
    · exact hc hcomplete
    · exact hc hobservation
    · exact hc (hobservation.trans (h.source hk ho).symm)
    · rw [ht.not_before (.contained hk)] at hc
      cases hc
    · exact hc rfl
  · intro f hf
    cases houtput.symm.trans hf
  · intro f hf
    cases (h.retirement_none houtput).symm.trans hf

theorem finalizedAt {standing : OutputStanding} {f : OutputFact}
    (hcontainment : c.containment ≠ none) (houtput : c.output = none)
    (ho : c.observation = some o) (hfinal : o.output.disposition ≠ .ambiguous)
    (hstanding : Finalizes c o standing) (hf : outputSubject o standing = .ok f) :
    Lawful specification { c with output := some f } := by
  obtain ⟨k, hk⟩ := Option.ne_none_iff_exists'.mp hcontainment
  obtain ⟨hdigest, hobservation, hdisposition, hmanifest, hlength, hvalidated, hrunner, hinventory,
    hbinding, hfailure, -⟩ := outputSubject_eq_ok hf
  refine ⟨h.bound, h.backend, h.opened, h.key, h.handle, h.consumed, h.requested, ?_, h.observation,
    h.containment, h.completion, ?_, ?_⟩
  · intro hnone
    exact absurd (h.blank hnone).2.2.2.1 hcontainment
  · rintro _ ⟨⟩
    simp only [parseOutput, bind_eq_ok, orFail_eq_ok, exists_unit, failIf_eq_ok,
      canonicalTime_eq_ok, digestText_eq_ok, ifSome_eq_ok]
    rw [hmanifest, hrunner, hinventory, hfailure, hbinding, hvalidated]
    refine ⟨hobservation ▸ (h.read ho).digest, (h.read ho).manifest, hstanding.runner,
      hstanding.inventory, hstanding.failure, fun b hb => ?_, fun t ht => ?_, f.digest, hdigest, k, hk,
      o, ho, ?_⟩
    · rw [hstanding.binding b hb]
      rfl
    · exact (hstanding.validated t ht).canonical
    · rintro (hc | hc | hc | hc | hc | hc | hc | hc | hc)
      · exact hc rfl
      · exact hc (hobservation.trans (h.source hk ho).symm)
      · exact hc hobservation
      · exact hc hdisposition
      · exact hc rfl
      · exact hc hlength
      · rw [hstanding.joined f hf] at hc
        cases hc
      · cases ht : standing.validatedAt with
        | none =>
          rw [ht] at hc
          cases hc
        | some t =>
          rw [ht, Option.any_some, (hstanding.validated t ht).not_before (.contained hk)] at hc
          cases hc
      · exact hfinal (hdisposition.symm.trans hc)
  · intro f hf
    cases (h.retirement_none houtput).symm.trans hf

end Lawful

/-! ## Retirement -/

/-- An obligation compiled for a binding is read back beside it. -/
theorem parseReclamationObligation_of_compile {handle : String} {coordinate : Sha256Digest}
    {consumed : Bool} {b : ReclamationBinding} {obligation : ReclamationObligation}
    (hb : parseReclamationBinding specification handle coordinate consumed b = .ok ())
    (h : compileReclamationObligation specification handle coordinate b = .ok obligation) :
    parseReclamationObligation specification b obligation = .ok ()
      ∧ obligation.retirementCheckpointDigest = coordinate := by
  simp only [parseReclamationBinding, bind_eq_ok, exists_unit, failIf_eq_ok, not_or,
    not_not] at hb
  obtain ⟨hnormalized, hhandle, hcoordinate, -⟩ := hb
  have hnormal := hnormalized
  simp only [normalizedReclamationBinding, bind_eq_ok, exists_unit, failIf_eq_ok, not_or,
    not_not] at hnormal
  obtain ⟨-, -, -, bd, -, identity, hidentity, d, -, hsame, -, -⟩ := hnormal
  simp only [compileReclamationObligation, bind_eq_ok, exists_unit, failIf_eq_ok] at h
  obtain ⟨hsha, -, identity', hidentity', digest, hdigest, h⟩ := h
  rw [pure_eq_ok] at h
  obtain rfl := h
  refine ⟨?_, rfl⟩
  rw [hhandle] at hidentity
  have hid : identity = identity' := Except.ok.inj (hidentity.symm.trans hidentity')
  simp only [parseReclamationObligation, bind_eq_ok, exists_unit, failIf_eq_ok]
  refine ⟨hnormalized, digest, (selfDigest_congr rfl rfl rfl).trans hdigest, ?_⟩
  rintro (hc | hc | hc | hc | hc | hc | hc)
  · exact hc rfl
  · exact hc (hid.symm.trans hsame.symm)
  · exact hsha hc
  · exact hc hcoordinate.symm
  · exact hc rfl
  · exact hc rfl
  · exact hc rfl

theorem Lawful.retiredAt (h : Lawful specification c) {handle t : String} {k : Containment}
    {out : OutputFact} {coordinate : Sha256Digest} {b : ReclamationBinding}
    {obligation : ReclamationObligation} {f : Retirement} (hhandle : c.handle = some handle)
    (ho : c.observation = some o) (hk : c.containment = some k) (hout : c.output = some out)
    (ht : Current c t)
    (hcore : digestCanonical (.object (retirementCore specification.digest t o.digest k.digest
      (c.terminalCompletion.map (·.digest)) out.digest c.consumed)) = .ok coordinate)
    (hb : parseReclamationBinding specification handle coordinate c.consumed b = .ok ())
    (hobligation : compileReclamationObligation specification handle coordinate b = .ok obligation)
    (hf : retirementSubject specification c o k out t coordinate b obligation = .ok f) :
    Lawful specification { c with retirement := some f } := by
  obtain ⟨hparsed, hsame⟩ := parseReclamationObligation_of_compile hb hobligation
  rw [retirementSubject, bind_eq_ok] at hf
  obtain ⟨digest, hdigest, hf⟩ := hf
  rw [pure_eq_ok] at hf
  obtain rfl := hf
  refine ⟨h.bound, h.backend, h.opened, h.key, h.handle, h.consumed, h.requested, ?_, h.observation,
    h.containment, h.completion, h.output, ?_⟩
  · intro hnone
    cases hhandle.symm.trans hnone
  · rintro _ ⟨⟩
    simp only [parseRetirement, bind_eq_ok, orFail_eq_ok, exists_unit, failIf_eq_ok,
      canonicalTime_eq_ok, digestText_eq_ok, ifSome_eq_ok]
    have hcompletion : ∀ d, c.terminalCompletion.map (·.digest) = some d → isSha256 d = true := by
      intro d hd
      obtain ⟨completion, hcompletion, rfl⟩ := Option.map_eq_some_iff.mp hd
      exact h.completionDigest hcompletion
    obtain ⟨p, hp, -, -, hkdigest⟩ := h.contained hk
    refine ⟨ht.canonical, (h.read ho).digest, hkdigest, hcompletion, (h.finalOutput hout).1,
      isSha256_digestCanonical hcore, handle, hhandle, o, ho, k, hk, out, hout, coordinate, hcore,
      digest, (selfDigest_congr rfl rfl rfl).trans hdigest, ?_, hb, hparsed, ?_⟩
    · rintro (hc | hc | hc | hc | hc | hc | hc | hc | hc | hc | hc)
      · exact hc rfl
      · exact hc rfl
      · exact hc rfl
      · exact hc rfl
      · exact hc rfl
      · exact hc rfl
      · rw [ht.not_before (.contained hk)] at hc
        cases hc
      · obtain ⟨completion, hcompletion, hlate⟩ := any_eq_true.mp hc
        rw [ht.not_before (.completed hcompletion)] at hlate
        cases hlate
      · obtain ⟨time, htime, hlate⟩ := any_eq_true.mp hc
        rw [ht.not_before (.validated hout htime)] at hlate
        cases hlate
      · exact hc rfl
      · exact hc rfl
    · exact fun hc => hc hsame

/-! ## Closure -/

/-- **Every successor of an accepted checkpoint is accepted**, the one after
an allocation exactly when its observation is ready. -/
theorem accepted_successor_iff (h : Accepted specification c)
    (hs : Succeeds host specification inert c c') :
    Accepted specification c' ↔
      (c.handle = none → ∀ o, c'.observation = some o → isDirectPreDispatchReadiness o = true) := by
  have hlawful := h.lawful
  cases hs with
  | allocated hnone hhandle ho hnonrunning _ hsealed =>
    rename_i handle o _
    have hiff := hlawful.allocated hnone hhandle ho hnonrunning
    obtain ⟨d, -, hc'⟩ := checkpointSubject_eq_ok.mp hsealed
    constructor
    · intro haccepted _ p hp
      rw [hc'] at hp
      obtain rfl := Option.some.inj hp
      exact hiff.mp (lawful_of_sealed hsealed haccepted)
    · intro hready
      exact accepted_of_sealed (hiff.mpr (hready hnone o (by rw [hc']))) hsealed
  | requested hhandle _ hcontainment ht hsealed =>
    exact iff_of_true (accepted_of_sealed (hlawful.requestedAt hhandle hcontainment ht) hsealed)
      fun hnone => absurd hnone hhandle
  | observed hhandle hcompletion houtput _ ho hinert hestablishes hsealed =>
    exact iff_of_true
      (accepted_of_sealed
        (hlawful.observedAt hhandle hcompletion houtput ho hinert hestablishes) hsealed)
      fun hnone => absurd hnone hhandle
  | consumed hconsumes =>
    obtain ⟨o, t, hready, hsealed⟩ := hconsumes
    exact iff_of_true (accepted_of_sealed (hlawful.consumedAt hready) hsealed)
      fun hnone => absurd hnone hready.handle
  | refused hrefuses =>
    obtain ⟨o, t, f, hready, hf, hsealed⟩ := hrefuses
    exact iff_of_true (accepted_of_sealed (hlawful.refusedAt hready hf) hsealed)
      fun hnone => absurd hnone hready.handle
  | completed hcontainment _ houtput ho hcomplete ht hf hsealed =>
    exact iff_of_true
      (accepted_of_sealed
        (hlawful.completedAt hcontainment houtput ho hcomplete ht hf) hsealed)
      fun hnone => absurd (hlawful.blank hnone).2.2.2.1 hcontainment
  | finalized hcontainment houtput ho hfinal hstanding hf hsealed =>
    exact iff_of_true
      (accepted_of_sealed
        (hlawful.finalizedAt hcontainment houtput ho hfinal hstanding hf) hsealed)
      fun hnone => absurd (hlawful.blank hnone).2.2.2.1 hcontainment
  | retired _ hhandle ho hk hout _ ht hcore hb hobligation hf hsealed =>
    exact iff_of_true
      (accepted_of_sealed
        (hlawful.retiredAt hhandle ho hk hout ht hcore hb hobligation hf) hsealed)
      fun hnone => by cases hhandle.symm.trans hnone

/-- **A checkpoint that opens an operation.** -/
def Opens (specification : Specification) (c : Checkpoint) : Prop :=
  ∃ key t, assertAllocationKey key = .ok () ∧ isCanonicalTime t = true
    ∧ checkpointSubject (openingCheckpoint specification key t) = .ok c

theorem Opens.accepted (h : Opens specification c) : Accepted specification c := by
  obtain ⟨key, t, hkey, ht, hsealed⟩ := h
  refine accepted_of_sealed ⟨rfl, rfl, ht, hkey, ?_, ?_, ?_, ?_, ?_, ?_, ?_, ?_, ?_⟩ hsealed
  · intro _ h
    cases h
  · intro _ h
    cases h
  · intro _ h
    cases h
  · exact fun _ => ⟨rfl, rfl, rfl, rfl, rfl, rfl, rfl⟩
  · intro _ h
    cases h
  · intro _ h
    cases h
  · intro _ h
    cases h
  · intro _ h
    cases h
  · intro _ h
    cases h

/-! ## What a successor keeps -/

/-- **The facts of a checkpoint are kept by a later one.** -/
structure Preserves (c c' : Checkpoint) : Prop where
  specification : c'.specificationDigest = c.specificationDigest
  backend : c'.backendProfile = c.backendProfile
  opened : c'.openedAt = c.openedAt
  key : c'.allocationKey = c.allocationKey
  handle : ∀ handle, c.handle = some handle → c'.handle = some handle
  consumed : ∀ t, c.dispatchAuthorityConsumedAt = some t → c'.dispatchAuthorityConsumedAt = some t
  requested : ∀ t, c.containmentRequestedAt = some t → c'.containmentRequestedAt = some t
  completion : ∀ f, c.terminalCompletion = some f → c'.terminalCompletion = some f
  output : ∀ f, c.output = some f → c'.output = some f
  retirement : ∀ f, c.retirement = some f → c'.retirement = some f
  bound : c.terminalCompletion ≠ none ∨ c.output ≠ none →
    c'.observation = c.observation ∧ c'.containment = c.containment

namespace Preserves

theorem refl (c : Checkpoint) : Preserves c c :=
  ⟨rfl, rfl, rfl, rfl, fun _ => id, fun _ => id, fun _ => id, fun _ => id, fun _ => id,
    fun _ => id, fun _ => ⟨rfl, rfl⟩⟩

theorem trans {a b c : Checkpoint} (hab : Preserves a b) (hbc : Preserves b c) :
    Preserves a c := by
  refine ⟨hbc.specification.trans hab.specification, hbc.backend.trans hab.backend,
    hbc.opened.trans hab.opened, hbc.key.trans hab.key, fun _ h => hbc.handle _ (hab.handle _ h),
    fun _ h => hbc.consumed _ (hab.consumed _ h), fun _ h => hbc.requested _ (hab.requested _ h),
    fun _ h => hbc.completion _ (hab.completion _ h), fun _ h => hbc.output _ (hab.output _ h),
    fun _ h => hbc.retirement _ (hab.retirement _ h), fun h => ?_⟩
  have hb : b.terminalCompletion ≠ none ∨ b.output ≠ none := by
    rcases h with h | h
    · obtain ⟨f, hf⟩ := Option.ne_none_iff_exists'.mp h
      exact .inl (Option.ne_none_iff_exists'.mpr ⟨f, hab.completion f hf⟩)
    · obtain ⟨f, hf⟩ := Option.ne_none_iff_exists'.mp h
      exact .inr (Option.ne_none_iff_exists'.mpr ⟨f, hab.output f hf⟩)
  exact ⟨(hbc.bound hb).1.trans (hab.bound h).1, (hbc.bound hb).2.trans (hab.bound h).2⟩

/-- The digest is no fact. -/
theorem of_sealed {r : Checkpoint} (hsealed : checkpointSubject r = .ok c') (h : Preserves c r) :
    Preserves c c' := by
  obtain ⟨d, -, rfl⟩ := checkpointSubject_eq_ok.mp hsealed
  exact ⟨h.specification, h.backend, h.opened, h.key, h.handle, h.consumed, h.requested,
    h.completion, h.output, h.retirement, h.bound⟩

end Preserves

/-- A fact that was missing is not replaced. -/
theorem eq_some_of_none {α : Type} {value : Option α} {a : α} {p : Prop} (h : value = none)
    (ha : value = some a) : p := by
  cases h.symm.trans ha

/-- **A successor keeps the facts of an accepted checkpoint.** -/
theorem Succeeds.preserves (hs : Succeeds host specification inert c c')
    (h : Accepted specification c) : Preserves c c' := by
  have hlawful := h.lawful
  cases hs with
  | allocated hnone _ _ _ _ hsealed =>
    obtain ⟨-, -, -, -, hcompletion, houtput, -⟩ := hlawful.blank hnone
    refine Preserves.of_sealed hsealed ⟨rfl, rfl, rfl, rfl, fun _ => eq_some_of_none hnone, fun _ => id,
      fun _ => id, fun _ => id, fun _ => id, fun _ => id, fun hbound => ?_⟩
    exact (hbound.elim (· hcompletion) (· houtput)).elim
  | requested _ hrequested _ _ hsealed =>
    exact Preserves.of_sealed hsealed ⟨rfl, rfl, rfl, rfl, fun _ => id, fun _ => id,
      fun _ => eq_some_of_none hrequested, fun _ => id, fun _ => id, fun _ => id,
      fun _ => ⟨rfl, rfl⟩⟩
  | observed _ hcompletion houtput _ _ _ _ hsealed =>
    refine Preserves.of_sealed hsealed ⟨rfl, rfl, rfl, rfl, fun _ => id, fun _ => id, fun _ => id,
      fun _ => id, fun _ => id, fun _ => id, fun hbound => ?_⟩
    exact (hbound.elim (· hcompletion) (· houtput)).elim
  | consumed hconsumes =>
    obtain ⟨o, t, hready, hsealed⟩ := hconsumes
    obtain ⟨hcompletion, houtput, -⟩ := hlawful.bare hready.uncontained
    have hunconsumed : c.dispatchAuthorityConsumedAt = none := by
      simpa [Checkpoint.consumed] using hready.unconsumed
    refine Preserves.of_sealed hsealed ⟨rfl, rfl, rfl, rfl, fun _ => id,
      fun _ => eq_some_of_none hunconsumed, fun _ => id, fun _ => id, fun _ => id, fun _ => id,
      fun hbound => ?_⟩
    exact (hbound.elim (· hcompletion) (· houtput)).elim
  | refused hrefuses =>
    obtain ⟨o, t, f, hready, -, hsealed⟩ := hrefuses
    obtain ⟨hcompletion, houtput, -⟩ := hlawful.bare hready.uncontained
    refine Preserves.of_sealed hsealed ⟨rfl, rfl, rfl, rfl, fun _ => id, fun _ => id,
      fun _ => eq_some_of_none hready.unrequested, fun _ => id, fun _ => id, fun _ => id,
      fun hbound => ?_⟩
    exact (hbound.elim (· hcompletion) (· houtput)).elim
  | completed _ hcompletion _ _ _ _ _ hsealed =>
    exact Preserves.of_sealed hsealed ⟨rfl, rfl, rfl, rfl, fun _ => id, fun _ => id, fun _ => id,
      fun _ => eq_some_of_none hcompletion, fun _ => id, fun _ => id, fun _ => ⟨rfl, rfl⟩⟩
  | finalized _ houtput _ _ _ _ hsealed =>
    exact Preserves.of_sealed hsealed ⟨rfl, rfl, rfl, rfl, fun _ => id, fun _ => id, fun _ => id,
      fun _ => id, fun _ => eq_some_of_none houtput, fun _ => id, fun _ => ⟨rfl, rfl⟩⟩
  | retired hretirement _ _ _ _ _ _ _ _ _ _ hsealed =>
    exact Preserves.of_sealed hsealed ⟨rfl, rfl, rfl, rfl, fun _ => id, fun _ => id, fun _ => id,
      fun _ => id, fun _ => id, fun _ => eq_some_of_none hretirement, fun _ => ⟨rfl, rfl⟩⟩

/-- **Dispatch is over before it began**: authority is not consumed, and
containment is requested or established. -/
structure Barred (c : Checkpoint) : Prop where
  unconsumed : c.consumed = false
  contained : c.containmentRequestedAt ≠ none ∨ c.containment ≠ none

/-- **A checkpoint that bars dispatch is only followed by others.** -/
theorem Succeeds.barred (hs : Succeeds host specification inert c c')
    (h : Accepted specification c) (hbarred : Barred c) : Barred c' := by
  have hsealed : ∀ r : Checkpoint, checkpointSubject r = .ok c' → Barred r → Barred c' := by
    intro r hr hbar
    obtain ⟨d, -, rfl⟩ := checkpointSubject_eq_ok.mp hr
    exact ⟨hbar.unconsumed, hbar.contained⟩
  cases hs with
  | allocated hnone _ _ _ _ _ =>
    obtain ⟨-, hrequested, -, hcontainment, -⟩ := h.lawful.blank hnone
    exact (hbarred.contained.elim (· hrequested) (· hcontainment)).elim
  | requested _ hrequested hcontainment _ _ =>
    exact (hbarred.contained.elim (· hrequested) (· hcontainment)).elim
  | observed _ _ _ hcause _ _ _ hr =>
    have hcontainment : c.containment = none :=
      hcause.resolve_right fun hconsumed => by
        cases hconsumed.symm.trans hbarred.unconsumed
    exact hsealed _ hr
      ⟨hbarred.unconsumed, .inl (hbarred.contained.resolve_right (· hcontainment))⟩
  | consumed hconsumes =>
    obtain ⟨o, t, hready, -⟩ := hconsumes
    exact (hbarred.contained.elim (· hready.unrequested) (· hready.uncontained)).elim
  | refused hrefuses =>
    obtain ⟨o, t, f, hready, -⟩ := hrefuses
    exact (hbarred.contained.elim (· hready.unrequested) (· hready.uncontained)).elim
  | completed _ _ _ _ _ _ _ hr => exact hsealed _ hr ⟨hbarred.unconsumed, hbarred.contained⟩
  | finalized _ _ _ _ _ _ hr => exact hsealed _ hr ⟨hbarred.unconsumed, hbarred.contained⟩
  | retired _ _ _ _ _ _ _ _ _ _ _ hr =>
    exact hsealed _ hr ⟨hbarred.unconsumed, hbarred.contained⟩

/-- **Authority is consumed by one kind of step only.** -/
theorem Succeeds.consumes (hs : Succeeds host specification inert c c')
    (hbefore : c.consumed = false) (hafter : c'.consumed = true) :
    Consumes specification c c' := by
  have hsealed : ∀ r : Checkpoint, checkpointSubject r = .ok c' → r.consumed = false →
      Consumes specification c c' := by
    intro r hr hunconsumed
    obtain ⟨d, -, rfl⟩ := checkpointSubject_eq_ok.mp hr
    cases hunconsumed.symm.trans hafter
  cases hs with
  | consumed hconsumes => exact hconsumes
  | allocated _ _ _ _ _ hr => exact hsealed _ hr hbefore
  | requested _ _ _ _ hr => exact hsealed _ hr hbefore
  | observed _ _ _ _ _ _ _ hr => exact hsealed _ hr hbefore
  | refused hrefuses =>
    obtain ⟨o, t, f, -, -, hr⟩ := hrefuses
    exact hsealed _ hr hbefore
  | completed _ _ _ _ _ _ _ hr => exact hsealed _ hr hbefore
  | finalized _ _ _ _ _ _ hr => exact hsealed _ hr hbefore
  | retired _ _ _ _ _ _ _ _ _ _ _ hr => exact hsealed _ hr hbefore

/-- **What follows an unallocated checkpoint** has the observation of its
allocation. -/
theorem Succeeds.allocation (hs : Succeeds host specification inert c c')
    (h : Accepted specification c) (hnone : c.handle = none) :
    ∃ o, c'.observation = some o ∧ parseObservation specification none o = .ok o
      ∧ nonrunning o ∧ inert o := by
  obtain ⟨-, -, -, hcontainment, -, houtput, -⟩ := h.lawful.blank hnone
  cases hs with
  | allocated _ _ ho hnonrunning hinert hr =>
    rename_i handle o _ _
    obtain ⟨d, -, rfl⟩ := checkpointSubject_eq_ok.mp hr
    exact ⟨o, rfl, ho, hnonrunning, hinert⟩
  | requested hhandle _ _ _ _ => exact absurd hnone hhandle
  | observed hhandle _ _ _ _ _ _ _ => exact absurd hnone hhandle
  | consumed hconsumes =>
    obtain ⟨o, t, hready, -⟩ := hconsumes
    exact absurd hnone hready.handle
  | refused hrefuses =>
    obtain ⟨o, t, f, hready, -⟩ := hrefuses
    exact absurd hnone hready.handle
  | completed hcontained _ _ _ _ _ _ _ => exact absurd hcontainment hcontained
  | finalized hcontained _ _ _ _ _ _ => exact absurd hcontainment hcontained
  | retired _ hhandle _ _ _ _ _ _ _ _ _ _ => cases hhandle.symm.trans hnone

theorem Consumes.consumed (h : Consumes specification c c') : c'.consumed = true := by
  obtain ⟨o, t, -, hsealed⟩ := h
  obtain ⟨d, -, rfl⟩ := checkpointSubject_eq_ok.mp hsealed
  rfl

/-- **A retired operation**: contained by the observation it retains, its
output final, and the owner's terminal completion there where it must be. -/
def RetiredExactly (host : OperationHost) (c : Checkpoint) : Prop :=
  ∃ o k out, c.observation = some o ∧ c.containment = some k ∧ c.output = some out
    ∧ k.observationDigest = o.digest ∧ (hostContainment o c.consumed).established = true
    ∧ out.disposition ≠ .ambiguous
    ∧ (host.observeTerminalCompletion = true → out.disposition = .complete →
      out.validation ≠ .unavailable → c.terminalCompletion ≠ none)

theorem Succeeds.retiredExactly (hs : Succeeds host specification inert c c')
    (h : Accepted specification c) (hbefore : c.retirement = none)
    (hafter : c'.retirement ≠ none) : RetiredExactly host c' := by
  have hsealed : ∀ r : Checkpoint, checkpointSubject r = .ok c' → r.retirement = none →
      RetiredExactly host c' := by
    intro r hr hnone
    obtain ⟨d, -, rfl⟩ := checkpointSubject_eq_ok.mp hr
    exact absurd hnone hafter
  cases hs with
  | consumed hconsumes =>
    obtain ⟨o, t, -, hr⟩ := hconsumes
    exact hsealed _ hr hbefore
  | allocated _ _ _ _ _ hr => exact hsealed _ hr hbefore
  | requested _ _ _ _ hr => exact hsealed _ hr hbefore
  | observed _ _ _ _ _ _ _ hr => exact hsealed _ hr hbefore
  | refused hrefuses =>
    obtain ⟨o, t, f, -, -, hr⟩ := hrefuses
    exact hsealed _ hr hbefore
  | completed _ _ _ _ _ _ _ hr => exact hsealed _ hr hbefore
  | finalized _ _ _ _ _ _ hr => exact hsealed _ hr hbefore
  | retired _ _ ho hk hout hexact _ _ _ _ _ hr =>
    rename_i o k out _ _ _ _ _ _ _ _ _ _ _
    obtain ⟨d, -, rfl⟩ := checkpointSubject_eq_ok.mp hr
    obtain ⟨p, hp, hsource, hestablished, -⟩ := h.lawful.contained hk
    obtain rfl := Option.some.inj (ho.symm.trans hp)
    refine ⟨o, k, out, ho, hk, hout, hsource, hestablished, (h.lawful.finalOutput hout).2,
      fun hobserver hcomplete hvalidation => ?_⟩
    exact hexact.1 ⟨hobserver, (h.lawful.outputOf hout ho).symm.trans hcomplete⟩ hvalidation

end Execution
