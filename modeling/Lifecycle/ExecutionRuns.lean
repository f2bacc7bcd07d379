import Lifecycle.ExecutionSuccessors

/-!
# Runs of a host

How a program of a host goes on once its calls are answered, what it takes
to seal a checkpoint, and one small cell to run it on.
-/

open Fallible Json Asking

namespace Execution

variable {host : OperationHost} {specification : Specification}

/-! ## Running a program -/

section Runs

variable {α β : Type} {transcript : List ((q : HostCall) × HostAnswer q)} {d : HostProgram β}

theorem reaches_call {q : HostCall} {onThrow : Thrown → Thrown} {f : HostResult q → HostProgram β}
    {r : HostResult q} (h : Reaches (f r) transcript d) :
    Reaches (call q onThrow >>= f) (⟨q, .ok r⟩ :: transcript) d :=
  .answer h

theorem asks_call (q : HostCall) (onThrow : Thrown → Thrown) (f : HostResult q → HostProgram β) :
    Asks (call q onThrow >>= f) [] q :=
  ⟨_, .refl⟩

theorem reaches_lifted {ε : Type} {x : Except ε α} {onThrow : ε → Thrown} {f : α → HostProgram β}
    {a : α} (hx : x = .ok a) (h : Reaches (f a) transcript d) :
    Reaches (Asking.lift (x.mapError onThrow) >>= f) transcript d := by
  rw [hx]
  exact h

theorem reaches_checked {x : Except FoundationError α} {f : α → HostProgram β} {a : α}
    (hx : x = .ok a) (h : Reaches (f a) transcript d) :
    Reaches (checked x >>= f) transcript d :=
  reaches_lifted hx h

theorem reaches_refuse {c : Prop} [Decidable c] {code message : String} {f : Unit → HostProgram β}
    (hc : ¬ c) (h : Reaches (f ()) transcript d) :
    Reaches (refuse c code message >>= f) transcript d := by
  rw [refuse, failIf_neg hc]
  exact h

theorem reaches_present {value : Option α} {code message : String} {f : α → HostProgram β}
    {a : α} (hvalue : value = some a) (h : Reaches (f a) transcript d) :
    Reaches (present value code message >>= f) transcript d := by
  rw [hvalue]
  exact h

theorem reaches_later {lowerBound label t : String} {f : String → HostProgram β}
    (hcanonical : isCanonicalTime t = true) (hlower : textBefore t lowerBound = false)
    (h : Reaches (f t) transcript d) :
    Reaches (later lowerBound label >>= f) (⟨.now, .ok t⟩ :: transcript) d := by
  rw [later, bind_assoc]
  exact reaches_call (reaches_checked (laterTime_eq_ok.mpr ⟨rfl, hcanonical, hlower⟩) h)

/-- A coordinate selects a checkpoint. -/
def Retained.selects (r : Retained) : Prop :=
  parseCoordinate r.coordinate = .ok () ∧ r.coordinate.checkpointDigest = r.checkpoint.digest

theorem parseRetained_of_accepted {r : Retained} (h : Accepted specification r.checkpoint)
    (hselects : r.selects) : parseRetained specification r = .ok r := by
  simp only [parseRetained, bind_eq_ok, exists_unit, failIf_eq_ok, pure_eq_ok]
  exact ⟨r.checkpoint, h, hselects.1, not_not.mpr hselects.2, rfl⟩

theorem reaches_read {value : Option Retained} {f : Option Retained → HostProgram β}
    (hvalue : ∀ r, value = some r → Accepted specification r.checkpoint ∧ r.selects)
    (h : Reaches (f value) transcript d) :
    Reaches (readCheckpoint specification >>= f) (⟨.read, .ok value⟩ :: transcript) d := by
  rw [readCheckpoint, bind_assoc]
  refine reaches_call (reaches_checked ?_ h)
  cases value with
  | none => rfl
  | some r =>
    obtain ⟨haccepted, hselects⟩ := hvalue r rfl
    rw [parseRead, parseRetained_of_accepted haccepted hselects]
    rfl

/-- A commit of a checkpoint, answered. -/
theorem reaches_commit {current : Option Retained} {r : Retained}
    {f : Retained → HostProgram β} (haccepted : Accepted specification r.checkpoint)
    (hselects : r.selects)
    (hrevision : ∀ c, current = some c → r.coordinate.revision = c.coordinate.revision + 1)
    (h : Reaches (f r) transcript d) :
    Reaches (commitCheckpoint specification current r.checkpoint >>= f)
      (⟨.compareExchange (current.map (·.coordinate)) r.checkpoint, .ok r⟩ :: transcript) d := by
  simp only [commitCheckpoint, bind_assoc, pure_bind]
  refine reaches_call (reaches_checked (parseRetained_of_accepted haccepted hselects)
    (reaches_refuse ?_ h))
  simp only [not_or, ne_eq, not_true_eq_false, not_false_eq_true, and_true,
    Bool.not_eq_true]
  cases current with
  | none => rfl
  | some c => simp [hrevision c rfl]

theorem asks_commit {current : Option Retained} {c : Checkpoint}
    {f : Retained → HostProgram α} : Asks (commitCheckpoint specification current c >>= f) []
      (.compareExchange (current.map (·.coordinate)) c) := by
  simp only [commitCheckpoint, bind_assoc]
  exact asks_call _ _ _

end Runs

/-- **What an `advance` does with a checkpoint** that retains no output. -/
theorem reaches_advance {runnerDigest : Sha256Digest} {requested : Bool} {current : Retained}
    {transcript : List ((q : HostCall) × HostAnswer q)} {d : HostProgram Unit}
    (hrunner : isSha256 runnerDigest = true) (haccepted : Accepted specification current.checkpoint)
    (hselects : current.selects) (houtput : current.checkpoint.output = none)
    (hretirement : current.checkpoint.retirement = none)
    (h : Reaches (completing (advanceCell host specification current runnerDigest requested))
      transcript d) :
    Reaches ((HostOperation.advance runnerDigest requested).program host specification)
      (⟨.read, .ok (some current)⟩ :: transcript) d := by
  have hvalid : validOutput current.checkpoint = none := by
    rw [validOutput, houtput]
    rfl
  simp only [HostOperation.program, completing, advance, bind_assoc]
  refine reaches_checked (digestText_eq_ok.mpr hrunner) (reaches_read (fun r hr => ?_) ?_)
  · obtain rfl := Option.some.inj hr
    exact ⟨haccepted, hselects⟩
  · simp only [advanceRead, advanceFrom, hvalid]
    rw [if_neg (not_not.mpr hretirement)]
    exact h

/-- **What an `advance` asks to retain after an allocation.** -/
theorem reaches_allocated {runnerDigest : Sha256Digest} {requested : Bool} {current : Retained}
    {handle : String} {o : Observation} {c : Checkpoint}
    {transcript : List ((q : HostCall) × HostAnswer q)} {d : HostProgram Unit}
    (hrunner : isSha256 runnerDigest = true) (haccepted : Accepted specification current.checkpoint)
    (hselects : current.selects) (hnone : current.checkpoint.handle = none)
    (hprivate : privateHandle handle = .ok ())
    (hparse : parseObservation specification none o = .ok o) (hnonrunning : nonrunning o)
    (hsealed : checkpointSubject { current.checkpoint with
      handle := some handle, observation := some o, containment := none } = .ok c)
    (h : Reaches (commitCheckpoint specification (some current) c >>= fun _ => pure ())
      transcript d) :
    Reaches ((HostOperation.advance runnerDigest requested).program host specification)
      (⟨.read, .ok (some current)⟩ :: ⟨.allocate current.checkpoint.allocationKey, .ok handle⟩
        :: ⟨.observe .allocationObserve handle, .ok o⟩ :: transcript) d := by
  obtain ⟨-, -, -, -, -, houtput, hretirement⟩ := haccepted.lawful.blank hnone
  refine reaches_advance hrunner haccepted hselects houtput hretirement ?_
  rw [completing, advanceCell, if_pos hnone]
  simp only [retainedOnly, allocateCell, bind_assoc, pure_bind]
  refine reaches_call ?_
  refine reaches_checked hprivate ?_
  refine reaches_call ?_
  refine reaches_checked hparse ?_
  refine reaches_refuse (not_not.mpr hnonrunning) ?_
  rw [commitRevised, bind_assoc]
  exact reaches_checked hsealed h

/-- **What an opening asks to retain.** -/
theorem reaches_opened {key t : String} {c : Checkpoint}
    {transcript : List ((q : HostCall) × HostAnswer q)} {d : HostProgram Unit}
    (hkey : assertAllocationKey key = .ok ()) (hcanonical : isCanonicalTime t = true)
    (hlower : textBefore t "0000-01-01T00:00:00.000Z" = false)
    (hsealed : checkpointSubject (openingCheckpoint specification key t) = .ok c)
    (h : Reaches (commitCheckpoint specification none c >>= fun _ => pure ()) transcript d) :
    Reaches (HostOperation.opening.program host specification)
      (⟨.read, .ok none⟩ :: ⟨.createAllocationKey, .ok key⟩ :: ⟨.now, .ok t⟩ :: transcript) d := by
  simp only [HostOperation.program, completing, openOperation, bind_assoc]
  refine reaches_read (fun r hr => by cases hr) ?_
  rw [openUnless, openNew]
  simp only [bind_assoc]
  refine reaches_call ?_
  refine reaches_lifted hkey ?_
  refine reaches_later hcanonical hlower ?_
  exact reaches_checked hsealed h

/-- **What an `advance` asks to retain when containment is requested.** -/
theorem reaches_requested {runnerDigest : Sha256Digest} {current : Retained} {t : String}
    {c : Checkpoint} {transcript : List ((q : HostCall) × HostAnswer q)} {d : HostProgram Unit}
    (hrunner : isSha256 runnerDigest = true) (haccepted : Accepted specification current.checkpoint)
    (hselects : current.selects) (hhandle : current.checkpoint.handle ≠ none)
    (hrequested : current.checkpoint.containmentRequestedAt = none)
    (hcontainment : current.checkpoint.containment = none) (ht : Current current.checkpoint t)
    (hsealed : checkpointSubject { current.checkpoint with containmentRequestedAt := some t }
      = .ok c)
    (h : Reaches (commitCheckpoint specification (some current) c >>= fun _ => pure ())
      transcript d) :
    Reaches ((HostOperation.advance runnerDigest true).program host specification)
      (⟨.read, .ok (some current)⟩ :: ⟨.now, .ok t⟩ :: transcript) d := by
  have houtput := haccepted.lawful.output_none hcontainment
  refine reaches_advance hrunner haccepted hselects houtput
    (haccepted.lawful.retirement_none houtput) ?_
  rw [completing, advanceCell, if_neg hhandle, if_pos ⟨hrequested, hcontainment, .inl rfl⟩]
  simp only [retainedOnly, requestContainment, bind_assoc, pure_bind]
  refine reaches_later ht.canonical ht.latest ?_
  rw [commitRevised, bind_assoc]
  exact reaches_checked hsealed h

/-- **What an `advance` asks to retain before a dispatch**, on a host without
an owner's boundary. -/
theorem reaches_consumed {runnerDigest : Sha256Digest} {current : Retained}
    {handle t : String} {readiness : Observation} {c r : Checkpoint} {k : Containment}
    {transcript : List ((q : HostCall) × HostAnswer q)} {d : HostProgram Unit}
    (hrunner : isSha256 runnerDigest = true) (haccepted : Accepted specification current.checkpoint)
    (hselects : current.selects) (hhandle : current.checkpoint.handle = some handle)
    (hunconsumed : current.checkpoint.consumed = false)
    (hrequested : current.checkpoint.containmentRequestedAt = none)
    (hcontainment : current.checkpoint.containment = none)
    (hrunning : current.checkpoint.observation.map (·.processState) ≠ some .terminal)
    (hparse : parseObservation specification current.checkpoint.observation readiness
      = .ok readiness)
    (hready : isDirectPreDispatchReadiness readiness = true)
    (hcanonical : isCanonicalTime t = true)
    (hlatest : textBefore t (laterOf (latestRuntimeTime current.checkpoint)
      (some readiness.observedAt)) = false)
    (hsealed : checkpointSubject (consuming current.checkpoint readiness t) = .ok c)
    (hk : containmentSubject readiness t false = .ok k)
    (hrefused : checkpointSubject (refusing current.checkpoint readiness t k) = .ok r)
    (hplain : host.commitPreDispatch = false)
    (h : Reaches (commitCheckpoint specification (some current) c >>= fun consumed =>
      enterBackend specification handle ⟨.dispatch, consumed⟩ >>= fun _ => pure ()) transcript d) :
    Reaches ((HostOperation.advance runnerDigest false).program host specification)
      (⟨.read, .ok (some current)⟩ :: ⟨.observe .preDispatchObserve handle, .ok readiness⟩
        :: ⟨.now, .ok t⟩ :: transcript) d := by
  have hnone : current.checkpoint.handle ≠ none := by
    rw [hhandle]
    intro hcontra
    cases hcontra
  have houtput := haccepted.lawful.output_none hcontainment
  have hunrequested : ¬ requestsContainment false current.checkpoint := by
    rintro ⟨-, -, hcause | hcause⟩
    · cases hcause
    · exact hrunning hcause
  have hunready : ¬ isDirectPreDispatchReadiness readiness = false := by
    rw [hready]
    intro hcontra
    cases hcontra
  have hplain' : ¬ host.commitPreDispatch = true := by
    rw [hplain]
    intro hcontra
    cases hcontra
  refine reaches_advance hrunner haccepted hselects houtput
    (haccepted.lawful.retirement_none houtput) ?_
  rw [completing, advanceCell, if_neg hnone, if_neg hunrequested, if_pos hcontainment,
    advanceUncontained, if_pos ⟨hunconsumed, hrequested⟩]
  simp only [retainedOnly, dispatchCell, bind_assoc, pure_bind]
  refine reaches_present hhandle ?_
  refine reaches_call ?_
  refine reaches_checked hparse ?_
  rw [if_neg (fun habsent => by cases (not_ready_of_absent habsent).symm.trans hready),
    if_neg hunready]
  simp only [dispatchReady, bind_assoc]
  refine reaches_later hcanonical hlatest ?_
  refine reaches_checked hsealed ?_
  refine reaches_checked hk ?_
  refine reaches_checked hrefused ?_
  rw [consumeAuthority, if_neg hplain']
  simp only [bind_assoc, pure_bind]
  exact h
/-! ## Sealing -/

/-- A value with a canonical text keeps one when its digest changes. -/
theorem canonicalizable_digest {fields : JsonObject} {v : Json}
    (h : Canonicalizable (.object (fields ++ [("digest", v)]))) (d : Sha256Digest) :
    Canonicalizable (.object (fields ++ [("digest", .string d)])) := by
  refine canonicalizable_object fun m hm => ?_
  rcases List.mem_append.mp hm with hm | hm
  · exact h.member (List.mem_append_left _ hm)
  · rw [List.mem_singleton.mp hm]
    exact canonicalizable_string d

theorem exists_selfDigest {fields : JsonObject} (h : Canonicalizable (.object fields)) :
    ∃ d, selfDigest fields = .ok d := by
  have hsubject : Canonicalizable (.object (fields.filter fun m => m.1 ≠ "digest")) :=
    canonicalizable_object fun m hm => h.member (List.mem_of_mem_filter hm)
  obtain ⟨text, htext⟩ := hsubject
  refine ⟨sha256Bytes text, ?_⟩
  rw [selfDigest, digestCanonical, htext]
  rfl

theorem selfDigest_observation (o : Observation) (d : Sha256Digest) :
    selfDigest { o with digest := d }.record = selfDigest o.record :=
  selfDigest_congr rfl rfl rfl

/-- **An observation is parsed once it is sealed.** -/
theorem parseObservation_sealed {o : Observation} {d : Sha256Digest}
    (hd : selfDigest o.record = .ok d) (hadmitted : o.admitted = true)
    (hbinds : o.Binds specification)
    (hproblem : combinationProblem o (some specification) = none) :
    parseObservation specification none { o with digest := d } = .ok { o with digest := d } := by
  have hadmitted' : ¬ { o with digest := d }.admitted = false := by
    rw [Bool.not_eq_false]
    simp only [Observation.admitted, Bool.and_eq_true] at hadmitted ⊢
    obtain ⟨⟨hfields, -⟩, hterminal⟩ := hadmitted
    exact ⟨⟨hfields, isSha256_digestCanonical hd⟩, hterminal⟩
  simp only [parseObservation, bind_eq_ok, failIf_eq_ok, exists_unit, pure_eq_ok]
  exact ⟨hadmitted', d, (selfDigest_observation o d).trans hd, not_not.mpr rfl,
    not_not.mpr hbinds, not_not.mpr hproblem, rfl, trivial⟩

theorem canonicalizable_backend (reference : BackendReference) :
    Canonicalizable reference.toJson := by
  refine canonicalizable_object fun m hm => ?_
  simp only [List.mem_cons, List.not_mem_nil, or_false] at hm
  rcases hm with rfl | rfl | rfl <;> exact canonicalizable_string _

theorem canonicalizable_containment (f : Containment) : Canonicalizable (.object f.record) := by
  refine canonicalizable_object fun m hm => ?_
  simp only [Containment.record, List.mem_cons, List.not_mem_nil, or_false] at hm
  rcases hm with rfl | rfl | rfl | rfl | rfl
  · exact canonicalizable_string _
  · exact canonicalizable_string _
  · exact canonicalizable_string _
  · exact ⟨_, rfl⟩
  · exact canonicalizable_string _

/-- **A checkpoint can be sealed** as long as its observation can be. -/
theorem exists_checkpointSubject {c : Checkpoint}
    (hobservation : ∀ o, c.observation = some o → Canonicalizable (.object o.record))
    (hcompletion : c.terminalCompletion = none) (houtput : c.output = none)
    (hretirement : c.retirement = none) : ∃ c', checkpointSubject c = .ok c' := by
  have hrecord : Canonicalizable (.object c.record) := by
    refine canonicalizable_object fun m hm => ?_
    simp only [Checkpoint.record, List.mem_cons, List.not_mem_nil, or_false] at hm
    rcases hm with rfl | rfl | rfl | rfl | rfl | rfl | rfl | rfl | rfl | rfl | rfl | rfl | rfl | rfl
    · exact canonicalizable_string _
    · exact canonicalizable_string _
    · exact canonicalizable_backend _
    · exact canonicalizable_string _
    · exact canonicalizable_string _
    · exact canonicalizable_textOrNull _
    · exact canonicalizable_textOrNull _
    · exact canonicalizable_textOrNull _
    · cases ho : c.observation with
      | none => exact canonicalizable_null
      | some o => exact hobservation o ho
    · cases c.containment with
      | none => exact canonicalizable_null
      | some f => exact canonicalizable_containment f
    · rw [hcompletion]
      exact canonicalizable_null
    · rw [houtput]
      exact canonicalizable_null
    · rw [hretirement]
      exact canonicalizable_null
    · exact canonicalizable_string _
  obtain ⟨d, hd⟩ := exists_selfDigest hrecord
  exact ⟨_, checkpointSubject_eq_ok.mpr ⟨d, hd, rfl⟩⟩

theorem canonicalizable_of_isOk {v : Json} (h : (canonicalJson v).isOk = true) :
    Canonicalizable v := by
  cases hv : canonicalJson v with
  | ok text => exact ⟨text, hv⟩
  | error e =>
    rw [hv] at h
    cases h

/-! ## A cell -/

def cellDigest : Sha256Digest :=
  "sha256:aaaaaaaaaaaaaaaaaaaaaaaaaaaaaaaaaaaaaaaaaaaaaaaaaaaaaaaaaaaaaaaa"

def cellKey : String :=
  "allocation-v1:aaaaaaaaaaaaaaaaaaaaaaaaaaaaaaaaaaaaaaaaaaaaaaaaaaaaaaaaaaaaaaaa"

def cellHandle : String :=
  "execution-handle-v1:aaaaaaaaaaaaaaaaaaaaaaaaaaaaaaaaaaaaaaaaaaaaaaaaaaaaaaaaaaaaaaaa"

def cellTime : String := "2026-01-01T00:00:00.000Z"

def cellSpecification : Specification where
  digest := cellDigest
  backendProfile :=
    ⟨"lifecycle.execution-backend-profile.fault-injection.v1", cellDigest, cellDigest⟩
  imageDigest := cellDigest
  inputSetDigest := cellDigest
  credentialMode := .none
  providerControlPlane := .none

/-- A host without an owner. -/
def plainHost : OperationHost := ⟨false, false, false⟩

/-- What the backend reports of an allocated cell whose process has not
started. -/
def cellObservation (descendants : Presence) (sequence : Nat) : Observation where
  specificationDigest := cellDigest
  backendProfile := cellSpecification.backendProfile
  imageDigest := cellDigest
  inputSetDigest := cellDigest
  observationSequence := sequence
  observedAt := cellTime
  allocationState := .allocated
  dispatchState := .notObserved
  processState := .notStarted
  terminal := none
  containmentFacts := ⟨.notStarted, descendants, .absent, .notInjected, .notGranted, .impossible⟩
  output := ⟨.notProduced, none, none⟩
  resourceFacts := ⟨none, none, none, none, none, none, []⟩
  digest := cellDigest

/-- A checkpoint that opens an operation on the cell. -/
theorem exists_opened : ∃ c, checkpointSubject (openingCheckpoint cellSpecification cellKey cellTime)
    = .ok c :=
  exists_checkpointSubject (fun _ h => by cases h) rfl rfl rfl

/-- The coordinate of a checkpoint. -/
def retainedAs (revision : Nat) (c : Checkpoint) : Retained :=
  ⟨⟨revision, c.digest, cellDigest⟩, c⟩

theorem retainedAs_selects {revision : Nat} {r c : Checkpoint}
    (hsealed : checkpointSubject r = .ok c)
    (h : 1 ≤ revision ∧ revision ≤ maxSafeInteger) : (retainedAs revision c).selects := by
  obtain ⟨d, hd, rfl⟩ := checkpointSubject_eq_ok.mp hsealed
  refine ⟨?_, rfl⟩
  simp only [retainedAs, parseCoordinate, bind_eq_ok, exists_unit, digestText_eq_ok]
  refine ⟨isSha256_digestCanonical hd, by decide +kernel, failIf_neg ?_⟩
  exact not_or.mpr ⟨Nat.not_lt.mpr h.1, Nat.not_lt.mpr h.2⟩

/-- An observation of the cell is parsed once it is sealed. -/
theorem exists_sealed {o : Observation}
    (hcanonical : (canonicalJson (.object o.record)).isOk = true) (hadmitted : o.admitted = true)
    (hbinds : o.Binds cellSpecification)
    (hproblem : combinationProblem o (some cellSpecification) = none) :
    ∃ d, Canonicalizable (.object { o with digest := d }.record)
      ∧ parseObservation cellSpecification none { o with digest := d }
        = .ok { o with digest := d } := by
  have hrecord := canonicalizable_of_isOk hcanonical
  obtain ⟨d, hd⟩ := exists_selfDigest hrecord
  refine ⟨d, ?_, parseObservation_sealed hd hadmitted hbinds hproblem⟩
  have hfields : ∀ o : Observation,
      o.record = o.record.dropLast ++ [("digest", .string o.digest)] := fun _ => rfl
  rw [hfields] at hrecord ⊢
  exact canonicalizable_digest hrecord d

theorem exists_cellObservation {descendants : Presence} {sequence : Nat}
    (hcanonical :
      (canonicalJson (.object (cellObservation descendants sequence).record)).isOk = true)
    (hadmitted : (cellObservation descendants sequence).admitted = true)
    (hproblem : combinationProblem (cellObservation descendants sequence) (some cellSpecification)
      = none) :
    ∃ d, Canonicalizable (.object { cellObservation descendants sequence with digest := d }.record)
      ∧ parseObservation cellSpecification none
          { cellObservation descendants sequence with digest := d }
        = .ok { cellObservation descendants sequence with digest := d } :=
  exists_sealed hcanonical hadmitted ⟨rfl, rfl, rfl, rfl⟩ hproblem

/-- A checkpoint of the cell whose times are all the same. -/
theorem current_of_times {c : Checkpoint} {t : String} (hcanonical : isCanonicalTime t = true)
    (h : latestRuntimeTime c = t) : Current c t :=
  ⟨hcanonical, h ▸ textBefore_self t⟩

theorem canonical_cellTime : isCanonicalTime cellTime = true := by decide +kernel

theorem assertFollows_digest (o p : Observation) (specification : Specification)
    (d e : Sha256Digest) :
    assertFollows { o with digest := d } specification (some { p with digest := e })
      = assertFollows o specification (some p) :=
  rfl

/-- What is parsed by itself is parsed after what it follows. -/
theorem parseObservation_after {o p : Observation} {d e : Sha256Digest}
    (hparse : parseObservation specification none { o with digest := d }
      = .ok { o with digest := d })
    (hfollows : assertFollows o specification (some p) = .ok ()) :
    parseObservation specification (some { p with digest := e }) { o with digest := d }
      = .ok { o with digest := d } := by
  simp only [parseObservation, bind_eq_ok, exists_unit] at hparse ⊢
  obtain ⟨hadmitted, own, hown, hdigest, hbinds, hproblem, -, hlast⟩ := hparse
  exact ⟨hadmitted, own, hown, hdigest, hbinds, hproblem,
    (assertFollows_digest _ _ _ _ _).trans hfollows, hlast⟩

/-- Two readings of a ready cell, one after the other. -/
theorem exists_readings : ∃ o₁ o₂ : Observation,
    (Canonicalizable (.object o₁.record) ∧ Canonicalizable (.object o₂.record))
      ∧ (parseObservation cellSpecification none o₁ = .ok o₁
        ∧ parseObservation cellSpecification (some o₁) o₂ = .ok o₂)
      ∧ (isDirectPreDispatchReadiness o₁ = true ∧ isDirectPreDispatchReadiness o₂ = true)
      ∧ (o₁.observedAt = cellTime ∧ o₂.observedAt = cellTime) := by
  obtain ⟨d₁, hcanonical₁, hparse₁⟩ := @exists_cellObservation .absent 1
    (by decide +kernel) (by decide +kernel) (by decide +kernel)
  obtain ⟨d₂, hcanonical₂, hparse₂⟩ := @exists_cellObservation .absent 2
    (by decide +kernel) (by decide +kernel) (by decide +kernel)
  have hfollows : assertFollows (cellObservation .absent 2) cellSpecification
      (some (cellObservation .absent 1)) = .ok () := by decide +kernel
  exact ⟨_, _, ⟨hcanonical₁, hcanonical₂⟩, ⟨hparse₁, parseObservation_after hparse₂ hfollows⟩,
    ⟨rfl, rfl⟩, rfl, rfl⟩

theorem nonrunning_of_ready {o : Observation} (h : isDirectPreDispatchReadiness o = true) :
    nonrunning o := by
  simp only [isDirectPreDispatchReadiness, Bool.and_eq_true, decide_eq_true_eq] at h
  exact ⟨h.1.2.1, h.1.2.2.1, h.1.2.2.2.1⟩

theorem exists_containmentSubject (o : Observation) (t : String) (effect : Bool) :
    ∃ f, containmentSubject o t effect = .ok f := by
  obtain ⟨d, hd⟩ := exists_selfDigest (canonicalizable_containment ⟨o.digest, t, effect, ""⟩)
  refine ⟨_, bind_eq_ok.mpr ⟨d, hd, rfl⟩⟩

/-- **Checkpoints of the cell**: opened, allocated, dispatch authority
consumed, and containment requested after that. -/
structure CellRun (opened allocated consumed refused requested : Checkpoint) (o₁ o₂ : Observation)
    (k : Containment) : Prop where
  openedBy : checkpointSubject (openingCheckpoint cellSpecification cellKey cellTime) = .ok opened
  allocatedBy : checkpointSubject { opened with
    handle := some cellHandle, observation := some o₁, containment := none } = .ok allocated
  consumedBy : checkpointSubject (consuming allocated o₂ cellTime) = .ok consumed
  containedBy : containmentSubject o₂ cellTime false = .ok k
  refusedBy : checkpointSubject (refusing allocated o₂ cellTime k) = .ok refused
  requestedBy : checkpointSubject { consumed with containmentRequestedAt := some cellTime }
    = .ok requested
  parsed₁ : parseObservation cellSpecification none o₁ = .ok o₁
  parsed₂ : parseObservation cellSpecification (some o₁) o₂ = .ok o₂
  ready₁ : isDirectPreDispatchReadiness o₁ = true
  ready₂ : isDirectPreDispatchReadiness o₂ = true
  observed₁ : o₁.observedAt = cellTime
  observed₂ : o₂.observedAt = cellTime

theorem exists_cellRun : ∃ opened allocated consumed refused requested o₁ o₂ k,
    CellRun opened allocated consumed refused requested o₁ o₂ k := by
  obtain ⟨c₀, hopened⟩ := exists_opened
  obtain ⟨o₁, o₂, ⟨hcanonical₁, hcanonical₂⟩, ⟨hparsed₁, hparsed₂⟩, ⟨hready₁, hready₂⟩,
    hobserved₁, hobserved₂⟩ := exists_readings
  obtain ⟨k, hcontained⟩ := exists_containmentSubject o₂ cellTime false
  obtain ⟨d₀, -, hc₀⟩ := checkpointSubject_eq_ok.mp hopened
  have hblank : c₀.terminalCompletion = none ∧ c₀.output = none ∧ c₀.retirement = none := by
    rw [hc₀]
    exact ⟨rfl, rfl, rfl⟩
  obtain ⟨c₁, hallocated⟩ := @exists_checkpointSubject { c₀ with
      handle := some cellHandle, observation := some o₁, containment := none }
    (fun p hp => Option.some.inj hp ▸ hcanonical₁) hblank.1 hblank.2.1 hblank.2.2
  obtain ⟨d₁, -, hc₁⟩ := checkpointSubject_eq_ok.mp hallocated
  have hblank₁ : c₁.terminalCompletion = none ∧ c₁.output = none ∧ c₁.retirement = none := by
    rw [hc₁]
    exact hblank
  obtain ⟨c₂, hconsumed⟩ := @exists_checkpointSubject (consuming c₁ o₂ cellTime)
    (fun p hp => Option.some.inj hp ▸ hcanonical₂) hblank₁.1 hblank₁.2.1 hblank₁.2.2
  obtain ⟨r, hrefused⟩ := @exists_checkpointSubject (refusing c₁ o₂ cellTime k)
    (fun p hp => Option.some.inj hp ▸ hcanonical₂) hblank₁.1 hblank₁.2.1 hblank₁.2.2
  obtain ⟨d₂, -, hc₂⟩ := checkpointSubject_eq_ok.mp hconsumed
  have hblank₂ : c₂.terminalCompletion = none ∧ c₂.output = none ∧ c₂.retirement = none := by
    rw [hc₂]
    exact hblank₁
  have hobserved : c₂.observation = some o₂ := by
    rw [hc₂]
    rfl
  obtain ⟨c₃, hrequested⟩ := @exists_checkpointSubject
    { c₂ with containmentRequestedAt := some cellTime }
    (fun p hp => Option.some.inj (hobserved.symm.trans hp) ▸ hcanonical₂)
    hblank₂.1 hblank₂.2.1 hblank₂.2.2
  exact ⟨c₀, c₁, c₂, r, c₃, o₁, o₂, k, hopened, hallocated, hconsumed, hcontained, hrefused,
    hrequested, hparsed₁, hparsed₂, hready₁, hready₂, hobserved₁, hobserved₂⟩

section Cell

variable {c₀ c₁ c₂ r c₃ : Checkpoint} {o₁ o₂ : Observation} {k : Containment}

theorem CellRun.opens (h : CellRun c₀ c₁ c₂ r c₃ o₁ o₂ k) : Opens cellSpecification c₀ :=
  ⟨cellKey, cellTime, by decide +kernel, canonical_cellTime, h.openedBy⟩

/-- The fields of the checkpoints, their digests apart. -/
theorem CellRun.fields (h : CellRun c₀ c₁ c₂ r c₃ o₁ o₂ k) : ∃ d₀ d₁ d₂ d₃,
    c₀ = { openingCheckpoint cellSpecification cellKey cellTime with digest := d₀ }
      ∧ c₁ = { openingCheckpoint cellSpecification cellKey cellTime with
        handle := some cellHandle, observation := some o₁, digest := d₁ }
      ∧ c₂ = { openingCheckpoint cellSpecification cellKey cellTime with
        handle := some cellHandle, observation := some o₂
        dispatchAuthorityConsumedAt := some cellTime, digest := d₂ }
      ∧ c₃ = { openingCheckpoint cellSpecification cellKey cellTime with
        handle := some cellHandle, observation := some o₂
        dispatchAuthorityConsumedAt := some cellTime
        containmentRequestedAt := some cellTime, digest := d₃ } := by
  obtain ⟨d₀, -, hc₀⟩ := checkpointSubject_eq_ok.mp h.openedBy
  obtain ⟨d₁, -, hc₁⟩ := checkpointSubject_eq_ok.mp h.allocatedBy
  obtain ⟨d₂, -, hc₂⟩ := checkpointSubject_eq_ok.mp h.consumedBy
  obtain ⟨d₃, -, hc₃⟩ := checkpointSubject_eq_ok.mp h.requestedBy
  refine ⟨d₀, d₁, d₂, d₃, hc₀, ?_, ?_, ?_⟩
  · rw [hc₁, hc₀]
    rfl
  · rw [hc₂, hc₁, hc₀]
    rfl
  · rw [hc₃, hc₂, hc₁, hc₀]
    rfl

/-- The clock has not moved. -/
theorem latest_of_cell {d : Sha256Digest} {consumedAt : Option String} {o : Observation}
    (ho : o.observedAt = cellTime) (hconsumedAt : ∀ t, consumedAt = some t → t = cellTime) :
    latestRuntimeTime { openingCheckpoint cellSpecification cellKey cellTime with
      handle := some cellHandle, observation := some o
      dispatchAuthorityConsumedAt := consumedAt, digest := d } = cellTime := by
  have hsame : laterOf cellTime (some cellTime) = cellTime := by
    rw [laterOf, textBefore_self]
    rfl
  have hmaybe : laterOf cellTime consumedAt = cellTime := by
    cases consumedAt with
    | none => rfl
    | some t => rw [hconsumedAt t rfl, hsame]
  simp only [latestRuntimeTime, openingCheckpoint, Option.map_some, Option.map_none,
    Option.bind_none, List.foldl_cons, List.foldl_nil, ho, hsame, hmaybe]
  rfl

/-- How the cell stands, checkpoint by checkpoint. -/
theorem CellRun.standing (h : CellRun c₀ c₁ c₂ r c₃ o₁ o₂ k) :
    c₀.handle = none ∧ c₁.handle = some cellHandle ∧ c₁.observation = some o₁
      ∧ c₂.handle ≠ none ∧ c₂.containmentRequestedAt = none ∧ c₂.containment = none
      ∧ Current c₂ cellTime := by
  obtain ⟨d₀, d₁, d₂, d₃, rfl, rfl, rfl, -⟩ := h.fields
  refine ⟨rfl, rfl, rfl, ?_, rfl, rfl, current_of_times canonical_cellTime
    (latest_of_cell h.observed₂ fun t ht => (Option.some.inj ht).symm)⟩
  intro hnone
  cases hnone

theorem CellRun.requested_after (h : CellRun c₀ c₁ c₂ r c₃ o₁ o₂ k) :
    c₃.containmentRequestedAt ≠ none := by
  obtain ⟨d, -, rfl⟩ := checkpointSubject_eq_ok.mp h.requestedBy
  intro hnone
  cases hnone

theorem CellRun.accepted₁ (h : CellRun c₀ c₁ c₂ r c₃ o₁ o₂ k) :
    Accepted cellSpecification c₁ := by
  obtain ⟨d₀, d₁, d₂, d₃, hc₀, hc₁, -, -⟩ := h.fields
  have hnone : c₀.handle = none := by
    rw [hc₀]
    rfl
  have hobserved : c₁.observation = some o₁ := by rw [hc₁]
  have hsucceeds : Succeeds plainHost cellSpecification (fun _ => True) c₀ c₁ :=
    .allocated hnone (by decide +kernel) h.parsed₁ (nonrunning_of_ready h.ready₁) trivial
      h.allocatedBy
  refine (accepted_successor_iff h.opens.accepted hsucceeds).mpr fun _ o ho => ?_
  obtain rfl := Option.some.inj (hobserved.symm.trans ho)
  exact h.ready₁

/-- The cell is about to be dispatched. -/
theorem CellRun.ready (h : CellRun c₀ c₁ c₂ r c₃ o₁ o₂ k) :
    Ready cellSpecification c₁ o₂ cellTime := by
  obtain ⟨d₀, d₁, d₂, d₃, -, rfl, -, -⟩ := h.fields
  refine ⟨?_, rfl, rfl, rfl, (parseObservation_eq_ok h.parsed₂).2, h.ready₂,
    current_of_times canonical_cellTime ?_, ?_⟩
  · intro hnone
    cases hnone
  · exact latest_of_cell h.observed₁ fun t ht => by cases ht
  · rw [h.observed₂]
    exact textBefore_self cellTime

theorem CellRun.accepted₂ (h : CellRun c₀ c₁ c₂ r c₃ o₁ o₂ k) :
    Accepted cellSpecification c₂ := by
  have hsucceeds : Succeeds plainHost cellSpecification (fun _ => True) c₁ c₂ :=
    .consumed ⟨o₂, cellTime, h.ready, h.consumedBy⟩
  exact (accepted_successor_iff h.accepted₁ hsucceeds).mpr fun hnone =>
    absurd hnone h.ready.handle

theorem CellRun.accepted₃ (h : CellRun c₀ c₁ c₂ r c₃ o₁ o₂ k) :
    Accepted cellSpecification c₃ := by
  obtain ⟨d₀, d₁, d₂, d₃, -, -, hc₂, -⟩ := h.fields
  have hhandle : c₂.handle ≠ none := by
    rw [hc₂]
    intro hnone
    cases hnone
  have hsucceeds : Succeeds plainHost cellSpecification (fun _ => True) c₂ c₃ := by
    refine .requested hhandle ?_ ?_ ?_ h.requestedBy
    · rw [hc₂]
      rfl
    · rw [hc₂]
      rfl
    · rw [hc₂]
      exact current_of_times canonical_cellTime
        (latest_of_cell h.observed₂ fun t ht => (Option.some.inj ht).symm)
  exact (accepted_successor_iff h.accepted₂ hsucceeds).mpr fun hnone => absurd hnone hhandle

end Cell
end Execution
