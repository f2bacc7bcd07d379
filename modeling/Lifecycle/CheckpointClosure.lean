import Lifecycle.ExecutionRuns
import Lifecycle.ExecutionSettings

/-!
# Retained checkpoints are read again

Every checkpoint a host asks its persistence to retain is one the parser
accepts, whatever the backend, the clock, the owner and the persistence
answer, as long as the observation after an allocation is inert
(`accepted_of_asks`). `#allocate` does not see to that itself: it refuses an
observation of a running cell, where the parser, and every other step under
unconsumed authority, asks for one with nothing left to contain. A cell that
is allocated with its descendants unverified is therefore retained in a
checkpoint nobody can read (`not_accepted_of_allocation`).
-/

open Fallible Json Asking

namespace Execution

variable {host : OperationHost} {specification : Specification}

/-! ## The checkpoint after an allocation -/

/-- **An `advance` that allocates** asks to retain a successor with the
observation of the allocation. -/
theorem asks_allocated {runnerDigest : Sha256Digest} {requested : Bool} {current : Retained}
    {handle : String} {o : Observation}
    (hrunner : isSha256 runnerDigest = true) (haccepted : Accepted specification current.checkpoint)
    (hselects : current.selects) (hnone : current.checkpoint.handle = none)
    (hprivate : privateHandle handle = .ok ())
    (hparse : parseObservation specification none o = .ok o) (hnonrunning : nonrunning o)
    (hcanonical : Canonicalizable (.object o.record)) :
    ∃ c, Asks ((HostOperation.advance runnerDigest requested).program host specification)
        [⟨.read, .ok (some current)⟩, ⟨.allocate current.checkpoint.allocationKey, .ok handle⟩,
          ⟨.observe .allocationObserve handle, .ok o⟩]
        (.compareExchange (some current.coordinate) c)
      ∧ Succeeds host specification (fun _ => True) current.checkpoint c
      ∧ c.observation = some o := by
  obtain ⟨-, -, -, -, hcompletion, houtput, hretirement⟩ := haccepted.lawful.blank hnone
  obtain ⟨c, hsealed⟩ := @exists_checkpointSubject { current.checkpoint with
      handle := some handle, observation := some o, containment := none }
    (fun p hp => Option.some.inj hp ▸ hcanonical) hcompletion houtput hretirement
  obtain ⟨next, hnext⟩ : Asks (commitCheckpoint specification (some current) c >>= fun _ => pure ())
    [] (.compareExchange (some current.coordinate) c) := asks_commit
  refine ⟨c, ⟨next, reaches_allocated hrunner haccepted hselects hnone hprivate hparse
    hnonrunning hsealed hnext⟩, .allocated hnone hprivate hparse hnonrunning trivial hsealed, ?_⟩
  obtain ⟨e, -, rfl⟩ := checkpointSubject_eq_ok.mp hsealed
  rfl

/-- An operation on the cell that is just opened. -/
theorem exists_openedCell : ∃ (opened : Retained),
    checkpointSubject (openingCheckpoint cellSpecification cellKey cellTime)
        = .ok opened.checkpoint
      ∧ Opens cellSpecification opened.checkpoint ∧ opened.checkpoint.handle = none
      ∧ opened.selects := by
  obtain ⟨c, hopened⟩ := exists_opened
  refine ⟨retainedAs 1 c, hopened, ⟨cellKey, cellTime, by decide +kernel, by decide +kernel, hopened⟩,
    ?_, retainedAs_selects hopened ⟨Nat.le_refl 1, by decide +kernel⟩⟩
  obtain ⟨e, -, rfl⟩ := checkpointSubject_eq_ok.mp hopened
  rfl

/-! ## The setting of one host alone -/

/-- The checkpoints a call asks to retain. -/
def HostCall.retains : HostCall → List Checkpoint
  | .compareExchange _ c => [c]
  | .commitPreDispatch _ c f => [c, f]
  | _ => []

/-- An observation after an allocation is ready where it is acceptable. -/
def inertAllocation (specification : Specification) (o : Observation) : Prop :=
  parseObservation specification none o = .ok o → nonrunning o →
    isDirectPreDispatchReadiness o = true

/-- **An answer with which an allocation is inert.** -/
def AllocatesInert (specification : Specification) (entry : (q : HostCall) × HostAnswer q) :
    Prop :=
  ∀ handle o, entry = ⟨.observe .allocationObserve handle, .ok o⟩ →
    inertAllocation specification o

/-- Nothing is counted on but the inertness of allocations. -/
def aloneSetting (specification : Specification) : HostSetting specification Unit where
  rely _ _ := True
  serve q _ a _ := AllocatesInert specification ⟨q, a⟩
  Known _ _ := True
  Entitled _ := True
  inert := inertAllocation specification
  refl _ := trivial
  trans _ _ := trivial
  known_rely _ _ := trivial
  known_serve _ _ := trivial
  entitled_rely _ _ := trivial
  entitled_read _ _ := trivial
  read _ := trivial
  exchange _ := trivial
  consume _ _ _ := trivial
  decide _ := trivial
  decided _ _ _ _ _ := trivial
  observe h := h _ _ rfl

theorem served_alone {transcript : List ((q : HostCall) × HostAnswer q)}
    (h : ∀ entry ∈ transcript, AllocatesInert specification entry) :
    Served (aloneSetting specification).serve () transcript () := by
  induction transcript with
  | nil => exact .nil
  | cons entry rest ih =>
    exact .cons (h entry List.mem_cons_self) (ih fun e he => h e (List.mem_cons_of_mem _ he))

/-- **Every checkpoint a host asks to retain is accepted by the parser**, in
every run in which allocations are inert. -/
theorem accepted_of_asks {operation : HostOperation}
    {transcript : List ((q : HostCall) × HostAnswer q)} {q : HostCall} {c : Checkpoint}
    (hasks : Asks (operation.program host specification) transcript q)
    (hinert : ∀ entry ∈ transcript, AllocatesInert specification entry)
    (hc : c ∈ q.retains) : Accepted specification c := by
  have hkeeps : (aloneSetting specification).Keeping host (fun _ _ => True)
      (operation.program host specification) () := operation.keeps _
  have hpromise := hkeeps.keeps.asks (fun _ => trivial) hasks (served_alone hinert)
  have hsuccessor : ∀ {current : Retained} {c : Checkpoint},
      Accepted specification current.checkpoint →
      Succeeds host specification (inertAllocation specification) current.checkpoint c →
      Accepted specification c := by
    intro current c haccepted hs
    refine (accepted_successor_iff haccepted hs).mpr fun hnone o ho => ?_
    obtain ⟨p, hp, hparsed, hnonrunning, hready⟩ := hs.allocation haccepted hnone
    obtain rfl := Option.some.inj (ho.symm.trans hp)
    exact hready hparsed hnonrunning
  cases q with
  | compareExchange expected c' =>
    obtain rfl := List.mem_singleton.mp hc
    cases expected with
    | none => exact Opens.accepted hpromise
    | some coordinate =>
      obtain ⟨current, hheld, -, hs⟩ := hpromise
      exact hsuccessor hheld.accepted hs
  | commitPreDispatch current c' f =>
    obtain ⟨hheld, hconsumes, hrefuses⟩ := hpromise
    rcases List.mem_cons.mp hc with rfl | hc
    · exact hsuccessor hheld.accepted (.consumed hconsumes)
    · obtain rfl := List.mem_singleton.mp hc
      exact hsuccessor hheld.accepted (.refused hrefuses)
  | _ => cases hc

/-- A cell that is allocated ready to be dispatched. -/
theorem accepted_of_asks_ready : ∃ (opened : Retained) (o : Observation) (c : Checkpoint),
    parseObservation cellSpecification none o = .ok o
      ∧ Asks ((HostOperation.advance cellDigest false).program plainHost cellSpecification)
        [⟨.read, .ok (some opened)⟩,
          ⟨.allocate opened.checkpoint.allocationKey, .ok cellHandle⟩,
          ⟨.observe .allocationObserve cellHandle, .ok o⟩]
        (.compareExchange (some opened.coordinate) c)
      ∧ Accepted cellSpecification c := by
  obtain ⟨opened, -, hopens, hnone, hselects⟩ := exists_openedCell
  obtain ⟨d, hcanonical, hparse⟩ := @exists_cellObservation .absent 1
    (by decide +kernel) (by decide +kernel) (by decide +kernel)
  obtain ⟨c, hasks, -⟩ := @asks_allocated plainHost cellSpecification cellDigest false opened
    cellHandle _ (by decide +kernel) hopens.accepted hselects hnone (by decide +kernel) hparse
    ⟨rfl, rfl, rfl⟩ hcanonical
  refine ⟨opened, _, c, hparse, hasks, accepted_of_asks hasks ?_ List.mem_cons_self⟩
  intro entry hentry handle o ho
  simp only [List.mem_cons, List.not_mem_nil, or_false] at hentry
  rcases hentry with rfl | rfl | rfl
  · cases ho
  · cases ho
  · cases ho
    exact fun _ _ => rfl

/-- **A cell whose descendants are unverified is retained in a checkpoint
nobody can read.** -/
theorem not_accepted_of_allocation : ∃ (opened : Retained) (o : Observation) (c : Checkpoint),
    Opens cellSpecification opened.checkpoint
      ∧ parseObservation cellSpecification none o = .ok o
      ∧ Asks ((HostOperation.advance cellDigest false).program plainHost cellSpecification)
        [⟨.read, .ok (some opened)⟩,
          ⟨.allocate opened.checkpoint.allocationKey, .ok cellHandle⟩,
          ⟨.observe .allocationObserve cellHandle, .ok o⟩]
        (.compareExchange (some opened.coordinate) c)
      ∧ ¬ Accepted cellSpecification c := by
  obtain ⟨opened, -, hopens, hnone, hselects⟩ := exists_openedCell
  obtain ⟨d, hcanonical, hparse⟩ := @exists_cellObservation .unverified 1
    (by decide +kernel) (by decide +kernel) (by decide +kernel)
  obtain ⟨c, hasks, hsucceeds, ho⟩ := @asks_allocated plainHost cellSpecification cellDigest false
    opened cellHandle _ (by decide +kernel) hopens.accepted hselects hnone (by decide +kernel)
    hparse ⟨rfl, rfl, rfl⟩ hcanonical
  refine ⟨opened, _, c, hopens, hparse, hasks, fun hc => ?_⟩
  cases (accepted_successor_iff hopens.accepted hsucceeds).mp hc hnone _ ho

end Execution
