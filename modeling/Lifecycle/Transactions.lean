import Lifecycle.Fallible
import Lifecycle.TransitionSystem
import Mathlib.Logic.Function.Basic

/-!
# Transactions over a shared state

A shared state and any number of clients, each with a memory of its own. A
call of a client is checked against what is committed, and then runs as a
transaction: its statements work one after the other on a working copy, and
either all of them have gone through and the copy is published, or the
transaction is given up at whatever point it has reached and nothing of it
remains. One transaction is open at a time; between any two of its
statements the other clients may check calls of theirs and read what is
committed.

`clientSystem` is the system with these small steps and `atomicSystem` the
one in which a call happens at once. The first refines the second
(`clientsRefine`): a commit publishes what the whole body makes of the
state that is committed at that moment (`commit_atomic`), and nothing else
changes the shared state (`shared_of_step`).
-/

open Fallible

/-- **The body of a call**: what it asks before its transaction, what the
transaction works on, its statements, and what it publishes and
remembers. -/
structure TransactionBody (σ μ ρ ε : Type) where
  /-- The checks made before the transaction begins. -/
  check : σ → μ → Except ε Unit
  /-- The working copy a transaction begins with. -/
  enter : σ → μ → ρ
  /-- The statements, in order. -/
  statements : List (ρ → Except ε ρ)
  /-- What a commit publishes, and what its owner then remembers. -/
  leave : ρ → σ × μ

namespace TransactionBody

variable {σ μ ρ ε : Type}

/-- Statements one after the other. -/
def runStatements (w : ρ) (statements : List (ρ → Except ε ρ)) : Except ε ρ :=
  replay (fun w statement => statement w) w statements

/-- **The whole body of a call.** -/
def run (body : TransactionBody σ μ ρ ε) (shared : σ) (memory : μ) : Except ε ρ :=
  runStatements (body.enter shared memory) body.statements

end TransactionBody

open TransactionBody

namespace Transactions

/-- An open transaction. -/
structure Session (κ ι ρ ε : Type) where
  owner : κ
  call : ι
  /-- The working copy, after the statements already taken. -/
  working : ρ
  /-- The statements not yet taken. -/
  remaining : List (ρ → Except ε ρ)

/-- What is visible outside the open transaction. -/
structure Committed (κ ι σ μ : Type) where
  shared : σ
  memory : κ → μ
  /-- The calls whose checks have passed. -/
  checked : κ → ι → Prop

/-- A state of the clients and the open transaction, if any. -/
structure ClientState (κ ι σ μ ρ ε : Type) extends Committed κ ι σ μ where
  session : Option (Session κ ι ρ ε)

/-- The small steps. -/
inductive ClientStep (κ ι : Type)
  /-- A client passes the checks of a call. -/
  | check (k : κ) (c : ι)
  /-- A client begins the transaction of a call it has checked. -/
  | start (k : κ) (c : ι)
  /-- The open transaction takes its next statement. -/
  | advance
  /-- The open transaction is published. -/
  | commit (k : κ) (c : ι)
  /-- The open transaction is given up: a statement refused, the commit
  failed, or the client stopped. -/
  | abort
  /-- A client renews its memory from what is committed. -/
  | renew (k : κ)

/-- The steps of the system in which a call happens at once. -/
inductive AtomicStep (κ ι : Type)
  | check (k : κ) (c : ι)
  | call (k : κ) (c : ι)
  | renew (k : κ)

section Systems

variable {κ ι σ μ ρ ε : Type} [DecidableEq κ]

variable (body : ι → TransactionBody σ μ ρ ε) (recalls : σ → μ → μ → Prop)

/-- A client passes the checks of a call. -/
def Committed.Checks (s : Committed κ ι σ μ) (k : κ) (c : ι) (t : Committed κ ι σ μ) : Prop :=
  (body c).check s.shared (s.memory k) = .ok ()
    ∧ t = { s with checked := fun j d => s.checked j d ∨ (j = k ∧ d = c) }

/-- A client renews its memory. -/
def Committed.Recalls (s : Committed κ ι σ μ) (k : κ) (t : Committed κ ι σ μ) : Prop :=
  ∃ memory, recalls s.shared (s.memory k) memory
    ∧ t = { s with memory := Function.update s.memory k memory }

/-- What a working copy publishes. -/
def Committed.publish (s : Committed κ ι σ μ) (k : κ) (c : ι) (w : ρ) : Committed κ ι σ μ :=
  { s with
    shared := ((body c).leave w).1
    memory := Function.update s.memory k ((body c).leave w).2 }

/-- **The clients of a shared state.** -/
def clientSystem (initial : σ → (κ → μ) → Prop) :
    TransitionSystem (ClientState κ ι σ μ ρ ε) (ClientStep κ ι) where
  initial s := initial s.shared s.memory ∧ (∀ k c, ¬ s.checked k c) ∧ s.session = none
  step s l t :=
    match l with
    | .check k c => s.toCommitted.Checks body k c t.toCommitted ∧ t.session = s.session
    | .start k c => s.checked k c ∧ s.session = none ∧ t.toCommitted = s.toCommitted
        ∧ t.session
          = some ⟨k, c, (body c).enter s.shared (s.memory k), (body c).statements⟩
    | .advance => ∃ tx statement rest w, s.session = some tx
        ∧ tx.remaining = statement :: rest ∧ statement tx.working = .ok w
        ∧ t.toCommitted = s.toCommitted
        ∧ t.session = some { tx with working := w, remaining := rest }
    | .commit k c => ∃ w, s.session = some ⟨k, c, w, []⟩
        ∧ t.toCommitted = s.toCommitted.publish body k c w ∧ t.session = none
    | .abort => s.session.isSome = true ∧ t.toCommitted = s.toCommitted ∧ t.session = none
    | .renew k => (∀ tx ∈ s.session, tx.owner ≠ k)
        ∧ s.toCommitted.Recalls recalls k t.toCommitted ∧ t.session = s.session

/-- **The clients whose calls happen at once.** -/
def atomicSystem (initial : σ → (κ → μ) → Prop) :
    TransitionSystem (Committed κ ι σ μ) (AtomicStep κ ι) where
  initial s := initial s.shared s.memory ∧ ∀ k c, ¬ s.checked k c
  step s l t :=
    match l with
    | .check k c => s.Checks body k c t
    | .call k c => s.checked k c ∧ ∃ w, (body c).run s.shared (s.memory k) = .ok w
        ∧ t = s.publish body k c w
    | .renew k => s.Recalls recalls k t

variable {body} {recalls} {initial : σ → (κ → μ) → Prop}

/-! ## The open transaction -/

/-- **An open transaction stands where its statements have led**: its call
was checked, and what it has taken of its body leads from what is committed
to its working copy. -/
def Follows (body : ι → TransactionBody σ μ ρ ε) (s : ClientState κ ι σ μ ρ ε) : Prop :=
  ∀ tx ∈ s.session, s.checked tx.owner tx.call
    ∧ ∃ taken, (body tx.call).statements = taken ++ tx.remaining
      ∧ runStatements ((body tx.call).enter s.shared (s.memory tx.owner)) taken
        = .ok tx.working

/-- A step keeps the open transaction where its statements have led. -/
theorem Follows.step {s t : ClientState κ ι σ μ ρ ε} {l : ClientStep κ ι}
    (h : Follows body s) (hstep : (clientSystem body recalls initial).step s l t) :
    Follows body t := by
  cases l with
  | check k c =>
    obtain ⟨⟨-, hcommitted⟩, hsession⟩ := hstep
    intro tx hopen
    obtain ⟨hchecked, hfollows⟩ := h tx (hsession ▸ hopen)
    rw [hcommitted]
    exact ⟨.inl hchecked, hfollows⟩
  | start k c =>
    obtain ⟨hchecked, -, hcommitted, hsession⟩ := hstep
    intro tx hopen
    obtain rfl := Option.some.inj (hsession.symm.trans hopen)
    rw [hcommitted]
    exact ⟨hchecked, [], rfl, rfl⟩
  | advance =>
    obtain ⟨before, statement, rest, w, hbefore, hremaining, hstatement, hcommitted, hsession⟩ :=
      hstep
    intro tx hopen
    obtain rfl := Option.some.inj (hsession.symm.trans hopen)
    obtain ⟨hchecked, taken, htaken, hrun⟩ := h before hbefore
    rw [hcommitted]
    refine ⟨hchecked, taken ++ [statement], ?_, ?_⟩
    · rw [htaken, hremaining, List.append_assoc, List.singleton_append]
    · exact replay_snoc_eq_ok.mpr ⟨_, hrun, hstatement⟩
  | commit k c =>
    obtain ⟨w, -, -, hsession⟩ := hstep
    intro tx hopen
    rw [hsession] at hopen
    cases hopen
  | abort =>
    obtain ⟨-, -, hsession⟩ := hstep
    intro tx hopen
    rw [hsession] at hopen
    cases hopen
  | renew k =>
    obtain ⟨hother, ⟨memory, -, hcommitted⟩, hsession⟩ := hstep
    intro tx hopen
    rw [hsession] at hopen
    obtain ⟨hchecked, hfollows⟩ := h tx hopen
    rw [hcommitted]
    refine ⟨hchecked, ?_⟩
    -- Only the memory of another client has changed.
    show ∃ taken, _ ∧ runStatements ((body tx.call).enter s.shared
      (Function.update s.memory k memory tx.owner)) taken = _
    rw [Function.update_of_ne (hother tx hopen)]
    exact hfollows

theorem Follows.of_reachable {s : ClientState κ ι σ μ ρ ε}
    (h : (clientSystem body recalls initial).Reachable s) : Follows body s := by
  refine h.invariant (P := Follows body) ?_ fun _ _ _ => Follows.step
  rintro s ⟨-, -, hnone⟩ tx hopen
  rw [hnone] at hopen
  cases hopen

/-! ## Refinement -/

/-- **A commit is its whole body at once**, on what is committed when it
commits. -/
theorem commit_atomic {s t : ClientState κ ι σ μ ρ ε} {k : κ} {c : ι} (hs : Follows body s)
    (h : (clientSystem body recalls initial).step s (.commit k c) t) :
    (atomicSystem body recalls initial).step s.toCommitted (.call k c) t.toCommitted := by
  obtain ⟨w, hsession, hcommitted, -⟩ := h
  obtain ⟨hchecked, taken, htaken, hrun⟩ := hs _ hsession
  rw [List.append_nil] at htaken
  refine ⟨hchecked, w, ?_, hcommitted⟩
  rw [TransactionBody.run, htaken]
  exact hrun

/-- **Only a commit changes the shared state.** -/
theorem shared_of_step {s t : ClientState κ ι σ μ ρ ε} {l : ClientStep κ ι}
    (h : (clientSystem body recalls initial).step s l t) :
    (∃ k c, l = .commit k c) ∨ t.shared = s.shared := by
  cases l with
  | check k c =>
    obtain ⟨⟨-, hcommitted⟩, -⟩ := h
    exact .inr (by rw [hcommitted])
  | start k c =>
    obtain ⟨-, -, hcommitted, -⟩ := h
    exact .inr (by rw [hcommitted])
  | advance =>
    obtain ⟨_, _, _, _, -, -, -, hcommitted, -⟩ := h
    exact .inr (by rw [hcommitted])
  | commit k c => exact .inl ⟨k, c, rfl⟩
  | abort =>
    obtain ⟨-, hcommitted, -⟩ := h
    exact .inr (by rw [hcommitted])
  | renew k =>
    obtain ⟨-, ⟨_, -, hcommitted⟩, -⟩ := h
    exact .inr (by rw [hcommitted])

/-- **The small steps refine the calls at once.** -/
def clientsRefine : TransitionSystem.Refinement
    (clientSystem (ρ := ρ) (ε := ε) body recalls initial)
    (atomicSystem body recalls initial) where
  rel s t := Follows body s ∧ t = s.toCommitted
  initial := by
    rintro s ⟨hinitial, hchecked, hnone⟩
    refine ⟨s.toCommitted, ⟨hinitial, hchecked⟩, ?_, rfl⟩
    intro tx hopen
    rw [hnone] at hopen
    cases hopen
  step := by
    rintro s l s' _ ⟨hfollows, rfl⟩ hstep
    have hnext : Follows body s' := hfollows.step hstep
    cases l with
    | check k c =>
      exact ⟨[AtomicStep.check k c], s'.toCommitted, .single hstep.1, hnext, rfl⟩
    | commit k c =>
      exact ⟨[AtomicStep.call k c], s'.toCommitted, .single (commit_atomic hfollows hstep),
        hnext, rfl⟩
    | renew k =>
      exact ⟨[AtomicStep.renew k], s'.toCommitted, .single hstep.2.1, hnext, rfl⟩
    | start k c => exact ⟨[], _, .nil, hnext, hstep.2.2.1.symm⟩
    | advance =>
      obtain ⟨_, _, _, _, -, -, -, hcommitted, -⟩ := hstep
      exact ⟨[], _, .nil, hnext, hcommitted.symm⟩
    | abort => exact ⟨[], _, .nil, hnext, hstep.2.1.symm⟩

/-- What is committed in a reachable state is reached by calls at once. -/
theorem committed_reachable {s : ClientState κ ι σ μ ρ ε}
    (h : (clientSystem body recalls initial).Reachable s) :
    (atomicSystem body recalls initial).Reachable s.toCommitted := by
  obtain ⟨_, hreachable, -, rfl⟩ := clientsRefine.reachable h
  exact hreachable

/-- **A step of the clients is a call at once, a check, a renewed memory,
or nothing.** -/
theorem atomic_of_step {s t : ClientState κ ι σ μ ρ ε} {l : ClientStep κ ι}
    (hs : Follows body s) (h : (clientSystem body recalls initial).step s l t) :
    (∃ k c, l = .commit k c
      ∧ (atomicSystem body recalls initial).step s.toCommitted (.call k c) t.toCommitted)
    ∨ (∀ k c, l ≠ .commit k c) ∧ t.shared = s.shared := by
  obtain ⟨k, c, rfl⟩ | hshared := shared_of_step h
  · exact .inl ⟨k, c, rfl, commit_atomic hs h⟩
  · cases l with
    | commit k c => exact .inl ⟨k, c, rfl, commit_atomic hs h⟩
    | _ => exact .inr ⟨fun _ _ => nofun, hshared⟩

/-! ## The calls at once are runs of small steps -/

/-- The statements of an open transaction can be taken to their end. -/
theorem exists_advanced {s : ClientState κ ι σ μ ρ ε} {k : κ} {c : ι} {w v : ρ}
    {statements : List (ρ → Except ε ρ)} (hs : (clientSystem body recalls initial).Reachable s)
    (hsession : s.session = some ⟨k, c, w, statements⟩)
    (hrun : runStatements w statements = .ok v) :
    (clientSystem body recalls initial).Reachable { s with session := some ⟨k, c, v, []⟩ } := by
  induction statements generalizing s w with
  | nil =>
    obtain rfl : w = v := Except.ok.inj hrun
    rwa [← hsession]
  | cons statement rest ih =>
    obtain ⟨w', hstatement, hrest⟩ := bind_eq_ok.mp hrun
    have hnext : (clientSystem body recalls initial).Reachable
        { s with session := some ⟨k, c, w', rest⟩ } :=
      hs.step (e := .advance) ⟨_, statement, rest, w', hsession, rfl, hstatement, rfl, rfl⟩
    exact ih (s := { s with session := some ⟨k, c, w', rest⟩ }) hnext rfl hrest

/-- **A call at once is a commit** of a transaction run to its end. -/
theorem exists_commit {s t : Committed κ ι σ μ} {k : κ} {c : ι}
    (hs : (clientSystem body recalls initial).Reachable ⟨s, none⟩)
    (hstep : (atomicSystem body recalls initial).step s (.call k c) t) :
    ∃ u, (clientSystem body recalls initial).Reachable u ∧ u.toCommitted = s
      ∧ (clientSystem body recalls initial).step u (.commit k c) ⟨t, none⟩ := by
  obtain ⟨hchecked, w, hrun, rfl⟩ := hstep
  have hbegun : (clientSystem body recalls initial).Reachable
      ⟨s, some ⟨k, c, (body c).enter s.shared (s.memory k), (body c).statements⟩⟩ :=
    hs.step (e := .start k c) ⟨hchecked, rfl, rfl, rfl⟩
  exact ⟨_, exists_advanced hbegun rfl hrun, rfl, w, rfl, rfl, rfl⟩

/-- **Every state the calls at once reach, the small steps reach** with no
transaction open. -/
theorem reachable_of_atomic {s : Committed κ ι σ μ}
    (h : (atomicSystem body recalls initial).Reachable s) :
    (clientSystem body recalls initial).Reachable ⟨s, none⟩ := by
  refine h.invariant (P := fun s =>
    (clientSystem body recalls initial).Reachable ⟨s, none⟩) ?_ ?_
  · rintro s ⟨hinitial, hchecked⟩
    exact .of_initial ⟨hinitial, hchecked, rfl⟩
  · rintro s l t hs hstep
    cases l with
    | check k c => exact hs.step (e := .check k c) ⟨hstep, rfl⟩
    | renew k => exact hs.step (e := .renew k) ⟨(fun _ hnone => nomatch hnone), hstep, rfl⟩
    | call k c =>
      obtain ⟨u, hu, -, hcommit⟩ := exists_commit hs hstep
      exact hu.step hcommit

end Systems

end Transactions
