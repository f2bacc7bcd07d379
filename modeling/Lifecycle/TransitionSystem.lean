import Mathlib.Logic.Relation

/-!
# Transition systems

Labelled transition systems, their runs and what holds along them. A run
is the list of its labels; a state is reachable when some run leads to it
from an initial state. The two rules every later argument rests on are
`Reachable.invariant` – what holds initially and is preserved by a step
holds of every reachable state – and `Refinement.reachable` – a relation
that is kept by matching steps carries reachability from one system to
another.
-/

/-- **A labelled transition system.** -/
structure TransitionSystem (σ ε : Type) where
  /-- The states a run may start in. -/
  initial : σ → Prop
  /-- What one label may do. -/
  step : σ → ε → σ → Prop

namespace TransitionSystem

variable {σ ε τ δ : Type}

/-- **The runs from a state**: the labels taken, and the state reached. -/
inductive Run (M : TransitionSystem σ ε) (s : σ) : List ε → σ → Prop
  | nil : Run M s [] s
  | snoc {labels : List ε} {t u : σ} {e : ε} :
      Run M s labels t → M.step t e u → Run M s (labels ++ [e]) u

/-- **The reachable states.** -/
def Reachable (M : TransitionSystem σ ε) (t : σ) : Prop :=
  ∃ s labels, M.initial s ∧ M.Run s labels t

variable {M : TransitionSystem σ ε} {N : TransitionSystem τ δ}

theorem Reachable.of_initial {s : σ} (h : M.initial s) : M.Reachable s :=
  ⟨s, [], h, .nil⟩

theorem Reachable.step {s t : σ} {e : ε} (hs : M.Reachable s) (h : M.step s e t) :
    M.Reachable t := by
  obtain ⟨i, labels, hi, hrun⟩ := hs
  exact ⟨i, labels ++ [e], hi, hrun.snoc h⟩

/-- One step is a run. -/
theorem Run.single {s t : σ} {e : ε} (h : M.step s e t) : M.Run s [e] t :=
  Run.nil.snoc h

/-- Runs compose. -/
theorem Run.append {s t u : σ} {ks ls : List ε} (hs : M.Run s ks t)
    (ht : M.Run t ls u) : M.Run s (ks ++ ls) u := by
  induction ht with
  | nil => rwa [List.append_nil]
  | snoc _ h ih =>
    rw [← List.append_assoc]
    exact ih.snoc h

theorem Run.reachable {s t : σ} {ls : List ε} (hs : M.Reachable s)
    (h : M.Run s ls t) : M.Reachable t := by
  obtain ⟨i, ks, hi, hrun⟩ := hs
  exact ⟨i, ks ++ ls, hi, hrun.append h⟩

/-- **What a step preserves, a run preserves.** -/
theorem Run.invariant {P : σ → Prop} (hstep : ∀ s e t, P s → M.step s e t → P t)
    {s t : σ} {ls : List ε} (h : M.Run s ls t) (hs : P s) : P t := by
  induction h with
  | nil => exact hs
  | snoc _ h ih => exact hstep _ _ _ ih h

/-- **The invariant rule.** -/
theorem Reachable.invariant {P : σ → Prop} (hinit : ∀ s, M.initial s → P s)
    (hstep : ∀ s e t, P s → M.step s e t → P t) {t : σ} (h : M.Reachable t) : P t := by
  obtain ⟨s, ls, hs, hrun⟩ := h
  exact hrun.invariant hstep (hinit s hs)

/-- **The relative invariant rule**: a step need only preserve `P` from
reachable states, so an invariant already established may be used. -/
theorem Reachable.invariant_of {P : σ → Prop} (hinit : ∀ s, M.initial s → P s)
    (hstep : ∀ s e t, M.Reachable s → P s → M.step s e t → P t) {t : σ}
    (h : M.Reachable t) : P t := by
  have both : M.Reachable t ∧ P t := by
    refine Reachable.invariant (P := fun u => M.Reachable u ∧ P u)
      (fun s hs => ⟨.of_initial hs, hinit s hs⟩) ?_ h
    rintro s e u ⟨hs, hp⟩ hu
    exact ⟨hs.step hu, hstep s e u hs hp hu⟩
  exact both.2

/-! ## Restriction to some steps -/

/-- The system with only those steps that satisfy `C`. -/
def restrict (M : TransitionSystem σ ε) (C : σ → ε → Prop) : TransitionSystem σ ε where
  initial := M.initial
  step s e t := C s e ∧ M.step s e t

/-! ## Refinement -/

/-- **A forward simulation**: related states are matched, each concrete
step by a run of the abstract system (the empty run included). -/
structure Refinement (M : TransitionSystem σ ε) (N : TransitionSystem τ δ) where
  /-- Which abstract states a concrete state stands for. -/
  rel : σ → τ → Prop
  initial : ∀ s, M.initial s → ∃ t, N.initial t ∧ rel s t
  step : ∀ s e s' t, rel s t → M.step s e s' →
    ∃ ls t', N.Run t ls t' ∧ rel s' t'

/-- **A refinement carries reachability**: every reachable concrete state
stands for a reachable abstract one. -/
theorem Refinement.reachable (R : Refinement M N) {s : σ} (h : M.Reachable s) :
    ∃ t, N.Reachable t ∧ R.rel s t := by
  refine Reachable.invariant (P := fun s => ∃ t, N.Reachable t ∧ R.rel s t) ?_ ?_ h
  · intro s hs
    obtain ⟨t, ht, hst⟩ := R.initial s hs
    exact ⟨t, .of_initial ht, hst⟩
  · rintro s e s' ⟨t, ht, hst⟩ hstep
    obtain ⟨ls, t', hrun, hst'⟩ := R.step s e s' t hst hstep
    exact ⟨t', hrun.reachable ht, hst'⟩

end TransitionSystem
