import Mathlib.Logic.Basic

/-!
# Programs whose operations may fail

A program works on a state through operations of the outside world, and
the environment may refuse any of them at any moment. What an operation
does when it is let through is part of the program; whether it is let
through is the environment's choice, which may depend on every operation
of the call so far. A program that fails keeps the state it has reached:
what its caller finds is a half-done state, not the state it started from.

`Ensures` is the triple of a program under one environment: a postcondition
for the result and one for the failure. Most steps of such a program only
look (they read, compare, flush), and `Reads` says once what such a step
contributes: it leaves the state alone, its result is a function of the
state, and it fails only where its condition is false or the environment
refused something. `Reads.ensures` turns it into a triple.
-/

variable {κ σ ε α β : Type}

/-! ## Environments -/

/-- **What the environment answers to one operation**: it works, it fails,
or – where an operation has an amount – no more than `n` of it goes
through. -/
inductive Answer
  | works
  | fails
  | short (n : Nat)
deriving DecidableEq

/-- How much of `n` an operation gets through. -/
def Answer.amount : Answer → Nat → Nat
  | works, n => n
  | fails, _ => 0
  | short k, n => min k n

/-- **An environment**: its answer to an operation, given the operations
made so far, newest first, each with whether it was let through. -/
abbrev Environment (κ : Type) : Type := List (κ × Bool) → κ → Answer

/-- The environment refuses nothing. -/
def Works (env : Environment κ) : Prop := ∀ made call, env made call = .works

/-- The environment in which everything works. -/
def working : Environment κ := fun _ _ => .works

theorem works_working : Works (working : Environment κ) := fun _ _ => rfl

/-- A state and the operations made on the way to it. -/
structure Trace (κ σ : Type) where
  state : σ
  made : List (κ × Bool)

/-- An assertion that operations of the kind `C` do not spoil as long as
they leave the state alone. -/
def Stable (C : κ → Prop) (P : Trace κ σ → Prop) : Prop :=
  ∀ t call through, C call → P t → P ⟨t.state, (call, through) :: t.made⟩

/-- An assertion on the state alone. -/
def Holds (S : σ → Prop) : Trace κ σ → Prop := fun t => S t.state

theorem stable_holds {C : κ → Prop} {S : σ → Prop} :
    Stable C (Holds S : Trace κ σ → Prop) :=
  fun _ _ _ _ h => h

/-- A stable assertion survives any number of such operations. -/
theorem Stable.append {C : κ → Prop} {P : Trace κ σ → Prop} (hP : Stable C P)
    {t : Trace κ σ} (h : P t) : ∀ made : List (κ × Bool), (∀ m ∈ made, C m.1) →
      P ⟨t.state, made ++ t.made⟩
  | [], _ => h
  | (call, b) :: made, hmade => by
    have hrest := hP.append h made fun m hm => hmade m (List.mem_cons_of_mem _ hm)
    exact hP _ call b (hmade (call, b) List.mem_cons_self) hrest

/-! ## Programs -/

/-- **A program**: under an environment, from a state, a result or a
failure, and in either case the state reached. -/
def Faulty (κ σ ε α : Type) : Type :=
  Environment κ → Trace κ σ → Except ε α × Trace κ σ

namespace Faulty

instance : Monad (Faulty κ σ ε) where
  pure a := fun _ t => (.ok a, t)
  bind c f := fun env t =>
    match c env t with
    | (.ok a, t') => f a env t'
    | (.error e, t') => (.error e, t')

/-- What a sequence does. -/
theorem bind_run {c : Faulty κ σ ε α} {f : α → Faulty κ σ ε β} {env : Environment κ}
    {t : Trace κ σ} : (c >>= f) env t = match c env t with
      | (.ok a, t') => f a env t'
      | (.error e, t') => (.error e, t') :=
  rfl

/-- Fails. -/
def fail (e : ε) : Faulty κ σ ε α := fun _ t => (.error e, t)

/-- Reads the state. -/
def observe (f : σ → α) : Faulty κ σ ε α := fun _ t => (.ok (f t.state), t)

/-- Changes the program's own part of the state: no operation is made. -/
def change (f : σ → σ) : Faulty κ σ ε Unit := fun _ t => (.ok (), ⟨f t.state, t.made⟩)

/-- Fails unless the state satisfies `c`. -/
def require (c : σ → Prop) [DecidablePred c] (e : ε) : Faulty κ σ ε Unit :=
  fun _ t => if c t.state then (.ok (), t) else (.error e, t)

/-- What an operation that was let through leaves. -/
def conclude (call : κ) (t : Trace κ σ) : Except ε (α × σ) → Except ε α × Trace κ σ
  | .ok (a, s) => (.ok a, ⟨s, (call, true) :: t.made⟩)
  | .error e => (.error e, ⟨t.state, (call, true) :: t.made⟩)

/-- **Makes one operation.** Refused by the environment it fails with
`refused` and does nothing; let through, `act` says what it does, or with
which error the operation fails by itself. -/
def perform (call : κ) (refused : ε) (act : Answer → σ → Except ε (α × σ)) :
    Faulty κ σ ε α := fun env t =>
  match env t.made call with
  | .works => conclude call t (act .works t.state)
  | .fails => (.error refused, ⟨t.state, (call, false) :: t.made⟩)
  | .short n => conclude call t (act (.short n) t.state)

/-- An operation that only looks, and fails by itself where `c` is false. -/
def look (call : κ) (refused : ε) (c : σ → Prop) [DecidablePred c] (e : ε) :
    Faulty κ σ ε Unit :=
  perform call refused fun _ s => if c s then .ok ((), s) else .error e

/-- An operation that changes nothing the program can see. -/
def quiet (call : κ) (refused : ε) : Faulty κ σ ε Unit :=
  perform call refused fun _ s => .ok ((), s)

/-- `try … catch`. -/
def handle (c : Faulty κ σ ε α) (h : ε → Faulty κ σ ε α) : Faulty κ σ ε α := fun env t =>
  match c env t with
  | (.ok a, t') => (.ok a, t')
  | (.error e, t') => h e env t'

/-- The outcome of a program, as a result. -/
def attempt (c : Faulty κ σ ε α) : Faulty κ σ ε (Except ε α) := fun env t =>
  (.ok (c env t).1, (c env t).2)

/-- The program with a given outcome. -/
def settle : Except ε α → Faulty κ σ ε α
  | .ok a => pure a
  | .error e => fail e

/-- `try … finally`: a failure of the last part is the failure of the whole. -/
def always (c : Faulty κ σ ε α) (last : Faulty κ σ ε Unit) : Faulty κ σ ε α := do
  let outcome ← attempt c
  last
  settle outcome

/-- One program for each item, in order. -/
def forEach (f : β → Faulty κ σ ε Unit) : List β → Faulty κ σ ε Unit
  | [] => pure ()
  | b :: rest => do
    f b
    forEach f rest

end Faulty

open Faulty

/-! ## Triples -/

/-- **The triple of a program**: from a state with `P`, a result comes with
`Q` and a failure with `E`. -/
def Ensures (env : Environment κ) (P : Trace κ σ → Prop) (c : Faulty κ σ ε α)
    (Q : α → Trace κ σ → Prop) (E : Trace κ σ → Prop) : Prop :=
  ∀ t, P t → match c env t with
    | (.ok a, t') => Q a t'
    | (.error _, t') => E t'

namespace Ensures

variable {env : Environment κ} {P P' E E' : Trace κ σ → Prop}
  {Q Q' : α → Trace κ σ → Prop} {c : Faulty κ σ ε α}

theorem of_ok (h : Ensures env P c Q E) {t t' : Trace κ σ} {a : α} (ht : P t)
    (hc : c env t = (.ok a, t')) : Q a t' := by
  have := h t ht
  rwa [hc] at this

theorem of_error (h : Ensures env P c Q E) {t t' : Trace κ σ} {e : ε} (ht : P t)
    (hc : c env t = (.error e, t')) : E t' := by
  have := h t ht
  rwa [hc] at this

/-- A program that never fails has a result. -/
theorem exists_ok (h : Ensures env P c Q fun _ => False) {t : Trace κ σ} (ht : P t) :
    ∃ a t', c env t = (.ok a, t') ∧ Q a t' := by
  have hc := h t ht
  rcases hrun : c env t with ⟨_ | a, t'⟩
  all_goals rw [hrun] at hc
  · exact hc.elim
  · exact ⟨a, t', rfl, hc⟩

/-- **The rule of consequence.** -/
theorem mono (h : Ensures env P c Q E) (hP : ∀ t, P' t → P t)
    (hQ : ∀ a t, Q a t → Q' a t) (hE : ∀ t, E t → E' t) : Ensures env P' c Q' E' := by
  intro t ht
  have hc := h t (hP t ht)
  rcases hrun : c env t with ⟨_ | a, t'⟩
  · rw [hrun] at hc
    exact hE t' hc
  · rw [hrun] at hc
    exact hQ a t' hc

theorem pre (h : Ensures env P c Q E) (hP : ∀ t, P' t → P t) : Ensures env P' c Q E :=
  h.mono hP (fun _ _ hq => hq) fun _ he => he

theorem post (h : Ensures env P c Q E) (hQ : ∀ a t, Q a t → Q' a t) :
    Ensures env P c Q' E :=
  h.mono (fun _ hp => hp) hQ fun _ he => he

theorem pure {a : α} (h : ∀ t, P t → Q a t) :
    Ensures env P (Pure.pure a : Faulty κ σ ε α) Q E :=
  h

theorem fail {e : ε} (h : ∀ t, P t → E t) : Ensures env P (Faulty.fail e : Faulty κ σ ε α) Q E :=
  h

theorem observe {f : σ → α} (h : ∀ t, P t → Q (f t.state) t) :
    Ensures env P (Faulty.observe f : Faulty κ σ ε α) Q E :=
  h

theorem change {f : σ → σ} {R : Unit → Trace κ σ → Prop}
    (h : ∀ t, P t → R () ⟨f t.state, t.made⟩) :
    Ensures env P (Faulty.change f : Faulty κ σ ε Unit) R E :=
  h

/-- **Sequencing.** -/
theorem bind {f : α → Faulty κ σ ε β} {R : β → Trace κ σ → Prop}
    (hc : Ensures env P c Q E) (hf : ∀ a, Ensures env (Q a) (f a) R E) :
    Ensures env P (c >>= f) R E := by
  intro t ht
  have hfirst := hc t ht
  rw [Faulty.bind_run]
  rcases hrun : c env t with ⟨_ | a, t'⟩
  · rw [hrun] at hfirst
    exact hfirst
  · rw [hrun] at hfirst
    exact hf a t' hfirst

/-- A precondition that is a case distinction. -/
theorem cases {p : Prop} (hpos : p → Ensures env P c Q E) (hneg : ¬ p → Ensures env P c Q E) :
    Ensures env P c Q E := by
  by_cases h : p
  · exact hpos h
  · exact hneg h

/-- A fact of the precondition that does not depend on the state. -/
theorem known {p : Prop} (h : p → Ensures env P c Q E) :
    Ensures env (fun t => p ∧ P t) c Q E :=
  fun t ht => h ht.1 t ht.2

/-- A precondition that is an alternative. -/
theorem or_pre {P₁ P₂ : Trace κ σ → Prop} (h₁ : Ensures env P₁ c Q E)
    (h₂ : Ensures env P₂ c Q E) : Ensures env (fun t => P₁ t ∨ P₂ t) c Q E :=
  fun t ht => ht.elim (h₁ t) (h₂ t)

/-- A program that never fails may fail with anything. -/
theorem never (h : Ensures env P c Q fun _ => False) : Ensures env P c Q E :=
  h.mono (fun _ hp => hp) (fun _ _ hq => hq) fun _ he => he.elim

/-- A precondition that names something. -/
theorem exists_pre {ι : Type} {R : ι → Trace κ σ → Prop}
    (h : ∀ i, Ensures env (R i) c Q E) : Ensures env (fun t => ∃ i, R i t) c Q E := by
  rintro t ⟨i, ht⟩
  exact h i t ht

/-- **One operation**: what a refusal leaves and what the operation does. -/
theorem perform {call : κ} {refused : ε} {act : Answer → σ → Except ε (α × σ)}
    (hfails : ∀ t, P t → env t.made call = .fails → E ⟨t.state, (call, false) :: t.made⟩)
    (hacts : ∀ t, P t → env t.made call ≠ .fails →
      match act (env t.made call) t.state with
      | .ok (a, s) => Q a ⟨s, (call, true) :: t.made⟩
      | .error _ => E ⟨t.state, (call, true) :: t.made⟩) :
    Ensures env P (Faulty.perform call refused act) Q E := by
  have hconcluded : ∀ answer t,
      (match act answer t.state with
        | .ok (a, s) => Q a ⟨s, (call, true) :: t.made⟩
        | .error _ => E ⟨t.state, (call, true) :: t.made⟩) →
      match conclude call t (act answer t.state) with
        | (.ok a, t') => Q a t'
        | (.error _, t') => E t' := by
    intro answer t h
    rcases hrun : act answer t.state with e | ⟨a, s⟩
    all_goals
      rw [hrun] at h
      exact h
  intro t ht
  have hgoes := hacts t ht
  unfold Faulty.perform
  rcases hanswer : env t.made call with _ | _ | n
  · rw [hanswer] at hgoes
    exact hconcluded .works t (hgoes (by decide))
  · exact hfails t ht hanswer
  · rw [hanswer] at hgoes
    refine hconcluded (.short n) t (hgoes ?_)
    intro h
    cases h

/-- An operation that only looks and that the environment lets through. -/
theorem look_spared {call : κ} {refused e : ε} {p : σ → Prop} [DecidablePred p]
    (hspared : ∀ t, P t → env t.made call ≠ .fails) (hp : ∀ t, P t → p t.state)
    (hP : ∀ t, P t → P ⟨t.state, (call, true) :: t.made⟩) :
    Ensures env P (Faulty.look call refused p e) (fun _ => P) fun _ => False := by
  refine perform (fun t ht hfails => hspared t ht hfails) fun t ht _ => ?_
  rw [if_pos (hp t ht)]
  exact hP t ht

theorem quiet_spared {call : κ} {refused : ε}
    (hspared : ∀ t, P t → env t.made call ≠ .fails)
    (hP : ∀ t, P t → P ⟨t.state, (call, true) :: t.made⟩) :
    Ensures env P (Faulty.quiet call refused) (fun _ => P) fun _ => False :=
  perform (fun t ht hfails => hspared t ht hfails) fun t ht _ => hP t ht

/-- **`try … catch`.** -/
theorem handle {h : ε → Faulty κ σ ε α} {F : Trace κ σ → Prop}
    (hc : Ensures env P c Q F) (hh : ∀ e, Ensures env F (h e) Q E) :
    Ensures env P (Faulty.handle c h) Q E := by
  intro t ht
  have hfirst := hc t ht
  unfold Faulty.handle
  rcases hrun : c env t with ⟨e | a, t'⟩
  · rw [hrun] at hfirst
    exact hh e t' hfirst
  · rw [hrun] at hfirst
    exact hfirst

theorem attempt (hc : Ensures env P c Q E) :
    Ensures env P (Faulty.attempt c)
      (fun outcome t => (∀ a, outcome = .ok a → Q a t) ∧ ∀ e, outcome = .error e → E t) E' := by
  intro t ht
  have hfirst := hc t ht
  show (∀ a, (c env t).1 = .ok a → Q a (c env t).2)
    ∧ ∀ e, (c env t).1 = .error e → E (c env t).2
  rcases hrun : c env t with ⟨e | a, t'⟩
  all_goals rw [hrun] at hfirst
  · refine ⟨fun a h => ?_, fun _ _ => hfirst⟩
    cases h
  · refine ⟨fun b h => ?_, fun e h => ?_⟩
    · cases h
      exact hfirst
    · cases h

/-- **`try … finally`**: the last part runs after the result and after the
failure. -/
theorem always {last : Faulty κ σ ε Unit} {F : Trace κ σ → Prop}
    {R : α → Trace κ σ → Prop} (hc : Ensures env P c R F)
    (hok : ∀ a, Ensures env (R a) last (fun _ => Q a) E)
    (herror : Ensures env F last (fun _ => E) E) :
    Ensures env P (Faulty.always c last) Q E := by
  refine (hc.attempt).bind fun outcome => ?_
  cases outcome with
  | error e =>
    refine (herror.pre fun t ht => ht.2 e rfl).bind fun _ => ?_
    exact Ensures.fail fun _ h => h
  | ok a =>
    refine ((hok a).pre fun t ht => ht.1 a rfl).bind fun _ => ?_
    exact Ensures.pure fun _ h => h

/-- **A loop**: `I` is the invariant, of the items still to come. -/
theorem forEach {f : β → Faulty κ σ ε Unit} {I : List β → Trace κ σ → Prop} {items : List β}
    (h : ∀ b rest, b :: rest <:+ items → Ensures env (I (b :: rest)) (f b) (fun _ => I rest) E) :
    Ensures env (I items) (Faulty.forEach f items) (fun _ => I []) E := by
  induction items with
  | nil => exact Ensures.pure fun _ h => h
  | cons b rest ih =>
    refine (h b rest List.suffix_rfl).bind fun _ => ?_
    exact ih fun c rest' hsuffix => h c rest' (hsuffix.trans (List.suffix_cons b rest))

end Ensures

/-! ## Programs that only look -/

/-- **A program that only looks**: it makes operations of the kind `C` and
leaves the state alone, a result is `f` of the state and shows `X` of it,
and where `X` holds only a refused operation makes it fail. -/
structure Reads (env : Environment κ) (C : κ → Prop) (c : Faulty κ σ ε α) (X : σ → Prop)
    (f : σ → α) : Prop where
  state : ∀ t, (c env t).2.state = t.state
  grows : ∀ t, ∃ made, (c env t).2.made = made ++ t.made ∧ ∀ m ∈ made, C m.1
  value : ∀ t a, (c env t).1 = .ok a → X t.state ∧ a = f t.state
  passes : Works env → ∀ t, X t.state → ∃ a, (c env t).1 = .ok a

/-- A program that only looks and whose result is no value. -/
abbrev Checks (env : Environment κ) (C : κ → Prop) (c : Faulty κ σ ε Unit) (X : σ → Prop) :
    Prop :=
  Reads env C c X fun _ => ()

namespace Reads

variable {env : Environment κ} {C : κ → Prop} {c : Faulty κ σ ε α} {X Y : σ → Prop} {f : σ → α}

theorem pure {a : α} : Reads env C (Pure.pure a : Faulty κ σ ε α) (fun _ => True) fun _ => a where
  state _ := rfl
  grows _ := ⟨[], rfl, List.forall_mem_nil _⟩
  value _ _ h := ⟨trivial, (Except.ok.inj h).symm⟩
  passes _ _ _ := ⟨a, rfl⟩

theorem fail {e : ε} {f : σ → α} :
    Reads env C (Faulty.fail e : Faulty κ σ ε α) (fun _ => False) f where
  state _ := rfl
  grows _ := ⟨[], rfl, List.forall_mem_nil _⟩
  value _ _ h := by cases h
  passes _ _ h := h.elim

theorem observe {g : σ → α} : Reads env C (Faulty.observe g : Faulty κ σ ε α) (fun _ => True) g where
  state _ := rfl
  grows _ := ⟨[], rfl, List.forall_mem_nil _⟩
  value _ _ h := ⟨trivial, (Except.ok.inj h).symm⟩
  passes _ t _ := ⟨g t.state, rfl⟩

theorem require {p : σ → Prop} [DecidablePred p] {e : ε} :
    Checks env C (Faulty.require p e : Faulty κ σ ε Unit) p where
  state t := by
    unfold Faulty.require
    split <;> rfl
  grows t := by
    unfold Faulty.require
    split <;> exact ⟨[], rfl, List.forall_mem_nil _⟩
  value t a h := by
    unfold Faulty.require at h
    split at h
    · next hp => exact ⟨hp, rfl⟩
    · cases h
  passes _ t hp := by
    unfold Faulty.require
    rw [if_pos hp]
    exact ⟨(), rfl⟩

/-- An operation whose own part leaves the state alone. -/
theorem perform {call : κ} {refused : ε} {act : Answer → σ → Except ε (α × σ)}
    (hcall : C call)
    (hact : ∀ answer s a s', act answer s = .ok (a, s') → s' = s ∧ X s ∧ a = f s)
    (hpasses : ∀ s, X s → ∃ a, act .works s = .ok (a, s)) :
    Reads env C (Faulty.perform call refused act) X f := by
  have hmade : ∀ b : Bool, ∀ m ∈ [(call, b)], C m.1 := fun b m hm => by
    rw [List.mem_singleton.mp hm]
    exact hcall
  have hconcluded : ∀ answer t, (conclude call t (act answer t.state)).2.state = t.state
      ∧ (∃ made, (conclude call t (act answer t.state)).2.made = made ++ t.made
        ∧ ∀ m ∈ made, C m.1)
      ∧ ∀ a, (conclude call t (act answer t.state)).1 = .ok a → X t.state ∧ a = f t.state := by
    intro answer t
    rcases hrun : act answer t.state with e | ⟨a, s⟩
    · refine ⟨rfl, ⟨[(call, true)], rfl, hmade true⟩, fun a h => ?_⟩
      cases h
    · obtain ⟨rfl, hx, rfl⟩ := hact _ _ _ _ hrun
      exact ⟨rfl, ⟨[(call, true)], rfl, hmade true⟩, fun _ h => ⟨hx, (Except.ok.inj h).symm⟩⟩
  have hall : ∀ t, (Faulty.perform call refused act env t).2.state = t.state
      ∧ (∃ made, (Faulty.perform call refused act env t).2.made = made ++ t.made
        ∧ ∀ m ∈ made, C m.1)
      ∧ ∀ a, (Faulty.perform call refused act env t).1 = .ok a → X t.state ∧ a = f t.state := by
    intro t
    unfold Faulty.perform
    rcases env t.made call with _ | _ | n
    · exact hconcluded .works t
    · refine ⟨rfl, ⟨[(call, false)], rfl, hmade false⟩, fun a h => ?_⟩
      cases h
    · exact hconcluded (.short n) t
  refine ⟨fun t => (hall t).1, fun t => (hall t).2.1, fun t => (hall t).2.2, ?_⟩
  intro hworks t hx
  obtain ⟨a, ha⟩ := hpasses t.state hx
  unfold Faulty.perform
  rw [hworks t.made call]
  show ∃ a, (conclude call t (act .works t.state)).1 = .ok a
  rw [ha]
  exact ⟨a, rfl⟩

theorem look {call : κ} {refused e : ε} {p : σ → Prop} [DecidablePred p] (hcall : C call) :
    Checks env C (Faulty.look call refused p e : Faulty κ σ ε Unit) p := by
  refine perform hcall ?_ ?_
  · intro answer s a s' h
    split at h
    · next hp =>
      obtain ⟨-, rfl⟩ := Prod.mk.inj (Except.ok.inj h)
      exact ⟨rfl, hp, rfl⟩
    · cases h
  · intro s hp
    rw [if_pos hp]
    exact ⟨(), rfl⟩

theorem quiet {call : κ} {refused : ε} (hcall : C call) :
    Checks env C (Faulty.quiet call refused : Faulty κ σ ε Unit) fun _ => True := by
  refine perform hcall ?_ ?_
  · intro answer s a s' h
    obtain ⟨-, rfl⟩ := Prod.mk.inj (Except.ok.inj h)
    exact ⟨rfl, trivial, rfl⟩
  · exact fun s _ => ⟨(), rfl⟩

/-- **Sequencing.** -/
theorem bind {g : α → Faulty κ σ ε β} {Z : α → σ → Prop} {h : α → σ → β}
    (hc : Reads env C c X f) (hg : ∀ a, Reads env C (g a) (Z a) (h a)) :
    Reads env C (c >>= g) (fun s => X s ∧ Z (f s) s) fun s => h (f s) s := by
  refine ⟨?_, ?_, ?_, ?_⟩
  · intro t
    have hstate := hc.state t
    rw [Faulty.bind_run]
    rcases hfirst : c env t with ⟨_ | a, t'⟩
    all_goals rw [hfirst] at hstate
    · exact hstate
    · exact ((hg a).state t').trans hstate
  · intro t
    obtain ⟨made, hmade, hkind⟩ := hc.grows t
    rw [Faulty.bind_run]
    rcases hfirst : c env t with ⟨_ | a, t'⟩
    all_goals rw [hfirst] at hmade
    · exact ⟨made, hmade, hkind⟩
    · obtain ⟨more, hmore, hkinds⟩ := (hg a).grows t'
      refine ⟨more ++ made, ?_, List.forall_mem_append.mpr ⟨hkinds, hkind⟩⟩
      rw [List.append_assoc, ← hmade]
      exact hmore
  · intro t b hb
    have hstate := hc.state t
    have hvalue := hc.value t
    rw [Faulty.bind_run] at hb
    rcases hfirst : c env t with ⟨_ | a, t'⟩
    all_goals rw [hfirst] at hb hstate hvalue
    · cases hb
    · obtain ⟨hx, rfl⟩ := hvalue a rfl
      have hlast := (hg (f t.state)).value t' b hb
      rw [show t'.state = t.state from hstate] at hlast
      exact ⟨⟨hx, hlast.1⟩, hlast.2⟩
  · rintro hworks t ⟨hx, hz⟩
    have hstate := hc.state t
    have hvalue := hc.value t
    obtain ⟨a, ha⟩ := hc.passes hworks t hx
    rw [Faulty.bind_run]
    rcases hfirst : c env t with ⟨_ | b, t'⟩
    all_goals rw [hfirst] at ha hstate hvalue
    · cases ha
    · obtain ⟨-, rfl⟩ := hvalue b rfl
      refine (hg (f t.state)).passes hworks t' ?_
      rwa [show t'.state = t.state from hstate]

/-- A check of what was read. -/
theorem checking {g : α → Faulty κ σ ε Unit} {Z : α → σ → Prop} (hc : Reads env C c X f)
    (hg : ∀ a, Checks env C (g a) (Z a)) :
    Checks env C (c >>= g) fun s => X s ∧ Z (f s) s :=
  hc.bind hg

/-- An operation with an amount, and what follows it. Whatever amount goes
through, the rest shows `Y`; the whole amount goes through where nothing is
refused. -/
theorem amount {call : κ} {refused : ε} {n : Nat} {g : Nat → Faulty κ σ ε Unit}
    {Z : Nat → σ → Prop} (hcall : C call) (hg : ∀ k, Checks env C (g k) (Z k))
    (hvalue : ∀ k s, Z k s → Y s) (hpasses : ∀ s, Y s → Z n s) :
    Checks env C (Faulty.perform call refused
      (fun answer s => .ok (answer.amount n, s)) >>= g) Y := by
  have hmade : ∀ b : Bool, ∀ m ∈ [(call, b)], C m.1 := fun b m hm => by
    rw [List.mem_singleton.mp hm]
    exact hcall
  have hrun : ∀ t, (Faulty.perform call refused
      (fun answer s => .ok (answer.amount n, s)) >>= g) env t
        = (.error refused, ⟨t.state, (call, false) :: t.made⟩)
      ∨ ∃ k, (Works env → k = n) ∧ (Faulty.perform call refused
        (fun answer s => .ok (answer.amount n, s)) >>= g) env t
          = g k env ⟨t.state, (call, true) :: t.made⟩ := by
    intro t
    rw [Faulty.bind_run]
    unfold Faulty.perform
    rcases hanswer : env t.made call with _ | _ | k
    · exact .inr ⟨n, fun _ => rfl, rfl⟩
    · exact .inl rfl
    · refine .inr ⟨min k n, fun hworks => ?_, rfl⟩
      rw [hworks t.made call] at hanswer
      cases hanswer
  refine ⟨?_, ?_, ?_, ?_⟩
  · intro t
    obtain hfails | ⟨k, -, hgoes⟩ := hrun t
    · rw [hfails]
    · rw [hgoes]
      exact (hg k).state _
  · intro t
    obtain hfails | ⟨k, -, hgoes⟩ := hrun t
    · rw [hfails]
      exact ⟨[(call, false)], rfl, hmade false⟩
    · obtain ⟨made, hgrows, hkind⟩ := (hg k).grows ⟨t.state, (call, true) :: t.made⟩
      rw [hgoes]
      refine ⟨made ++ [(call, true)], ?_, List.forall_mem_append.mpr ⟨hkind, hmade true⟩⟩
      rw [List.append_assoc]
      exact hgrows
  · intro t a ha
    obtain hfails | ⟨k, -, hgoes⟩ := hrun t
    · rw [hfails] at ha
      cases ha
    · rw [hgoes] at ha
      obtain ⟨hz, -⟩ := (hg k).value _ a ha
      exact ⟨hvalue k _ hz, rfl⟩
  · intro hworks t hy
    obtain hfails | ⟨k, hk, hgoes⟩ := hrun t
    · rw [Faulty.bind_run] at hfails
      unfold Faulty.perform at hfails
      rw [hworks t.made call] at hfails
      have hpassed := (hg n).passes hworks ⟨t.state, (call, true) :: t.made⟩ (hpasses _ hy)
      obtain ⟨a, ha⟩ := hpassed
      have hsame : g n env ⟨t.state, (call, true) :: t.made⟩
          = (.error refused, ⟨t.state, (call, false) :: t.made⟩) := hfails
      rw [hsame] at ha
      cases ha
    · rw [hgoes, hk hworks]
      exact (hg n).passes hworks _ (hpasses _ hy)

/-- Checking one thing and then another. -/
theorem next {c : Faulty κ σ ε Unit} {d : Faulty κ σ ε α} (hc : Checks env C c X)
    (hd : Reads env C d Y f) : Reads env C (c >>= fun _ => d) (fun s => X s ∧ Y s) f :=
  hc.bind fun _ => hd

/-- `try … finally` around what only looks. -/
theorem always {last : Faulty κ σ ε Unit} (hc : Reads env C c X f)
    (hlast : Checks env C last fun _ => True) : Reads env C (Faulty.always c last) X f := by
  have hrun : ∀ t, Faulty.always c last env t = (match last env (c env t).2 with
    | (.ok _, t') => ((c env t).1, t')
    | (.error e, t') => (.error e, t')) := by
    intro t
    unfold Faulty.always
    rw [Faulty.bind_run]
    show (last >>= fun _ => Faulty.settle (c env t).1) env (c env t).2 = _
    rw [Faulty.bind_run]
    rcases last env (c env t).2 with ⟨_ | _, t'⟩
    · rfl
    · rcases (c env t).1 with _ | _ <;> rfl
  refine ⟨?_, ?_, ?_, ?_⟩
  · intro t
    have hstate := (hlast.state (c env t).2).trans (hc.state t)
    rw [hrun]
    rcases hfirst : last env (c env t).2 with ⟨_ | _, t'⟩
    all_goals
      rw [hfirst] at hstate
      exact hstate
  · intro t
    obtain ⟨made, hmade, hkind⟩ := hc.grows t
    obtain ⟨more, hmore, hkinds⟩ := hlast.grows (c env t).2
    rw [hmade, ← List.append_assoc] at hmore
    rw [hrun]
    rcases hfirst : last env (c env t).2 with ⟨_ | _, t'⟩
    all_goals
      rw [hfirst] at hmore
      exact ⟨more ++ made, hmore, List.forall_mem_append.mpr ⟨hkinds, hkind⟩⟩
  · intro t a ha
    rw [hrun] at ha
    rcases hfirst : last env (c env t).2 with ⟨_ | _, t'⟩
    all_goals rw [hfirst] at ha
    · cases ha
    · exact hc.value t a ha
  · intro hworks t hx
    obtain ⟨a, ha⟩ := hc.passes hworks t hx
    obtain ⟨u, hu⟩ := hlast.passes hworks (c env t).2 trivial
    rw [hrun]
    rcases hfirst : last env (c env t).2 with ⟨_ | _, t'⟩
    all_goals rw [hfirst] at hu
    · cases hu
    · exact ⟨a, ha⟩

/-- The condition of a check, said differently. -/
theorem congr (hc : Reads env C c X f) (h : ∀ s, X s ↔ Y s) : Reads env C c Y f where
  state := hc.state
  grows := hc.grows
  value t a ha := ⟨(h _).mp (hc.value t a ha).1, (hc.value t a ha).2⟩
  passes hworks t hy := hc.passes hworks t ((h _).mpr hy)

/-- **What only looks, as a triple.** -/
theorem ensures (hc : Reads env C c X f) {P : Trace κ σ → Prop} (hP : Stable C P) :
    Ensures env P c (fun a t => P t ∧ X t.state ∧ a = f t.state)
      (fun t => P t ∧ ¬ (Works env ∧ X t.state)) := by
  intro t ht
  have hstate := hc.state t
  have hvalue := hc.value t
  have hpasses := fun hworks => hc.passes hworks t
  obtain ⟨made, hmade, hkind⟩ := hc.grows t
  have hkept : P (c env t).2 := by
    have := hP.append ht made hkind
    rwa [← hmade, ← hstate] at this
  rcases hrun : c env t with ⟨_ | a, t'⟩
  all_goals rw [hrun] at hstate hvalue hpasses hkept
  · refine ⟨hkept, ?_⟩
    rintro ⟨hworks, hx⟩
    rw [show t'.state = t.state from hstate] at hx
    obtain ⟨a, ha⟩ := hpasses hworks hx
    cases ha
  · obtain ⟨hx, rfl⟩ := hvalue a rfl
    have hsame : t'.state = t.state := hstate
    refine ⟨hkept, ?_, ?_⟩
    · rw [hsame]
      exact hx
    · rw [hsame]

end Reads
