import Lifecycle.TransitionSystem

/-!
# Programs that ask

A program asks questions of the outside world and goes on with the answers.
Between a question and its answer, and between an answer and the next
question, other programs may be at work on the same shared state; a program
that is never answered again has crashed.

`Keeps` is the judgement about one program: as long as the others respect
`rely`, every question it asks meets `G` in the state it is asked in, and a
result meets `P`. `Pool` runs any number of programs side by side, and
`Pool.reachable_keeps` is the rule that puts the judgements together: when
every answer to a question that meets `G` is something the other programs
rely on, all of them keep what was proved of each alone.
-/

variable {κ : Type} {A : κ → Type} {ε α β σ : Type}

/-- **A program**: an outcome, or a question and what follows each answer. -/
inductive Asking (κ : Type) (A : κ → Type) (ε α : Type) : Type
  | done (outcome : Except ε α)
  | ask (question : κ) (next : A question → Asking κ A ε α)

namespace Asking

/-- One program after another. -/
def andThen (f : α → Asking κ A ε β) : Asking κ A ε α → Asking κ A ε β
  | done (.ok a) => f a
  | done (.error e) => done (.error e)
  | ask q next => ask q fun a => andThen f (next a)

instance : Monad (Asking κ A ε) where
  pure a := done (.ok a)
  bind c f := andThen f c

theorem andThen_pure (c : Asking κ A ε α) : id <$> c = c := by
  show andThen _ c = c
  induction c with
  | done outcome => cases outcome <;> rfl
  | ask q next ih => exact congrArg (ask q) (funext ih)

theorem andThen_andThen {γ : Type} (c : Asking κ A ε α) (f : α → Asking κ A ε β)
    (g : β → Asking κ A ε γ) : c >>= f >>= g = c >>= fun a => f a >>= g := by
  show andThen g (andThen f c) = andThen _ c
  induction c with
  | done outcome => cases outcome <;> rfl
  | ask q next ih => exact congrArg (ask q) (funext ih)

instance : LawfulMonad (Asking κ A ε) :=
  LawfulMonad.mk' _ andThen_pure (fun _ _ => rfl) andThen_andThen

/-- Fails. -/
def fail (e : ε) : Asking κ A ε α := done (.error e)

/-- The outcome of a part that asks nothing. -/
def lift (x : Except ε α) : Asking κ A ε α := done x

/-- Asks one question. -/
def question (q : κ) : Asking κ A ε (A q) := ask q fun a => done (.ok a)

/-- `try … catch`. -/
def rescue (h : ε → Asking κ A ε α) : Asking κ A ε α → Asking κ A ε α
  | done (.ok a) => done (.ok a)
  | done (.error e) => h e
  | ask q next => ask q fun a => rescue h (next a)

/-! ## Runs of one program -/

/-- **What is left of a program** once its first questions have been
answered. -/
inductive Reaches : Asking κ A ε α → List ((q : κ) × A q) → Asking κ A ε α → Prop
  | refl {c : Asking κ A ε α} : Reaches c [] c
  | answer {q : κ} {next : A q → Asking κ A ε α} {a : A q} {rest : List ((q : κ) × A q)}
      {c : Asking κ A ε α} :
      Reaches (next a) rest c → Reaches (.ask q next) (⟨q, a⟩ :: rest) c

theorem Reaches.trans {c d e : Asking κ A ε α} {first rest : List ((q : κ) × A q)}
    (h : Reaches c first d) (hrest : Reaches d rest e) : Reaches c (first ++ rest) e := by
  induction h with
  | refl => exact hrest
  | answer _ ih => exact .answer (ih hrest)

/-- The first part of a program goes on by itself. -/
theorem Reaches.bind {c d : Asking κ A ε α} {f : α → Asking κ A ε β}
    {transcript : List ((q : κ) × A q)} (h : Reaches c transcript d) :
    Reaches (c >>= f) transcript (d >>= f) := by
  induction h with
  | refl => exact .refl
  | answer _ ih => exact .answer ih

/-- What runs under a `catch` goes on by itself. -/
theorem Reaches.rescue {c d : Asking κ A ε α} {g : ε → Asking κ A ε α}
    {transcript : List ((q : κ) × A q)} (h : Reaches c transcript d) :
    Reaches (c.rescue g) transcript (d.rescue g) := by
  induction h with
  | refl => exact .refl
  | answer _ ih => exact .answer ih

/-- **What a program asks** once its first questions have been answered. -/
def Asks (c : Asking κ A ε α) (transcript : List ((q : κ) × A q)) (q : κ) : Prop :=
  ∃ next, Reaches c transcript (.ask q next)

/-- Questions answered one after another. -/
inductive Served (serve : (q : κ) → σ → A q → σ → Prop) :
    σ → List ((q : κ) × A q) → σ → Prop
  | nil {s : σ} : Served serve s [] s
  | cons {s t u : σ} {q : κ} {a : A q} {rest : List ((q : κ) × A q)} :
      serve q s a t → Served serve t rest u → Served serve s (⟨q, a⟩ :: rest) u

/-! ## Judgements -/

/-- **What a program keeps**: in any state the others may have brought about,
its next question meets `G`, and after every answer it keeps on; its result
meets `P`, its failure `E`. -/
def Keeps (rely : σ → σ → Prop) (serve : (q : κ) → σ → A q → σ → Prop) (G : σ → κ → Prop)
    (P : α → σ → Prop) (E : ε → σ → Prop) : Asking κ A ε α → σ → Prop
  | done (.ok a), s => ∀ t, rely s t → P a t
  | done (.error e), s => ∀ t, rely s t → E e t
  | ask q next, s => ∀ t, rely s t →
      G t q ∧ ∀ a u, serve q t a u → Keeps rely serve G P E (next a) u

namespace Keeps

variable {rely : σ → σ → Prop} {serve : (q : κ) → σ → A q → σ → Prop} {G : σ → κ → Prop}
  {P : α → σ → Prop} {Q : β → σ → Prop} {E F : ε → σ → Prop} {s t : σ}

/-- What the others do does not matter. -/
theorem stable (htrans : ∀ {s t u}, rely s t → rely t u → rely s u) {c : Asking κ A ε α}
    (h : Keeps rely serve G P E c s) (hst : rely s t) : Keeps rely serve G P E c t := by
  match c, h with
  | done (.ok _), h => exact fun u hu => h u (htrans hst hu)
  | done (.error _), h => exact fun u hu => h u (htrans hst hu)
  | ask _ _, h => exact fun u hu => h u (htrans hst hu)

/-- **The rule of consequence.** -/
theorem mono {P' : α → σ → Prop} {E' : ε → σ → Prop} {c : Asking κ A ε α}
    (h : Keeps rely serve G P E c s) (hP : ∀ a t, P a t → P' a t)
    (hE : ∀ e t, E e t → E' e t) : Keeps rely serve G P' E' c s := by
  induction c generalizing s with
  | done outcome =>
    cases outcome with
    | ok a => exact fun t ht => hP a t (h t ht)
    | error e => exact fun t ht => hE e t (h t ht)
  | ask q next ih =>
    intro t ht
    obtain ⟨hq, hnext⟩ := h t ht
    exact ⟨hq, fun a u hu => ih a (hnext a u hu)⟩

/-- **Sequencing.** -/
theorem bind (hrefl : ∀ s, rely s s) {c : Asking κ A ε α} {f : α → Asking κ A ε β}
    (hc : Keeps rely serve G P E c s)
    (hf : ∀ a t, P a t → Keeps rely serve G Q E (f a) t) :
    Keeps rely serve G Q E (c >>= f) s := by
  show Keeps rely serve G Q E (c.andThen f) s
  induction c generalizing s with
  | done outcome =>
    cases outcome with
    | ok a => exact hf a s (hc s (hrefl s))
    | error e => exact hc
  | ask q next ih =>
    intro t ht
    obtain ⟨hq, hnext⟩ := hc t ht
    exact ⟨hq, fun a u hu => ih a (hnext a u hu)⟩

/-- **`try … catch`.** -/
theorem rescue (hrefl : ∀ s, rely s s) {c : Asking κ A ε α} {h : ε → Asking κ A ε α}
    (hc : Keeps rely serve G P F c s)
    (hh : ∀ e t, F e t → Keeps rely serve G P E (h e) t) :
    Keeps rely serve G P E (c.rescue h) s := by
  induction c generalizing s with
  | done outcome =>
    cases outcome with
    | ok a => exact hc
    | error e => exact hh e s (hc s (hrefl s))
  | ask q next ih =>
    intro t ht
    obtain ⟨hq, hnext⟩ := hc t ht
    exact ⟨hq, fun a u hu => ih a (hnext a u hu)⟩

theorem pure {a : α} (h : ∀ t, rely s t → P a t) :
    Keeps rely serve G P E (Pure.pure a : Asking κ A ε α) s :=
  h

theorem fail {e : ε} (h : ∀ t, rely s t → E e t) :
    Keeps rely serve G P E (Asking.fail e : Asking κ A ε α) s :=
  h

/-- A part that asks nothing. -/
theorem lift {x : Except ε α} (hok : ∀ a, x = .ok a → ∀ t, rely s t → P a t)
    (herror : ∀ e, x = .error e → ∀ t, rely s t → E e t) :
    Keeps rely serve G P E (Asking.lift x) s := by
  cases x with
  | ok a => exact hok a rfl
  | error e => exact herror e rfl

/-- **One question.** -/
theorem question {q : κ} {R : A q → σ → Prop} (hq : ∀ t, rely s t → G t q)
    (ha : ∀ t a u v, rely s t → serve q t a u → rely u v → R a v) :
    Keeps rely serve G R E (Asking.question q : Asking κ A ε (A q)) s :=
  fun t ht => ⟨hq t ht, fun a u hu v hv => ha t a u v ht hu hv⟩

/-- **What every answer leaves true stays true.** -/
theorem frame {K : σ → Prop} (hrely : ∀ {u v}, rely u v → K u → K v)
    (hserve : ∀ {q u a v}, serve q u a v → K u → K v) {c : Asking κ A ε α}
    (h : Keeps rely serve G P E c s) (hs : K s) :
    Keeps rely serve G (fun a t => P a t ∧ K t) (fun e t => E e t ∧ K t) c s := by
  induction c generalizing s with
  | done outcome =>
    cases outcome with
    | ok a => exact fun t ht => ⟨h t ht, hrely ht hs⟩
    | error e => exact fun t ht => ⟨h t ht, hrely ht hs⟩
  | ask q next ih =>
    intro t ht
    obtain ⟨hq, hnext⟩ := h t ht
    exact ⟨hq, fun a u hu => ih a (hnext a u hu) (hserve hu (hrely ht hs))⟩

/-- What is left of a program keeps on. -/
theorem reaches (hrefl : ∀ u, rely u u) {c d : Asking κ A ε α}
    {transcript : List ((q : κ) × A q)} (h : Keeps rely serve G P E c s)
    (hreaches : Reaches c transcript d) (hserved : Served serve s transcript t) :
    Keeps rely serve G P E d t := by
  induction hreaches generalizing s with
  | refl =>
    cases hserved
    exact h
  | answer _ ih =>
    cases hserved with
    | cons hserve hrest => exact ih ((h _ (hrefl _)).2 _ _ hserve) hrest

/-- **Whatever a program asks meets its promise.** -/
theorem asks (hrefl : ∀ u, rely u u) {c : Asking κ A ε α} {transcript : List ((q : κ) × A q)}
    {q : κ} (h : Keeps rely serve G P E c s) (hasks : Asks c transcript q)
    (hserved : Served serve s transcript t) : G t q := by
  obtain ⟨next, hreaches⟩ := hasks
  exact ((h.reaches hrefl hreaches hserved) t (hrefl t)).1

end Keeps

end Asking

open Asking

/-! ## Programs side by side -/

/-- **A pool of programs** over one shared state. -/
structure Pool (κ : Type) (A : κ → Type) (ε σ : Type) where
  shared : σ
  programs : List (Asking κ A ε Unit)

namespace Pool

/-- **What a pool does next**: a program joins it, or the pending question
of one of its programs is answered. -/
inductive Step (serve : Nat → (q : κ) → σ → A q → σ → Prop)
    (allowed : Nat → Asking κ A ε Unit → Prop) :
    Pool κ A ε σ → Option (Nat × κ) → Pool κ A ε σ → Prop
  | join {s : σ} {programs : List (Asking κ A ε Unit)} {c : Asking κ A ε Unit} :
      allowed programs.length c → Step serve allowed ⟨s, programs⟩ none ⟨s, programs ++ [c]⟩
  | answer {s t : σ} {programs : List (Asking κ A ε Unit)} {i : Nat} {q : κ}
      {next : A q → Asking κ A ε Unit} {a : A q} :
      programs[i]? = some (.ask q next) → serve i q s a t →
        Step serve allowed ⟨s, programs⟩ (some (i, q)) ⟨t, programs.set i (next a)⟩

/-- **The pool as a transition system.** -/
def system (serve : Nat → (q : κ) → σ → A q → σ → Prop)
    (allowed : Nat → Asking κ A ε Unit → Prop) (initial : σ → Prop) :
    TransitionSystem (Pool κ A ε σ) (Option (Nat × κ)) where
  initial p := initial p.shared ∧ p.programs = []
  step := Step serve allowed

/-- **A program of a pool goes on by itself.** -/
theorem reachable_of_reaches {serve : Nat → (q : κ) → σ → A q → σ → Prop}
    {allowed : Nat → Asking κ A ε Unit → Prop} {initial : σ → Prop} {i : Nat}
    {c d : Asking κ A ε Unit} {transcript : List ((q : κ) × A q)}
    (hreaches : Reaches c transcript d) : ∀ {s t : σ} {programs : List (Asking κ A ε Unit)},
    (system serve allowed initial).Reachable ⟨s, programs⟩ → programs[i]? = some c →
      Served (serve i) s transcript t →
      (system serve allowed initial).Reachable ⟨t, programs.set i d⟩ := by
  induction hreaches with
  | refl =>
    intro s t programs h hi hserved
    cases hserved
    obtain ⟨hlt, rfl⟩ := List.getElem?_eq_some_iff.mp hi
    rw [List.set_getElem_self]
    exact h
  | answer _ ih =>
    intro s t programs h hi hserved
    cases hserved with
    | cons hserve hrest =>
      have hlt := (List.getElem?_eq_some_iff.mp hi).1
      have hnext := ih (h.step (.answer hi hserve)) (List.getElem?_set_self hlt) hrest
      rwa [List.set_set] at hnext

/-- **A program joins a pool and goes on by itself.** -/
theorem reachable_of_joined {serve : Nat → (q : κ) → σ → A q → σ → Prop}
    {allowed : Nat → Asking κ A ε Unit → Prop} {initial : σ → Prop} {s t : σ}
    {programs : List (Asking κ A ε Unit)} {c d : Asking κ A ε Unit}
    {transcript : List ((q : κ) × A q)} (h : (system serve allowed initial).Reachable ⟨s, programs⟩)
    (hc : allowed programs.length c) (hreaches : Reaches c transcript d)
    (hserved : Served (serve programs.length) s transcript t) :
    (system serve allowed initial).Reachable ⟨t, programs ++ [d]⟩ := by
  have hjoined := reachable_of_reaches hreaches (h.step (.join hc)) List.getElem?_concat_length
    hserved
  rwa [List.set_append_right _ _ (Nat.le_refl _), Nat.sub_self] at hjoined

/-- **The programs of a pool keep what each of them keeps.** -/
structure Kept (rely : Nat → σ → σ → Prop) (serve : Nat → (q : κ) → σ → A q → σ → Prop)
    (G : Nat → σ → κ → Prop) (I : σ → Prop) (p : Pool κ A ε σ) : Prop where
  shared : I p.shared
  programs : ∀ i c, p.programs[i]? = some c →
    Keeps (rely i) (serve i) (G i) (fun _ _ => True) (fun _ _ => True) c p.shared

section Rule

variable {rely : Nat → σ → σ → Prop} {serve : Nat → (q : κ) → σ → A q → σ → Prop}
  {allowed : Nat → Asking κ A ε Unit → Prop} {initial : σ → Prop} {G : Nat → σ → κ → Prop}
  {I : σ → Prop}

/-- **One step of a pool**: its question meets what was promised, and what
the others rely on is respected. -/
theorem Kept.step (hrefl : ∀ i s, rely i s s)
    (htrans : ∀ {i s t u}, rely i s t → rely i t u → rely i s u)
    (hallowed : ∀ i c, allowed i c → ∀ s, I s →
      Keeps (rely i) (serve i) (G i) (fun _ _ => True) (fun _ _ => True) c s)
    (hserve : ∀ {i q s a t}, I s → G i s q → serve i q s a t →
      I t ∧ ∀ j, j ≠ i → rely j s t)
    {p p' : Pool κ A ε σ} {label : Option (Nat × κ)} (h : Kept rely serve G I p)
    (hstep : Step serve allowed p label p') :
    Kept rely serve G I p' ∧ ∀ i q, label = some (i, q) → G i p.shared q := by
  cases hstep with
  | join hc =>
    rename_i s programs c
    refine ⟨⟨h.shared, fun i d hd => ?_⟩, fun i q hlabel => ?_⟩
    · rw [List.getElem?_append] at hd
      split at hd
      · exact h.programs i d hd
      · rename_i hle
        obtain ⟨hlt, hget⟩ := List.getElem?_eq_some_iff.mp hd
        rw [List.getElem_singleton] at hget
        have hi : i = programs.length := by
          rw [List.length_singleton] at hlt
          omega
        rw [hi, ← hget]
        exact hallowed programs.length c hc s h.shared
    · cases hlabel
  | answer hprogram hserved =>
    rename_i s t programs i q next a
    have hquestion := h.programs i _ hprogram s (hrefl i s)
    obtain ⟨hshared, hothers⟩ := hserve h.shared hquestion.1 hserved
    refine ⟨⟨hshared, fun j d hd => ?_⟩, fun j r hlabel => ?_⟩
    · by_cases hj : j = i
      · have hlt : i < programs.length := (List.getElem?_eq_some_iff.mp hprogram).1
        rw [hj, List.getElem?_set_self hlt] at hd
        obtain rfl := Option.some.inj hd
        rw [hj]
        exact hquestion.2 a t hserved
      · rw [List.getElem?_set_ne (Ne.symm hj)] at hd
        have hkept : Keeps (rely j) (serve j) (G j) (fun _ _ => True) (fun _ _ => True) d s :=
          h.programs j d hd
        exact @Keeps.stable κ A ε Unit σ (rely j) (serve j) (G j) _ _ s t
          (fun hst htu => htrans hst htu) d hkept (hothers j hj)
    · obtain ⟨rfl, rfl⟩ := Prod.ext_iff.mp (Option.some.inj hlabel)
      exact hquestion.1

/-- **The rule of the pool.** -/
theorem reachable_keeps (hrefl : ∀ i s, rely i s s)
    (htrans : ∀ {i s t u}, rely i s t → rely i t u → rely i s u)
    (hinitial : ∀ s, initial s → I s)
    (hallowed : ∀ i c, allowed i c → ∀ s, I s →
      Keeps (rely i) (serve i) (G i) (fun _ _ => True) (fun _ _ => True) c s)
    (hserve : ∀ {i q s a t}, I s → G i s q → serve i q s a t →
      I t ∧ ∀ j, j ≠ i → rely j s t)
    {p : Pool κ A ε σ} (h : (system serve allowed initial).Reachable p) :
    Kept rely serve G I p := by
  refine h.invariant (fun p hp => ⟨hinitial _ hp.1, fun i c hc => ?_⟩) fun p label p' hp hstep =>
    (hp.step hrefl htrans hallowed hserve hstep).1
  rw [hp.2] at hc
  cases hc

end Rule

end Pool
