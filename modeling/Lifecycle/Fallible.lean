import Mathlib.Data.List.Basic

/-!
# Fallible computations

Checked code in a language with exceptions reads as a sequence of tests,
each of which stops the computation with its own error. This file is the
small vocabulary for such code over `Except`: `failIf` is one test,
`orFail` is the reading of a value that may be missing, and the lemmas
turn the statement that a whole computation returned into the conjunction
of what each of its steps established.

The last section is about a fallible step applied along a list, which is
how a log is replayed: what every accepted step preserves holds of the
state a whole replay ends in.
-/

namespace Fallible

variable {ε α β σ : Type}

/-! ## Single tests -/

/-- **One test**: stop with the error `e` when `c` holds. -/
def failIf (c : Prop) [Decidable c] (e : ε) : Except ε Unit :=
  if c then .error e else .ok ()

/-- **A value that may be missing**: stop with the error `e` when it is. -/
def orFail : Option α → ε → Except ε α
  | some a, _ => .ok a
  | none, e => .error e

/-- **Tests that apply only in some case**: `x` when `c` holds, nothing
otherwise. -/
def onlyIf (c : Prop) [Decidable c] (x : Except ε Unit) : Except ε Unit :=
  if c then x else .ok ()

@[simp] theorem failIf_eq_ok {c : Prop} [Decidable c] {e : ε} {u : Unit} :
    failIf c e = .ok u ↔ ¬ c := by
  unfold failIf
  split <;> simp_all

@[simp] theorem orFail_eq_ok {o : Option α} {e : ε} {a : α} :
    orFail o e = .ok a ↔ o = some a := by
  cases o <;> simp [orFail]

theorem failIf_pos {c : Prop} [Decidable c] {e : ε} (h : c) :
    failIf c e = .error e := by
  rw [failIf, if_pos h]

theorem failIf_neg {c : Prop} [Decidable c] {e : ε} (h : ¬ c) :
    failIf c e = .ok () := by
  rw [failIf, if_neg h]

@[simp] theorem onlyIf_eq_ok {c : Prop} [Decidable c] {x : Except ε Unit}
    {u : Unit} : onlyIf c x = .ok u ↔ (c → x = .ok ()) := by
  unfold onlyIf
  split <;> simp_all

/-! ## Sequencing -/

/-- **A sequence returned exactly when each part did.** -/
theorem bind_eq_ok {x : Except ε α} {f : α → Except ε β} {b : β} :
    (x >>= f) = .ok b ↔ ∃ a, x = .ok a ∧ f a = .ok b := by
  cases x with
  | error e => simp [bind, Except.bind]
  | ok a => simp [bind, Except.bind]

/-- A test returns nothing to read. -/
theorem exists_unit {p : Unit → Prop} : (∃ u, p u) ↔ p () :=
  ⟨fun ⟨(), h⟩ => h, fun h => ⟨(), h⟩⟩

theorem pure_eq_ok {a b : α} : (pure a : Except ε α) = .ok b ↔ a = b := by
  simp [pure, Except.pure]

@[simp] theorem ok_bind {a : α} {f : α → Except ε β} :
    ((.ok a : Except ε α) >>= f) = f a := rfl

@[simp] theorem error_bind {e : ε} {f : α → Except ε β} :
    ((.error e : Except ε α) >>= f) = .error e := rfl

/-! ## A fallible step along a list -/

/-- **Replay**: the step applied to each event in turn, stopped by the
first that is refused. -/
def replay (step : σ → α → Except ε σ) (s : σ) (events : List α) : Except ε σ :=
  events.foldlM step s

variable {step : σ → α → Except ε σ}

@[simp] theorem replay_nil {s : σ} : replay step s [] = .ok s := rfl

theorem replay_cons {s : σ} {e : α} {es : List α} :
    replay step s (e :: es) = (step s e >>= fun s' => replay step s' es) := rfl

/-- **A replay splits at every prefix.** -/
theorem replay_append {s : σ} {es fs : List α} :
    replay step s (es ++ fs)
      = (replay step s es >>= fun s' => replay step s' fs) := by
  simp [replay, List.foldlM_append]

theorem replay_append_eq_ok {s t : σ} {es fs : List α} :
    replay step s (es ++ fs) = .ok t
      ↔ ∃ m, replay step s es = .ok m ∧ replay step m fs = .ok t := by
  rw [replay_append, bind_eq_ok]

theorem replay_snoc_eq_ok {s t : σ} {es : List α} {e : α} :
    replay step s (es ++ [e]) = .ok t
      ↔ ∃ m, replay step s es = .ok m ∧ step m e = .ok t := by
  rw [replay_append_eq_ok]
  refine exists_congr fun m => and_congr_right fun _ => ?_
  rw [replay_cons, bind_eq_ok]
  simp

/-- **What every accepted step preserves, a replay preserves.** -/
theorem replay_invariant {P : σ → Prop}
    (hstep : ∀ s e s', P s → step s e = .ok s' → P s') :
    ∀ {es : List α} {s t : σ}, P s → replay step s es = .ok t → P t
  | [], s, t, hs, h => by
    rw [replay_nil, Except.ok.injEq] at h
    exact h ▸ hs
  | e :: es, s, t, hs, h => by
    rw [replay_cons, bind_eq_ok] at h
    obtain ⟨m, hm, ht⟩ := h
    exact replay_invariant hstep (hstep s e m hs hm) ht

/-- **Two steps that agree on acceptance replay alike**: if whatever one
step accepts the other accepts with the same result, so does a replay. -/
theorem replay_mono {step' : σ → α → Except ε σ}
    (h : ∀ s e s', step s e = .ok s' → step' s e = .ok s') :
    ∀ {es : List α} {s t : σ}, replay step s es = .ok t → replay step' s es = .ok t
  | [], s, t, ht => ht
  | e :: es, s, t, ht => by
    rw [replay_cons, bind_eq_ok] at ht
    obtain ⟨m, hm, ht⟩ := ht
    rw [replay_cons, h s e m hm, ok_bind]
    exact replay_mono h ht

/-! ## Results within others -/

/-- **One result is within another**: whatever the first returned, the
second returns. -/
def Within (x y : Except ε α) : Prop := ∀ a, x = .ok a → y = .ok a

namespace Within

variable {x y : Except ε α}

theorem refl : Within x x := fun _ h => h

/-- A computation is within another when its parts are. -/
theorem bind {f g : α → Except ε β} (hx : Within x y) (hf : ∀ a, Within (f a) (g a)) :
    Within (x >>= f) (y >>= g) := by
  intro b h
  rw [bind_eq_ok] at h
  obtain ⟨a, ha, hb⟩ := h
  rw [hx a ha, ok_bind]
  exact hf a b hb

theorem orFail {o p : Option α} {e : ε} (h : ∀ a, o = some a → p = some a) :
    Within (Fallible.orFail o e) (Fallible.orFail p e) := by
  intro a ha
  rw [orFail_eq_ok] at ha ⊢
  exact h a ha

theorem ite {c : Prop} [Decidable c] {z w : Except ε α} (hx : Within x y) (hz : Within z w) :
    Within (if c then x else z) (if c then y else w) := by
  split
  · exact hx
  · exact hz

end Within

/-! ## Checked traversals -/

/-- A checked traversal that returned, returned at every entry. -/
theorem mapM_eq_ok_iff {f : α → Except ε β} :
    ∀ {xs : List α} {ys : List β},
      xs.mapM f = .ok ys ↔ List.Forall₂ (fun x y => f x = .ok y) xs ys
  | [], ys => by
    rw [List.mapM_nil, pure_eq_ok]
    constructor
    · rintro rfl
      exact .nil
    · rintro ⟨⟩
      rfl
  | x :: xs, ys => by
    rw [List.mapM_cons, bind_eq_ok]
    constructor
    · rintro ⟨y, hy, h⟩
      rw [bind_eq_ok] at h
      obtain ⟨zs, hzs, h⟩ := h
      rw [pure_eq_ok] at h
      exact h ▸ List.Forall₂.cons hy (mapM_eq_ok_iff.mp hzs)
    · intro h
      cases h with
      | cons hy hys =>
        refine ⟨_, hy, ?_⟩
        rw [bind_eq_ok]
        exact ⟨_, mapM_eq_ok_iff.mpr hys, rfl⟩

/-- What a traversal gives, it gives of an entry. -/
theorem exists_of_forall₂ {R : α → β → Prop} {xs : List α} {ys : List β}
    (h : List.Forall₂ R xs ys) {y : β} (hy : y ∈ ys) : ∃ x ∈ xs, R x y := by
  induction h with
  | nil => exact absurd hy List.not_mem_nil
  | cons hone _ ih =>
    obtain rfl | hy := List.mem_cons.mp hy
    · exact ⟨_, List.mem_cons_self, hone⟩
    · obtain ⟨x, hx, hR⟩ := ih hy
      exact ⟨x, List.mem_cons_of_mem _ hx, hR⟩

/-- A list of checks passes when each of them does. -/
theorem forM_eq_ok {f : α → Except ε Unit} {xs : List α} :
    xs.forM f = .ok () ↔ ∀ x ∈ xs, f x = .ok () := by
  induction xs with
  | nil => exact iff_of_true rfl fun x hx => absurd hx List.not_mem_nil
  | cons x xs ih =>
    show (f x >>= fun _ => xs.forM f) = .ok () ↔ _
    rw [bind_eq_ok, List.forall_mem_cons, ← ih, exists_unit]

end Fallible
