import Mathlib.Logic.Relation
import Mathlib.Data.List.Nodup
import Mathlib.Data.List.Perm.Basic
import Mathlib.Algebra.Order.BigOperators.Group.List
import Mathlib.Algebra.Order.Ring.Nat

/-!
# Adjacency graphs

A finite directed graph as its traversals hold it: the list of its nodes, and
for each node the lists of where it leads and of what leads to it. Traversals
are loops over a worklist. `loop_rule` is the rule for them: an invariant every
round keeps while a measure goes down holds when the loop ends, and it ends.
-/

/-! ## Loops -/

section Loop

variable {σ : Type}

/-- `step` until it returns nothing, at most `fuel` times. -/
def loop (step : σ → Option σ) : Nat → σ → σ
  | 0, s => s
  | fuel + 1, s =>
    match step s with
    | none => s
    | some s' => loop step fuel s'

/-- **The rule of loops**: with an invariant each round keeps, and a measure
each round lowers and the fuel covers, the invariant holds at the end and there
is no further round. -/
theorem loop_rule {step : σ → Option σ} (Inv : σ → Prop) (measure : σ → Nat)
    (fuel : Nat) (hstep : ∀ s s', Inv s → step s = some s' → Inv s' ∧ measure s' < measure s)
    {s : σ} (hs : Inv s) (hfuel : measure s ≤ fuel) :
    Inv (loop step fuel s) ∧ step (loop step fuel s) = none := by
  induction fuel generalizing s with
  | zero =>
    refine ⟨hs, ?_⟩
    show step s = none
    cases hnext : step s with
    | none => rfl
    | some s' => exact absurd (hstep s s' hs hnext).2 (by omega)
  | succ fuel ih =>
    unfold loop
    cases hnext : step s with
    | none => exact ⟨hs, hnext⟩
    | some s' =>
      obtain ⟨hs', hlt⟩ := hstep s s' hs hnext
      exact ih hs' (by omega)

end Loop

/-! ## Graphs -/

/-- **A finite directed graph**, with its reverse: edges connect its nodes. -/
structure AdjacencyGraph (α : Type) where
  nodes : List α
  next : α → List α
  prev : α → List α
  nodup : nodes.Nodup
  closed : ∀ {x y}, y ∈ next x → x ∈ nodes ∧ y ∈ nodes
  mem_prev : ∀ {x y}, y ∈ prev x ↔ x ∈ next y

namespace AdjacencyGraph

variable {α : Type} {g : AdjacencyGraph α}

/-- An edge. -/
def Edge (g : AdjacencyGraph α) (x y : α) : Prop := y ∈ g.next x

/-- A path leads from one node to the other. -/
def Reaches (g : AdjacencyGraph α) : α → α → Prop := Relation.ReflTransGen g.Edge

/-- Paths lead both ways. -/
def Mutual (g : AdjacencyGraph α) (x y : α) : Prop := g.Reaches x y ∧ g.Reaches y x

theorem Mutual.refl (x : α) : g.Mutual x x := ⟨.refl, .refl⟩

theorem Mutual.symm {x y : α} (h : g.Mutual x y) : g.Mutual y x := ⟨h.2, h.1⟩

theorem Mutual.trans {x y z : α} (hxy : g.Mutual x y) (hyz : g.Mutual y z) : g.Mutual x z :=
  ⟨hxy.1.trans hyz.1, hyz.2.trans hxy.2⟩

/-- What reaches a node is a node. -/
theorem mem_of_reaches {x y : α} (h : g.Reaches x y) (hy : y ∈ g.nodes) : x ∈ g.nodes := by
  induction h using Relation.ReflTransGen.head_induction_on with
  | refl => exact hy
  | head hedge _ _ => exact (g.closed hedge).1

theorem Mutual.mem {x y : α} (h : g.Mutual x y) (hx : x ∈ g.nodes) : y ∈ g.nodes :=
  mem_of_reaches h.2 hx

/-- **A path that leaves a set crosses an edge out of it.** -/
theorem exists_exit {S : α → Prop} {x w : α} (h : g.Reaches x w) (hx : S x) :
    S w ∨ ∃ a b, S a ∧ g.Edge a b ∧ ¬ S b ∧ g.Reaches x b := by
  induction h with
  | refl => exact .inl hx
  | @tail b c hreach hedge ih =>
    obtain hb | hexit := ih
    · by_cases hc : S c
      · exact .inl hc
      · exact .inr ⟨b, c, hb, hedge, hc, hreach.tail hedge⟩
    · exact .inr hexit

/-- Two graphs with the same edges have the same paths. -/
theorem mutual_congr {k : AdjacencyGraph α} (h : ∀ x y, g.Edge x y ↔ k.Edge x y) (x y : α) :
    g.Mutual x y ↔ k.Mutual x y := by
  have hedge : g.Edge = k.Edge := funext fun a => funext fun b => propext (h a b)
  simp only [Mutual, Reaches, hedge]

/-! ## What has not been visited -/

variable [DecidableEq α]

/-- The weight of the nodes not visited yet. -/
def unvisited (g : AdjacencyGraph α) (weight : α → Nat) (visited : List α) : Nat :=
  ((g.nodes.filter (· ∉ visited)).map weight).sum

/-- **Visiting a node takes its weight off.** -/
theorem unvisited_cons (weight : α → Nat) {visited : List α} {x : α} (hx : x ∈ g.nodes)
    (hnew : x ∉ visited) :
    g.unvisited weight (x :: visited) + weight x = g.unvisited weight visited := by
  have hmem : x ∈ g.nodes.filter (· ∉ visited) := List.mem_filter.mpr ⟨hx, decide_eq_true hnew⟩
  have hfilter : g.nodes.filter (· ∉ x :: visited)
      = (g.nodes.filter (· ∉ visited)).erase x := by
    rw [(g.nodup.filter _).erase_eq_filter, List.filter_filter]
    refine List.filter_congr fun y _ => ?_
    by_cases hy : y = x
    · simp [hy]
    · simp [hy]
  have hsum := (((List.perm_cons_erase hmem).map weight).sum_eq)
  rw [List.map_cons, List.sum_cons] at hsum
  rw [unvisited, unvisited, hfilter, hsum]
  omega

theorem unvisited_le (g : AdjacencyGraph α) (weight : α → Nat) (visited : List α) :
    g.unvisited weight visited ≤ (g.nodes.map weight).sum :=
  (List.filter_sublist.map weight).sum_le_sum fun _ _ => Nat.zero_le _

end AdjacencyGraph
