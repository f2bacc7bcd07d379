import Lifecycle.AdjacencyGraphs
import Mathlib.Data.List.Perm.Subperm

/-!
# Strongly connected components

Two passes over a finite graph with explicit stacks, after Kosaraju. The first
goes forward and lists the nodes as they are finished. The second goes through
that list from its end, and collects what leads to each node not collected yet.
A node is finished only after everything it leads to, except what leads back to
it through a node that is still open (`Finished`); so the last node of a class
to be finished collects its class (`mem_class_iff`), and the lists collected
are the classes of mutual reachability (`components_spec`).
-/

namespace AdjacencyGraph

variable {α : Type} [DecidableEq α] {g : AdjacencyGraph α}

/-! ## The first pass -/

/-- A node that is open, and how many of its successors have been looked at. -/
structure Frame (α : Type) where
  node : α
  next : Nat

/-- The state of the first pass; the order has the node finished last first. -/
structure Traversal (α : Type) where
  visited : List α
  order : List α
  stack : List (Frame α)

/-- One round over the stack. -/
def advance (g : AdjacencyGraph α) (t : Traversal α) : Option (Traversal α) :=
  match t.stack with
  | [] => none
  | frame :: rest =>
    match (g.next frame.node)[frame.next]? with
    | some next =>
      let looked : Frame α := ⟨frame.node, frame.next + 1⟩
      if next ∈ t.visited then some { t with stack := looked :: rest }
      else some { t with visited := next :: t.visited, stack := ⟨next, 0⟩ :: looked :: rest }
    | none => some { t with order := frame.node :: t.order, stack := rest }

/-- The rounds a node takes. -/
def rounds (g : AdjacencyGraph α) (x : α) : Nat := (g.next x).length + 1

/-- The first pass from one start. -/
def finishFrom (g : AdjacencyGraph α) (t : Traversal α) (start : α) : Traversal α :=
  if start ∈ t.visited then t
  else loop g.advance (g.nodes.map g.rounds).sum
    { t with visited := start :: t.visited, stack := [⟨start, 0⟩] }

/-- **The nodes in the order they are finished**, the last first. -/
def finishingOrder (g : AdjacencyGraph α) : List α := (g.nodes.foldl g.finishFrom ⟨[], [], []⟩).order

/-! ## The second pass -/

/-- The state of one search of the second pass. -/
structure Search (α : Type) where
  visited : List α
  component : List α
  stack : List α

/-- A node that leads to one collected. -/
def Search.push (s : Search α) (x : α) : Search α :=
  if x ∈ s.visited then s else { s with visited := x :: s.visited, stack := x :: s.stack }

/-- One round over the stack: what leads to its top goes on it, the first on
top. -/
def expand (g : AdjacencyGraph α) (s : Search α) : Option (Search α) :=
  match s.stack with
  | [] => none
  | node :: rest => some ((g.prev node).reverse.foldl Search.push
      { s with component := s.component ++ [node], stack := rest })

/-- The search from one start. -/
def searchFrom (g : AdjacencyGraph α) (visited : List α) (start : α) : Search α :=
  loop g.expand g.nodes.length ⟨start :: visited, [], [start]⟩

/-- What is collected so far. -/
structure Collected (α : Type) where
  visited : List α
  components : List (List α)

/-- The second pass from one start. -/
def collectFrom (g : AdjacencyGraph α) (c : Collected α) (start : α) : Collected α :=
  if start ∈ c.visited then c
  else
    let s := g.searchFrom c.visited start
    ⟨s.visited, c.components ++ [s.component]⟩

/-- **The lists collected.** -/
def components (g : AdjacencyGraph α) : List (List α) :=
  (g.finishingOrder.foldl g.collectFrom ⟨[], []⟩).components

/-! ## The finishing order -/

/-- **A finishing order**: a node comes after everything it leads to, unless a
node of its own class is still to come. -/
def Finished (g : AdjacencyGraph α) : List α → Prop
  | [] => True
  | v :: earlier => Finished g earlier
    ∧ ∀ w, g.Reaches v w → w ∈ v :: earlier ∨ ∃ u, u ∉ v :: earlier ∧ g.Mutual v u

/-- **The invariant of the first pass**: what is visited is finished or open,
all that finished nodes lead to is visited, and each open node leads to those
above it. -/
structure Traversing (g : AdjacencyGraph α) (t : Traversal α) : Prop where
  visited : ∀ x, x ∈ t.visited ↔ x ∈ t.order ∨ x ∈ t.stack.map (·.node)
  nodup : (t.order ++ t.stack.map (·.node)).Nodup
  nodes : ∀ x ∈ t.visited, x ∈ g.nodes
  black : ∀ x ∈ t.order, ∀ y, g.Edge x y → y ∈ t.visited
  grey : ∀ frame ∈ t.stack, ∀ y ∈ (g.next frame.node).take frame.next, y ∈ t.visited
  chain : (t.stack.map (·.node)).Pairwise fun upper lower => g.Reaches lower upper
  finished : g.Finished t.order

/-- What one round does: it looks at a successor that is visited, opens one
that is not, or finishes the node. -/
theorem advance_cases {t t' : Traversal α} (h : g.advance t = some t') :
    ∃ frame rest, t.stack = frame :: rest
      ∧ ((∃ y, (g.next frame.node)[frame.next]? = some y ∧ y ∈ t.visited
          ∧ t' = { t with stack := ⟨frame.node, frame.next + 1⟩ :: rest })
        ∨ (∃ y, (g.next frame.node)[frame.next]? = some y ∧ y ∉ t.visited
          ∧ t' = { t with
            visited := y :: t.visited
            stack := ⟨y, 0⟩ :: ⟨frame.node, frame.next + 1⟩ :: rest })
        ∨ ((g.next frame.node)[frame.next]? = none
          ∧ t' = { t with order := frame.node :: t.order, stack := rest })) := by
  unfold advance at h
  split at h
  · cases h
  · next frame rest hstack =>
    refine ⟨frame, rest, hstack, ?_⟩
    split at h
    · next y hy =>
      dsimp only at h
      split at h
      · next hvisited => exact .inl ⟨y, hy, hvisited, (Option.some.inj h).symm⟩
      · next hnew => exact .inr (.inl ⟨y, hy, hnew, (Option.some.inj h).symm⟩)
    · next hdone => exact .inr (.inr ⟨hdone, (Option.some.inj h).symm⟩)

/-- The loop ends when nothing is open. -/
theorem stack_of_advance_eq_none {t : Traversal α} (h : g.advance t = none) : t.stack = [] := by
  unfold advance at h
  split at h
  · assumption
  · split at h
    · dsimp only at h
      split at h <;> cases h
    · cases h

omit [DecidableEq α] in
theorem take_succ_of_getElem? {l : List α} {n : Nat} {y : α} (h : l[n]? = some y) {x : α} :
    x ∈ l.take (n + 1) ↔ x ∈ l.take n ∨ x = y := by
  rw [List.take_add_one, h]
  simp

omit [DecidableEq α] in
/-- Looking at a visited successor keeps the invariant. -/
theorem Traversing.look {t : Traversal α} (h : g.Traversing t) {frame : Frame α}
    {rest : List (Frame α)} (hstack : t.stack = frame :: rest) {y : α}
    (hy : (g.next frame.node)[frame.next]? = some y) (hvisited : y ∈ t.visited) :
    g.Traversing { t with stack := ⟨frame.node, frame.next + 1⟩ :: rest } := by
  have hnodes : t.stack.map (·.node) = frame.node :: rest.map (·.node) := by
    rw [hstack, List.map_cons]
  refine ⟨?_, ?_, h.nodes, h.black, ?_, ?_, h.finished⟩
  · intro x
    rw [h.visited, hnodes]
    rfl
  · show (t.order ++ frame.node :: rest.map (·.node)).Nodup
    exact hnodes ▸ h.nodup
  · intro f hf x hx
    obtain rfl | hf := List.mem_cons.mp hf
    · obtain hx | rfl := (take_succ_of_getElem? hy).mp hx
      · exact h.grey frame (hstack ▸ List.mem_cons_self) x hx
      · exact hvisited
    · exact h.grey f (hstack ▸ List.mem_cons_of_mem _ hf) x hx
  · show (frame.node :: rest.map (·.node)).Pairwise _
    exact hnodes ▸ h.chain

omit [DecidableEq α] in
/-- Opening a successor keeps the invariant. -/
theorem Traversing.visit {t : Traversal α} (h : g.Traversing t) {frame : Frame α}
    {rest : List (Frame α)} (hstack : t.stack = frame :: rest) {y : α}
    (hy : (g.next frame.node)[frame.next]? = some y) (hnew : y ∉ t.visited) :
    g.Traversing { t with
      visited := y :: t.visited
      stack := ⟨y, 0⟩ :: ⟨frame.node, frame.next + 1⟩ :: rest } := by
  have hnodes : t.stack.map (·.node) = frame.node :: rest.map (·.node) := by
    rw [hstack, List.map_cons]
  have hedge : g.Edge frame.node y := List.mem_of_getElem? hy
  have hout : y ∉ t.order ++ t.stack.map (·.node) := fun hmem =>
    hnew ((h.visited y).mpr (List.mem_append.mp hmem))
  refine ⟨?_, ?_, ?_, ?_, ?_, ?_, h.finished⟩
  · intro x
    show x ∈ y :: t.visited ↔ x ∈ t.order ∨ x ∈ y :: frame.node :: rest.map (·.node)
    rw [List.mem_cons, h.visited, hnodes, List.mem_cons (a := x) (b := y)]
    exact or_left_comm
  · show (t.order ++ y :: frame.node :: rest.map (·.node)).Nodup
    rw [← hnodes]
    exact List.nodup_middle.mpr (List.nodup_cons.mpr ⟨hout, h.nodup⟩)
  · intro x hx
    obtain rfl | hx := List.mem_cons.mp hx
    · exact (g.closed hedge).2
    · exact h.nodes x hx
  · exact fun x hx z hz => List.mem_cons_of_mem _ (h.black x hx z hz)
  · intro f hf x hx
    obtain rfl | hf := List.mem_cons.mp hf
    · simp at hx
    obtain rfl | hf := List.mem_cons.mp hf
    · obtain hx | rfl := (take_succ_of_getElem? hy).mp hx
      · exact List.mem_cons_of_mem _ (h.grey frame (hstack ▸ List.mem_cons_self) x hx)
      · exact List.mem_cons_self
    · exact List.mem_cons_of_mem _ (h.grey f (hstack ▸ List.mem_cons_of_mem _ hf) x hx)
  · show (y :: frame.node :: rest.map (·.node)).Pairwise _
    have hchain := h.chain
    rw [hnodes] at hchain
    refine List.pairwise_cons.mpr ⟨fun x hx => ?_, hchain⟩
    obtain rfl | hx := List.mem_cons.mp hx
    · exact .single hedge
    · exact ((List.pairwise_cons.mp hchain).1 x hx).tail hedge

omit [DecidableEq α] in
/-- **Finishing a node keeps the invariant**: a path out of what is finished
goes through an open node, which leads back to the node finished. -/
theorem Traversing.finish {t : Traversal α} (h : g.Traversing t) {frame : Frame α}
    {rest : List (Frame α)} (hstack : t.stack = frame :: rest)
    (hdone : (g.next frame.node)[frame.next]? = none) :
    g.Traversing { t with order := frame.node :: t.order, stack := rest } := by
  have hnodes : t.stack.map (·.node) = frame.node :: rest.map (·.node) := by
    rw [hstack, List.map_cons]
  have hblack : ∀ x ∈ frame.node :: t.order, ∀ y, g.Edge x y → y ∈ t.visited := by
    intro x hx y hedge
    obtain rfl | hx := List.mem_cons.mp hx
    · refine h.grey frame (hstack ▸ List.mem_cons_self) y ?_
      rw [List.take_of_length_le (List.getElem?_eq_none_iff.mp hdone)]
      exact hedge
    · exact h.black x hx y hedge
  refine ⟨?_, ?_, h.nodes, hblack, ?_, ?_, h.finished, ?_⟩
  · intro x
    show x ∈ t.visited ↔ x ∈ frame.node :: t.order ∨ x ∈ rest.map (·.node)
    rw [h.visited, hnodes, List.mem_cons, List.mem_cons]
    exact or_left_comm.trans (or_assoc.symm)
  · show (frame.node :: t.order ++ rest.map (·.node)).Nodup
    have hnodup := h.nodup
    rw [hnodes] at hnodup
    exact List.nodup_middle.mp hnodup
  · exact fun f hf => h.grey f (hstack ▸ List.mem_cons_of_mem _ hf)
  · have hchain := h.chain
    rw [hnodes] at hchain
    exact (List.pairwise_cons.mp hchain).2
  · intro w hw
    obtain hin | ⟨a, b, ha, hedge, hb, hreach⟩ :=
      exists_exit (S := fun x => x ∈ frame.node :: t.order) hw List.mem_cons_self
    · exact .inl hin
    · -- the node the path leaves to is visited and not finished, so it is open
      refine .inr ⟨b, hb, hreach, ?_⟩
      have hvisited := (h.visited b).mp (hblack a ha b hedge)
      rw [hnodes] at hvisited
      have hrest : b ∈ rest.map (·.node) := by
        obtain horder | hopen := hvisited
        · exact absurd (List.mem_cons_of_mem _ horder) hb
        · exact (List.mem_cons.mp hopen).resolve_left fun heq => hb (heq ▸ List.mem_cons_self)
      have hchain := h.chain
      rw [hnodes] at hchain
      exact (List.pairwise_cons.mp hchain).1 b hrest

/-- What the first pass has left to do. -/
def Traversal.remaining (g : AdjacencyGraph α) (t : Traversal α) : Nat :=
  (t.stack.map fun frame => ((g.next frame.node).drop frame.next).length + 1).sum
    + g.unvisited g.rounds t.visited

/-- **Every round keeps the invariant** and has less left to do. -/
theorem Traversing.advance {t t' : Traversal α} (h : g.Traversing t)
    (hstep : g.advance t = some t') :
    (g.Traversing t' ∧ ∀ x ∈ t.visited, x ∈ t'.visited) ∧ t'.remaining g < t.remaining g := by
  obtain ⟨frame, rest, hstack, hcases⟩ := advance_cases hstep
  obtain ⟨y, hy, hvisited, rfl⟩ | ⟨y, hy, hnew, rfl⟩ | ⟨hdone, rfl⟩ := hcases
  · refine ⟨⟨h.look hstack hy hvisited, fun _ hx => hx⟩, ?_⟩
    have hlt := (List.getElem?_eq_some_iff.mp hy).1
    simp only [Traversal.remaining, hstack, List.map_cons, List.sum_cons, List.length_drop]
    omega
  · refine ⟨⟨h.visit hstack hy hnew, fun _ hx => List.mem_cons_of_mem _ hx⟩, ?_⟩
    have hlt := (List.getElem?_eq_some_iff.mp hy).1
    have hweight := unvisited_cons g.rounds
      (g.closed (List.mem_of_getElem? hy)).2 hnew
    simp only [Traversal.remaining, hstack, List.map_cons, List.sum_cons, List.length_drop]
    rw [rounds] at hweight
    omega
  · refine ⟨⟨h.finish hstack hdone, fun _ hx => hx⟩, ?_⟩
    simp only [Traversal.remaining, hstack, List.map_cons, List.sum_cons]
    omega

/-- The first pass between two starts: nothing is open. -/
structure Between (g : AdjacencyGraph α) (t : Traversal α) : Prop where
  traversing : g.Traversing t
  closed : t.stack = []

/-- **One start**: it is visited, with all that was before. -/
theorem Between.finishFrom {t : Traversal α} (h : g.Between t) {start : α}
    (hstart : start ∈ g.nodes) :
    g.Between (g.finishFrom t start) ∧ ∀ x ∈ start :: t.visited, x ∈ (g.finishFrom t start).visited := by
  rw [AdjacencyGraph.finishFrom]
  split
  · next hvisited => exact ⟨h, by simpa using hvisited⟩
  · next hnew =>
    have hvisited : ∀ x, x ∈ t.visited ↔ x ∈ t.order := by
      intro x
      rw [h.traversing.visited, h.closed]
      simp
    have hbegin : g.Traversing ⟨start :: t.visited, t.order, [⟨start, 0⟩]⟩ := by
      refine ⟨?_, ?_, ?_, ?_, ?_, ?_, h.traversing.finished⟩
      · intro x
        rw [List.mem_cons, hvisited]
        simp [or_comm]
      · have hnodup := h.traversing.nodup
        rw [h.closed, List.map_nil, List.append_nil] at hnodup
        refine List.nodup_middle.mpr (List.nodup_cons.mpr ⟨?_, by simpa using hnodup⟩)
        simpa using fun hmem => hnew ((hvisited start).mpr hmem)
      · intro x hx
        obtain rfl | hx := List.mem_cons.mp hx
        · exact hstart
        · exact h.traversing.nodes x hx
      · exact fun x hx y hedge => List.mem_cons_of_mem _ (h.traversing.black x hx y hedge)
      · simp
      · exact List.pairwise_singleton _ _
    obtain ⟨⟨htraversing, hmono⟩, hdone⟩ := loop_rule
      (fun s => g.Traversing s ∧ ∀ x ∈ start :: t.visited, x ∈ s.visited)
      (Traversal.remaining g) (g.nodes.map g.rounds).sum
      (fun s s' hs hstep => ⟨⟨(hs.1.advance hstep).1.1,
        fun x hx => (hs.1.advance hstep).1.2 x (hs.2 x hx)⟩, (hs.1.advance hstep).2⟩)
      ⟨hbegin, fun _ hx => hx⟩ (by
        have hle := g.unvisited_le g.rounds t.visited
        have hweight := unvisited_cons g.rounds hstart hnew
        rw [rounds] at hweight
        simp only [Traversal.remaining, List.map_cons, List.map_nil, List.sum_cons, List.sum_nil,
          List.drop_zero]
        omega)
    exact ⟨⟨htraversing, stack_of_advance_eq_none hdone⟩, hmono⟩

/-- **All starts**: each is visited. -/
theorem Between.foldl {t : Traversal α} (h : g.Between t) (starts : List α)
    (hstarts : ∀ x ∈ starts, x ∈ g.nodes) :
    g.Between (starts.foldl g.finishFrom t)
      ∧ ∀ x, x ∈ starts ∨ x ∈ t.visited → x ∈ (starts.foldl g.finishFrom t).visited := by
  induction starts generalizing t with
  | nil => exact ⟨h, fun x hx => hx.resolve_left List.not_mem_nil⟩
  | cons start starts ih =>
    obtain ⟨hone, hmono⟩ := h.finishFrom (hstarts start List.mem_cons_self)
    obtain ⟨hall, hmem⟩ := ih hone fun x hx => hstarts x (List.mem_cons_of_mem _ hx)
    refine ⟨hall, fun x hx => hmem x ?_⟩
    obtain hx | hx := hx
    · obtain rfl | hx := List.mem_cons.mp hx
      · exact .inr (hmono x List.mem_cons_self)
      · exact .inl hx
    · exact .inr (hmono x (List.mem_cons_of_mem _ hx))

/-- **The first pass lists every node once**, in a finishing order. -/
theorem finishingOrder_spec (g : AdjacencyGraph α) :
    g.Finished g.finishingOrder ∧ g.finishingOrder.Nodup
      ∧ ∀ x, x ∈ g.finishingOrder ↔ x ∈ g.nodes := by
  have hbegin : g.Between ⟨[], [], []⟩ := by
    refine ⟨⟨?_, List.nodup_nil, ?_, ?_, ?_, List.Pairwise.nil, trivial⟩, rfl⟩ <;> simp
  obtain ⟨⟨htraversing, hclosed⟩, hmem⟩ := hbegin.foldl g.nodes fun _ hx => hx
  have hvisited : ∀ x, x ∈ (g.nodes.foldl g.finishFrom ⟨[], [], []⟩).visited
      ↔ x ∈ g.finishingOrder := by
    intro x
    rw [htraversing.visited, hclosed, finishingOrder]
    simp
  refine ⟨htraversing.finished, ?_, fun x => ?_⟩
  · have hnodup := htraversing.nodup
    rw [hclosed, List.map_nil, List.append_nil] at hnodup
    exact hnodup
  · rw [← hvisited]
    exact ⟨htraversing.nodes x, fun hx => hmem x (.inl hx)⟩

omit [DecidableEq α] in
/-- **What a class whose nodes are all finished leads to is finished.** -/
theorem Finished.mem_of_reaches {order : List α} (h : g.Finished order) {w t : α}
    (hclass : ∀ u, g.Mutual w u → u ∈ order) (hw : g.Reaches w t) : t ∈ order := by
  induction order with
  | nil => exact absurd (hclass w (.refl w)) List.not_mem_nil
  | cons v earlier ih =>
    by_cases hv : g.Mutual w v
    · obtain ht | ⟨u, hu, hmutual⟩ := h.2 t (hv.2.trans hw)
      · exact ht
      · exact absurd (hclass u (hv.trans hmutual)) hu
    · refine List.mem_cons_of_mem _ (ih h.1 fun u hu => ?_)
      exact (List.mem_cons.mp (hclass u hu)).resolve_left fun heq => hv (heq ▸ hu)

/-! ## The search of a class -/

/-- What leads to the start without a node visited before. -/
def Backward (g : AdjacencyGraph α) (visited : List α) : α → α → Prop :=
  Relation.ReflTransGen fun x y => y ∈ g.prev x ∧ y ∉ visited

/-- **The invariant of a search**: it has visited what was before, what is
collected and what is on its stack, and the last two lead to its start. -/
structure Searching (g : AdjacencyGraph α) (before : List α) (start : α) (s : Search α) : Prop where
  visited : ∀ x, x ∈ s.visited ↔ x ∈ before ∨ x ∈ s.component ++ s.stack
  nodup : (s.component ++ s.stack).Nodup
  fresh : ∀ x ∈ s.component ++ s.stack, x ∉ before ∧ g.Backward before start x
  started : start ∈ s.component ++ s.stack

/-- Pushing what leads to a collected node keeps the invariant. -/
theorem Searching.push {before : List α} {start : α} {s : Search α}
    (h : g.Searching before start s) {x y : α} (hx : x ∈ s.component) (hy : y ∈ g.prev x) :
    g.Searching before start (s.push y) := by
  rw [Search.push]
  split
  · exact h
  · next hnew =>
    rw [h.visited, not_or] at hnew
    have hpath := (h.fresh x (List.mem_append_left _ hx)).2.tail ⟨hy, hnew.1⟩
    refine ⟨fun z => ?_, List.nodup_middle.mpr (List.nodup_cons.mpr ⟨hnew.2, h.nodup⟩), ?_,
      List.perm_middle.mem_iff.mpr (List.mem_cons_of_mem _ h.started)⟩
    · show z ∈ y :: s.visited ↔ z ∈ before ∨ z ∈ s.component ++ y :: s.stack
      rw [List.mem_cons, h.visited, List.perm_middle.mem_iff, List.mem_cons]
      exact or_left_comm
    · intro z hz
      obtain rfl | hz := List.mem_cons.mp (List.perm_middle.mem_iff.mp hz)
      · exact ⟨hnew.1, hpath⟩
      · exact h.fresh z hz

theorem mem_visited_push {s : Search α} {x y : α} :
    x ∈ (s.push y).visited ↔ x = y ∨ x ∈ s.visited := by
  rw [Search.push]
  split
  · next hy => exact ⟨.inr, fun h => h.elim (fun heq => heq ▸ hy) id⟩
  · exact List.mem_cons

/-- What a search has left to do. -/
def Search.remaining (g : AdjacencyGraph α) (s : Search α) : Nat :=
  s.stack.length + g.unvisited (fun _ => 1) s.visited

theorem remaining_push {s : Search α} {y : α} (hy : y ∈ g.nodes) :
    (s.push y).remaining g = s.remaining g := by
  rw [Search.push]
  split
  · rfl
  · next hnew =>
    have hweight := unvisited_cons (fun _ => 1) hy hnew
    simp only [Search.remaining, List.length_cons]
    omega

/-- **Pushing all that leads to a collected node.** -/
theorem Searching.pushAll {before : List α} {start : α} {s : Search α}
    (h : g.Searching before start s) {x : α} (hx : x ∈ s.component) (nodes : List α)
    (hnodes : ∀ y ∈ nodes, y ∈ g.prev x) :
    g.Searching before start (nodes.foldl Search.push s)
      ∧ (nodes.foldl Search.push s).component = s.component
      ∧ (∀ y, y ∈ nodes ∨ y ∈ s.visited → y ∈ (nodes.foldl Search.push s).visited)
      ∧ (nodes.foldl Search.push s).remaining g = s.remaining g := by
  induction nodes generalizing s with
  | nil => exact ⟨h, rfl, fun y hy => hy.resolve_left List.not_mem_nil, rfl⟩
  | cons y nodes ih =>
    have hy := hnodes y List.mem_cons_self
    have hcomponent : (s.push y).component = s.component := by
      rw [Search.push]
      split <;> rfl
    obtain ⟨hall, hsame, hmem, hremaining⟩ := ih (h.push hx hy) (hcomponent ▸ hx)
      fun z hz => hnodes z (List.mem_cons_of_mem _ hz)
    refine ⟨hall, hsame.trans hcomponent, fun z hz => hmem z ?_, ?_⟩
    · rw [mem_visited_push]
      obtain hz | hz := hz
      · exact (List.mem_cons.mp hz).elim (fun heq => .inr (.inl heq)) .inl
      · exact .inr (.inr hz)
    · exact hremaining.trans (remaining_push (g.closed (g.mem_prev.mp hy)).1)

/-- Every round keeps the invariant, visits what leads to what is collected,
and has less left to do. -/
theorem Searching.expand {before : List α} {start : α} {s s' : Search α}
    (h : g.Searching before start s)
    (hdone : ∀ x ∈ s.component, ∀ y ∈ g.prev x, y ∈ s.visited) (hstep : g.expand s = some s') :
    (g.Searching before start s' ∧ ∀ x ∈ s'.component, ∀ y ∈ g.prev x, y ∈ s'.visited)
      ∧ s'.remaining g < s.remaining g := by
  unfold AdjacencyGraph.expand at hstep
  split at hstep
  · cases hstep
  · next node rest hstack =>
    obtain rfl := Option.some.inj hstep
    have hsame : s.component ++ [node] ++ rest = s.component ++ s.stack := by
      rw [hstack, List.append_assoc]
      rfl
    have hpopped : g.Searching before start
        { s with component := s.component ++ [node], stack := rest } :=
      ⟨fun x => hsame ▸ h.visited x, hsame ▸ h.nodup, hsame ▸ h.fresh, hsame ▸ h.started⟩
    obtain ⟨hall, hcomponent, hmem, hremaining⟩ := hpopped.pushAll
      (x := node) (List.mem_append_right _ List.mem_cons_self)
      (g.prev node).reverse fun y hy => List.mem_reverse.mp hy
    refine ⟨⟨hall, fun x hx y hy => hmem y ?_⟩, ?_⟩
    · rw [hcomponent] at hx
      obtain hx | hx := List.mem_append.mp hx
      · exact .inr (hdone x hx y hy)
      · exact .inl (List.mem_reverse.mpr (List.mem_singleton.mp hx ▸ hy))
    · rw [hremaining]
      simp only [Search.remaining, hstack, List.length_cons]
      omega

/-- **A search collects what leads to its start** past the nodes visited
before, once. -/
theorem searchFrom_spec {before : List α} {start : α} (hstart : start ∈ g.nodes)
    (hnew : start ∉ before) :
    (g.searchFrom before start).component.Nodup
      ∧ (∀ x, x ∈ (g.searchFrom before start).component ↔ g.Backward before start x)
      ∧ ∀ x, x ∈ (g.searchFrom before start).visited
        ↔ x ∈ before ∨ x ∈ (g.searchFrom before start).component := by
  have hbegin : g.Searching before start ⟨start :: before, [], [start]⟩ := by
    refine ⟨fun x => ?_, List.nodup_singleton start, fun x hx => ?_, List.mem_singleton_self start⟩
    · show x ∈ start :: before ↔ x ∈ before ∨ x ∈ [start]
      rw [List.mem_cons, List.mem_singleton, or_comm]
    · obtain rfl := List.mem_singleton.mp hx
      exact ⟨hnew, .refl⟩
  obtain ⟨⟨hsearching, hdone⟩, hend⟩ := loop_rule
    (fun s => g.Searching before start s ∧ ∀ x ∈ s.component, ∀ y ∈ g.prev x, y ∈ s.visited)
    (Search.remaining g) g.nodes.length
    (fun s s' hs hstep => hs.1.expand hs.2 hstep) ⟨hbegin, by simp⟩ (by
      have hle := g.unvisited_le (fun _ => 1) before
      have hweight := unvisited_cons (fun _ => 1) hstart hnew
      simp only [List.map_const', List.sum_replicate_nat, mul_one] at hle
      simp only [Search.remaining, List.length_singleton]
      omega)
  have hstack : (g.searchFrom before start).stack = [] := by
    change g.expand (g.searchFrom before start) = none at hend
    unfold AdjacencyGraph.expand at hend
    split at hend
    · assumption
    · cases hend
  have hvisited : ∀ x, x ∈ (g.searchFrom before start).visited
      ↔ x ∈ before ∨ x ∈ (g.searchFrom before start).component := by
    intro x
    have hx := hsearching.visited x
    rw [← searchFrom, hstack, List.append_nil] at hx
    exact hx
  refine ⟨?_, fun x => ⟨fun hx => ?_, fun hx => ?_⟩, hvisited⟩
  · exact hsearching.nodup.of_append_left
  · exact (hsearching.fresh x (List.mem_append_left _ hx)).2
  · induction hx with
    | refl =>
      have hstarted := hsearching.started
      change start ∈ _ ++ (g.searchFrom before start).stack at hstarted
      rw [hstack, List.append_nil] at hstarted
      exact hstarted
    | @tail a b _ hedge ih =>
      exact ((hvisited b).mp (hdone a ih b hedge.1)).resolve_left hedge.2

/-! ## The classes -/

/-- **The classes of mutual reachability** of the nodes covered, each node in
one of them, once. -/
structure Classes (g : AdjacencyGraph α) (covered : List α) (classes : List (List α)) : Prop where
  nonempty : ∀ c ∈ classes, c ≠ []
  same : ∀ c ∈ classes, ∀ x ∈ c, ∀ y, y ∈ c ↔ g.Mutual x y
  nodup : classes.flatten.Nodup
  mem_flatten : ∀ x, x ∈ classes.flatten ↔ x ∈ covered

omit [DecidableEq α] in
/-- What is covered, is covered with its class. -/
theorem Classes.saturated {covered : List α} {classes : List (List α)}
    (h : g.Classes covered classes) {x y : α} (hx : x ∈ covered) (hxy : g.Mutual x y) :
    y ∈ covered := by
  obtain ⟨c, hc, hxc⟩ := List.mem_flatten.mp ((h.mem_flatten x).mpr hx)
  exact (h.mem_flatten y).mp (List.mem_flatten.mpr ⟨c, hc, (h.same c hc x hxc y).mpr hxy⟩)

omit [DecidableEq α] in
/-- The classes do not depend on how they are listed. -/
theorem Classes.perm {covered : List α} {classes classes' : List (List α)}
    (h : g.Classes covered classes) (f : List α → List α) (hf : ∀ c, (f c).Perm c)
    (hperm : classes'.Perm (classes.map f)) : g.Classes covered classes' := by
  have hmem : ∀ c ∈ classes', ∃ d ∈ classes, (f d) = c := fun c hc =>
    List.mem_map.mp (hperm.mem_iff.mp hc)
  have hflatten : classes'.flatten.Perm classes.flatten := by
    refine hperm.flatten.trans ?_
    clear hperm hmem h
    induction classes with
    | nil => exact .refl _
    | cons c classes ih => exact (hf c).append ih
  refine ⟨fun c hc => ?_, fun c hc x hx y => ?_, hflatten.nodup_iff.mpr h.nodup, fun x => ?_⟩
  · obtain ⟨d, hd, rfl⟩ := hmem c hc
    exact fun hnil => h.nonempty d hd ((hnil ▸ hf d).nil_eq).symm
  · obtain ⟨d, hd, rfl⟩ := hmem c hc
    rw [(hf d).mem_iff] at hx ⊢
    exact h.same d hd x hx y
  · rw [hflatten.mem_iff]
    exact h.mem_flatten x

omit [DecidableEq α] in
/-- A path back to the start that meets nothing visited before, read forward. -/
theorem Backward.reaches {before : List α} {x y : α} (h : g.Backward before x y) :
    g.Reaches y x := by
  induction h with
  | refl => exact .refl
  | tail _ hedge ih => exact .head (g.mem_prev.mp hedge.1) ih

omit [DecidableEq α] in
/-- A path that nothing visited is on, read backward. -/
theorem backward_of_reaches {before : List α} {x y : α} (h : g.Reaches y x)
    (hfree : ∀ z, g.Reaches y z → g.Reaches z x → z ∉ before) : g.Backward before x y := by
  induction h using Relation.ReflTransGen.head_induction_on with
  | refl => exact .refl
  | @head a b hedge hreach ih =>
    have htail := ih fun z hbz hzx => hfree z (hbz.head hedge) hzx
    exact htail.tail ⟨g.mem_prev.mpr hedge, hfree a .refl (hreach.head hedge)⟩

omit [DecidableEq α] in
/-- **The last node of a class to be finished collects its class**: what leads
to it and is not collected yet is of its class. -/
theorem mem_class_iff {before earlier : List α} {v : α} (hfinished : g.Finished (v :: earlier))
    (hnodup : (v :: earlier).Nodup) (hnodes : v ∈ g.nodes) (hnew : v ∉ before)
    (hsaturated : ∀ {x y}, x ∈ before → g.Mutual x y → y ∈ before)
    (hrest : ∀ x ∈ g.nodes, x ∉ v :: earlier → x ∈ before) (w : α) :
    g.Backward before v w ↔ g.Mutual v w := by
  constructor
  · intro hback
    have hreach := hback.reaches
    have hw : w ∉ before := by
      cases hback with
      | refl => exact hnew
      | tail _ hedge => exact hedge.2
    by_contra hmutual
    -- the class of `w` was finished before `v`, so what it leads to was, `v` among it
    have hclass : ∀ u, g.Mutual w u → u ∈ earlier := by
      intro u hu
      have hunew : u ∉ before := fun hmem => hw (hsaturated hmem hu.symm)
      have humem : u ∈ g.nodes := hu.mem (mem_of_reaches hreach hnodes)
      have hmem := by_contra fun hout => hunew (hrest u humem hout)
      exact (List.mem_cons.mp hmem).resolve_left fun heq => hmutual (heq ▸ hu.symm)
    exact (List.nodup_cons.mp hnodup).1 (hfinished.1.mem_of_reaches hclass hreach)
  · intro hmutual
    refine backward_of_reaches hmutual.2 fun z hwz hzv hz => hnew ?_
    exact hsaturated hz ⟨hzv, hmutual.1.trans hwz⟩

/-- **The second pass over a finishing order** adds the classes of its nodes. -/
theorem Classes.foldl {order : List α} {c : Collected α}
    (h : g.Classes c.visited c.components) (hfinished : g.Finished order) (hnodup : order.Nodup)
    (hnodes : ∀ x ∈ order, x ∈ g.nodes) (hrest : ∀ x ∈ g.nodes, x ∉ order → x ∈ c.visited)
    (hvisited : ∀ x ∈ c.visited, x ∈ g.nodes) :
    g.Classes g.nodes (order.foldl g.collectFrom c).components := by
  induction order generalizing c with
  | nil =>
    refine ⟨h.nonempty, h.same, h.nodup, fun x => (h.mem_flatten x).trans ?_⟩
    exact ⟨hvisited x, fun hx => hrest x hx List.not_mem_nil⟩
  | cons v earlier ih =>
    have hv := hnodes v List.mem_cons_self
    have hearlier := fun x hx => hnodes x (List.mem_cons_of_mem v hx)
    rw [List.foldl_cons, collectFrom]
    split
    · next hmem =>
      refine ih h hfinished.1 (List.nodup_cons.mp hnodup).2 hearlier (fun x hx hout => ?_) hvisited
      by_cases hxv : x = v
      · exact hxv ▸ hmem
      · exact hrest x hx (List.not_mem_cons_of_ne_of_not_mem hxv hout)
    · next hnew =>
      obtain ⟨hunique, hback, hvis⟩ := searchFrom_spec hv hnew
      have hclass : ∀ x, x ∈ (g.searchFrom c.visited v).component ↔ g.Mutual v x := fun x =>
        (hback x).trans (mem_class_iff hfinished hnodup hv hnew h.saturated hrest x)
      refine ih ⟨fun d hd => ?_, fun d hd x hx y => ?_, ?_, fun x => ?_⟩ hfinished.1
        (List.nodup_cons.mp hnodup).2 hearlier (fun x hx hout => ?_) fun x hx => ?_
      · obtain hd | hd := List.mem_append.mp hd
        · exact h.nonempty d hd
        · rw [List.mem_singleton.mp hd]
          exact List.ne_nil_of_mem ((hclass v).mpr (.refl v))
      · obtain hd | hd := List.mem_append.mp hd
        · exact h.same d hd x hx y
        · rw [List.mem_singleton.mp hd, hclass] at hx ⊢
          exact ⟨hx.symm.trans, hx.trans⟩
      · rw [List.flatten_append, List.flatten_singleton]
        refine List.nodup_append.mpr ⟨h.nodup, hunique, fun x hx y hy heq => hnew ?_⟩
        exact h.saturated ((h.mem_flatten x).mp hx) (heq ▸ (hclass y).mp hy).symm
      · rw [List.flatten_append, List.flatten_singleton, List.mem_append, h.mem_flatten]
        exact (hvis x).symm
      · refine (hvis x).mpr ?_
        by_cases hxv : x = v
        · exact .inr ((hclass x).mpr (hxv.symm ▸ .refl v))
        · exact .inl (hrest x hx (List.not_mem_cons_of_ne_of_not_mem hxv hout))
      · exact ((hvis x).mp hx).elim (hvisited x) fun hx => ((hclass x).mp hx).mem hv

/-- **The lists collected are the classes of mutual reachability**, each node
in one of them, once. -/
theorem components_spec (g : AdjacencyGraph α) : g.Classes g.nodes g.components := by
  obtain ⟨hfinished, hnodup, hmem⟩ := g.finishingOrder_spec
  refine Classes.foldl (c := ⟨[], []⟩) ⟨?_, ?_, List.nodup_nil, ?_⟩ hfinished hnodup
    (fun x hx => (hmem x).mp hx) (fun x hx hout => absurd ((hmem x).mpr hx) hout) ?_ <;> simp

/-- A class with a second node, or whose node has an edge to itself, is a
cycle. -/
theorem Classes.cyclic_iff {covered : List α} {classes : List (List α)}
    (h : g.Classes covered classes) {c : List α} (hc : c ∈ classes) {x : α} (hx : x ∈ c) :
    (c.length > 1 ∨ c.length = 1 ∧ g.Edge x x) ↔ Relation.TransGen g.Edge x x := by
  have hnodup : c.Nodup := (List.nodup_flatten.mp h.nodup).1 c hc
  constructor
  · rintro (hlong | ⟨-, hedge⟩)
    · obtain ⟨y, hy, hne⟩ : ∃ y ∈ c, y ≠ x := by
        by_contra hall
        push Not at hall
        have hsub : c ⊆ [x] := fun y hy => List.mem_singleton.mpr (hall y hy)
        exact absurd (List.subperm_of_subset hnodup hsub).length_le (Nat.not_le_of_lt hlong)
      have hmutual := (h.same c hc x hx y).mp hy
      obtain heq | htrans := Relation.reflTransGen_iff_eq_or_transGen.mp hmutual.1
      · exact absurd heq hne
      · exact htrans.trans_left hmutual.2
    · exact .single hedge
  · intro hcycle
    obtain ⟨y, hedge, hback⟩ := Relation.TransGen.head'_iff.mp hcycle
    have hy : y ∈ c := (h.same c hc x hx y).mpr ⟨.single hedge, hback⟩
    obtain hone | hlong := (Nat.succ_le_of_lt (List.length_pos_of_mem hx)).eq_or_lt
    · obtain ⟨z, hz⟩ := List.length_eq_one_iff.mp hone.symm
      rw [hz, List.mem_singleton] at hx hy
      rw [hy, ← hx] at hedge
      exact .inr ⟨hone.symm, hedge⟩
    · exact .inl hlong

end AdjacencyGraph
