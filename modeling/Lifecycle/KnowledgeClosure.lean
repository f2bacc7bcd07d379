import Lifecycle.Fallible
import Lifecycle.RelationshipGraph

/-!
# The Knowledge closure

`buildClosure` follows the required relationships of an Execution Projection
from its seeds, breadth first. Each visit is checked against the depth bound,
the visit of a record that is reached already too: its path is recorded with
the others, and relationship depth is the length of the longest one. So the
closure goes through exactly when no step leaves a record whose distance from
the seeds is the bound, and then its entries are the records reached
(`ClosureLaw`). A record at the bound whose one step leads back to the seed is
enough to refuse it.
-/

open Fallible Json ControlModel SortedBy

namespace Knowledge

/-! ## `buildClosure` -/

/-- The roles of an Execution Projection. -/
inductive ExecutionRole
  | builder | reviewer
deriving DecidableEq

/-- `ClosureSeed`. -/
structure ClosureSeed where
  id : String
  reason : String
deriving DecidableEq

/-- **`ClosureEntry`**: why a record is in, and the paths to it. -/
structure ClosureEntry where
  record : KnowledgeRecord
  reasons : List String
  paths : OrderedMap String (List String)

/-- An item of the queue. -/
structure ClosureItem where
  id : String
  reason : String
  depth : Nat
  path : List String

/-- What the traversal carries; the queue has the items not looked at yet. -/
structure ClosureState where
  closure : OrderedMap String ClosureEntry
  minimumDepth : OrderedMap String Nat
  queue : List ClosureItem

/-- A record is not current. -/
def rootUnresolved (id : String) : FoundationError :=
  lifecycleError "lifecycle.projection.root-unresolved"
    s!"Execution Projection requires missing current Knowledge {id}"

/-- A path is longer than the bound. -/
def boundsInvalid (maximumDepth : Nat) : FoundationError :=
  lifecycleError "lifecycle.projection.bounds-invalid"
    s!"Knowledge closure exceeds the selected {maximumDepth}-edge relationship bound"

/-- The visit of a record is the first, or by a shorter path. -/
def isNearer (prior : Option Nat) (depth : Nat) : Bool :=
  match prior with
  | none => true
  | some prior => decide (depth < prior)

/-- **`include`**: the visit of a record. -/
def visit (current : OrderedMap String KnowledgeRecord) (maximumDepth : Nat) (item : ClosureItem)
    (st : ClosureState) : Except FoundationError ClosureState := do
  let record ← orFail (current.get item.id) (rootUnresolved item.id)
  failIf (item.depth > maximumDepth) (boundsInvalid maximumDepth)
  let entry := (st.closure.get item.id).getD ⟨record, [], ∅⟩
  let closure := st.closure.set item.id
    { entry with
      reasons := if item.reason ∈ entry.reasons then entry.reasons
        else entry.reasons ++ [item.reason]
      paths := entry.paths.set (nulJoin item.path) item.path }
  if isNearer (st.minimumDepth.get item.id) item.depth then
    return { closure := closure
             minimumDepth := st.minimumDepth.set item.id item.depth
             queue := st.queue ++ [item] }
  else return { st with closure := closure }

/-- The edges that lead on from their source. -/
def isForward (edge : RelationshipEdge) : Bool :=
  edge.required && (decide (edge.type = .refines) || decide (edge.type = .verifiedBy)
    || decide (edge.type = .dependsOn))

/-- The edges that lead back from their target. -/
def isBackward (role : ExecutionRole) (edge : RelationshipEdge) : Bool :=
  (decide (edge.type = .constrains) && edge.required)
    || (decide (edge.type = .realizes)
      && (decide (role = .builder) || decide (role = .reviewer)))

/-- **The visits a record leads to**, with their reasons: its outgoing edges,
its incoming ones, and the other members of its component. -/
def stepsOf (knowledge : KnowledgeGraph) (role : ExecutionRole) (id : String) :
    List (String × String) :=
  let edges := currentEdges knowledge
  ((edges.filter fun e => decide (e.source = id) && isForward e).map fun e =>
      (e.target, s!"{e.type.text}:{e.source}->{e.target}"))
    ++ ((edges.filter fun e => decide (e.target = id) && isBackward role e).map fun e =>
      (e.source, s!"incoming-{e.type.text}:{e.source}->{e.target}"))
    ++ ((neighbours (dependencyComponents knowledge) id).filter (· ≠ id)).map fun member =>
      (member, s!"dependency-component:{id}")

/-- The visit one step further. -/
def ClosureItem.next (item : ClosureItem) (step : String × String) : ClosureItem where
  id := step.1
  reason := step.2
  depth := item.depth + 1
  path := item.path ++ [step.1]

/-- One round over the queue. -/
def closureRound (current : OrderedMap String KnowledgeRecord)
    (steps : String → List (String × String)) (maximumDepth : Nat) :
    Except FoundationError ClosureState → Option (Except FoundationError ClosureState)
  | .error _ => none
  | .ok st =>
    match st.queue with
    | [] => none
    | item :: rest => some (replay
        (fun st step => visit current maximumDepth (item.next step) st)
        { st with queue := rest } (steps item.id))

/-- The visit of a seed. -/
def ClosureSeed.item (seed : ClosureSeed) : ClosureItem where
  id := seed.id
  reason := seed.reason
  depth := 0
  path := [seed.id]

/-- The seeds in their order. -/
def sortSeeds (seeds : List ClosureSeed) : List ClosureSeed :=
  sortOn (fun seed => nulJoin [seed.id, seed.reason]) seeds

/-- The traversal once the seeds are visited. -/
def seeded (current : OrderedMap String KnowledgeRecord) (maximumDepth : Nat)
    (seeds : List ClosureSeed) : Except FoundationError ClosureState :=
  replay (fun st seed => visit current maximumDepth seed.item st) ⟨∅, ∅, []⟩ (sortSeeds seeds)

/-- **`buildClosure`.** No record is queued twice (`explored_loop`), so there are
as many rounds as records. -/
def buildClosure (knowledge : KnowledgeGraph) (seeds : List ClosureSeed) (role : ExecutionRole)
    (maximumDepth : Nat) : Except FoundationError (OrderedMap String ClosureEntry) := do
  let current := knowledge.current.byIdentity
  let st ← loop (closureRound current (stepsOf knowledge role) maximumDepth)
    knowledge.current.records.length (seeded current maximumDepth seeds)
  return st.closure

/-! ## What is to be reached -/

/-- A required dependency between current revisions. -/
def RequiredDependency (knowledge : KnowledgeGraph) (x y : String) : Prop :=
  ∃ edge source target, CurrentLink knowledge edge source target ∧ edge.type = .dependsOn
    ∧ edge.required = true ∧ edge.source = x ∧ edge.target = y

/-- **The rule steps** of the closure, between current revisions. -/
inductive RuleStep (knowledge : KnowledgeGraph) (role : ExecutionRole) : String → String → Prop
  | forward {edge : RelationshipEdge} {source target : KnowledgeRecord} :
    CurrentLink knowledge edge source target → edge.required = true →
    edge.type = .refines ∨ edge.type = .verifiedBy ∨ edge.type = .dependsOn →
    RuleStep knowledge role edge.source edge.target
  | constrains {edge : RelationshipEdge} {source target : KnowledgeRecord} :
    CurrentLink knowledge edge source target → edge.required = true → edge.type = .constrains →
    RuleStep knowledge role edge.target edge.source
  | realizes {edge : RelationshipEdge} {source target : KnowledgeRecord} :
    CurrentLink knowledge edge source target → edge.type = .realizes →
    role = .builder ∨ role = .reviewer → RuleStep knowledge role edge.target edge.source
  | component {x y : String} :
    Relation.ReflTransGen (RequiredDependency knowledge) x y →
    Relation.ReflTransGen (RequiredDependency knowledge) y x → y ≠ x →
    RuleStep knowledge role x y

/-- The records a number of rule steps leads to from the seeds. -/
def ReachesIn (knowledge : KnowledgeGraph) (role : ExecutionRole) (seeds : List ClosureSeed) :
    Nat → String → Prop
  | 0, x => ∃ seed ∈ seeds, seed.id = x
  | n + 1, y => ∃ x, ReachesIn knowledge role seeds n x ∧ RuleStep knowledge role x y

/-- Every seed is current. -/
def SeedsCurrent (knowledge : KnowledgeGraph) (seeds : List ClosureSeed) : Prop :=
  ∀ seed ∈ seeds, ∃ record ∈ knowledge.current.records, record.frontMatter.id = seed.id

/-- **No step leaves a record at the bound**: every record reached that has a
step is nearer. -/
def WithinDepth (knowledge : KnowledgeGraph) (role : ExecutionRole) (seeds : List ClosureSeed)
    (maximumDepth : Nat) : Prop :=
  ∀ m x y, ReachesIn knowledge role seeds m x → RuleStep knowledge role x y →
    ∃ n < maximumDepth, ReachesIn knowledge role seeds n x

/-- **The closure is exact.** -/
structure ClosureLaw (knowledge : KnowledgeGraph) (seeds : List ClosureSeed)
    (role : ExecutionRole) (maximumDepth : Nat) : Prop where
  succeeds : (∃ c, buildClosure knowledge seeds role maximumDepth = .ok c)
    ↔ SeedsCurrent knowledge seeds ∧ WithinDepth knowledge role seeds maximumDepth
  entries : ∀ c, buildClosure knowledge seeds role maximumDepth = .ok c →
    (∀ x, (∃ entry, c.get x = some entry) ↔ ∃ n, ReachesIn knowledge role seeds n x)
      ∧ ∀ x entry, c.get x = some entry → entry.record ∈ knowledge.current.records
        ∧ entry.record.frontMatter.id = x
  ordered : ∀ (knowledge' : KnowledgeGraph) (seeds' : List ClosureSeed),
    knowledge'.current = knowledge.current →
    knowledge'.relationships.Perm knowledge.relationships → seeds'.Perm seeds →
    ∀ c, buildClosure knowledge' seeds' role maximumDepth = .ok c
      ↔ buildClosure knowledge seeds role maximumDepth = .ok c

/-- Every record reached is reached within the bound, and that is enough. -/
def BoundedLaw (knowledge : KnowledgeGraph) (seeds : List ClosureSeed) (role : ExecutionRole)
    (maximumDepth : Nat) : Prop :=
  (∃ c, buildClosure knowledge seeds role maximumDepth = .ok c)
    ↔ SeedsCurrent knowledge seeds ∧ ∀ m x, ReachesIn knowledge role seeds m x →
      ∃ n ≤ maximumDepth, ReachesIn knowledge role seeds n x

/-! ## The steps -/

section

variable {knowledge : KnowledgeGraph} {role : ExecutionRole}

theorem dependencyEdge_iff {x y : String} :
    DependencyEdge knowledge x y ↔ RequiredDependency knowledge x y := by
  simp only [DependencyEdge, TypedEdge, isAdjacencyEdge_dependsOn, RequiredDependency]
  constructor
  · rintro ⟨edge, hedge, ⟨hkept, htype, hrequired⟩, hx, hy⟩
    obtain ⟨source, target, hlink⟩ := (isCurrentEdge_iff hedge).mp hkept
    exact ⟨edge, source, target, hlink, htype, hrequired, hx, hy⟩
  · rintro ⟨edge, source, target, hlink, htype, hrequired, hx, hy⟩
    exact ⟨edge, hlink.stated, ⟨(isCurrentEdge_iff hlink.stated).mpr ⟨source, target, hlink⟩,
      htype, hrequired⟩, hx, hy⟩

theorem mem_currentEdges {edge : RelationshipEdge} :
    edge ∈ currentEdges knowledge ↔ ∃ source target, CurrentLink knowledge edge source target := by
  rw [currentEdges, mem_sortOn, List.mem_filter]
  constructor
  · rintro ⟨hedge, hkept⟩
    exact (isCurrentEdge_iff hedge).mp hkept
  · rintro ⟨source, target, hlink⟩
    exact ⟨hlink.stated, (isCurrentEdge_iff hlink.stated).mpr ⟨source, target, hlink⟩⟩

/-- The nodes of the closure are the current records. -/
theorem mem_nodes_dependencyAdjacency {x : String} :
    x ∈ (dependencyAdjacency knowledge).graph.nodes
      ↔ ∃ record ∈ knowledge.current.records, record.frontMatter.id = x := by
  show x ∈ sortOn id _ ↔ _
  rw [mem_sortOn, mem_keys_iff]
  show (mapLists _ _).has x = true ↔ _
  rw [has_mapLists, has_foldl_addDependency, OrderedMap.has, get_emptyLists, Option.isSome_map,
    Option.isSome_iff_exists]
  simp only [CurrentRecords.get_byIdentity]

/-- **The members of a component** are a current record and what required
dependencies lead to from it and back. -/
theorem mem_component {x y : String} : y ∈ neighbours (dependencyComponents knowledge) x
    ↔ (∃ record ∈ knowledge.current.records, record.frontMatter.id = x)
      ∧ Relation.ReflTransGen (RequiredDependency knowledge) x y
      ∧ Relation.ReflTransGen (RequiredDependency knowledge) y x := by
  have hspec := dependencyComponents_spec knowledge
  have hedge : (dependencyAdjacency knowledge).graph.Edge = RequiredDependency knowledge :=
    funext fun a => funext fun b =>
      propext ((edge_dependencyAdjacency a b).trans dependencyEdge_iff)
  rw [mem_neighbours, ← mem_nodes_dependencyAdjacency]
  simp only [get_dependencyComponents]
  have hmutual : ∀ a b, (dependencyAdjacency knowledge).graph.Mutual a b
      ↔ Relation.ReflTransGen (RequiredDependency knowledge) a b
        ∧ Relation.ReflTransGen (RequiredDependency knowledge) b a := by
    intro a b
    rw [← hedge]
    exact Iff.rfl
  rw [← hmutual]
  constructor
  · rintro ⟨c, ⟨hc, hx⟩, hy⟩
    refine ⟨(hspec.mem_flatten x).mp (List.mem_flatten.mpr ⟨c, hc, hx⟩), ?_⟩
    exact (hspec.same c hc x hx y).mp hy
  · rintro ⟨hx, hxy⟩
    obtain ⟨c, hc, hxc⟩ := List.mem_flatten.mp ((hspec.mem_flatten x).mpr hx)
    exact ⟨c, ⟨hc, hxc⟩, (hspec.same c hc x hxc y).mpr hxy⟩

/-- What required dependencies lead on from is current. -/
theorem current_of_required {x y : String}
    (h : Relation.ReflTransGen (RequiredDependency knowledge) x y) (hne : y ≠ x) :
    (∃ record ∈ knowledge.current.records, record.frontMatter.id = x)
      ∧ ∃ record ∈ knowledge.current.records, record.frontMatter.id = y := by
  constructor
  · obtain heq | ⟨z, ⟨edge, source, target, hlink, -, -, hx, -⟩, -⟩ := h.cases_head
    · exact absurd heq.symm hne
    · exact ⟨source, hlink.sourceRecord, hlink.sourceId.symm.trans hx⟩
  · obtain heq | ⟨z, -, edge, source, target, hlink, -, -, -, hy⟩ := h.cases_tail
    · exact absurd heq hne
    · exact ⟨target, hlink.targetRecord, hlink.targetId.symm.trans hy⟩

/-- **A rule step leads to a current record.** -/
theorem RuleStep.current {x y : String} (h : RuleStep knowledge role x y) :
    ∃ record ∈ knowledge.current.records, record.frontMatter.id = y := by
  cases h with
  | forward hlink _ _ => exact ⟨_, hlink.targetRecord, hlink.targetId.symm⟩
  | constrains hlink _ _ => exact ⟨_, hlink.sourceRecord, hlink.sourceId.symm⟩
  | realizes hlink _ _ => exact ⟨_, hlink.sourceRecord, hlink.sourceId.symm⟩
  | component hxy _ hne => exact (current_of_required hxy hne).2

/-- **The visits a record leads to are its rule steps.** -/
theorem mem_stepsOf {x y : String} :
    (∃ reason, (y, reason) ∈ stepsOf knowledge role x) ↔ RuleStep knowledge role x y := by
  constructor
  · rintro ⟨reason, h⟩
    obtain h | h := List.mem_append.mp h
    · obtain h | h := List.mem_append.mp h
      · obtain ⟨edge, hedge, heq⟩ := List.mem_map.mp h
        obtain ⟨hcurrent, hkept⟩ := List.mem_filter.mp hedge
        obtain ⟨source, target, hlink⟩ := mem_currentEdges.mp hcurrent
        simp only [isForward, Bool.and_eq_true, Bool.or_eq_true, decide_eq_true_eq] at hkept
        obtain ⟨rfl, hrequired, htype⟩ := hkept
        obtain rfl : edge.target = y := congrArg Prod.fst heq
        exact .forward hlink hrequired (or_assoc.mp htype)
      · obtain ⟨edge, hedge, heq⟩ := List.mem_map.mp h
        obtain ⟨hcurrent, hkept⟩ := List.mem_filter.mp hedge
        obtain ⟨source, target, hlink⟩ := mem_currentEdges.mp hcurrent
        simp only [isBackward, Bool.and_eq_true, Bool.or_eq_true, decide_eq_true_eq] at hkept
        obtain ⟨rfl, ⟨htype, hrequired⟩ | ⟨htype, hrole⟩⟩ := hkept
        · obtain rfl : edge.source = y := congrArg Prod.fst heq
          exact .constrains hlink hrequired htype
        · obtain rfl : edge.source = y := congrArg Prod.fst heq
          exact .realizes hlink htype hrole
    · obtain ⟨member, hmember, heq⟩ := List.mem_map.mp h
      obtain ⟨hmem, hne⟩ := List.mem_filter.mp hmember
      obtain ⟨-, hxy, hyx⟩ := mem_component.mp hmem
      obtain rfl : member = y := congrArg Prod.fst heq
      exact .component hxy hyx (of_decide_eq_true hne)
  · intro h
    cases h with
    | forward hlink hrequired htype =>
      refine ⟨_, List.mem_append_left _ (List.mem_append_left _ (List.mem_map.mpr ⟨_, ?_, rfl⟩))⟩
      refine List.mem_filter.mpr ⟨mem_currentEdges.mpr ⟨_, _, hlink⟩, ?_⟩
      simp only [isForward, Bool.and_eq_true, Bool.or_eq_true, decide_eq_true_eq]
      exact ⟨trivial, hrequired, or_assoc.mpr htype⟩
    | constrains hlink hrequired htype =>
      refine ⟨_, List.mem_append_left _ (List.mem_append_right _ (List.mem_map.mpr ⟨_, ?_, rfl⟩))⟩
      refine List.mem_filter.mpr ⟨mem_currentEdges.mpr ⟨_, _, hlink⟩, ?_⟩
      simp only [isBackward, Bool.and_eq_true, Bool.or_eq_true, decide_eq_true_eq]
      exact ⟨trivial, .inl ⟨htype, hrequired⟩⟩
    | realizes hlink htype hrole =>
      refine ⟨_, List.mem_append_left _ (List.mem_append_right _ (List.mem_map.mpr ⟨_, ?_, rfl⟩))⟩
      refine List.mem_filter.mpr ⟨mem_currentEdges.mpr ⟨_, _, hlink⟩, ?_⟩
      simp only [isBackward, Bool.and_eq_true, Bool.or_eq_true, decide_eq_true_eq]
      exact ⟨trivial, .inr ⟨htype, hrole⟩⟩
    | component hxy hyx hne =>
      refine ⟨_, List.mem_append_right _ (List.mem_map.mpr ⟨y, ?_, rfl⟩)⟩
      refine List.mem_filter.mpr ⟨mem_component.mpr ⟨?_, hxy, hyx⟩, decide_eq_true hne⟩
      exact (current_of_required hxy hne).1

end

end Knowledge
