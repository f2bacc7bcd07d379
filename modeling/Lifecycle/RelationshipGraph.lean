import Lifecycle.KnowledgeConflicts
import Lifecycle.StrongComponents

/-!
# The relationship graph

`validateRelationshipGraph` looks for cycles among the current edges of one
type and returns the components of the required dependencies. The closure of an
Execution Projection computes the components again, over all current records.
Both are the two passes of `AdjacencyGraph.components` over maps of their own:
what they find are the classes of mutual reachability, so a cycle is reported
exactly when there is one, and the two agree wherever a record has a dependency
at all (`graphLaw`).
-/

open Json ControlModel SortedBy

namespace Knowledge

/-! ## Edges -/

/-- `FoundationRelationshipType`. -/
inductive RelationshipType
  | refines | constrains | realizes | verifiedBy | dependsOn | relatedTo
deriving DecidableEq

/-- The name of a type. -/
def RelationshipType.text : RelationshipType → String
  | .refines => "refines"
  | .constrains => "constrains"
  | .realizes => "realizes"
  | .verifiedBy => "verified-by"
  | .dependsOn => "depends-on"
  | .relatedTo => "related-to"

/-- **`FoundationRelationshipEdge`**, with what the graph reads of it. -/
structure RelationshipEdge where
  source : String
  sourceRevision : Nat
  sourcePath : String
  type : RelationshipType
  target : String
  targetRevision : Option Nat
  required : Bool
  digest : Sha256Digest
deriving DecidableEq

/-- Both ends are the current revisions. -/
def isCurrentEdge (current : OrderedMap String KnowledgeRecord) (edge : RelationshipEdge) : Bool :=
  match current.get edge.source, current.get edge.target with
  | some source, some target =>
    decide (edge.sourceRevision = source.frontMatter.revision)
      && decide (edge.targetRevision = some target.frontMatter.revision)
  | _, _ => false

/-! ## Maps of neighbours -/

/-- `adjacency.get(x) ?? []`. -/
def neighbours (m : OrderedMap String (List String)) (x : String) : List String :=
  (m.get x).getD []

/-- The map with every list changed. -/
def mapLists (f : List String → List String) (m : OrderedMap String (List String)) :
    OrderedMap String (List String) :=
  ⟨m.entries.map fun e => (e.1, f e.2), by
    rw [List.map_map]
    exact m.nodupKeys⟩

/-- The map with its entries in the order of their keys. -/
def sortKeys (m : OrderedMap String (List String)) : OrderedMap String (List String) :=
  ⟨sortOn (·.1) m.entries, ((perm_sortOn _ m.entries).map Prod.fst).nodup_iff.mpr m.nodupKeys⟩

/-- **A map of neighbours**, each with an entry of its own. -/
structure Adjacency where
  map : OrderedMap String (List String)
  closed : ∀ {x y}, y ∈ neighbours map x → map.has y = true

/-- What `reverse` holds under a node: once for each edge, where it comes from,
sorted. -/
def Adjacency.reverse (a : Adjacency) (x : String) : List String :=
  sortOn id (a.map.entries.flatMap fun e => (e.2.filter (· = x)).map fun _ => e.1)

theorem mem_neighbours {m : OrderedMap String (List String)} {x y : String} :
    y ∈ neighbours m x ↔ ∃ values, m.get x = some values ∧ y ∈ values := by
  rw [neighbours]
  cases m.get x <;> simp

theorem Adjacency.mem_reverse {a : Adjacency} {x y : String} :
    x ∈ a.reverse y ↔ y ∈ neighbours a.map x := by
  rw [reverse, mem_sortOn, List.mem_flatMap, mem_neighbours]
  constructor
  · rintro ⟨e, he, hx⟩
    obtain ⟨z, hz, rfl⟩ := List.mem_map.mp hx
    obtain ⟨hz, heq⟩ := List.mem_filter.mp hz
    exact ⟨e.2, OrderedMap.get_eq_some_iff.mpr he, of_decide_eq_true heq ▸ hz⟩
  · rintro ⟨values, hget, hy⟩
    refine ⟨(x, values), OrderedMap.get_eq_some_iff.mp hget, List.mem_map.mpr ⟨y, ?_, rfl⟩⟩
    exact List.mem_filter.mpr ⟨hy, decide_eq_true rfl⟩

theorem mem_keys_iff {m : OrderedMap String (List String)} {x : String} :
    x ∈ m.keys ↔ m.has x = true := by
  rw [← Bool.not_eq_false, OrderedMap.has_eq_false_iff, OrderedMap.get_eq_none_iff, not_not]
  rfl

/-- **The graph of a map of neighbours.** -/
def Adjacency.graph (a : Adjacency) : AdjacencyGraph String where
  nodes := sortOn id a.map.keys
  next := neighbours a.map
  prev := a.reverse
  nodup := (perm_sortOn id a.map.keys).nodup_iff.mpr a.map.nodupKeys
  closed := by
    intro x y hy
    rw [mem_sortOn, mem_sortOn, mem_keys_iff, mem_keys_iff]
    obtain ⟨values, hget, -⟩ := mem_neighbours.mp hy
    exact ⟨OrderedMap.has_eq_true_iff.mpr ⟨values, hget⟩, a.closed hy⟩
  mem_prev := mem_reverse

/-- **`stronglyConnectedComponents`.** -/
def stronglyConnectedComponents (a : Adjacency) : List (List String) :=
  sortOn nulJoin (a.graph.components.map (sortOn id))

/-- **`cyclicComponents`.** -/
def cyclicComponents (a : Adjacency) : List (List String) :=
  (stronglyConnectedComponents a).filter fun component =>
    decide (component.length > 1)
      || match component with
        | [x] => decide (x ∈ neighbours a.map x)
        | _ => false

/-! ## The edges of one type -/

/-- What `adjacencyFor` keeps. -/
def isAdjacencyEdge (current : OrderedMap String KnowledgeRecord) (type : RelationshipType)
    (requiredOnly : Bool) (edge : RelationshipEdge) : Bool :=
  match current.get edge.source, current.get edge.target with
  | some source, some target =>
    decide (edge.type = type) && decide (edge.sourceRevision = source.frontMatter.revision)
      && decide (edge.targetRevision = some target.frontMatter.revision)
      && (!requiredOnly || edge.required)
      && (decide (type ≠ .verifiedBy)
        || decide (source.frontMatter.kind = .check) && decide (target.frontMatter.kind = .check))
  | _, _ => false

/-- One edge of the loop of `adjacencyFor`. -/
def addEdge (adjacency : OrderedMap String (List String)) (edge : RelationshipEdge) :
    OrderedMap String (List String) :=
  let pushed := adjacency.set edge.source (neighbours adjacency edge.source ++ [edge.target])
  if pushed.has edge.target then pushed else pushed.set edge.target []

theorem mem_neighbours_addEdge {m : OrderedMap String (List String)} {edge : RelationshipEdge}
    {x y : String} : y ∈ neighbours (addEdge m edge) x
      ↔ y ∈ neighbours m x ∨ (edge.source = x ∧ edge.target = y) := by
  have hpushed : y ∈ neighbours (m.set edge.source (neighbours m edge.source ++ [edge.target])) x
      ↔ y ∈ neighbours m x ∨ (edge.source = x ∧ edge.target = y) := by
    rw [neighbours, OrderedMap.get_set]
    by_cases hx : x = edge.source
    · subst hx
      simp [eq_comm]
    · simp [hx, Ne.symm hx, neighbours]
  rw [addEdge]
  split
  · exact hpushed
  · next hnone =>
    rw [Bool.not_eq_true, OrderedMap.has_eq_false_iff] at hnone
    rw [← hpushed, neighbours, OrderedMap.get_set]
    split
    · next hx =>
      rw [neighbours.eq_1 (m.set _ _), hx, hnone]
      rfl
    · rfl

theorem has_addEdge {m : OrderedMap String (List String)} {edge : RelationshipEdge} {x : String} :
    (addEdge m edge).has x = true ↔ m.has x = true ∨ edge.source = x ∨ edge.target = x := by
  have hset : ∀ (m : OrderedMap String (List String)) k v,
      (m.set k v).has x = true ↔ m.has x = true ∨ k = x := by
    intro m k v
    rw [OrderedMap.has, OrderedMap.get_set]
    by_cases hx : x = k
    · simp [hx]
    · simp [hx, Ne.symm hx, OrderedMap.has]
  rw [addEdge]
  split
  · next hhas =>
    rw [hset, ← or_assoc]
    refine ⟨.inl, fun h => h.elim id ?_⟩
    rintro rfl
    exact (hset m _ _).mp hhas
  · rw [hset, hset, or_assoc]

/-- The neighbours after all edges are in. -/
theorem mem_neighbours_foldl {edges : List RelationshipEdge}
    {m : OrderedMap String (List String)} {x y : String} :
    y ∈ neighbours (edges.foldl addEdge m) x
      ↔ y ∈ neighbours m x ∨ ∃ edge ∈ edges, edge.source = x ∧ edge.target = y := by
  induction edges generalizing m with
  | nil => simp
  | cons edge edges ih =>
    rw [List.foldl_cons, ih, mem_neighbours_addEdge, or_assoc, List.exists_mem_cons_iff]

/-- The nodes after all edges are in. -/
theorem has_foldl {edges : List RelationshipEdge} {m : OrderedMap String (List String)}
    {x : String} : (edges.foldl addEdge m).has x = true
      ↔ m.has x = true ∨ ∃ edge ∈ edges, edge.source = x ∨ edge.target = x := by
  induction edges generalizing m with
  | nil => simp
  | cons edge edges ih =>
    rw [List.foldl_cons, ih, has_addEdge, or_assoc, List.exists_mem_cons_iff]

theorem get_mapLists {f : List String → List String} {m : OrderedMap String (List String)}
    {x : String} : (mapLists f m).get x = (m.get x).map f := by
  refine Option.ext fun values => ?_
  rw [OrderedMap.get_eq_some_iff, Option.map_eq_some_iff]
  simp only [mapLists, List.mem_map, Prod.mk.injEq, OrderedMap.get_eq_some_iff]
  constructor
  · rintro ⟨e, he, rfl, rfl⟩
    exact ⟨e.2, he, rfl⟩
  · rintro ⟨v, hv, rfl⟩
    exact ⟨(x, v), hv, rfl, rfl⟩

theorem get_sortKeys {m : OrderedMap String (List String)} {x : String} :
    (sortKeys m).get x = m.get x := by
  refine Option.ext fun values => ?_
  rw [OrderedMap.get_eq_some_iff, OrderedMap.get_eq_some_iff]
  exact mem_sortOn

theorem mem_neighbours_mapLists {f : List String → List String}
    (hf : ∀ l y, y ∈ f l ↔ y ∈ l) {m : OrderedMap String (List String)} {x y : String} :
    y ∈ neighbours (mapLists f m) x ↔ y ∈ neighbours m x := by
  rw [neighbours, neighbours, get_mapLists]
  cases m.get x with
  | none => rfl
  | some values => exact hf values y

/-- An edge of the graph of one type. -/
def TypedEdge (edges : List RelationshipEdge) (current : OrderedMap String KnowledgeRecord)
    (type : RelationshipType) (requiredOnly : Bool) (x y : String) : Prop :=
  ∃ edge ∈ edges, isAdjacencyEdge current type requiredOnly edge = true ∧ edge.source = x
    ∧ edge.target = y

/-- The lists `adjacencyFor` fills. -/
def adjacencyMap (edges : List RelationshipEdge) (current : OrderedMap String KnowledgeRecord)
    (type : RelationshipType) (requiredOnly : Bool) : OrderedMap String (List String) :=
  (edges.filter (isAdjacencyEdge current type requiredOnly)).foldl addEdge ∅

section

variable {edges : List RelationshipEdge} {current : OrderedMap String KnowledgeRecord}
  {type : RelationshipType} {requiredOnly : Bool}

theorem mem_neighbours_adjacencyMap {x y : String} :
    y ∈ neighbours (adjacencyMap edges current type requiredOnly) x
      ↔ TypedEdge edges current type requiredOnly x y := by
  rw [adjacencyMap, mem_neighbours_foldl, TypedEdge]
  simp only [List.mem_filter, and_assoc]
  exact or_iff_right (by simp [neighbours])

theorem has_adjacencyMap {x : String} :
    (adjacencyMap edges current type requiredOnly).has x = true
      ↔ ∃ y, TypedEdge edges current type requiredOnly x y
        ∨ TypedEdge edges current type requiredOnly y x := by
  rw [adjacencyMap, has_foldl]
  simp only [List.mem_filter, OrderedMap.has, OrderedMap.get_empty, Option.isSome_none,
    Bool.false_eq_true, false_or, TypedEdge]
  constructor
  · rintro ⟨edge, ⟨hedge, hkept⟩, rfl | rfl⟩
    · exact ⟨edge.target, .inl ⟨edge, hedge, hkept, rfl, rfl⟩⟩
    · exact ⟨edge.source, .inr ⟨edge, hedge, hkept, rfl, rfl⟩⟩
  · rintro ⟨y, ⟨edge, hedge, hkept, rfl, rfl⟩ | ⟨edge, hedge, hkept, rfl, rfl⟩⟩
    · exact ⟨edge, ⟨hedge, hkept⟩, .inl rfl⟩
    · exact ⟨edge, ⟨hedge, hkept⟩, .inr rfl⟩

theorem has_mapLists {f : List String → List String} {m : OrderedMap String (List String)}
    {x : String} : (mapLists f m).has x = m.has x := by
  rw [OrderedMap.has, OrderedMap.has, get_mapLists, Option.isSome_map]

end

/-- **`adjacencyFor`.** -/
def adjacencyFor (edges : List RelationshipEdge) (current : OrderedMap String KnowledgeRecord)
    (type : RelationshipType) (requiredOnly : Bool) : Adjacency where
  map := mapLists sortUniqueCodePoints (sortKeys (adjacencyMap edges current type requiredOnly))
  closed := by
    intro x y hy
    rw [mem_neighbours_mapLists fun _ _ => mem_sortUniqueCodePoints, neighbours, get_sortKeys] at hy
    rw [has_mapLists, OrderedMap.has, get_sortKeys]
    exact has_adjacencyMap.mpr ⟨x, .inr (mem_neighbours_adjacencyMap.mp hy)⟩

/-! ## `validateRelationshipGraph` -/

/-- `FoundationKnowledgeLimits`, with the bounds of the graph. -/
structure GraphLimits where
  maximumGraphNodes : Nat
  maximumGraphEdges : Nat
  maximumNodeDegree : Nat

/-- `FOUNDATION_REPOSITORY_KNOWLEDGE_LIMITS`. -/
def knowledgeLimits : GraphLimits where
  maximumGraphNodes := 65536
  maximumGraphEdges := 262144
  maximumNodeDegree := 4096

/-- A graph beyond its bounds. -/
def limitExceeded (edges : List RelationshipEdge) (nodeCount : Nat) (limits : GraphLimits) :
    Diagnostic :=
  { stage := "relationships"
    code := "lifecycle.knowledge.limit-exceeded"
    message := "Knowledge relationship graph exceeds its bounded node or edge profile"
    facts := [("edgeCount", nat edges.length), ("maximumEdges", nat limits.maximumGraphEdges),
      ("maximumNodes", nat limits.maximumGraphNodes), ("nodeCount", nat nodeCount)] }

/-- The edges a record is the source of. -/
def degree (edges : List RelationshipEdge) (id : String) : Nat :=
  (edges.filter (·.source = id)).length

/-- `overDegree`: the sources with too many edges. -/
def overDegree (edges : List RelationshipEdge) (limits : GraphLimits) : List String :=
  sortUniqueCodePoints ((edges.map (·.source)).filter
    fun id => degree edges id > limits.maximumNodeDegree)

/-- A record with too many edges. -/
def degreeExceeded (edges : List RelationshipEdge) (limits : GraphLimits) (id : String) :
    Diagnostic :=
  { stage := "relationships"
    code := "lifecycle.knowledge.limit-exceeded"
    message := s!"Knowledge relationship degree for {id} exceeds its "
      ++ s!"{limits.maximumNodeDegree}-edge bound"
    related := [id]
    facts := [("count", nat (degree edges id)),
      ("maximumNodeDegree", nat limits.maximumNodeDegree)] }

/-- A component as a JSON value. -/
def componentJson (component : List String) : Json := .array (component.map .string)

/-- A cycle of edges of one type. -/
def cycle (type : RelationshipType) (component : List String) : Diagnostic :=
  { stage := "relationships"
    code := "lifecycle.relationship.cycle"
    message := s!"{type.text} relationship cycle contains " ++ ", ".intercalate component
    related := component
    facts := [("component", componentJson component), ("type", .string type.text)] }

/-- A large component of required dependencies. Texts always have a digest. -/
def largeDependency (component : List String) : List Diagnostic :=
  if component.length > 32 then
    [{ stage := "relationships"
       code := "lifecycle.relationship.dependency-large"
       severity := .warning
       message := s!"Required dependency component contains {component.length} records"
       related := component
       facts := [("digest",
           .string ((digestCanonical (componentJson component)).toOption.getD "")),
         ("count", nat component.length)] }] else []

/-- The revision of a current record. -/
def currentRevision (current : OrderedMap String KnowledgeRecord) (id : String) : Option Nat :=
  (current.get id).map (·.frontMatter.revision)

/-- A required dependency whose target is not current. -/
def incompleteDependency (current : OrderedMap String KnowledgeRecord) (edge : RelationshipEdge) :
    List Diagnostic :=
  if edge.type = .dependsOn ∧ edge.required = true
      ∧ currentRevision current edge.source = some edge.sourceRevision
      ∧ (currentRevision current edge.target = none
        ∨ currentRevision current edge.target ≠ edge.targetRevision) then
    [{ stage := "relationships"
       code := "lifecycle.relationship.dependency-incomplete"
       message := s!"Required dependency from {edge.source} to {edge.target} is incomplete"
       path := some edge.sourcePath
       related := [edge.target]
       facts := [("edgeDigest", .string edge.digest)] }] else []

/-- A Behavior or an Assurance without a required Check. -/
def missingCheck (current : OrderedMap String KnowledgeRecord) (edges : List RelationshipEdge)
    (record : KnowledgeRecord) : List Diagnostic :=
  if (record.frontMatter.kind = .behavior ∨ record.frontMatter.kind = .assurance)
      ∧ ¬ ∃ edge ∈ edges.filter (isCurrentEdge current), edge.source = record.frontMatter.id
        ∧ edge.type = .verifiedBy ∧ edge.required = true
        ∧ (current.get edge.target).map (·.frontMatter.kind) = some .check then
    [{ stage := "relationships"
       code := "lifecycle.check.required-missing"
       message := s!"Current {record.frontMatter.kind.text} {record.frontMatter.id} lacks a "
         ++ "required verified-by Check"
       path := some record.path
       facts := [("identity", .string record.frontMatter.id)] }] else []

/-- What the validation of a graph returns. -/
structure GraphValidation where
  dependencyComponents : List (List String)
  complete : Bool
  diagnostics : List Diagnostic

/-- **`validateRelationshipGraph`.** -/
def validateRelationshipGraph (edges : List RelationshipEdge) (current : CurrentRecords)
    (prior : List Diagnostic) (limits : GraphLimits) : GraphValidation :=
  let byIdentity := current.byIdentity
  if prior.any (fun d => decide (d.stage = "relationships")
        && decide (d.code = "lifecycle.knowledge.limit-exceeded")) = true
      ∨ current.records.length > limits.maximumGraphNodes
      ∨ edges.length > limits.maximumGraphEdges then
    ⟨[], false, [limitExceeded edges current.records.length limits]⟩
  else if overDegree edges limits ≠ [] then
    ⟨[], false, (overDegree edges limits).map (degreeExceeded edges limits)⟩
  else
    let cycles := [RelationshipType.refines, .verifiedBy].flatMap fun type =>
      (cyclicComponents (adjacencyFor edges byIdentity type false)).map (cycle type)
    let components := stronglyConnectedComponents (adjacencyFor edges byIdentity .dependsOn true)
    { dependencyComponents := components
      complete := true
      diagnostics := cycles ++ components.flatMap largeDependency
        ++ edges.flatMap (incompleteDependency byIdentity)
        ++ (sortOn (·.frontMatter.id) current.records).flatMap (missingCheck byIdentity edges) }

/-! ## The components of the closure -/

/-- **The Knowledge Set**, with what the closure reads of it. -/
structure KnowledgeGraph where
  current : CurrentRecords
  relationships : List RelationshipEdge

/-- `edgeOrder` compares these. -/
def edgeKey (edge : RelationshipEdge) : String :=
  nulJoin [edge.source, edge.type.text, edge.target, edge.digest]

/-- **`currentEdges`.** -/
def currentEdges (knowledge : KnowledgeGraph) : List RelationshipEdge :=
  sortOn edgeKey (knowledge.relationships.filter (isCurrentEdge knowledge.current.byIdentity))

/-- `adjacency.get(edge.source)?.push(edge.target)` for a required
dependency. -/
def addDependency (adjacency : OrderedMap String (List String)) (edge : RelationshipEdge) :
    OrderedMap String (List String) :=
  if edge.type = .dependsOn ∧ edge.required = true then
    match adjacency.get edge.source with
    | some values => adjacency.set edge.source (values ++ [edge.target])
    | none => adjacency
  else adjacency

/-- A list for each current record. -/
def emptyLists (current : OrderedMap String KnowledgeRecord) : OrderedMap String (List String) :=
  ⟨current.entries.map fun e => (e.1, []), by
    rw [List.map_map]
    exact current.nodupKeys⟩

theorem mem_neighbours_addDependency {m : OrderedMap String (List String)}
    {edge : RelationshipEdge} {x y : String} (hsource : m.has edge.source = true) :
    y ∈ neighbours (addDependency m edge) x ↔ y ∈ neighbours m x
      ∨ ((edge.type = .dependsOn ∧ edge.required = true) ∧ edge.source = x ∧ edge.target = y) := by
  obtain ⟨values, hvalues⟩ := OrderedMap.has_eq_true_iff.mp hsource
  rw [addDependency]
  split
  · next hkept =>
    rw [hvalues, neighbours, OrderedMap.get_set]
    by_cases hx : x = edge.source
    · subst hx
      simp [neighbours, hvalues, hkept, eq_comm]
    · simp [hx, Ne.symm hx, neighbours]
  · next hout => simp [hout]

theorem has_addDependency {m : OrderedMap String (List String)} {edge : RelationshipEdge}
    {x : String} : (addDependency m edge).has x = m.has x := by
  rw [addDependency]
  split
  · split
    · next values hvalues =>
      rw [OrderedMap.has, OrderedMap.get_set, OrderedMap.has]
      split
      · next hx =>
        rw [hx, hvalues]
        rfl
      · rfl
    · rfl
  · rfl

/-- The neighbours after all edges are in. -/
theorem mem_neighbours_foldl_addDependency {edges : List RelationshipEdge}
    {m : OrderedMap String (List String)} {x y : String}
    (hsources : ∀ edge ∈ edges, m.has edge.source = true) :
    y ∈ neighbours (edges.foldl addDependency m) x ↔ y ∈ neighbours m x
      ∨ ∃ edge ∈ edges, (edge.type = .dependsOn ∧ edge.required = true) ∧ edge.source = x
        ∧ edge.target = y := by
  induction edges generalizing m with
  | nil => simp
  | cons edge edges ih =>
    rw [List.foldl_cons, ih fun e he => has_addDependency.trans
        (hsources e (List.mem_cons_of_mem _ he)),
      mem_neighbours_addDependency (hsources edge List.mem_cons_self), or_assoc,
      List.exists_mem_cons_iff]

theorem has_foldl_addDependency {edges : List RelationshipEdge}
    {m : OrderedMap String (List String)} {x : String} :
    (edges.foldl addDependency m).has x = m.has x := by
  induction edges generalizing m with
  | nil => rfl
  | cons edge edges ih => rw [List.foldl_cons, ih, has_addDependency]

theorem get_emptyLists {current : OrderedMap String KnowledgeRecord} {x : String} :
    (emptyLists current).get x = (current.get x).map fun _ => [] := by
  refine Option.ext fun values => ?_
  rw [OrderedMap.get_eq_some_iff, Option.map_eq_some_iff]
  simp only [emptyLists, List.mem_map, Prod.mk.injEq, OrderedMap.get_eq_some_iff]
  constructor
  · rintro ⟨e, he, rfl, rfl⟩
    exact ⟨e.2, he, rfl⟩
  · rintro ⟨v, hv, rfl⟩
    exact ⟨(x, v), hv, rfl, rfl⟩

/-- A required dependency between current revisions. -/
def DependencyEdge (knowledge : KnowledgeGraph) (x y : String) : Prop :=
  TypedEdge knowledge.relationships knowledge.current.byIdentity .dependsOn true x y

theorem isAdjacencyEdge_dependsOn {current : OrderedMap String KnowledgeRecord}
    {edge : RelationshipEdge} : isAdjacencyEdge current .dependsOn true edge = true
      ↔ isCurrentEdge current edge = true ∧ edge.type = .dependsOn ∧ edge.required = true := by
  rw [isAdjacencyEdge, isCurrentEdge]
  cases current.get edge.source with
  | none => simp
  | some source =>
    cases current.get edge.target with
    | none => simp
    | some target =>
      simp only [Bool.and_eq_true, decide_eq_true_eq, Bool.not_true, Bool.false_or, ne_eq,
        reduceCtorEq, not_false_eq_true, decide_true, Bool.true_or]
      tauto

/-- The lists of the closure have the same neighbours as those of the
validation. -/
theorem mem_neighbours_dependencies {knowledge : KnowledgeGraph} {x y : String} :
    y ∈ neighbours ((currentEdges knowledge).foldl addDependency
        (emptyLists knowledge.current.byIdentity)) x ↔ DependencyEdge knowledge x y := by
  have hcurrent : ∀ edge ∈ currentEdges knowledge,
      isCurrentEdge knowledge.current.byIdentity edge = true := fun edge hedge =>
    (List.mem_filter.mp (mem_sortOn.mp hedge)).2
  rw [mem_neighbours_foldl_addDependency]
  · have hnone : ¬ y ∈ neighbours (emptyLists knowledge.current.byIdentity) x := by
      rw [neighbours, get_emptyLists]
      cases knowledge.current.byIdentity.get x <;> simp
    rw [or_iff_right hnone, DependencyEdge, TypedEdge]
    simp only [isAdjacencyEdge_dependsOn, currentEdges, mem_sortOn, List.mem_filter, and_assoc]
  · intro edge hedge
    have h := hcurrent edge hedge
    rw [isCurrentEdge] at h
    rw [OrderedMap.has, get_emptyLists, Option.isSome_map]
    cases hget : knowledge.current.byIdentity.get edge.source with
    | none => simp [hget] at h
    | some _ => rfl

/-- The lists `dependencyComponents` fills. -/
def dependencyAdjacency (knowledge : KnowledgeGraph) : Adjacency where
  map := mapLists (sortOn id) ((currentEdges knowledge).foldl addDependency
    (emptyLists knowledge.current.byIdentity))
  closed := by
    intro x y hy
    rw [mem_neighbours_mapLists fun _ _ => mem_sortOn, mem_neighbours_dependencies] at hy
    obtain ⟨edge, -, hkept, -, rfl⟩ := hy
    rw [isAdjacencyEdge_dependsOn, isCurrentEdge] at hkept
    rw [has_mapLists, has_foldl_addDependency, OrderedMap.has, get_emptyLists, Option.isSome_map]
    cases hget : knowledge.current.byIdentity.get edge.target with
    | none => simp [hget] at hkept
    | some _ => rfl

/-- `for (const id of component) byIdentity.set(id, component)`. -/
def setAll (byIdentity : OrderedMap String (List String)) (component : List String) :
    OrderedMap String (List String) :=
  component.foldl (fun m id => m.set id component) byIdentity

/-- **`dependencyComponents`.** -/
def dependencyComponents (knowledge : KnowledgeGraph) : OrderedMap String (List String) :=
  ((dependencyAdjacency knowledge).graph.components.map (sortOn id)).foldl setAll ∅

/-! ## What the graph is -/

/-- **An edge between current revisions**, with the records it connects. -/
structure CurrentLink (knowledge : KnowledgeGraph) (edge : RelationshipEdge)
    (source target : KnowledgeRecord) : Prop where
  stated : edge ∈ knowledge.relationships
  sourceRecord : source ∈ knowledge.current.records
  targetRecord : target ∈ knowledge.current.records
  sourceId : edge.source = source.frontMatter.id
  targetId : edge.target = target.frontMatter.id
  sourceRevision : edge.sourceRevision = source.frontMatter.revision
  targetRevision : edge.targetRevision = some target.frontMatter.revision

/-- A current edge of one type; those of `verified-by` that connect Checks. -/
def CycleEdge (knowledge : KnowledgeGraph) (type : RelationshipType) (x y : String) : Prop :=
  ∃ edge source target, CurrentLink knowledge edge source target ∧ edge.type = type
    ∧ edge.source = x ∧ edge.target = y
    ∧ (type = .verifiedBy → source.frontMatter.kind = .check ∧ target.frontMatter.kind = .check)

/-- A record without a required dependency, in or out. -/
def Isolated (knowledge : KnowledgeGraph) (x : String) : Prop :=
  ∀ edge source target, CurrentLink knowledge edge source target → edge.type = .dependsOn →
    edge.required = true → edge.source ≠ x ∧ edge.target ≠ x

/-- Nothing exceeds the bounds of the graph. -/
structure WithinBounds (knowledge : KnowledgeGraph) (prior : List Diagnostic)
    (limits : GraphLimits) : Prop where
  prior : ∀ d ∈ prior, d.stage = "relationships" → d.code ≠ "lifecycle.knowledge.limit-exceeded"
  nodes : knowledge.current.records.length ≤ limits.maximumGraphNodes
  edges : knowledge.relationships.length ≤ limits.maximumGraphEdges
  degrees : ∀ id, degree knowledge.relationships id ≤ limits.maximumNodeDegree

/-- A cycle of one type is reported. -/
def ReportsCycle (found : GraphValidation) (type : RelationshipType) : Prop :=
  ∃ d ∈ found.diagnostics, d.code = "lifecycle.relationship.cycle"
    ∧ ("type", Json.string type.text) ∈ d.facts

/-- **The validation of a graph is exact**: it reports the cycles there are,
and finds the components the closure finds. -/
structure GraphLaw (knowledge : KnowledgeGraph) (found : GraphValidation) : Prop where
  complete : found.complete = true
  cycles : ∀ type, type = .refines ∨ type = .verifiedBy →
    (ReportsCycle found type ↔ ∃ x, Relation.TransGen (CycleEdge knowledge type) x x)
  dependencies : ∀ c, c ∈ found.dependencyComponents
    ↔ ∃ x, ¬ Isolated knowledge x ∧ (dependencyComponents knowledge).get x = some c

section

variable {knowledge : KnowledgeGraph}

theorem isCurrentEdge_iff {edge : RelationshipEdge} (hedge : edge ∈ knowledge.relationships) :
    isCurrentEdge knowledge.current.byIdentity edge = true
      ↔ ∃ source target, CurrentLink knowledge edge source target := by
  rw [isCurrentEdge]
  constructor
  · intro h
    split at h
    · next source target hsource htarget =>
      rw [Bool.and_eq_true, decide_eq_true_eq, decide_eq_true_eq] at h
      obtain ⟨hs, hsid⟩ := CurrentRecords.get_byIdentity.mp hsource
      obtain ⟨ht, htid⟩ := CurrentRecords.get_byIdentity.mp htarget
      exact ⟨source, target, hedge, hs, ht, hsid.symm, htid.symm, h.1, h.2⟩
    · cases h
  · rintro ⟨source, target, h⟩
    rw [CurrentRecords.get_byIdentity.mpr ⟨h.sourceRecord, h.sourceId.symm⟩,
      CurrentRecords.get_byIdentity.mpr ⟨h.targetRecord, h.targetId.symm⟩]
    simp [h.sourceRevision, h.targetRevision]

theorem typedEdge_iff {type : RelationshipType} {x y : String} :
    TypedEdge knowledge.relationships knowledge.current.byIdentity type false x y
      ↔ CycleEdge knowledge type x y := by
  constructor
  · rintro ⟨edge, hedge, hkept, hx, hy⟩
    rw [isAdjacencyEdge] at hkept
    split at hkept
    · next source target hsource htarget =>
      simp only [Bool.and_eq_true, Bool.or_eq_true, decide_eq_true_eq, Bool.not_false,
        true_or, and_true] at hkept
      obtain ⟨⟨⟨htype, hsr⟩, htr⟩, hkinds⟩ := hkept
      obtain ⟨hs, hsid⟩ := CurrentRecords.get_byIdentity.mp hsource
      obtain ⟨ht, htid⟩ := CurrentRecords.get_byIdentity.mp htarget
      exact ⟨edge, source, target, ⟨hedge, hs, ht, hsid.symm, htid.symm, hsr, htr⟩, htype, hx, hy,
        fun hv => hkinds.resolve_left fun hne => hne hv⟩
    · cases hkept
  · rintro ⟨edge, source, target, h, htype, hx, hy, hkinds⟩
    refine ⟨edge, h.stated, ?_, hx, hy⟩
    rw [isAdjacencyEdge, CurrentRecords.get_byIdentity.mpr ⟨h.sourceRecord, h.sourceId.symm⟩,
      CurrentRecords.get_byIdentity.mpr ⟨h.targetRecord, h.targetId.symm⟩]
    simp only [htype, h.sourceRevision, h.targetRevision, Bool.and_eq_true, Bool.or_eq_true,
      decide_eq_true_eq, Bool.not_false, true_or, true_and]
    by_cases hv : type = .verifiedBy
    · exact .inr (hkinds hv)
    · exact .inl hv

theorem not_isolated_iff {x : String} : ¬ Isolated knowledge x
    ↔ ∃ y, DependencyEdge knowledge x y ∨ DependencyEdge knowledge y x := by
  simp only [DependencyEdge, TypedEdge, isAdjacencyEdge_dependsOn]
  constructor
  · intro h
    simp only [Isolated, not_forall] at h
    obtain ⟨edge, source, target, hlink, htype, hrequired, hends⟩ := h
    have hkept := (isCurrentEdge_iff hlink.stated).mpr ⟨source, target, hlink⟩
    by_cases hx : edge.source = x
    · exact ⟨edge.target, .inl ⟨edge, hlink.stated, ⟨hkept, htype, hrequired⟩, hx, rfl⟩⟩
    · have hy : edge.target = x := by_contra fun hne => hends ⟨hx, hne⟩
      exact ⟨edge.source, .inr ⟨edge, hlink.stated, ⟨hkept, htype, hrequired⟩, rfl, hy⟩⟩
  · rintro ⟨y, ⟨edge, hedge, ⟨hkept, htype, hrequired⟩, hx, -⟩
      | ⟨edge, hedge, ⟨hkept, htype, hrequired⟩, -, hx⟩⟩ hisolated
    · obtain ⟨source, target, hlink⟩ := (isCurrentEdge_iff hedge).mp hkept
      exact (hisolated edge source target hlink htype hrequired).1 hx
    · obtain ⟨source, target, hlink⟩ := (isCurrentEdge_iff hedge).mp hkept
      exact (hisolated edge source target hlink htype hrequired).2 hx

/-! ## Components -/

/-- **`stronglyConnectedComponents` are the classes of mutual reachability.** -/
theorem stronglyConnectedComponents_spec (a : Adjacency) :
    a.graph.Classes a.map.keys (stronglyConnectedComponents a) := by
  have h := a.graph.components_spec.perm (sortOn id) (fun c => perm_sortOn id c)
    (perm_sortOn nulJoin _)
  exact ⟨h.nonempty, h.same, h.nodup, fun x => (h.mem_flatten x).trans mem_sortOn⟩

theorem sortOn_sortOn (l : List String) : sortOn id (sortOn id l) = sortOn id l :=
  Comparison.sortWith_sortWith (codePoint.comap id) l

/-- A component is sorted. -/
theorem sortOn_component {a : Adjacency} {c : List String}
    (hc : c ∈ stronglyConnectedComponents a) : sortOn id c = c := by
  obtain ⟨d, -, rfl⟩ := List.mem_map.mp (mem_sortOn.mp hc)
  exact sortOn_sortOn d

/-- The cyclic components are those with a node on a cycle. -/
theorem mem_cyclicComponents_iff {a : Adjacency} {c : List String} :
    c ∈ cyclicComponents a ↔ c ∈ stronglyConnectedComponents a
      ∧ ∃ x ∈ c, Relation.TransGen a.graph.Edge x x := by
  rw [cyclicComponents, List.mem_filter]
  refine and_congr_right fun hc => ?_
  have hspec := stronglyConnectedComponents_spec a
  obtain ⟨x, hx⟩ := List.exists_mem_of_ne_nil c (hspec.nonempty c hc)
  have hcyclic : ∀ y ∈ c, (c.length > 1 ∨ c.length = 1 ∧ a.graph.Edge y y)
      ↔ Relation.TransGen a.graph.Edge y y := fun y hy => hspec.cyclic_iff hc hy
  cases c with
  | nil => cases hx
  | cons z rest =>
    cases rest with
    | nil =>
      obtain rfl := List.mem_singleton.mp hx
      simp only [List.length_singleton, gt_iff_lt, lt_self_iff_false, decide_false, Bool.false_or,
        decide_eq_true_eq, List.mem_singleton, exists_eq_left]
      rw [← hcyclic x List.mem_cons_self]
      simp [AdjacencyGraph.Edge, Adjacency.graph]
    | cons w rest =>
      simp only [List.length_cons, gt_iff_lt, Nat.lt_add_left_iff_pos, Nat.zero_lt_succ,
        decide_true, Bool.true_or, true_iff]
      exact ⟨x, hx, (hcyclic x hx).mp (.inl (by simp))⟩

theorem get_setAll {m : OrderedMap String (List String)} {component ids : List String}
    {x : String} : (ids.foldl (fun m id => m.set id component) m).get x
      = if x ∈ ids then some component else m.get x := by
  induction ids generalizing m with
  | nil => simp
  | cons id ids ih =>
    rw [List.foldl_cons, ih, OrderedMap.get_set]
    by_cases hx : x ∈ ids
    · simp [hx]
    · by_cases hid : x = id
      · simp [hid]
      · simp [hx, hid]

/-- **What is found under a node is its component.** -/
theorem get_foldl_setAll {components : List (List String)}
    {m : OrderedMap String (List String)} (hnodup : components.flatten.Nodup) {x : String}
    {c : List String} : (components.foldl setAll m).get x = some c
      ↔ (c ∈ components ∧ x ∈ c) ∨ (x ∉ components.flatten ∧ m.get x = some c) := by
  induction components generalizing m with
  | nil => simp
  | cons d components ih =>
    rw [List.flatten_cons, List.nodup_append] at hnodup
    obtain ⟨-, hrest, hdisjoint⟩ := hnodup
    rw [List.foldl_cons, ih hrest, setAll, get_setAll, List.flatten_cons, List.mem_append]
    by_cases hx : x ∈ d
    · have hout : x ∉ components.flatten := fun hmem => hdisjoint x hx x hmem rfl
      have hother : ¬ (c ∈ components ∧ x ∈ c) := fun h =>
        hout (List.mem_flatten.mpr ⟨c, h.1, h.2⟩)
      simp only [hx, hout, hother, if_true, false_or, not_false_eq_true, true_and,
        not_true_eq_false, false_and, or_false, Option.some.injEq, List.mem_cons]
      constructor
      · rintro rfl
        exact ⟨.inl rfl, hx⟩
      · rintro ⟨rfl | hc, hxc⟩
        · rfl
        · exact absurd ⟨hc, hxc⟩ hother
    · simp only [hx, if_false, false_or, List.mem_cons]
      rw [or_and_right, or_iff_right fun h : c = d ∧ x ∈ c => hx (h.1 ▸ h.2)]

/-- The components of the closure, as they are listed. -/
theorem dependencyComponents_spec (knowledge : KnowledgeGraph) :
    (dependencyAdjacency knowledge).graph.Classes (dependencyAdjacency knowledge).graph.nodes
      ((dependencyAdjacency knowledge).graph.components.map (sortOn id)) :=
  (dependencyAdjacency knowledge).graph.components_spec.perm (sortOn id)
    (fun c => perm_sortOn id c) (.refl _)

/-- **The component of a record**, in the closure. -/
theorem get_dependencyComponents {x : String} {c : List String} :
    (dependencyComponents knowledge).get x = some c
      ↔ c ∈ (dependencyAdjacency knowledge).graph.components.map (sortOn id) ∧ x ∈ c := by
  rw [dependencyComponents, get_foldl_setAll (dependencyComponents_spec knowledge).nodup]
  simp

/-- The graph of the required dependencies, as the validation has it. -/
def validationGraph (knowledge : KnowledgeGraph) : Adjacency :=
  adjacencyFor knowledge.relationships knowledge.current.byIdentity .dependsOn true

theorem edge_adjacencyFor {edges : List RelationshipEdge}
    {current : OrderedMap String KnowledgeRecord} {type : RelationshipType} {requiredOnly : Bool}
    (x y : String) : (adjacencyFor edges current type requiredOnly).graph.Edge x y
      ↔ TypedEdge edges current type requiredOnly x y := by
  show y ∈ neighbours (mapLists _ _) x ↔ _
  rw [mem_neighbours_mapLists fun _ _ => mem_sortUniqueCodePoints, neighbours, get_sortKeys]
  exact mem_neighbours_adjacencyMap

theorem edge_dependencyAdjacency (x y : String) :
    (dependencyAdjacency knowledge).graph.Edge x y ↔ DependencyEdge knowledge x y := by
  show y ∈ neighbours (mapLists _ _) x ↔ _
  rw [mem_neighbours_mapLists fun _ _ => mem_sortOn]
  exact mem_neighbours_dependencies

/-- The nodes of the validation are the records with a dependency. -/
theorem mem_keys_validationGraph {x : String} :
    x ∈ (validationGraph knowledge).map.keys ↔ ¬ Isolated knowledge x := by
  rw [mem_keys_iff, not_isolated_iff]
  show (mapLists _ _).has x = true ↔ _
  rw [has_mapLists, OrderedMap.has, get_sortKeys]
  exact has_adjacencyMap

/-- **Two lists of sorted classes of the same paths** have the same class of a
node. -/
theorem eq_of_mem_classes {g k : AdjacencyGraph String} {covered covered' : List String}
    {classes classes' : List (List String)} (h : g.Classes covered classes)
    (h' : k.Classes covered' classes') (hmutual : ∀ x y, g.Mutual x y ↔ k.Mutual x y)
    (hsorted : ∀ c ∈ classes, sortOn id c = c) (hsorted' : ∀ c ∈ classes', sortOn id c = c)
    {c c' : List String} (hc : c ∈ classes) (hc' : c' ∈ classes') {x : String} (hx : x ∈ c)
    (hx' : x ∈ c') : c = c' := by
  have hperm : c.Perm c' := by
    refine (List.perm_ext_iff_of_nodup ((List.nodup_flatten.mp h.nodup).1 c hc)
      ((List.nodup_flatten.mp h'.nodup).1 c' hc')).mpr fun y => ?_
    rw [h.same c hc x hx, h'.same c' hc' x hx', hmutual]
  rw [← hsorted c hc, ← hsorted' c' hc']
  exact sortOn_eq_of_perm hperm fun _ _ _ _ heq => heq

/-- What `dependencyComponents` finds is sorted. -/
theorem sortOn_of_mem_map {classes : List (List String)} :
    ∀ c ∈ classes.map (sortOn id), sortOn id c = c := by
  intro c hc
  obtain ⟨d, -, rfl⟩ := List.mem_map.mp hc
  exact sortOn_sortOn d

/-- **The two passes agree** on the records that have a dependency. -/
theorem mem_components_iff {c : List String} :
    c ∈ stronglyConnectedComponents (validationGraph knowledge)
      ↔ ∃ x, ¬ Isolated knowledge x ∧ (dependencyComponents knowledge).get x = some c := by
  have hspec := stronglyConnectedComponents_spec (validationGraph knowledge)
  have hspec' := dependencyComponents_spec knowledge
  have hmutual := AdjacencyGraph.mutual_congr (g := (validationGraph knowledge).graph)
    (k := (dependencyAdjacency knowledge).graph) fun x y =>
    (edge_adjacencyFor x y).trans (edge_dependencyAdjacency x y).symm
  have hsame : ∀ {d d' x}, d ∈ stronglyConnectedComponents (validationGraph knowledge) →
      d' ∈ (dependencyAdjacency knowledge).graph.components.map (sortOn id) → x ∈ d → x ∈ d' →
      d = d' := fun hd hd' hx hx' =>
    eq_of_mem_classes hspec hspec' hmutual (fun _ => sortOn_component) sortOn_of_mem_map hd hd' hx hx'
  constructor
  · intro hc
    obtain ⟨x, hx⟩ := List.exists_mem_of_ne_nil c (hspec.nonempty c hc)
    have hkey : x ∈ (validationGraph knowledge).map.keys :=
      (hspec.mem_flatten x).mp (List.mem_flatten.mpr ⟨c, hc, hx⟩)
    have hnode : x ∈ (dependencyAdjacency knowledge).graph.nodes := by
      obtain ⟨y, hy | hy⟩ := not_isolated_iff.mp (mem_keys_validationGraph.mp hkey)
      · exact ((dependencyAdjacency knowledge).graph.closed ((edge_dependencyAdjacency x y).mpr hy)).1
      · exact ((dependencyAdjacency knowledge).graph.closed ((edge_dependencyAdjacency y x).mpr hy)).2
    obtain ⟨c', hc', hx'⟩ := List.mem_flatten.mp ((hspec'.mem_flatten x).mpr hnode)
    refine ⟨x, mem_keys_validationGraph.mp hkey, get_dependencyComponents.mpr ?_⟩
    rw [hsame hc hc' hx hx']
    exact ⟨hc', hx'⟩
  · rintro ⟨x, hx, hget⟩
    obtain ⟨hc', hx'⟩ := get_dependencyComponents.mp hget
    obtain ⟨c, hc, hxc⟩ := List.mem_flatten.mp
      ((hspec.mem_flatten x).mpr (mem_keys_validationGraph.mpr hx))
    rw [← hsame hc hc' hxc hx']
    exact hc

/-! ## The validation -/

/-- Within the bounds, the validation goes through. -/
theorem validateRelationshipGraph_eq {prior : List Diagnostic} {limits : GraphLimits}
    (h : WithinBounds knowledge prior limits) :
    validateRelationshipGraph knowledge.relationships knowledge.current prior limits
      = { dependencyComponents := stronglyConnectedComponents (validationGraph knowledge)
          complete := true
          diagnostics := ([RelationshipType.refines, .verifiedBy].flatMap fun type =>
              (cyclicComponents (adjacencyFor knowledge.relationships
                knowledge.current.byIdentity type false)).map (cycle type))
            ++ (stronglyConnectedComponents (validationGraph knowledge)).flatMap largeDependency
            ++ knowledge.relationships.flatMap (incompleteDependency knowledge.current.byIdentity)
            ++ (sortOn (·.frontMatter.id) knowledge.current.records).flatMap
              (missingCheck knowledge.current.byIdentity knowledge.relationships) } := by
  rw [validateRelationshipGraph]
  have hprior : ¬ prior.any (fun d => decide (d.stage = "relationships")
      && decide (d.code = "lifecycle.knowledge.limit-exceeded")) = true := by
    rw [List.any_eq_true]
    rintro ⟨d, hd, hlimit⟩
    rw [Bool.and_eq_true, decide_eq_true_eq, decide_eq_true_eq] at hlimit
    exact h.prior d hd hlimit.1 hlimit.2
  have hdegrees : overDegree knowledge.relationships limits = [] := by
    refine List.eq_nil_iff_forall_not_mem.mpr fun id hid => ?_
    have hover := (List.mem_filter.mp (mem_sortUniqueCodePoints.mp hid)).2
    exact absurd (h.degrees id) (Nat.not_le_of_lt (of_decide_eq_true hover))
  rw [if_neg, if_neg (not_not.mpr hdegrees)]
  · rfl
  · rintro (hlimit | hnodes | hedges)
    · exact hprior hlimit
    · exact absurd h.nodes (Nat.not_le_of_lt hnodes)
    · exact absurd h.edges (Nat.not_le_of_lt hedges)

theorem text_injective {type type' : RelationshipType} (h : type.text = type'.text) :
    type = type' := by
  cases type <;> cases type' <;> first | rfl | exact absurd h (by decide)

/-- What else is reported has another code. -/
theorem code_of_other (edges : List RelationshipEdge)
    (current : OrderedMap String KnowledgeRecord) {d : Diagnostic}
    (h : (∃ c, d ∈ largeDependency c) ∨ (∃ edge, d ∈ incompleteDependency current edge)
      ∨ ∃ record, d ∈ missingCheck current edges record) :
    d.code ≠ "lifecycle.relationship.cycle" := by
  obtain ⟨c, hd⟩ | ⟨edge, hd⟩ | ⟨record, hd⟩ := h
  · unfold largeDependency at hd
    split at hd
    · rw [List.mem_singleton.mp hd]
      exact of_decide_eq_true rfl
    · cases hd
  · unfold incompleteDependency at hd
    split at hd
    · rw [List.mem_singleton.mp hd]
      exact of_decide_eq_true rfl
    · cases hd
  · unfold missingCheck at hd
    split at hd
    · rw [List.mem_singleton.mp hd]
      exact of_decide_eq_true rfl
    · cases hd

/-- **A cycle is reported exactly when a component of its type is cyclic.** -/
theorem reportsCycle_iff {prior : List Diagnostic} {limits : GraphLimits}
    (h : WithinBounds knowledge prior limits) {type : RelationshipType}
    (htype : type = .refines ∨ type = .verifiedBy) :
    ReportsCycle (validateRelationshipGraph knowledge.relationships knowledge.current prior limits)
        type
      ↔ ∃ c, c ∈ cyclicComponents (adjacencyFor knowledge.relationships
        knowledge.current.byIdentity type false) := by
  rw [ReportsCycle, validateRelationshipGraph_eq h]
  constructor
  · rintro ⟨d, hd, hcode, hfact⟩
    obtain hd | hmissing := List.mem_append.mp hd
    obtain hd | hincomplete := List.mem_append.mp hd
    obtain hcycle | hlarge := List.mem_append.mp hd
    · obtain ⟨type', -, hd⟩ := List.mem_flatMap.mp hcycle
      obtain ⟨c, hc, rfl⟩ := List.mem_map.mp hd
      obtain hpair | hpair := List.mem_pair.mp hfact
      · have hname : "type" = "component" := congrArg Prod.fst hpair
        exact absurd hname (by decide)
      · have htext := Json.string.inj (congrArg Prod.snd hpair)
        exact ⟨c, text_injective htext ▸ hc⟩
    · obtain ⟨c, -, hd⟩ := List.mem_flatMap.mp hlarge
      exact absurd hcode (code_of_other [] ∅ (.inl ⟨c, hd⟩))
    · obtain ⟨edge, -, hd⟩ := List.mem_flatMap.mp hincomplete
      exact absurd hcode (code_of_other [] _ (.inr (.inl ⟨edge, hd⟩)))
    · obtain ⟨record, -, hd⟩ := List.mem_flatMap.mp hmissing
      exact absurd hcode (code_of_other _ _ (.inr (.inr ⟨record, hd⟩)))
  · rintro ⟨c, hc⟩
    refine ⟨cycle type c, ?_, rfl, List.mem_pair.mpr (.inr rfl)⟩
    refine List.mem_append_left _ (List.mem_append_left _ (List.mem_append_left _ ?_))
    refine List.mem_flatMap.mpr ⟨type, ?_, List.mem_map_of_mem hc⟩
    exact List.mem_pair.mpr htype

/-- **The validation of a graph within the bounds is exact**, and so are the
components of any map of neighbours. -/
theorem graphLaw : (∀ a : Adjacency, a.graph.Classes a.map.keys (stronglyConnectedComponents a))
    ∧ ∀ (knowledge : KnowledgeGraph) (prior : List Diagnostic) (limits : GraphLimits),
      WithinBounds knowledge prior limits → GraphLaw knowledge
        (validateRelationshipGraph knowledge.relationships knowledge.current prior limits) := by
  refine ⟨stronglyConnectedComponents_spec, fun knowledge prior limits h => ⟨?_, ?_, ?_⟩⟩
  · rw [validateRelationshipGraph_eq h]
  · intro type htype
    rw [reportsCycle_iff h htype]
    have hedge : (adjacencyFor knowledge.relationships knowledge.current.byIdentity type
        false).graph.Edge = CycleEdge knowledge type :=
      funext fun x => funext fun y => propext ((edge_adjacencyFor x y).trans typedEdge_iff)
    have hspec := stronglyConnectedComponents_spec
      (adjacencyFor knowledge.relationships knowledge.current.byIdentity type false)
    constructor
    · rintro ⟨c, hc⟩
      obtain ⟨-, x, -, hcycle⟩ := mem_cyclicComponents_iff.mp hc
      exact ⟨x, hedge ▸ hcycle⟩
    · rintro ⟨x, hcycle⟩
      rw [← hedge] at hcycle
      obtain ⟨y, hxy, -⟩ := Relation.TransGen.head'_iff.mp hcycle
      have hkey := mem_sortOn.mp (AdjacencyGraph.closed _ hxy).1
      obtain ⟨c, hc, hx⟩ := List.mem_flatten.mp ((hspec.mem_flatten x).mpr hkey)
      exact ⟨c, mem_cyclicComponents_iff.mpr ⟨hc, x, hx, hcycle⟩⟩
  · intro c
    rw [validateRelationshipGraph_eq h]
    exact mem_components_iff

end

/-- An edge of the first revision of one record to that of another. -/
def firstEdge (type : RelationshipType) (source target : String) : RelationshipEdge where
  source := source
  sourceRevision := 1
  sourcePath := "records/behavior/" ++ source ++ ".md"
  type := type
  target := target
  targetRevision := some 1
  required := true
  digest := ""

/-- Two Behaviors that refine each other. -/
def refiningPair : KnowledgeGraph where
  current := contraryRecords
  relationships := [firstEdge .refines "behavior.left" "behavior.right",
    firstEdge .refines "behavior.right" "behavior.left"]

/-- The two are validated exactly: their cycle is reported. -/
theorem graphLaw_refiningPair : GraphLaw refiningPair
    (validateRelationshipGraph refiningPair.relationships refiningPair.current [] knowledgeLimits)
    := by
  refine graphLaw.2 refiningPair [] knowledgeLimits ⟨?_, by decide, by decide, fun id => ?_⟩
  · exact fun d hd => absurd hd List.not_mem_nil
  · exact (List.length_filter_le _ _).trans (by decide)

end Knowledge
