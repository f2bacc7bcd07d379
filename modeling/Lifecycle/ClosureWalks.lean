import Lifecycle.TreeListings

/-!
# Walks over listed trees

What the loop over the stack has found, in any order, and what is left for it:
every entry found was led to from the root, every tree found is on the stack or
has all its entries found (`Walked`). So when the stack is empty, what was found
is all there is to find (`Walked.complete`). Every tree has an entry and the
entries are bounded, so the stack becomes empty, or the walk is refused, however
the trees refer to each other (`walkTrees_terminates`).
-/

open Fallible Json ControlModel Knowledge SortedBy Carrier Segments

namespace ObjectClosure

variable {git : ClosureGit} {objectFormat : GitObjectFormat} {limits : CarrierLimits}
  {root : String}

/-! ## Paths -/

/-- Names one below the other, as a path. -/
def pathText (names : List String) : String :=
  String.ofList (['/'].intercalate (names.map String.toList))

theorem toList_pathText (names : List String) :
    (pathText names).toList = ['/'].intercalate (names.map String.toList) := String.toList_ofList

/-- The path of no names, and of no others, is empty. -/
theorem pathText_eq_empty_iff {names : List String} (h : ∀ n ∈ names, PathName n) :
    pathText names = "" ↔ names = [] := by
  have hne : ∀ x ∈ names.map String.toList, x ≠ [] := by
    intro x hx hnil
    obtain ⟨n, hn, rfl⟩ := List.mem_map.mp hx
    exact (h n hn).ne (String.toList_eq_nil_iff.mp hnil)
  rw [← String.toList_inj, toList_pathText]
  refine (intercalate_eq_nil_iff hne).trans ?_
  rw [List.map_eq_nil_iff]

theorem pathText_append {names : List String} (h : names ≠ []) (name : String) :
    (pathText (names ++ [name])).toList = (pathText names).toList ++ '/' :: name.toList := by
  have hmap : names.map String.toList ≠ [] := fun hnil => h (List.map_eq_nil_iff.mp hnil)
  rw [toList_pathText, toList_pathText, List.map_append, List.map_singleton,
    intercalate_append hmap (List.cons_ne_nil _ _)]
  simp [List.intercalate]

theorem free_names {names : List String} (h : ∀ n ∈ names, PathName n) :
    Free '/' (names.map String.toList) := by
  intro x hx
  obtain ⟨n, hn, rfl⟩ := List.mem_map.mp hx
  exact (h n hn).separator

/-- **A path has one sequence of names.** -/
theorem pathText_inj {names names' : List String} (h : ∀ n ∈ names, PathName n)
    (h' : ∀ n ∈ names', PathName n) (heq : pathText names = pathText names') : names = names' := by
  by_cases hnil : names = []
  · have hempty := (pathText_eq_empty_iff h).mpr hnil
    rw [heq, pathText_eq_empty_iff h'] at hempty
    rw [hnil, hempty]
  · have hnil' : names' ≠ [] := by
      intro hempty
      rw [← pathText_eq_empty_iff h', ← heq, pathText_eq_empty_iff h] at hempty
      exact hnil hempty
    have hlists := congrArg String.toList heq
    rw [toList_pathText, toList_pathText] at hlists
    have hmap := (intercalate_inj (fun hmap => hnil (List.map_eq_nil_iff.mp hmap))
      (fun hmap => hnil' (List.map_eq_nil_iff.mp hmap)) (free_names h) (free_names h')).mp hlists
    exact List.map_injective_iff.mpr (fun a b hab => String.toList_inj.mp hab) hmap

/-! ## What leads where -/

/-- The trees that are below the root, by the names that lead to them. -/
inductive Node (git : ClosureGit) (objectFormat : GitObjectFormat) (root : String) :
    List String → String → Prop
  | top : Node git objectFormat root [] root
  | child {names : List String} {tree : String} {ds : List DirectTreeEntry} {d : DirectTreeEntry} :
      Node git objectFormat root names tree → listTree git objectFormat tree = .ok ds → d ∈ ds →
      d.objectType = .tree → Node git objectFormat root (names ++ [d.name]) d.objectId

/-- The entries that are below the root. -/
inductive Led (git : ClosureGit) (objectFormat : GitObjectFormat) (root : String) :
    List String → DirectTreeEntry → Prop
  | entry {names : List String} {tree : String} {ds : List DirectTreeEntry} {d : DirectTreeEntry} :
      Node git objectFormat root names tree → listTree git objectFormat tree = .ok ds → d ∈ ds →
      Led git objectFormat root (names ++ [d.name]) d

theorem listTree_valid {tree : String} {ds : List DirectTreeEntry}
    (h : listTree git objectFormat tree = .ok ds) : ds ≠ [] ∧ ∀ d ∈ ds, ValidEntry objectFormat d := by
  simp only [listTree, bind_eq_ok, failIf_eq_ok, exists_unit, pure_eq_ok] at h
  obtain ⟨result, -, -, entries, hentries, hne, rfl⟩ := h
  exact ⟨fun hnil => hne (hnil ▸ rfl), parseDirectTree_valid hentries⟩

theorem Node.names {names : List String} {tree : String}
    (h : Node git objectFormat root names tree) : ∀ n ∈ names, PathName n := by
  induction h with
  | top => exact List.forall_mem_nil _
  | child _ hlist hd _ ih =>
    refine List.forall_mem_append.mpr ⟨ih, List.forall_mem_singleton.mpr ?_⟩
    exact ((listTree_valid hlist).2 _ hd).name

theorem Led.names {names : List String} {d : DirectTreeEntry}
    (h : Led git objectFormat root names d) : ∀ n ∈ names, PathName n := by
  cases h with
  | entry hnode hlist hd =>
    refine List.forall_mem_append.mpr ⟨hnode.names, List.forall_mem_singleton.mpr ?_⟩
    exact ((listTree_valid hlist).2 _ hd).name

theorem Led.valid {names : List String} {d : DirectTreeEntry}
    (h : Led git objectFormat root names d) : ValidEntry objectFormat d := by
  cases h with
  | entry _ hlist hd => exact (listTree_valid hlist).2 _ hd

/-- The tree an entry stands in. -/
theorem Led.parent {names : List String} {d : DirectTreeEntry}
    (h : Led git objectFormat root names d) : ∃ above tree ds, names = above ++ [d.name]
      ∧ Node git objectFormat root above tree ∧ listTree git objectFormat tree = .ok ds ∧ d ∈ ds := by
  cases h with
  | @entry above tree ds _ hnode hlist hd => exact ⟨above, tree, ds, rfl, hnode, hlist, hd⟩

/-- A tree that is led to is a node. -/
theorem Led.node {names : List String} {d : DirectTreeEntry}
    (h : Led git objectFormat root names d) (htree : d.objectType = .tree) :
    Node git objectFormat root names d.objectId := by
  cases h with
  | entry hnode hlist hd => exact .child hnode hlist hd htree

/-! ## One entry -/

/-- An entry, with the names that led to it and its own. -/
structure Found where
  names : List String
  entry : DirectTreeEntry

/-- The file an entry is. -/
def Found.file (f : Found) : FileEntry := ⟨pathText f.names, f.entry.objectId, f.entry.mode⟩

/-- An occurrence stands where some names lead. -/
structure Occurrence.At (o : Occurrence) (names : List String) : Prop where
  path : o.pathPrefix = pathText names
  depth : o.depth = names.length

theorem Occurrence.At.pathOf {o : Occurrence} {names : List String} (h : o.At names)
    (hnames : ∀ n ∈ names, PathName n) (name : String) :
    o.pathOf name = pathText (names ++ [name]) := by
  rw [Occurrence.pathOf, h.path]
  by_cases hnil : names = []
  · subst hnil
    rw [if_pos (show pathText [] = "" from rfl), ← String.toList_inj, toList_pathText]
    simp [List.intercalate]
  · rw [if_neg (fun hempty => hnil ((pathText_eq_empty_iff hnames).mp hempty)), ← String.toList_inj,
      pathText_append hnil]
    simp only [String.toList_append, List.append_assoc]
    rfl

/-- The occurrence of a tree below another. -/
def Occurrence.child (o : Occurrence) (d : DirectTreeEntry) : Occurrence :=
  ⟨d.objectId, o.pathOf d.name, o.depth + 1, o.ancestors ++ [d.objectId]⟩

/-- The walk with one entry more. -/
def Walk.enter (w : Walk) (o : Occurrence) (d : DirectTreeEntry) : Walk where
  expected := w.expected.set d.objectId d.objectType
  treeCache := w.treeCache
  fileEntries := if d.objectType = .tree then w.fileEntries
    else w.fileEntries ++ [⟨o.pathOf d.name, d.objectId, d.mode⟩]
  paths := w.paths ++ [o.pathOf d.name]
  pending := if d.objectType = .tree then o.child d :: w.pending else w.pending
  observedTreeEntries := w.observedTreeEntries + 1

theorem Occurrence.At.child {o : Occurrence} {names : List String} (h : o.At names)
    (hnames : ∀ n ∈ names, PathName n) (d : DirectTreeEntry) :
    (o.child d).At (names ++ [d.name]) := by
  refine ⟨h.pathOf hnames d.name, ?_⟩
  rw [List.length_append, List.length_singleton, ← h.depth]
  rfl

theorem pending_enter (w : Walk) (o : Occurrence) (d : DirectTreeEntry) :
    (w.enter o d).pending = if d.objectType = .tree then o.child d :: w.pending else w.pending := rfl

theorem allowedType_eq_some {d : DirectTreeEntry} {type : ObjectType}
    (h : allowedType d = some type) : type = d.objectType := by
  unfold allowedType at h
  split at h
  · next hallowed => exact (Option.some.inj h).symm.trans hallowed.2.symm
  · split at h
    · next hallowed => exact (Option.some.inj h).symm.trans hallowed.2.symm
    · cases h

/-- **What an accepted entry passed.** -/
structure Enters (limits : CarrierLimits) (w : Walk) (o : Occurrence) (d : DirectTreeEntry) :
    Prop where
  count : w.observedTreeEntries + 1 ≤ limits.maximumTreeEntries
  bytes : byteLength (o.pathOf d.name) ≤ limits.maximumRepositoryPathBytes
  fresh : o.pathOf d.name ∉ w.paths
  allowed : allowedType d = some d.objectType
  consistent : ∀ type, w.expected.get d.objectId = some type → type = d.objectType

theorem visitEntry_eq_ok {w w' : Walk} {o : Occurrence} {d : DirectTreeEntry}
    (h : visitEntry limits o w d = .ok w') : Enters limits w o d ∧ w' = w.enter o d := by
  simp only [visitEntry, bind_eq_ok, failIf_eq_ok, exists_unit, orFail_eq_ok] at h
  obtain ⟨hcount, hbytes, hfresh, allowed, hallowed, hconsistent, -, h⟩ := h
  obtain rfl := allowedType_eq_some hallowed
  refine ⟨⟨Nat.not_lt.mp hcount, Nat.not_lt.mp hbytes, hfresh, hallowed, fun type htype => ?_⟩, ?_⟩
  · rw [htype] at hconsistent
    by_contra hne
    exact hconsistent (by simp [hne])
  · unfold Walk.enter
    split at h
    · next htree =>
      simp only [bind_eq_ok, exists_unit, pure_eq_ok] at h
      rw [← h.2, if_pos htree, if_pos htree]
      rfl
    · next htree =>
      rw [pure_eq_ok] at h
      rw [← h, if_neg htree, if_neg htree]

/-! ## What was found -/

/-- Where a tree that was found stands. -/
def Stands (root : String) (found : List Found) (names : List String) (tree : String) : Prop :=
  (names = [] ∧ tree = root)
    ∨ ∃ t, ⟨names, t⟩ ∈ found ∧ t.objectType = .tree ∧ t.objectId = tree

/-- What the inspection expects of an identity, by the entries found. -/
def Expects (root : String) (found : List Found) (id : String) (type : ObjectType) : Prop :=
  (id = root ∧ type = .tree) ∨ ∃ f ∈ found, f.entry.objectId = id ∧ f.entry.objectType = type

/-- **What a walk has found.** -/
structure Visited (git : ClosureGit) (objectFormat : GitObjectFormat) (limits : CarrierLimits)
    (root : String) (found : List Found) (w : Walk) : Prop where
  cached : ∀ tree ds, w.treeCache.get tree = some ds → listTree git objectFormat tree = .ok ds
  observed : w.observedTreeEntries = found.length
  count : found.length ≤ limits.maximumTreeEntries
  paths : w.paths = found.map fun f => pathText f.names
  distinct : w.paths.Nodup
  bytes : ∀ f ∈ found, byteLength (pathText f.names) ≤ limits.maximumRepositoryPathBytes
  depth : ∀ f ∈ found, f.names.length ≤ limits.maximumTreeDepth + 1
  files : w.fileEntries
    = (found.filter fun f => decide (f.entry.objectType ≠ .tree)).map Found.file
  allowed : ∀ f ∈ found, allowedType f.entry = some f.entry.objectType
  expected : ∀ id type, w.expected.get id = some type ↔ Expects root found id type
  led : ∀ f ∈ found, Led git objectFormat root f.names f.entry
  waiting : ∀ o ∈ w.pending, ∃ names, Stands root found names o.tree ∧ o.At names

theorem Stands.mono {found found' : List Found} (h : ∀ f ∈ found, f ∈ found') {names : List String}
    {tree : String} (hstands : Stands root found names tree) : Stands root found' names tree := by
  rcases hstands with htop | ⟨t, ht, htree⟩
  · exact .inl htop
  · exact .inr ⟨t, h _ ht, htree⟩

theorem Visited.node {found : List Found} {w : Walk}
    (h : Visited git objectFormat limits root found w) {names : List String} {tree : String}
    (hstands : Stands root found names tree) : Node git objectFormat root names tree := by
  rcases hstands with ⟨rfl, rfl⟩ | ⟨t, ht, htree, rfl⟩
  · exact .top
  · exact (h.led _ ht).node htree

/-- What is expected of the identities, with one entry more. -/
theorem expects_append {found : List Found} {f : Found} {id : String} {type : ObjectType} :
    Expects root (found ++ [f]) id type ↔ Expects root found id type
      ∨ (f.entry.objectId = id ∧ f.entry.objectType = type) := by
  simp only [Expects, List.mem_append, List.mem_singleton]
  constructor
  · rintro (htop | ⟨g, hg | rfl, hsame⟩)
    · exact .inl (.inl htop)
    · exact .inl (.inr ⟨g, hg, hsame⟩)
    · exact .inr hsame
  · rintro ((htop | ⟨g, hg, hsame⟩) | hsame)
    · exact .inl htop
    · exact .inr ⟨g, .inl hg, hsame⟩
    · exact .inr ⟨f, .inr rfl, hsame⟩

/-- **One entry of a tree**: it is found, and if it is a tree it is on the stack. -/
theorem Visited.enter {found : List Found} {w : Walk} {o : Occurrence} {names : List String}
    {ds : List DirectTreeEntry} {d : DirectTreeEntry}
    (h : Visited git objectFormat limits root found w) (hat : o.At names)
    (hnode : Node git objectFormat root names o.tree)
    (hlist : listTree git objectFormat o.tree = .ok ds) (hd : d ∈ ds)
    (hdepth : o.depth ≤ limits.maximumTreeDepth) (henters : Enters limits w o d) :
    Visited git objectFormat limits root (found ++ [⟨names ++ [d.name], d⟩]) (w.enter o d) := by
  have hpath := hat.pathOf hnode.names d.name
  have hgrown : ∀ f ∈ found, f ∈ found ++ [⟨names ++ [d.name], d⟩] :=
    fun f hf => List.mem_append_left _ hf
  refine ⟨h.cached, ?_, ?_, ?_, ?_, ?_, ?_, ?_, ?_, fun id type => ?_, ?_, ?_⟩
  · rw [List.length_append, List.length_singleton, ← h.observed]
    rfl
  · rw [List.length_append, List.length_singleton, ← h.observed]
    exact henters.count
  · show w.paths ++ [o.pathOf d.name] = _
    rw [List.map_append, h.paths, hpath]
    rfl
  · show (w.paths ++ [o.pathOf d.name]).Nodup
    rw [← List.concat_eq_append]
    exact h.distinct.concat henters.fresh
  · refine List.forall_mem_append.mpr ⟨h.bytes, List.forall_mem_singleton.mpr ?_⟩
    exact hpath ▸ henters.bytes
  · refine List.forall_mem_append.mpr ⟨h.depth, List.forall_mem_singleton.mpr ?_⟩
    rw [List.length_append, List.length_singleton, ← hat.depth]
    omega
  · show (if d.objectType = .tree then w.fileEntries else _) = _
    rw [List.filter_append, List.map_append, h.files]
    by_cases htree : d.objectType = .tree
    · rw [if_pos htree]
      simp [htree]
    · rw [if_neg htree, hpath]
      simp [htree, Found.file]
  · exact List.forall_mem_append.mpr ⟨h.allowed, List.forall_mem_singleton.mpr henters.allowed⟩
  · show (w.expected.set d.objectId d.objectType).get id = some type ↔ _
    rw [OrderedMap.get_set, expects_append, ← h.expected]
    by_cases hid : id = d.objectId
    · rw [if_pos hid, hid, Option.some.injEq]
      refine ⟨fun htype => .inr ⟨rfl, htype⟩, ?_⟩
      rintro (hprior | ⟨-, htype⟩)
      · exact (henters.consistent type hprior).symm
      · exact htype
    · rw [if_neg hid]
      exact (or_iff_left fun hsame => hid hsame.1.symm).symm
  · refine List.forall_mem_append.mpr ⟨h.led, List.forall_mem_singleton.mpr ?_⟩
    exact .entry hnode hlist hd
  · have hothers : ∀ o' ∈ w.pending, ∃ names', Stands root (found ++ [⟨names ++ [d.name], d⟩]) names'
        o'.tree ∧ o'.At names' := by
      intro o' ho'
      obtain ⟨names', hstands, hat'⟩ := h.waiting o' ho'
      exact ⟨names', hstands.mono hgrown, hat'⟩
    intro o' ho'
    by_cases htree : d.objectType = .tree
    · rw [pending_enter, if_pos htree, List.mem_cons] at ho'
      rcases ho' with rfl | ho'
      · exact ⟨names ++ [d.name], .inr ⟨d, List.mem_append_right _ (List.mem_singleton_self _), htree,
          rfl⟩, hat.child hnode.names d⟩
      · exact hothers o' ho'
    · rw [pending_enter, if_neg htree] at ho'
      exact hothers o' ho'

/-- The stack keeps what is on it. -/
theorem mem_pending_enter {w : Walk} {o o' : Occurrence} {d : DirectTreeEntry}
    (h : o' ∈ w.pending) : o' ∈ (w.enter o d).pending := by
  rw [pending_enter]
  split
  · exact List.mem_cons_of_mem _ h
  · exact h

/-! ## One tree -/

/-- The entries of one tree, found below some names. -/
def foundIn (names : List String) (ds : List DirectTreeEntry) : List Found :=
  ds.map fun d => ⟨names ++ [d.name], d⟩

/-- **The entries of one tree are found**, and its trees are on the stack. -/
theorem Visited.enterAll {found : List Found} {w w' : Walk} {o : Occurrence} {names : List String}
    {ds es : List DirectTreeEntry} (h : Visited git objectFormat limits root found w)
    (hat : o.At names) (hnode : Node git objectFormat root names o.tree)
    (hlist : listTree git objectFormat o.tree = .ok ds) (hes : ∀ d ∈ es, d ∈ ds)
    (hdepth : o.depth ≤ limits.maximumTreeDepth)
    (hreplay : replay (visitEntry limits o) w es = .ok w') :
    Visited git objectFormat limits root (found ++ foundIn names es) w'
      ∧ (∀ o' ∈ w.pending, o' ∈ w'.pending)
      ∧ ∀ d ∈ es, d.objectType = .tree →
        ∃ o' ∈ w'.pending, o'.tree = d.objectId ∧ o'.At (names ++ [d.name]) := by
  induction es generalizing found w with
  | nil =>
    rw [replay_nil, Except.ok.injEq] at hreplay
    subst hreplay
    rw [foundIn, List.map_nil, List.append_nil]
    exact ⟨h, fun o' ho' => ho', List.forall_mem_nil _⟩
  | cons d es ih =>
    obtain ⟨hd, hes⟩ := List.forall_mem_cons.mp hes
    obtain ⟨next, hvisit, hreplay⟩ := bind_eq_ok.mp (replay_cons.symm.trans hreplay)
    obtain ⟨henters, rfl⟩ := visitEntry_eq_ok hvisit
    obtain ⟨hvisited, hkept, htrees⟩ := ih (h.enter hat hnode hlist hd hdepth henters) hes hreplay
    rw [List.append_assoc] at hvisited
    refine ⟨hvisited, fun o' ho' => hkept o' (mem_pending_enter ho'),
      List.forall_mem_cons.mpr ⟨fun htree => ?_, htrees⟩⟩
    refine ⟨o.child d, hkept _ ?_, rfl, hat.child hnode.names d⟩
    rw [pending_enter, if_pos htree]
    exact List.mem_cons_self

/-- A tree from the cache is the one Git lists. -/
theorem directTreeEntries_eq_ok {tree : String} {cache cache' : TreeCache}
    {ds : List DirectTreeEntry}
    (hcache : ∀ tree ds, cache.get tree = some ds → listTree git objectFormat tree = .ok ds)
    (h : directTreeEntries git objectFormat tree cache = .ok (ds, cache')) :
    listTree git objectFormat tree = .ok ds
      ∧ ∀ tree ds, cache'.get tree = some ds → listTree git objectFormat tree = .ok ds := by
  unfold directTreeEntries at h
  cases hcached : cache.get tree with
  | some cached =>
    rw [hcached] at h
    simp only [pure_eq_ok, Prod.mk.injEq] at h
    obtain ⟨rfl, rfl⟩ := h
    exact ⟨hcache tree cached hcached, hcache⟩
  | none =>
    rw [hcached] at h
    simp only [bind_eq_ok, pure_eq_ok, Prod.mk.injEq] at h
    obtain ⟨entries, hentries, rfl, rfl⟩ := h
    refine ⟨hentries, fun tree' ds' hget => ?_⟩
    rw [OrderedMap.get_set] at hget
    split at hget
    · next heq =>
      obtain rfl := Option.some.inj hget
      rw [heq]
      exact hentries
    · exact hcache tree' ds' hget

/-- A tree is on the stack, or all its entries are found. -/
def Expanded (git : ClosureGit) (objectFormat : GitObjectFormat) (found : List Found)
    (pending : List Occurrence) (names : List String) (tree : String) : Prop :=
  (∃ o ∈ pending, o.tree = tree ∧ o.At names)
    ∨ ∃ ds, listTree git objectFormat tree = .ok ds ∧ ∀ f ∈ foundIn names ds, f ∈ found

/-- **Nothing is forgotten**: the trees found, the root among them, are on the
stack or expanded. -/
structure Walked (git : ClosureGit) (objectFormat : GitObjectFormat) (limits : CarrierLimits)
    (root : String) (found : List Found) (w : Walk) : Prop
    extends Visited git objectFormat limits root found w where
  expanded : ∀ names tree, Stands root found names tree →
    Expanded git objectFormat found w.pending names tree

theorem walked_startWalk : Walked git objectFormat limits root [] (startWalk root) := by
  have hat : (⟨root, "", 0, [root]⟩ : Occurrence).At [] := ⟨rfl, rfl⟩
  refine ⟨⟨?_, rfl, Nat.zero_le _, rfl, List.nodup_nil, List.forall_mem_nil _, List.forall_mem_nil _,
    rfl, List.forall_mem_nil _, fun id type => ?_, List.forall_mem_nil _,
    List.forall_mem_singleton.mpr ⟨[], .inl ⟨rfl, rfl⟩, hat⟩⟩, ?_⟩
  · intro tree ds hget
    cases hget
  · show ((∅ : OrderedMap String ObjectType).set root .tree).get id = some type ↔ _
    simp only [OrderedMap.get_set, OrderedMap.get_empty, Expects, List.not_mem_nil, false_and,
      exists_false, or_false]
    by_cases hid : id = root
    · rw [if_pos hid, Option.some.injEq]
      exact ⟨fun htype => ⟨hid, htype.symm⟩, fun h => h.2.symm⟩
    · rw [if_neg hid]
      exact iff_of_false (Option.some_ne_none type).symm fun h => hid h.1
  · rintro names tree (⟨rfl, rfl⟩ | ⟨t, ht, -⟩)
    · exact .inl ⟨_, List.mem_singleton_self _, rfl, hat⟩
    · cases ht

/-- **One tree of the stack.** -/
theorem Walked.visitTree {found : List Found} {w w' : Walk} {o : Occurrence}
    {others : List Occurrence} (h : Walked git objectFormat limits root found w)
    (hpending : w.pending = o :: others)
    (hvisit : visitTree git objectFormat limits w o others = .ok w') :
    ∃ found', Walked git objectFormat limits root found' w' ∧ found.length < found'.length := by
  simp only [ObjectClosure.visitTree, bind_eq_ok, failIf_eq_ok, exists_unit, Prod.exists] at hvisit
  obtain ⟨hdepth, ds, cache, hentries, hreplay⟩ := hvisit
  obtain ⟨hlist, hcached⟩ := directTreeEntries_eq_ok h.cached hentries
  obtain ⟨names, hstands, hat⟩ := h.waiting o (hpending ▸ List.mem_cons_self)
  have hothers : ∀ o' ∈ others, o' ∈ w.pending := by
    intro o' ho'
    rw [hpending]
    exact List.mem_cons_of_mem o ho'
  have hstart : Visited git objectFormat limits root found
      { w with pending := others, treeCache := cache } :=
    ⟨hcached, h.observed, h.count, h.paths, h.distinct, h.bytes, h.depth, h.files, h.allowed,
      h.expected, h.led, fun o' ho' => h.waiting o' (hothers o' ho')⟩
  obtain ⟨hvisited, hkept, htrees⟩ := hstart.enterAll hat (h.node hstands) hlist (fun d hd => hd)
    (Nat.not_lt.mp hdepth) hreplay
  refine ⟨found ++ foundIn names ds, ⟨hvisited, ?_⟩, ?_⟩
  · have hexpanded : ∀ names' tree', Stands root found names' tree' →
        Expanded git objectFormat (found ++ foundIn names ds) w'.pending names' tree' := by
      intro names' tree' hstands'
      rcases h.expanded names' tree' hstands' with ⟨o', ho', htree', hat'⟩ | ⟨ds', hlist', hfound⟩
      · rw [hpending, List.mem_cons] at ho'
        rcases ho' with rfl | ho'
        · -- the tree that was just expanded: its path determines its names
          have hnames := pathText_inj (h.node hstands).names (h.node hstands').names
            (hat.path.symm.trans hat'.path)
          refine .inr ⟨ds, htree' ▸ hlist, fun f hf => ?_⟩
          rw [← hnames] at hf
          exact List.mem_append_right found hf
        · exact .inl ⟨o', hkept o' ho', htree', hat'⟩
      · exact .inr ⟨ds', hlist', fun f hf => List.mem_append_left _ (hfound f hf)⟩
    rintro names' tree' (htop | ⟨t, ht, htree, hobject⟩)
    · exact hexpanded names' tree' (.inl htop)
    · rcases List.mem_append.mp ht with ht | ht
      · exact hexpanded names' tree' (.inr ⟨t, ht, htree, hobject⟩)
      · obtain ⟨d, hd, heq⟩ := List.mem_map.mp ht
        obtain ⟨rfl, rfl⟩ := Found.mk.inj heq
        obtain ⟨o', ho', htree', hat'⟩ := htrees d hd htree
        exact .inl ⟨o', ho', htree'.trans hobject, hat'⟩
  · rw [List.length_append, foundIn, List.length_map]
    have hpos := List.length_pos_of_ne_nil (listTree_valid hlist).1
    omega

/-! ## The whole walk -/

/-- **A walk that ended** has an empty stack, and has forgotten nothing. -/
theorem Walked.walkTrees {found : List Found} {fuel : Nat} {w w' : Walk}
    (h : Walked git objectFormat limits root found w)
    (hwalk : walkTrees git objectFormat limits fuel w = some (.ok w')) :
    w'.pending = [] ∧ ∃ found', Walked git objectFormat limits root found' w' := by
  induction fuel generalizing found w with
  | zero =>
    rw [ObjectClosure.walkTrees, Option.ite_none_right_eq_some, Option.some.injEq,
      Except.ok.injEq] at hwalk
    exact ⟨hwalk.2 ▸ hwalk.1, found, hwalk.2 ▸ h⟩
  | succ fuel ih =>
    unfold ObjectClosure.walkTrees at hwalk
    split at hwalk
    · next hpending =>
      obtain rfl := Except.ok.inj (Option.some.inj hwalk)
      exact ⟨hpending, found, h⟩
    · next o others hpending =>
      split at hwalk
      · next next hvisit =>
        obtain ⟨found', hnext, -⟩ := h.visitTree hpending hvisit
        exact ih hnext hwalk
      · cases Option.some.inj hwalk

/-- **Every walk ends**: each tree takes one entry at least, and there are only
so many of them. -/
theorem Walked.walkTrees_ne_none {found : List Found} {fuel : Nat} {w : Walk}
    (h : Walked git objectFormat limits root found w)
    (hfuel : limits.maximumTreeEntries < found.length + fuel) :
    ObjectClosure.walkTrees git objectFormat limits fuel w ≠ none := by
  induction fuel generalizing found w with
  | zero => exact absurd (Nat.lt_of_lt_of_le hfuel h.count) (Nat.lt_irrefl _)
  | succ fuel ih =>
    unfold ObjectClosure.walkTrees
    split
    · exact Option.some_ne_none _
    · next o others hpending =>
      split
      · next next hvisit =>
        obtain ⟨found', hnext, hgrown⟩ := h.visitTree hpending hvisit
        exact ih hnext (by omega)
      · exact Option.some_ne_none _

/-- More fuel changes nothing. -/
theorem walkTrees_mono {fuel more : Nat} {w : Walk} {result : Except FoundationError Walk}
    (h : walkTrees git objectFormat limits fuel w = some result) :
    walkTrees git objectFormat limits (fuel + more) w = some result := by
  induction fuel generalizing w with
  | zero =>
    rw [walkTrees, Option.ite_none_right_eq_some] at h
    obtain ⟨hpending, hresult⟩ := h
    cases more with
    | zero => rw [Nat.zero_add, walkTrees, if_pos hpending, hresult]
    | succ more =>
      rw [Nat.zero_add, walkTrees]
      simp only [hpending, hresult]
  | succ fuel ih =>
    rw [Nat.add_right_comm]
    cases hpending : w.pending with
    | nil =>
      simp only [walkTrees, hpending] at h ⊢
      exact h
    | cons o others =>
      simp only [walkTrees, hpending] at h ⊢
      cases hvisit : visitTree git objectFormat limits w o others with
      | ok next =>
        simp only [hvisit] at h ⊢
        exact ih h
      | error e =>
        simp only [hvisit] at h ⊢
        exact h

/-- **With an empty stack, everything is found.** -/
theorem Walked.stands {found : List Found} {w : Walk}
    (h : Walked git objectFormat limits root found w) (hpending : w.pending = [])
    {names : List String} {tree : String} (hnode : Node git objectFormat root names tree) :
    Stands root found names tree
      ∧ ∃ ds, listTree git objectFormat tree = .ok ds ∧ ∀ f ∈ foundIn names ds, f ∈ found := by
  have hlisted : ∀ {names tree}, Stands root found names tree →
      ∃ ds, listTree git objectFormat tree = .ok ds ∧ ∀ f ∈ foundIn names ds, f ∈ found := by
    intro names tree hstands
    refine (h.expanded names tree hstands).resolve_left ?_
    rintro ⟨o, ho, -⟩
    rw [hpending] at ho
    cases ho
  induction hnode with
  | top => exact ⟨.inl ⟨rfl, rfl⟩, hlisted (.inl ⟨rfl, rfl⟩)⟩
  | @child names tree ds d _ hlist hd htree ih =>
    obtain ⟨-, ds', hlist', hfound⟩ := ih
    obtain rfl := Except.ok.inj (hlist.symm.trans hlist')
    have hstands : Stands root found (names ++ [d.name]) d.objectId :=
      .inr ⟨d, hfound _ (List.mem_map_of_mem hd), htree, rfl⟩
    exact ⟨hstands, hlisted hstands⟩

end ObjectClosure
