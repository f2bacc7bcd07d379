import Lifecycle.ClosureWalks
import Lifecycle.ObjectInventories
import Lifecycle.TextOrder

/-!
# The closure is exact

What a store holds below a tree, and that the inspection of the tree finds just
that (`inspectCandidateRevisionCarrierClosure_exact`): the objects of the closure
are the objects that names lead to from the root, each once, and its entries are
the blobs among them under all their paths. Each tree that was walked is listed
by Git as the store has it, since the answers about the objects say that it is a
tree of the store.
-/

open Fallible Json ControlModel Knowledge SortedBy Comparison Carrier Segments

namespace ObjectClosure

/-! ## What a store holds below a tree -/

/-- **The objects that names lead to** from a root. -/
inductive Leads (store : ObjectStore) (root : String) : List (List UInt8) → String → Prop
  | top : Leads store root [] root
  | entry {names : List (List UInt8)} {id : String} {n : Nat} {es : List StoredEntry}
      {e : StoredEntry} : Leads store root names id → store id = some (.tree n es) → e ∈ es →
      Leads store root (names ++ [e.name]) e.objectId

/-- An entry below the root, with the names that lead to it and its own. -/
inductive EntryAt (store : ObjectStore) (root : String) : List (List UInt8) → StoredEntry → Prop
  | entry {names : List (List UInt8)} {id : String} {n : Nat} {es : List StoredEntry}
      {e : StoredEntry} : Leads store root names id → store id = some (.tree n es) → e ∈ es →
      EntryAt store root (names ++ [e.name]) e

theorem EntryAt.leads {store : ObjectStore} {root : String} {names : List (List UInt8)}
    {e : StoredEntry} (h : EntryAt store root names e) : Leads store root names e.objectId := by
  cases h with
  | entry hleads hstore he => exact .entry hleads hstore he

/-- **What is below the root is within the limits.** -/
structure WithinLimits (store : ObjectStore) (limits : CarrierLimits) (root : String) : Prop where
  treeEntries : ∃ all : List (List (List UInt8)), all.Nodup
    ∧ (∀ names, names ∈ all ↔ ∃ e, EntryAt store root names e)
    ∧ all.length ≤ limits.maximumTreeEntries
  depth : ∀ names id n es, Leads store root names id → store id = some (.tree n es) →
    names.length ≤ limits.maximumTreeDepth
  paths : ∀ names e, EntryAt store root names e →
    ([47].intercalate names).length ≤ limits.maximumRepositoryPathBytes

/-- **A closure is exact**: its objects are those that are reachable, as they
are in the store, and its entries are the blobs under all their paths. -/
structure ExactClosure (store : ObjectStore) (limits : CarrierLimits) (closure : CarrierClosure) :
    Prop where
  reachable : ∀ id, (∃ object ∈ closure.objectInventory, object.objectId = id)
    ↔ ∃ names, Leads store closure.rootTree names id
  objects : ∀ object ∈ closure.objectInventory, ∃ o, store object.objectId = some o
    ∧ object.objectType = o.typeText ∧ object.byteLength = o.byteLength
  objectsOrdered : closure.objectInventory.Pairwise fun a b =>
    codeUnitLe a.objectId b.objectId = true ∧ a.objectId ≠ b.objectId
  files : ∀ entry, entry ∈ closure.treeEntries ↔ ∃ names e n,
    EntryAt store closure.rootTree names e ∧ store e.objectId = some (.blob n)
      ∧ utf8Bytes entry.path = [47].intercalate names ∧ entry.objectId = e.objectId
      ∧ entry.mode = String.ofList e.mode ∧ entry.byteLength = n
  filesOrdered : closure.treeEntries.Pairwise fun a b =>
    codePointLe a.path b.path = true ∧ a.path ≠ b.path
  segments : ∀ names e, EntryAt store closure.rootTree names e →
    ∀ name ∈ names, ∃ text, utf8Bytes text = name ∧ PathName text
  objectCount : closure.objectInventory.length ≤ limits.maximumObjects
  objectBytes : (closure.objectInventory.map (·.byteLength)).sum ≤ limits.maximumAggregateObjectBytes
  within : WithinLimits store limits closure.rootTree

/-! ## Paths as bytes -/

theorem utf8Bytes_injective : Function.Injective utf8Bytes := by
  intro a b h
  have hdecode := congrArg decodeUtf8 h
  rw [utf8Bytes_eq, utf8Bytes_eq, decodeUtf8_utf8, decodeUtf8_utf8] at hdecode
  rw [← String.ofList_toList (s := a), Option.some.inj hdecode, String.ofList_toList]

theorem utf8_intercalate (xs : List (List Char)) :
    utf8 (['/'].intercalate xs) = [47].intercalate (xs.map utf8) := by
  induction xs with
  | nil => rfl
  | cons x xs ih =>
    cases xs with
    | nil => rw [List.map_singleton, List.intercalate_singleton, List.intercalate_singleton]
    | cons x' xs =>
      rw [List.intercalate_cons_cons, List.map_cons, List.map_cons, List.intercalate_cons_cons,
        ← List.map_cons, ← ih, utf8_append, utf8_append]
      rfl

/-- The bytes of a path are the names with the byte of `/` between them. -/
theorem utf8Bytes_pathText (names : List String) :
    utf8Bytes (pathText names) = [47].intercalate (names.map utf8Bytes) := by
  rw [utf8Bytes_eq, toList_pathText, utf8_intercalate, List.map_map]
  congr 2
  funext name
  exact (utf8Bytes_eq name).symm

/-! ## A finished walk -/

variable {git : ClosureGit} {objectFormat : GitObjectFormat} {limits : CarrierLimits}
  {root : String} {store : ObjectStore} {found : List Found} {w : Walk}

/-- **A walk that ended, its objects told by the store.** -/
structure Inspected (git : ClosureGit) (objectFormat : GitObjectFormat) (limits : CarrierLimits)
    (root : String) (store : ObjectStore) (found : List Found) (w : Walk) : Prop where
  walked : Walked git objectFormat limits root found w
  ended : w.pending = []
  told : ∀ id type, w.expected.get id = some type → ∃ o, store id = some o ∧ type.text = o.typeText
  listed : ∀ id n es ds, store id = some (.tree n es) → listTree git objectFormat id = .ok ds →
    EntriesOf es ds

/-- The object an identity is expected to be. -/
theorem Inspected.object (h : Inspected git objectFormat limits root store found w) {id : String}
    {type : ObjectType} (hexpects : Expects root found id type) :
    ∃ o, store id = some o ∧ type.text = o.typeText :=
  h.told id type ((h.walked.expected id type).mpr hexpects)

theorem eq_tree_of_text {o : StoredObject} (h : ObjectType.tree.text = o.typeText) :
    ∃ n es, o = .tree n es := by
  cases o with
  | tree n es => exact ⟨n, es, rfl⟩
  | blob n => simp [ObjectType.text, StoredObject.typeText] at h
  | commit n => simp [ObjectType.text, StoredObject.typeText] at h
  | tag n => simp [ObjectType.text, StoredObject.typeText] at h

theorem eq_blob_of_text {o : StoredObject} (h : ObjectType.blob.text = o.typeText) :
    ∃ n, o = .blob n := by
  cases o with
  | blob n => exact ⟨n, rfl⟩
  | tree n es => simp [ObjectType.text, StoredObject.typeText] at h
  | commit n => simp [ObjectType.text, StoredObject.typeText] at h
  | tag n => simp [ObjectType.text, StoredObject.typeText] at h

theorem text_inj {a b : ObjectType} (h : a.text = b.text) : a = b := by
  revert h
  cases a <;> cases b <;> decide +kernel

/-- **A tree that stands is a tree of the store**, and all its entries are found. -/
theorem Inspected.expanded (h : Inspected git objectFormat limits root store found w)
    {names : List String} {tree : String} (hstands : Stands root found names tree) :
    ∃ n es ds, store tree = some (.tree n es) ∧ listTree git objectFormat tree = .ok ds
      ∧ EntriesOf es ds ∧ ∀ f ∈ foundIn names ds, f ∈ found := by
  have hexpects : Expects root found tree .tree := by
    rcases hstands with ⟨-, rfl⟩ | ⟨t, ht, htree, hobject⟩
    · exact .inl ⟨rfl, rfl⟩
    · exact .inr ⟨_, ht, hobject, htree⟩
  obtain ⟨o, ho, htext⟩ := h.object hexpects
  obtain ⟨n, es, rfl⟩ := eq_tree_of_text htext
  obtain ⟨-, ds, hlist, hfound⟩ := h.walked.stands h.ended (h.walked.node hstands)
  exact ⟨n, es, ds, ho, hlist, h.listed tree n es ds ho hlist, hfound⟩

/-- **Names that lead to a tree for Git** lead to it in the store. -/
theorem Inspected.leads (h : Inspected git objectFormat limits root store found w)
    {names : List String} {tree : String} (hnode : Node git objectFormat root names tree) :
    Leads store root (names.map utf8Bytes) tree := by
  induction hnode with
  | top => exact .top
  | @child names tree ds d hnode hlist hd _ ih =>
    obtain ⟨n, es, ds', hstore, hlist', hentries, -⟩ :=
      h.expanded (h.walked.stands h.ended hnode).1
    obtain rfl := Except.ok.inj (hlist.symm.trans hlist')
    obtain ⟨e, he, hread⟩ := hentries.exists_stored hd
    rw [List.map_append, List.map_singleton, hread.name, hread.objectId]
    exact .entry ih hstore he

/-- **What was found is in the store.** -/
theorem Inspected.entryAt (h : Inspected git objectFormat limits root store found w) {f : Found}
    (hf : f ∈ found) :
    ∃ e, EntryAt store root (f.names.map utf8Bytes) e ∧ e.ReadAs f.entry := by
  obtain ⟨names, tree, ds, hnames, hnode, hlist, hd⟩ := (h.walked.led f hf).parent
  obtain ⟨n, es, ds', hstore, hlist', hentries, -⟩ := h.expanded (h.walked.stands h.ended hnode).1
  obtain rfl := Except.ok.inj (hlist.symm.trans hlist')
  obtain ⟨e, he, hread⟩ := hentries.exists_stored hd
  refine ⟨e, ?_, hread⟩
  rw [hnames, List.map_append, List.map_singleton, hread.name]
  exact .entry (h.leads hnode) hstore he

/-- A place in the store that the walk came to. -/
def Came (root : String) (found : List Found) (names : List (List UInt8)) (id : String) : Prop :=
  (names = [] ∧ id = root)
    ∨ ∃ f ∈ found, f.names.map utf8Bytes = names ∧ f.entry.objectId = id

/-- A tree of the store that the walk came to stands there. -/
theorem Inspected.stands_of_came (h : Inspected git objectFormat limits root store found w)
    {names : List (List UInt8)} {id : String} {n : Nat} {es : List StoredEntry}
    (hcame : Came root found names id) (hstore : store id = some (.tree n es)) :
    ∃ texts : List String, texts.map utf8Bytes = names ∧ Stands root found texts id := by
  rcases hcame with ⟨rfl, rfl⟩ | ⟨f, hf, hnames, rfl⟩
  · exact ⟨[], rfl, .inl ⟨rfl, rfl⟩⟩
  · obtain ⟨o, ho, htext⟩ := h.object (.inr ⟨f, hf, rfl, rfl⟩)
    obtain rfl := Option.some.inj (hstore.symm.trans ho)
    exact ⟨f.names, hnames, .inr ⟨f.entry, hf, text_inj htext, rfl⟩⟩

/-- The entries of a tree the walk came to were found. -/
theorem Inspected.found_entry (h : Inspected git objectFormat limits root store found w)
    {names : List (List UInt8)} {id : String} {n : Nat} {es : List StoredEntry} {e : StoredEntry}
    (hcame : Came root found names id) (hstore : store id = some (.tree n es)) (he : e ∈ es) :
    ∃ f ∈ found, f.names.map utf8Bytes = names ++ [e.name] ∧ e.ReadAs f.entry := by
  obtain ⟨texts, htexts, hstands⟩ := h.stands_of_came hcame hstore
  obtain ⟨n', es', ds, hstore', -, hentries, hfound⟩ := h.expanded hstands
  obtain ⟨-, rfl⟩ := StoredObject.tree.inj (Option.some.inj (hstore.symm.trans hstore'))
  obtain ⟨d, hd, hread⟩ := hentries.exists_read he
  refine ⟨_, hfound _ (List.mem_map_of_mem hd), ?_, hread⟩
  rw [List.map_append, List.map_singleton, htexts, hread.name]

/-- **The walk came wherever names lead.** -/
theorem Inspected.came (h : Inspected git objectFormat limits root store found w)
    {names : List (List UInt8)} {id : String} (hleads : Leads store root names id) :
    Came root found names id := by
  induction hleads with
  | top => exact .inl ⟨rfl, rfl⟩
  | entry _ hstore he ih =>
    obtain ⟨f, hf, hnames, hread⟩ := h.found_entry ih hstore he
    exact .inr ⟨f, hf, hnames, hread.objectId⟩

/-- **What is in the store was found.** -/
theorem Inspected.exists_found (h : Inspected git objectFormat limits root store found w)
    {names : List (List UInt8)} {e : StoredEntry} (hentry : EntryAt store root names e) :
    ∃ f ∈ found, f.names.map utf8Bytes = names ∧ e.ReadAs f.entry := by
  cases hentry with
  | entry hleads hstore he => exact h.found_entry (h.came hleads) hstore he

/-! ## What the inventory tells -/

variable {expected : OrderedMap String ObjectType} {objects : List CarrierObject}

theorem mem_keys_of_get {id : String} {type : ObjectType} (h : expected.get id = some type) :
    id ∈ sortKeys expected.keys := by
  refine (List.mem_insertionSort _).mpr ?_
  exact List.mem_map_of_mem (OrderedMap.get_eq_some_iff.mp h)

/-- Every identity collected has an object in the inventory. -/
theorem exists_told (h : List.Forall₂ (Told store expected) (sortKeys expected.keys) objects)
    {id : String} {type : ObjectType} (hget : expected.get id = some type) :
    ∃ object ∈ objects, Told store expected id object :=
  exists_of_forall₂ h.flip (mem_keys_of_get hget)

/-- The inventory names the identities collected, in order. -/
theorem map_objectId_told {ids : List String} (h : List.Forall₂ (Told store expected) ids objects) :
    objects.map (·.objectId) = ids := by
  induction h with
  | nil => rfl
  | cons htold _ ih => rw [List.map_cons, htold.objectId, ih]

theorem nodup_sortKeys (expected : OrderedMap String ObjectType) :
    (sortKeys expected.keys).Nodup :=
  (List.perm_insertionSort _ _).nodup_iff.mpr expected.nodupKeys

/-- **The inventory is strictly ordered.** -/
theorem pairwise_objects (h : List.Forall₂ (Told store expected) (sortKeys expected.keys) objects) :
    objects.Pairwise fun a b =>
      codeUnitLe a.objectId b.objectId = true ∧ a.objectId ≠ b.objectId := by
  have hsorted : (sortKeys expected.keys).Pairwise fun a b => codeUnitLe a b = true ∧ a ≠ b :=
    (List.pairwise_insertionSort _ _).and (nodup_sortKeys expected)
  rw [← map_objectId_told h] at hsorted
  exact List.pairwise_map.mp hsorted

/-- Sorting by different keys is strict. -/
theorem pairwise_sortOn {α : Type} {key : α → String} {xs : List α} (h : (xs.map key).Nodup) :
    (sortOn key xs).Pairwise fun a b => codePointLe (key a) (key b) = true ∧ key a ≠ key b := by
  refine (pairwise_sortWith (codePoint.comap key) xs).and ?_
  exact List.pairwise_map.mp (((perm_sortOn key xs).map key).nodup_iff.mpr h)

/-- The size the inventory has for an identity. -/
theorem get_sizes (h : (objects.map (·.objectId)).Nodup) {object : CarrierObject}
    (hobject : object ∈ objects) :
    (objects.foldl (fun m o => m.set o.objectId o.byteLength) (∅ : OrderedMap String Int)).get
      object.objectId = some object.byteLength := by
  rw [OrderedMap.get_eq_some_iff, OrderedMap.entries_foldl_set_empty h]
  exact List.mem_map_of_mem (f := fun o : CarrierObject => (o.objectId, o.byteLength)) hobject

/-! ## The closure -/

/-- An entry that was found is a file or a tree. -/
theorem blob_of_not_tree {d : DirectTreeEntry} (h : allowedType d = some d.objectType)
    (htree : d.objectType ≠ .tree) : d.objectType = .blob := by
  unfold allowedType at h
  split at h
  · exact absurd (Option.some.inj h).symm htree
  · split at h
    · exact (Option.some.inj h).symm
    · cases h

/-- **A file of the closure is a blob of the store**, with its size. -/
theorem Inspected.size (h : Inspected git objectFormat limits root store found w)
    (htold : List.Forall₂ (Told store w.expected) (sortKeys w.expected.keys) objects) {f : Found}
    (hf : f ∈ found) (htree : f.entry.objectType ≠ .tree) :
    ∃ n, store f.entry.objectId = some (.blob n)
      ∧ ((objects.foldl (fun m o => m.set o.objectId o.byteLength)
        (∅ : OrderedMap String Int)).get f.entry.objectId).getD 0 = n := by
  have hblob := blob_of_not_tree (h.walked.allowed f hf) htree
  have hget := (h.walked.expected f.entry.objectId .blob).mpr (.inr ⟨f, hf, rfl, hblob⟩)
  obtain ⟨object, hobject, hid, o, type, hstore, htype, htext, -, hlength⟩ := exists_told htold hget
  obtain rfl := Option.some.inj (hget.symm.trans htype)
  obtain ⟨n, rfl⟩ := eq_blob_of_text htext
  have hsize := get_sizes (map_objectId_told htold ▸ nodup_sortKeys w.expected) hobject
  rw [hid] at hsize
  exact ⟨n, hstore, by rw [hsize]; exact hlength⟩

/-- The entries of a closure are the files that were found. -/
theorem Inspected.mem_closureEntries (h : Inspected git objectFormat limits root store found w)
    {entry : CarrierTreeEntry} :
    entry ∈ closureEntries objects w.fileEntries ↔ ∃ f ∈ found, f.entry.objectType ≠ .tree
      ∧ entry = ⟨pathText f.names, f.entry.objectId, f.entry.mode,
        ((objects.foldl (fun m o => m.set o.objectId o.byteLength)
          (∅ : OrderedMap String Int)).get f.entry.objectId).getD 0⟩ := by
  rw [closureEntries, mem_sortOn, h.walked.files, List.map_map, List.mem_map]
  simp only [List.mem_filter, decide_eq_true_eq, and_assoc, Function.comp_apply, Found.file,
    @eq_comm _ entry]

/-- **The files of the closure are the blobs below the root.** -/
theorem Inspected.files (h : Inspected git objectFormat limits root store found w)
    (htold : List.Forall₂ (Told store w.expected) (sortKeys w.expected.keys) objects)
    (entry : CarrierTreeEntry) :
    entry ∈ closureEntries objects w.fileEntries ↔ ∃ names e n, EntryAt store root names e
      ∧ store e.objectId = some (.blob n) ∧ utf8Bytes entry.path = [47].intercalate names
      ∧ entry.objectId = e.objectId ∧ entry.mode = String.ofList e.mode
      ∧ entry.byteLength = n := by
  rw [h.mem_closureEntries]
  constructor
  · rintro ⟨f, hf, htree, rfl⟩
    obtain ⟨e, hentry, hread⟩ := h.entryAt hf
    obtain ⟨n, hstore, hsize⟩ := h.size htold hf htree
    exact ⟨_, e, n, hentry, hread.objectId ▸ hstore, utf8Bytes_pathText f.names, hread.objectId,
      hread.mode, hsize⟩
  · rintro ⟨names, e, n, hentry, hstore, hpath, hid, hmode, hlength⟩
    obtain ⟨f, hf, rfl, hread⟩ := h.exists_found hentry
    rw [← hread.objectId] at hstore
    -- an entry of type tree would name a tree of the store
    have htree : f.entry.objectType ≠ .tree := by
      intro htree
      obtain ⟨o, ho, htext⟩ := h.object (.inr ⟨f, hf, rfl, htree⟩)
      obtain ⟨m, es, rfl⟩ := eq_tree_of_text htext
      cases hstore.symm.trans ho
    obtain ⟨n', hstore', hsize⟩ := h.size htold hf htree
    obtain rfl := StoredObject.blob.inj (Option.some.inj (hstore.symm.trans hstore'))
    refine ⟨f, hf, htree, ?_⟩
    obtain ⟨path, objectId, mode, byteLength⟩ := entry
    rw [← utf8Bytes_pathText] at hpath
    simp only [CarrierTreeEntry.mk.injEq]
    exact ⟨utf8Bytes_injective hpath, hid.trans hread.objectId.symm, hmode.trans hread.mode.symm,
      hlength.trans hsize.symm⟩

/-- **The objects of the closure are those that can be reached.** -/
theorem Inspected.reachable (h : Inspected git objectFormat limits root store found w)
    (htold : List.Forall₂ (Told store w.expected) (sortKeys w.expected.keys) objects) (id : String) :
    (∃ object ∈ objects, object.objectId = id) ↔ ∃ names, Leads store root names id := by
  constructor
  · rintro ⟨object, hobject, rfl⟩
    obtain ⟨id, -, hid, o, type, -, htype, -⟩ := exists_of_forall₂ htold hobject
    rw [hid]
    rcases (h.walked.expected id type).mp htype with ⟨rfl, -⟩ | ⟨f, hf, rfl, -⟩
    · exact ⟨[], .top⟩
    · obtain ⟨e, hentry, hread⟩ := h.entryAt hf
      rw [hread.objectId]
      exact ⟨_, hentry.leads⟩
  · rintro ⟨names, hleads⟩
    obtain ⟨type, hexpects⟩ : ∃ type, Expects root found id type := by
      rcases h.came hleads with ⟨-, hroot⟩ | ⟨f, hf, -, hid⟩
      · exact ⟨.tree, .inl ⟨hroot, rfl⟩⟩
      · exact ⟨f.entry.objectType, .inr ⟨f, hf, hid, rfl⟩⟩
    obtain ⟨object, hobject, hid, -⟩ :=
      exists_told htold ((h.walked.expected id type).mpr hexpects)
    exact ⟨object, hobject, hid⟩

theorem nodup_paths (h : Inspected git objectFormat limits root store found w) :
    (found.map fun f => pathText f.names).Nodup := h.walked.paths ▸ h.walked.distinct

/-- **The files are strictly ordered by their paths.** -/
theorem Inspected.filesOrdered (h : Inspected git objectFormat limits root store found w) :
    (closureEntries objects w.fileEntries).Pairwise fun a b =>
      codePointLe a.path b.path = true ∧ a.path ≠ b.path := by
  refine pairwise_sortOn ?_
  rw [h.walked.files, List.map_map, List.map_map]
  exact (nodup_paths h).sublist (List.filter_sublist.map _)

/-- **What is below the root is within the limits.** -/
theorem Inspected.withinLimits (h : Inspected git objectFormat limits root store found w) :
    WithinLimits store limits root := by
  refine ⟨⟨found.map fun f => f.names.map utf8Bytes, ?_, fun names => ?_, ?_⟩, ?_, ?_⟩
  · have hpaths : (found.map fun f => utf8Bytes (pathText f.names)).Nodup := by
      have hmap := (nodup_paths h).map utf8Bytes_injective
      rw [List.map_map] at hmap
      exact hmap
    have hbytes : (fun f : Found => utf8Bytes (pathText f.names))
        = (fun names => [47].intercalate names) ∘ fun f => f.names.map utf8Bytes := by
      funext f
      exact utf8Bytes_pathText f.names
    rw [hbytes, ← List.map_map] at hpaths
    exact hpaths.of_map _
  · rw [List.mem_map]
    constructor
    · rintro ⟨f, hf, rfl⟩
      obtain ⟨e, hentry, -⟩ := h.entryAt hf
      exact ⟨e, hentry⟩
    · rintro ⟨e, hentry⟩
      obtain ⟨f, hf, hnames, -⟩ := h.exists_found hentry
      exact ⟨f, hf, hnames⟩
  · rw [List.length_map]
    exact h.walked.count
  · intro names id n es hleads hstore
    obtain ⟨texts, rfl, hstands⟩ := h.stands_of_came (h.came hleads) hstore
    obtain ⟨-, -, ds, -, hlist, -, hfound⟩ := h.expanded hstands
    obtain ⟨d, hd⟩ := List.exists_mem_of_ne_nil ds (listTree_valid hlist).1
    have hdepth := h.walked.depth _ (hfound _ (List.mem_map_of_mem hd))
    rw [List.length_append, List.length_singleton] at hdepth
    rw [List.length_map]
    exact Nat.le_of_succ_le_succ hdepth
  · intro names e hentry
    obtain ⟨f, hf, rfl, -⟩ := h.exists_found hentry
    rw [← utf8Bytes_pathText]
    exact h.walked.bytes f hf

/-- **What the inspection found and the store tells, together.** -/
theorem Walked.inspected (hgit : Tells git store) (hformat : git.objectFormat = .ok objectFormat)
    (hroot : objectIdPattern objectFormat root = true)
    (hwalked : Walked git objectFormat limits root found w) (hended : w.pending = [])
    (hfacts : objectFacts git objectFormat w.expected limits = .ok objects) :
    Inspected git objectFormat limits root store found w
      ∧ List.Forall₂ (Told store w.expected) (sortKeys w.expected.keys) objects
      ∧ objects.length ≤ limits.maximumObjects
      ∧ (objects.map (·.byteLength)).sum ≤ limits.maximumAggregateObjectBytes := by
  have hids : ∀ id ∈ w.expected.keys, objectIdPattern objectFormat id = true := by
    intro id hid
    obtain ⟨⟨id, type⟩, hmem, rfl⟩ := List.mem_map.mp hid
    rcases (hwalked.expected id type).mp (OrderedMap.get_eq_some_iff.mpr hmem)
      with ⟨rfl, -⟩ | ⟨f, hf, rfl, -⟩
    · exact hroot
    · exact (hwalked.led f hf).valid.objectId
  obtain ⟨htold, hcount, hbytes⟩ := objectFacts_eq_ok hgit hformat hids hfacts
  refine ⟨⟨hwalked, hended, ?_, ?_⟩, htold, hcount, hbytes⟩
  · intro id type hget
    obtain ⟨object, -, -, o, type', hstore, htype, htext, -⟩ := exists_told htold hget
    obtain rfl := Option.some.inj (hget.symm.trans htype)
    exact ⟨o, hstore, htext⟩
  · intro id n es ds hstore hlist
    simp only [listTree, bind_eq_ok, failIf_eq_ok, exists_unit, pure_eq_ok, not_not] at hlist
    obtain ⟨result, hresult, hcomplete, entries, hentries, -, rfl⟩ := hlist
    rw [hgit.trees id n es result hstore hresult hcomplete] at hentries
    exact parseDirectTree_listing hentries

/-- **The closure of a walk that ended is exact.** -/
theorem Walked.exact (hgit : Tells git store) (hformat : git.objectFormat = .ok objectFormat)
    (hroot : objectIdPattern objectFormat root = true)
    (hwalked : Walked git objectFormat limits root found w) (hended : w.pending = [])
    {closure : CarrierClosure} (hclose : closeWalk git objectFormat root limits w = .ok closure) :
    closure.objectFormat = objectFormat ∧ closure.rootTree = root
      ∧ ExactClosure store limits closure := by
  simp only [closeWalk, bind_eq_ok, pure_eq_ok] at hclose
  obtain ⟨objects, hobjects, rfl⟩ := hclose
  obtain ⟨h, htold, hcount, hbytes⟩ := hwalked.inspected hgit hformat hroot hended hobjects
  refine ⟨rfl, rfl, ⟨h.reachable htold, ?_, pairwise_objects htold, h.files htold, h.filesOrdered,
    ?_, hcount, hbytes, h.withinLimits⟩⟩
  · intro object hobject
    obtain ⟨id, -, hid, o, type, hstore, -, -, htype, hlength⟩ := exists_of_forall₂ htold hobject
    exact ⟨o, hid ▸ hstore, htype, hlength⟩
  · intro names e hentry name hname
    obtain ⟨f, hf, rfl, -⟩ := h.exists_found hentry
    obtain ⟨text, htext, rfl⟩ := List.mem_map.mp hname
    exact ⟨text, rfl, (h.walked.led f hf).names text htext⟩

/-- **The inspection of a tree ends, and the closure it finds is exact.** On any
repository, whatever its trees refer to, the walk ends with its result after at
most as many trees as entries are allowed; where Git tells what is in a store,
a closure that results has all that can be reached from the root, and nothing
else. -/
theorem inspectCandidateRevisionCarrierClosure_exact (git : ClosureGit) (input : ClosureInput) :
    ∃ result, (∀ fuel, input.limits.maximumTreeEntries < fuel →
        inspectCandidateRevisionCarrierClosure git input fuel = some result)
      ∧ ∀ store closure, Tells git store → result = .ok closure →
        git.objectFormat = .ok closure.objectFormat ∧ closure.rootTree = input.rootTree
          ∧ ExactClosure store input.limits closure := by
  cases hopen : openRoot git input with
  | error e =>
    refine ⟨.error e, fun fuel _ => ?_, fun store closure _ hclosure => ?_⟩
    · rw [inspectCandidateRevisionCarrierClosure, hopen]
    · cases hclosure
  | ok opened =>
    obtain ⟨objectFormat, root⟩ := opened
    have hwalked : Walked git objectFormat input.limits root [] (startWalk root) := walked_startWalk
    have hfuel : input.limits.maximumTreeEntries
        < ([] : List Found).length + (input.limits.maximumTreeEntries + 1) := by
      rw [List.length_nil, Nat.zero_add]
      exact Nat.lt_succ_self _
    obtain ⟨walk, hwalk⟩ := Option.ne_none_iff_exists'.mp (hwalked.walkTrees_ne_none hfuel)
    refine ⟨walk >>= closeWalk git objectFormat root input.limits, fun fuel hfuel => ?_, ?_⟩
    · obtain ⟨more, rfl⟩ := Nat.exists_eq_add_of_le (Nat.succ_le_of_lt hfuel)
      rw [inspectCandidateRevisionCarrierClosure, hopen]
      show (walkTrees git objectFormat input.limits _ _).map _ = _
      rw [walkTrees_mono hwalk]
      rfl
    · intro store closure hgit hclosure
      obtain ⟨w, rfl, hclose⟩ := bind_eq_ok.mp hclosure
      obtain ⟨hended, found, hfound⟩ := hwalked.walkTrees hwalk
      simp only [openRoot, bind_eq_ok, failIf_eq_ok, exists_unit, pure_eq_ok, Prod.mk.injEq] at hopen
      obtain ⟨objectFormat, hformat, -, root, hroot, _, -, -, rfl, rfl⟩ := hopen
      obtain ⟨rfl, hpattern⟩ := exactObjectId_eq_ok hroot
      obtain ⟨rfl, hrootTree, hexact⟩ := hfound.exact hgit hformat hpattern hended hclose
      exact ⟨hformat, hrootTree, hexact⟩

/-! ## A Git for every store -/

/-- The lines of a request. -/
def requestedIds (request : String) : List String :=
  (request.toList.splitOn '\n').dropLast.map String.ofList

/-- A command that is done. -/
def done {α : Type} (exitCode : Int) (truncated : Bool) (stdout : α) : CommandResult α :=
  ⟨exitCode, none, false, truncated, false, stdout⟩

/-- **The Git of a repository with the objects of a store.** -/
def storeGit (objectFormat : GitObjectFormat) (store : ObjectStore) : ClosureGit where
  objectFormat := .ok objectFormat
  typeOf id := match store id with
    | some o => .ok (done 0 false (o.typeText ++ "\n"))
    | none => .ok (done 128 false "")
  lsTree id := match store id with
    | some (.tree _ es) =>
      .ok (done 0 (decide (treeListingByteBound < (listing es).length)) (listing es))
    | _ => .ok (done 128 false [])
  batchCheck request maximum :=
    let answers := objectAnswers store (requestedIds request)
    .ok (done 0 (decide (maximum < byteLength answers)) answers)

theorem requestedIds_sizeRequest {ids : List String}
    (h : ∀ id ∈ ids, objectIdPattern objectFormat id = true) :
    requestedIds (sizeRequest ids) = ids := by
  have hfree : Free '\n' (ids.map String.toList) := by
    intro line hline hbreak
    obtain ⟨id, hid, rfl⟩ := List.mem_map.mp hline
    exact absurd ((chars_of_objectIdPattern (h id hid)).2 _ hbreak) (by decide)
  have hrequest : (sizeRequest ids).toList = terminated '\n' (ids.map String.toList) := by
    rw [sizeRequest, String.toList_ofList, terminated, List.flatMap_map]
  rw [requestedIds, hrequest, splitOn_terminated hfree, List.dropLast_concat, List.map_map]
  exact (List.map_congr_left fun id _ => String.ofList_toList).trans (List.map_id' ids)

/-- It tells what is in the store. -/
theorem tells_storeGit (objectFormat : GitObjectFormat) (store : ObjectStore) :
    Tells (storeGit objectFormat store) store := by
  refine ⟨fun id n es result hstore hresult _ => ?_, fun format ids maximum result hformat hids
    hresult _ => ?_⟩
  · simp only [storeGit, hstore, Except.ok.injEq] at hresult
    rw [← hresult]
    rfl
  · simp only [storeGit, Except.ok.injEq] at hresult
    rw [← hresult]
    exact congrArg (objectAnswers store) (requestedIds_sizeRequest hids)

namespace Sample

def blobId : String := "e69de29bb2d1d6434b8b29ae775ad8c2e48c5391"
def docsId : String := "4b825dc642cb6eb9a060e54bf8d69288fbee4904"
def rootId : String := "f93e3a1a1525fb5b91020da86e44810c87a2d7bc"

theorem modeDigits : "100644".toList.length = 6
    ∧ ∀ c ∈ "100644".toList, StrictJson.isDigit c = true := by
  refine ⟨by decide +kernel, List.all_eq_true.mp ?_⟩
  decide +kernel

theorem treeModeDigits : "040000".toList.length = 6
    ∧ ∀ c ∈ "040000".toList, StrictJson.isDigit c = true := by
  refine ⟨by decide +kernel, List.all_eq_true.mp ?_⟩
  decide +kernel

theorem blobDigits : blobId.toList ≠ [] ∧ ∀ c ∈ blobId.toList, Sha256.isHexDigit c = true := by
  refine ⟨by decide +kernel, List.all_eq_true.mp ?_⟩
  decide +kernel

theorem docsDigits : docsId.toList ≠ [] ∧ ∀ c ∈ docsId.toList, Sha256.isHexDigit c = true := by
  refine ⟨by decide +kernel, List.all_eq_true.mp ?_⟩
  decide +kernel

theorem nulFree : (0 : UInt8) ∉ [(97 : UInt8)] := by decide

theorem nulFree' : (0 : UInt8) ∉ [(98 : UInt8)] := by decide

def file : StoredEntry :=
  ⟨"100644".toList, .blob, blobId, [97], modeDigits, blobDigits, nulFree⟩

def docs : StoredEntry :=
  ⟨"040000".toList, .tree, docsId, [98], treeModeDigits, docsDigits, nulFree'⟩

/-- A tree with a file, and the same file in a tree below. -/
def repository : ObjectStore := fun id =>
  if id = rootId then some (.tree 58 [file, docs])
  else if id = docsId then some (.tree 29 [file])
  else if id = blobId then some (.blob 0)
  else none

def input : ClosureInput where
  rootTree := rootId
  limits := { carrierLimitsV1 with maximumObjects := 3, maximumTreeEntries := 3, maximumTreeDepth := 1 }

def closure : CarrierClosure where
  objectFormat := .sha1
  rootTree := rootId
  objectInventory := [⟨docsId, "tree", 29⟩, ⟨blobId, "blob", 0⟩, ⟨rootId, "tree", 58⟩]
  treeEntries := [⟨"a", blobId, "100644", 0⟩, ⟨"b/a", blobId, "100644", 0⟩]

end Sample

theorem inspectCandidateRevisionCarrierClosure_exact_sample :
    inspectCandidateRevisionCarrierClosure (storeGit .sha1 Sample.repository) Sample.input 4
        = some (.ok Sample.closure)
      ∧ ExactClosure Sample.repository Sample.input.limits Sample.closure := by
  have hinspect : (inspectCandidateRevisionCarrierClosure (storeGit .sha1 Sample.repository) Sample.input
      4).map Except.toOption = some (some Sample.closure) := by decide +kernel
  obtain ⟨result, hresult, hexact⟩ :=
    inspectCandidateRevisionCarrierClosure_exact (storeGit .sha1 Sample.repository) Sample.input
  have hfour := hresult 4 (by decide)
  rw [hfour, Option.map_some, Option.some.injEq] at hinspect
  cases result with
  | error e => cases hinspect
  | ok closure =>
    obtain rfl := Option.some.inj hinspect
    exact ⟨hfour, (hexact Sample.repository _ (tells_storeGit .sha1 Sample.repository) rfl).2.2⟩

end ObjectClosure
