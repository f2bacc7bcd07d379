import Lifecycle.CodeInspection
import Lifecycle.KeyedDeltas

/-!
# The change inventory of a Candidate

The deltas of two trees lead from the one to the other, and the subjects the
observer retains name them in the order of their paths. What is kept of a digest
under the mode, type and identity of an entry is the digest of every entry with
these, so reading a blob once is as good as reading it every time
(`changedSubjects_eq_ok`).
-/

open Fallible Json ControlModel Knowledge SortedBy Carrier CodeInspection

namespace Candidate

/-! ## Trees -/

/-- The paths `validateRepositoryPath` lets pass. -/
def isRepositoryPath (path : String) : Bool :=
  decide (0 < (utf8Bytes path).length) && decide ((utf8Bytes path).length ≤ 4096)
    && decide (path.toList.head? ≠ some '/') && !path.toList.contains '\\'
    && !path.toList.contains '?' && !path.toList.contains '#' && !encodesSeparator path
    && (path.toList.splitOn '/').all fun segment =>
      decide (segment ≠ [] ∧ segment ≠ ['.'] ∧ segment ≠ ['.', '.'])

/-- **The entries of a tree** as `exactTreeEntries` lists them, blobs and
gitlinks of the modes Git gives them. A path is cut off at its NUL there, so it
has none. -/
structure TreeListing (objectFormat : GitObjectFormat) where
  entries : List GitTreeEntry
  distinct : (entries.map (·.path)).Nodup
  paths : ∀ e ∈ entries, isRepositoryPath e.path = true ∧ '\x00' ∉ e.path.toList
  objects : ∀ e ∈ entries, objectIdPattern objectFormat e.objectId = true
  modes : ∀ e ∈ entries, isEntryMode e = true

variable {objectFormat : GitObjectFormat}

/-- The entry at a path. -/
def TreeListing.entryAt (tree : TreeListing objectFormat) (path : String) : Option GitTreeEntry :=
  KeyedDelta.entryAt (·.path) tree.entries path

theorem TreeListing.entryAt_eq_some_iff {tree : TreeListing objectFormat} {path : String}
    {e : GitTreeEntry} : tree.entryAt path = some e ↔ e ∈ tree.entries ∧ e.path = path :=
  KeyedDelta.entryAt_eq_some_iff tree.distinct

theorem entries_byPath (tree : TreeListing objectFormat) :
    (byPath tree.entries).entries = tree.entries.map fun e => (e.path, e) :=
  OrderedMap.entries_foldl_set_empty tree.distinct

theorem get_byPath (tree : TreeListing objectFormat) (path : String) :
    (byPath tree.entries).get path = tree.entryAt path := by
  refine Option.ext fun e => ?_
  rw [OrderedMap.get_eq_some_iff, entries_byPath, TreeListing.entryAt_eq_some_iff, List.mem_map]
  constructor
  · rintro ⟨e', he', heq⟩
    obtain ⟨hpath, rfl⟩ := Prod.mk.inj heq
    exact ⟨he', hpath⟩
  · rintro ⟨he, rfl⟩
    exact ⟨e, he, rfl⟩

theorem mem_keys_byPath {tree : TreeListing objectFormat} {path : String} :
    path ∈ (byPath tree.entries).keys ↔ tree.entryAt path ≠ none := by
  rw [OrderedMap.keys, ← get_byPath, ne_eq, OrderedMap.get_eq_none_iff, not_not]

/-! ## Deltas -/

/-- Entries at one path are the same when their facts are. -/
theorem sameTreeEntry_iff {base candidate : TreeListing objectFormat} {path : String} :
    sameTreeEntry (base.entryAt path) (candidate.entryAt path) = true
      ↔ base.entryAt path = candidate.entryAt path := by
  constructor
  · intro h
    simp only [sameTreeEntry, decide_eq_true_eq] at h
    obtain ⟨hmode, htype, hobject⟩ := h
    cases hbase : base.entryAt path with
    | none =>
      rw [hbase] at hmode
      exact (Option.map_eq_none_iff.mp hmode.symm).symm
    | some e =>
      cases hcandidate : candidate.entryAt path with
      | none =>
        rw [hbase, hcandidate] at hmode
        cases hmode
      | some e' =>
        rw [hbase, hcandidate] at hmode htype hobject
        have hpath := (TreeListing.entryAt_eq_some_iff.mp hbase).2
        have hpath' := (TreeListing.entryAt_eq_some_iff.mp hcandidate).2
        obtain ⟨p, t, m, o⟩ := e
        obtain ⟨p', t', m', o'⟩ := e'
        simp only [Option.map_some, Option.some.injEq] at hmode htype hobject hpath hpath'
        subst hmode htype hobject hpath hpath'
        rfl
  · intro h
    rw [h]
    simp [sameTreeEntry]

/-- The delta at a path. -/
def deltaAt (base candidate : TreeListing objectFormat) (path : String) : TreeDelta :=
  ⟨path, base.entryAt path, candidate.entryAt path⟩

/-- **The paths at which two trees differ**, in order. -/
def differingPaths (base candidate : TreeListing objectFormat) : List String :=
  (unionPaths (byPath base.entries) (byPath candidate.entries)).filter fun path =>
    decide (base.entryAt path ≠ candidate.entryAt path)

theorem mem_differingPaths {base candidate : TreeListing objectFormat} {path : String} :
    path ∈ differingPaths base candidate ↔ base.entryAt path ≠ candidate.entryAt path := by
  rw [differingPaths, List.mem_filter, decide_eq_true_eq, unionPaths, mem_sortUniqueCodePoints,
    List.mem_append, mem_keys_byPath, mem_keys_byPath]
  refine and_iff_right_of_imp fun hne => ?_
  by_contra hnone
  simp only [not_or, not_not] at hnone
  exact hne (hnone.1.trans hnone.2.symm)

/-- What is sorted by code points without a repetition rises strictly. -/
theorem pairwise_sortUniqueCodePoints (values : List String) :
    (sortUniqueCodePoints values).Pairwise fun a b => codePointLe a b = true ∧ a ≠ b := by
  have hnodup : (sortUniqueCodePoints values).Nodup :=
    (perm_sortOn id values.dedup).nodup_iff.mpr (List.nodup_dedup values)
  exact (Comparison.pairwise_sortWith codePoint values.dedup).and hnodup

theorem pairwise_differingPaths (base candidate : TreeListing objectFormat) :
    (differingPaths base candidate).Pairwise fun a b => codePointLe a b = true ∧ a ≠ b :=
  (pairwise_sortUniqueCodePoints _).filter _

theorem nodup_differingPaths (base candidate : TreeListing objectFormat) :
    (differingPaths base candidate).Nodup :=
  (pairwise_differingPaths base candidate).imp And.right

/-- **The deltas are those at the differing paths**, where there are not too
many. -/
theorem treeDeltas_eq_ok {base candidate : TreeListing objectFormat} {deltas : List TreeDelta} :
    treeDeltas base.entries candidate.entries = .ok deltas
      ↔ deltas = (differingPaths base candidate).map (deltaAt base candidate)
        ∧ (differingPaths base candidate).length ≤ maximumChangedSubjects := by
  have hfilter : (unionPaths (byPath base.entries) (byPath candidate.entries)).filter (fun path =>
      !sameTreeEntry (base.entryAt path) (candidate.entryAt path)) = differingPaths base candidate := by
    refine List.filter_congr fun path _ => ?_
    rw [Bool.eq_iff_iff, Bool.not_eq_true', ← Bool.not_eq_true, sameTreeEntry_iff,
      decide_eq_true_eq]
  simp only [treeDeltas, get_byPath, hfilter, bind_eq_ok, failIf_eq_ok, exists_unit, pure_eq_ok,
    List.length_map, Nat.not_lt]
  constructor
  · rintro ⟨hbound, rfl⟩
    exact ⟨rfl, hbound⟩
  · rintro ⟨rfl, hbound⟩
    exact ⟨hbound, rfl⟩

/-- A delta, as one between keyed entries. -/
def TreeDelta.keyed (d : TreeDelta) : KeyedDelta String GitTreeEntry := ⟨d.path, d.prior, d.next⟩

/-- **The deltas applied to the base give the Candidate.** -/
theorem applyAll_treeDeltas {base candidate : TreeListing objectFormat} {deltas : List TreeDelta}
    (h : treeDeltas base.entries candidate.entries = .ok deltas) :
    (KeyedDelta.applyAll (·.path) base.entries (deltas.map TreeDelta.keyed)).Perm
      candidate.entries := by
  obtain ⟨rfl, -⟩ := treeDeltas_eq_ok.mp h
  have hkeys : (((differingPaths base candidate).map (deltaAt base candidate)).map
      TreeDelta.keyed).map (·.key) = differingPaths base candidate := by
    rw [List.map_map, List.map_map]
    exact List.map_id' _
  refine KeyedDelta.applyAll_perm base.distinct candidate.distinct ⟨?_, ?_, ?_, ?_⟩
  · rw [hkeys]
    exact nodup_differingPaths base candidate
  · simp [TreeDelta.keyed, deltaAt, TreeListing.entryAt]
  · simp [TreeDelta.keyed, deltaAt, TreeListing.entryAt]
  · intro path
    rw [hkeys]
    exact mem_differingPaths

/-! ## Digests -/

/-- What the entries of a tree are: of a mode Git gives, under an identity. -/
structure Listed (objectFormat : GitObjectFormat) (e : GitTreeEntry) : Prop where
  mode : isEntryMode e = true
  object : objectIdPattern objectFormat e.objectId = true

theorem TreeListing.listed {tree : TreeListing objectFormat} {path : String} {e : GitTreeEntry}
    (h : tree.entryAt path = some e) : Listed objectFormat e := by
  have he := (TreeListing.entryAt_eq_some_iff.mp h).1
  exact ⟨tree.modes e he, tree.objects e he⟩

/-- An entry is a blob of one of three modes or a commit. -/
theorem isEntryMode_cases {e : GitTreeEntry} (h : isEntryMode e = true) :
    (e.type = "blob" ∧ e.mode ∈ ["100644", "100755", "120000"])
      ∨ (e.type = "commit" ∧ e.mode = "160000") := by
  simpa [isEntryMode] using h

theorem Listed.nulFree {e : GitTreeEntry} (h : Listed objectFormat e) :
    ∀ s ∈ [e.mode, e.type, e.objectId], NulFreeText s := by
  have hobject : NulFreeText e.objectId := by
    intro hnul
    have hbytes := h.object
    simp only [objectIdPattern, Bool.and_eq_true, List.all_eq_true] at hbytes
    have hzero : 0 ∈ utf8Bytes e.objectId := by
      rw [utf8Bytes_eq]
      exact zero_mem_utf8.mpr hnul
    exact absurd (hbytes.2 0 hzero) (by decide)
  have htypes : NulFreeText "blob" ∧ NulFreeText "commit" := by decide
  have hmodes : ∀ mode ∈ ["100644", "100755", "120000", "160000"], NulFreeText mode := by decide
  intro s hs
  simp only [List.mem_cons, List.not_mem_nil, or_false] at hs
  rcases isEntryMode_cases h.mode with ⟨htype, hmode⟩ | ⟨htype, hmode⟩
  · rcases hs with rfl | rfl | rfl
    · exact hmodes _ (List.mem_append_left ["160000"] hmode)
    · exact htype ▸ htypes.1
    · exact hobject
  · rcases hs with rfl | rfl | rfl
    · exact hmode ▸ hmodes "160000" (by decide)
    · exact htype ▸ htypes.2
    · exact hobject

/-- **The key of the cache says what is digested.** -/
theorem freshDigest_eq_of_cacheKey {git : Git} {e e' : GitTreeEntry} (h : Listed objectFormat e)
    (h' : Listed objectFormat e') (hkey : cacheKey e = cacheKey e') :
    freshDigest git e = freshDigest git e' := by
  have hparts := nulJoin_inj (List.cons_ne_nil _ _) (List.cons_ne_nil _ _) h.nulFree h'.nulFree hkey
  simp only [List.cons.injEq, and_true] at hparts
  obtain ⟨hmode, htype, hobject⟩ := hparts
  unfold freshDigest entryFacts
  rw [hmode, htype, hobject]

/-- The digest of one side of a delta. -/
def sideDigest (git : Git) : Option GitTreeEntry → Except FoundationError (Option Sha256Digest)
  | none => pure none
  | some entry => do
    let digest ← freshDigest git entry
    pure (some digest)

/-- **What is kept is right**: under the key of an entry stands its digest. -/
def Cached (objectFormat : GitObjectFormat) (git : Git) (cache : OrderedMap String Sha256Digest) :
    Prop :=
  ∀ e, Listed objectFormat e → ∀ digest, cache.get (cacheKey e) = some digest →
    freshDigest git e = .ok digest

theorem cached_empty (git : Git) : Cached objectFormat git ∅ := by
  intro e _ digest h
  rw [OrderedMap.get_empty] at h
  cases h

theorem Cached.set {git : Git} {cache : OrderedMap String Sha256Digest} {e : GitTreeEntry}
    {digest : Sha256Digest} (h : Cached objectFormat git cache) (he : Listed objectFormat e)
    (hdigest : freshDigest git e = .ok digest) :
    Cached objectFormat git (cache.set (cacheKey e) digest) := by
  intro e' he' digest' hget
  rw [OrderedMap.get_set] at hget
  split at hget
  · next hkey =>
    obtain rfl := Option.some.inj hget
    rw [freshDigest_eq_of_cacheKey he' he hkey, hdigest]
  · exact h e' he' digest' hget

/-- A digest found in the cache is the one that would be computed. -/
theorem entryDigest_eq_ok {git : Git} {cache cache' : OrderedMap String Sha256Digest}
    {entry : Option GitTreeEntry} {digest : Option Sha256Digest}
    (hcache : Cached objectFormat git cache) (hentry : ∀ e ∈ entry, Listed objectFormat e)
    (h : entryDigest git entry cache = .ok (digest, cache')) :
    sideDigest git entry = .ok digest ∧ Cached objectFormat git cache' := by
  cases entry with
  | none =>
    rw [entryDigest, pure_eq_ok, Prod.mk.injEq] at h
    obtain ⟨rfl, rfl⟩ := h
    exact ⟨rfl, hcache⟩
  | some e =>
    have he := hentry e rfl
    simp only [entryDigest] at h
    cases hget : cache.get (cacheKey e) with
    | some retained =>
      rw [hget] at h
      simp only [pure_eq_ok, Prod.mk.injEq] at h
      obtain ⟨rfl, rfl⟩ := h
      exact ⟨bind_eq_ok.mpr ⟨retained, hcache e he retained hget, rfl⟩, hcache⟩
    | none =>
      rw [hget] at h
      simp only [bind_eq_ok, pure_eq_ok, Prod.mk.injEq] at h
      obtain ⟨fresh, hfresh, rfl, rfl⟩ := h
      exact ⟨bind_eq_ok.mpr ⟨fresh, hfresh, rfl⟩, hcache.set he hfresh⟩

/-- **What a subject says of a delta.** -/
structure Observed (git : Git) (delta : TreeDelta) (subject : ChangedSubject) : Prop where
  path : subject.path = delta.path
  change : subject.change = changedKind delta
  before : sideDigest git delta.prior = .ok subject.beforeDigest
  after : sideDigest git delta.next = .ok subject.afterDigest

/-- **The subjects are those of the deltas**, with the digests every entry has. -/
theorem changedSubjects_eq_ok {git : Git} {deltas : List TreeDelta} {subjects : List ChangedSubject}
    (hdeltas : ∀ d ∈ deltas, (∀ e ∈ d.prior, Listed objectFormat e)
      ∧ ∀ e ∈ d.next, Listed objectFormat e)
    (h : changedSubjects git deltas = .ok subjects) :
    List.Forall₂ (Observed git) deltas subjects := by
  have hloop : ∀ {deltas : List TreeDelta} {subjects : List ChangedSubject}
      {cache : OrderedMap String Sha256Digest}, Cached objectFormat git cache →
      (∀ d ∈ deltas, (∀ e ∈ d.prior, Listed objectFormat e) ∧ ∀ e ∈ d.next, Listed objectFormat e) →
      changedSubjectsFrom git deltas cache = .ok subjects →
      List.Forall₂ (Observed git) deltas subjects := by
    intro deltas
    induction deltas with
    | nil =>
      intro subjects cache _ _ h
      rw [changedSubjectsFrom, pure_eq_ok] at h
      exact h ▸ .nil
    | cons delta deltas ih =>
      intro subjects cache hcache hdeltas h
      obtain ⟨⟨hprior, hnext⟩, hrest⟩ := List.forall_mem_cons.mp hdeltas
      simp only [changedSubjectsFrom, changedSubject, bind_eq_ok, pure_eq_ok, Prod.exists,
        Prod.mk.injEq] at h
      obtain ⟨subject, last, ⟨before, middle, hbefore, after, cache', hafter, rfl, rfl⟩, rest, hloop,
        rfl⟩ := h
      obtain ⟨hbefore, hmiddle⟩ := entryDigest_eq_ok hcache hprior hbefore
      obtain ⟨hafter, hlast⟩ := entryDigest_eq_ok hmiddle hnext hafter
      exact .cons ⟨rfl, rfl, hbefore, hafter⟩ (ih hlast hrest hloop)
  exact hloop (cached_empty git) hdeltas h

end Candidate
