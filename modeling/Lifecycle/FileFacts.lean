import Lifecycle.BlobSizes
import Lifecycle.ChangeInventory

/-!
# File facts

Inspection compares the two trees again, by a rule of its own. The changes it
finds are the deltas of the observer with the same kinds, so that it accepts the
subjects the observer retained and takes their digests over
(`deriveFileFacts_eq_ok`).
-/

open Fallible Json ControlModel Knowledge SortedBy Carrier Candidate

namespace CodeInspection

variable {objectFormat : GitObjectFormat} {base candidate : TreeListing objectFormat}

/-! ## Changes -/

/-- The change of a delta. -/
def changeOf (delta : TreeDelta) : EntryChange := ⟨delta.path, changedKind delta, delta.prior, delta.next⟩

/-- **Both rules for the kind of a change are one.** -/
theorem entryChange_eq (path : String) :
    entryChange (base.entryAt path) (candidate.entryAt path)
      = if base.entryAt path = candidate.entryAt path then none
        else some (changedKind (deltaAt base candidate path)) := by
  unfold entryChange changedKind deltaAt
  cases hbase : base.entryAt path with
  | none =>
    cases hcandidate : candidate.entryAt path with
    | none => rfl
    | some e' => rfl
  | some e =>
    cases hcandidate : candidate.entryAt path with
    | none => rfl
    | some e' =>
      have hsame : sameTreeEntry (base.entryAt path) (candidate.entryAt path) = true
          ↔ base.entryAt path = candidate.entryAt path := sameTreeEntry_iff
      rw [hbase, hcandidate] at hsame
      simp only [sameTreeEntry, Option.map_some, Option.some.injEq, decide_eq_true_eq] at hsame
      simp only [Option.some.injEq, ← hsame]
      by_cases htype : e.type = e'.type
      · by_cases hmode : e.mode = e'.mode
        · by_cases hobject : e.objectId = e'.objectId
          · simp [htype, hmode, hobject]
          · simp [htype, hmode, hobject]
        · simp [htype, hmode]
      · simp [htype]

/-- **The changes are those of the deltas.** -/
theorem changesOf_eq : changesOf (byPath base.entries) (byPath candidate.entries)
    = (differingPaths base candidate).map fun path => changeOf (deltaAt base candidate path) := by
  unfold changesOf differingPaths
  simp only [get_byPath, entryChange_eq]
  generalize unionPaths (byPath base.entries) (byPath candidate.entries) = paths
  induction paths with
  | nil => rfl
  | cons path paths ih =>
    by_cases hsame : base.entryAt path = candidate.entryAt path
    · rw [List.filterMap_cons_none (by rw [if_pos hsame]; rfl),
        List.filter_cons_of_neg (by simpa using hsame), ih]
    · rw [List.filterMap_cons_some (by rw [if_neg hsame]; rfl),
        List.filter_cons_of_pos (by simpa using hsame), List.map_cons, ih]
      rfl

/-! ## Sides -/

/-- An object with the digest it was retained under. -/
def objectOf (size : String → Nat) (entry : GitTreeEntry) (digest : Sha256Digest) : FileObject :=
  if entry.type = "commit" then ⟨"commit", "160000", entry.objectId, digest, none⟩
  else ⟨"blob", entry.mode, entry.objectId, digest, some (size entry.objectId)⟩

/-- A side of a fact. -/
def sideOf (size : String → Nat) (entry : Option GitTreeEntry) (digest : Option Sha256Digest) :
    Option FileObject :=
  match entry, digest with
  | some entry, some digest => some (objectOf size entry digest)
  | _, _ => none

theorem sideDigest_eq_ok {git : Git} {entry : Option GitTreeEntry} {digest : Option Sha256Digest} :
    sideDigest git entry = .ok digest
      ↔ (entry = none ∧ digest = none)
        ∨ ∃ e d, entry = some e ∧ digest = some d ∧ freshDigest git e = .ok d := by
  cases entry with
  | none =>
    rw [sideDigest, pure_eq_ok]
    simp [eq_comm]
  | some e =>
    simp only [sideDigest, bind_eq_ok, pure_eq_ok]
    constructor
    · rintro ⟨d, hd, rfl⟩
      exact .inr ⟨e, d, rfl, rfl, hd⟩
    · rintro (⟨hnone, -⟩ | ⟨e', d, he, rfl, hd⟩)
      · cases hnone
      · obtain rfl := Option.some.inj he
        exact ⟨d, hd, rfl⟩

/-- **A side is accepted with the digest the observer gave it.** -/
theorem fileObject_eq_ok {git : Git} {sizes : OrderedMap String Nat} {size : String → Nat}
    {entry : Option GitTreeEntry} {digest : Option Sha256Digest}
    (hentry : ∀ e ∈ entry, Listed objectFormat e)
    (hsizes : ∀ e ∈ entry, e.type = "blob" → sizes.get e.objectId = some (size e.objectId))
    (h : sideDigest git entry = .ok digest) :
    fileObject entry digest sizes = .ok (sideOf size entry digest) := by
  rcases sideDigest_eq_ok.mp h with ⟨rfl, rfl⟩ | ⟨e, d, rfl, rfl, hd⟩
  · rfl
  · have he := hentry e rfl
    have hmode : exactEntryMode e = .ok e.mode := by
      rw [exactEntryMode, failIf_neg (by simp [he.mode])]
      rfl
    simp only [fileObject, orFail, hmode, ok_bind, sideOf, objectOf]
    rcases isEntryMode_cases he.mode with ⟨htype, -⟩ | ⟨htype, -⟩
    · have hnot : ¬ e.type = "commit" := by
        rw [htype]
        decide
      rw [if_neg hnot, if_neg hnot, hsizes e rfl htype]
      rfl
    · have hnot : ¬ e.type = "blob" := by
        rw [htype]
        decide
      rw [freshDigest, if_neg hnot] at hd
      rw [if_pos htype, if_pos htype, hd, ok_bind, failIf_neg (not_not.mpr rfl)]
      rfl

/-! ## Facts -/

/-- The fact of a delta and its subject. -/
def factOf (size : String → Nat) (delta : TreeDelta) (subject : ChangedSubject) : FileFact where
  path := delta.path
  change := changedKind delta
  before := sideOf size delta.prior subject.beforeDigest
  after := sideOf size delta.next subject.afterDigest

/-- **What a fact says of its path**: the kind of the change and the digests. -/
def FileFact.subject (fact : FileFact) : ChangedSubject where
  path := fact.path
  change := fact.change
  beforeDigest := fact.before.map (·.digest)
  afterDigest := fact.after.map (·.digest)

theorem map_digest_sideOf {git : Git} {size : String → Nat} {entry : Option GitTreeEntry}
    {digest : Option Sha256Digest} (h : sideDigest git entry = .ok digest) :
    (sideOf size entry digest).map (·.digest) = digest := by
  rcases sideDigest_eq_ok.mp h with ⟨rfl, rfl⟩ | ⟨e, d, rfl, rfl, -⟩
  · rfl
  · rw [sideOf, objectOf]
    split <;> rfl

theorem subject_factOf {git : Git} {size : String → Nat} {delta : TreeDelta}
    {subject : ChangedSubject} (h : Observed git delta subject) :
    (factOf size delta subject).subject = subject := by
  obtain ⟨path, change, before, after⟩ := subject
  obtain ⟨hpath, hchange, hbefore, hafter⟩ := h
  simp only at hpath hchange hbefore hafter
  rw [FileFact.subject, factOf, map_digest_sideOf hbefore, map_digest_sideOf hafter, hpath, hchange]

/-- The blobs of two trees. -/
def IsBlob (base candidate : TreeListing objectFormat) (id : String) : Prop :=
  ∃ e, (e ∈ base.entries ∨ e ∈ candidate.entries) ∧ e.type = "blob" ∧ e.objectId = id

/-- The deltas of two trees. -/
def deltasOf (base candidate : TreeListing objectFormat) : List TreeDelta :=
  (differingPaths base candidate).map (deltaAt base candidate)

theorem listed_deltasOf {delta : TreeDelta} (h : delta ∈ deltasOf base candidate) :
    (∀ e ∈ delta.prior, Listed objectFormat e) ∧ ∀ e ∈ delta.next, Listed objectFormat e := by
  obtain ⟨path, -, rfl⟩ := List.mem_map.mp h
  exact ⟨fun e he => TreeListing.listed he, fun e he => TreeListing.listed he⟩

/-- The blobs of the deltas are blobs of the trees. -/
theorem mem_blobIds {id : String} (h : id ∈ blobIds ((deltasOf base candidate).map changeOf)) :
    IsBlob base candidate id ∧ objectIdPattern objectFormat id = true := by
  simp only [blobIds, List.mem_filterMap, List.mem_flatMap, List.mem_map] at h
  obtain ⟨e, ⟨side, ⟨c, ⟨delta, hdelta, rfl⟩, hside⟩, hsome⟩, hid⟩ := h
  obtain ⟨path, -, rfl⟩ := List.mem_map.mp hdelta
  obtain rfl : side = some e := hsome
  split at hid
  · next htype =>
    obtain rfl := Option.some.inj hid
    simp only [changeOf, deltaAt, List.mem_cons, List.not_mem_nil, or_false] at hside
    rcases hside with hbase | hcandidate
    · have he := (TreeListing.entryAt_eq_some_iff.mp hbase.symm).1
      exact ⟨⟨e, .inl he, htype, rfl⟩, base.objects e he⟩
    · have he := (TreeListing.entryAt_eq_some_iff.mp hcandidate.symm).1
      exact ⟨⟨e, .inr he, htype, rfl⟩, candidate.objects e he⟩
  · cases hid

/-- Each delta has two sides. -/
theorem length_blobIds_le (changes : List EntryChange) :
    (blobIds changes).length ≤ 2 * changes.length := by
  have hsides : ∀ c ∈ changes, [c.before, c.after].length = 2 := fun c _ => rfl
  refine (List.length_filterMap_le _ _).trans ((List.length_filterMap_le _ _).trans ?_)
  rw [List.length_flatMap, List.map_congr_left hsides, List.map_const', List.sum_replicate,
    smul_eq_mul, Nat.mul_comm]

theorem mem_blobIds_of_side {delta : TreeDelta} {e : GitTreeEntry} {deltas : List TreeDelta}
    (hdelta : delta ∈ deltas) (he : delta.prior = some e ∨ delta.next = some e)
    (htype : e.type = "blob") : e.objectId ∈ blobIds (deltas.map changeOf) := by
  simp only [blobIds, List.mem_filterMap, List.mem_flatMap, List.mem_map]
  refine ⟨e, ⟨some e, ⟨changeOf delta, ⟨delta, hdelta, rfl⟩, ?_⟩, rfl⟩, if_pos htype⟩
  rcases he with he | he
  · rw [changeOf, he]
    exact List.mem_cons_self
  · rw [changeOf, he]
    exact List.mem_cons_of_mem _ List.mem_cons_self

/-- **Every delta has its fact**, with the subject retained for its path. -/
theorem forall₂_fileFact {git : Git} {sizes : OrderedMap String Nat} {size : String → Nat}
    {retained : OrderedMap String ChangedSubject} {deltas : List TreeDelta}
    {subjects : List ChangedSubject} (h : List.Forall₂ (Observed git) deltas subjects)
    (hretained : ∀ s ∈ subjects, retained.get s.path = some s)
    (hlisted : ∀ d ∈ deltas, (∀ e ∈ d.prior, Listed objectFormat e)
      ∧ ∀ e ∈ d.next, Listed objectFormat e)
    (hsizes : ∀ d ∈ deltas, ∀ e, d.prior = some e ∨ d.next = some e → e.type = "blob" →
      sizes.get e.objectId = some (size e.objectId)) :
    List.Forall₂ (fun c fact => fileFact retained sizes c = .ok fact) (deltas.map changeOf)
      (List.zipWith (factOf size) deltas subjects) := by
  induction h with
  | nil => exact .nil
  | @cons delta subject deltas subjects hobserved _ ih =>
    obtain ⟨hsubject, hretained⟩ := List.forall_mem_cons.mp hretained
    obtain ⟨⟨hprior, hnext⟩, hlisted⟩ := List.forall_mem_cons.mp hlisted
    obtain ⟨hdelta, hsizes⟩ := List.forall_mem_cons.mp hsizes
    refine .cons ?_ (ih hretained hlisted hsizes)
    have hbefore := fileObject_eq_ok hprior (fun e he => hdelta e (.inl he)) hobserved.before
    have hafter := fileObject_eq_ok hnext (fun e he => hdelta e (.inr he)) hobserved.after
    rw [hobserved.path] at hsubject
    have hget : retained.get (changeOf delta).path = some subject := hsubject
    have hchange : ¬ subject.change ≠ (changeOf delta).change := not_not.mpr hobserved.change
    simp only [fileFact, hget, orFail, ok_bind, failIf_neg hchange]
    refine bind_eq_ok.mpr ⟨_, hbefore, bind_eq_ok.mpr ⟨_, hafter, rfl⟩⟩

theorem map_path_of_observed {git : Git} {deltas : List TreeDelta} {subjects : List ChangedSubject}
    (h : List.Forall₂ (Observed git) deltas subjects) :
    subjects.map (·.path) = deltas.map (·.path) := by
  induction h with
  | nil => rfl
  | cons hobserved _ ih => rw [List.map_cons, List.map_cons, hobserved.path, ih]

theorem map_path_deltasOf :
    (deltasOf base candidate).map (·.path) = differingPaths base candidate := by
  rw [deltasOf, List.map_map]
  exact List.map_id' _

/-- **Inspection accepts what was retained**: over the same trees it derives one
fact of every delta. -/
theorem deriveFileFacts_eq_ok {git : Git} {size : String → Nat} {subjects : List ChangedSubject}
    (hgit : AnswersSizes git (IsBlob base candidate) size)
    (hcount : (differingPaths base candidate).length ≤ changedPathLimit)
    (h : List.Forall₂ (Observed git) (deltasOf base candidate) subjects) :
    deriveFileFacts git base.entries candidate.entries subjects
      = .ok (List.zipWith (factOf size) (deltasOf base candidate) subjects) := by
  have hpaths : subjects.map (·.path) = differingPaths base candidate := by
    rw [map_path_of_observed h, map_path_deltasOf]
  have hnodup : (subjects.map (·.path)).Nodup := hpaths ▸ nodup_differingPaths base candidate
  have hentries : (subjects.foldl (fun m s => m.set s.path s) (∅ : OrderedMap String ChangedSubject)).entries
      = subjects.map fun s => (s.path, s) := OrderedMap.entries_foldl_set_empty hnodup
  have hchanges : changesOf (byPath base.entries) (byPath candidate.entries)
      = (deltasOf base candidate).map changeOf := by
    rw [changesOf_eq, deltasOf, List.map_map]
    rfl
  have hlength : subjects.length = (differingPaths base candidate).length := by
    rw [← hpaths, List.length_map]
  have hdeltas : (deltasOf base candidate).length = (differingPaths base candidate).length :=
    List.length_map _
  have hids : (blobIds ((deltasOf base candidate).map changeOf)).length ≤ maximumTreeEntries := by
    refine (length_blobIds_le _).trans ?_
    rw [List.length_map, hdeltas]
    have hlimit : 2 * changedPathLimit ≤ maximumTreeEntries := by decide
    omega
  obtain ⟨sizes, hsizes, hget⟩ := exactBlobSizes_eq_ok hgit (fun id hid => mem_blobIds hid) hids
  unfold deriveFileFacts
  rw [hchanges]
  refine bind_eq_ok.mpr ⟨(), failIf_neg ?_, bind_eq_ok.mpr ⟨(), failIf_neg ?_, ?_⟩⟩
  · rw [List.length_map, hdeltas]
    exact Nat.not_lt.mpr hcount
  · rw [hentries, List.length_map, List.length_map, hdeltas, hlength]
    exact not_not.mpr rfl
  · refine bind_eq_ok.mpr ⟨sizes, hsizes, mapM_eq_ok_iff.mpr ?_⟩
    refine forall₂_fileFact h (fun s hs => ?_) (fun d => listed_deltasOf) ?_
    · rw [OrderedMap.get_eq_some_iff, hentries]
      exact List.mem_map_of_mem hs
    · intro d hd e he htype
      exact hget _ (mem_blobIds_of_side hd he htype)

/-- The facts say of their paths what the subjects do. -/
theorem map_subject_zipWith {git : Git} {size : String → Nat} {deltas : List TreeDelta}
    {subjects : List ChangedSubject} (h : List.Forall₂ (Observed git) deltas subjects) :
    (List.zipWith (factOf size) deltas subjects).map FileFact.subject = subjects := by
  induction h with
  | nil => rfl
  | cons hobserved _ ih =>
    rw [List.zipWith_cons_cons, List.map_cons, subject_factOf hobserved, ih]

end CodeInspection
