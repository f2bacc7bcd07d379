import Lifecycle.CodePages

/-!
# A Candidate is reviewed as it was retained

What the observer of a Carrier retains of a Candidate and what inspection shows
of it, over any two trees: the deltas lead from the one to the other, the
subjects name each changed path once, and inspection derives one fact of each
and lists them all (`changedSubjects_reviewable`).
-/

open Fallible Json ControlModel Knowledge SortedBy Carrier Candidate CodeInspection Segments

namespace CandidateReview

variable {objectFormat : GitObjectFormat}

/-- What a row says of its path. -/
def rowSubject (r : CodeFileRow) : ChangedSubject where
  path := r.path
  change := r.change
  beforeDigest := r.before.map (·.digest)
  afterDigest := r.after.map (·.digest)

/-- Facts whose subjects rise in their paths can be listed. -/
theorem listable_of_subjects {basis : CodeBasis} {facts : List FileFact}
    {subjects : List ChangedSubject} (hsubjects : facts.map FileFact.subject = subjects)
    (hsorted : (subjects.map (·.path)).Pairwise fun a b => codePointLe a b = true ∧ a ≠ b)
    (hshown : ∀ f ∈ facts, Shown f) (hcollision : NoCollision basis facts)
    (hcount : basis.changedPathCount = facts.length) : Listable basis facts := by
  have hpaths : facts.map (·.path) = subjects.map (·.path) := by
    rw [← hsubjects, List.map_map]
    rfl
  rw [← hpaths] at hsorted
  have hnodup : (facts.map (·.path)).Nodup := hsorted.imp And.right
  refine ⟨hshown, ?_, hsorted, hcount⟩
  refine List.pairwise_map.mpr ((List.pairwise_map.mp hnodup).imp_of_mem ?_)
  intro f g hf hg hne heq
  exact hne (path_eq_of_cursorDigest hcollision hf hg heq)

/-- **A retained change inventory is exact and can be reviewed.** The deltas
applied to the base give the Candidate; the subjects name each changed path
once, in order, with the digests of its two sides; inspection over the same
trees succeeds with the same paths, changes and digests; and where the digests
of the cursors do not collide, following them with any limits lists every
subject once. -/
theorem changedSubjects_reviewable {base candidate : TreeListing objectFormat} {git : Git}
    {size : String → Nat} {deltas : List TreeDelta} {subjects : List ChangedSubject}
    (hgit : AnswersSizes git (IsBlob base candidate) size)
    (hdeltas : treeDeltas base.entries candidate.entries = .ok deltas)
    (hsubjects : changedSubjects git deltas = .ok subjects) :
    (KeyedDelta.applyAll (·.path) base.entries (deltas.map TreeDelta.keyed)).Perm candidate.entries
      ∧ (subjects.map (·.path)).Pairwise (fun a b => codePointLe a b = true ∧ a ≠ b)
      ∧ (∀ path, path ∈ subjects.map (·.path) ↔ base.entryAt path ≠ candidate.entryAt path)
      ∧ (∀ s ∈ subjects, sideDigest git (base.entryAt s.path) = .ok s.beforeDigest
        ∧ sideDigest git (candidate.entryAt s.path) = .ok s.afterDigest)
      ∧ ∃ facts, deriveFileFacts git base.entries candidate.entries subjects = .ok facts
        ∧ facts.map FileFact.subject = subjects
        ∧ ∀ basisDigest, NoCollision ⟨basisDigest, facts.length⟩ facts →
          ∀ limits : List IndexLimit, facts.length < limits.length →
            ∃ rows, followPages ⟨basisDigest, facts.length⟩ facts limits none = .ok rows
              ∧ rows.map rowSubject = subjects := by
  obtain ⟨rfl, hcount⟩ := treeDeltas_eq_ok.mp hdeltas
  have hobserved := changedSubjects_eq_ok (fun d hd => listed_deltasOf hd) hsubjects
  have hpaths : subjects.map (·.path) = differingPaths base candidate := by
    rw [map_path_of_observed hobserved]
    exact map_path_deltasOf
  have hsorted : (subjects.map (·.path)).Pairwise fun a b => codePointLe a b = true ∧ a ≠ b :=
    hpaths ▸ pairwise_differingPaths base candidate
  refine ⟨applyAll_treeDeltas hdeltas, hsorted, fun path => ?_, fun s hs => ?_, ?_⟩
  · rw [hpaths]
    exact mem_differingPaths
  · obtain ⟨delta, hdelta, hs⟩ := exists_of_forall₂ hobserved hs
    obtain ⟨path, -, rfl⟩ := List.mem_map.mp hdelta
    rw [hs.path]
    exact ⟨hs.before, hs.after⟩
  · have hfacts : (List.zipWith (factOf size) (deltasOf base candidate) subjects).map FileFact.subject
        = subjects := map_subject_zipWith hobserved
    refine ⟨_, deriveFileFacts_eq_ok hgit hcount hobserved, hfacts, ?_⟩
    intro basisDigest hcollision limits hlimits
    have hshown := shown_zipWith hgit (fun path => mem_differingPaths.mp) hobserved
    have hlistable := listable_of_subjects hfacts hsorted hshown hcollision rfl
    refine ⟨_, followPages_eq_ok hlistable (Nat.zero_le _) hlimits, ?_⟩
    rw [List.drop_zero, List.map_map]
    exact hfacts

namespace Sample

/-- The identity of the empty blob. -/
def emptyBlob : String := "e69de29bb2d1d6434b8b29ae775ad8c2e48c5391"

def entry (mode : String) : GitTreeEntry := ⟨"bin/run", "blob", mode, emptyBlob⟩

theorem paths_entry (mode : String) :
    ∀ e ∈ [entry mode], isRepositoryPath e.path = true ∧ '\x00' ∉ e.path.toList := by
  intro e he
  rw [List.mem_singleton.mp he]
  show isRepositoryPath "bin/run" = true ∧ '\x00' ∉ "bin/run".toList
  decide +kernel

theorem objects_entry (mode : String) :
    ∀ e ∈ [entry mode], objectIdPattern .sha1 e.objectId = true := by
  intro e he
  rw [List.mem_singleton.mp he]
  show objectIdPattern .sha1 emptyBlob = true
  decide +kernel

theorem modes_entry {mode : String} (h : isEntryMode (entry mode) = true) :
    ∀ e ∈ [entry mode], isEntryMode e = true := by
  intro e he
  rw [List.mem_singleton.mp he]
  exact h

/-- A tree of one empty file. -/
def tree (mode : String) (h : isEntryMode (entry mode) = true) : TreeListing .sha1 where
  entries := [entry mode]
  distinct := List.nodup_singleton _
  paths := paths_entry mode
  objects := objects_entry mode
  modes := modes_entry h

def base : TreeListing .sha1 := tree "100644" rfl

/-- The file is made executable. -/
def candidate : TreeListing .sha1 := tree "100755" rfl

/-- A repository whose blobs are empty. -/
def git : Git where
  catFileBlob _ _ := .ok ⟨0, none, false, false, false, []⟩
  batchCheck input _ := .ok ⟨0, none, false, false, false, String.ofList (terminated '\n'
    ((input.toList.splitOn '\n').dropLast.map fun line => line ++ " blob 0".toList))⟩

def deltas : List TreeDelta := [⟨"bin/run", some (entry "100644"), some (entry "100755")⟩]

def subjects : List ChangedSubject :=
  [⟨"bin/run", .modeChanged, some (sha256Bytes []), some (sha256Bytes [])⟩]

def limit : IndexLimit where
  value := 1
  pos := Nat.le_refl 1
  le := Nat.le_of_ble_eq_true rfl

theorem eq_emptyBlob {id : String} (h : IsBlob base candidate id) : id = emptyBlob := by
  obtain ⟨e, he, -, rfl⟩ := h
  rcases he with he | he
  · rw [List.mem_singleton.mp he]
    rfl
  · rw [List.mem_singleton.mp he]
    rfl

theorem answersSizes : AnswersSizes git (IsBlob base candidate) fun _ => 0 := by
  refine ⟨fun _ _ => Nat.zero_le _, fun ids maximum _ hids _ => ?_⟩
  have hfree : Free '\n' (ids.map String.toList) := by
    intro line hline hbreak
    obtain ⟨id, hid, rfl⟩ := List.mem_map.mp hline
    rw [eq_emptyBlob (hids id hid)] at hbreak
    exact absurd hbreak (by decide +kernel)
  have hrequest : (sizeRequest ids).toList = terminated '\n' (ids.map String.toList) := by
    rw [sizeRequest, String.toList_ofList, terminated, List.flatMap_map]
  show Except.ok (CommandResult.mk _ _ _ _ _ _) = _
  have hzero : " blob 0".toList = " blob ".toList ++ Nat.toDigits 10 0 := by decide +kernel
  rw [hrequest, splitOn_terminated hfree, List.dropLast_concat, List.map_map, hzero]
  rfl

end Sample

theorem changedSubjects_reviewable_sample : ∃ facts rows,
    deriveFileFacts Sample.git Sample.base.entries Sample.candidate.entries Sample.subjects
        = .ok facts
      ∧ facts.map FileFact.subject = Sample.subjects
      ∧ followPages ⟨sha256Bytes [], 1⟩ facts [Sample.limit, Sample.limit] none = .ok rows
      ∧ rows.map rowSubject = Sample.subjects := by
  have hdeltas : treeDeltas Sample.base.entries Sample.candidate.entries = .ok Sample.deltas := rfl
  have hsubjects : changedSubjects Sample.git Sample.deltas = .ok Sample.subjects := rfl
  obtain ⟨-, -, -, -, facts, hfacts, hmap, hpages⟩ :=
    changedSubjects_reviewable Sample.answersSizes hdeltas hsubjects
  have hlength : facts.length = 1 := by
    rw [← List.length_map FileFact.subject, hmap]
    rfl
  obtain ⟨fact, rfl⟩ := List.length_eq_one_iff.mp hlength
  have hcollision : NoCollision ⟨sha256Bytes [], 1⟩ [fact] := by
    intro f hf g hg text text' htext htext' _
    rw [List.mem_singleton.mp hf] at htext
    rw [List.mem_singleton.mp hg, htext] at htext'
    exact Except.ok.inj htext'
  obtain ⟨rows, hrows, hrowSubjects⟩ := hpages (sha256Bytes []) hcollision
    [Sample.limit, Sample.limit] (Nat.lt_succ_self 1)
  exact ⟨[fact], rows, hfacts, hmap, hrows, hrowSubjects⟩

end CandidateReview
