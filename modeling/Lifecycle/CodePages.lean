import Lifecycle.FileFacts
import Lifecycle.PlainPayloads

/-!
# The pages of a code index

The rows of the facts of a Candidate rise in their paths, each under a cursor of
its own, and every page of them passes the schema of the protocol. Following the
cursor of each page to the next one lists the rows one after another and none of
them twice (`followPages_eq_ok`). A cursor is a digest, so this needs that the
digests of the rows at hand do not collide.
-/

open Fallible Json ControlModel Knowledge SortedBy Carrier Candidate

namespace CodeInspection

variable {objectFormat : GitObjectFormat} {base candidate : TreeListing objectFormat}

/-! ## Rows the schema accepts -/

/-- Paths of a repository are relative paths. -/
theorem isRelativePath_of_isRepositoryPath {path : String} (h : isRepositoryPath path = true)
    (hnul : '\x00' ∉ path.toList) : isRelativePath path = true := by
  simp only [isRepositoryPath, Bool.and_eq_true, decide_eq_true_eq] at h
  obtain ⟨⟨⟨⟨⟨⟨⟨hpos, hbytes⟩, hhead⟩, hback⟩, hquery⟩, hhash⟩, hencoded⟩, hsegments⟩ := h
  have hne : path ≠ "" := by
    rintro rfl
    exact absurd hpos (by decide +kernel)
  simp only [isRelativePath, Bool.and_eq_true, decide_eq_true_eq]
  refine ⟨⟨⟨⟨⟨⟨⟨⟨hne, hbytes⟩, hhead⟩, ?_⟩, hback⟩, hquery⟩, hhash⟩, hencoded⟩, hsegments⟩
  simpa using hnul

/-- **A fact the schema of a row has nothing against.** -/
structure Shown (fact : FileFact) : Prop where
  path : isRelativePath fact.path = true
  before : fact.before.all isFileObject = true
  after : fact.after.all isFileObject = true
  change : changeFits fact.change fact.before fact.after = true

theorem isSha256_freshDigest {git : Git} {e : GitTreeEntry} {digest : Sha256Digest}
    (h : freshDigest git e = .ok digest) : isSha256 digest = true := by
  unfold freshDigest at h
  split at h
  · obtain ⟨bytes, -, hdigest⟩ := bind_eq_ok.mp h
    rw [pure_eq_ok] at hdigest
    exact hdigest ▸ isSha256_sha256Bytes bytes
  · obtain ⟨text, -, hdigest⟩ := bind_eq_ok.mp h
    rw [pure_eq_ok] at hdigest
    exact hdigest ▸ isSha256_sha256Bytes text

/-- An object of a listed entry is one of the schema. -/
theorem isFileObject_objectOf {git : Git} {size : String → Nat} {e : GitTreeEntry}
    {digest : Sha256Digest} (he : Listed objectFormat e) (hdigest : freshDigest git e = .ok digest)
    (hsize : e.type = "blob" → size e.objectId ≤ maxSafeInteger) :
    isFileObject (objectOf size e digest) = true := by
  have hobject : isGitObject e.objectId = true := by
    rw [isGitObject, Bool.or_eq_true]
    cases objectFormat with
    | sha1 => exact .inl he.object
    | sha256 => exact .inr he.object
  have hsha := isSha256_freshDigest hdigest
  rcases isEntryMode_cases he.mode with ⟨htype, hmode⟩ | ⟨htype, -⟩
  · have hnot : ¬ e.type = "commit" := by
      rw [htype]
      decide
    have hle := hsize htype
    rw [objectOf, if_neg hnot]
    simp only [isFileObject, hobject, hsha, Bool.true_and, Bool.or_eq_true, Bool.and_eq_true,
      decide_eq_true_eq, Option.any_some]
    exact .inl ⟨⟨trivial, List.contains_iff_mem.mpr hmode⟩, hle⟩
  · rw [objectOf, if_pos htype]
    simp [isFileObject, hobject, hsha]

theorem all_sideOf {git : Git} {size : String → Nat} {entry : Option GitTreeEntry}
    {digest : Option Sha256Digest} (hentry : ∀ e ∈ entry, Listed objectFormat e)
    (hdigest : sideDigest git entry = .ok digest)
    (hsize : ∀ e ∈ entry, e.type = "blob" → size e.objectId ≤ maxSafeInteger) :
    (sideOf size entry digest).all isFileObject = true := by
  rcases sideDigest_eq_ok.mp hdigest with ⟨rfl, rfl⟩ | ⟨e, d, rfl, rfl, hd⟩
  · rfl
  · exact isFileObject_objectOf (hentry e rfl) hd (hsize e rfl)

/-- What an object keeps of its entry. -/
theorem objectOf_facts (size : String → Nat) (digest : Sha256Digest) {e : GitTreeEntry}
    (he : isEntryMode e = true) : (objectOf size e digest).type = e.type
      ∧ (objectOf size e digest).mode = e.mode ∧ (objectOf size e digest).objectId = e.objectId := by
  rcases isEntryMode_cases he with ⟨htype, -⟩ | ⟨htype, hmode⟩
  · have hnot : ¬ e.type = "commit" := by
      rw [htype]
      decide
    rw [objectOf, if_neg hnot]
    exact ⟨htype.symm, rfl, rfl⟩
  · rw [objectOf, if_pos htype]
    exact ⟨htype.symm, hmode.symm, rfl⟩

/-- **The kind of a change fits the two sides.** -/
theorem changeFits_factOf {git : Git} {size : String → Nat} {path : String}
    {subject : ChangedSubject} (hdiffer : base.entryAt path ≠ candidate.entryAt path)
    (h : Observed git (deltaAt base candidate path) subject) :
    changeFits (factOf size (deltaAt base candidate path) subject).change
      (factOf size (deltaAt base candidate path) subject).before
      (factOf size (deltaAt base candidate path) subject).after = true := by
  have hprior : (deltaAt base candidate path).prior = base.entryAt path := rfl
  have hnext : (deltaAt base candidate path).next = candidate.entryAt path := rfl
  have hlisted := listed_deltasOf (List.mem_map_of_mem (mem_differingPaths.mpr hdiffer))
  simp only [factOf]
  rcases sideDigest_eq_ok.mp h.before with ⟨hbase, hbefore⟩ | ⟨e, d, hbase, hbefore, -⟩ <;>
    rcases sideDigest_eq_ok.mp h.after with ⟨hcandidate, hafter⟩ | ⟨e', d', hcandidate, hafter, -⟩
  · exact absurd (hbase.trans hcandidate.symm) hdiffer
  · rw [hbase, hcandidate, hbefore, hafter, changedKind, hbase]
    rfl
  · rw [hbase, hcandidate, hbefore, hafter, changedKind, hbase, hcandidate]
    rfl
  · obtain ⟨htype, hmode, hobject⟩ := objectOf_facts size d
      (hlisted.1 e hbase).mode
    obtain ⟨htype', hmode', hobject'⟩ := objectOf_facts size d'
      (hlisted.2 e' hcandidate).mode
    rw [changedKind, hbase, hcandidate, hbefore, hafter]
    simp only [sideOf]
    by_cases htypes : e.type = e'.type
    · by_cases hmodes : e.mode = e'.mode
      · have hobjects : e.objectId ≠ e'.objectId := by
          intro hobjects
          refine hdiffer ?_
          rw [← sameTreeEntry_iff, ← hprior, ← hnext, hbase, hcandidate]
          simp [sameTreeEntry, htypes, hmodes, hobjects]
        rw [if_neg (not_not.mpr htypes), if_neg (not_not.mpr hmodes)]
        simp only [changeFits, htype, htype', hmode, hmode', hobject, hobject', decide_eq_true_eq]
        exact ⟨htypes, hmodes, hobjects⟩
      · rw [if_neg (not_not.mpr htypes), if_pos hmodes]
        simp only [changeFits, htype, htype', hmode, hmode', decide_eq_true_eq]
        exact ⟨htypes, hmodes⟩
    · rw [if_pos htypes]
      simp only [changeFits, htype, htype', decide_eq_true_eq]
      exact htypes

/-- A path at which two trees differ is one of their paths. -/
theorem isRelativePath_of_differ {path : String}
    (h : base.entryAt path ≠ candidate.entryAt path) : isRelativePath path = true := by
  have hlisted : ∀ tree : TreeListing objectFormat, tree.entryAt path ≠ none →
      isRelativePath path = true := by
    intro tree hsome
    obtain ⟨e, he⟩ := Option.ne_none_iff_exists'.mp hsome
    obtain ⟨hmem, rfl⟩ := TreeListing.entryAt_eq_some_iff.mp he
    exact isRelativePath_of_isRepositoryPath (tree.paths e hmem).1 (tree.paths e hmem).2
  by_cases hbase : base.entryAt path = none
  · exact hlisted candidate fun hcandidate => h (hbase.trans hcandidate.symm)
  · exact hlisted base hbase

/-- **Every fact of the deltas can be shown.** -/
theorem shown_zipWith {git : Git} {size : String → Nat} {paths : List String}
    {subjects : List ChangedSubject} (hgit : AnswersSizes git (IsBlob base candidate) size)
    (hpaths : ∀ path ∈ paths, base.entryAt path ≠ candidate.entryAt path)
    (h : List.Forall₂ (Observed git) (paths.map (deltaAt base candidate)) subjects) :
    ∀ fact ∈ List.zipWith (factOf size) (paths.map (deltaAt base candidate)) subjects,
      Shown fact := by
  induction paths generalizing subjects with
  | nil => simp
  | cons path paths ih =>
    cases subjects with
    | nil => simp
    | cons subject subjects =>
      obtain ⟨hobserved, hrest⟩ := List.forall₂_cons.mp h
      obtain ⟨hdiffer, hpaths⟩ := List.forall_mem_cons.mp hpaths
      rw [List.map_cons, List.zipWith_cons_cons, List.forall_mem_cons]
      refine ⟨?_, ih hpaths hrest⟩
      have hlisted := listed_deltasOf (List.mem_map_of_mem (mem_differingPaths.mpr hdiffer))
      constructor
      · exact isRelativePath_of_differ hdiffer
      · refine all_sideOf hlisted.1 hobserved.before fun e he htype => hgit.safe _ ?_
        exact ⟨e, .inl (TreeListing.entryAt_eq_some_iff.mp he).1, htype, rfl⟩
      · refine all_sideOf hlisted.2 hobserved.after fun e he htype => hgit.safe _ ?_
        exact ⟨e, .inr (TreeListing.entryAt_eq_some_iff.mp he).1, htype, rfl⟩
      · exact changeFits_factOf hdiffer hobserved

/-! ## Cursors -/

theorem plain_nullable (o : Option String) : (nullable o).Plain ∧ (nullable o).DistinctNames := by
  cases o <;> exact ⟨trivial, trivial⟩

/-- The text a cursor digests. -/
def cursorText (basis : CodeBasis) (fact : FileFact) : Except FoundationError (List UInt8) :=
  canonicalJson (inspectionCursorValue basis.digest "code-files"
    (codeFileCursorKey fact.path fact.change fact.before fact.after))

/-- The names of a cursor value and of its key. -/
theorem cursorKeys_inOrder : ∀ names ∈ [["basisDigest", "collection", "key", "schema"],
    ["afterObjectId", "beforeObjectId", "change", "path"]],
    names.Nodup ∧ names.Pairwise fun a b => codeUnitLe a b = true := by
  decide +kernel

/-- The value of a cursor can be written, and its text determines it. -/
theorem plain_cursorValue (basis : CodeBasis) (fact : FileFact) :
    (inspectionCursorValue basis.digest "code-files"
        (codeFileCursorKey fact.path fact.change fact.before fact.after)).Plain
      ∧ (inspectionCursorValue basis.digest "code-files"
        (codeFileCursorKey fact.path fact.change fact.before fact.after)).DistinctNames := by
  obtain ⟨hbefore, hbefore'⟩ := plain_nullable (fact.before.map (·.objectId))
  obtain ⟨hafter, hafter'⟩ := plain_nullable (fact.after.map (·.objectId))
  obtain ⟨houter, houter'⟩ := cursorKeys_inOrder _ List.mem_cons_self
  obtain ⟨hinner, hinner'⟩ := cursorKeys_inOrder _ (List.mem_cons_of_mem _ List.mem_cons_self)
  constructor
  · exact ⟨⟨trivial, trivial, ⟨⟨hafter, hbefore, trivial, trivial, trivial⟩, hinner'⟩, trivial, trivial⟩,
      houter'⟩
  · exact ⟨houter, trivial, trivial, ⟨hinner, hafter', hbefore', trivial, trivial, trivial⟩, trivial,
      trivial⟩

/-- The digest of the text of a cursor. -/
def cursorDigest (basis : CodeBasis) (fact : FileFact) : Sha256Digest :=
  match cursorText basis fact with
  | .ok text => sha256Bytes text
  | .error _ => ""

/-- **Every row has a cursor**: the digest of its text. -/
theorem rowCursor_eq (basis : CodeBasis) (fact : FileFact) :
    ∃ text, cursorText basis fact = .ok text ∧ cursorDigest basis fact = sha256Bytes text
      ∧ rowCursor basis fact = .ok (cursorDigest basis fact) := by
  obtain ⟨text, htext, -⟩ := exists_text_of_plain (plain_cursorValue basis fact).1
  have hcursor : cursorText basis fact = .ok text := htext
  have hdigest : cursorDigest basis fact = sha256Bytes text := by
    rw [cursorDigest, hcursor]
  refine ⟨text, hcursor, hdigest, ?_⟩
  rw [hdigest]
  exact bind_eq_ok.mpr ⟨text, htext, rfl⟩

/-- **SHA-256 does not collide on the cursor texts of some facts.** -/
def NoCollision (basis : CodeBasis) (facts : List FileFact) : Prop :=
  ∀ f ∈ facts, ∀ g ∈ facts, ∀ text text', cursorText basis f = .ok text →
    cursorText basis g = .ok text' → sha256Bytes text = sha256Bytes text' → text = text'

/-- **A cursor names a path.** -/
theorem path_eq_of_cursorDigest {basis : CodeBasis} {facts : List FileFact} {f g : FileFact}
    (hcollision : NoCollision basis facts) (hf : f ∈ facts) (hg : g ∈ facts)
    (h : cursorDigest basis f = cursorDigest basis g) : f.path = g.path := by
  obtain ⟨text, htext, hdigest, -⟩ := rowCursor_eq basis f
  obtain ⟨text', htext', hdigest', -⟩ := rowCursor_eq basis g
  rw [hdigest, hdigest'] at h
  obtain rfl := hcollision f hf g hg text text' htext htext' h
  have hvalue := canonicalJson_injective (plain_cursorValue basis f).1 (plain_cursorValue basis f).2
    (plain_cursorValue basis g).1 (plain_cursorValue basis g).2 htext htext'
  simp only [inspectionCursorValue, codeFileCursorKey, Json.object.injEq, List.cons.injEq,
    Prod.mk.injEq, Json.string.injEq, true_and, and_true] at hvalue
  exact hvalue.2.2.2

/-- The row of a fact. -/
def rowOf (basis : CodeBasis) (fact : FileFact) : CodeFileRow :=
  ⟨cursorDigest basis fact, fact.path, fact.change, fact.before, fact.after⟩

theorem row_eq_ok (basis : CodeBasis) (fact : FileFact) : row basis fact = .ok (rowOf basis fact) := by
  obtain ⟨text, -, -, hcursor⟩ := rowCursor_eq basis fact
  exact bind_eq_ok.mpr ⟨_, hcursor, rfl⟩

/-- A traversal that returns at every entry. -/
theorem mapM_eq_ok_map {α β : Type} {f : α → Except FoundationError β} {g : α → β}
    (h : ∀ x, f x = .ok (g x)) (xs : List α) : xs.mapM f = .ok (xs.map g) := by
  rw [mapM_eq_ok_iff]
  induction xs with
  | nil => exact .nil
  | cons x xs ih => exact .cons (h x) ih

/-! ## Pages -/

/-- **Facts that can be listed**: the schema of a row has nothing against them,
their cursors are different and their paths rise. -/
structure Listable (basis : CodeBasis) (facts : List FileFact) : Prop where
  shown : ∀ f ∈ facts, Shown f
  cursors : (facts.map (cursorDigest basis)).Nodup
  sorted : (facts.map (·.path)).Pairwise fun a b => codePointLe a b = true ∧ a ≠ b
  count : basis.changedPathCount = facts.length

section Pages

variable {basis : CodeBasis} {facts : List FileFact}

/-- The cursor behind the first rows. -/
def cursorAfter (basis : CodeBasis) (facts : List FileFact) (n : Nat) : Option Sha256Digest :=
  (facts.take n).getLast?.map (cursorDigest basis)

theorem cursorAfter_succ {n : Nat} (hn : n < facts.length) :
    cursorAfter basis facts (n + 1) = some (cursorDigest basis facts[n]) := by
  rw [cursorAfter, List.take_succ_eq_append_getElem hn, List.getLast?_concat, Option.map_some]

/-- **Rows of a listing pass the schema.** -/
theorem isCodeFileRow_rowOf {fact : FileFact} (h : Shown fact) :
    isCodeFileRow (rowOf basis fact) = true := by
  obtain ⟨text, -, hdigest, -⟩ := rowCursor_eq basis fact
  have hsha : isSha256 (cursorDigest basis fact) = true := hdigest ▸ isSha256_sha256Bytes text
  simp only [isCodeFileRow, rowOf, hsha, h.path, h.before, h.after, h.change, Bool.and_self]

theorem bindsCursor_rowOf (basis : CodeBasis) (fact : FileFact) :
    bindsCursor basis (rowOf basis fact) = true := by
  obtain ⟨text, -, -, hcursor⟩ := rowCursor_eq basis fact
  exact decide_eq_true hcursor

/-- Neighbours of a list that rises. -/
theorem all_zip_tail_of_pairwise {α : Type} {p : α → α → Bool} {xs : List α}
    (h : xs.Pairwise fun a b => p a b = true) :
    (xs.zip xs.tail).all (fun ab => p ab.1 ab.2) = true := by
  induction h with
  | nil => rfl
  | @cons a xs hall _ ih =>
    cases xs with
    | nil => rfl
    | cons b xs =>
      rw [List.tail_cons, List.zip_cons_cons, List.all_cons, hall b List.mem_cons_self]
      exact ih

/-- **A page of a listing passes the schema.** -/
theorem isCodeIndexResult_page (h : Listable basis facts) {page : List FileFact}
    (hpage : page.Sublist facts) (hlimit : page.length ≤ contextIndexLimit)
    {next : Option Sha256Digest} (hnext : next = none ∨ (page ≠ [] ∧ page.length < facts.length
      ∧ next = page.getLast?.map (cursorDigest basis))) :
    isCodeIndexResult ⟨basis, page.map (rowOf basis), next⟩ = true := by
  have hpaths : (page.map (rowOf basis)).map (·.path) = page.map (·.path) := by
    rw [List.map_map]
    rfl
  have hcursors : (page.map (rowOf basis)).map (·.cursor) = page.map (cursorDigest basis) := by
    rw [List.map_map]
    rfl
  have hlast : (page.map (rowOf basis)).getLast?.map (·.cursor)
      = page.getLast?.map (cursorDigest basis) := by
    rw [List.getLast?_map, Option.map_map]
    rfl
  have hsorted : (page.map (·.path)).Pairwise fun a b => codePointLe a b = true ∧ a ≠ b :=
    h.sorted.sublist (hpage.map _)
  have hprecedes : (page.map (rowOf basis)).Pairwise fun a b => precedes a.path b.path = true := by
    rw [List.pairwise_map]
    refine (List.pairwise_map.mp hsorted).imp fun hab => ?_
    rw [precedes, Bool.and_eq_true, Bool.not_eq_true', ← Bool.not_eq_true]
    exact ⟨hab.1, fun hba => hab.2 (codePointLe_antisymm hab.1 hba)⟩
  have hshown : ∀ r ∈ page.map (rowOf basis), isCodeFileRow r = true ∧ bindsCursor basis r = true := by
    intro r hr
    obtain ⟨fact, hfact, rfl⟩ := List.mem_map.mp hr
    exact ⟨isCodeFileRow_rowOf (h.shown fact (hpage.subset hfact)), bindsCursor_rowOf basis fact⟩
  have hnextSha : next.all isSha256 = true := by
    rcases hnext with rfl | ⟨-, -, rfl⟩
    · rfl
    · cases page.getLast? with
      | none => rfl
      | some fact =>
        obtain ⟨text, -, hdigest, -⟩ := rowCursor_eq basis fact
        rw [Option.map_some, Option.all_some, hdigest]
        exact isSha256_sha256Bytes text
  simp only [isCodeIndexResult, Bool.and_eq_true, Bool.or_eq_true, List.all_eq_true,
    decide_eq_true_eq, hpaths, hcursors, hlast, hnextSha, List.length_map, h.count, ne_eq,
    List.map_eq_nil_iff]
  refine ⟨⟨⟨⟨⟨⟨⟨⟨fun r hr => (hshown r hr).1, hlimit⟩, trivial⟩, hsorted.imp And.right⟩, ?_⟩, ?_⟩,
    fun r hr => (hshown r hr).2⟩, List.all_eq_true.mp (all_zip_tail_of_pairwise hprecedes)⟩, ?_⟩
  · exact h.cursors.sublist (hpage.map _)
  · exact hpage.length_le
  · rcases hnext with rfl | ⟨hne, hlt, rfl⟩
    · exact .inl rfl
    · exact .inr ⟨⟨hne, rfl⟩, Nat.ne_of_lt hlt⟩

/-- **A cursor is found where its row is.** -/
theorem findIdx?_cursor (h : Listable basis facts) {n : Nat} (hn : n < facts.length) :
    (facts.map (cursorDigest basis)).findIdx?
      (fun c => decide (c = cursorDigest basis facts[n])) = some n := by
  rw [List.findIdx?_eq_some_iff_getElem]
  refine ⟨by rwa [List.length_map], by simp, fun j hj => ?_⟩
  simp only [List.getElem_map, decide_eq_true_eq]
  intro heq
  have hlt : j < (facts.map (cursorDigest basis)).length := by
    rw [List.length_map]
    omega
  have hlt' : n < (facts.map (cursorDigest basis)).length := by rwa [List.length_map]
  have hindex : (facts.map (cursorDigest basis))[j] = (facts.map (cursorDigest basis))[n] := by
    simpa using heq
  rw [h.cursors.getElem_inj_iff] at hindex
  omega

/-- **A page begins where the one before it ended.** -/
theorem compileFoundationCodeIndex_eq_ok (h : Listable basis facts) {n : Nat}
    (hn : n ≤ facts.length) (limit : IndexLimit) :
    compileFoundationCodeIndex basis facts (cursorAfter basis facts n) limit
      = .ok ⟨basis, ((facts.drop n).take limit.value).map (rowOf basis),
        if n + limit.value < facts.length then cursorAfter basis facts (n + limit.value)
        else none⟩ := by
  have hstart : pageStart basis facts (cursorAfter basis facts n) = .ok n := by
    cases n with
    | zero => rfl
    | succ n =>
      have hcursors : facts.mapM (rowCursor basis) = .ok (facts.map (cursorDigest basis)) := by
        refine mapM_eq_ok_map (fun fact => ?_) facts
        obtain ⟨text, -, -, hcursor⟩ := rowCursor_eq basis fact
        exact hcursor
      rw [cursorAfter_succ hn]
      exact bind_eq_ok.mpr ⟨_, hcursors, bind_eq_ok.mpr ⟨n, orFail_eq_ok.mpr (findIdx?_cursor h hn), rfl⟩⟩
  have hlength : ((facts.drop n).take limit.value).length = min limit.value (facts.length - n) := by
    rw [List.length_take, List.length_drop]
  have hlast : n + limit.value < facts.length →
      ((facts.drop n).take limit.value).getLast?.map (cursorDigest basis)
        = cursorAfter basis facts (n + limit.value) := by
    intro hlt
    obtain ⟨k, hk⟩ : ∃ k, limit.value = k + 1 := Nat.exists_eq_succ_of_ne_zero (by have := limit.pos; omega)
    have hindex : n + k < facts.length := by omega
    rw [hk, ← Nat.add_assoc, cursorAfter_succ hindex,
      List.take_succ_eq_append_getElem (by rw [List.length_drop]; omega), List.getLast?_concat,
      Option.map_some, List.getElem_drop]
  have hnext : (if n + ((facts.drop n).take limit.value).length < facts.length
      then (((facts.drop n).take limit.value).map (rowOf basis)).getLast?.map (·.cursor) else none)
        = if n + limit.value < facts.length then cursorAfter basis facts (n + limit.value)
          else none := by
    by_cases hlt : n + limit.value < facts.length
    · have htaken : n + ((facts.drop n).take limit.value).length < facts.length := by omega
      rw [if_pos htaken, if_pos hlt, ← hlast hlt, List.getLast?_map, Option.map_map]
      rfl
    · have htaken : ¬ n + ((facts.drop n).take limit.value).length < facts.length := by omega
      rw [if_neg htaken, if_neg hlt]
  have hbound : ((facts.drop n).take limit.value).length ≤ contextIndexLimit := by
    have hle := limit.le
    omega
  have haccepted : isCodeIndexResult ⟨basis, ((facts.drop n).take limit.value).map (rowOf basis),
      if n + limit.value < facts.length then cursorAfter basis facts (n + limit.value)
      else none⟩ = true := by
    refine isCodeIndexResult_page h ((List.take_sublist _ _).trans (List.drop_sublist _ _)) hbound ?_
    by_cases hlt : n + limit.value < facts.length
    · have hpos := limit.pos
      refine .inr ⟨fun hnil => ?_, by omega, by rw [if_pos hlt, hlast hlt]⟩
      rw [hnil, List.length_nil] at hlength
      omega
    · exact .inl (if_neg hlt)
  unfold compileFoundationCodeIndex
  refine bind_eq_ok.mpr ⟨n, hstart, bind_eq_ok.mpr ⟨_, mapM_eq_ok_map (row_eq_ok basis) _, ?_⟩⟩
  rw [hnext]
  exact bind_eq_ok.mpr ⟨(), failIf_neg (by rw [haccepted]; decide), rfl⟩

/-- **Following the cursors**: each page is asked for with a limit of its own,
until one has no cursor for the next. -/
def followPages (basis : CodeBasis) (facts : List FileFact) :
    List IndexLimit → Option Sha256Digest → Except FoundationError (List CodeFileRow)
  | [], _ => .error (fail "cursor-substituted" "Code continuation was not followed to its end")
  | limit :: limits, afterCursor => do
    let page ← compileFoundationCodeIndex basis facts afterCursor limit
    match page.nextAfterCursor with
    | none => pure page.files
    | some cursor => do
      let rest ← followPages basis facts limits (some cursor)
      pure (page.files ++ rest)

/-- **Following the cursors lists the rows that are left**, whatever the limits:
every page but the last has a row, so that there are pages enough. -/
theorem followPages_eq_ok (h : Listable basis facts) {limits : List IndexLimit} {n : Nat}
    (hn : n ≤ facts.length) (hlimits : facts.length - n < limits.length) :
    followPages basis facts limits (cursorAfter basis facts n)
      = .ok ((facts.drop n).map (rowOf basis)) := by
  induction limits generalizing n with
  | nil => exact absurd hlimits (Nat.not_lt_zero _)
  | cons limit limits ih =>
    rw [followPages, compileFoundationCodeIndex_eq_ok h hn limit, ok_bind]
    by_cases hlt : n + limit.value < facts.length
    · have hpos := limit.pos
      rw [List.length_cons] at hlimits
      have hrest := ih (n := n + limit.value) hlt.le (by omega)
      obtain ⟨k, hk⟩ : ∃ k, n + limit.value = k + 1 := Nat.exists_eq_succ_of_ne_zero (by omega)
      have hcursor : cursorAfter basis facts (n + limit.value)
          = some (cursorDigest basis facts[k]) := by
        rw [hk]
        exact cursorAfter_succ (by omega)
      have happend : (facts.drop n).take limit.value ++ facts.drop (n + limit.value)
          = facts.drop n := by
        rw [← List.drop_drop, List.take_append_drop]
      simp only [if_pos hlt, hcursor]
      rw [hcursor] at hrest
      rw [hrest, ok_bind, pure_eq_ok, ← List.map_append, happend]
    · have htake : (facts.drop n).take limit.value = facts.drop n := by
        rw [List.take_of_length_le]
        rw [List.length_drop]
        omega
      simp only [if_neg hlt, htake]
      rfl

end Pages

end CodeInspection
