import Lifecycle.CanonicalText
import Lifecycle.OutputStaging
import Lifecycle.TextOrder
import Mathlib.Data.List.Nodup

/-!
# Recovery of an output transaction

What a transaction of the output store leaves when filesystem operations
fail in the middle of its calls.

The directory of an unfinished transaction and the flags the transaction
keeps of it must agree: every blob that is not published has its file
there, sealed and with known bytes, and nothing else is there. While they
agree – `Kept` – both ways out are open, `commit` can be tried again and
`abort` can remove everything. This module says what publishing one blob
does, under any environment: it keeps the agreement, and in a transaction
that can be published – `Committable` – it fails only where the environment
refused something.
-/

open Fallible Json Faulty

/-! ## Operations that only look -/

/-- The operations that change no directory and no file. -/
def FileCall.Looks : FileCall → Prop
  | .realpath _ | .lstat _ | .openDirectory _ | .syncDirectory _ | .closeDirectory _
  | .readdir _ | .openRead _ | .stat _ | .read _ | .closeRead _ | .sync _
  | .closeWrite _ => True
  | .mkdir _ | .chmodDirectory _ | .rmdir _ | .create _ | .write _ | .chmod _ | .settle _
  | .rename _ _ | .unlink _ => False

/-- A file is what some facts say. -/
structure StoredFile.Matches (f : StoredFile) (facts : BlobFacts) : Prop where
  mode : f.mode = 0o400
  byteLength : f.bytes.length = facts.byteLength
  digest : sha256Bytes f.bytes = facts.digest

/-- The file at a path is what some facts say. -/
def StoreDisk.Has (d : StoreDisk) (path : Location) (facts : BlobFacts) : Prop :=
  ∃ f, d.file path = some f ∧ f.Matches facts

theorem StoreDisk.has_iff {d : StoreDisk} {path : Location} {facts : BlobFacts} :
    d.Has path facts ↔ d.file path ≠ none ∧ d.exactFile path facts = true
      ∧ d.exactBytes path facts = true := by
  unfold StoreDisk.Has StoreDisk.exactFile StoreDisk.exactBytes
  cases d.file path with
  | none => simp
  | some f =>
    simp only [Option.some.injEq, exists_eq_left', ne_eq, reduceCtorEq, not_false_eq_true,
      Option.any_some, Bool.and_eq_true, decide_eq_true_eq, true_and]
    constructor
    · rintro ⟨hmode, hlength, hdigest⟩
      exact ⟨⟨hmode, hlength⟩, hdigest⟩
    · rintro ⟨⟨hmode, hlength⟩, hdigest⟩
      exact ⟨hmode, hlength, hdigest⟩

variable {env : Environment FileCall}

theorem exactDirectory_checks {path : Location} {label : String} :
    Checks env FileCall.Looks (exactDirectory path label)
      fun w => w.disk.directoryMode path = some 0o700 := by
  unfold exactDirectory
  refine ((Reads.look trivial).next ((Reads.look trivial).next Reads.require)).congr ?_
  intro w
  constructor
  · rintro ⟨-, -, hmode⟩
    exact hmode
  · intro hmode
    rw [hmode]
    exact ⟨Option.some_ne_none _, Option.some_ne_none _, rfl⟩

theorem syncDirectory_checks {path : Location} :
    Checks env FileCall.Looks (syncDirectory path)
      fun w => w.disk.directoryMode path ≠ none := by
  unfold syncDirectory
  refine ((Reads.look trivial).next ((Reads.quiet trivial).always
    (Reads.quiet trivial))).congr ?_
  intro w
  exact and_iff_left trivial

theorem fileExists_reads {path : Location} :
    Reads env FileCall.Looks (fileExists path) (fun _ => True)
      fun w => (w.disk.file path).isSome := by
  refine Reads.perform trivial ?_ fun w _ => ⟨_, rfl⟩
  intro answer w a w' h
  obtain ⟨rfl, rfl⟩ := Prod.mk.inj (Except.ok.inj h)
  exact ⟨rfl, trivial, rfl⟩

theorem readRoot_reads :
    Reads env FileCall.Looks readRoot (fun w => w.disk.root ≠ none)
      fun w => (w.disk.root.map (·.entries.keys)).getD [] := by
  refine Reads.perform trivial ?_ ?_
  · intro answer w a w' h
    cases hroot : w.disk.root with
    | none =>
      rw [hroot] at h
      cases h
    | some dir =>
      rw [hroot] at h
      obtain ⟨rfl, rfl⟩ := Prod.mk.inj (Except.ok.inj h)
      exact ⟨rfl, Option.some_ne_none dir, rfl⟩
  · intro w hroot
    obtain ⟨dir, hdir⟩ := Option.ne_none_iff_exists'.mp hroot
    rw [hdir]
    exact ⟨_, rfl⟩

/-- The reading loop passes whenever nothing is refused. -/
theorem readAll_checks {path : Location} {label : String} : ∀ fuel left,
    Checks env FileCall.Looks (readAll path label fuel left) fun _ => True
  | 0, _ => Reads.pure
  | _ + 1, 0 => Reads.pure
  | fuel + 1, left + 1 => by
    unfold readAll
    refine @Reads.amount _ _ _ _ _ _ _ _ _ _ (fun k _ => k ≠ 0) trivial (fun k => ?_)
      (fun _ _ _ => trivial) fun _ _ => ?_
    · by_cases hk : k = 0
      · rw [if_pos hk]
        exact Reads.fail.congr fun _ => iff_of_false id (not_not_intro hk)
      · rw [if_neg hk]
        exact (readAll_checks fuel (left + 1 - k)).congr fun _ => iff_of_true trivial hk
    · have hchunk : 0 < readChunkBytes := by decide
      omega

/-- The part of the verification with the file open. -/
theorem readVerified_checks {path : Location} {facts : BlobFacts} {label : String} :
    Checks env FileCall.Looks (readVerified path facts label)
      fun w => w.disk.exactFile path facts = true := by
  unfold readVerified
  refine ((Reads.quiet trivial).next (Reads.require.next (readAll_checks _ _))).congr ?_
  intro w
  constructor
  · rintro ⟨-, hexact, -⟩
    exact hexact
  · exact fun hexact => ⟨trivial, hexact, trivial⟩

theorem verifyFile_checks {path : Location} {facts : BlobFacts} {label : String} :
    Checks env FileCall.Looks (verifyFile path facts label)
      fun w => w.disk.Has path facts := by
  have hopened := @readVerified_checks env path facts label
  have hclosed : Checks env FileCall.Looks (always (readVerified path facts label)
      (quiet (.closeRead path) .operational)) _ := hopened.always (Reads.quiet trivial)
  unfold verifyFile
  refine ((Reads.look trivial).next (hclosed.next Reads.require)).congr ?_
  intro w
  exact StoreDisk.has_iff.symm

/-! ## The directory and the flags -/

/-- **The directory of a transaction agrees with its flags**: it holds the
file of every blob that is not published and nothing else, and every file
is sealed, with the bytes the transaction knows. -/
structure InStep (d : StoreDisk) (remaining : List ProvisionalBlob) : Prop where
  mode : d.directoryMode .root = some 0o700
  nodup : (remaining.map (·.name)).Nodup
  listing : ∀ name, d.file (.provisional name) ≠ none ↔ name ∈ remaining.map (·.name)
  files : ∀ b ∈ remaining, ∃ facts, b.cleanupFacts = some facts
    ∧ d.Has (.provisional b.name) facts

/-- A published blob is in the blob store, as declared. -/
def Stored (d : StoreDisk) (blobs : List ProvisionalBlob) : Prop :=
  ∀ b ∈ blobs, b.published = true → d.Has (.blob b.facts.digest) b.facts
    ∧ d.directoryMode (.shard (blobLocation b.facts.digest).shard) = some 0o700

/-- **What a transaction has published and staged is true.** -/
structure Custody (w : StagingWorld) : Prop where
  stored : Stored w.disk w.transaction.blobs
  declared : ∀ a ∈ w.transaction.artifacts, a.staged = true →
    a.cleanupFacts = some a.binding.facts
  staged : ∀ a ∈ w.transaction.artifacts, a.published = true → a.staged = true

/-- **A transaction that can still be committed or aborted.** -/
structure Kept (w : StagingWorld) : Prop extends Custody w where
  inStep : InStep w.disk w.transaction.remaining

/-- The directory of an agreeing transaction. -/
theorem InStep.root {d : StoreDisk} {remaining : List ProvisionalBlob}
    (h : InStep d remaining) : ∃ dir, d.root = some dir
      ∧ (dir.entries.keys).Perm (remaining.map (·.name)) := by
  obtain ⟨dir, hdir, -⟩ := Option.map_eq_some_iff.mp h.mode
  refine ⟨dir, hdir, (List.perm_ext_iff_of_nodup dir.entries.nodupKeys h.nodup).mpr fun name => ?_⟩
  rw [← h.listing name]
  show name ∈ dir.entries.keys ↔ d.root.bind (·.entries.get name) ≠ none
  rw [hdir]
  show name ∈ dir.entries.keys ↔ dir.entries.get name ≠ none
  rw [ne_eq, OrderedMap.get_eq_none_iff, not_not]
  rfl

/-- Only the transaction's directory matters. -/
theorem InStep.of_root {d d' : StoreDisk} {remaining : List ProvisionalBlob}
    (h : InStep d remaining) (hroot : d'.root = d.root) : InStep d' remaining := by
  have hmode : d'.directoryMode .root = d.directoryMode .root := by
    show d'.root.map (·.mode) = d.root.map (·.mode)
    rw [hroot]
  have hfile : ∀ name, d'.file (.provisional name) = d.file (.provisional name) := by
    intro name
    show d'.root.bind (·.entries.get name) = d.root.bind (·.entries.get name)
    rw [hroot]
  refine ⟨hmode.trans h.mode, h.nodup, fun name => ?_, fun b hb => ?_⟩
  · rw [hfile]
    exact h.listing name
  · unfold StoreDisk.Has
    rw [hfile]
    exact h.files b hb

/-- What `#assertInventory` checks. -/
def Inventoried (w : StagingWorld) : Prop :=
  w.disk.directoryMode .root = some 0o700 ∧ w.disk.root ≠ none
    ∧ sortKeys ((w.disk.root.map (·.entries.keys)).getD [])
      = sortKeys (w.transaction.remaining.map (·.name))

theorem assertInventory_checks : Checks env FileCall.Looks assertInventory Inventoried := by
  unfold assertInventory
  refine exactDirectory_checks.next (readRoot_reads.checking
    (Z := fun names w => sortKeys names = sortKeys (w.transaction.remaining.map (·.name)))
    fun names => ?_)
  exact Reads.require

theorem Kept.inventoried {w : StagingWorld} (h : Kept w) : Inventoried w := by
  obtain ⟨dir, hdir, hperm⟩ := h.inStep.root
  refine ⟨h.inStep.mode, ?_, ?_⟩
  · rw [hdir]
    exact Option.some_ne_none dir
  · rw [hdir]
    exact sortKeys_eq_of_perm hperm

/-! ## Publishing one blob -/

/-- A blob as published. -/
def ProvisionalBlob.marked (b : ProvisionalBlob) : ProvisionalBlob := { b with published := true }

/-- **Marking a blob changes that blob only.** -/
theorem blobs_markPublished {tx : OutputTransaction} {ref : BlobRef} {b : ProvisionalBlob}
    (h : tx.blob ref = some b) : ∃ before after, tx.blobs = before ++ b :: after
      ∧ (tx.markPublished ref).blobs = before ++ b.marked :: after := by
  cases ref with
  | manifest =>
    obtain rfl := Option.some.inj h
    exact ⟨[], _, rfl, rfl⟩
  | descriptor =>
    obtain ⟨d, hd, rfl⟩ := Option.map_eq_some_iff.mp h
    refine ⟨tx.manifest.blob :: tx.artifacts.map (·.blob), [], ?_, ?_⟩
    · unfold OutputTransaction.blobs
      rw [hd]
      rfl
    · unfold OutputTransaction.blobs OutputTransaction.markPublished
      show _ :: (_ ++ ((tx.descriptor.map _).toList.map _)) = _
      rw [hd]
      rfl
  | artifact index =>
    obtain ⟨a, ha, rfl⟩ := Option.map_eq_some_iff.mp h
    obtain ⟨hlt, rfl⟩ := List.getElem?_eq_some_iff.mp ha
    refine ⟨tx.manifest.blob :: (tx.artifacts.take index).map (·.blob),
      (tx.artifacts.drop (index + 1)).map (·.blob) ++ tx.descriptor.toList.map (·.blob),
      ?_, ?_⟩
    · unfold OutputTransaction.blobs
      conv_lhs => rw [← List.take_append_drop index tx.artifacts, List.drop_eq_getElem_cons hlt]
      simp only [List.map_append, List.map_cons, List.cons_append, List.append_assoc]
    · unfold OutputTransaction.blobs OutputTransaction.markPublished
      simp only [List.modify_eq_take_cons_drop hlt, List.map_append, List.map_cons,
        List.cons_append, List.append_assoc]
      rfl

/-- The blobs that remain once one is published. -/
theorem remaining_markPublished {tx : OutputTransaction} {ref : BlobRef} {b : ProvisionalBlob}
    (h : tx.blob ref = some b) (hb : b.published = false) :
    ∃ before after, tx.remaining = before ++ b :: after
      ∧ (tx.markPublished ref).remaining = before ++ after := by
  obtain ⟨before, after, hblobs, hmarked⟩ := blobs_markPublished h
  refine ⟨before.filter (!·.published), after.filter (!·.published), ?_, ?_⟩
  · unfold OutputTransaction.remaining
    rw [hblobs, List.filter_append, List.filter_cons, if_pos (by rw [hb]; rfl)]
  · unfold OutputTransaction.remaining
    rw [hmarked, List.filter_append, List.filter_cons]
    rfl

/-- The files of a directory that lost one. -/
theorem file_erase {d d' : StoreDisk} {name other : String}
    (hroot : d'.root = (d.withEntries fun entries => entries.erase name).root) :
    d'.file (.provisional other)
      = if other = name then none else d.file (.provisional other) := by
  show d'.root.bind (·.entries.get other) = _
  rw [hroot]
  show (d.root.map _).bind _ = if other = name then none else d.root.bind (·.entries.get other)
  cases d.root with
  | none => simp
  | some dir => exact OrderedMap.get_erase

/-- **Removing the file of one blob** keeps the others in step. -/
theorem InStep.erase {d d' : StoreDisk} {before after : List ProvisionalBlob}
    {b : ProvisionalBlob} (h : InStep d (before ++ b :: after))
    (hroot : d'.root = (d.withEntries fun entries => entries.erase b.name).root) :
    InStep d' (before ++ after) := by
  have hnodup := h.nodup
  rw [List.map_append, List.map_cons] at hnodup
  have hrest := List.nodup_middle.mp hnodup
  obtain ⟨hfresh, hothers⟩ := List.nodup_cons.mp hrest
  rw [← List.map_append] at hfresh hothers
  refine ⟨?_, hothers, fun name => ?_, fun c hc => ?_⟩
  · show d'.root.map (·.mode) = some 0o700
    rw [hroot]
    show (d.root.map _).map _ = _
    rw [Option.map_map]
    exact h.mode
  · rw [file_erase hroot]
    by_cases hname : name = b.name
    · rw [if_pos hname]
      exact iff_of_false (not_not_intro rfl) (hname ▸ hfresh)
    · rw [if_neg hname, h.listing]
      simp [hname]
  · obtain ⟨facts, hfacts, hhas⟩ := h.files c (by
      rw [List.mem_append] at hc ⊢
      exact hc.imp_right (List.mem_cons_of_mem b))
    have hother : c.name ≠ b.name := fun hsame =>
      hfresh (hsame ▸ List.mem_map_of_mem hc)
    refine ⟨facts, hfacts, ?_⟩
    unfold StoreDisk.Has
    rw [file_erase hroot, if_neg hother]
    exact hhas

/-- **A blob leaves the directory for the blob store.** -/
theorem Kept.publish {w w' : StagingWorld} {ref : BlobRef} {b : ProvisionalBlob} (h : Kept w)
    (hblob : w.transaction.blob ref = some b) (hb : b.published = false)
    (htransaction : w'.transaction = w.transaction.markPublished ref)
    (hroot : w'.disk.root = (w.disk.withEntries fun entries => entries.erase b.name).root)
    (hshards : w'.disk.shards = w.disk.shards)
    (hshard : w.disk.directoryMode (.shard (blobLocation b.facts.digest).shard) = some 0o700)
    (hhas : w'.disk.Has (.blob b.facts.digest) b.facts)
    (hblobs : ∀ facts, w.disk.Has (.blob facts.digest) facts →
      w'.disk.Has (.blob facts.digest) facts)
    (hstaged : ∀ index a, ref = .artifact index → w.transaction.artifacts[index]? = some a →
      a.staged = true) : Kept w' := by
  have hsame : ∀ hexadecimal, w'.disk.directoryMode (.shard hexadecimal)
      = w.disk.directoryMode (.shard hexadecimal) := fun hexadecimal => by
    show w'.disk.shards.get hexadecimal = w.disk.shards.get hexadecimal
    rw [hshards]
  have hartifacts : ∀ a ∈ w'.transaction.artifacts, a ∈ w.transaction.artifacts
      ∨ ∃ c ∈ w.transaction.artifacts, c.staged = true
        ∧ a = { c with published := true } := by
    intro a ha
    rw [htransaction] at ha
    cases ref with
    | manifest => exact .inl ha
    | descriptor => exact .inl ha
    | artifact index =>
      obtain ⟨c, hc, -⟩ := Option.map_eq_some_iff.mp hblob
      obtain ⟨hlt, hget⟩ := List.getElem?_eq_some_iff.mp hc
      have ha' : a ∈ w.transaction.artifacts.modify index
        fun a => { a with published := true } := ha
      rw [List.modify_eq_take_cons_drop hlt, hget] at ha'
      rcases List.mem_append.mp ha' with hmem | hmem
      · exact .inl (List.mem_of_mem_take hmem)
      · rcases List.mem_cons.mp hmem with rfl | hmem
        · exact .inr ⟨c, List.mem_of_getElem? hc, hstaged index c rfl hc, rfl⟩
        · exact .inl (List.mem_of_mem_drop hmem)
  obtain ⟨before, after, hwhole, hmarked⟩ := blobs_markPublished hblob
  obtain ⟨first, last, hremaining, hleft⟩ := remaining_markPublished hblob hb
  refine ⟨⟨?_, ?_, ?_⟩, ?_⟩
  · intro c hc hpublished
    rw [htransaction, hmarked] at hc
    rw [hsame]
    rcases List.mem_append.mp hc with hc | hc
    · obtain ⟨hc, hmode⟩ := h.stored c (hwhole ▸ List.mem_append_left _ hc) hpublished
      exact ⟨hblobs _ hc, hmode⟩
    · rcases List.mem_cons.mp hc with rfl | hc
      · exact ⟨hhas, hshard⟩
      · obtain ⟨hc, hmode⟩ := h.stored c
          (hwhole ▸ List.mem_append_right _ (List.mem_cons_of_mem _ hc)) hpublished
        exact ⟨hblobs _ hc, hmode⟩
  · intro a ha hstaged
    obtain ha | ⟨c, hc, hcstaged, rfl⟩ := hartifacts a ha
    · exact h.declared a ha hstaged
    · exact h.declared c hc hcstaged
  · intro a ha hpublished
    obtain ha | ⟨c, -, hcstaged, rfl⟩ := hartifacts a ha
    · exact h.staged a ha hpublished
    · exact hcstaged
  · have hstep := h.inStep
    rw [hremaining] at hstep
    rw [htransaction, hleft]
    exact hstep.erase hroot

/-! ## What a commit may rely on -/

/-- The place of a blob in the store is free, or holds that very blob. -/
structure Clean (d : StoreDisk) (facts : BlobFacts) : Prop where
  shard : d.directoryMode (.shard (blobLocation facts.digest).shard) ≠ none →
    d.directoryMode (.shard (blobLocation facts.digest).shard) = some 0o700
  blob : d.file (.blob facts.digest) ≠ none → d.Has (.blob facts.digest) facts

/-- What a transaction publishes when its descriptor is `bytes`. -/
def OutputTransaction.publication (tx : OutputTransaction) (bytes : List UInt8) :
    List BlobFacts :=
  factsOf bytes :: tx.manifest.facts :: tx.artifacts.map (·.binding.facts)

/-- **A transaction that a commit can publish**: it is open and complete,
its descriptor is within its bound, new directories are private from the
start, and the store holds nothing else where its blobs go. -/
structure Committable (w : StagingWorld) : Prop where
  opened : w.transaction.state = .opened
  complete : w.transaction.complete = true
  umask : masked w.disk.umask 0o700 = 0o700
  clean : ∃ bytes, w.transaction.descriptorBytes = .ok bytes
    ∧ (∀ b, w.transaction.descriptor = some b → b.facts = factsOf bytes)
    ∧ (∀ facts ∈ w.transaction.publication bytes, Clean w.disk facts)
    ∧ ∀ facts ∈ w.transaction.publication bytes, ∀ facts' ∈ w.transaction.publication bytes,
      facts.digest = facts'.digest → facts = facts'

/-- What a change of one item does not touch. -/
theorem map_modify_of_eq {α β : Type} {f : α → α} {g : α → β} (h : ∀ a, g (f a) = g a)
    (l : List α) (i : Nat) : (l.modify i f).map g = l.map g := by
  apply List.ext_getElem?
  intro j
  rw [List.getElem?_map, List.getElem?_map, List.getElem?_modify]
  cases l[j]? with
  | none => rfl
  | some a =>
    show some (g (if i = j then f a else a)) = some (g a)
    split
    · rw [h a]
    · rfl

/-- Something a commit of `w` publishes. -/
def Planned (w : StagingWorld) (facts : BlobFacts) : Prop :=
  ∀ bytes, w.transaction.descriptorBytes = .ok bytes →
    facts ∈ w.transaction.publication bytes

/-- The blob `ref` stands for is published. -/
def OutputTransaction.PublishedAt (tx : OutputTransaction) (ref : BlobRef) : Prop :=
  ∀ b, tx.blob ref = some b → b.published = true

/-- The parts of a transaction that publishing leaves alone. -/
structure SameSubject (tx tx' : OutputTransaction) : Prop where
  plan : tx'.plan = tx.plan
  state : tx'.state = tx.state
  plannedBytes : tx'.plannedBytes = tx.plannedBytes
  binding : tx'.binding = tx.binding
  manifest : tx'.manifest.facts = tx.manifest.facts
  artifacts : tx'.artifacts.map (fun a => (a.binding, a.staged))
    = tx.artifacts.map fun a => (a.binding, a.staged)
  descriptor : ∀ b, tx.descriptor = some b →
    ∃ b', tx'.descriptor = some b' ∧ b'.facts = b.facts

namespace SameSubject

variable {tx tx' tx'' : OutputTransaction}

theorem refl (tx : OutputTransaction) : SameSubject tx tx :=
  ⟨rfl, rfl, rfl, rfl, rfl, rfl, fun b hb => ⟨b, hb, rfl⟩⟩

theorem trans (h : SameSubject tx tx') (h' : SameSubject tx' tx'') : SameSubject tx tx'' where
  plan := h'.plan.trans h.plan
  state := h'.state.trans h.state
  plannedBytes := h'.plannedBytes.trans h.plannedBytes
  binding := h'.binding.trans h.binding
  manifest := h'.manifest.trans h.manifest
  artifacts := h'.artifacts.trans h.artifacts
  descriptor b hb := by
    obtain ⟨b', hb', hfacts⟩ := h.descriptor b hb
    obtain ⟨b'', hb'', hfacts'⟩ := h'.descriptor b' hb'
    exact ⟨b'', hb'', hfacts'.trans hfacts⟩

theorem bindings (h : SameSubject tx tx') :
    tx'.artifacts.map (·.binding) = tx.artifacts.map (·.binding) := by
  have := congrArg (List.map Prod.fst) h.artifacts
  rwa [List.map_map, List.map_map] at this

theorem length (h : SameSubject tx tx') : tx'.artifacts.length = tx.artifacts.length := by
  have := congrArg List.length h.artifacts
  rwa [List.length_map, List.length_map] at this

theorem complete (h : SameSubject tx tx') : tx'.complete = tx.complete := by
  have hstaged : tx'.artifacts.all (·.staged) = tx.artifacts.all (·.staged) := by
    have := congrArg (fun l => l.all Prod.snd) h.artifacts
    rwa [List.all_map, List.all_map] at this
  unfold OutputTransaction.complete
  rw [hstaged, h.length, h.plan, h.plannedBytes]

theorem descriptorBytes (h : SameSubject tx tx') :
    tx'.descriptorBytes = tx.descriptorBytes := by
  unfold OutputTransaction.descriptorBytes
  rw [h.plan, h.manifest, h.bindings]

theorem publication (h : SameSubject tx tx') (bytes : List UInt8) :
    tx'.publication bytes = tx.publication bytes := by
  have := congrArg (List.map ArtifactBinding.facts) h.bindings
  rw [List.map_map, List.map_map] at this
  unfold OutputTransaction.publication
  rw [h.manifest]
  exact congrArg _ (congrArg _ this)

theorem markPublished (tx : OutputTransaction) (ref : BlobRef) :
    SameSubject tx (tx.markPublished ref) := by
  cases ref with
  | manifest => exact ⟨rfl, rfl, rfl, rfl, rfl, rfl, fun b hb => ⟨b, hb, rfl⟩⟩
  | descriptor =>
    refine ⟨rfl, rfl, rfl, rfl, rfl, rfl, fun b hb => ⟨{ b with published := true }, ?_, rfl⟩⟩
    show tx.descriptor.map _ = _
    rw [hb]
    rfl
  | artifact index =>
    refine ⟨rfl, rfl, rfl, rfl, rfl, ?_, fun b hb => ⟨b, hb, rfl⟩⟩
    exact @map_modify_of_eq _ _ (fun a : ArtifactState => { a with published := true })
      (fun a => (a.binding, a.staged)) (fun _ => rfl) tx.artifacts index

end SameSubject

/-- **While a commit of `w₀` publishes.** -/
structure During (w₀ w : StagingWorld) : Prop extends Kept w where
  same : SameSubject w₀.transaction w.transaction
  committable : Committable w₀ → Committable w

/-- A commit begins with what it may rely on. -/
theorem During.refl {w : StagingWorld} (h : Kept w) : During w w := ⟨h, .refl _, fun h => h⟩

theorem During.trans {w₀ w w' : StagingWorld} (h : During w₀ w) (h' : During w w') :
    During w₀ w' :=
  ⟨h'.toKept, h.same.trans h'.same, fun hw₀ => h'.committable (h.committable hw₀)⟩

/-- A commit of `w₀` that failed while publishing: a commit that could
publish fails only where the environment refused something. -/
def Interrupted (env : Environment FileCall) (w₀ : StagingWorld)
    (t : Trace FileCall StagingWorld) : Prop :=
  During w₀ t.state ∧ ¬ (Works env ∧ Committable w₀)

namespace During

variable {w₀ w : StagingWorld}

/-- The place of what is published is clean as long as a commit can publish. -/
theorem clean {facts : BlobFacts} (h : During w₀ w) (hplanned : Planned w₀ facts)
    (hw₀ : Committable w₀) : Clean w.disk facts := by
  obtain ⟨-, -, -, bytes, hbytes, -, hclean, -⟩ := h.committable hw₀
  refine hclean facts ?_
  rw [h.same.publication]
  exact hplanned bytes (h.same.descriptorBytes ▸ hbytes)

/-- A directory of the blob store gets its mode. -/
theorem setShard {hexadecimal : String} {mode : Nat} (h : During w₀ w)
    (hmode : mode = 0o700 ∨ w.disk.shards.has hexadecimal = false
      ∧ mode = masked w.disk.umask 0o700) :
    During w₀ (w.onDisk fun d => { d with shards := d.shards.set hexadecimal mode }) := by
  have hget : ∀ other, (w.disk.shards.set hexadecimal mode).get other
      = if other = hexadecimal then some mode else w.disk.shards.get other := fun other =>
    OrderedMap.get_set
  refine ⟨⟨⟨?_, h.declared, h.staged⟩, h.inStep.of_root rfl⟩, h.same, ?_⟩
  · intro b hb hpublished
    obtain ⟨hhas, hprivate⟩ := h.stored b hb hpublished
    refine ⟨hhas, ?_⟩
    show (w.disk.shards.set hexadecimal mode).get _ = some 0o700
    rw [hget]
    split
    · next hsame =>
      obtain rfl | ⟨hnone, -⟩ := hmode
      · rfl
      · rw [← hsame] at hnone
        have hsome : w.disk.shards.get (blobLocation b.facts.digest).shard = some 0o700 :=
          hprivate
        rw [OrderedMap.has, hsome] at hnone
        cases hnone
    · exact hprivate
  · intro hw₀
    obtain ⟨hopened, hcomplete, humask, bytes, hbytes, hdescriptor, hclean, hdistinct⟩ :=
      h.committable hw₀
    refine ⟨hopened, hcomplete, humask, bytes, hbytes, hdescriptor, ?_, hdistinct⟩
    intro facts hfacts
    refine ⟨fun hsome => ?_, (hclean facts hfacts).blob⟩
    show (w.disk.shards.set hexadecimal mode).get _ = some 0o700
    have hsome' : (w.disk.shards.set hexadecimal mode).get
        (blobLocation facts.digest).shard ≠ none := hsome
    rw [hget] at hsome' ⊢
    split
    · obtain rfl | ⟨-, rfl⟩ := hmode
      · rfl
      · rw [humask]
    · next hother =>
      rw [if_neg hother] at hsome'
      exact (hclean facts hfacts).shard hsome'

/-- **A blob leaves the directory for the store, in a commit.** -/
theorem publish {w' : StagingWorld} {ref : BlobRef} {b : ProvisionalBlob} (h : During w₀ w)
    (hplanned : Planned w₀ b.facts) (hcomplete : w₀.transaction.complete = true)
    (hblob : w.transaction.blob ref = some b) (hb : b.published = false)
    (htransaction : w'.transaction = w.transaction.markPublished ref)
    (humask : w'.disk.umask = w.disk.umask)
    (hroot : w'.disk.root = (w.disk.withEntries fun entries => entries.erase b.name).root)
    (hshards : w'.disk.shards = w.disk.shards)
    (hshard : w.disk.directoryMode (.shard (blobLocation b.facts.digest).shard) = some 0o700)
    (hhas : w'.disk.Has (.blob b.facts.digest) b.facts)
    (hfile : ∀ digest, w'.disk.file (.blob digest) = w.disk.file (.blob digest)
      ∨ digest = b.facts.digest ∧ w.disk.file (.blob digest) = none) : During w₀ w' := by
  have hsame : SameSubject w₀.transaction w'.transaction := by
    rw [htransaction]
    exact h.same.trans (.markPublished _ ref)
  have hallstaged : ∀ a ∈ w.transaction.artifacts, a.staged = true := by
    have hall := h.same.complete.trans hcomplete
    unfold OutputTransaction.complete at hall
    rw [Bool.and_eq_true] at hall
    exact List.all_eq_true.mp hall.2
  refine ⟨h.toKept.publish hblob hb htransaction hroot hshards hshard hhas ?_ ?_, hsame, ?_⟩
  · intro facts hfacts
    obtain hfile | ⟨-, hnone⟩ := hfile facts.digest
    · unfold StoreDisk.Has
      rw [hfile]
      exact hfacts
    · obtain ⟨f, hf, -⟩ := hfacts
      rw [hnone] at hf
      cases hf
  · exact fun index a _ ha => hallstaged a (List.mem_of_getElem? ha)
  · intro hw₀
    obtain ⟨hopened, hwcomplete, hwumask, bytes, hbytes, hdescriptor, hclean, hdistinct⟩ :=
      h.committable hw₀
    have hlater : SameSubject w.transaction w'.transaction := by
      rw [htransaction]
      exact .markPublished _ ref
    refine ⟨hlater.state.trans hopened, hlater.complete.trans hwcomplete, ?_, bytes,
      hlater.descriptorBytes.trans hbytes, ?_, ?_, ?_⟩
    · rw [humask]
      exact hwumask
    · intro d hd
      rw [htransaction] at hd
      cases ref with
      | manifest => exact hdescriptor d hd
      | artifact index => exact hdescriptor d hd
      | descriptor =>
        obtain ⟨d', hd', rfl⟩ := Option.map_eq_some_iff.mp hd
        exact hdescriptor d' hd'
    · intro facts hfacts
      rw [hlater.publication] at hfacts
      have hfactsClean := hclean facts hfacts
      have hmode : w'.disk.directoryMode (.shard (blobLocation facts.digest).shard)
          = w.disk.directoryMode (.shard (blobLocation facts.digest).shard) := by
        show w'.disk.shards.get _ = w.disk.shards.get _
        rw [hshards]
      refine ⟨fun hsome => ?_, fun hsome => ?_⟩
      · rw [hmode] at hsome ⊢
        exact hfactsClean.shard hsome
      · obtain hfile | ⟨hdigest, -⟩ := hfile facts.digest
        · rw [hfile] at hsome
          unfold StoreDisk.Has
          rw [hfile]
          exact hfactsClean.blob hsome
        · have hmem : b.facts ∈ w.transaction.publication bytes := by
            rw [h.same.publication]
            exact hplanned bytes (h.same.descriptorBytes ▸ hbytes)
          rw [hdistinct facts hfacts b.facts hmem hdigest]
          exact hhas
    · rw [hlater.publication]
      exact hdistinct

end During

/-! ## Publishing, under an environment -/

theorem not_works {made : List (FileCall × Bool)} {call : FileCall}
    (h : env made call = .fails) : ¬ Works env := fun hworks => by
  rw [hworks made call] at h
  cases h

section Publishing

variable {w₀ : StagingWorld} {T : OutputTransaction → Prop}

/-- While a commit of `w₀` publishes, with a fact about the transaction. -/
def DuringWith (w₀ : StagingWorld) (T : OutputTransaction → Prop) (w : StagingWorld) : Prop :=
  During w₀ w ∧ T w.transaction

/-- **A step that only looks**, in a commit that is publishing. -/
theorem Reads.during {α : Type} {c : StoreProgram α} {X S : StagingWorld → Prop}
    {f : StagingWorld → α} (hc : Reads env FileCall.Looks c X f)
    (hS : ∀ w, S w → During w₀ w) (hX : ∀ w, S w → Committable w₀ → X w) :
    Ensures env (Holds S) c (fun a => Holds fun w => S w ∧ X w ∧ a = f w)
      (Interrupted env w₀) := by
  refine (hc.ensures stable_holds).mono (fun _ h => h) (fun _ _ h => h) ?_
  rintro t ⟨hs, hrefused⟩
  exact ⟨hS _ hs, fun h => hrefused ⟨h.1, hX _ hs h.2⟩⟩

/-- A directory that was just made, or was there before. -/
theorem settleCreated_ensures {facts : BlobFacts} (created : Bool)
    (hplanned : Planned w₀ facts) :
    Ensures env
      (Holds fun w => DuringWith w₀ T w ∧ (created = false →
        w.disk.directoryMode (.shard (blobLocation facts.digest).shard) ≠ none))
      (settleCreated (blobLocation facts.digest).shard created)
      (fun _ => Holds fun w => DuringWith w₀ T w ∧ (Committable w₀ →
        w.disk.directoryMode (.shard (blobLocation facts.digest).shard) = some 0o700))
      (Interrupted env w₀) := by
  cases created with
  | false =>
    refine Ensures.pure fun t ⟨hduring, hsome⟩ => ⟨hduring, fun hw₀ => ?_⟩
    exact (hduring.1.clean hplanned hw₀).shard (hsome rfl)
  | true =>
    refine @Ensures.bind _ _ _ _ _ _ _ _
      (fun _ => Holds fun w => DuringWith w₀ T w ∧
        w.disk.directoryMode (.shard (blobLocation facts.digest).shard) = some 0o700)
      _ _ _ (Ensures.perform ?_ ?_) fun _ => ?_
    · rintro t ⟨hduring, -⟩ hfails
      exact ⟨hduring.1, fun h => not_works hfails h.1⟩
    · rintro t ⟨hduring, -⟩ -
      refine ⟨⟨hduring.1.setShard (.inl rfl), hduring.2⟩, ?_⟩
      exact OrderedMap.get_set.trans (if_pos rfl)
    · refine (Reads.during syncDirectory_checks (fun _ h => h.1.1) ?_).post ?_
      · exact fun _ _ _ => Option.some_ne_none _
      · exact fun _ _ h => ⟨h.1.1, fun _ => h.1.2⟩

/-- **`ensureDirectory`** leaves a private directory. -/
theorem ensureDirectory_ensures {facts : BlobFacts} {label : String}
    (hplanned : Planned w₀ facts) :
    Ensures env (Holds (DuringWith w₀ T))
      (ensureDirectory (blobLocation facts.digest).shard label)
      (fun _ => Holds fun w => DuringWith w₀ T w ∧
        w.disk.directoryMode (.shard (blobLocation facts.digest).shard) = some 0o700)
      (Interrupted env w₀) := by
  unfold ensureDirectory
  refine @Ensures.bind _ _ _ _ _ _ _ _
    (fun created => Holds fun w => DuringWith w₀ T w ∧ (created = false →
      w.disk.directoryMode (.shard (blobLocation facts.digest).shard) ≠ none))
    _ _ _ (Ensures.perform ?_ ?_) fun created => ?_
  · intro t hduring hfails
    exact ⟨hduring.1, fun h => not_works hfails h.1⟩
  · intro t hduring _
    by_cases hhas : t.state.disk.shards.has (blobLocation facts.digest).shard = true
    · rw [if_pos hhas]
      refine ⟨hduring, fun _ hnone => ?_⟩
      have hget : t.state.disk.shards.get (blobLocation facts.digest).shard = none := hnone
      rw [OrderedMap.has, hget] at hhas
      cases hhas
    · rw [if_neg hhas]
      refine ⟨⟨hduring.1.setShard (.inr ⟨Bool.eq_false_iff.mpr hhas, rfl⟩), hduring.2⟩, ?_⟩
      intro h
      cases h
  · refine (settleCreated_ensures created hplanned).bind fun _ => ?_
    refine (Reads.during exactDirectory_checks (fun _ h => h.1.1) fun _ h => h.2).post ?_
    exact fun _ _ h => ⟨h.1.1, h.2.1⟩

/-- Where every artifact is staged, a blob's file holds what it declares. -/
theorem During.known {w : StagingWorld} (h : During w₀ w)
    (hcomplete : w₀.transaction.complete = true) {ref : BlobRef} {b : ProvisionalBlob}
    (hblob : w.transaction.blob ref = some b) : b.cleanupFacts = some b.facts := by
  cases ref with
  | manifest =>
    obtain rfl := Option.some.inj hblob
    rfl
  | descriptor =>
    obtain ⟨d, -, rfl⟩ := Option.map_eq_some_iff.mp hblob
    rfl
  | artifact index =>
    obtain ⟨a, ha, rfl⟩ := Option.map_eq_some_iff.mp hblob
    have hmem := List.mem_of_getElem? ha
    refine h.declared a hmem ?_
    have hall := h.same.complete.trans hcomplete
    unfold OutputTransaction.complete at hall
    rw [Bool.and_eq_true] at hall
    exact List.all_eq_true.mp hall.2 a hmem

/-- The file of a blob that is not published. -/
theorem During.provisional {w : StagingWorld} (h : During w₀ w)
    (hcomplete : w₀.transaction.complete = true) {ref : BlobRef} {b : ProvisionalBlob}
    (hblob : w.transaction.blob ref = some b) (hb : b.published = false) :
    w.disk.Has (.provisional b.name) b.facts := by
  obtain ⟨before, after, hremaining, -⟩ := remaining_markPublished hblob hb
  have hmem : b ∈ w.transaction.remaining := by
    rw [hremaining]
    exact List.mem_append_right _ List.mem_cons_self
  obtain ⟨facts, hfacts, hhas⟩ := h.inStep.files b hmem
  rw [h.known hcomplete hblob] at hfacts
  obtain rfl := Option.some.inj hfacts
  exact hhas

/-- A marked blob is published, and the others stay so. -/
theorem publishedAt_markPublished {tx : OutputTransaction} (ref : BlobRef) {r : BlobRef}
    (h : r = ref ∨ tx.PublishedAt r) : (tx.markPublished ref).PublishedAt r := by
  intro b hb
  cases ref with
  | manifest =>
    cases r with
    | manifest =>
      obtain rfl := Option.some.inj hb
      rfl
    | artifact index => exact (h.resolve_left (fun h => nomatch h)) b hb
    | descriptor => exact (h.resolve_left (fun h => nomatch h)) b hb
  | descriptor =>
    cases r with
    | manifest => exact (h.resolve_left (fun h => nomatch h)) b hb
    | artifact index => exact (h.resolve_left (fun h => nomatch h)) b hb
    | descriptor =>
      obtain ⟨d, hd, rfl⟩ := Option.map_eq_some_iff.mp hb
      obtain ⟨d', -, rfl⟩ := Option.map_eq_some_iff.mp hd
      rfl
  | artifact index =>
    cases r with
    | manifest => exact (h.resolve_left (fun h => nomatch h)) b hb
    | descriptor => exact (h.resolve_left (fun h => nomatch h)) b hb
    | artifact other =>
      obtain ⟨a, ha, rfl⟩ := Option.map_eq_some_iff.mp hb
      have hmodified : (tx.artifacts.modify index
          fun a => { a with published := true })[other]? = some a := ha
      rw [List.getElem?_modify] at hmodified
      obtain ⟨c, hc, rfl⟩ := Option.map_eq_some_iff.mp hmodified
      by_cases hsame : index = other
      · rw [if_pos hsame]
        rfl
      · rw [if_neg hsame]
        have hother := h.resolve_left fun h => hsame (BlobRef.artifact.inj h).symm
        exact hother c.blob (Option.map_eq_some_iff.mpr ⟨c, hc, rfl⟩)

/-- The blobs of `done` are published. -/
def Done (done : List BlobRef) (tx : OutputTransaction) : Prop :=
  ∀ ref ∈ done, tx.PublishedAt ref

theorem Done.mark {done : List BlobRef} {tx : OutputTransaction} (ref : BlobRef)
    (h : Done done tx) : Done (ref :: done) (tx.markPublished ref) := by
  intro r hr
  refine publishedAt_markPublished ref ?_
  exact (List.mem_cons.mp hr).imp_right (h r)

/-- A blob about to leave the directory. -/
structure Leaving (w₀ : StagingWorld) (done : List BlobRef) (ref : BlobRef)
    (b : ProvisionalBlob) (w : StagingWorld) : Prop where
  during : During w₀ w
  done : Done done w.transaction
  blob : w.transaction.blob ref = some b
  shard : w.disk.directoryMode (.shard (blobLocation b.facts.digest).shard) = some 0o700

/-- Removing a file that is there. -/
theorem unlinkFile_ensures {name : String} {P : Trace FileCall StagingWorld → Prop}
    {E : Trace FileCall StagingWorld → Prop}
    (hP : ∀ t, P t → t.state.disk.file (.provisional name) ≠ none)
    (hE : ∀ t, P t → env t.made (.unlink name) = .fails →
      E ⟨t.state, (.unlink name, false) :: t.made⟩) :
    Ensures env P (unlinkFile name)
      (fun _ t => ∃ u, P u ∧ t.made = (.unlink name, true) :: u.made
        ∧ t.state = u.state.onDisk fun d => d.withEntries fun entries => entries.erase name)
      E := by
  refine Ensures.perform hE fun t ht _ => ?_
  rw [if_pos (Option.isSome_iff_ne_none.mpr (hP t ht))]
  exact ⟨t, ht, rfl, rfl⟩

variable {done : List BlobRef} {ref : BlobRef} {b : ProvisionalBlob}

/-- **A blob the store holds already**: its file is removed. -/
theorem converge_ensures (hplanned : Planned w₀ b.facts)
    (hcomplete : w₀.transaction.complete = true) (hb : b.published = false) :
    Ensures env
      (Holds fun w => Leaving w₀ done ref b w ∧ w.disk.file (.blob b.facts.digest) ≠ none)
      (converge ref b)
      (fun _ => Holds (DuringWith w₀ (Done (ref :: done)))) (Interrupted env w₀) := by
  unfold converge
  refine (Reads.during verifyFile_checks (fun _ h => h.1.during) ?_).bind fun _ => ?_
  · exact fun w h hw₀ => (h.1.during.clean hplanned hw₀).blob h.2
  refine (unlinkFile_ensures ?_ ?_).bind fun _ => ?_
  · rintro t ⟨⟨hleaving, -⟩, -⟩
    obtain ⟨f, hf, -⟩ := hleaving.during.provisional hcomplete hleaving.blob hb
    rw [hf]
    exact Option.some_ne_none f
  · rintro t ⟨⟨hleaving, -⟩, -⟩ hfails
    exact ⟨hleaving.during, fun h => not_works hfails h.1⟩
  refine @Ensures.bind _ _ _ _ _ _ _ _
    (fun _ => Holds (DuringWith w₀ (Done (ref :: done)))) _ _ _ (Ensures.change ?_) fun _ => ?_
  · rintro t ⟨u, ⟨⟨hleaving, -⟩, hhas, -⟩, -, hstate⟩
    refine ⟨?_, ?_⟩
    · refine hleaving.during.publish hplanned hcomplete hleaving.blob hb ?_ ?_ ?_ ?_
        hleaving.shard ?_ ?_
      all_goals rw [hstate]
      · rfl
      · rfl
      · rfl
      · rfl
      · exact hhas
      · exact fun _ => .inl rfl
    · rw [hstate]
      exact hleaving.done.mark ref
  · refine (Reads.during syncDirectory_checks (fun _ h => h.1) ?_).post fun _ _ h => h.1
    intro w h _
    rw [h.1.inStep.mode]
    exact Option.some_ne_none _

/-- **A blob the store does not hold**: its file becomes the blob. -/
theorem move_ensures (hplanned : Planned w₀ b.facts)
    (hcomplete : w₀.transaction.complete = true) (hb : b.published = false) :
    Ensures env
      (Holds fun w => Leaving w₀ done ref b w ∧ w.disk.file (.blob b.facts.digest) = none)
      (move ref b)
      (fun _ => Holds (DuringWith w₀ (Done (ref :: done)))) (Interrupted env w₀) := by
  unfold move
  refine @Ensures.bind _ _ _ _ _ _ _ _
    (fun _ => Holds fun w => ∃ u f, Leaving w₀ done ref b u
      ∧ u.disk.file (.blob b.facts.digest) = none ∧ f.Matches b.facts
      ∧ w = u.onDisk fun d =>
        (d.withEntries fun entries => entries.erase b.name).holding b.facts.digest f)
    _ _ _ (Ensures.perform ?_ ?_) fun _ => ?_
  · rintro t ⟨hleaving, -⟩ hfails
    exact ⟨hleaving.during, fun h => not_works hfails h.1⟩
  · rintro t ⟨hleaving, hnone⟩ -
    obtain ⟨f, hf, hmatches⟩ := hleaving.during.provisional hcomplete hleaving.blob hb
    rw [hf]
    exact ⟨t.state, f, hleaving, hnone, hmatches, rfl⟩
  refine @Ensures.bind _ _ _ _ _ _ _ _
    (fun _ => Holds fun w => DuringWith w₀ (Done (ref :: done)) w
      ∧ w.disk.directoryMode (.shard (blobLocation b.facts.digest).shard) ≠ none
      ∧ w.disk.Has (.blob b.facts.digest) b.facts)
    _ _ _ (Ensures.change ?_) fun _ => ?_
  · rintro t ⟨u, f, hleaving, hnone, hmatches, hstate⟩
    have hhas : (u.disk.blobs.set b.facts.digest f).get b.facts.digest = some f :=
      OrderedMap.get_set.trans (if_pos rfl)
    have hstored : t.state.disk.Has (.blob b.facts.digest) b.facts := by
      rw [hstate]
      exact ⟨f, hhas, hmatches⟩
    refine ⟨⟨?_, ?_⟩, ?_, hstored⟩
    · refine hleaving.during.publish hplanned hcomplete hleaving.blob hb ?_ ?_ ?_ ?_
        hleaving.shard hstored ?_
      all_goals rw [hstate]
      · rfl
      · rfl
      · rfl
      · rfl
      · intro digest
        by_cases hdigest : digest = b.facts.digest
        · exact .inr ⟨hdigest, hdigest ▸ hnone⟩
        · exact .inl (OrderedMap.get_set_of_ne hdigest)
    · rw [hstate]
      exact hleaving.done.mark ref
    · rw [hstate]
      show u.disk.directoryMode (.shard (blobLocation b.facts.digest).shard) ≠ none
      rw [hleaving.shard]
      exact Option.some_ne_none _
  refine (Reads.during syncDirectory_checks (fun _ h => h.1.1) fun _ h _ => h.2.1).bind
    fun _ => ?_
  refine (Reads.during verifyFile_checks (fun _ h => h.1.1.1) fun _ h _ => h.1.2.2).post ?_
  exact fun _ _ h => h.1.1.1

/-- **A blob that is not published becomes so.** -/
theorem publishProvisional_ensures (hplanned : Planned w₀ b.facts)
    (hcomplete : w₀.transaction.complete = true) (hb : b.published = false) :
    Ensures env (Holds (Leaving w₀ done ref b)) (publishProvisional ref b)
      (fun _ => Holds (DuringWith w₀ (Done (ref :: done)))) (Interrupted env w₀) := by
  unfold publishProvisional
  refine (Reads.during verifyFile_checks (fun _ h => h.during) ?_).bind fun _ => ?_
  · exact fun w h _ => h.during.provisional hcomplete h.blob hb
  refine (Reads.during fileExists_reads (fun _ h => h.1.during) fun _ _ _ => trivial).bind
    fun present => ?_
  by_cases hpresent : present = true
  · rw [if_pos hpresent]
    refine (converge_ensures hplanned hcomplete hb).pre ?_
    rintro t ⟨⟨hleaving, -⟩, -, hsome⟩
    exact ⟨hleaving, Option.isSome_iff_ne_none.mp (hsome.symm.trans hpresent)⟩
  · rw [if_neg hpresent]
    refine (move_ensures hplanned hcomplete hb).pre ?_
    rintro t ⟨⟨hleaving, -⟩, -, hsome⟩
    refine ⟨hleaving, ?_⟩
    rw [hsome, Option.isSome_iff_ne_none, not_not] at hpresent
    exact hpresent

/-- **`#publish`.** -/
theorem publish_ensures (hcomplete : w₀.transaction.complete = true) :
    Ensures env
      (Holds (DuringWith w₀ fun tx => Done done tx
        ∧ ∀ b, tx.blob ref = some b → Planned w₀ b.facts))
      (publish ref)
      (fun _ => Holds (DuringWith w₀ (Done (ref :: done)))) (Interrupted env w₀) := by
  unfold publish
  refine @Ensures.bind _ _ _ _ _ _ _ _
    (fun blob => Holds (DuringWith w₀ fun tx => (Done done tx
        ∧ ∀ b, tx.blob ref = some b → Planned w₀ b.facts) ∧ tx.blob ref = blob))
    _ _ _ (Ensures.observe fun t h => ⟨h.1, h.2, rfl⟩) fun blob => ?_
  cases blob with
  | none =>
    refine Ensures.pure ?_
    rintro t ⟨hduring, ⟨hdone, -⟩, hnone⟩
    refine ⟨hduring, fun r hr => ?_⟩
    rcases List.mem_cons.mp hr with rfl | hr
    · intro b hb
      rw [hnone] at hb
      cases hb
    · exact hdone r hr
  | some b =>
    refine Ensures.cases (p := Planned w₀ b.facts) (fun hplanned => ?_) fun hnot => ?_
    · show Ensures env _ (publishBlob ref b) _ _
      unfold publishBlob
      refine ((ensureDirectory_ensures hplanned).pre fun _ h => h).bind fun _ => ?_
      cases hb : b.published with
      | true =>
        refine (Reads.during verifyFile_checks (fun _ h => h.1.1) ?_).post ?_
        · rintro w ⟨⟨hduring, -, hblob⟩, -⟩ -
          obtain ⟨before, after, hblobs, -⟩ := blobs_markPublished hblob
          refine (hduring.stored b ?_ hb).1
          rw [hblobs]
          exact List.mem_append_right _ List.mem_cons_self
        · rintro _ t ⟨⟨⟨hduring, ⟨hdone, -⟩, hblob⟩, -⟩, -⟩
          refine ⟨hduring, fun r hr => ?_⟩
          rcases List.mem_cons.mp hr with rfl | hr
          · intro c hc
            rw [hblob] at hc
            obtain rfl := Option.some.inj hc
            exact hb
          · exact hdone r hr
      | false =>
        refine (publishProvisional_ensures hplanned hcomplete hb).pre ?_
        rintro t ⟨⟨hduring, ⟨hdone, -⟩, hblob⟩, hshard⟩
        exact ⟨hduring, hdone, hblob, hshard⟩
    · intro t h
      exact absurd (h.2.1.2 b h.2.2) hnot

end Publishing
