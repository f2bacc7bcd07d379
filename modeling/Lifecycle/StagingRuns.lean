import Lifecycle.CanonicalText
import Lifecycle.OutputRecovery
import Lifecycle.TransitionSystem

/-!
# Runs of an output transaction

Sequences of `stage`, `commit` and `abort` calls of one output transaction
in which filesystem operations may fail.

A call that fails where the transaction's directory and its flags do not
agree leaves a directory no later call accepts. `Delicate` names the
operations in question, each by what the call has done before it. In a run
that spares them the transaction stays `Kept` between any two calls, so an
abort always removes the directory and a commit that could publish still
can.
-/

open Fallible Json Faulty

variable {env : Environment FileCall}

/-! ## Faults that strand a transaction -/

/-- **A call of a transaction.** -/
inductive StagingCall
  | stage (input : StageInput)
  | commit
  | abort
deriving DecidableEq

/-- The last file a commit has created is not yet removed or renamed away:
it is writing the descriptor. -/
def describing : List (FileCall × Bool) → Bool
  | [] => false
  | (.create _, true) :: _ => true
  | (.unlink _, true) :: _ => false
  | _ :: made => describing made

/-- An abort has removed something. -/
def removing (made : List (FileCall × Bool)) : Bool :=
  made.any fun m => m.2 && match m.1 with
    | .unlink _ | .rmdir _ => true
    | _ => false

/-- **The operations that must not fail.** While an artifact is staged, a
write, and the last attempt to seal its file. While a commit writes the
descriptor, everything between the creation of its file and the flush of
the directory; and the flush of the staging directory once the
transaction's own is gone. While an abort removes, everything from the
first removal on. -/
def Delicate : StagingCall → List (FileCall × Bool) → FileCall → Prop
  | .stage _, made, call =>
    match call with
    | .write _ => True
    | .settle name => (.chmod name, true) ∉ made
    | _ => False
  | .commit, made, call =>
    match call with
    | .write _ | .sync _ | .chmod _ | .closeWrite _ => True
    | .openDirectory path | .syncDirectory path | .closeDirectory path =>
      path = .staging ∨ path = .root ∧ describing made = true
    | _ => False
  | .abort, made, _ => removing made = true

/-- **The environment spares a call**: no delicate operation of it fails or
gets nothing through. -/
def Spares (env : Environment FileCall) (call : StagingCall) : Prop :=
  ∀ made operation, Delicate call made operation →
    env made operation ≠ .fails ∧ env made operation ≠ .short 0

/-- The flush of a directory is delicate in all its parts. -/
theorem delicate_flush {made : List (FileCall × Bool)} {path : Location} {call : FileCall}
    (h : path = .staging ∨ path = .root ∧ describing made = true)
    (hcall : call ∈ [FileCall.openDirectory path, .syncDirectory path,
      .closeDirectory path]) : Delicate .commit made call := by
  simp only [List.mem_cons, List.not_mem_nil, or_false] at hcall
  rcases hcall with rfl | rfl | rfl
  all_goals exact h

theorem spares_of_works {call : StagingCall} (h : Works env) : Spares env call := by
  intro made operation _
  rw [h made operation]
  decide

/-! ## Writing one file -/

/-- **The world with one file more, or other.** -/
structure Beside (u : StagingWorld) (name : String) (f : StoredFile) (w : StagingWorld) :
    Prop where
  transaction : w.transaction = u.transaction
  umask : w.disk.umask = u.disk.umask
  shards : w.disk.shards = u.disk.shards
  blobs : w.disk.blobs = u.disk.blobs
  mode : w.disk.directoryMode .root = u.disk.directoryMode .root
  file : w.disk.file (.provisional name) = some f
  others : ∀ other, other ≠ name →
    w.disk.file (.provisional other) = u.disk.file (.provisional other)

/-- Changing the file. -/
theorem Beside.amend {u w : StagingWorld} {name : String} {f : StoredFile}
    (h : Beside u name f w) (g : StoredFile → StoredFile) :
    Beside u name (g f) (w.onDisk fun d => d.amend name g) := by
  have hfile := h.file
  obtain ⟨dir, hroot, hget⟩ := Option.bind_eq_some_iff.mp hfile
  have hafter : (w.disk.amend name g).root
      = some { dir with entries := dir.entries.set name (g f) } := by
    unfold StoreDisk.amend StoreDisk.withEntries
    rw [hroot]
    simp only [Option.map_some, hget]
  have hget' : ∀ other, (w.disk.amend name g).file (.provisional other)
      = if other = name then some (g f) else dir.entries.get other := by
    intro other
    show (w.disk.amend name g).root.bind _ = _
    rw [hafter]
    exact OrderedMap.get_set
  refine ⟨h.transaction, h.umask, h.shards, h.blobs, ?_, ?_, fun other hother => ?_⟩
  · rw [← h.mode]
    show (w.disk.amend name g).root.map (·.mode) = w.disk.root.map (·.mode)
    rw [hafter, hroot]
    rfl
  · exact (hget' name).trans (if_pos rfl)
  · rw [← h.others other hother]
    refine ((hget' other).trans (if_neg hother)).trans ?_
    show dir.entries.get other = w.disk.root.bind _
    rw [hroot]
    rfl

section Writing

variable {u : StagingWorld} {name : String} {N : List (FileCall × Bool) → Prop}

/-- **`createFile`** leaves an empty file beside the others. -/
theorem createFile_ensures {P : Trace FileCall StagingWorld → Prop}
    (hP : ∀ t, P t → t.state.disk.directoryMode .root ≠ none
      ∧ t.state.disk.file (.provisional name) = none) :
    Ensures env P (createFile name)
      (fun _ t => ∃ t₀, P t₀ ∧ t.made = (.create name, true) :: t₀.made
        ∧ ∃ f, f.bytes = [] ∧ Beside t₀.state name f t.state)
      (fun t => ∃ t₀, P t₀ ∧ t.state = t₀.state ∧ ¬ Works env) := by
  refine Ensures.perform ?_ ?_
  · intro t ht hfails
    exact ⟨t, ht, rfl, not_works hfails⟩
  · intro t ht _
    obtain ⟨hmode, hnone⟩ := hP t ht
    cases hroot : t.state.disk.root with
    | none =>
      refine absurd ?_ hmode
      show t.state.disk.root.map _ = none
      rw [hroot]
      rfl
    | some dir =>
      have hget : dir.entries.get name = none := by
        have hfile : t.state.disk.root.bind (·.entries.get name) = none := hnone
        rwa [hroot] at hfile
      have hhas : ¬ dir.entries.has name = true := by
        rw [OrderedMap.has, hget]
        exact Bool.false_ne_true
      dsimp only
      rw [if_neg hhas]
      have hafter : ∀ other, (t.state.disk.withEntries fun entries =>
          entries.set name ⟨[], masked t.state.disk.umask 0o600⟩).file (.provisional other)
          = if other = name then some ⟨[], masked t.state.disk.umask 0o600⟩
            else dir.entries.get other := by
        intro other
        show (t.state.disk.root.map _).bind _ = _
        rw [hroot]
        exact OrderedMap.get_set
      refine ⟨t, ht, rfl, _, rfl, rfl, rfl, rfl, rfl, ?_, (hafter name).trans (if_pos rfl), ?_⟩
      · show (t.state.disk.root.map _).map _ = t.state.disk.root.map _
        rw [hroot]
        rfl
      · intro other hother
        refine ((hafter other).trans (if_neg hother)).trans ?_
        show dir.entries.get other = t.state.disk.root.bind _
        rw [hroot]
        rfl

/-- **`writeAll`** writes all or fails, and fails only where a write is
obstructed. -/
theorem writeAll_ensures {E : Trace FileCall StagingWorld → Prop}
    (hE : (∀ made, env made (.write name) ≠ .fails ∧ env made (.write name) ≠ .short 0)
      ∨ ∀ t, E t)
    (hN : ∀ made, N made → N ((.write name, true) :: made)) {mode : Nat} :
    ∀ (fuel : Nat) (bytes before : List UInt8), bytes.length ≤ fuel →
      Ensures env (fun t => Beside u name ⟨before, mode⟩ t.state ∧ N t.made)
        (writeAll name fuel bytes)
        (fun _ t => Beside u name ⟨before ++ bytes, mode⟩ t.state ∧ N t.made) E
  | 0, bytes, before, hfuel => by
    obtain rfl := List.length_eq_zero_iff.mp (Nat.le_zero.mp hfuel)
    rw [List.append_nil]
    exact Ensures.pure fun _ h => h
  | _ + 1, [], before, _ => by
    rw [List.append_nil]
    exact Ensures.pure fun _ h => h
  | fuel + 1, byte :: bytes, before, hfuel => by
    unfold writeAll
    refine @Ensures.bind _ _ _ _ _ _ _ _
      (fun written t => (written = 0 → ∃ made, env made (.write name) = .fails
          ∨ env made (.write name) = .short 0)
        ∧ Beside u name ⟨before ++ (byte :: bytes).take written, mode⟩ t.state ∧ N t.made)
      _ _ _ (Ensures.perform ?_ ?_) fun written => Ensures.known fun hobstructed => ?_
    · intro t _ hfails
      obtain hspared | hfailed := hE
      · exact absurd hfails (hspared t.made).1
      · exact hfailed _
    · rintro t ⟨hbeside, hn⟩ -
      refine ⟨fun hzero => ?_, hbeside.amend fun f => ⟨f.bytes
        ++ (byte :: bytes).take ((env t.made (.write name)).amount (byte :: bytes).length),
        f.mode⟩, hN _ hn⟩
      rcases hanswer : env t.made (.write name) with _ | _ | n
      · rw [hanswer] at hzero
        exact absurd hzero (Nat.succ_ne_zero _)
      · exact ⟨t.made, .inl hanswer⟩
      · rw [hanswer] at hzero
        have hmin : min n (bytes.length + 1) = 0 := hzero
        have hn : n = 0 := by omega
        exact ⟨t.made, .inr (hn ▸ hanswer)⟩
    · by_cases hwritten : written = 0
      · rw [if_pos hwritten]
        refine Ensures.fail fun t _ => ?_
        obtain ⟨made, hmade⟩ := hobstructed hwritten
        obtain hspared | hfailed := hE
        · exact (hmade.elim (hspared made).1 (hspared made).2).elim
        · exact hfailed t
      · rw [if_neg hwritten]
        have hrest := @writeAll_ensures E hE hN mode fuel ((byte :: bytes).drop written)
          (before ++ (byte :: bytes).take written) (by
            rw [List.length_drop]
            omega)
        rw [List.append_assoc, List.take_append_drop] at hrest
        exact hrest

/-- Sealing the file, where the environment lets it through. -/
theorem chmodFile_ensures {call : FileCall} {f : StoredFile}
    {P E : Trace FileCall StagingWorld → Prop}
    (hP : ∀ t, P t → Beside u name f t.state)
    (hE : ∀ t, P t → env t.made call = .fails → E ⟨t.state, (call, false) :: t.made⟩) :
    Ensures env P (chmodFile call name)
      (fun _ t => ∃ t₀, P t₀ ∧ t.made = (call, true) :: t₀.made
        ∧ Beside u name ⟨f.bytes, 0o400⟩ t.state) E := by
  refine Ensures.perform hE fun t ht _ => ?_
  exact ⟨t, ht, rfl, (hP t ht).amend fun f => { f with mode := 0o400 }⟩

end Writing

/-- The flush of a directory, where the environment lets it through. -/
theorem syncDirectory_spared {path : Location} {P : Trace FileCall StagingWorld → Prop}
    (hspared : ∀ t, P t → ∀ call ∈ [FileCall.openDirectory path, .syncDirectory path,
      .closeDirectory path], env t.made call ≠ .fails)
    (hmode : ∀ t, P t → t.state.disk.directoryMode path ≠ none)
    (hP : ∀ t, P t → ∀ call ∈ [FileCall.openDirectory path, .syncDirectory path,
      .closeDirectory path], P ⟨t.state, (call, true) :: t.made⟩) :
    Ensures env P (syncDirectory path) (fun _ => P) fun _ => False := by
  unfold syncDirectory
  refine (Ensures.look_spared (fun t ht => hspared t ht _ (by simp)) hmode
    fun t ht => hP t ht _ (by simp)).bind fun _ => ?_
  refine @Ensures.always _ _ _ _ _ _ _ _ _ _ (fun _ => False) (fun _ => P)
    (Ensures.quiet_spared (fun t ht => hspared t ht _ (by simp))
      fun t ht => hP t ht _ (by simp)) (fun _ => ?_) fun _ h => h.elim
  exact Ensures.quiet_spared (fun t ht => hspared t ht _ (by simp))
    fun t ht => hP t ht _ (by simp)

/-! ## The descriptor -/

/-- A file of the transaction, while a commit writes it. -/
def Describing (u : StagingWorld) (name : String) (f : StoredFile)
    (t : Trace FileCall StagingWorld) : Prop :=
  Beside u name f t.state ∧ describing t.made = true

section Commit

variable {u : StagingWorld} {name : String}

/-- The descriptor's bytes reach its file. -/
theorem fillKnown_ensures (hspared : Spares env .commit) {mode : Nat} {bytes : List UInt8} :
    Ensures env (Describing u name ⟨[], mode⟩) (fillKnown name bytes)
      (fun _ => Describing u name ⟨bytes, 0o400⟩) fun _ => False := by
  unfold fillKnown
  refine (writeAll_ensures (N := fun made => describing made = true)
    (.inl fun made => hspared made (.write name) trivial) (fun _ h => h) bytes.length bytes []
    le_rfl).bind fun _ => ?_
  refine (Ensures.quiet_spared (P := Describing u name ⟨bytes, mode⟩)
    (fun t _ => (hspared t.made (.sync name) trivial).1) fun _ h => h).bind fun _ => ?_
  refine (chmodFile_ensures (fun _ h => h.1) fun t _ hfails =>
    (hspared t.made (.chmod name) trivial).1 hfails).post ?_
  rintro _ t ⟨t₀, ⟨-, hdescribing⟩, hmade, hbeside⟩
  refine ⟨hbeside, ?_⟩
  rw [hmade]
  exact hdescribing

/-- **`writeKnown` in a commit**: once the file exists, nothing fails. -/
theorem writeKnown_ensures (hspared : Spares env .commit) {bytes : List UInt8}
    (hmode : u.disk.directoryMode .root ≠ none)
    (hnone : u.disk.file (.provisional name) = none) :
    Ensures env (Holds fun w => w = u) (writeKnown name bytes)
      (fun b => Holds fun w => b = ⟨name, factsOf bytes, false⟩
        ∧ Beside u name ⟨bytes, 0o400⟩ w)
      fun t => t.state = u ∧ ¬ Works env := by
  unfold writeKnown
  refine @Ensures.bind _ _ _ _ _ _ _ _
    (fun _ t => ∃ mode, Describing u name ⟨[], mode⟩ t) _ _ _ ?_ fun _ => ?_
  · refine (createFile_ensures fun t ht => ?_).mono (fun _ h => h) ?_ ?_
    · rw [show t.state = u from ht]
      exact ⟨hmode, hnone⟩
    · rintro _ t ⟨t₀, ht₀, hmade, ⟨bytes₀, mode⟩, rfl, hbeside⟩
      refine ⟨mode, ?_, ?_⟩
      · rw [show t₀.state = u from ht₀] at hbeside
        exact hbeside
      · rw [hmade]
        rfl
    · rintro t ⟨t₀, ht₀, hstate, hworks⟩
      exact ⟨hstate.trans ht₀, hworks⟩
  refine Ensures.exists_pre fun mode => ?_
  refine @Ensures.bind _ _ _ _ _ _ _ _
    (fun _ => Describing u name ⟨bytes, 0o400⟩) _ _ _ (Ensures.never ?_) fun _ => ?_
  · refine @Ensures.always _ _ _ _ _ _ _ _ _ _ (fun _ => False)
      (fun _ => Describing u name ⟨bytes, 0o400⟩) (fillKnown_ensures hspared) (fun _ => ?_)
      fun _ h => h.elim
    exact Ensures.quiet_spared (fun t _ => (hspared t.made (.closeWrite name) trivial).1)
      fun _ h => h
  refine (Ensures.never (syncDirectory_spared (P := Describing u name ⟨bytes, 0o400⟩)
    ?_ ?_ ?_)).bind fun _ => ?_
  · intro t ht call hcall
    exact (hspared t.made call (delicate_flush (.inr ⟨rfl, ht.2⟩) hcall)).1
  · intro t ht
    rw [ht.1.mode]
    exact hmode
  · intro t ht call hcall
    simp only [List.mem_cons, List.not_mem_nil, or_false] at hcall
    rcases hcall with rfl | rfl | rfl
    all_goals exact ht
  · exact Ensures.pure fun t ht => ⟨rfl, ht.1⟩

/-- What the blob store holds depends on the blob store only. -/
theorem stored_of_store {d d' : StoreDisk} {blobs : List ProvisionalBlob} (h : Stored d blobs)
    (hblobs : d'.blobs = d.blobs) (hshards : d'.shards = d.shards) : Stored d' blobs := by
  intro b hb hpublished
  obtain ⟨hhas, hshard⟩ := h b hb hpublished
  refine ⟨?_, ?_⟩
  · show ∃ f, d'.blobs.get b.facts.digest = some f ∧ f.Matches b.facts
    rw [hblobs]
    exact hhas
  · show d'.shards.get _ = _
    rw [hshards]
    exact hshard

theorem clean_of_store {d d' : StoreDisk} {facts : BlobFacts} (h : Clean d facts)
    (hblobs : d'.blobs = d.blobs) (hshards : d'.shards = d.shards) : Clean d' facts := by
  refine ⟨fun hsome => ?_, fun hsome => ?_⟩
  · have hsome' : d'.shards.get (blobLocation facts.digest).shard ≠ none := hsome
    show d'.shards.get _ = some 0o700
    rw [hshards] at hsome' ⊢
    exact h.shard hsome'
  · have hsome' : d'.blobs.get facts.digest ≠ none := hsome
    show ∃ f, d'.blobs.get facts.digest = some f ∧ f.Matches facts
    rw [hblobs] at hsome' ⊢
    exact h.blob hsome'

variable {w₀ : StagingWorld}

/-- **The descriptor joins the transaction.** -/
theorem During.describe {w : StagingWorld} {bytes : List UInt8} (h : During w₀ u)
    (hremaining : u.transaction.remaining = []) (hnone : u.transaction.descriptor = none)
    (hbytes : u.transaction.descriptorBytes = .ok bytes)
    (hbeside : Beside u name ⟨bytes, 0o400⟩ w) :
    During w₀ { w with transaction :=
      { w.transaction with descriptor := some ⟨name, factsOf bytes, false⟩ } } := by
  have htransaction := hbeside.transaction
  have hblobs : { w.transaction with
      descriptor := some ⟨name, factsOf bytes, false⟩ : OutputTransaction }.blobs
      = u.transaction.blobs ++ [⟨name, factsOf bytes, some (factsOf bytes), false⟩] := by
    unfold OutputTransaction.blobs
    rw [htransaction, hnone]
    show _ :: (_ ++ [_]) = (_ :: (_ ++ [])) ++ [_]
    rw [List.append_nil]
    rfl
  have hleft : { w.transaction with
      descriptor := some ⟨name, factsOf bytes, false⟩ : OutputTransaction }.remaining
      = [⟨name, factsOf bytes, some (factsOf bytes), false⟩] := by
    have hfilter : u.transaction.blobs.filter (!·.published) = [] := hremaining
    unfold OutputTransaction.remaining
    rw [hblobs, List.filter_append, hfilter]
    rfl
  have hsame : SameSubject u.transaction { w.transaction with
      descriptor := some ⟨name, factsOf bytes, false⟩ : OutputTransaction } := by
    rw [htransaction]
    refine ⟨rfl, rfl, rfl, rfl, rfl, rfl, fun b hb => ?_⟩
    rw [hnone] at hb
    cases hb
  refine ⟨⟨⟨?_, ?_, ?_⟩, ?_⟩, h.same.trans hsame, ?_⟩
  · rw [hblobs]
    intro b hb hpublished
    rcases List.mem_append.mp hb with hb | hb
    · exact stored_of_store h.stored hbeside.blobs hbeside.shards b hb hpublished
    · rw [List.mem_singleton.mp hb] at hpublished
      cases hpublished
  · rw [htransaction]
    exact h.declared
  · rw [htransaction]
    exact h.staged
  · rw [hleft]
    refine ⟨hbeside.mode.trans h.inStep.mode, List.nodup_singleton _, fun other => ?_,
      fun b hb => ?_⟩
    · show w.disk.file (.provisional other) ≠ none ↔ other ∈ [name]
      rw [List.mem_singleton]
      by_cases hother : other = name
      · rw [hother, hbeside.file]
        exact iff_of_true (Option.some_ne_none _) rfl
      · rw [hbeside.others other hother, h.inStep.listing, hremaining]
        exact iff_of_false List.not_mem_nil hother
    · rw [List.mem_singleton.mp hb]
      exact ⟨_, rfl, _, hbeside.file, rfl, rfl, rfl⟩
  · intro hw₀
    obtain ⟨hopened, hcomplete, humask, bytes', hbytes', -, hclean, hdistinct⟩ :=
      h.committable hw₀
    rw [hbytes] at hbytes'
    obtain rfl := Except.ok.inj hbytes'
    refine ⟨hsame.state.trans hopened, hsame.complete.trans hcomplete, ?_, bytes,
      hsame.descriptorBytes.trans hbytes, ?_, ?_, ?_⟩
    · rw [show masked _ 0o700 = masked w.disk.umask 0o700 from rfl, hbeside.umask]
      exact humask
    · intro b hb
      obtain rfl := Option.some.inj hb
      rfl
    · intro facts hfacts
      rw [hsame.publication] at hfacts
      exact clean_of_store (hclean facts hfacts) hbeside.blobs hbeside.shards
    · rw [hsame.publication]
      exact hdistinct

/-- Every blob is published: the directory is empty. -/
theorem remaining_eq_nil {tx : OutputTransaction} (hmanifest : tx.PublishedAt .manifest)
    (hartifacts : ∀ index < tx.artifacts.length, tx.PublishedAt (.artifact index))
    (hdescriptor : tx.PublishedAt .descriptor) : tx.remaining = [] := by
  refine List.filter_eq_nil_iff.mpr fun b hb => ?_
  have hpublished : b.published = true := by
    rcases List.mem_cons.mp hb with rfl | hb
    · exact hmanifest _ rfl
    · rcases List.mem_append.mp hb with hb | hb
      · obtain ⟨a, ha, rfl⟩ := List.mem_map.mp hb
        obtain ⟨index, hlt, rfl⟩ := List.mem_iff_getElem.mp ha
        refine hartifacts index hlt _ ?_
        show Option.map _ tx.artifacts[index]? = _
        rw [List.getElem?_eq_getElem hlt]
        rfl
      · obtain ⟨d, hd, rfl⟩ := List.mem_map.mp hb
        refine hdescriptor _ ?_
        show Option.map _ tx.descriptor = _
        rw [Option.mem_toList.mp hd]
        rfl
  rw [hpublished]
  exact Bool.false_ne_true

/-- A pure part, whose error leaves the state alone. -/
theorem lifted_ensures {α : Type} {x : Except FoundationError α}
    {P E : Trace FileCall StagingWorld → Prop} {Q : α → Trace FileCall StagingWorld → Prop}
    (hok : ∀ a, x = .ok a → ∀ t, P t → Q a t) (herror : ∀ e, x = .error e → ∀ t, P t → E t) :
    Ensures env P (lifted x) Q E := by
  cases x with
  | error e => exact Ensures.fail (herror e rfl)
  | ok a => exact Ensures.pure (hok a rfl)

/-- The manifest and the artifacts are published. -/
def Carried (w₀ : StagingWorld) (tx : OutputTransaction) : Prop :=
  Done (.manifest :: (List.range w₀.transaction.artifacts.length).map .artifact) tx

/-- **Every blob of a commit of `w₀` is published**, the descriptor with
the facts `descriptor`. -/
structure AllPublished (w₀ : StagingWorld) (descriptor : BlobFacts) (w : StagingWorld) :
    Prop where
  during : During w₀ w
  remaining : w.transaction.remaining = []
  bytes : ∃ bytes, w₀.transaction.descriptorBytes = .ok bytes ∧ descriptor = factsOf bytes
  descriptor : ∃ b, w.transaction.descriptor = some b ∧ b.facts = descriptor

/-- **The descriptor is written once.** -/
theorem retainDescriptor_ensures (hspared : Spares env .commit) {bytes : List UInt8}
    (h : During w₀ u) (hcarried : Carried w₀ u.transaction)
    (hbytes : u.transaction.descriptorBytes = .ok bytes) :
    Ensures env (Holds fun w => w = u) (retainDescriptor bytes u.transaction.descriptor)
      (fun _ => Holds fun w => During w₀ w ∧ Carried w₀ w.transaction
        ∧ ∃ b, w.transaction.descriptor = some b ∧ b.facts = factsOf bytes)
      (Interrupted env w₀) := by
  cases hdescriptor : u.transaction.descriptor with
  | some b =>
    show Ensures env _ (if b.facts = factsOf bytes then _ else _) _ _
    by_cases hfacts : b.facts = factsOf bytes
    · rw [if_pos hfacts]
      refine Ensures.pure fun t ht => ?_
      show During w₀ t.state ∧ _
      rw [show t.state = u from ht]
      exact ⟨h, hcarried, b, hdescriptor, hfacts⟩
    · rw [if_neg hfacts]
      refine Ensures.fail fun t ht => ?_
      show During w₀ t.state ∧ _
      rw [show t.state = u from ht]
      refine ⟨h, fun hcommit => hfacts ?_⟩
      obtain ⟨-, -, -, bytes', hbytes', hsame, -⟩ := h.committable hcommit.2
      rw [hbytes] at hbytes'
      obtain rfl := Except.ok.inj hbytes'
      exact hsame b hdescriptor
  | none =>
    have hremaining : u.transaction.remaining = [] := by
      refine remaining_eq_nil (hcarried _ List.mem_cons_self) (fun index hlt => ?_) ?_
      · refine hcarried _ (List.mem_cons_of_mem _ (List.mem_map_of_mem ?_))
        rw [List.mem_range, ← h.same.length]
        exact hlt
      · intro b hb
        rw [show u.transaction.blob .descriptor = u.transaction.descriptor.map _ from rfl,
          hdescriptor] at hb
        cases hb
    have hmode : u.disk.directoryMode .root ≠ none := by
      rw [h.inStep.mode]
      exact Option.some_ne_none _
    have hnone : u.disk.file (.provisional "descriptor.json") = none := by
      by_contra hsome
      have hlisted := (h.inStep.listing _).mp hsome
      rw [hremaining] at hlisted
      cases hlisted
    show Ensures env _ (writeKnown "descriptor.json" bytes >>= _) _ _
    refine ((writeKnown_ensures hspared hmode hnone).mono (fun _ ht => ht)
      (fun _ _ hq => hq) ?_).bind fun b => Ensures.change ?_
    · rintro t ⟨ht, hworks⟩
      refine ⟨?_, fun hcommit => hworks hcommit.1⟩
      rw [ht]
      exact h
    · rintro t ⟨rfl, hbeside⟩
      refine ⟨h.describe hremaining hdescriptor hbytes hbeside, ?_, _, rfl, rfl⟩
      intro ref href b hb
      refine hcarried ref href b ?_
      rw [← hbeside.transaction, ← hb]
      rcases List.mem_cons.mp href with rfl | hmem
      · rfl
      · obtain ⟨index, -, rfl⟩ := List.mem_map.mp hmem
        rfl

/-- An artifact is something the commit publishes. -/
theorem During.planned_artifact {w : StagingWorld} (h : SameSubject w₀.transaction w.transaction)
    {index : Nat} {b : ProvisionalBlob} (hb : w.transaction.blob (.artifact index) = some b) :
    Planned w₀ b.facts := by
  intro bytes _
  rw [← h.publication]
  obtain ⟨a, ha, rfl⟩ := Option.map_eq_some_iff.mp hb
  exact List.mem_cons_of_mem _ (List.mem_cons_of_mem _
    (List.mem_map_of_mem (f := fun a : ArtifactState => a.binding.facts)
      (List.mem_of_getElem? ha)))

theorem During.planned_manifest {w : StagingWorld} (h : SameSubject w₀.transaction w.transaction)
    {b : ProvisionalBlob} (hb : w.transaction.blob .manifest = some b) :
    Planned w₀ b.facts := by
  intro bytes _
  rw [← h.publication]
  obtain rfl := Option.some.inj hb
  exact List.mem_cons_of_mem _ List.mem_cons_self

/-- **Publishing every blob.** -/
theorem publishAll_ensures (hspared : Spares env .commit)
    (hcomplete : w₀.transaction.complete = true) :
    Ensures env (Holds (During w₀)) publishAll
      (fun facts => Holds (AllPublished w₀ facts)) (Interrupted env w₀) := by
  unfold publishAll
  refine @Ensures.bind _ _ _ _ _ _ _ _
    (fun count t => count = w₀.transaction.artifacts.length ∧ Holds (During w₀) t) _ _ _
    (Ensures.observe fun t ht => ⟨ht.same.length, ht⟩) fun count => ?_
  refine Ensures.known fun hcount => ?_
  -- the artifacts, in order: those before the remaining ones are published
  refine @Ensures.bind _ _ _ _ _ _ _ _
    (fun _ => Holds (DuringWith w₀ (Done ((List.range count).map .artifact)))) _ _ _ ?_
    fun _ => ?_
  · refine (@Ensures.forEach _ _ _ _ env _ _
      (fun rest t => ∃ before, List.range count = before ++ rest
        ∧ Holds (DuringWith w₀ (Done (before.map .artifact))) t) (List.range count)
      fun index rest _ => Ensures.exists_pre fun before => Ensures.known fun hrange => ?_).mono
      ?_ ?_ fun _ h => h
    · refine ((@publish_ensures env w₀ (before.map .artifact) (.artifact index) hcomplete).pre
        ?_).post ?_
      · rintro t ⟨hduring, hdone⟩
        exact ⟨hduring, hdone, fun b hb => During.planned_artifact hduring.same hb⟩
      · rintro _ t ⟨hduring, hdone⟩
        refine ⟨before ++ [index], ?_, hduring, fun ref href => hdone ref ?_⟩
        · rw [hrange, List.append_assoc]
          rfl
        · rw [List.map_append, List.mem_append] at href
          rw [List.mem_cons]
          exact href.symm.imp_left List.mem_singleton.mp
    · exact fun t ht => ⟨[], rfl, ht, fun _ hmem => nomatch hmem⟩
    · rintro _ t ⟨before, hrange, hduring⟩
      rw [List.append_nil] at hrange
      rw [hrange]
      exact hduring
  refine @Ensures.bind _ _ _ _ _ _ _ _
    (fun _ => Holds (DuringWith w₀ (Carried w₀))) _ _ _ ?_ fun _ => ?_
  · refine ((@publish_ensures env w₀ ((List.range count).map .artifact) .manifest
      hcomplete).pre ?_).post ?_
    · rintro t ⟨hduring, hdone⟩
      exact ⟨hduring, hdone, fun b hb => During.planned_manifest hduring.same hb⟩
    · intro _ t ht
      rw [hcount] at ht
      exact ht
  refine @Ensures.bind _ _ _ _ _ _ _ _
    (fun tx t => ∃ u, tx = u.transaction ∧ (During w₀ u ∧ Carried w₀ u.transaction)
      ∧ Holds (fun w => w = u) t) _ _ _
    (Ensures.observe fun t ht => ⟨t.state, rfl, ht, rfl⟩) fun tx => ?_
  refine Ensures.exists_pre fun u => Ensures.known fun htx => Ensures.known fun hu => ?_
  rw [htx]
  refine @Ensures.bind _ _ _ _ _ _ _ _
    (fun bytes t => u.transaction.descriptorBytes = .ok bytes ∧ Holds (fun w => w = u) t)
    _ _ _ (lifted_ensures (fun bytes hbytes t ht => ⟨hbytes, ht⟩) ?_) fun bytes => ?_
  · intro e he t ht
    refine ⟨?_, fun hcommit => ?_⟩
    · rw [show t.state = u from ht]
      exact hu.1
    · obtain ⟨-, -, -, bytes, hbytes, -⟩ := hu.1.committable hcommit.2
      rw [he] at hbytes
      cases hbytes
  refine Ensures.known fun hbytes => ?_
  refine (retainDescriptor_ensures hspared hu.1 hu.2 hbytes).bind fun _ => ?_
  have hplanned : Planned w₀ (factsOf bytes) := by
    intro bytes' hbytes'
    rw [← hu.1.same.descriptorBytes, hbytes] at hbytes'
    obtain rfl := Except.ok.inj hbytes'
    exact List.mem_cons_self
  -- the last blob is published as part of a commit of the world it is retained in
  refine @Ensures.bind _ _ _ _ _ _ _ _
    (fun _ t => ∃ v, (During w₀ v ∧ ∃ b, v.transaction.descriptor = some b
      ∧ b.facts = factsOf bytes) ∧ Holds (DuringWith v (Done (.descriptor :: .manifest
      :: (List.range w₀.transaction.artifacts.length).map .artifact))) t) _ _ _ ?_ fun _ => ?_
  · intro t ht
    obtain ⟨hduring, hcarried, b, hb, hfacts⟩ := ht
    have hlast := @publish_ensures env t.state
      (.manifest :: (List.range w₀.transaction.artifacts.length).map .artifact) .descriptor
      (hduring.same.complete.trans hcomplete)
    refine (hlast.mono (fun _ h => h) (fun _ t' h => ?_) fun t' h => ?_) t
      ⟨.refl hduring.toKept, hcarried, fun c hc => ?_⟩
    · exact ⟨t.state, ⟨hduring, b, hb, hfacts⟩, h⟩
    · exact ⟨hduring.trans h.1, fun hcommit =>
        h.2 ⟨hcommit.1, hduring.committable hcommit.2⟩⟩
    · obtain ⟨d, hd, rfl⟩ := Option.map_eq_some_iff.mp hc
      rw [hb] at hd
      obtain rfl := Option.some.inj hd
      intro bytes' hbytes'
      rw [hduring.same.publication]
      rw [hduring.same.descriptorBytes] at hbytes'
      rw [show b.blob.facts = b.facts from rfl, hfacts]
      exact hplanned bytes' hbytes'
  refine Ensures.pure ?_
  rintro t ⟨v, ⟨hv, b, hb, hfacts⟩, hduring, hdone⟩
  obtain ⟨b', hb', hsame⟩ := hduring.same.descriptor b hb
  refine ⟨hv.trans hduring, ?_, ⟨bytes, ?_, rfl⟩, b', hb', hsame.trans hfacts⟩
  · have hlength := hduring.same.length.trans hv.same.length
    refine remaining_eq_nil (hdone _ (by simp)) (fun index hlt => hdone _ ?_) (hdone _ (by simp))
    refine List.mem_cons_of_mem _ (List.mem_cons_of_mem _ (List.mem_map_of_mem ?_))
    rw [List.mem_range, ← hlength]
    exact hlt
  · rw [← hu.1.same.descriptorBytes]
    exact hbytes

/-- The binding of a bounded blob can be compiled. -/
theorem exists_compileBinding {facts : BlobFacts} (h : facts.byteLength ≤ maxSafeInteger) :
    ∃ binding, compileBinding facts = .ok binding ∧ binding.descriptor = facts := by
  have hfacts : Canonicalizable facts.toJson := by
    refine canonicalizable_object fun m hm => ?_
    simp only [List.mem_cons, List.not_mem_nil, or_false] at hm
    rcases hm with rfl | rfl
    · exact canonicalizable_nat h
    · exact canonicalizable_string _
  have hsubject : Canonicalizable (.object (List.filter (fun m => m.1 ≠ "digest") [
      ("schema", .string "lifecycle.execution-output-store-binding.v1"),
      ("descriptor", facts.toJson)])) := by
    refine canonicalizable_object fun m hm => ?_
    have hmem := List.mem_of_mem_filter hm
    simp only [List.mem_cons, List.not_mem_nil, or_false] at hmem
    rcases hmem with rfl | rfl
    · exact canonicalizable_string _
    · exact hfacts
  obtain ⟨text, htext⟩ := hsubject
  refine ⟨⟨facts, sha256Bytes text⟩, ?_, rfl⟩
  unfold compileBinding selfDigest digestCanonical
  exact bind_eq_ok.mpr ⟨_, bind_eq_ok.mpr ⟨text, htext, rfl⟩, rfl⟩

/-- A descriptor is within its bound. -/
theorem length_descriptorBytes {tx : OutputTransaction} {bytes : List UInt8}
    (h : tx.descriptorBytes = .ok bytes) : bytes.length ≤ maximumDescriptorBytes := by
  simp only [OutputTransaction.descriptorBytes, bind_eq_ok, failIf_eq_ok, exists_unit,
    pure_eq_ok, not_lt] at h
  obtain ⟨_, -, _, -, hbound, rfl⟩ := h
  exact hbound

/-- **A concluded commit of `w₀`**: the directory is gone, every blob is
published, and the binding names the descriptor. -/
structure Concluded (w₀ : StagingWorld) (binding : StoreBinding) (w : StagingWorld) : Prop
    extends Custody w where
  root : w.disk.root = none
  state : w.transaction.state = .committed
  bound : w.transaction.binding = some binding
  published : ∀ b ∈ w.transaction.blobs, b.published = true
  artifacts : w.transaction.artifacts.map (fun a => (a.binding, a.staged))
    = w₀.transaction.artifacts.map fun a => (a.binding, a.staged)
  descriptor : ∃ bytes, w₀.transaction.descriptorBytes = .ok bytes
    ∧ compileBinding (factsOf bytes) = .ok binding
    ∧ ∃ b, w.transaction.descriptor = some b ∧ b.facts = factsOf bytes

/-- Removing the directory, which is empty. -/
theorem removeRoot_ensures {P E : Trace FileCall StagingWorld → Prop}
    (hP : ∀ t, P t → InStep t.state.disk [])
    (hE : ∀ t, P t → env t.made (.rmdir .root) = .fails →
      E ⟨t.state, (.rmdir .root, false) :: t.made⟩) :
    Ensures env P removeRoot
      (fun _ t => ∃ t₀, P t₀ ∧ t.made = (.rmdir .root, true) :: t₀.made
        ∧ t.state = t₀.state.onDisk fun d => { d with root := none }) E := by
  refine Ensures.perform hE fun t ht _ => ?_
  obtain ⟨dir, hroot, hperm⟩ := (hP t ht).root
  have hempty : dir.entries.keys = [] := hperm.eq_nil
  rw [hroot]
  dsimp only
  rw [if_pos hempty]
  exact ⟨t, ht, rfl, rfl⟩

/-- **The end of a commit.** -/
theorem conclude_ensures (hspared : Spares env .commit) {facts : BlobFacts} :
    Ensures env (Holds (AllPublished w₀ facts)) (concludeCommit facts)
      (fun binding => Holds (Concluded w₀ binding)) (Interrupted env w₀) := by
  unfold concludeCommit
  refine (Reads.during readRoot_reads (fun _ h => h.during) fun w h _ => ?_).bind fun names => ?_
  · obtain ⟨dir, hroot, -⟩ := h.during.inStep.root
    rw [hroot]
    exact Option.some_ne_none dir
  have hnames : ∀ w, AllPublished w₀ facts w ∧ w.disk.root ≠ none
      ∧ names = (w.disk.root.map (·.entries.keys)).getD [] → names = [] := by
    rintro w ⟨h, -, rfl⟩
    obtain ⟨dir, hroot, hperm⟩ := h.during.inStep.root
    rw [h.remaining] at hperm
    rw [hroot]
    exact hperm.eq_nil
  refine (Reads.during Reads.require (fun _ h => h.1.during) fun w h _ => hnames w h).bind
    fun _ => ?_
  refine (removeRoot_ensures ?_ ?_).bind fun _ => ?_
  · rintro t ⟨⟨h, -⟩, -⟩
    have hstep := h.during.inStep
    rwa [h.remaining] at hstep
  · rintro t ⟨⟨h, -⟩, -⟩ hfails
    exact ⟨h.during, fun hcommit => not_works hfails hcommit.1⟩
  -- from here on the directory is gone, and nothing may fail
  refine @Ensures.bind _ _ _ _ _ _ _ _
    (fun _ => Holds fun w => ∃ u, AllPublished w₀ facts u
      ∧ w = u.onDisk fun d => { d with root := none }) _ _ _ (Ensures.never ?_) fun _ => ?_
  · refine (syncDirectory_spared (P := Holds fun w => ∃ u, AllPublished w₀ facts u
      ∧ w = u.onDisk fun d => { d with root := none }) ?_ ?_ ?_).pre ?_
    · exact fun t _ call hcall => (hspared t.made call (delicate_flush (.inl rfl) hcall)).1
    · exact fun _ _ => Option.some_ne_none _
    · exact fun _ ht _ _ => ht
    · rintro t ⟨t₀, ⟨⟨h, -⟩, -⟩, -, hstate⟩
      exact ⟨t₀.state, h, hstate⟩
  refine @Ensures.bind _ _ _ _ _ _ _ _
    (fun binding t => compileBinding facts = .ok binding ∧ Holds (fun w => ∃ u,
      AllPublished w₀ facts u ∧ w = u.onDisk fun d => { d with root := none }) t) _ _ _
    (lifted_ensures (fun binding hbinding t ht => ⟨hbinding, ht⟩) ?_) fun binding => ?_
  · rintro e he t ⟨u, h, -⟩
    obtain ⟨bytes, hbytes, hfacts⟩ := h.bytes
    have hbound : facts.byteLength ≤ maxSafeInteger := by
      rw [hfacts]
      exact (length_descriptorBytes hbytes).trans (by decide)
    obtain ⟨binding, hbinding, -⟩ := exists_compileBinding hbound
    rw [he] at hbinding
    cases hbinding
  refine Ensures.known fun hbinding => ?_
  refine @Ensures.bind _ _ _ _ _ _ _ _ (fun _ => Holds (Concluded w₀ binding)) _ _ _
    (Ensures.change ?_) fun _ => Ensures.pure fun _ ht => ht
  rintro t ⟨u, h, hstate⟩
  obtain ⟨bytes, hbytes, hfacts⟩ := h.bytes
  show Concluded w₀ binding { t.state with transaction := _ }
  rw [hstate]
  refine ⟨⟨?_, h.during.declared, h.during.staged⟩, rfl, rfl, rfl, ?_, h.during.same.artifacts,
    bytes, hbytes, ?_, ?_⟩
  · exact stored_of_store h.during.stored rfl rfl
  · intro b hb
    have hnone := List.filter_eq_nil_iff.mp h.remaining b hb
    rw [Bool.not_eq_true, Bool.not_eq_false'] at hnone
    exact hnone
  · rw [← hfacts]
    exact hbinding
  · rw [← hfacts]
    exact h.descriptor

/-! ## The calls -/

/-- Being busy is not part of what a commit publishes. -/
theorem During.busy {w : StagingWorld} (h : During w₀ w) (busy : Bool) :
    During w₀ { w with transaction := { w.transaction with busy := busy } } := by
  refine ⟨⟨⟨h.stored, h.declared, h.staged⟩, h.inStep⟩, ?_, fun hw₀ => ?_⟩
  · exact ⟨h.same.plan, h.same.state, h.same.plannedBytes, h.same.binding, h.same.manifest,
      h.same.artifacts, h.same.descriptor⟩
  · obtain ⟨hopened, hcomplete, humask, hclean⟩ := h.committable hw₀
    exact ⟨hopened, hcomplete, humask, hclean⟩

/-- The part of a commit that may fail. -/
theorem commitOpen_ensures (hspared : Spares env .commit) :
    Ensures env (Holds (During w₀)) commitOpen
      (fun binding => Holds (Concluded w₀ binding)) (Interrupted env w₀) := by
  unfold commitOpen
  refine (Reads.during Reads.require (fun _ h => h) fun w h hw₀ =>
    (h.committable hw₀).complete).bind fun _ => ?_
  refine (Reads.during assertInventory_checks (fun _ h => h.1) fun w h _ =>
    h.1.toKept.inventoried).bind fun _ => ?_
  refine Ensures.cases (p := w₀.transaction.complete = true) (fun hcomplete => ?_)
    fun hnot t ht => ?_
  · refine ((publishAll_ensures hspared hcomplete).pre fun _ h => h.1.1).bind fun facts => ?_
    exact conclude_ensures hspared
  · exact absurd (ht.1.1.same.complete.symm.trans ht.1.2.1) hnot

/-- **A commit of an idle, unfinished transaction**: it concludes, or
leaves a transaction that can still be committed or aborted – and where it
could publish, only because the environment refused something. -/
theorem commit_ensures (hspared : Spares env .commit) (hkept : Kept w₀)
    (hidle : w₀.transaction.busy = false) (hstate : w₀.transaction.state ≠ .committed) :
    Ensures env (Holds fun w => w = w₀) commit
      (fun binding => Holds fun w => Concluded w₀ binding w ∧ w.transaction.busy = false)
      (fun t => Interrupted env w₀ t ∧ t.state.transaction.busy = false) := by
  unfold commit
  refine @Ensures.bind _ _ _ _ _ _ _ _ (fun binding t => binding = none
    ∧ Holds (fun w => w = w₀) t) _ _ _ (Ensures.observe fun t ht => ⟨?_, ht⟩) fun binding => ?_
  · rw [show t.state = w₀ from ht]
    unfold OutputTransaction.committedBinding
    rw [if_neg hstate]
  refine Ensures.known fun hnone => ?_
  rw [hnone]
  dsimp only
  unfold enter
  -- the guard of the call is not met by a poisoned or finished transaction
  refine @Ensures.bind _ _ _ _ _ _ _ _ (fun _ => Holds (During w₀)) _ _ _ ?_ fun _ => ?_
  · refine @Ensures.bind _ _ _ _ _ _ _ _ (fun _ => Holds fun w => w = w₀) _ _ _
      ((Reads.require.ensures (stable_holds (C := FileCall.Looks))).mono (fun _ h => h) (fun _ _ h => h.1) ?_)
      fun _ => Ensures.change fun t ht => ?_
    · rintro t ⟨ht, hguard⟩
      rw [show t.state = w₀ from ht] at hguard
      refine ⟨⟨?_, fun hcommit => hguard ⟨hcommit.1, ?_⟩⟩, ?_⟩
      · rw [show t.state = w₀ from ht]
        exact .refl hkept
      · rw [hidle, hcommit.2.opened]
        decide
      · rw [show t.state = w₀ from ht]
        exact hidle
    · show During w₀ { t.state with transaction := _ }
      rw [show t.state = w₀ from ht]
      exact (During.refl hkept).busy true
  refine Ensures.always (R := fun binding => Holds (Concluded w₀ binding))
    (F := Interrupted env w₀) ?_ (fun binding => Ensures.change fun t ht => ?_)
    (Ensures.change fun t ht => ?_)
  · exact Ensures.handle (commitOpen_ensures hspared) fun e => Ensures.fail fun _ h => h
  · exact ⟨⟨⟨ht.stored, ht.declared, ht.staged⟩, ht.root, ht.state, ht.bound, ht.published,
      ht.artifacts, ht.descriptor⟩, rfl⟩
  · exact ⟨⟨ht.1.busy false, ht.2⟩, rfl⟩

end Commit

/-! ## Aborting -/

section Abort

variable {w₀ w₁ : StagingWorld}

theorem removing_cons {made : List (FileCall × Bool)} (h : removing made = true)
    (m : FileCall × Bool) : removing (m :: made) = true := by
  unfold removing at h ⊢
  rw [List.any_cons, h, Bool.or_true]

/-- The facts of blobs that are all known. -/
theorem cleanupFacts_ensures {P E : Trace FileCall StagingWorld → Prop} :
    ∀ {blobs : List ProvisionalBlob}, (∀ b ∈ blobs, ∃ facts, b.cleanupFacts = some facts) →
      Ensures env P (cleanupFacts blobs)
        (fun entries t => (∀ e ∈ entries, ∃ b ∈ blobs, e.1 = b.name
          ∧ b.cleanupFacts = some e.2) ∧ P t) E
  | [], _ => Ensures.pure fun _ h => ⟨List.forall_mem_nil _, h⟩
  | b :: blobs, hknown => by
    obtain ⟨facts, hfacts⟩ := hknown b List.mem_cons_self
    unfold cleanupFacts
    rw [hfacts]
    refine (cleanupFacts_ensures fun c hc => hknown c (List.mem_cons_of_mem b hc)).bind
      fun rest => Ensures.known fun hrest => Ensures.pure fun t ht => ⟨fun e he => ?_, ht⟩
    rcases List.mem_cons.mp he with rfl | he
    · exact ⟨b, List.mem_cons_self, rfl, hfacts⟩
    · obtain ⟨c, hc, hname, hcfacts⟩ := hrest e he
      exact ⟨c, List.mem_cons_of_mem b hc, hname, hcfacts⟩

/-- **While an abort of `w₁` removes the files of `rest`**: nothing is
removed yet, or the removal has begun. -/
structure Removing (w₁ : StagingWorld) (rest : List ProvisionalBlob)
    (t : Trace FileCall StagingWorld) : Prop where
  inStep : InStep t.state.disk rest
  transaction : t.state.transaction = w₁.transaction
  blobs : t.state.disk.blobs = w₁.disk.blobs
  shards : t.state.disk.shards = w₁.disk.shards
  begun : t.state = w₁ ∨ removing t.made = true

/-- An abort of `w₁` that failed before it removed anything. -/
def Untouched (env : Environment FileCall) (w₁ : StagingWorld)
    (t : Trace FileCall StagingWorld) : Prop :=
  t.state = w₁ ∧ ¬ Works env

/-- A refusal in an abort comes before the first removal. -/
theorem untouched_of_fails (hspared : Spares env .abort) {rest : List ProvisionalBlob}
    {t : Trace FileCall StagingWorld} {call : FileCall} (h : Removing w₁ rest t)
    (hfails : env t.made call = .fails) : Untouched env w₁ ⟨t.state, (call, false) :: t.made⟩ :=
  ⟨h.begun.resolve_right fun hbegun => (hspared t.made call hbegun).1 hfails,
    not_works hfails⟩

/-- The flush of a directory, in an abort. -/
theorem syncDirectory_ensures (hspared : Spares env .abort) {path : Location}
    {rest : List ProvisionalBlob}
    (hmode : ∀ t, Removing w₁ rest t → t.state.disk.directoryMode path ≠ none) :
    Ensures env (Removing w₁ rest) (syncDirectory path) (fun _ => Removing w₁ rest)
      (Untouched env w₁) := by
  have hbegun : Ensures env (fun t => Removing w₁ rest t ∧ removing t.made = true)
      (syncDirectory path) (fun _ => Removing w₁ rest) (Untouched env w₁) := by
    refine (Ensures.never (syncDirectory_spared (fun t ht call _ =>
      (hspared t.made call ht.2).1) (fun t ht => hmode t ht.1) fun t ht call _ => ?_)).post
      fun _ _ h => h.1
    have hmore := removing_cons ht.2 (call, true)
    exact ⟨⟨ht.1.inStep, ht.1.transaction, ht.1.blobs, ht.1.shards, .inr hmore⟩, hmore⟩
  have hnot : Ensures env (Holds fun w => w = w₁ ∧ Removing w₁ rest ⟨w, []⟩)
      (syncDirectory path) (fun _ => Removing w₁ rest) (Untouched env w₁) := by
    refine (syncDirectory_checks.ensures stable_holds).mono (fun _ h => h) ?_ ?_
    · rintro _ t ⟨⟨hstate, h⟩, -⟩
      exact ⟨h.inStep, h.transaction, h.blobs, h.shards, .inl hstate⟩
    · rintro t ⟨⟨hstate, h⟩, hrefused⟩
      exact ⟨hstate, fun hworks => hrefused ⟨hworks, hmode ⟨t.state, []⟩ h⟩⟩
  refine (Ensures.or_pre hbegun hnot).pre fun t ht => ?_
  obtain hstate | hbegun := ht.begun
  · exact .inr ⟨hstate, ht.inStep, ht.transaction, ht.blobs, ht.shards, .inl hstate⟩
  · exact .inl ⟨ht, hbegun⟩

/-- **An aborted `w₀`**: the directory is gone. -/
structure Removed (w₀ w : StagingWorld) : Prop extends Custody w where
  root : w.disk.root = none
  state : w.transaction.state = .aborted
  artifacts : w.transaction.artifacts = w₀.transaction.artifacts

/-- The directory of `w₁` is removed. -/
def Gone (w₁ : StagingWorld) (t : Trace FileCall StagingWorld) : Prop :=
  removing t.made = true ∧ ∃ w : StagingWorld,
    t.state = w.onDisk (fun d => { d with root := none })
      ∧ w.transaction = w₁.transaction ∧ w.disk.blobs = w₁.disk.blobs
      ∧ w.disk.shards = w₁.disk.shards

/-- **The removal.** -/
theorem removeFiles_ensures (hspared : Spares env .abort) (hkept : Kept w₁) :
    Ensures env (Holds fun w => w = w₁) (removeFiles w₁.transaction.remaining)
      (fun _ => Holds (Removed w₁)) (Untouched env w₁) := by
  unfold removeFiles
  refine @Ensures.bind _ _ _ _ _ _ _ _ (fun _ => Removing w₁ []) _ _ _ ?_ fun _ => ?_
  · refine (@Ensures.forEach _ _ _ _ env _ _ (Removing w₁) w₁.transaction.remaining
      fun b rest _ => ?_).pre fun t ht => ?_
    · refine (unlinkFile_ensures (fun t ht => ?_) fun t ht hfails =>
        untouched_of_fails hspared ht hfails).post ?_
      · exact (ht.inStep.listing b.name).mpr List.mem_cons_self
      · rintro _ t ⟨t₀, ht, hmade, hstate⟩
        refine ⟨?_, ?_, ?_, ?_, .inr ?_⟩
        · rw [hstate]
          exact @InStep.erase t₀.state.disk _ [] rest b ht.inStep rfl
        · rw [hstate]
          exact ht.transaction
        · rw [hstate]
          exact ht.blobs
        · rw [hstate]
          exact ht.shards
        · rw [hmade]
          rfl
    · have hstate : t.state = w₁ := ht
      refine ⟨?_, ?_, ?_, ?_, .inl hstate⟩
      all_goals rw [hstate]
      exact hkept.inStep
  have hroot : ∀ t, Removing w₁ [] t → t.state.disk.directoryMode .root ≠ none := by
    intro t ht
    rw [ht.inStep.mode]
    exact Option.some_ne_none _
  refine (syncDirectory_ensures hspared hroot).bind fun _ => ?_
  refine (removeRoot_ensures (fun t ht => ht.inStep) fun t ht hfails =>
    untouched_of_fails hspared ht hfails).bind fun _ => ?_
  refine @Ensures.bind _ _ _ _ _ _ _ _ (fun _ => Gone w₁) _ _ _ (Ensures.never ?_) fun _ => ?_
  · refine (@syncDirectory_spared env .staging (Gone w₁)
      (fun t ht call _ => (hspared t.made call ht.1).1)
      (fun _ _ => Option.some_ne_none _) fun t ht call _ =>
        ⟨removing_cons ht.1 _, ht.2⟩).pre ?_
    rintro t ⟨t₀, ht, hmade, hstate⟩
    refine ⟨?_, t₀.state, hstate, ht.transaction, ht.blobs, ht.shards⟩
    rw [hmade]
    rfl
  · refine Ensures.change ?_
    rintro t ⟨-, w, hstate, htransaction, hblobs, hshards⟩
    show Removed w₁ { t.state with transaction := _ }
    rw [hstate]
    refine ⟨⟨?_, ?_, ?_⟩, rfl, rfl, ?_⟩
    · refine stored_of_store ?_ hblobs hshards
      show Stored w₁.disk w.transaction.blobs
      rw [htransaction]
      exact hkept.stored
    · show ∀ a ∈ w.transaction.artifacts, _
      rw [htransaction]
      exact hkept.declared
    · show ∀ a ∈ w.transaction.artifacts, _
      rw [htransaction]
      exact hkept.staged
    · show w.transaction.artifacts = _
      rw [htransaction]

/-- The part of an abort that may fail. -/
theorem abortOpen_ensures (hspared : Spares env .abort) (hkept : Kept w₁) :
    Ensures env (Holds fun w => w = w₁) abortOpen
      (fun _ => Holds (Removed w₁)) (Untouched env w₁) := by
  unfold abortOpen
  refine @Ensures.bind _ _ _ _ _ _ _ _ (fun _ => Holds fun w => w = w₁) _ _ _
    ((assertInventory_checks.ensures stable_holds).mono (fun _ h => h) (fun _ _ h => h.1) ?_)
    fun _ => ?_
  · rintro t ⟨hstate, hrefused⟩
    refine ⟨hstate, fun hworks => hrefused ⟨hworks, ?_⟩⟩
    rw [show t.state = w₁ from hstate]
    exact hkept.inventoried
  refine @Ensures.bind _ _ _ _ _ _ _ _ (fun remaining t =>
    remaining = w₁.transaction.remaining ∧ Holds (fun w => w = w₁) t) _ _ _
    (Ensures.observe fun t ht => ⟨?_, ht⟩) fun remaining => Ensures.known fun hremaining => ?_
  · rw [show t.state = w₁ from ht]
  rw [hremaining]
  refine (cleanupFacts_ensures fun b hb => ?_).bind fun entries =>
    Ensures.known fun hentries => ?_
  · obtain ⟨facts, hfacts, -⟩ := hkept.inStep.files b hb
    exact ⟨facts, hfacts⟩
  refine (@Ensures.forEach _ _ _ _ env _ _ (fun _ => Holds fun w => w = w₁) entries
    fun e rest hsuffix => ?_).bind fun _ => removeFiles_ensures hspared hkept
  refine (verifyFile_checks.ensures stable_holds).mono (fun _ h => h) (fun _ _ h => h.1) ?_
  rintro t ⟨hstate, hrefused⟩
  refine ⟨hstate, fun hworks => hrefused ⟨hworks, ?_⟩⟩
  obtain ⟨b, hb, hname, hfacts⟩ := hentries e (hsuffix.subset List.mem_cons_self)
  obtain ⟨facts, hknown, hhas⟩ := hkept.inStep.files b hb
  rw [hfacts] at hknown
  obtain rfl := Option.some.inj hknown
  rw [show t.state = w₁ from hstate, hname]
  exact hhas

/-- **An abort of an idle, unfinished transaction** removes everything, or
leaves the transaction as it was – and that only because the environment
refused something. -/
theorem abort_ensures (hspared : Spares env .abort) (hkept : Kept w₀)
    (hidle : w₀.transaction.busy = false)
    (hstate : w₀.transaction.state = .opened ∨ w₀.transaction.state = .poisoned) :
    Ensures env (Holds fun w => w = w₀) abort
      (fun _ => Holds fun w => Removed w₀ w ∧ w.transaction.busy = false)
      (Untouched env w₀) := by
  have hbusy : Kept { w₀ with transaction := { w₀.transaction with busy := true } } :=
    ⟨⟨hkept.stored, hkept.declared, hkept.staged⟩, hkept.inStep⟩
  have hnot : w₀.transaction.state ≠ .aborted ∧ w₀.transaction.state ≠ .committed := by
    obtain h | h := hstate
    all_goals
      rw [h]
      decide
  unfold abort
  refine @Ensures.bind _ _ _ _ _ _ _ _ (fun state t => state = w₀.transaction.state
    ∧ Holds (fun w => w = w₀) t) _ _ _ (Ensures.observe fun t ht => ⟨?_, ht⟩)
    fun state => Ensures.known fun hobserved => ?_
  · rw [show t.state = w₀ from ht]
  rw [hobserved, if_neg hnot.1]
  unfold enter
  refine @Ensures.bind _ _ _ _ _ _ _ _ (fun _ => Holds fun w =>
    w = { w₀ with transaction := { w₀.transaction with busy := true } }) _ _ _ ?_ fun _ => ?_
  · refine @Ensures.bind _ _ _ _ _ _ _ _ (fun _ => Holds fun w => w = w₀) _ _ _
      ((Reads.require.ensures (stable_holds (C := FileCall.Looks))).mono (fun _ h => h)
        (fun _ _ h => h.1) ?_) fun _ => Ensures.change fun t ht => ?_
    · rintro t ⟨ht, hguard⟩
      rw [show t.state = w₀ from ht] at hguard
      refine ⟨ht, fun hworks => hguard ⟨hworks, ?_⟩⟩
      rw [hidle]
      rintro (h | h | h | ⟨-, h⟩)
      · cases h
      · exact hnot.2 h
      · exact hnot.1 h
      · cases h
    · show _ = _
      rw [show t.state = w₀ from ht]
  refine Ensures.always (R := fun _ => Holds (Removed
      { w₀ with transaction := { w₀.transaction with busy := true } }))
    (F := Untouched env { w₀ with transaction := { w₀.transaction with busy := true } })
    ?_ (fun _ => Ensures.change fun t ht => ?_) (Ensures.change fun t ht => ?_)
  · exact Ensures.handle (abortOpen_ensures hspared hbusy) fun e => Ensures.fail fun _ h => h
  · exact ⟨⟨⟨ht.stored, ht.declared, ht.staged⟩, ht.root, ht.state, ht.artifacts⟩, rfl⟩
  · refine ⟨?_, ht.2⟩
    show ({ t.state with transaction := _ } : StagingWorld) = w₀
    rw [ht.1]
    show ({ w₀ with transaction := { w₀.transaction with busy := false } } : StagingWorld) = w₀
    rw [← hidle]

end Abort

/-! ## Staging -/

/-- The bytes of a stream that is all chunks. -/
def streamBytes : List StreamItem → Option (List UInt8)
  | [] => some []
  | .chunk bytes :: items => (streamBytes items).map (bytes ++ ·)
  | .other :: _ | .throws _ :: _ => none

/-- **What `stage` was given for an artifact**: its stream is exactly the
bytes its binding declares. -/
structure TakenFrom (input : StageInput) (a : ArtifactState) : Prop where
  binding : (a.binding.artifactIndex : Int) = input.artifactIndex
    ∧ a.binding.bindingDigest = input.bindingDigest
    ∧ (a.binding.byteLength : Int) = input.byteLength ∧ a.binding.digest = input.digest
  stream : ∃ bytes, streamBytes input.bytes = some bytes ∧ factsOf bytes = a.binding.facts

/-- No file was sealed in the call. -/
def unsealed (made : List (FileCall × Bool)) : Prop := ∀ name, (.chmod name, true) ∉ made

theorem unsealed_cons {made : List (FileCall × Bool)} {m : FileCall × Bool}
    (h : unsealed made) (hm : ∀ name, m.1 ≠ .chmod name) : unsealed (m :: made) := by
  intro name hmem
  rcases List.mem_cons.mp hmem with heq | hmem
  · exact hm name (heq ▸ rfl)
  · exact h name hmem

/-- A transaction with one artifact more. -/
structure JoinedBy (tx : OutputTransaction) (a : ArtifactState) (tx' : OutputTransaction) :
    Prop where
  manifest : tx'.manifest = tx.manifest
  descriptor : tx'.descriptor = tx.descriptor
  artifacts : tx'.artifacts = tx.artifacts ++ [a]
  state : tx'.state = .opened ∨ tx'.state = .poisoned

theorem modify_append_singleton {α : Type} (f : α → α) (a : α) : ∀ l : List α,
    (l ++ [a]).modify l.length f = l ++ [f a]
  | [] => rfl
  | b :: l => by
    show b :: (l ++ [a]).modify l.length f = b :: (l ++ [f a])
    rw [modify_append_singleton f a l]

theorem JoinedBy.withArtifact {tx tx' : OutputTransaction} {a : ArtifactState}
    (h : JoinedBy tx a tx') (f : ArtifactState → ArtifactState) :
    JoinedBy tx (f a) (tx'.withArtifact tx.artifacts.length f) := by
  refine ⟨h.manifest, h.descriptor, ?_, h.state⟩
  show tx'.artifacts.modify _ f = _
  rw [h.artifacts, modify_append_singleton]

/-- **The world with one artifact more**, its file being written. -/
def Filling (u : StagingWorld) (name : String) (a : ArtifactState) (f : StoredFile)
    (w : StagingWorld) : Prop :=
  ∃ tx, JoinedBy u.transaction a tx ∧ Beside { u with transaction := tx } name f w

/-- A change of the transaction alone. -/
theorem Filling.change {u w : StagingWorld} {name : String} {a b : ArtifactState}
    {f : StoredFile} (h : Filling u name a f w) (g : OutputTransaction → OutputTransaction)
    (hg : ∀ tx, JoinedBy u.transaction a tx → JoinedBy u.transaction b (g tx)) :
    Filling u name b f { w with transaction := g w.transaction } := by
  obtain ⟨tx, hjoined, hbeside⟩ := h
  refine ⟨g tx, hg tx hjoined, ?_⟩
  exact ⟨congrArg g hbeside.transaction, hbeside.umask, hbeside.shards, hbeside.blobs,
    hbeside.mode, hbeside.file, hbeside.others⟩

/-- A change of the artifact alone. -/
theorem Filling.withArtifact {u w : StagingWorld} {name : String} {a : ArtifactState}
    {f : StoredFile} (h : Filling u name a f w) (g : ArtifactState → ArtifactState) :
    Filling u name (g a) f { w with transaction :=
      (w.transaction.withArtifact u.transaction.artifacts.length g) } :=
  h.change (fun tx => tx.withArtifact u.transaction.artifacts.length g)
    fun _ hjoined => hjoined.withArtifact g

/-- **An artifact with a sealed file of known bytes joins the transaction.** -/
theorem Filling.kept {u w : StagingWorld} {name : String} {a : ArtifactState} {f : StoredFile}
    {facts : BlobFacts} (h : Filling u name a f w) (hkept : Kept u)
    (hfresh : u.disk.file (.provisional name) = none) (hname : a.name = name)
    (hpublished : a.published = false) (hcleanup : a.cleanupFacts = some facts)
    (hmatches : f.Matches facts) (hstaged : a.staged = true → facts = a.binding.facts) :
    Kept w := by
  obtain ⟨tx, hjoined, hbeside⟩ := h
  have htransaction : w.transaction = tx := hbeside.transaction
  have hsplit : ∃ before after, u.transaction.blobs = before ++ after
      ∧ tx.blobs = before ++ a.blob :: after := by
    refine ⟨u.transaction.manifest.blob :: u.transaction.artifacts.map (·.blob),
      u.transaction.descriptor.toList.map (·.blob), rfl, ?_⟩
    unfold OutputTransaction.blobs
    rw [hjoined.manifest, hjoined.artifacts, hjoined.descriptor, List.map_append,
      List.append_assoc]
    rfl
  obtain ⟨before, after, hbefore, hafter⟩ := hsplit
  have hremaining : u.transaction.remaining
      = before.filter (!·.published) ++ after.filter (!·.published) := by
    unfold OutputTransaction.remaining
    rw [hbefore, List.filter_append]
  have hremaining' : tx.remaining
      = before.filter (!·.published) ++ a.blob :: after.filter (!·.published) := by
    unfold OutputTransaction.remaining
    rw [hafter, List.filter_append, List.filter_cons, if_pos (by
      rw [show a.blob.published = a.published from rfl, hpublished]
      rfl)]
  have hstep := hkept.inStep
  rw [hremaining] at hstep
  have hunlisted : name ∉ (before.filter (!·.published)
      ++ after.filter (!·.published)).map (·.name) := fun hmem =>
    (hstep.listing name).mpr hmem hfresh
  have hmem_artifacts : ∀ c ∈ w.transaction.artifacts, c ∈ u.transaction.artifacts ∨ c = a := by
    intro c hc
    rw [htransaction, hjoined.artifacts] at hc
    exact (List.mem_append.mp hc).imp_right List.mem_singleton.mp
  refine ⟨⟨?_, fun c hc hcstaged => ?_, fun c hc hcpublished => ?_⟩, ?_⟩
  · intro c hc hcpublished
    rw [htransaction, hafter] at hc
    refine stored_of_store hkept.stored hbeside.blobs hbeside.shards c ?_ hcpublished
    rw [hbefore]
    rcases List.mem_append.mp hc with hc | hc
    · exact List.mem_append_left _ hc
    · rcases List.mem_cons.mp hc with rfl | hc
      · rw [show a.blob.published = a.published from rfl, hpublished] at hcpublished
        cases hcpublished
      · exact List.mem_append_right _ hc
  · obtain hc | rfl := hmem_artifacts c hc
    · exact hkept.declared c hc hcstaged
    · rw [hcleanup, hstaged hcstaged]
  · obtain hc | rfl := hmem_artifacts c hc
    · exact hkept.staged c hc hcpublished
    · rw [hpublished] at hcpublished
      cases hcpublished
  · rw [htransaction, hremaining']
    refine ⟨hbeside.mode.trans hstep.mode, ?_, fun other => ?_, fun c hc => ?_⟩
    · rw [List.map_append, List.map_cons, List.nodup_middle, ← List.map_append]
      refine List.nodup_cons.mpr ⟨?_, hstep.nodup⟩
      rw [show a.blob.name = name from hname]
      exact hunlisted
    · by_cases hother : other = name
      · rw [hother, hbeside.file]
        refine iff_of_true (Option.some_ne_none _) ?_
        rw [List.map_append, List.map_cons]
        exact List.mem_append_right _ (List.mem_cons.mpr (.inl hname.symm))
      · rw [hbeside.others other hother]
        refine (hstep.listing other).trans ?_
        rw [List.map_append, List.map_append, List.map_cons, List.mem_append, List.mem_append,
          List.mem_cons]
        have hne : other ≠ a.blob.name := fun h => hother (h.trans hname)
        exact ⟨fun h => h.imp_right .inr, fun h => h.imp_right fun h => h.resolve_left hne⟩
    · by_cases hc' : c = a.blob
      · rw [hc']
        refine ⟨facts, hcleanup, f, ?_, hmatches⟩
        rw [show a.blob.name = name from hname]
        exact hbeside.file
      · have hmem : c ∈ before.filter (!·.published) ++ after.filter (!·.published) := by
          rw [List.mem_append] at hc ⊢
          exact hc.imp_right fun h => (List.mem_cons.mp h).resolve_left hc'
        obtain ⟨cfacts, hcfacts, hhas⟩ := hstep.files c hmem
        have hne : c.name ≠ name := fun h =>
          hunlisted (h ▸ List.mem_map_of_mem hmem)
        refine ⟨cfacts, hcfacts, ?_⟩
        unfold StoreDisk.Has
        rw [hbeside.others c.name hne]
        exact hhas

section Stage

variable {w₀ u : StagingWorld} {name : String} {input : StageInput}

/-- **What a `stage` of `w₀` leaves**: a transaction that can still be
committed or aborted, with at most the artifact of the input more. -/
structure AfterStage (w₀ : StagingWorld) (input : StageInput) (w : StagingWorld) : Prop
    extends Kept w where
  state : w.transaction.state = .opened ∨ w.transaction.state = .poisoned
  artifacts : ∀ a ∈ w.transaction.artifacts, a.staged = true →
    a ∈ w₀.transaction.artifacts ∨ TakenFrom input a

/-- Taking the stream, where no write is obstructed. -/
theorem consume_ensures (hspared : Spares env (.stage input)) {limit mode : Nat} :
    ∀ (items : List StreamItem) (before : List UInt8),
      Ensures env (fun t => Beside u name ⟨before, mode⟩ t.state ∧ unsealed t.made)
        (consume name limit items before)
        (fun received t => ((∀ refusal, received.refusal = some refusal →
            refusal.known = true) ∧ (received.refusal = none →
            ∃ rest, streamBytes items = some rest ∧ received.bytes = before ++ rest))
          ∧ Beside u name ⟨received.bytes, mode⟩ t.state ∧ unsealed t.made) fun _ => False
  | [], before => by
    refine Ensures.pure fun t ht => ⟨⟨fun _ h => ?_, fun _ => ⟨[], rfl, ?_⟩⟩, ht⟩
    · cases h
    · exact (List.append_nil before).symm
  | .throws _ :: _, before | .other :: _, before => by
    refine Ensures.pure fun t ht => ⟨⟨fun _ h => ?_, fun h => ?_⟩, ht⟩
    · obtain rfl := Option.some.inj h
      rfl
    · cases h
  | .chunk bytes :: items, before => by
    unfold consume
    by_cases hcontract : bytes = [] ∨ limit - before.length < bytes.length
    · rw [if_pos hcontract]
      refine Ensures.pure fun t ht => ⟨⟨fun _ h => ?_, fun h => ?_⟩, ht⟩
      · obtain rfl := Option.some.inj h
        rfl
      · cases h
    rw [if_neg hcontract]
    have hwrite := @writeAll_ensures env u name unsealed (fun _ => False)
      (.inl fun made => hspared made (.write name) trivial)
      (fun made h => unsealed_cons h fun _ => FileCall.noConfusion) mode bytes.length bytes
      before le_rfl
    refine (hwrite.attempt).bind fun outcome => ?_
    cases outcome with
    | error e => exact fun t ht => (ht.2 e rfl).elim
    | ok _ =>
      refine ((consume_ensures hspared items (before ++ bytes)).pre
        fun t ht => ht.1 () rfl).post ?_
      rintro received t ⟨⟨hknown, hbytes⟩, hbeside⟩
      refine ⟨⟨hknown, fun hnone => ?_⟩, hbeside⟩
      obtain ⟨rest, hrest, hreceived⟩ := hbytes hnone
      refine ⟨bytes ++ rest, ?_, ?_⟩
      · show (streamBytes items).map _ = _
        rw [hrest]
        rfl
      · rw [hreceived, List.append_assoc]

/-- An operation whose failure is swallowed. -/
theorem ignoring_ensures {c : StoreProgram Unit} {P Q E : Trace FileCall StagingWorld → Prop}
    (h : Ensures env P c (fun _ => Q) Q) : Ensures env P (ignoring c) (fun _ => Q) E := by
  unfold ignoring
  refine (h.attempt).bind fun outcome => Ensures.pure fun t ht => ?_
  cases outcome with
  | error e => exact ht.2 e rfl
  | ok a => exact ht.1 a rfl

/-- A file whose bytes are all written: sealed, or not yet sealed in this
call. -/
def Written (u : StagingWorld) (name : String) (a : ArtifactState) (bytes : List UInt8)
    (t : Trace FileCall StagingWorld) : Prop :=
  ∃ mode, Filling u name a ⟨bytes, mode⟩ t.state ∧ (mode = 0o400 ∨ unsealed t.made)

/-- Flushing the file, whether or not the flush is refused. -/
theorem sync_ensures {a : ArtifactState} {bytes : List UInt8} :
    Ensures env (Written u name a bytes) (quiet (.sync name) OutputFailure.operational)
      (fun _ => Written u name a bytes) (Written u name a bytes) := by
  have hkept : ∀ t b, Written u name a bytes t →
      Written u name a bytes ⟨t.state, (.sync name, b) :: t.made⟩ := by
    rintro t b ⟨mode, hfilling, hsealed⟩
    exact ⟨mode, hfilling, hsealed.imp_right fun h =>
      unsealed_cons h fun _ => FileCall.noConfusion⟩
  exact Ensures.perform (fun t ht _ => hkept t false ht) fun t ht _ => hkept t true ht

/-- **The failure of a stream** leaves a sealed file of known bytes. -/
theorem salvage_ensures (hspared : Spares env (.stage input)) (hkept : Kept u)
    (hfresh : u.disk.file (.provisional name) = none) {a : ArtifactState}
    {bytes : List UInt8} {known : Option BlobFacts} {error : OutputFailure}
    (hname : a.name = name) (hpublished : a.published = false) (hstaged : a.staged = false)
    (hcleanup : known.or a.cleanupFacts = some (factsOf bytes))
    (hartifacts : ∀ c ∈ u.transaction.artifacts, c.staged = true →
      c ∈ w₀.transaction.artifacts) {Q : Unit → Trace FileCall StagingWorld → Prop} :
    Ensures env (Written u name a bytes)
      (salvage u.transaction.artifacts.length name known error) Q
      (Holds (AfterStage w₀ input)) := by
  let b : ArtifactState := { a with cleanupFacts := known.or a.cleanupFacts }
  unfold salvage
  refine @Ensures.bind _ _ _ _ _ _ _ _ (fun _ => Written u name a bytes) _ _ _
    (Ensures.change ?_) fun _ => ?_
  · rintro t ⟨mode, hfilling, hsealed⟩
    exact ⟨mode, hfilling.change (fun tx => { tx with state := .poisoned }) fun tx h =>
      ⟨h.manifest, h.descriptor, h.artifacts, .inr rfl⟩,
      hsealed⟩
  refine @Ensures.bind _ _ _ _ _ _ _ _ (fun _ => Written u name b bytes) _ _ _
    (Ensures.change ?_) fun _ => ?_
  · rintro t ⟨mode, hfilling, hsealed⟩
    exact ⟨mode, hfilling.withArtifact fun a =>
      { a with cleanupFacts := known.or a.cleanupFacts }, hsealed⟩
  refine (ignoring_ensures sync_ensures).bind fun _ => ?_
  refine @Ensures.bind _ _ _ _ _ _ _ _
    (fun _ => Holds (Filling u name b ⟨bytes, 0o400⟩)) _ _ _ (ignoring_ensures ?_) fun _ => ?_
  · refine Ensures.perform ?_ ?_
    · rintro t ⟨mode, hfilling, hsealed⟩ hfails
      obtain rfl | hunsealed := hsealed
      · exact hfilling
      · exact absurd hfails (hspared t.made (.settle name) (hunsealed name)).1
    · rintro t ⟨mode, ⟨tx, hjoined, hbeside⟩, -⟩ -
      exact ⟨tx, hjoined, hbeside.amend fun f => { f with mode := 0o400 }⟩
  refine Ensures.fail fun t ht => ?_
  have hjoined := ht
  obtain ⟨tx, hjoined, hbeside⟩ := hjoined
  refine ⟨Filling.kept ht hkept hfresh hname hpublished hcleanup ⟨rfl, rfl, rfl⟩ ?_, ?_, ?_⟩
  · intro h
    rw [show b.staged = a.staged from rfl, hstaged] at h
    cases h
  · rw [hbeside.transaction]
    exact hjoined.state
  · intro c hc hcstaged
    rw [hbeside.transaction] at hc
    rw [show ({ u with transaction := tx } : StagingWorld).transaction = tx from rfl,
      hjoined.artifacts] at hc
    rcases List.mem_append.mp hc with hc | hc
    · exact .inl (hartifacts c hc hcstaged)
    · rw [List.mem_singleton.mp hc, show b.staged = a.staged from rfl, hstaged] at hcstaged
      cases hcstaged

/-- **What follows the stream**: the artifact is staged, or its file is
sealed and known. -/
theorem receive_ensures (hspared : Spares env (.stage input)) (hkept : Kept u)
    (hfresh : u.disk.file (.provisional name) = none) {binding : ArtifactBinding}
    {received : Received} {mode : Nat}
    (hindex : binding.artifactIndex = u.transaction.artifacts.length)
    (hknown : ∀ refusal, received.refusal = some refusal → refusal.known = true)
    (htaken : received.refusal = none → factsOf received.bytes = binding.facts →
      TakenFrom input ⟨name, binding, some (factsOf received.bytes), true, false⟩)
    (hartifacts : ∀ c ∈ u.transaction.artifacts, c.staged = true →
      c ∈ w₀.transaction.artifacts) :
    Ensures env
      (fun t => Filling u name ⟨name, binding, none, false, false⟩ ⟨received.bytes, mode⟩ t.state
        ∧ unsealed t.made)
      (receive binding name received)
      (fun _ => Holds (AfterStage w₀ input)) (Holds (AfterStage w₀ input)) := by
  unfold receive
  rw [hindex]
  cases hrefusal : received.refusal with
  | some refusal =>
    dsimp only
    rw [if_pos (hknown refusal hrefusal)]
    refine (@salvage_ensures env w₀ u name input hspared hkept hfresh
      ⟨name, binding, none, false, false⟩ received.bytes _ _ rfl rfl rfl rfl hartifacts
      _).pre ?_
    rintro t ⟨hfilling, hunsealed⟩
    exact ⟨mode, hfilling, .inr hunsealed⟩
  | none =>
    dsimp only
    refine @Ensures.bind _ _ _ _ _ _ _ _ (fun _ => Written u name
      ⟨name, binding, some (factsOf received.bytes), false, false⟩ received.bytes) _ _ _
      (Ensures.change ?_) fun _ => ?_
    · rintro t ⟨hfilling, hunsealed⟩
      exact ⟨mode, hfilling.withArtifact fun a =>
        { a with cleanupFacts := some (factsOf received.bytes) }, .inr hunsealed⟩
    refine Ensures.handle (F := Written u name
      ⟨name, binding, some (factsOf received.bytes), false, false⟩ received.bytes) ?_
      fun e => @salvage_ensures env w₀ u name input hspared hkept hfresh
        ⟨name, binding, some (factsOf received.bytes), false, false⟩ received.bytes _ _
        rfl rfl rfl rfl hartifacts _
    unfold sealArtifact
    rw [hindex]
    refine sync_ensures.bind fun _ => ?_
    refine @Ensures.bind _ _ _ _ _ _ _ _ (fun _ => Holds (Filling u name
      ⟨name, binding, some (factsOf received.bytes), false, false⟩ ⟨received.bytes, 0o400⟩))
      _ _ _ (Ensures.perform ?_ ?_) fun _ => ?_
    · rintro t ⟨mode, hfilling, hsealed⟩ hfails
      refine ⟨mode, hfilling, hsealed.imp_right fun h other hmem => ?_⟩
      rcases List.mem_cons.mp hmem with heq | hmem
      · cases heq
      · exact h other hmem
    · rintro t ⟨mode, ⟨tx, hjoined, hbeside⟩, -⟩ -
      exact ⟨tx, hjoined, hbeside.amend fun f => { f with mode := 0o400 }⟩
    refine @Ensures.bind _ _ _ _ _ _ _ _ (fun _ t => factsOf received.bytes = binding.facts
      ∧ Holds (Filling u name ⟨name, binding, some (factsOf received.bytes), false, false⟩
        ⟨received.bytes, 0o400⟩) t) _ _ _
      ((Reads.require.ensures (stable_holds (C := FileCall.Looks))).mono (fun _ h => h)
        (fun _ _ h => ⟨h.2.1, h.1⟩) fun t ht => ⟨0o400, ht.1, .inl rfl⟩) fun _ => ?_
    refine Ensures.known fun hfacts => Ensures.change fun t ht => ?_
    have hfilling := Filling.withArtifact ht fun a => { a with staged := true }
    refine ⟨hfilling.kept hkept hfresh rfl rfl rfl ⟨rfl, rfl, rfl⟩ fun _ => hfacts, ?_, ?_⟩
    all_goals obtain ⟨tx, hjoined, hbeside⟩ := hfilling
    · exact (congrArg OutputTransaction.state hbeside.transaction).symm ▸ hjoined.state
    · intro c hc hcstaged
      have hmem : c ∈ tx.artifacts :=
        (congrArg OutputTransaction.artifacts hbeside.transaction) ▸ hc
      rw [hjoined.artifacts] at hmem
      rcases List.mem_append.mp hmem with hc | hc
      · exact .inl (hartifacts c hc hcstaged)
      · rw [List.mem_singleton.mp hc]
        exact .inr (htaken hrefusal hfacts)

/-- The binding is the input's. -/
theorem parseArtifact_eq {plan : StagingPlan} {binding : ArtifactBinding}
    (h : parseArtifact input plan = .ok binding) :
    (binding.artifactIndex : Int) = input.artifactIndex
      ∧ binding.bindingDigest = input.bindingDigest
      ∧ (binding.byteLength : Int) = input.byteLength ∧ binding.digest = input.digest := by
  simp only [parseArtifact, bind_eq_ok, failIf_eq_ok, exists_unit, pure_eq_ok, not_or,
    not_lt] at h
  obtain ⟨-, ⟨hindex, -⟩, ⟨hlength, -⟩, -, -, rfl⟩ := h
  exact ⟨Int.toNat_of_nonneg hindex, rfl, Int.toNat_of_nonneg hlength, rfl⟩

/-- The stream and what follows it. -/
theorem fillArtifact_ensures (hspared : Spares env (.stage input)) (hkept : Kept u)
    (hfresh : u.disk.file (.provisional name) = none) {binding : ArtifactBinding} {mode : Nat}
    (hbinding : (binding.artifactIndex : Int) = input.artifactIndex
      ∧ binding.bindingDigest = input.bindingDigest
      ∧ (binding.byteLength : Int) = input.byteLength ∧ binding.digest = input.digest)
    (hindex : binding.artifactIndex = u.transaction.artifacts.length)
    (hartifacts : ∀ c ∈ u.transaction.artifacts, c.staged = true →
      c ∈ w₀.transaction.artifacts) :
    Ensures env
      (fun t => Filling u name ⟨name, binding, none, false, false⟩ ⟨[], mode⟩ t.state
        ∧ unsealed t.made)
      (fillArtifact binding name input.bytes)
      (fun _ => Holds (AfterStage w₀ input)) (Holds (AfterStage w₀ input)) := by
  refine @Ensures.pre _ _ _ _ _ (fun t => ∃ tx,
    JoinedBy u.transaction ⟨name, binding, none, false, false⟩ tx
      ∧ Beside { u with transaction := tx } name ⟨[], mode⟩ t.state ∧ unsealed t.made)
    _ _ _ _ (Ensures.exists_pre fun tx => Ensures.known fun hjoined => ?_) ?_
  · unfold fillArtifact
    refine (Ensures.never (consume_ensures hspared input.bytes [])).bind fun received =>
      Ensures.known fun hreceived => ?_
    refine (@receive_ensures env w₀ u name input hspared hkept hfresh binding received mode
      hindex hreceived.1 (fun hnone hfacts => ?_) hartifacts).pre ?_
    · obtain ⟨rest, hrest, hbytes⟩ := hreceived.2 hnone
      rw [List.nil_append] at hbytes
      exact ⟨hbinding, rest, hrest, hbytes ▸ hfacts⟩
    · rintro t ⟨hbeside, hunsealed⟩
      exact ⟨⟨tx, hjoined, hbeside⟩, hunsealed⟩
  · rintro t ⟨⟨tx, hjoined, hbeside⟩, hunsealed⟩
    exact ⟨tx, hjoined, hbeside, hunsealed⟩

/-- **A transaction before its artifact is created.** -/
structure Prepared (w₀ w : StagingWorld) : Prop extends Kept w where
  state : w.transaction.state = .opened ∨ w.transaction.state = .poisoned
  artifacts : w.transaction.artifacts = w₀.transaction.artifacts

theorem Prepared.after {w : StagingWorld} (h : Prepared w₀ w) : AfterStage w₀ input w :=
  ⟨h.toKept, h.state, fun _ ha _ => .inl (h.artifacts ▸ ha)⟩

/-- Nothing is created and nothing sealed yet. -/
def Preparing (w₀ : StagingWorld) (t : Trace FileCall StagingWorld) : Prop :=
  Prepared w₀ t.state ∧ unsealed t.made

theorem stable_preparing : Stable FileCall.Looks (Preparing w₀) := by
  rintro t call b hcall ⟨h, hunsealed⟩
  refine ⟨h, unsealed_cons hunsealed fun name hname => ?_⟩
  have hchmod : call = .chmod name := hname
  rw [hchmod] at hcall
  exact hcall

/-- A file that exists is not created again. -/
theorem createFile_refused {P : Trace FileCall StagingWorld → Prop}
    {Q : Unit → Trace FileCall StagingWorld → Prop}
    (hP : ∀ t, P t → t.state.disk.file (.provisional name) ≠ none) :
    Ensures env P (createFile name) Q (fun t => ∃ t₀, P t₀ ∧ t.state = t₀.state) := by
  refine Ensures.perform (fun t ht _ => ⟨t, ht, rfl⟩) fun t ht _ => ?_
  cases hroot : t.state.disk.root with
  | none => exact ⟨t, ht, rfl⟩
  | some dir =>
    have hfile : t.state.disk.root.bind (·.entries.get name) ≠ none := hP t ht
    rw [hroot] at hfile
    have hhas : dir.entries.has name = true := by
      rw [OrderedMap.has]
      exact Option.isSome_iff_ne_none.mpr hfile
    dsimp only
    rw [if_pos hhas]
    exact ⟨t, ht, rfl⟩

/-- The part of `stage` that may fail. -/
theorem stageArtifact_ensures (hspared : Spares env (.stage input)) :
    Ensures env (Preparing w₀) (stageArtifact input)
      (fun _ => Holds (AfterStage w₀ input)) (Holds (AfterStage w₀ input)) := by
  have hafter : ∀ t, Preparing w₀ t → Holds (AfterStage w₀ input) t := fun t ht => ht.1.after
  unfold stageArtifact
  refine @Ensures.bind _ _ _ _ _ _ _ _ (fun _ => Preparing w₀) _ _ _
    (Ensures.observe fun _ ht => ht) fun plan => ?_
  refine @Ensures.bind _ _ _ _ _ _ _ _ (fun binding t =>
    parseArtifact input plan = .ok binding ∧ Preparing w₀ t) _ _ _
    (lifted_ensures (fun _ hbinding _ ht => ⟨hbinding, ht⟩) fun _ _ t ht => hafter t ht)
    fun binding => Ensures.known fun hbinding => ?_
  refine @Ensures.bind _ _ _ _ _ _ _ _ (fun _ t =>
    binding.artifactIndex = w₀.transaction.artifacts.length ∧ Preparing w₀ t) _ _ _
    ((Reads.require.ensures stable_preparing).mono (fun _ h => h) (fun _ t h => ⟨?_, h.1⟩)
      fun t h => hafter t h.1) fun _ => Ensures.known fun hindex => ?_
  · rw [← h.1.1.artifacts]
    exact h.2.1
  refine @Ensures.bind _ _ _ _ _ _ _ _ (fun _ => Preparing w₀) _ _ _
    (Ensures.change fun t ht => ⟨⟨⟨⟨ht.1.stored, ht.1.declared, ht.1.staged⟩, ht.1.inStep⟩,
      ht.1.state, ht.1.artifacts⟩, ht.2⟩) fun _ => ?_
  refine @Ensures.bind _ _ _ _ _ _ _ _ (fun _ => Preparing w₀) _ _ _
    ((Reads.require.ensures stable_preparing).mono (fun _ h => h) (fun _ _ h => h.1)
      fun t h => hafter t h.1) fun _ => ?_
  refine @Ensures.bind _ _ _ _ _ _ _ _ (fun _ => Preparing w₀) _ _ _
    ((assertInventory_checks.ensures stable_preparing).mono (fun _ h => h) (fun _ _ h => h.1)
      fun t h => hafter t h.1) fun _ => ?_
  -- the file may exist already, and then nothing happens
  refine @Ensures.bind _ _ _ _ _ _ _ _ (fun _ t => ∃ u mode, (Prepared w₀ u
      ∧ u.disk.file (.provisional (artifactName binding.artifactIndex)) = none)
    ∧ Beside u (artifactName binding.artifactIndex) ⟨[], mode⟩ t.state ∧ unsealed t.made)
    _ _ _ ?_ fun _ => ?_
  · have hnew : Ensures env (fun t => Preparing w₀ t
        ∧ t.state.disk.file (.provisional (artifactName binding.artifactIndex)) = none)
        (createFile (artifactName binding.artifactIndex)) (fun _ t => ∃ u mode, (Prepared w₀ u
          ∧ u.disk.file (.provisional (artifactName binding.artifactIndex)) = none)
        ∧ Beside u (artifactName binding.artifactIndex) ⟨[], mode⟩ t.state
        ∧ unsealed t.made) (Holds (AfterStage w₀ input)) := by
      refine (createFile_ensures fun t ht => ⟨?_, ht.2⟩).mono (fun _ h => h) ?_ ?_
      · rw [ht.1.1.inStep.mode]
        exact Option.some_ne_none _
      · rintro _ t ⟨t₀, ⟨⟨hprepared, hunsealed⟩, hnone⟩, hmade, ⟨bytes, mode⟩, rfl, hbeside⟩
        refine ⟨t₀.state, mode, ⟨hprepared, hnone⟩, hbeside, ?_⟩
        rw [hmade]
        exact unsealed_cons hunsealed fun _ => FileCall.noConfusion
      · rintro t ⟨t₀, ⟨⟨hprepared, -⟩, -⟩, hstate, -⟩
        show AfterStage w₀ input t.state
        rw [hstate]
        exact hprepared.after
    have hold : Ensures env (fun t => Preparing w₀ t
        ∧ t.state.disk.file (.provisional (artifactName binding.artifactIndex)) ≠ none)
        (createFile (artifactName binding.artifactIndex)) (fun _ t => ∃ u mode, (Prepared w₀ u
          ∧ u.disk.file (.provisional (artifactName binding.artifactIndex)) = none)
        ∧ Beside u (artifactName binding.artifactIndex) ⟨[], mode⟩ t.state
        ∧ unsealed t.made) (Holds (AfterStage w₀ input)) := by
      refine (createFile_refused fun t ht => ht.2).mono (fun _ h => h) (fun _ _ h => h) ?_
      rintro t ⟨t₀, ⟨⟨hprepared, -⟩, -⟩, hstate⟩
      show AfterStage w₀ input t.state
      rw [hstate]
      exact hprepared.after
    refine (Ensures.or_pre hnew hold).pre fun t ht => ?_
    by_cases hnone : t.state.disk.file
        (.provisional (artifactName binding.artifactIndex)) = none
    · exact .inl ⟨ht, hnone⟩
    · exact .inr ⟨ht, hnone⟩
  refine Ensures.exists_pre fun u => Ensures.exists_pre fun mode => Ensures.known fun hu => ?_
  refine @Ensures.bind _ _ _ _ _ _ _ _ (fun _ t => Filling u
      (artifactName binding.artifactIndex)
      ⟨artifactName binding.artifactIndex, binding, none, false, false⟩ ⟨[], mode⟩ t.state
    ∧ unsealed t.made) _ _ _ (Ensures.change ?_) fun _ => ?_
  · rintro t ⟨hbeside, hunsealed⟩
    refine ⟨⟨{ u.transaction with artifacts := u.transaction.artifacts ++
      [(⟨artifactName binding.artifactIndex, binding, none, false, false⟩ : ArtifactState)] },
      ⟨rfl, rfl, rfl, hu.1.state⟩, ?_⟩, hunsealed⟩
    refine ⟨?_, hbeside.umask, hbeside.shards, hbeside.blobs, hbeside.mode, hbeside.file,
      hbeside.others⟩
    exact congrArg (fun tx : OutputTransaction => { tx with artifacts := tx.artifacts ++
      [(⟨artifactName binding.artifactIndex, binding, none, false, false⟩ : ArtifactState)] })
      hbeside.transaction
  refine @Ensures.bind _ _ _ _ _ _ _ _ (fun _ => Holds (AfterStage w₀ input)) _ _ _ ?_
    fun _ => ?_
  · have hclosed : Ensures env (Holds (AfterStage w₀ input))
        (quiet (.closeWrite (artifactName binding.artifactIndex)) OutputFailure.operational)
        (fun _ => Holds (AfterStage w₀ input)) (Holds (AfterStage w₀ input)) :=
      Ensures.perform (fun _ ht _ => ht) fun _ ht _ => ht
    refine Ensures.always (R := fun _ => Holds (AfterStage w₀ input))
      (F := Holds (AfterStage w₀ input))
      (fillArtifact_ensures hspared hu.1.toKept hu.2 (parseArtifact_eq hbinding) ?_ ?_)
      (fun _ => hclosed) hclosed
    · rw [hindex, hu.1.artifacts]
    · exact fun c hc _ => hu.1.artifacts ▸ hc
  refine @Ensures.bind _ _ _ _ _ _ _ _ (fun _ => Holds (AfterStage w₀ input)) _ _ _ ?_
    fun _ => Ensures.pure fun _ ht => ht
  exact (syncDirectory_checks.ensures stable_holds).mono (fun _ h => h) (fun _ _ h => h.1)
    fun _ h => h.1

/-- **A `stage` of an idle, unfinished transaction.** -/
theorem stage_ensures (hspared : Spares env (.stage input)) (hkept : Kept w₀)
    (hidle : w₀.transaction.busy = false)
    (hstate : w₀.transaction.state = .opened ∨ w₀.transaction.state = .poisoned) :
    Ensures env (fun t => t.state = w₀ ∧ t.made = []) (stage input)
      (fun _ => Holds fun w => AfterStage w₀ input w ∧ w.transaction.busy = false)
      (Holds fun w => AfterStage w₀ input w ∧ w.transaction.busy = false) := by
  have hhere : AfterStage w₀ input w₀ := ⟨hkept, hstate, fun _ ha _ => .inl ha⟩
  have hbusy : ∀ w busy, AfterStage w₀ input w → AfterStage w₀ input
      { w with transaction := { w.transaction with busy := busy } } := fun w busy h =>
    ⟨⟨⟨h.stored, h.declared, h.staged⟩, h.inStep⟩, h.state, h.artifacts⟩
  unfold stage enter
  refine @Ensures.bind _ _ _ _ _ _ _ _ (fun _ => Preparing w₀) _ _ _ ?_ fun _ => ?_
  · refine @Ensures.bind _ _ _ _ _ _ _ _
      (fun _ t => Holds (fun w => w = w₀) t ∧ unsealed t.made) _ _ _ ?_
      fun _ => Ensures.change fun t ht => ?_
    · have hguard : Stable FileCall.Looks fun t : Trace FileCall StagingWorld =>
          t.state = w₀ ∧ unsealed t.made := by
        rintro t call b hcall ⟨h, hunsealed⟩
        refine ⟨h, unsealed_cons hunsealed fun name hname => ?_⟩
        have hchmod : call = .chmod name := hname
        rw [hchmod] at hcall
        exact hcall
      refine (Reads.require.ensures hguard).mono ?_ (fun _ _ h => h.1) ?_
      · rintro t ⟨hstate, hmade⟩
        refine ⟨hstate, ?_⟩
        rw [hmade]
        exact fun name => List.not_mem_nil
      · rintro t ⟨⟨hstate, -⟩, -⟩
        show AfterStage w₀ input t.state ∧ _
        rw [hstate]
        exact ⟨hhere, hidle⟩
    · refine ⟨?_, ht.2⟩
      show Prepared w₀ { t.state with transaction := _ }
      rw [show t.state = w₀ from ht.1]
      exact ⟨⟨⟨hkept.stored, hkept.declared, hkept.staged⟩, hkept.inStep⟩, hstate, rfl⟩
  refine Ensures.always (R := fun _ => Holds (AfterStage w₀ input))
    (F := Holds (AfterStage w₀ input)) ?_ (fun _ => Ensures.change fun t ht => ?_)
    (Ensures.change fun t ht => ?_)
  · refine Ensures.handle (stageArtifact_ensures hspared) fun e => ?_
    refine @Ensures.bind _ _ _ _ _ _ _ _ (fun _ => Holds (AfterStage w₀ input)) _ _ _
      (Ensures.change fun t ht => ?_) fun _ => Ensures.fail fun _ h => h
    show AfterStage w₀ input { t.state with transaction := t.state.transaction.poison }
    unfold OutputTransaction.poison
    split
    · exact ⟨⟨⟨ht.stored, ht.declared, ht.staged⟩, ht.inStep⟩, .inr rfl, ht.artifacts⟩
    · exact ht
  · exact ⟨hbusy _ false ht, rfl⟩
  · exact ⟨hbusy _ false ht, rfl⟩

end Stage
