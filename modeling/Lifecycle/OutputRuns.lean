import Lifecycle.StagingRuns

/-!
# What a run of an output transaction leaves

A transaction is created and then called any number of times, each call
under an environment of its own. In a run whose calls are all spared,
`Between` holds after each of them, and with it everything the store
promises of a transaction: what is published is what was staged, and while
the directory exists a commit or an abort still completes.

A single refusal where no call is spared is enough to lose the directory.
`stranded_after_refused_flush` is such a run: an abort has removed the
manifest's file when the flush of the directory is refused, the transaction
still counts the file as remaining, and no later call ever passes its
inventory.
-/

open Fallible Json Faulty

variable {env : Environment FileCall}

/-! ## Creation -/

/-- A file that was written, is there. -/
theorem writeKnown_written {u : StagingWorld} {name : String} {bytes : List UInt8}
    (hmode : u.disk.directoryMode .root ≠ none)
    (hnone : u.disk.file (.provisional name) = none) :
    Ensures env (Holds fun w => w = u) (writeKnown name bytes)
      (fun b => Holds fun w => b = ⟨name, factsOf bytes, false⟩
        ∧ Beside u name ⟨bytes, 0o400⟩ w) fun _ => True := by
  unfold writeKnown
  refine @Ensures.bind _ _ _ _ _ _ _ _
    (fun _ t => ∃ mode, Beside u name ⟨[], mode⟩ t.state ∧ True) _ _ _ ?_ fun _ => ?_
  · refine (createFile_ensures fun t ht => ?_).mono (fun _ h => h) ?_ fun _ _ => trivial
    · rw [show t.state = u from ht]
      exact ⟨hmode, hnone⟩
    · rintro _ t ⟨t₀, ht₀, -, ⟨bytes₀, mode⟩, rfl, hbeside⟩
      rw [show t₀.state = u from ht₀] at hbeside
      exact ⟨mode, hbeside, trivial⟩
  refine Ensures.exists_pre fun mode => ?_
  refine @Ensures.bind _ _ _ _ _ _ _ _ (fun _ => Holds (Beside u name ⟨bytes, 0o400⟩)) _ _ _
    ?_ fun _ => ?_
  · refine @Ensures.always _ _ _ _ _ _ _ _ _ _ (fun _ => True)
      (fun _ => Holds (Beside u name ⟨bytes, 0o400⟩)) ?_ (fun _ => ?_) ?_
    · unfold fillKnown
      refine (writeAll_ensures (N := fun _ => True) (.inr fun _ => trivial) (fun _ _ => trivial)
        bytes.length bytes [] le_rfl).bind fun _ => ?_
      refine @Ensures.bind _ _ _ _ _ _ _ _ (fun _ => Holds (Beside u name ⟨bytes, mode⟩)) _ _ _
        (Ensures.perform (fun _ _ _ => trivial) fun _ ht _ => ht.1) fun _ => ?_
      exact (chmodFile_ensures (fun _ h => h) fun _ _ _ => trivial).post
        fun _ _ ⟨_, _, _, hbeside⟩ => hbeside
    · exact Ensures.perform (fun _ _ _ => trivial) fun _ ht _ => ht
    · exact Ensures.perform (fun _ _ _ => trivial) fun _ _ _ => trivial
  refine @Ensures.bind _ _ _ _ _ _ _ _ (fun _ => Holds (Beside u name ⟨bytes, 0o400⟩)) _ _ _
    ((syncDirectory_checks.ensures stable_holds).mono (fun _ h => h) (fun _ _ h => h.1)
      fun _ _ => trivial) fun _ => Ensures.pure fun _ ht => ⟨rfl, ht⟩

/-- **A transaction that nothing was staged in.** -/
structure Opened (s : StagingWorld) : Prop extends Kept s where
  state : s.transaction.state = .opened
  idle : s.transaction.busy = false
  artifacts : s.transaction.artifacts = []

/-- The only file of a new directory. -/
theorem opened_of_manifest {u w : StagingWorld} {plan : StagingPlan} {bytes : List UInt8}
    (hroot : u.disk.root = some ⟨0o700, ∅⟩)
    (h : Beside u "manifest.json" ⟨bytes, 0o400⟩ w) :
    Opened { w with transaction :=
      { plan := plan, manifest := ⟨"manifest.json", factsOf bytes, false⟩ } } := by
  have hempty : ∀ name, u.disk.file (.provisional name) = none := by
    intro name
    show u.disk.root.bind _ = none
    rw [hroot]
    rfl
  refine ⟨⟨⟨?_, List.forall_mem_nil _, List.forall_mem_nil _⟩, ?_⟩, rfl, rfl, rfl⟩
  · intro b hb hpublished
    rw [List.mem_singleton.mp hb] at hpublished
    cases hpublished
  · refine ⟨?_, List.nodup_singleton _, fun name => ?_, fun b hb => ?_⟩
    · refine h.mode.trans ?_
      show u.disk.root.map _ = _
      rw [hroot]
      rfl
    · show w.disk.file (.provisional name) ≠ none ↔ name ∈ ["manifest.json"]
      rw [List.mem_singleton]
      by_cases hname : name = "manifest.json"
      · rw [hname, h.file]
        exact iff_of_true (Option.some_ne_none _) rfl
      · rw [h.others name hname, hempty]
        exact iff_of_false (not_not_intro rfl) hname
    · rw [List.mem_singleton.mp hb]
      exact ⟨_, rfl, _, h.file, rfl, rfl, rfl⟩

/-- **A created transaction holds its manifest and nothing else**, whatever
else the creation met. -/
theorem createTransaction_ensures {plan : StagingPlan} {bytes : List UInt8} :
    Ensures env (fun _ => True) (createTransaction plan bytes)
      (fun tx => Holds fun w => Opened { w with transaction := tx }) fun _ => True := by
  have hlooks : ∀ {c : StoreProgram Unit} {X S : StagingWorld → Prop} {f : StagingWorld → Unit},
      Reads env FileCall.Looks c X f →
        Ensures env (Holds S) c (fun _ => Holds S) fun _ => True := fun hc =>
    (hc.ensures stable_holds).mono (fun _ h => h) (fun _ _ h => h.1) fun _ _ => trivial
  unfold createTransaction
  refine @Ensures.bind _ _ _ _ _ _ _ _
    (fun _ => Holds fun w => ∃ mode, w.disk.root = some ⟨mode, ∅⟩) _ _ _ ?_ fun _ => ?_
  · refine Ensures.perform (fun _ _ _ => trivial) fun t _ _ => ?_
    cases t.state.disk.root with
    | some dir => exact trivial
    | none => exact ⟨_, rfl⟩
  refine @Ensures.bind _ _ _ _ _ _ _ _
    (fun _ => Holds fun w => w.disk.root = some ⟨0o700, ∅⟩) _ _ _ ?_ fun _ => ?_
  · refine Ensures.perform (fun _ _ _ => trivial) fun t ht _ => ?_
    obtain ⟨mode, hroot⟩ := ht
    show t.state.disk.root.map _ = _
    rw [hroot]
    rfl
  refine (hlooks syncDirectory_checks).bind fun _ => ?_
  refine (hlooks exactDirectory_checks).bind fun _ => ?_
  refine @Ensures.bind _ _ _ _ _ _ _ _ (fun manifest => Holds fun w => ∃ u : StagingWorld,
    u.disk.root = some ⟨0o700, ∅⟩ ∧ manifest = ⟨"manifest.json", factsOf bytes, false⟩
      ∧ Beside u "manifest.json" ⟨bytes, 0o400⟩ w) _ _ _ ?_ fun manifest => Ensures.pure ?_
  · intro t ht
    have hroot : t.state.disk.root = some ⟨0o700, ∅⟩ := ht
    refine ((@writeKnown_written env t.state "manifest.json" bytes ?_ ?_).post ?_) t rfl
    · show t.state.disk.root.map _ ≠ none
      rw [hroot]
      exact Option.some_ne_none _
    · show t.state.disk.root.bind _ = none
      rw [hroot]
      rfl
    · exact fun _ _ ⟨hmanifest, hbeside⟩ => ⟨t.state, hroot, hmanifest, hbeside⟩
  · rintro t ⟨u, hroot, rfl, hbeside⟩
    exact opened_of_manifest hroot hbeside

/-! ## Runs -/

/-- A call, whatever it returns. -/
def stagingProgram : StagingCall → StoreProgram Unit
  | .stage input => do
    let _ ← stage input
    pure ()
  | .commit => do
    let _ ← commit
    pure ()
  | .abort => abort

/-- **The runs of one transaction**: it is created, and then called, each
call under an environment of its own. -/
def stagingRuns : TransitionSystem StagingWorld (StagingCall × Environment FileCall) where
  initial s := ∃ plan bytes env w tx t,
    createTransaction plan bytes env ⟨w, []⟩ = (.ok tx, t) ∧ s = { t.state with transaction := tx }
  step w label w' := w' = (stagingProgram label.1 label.2 ⟨w, []⟩).2.state

/-- The calls the environment spares. -/
def sparedCall (_ : StagingWorld) (label : StagingCall × Environment FileCall) : Prop :=
  Spares label.2 label.1

/-- One call is a run. -/
theorem run_call (w : StagingWorld) (call : StagingCall) (env : Environment FileCall) :
    stagingRuns.Run w [(call, env)] (stagingProgram call env ⟨w, []⟩).2.state :=
  .single rfl

theorem run_spared_call (w : StagingWorld) {call : StagingCall} {env : Environment FileCall}
    (h : Spares env call) : (stagingRuns.restrict sparedCall).Run w [(call, env)]
      (stagingProgram call env ⟨w, []⟩).2.state :=
  .single ⟨h, rfl⟩

/-- Neither committed nor aborted. -/
def OutputTransaction.Unfinished (tx : OutputTransaction) : Prop :=
  tx.state = .opened ∨ tx.state = .poisoned

theorem OutputTransaction.finished_of_not {tx : OutputTransaction} (h : ¬ tx.Unfinished) :
    tx.state = .committed ∨ tx.state = .aborted := by
  unfold OutputTransaction.Unfinished at h
  rcases hstate : tx.state
  all_goals simp [hstate] at h ⊢

/-- **A transaction between two calls.** -/
structure Between (w : StagingWorld) : Prop extends Custody w where
  idle : w.transaction.busy = false
  kept : w.transaction.Unfinished → Kept w
  removed : ¬ w.transaction.Unfinished → w.disk.root = none
  bound : w.transaction.state = .committed → w.transaction.binding ≠ none

theorem Opened.between {w : StagingWorld} (h : Opened w) : Between w := by
  refine ⟨h.toCustody, h.idle, fun _ => h.toKept, fun hnot => ?_, fun hcommitted => ?_⟩
  · exact absurd (.inl h.state) hnot
  · rw [h.state] at hcommitted
    cases hcommitted

/-- **What one call does between two.** -/
structure Stepped (w₀ : StagingWorld) (call : StagingCall) (w : StagingWorld) : Prop
    extends Between w where
  /-- An artifact that is staged was staged before, or by this call. -/
  artifacts : ∀ a ∈ w.transaction.artifacts, a.staged = true →
    (∃ c ∈ w₀.transaction.artifacts, c.staged = true ∧ c.binding = a.binding)
      ∨ ∃ input, call = .stage input ∧ TakenFrom input a

theorem Stepped.refl {w : StagingWorld} {call : StagingCall} (h : Between w) :
    Stepped w call w :=
  ⟨h, fun a ha hstaged => .inl ⟨a, ha, hstaged, rfl⟩⟩

/-- Artifacts with the same bindings. -/
theorem artifacts_of_map {tx tx' : OutputTransaction}
    (h : tx'.artifacts.map (fun a => (a.binding, a.staged))
      = tx.artifacts.map fun a => (a.binding, a.staged)) :
    ∀ a ∈ tx'.artifacts, a.staged = true →
      ∃ c ∈ tx.artifacts, c.staged = true ∧ c.binding = a.binding := by
  intro a ha hstaged
  have hmem : (a.binding, a.staged) ∈ tx.artifacts.map fun a => (a.binding, a.staged) := by
    rw [← h]
    exact List.mem_map_of_mem (f := fun a : ArtifactState => (a.binding, a.staged)) ha
  obtain ⟨c, hc, hsame⟩ := List.mem_map.mp hmem
  obtain ⟨hbinding, hcstaged⟩ := Prod.ext_iff.mp hsame
  exact ⟨c, hc, hcstaged.trans hstaged, hbinding⟩

section Step

variable {w₀ : StagingWorld}

/-- A call that is refused at once. -/
theorem enter_refused {operation : String} {allowPoisoned : Bool}
    (h : w₀.transaction.state = .committed ∨ w₀.transaction.state = .aborted)
    {Q : Unit → Trace FileCall StagingWorld → Prop} :
    Ensures env (Holds fun w => w = w₀) (enter operation allowPoisoned) Q
      (Holds fun w => w = w₀) := by
  unfold enter
  refine @Ensures.bind _ _ _ _ _ _ _ _ (fun _ _ => False) _ _ _
    ((Reads.require.ensures (stable_holds (C := FileCall.Looks))).mono (fun _ h => h) ?_
      fun _ h => h.1) fun _ _ h => h.elim
  rintro _ t ⟨ht, hguard, -⟩
  rw [show t.state = w₀ from ht] at hguard
  exact hguard (.inr (h.imp_right .inl))

/-- **A finished transaction never changes again.** -/
theorem finished_ensures {call : StagingCall}
    (h : w₀.transaction.state = .committed ∨ w₀.transaction.state = .aborted) :
    Ensures env (Holds fun w => w = w₀) (stagingProgram call)
      (fun _ => Holds fun w => w = w₀) (Holds fun w => w = w₀) := by
  cases call with
  | stage input =>
    show Ensures env _ (stage input >>= _) _ _
    unfold stage
    refine @Ensures.bind _ _ _ _ _ _ _ _ (fun _ => Holds fun w => w = w₀) _ _ _ ?_
      fun _ => Ensures.pure fun _ h => h
    exact (enter_refused (Q := fun _ _ => False) h).bind fun _ _ h => h.elim
  | commit =>
    show Ensures env _ (commit >>= _) _ _
    unfold commit
    refine @Ensures.bind _ _ _ _ _ _ _ _ (fun _ => Holds fun w => w = w₀) _ _ _ ?_
      fun _ => Ensures.pure fun _ h => h
    refine @Ensures.bind _ _ _ _ _ _ _ _ (fun binding t =>
      binding = w₀.transaction.committedBinding ∧ Holds (fun w => w = w₀) t) _ _ _
      (Ensures.observe fun t ht => ⟨?_, ht⟩) fun binding => Ensures.known fun hbinding => ?_
    · rw [show t.state = w₀ from ht]
    cases binding with
    | some binding => exact Ensures.pure fun _ ht => ht
    | none => exact (enter_refused (Q := fun _ _ => False) h).bind fun _ _ h => h.elim
  | abort =>
    show Ensures env _ abort _ _
    unfold abort
    refine (Ensures.observe (Q := fun _ => Holds fun w => w = w₀) fun _ ht => ht).bind
      fun state => ?_
    split
    · exact Ensures.pure fun _ ht => ht
    · exact (enter_refused (Q := fun _ _ => False) h).bind fun _ _ h => h.elim

/-- A commit that failed while publishing leaves a transaction to retry. -/
theorem stepped_of_during {w : StagingWorld} (hunfinished : w₀.transaction.Unfinished)
    (h : During w₀ w) (hidle : w.transaction.busy = false) : Stepped w₀ .commit w := by
  have hstate : w.transaction.Unfinished := by
    unfold OutputTransaction.Unfinished
    rw [h.same.state]
    exact hunfinished
  refine ⟨⟨h.toCustody, hidle, fun _ => h.toKept, fun hnot => absurd hstate hnot, ?_⟩, ?_⟩
  · intro hcommitted
    rcases hstate with hopened | hpoisoned
    · rw [hopened] at hcommitted
      cases hcommitted
    · rw [hpoisoned] at hcommitted
      cases hcommitted
  · intro a ha hstaged
    exact .inl (artifacts_of_map h.same.artifacts a ha hstaged)

/-- A committed transaction. -/
theorem stepped_of_concluded {w : StagingWorld} {binding : StoreBinding}
    (h : Concluded w₀ binding w) (hidle : w.transaction.busy = false) :
    Stepped w₀ .commit w := by
  refine ⟨⟨h.toCustody, hidle, fun hunfinished => ?_, fun _ => h.root, fun _ => ?_⟩, ?_⟩
  · unfold OutputTransaction.Unfinished at hunfinished
    rw [h.state] at hunfinished
    exact absurd hunfinished (by decide)
  · rw [h.bound]
    exact Option.some_ne_none _
  · exact fun a ha hstaged => .inl (artifacts_of_map h.artifacts a ha hstaged)

/-- An aborted transaction. -/
theorem stepped_of_removed {w : StagingWorld} (h : Removed w₀ w)
    (hidle : w.transaction.busy = false) : Stepped w₀ .abort w := by
  refine ⟨⟨h.toCustody, hidle, fun hunfinished => ?_, fun _ => h.root, fun hcommitted => ?_⟩,
    fun a ha hstaged => .inl ⟨a, h.artifacts ▸ ha, hstaged, rfl⟩⟩
  · unfold OutputTransaction.Unfinished at hunfinished
    rw [h.state] at hunfinished
    exact absurd hunfinished (by decide)
  · rw [h.state] at hcommitted
    cases hcommitted

/-- What `stage` leaves. -/
theorem stepped_of_stage {w : StagingWorld} {input : StageInput} (h : AfterStage w₀ input w)
    (hidle : w.transaction.busy = false) : Stepped w₀ (.stage input) w := by
  refine ⟨⟨h.toCustody, hidle, fun _ => h.toKept, fun hnot => absurd h.state hnot, ?_⟩, ?_⟩
  · intro hcommitted
    have hstate := h.state
    rw [hcommitted] at hstate
    exact absurd hstate (by decide)
  · intro a ha hstaged
    obtain hbefore | htaken := h.artifacts a ha hstaged
    · exact .inl ⟨a, hbefore, hstaged, rfl⟩
    · exact .inr ⟨input, rfl, htaken⟩

/-- **One call of a run.** -/
theorem stagingProgram_ensures {call : StagingCall} (hspared : Spares env call)
    (h : Between w₀) :
    Ensures env (fun t => t.state = w₀ ∧ t.made = []) (stagingProgram call)
      (fun _ => Holds (Stepped w₀ call)) (Holds (Stepped w₀ call)) := by
  by_cases hunfinished : w₀.transaction.Unfinished
  · have hkept := h.kept hunfinished
    cases call with
    | stage input =>
      show Ensures env _ (stage input >>= _) _ _
      refine ((stage_ensures hspared hkept h.idle hunfinished).mono (fun _ ht => ht)
        (fun _ _ ht => stepped_of_stage ht.1 ht.2) fun _ ht =>
          stepped_of_stage ht.1 ht.2).bind fun _ => Ensures.pure fun _ ht => ht
    | commit =>
      show Ensures env _ (commit >>= _) _ _
      have hopen : w₀.transaction.state ≠ .committed := by
        intro hcommitted
        unfold OutputTransaction.Unfinished at hunfinished
        rw [hcommitted] at hunfinished
        exact absurd hunfinished (by decide)
      refine ((commit_ensures hspared hkept h.idle hopen).mono (fun _ ht => ht.1)
        (fun _ _ ht => stepped_of_concluded ht.1 ht.2) fun _ ht =>
          stepped_of_during hunfinished ht.1.1 ht.2).bind fun _ => Ensures.pure fun _ ht => ht
    | abort =>
      refine (abort_ensures hspared hkept h.idle hunfinished).mono (fun _ ht => ht.1)
        (fun _ _ ht => stepped_of_removed ht.1 ht.2) fun t ht => ?_
      show Stepped w₀ .abort t.state
      rw [ht.1]
      exact .refl h
  · have hfinished := OutputTransaction.finished_of_not hunfinished
    have hsame : ∀ t : Trace FileCall StagingWorld, t.state = w₀ → Stepped w₀ call t.state := by
      rintro t rfl
      exact .refl h
    exact (finished_ensures hfinished).mono (fun _ ht => ht.1) (fun _ => hsame) hsame

end Step

/-- **What is staged was given to some call of the run.** -/
def Provided (labels : List (StagingCall × Environment FileCall)) (w : StagingWorld) : Prop :=
  ∀ a ∈ w.transaction.artifacts, a.staged = true →
    ∃ input env, (.stage input, env) ∈ labels ∧ TakenFrom input a

/-- **A step of a spared run.** -/
theorem between_step {labels : List (StagingCall × Environment FileCall)} {w w' : StagingWorld}
    {label : StagingCall × Environment FileCall}
    (h : Between w ∧ Provided labels w) (hspared : sparedCall w label)
    (hstep : stagingRuns.step w label w') :
    Between w' ∧ Provided (labels ++ [label]) w' := by
  have hstepped : Stepped w label.1 w' := by
    have hrun := stagingProgram_ensures hspared h.1 ⟨w, []⟩ ⟨rfl, rfl⟩
    have hw' : w' = (stagingProgram label.1 label.2 ⟨w, []⟩).2.state := hstep
    rw [hw']
    rcases houtcome : stagingProgram label.1 label.2 ⟨w, []⟩ with ⟨_ | _, t⟩
    all_goals
      rw [houtcome] at hrun
      exact hrun
  refine ⟨hstepped.toBetween, fun a ha hstaged => ?_⟩
  obtain ⟨c, hc, hcstaged, hbinding⟩ | ⟨input, hcall, htaken⟩ := hstepped.artifacts a ha hstaged
  · obtain ⟨input, env, hmem, htaken⟩ := h.2 c hc hcstaged
    refine ⟨input, env, List.mem_append_left _ hmem, ?_, ?_⟩
    · rw [← hbinding]
      exact htaken.binding
    · rw [← hbinding]
      exact htaken.stream
  · refine ⟨input, label.2, List.mem_append_right _ (List.mem_singleton.mpr ?_), htaken⟩
    rw [← hcall]

/-- **A spared run keeps the transaction between calls.** -/
theorem between_of_run {s w : StagingWorld}
    {labels : List (StagingCall × Environment FileCall)} (hs : stagingRuns.initial s)
    (hrun : (stagingRuns.restrict sparedCall).Run s labels w) :
    Between w ∧ Provided labels w := by
  induction hrun with
  | nil =>
    obtain ⟨plan, bytes, env, u, tx, t, hcreated, rfl⟩ := hs
    have hopened := createTransaction_ensures.of_ok (P := fun _ => True) trivial hcreated
    have hopened' : Opened { t.state with transaction := tx } := hopened
    refine ⟨hopened'.between, fun a ha => ?_⟩
    rw [hopened'.artifacts] at ha
    cases ha
  | snoc _ hstep ih => exact between_step ih hstep.1 hstep.2

/-! ## What the store promises of a run -/

/-- **A recoverable transaction**, after the calls `labels`. -/
structure Recoverable (labels : List (StagingCall × Environment FileCall)) (w : StagingWorld) :
    Prop where
  /-- The blob of a published artifact is the bytes some call staged. -/
  published : ∀ a ∈ w.transaction.artifacts, a.published = true →
    ∃ input env bytes f, (.stage input, env) ∈ labels ∧ streamBytes input.bytes = some bytes
      ∧ w.disk.file (.blob a.binding.digest) = some f ∧ factsOf f.bytes = factsOf bytes
      ∧ factsOf bytes = a.binding.facts
  /-- So are those of the manifest and of the descriptor. -/
  stored : ∀ b ∈ w.transaction.blobs, b.published = true →
    ∃ f, w.disk.file (.blob b.facts.digest) = some f ∧ factsOf f.bytes = b.facts
  /-- A directory that exists is removed by the next abort that works. -/
  removable : w.disk.root ≠ none → ∀ env, Works env →
    ∃ t, abort env ⟨w, []⟩ = (.ok (), t) ∧ t.state.disk.root = none
  /-- A transaction that can be published is, by the next commit that works. -/
  retried : Committable w → ∀ env, Works env →
    ∃ binding t, commit env ⟨w, []⟩ = (.ok binding, t) ∧ Concluded w binding t.state
  /-- One of the two ways out is always open. -/
  completes : ∀ env, Works env → (∃ binding t, commit env ⟨w, []⟩ = (.ok binding, t))
    ∨ ∃ t, abort env ⟨w, []⟩ = (.ok (), t)

/-- A committed transaction returns its binding again. -/
theorem commit_committed {w : StagingWorld} {binding : StoreBinding}
    (hstate : w.transaction.state = .committed)
    (hbinding : w.transaction.binding = some binding) :
    commit env ⟨w, []⟩ = (.ok binding, ⟨w, []⟩) := by
  have hcommitted : w.transaction.committedBinding = some binding := by
    unfold OutputTransaction.committedBinding
    rw [if_pos hstate, hbinding]
  unfold commit
  rw [Faulty.bind_run]
  dsimp only [Faulty.observe]
  rw [hcommitted]
  rfl

/-- An aborted transaction is not aborted twice. -/
theorem abort_aborted {w : StagingWorld} (hstate : w.transaction.state = .aborted) :
    abort env ⟨w, []⟩ = (.ok (), ⟨w, []⟩) := by
  unfold abort
  rw [Faulty.bind_run]
  dsimp only [Faulty.observe]
  rw [if_pos hstate]
  rfl

/-- **A transaction between two calls is recoverable.** -/
theorem recoverable_of_between {labels : List (StagingCall × Environment FileCall)}
    {w : StagingWorld} (h : Between w) (hprovided : Provided labels w) :
    Recoverable labels w := by
  have habort : w.transaction.Unfinished → ∀ env, Works env →
      ∃ t, abort env ⟨w, []⟩ = (.ok (), t) ∧ t.state.disk.root = none := by
    intro hunfinished env hworks
    have hremoves := (abort_ensures (spares_of_works hworks) (h.kept hunfinished) h.idle
      hunfinished).mono (fun _ ht => ht) (fun _ _ ht => ht) fun _ ht => ht.2 hworks
    obtain ⟨_, t, hrun, hremoved⟩ := hremoves.exists_ok (t := ⟨w, []⟩) rfl
    exact ⟨t, hrun, hremoved.1.root⟩
  have hstored : ∀ b ∈ w.transaction.blobs, b.published = true →
      ∃ f, w.disk.file (.blob b.facts.digest) = some f ∧ factsOf f.bytes = b.facts := by
    intro b hb hpublished
    obtain ⟨f, hf, -, hlength, hdigest⟩ := (h.stored b hb hpublished).1
    refine ⟨f, hf, ?_⟩
    unfold factsOf
    rw [hlength, hdigest]
  refine ⟨fun a ha hpublished => ?_, hstored, fun hroot => ?_, fun hcommittable => ?_,
    fun env hworks => ?_⟩
  · obtain ⟨input, env, hmem, htaken⟩ := hprovided a ha (h.staged a ha hpublished)
    obtain ⟨bytes, hbytes, hfacts⟩ := htaken.stream
    obtain ⟨f, hf, hsame⟩ := hstored a.blob (List.mem_cons_of_mem _ (List.mem_append_left _
      (List.mem_map_of_mem ha))) hpublished
    exact ⟨input, env, bytes, f, hmem, hbytes, hf, hsame.trans hfacts.symm, hfacts⟩
  · by_cases hunfinished : w.transaction.Unfinished
    · exact habort hunfinished
    · exact absurd (h.removed hunfinished) hroot
  · intro env hworks
    have hopen : w.transaction.Unfinished := .inl hcommittable.opened
    have hnot : w.transaction.state ≠ .committed := by
      rw [hcommittable.opened]
      decide
    have hpublishes := (commit_ensures (spares_of_works hworks) (h.kept hopen) h.idle
      hnot).mono (fun _ ht => ht) (fun _ _ ht => ht) fun _ ht => ht.1.2 ⟨hworks, hcommittable⟩
    obtain ⟨binding, t, hrun, hconcluded⟩ := hpublishes.exists_ok (t := ⟨w, []⟩) rfl
    exact ⟨binding, t, hrun, hconcluded.1⟩
  · by_cases hunfinished : w.transaction.Unfinished
    · obtain ⟨t, hrun, -⟩ := habort hunfinished env hworks
      exact .inr ⟨t, hrun⟩
    rcases OutputTransaction.finished_of_not hunfinished with hcommitted | haborted
    · obtain ⟨binding, hbinding⟩ := Option.ne_none_iff_exists'.mp (h.bound hcommitted)
      exact .inl ⟨binding, ⟨w, []⟩, commit_committed hcommitted hbinding⟩
    · exact .inr ⟨⟨w, []⟩, abort_aborted haborted⟩

/-- **A transaction whose directory and flags disagree.** -/
structure Stranded (w : StagingWorld) : Prop where
  root : w.disk.root ≠ none
  inventory : ¬ Inventoried w

section Stranding

/-- The inventory of a stranded transaction is never passed. -/
theorem assertInventory_stranded {Q : Unit → Trace FileCall StagingWorld → Prop} :
    Ensures env (Holds Stranded) assertInventory Q (Holds Stranded) :=
  (assertInventory_checks.ensures stable_holds).mono (fun _ h => h)
    (fun _ _ h => absurd h.2.1 h.1.inventory) fun _ h => h.1

/-- Flags that say nothing of the files do not matter. -/
theorem Stranded.change {w : StagingWorld} (h : Stranded w)
    {f : OutputTransaction → OutputTransaction}
    (hf : (f w.transaction).remaining = w.transaction.remaining) :
    Stranded { w with transaction := f w.transaction } := by
  refine ⟨h.root, fun hinventoried => h.inventory ?_⟩
  unfold Inventoried at hinventoried ⊢
  rw [← hf]
  exact hinventoried

theorem changeTransaction_stranded {f : OutputTransaction → OutputTransaction}
    (hf : ∀ tx, (f tx).remaining = tx.remaining) {E : Trace FileCall StagingWorld → Prop} :
    Ensures env (Holds Stranded) (changeTransaction f) (fun _ => Holds Stranded) E :=
  Ensures.change fun _ ht => ht.change (hf _)

theorem require_stranded {c : StagingWorld → Prop} [DecidablePred c] {e : OutputFailure} :
    Ensures env (Holds Stranded) (require c e) (fun _ => Holds Stranded) (Holds Stranded) :=
  (Reads.require.ensures (stable_holds (C := FileCall.Looks))).mono (fun _ h => h)
    (fun _ _ h => h.1) fun _ h => h.1

theorem enter_stranded {operation : String} {allowPoisoned : Bool} :
    Ensures env (Holds Stranded) (enter operation allowPoisoned) (fun _ => Holds Stranded)
      (Holds Stranded) := by
  unfold enter
  exact require_stranded.bind fun _ => changeTransaction_stranded (by intro _; rfl)

/-- The body of a call, between its two flags. -/
theorem always_stranded {α : Type} {c : StoreProgram α}
    (h : Ensures env (Holds Stranded) c (fun _ => Holds Stranded) (Holds Stranded)) :
    Ensures env (Holds Stranded)
      (always c (changeTransaction fun tx => { tx with busy := false }))
      (fun _ => Holds Stranded) (Holds Stranded) :=
  Ensures.always h (fun _ => changeTransaction_stranded (by intro _; rfl))
    (changeTransaction_stranded (by intro _; rfl))

theorem poison_remaining (tx : OutputTransaction) : tx.poison.remaining = tx.remaining := by
  unfold OutputTransaction.poison
  split
  all_goals rfl

/-- **Every call of a stranded transaction leaves it stranded.** -/
theorem stagingProgram_stranded (call : StagingCall) :
    Ensures env (Holds Stranded) (stagingProgram call) (fun _ => Holds Stranded)
      (Holds Stranded) := by
  cases call with
  | stage input =>
    have hstage : Ensures env (Holds Stranded) (stageArtifact input) (fun _ => Holds Stranded)
        (Holds Stranded) := by
      unfold stageArtifact
      refine (Ensures.observe (Q := fun _ => Holds Stranded) fun _ ht => ht).bind fun plan => ?_
      refine (lifted_ensures (Q := fun _ => Holds Stranded) (fun _ _ _ ht => ht)
        fun _ _ _ ht => ht).bind fun binding => ?_
      refine require_stranded.bind fun _ => ?_
      refine (changeTransaction_stranded (by intro _; rfl)).bind fun _ => ?_
      refine require_stranded.bind fun _ => ?_
      exact (assertInventory_stranded (Q := fun _ _ => False)).bind fun _ _ h => h.elim
    show Ensures env _ (stage input >>= _) _ _
    unfold stage
    refine (enter_stranded.bind fun _ => always_stranded (Ensures.handle hstage fun e => ?_)).bind
      fun _ => Ensures.pure fun _ ht => ht
    exact (changeTransaction_stranded poison_remaining).bind fun _ => Ensures.fail fun _ ht => ht
  | commit =>
    have hcommit : Ensures env (Holds Stranded) commitOpen (fun _ => Holds Stranded)
        (Holds Stranded) := by
      unfold commitOpen
      refine require_stranded.bind fun _ => ?_
      exact (assertInventory_stranded (Q := fun _ _ => False)).bind fun _ _ h => h.elim
    show Ensures env _ (commit >>= _) _ _
    unfold commit
    refine ((Ensures.observe (Q := fun _ => Holds Stranded) fun _ ht => ht).bind
      fun binding => ?_).bind fun _ => Ensures.pure fun _ ht => ht
    cases binding with
    | some binding => exact Ensures.pure fun _ ht => ht
    | none =>
      exact enter_stranded.bind fun _ => always_stranded (Ensures.handle hcommit fun e =>
        Ensures.fail fun _ ht => ht)
  | abort =>
    have habort : Ensures env (Holds Stranded) abortOpen (fun _ => Holds Stranded)
        (Holds Stranded) := by
      unfold abortOpen
      exact (assertInventory_stranded (Q := fun _ _ => False)).bind fun _ _ h => h.elim
    show Ensures env _ abort _ _
    unfold abort
    refine (Ensures.observe (Q := fun _ => Holds Stranded) fun _ ht => ht).bind fun state => ?_
    split
    · exact Ensures.pure fun _ ht => ht
    · exact enter_stranded.bind fun _ => always_stranded (Ensures.handle habort fun e =>
        Ensures.fail fun _ ht => ht)

/-- **A stranded transaction stays stranded**, whatever is called and
whatever works. -/
theorem Stranded.run {w w' : StagingWorld}
    {labels : List (StagingCall × Environment FileCall)} (h : Stranded w)
    (hrun : stagingRuns.Run w labels w') : Stranded w' := by
  refine hrun.invariant (fun u label u' hu hstep => ?_) h
  have hleft := @stagingProgram_stranded label.2 label.1 ⟨u, []⟩ hu
  have hu' : u' = (stagingProgram label.1 label.2 ⟨u, []⟩).2.state := hstep
  rw [hu']
  rcases houtcome : stagingProgram label.1 label.2 ⟨u, []⟩ with ⟨_ | _, t⟩
  all_goals
    rw [houtcome] at hleft
    exact hleft

end Stranding

/-- An output without artifacts. -/
def emptyPlan : StagingPlan :=
  ⟨0, 0, "sha256:0000000000000000000000000000000000000000000000000000000000000000"⟩

/-- Its manifest, one canonical line. -/
def emptyManifest : List UInt8 :=
  (canonicalJsonLine (.object [("digest", .string emptyPlan.manifestDigest)])).toOption.getD []

/-- A disk on which nothing was staged yet. -/
def freshWorld : StagingWorld :=
  ⟨⟨0o022, none, ∅, ∅⟩, { plan := emptyPlan, manifest := ⟨"", factsOf [], false⟩ }⟩

/-- The flush of the directory is refused once the manifest is removed. -/
def refusesFlush : Environment FileCall := fun made call =>
  if call = .syncDirectory .root ∧ (.unlink "manifest.json", true) ∈ made then .fails else .works

/-- The transaction as it was created. -/
def createdWorld : StagingWorld :=
  match createTransaction emptyPlan emptyManifest working ⟨freshWorld, []⟩ with
  | (.ok tx, t) => { t.state with transaction := tx }
  | (.error _, t) => t.state

/-- The transaction after the interrupted abort. -/
def strandedWorld : StagingWorld :=
  (stagingProgram .abort refusesFlush ⟨createdWorld, []⟩).2.state

theorem initial_createdWorld : stagingRuns.initial createdWorld := by
  have hok : (createTransaction emptyPlan emptyManifest working ⟨freshWorld, []⟩).1.isOk
      = true := by decide +kernel
  rcases hrun : createTransaction emptyPlan emptyManifest working ⟨freshWorld, []⟩
    with ⟨_ | tx, t⟩
  all_goals rw [hrun] at hok
  · cases hok
  · refine ⟨emptyPlan, emptyManifest, working, freshWorld, tx, t, hrun, ?_⟩
    unfold createdWorld
    rw [hrun]

theorem run_strandedWorld :
    stagingRuns.Run createdWorld [(.abort, refusesFlush)] strandedWorld := by
  unfold strandedWorld
  exact run_call createdWorld .abort refusesFlush

theorem stranded_strandedWorld : Stranded strandedWorld := by
  have hkeys : strandedWorld.disk.root.map (·.entries.keys) = some [] := by decide +kernel
  have hnames : strandedWorld.transaction.remaining.map (·.name) = ["manifest.json"] := by
    decide +kernel
  refine ⟨fun hnone => ?_, fun hinventoried => ?_⟩
  · rw [hnone] at hkeys
    cases hkeys
  · have hsorted := hinventoried.2.2
    rw [hkeys, hnames] at hsorted
    exact absurd hsorted (by decide +kernel)

/-- **One refused flush strands a transaction for good**: the directory is
there after every further sequence of calls, whatever works in them. -/
theorem stranded_after_refused_flush {labels : List (StagingCall × Environment FileCall)}
    {w : StagingWorld} (hrun : stagingRuns.Run strandedWorld labels w) : w.disk.root ≠ none :=
  (stranded_strandedWorld.run hrun).root

/-- The listing of the directory is refused. -/
def refusesListing : Environment FileCall := fun _ call =>
  if call = .readdir .root then .fails else .works
