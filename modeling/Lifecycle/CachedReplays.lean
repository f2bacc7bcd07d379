import Lifecycle.StoreInvariants

/-!
# The replays handles keep

Every handle of a store keeps a replay between its calls and validates its
appends against it. Whatever other handles commit in between, it is the
replay of a beginning of the journal; and where a handle commits events of
its own, it was the replay of the whole journal and is so again
(`cachedReplays`). A handle that has fallen behind can still have a batch
found retained, and stays behind (`Sample.retried_behind`).
-/

open Fallible Json ControlModel DeliveryReducer ControlStore Transactions TransactionBody

variable {profiles : String → Schema} {w w' : StoreWork}

/-! ## Batches -/

/-- A replay that is current stays so with every item it appends. -/
theorem Appends.keeps_current {items : List CompiledAppend} {events : List ControlRecordEvent}
    (h : Appends w items events w') (hjournal : JournalSound w.db)
    (hcurrent : Current w.db w.replay) : Current w'.db w'.replay := by
  induction h with
  | nil => exact hcurrent
  | cons hitem _ ih =>
    obtain ⟨hnext, hnames⟩ := hitem.sound hjournal hcurrent.cached
    exact ih ⟨_, hnext, hnames⟩ hnext

/-- **A replay that appends is current**, before and after. -/
theorem Appends.current {items : List CompiledAppend} {events : List ControlRecordEvent}
    (h : Appends w items events w') (hsome : items ≠ []) (hjournal : JournalSound w.db)
    (hcached : Cached w.db w.replay) : Current w.db w.replay ∧ Current w'.db w'.replay := by
  cases h with
  | nil => exact absurd rfl hsome
  | cons hitem hrest =>
    obtain ⟨hnext, hnames⟩ := hitem.sound hjournal hcached
    obtain ⟨r, hcurrent, -⟩ := hjournal
    have hsame := current_of_append hcurrent hcached hitem.sequence hitem.replayed
    exact ⟨hsame ▸ hcurrent, hrest.keeps_current ⟨_, hnext, hnames⟩ hnext⟩

/-- **What a call that appends leaves of the replay of its handle**: what it
was, where the batch was retained; the replay of the journal, before and
after, where the batch was appended. -/
inductive ReplayOutcome (appends : List ControlRecordStoreAppend) (db db' : ControlDatabase)
    (handle handle' : Option StoreHandle) : Prop
  | retained : db' = db → handle' = handle → (∀ input ∈ appends, Retained db input) →
      ReplayOutcome appends db db' handle handle'
  | appended (events : List ControlRecordEvent) : events ≠ [] →
      db'.events = db.events ++ events → (∀ h ∈ handle, Current db h.replay) →
      (∀ h ∈ handle', Current db' h.replay) → ReplayOutcome appends db db' handle handle'

/-- What a batch has made of the replays at hand. -/
inductive BatchReplays (appends : List ControlRecordStoreAppend) (w w' : StoreWork) : Prop
  | retained : w'.db = w.db → w'.handle = w.handle → w'.disposition ≠ .appended →
      (∀ input ∈ appends, Retained w.db input) → BatchReplays appends w w'
  | appended (events : List ControlRecordEvent) : events ≠ [] →
      w'.db.events = w.db.events ++ events → w'.handle = w.handle →
      w'.disposition = .appended → Current w.db w.replay → Current w'.db w'.replay →
      BatchReplays appends w w'

theorem BatchOutcome.replays {inputs : List ControlRecordStoreAppend}
    (h : BatchOutcome inputs w w') (hs : Sound w) : BatchReplays inputs w w' := by
  cases h with
  | retained hdb hhandle _ hdisposition hretained =>
    refine .retained hdb hhandle ?_ hretained
    rw [hdisposition]
    exact nofun
  | appended w₀ items events hcompiled _ hdb hreplay hhandle hdisposition happends =>
    obtain ⟨hsome, hitems⟩ := compileAppends_items hcompiled
    have hcached : Cached w₀.db w₀.replay := by
      rw [hdb, hreplay]
      exact hs.replay
    have hitemsSome : items ≠ [] := by
      rintro rfl
      exact hsome (List.forall₂_nil_right_iff.mp hitems)
    obtain ⟨hbefore, hafter⟩ := happends.current hitemsSome (hdb ▸ hs.journal) hcached
    rw [hdb, hreplay] at hbefore
    refine .appended events ?_ ?_ ?_ ?_ hbefore hafter
    · rintro rfl
      cases happends
      exact hitemsSome rfl
    · rw [happends.events_eq, hdb]
    · rw [happends.handle_eq, hhandle]
    · rw [happends.disposition_eq, hdisposition]

/-- The replay a handle keeps of the batch it has committed. -/
theorem BatchReplays.kept {appends : List ControlRecordStoreAppend} {w₁ : StoreWork}
    (h : BatchReplays appends w w₁) (hkeeps : KeepsControl w₁.db w'.db)
    (hrest : w' = { w₁ with db := w'.db }) (hretained : w₁.disposition ≠ .appended → w'.db = w₁.db)
    (hentered : ∀ handle ∈ w.handle, w.replay = handle.replay) :
    ReplayOutcome appends w.db (keepReplay w').db w.handle (keepReplay w').handle := by
  rw [keepReplay_db]
  cases h with
  | retained hdb hhandle hdisposition hall =>
    have hkept : keepReplay w' = w' := by
      refine if_neg ?_
      rw [hrest]
      exact hdisposition
    rw [hkept]
    refine .retained ?_ ?_ hall
    · rw [hretained hdisposition, hdb]
    · rw [hrest]
      exact hhandle
  | appended events hsome hevents hhandle hdisposition hbefore hafter =>
    have hkept : (keepReplay w').handle
        = w'.handle.map fun h => { h with replay := w'.replay } := by
      have happended : w'.disposition = .appended := by
        rw [hrest]
        exact hdisposition
      rw [keepReplay, if_pos happended]
    have hcurrent : Current w'.db w'.replay := by
      have hnext := hafter.congr hkeeps.events hkeeps.grows
      rw [hrest]
      exact hnext
    refine .appended events hsome ?_ (fun handle hmem => ?_) fun handle hmem => ?_
    · rw [hkeeps.events, hevents]
    · rw [← hentered handle hmem]
      exact hbefore
    · rw [hkept] at hmem
      obtain ⟨before, -, rfl⟩ := Option.map_eq_some_iff.mp hmem
      exact hcurrent

/-! ## Calls -/

/-- The appends of a call that appends. -/
def StoreCall.appends : StoreCall → Option (List ControlRecordStoreAppend)
  | .appendBatch inputs => some inputs
  | .appendFileBatch _ inputs => some inputs
  | .commitOperationBatch _ appends => some appends
  | .commitFileBatch _ _ appends => some appends
  | _ => none

/-- Whether a call requests a stop. -/
def StoreCall.requestsStop : StoreCall → Prop
  | .requestWorkDelegationStop .. => True
  | _ => False

theorem OperationOutcome.replays {mutations : List ControlRecordOperationSupportMutation}
    {appends : List ControlRecordStoreAppend} (h : OperationOutcome mutations appends w w')
    (hs : Sound w) (hentered : ∀ handle ∈ w.handle, w.replay = handle.replay) :
    ReplayOutcome appends w.db w'.db w.handle w'.handle := by
  obtain ⟨_, w₁, w₂, -, -, hbatch, hmutations, rfl⟩ := h
  obtain ⟨hwrites, heq⟩ := resolveMutations_writes hmutations
  refine (hbatch.replays hs).kept hwrites.support_keeps heq (fun hdisposition => ?_) hentered
  rw [resolveMutations_unchanged hdisposition hmutations]

/-- **What a call does to the replay of its handle.** -/
theorem CallOutcome.replays {call : StoreCall} (h : CallOutcome w w' call) (hs : Sound w)
    (hentered : ∀ handle ∈ w.handle, w.replay = handle.replay) :
    (∀ appends ∈ call.appends, ReplayOutcome appends w.db w'.db w.handle w'.handle)
      ∧ (call.requestsStop → ∀ handle ∈ w'.handle, Current w'.db handle.replay)
      ∧ (call.appends = none → ¬ call.requestsStop → w'.handle = w.handle) := by
  cases h with
  | @appendBatch inputs w₁ hbatch heq | @appendFileBatch _ inputs w₁ hbatch heq =>
    refine ⟨fun appends hmem => ?_, nofun, nofun⟩
    obtain rfl := Option.some.inj hmem
    subst heq
    exact (hbatch.replays hs).kept ⟨.refl, rfl, rfl⟩ rfl (fun _ => rfl) hentered
  | commitOperationBatch hoperation | commitFileBatch hoperation =>
    refine ⟨fun appends hmem => ?_, nofun, nofun⟩
    obtain rfl := Option.some.inj hmem
    exact hoperation.replays hs hentered
  | putOperationSupport hmutation | deleteOperationSupport hmutation =>
    refine ⟨nofun, nofun, fun _ _ => ?_⟩
    rw [hmutation.2.2]
  | requestWorkDelegationStop hstop =>
    refine ⟨nofun, fun _ handle hmem => ?_, fun _ hnot => absurd trivial hnot⟩
    rw [hstop.handle] at hmem
    obtain ⟨before, -, rfl⟩ := Option.map_eq_some_iff.mp hmem
    refine hstop.current.congr ?_ hstop.writes.grows
    rcases hstop.tables with hsame | ⟨_, hexecute, -⟩
    · rw [hsame]
    · generalize w'.db = db' at hexecute
      cases execute_executed hexecute
      rfl
  | beginPendingFileBatch htables | recordPendingFileDescriptors htables
  | cleanPendingFileBatch htables =>
    refine ⟨nofun, nofun, fun _ _ => ?_⟩
    rw [htables.2]
  | sealStore _ heq =>
    refine ⟨nofun, nofun, fun _ _ => ?_⟩
    rw [heq]

/-! ## Reachable stores -/

section Reachable

variable {κ : Type} [DecidableEq κ] {identity : ControlRecordStoreIdentity}
  {s t : ClientState κ StoreCall ControlDatabase (Option StoreHandle) StoreWork StoreFailure}

/-- A step that is neither a commit nor a renewal leaves every handle. -/
theorem memory_of_step {l : ClientStep κ StoreCall}
    (h : (storeSystem profiles κ identity).step s l t) (hcommit : ∀ k call, l ≠ .commit k call)
    (hrenew : ∀ k, l ≠ .renew k) : t.memory = s.memory := by
  cases l with
  | check k call =>
    obtain ⟨⟨-, hcommitted⟩, -⟩ := h
    rw [hcommitted]
  | start k call => rw [h.2.2.1]
  | advance =>
    obtain ⟨_, _, _, _, -, -, -, hcommitted, -⟩ := h
    rw [hcommitted]
  | commit k call => exact absurd rfl (hcommit k call)
  | abort => rw [h.2.1]
  | renew k => exact absurd rfl (hrenew k)

/-- **The replays of the handles follow the journal.** Every handle keeps the
replay of a beginning of the journal. A call that fails leaves it. A commit
of an append keeps it, where the batch was retained; otherwise the handle
had the replay of the journal and has it again, as it has after every stop
request. The other handles keep theirs. -/
theorem cachedReplays (h : (storeSystem profiles κ identity).Reachable s) :
    (∀ k, ∀ handle ∈ s.memory k, Cached s.shared handle.replay)
    ∧ (∀ l t, (storeSystem profiles κ identity).step s l t →
      (∀ k call, l ≠ .commit k call) → (∀ k, l ≠ .renew k) → t.memory = s.memory)
    ∧ ∀ k call t, (storeSystem profiles κ identity).step s (.commit k call) t →
      (∀ appends ∈ call.appends,
        ReplayOutcome appends s.shared t.shared (s.memory k) (t.memory k))
      ∧ (call.requestsStop → ∀ handle ∈ t.memory k, Current t.shared handle.replay)
      ∧ (call.appends = none → ¬ call.requestsStop → t.memory k = s.memory k)
      ∧ ∀ j, j ≠ k → t.memory j = s.memory j := by
  have hinvariant := storeInvariant h
  refine ⟨hinvariant.cached, fun l t hstep => memory_of_step hstep, fun k call t hstep => ?_⟩
  obtain ⟨w, w', hdb, hhandle, hreplay, houtcome, hshared, hmemory⟩ :=
    call_outcome (commit_atomic (Follows.of_reachable h) hstep)
  have hentered : ∀ handle ∈ w.handle, w.replay = handle.replay := by
    intro handle hmem
    rw [hhandle, Option.mem_def] at hmem
    rw [hreplay, hmem]
    rfl
  obtain ⟨happends, hstop, hothers⟩ :=
    houtcome.replays (hinvariant.enter hdb hhandle hreplay) hentered
  have hk : t.memory k = w'.handle := by
    rw [hmemory, Function.update_self]
  rw [hk, hshared, ← hdb, ← hhandle]
  exact ⟨happends, hstop, hothers, fun j hj => by rw [hmemory, Function.update_of_ne hj]⟩

/-- **A handle catches up.** Whatever happens between two states of a run, the
tables of control only grow, and the replay a handle kept at the first state,
reduced by the events behind it alone, is the replay of the journal at the
second. -/
theorem handle_catchesUp {labels : List (ClientStep κ StoreCall)}
    (h : (storeSystem profiles κ identity).Reachable s)
    (hrun : (storeSystem profiles κ identity).Run s labels t) :
    Grows s.shared t.shared ∧ ∀ k, ∀ handle ∈ s.memory k, ∃ before rest r,
      replayDeliveryEvents (resolver s.shared) before = .ok handle.replay
        ∧ before <+: s.shared.events ∧ t.shared.events = before ++ rest ∧ Current t.shared r
        ∧ Fallible.replay (append (resolver t.shared)) handle.replay rest = .ok r := by
  have hgrown : (storeSystem profiles κ identity).Reachable t ∧ Grows s.shared t.shared := by
    refine hrun.invariant (P := fun u => (storeSystem profiles κ identity).Reachable u
      ∧ Grows s.shared u.shared) ?_ ⟨h, .refl⟩
    rintro u l v ⟨hu, hgrows⟩ hstep
    refine ⟨hu.step hstep, hgrows.trans ?_⟩
    rcases atomic_of_step (Follows.of_reachable hu) hstep with ⟨k, call, rfl, hcall⟩ | ⟨-, hsame⟩
    · obtain ⟨w, w', hdb, -, -, houtcome, hshared, -⟩ := call_outcome hcall
      rw [hshared, ← hdb]
      exact houtcome.grows
    · rw [hsame]
      exact .refl
  refine ⟨hgrown.2, fun k handle hmem => ?_⟩
  obtain ⟨before, hbefore, hreplay⟩ := (storeInvariant h).cached k handle hmem
  obtain ⟨rest, hrest⟩ := hbefore.trans hgrown.2.events
  obtain ⟨r, hcurrent, -⟩ := (storeInvariant hgrown.1).journal
  refine ⟨before, rest, r, hreplay, hbefore, hrest.symm, hcurrent, ?_⟩
  -- What the handle read before, it would read again.
  have hagain := replayDeliveryEvents_within hgrown.2.knows _ hreplay
  rw [Current, ← hrest] at hcurrent
  obtain ⟨_, hkept, hreduced⟩ := replay_append_eq_ok.mp hcurrent
  obtain rfl := Except.ok.inj (hagain.symm.trans hkept)
  exact hreduced

end Reachable

namespace Sample

/-- The second handle of the sample store can catch up after its retry. -/
theorem handle_catchesUp_sample : ∃ (s t : ClientState Bool StoreCall ControlDatabase
      (Option StoreHandle) StoreWork StoreFailure) (labels : _),
    (storeSystem noProfiles Bool storeIdentity).Reachable s
      ∧ (storeSystem noProfiles Bool storeIdentity).Run s labels t
      ∧ t.shared.events = [creation] ∧ Grows s.shared t.shared := by
  obtain ⟨s, t, hs, hstep, hevents, -⟩ := @exists_retried noProfiles
  obtain ⟨u, hu, -, hcommit⟩ := exists_commit (reachable_of_atomic hs) hstep
  exact ⟨u, _, _, hu, .single hcommit, hevents, (handle_catchesUp hu (.single hcommit)).1⟩

/-- The committed sample store is such a state. -/
theorem cachedReplays_sample : ∃ s : ClientState Bool StoreCall ControlDatabase
      (Option StoreHandle) StoreWork StoreFailure,
    (storeSystem noProfiles Bool storeIdentity).Reachable s ∧ s.shared.events = [creation]
      ∧ ∀ k, ∀ handle ∈ s.memory k, Cached s.shared handle.replay := by
  obtain ⟨payloadJson, s, hs, hshared⟩ := exists_supported
  refine ⟨s, hs, ?_, (cachedReplays hs).1⟩
  rw [hshared]
  rfl

/-- **A retry leaves its handle behind**: the call commits, and the replay of
its handle is not that of the journal. -/
theorem retried_behind : ∃ s t : ClientState Bool StoreCall ControlDatabase
      (Option StoreHandle) StoreWork StoreFailure,
    (storeSystem noProfiles Bool storeIdentity).Reachable s
      ∧ (storeSystem noProfiles Bool storeIdentity).step s (.commit false firstBatch) t
      ∧ ∃ handle ∈ t.memory false, ¬ Current t.shared handle.replay := by
  obtain ⟨s, t, hs, hstep, hevents, hmemory⟩ := @exists_retried noProfiles
  obtain ⟨u, hu, -, hcommit⟩ := exists_commit (reachable_of_atomic hs) hstep
  refine ⟨u, _, hu, hcommit, freshHandle, hmemory, fun hcurrent => ?_⟩
  -- The journal has one event and the replay none.
  have hcount := lastSequence_of_replay hcurrent
  rw [show (ClientState.mk t none).shared.events = [creation] from hevents] at hcount
  cases hcount

end Sample
