import Lifecycle.StoreInvariants

/-!
# The custody of a stop request

A stop request is written by one handle, outside the journal, and settled by
an append of another. Until then it holds the store: whatever the handles
do, every event that would begin, grant or close comes behind the event that
settles the request, which is also the only way the request goes
(`StopHeld`, `stopCustody`).
-/

open Fallible ControlModel DeliveryReducer ControlStore Transactions

variable {profiles : String → Schema} {w w' : StoreWork} {request : WorkDelegationStopRequest}

/-! ## Events in a row -/

/-- **What the events of a batch do to the stop request**, one by one. -/
inductive StopRun : Option WorkDelegationStopRequest → List ControlRecordEvent →
    Option WorkDelegationStopRequest → Prop
  | nil {pending : Option WorkDelegationStopRequest} : StopRun pending [] pending
  | cons {before between after : Option WorkDelegationStopRequest} {event : ControlRecordEvent}
      {events : List ControlRecordEvent} : StopStep before event between →
      StopRun between events after → StopRun before (event :: events) after

theorem Appends.stopRun {items : List CompiledAppend} {events : List ControlRecordEvent}
    (h : Appends w items events w') : StopRun w.db.stopRequest events w'.db.stopRequest := by
  induction h with
  | nil => exact .nil
  | cons hitem _ ih => exact .cons hitem.stop ih

/-- An event that settles a request is none a request forbids. -/
theorem Settles.not_stopForbids {event : ControlRecordEvent} (h : Settles request event) :
    ¬ stopForbids event.eventKind := by
  rw [h.1, stopForbids]
  decide

namespace StopRun

variable {after : Option WorkDelegationStopRequest} {events : List ControlRecordEvent}

/-- **What a pending request forbids comes behind its settlement.** -/
theorem settled_before (h : StopRun (some request) events after)
    {earlier later : List ControlRecordEvent} {event : ControlRecordEvent}
    (hevents : events = earlier ++ event :: later) (hforbidden : stopForbids event.eventKind) :
    ∃ settlement ∈ earlier, Settles request settlement := by
  generalize hpending : some request = pending at h
  induction h generalizing earlier with
  | nil => exact absurd hevents (by simp)
  | cons hstep _ ih =>
    subst hpending
    cases earlier with
    | nil =>
      -- The forbidden event is the first: it neither settles nor is admitted.
      obtain ⟨rfl, -⟩ := List.cons.inj hevents
      cases hstep with
      | settled hsettles => exact absurd hforbidden hsettles.not_stopForbids
      | kept _ hadmits => exact absurd hforbidden (hadmits (Option.some_ne_none _))
    | cons first earlier =>
      obtain ⟨rfl, hrest⟩ := List.cons.inj hevents
      cases hstep with
      | settled hsettles => exact ⟨_, List.mem_cons_self, hsettles⟩
      | kept =>
        obtain ⟨settlement, hmem, hsettles⟩ := ih hrest rfl
        exact ⟨settlement, List.mem_cons_of_mem _ hmem, hsettles⟩

/-- **A request goes with its settlement.** -/
theorem settled_of_removed (h : StopRun (some request) events after)
    (hremoved : after ≠ some request) : ∃ settlement ∈ events, Settles request settlement := by
  generalize hpending : some request = pending at h
  induction h with
  | nil => exact absurd hpending.symm hremoved
  | cons hstep _ ih =>
    subst hpending
    cases hstep with
    | settled hsettles => exact ⟨_, List.mem_cons_self, hsettles⟩
    | kept =>
      obtain ⟨settlement, hmem, hsettles⟩ := ih hremoved rfl
      exact ⟨settlement, List.mem_cons_of_mem _ hmem, hsettles⟩

end StopRun

/-! ## Calls -/

/-- **A pending request, across a change of the tables**: the events it
forbids come behind its settlement, it goes only with its settlement, and
the store stays unsealed. -/
structure StopHeld (request : WorkDelegationStopRequest) (db db' : ControlDatabase)
    (events : List ControlRecordEvent) : Prop where
  appended : db'.events = db.events ++ events
  forbidden : ∀ earlier event later, events = earlier ++ event :: later →
    stopForbids event.eventKind → ∃ settlement ∈ earlier, Settles request settlement
  removed : db'.stopRequest ≠ some request → ∃ settlement ∈ events, Settles request settlement
  unsealed : db'.storeSeal = none

theorem StopHeld.of_stopRun {db db' : ControlDatabase} {events : List ControlRecordEvent}
    (hevents : db'.events = db.events ++ events)
    (hrun : StopRun (some request) events db'.stopRequest) (hseal : db'.storeSeal = none) :
    StopHeld request db db' events where
  appended := hevents
  forbidden _ _ _ := hrun.settled_before
  removed := hrun.settled_of_removed
  unsealed := hseal

/-- Where the tables of control are kept, so is the request. -/
theorem KeepsControl.holds {db db' : ControlDatabase} (h : KeepsControl db db')
    (hpending : db.stopRequest = some request) (hseal : db'.storeSeal = none) :
    StopHeld request db db' [] := by
  refine .of_stopRun ?_ ?_ hseal
  · rw [h.events, List.append_nil]
  · rw [h.stopRequest, hpending]
    exact .nil

theorem BatchOutcome.holds {inputs : List ControlRecordStoreAppend}
    (h : BatchOutcome inputs w w') (hpending : w.db.stopRequest = some request)
    (hseal : w.db.storeSeal = none) : ∃ events, StopHeld request w.db w'.db events := by
  have hseal' : w'.db.storeSeal = none := by
    rw [h.writes.storeSeal fun _ => ControlStatement.Journal.ordinary, hseal]
  cases h with
  | retained hdb =>
    refine ⟨[], KeepsControl.holds ?_ hpending hseal'⟩
    rw [hdb]
    exact ⟨.refl, rfl, rfl⟩
  | appended w₁ items events _ _ hdb _ _ _ happends =>
    refine ⟨events, .of_stopRun ?_ ?_ hseal'⟩
    · rw [happends.events_eq, hdb]
    · have hrun := happends.stopRun
      rwa [hdb, hpending] at hrun

/-- What follows a batch on other tables leaves a request as the batch did. -/
theorem StopHeld.trans_keeps {db db₁ db' : ControlDatabase} {events : List ControlRecordEvent}
    (h : StopHeld request db db₁ events) (hkeeps : KeepsControl db₁ db')
    (hseal : db'.storeSeal = db₁.storeSeal) : StopHeld request db db' events where
  appended := by rw [hkeeps.events, h.appended]
  forbidden := h.forbidden
  removed := by
    rw [hkeeps.stopRequest]
    exact h.removed
  unsealed := by rw [hseal, h.unsealed]

theorem OperationOutcome.holds {mutations : List ControlRecordOperationSupportMutation}
    {appends : List ControlRecordStoreAppend} (h : OperationOutcome mutations appends w w')
    (hpending : w.db.stopRequest = some request) : ∃ events, StopHeld request w.db w'.db events := by
  obtain ⟨_, w₁, w₂, -, hopen, hbatch, hmutations, rfl⟩ := h
  obtain ⟨events, hholds⟩ := hbatch.holds hpending hopen
  obtain ⟨hwrites, -⟩ := resolveMutations_writes hmutations
  rw [keepReplay_db]
  exact ⟨events, hholds.trans_keeps hwrites.support_keeps
    (hwrites.storeSeal fun _ => ControlStatement.Support.ordinary)⟩

/-- **Every call leaves a pending request in custody.** -/
theorem CallOutcome.holds {call : StoreCall} (h : CallOutcome w w' call)
    (hpending : w.db.stopRequest = some request) (hseal : w.db.storeSeal = none) :
    ∃ events, StopHeld request w.db w'.db events := by
  cases h with
  | appendBatch hbatch heq | appendFileBatch hbatch heq =>
    rw [heq, keepReplay_db]
    exact hbatch.holds hpending hseal
  | commitOperationBatch hoperation | commitFileBatch hoperation => exact hoperation.holds hpending
  | putOperationSupport hmutation | deleteOperationSupport hmutation =>
    obtain ⟨-, ⟨_, -, hmutate⟩, -⟩ := hmutation
    have hwrites := mutateSupport_writes hmutate
    refine ⟨[], hwrites.support_keeps.holds hpending ?_⟩
    rw [hwrites.storeSeal fun _ => ControlStatement.Support.ordinary, hseal]
  | requestWorkDelegationStop hstop =>
    rcases hstop.tables with hsame | ⟨_, hexecute, -⟩
    · rw [hsame]
      exact ⟨[], KeepsControl.holds ⟨.refl, rfl, rfl⟩ hpending hseal⟩
    · -- The one request there may be is retained already.
      generalize w'.db = db' at hexecute
      cases execute_executed hexecute with
      | stopRequested _ hnone => exact absurd (hpending.symm.trans hnone) (Option.some_ne_none _)
  | beginPendingFileBatch htables | recordPendingFileDescriptors htables
  | cleanPendingFileBatch htables =>
    refine ⟨[], htables.1.custody_keeps.holds hpending ?_⟩
    rw [htables.1.storeSeal fun _ => ControlStatement.Custody.ordinary, hseal]
  | sealStore hstore =>
    obtain ⟨_, -, -, houtcome⟩ := sealStore_outcome hstore
    exact absurd (hpending.symm.trans houtcome.stopRequest) (Option.some_ne_none _)

/-! ## Reachable stores -/

section Reachable

variable {κ : Type} [DecidableEq κ] {identity : ControlRecordStoreIdentity}
  {s : ClientState κ StoreCall ControlDatabase (Option StoreHandle) StoreWork StoreFailure}

end Reachable
