import Lifecycle.DelegationAccounting
import Lifecycle.StoreBatches

/-!
# The journal of a store and the replays of its handles

What every committed state of a store satisfies, whatever its handles do and
wherever their transactions fail: the journal replays, and a pending stop
request names the delegation the replay holds and has not stopped
(`JournalSound`); every handle keeps the replay of a beginning of the
journal (`Cached`); and a sealed store is settled.

A handle may fall behind. It never appends behind the journal: the event it
compiles follows the head of the journal, and its replay refuses every event
but the one after its own last (`current_of_append`).
-/

open Fallible Json ControlModel DeliveryReducer ControlStore Transactions TransactionBody

variable {profiles : String → Schema} {db db' : ControlDatabase} {r : Replay}

/-! ## Replays of the journal -/

/-- **A replay of the whole journal.** -/
def Current (db : ControlDatabase) (r : Replay) : Prop :=
  replayDeliveryEvents (resolver db) db.events = .ok r

/-- **A replay of a beginning of the journal.** -/
def Cached (db : ControlDatabase) (r : Replay) : Prop :=
  ∃ events, events <+: db.events ∧ replayDeliveryEvents (resolver db) events = .ok r

/-- The delegation of a stop request is the one a replay holds, not
stopped. -/
def Names (r : Replay) (request : WorkDelegationStopRequest) : Prop :=
  ∃ d ∈ r.delegation, d.reference = delegationReference request.delegation ∧ d.stopped = false

/-- **The journal replays, and a pending stop names what it stops.** -/
def JournalSound (db : ControlDatabase) : Prop :=
  ∃ r, Current db r ∧ ∀ request ∈ db.stopRequest, Names r request

theorem Current.cached (h : Current db r) : Cached db r :=
  ⟨db.events, List.prefix_rfl, h⟩

/-- A replay stays that of a beginning of the journal. -/
theorem Cached.grow (h : Cached db r) (hgrows : Grows db db') : Cached db' r := by
  obtain ⟨events, hevents, hreplay⟩ := h
  exact ⟨events, hevents.trans hgrows.events,
    replayDeliveryEvents_within hgrows.knows _ hreplay⟩

/-- The tables the journal is replayed from. -/
theorem Current.congr (h : Current db r) (hevents : db'.events = db.events)
    (hgrows : Grows db db') : Current db' r := by
  unfold Current
  rw [hevents]
  exact replayDeliveryEvents_within hgrows.knows _ h

/-- The events of a journal are numbered from one. -/
theorem lastSequence_of_replay {resolve : DeliveryRecordRevisionResolver}
    {events : List ControlRecordEvent} (h : replayDeliveryEvents resolve events = .ok r) :
    lastSequence r = events.length := by
  induction events using List.reverseRecOn generalizing r with
  | nil =>
    obtain rfl : freshReplay = r := by simpa [replayDeliveryEvents] using h
    rfl
  | append_singleton events event ih =>
    obtain ⟨s, hs, hstep⟩ := replay_snoc_eq_ok.mp h
    obtain ⟨_, _, _, hverified, _, _, _, _, rfl⟩ := append_eq_ok.mp hstep
    obtain ⟨-, hsequence, -⟩ := verifyEnvelope_eq_ok hverified
    rw [List.length_append, List.length_singleton, ← ih hs]
    exact hsequence

theorem Current.lastSequence (h : Current db r) : db.lastSequence = db.events.length := by
  rw [← lastSequence_of_replay h, ControlDatabase.lastSequence, headRow, ← lastEvent_of_replay h]
  rfl

/-- **A handle that appends is up to date**: where its replay admits the
event behind the head of the journal, it is the replay of the journal. -/
theorem current_of_append {resolve : DeliveryRecordRevisionResolver} {event : ControlRecordEvent}
    {s next : Replay} (hjournal : Current db r) (hcached : Cached db s)
    (hsequence : event.sequence = db.lastSequence + 1)
    (happend : append resolve s event = .ok next) : s = r := by
  obtain ⟨events, hbegin, hs⟩ := hcached
  obtain ⟨_, _, _, hverified, _, _, _, _, -⟩ := append_eq_ok.mp happend
  obtain ⟨-, hnext, -⟩ := verifyEnvelope_eq_ok hverified
  have hlength : events.length = db.events.length := by
    have hs' := lastSequence_of_replay hs
    rw [lastSequence] at hs'
    rw [hs', hsequence, hjournal.lastSequence] at hnext
    exact (Nat.succ_inj.mp hnext).symm
  rw [hbegin.eq_of_length hlength] at hs
  exact Except.ok.inj (hs.symm.trans hjournal)

/-- **Only a grant and a stop change the delegation.** -/
theorem delegation_of_append {resolve : DeliveryRecordRevisionResolver}
    {event : ControlRecordEvent} {next : Replay}
    (hr : (deliverySystem resolve).Reachable r) (h : append resolve r event = .ok next) :
    next.delegation = r.delegation ∨ event.eventKind = "work-delegation-set"
      ∨ event.eventKind = "work-delegation-stopped" := by
  obtain ⟨k, hk, hstep⟩ := accountStep_of_append (Structural.of_reachable hr) h
  have hkind := DeliveryEvents.parseKind_eq_some hk
  cases hstep with
  | kept _ hsame => exact .inl hsame.delegation
  | granted => exact .inr (.inl hkind.symm)
  | stopped => exact .inr (.inr hkind.symm)
  | opened _ hsame => exact .inl hsame

/-! ## Batches -/

variable {w w' : StoreWork}

/-- **An appended item keeps the journal sound**, and its replay is then
that of the journal. -/
theorem AppendsItem.sound {item : CompiledAppend} {event : ControlRecordEvent}
    (h : AppendsItem w item event w') (hjournal : JournalSound w.db)
    (hcached : Cached w.db w.replay) :
    Current w'.db w'.replay ∧ ∀ request ∈ w'.db.stopRequest, Names w'.replay request := by
  obtain ⟨r, hcurrent, hnames⟩ := hjournal
  have hreplay : w.replay = r :=
    current_of_append hcurrent hcached h.sequence h.replayed
  have hgrown : replayDeliveryEvents (resolver w'.db) w.db.events = .ok r :=
    replayDeliveryEvents_within h.writes.grows.knows _ hcurrent
  have happend := h.replayed
  rw [hreplay] at happend
  have hnext : Current w'.db w'.replay := by
    unfold Current
    rw [h.events]
    exact replay_snoc_eq_ok.mpr ⟨r, hgrown, happend⟩
  refine ⟨hnext, fun request hrequest => ?_⟩
  -- A request is pending after the item only when it was before, and the
  -- event is then neither a grant nor a stop.
  have hstop := h.stop
  generalize hbefore : w.db.stopRequest = before at hstop hnames
  generalize w'.db.stopRequest = after at hstop hrequest
  cases hstop with
  | settled => cases hrequest
  | kept hstopped hforbids =>
    obtain ⟨d, hd, hreference, hunstopped⟩ := hnames request hrequest
    have hpending : before ≠ none := by
      rw [hrequest]
      exact Option.some_ne_none _
    have hsame : w'.replay.delegation = r.delegation := by
      rcases delegation_of_append (reachable_of_replay hgrown) happend with hsame | hset | hstop
      · exact hsame
      · exact absurd (.inr (.inl hset)) (hforbids hpending)
      · exact absurd hstop hstopped
    exact ⟨d, hsame ▸ hd, hreference, hunstopped⟩

/-- **A batch keeps the journal sound.** -/
theorem Appends.sound {items : List CompiledAppend} {events : List ControlRecordEvent}
    (h : Appends w items events w') (hjournal : JournalSound w.db)
    (hcached : Cached w.db w.replay) :
    JournalSound w'.db ∧ Cached w'.db w'.replay := by
  induction h with
  | nil => exact ⟨hjournal, hcached⟩
  | cons hitem _ ih =>
    obtain ⟨hcurrent, hnames⟩ := hitem.sound hjournal hcached
    exact ih ⟨_, hcurrent, hnames⟩ hcurrent.cached

/-! ## Transactions -/

/-- The tables of control are as they were. -/
structure KeepsControl (db db' : ControlDatabase) : Prop where
  grows : Grows db db'
  events : db'.events = db.events
  stopRequest : db'.stopRequest = db.stopRequest

theorem KeepsControl.sound (h : KeepsControl db db') (hjournal : JournalSound db) :
    JournalSound db' := by
  obtain ⟨r, hcurrent, hnames⟩ := hjournal
  refine ⟨r, hcurrent.congr h.events h.grows, fun request hrequest => hnames request ?_⟩
  rwa [← h.stopRequest]

theorem Writes.support_keeps (h : Writes ControlStatement.Support db db') :
    KeepsControl db db' := by
  obtain ⟨_, heq⟩ := h.support_frame
  refine ⟨h.grows, ?_, ?_⟩ <;> rw [heq]

theorem Writes.custody_keeps (h : Writes ControlStatement.Custody db db') :
    KeepsControl db db' := by
  obtain ⟨_, _, heq⟩ := h.custody_frame
  refine ⟨h.grows, ?_, ?_⟩ <;> rw [heq]

theorem getRetainedOperationSupport_eq_ok {activityId : String}
    {row : Option RetainedOperationSupport}
    (h : getRetainedOperationSupport db activityId = .ok row) :
    db.support.get activityId = row := by
  simp only [getRetainedOperationSupport, bind_eq_ok, failIf_eq_ok, exists_unit, pure_eq_ok,
    controlIdentifier_eq_ok] at h
  obtain ⟨_, ⟨_, rfl⟩, -, rfl⟩ := h
  rfl

theorem mutateSupport_writes {prepared : PreparedOperationSupportMutation}
    (h : mutateSupport db prepared = .ok db') : Writes ControlStatement.Support db db' := by
  cases prepared with
  | put value =>
    simp only [mutateSupport, putOperationSupportInTransaction, bind_eq_ok, failIf_eq_ok,
      exists_unit, pure_eq_ok] at h
    obtain ⟨current, -, next, hwrite, _, -, -, rfl⟩ := h
    unfold writeSupport at hwrite
    split at hwrite
    · simp only [createSupport, bind_eq_ok, failIf_eq_ok, exists_unit] at hwrite
      obtain ⟨-, -, -, hexecute⟩ := hwrite
      exact .single (s := .insertSupport _) trivial hexecute
    · simp only [advanceSupport, bind_eq_ok, failIf_eq_ok, exists_unit, pure_eq_ok] at hwrite
      obtain ⟨-, _, hexecute, -, rfl⟩ := hwrite
      exact .single (s := .updateSupport ..) trivial hexecute
  | delete value =>
    simp only [mutateSupport, deleteOperationSupportInTransaction, bind_eq_ok, failIf_eq_ok,
      orFail_eq_ok, exists_unit, pure_eq_ok] at h
    obtain ⟨_, -, _, -, -, _, hexecute, -, _, -, -, rfl⟩ := h
    exact .single (s := .updateSupport ..) trivial hexecute

theorem resolveMutation_writes {mutation : ControlRecordOperationSupportMutation}
    (h : resolveMutation mutation w = .ok w') :
    Writes ControlStatement.Support w.db w'.db ∧ w' = { w with db := w'.db } := by
  simp only [resolveMutation, bind_eq_ok, lifted_eq_ok] at h
  obtain ⟨prepared, -, holds, -, h⟩ := h
  split at h
  · simp only [bind_eq_ok, failIf_eq_ok, exists_unit, pure_eq_ok] at h
    obtain ⟨-, next, hmutate, rfl⟩ := h
    exact ⟨mutateSupport_writes hmutate, rfl⟩
  · simp only [bind_eq_ok, failIf_eq_ok, exists_unit, pure_eq_ok] at h
    obtain ⟨-, rfl⟩ := h
    exact ⟨.refl, rfl⟩

/-- The mutations of a batch work on operation support alone. -/
theorem resolveMutations_writes {mutations : List ControlRecordOperationSupportMutation}
    (h : runStatements w (mutations.map resolveMutation) = .ok w') :
    Writes ControlStatement.Support w.db w'.db ∧ w' = { w with db := w'.db } := by
  induction mutations generalizing w with
  | nil =>
    obtain rfl := Except.ok.inj h
    exact ⟨.refl, rfl⟩
  | cons mutation mutations ih =>
    obtain ⟨w₁, hfirst, hrest⟩ := bind_eq_ok.mp h
    obtain ⟨hwrites₁, heq₁⟩ := resolveMutation_writes hfirst
    obtain ⟨hwrites, heq⟩ := ih hrest
    refine ⟨hwrites₁.trans hwrites, ?_⟩
    rw [heq, heq₁]

/-- The mutations of a retained batch change nothing. -/
theorem resolveMutations_unchanged {mutations : List ControlRecordOperationSupportMutation}
    (hretained : w.disposition ≠ .appended)
    (h : runStatements w (mutations.map resolveMutation) = .ok w') : w' = w := by
  induction mutations generalizing w with
  | nil => exact (Except.ok.inj h).symm
  | cons mutation mutations ih =>
    obtain ⟨w₁, hfirst, hrest⟩ := bind_eq_ok.mp h
    simp only [resolveMutation, bind_eq_ok, lifted_eq_ok, if_neg hretained, failIf_eq_ok,
      exists_unit, pure_eq_ok] at hfirst
    obtain ⟨_, -, _, -, -, rfl⟩ := hfirst
    exact ih hretained hrest

/-- The transaction of an append batch. -/
theorem appendBatch_run {inputs : List ControlRecordStoreAppend}
    {expected : Option PendingFileBatch}
    (h : runStatements w (appendBatchStatements profiles inputs expected) = .ok w') :
    ∃ w₁, BatchOutcome inputs w w₁ ∧ w' = keepReplay w₁ := by
  rw [appendBatchStatements, List.cons_append] at h
  obtain ⟨w₀, hguard, h⟩ := bind_eq_ok.mp h
  obtain ⟨w₁, hbatch, hlast⟩ := replay_append_eq_ok.mp h
  simp only [guarded, bind_eq_ok, exists_unit, pure_eq_ok] at hguard
  obtain ⟨-, rfl⟩ := hguard
  exact ⟨w₁, batchOutcome hbatch, (Except.ok.inj hlast).symm⟩

/-- The transaction of an operation batch. -/
theorem operationBatch_run {readOnly closed : String}
    {mutations : List ControlRecordOperationSupportMutation}
    {appends : List ControlRecordStoreAppend} {expected : Option PendingFileBatch}
    (h : runStatements w (operationBatchStatements profiles readOnly closed mutations appends
      expected) = .ok w') :
    ∃ prepared w₁ w₂, prepareMutations w.db.identity mutations = .ok prepared
      ∧ w.db.storeSeal = none ∧ BatchOutcome appends w w₁
      ∧ runStatements w₁ (mutations.map resolveMutation) = .ok w₂ ∧ w' = keepReplay w₂ := by
  rw [operationBatchStatements, List.cons_append] at h
  obtain ⟨w₀, hguard, h⟩ := bind_eq_ok.mp h
  obtain ⟨w₁, hbatch, h⟩ := replay_append_eq_ok.mp h
  obtain ⟨w₂, hmutations, hlast⟩ := replay_append_eq_ok.mp h
  simp only [guarded, openOperationBatch, assertUnsealed, bind_eq_ok, exists_unit, pure_eq_ok,
    failIf_eq_ok, lifted_eq_ok, isSome_ne_true] at hguard
  obtain ⟨⟨-, hopen, prepared, hprepared, -⟩, rfl⟩ := hguard
  exact ⟨prepared, w₁, w₂, hprepared, hopen, batchOutcome hbatch, hmutations,
    (Except.ok.inj hlast).symm⟩

/-! ## Stop requests -/

/-- What `#replaySemanticHistory` returns is the replay of the journal. -/
theorem replayHistory_eq {events : List ControlRecordEvent} {cursor : Nat}
    {predecessor : Option Sha256Digest} {s : Replay}
    (h : replayHistory db cursor predecessor s events = .ok r) :
    replay (append (resolver db)) s events = .ok r := by
  induction events generalizing cursor predecessor s with
  | nil => exact h
  | cons event events ih =>
    simp only [replayHistory, bind_eq_ok, failIf_eq_ok, exists_unit] at h
    obtain ⟨-, -, next, happend, hrest⟩ := h
    rw [replay_cons, happend]
    exact ih hrest

theorem replaySemanticHistory_current (h : replaySemanticHistory db = .ok r) : Current db r := by
  simp only [replaySemanticHistory, bind_eq_ok, failIf_eq_ok, exists_unit] at h
  obtain ⟨-, h⟩ := h
  exact replayHistory_eq h

/-- **The outcome of a stop request**: the handle keeps a new replay of the
journal, and the request is retained when none was and its delegation is the
current one, not stopped. -/
structure StopOutcome (w w' : StoreWork) (history : Replay) : Prop where
  current : Current w.db history
  handle : w'.handle = w.handle.map fun h => { h with replay := history }
  tables : w'.db = w.db ∨ ∃ request, execute w.db (.insertStopRequest request) = .ok w'.db
    ∧ Names history request
  /-- No batch was appended. -/
  disposition : w'.replay = w.replay

theorem requestWorkDelegationStop_outcome {delegation : WorkDelegationReference}
    {requestedBy requestedAt : String}
    (h : requestWorkDelegationStop delegation requestedBy requestedAt w = .ok w') :
    ∃ history, StopOutcome w w' history := by
  simp only [requestWorkDelegationStop, bind_eq_ok, failIf_eq_ok, orFail_eq_ok, exists_unit,
    lifted_eq_ok] at h
  obtain ⟨proposed, -, history, hhistory, current, hdelegation, revision, -, hsubject, h⟩ := h
  have hcurrent := replaySemanticHistory_current hhistory
  push Not at hsubject
  split at h
  · simp only [bind_eq_ok, exists_unit, pure_eq_ok] at h
    obtain ⟨_, -, -, rfl⟩ := h
    exact ⟨history, hcurrent, rfl, .inl rfl, rfl⟩
  · next hunstopped =>
    simp only [bind_eq_ok, exists_unit, pure_eq_ok] at h
    obtain ⟨db₁, hretain, -, rfl⟩ := h
    refine ⟨history, hcurrent, rfl, ?_, rfl⟩
    simp only [retainStop, bind_eq_ok, failIf_eq_ok, exists_unit, lifted_eq_ok] at hretain
    obtain ⟨-, pending, -, hretain⟩ := hretain
    split at hretain
    · simp only [bind_eq_ok, failIf_eq_ok, exists_unit, pure_eq_ok] at hretain
      exact .inl hretain.2.symm
    · simp only [bind_eq_ok, failIf_eq_ok, exists_unit] at hretain
      refine .inr ⟨proposed, hretain.2, current, hdelegation, hsubject.1, ?_⟩
      rwa [Bool.not_eq_true] at hunstopped

/-! ## File custody -/

theorem beginPendingFileBatch_writes {prepared : PreparedPendingFileBatch}
    (h : beginPendingFileBatch prepared db = .ok db') :
    Writes ControlStatement.Custody db db' := by
  simp only [beginPendingFileBatch, bind_eq_ok, failIf_eq_ok, exists_unit] at h
  obtain ⟨-, -, -, _, -, hexecute⟩ := h
  exact .single (s := .insertPending _) trivial hexecute

theorem recordDescriptor_writes {entry : PendingFileEntry}
    (h : recordDescriptor db entry = .ok db') : Writes ControlStatement.Custody db db' := by
  unfold recordDescriptor at h
  split at h
  · simp only [bind_eq_ok, failIf_eq_ok, exists_unit] at h
    exact .single (s := .insertFile _) trivial h.2
  · simp only [bind_eq_ok, failIf_eq_ok, exists_unit, pure_eq_ok] at h
    rw [h.2]
    exact .refl

theorem recordPendingFileDescriptors_writes {batch : PendingFileBatch}
    (h : recordPendingFileDescriptors batch db = .ok db') :
    Writes ControlStatement.Custody db db' := by
  obtain ⟨current, -, hreplay⟩ := bind_eq_ok.mp h
  exact replay_invariant (P := fun a => Writes ControlStatement.Custody db a)
    (fun _ _ _ ha hstep => ha.trans (recordDescriptor_writes hstep)) .refl hreplay

theorem removeDescriptor_writes {entry : PendingFileEntry}
    (h : removeDescriptor db entry = .ok db') : Writes ControlStatement.Custody db db' := by
  unfold removeDescriptor at h
  split at h
  · obtain rfl := Except.ok.inj h
    exact .refl
  · exact .single (s := .deleteFile _) trivial h

theorem cleanPendingFileBatch_writes {batch : PendingFileBatch} {removeNewCarriers : Bool}
    (h : cleanPendingFileBatch batch removeNewCarriers db = .ok db') :
    Writes ControlStatement.Custody db db' := by
  unfold cleanPendingFileBatch at h
  split at h
  · obtain rfl := Except.ok.inj h
    exact .refl
  · obtain ⟨current, -, h⟩ := bind_eq_ok.mp h
    obtain ⟨db₁, hfiles, hpending⟩ := bind_eq_ok.mp h
    refine Writes.trans ?_ (.single (s := .deletePending _) trivial hpending)
    unfold removeDescriptors at hfiles
    split at hfiles
    · exact replay_invariant (P := fun a => Writes ControlStatement.Custody db a)
        (fun _ _ _ ha hstep => ha.trans (removeDescriptor_writes hstep)) .refl hfiles
    · obtain rfl := Except.ok.inj hfiles
      exact .refl

/-! ## Calls -/

/-- What a call adds to the tables alone. -/
def OnTables (S : ControlStatement → Prop) (w w' : StoreWork) : Prop :=
  Writes S w.db w'.db ∧ w' = { w with db := w'.db }

/-- The outcome of an operation batch. -/
def OperationOutcome (mutations : List ControlRecordOperationSupportMutation)
    (appends : List ControlRecordStoreAppend) (w w' : StoreWork) : Prop :=
  ∃ prepared w₁ w₂, prepareMutations w.db.identity mutations = .ok prepared
    ∧ w.db.storeSeal = none ∧ BatchOutcome appends w w₁
    ∧ runStatements w₁ (mutations.map resolveMutation) = .ok w₂ ∧ w' = keepReplay w₂

/-- The outcome of a mutation of its own. -/
def MutationOutcome (mutation : ControlRecordOperationSupportMutation) (w w' : StoreWork) :
    Prop :=
  w.db.storeSeal = none ∧ (∃ prepared,
    prepareOperationSupportMutation w.db.identity mutation = .ok prepared
      ∧ mutateSupport w.db prepared = .ok w'.db) ∧ w' = { w with db := w'.db }

/-- **The outcome of a call.** -/
inductive CallOutcome (w w' : StoreWork) : StoreCall → Prop
  | appendBatch {inputs : List ControlRecordStoreAppend} {w₁ : StoreWork} :
      BatchOutcome inputs w w₁ → w' = keepReplay w₁ → CallOutcome w w' (.appendBatch inputs)
  | appendFileBatch {batch : PendingFileBatch} {inputs : List ControlRecordStoreAppend}
      {w₁ : StoreWork} : BatchOutcome inputs w w₁ → w' = keepReplay w₁ →
      CallOutcome w w' (.appendFileBatch batch inputs)
  | commitOperationBatch {mutations : List ControlRecordOperationSupportMutation}
      {appends : List ControlRecordStoreAppend} : OperationOutcome mutations appends w w' →
      CallOutcome w w' (.commitOperationBatch mutations appends)
  | commitFileBatch {batch : PendingFileBatch}
      {mutations : List ControlRecordOperationSupportMutation}
      {appends : List ControlRecordStoreAppend} : OperationOutcome mutations appends w w' →
      CallOutcome w w' (.commitFileBatch batch mutations appends)
  | putOperationSupport {input : ControlRecordOperationSupportPut} :
      MutationOutcome (.put input) w w' → CallOutcome w w' (.putOperationSupport input)
  | deleteOperationSupport {activityId : String}
      {expected : ControlRecordOperationSupportCoordinate} :
      MutationOutcome (.delete activityId expected) w w' →
      CallOutcome w w' (.deleteOperationSupport activityId expected)
  | requestWorkDelegationStop {delegation : WorkDelegationReference}
      {requestedBy requestedAt : String} {history : Replay} : StopOutcome w w' history →
      CallOutcome w w' (.requestWorkDelegationStop delegation requestedBy requestedAt)
  | beginPendingFileBatch {prepared : PreparedPendingFileBatch} :
      OnTables ControlStatement.Custody w w' → CallOutcome w w' (.beginPendingFileBatch prepared)
  | recordPendingFileDescriptors {batch : PendingFileBatch} :
      OnTables ControlStatement.Custody w w' →
      CallOutcome w w' (.recordPendingFileDescriptors batch)
  | cleanPendingFileBatch {batch : PendingFileBatch} {removeNewCarriers : Bool} :
      OnTables ControlStatement.Custody w w' →
      CallOutcome w w' (.cleanPendingFileBatch batch removeNewCarriers)
  | sealStore {closure : ControlRecordEventSubject} {sealedAt : String} :
      sealStore closure sealedAt w.db = .ok w'.db → w' = { w with db := w'.db } →
      CallOutcome w w' (.sealStore closure sealedAt)

theorem runStatements_singleton {statement : StoreStatement} :
    runStatements w [statement] = .ok w' ↔ statement w = .ok w' := by
  rw [runStatements, replay_cons]
  cases statement w with
  | ok a => rfl
  | error e => exact ⟨nofun, nofun⟩

theorem onTables_eq_ok {f : ControlDatabase → Except StoreFailure ControlDatabase}
    (h : onTables f w = .ok w') : f w.db = .ok w'.db ∧ w' = { w with db := w'.db } := by
  simp only [onTables, bind_eq_ok, pure_eq_ok] at h
  obtain ⟨a, ha, rfl⟩ := h
  exact ⟨ha, rfl⟩

/-- The transaction of one mutation on its own. -/
theorem mutation_run {readOnly closed : String} {mutation : ControlRecordOperationSupportMutation}
    (h : runStatements w [guarded (assertSupportOpen readOnly closed), mutateAlone mutation]
      = .ok w') : MutationOutcome mutation w w' := by
  obtain ⟨w₁, hguard, hmutate⟩ := bind_eq_ok.mp h
  simp only [guarded, assertSupportOpen, assertUnsealed, bind_eq_ok, exists_unit, pure_eq_ok,
    failIf_eq_ok, isSome_ne_true] at hguard
  obtain ⟨⟨-, hopen, -⟩, rfl⟩ := hguard
  obtain ⟨htables, heq⟩ := onTables_eq_ok (runStatements_singleton.mp hmutate)
  simp only [bind_eq_ok, lifted_eq_ok] at htables
  exact ⟨hopen, htables, heq⟩

/-- **Every call has its outcome.** -/
theorem callOutcome {call : StoreCall}
    (h : runStatements w (callStatements profiles call) = .ok w') : CallOutcome w w' call := by
  cases call with
  | appendBatch inputs =>
    obtain ⟨w₁, houtcome, heq⟩ := appendBatch_run h
    exact .appendBatch houtcome heq
  | appendFileBatch batch inputs =>
    obtain ⟨w₁, houtcome, heq⟩ := appendBatch_run h
    exact .appendFileBatch houtcome heq
  | commitOperationBatch mutations appends => exact .commitOperationBatch (operationBatch_run h)
  | commitFileBatch batch mutations appends => exact .commitFileBatch (operationBatch_run h)
  | putOperationSupport input => exact .putOperationSupport (mutation_run h)
  | deleteOperationSupport activityId expected => exact .deleteOperationSupport (mutation_run h)
  | requestWorkDelegationStop delegation requestedBy requestedAt =>
    obtain ⟨history, houtcome⟩ :=
      requestWorkDelegationStop_outcome (runStatements_singleton.mp h)
    exact .requestWorkDelegationStop houtcome
  | beginPendingFileBatch prepared =>
    obtain ⟨htables, heq⟩ := onTables_eq_ok (runStatements_singleton.mp h)
    exact .beginPendingFileBatch ⟨beginPendingFileBatch_writes htables, heq⟩
  | recordPendingFileDescriptors batch =>
    obtain ⟨htables, heq⟩ := onTables_eq_ok (runStatements_singleton.mp h)
    exact .recordPendingFileDescriptors ⟨recordPendingFileDescriptors_writes htables, heq⟩
  | cleanPendingFileBatch batch removeNewCarriers =>
    obtain ⟨htables, heq⟩ := onTables_eq_ok (runStatements_singleton.mp h)
    exact .cleanPendingFileBatch ⟨cleanPendingFileBatch_writes htables, heq⟩
  | sealStore closure sealedAt =>
    obtain ⟨htables, heq⟩ := onTables_eq_ok (runStatements_singleton.mp h)
    exact .sealStore htables heq

/-! ## Soundness of a transaction -/

/-- **A transaction is sound**: its tables are, and the replays at hand are
of beginnings of their journal. -/
structure Sound (w : StoreWork) : Prop where
  journal : JournalSound w.db
  handle : ∀ h ∈ w.handle, Cached w.db h.replay
  replay : Cached w.db w.replay

namespace Sound

/-- A replay of no event is one of a beginning of any journal. -/
theorem cached_fresh : Cached db freshReplay :=
  ⟨[], List.nil_prefix, rfl⟩

theorem keeps (hs : Sound w) (h : KeepsControl w.db db') : Sound { w with db := db' } where
  journal := h.sound hs.journal
  handle := fun handle hmem => (hs.handle handle hmem).grow h.grows
  replay := hs.replay.grow h.grows

theorem batch {inputs : List ControlRecordStoreAppend} (hs : Sound w)
    (h : BatchOutcome inputs w w') : Sound w' := by
  cases h with
  | retained hdb hhandle hreplay =>
    constructor
    · rw [hdb]
      exact hs.journal
    · rw [hdb, hhandle]
      exact hs.handle
    · rw [hdb, hreplay]
      exact hs.replay
  | appended w₁ items events _ _ hdb hreplay hhandle _ happends =>
    have hcached : Cached w₁.db w₁.replay := by
      rw [hdb, hreplay]
      exact hs.replay
    have hgrows : Grows w.db w'.db := hdb ▸ happends.writes.grows
    obtain ⟨hjournal, hreplay'⟩ := happends.sound (hdb ▸ hs.journal) hcached
    refine ⟨hjournal, fun handle hmem => ?_, hreplay'⟩
    rw [happends.handle_eq, hhandle] at hmem
    exact (hs.handle handle hmem).grow hgrows

theorem kept (hs : Sound w) : Sound (keepReplay w) := by
  unfold keepReplay
  split
  · refine ⟨hs.journal, fun handle hmem => ?_, hs.replay⟩
    obtain ⟨before, -, rfl⟩ := Option.map_eq_some_iff.mp hmem
    exact hs.replay
  · exact hs

theorem operation {mutations : List ControlRecordOperationSupportMutation}
    {appends : List ControlRecordStoreAppend} (hs : Sound w)
    (h : OperationOutcome mutations appends w w') : Sound w' := by
  obtain ⟨_, w₁, w₂, -, -, hbatch, hmutations, rfl⟩ := h
  obtain ⟨hwrites, heq⟩ := resolveMutations_writes hmutations
  have hnext := (hs.batch hbatch).keeps hwrites.support_keeps
  rw [heq]
  exact hnext.kept

theorem mutation {mutation : ControlRecordOperationSupportMutation} (hs : Sound w)
    (h : MutationOutcome mutation w w') : Sound w' := by
  obtain ⟨-, ⟨_, -, hmutate⟩, heq⟩ := h
  rw [heq]
  exact hs.keeps (mutateSupport_writes hmutate).support_keeps

theorem custody (hs : Sound w) (h : OnTables ControlStatement.Custody w w') : Sound w' := by
  obtain ⟨hwrites, heq⟩ := h
  rw [heq]
  exact hs.keeps hwrites.custody_keeps

theorem stop {history : Replay} (hs : Sound w) (h : StopOutcome w w' history) : Sound w' := by
  have htables : JournalSound w'.db ∧ Grows w.db w'.db ∧ Current w'.db history := by
    rcases h.tables with hsame | ⟨request, hexecute, hnames⟩
    · rw [hsame]
      exact ⟨hs.journal, .refl, h.current⟩
    · have hgrows := (execute_executed hexecute).grows
      generalize hdb : w'.db = db' at hexecute hgrows ⊢
      cases execute_executed hexecute
      have hcurrent : Current { w.db with stopRequest := some request } history :=
        h.current.congr rfl hgrows
      refine ⟨⟨history, hcurrent, fun r hr => ?_⟩, hgrows, hcurrent⟩
      obtain rfl := Option.some.inj hr
      exact hnames
  obtain ⟨hjournal, hgrows, hcurrent⟩ := htables
  refine ⟨hjournal, fun handle hmem => ?_, ?_⟩
  · rw [h.handle] at hmem
    obtain ⟨before, -, rfl⟩ := Option.map_eq_some_iff.mp hmem
    exact hcurrent.cached
  · rw [h.disposition]
    exact hs.replay.grow hgrows

end Sound

/-! ## The seal -/

/-- **What a seal binds**: a closure that is the subject of the head of the
journal, and the inventory of the tables. -/
structure Sealed (db : ControlDatabase) (value : ControlRecordStoreSeal) : Prop where
  head : ∃ head, headRow db = some head ∧ head.eventKind = "closure-recorded"
    ∧ head.subject = some value.closure ∧ value.head = ⟨head.sequence, head.digest⟩
  inventory : logicalInventoryDigest db = .ok value.logicalInventoryDigest

/-- A seal is not part of the inventory. -/
theorem logicalInventoryDigest_storeSeal {value : Option ControlRecordStoreSeal}
    (hpending : db.pending = none) :
    logicalInventoryDigest { db with storeSeal := value } = logicalInventoryDigest db := by
  have hfiles : semanticReferencedFileRows { db with storeSeal := value }
      = semanticReferencedFileRows db := by
    rw [semanticReferencedFileRows, semanticReferencedFileRows, hpending]
  rw [logicalInventoryDigest, logicalInventoryDigest, hfiles]
  rfl

/-- Without live support, removing the disposed rows removes all. -/
theorem values_of_liveSupportCount {support : OrderedMap String RetainedOperationSupport}
    (hlive : liveSupportCount { db with support := support.filterValues fun
      | .live _ => true
      | .deleted _ => false } = 0) :
    (support.filterValues fun
      | .live _ => true
      | .deleted _ => false).values = [] := by
  rw [liveSupportCount, List.length_eq_zero_iff, List.filter_eq_nil_iff] at hlive
  refine List.eq_nil_iff_forall_not_mem.mpr fun v hv => hlive v hv ?_
  obtain ⟨k, hk⟩ := OrderedMap.mem_values_iff.mp hv
  rw [OrderedMap.get_filterValues, Option.filter_eq_some_iff] at hk
  exact hk.2

/-- **The outcome of a seal.** -/
structure SealOutcome (db db' : ControlDatabase) (value : ControlRecordStoreSeal) : Prop where
  unsealed : db.storeSeal = none
  keeps : KeepsControl db db'
  stopRequest : db.stopRequest = none
  sealed : db'.storeSeal = some value
  /-- No support was live. -/
  disposed : ∀ activityId s, db.support.get activityId ≠ some (.live s)
  settled : Settled db'
  sound : Sealed db' value

theorem sealStore_outcome {closure : ControlRecordEventSubject} {sealedAt : String}
    (h : sealStore closure sealedAt db = .ok db') :
    ∃ value, value.closure = closure ∧ value.sealedAt = sealedAt ∧ SealOutcome db db' value := by
  simp only [ControlStore.sealStore, bind_eq_ok, orFail_eq_ok, failIf_eq_ok, exists_unit,
    lifted_eq_ok, not_or, not_not] at h
  obtain ⟨db₁, hdisposed, head, hhead, ⟨hkind, hsubject⟩, digest, hdigest, hexecute⟩ := h
  refine ⟨⟨closure, ⟨head.sequence, head.digest⟩, digest, sealedAt⟩, rfl, rfl, ?_⟩
  cases execute_executed (s := .deleteDisposedSupport) hdisposed
  cases execute_executed (s := .insertSeal _) hexecute with
  | closed hopen hpending hlive hstop =>
    have hvalues := values_of_liveSupportCount hlive
    refine ⟨hopen, ⟨⟨rfl, List.prefix_rfl, List.prefix_rfl, List.prefix_rfl, List.prefix_rfl⟩,
      rfl, rfl⟩, hstop, rfl, fun activityId s hs => ?_, fun _ => ⟨hpending, hstop, hvalues⟩, ?_⟩
    · have hkept : (db.support.filterValues fun
          | .live _ => true
          | .deleted _ => false).get activityId = some (.live s) := by
        rw [OrderedMap.get_filterValues, hs]
        rfl
      have hmem := OrderedMap.mem_values_of_get hkept
      rw [hvalues] at hmem
      cases hmem
    refine ⟨⟨head, hhead, hkind, hsubject, rfl⟩, ?_⟩
    rw [logicalInventoryDigest_storeSeal hpending]
    exact hdigest

/-! ## Every call -/

theorem BatchOutcome.writes {inputs : List ControlRecordStoreAppend}
    (h : BatchOutcome inputs w w') : Writes ControlStatement.Journal w.db w'.db := by
  cases h with
  | retained hdb =>
    rw [hdb]
    exact .refl
  | appended w₁ items events _ _ hdb _ _ _ happends =>
    rw [← hdb]
    exact happends.writes

theorem keepReplay_db : (keepReplay w).db = w.db := by
  unfold keepReplay
  split
  · rfl
  · rfl

theorem OperationOutcome.writes {mutations : List ControlRecordOperationSupportMutation}
    {appends : List ControlRecordStoreAppend} (h : OperationOutcome mutations appends w w') :
    Writes ControlStatement.Ordinary w.db w'.db := by
  obtain ⟨_, w₁, w₂, -, -, hbatch, hmutations, rfl⟩ := h
  rw [keepReplay_db]
  exact (hbatch.writes.mono fun _ => ControlStatement.Journal.ordinary).trans
    ((resolveMutations_writes hmutations).1.mono fun _ => ControlStatement.Support.ordinary)

theorem StopOutcome.writes {history : Replay} (h : StopOutcome w w' history) :
    Writes ControlStatement.Request w.db w'.db := by
  rcases h.tables with hsame | ⟨request, hexecute, -⟩
  · rw [hsame]
    exact .refl
  · exact .single (s := .insertStopRequest request) trivial hexecute

/-- Whether a call is a seal. -/
def StoreCall.seals : StoreCall → Prop
  | .sealStore .. => True
  | _ => False

/-- **Every call but the seal is a chain of ordinary statements.** -/
theorem CallOutcome.writes {call : StoreCall} (h : CallOutcome w w' call)
    (hcall : ¬ call.seals) : Writes ControlStatement.Ordinary w.db w'.db := by
  cases h with
  | appendBatch hbatch heq | appendFileBatch hbatch heq =>
    rw [heq, keepReplay_db]
    exact hbatch.writes.mono fun _ => ControlStatement.Journal.ordinary
  | commitOperationBatch hoperation | commitFileBatch hoperation => exact hoperation.writes
  | putOperationSupport hmutation | deleteOperationSupport hmutation =>
    obtain ⟨-, ⟨_, -, hmutate⟩, -⟩ := hmutation
    exact (mutateSupport_writes hmutate).mono fun _ => ControlStatement.Support.ordinary
  | requestWorkDelegationStop hstop =>
    exact hstop.writes.mono fun _ => ControlStatement.Request.ordinary
  | beginPendingFileBatch htables | recordPendingFileDescriptors htables
  | cleanPendingFileBatch htables =>
    exact htables.1.mono fun _ => ControlStatement.Custody.ordinary
  | sealStore => exact absurd trivial hcall

/-- **Every call stays sound.** -/
theorem CallOutcome.sound {call : StoreCall} (h : CallOutcome w w' call) (hs : Sound w) :
    Sound w' := by
  cases h with
  | appendBatch hbatch heq | appendFileBatch hbatch heq =>
    rw [heq]
    exact (hs.batch hbatch).kept
  | commitOperationBatch hoperation | commitFileBatch hoperation => exact hs.operation hoperation
  | putOperationSupport hmutation | deleteOperationSupport hmutation => exact hs.mutation hmutation
  | requestWorkDelegationStop hstop => exact hs.stop hstop
  | beginPendingFileBatch htables | recordPendingFileDescriptors htables
  | cleanPendingFileBatch htables => exact hs.custody htables
  | sealStore hseal heq =>
    obtain ⟨value, -, -, houtcome⟩ := sealStore_outcome hseal
    rw [heq]
    exact hs.keeps houtcome.keeps

/-- **The tables of control only grow**, whatever the call. -/
theorem CallOutcome.grows {call : StoreCall} (h : CallOutcome w w' call) :
    Grows w.db w'.db := by
  by_cases hcall : call.seals
  · cases h with
    | sealStore hseal =>
      obtain ⟨_, -, -, houtcome⟩ := sealStore_outcome hseal
      exact houtcome.keeps.grows
    | _ => exact hcall.elim
  · exact (h.writes hcall).grows

/-! ## Reachable stores -/

section Reachable

variable {κ : Type} [DecidableEq κ] {identity : ControlRecordStoreIdentity}

/-- What is committed of a store with its handles. -/
abbrev StoreState (κ : Type) : Type :=
  Committed κ StoreCall ControlDatabase (Option StoreHandle)

/-- The handles of a store, their calls happening at once. -/
abbrev storeCalls (profiles : String → Schema) (κ : Type) [DecidableEq κ]
    (identity : ControlRecordStoreIdentity) :
    TransitionSystem (StoreState κ) (AtomicStep κ StoreCall) :=
  atomicSystem (storeBody profiles) recalls (created identity)

/-- **What every committed state of a store satisfies.** -/
structure StoreInvariant (s : StoreState κ) : Prop where
  journal : JournalSound s.shared
  cached : ∀ k, ∀ h ∈ s.memory k, Cached s.shared h.replay
  settled : Settled s.shared
  sealed : ∀ value ∈ s.shared.storeSeal, Sealed s.shared value

/-- What a call that runs on a committed state has made of it. -/
theorem call_outcome {s t : StoreState κ} {k : κ} {call : StoreCall}
    (h : (storeCalls profiles κ identity).step s (.call k call) t) :
    ∃ w w', w.db = s.shared ∧ w.handle = s.memory k
      ∧ w.replay = ((s.memory k).map (·.replay)).getD freshReplay ∧ CallOutcome w w' call
      ∧ t.shared = w'.db ∧ t.memory = Function.update s.memory k w'.handle := by
  obtain ⟨-, w', hrun, rfl⟩ := h
  exact ⟨_, w', rfl, rfl, rfl, callOutcome hrun, rfl, rfl⟩

omit [DecidableEq κ] in
theorem StoreInvariant.enter {s : StoreState κ} (hs : StoreInvariant s) {k : κ} {w : StoreWork}
    (hdb : w.db = s.shared) (hhandle : w.handle = s.memory k)
    (hreplay : w.replay = ((s.memory k).map (·.replay)).getD freshReplay) : Sound w := by
  constructor
  · rw [hdb]
    exact hs.journal
  · rw [hdb, hhandle]
    exact hs.cached k
  · rw [hdb, hreplay]
    cases hmemory : s.memory k with
    | none => exact Sound.cached_fresh
    | some h => exact hs.cached k h hmemory

/-- A call keeps the store settled and its seal sound. -/
theorem CallOutcome.sealed {call : StoreCall} (h : CallOutcome w w' call)
    (hsettled : Settled w.db) (hsealed : ∀ value ∈ w.db.storeSeal, Sealed w.db value) :
    Settled w'.db ∧ ∀ value ∈ w'.db.storeSeal, Sealed w'.db value := by
  by_cases hcall : call.seals
  · cases h with
    | sealStore hseal =>
      obtain ⟨value, -, -, houtcome⟩ := sealStore_outcome hseal
      refine ⟨houtcome.settled, fun value' hvalue => ?_⟩
      rw [houtcome.sealed] at hvalue
      obtain rfl := Option.some.inj hvalue
      exact houtcome.sound
    | _ => exact hcall.elim
  · have hwrites := h.writes hcall
    by_cases hopen : w.db.storeSeal = none
    · have hnone : w'.db.storeSeal = none := by
        rw [hwrites.storeSeal fun _ hs => hs, hopen]
      refine ⟨fun hne => absurd hnone hne, fun value hvalue => ?_⟩
      rw [hnone] at hvalue
      cases hvalue
    · rw [hwrites.of_sealed hsettled hopen]
      exact ⟨hsettled, hsealed⟩

/-- **One step keeps the invariant.** -/
theorem StoreInvariant.step {s t : StoreState κ} {l : AtomicStep κ StoreCall}
    (hs : StoreInvariant s) (h : (storeCalls profiles κ identity).step s l t) :
    StoreInvariant t := by
  cases l with
  | check k call =>
    obtain ⟨-, rfl⟩ := h
    exact ⟨hs.journal, hs.cached, hs.settled, hs.sealed⟩
  | renew k =>
    obtain ⟨memory, hrenews, rfl⟩ := h
    refine ⟨hs.journal, fun j handle hmem => ?_, hs.settled, hs.sealed⟩
    have hmem : handle ∈ Function.update s.memory k memory j := hmem
    by_cases hj : j = k
    · subst hj
      rw [Function.update_self] at hmem
      exact hrenews handle hmem
    · rw [Function.update_of_ne hj] at hmem
      exact hs.cached j handle hmem
  | call k call =>
    obtain ⟨w, w', hdb, hhandle, hreplay, houtcome, hshared, hmemory⟩ := call_outcome h
    have hsound := houtcome.sound (hs.enter hdb hhandle hreplay)
    obtain ⟨hsettled, hsealed⟩ := houtcome.sealed (hdb ▸ hs.settled) (hdb ▸ hs.sealed)
    refine ⟨hshared ▸ hsound.journal, fun j handle hmem => ?_, hshared ▸ hsettled,
      hshared ▸ hsealed⟩
    rw [hmemory] at hmem
    by_cases hj : j = k
    · subst hj
      rw [Function.update_self] at hmem
      exact hshared ▸ hsound.handle handle hmem
    · rw [Function.update_of_ne hj] at hmem
      refine (hs.cached j handle hmem).grow ?_
      rw [hshared, ← hdb]
      exact houtcome.grows

theorem StoreInvariant.of_reachable {s : StoreState κ}
    (h : (storeCalls profiles κ identity).Reachable s) : StoreInvariant s := by
  refine h.invariant (P := StoreInvariant) ?_ fun _ _ _ => StoreInvariant.step
  rintro s ⟨⟨hdb, hnone⟩, -⟩
  have hempty : Current s.shared freshReplay := by
    rw [hdb]
    rfl
  constructor
  · refine ⟨freshReplay, hempty, fun request hrequest => ?_⟩
    rw [hdb] at hrequest
    cases hrequest
  · intro k handle hmem
    rw [hnone k] at hmem
    cases hmem
  · intro hsealed
    rw [hdb] at hsealed
    exact absurd rfl hsealed
  · intro value hvalue
    rw [hdb] at hvalue
    cases hvalue

/-- A call whose checks pass and whose body goes through is made. -/
theorem exists_call {s : StoreState κ} {k : κ} {call : StoreCall} {w : StoreWork}
    (hs : (storeCalls profiles κ identity).Reachable s)
    (hcheck : checkCall s.shared (s.memory k) call = .ok ())
    (hrun : (storeBody profiles call).run s.shared (s.memory k) = .ok w) :
    ∃ s', (storeCalls profiles κ identity).Reachable s' ∧ s'.shared = s.shared
      ∧ s'.memory = s.memory
      ∧ (storeCalls profiles κ identity).step s' (.call k call)
        (s'.publish (storeBody profiles) k call w) := by
  refine ⟨{ s with checked := fun j d => s.checked j d ∨ (j = k ∧ d = call) },
    hs.step (e := .check k call) ⟨hcheck, rfl⟩, rfl, rfl, .inr ⟨rfl, rfl⟩, w, hrun, rfl⟩

/-- A handle whose memory may be renewed renews it. -/
theorem reachable_recalled {s : StoreState κ}
    (hs : (storeCalls profiles κ identity).Reachable s) {k : κ}
    {next : Option StoreHandle} (h : recalls s.shared (s.memory k) next) :
    (storeCalls profiles κ identity).Reachable
      { s with memory := Function.update s.memory k next } :=
  hs.step (e := .renew k) ⟨next, h, rfl⟩

/-- **The invariant of the handles of a store**, with transactions step by
step. -/
theorem storeInvariant {s : ClientState κ StoreCall ControlDatabase (Option StoreHandle) StoreWork
    StoreFailure} (h : (storeSystem profiles κ identity).Reachable s) :
    StoreInvariant s.toCommitted :=
  .of_reachable (committed_reachable h)

end Reachable

/-! ## A sample store -/

namespace Sample

/-- Profiles for a store that retains no revision. -/
def noProfiles : String → Schema := fun _ => .all []

/-- The identity of the sample store. -/
def storeIdentity : ControlRecordStoreIdentity :=
  ⟨controlRecordStoreSchema, "store-1", "target-1", "delivery", "delivery-1",
    "2026-01-05T09:00:00Z"⟩

/-- The append that creates the delivery. -/
def creationAppend : ControlRecordStoreAppend := ⟨none, eventInput creation⟩

/-- The first operation support of an activity. -/
def supportPut : ControlRecordOperationSupportPut := ⟨"activity-1", "effect", [], none⟩

/-- The store with its first event. -/
def createdStore : ControlDatabase := { identity := storeIdentity, events := [creation] }

theorem creation_compiles :
    compileControlRecordEvent "store-1" "delivery-1" 1 none creationAppend.event
      = .ok creation :=
  compile_place creation_admissible firstPlace_follows

theorem creation_envelope :
    assertDeliveryEventEnvelope creation
      = .ok (DeliveryEvents.descriptor .deliveryCreated) :=
  creation_admissible.envelope rfl rfl rfl

/-- The work of a first batch, before its one item. -/
def creationWork (handle : StoreHandle) : StoreWork where
  db := { identity := storeIdentity }
  handle := some handle
  replay := freshReplay
  queue := [⟨creationAppend, none⟩]

/-- The work of a first batch, after its one item. -/
def createdWork (handle : StoreHandle) : StoreWork where
  db := createdStore
  handle := some handle
  replay := created
  queue := []
  sequence := 2
  predecessorDigest := some creation.digest
  predecessorTime := some creation.occurredAt
  appends := [⟨none, creation⟩]

theorem compileAppends_creation :
    compileAppends storeIdentity [creationAppend] = .ok [⟨creationAppend, none⟩] := by
  have hid : controlIdentifier creationAppend.event.eventId "Control record event identity"
      = .ok creationAppend.event.eventId :=
    controlIdentifier_eq_ok.mpr ⟨firstPlace_follows.event, rfl⟩
  have hdistinct : assertDistinctAppends [] [] [⟨creationAppend, none⟩] = .ok () := by
    rw [assertDistinctAppends, hid, ok_bind, failIf_neg List.not_mem_nil, ok_bind]
    rfl
  have hitems : [creationAppend].mapM (compileAppend storeIdentity)
      = .ok [⟨creationAppend, none⟩] := rfl
  rw [compileAppends, failIf_neg (by decide), ok_bind, hitems, ok_bind, hdistinct]
  rfl

theorem resolveAppends_creation (handle : StoreHandle) :
    resolveAppends profiles [creationAppend] none
        { db := { identity := storeIdentity }, handle := some handle, replay := freshReplay }
      = .ok (creationWork handle) := by
  rw [resolveAppends, compileAppends_creation, ok_bind]
  rfl

theorem execute_creation :
    execute { identity := storeIdentity } (.insertEvent creation) = .ok createdStore := by
  have hcontiguous : contiguousEvent { identity := storeIdentity } creation = .ok () := by
    simp only [contiguousEvent, bind_eq_ok, failIf_eq_ok, exists_unit]
    refine ⟨fun h => h rfl, fun h => h rfl, ?_, ?_⟩
    · show ¬ (!binaryLt creation.occurredAt creation.occurredAt) = false
      decide +kernel
    · rintro ⟨_, hsubject, -⟩
      cases hsubject
  rw [execute, hcontiguous, ok_bind]
  rfl

theorem appendItem_creation (handle : StoreHandle) :
    appendItem profiles (creationWork handle) = .ok (createdWork handle) := by
  have hdescribed : assertRetainedEventDescriptor { identity := storeIdentity } creation
      = .ok () := by
    rw [assertRetainedEventDescriptor, creation_envelope, ok_bind]
    rfl
  have hboundary : assertWorkDelegationStopBoundary { identity := storeIdentity } creation
      = .ok none := by
    simp only [assertWorkDelegationStopBoundary, getWorkDelegationStopRequest, bind_eq_ok,
      failIf_eq_ok, exists_unit, pure_eq_ok]
    refine ⟨none, ⟨?_, rfl⟩, ?_⟩
    · rintro ⟨_, hrequest, -⟩
      cases hrequest
    · rw [if_neg (show creation.eventKind ≠ "work-delegation-stopped" by decide +kernel)]
      rfl
  have hfirst : appendItem profiles (creationWork handle)
      = retainEvent { creationWork handle with queue := [] } ⟨creationAppend, none⟩ := by
    rw [appendItem, creationWork]
    exact ok_bind
  rw [hfirst]
  have htime : assertEventTime none creation.occurredAt = .ok () := by
    refine failIf_neg ?_
    rintro ⟨_, hlast, -⟩
    cases hlast
  unfold retainEvent
  refine bind_eq_ok.mpr ⟨_, lifted_eq_ok.mpr (firstPlace_follows.time _), ?_⟩
  refine bind_eq_ok.mpr ⟨(), lifted_eq_ok.mpr htime, ?_⟩
  refine bind_eq_ok.mpr ⟨creation, lifted_eq_ok.mpr creation_compiles, ?_⟩
  refine bind_eq_ok.mpr ⟨(), lifted_eq_ok.mpr hdescribed, ?_⟩
  refine bind_eq_ok.mpr ⟨(), rfl, ?_⟩
  refine bind_eq_ok.mpr ⟨none, lifted_eq_ok.mpr hboundary, ?_⟩
  refine bind_eq_ok.mpr ⟨created, lifted_eq_ok.mpr (append_creation _), ?_⟩
  refine bind_eq_ok.mpr ⟨createdStore, execute_creation, ?_⟩
  refine bind_eq_ok.mpr ⟨createdStore, rfl, ?_⟩
  refine bind_eq_ok.mpr ⟨(), rfl, ?_⟩
  rfl

/-- The row of the first support, with its canonical payload. -/
def supportRow (payloadJson : List UInt8) : ControlRecordOperationSupport where
  schema := operationSupportSchema
  storeId := "store-1"
  processId := "delivery-1"
  activityId := "activity-1"
  supportKind := "effect"
  generation := 1
  payloadJson := payloadJson
  payloadDigest := sha256Bytes payloadJson

/-- The first support, prepared. -/
def preparedPut (payloadJson : List UInt8) : PreparedOperationSupportPut where
  activityId := "activity-1"
  supportKind := "effect"
  payloadJson := payloadJson
  payloadDigest := sha256Bytes payloadJson
  expected := none
  result := supportRow payloadJson

/-- The store with its first event and its first support. -/
def supportedStore (payloadJson : List UInt8) : ControlDatabase :=
  { createdStore with
    support := (∅ : OrderedMap String RetainedOperationSupport).set "activity-1"
      (.live (supportRow payloadJson)) }

theorem exists_prepared : ∃ payloadJson, prepareOperationSupportMutation storeIdentity
    (.put supportPut) = .ok (.put (preparedPut payloadJson)) := by
  have hpayload : ∃ payloadJson, canonicalControlJsonObject supportPut.payload
      "Operation support payload" = .ok payloadJson := by
    have hok : (canonicalControlJsonObject supportPut.payload
        "Operation support payload").isOk = true := by decide +kernel
    cases h : canonicalControlJsonObject supportPut.payload "Operation support payload" with
    | ok payloadJson => exact ⟨payloadJson, rfl⟩
    | error e =>
      rw [h] at hok
      cases hok
  obtain ⟨payloadJson, hpayload⟩ := hpayload
  have hid : controlIdentifier supportPut.activityId "Operation support activity identity"
      = .ok supportPut.activityId := controlIdentifier_eq_ok.mpr ⟨by decide +kernel, rfl⟩
  have hkind : controlRecordKind supportPut.supportKind "Operation support kind"
      = .ok supportPut.supportKind := by
    rw [controlRecordKind, failIf_neg (by decide +kernel)]
    rfl
  refine ⟨payloadJson, ?_⟩
  rw [prepareOperationSupportMutation, prepareOperationSupportPut, hid, ok_bind, hkind, ok_bind,
    hpayload, ok_bind]
  rfl

theorem getRetained_of_get {db : ControlDatabase} {row : Option RetainedOperationSupport}
    (hrow : db.support.get "activity-1" = row) (hbinds : ∀ r ∈ row, bindsStore db.identity r = true) :
    getRetainedOperationSupport db "activity-1" = .ok row := by
  simp only [getRetainedOperationSupport, bind_eq_ok, controlIdentifier_eq_ok, failIf_eq_ok,
    exists_unit, pure_eq_ok]
  refine ⟨_, ⟨by decide +kernel, rfl⟩, ?_, hrow⟩
  rintro ⟨r, hr, hnot⟩
  rw [hrow] at hr
  rw [hbinds r hr] at hnot
  cases hnot

theorem getRetained_created : getRetainedOperationSupport createdStore "activity-1" = .ok none :=
  getRetained_of_get rfl fun _ hr => nomatch hr

theorem getRetained_supported (payloadJson : List UInt8) :
    getRetainedOperationSupport (supportedStore payloadJson) "activity-1"
      = .ok (some (.live (supportRow payloadJson))) := by
  refine getRetained_of_get OrderedMap.get_set_self fun r hr => ?_
  obtain rfl := Option.some.inj hr
  rfl

theorem mutateSupport_put (payloadJson : List UInt8) :
    mutateSupport createdStore (.put (preparedPut payloadJson))
      = .ok (supportedStore payloadJson) := by
  have hcreate : createSupport createdStore (preparedPut payloadJson) none
      = .ok (supportedStore payloadJson) := rfl
  unfold mutateSupport putOperationSupportInTransaction
  refine bind_eq_ok.mpr ⟨none, lifted_eq_ok.mpr getRetained_created, ?_⟩
  refine bind_eq_ok.mpr ⟨supportedStore payloadJson, hcreate, ?_⟩
  refine bind_eq_ok.mpr ⟨_, lifted_eq_ok.mpr (getRetained_supported payloadJson), ?_⟩
  exact bind_eq_ok.mpr ⟨(), failIf_neg fun hne => hne rfl, rfl⟩

/-- The batch that creates the delivery and the first support. -/
def firstBatch : StoreCall := .commitOperationBatch [.put supportPut] [creationAppend]

/-- An open handle that has replayed an empty journal. -/
def freshHandle : StoreHandle := ⟨false, freshReplay⟩

/-- The work of the batch, committed. -/
def firstWork (payloadJson : List UInt8) : StoreWork :=
  { createdWork freshHandle with
    db := supportedStore payloadJson
    handle := some ⟨false, created⟩ }

/-- The work of a retry of the batch. -/
def retriedWork (payloadJson : List UInt8) : StoreWork where
  db := supportedStore payloadJson
  handle := some freshHandle
  replay := freshReplay
  appends := [⟨none, creation⟩]
  disposition := .retained

section Runs

variable {payloadJson : List UInt8} (hprepared : prepareOperationSupportMutation storeIdentity
  (.put supportPut) = .ok (.put (preparedPut payloadJson)))

include hprepared

theorem openOperationBatch_first (db : ControlDatabase) (hidentity : db.identity = storeIdentity)
    (hseal : db.storeSeal = none) (readOnly closed : String) :
    openOperationBatch readOnly closed [.put supportPut] db (some freshHandle) = .ok () := by
  have hmutations : prepareMutations db.identity [.put supportPut]
      = .ok [.put (preparedPut payloadJson)] := by
    rw [prepareMutations, failIf_neg (by decide), ok_bind, List.mapM_cons, hidentity, hprepared]
    rfl
  unfold openOperationBatch
  refine bind_eq_ok.mpr ⟨(), rfl, bind_eq_ok.mpr ⟨(), ?_, ?_⟩⟩
  · rw [assertUnsealed, hseal]
    rfl
  · rw [hmutations]
    rfl

/-- The call passes its checks. -/
theorem checkCall_first {db : ControlDatabase} (hidentity : db.identity = storeIdentity)
    (hseal : db.storeSeal = none) : checkCall db (some freshHandle) firstBatch = .ok () := by
  have hmutations : prepareMutations db.identity [.put supportPut]
      = .ok [.put (preparedPut payloadJson)] := by
    rw [prepareMutations, failIf_neg (by decide), ok_bind, List.mapM_cons, hidentity, hprepared]
    rfl
  have hunbound : assertNoUnboundCandidateRevision [creationAppend] = .ok () := by
    refine failIf_neg ?_
    rintro ⟨a, ha, r, hr, -⟩
    obtain rfl := List.mem_singleton.mp ha
    cases hr
  unfold checkCall firstBatch
  refine bind_eq_ok.mpr ⟨(), rfl, bind_eq_ok.mpr ⟨(), ?_, bind_eq_ok.mpr ⟨(), ?_, ?_⟩⟩⟩
  · rw [assertUnsealed, hseal]
    rfl
  · rw [hunbound]
    rfl
  · rw [hmutations]
    rfl

/-- **The first commit of the batch.** -/
theorem run_first :
    (storeBody profiles firstBatch).run { identity := storeIdentity } (some freshHandle)
      = .ok (firstWork payloadJson) := by
  have hguard := openOperationBatch_first hprepared { identity := storeIdentity } rfl rfl
  have hmutation : resolveMutation (.put supportPut) (createdWork freshHandle)
      = .ok { createdWork freshHandle with db := supportedStore payloadJson } := by
    have hbefore : operationSupportPostcondition createdStore (.put (preparedPut payloadJson))
        = .ok false :=
      bind_eq_ok.mpr ⟨none, getRetained_created, rfl⟩
    unfold resolveMutation
    refine bind_eq_ok.mpr ⟨_, lifted_eq_ok.mpr hprepared, ?_⟩
    refine bind_eq_ok.mpr ⟨false, lifted_eq_ok.mpr hbefore, ?_⟩
    exact bind_eq_ok.mpr ⟨(), rfl, bind_eq_ok.mpr ⟨_, mutateSupport_put payloadJson, rfl⟩⟩
  refine bind_eq_ok.mpr ⟨_, bind_eq_ok.mpr ⟨(), hguard _ _, rfl⟩, ?_⟩
  refine bind_eq_ok.mpr ⟨creationWork freshHandle,
    lifted_eq_ok.mpr (resolveAppends_creation freshHandle), ?_⟩
  refine bind_eq_ok.mpr ⟨_, appendItem_creation freshHandle, ?_⟩
  refine bind_eq_ok.mpr ⟨createdWork freshHandle, ?_, ?_⟩
  · rfl
  · exact bind_eq_ok.mpr ⟨_, hmutation, rfl⟩

/-- **A retry of the batch**, through a handle that has not seen it. -/
theorem run_retried :
    (storeBody profiles firstBatch).run (supportedStore payloadJson) (some freshHandle)
      = .ok (retriedWork payloadJson) := by
  have hguard := openOperationBatch_first hprepared (supportedStore payloadJson) rfl rfl
  have hrows : retainedRows (supportedStore payloadJson) [⟨creationAppend, none⟩]
      = [(⟨creationAppend, none⟩, creation)] := by
    have hrow : eventRow (supportedStore payloadJson) creationAppend.event.eventId
        = some creation := by
      rw [eventRow, supportedStore, createdStore, List.find?_cons_of_pos]
      exact decide_eq_true rfl
    rw [retainedRows, List.filterMap_cons, hrow]
    rfl
  have hdescribed : assertRetainedEventDescriptor (supportedStore payloadJson) creation
      = .ok () := by
    rw [assertRetainedEventDescriptor, creation_envelope, ok_bind]
    rfl
  have hretained : retainedAppends profiles (supportedStore payloadJson) none
      [(⟨creationAppend, none⟩, creation)] = .ok [⟨none, creation⟩] := by
    refine bind_eq_ok.mpr ⟨⟨none, creation⟩, ?_, rfl⟩
    unfold retainedAppend
    refine bind_eq_ok.mpr ⟨(), hdescribed, bind_eq_ok.mpr ⟨creation, creation_compiles, ?_⟩⟩
    refine bind_eq_ok.mpr ⟨(), hdescribed, bind_eq_ok.mpr ⟨(), failIf_neg fun h => h rfl, ?_⟩⟩
    have hfirst : ¬ ∃ before ∈ (none : Option ControlRecordEvent),
        creation.sequence ≠ before.sequence + 1
          ∨ creation.predecessorDigest ≠ some before.digest := by
      rintro ⟨_, h, -⟩
      cases h
    exact bind_eq_ok.mpr ⟨(), failIf_neg hfirst, rfl⟩
  have hresolve : resolveAppends profiles [creationAppend] none
      { db := supportedStore payloadJson, handle := some freshHandle, replay := freshReplay }
      = .ok (retriedWork payloadJson) := by
    have hcompiled : compileAppends (supportedStore payloadJson).identity [creationAppend]
        = .ok [⟨creationAppend, none⟩] := compileAppends_creation
    rw [resolveAppends, hcompiled, ok_bind]
    refine bind_eq_ok.mpr ⟨(), rfl, ?_⟩
    rw [hrows, if_neg (List.cons_ne_nil _ _)]
    refine bind_eq_ok.mpr ⟨(), failIf_neg fun h => h rfl, ?_⟩
    exact bind_eq_ok.mpr ⟨_, hretained, rfl⟩
  have hafter : operationSupportPostcondition (supportedStore payloadJson)
      (.put (preparedPut payloadJson)) = .ok true := by
    refine bind_eq_ok.mpr ⟨_, getRetained_supported payloadJson, ?_⟩
    exact congrArg Except.ok (decide_eq_true rfl)
  refine bind_eq_ok.mpr ⟨_, bind_eq_ok.mpr ⟨(), hguard _ _, rfl⟩, ?_⟩
  refine bind_eq_ok.mpr ⟨_, lifted_eq_ok.mpr hresolve, ?_⟩
  refine bind_eq_ok.mpr ⟨_, rfl, bind_eq_ok.mpr ⟨_, rfl, ?_⟩⟩
  refine bind_eq_ok.mpr ⟨retriedWork payloadJson, ?_, rfl⟩
  unfold resolveMutation
  refine bind_eq_ok.mpr ⟨_, lifted_eq_ok.mpr hprepared, ?_⟩
  refine bind_eq_ok.mpr ⟨true, lifted_eq_ok.mpr hafter, ?_⟩
  exact bind_eq_ok.mpr ⟨(), rfl, rfl⟩

end Runs

/-! ### Two handles -/

/-- Two handles are opened on an empty journal. -/
theorem exists_opened : ∃ s, (storeCalls profiles Bool storeIdentity).Reachable s
    ∧ s.shared = { identity := storeIdentity } ∧ ∀ k, s.memory k = some freshHandle := by
  have hrenews (before : Option StoreHandle) :
      recalls { identity := storeIdentity } before (some freshHandle) := by
    intro handle hhandle
    obtain rfl := Option.some.inj hhandle
    exact ⟨[], List.prefix_rfl, rfl⟩
  have hinitial : (storeCalls profiles Bool storeIdentity).Reachable
      ⟨{ identity := storeIdentity }, fun _ => none, fun _ _ => False⟩ :=
    .of_initial ⟨⟨rfl, fun _ => rfl⟩, fun _ _ h => h⟩
  have hboth := reachable_recalled (k := false)
    (reachable_recalled (k := true) hinitial (hrenews _)) (hrenews _)
  refine ⟨_, hboth, rfl, fun k => ?_⟩
  cases k with
  | true => rfl
  | false => rfl

/-- **The first handle commits the batch.** -/
theorem exists_committed : ∃ payloadJson, prepareOperationSupportMutation storeIdentity
      (.put supportPut) = .ok (.put (preparedPut payloadJson))
    ∧ ∃ s, (storeCalls profiles Bool storeIdentity).Reachable s
      ∧ s.shared = supportedStore payloadJson ∧ s.memory true = some ⟨false, created⟩
      ∧ s.memory false = some freshHandle := by
  obtain ⟨payloadJson, hprepared⟩ := exists_prepared
  obtain ⟨s, hs, hshared, hmemory⟩ := @exists_opened profiles
  have hcheck : checkCall s.shared (s.memory true) firstBatch = .ok () := by
    rw [hshared, hmemory]
    exact checkCall_first hprepared rfl rfl
  have hrun : (storeBody profiles firstBatch).run s.shared (s.memory true)
      = .ok (firstWork payloadJson) := by
    rw [hshared, hmemory]
    exact run_first hprepared
  obtain ⟨s', hs', -, hsame, hcall⟩ := exists_call hs hcheck hrun
  refine ⟨payloadJson, hprepared, _, hs'.step hcall, rfl, rfl, ?_⟩
  show s'.memory false = some freshHandle
  rw [hsame, hmemory]

/-- **The second handle retries it**, and has then still seen nothing. -/
theorem exists_retried : ∃ (s t : StoreState Bool),
    (storeCalls profiles Bool storeIdentity).Reachable s
      ∧ (storeCalls profiles Bool storeIdentity).step s (.call false firstBatch) t
      ∧ t.shared.events = [creation] ∧ t.memory false = some freshHandle := by
  obtain ⟨payloadJson, hprepared, s, hs, hshared, -, hmemory⟩ :=
    @exists_committed profiles
  have hcheck : checkCall s.shared (s.memory false) firstBatch = .ok () := by
    rw [hshared, hmemory]
    exact checkCall_first hprepared rfl rfl
  have hrun : (storeBody profiles firstBatch).run s.shared (s.memory false)
      = .ok (retriedWork payloadJson) := by
    rw [hshared, hmemory]
    exact run_retried hprepared
  obtain ⟨s', hs', -, -, hcall⟩ := exists_call hs hcheck hrun
  exact ⟨s', _, hs', hcall, rfl, rfl⟩

/-- The store with its first event and support, as its handles reach it step
by step. -/
theorem exists_supported : ∃ (payloadJson : List UInt8) (s : ClientState Bool StoreCall
      ControlDatabase (Option StoreHandle) StoreWork StoreFailure),
    (storeSystem noProfiles Bool storeIdentity).Reachable s
      ∧ s.shared = supportedStore payloadJson := by
  obtain ⟨payloadJson, -, s, hs, hshared, -⟩ := @exists_committed noProfiles
  exact ⟨payloadJson, _, reachable_of_atomic hs, hshared⟩

end Sample
