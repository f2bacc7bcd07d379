import Lifecycle.StoreWrites

/-!
# What a batch does

A batch that is retained changes nothing. Any other appends one event for
each of its items, in their order, each behind the one before it in the
journal and in the replay (`AppendsItem`, `Appends`). What an event does to
a pending stop request is `StopStep`: it settles the request, or leaves it
and is none of the events a pending request forbids.
-/

open Fallible Json ControlModel DeliveryReducer ControlStore Transactions TransactionBody

variable {profiles : String → Schema} {db db' : ControlDatabase} {w w' : StoreWork}

/-! ## Revisions -/

/-- The statements that enter a revision. -/
def ControlStatement.Revising : ControlStatement → Prop
  | .insertRecord _ | .insertRevision _ | .insertRelationship _ => True
  | _ => False

theorem ControlStatement.Revising.journal {s : ControlStatement} (h : s.Revising) :
    s.Journal := by
  cases s with
  | insertRecord => trivial
  | insertRevision => trivial
  | insertRelationship => trivial
  | _ => exact h.elim

/-- Entering a revision touches neither the journal nor a stop request. -/
theorem Writes.revising_frame (h : Writes ControlStatement.Revising db db') :
    db'.events = db.events ∧ db'.stopRequest = db.stopRequest :=
  h.invariant (P := fun a => a.events = db.events ∧ a.stopRequest = db.stopRequest) ⟨rfl, rfl⟩
    fun s _ _ hs ha hb => by
    cases hb with
    | record => exact ha
    | revision => exact ha
    | relationship => exact ha
    | _ => exact hs.elim

theorem retainRecord_writes {r : ControlRecordRevision} (h : retainRecord db r = .ok db') :
    Writes ControlStatement.Revising db db' := by
  unfold retainRecord at h
  split at h
  · simp only [bind_eq_ok, failIf_eq_ok, exists_unit] at h
    obtain ⟨-, -, hexecute⟩ := h
    exact .single (s := .insertRecord _) trivial hexecute
  · simp only [bind_eq_ok, failIf_eq_ok, orFail_eq_ok, exists_unit, pure_eq_ok] at h
    obtain ⟨-, _, -, -, rfl⟩ := h
    exact .refl

theorem retainRelationships_writes {r : ControlRecordRevision}
    (h : retainRelationships db r = .ok db') : Writes ControlStatement.Revising db db' :=
  replay_invariant (P := fun a => Writes ControlStatement.Revising db a)
    (fun _ _ _ ha hstep => ha.trans (.single (s := .insertRelationship _) trivial hstep)) .refl h

/-- **A revision that is entered is retained.** -/
theorem retainRevision_retains {r : ControlRecordRevision}
    (h : retainRevision profiles db r = .ok db') :
    Writes ControlStatement.Revising db db'
      ∧ getRevision db' r.recordId r.revision = some r := by
  simp only [retainRevision, bind_eq_ok, failIf_eq_ok, exists_unit, lifted_eq_ok,
    isSome_ne_true] at h
  obtain ⟨hnew, -, db₁, hrecord, -, db₂, hrevision, hrelationships⟩ := h
  have hfirst := retainRecord_writes hrecord
  have hlast := retainRelationships_writes hrelationships
  refine ⟨hfirst.trans ((Writes.single (s := .insertRevision r) trivial hrevision).trans hlast),
    hlast.grows.getRevision ?_⟩
  -- The coordinate was free, so the new row is the one it names.
  have hfree : getRevision db₁ r.recordId r.revision = none := by
    have hsame : db₁.revisions = db.revisions := by
      unfold retainRecord at hrecord
      split at hrecord
      · simp only [bind_eq_ok, failIf_eq_ok, exists_unit] at hrecord
        obtain ⟨-, -, hexecute⟩ := hrecord
        cases execute_executed hexecute
        rfl
      · simp only [bind_eq_ok, failIf_eq_ok, orFail_eq_ok, exists_unit, pure_eq_ok] at hrecord
        obtain ⟨-, _, -, -, rfl⟩ := hrecord
        rfl
    rw [getRevision, hsame]
    exact hnew
  cases execute_executed hrevision
  rw [getRevision] at hfree
  rw [getRevision, List.find?_append, hfree]
  simp

theorem retainItemRevision_retains {revision : Option ControlRecordRevision}
    (h : retainItemRevision profiles db revision = .ok db') :
    Writes ControlStatement.Revising db db'
      ∧ ∀ r ∈ revision, getRevision db' r.recordId r.revision = some r := by
  cases revision with
  | none =>
    obtain rfl := Except.ok.inj h
    exact ⟨.refl, fun _ hr => nomatch hr⟩
  | some r =>
    obtain ⟨hwrites, hretained⟩ := retainRevision_retains h
    refine ⟨hwrites, fun r' hr' => ?_⟩
    obtain rfl := Option.some.inj hr'
    exact hretained

/-! ## Stop requests -/

/-- **An event settles a stop request**: it is the stop of the request's
delegation, with the payload of the request. -/
def Settles (request : WorkDelegationStopRequest) (event : ControlRecordEvent) : Prop :=
  event.eventKind = "work-delegation-stopped"
    ∧ event.subject = some ⟨request.delegation.id, request.delegation.revision,
        request.delegation.digest⟩
    ∧ canonicalJson (.object event.payload) = canonicalJson (.object (settlementPayload request))

/-- The kinds of events a pending stop request forbids. -/
def stopForbids (eventKind : String) : Prop :=
  eventKind = "activity-started" ∨ eventKind = "work-delegation-set"
    ∨ eventKind = "closure-recorded"

/-- **What an appended event does to the stop request.** -/
inductive StopStep : Option WorkDelegationStopRequest → ControlRecordEvent →
    Option WorkDelegationStopRequest → Prop
  | settled {request : WorkDelegationStopRequest} {event : ControlRecordEvent} :
      Settles request event → StopStep (some request) event none
  | kept {pending : Option WorkDelegationStopRequest} {event : ControlRecordEvent} :
      event.eventKind ≠ "work-delegation-stopped" →
      (pending ≠ none → ¬ stopForbids event.eventKind) → StopStep pending event pending

/-- The boundary of a stop, with the removal that follows it. -/
theorem stopStep_of_boundary {event : ControlRecordEvent}
    {settled : Option WorkDelegationStopRequest} {db₁ : ControlDatabase}
    (hboundary : assertWorkDelegationStopBoundary db event = .ok settled)
    (hsame : db₁.stopRequest = db.stopRequest) (hremove : removeSettled db₁ settled = .ok db') :
    StopStep db.stopRequest event db'.stopRequest := by
  simp only [assertWorkDelegationStopBoundary, getWorkDelegationStopRequest, bind_eq_ok,
    failIf_eq_ok, exists_unit, pure_eq_ok] at hboundary
  obtain ⟨pending, ⟨-, rfl⟩, hboundary⟩ := hboundary
  split at hboundary
  · next hkind =>
    simp only [bind_eq_ok, failIf_eq_ok, orFail_eq_ok, exists_unit, pure_eq_ok, not_not]
      at hboundary
    obtain ⟨request, hrequest, hsubject, payload, hpayload, _, hexpected, rfl, rfl⟩ := hboundary
    rw [hrequest]
    cases execute_executed (s := .deleteStopRequest request.digest) hremove
    rw [hsame, hrequest]
    rw [show (some request).filter (fun r => decide (r.digest ≠ request.digest)) = none by simp]
    exact .settled ⟨hkind, hsubject, hpayload.trans hexpected.symm⟩
  · next hkind =>
    simp only [bind_eq_ok, failIf_eq_ok, exists_unit, pure_eq_ok] at hboundary
    obtain ⟨hadmits, rfl⟩ := hboundary
    obtain rfl := Except.ok.inj hremove
    rw [hsame]
    refine .kept hkind fun hpending hforbidden => hadmits ⟨?_, hforbidden⟩
    exact Option.isSome_iff_ne_none.mpr hpending

/-! ## Items -/

/-- **An event is the one its input compiles to**, in its own place of the
journal. -/
def Compiles (identity : ControlRecordStoreIdentity) (input : ControlRecordEventInput)
    (event : ControlRecordEvent) : Prop :=
  compileControlRecordEvent identity.storeId identity.processId event.sequence
    event.predecessorDigest input = .ok event

theorem compileControlRecordEvent_place {storeId processId : String} {sequence : Nat}
    {predecessor : Option Sha256Digest} {input : ControlRecordEventInput}
    {event : ControlRecordEvent}
    (h : compileControlRecordEvent storeId processId sequence predecessor input = .ok event) :
    event.eventId = input.eventId ∧ event.sequence = sequence
      ∧ event.predecessorDigest = predecessor := by
  simp only [compileControlRecordEvent, bind_eq_ok, failIf_eq_ok, exists_unit, pure_eq_ok] at h
  obtain ⟨-, -, _, -, -, _, -, _, -, _, -, _, -, _, -, _, -, _, -, rfl⟩ := h
  exact ⟨rfl, rfl, rfl⟩

/-- **What appending an item has done.** -/
structure AppendsItem (w : StoreWork) (item : CompiledAppend) (event : ControlRecordEvent)
    (w' : StoreWork) : Prop where
  writes : Writes ControlStatement.Journal w.db w'.db
  events : w'.db.events = w.db.events ++ [event]
  appends : w'.appends = w.appends ++ [⟨item.revision, event⟩]
  handle : w'.handle = w.handle
  disposition : w'.disposition = w.disposition
  compiled : Compiles w.db.identity item.input.event event
  sequence : event.sequence = w.db.lastSequence + 1
  replayed : append (resolver w'.db) w.replay event = .ok w'.replay
  stop : StopStep w.db.stopRequest event w'.db.stopRequest
  revision : ∀ r ∈ item.revision, getRevision w'.db r.recordId r.revision = some r

/-- **An item is appended.** -/
theorem appendItem_appends {item : CompiledAppend} {rest : List CompiledAppend}
    (hqueue : w.queue = item :: rest) (h : appendItem profiles w = .ok w') :
    w'.queue = rest ∧ ∃ event, AppendsItem w item event w' := by
  rw [appendItem, hqueue] at h
  obtain ⟨db₁, hrevision, h⟩ := bind_eq_ok.mp h
  simp only [retainEvent, bind_eq_ok, exists_unit, lifted_eq_ok, pure_eq_ok] at h
  obtain ⟨_, -, -, event, hcompiled, -, -, settled, hboundary, replay, hreplay, db₂, hinsert, db₃,
    hremove, -, rfl⟩ := h
  obtain ⟨hrevising, hretained⟩ := retainItemRevision_retains hrevision
  obtain ⟨hevents, hstop⟩ := hrevising.revising_frame
  have hjournal : Writes ControlStatement.Journal db₁ db₂ :=
    .single (s := .insertEvent event) trivial hinsert
  have hremoved : Writes ControlStatement.Journal db₂ db₃ ∧ db₃.events = db₂.events
      ∧ db₃.revisions = db₂.revisions := by
    cases settled with
    | none =>
      obtain rfl := Except.ok.inj hremove
      exact ⟨.refl, rfl, rfl⟩
    | some request =>
      refine ⟨.single (s := .deleteStopRequest request.digest) trivial hremove, ?_⟩
      cases execute_executed (s := .deleteStopRequest request.digest) hremove
      exact ⟨rfl, rfl⟩
  obtain ⟨hlast, hevents₃, hrevisions₃⟩ := hremoved
  -- The replay read the revisions the item leaves.
  have hresolver : resolver db₁ = resolver db₃ := by
    funext subject
    unfold resolver getRevision
    rw [hrevisions₃]
    cases execute_executed hinsert
    rfl
  have hgrows := (hjournal.trans hlast).grows
  refine ⟨rfl, event, ?_⟩
  constructor
  · exact (hrevising.mono fun _ => ControlStatement.Revising.journal).trans
      (hjournal.trans hlast)
  · rw [hevents₃]
    cases execute_executed hinsert
    rw [hevents]
  · rfl
  · rfl
  · rfl
  · obtain ⟨-, hsequence, hpredecessor⟩ := compileControlRecordEvent_place hcompiled
    rw [Compiles, hsequence, hpredecessor, ← hrevising.grows.identity]
    exact hcompiled
  · have hsequence : event.sequence = db₁.lastSequence + 1 := by
      cases execute_executed hinsert with
      | event _ hsequence => exact hsequence
    rw [hsequence, ControlDatabase.lastSequence, ControlDatabase.lastSequence, headRow, headRow,
      hevents]
  · rw [← hresolver]
    exact hreplay
  · rw [← hstop]
    refine stopStep_of_boundary hboundary ?_ hremove
    cases execute_executed hinsert
    rfl
  · exact fun r hr => hgrows.getRevision (hretained r hr)

/-- **What appending the items of a batch has done**: one event each. -/
inductive Appends : StoreWork → List CompiledAppend → List ControlRecordEvent → StoreWork → Prop
  | nil {w : StoreWork} : Appends w [] [] w
  | cons {w w₁ w' : StoreWork} {item : CompiledAppend} {items : List CompiledAppend}
      {event : ControlRecordEvent} {events : List ControlRecordEvent} :
      AppendsItem w item event w₁ → Appends w₁ items events w' →
      Appends w (item :: items) (event :: events) w'

/-- The items of a batch are appended one by one. -/
theorem appendItems_appends {α : Type} {inputs : List α}
    (hlength : w.queue.length = inputs.length)
    (h : runStatements w (inputs.map fun _ => appendItem profiles) = .ok w') :
    w'.queue = [] ∧ ∃ events, Appends w w.queue events w' := by
  induction inputs generalizing w with
  | nil =>
    obtain rfl := Except.ok.inj h
    have hnone : w.queue = [] := List.length_eq_zero_iff.mp hlength
    rw [hnone]
    exact ⟨rfl, [], .nil⟩
  | cons input inputs ih =>
    obtain ⟨w₁, hfirst, hrest⟩ := bind_eq_ok.mp h
    cases hqueue : w.queue with
    | nil =>
      rw [hqueue] at hlength
      cases hlength
    | cons item rest =>
      obtain ⟨hrestQueue, event, hitem⟩ := appendItem_appends hqueue hfirst
      rw [hqueue, List.length_cons, List.length_cons, Nat.succ_inj] at hlength
      obtain ⟨hend, events, hevents⟩ := ih (by rw [hrestQueue, hlength]) hrest
      exact ⟨hend, event :: events, .cons hitem (hrestQueue ▸ hevents)⟩

/-- An empty queue is left alone. -/
theorem appendItems_of_empty {α : Type} {inputs : List α} (hqueue : w.queue = [])
    (h : runStatements w (inputs.map fun _ => appendItem profiles) = .ok w') : w' = w := by
  induction inputs with
  | nil => exact (Except.ok.inj h).symm
  | cons input inputs ih =>
    obtain ⟨w₁, hfirst, hrest⟩ := bind_eq_ok.mp h
    have hfirst : appendItem profiles w = .ok w₁ := hfirst
    rw [appendItem, hqueue] at hfirst
    obtain rfl := Except.ok.inj hfirst
    exact ih hrest

namespace Appends

variable {items : List CompiledAppend} {events : List ControlRecordEvent}

theorem writes (h : Appends w items events w') : Writes ControlStatement.Journal w.db w'.db := by
  induction h with
  | nil => exact .refl
  | cons hitem _ ih => exact hitem.writes.trans ih

theorem events_eq (h : Appends w items events w') :
    w'.db.events = w.db.events ++ events := by
  induction h with
  | nil => rw [List.append_nil]
  | cons hitem _ ih => rw [ih, hitem.events, List.append_assoc, List.singleton_append]

theorem handle_eq (h : Appends w items events w') : w'.handle = w.handle := by
  induction h with
  | nil => rfl
  | cons hitem _ ih => rw [ih, hitem.handle]

theorem disposition_eq (h : Appends w items events w') : w'.disposition = w.disposition := by
  induction h with
  | nil => rfl
  | cons hitem _ ih => rw [ih, hitem.disposition]

/-- **The events of a batch are those of its items**, in their order. -/
theorem compiled (h : Appends w items events w') :
    List.Forall₂ (fun item event => Compiles w.db.identity item.input.event event) items
      events := by
  induction h with
  | nil => exact .nil
  | cons hitem _ ih =>
    rw [hitem.writes.grows.identity] at ih
    exact .cons hitem.compiled ih

/-- The revisions of a batch are retained. -/
theorem revisions (h : Appends w items events w') :
    ∀ item ∈ items, ∀ r ∈ item.revision,
      getRevision w'.db r.recordId r.revision = some r := by
  induction h with
  | nil => exact fun _ hitem => nomatch hitem
  | cons hitem hrest ih =>
    intro item hmem r hr
    rcases List.mem_cons.mp hmem with rfl | hmem
    · exact hrest.writes.grows.getRevision (hitem.revision r hr)
    · exact ih item hmem r hr

end Appends

/-! ## Batches -/

/-- **An append is retained**: its event is in the journal, with the content
its input compiles to, and so is its revision. -/
def Retained (db : ControlDatabase) (input : ControlRecordStoreAppend) : Prop :=
  (∃ event ∈ db.events, event.eventId = input.event.eventId ∧
    ∃ reproduced, compileControlRecordEvent db.identity.storeId db.identity.processId
      event.sequence event.predecessorDigest input.event = .ok reproduced
        ∧ reproduced.digest = event.digest)
  ∧ ∀ r ∈ input.revision, ∃ compiled retained,
    compileControlRecordRevision db.identity.processId r = .ok compiled
      ∧ getRevision db compiled.recordId compiled.revision = some retained
      ∧ retained.digest = compiled.digest

/-- **The outcome of a batch.** -/
inductive BatchOutcome (inputs : List ControlRecordStoreAppend) (w w' : StoreWork) : Prop
  | retained : w'.db = w.db → w'.handle = w.handle → w'.replay = w.replay →
      w'.disposition = .retained → (∀ input ∈ inputs, Retained w.db input) → BatchOutcome inputs w w'
  | appended (w₁ : StoreWork) (items : List CompiledAppend) (events : List ControlRecordEvent) :
      compileAppends w.db.identity inputs = .ok items → w.db.storeSeal = none →
      w₁.db = w.db → w₁.replay = w.replay → w₁.handle = w.handle → w₁.disposition = .appended →
      Appends w₁ items events w' → BatchOutcome inputs w w'

/-- The item an append compiles to. -/
def ItemOf (identity : ControlRecordStoreIdentity) (input : ControlRecordStoreAppend)
    (item : CompiledAppend) : Prop :=
  item.input = input ∧ (input.revision = none → item.revision = none)
    ∧ ∀ r ∈ input.revision, ∃ compiled,
      compileControlRecordRevision identity.processId r = .ok compiled
        ∧ item.revision = some compiled

theorem compileAppend_itemOf {identity : ControlRecordStoreIdentity}
    {input : ControlRecordStoreAppend} {item : CompiledAppend}
    (h : compileAppend identity input = .ok item) : ItemOf identity input item := by
  unfold compileAppend at h
  split at h
  · next hnone =>
    obtain rfl := Except.ok.inj h
    refine ⟨rfl, fun _ => rfl, fun r hr => ?_⟩
    rw [hnone] at hr
    cases hr
  · next r hsome =>
    simp only [bind_eq_ok, exists_unit, pure_eq_ok] at h
    obtain ⟨compiled, hcompiled, -, rfl⟩ := h
    refine ⟨rfl, fun hnone => absurd (hsome.symm.trans hnone) (Option.some_ne_none _), ?_⟩
    intro r' hr'
    rw [hsome] at hr'
    obtain rfl := Option.some.inj hr'
    exact ⟨compiled, hcompiled, rfl⟩

/-- Every member on the left has its partner on the right. -/
theorem exists_partner {α β : Type} {R : α → β → Prop} {xs : List α} {ys : List β}
    (h : List.Forall₂ R xs ys) {x : α} (hx : x ∈ xs) : ∃ y ∈ ys, R x y := by
  induction h with
  | nil => cases hx
  | cons hfirst _ ih =>
    rcases List.mem_cons.mp hx with rfl | hx
    · exact ⟨_, List.mem_cons_self, hfirst⟩
    · obtain ⟨y, hy, hR⟩ := ih hx
      exact ⟨y, List.mem_cons_of_mem _ hy, hR⟩

theorem compileAppends_items {identity : ControlRecordStoreIdentity}
    {inputs : List ControlRecordStoreAppend} {items : List CompiledAppend}
    (h : compileAppends identity inputs = .ok items) :
    inputs ≠ [] ∧ List.Forall₂ (ItemOf identity) inputs items := by
  simp only [compileAppends, bind_eq_ok, failIf_eq_ok, exists_unit, pure_eq_ok] at h
  obtain ⟨hbound, _, hcompiled, -, rfl⟩ := h
  refine ⟨?_, (mapM_eq_ok_iff.mp hcompiled).imp fun _ _ => compileAppend_itemOf⟩
  rintro rfl
  exact hbound (.inl Nat.zero_lt_one)

/-- What a retained item has been found to be. -/
def RetainedItem (db : ControlDatabase) (item : CompiledAppend) (event : ControlRecordEvent) :
    Prop :=
  (∃ reproduced, compileControlRecordEvent db.identity.storeId db.identity.processId
      event.sequence event.predecessorDigest item.input.event = .ok reproduced
        ∧ reproduced.digest = event.digest)
  ∧ ∀ r ∈ item.revision, ∃ retained, getRevision db r.recordId r.revision = some retained
      ∧ retained.digest = r.digest

theorem retainedAppend_retained {previous : Option ControlRecordEvent} {item : CompiledAppend}
    {existing : ControlRecordEvent} {result : ControlRecordStoreAppendResult}
    (h : retainedAppend profiles db previous item existing = .ok result) :
    RetainedItem db item existing := by
  simp only [retainedAppend, bind_eq_ok, failIf_eq_ok, exists_unit, not_not] at h
  obtain ⟨-, reproduced, hreproduced, -, hdigest, -, h⟩ := h
  refine ⟨⟨reproduced, hreproduced, hdigest⟩, fun r hr => ?_⟩
  cases hrevision : item.revision with
  | none =>
    rw [hrevision] at hr
    cases hr
  | some compiled =>
    rw [hrevision] at hr h
    obtain rfl := Option.some.inj hr
    simp only [bind_eq_ok, orFail_eq_ok] at h
    obtain ⟨retained, hfound, -⟩ := h
    rw [Option.filter_eq_some_iff, decide_eq_true_eq] at hfound
    exact ⟨retained, hfound⟩

theorem retainedAppends_retained {previous : Option ControlRecordEvent}
    {rows : List (CompiledAppend × ControlRecordEvent)}
    {results : List ControlRecordStoreAppendResult}
    (h : retainedAppends profiles db previous rows = .ok results) :
    ∀ row ∈ rows, RetainedItem db row.1 row.2 := by
  induction rows generalizing previous results with
  | nil => exact fun _ hrow => nomatch hrow
  | cons row rows ih =>
    simp only [retainedAppends, bind_eq_ok] at h
    obtain ⟨_, hfirst, _, hrest, -⟩ := h
    intro row' hrow'
    rcases List.mem_cons.mp hrow' with rfl | hrow'
    · exact retainedAppend_retained hfirst
    · exact ih hrest row' hrow'

/-- **A batch all of whose rows are found is retained.** -/
theorem retained_of_rows {inputs : List ControlRecordStoreAppend} {items : List CompiledAppend}
    {results : List ControlRecordStoreAppendResult}
    (hitems : List.Forall₂ (ItemOf db.identity) inputs items)
    (hrows : (retainedRows db items).length = items.length)
    (h : retainedAppends profiles db none (retainedRows db items) = .ok results) :
    ∀ input ∈ inputs, Retained db input := by
  have hfound := List.filterMap_length_eq_length.mp hrows
  have hretained := retainedAppends_retained h
  intro input hinput
  obtain ⟨item, hitem, rfl, -, hrevision⟩ := exists_partner hitems hinput
  obtain ⟨row, hrow⟩ := Option.isSome_iff_exists.mp (hfound item hitem)
  obtain ⟨event, hevent, rfl⟩ := Option.map_eq_some_iff.mp hrow
  obtain ⟨hreproduced, hrevisions⟩ :=
    hretained (item, event) (List.mem_filterMap.mpr ⟨item, hitem, hrow⟩)
  rw [eventRow] at hevent
  have hid := List.find?_some hevent
  rw [decide_eq_true_eq] at hid
  refine ⟨⟨event, List.mem_of_find?_eq_some hevent, hid, hreproduced⟩, fun r hr => ?_⟩
  obtain ⟨compiled, hcompiled, hrevised⟩ := hrevision r hr
  obtain ⟨retained, hkept, hdigest⟩ := hrevisions compiled hrevised
  exact ⟨compiled, retained, hcompiled, hkept, hdigest⟩

/-- **A batch has its outcome.** -/
theorem batchOutcome {inputs : List ControlRecordStoreAppend}
    {expected : Option PendingFileBatch}
    (h : runStatements w (appendStatements profiles inputs expected) = .ok w') :
    BatchOutcome inputs w w' := by
  rw [appendStatements, List.cons_append] at h
  obtain ⟨w₁, hresolve, h⟩ := bind_eq_ok.mp h
  obtain ⟨w₂, hitems, hlast⟩ := replay_append_eq_ok.mp h
  have hsame : w₂ = w' := by
    simp only [replay_cons, replay_nil, bind_eq_ok, lifted_eq_ok, assertStandingBriefs, pure_eq_ok]
      at hlast
    obtain ⟨_, ⟨_, -, rfl⟩, hnil⟩ := hlast
    exact Except.ok.inj hnil
  subst hsame
  simp only [lifted_eq_ok, resolveAppends, bind_eq_ok, exists_unit] at hresolve
  obtain ⟨items, hcompiled, -, hresolve⟩ := hresolve
  obtain ⟨-, hforall⟩ := compileAppends_items hcompiled
  split at hresolve
  · simp only [beginAppends, bind_eq_ok, failIf_eq_ok, exists_unit, pure_eq_ok, isSome_ne_true]
      at hresolve
    obtain ⟨hopen, -, rfl⟩ := hresolve
    obtain ⟨-, events, happends⟩ := appendItems_appends hforall.length_eq.symm hitems
    refine .appended _ items events hcompiled hopen ?_ ?_ ?_ ?_ happends <;> rfl
  · simp only [bind_eq_ok, failIf_eq_ok, exists_unit, pure_eq_ok, not_not] at hresolve
    obtain ⟨hrows, _, hretained, rfl⟩ := hresolve
    obtain rfl := appendItems_of_empty rfl hitems
    exact .retained rfl rfl rfl rfl (retained_of_rows hforall hrows hretained)
