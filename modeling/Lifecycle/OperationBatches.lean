import Lifecycle.StoreSeal

/-!
# Operation batches

A batch of appends and mutations of operation support is one transaction:
its events and its mutations are all committed or none is (`BatchCommit`).
A mutation takes effect on the row it expects, absent or live at one
coordinate, and on no other (`SupportStep`); so every put raises the
generation of its activity by one, and a disposed row, which stands where no
put expects it, is never written again.
-/

open Fallible Json ControlModel ControlStore Transactions TransactionBody

variable {profiles : String → Schema} {db db' : ControlDatabase} {w w' : StoreWork}

/-! ## Mutations and rows -/

namespace ControlRecordOperationSupportMutation

/-- The activity of a mutation. -/
def activityId : ControlRecordOperationSupportMutation → String
  | .put input => input.activityId
  | .delete activityId _ => activityId

/-- The coordinate a mutation expects, when it expects one. -/
def expected :
    ControlRecordOperationSupportMutation → Option ControlRecordOperationSupportCoordinate
  | .put input => input.expected
  | .delete _ expected => some expected

/-- **What a mutation makes of the row of its activity.** -/
def Makes : ControlRecordOperationSupportMutation → Option RetainedOperationSupport → Prop
  | .put input, row => ∃ s, row = some (.live s) ∧ s.generation = nextGeneration input.expected
      ∧ s.supportKind = input.supportKind
      ∧ canonicalControlJsonObject input.payload "Operation support payload" = .ok s.payloadJson
      ∧ s.payloadDigest = sha256Bytes s.payloadJson
  | .delete _ expected, row => ∃ t, row = some (.deleted t) ∧ t.deleted = expected

end ControlRecordOperationSupportMutation

/-- **A row stands where it is expected**: absent, or live at the
coordinate. -/
def StandsWhere (row : Option RetainedOperationSupport) :
    Option ControlRecordOperationSupportCoordinate → Prop
  | none => row = none
  | some expected => ∃ s, row = some (.live s) ∧ s.generation = expected.generation
      ∧ s.payloadDigest = expected.payloadDigest

/-- A disposed row stands nowhere. -/
theorem not_standsWhere_deleted {t : OperationSupportTombstone}
    {expected : Option ControlRecordOperationSupportCoordinate} :
    ¬ StandsWhere (some (.deleted t)) expected := by
  cases expected with
  | none => exact Option.some_ne_none _
  | some expected =>
    rintro ⟨s, hs, -⟩
    cases hs

/-! ## Prepared mutations -/

variable {identity : ControlRecordStoreIdentity}
  {mutation : ControlRecordOperationSupportMutation}
  {prepared : PreparedOperationSupportMutation}

/-- A prepared coordinate is the one that was given. -/
theorem operationSupportCoordinate_eq {value c : ControlRecordOperationSupportCoordinate}
    {label : String} (h : operationSupportCoordinate value label = .ok c) : c = value := by
  simp only [operationSupportCoordinate, bind_eq_ok, failIf_eq_ok, exists_unit, pure_eq_ok] at h
  exact h.2.2.symm

theorem expectedCoordinate_eq {value c : Option ControlRecordOperationSupportCoordinate}
    (h : expectedCoordinate value = .ok c) : c = value := by
  cases value with
  | none => exact (Except.ok.inj h).symm
  | some value =>
    simp only [expectedCoordinate, bind_eq_ok, failIf_eq_ok, exists_unit, pure_eq_ok] at h
    obtain ⟨expected, hexpected, -, rfl⟩ := h
    rw [operationSupportCoordinate_eq hexpected]

/-- **What a prepared put is.** -/
theorem prepareOperationSupportPut_eq {input : ControlRecordOperationSupportPut}
    {value : PreparedOperationSupportPut}
    (h : prepareOperationSupportPut identity input = .ok value) :
    value.activityId = input.activityId ∧ value.expected = input.expected
      ∧ value.result.activityId = input.activityId
      ∧ ControlRecordOperationSupportMutation.Makes (.put input) (some (.live value.result)) := by
  simp only [prepareOperationSupportPut, bind_eq_ok, pure_eq_ok, controlIdentifier_eq_ok,
    controlRecordKind, failIf_eq_ok, exists_unit] at h
  obtain ⟨_, ⟨-, rfl⟩, _, ⟨-, rfl⟩, payloadJson, hpayload, expected, hexpected, rfl⟩ := h
  obtain rfl := expectedCoordinate_eq hexpected
  exact ⟨rfl, rfl, rfl, _, rfl, rfl, rfl, hpayload, rfl⟩

/-- What a prepared deletion is. -/
theorem prepareOperationSupportDelete_eq {activityId : String}
    {expected : ControlRecordOperationSupportCoordinate} {value : PreparedOperationSupportDelete}
    (h : prepareOperationSupportDelete activityId expected = .ok value) :
    value = ⟨activityId, expected⟩ := by
  simp only [prepareOperationSupportDelete, bind_eq_ok, pure_eq_ok, controlIdentifier_eq_ok] at h
  obtain ⟨_, ⟨-, rfl⟩, _, hexpected, rfl⟩ := h
  rw [operationSupportCoordinate_eq hexpected]

theorem prepared_activityId
    (h : prepareOperationSupportMutation identity mutation = .ok prepared) :
    prepared.activityId = mutation.activityId := by
  cases mutation with
  | put input =>
    simp only [prepareOperationSupportMutation, bind_eq_ok, pure_eq_ok] at h
    obtain ⟨value, hvalue, rfl⟩ := h
    exact (prepareOperationSupportPut_eq hvalue).1
  | delete activityId expected =>
    simp only [prepareOperationSupportMutation, bind_eq_ok, pure_eq_ok] at h
    obtain ⟨value, hvalue, rfl⟩ := h
    rw [prepareOperationSupportDelete_eq hvalue]
    rfl

/-- The mutations of a batch are of different activities. -/
theorem prepareMutations_nodup {mutations : List ControlRecordOperationSupportMutation}
    {prepared : List PreparedOperationSupportMutation}
    (h : prepareMutations identity mutations = .ok prepared) :
    (mutations.map (·.activityId)).Nodup := by
  simp only [prepareMutations, bind_eq_ok, failIf_eq_ok, exists_unit, pure_eq_ok, not_not] at h
  obtain ⟨-, values, hvalues, hnodup, -⟩ := h
  have hsame : values.map (·.activityId) = mutations.map (·.activityId) := by
    rw [mapM_eq_ok_iff] at hvalues
    clear hnodup
    induction hvalues with
    | nil => rfl
    | cons hfirst _ ih => rw [List.map_cons, List.map_cons, ih, prepared_activityId hfirst]
  rwa [hsame] at hnodup

/-! ## One mutation -/

/-- A disposed row is disposed at the coordinate it was deleted from. -/
theorem exists_of_disposes {expected : ControlRecordOperationSupportCoordinate}
    {row : Option RetainedOperationSupport} (h : disposes expected row = true) :
    ∃ t, row = some (.deleted t) ∧ t.deleted = expected := by
  unfold disposes at h
  split at h
  · next t =>
    rw [decide_eq_true_eq] at h
    exact ⟨t, rfl, h⟩
  · cases h

/-- **A postcondition that holds** is the row the mutation makes. -/
theorem makes_of_postcondition
    (hprepared : prepareOperationSupportMutation identity mutation = .ok prepared)
    (h : operationSupportPostcondition db prepared = .ok true) :
    mutation.Makes (db.support.get mutation.activityId) := by
  have hactivity := prepared_activityId hprepared
  obtain ⟨row, hrow, h⟩ := bind_eq_ok.mp h
  rw [hactivity] at hrow
  rw [getRetainedOperationSupport_eq_ok hrow]
  cases mutation with
  | put input =>
    simp only [prepareOperationSupportMutation, bind_eq_ok, pure_eq_ok] at hprepared
    obtain ⟨value, hvalue, rfl⟩ := hprepared
    have hrow := of_decide_eq_true (Except.ok.inj h)
    rw [hrow]
    exact (prepareOperationSupportPut_eq hvalue).2.2.2
  | delete activityId expected =>
    simp only [prepareOperationSupportMutation, bind_eq_ok, pure_eq_ok] at hprepared
    obtain ⟨value, hvalue, rfl⟩ := hprepared
    obtain rfl := prepareOperationSupportDelete_eq hvalue
    exact exists_of_disposes (Except.ok.inj h)

/-- **What a mutation does to the rows**: its own stood where it was
expected and is what the mutation makes, every other is as it was. -/
structure SupportStep (mutation : ControlRecordOperationSupportMutation)
    (db db' : ControlDatabase) : Prop where
  stood : StandsWhere (db.support.get mutation.activityId) mutation.expected
  makes : mutation.Makes (db'.support.get mutation.activityId)
  others : ∀ activityId, activityId ≠ mutation.activityId →
    db'.support.get activityId = db.support.get activityId

/-- The rows of other activities, under a support statement. -/
theorem Executed.support_others {s : ControlStatement} (h : Executed db s db')
    {activityId : String} (hs : s.Support)
    (hactivity : ∀ support, s = .insertSupport support → support.activityId = activityId)
    (hupdate : ∀ other expected row, s = .updateSupport other expected row → other = activityId) :
    ∀ other, other ≠ activityId → db'.support.get other = db.support.get other := by
  intro other hother
  cases h with
  | @support support =>
    obtain rfl := hactivity support rfl
    exact OrderedMap.get_set_of_ne hother
  | @supportAdvanced updated expected _ row =>
    obtain rfl := hupdate updated expected row rfl
    exact OrderedMap.get_set_of_ne hother
  | supportMissed => rfl
  | _ => exact hs.elim

theorem standsWhere_of_replaces {value : PreparedOperationSupportPut}
    {expected : ControlRecordOperationSupportCoordinate} {row : Option RetainedOperationSupport}
    (h : replaces value expected row = true) : StandsWhere row (some expected) := by
  unfold replaces at h
  split at h
  · next s =>
    rw [Bool.and_eq_true, Bool.and_eq_true, decide_eq_true_eq, decide_eq_true_eq,
      decide_eq_true_eq] at h
    exact ⟨s, rfl, h.1.2, h.2⟩
  · cases h

theorem standsWhere_of_liveAt {expected : ControlRecordOperationSupportCoordinate}
    {row : Option RetainedOperationSupport} {s : ControlRecordOperationSupport}
    (h : liveAt expected row = some s) : StandsWhere row (some expected) := by
  unfold liveAt at h
  split at h
  · next live =>
    split at h
    · next hsame => exact ⟨live, rfl, hsame⟩
    · cases h
  · cases h

/-- A put finds the row it expects, and touches no other. -/
theorem writeSupport_step {value : PreparedOperationSupportPut}
    {current : Option RetainedOperationSupport}
    (hactivity : value.result.activityId = value.activityId)
    (h : writeSupport db value current = .ok db') :
    StandsWhere current value.expected ∧ ∀ other, other ≠ value.activityId →
      db'.support.get other = db.support.get other := by
  unfold writeSupport at h
  split at h
  · next hexpected =>
    simp only [createSupport, bind_eq_ok, failIf_eq_ok, exists_unit, isSome_ne_true] at h
    obtain ⟨hnone, -, -, hexecute⟩ := h
    rw [hexpected]
    refine ⟨hnone, (execute_executed hexecute).support_others trivial ?_ ?_⟩
    · intro support hsupport
      obtain rfl := ControlStatement.insertSupport.inj hsupport
      exact hactivity
    · intro other _ _ hupdate
      cases hupdate
  · next expected hexpected =>
    simp only [advanceSupport, bind_eq_ok, failIf_eq_ok, exists_unit, pure_eq_ok,
      Bool.not_eq_false] at h
    obtain ⟨hreplaces, _, hexecute, -, rfl⟩ := h
    rw [hexpected]
    refine ⟨standsWhere_of_replaces hreplaces,
      (execute_executed hexecute).support_others trivial ?_ ?_⟩
    · intro support hinsert
      cases hinsert
    · intro other _ _ hupdate
      exact (ControlStatement.updateSupport.inj hupdate).1.symm

/-- **One mutation is one step of its row.** -/
theorem mutateSupport_step
    (hprepared : prepareOperationSupportMutation identity mutation = .ok prepared)
    (h : mutateSupport db prepared = .ok db') : SupportStep mutation db db' := by
  cases mutation with
  | put input =>
    simp only [prepareOperationSupportMutation, bind_eq_ok, pure_eq_ok] at hprepared
    obtain ⟨value, hvalue, rfl⟩ := hprepared
    obtain ⟨hactivity, hexpected, hresult, hmakes⟩ := prepareOperationSupportPut_eq hvalue
    simp only [mutateSupport, putOperationSupportInTransaction, bind_eq_ok, failIf_eq_ok,
      exists_unit, pure_eq_ok, lifted_eq_ok, not_not] at h
    obtain ⟨current, hcurrent, next, hwrite, retained, hretained, hwritten, rfl⟩ := h
    obtain ⟨hstood, hothers⟩ := writeSupport_step (hresult.trans hactivity.symm) hwrite
    rw [hactivity] at hcurrent hretained hothers
    refine ⟨?_, ?_, hothers⟩
    · show StandsWhere (db.support.get input.activityId) input.expected
      rw [getRetainedOperationSupport_eq_ok hcurrent, ← hexpected]
      exact hstood
    · show ControlRecordOperationSupportMutation.Makes (.put input)
        (next.support.get input.activityId)
      rw [getRetainedOperationSupport_eq_ok hretained, hwritten]
      exact hmakes
  | delete activityId expected =>
    simp only [prepareOperationSupportMutation, bind_eq_ok, pure_eq_ok] at hprepared
    obtain ⟨value, hvalue, rfl⟩ := hprepared
    obtain rfl := prepareOperationSupportDelete_eq hvalue
    simp only [mutateSupport, deleteOperationSupportInTransaction, bind_eq_ok, failIf_eq_ok,
      orFail_eq_ok, exists_unit, pure_eq_ok, lifted_eq_ok, Bool.not_eq_false] at h
    obtain ⟨current, hcurrent, s, hlive, -, next, hexecute, -, retained, hretained, hdisposes,
      rfl⟩ := h
    refine ⟨?_, ?_, (execute_executed hexecute).support_others trivial ?_ ?_⟩
    · show StandsWhere (db.support.get activityId) (some expected)
      rw [getRetainedOperationSupport_eq_ok hcurrent]
      exact standsWhere_of_liveAt hlive
    · show ControlRecordOperationSupportMutation.Makes (.delete activityId expected)
        (next.support.get activityId)
      rw [getRetainedOperationSupport_eq_ok hretained]
      exact exists_of_disposes hdisposes
    · intro support hinsert
      cases hinsert
    · intro other _ _ hupdate
      exact (ControlStatement.updateSupport.inj hupdate).1.symm

/-! ## The mutations of a batch -/

/-- **What the mutations of a batch do to the rows.** -/
structure SupportSteps (mutations : List ControlRecordOperationSupportMutation)
    (db db' : ControlDatabase) : Prop where
  stood : ∀ mutation ∈ mutations,
    StandsWhere (db.support.get mutation.activityId) mutation.expected
  makes : ∀ mutation ∈ mutations, mutation.Makes (db'.support.get mutation.activityId)
  others : ∀ activityId, activityId ∉ mutations.map (·.activityId) →
    db'.support.get activityId = db.support.get activityId

theorem SupportSteps.nil : SupportSteps [] db db :=
  ⟨fun _ hmem => (nomatch hmem), fun _ hmem => (nomatch hmem), fun _ _ => rfl⟩

/-- The mutations of a batch do not meet, so each is a step of its own. -/
theorem SupportSteps.cons {db'' : ControlDatabase}
    {mutations : List ControlRecordOperationSupportMutation} (h : SupportStep mutation db db')
    (hrest : SupportSteps mutations db' db'')
    (hnew : mutation.activityId ∉ mutations.map (·.activityId)) :
    SupportSteps (mutation :: mutations) db db'' where
  stood other hother := by
    rcases List.mem_cons.mp hother with rfl | hother
    · exact h.stood
    · have hne : other.activityId ≠ mutation.activityId := by
        intro heq
        rw [← heq] at hnew
        exact hnew (List.mem_map_of_mem hother)
      rw [← h.others _ hne]
      exact hrest.stood other hother
  makes other hother := by
    rcases List.mem_cons.mp hother with rfl | hother
    · rw [hrest.others _ hnew]
      exact h.makes
    · exact hrest.makes other hother
  others activityId hactivity := by
    rw [List.map_cons, List.mem_cons, not_or] at hactivity
    rw [hrest.others _ hactivity.2, h.others _ hactivity.1]

theorem resolveMutation_step (h : resolveMutation mutation w = .ok w') :
    (w.disposition = .appended → SupportStep mutation w.db w'.db)
      ∧ (w.disposition ≠ .appended →
        w' = w ∧ mutation.Makes (w.db.support.get mutation.activityId)) := by
  simp only [resolveMutation, bind_eq_ok, lifted_eq_ok] at h
  obtain ⟨prepared, hprepared, holds, hholds, h⟩ := h
  split at h
  · next happended =>
    simp only [bind_eq_ok, failIf_eq_ok, exists_unit, pure_eq_ok] at h
    obtain ⟨-, next, hmutate, rfl⟩ := h
    exact ⟨fun _ => mutateSupport_step hprepared hmutate, fun hne => absurd happended hne⟩
  · next hretained =>
    simp only [bind_eq_ok, failIf_eq_ok, exists_unit, pure_eq_ok, Bool.not_eq_false] at h
    obtain ⟨rfl, rfl⟩ := h
    exact ⟨fun happended => absurd happended hretained,
      fun _ => ⟨rfl, makes_of_postcondition hprepared hholds⟩⟩

/-- The mutations of a fresh batch are carried out. -/
theorem resolveMutations_step {mutations : List ControlRecordOperationSupportMutation}
    (hnodup : (mutations.map (·.activityId)).Nodup) (happended : w.disposition = .appended)
    (h : runStatements w (mutations.map resolveMutation) = .ok w') :
    SupportSteps mutations w.db w'.db := by
  induction mutations generalizing w with
  | nil =>
    obtain rfl := Except.ok.inj h
    exact .nil
  | cons mutation mutations ih =>
    rw [List.map_cons, List.nodup_cons] at hnodup
    obtain ⟨w₁, hfirst, hrest⟩ := bind_eq_ok.mp h
    have hsame : w₁.disposition = w.disposition := by
      rw [(resolveMutation_writes hfirst).2]
    exact .cons ((resolveMutation_step hfirst).1 happended)
      (ih hnodup.2 (hsame.trans happended) hrest) hnodup.1

/-- The mutations of a retained batch are found carried out. -/
theorem resolveMutations_found {mutations : List ControlRecordOperationSupportMutation}
    (hretained : w.disposition ≠ .appended)
    (h : runStatements w (mutations.map resolveMutation) = .ok w') :
    w' = w ∧ ∀ mutation ∈ mutations,
      mutation.Makes (w.db.support.get mutation.activityId) := by
  induction mutations generalizing w with
  | nil => exact ⟨(Except.ok.inj h).symm, fun _ hmem => nomatch hmem⟩
  | cons mutation mutations ih =>
    obtain ⟨w₁, hfirst, hrest⟩ := bind_eq_ok.mp h
    obtain ⟨rfl, hmakes⟩ := (resolveMutation_step hfirst).2 hretained
    obtain ⟨heq, hothers⟩ := ih hretained hrest
    refine ⟨heq, fun other hother => ?_⟩
    rcases List.mem_cons.mp hother with rfl | hother
    · exact hmakes
    · exact hothers other hother

/-! ## Batches -/

/-- **What a committed batch is**: one that was committed before, with all
its appends and mutations, or one that is committed now, with all of
them. -/
inductive BatchCommit (mutations : List ControlRecordOperationSupportMutation)
    (appends : List ControlRecordStoreAppend) (db db' : ControlDatabase) : Prop
  | retained : db' = db → (∀ input ∈ appends, Retained db input) →
      (∀ mutation ∈ mutations, mutation.Makes (db.support.get mutation.activityId)) →
      BatchCommit mutations appends db db'
  | performed (events : List ControlRecordEvent) : db'.events = db.events ++ events →
      List.Forall₂ (fun input event => Compiles db.identity input.event event) appends events →
      (∀ input ∈ appends, ∀ r ∈ input.revision, ∃ compiled,
        compileControlRecordRevision db.identity.processId r = .ok compiled
          ∧ getRevision db' compiled.recordId compiled.revision = some compiled) →
      SupportSteps mutations db db' → BatchCommit mutations appends db db'

/-- The items of a batch, under their inputs. -/
theorem forall₂_compiles {identity : ControlRecordStoreIdentity}
    {inputs : List ControlRecordStoreAppend} {items : List CompiledAppend}
    {events : List ControlRecordEvent} (hitems : List.Forall₂ (ItemOf identity) inputs items)
    (hevents : List.Forall₂ (fun item event => Compiles identity item.input.event event) items
      events) :
    List.Forall₂ (fun input event => Compiles identity input.event event) inputs events := by
  induction hitems generalizing events with
  | nil =>
    cases hevents
    exact .nil
  | cons hitem _ ih =>
    cases hevents with
    | cons hevent hrest =>
      rw [hitem.1] at hevent
      exact .cons hevent (ih hrest)

/-- **An operation batch is committed whole.** -/
theorem OperationOutcome.batchCommit {mutations : List ControlRecordOperationSupportMutation}
    {appends : List ControlRecordStoreAppend} (h : OperationOutcome mutations appends w w') :
    BatchCommit mutations appends w.db w'.db := by
  obtain ⟨prepared, w₁, w₂, hprepared, -, hbatch, hmutations, rfl⟩ := h
  have hnodup := prepareMutations_nodup hprepared
  rw [keepReplay_db]
  cases hbatch with
  | retained hdb _ _ hdisposition hretained =>
    have hne : w₁.disposition ≠ .appended := by
      rw [hdisposition]
      exact nofun
    obtain ⟨rfl, hmakes⟩ := resolveMutations_found hne hmutations
    exact .retained hdb hretained (hdb ▸ hmakes)
  | appended w₀ items events hcompiled hopen hdb hreplay hhandle hdisposition happends =>
    have happended : w₁.disposition = .appended := by
      rw [happends.disposition_eq, hdisposition]
    obtain ⟨-, hitems⟩ := compileAppends_items hcompiled
    have hkeeps := (resolveMutations_writes hmutations).1.support_keeps
    have hsteps := resolveMutations_step hnodup happended hmutations
    have hsame : w₁.db.support = w.db.support := by
      rw [happends.writes.journal_frame.2.2, hdb]
    refine .performed events ?_ (forall₂_compiles hitems ?_) ?_ ?_
    · rw [hkeeps.events, happends.events_eq, hdb]
    · rw [← hdb]
      exact happends.compiled
    · intro input hinput r hr
      obtain ⟨item, hitem, -, -, hrevision⟩ := exists_partner hitems hinput
      obtain ⟨compiled, hrevised, hsome⟩ := hrevision r hr
      exact ⟨compiled, hrevised, hkeeps.grows.getRevision
        (happends.revisions item hitem compiled hsome)⟩
    · constructor
      · rw [← hsame]
        exact hsteps.stood
      · exact hsteps.makes
      · rw [← hsame]
        exact hsteps.others

/-! ## Calls -/

/-- The mutations of a call. -/
def StoreCall.mutations : StoreCall → List ControlRecordOperationSupportMutation
  | .commitOperationBatch mutations _ => mutations
  | .commitFileBatch _ mutations _ => mutations
  | .putOperationSupport input => [.put input]
  | .deleteOperationSupport activityId expected => [.delete activityId expected]
  | _ => []

/-- **What a call does to operation support**: nothing but the mutations it
carries out, and a seal removes what is disposed. -/
inductive SupportOutcome (call : StoreCall) (db db' : ControlDatabase) : Prop
  | mutated : db.storeSeal = none → SupportSteps call.mutations db db' →
      SupportOutcome call db db'
  | found : db.storeSeal = none → db' = db →
      (∀ mutation ∈ call.mutations, mutation.Makes (db.support.get mutation.activityId)) →
      SupportOutcome call db db'
  | kept : call.mutations = [] → db'.support = db.support → SupportOutcome call db db'
  | removed : call.mutations = [] → call.seals → db'.storeSeal ≠ none →
      (∀ activityId s, db.support.get activityId ≠ some (.live s)) →
      (∀ activityId, db'.support.get activityId = none) → SupportOutcome call db db'

theorem BatchCommit.supportOutcome {call : StoreCall} {appends : List ControlRecordStoreAppend}
    (h : BatchCommit call.mutations appends db db') (hopen : db.storeSeal = none) :
    SupportOutcome call db db' := by
  cases h with
  | retained heq _ hmakes => exact .found hopen heq hmakes
  | performed _ _ _ _ hsteps => exact .mutated hopen hsteps

theorem MutationOutcome.supportSteps (h : MutationOutcome mutation w w') :
    SupportSteps [mutation] w.db w'.db := by
  obtain ⟨-, ⟨prepared, hprepared, hmutate⟩, -⟩ := h
  exact .cons (mutateSupport_step hprepared hmutate) .nil List.not_mem_nil

theorem CallOutcome.support {call : StoreCall} (h : CallOutcome w w' call) :
    SupportOutcome call w.db w'.db := by
  cases h with
  | appendBatch hbatch heq | appendFileBatch hbatch heq =>
    rw [heq, keepReplay_db]
    exact .kept rfl hbatch.writes.journal_frame.2.2
  | commitOperationBatch hoperation | commitFileBatch hoperation =>
    have hcommit := hoperation.batchCommit
    obtain ⟨_, _, _, -, hopen, -⟩ := hoperation
    exact BatchCommit.supportOutcome hcommit hopen
  | putOperationSupport hmutation | deleteOperationSupport hmutation =>
    exact .mutated hmutation.1 hmutation.supportSteps
  | requestWorkDelegationStop hstop =>
    refine .kept rfl ?_
    rcases hstop.tables with hsame | ⟨_, hexecute, -⟩
    · rw [hsame]
    · generalize w'.db = db' at hexecute
      cases execute_executed hexecute
      rfl
  | beginPendingFileBatch htables | recordPendingFileDescriptors htables
  | cleanPendingFileBatch htables =>
    obtain ⟨_, _, heq⟩ := htables.1.custody_frame
    refine .kept rfl ?_
    rw [heq]
  | sealStore hstore =>
    obtain ⟨value, -, -, houtcome⟩ := sealStore_outcome hstore
    have hsealed : w'.db.storeSeal ≠ none := by
      rw [houtcome.sealed]
      exact Option.some_ne_none _
    refine .removed rfl trivial hsealed houtcome.disposed fun activityId => ?_
    rw [OrderedMap.get_eq_none_iff]
    intro hmem
    obtain ⟨entry, hentry, -⟩ := List.mem_map.mp hmem
    have hvalue : entry.2 ∈ w'.db.support.values := List.mem_map_of_mem hentry
    rw [(houtcome.settled hsealed).2.2] at hvalue
    cases hvalue

/-- **A call whose mutation expects another row changes nothing.** -/
theorem SupportOutcome.unchanged {call : StoreCall} (h : SupportOutcome call db db')
    (hmem : mutation ∈ call.mutations)
    (hother : ¬ StandsWhere (db.support.get mutation.activityId) mutation.expected) :
    db' = db := by
  cases h with
  | mutated _ hsteps => exact absurd (hsteps.stood mutation hmem) hother
  | found _ heq => exact heq
  | kept hnone | removed hnone =>
    rw [hnone] at hmem
    cases hmem

/-! ## Disposed support -/

/-- **Support that is disposed for good**: its row is disposed, or the store
is sealed. -/
def Disposed (activityId : String) (db : ControlDatabase) : Prop :=
  db.storeSeal ≠ none ∨ ∃ t, db.support.get activityId = some (.deleted t)

/-- Disposed support has no put. -/
theorem SupportOutcome.not_put {call : StoreCall} {activityId : String}
    (h : SupportOutcome call db db') (hdisposed : Disposed activityId db)
    {input : ControlRecordOperationSupportPut} (hmem : .put input ∈ call.mutations) :
    input.activityId ≠ activityId := by
  rintro rfl
  have hdeleted (hopen : db.storeSeal = none) :
      ∃ t, db.support.get input.activityId = some (.deleted t) :=
    hdisposed.resolve_left (not_not_intro hopen)
  cases h with
  | mutated hopen hsteps =>
    obtain ⟨t, ht⟩ := hdeleted hopen
    have hstood := hsteps.stood _ hmem
    rw [show db.support.get (ControlRecordOperationSupportMutation.put input).activityId
      = some (.deleted t) from ht] at hstood
    exact not_standsWhere_deleted hstood
  | found hopen _ hmakes =>
    obtain ⟨t, ht⟩ := hdeleted hopen
    obtain ⟨s, hs, -⟩ := hmakes _ hmem
    exact nomatch ht.symm.trans hs
  | kept hnone | removed hnone =>
    rw [hnone] at hmem
    cases hmem

/-- Disposed support stays disposed. -/
theorem SupportOutcome.disposed {call : StoreCall} {activityId : String}
    (h : SupportOutcome call db db') (hopen : db.storeSeal = none)
    (hdisposed : Disposed activityId db) : Disposed activityId db' := by
  obtain ⟨t, ht⟩ := hdisposed.resolve_left (not_not_intro hopen)
  cases h with
  | mutated _ hsteps =>
    refine .inr ⟨t, ?_⟩
    rw [hsteps.others activityId ?_, ht]
    intro hmem
    obtain ⟨mutation, hmutation, rfl⟩ := List.mem_map.mp hmem
    have hstood := hsteps.stood mutation hmutation
    rw [ht] at hstood
    exact not_standsWhere_deleted hstood
  | found _ heq =>
    rw [heq]
    exact .inr ⟨t, ht⟩
  | kept _ hsame => exact .inr ⟨t, hsame ▸ ht⟩
  | removed _ _ hsealed => exact .inl hsealed

/-! ## Reachable stores -/

section Reachable

variable {κ : Type} [DecidableEq κ]
  {s t : ClientState κ StoreCall ControlDatabase (Option StoreHandle) StoreWork StoreFailure}

/-- What a commit does to operation support. -/
theorem supportOutcome_of_commit {k : κ} {call : StoreCall}
    (hs : (storeSystem profiles κ identity).Reachable s)
    (hstep : (storeSystem profiles κ identity).step s (.commit k call) t) :
    SupportOutcome call s.shared t.shared := by
  obtain ⟨w, w', hdb, -, -, houtcome, hshared, -⟩ :=
    call_outcome (commit_atomic (Follows.of_reachable hs) hstep)
  rw [hshared, ← hdb]
  exact houtcome.support

theorem Disposed.step {activityId : String} {l : ClientStep κ StoreCall}
    (h : Disposed activityId s.shared) (hs : (storeSystem profiles κ identity).Reachable s)
    (hstep : (storeSystem profiles κ identity).step s l t) : Disposed activityId t.shared := by
  by_cases hopen : s.shared.storeSeal = none
  · obtain ⟨k, call, rfl⟩ | hsame := shared_of_step hstep
    · exact (supportOutcome_of_commit hs hstep).disposed hopen h
    · rwa [hsame]
  · rwa [shared_of_sealed hs hopen hstep]

/-- Whether a call is an operation batch, with or without files. -/
def StoreCall.IsOperationBatch (call : StoreCall)
    (mutations : List ControlRecordOperationSupportMutation)
    (appends : List ControlRecordStoreAppend) : Prop :=
  call = .commitOperationBatch mutations appends
    ∨ ∃ batch, call = .commitFileBatch batch mutations appends

theorem batchCommit_of_commit {k : κ} {call : StoreCall}
    {mutations : List ControlRecordOperationSupportMutation}
    {appends : List ControlRecordStoreAppend} (hcall : call.IsOperationBatch mutations appends)
    (hs : (storeSystem profiles κ identity).Reachable s)
    (hstep : (storeSystem profiles κ identity).step s (.commit k call) t) :
    BatchCommit mutations appends s.shared t.shared := by
  obtain ⟨w, w', hdb, -, -, houtcome, hshared, -⟩ :=
    call_outcome (commit_atomic (Follows.of_reachable hs) hstep)
  rw [hshared, ← hdb]
  rcases hcall with rfl | ⟨batch, rfl⟩
  · cases houtcome with
    | commitOperationBatch hoperation => exact hoperation.batchCommit
  · cases houtcome with
    | commitFileBatch hoperation => exact hoperation.batchCommit

/-- **Operation batches are atomic, and support generations advance one by
one.** Until its commit a batch shows nothing, and its commit shows all of
it; a commit changes the rows its mutations expect and no other, and none at
all where one stands elsewhere; and after a disposal of an activity no call
that puts its support commits. -/
theorem operationBatches_atomic (h : (storeSystem profiles κ identity).Reachable s) :
    (∀ l t, (storeSystem profiles κ identity).step s l t →
      (∀ k call, l ≠ .commit k call) → t.shared = s.shared)
    ∧ (∀ k call t, (storeSystem profiles κ identity).step s (.commit k call) t →
      SupportOutcome call s.shared t.shared
      ∧ (∀ mutations appends, call.IsOperationBatch mutations appends →
        BatchCommit mutations appends s.shared t.shared)
      ∧ ∀ mutation ∈ call.mutations,
        ¬ StandsWhere (s.shared.support.get mutation.activityId) mutation.expected →
          t.shared = s.shared)
    ∧ ∀ activityId tombstone, s.shared.support.get activityId = some (.deleted tombstone) →
      ∀ labels u, (storeSystem profiles κ identity).Run s labels u →
        ∀ k call v, (storeSystem profiles κ identity).step u (.commit k call) v →
          ∀ input, .put input ∈ call.mutations → input.activityId ≠ activityId := by
  refine ⟨fun l t hstep hother => ?_, fun k call t hstep => ?_, ?_⟩
  · obtain ⟨k, call, hl⟩ | hsame := shared_of_step hstep
    · exact absurd hl (hother k call)
    · exact hsame
  · have houtcome := supportOutcome_of_commit h hstep
    exact ⟨houtcome, fun _ _ hcall => batchCommit_of_commit hcall h hstep,
      fun _ hmem => houtcome.unchanged hmem⟩
  · intro activityId tombstone hdeleted labels u hrun k call v hstep input hmem
    have hkept : (storeSystem profiles κ identity).Reachable u ∧ Disposed activityId u.shared := by
      refine hrun.invariant (P := fun u => (storeSystem profiles κ identity).Reachable u
        ∧ Disposed activityId u.shared) ?_ ⟨h, .inr ⟨tombstone, hdeleted⟩⟩
      rintro u l v ⟨hu, hdisposed⟩ hstep
      exact ⟨hu.step hstep, hdisposed.step hu hstep⟩
    exact (supportOutcome_of_commit hkept.1 hstep).not_put hkept.2 hmem

/-- The sample store, with its first batch committed, is such a state: its
support stands at generation one. -/
theorem operationBatches_atomic_sample : ∃ s : ClientState Bool StoreCall ControlDatabase
      (Option StoreHandle) StoreWork StoreFailure,
    (storeSystem Sample.noProfiles Bool Sample.storeIdentity).Reachable s
      ∧ s.shared.events = [Sample.creation]
      ∧ (∃ row, s.shared.support.get "activity-1" = some (.live row) ∧ row.generation = 1)
      ∧ ∀ k call t, (storeSystem Sample.noProfiles Bool Sample.storeIdentity).step s
        (.commit k call) t → SupportOutcome call s.shared t.shared := by
  obtain ⟨payloadJson, s, hs, hshared⟩ := Sample.exists_supported
  have hatomic := operationBatches_atomic hs
  refine ⟨s, hs, ?_, ⟨Sample.supportRow payloadJson, ?_, rfl⟩,
    fun k call t hstep => (hatomic.2.1 k call t hstep).1⟩
  · rw [hshared]
    rfl
  · rw [hshared]
    exact OrderedMap.get_set_self

end Reachable
