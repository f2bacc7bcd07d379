import Lifecycle.ResolverGrowth
import Lifecycle.StoreCalls
import Mathlib.Logic.Relation

/-!
# What the statements of a store do

`Executed` says once what a statement may do to the tables, under its
triggers. From it follow the two rules every argument about the store rests
on: the tables of control only grow (`Grows`), and a sealed store is left as
it is (`Executed.of_sealed`). A transaction is a chain of statements of some
classes (`Writes`), and what none of them touches, it keeps.
-/

open Fallible Json ControlModel DeliveryReducer ControlStore Transactions

variable {db db' : ControlDatabase}

/-! ## Statements -/

/-- The sequence of the last event, 0 without one. -/
def ControlDatabase.lastSequence (db : ControlDatabase) : Nat :=
  ((headRow db).map (·.sequence)).getD 0

/-- **What an executed statement has found and done.** -/
inductive Executed (db : ControlDatabase) : ControlStatement → ControlDatabase → Prop
  | record {row : ControlRecordRow} : db.storeSeal = none →
      Executed db (.insertRecord row) { db with records := db.records ++ [row] }
  | revision {r : ControlRecordRevision} : db.storeSeal = none →
      r.revision = ((maximumRevision db r.recordId).map (· + 1)).getD 1 →
      Executed db (.insertRevision r) { db with revisions := db.revisions ++ [r] }
  | relationship {row : RecordRelationshipRow} : db.storeSeal = none →
      Executed db (.insertRelationship row)
        { db with relationships := db.relationships ++ [row] }
  | event {e : ControlRecordEvent} : db.storeSeal = none →
      e.sequence = db.lastSequence + 1 → e.predecessorDigest = (headRow db).map (·.digest) →
      Executed db (.insertEvent e) { db with events := db.events ++ [e] }
  | file {row : ReferencedFileRow} : db.storeSeal = none →
      (∃ e ∈ pendingNewFile db row.descriptor.digest, e.descriptor = row.descriptor) →
      Executed db (.insertFile row) { db with files := db.files ++ [row] }
  | fileRemoved {digest : Sha256Digest} :
      (digest ∈ db.files.map (·.descriptor.digest) → pendingNewFile db digest ≠ none) →
      Executed db (.deleteFile digest)
        { db with files := db.files.filter fun row => row.descriptor.digest ≠ digest }
  | pending {batch : PendingFileBatch} : db.storeSeal = none → db.pending = none →
      Executed db (.insertPending batch) { db with pending := some batch }
  | pendingRemoved {digest : Sha256Digest} :
      Executed db (.deletePending digest)
        { db with pending := db.pending.filter fun batch => batch.digest ≠ digest }
  | support {s : ControlRecordOperationSupport} : db.storeSeal = none → s.generation = 1 →
      db.support.get s.activityId = none →
      Executed db (.insertSupport s) { db with support := db.support.set s.activityId (.live s) }
  | supportAdvanced {activityId : String} {expected : ControlRecordOperationSupportCoordinate}
      {before row : RetainedOperationSupport} : db.storeSeal = none →
      standsAt db activityId expected = true → db.support.get activityId = some before →
      advancesSupport before row = true →
      Executed db (.updateSupport activityId expected row)
        { db with support := db.support.set activityId row }
  | supportMissed {activityId : String} {expected : ControlRecordOperationSupportCoordinate}
      {row : RetainedOperationSupport} : standsAt db activityId expected = false →
      Executed db (.updateSupport activityId expected row) db
  | disposed : (db.storeSeal ≠ none → db.support.values.length = liveSupportCount db) →
      Executed db .deleteDisposedSupport
        { db with support := db.support.filterValues fun
          | .live _ => true
          | .deleted _ => false }
  | stopRequested {request : WorkDelegationStopRequest} : db.storeSeal = none →
      db.stopRequest = none →
      Executed db (.insertStopRequest request) { db with stopRequest := some request }
  | stopRemoved {digest : Sha256Digest} :
      (∀ request ∈ db.stopRequest, request.digest = digest →
        db.events.any (settlesStop request) = true) →
      Executed db (.deleteStopRequest digest)
        { db with stopRequest := db.stopRequest.filter fun request => request.digest ≠ digest }
  | closed {value : ControlRecordStoreSeal} : db.storeSeal = none → db.pending = none →
      liveSupportCount db = 0 → db.stopRequest = none →
      Executed db (.insertSeal value) { db with storeSeal := some value }

theorem rejectAfterSeal_eq_ok {u : Unit} : rejectAfterSeal db = .ok u ↔ db.storeSeal = none := by
  rw [rejectAfterSeal, failIf_eq_ok, not_not]

theorem isSome_ne_true {α : Type} {o : Option α} : ¬ o.isSome = true ↔ o = none := by
  rw [Bool.not_eq_true, Option.isSome_eq_false_iff, Option.isNone_iff_eq_none]

/-- The live row a support update finds. -/
theorem exists_of_standsAt {activityId : String}
    {expected : ControlRecordOperationSupportCoordinate}
    (h : standsAt db activityId expected = true) :
    ∃ s, db.support.get activityId = some (.live s) ∧ s.generation = expected.generation
      ∧ s.payloadDigest = expected.payloadDigest := by
  unfold standsAt at h
  split at h
  · next s hs =>
    rw [Bool.and_eq_true, decide_eq_true_eq, decide_eq_true_eq] at h
    exact ⟨s, hs, h⟩
  · cases h

/-- **Every statement does what `Executed` says.** -/
theorem execute_executed {s : ControlStatement} (h : execute db s = .ok db') :
    Executed db s db' := by
  cases s with
  | insertRecord row =>
    simp only [execute, bind_eq_ok, rejectAfterSeal_eq_ok, failIf_eq_ok, exists_unit,
      pure_eq_ok] at h
    obtain ⟨hopen, -, -, rfl⟩ := h
    exact .record hopen
  | insertRevision r =>
    simp only [execute, bind_eq_ok, rejectAfterSeal_eq_ok, failIf_eq_ok, exists_unit,
      pure_eq_ok, not_not] at h
    obtain ⟨hnext, hopen, -, -, rfl⟩ := h
    exact .revision hopen hnext
  | insertRelationship row =>
    simp only [execute, bind_eq_ok, rejectAfterSeal_eq_ok, failIf_eq_ok, exists_unit,
      pure_eq_ok] at h
    obtain ⟨hopen, -, -, rfl⟩ := h
    exact .relationship hopen
  | insertEvent e =>
    simp only [execute, contiguousEvent, bind_eq_ok, rejectAfterSeal_eq_ok, failIf_eq_ok,
      exists_unit, pure_eq_ok, not_not] at h
    obtain ⟨⟨hsequence, hpredecessor, -⟩, hopen, -, -, rfl⟩ := h
    exact .event hopen hsequence hpredecessor
  | insertFile row =>
    simp only [execute, bind_eq_ok, rejectAfterSeal_eq_ok, failIf_eq_ok, exists_unit,
      pure_eq_ok, not_forall, not_or, not_not] at h
    obtain ⟨⟨e, he, hsame, -⟩, hopen, -, -, rfl⟩ := h
    exact .file hopen ⟨e, he, hsame⟩
  | deleteFile digest =>
    simp only [execute, bind_eq_ok, failIf_eq_ok, exists_unit, pure_eq_ok, not_and] at h
    obtain ⟨hpending, rfl⟩ := h
    exact .fileRemoved hpending
  | insertPending batch =>
    simp only [execute, bind_eq_ok, rejectAfterSeal_eq_ok, failIf_eq_ok, exists_unit,
      pure_eq_ok, isSome_ne_true] at h
    obtain ⟨hopen, hnone, rfl⟩ := h
    exact .pending hopen hnone
  | deletePending digest =>
    obtain rfl := Except.ok.inj h
    exact .pendingRemoved
  | insertSupport support =>
    simp only [execute, bind_eq_ok, rejectAfterSeal_eq_ok, failIf_eq_ok, exists_unit,
      pure_eq_ok, not_not, Bool.not_eq_true, OrderedMap.has_eq_false_iff] at h
    obtain ⟨hgeneration, hopen, hnone, rfl⟩ := h
    exact .support hopen hgeneration hnone
  | updateSupport activityId expected row =>
    simp only [execute, bind_eq_ok, failIf_eq_ok, exists_unit, not_and, not_exists,
      not_not, Bool.not_eq_false] at h
    obtain ⟨hadvances, hopen, h⟩ := h
    by_cases hstands : standsAt db activityId expected = true
    · rw [if_pos hstands] at h
      obtain rfl := Except.ok.inj h
      obtain ⟨before, hbefore, -⟩ := exists_of_standsAt hstands
      exact .supportAdvanced (hopen hstands) hstands hbefore
        (hadvances hstands _ hbefore)
    · rw [if_neg hstands] at h
      obtain rfl := Except.ok.inj h
      exact .supportMissed (Bool.not_eq_true _ ▸ hstands)
  | deleteDisposedSupport =>
    simp only [execute, bind_eq_ok, failIf_eq_ok, exists_unit, pure_eq_ok, not_and',
      not_not] at h
    obtain ⟨hall, rfl⟩ := h
    exact .disposed hall
  | insertStopRequest request =>
    simp only [execute, bind_eq_ok, rejectAfterSeal_eq_ok, failIf_eq_ok, exists_unit,
      pure_eq_ok, isSome_ne_true] at h
    obtain ⟨hopen, -, hnone, rfl⟩ := h
    exact .stopRequested hopen hnone
  | deleteStopRequest digest =>
    simp only [execute, bind_eq_ok, failIf_eq_ok, exists_unit, pure_eq_ok, not_exists, not_and,
      Bool.not_eq_false] at h
    obtain ⟨hsettled, rfl⟩ := h
    exact .stopRemoved hsettled
  | insertSeal value =>
    simp only [execute, exactSeal, bind_eq_ok, failIf_eq_ok, exists_unit, pure_eq_ok, not_not,
      isSome_ne_true] at h
    obtain ⟨⟨hpending, hlive, hstop, -⟩, hnone, rfl⟩ := h
    exact .closed hnone hpending hlive hstop

/-! ## Growth -/

/-- **The tables of control only grow.** -/
structure Grows (db db' : ControlDatabase) : Prop where
  identity : db'.identity = db.identity
  records : db.records <+: db'.records
  revisions : db.revisions <+: db'.revisions
  relationships : db.relationships <+: db'.relationships
  events : db.events <+: db'.events

namespace Grows

theorem refl : Grows db db :=
  ⟨rfl, List.prefix_rfl, List.prefix_rfl, List.prefix_rfl, List.prefix_rfl⟩

theorem trans {db'' : ControlDatabase} (h : Grows db db') (h' : Grows db' db'') :
    Grows db db'' where
  identity := h'.identity.trans h.identity
  records := h.records.trans h'.records
  revisions := h.revisions.trans h'.revisions
  relationships := h.relationships.trans h'.relationships
  events := h.events.trans h'.events

/-- **A retained revision stays the one its coordinate names.** -/
theorem getRevision (h : Grows db db') {recordId : String} {revision : Nat}
    {r : ControlRecordRevision} (hr : ControlStore.getRevision db recordId revision = some r) :
    ControlStore.getRevision db' recordId revision = some r := by
  obtain ⟨rest, hrest⟩ := h.revisions
  rw [ControlStore.getRevision, ← hrest, List.find?_append]
  rw [ControlStore.getRevision] at hr
  rw [hr]
  rfl

theorem knows (h : Grows db db') : Knows (resolver db') (resolver db) :=
  fun _ _ hr => h.getRevision hr

end Grows

theorem Executed.grows {s : ControlStatement} (h : Executed db s db') : Grows db db' := by
  cases h with
  | record => exact { Grows.refl with records := List.prefix_append _ _ }
  | revision => exact { Grows.refl with revisions := List.prefix_append _ _ }
  | relationship => exact { Grows.refl with relationships := List.prefix_append _ _ }
  | event => exact { Grows.refl with events := List.prefix_append _ _ }
  | _ => exact ⟨rfl, List.prefix_rfl, List.prefix_rfl, List.prefix_rfl, List.prefix_rfl⟩

/-! ## A sealed store -/

/-- **What a seal found settled**: a sealed store has no pending file, no
operation support and no stop request. -/
def Settled (db : ControlDatabase) : Prop :=
  db.storeSeal ≠ none → db.pending = none ∧ db.stopRequest = none ∧ db.support.values = []

/-- **No statement changes a sealed store.** -/
theorem Executed.of_sealed {s : ControlStatement} (h : Executed db s db') (hs : Settled db)
    (hsealed : db.storeSeal ≠ none) : db' = db := by
  obtain ⟨hpending, hstop, hsupport⟩ := hs hsealed
  cases h with
  | @fileRemoved digest hremoved =>
    -- Without a pending batch no file is in custody to be removed.
    have hnone : pendingNewFile db digest = none := by
      rw [pendingNewFile, hpending]
      rfl
    have hkept : db.files.filter (fun row => row.descriptor.digest ≠ digest) = db.files := by
      rw [List.filter_eq_self]
      intro row hrow
      rw [decide_eq_true_eq]
      rintro rfl
      exact hremoved (List.mem_map_of_mem hrow) hnone
    rw [hkept]
  | pendingRemoved =>
    rw [show db.pending.filter _ = db.pending by rw [hpending]; rfl]
  | supportMissed => rfl
  | disposed =>
    have hkept : db.support.filterValues (fun
        | .live _ => true
        | .deleted _ => false) = db.support :=
      OrderedMap.filterValues_eq_self (by rw [hsupport]; exact fun _ hv => nomatch hv)
    rw [hkept]
  | stopRemoved =>
    rw [show db.stopRequest.filter _ = db.stopRequest by rw [hstop]; rfl]
  | record hopen => exact absurd hopen hsealed
  | revision hopen => exact absurd hopen hsealed
  | relationship hopen => exact absurd hopen hsealed
  | event hopen => exact absurd hopen hsealed
  | file hopen => exact absurd hopen hsealed
  | pending hopen => exact absurd hopen hsealed
  | support hopen => exact absurd hopen hsealed
  | supportAdvanced hopen => exact absurd hopen hsealed
  | stopRequested hopen => exact absurd hopen hsealed
  | closed hopen => exact absurd hopen hsealed

/-! ## Chains of statements -/

namespace ControlStatement

/-- The statements an append executes. -/
def Journal : ControlStatement → Prop
  | .insertRecord _ | .insertRevision _ | .insertRelationship _ | .insertEvent _
  | .deleteStopRequest _ => True
  | _ => False

/-- The statements a mutation of operation support executes. -/
def Support : ControlStatement → Prop
  | .insertSupport _ | .updateSupport .. => True
  | _ => False

/-- The statements of file custody. -/
def Custody : ControlStatement → Prop
  | .insertFile _ | .deleteFile _ | .insertPending _ | .deletePending _ => True
  | _ => False

/-- The statement of a stop request. -/
def Request : ControlStatement → Prop
  | .insertStopRequest _ => True
  | _ => False

/-- The statements of every call but the seal. -/
def Ordinary : ControlStatement → Prop
  | .deleteDisposedSupport | .insertSeal _ => False
  | _ => True

theorem Journal.ordinary {s : ControlStatement} (h : s.Journal) : s.Ordinary := by
  cases s with
  | deleteDisposedSupport => exact h
  | insertSeal => exact h
  | _ => trivial

theorem Support.ordinary {s : ControlStatement} (h : s.Support) : s.Ordinary := by
  cases s with
  | deleteDisposedSupport => exact h
  | insertSeal => exact h
  | _ => trivial

theorem Custody.ordinary {s : ControlStatement} (h : s.Custody) : s.Ordinary := by
  cases s with
  | deleteDisposedSupport => exact h
  | insertSeal => exact h
  | _ => trivial

theorem Request.ordinary {s : ControlStatement} (h : s.Request) : s.Ordinary := by
  cases s with
  | deleteDisposedSupport => exact h
  | insertSeal => exact h
  | _ => trivial

end ControlStatement

/-- One statement of a class. -/
def WritesOne (S : ControlStatement → Prop) (db db' : ControlDatabase) : Prop :=
  ∃ s, S s ∧ execute db s = .ok db'

/-- **A chain of statements of a class.** -/
def Writes (S : ControlStatement → Prop) : ControlDatabase → ControlDatabase → Prop :=
  Relation.ReflTransGen (WritesOne S)

namespace Writes

variable {S : ControlStatement → Prop}

theorem refl : Writes S db db := Relation.ReflTransGen.refl

theorem trans {db'' : ControlDatabase} (h : Writes S db db') (h' : Writes S db' db'') :
    Writes S db db'' :=
  Relation.ReflTransGen.trans h h'

theorem single {s : ControlStatement} (hs : S s) (h : execute db s = .ok db') :
    Writes S db db' :=
  Relation.ReflTransGen.single ⟨s, hs, h⟩

theorem mono {S' : ControlStatement → Prop} (h : Writes S db db') (hS : ∀ s, S s → S' s) :
    Writes S' db db' := by
  induction h with
  | refl => exact .refl
  | tail _ hlast ih =>
    obtain ⟨s, hs, hexecute⟩ := hlast
    exact ih.tail ⟨s, hS s hs, hexecute⟩

/-- **What every statement of a class keeps, a chain keeps.** -/
theorem invariant {P : ControlDatabase → Prop} (h : Writes S db db') (hdb : P db)
    (hstep : ∀ s a b, S s → P a → Executed a s b → P b) : P db' := by
  induction h with
  | refl => exact hdb
  | tail _ hlast ih =>
    obtain ⟨s, hs, hexecute⟩ := hlast
    exact hstep s _ _ hs ih (execute_executed hexecute)

theorem grows (h : Writes S db db') : Grows db db' :=
  h.invariant (P := Grows db) .refl fun _ _ _ _ ha hb => ha.trans hb.grows

theorem of_sealed (h : Writes S db db') (hs : Settled db) (hsealed : db.storeSeal ≠ none) :
    db' = db :=
  h.invariant (P := (· = db)) rfl fun _ _ _ _ ha hb => by
    rw [ha] at hb
    exact hb.of_sealed hs hsealed

theorem storeSeal (h : Writes S db db') (hS : ∀ s, S s → s.Ordinary) :
    db'.storeSeal = db.storeSeal :=
  h.invariant (P := fun a => a.storeSeal = db.storeSeal) rfl fun s _ _ hs ha hb => by
    cases hb with
    | closed => exact (hS _ hs).elim
    | _ => exact ha

/-- An append touches no other table. -/
theorem journal_frame (h : Writes ControlStatement.Journal db db') :
    db'.files = db.files ∧ db'.pending = db.pending ∧ db'.support = db.support :=
  h.invariant (P := fun a => a.files = db.files ∧ a.pending = db.pending
    ∧ a.support = db.support) ⟨rfl, rfl, rfl⟩ fun s _ _ hs ha hb => by
    cases hb with
    | record => exact ha
    | revision => exact ha
    | relationship => exact ha
    | event => exact ha
    | stopRemoved => exact ha
    | _ => exact hs.elim

/-- A mutation of operation support touches no other table. -/
theorem support_frame (h : Writes ControlStatement.Support db db') :
    ∃ support, db' = { db with support := support } :=
  h.invariant (P := fun a => ∃ support, a = { db with support := support }) ⟨db.support, rfl⟩
    fun s _ _ hs ha hb => by
    obtain ⟨before, rfl⟩ := ha
    cases hb with
    | support => exact ⟨_, rfl⟩
    | supportAdvanced => exact ⟨_, rfl⟩
    | supportMissed => exact ⟨_, rfl⟩
    | _ => exact hs.elim

/-- File custody touches no other table. -/
theorem custody_frame (h : Writes ControlStatement.Custody db db') :
    ∃ files pending, db' = { db with files := files, pending := pending } :=
  h.invariant (P := fun a => ∃ files pending, a = { db with files := files, pending := pending })
    ⟨db.files, db.pending, rfl⟩ fun s _ _ hs ha hb => by
    obtain ⟨files, pending, rfl⟩ := ha
    cases hb with
    | file => exact ⟨_, _, rfl⟩
    | fileRemoved => exact ⟨_, _, rfl⟩
    | pending => exact ⟨_, _, rfl⟩
    | pendingRemoved => exact ⟨_, _, rfl⟩
    | _ => exact hs.elim

end Writes
