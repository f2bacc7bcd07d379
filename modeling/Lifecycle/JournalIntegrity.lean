import Lifecycle.Rehearsal
import Lifecycle.WrittenValues

/-!
# The head of a journal is the journal

The digest of an event is taken of the text of its other parts, the digest of
the event before it among them, and the reducer takes no event that does not
reproduce its own digest or does not bind its predecessor. The digest of the
last event therefore stands for every event: two journals that end in one
digest are the same, event for event (`journal_of_head`), unless the texts of
two of their events collide.
-/

open Fallible Json ControlModel DeliveryReducer

variable {resolve resolve' : DeliveryRecordRevisionResolver} {r next : Replay}
  {e e' : ControlRecordEvent}

/-! ## The text of an event -/

/-- An event with its payload in canonical order. -/
def normalForm (e : ControlRecordEvent) : ControlRecordEvent :=
  { e with payload := parsedCanonical e.payload }

/-- **The text the digest of an event is taken of.** -/
def digestedText (e : ControlRecordEvent) : Except FoundationError (List UInt8) :=
  canonicalJson (eventSubjectJson (normalForm e))

/-- **Two events collide**: their texts differ and have one digest. -/
def Collides (e e' : ControlRecordEvent) : Prop :=
  ∃ text text', digestedText e = .ok text ∧ digestedText e' = .ok text' ∧ text ≠ text'
    ∧ sha256Bytes text = sha256Bytes text'

/-- **An event that reproduces its digest.** -/
structure Reproduced (e : ControlRecordEvent) : Prop where
  schema : e.schema = controlRecordEventSchema
  sequence : e.sequence ≤ maxSafeInteger
  subject : ∀ s ∈ e.subject, s.revision ≤ maxSafeInteger
  digest : ∃ text, digestedText e = .ok text ∧ sha256Bytes text = e.digest

theorem reproduced_of_ok (h : assertReproduced e = .ok ()) : Reproduced e := by
  simp only [assertReproduced, compileControlRecordEvent, normalizedControlJsonObject, bind_eq_ok,
    failIf_eq_ok, exists_unit, pure_eq_ok, not_or, not_not] at h
  obtain ⟨_, ⟨hsequence, -, _, ⟨_, -, rfl⟩, hsubject, _, -, _, -, _, -, _, -, _, -, _, -, digest,
    hdigest, rfl⟩, hschema, rfl⟩ := h
  refine ⟨hschema.symm, not_lt.mp hsequence.2, fun s hs => ?_, ?_⟩
  · rw [show (eventInput e).subject = some s from hs] at hsubject
    simp only [checkEventSubject, bind_eq_ok, failIf_eq_ok, exists_unit, not_or, not_lt] at hsubject
    obtain ⟨_, -, hrevision, -⟩ := hsubject
    exact hrevision.2
  · simp only [digestCanonical, bind_eq_ok, pure_eq_ok] at hdigest
    obtain ⟨text, htext, hsame⟩ := hdigest
    refine ⟨text, ?_, hsame⟩
    have hjson : eventSubjectJson (normalForm e) = eventSubjectJson (undigestedEvent e.storeId
        e.processId e.sequence e.predecessorDigest (eventInput e) (parsedCanonical e.payload)) := by
      simp only [eventSubjectJson, normalForm, undigestedEvent, eventInput, ← hschema]
    rw [digestedText, hjson]
    exact htext

/-- **What an accepted event binds.** -/
theorem reproduced_of_append (h : append resolve r e = .ok next) :
    Reproduced e ∧ e.predecessorDigest = r.lastEvent.map (·.digest) ∧ next.lastEvent = some e := by
  obtain ⟨verified, applied, k, hverified, -, -, -, -, rfl⟩ := append_eq_ok.mp h
  obtain ⟨-, -, -, -, -, -, hsuccessor⟩ := verifyEnvelope_eq_ok hverified
  simp only [verifyEnvelope, bind_eq_ok, exists_unit] at hverified
  obtain ⟨_, -, hreproduced, -⟩ := hverified
  refine ⟨reproduced_of_ok hreproduced, ?_, rfl⟩
  unfold assertSuccessor at hsuccessor
  split at hsuccessor
  · next hlast =>
    rw [hlast]
    exact not_not.mp (failIf_eq_ok.mp hsuccessor)
  · next last hlast =>
    simp only [bind_eq_ok, failIf_eq_ok, exists_unit, not_not] at hsuccessor
    rw [hlast]
    exact hsuccessor.2

/-! ## An event by its digest -/

theorem actorJson_injective {a b : ControlActor}
    (h : canonicalOrder (actorJson a) = canonicalOrder (actorJson b)) : a = b := by
  have hsame := members_eq_of_ordered h rfl (by simp [keys])
  simp only [List.map_cons, canonicalOrder, List.cons.injEq, Json.string.injEq] at hsame
  obtain ⟨hkind, hid, -⟩ := hsame
  obtain ⟨kind, id⟩ := a
  obtain ⟨kind', id'⟩ := b
  cases kind <;> cases kind' <;> simp_all

/-- The written form of an event's subject. -/
def subjectJson : Option ControlRecordEventSubject → Json
  | some s => .object [("recordId", .string s.recordId), ("revision", nat s.revision),
      ("digest", .string s.digest)]
  | none => .null

theorem subjectJson_injective : ∀ {s s' : Option ControlRecordEventSubject},
    canonicalOrder (subjectJson s) = canonicalOrder (subjectJson s') → s = s'
  | none, none, _ => rfl
  | none, some _, h => by cases h
  | some _, none, h => by cases h
  | some s, some s', h => by
    have hsame := members_eq_of_ordered h rfl (by simp [keys])
    simp only [List.map_cons, canonicalOrder, nat, List.cons.injEq, Json.string.injEq,
      Json.number.injEq, JsNumber.integer.injEq, Int.natCast_inj] at hsame
    obtain ⟨hid, hrevision, hdigest, -⟩ := hsame
    cases s
    cases s'
    simp_all

/-- The members of a reproduced event are written. -/
theorem Reproduced.written (h : Reproduced e) (hpayload : (Json.object e.payload).Written) :
    (eventSubjectJson (normalForm e)).Written := by
  have hactor : (actorJson e.actor).Written := by
    refine written_object (by simp [keys]) ?_
    simp only [List.forall_mem_cons]
    exact ⟨written_string _, written_string _, List.forall_mem_nil _⟩
  have hsubject : (subjectJson e.subject).Written := by
    cases hs : e.subject with
    | none => exact written_null
    | some s =>
      refine written_object (by simp [keys]) ?_
      simp only [List.forall_mem_cons]
      exact ⟨written_string _, written_nat (h.subject s hs), written_string _,
        List.forall_mem_nil _⟩
  have hordered : (Json.object (parsedCanonical e.payload)).Written := by
    rw [Json.Written, canonicalOrder_parsedCanonical]
    exact hpayload
  refine written_object (by simp [keys]) ?_
  simp only [List.forall_mem_cons]
  exact ⟨written_string _, written_string _, written_string _, written_nat h.sequence,
    written_string _, written_string _, written_string _, hactor, hsubject, hordered,
    written_textOrNull _, List.forall_mem_nil _⟩

theorem textOrNull_injective {s s' : Option String}
    (h : canonicalOrder (textOrNull s) = canonicalOrder (textOrNull s')) : s = s' := by
  cases s <;> cases s' <;> cases h <;> rfl

/-- **Reproduced events of one digest** are the same, or they collide. -/
theorem event_of_digest (h : Reproduced e) (h' : Reproduced e')
    (hpayload : (Json.object e.payload).Written) (hpayload' : (Json.object e'.payload).Written)
    (hdigest : e.digest = e'.digest) : normalForm e = normalForm e' ∨ Collides e e' := by
  obtain ⟨text, htext, hsha⟩ := h.digest
  obtain ⟨text', htext', hsha'⟩ := h'.digest
  by_cases hsame : text = text'
  · subst hsame
    have hordered := (h.written hpayload).eq_of_text (h'.written hpayload') htext htext'
    have hmembers := members_eq_of_ordered hordered rfl (by simp [keys])
    simp only [List.map_cons, List.cons.injEq] at hmembers
    obtain ⟨-, hstore, hprocess, hsequence, hid, hkind, htime, hactor, hsubject, hpayloads,
      hpredecessor, -⟩ := hmembers
    have hpayload : parsedCanonical e.payload = parsedCanonical e'.payload :=
      Json.object.inj ((canonicalOrder_parsedCanonical _).symm.trans
        (hpayloads.trans (canonicalOrder_parsedCanonical _)))
    have hnumber := Int.natCast_inj.mp (JsNumber.integer.inj (Json.number.inj hsequence))
    left
    rw [normalForm, normalForm, ControlRecordEvent.mk.injEq]
    exact ⟨h.schema.trans h'.schema.symm, Json.string.inj hstore, Json.string.inj hprocess, hnumber,
      Json.string.inj hid, Json.string.inj hkind, Json.string.inj htime, actorJson_injective hactor,
      subjectJson_injective hsubject, hpayload, textOrNull_injective hpredecessor, hdigest⟩
  · exact .inr ⟨text, text', htext, htext', hsame, by rw [hsha, hsha', hdigest]⟩

/-! ## A journal by its head -/
