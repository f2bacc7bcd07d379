import Lifecycle.ChannelTruth
import Mathlib.Data.List.Induction

/-!
# The programs of the authorization channel

Every program of the channel keeps its promise, one `await` after another:
a task knows its own socket, whether it has written on it and how its call
of the handler stands (`Serving`); a client knows what it has written and
what it has been told (`Owns`). With the rule of the pool this is the
truthfulness of the channel (`channel_truthful`).
-/

open Fallible Json Asking

namespace Authorization

variable {number : String → JsNumber} {invocationId : String} {s t u : Channel} {i j k : Nat}
  {α β : Type}

/-! ## Rules -/

/-- What a program counts on: the others, and a sound channel. -/
def Relies (number : String → JsNumber) (invocationId : String) (i : Nat) (s t : Channel) : Prop :=
  Rely i s t ∧ (Sound number invocationId s → Sound number invocationId t)

/-- **A program keeps its promise** on a sound channel. -/
def Keeping (number : String → JsNumber) (invocationId : String) (i : Nat)
    (P : α → Channel → Prop) (E : Thrown → Channel → Prop) (c : ChannelProgram α) (s : Channel) :
    Prop :=
  Keeps (Relies number invocationId i) (Serve i) (Promise number invocationId i)
    (fun a t => Sound number invocationId t ∧ P a t)
    (fun e t => Sound number invocationId t ∧ E e t) c s

theorem Relies.refl (s : Channel) : Relies number invocationId i s s := ⟨.refl, id⟩

theorem Relies.trans (hst : Relies number invocationId i s t)
    (htu : Relies number invocationId i t u) : Relies number invocationId i s u :=
  ⟨hst.1.trans htu.1, fun h => htu.2 (hst.2 h)⟩

namespace Keeping

variable {P P' : α → Channel → Prop} {Q : β → Channel → Prop} {E F : Thrown → Channel → Prop}

theorem pure {a : α} (hs : Sound number invocationId s) (h : ∀ t, Rely i s t → P a t) :
    Keeping number invocationId i P E (Pure.pure a) s :=
  Keeps.pure fun t ht => ⟨ht.2 hs, h t ht.1⟩

theorem fail {e : Thrown} (hs : Sound number invocationId s) (h : ∀ t, Rely i s t → E e t) :
    Keeping number invocationId i P E (Asking.fail e) s :=
  Keeps.fail fun t ht => ⟨ht.2 hs, h t ht.1⟩

/-- **Sequencing.** -/
theorem bind {c : ChannelProgram α} {f : α → ChannelProgram β}
    (hc : Keeping number invocationId i P E c s)
    (hf : ∀ a t, Sound number invocationId t → P a t → Keeping number invocationId i Q E (f a) t) :
    Keeping number invocationId i Q E (c >>= f) s :=
  Keeps.bind Relies.refl hc fun a t h => hf a t h.1 h.2

/-- **`try … catch`.** -/
theorem rescue {c : ChannelProgram α} {h : Thrown → ChannelProgram α}
    (hc : Keeping number invocationId i P F c s)
    (hh : ∀ e t, Sound number invocationId t → F e t →
      Keeping number invocationId i P E (h e) t) :
    Keeping number invocationId i P E (c.rescue h) s :=
  Keeps.rescue Relies.refl hc fun e t h => hh e t h.1 h.2

theorem mono {c : ChannelProgram α} (h : Keeping number invocationId i P E c s)
    (hP : ∀ a t, P a t → P' a t) (hE : ∀ e t, E e t → F e t) :
    Keeping number invocationId i P' F c s :=
  Keeps.mono h (fun a t ht => ⟨ht.1, hP a t ht.2⟩) fun e t ht => ⟨ht.1, hE e t ht.2⟩

/-- **One question**, and what follows each answer. -/
theorem asking {q : ChannelCall} {f : ChannelAnswer q → ChannelProgram β}
    (hs : Sound number invocationId s)
    (hq : ∀ t, Sound number invocationId t → Rely i s t → Promise number invocationId i t q)
    (hf : ∀ t a u, Sound number invocationId t → Rely i s t → Serve i q t a u →
      Sound number invocationId u → Keeping number invocationId i Q E (f a) u) :
    Keeping number invocationId i Q E (ask q >>= f) s := by
  intro t ht
  have hpromise := hq t (ht.2 hs) ht.1
  exact ⟨hpromise, fun a u hu => hf t a u (ht.2 hs) ht.1 hu ((ht.2 hs).serve hpromise hu)⟩

/-- A last question. -/
theorem last {q : ChannelCall} {R : ChannelAnswer q → Channel → Prop}
    (hs : Sound number invocationId s)
    (hq : ∀ t, Sound number invocationId t → Rely i s t → Promise number invocationId i t q)
    (hR : ∀ t a u, Sound number invocationId t → Rely i s t → Serve i q t a u →
      Sound number invocationId u → ∀ v, Rely i u v → R a v) :
    Keeping number invocationId i R E (ask q) s := by
  rw [← bind_pure (ask q)]
  exact asking hs hq fun t a u ht hst hu hsound => pure hsound (hR t a u ht hst hu hsound)

/-- A part that asks nothing. -/
theorem lift {x : Except Thrown α} {f : α → ChannelProgram β} (hs : Sound number invocationId s)
    (hok : ∀ a, x = .ok a → Keeping number invocationId i Q E (f a) s)
    (herror : ∀ e, x = .error e → ∀ t, Rely i s t → E e t) :
    Keeping number invocationId i Q E (Asking.lift x >>= f) s := by
  cases x with
  | ok a => exact hok a rfl
  | error e => exact fail hs (herror e rfl)

/-- A check of the channel's own. -/
theorem checked {x : Except ChannelError α} {f : α → ChannelProgram β}
    (hs : Sound number invocationId s)
    (hok : ∀ a, x = .ok a → Keeping number invocationId i Q E (f a) s)
    (herror : ∀ e, x = .error e → ∀ t, Rely i s t → E (some e) t) :
    Keeping number invocationId i Q E (Authorization.checked x >>= f) s := by
  cases x with
  | ok a => exact hok a rfl
  | error e => exact fail hs (herror e rfl)

/-- The outcome of a program as a value. -/
theorem attempt {c : ChannelProgram α} {R : Except Thrown α → Channel → Prop}
    (hc : Keeping number invocationId i (fun a => R (.ok a)) (fun e => R (.error e)) c s)
    (hstable : ∀ {outcome t u}, Rely i t u → R outcome t → R outcome u) :
    Keeping number invocationId i R E (Authorization.attempt c) s := by
  refine rescue (bind hc fun a t ht h => ?_) fun e t ht h => ?_
  · exact pure ht fun u hu => hstable hu h
  · exact pure ht fun u hu => hstable hu h

end Keeping

/-! ## The tasks of the server -/

/-- **What the active task knows**: its socket, whether it has begun to
write, and its call of the handler. -/
structure Serving (i k : Nat) (wrote : Bool) (call : Option HandlerCall) (s : Channel) : Prop where
  socket : ∃ a, s.sockets[k]? = some a ∧ a.task = some i ∧ a.responseStarted = wrote
    ∧ (wrote = false → a.outbound = [])
  active : s.activeSocket = some k
  started : s.handlerStarted = call.isSome
  own : ∀ c ∈ call, c.socket = k
  calls : ∀ c : HandlerCall, c.socket = k → (c ∈ s.calls ↔ call = some c)

theorem Serving.rely {wrote : Bool} {call : Option HandlerCall} (h : Serving i k wrote call s)
    (hst : Rely i s t) : Serving i k wrote call t := by
  obtain ⟨a, ha, htask, hstarted, hout⟩ := h.socket
  obtain ⟨b, hb, hlater⟩ := hst.sockets k a ha
  obtain ⟨hsame, hflag⟩ := hlater.served htask
  obtain ⟨hactive, hhandler⟩ := hst.active k a ha htask h.active
  refine ⟨⟨b, hb, ?_, hflag.trans hstarted, fun hw => hsame.trans (hout hw)⟩, hactive,
    hhandler.trans h.started, h.own, fun c hc => (hst.calls k a ha htask c hc).trans (h.calls c hc)⟩
  exact (hlater.task (by rw [htask]; exact Option.some_ne_none i)).trans htask

/-- The call of the handler, if there was one, has come to its end. -/
def Finished (call : Option HandlerCall) : Prop := ∀ c ∈ call, c.outcome ≠ none

/-- The active task at the end of its turn. -/
def TurnOver (i k : Nat) (s : Channel) : Prop :=
  ∃ wrote call, Serving i k wrote call s ∧ Finished call

/-- What a task may answer. -/
def Answers (call : Option HandlerCall) : HandoffResponse → Prop
  | .result r => ∃ c v, call = some c ∧ c.outcome = some (some v) ∧ retainResult v = some r
  | .refusal _ => call = none
  | .unavailable _ => True

theorem Serving.backed {wrote : Bool} {call : Option HandlerCall} {v : HandoffResponse}
    (h : Serving i k wrote call s) (hv : Answers call v) : Backed s k v := by
  cases v with
  | result r =>
    obtain ⟨c, w, hcall, hw, hr⟩ := hv
    have hk := h.own c (hcall ▸ rfl)
    exact ⟨c, (h.calls c hk).mpr hcall, hk, w, hw, hr⟩
  | refusal id =>
    intro c hc hk
    have hnone : call = none := hv
    rw [(h.calls c hk).mp hc] at hnone
    cases hnone
  | unavailable id => trivial

/-- **A response of the active task.** -/
theorem keeping_respond {call : Option HandlerCall} {v : HandoffResponse}
    (hs : Sound number invocationId s) (h : Serving i k false call s) (hfinished : Finished call)
    (hid : v.invocationId = invocationId) (hv : Answers call v) :
    Keeping number invocationId i (fun _ => TurnOver i k) (fun _ => TurnOver i k) (respond k v) s := by
  refine Keeping.asking hs (fun t ht hst => ?_) fun t a u ht hst hserve hu => ?_
  · have hserving := h.rely hst
    obtain ⟨b, hb, htask, -, hout⟩ := hserving.socket
    exact ⟨b, hb, htask, hout rfl, v, rfl, hid, hserving.backed hv⟩
  have hserving := h.rely hst
  cases hserve with
  | gone =>
    exact Keeping.pure hu fun w hw => ⟨false, call, hserving.rely hw, hfinished⟩
  | @ended _ _ _ _ c hc hopen =>
    have hwrote : Serving i k true call (t.modify k fun a =>
        { a with outbound := encodeResponse v, responseStarted := a.responseStarted || true }) := by
      obtain ⟨b, hb, htask, -, -⟩ := hserving.socket
      refine ⟨⟨_, Channel.modify_eq_some hb, ?_⟩, hserving.active, hserving.started, hserving.own,
        hserving.calls⟩
      rw [if_pos rfl]
      exact ⟨htask, Bool.or_true _, fun hfalse => absurd hfalse (by decide)⟩
    refine Keeping.asking hu (fun _ _ _ => trivial) fun w ok x hw huw hserve' hx => ?_
    cases hserve'
    have hlater := hwrote.rely huw
    cases ok with
    | true => exact Keeping.pure hx fun y hy => ⟨true, call, hlater.rely hy, hfinished⟩
    | false => exact Keeping.fail hx fun y hy => ⟨true, call, hlater.rely hy, hfinished⟩

/-- A frame that has arrived on a socket. -/
def Arrived (k : Nat) (frame : List UInt8) (s : Channel) : Prop :=
  ∃ a, s.sockets[k]? = some a ∧ frame <+: a.inbound

theorem Arrived.rely {frame : List UInt8} (h : Arrived k frame s) (hst : Rely i s t) :
    Arrived k frame t := by
  obtain ⟨a, ha, hframe⟩ := h
  obtain ⟨b, hb, hlater⟩ := hst.sockets k a ha
  exact ⟨b, hb, hframe.trans hlater.inbound⟩

theorem resultOf_eq_ok {value : Option Json} {r : HandoffResult} (h : resultOf value = .ok r) :
    ∃ v, value = some v ∧ retainResult v = some r := by
  cases value with
  | none => cases h
  | some v =>
    refine ⟨v, rfl, ?_⟩
    have hresult : (createAuthorizationHandoffResult v).mapError some = .ok r := h
    unfold createAuthorizationHandoffResult at hresult
    cases hretained : retainResult v with
    | none =>
      rw [hretained] at hresult
      cases hresult
    | some r' =>
      rw [hretained] at hresult
      exact congrArg some (Except.ok.inj hresult)

/-- **The handler and its answer.** -/
theorem keeping_handle {request : ChannelRequest} {frame : List UInt8}
    (hs : Sound number invocationId s) (h : Serving i k false none s) (hframe : Arrived k frame s)
    (hcarries : Carries invocationId frame request) :
    Keeping number invocationId i (fun _ => TurnOver i k) (fun _ => TurnOver i k)
      (handle invocationId k request) s := by
  have hnone (t : Channel) (ht : Serving i k false none t) : ∀ c ∈ t.calls, c.socket ≠ k :=
    fun c hc hk => absurd ((ht.calls c hk).mp hc) (by simp)
  refine Keeping.asking hs (fun t ht hst => ?_) fun t _ u ht hst hserve hu => ?_
  · have hserving := h.rely hst
    obtain ⟨b, hb, htask, -, hout⟩ := hserving.socket
    obtain ⟨a, ha, harrived⟩ := hframe.rely hst
    obtain rfl := Option.some.inj (ha.symm.trans hb)
    exact ⟨a, hb, htask, hout rfl, hserving.active, hnone t hserving, frame, harrived, hcarries⟩
  have hserving := h.rely hst
  cases hserve
  -- the handler runs
  have hrunning : Serving i k false (some ⟨k, request, none⟩) (t.start k request) := by
    refine ⟨hserving.socket, hserving.active, rfl, fun c hc => ?_, fun c hc => ?_⟩
    · obtain rfl := Option.some.inj hc
      rfl
    · show c ∈ t.calls ++ [_] ↔ _
      rw [List.mem_append, List.mem_singleton, Option.some.injEq, or_iff_right, eq_comm]
      exact fun hmem => hnone t hserving c hmem hc
  refine Keeping.asking hu (fun v hv huv => ?_) fun v value w hv huv hserve hw => ?_
  · have hlater := hrunning.rely huv
    obtain ⟨b, hb, htask, -⟩ := hlater.socket
    refine ⟨b, hb, htask, fun c hc hk => ?_⟩
    obtain rfl := Option.some.inj ((hlater.calls c hk).mp hc)
    rfl
  have hlater := hrunning.rely huv
  cases hserve
  -- the handler has come to its end
  have hended : Serving i k false (some ⟨k, request, some value⟩) (v.handled k value) := by
    refine ⟨hlater.socket, hlater.active, hlater.started, fun c hc => ?_, fun c hc => ?_⟩
    · obtain rfl := Option.some.inj hc
      rfl
    · show c ∈ v.calls.map _ ↔ _
      rw [List.mem_map]
      constructor
      · rintro ⟨d, hd, rfl⟩
        split at hc
        · next hdk =>
          obtain rfl := Option.some.inj ((hlater.calls d hdk).mp hd)
          rw [if_pos rfl]
        · next hdk => exact absurd hc hdk
      · intro hcall
        obtain rfl := Option.some.inj hcall
        exact ⟨⟨k, request, none⟩, (hlater.calls _ rfl).mpr rfl, if_pos rfl⟩
  have hfinished : Finished (some (⟨k, request, some value⟩ : HandlerCall)) := by
    intro c hc hout
    obtain rfl := Option.some.inj hc
    cases hout
  refine Keeping.lift hw (fun r hr => ?_) fun e _ x hx =>
    ⟨false, _, hended.rely hx, hfinished⟩
  obtain ⟨json, rfl, hretained⟩ := resultOf_eq_ok hr
  by_cases hid : r.invocationId = invocationId
  · rw [if_neg (not_not.mpr hid)]
    exact keeping_respond hw hended hfinished hid ⟨_, json, rfl, rfl, hretained⟩
  · rw [if_pos hid]
    exact keeping_respond hw hended hfinished rfl trivial

/-! ### Reading a request -/

/-- **What `readRequest` holds back has arrived**, and so has what it
returns. -/
theorem readRequest_spec (events : List SocketEvent) :
    (∀ retained expected, readRequest events = .reading retained expected →
        delivered events = retained)
      ∧ ∀ frame, readRequest events = .settled (some frame) → frame <+: delivered events := by
  induction events using List.reverseRecOn with
  | nil =>
    refine ⟨fun retained expected h => ?_, fun frame h => by cases h⟩
    cases h
    rfl
  | append_singleton events event ih =>
    have hstep : readRequest (events ++ [event]) = (readRequest events).hear event :=
      List.foldl_concat ..
    have hbytes : delivered (events ++ [event]) = delivered events ++ event.bytes := by
      rw [delivered, List.flatMap_append, List.flatMap_singleton]
      rfl
    rw [hstep, hbytes]
    cases hbefore : readRequest events with
    | settled frame =>
      refine ⟨fun retained expected h => (by cases h), fun frame' h => ?_⟩
      obtain rfl := RequestReading.settled.inj h
      exact (ih.2 frame' hbefore).trans (List.prefix_append _ _)
    | reading retained expected =>
      have hheld : delivered events = retained := ih.1 retained expected hbefore
      cases event with
      | data chunk =>
        show (∀ r e, RequestReading.data retained expected chunk = .reading r e → _ ++ chunk = r)
          ∧ ∀ frame, RequestReading.data retained expected chunk = .settled (some frame) → _
        unfold RequestReading.data
        split
        · exact ⟨fun r e h => (by cases h), fun frame h => by cases h⟩
        · split
          · exact ⟨fun r e h => (by cases h), fun frame h => by cases h⟩
          · split
            · exact ⟨fun r e h => (by cases h), fun frame h => by cases h⟩
            · refine ⟨fun r e h => ?_, fun frame h => by cases h⟩
              rw [hheld]
              exact (RequestReading.reading.inj h).1
      | ended =>
        refine ⟨fun r e h => (by cases h), fun frame h => ?_⟩
        have hframe := RequestReading.settled.inj h
        split at hframe
        · obtain rfl := Option.some.inj hframe
          rw [hheld]
          exact List.prefix_append _ _
        · cases hframe
      | failed => exact ⟨fun r e h => (by cases h), fun frame h => by cases h⟩
      | timedOut => exact ⟨fun r e h => (by cases h), fun frame h => by cases h⟩
      | closed =>
        refine ⟨fun r e h => ?_, fun frame h => by cases h⟩
        obtain ⟨rfl, -⟩ := RequestReading.reading.inj h
        exact (List.append_nil _).trans hheld

/-- What a request was read from has arrived. -/
theorem arrived_of_served {frame : List UInt8}
    (h : Serve i (.readRequest k) s (some frame) t) : Arrived k frame s := by
  generalize hanswer : (some frame : ChannelAnswer (.readRequest k)) = answer at h
  cases h with
  | readRequest ha hevents hread =>
    rw [← hanswer] at hread
    exact ⟨_, ha, ((readRequest_spec _).2 frame hread).trans hevents⟩

theorem carries_of_requestIn {frame : Option (List UInt8)} {request : ChannelRequest}
    (h : requestIn frame invocationId = .ok (some request)) :
    ∃ bytes, frame = some bytes ∧ Carries invocationId bytes request := by
  cases frame with
  | none => cases h
  | some bytes =>
    refine ⟨bytes, rfl, carries_of_decodeRequest ?_⟩
    have hdecoded : (decodeRequest bytes invocationId).mapError _ = .ok (some request) := h
    cases hframe : decodeRequest bytes invocationId with
    | ok r =>
      rw [hframe] at hdecoded
      exact congrArg Except.ok (Except.ok.inj hdecoded)
    | error e =>
      rw [hframe] at hdecoded
      cases hdecoded

/-- **The `try` block of a task.** -/
theorem keeping_attend (hs : Sound number invocationId s) (h : Serving i k false none s) :
    Keeping number invocationId i (fun _ => TurnOver i k) (fun _ => TurnOver i k)
      (attend invocationId k) s := by
  have hfinished : Finished none := fun c hc => by cases hc
  refine Keeping.asking hs (fun _ _ _ => trivial) fun t frame u ht hst hserve hu => ?_
  have hserving := h.rely hst
  have harrived : ∀ bytes, frame = some bytes → Arrived k bytes t := by
    rintro bytes rfl
    exact arrived_of_served hserve
  cases hserve
  refine Keeping.checked hu (fun request hrequest => ?_) fun e _ v hv =>
    ⟨false, none, hserving.rely hv, hfinished⟩
  cases request with
  | none => exact keeping_respond hu hserving hfinished rfl rfl
  | some request =>
    obtain ⟨bytes, hframe, hcarries⟩ := carries_of_requestIn hrequest
    exact keeping_handle hu hserving (harrived bytes hframe) hcarries

/-- **The `catch` block of a task** refuses only where the handler was not
called. -/
theorem keeping_excuse (hs : Sound number invocationId s) (h : TurnOver i k s) :
    Keeping number invocationId i (fun _ => TurnOver i k) (fun _ => TurnOver i k)
      (excuse invocationId k) s := by
  obtain ⟨wrote, call, hserving, hfinished⟩ := h
  refine Keeping.asking hs (fun _ _ _ => trivial) fun t started u ht hst hserve hu => ?_
  have hlater := hserving.rely hst
  cases hserve with
  | responseStarted hb =>
    obtain ⟨a, ha, htask, hwrote, hout⟩ := hlater.socket
    obtain rfl := Option.some.inj (ha.symm.trans hb)
    by_cases hstarted : a.responseStarted = true
    · rw [if_pos hstarted]
      exact Keeping.pure hu fun v hv => ⟨wrote, call, hlater.rely hv, hfinished⟩
    · rw [if_neg hstarted]
      obtain rfl : wrote = false := hwrote.symm.trans (Bool.eq_false_iff.mpr hstarted)
      refine Keeping.asking hu (fun _ _ _ => trivial) fun v flag w hv huv hserve hw => ?_
      have hlatest := hlater.rely huv
      cases hserve
      refine Keeping.rescue (F := fun _ => TurnOver i k) ?_ fun e x hx hserved =>
        Keeping.pure hx fun y hy => ?_
      · refine keeping_respond hw hlatest hfinished ?_ ?_
        · split <;> rfl
        · split
          · trivial
          · next hflag =>
            rw [hlatest.started, Option.isSome_iff_ne_none, not_not] at hflag
            exact hflag
      · obtain ⟨wrote', call', hserving', hfinished'⟩ := hserved
        exact ⟨wrote', call', hserving'.rely hy, hfinished'⟩

/-- What a task knows that is not the active one. -/
def Rejecting (i k : Nat) (s : Channel) : Prop :=
  ∃ a, s.sockets[k]? = some a ∧ a.task = some i ∧ a.outbound = [] ∧ ∀ c ∈ s.calls, c.socket ≠ k

theorem Rejecting.rely (h : Rejecting i k s) (hst : Rely i s t) : Rejecting i k t := by
  obtain ⟨a, ha, htask, hout, hnone⟩ := h
  obtain ⟨b, hb, hlater⟩ := hst.sockets k a ha
  refine ⟨b, hb, ?_, (hlater.served htask).1.trans hout, fun c hc hk => ?_⟩
  · exact (hlater.task (by rw [htask]; exact Option.some_ne_none i)).trans htask
  · exact hnone c ((hst.calls k a ha htask c hk).mp hc) hk

theorem keeping_reject (hs : Sound number invocationId s) (h : Rejecting i k s) :
    Keeping number invocationId i (fun _ _ => True) (fun _ _ => True) (reject invocationId k) s := by
  refine Keeping.asking hs (fun _ _ _ => trivial) fun t frame u ht hst hserve hu => ?_
  have hrejecting := h.rely hst
  cases hserve
  refine Keeping.asking hu (fun v hv huv => ?_) fun v ok w hv huv hserve hw => ?_
  · obtain ⟨a, ha, htask, hout, hnone⟩ := hrejecting.rely huv
    exact ⟨a, ha, htask, hout, .refusal invocationId, rfl, rfl, hnone⟩
  cases hserve with
  | gone => exact Keeping.pure hw fun _ _ => trivial
  | ended _ _ =>
    refine Keeping.asking hw (fun _ _ _ => trivial) fun x ok y hx hwx hserve hy => ?_
    cases ok with
    | true => exact Keeping.pure hy fun _ _ => trivial
    | false => exact Keeping.fail hy fun _ _ => trivial

/-- **A task enters** as the active one, or as one that rejects. -/
theorem entered_of_served {entered : Entered} (hs : Sound number invocationId s)
    (h : Serve i .enter s entered t) :
    (entered.admitted = true ∧ Serving i entered.socket false none t)
      ∨ (entered.admitted = false ∧ Rejecting i entered.socket t) := by
  generalize hanswer : (entered : ChannelAnswer .enter) = answer at h
  cases h with
  | @enter _ k a ha htask =>
    obtain rfl := hanswer
    obtain ⟨hout, hstarted⟩ := hs.fresh k a ha htask
    have hnone : ∀ c ∈ s.calls, c.socket ≠ k := by
      rintro c hc rfl
      obtain ⟨b, hb, hserved, -⟩ := hs.carried c hc
      obtain rfl := Option.some.inj (ha.symm.trans hb)
      exact hserved htask
    have hsocket : (s.modify k fun a => { a with task := some i }).sockets[k]?
        = some { a with task := some i } := by
      rw [Channel.modify_eq_some ha, if_pos rfl]
    unfold Channel.enter
    split
    · next hrefused =>
      refine .inr ⟨?_, { a with task := some i }, hsocket, rfl, hout, hnone⟩
      show (!(s.closing || s.busy)) = false
      rw [Bool.not_eq_false', Bool.or_eq_true]
      exact hrefused
    · next hfree =>
      have hbusy : s.busy = false := Bool.eq_false_iff.mpr fun hb => hfree (.inr hb)
      refine .inl ⟨?_, ⟨{ a with task := some i }, hsocket, rfl, hstarted, fun _ => hout⟩, rfl,
        (hs.idle hbusy).2, fun c hc => (by cases hc), fun c hc => ⟨fun hmem => ?_, fun hcall => ?_⟩⟩
      · show (!(s.closing || s.busy)) = true
        rw [Bool.not_eq_true', Bool.eq_false_iff, ne_eq, Bool.or_eq_true]
        exact hfree
      · exact absurd hc (hnone c hmem)
      · cases hcall

/-- **A task of the server keeps its promise.** -/
theorem keeping_serveConnection (hs : Sound number invocationId s) :
    Keeping number invocationId i (fun _ _ => True) (fun _ _ => True)
      (serveConnection invocationId) s := by
  refine Keeping.asking hs (fun _ _ _ => trivial) fun t (entered : Entered) u ht hst hserve hu => ?_
  obtain ⟨hadmitted, hserving⟩ | ⟨hadmitted, hrejecting⟩ := entered_of_served ht hserve
  · rw [if_pos hadmitted]
    refine Keeping.bind (P := fun _ => TurnOver i entered.socket) (Keeping.rescue
      (keeping_attend hu hserving) fun e v hv hserved => ?_) fun _ v hv hserved => ?_
    · exact (keeping_excuse hv hserved).mono (fun _ _ h => h) fun _ _ _ => trivial
    · obtain ⟨wrote, call, hserving', hfinished⟩ := hserved
      refine Keeping.last hv (fun w hw hvw => ?_) fun _ _ _ _ _ _ _ _ _ => trivial
      have hlater := hserving'.rely hvw
      obtain ⟨a, ha, htask, -⟩ := hlater.socket
      exact ⟨a, ha, htask, hlater.active, fun c hc hk =>
        hfinished c ((hlater.calls c hk).mp hc)⟩
  · rw [if_neg (by rw [hadmitted]; exact Bool.false_ne_true)]
    refine Keeping.bind (P := fun _ _ => True) (Keeping.rescue (keeping_reject hu hrejecting)
      fun e v hv _ => Keeping.pure hv fun _ _ => trivial) fun _ v hv _ => ?_
    exact Keeping.last hv (fun _ _ _ => trivial) fun _ _ _ _ _ _ _ _ _ => trivial

/-! ## The clients -/

/-- **What a client knows of its socket**: what it has sent, something it has
seen, and that it has not reported yet. -/
def Owns (i k : Nat) (sent seen : List UInt8) (s : Channel) : Prop :=
  ∃ a, s.sockets[k]? = some a ∧ a.peer = i ∧ a.inbound = sent ∧ seen <+: a.outbound
    ∧ ∀ r ∈ s.reports, r.socket ≠ some k

theorem Owns.rely {sent seen : List UInt8} (h : Owns i k sent seen s) (hst : Rely i s t) :
    Owns i k sent seen t := by
  obtain ⟨a, ha, hpeer, hsent, hseen, hunreported⟩ := h
  obtain ⟨b, hb, hlater⟩ := hst.sockets k a ha
  refine ⟨b, hb, hlater.peer.trans hpeer, (hlater.own hpeer).trans hsent,
    hseen.trans hlater.outbound, fun r hr hk => ?_⟩
  exact hunreported r (hst.reports k a ha hpeer r hr hk) hk

/-- A socket that has just been dialled. -/
theorem owns_of_served {socket : Nat} (hs : Sound number invocationId s)
    (h : Serve i .createConnection s socket t) : Owns i socket [] [] t := by
  generalize hanswer : (socket : ChannelAnswer .createConnection) = answer at h
  cases h with
  | createConnection =>
    obtain rfl := hanswer
    refine ⟨{ peer := i }, List.getElem?_concat_length, rfl, rfl, List.nil_prefix,
      fun r hr hk => ?_⟩
    obtain ⟨hnone, -⟩ | ⟨l, a, hl, ha, -⟩ := hs.reports r hr
    · rw [hnone] at hk
      cases hk
    · obtain rfl := Option.some.inj (hl.symm.trans hk)
      exact absurd (List.getElem?_eq_some_iff.mp ha).1 (Nat.lt_irrefl _)

/-- A question that changes nothing. -/
def Idle (q : ChannelCall) : Prop :=
  match q with
  | .aborted | .lstat _ | .connected _ => True
  | _ => False

theorem Serve.idle {q : ChannelCall} {answer : ChannelAnswer q} (hq : Idle q)
    (h : Serve i q s answer t) : t = s := by
  cases h with
  | aborted => rfl
  | lstat => rfl
  | connected => rfl
  | _ => exact hq.elim

theorem Promise.idle {q : ChannelCall} (hq : Idle q) : Promise number invocationId i s q := by
  cases q with
  | aborted => trivial
  | lstat path => trivial
  | connected socket => trivial
  | _ => exact hq.elim

/-- **An idle question**, beside what no other program takes away. -/
theorem Keeping.idle {q : ChannelCall} {f : ChannelAnswer q → ChannelProgram β}
    {K : Channel → Prop} {Q : β → Channel → Prop} {E : Thrown → Channel → Prop} (hq : Idle q)
    (hs : Sound number invocationId s) (hstable : ∀ {t}, Rely i s t → K t)
    (hf : ∀ a t, Sound number invocationId t → K t → Keeping number invocationId i Q E (f a) t) :
    Keeping number invocationId i Q E (ask q >>= f) s := by
  refine Keeping.asking hs (fun _ _ _ => Promise.idle hq) fun t a u ht hst hserve hu => ?_
  obtain rfl := hserve.idle hq
  exact hf a _ hu (hstable hst)

/-! ### What a client throws -/

/-- An error this side did not decode. -/
def Unmarked (e : Thrown) : Prop := e.any (·.noHandlerRefusal) = false

theorem unmarked_failIf {c : Prop} [Decidable c] {e error : ChannelError}
    (h : failIf c e = .error error) (he : Unmarked (some e)) : Unmarked (some error) := by
  unfold failIf at h
  split at h
  · exact Except.error.inj h ▸ he
  · cases h

theorem unmarked_orFail {o : Option α} {e error : ChannelError}
    (h : orFail o e = .error error) (he : Unmarked (some e)) : Unmarked (some error) := by
  cases o with
  | none => exact Except.error.inj h ▸ he
  | some a => cases h

/-- A computation whose errors this side did not decode. -/
def NeverMarked (x : Except ChannelError α) : Prop :=
  ∀ error, x = .error error → Unmarked (some error)

theorem NeverMarked.bind {x : Except ChannelError α} {f : α → Except ChannelError β}
    (hx : NeverMarked x) (hf : ∀ a, NeverMarked (f a)) : NeverMarked (x >>= f) := by
  cases x with
  | ok a => exact hf a
  | error e => exact fun error h => hx error (congrArg Except.error (Except.error.inj h))

theorem NeverMarked.ok {a : α} : NeverMarked (.ok a) := fun _ h => by cases h

theorem neverMarked_failIf {c : Prop} [Decidable c] {e : ChannelError} (he : Unmarked (some e)) :
    NeverMarked (failIf c e) := fun _ h => unmarked_failIf h he

theorem neverMarked_orFail {o : Option α} {e : ChannelError} (he : Unmarked (some e)) :
    NeverMarked (orFail o e) := fun _ h => unmarked_orFail h he

theorem neverMarked_directory {uid : Option Nat} {status : Option FileStatus} :
    NeverMarked (exactPrivateDirectory uid status) := by
  unfold exactPrivateDirectory
  refine NeverMarked.bind (neverMarked_orFail ?_) fun _ => neverMarked_failIf ?_
  all_goals rfl

theorem neverMarked_socket {uid : Option Nat} {status : Option FileStatus} :
    NeverMarked (exactPrivateSocket uid status) := by
  unfold exactPrivateSocket
  refine NeverMarked.bind (neverMarked_orFail ?_) fun _ =>
    NeverMarked.bind (neverMarked_failIf ?_) fun _ => .ok
  all_goals rfl

theorem neverMarked_encodeRequest {challenge : String} {secret : List UInt8} :
    NeverMarked (encodeRequest challenge secret) := by
  have hsecret : NeverMarked (exactSecretBytes secret) := by
    unfold exactSecretBytes
    refine NeverMarked.bind (neverMarked_failIf ?_) fun _ =>
      NeverMarked.bind (neverMarked_orFail ?_) fun _ =>
        NeverMarked.bind (neverMarked_failIf ?_) fun _ => .ok
    all_goals rfl
  unfold encodeRequest
  refine NeverMarked.bind (neverMarked_orFail ?_) fun _ => NeverMarked.bind hsecret fun _ => .ok
  rfl

theorem token_of_parse {value : String} {c : Challenge}
    (h : parseInvocationPrivateAuthorizationChallenge value = some c) : c.token = value := by
  unfold parseInvocationPrivateAuthorizationChallenge at h
  simp only at h
  split at h
  · cases h
  · split at h
    · exact congrArg Challenge.token (Option.some.inj h).symm
    · cases h

/-- **Before it connects** a client has decoded nothing. -/
theorem keeping_prepare {input : SendInput} (hs : Sound number invocationId s) :
    Keeping number invocationId i
      (fun p _ => ∃ secret, encodeRequest input.challenge secret = .ok p.request)
      (fun e _ => Unmarked e) (prepare input) s := by
  refine Keeping.idle (K := fun _ => True) trivial hs (fun _ => trivial)
    fun aborted t ht _ => ?_
  refine Keeping.checked ht (fun _ _ => ?_) fun e he _ _ =>
    unmarked_failIf he rfl
  refine Keeping.checked ht (fun challenge hchallenge => ?_) fun e he _ _ =>
    unmarked_orFail he rfl
  refine Keeping.checked ht (fun socketPath _ => ?_) fun e he _ _ => ?_
  · refine Keeping.idle (K := fun _ => True) trivial ht (fun _ => trivial)
      fun directory u hu _ => ?_
    refine Keeping.checked hu (fun _ _ => ?_) fun e he _ _ => neverMarked_directory e he
    refine Keeping.idle (K := fun _ => True) trivial hu (fun _ => trivial)
      fun status v hv _ => ?_
    refine Keeping.checked hv (fun identity _ => ?_) fun e he _ _ => neverMarked_socket e he
    refine Keeping.checked hv (fun request hrequest => ?_) fun e he _ _ =>
      neverMarked_encodeRequest e he
    refine Keeping.pure hv fun _ _ => ⟨input.authoritySecret, ?_⟩
    rw [← token_of_parse (orFail_eq_ok.mp hchallenge)]
    exact hrequest
  · cases hpath : input.socketPath challenge.invocationId with
    | ok path =>
      rw [hpath] at he
      cases he
    | error error =>
      rw [hpath] at he
      obtain rfl := Except.error.inj he
      rfl

/-- **Until it submits** a client has sent nothing, and what it throws it has
not decoded. -/
theorem keeping_reach {input : SendInput} {p : Prepared} (hs : Sound number invocationId s)
    (h : Owns i k [] [] s) :
    Keeping number invocationId i (fun _ => Owns i k [] [])
      (fun e t => Unmarked e ∧ Owns i k [] [] t) (reach input p k) s := by
  refine Keeping.idle trivial hs h.rely fun connected t ht howns => ?_
  refine Keeping.lift ht (fun _ _ => ?_) fun e he u hu => ⟨?_, howns.rely hu⟩
  · refine Keeping.idle trivial ht howns.rely fun status u hu howns => ?_
    refine Keeping.checked hu (fun after _ => ?_) fun e he v hv =>
      ⟨neverMarked_socket e he, howns.rely hv⟩
    refine Keeping.checked hu (fun _ _ => ?_) fun e he v hv =>
      ⟨unmarked_failIf he rfl, howns.rely hv⟩
    refine Keeping.idle trivial hu howns.rely fun aborted v hv howns => ?_
    rw [← bind_pure (checked _)]
    exact Keeping.checked hv (fun _ _ => Keeping.pure hv fun w hw => howns.rely hw)
      fun e he w hw => ⟨unmarked_failIf he rfl, howns.rely hw⟩
  · unfold failIf at he
    split at he
    · exact Except.error.inj he ▸ rfl
    · cases he

/-! ### What a client is told -/

/-- **What a response is read from has arrived**, and what the reading throws
this side has not decoded. -/
theorem readAuthorizationResponse_spec (events : List SocketEvent) :
    (∀ chunks, readAuthorizationResponse events = .reading chunks → delivered events = chunks)
      ∧ (∀ bytes, readAuthorizationResponse events = .settled (.ok bytes) →
        bytes <+: delivered events)
      ∧ ∀ e, readAuthorizationResponse events = .settled (.error e) → Unmarked e := by
  induction events using List.reverseRecOn with
  | nil =>
    refine ⟨fun chunks h => ?_, fun bytes h => (by cases h), fun e h => by cases h⟩
    cases h
    rfl
  | append_singleton events event ih =>
    obtain ⟨hreading, hread, hthrown⟩ := ih
    have hstep : readAuthorizationResponse (events ++ [event])
        = (readAuthorizationResponse events).hear event := List.foldl_concat ..
    have hbytes : delivered (events ++ [event]) = delivered events ++ event.bytes := by
      rw [delivered, List.flatMap_append, List.flatMap_singleton]
      rfl
    rw [hstep, hbytes]
    cases hbefore : readAuthorizationResponse events with
    | settled response =>
      refine ⟨fun chunks h => (by cases h), fun bytes h => ?_, fun e h => ?_⟩
      · obtain rfl := ResponseReading.settled.inj h
        exact (hread bytes hbefore).trans (List.prefix_append _ _)
      · obtain rfl := ResponseReading.settled.inj h
        exact hthrown e hbefore
    | reading chunks =>
      have hheld : delivered events = chunks := hreading chunks hbefore
      cases event with
      | data chunk =>
        have hdata : (ResponseReading.reading chunks).hear (.data chunk)
            = if responseHeaderBytes + responseMaximumBytes < chunks.length + chunk.length then
                .settled (.error (some responseExceedsBound))
              else .reading (chunks ++ chunk) := rfl
        rw [hdata]
        split
        · refine ⟨fun chunks h => (by cases h), fun bytes h => (by cases h), fun e h => ?_⟩
          obtain rfl := Except.error.inj (ResponseReading.settled.inj h)
          rfl
        · refine ⟨fun chunks h => ?_, fun bytes h => (by cases h), fun e h => by cases h⟩
          rw [hheld]
          exact ResponseReading.reading.inj h
      | ended =>
        refine ⟨fun chunks h => (by cases h), fun bytes h => ?_, fun e h => by cases h⟩
        obtain rfl := Except.ok.inj (ResponseReading.settled.inj h)
        rw [hheld]
        exact List.prefix_append _ _
      | failed =>
        refine ⟨fun chunks h => (by cases h), fun bytes h => (by cases h), fun e h => ?_⟩
        obtain rfl := Except.error.inj (ResponseReading.settled.inj h)
        rfl
      | closed =>
        refine ⟨fun chunks h => (by cases h), fun bytes h => (by cases h), fun e h => ?_⟩
        obtain rfl := Except.error.inj (ResponseReading.settled.inj h)
        rfl
      | timedOut =>
        refine ⟨fun chunks h => ?_, fun bytes h => (by cases h), fun e h => by cases h⟩
        obtain rfl := ResponseReading.reading.inj h
        exact (List.append_nil _).trans hheld

/-- **A client can stand by what it reports.** -/
def Telling (number : String → JsNumber) (challenge : String) (i k : Nat)
    (outcome : Except Thrown HandoffResult) (s : Channel) : Prop :=
  ∃ a, s.sockets[k]? = some a ∧ a.peer = i ∧ Told number challenge a outcome

theorem Telling.rely {challenge : String} {outcome : Except Thrown HandoffResult}
    (h : Telling number challenge i k outcome s) (hst : Rely i s t) :
    Telling number challenge i k outcome t := by
  obtain ⟨a, ha, hpeer, htold⟩ := h
  obtain ⟨b, hb, hlater⟩ := hst.sockets k a ha
  exact ⟨b, hb, hlater.peer.trans hpeer, htold.mono (hlater.own hpeer) hlater.outbound⟩

section Client

variable {challenge : String} {sent seen : List UInt8} {e : Thrown} {p : Prepared}

/-- A client that has sent nothing. -/
theorem Owns.telling_before (h : Owns i k [] seen s) (he : Unmarked e) :
    Telling number challenge i k (.error e) s := by
  obtain ⟨a, ha, hpeer, hsent, -, -⟩ := h
  refine ⟨a, ha, hpeer, fun r hr => (by cases hr), fun e' he' hmark => ?_, .inl hsent,
    fun hne => absurd hsent hne⟩
  obtain rfl := Except.error.inj he'
  exact absurd (he.symm.trans hmark) (by decide)

/-- A client that has read a result. -/
theorem Owns.telling_result {id : String} {r : HandoffResult} (h : Owns i k sent seen s)
    (hsent : ∃ secret, encodeRequest challenge secret = .ok sent)
    (hr : decodeResponse number seen id = .ok r) : Telling number challenge i k (.ok r) s := by
  obtain ⟨a, ha, hpeer, rfl, hseen, -⟩ := h
  refine ⟨a, ha, hpeer, fun r' hr' => ?_, fun e he => (by cases he), .inr hsent,
    fun _ => .inl ⟨r, rfl⟩⟩
  obtain rfl := Except.ok.inj hr'
  exact ⟨seen, id, hseen, hr⟩

/-- A client that has read a refusal. -/
theorem Owns.telling_refused {id : String} {error : ChannelError} (h : Owns i k sent seen s)
    (hsent : ∃ secret, encodeRequest challenge secret = .ok sent)
    (hread : decodeResponse number seen id = .error error) (hmark : error.noHandlerRefusal = true) :
    Telling number challenge i k (.error (some error)) s := by
  obtain ⟨a, ha, hpeer, rfl, hseen, -⟩ := h
  refine ⟨a, ha, hpeer, fun r hr => (by cases hr), fun _ _ _ => ⟨seen, id, error, hseen, hread,
    hmark⟩, .inr hsent, fun _ => .inr (.inl ?_)⟩
  rw [handlerNotStarted_of_marked hread hmark]

/-- A client that knows nothing of what it has sent. -/
theorem Owns.telling_unavailable {id : String} (h : Owns i k sent seen s)
    (hsent : ∃ secret, encodeRequest challenge secret = .ok sent) :
    Telling number challenge i k (.error (some (observationUnavailable id))) s := by
  obtain ⟨a, ha, hpeer, rfl, -, -⟩ := h
  refine ⟨a, ha, hpeer, fun r hr => (by cases hr), fun e he hmark => ?_, .inr hsent,
    fun _ => .inr (.inr ⟨id, rfl⟩)⟩
  obtain rfl := Option.some.inj (Except.error.inj he)
  cases hmark

/-- What a client has thrown once it may have submitted. -/
def Perplexed (number : String → JsNumber) (i k : Nat) (sent : List UInt8) (e : Thrown)
    (s : Channel) : Prop :=
  ∃ seen, Owns i k sent seen s ∧ (Unmarked e ∨ ∃ id error, e = some error
    ∧ decodeResponse number seen id = .error error)

/-- **From the submission on** a client tells what it reads. -/
theorem keeping_exchange (hs : Sound number invocationId s) (h : Owns i k [] [] s)
    (hsent : ∃ secret, encodeRequest challenge secret = .ok p.request) :
    Keeping number invocationId i (fun r => Telling number challenge i k (.ok r))
      (Perplexed number i k p.request) (exchange number p k) s := by
  refine Keeping.asking hs (fun t ht hst => ?_) fun t _ u ht hst hserve hu => ?_
  · obtain ⟨a, ha, hpeer, -, -, hunreported⟩ := h.rely hst
    exact ⟨a, ha, hpeer, hunreported⟩
  have howns : Owns i k p.request [] u := by
    obtain ⟨a, ha, hpeer, hempty, -, hunreported⟩ := h.rely hst
    cases hserve
    refine ⟨_, Channel.modify_eq_some ha, ?_⟩
    rw [if_pos rfl]
    refine ⟨hpeer, ?_, List.nil_prefix, hunreported⟩
    show a.inbound ++ p.request = p.request
    rw [hempty, List.nil_append]
  refine Keeping.asking hu (fun _ _ _ => trivial) fun v response w hv huv hserve hw => ?_
  have hlater := howns.rely huv
  cases hserve with
  | @response _ _ b events _ hb hevents hread =>
    obtain ⟨-, hbytes, hthrown⟩ := readAuthorizationResponse_spec events
    refine Keeping.lift hw (fun frame hframe => ?_) fun e he x hx => ?_
    · obtain rfl := hframe
      have hseen : Owns i k p.request frame v := by
        obtain ⟨a, ha, hpeer, hsent', -, hunreported⟩ := hlater
        obtain rfl := Option.some.inj (ha.symm.trans hb)
        exact ⟨a, ha, hpeer, hsent', (hbytes frame hread).trans hevents, hunreported⟩
      rw [← bind_pure (checked _)]
      refine Keeping.checked hw (fun r hr => Keeping.pure hw fun x hx => ?_) fun e he x hx => ?_
      · exact (hseen.telling_result hsent hr).rely hx
      · exact ⟨frame, hseen.rely hx, .inr ⟨_, e, rfl, he⟩⟩
    · obtain rfl := he
      exact ⟨[], hlater.rely hx, .inl (hthrown e hread)⟩

/-- **A client that may have submitted** passes a refusal on that it has
decoded, and otherwise says that nothing can be known. -/
theorem keeping_caught {id : String} (hs : Sound number invocationId s)
    (h : Perplexed number i k sent e s)
    (hsent : ∃ secret, encodeRequest challenge secret = .ok sent) :
    Keeping number invocationId i (fun r => Telling number challenge i k (.ok r))
      (fun e => Telling number challenge i k (.error e)) (caught id true e) s := by
  obtain ⟨seen, howns, hread⟩ := h
  unfold caught
  rw [if_pos rfl]
  split
  · next hmark =>
    refine Keeping.fail hs fun t ht => ?_
    obtain hunmarked | ⟨id', error, rfl, hdecoded⟩ := hread
    · exact absurd (hunmarked.symm.trans hmark) (by decide)
    · exact (howns.telling_refused hsent hdecoded hmark).rely ht
  · exact Keeping.fail hs fun t ht => (howns.telling_unavailable hsent).rely ht

/-- **A client that has not submitted** has nothing to say of its request. -/
theorem keeping_caught_before {id : String} (hs : Sound number invocationId s)
    (he : Unmarked e) (h : Owns i k [] [] s) :
    Keeping number invocationId i (fun (_ : Unit) _ => False)
      (fun e => Telling number challenge i k (.error e)) (caught id false e) s := by
  unfold caught
  rw [if_neg Bool.false_ne_true]
  refine Keeping.idle trivial hs h.rely fun aborted t ht howns => ?_
  split
  · refine Keeping.fail ht fun u hu => (howns.telling_before ?_).rely hu
    rfl
  · refine Keeping.fail ht fun u hu => (howns.telling_before ?_).rely hu
    cases e with
    | none => rfl
    | some error => exact he

/-- **A client tells what it knows.** -/
theorem keeping_converse {input : SendInput} (hs : Sound number invocationId s)
    (h : Owns i k [] [] s)
    (hsent : ∃ secret, encodeRequest challenge secret = .ok p.request) :
    Keeping number invocationId i (fun r => Telling number challenge i k (.ok r))
      (fun e => Telling number challenge i k (.error e)) (converse number input p k) s := by
  refine Keeping.bind (P := fun _ => Owns i k [] []) (Keeping.rescue (keeping_reach hs h)
    fun e t ht he => ?_) fun _ t ht howns => ?_
  · exact (keeping_caught_before ht he.1 he.2).mono (fun _ _ hfalse => hfalse.elim) fun _ _ h => h
  · exact Keeping.rescue (keeping_exchange ht howns hsent) fun e u hu he =>
      keeping_caught hu he hsent

end Client

/-- **A client keeps its promise.** -/
theorem keeping_authorizationClient {input : SendInput} (hs : Sound number invocationId s) :
    Keeping number invocationId i (fun _ _ => True) (fun _ _ => True)
      (authorizationClient number input) s := by
  have hprepared : Keeping number invocationId i
      (fun (prepared : Except Thrown Prepared) _ => (∀ e, prepared = .error e → Unmarked e)
        ∧ ∀ p, prepared = .ok p →
          ∃ secret, encodeRequest input.challenge secret = .ok p.request)
      (fun _ _ => True) (attempt (prepare input)) s := by
    refine Keeping.attempt ((keeping_prepare hs).mono (fun p _ hp => ?_) fun e _ he => ?_)
      fun _ h => h
    · exact ⟨fun e he => (by cases he), fun p' hp' => Except.ok.inj hp' ▸ hp⟩
    · exact ⟨fun e' he' => Except.error.inj he' ▸ he, fun p hp => by cases hp⟩
  refine Keeping.bind hprepared fun prepared t ht hknown => ?_
  cases prepared with
  | error e =>
    exact Keeping.last ht (fun _ _ _ => .inl ⟨rfl, e, rfl, hknown.1 e rfl⟩)
      fun _ _ _ _ _ _ _ _ _ => trivial
  | ok p =>
    refine Keeping.asking ht (fun _ _ _ => trivial) fun u socket v hu htu hserve hv => ?_
    have howns := owns_of_served hu hserve
    refine Keeping.bind (Keeping.attempt (keeping_converse hv howns (hknown.2 p rfl))
      fun hst h => h.rely hst) fun outcome w hw htelling => ?_
    refine Keeping.last hw (fun x hx hwx => ?_) fun _ _ _ _ _ _ _ _ _ => trivial
    obtain ⟨a, ha, hpeer, htold⟩ := htelling.rely hwx
    exact .inr ⟨socket, a, rfl, ha, hpeer, htold⟩

/-- **Any other peer writes on its own socket only.** -/
theorem keeping_otherPeer {chunks : List (List UInt8)} (hs : Sound number invocationId s) :
    Keeping number invocationId i (fun _ _ => True) (fun _ _ => True) (otherPeer chunks) s := by
  refine Keeping.asking hs (fun _ _ _ => trivial) fun t socket u ht hst hserve hu => ?_
  have howns : ∃ sent, Owns i socket sent [] u := ⟨[], owns_of_served ht hserve⟩
  clear hserve
  induction chunks generalizing u with
  | nil => exact Keeping.pure hu fun _ _ => trivial
  | cons chunk chunks ih =>
    obtain ⟨sent, howns⟩ := howns
    refine Keeping.asking hu (fun v hv huv => ?_) fun v _ w hv huv hserve hw => ?_
    · obtain ⟨a, ha, hpeer, -, -, hunreported⟩ := howns.rely huv
      exact ⟨a, ha, hpeer, hunreported⟩
    · refine ih w hw ⟨sent ++ chunk, ?_⟩
      obtain ⟨a, ha, hpeer, hsent, -, hunreported⟩ := howns.rely huv
      cases hserve
      refine ⟨_, Channel.modify_eq_some ha, ?_⟩
      rw [if_pos rfl]
      exact ⟨hpeer, congrArg (· ++ chunk) hsent, List.nil_prefix, hunreported⟩

/-- **Every program of the channel keeps its promise.** -/
theorem keeping_of_mayJoin {c : ChannelProgram Unit} (hc : MayJoin number invocationId c)
    (hs : Sound number invocationId s) :
    Keeping number invocationId i (fun _ _ => True) (fun _ _ => True) c s := by
  obtain rfl | rfl | ⟨input, rfl⟩ | ⟨chunks, rfl⟩ := hc
  · exact keeping_serveConnection hs
  · exact Keeping.last hs (fun _ _ _ => trivial) fun _ _ _ _ _ _ _ _ _ => trivial
  · exact keeping_authorizationClient hs
  · exact keeping_otherPeer hs

/-- **In every run the channel is sound.** -/
theorem sound_of_reachable {p : Pool ChannelCall ChannelAnswer Thrown Channel}
    (h : (authorizationChannel number invocationId).Reachable p) :
    Sound number invocationId p.shared := by
  have hkept : Pool.Kept (Relies number invocationId) Serve (Promise number invocationId)
      (Sound number invocationId) p := by
    refine Pool.reachable_keeps (fun _ => Relies.refl) (fun {_ _ _ _} => Relies.trans)
      (fun s hs => hs ▸ sound_listening) (fun i c hc s hs => ?_)
      (fun {i q s a t} hs hpromise hserve => ?_) h
    · exact Keeps.mono (keeping_of_mayJoin hc hs) (fun _ _ _ => trivial) fun _ _ _ => trivial
    · exact ⟨hs.serve hpromise hserve, fun j hij =>
        ⟨hserve.rely hs hpromise hij, fun hs => hs.serve hpromise hserve⟩⟩
  exact hkept.shared

/-! ## Truthfulness -/

/-- **The channel tells the truth.** -/
structure Truthful (invocationId : String) (s : Channel) : Prop where
  oneAtATime : ∀ c ∈ s.calls, ∀ d ∈ s.calls, c.outcome = none → d.outcome = none → c = d
  wellFormed : ∀ c ∈ s.calls, ∃ a, s.sockets[c.socket]? = some a
    ∧ ∃ frame, frame <+: a.inbound ∧ Carries invocationId frame c.request
  refused : ∀ r ∈ s.reports, ∀ e : ChannelError, r.outcome = .error (some e) →
    e.error.code = handlerNotStarted.error.code → ∀ c ∈ s.calls, r.socket ≠ some c.socket
  result : ∀ r ∈ s.reports, ∀ value, r.outcome = .ok value → ∃ c ∈ s.calls,
    r.socket = some c.socket ∧ c.request.challenge = r.challenge
      ∧ ∃ v, c.outcome = some (some v) ∧ retainResult v = some value
  otherwise : ∀ r ∈ s.reports, ∀ k a, r.socket = some k → s.sockets[k]? = some a →
    a.inbound ≠ [] → (∃ value, r.outcome = .ok value) ∨ Inconclusive r.outcome

/-- Two calls of the handler for one socket are one. -/
theorem Sound.call_unique (hs : Sound number invocationId s) {c d : HandlerCall} (hc : c ∈ s.calls)
    (hd : d ∈ s.calls) (h : c.socket = d.socket) : c = d :=
  List.inj_on_of_nodup_map hs.once hc hd h

/-- **What a client decoded of its response was so.** -/
theorem Sound.backed_of_decoded (hs : Sound number invocationId s)
    (hid : isUuid invocationId = true) {a : Socket} {bytes : List UInt8} {id : String}
    (ha : s.sockets[k]? = some a) (hbytes : bytes <+: a.outbound) :
    (∀ r, decodeResponse number bytes id = .ok r → Backed s k (.result r))
      ∧ ∀ e, decodeResponse number bytes id = .error e → e.noHandlerRefusal = true →
        Backed s k (.refusal id) := by
  by_cases hwritten : a.outbound = []
  · rw [hwritten, List.prefix_nil] at hbytes
    obtain rfl := hbytes
    have hinvalid : decodeResponse number [] id = .error responseInvalid := rfl
    rw [hinvalid]
    refine ⟨fun r hr => (by cases hr), fun e he hmark => ?_⟩
    obtain rfl := Except.error.inj he
    cases hmark
  · obtain ⟨v, hv, hown, hbacked⟩ := hs.responses k a ha hwritten
    obtain ⟨hresult, hrefusal⟩ := @HandoffResponse.of_decoded number id _ _
      (hown ▸ hid) (hv ▸ hbytes)
    exact ⟨fun r hr => (hresult r hr).1 ▸ hbacked, fun e he hmark => hrefusal e he hmark ▸ hbacked⟩

/-- A client that has sent nothing has no call of the handler. -/
theorem Sound.no_call_of_unsent (hs : Sound number invocationId s) {a : Socket}
    (ha : s.sockets[k]? = some a) (hunsent : a.inbound = []) : ∀ c ∈ s.calls, c.socket ≠ k := by
  rintro c hc rfl
  obtain ⟨b, hb, -, frame, hframe, hcarries⟩ := hs.carried c hc
  obtain rfl := Option.some.inj (ha.symm.trans hb)
  rw [hunsent, List.prefix_nil] at hframe
  obtain ⟨token, secret, hrequest, -⟩ := hcarries.framed
  exact requestFrame_ne_nil (hrequest.symm.trans hframe)

/-- **A sound channel tells the truth.** -/
theorem Sound.truthful (hs : Sound number invocationId s) (hid : isUuid invocationId = true) :
    Truthful invocationId s where
  oneAtATime c hc d hd hrunning hrunning' := by
    have hactive := hs.pending c hc hrunning
    rw [hs.pending d hd hrunning'] at hactive
    exact (hs.call_unique hd hc (Option.some.inj hactive)).symm
  wellFormed c hc := by
    obtain ⟨a, ha, -, hcarried⟩ := hs.carried c hc
    exact ⟨a, ha, hcarried⟩
  refused r hr e he hcode c hc hsocket := by
    obtain ⟨hnone, -⟩ | ⟨k, a, hk, ha, htold⟩ := hs.reports r hr
    · rw [hnone] at hsocket
      cases hsocket
    obtain rfl := Option.some.inj (hk.symm.trans hsocket)
    by_cases hsent : a.inbound = []
    · exact hs.no_call_of_unsent ha hsent c hc rfl
    obtain ⟨value, hvalue⟩ | hrefused | ⟨id, hunavailable⟩ := htold.settled hsent
    · rw [he] at hvalue
      cases hvalue
    · rw [he] at hrefused
      obtain rfl := Option.some.inj (Except.error.inj hrefused)
      obtain ⟨bytes, id, e', hbytes, hdecoded, hmark⟩ := htold.refused _ he rfl
      exact (hs.backed_of_decoded hid ha hbytes).2 e' hdecoded hmark c hc rfl
    · rw [he] at hunavailable
      obtain rfl := Option.some.inj (Except.error.inj hunavailable)
      have hdifferent : "runtime.authorization-result-unavailable"
          ≠ "runtime.authorization-refused" := by decide
      exact hdifferent hcode
  result r hr value hvalue := by
    obtain ⟨-, e, he, -⟩ | ⟨k, a, hk, ha, htold⟩ := hs.reports r hr
    · rw [he] at hvalue
      cases hvalue
    obtain ⟨bytes, id, hbytes, hdecoded⟩ := htold.result value hvalue
    obtain ⟨c, hc, rfl, v, hv, hretained⟩ :=
      (hs.backed_of_decoded hid ha hbytes).1 value hdecoded
    refine ⟨c, hc, hk, ?_, v, hv, hretained⟩
    obtain ⟨b, hb, -, frame, hframe, hcarries⟩ := hs.carried c hc
    obtain rfl := Option.some.inj (ha.symm.trans hb)
    obtain hunsent | ⟨secret, hsent⟩ := htold.sent
    · exact absurd rfl (hs.no_call_of_unsent ha hunsent c hc)
    · exact hcarries.challenge_eq hsent hframe
  otherwise r hr k a hk ha hsent := by
    obtain ⟨hnone, -⟩ | ⟨l, b, hl, hb, htold⟩ := hs.reports r hr
    · rw [hnone] at hk
      cases hk
    obtain rfl := Option.some.inj (hk.symm.trans hl)
    obtain rfl := Option.some.inj (ha.symm.trans hb)
    exact htold.settled hsent

/-- **The authorization channel is truthful**: however any number of peers
connect, write in parts, time out and disconnect, and however the handler
and `close` come in between,
* the handler runs for one request at a time, which arrived as a well-formed
  frame with a challenge of this invocation,
* a client reports the refusal only where the handler was not called for its
  request, and a result only where the handler returned it for its request,
* any other client that has submitted something reports that the result is
  unavailable. -/
theorem channel_truthful {p : Pool ChannelCall ChannelAnswer Thrown Channel}
    (hid : isUuid invocationId = true)
    (h : (authorizationChannel number invocationId).Reachable p) :
    Truthful invocationId p.shared :=
  (sound_of_reachable h).truthful hid

/-! ## A request that is answered -/

section Run

variable {input : SendInput} {p : Prepared} {r : HandoffResult} {request : ChannelRequest} {v : Json}

/-- **What a client needs** to connect. -/
structure Connects (input : SendInput) (p : Prepared) (directory status : Option FileStatus) :
    Prop where
  challenge : parseInvocationPrivateAuthorizationChallenge input.challenge = some p.challenge
  path : input.socketPath p.challenge.invocationId = .ok p.socketPath
  directory : exactPrivateDirectory input.currentUid directory = .ok ()
  socket : exactPrivateSocket input.currentUid status = .ok p.socketIdentity
  request : encodeRequest p.challenge.token input.authoritySecret = .ok p.request

theorem reaches_checked {x : Except ChannelError α} {f : α → ChannelProgram β} {a : α}
    {transcript : List ((q : ChannelCall) × ChannelAnswer q)} {d : ChannelProgram β}
    (hx : x = .ok a) (h : Reaches (f a) transcript d) :
    Reaches (checked x >>= f) transcript d := by
  obtain rfl := hx
  exact h

variable {directory status : Option FileStatus}

theorem reaches_prepare (h : Connects input p directory status) :
    Reaches (prepare input) [⟨.aborted, false⟩, ⟨.lstat input.socketRoot, directory⟩,
      ⟨.lstat p.socketPath, status⟩] (pure p) := by
  refine .answer (reaches_checked rfl (reaches_checked (a := p.challenge) ?_
    (reaches_checked (a := p.socketPath) ?_ (.answer (reaches_checked h.directory
      (.answer (reaches_checked h.socket (reaches_checked h.request .refl))))))))
  · rw [h.challenge]
    rfl
  · rw [h.path]
    rfl

theorem reaches_reach (h : Connects input p directory status) :
    Reaches (reach input p k)
      [⟨.connected k, true⟩, ⟨.lstat p.socketPath, status⟩, ⟨.aborted, false⟩] (pure ()) := by
  refine .answer (.answer (reaches_checked h.socket (reaches_checked (a := ()) ?_ (.answer .refl))))
  exact failIf_neg (not_not.mpr rfl)

/-- A client that waits for its response. -/
def waiting (number : String → JsNumber) (input : SendInput) (p : Prepared) (k : Nat) :
    ChannelProgram Unit := do
  let outcome ← attempt ((do
    let response ← ask (.response k)
    let frame ← Asking.lift response
    checked (decodeResponse number frame p.challenge.invocationId) : ChannelProgram _).rescue
      (caught p.challenge.invocationId true))
  ask (.report (some k) input.challenge outcome)

/-- **A client up to its submission.** -/
theorem reaches_submitted (h : Connects input p directory status) :
    Reaches (authorizationClient number input)
      [⟨.aborted, false⟩, ⟨.lstat input.socketRoot, directory⟩, ⟨.lstat p.socketPath, status⟩,
        ⟨.createConnection, k⟩, ⟨.connected k, true⟩, ⟨.lstat p.socketPath, status⟩,
        ⟨.aborted, false⟩, ⟨.submit k p.request, ()⟩] (waiting number input p k) := by
  have hprepared := ((reaches_prepare h).bind (f := fun p => pure (Except.ok p))).rescue
    (g := fun e => pure (.error e))
  have hconnected := ((reaches_reach (k := k) h).rescue
    (g := caught p.challenge.invocationId false)).bind
      (f := fun _ => (exchange number p k).rescue (caught p.challenge.invocationId true))
  have hexchange : Reaches (exchange number p k) [⟨.submit k p.request, ()⟩] _ := .answer .refl
  have hsubmitted := hconnected.trans
    (hexchange.rescue (g := caught p.challenge.invocationId true))
  have hattempted := ((hsubmitted.bind (f := fun r => pure (Except.ok r))).rescue
    (g := fun e => pure (.error e))).bind
      (f := fun outcome => ask (.report (some k) input.challenge outcome))
  have hdialled : Reaches (connectAndReport number input (.ok p))
      [⟨.createConnection, k⟩, ⟨.connected k, true⟩, ⟨.lstat p.socketPath, status⟩,
        ⟨.aborted, false⟩, ⟨.submit k p.request, ()⟩] (waiting number input p k) :=
    .answer hattempted
  exact (hprepared.bind (f := connectAndReport number input)).trans hdialled

/-- **A client that reads its result** reports it. -/
theorem reaches_reported {frame : List UInt8}
    (hr : decodeResponse number frame p.challenge.invocationId = .ok r) :
    Reaches (waiting number input p k) [⟨.response k, .ok frame⟩,
      ⟨.report (some k) input.challenge (.ok r), ()⟩] (pure ()) := by
  have hread : Reaches (checked (decodeResponse number frame p.challenge.invocationId)) []
      (pure r) := by
    rw [hr]
    exact .refl
  have hattempted := (((hread.rescue (g := caught p.challenge.invocationId true)).bind
    (f := fun r => pure (Except.ok r))).rescue (g := fun e => pure (.error e))).bind
      (f := fun outcome => ask (.report (some k) input.challenge outcome))
  exact .answer (hattempted.trans (.answer .refl))

/-- **A task that answers a request.** -/
theorem reaches_served {frame : List UInt8}
    (hrequest : decodeRequest frame invocationId = .ok (some request))
    (hv : retainResult v = some r) (hid : r.invocationId = invocationId) :
    Reaches (serveConnection invocationId)
      [⟨.enter, ⟨k, true⟩⟩, ⟨.readRequest k, some frame⟩, ⟨.start k request, ()⟩,
        ⟨.handled k, some v⟩, ⟨.endWith k (encodeResponse (.result r)) true, true⟩,
        ⟨.written k, true⟩, ⟨.leave k, ()⟩] (pure ()) := by
  have hresult : resultOf (some v) = .ok r := by
    show ((createAuthorizationHandoffResult v).mapError some : Except Thrown HandoffResult) = _
    rw [createAuthorizationHandoffResult, hv]
    rfl
  have hhandled : Reaches (handle invocationId k request) [⟨.start k request, ()⟩,
      ⟨.handled k, some v⟩, ⟨.endWith k (encodeResponse (.result r)) true, true⟩,
      ⟨.written k, true⟩] (pure ()) := by
    refine .answer (.answer ?_)
    show Reaches (Asking.lift (resultOf (some v)) >>= _) _ _
    rw [hresult]
    show Reaches (if r.invocationId ≠ invocationId then _ else _) _ _
    rw [if_neg (not_not.mpr hid)]
    exact .answer (.answer .refl)
  have hattended : Reaches (attend invocationId k) [⟨.readRequest k, some frame⟩,
      ⟨.start k request, ()⟩, ⟨.handled k, some v⟩,
      ⟨.endWith k (encodeResponse (.result r)) true, true⟩, ⟨.written k, true⟩] (pure ()) := by
    refine .answer (reaches_checked (a := some request) ?_ hhandled)
    show (decodeRequest frame invocationId).mapError _ = _
    rw [hrequest]
    rfl
  exact .answer (((hattended.rescue (g := fun _ => excuse invocationId k)).bind
    (f := fun _ => ask (.leave k))).trans (.answer .refl))

/-- The channel once a client has its answer. -/
def answered (input : SendInput) (p : Prepared) (request : ChannelRequest) (v : Json)
    (r : HandoffResult) : Channel where
  busy := false
  closing := false
  activeSocket := none
  handlerStarted := false
  sockets := [{
    peer := 0
    inbound := p.request
    task := some 1
    responseStarted := true
    outbound := encodeResponse (.result r)
    destroyed := true }]
  calls := [⟨0, request, some (some v)⟩]
  reports := [⟨some 0, input.challenge, .ok r⟩]

/-- **A client gets its answer**: its request is served while it waits. -/
theorem reachable_answered (h : Connects input p directory status)
    (hread : readRequest [.data p.request, .ended] = .settled (some p.request))
    (hrequest : decodeRequest p.request invocationId = .ok (some request))
    (hv : retainResult v = some r) (hid : r.invocationId = invocationId)
    (hresponse : readAuthorizationResponse [.data (encodeResponse (.result r)), .ended]
      = .settled (.ok (encodeResponse (.result r))))
    (hr : decodeResponse number (encodeResponse (.result r)) p.challenge.invocationId = .ok r) :
    (authorizationChannel number invocationId).Reachable
      ⟨answered input p request v r, [pure (), pure ()]⟩ := by
  have hall (bytes : List UInt8) : delivered [.data bytes, .ended] <+: bytes := by
    have heq : delivered [.data bytes, .ended] = bytes := by
      show bytes ++ ([] ++ []) = bytes
      rw [List.append_nil, List.append_nil]
    exact ⟨[], (List.append_nil _).trans heq⟩
  have hstart : (authorizationChannel number invocationId).Reachable ⟨Channel.listening, []⟩ :=
    .of_initial ⟨rfl, rfl⟩
  have hclient : Served (Serve 0) Channel.listening
      [⟨.aborted, false⟩, ⟨.lstat input.socketRoot, directory⟩, ⟨.lstat p.socketPath, status⟩,
        ⟨.createConnection, 0⟩, ⟨.connected 0, true⟩, ⟨.lstat p.socketPath, status⟩,
        ⟨.aborted, false⟩, ⟨.submit 0 p.request, ()⟩]
      { Channel.listening with sockets := [{ peer := 0, inbound := p.request }] } :=
    .cons .aborted (.cons .lstat (.cons .lstat (.cons .createConnection (.cons .connected
      (.cons .lstat (.cons .aborted (.cons .submit .nil)))))))
  have hsubmitted := Pool.reachable_of_joined hstart (.inr (.inr (.inl ⟨input, rfl⟩)))
    (reaches_submitted h) hclient
  have hserver : Served (Serve 1)
      { Channel.listening with sockets := [{ peer := 0, inbound := p.request }] }
      [⟨.enter, ⟨0, true⟩⟩, ⟨.readRequest 0, some p.request⟩, ⟨.start 0 request, ()⟩,
        ⟨.handled 0, some v⟩, ⟨.endWith 0 (encodeResponse (.result r)) true, true⟩,
        ⟨.written 0, true⟩, ⟨.leave 0, ()⟩] { answered input p request v r with reports := [] } :=
    .cons (.enter rfl rfl) (.cons (.readRequest rfl (hall _) hread) (.cons .start (.cons .handled
      (.cons (.ended rfl rfl) (.cons .written (.cons .leave .nil))))))
  have hserved := Pool.reachable_of_joined hsubmitted (.inl rfl) (reaches_served hrequest hv hid)
    hserver
  have hreport : Served (Serve 0) { answered input p request v r with reports := [] }
      [⟨.response 0, .ok (encodeResponse (.result r))⟩,
        ⟨.report (some 0) input.challenge (.ok r), ()⟩] (answered input p request v r) :=
    .cons (.response rfl (hall _) hresponse) (.cons .report .nil)
  exact Pool.reachable_of_reaches (reaches_reported hr) hserved rfl hreport

end Run

namespace Sample

def token : String :=
  "lcw1.00000000-0000-0000-0000-000000000000.AAAAAAAAAAAAAAAAAAAAAAAAAAAAAAAAAAAAAAAAAAA"

def secret : List UInt8 := List.replicate 32 97

def result : HandoffResult where
  invocationId := "00000000-0000-0000-0000-000000000000"
  operation := .admission
  deliveryId := "delivery-1"
  status := .completed
  resultDigest := "sha256:0000000000000000000000000000000000000000000000000000000000000000"

def input : SendInput where
  challenge := token
  authoritySecret := secret
  socketRoot := "/tmp/lcw-1000"
  socketPath _ := .ok "/tmp/lcw-1000/00000000-0000-0000-0000-000000000000.sock"
  currentUid := some 1000

def prepared : Prepared where
  challenge := ⟨token, "00000000-0000-0000-0000-000000000000"⟩
  socketPath := "/tmp/lcw-1000/00000000-0000-0000-0000-000000000000.sock"
  socketIdentity := ⟨1, 2⟩
  request := requestFrame (asciiBytes token) secret

def directory : FileStatus := ⟨true, false, false, 16832, 1000, 1, 1⟩

def socket : FileStatus := ⟨false, true, false, 49536, 1000, 1, 2⟩

def request : ChannelRequest where
  challenge := token
  authorityCredential := ⟨String.ofList (List.replicate 32 'a'), .directorDecision⟩

def value : Json := .object (recordOfTexts (HandoffResponse.result result).members)

end Sample

open Sample in
/-- A request that is answered with its result. -/
theorem channel_truthful_answered :
    (answered input prepared request value result).reports = [⟨some 0, token, .ok result⟩]
      ∧ Truthful "00000000-0000-0000-0000-000000000000"
        (answered input prepared request value result) := by
  have hconnects : Connects input prepared (some directory) (some socket) :=
    ⟨by decide +kernel, by decide +kernel, by decide +kernel, by decide +kernel, by decide +kernel⟩
  have hresponse : decodeResponse (fun _ => .integer 0) (encodeResponse (.result result))
      prepared.challenge.invocationId = .ok result := by
    rw [HandoffResponse.decodeResponse_encodeResponse (by decide +kernel)]
    decide +kernel
  have hid : isUuid "00000000-0000-0000-0000-000000000000" = true := by decide +kernel
  refine ⟨rfl, channel_truthful hid (reachable_answered hconnects ?_ ?_ ?_ rfl ?_ hresponse)⟩
  all_goals decide +kernel

end Authorization
