import Lifecycle.AuthorizationChannel

/-!
# What the peers of the authorization channel are told

Any number of peers meet the server of one invocation. Each program keeps a
promise about what it asks (`Promise`) and relies on the others for its own
socket (`Rely`); from that, in every run,
* the handler runs for one request at a time, and only for a request that
  arrived as a well-formed frame of the invocation,
* a refusal is written only where the handler is not called, and a result
  only where the handler returned it (`Sound`),
and what a client reports is what was written on its own socket
(`channel_truthful`).
-/

open Fallible Json Asking

namespace Authorization

variable {number : String → JsNumber} {invocationId : String} {s t u : Channel} {i j k : Nat}
  {a b : Socket}

/-! ## Sockets -/

theorem Channel.modify_eq_some {f : Socket → Socket} (h : s.sockets[k]? = some a) :
    (s.modify j f).sockets[k]? = some (if j = k then f a else a) := by
  show (s.sockets.modify j f)[k]? = _
  rw [List.getElem?_modify, h]
  rfl

theorem Channel.of_modify {f : Socket → Socket} (h : (s.modify j f).sockets[k]? = some b) :
    ∃ a, s.sockets[k]? = some a ∧ b = if j = k then f a else a := by
  have hget : (s.sockets.modify j f)[k]? = some b := h
  rw [List.getElem?_modify] at hget
  obtain ⟨a, ha, rfl⟩ := Option.map_eq_some_iff.mp hget
  exact ⟨a, ha, rfl⟩

/-! ## What is promised -/

/-- **What a response says is so.** -/
def Backed (s : Channel) (k : Nat) : HandoffResponse → Prop
  | .result r => ∃ c ∈ s.calls, c.socket = k ∧ ∃ v, c.outcome = some (some v)
      ∧ retainResult v = some r
  | .refusal _ => ∀ c ∈ s.calls, c.socket ≠ k
  | .unavailable _ => True

/-- A report that is a refusal or says that nothing can be known. -/
def Inconclusive (outcome : Except Thrown HandoffResult) : Prop :=
  outcome = .error (some handlerNotStarted)
    ∨ ∃ id, outcome = .error (some (observationUnavailable id))

/-- **What a client may report** of its socket. -/
structure Told (number : String → JsNumber) (challenge : String) (a : Socket)
    (outcome : Except Thrown HandoffResult) : Prop where
  result : ∀ r, outcome = .ok r → ∃ bytes id, bytes <+: a.outbound
    ∧ decodeResponse number bytes id = .ok r
  refused : ∀ e, outcome = .error (some e) → e.noHandlerRefusal = true →
    ∃ bytes id e', bytes <+: a.outbound ∧ decodeResponse number bytes id = .error e'
      ∧ e'.noHandlerRefusal = true
  sent : a.inbound = [] ∨ ∃ secret, encodeRequest challenge secret = .ok a.inbound
  settled : a.inbound ≠ [] → (∃ r, outcome = .ok r) ∨ Inconclusive outcome

/-- A report of a client that never held a socket. -/
def Unreached (outcome : Except Thrown HandoffResult) : Prop :=
  ∃ e, outcome = .error e ∧ e.any (·.noHandlerRefusal) = false

/-- **What every question promises.** -/
def Promise (number : String → JsNumber) (invocationId : String) (i : Nat) (s : Channel) :
    ChannelCall → Prop
  | .start k request => ∃ a, s.sockets[k]? = some a ∧ a.task = some i ∧ a.outbound = []
      ∧ s.activeSocket = some k ∧ (∀ c ∈ s.calls, c.socket ≠ k)
      ∧ ∃ frame, frame <+: a.inbound ∧ Carries invocationId frame request
  | .handled k => ∃ a, s.sockets[k]? = some a ∧ a.task = some i
      ∧ ∀ c ∈ s.calls, c.socket = k → c.outcome = none
  | .endWith k response _ => ∃ a, s.sockets[k]? = some a ∧ a.task = some i ∧ a.outbound = []
      ∧ ∃ v : HandoffResponse, response = encodeResponse v ∧ v.invocationId = invocationId
        ∧ Backed s k v
  | .leave k => ∃ a, s.sockets[k]? = some a ∧ a.task = some i ∧ s.activeSocket = some k
      ∧ ∀ c ∈ s.calls, c.socket = k → c.outcome ≠ none
  | .submit k _ => ∃ a, s.sockets[k]? = some a ∧ a.peer = i ∧ ∀ r ∈ s.reports, r.socket ≠ some k
  | .report socket challenge outcome => (socket = none ∧ Unreached outcome)
      ∨ ∃ k a, socket = some k ∧ s.sockets[k]? = some a ∧ a.peer = i
        ∧ Told number challenge a outcome
  | _ => True

/-- **What holds of the channel after every step.** -/
structure Sound (number : String → JsNumber) (invocationId : String) (s : Channel) : Prop where
  idle : s.busy = false → s.activeSocket = none ∧ s.handlerStarted = false
  carried : ∀ c ∈ s.calls, ∃ a, s.sockets[c.socket]? = some a ∧ a.task ≠ none
    ∧ ∃ frame, frame <+: a.inbound ∧ Carries invocationId frame c.request
  once : (s.calls.map (·.socket)).Nodup
  pending : ∀ c ∈ s.calls, c.outcome = none → s.activeSocket = some c.socket
  fresh : ∀ (k : Nat) (a : Socket), s.sockets[k]? = some a → a.task = none →
    a.outbound = [] ∧ a.responseStarted = false
  responses : ∀ (k : Nat) (a : Socket), s.sockets[k]? = some a → a.outbound ≠ [] →
    ∃ v : HandoffResponse, a.outbound = encodeResponse v ∧ v.invocationId = invocationId
      ∧ Backed s k v
  reports : ∀ r ∈ s.reports, (r.socket = none ∧ Unreached r.outcome)
    ∨ ∃ k a, r.socket = some k ∧ s.sockets[k]? = some a ∧ Told number r.challenge a r.outcome

/-! ## What the others leave alone -/

/-- **What a socket keeps** while other programs go on. -/
structure Later (i : Nat) (a b : Socket) : Prop where
  peer : b.peer = a.peer
  inbound : a.inbound <+: b.inbound
  outbound : a.outbound <+: b.outbound
  task : a.task ≠ none → b.task = a.task
  own : a.peer = i → b.inbound = a.inbound
  served : a.task = some i → b.outbound = a.outbound ∧ b.responseStarted = a.responseStarted

theorem Later.refl : Later i a a :=
  ⟨rfl, List.prefix_refl _, List.prefix_refl _, fun _ => rfl, fun _ => rfl, fun _ => ⟨rfl, rfl⟩⟩

theorem Later.trans {c : Socket} (hab : Later i a b) (hbc : Later i b c) : Later i a c where
  peer := hbc.peer.trans hab.peer
  inbound := hab.inbound.trans hbc.inbound
  outbound := hab.outbound.trans hbc.outbound
  task h := (hbc.task (hab.task h ▸ h)).trans (hab.task h)
  own h := (hbc.own (hab.peer.trans h)).trans (hab.own h)
  served h := by
    have htask : b.task = some i := (hab.task (by rw [h]; exact Option.some_ne_none i)).trans h
    obtain ⟨hout, hstarted⟩ := hab.served h
    obtain ⟨hout', hstarted'⟩ := hbc.served htask
    exact ⟨hout'.trans hout, hstarted'.trans hstarted⟩

/-- **What a program relies on**: nobody writes on the sockets it dialled or
serves, nobody ends its turn or calls the handler for it, and nobody reports
for it. -/
structure Rely (i : Nat) (s t : Channel) : Prop where
  sockets : ∀ (k : Nat) (a : Socket), s.sockets[k]? = some a → ∃ b, t.sockets[k]? = some b ∧ Later i a b
  active : ∀ (k : Nat) (a : Socket), s.sockets[k]? = some a → a.task = some i → s.activeSocket = some k →
    t.activeSocket = some k ∧ t.handlerStarted = s.handlerStarted
  calls : ∀ (k : Nat) (a : Socket), s.sockets[k]? = some a → a.task = some i → ∀ c : HandlerCall, c.socket = k →
    (c ∈ t.calls ↔ c ∈ s.calls)
  reports : ∀ (k : Nat) (a : Socket), s.sockets[k]? = some a → a.peer = i → ∀ r ∈ t.reports, r.socket = some k →
    r ∈ s.reports

theorem Rely.refl : Rely i s s :=
  ⟨fun _ a ha => ⟨a, ha, .refl⟩, fun _ _ _ _ h => ⟨h, rfl⟩, fun _ _ _ _ _ _ => Iff.rfl,
    fun _ _ _ _ _ hr _ => hr⟩

theorem Rely.trans (hst : Rely i s t) (htu : Rely i t u) : Rely i s u where
  sockets k a ha := by
    obtain ⟨b, hb, hab⟩ := hst.sockets k a ha
    obtain ⟨c, hc, hbc⟩ := htu.sockets k b hb
    exact ⟨c, hc, hab.trans hbc⟩
  active k a ha htask hactive := by
    obtain ⟨b, hb, hab⟩ := hst.sockets k a ha
    have hserved : b.task = some i := (hab.task (by rw [htask]; simp)).trans htask
    obtain ⟨hactive', hstarted⟩ := hst.active k a ha htask hactive
    obtain ⟨hactive'', hstarted'⟩ := htu.active k b hb hserved hactive'
    exact ⟨hactive'', hstarted'.trans hstarted⟩
  calls k a ha htask c hc := by
    obtain ⟨b, hb, hab⟩ := hst.sockets k a ha
    have hserved : b.task = some i := (hab.task (by rw [htask]; simp)).trans htask
    exact (htu.calls k b hb hserved c hc).trans (hst.calls k a ha htask c hc)
  reports k a ha hpeer r hr hk := by
    obtain ⟨b, hb, hab⟩ := hst.sockets k a ha
    exact hst.reports k a ha hpeer r (htu.reports k b hb (hab.peer.trans hpeer) r hr hk) hk

/-! ## What an answer changes -/

/-- **What one answer to a program changes of a socket.** -/
structure Answered (i : Nat) (a b : Socket) : Prop where
  peer : b.peer = a.peer
  inbound : a.inbound <+: b.inbound
  outbound : a.outbound <+: b.outbound
  task : a.task ≠ none → b.task = a.task
  others : a.peer ≠ i → b.inbound = a.inbound
  unserved : a.task ≠ some i → b.outbound = a.outbound ∧ b.responseStarted = a.responseStarted

theorem Answered.refl : Answered i a a :=
  ⟨rfl, List.prefix_refl _, List.prefix_refl _, fun _ => rfl, fun _ => rfl, fun _ => ⟨rfl, rfl⟩⟩

theorem Answered.later (h : Answered i a b) (hij : j ≠ i) : Later j a b where
  peer := h.peer
  inbound := h.inbound
  outbound := h.outbound
  task := h.task
  own hpeer := h.others (hpeer ▸ hij)
  served htask := h.unserved fun heq => hij (Option.some.inj (htask.symm.trans heq))

/-- A change of one socket, as far as the sockets go. -/
theorem answered_modify {f : Socket → Socket} {t : Channel}
    (ht : t.sockets = (s.modify k f).sockets)
    (hf : ∀ a, s.sockets[k]? = some a → Answered i a (f a)) :
    ∀ (l : Nat) (a : Socket), s.sockets[l]? = some a → ∃ b, t.sockets[l]? = some b ∧ Answered i a b := by
  intro l a ha
  rw [ht]
  refine ⟨_, Channel.modify_eq_some ha, ?_⟩
  split
  · next hkl => exact hf a (hkl ▸ ha)
  · exact .refl

/-- **What an answer changes of the sockets.** -/
theorem Serve.answered {q : ChannelCall} {answer : ChannelAnswer q}
    (hpromise : Promise number invocationId i s q) (h : Serve i q s answer t) :
    ∀ (l : Nat) (a : Socket), s.sockets[l]? = some a → ∃ b, t.sockets[l]? = some b ∧ Answered i a b := by
  have hsame : ∀ (l : Nat) (a : Socket), s.sockets[l]? = some a → ∃ b, s.sockets[l]? = some b ∧ Answered i a b :=
    fun _ a ha => ⟨a, ha, .refl⟩
  cases h with
  | @enter _ k a hk htask =>
    have hmodified : (s.enter i k).sockets
        = (s.modify k fun a => { a with task := some i }).sockets := by
      unfold Channel.enter
      split <;> rfl
    refine answered_modify hmodified fun b hb => ?_
    obtain rfl := Option.some.inj (hk.symm.trans hb)
    exact ⟨rfl, List.prefix_refl _, List.prefix_refl _, fun hne => absurd htask hne, fun _ => rfl,
      fun _ => ⟨rfl, rfl⟩⟩
  | @ended _ k response beforeWrite a hk _ =>
    obtain ⟨b, hb, htask, houtbound, -⟩ := hpromise
    refine answered_modify rfl fun c hc => ?_
    obtain rfl := Option.some.inj (hb.symm.trans hc)
    exact ⟨rfl, List.prefix_refl _, houtbound ▸ List.nil_prefix, fun _ => rfl, fun _ => rfl,
      fun hne => absurd htask hne⟩
  | @submit _ k bytes =>
    obtain ⟨b, hb, hpeer, -⟩ := hpromise
    refine answered_modify rfl fun c hc => ?_
    obtain rfl := Option.some.inj (hb.symm.trans hc)
    exact ⟨rfl, List.prefix_append _ _, List.prefix_refl _, fun _ => rfl,
      fun hne => absurd hpeer hne, fun _ => ⟨rfl, rfl⟩⟩
  | destroy => exact answered_modify rfl fun _ _ => ⟨rfl, List.prefix_refl _, List.prefix_refl _,
      fun _ => rfl, fun _ => rfl, fun _ => ⟨rfl, rfl⟩⟩
  | leave => exact answered_modify rfl fun _ _ => ⟨rfl, List.prefix_refl _, List.prefix_refl _,
      fun _ => rfl, fun _ => rfl, fun _ => ⟨rfl, rfl⟩⟩
  | close =>
    unfold Channel.close
    split
    · exact hsame
    · split
      · exact hsame
      · exact answered_modify rfl fun _ _ => ⟨rfl, List.prefix_refl _, List.prefix_refl _,
          fun _ => rfl, fun _ => rfl, fun _ => ⟨rfl, rfl⟩⟩
  | createConnection =>
    intro l a ha
    refine ⟨a, ?_, .refl⟩
    rw [List.getElem?_append_left (List.getElem?_eq_some_iff.mp ha).1]
    exact ha
  | _ => exact hsame

/-! ## What the others count on -/

theorem Channel.close_eq (s : Channel) : s.close.activeSocket = s.activeSocket
    ∧ s.close.handlerStarted = s.handlerStarted ∧ s.close.busy = s.busy
    ∧ s.close.calls = s.calls ∧ s.close.reports = s.reports := by
  unfold Channel.close
  split
  · exact ⟨rfl, rfl, rfl, rfl, rfl⟩
  · split <;> exact ⟨rfl, rfl, rfl, rfl, rfl⟩

theorem Channel.enter_eq (s : Channel) (i k : Nat) : (s.enter i k).calls = s.calls
    ∧ (s.enter i k).reports = s.reports
    ∧ (s.enter i k).handlerStarted = s.handlerStarted := by
  unfold Channel.enter
  split <;> exact ⟨rfl, rfl, rfl⟩

/-- A turn is not taken from its task. -/
theorem Serve.active {q : ChannelCall} {answer : ChannelAnswer q} (hs : Sound number invocationId s)
    (hpromise : Promise number invocationId i s q) (h : Serve i q s answer t) (hij : j ≠ i)
    (ha : s.sockets[k]? = some a) (htask : a.task = some j) (hactive : s.activeSocket = some k) :
    t.activeSocket = some k ∧ t.handlerStarted = s.handlerStarted := by
  have hother (l : Nat) (hl : ∃ b, s.sockets[l]? = some b ∧ b.task = some i)
      (hsame : s.activeSocket = some l) : False := by
    obtain ⟨b, hb, hserved⟩ := hl
    obtain rfl := Option.some.inj (hactive.symm.trans hsame)
    obtain rfl := Option.some.inj (ha.symm.trans hb)
    exact hij (Option.some.inj (htask.symm.trans hserved))
  cases h with
  | enter _ _ =>
    unfold Channel.enter
    split
    · exact ⟨hactive, rfl⟩
    · next hfree =>
      have hidle := (hs.idle (Bool.eq_false_iff.mpr fun hb => hfree (.inr hb))).1
      exact absurd (hidle.symm.trans hactive) (by simp)
  | start =>
    obtain ⟨b, hb, hserved, -, hsame, -⟩ := hpromise
    exact (hother _ ⟨b, hb, hserved⟩ hsame).elim
  | leave =>
    obtain ⟨b, hb, hserved, hsame, -⟩ := hpromise
    exact (hother _ ⟨b, hb, hserved⟩ hsame).elim
  | close => exact ⟨s.close_eq.1.trans hactive, s.close_eq.2.1⟩
  | _ => exact ⟨hactive, rfl⟩

/-- Nobody calls the handler for another task, or answers it. -/
theorem Serve.calls {q : ChannelCall} {answer : ChannelAnswer q}
    (hpromise : Promise number invocationId i s q) (h : Serve i q s answer t) (hij : j ≠ i)
    (ha : s.sockets[k]? = some a) (htask : a.task = some j) {c : HandlerCall} (hc : c.socket = k) :
    c ∈ t.calls ↔ c ∈ s.calls := by
  have hother (l : Nat) (hl : ∃ b, s.sockets[l]? = some b ∧ b.task = some i) : l ≠ k := by
    rintro rfl
    obtain ⟨b, hb, hserved⟩ := hl
    obtain rfl := Option.some.inj (ha.symm.trans hb)
    exact hij (Option.some.inj (htask.symm.trans hserved))
  cases h with
  | enter _ _ => rw [(s.enter_eq i _).1]
  | @start _ l request =>
    obtain ⟨b, hb, hserved, -⟩ := hpromise
    show c ∈ s.calls ++ [_] ↔ _
    rw [List.mem_append, List.mem_singleton, or_iff_left]
    rintro rfl
    exact hother l ⟨b, hb, hserved⟩ hc
  | @handled _ l value =>
    obtain ⟨b, hb, hserved, -⟩ := hpromise
    have hne := hother l ⟨b, hb, hserved⟩
    show c ∈ s.calls.map _ ↔ _
    rw [List.mem_map]
    constructor
    · rintro ⟨d, hd, rfl⟩
      split at hc
      · next heq => exact absurd (heq.symm.trans hc) hne
      · next heq => rwa [if_neg heq]
    · intro hmem
      refine ⟨c, hmem, if_neg ?_⟩
      rw [hc]
      exact Ne.symm hne
  | close => rw [s.close_eq.2.2.2.1]
  | _ => exact Iff.rfl

/-- Nobody reports on another's socket. -/
theorem Serve.reports {q : ChannelCall} {answer : ChannelAnswer q}
    (hpromise : Promise number invocationId i s q) (h : Serve i q s answer t) (hij : j ≠ i)
    (ha : s.sockets[k]? = some a) (hpeer : a.peer = j) {r : Report} (hr : r ∈ t.reports)
    (hk : r.socket = some k) : r ∈ s.reports := by
  cases h with
  | enter _ _ => rwa [(s.enter_eq i _).2.1] at hr
  | close => rwa [s.close_eq.2.2.2.2] at hr
  | report =>
    obtain hr | hr := List.mem_append.mp hr
    · exact hr
    · obtain rfl := List.mem_singleton.mp hr
      obtain ⟨hnone, -⟩ | ⟨l, b, hl, hb, hown, -⟩ := hpromise
      · exact absurd (hnone.symm.trans hk) (by simp)
      · obtain rfl := Option.some.inj (hk.symm.trans hl)
        obtain rfl := Option.some.inj (ha.symm.trans hb)
        exact absurd (hpeer.symm.trans hown) hij
  | _ => exact hr

/-- **An answer that keeps the promise is one the others rely on.** -/
theorem Serve.rely {q : ChannelCall} {answer : ChannelAnswer q} (hs : Sound number invocationId s)
    (hpromise : Promise number invocationId i s q) (h : Serve i q s answer t) (hij : j ≠ i) :
    Rely j s t where
  sockets k a ha := by
    obtain ⟨b, hb, hanswered⟩ := h.answered hpromise k a ha
    exact ⟨b, hb, hanswered.later hij⟩
  active _ _ ha htask hactive := h.active hs hpromise hij ha htask hactive
  calls _ _ ha htask _ hc := h.calls hpromise hij ha htask hc
  reports _ _ ha hpeer _ hr hk := h.reports hpromise hij ha hpeer hr hk

/-! ## What holds after every step -/

/-- A socket was there before, unless it has just been dialled. -/
theorem Serve.of_socket {q : ChannelCall} {answer : ChannelAnswer q} (h : Serve i q s answer t)
    (hb : t.sockets[k]? = some b) : (∃ a, s.sockets[k]? = some a)
      ∨ b.task = none ∧ b.outbound = [] ∧ b.responseStarted = false := by
  have hmodify {u : Channel} {l : Nat} {f : Socket → Socket}
      (hu : u.sockets = (s.modify l f).sockets) (hget : u.sockets[k]? = some b) :
      ∃ a, s.sockets[k]? = some a := by
    rw [hu] at hget
    obtain ⟨a, ha, -⟩ := Channel.of_modify hget
    exact ⟨a, ha⟩
  cases h with
  | enter _ _ =>
    refine .inl ?_
    unfold Channel.enter at hb
    split at hb <;> exact hmodify rfl hb
  | ended _ _ => exact .inl (hmodify rfl hb)
  | submit => exact .inl (hmodify rfl hb)
  | destroy => exact .inl (hmodify rfl hb)
  | leave => exact .inl (hmodify rfl hb)
  | close =>
    refine .inl ?_
    unfold Channel.close at hb
    split at hb
    · exact ⟨b, hb⟩
    · split at hb
      · exact ⟨b, hb⟩
      · exact hmodify rfl hb
  | createConnection =>
    rw [List.getElem?_append] at hb
    split at hb
    · exact .inl ⟨b, hb⟩
    · rw [List.getElem?_singleton] at hb
      split at hb
      · obtain rfl := Option.some.inj hb
        exact .inr ⟨rfl, rfl, rfl⟩
      · cases hb
  | _ => exact .inl ⟨b, hb⟩

/-- What a response says stays so. -/
theorem Backed.serve {q : ChannelCall} {answer : ChannelAnswer q} {v : HandoffResponse}
    (hpromise : Promise number invocationId i s q) (h : Serve i q s answer t)
    (ha : s.sockets[k]? = some a) (hwritten : a.outbound ≠ []) (hv : Backed s k v) :
    Backed t k v := by
  have hsame {u : Channel} (hu : u.calls = s.calls) : Backed u k v := by
    cases v with
    | result r =>
      show ∃ c ∈ u.calls, _
      rw [hu]
      exact hv
    | refusal id =>
      show ∀ c ∈ u.calls, _
      rw [hu]
      exact hv
    | unavailable id => trivial
  cases h with
  | enter _ _ => exact hsame (s.enter_eq i _).1
  | close => exact hsame s.close_eq.2.2.2.1
  | @start _ l request =>
    obtain ⟨b, hb, -, hempty, -⟩ := hpromise
    have hne : l ≠ k := by
      rintro rfl
      obtain rfl := Option.some.inj (ha.symm.trans hb)
      exact hwritten hempty
    cases v with
    | result r =>
      obtain ⟨c, hc, hrest⟩ := hv
      exact ⟨c, List.mem_append_left _ hc, hrest⟩
    | refusal id =>
      intro c hc
      obtain hc | hc := List.mem_append.mp hc
      · exact hv c hc
      · obtain rfl := List.mem_singleton.mp hc
        exact hne
    | unavailable id => trivial
  | @handled _ l value =>
    obtain ⟨b, hb, -, hrunning⟩ := hpromise
    cases v with
    | result r =>
      obtain ⟨c, hc, hk, w, hw, hr⟩ := hv
      have hne : c.socket ≠ l := by
        intro heq
        rw [hrunning c hc heq] at hw
        cases hw
      exact ⟨c, List.mem_map.mpr ⟨c, hc, if_neg hne⟩, hk, w, hw, hr⟩
    | refusal id =>
      intro c hc
      obtain ⟨d, hd, rfl⟩ := List.mem_map.mp hc
      split
      · exact hv d hd
      · exact hv d hd
    | unavailable id => trivial
  | _ => exact hsame rfl

/-- What is on the wire was put there by the task, or is there now. -/
theorem Serve.outbound {q : ChannelCall} {answer : ChannelAnswer q}
    (hpromise : Promise number invocationId i s q) (h : Serve i q s answer t)
    (ha : s.sockets[k]? = some a) (hb : t.sockets[k]? = some b) :
    b.outbound = a.outbound ∨ ∃ v : HandoffResponse, b.outbound = encodeResponse v
      ∧ v.invocationId = invocationId ∧ Backed t k v := by
  have hmodify {u : Channel} {l : Nat} {f : Socket → Socket}
      (hu : u.sockets = (s.modify l f).sockets) (hget : u.sockets[k]? = some b)
      (hf : ∀ a, (f a).outbound = a.outbound) : b.outbound = a.outbound := by
    rw [hu] at hget
    obtain ⟨c, hc, rfl⟩ := Channel.of_modify hget
    obtain rfl := Option.some.inj (ha.symm.trans hc)
    split
    · exact hf a
    · rfl
  cases h with
  | enter _ _ =>
    refine .inl ?_
    unfold Channel.enter at hb
    split at hb <;> exact hmodify rfl hb fun _ => rfl
  | @ended _ l response beforeWrite c hc hopen =>
    obtain ⟨d, hd, -, -, v, rfl, hv, hbacked⟩ := hpromise
    obtain ⟨e, he, rfl⟩ := Channel.of_modify hb
    obtain rfl := Option.some.inj (ha.symm.trans he)
    split
    · next heq => exact .inr ⟨v, rfl, hv, heq ▸ hbacked⟩
    · exact .inl rfl
  | submit => exact .inl (hmodify rfl hb fun _ => rfl)
  | destroy => exact .inl (hmodify rfl hb fun _ => rfl)
  | leave => exact .inl (hmodify rfl hb fun _ => rfl)
  | close =>
    refine .inl ?_
    unfold Channel.close at hb
    split at hb
    · exact congrArg Socket.outbound (Option.some.inj (hb.symm.trans ha))
    · split at hb
      · exact congrArg Socket.outbound (Option.some.inj (hb.symm.trans ha))
      · exact hmodify rfl hb fun _ => rfl
  | createConnection =>
    rw [List.getElem?_append_left (List.getElem?_eq_some_iff.mp ha).1] at hb
    exact .inl (congrArg Socket.outbound (Option.some.inj (hb.symm.trans ha)))
  | _ => exact .inl (congrArg Socket.outbound (Option.some.inj (hb.symm.trans ha)))

/-- A socket that was reported on is not written on any more. -/
theorem Serve.inbound {q : ChannelCall} {answer : ChannelAnswer q}
    (hpromise : Promise number invocationId i s q) (h : Serve i q s answer t)
    (ha : s.sockets[k]? = some a) (hb : t.sockets[k]? = some b)
    (hreported : ∃ r ∈ s.reports, r.socket = some k) : b.inbound = a.inbound := by
  have hmodify {u : Channel} {l : Nat} {f : Socket → Socket}
      (hu : u.sockets = (s.modify l f).sockets) (hget : u.sockets[k]? = some b)
      (hf : l = k → (f a).inbound = a.inbound) : b.inbound = a.inbound := by
    rw [hu] at hget
    obtain ⟨c, hc, rfl⟩ := Channel.of_modify hget
    obtain rfl := Option.some.inj (ha.symm.trans hc)
    split
    · next heq => exact hf heq
    · rfl
  cases h with
  | enter _ _ =>
    unfold Channel.enter at hb
    split at hb <;> exact hmodify rfl hb fun _ => rfl
  | ended _ _ => exact hmodify rfl hb fun _ => rfl
  | submit =>
    obtain ⟨c, hc, -, hunreported⟩ := hpromise
    obtain ⟨r, hr, hk⟩ := hreported
    exact hmodify rfl hb fun heq => absurd (heq ▸ hk) (hunreported r hr)
  | destroy => exact hmodify rfl hb fun _ => rfl
  | leave => exact hmodify rfl hb fun _ => rfl
  | close =>
    unfold Channel.close at hb
    split at hb
    · exact congrArg Socket.inbound (Option.some.inj (hb.symm.trans ha))
    · split at hb
      · exact congrArg Socket.inbound (Option.some.inj (hb.symm.trans ha))
      · exact hmodify rfl hb fun _ => rfl
  | createConnection =>
    rw [List.getElem?_append_left (List.getElem?_eq_some_iff.mp ha).1] at hb
    exact congrArg Socket.inbound (Option.some.inj (hb.symm.trans ha))
  | _ => exact congrArg Socket.inbound (Option.some.inj (hb.symm.trans ha))

/-- What was told of a socket stays true of it. -/
theorem Told.mono {challenge : String} {outcome : Except Thrown HandoffResult}
    (h : Told number challenge a outcome) (hin : b.inbound = a.inbound)
    (hout : a.outbound <+: b.outbound) : Told number challenge b outcome where
  result r hr := by
    obtain ⟨bytes, id, hbytes, hdecoded⟩ := h.result r hr
    exact ⟨bytes, id, hbytes.trans hout, hdecoded⟩
  refused e he hmark := by
    obtain ⟨bytes, id, e', hbytes, hdecoded⟩ := h.refused e he hmark
    exact ⟨bytes, id, e', hbytes.trans hout, hdecoded⟩
  sent := hin ▸ h.sent
  settled := hin ▸ h.settled

theorem sound_listening : Sound number invocationId Channel.listening where
  idle _ := ⟨rfl, rfl⟩
  carried _ hc := absurd hc List.not_mem_nil
  once := List.nodup_nil
  pending _ hc := absurd hc List.not_mem_nil
  fresh k a ha := by
    rw [Channel.listening, List.getElem?_nil] at ha
    cases ha
  responses k a ha := by
    rw [Channel.listening, List.getElem?_nil] at ha
    cases ha
  reports _ hr := absurd hr List.not_mem_nil

section Step

variable {q : ChannelCall} {answer : ChannelAnswer q}

/-- Nobody is served while the server is idle. -/
theorem Sound.idle_serve (hs : Sound number invocationId s)
    (hpromise : Promise number invocationId i s q) (h : Serve i q s answer t)
    (hbusy : t.busy = false) : t.activeSocket = none ∧ t.handlerStarted = false := by
  cases h with
  | enter _ _ =>
    unfold Channel.enter at hbusy ⊢
    split at hbusy
    · next hrefused =>
      rw [if_pos hrefused]
      exact hs.idle hbusy
    · cases hbusy
  | start =>
    obtain ⟨b, -, -, -, hactive, -⟩ := hpromise
    exact absurd ((hs.idle hbusy).1.symm.trans hactive) (by simp)
  | leave => exact ⟨rfl, rfl⟩
  | close =>
    rw [s.close_eq.1, s.close_eq.2.1]
    exact hs.idle (s.close_eq.2.2.1.symm.trans hbusy)
  | _ => exact hs.idle hbusy

/-- Every call of the handler is for a request that arrived. -/
theorem Sound.carried_serve (hs : Sound number invocationId s)
    (hpromise : Promise number invocationId i s q) (h : Serve i q s answer t) {c : HandlerCall}
    (hc : c ∈ t.calls) : ∃ a, t.sockets[c.socket]? = some a ∧ a.task ≠ none
      ∧ ∃ frame, frame <+: a.inbound ∧ Carries invocationId frame c.request := by
  have hkept {l : Nat} {request : ChannelRequest} (hbefore : ∃ a, s.sockets[l]? = some a
      ∧ a.task ≠ none ∧ ∃ frame, frame <+: a.inbound ∧ Carries invocationId frame request) :
      ∃ a, t.sockets[l]? = some a ∧ a.task ≠ none
        ∧ ∃ frame, frame <+: a.inbound ∧ Carries invocationId frame request := by
    obtain ⟨a, ha, htask, frame, hframe, hcarries⟩ := hbefore
    obtain ⟨b, hb, hanswered⟩ := h.answered hpromise l a ha
    exact ⟨b, hb, hanswered.task htask ▸ htask, frame, hframe.trans hanswered.inbound, hcarries⟩
  cases h with
  | enter _ _ => exact hkept (hs.carried c ((s.enter_eq i _).1 ▸ hc))
  | close => exact hkept (hs.carried c (s.close_eq.2.2.2.1 ▸ hc))
  | start =>
    obtain ⟨a, ha, htask, -, -, -, frame, hframe, hcarries⟩ := hpromise
    obtain hc | hc := List.mem_append.mp hc
    · exact hkept (hs.carried c hc)
    · obtain rfl := List.mem_singleton.mp hc
      refine hkept ⟨a, ha, ?_, frame, hframe, hcarries⟩
      rw [htask]
      exact Option.some_ne_none i
  | handled =>
    obtain ⟨d, hd, rfl⟩ := List.mem_map.mp hc
    split
    · exact hkept (hs.carried d hd)
    · exact hkept (hs.carried d hd)
  | _ => exact hkept (hs.carried c hc)

/-- The handler is called once for a socket. -/
theorem Sound.once_serve (hs : Sound number invocationId s)
    (hpromise : Promise number invocationId i s q) (h : Serve i q s answer t) :
    (t.calls.map (·.socket)).Nodup := by
  cases h with
  | enter _ _ => rw [(s.enter_eq i _).1]; exact hs.once
  | close => rw [s.close_eq.2.2.2.1]; exact hs.once
  | @start _ l request =>
    obtain ⟨a, -, -, -, -, hnone, -⟩ := hpromise
    show ((s.calls ++ [_]).map _).Nodup
    rw [List.map_append, List.nodup_append]
    refine ⟨hs.once, List.nodup_singleton _, fun m hm n hn => ?_⟩
    obtain ⟨c, hc, rfl⟩ := List.mem_map.mp hm
    obtain rfl := List.mem_singleton.mp hn
    exact hnone c hc
  | handled =>
    show ((s.calls.map _).map _).Nodup
    rw [List.map_map, show s.calls.map ((fun c : HandlerCall => c.socket) ∘ _)
      = s.calls.map (·.socket) from List.map_congr_left fun c _ => by
        show HandlerCall.socket (if _ then _ else _) = c.socket
        split <;> rfl]
    exact hs.once
  | _ => exact hs.once

/-- A call of the handler that is running is the turn's. -/
theorem Sound.pending_serve (hs : Sound number invocationId s)
    (hpromise : Promise number invocationId i s q) (h : Serve i q s answer t) {c : HandlerCall}
    (hc : c ∈ t.calls) (hrunning : c.outcome = none) : t.activeSocket = some c.socket := by
  cases h with
  | enter _ _ =>
    have hactive := hs.pending c ((s.enter_eq i _).1 ▸ hc) hrunning
    unfold Channel.enter
    split
    · exact hactive
    · next hfree =>
      have hidle := (hs.idle (Bool.eq_false_iff.mpr fun hb => hfree (.inr hb))).1
      exact absurd (hidle.symm.trans hactive) (by simp)
  | start =>
    obtain ⟨a, -, -, -, hactive, -⟩ := hpromise
    obtain hc | hc := List.mem_append.mp hc
    · exact hs.pending c hc hrunning
    · obtain rfl := List.mem_singleton.mp hc
      exact hactive
  | handled =>
    obtain ⟨d, hd, rfl⟩ := List.mem_map.mp hc
    split at hrunning
    · cases hrunning
    · next hne =>
      rw [if_neg hne]
      exact hs.pending d hd hrunning
  | leave =>
    obtain ⟨a, -, -, hactive, hfinished⟩ := hpromise
    have hsame := Option.some.inj ((hs.pending c hc hrunning).symm.trans hactive)
    exact absurd hrunning (hfinished c hc hsame)
  | close =>
    rw [s.close_eq.1]
    exact hs.pending c (s.close_eq.2.2.2.1 ▸ hc) hrunning
  | _ => exact hs.pending c hc hrunning

/-- What was reported stays so, and what is reported is so. -/
theorem Sound.reports_serve (hs : Sound number invocationId s)
    (hpromise : Promise number invocationId i s q) (h : Serve i q s answer t) {r : Report}
    (hr : r ∈ t.reports) : (r.socket = none ∧ Unreached r.outcome)
      ∨ ∃ k a, r.socket = some k ∧ t.sockets[k]? = some a
        ∧ Told number r.challenge a r.outcome := by
  have hkept (hold : r ∈ s.reports) : (r.socket = none ∧ Unreached r.outcome)
      ∨ ∃ k a, r.socket = some k ∧ t.sockets[k]? = some a
        ∧ Told number r.challenge a r.outcome := by
    obtain hnone | ⟨k, a, hk, ha, htold⟩ := hs.reports r hold
    · exact .inl hnone
    · obtain ⟨b, hb, hanswered⟩ := h.answered hpromise k a ha
      exact .inr ⟨k, b, hk, hb,
        htold.mono (h.inbound hpromise ha hb ⟨r, hold, hk⟩) hanswered.outbound⟩
  cases h with
  | enter _ _ => exact hkept ((s.enter_eq i _).2.1 ▸ hr)
  | close => exact hkept (s.close_eq.2.2.2.2 ▸ hr)
  | report =>
    obtain hr | hr := List.mem_append.mp hr
    · exact hkept hr
    · obtain rfl := List.mem_singleton.mp hr
      obtain hnone | ⟨k, a, hk, ha, -, htold⟩ := hpromise
      · exact .inl hnone
      · exact .inr ⟨k, a, hk, ha, htold⟩
  | _ => exact hkept hr

/-- **An answer to a promised question keeps the channel sound.** -/
theorem Sound.serve (hs : Sound number invocationId s)
    (hpromise : Promise number invocationId i s q) (h : Serve i q s answer t) :
    Sound number invocationId t where
  idle := hs.idle_serve hpromise h
  carried _ hc := hs.carried_serve hpromise h hc
  once := hs.once_serve hpromise h
  pending _ hc hrunning := hs.pending_serve hpromise h hc hrunning
  fresh k b hb htask := by
    obtain ⟨a, ha⟩ | ⟨-, hnew⟩ := h.of_socket hb
    · obtain ⟨b', hb', hanswered⟩ := h.answered hpromise k a ha
      obtain rfl := Option.some.inj (hb.symm.trans hb')
      have hbefore : a.task = none := by
        by_contra hne
        exact hne ((hanswered.task hne).symm.trans htask)
      obtain ⟨hout, hstarted⟩ := hanswered.unserved (by
        rw [hbefore]
        exact Option.some_ne_none i |>.symm)
      rw [hout, hstarted]
      exact hs.fresh k a ha hbefore
    · exact hnew
  responses k b hb hwritten := by
    obtain ⟨a, ha⟩ | ⟨-, hnew, -⟩ := h.of_socket hb
    · obtain hout | hnow := h.outbound hpromise ha hb
      · rw [hout] at hwritten ⊢
        obtain ⟨v, hv, hid, hbacked⟩ := hs.responses k a ha hwritten
        exact ⟨v, hv, hid, hbacked.serve hpromise h ha hwritten⟩
      · exact hnow
    · exact absurd hnew hwritten
  reports _ hr := hs.reports_serve hpromise h hr

end Step

end Authorization
