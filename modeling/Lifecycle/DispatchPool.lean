import Mathlib.Data.List.Chain
import Lifecycle.ExecutionRuns
import Lifecycle.ExecutionSettings

/-!
# Hosts over one checkpoint store

Any number of hosts share a compare-and-swap store, each operation of theirs
a program of one pool: between a question and its answer any other program
may go on, an answer may be a failure although its effect has taken place,
and a program that is never answered again has crashed.

The retained checkpoints form a chain of successors
(`Sound`, `reachable_kept`), and from that
* their facts are only ever added to (`monotone_of_reachable`), and
* the backend is entered at most once, by the operation that consumed
  dispatch authority, and never once containment came first
  (`dispatches_of_reachable`).
A containment requested after the consumption holds nobody back
(`dispatch_after_request`).
-/

open Fallible Json Asking

namespace Execution

/-! ## The store -/

/-- A retained checkpoint and the operation that asked for it. -/
structure Entry where
  author : Nat
  retained : Retained

/-- An entry into the backend. -/
structure Dispatch where
  author : Nat
  handle : String

/-- **The store and the backend**: every checkpoint retained so far, the
operation that has consumed dispatch authority and not used it yet, and the
entries into the backend. -/
structure Store where
  history : List Entry
  numbered : ∀ k e, history[k]? = some e → e.retained.coordinate.revision = k + 1
  holder : Option Nat
  dispatches : List Dispatch

namespace Store

/-- Nothing has been retained yet. -/
def empty : Store where
  history := []
  numbered _ _ h := by cases h
  holder := none
  dispatches := []

/-- The checkpoint retained last. -/
def current (s : Store) : Option Retained := s.history.getLast?.map (·.retained)

/-- Dispatch authority has been consumed. -/
def consumed (s : Store) : Bool := s.current.any (·.checkpoint.consumed)

/-- A checkpoint under its new coordinate. -/
def retaining (s : Store) (persistenceDigest : Sha256Digest) (c : Checkpoint) : Retained :=
  ⟨⟨s.history.length + 1, c.digest, persistenceDigest⟩, c⟩

/-- **A commit.** -/
def commit (s : Store) (author : Nat) (persistenceDigest : Sha256Digest) (c : Checkpoint) :
    Store where
  history := s.history ++ [⟨author, s.retaining persistenceDigest c⟩]
  numbered k e h := by
    rw [List.getElem?_append] at h
    split at h
    · exact s.numbered k e h
    · rename_i hle
      obtain ⟨hlt, hget⟩ := List.getElem?_eq_some_iff.mp h
      rw [List.length_singleton] at hlt
      rw [List.getElem_singleton] at hget
      rw [← hget]
      show s.history.length + 1 = k + 1
      omega
  holder := if s.consumed = false ∧ c.consumed = true then some author else s.holder
  dispatches := s.dispatches

/-- An entry into the backend uses dispatch authority up. -/
def dispatch (s : Store) (author : Nat) (handle : String) : Store where
  history := s.history
  numbered := s.numbered
  holder := none
  dispatches := s.dispatches ++ [⟨author, handle⟩]

/-- A checkpoint that is retained. -/
def Retains (s : Store) (r : Retained) : Prop := ∃ e ∈ s.history, e.retained = r

end Store

/-- **Compare and swap.** -/
inductive Commits (s : Store) (author : Nat) (expected : Option Coordinate) (c : Checkpoint) :
    Retained → Store → Prop
  | intro (persistenceDigest : Sha256Digest) : s.current.map (·.coordinate) = expected →
      Commits s author expected c (s.retaining persistenceDigest c)
        (s.commit author persistenceDigest c)

/-- The calls that only the store answers, and the entry into the backend. -/
def HostCall.shared : HostCall → Bool
  | .read | .compareExchange _ _ | .commitPreDispatch _ _ _ | .dispatch _ => true
  | _ => false

/-- **How the store and the backend answer an operation.** A call may fail
without effect, or after its effect has taken place. -/
inductive Serve (author : Nat) : (q : HostCall) → Store → HostAnswer q → Store → Prop
  | read {s : Store} : Serve author .read s (.ok s.current) s
  | failed {q : HostCall} {s : Store} {e : Thrown} :
      (∀ handle, q ≠ .dispatch handle) → Serve author q s (.error e) s
  | exchanged {expected : Option Coordinate} {c : Checkpoint} {s t : Store} {r : Retained}
      {answer : HostAnswer (.compareExchange expected c)} :
      Commits s author expected c r t → (answer = .ok r ∨ ∃ e, answer = .error e) →
        Serve author (.compareExchange expected c) s answer t
  | decided {current : Retained} {c f c' : Checkpoint} {s t : Store} {r : Retained}
      {disposition : PreDispatchDisposition} {answer : HostAnswer (.commitPreDispatch current c f)} :
      (c' = c ∨ c' = f) → Commits s author (some current.coordinate) c' r t →
        (answer = .ok ⟨disposition, r⟩ ∨ ∃ e, answer = .error e) →
        Serve author (.commitPreDispatch current c f) s answer t
  | dispatched {handle : String} {s : Store} {answer : HostAnswer (.dispatch handle)} :
      Serve author (.dispatch handle) s answer (s.dispatch author handle)
  | free {q : HostCall} {s : Store} {answer : HostAnswer q} :
      q.shared = false → Serve author q s answer s

/-- **The pool**: the operation numbered `i` runs on the host `hosts i`. -/
def hostPool (hosts : Nat → OperationHost) (specification : Specification) :
    TransitionSystem (Pool HostCall HostAnswer Thrown Store) (Option (Nat × HostCall)) :=
  Pool.system Serve
    (fun i c => ∃ operation : HostOperation, c = operation.program (hosts i) specification)
    (· = Store.empty)

variable {hosts : Nat → OperationHost} {host : OperationHost} {specification : Specification}
  {s t : Store} {i : Nat}

/-! ## Answers -/

namespace Store

theorem current_eq_some {r : Retained} : s.current = some r ↔
    ∃ e, s.history.getLast? = some e ∧ e.retained = r :=
  Option.map_eq_some_iff

theorem current_eq_none : s.current = none ↔ s.history = [] := by
  rw [current, Option.map_eq_none_iff, List.getLast?_eq_none_iff]

/-- The coordinate of a retained checkpoint selects it. -/
theorem retained_of_coordinate {a b : Entry} (ha : a ∈ s.history) (hb : b ∈ s.history)
    (h : a.retained.coordinate = b.retained.coordinate) : a = b := by
  obtain ⟨k, hk⟩ := List.mem_iff_getElem?.mp ha
  obtain ⟨l, hl⟩ := List.mem_iff_getElem?.mp hb
  have hkl : k = l := by
    have hrevision := congrArg Coordinate.revision h
    rw [s.numbered k a hk, s.numbered l b hl] at hrevision
    exact Nat.succ.inj hrevision
  exact Option.some.inj (hk.symm.trans (hkl ▸ hl))

end Store

theorem Commits.history {expected : Option Coordinate} {c : Checkpoint} {r : Retained}
    (h : Commits s i expected c r t) : t.history = s.history ++ [⟨i, r⟩] := by
  cases h
  rfl

theorem Commits.checkpoint {expected : Option Coordinate} {c : Checkpoint} {r : Retained}
    (h : Commits s i expected c r t) : r.checkpoint = c := by
  cases h
  rfl

/-- Whoever commits beside a retained coordinate replaces that checkpoint. -/
theorem Commits.current {coordinate : Coordinate} {c : Checkpoint} {r current : Retained}
    (h : Commits s i (some coordinate) c r t) (hretains : s.Retains current)
    (hcoordinate : current.coordinate = coordinate) : s.current = some current := by
  cases h with
  | intro persistenceDigest hexpected =>
    obtain ⟨last, hlast, hequal⟩ := Option.map_eq_some_iff.mp hexpected
    obtain ⟨e, he, rfl⟩ := Store.current_eq_some.mp hlast
    obtain ⟨a, ha, rfl⟩ := hretains
    rw [s.retained_of_coordinate ha (List.mem_of_getLast? he) (hcoordinate.trans hequal.symm)]
    exact hlast

/-- **What was retained stays retained.** -/
theorem Serve.history {q : HostCall} {answer : HostAnswer q} (h : Serve i q s answer t) :
    s.history <+: t.history := by
  cases h with
  | exchanged hcommits _ => exact hcommits.history ▸ List.prefix_append _ _
  | decided _ hcommits _ => exact hcommits.history ▸ List.prefix_append _ _
  | _ => exact List.prefix_refl _

theorem Store.Retains.mono {r : Retained} (h : s.Retains r) (hst : s.history <+: t.history) :
    t.Retains r := by
  obtain ⟨e, he, hr⟩ := h
  exact ⟨e, hst.subset he, hr⟩

theorem Commits.retains {expected : Option Coordinate} {c : Checkpoint} {r : Retained}
    (h : Commits s i expected c r t) : t.Retains r :=
  ⟨⟨i, r⟩, h.history ▸ List.mem_append_right _ List.mem_cons_self, rfl⟩

/-- **A commit that consumes dispatch authority is remembered.** -/
theorem Commits.holder {coordinate : Coordinate} {c : Checkpoint} {r current : Retained}
    (h : Commits s i (some coordinate) c r t) (hretains : s.Retains current)
    (hcoordinate : current.coordinate = coordinate)
    (hbefore : current.checkpoint.consumed = false) (hafter : c.consumed = true) :
    t.holder = some i := by
  have hunconsumed : s.consumed = false := by
    rw [Store.consumed, h.current hretains hcoordinate]
    exact hbefore
  cases h
  exact if_pos ⟨hunconsumed, hafter⟩

/-! A call that does not throw has taken its effect. -/

theorem Serve.retains_read {r : Retained} (h : Serve i .read s (.ok (some r)) t) :
    t.Retains r := by
  generalize ha : (Except.ok (some r) : HostAnswer .read) = a at h
  cases h with
  | read =>
    obtain ⟨e, he, hr⟩ := Store.current_eq_some.mp (Except.ok.inj ha).symm
    exact ⟨e, List.mem_of_getLast? he, hr⟩
  | failed _ => cases ha
  | free hshared => cases hshared

theorem Serve.exchange_ok {expected : Option Coordinate} {c : Checkpoint} {r : Retained}
    (h : Serve i (.compareExchange expected c) s (.ok r) t) : Commits s i expected c r t := by
  generalize ha : (Except.ok r : HostAnswer (.compareExchange expected c)) = a at h
  cases h with
  | exchanged hcommits hanswer =>
    rcases hanswer with rfl | ⟨e, rfl⟩
    · obtain rfl := Except.ok.inj ha
      exact hcommits
    · cases ha
  | failed _ => cases ha
  | free hshared => cases hshared

theorem Serve.decide_ok {current : Retained} {c f : Checkpoint} {decision : PreDispatchDecision}
    (h : Serve i (.commitPreDispatch current c f) s (.ok decision) t) :
    ∃ c', (c' = c ∨ c' = f) ∧ Commits s i (some current.coordinate) c' decision.retained t := by
  generalize ha : (Except.ok decision : HostAnswer (.commitPreDispatch current c f)) = a at h
  cases h with
  | decided hone hcommits hanswer =>
    rcases hanswer with rfl | ⟨e, rfl⟩
    · obtain rfl := Except.ok.inj ha
      exact ⟨_, hone, hcommits⟩
    · cases ha
  | failed _ => cases ha
  | free hshared => cases hshared

/-! ## The setting of one operation -/

/-- **What one operation of the pool counts on**: what is retained stays
retained, and nobody takes dispatch authority away from it. -/
def poolSetting (specification : Specification) (i : Nat) : HostSetting specification Store where
  rely s t := s.history <+: t.history ∧ (s.holder = some i → t.holder = some i)
  serve := Serve i
  Known := Store.Retains
  Entitled s := s.holder = some i
  inert _ := True
  refl _ := ⟨List.prefix_refl _, id⟩
  trans hst htu := ⟨hst.1.trans htu.1, fun h => htu.2 (hst.2 h)⟩
  known_rely hst h := h.mono hst.1
  known_serve hserve h := h.mono hserve.history
  entitled_rely hst h := hst.2 h
  entitled_read hserve h := by
    cases hserve with
    | read => exact h
    | failed _ => exact h
    | free hshared => cases hshared
  read hserve := hserve.retains_read
  exchange hserve := hserve.exchange_ok.retains
  consume hknown hconsumes hserve := by
    obtain ⟨o, time, hready, -⟩ := id hconsumes
    exact hserve.exchange_ok.holder hknown rfl hready.unconsumed hconsumes.consumed
  decide hserve := by
    obtain ⟨c', -, hcommits⟩ := hserve.decide_ok
    exact hcommits.retains
  decided hknown hconsumes hserve _ hretained := by
    obtain ⟨o, time, hready, -⟩ := id hconsumes
    obtain ⟨c', -, hcommits⟩ := hserve.decide_ok
    refine hcommits.holder hknown rfl hready.unconsumed ?_
    rw [← hcommits.checkpoint, hretained]
    exact hconsumes.consumed
  observe _ := trivial

/-! ## The chain of checkpoints -/

/-- A retained checkpoint and the one that replaced it. -/
structure Chained (hosts : Nat → OperationHost) (specification : Specification) (a b : Entry) :
    Prop where
  accepted : Accepted specification a.retained.checkpoint
  succeeds : Succeeds (hosts b.author) specification (fun _ => True) a.retained.checkpoint
    b.retained.checkpoint

/-- An operation has consumed dispatch authority. -/
def Store.ConsumedBy (specification : Specification) (s : Store) (i : Nat) : Prop :=
  ∃ k a b, s.history[k]? = some a ∧ s.history[k + 1]? = some b ∧ b.author = i
    ∧ Consumes specification a.retained.checkpoint b.retained.checkpoint

/-- **What holds of the store after every step.** -/
structure Sound (hosts : Nat → OperationHost) (specification : Specification) (s : Store) :
    Prop where
  opened : ∀ e, s.history.head? = some e → Opens specification e.retained.checkpoint
  chained : s.history.IsChain (Chained hosts specification)
  fresh : s.consumed = false → s.holder = none ∧ s.dispatches = []
  once : s.dispatches = [] ∨ s.holder = none ∧ s.dispatches.length = 1
  consumer : ∀ i, (s.holder = some i ∨ ∃ d ∈ s.dispatches, d.author = i) →
    s.ConsumedBy specification i

/-- What a commit retains follows what is retained. -/
def Follows (hosts : Nat → OperationHost) (specification : Specification) (s : Store) (i : Nat)
    (c : Checkpoint) : Prop :=
  (s.current = none ∧ Opens specification c) ∨ ∃ current, s.current = some current
    ∧ Accepted specification current.checkpoint
    ∧ Succeeds (hosts i) specification (fun _ => True) current.checkpoint c

theorem Store.ConsumedBy.mono (h : s.ConsumedBy specification i)
    (hst : s.history <+: t.history) : t.ConsumedBy specification i := by
  obtain ⟨k, a, b, ha, hb, hauthor, hconsumes⟩ := h
  obtain ⟨rest, hrest⟩ := hst
  have hget : ∀ {l : Nat} {e : Entry}, s.history[l]? = some e → t.history[l]? = some e :=
    fun he => by rw [← hrest, List.getElem?_append_left (List.getElem?_eq_some_iff.mp he).1, he]
  exact ⟨k, a, b, hget ha, hget hb, hauthor, hconsumes⟩

theorem Opens.unconsumed {c : Checkpoint} (h : Opens specification c) : c.consumed = false := by
  obtain ⟨key, time, -, -, hsealed⟩ := h
  obtain ⟨d, -, rfl⟩ := checkpointSubject_eq_ok.mp hsealed
  rfl

theorem Preserves.consumed_true {c c' : Checkpoint} (h : Preserves c c')
    (hc : c.consumed = true) : c'.consumed = true := by
  obtain ⟨time, htime⟩ := Option.isSome_iff_exists.mp hc
  exact Option.isSome_iff_exists.mpr ⟨time, h.consumed time htime⟩

/-- Consumed authority stays consumed. -/
theorem Follows.consumed {c : Checkpoint} (h : Follows hosts specification s i c)
    (hconsumed : s.consumed = true) : c.consumed = true := by
  rcases h with ⟨hnone, -⟩ | ⟨current, hcurrent, haccepted, hsucceeds⟩
  · rw [Store.consumed, hnone] at hconsumed
    cases hconsumed
  · rw [Store.consumed, hcurrent] at hconsumed
    exact (hsucceeds.preserves haccepted).consumed_true hconsumed

/-- The commit that consumes dispatch authority. -/
theorem Follows.consumedBy {c : Checkpoint} {d : Sha256Digest}
    (h : Follows hosts specification s i c) (hbefore : s.consumed = false)
    (hafter : c.consumed = true) : (s.commit i d c).ConsumedBy specification i := by
  rcases h with ⟨-, hopens⟩ | ⟨current, hcurrent, -, hsucceeds⟩
  · cases hopens.unconsumed.symm.trans hafter
  · rw [Store.consumed, hcurrent] at hbefore
    obtain ⟨e, he, rfl⟩ := Store.current_eq_some.mp hcurrent
    obtain ⟨front, hfront⟩ := List.getLast?_eq_some_iff.mp he
    refine ⟨front.length, e, ⟨i, s.retaining d c⟩, ?_, ?_, rfl, hsucceeds.consumes hbefore hafter⟩
    · show (s.history ++ _)[_]? = _
      rw [hfront, List.append_assoc, List.getElem?_append_right (Nat.le_refl _), Nat.sub_self]
      rfl
    · show (s.history ++ _)[_]? = _
      rw [List.getElem?_append_right (by rw [hfront, List.length_append]; rfl), hfront,
        List.length_append, List.length_singleton, Nat.sub_self]
      rfl

/-- **A commit of a successor keeps the store sound**, and takes nobody's
dispatch authority away. -/
theorem Sound.commit {c : Checkpoint} {d : Sha256Digest} (h : Sound hosts specification s)
    (hfollows : Follows hosts specification s i c) :
    Sound hosts specification (s.commit i d c)
      ∧ ∀ j, s.holder = some j → (s.commit i d c).holder = some j := by
  have hconsumed : (s.commit i d c).consumed = c.consumed := by
    show ((s.history ++ [_]).getLast?.map _).any _ = _
    rw [List.getLast?_concat]
    rfl
  have hholder : ∀ j, s.holder = some j → (s.commit i d c).holder = some j := by
    intro j hj
    refine (if_neg fun hnew => ?_).trans hj
    cases (h.fresh hnew.1).1.symm.trans hj
  refine ⟨⟨?_, ?_, ?_, ?_, ?_⟩, hholder⟩
  · intro e he
    rcases hfollows with ⟨hnone, hopens⟩ | ⟨current, hcurrent, -, -⟩
    · have hempty : (s.commit i d c).history = [⟨i, s.retaining d c⟩] := by
        show s.history ++ _ = _
        rw [Store.current_eq_none.mp hnone]
        rfl
      rw [hempty] at he
      obtain rfl := Option.some.inj he
      exact hopens
    · obtain ⟨last, hlast, -⟩ := Store.current_eq_some.mp hcurrent
      refine h.opened e (Eq.trans ?_ he)
      show _ = (s.history ++ _).head?
      rw [List.head?_append_of_ne_nil _ (List.ne_nil_of_mem (List.mem_of_getLast? hlast))]
  · refine List.isChain_append.mpr ⟨h.chained, List.isChain_singleton _, fun a ha b hb => ?_⟩
    obtain rfl := Option.some.inj hb
    rcases hfollows with ⟨hnone, -⟩ | ⟨current, hcurrent, haccepted, hsucceeds⟩
    · rw [Store.current_eq_none.mp hnone] at ha
      cases ha
    · obtain ⟨e, he, rfl⟩ := Store.current_eq_some.mp hcurrent
      obtain rfl := Option.some.inj (he.symm.trans ha)
      exact ⟨haccepted, hsucceeds⟩
  · intro hunconsumed
    rw [hconsumed] at hunconsumed
    have hbefore : s.consumed = false := by
      rw [← Bool.not_eq_true]
      intro htrue
      cases (hfollows.consumed htrue).symm.trans hunconsumed
    refine ⟨(if_neg fun hnew => ?_).trans (h.fresh hbefore).1, (h.fresh hbefore).2⟩
    cases hnew.2.symm.trans hunconsumed
  · refine h.once.imp_right fun hone => ⟨(if_neg fun hnew => ?_).trans hone.1, hone.2⟩
    have hlength := hone.2
    rw [(h.fresh hnew.1).2] at hlength
    cases hlength
  · intro j hj
    by_cases hnew : s.consumed = false ∧ c.consumed = true
    · obtain rfl : i = j := by
        rcases hj with hj | ⟨dispatch, hdispatch, -⟩
        · exact Option.some.inj ((if_pos hnew).symm.trans hj)
        · rw [show (s.commit i d c).dispatches = s.dispatches from rfl, (h.fresh hnew.1).2]
            at hdispatch
          cases hdispatch
      exact hfollows.consumedBy hnew.1 hnew.2
    · refine (h.consumer j (hj.imp_left fun hj => ?_)).mono (List.prefix_append _ _)
      exact (if_neg hnew).symm.trans hj

/-- An entry into the backend uses up the authority of its operation. -/
theorem Sound.dispatch {handle : String} (h : Sound hosts specification s)
    (hholder : s.holder = some i) : Sound hosts specification (s.dispatch i handle) := by
  refine ⟨h.opened, h.chained, fun hunconsumed => ?_, .inr ⟨rfl, ?_⟩, fun j hj => ?_⟩
  · cases (h.fresh hunconsumed).1.symm.trans hholder
  · rcases h.once with hnone | ⟨hused, -⟩
    · show (s.dispatches ++ [_]).length = 1
      rw [hnone]
      rfl
    · cases hused.symm.trans hholder
  · rcases hj with hj | ⟨d, hd, rfl⟩
    · cases hj
    · rcases List.mem_append.mp hd with hd | hd
      · exact h.consumer _ (.inr ⟨d, hd, rfl⟩)
      · obtain rfl := List.mem_singleton.mp hd
        exact h.consumer i (.inl hholder)

/-- What a host promises of a checkpoint makes it follow the one it replaces. -/
theorem Commits.follows {expected : Option Coordinate} {c : Checkpoint} {r : Retained}
    (h : Commits s i expected c r t)
    (hpromise : (poolSetting specification i).Promise (hosts i) s (.compareExchange expected c)) :
    Follows hosts specification s i c := by
  cases expected with
  | none =>
    cases h with
    | intro persistenceDigest hexpected => exact .inl ⟨Option.map_eq_none_iff.mp hexpected, hpromise⟩
  | some coordinate =>
    obtain ⟨current, hheld, hcoordinate, hsucceeds⟩ := hpromise
    exact .inr ⟨current, h.current hheld.known hcoordinate, hheld.accepted, hsucceeds⟩

theorem Commits.decided_follows {current r : Retained} {c f c' : Checkpoint}
    (h : Commits s i (some current.coordinate) c' r t) (hone : c' = c ∨ c' = f)
    (hpromise :
      (poolSetting specification i).Promise (hosts i) s (.commitPreDispatch current c f)) :
    Follows hosts specification s i c' := by
  obtain ⟨hheld, hconsumes, hrefuses⟩ := hpromise
  refine .inr ⟨current, h.current hheld.known rfl, hheld.accepted, ?_⟩
  rcases hone with rfl | rfl
  · exact .consumed hconsumes
  · exact .refused hrefuses

theorem Commits.sound {expected : Option Coordinate} {c : Checkpoint} {r : Retained}
    (h : Commits s i expected c r t) (hsound : Sound hosts specification s)
    (hfollows : Follows hosts specification s i c) :
    Sound hosts specification t ∧ ∀ j, (poolSetting specification j).rely s t := by
  cases h with
  | intro persistenceDigest hexpected =>
    obtain ⟨hcommitted, hholder⟩ := hsound.commit hfollows
    exact ⟨hcommitted, fun j => ⟨List.prefix_append _ _, hholder j⟩⟩

/-- **What an answer makes of a sound store.** -/
theorem Sound.serve {q : HostCall} {answer : HostAnswer q} (h : Sound hosts specification s)
    (hpromise : (poolSetting specification i).Promise (hosts i) s q)
    (hserve : Serve i q s answer t) :
    Sound hosts specification t ∧ ∀ j, j ≠ i → (poolSetting specification j).rely s t := by
  have hunchanged : ∀ j, j ≠ i → (poolSetting specification j).rely s s :=
    fun j _ => (poolSetting specification j).refl s
  cases hserve with
  | read => exact ⟨h, hunchanged⟩
  | failed _ => exact ⟨h, hunchanged⟩
  | free _ => exact ⟨h, hunchanged⟩
  | exchanged hcommits _ =>
    obtain ⟨hsound, hrely⟩ := hcommits.sound h (hcommits.follows hpromise)
    exact ⟨hsound, fun j _ => hrely j⟩
  | decided hone hcommits _ =>
    obtain ⟨hsound, hrely⟩ := hcommits.sound h (hcommits.decided_follows hone hpromise)
    exact ⟨hsound, fun j _ => hrely j⟩
  | dispatched =>
    refine ⟨h.dispatch hpromise, fun j hj => ⟨List.prefix_refl _, fun hholder => ?_⟩⟩
    exact absurd (Option.some.inj (hholder.symm.trans hpromise)) hj

theorem sound_empty : Sound hosts specification Store.empty where
  opened _ he := by cases he
  chained := .nil
  fresh _ := ⟨rfl, rfl⟩
  once := .inl rfl
  consumer i h := by
    rcases h with h | ⟨d, hd, -⟩
    · cases h
    · cases hd

/-- **In every run the store is sound**, and every operation keeps its
promise. -/
theorem reachable_kept {p : Pool HostCall HostAnswer Thrown Store}
    (h : (hostPool hosts specification).Reachable p) :
    Pool.Kept (fun i => (poolSetting specification i).rely) Serve
      (fun i => (poolSetting specification i).Promise (hosts i)) (Sound hosts specification) p := by
  refine Pool.reachable_keeps (fun i => (poolSetting specification i).refl)
    (fun {i _ _ _} => (poolSetting specification i).trans) (fun s hs => hs ▸ sound_empty) ?_
    (fun hs hpromise hserve => hs.serve hpromise hserve) h
  rintro i c ⟨operation, rfl⟩ s -
  exact (operation.keeps (poolSetting specification i)).keeps.mono (fun _ _ _ => trivial)
    fun _ _ _ => trivial

/-! ## Runs of the pool -/

section Runs

variable {programs : List (HostProgram Unit)} {current : Retained}
  {runnerDigest d : Sha256Digest} {c : Checkpoint}

theorem served_read {rest : List ((q : HostCall) × HostAnswer q)} (h : s.current = some current)
    (hrest : Served (Serve i) s rest t) :
    Served (Serve i) s (⟨.read, .ok (some current)⟩ :: rest) t := by
  refine .cons ?_ hrest
  rw [← h]
  exact .read

/-- The last answer of an operation: its checkpoint is committed. -/
theorem served_commit {value : Option Retained} (h : s.current = value) :
    Served (Serve i) s
      [⟨.compareExchange (value.map (·.coordinate)) c, .ok (s.retaining d c)⟩]
      (s.commit i d c) :=
  .cons (.exchanged (.intro d (congrArg _ h)) (.inl rfl)) .nil

theorem Store.revision_retaining (h : s.current = some current) :
    ∀ r, some current = some r →
      (s.retaining d c).coordinate.revision = r.coordinate.revision + 1 := by
  intro r hr
  obtain rfl := Option.some.inj hr
  obtain ⟨e, he, rfl⟩ := Store.current_eq_some.mp h
  obtain ⟨front, hfront⟩ := List.getLast?_eq_some_iff.mp he
  have hlast : s.history[front.length]? = some e := by
    rw [hfront, List.getElem?_append_right (Nat.le_refl _), Nat.sub_self]
    rfl
  rw [s.numbered _ e hlast]
  show s.history.length + 1 = _
  rw [hfront, List.length_append]
  rfl

theorem reachable_opened {key time : String}
    (h : (hostPool hosts specification).Reachable ⟨s, programs⟩) (hcurrent : s.current = none)
    (hkey : assertAllocationKey key = .ok ()) (hcanonical : isCanonicalTime time = true)
    (hlower : textBefore time "0000-01-01T00:00:00.000Z" = false)
    (hsealed : checkpointSubject (openingCheckpoint specification key time) = .ok c)
    (hselects : (s.retaining d c).selects) :
    (hostPool hosts specification).Reachable
      ⟨s.commit programs.length d c, programs ++ [pure ()]⟩ := by
  have haccepted : Accepted specification c :=
    Opens.accepted ⟨key, time, hkey, hcanonical, hsealed⟩
  refine Pool.reachable_of_joined h ⟨.opening, rfl⟩ (reaches_opened hkey hcanonical hlower hsealed
    (reaches_commit (r := s.retaining d c) haccepted hselects (fun r hr => by cases hr) .refl)) ?_
  refine .cons ?_ (.cons (.free rfl) (.cons (.free rfl) (served_commit hcurrent)))
  rw [← hcurrent]
  exact .read

theorem reachable_allocated {handle : String} {o : Observation}
    (h : (hostPool hosts specification).Reachable ⟨s, programs⟩)
    (hcurrent : s.current = some current) (hrunner : isSha256 runnerDigest = true)
    (haccepted : Accepted specification current.checkpoint) (hselects : current.selects)
    (hnone : current.checkpoint.handle = none) (hprivate : privateHandle handle = .ok ())
    (hparse : parseObservation specification none o = .ok o) (hnonrunning : nonrunning o)
    (hsealed : checkpointSubject { current.checkpoint with
      handle := some handle, observation := some o, containment := none } = .ok c)
    (haccepted' : Accepted specification c) (hselects' : (s.retaining d c).selects) :
    (hostPool hosts specification).Reachable
      ⟨s.commit programs.length d c, programs ++ [pure ()]⟩ := by
  refine Pool.reachable_of_joined h ⟨.advance runnerDigest false, rfl⟩
    (reaches_allocated hrunner haccepted hselects hnone hprivate hparse hnonrunning hsealed
      (reaches_commit (r := s.retaining d c) haccepted' hselects'
        (Store.revision_retaining hcurrent) .refl)) ?_
  exact served_read hcurrent (.cons (.free rfl) (.cons (.free rfl) (served_commit hcurrent)))

theorem reachable_requested {time : String}
    (h : (hostPool hosts specification).Reachable ⟨s, programs⟩)
    (hcurrent : s.current = some current) (hrunner : isSha256 runnerDigest = true)
    (haccepted : Accepted specification current.checkpoint) (hselects : current.selects)
    (hhandle : current.checkpoint.handle ≠ none)
    (hrequested : current.checkpoint.containmentRequestedAt = none)
    (hcontainment : current.checkpoint.containment = none)
    (htime : Current current.checkpoint time)
    (hsealed : checkpointSubject { current.checkpoint with containmentRequestedAt := some time }
      = .ok c)
    (haccepted' : Accepted specification c) (hselects' : (s.retaining d c).selects) :
    (hostPool hosts specification).Reachable
      ⟨s.commit programs.length d c, programs ++ [pure ()]⟩ := by
  refine Pool.reachable_of_joined h ⟨.advance runnerDigest true, rfl⟩
    (reaches_requested hrunner haccepted hselects hhandle hrequested hcontainment htime hsealed
      (reaches_commit (r := s.retaining d c) haccepted' hselects'
        (Store.revision_retaining hcurrent) .refl)) ?_
  exact served_read hcurrent (.cons (.free rfl) (served_commit hcurrent))

/-- An operation has consumed dispatch authority and is about to enter the
backend. -/
theorem reachable_consumed {handle time : String} {readiness : Observation} {r : Checkpoint}
    {k : Containment} (h : (hostPool hosts specification).Reachable ⟨s, programs⟩)
    (hcurrent : s.current = some current) (hrunner : isSha256 runnerDigest = true)
    (haccepted : Accepted specification current.checkpoint) (hselects : current.selects)
    (hready : Ready specification current.checkpoint readiness time)
    (hhandle : current.checkpoint.handle = some handle)
    (hrunning : current.checkpoint.observation.map (·.processState) ≠ some .terminal)
    (hparse : parseObservation specification current.checkpoint.observation readiness
      = .ok readiness)
    (hlatest : textBefore time (laterOf (latestRuntimeTime current.checkpoint)
      (some readiness.observedAt)) = false)
    (hsealed : checkpointSubject (consuming current.checkpoint readiness time) = .ok c)
    (hk : containmentSubject readiness time false = .ok k)
    (hrefused : checkpointSubject (refusing current.checkpoint readiness time k) = .ok r)
    (hplain : (hosts programs.length).commitPreDispatch = false)
    (haccepted' : Accepted specification c) (hselects' : (s.retaining d c).selects) :
    (hostPool hosts specification).Reachable ⟨s.commit programs.length d c, programs
      ++ [enterBackend specification handle ⟨.dispatch, s.retaining d c⟩ >>= fun _ => pure ()]⟩ := by
  refine Pool.reachable_of_joined h ⟨.advance runnerDigest false, rfl⟩
    (reaches_consumed hrunner haccepted hselects hhandle hready.unconsumed hready.unrequested
      hready.uncontained hrunning hparse hready.ready hready.current.canonical hlatest hsealed hk
      hrefused hplain (reaches_commit (r := s.retaining d c) haccepted' hselects'
        (Store.revision_retaining hcurrent) .refl)) ?_
  exact served_read hcurrent (.cons (.free rfl) (.cons (.free rfl) (served_commit hcurrent)))

end Runs

/-! ## A cell that is dispatched -/

/-- A program is about to enter the backend. -/
def entersBackend : HostProgram Unit → Bool
  | .ask (.dispatch _) _ => true
  | _ => false

/-- **A run on the cell**: one operation consumes dispatch authority, another
requests containment, and only then is the backend entered. -/
theorem CellRun.reachable {c₀ c₁ c₂ r c₃ : Checkpoint} {o₁ o₂ : Observation} {k : Containment}
    (h : CellRun c₀ c₁ c₂ r c₃ o₁ o₂ k) : ∃ s c, entersBackend c = true
      ∧ (hostPool (fun _ => plainHost) cellSpecification).Reachable
        ⟨s, [pure (), pure (), c, pure ()]⟩
      ∧ s.history.map (·.retained.checkpoint) = [c₀, c₁, c₂, c₃] := by
  have hdigest : isSha256 cellDigest = true := by decide +kernel
  have hselects : ∀ {s : Store} {r c : Checkpoint}, checkpointSubject r = .ok c →
      s.history.length + 1 ≤ maxSafeInteger → (s.retaining cellDigest c).selects :=
    fun hsealed hlength => retainedAs_selects hsealed ⟨Nat.le_add_left 1 _, hlength⟩
  have hlength : ∀ n, n ≤ 4 → n ≤ maxSafeInteger := by decide +kernel
  have hfirst : isSha256 cellDigest = true ∧ assertAllocationKey cellKey = .ok ()
      ∧ privateHandle cellHandle = .ok ()
      ∧ textBefore cellTime "0000-01-01T00:00:00.000Z" = false := by decide +kernel
  obtain ⟨hdigest, hkey, hprivate, hlower⟩ := hfirst
  obtain ⟨hunallocated, hhandle, hobserved, hhandle₂, hunrequested, huncontained, hcurrent⟩ :
      c₀.handle = none ∧ c₁.handle = some cellHandle ∧ c₁.observation = some o₁
        ∧ c₂.handle ≠ none ∧ c₂.containmentRequestedAt = none ∧ c₂.containment = none
        ∧ Current c₂ cellTime := h.standing
  have hrunning : c₁.observation.map (·.processState) ≠ some .terminal := by
    rw [hobserved, Option.map_some, (nonrunning_of_ready h.ready₁).2.1]
    intro hcontra
    cases hcontra
  have hstart : (hostPool (fun _ => plainHost) cellSpecification).Reachable ⟨Store.empty, []⟩ :=
    .of_initial ⟨rfl, rfl⟩
  have hopened := reachable_opened hstart rfl hkey canonical_cellTime hlower h.openedBy
    (hselects h.openedBy (hlength 1 (by decide)))
  have hallocated := reachable_allocated hopened rfl hdigest h.opens.accepted
    (hselects h.openedBy (hlength 1 (by decide))) hunallocated hprivate h.parsed₁
    (nonrunning_of_ready h.ready₁) h.allocatedBy h.accepted₁
    (hselects h.allocatedBy (hlength 2 (by decide)))
  have hconsumed := reachable_consumed hallocated rfl hdigest h.accepted₁
    (hselects h.allocatedBy (hlength 2 (by decide))) h.ready hhandle hrunning
    (hobserved.symm ▸ h.parsed₂)
    (not_before_laterOf_of h.ready.current.latest h.ready.observed) h.consumedBy h.containedBy h.refusedBy rfl h.accepted₂
    (hselects h.consumedBy (hlength 3 (by decide)))
  have hrequested := reachable_requested hconsumed rfl hdigest h.accepted₂
    (hselects h.consumedBy (hlength 3 (by decide))) hhandle₂ hunrequested huncontained hcurrent
    h.requestedBy h.accepted₃ (hselects h.requestedBy (hlength 4 (by decide)))
  exact ⟨_, _, rfl, hrequested, rfl⟩

/-! ## What holds along the chain -/

/-- What every link of a chain has, and what is transitive, its entries have
from one to a later one. -/
theorem along {α : Type} {R P : α → α → Prop} {xs : List α} (h : xs.IsChain R)
    (hrefl : ∀ a, P a a) (htrans : ∀ {a b c}, P a b → P b c → P a c)
    (hstep : ∀ {a b}, R a b → P a b) {k l : Nat} {a b : α} (hkl : k ≤ l)
    (ha : xs[k]? = some a) (hb : xs[l]? = some b) : P a b := by
  induction hkl generalizing b with
  | refl =>
    obtain rfl := Option.some.inj (ha.symm.trans hb)
    exact hrefl a
  | step hkl ih =>
    rename_i l
    obtain ⟨hlt, rfl⟩ := List.getElem?_eq_some_iff.mp hb
    exact htrans (ih (List.getElem?_eq_getElem (Nat.lt_of_succ_lt hlt)))
      (hstep (List.isChain_iff_getElem.mp h l hlt))

theorem Sound.preserves (h : Sound hosts specification s) {k l : Nat} {a b : Entry} (hkl : k ≤ l)
    (ha : s.history[k]? = some a) (hb : s.history[l]? = some b) :
    Preserves a.retained.checkpoint b.retained.checkpoint :=
  along (P := fun a b : Entry => Preserves a.retained.checkpoint b.retained.checkpoint) h.chained
    (fun _ => .refl _) .trans (fun hlink => hlink.succeeds.preserves hlink.accepted) hkl ha hb

theorem Sound.barred (h : Sound hosts specification s) {k l : Nat} {a b : Entry} (hkl : k ≤ l)
    (ha : s.history[k]? = some a) (hb : s.history[l]? = some b)
    (hbarred : Barred a.retained.checkpoint) : Barred b.retained.checkpoint :=
  along (P := fun a b : Entry => Barred a.retained.checkpoint → Barred b.retained.checkpoint)
    h.chained (fun _ => id) (fun hab hbc hbar => hbc (hab hbar))
    (fun hlink => hlink.succeeds.barred hlink.accepted) hkl ha hb hbarred

/-- **Containment that comes before the consumption rules it out.** -/
theorem Sound.not_barred (h : Sound hosts specification s) {e : Entry} (he : e ∈ s.history)
    (hbarred : Barred e.retained.checkpoint) : ¬ s.ConsumedBy specification i := by
  rintro ⟨k, a, b, ha, hb, -, hconsumes⟩
  obtain ⟨o, time, hready, -⟩ := id hconsumes
  obtain ⟨m, hm⟩ := List.mem_iff_getElem?.mp he
  rcases Nat.lt_or_ge k m with hkm | hmk
  · have hconsumed := (h.preserves hkm hb hm).consumed_true hconsumes.consumed
    cases hbarred.unconsumed.symm.trans hconsumed
  · have hbefore := h.barred hmk hm ha hbarred
    exact hbefore.contained.elim (· hready.unrequested) (· hready.uncontained)

/-- **The facts of an execution operation are only ever added to**, whatever
the hosts, the backend and the clock do; an operation is retired only when it
is contained and its output is final. -/
theorem monotone_of_reachable {p : Pool HostCall HostAnswer Thrown Store}
    (h : (hostPool hosts specification).Reachable p) :
    (∀ (k l : Nat) (a b : Entry), k ≤ l → p.shared.history[k]? = some a → p.shared.history[l]? = some b →
        Preserves a.retained.checkpoint b.retained.checkpoint)
      ∧ (∀ a, p.shared.history.head? = some a → a.retained.checkpoint.retirement = none)
      ∧ ∀ (k : Nat) (a b : Entry), p.shared.history[k]? = some a → p.shared.history[k + 1]? = some b →
        a.retained.checkpoint.retirement = none → b.retained.checkpoint.retirement ≠ none →
          RetiredExactly (hosts b.author) b.retained.checkpoint := by
  have hsound := (reachable_kept h).shared
  refine ⟨fun k l a b hkl => hsound.preserves hkl, fun a ha => ?_, fun k a b ha hb => ?_⟩
  · obtain ⟨key, time, -, -, hsealed⟩ := hsound.opened a ha
    obtain ⟨d, -, hd⟩ := checkpointSubject_eq_ok.mp hsealed
    rw [hd]
    rfl
  · obtain ⟨hlt, rfl⟩ := List.getElem?_eq_some_iff.mp hb
    obtain ⟨-, rfl⟩ := List.getElem?_eq_some_iff.mp ha
    have hlink := List.isChain_iff_getElem.mp hsound.chained k hlt
    exact hlink.succeeds.retiredExactly hlink.accepted

/-- The checkpoints of a cell that is dispatched. -/
theorem monotone_of_reachable_cell : ∃ (s : Store) (a b : Entry),
    s.history[0]? = some a ∧ s.history[3]? = some b
      ∧ b.retained.checkpoint.containmentRequestedAt ≠ none
      ∧ Preserves a.retained.checkpoint b.retained.checkpoint := by
  obtain ⟨c₀, c₁, c₂, r, c₃, o₁, o₂, k, h⟩ := exists_cellRun
  obtain ⟨s, c, -, hreachable, hhistory⟩ := h.reachable
  have hget : ∀ {n : Nat} {c : Checkpoint}, [c₀, c₁, c₂, c₃][n]? = some c →
      ∃ e, s.history[n]? = some e ∧ e.retained.checkpoint = c := by
    intro n c hc
    rw [← hhistory, List.getElem?_map] at hc
    exact Option.map_eq_some_iff.mp hc
  obtain ⟨a, ha, -⟩ := @hget 0 c₀ rfl
  obtain ⟨b, hb, hlast⟩ := @hget 3 c₃ rfl
  refine ⟨s, a, b, ha, hb, ?_, (monotone_of_reachable hreachable).1 0 3 a b (by decide) ha hb⟩
  rw [hlast]
  exact h.requested_after

/-! ## Entering the backend -/

/-- **How often the backend has been entered**, a call that is not answered
yet included. -/
def entries (p : Pool HostCall HostAnswer Thrown Store) : Nat :=
  p.shared.dispatches.length + p.programs.countP entersBackend

/-- An operation has entered the backend, or is about to. -/
def Enters (p : Pool HostCall HostAnswer Thrown Store) (i : Nat) : Prop :=
  (∃ d ∈ p.shared.dispatches, d.author = i) ∨ ∃ c, p.programs[i]? = some c ∧ entersBackend c = true

/-- An operation has consumed dispatch authority, and nothing of containment
was retained until then. -/
def ConsumedFirst (s : Store) (i : Nat) : Prop :=
  ∃ k b, s.history[k + 1]? = some b ∧ b.author = i ∧ b.retained.checkpoint.consumed = true
    ∧ ∀ l ≤ k, ∀ e, s.history[l]? = some e → e.retained.checkpoint.consumed = false
      ∧ e.retained.checkpoint.containmentRequestedAt = none
      ∧ e.retained.checkpoint.containment = none

theorem Sound.consumedFirst (h : Sound hosts specification s)
    (hconsumed : s.ConsumedBy specification i) : ConsumedFirst s i := by
  obtain ⟨k, a, b, ha, hb, hauthor, hconsumes⟩ := hconsumed
  obtain ⟨o, time, hready, -⟩ := id hconsumes
  refine ⟨k, b, hb, hauthor, hconsumes.consumed, fun l hl e he => ?_⟩
  have hunconsumed : e.retained.checkpoint.consumed = false := by
    rw [← Bool.not_eq_true]
    intro htrue
    cases ((h.preserves hl he ha).consumed_true htrue).symm.trans hready.unconsumed
  have hfree : ¬ (e.retained.checkpoint.containmentRequestedAt ≠ none
      ∨ e.retained.checkpoint.containment ≠ none) := fun hcontained =>
    (h.barred hl he ha ⟨hunconsumed, hcontained⟩).contained.elim (· hready.unrequested)
      (· hready.uncontained)
  rw [not_or, not_not, not_not] at hfree
  exact ⟨hunconsumed, hfree⟩

theorem countP_le_one {α : Type} {P : α → Bool} {xs : List α}
    (h : ∀ (i j : Nat) (a b : α), xs[i]? = some a → xs[j]? = some b → P a = true → P b = true → i = j) :
    xs.countP P ≤ 1 := by
  induction xs with
  | nil => exact Nat.zero_le 1
  | cons x xs ih =>
    by_cases hx : P x = true
    · rw [List.countP_cons_of_pos hx, List.countP_eq_zero.mpr]
      intro y hy hP
      obtain ⟨j, hj⟩ := List.mem_iff_getElem?.mp hy
      cases h 0 (j + 1) x y rfl hj hx hP
    · rw [List.countP_cons_of_neg hx]
      exact ih fun i j a b ha hb hPa hPb => Nat.succ.inj (h (i + 1) (j + 1) a b ha hb hPa hPb)

/-- Whoever is about to enter the backend holds dispatch authority. -/
theorem holder_of_enters {p : Pool HostCall HostAnswer Thrown Store}
    (h : (hostPool hosts specification).Reachable p) {c : HostProgram Unit}
    (hc : p.programs[i]? = some c) (henters : entersBackend c = true) :
    p.shared.holder = some i := by
  cases c with
  | done outcome => cases henters
  | ask q next =>
    have hpromise := (((reachable_kept h).programs i _ hc) p.shared
      ((poolSetting specification i).refl p.shared)).1
    cases q with
    | dispatch handle => exact hpromise
    | _ => cases henters

/-- **The backend is entered at most once**, only by the operation that
consumed dispatch authority, and only if no containment was requested or
established, and no refusal retained, before that; a containment retained
without consumed authority rules an entry out for ever, and authority once
consumed stays consumed. -/
theorem dispatches_of_reachable {p : Pool HostCall HostAnswer Thrown Store}
    (h : (hostPool hosts specification).Reachable p) :
    entries p ≤ 1
      ∧ (∀ i, Enters p i → ConsumedFirst p.shared i)
      ∧ ((∃ e ∈ p.shared.history, Barred e.retained.checkpoint) → entries p = 0)
      ∧ ∀ (k l : Nat) (a b : Entry), k ≤ l → p.shared.history[k]? = some a → p.shared.history[l]? = some b →
        ∀ time, a.retained.checkpoint.dispatchAuthorityConsumedAt = some time →
          b.retained.checkpoint.dispatchAuthorityConsumedAt = some time := by
  have hsound := (reachable_kept h).shared
  have hpending : ∀ i c, p.programs[i]? = some c → entersBackend c = true →
      p.shared.holder = some i := fun i c => holder_of_enters h
  have hconsumedBy : ∀ i, Enters p i → p.shared.ConsumedBy specification i := by
    rintro i (hd | ⟨c, hc, henters⟩)
    · exact hsound.consumer i (.inr hd)
    · exact hsound.consumer i (.inl (hpending i c hc henters))
  have hcount : p.programs.countP entersBackend ≤ 1 :=
    countP_le_one fun i j a b ha hb hPa hPb => Option.some.inj
      ((hpending i a ha hPa).symm.trans (hpending j b hb hPb))
  have hnone : (∀ i, ¬ Enters p i) → entries p = 0 := by
    intro hnobody
    have hdispatches : p.shared.dispatches = [] :=
      List.eq_nil_iff_forall_not_mem.mpr fun d hd => hnobody d.author (.inl ⟨d, hd, rfl⟩)
    rw [entries, hdispatches, List.countP_eq_zero.mpr]
    · rfl
    · intro c hc henters
      obtain ⟨i, hi⟩ := List.mem_iff_getElem?.mp hc
      exact hnobody i (.inr ⟨c, hi, henters⟩)
  refine ⟨?_, fun i hi => hsound.consumedFirst (hconsumedBy i hi), ?_, ?_⟩
  · rcases hsound.once with hempty | ⟨hholder, hlength⟩
    · rw [entries, hempty, List.length_nil, Nat.zero_add]
      exact hcount
    · rw [entries, hlength, List.countP_eq_zero.mpr]
      intro c hc henters
      obtain ⟨i, hi⟩ := List.mem_iff_getElem?.mp hc
      cases hholder.symm.trans (hpending i c hi henters)
  · rintro ⟨e, he, hbarred⟩
    exact hnone fun i hi => hsound.not_barred he hbarred (hconsumedBy i hi)
  · exact fun k l a b hkl ha hb time htime => (hsound.preserves hkl ha hb).consumed time htime

/-- The cell is dispatched by the operation that consumed its authority. -/
theorem dispatches_of_reachable_cell : ∃ p : Pool HostCall HostAnswer Thrown Store,
    Enters p 2 ∧ entries p ≤ 1 ∧ ConsumedFirst p.shared 2 := by
  obtain ⟨c₀, c₁, c₂, r, c₃, o₁, o₂, k, h⟩ := exists_cellRun
  obtain ⟨s, c, henters, hreachable, -⟩ := h.reachable
  have hsecond : Enters ⟨s, [pure (), pure (), c, pure ()]⟩ 2 := .inr ⟨c, rfl, henters⟩
  obtain ⟨hone, hconsumed, -⟩ := dispatches_of_reachable hreachable
  exact ⟨_, hsecond, hone, hconsumed 2 hsecond⟩

/-- **A host enters the backend although containment has been requested**: it
consumed dispatch authority before the request of another was retained. -/
theorem dispatch_after_request : ∃ (p : Pool HostCall HostAnswer Thrown Store) (i : Nat)
    (c : HostProgram Unit) (e : Entry),
    (hostPool (fun _ => plainHost) cellSpecification).Reachable p
      ∧ p.programs[i]? = some c ∧ entersBackend c = true
      ∧ e ∈ p.shared.history ∧ e.retained.checkpoint.containmentRequestedAt ≠ none := by
  obtain ⟨c₀, c₁, c₂, r, c₃, o₁, o₂, k, h⟩ := exists_cellRun
  obtain ⟨s, c, henters, hreachable, hhistory⟩ := h.reachable
  have hlast : c₃ ∈ s.history.map (·.retained.checkpoint) := by
    rw [hhistory]
    simp only [List.mem_cons, true_or, or_true]
  obtain ⟨e, he, rfl⟩ := List.mem_map.mp hlast
  refine ⟨_, 2, c, e, hreachable, rfl, henters, he, ?_⟩
  exact h.requested_after

end Execution
