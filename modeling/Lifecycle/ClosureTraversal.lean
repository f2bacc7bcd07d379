import Lifecycle.KnowledgeClosure

/-!
# The traversal of the Knowledge closure

Between two rounds the queue has two depths at most, and what is not queued is
done (`Exploring`). So the first of the queue is at its distance from the
seeds, no record is queued twice, and a round is refused only where a step
leaves a record whose distance is the bound.
-/

open Fallible Json ControlModel SortedBy

namespace Knowledge

section

variable {knowledge : KnowledgeGraph} {role : ExecutionRole}

/-! ## One visit -/

variable {seeds : List ClosureSeed} {maximumDepth : Nat}

/-- **The invariant of the traversal** at any moment: what has a depth is
reached in as many steps, is current, and has its entry; what is queued is
queued once, nearest first. -/
structure Charted (knowledge : KnowledgeGraph) (role : ExecutionRole) (seeds : List ClosureSeed)
    (st : ClosureState) : Prop where
  reached : ∀ {x n}, st.minimumDepth.get x = some n → ReachesIn knowledge role seeds n x
  current : ∀ {x n}, st.minimumDepth.get x = some n →
    ∃ record ∈ knowledge.current.records, record.frontMatter.id = x
  entries : ∀ x, (st.closure.get x).map (·.record)
    = (st.minimumDepth.get x).bind fun _ => knowledge.current.byIdentity.get x
  queued : ∀ item ∈ st.queue, st.minimumDepth.get item.id = some item.depth
  nodup : (st.queue.map (·.id)).Nodup
  ordered : st.queue.Pairwise fun a b => a.depth ≤ b.depth

/-- The items queued and the records without a depth. -/
def ClosureState.remaining (records : List KnowledgeRecord) (st : ClosureState) : Nat :=
  st.queue.length
    + (records.filter fun r => st.minimumDepth.get r.frontMatter.id = none).length

/-- **What a visit changes**: the record has a depth afterwards, of the visit
and queued when it had none. -/
structure Visited (knowledge : KnowledgeGraph) (st : ClosureState) (item : ClosureItem)
    (st' : ClosureState) : Prop where
  kept : ∀ {x n}, st.minimumDepth.get x = some n → st'.minimumDepth.get x = some n
  added : ∃ m ≤ item.depth, st'.minimumDepth.get item.id = some m
  only : ∀ {x n}, st'.minimumDepth.get x = some n →
    st.minimumDepth.get x = some n ∨ (n = item.depth ∧ x ∈ st'.queue.map (·.id))
  queue : ∀ {a}, a ∈ st'.queue → a ∈ st.queue ∨ (a = item ∧ st.minimumDepth.get item.id = none)
  pending : ∀ {a}, a ∈ st.queue → a ∈ st'.queue
  remaining : st'.remaining knowledge.current.records = st.remaining knowledge.current.records

/-- Giving a record a depth takes one of the records without. -/
theorem length_filter_set (c : CurrentRecords) {m : OrderedMap String Nat} {x : String} {n : Nat}
    {record : KnowledgeRecord} (hrecord : record ∈ c.records) (hid : record.frontMatter.id = x)
    (hnone : m.get x = none) :
    (c.records.filter fun r => (m.set x n).get r.frontMatter.id = none).length + 1
      = (c.records.filter fun r => m.get r.frontMatter.id = none).length := by
  have hmem : record ∈ c.records.filter fun r => m.get r.frontMatter.id = none :=
    List.mem_filter.mpr ⟨hrecord, decide_eq_true (hid ▸ hnone)⟩
  have hnodup : c.records.Nodup := c.distinct.of_map _
  have herase : (c.records.filter fun r => (m.set x n).get r.frontMatter.id = none)
      = (c.records.filter fun r => m.get r.frontMatter.id = none).erase record := by
    rw [(hnodup.filter _).erase_eq_filter, List.filter_filter]
    refine List.filter_congr fun r hr => ?_
    rw [OrderedMap.get_set]
    by_cases hrx : r.frontMatter.id = x
    · obtain rfl := c.eq_of_id_eq hr hrecord (hrx.trans hid.symm)
      simp [hid]
    · have hne : r ≠ record := fun heq => hrx (heq ▸ hid)
      simp [hrx, hne]
  rw [herase]
  exact List.length_erase_add_one hmem

/-- **A visit within the bound** of a current record, no nearer than what is
known, keeps the invariant. -/
theorem Charted.visit {st : ClosureState} (h : Charted knowledge role seeds st)
    (item : ClosureItem) {record : KnowledgeRecord} (hrecord : record ∈ knowledge.current.records)
    (hid : record.frontMatter.id = item.id) (hdepth : item.depth ≤ maximumDepth)
    (hreach : ReachesIn knowledge role seeds item.depth item.id)
    (hlow : ∀ n, st.minimumDepth.get item.id = some n → n ≤ item.depth)
    (hlast : ∀ a ∈ st.queue, a.depth ≤ item.depth) :
    ∃ st', Knowledge.visit knowledge.current.byIdentity maximumDepth item st = .ok st'
      ∧ Charted knowledge role seeds st' ∧ Visited knowledge st item st' := by
  have hget : knowledge.current.byIdentity.get item.id = some record :=
    CurrentRecords.get_byIdentity.mpr ⟨hrecord, hid⟩
  rw [Knowledge.visit, hget, orFail, ok_bind, failIf_neg (Nat.not_lt_of_le hdepth), ok_bind]
  have hentry : ((st.closure.get item.id).getD ⟨record, [], ∅⟩).record = record := by
    have hold := h.entries item.id
    cases hc : st.closure.get item.id with
    | none => rfl
    | some entry =>
      rw [hc, Option.map_some] at hold
      cases hd : st.minimumDepth.get item.id with
      | none =>
        rw [hd] at hold
        cases hold
      | some n =>
        rw [hd, Option.bind_some, hget] at hold
        exact Option.some.inj hold
  cases hprior : st.minimumDepth.get item.id with
  | some prior =>
    have hnear : isNearer (some prior) item.depth = false :=
      decide_eq_false (Nat.not_lt_of_le (hlow prior hprior))
    simp only [hnear, Bool.false_eq_true, if_false]
    refine ⟨_, rfl, ⟨h.reached, h.current, fun x => ?_, h.queued, h.nodup, h.ordered⟩,
      ⟨id, ⟨prior, hlow prior hprior, hprior⟩, .inl, .inl, id, rfl⟩⟩
    rw [OrderedMap.get_set]
    split
    · next hx =>
      rw [hx, Option.map_some, hprior, Option.bind_some, hget]
      exact congrArg some hentry
    · exact h.entries x
  | none =>
    simp only [isNearer, if_true]
    have hout : item.id ∉ st.queue.map (·.id) := by
      intro hmem
      obtain ⟨a, ha, heq⟩ := List.mem_map.mp hmem
      have hdepth := h.queued a ha
      rw [heq, hprior] at hdepth
      cases hdepth
    refine ⟨_, rfl, ⟨?_, ?_, fun x => ?_, ?_, ?_, ?_⟩, ⟨?_, ?_, ?_, ?_, ?_, ?_⟩⟩
    · intro x n hx
      rw [OrderedMap.get_set] at hx
      split at hx
      · next heq =>
        obtain rfl := Option.some.inj hx
        exact heq ▸ hreach
      · exact h.reached hx
    · intro x n hx
      rw [OrderedMap.get_set] at hx
      split at hx
      · next heq => exact ⟨record, hrecord, hid.trans heq.symm⟩
      · exact h.current hx
    · rw [OrderedMap.get_set, OrderedMap.get_set]
      split
      · next hx =>
        rw [hx, Option.map_some, Option.bind_some, hget]
        exact congrArg some hentry
      · exact h.entries x
    · intro a ha
      obtain ha | ha := List.mem_append.mp ha
      · have hmem : a.id ∈ st.queue.map (·.id) := List.mem_map_of_mem ha
        have hne : a.id ≠ item.id := fun heq => hout (heq ▸ hmem)
        rw [OrderedMap.get_set_of_ne hne]
        exact h.queued a ha
      · rw [List.mem_singleton.mp ha]
        exact OrderedMap.get_set_self
    · show ((st.queue ++ [item]).map (·.id)).Nodup
      rw [List.map_append]
      refine List.nodup_append.mpr ⟨h.nodup, List.nodup_singleton _, fun x hx y hy heq => hout ?_⟩
      have hitem : y = item.id := List.mem_singleton.mp hy
      exact hitem ▸ heq ▸ hx
    · show (st.queue ++ [item]).Pairwise _
      refine List.pairwise_append.mpr ⟨h.ordered, List.pairwise_singleton _ _, fun a ha b hb => ?_⟩
      rw [List.mem_singleton.mp hb]
      exact hlast a ha
    · intro x n hx
      show (st.minimumDepth.set item.id item.depth).get x = some n
      rw [OrderedMap.get_set_of_ne fun heq => ?_]
      · exact hx
      · rw [heq, hprior] at hx
        cases hx
    · exact ⟨item.depth, le_rfl, OrderedMap.get_set_self⟩
    · intro x n hx
      rw [OrderedMap.get_set] at hx
      split at hx
      · next heq =>
        refine .inr ⟨(Option.some.inj hx).symm, ?_⟩
        show x ∈ (st.queue ++ [item]).map (·.id)
        rw [List.map_append, heq]
        exact List.mem_append_right _ List.mem_cons_self
      · exact .inl hx
    · intro a ha
      obtain ha | ha := List.mem_append.mp ha
      · exact .inl ha
      · exact .inr ⟨List.mem_singleton.mp ha, hprior⟩
    · exact fun ha => List.mem_append_left _ ha
    · have hlength := length_filter_set knowledge.current (n := item.depth) hrecord hid hprior
      simp only [ClosureState.remaining, List.length_append, List.length_singleton]
      omega

/-- A visit that goes through is of a current record, within the bound. -/
theorem of_visit_ok {item : ClosureItem} {st st' : ClosureState}
    (h : Knowledge.visit knowledge.current.byIdentity maximumDepth item st = .ok st') :
    (∃ record ∈ knowledge.current.records, record.frontMatter.id = item.id)
      ∧ item.depth ≤ maximumDepth := by
  rw [Knowledge.visit, bind_eq_ok] at h
  obtain ⟨record, hrecord, h⟩ := h
  rw [bind_eq_ok, exists_unit, failIf_eq_ok] at h
  refine ⟨⟨record, CurrentRecords.get_byIdentity.mp (orFail_eq_ok.mp hrecord)⟩, ?_⟩
  exact Nat.le_of_not_lt h.1

/-! ## The seeds -/

/-- While the seeds are visited, every depth is 0 and every record is queued. -/
structure Seeding (knowledge : KnowledgeGraph) (role : ExecutionRole) (seeds : List ClosureSeed)
    (st : ClosureState) : Prop where
  charted : Charted knowledge role seeds st
  zero : ∀ {x n}, st.minimumDepth.get x = some n → n = 0 ∧ x ∈ st.queue.map (·.id)

/-- **The visits of current seeds go through.** -/
theorem Seeding.replay {st : ClosureState} (h : Seeding knowledge role seeds st)
    (maximumDepth : Nat) {l : List ClosureSeed} (hl : ∀ seed ∈ l, seed ∈ seeds) (hcurrent : SeedsCurrent knowledge l) :
    ∃ st', Fallible.replay (fun st (seed : ClosureSeed) =>
          Knowledge.visit knowledge.current.byIdentity maximumDepth seed.item st) st l = .ok st'
      ∧ Seeding knowledge role seeds st'
      ∧ st'.remaining knowledge.current.records = st.remaining knowledge.current.records
      ∧ (∀ {x n}, st.minimumDepth.get x = some n → st'.minimumDepth.get x = some n)
      ∧ ∀ seed ∈ l, st'.minimumDepth.get seed.id = some 0 := by
  induction l generalizing st with
  | nil => exact ⟨st, rfl, h, rfl, id, fun _ hseed => absurd hseed List.not_mem_nil⟩
  | cons seed l ih =>
    obtain ⟨record, hrecord, hid⟩ := hcurrent seed List.mem_cons_self
    obtain ⟨st₁, hvisit, hcharted, hvisited⟩ := h.charted.visit seed.item hrecord hid
      (Nat.zero_le maximumDepth) ⟨seed, hl seed List.mem_cons_self, rfl⟩
      (fun n hn => (h.zero hn).1.le) fun a ha => (h.zero (h.charted.queued a ha)).1.le
    have hseeding : Seeding knowledge role seeds st₁ := by
      refine ⟨hcharted, fun {x n} hx => ?_⟩
      obtain hold | ⟨rfl, hmem⟩ := hvisited.only hx
      · obtain ⟨hzero, hmem⟩ := h.zero hold
        obtain ⟨a, ha, rfl⟩ := List.mem_map.mp hmem
        exact ⟨hzero, List.mem_map_of_mem (hvisited.pending ha)⟩
      · exact ⟨rfl, hmem⟩
    obtain ⟨st', hreplay, hdone, hremaining, hkept, hzero⟩ := ih hseeding
      (fun s hs => hl s (List.mem_cons_of_mem _ hs)) fun s hs => hcurrent s (List.mem_cons_of_mem _ hs)
    refine ⟨st', ?_, hdone, hremaining.trans hvisited.remaining,
      fun hx => hkept (hvisited.kept hx), fun s hs => ?_⟩
    · rw [replay_cons, hvisit, ok_bind]
      exact hreplay
    · obtain rfl | hs := List.mem_cons.mp hs
      · obtain ⟨m, hm, hget⟩ := hvisited.added
        rw [Nat.le_zero.mp hm] at hget
        exact hkept hget
      · exact hzero s hs

/-! ## The rounds -/

/-- **The invariant between rounds**: the queue has two depths at most, and
what is not queued is done: it is no further than what is queued, and its steps
are within the bound and lead to records with a depth. -/
structure Exploring (knowledge : KnowledgeGraph) (role : ExecutionRole)
    (seeds : List ClosureSeed) (maximumDepth : Nat) (st : ClosureState) : Prop where
  charted : Charted knowledge role seeds st
  seeded : ∀ seed ∈ seeds, st.minimumDepth.get seed.id = some 0
  spread : ∀ a ∈ st.queue, ∀ b ∈ st.queue, b.depth ≤ a.depth + 1
  settled : ∀ {x n}, st.minimumDepth.get x = some n → x ∉ st.queue.map (·.id) →
    (∀ a ∈ st.queue, n ≤ a.depth) ∧ ∀ y, RuleStep knowledge role x y →
      n + 1 ≤ maximumDepth ∧ ∃ m ≤ n + 1, st.minimumDepth.get y = some m

/-- **The invariant during a round**, with the steps done. -/
structure Working (knowledge : KnowledgeGraph) (role : ExecutionRole) (seeds : List ClosureSeed)
    (maximumDepth : Nat) (item : ClosureItem) (done : List (String × String))
    (st : ClosureState) : Prop where
  charted : Charted knowledge role seeds st
  seeded : ∀ seed ∈ seeds, st.minimumDepth.get seed.id = some 0
  near : ∀ a ∈ st.queue, item.depth ≤ a.depth ∧ a.depth ≤ item.depth + 1
  self : st.minimumDepth.get item.id = some item.depth
  low : ∀ {x n}, st.minimumDepth.get x = some n → n ≤ item.depth + 1
  settled : ∀ {x n}, st.minimumDepth.get x = some n → x ∉ st.queue.map (·.id) → x ≠ item.id →
    n ≤ item.depth ∧ ∀ y, RuleStep knowledge role x y →
      n + 1 ≤ maximumDepth ∧ ∃ m ≤ n + 1, st.minimumDepth.get y = some m
  done : ∀ step ∈ done, item.depth + 1 ≤ maximumDepth
    ∧ ∃ m ≤ item.depth + 1, st.minimumDepth.get step.1 = some m

/-- **Taking an item off the queue.** -/
theorem Exploring.begin {st : ClosureState}
    (h : Exploring knowledge role seeds maximumDepth st) {item : ClosureItem}
    {rest : List ClosureItem} (hqueue : st.queue = item :: rest) :
    Working knowledge role seeds maximumDepth item [] { st with queue := rest } := by
  have hmem : item ∈ st.queue := hqueue ▸ List.mem_cons_self
  have hrest : ∀ a ∈ rest, a ∈ st.queue := fun a ha => hqueue ▸ List.mem_cons_of_mem _ ha
  have hnodup := h.charted.nodup
  have hordered := h.charted.ordered
  rw [hqueue] at hnodup hordered
  have hids : ∀ {x}, x ≠ item.id → x ∉ rest.map (·.id) → x ∉ st.queue.map (·.id) := by
    intro x hne hout hx
    rw [hqueue, List.map_cons] at hx
    exact (List.mem_cons.mp hx).elim hne hout
  refine ⟨⟨h.charted.reached, h.charted.current, h.charted.entries,
    fun a ha => h.charted.queued a (hrest a ha), (List.nodup_cons.mp hnodup).2,
    (List.pairwise_cons.mp hordered).2⟩, h.seeded, fun a ha => ?_, h.charted.queued item hmem,
    fun {x n} hx => ?_, fun {x n} hx hout hne => ?_, fun _ hstep => absurd hstep List.not_mem_nil⟩
  · exact ⟨(List.pairwise_cons.mp hordered).1 a ha, h.spread item hmem a (hrest a ha)⟩
  · by_cases hin : x ∈ st.queue.map (·.id)
    · obtain ⟨a, ha, rfl⟩ := List.mem_map.mp hin
      obtain rfl := Option.some.inj ((h.charted.queued a ha).symm.trans hx)
      exact h.spread item hmem a ha
    · exact ((h.settled hx hin).1 item hmem).trans (Nat.le_succ _)
  · obtain ⟨hle, hsteps⟩ := h.settled hx (hids hne hout)
    exact ⟨hle item hmem, hsteps⟩

/-- **One step of a round.** -/
theorem Working.visit {item : ClosureItem} {done : List (String × String)} {st : ClosureState}
    (h : Working knowledge role seeds maximumDepth item done st) {step : String × String}
    (hstep : RuleStep knowledge role item.id step.1) (hdepth : item.depth + 1 ≤ maximumDepth) :
    ∃ st', Knowledge.visit knowledge.current.byIdentity maximumDepth (item.next step) st = .ok st'
      ∧ Working knowledge role seeds maximumDepth item (done ++ [step]) st'
      ∧ st'.remaining knowledge.current.records = st.remaining knowledge.current.records := by
  obtain ⟨record, hrecord, hid⟩ := hstep.current
  obtain ⟨st', hvisit, hcharted, hvisited⟩ := h.charted.visit (item.next step) hrecord
    hid hdepth ⟨item.id, h.charted.reached h.self, hstep⟩
    (fun n hn => h.low hn) fun a ha => (h.near a ha).2
  refine ⟨st', hvisit, ⟨hcharted, fun seed hseed => hvisited.kept (h.seeded seed hseed),
    fun a ha => ?_, hvisited.kept h.self, fun {x n} hx => ?_, fun {x n} hx hout hne => ?_,
    fun s hs => ?_⟩, hvisited.remaining⟩
  · obtain ha | ⟨rfl, -⟩ := hvisited.queue ha
    · exact h.near a ha
    · exact ⟨Nat.le_succ _, le_rfl⟩
  · obtain hold | ⟨rfl, -⟩ := hvisited.only hx
    · exact h.low hold
    · exact le_rfl
  · obtain hold | ⟨-, hin⟩ := hvisited.only hx
    · have hbefore : x ∉ st.queue.map (·.id) := by
        intro hmem
        obtain ⟨a, ha, rfl⟩ := List.mem_map.mp hmem
        exact hout (List.mem_map_of_mem (hvisited.pending ha))
      obtain ⟨hle, hsteps⟩ := h.settled hold hbefore hne
      refine ⟨hle, fun y hy => ?_⟩
      obtain ⟨hbound, m, hm, hget⟩ := hsteps y hy
      exact ⟨hbound, m, hm, hvisited.kept hget⟩
    · exact absurd hin hout
  · obtain hs | hs := List.mem_append.mp hs
    · obtain ⟨hbound, m, hm, hget⟩ := h.done s hs
      exact ⟨hbound, m, hm, hvisited.kept hget⟩
    · rw [List.mem_singleton.mp hs]
      exact ⟨hdepth, hvisited.added⟩

/-- **All steps of a round.** -/
theorem Working.replay {item : ClosureItem} {done steps : List (String × String)}
    {st : ClosureState} (h : Working knowledge role seeds maximumDepth item done st)
    (hsteps : ∀ step ∈ steps, RuleStep knowledge role item.id step.1)
    (hdepth : steps ≠ [] → item.depth + 1 ≤ maximumDepth) :
    ∃ st', Fallible.replay (fun st step =>
          Knowledge.visit knowledge.current.byIdentity maximumDepth (item.next step) st) st steps
        = .ok st'
      ∧ Working knowledge role seeds maximumDepth item (done ++ steps) st'
      ∧ st'.remaining knowledge.current.records = st.remaining knowledge.current.records := by
  induction steps generalizing st done with
  | nil => exact ⟨st, rfl, (List.append_nil done).symm ▸ h, rfl⟩
  | cons step steps ih =>
    have hbound := hdepth (List.cons_ne_nil _ _)
    obtain ⟨st₁, hvisit, hone, hsame⟩ := h.visit (hsteps step List.mem_cons_self) hbound
    obtain ⟨st', hreplay, hall, hremaining⟩ := ih hone
      (fun s hs => hsteps s (List.mem_cons_of_mem _ hs)) fun _ => hbound
    refine ⟨st', ?_, ?_, hremaining.trans hsame⟩
    · rw [replay_cons, hvisit, ok_bind]
      exact hreplay
    · rw [List.append_cons]
      exact hall

/-- **The end of a round.** -/
theorem Working.finish {item : ClosureItem} {done : List (String × String)} {st : ClosureState}
    (h : Working knowledge role seeds maximumDepth item done st)
    (hdone : ∀ y, RuleStep knowledge role item.id y → ∃ reason, (y, reason) ∈ done) :
    Exploring knowledge role seeds maximumDepth st := by
  refine ⟨h.charted, h.seeded, fun a ha b hb => ?_, fun {x n} hx hout => ?_⟩
  · exact (h.near b hb).2.trans (Nat.add_le_add_right (h.near a ha).1 1)
  · by_cases hself : x = item.id
    · subst hself
      obtain rfl := Option.some.inj (h.self.symm.trans hx)
      refine ⟨fun a ha => (h.near a ha).1, fun y hy => ?_⟩
      obtain ⟨reason, hmem⟩ := hdone y hy
      exact h.done _ hmem
    · obtain ⟨hle, hsteps⟩ := h.settled hx hout hself
      exact ⟨fun a ha => hle.trans (h.near a ha).1, hsteps⟩

/-- **What a round does**, with a bound that all steps keep. -/
theorem Exploring.round {st : ClosureState} (h : Exploring knowledge role seeds maximumDepth st)
    {item : ClosureItem} {rest : List ClosureItem} (hqueue : st.queue = item :: rest)
    (hdepth : stepsOf knowledge role item.id ≠ [] → item.depth + 1 ≤ maximumDepth) :
    ∃ st', closureRound knowledge.current.byIdentity (stepsOf knowledge role) maximumDepth (.ok st)
        = some (.ok st')
      ∧ Exploring knowledge role seeds maximumDepth st'
      ∧ st'.remaining knowledge.current.records < st.remaining knowledge.current.records := by
  obtain ⟨st', hreplay, hworking, hremaining⟩ := (h.begin hqueue).replay
    (fun step hstep => mem_stepsOf.mp ⟨step.2, hstep⟩) hdepth
  refine ⟨st', ?_, hworking.finish fun y hy => mem_stepsOf.mpr hy, ?_⟩
  · simp only [closureRound, hqueue]
    exact congrArg some hreplay
  · rw [hremaining]
    simp only [ClosureState.remaining, hqueue, List.length_cons]
    omega

/-- **What is reached before the first of the queue has a depth**, of no more
steps. -/
theorem Exploring.depth_le {st : ClosureState} (h : Exploring knowledge role seeds maximumDepth st)
    (bound : Nat) (hbound : ∀ a ∈ st.queue, bound ≤ a.depth) {m : Nat} (hm : m ≤ bound) {x : String}
    (hreach : ReachesIn knowledge role seeds m x) :
    ∃ n ≤ m, st.minimumDepth.get x = some n := by
  induction m generalizing x with
  | zero =>
    obtain ⟨seed, hseed, rfl⟩ := hreach
    exact ⟨0, le_rfl, h.seeded seed hseed⟩
  | succ m ih =>
    obtain ⟨z, hz, hstep⟩ := hreach
    obtain ⟨n, hn, hget⟩ := ih (Nat.le_of_succ_le hm) hz
    have hout : z ∉ st.queue.map (·.id) := by
      intro hmem
      obtain ⟨a, ha, rfl⟩ := List.mem_map.mp hmem
      have hdepth := Option.some.inj ((h.charted.queued a ha).symm.trans hget)
      have hle := hbound a ha
      omega
    obtain ⟨-, k, hk, hx⟩ := (h.settled hget hout).2 x hstep
    exact ⟨k, by omega, hx⟩

/-- **A round within the bound goes through**: the first of the queue is at its
distance from the seeds. -/
theorem Exploring.round_of_within {st : ClosureState}
    (h : Exploring knowledge role seeds maximumDepth st) {item : ClosureItem}
    {rest : List ClosureItem} (hqueue : st.queue = item :: rest)
    (hwithin : WithinDepth knowledge role seeds maximumDepth)
    (hsteps : stepsOf knowledge role item.id ≠ []) : item.depth + 1 ≤ maximumDepth := by
  have hmem : item ∈ st.queue := hqueue ▸ List.mem_cons_self
  have hfirst : ∀ a ∈ st.queue, item.depth ≤ a.depth := by
    have hordered := h.charted.ordered
    rw [hqueue] at hordered
    intro a ha
    rw [hqueue] at ha
    obtain rfl | ha := List.mem_cons.mp ha
    · exact le_rfl
    · exact (List.pairwise_cons.mp hordered).1 a ha
  obtain ⟨step, hstep⟩ := List.exists_mem_of_ne_nil _ hsteps
  have hself := h.charted.queued item hmem
  obtain ⟨n, hn, hreach⟩ := hwithin item.depth item.id step.1 (h.charted.reached hself)
    (mem_stepsOf.mp ⟨step.2, hstep⟩)
  by_contra hover
  obtain ⟨k, hk, hget⟩ := h.depth_le item.depth hfirst (m := n) (by omega) hreach
  have hdepth := Option.some.inj (hself.symm.trans hget)
  omega

/-- The visits of a round are within the bound when it goes through. -/
theorem depth_of_round_ok {st st' : ClosureState} {item : ClosureItem} {rest : List ClosureItem}
    (hqueue : st.queue = item :: rest)
    (h : closureRound knowledge.current.byIdentity (stepsOf knowledge role) maximumDepth (.ok st)
      = some (.ok st')) (hsteps : stepsOf knowledge role item.id ≠ []) :
    item.depth + 1 ≤ maximumDepth := by
  simp only [closureRound, hqueue, Option.some.injEq] at h
  obtain ⟨step, steps, heq⟩ := List.exists_cons_of_ne_nil hsteps
  rw [heq, replay_cons, bind_eq_ok] at h
  obtain ⟨st₁, hvisit, -⟩ := h
  exact (of_visit_ok hvisit).2

/-- **The invariant of the loop**: it is refused only where a step leaves a
record at the bound. -/
def Explored (knowledge : KnowledgeGraph) (role : ExecutionRole) (seeds : List ClosureSeed)
    (maximumDepth : Nat) : Except FoundationError ClosureState → Prop
  | .ok st => Exploring knowledge role seeds maximumDepth st
  | .error _ => ¬ WithinDepth knowledge role seeds maximumDepth

/-- The rounds the loop has left. -/
def roundsLeft (records : List KnowledgeRecord) : Except FoundationError ClosureState → Nat
  | .ok st => st.remaining records
  | .error _ => 0

/-- Every round keeps the invariant. -/
theorem Explored.round {s s' : Except FoundationError ClosureState}
    (h : Explored knowledge role seeds maximumDepth s)
    (hround : closureRound knowledge.current.byIdentity (stepsOf knowledge role) maximumDepth s
      = some s') :
    Explored knowledge role seeds maximumDepth s'
      ∧ roundsLeft knowledge.current.records s' < roundsLeft knowledge.current.records s := by
  cases s with
  | error e => cases hround
  | ok st =>
    cases hqueue : st.queue with
    | nil => simp [closureRound, hqueue] at hround
    | cons item rest =>
      by_cases hdepth : stepsOf knowledge role item.id ≠ [] → item.depth + 1 ≤ maximumDepth
      · obtain ⟨st', heq, hexploring, hlt⟩ := Exploring.round h hqueue hdepth
        obtain rfl := Option.some.inj (heq.symm.trans hround)
        exact ⟨hexploring, hlt⟩
      · obtain ⟨hsteps, hover⟩ := Classical.not_imp.mp hdepth
        cases s' with
        | ok st' => exact absurd (depth_of_round_ok hqueue hround hsteps) hover
        | error e =>
          refine ⟨fun hwithin => hover (Exploring.round_of_within h hqueue hwithin hsteps), ?_⟩
          simp only [roundsLeft, ClosureState.remaining, hqueue, List.length_cons]
          omega

/-- **The loop ends with the queue empty, or is refused.** -/
theorem explored_loop {st : ClosureState} (h : Exploring knowledge role seeds maximumDepth st)
    {fuel : Nat} (hfuel : st.remaining knowledge.current.records ≤ fuel) :
    (∃ st', loop (closureRound knowledge.current.byIdentity (stepsOf knowledge role) maximumDepth)
          fuel (.ok st) = .ok st'
        ∧ Exploring knowledge role seeds maximumDepth st' ∧ st'.queue = [])
      ∨ ((∃ e, loop (closureRound knowledge.current.byIdentity (stepsOf knowledge role)
          maximumDepth) fuel (.ok st) = .error e)
        ∧ ¬ WithinDepth knowledge role seeds maximumDepth) := by
  obtain ⟨hinv, hend⟩ := loop_rule (Explored knowledge role seeds maximumDepth)
    (roundsLeft knowledge.current.records) fuel (fun _ _ hs hround => hs.round hround)
    (s := .ok st) h hfuel
  cases hfinal : loop (closureRound knowledge.current.byIdentity (stepsOf knowledge role)
    maximumDepth) fuel (.ok st) with
  | error e =>
    rw [hfinal] at hinv
    exact .inr ⟨⟨e, rfl⟩, hinv⟩
  | ok st' =>
    rw [hfinal] at hinv hend
    refine .inl ⟨st', rfl, hinv, ?_⟩
    cases hqueue : st'.queue with
    | nil => rfl
    | cons item rest => simp [closureRound, hqueue] at hend

/-! ## The result -/

/-- **Once the queue is empty, all steps from what is reached are within the
bound, and what has a depth is what is reached.** -/
theorem Exploring.finished {st : ClosureState}
    (h : Exploring knowledge role seeds maximumDepth st) (hqueue : st.queue = []) :
    WithinDepth knowledge role seeds maximumDepth
      ∧ ∀ x, (∃ entry, st.closure.get x = some entry) ↔ ∃ n, ReachesIn knowledge role seeds n x := by
  have hdepth : ∀ {m x}, ReachesIn knowledge role seeds m x →
      ∃ n ≤ m, st.minimumDepth.get x = some n := fun {m x} hreach =>
    h.depth_le m (by simp [hqueue]) le_rfl hreach
  refine ⟨fun m x y hreach hstep => ?_, fun x => ?_⟩
  · obtain ⟨n, -, hget⟩ := hdepth hreach
    obtain ⟨hlt, -⟩ := (h.settled hget (by simp [hqueue])).2 y hstep
    exact ⟨n, hlt, h.charted.reached hget⟩
  · have hentry := h.charted.entries x
    constructor
    · rintro ⟨entry, hget⟩
      rw [hget, Option.map_some] at hentry
      cases hd : st.minimumDepth.get x with
      | none =>
        rw [hd] at hentry
        cases hentry
      | some n => exact ⟨n, h.charted.reached hd⟩
    · rintro ⟨m, hreach⟩
      obtain ⟨n, -, hget⟩ := hdepth hreach
      obtain ⟨record, hrecord, hid⟩ := h.charted.current hget
      rw [hget, Option.bind_some, CurrentRecords.get_byIdentity.mpr ⟨hrecord, hid⟩] at hentry
      obtain ⟨entry, hclosure, -⟩ := Option.map_eq_some_iff.mp hentry
      exact ⟨entry, hclosure⟩

/-- The entries are of current records. -/
theorem Charted.record {st : ClosureState} (h : Charted knowledge role seeds st) {x : String}
    {entry : ClosureEntry} (hget : st.closure.get x = some entry) :
    entry.record ∈ knowledge.current.records ∧ entry.record.frontMatter.id = x := by
  have hentry := h.entries x
  rw [hget, Option.map_some] at hentry
  cases hd : st.minimumDepth.get x with
  | none =>
    rw [hd] at hentry
    cases hentry
  | some n =>
    rw [hd, Option.bind_some] at hentry
    exact CurrentRecords.get_byIdentity.mp hentry.symm

/-- **The visits of the seeds go through exactly when all are current**, and
the rounds begin. -/
theorem seeded_cases (knowledge : KnowledgeGraph) (role : ExecutionRole)
    (seeds : List ClosureSeed) (maximumDepth : Nat) :
    (∃ st, seeded knowledge.current.byIdentity maximumDepth seeds = .ok st
        ∧ SeedsCurrent knowledge seeds ∧ Exploring knowledge role seeds maximumDepth st
        ∧ st.remaining knowledge.current.records = knowledge.current.records.length)
      ∨ ((∃ e, seeded knowledge.current.byIdentity maximumDepth seeds = .error e)
        ∧ ¬ SeedsCurrent knowledge seeds) := by
  have hsorted : ∀ {seed}, seed ∈ sortSeeds seeds ↔ seed ∈ seeds := mem_sortOn
  by_cases hcurrent : SeedsCurrent knowledge seeds
  · have hbegin : Seeding knowledge role seeds ⟨∅, ∅, []⟩ := by
      refine ⟨⟨?_, ?_, fun x => rfl, ?_, List.nodup_nil, List.Pairwise.nil⟩, ?_⟩ <;> simp
    obtain ⟨st, hreplay, hseeding, hremaining, -, hzero⟩ := hbegin.replay
      maximumDepth (fun seed hseed => hsorted.mp hseed)
      fun seed hseed => hcurrent seed (hsorted.mp hseed)
    refine .inl ⟨st, hreplay, hcurrent, ⟨hseeding.charted,
      fun seed hseed => hzero seed (hsorted.mpr hseed), fun a ha b hb => ?_,
      fun hx hout => absurd (hseeding.zero hx).2 hout⟩, hremaining.trans ?_⟩
    · rw [(hseeding.zero (hseeding.charted.queued b hb)).1]
      exact Nat.zero_le _
    · simp [ClosureState.remaining]
  · refine .inr ⟨?_, hcurrent⟩
    cases hseeded : seeded knowledge.current.byIdentity maximumDepth seeds with
    | error e => exact ⟨e, rfl⟩
    | ok st =>
      refine absurd (fun seed hseed => ?_) hcurrent
      obtain ⟨before, after, hsplit⟩ := List.append_of_mem (hsorted.mpr hseed)
      rw [seeded, hsplit, replay_append_eq_ok] at hseeded
      obtain ⟨st₁, -, hseeded⟩ := hseeded
      rw [replay_cons, bind_eq_ok] at hseeded
      obtain ⟨st₂, hvisit, -⟩ := hseeded
      exact (of_visit_ok hvisit).1

/-- **What `buildClosure` does**: it refuses seeds that are not current and
steps at the bound, and returns the closure of a traversal that is done. -/
theorem buildClosure_cases (knowledge : KnowledgeGraph) (role : ExecutionRole)
    (seeds : List ClosureSeed) (maximumDepth : Nat) :
    (∃ st, buildClosure knowledge seeds role maximumDepth = .ok st.closure
        ∧ SeedsCurrent knowledge seeds ∧ Exploring knowledge role seeds maximumDepth st
        ∧ st.queue = [])
      ∨ ((∃ e, buildClosure knowledge seeds role maximumDepth = .error e)
        ∧ ¬ (SeedsCurrent knowledge seeds ∧ WithinDepth knowledge role seeds maximumDepth)) := by
  obtain ⟨st, hseeded, hcurrent, hexploring, hremaining⟩ | ⟨⟨e, hseeded⟩, hcurrent⟩ :=
    seeded_cases knowledge role seeds maximumDepth
  · obtain ⟨st', hloop, hdone, hqueue⟩ | ⟨⟨e, hloop⟩, hwithin⟩ := explored_loop hexploring hremaining.le
    · refine .inl ⟨st', ?_, hcurrent, hdone, hqueue⟩
      simp only [buildClosure, hseeded, hloop]
      rfl
    · refine .inr ⟨⟨e, ?_⟩, fun h => hwithin h.2⟩
      simp only [buildClosure, hseeded, hloop]
      rfl
  · refine .inr ⟨⟨e, ?_⟩, fun h => hcurrent h.1⟩
    have hloop : ∀ fuel, loop (closureRound knowledge.current.byIdentity
        (stepsOf knowledge role) maximumDepth) fuel (.error e) = .error e := by
      intro fuel
      cases fuel <;> rfl
    simp only [buildClosure, hseeded, hloop]
    rfl

/-! ## Orders -/

/-- What stands before the first separator and behind it. -/
theorem separator_append_inj {sep : Char} : ∀ {a b d e : List Char}, sep ∉ a → sep ∉ b →
    a ++ sep :: d = b ++ sep :: e → a = b ∧ d = e
  | [], [], _, _, _, _, h => ⟨rfl, (List.cons.inj h).2⟩
  | [], c :: b, _, _, _, hb, h => by
    obtain ⟨heq, -⟩ := List.cons.inj h
    exact absurd (heq ▸ List.mem_cons_self) hb
  | c :: a, [], _, _, ha, _, h => by
    obtain ⟨heq, -⟩ := List.cons.inj h
    exact absurd (heq ▸ List.mem_cons_self) ha
  | c :: a, c' :: b, _, _, ha, hb, h => by
    obtain ⟨rfl, htail⟩ := List.cons.inj h
    obtain ⟨rfl, hde⟩ := separator_append_inj (List.not_mem_of_not_mem_cons ha)
      (List.not_mem_of_not_mem_cons hb) htail
    exact ⟨rfl, hde⟩

/-- The first part of a joined key. -/
theorem nulJoin_cons_inj {a b a' b' : String} {rest rest' : List String} (ha : NulFreeText a)
    (hb : NulFreeText b) (h : nulJoin (a :: a' :: rest) = nulJoin (b :: b' :: rest')) :
    a = b ∧ nulJoin (a' :: rest) = nulJoin (b' :: rest') := by
  have hlist := String.ofList_injective h
  have hcons : ∀ (x y : List Char) (l : List (List Char)),
      ['\x00'].intercalate (x :: y :: l) = x ++ '\x00' :: ['\x00'].intercalate (y :: l) := by
    intro x y l
    rw [List.intercalate_cons_cons, List.append_assoc]
    rfl
  rw [List.map_cons, List.map_cons, List.map_cons, List.map_cons, hcons, hcons] at hlist
  obtain ⟨heq, hrest⟩ := separator_append_inj ha hb hlist
  exact ⟨String.toList_inj.mp heq, congrArg String.ofList hrest⟩

theorem nulFree_relationshipText (type : RelationshipType) : NulFreeText type.text := by
  cases type <;> decide

/-- The identities of current records have no NUL. -/
theorem CurrentLink.nulFree {edge : RelationshipEdge} {source target : KnowledgeRecord}
    (h : CurrentLink knowledge edge source target) :
    NulFreeText edge.source ∧ NulFreeText edge.target :=
  ⟨h.sourceId ▸ source.frontMatter.idText, h.targetId ▸ target.frontMatter.idText⟩

/-- **The key of a current edge** determines its ends and its type. -/
theorem edgeKey_inj {edge edge' : RelationshipEdge} (h : edge ∈ currentEdges knowledge)
    (h' : edge' ∈ currentEdges knowledge) (hkey : edgeKey edge = edgeKey edge') :
    edge.source = edge'.source ∧ edge.type = edge'.type ∧ edge.target = edge'.target := by
  obtain ⟨_, _, hlink⟩ := mem_currentEdges.mp h
  obtain ⟨_, _, hlink'⟩ := mem_currentEdges.mp h'
  obtain ⟨hsource, hrest⟩ := nulJoin_cons_inj hlink.nulFree.1 hlink'.nulFree.1 hkey
  obtain ⟨htype, hrest⟩ := nulJoin_cons_inj (nulFree_relationshipText _) (nulFree_relationshipText _) hrest
  obtain ⟨htarget, -⟩ := nulJoin_cons_inj hlink.nulFree.2 hlink'.nulFree.2 hrest
  exact ⟨hsource, text_injective htype, htarget⟩

/-- **What is read of sorted entries through their keys does not depend on the
order they came in.** -/
theorem map_filter_sortOn {α β : Type} (key : α → String) {f : α → β} (p : α → Bool)
    {l l' : List α} (h : l.Perm l') (hf : ∀ a ∈ l, ∀ b ∈ l, key a = key b → f a = f b) :
    ((sortOn key l).filter p).map f = ((sortOn key l').filter p).map f := by
  -- the entries with their keys are sorted by the keys, and two with one key are one
  have hsorted : ∀ l : List α, (((sortOn key l).filter p).map fun a => (key a, f a)).Pairwise
      fun u v => codePointLe u.1 v.1 = true := by
    intro l
    refine List.pairwise_map.mpr (List.Pairwise.filter _ ?_)
    exact Comparison.pairwise_sortWith (codePoint.comap key) l
  have hpairs : ((sortOn key l).filter p).map (fun a => (key a, f a))
      = ((sortOn key l').filter p).map fun a => (key a, f a) := by
    have hperm := ((perm_sortOn key l).trans (h.trans (perm_sortOn key l').symm)).filter p
    refine List.Perm.eq_of_pairwise ?_ (hsorted l) (hsorted l') (hperm.map _)
    intro u v hu hv huv hvu
    obtain ⟨a, ha, rfl⟩ := List.mem_map.mp hu
    obtain ⟨b, hb, rfl⟩ := List.mem_map.mp hv
    have ha' := mem_sortOn.mp (List.mem_filter.mp ha).1
    have hb' := h.mem_iff.mpr (mem_sortOn.mp (List.mem_filter.mp hb).1)
    have hkey := codePointLe_antisymm huv hvu
    exact Prod.ext hkey (hf a ha' b hb' hkey)
  have hsnd := congrArg (List.map Prod.snd) hpairs
  rw [List.map_map, List.map_map] at hsnd
  exact hsnd

variable {relationships relationships' : List RelationshipEdge} {current : CurrentRecords}

/-- The components do not depend on the order of the relationships. -/
theorem get_dependencyComponents_of_perm (h : relationships'.Perm relationships) (x : String) :
    (dependencyComponents ⟨current, relationships'⟩).get x
      = (dependencyComponents ⟨current, relationships⟩).get x := by
  have hsubset : ∀ {l l' : List RelationshipEdge}, l'.Perm l → ∀ c,
      (dependencyComponents ⟨current, l'⟩).get x = some c →
      (dependencyComponents ⟨current, l⟩).get x = some c := by
    intro l l' hperm c hget
    have hspec := dependencyComponents_spec ⟨current, l⟩
    have hspec' := dependencyComponents_spec ⟨current, l'⟩
    have hmutual := AdjacencyGraph.mutual_congr (g := (dependencyAdjacency ⟨current, l⟩).graph)
      (k := (dependencyAdjacency ⟨current, l'⟩).graph) fun a b => by
        rw [edge_dependencyAdjacency, edge_dependencyAdjacency]
        exact exists_congr fun edge => and_congr_left fun _ => hperm.mem_iff.symm
    obtain ⟨hc', hx'⟩ := get_dependencyComponents.mp hget
    have hnode := mem_nodes_dependencyAdjacency.mp
      ((hspec'.mem_flatten x).mp (List.mem_flatten.mpr ⟨c, hc', hx'⟩))
    obtain ⟨d, hd, hx⟩ := List.mem_flatten.mp
      ((hspec.mem_flatten x).mpr (mem_nodes_dependencyAdjacency.mpr hnode))
    rw [← eq_of_mem_classes hspec hspec' hmutual sortOn_of_mem_map sortOn_of_mem_map hd hc' hx hx']
    exact get_dependencyComponents.mpr ⟨hd, hx⟩
  exact Option.ext fun c => ⟨hsubset h c, hsubset h.symm c⟩

/-- **The visits a record leads to do not depend on the order of the
relationships.** -/
theorem stepsOf_of_perm (h : relationships'.Perm relationships) (x : String) :
    stepsOf ⟨current, relationships'⟩ role x = stepsOf ⟨current, relationships⟩ role x := by
  have hkept := h.filter (isCurrentEdge current.byIdentity)
  have hkey : ∀ a ∈ relationships'.filter (isCurrentEdge current.byIdentity),
      ∀ b ∈ relationships'.filter (isCurrentEdge current.byIdentity), edgeKey a = edgeKey b →
      a.source = b.source ∧ a.type = b.type ∧ a.target = b.target := fun a ha b hb =>
    edgeKey_inj (show a ∈ currentEdges ⟨current, relationships'⟩ from mem_sortOn.mpr ha)
      (mem_sortOn.mpr hb)
  have hforward := map_filter_sortOn edgeKey
    (f := fun e => (e.target, s!"{e.type.text}:{e.source}->{e.target}"))
    (fun e => decide (e.source = x) && isForward e) hkept fun a ha b hb heq => by
      obtain ⟨hsource, htype, htarget⟩ := hkey a ha b hb heq
      simp only [hsource, htype, htarget]
  have hbackward := map_filter_sortOn edgeKey
    (f := fun e => (e.source, s!"incoming-{e.type.text}:{e.source}->{e.target}"))
    (fun e => decide (e.target = x) && isBackward role e) hkept fun a ha b hb heq => by
      obtain ⟨hsource, htype, htarget⟩ := hkey a ha b hb heq
      simp only [hsource, htype, htarget]
  have hcomponent : neighbours (dependencyComponents ⟨current, relationships'⟩) x
      = neighbours (dependencyComponents ⟨current, relationships⟩) x :=
    congrArg (Option.getD · []) (get_dependencyComponents_of_perm h x)
  simp only [stepsOf, currentEdges, hforward, hbackward, hcomponent]

/-- **Seeds that are current are sorted in one way.** -/
theorem sortSeeds_of_perm {seeds' : List ClosureSeed} (h : seeds'.Perm seeds)
    (hcurrent : SeedsCurrent knowledge seeds) : sortSeeds seeds' = sortSeeds seeds := by
  refine (sortOn_eq_of_perm h.symm fun a ha b hb hkey => ?_).symm
  have hfree : ∀ seed ∈ seeds, NulFreeText seed.id := by
    intro seed hseed
    obtain ⟨record, -, hid⟩ := hcurrent seed hseed
    exact hid ▸ record.frontMatter.idText
  obtain ⟨hid, hreason⟩ := nulJoin_cons_inj (hfree a ha) (hfree b hb) hkey
  have htext : ∀ s : String, nulJoin [s] = s := fun s => by
    rw [nulJoin, List.map_singleton, List.intercalate_singleton, String.ofList_toList]
  rw [htext, htext] at hreason
  cases a
  cases b
  simp only [ClosureSeed.mk.injEq]
  exact ⟨hid, hreason⟩

/-- **The Knowledge closure is exact**: it goes through when every seed is
current and no step leaves a record at the bound, its entries are the records
reached, and neither order matters. -/
theorem closureLaw (knowledge : KnowledgeGraph) (seeds : List ClosureSeed) (role : ExecutionRole)
    (maximumDepth : Nat) : ClosureLaw knowledge seeds role maximumDepth := by
  constructor
  · obtain ⟨st, hbuild, hcurrent, hexploring, hqueue⟩ | ⟨⟨e, hbuild⟩, hnot⟩ :=
      buildClosure_cases knowledge role seeds maximumDepth
    · exact iff_of_true ⟨_, hbuild⟩ ⟨hcurrent, (hexploring.finished hqueue).1⟩
    · refine iff_of_false ?_ hnot
      rintro ⟨c, hc⟩
      rw [hbuild] at hc
      cases hc
  · intro c hc
    obtain ⟨st, hbuild, -, hexploring, hqueue⟩ | ⟨⟨e, hbuild⟩, -⟩ :=
      buildClosure_cases knowledge role seeds maximumDepth
    · obtain rfl := Except.ok.inj (hbuild.symm.trans hc)
      exact ⟨(hexploring.finished hqueue).2, fun x entry hget => hexploring.charted.record hget⟩
    · rw [hbuild] at hc
      cases hc
  · have hwithin : ∀ {k k' : KnowledgeGraph} {l l' : List ClosureSeed}, k'.current = k.current →
        k'.relationships.Perm k.relationships → l'.Perm l → ∀ c,
        buildClosure k l role maximumDepth = .ok c →
        buildClosure k' l' role maximumDepth = .ok c := by
      rintro ⟨current, edges⟩ ⟨current', edges'⟩ l l' hsame hedges hseeds c hc
      obtain rfl : current' = current := hsame
      have hcurrent : SeedsCurrent ⟨current', edges⟩ l := by
        obtain ⟨-, -, hcurrent, -⟩ | ⟨⟨e, hbuild⟩, -⟩ :=
          buildClosure_cases ⟨current', edges⟩ role l maximumDepth
        · exact hcurrent
        · rw [hbuild] at hc
          cases hc
      have hsteps : stepsOf ⟨current', edges'⟩ role = stepsOf ⟨current', edges⟩ role :=
        funext fun x => stepsOf_of_perm hedges x
      rw [← hc]
      simp only [buildClosure, seeded, hsteps, sortSeeds_of_perm hseeds hcurrent]
    intro knowledge' seeds' hcurrent hedges hseeds c
    exact ⟨hwithin hcurrent.symm hedges.symm hseeds.symm c, hwithin hcurrent hedges hseeds c⟩

end

/-- One of the two identities. -/
theorem id_of_refiningPair {x : String}
    (h : ∃ record ∈ refiningPair.current.records, record.frontMatter.id = x) :
    x = "behavior.left" ∨ x = "behavior.right" := by
  obtain ⟨record, hrecord, rfl⟩ := h
  obtain rfl | hrecord := List.mem_cons.mp hrecord
  · exact .inl rfl
  · obtain rfl := List.mem_singleton.mp hrecord
    exact .inr rfl

/-- **A step back to the seed refuses the closure at the bound**, though all is
reached within it. -/
theorem not_boundedLaw_refiningPair :
    ¬ BoundedLaw refiningPair [⟨"behavior.left", "work-boundary"⟩] .builder 1 := by
  intro hlaw
  have hrefused : (buildClosure refiningPair [⟨"behavior.left", "work-boundary"⟩] .builder
      1).isOk = false := by decide +kernel
  have hlink : CurrentLink refiningPair (firstEdge .refines "behavior.left" "behavior.right") _ _ :=
    ⟨List.mem_cons_self, List.mem_cons_self, List.mem_cons_of_mem _ List.mem_cons_self, rfl, rfl,
      rfl, rfl⟩
  have hstep : RuleStep refiningPair .builder "behavior.left" "behavior.right" :=
    .forward hlink rfl (.inl rfl)
  have hseed : ReachesIn refiningPair .builder [⟨"behavior.left", "work-boundary"⟩] 0
    "behavior.left" := ⟨_, List.mem_cons_self, rfl⟩
  have hcurrent : SeedsCurrent refiningPair [⟨"behavior.left", "work-boundary"⟩] := by
    intro seed hseed
    rw [List.mem_singleton.mp hseed]
    exact ⟨_, List.mem_cons_self, rfl⟩
  have hbounded : ∀ m x, ReachesIn refiningPair .builder [⟨"behavior.left", "work-boundary"⟩] m x →
      ∃ n ≤ 1, ReachesIn refiningPair .builder [⟨"behavior.left", "work-boundary"⟩] n x := by
    intro m x hreach
    have hid : x = "behavior.left" ∨ x = "behavior.right" := by
      cases m with
      | zero =>
        obtain ⟨seed, hmem, rfl⟩ := hreach
        exact .inl (congrArg ClosureSeed.id (List.mem_singleton.mp hmem))
      | succ m =>
        obtain ⟨_, -, hlast⟩ := hreach
        exact id_of_refiningPair hlast.current
    obtain rfl | rfl := hid
    · exact ⟨0, Nat.zero_le 1, hseed⟩
    · exact ⟨1, le_rfl, "behavior.left", hseed, hstep⟩
  obtain ⟨c, hc⟩ := hlaw.mpr ⟨hcurrent, hbounded⟩
  rw [hc] at hrefused
  cases hrefused

end Knowledge
