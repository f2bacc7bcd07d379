import Lifecycle.IntegrationMerge
import Lifecycle.PlainPayloads
import Mathlib.Data.List.Dedup
import Mathlib.Data.List.Induction

/-!
# The sections of an integration merge output

What the loops over a merge output come to: a count text is the text of its
number, the map of conflicts has one entry for each conflict inserted, the
staged section is read up to its boundary, and the messages section is read
exactly when it is written from messages within their bounds.
-/

open Fallible Json ControlModel

namespace Integration

/-! ## Counts -/

theorem toList_toString_nat (n : Nat) : (toString n).toList = Nat.toDigits 10 n := Nat.toList_repr

theorem number_toString (n : Nat) : number (toString n) = n := by
  rw [number, toList_toString_nat, Nat.ofDigitChars_ten_toDigits]

theorem digitChar_of_isDigit {c : Char} (h : StrictJson.isDigit c = true) :
    c.toNat - '0'.toNat < 10 ∧ (c.toNat - '0'.toNat).digitChar = c := by
  have hzero : '0'.toNat = 48 := rfl
  simp only [StrictJson.isDigit, Bool.and_eq_true, decide_eq_true_eq] at h
  have hlt : c.toNat - '0'.toNat < 10 := by omega
  have hdigits : ∀ d < 10, d.digitChar = Char.ofNat (48 + d) := by decide
  refine ⟨hlt, ?_⟩
  rw [hdigits _ hlt, hzero, Nat.add_sub_cancel' h.1, Char.ofNat_toNat]

/-- **Digits behind one that is not 0 are the digits of their number.** -/
theorem toDigits_ofDigitChars {c : Char} {cs : List Char} (hc : StrictJson.isDigit c = true)
    (hzero : c ≠ '0') (hcs : ∀ d ∈ cs, StrictJson.isDigit d = true) :
    0 < Nat.ofDigitChars 10 (c :: cs) 0
      ∧ Nat.toDigits 10 (Nat.ofDigitChars 10 (c :: cs) 0) = c :: cs := by
  obtain ⟨hlt, hchar⟩ := digitChar_of_isDigit hc
  have hfirst : Nat.ofDigitChars 10 [c] 0 = c.toNat - '0'.toNat := by
    rw [Nat.ofDigitChars_cons, Nat.ofDigitChars_nil, Nat.mul_zero, Nat.zero_add]
  induction cs using List.reverseRecOn with
  | nil =>
    rw [hfirst, Nat.toDigits_of_lt_base hlt, hchar]
    refine ⟨Nat.pos_of_ne_zero fun h => hzero ?_, rfl⟩
    rw [← hchar, h]
    rfl
  | append_singleton cs d ih =>
    obtain ⟨hpos, hdigits⟩ := ih fun e he => hcs e (List.mem_append_left _ he)
    obtain ⟨hdlt, hdchar⟩ := digitChar_of_isDigit (hcs d (by simp))
    have hvalue : Nat.ofDigitChars 10 (c :: (cs ++ [d])) 0
        = 10 * Nat.ofDigitChars 10 (c :: cs) 0 + (d.toNat - '0'.toNat) := by
      rw [← List.cons_append, Nat.ofDigitChars_append, Nat.ofDigitChars_cons, Nat.ofDigitChars_nil]
    rw [hvalue]
    refine ⟨by omega, ?_⟩
    rw [← Nat.toDigits_append_toDigits (by omega) hpos hdlt, hdigits, Nat.toDigits_of_lt_base hdlt,
      hdchar, List.cons_append]

/-- **A count text is the text of its number.** -/
theorem toString_number {value : String} (h : isCountText value = true) :
    0 < number value ∧ toString (number value) = value := by
  unfold isCountText at h
  split at h
  · cases h
  · next c cs hvalue =>
    simp only [Bool.and_eq_true, decide_eq_true_eq, List.all_eq_true] at h
    obtain ⟨⟨⟨hc, hzero⟩, hcs⟩, -⟩ := h
    obtain ⟨hpos, hdigits⟩ := toDigits_ofDigitChars hc hzero hcs
    rw [number, hvalue]
    refine ⟨hpos, String.toList_inj.mp ?_⟩
    rw [toList_toString_nat, hdigits, hvalue]

theorem isCountText_toString {n : Nat} (hpos : 0 < n) (hle : n ≤ maximumConflictPaths) :
    isCountText (toString n) = true := by
  have hhead := StrictJson.head_toDigits hpos
  have hdigits : ∀ c ∈ Nat.toDigits 10 n, StrictJson.isDigit c = true :=
    fun c => StrictJson.isDigit_of_mem_toDigits
  have hlength : (Nat.toDigits 10 n).length ≤ 7 := by
    rw [Nat.length_toDigits_le_iff (by decide) (by decide)]
    exact Nat.lt_of_le_of_lt hle (by decide)
  rw [isCountText, toList_toString_nat]
  cases hn : Nat.toDigits 10 n with
  | nil => exact absurd hn Nat.toDigits_ne_nil
  | cons c cs =>
    rw [hn] at hhead hdigits hlength
    simp only [Bool.and_eq_true, decide_eq_true_eq, List.all_eq_true]
    refine ⟨⟨⟨hdigits c List.mem_cons_self, fun h => hhead (congrArg some h)⟩, ?_⟩, ?_⟩
    · exact fun d hd => hdigits d (List.mem_cons_of_mem c hd)
    · exact Nat.le_of_succ_le_succ hlength

/-! ## Sets and maps of facts -/

theorem mem_add {values : List String} {value v : String} :
    v ∈ add values value ↔ v ∈ values ∨ v = value := by
  unfold add
  split
  · next h => exact ⟨.inl, fun hv => hv.elim id fun hv => hv ▸ h⟩
  · rw [List.mem_append, List.mem_singleton]

theorem nodup_add {values : List String} (h : values.Nodup) (value : String) :
    (add values value).Nodup := by
  unfold add
  split
  · exact h
  · next hvalue =>
    refine List.nodup_append.mpr ⟨h, List.nodup_singleton value, ?_⟩
    intro a ha b hb hab
    exact hvalue (List.mem_singleton.mp hb ▸ hab ▸ ha)

/-- Lists without repetitions that have the entries of another are as long as
that one without its repetitions. -/
theorem length_eq_of_mem_iff {α : Type} [DecidableEq α] {xs ys : List α} (hxs : xs.Nodup)
    (h : ∀ x, x ∈ xs ↔ x ∈ ys) : xs.length = ys.dedup.length := by
  refine List.Perm.length_eq ((List.perm_ext_iff_of_nodup hxs (List.nodup_dedup ys)).mpr ?_)
  intro x
  rw [h, List.mem_dedup]

theorem length_dedup_le_append {α : Type} [DecidableEq α] (xs ys : List α) :
    xs.dedup.length ≤ (xs ++ ys).dedup.length := by
  refine (List.subperm_of_subset (List.nodup_dedup xs) fun x hx => ?_).length_le
  exact List.mem_dedup.mpr (List.mem_append_left ys (List.mem_dedup.mp hx))

theorem kind_text_inj (k k' : ConflictKind) (h : k.text = k'.text) : k = k' := by
  cases k <;> cases k' <;> first | rfl | exact absurd h (by decide)

theorem plain_key (c : IntegrationConflict) :
    (Json.array [.string c.path, .string c.kind.text]).Plain
      ∧ (Json.array [.string c.path, .string c.kind.text]).DistinctNames :=
  ⟨⟨trivial, trivial, trivial⟩, ⟨trivial, trivial, trivial⟩⟩

/-- Every conflict has a key. -/
theorem exists_conflictKey (c : IntegrationConflict) : ∃ key, conflictKey c = .ok key := by
  obtain ⟨text, htext, -⟩ := exists_text_of_plain (plain_key c).1
  exact ⟨text, htext⟩

/-- **Keys tell conflicts apart.** -/
theorem conflictKey_inj {c c' : IntegrationConflict} {key : List UInt8}
    (h : conflictKey c = .ok key) (h' : conflictKey c' = .ok key) : c = c' := by
  have hjson := canonicalJson_injective (plain_key c).1 (plain_key c).2 (plain_key c').1
    (plain_key c').2 h h'
  simp only [Json.array.injEq, List.cons.injEq, Json.string.injEq, and_true] at hjson
  obtain ⟨path, kind⟩ := c
  obtain ⟨path', kind'⟩ := c'
  obtain rfl : path = path' := hjson.1
  obtain rfl := kind_text_inj kind kind' hjson.2
  rfl

/-- **The facts are those of some conflicts.** -/
structure MergeFacts.Holds (facts : MergeFacts) (cs : List IntegrationConflict) : Prop where
  keyed : ∀ e ∈ facts.conflicts.entries, conflictKey e.2 = .ok e.1
  conflicts : ∀ c, c ∈ facts.conflicts.values ↔ c ∈ cs
  explained : ∀ p, p ∈ facts.explainedPaths ↔ ∃ c ∈ cs, c.path = p

section Facts

variable {facts : MergeFacts} {cs : List IntegrationConflict}

theorem holds_nil : MergeFacts.Holds {} [] := by
  constructor
  · intro e he
    exact absurd he List.not_mem_nil
  · intro c
    rfl
  · intro p
    simp

theorem MergeFacts.Holds.nodup_values (h : facts.Holds cs) : facts.conflicts.values.Nodup := by
  have hkeys : facts.conflicts.entries.Pairwise fun e f => e.1 ≠ f.1 :=
    List.pairwise_map.mp facts.conflicts.nodupKeys
  refine List.pairwise_map.mpr (hkeys.imp_of_mem ?_)
  intro e f he hf hne heq
  have hkey := h.keyed e he
  rw [heq, h.keyed f hf] at hkey
  exact hne (Except.ok.inj hkey).symm

/-- The map has one entry for each conflict. -/
theorem MergeFacts.Holds.length_entries (h : facts.Holds cs) :
    facts.conflicts.entries.length = cs.dedup.length := by
  rw [← length_eq_of_mem_iff h.nodup_values h.conflicts, OrderedMap.values, List.length_map]

/-- **What inserting one conflict does.** -/
theorem holds_insert (h : facts.Holds cs) (kind : ConflictKind) (conflictPath : String) :
    ∃ facts', facts'.Holds (cs ++ [⟨conflictPath, kind⟩]) ∧ ∀ t,
      insert kind facts conflictPath = .ok t
        ↔ t = facts' ∧ (cs ++ [(⟨conflictPath, kind⟩ : IntegrationConflict)]).dedup.length
          ≤ maximumConflictPaths := by
  obtain ⟨key, hkey⟩ := exists_conflictKey ⟨conflictPath, kind⟩
  have hset : MergeFacts.Holds ⟨facts.conflicts.set key ⟨conflictPath, kind⟩,
      add facts.explainedPaths conflictPath⟩ (cs ++ [⟨conflictPath, kind⟩]) := by
    constructor
    · intro e he
      rcases OrderedMap.mem_entries_set.mp he with rfl | ⟨-, he⟩
      · exact hkey
      · exact h.keyed e he
    · intro c
      rw [List.mem_append, List.mem_singleton, ← h.conflicts]
      simp only [OrderedMap.values, List.mem_map]
      constructor
      · rintro ⟨e, he, rfl⟩
        rcases OrderedMap.mem_entries_set.mp he with rfl | ⟨-, he⟩
        · exact .inr rfl
        · exact .inl ⟨e, he, rfl⟩
      · rintro (⟨e, he, rfl⟩ | rfl)
        · by_cases hekey : e.1 = key
          · -- The entry under the key is replaced by the conflict it already is.
            have hsame := conflictKey_inj (h.keyed e he) (hekey ▸ hkey)
            exact ⟨(key, ⟨conflictPath, kind⟩), OrderedMap.mem_entries_set.mpr (.inl rfl), hsame.symm⟩
          · exact ⟨e, OrderedMap.mem_entries_set.mpr (.inr ⟨hekey, he⟩), rfl⟩
        · exact ⟨(key, ⟨conflictPath, kind⟩), OrderedMap.mem_entries_set.mpr (.inl rfl), rfl⟩
    · intro p
      rw [mem_add, h.explained]
      constructor
      · rintro (⟨c, hc, rfl⟩ | rfl)
        · exact ⟨c, List.mem_append_left _ hc, rfl⟩
        · exact ⟨⟨p, kind⟩, by simp, rfl⟩
      · rintro ⟨c, hc, rfl⟩
        rcases List.mem_append.mp hc with hc | hc
        · exact .inl ⟨c, hc, rfl⟩
        · exact .inr (by rw [List.mem_singleton.mp hc])
  refine ⟨_, hset, fun t => ?_⟩
  simp only [insert, hkey, ok_bind, bind_eq_ok, failIf_eq_ok, exists_unit, pure_eq_ok, Nat.not_lt,
    hset.length_entries]
  exact ⟨fun ht => ⟨ht.2.symm, ht.1⟩, fun ht => ⟨ht.2, ht.1.symm⟩⟩

/-- One conflict inserted. -/
def insertConflict (facts : MergeFacts) (c : IntegrationConflict) :
    Except FoundationError MergeFacts :=
  insert c.kind facts c.path

/-- **What inserting conflicts one after another does**: it ends with all of
them, and stops exactly where there are more than the bound. -/
theorem holds_replay {facts : MergeFacts} {cs : List IntegrationConflict} (h : facts.Holds cs)
    (hcs : cs.dedup.length ≤ maximumConflictPaths) (more : List IntegrationConflict) :
    (∀ t, replay insertConflict facts more = .ok t →
        t.Holds (cs ++ more) ∧ (cs ++ more).dedup.length ≤ maximumConflictPaths)
      ∧ ((cs ++ more).dedup.length ≤ maximumConflictPaths →
        ∃ t, replay insertConflict facts more = .ok t) := by
  induction more generalizing facts cs with
  | nil =>
    rw [List.append_nil]
    refine ⟨fun t ht => ?_, fun _ => ⟨facts, replay_nil⟩⟩
    rw [replay_nil, Except.ok.injEq] at ht
    exact ht ▸ ⟨h, hcs⟩
  | cons c more ih =>
    obtain ⟨facts', hfacts', hinsert⟩ := holds_insert h c.kind c.path
    have happend : cs ++ c :: more = cs ++ [c] ++ more := by simp
    rw [happend]
    constructor
    · intro t ht
      rw [replay_cons, bind_eq_ok] at ht
      obtain ⟨u, hu, ht⟩ := ht
      obtain ⟨rfl, hbound⟩ := (hinsert u).mp hu
      exact (ih hfacts' hbound).1 t ht
    · intro hle
      have hbound : (cs ++ [c]).dedup.length ≤ maximumConflictPaths :=
        (length_dedup_le_append _ _).trans hle
      obtain ⟨t, ht⟩ := (ih hfacts' hbound).2 hle
      exact ⟨t, bind_eq_ok.mpr ⟨facts', (hinsert facts').mpr ⟨rfl, hbound⟩, ht⟩⟩

/-- The staged paths no message explains, as conflicts. -/
def unexplained (explained : List IntegrationConflict) (staged : List String) :
    List IntegrationConflict :=
  (staged.filter fun stagedPath => decide (∀ c ∈ explained, c.path ≠ stagedPath)).map
    fun stagedPath => ⟨stagedPath, .unsupported⟩

/-- Inserting what is unexplained does not make another staged path explained. -/
theorem replay_insertUnexplained {facts : MergeFacts} {cs : List IntegrationConflict}
    (h : facts.Holds cs) {staged : List String} (hstaged : staged.Nodup) :
    replay insertUnexplained facts staged = replay insertConflict facts (unexplained cs staged) := by
  induction staged generalizing facts cs with
  | nil => rfl
  | cons p staged ih =>
    obtain ⟨hp, hstaged⟩ := List.nodup_cons.mp hstaged
    by_cases hexplained : ∀ c ∈ cs, c.path ≠ p
    · have hmem : p ∉ facts.explainedPaths := by
        intro hmem
        obtain ⟨c, hc, hcp⟩ := (h.explained p).mp hmem
        exact hexplained c hc hcp
      have hrest : unexplained (cs ++ [⟨p, .unsupported⟩]) staged = unexplained cs staged := by
        unfold unexplained
        refine congrArg _ (List.filter_congr fun q hq => decide_eq_decide.mpr ?_)
        have hqp : p ≠ q := fun heq => hp (heq ▸ hq)
        rw [List.forall_mem_append, List.forall_mem_singleton]
        exact and_iff_left hqp
      have hcons : unexplained cs (p :: staged) = ⟨p, .unsupported⟩ :: unexplained cs staged := by
        rw [unexplained, List.filter_cons_of_pos (by simpa using hexplained), List.map_cons]
        rfl
      obtain ⟨facts', hfacts', hinsert⟩ := holds_insert h .unsupported p
      rw [hcons, replay_cons, replay_cons, insertUnexplained, if_neg hmem]
      show _ = insert .unsupported facts p >>= _
      cases hstep : insert .unsupported facts p with
      | error e => rfl
      | ok t =>
        obtain ⟨rfl, -⟩ := (hinsert t).mp hstep
        rw [ok_bind, ok_bind, ih hfacts' hstaged, hrest]
    · have hmem : p ∈ facts.explainedPaths := by
        rw [h.explained]
        simpa using hexplained
      have hcons : unexplained cs (p :: staged) = unexplained cs staged := by
        rw [unexplained, List.filter_cons_of_neg (by simpa using hexplained)]
        rfl
      rw [hcons, replay_cons, insertUnexplained, if_pos hmem]
      exact ih h hstaged

end Facts

/-! ## Messages -/

/-- **A message of a merge output.** -/
structure MergeMessage where
  paths : List String
  type : String
  text : String

namespace MergeMessage

/-- The fields of a message. -/
def fields (m : MergeMessage) : List String := toString m.paths.length :: (m.paths ++ [m.type, m.text])

/-- The conflicts a message reports: none where Git only says what it merged. -/
def conflicts (m : MergeMessage) : List IntegrationConflict :=
  if m.type = "Auto-merging" then [] else m.paths.map fun p => ⟨p, conflictKind m.type⟩

/-- The types a message may have. -/
def IsMergeType (type : String) : Prop :=
  type = "Auto-merging" ∨ conflictType type = true ∧ type.toList.getLast? = some ')'

/-- **The messages that are read.** -/
structure Admitted (m : MergeMessage) : Prop where
  pos : m.paths ≠ []
  count : m.paths.length ≤ maximumConflictPaths
  paths : ∀ p ∈ m.paths, isConflictPath p = true
  type : IsMergeType m.type

end MergeMessage

theorem mapM_path_eq_ok {xs ys : List String} :
    xs.mapM path = .ok ys ↔ ys = xs ∧ ∀ x ∈ xs, isConflictPath x = true := by
  have hpath : ∀ x y, path x = .ok y ↔ y = x ∧ isConflictPath x = true := by
    intro x y
    simp only [path, bind_eq_ok, failIf_eq_ok, exists_unit, pure_eq_ok, Bool.not_eq_false]
    exact ⟨fun h => ⟨h.2.symm, h.1⟩, fun h => ⟨h.2, h.1.symm⟩⟩
  simp only [mapM_eq_ok_iff, hpath]
  constructor
  · intro h
    induction h with
    | nil => exact ⟨rfl, fun x hx => absurd hx List.not_mem_nil⟩
    | cons hy _ ih =>
      obtain ⟨rfl, hvalid⟩ := hy
      obtain ⟨rfl, hall⟩ := ih
      exact ⟨rfl, List.forall_mem_cons.mpr ⟨hvalid, hall⟩⟩
  · rintro ⟨rfl, h⟩
    exact List.forall₂_same.mpr fun x hx => ⟨rfl, h x hx⟩

/-- **What a message adds is its conflicts.** -/
theorem explain_eq_ok {m : MergeMessage} {facts t : MergeFacts} :
    explain m.paths m.type facts = .ok t
      ↔ MergeMessage.IsMergeType m.type ∧ replay insertConflict facts m.conflicts = .ok t := by
  unfold explain MergeMessage.conflicts MergeMessage.IsMergeType
  by_cases hauto : m.type = "Auto-merging"
  · rw [if_pos hauto, if_pos hauto, replay_nil, pure_eq_ok, Except.ok.injEq]
    exact ⟨fun h => ⟨.inl hauto, h⟩, fun h => h.2⟩
  · have hreplay : replay (insert (conflictKind m.type)) facts m.paths
        = replay insertConflict facts (m.paths.map fun p => ⟨p, conflictKind m.type⟩) := by
      rw [replay, replay, List.foldlM_map]
      rfl
    rw [if_neg hauto, if_neg hauto, ← hreplay]
    simp only [bind_eq_ok, failIf_eq_ok, exists_unit, not_or, Bool.not_eq_false, not_not]
    exact and_congr_left fun _ => (or_iff_right hauto).symm

theorem exists_two_of_le {α : Type} {xs : List α} (h : 2 ≤ xs.length) :
    ∃ a b rest, xs = a :: b :: rest := by
  cases xs with
  | nil => cases h
  | cons a xs =>
    cases xs with
    | nil => exact absurd h (Nat.not_succ_le_self 1)
    | cons b rest => exact ⟨a, b, rest, rfl⟩

/-- **One message is read off the fields it is written in.** -/
theorem readMessages_cons {fuel : Nat} {countText : String} {fields : List String}
    {facts t : MergeFacts} :
    readMessages (fuel + 1) (countText :: fields) facts = .ok t
      ↔ ∃ m : MergeMessage, ∃ rest facts', countText :: fields = m.fields ++ rest ∧ m.Admitted
        ∧ replay insertConflict facts m.conflicts = .ok facts'
        ∧ readMessages fuel rest facts' = .ok t := by
  simp only [readMessages, bind_eq_ok, failIf_eq_ok, exists_unit, not_or, Nat.not_lt,
    Bool.not_eq_false, mapM_path_eq_ok]
  constructor
  · rintro ⟨hcount, ⟨hmax, hlength⟩, paths, ⟨rfl, hpaths⟩, facts', hexplain, hrest⟩
    obtain ⟨hpos, htext⟩ := toString_number hcount
    -- Behind the paths stand the type and the text of the message.
    obtain ⟨type, text, hdrop⟩ : ∃ type text,
        fields.drop (number countText) = type :: text :: fields.drop (number countText + 2) := by
      have htwo : 2 ≤ (fields.drop (number countText)).length := by
        rw [List.length_drop]
        omega
      obtain ⟨type, text, rest, htail⟩ := exists_two_of_le htwo
      refine ⟨type, text, ?_⟩
      rw [← List.drop_drop, htail]
      rfl
    have htake : (fields.take (number countText)).length = number countText :=
      List.length_take_of_le (by omega)
    have hsplit : fields.take (number countText) ++ type :: text :: fields.drop (number countText + 2)
        = fields := by
      rw [← hdrop, List.take_append_drop]
    rw [hdrop, List.headD_cons] at hexplain
    refine ⟨⟨fields.take (number countText), type, text⟩, _, facts', ?_, ?_, ?_, hrest⟩
    · rw [MergeMessage.fields, htake, htext, List.cons_append, List.append_assoc]
      exact congrArg _ hsplit.symm
    · refine ⟨fun hnil => ?_, htake.trans_le hmax, hpaths, ?_⟩
      · simp only at hnil
        rw [hnil, List.length_nil] at htake
        omega
      · exact (explain_eq_ok (m := ⟨_, type, text⟩).mp hexplain).1
    · exact (explain_eq_ok (m := ⟨_, type, text⟩).mp hexplain).2
  · rintro ⟨m, rest, facts', hfields, hm, hconflicts, hrest⟩
    rw [MergeMessage.fields, List.cons_append, List.cons.injEq] at hfields
    obtain ⟨rfl, rfl⟩ := hfields
    have hpos : 0 < m.paths.length := List.length_pos_iff.mpr hm.pos
    have hdrop : (m.paths ++ [m.type, m.text] ++ rest).drop m.paths.length
        = m.type :: m.text :: rest := by
      rw [List.append_assoc, List.drop_left]
      rfl
    rw [number_toString]
    refine ⟨isCountText_toString hpos hm.count, ⟨hm.count, ?_⟩, m.paths, ⟨?_, ?_⟩, facts', ?_, ?_⟩
    · simp
    · rw [List.append_assoc, List.take_left]
    · rw [List.append_assoc, List.take_left]
      exact hm.paths
    · rw [hdrop]
      exact explain_eq_ok.mpr ⟨hm.type, hconflicts⟩
    · rw [← List.drop_drop, hdrop]
      exact hrest

theorem fields_ne_nil {ms : List MergeMessage} (h : ms.flatMap MergeMessage.fields = []) :
    ms = [] := by
  cases ms with
  | nil => rfl
  | cons m ms => exact absurd h (by simp [MergeMessage.fields])

/-- **The messages section is read as the messages it is written from.** -/
theorem readMessages_eq_ok {fuel : Nat} {fields : List String} {facts t : MergeFacts}
    (hfuel : fields.length ≤ fuel) :
    readMessages fuel fields facts = .ok t
      ↔ ∃ ms : List MergeMessage, fields = ms.flatMap MergeMessage.fields
        ∧ (∀ m ∈ ms, m.Admitted)
        ∧ replay insertConflict facts (ms.flatMap MergeMessage.conflicts) = .ok t := by
  induction fuel generalizing fields facts with
  | zero =>
    obtain rfl := List.length_eq_zero_iff.mp (Nat.le_zero.mp hfuel)
    constructor
    · intro h
      exact ⟨[], rfl, fun m hm => absurd hm List.not_mem_nil, h⟩
    · rintro ⟨ms, hfields, -, h⟩
      obtain rfl := fields_ne_nil hfields.symm
      exact h
  | succ fuel ih =>
    cases fields with
    | nil =>
      constructor
      · intro h
        exact ⟨[], rfl, fun m hm => absurd hm List.not_mem_nil, h⟩
      · rintro ⟨ms, hfields, -, h⟩
        obtain rfl := fields_ne_nil hfields.symm
        exact h
    | cons countText fields =>
      rw [readMessages_cons]
      -- A message takes at least one field, so the fuel left is enough for the rest.
      have hrest : ∀ {m : MergeMessage} {rest : List String},
          countText :: fields = m.fields ++ rest → rest.length ≤ fuel := by
        intro m rest h
        have hlength := congrArg List.length h
        simp only [MergeMessage.fields, List.length_cons, List.length_append] at hlength hfuel
        omega
      constructor
      · rintro ⟨m, rest, facts', hfields, hm, hconflicts, hread⟩
        obtain ⟨ms, rfl, hms, hreplay⟩ := (ih (hrest hfields)).mp hread
        refine ⟨m :: ms, by rw [List.flatMap_cons, hfields], List.forall_mem_cons.mpr ⟨hm, hms⟩, ?_⟩
        rw [List.flatMap_cons, replay_append_eq_ok]
        exact ⟨facts', hconflicts, hreplay⟩
      · rintro ⟨ms, hfields, hms, hreplay⟩
        cases ms with
        | nil => exact absurd hfields (by simp)
        | cons m ms =>
          rw [List.flatMap_cons] at hfields hreplay
          obtain ⟨hm, hms⟩ := List.forall_mem_cons.mp hms
          obtain ⟨facts', hconflicts, hreplay⟩ := replay_append_eq_ok.mp hreplay
          exact ⟨m, _, facts', hfields, hm, hconflicts, (ih (hrest hfields)).mpr ⟨ms, rfl, hms, hreplay⟩⟩

/-! ## Staged paths -/

theorem isConflictPath_ne_empty {value : String} (h : isConflictPath value = true) : value ≠ "" := by
  rintro rfl
  exact absurd h (by decide +kernel)

theorem nodup_foldl_add {staged : List String} (h : staged.Nodup) (paths : List String) :
    (paths.foldl add staged).Nodup := by
  induction paths generalizing staged with
  | nil => exact h
  | cons p paths ih => exact ih (nodup_add h p)

theorem mem_foldl_add {staged paths : List String} {v : String} :
    v ∈ paths.foldl add staged ↔ v ∈ staged ∨ v ∈ paths := by
  induction paths generalizing staged with
  | nil => simp
  | cons p paths ih => rw [List.foldl_cons, ih, mem_add, List.mem_cons, or_assoc]

theorem length_le_foldl_add (staged paths : List String) :
    staged.length ≤ (paths.foldl add staged).length := by
  induction paths generalizing staged with
  | nil => exact Nat.le_refl _
  | cons p paths ih =>
    refine Nat.le_trans ?_ (ih (add staged p))
    unfold add
    split
    · exact Nat.le_refl _
    · rw [List.length_append]
      exact Nat.le_add_right _ _

/-- **The staged section is read up to its boundary or the end.** -/
theorem readStaged_eq_ok {fields staged rest t : List String}
    (hstaged : staged.length ≤ maximumConflictPaths) :
    readStaged fields staged = .ok (t, rest)
      ↔ ∃ paths, fields = paths ++ rest ∧ (∀ b ∈ rest.head?, b = "")
        ∧ (∀ p ∈ paths, isConflictPath p = true) ∧ t = paths.foldl add staged
        ∧ t.length ≤ maximumConflictPaths := by
  induction fields generalizing staged with
  | nil =>
    rw [readStaged, pure_eq_ok, Prod.mk.injEq]
    constructor
    · rintro ⟨rfl, rfl⟩
      exact ⟨[], rfl, by simp, by simp, rfl, hstaged⟩
    · rintro ⟨paths, hfields, -, -, rfl, -⟩
      obtain ⟨rfl, rfl⟩ := List.append_eq_nil_iff.mp hfields.symm
      exact ⟨rfl, rfl⟩
  | cons field fields ih =>
    unfold readStaged
    by_cases hfield : field = ""
    · rw [if_pos hfield, pure_eq_ok, Prod.mk.injEq]
      constructor
      · rintro ⟨rfl, rfl⟩
        exact ⟨[], rfl, by simpa using hfield, by simp, rfl, hstaged⟩
      · rintro ⟨paths, hfields, -, hpaths, rfl, -⟩
        cases paths with
        | nil => exact ⟨rfl, hfields⟩
        | cons p paths =>
          obtain ⟨rfl, -⟩ := List.cons.inj hfields
          exact absurd hfield (isConflictPath_ne_empty (hpaths _ List.mem_cons_self))
    · rw [if_neg hfield]
      simp only [path, bind_eq_ok, failIf_eq_ok, exists_unit, pure_eq_ok, Bool.not_eq_false,
        Nat.not_lt]
      constructor
      · rintro ⟨_, ⟨hvalid, rfl⟩, hbound, h⟩
        obtain ⟨paths, rfl, hrest, hpaths, ht, hlength⟩ := (ih hbound).mp h
        exact ⟨field :: paths, rfl, hrest, List.forall_mem_cons.mpr ⟨hvalid, hpaths⟩, ht, hlength⟩
      · rintro ⟨paths, hfields, hrest, hpaths, ht, hlength⟩
        cases paths with
        | nil =>
          obtain rfl : field :: fields = rest := hfields
          exact absurd (hrest field rfl) hfield
        | cons p paths =>
          rw [List.cons_append, List.cons.injEq] at hfields
          obtain ⟨rfl, hfields⟩ := hfields
          obtain ⟨hvalid, hpaths⟩ := List.forall_mem_cons.mp hpaths
          have hbound : (add staged field).length ≤ maximumConflictPaths := by
            refine Nat.le_trans (length_le_foldl_add _ paths) ?_
            rw [← List.foldl_cons, ← ht]
            exact hlength
          exact ⟨field, ⟨hvalid, rfl⟩, hbound,
            (ih hbound).mpr ⟨paths, hfields, hrest, hpaths, ht, hlength⟩⟩

end Integration
