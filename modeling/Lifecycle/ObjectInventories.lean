import Lifecycle.TreeListings

/-!
# Inventories of objects

What `cat-file --batch-check` answers for some identities of a store, one line
for each with its type and its size, and what the inspection reads from it: it
succeeds only where every identity is an object of the type its trees gave it
(`objectFacts_eq_ok`). So what the walk took for a tree is one.
-/

open Fallible Json ControlModel Knowledge SortedBy Carrier Segments

namespace ObjectClosure

variable {objectFormat : GitObjectFormat} {store : ObjectStore}

/-! ## Answers -/

/-- What stands behind an identity in the answer for it. -/
def answerTail : Option StoredObject → List Char
  | some o => ' ' :: o.typeText.toList ++ ' ' :: Nat.toDigits 10 o.byteLength
  | none => " missing".toList

/-- The line that answers for an identity. -/
def objectAnswer (store : ObjectStore) (id : String) : List Char := id.toList ++ answerTail (store id)

/-- **What Git answers** for some identities. -/
def objectAnswers (store : ObjectStore) (ids : List String) : String :=
  String.ofList (terminated '\n' (ids.map (objectAnswer store)))

/-- **Git tells what is in the store**: a tree is listed by its entries, and
every question about identities of the repository is answered, where the
command returns all it has to say. -/
structure Tells (git : ClosureGit) (store : ObjectStore) : Prop where
  trees : ∀ id n es result, store id = some (.tree n es) → git.lsTree id = .ok result →
    CommandResult.Complete result → result.stdout = listing es
  objects : ∀ objectFormat ids maximum result, git.objectFormat = .ok objectFormat →
    (∀ id ∈ ids, objectIdPattern objectFormat id = true) →
    git.batchCheck (sizeRequest ids) maximum = .ok result → CommandResult.Complete result →
    result.stdout = objectAnswers store ids

/-- **The types the inspection admits** are those with their name in the answer. -/
theorem find?_typeText {o : StoredObject} {rest : List Char} {type : ObjectType}
    (h : [ObjectType.blob, .tree].find? (fun t =>
      (spaced t).isPrefixOf (' ' :: o.typeText.toList ++ ' ' :: rest)) = some type) :
    type.text = o.typeText
      ∧ (' ' :: o.typeText.toList ++ ' ' :: rest).drop (spaced type).length = rest := by
  cases o with
  | blob n =>
    rw [StoredObject.typeText] at h ⊢
    obtain rfl : ObjectType.blob = type := Option.some.inj h
    exact ⟨rfl, rfl⟩
  | tree n es =>
    rw [StoredObject.typeText] at h ⊢
    obtain rfl : ObjectType.tree = type := Option.some.inj h
    exact ⟨rfl, rfl⟩
  | commit n =>
    rw [StoredObject.typeText] at h
    have hnone : (none : Option ObjectType) = some type := h
    cases hnone
  | tag n =>
    rw [StoredObject.typeText] at h
    have hnone : (none : Option ObjectType) = some type := h
    cases hnone

/-- **A line that is read names an object of the store**, with its type and its
size. -/
theorem objectLine_objectAnswer {id : String} (hid : ∀ c ∈ id.toList, Sha256.isHexDigit c = true)
    {groups : List Char × ObjectType × List Char}
    (h : objectLine (objectAnswer store id) = some groups) :
    ∃ o, store id = some o ∧ groups.1 = id.toList ∧ groups.2.1.text = o.typeText
      ∧ groups.2.2 = Nat.toDigits 10 o.byteLength := by
  have hblank : ∀ c ∈ (answerTail (store id)).head?, Sha256.isHexDigit c = false := by
    intro c hc
    cases hstore : store id with
    | none =>
      rw [hstore] at hc
      obtain rfl := Option.some.inj hc
      decide
    | some o =>
      rw [hstore] at hc
      obtain rfl := Option.some.inj hc
      decide
  have htake : (objectAnswer store id).takeWhile Sha256.isHexDigit = id.toList :=
    StrictJson.takeWhile_of_all hid hblank
  have hdrop : (objectAnswer store id).dropWhile Sha256.isHexDigit = answerTail (store id) :=
    StrictJson.dropWhile_of_all hid hblank
  simp only [objectLine, htake, hdrop, Option.bind_eq_bind, Option.bind_eq_some_iff] at h
  obtain ⟨type, htype, h⟩ := h
  cases hstore : store id with
  | none =>
    rw [hstore] at htype
    cases htype
  | some o =>
    rw [hstore] at htype h
    obtain ⟨hname, hdigits⟩ := find?_typeText htype
    obtain rfl := Option.some.inj (Option.ite_none_right_eq_some.mp h).2
    exact ⟨o, rfl, rfl, hname, hdigits⟩

theorem not_mem_missing : '\n' ∉ answerTail none := by decide +kernel

/-- The lines of an answer have no line break of their own. -/
theorem free_objectAnswers {ids : List String}
    (h : ∀ id ∈ ids, objectIdPattern objectFormat id = true) :
    Free '\n' (ids.map (objectAnswer store)) := by
  have hnames : ∀ name ∈ ["blob", "tree", "commit", "tag"], '\n' ∉ name.toList := by decide +kernel
  have htypes : ∀ o : StoredObject, '\n' ∉ o.typeText.toList := by
    intro o
    refine hnames _ ?_
    cases o <;> simp [StoredObject.typeText]
  intro line hline hbreak
  obtain ⟨id, hid, rfl⟩ := List.mem_map.mp hline
  rcases List.mem_append.mp hbreak with hc | hc
  · exact absurd ((chars_of_objectIdPattern (h id hid)).2 _ hc) (by decide)
  · cases hstore : store id with
    | none =>
      rw [hstore] at hc
      exact not_mem_missing hc
    | some o =>
      have hblank : '\n' ≠ ' ' := by decide
      rw [hstore] at hc
      rcases List.mem_append.mp hc with hc | hc
      · exact htypes o (List.mem_of_ne_of_mem hblank hc)
      · exact absurd (StrictJson.isDigit_of_mem_toDigits (List.mem_of_ne_of_mem hblank hc)) (by decide)

/-- The answers are read line by line. -/
theorem outputLines_objectAnswers {ids : List String} (hne : ids ≠ [])
    (h : ∀ id ∈ ids, objectIdPattern objectFormat id = true) :
    outputLines (objectAnswers store ids) = ids.map (objectAnswer store) := by
  have hlines : ids.map (objectAnswer store) ≠ [] := fun hnil => hne (List.map_eq_nil_iff.mp hnil)
  have hlast : (objectAnswers store ids).toList.getLast? = some '\n' := by
    rw [objectAnswers, String.toList_ofList, getLast?_terminated hlines]
  rw [outputLines, if_pos hlast, objectAnswers, String.toList_ofList, dropLast_terminated hlines]
  exact List.splitOn_intercalate '\n' (free_objectAnswers h) hlines

/-! ## Facts -/

/-- **What the inspection found of an identity**: it is an object of the store,
of the type expected of it. -/
structure Told (store : ObjectStore) (expected : OrderedMap String ObjectType) (id : String)
    (object : CarrierObject) : Prop where
  objectId : object.objectId = id
  found : ∃ o type, store id = some o ∧ expected.get id = some type ∧ type.text = o.typeText
    ∧ object.objectType = o.typeText ∧ object.byteLength = o.byteLength

theorem objectFact_eq_ok {limits : CarrierLimits} {expected : OrderedMap String ObjectType}
    {aggregate aggregate' : Nat} {id : String} {object : CarrierObject}
    (hid : ∀ c ∈ id.toList, Sha256.isHexDigit c = true)
    (h : objectFact objectFormat limits expected aggregate id (objectAnswer store id)
      = .ok (object, aggregate')) :
    Told store expected id object ∧ aggregate' ≤ limits.maximumAggregateObjectBytes
      ∧ (aggregate' : Int) = aggregate + object.byteLength := by
  simp only [objectFact, bind_eq_ok, orFail_eq_ok, failIf_eq_ok, exists_unit, pure_eq_ok,
    not_or, Prod.mk.injEq, not_not] at h
  obtain ⟨type, htype, groups, hgroups, x, -, ⟨-, hkind⟩, -, hbound, hobject, haggregate⟩ := h
  obtain ⟨o, hstore, -, hname, hdigits⟩ := objectLine_objectAnswer hid hgroups
  rw [hdigits, Nat.ofDigitChars_ten_toDigits] at hbound hobject haggregate
  subst hobject haggregate
  rw [hkind] at hname
  exact ⟨⟨rfl, o, type, hstore, htype, hname, hname, rfl⟩, Nat.not_lt.mp hbound.2,
    Int.natCast_add _ _⟩

/-- **Every identity is told of.** -/
theorem objectFactsFrom_eq_ok {limits : CarrierLimits} {expected : OrderedMap String ObjectType}
    {aggregate : Nat} {ids : List String} {objects : List CarrierObject}
    (hids : ∀ id ∈ ids, objectIdPattern objectFormat id = true)
    (haggregate : aggregate ≤ limits.maximumAggregateObjectBytes)
    (h : objectFactsFrom objectFormat limits expected aggregate
      (ids.zip (ids.map (objectAnswer store))) = .ok objects) :
    List.Forall₂ (Told store expected) ids objects
      ∧ aggregate + (objects.map (·.byteLength)).sum ≤ limits.maximumAggregateObjectBytes := by
  induction ids generalizing aggregate objects with
  | nil =>
    rw [List.map_nil, List.zip_nil_left, objectFactsFrom, pure_eq_ok] at h
    subst h
    refine ⟨.nil, ?_⟩
    rw [List.map_nil, List.sum_nil]
    omega
  | cons id ids ih =>
    obtain ⟨hid, hids⟩ := List.forall_mem_cons.mp hids
    simp only [List.map_cons, List.zip_cons_cons, objectFactsFrom, bind_eq_ok, pure_eq_ok,
      Prod.exists] at h
    obtain ⟨object, next, hobject, rest, hrest, rfl⟩ := h
    obtain ⟨htold, hbound, hsum⟩ := objectFact_eq_ok (chars_of_objectIdPattern hid).2 hobject
    obtain ⟨htolds, htotal⟩ := ih hids hbound hrest
    refine ⟨.cons htold htolds, ?_⟩
    rw [List.map_cons, List.sum_cons]
    omega

/-- **The inventory is told by the store**: one object of every identity
collected, in order, each of the type its trees gave it. -/
theorem objectFacts_eq_ok {git : ClosureGit} {limits : CarrierLimits}
    {expected : OrderedMap String ObjectType} {objects : List CarrierObject}
    (hgit : Tells git store) (hformat : git.objectFormat = .ok objectFormat)
    (hids : ∀ id ∈ expected.keys, objectIdPattern objectFormat id = true)
    (h : objectFacts git objectFormat expected limits = .ok objects) :
    List.Forall₂ (Told store expected) (sortKeys expected.keys) objects
      ∧ objects.length ≤ limits.maximumObjects
      ∧ (objects.map (·.byteLength)).sum ≤ limits.maximumAggregateObjectBytes := by
  have hsorted : ∀ id ∈ sortKeys expected.keys, objectIdPattern objectFormat id = true := by
    intro id hid
    rw [Json.sortKeys, List.mem_insertionSort] at hid
    exact hids id hid
  simp only [objectFacts, bind_eq_ok, failIf_eq_ok, exists_unit, not_or, not_not] at h
  obtain ⟨⟨hpos, hcount⟩, result, hresult, hcomplete, -, hfacts⟩ := h
  have hne : sortKeys expected.keys ≠ [] := by
    intro hnil
    rw [hnil] at hpos
    exact hpos Nat.one_pos
  rw [hgit.objects _ _ _ _ hformat hsorted hresult hcomplete,
    outputLines_objectAnswers hne hsorted] at hfacts
  obtain ⟨htold, hsum⟩ := objectFactsFrom_eq_ok hsorted (Nat.zero_le _) hfacts
  refine ⟨htold, htold.length_eq ▸ Nat.not_lt.mp hcount, ?_⟩
  rw [Int.natCast_zero, Int.zero_add] at hsum
  exact hsum

end ObjectClosure
