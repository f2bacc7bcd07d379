import Lifecycle.Comparators
import Lifecycle.JsonText

/-!
# The order of keys

A canonical text lists the members of an object by their names, so what the
text is does not depend on the order they stand in, at any depth. Every
value has one form with its keys in order (`canonicalOrder`); two values
that differ in that order only (`Reordered`) have it in common.
-/

open Json ControlModel Comparison

namespace ControlModel

/-! ## Sorted members -/

/-- Members sorted by their names, as canonical JSON writes them. -/
def byName {α : Type} (a b : String × α) : Bool := codeUnitLe a.1 b.1

theorem comparison_byName {α : Type} : Comparison (byName (α := α)) :=
  ⟨fun _ _ => lexLe_total _ _, fun hab hbc => lexLe_trans hab hbc⟩

/-- Texts with the same code units are the same. -/
theorem codeUnitLe_antisymm {a b : String} (hab : codeUnitLe a b = true)
    (hba : codeUnitLe b a = true) : a = b := by
  have hunits := congrArg StrictJson.decodeUnits (lexLe_antisymm hab hba)
  rw [StrictJson.decodeUnits_utf16, StrictJson.decodeUnits_utf16] at hunits
  exact String.toList_inj.mp (Option.some.inj hunits)

theorem canonicalizeMembers_eq (path : String) (members : List (String × Json)) :
    canonicalizeMembers path members
      = members.map fun m => (m.1, canonicalize s!"{path}.{m.1}" m.2) := by
  induction members with
  | nil => rfl
  | cons m members ih => rw [canonicalizeMembers, ih, List.map_cons]

theorem canonicalOrderItems_eq (items : List Json) :
    canonicalOrderItems items = items.map canonicalOrder := by
  induction items with
  | nil => rfl
  | cons item items ih => rw [canonicalOrderItems, ih, List.map_cons]

theorem canonicalOrderMembers_eq (members : List (String × Json)) :
    canonicalOrderMembers members = members.map fun m => (m.1, canonicalOrder m.2) := by
  induction members with
  | nil => rfl
  | cons m members ih => rw [canonicalOrderMembers, ih, List.map_cons]

theorem canonicalOrder_object (members : List (String × Json)) :
    canonicalOrder (.object members) = .object (sortWith byName (canonicalOrderMembers members)) :=
  rfl

/-- An object is written from its members in the order of their names. -/
theorem canonicalize_object (path : String) (members : List (String × Json)) :
    canonicalize path (.object members) = (do
      let parts ← (sortWith byName (canonicalizeMembers path members)).mapM fun m => do
        let text ← m.2
        pure (quoted m.1 ++ (0x3a : UInt8) :: text)
      pure ((0x7b : UInt8) :: commaSeparated parts ++ [0x7d])) := rfl

/-- What is done to the values of members leaves their order alone. -/
theorem map_sortWith_byName {α β : Type} (f : String × α → β) (members : List (String × α)) :
    (sortWith byName members).map (fun m => (m.1, f m))
      = sortWith byName (members.map fun m => (m.1, f m)) :=
  List.map_insertionSort _ _ _ _ fun _ _ _ _ => Iff.rfl

mutual
/-- **Ordering the keys of a value leaves its canonical text.** -/
theorem canonicalize_canonicalOrder : ∀ (v : Json) (path : String),
    canonicalize path (canonicalOrder v) = canonicalize path v
  | .null, _ | .bool _, _ | .number _, _ | .string _, _ => rfl
  | .array items, path => by
    rw [canonicalOrder, canonicalize, canonicalize, canonicalizeItems_canonicalOrder items path 0]
  | .object members, path => by
    have hsame : canonicalizeMembers path (canonicalOrderMembers members)
        = canonicalizeMembers path members := canonicalizeMembers_canonicalOrder members path
    have hsorted : canonicalizeMembers path (sortWith byName (canonicalOrderMembers members))
        = sortWith byName (canonicalizeMembers path members) := by
      rw [← hsame, canonicalizeMembers_eq, canonicalizeMembers_eq]
      exact map_sortWith_byName (fun m => canonicalize s!"{path}.{m.1}" m.2) _
    rw [canonicalOrder_object, canonicalize_object, canonicalize_object, hsorted,
      sortWith_sortWith comparison_byName]

theorem canonicalizeItems_canonicalOrder : ∀ (items : List Json) (path : String) (index : Nat),
    canonicalizeItems path index (canonicalOrderItems items) = canonicalizeItems path index items
  | [], _, _ => rfl
  | item :: items, path, index => by
    rw [canonicalOrderItems, canonicalizeItems, canonicalizeItems,
      canonicalize_canonicalOrder item, canonicalizeItems_canonicalOrder items]

theorem canonicalizeMembers_canonicalOrder : ∀ (members : List (String × Json)) (path : String),
    canonicalizeMembers path (canonicalOrderMembers members) = canonicalizeMembers path members
  | [], _ => rfl
  | (_, value) :: members, path => by
    rw [canonicalOrderMembers, canonicalizeMembers, canonicalizeMembers,
      canonicalize_canonicalOrder value, canonicalizeMembers_canonicalOrder members]
end

mutual
/-- **Keys in order stay as they are.** -/
theorem canonicalOrder_canonicalOrder : ∀ v : Json,
    canonicalOrder (canonicalOrder v) = canonicalOrder v
  | .null | .bool _ | .number _ | .string _ => rfl
  | .array items => by
    rw [canonicalOrder, canonicalOrder, canonicalOrderItems_canonicalOrder items]
  | .object members => by
    have hmembers := canonicalOrderMembers_canonicalOrder members
    rw [canonicalOrder_object, canonicalOrder_object, canonicalOrderMembers_eq (sortWith _ _),
      map_sortWith_byName (fun m => canonicalOrder m.2), ← canonicalOrderMembers_eq, hmembers,
      sortWith_sortWith comparison_byName]

theorem canonicalOrderItems_canonicalOrder : ∀ items : List Json,
    canonicalOrderItems (canonicalOrderItems items) = canonicalOrderItems items
  | [] => rfl
  | item :: items => by
    rw [canonicalOrderItems, canonicalOrderItems, canonicalOrder_canonicalOrder item,
      canonicalOrderItems_canonicalOrder items]

theorem canonicalOrderMembers_canonicalOrder : ∀ members : List (String × Json),
    canonicalOrderMembers (canonicalOrderMembers members) = canonicalOrderMembers members
  | [] => rfl
  | (_, value) :: members => by
    rw [canonicalOrderMembers, canonicalOrderMembers, canonicalOrder_canonicalOrder value,
      canonicalOrderMembers_canonicalOrder members]
end

mutual
/-- **Two values that differ in the order of object keys only**, at any depth.
An object has no key twice. -/
def Reordered : Json → Json → Prop
  | .array items, w => ∃ items', w = .array items' ∧ ReorderedItems items items'
  | .object members, w => (keys members).Nodup ∧ ∃ members' arranged, w = .object arranged
      ∧ ReorderedMembers members members' ∧ members'.Perm arranged
  | .null, w => w = .null
  | .bool b, w => w = .bool b
  | .number n, w => w = .number n
  | .string s, w => w = .string s

def ReorderedItems : List Json → List Json → Prop
  | [], ws => ws = []
  | v :: vs, ws => ∃ w ws', ws = w :: ws' ∧ Reordered v w ∧ ReorderedItems vs ws'

def ReorderedMembers : List (String × Json) → List (String × Json) → Prop
  | [], ms => ms = []
  | (name, v) :: vs, ms => ∃ w ms', ms = (name, w) :: ms' ∧ Reordered v w
      ∧ ReorderedMembers vs ms'
end

mutual
/-- **Reordered values are the same in canonical order.** -/
theorem Reordered.canonicalOrder_eq : ∀ {v w : Json}, Reordered v w →
    canonicalOrder v = canonicalOrder w
  | .null, _, h | .bool _, _, h | .number _, _, h | .string _, _, h => by
    rw [Reordered] at h
    rw [h]
  | .array items, w, h => by
    rw [Reordered] at h
    obtain ⟨items', rfl, hitems⟩ := h
    rw [canonicalOrder, canonicalOrder, ReorderedItems.canonicalOrder_eq hitems]
  | .object members, w, h => by
    rw [Reordered] at h
    obtain ⟨hnodup, members', arranged, rfl, hmembers, hperm⟩ := h
    have hsame := ReorderedMembers.canonicalOrder_eq hmembers
    have hmapped : (canonicalOrderMembers members).Perm (canonicalOrderMembers arranged) := by
      rw [hsame, canonicalOrderMembers_eq, canonicalOrderMembers_eq]
      exact hperm.map _
    have hnames : ((canonicalOrderMembers members).map Prod.fst).Nodup := by
      rw [canonicalOrderMembers_eq, List.map_map]
      exact hnodup
    rw [canonicalOrder_object, canonicalOrder_object,
      sortWith_eq_of_perm comparison_byName hmapped fun a ha b hb htied =>
        List.inj_on_of_nodup_map hnames ha hb (codeUnitLe_antisymm htied.1 htied.2)]

theorem ReorderedItems.canonicalOrder_eq : ∀ {vs ws : List Json}, ReorderedItems vs ws →
    canonicalOrderItems vs = canonicalOrderItems ws
  | [], _, h => by
    rw [ReorderedItems] at h
    rw [h]
  | v :: vs, ws, h => by
    rw [ReorderedItems] at h
    obtain ⟨w, ws', rfl, hv, hvs⟩ := h
    rw [canonicalOrderItems, canonicalOrderItems, Reordered.canonicalOrder_eq hv,
      ReorderedItems.canonicalOrder_eq hvs]

theorem ReorderedMembers.canonicalOrder_eq : ∀ {vs ws : List (String × Json)},
    ReorderedMembers vs ws → canonicalOrderMembers vs = canonicalOrderMembers ws
  | [], _, h => by
    rw [ReorderedMembers] at h
    rw [h]
  | (name, v) :: vs, ws, h => by
    rw [ReorderedMembers] at h
    obtain ⟨w, ws', rfl, hv, hvs⟩ := h
    rw [canonicalOrderMembers, canonicalOrderMembers, Reordered.canonicalOrder_eq hv,
      ReorderedMembers.canonicalOrder_eq hvs]
end

/-! ## Members by their names -/

theorem canonicalOrder_payload (value : JsonObject) :
    canonicalOrder (.object value) = .object (parsedCanonical value) := rfl

/-- The object read from a canonical text is in canonical order. -/
theorem canonicalOrder_parsedCanonical (value : JsonObject) :
    canonicalOrder (.object (parsedCanonical value)) = canonicalOrder (.object value) := by
  rw [← canonicalOrder_payload, canonicalOrder_canonicalOrder]

theorem parsedCanonical_congr {value value' : JsonObject}
    (hsame : canonicalOrder (.object value) = canonicalOrder (.object value')) :
    parsedCanonical value = parsedCanonical value' := by
  rw [canonicalOrder_payload, canonicalOrder_payload] at hsame
  exact Json.object.inj hsame

/-- Where no name is there twice, a member is found by its name. -/
theorem member_eq_some_iff {o : JsonObject} (h : (keys o).Nodup) {name : String} {v : Json} :
    member name o = some v ↔ (name, v) ∈ o := by
  induction o with
  | nil => simp [member]
  | cons m o ih =>
    obtain ⟨hfresh, hrest⟩ := List.nodup_cons.mp h
    rw [member, List.mem_cons]
    split
    · next hname =>
      subst hname
      rw [Option.some.injEq]
      constructor
      · rintro rfl
        exact .inl rfl
      · rintro (heq | hmem)
        · rw [← heq]
        · exact absurd (List.mem_map_of_mem hmem) hfresh
    · next hname =>
      rw [ih hrest]
      refine ⟨.inr, fun hmem => hmem.resolve_left fun heq => hname ?_⟩
      rw [← heq]

theorem keys_canonicalOrderMembers (o : JsonObject) : keys (canonicalOrderMembers o) = keys o := by
  rw [canonicalOrderMembers_eq, keys, List.map_map]
  rfl

theorem perm_parsedCanonical (o : JsonObject) : (parsedCanonical o).Perm (canonicalOrderMembers o) :=
  perm_sortWith byName _

theorem perm_keys_parsedCanonical (o : JsonObject) : (keys (parsedCanonical o)).Perm (keys o) := by
  rw [← keys_canonicalOrderMembers o]
  exact (perm_parsedCanonical o).map Prod.fst

/-- A member of an object in canonical order is the member it was, in
canonical order. -/
theorem member_parsedCanonical {o : JsonObject} (h : (keys o).Nodup) {name : String} {v : Json} :
    member name (parsedCanonical o) = some v
      ↔ ∃ w, member name o = some w ∧ canonicalOrder w = v := by
  rw [member_eq_some_iff ((perm_keys_parsedCanonical o).nodup_iff.mpr h),
    (perm_parsedCanonical o).mem_iff, canonicalOrderMembers_eq, List.mem_map]
  constructor
  · rintro ⟨⟨name, w⟩, hmem, heq⟩
    obtain ⟨rfl, rfl⟩ := Prod.mk.inj heq
    exact ⟨w, (member_eq_some_iff h).mpr hmem, rfl⟩
  · rintro ⟨w, hmem, rfl⟩
    exact ⟨(name, w), (member_eq_some_iff h).mp hmem, rfl⟩

/-- **An object is put in canonical order** by listing its members so. -/
theorem canonicalOrder_of_members {o ms : JsonObject} (ho : (keys o).Nodup) (hms : (keys ms).Nodup)
    (hsorted : (keys ms).Pairwise fun a b => codeUnitLe a b = true)
    (hkeys : ∀ name ∈ keys o, name ∈ keys ms)
    (hmembers : ∀ m ∈ ms, ∃ v, member m.1 o = some v ∧ canonicalOrder v = m.2) :
    canonicalOrder (.object o) = .object ms := by
  have hperm : (canonicalOrderMembers o).Perm ms := by
    have hnodup : (keys (canonicalOrderMembers o)).Nodup := by
      rw [keys_canonicalOrderMembers]
      exact ho
    refine (List.perm_ext_iff_of_nodup (.of_map _ hnodup) (.of_map _ hms)).mpr fun m => ?_
    rw [canonicalOrderMembers_eq, List.mem_map]
    constructor
    · rintro ⟨⟨name, v⟩, hv, rfl⟩
      obtain ⟨⟨_, w⟩, hw, rfl⟩ := List.mem_map.mp (hkeys name (List.mem_map_of_mem hv))
      obtain ⟨v', hv', rfl⟩ := hmembers _ hw
      obtain rfl := Option.some.inj (((member_eq_some_iff ho).mpr hv).symm.trans hv')
      exact hw
    · intro hm
      obtain ⟨v, hv, hsame⟩ := hmembers m hm
      exact ⟨(m.1, v), (member_eq_some_iff ho).mp hv, Prod.ext rfl hsame⟩
  have hties : ∀ a ∈ ms, ∀ b ∈ ms, Tied byName a b → a = b := fun a ha b hb htied =>
    List.inj_on_of_nodup_map hms ha hb (codeUnitLe_antisymm htied.1 htied.2)
  have hstays : sortWith byName ms = ms :=
    List.Pairwise.insertionSort_eq (List.pairwise_map.mp hsorted)
  rw [canonicalOrder_object, ← sortWith_eq_of_perm comparison_byName hperm.symm hties, hstays]

end ControlModel
