import Lifecycle.CanonicalDomain

/-!
# Pretty text and the order of keys

The text over several lines, `prettyCanonicalize` of `validation/canonical.ts`,
over the strings of the host, and the value that both texts are written from:
its members in the order of their keys, and zero for the negative zero
(`ordered`). A value has the texts of its ordered form (`canonicalize_ordered`,
`prettyCanonicalize_ordered`), so values that are the same up to the order of
their keys have the same texts.
-/

open Fallible CodeUnits

namespace CanonicalDomain

/-! ## `prettyCanonicalize` -/

/-- `"  ".repeat(depth)`. -/
def indentation (depth : Nat) : CodeUnits := List.replicate (2 * depth) 32

/-- `join(",\n")`. -/
def lineJoined : List CodeUnits → CodeUnits
  | [] => []
  | [x] => x
  | x :: y :: xs => x ++ 44 :: 10 :: lineJoined (y :: xs)

mutual
/-- **`prettyCanonicalize`.** -/
def prettyCanonicalize (path : CodeUnits) (depth : Nat) :
    HostValue → Except CanonicalError CodeUnits
  | .array [] => .ok [91, 93]
  | .array (item :: items) => do
    let parts ← prettyItems path 0 (depth + 1) (item :: items)
    return 91 :: 10 :: (lineJoined parts ++ 10 :: (indentation depth ++ [93]))
  | .object [] => .ok [123, 125]
  | .object (member :: members) => do
    let parts ← (sortMembers (prettyMembers path (depth + 1) (member :: members))).mapM Prod.snd
    return 123 :: 10 :: (lineJoined parts ++ 10 :: (indentation depth ++ [125]))
  | .null => canonicalize path .null
  | .bool b => canonicalize path (.bool b)
  | .string s => canonicalize path (.string s)
  | .number n => canonicalize path (.number n)

/-- The lines of an array's items. -/
def prettyItems (path : CodeUnits) (index depth : Nat) :
    List HostValue → Except CanonicalError (List CodeUnits)
  | [] => .ok []
  | item :: items => do
    let text ← prettyCanonicalize (itemPath path index) depth item
    let texts ← prettyItems path (index + 1) depth items
    return (indentation depth ++ text) :: texts

/-- The line, or the refusal, of each member of an object. -/
def prettyMembers (path : CodeUnits) (depth : Nat) :
    List (CodeUnits × HostValue) → List (CodeUnits × Except CanonicalError CodeUnits)
  | [] => []
  | (name, child) :: members =>
    (name, do
      assertUnicodeScalarValue (path ++ sourceUnits " key") name
      let text ← prettyCanonicalize (memberPath path name) depth child
      return indentation depth ++ (stringify name ++ 58 :: 32 :: text))
      :: prettyMembers path depth members
end

/-- The line of one member. -/
def memberLine (path : CodeUnits) (depth : Nat) (m : CodeUnits × HostValue) :
    Except CanonicalError CodeUnits := do
  assertUnicodeScalarValue (path ++ sourceUnits " key") m.1
  let text ← prettyCanonicalize (memberPath path m.1) depth m.2
  return indentation depth ++ (stringify m.1 ++ 58 :: 32 :: text)

theorem prettyMembers_eq_map (path : CodeUnits) (depth : Nat) :
    ∀ members : List (CodeUnits × HostValue),
      prettyMembers path depth members = members.map fun m => (m.1, memberLine path depth m)
  | [] => rfl
  | (name, v) :: ms => by
    rw [prettyMembers, prettyMembers_eq_map path depth ms, List.map_cons]
    rfl

/-- Sorting members looks at their keys only. -/
theorem sortMembers_map {α β : Type} (f : CodeUnits × α → β) (members : List (CodeUnits × α)) :
    sortMembers (members.map fun m => (m.1, f m)) = (sortMembers members).map fun m => (m.1, f m) :=
  (List.map_insertionSort (fun a b : CodeUnits × α => unitsLe a.1 b.1 = true)
    (fun a b : CodeUnits × β => unitsLe a.1 b.1 = true) (fun m : CodeUnits × α => (m.1, f m)) members
    fun _ _ _ _ => Iff.rfl).symm

theorem prettyCanonicalize_object {path : CodeUnits} {depth : Nat}
    {members : List (CodeUnits × HostValue)} (h : members ≠ []) :
    prettyCanonicalize path depth (.object members) = do
      let parts ← (sortMembers members).mapM (memberLine path (depth + 1))
      return 123 :: 10 :: (lineJoined parts ++ 10 :: (indentation depth ++ [125])) := by
  cases members with
  | nil => exact absurd rfl h
  | cons m ms =>
    rw [prettyCanonicalize, prettyMembers_eq_map, sortMembers_map, List.mapM_map]
    rfl

/-! ## The ordered value -/

mutual
/-- **The value with its members in the order of their keys**, at any depth,
and zero for the negative zero. -/
def ordered : HostValue → HostValue
  | .null => .null
  | .bool b => .bool b
  | .string s => .string s
  | .number .negativeZero => .number (.integer 0)
  | .number (.integer n) => .number (.integer n)
  | .number (.fraction rendering) => .number (.fraction rendering)
  | .number .nonFinite => .number .nonFinite
  | .array items => .array (orderedItems items)
  | .object members => .object (sortMembers (orderedMembers members))

def orderedItems : List HostValue → List HostValue
  | [] => []
  | v :: vs => ordered v :: orderedItems vs

def orderedMembers : List (CodeUnits × HostValue) → List (CodeUnits × HostValue)
  | [] => []
  | (name, v) :: ms => (name, ordered v) :: orderedMembers ms
end

/-- **The same value up to the order of its keys**; the negative zero is zero. -/
def Same (v w : HostValue) : Prop := ordered v = ordered w

theorem orderedMembers_eq_map : ∀ members : List (CodeUnits × HostValue),
    orderedMembers members = members.map fun m => (m.1, ordered m.2)
  | [] => rfl
  | (name, v) :: ms => by
    rw [orderedMembers, orderedMembers_eq_map ms, List.map_cons]

theorem orderedItems_eq_map : ∀ items : List HostValue, orderedItems items = items.map ordered
  | [] => rfl
  | v :: vs => by rw [orderedItems, orderedItems_eq_map vs, List.map_cons]

theorem pairwise_sortMembers {α : Type} (members : List (CodeUnits × α)) :
    (sortMembers members).Pairwise fun a b => unitsLe a.1 b.1 = true := by
  have : Std.Total fun a b : CodeUnits × α => unitsLe a.1 b.1 = true :=
    ⟨fun _ _ => Json.lexLe_total _ _⟩
  have : IsTrans (CodeUnits × α) fun a b => unitsLe a.1 b.1 = true :=
    ⟨fun _ _ _ => Json.lexLe_trans⟩
  exact List.pairwise_insertionSort _ _

/-- What is sorted stays as it is. -/
theorem sortMembers_sortMembers {α : Type} (members : List (CodeUnits × α)) :
    sortMembers (sortMembers members) = sortMembers members :=
  List.Pairwise.insertionSort_eq (pairwise_sortMembers members)

/-- The members of an ordered object, in order. -/
theorem sortMembers_ordered (members : List (CodeUnits × HostValue)) :
    sortMembers (sortMembers (orderedMembers members))
      = (sortMembers members).map fun m => (m.1, ordered m.2) := by
  rw [sortMembers_sortMembers, orderedMembers_eq_map]
  exact sortMembers_map (fun m : CodeUnits × HostValue => ordered m.2) members

/-- A traversal is determined by what it does with each member. -/
theorem mapM_congr {ε α β : Type} {f g : α → Except ε β} {xs : List α} (h : ∀ x ∈ xs, f x = g x) :
    xs.mapM f = xs.mapM g := by
  induction xs with
  | nil => rfl
  | cons x xs ih =>
    rw [List.mapM_cons, List.mapM_cons, h x List.mem_cons_self,
      ih fun y hy => h y (List.mem_cons_of_mem x hy)]

mutual
/-- **A value has the canonical text of its ordered form.** -/
theorem canonicalize_ordered : ∀ (v : HostValue) (path : CodeUnits),
    canonicalize path (ordered v) = canonicalize path v
  | .null, _ => rfl
  | .bool _, _ => rfl
  | .string _, _ => rfl
  | .number .negativeZero, _ => rfl
  | .number (.integer _), _ => rfl
  | .number (.fraction _), _ => rfl
  | .number .nonFinite, _ => rfl
  | .array items, path => by
    rw [ordered, canonicalize, canonicalizeItems_ordered items path 0, canonicalize]
  | .object members, path => by
    have hmembers : ∀ m ∈ sortMembers members,
        memberText path (m.1, ordered m.2) = memberText path m := by
      intro m hm
      rw [memberText, memberText, canonicalize_ordered_members members m (mem_sortMembers.mp hm)]
    rw [ordered, canonicalize, canonicalize, mapM_sortMembers, mapM_sortMembers,
      sortMembers_ordered, List.mapM_map]
    exact congrArg (· >>= _) (mapM_congr hmembers)

theorem canonicalizeItems_ordered : ∀ (items : List HostValue) (path : CodeUnits) (index : Nat),
    canonicalizeItems path index (orderedItems items) = canonicalizeItems path index items
  | [], _, _ => rfl
  | v :: vs, path, index => by
    rw [orderedItems, canonicalizeItems, canonicalize_ordered v,
      canonicalizeItems_ordered vs path (index + 1), canonicalizeItems]

theorem canonicalize_ordered_members : ∀ (members : List (CodeUnits × HostValue)), ∀ m ∈ members,
    ∀ path, canonicalize path (ordered m.2) = canonicalize path m.2
  | [], _, hm => absurd hm List.not_mem_nil
  | (name, v) :: ms, m, hm => by
    obtain hm | hm := List.mem_cons.mp hm
    · rw [hm]
      exact canonicalize_ordered v
    · exact canonicalize_ordered_members ms m hm
end

mutual
/-- **A value has the pretty text of its ordered form.** -/
theorem prettyCanonicalize_ordered : ∀ (v : HostValue) (path : CodeUnits) (depth : Nat),
    prettyCanonicalize path depth (ordered v) = prettyCanonicalize path depth v
  | .null, _, _ => rfl
  | .bool _, _, _ => rfl
  | .string _, _, _ => rfl
  | .number .negativeZero, _, _ => rfl
  | .number (.integer _), _, _ => rfl
  | .number (.fraction _), _, _ => rfl
  | .number .nonFinite, _, _ => rfl
  | .array [], _, _ => rfl
  | .array (item :: items), path, depth => by
    have hitems := prettyItems_ordered (item :: items) path 0 (depth + 1)
    rw [orderedItems] at hitems
    rw [ordered, orderedItems, prettyCanonicalize, hitems, prettyCanonicalize]
  | .object [], _, _ => rfl
  | .object (member :: members), path, depth => by
    have hmembers : ∀ m ∈ sortMembers (member :: members),
        memberLine path (depth + 1) (m.1, ordered m.2) = memberLine path (depth + 1) m := by
      intro m hm
      rw [memberLine, memberLine,
        prettyCanonicalize_ordered_members (member :: members) m (mem_sortMembers.mp hm)]
    have hne : sortMembers (orderedMembers (member :: members)) ≠ [] := by
      intro hnil
      have hmem : (member.1, ordered member.2) ∈ orderedMembers (member :: members) := by
        rw [orderedMembers_eq_map]
        exact List.mem_cons_self
      have hsorted := mem_sortMembers.mpr hmem
      rw [hnil] at hsorted
      cases hsorted
    rw [ordered, prettyCanonicalize_object hne, prettyCanonicalize_object (List.cons_ne_nil _ _),
      sortMembers_ordered, List.mapM_map]
    exact congrArg (· >>= _) (mapM_congr hmembers)

theorem prettyItems_ordered : ∀ (items : List HostValue) (path : CodeUnits) (index depth : Nat),
    prettyItems path index depth (orderedItems items) = prettyItems path index depth items
  | [], _, _, _ => rfl
  | v :: vs, path, index, depth => by
    rw [orderedItems, prettyItems, prettyCanonicalize_ordered v,
      prettyItems_ordered vs path (index + 1) depth, prettyItems]

theorem prettyCanonicalize_ordered_members : ∀ (members : List (CodeUnits × HostValue)),
    ∀ m ∈ members, ∀ path depth,
      prettyCanonicalize path depth (ordered m.2) = prettyCanonicalize path depth m.2
  | [], _, hm => absurd hm List.not_mem_nil
  | (name, v) :: ms, m, hm => by
    obtain hm | hm := List.mem_cons.mp hm
    · rw [hm]
      exact prettyCanonicalize_ordered v
    · exact prettyCanonicalize_ordered_members ms m hm
end

mutual
/-- An ordered value is in order. -/
theorem ordered_ordered : ∀ v : HostValue, ordered (ordered v) = ordered v
  | .null => rfl
  | .bool _ => rfl
  | .string _ => rfl
  | .number .negativeZero => rfl
  | .number (.integer _) => rfl
  | .number (.fraction _) => rfl
  | .number .nonFinite => rfl
  | .array items => by
    rw [ordered, ordered, orderedItems_eq_map, orderedItems_eq_map, List.map_map]
    exact congrArg HostValue.array (List.map_congr_left (ordered_ordered_items items))
  | .object members => by
    have hmembers : ∀ m ∈ sortMembers members,
        ((fun m : CodeUnits × HostValue => (m.1, ordered m.2)) ∘ fun m => (m.1, ordered m.2)) m
          = (m.1, ordered m.2) := by
      intro m hm
      exact congrArg (Prod.mk m.1) (ordered_ordered_members members m (mem_sortMembers.mp hm))
    rw [ordered, ordered, orderedMembers_eq_map (sortMembers _), orderedMembers_eq_map,
      sortMembers_map (fun m : CodeUnits × HostValue => ordered m.2) members,
      sortMembers_map (fun m : CodeUnits × HostValue => ordered m.2), sortMembers_map
        (fun m : CodeUnits × HostValue => ordered m.2), sortMembers_sortMembers, List.map_map]
    exact congrArg HostValue.object (List.map_congr_left hmembers)

theorem ordered_ordered_items : ∀ (items : List HostValue), ∀ v ∈ items,
    (ordered ∘ ordered) v = ordered v
  | [], _, hv => absurd hv List.not_mem_nil
  | w :: ws, v, hv => by
    obtain hv | hv := List.mem_cons.mp hv
    · rw [hv]
      exact ordered_ordered w
    · exact ordered_ordered_items ws v hv

theorem ordered_ordered_members : ∀ (members : List (CodeUnits × HostValue)), ∀ m ∈ members,
    ordered (ordered m.2) = ordered m.2
  | [], _, hm => absurd hm List.not_mem_nil
  | (name, v) :: ms, m, hm => by
    obtain hm | hm := List.mem_cons.mp hm
    · rw [hm]
      exact ordered_ordered v
    · exact ordered_ordered_members ms m hm
end

/-! ## The order of keys -/

end CanonicalDomain
