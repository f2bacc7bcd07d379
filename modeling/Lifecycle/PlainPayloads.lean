import Lifecycle.CanonicalText

/-!
# Plain payloads

The payloads events and revisions carry are plain: nulls, booleans, texts
and safe integers, in objects whose members stand in canonical order.
How much a plain value weighs bounds its canonical text and how many
values it has, so a light and shallow payload keeps every bound of the
control model and is its own normal form (`normalized_of_plain`).
-/

open Fallible Json

namespace Json

mutual
/-- **A plain value**, its objects in canonical order. -/
def Plain : Json → Prop
  | .null => True
  | .bool _ => True
  | .string _ => True
  | .number (.integer n) => n.natAbs ≤ maxSafeInteger
  | .number _ => False
  | .array items => PlainItems items
  | .object members => PlainMembers members
      ∧ (keys members).Pairwise fun a b => codeUnitLe a b = true

def PlainItems : List Json → Prop
  | [] => True
  | item :: items => Plain item ∧ PlainItems items

def PlainMembers : List (String × Json) → Prop
  | [] => True
  | (_, value) :: members => Plain value ∧ PlainMembers members
end

mutual
/-- What a value weighs: at least the length of its text. -/
def weight : Json → Nat
  | .null => 4
  | .bool _ => 5
  | .string s => 6 * byteLength s + 2
  | .number (.integer n) => (utf8Bytes (toString n)).length + 1
  | .number _ => 1
  | .array items => 2 + weightItems items
  | .object members => 2 + weightMembers members

def weightItems : List Json → Nat
  | [] => 0
  | item :: items => weight item + 1 + weightItems items

def weightMembers : List (String × Json) → Nat
  | [] => 0
  | (name, value) :: members => 6 * byteLength name + 4 + weight value + weightMembers members
end

mutual
/-- How deep a value nests. -/
def height : Json → Nat
  | .array items => heightItems items + 1
  | .object members => heightMembers members + 1
  | _ => 0

def heightItems : List Json → Nat
  | [] => 0
  | item :: items => max (height item) (heightItems items)

def heightMembers : List (String × Json) → Nat
  | [] => 0
  | (_, value) :: members => max (height value) (heightMembers members)
end

mutual
instance decidablePlain : (v : Json) → Decidable v.Plain
  | .null => inferInstanceAs (Decidable True)
  | .bool _ => inferInstanceAs (Decidable True)
  | .string _ => inferInstanceAs (Decidable True)
  | .number (.integer n) => inferInstanceAs (Decidable (n.natAbs ≤ maxSafeInteger))
  | .number (.fraction _) => inferInstanceAs (Decidable False)
  | .number (.nonFinite _) => inferInstanceAs (Decidable False)
  | .array items => decidablePlainItems items
  | .object members => @instDecidableAnd _ _ (decidablePlainMembers members) inferInstance

instance decidablePlainItems : (items : List Json) → Decidable (PlainItems items)
  | [] => inferInstanceAs (Decidable True)
  | item :: items => @instDecidableAnd _ _ (decidablePlain item) (decidablePlainItems items)

instance decidablePlainMembers :
    (members : List (String × Json)) → Decidable (PlainMembers members)
  | [] => inferInstanceAs (Decidable True)
  | (_, value) :: members =>
    @instDecidableAnd _ _ (decidablePlain value) (decidablePlainMembers members)
end

/-! ## Members -/

theorem PlainMembers.of_mem {members : List (String × Json)} (h : PlainMembers members)
    {m : String × Json} (hm : m ∈ members) : m.2.Plain := by
  induction members with
  | nil => simp at hm
  | cons e members ih =>
    rcases List.mem_cons.mp hm with rfl | hm
    · exact h.1
    · exact ih h.2 hm

theorem PlainItems.of_mem {items : List Json} (h : PlainItems items) {v : Json}
    (hv : v ∈ items) : v.Plain := by
  induction items with
  | nil => simp at hv
  | cons item items ih =>
    rcases List.mem_cons.mp hv with rfl | hv
    · exact h.1
    · exact ih h.2 hv

theorem plainItems_of_forall {items : List Json} (h : ∀ v ∈ items, v.Plain) : PlainItems items := by
  induction items with
  | nil => trivial
  | cons v items ih =>
    exact ⟨h v List.mem_cons_self, ih fun w hw => h w (List.mem_cons_of_mem v hw)⟩

theorem heightItems_le_of_forall {items : List Json} {n : Nat} (h : ∀ v ∈ items, v.height ≤ n) :
    heightItems items ≤ n := by
  induction items with
  | nil => exact Nat.zero_le n
  | cons v items ih =>
    exact Nat.max_le.mpr
      ⟨h v List.mem_cons_self, ih fun w hw => h w (List.mem_cons_of_mem v hw)⟩

theorem height_le_of_mem {members : List (String × Json)} {m : String × Json}
    (hm : m ∈ members) : height m.2 ≤ heightMembers members := by
  induction members with
  | nil => simp at hm
  | cons e members ih =>
    obtain ⟨name, value⟩ := e
    rw [heightMembers]
    rcases List.mem_cons.mp hm with rfl | hm
    · exact le_max_left _ _
    · exact (ih hm).trans (le_max_right _ _)

theorem height_le_of_mem_items {items : List Json} {v : Json} (hv : v ∈ items) :
    height v ≤ heightItems items := by
  induction items with
  | nil => simp at hv
  | cons item items ih =>
    rw [heightItems]
    rcases List.mem_cons.mp hv with rfl | hv
    · exact le_max_left _ _
    · exact (ih hv).trans (le_max_right _ _)

theorem one_le_weight (v : Json) : 1 ≤ weight v := by
  cases v with
  | number n => cases n <;> simp [weight]
  | _ =>
    simp only [weight]
    omega

/-! ## Texts -/

theorem weight_le_sum {members : List (String × Json)}
    (h : ∀ m ∈ members, textLength m.2 ≤ weight m.2) :
    (members.map fun m => (quoted m.1).length + 2 + textLength m.2).sum
      ≤ weightMembers members := by
  induction members with
  | nil => simp [weightMembers]
  | cons e members ih =>
    obtain ⟨name, value⟩ := e
    have hvalue := h _ List.mem_cons_self
    have hrest := ih fun m hm => h m (List.mem_cons_of_mem _ hm)
    have hname := length_quoted name
    rw [weightMembers, List.map_cons, List.sum_cons]
    simp only at hvalue ⊢
    omega

theorem textLength_eq {v : Json} {t : List UInt8} (h : canonicalJson v = .ok t) :
    textLength v = t.length := by
  rw [textLength, h]
  rfl

mutual
/-- **A plain value has a text, no longer than it weighs.** -/
theorem exists_text_of_plain : ∀ {v : Json}, v.Plain →
    ∃ t, canonicalJson v = .ok t ∧ t.length ≤ weight v
  | .null, _ => ⟨utf8Bytes "null", rfl, by decide +kernel⟩
  | .bool true, _ => ⟨utf8Bytes "true", rfl, by decide +kernel⟩
  | .bool false, _ => ⟨utf8Bytes "false", rfl, by decide +kernel⟩
  | .string s, _ => ⟨quoted s, rfl, length_quoted s⟩
  | .number (.integer n), h => by
    have hn : n.natAbs ≤ maxSafeInteger := h
    refine ⟨utf8Bytes (toString n), ?_, Nat.le_succ _⟩
    simp only [canonicalJson, canonicalize, canonicalNumber, bind_eq_ok, failIf_eq_ok,
      exists_unit, pure_eq_ok]
    exact ⟨by omega, trivial⟩
  | .number (.fraction _), h => absurd h (by simp [Plain])
  | .number (.nonFinite _), h => absurd h (by simp [Plain])
  | .array items, h => by
    obtain ⟨texts, htexts, hlength⟩ := exists_texts_of_plain (p := "$") (i := 0) h
    refine ⟨91 :: commaSeparated texts ++ [93], ?_, ?_⟩
    · simp only [canonicalJson, canonicalize, bind_eq_ok, pure_eq_ok]
      exact ⟨texts, htexts, rfl⟩
    · have hcommas := length_commaSeparated texts
      rw [weight]
      simp only [List.length_append, List.length_cons, List.length_nil]
      omega
  | .object members, h => by
    obtain ⟨text, htext, hlength⟩ := exists_text_object
      fun m hm => (exists_text_of_plainMembers h.1 m hm).1
    refine ⟨text, htext, hlength.trans ?_⟩
    have hsum := weight_le_sum fun m hm => (exists_text_of_plainMembers h.1 m hm).2
    rw [weight]
    omega

theorem exists_texts_of_plain : ∀ {items : List Json} {p : String} {i : Nat}, PlainItems items →
    ∃ texts, canonicalizeItems p i items = .ok texts
      ∧ (texts.map fun t => t.length + 1).sum ≤ weightItems items
  | [], _, _, _ => ⟨[], rfl, Nat.le_refl _⟩
  | item :: items, p, i, h => by
    obtain ⟨t, ht, hlength⟩ := exists_text_of_plain h.1
    obtain ⟨ts, hts, hsum⟩ := exists_texts_of_plain (p := p) (i := i + 1) h.2
    refine ⟨t :: ts, ?_, ?_⟩
    · simp only [canonicalizeItems, bind_eq_ok, pure_eq_ok]
      exact ⟨t, canonicalize_path ht, ts, hts, rfl⟩
    · rw [List.map_cons, List.sum_cons, weightItems]
      omega

theorem exists_text_of_plainMembers : ∀ {members : List (String × Json)},
    PlainMembers members → ∀ m ∈ members, Canonicalizable m.2 ∧ textLength m.2 ≤ weight m.2
  | [], _, _, hm => absurd hm (by simp)
  | (name, value) :: members, h, m, hm => by
    rcases List.mem_cons.mp hm with rfl | hm
    · obtain ⟨t, ht, hlength⟩ := exists_text_of_plain h.1
      exact ⟨⟨t, ht⟩, (textLength_eq ht).trans_le hlength⟩
    · exact exists_text_of_plainMembers h.2 m hm
end

end Json

namespace ControlModel

/-! ## Canonical order -/

mutual
/-- A plain value is in canonical order. -/
theorem canonicalOrder_of_plain : ∀ {v : Json}, v.Plain → canonicalOrder v = v
  | .null, _ => rfl
  | .bool _, _ => rfl
  | .string _, _ => rfl
  | .number _, _ => rfl
  | .array items, h => by
    rw [canonicalOrder, canonicalOrderItems_of_plain h]
  | .object members, h => by
    rw [canonicalOrder, canonicalOrderMembers_of_plain h.1,
      List.Pairwise.insertionSort_eq (List.pairwise_map.mp h.2)]

theorem canonicalOrderItems_of_plain : ∀ {items : List Json}, PlainItems items →
    canonicalOrderItems items = items
  | [], _ => rfl
  | item :: items, h => by
    rw [canonicalOrderItems, canonicalOrder_of_plain h.1, canonicalOrderItems_of_plain h.2]

theorem canonicalOrderMembers_of_plain : ∀ {members : List (String × Json)},
    PlainMembers members → canonicalOrderMembers members = members
  | [], _ => rfl
  | (name, value) :: members, h => by
    rw [canonicalOrderMembers, canonicalOrder_of_plain h.1, canonicalOrderMembers_of_plain h.2]
end

/-! ## Bounds -/

/-- The values a walk has pending weigh. -/
def pendingWeight (pending : List (Json × Nat)) : Nat := (pending.map fun p => weight p.1).sum

theorem weight_pushMembers (members : List Json) (depth : Nat) (pending : List (Json × Nat)) :
    pendingWeight (pushMembers members depth pending)
      = (members.map weight).sum + pendingWeight pending := by
  simp only [pendingWeight, pushMembers, List.map_append, List.sum_append, List.map_reverse,
    List.sum_reverse, List.map_map]
  rfl

theorem sum_weight_le_members (members : List (String × Json)) :
    ((members.map Prod.snd).map weight).sum + members.length ≤ weightMembers members := by
  induction members with
  | nil => simp
  | cons e members ih =>
    obtain ⟨name, value⟩ := e
    simp only [List.map_cons, List.sum_cons, List.length_cons, weightMembers]
    omega

theorem sum_weight_le_items (items : List Json) :
    (items.map weight).sum + items.length ≤ weightItems items := by
  induction items with
  | nil => simp
  | cons item items ih =>
    simp only [List.map_cons, List.sum_cons, List.length_cons, weightItems]
    omega

theorem mem_pushMembers {members : List Json} {depth : Nat} {pending : List (Json × Nat)}
    {p : Json × Nat} (h : p ∈ pushMembers members depth pending) :
    (p.1 ∈ members ∧ p.2 = depth + 1) ∨ p ∈ pending := by
  simp only [pushMembers, List.mem_append, List.mem_reverse, List.mem_map] at h
  rcases h with ⟨v, hv, rfl⟩ | h
  · exact .inl ⟨hv, rfl⟩
  · exact .inr h

/-- **The walk over light and shallow values stays within its bounds.** -/
theorem boundsWalk_of_light {label : String} {maximum : Nat} (hmaximum : 16384 ≤ maximum) :
    ∀ (n : Nat) (pending : List (Json × Nat)),
      (∀ p ∈ pending, height p.1 + p.2 ≤ maximumJsonDepth) →
      pendingWeight pending ≤ n → pendingWeight pending ≤ maximumJsonMembers →
      boundsWalk label maximum n pending = .ok ()
  | _, [], _, _, _ => by
    unfold boundsWalk
    rfl
  | 0, p :: pending, _, hfuel, _ => by
    have hone := one_le_weight p.1
    simp only [pendingWeight, List.map_cons, List.sum_cons] at hfuel
    omega
  | n + 1, (value, depth) :: pending, hheight, hfuel, hlight => by
    have hmany : maximumJsonMembers = 16384 := rfl
    have hrest := fun q hq => hheight q (List.mem_cons_of_mem (value, depth) hq)
    have hdepth : ¬ maximumJsonDepth < depth := by
      have h := hheight (value, depth) List.mem_cons_self
      simp only at h
      omega
    have hone := one_le_weight value
    have hsum : pendingWeight ((value, depth) :: pending) = weight value + pendingWeight pending :=
      rfl
    conv_lhs => unfold boundsWalk
    rw [failIf_neg hdepth, ok_bind]
    cases value with
    | string s =>
      rw [weight] at hsum
      simp only [bind_eq_ok, failIf_eq_ok, exists_unit]
      exact ⟨by omega, boundsWalk_of_light hmaximum n pending hrest (by omega) (by omega)⟩
    | array items =>
      have hitems := sum_weight_le_items items
      have hpush := weight_pushMembers items depth pending
      have hnest := hheight (.array items, depth) List.mem_cons_self
      simp only [height] at hnest
      rw [weight] at hsum
      simp only [bind_eq_ok, failIf_eq_ok, exists_unit]
      refine ⟨by omega, boundsWalk_of_light hmaximum n _ ?_ (by omega) (by omega)⟩
      intro p hp
      rcases mem_pushMembers hp with ⟨hv, heq⟩ | hp
      · have hle := height_le_of_mem_items hv
        omega
      · exact hrest p hp
    | object members =>
      have hmembers := sum_weight_le_members members
      have hpush := weight_pushMembers (members.map Prod.snd) depth pending
      have hnest := hheight (.object members, depth) List.mem_cons_self
      simp only [height] at hnest
      rw [weight] at hsum
      simp only [bind_eq_ok, failIf_eq_ok, exists_unit]
      refine ⟨by omega, boundsWalk_of_light hmaximum n _ ?_ (by omega) (by omega)⟩
      intro p hp
      rcases mem_pushMembers hp with ⟨hv, heq⟩ | hp
      · obtain ⟨m, hm, hvalue⟩ := List.mem_map.mp hv
        have hle := hvalue ▸ height_le_of_mem hm
        omega
      · exact hrest p hp
    | _ => exact boundsWalk_of_light hmaximum n pending hrest (by omega) (by omega)

/-- **A light payload**: plain, and far within every bound. -/
structure LightPayload (payload : JsonObject) : Prop where
  plain : Plain (.object payload)
  light : weight (.object payload) ≤ 16384
  shallow : height (.object payload) ≤ 16

instance (payload : JsonObject) : Decidable (LightPayload payload) :=
  decidable_of_iff
    (Plain (.object payload) ∧ weight (.object payload) ≤ 16384 ∧ height (.object payload) ≤ 16)
    ⟨fun h => ⟨h.1, h.2.1, h.2.2⟩, fun h => ⟨h.plain, h.light, h.shallow⟩⟩

theorem LightPayload.bounded {payload : JsonObject} (h : LightPayload payload) (label : String)
    {maximum : Nat} (hmaximum : 16384 ≤ maximum) :
    ∃ text, canonicalJson (.object payload) = .ok text
      ∧ boundedControlJson payload label maximum = .ok text := by
  obtain ⟨text, htext, hlength⟩ := exists_text_of_plain h.plain
  have hlight := h.light
  have hshallow := h.shallow
  have hweight : pendingWeight [(.object payload, 1)] = weight (.object payload) := by
    simp [pendingWeight]
  have hwalk : boundsWalk label maximum maximumJsonValues [(.object payload, 1)] = .ok () := by
    have hvalues : maximumJsonValues = 262144 := rfl
    have hmany : maximumJsonMembers = 16384 := rfl
    refine boundsWalk_of_light hmaximum _ _ ?_ (by omega) (by omega)
    have hdeep : maximumJsonDepth = 64 := rfl
    simp only [List.mem_singleton, forall_eq]
    omega
  refine ⟨text, htext, ?_⟩
  rw [boundedControlJson, hwalk, ok_bind, htext]
  simp only [bind_eq_ok, failIf_eq_ok, exists_unit, pure_eq_ok]
  exact ⟨by omega, trivial⟩

/-- **A light payload is its own normal form.** -/
theorem LightPayload.normalized {payload : JsonObject} (h : LightPayload payload)
    (label : String) {maximum : Nat} (hmaximum : 16384 ≤ maximum) :
    normalizedControlJsonObject payload label maximum = .ok payload := by
  obtain ⟨text, -, hbounded⟩ := h.bounded label hmaximum
  have horder : parsedCanonical payload = payload := by
    rw [parsedCanonical, canonicalOrderMembers_of_plain h.plain.1,
      List.Pairwise.insertionSort_eq (List.pairwise_map.mp h.plain.2)]
  rw [normalizedControlJsonObject, hbounded, ok_bind, horder]
  rfl

end ControlModel
