import Lifecycle.ControlModel

/-!
# Canonical text

Which values have a canonical text (`Canonicalizable`), and how long it
is. The path a value is canonicalized at only names it in a refusal, so a
value has the same text wherever it stands; an object has a text when each
of its members does.
-/

open Fallible Json ControlModel

namespace Json

/-- **A value with a canonical text.** -/
def Canonicalizable (v : Json) : Prop := ∃ text, canonicalJson v = .ok text

/-! ## Paths -/

theorem canonicalNumber_path {n : JsNumber} {p q : String} {text : List UInt8}
    (h : canonicalNumber p n = .ok text) : canonicalNumber q n = .ok text := by
  cases n with
  | integer n =>
    simp only [canonicalNumber, bind_eq_ok, failIf_eq_ok, exists_unit] at h ⊢
    exact h
  | fraction s => exact h
  | nonFinite s => exact absurd h (by simp [canonicalNumber])

/-- Members whose texts agree where they exist are written alike. -/
theorem mapM_sorted_of_le {as bs : List (String × Except FoundationError (List UInt8))}
    (h : List.Forall₂ (fun a b => a.1 = b.1 ∧ ∀ t, a.2 = .ok t → b.2 = .ok t) as bs) :
    List.Forall₂ (fun a b => a.1 = b.1 ∧ ∀ t, a.2 = .ok t → b.2 = .ok t)
      (as.insertionSort fun a b => codeUnitLe a.1 b.1 = true)
      (bs.insertionSort fun a b => codeUnitLe a.1 b.1 = true) := by
  have hinsert : ∀ {x y : String × Except FoundationError (List UInt8)} {as bs},
      (x.1 = y.1 ∧ ∀ t, x.2 = .ok t → y.2 = .ok t) →
      List.Forall₂ (fun a b => a.1 = b.1 ∧ ∀ t, a.2 = .ok t → b.2 = .ok t) as bs →
      List.Forall₂ (fun a b => a.1 = b.1 ∧ ∀ t, a.2 = .ok t → b.2 = .ok t)
        (as.orderedInsert (fun a b => codeUnitLe a.1 b.1 = true) x)
        (bs.orderedInsert (fun a b => codeUnitLe a.1 b.1 = true) y) := by
    intro x y as bs hxy hs
    induction hs with
    | nil => exact .cons hxy .nil
    | @cons a b as bs hab hs ih =>
      rw [List.orderedInsert_cons, List.orderedInsert_cons, hxy.1, hab.1]
      split
      · exact .cons hxy (.cons hab hs)
      · exact .cons hab ih
  induction h with
  | nil => exact .nil
  | cons hab _ ih => exact hinsert hab ih

/-- The parts an object is written from. -/
theorem written_of_le {as bs : List (String × Except FoundationError (List UInt8))}
    {parts : List (List UInt8)}
    (h : List.Forall₂ (fun a b => a.1 = b.1 ∧ ∀ t, a.2 = .ok t → b.2 = .ok t) as bs)
    (hparts : List.Forall₂ (fun m part => ∃ t, m.2 = .ok t ∧ quoted m.1 ++ 58 :: t = part)
      as parts) :
    List.Forall₂ (fun m part => ∃ t, m.2 = .ok t ∧ quoted m.1 ++ 58 :: t = part) bs parts := by
  induction h generalizing parts with
  | nil => exact hparts
  | cons hab _ ih =>
    cases hparts with
    | cons hhead htail =>
      obtain ⟨t, ht, hpart⟩ := hhead
      exact .cons ⟨t, hab.2 t ht, by rw [← hab.1, hpart]⟩ (ih htail)

mutual
/-- **The text of a value does not depend on its path.** -/
theorem canonicalize_path : ∀ {v : Json} {p q : String} {text : List UInt8},
    canonicalize p v = .ok text → canonicalize q v = .ok text
  | .null, _, _, _, h => h
  | .bool _, _, _, _, h => h
  | .string _, _, _, _, h => h
  | .number _, _, _, _, h => canonicalNumber_path h
  | .array items, p, q, text, h => by
    simp only [canonicalize, bind_eq_ok, pure_eq_ok] at h ⊢
    obtain ⟨parts, hparts, htext⟩ := h
    exact ⟨parts, canonicalizeItems_path hparts, htext⟩
  | .object members, p, q, text, h => by
    simp only [canonicalize, bind_eq_ok, pure_eq_ok, mapM_eq_ok_iff] at h ⊢
    obtain ⟨parts, hparts, htext⟩ := h
    exact ⟨parts, written_of_le (mapM_sorted_of_le (canonicalizeMembers_path members)) hparts,
      htext⟩

theorem canonicalizeItems_path : ∀ {items : List Json} {p q : String} {i j : Nat}
    {texts : List (List UInt8)},
    canonicalizeItems p i items = .ok texts → canonicalizeItems q j items = .ok texts
  | [], _, _, _, _, _, h => h
  | item :: items, p, q, i, j, texts, h => by
    simp only [canonicalizeItems, bind_eq_ok, pure_eq_ok] at h ⊢
    obtain ⟨text, htext, rest, hrest, heq⟩ := h
    exact ⟨text, canonicalize_path htext, rest, canonicalizeItems_path hrest, heq⟩

theorem canonicalizeMembers_path {p q : String} : ∀ (members : List (String × Json)),
    List.Forall₂ (fun a b => a.1 = b.1 ∧ ∀ t, a.2 = .ok t → b.2 = .ok t)
      (canonicalizeMembers p members) (canonicalizeMembers q members)
  | [] => .nil
  | (_, _) :: members =>
    .cons ⟨rfl, fun _ => canonicalize_path⟩ (canonicalizeMembers_path members)
end

/-! ## Objects -/

theorem mem_canonicalizeMembers {p : String} {members : List (String × Json)}
    {m : String × Except FoundationError (List UInt8)} :
    m ∈ canonicalizeMembers p members ↔
      ∃ v, (m.1, v) ∈ members ∧ m.2 = canonicalize s!"{p}.{m.1}" v := by
  induction members with
  | nil => simp [canonicalizeMembers]
  | cons e members ih =>
    obtain ⟨name, value⟩ := e
    rw [canonicalizeMembers, List.mem_cons, ih]
    constructor
    · rintro (rfl | ⟨v, hv, hm⟩)
      · exact ⟨value, by simp, rfl⟩
      · exact ⟨v, List.mem_cons_of_mem _ hv, hm⟩
    · rintro ⟨v, hv, hm⟩
      rcases List.mem_cons.mp hv with heq | hv
      · obtain ⟨rfl, rfl⟩ := Prod.mk.inj heq
        exact .inl (Prod.ext rfl hm)
      · exact .inr ⟨v, hv, hm⟩

theorem length_commaSeparated (parts : List (List UInt8)) :
    (commaSeparated parts).length ≤ (parts.map fun part => part.length + 1).sum := by
  induction parts with
  | nil => simp [commaSeparated]
  | cons x xs ih =>
    cases xs with
    | nil => simp [commaSeparated]
    | cons y ys =>
      rw [List.map_cons, List.sum_cons]
      simp only [commaSeparated, List.length_append, List.length_cons] at ih ⊢
      omega

/-- The parts an object is written from, and their length. -/
theorem exists_parts {ms : List (String × Except FoundationError (List UInt8))}
    (h : ∀ m ∈ ms, ∃ t, m.2 = .ok t) :
    ∃ parts, List.Forall₂ (fun m part => (do
        let text ← m.2
        return quoted m.1 ++ 58 :: text : Except FoundationError (List UInt8)) = .ok part) ms parts
      ∧ (parts.map fun part => part.length + 1).sum
        = (ms.map fun m => (quoted m.1).length + 2 + (m.2.toOption.getD []).length).sum := by
  induction ms with
  | nil => exact ⟨[], .nil, rfl⟩
  | cons m ms ih =>
    obtain ⟨t, ht⟩ := h m List.mem_cons_self
    obtain ⟨parts, hparts, hlength⟩ := ih fun m hm => h m (List.mem_cons_of_mem _ hm)
    refine ⟨(quoted m.1 ++ 58 :: t) :: parts, .cons ?_ hparts, ?_⟩
    · rw [ht]
      rfl
    · rw [List.map_cons, List.sum_cons, hlength, List.map_cons, List.sum_cons, ht]
      simp only [List.length_append, List.length_cons, Except.toOption, Option.getD_some]
      omega

/-- The length of the text of a value that has one. -/
def textLength (v : Json) : Nat := ((canonicalJson v).toOption.getD []).length

/-- **The text of an object**: it has one when each member does, no longer
than its members and their names. -/
theorem exists_text_object {members : List (String × Json)}
    (h : ∀ m ∈ members, Canonicalizable m.2) :
    ∃ text, canonicalJson (.object members) = .ok text ∧ text.length
      ≤ 2 + (members.map fun m => (quoted m.1).length + 2 + textLength m.2).sum := by
  have hwritten : ∀ m ∈ canonicalizeMembers "$" members, ∃ t, m.2 = .ok t := by
    intro m hm
    obtain ⟨v, hv, heq⟩ := mem_canonicalizeMembers.mp hm
    obtain ⟨t, ht⟩ := h _ hv
    exact ⟨t, heq ▸ canonicalize_path ht⟩
  have hsame : (canonicalizeMembers "$" members).map
        (fun m => (quoted m.1).length + 2 + (m.2.toOption.getD []).length)
      = members.map fun m => (quoted m.1).length + 2 + textLength m.2 := by
    clear hwritten
    induction members with
    | nil => rfl
    | cons e members ih =>
      obtain ⟨name, value⟩ := e
      obtain ⟨t, ht⟩ := h _ List.mem_cons_self
      rw [canonicalizeMembers, List.map_cons, List.map_cons,
        ih fun m hm => h m (List.mem_cons_of_mem _ hm), canonicalize_path ht, textLength, ht]
  have hperm := List.perm_insertionSort (fun a b => codeUnitLe a.1 b.1 = true)
    (canonicalizeMembers "$" members)
  obtain ⟨parts, hparts, hlength⟩ := exists_parts
    fun m hm => hwritten m (hperm.mem_iff.mp hm)
  refine ⟨123 :: commaSeparated parts ++ [125], ?_, ?_⟩
  · simp only [canonicalJson, canonicalize, bind_eq_ok, pure_eq_ok, mapM_eq_ok_iff]
    exact ⟨parts, by simpa only [bind_eq_ok, pure_eq_ok] using hparts, rfl⟩
  · have hcommas := length_commaSeparated parts
    rw [hlength, (hperm.map _).sum_nat, hsame] at hcommas
    simp only [List.length_append, List.length_cons, List.length_nil]
    omega

/-- An object has a text when each of its members does. -/
theorem canonicalizable_object {members : List (String × Json)}
    (h : ∀ m ∈ members, Canonicalizable m.2) : Canonicalizable (.object members) := by
  obtain ⟨text, htext, -⟩ := exists_text_object h
  exact ⟨text, htext⟩

/-- A member of an object with a text has one. -/
theorem Canonicalizable.member {members : List (String × Json)} {m : String × Json}
    (h : Canonicalizable (.object members)) (hm : m ∈ members) : Canonicalizable m.2 := by
  obtain ⟨text, htext⟩ := h
  simp only [canonicalJson, canonicalize, bind_eq_ok, pure_eq_ok, mapM_eq_ok_iff] at htext
  obtain ⟨parts, hparts, -⟩ := htext
  let root : String := "$"
  have hmem : (m.1, canonicalize s!"{root}.{m.1}" m.2) ∈
      (canonicalizeMembers "$" members).insertionSort fun a b => codeUnitLe a.1 b.1 = true := by
    rw [List.mem_insertionSort, mem_canonicalizeMembers]
    exact ⟨m.2, hm, rfl⟩
  obtain ⟨part, -, hpart⟩ := exists_of_forall₂ hparts.flip hmem
  obtain ⟨t, ht, -⟩ := hpart
  exact ⟨t, canonicalize_path ht⟩

theorem canonicalizable_string (s : String) : Canonicalizable (.string s) := ⟨_, rfl⟩

theorem canonicalizable_null : Canonicalizable .null := ⟨_, rfl⟩

theorem canonicalizable_nat {n : Nat} (h : n ≤ maxSafeInteger) : Canonicalizable (nat n) := by
  refine ⟨utf8Bytes (toString (n : Int)), ?_⟩
  simp only [canonicalJson, nat, canonicalize, canonicalNumber]
  rw [failIf_neg (by simpa using h)]
  rfl

theorem canonicalizable_textOrNull (s : Option String) : Canonicalizable (textOrNull s) := by
  cases s
  · exact canonicalizable_null
  · exact canonicalizable_string _

/-- A text is at most six times as long once it is quoted. -/
theorem length_quoted (s : String) : (quoted s).length ≤ 6 * byteLength s + 2 := by
  have hescape : ∀ b : UInt8, (escapeByte b).length ≤ 6 := by
    intro b
    unfold escapeByte
    split <;> first | simp | (split <;> simp)
  have hflat : ∀ bs : List UInt8, (bs.flatMap escapeByte).length ≤ 6 * bs.length := by
    intro bs
    induction bs with
    | nil => simp
    | cons b bs ih =>
      have hb := hescape b
      simp only [List.flatMap_cons, List.length_append, List.length_cons]
      omega
  have hbytes := hflat (utf8Bytes s)
  simp only [quoted, byteLength, List.length_append, List.length_cons, List.length_nil]
  omega

/-- A text with nothing to escape is written as it is, in quotes. -/
theorem length_quoted_of_unescaped {s : String} (h : ∀ b ∈ utf8Bytes s, escapeByte b = [b]) :
    (quoted s).length = byteLength s + 2 := by
  have hbody : ∀ bs : List UInt8, (∀ b ∈ bs, escapeByte b = [b]) →
      bs.flatMap escapeByte = bs := by
    intro bs hbs
    induction bs with
    | nil => rfl
    | cons b bs ih =>
      rw [List.flatMap_cons, hbs b List.mem_cons_self,
        ih fun c hc => hbs c (List.mem_cons_of_mem b hc)]
      rfl
  rw [quoted, hbody _ h, List.length_append]
  rfl

/-! ## Texts of arrays -/

/-- **The text of an array**: it has one when each item does, no longer than
its items. -/
theorem exists_text_array {items : List Json} (h : ∀ v ∈ items, Canonicalizable v) :
    ∃ text, canonicalJson (.array items) = .ok text
      ∧ text.length ≤ 2 + (items.map fun v => textLength v + 1).sum := by
  have hitems : ∀ index, ∃ texts, canonicalizeItems "$" index items = .ok texts
      ∧ (texts.map fun t => t.length + 1).sum = (items.map fun v => textLength v + 1).sum := by
    induction items with
    | nil => exact fun _ => ⟨[], rfl, rfl⟩
    | cons v items ih =>
      intro index
      obtain ⟨t, ht⟩ := h v List.mem_cons_self
      obtain ⟨ts, hts, hlength⟩ := ih (fun w hw => h w (List.mem_cons_of_mem v hw)) (index + 1)
      refine ⟨t :: ts, ?_, ?_⟩
      · simp only [canonicalizeItems, bind_eq_ok, pure_eq_ok]
        exact ⟨t, canonicalize_path ht, ts, hts, rfl⟩
      · rw [List.map_cons, List.sum_cons, hlength, List.map_cons, List.sum_cons, textLength, ht]
        rfl
  obtain ⟨texts, htexts, hlength⟩ := hitems 0
  refine ⟨91 :: commaSeparated texts ++ [93], ?_, ?_⟩
  · simp only [canonicalJson, canonicalize, bind_eq_ok, pure_eq_ok]
    exact ⟨texts, htexts, rfl⟩
  · have hcommas := length_commaSeparated texts
    simp only [List.length_append, List.length_cons, List.length_nil]
    omega

end Json
