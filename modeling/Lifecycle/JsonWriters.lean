import Lifecycle.JsonText

/-!
# The texts the writers write

`canonicalJson` (`validation/canonical.ts`) spells a value with its members in
canonical order, so that the strict reader has the text back as that value
(`parseStrictJson_canonicalJson`).
-/

open Fallible Json StrictJson ControlModel

namespace Json

/-! ## UTF-8 -/

/-- The UTF-8 bytes of some characters. -/
def utf8 (cs : List Char) : List UInt8 := cs.flatMap String.utf8EncodeChar

@[simp] theorem utf8_append (as bs : List Char) : utf8 (as ++ bs) = utf8 as ++ utf8 bs :=
  List.flatMap_append

@[simp] theorem utf8_nil : utf8 [] = [] := rfl

theorem utf8_cons (c : Char) (cs : List Char) : utf8 (c :: cs) = utf8 [c] ++ utf8 cs :=
  utf8_append [c] cs

theorem utf8Bytes_eq (s : String) : utf8Bytes s = utf8 s.toList := by
  rw [utf8, ← utf8Bytes_ofList, String.ofList_toList]

/-- The text some bytes encode, `bytes.toString("utf8")` of the bytes of a
text. -/
def decodeUtf8 (bytes : List UInt8) : Option String := String.fromUTF8? ⟨bytes.toArray⟩

/-- **The bytes of a text decode into it.** -/
theorem decodeUtf8_utf8 (cs : List Char) : decodeUtf8 (utf8 cs) = some (String.ofList cs) := by
  have hbytes : (⟨(utf8 cs).toArray⟩ : ByteArray) = (String.ofList cs).toByteArray := by
    rw [utf8, ← utf8Bytes_ofList, utf8Bytes]
  rw [decodeUtf8, hbytes]
  exact dif_pos (String.ofList cs).isValidUTF8

/-- **A text has the bytes it was decoded from.** -/
theorem utf8Bytes_of_decodeUtf8 {bytes : List UInt8} {text : String}
    (h : decodeUtf8 bytes = some text) : utf8Bytes text = bytes := by
  unfold decodeUtf8 String.fromUTF8? at h
  split at h
  · obtain rfl := Option.some.inj h
    rfl
  · cases h

/-- The bytes of a character beyond ASCII are beyond ASCII. -/
theorem le_of_mem_utf8EncodeChar {c : Char} (hc : 128 ≤ c.toNat) {b : UInt8}
    (hb : b ∈ String.utf8EncodeChar c) : 128 ≤ b.toNat := by
  have hbyte : ∀ n m : Nat, n + m < 256 → 128 ≤ m → 128 ≤ (UInt8.ofNat (n + m)).toNat := by
    intro n m hlt hm
    rw [UInt8.toNat_ofNat', Nat.mod_eq_of_lt hlt]
    omega
  have hvalue : c.val.toNat = c.toNat := rfl
  unfold String.utf8EncodeChar at hb
  simp only [hvalue] at hb
  split at hb
  · omega
  · split at hb
    · simp only [List.mem_cons, List.not_mem_nil, or_false] at hb
      obtain rfl | rfl := hb
      all_goals exact hbyte _ _ (by omega) (by omega)
    · split at hb
      · simp only [List.mem_cons, List.not_mem_nil, or_false] at hb
        obtain rfl | rfl | rfl := hb
        all_goals exact hbyte _ _ (by omega) (by omega)
      · simp only [List.mem_cons, List.not_mem_nil, or_false] at hb
        obtain rfl | rfl | rfl | rfl := hb
        all_goals exact hbyte _ _ (by omega) (by omega)

/-- A character of ASCII is its own byte. -/
theorem utf8EncodeChar_of_lt {c : Char} (hc : c.toNat < 128) :
    ∃ b : UInt8, String.utf8EncodeChar c = [b] ∧ b.toNat = c.toNat := by
  have hval : c.val ≤ 127 := UInt32.le_iff_toNat_le.mpr (by change c.toNat ≤ 127; omega)
  refine ⟨c.val.toUInt8, String.utf8EncodeChar_eq_singleton (if_pos hval), ?_⟩
  rw [UInt32.toNat_toUInt8]
  exact Nat.mod_eq_of_lt (by change c.toNat < 256; omega)

/-- Text of ASCII has as many bytes as characters. -/
theorem length_utf8_of_lt {cs : List Char} (h : ∀ c ∈ cs, c.toNat < 128) :
    (utf8 cs).length = cs.length := by
  induction cs with
  | nil => rfl
  | cons c cs ih =>
    obtain ⟨b, hb, -⟩ := utf8EncodeChar_of_lt (h c List.mem_cons_self)
    rw [utf8, List.flatMap_cons, hb, List.singleton_append, List.length_cons, List.length_cons]
    exact congrArg (· + 1) (ih fun d hd => h d (List.mem_cons_of_mem c hd))

/-- Only a NUL is written with the byte 0. -/
theorem zero_mem_utf8EncodeChar {c : Char} : 0 ∈ String.utf8EncodeChar c ↔ c = '\x00' := by
  by_cases hc : c.toNat < 128
  · obtain ⟨b, hb, hbc⟩ := utf8EncodeChar_of_lt hc
    rw [hb, List.mem_singleton, ← UInt8.toNat_inj, hbc, ← Char.toNat_inj]
    exact eq_comm
  · constructor
    · intro h
      exact absurd (le_of_mem_utf8EncodeChar (Nat.le_of_not_lt hc) h) (by decide)
    · rintro rfl
      exact absurd (by decide) hc

theorem zero_mem_utf8 {cs : List Char} : 0 ∈ utf8 cs ↔ '\x00' ∈ cs := by
  simp only [utf8, List.mem_flatMap, zero_mem_utf8EncodeChar, exists_eq_right]

/-- A byte beyond ASCII is written as it is. -/
theorem escapeByte_of_le {b : UInt8} (hb : 128 ≤ b.toNat) : escapeByte b = [b] := by
  unfold escapeByte
  split
  case h_8 => exact if_neg (by omega)
  all_goals omega

/-- A character beyond ASCII is written as it is. -/
theorem escapeChar_of_le {c : Char} (hc : 128 ≤ c.toNat) : escapeChar c = [c] := by
  unfold escapeChar
  split
  case h_8 => exact if_neg (by omega)
  all_goals omega

/-- A character is escaped alike as a character and byte by byte. -/
theorem utf8_escapeChar (c : Char) :
    utf8 (escapeChar c) = (String.utf8EncodeChar c).flatMap escapeByte := by
  obtain hlt | hge := Nat.lt_or_ge c.toNat 128
  · have hascii : ∀ n < 128, utf8 (escapeChar (Char.ofNat n))
        = (String.utf8EncodeChar (Char.ofNat n)).flatMap escapeByte := by
      decide +kernel
    have hc := hascii c.toNat hlt
    rwa [Char.ofNat_toNat] at hc
  · have hbytes : ∀ bs : List UInt8, (∀ b ∈ bs, 128 ≤ b.toNat) → bs.flatMap escapeByte = bs := by
      intro bs hbs
      induction bs with
      | nil => rfl
      | cons b bs ih =>
        rw [List.flatMap_cons, escapeByte_of_le (hbs b List.mem_cons_self),
          ih fun d hd => hbs d (List.mem_cons_of_mem _ hd)]
        rfl
    rw [escapeChar_of_le hge, hbytes _ fun b hb => le_of_mem_utf8EncodeChar hge hb]
    exact List.append_nil _

/-- **A quoted text is the bytes of its literal.** -/
theorem quoted_eq (s : String) : quoted s = utf8 (stringified s) := by
  have hflat : ∀ cs : List Char,
      (utf8 cs).flatMap escapeByte = utf8 (cs.flatMap escapeChar) := by
    intro cs
    induction cs with
    | nil => rfl
    | cons c cs ih =>
      rw [utf8_cons, List.flatMap_append, ih, List.flatMap_cons, utf8_append, utf8_escapeChar]
      show (String.utf8EncodeChar c ++ []).flatMap escapeByte ++ _ = _
      rw [List.append_nil]
  rw [quoted, utf8Bytes_eq, hflat, stringified, utf8_append, utf8_cons]
  rfl

/-! ## Separated parts -/

/-- Parts separated by commas, with `gap` behind each comma. -/
def separated (gap : List Char) : List (List Char) → List Char
  | [] => []
  | [part] => part
  | part :: next :: parts => part ++ ',' :: (gap ++ separated gap (next :: parts))

/-- **Separated items spell an array.** -/
theorem spellsItems_separated {gap b : List Char} (hgap : Blank gap) (hb : Blank b)
    {items : List Json} {texts : List (List Char)} (h : List.Forall₂ Spells items texts)
    (hne : items ≠ []) : SpellsItems items (separated gap texts ++ (b ++ [']'])) := by
  induction h with
  | nil => exact absurd rfl hne
  | @cons v text vs texts hv hrest ih =>
    cases hrest with
    | nil => exact ⟨text, b, [']'], hv, hb, rfl, .inl ⟨rfl, rfl⟩⟩
    | @cons w wtext ws wtexts hw hws =>
      have hmore := ih (List.cons_ne_nil w ws)
      refine ⟨text, [], _, hv, blank_nil, ?_, .inr ⟨List.cons_ne_nil w ws, gap, _, hgap, hmore,
        rfl⟩⟩
      rw [separated, List.nil_append, List.append_assoc, List.cons_append, List.append_assoc]

/-- The text of a member, with `gap` behind its colon. -/
def SpellsMember (gap : List Char) (m : String × Json) (text : List Char) : Prop :=
  ∃ vtext, m.2.Spells vtext ∧ text = stringified m.1 ++ ':' :: (gap ++ vtext)

/-- **Separated members spell an object.** -/
theorem spellsMembers_separated {gap colon b : List Char} (hgap : Blank gap) (hcolon : Blank colon)
    (hb : Blank b) {members : List (String × Json)} {texts : List (List Char)}
    (h : List.Forall₂ (SpellsMember colon) members texts) (hne : members ≠ []) :
    SpellsMembers members (separated gap texts ++ (b ++ ['}'])) := by
  induction h with
  | nil => exact absurd rfl hne
  | @cons m text ms texts hm hrest ih =>
    obtain ⟨vtext, hv, rfl⟩ := hm
    cases hrest with
    | nil =>
      refine ⟨[], colon, vtext, b, ['}'], blank_nil, hcolon, hv, hb, ?_, .inl ⟨rfl, rfl⟩⟩
      rw [separated, List.nil_append, List.append_assoc, List.cons_append, List.append_assoc]
    | @cons w wtext ws wtexts hw hws =>
      have hmore := ih (List.cons_ne_nil w ws)
      refine ⟨[], colon, vtext, [], _, blank_nil, hcolon, hv, blank_nil, ?_,
        .inr ⟨List.cons_ne_nil w ws, gap, _, hgap, hmore, rfl⟩⟩
      simp [separated]

/-! ## Distinct names -/

mutual
/-- No object of the value has a name twice. -/
def DistinctNames : Json → Prop
  | .array items => DistinctNamesItems items
  | .object members => (keys members).Nodup ∧ DistinctNamesMembers members
  | _ => True

def DistinctNamesItems : List Json → Prop
  | [] => True
  | v :: vs => DistinctNames v ∧ DistinctNamesItems vs

def DistinctNamesMembers : List (String × Json) → Prop
  | [] => True
  | (_, v) :: ms => DistinctNames v ∧ DistinctNamesMembers ms
end

theorem distinctNamesItems_of_forall {vs : List Json} (h : ∀ v ∈ vs, v.DistinctNames) :
    DistinctNamesItems vs := by
  induction vs with
  | nil => trivial
  | cons v vs ih =>
    exact ⟨h v List.mem_cons_self, ih fun w hw => h w (List.mem_cons_of_mem v hw)⟩

/-! ## Canonical text -/

theorem commaSeparated_utf8 : ∀ texts : List (List Char),
    commaSeparated (texts.map utf8) = utf8 (separated [] texts)
  | [] => rfl
  | [text] => rfl
  | text :: next :: texts => by
    show utf8 text ++ 44 :: commaSeparated ((next :: texts).map utf8)
      = utf8 (text ++ ',' :: ([] ++ separated [] (next :: texts)))
    rw [commaSeparated_utf8 (next :: texts), utf8_append, utf8_cons ',']
    rfl

/-- The members of a plain object are written in their own order. -/
theorem sorted_canonicalizeMembers {p : String} {members : List (String × Json)}
    (h : (keys members).Pairwise fun a b => codeUnitLe a b = true) :
    (canonicalizeMembers p members).insertionSort (fun a b => codeUnitLe a.1 b.1 = true)
      = canonicalizeMembers p members := by
  refine List.Pairwise.insertionSort_eq ?_
  have hkeys : (canonicalizeMembers p members).map Prod.fst = keys members := by
    clear h
    induction members with
    | nil => rfl
    | cons m ms ih =>
      obtain ⟨name, v⟩ := m
      rw [canonicalizeMembers, List.map_cons, ih]
      rfl
  rw [← hkeys] at h
  exact List.pairwise_map.mp h

mutual
/-- **The canonical text of a plain value spells it.** -/
theorem spells_canonicalize : ∀ {v : Json} {p : String} {bytes : List UInt8}, v.Plain →
    v.DistinctNames → canonicalize p v = .ok bytes → ∃ text, bytes = utf8 text ∧ v.Spells text
  | .null, _, _, _, _, h => ⟨"null".toList, (Except.ok.inj h).symm, rfl⟩
  | .bool b, _, _, _, _, h => ⟨(if b then "true" else "false").toList, by
      rw [← utf8Bytes_eq]
      exact (Except.ok.inj h).symm, rfl⟩
  | .string s, _, _, _, _, h => ⟨stringified s, (Except.ok.inj h).symm.trans (quoted_eq s), rfl⟩
  | .number (.integer n), _, _, hplain, _, h => by
    simp only [canonicalize, canonicalNumber, bind_eq_ok, failIf_eq_ok, exists_unit,
      pure_eq_ok] at h
    exact ⟨(toString n).toList, by rw [← utf8Bytes_eq]; exact h.2.symm, hplain, rfl⟩
  | .number (.fraction _), _, _, hplain, _, _ => hplain.elim
  | .number (.nonFinite _), _, _, hplain, _, _ => hplain.elim
  | .array items, p, bytes, hplain, hnames, h => by
    simp only [canonicalize, bind_eq_ok, pure_eq_ok] at h
    obtain ⟨parts, hparts, rfl⟩ := h
    obtain ⟨texts, rfl, htexts⟩ := spells_canonicalizeItems hplain hnames hparts
    rw [commaSeparated_utf8]
    cases htexts with
    | nil => exact ⟨['[', ']'], rfl, [], [']'], blank_nil, rfl, rfl⟩
    | cons hv hvs =>
      have hbody := spellsItems_separated blank_nil blank_nil (.cons hv hvs)
        (List.cons_ne_nil _ _)
      refine ⟨'[' :: ([] ++ _), ?_, [], _, blank_nil, hbody, rfl⟩
      rw [List.nil_append, utf8_cons '[', utf8_append]
      rfl
  | .object members, p, bytes, hplain, hnames, h => by
    simp only [canonicalize, bind_eq_ok, pure_eq_ok, mapM_eq_ok_iff,
      sorted_canonicalizeMembers hplain.2] at h
    obtain ⟨parts, hparts, rfl⟩ := h
    obtain ⟨texts, rfl, htexts⟩ := spells_canonicalizeMembers hplain.1 hnames.2 hparts
    rw [commaSeparated_utf8]
    cases htexts with
    | nil => exact ⟨['{', '}'], rfl, List.nodup_nil, [], ['}'], blank_nil, rfl, rfl⟩
    | cons hm hms =>
      have hbody := spellsMembers_separated blank_nil blank_nil blank_nil (.cons hm hms)
        (List.cons_ne_nil _ _)
      refine ⟨'{' :: ([] ++ _), ?_, hnames.1, [], _, blank_nil, hbody, rfl⟩
      rw [List.nil_append, utf8_cons '{', utf8_append]
      rfl

theorem spells_canonicalizeItems : ∀ {items : List Json} {p : String} {i : Nat}
    {parts : List (List UInt8)}, PlainItems items → DistinctNamesItems items →
    canonicalizeItems p i items = .ok parts →
    ∃ texts, parts = texts.map utf8 ∧ List.Forall₂ Spells items texts
  | [], _, _, _, _, _, h => ⟨[], (Except.ok.inj h).symm, .nil⟩
  | v :: vs, p, i, parts, hplain, hnames, h => by
    simp only [canonicalizeItems, bind_eq_ok, pure_eq_ok] at h
    obtain ⟨bytes, hbytes, rest, hrest, rfl⟩ := h
    obtain ⟨text, rfl, htext⟩ := spells_canonicalize hplain.1 hnames.1 hbytes
    obtain ⟨texts, rfl, htexts⟩ := spells_canonicalizeItems hplain.2 hnames.2 hrest
    exact ⟨text :: texts, rfl, .cons htext htexts⟩

theorem spells_canonicalizeMembers : ∀ {members : List (String × Json)} {p : String}
    {parts : List (List UInt8)}, PlainMembers members → DistinctNamesMembers members →
    List.Forall₂ (fun m part => ∃ t, m.2 = .ok t ∧ quoted m.1 ++ 58 :: t = part)
      (canonicalizeMembers p members) parts →
    ∃ texts, parts = texts.map utf8 ∧ List.Forall₂ (SpellsMember []) members texts
  | [], _, parts, _, _, h => by
    cases h
    exact ⟨[], rfl, .nil⟩
  | (name, v) :: ms, p, parts, hplain, hnames, h => by
    cases h with
    | cons hm hms =>
      obtain ⟨bytes, hbytes, rfl⟩ := hm
      obtain ⟨text, rfl, htext⟩ := spells_canonicalize hplain.1 hnames.1 hbytes
      obtain ⟨texts, rfl, htexts⟩ := spells_canonicalizeMembers hplain.2 hnames.2 hms
      refine ⟨(stringified name ++ ':' :: ([] ++ text)) :: texts, ?_,
        .cons ⟨text, htext, rfl⟩ htexts⟩
      rw [List.map_cons, quoted_eq, utf8_append, utf8_cons ':']
      rfl
end

/-! ## Lines -/

/-- The blanks in front of a line. -/
def lineGap (depth : Nat) : List Char := '\n' :: List.replicate (2 * depth) ' '

theorem blank_lineGap (depth : Nat) : Blank (lineGap depth) := by
  intro c hc
  obtain rfl | hc := List.mem_cons.mp hc
  · rfl
  · rw [List.eq_of_mem_replicate hc]
    rfl

/-! ## No NUL -/

/-- A text without the NUL character. -/
def NulFree (cs : List Char) : Prop := Char.ofNat 0 ∉ cs

theorem NulFree.append {as bs : List Char} (ha : NulFree as) (hb : NulFree bs) :
    NulFree (as ++ bs) :=
  fun h => (List.mem_append.mp h).elim ha hb

theorem NulFree.cons {c : Char} {cs : List Char} (hc : c ≠ Char.ofNat 0) (hcs : NulFree cs) :
    NulFree (c :: cs) :=
  fun h => (List.mem_cons.mp h).elim (fun heq => hc heq.symm) hcs

theorem NulFree.blank {cs : List Char} (h : Blank cs) : NulFree cs :=
  fun hmem => absurd (h _ hmem) (by decide)

theorem nulFree_escapeChar (c : Char) : NulFree (escapeChar c) := by
  obtain hlt | hge := Nat.lt_or_ge c.toNat 128
  · have hascii : ∀ n < 128, Char.ofNat 0 ∉ escapeChar (Char.ofNat n) := by
      decide +kernel
    have hc := hascii c.toNat hlt
    rwa [Char.ofNat_toNat] at hc
  · rw [escapeChar_of_le hge]
    refine NulFree.cons ?_ (List.not_mem_nil)
    rintro rfl
    exact absurd hge (by decide)

theorem nulFree_stringified (s : String) : NulFree (stringified s) := by
  refine NulFree.cons (by decide) (NulFree.append ?_ (NulFree.cons (by decide) List.not_mem_nil))
  intro h
  obtain ⟨c, -, hc⟩ := List.mem_flatMap.mp h
  exact nulFree_escapeChar c hc

theorem nulFree_toString (n : Int) : NulFree (toString n).toList := by
  rw [toList_toString_int]
  refine NulFree.append ?_ ?_
  · split
    · exact List.not_mem_nil
    · exact NulFree.cons (by decide) List.not_mem_nil
  · intro h
    exact absurd (isDigit_of_mem_toDigits h) (by decide)

/-- What stands behind an item or a member has no NUL when the rest has
none. -/
theorem nulFree_behind {α : Type} {close : Char} {more : List α} {behind : List Char}
    {P : List Char → Prop} (hclose : close ≠ Char.ofNat 0) (hrest : ∀ rest, P rest → NulFree rest)
    (h : more = [] ∧ behind = [close] ∨ more ≠ [] ∧ ∃ a rest, Blank a ∧ P rest
      ∧ behind = ',' :: (a ++ rest)) : NulFree behind := by
  obtain ⟨-, rfl⟩ | ⟨-, a, rest, ha, hp, rfl⟩ := h
  · exact NulFree.cons hclose List.not_mem_nil
  · exact NulFree.cons (by decide) (NulFree.append (NulFree.blank ha) (hrest rest hp))

mutual
/-- **No text of a value has a NUL.** -/
theorem nulFree_of_spells : ∀ {v : Json} {text : List Char}, v.Spells text → NulFree text
  | .null, _, h => by
    obtain rfl := h
    exact fun h => absurd h (by decide)
  | .bool true, _, h => by
    obtain rfl := h
    exact fun h => absurd h (by decide)
  | .bool false, _, h => by
    obtain rfl := h
    exact fun h => absurd h (by decide)
  | .string s, _, h => by
    obtain rfl := h
    exact nulFree_stringified s
  | .number (.integer n), _, h => by
    obtain ⟨-, rfl⟩ := h
    exact nulFree_toString n
  | .number (.fraction _), _, h => h.elim
  | .number (.nonFinite _), _, h => h.elim
  | .array _, _, h => by
    obtain ⟨a, body, ha, hbody, rfl⟩ := h
    exact NulFree.cons (by decide) (NulFree.append (NulFree.blank ha)
      (nulFree_of_spellsItems hbody))
  | .object _, _, h => by
    obtain ⟨-, a, body, ha, hbody, rfl⟩ := h
    exact NulFree.cons (by decide) (NulFree.append (NulFree.blank ha)
      (nulFree_of_spellsMembers hbody))

theorem nulFree_of_spellsItems : ∀ {items : List Json} {text : List Char},
    SpellsItems items text → NulFree text
  | [], _, h => by
    obtain rfl := h
    exact NulFree.cons (by decide) List.not_mem_nil
  | _ :: _, _, h => by
    obtain ⟨vtext, b, behind, hv, hb, rfl, hmore⟩ := h
    exact NulFree.append (nulFree_of_spells hv) (NulFree.append (NulFree.blank hb)
      (nulFree_behind (by decide) (fun _ hrest => nulFree_of_spellsItems hrest) hmore))

theorem nulFree_of_spellsMembers : ∀ {members : List (String × Json)} {text : List Char},
    SpellsMembers members text → NulFree text
  | [], _, h => by
    obtain rfl := h
    exact NulFree.cons (by decide) List.not_mem_nil
  | (name, _) :: _, _, h => by
    obtain ⟨b, c, vtext, d, behind, hb, hc, hv, hd, rfl, hmore⟩ := h
    exact NulFree.append (nulFree_stringified name) (NulFree.append (NulFree.blank hb)
      (NulFree.cons (by decide) (NulFree.append (NulFree.blank hc)
        (NulFree.append (nulFree_of_spells hv) (NulFree.append (NulFree.blank hd)
          (nulFree_behind (by decide) (fun _ hrest => nulFree_of_spellsMembers hrest) hmore))))))
end

/-! ## Reading back -/

/-- **A text spells one value.** -/
theorem spells_unique {v w : Json} {text : List Char} (hv : v.Spells text)
    (hw : w.Spells text) : v = w := by
  let n := v.height + w.height + v.nodeCount + w.nodeCount + 1
  let o : StrictJsonOptions :=
    { maximumDepth := n
      maximumNodes := n
      maximumObjectProperties := n
      maximumArrayItems := n }
  have hends : EndsNumeral ([] : List Char) := fun c hc => by cases hc
  have hreads : ∀ u : Json, u.Spells text → u.height + u.nodeCount + 1 ≤ n →
      Yields (value o (fun _ => .nonFinite "NaN") (2 * text.length) 1 ⟨0, 0, text⟩) u
        (0 + u.nodeCount) [] := by
    intro u hu hn
    refine value_of_spells (a := []) hu le_rfl blank_nil (by simp) hends ⟨?_, ?_⟩
      (narrow_of_nodeCount (show u.nodeCount ≤ n by omega))
    · show 1 + u.height ≤ n
      omega
    · show 0 + u.nodeCount ≤ n
      omega
  obtain ⟨i, hi⟩ := hreads v hv (by show _ ≤ v.height + w.height + _ + _ + 1; omega)
  obtain ⟨j, hj⟩ := hreads w hw (by show _ ≤ v.height + w.height + _ + _ + 1; omega)
  exact congrArg Prod.fst (Except.ok.inj (hi.symm.trans hj))

/-- **The canonical text of a plain value determines it.** -/
theorem canonicalJson_injective {v w : Json} {bytes : List UInt8} (hv : v.Plain)
    (hvnames : v.DistinctNames) (hw : w.Plain) (hwnames : w.DistinctNames)
    (h : canonicalJson v = .ok bytes) (h' : canonicalJson w = .ok bytes) : v = w := by
  obtain ⟨text, rfl, htext⟩ := spells_canonicalize hv hvnames h
  obtain ⟨text', hbytes, htext'⟩ := spells_canonicalize hw hwnames h'
  have hdecode := congrArg decodeUtf8 hbytes
  rw [decodeUtf8_utf8, decodeUtf8_utf8, Option.some.injEq] at hdecode
  obtain rfl := String.ofList_injective hdecode
  exact spells_unique htext htext'

variable {o : StrictJsonOptions} {number : String → JsNumber}

/-- The text some bytes encode is read into the value they spell. -/
theorem parse_of_spells {v : Json} {text b : List Char} (hlimits : Limits o)
    (hfits : FitsLimits o v) (hv : v.Spells text) (hb : Blank b)
    (hbytes : (utf8 (text ++ b)).length ≤ o.maximumBytes) :
    ∃ s, decodeUtf8 (utf8 (text ++ b)) = some s ∧ parseStrictJson number s o = .ok v := by
  refine ⟨String.ofList (text ++ b), decodeUtf8_utf8 _, ?_⟩
  refine parseStrictJson_of_spells hlimits hv hb hfits ?_
    (NulFree.append (nulFree_of_spells hv) (NulFree.blank hb))
  rw [byteLength, utf8Bytes_eq, String.toList_ofList]
  exact hbytes

/-- **The canonical text of a value is read back into it.** -/
theorem parseStrictJson_canonicalJson {v : Json} {bytes : List UInt8} (hlimits : Limits o)
    (hfits : FitsLimits o v) (hplain : v.Plain) (hnames : v.DistinctNames)
    (h : canonicalJson v = .ok bytes) (hbytes : bytes.length ≤ o.maximumBytes) :
    ∃ s, decodeUtf8 bytes = some s ∧ parseStrictJson number s o = .ok v := by
  obtain ⟨text, rfl, hv⟩ := spells_canonicalize hplain hnames h
  obtain ⟨s, hs, hread⟩ := parse_of_spells hlimits hfits hv blank_nil
    (by rw [List.append_nil]; exact hbytes)
  rw [List.append_nil] at hs
  exact ⟨s, hs, hread⟩

end Json

/-! ## What is read -/

namespace StrictJson

variable {o : StrictJsonOptions} {number : String → JsNumber}

/-- What a mapped computation returns was mapped. -/
theorem map_eq_ok {ε α β : Type} {f : α → β} {x : Except ε α} {b : β} :
    x.map f = .ok b ↔ ∃ a, x = .ok a ∧ f a = b := by
  cases x with
  | error e => simp [Except.map]
  | ok a => simp [Except.map]

mutual
/-- **No object the reader returns has a name twice.** -/
theorem distinctNames_of_value : ∀ {fuel depth : Nat} {s : Reading} {r : Json × Reading},
    value o number fuel depth s = .ok r → r.1.DistinctNames
  | 0, _, _, _, h => by
    rw [value] at h
    cases h
  | fuel + 1, depth, s, r, h => by
    simp only [value, bind_eq_ok, exists_unit] at h
    obtain ⟨-, -, h⟩ := h
    split at h
    · exact distinctNames_of_objectValue h
    split at h
    · exact distinctNames_of_arrayValue h
    split at h
    · obtain ⟨x, -, rfl⟩ := map_eq_ok.mp h
      trivial
    split at h
    · simp only [literal, bind_eq_ok, exists_unit, pure_eq_ok] at h
      obtain ⟨-, rfl⟩ := h
      trivial
    split at h
    · simp only [literal, bind_eq_ok, exists_unit, pure_eq_ok] at h
      obtain ⟨-, rfl⟩ := h
      trivial
    split at h
    · simp only [literal, bind_eq_ok, exists_unit, pure_eq_ok] at h
      obtain ⟨-, rfl⟩ := h
      trivial
    · simp only [numberValue, bind_eq_ok, pure_eq_ok] at h
      obtain ⟨_, -, _, -, rfl⟩ := h
      trivial

theorem distinctNames_of_arrayValue : ∀ {fuel depth : Nat} {s : Reading} {r : Json × Reading},
    arrayValue o number fuel depth s = .ok r → r.1.DistinctNames
  | 0, _, _, _, h => by
    rw [arrayValue] at h
    cases h
  | fuel + 1, depth, s, r, h => by
    rw [arrayValue] at h
    split at h
    · obtain rfl := Except.ok.inj h
      trivial
    · obtain ⟨x, hx, rfl⟩ := map_eq_ok.mp h
      exact distinctNames_of_arrayItems hx

theorem distinctNames_of_arrayItems : ∀ {fuel depth count : Nat} {s : Reading}
    {r : List Json × Reading}, arrayItems o number fuel depth count s = .ok r →
      DistinctNamesItems r.1
  | 0, _, _, _, _, h => by
    rw [arrayItems] at h
    cases h
  | fuel + 1, depth, count, s, r, h => by
    simp only [arrayItems, bind_eq_ok, exists_unit] at h
    obtain ⟨-, -, item, hitem, h⟩ := h
    have hfirst := distinctNames_of_value hitem
    split at h
    · obtain rfl := Except.ok.inj h
      exact ⟨hfirst, trivial⟩
    · simp only [bind_eq_ok, exists_unit, pure_eq_ok] at h
      obtain ⟨-, more, hmore, rfl⟩ := h
      exact ⟨hfirst, distinctNames_of_arrayItems hmore⟩

theorem distinctNames_of_objectValue : ∀ {fuel depth : Nat} {s : Reading} {r : Json × Reading},
    objectValue o number fuel depth s = .ok r → r.1.DistinctNames
  | 0, _, _, _, h => by
    rw [objectValue] at h
    cases h
  | fuel + 1, depth, s, r, h => by
    rw [objectValue] at h
    split at h
    · obtain rfl := Except.ok.inj h
      exact ⟨List.nodup_nil, trivial⟩
    · obtain ⟨x, hx, rfl⟩ := map_eq_ok.mp h
      obtain ⟨hnodup, hmembers⟩ := distinctNames_of_objectMembers List.nodup_nil hx
      exact ⟨hnodup, hmembers⟩

theorem distinctNames_of_objectMembers : ∀ {fuel depth : Nat} {keys : List String} {s : Reading}
    {r : JsonObject × Reading}, keys.Nodup → objectMembers o number fuel depth keys s = .ok r →
      (keys ++ Json.keys r.1).Nodup ∧ DistinctNamesMembers r.1
  | 0, _, _, _, _, _, h => by
    rw [objectMembers] at h
    cases h
  | fuel + 1, depth, keys, s, r, hkeys, h => by
    simp only [objectMembers, bind_eq_ok, failIf_eq_ok, exists_unit] at h
    obtain ⟨-, -, key, -, hfresh, -, v, hv, h⟩ := h
    have hvalue := distinctNames_of_value hv
    have hmore : (keys ++ [key.1]).Nodup := hkeys.append (List.nodup_singleton _)
      (List.disjoint_singleton.mpr hfresh)
    split at h
    · obtain rfl := Except.ok.inj h
      exact ⟨hmore, hvalue, trivial⟩
    · simp only [bind_eq_ok, failIf_eq_ok, exists_unit, pure_eq_ok] at h
      obtain ⟨-, more, hread, rfl⟩ := h
      obtain ⟨hnodup, hmembers⟩ := distinctNames_of_objectMembers hmore hread
      rw [List.append_assoc] at hnodup
      exact ⟨hnodup, hvalue, hmembers⟩
end

end StrictJson

/-- **No object of a value that is read has a name twice.** -/
theorem distinctNames_of_parseStrictJson {number : String → JsNumber} {text : String}
    {o : StrictJsonOptions} {v : Json} (h : parseStrictJson number text o = .ok v) :
    v.DistinctNames := by
  simp only [parseStrictJson, bind_eq_ok, exists_unit, pure_eq_ok] at h
  obtain ⟨-, -, -, r, hr, -, rfl⟩ := h
  exact distinctNames_of_value hr
