import Lifecycle.PlainPayloads
import Lifecycle.StrictJson
import Lifecycle.TextOrder

/-!
# What JSON text spells

The texts of a value (`Spells`): its tokens in their order, with any blanks
between them. The strict reader reads every text of a plain value within its
limits back into that value (`parseStrictJson_of_spells`), so two writers
that lay a value out differently are read alike.

A plain value keeps its members in canonical order; what is spelled here is
any order, with no name twice.
-/

open Fallible Json StrictJson

variable {o : StrictJsonOptions} {number : String → JsNumber}

namespace StrictJson

/-! ## Characters -/

/-- A text of blanks. -/
def Blank (cs : List Char) : Prop := ∀ c ∈ cs, isBlank c = true

theorem blank_nil : Blank [] := List.forall_mem_nil _

/-- A text the reader stops in front of when it skips blanks. -/
def Solid (cs : List Char) : Prop := ∀ c ∈ cs.head?, isBlank c = false

theorem takeWhile_of_all {α : Type} {p : α → Bool} {a rest : List α}
    (ha : ∀ c ∈ a, p c = true) (hrest : ∀ c ∈ rest.head?, p c = false) :
    (a ++ rest).takeWhile p = a := by
  induction a with
  | nil =>
    cases rest with
    | nil => rfl
    | cons c rest =>
      show (c :: rest).takeWhile p = []
      rw [List.takeWhile_cons_of_neg]
      rw [hrest c rfl]
      exact Bool.false_ne_true
  | cons b a ih =>
    show (b :: (a ++ rest)).takeWhile p = b :: a
    rw [List.takeWhile_cons_of_pos (ha b List.mem_cons_self),
      ih fun c hc => ha c (List.mem_cons_of_mem _ hc)]

theorem dropWhile_of_all {α : Type} {p : α → Bool} {a rest : List α}
    (ha : ∀ c ∈ a, p c = true) (hrest : ∀ c ∈ rest.head?, p c = false) :
    (a ++ rest).dropWhile p = rest := by
  have hall := List.takeWhile_append_dropWhile (p := p) (l := a ++ rest)
  rw [takeWhile_of_all ha hrest] at hall
  exact List.append_cancel_left hall

/-- **Blanks are skipped** up to the text behind them. -/
theorem Reading.blank_rest {s : Reading} {a rest : List Char} (h : s.rest = a ++ rest)
    (ha : Blank a) (hrest : Solid rest) :
    s.blank = { s with index := s.index + codeUnits a, rest := rest } := by
  rw [Reading.blank, Reading.past, h, takeWhile_of_all ha hrest, dropWhile_of_all ha hrest]

/-! ## Strings -/

/-- A simple escape is read as the code unit it stands for. -/
theorem stringUnits_escape {e : Char} {unit : Nat} (h : escapedUnit e = some unit) (he : e ≠ 'u')
    (index : Nat) (cs : List Char) : stringUnits o index ('\\' :: e :: cs)
      = (stringUnits o (index + 2) cs).map (Literal.cons [unit]) := by
  rw [stringUnits.eq_def]
  simp only [if_neg (show ('\\' : Char) ≠ '"' by decide), if_true, if_neg he, h]

/-- A character is written in a way its code units are read back from. -/
theorem stringUnits_escapeChar (c : Char) (index : Nat) (cs : List Char) :
    ∃ behind, stringUnits o index (escapeChar c ++ cs)
      = (stringUnits o behind cs).map (Literal.cons (utf16Units c)) := by
  have hunits : c.toNat < 65536 → utf16Units c = [c.toNat] := fun h => if_pos h
  unfold escapeChar
  split
  case h_1 h =>
    exact ⟨_, (stringUnits_escape rfl (by decide) index cs).trans (by rw [hunits (by omega), h])⟩
  case h_2 h =>
    exact ⟨_, (stringUnits_escape rfl (by decide) index cs).trans (by rw [hunits (by omega), h])⟩
  case h_3 h =>
    exact ⟨_, (stringUnits_escape rfl (by decide) index cs).trans (by rw [hunits (by omega), h])⟩
  case h_4 h =>
    exact ⟨_, (stringUnits_escape rfl (by decide) index cs).trans (by rw [hunits (by omega), h])⟩
  case h_5 h =>
    exact ⟨_, (stringUnits_escape rfl (by decide) index cs).trans (by rw [hunits (by omega), h])⟩
  case h_6 h =>
    exact ⟨_, (stringUnits_escape rfl (by decide) index cs).trans (by rw [hunits (by omega), h])⟩
  case h_7 h =>
    exact ⟨_, (stringUnits_escape rfl (by decide) index cs).trans (by rw [hunits (by omega), h])⟩
  case h_8 h34 h92 _ _ _ _ _ =>
    have hhex : ∀ n < 32, hexUnit '0' '0' (hexChar (n / 16)) (hexChar (n % 16)) = some n := by
      decide
    split
    · next hlow =>
      refine ⟨index + 6, ?_⟩
      rw [hunits (by omega), stringUnits.eq_def]
      simp only [List.cons_append, List.nil_append, if_neg (show ('\\' : Char) ≠ '"' by decide),
        if_true, hhex c.toNat hlow]
    · next hhigh =>
      refine ⟨index + (utf16Units c).length, ?_⟩
      have hquote : c ≠ '"' := fun h => h34 (congrArg Char.toNat h)
      have hslash : c ≠ '\\' := fun h => h92 (congrArg Char.toNat h)
      rw [stringUnits.eq_def]
      simp only [List.cons_append, List.nil_append, if_neg hquote, if_neg hslash,
        if_neg (show ¬ c.toNat ≤ 31 by omega)]

/-- **A written string is read back** into its code units. -/
theorem stringUnits_stringified (cs : List Char) (index : Nat) (rest : List Char) :
    ∃ behind, stringUnits o index (cs.flatMap escapeChar ++ '"' :: rest)
      = .ok ⟨cs.flatMap utf16Units, behind, rest⟩ := by
  induction cs generalizing index with
  | nil =>
    refine ⟨index + 1, ?_⟩
    rw [stringUnits.eq_def]
    rfl
  | cons c cs ih =>
    obtain ⟨next, hnext⟩ := stringUnits_escapeChar (o := o) c index
      (cs.flatMap escapeChar ++ '"' :: rest)
    obtain ⟨behind, hbehind⟩ := ih next
    refine ⟨behind, ?_⟩
    rw [List.flatMap_cons, List.append_assoc, hnext, hbehind]
    rfl

/-- **The code units of a text are decoded into it.** -/
theorem decodeUnits_utf16 (cs : List Char) : decodeUnits (cs.flatMap utf16Units) = some cs := by
  induction cs with
  | nil => rfl
  | cons c cs ih =>
    have hvalid := toNat_valid c
    rw [List.flatMap_cons, utf16Units]
    split
    · next hsmall =>
      rw [List.singleton_append, decodeUnits.eq_def]
      simp only [if_neg (show ¬ (55296 ≤ c.toNat ∧ c.toNat < 56320) by omega),
        if_neg (show ¬ (56320 ≤ c.toNat ∧ c.toNat < 57344) by omega), ih, Option.map_some,
        Char.ofNat_toNat]
    · next hlarge =>
      have hsame : 65536 + 1024 * (55296 + (c.toNat - 65536) / 1024 - 55296)
          + (56320 + (c.toNat - 65536) % 1024 - 56320) = c.toNat := by
        omega
      rw [List.cons_append, List.cons_append, List.nil_append, decodeUnits.eq_def]
      simp only
      rw [if_pos (by omega), if_pos (by omega), ih, hsame, Char.ofNat_toNat]
      rfl

theorem stringValue_stringified {s : Reading} {text : String} {rest : List Char}
    (h : s.rest = stringified text ++ rest) :
    ∃ index, stringValue o s = .ok (text, { s with index := index, rest := rest }) := by
  have htail : s.rest.tail = text.toList.flatMap escapeChar ++ '"' :: rest := by
    rw [h]
    simp [stringified]
  obtain ⟨index, hunits⟩ := stringUnits_stringified (o := o) text.toList (s.index + 1) rest
  refine ⟨index, ?_⟩
  have hhead : s.rest.head? = some '"' := by
    rw [h]
    rfl
  rw [stringValue, failIf_neg (not_not.mpr hhead), ok_bind, htail, hunits, ok_bind,
    decodeUnits_utf16]
  show Except.ok (String.ofList text.toList, _) = _
  rw [String.ofList_toList]

/-! ## Numbers -/

/-- What may stand behind a numeral without becoming a part of it. -/
def EndsNumeral (cs : List Char) : Prop :=
  ∀ c ∈ cs.head?, isDigit c = false ∧ c ≠ '.' ∧ c ≠ 'e' ∧ c ≠ 'E'

theorem isDigit_of_mem_toDigits {n : Nat} {c : Char} (h : c ∈ Nat.toDigits 10 n) :
    isDigit c = true := by
  have hdigit := Nat.isDigit_of_mem_toDigits (by omega) (by omega) h
  simp only [Char.isDigit, Bool.and_eq_true, decide_eq_true_eq] at hdigit
  simp only [isDigit, Bool.and_eq_true, decide_eq_true_eq]
  exact ⟨UInt32.le_iff_toNat_le.mp hdigit.1, UInt32.le_iff_toNat_le.mp hdigit.2⟩

/-- The decimal digits of a number but 0 do not begin with 0. -/
theorem head_toDigits {n : Nat} (hn : 0 < n) : (Nat.toDigits 10 n).head? ≠ some '0' := by
  induction n using Nat.strongRecOn with
  | _ n ih =>
    obtain hlt | hge := Nat.lt_or_ge n 10
    · rw [Nat.toDigits_of_lt_base hlt]
      have hdigits : ∀ d < 10, 0 < d → d.digitChar ≠ '0' := by decide
      intro h
      exact hdigits n hlt hn (Option.some.inj h)
    · rw [Nat.toDigits_of_base_le (by omega) hge]
      have hne : Nat.toDigits 10 (n / 10) ≠ [] := Nat.toDigits_ne_nil
      rw [List.head?_append_of_ne_nil _ hne]
      exact ih (n / 10) (by omega) (by omega)

theorem wholePart_toDigits {n : Nat} {rest : List Char}
    (hrest : ∀ c ∈ rest.head?, isDigit c = false) :
    wholePart (Nat.toDigits 10 n ++ rest) = some (Nat.toDigits 10 n, rest) := by
  obtain rfl | hpos := Nat.eq_zero_or_pos n
  · rfl
  · have hall : ∀ c ∈ Nat.toDigits 10 n, isDigit c = true := fun c => isDigit_of_mem_toDigits
    have hhead := head_toDigits hpos
    have hne : Nat.toDigits 10 n ≠ [] := Nat.toDigits_ne_nil
    generalize Nat.toDigits 10 n = digits at hall hhead hne
    cases digits with
    | nil => exact absurd rfl hne
    | cons d digits =>
      have hd : d ≠ '0' := fun h => hhead (congrArg some h)
      have hrest' : ∀ c ∈ digits, isDigit c = true :=
        fun c hc => hall c (List.mem_cons_of_mem _ hc)
      rw [List.cons_append, wholePart, if_neg hd, if_pos (hall d List.mem_cons_self),
        takeWhile_of_all hrest' hrest, dropWhile_of_all hrest' hrest]

theorem fractionPart_of_ends {rest : List Char} (h : EndsNumeral rest) :
    fractionPart rest = ([], rest) := by
  cases rest with
  | nil => rfl
  | cons c rest => exact if_neg fun hc => (h c rfl).2.1 hc.1

theorem exponentPart_of_ends {rest : List Char} (h : EndsNumeral rest) :
    exponentPart rest = ([], rest) := by
  cases rest with
  | nil => rfl
  | cons c rest => exact if_neg fun hc => hc.1.elim (h c rfl).2.2.1 (h c rfl).2.2.2

/-- The text of an integer: its sign and its digits. -/
theorem toList_toString_int (n : Int) : (toString n).toList
    = (if 0 ≤ n then [] else ['-']) ++ Nat.toDigits 10 n.natAbs := by
  cases n with
  | ofNat n =>
    rw [if_pos (show 0 ≤ Int.ofNat n from Int.natCast_nonneg n)]
    exact Nat.toList_repr
  | negSucc n =>
    rw [if_neg (Int.not_le.mpr (Int.negSucc_lt_zero n))]
    show ("-" ++ Nat.repr (n + 1)).toList = _
    rw [String.toList_append, Nat.toList_repr]
    rfl

/-- **The text of an integer is one numeral.** -/
theorem numeral_toString {n : Int} {rest : List Char} (h : EndsNumeral rest) :
    numeral ((toString n).toList ++ rest)
      = some ⟨if 0 ≤ n then [] else ['-'], Nat.toDigits 10 n.natAbs, [], rest⟩ := by
  have hwhole := wholePart_toDigits (n := n.natAbs) fun c hc => (h c hc).1
  rw [toList_toString_int]
  split
  · next hn =>
    have hsign : (Nat.toDigits 10 n.natAbs ++ rest).head? ≠ some '-' := by
      have hne : Nat.toDigits 10 n.natAbs ≠ [] := Nat.toDigits_ne_nil
      rw [List.head?_append_of_ne_nil _ hne]
      intro hhead
      have hdigit := isDigit_of_mem_toDigits (List.mem_of_mem_head? hhead)
      exact absurd hdigit (by decide)
    rw [List.nil_append, numeral, if_neg hsign]
    simp only [List.length_nil, List.drop_zero, hwhole, Option.map_some, fractionPart_of_ends h,
      exponentPart_of_ends h, List.append_nil]
  · rw [numeral, if_pos (show (['-'] ++ Nat.toDigits 10 n.natAbs ++ rest).head? = some '-' from rfl)]
    simp only [List.length_singleton, List.cons_append, List.nil_append, List.drop_succ_cons,
      List.drop_zero, hwhole, Option.map_some, fractionPart_of_ends h, exponentPart_of_ends h,
      List.append_nil]

theorem numberValue_toString {s : Reading} {n : Int} {rest : List Char}
    (hs : s.rest = (toString n).toList ++ rest) (hn : n.natAbs ≤ maxSafeInteger)
    (hrest : EndsNumeral rest) :
    ∃ index, numberValue o number s
      = .ok (.number (.integer n), { s with index := index, rest := rest }) := by
  refine ⟨(s.past ((if 0 ≤ n then [] else ['-']) ++ Nat.toDigits 10 n.natAbs ++ []) rest).index,
    ?_⟩
  have hfinite : ¬ firstInfinite ≤ n.natAbs := by
    have hlarge : maxSafeInteger < firstInfinite := by
      have hpos : 1 ≤ 2 ^ 970 := Nat.one_le_two_pow
      rw [maxSafeInteger, firstInfinite, show 1024 = 54 + 970 from rfl, Nat.pow_add]
      generalize 2 ^ 970 = x at hpos ⊢
      omega
    omega
  have hvalue : Numeral.value number ⟨if 0 ≤ n then [] else ['-'], Nat.toDigits 10 n.natAbs, [],
      rest⟩ = .integer n := by
    rw [Numeral.value, if_pos rfl, Nat.ofDigitChars_ten_toDigits, integerNumber,
      if_neg hfinite]
    congr 1
    by_cases hsign : 0 ≤ n
    · simp only [if_pos hsign, if_true]
      exact Int.natAbs_of_nonneg hsign
    · simp only [if_neg hsign, List.cons_ne_nil, if_false]
      omega
  rw [numberValue, hs, numeral_toString hrest]
  simp only [orFail, ok_bind, hvalue, admitNumber]
  rw [failIf_neg (by omega)]
  rfl

end StrictJson

/-! ## Values -/

namespace Json

mutual
/-- **The text spells the value.** -/
def Spells : Json → List Char → Prop
  | .null, t => t = "null".toList
  | .bool b, t => t = (if b then "true" else "false").toList
  | .string s, t => t = stringified s
  | .number (.integer n), t => n.natAbs ≤ maxSafeInteger ∧ t = (toString n).toList
  | .number _, _ => False
  | .array items, t => ∃ a body, Blank a ∧ SpellsItems items body ∧ t = '[' :: (a ++ body)
  | .object members, t => (keys members).Nodup
      ∧ ∃ a body, Blank a ∧ SpellsMembers members body ∧ t = '{' :: (a ++ body)

/-- The items of an array, and its closing bracket. -/
def SpellsItems : List Json → List Char → Prop
  | [], t => t = [']']
  | v :: vs, t => ∃ text b behind, Spells v text ∧ Blank b ∧ t = text ++ (b ++ behind)
      ∧ (vs = [] ∧ behind = [']']
        ∨ vs ≠ [] ∧ ∃ a more, Blank a ∧ SpellsItems vs more ∧ behind = ',' :: (a ++ more))

/-- The members of an object, and its closing brace. -/
def SpellsMembers : List (String × Json) → List Char → Prop
  | [], t => t = ['}']
  | (name, v) :: ms, t => ∃ b c text d behind, Blank b ∧ Blank c ∧ Spells v text ∧ Blank d
      ∧ t = stringified name ++ (b ++ ':' :: (c ++ (text ++ (d ++ behind))))
      ∧ (ms = [] ∧ behind = ['}']
        ∨ ms ≠ [] ∧ ∃ a more, Blank a ∧ SpellsMembers ms more ∧ behind = ',' :: (a ++ more))
end

mutual
/-- How many values the reader counts in a value. -/
def nodeCount : Json → Nat
  | .array items => nodeCountItems items + 1
  | .object members => nodeCountMembers members + 1
  | _ => 1

def nodeCountItems : List Json → Nat
  | [] => 0
  | v :: vs => nodeCount v + nodeCountItems vs

def nodeCountMembers : List (String × Json) → Nat
  | [] => 0
  | (_, v) :: ms => nodeCount v + nodeCountMembers ms
end

mutual
/-- No array of the value has more items, and no object more members, than
given. -/
def Narrow (items members : Nat) : Json → Prop
  | .array vs => vs.length ≤ items ∧ NarrowItems items members vs
  | .object ms => ms.length ≤ members ∧ NarrowMembers items members ms
  | _ => True

def NarrowItems (items members : Nat) : List Json → Prop
  | [] => True
  | v :: vs => Narrow items members v ∧ NarrowItems items members vs

def NarrowMembers (items members : Nat) : List (String × Json) → Prop
  | [] => True
  | (_, v) :: ms => Narrow items members v ∧ NarrowMembers items members ms
end

theorem narrowItems_of_forall {n m : Nat} {vs : List Json} (h : ∀ v ∈ vs, Narrow n m v) :
    NarrowItems n m vs := by
  induction vs with
  | nil => trivial
  | cons v vs ih =>
    exact ⟨h v List.mem_cons_self, ih fun w hw => h w (List.mem_cons_of_mem v hw)⟩

theorem nodeCount_pos (v : Json) : 0 < v.nodeCount := by
  cases v <;> simp [nodeCount]

theorem nodeCountItems_eq (items : List Json) :
    nodeCountItems items = (items.map nodeCount).sum := by
  induction items with
  | nil => rfl
  | cons item items ih => rw [nodeCountItems, ih, List.map_cons, List.sum_cons]

theorem nodeCountMembers_eq (members : List (String × Json)) :
    nodeCountMembers members = ((members.map Prod.snd).map nodeCount).sum := by
  induction members with
  | nil => rfl
  | cons m members ih =>
    rw [nodeCountMembers, ih, List.map_cons, List.map_cons, List.sum_cons]

theorem length_le_nodeCountItems (vs : List Json) : vs.length ≤ nodeCountItems vs := by
  induction vs with
  | nil => exact Nat.le_refl 0
  | cons v vs ih =>
    have hpos := nodeCount_pos v
    rw [List.length_cons, nodeCountItems]
    omega

theorem length_le_nodeCountMembers (ms : List (String × Json)) :
    ms.length ≤ nodeCountMembers ms := by
  induction ms with
  | nil => exact Nat.le_refl 0
  | cons m ms ih =>
    have hpos := nodeCount_pos m.2
    rw [List.length_cons, nodeCountMembers]
    omega

mutual
/-- A value is no wider than it has values. -/
theorem narrow_of_nodeCount {n : Nat} : ∀ {v : Json}, v.nodeCount ≤ n → v.Narrow n n
  | .null, _ | .bool _, _ | .number _, _ | .string _, _ => trivial
  | .array vs, h => by
    have hlength := length_le_nodeCountItems vs
    rw [nodeCount] at h
    exact ⟨by omega, narrowItems_of_nodeCount (by omega)⟩
  | .object ms, h => by
    have hlength := length_le_nodeCountMembers ms
    rw [nodeCount] at h
    exact ⟨by omega, narrowMembers_of_nodeCount (by omega)⟩

theorem narrowItems_of_nodeCount {n : Nat} : ∀ {vs : List Json}, nodeCountItems vs ≤ n →
    NarrowItems n n vs
  | [], _ => trivial
  | v :: vs, h => by
    rw [nodeCountItems] at h
    exact ⟨narrow_of_nodeCount (by omega), narrowItems_of_nodeCount (by omega)⟩

theorem narrowMembers_of_nodeCount {n : Nat} : ∀ {ms : List (String × Json)},
    nodeCountMembers ms ≤ n → NarrowMembers n n ms
  | [], _ => trivial
  | (_, v) :: ms, h => by
    rw [nodeCountMembers] at h
    exact ⟨narrow_of_nodeCount (by omega), narrowMembers_of_nodeCount (by omega)⟩
end

end Json

namespace StrictJson

/-- A character a value may begin with. -/
def Opens (c : Char) : Prop := isBlank c = false ∧ c ≠ ']' ∧ c ≠ '}'
deriving Decidable

/-- The characters a numeral begins with. -/
theorem head_toString (n : Int) : ∃ c cs, (toString n).toList = c :: cs
    ∧ (c = '-' ∨ isDigit c = true) := by
  rw [toList_toString_int]
  split
  · have hne : Nat.toDigits 10 n.natAbs ≠ [] := Nat.toDigits_ne_nil
    obtain ⟨c, cs, hcs⟩ := List.exists_cons_of_ne_nil hne
    refine ⟨c, cs, hcs, .inr ?_⟩
    exact isDigit_of_mem_toDigits (n := n.natAbs) (hcs ▸ List.mem_cons_self)
  · exact ⟨'-', Nat.toDigits 10 n.natAbs, rfl, .inl rfl⟩

/-- What begins a numeral begins nothing else. -/
theorem opens_of_numeral {c : Char} (h : c = '-' ∨ isDigit c = true) :
    Opens c ∧ ∀ d ∈ ['{', '[', '"', 't', 'f', 'n'], c ≠ d := by
  have hof : ∀ d : Char, isDigit d = false → d ≠ '-' → c ≠ d := by
    rintro d hdigit hminus rfl
    obtain h | h := h
    · exact hminus h
    · rw [hdigit] at h
      cases h
  refine ⟨⟨?_, hof ']' (by decide) (by decide), hof '}' (by decide) (by decide)⟩, ?_⟩
  · have htab := hof '\t' (by decide) (by decide)
    have hline := hof '\n' (by decide) (by decide)
    have hreturn := hof '\r' (by decide) (by decide)
    have hspace := hof ' ' (by decide) (by decide)
    simp [isBlank, htab, hline, hreturn, hspace]
  · simp only [List.mem_cons, List.not_mem_nil, or_false, forall_eq_or_imp, forall_eq]
    exact ⟨hof _ (by decide) (by decide), hof _ (by decide) (by decide),
      hof _ (by decide) (by decide), hof _ (by decide) (by decide),
      hof _ (by decide) (by decide), hof _ (by decide) (by decide)⟩

/-- **How the text of a value begins.** -/
theorem Spells.opens : ∀ {v : Json} {text : List Char}, v.Spells text →
    ∃ c cs, text = c :: cs ∧ Opens c
  | .null, _, h => ⟨'n', ['u', 'l', 'l'], h, by decide⟩
  | .bool true, _, h => ⟨'t', ['r', 'u', 'e'], h, by decide⟩
  | .bool false, _, h => ⟨'f', ['a', 'l', 's', 'e'], h, by decide⟩
  | .string _, _, h => ⟨'"', _, h, by decide⟩
  | .number (.integer n), _, h => by
    obtain ⟨c, cs, hcs, hc⟩ := head_toString n
    exact ⟨c, cs, h.2.trans hcs, (opens_of_numeral hc).1⟩
  | .number (.fraction _), _, h => h.elim
  | .number (.nonFinite _), _, h => h.elim
  | .array _, _, h => by
    obtain ⟨a, body, -, -, rfl⟩ := h
    exact ⟨'[', _, rfl, by decide⟩
  | .object _, _, h => by
    obtain ⟨-, a, body, -, -, rfl⟩ := h
    exact ⟨'{', _, rfl, by decide⟩

/-- **Room for what is still to be read**: `h` levels more, and `n` values
more behind `nodes` read. -/
structure Room (o : StrictJsonOptions) (depth nodes h n : Nat) : Prop where
  depth : depth + h ≤ o.maximumDepth
  nodes : nodes + n ≤ o.maximumNodes

/-- **What the reader makes of a text**: the value, and the rest behind it. -/
def Yields {α : Type} (r : Except FoundationError (α × Reading)) (v : α) (nodes : Nat)
    (rest : List Char) : Prop :=
  ∃ index, r = .ok (v, ⟨index, nodes, rest⟩)

/-- A token behind blanks is the token the reader looks at. -/
theorem value_dispatch {s : Reading} {a text rest : List Char} {c : Char} {cs : List Char}
    {fuel depth : Nat} {v : Json} {h n : Nat} (hs : s.rest = a ++ (text ++ rest))
    (ha : Blank a) (htext : text = c :: cs) (hc : Opens c) (hn : 0 < n)
    (hroom : Room o depth s.nodes h n) {nodes : Nat}
    (hread : ∀ start : Reading, start.rest = text ++ rest → start.nodes = s.nodes + 1 →
      Yields (if some c = some '{' then objectValue o number fuel depth start
        else if some c = some '[' then arrayValue o number fuel depth start
        else if some c = some '"' then (stringValue o start).map fun r => (.string r.1, r.2)
        else if some c = some 't' then literal o "true" (.bool true) start
        else if some c = some 'f' then literal o "false" (.bool false) start
        else if some c = some 'n' then literal o "null" .null start
        else numberValue o number start) v nodes rest) :
    Yields (value o number (fuel + 1) depth s) v nodes rest := by
  have hsolid : Solid (text ++ rest) := by
    intro d hd
    rw [htext] at hd
    obtain rfl := Option.some.inj hd
    exact hc.1
  have hroomNodes := hroom.nodes
  have hroomDepth := hroom.depth
  have hblank := s.blank_rest hs ha hsolid
  rw [value]
  simp only [hblank]
  rw [failIf_neg (by omega), ok_bind, failIf_neg (by omega), ok_bind]
  have hhead : (text ++ rest).head? = some c := by
    rw [htext]
    rfl
  rw [hhead]
  exact hread _ rfl rfl

theorem literal_yields {token : String} {v : Json} {s : Reading} {rest : List Char}
    (h : s.rest = token.toList ++ rest) : Yields (literal o token v s) v s.nodes rest := by
  refine ⟨s.index + codeUnits token.toList, ?_⟩
  have hstarts : token.toList <+: s.rest := ⟨rest, h.symm⟩
  rw [literal, failIf_neg (not_not.mpr hstarts), ok_bind, h, List.drop_left]
  rfl

theorem solid_of_opens {text rest : List Char} {c : Char} {cs : List Char} (h : text = c :: cs)
    (hc : Opens c) : Solid (text ++ rest) := by
  intro d hd
  rw [h] at hd
  obtain rfl := Option.some.inj hd
  exact hc.1

theorem solid_of_mark {c : Char} {cs : List Char} (hc : isBlank c = false) :
    Solid (c :: cs) := by
  intro d hd
  obtain rfl := Option.some.inj hd
  exact hc

/-- Blanks and a character of the syntax end a numeral. -/
theorem endsNumeral_blank {b behind : List Char} (hb : Blank b)
    (hbehind : ∃ c cs, behind = c :: cs ∧ (c = ',' ∨ c = ']' ∨ c = '}')) :
    EndsNumeral (b ++ behind) := by
  intro d hd
  cases b with
  | nil =>
    obtain ⟨c, cs, rfl, hc⟩ := hbehind
    obtain rfl := Option.some.inj hd
    obtain rfl | rfl | rfl := hc
    all_goals decide
  | cons c b =>
    obtain rfl := Option.some.inj hd
    have hblank := hb c List.mem_cons_self
    simp only [isBlank, Bool.or_eq_true, decide_eq_true_eq] at hblank
    obtain ((rfl | rfl) | rfl) | rfl := hblank
    all_goals decide

/-- What stands behind an item, or behind a member. -/
theorem behind_head {α : Type} {close : Char} {more : List α} {behind : List Char}
    {P : List Char → Prop} (hclose : close = ']' ∨ close = '}')
    (h : more = [] ∧ behind = [close] ∨ more ≠ [] ∧ ∃ a rest, Blank a ∧ P rest
      ∧ behind = ',' :: (a ++ rest)) (tail : List Char) :
    ∃ c cs, behind ++ tail = c :: cs ∧ (c = ',' ∨ c = ']' ∨ c = '}') := by
  obtain ⟨-, rfl⟩ | ⟨-, a, rest, -, -, rfl⟩ := h
  · exact ⟨close, tail, rfl, .inr hclose⟩
  · exact ⟨',', _, rfl, .inl rfl⟩

theorem length_behind {α : Type} {close : Char} {more : List α} {behind : List Char}
    {P : List Char → Prop}
    (h : more = [] ∧ behind = [close] ∨ more ≠ [] ∧ ∃ a rest, Blank a ∧ P rest
      ∧ behind = ',' :: (a ++ rest)) : 0 < behind.length := by
  obtain ⟨-, rfl⟩ | ⟨-, a, rest, -, -, rfl⟩ := h
  · exact Nat.one_pos
  · exact Nat.succ_pos _

theorem Spells.length_pos {v : Json} {text : List Char} (h : v.Spells text) :
    0 < text.length := by
  obtain ⟨c, cs, rfl, -⟩ := Spells.opens h
  exact Nat.succ_pos _

/-! ## The loops of the reader -/

/-- Behind its bracket an array is empty, or its loop reads it. -/
theorem arrayValue_nil {fuel depth : Nat} {s : Reading} {b rest : List Char}
    (hs : s.rest = '[' :: (b ++ ']' :: rest)) (hb : Blank b) :
    Yields (arrayValue o number (fuel + 1) depth s) (.array []) s.nodes rest := by
  have hblank : s.next.blank = ⟨s.index + 1 + codeUnits b, s.nodes, ']' :: rest⟩ :=
    Reading.blank_rest (congrArg List.tail hs) hb (solid_of_mark (by decide))
  refine ⟨s.index + 1 + codeUnits b + 1, ?_⟩
  rw [arrayValue]
  simp only [hblank]
  rfl

theorem arrayValue_items {fuel depth n : Nat} {s : Reading} {b body rest : List Char}
    {items : List Json} {c : Char} {cs : List Char} (hs : s.rest = '[' :: (b ++ body))
    (hb : Blank b) (hbody : body = c :: cs) (hc : Opens c)
    (hread : ∀ index, Yields (arrayItems o number fuel depth 0 ⟨index, s.nodes, body⟩) items n
      rest) :
    Yields (arrayValue o number (fuel + 1) depth s) (.array items) n rest := by
  have hblank : s.next.blank = ⟨s.index + 1 + codeUnits b, s.nodes, body⟩ :=
    Reading.blank_rest (congrArg List.tail hs) hb (hbody ▸ solid_of_mark hc.1)
  have hhead : body.head? ≠ some ']' := by
    rw [hbody]
    exact fun h => hc.2.1 (Option.some.inj h)
  obtain ⟨index, hindex⟩ := hread (s.index + 1 + codeUnits b)
  refine ⟨index, ?_⟩
  rw [arrayValue]
  simp only [hblank]
  rw [if_neg hhead, hindex]
  rfl

/-- The last item of an array. -/
theorem arrayItems_last {fuel depth count n : Nat} {s : Reading} {v : Json} {b rest : List Char}
    (hs : s.rest ≠ []) (hcount : count < o.maximumArrayItems) (hb : Blank b)
    (hread : Yields (value o number fuel (depth + 1) s) v n (b ++ ']' :: rest)) :
    Yields (arrayItems o number (fuel + 1) depth count s) [v] n rest := by
  obtain ⟨index, hread⟩ := hread
  have hskip : Reading.blank ⟨index, n, b ++ ']' :: rest⟩
      = ⟨index + codeUnits b, n, ']' :: rest⟩ :=
    Reading.blank_rest rfl hb (solid_of_mark (by decide))
  refine ⟨index + codeUnits b + 1, ?_⟩
  rw [arrayItems, failIf_neg hs, ok_bind, failIf_neg (by omega), ok_bind, hread, ok_bind]
  simp only [hskip]
  rfl

/-- An item with others behind it. -/
theorem arrayItems_more {fuel depth count n n' : Nat} {s : Reading} {v : Json} {vs : List Json}
    {b a more rest : List Char} (hs : s.rest ≠ []) (hcount : count < o.maximumArrayItems)
    (hb : Blank b) (ha : Blank a) (hmore : Solid more)
    (hread : Yields (value o number fuel (depth + 1) s) v n (b ++ ',' :: (a ++ more)))
    (hrest : ∀ index, Yields (arrayItems o number fuel depth (count + 1) ⟨index, n, more⟩) vs n'
      rest) :
    Yields (arrayItems o number (fuel + 1) depth count s) (v :: vs) n' rest := by
  obtain ⟨index, hread⟩ := hread
  have hskip : Reading.blank ⟨index, n, b ++ ',' :: (a ++ more)⟩
      = ⟨index + codeUnits b, n, ',' :: (a ++ more)⟩ :=
    Reading.blank_rest rfl hb (solid_of_mark (by decide))
  have hnext : (Reading.next ⟨index + codeUnits b, n, ',' :: (a ++ more)⟩).blank
      = ⟨index + codeUnits b + 1 + codeUnits a, n, more⟩ :=
    Reading.blank_rest rfl ha hmore
  obtain ⟨last, hlast⟩ := hrest (index + codeUnits b + 1 + codeUnits a)
  refine ⟨last, ?_⟩
  rw [arrayItems, failIf_neg hs, ok_bind, failIf_neg (by omega), ok_bind, hread, ok_bind]
  simp only [hskip]
  rw [if_neg (show ¬ (',' :: (a ++ more)).head? = some ']' from
      fun h => absurd (Option.some.inj h) (by decide)),
    failIf_neg (show ¬ (',' :: (a ++ more)).head? ≠ some ',' from not_not.mpr rfl), ok_bind]
  simp only [hnext]
  rw [hlast]
  rfl

theorem objectValue_nil {fuel depth : Nat} {s : Reading} {b rest : List Char}
    (hs : s.rest = '{' :: (b ++ '}' :: rest)) (hb : Blank b) :
    Yields (objectValue o number (fuel + 1) depth s) (.object []) s.nodes rest := by
  have hblank : s.next.blank = ⟨s.index + 1 + codeUnits b, s.nodes, '}' :: rest⟩ :=
    Reading.blank_rest (congrArg List.tail hs) hb (solid_of_mark (by decide))
  refine ⟨s.index + 1 + codeUnits b + 1, ?_⟩
  rw [objectValue]
  simp only [hblank]
  rfl

theorem objectValue_members {fuel depth n : Nat} {s : Reading} {b body rest : List Char}
    {members : JsonObject} {cs : List Char} (hs : s.rest = '{' :: (b ++ body)) (hb : Blank b)
    (hbody : body = '"' :: cs)
    (hread : ∀ index, Yields (objectMembers o number fuel depth [] ⟨index, s.nodes, body⟩)
      members n rest) :
    Yields (objectValue o number (fuel + 1) depth s) (.object members) n rest := by
  have hblank : s.next.blank = ⟨s.index + 1 + codeUnits b, s.nodes, body⟩ :=
    Reading.blank_rest (congrArg List.tail hs) hb (hbody ▸ solid_of_mark (by decide))
  have hhead : body.head? ≠ some '}' := by
    rw [hbody]
    exact fun h => absurd (Option.some.inj h) (by decide)
  obtain ⟨index, hindex⟩ := hread (s.index + 1 + codeUnits b)
  refine ⟨index, ?_⟩
  rw [objectValue]
  simp only [hblank]
  rw [if_neg hhead, hindex]
  rfl

/-- What the reader finds where a member stands: its name, a colon and its
value. -/
structure MemberRead (o : StrictJsonOptions) (number : String → JsNumber) (fuel depth : Nat)
    (keys : List String) (s : Reading) (name : String) (v : Json) (n : Nat) (rest : List Char) :
    Prop where
  key : ∃ b c text, s.rest = stringified name ++ (b ++ ':' :: (c ++ text)) ∧ Blank b ∧ Blank c
    ∧ Solid text ∧ ∀ index, Yields (value o number fuel (depth + 1) ⟨index, s.nodes, text⟩) v n
      rest
  fresh : name ∉ keys
  room : keys.length < o.maximumObjectProperties

/-- The last member of an object. -/
theorem objectMembers_last {fuel depth n : Nat} {keys : List String} {s : Reading}
    {name : String} {v : Json} {d rest : List Char} (hd : Blank d)
    (h : MemberRead o number fuel depth keys s name v n (d ++ '}' :: rest)) :
    Yields (objectMembers o number (fuel + 1) depth keys s) [(name, v)] n rest := by
  obtain ⟨⟨b, c, text, hs, hb, hc, htext, hread⟩, hfresh, hroom⟩ := h
  have hne : s.rest ≠ [] := by
    rw [hs]
    simp [stringified]
  obtain ⟨behind, hkey⟩ := stringValue_stringified (o := o) hs
  have hcolon : Reading.blank ⟨behind, s.nodes, b ++ ':' :: (c ++ text)⟩
      = ⟨behind + codeUnits b, s.nodes, ':' :: (c ++ text)⟩ :=
    Reading.blank_rest rfl hb (solid_of_mark (by decide))
  have hvalue : (Reading.next ⟨behind + codeUnits b, s.nodes, ':' :: (c ++ text)⟩).blank
      = ⟨behind + codeUnits b + 1 + codeUnits c, s.nodes, text⟩ :=
    Reading.blank_rest rfl hc htext
  obtain ⟨index, hread⟩ := hread (behind + codeUnits b + 1 + codeUnits c)
  have hskip : Reading.blank ⟨index, n, d ++ '}' :: rest⟩
      = ⟨index + codeUnits d, n, '}' :: rest⟩ :=
    Reading.blank_rest rfl hd (solid_of_mark (by decide))
  refine ⟨index + codeUnits d + 1, ?_⟩
  rw [objectMembers, failIf_neg hne, ok_bind, failIf_neg (by omega), ok_bind, hkey, ok_bind]
  simp only [hcolon]
  rw [failIf_neg hfresh, ok_bind,
    failIf_neg (show ¬ (':' :: (c ++ text)).head? ≠ some ':' from not_not.mpr rfl), ok_bind]
  simp only [hvalue]
  rw [hread, ok_bind]
  simp only [hskip]
  rfl

/-- A member with others behind it. -/
theorem objectMembers_more {fuel depth n n' : Nat} {keys : List String} {s : Reading}
    {name : String} {v : Json} {ms : JsonObject} {d a more rest : List Char} (hd : Blank d)
    (ha : Blank a) (hmore : Solid more)
    (h : MemberRead o number fuel depth keys s name v n (d ++ ',' :: (a ++ more)))
    (hrest : ∀ index, Yields (objectMembers o number fuel depth (keys ++ [name])
      ⟨index, n, more⟩) ms n' rest) :
    Yields (objectMembers o number (fuel + 1) depth keys s) ((name, v) :: ms) n' rest := by
  obtain ⟨⟨b, c, text, hs, hb, hc, htext, hread⟩, hfresh, hroom⟩ := h
  have hne : s.rest ≠ [] := by
    rw [hs]
    simp [stringified]
  obtain ⟨behind, hkey⟩ := stringValue_stringified (o := o) hs
  have hcolon : Reading.blank ⟨behind, s.nodes, b ++ ':' :: (c ++ text)⟩
      = ⟨behind + codeUnits b, s.nodes, ':' :: (c ++ text)⟩ :=
    Reading.blank_rest rfl hb (solid_of_mark (by decide))
  have hvalue : (Reading.next ⟨behind + codeUnits b, s.nodes, ':' :: (c ++ text)⟩).blank
      = ⟨behind + codeUnits b + 1 + codeUnits c, s.nodes, text⟩ :=
    Reading.blank_rest rfl hc htext
  obtain ⟨index, hread⟩ := hread (behind + codeUnits b + 1 + codeUnits c)
  have hskip : Reading.blank ⟨index, n, d ++ ',' :: (a ++ more)⟩
      = ⟨index + codeUnits d, n, ',' :: (a ++ more)⟩ :=
    Reading.blank_rest rfl hd (solid_of_mark (by decide))
  have hnext : (Reading.next ⟨index + codeUnits d, n, ',' :: (a ++ more)⟩).blank
      = ⟨index + codeUnits d + 1 + codeUnits a, n, more⟩ :=
    Reading.blank_rest rfl ha hmore
  obtain ⟨last, hlast⟩ := hrest (index + codeUnits d + 1 + codeUnits a)
  refine ⟨last, ?_⟩
  rw [objectMembers, failIf_neg hne, ok_bind, failIf_neg (by omega), ok_bind, hkey, ok_bind]
  simp only [hcolon]
  rw [failIf_neg hfresh, ok_bind,
    failIf_neg (show ¬ (':' :: (c ++ text)).head? ≠ some ':' from not_not.mpr rfl), ok_bind]
  simp only [hvalue]
  rw [hread, ok_bind]
  simp only [hskip]
  rw [if_neg (show ¬ (',' :: (a ++ more)).head? = some '}' from
      fun h => absurd (Option.some.inj h) (by decide)),
    failIf_neg (show ¬ (',' :: (a ++ more)).head? ≠ some ',' from not_not.mpr rfl), ok_bind]
  simp only [hnext]
  rw [hlast]
  rfl

/-! ## Every text is read -/

theorem SpellsItems.opens {v : Json} {vs : List Json} {text : List Char}
    (h : SpellsItems (v :: vs) text) (rest : List Char) :
    ∃ c cs, text ++ rest = c :: cs ∧ Opens c := by
  obtain ⟨vtext, b, behind, hv, -, rfl, -⟩ := h
  obtain ⟨c, cs, rfl, hc⟩ := Spells.opens hv
  exact ⟨c, _, rfl, hc⟩

theorem SpellsMembers.opens {m : String × Json} {ms : List (String × Json)} {text : List Char}
    (h : SpellsMembers (m :: ms) text) (rest : List Char) : ∃ cs, text ++ rest = '"' :: cs := by
  obtain ⟨b, c, vtext, d, behind, -, -, -, -, rfl, -⟩ := h
  exact ⟨_, rfl⟩

/-- Room for a value is room for what is in it. -/
theorem Room.inner {depth nodes nodes' h n h' n' : Nat} (hroom : Room o depth nodes h n)
    (hdepth : h' ≤ h) (hnodes : nodes' + n' ≤ nodes + n) : Room o depth nodes' h' n' where
  depth := (Nat.add_le_add_left hdepth depth).trans hroom.depth
  nodes := hnodes.trans hroom.nodes

/-- Room for a nesting is room one level down. -/
theorem Room.down {depth nodes nodes' h n n' : Nat} (hroom : Room o depth nodes (h + 1) n)
    (hnodes : nodes' + n' = nodes + n) : Room o (depth + 1) nodes' h n' where
  depth := (Nat.add_right_comm depth 1 h).trans_le hroom.depth
  nodes := hnodes.trans_le hroom.nodes

mutual
/-- **Every text of a value is read into it**, where there is room. -/
theorem value_of_spells : ∀ {v : Json} {text : List Char}, v.Spells text →
    ∀ {fuel depth : Nat} {s : Reading} {a rest : List Char}, 2 * text.length ≤ fuel → Blank a →
      s.rest = a ++ (text ++ rest) → EndsNumeral rest →
      Room o depth s.nodes v.height v.nodeCount →
      v.Narrow o.maximumArrayItems o.maximumObjectProperties →
      Yields (value o number fuel depth s) v (s.nodes + v.nodeCount) rest
  | .null, text, h, fuel, depth, s, a, rest, hfuel, ha, hs, _, hroom, hnarrow => by
    obtain rfl : text = "null".toList := h
    obtain ⟨fuel, rfl⟩ : ∃ n, fuel = n + 1 := ⟨fuel - 1, by simp at hfuel; omega⟩
    refine value_dispatch hs ha rfl (by decide) (nodeCount_pos _) hroom fun start hstart hnodes => ?_
    rw [show s.nodes + nodeCount .null = start.nodes from hnodes.symm]
    exact literal_yields hstart
  | .bool true, text, h, fuel, depth, s, a, rest, hfuel, ha, hs, _, hroom, hnarrow => by
    obtain rfl : text = "true".toList := h
    obtain ⟨fuel, rfl⟩ : ∃ n, fuel = n + 1 := ⟨fuel - 1, by simp at hfuel; omega⟩
    refine value_dispatch hs ha rfl (by decide) (nodeCount_pos _) hroom fun start hstart hnodes => ?_
    rw [show s.nodes + nodeCount (.bool true) = start.nodes from hnodes.symm]
    exact literal_yields hstart
  | .bool false, text, h, fuel, depth, s, a, rest, hfuel, ha, hs, _, hroom, hnarrow => by
    obtain rfl : text = "false".toList := h
    obtain ⟨fuel, rfl⟩ : ∃ n, fuel = n + 1 := ⟨fuel - 1, by simp at hfuel; omega⟩
    refine value_dispatch hs ha rfl (by decide) (nodeCount_pos _) hroom fun start hstart hnodes => ?_
    rw [show s.nodes + nodeCount (.bool false) = start.nodes from hnodes.symm]
    exact literal_yields hstart
  | .string x, text, h, fuel, depth, s, a, rest, hfuel, ha, hs, _, hroom, hnarrow => by
    obtain rfl : text = stringified x := h
    obtain ⟨fuel, rfl⟩ : ∃ n, fuel = n + 1 := ⟨fuel - 1, by simp [stringified] at hfuel; omega⟩
    refine value_dispatch hs ha rfl (by decide) (nodeCount_pos _) hroom fun start hstart hnodes => ?_
    obtain ⟨index, hread⟩ := stringValue_stringified (o := o) hstart
    refine ⟨index, ?_⟩
    show (stringValue o start).map _ = _
    rw [hread, show s.nodes + nodeCount (.string x) = start.nodes from hnodes.symm]
    rfl
  | .number (.integer n), text, h, fuel, depth, s, a, rest, hfuel, ha, hs, hrest, hroom, hnarrow => by
    obtain ⟨hn, rfl⟩ := h
    obtain ⟨c, cs, hcs, hc⟩ := head_toString n
    obtain ⟨hopens, hother⟩ := opens_of_numeral hc
    obtain ⟨fuel, rfl⟩ : ∃ n, fuel = n + 1 := ⟨fuel - 1, by rw [hcs] at hfuel; simp at hfuel; omega⟩
    refine value_dispatch hs ha hcs hopens (nodeCount_pos _) hroom fun start hstart hnodes => ?_
    have hne : ∀ d ∈ ['{', '[', '"', 't', 'f', 'n'], some c ≠ some d :=
      fun d hd heq => hother d hd (Option.some.inj heq)
    rw [if_neg (hne '{' (by decide)), if_neg (hne '[' (by decide)), if_neg (hne '"' (by decide)),
      if_neg (hne 't' (by decide)), if_neg (hne 'f' (by decide)), if_neg (hne 'n' (by decide)),
      show s.nodes + nodeCount (.number (.integer n)) = start.nodes from hnodes.symm]
    exact numberValue_toString hstart hn hrest
  | .number (.fraction _), _, h, _, _, _, _, _, _, _, _, _, _, _ => h.elim
  | .number (.nonFinite _), _, h, _, _, _, _, _, _, _, _, _, _, _ => h.elim
  | .array [], text, h, fuel, depth, s, a, rest, hfuel, ha, hs, _, hroom, hnarrow => by
    obtain ⟨b, body, hb, hbody, rfl⟩ := h
    obtain rfl : body = [']'] := hbody
    obtain ⟨fuel, rfl⟩ : ∃ n, fuel = n + 2 := ⟨fuel - 2, by simp at hfuel; omega⟩
    refine value_dispatch hs ha rfl (by decide) (nodeCount_pos _) hroom fun start hstart hnodes => ?_
    rw [show s.nodes + nodeCount (.array []) = start.nodes from hnodes.symm]
    exact arrayValue_nil (by rw [hstart]; simp) hb
  | .array (v :: vs), text, h, fuel, depth, s, a, rest, hfuel, ha, hs, _, hroom, hnarrow => by
    obtain ⟨b, body, hb, hbody, rfl⟩ := h
    obtain ⟨fuel, rfl⟩ : ∃ n, fuel = n + 2 := ⟨fuel - 2, by simp at hfuel; omega⟩
    refine value_dispatch hs ha rfl (by decide) (nodeCount_pos _) hroom fun start hstart hnodes => ?_
    obtain ⟨c, cs, hcs, hc⟩ := SpellsItems.opens hbody rest
    have hinner : Room o (depth + 1) start.nodes (heightItems (v :: vs))
        (nodeCountItems (v :: vs)) :=
      hroom.down (by rw [hnodes, nodeCount]; omega)
    rw [Narrow] at hnarrow
    rw [show s.nodes + nodeCount (.array (v :: vs)) = start.nodes + nodeCountItems (v :: vs) by
      rw [hnodes, nodeCount]; omega]
    exact arrayValue_items (by rw [hstart]; simp) hb hcs hc fun index =>
      arrayItems_of_spells hbody (List.cons_ne_nil v vs) (by simp at hfuel; omega) rfl hinner
        ((Nat.zero_add _).trans_le hnarrow.1) hnarrow.2
  | .object [], text, h, fuel, depth, s, a, rest, hfuel, ha, hs, _, hroom, hnarrow => by
    obtain ⟨-, b, body, hb, hbody, rfl⟩ := h
    obtain rfl : body = ['}'] := hbody
    obtain ⟨fuel, rfl⟩ : ∃ n, fuel = n + 2 := ⟨fuel - 2, by simp at hfuel; omega⟩
    refine value_dispatch hs ha rfl (by decide) (nodeCount_pos _) hroom fun start hstart hnodes => ?_
    rw [show s.nodes + nodeCount (.object []) = start.nodes from hnodes.symm]
    exact objectValue_nil (by rw [hstart]; simp) hb
  | .object (m :: ms), text, h, fuel, depth, s, a, rest, hfuel, ha, hs, _, hroom, hnarrow => by
    obtain ⟨hnodup, b, body, hb, hbody, rfl⟩ := h
    obtain ⟨fuel, rfl⟩ : ∃ n, fuel = n + 2 := ⟨fuel - 2, by simp at hfuel; omega⟩
    refine value_dispatch hs ha rfl (by decide) (nodeCount_pos _) hroom fun start hstart hnodes => ?_
    obtain ⟨cs, hcs⟩ := SpellsMembers.opens hbody rest
    have hinner : Room o (depth + 1) start.nodes (heightMembers (m :: ms))
        (nodeCountMembers (m :: ms)) :=
      hroom.down (by rw [hnodes, nodeCount]; omega)
    rw [Narrow] at hnarrow
    rw [show s.nodes + nodeCount (.object (m :: ms)) = start.nodes + nodeCountMembers (m :: ms) by
      rw [hnodes, nodeCount]; omega]
    exact objectValue_members (by rw [hstart]; simp) hb hcs fun index =>
      objectMembers_of_spells hbody (List.cons_ne_nil m ms) hnodup (by simp at hfuel; omega) rfl
        hinner ((Nat.zero_add _).trans_le hnarrow.1) hnarrow.2

theorem arrayItems_of_spells : ∀ {items : List Json} {text : List Char},
    SpellsItems items text → items ≠ [] →
    ∀ {fuel depth count : Nat} {s : Reading} {rest : List Char}, 2 * text.length ≤ fuel →
      s.rest = text ++ rest →
      Room o (depth + 1) s.nodes (heightItems items) (nodeCountItems items) →
      count + items.length ≤ o.maximumArrayItems →
      NarrowItems o.maximumArrayItems o.maximumObjectProperties items →
      Yields (arrayItems o number fuel depth count s) items (s.nodes + nodeCountItems items) rest
  | [], _, _, hne, _, _, _, _, _, _, _, _, _, _ => absurd rfl hne
  | v :: vs, text, h, _, fuel, depth, count, s, rest, hfuel, hs, hroom, hcount, hnarrow => by
    obtain ⟨c, cs, hcs, -⟩ := SpellsItems.opens h rest
    obtain ⟨vtext, b, behind, hv, hb, rfl, hmore⟩ := h
    have hpos := Spells.length_pos hv
    have hlast := length_behind hmore
    simp only [nodeCountItems, heightItems] at hroom
    simp only [List.length_append] at hfuel
    rw [List.length_cons] at hcount
    rw [NarrowItems] at hnarrow
    obtain ⟨fuel, rfl⟩ : ∃ n, fuel = n + 1 := ⟨fuel - 1, by omega⟩
    have hrest : s.rest ≠ [] := by
      rw [hs, hcs]
      exact List.cons_ne_nil c cs
    have hread : Yields (value o number fuel (depth + 1) s) v (s.nodes + nodeCount v)
        (b ++ (behind ++ rest)) :=
      value_of_spells hv (by omega) blank_nil (by rw [hs]; simp)
        (endsNumeral_blank hb (behind_head (.inl rfl) hmore rest))
        (hroom.inner (le_max_left _ _) (by omega)) hnarrow.1
    obtain ⟨rfl, rfl⟩ | ⟨hvs, a, more, ha, hspells, rfl⟩ := hmore
    · exact arrayItems_last hrest (by omega) hb hread
    · obtain ⟨w, ws, rfl⟩ := List.exists_cons_of_ne_nil hvs
      obtain ⟨d, ds, hds, hd⟩ := SpellsItems.opens hspells rest
      rw [List.cons_append, List.append_assoc] at hread
      rw [nodeCountItems.eq_2 v, ← Nat.add_assoc]
      exact arrayItems_more hrest (by omega) hb ha (hds ▸ solid_of_mark hd.1) hread fun index =>
        arrayItems_of_spells hspells hvs (by simp at hfuel; omega) rfl
          (hroom.inner (le_max_right _ _) (by show s.nodes + _ + _ ≤ _; omega)) (by omega)
          hnarrow.2

theorem objectMembers_of_spells : ∀ {members : List (String × Json)} {text : List Char},
    SpellsMembers members text → members ≠ [] →
    ∀ {fuel depth : Nat} {keys : List String} {s : Reading} {rest : List Char},
      (keys ++ Json.keys members).Nodup → 2 * text.length ≤ fuel → s.rest = text ++ rest →
      Room o (depth + 1) s.nodes (heightMembers members) (nodeCountMembers members) →
      keys.length + members.length ≤ o.maximumObjectProperties →
      NarrowMembers o.maximumArrayItems o.maximumObjectProperties members →
      Yields (objectMembers o number fuel depth keys s) members
        (s.nodes + nodeCountMembers members) rest
  | [], _, _, hne, _, _, _, _, _, _, _, _, _, _, _ => absurd rfl hne
  | (name, v) :: ms, text, h, _, fuel, depth, keys, s, rest, hnodup, hfuel, hs, hroom, hcount,
      hnarrow => by
    obtain ⟨b, c, vtext, d, behind, hb, hc, hv, hd, rfl, hmore⟩ := h
    have hpos := Spells.length_pos hv
    have hlast := length_behind hmore
    simp only [nodeCountMembers, heightMembers] at hroom
    simp only [List.length_append, List.length_cons] at hfuel
    rw [List.length_cons] at hcount
    rw [NarrowMembers] at hnarrow
    obtain ⟨fuel, rfl⟩ : ∃ n, fuel = n + 1 := ⟨fuel - 1, by omega⟩
    have hfresh : name ∉ keys :=
      fun hmem => (List.nodup_append.mp hnodup).2.2 name hmem name List.mem_cons_self rfl
    obtain ⟨e, es, he, hopens⟩ := Spells.opens hv
    have hread : MemberRead o number fuel depth keys s name v (s.nodes + nodeCount v)
        (d ++ (behind ++ rest)) := by
      refine ⟨⟨b, c, vtext ++ (d ++ (behind ++ rest)), by rw [hs]; simp, hb, hc,
        solid_of_opens he hopens, fun index => ?_⟩, hfresh, by omega⟩
      exact value_of_spells hv (by omega) blank_nil rfl
        (endsNumeral_blank hd (behind_head (.inr rfl) hmore rest))
        (hroom.inner (le_max_left _ _) (by show s.nodes + _ ≤ _; omega)) hnarrow.1
    obtain ⟨rfl, rfl⟩ | ⟨hms, a, more, ha, hspells, rfl⟩ := hmore
    · exact objectMembers_last hd hread
    · obtain ⟨m, ms, rfl⟩ := List.exists_cons_of_ne_nil hms
      obtain ⟨ds, hds⟩ := SpellsMembers.opens hspells rest
      rw [List.cons_append, List.append_assoc] at hread
      have hnodup' : ((keys ++ [name]) ++ Json.keys (m :: ms)).Nodup := by
        rw [List.append_assoc]
        exact hnodup
      rw [nodeCountMembers.eq_2 name v, ← Nat.add_assoc]
      exact objectMembers_more hd ha (hds ▸ solid_of_mark (by decide)) hread fun index =>
        objectMembers_of_spells hspells hms hnodup' (by simp at hfuel; omega) rfl
          (hroom.inner (le_max_right _ _) (by show s.nodes + _ + _ ≤ _; omega))
          (by rw [List.length_append, List.length_singleton]; omega) hnarrow.2
end

end StrictJson

/-! ## Texts -/

namespace StrictJson

/-- The options of the source are limits the reader admits. -/
structure Limits (o : StrictJsonOptions) : Prop where
  bytes : 1 ≤ o.maximumBytes ∧ o.maximumBytes ≤ maxSafeInteger
  depth : 1 ≤ o.maximumDepth ∧ o.maximumDepth ≤ maxSafeInteger
  nodes : 1 ≤ o.maximumNodes ∧ o.maximumNodes ≤ maxSafeInteger
  properties : 1 ≤ o.maximumObjectProperties ∧ o.maximumObjectProperties ≤ maxSafeInteger
  items : 1 ≤ o.maximumArrayItems ∧ o.maximumArrayItems ≤ maxSafeInteger

theorem Limits.checked (h : Limits o) : checkLimits o = .ok () := by
  obtain ⟨hbytes, hdepth, hnodes, hproperties, hitems⟩ := h
  simp only [checkLimits, List.forM_eq_forM, List.forM_cons, List.forM_nil, bind_eq_ok,
    failIf_eq_ok, exists_unit, pure_eq_ok]
  refine ⟨?_, ?_, ?_, ?_, ?_, trivial⟩
  all_goals omega

/-- A value that fits the limits of the reader, whatever its text. -/
structure FitsLimits (o : StrictJsonOptions) (v : Json) : Prop where
  depth : v.height + 1 ≤ o.maximumDepth
  nodes : v.nodeCount ≤ o.maximumNodes
  narrow : v.Narrow o.maximumArrayItems o.maximumObjectProperties

end StrictJson

/-- **A text is read into the value it spells**, within the limits; blanks
may stand behind it. -/
theorem parseStrictJson_of_spells {v : Json} {text b : List Char} (hlimits : Limits o)
    (hv : v.Spells text) (hb : Blank b) (hfits : FitsLimits o v)
    (hbytes : byteLength (String.ofList (text ++ b)) ≤ o.maximumBytes)
    (hnul : Char.ofNat 0 ∉ text ++ b) :
    parseStrictJson number (String.ofList (text ++ b)) o = .ok v := by
  have hends : EndsNumeral b := by
    cases b with
    | nil => exact fun c hc => by cases hc
    | cons c b =>
      have hblank : EndsNumeral ([c] ++ [',']) := endsNumeral_blank
        (fun d hd => hb d (by rw [List.mem_singleton.mp hd]; exact List.mem_cons_self))
        ⟨',', [], rfl, .inl rfl⟩
      exact fun d hd => hblank d hd
  obtain ⟨index, hread⟩ : Yields (value o number
      (2 * (String.ofList (text ++ b)).toList.length + 2) 1
      ⟨0, 0, (String.ofList (text ++ b)).toList⟩) v (0 + v.nodeCount) b :=
    value_of_spells (a := []) hv (by simp; omega) blank_nil (by simp) hends
      ⟨by have := hfits.depth; omega, by have := hfits.nodes; show 0 + _ ≤ _; omega⟩
      hfits.narrow
  have hskip : Reading.blank ⟨index, 0 + v.nodeCount, b⟩
      = ⟨index + codeUnits b, 0 + v.nodeCount, []⟩ :=
    Reading.blank_rest (List.append_nil b).symm hb fun c hc => by cases hc
  have hnone : Char.ofNat 0 ∉ (String.ofList (text ++ b)).toList := by
    rw [String.toList_ofList]
    exact hnul
  simp only [parseStrictJson, hlimits.checked, ok_bind]
  rw [failIf_neg (by omega), ok_bind, failIf_neg hnone, ok_bind, hread, ok_bind]
  simp only [hskip]
  rw [failIf_neg (not_not.mpr rfl), ok_bind]
  rfl
