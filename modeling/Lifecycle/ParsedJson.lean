import Lifecycle.JsonWriters

/-!
# `JSON.parse`

What `JSON.parse` makes of a text: the tokens are those of the strict
reader, but nothing is limited and a repeated member name keeps its last
value. A text that spells an unpaired surrogate has no value here, since a
text is a sequence of scalar values.

A record of texts is read back from what `JSON.stringify` writes of it
(`parseJson_stringifyTexts`).
-/

open Json StrictJson

namespace Json

/-- What an object literal makes of one more member. -/
def define (members : JsonObject) (name : String) (v : Json) : JsonObject :=
  if name ∈ keys members then members.map fun m => if m.1 = name then (name, v) else m
  else members ++ [(name, v)]

/-- A reader without limits at the front of some text. -/
def front (cs : List Char) : Reading := ⟨0, 0, cs.dropWhile isBlank⟩

/-- A string literal and the text behind it. -/
def parseText (cs : List Char) : Option (String × List Char) :=
  (stringValue {} (front cs)).toOption.map fun r => (r.1, r.2.rest)

/-- A word of the syntax and the text behind it. -/
def parseWord (token : String) (v : Json) (cs : List Char) : Option (Json × List Char) :=
  if token.toList <+: cs then some (v, cs.drop token.toList.length) else none

mutual
/-- The value the text goes on with, and the text behind it. -/
def parseValue (number : String → JsNumber) : Nat → List Char → Option (Json × List Char)
  | 0, _ => none
  | fuel + 1, text =>
    let cs := text.dropWhile isBlank
    let token := cs.head?
    if token = some '{' then
      let inner := cs.tail.dropWhile isBlank
      if inner.head? = some '}' then some (.object [], inner.tail)
      else (parseMembers number fuel [] inner).map fun r => (.object r.1, r.2)
    else if token = some '[' then
      let inner := cs.tail.dropWhile isBlank
      if inner.head? = some ']' then some (.array [], inner.tail)
      else (parseItems number fuel inner).map fun r => (.array r.1, r.2)
    else if token = some '"' then (parseText cs).map fun r => (.string r.1, r.2)
    else if token = some 't' then parseWord "true" (.bool true) cs
    else if token = some 'f' then parseWord "false" (.bool false) cs
    else if token = some 'n' then parseWord "null" .null cs
    else (numeral cs).map fun n => (.number (n.value number), n.rest)

/-- The items of an array, up to its bracket. -/
def parseItems (number : String → JsNumber) : Nat → List Char → Option (List Json × List Char)
  | 0, _ => none
  | fuel + 1, cs => do
    let r ← parseValue number fuel cs
    let behind := r.2.dropWhile isBlank
    if behind.head? = some ']' then some ([r.1], behind.tail)
    else if behind.head? = some ',' then
      (parseItems number fuel behind.tail).map fun more => (r.1 :: more.1, more.2)
    else none

/-- The members of an object, up to its brace, some of them read. -/
def parseMembers (number : String → JsNumber) :
    Nat → JsonObject → List Char → Option (JsonObject × List Char)
  | 0, _, _ => none
  | fuel + 1, members, cs => do
    let key ← parseText cs
    let colon := key.2.dropWhile isBlank
    let r ← if colon.head? = some ':' then parseValue number fuel colon.tail else none
    let behind := r.2.dropWhile isBlank
    if behind.head? = some '}' then some (define members key.1 r.1, behind.tail)
    else if behind.head? = some ',' then
      parseMembers number fuel (define members key.1 r.1) behind.tail
    else none
end

end Json

/-- **`JSON.parse`**, where `number` is what `Number` makes of a numeral with
a fraction or an exponent. -/
def parseJson (number : String → JsNumber) (text : String) : Option Json :=
  (parseValue number (2 * text.toList.length + 2) text.toList).bind fun r =>
    if r.2.dropWhile isBlank = [] then some r.1 else none

/-! ## Records of texts -/

/-- A record whose members are texts. -/
def recordOfTexts (members : List (String × String)) : JsonObject :=
  members.map fun m => (m.1, .string m.2)

/-- One member of a record of texts, as `JSON.stringify` writes it. -/
def stringifyText (m : String × String) : List Char :=
  stringified m.1 ++ ':' :: stringified m.2

/-- **`JSON.stringify`** of a record of texts. -/
def stringifyTexts (members : List (String × String)) : List Char :=
  '{' :: separated [] (members.map stringifyText) ++ ['}']

variable {number : String → JsNumber}

theorem parseText_stringified (text : String) (rest : List Char) :
    parseText (stringified text ++ rest) = some (text, rest) := by
  have hfront : (front (stringified text ++ rest)).rest = stringified text ++ rest := rfl
  obtain ⟨index, hread⟩ := stringValue_stringified (o := {}) hfront
  rw [parseText, hread]
  rfl

theorem parseValue_stringified (fuel : Nat) (text : String) (rest : List Char) :
    parseValue number (fuel + 1) (stringified text ++ rest) = some (.string text, rest) := by
  have hdrop : (stringified text ++ rest).dropWhile isBlank = stringified text ++ rest := rfl
  have hhead : (stringified text ++ rest).head? = some '"' := rfl
  rw [parseValue]
  simp only [hdrop, hhead, parseText_stringified, Option.some.injEq,
    if_neg (show ('"' : Char) ≠ '{' by decide), if_neg (show ('"' : Char) ≠ '[' by decide), if_true,
    Option.map_some]

theorem define_of_not_mem {members : JsonObject} {name : String} {v : Json}
    (h : name ∉ keys members) : define members name v = members ++ [(name, v)] :=
  if_neg h

/-- **The members of a record are read** one after another. -/
theorem parseMembers_stringifyText {rest : List Char} : ∀ {members : List (String × String)}
    {read : JsonObject} {fuel : Nat}, members ≠ [] → members.length < fuel →
    (keys read ++ members.map Prod.fst).Nodup →
    parseMembers number fuel read (separated [] (members.map stringifyText) ++ '}' :: rest)
      = some (read ++ recordOfTexts members, rest)
  | [], _, _, hne, _, _ => absurd rfl hne
  | m :: ms, read, 0, _, hfuel, _ => absurd hfuel (Nat.not_lt_zero _)
  | m :: ms, read, 1, _, hfuel, _ => by simp at hfuel
  | m :: ms, read, fuel + 2, _, hfuel, hnodup => by
    have hfresh : m.1 ∉ keys read := by
      intro hm
      rw [List.nodup_append] at hnodup
      exact hnodup.2.2 _ hm _ List.mem_cons_self rfl
    have hname (behind : List Char) : parseText (stringifyText m ++ behind)
        = some (m.1, ':' :: (stringified m.2 ++ behind)) := by
      rw [stringifyText, List.append_assoc, parseText_stringified]
      rfl
    have hcolon (behind : List Char) : (':' :: behind).dropWhile isBlank = ':' :: behind := rfl
    cases ms with
    | nil =>
      have hbrace : ('}' :: rest).dropWhile isBlank = '}' :: rest := rfl
      show parseMembers number (fuel + 2) read (stringifyText m ++ '}' :: rest) = _
      rw [parseMembers, hname]
      simp only [Option.bind_eq_bind, Option.bind_some, hcolon, List.head?_cons, if_true,
        List.tail_cons, parseValue_stringified, hbrace, define_of_not_mem hfresh]
      rfl
    | cons n ms =>
      have hcomma (behind : List Char) : (',' :: behind).dropWhile isBlank = ',' :: behind := rfl
      have htext : separated [] ((m :: n :: ms).map stringifyText) ++ '}' :: rest
          = stringifyText m ++ ',' :: (separated [] ((n :: ms).map stringifyText)
            ++ '}' :: rest) := by
        rw [List.map_cons, List.map_cons, separated, List.append_assoc]
        rfl
      have hmore : (keys (read ++ [(m.1, Json.string m.2)]) ++ (n :: ms).map Prod.fst).Nodup := by
        rw [keys, List.map_append, List.append_assoc]
        exact hnodup
      have ih := @parseMembers_stringifyText rest _ _ _ (List.cons_ne_nil n ms)
        (Nat.lt_of_succ_lt_succ hfuel) hmore
      rw [htext, parseMembers, hname]
      simp only [Option.bind_eq_bind, Option.bind_some, hcolon, List.head?_cons, if_true,
        List.tail_cons, parseValue_stringified, hcomma, define_of_not_mem hfresh,
        Option.some.injEq, if_neg (show (',' : Char) ≠ '}' by decide), ih]
      rw [List.append_assoc]
      rfl

theorem length_separated_pos : ∀ members : List (String × String),
    members.length ≤ (separated [] (members.map stringifyText)).length
  | [] => Nat.le_refl _
  | [m] => by simp [separated, stringifyText, stringified]
  | m :: n :: ms => by
    have ih := length_separated_pos (n :: ms)
    rw [List.map_cons, List.map_cons, separated, List.length_append, List.length_cons,
      List.length_cons]
    simp only [List.map_cons, List.length_cons, List.nil_append] at ih ⊢
    omega

/-- **A record of texts is read back** from what `JSON.stringify` writes. -/
theorem parseJson_stringifyTexts {members : List (String × String)} (hne : members ≠ [])
    (hnodup : (members.map Prod.fst).Nodup) :
    parseJson number (String.ofList (stringifyTexts members))
      = some (.object (recordOfTexts members)) := by
  have htext : stringifyTexts members
      = '{' :: (separated [] (members.map stringifyText) ++ ['}']) := rfl
  have hlength := length_separated_pos members
  obtain ⟨m, ms, rfl⟩ := List.exists_cons_of_ne_nil hne
  have hinner : ((separated [] ((m :: ms).map stringifyText)) ++ ['}']).dropWhile isBlank
      = separated [] ((m :: ms).map stringifyText) ++ ['}'] := by
    cases ms <;> rfl
  have hquote : ((separated [] ((m :: ms).map stringifyText)) ++ ['}']).head? = some '"' := by
    cases ms <;> rfl
  have hblank : ('{' :: (separated [] ((m :: ms).map stringifyText) ++ ['}'])).dropWhile isBlank
      = '{' :: (separated [] ((m :: ms).map stringifyText) ++ ['}']) := rfl
  have hfuel : (m :: ms).length < 2 * (stringifyTexts (m :: ms)).length + 1 := by
    rw [htext, List.length_cons (a := '{'), List.length_append]
    omega
  have hread := @parseMembers_stringifyText number [] _ [] _ hne hfuel hnodup
  rw [parseJson, String.toList_ofList, show 2 * (stringifyTexts (m :: ms)).length + 2
    = (2 * (stringifyTexts (m :: ms)).length + 1) + 1 from rfl, parseValue]
  simp only [htext, hblank, List.head?_cons, if_true, List.tail_cons, hinner, hquote,
    Option.some.injEq, if_neg (show ('"' : Char) ≠ '}' by decide)]
  rw [← htext, hread]
  rfl
