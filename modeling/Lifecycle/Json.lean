import Lifecycle.Fallible
import Lifecycle.Sha256
import Mathlib.Data.List.Sort

/-!
# JSON values, canonical JSON and digests

The values control records carry, their canonical text (`canonicalJson`,
the RFC 8785 form restricted to safe integers) and the digests over it.

A value is what `JSON.parse` may return. An object is the list of its own
members; reading a member takes the first entry of its name. A text is a
sequence of Unicode scalar values, so the unpaired-surrogate refusals of
`canonicalJson` have no input here, and a value has no identity, so neither
have its cycle refusals. A canonical text is represented by its UTF-8
bytes: every use the source makes of one – its length, its digest, its
equality with another – reads those bytes only.
-/

open Fallible

/-- **An error of the runtime**: its code, its message and, where the
source observes one, the reason among its facts. -/
structure FoundationError where
  code : String
  message : String
  reason : Option String := none
deriving DecidableEq

/-- An error with no further facts. -/
def lifecycleError (code message : String) : FoundationError :=
  { code := code, message := message }

/-- **A JavaScript number.** A finite number that is no integer is
represented by its decimal rendering. -/
inductive JsNumber
  | integer (n : Int)
  | fraction (text : String)
  | nonFinite (text : String)
deriving DecidableEq

/-- **A JSON value.** -/
inductive Json
  | null
  | bool (b : Bool)
  | number (n : JsNumber)
  | string (s : String)
  | array (items : List Json)
  | object (members : List (String × Json))

/-- The members of a JSON object. -/
abbrev JsonObject := List (String × Json)

/-- A `sha256:` digest text. -/
abbrev Sha256Digest := String

/-- The largest safe integer, `Number.MAX_SAFE_INTEGER`. -/
def maxSafeInteger : Nat := 9007199254740991

namespace Json

/-! ## Reading values -/

/-- The member `name` of an object, when it is there. -/
def member (name : String) : JsonObject → Option Json
  | [] => none
  | m :: ms => if m.1 = name then some m.2 else member name ms

/-- `Object.hasOwn`. -/
def hasOwn (o : JsonObject) (name : String) : Bool := (member name o).isSome

/-- `Object.keys`. -/
def keys (o : JsonObject) : List String := o.map Prod.fst

/-- **Strict equality** of two members that may be missing. Arrays and
objects read from two records are never the same reference. -/
def strictEq : Option Json → Option Json → Bool
  | none, none => true
  | some .null, some .null => true
  | some (.bool a), some (.bool b) => a == b
  | some (.number a), some (.number b) =>
    match a with
    | .nonFinite "NaN" => false
    | _ => decide (a = b)
  | some (.string a), some (.string b) => decide (a = b)
  | _, _ => false

/-- The string a member holds, when it holds one. -/
def asString : Option Json → Option String
  | some (.string s) => some s
  | _ => none

/-- The object a member holds, when it holds one. -/
def asObject : Option Json → Option JsonObject
  | some (.object o) => some o
  | _ => none

/-- The array a member holds, when it holds one. -/
def asArray : Option Json → Option (List Json)
  | some (.array items) => some items
  | _ => none

/-- A non-negative number as a JSON value. -/
def nat (n : Nat) : Json := .number (.integer n)

@[simp] theorem asString_eq_some {v : Option Json} {s : String} :
    asString v = some s ↔ v = some (.string s) := by
  unfold asString
  split <;> simp_all

theorem asObject_eq_some {v : Option Json} {o : JsonObject} :
    asObject v = some o ↔ v = some (.object o) := by
  unfold asObject
  split <;> simp_all

theorem asArray_eq_some {v : Option Json} {items : List Json} :
    asArray v = some items ↔ v = some (.array items) := by
  unfold asArray
  split <;> simp_all

theorem strictEq_string {v : Option Json} {s : String} :
    strictEq v (some (.string s)) = true ↔ v = some (.string s) := by
  unfold strictEq
  split <;> simp_all

/-! ## Texts -/

/-- The UTF-8 bytes of a text. -/
def utf8Bytes (s : String) : List UInt8 := s.toByteArray.data.toList

/-- `Buffer.byteLength(s, "utf8")`. -/
def byteLength (s : String) : Nat := (utf8Bytes s).length

/-- The UTF-16 code units of a character. -/
def utf16Units (c : Char) : List Nat :=
  if c.toNat < 65536 then [c.toNat]
  else [55296 + (c.toNat - 65536) / 1024, 56320 + (c.toNat - 65536) % 1024]

/-- Lexicographic comparison of code sequences. -/
def lexLe : List Nat → List Nat → Bool
  | [], _ => true
  | _ :: _, [] => false
  | a :: as, b :: bs => Nat.blt a b || (Nat.beq a b && lexLe as bs)

/-- The order of `Array.prototype.sort` without a comparator: by UTF-16
code units. -/
def codeUnitLe (a b : String) : Bool :=
  lexLe (a.toList.flatMap utf16Units) (b.toList.flatMap utf16Units)

/-- `Array.prototype.sort` without a comparator. -/
def sortKeys (names : List String) : List String :=
  names.insertionSort (fun a b => codeUnitLe a b = true)

/-- The hexadecimal digit of a control character's escape. -/
def hexByte (n : Nat) : UInt8 := UInt8.ofNat (if n < 10 then 48 + n else 87 + n)

/-- One byte of a text as `JSON.stringify` writes it. The escaped
characters are all ASCII; the bytes of any other character stand as they
are. -/
def escapeByte (b : UInt8) : List UInt8 :=
  match b.toNat with
  | 34 => [92, 34]
  | 92 => [92, 92]
  | 8 => [92, 98]
  | 9 => [92, 116]
  | 10 => [92, 110]
  | 12 => [92, 102]
  | 13 => [92, 114]
  | n => if n < 32 then [92, 117, 48, 48, hexByte (n / 16), hexByte (n % 16)] else [b]

/-- `JSON.stringify` of a text. -/
def quoted (s : String) : List UInt8 :=
  34 :: (utf8Bytes s).flatMap escapeByte ++ [34]

/-- The parts separated by commas. -/
def commaSeparated : List (List UInt8) → List UInt8
  | [] => []
  | [x] => x
  | x :: xs => x ++ 44 :: commaSeparated xs

/-! ## Canonical JSON -/

/-- A number as canonical JSON writes it. -/
def canonicalNumber (path : String) : JsNumber → Except FoundationError (List UInt8)
  | .nonFinite _ => .error (lifecycleError "foundation.canonical.number"
      s!"Canonical JSON rejects non-finite number at {path}")
  | .fraction text => .ok (utf8Bytes text)
  | .integer n => do
    failIf (maxSafeInteger < n.natAbs) (lifecycleError "foundation.canonical.number"
      s!"Canonical JSON rejects unsafe integer at {path}")
    return utf8Bytes (toString n)

mutual
/-- **The canonical text of a value**, or the refusal of a number outside
the canonical domain. -/
def canonicalize (path : String) : Json → Except FoundationError (List UInt8)
  | .null => .ok (utf8Bytes "null")
  | .bool b => .ok (utf8Bytes (if b then "true" else "false"))
  | .string s => .ok (quoted s)
  | .number n => canonicalNumber path n
  | .array items => do
    let parts ← canonicalizeItems path 0 items
    return 91 :: commaSeparated parts ++ [93]
  | .object members => do
    -- The members are written, and refused, in the order of their sorted keys.
    let sorted := (canonicalizeMembers path members).insertionSort
      (fun a b => codeUnitLe a.1 b.1 = true)
    let parts ← sorted.mapM fun m => do
      let text ← m.2
      return quoted m.1 ++ 58 :: text
    return 123 :: commaSeparated parts ++ [125]

/-- The canonical texts of an array's items. -/
def canonicalizeItems (path : String) (index : Nat) :
    List Json → Except FoundationError (List (List UInt8))
  | [] => .ok []
  | item :: items => do
    let text ← canonicalize s!"{path}[{index}]" item
    let texts ← canonicalizeItems path (index + 1) items
    return text :: texts

/-- The canonical text, or its refusal, of each member of an object. -/
def canonicalizeMembers (path : String) :
    List (String × Json) → List (String × Except FoundationError (List UInt8))
  | [] => []
  | (name, value) :: members =>
    (name, canonicalize s!"{path}.{name}" value) :: canonicalizeMembers path members
end

/-- **`canonicalJson`**: the canonical text of a value, as its bytes. -/
def canonicalJson (value : Json) : Except FoundationError (List UInt8) :=
  canonicalize "$" value

/-! ## Digests -/

/-- `sha256Bytes`. -/
def sha256Bytes (bytes : List UInt8) : Sha256Digest :=
  String.ofList ("sha256:".toList ++ Sha256.hexDigest bytes)

/-- **`digestCanonical`**: the digest of the canonical text. -/
def digestCanonical (value : Json) : Except FoundationError Sha256Digest := do
  let text ← canonicalJson value
  return sha256Bytes text

/-- `selfDigest`: the digest of an object without its `digest` member. -/
def selfDigest (o : JsonObject) : Except FoundationError Sha256Digest :=
  digestCanonical (.object (o.filter (fun m => m.1 ≠ "digest")))

/-- A lowercase hexadecimal byte, `[a-f0-9]`. -/
def hexClass (b : UInt8) : Bool :=
  (Nat.ble 48 b.toNat && Nat.ble b.toNat 57) || (Nat.ble 97 b.toNat && Nat.ble b.toNat 102)

/-- `/^sha256:[a-f0-9]{64}$/u`. -/
def isSha256 (s : String) : Bool :=
  let bytes := utf8Bytes s
  decide (bytes.length = 71) && decide (bytes.take 7 = [115, 104, 97, 50, 53, 54, 58])
    && (bytes.drop 7).all hexClass

/-! ## The shape of a digest text -/

/-- The bytes of a text given by its characters. -/
theorem utf8Bytes_ofList (cs : List Char) :
    utf8Bytes (String.ofList cs) = cs.flatMap String.utf8EncodeChar := by
  simp [utf8Bytes, List.utf8Encode, List.data_toByteArray]

/-- A hexadecimal digit is one byte, in the class of the pattern. -/
theorem utf8EncodeChar_of_isHexDigit {c : Char} (h : Sha256.isHexDigit c = true) :
    ∃ b, String.utf8EncodeChar c = [b] ∧ hexClass b = true := by
  have hlt : c.toNat < 103 := by
    simp only [Sha256.isHexDigit, Bool.or_eq_true, Bool.and_eq_true, Nat.ble_eq] at h
    omega
  have hsize : c.utf8Size = 1 := by
    have hval : c.val ≤ 127 := UInt32.le_iff_toNat_le.mpr (by change c.toNat ≤ 127; omega)
    exact if_pos hval
  refine ⟨c.val.toUInt8, String.utf8EncodeChar_eq_singleton hsize, ?_⟩
  have hbyte : c.val.toUInt8.toNat = c.toNat := by
    rw [UInt32.toNat_toUInt8]
    exact Nat.mod_eq_of_lt (by change c.toNat < 256; omega)
  rw [hexClass, hbyte]
  exact h

theorem flatMap_utf8EncodeChar_of_isHexDigit {cs : List Char}
    (h : ∀ c ∈ cs, Sha256.isHexDigit c = true) :
    (cs.flatMap String.utf8EncodeChar).length = cs.length
      ∧ ∀ b ∈ cs.flatMap String.utf8EncodeChar, hexClass b = true := by
  induction cs with
  | nil => simp
  | cons c cs ih =>
    obtain ⟨b, hb, hclass⟩ := utf8EncodeChar_of_isHexDigit (h c List.mem_cons_self)
    obtain ⟨hlen, hall⟩ := ih fun d hd => h d (List.mem_cons_of_mem _ hd)
    rw [List.flatMap_cons, hb]
    refine ⟨by simp [hlen], fun d hd => ?_⟩
    rcases List.mem_cons.mp hd with rfl | hd
    · exact hclass
    · exact hall d hd

/-- **A digest text matches its pattern.** -/
theorem isSha256_sha256Bytes (bytes : List UInt8) : isSha256 (sha256Bytes bytes) = true := by
  obtain ⟨hlen, hall⟩ := @flatMap_utf8EncodeChar_of_isHexDigit (Sha256.hexDigest bytes)
    fun c hc => Sha256.isHexDigit_of_mem_hexDigest hc
  have hscheme : "sha256:".toList.flatMap String.utf8EncodeChar
      = [115, 104, 97, 50, 53, 54, 58] := by
    rw [← utf8Bytes_ofList, String.ofList_toList]
    decide +kernel
  have hbytes : utf8Bytes (sha256Bytes bytes)
      = [115, 104, 97, 50, 53, 54, 58]
        ++ (Sha256.hexDigest bytes).flatMap String.utf8EncodeChar := by
    unfold sha256Bytes
    generalize Sha256.hexDigest bytes = digits
    rw [utf8Bytes_ofList, List.flatMap_append, hscheme]
  generalize (Sha256.hexDigest bytes).flatMap String.utf8EncodeChar = digits
    at hlen hall hbytes
  rw [Sha256.length_hexDigest] at hlen
  simp only [isSha256, hbytes, Bool.and_eq_true, decide_eq_true_eq]
  refine ⟨⟨by simp [hlen], rfl⟩, ?_⟩
  exact List.all_eq_true.mpr fun b hb => hall b hb

theorem isSha256_digestCanonical {value : Json} {d : Sha256Digest}
    (h : digestCanonical value = .ok d) : isSha256 d = true := by
  rw [digestCanonical, bind_eq_ok] at h
  obtain ⟨text, -, h⟩ := h
  rw [pure_eq_ok] at h
  exact h ▸ isSha256_sha256Bytes text

end Json
