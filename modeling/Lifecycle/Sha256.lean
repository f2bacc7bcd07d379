import Mathlib.Tactic.IntervalCases
import Mathlib.Data.List.Basic

/-!
# SHA-256

The hash function itself, over lists of bytes, in the form the kernel can
evaluate: words are 32-bit vectors, the message schedule is a window of
sixteen words carried along the sixty-four rounds. Nothing here assumes
anything of the function beyond what its definition gives – the length
and the alphabet of a rendered digest.
-/

namespace Sha256

/-- A 32-bit word. -/
abbrev Word := BitVec 32

/-- The eight working variables, and the eight chaining words. -/
structure State where
  a : Word
  b : Word
  c : Word
  d : Word
  e : Word
  f : Word
  g : Word
  h : Word

/-- The sixty-four round constants. -/
def roundConstants : List Word := [
  0x428a2f98, 0x71374491, 0xb5c0fbcf, 0xe9b5dba5, 0x3956c25b, 0x59f111f1, 0x923f82a4, 0xab1c5ed5,
  0xd807aa98, 0x12835b01, 0x243185be, 0x550c7dc3, 0x72be5d74, 0x80deb1fe, 0x9bdc06a7, 0xc19bf174,
  0xe49b69c1, 0xefbe4786, 0x0fc19dc6, 0x240ca1cc, 0x2de92c6f, 0x4a7484aa, 0x5cb0a9dc, 0x76f988da,
  0x983e5152, 0xa831c66d, 0xb00327c8, 0xbf597fc7, 0xc6e00bf3, 0xd5a79147, 0x06ca6351, 0x14292967,
  0x27b70a85, 0x2e1b2138, 0x4d2c6dfc, 0x53380d13, 0x650a7354, 0x766a0abb, 0x81c2c92e, 0x92722c85,
  0xa2bfe8a1, 0xa81a664b, 0xc24b8b70, 0xc76c51a3, 0xd192e819, 0xd6990624, 0xf40e3585, 0x106aa070,
  0x19a4c116, 0x1e376c08, 0x2748774c, 0x34b0bcb5, 0x391c0cb3, 0x4ed8aa4a, 0x5b9cca4f, 0x682e6ff3,
  0x748f82ee, 0x78a5636f, 0x84c87814, 0x8cc70208, 0x90befffa, 0xa4506ceb, 0xbef9a3f7, 0xc67178f2]

/-- The initial chaining words. -/
def initial : State :=
  ⟨0x6a09e667, 0xbb67ae85, 0x3c6ef372, 0xa54ff53a,
    0x510e527f, 0x9b05688c, 0x1f83d9ab, 0x5be0cd19⟩

/-- One round, with its constant and its schedule word. -/
def round (s : State) (k w : Word) : State :=
  let s1 := s.e.rotateRight 6 ^^^ s.e.rotateRight 11 ^^^ s.e.rotateRight 25
  let ch := (s.e &&& s.f) ^^^ (~~~ s.e &&& s.g)
  let t1 := s.h + s1 + ch + k + w
  let s0 := s.a.rotateRight 2 ^^^ s.a.rotateRight 13 ^^^ s.a.rotateRight 22
  let maj := (s.a &&& s.b) ^^^ (s.a &&& s.c) ^^^ (s.b &&& s.c)
  ⟨t1 + (s0 + maj), s.a, s.b, s.c, s.d + t1, s.e, s.f, s.g⟩

/-- The schedule word that follows a window of sixteen. -/
def nextWord (window : List Word) : Word :=
  let x := window.getD 14 0
  let y := window.getD 1 0
  (x.rotateRight 17 ^^^ x.rotateRight 19 ^^^ x >>> 10) + window.getD 9 0
    + (y.rotateRight 7 ^^^ y.rotateRight 18 ^^^ y >>> 3) + window.getD 0 0

/-- The rounds of the listed constants, along the sliding window. -/
def rounds : List Word → List Word → State → State
  | [], _, s => s
  | k :: ks, window, s =>
    rounds ks (window.tail ++ [nextWord window]) (round s k (window.headD 0))

/-- The compression of one block of sixteen words. -/
def compress (s : State) (block : List Word) : State :=
  let t := rounds roundConstants block s
  ⟨s.a + t.a, s.b + t.b, s.c + t.c, s.d + t.d, s.e + t.e, s.f + t.f, s.g + t.g, s.h + t.h⟩

/-- Bytes as big-endian words. -/
def wordsOfBytes : List UInt8 → List Word
  | a :: b :: c :: d :: rest =>
    BitVec.ofNat 32 (a.toNat * 16777216 + b.toNat * 65536 + c.toNat * 256 + d.toNat)
      :: wordsOfBytes rest
  | _ => []

/-- The message with its end marker, its zeros and its length in bits. -/
def pad (message : List UInt8) : List UInt8 :=
  let bits := message.length * 8
  message ++ (0x80 : UInt8) :: List.replicate ((119 - message.length % 64) % 64) (0 : UInt8)
    ++ [UInt8.ofNat (bits >>> 56), UInt8.ofNat (bits >>> 48), UInt8.ofNat (bits >>> 40),
      UInt8.ofNat (bits >>> 32), UInt8.ofNat (bits >>> 24), UInt8.ofNat (bits >>> 16),
      UInt8.ofNat (bits >>> 8), UInt8.ofNat bits]

/-- The chaining words after the next `n` blocks. -/
def absorb : Nat → List Word → State → State
  | 0, _, s => s
  | n + 1, ws, s => absorb n (ws.drop 16) (compress s (ws.take 16))

/-- The eight words of the digest. -/
def digestWords (message : List UInt8) : List Word :=
  let ws := wordsOfBytes (pad message)
  let s := absorb (ws.length / 16) ws initial
  [s.a, s.b, s.c, s.d, s.e, s.f, s.g, s.h]

/-- The lowercase hexadecimal digit of a number below sixteen. -/
def hexDigit (n : Nat) : Char :=
  if n < 10 then Char.ofNat (48 + n) else Char.ofNat (87 + n)

/-- The eight hexadecimal digits of a word, most significant first. -/
def hexWord (w : Word) : List Char :=
  [28, 24, 20, 16, 12, 8, 4, 0].map fun s => hexDigit ((w.toNat >>> s) % 16)

/-- **The digest of a message**, in lowercase hexadecimal. -/
def hexDigest (message : List UInt8) : List Char :=
  (digestWords message).flatMap hexWord

/-! ## The shape of a rendered digest -/

/-- The lowercase hexadecimal digits. -/
def isHexDigit (c : Char) : Bool :=
  (Nat.ble 48 c.toNat && Nat.ble c.toNat 57) || (Nat.ble 97 c.toNat && Nat.ble c.toNat 102)

theorem isHexDigit_hexDigit {n : Nat} (h : n < 16) : isHexDigit (hexDigit n) = true := by
  interval_cases n <;> decide

theorem isHexDigit_of_mem_hexWord {w : Word} {c : Char} (h : c ∈ hexWord w) :
    isHexDigit c = true := by
  obtain ⟨s, -, rfl⟩ := List.mem_map.mp h
  exact isHexDigit_hexDigit (Nat.mod_lt _ (by decide))

/-- **A rendered digest is written in hexadecimal digits.** -/
theorem isHexDigit_of_mem_hexDigest {message : List UInt8} {c : Char}
    (h : c ∈ hexDigest message) : isHexDigit c = true := by
  obtain ⟨w, -, hc⟩ := List.mem_flatMap.mp h
  exact isHexDigit_of_mem_hexWord hc

/-- **A rendered digest has sixty-four digits.** -/
theorem length_hexDigest (message : List UInt8) : (hexDigest message).length = 64 := by
  simp [hexDigest, digestWords, hexWord]

/-- The digest of the three bytes `abc`, as published with the standard. -/
example : String.ofList (hexDigest [97, 98, 99])
    = "ba7816bf8f01cfea414140de5dae2223b00361a396177a9cb410ff61f20015ad" := by
  decide +kernel

end Sha256
