import Lifecycle.CivilTime
import Lifecycle.Json

/-!
# Timestamps

The timestamps the control model admits (`control/model.ts`): the text
`Date.prototype.toISOString` gives an instant, or that text without its
milliseconds when they are zero.

`dateParse` reads the ECMAScript date-time format in its complete UTC
forms. `Date.parse` accepts further texts, which `dateParse` refuses: no
such text is the rendering of any instant, so `controlTimestamp` refuses
it either way, and every other text the source parses has passed
`controlTimestamp`.
-/

open Fallible Json

namespace Timestamp

/-! ## Rendering -/

/-- `n` in exactly `w` decimal digits. -/
def decimal : Nat → Nat → List Char
  | 0, _ => []
  | w + 1, n => Char.ofNat (48 + n / 10 ^ w % 10) :: decimal w n

/-- A year: four digits, or a sign and six outside the four-digit range. -/
def yearText (y : Int) : List Char :=
  if y < 0 then '-' :: decimal 6 y.natAbs
  else if y ≤ 9999 then decimal 4 y.natAbs
  else '+' :: decimal 6 y.natAbs

/-- The text up to the seconds, which both admitted forms share. -/
def secondsText (c : CivilTime) : List Char :=
  yearText c.year ++ '-' :: decimal 2 c.month ++ '-' :: decimal 2 c.day
    ++ 'T' :: decimal 2 c.hour ++ ':' :: decimal 2 c.minute ++ ':' :: decimal 2 c.second

/-- `Date.prototype.toISOString`. -/
def toISOString (t : Int) : String :=
  let c := CivilTime.ofTimeValue t
  String.ofList (secondsText c ++ '.' :: decimal 3 c.millisecond ++ ['Z'])

/-- `toISOString` with a trailing `.000Z` replaced by `Z`. -/
def wholeSeconds (t : Int) : String :=
  let c := CivilTime.ofTimeValue t
  if c.millisecond = 0 then String.ofList (secondsText c ++ ['Z']) else toISOString t

/-! ## Parsing -/

/-- The value of the first `n` bytes as digits, after the value read so
far, and the bytes that follow. -/
def takeDigits : Nat → Nat → List UInt8 → Option (Nat × List UInt8)
  | 0, value, bytes => some (value, bytes)
  | n + 1, value, b :: bytes =>
    if 48 ≤ b.toNat ∧ b.toNat ≤ 57 then takeDigits n (value * 10 + (b.toNat - 48)) bytes
    else none
  | _ + 1, _, [] => none

/-- The bytes after one expected byte. -/
def expect (b : UInt8) : List UInt8 → Option (List UInt8)
  | c :: bytes => if c = b then some bytes else none
  | [] => none

/-- A year of the format; `-000000` is none. -/
def parseYear (bytes : List UInt8) : Option (Int × List UInt8) :=
  match bytes with
  | 43 :: rest => (takeDigits 6 0 rest).map fun p => ((p.1 : Int), p.2)
  | 45 :: rest => (takeDigits 6 0 rest).bind fun p =>
      if p.1 = 0 then none else some (-(p.1 : Int), p.2)
  | _ => (takeDigits 4 0 bytes).map fun p => ((p.1 : Int), p.2)

/-- The milliseconds, when the text has them, and the final `Z`. -/
def parseMilliseconds : List UInt8 → Option Nat
  | [90] => some 0
  | 46 :: rest => do
    let (ms, rest) ← takeDigits 3 0 rest
    let rest ← expect 90 rest
    if rest = [] then some ms else none
  | _ => none

/-- The civil time of the given fields, when they are in range. -/
def civilTime? (year : Int) (month day hour minute second millisecond : Nat) :
    Option CivilTime :=
  if h : (1 ≤ month ∧ month ≤ 12)
      ∧ (1 ≤ day ∧ CivilTime.monthStart (CivilTime.leapDays year) month + day
        ≤ CivilTime.monthStart (CivilTime.leapDays year) (month + 1))
      ∧ (hour < 24 ∧ minute < 60 ∧ second < 60 ∧ millisecond < 1000) then
    some ⟨year, month, day, hour, minute, second, millisecond, h.1, h.2.1, h.2.2⟩
  else none

/-- The civil time a text of the format writes. -/
def parseCivil (bytes : List UInt8) : Option CivilTime := do
  let (year, rest) ← parseYear bytes
  let rest ← expect 45 rest
  let (month, rest) ← takeDigits 2 0 rest
  let rest ← expect 45 rest
  let (day, rest) ← takeDigits 2 0 rest
  let rest ← expect 84 rest
  let (hour, rest) ← takeDigits 2 0 rest
  let rest ← expect 58 rest
  let (minute, rest) ← takeDigits 2 0 rest
  let rest ← expect 58 rest
  let (second, rest) ← takeDigits 2 0 rest
  let millisecond ← parseMilliseconds rest
  civilTime? year month day hour minute second millisecond

/-- The largest time value, `8.64e15`. -/
def maxTimeValue : Nat := 8640000000000000

/-- **`Date.parse`** of a text in the date-time format; `none` is `NaN`. -/
def dateParse (text : String) : Option Int := do
  let c ← parseCivil (utf8Bytes text)
  if c.timeValue.natAbs ≤ maxTimeValue then some c.timeValue else none

/-- `Date.parse(left) < Date.parse(right)`, false when either is `NaN`. -/
def dateLt (left right : String) : Bool :=
  match dateParse left, dateParse right with
  | some a, some b => decide (a < b)
  | _, _ => false

/-- `Date.parse(left) <= Date.parse(right)`, false when either is `NaN`. -/
def dateLe (left right : String) : Bool :=
  match dateParse left, dateParse right with
  | some a, some b => decide (a ≤ b)
  | _, _ => false

end Timestamp

open Timestamp

/-- **`controlTimestamp`**: the text of an instant, with its milliseconds
or, when they are zero, without. -/
def controlTimestamp (value label : String) : Except FoundationError String := do
  let canonicalMilliseconds := (dateParse value).map toISOString
  let canonicalWholeSeconds := (dateParse value).map wholeSeconds
  failIf (canonicalMilliseconds = none
      ∨ (some value ≠ canonicalMilliseconds ∧ some value ≠ canonicalWholeSeconds))
    (lifecycleError "lifecycle.control-record-store.time"
      s!"{label} must be one canonical RFC 3339 UTC timestamp")
  return value

/-- **The admitted texts**: a text is admitted exactly when it is one of
the two renderings of the instant it denotes. -/
theorem controlTimestamp_eq_ok_iff {value label v : String} :
    controlTimestamp value label = .ok v
      ↔ v = value ∧ ∃ t, dateParse value = some t
        ∧ (value = toISOString t ∨ value = wholeSeconds t) := by
  simp only [controlTimestamp, bind_eq_ok, failIf_eq_ok, exists_const, pure_eq_ok]
  cases h : dateParse value with
  | none => simp
  | some t =>
    simp only [Option.map_some, reduceCtorEq, false_or, Option.some.injEq, ne_eq,
      ← not_or, not_not]
    constructor
    · rintro ⟨hvalue, rfl⟩
      exact ⟨rfl, t, rfl, hvalue⟩
    · rintro ⟨rfl, u, rfl, hu⟩
      exact ⟨hu, rfl⟩
