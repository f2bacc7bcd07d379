import Lifecycle.Rehearsal

/-!
# The order of times

Two layers of the control store (`control/store.ts`) keep the journal from
going back in time. The append and the reducer compare the instants two
timestamps denote; the trigger that guards the insertion compares their
texts, byte by byte. The texts of two instants are in their order exactly
when they are spelled alike (`SpelledInOrder`): in one era, and within one
second with the milliseconds written in both or in neither.
-/

open Fallible Json ControlModel Timestamp DeliveryReducer

/-! ## The checks of the store -/

/-- The comparison of two texts in SQLite's `BINARY` collation: the bytes
in order, and of two texts one of which continues the other the shorter
first. -/
def binaryLt (left right : String) : Bool := decide (utf8Bytes left < utf8Bytes right)

/-- The time clause of the trigger `journal_events_contiguous_insert`:
whether the row of an event may follow the last row. -/
def triggerAdmitsTime (predecessorTime : Option String) (occurredAt : String) : Bool :=
  !binaryLt occurredAt (predecessorTime.getD occurredAt)

/-- The time check of `#appendBatchInTransaction`. -/
def assertEventTime (predecessorTime : Option String) (occurredAt : String) :
    Except FoundationError Unit :=
  failIf (∃ last ∈ predecessorTime, dateLt occurredAt last = true)
    (lifecycleError "lifecycle.control-record-store.event-time"
      "Control record event time cannot move backwards")

/-! ## Bytes of numbers -/

/-- The order of two numbers by a leading part and a rest below its unit. -/
theorem lt_iff_of_parts {q a b c d : Nat} (hc : c < q) (hd : d < q) :
    a * q + c < b * q + d ↔ a < b ∨ a = b ∧ c < d := by
  rcases Nat.lt_trichotomy a b with h | rfl | h
  · have hq : (a + 1) * q ≤ b * q := Nat.mul_le_mul_right q h
    rw [Nat.add_mul, Nat.one_mul] at hq
    simp only [h, true_or, iff_true]
    omega
  · simp
  · have hq : (b + 1) * q ≤ a * q := Nat.mul_le_mul_right q h
    rw [Nat.add_mul, Nat.one_mul] at hq
    omega

theorem eq_iff_of_parts {q a b c d : Nat} (hc : c < q) (hd : d < q) :
    a * q + c = b * q + d ↔ a = b ∧ c = d := by
  have h := @lt_iff_of_parts q a b c d hc hd
  have h' := @lt_iff_of_parts q b a d c hd hc
  omega

/-- A decimal digit is one byte. -/
theorem utf8EncodeChar_digit {d : Nat} (h : d < 10) :
    String.utf8EncodeChar (Char.ofNat (48 + d)) = [UInt8.ofNat (48 + d)] := by
  have hall : ∀ d : Fin 10,
      String.utf8EncodeChar (Char.ofNat (48 + d.val)) = [UInt8.ofNat (48 + d.val)] := by
    decide
  exact hall ⟨d, h⟩

theorem digitByte_lt_iff {d e : Nat} (hd : d < 10) (he : e < 10) :
    UInt8.ofNat (48 + d) < UInt8.ofNat (48 + e) ↔ d < e := by
  have hall : ∀ d e : Fin 10,
      UInt8.ofNat (48 + d.val) < UInt8.ofNat (48 + e.val) ↔ d.val < e.val := by
    decide
  exact hall ⟨d, hd⟩ ⟨e, he⟩

theorem digitByte_inj {d e : Nat} (hd : d < 10) (he : e < 10) :
    UInt8.ofNat (48 + d) = UInt8.ofNat (48 + e) ↔ d = e := by
  have hall : ∀ d e : Fin 10,
      UInt8.ofNat (48 + d.val) = UInt8.ofNat (48 + e.val) ↔ d.val = e.val := by
    decide
  exact hall ⟨d, hd⟩ ⟨e, he⟩

/-- The bytes of some characters. -/
def bytesOf (cs : List Char) : List UInt8 := cs.flatMap String.utf8EncodeChar

@[simp] theorem bytesOf_append {cs ds : List Char} :
    bytesOf (cs ++ ds) = bytesOf cs ++ bytesOf ds := List.flatMap_append

theorem bytesOf_cons {c : Char} {cs : List Char} :
    bytesOf (c :: cs) = String.utf8EncodeChar c ++ bytesOf cs := List.flatMap_cons

theorem decimal_lt_iff_mod {w m n : Nat} {x y : List UInt8} :
    bytesOf (decimal w m) ++ x < bytesOf (decimal w n) ++ y ↔
      m % 10 ^ w < n % 10 ^ w ∨ m % 10 ^ w = n % 10 ^ w ∧ x < y := by
  induction w with
  | zero => simp [decimal, bytesOf, Nat.mod_one]
  | succ w ih =>
    have hq : 0 < 10 ^ w := Nat.pow_pos (by omega)
    have hm := Nat.mod_lt m hq
    have hn := Nat.mod_lt n hq
    have hd : m / 10 ^ w % 10 < 10 := Nat.mod_lt _ (by omega)
    have he : n / 10 ^ w % 10 < 10 := Nat.mod_lt _ (by omega)
    have hm' : m % 10 ^ (w + 1) = m / 10 ^ w % 10 * 10 ^ w + m % 10 ^ w := by
      rw [Nat.mod_pow_succ, Nat.add_comm, Nat.mul_comm]
    have hn' : n % 10 ^ (w + 1) = n / 10 ^ w % 10 * 10 ^ w + n % 10 ^ w := by
      rw [Nat.mod_pow_succ, Nat.add_comm, Nat.mul_comm]
    rw [decimal, decimal, bytesOf_cons, bytesOf_cons, utf8EncodeChar_digit hd,
      utf8EncodeChar_digit he, List.append_assoc, List.append_assoc, List.singleton_append,
      List.singleton_append, List.cons_lt_cons_iff, digitByte_lt_iff hd he,
      digitByte_inj hd he, ih, hm', hn', lt_iff_of_parts hm hn, eq_iff_of_parts hm hn]
    tauto

/-- **Numbers written in as many digits are in the order of their texts.** -/
theorem decimal_lt_iff {w m n : Nat} {x y : List UInt8} (hm : m < 10 ^ w) (hn : n < 10 ^ w) :
    bytesOf (decimal w m) ++ x < bytesOf (decimal w n) ++ y ↔ m < n ∨ m = n ∧ x < y := by
  rw [decimal_lt_iff_mod, Nat.mod_eq_of_lt hm, Nat.mod_eq_of_lt hn]

/-- Texts that start alike are in the order of what follows. -/
theorem append_lt_append_iff {s x y : List UInt8} : s ++ x < s ++ y ↔ x < y := by
  induction s with
  | nil => rfl
  | cons b s ih => simp [ih]

/-! ## Bytes of a civil time -/

/-- The fields below the year, most significant first, down to the seconds;
within one second the order is a given one. -/
def RestLt (a b : CivilTime) (within : Prop) : Prop :=
  a.month < b.month ∨ a.month = b.month ∧ (a.day < b.day ∨ a.day = b.day ∧
    (a.hour < b.hour ∨ a.hour = b.hour ∧ (a.minute < b.minute ∨ a.minute = b.minute ∧
      (a.second < b.second ∨ a.second = b.second ∧ within))))

/-- The fields below the year down to the seconds are the same. -/
def SameRest (a b : CivilTime) : Prop :=
  a.month = b.month ∧ a.day = b.day ∧ a.hour = b.hour ∧ a.minute = b.minute
    ∧ a.second = b.second

theorem fieldLt_iff {a b : CivilTime} :
    a.FieldLt b ↔ a.year < b.year
      ∨ a.year = b.year ∧ RestLt a b (a.millisecond < b.millisecond) := Iff.rfl

/-- What the order is within one second matters only there. -/
theorem restLt_congr_iff {a b : CivilTime} {p q : Prop} :
    (RestLt a b p ↔ RestLt a b q) ↔ (SameRest a b → (p ↔ q)) := by
  unfold RestLt SameRest
  by_cases hsame : a.month = b.month ∧ a.day = b.day ∧ a.hour = b.hour ∧ a.minute = b.minute
    ∧ a.second = b.second
  · obtain ⟨h₁, h₂, h₃, h₄, h₅⟩ := hsame
    simp [h₁, h₂, h₃, h₄, h₅]
  · have hvoid : ∀ p : Prop, (a.month < b.month ∨ a.month = b.month ∧ (a.day < b.day
        ∨ a.day = b.day ∧ (a.hour < b.hour ∨ a.hour = b.hour ∧ (a.minute < b.minute
        ∨ a.minute = b.minute ∧ (a.second < b.second ∨ a.second = b.second ∧ p))))) ↔
        (a.month < b.month ∨ a.month = b.month ∧ (a.day < b.day
        ∨ a.day = b.day ∧ (a.hour < b.hour ∨ a.hour = b.hour ∧ (a.minute < b.minute
        ∨ a.minute = b.minute ∧ a.second < b.second)))) := by
      intro p
      tauto
    rw [hvoid p, hvoid q]
    simp [hsame]

/-- The bytes of a civil time below its year, before a tail. -/
def restBytes (c : CivilTime) (tail : List Char) : List UInt8 :=
  bytesOf ('-' :: decimal 2 c.month ++ '-' :: decimal 2 c.day ++ 'T' :: decimal 2 c.hour
    ++ ':' :: decimal 2 c.minute ++ ':' :: decimal 2 c.second ++ tail)

theorem lt_of_dayOfMonth (c : CivilTime) : c.month < 10 ^ 2 ∧ c.day < 10 ^ 2 ∧ c.hour < 10 ^ 2
    ∧ c.minute < 10 ^ 2 ∧ c.second < 10 ^ 2 ∧ c.millisecond < 10 ^ 3 := by
  obtain ⟨hm, hm'⟩ := c.validMonth
  obtain ⟨hd, hd'⟩ := c.validDay
  obtain ⟨hh, hmi, hs, hms⟩ := c.validTime
  have hmonth : CivilTime.monthStart (CivilTime.leapDays c.year) (c.month + 1)
      ≤ CivilTime.monthStart (CivilTime.leapDays c.year) c.month + 31 := by
    have hleap := CivilTime.leapDays_eq c.year
    generalize CivilTime.leapDays c.year = leap at hleap ⊢
    interval_cases c.month <;> simp only [CivilTime.monthStart] <;> omega
  omega

/-- **Below the year the order of the bytes is that of the fields.** -/
theorem restBytes_lt_iff {a b : CivilTime} {x y : List Char} :
    restBytes a x < restBytes b y ↔ RestLt a b (bytesOf x < bytesOf y) := by
  obtain ⟨ha₁, ha₂, ha₃, ha₄, ha₅, -⟩ := lt_of_dayOfMonth a
  obtain ⟨hb₁, hb₂, hb₃, hb₄, hb₅, -⟩ := lt_of_dayOfMonth b
  simp only [restBytes, bytesOf_append, bytesOf_cons, List.append_assoc]
  rw [append_lt_append_iff, decimal_lt_iff ha₁ hb₁, append_lt_append_iff, decimal_lt_iff ha₂ hb₂,
    append_lt_append_iff, decimal_lt_iff ha₃ hb₃, append_lt_append_iff, decimal_lt_iff ha₄ hb₄,
    append_lt_append_iff, decimal_lt_iff ha₅ hb₅, RestLt]

/-- The tail that writes the milliseconds, and the one that does not. -/
def tailOf (fraction : Bool) (millisecond : Nat) : List Char :=
  if fraction then '.' :: decimal 3 millisecond ++ ['Z'] else ['Z']

/-- **The order of two tails**: a fraction comes before its absence. -/
theorem tailOf_lt_iff {f g : Bool} {m n : Nat} (hm : m < 10 ^ 3) (hn : n < 10 ^ 3) :
    bytesOf (tailOf f m) < bytesOf (tailOf g n) ↔
      (f = true ∧ g = false) ∨ (f = true ∧ g = true ∧ m < n) := by
  have hz : bytesOf ['Z'] = [90] := by decide
  have hdot : ∀ n, bytesOf ('.' :: decimal 3 n ++ ['Z'])
      = 46 :: (bytesOf (decimal 3 n) ++ [90]) := by
    intro n
    rw [bytesOf_append, bytesOf_cons, hz]
    rfl
  have hafter : ¬ ((90 : UInt8) < 46) ∧ ¬ ((90 : UInt8) = 46) := by decide
  have hbefore : (46 : UInt8) < 90 := by decide
  cases f <;> cases g <;>
    simp only [tailOf, if_true, if_false, Bool.false_eq_true, hz, hdot, List.cons_lt_cons_iff,
      decimal_lt_iff hm hn]
  · simp
  · simp [hafter]
  · simp [hbefore]
  · simp

/-! ## Years -/

/-- The place of a year's era among the texts: years of six digits with a
plus, then those before year zero, then those of four digits. -/
def eraRank (y : Int) : Nat := if 9999 < y then 0 else if y < 0 then 1 else 2

/-- The order of the texts of two years: by their eras, and before year
zero backwards. -/
def YearTextLt (m n : Int) : Prop :=
  eraRank m < eraRank n ∨ eraRank m = eraRank n ∧ (if m < 0 then n < m else m < n)

/-- A four-digit year begins with a byte after both signs. -/
theorem bytesOf_decimal_four (n : Nat) : ∃ b rest,
    (43 : UInt8) < b ∧ (45 : UInt8) < b ∧ bytesOf (decimal 4 n) = b :: rest := by
  have hall : ∀ d : Fin 10,
      (43 : UInt8) < UInt8.ofNat (48 + d.val) ∧ (45 : UInt8) < UInt8.ofNat (48 + d.val) := by
    decide
  have hd : n / 10 ^ 3 % 10 < 10 := Nat.mod_lt _ (by omega)
  refine ⟨UInt8.ofNat (48 + n / 10 ^ 3 % 10), bytesOf (decimal 3 n), (hall ⟨_, hd⟩).1,
    (hall ⟨_, hd⟩).2, ?_⟩
  rw [decimal, bytesOf_cons, utf8EncodeChar_digit hd]
  rfl

/-- The bytes of a year, by its era. -/
theorem bytesOf_yearText (y : Int) :
    (eraRank y = 0 ∧ 9999 < y ∧ bytesOf (yearText y) = 43 :: bytesOf (decimal 6 y.natAbs))
      ∨ (eraRank y = 1 ∧ y < 0 ∧ bytesOf (yearText y) = 45 :: bytesOf (decimal 6 y.natAbs))
      ∨ (eraRank y = 2 ∧ 0 ≤ y ∧ y ≤ 9999
        ∧ bytesOf (yearText y) = bytesOf (decimal 4 y.natAbs)) := by
  unfold eraRank yearText
  by_cases hneg : y < 0
  · refine .inr (.inl ⟨by rw [if_neg (by omega), if_pos hneg], hneg, ?_⟩)
    rw [if_pos hneg, bytesOf_cons]
    rfl
  · by_cases hfar : 9999 < y
    · refine .inl ⟨if_pos hfar, hfar, ?_⟩
      rw [if_neg hneg, if_neg (by omega), bytesOf_cons]
      rfl
    · refine .inr (.inr ⟨by rw [if_neg hfar, if_neg hneg], by omega, by omega, ?_⟩)
      rw [if_neg hneg, if_pos (by omega)]

/-- **The order of two texts that begin with a year.** -/
theorem yearText_lt_iff {m n : Int} {x y : List UInt8} (hm : m.natAbs < 10 ^ 6)
    (hn : n.natAbs < 10 ^ 6) :
    bytesOf (yearText m) ++ x < bytesOf (yearText n) ++ y ↔
      YearTextLt m n ∨ m = n ∧ x < y := by
  unfold YearTextLt
  have hplusMinus : (43 : UInt8) < 45 ∧ ¬ ((45 : UInt8) < 43) ∧ ¬ ((45 : UInt8) = 43) := by
    decide
  rcases bytesOf_yearText m with ⟨hm₁, hm₂, hm₃⟩ | ⟨hm₁, hm₂, hm₃⟩ | ⟨hm₁, hm₂, hm₂', hm₃⟩ <;>
  rcases bytesOf_yearText n with ⟨hn₁, hn₂, hn₃⟩ | ⟨hn₁, hn₂, hn₃⟩ | ⟨hn₁, hn₂, hn₂', hn₃⟩ <;>
  rw [hm₁, hn₁, hm₃, hn₃]
  -- the plus against the plus, the minus and a digit
  · rw [List.cons_append, List.cons_append, List.cons_lt_cons_iff, decimal_lt_iff hm hn,
      if_neg (by omega)]
    simp only [UInt8.lt_irrefl, false_or, true_and, lt_self_iff_false]
    have : m.natAbs < n.natAbs ↔ m < n := by omega
    have : m.natAbs = n.natAbs ↔ m = n := by omega
    tauto
  · simp [List.cons_lt_cons_iff, hplusMinus]
  · obtain ⟨b, rest, hplus, -, hb⟩ := bytesOf_decimal_four n.natAbs
    rw [hb]
    simp [List.cons_lt_cons_iff, hplus]
  -- the minus against them
  · have hne : m ≠ n := by omega
    simp [List.cons_lt_cons_iff, hplusMinus, hne]
  · rw [List.cons_append, List.cons_append, List.cons_lt_cons_iff, decimal_lt_iff hm hn,
      if_pos hm₂]
    simp only [UInt8.lt_irrefl, false_or, true_and, lt_self_iff_false]
    have : m.natAbs < n.natAbs ↔ n < m := by omega
    have : m.natAbs = n.natAbs ↔ m = n := by omega
    tauto
  · obtain ⟨b, rest, -, hminus, hb⟩ := bytesOf_decimal_four n.natAbs
    rw [hb]
    simp [List.cons_lt_cons_iff, hminus]
  -- a digit against them
  · obtain ⟨b, rest, hplus, -, hb⟩ := bytesOf_decimal_four m.natAbs
    have hne : m ≠ n := by omega
    rw [hb, List.cons_append, List.cons_append, List.cons_lt_cons_iff]
    simp [hne, UInt8.lt_asymm hplus, (UInt8.ne_of_lt hplus).symm]
  · obtain ⟨b, rest, -, hminus, hb⟩ := bytesOf_decimal_four m.natAbs
    have hne : m ≠ n := by omega
    rw [hb, List.cons_append, List.cons_append, List.cons_lt_cons_iff]
    simp [hne, UInt8.lt_asymm hminus, (UInt8.ne_of_lt hminus).symm]
  · rw [decimal_lt_iff (by omega) (by omega), if_neg (by omega)]
    simp only [true_and, lt_self_iff_false, false_or]
    have : m.natAbs < n.natAbs ↔ m < n := by omega
    have : m.natAbs = n.natAbs ↔ m = n := by omega
    tauto

/-- **Years are in the order of their texts** in one era, not before year
zero. -/
theorem yearTextLt_iff_lt {m n : Int} (hne : m ≠ n) :
    (m < n ↔ YearTextLt m n) ↔ (9999 < m ↔ 9999 < n) ∧ ¬ (m < 0 ∧ n < 0) := by
  unfold YearTextLt eraRank
  by_cases hm : 9999 < m <;> by_cases hn : 9999 < n <;> by_cases hm' : m < 0 <;>
    by_cases hn' : n < 0 <;> simp [hm, hn, hm', hn'] <;> omega

/-! ## Spellings -/

/-- Whether a text writes the milliseconds of its instant. -/
def WritesMilliseconds (text : String) : Prop := (dateParse text).map toISOString = some text

instance (text : String) : Decidable (WritesMilliseconds text) :=
  inferInstanceAs (Decidable (_ = _))

/-- The year of an instant. -/
def yearOf (t : Int) : Int := (CivilTime.ofTimeValue t).year

/-- **Spelled in order**: the texts of two instants, the earlier event
first, are in one era – in one year, before year zero – and within one
second both write the milliseconds or neither does, unless the later one
leaves out the zeros the earlier one writes. -/
def SpelledInOrder (last next : String) : Prop :=
  ∀ t ∈ dateParse last, ∀ u ∈ dateParse next,
    (9999 < yearOf t ↔ 9999 < yearOf u)
      ∧ (yearOf t < 0 ∧ yearOf u < 0 → yearOf t = yearOf u)
      ∧ (t / 1000 = u / 1000 → (WritesMilliseconds last ↔ WritesMilliseconds next)
        ∨ (WritesMilliseconds last ∧ t % 1000 = 0))

/-- An admitted text is the seconds of its instant and one of two tails. -/
theorem exists_spelling {text : String} {t : Int} (ht : dateParse text = some t)
    (htext : text = toISOString t ∨ text = wholeSeconds t) :
    ∃ fraction : Bool, (fraction = true ↔ WritesMilliseconds text)
      ∧ (fraction = false → t % 1000 = 0)
      ∧ text = String.ofList (secondsText (CivilTime.ofTimeValue t)
        ++ tailOf fraction (CivilTime.ofTimeValue t).millisecond) := by
  have hmillisecond : (CivilTime.ofTimeValue t).millisecond = (t % 86400000 % 1000).toNat := rfl
  have hwrites : WritesMilliseconds text ↔ toISOString t = text := by
    simp [WritesMilliseconds, ht]
  have hiso : toISOString t = String.ofList (secondsText (CivilTime.ofTimeValue t)
      ++ tailOf true (CivilTime.ofTimeValue t).millisecond) := by
    simp [toISOString, tailOf]
  by_cases hfull : text = toISOString t
  · exact ⟨true, by rw [hwrites]; simp [← hfull], by simp, hfull.trans hiso⟩
  · have hwhole : text = wholeSeconds t := htext.resolve_left hfull
    have hzero : (CivilTime.ofTimeValue t).millisecond = 0 := by
      by_contra hne
      rw [wholeSeconds, if_neg hne] at hwhole
      exact hfull hwhole
    refine ⟨false, by simp [hwrites, Ne.symm hfull], fun _ => by omega, ?_⟩
    rw [hwhole, wholeSeconds, if_pos hzero]
    rfl

/-- The year of an admissible instant has at most six digits. -/
theorem natAbs_yearOf_lt {t : Int} (h : t.natAbs ≤ maxTimeValue) :
    (yearOf t).natAbs < 10 ^ 6 := by
  have hday := CivilTime.dayFromYear_yearOfDay (t / 86400000)
  have hmax : maxTimeValue = 8640000000000000 := rfl
  show (CivilTime.yearOfDay (t / 86400000)).natAbs < 10 ^ 6
  generalize CivilTime.yearOfDay (t / 86400000) = y at hday
  unfold CivilTime.dayFromYear at hday
  omega

theorem dateParse_bound {text : String} {t : Int} (h : dateParse text = some t) :
    t.natAbs ≤ maxTimeValue := by
  simp only [dateParse, Option.bind_eq_bind, Option.bind_eq_some_iff] at h
  obtain ⟨c, -, h⟩ := h
  split at h
  · next hbound => exact Option.some.inj h ▸ hbound
  · exact absurd h (by simp)

/-- Two instants are in one second when the fields of their civil times
agree down to the seconds. -/
theorem sameSecond_iff {t u : Int} : t / 1000 = u / 1000 ↔ yearOf t = yearOf u
    ∧ SameRest (CivilTime.ofTimeValue t) (CivilTime.ofTimeValue u) := by
  constructor
  · intro h
    have hday : t / 86400000 = u / 86400000 := by omega
    refine ⟨congrArg CivilTime.yearOfDay hday, ?_⟩
    unfold SameRest CivilTime.ofTimeValue
    simp only [hday, true_and]
    omega
  · rintro ⟨hyear, hmonth, hday, hhour, hminute, hsecond⟩
    have ht := CivilTime.timeValue_ofTimeValue t
    have hu := CivilTime.timeValue_ofTimeValue u
    obtain ⟨-, -, -, hms⟩ := (CivilTime.ofTimeValue t).validTime
    obtain ⟨-, -, -, hms'⟩ := (CivilTime.ofTimeValue u).validTime
    have hepoch : (CivilTime.ofTimeValue t).epochDay = (CivilTime.ofTimeValue u).epochDay := by
      unfold CivilTime.epochDay
      rw [show (CivilTime.ofTimeValue t).year = (CivilTime.ofTimeValue u).year from hyear,
        hmonth, hday]
    rw [CivilTime.timeValue, CivilTime.millisecondOfDay] at ht hu
    rw [hepoch, hhour, hminute, hsecond] at ht
    omega

theorem binaryLt_iff {a b : CivilTime} {f g : Bool} (ha : a.year.natAbs < 10 ^ 6)
    (hb : b.year.natAbs < 10 ^ 6) :
    binaryLt (String.ofList (secondsText a ++ tailOf f a.millisecond))
        (String.ofList (secondsText b ++ tailOf g b.millisecond)) = true ↔
      YearTextLt a.year b.year ∨ a.year = b.year
        ∧ RestLt a b (f = true ∧ g = false ∨ f = true ∧ g = true ∧ a.millisecond < b.millisecond) := by
  have hbytes : ∀ (c : CivilTime) (tail : List Char),
      utf8Bytes (String.ofList (secondsText c ++ tail))
        = bytesOf (yearText c.year) ++ restBytes c tail := by
    intro c tail
    rw [utf8Bytes_ofList]
    show bytesOf (secondsText c ++ tail) = _
    simp only [secondsText, restBytes, bytesOf_append, List.append_assoc]
  obtain ⟨-, -, -, -, -, hm⟩ := lt_of_dayOfMonth a
  obtain ⟨-, -, -, -, -, hn⟩ := lt_of_dayOfMonth b
  rw [binaryLt, decide_eq_true_eq, hbytes, hbytes, yearText_lt_iff ha hb, restBytes_lt_iff,
    tailOf_lt_iff hm hn]

/-- The comparison of the instants of two admitted texts, by their fields. -/
theorem dateLt_iff {left right : String} {t u : Int} (ht : dateParse left = some t)
    (hu : dateParse right = some u) :
    dateLt left right = true ↔ yearOf t < yearOf u ∨ yearOf t = yearOf u
      ∧ RestLt (CivilTime.ofTimeValue t) (CivilTime.ofTimeValue u)
        ((CivilTime.ofTimeValue t).millisecond < (CivilTime.ofTimeValue u).millisecond) := by
  simp only [dateLt, ht, hu, decide_eq_true_eq]
  conv_lhs => rw [← CivilTime.timeValue_ofTimeValue t, ← CivilTime.timeValue_ofTimeValue u]
  rw [CivilTime.timeValue_lt_iff, fieldLt_iff]
  rfl

/-- **The two comparisons agree exactly on texts spelled in order.** -/
theorem comparisons_agree_iff {last next label label' v w : String}
    (hlast : controlTimestamp last label = .ok v) (hnext : controlTimestamp next label' = .ok w) :
    (dateLt next last = true ↔ binaryLt next last = true) ↔ SpelledInOrder last next := by
  obtain ⟨-, t, ht, htext⟩ := controlTimestamp_eq_ok_iff.mp hlast
  obtain ⟨-, u, hu, hutext⟩ := controlTimestamp_eq_ok_iff.mp hnext
  obtain ⟨g, hg, hgzero, hspelled⟩ := exists_spelling ht htext
  obtain ⟨f, hf, hfzero, huspelled⟩ := exists_spelling hu hutext
  have hyear := natAbs_yearOf_lt (dateParse_bound ht)
  have huyear := natAbs_yearOf_lt (dateParse_bound hu)
  have hbytes : binaryLt next last = true ↔ YearTextLt (yearOf u) (yearOf t)
      ∨ yearOf u = yearOf t ∧ RestLt (CivilTime.ofTimeValue u) (CivilTime.ofTimeValue t)
        (f = true ∧ g = false ∨ f = true ∧ g = true
          ∧ (CivilTime.ofTimeValue u).millisecond < (CivilTime.ofTimeValue t).millisecond) := by
    conv_lhs => rw [hspelled, huspelled]
    exact binaryLt_iff huyear hyear
  have horder : SpelledInOrder last next ↔ (9999 < yearOf t ↔ 9999 < yearOf u)
      ∧ (yearOf t < 0 ∧ yearOf u < 0 → yearOf t = yearOf u)
      ∧ (t / 1000 = u / 1000 → (g = true ↔ f = true) ∨ (g = true ∧ t % 1000 = 0)) := by
    simp only [SpelledInOrder, ht, hu, Option.mem_def, Option.some.injEq, forall_eq', hf, hg]
  have hms : ∀ t : Int, ((CivilTime.ofTimeValue t).millisecond : Int) = t % 1000 := by
    intro t
    simp only [CivilTime.ofTimeValue]
    omega
  have htms := hms t
  have hums := hms u
  rw [dateLt_iff hu ht, hbytes, horder, sameSecond_iff]
  by_cases hsame : yearOf u = yearOf t
  · -- In one year the eras agree, and only what is within a second counts.
    have hirrefl : ¬ YearTextLt (yearOf t) (yearOf t) := by simp [YearTextLt]
    simp only [hsame, hirrefl, lt_irrefl, false_or, true_and, iff_self, implies_true]
    rw [restLt_congr_iff]
    have hback : SameRest (CivilTime.ofTimeValue u) (CivilTime.ofTimeValue t)
        ↔ SameRest (CivilTime.ofTimeValue t) (CivilTime.ofTimeValue u) := by
      unfold SameRest
      omega
    rw [hback]
    refine imp_congr_right fun _ => ?_
    generalize (CivilTime.ofTimeValue t).millisecond = m at htms
    generalize (CivilTime.ofTimeValue u).millisecond = n at hums
    cases f <;> cases g <;> simp at hgzero hfzero ⊢ <;> omega
  · -- In two years no second is shared, and the era decides.
    have hsame' : ¬ yearOf t = yearOf u := fun h => hsame h.symm
    simp only [hsame, hsame', false_and, or_false, false_implies, and_true]
    rw [yearTextLt_iff_lt hsame]
    constructor <;> rintro ⟨h₁, h₂⟩ <;> exact ⟨h₁.symm, fun h => h₂ ⟨h.2, h.1⟩⟩

/-! ## The journal -/

/-- The last event of a replay is the last of its journal. -/
theorem lastEvent_of_replay {resolve : DeliveryRecordRevisionResolver} {r : Replay}
    {events : List ControlRecordEvent} (h : replayDeliveryEvents resolve events = .ok r) :
    r.lastEvent = events.getLast? := by
  induction events using List.reverseRecOn generalizing r with
  | nil =>
    obtain rfl : freshReplay = r := by simpa [replayDeliveryEvents] using h
    rfl
  | append_singleton events event =>
    obtain ⟨s, -, hstep⟩ := replay_snoc_eq_ok.mp h
    obtain ⟨_, _, _, _, _, _, _, _, rfl⟩ := append_eq_ok.mp hstep
    simp

/-- The time of the last event of a journal. -/
def lastTime (events : List ControlRecordEvent) : Option String :=
  events.getLast?.map (·.occurredAt)

/-- **The checks of the append and of the reducer agree with the trigger
exactly when the next event is spelled in order after the last one.** -/
theorem triggerAdmitsTime_agrees_iff {resolve : DeliveryRecordRevisionResolver} {r : Replay}
    {events : List ControlRecordEvent} {event : ControlRecordEvent} {label v : String}
    (hreplay : replayDeliveryEvents resolve events = .ok r)
    (htime : controlTimestamp event.occurredAt label = .ok v) :
    ((¬ precedes event r ∧ assertEventTime (lastTime events) event.occurredAt = .ok ()) ↔
        triggerAdmitsTime (lastTime events) event.occurredAt = true) ↔
      ∀ last ∈ lastTime events, SpelledInOrder last event.occurredAt := by
  have hlast := lastEvent_of_replay hreplay
  have hjournaled := Journaled.of_reachable (reachable_of_replay hreplay)
  cases hevents : events.getLast? with
  | none =>
    have hempty := hjournaled.first (hlast.trans hevents)
    simp [lastTime, hevents, hempty, precedes, freshReplay, assertEventTime, triggerAdmitsTime,
      binaryLt]
  | some last =>
    obtain ⟨hoccurred, hcontrol⟩ := hjournaled.time last (hlast.trans hevents)
    have hprecedes : precedes event r ↔ dateLt event.occurredAt last.occurredAt = true := by
      obtain ⟨-, t, ht, -⟩ := controlTimestamp_eq_ok_iff.mp (hcontrol "")
      obtain ⟨-, u, hu, -⟩ := controlTimestamp_eq_ok_iff.mp htime
      simp [precedes, hoccurred, dateLt, ht, hu]
    have hassert : assertEventTime (lastTime events) event.occurredAt = .ok () ↔
        ¬ dateLt event.occurredAt last.occurredAt = true := by
      simp [assertEventTime, lastTime, hevents]
    have htrigger : triggerAdmitsTime (lastTime events) event.occurredAt = true ↔
        ¬ binaryLt event.occurredAt last.occurredAt = true := by
      simp [triggerAdmitsTime, lastTime, hevents]
    rw [hprecedes, hassert, and_self, htrigger, not_iff_not,
      comparisons_agree_iff (hcontrol "") htime]
    simp [lastTime, hevents]

namespace Sample

/-- Half a second after the creation of the sample delivery, which writes
no milliseconds. -/
def laterPlace : EventPlace :=
  { firstPlace with eventId := "event-2", occurredAt := "2026-01-05T09:00:00.500Z" }

/-- A brief of the sample delivery, half a second after its creation. -/
def laterBrief : ControlRecordEvent :=
  place created laterPlace (finalizes "event-2" .directorBriefSubmitted "prepare-1" prepareBrief).draft

theorem laterPlace_time (label : String) :
    controlTimestamp laterPlace.occurredAt label = .ok laterPlace.occurredAt :=
  controlTimestamp_eq_ok_iff.mpr ⟨rfl, 1767603600500, by decide +kernel, by decide +kernel⟩

theorem laterPlace_follows : laterPlace.Follows created where
  store := by decide +kernel
  process := by decide +kernel
  event := by decide +kernel
  actor := by decide +kernel
  time := laterPlace_time
  room := by decide
  scope := by
    intro last hlast
    obtain rfl := Option.some.inj hlast
    exact ⟨rfl, rfl, by decide⟩
  fresh := by decide +kernel
  notBefore := by decide +kernel

end Sample

/-- The two layers agree, or disagree, on the brief after the creation. -/
theorem triggerAdmitsTime_agrees_iff_sample : ∃ r events,
    replayDeliveryEvents (resolverOf Sample.admittedRevisions) events = .ok r
      ∧ (((¬ precedes Sample.laterBrief r
          ∧ assertEventTime (lastTime events) Sample.laterBrief.occurredAt = .ok ()) ↔
          triggerAdmitsTime (lastTime events) Sample.laterBrief.occurredAt = true) ↔
        ∀ last ∈ lastTime events, SpelledInOrder last Sample.laterBrief.occurredAt) := by
  obtain ⟨events, hreplay⟩ :=
    replay_of_reachable (Sample.reachable_created (resolverOf Sample.admittedRevisions))
  exact ⟨_, events, hreplay, triggerAdmitsTime_agrees_iff hreplay (Sample.laterPlace_time "")⟩

/-- **The trigger refuses an event the reducer and the append accept**: the
brief is half a second later than the creation and its text comes before
it. -/
theorem triggerAdmitsTime_refuses_later : ∃ r events verified,
    replayDeliveryEvents (resolverOf Sample.admittedRevisions) events = .ok r
      ∧ controlTimestamp Sample.laterBrief.occurredAt "" = .ok Sample.laterBrief.occurredAt
      ∧ verifyEnvelope r Sample.laterBrief (lastSequence r + 1) = .ok verified
      ∧ ¬ precedes Sample.laterBrief r
      ∧ assertEventTime (lastTime events) Sample.laterBrief.occurredAt = .ok ()
      ∧ triggerAdmitsTime (lastTime events) Sample.laterBrief.occurredAt = false := by
  obtain ⟨events, hreplay⟩ :=
    replay_of_reachable (Sample.reachable_created (resolverOf Sample.admittedRevisions))
  have hlast : lastTime events = some "2026-01-05T09:00:00Z" := by
    rw [lastTime, ← lastEvent_of_replay hreplay]
    rfl
  have hadmits : (Sample.finalizes "event-2" .directorBriefSubmitted "prepare-1"
      Sample.prepareBrief).Admits := by decide +kernel
  refine ⟨_, events, _, hreplay, Sample.laterPlace_time "",
    verifyEnvelope_place hadmits.admissible Sample.laterPlace_follows, ?_, ?_, ?_⟩
  · exact Sample.laterPlace_follows.notBefore
  · rw [hlast]
    exact failIf_neg (by decide +kernel)
  · rw [hlast]
    decide +kernel
