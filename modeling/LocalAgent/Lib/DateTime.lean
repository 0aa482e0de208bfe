import Mathlib.Tactic.IntervalCases
import Mathlib.Tactic.Ring

/-!
# LocalAgent.Lib.DateTime — calendar date-times and their ISO 8601 text

`DateTime` is a proleptic Gregorian date-time with microseconds and an optional UTC offset; a value
whose fields are out of range cannot be built.  `isoformat` writes the extended format and
`fromisoformat` reads every text of that format back.

* `readDigits_digits`: a fixed-width decimal field reads back.
* `fromisoformat_isoformat`: for a date-time at offset zero, reading what was written gives it back.
* `<` compares two date-times of the same offset (the modelled programs compare UTC values only),
  through the strictly monotone `ticks`.
-/

namespace LocalAgent

/-! ## Fixed-width decimal fields -/

section Digits

/-- The last `w` decimal digits of `n`, most significant first. -/
def digits : ℕ → ℕ → List Char
  | 0, _ => []
  | w + 1, n => digits w (n / 10) ++ [Nat.digitChar (n % 10)]

def digitValue (c : Char) : Option ℕ :=
  if '0' ≤ c ∧ c ≤ '9' then some (c.toNat - '0'.toNat) else none

/-- Read exactly `w` decimal digits on top of `acc`. -/
def readDigitsFrom : ℕ → ℕ → List Char → Option (ℕ × List Char)
  | 0, acc, cs => some (acc, cs)
  | _ + 1, _, [] => none
  | w + 1, acc, c :: cs => (digitValue c).bind fun d => readDigitsFrom w (acc * 10 + d) cs

/-- Read exactly `w` decimal digits. -/
def readDigits (w : ℕ) (cs : List Char) : Option (ℕ × List Char) := readDigitsFrom w 0 cs

/-- Read the character `c`. -/
def expect (c : Char) : List Char → Option (List Char)
  | [] => none
  | c' :: cs => if c' = c then some cs else none

theorem digitValue_digitChar {d : ℕ} (h : d < 10) : digitValue (Nat.digitChar d) = some d := by
  interval_cases d <;> rfl

/-- The digits that were written are read back, before any rest. -/
theorem readDigitsFrom_digits_append (w : ℕ) : ∀ (v n acc : ℕ) (rest : List Char), n < 10 ^ w →
    readDigitsFrom (w + v) acc (digits w n ++ rest) = readDigitsFrom v (acc * 10 ^ w + n) rest := by
  induction w with
  | zero =>
    intro v n acc rest h
    obtain rfl : n = 0 := by simpa using h
    simp [digits]
  | succ w ih =>
    intro v n acc _ h
    have hq : n / 10 < 10 ^ w := by
      rw [Nat.div_lt_iff_lt_mul (by norm_num)]
      simpa [pow_succ] using h
    have hr : n % 10 < 10 := Nat.mod_lt _ (by norm_num)
    have hval : (acc * 10 ^ w + n / 10) * 10 + n % 10 = acc * 10 ^ (w + 1) + n := by
      have := Nat.div_add_mod n 10
      rw [pow_succ]
      ring_nf
      ring_nf at this
      omega
    rw [digits, List.append_assoc, show w + 1 + v = w + (v + 1) by omega, ih _ _ _ _ hq]
    simp only [List.singleton_append, readDigitsFrom, digitValue_digitChar hr, Option.bind_some]
    rw [hval]

@[simp] theorem readDigits_digits {w n : ℕ} (h : n < 10 ^ w) (rest : List Char) :
    readDigits w (digits w n ++ rest) = some (n, rest) := by
  have := readDigitsFrom_digits_append w 0 n 0 rest h
  simpa [readDigits, readDigitsFrom] using this

@[simp] theorem expect_cons (c : Char) (cs : List Char) : expect c (c :: cs) = some cs := by
  simp [expect]

end Digits

/-! ## Date-times -/

def daysInMonth (year month : ℕ) : ℕ :=
  if month = 2 then
    if year % 4 = 0 ∧ (year % 100 ≠ 0 ∨ year % 400 = 0) then 29 else 28
  else if month = 4 ∨ month = 6 ∨ month = 9 ∨ month = 11 then 30 else 31

def dayMicros : ℤ := 86400 * 1000000

/-- A date-time with all fields in range; `utcoffset` is `none` for a naive value, else the offset
in microseconds. -/
structure DateTime where
  year : ℕ
  month : ℕ
  day : ℕ
  hour : ℕ
  minute : ℕ
  second : ℕ
  microsecond : ℕ
  utcoffset : Option ℤ
  date_ok : 1 ≤ year ∧ year ≤ 9999 ∧ 1 ≤ month ∧ month ≤ 12 ∧ 1 ≤ day ∧ day ≤ daysInMonth year month
  time_ok : hour < 24 ∧ minute < 60 ∧ second < 60 ∧ microsecond < 1000000
  offset_ok : ∀ o ∈ utcoffset, -dayMicros < o ∧ o < dayMicros
  deriving DecidableEq

namespace DateTime

/-- Build a date-time from its fields; `none` when a field is out of range. -/
def build (year month day hour minute second microsecond : ℕ) (utcoffset : Option ℤ) :
    Option DateTime :=
  if h : (1 ≤ year ∧ year ≤ 9999 ∧ 1 ≤ month ∧ month ≤ 12 ∧ 1 ≤ day ∧
        day ≤ daysInMonth year month) ∧
      (hour < 24 ∧ minute < 60 ∧ second < 60 ∧ microsecond < 1000000) ∧
      ∀ o ∈ utcoffset, -dayMicros < o ∧ o < dayMicros then
    some ⟨year, month, day, hour, minute, second, microsecond, utcoffset, h.1, h.2.1, h.2.2⟩
  else none

/-- Aware, with offset zero. -/
def IsUtc (d : DateTime) : Prop := d.utcoffset = some 0
  deriving Decidable

instance : NeZero 60 := ⟨by decide⟩

/-- `1970-01-01T00:00:ss+00:00`. -/
def epochSecond (second : Fin 60) : DateTime where
  year := 1970
  month := 1
  day := 1
  hour := 0
  minute := 0
  second := second
  microsecond := 0
  utcoffset := some 0
  date_ok := by decide
  time_ok := by have := second.isLt; omega
  offset_ok := by simp [dayMicros]

/-- A reading of the UTC clock. -/
abbrev Utc := { d : DateTime // d.IsUtc }

def Utc.epochSecond (second : Fin 60) : Utc := ⟨.epochSecond second, rfl⟩

/-- `2026-01-01T00:00:00+00:00`. -/
def newYear : DateTime := ⟨2026, 1, 1, 0, 0, 0, 0, some 0, by decide, by decide, by decide⟩

/-- A strictly monotone count of the fields, in the order of the calendar. -/
def ticks (d : DateTime) : ℕ :=
  (((((d.year * 13 + d.month) * 32 + d.day) * 24 + d.hour) * 60 + d.minute) * 60 + d.second) *
    1000000 + d.microsecond

instance : LT DateTime := ⟨fun a b => a.ticks < b.ticks⟩

instance (a b : DateTime) : Decidable (a < b) := inferInstanceAs (Decidable (_ < _))

theorem lt_iff {a b : DateTime} : a < b ↔ a.ticks < b.ticks := Iff.rfl

/-- `max(a, b)`: the first of the two unless the second is later. -/
def latest (a b : DateTime) : DateTime := if a < b then b else a

theorem not_latest_lt_left (a b : DateTime) : ¬ latest a b < a := by
  unfold latest
  split_ifs with h <;> rw [lt_iff] at * <;> omega

theorem not_latest_lt_right (a b : DateTime) : ¬ latest a b < b := by
  unfold latest
  split_ifs with h <;> rw [lt_iff] at * <;> omega

theorem latest_cases (a b : DateTime) : latest a b = a ∨ latest a b = b := by
  unfold latest
  split_ifs <;> simp

/-! ## ISO 8601 text -/

/-- `.ffffff`, left out when it is zero. -/
def fractionText (microsecond : ℕ) : List Char :=
  if microsecond = 0 then [] else '.' :: digits 6 microsecond

/-- `+HH:MM[:SS[.ffffff]]`, nothing for a naive value. -/
def offsetText : Option ℤ → List Char
  | none => []
  | some o =>
    let sign := if o < 0 then '-' else '+'
    let n := o.natAbs
    let seconds := n / 1000000 % 60
    let micros := n % 1000000
    sign :: digits 2 (n / 3600000000) ++ ':' :: digits 2 (n / 60000000 % 60) ++
      if seconds = 0 ∧ micros = 0 then [] else ':' :: digits 2 seconds ++ fractionText micros

/-- The extended format, as code points. -/
def isoChars (d : DateTime) : List Char :=
  digits 4 d.year ++ ('-' :: (digits 2 d.month ++ ('-' :: (digits 2 d.day ++ ('T' ::
    (digits 2 d.hour ++ (':' :: (digits 2 d.minute ++ (':' :: (digits 2 d.second ++
      (fractionText d.microsecond ++ offsetText d.utcoffset)))))))))))

/-- `d.isoformat()`. -/
def isoformat (d : DateTime) : String := String.ofList d.isoChars

/-- Read an optional `.ffffff`. -/
def readFraction : List Char → Option (ℕ × List Char)
  | '.' :: cs => readDigits 6 cs
  | cs => some (0, cs)

def readOffset (cs : List Char) : Option (Option ℤ) :=
  match cs with
  | [] => some none
  | sign :: cs =>
    if sign = '+' ∨ sign = '-' then do
      let (hours, cs) ← readDigits 2 cs
      let cs ← expect ':' cs
      let (minutes, cs) ← readDigits 2 cs
      let (seconds, micros) ← match cs with
        | [] => some (0, 0)
        | cs => do
          let cs ← expect ':' cs
          let (seconds, cs) ← readDigits 2 cs
          let (micros, cs) ← readFraction cs
          if cs = [] then some (seconds, micros) else none
      let n : ℤ := ((hours * 60 + minutes) * 60 + seconds) * 1000000 + micros
      some (some (if sign = '-' then -n else n))
    else none

/-- Read the extended format from code points. -/
def ofIsoChars (cs : List Char) : Option DateTime := do
  let (year, cs) ← readDigits 4 cs
  let cs ← expect '-' cs
  let (month, cs) ← readDigits 2 cs
  let cs ← expect '-' cs
  let (day, cs) ← readDigits 2 cs
  let cs ← expect 'T' cs
  let (hour, cs) ← readDigits 2 cs
  let cs ← expect ':' cs
  let (minute, cs) ← readDigits 2 cs
  let cs ← expect ':' cs
  let (second, cs) ← readDigits 2 cs
  let (microsecond, cs) ← readFraction cs
  let utcoffset ← readOffset cs
  build year month day hour minute second microsecond utcoffset

/-- `datetime.fromisoformat(text)`, on the texts `isoformat` writes; `none` is its `ValueError`. -/
def fromisoformat (text : String) : Option DateTime := ofIsoChars text.toList

theorem readFraction_fractionText {n : ℕ} (h : n < 1000000) {rest : List Char}
    (hrest : rest.head? ≠ some '.') : readFraction (fractionText n ++ rest) = some (n, rest) := by
  unfold fractionText
  split_ifs with h0
  · subst h0
    cases rest with
    | nil => rfl
    | cons c =>
      have hc : c ≠ '.' := by simpa using hrest
      simp [readFraction, hc]
  · exact readDigits_digits (by norm_num; exact h) rest

theorem readOffset_zero : readOffset (offsetText (some 0)) = some (some 0) := by decide

theorem build_fields (d : DateTime) :
    build d.year d.month d.day d.hour d.minute d.second d.microsecond d.utcoffset = some d := by
  unfold build
  rw [dif_pos ⟨d.date_ok, d.time_ok, d.offset_ok⟩]

/-- The round trip of a UTC time. -/
theorem fromisoformat_isoformat {d : DateTime} (h : d.IsUtc) :
    fromisoformat d.isoformat = some d := by
  obtain ⟨hy1, hy2, hm1, hm2, hd1, hd2⟩ := d.date_ok
  obtain ⟨hh, hmi, hs, hus⟩ := d.time_ok
  have hday : d.day < 10 ^ 2 := by
    have : daysInMonth d.year d.month ≤ 31 := by
      unfold daysInMonth
      split_ifs <;> omega
    omega
  have hoff : (offsetText d.utcoffset).head? ≠ some '.' := by
    rw [h]
    decide
  rw [fromisoformat, isoformat, String.toList_ofList, isoChars, ofIsoChars]
  simp only [readDigits_digits (show d.year < 10 ^ 4 by omega),
    readDigits_digits (show d.month < 10 ^ 2 by omega), readDigits_digits hday,
    readDigits_digits (show d.hour < 10 ^ 2 by omega),
    readDigits_digits (show d.minute < 10 ^ 2 by omega),
    readDigits_digits (show d.second < 10 ^ 2 by omega), expect_cons,
    readFraction_fractionText hus hoff, Option.bind_eq_bind, Option.bind_some]
  rw [h, readOffset_zero, Option.bind_some, ← h]
  exact build_fields d

end DateTime

end LocalAgent
