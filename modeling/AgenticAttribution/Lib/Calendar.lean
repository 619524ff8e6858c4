import AgenticAttribution.Lib.Digits
import Mathlib.Algebra.Order.Ring.Int
import Mathlib.Tactic.IntervalCases

/-!
# Lib.Calendar — instants, civil dates and RFC 3339

An instant is a number of nanoseconds since 1970-01-01T00:00:00Z in the proleptic Gregorian calendar without leap
seconds, which is the time scale of Go's `time.Time` and of ECMAScript's time values.  `formatRFC3339` writes an
instant in UTC to the second, `parseRFC3339` is the reader of Go's `time` package for that layout, `parseIso` the
part of ECMAScript's date-time format that has the same shape.  `parseRFC3339_format` and `parseIso_format` give
back what was written, to the second.
-/

namespace Calendar

def second : ℤ := 1000000000

def hour : ℤ := 3600 * second

/-! ## Days and dates -/

section Civil

/-- A date, with the time of day to the second. -/
structure DateTime where
  year : ℤ
  month : ℕ
  day : ℕ
  hour : ℕ
  minute : ℕ
  sec : ℕ
  deriving DecidableEq

def isLeap (y : ℤ) : Bool := y % 4 = 0 && (y % 100 ≠ 0 || y % 400 = 0)

def daysIn (month : ℕ) (year : ℤ) : ℕ :=
  if month = 2 then (if isLeap year then 29 else 28)
  else if month = 4 ∨ month = 6 ∨ month = 9 ∨ month = 11 then 30 else 31

/-- Days from the epoch to a date.  Years are counted from March, so that the leap day ends a year. -/
def daysOfCivil (year : ℤ) (month day : ℕ) : ℤ :=
  let y := if month ≤ 2 then year - 1 else year
  let mp : ℤ := if month ≤ 2 then month + 9 else month - 3
  365 * y + y / 4 - y / 100 + y / 400 + (153 * mp + 2) / 5 + day - 719469

/-- Years of four centuries, a century, four years and one year, and the day in the last of them. -/
structure Cycle where
  era : ℤ
  century : ℤ
  quad : ℤ
  one : ℤ
  doy : ℤ

/-- The cycle of a day; the last century and the last year of a cycle are a day longer than the others. -/
def cycleOfDays (z : ℤ) : Cycle :=
  let n := z + 719468
  let r := n % 146097
  let c := min (r / 36524) 3
  let r := r - 36524 * c
  let q := r / 1461
  let r := r - 1461 * q
  let a := min (r / 365) 3
  ⟨n / 146097, c, q, a, r - 365 * a⟩

/-- The date of a day, as year, month and day of the month. -/
def civilOfDays (z : ℤ) : ℤ × ℕ × ℕ :=
  let k := cycleOfDays z
  let y := 400 * k.era + 100 * k.century + 4 * k.quad + k.one
  let mp := (5 * k.doy + 2) / 153
  let d := k.doy - (153 * mp + 2) / 5 + 1
  if mp < 10 then (y, (mp + 3).toNat, d.toNat) else (y + 1, (mp - 9).toNat, d.toNat)

/-- The date and time of day of an instant, in UTC. -/
def civil (t : ℤ) : DateTime :=
  let s := t / second
  let sod := s % 86400
  let date := civilOfDays (s / 86400)
  ⟨date.1, date.2.1, date.2.2, (sod / 3600).toNat, (sod / 60 % 60).toNat, (sod % 60).toNat⟩

/-- The instant of a date and time of day in UTC. -/
def instant (d : DateTime) (nanos : ℕ) : ℤ :=
  ((daysOfCivil d.year d.month d.day * 24 + d.hour) * 60 + d.minute) * 60 * second + d.sec * second + nanos

/-- What the parts of a cycle range over. -/
structure Cycle.Ok (k : Cycle) : Prop where
  century : 0 ≤ k.century ∧ k.century ≤ 3
  quad : 0 ≤ k.quad ∧ k.quad ≤ 24
  one : 0 ≤ k.one ∧ k.one ≤ 3
  doy : 0 ≤ k.doy ∧ k.doy ≤ 365
  leap : k.doy = 365 → k.one = 3 ∧ (k.quad = 24 → k.century = 3)

theorem cycleOfDays_ok (z : ℤ) : (cycleOfDays z).Ok := by
  constructor <;> simp only [cycleOfDays] <;> omega

theorem cycleOfDays_sum (z : ℤ) :
    146097 * (cycleOfDays z).era + 36524 * (cycleOfDays z).century + 1461 * (cycleOfDays z).quad
      + 365 * (cycleOfDays z).one + (cycleOfDays z).doy = z + 719468 := by
  simp only [cycleOfDays]
  omega

theorem daysOfCivil_civilOfDays (z : ℤ) :
    daysOfCivil (civilOfDays z).1 (civilOfDays z).2.1 (civilOfDays z).2.2 = z := by
  have hsum := cycleOfDays_sum z
  obtain ⟨hc, hq, ho, hd, -⟩ := cycleOfDays_ok z
  generalize hk : cycleOfDays z = k at *
  have hmp : 0 ≤ (5 * k.doy + 2) / 153 ∧ (5 * k.doy + 2) / 153 ≤ 11 := by omega
  have hday : 0 ≤ k.doy - (153 * ((5 * k.doy + 2) / 153) + 2) / 5 := by omega
  simp only [civilOfDays, hk]
  split_ifs with h
  · have hm : ¬((5 * k.doy + 2) / 153 + 3).toNat ≤ 2 := by omega
    simp only [daysOfCivil, if_neg hm]
    omega
  · have hm : ((5 * k.doy + 2) / 153 - 9).toNat ≤ 2 := by omega
    simp only [daysOfCivil, if_pos hm]
    omega

theorem civilOfDays_ok (z : ℤ) :
    1 ≤ (civilOfDays z).2.1 ∧ (civilOfDays z).2.1 ≤ 12 ∧ 1 ≤ (civilOfDays z).2.2 ∧
      (civilOfDays z).2.2 ≤ daysIn (civilOfDays z).2.1 (civilOfDays z).1 := by
  obtain ⟨hc, hq, ho, hd, hl⟩ := cycleOfDays_ok z
  generalize hk : cycleOfDays z = k at *
  have hleap : k.doy = 365 → isLeap (400 * k.era + 100 * k.century + 4 * k.quad + k.one + 1) = true := by
    intro h
    obtain ⟨h3, h24⟩ := hl h
    simp only [isLeap, Bool.and_eq_true, Bool.or_eq_true, decide_eq_true_eq]
    omega
  simp only [civilOfDays, hk]
  obtain ⟨mp, hmp⟩ : ∃ mp, mp = (5 * k.doy + 2) / 153 := ⟨_, rfl⟩
  rw [← hmp]
  have hlo : 0 ≤ mp := by omega
  have hhi : mp ≤ 11 := by omega
  by_cases h11 : mp = 11
  · -- February, the last month of a year counted from March
    subst h11
    simp only [daysIn]
    by_cases h365 : k.doy = 365
    · simp [hleap h365, h365]
    · have hd : (k.doy - 337 + 1).toNat ≤ 28 := by omega
      split_ifs <;> simp <;> omega
  · interval_cases mp <;> simp [daysIn] <;> omega

/-- A month of the year, a day of that month and a time of day. -/
def DateTime.inRange (d : DateTime) : Bool :=
  1 ≤ d.month && d.month ≤ 12 && 1 ≤ d.day && d.day ≤ daysIn d.month d.year &&
    d.hour < 24 && d.minute < 60 && d.sec < 60

theorem civil_inRange (t : ℤ) : (civil t).inRange = true := by
  obtain ⟨hm, hm', hd, hd'⟩ := civilOfDays_ok (t / second / 86400)
  have hh : (t / second % 86400 / 3600).toNat < 24 := by omega
  have hmin : (t / second % 86400 / 60 % 60).toNat < 60 := by omega
  have hs : (t / second % 86400 % 60).toNat < 60 := by omega
  simp only [DateTime.inRange, Bool.and_eq_true, decide_eq_true_eq]
  exact ⟨⟨⟨⟨⟨⟨hm, hm'⟩, hd⟩, hd'⟩, hh⟩, hmin⟩, hs⟩

theorem DateTime.lt_of_inRange {d : DateTime} (h : d.inRange = true) :
    d.month < 10 ^ 2 ∧ d.day < 10 ^ 2 ∧ d.hour < 10 ^ 2 ∧ d.minute < 10 ^ 2 ∧ d.sec < 10 ^ 2 := by
  simp only [DateTime.inRange, Bool.and_eq_true, decide_eq_true_eq] at h
  obtain ⟨⟨⟨⟨⟨⟨-, hm⟩, -⟩, hd⟩, hh⟩, hmin⟩, hs⟩ := h
  have hday : daysIn d.month d.year ≤ 31 := by
    unfold daysIn
    split_ifs <;> omega
  omega

/-- Down to the second, an instant is its date. -/
theorem instant_civil (t : ℤ) : instant (civil t) 0 = t / second * second := by
  have h := daysOfCivil_civilOfDays (t / second / 86400)
  simp only [instant, civil]
  rw [h]
  simp only [second]
  omega

end Civil

/-! ## RFC 3339 -/

section Text

open Digits

/-- `t.UTC().Format(time.RFC3339)`. -/
def formatRFC3339 (t : ℤ) : List Char :=
  let d := civil t
  padInt 4 d.year ++ '-' :: (padNat 2 d.month ++ '-' :: (padNat 2 d.day ++ 'T' ::
    (padNat 2 d.hour ++ ':' :: (padNat 2 d.minute ++ ':' :: (padNat 2 d.sec ++ ['Z'])))))

def expect (c : Char) : List Char → Option (List Char)
  | [] => none
  | d :: r => if d = c then some r else none

/-- `YYYY-MM-DDTHH:MM:SS`, the hour read by `readHour`. -/
def readDateTime (readHour : List Char → Option (ℕ × List Char)) (cs : List Char) :
    Option (DateTime × List Char) := do
  let (year, cs) ← readNat 4 cs
  let cs ← expect '-' cs
  let (month, cs) ← readNat 2 cs
  let cs ← expect '-' cs
  let (day, cs) ← readNat 2 cs
  let cs ← expect 'T' cs
  let (hour, cs) ← readHour cs
  let cs ← expect ':' cs
  let (minute, cs) ← readNat 2 cs
  let cs ← expect ':' cs
  let (sec, cs) ← readNat 2 cs
  some (⟨year, month, day, hour, minute, sec⟩, cs)

/-- An hour in Go's layout may lack its first digit. -/
def goHour (cs : List Char) : Option (ℕ × List Char) := readNat 2 cs <|> readNat 1 cs

/-- Fractional seconds, which Go reads behind the seconds although the layout has none; nine digits count. -/
def readFraction : List Char → ℕ × List Char
  | p :: r =>
    let ds := r.takeWhile Char.isDigit
    if (p = '.' ∨ p = ',') ∧ ds ≠ [] then
      (Nat.ofDigitChars 10 (ds.take 9) 0 * 10 ^ (9 - ds.length), r.dropWhile Char.isDigit)
    else (0, p :: r)
  | [] => (0, [])

/-- `Z` or a signed offset; the bounds are inclusive, as Go has them. -/
def readZone : List Char → Option (ℤ × List Char)
  | [] => none
  | s :: r =>
    if s = 'Z' then some (0, r)
    else if s = '+' ∨ s = '-' then do
      let (hh, r) ← readNat 2 r
      let r ← expect ':' r
      let (mm, r) ← readNat 2 r
      if hh ≤ 24 ∧ mm ≤ 60 then
        some (if s = '-' then -((hh * 60 + mm) * 60 : ℤ) else (hh * 60 + mm) * 60, r)
      else none
    else none

/-- `time.Parse(time.RFC3339, s)`. -/
def parseRFC3339 (cs : List Char) : Option ℤ := do
  let (d, cs) ← readDateTime goHour cs
  let (nanos, cs) := readFraction cs
  let (offset, cs) ← readZone cs
  if cs = [] ∧ d.inRange then some (instant d nanos - offset * second) else none

/-- ECMAScript's `YYYY-MM-DDTHH:mm:ssZ`, as a time value in milliseconds. -/
def parseIso (cs : List Char) : Option ℤ := do
  let (d, cs) ← readDateTime (readNat 2) cs
  if cs = ['Z'] ∧ d.inRange then some (instant d 0 / 1000000) else none

@[simp] theorem expect_cons (c : Char) (r : List Char) : expect c (c :: r) = some r := if_pos rfl

/-- An hour reader that reads two digits as two digits. -/
def ReadsHour (readHour : List Char → Option (ℕ × List Char)) : Prop :=
  ∀ h < 10 ^ 2, ∀ cs, readHour (padNat 2 h ++ cs) = some (h, cs)

theorem readsHour_two : ReadsHour (readNat 2) := fun _ h cs => readNat_padNat h (by decide) cs

theorem readsHour_go : ReadsHour goHour := by
  intro h hlt cs
  rw [goHour, readNat_padNat hlt (by decide)]
  rfl

theorem civil_lt (t : ℤ) : (civil t).month < 10 ^ 2 ∧ (civil t).day < 10 ^ 2 ∧ (civil t).hour < 10 ^ 2 ∧
    (civil t).minute < 10 ^ 2 ∧ (civil t).sec < 10 ^ 2 :=
  DateTime.lt_of_inRange (civil_inRange t)

/-- Years of four digits are the ones that RFC 3339 can write. -/
def fourDigitYear (t : ℤ) : Bool := 0 ≤ (civil t).year && (civil t).year ≤ 9999

theorem readDateTime_format {readHour : List Char → Option (ℕ × List Char)} (hr : ReadsHour readHour) {t : ℤ}
    (ht : fourDigitYear t = true) : readDateTime readHour (formatRFC3339 t) = some (civil t, ['Z']) := by
  obtain ⟨hm, hd, hh, hmin, hs⟩ := civil_lt t
  obtain ⟨y, hy, hlt⟩ : ∃ y : ℕ, (civil t).year = y ∧ y < 10 ^ 4 := by
    simp only [fourDigitYear, Bool.and_eq_true, decide_eq_true_eq] at ht
    exact ⟨(civil t).year.toNat, by omega, by omega⟩
  have hpad : padInt 4 (civil t).year = padNat 4 y := by rw [hy]; rfl
  simp only [readDateTime, formatRFC3339, hpad, readNat_padNat hlt (by decide : 0 < 4), Option.bind_eq_bind,
    Option.bind_some, expect_cons, readNat_padNat hm (by decide : 0 < 2), readNat_padNat hd (by decide : 0 < 2),
    hr _ hh, readNat_padNat hmin (by decide : 0 < 2), readNat_padNat hs (by decide : 0 < 2), ← hy]

theorem readDateTime_format_of_not {readHour : List Char → Option (ℕ × List Char)} {t : ℤ}
    (ht : fourDigitYear t = false) : readDateTime readHour (formatRFC3339 t) = none := by
  simp only [readDateTime, formatRFC3339]
  cases hy : (civil t).year with
  | negSucc n =>
    -- the sign is no digit
    have hsign : ∀ cs, readNat 4 (padInt 4 (.negSucc n) ++ cs) = none := by
      intro cs
      simp [readNat, padInt]
    rw [hsign]
    rfl
  | ofNat n =>
    have hle : 10 ^ 4 ≤ n := by
      simp only [fourDigitYear, hy, Bool.and_eq_false_iff, decide_eq_false_iff_not] at ht
      have : Int.ofNat n = (n : ℤ) := rfl
      omega
    -- a fifth digit stands where the hyphen should
    have hfive : ∀ cs, ∃ m c r, readNat 4 (padInt 4 (.ofNat n) ++ cs) = some (m, c :: r) ∧ c.isDigit = true :=
      fun cs => readNat_padNat_of_le hle (by decide) cs
    obtain ⟨m, c, r, hread, hc⟩ := hfive _
    rw [hread]
    have hne : c ≠ '-' := by
      rintro rfl
      exact absurd hc (by decide)
    simp only [Option.bind_eq_bind, Option.bind_some, expect, if_neg hne, Option.bind_none]

theorem ascii_formatRFC3339 (t : ℤ) : ∀ c ∈ formatRFC3339 t, c.toNat < 128 := by
  have hpad : ∀ w n, ∀ c ∈ padNat w n, c.toNat < 128 := fun w n c hc =>
    toNat_lt_of_isDigit (isDigit_of_mem_padNat hc)
  intro c hc
  simp only [formatRFC3339, List.mem_append, List.mem_cons, List.not_mem_nil, or_false] at hc
  rcases hc with h | rfl | h | rfl | h | rfl | h | rfl | h | rfl | h | rfl
  · exact toNat_lt_of_mem_padInt h
  all_goals first | exact hpad _ _ _ h | decide

/-- **Go reads back what it wrote**, to the second, if the year has four digits; otherwise it reads nothing. -/
theorem parseRFC3339_format (t : ℤ) :
    parseRFC3339 (formatRFC3339 t) = if fourDigitYear t then some (t / second * second) else none := by
  cases ht : fourDigitYear t with
  | true =>
    have hz : readFraction ['Z'] = (0, ['Z']) := rfl
    have ho : readZone ['Z'] = some (0, []) := rfl
    simp only [parseRFC3339, readDateTime_format readsHour_go ht, Option.bind_eq_bind, Option.bind_some, hz, ho,
      civil_inRange, instant_civil, and_self, if_true, Int.zero_mul, Int.sub_zero]
  | false =>
    simp only [parseRFC3339, readDateTime_format_of_not ht, Option.bind_eq_bind, Option.bind_none]
    rfl

/-- ECMAScript reads the same text to the same second. -/
theorem parseIso_format (t : ℤ) :
    parseIso (formatRFC3339 t) = if fourDigitYear t then some (t / second * 1000) else none := by
  cases ht : fourDigitYear t with
  | true =>
    have hms : t / second * second / 1000000 = t / second * 1000 := by
      simp only [second]
      omega
    simp only [parseIso, readDateTime_format readsHour_two ht, Option.bind_eq_bind, Option.bind_some,
      civil_inRange, instant_civil, and_self, if_true, hms]
  | false =>
    simp only [parseIso, readDateTime_format_of_not ht, Option.bind_eq_bind, Option.bind_none]
    rfl

end Text

end Calendar
