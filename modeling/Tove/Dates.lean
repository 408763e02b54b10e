import Mathlib.Algebra.Order.Group.Int
import Mathlib.Data.Int.ConditionallyCompleteOrder
import Mathlib.Order.Monotone.Basic
import Tove.Base.Decimal
import Tove.Js

/-!
# Dates

A `Date` of JavaScript is a number of milliseconds since the beginning of 1970.  `toISOString`
writes a year of four digits when the year has no more than four; otherwise it writes a sign and
six digits.
-/

namespace Js

open Decimal

/-- The bound of the time of a `Date`. -/
def MAX_TIME : ℤ := 8640000000000000

/-- A valid `Date`. -/
structure Date where
  ms : ℤ
  abs_le : |ms| ≤ MAX_TIME
  deriving DecidableEq

/-- `new Date(ms)`, when it is valid. -/
def Date.ofMs (ms : ℤ) : Option Date := if h : |ms| ≤ MAX_TIME then some ⟨ms, h⟩ else none

/-! ### The calendar -/

/-- The day on which a year begins. -/
def dayFromYear (y : ℤ) : ℤ :=
  365 * (y - 1970) + (y - 1969) / 4 - (y - 1901) / 100 + (y - 1601) / 400

/-- The year of a day: a year is 146097 / 400 days long on average. -/
def yearFromDay (day : ℤ) : ℤ :=
  let y := 1970 + 400 * day / 146097
  if day < dayFromYear y then y - 1 else if dayFromYear (y + 1) ≤ day then y + 1 else y

/-- Whether a year has 366 days. -/
def inLeapYear (y : ℤ) : Bool := dayFromYear (y + 1) - dayFromYear y = 366

/-- The day of the year on which a month begins; January is the month 0. -/
def monthStart (leap : Bool) (m : ℕ) : ℤ :=
  [0, 31, 59, 90, 120, 151, 181, 212, 243, 273, 304, 334].getD m 0
    + if leap ∧ 2 ≤ m then 1 else 0

/-- The month of a day of the year. -/
def monthFromDay (leap : Bool) (dayInYear : ℤ) : ℕ :=
  ((List.range 12).filter fun m => monthStart leap m ≤ dayInYear).length - 1

namespace Date

variable (d : Date)

def day : ℤ := d.ms / 86400000

def year : ℤ := yearFromDay d.day

def dayInYear : ℤ := d.day - dayFromYear d.year

def month : ℕ := monthFromDay (inLeapYear d.year) d.dayInYear

/-- The day of the month. -/
def date : ℤ := d.dayInYear - monthStart (inLeapYear d.year) d.month + 1

def hours : ℤ := d.ms / 3600000 % 24

def minutes : ℤ := d.ms / 60000 % 60

def seconds : ℤ := d.ms / 1000 % 60

def milliseconds : ℤ := d.ms % 1000

end Date

/-- A number with at least `k` digits. -/
def pad (k : ℕ) (n : ℤ) : JsString := (Json.decimal n.natAbs).leftpad k 48

/-- The year of an ISO text. -/
def yearText (y : ℤ) : JsString :=
  if 0 ≤ y ∧ y ≤ 9999 then pad 4 y else if y < 0 then 45 :: pad 6 y else 43 :: pad 6 y

/-- `d.toISOString()`: the separators are `-`, `T`, `:`, `.` and `Z`. -/
def Date.toISOString (d : Date) : JsString :=
  yearText d.year ++ 45 :: (pad 2 (d.month + 1) ++ 45 :: (pad 2 d.date ++ 84 :: (pad 2 d.hours
    ++ 58 :: (pad 2 d.minutes ++ 58 :: (pad 2 d.seconds ++ 46 :: (pad 3 d.milliseconds ++ [90]))))))

/-! ### Years -/

section Years

variable {day : ℤ}

theorem strictMono_dayFromYear :
  StrictMono dayFromYear
  := by
  apply strictMono_int_of_lt_succ
  intro y
  simp only [dayFromYear]
  omega

/-- The year of a day is not far from what the average length of a year tells. -/
theorem dayFromYear_near {day q : ℤ} (hle : 146097 * q ≤ 400 * day)
    (hlt : 400 * day < 146097 * (q + 1)) :
  dayFromYear (1970 + q - 1) ≤ day ∧ day < dayFromYear (1970 + q + 1 + 1)
  := by
  simp only [dayFromYear]
  constructor <;> omega

/-- A day is in its year. -/
theorem yearFromDay_spec (day : ℤ) :
  dayFromYear (yearFromDay day) ≤ day ∧ day < dayFromYear (yearFromDay day + 1)
  := by
  obtain ⟨hlower, hupper⟩ : dayFromYear (1970 + 400 * day / 146097 - 1) ≤ day
      ∧ day < dayFromYear (1970 + 400 * day / 146097 + 1 + 1) := by
    apply dayFromYear_near <;> omega
  simp only [yearFromDay]
  split_ifs with hlt hle
  · rw [sub_add_cancel]
    exact ⟨hlower, hlt⟩
  · exact ⟨hle, hupper⟩
  · exact ⟨not_lt.mp hlt, not_le.mp hle⟩

/-- Later days are in later years. -/
theorem yearFromDay_le {day' : ℤ} (h : day ≤ day') :
  yearFromDay day ≤ yearFromDay day'
  := by
  have hlt : dayFromYear (yearFromDay day) < dayFromYear (yearFromDay day' + 1) :=
    ((yearFromDay_spec day).1.trans h).trans_lt (yearFromDay_spec day').2
  exact Int.lt_add_one_iff.mp (strictMono_dayFromYear.lt_iff_lt.mp hlt)

theorem Date.year_le {d d' : Date} (h : d.ms ≤ d'.ms) :
  d.year ≤ d'.year
  := by
  apply yearFromDay_le
  exact Int.ediv_le_ediv (by decide) h

end Years

/-! ### Reading a date -/

/-- The number with `k` digits at the head of a text, and what follows it and a separator. -/
def field (k : ℕ) (s : JsString) : ℤ × JsString := (value (s.take k), s.drop (k + 1))

/-- The time of an ISO text with a year of four digits. -/
def readISO (s : JsString) : Option ℤ :=
  if s.head? = some 43 ∨ s.head? = some 45 then none
  else
    let (year, s) := field 4 s
    let (month, s) := field 2 s
    let (date, s) := field 2 s
    let (hours, s) := field 2 s
    let (minutes, s) := field 2 s
    let (seconds, s) := field 2 s
    let (milliseconds, _) := field 3 s
    let day := dayFromYear year + monthStart (inLeapYear year) (month - 1).toNat + (date - 1)
    some ((((day * 24 + hours) * 60 + minutes) * 60 + seconds) * 1000 + milliseconds)

section Reading

variable {d : Date}

theorem field_pad {k : ℕ} {n : ℤ} (hk : 0 < k) (hn : 0 ≤ n) (hlt : n < 10 ^ k) (c : ℕ)
    (s : JsString) :
  field k (pad k n ++ c :: s) = (n, s)
  := by
  have hlength : (pad k n).length = k := by
    rw [pad, List.length_leftpad]
    apply max_eq_left (length_decimal_le hk _)
    zify
    rwa [abs_of_nonneg hn]
  have hvalue : (value (pad k n) : ℤ) = n := by
    rw [pad, value_leftpad, value_decimal, Nat.cast_natAbs, abs_of_nonneg hn]
    rfl
  have hdrop : (pad k n ++ c :: s).drop (k + 1) = s := by
    rw [List.drop_append, List.drop_eq_nil_of_le (by omega), hlength, Nat.add_sub_cancel_left]
    rfl
  rw [field, hdrop, List.take_left' hlength, hvalue]

theorem monthFromDay_le (leap : Bool) (dayInYear : ℤ) :
  monthFromDay leap dayInYear ≤ 11
  := by
  have hle := List.length_filter_le (fun m => decide (monthStart leap m ≤ dayInYear)) (List.range 12)
  rw [List.length_range] at hle
  rw [monthFromDay]
  omega

/-- A day of the month has two digits. -/
theorem dayOfMonth_bounds (leap : Bool) {n : ℕ} (hn : n < 366) :
  monthStart leap (monthFromDay leap n) ≤ n ∧ n < monthStart leap (monthFromDay leap n) + 99
  := by
  have hall : ∀ leap : Bool, ((List.range 366).all fun n =>
      monthStart leap (monthFromDay leap n) ≤ n
        ∧ n < monthStart leap (monthFromDay leap n) + 99) = true := by decide +kernel
  have hdecide := List.all_eq_true.mp (hall leap) n (List.mem_range.mpr hn)
  simpa using hdecide

theorem Date.date_bounds (d : Date) :
  1 ≤ d.date ∧ d.date < 100
  := by
  obtain ⟨hlower, hupper⟩ := yearFromDay_spec d.day
  have hlength : dayFromYear (d.year + 1) ≤ dayFromYear d.year + 366 := by
    simp only [dayFromYear]
    omega
  change dayFromYear d.year ≤ d.day at hlower
  change d.day < dayFromYear (d.year + 1) at hupper
  obtain ⟨n, hn⟩ : ∃ n : ℕ, d.dayInYear = n := by
    apply Int.eq_ofNat_of_zero_le
    rw [Date.dayInYear]
    omega
  have hlt : n < 366 := by
    rw [Date.dayInYear] at hn
    omega
  have hbounds := dayOfMonth_bounds (inLeapYear d.year) hlt
  rw [Date.date, Date.month, hn]
  omega

/-- A number begins with a digit. -/
theorem exists_pad_eq_cons (k : ℕ) (n : ℤ) :
  ∃ c s, pad k n = c :: s ∧ IsDigit c
  := by
  have hne : pad k n ≠ [] := by
    rw [pad, List.leftpad]
    exact List.append_ne_nil_of_right_ne_nil _ (Json.decimal_ne_nil _)
  obtain ⟨c, s, hcons⟩ := List.exists_cons_of_ne_nil hne
  have hmem : c ∈ pad k n := by
    rw [hcons]
    exact List.mem_cons_self
  refine ⟨c, s, hcons, ?_⟩
  rcases List.mem_append.mp hmem with hzero | hdigit
  · rw [List.eq_of_mem_replicate hzero]
    exact ⟨le_rfl, by decide⟩
  · exact Json.mem_decimal hdigit

/-- A date is read back from its text, when its year has four digits. -/
theorem readISO_toISOString (hyear : 0 ≤ d.year ∧ d.year ≤ 9999) :
  readISO d.toISOString = some d.ms
  := by
  obtain ⟨hdate, hdateLt⟩ := d.date_bounds
  have hmonth : d.month ≤ 11 := monthFromDay_le _ _
  have htext : yearText d.year = pad 4 d.year := if_pos hyear
  have hsign : ¬ (d.toISOString.head? = some 43 ∨ d.toISOString.head? = some 45) := by
    obtain ⟨c, s, hcons, hdigit⟩ := exists_pad_eq_cons 4 d.year
    unfold IsDigit at hdigit
    rw [Date.toISOString, htext, hcons]
    simp only [List.cons_append, List.head?_cons, Option.some.injEq]
    omega
  have hday : dayFromYear d.year + monthStart (inLeapYear d.year) ((d.month : ℤ) + 1 - 1).toNat
      + (d.date - 1) = d.day := by
    rw [add_sub_cancel_right, Int.toNat_natCast, Date.date, Date.dayInYear]
    ring
  have hhours : 0 ≤ d.hours ∧ d.hours < 24 := by
    rw [Date.hours]
    omega
  have hminutes : 0 ≤ d.minutes ∧ d.minutes < 60 := by
    rw [Date.minutes]
    omega
  have hseconds : 0 ≤ d.seconds ∧ d.seconds < 60 := by
    rw [Date.seconds]
    omega
  have hmilliseconds : 0 ≤ d.milliseconds ∧ d.milliseconds < 1000 := by
    rw [Date.milliseconds]
    omega
  have htime : (((d.day * 24 + d.hours) * 60 + d.minutes) * 60 + d.seconds) * 1000
      + d.milliseconds = d.ms := by
    rw [Date.day, Date.hours, Date.minutes, Date.seconds, Date.milliseconds]
    omega
  rw [readISO, if_neg hsign, Date.toISOString, htext,
    field_pad (by decide) hyear.1 (by omega)]
  dsimp only
  rw [field_pad (by decide) (by omega) (by omega)]
  dsimp only
  rw [field_pad (by decide) (by omega) (by omega)]
  dsimp only
  rw [field_pad (by decide) hhours.1 (by omega)]
  dsimp only
  rw [field_pad (by decide) hminutes.1 (by omega)]
  dsimp only
  rw [field_pad (by decide) hseconds.1 (by omega)]
  dsimp only
  rw [field_pad (by decide) hmilliseconds.1 (by omega)]
  dsimp only
  rw [hday, htime]

/-- A date whose year has more digits is not. -/
theorem readISO_of_expanded (hyear : 9999 < d.year) :
  readISO d.toISOString = none
  := by
  have htext : yearText d.year = 43 :: pad 6 d.year := by
    rw [yearText, if_neg (by omega), if_neg (by omega)]
  rw [readISO, Date.toISOString, htext]
  exact if_pos (.inl rfl)

end Reading

end Js
