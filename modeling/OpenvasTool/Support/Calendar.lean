import Mathlib.Algebra.Order.Ring.Int
import Mathlib.Data.Nat.Find
import Mathlib.Tactic.IntervalCases

/-!
# The Gregorian calendar

Dates without a bound on the years, the number of a day, and the minutes of the
days. Time is local time without shifts.
-/

namespace Calendar

/-! ### Months -/

/-- Leap years. -/
def IsLeap (year : ℤ) : Prop := year % 4 = 0 ∧ (year % 100 ≠ 0 ∨ year % 400 = 0)

instance : DecidablePred IsLeap := fun _ => inferInstanceAs (Decidable (_ ∧ _))

/-- The length of a month. -/
def daysInMonth (year : ℤ) (month : ℕ) : ℕ :=
  if month = 2 then if IsLeap year then 29 else 28
  else if month = 4 ∨ month = 6 ∨ month = 9 ∨ month = 11 then 30
  else 31

theorem le_daysInMonth_28 (year : ℤ) (month : ℕ) : 28 ≤ daysInMonth year month := by
  unfold daysInMonth
  split_ifs <;> omega

theorem daysInMonth_le_31 (year : ℤ) (month : ℕ) : daysInMonth year month ≤ 31 := by
  unfold daysInMonth
  split_ifs <;> omega

theorem daysInMonth_pos (year : ℤ) (month : ℕ) : 0 < daysInMonth year month :=
  lt_of_lt_of_le (by decide) (le_daysInMonth_28 year month)

/-- A month is longest in a leap year. -/
theorem daysInMonth_le {leap : ℤ} (hleap : IsLeap leap) (year : ℤ) (month : ℕ) :
    daysInMonth year month ≤ daysInMonth leap month := by
  unfold daysInMonth
  split_ifs <;> omega

/-- The days of the months before this one. -/
def daysBeforeMonth (year : ℤ) : ℕ → ℕ
  | 0 => 0
  | 1 => 0
  | month + 2 => daysBeforeMonth year (month + 1) + daysInMonth year (month + 1)

theorem daysBeforeMonth_succ (year : ℤ) {month : ℕ} (h : 1 ≤ month) :
    daysBeforeMonth year (month + 1) = daysBeforeMonth year month + daysInMonth year month := by
  obtain ⟨month, rfl⟩ := Nat.exists_eq_add_of_le' h
  rfl

/-- The days of a whole year. -/
theorem daysBeforeMonth_thirteen (year : ℤ) :
    daysBeforeMonth year 13 = if IsLeap year then 366 else 365 := by
  by_cases hleap : IsLeap year <;> simp [daysBeforeMonth, daysInMonth, hleap]

/-! ### Days -/

/-- The days before the first of January. -/
def daysBeforeYear (year : ℤ) : ℤ :=
  365 * (year - 1) + (year - 1) / 4 - (year - 1) / 100 + (year - 1) / 400

theorem daysBeforeYear_succ (year : ℤ) :
    daysBeforeYear (year + 1) = daysBeforeYear year + daysBeforeMonth year 13 := by
  rw [daysBeforeMonth_thirteen]
  by_cases hleap : IsLeap year
  · rw [if_pos hleap]
    unfold IsLeap at hleap
    unfold daysBeforeYear
    push_cast
    omega
  · rw [if_neg hleap]
    unfold IsLeap at hleap
    unfold daysBeforeYear
    push_cast
    omega

/-- The number of a day. A day behind the end of its month counts on into the next one. -/
def dayNumber (year : ℤ) (month day : ℕ) : ℤ :=
  daysBeforeYear year + daysBeforeMonth year month + day

/-- A date of the calendar. -/
structure Date where
  year : ℤ
  month : ℕ
  day : ℕ
  month_pos : 1 ≤ month
  month_le : month ≤ 12
  day_pos : 1 ≤ day
  day_le : day ≤ daysInMonth year month

namespace Date

/-- The number of a date. -/
def number (d : Date) : ℤ := dayNumber d.year d.month d.day

/-- The day of the week, where Sunday is 0. -/
def weekday (d : Date) : ℕ := (d.number % 7).toNat

theorem weekday_lt (d : Date) : d.weekday < 7 := by
  unfold weekday
  omega

end Date

/-- The year of a day: it begins before the day, and the next one does not. -/
def yearOf (n : ℤ) : ℤ :=
  -- the mean length of a year is 146097 / 400 days
  let year := 400 * n / 146097
  if daysBeforeYear (year + 2) < n then year + 2
  else if daysBeforeYear (year + 1) < n then year + 1
  else year

theorem yearOf_spec (n : ℤ) :
    daysBeforeYear (yearOf n) < n ∧ n ≤ daysBeforeYear (yearOf n + 1) := by
  unfold yearOf
  dsimp only
  split_ifs with htwo hone
  · unfold daysBeforeYear at htwo ⊢
    omega
  · rw [add_assoc, one_add_one_eq_two]
    exact ⟨hone, not_lt.mp htwo⟩
  · refine ⟨?_, not_lt.mp hone⟩
    unfold daysBeforeYear
    omega

/-- The month of a day of a year. -/
def monthOf (year : ℤ) (d : ℕ) : ℕ := Nat.findGreatest (fun month => daysBeforeMonth year month < d) 12

theorem monthOf_spec (year : ℤ) (d : ℕ) (hpos : 1 ≤ d) (hle : d ≤ daysBeforeMonth year 13) :
    (1 ≤ monthOf year d ∧ monthOf year d ≤ 12) ∧ daysBeforeMonth year (monthOf year d) < d ∧
      d ≤ daysBeforeMonth year (monthOf year d) + daysInMonth year (monthOf year d) := by
  have hjanuary : daysBeforeMonth year 1 < d := hpos
  have hlow : 1 ≤ monthOf year d := Nat.le_findGreatest (by omega) hjanuary
  have hhigh : monthOf year d ≤ 12 := Nat.findGreatest_le 12
  refine ⟨⟨hlow, hhigh⟩, Nat.findGreatest_spec (P := fun month => daysBeforeMonth year month < d)
    (by omega) hjanuary, ?_⟩
  rw [← daysBeforeMonth_succ year hlow]
  by_cases hlast : monthOf year d = 12
  · rw [hlast]
    exact hle
  · by_contra hlater
    have hnext := Nat.findGreatest_is_greatest (P := fun month => daysBeforeMonth year month < d)
      (k := monthOf year d + 1) (n := 12) (Nat.lt_succ_self _) (by omega)
    exact hnext (by omega)

/-- The date with this number. -/
def Date.ofNumber (n : ℤ) : Date :=
  have hyear := yearOf_spec n
  have hnext := daysBeforeYear_succ (yearOf n)
  have hmonth := monthOf_spec (yearOf n) (n - daysBeforeYear (yearOf n)).toNat
    (by omega) (by omega)
  { year := yearOf n
    month := monthOf (yearOf n) (n - daysBeforeYear (yearOf n)).toNat
    day := (n - daysBeforeYear (yearOf n)).toNat -
      daysBeforeMonth (yearOf n) (monthOf (yearOf n) (n - daysBeforeYear (yearOf n)).toNat)
    month_pos := hmonth.1.1
    month_le := hmonth.1.2
    day_pos := by omega
    day_le := by omega }

/-- Every number belongs to a date. -/
theorem Date.number_ofNumber (n : ℤ) : (Date.ofNumber n).number = n := by
  have hyear := yearOf_spec n
  have hnext := daysBeforeYear_succ (yearOf n)
  have hmonth := monthOf_spec (yearOf n) (n - daysBeforeYear (yearOf n)).toNat
    (by omega) (by omega)
  simp only [Date.number, Date.ofNumber, dayNumber]
  omega

example : (Date.ofNumber (dayNumber 2024 2 30)).month = 3 := by decide

/-- Every four hundred years the calendar repeats. -/
theorem daysInMonth_add_period (k year : ℤ) (month : ℕ) :
    daysInMonth (year + 400 * k) month = daysInMonth year month := by
  have hleap : IsLeap (year + 400 * k) ↔ IsLeap year := by
    unfold IsLeap
    omega
  unfold daysInMonth
  simp only [hleap]

theorem dayNumber_add_period (k year : ℤ) (month day : ℕ) :
    dayNumber (year + 400 * k) month day = dayNumber year month day + 146097 * k := by
  have hbefore : ∀ m, daysBeforeMonth (year + 400 * k) m = daysBeforeMonth year m := by
    intro m
    induction m with
    | zero => rfl
    | succ m ih =>
      cases m with
      | zero => rfl
      | succ m => rw [daysBeforeMonth, daysBeforeMonth, ih, daysInMonth_add_period]
  unfold dayNumber daysBeforeYear
  rw [hbefore]
  omega

/-! ### Days that come again -/

/-- The first day from day `n` on that has this weekday. -/
def nextWeekday (n : ℤ) (w : ℕ) : ℤ := n + ((w : ℤ) - n) % 7

theorem isLeast_nextWeekday (n : ℤ) {w : ℕ} (hw : w < 7) :
    IsLeast (Date.number '' {d | d.weekday = w ∧ n ≤ d.number}) (nextWeekday n w) := by
  unfold nextWeekday
  constructor
  · refine ⟨.ofNumber (n + ((w : ℤ) - n) % 7), ?_, Date.number_ofNumber _⟩
    simp only [Set.mem_ofPred_eq, Date.weekday, Date.number_ofNumber]
    omega
  · rintro _ ⟨d, ⟨hweekday, hle⟩, rfl⟩
    unfold Date.weekday at hweekday
    omega

/-- All days of some kinds from day `n` on come at this day or later when the first of each kind
does. -/
theorem forall_le_number_iff {kind : Date → ℕ} {IsKind P : ℕ → Prop} {n first : ℤ} {next : ℕ → ℤ}
    (hkind : ∀ d, IsKind (kind d))
    (hnext : ∀ k, IsKind k → IsLeast (Date.number '' {d | kind d = k ∧ n ≤ d.number}) (next k)) :
    (∀ d, P (kind d) → n ≤ d.number → first ≤ d.number) ↔
      ∀ k, IsKind k → P k → first ≤ next k := by
  constructor
  · intro hdays k hk hP
    obtain ⟨d, ⟨rfl, hd⟩, heq⟩ := (hnext k hk).1
    rw [← heq]
    exact hdays d hP hd
  · intro hfirst d hP hd
    exact (hfirst _ (hkind d) hP).trans ((hnext _ (hkind d)).2 ⟨d, ⟨rfl, hd⟩, rfl⟩)

/-- The length of a month, where the months are numbered from January of the year 0 on. -/
def monthLength (m : ℤ) : ℕ := daysInMonth (m / 12) ((m % 12).toNat + 1)

/-- The days before a month. -/
def monthStart (m : ℤ) : ℤ := dayNumber (m / 12) ((m % 12).toNat + 1) 0

/-- One month follows the other, also over the end of a year. -/
theorem monthStart_succ (m : ℤ) : monthStart (m + 1) = monthStart m + monthLength m := by
  unfold monthStart monthLength dayNumber
  by_cases hlast : m % 12 = 11
  · have hyear : (m + 1) / 12 = m / 12 + 1 := by omega
    have hjanuary : ((m + 1) % 12).toNat + 1 = 1 := by omega
    have hdecember : (m % 12).toNat + 1 = 12 := by omega
    rw [hyear, hjanuary, hdecember, daysBeforeYear_succ, daysBeforeMonth_succ _ (by decide),
      daysBeforeMonth]
    push_cast
    omega
  · have hyear : (m + 1) / 12 = m / 12 := by omega
    have hmonth : ((m + 1) % 12).toNat + 1 = (m % 12).toNat + 1 + 1 := by omega
    rw [hyear, hmonth, daysBeforeMonth_succ _ (by omega)]
    push_cast
    omega

theorem monthStart_le {m m' : ℤ} (h : m ≤ m') : monthStart m ≤ monthStart m' := by
  induction m', h using Int.leInduction with
  | base => exact le_rfl
  | succ m' _ ih =>
    have hpos := daysInMonth_pos (m' / 12) ((m' % 12).toNat + 1)
    have hsucc := monthStart_succ m'
    unfold monthLength at hsucc
    omega

/-- No two months in a row are short. -/
theorem monthLength_or (m : ℤ) : monthLength m = 31 ∨ monthLength (m + 1) = 31 := by
  unfold monthLength daysInMonth
  have hmonth : m % 12 = 0 ∨ m % 12 = 1 ∨ m % 12 = 2 ∨ m % 12 = 3 ∨ m % 12 = 4 ∨ m % 12 = 5 ∨
      m % 12 = 6 ∨ m % 12 = 7 ∨ m % 12 = 8 ∨ m % 12 = 9 ∨ m % 12 = 10 ∨ m % 12 = 11 := by omega
  split_ifs <;> omega

namespace Date

/-- The month of a date. -/
def monthIndex (d : Date) : ℤ := 12 * d.year + (d.month - 1)

theorem number_eq_monthStart (d : Date) : d.number = monthStart d.monthIndex + d.day ∧
    d.day ≤ monthLength d.monthIndex := by
  have hpos := d.month_pos
  have hle := d.month_le
  have hyear : d.monthIndex / 12 = d.year := by
    unfold monthIndex
    omega
  have hmonth : (d.monthIndex % 12).toNat + 1 = d.month := by
    unfold monthIndex
    omega
  refine ⟨?_, ?_⟩
  · rw [number, monthStart, hyear, hmonth, dayNumber, dayNumber]
    push_cast
    omega
  · rw [monthLength, hyear, hmonth]
    exact d.day_le

/-- The date of a day of a month. -/
def ofMonth (m : ℤ) (day : ℕ) (hpos : 1 ≤ day) (hle : day ≤ monthLength m) : Date :=
  ⟨m / 12, (m % 12).toNat + 1, day, Nat.le_add_left 1 _, by omega, hpos, hle⟩

theorem number_ofMonth {m : ℤ} {day : ℕ} (hpos : 1 ≤ day) (hle : day ≤ monthLength m) :
    (ofMonth m day hpos hle).number = monthStart m + day := by
  unfold ofMonth number monthStart dayNumber
  push_cast
  omega

end Date

/-- The first day from day `n` on that is this day of a month: in the month of day `n`, else in the
next one, or else in the one after that. -/
def nextMonthDay (n : ℤ) (day : ℕ) : ℤ :=
  let m := (Date.ofNumber n).monthIndex
  if n ≤ monthStart m + day ∧ day ≤ monthLength m then monthStart m + day
  else if day ≤ monthLength (m + 1) then monthStart (m + 1) + day
  else monthStart (m + 2) + day

/-- The day of a month comes first when every other month with this day is a later one. -/
theorem isLeast_monthDay {n m : ℤ} {day : ℕ} (hpos : 1 ≤ day) (hle : day ≤ monthLength m)
    (hn : n ≤ monthStart m + day)
    (hfirst : ∀ d : Date, d.day = day → n ≤ d.number → m ≤ d.monthIndex) :
    IsLeast (Date.number '' {d | d.day = day ∧ n ≤ d.number}) (monthStart m + day) := by
  constructor
  · have hnumber := Date.number_ofMonth hpos hle
    exact ⟨.ofMonth m day hpos hle, ⟨rfl, hnumber.symm ▸ hn⟩, hnumber⟩
  · rintro _ ⟨d, ⟨hday, hd⟩, rfl⟩
    have hmono := monthStart_le (hfirst d hday hd)
    have hnumber := d.number_eq_monthStart.1
    omega

theorem isLeast_nextMonthDay (n : ℤ) {day : ℕ} (hpos : 1 ≤ day) (hle : day ≤ 31) :
    IsLeast (Date.number '' {d | d.day = day ∧ n ≤ d.number}) (nextMonthDay n day) := by
  unfold nextMonthDay
  obtain ⟨hnumber, hlength⟩ := (Date.ofNumber n).number_eq_monthStart
  rw [Date.number_ofNumber] at hnumber
  generalize (Date.ofNumber n).monthIndex = m at hnumber hlength
  have hone := monthStart_succ m
  have htwo := monthStart_succ (m + 1)
  have hlong := monthLength_or (m + 1)
  rw [add_assoc, one_add_one_eq_two] at htwo hlong
  -- every day from day `n` on is in its month or a later one
  have hlater : ∀ d : Date, n ≤ d.number → m ≤ d.monthIndex := by
    intro d hd
    by_contra hlt
    have hmono := monthStart_le (show d.monthIndex + 1 ≤ m by omega)
    have hd' := d.number_eq_monthStart
    have hpos' := (Date.ofNumber n).day_pos
    rw [monthStart_succ] at hmono
    omega
  dsimp only
  split_ifs with hthis hnext
  · exact isLeast_monthDay hpos hthis.2 hthis.1 fun d _ hd => hlater d hd
  · refine isLeast_monthDay hpos hnext (by omega) fun d hday hd => ?_
    have hm := hlater d hd
    have hd' := d.number_eq_monthStart
    by_contra hlt
    obtain rfl : m = d.monthIndex := by omega
    omega
  · refine isLeast_monthDay hpos (by omega) (by omega) fun d hday hd => ?_
    have hm := hlater d hd
    have hd' := d.number_eq_monthStart
    by_contra hlt
    rcases (show m = d.monthIndex ∨ m + 1 = d.monthIndex by omega) with rfl | heq
    · omega
    · rw [heq] at hnext
      omega

example : nextMonthDay (dayNumber 2024 1 31) 30 = dayNumber 2024 3 30 := by decide

/-! ### Minutes -/

/-- The second of a day and time of day, which may go beyond their ranges. -/
def second (day : ℤ) (hour minute sec : ℕ) : ℤ := 86400 * day + 3600 * hour + 60 * minute + sec

/-- A minute of a date. -/
structure Minute where
  date : Date
  hour : ℕ
  minute : ℕ
  hour_lt : hour < 24
  minute_lt : minute < 60

/-- The second with which a minute starts. -/
def Minute.start (t : Minute) : ℤ := second t.date.number t.hour t.minute 0

end Calendar
