import OpenvasTool.Gvm.Requests
import OpenvasTool.Hydra.MonthDays

/-!
# Building schedules

A schedule that the checks accept is compiled twice: into the calendar of a request
to gvmd and into the lines of a crontab. Which schedules both builders take.
-/

namespace OpenvasTool

open Posix Posix.Regex Posix.Cron Calendar

/-! ### Texts in the shape of a time -/

/-- The texts that a counted repetition of a class matches. -/
theorem of_mem_lang_times_cls {p : Char → Bool} {n : ℕ} {t : Text}
    (h : t ∈ (times (cls p) n).lang) : t.length = n ∧ ∀ c ∈ t, p c = true := by
  obtain ⟨S, hlow, hhigh, rfl, hS⟩ := mem_lang_rep.mp h
  have hlen : S.length = n := by
    rw [max_self] at hhigh
    omega
  clear h hlow hhigh
  subst hlen
  induction S with
  | nil => exact ⟨rfl, by simp⟩
  | cons w S ih =>
    obtain ⟨c, hc, rfl⟩ := mem_lang_cls.mp (hS w (by simp))
    obtain ⟨hlen, hall⟩ := ih fun y hy => hS y (by simp [hy])
    refine ⟨by simp [hlen], ?_⟩
    simpa [hc] using hall

/-- The value of a digit. -/
def digitValue (c : Char) : ℕ := c.toNat - 48

/-- The number at a place of a text in the shape of a time. -/
def numberAt (time : Text) (i : ℕ) : ℕ :=
  10 * digitValue (time.getD i '0') + digitValue (time.getD (i + 1) '0')

/-- The numbers are in the ranges of a date and time of day, with up to two leap seconds. -/
structure PossibleTime (time : Text) : Prop where
  mon : 1 ≤ numberAt time 5 ∧ numberAt time 5 ≤ 12
  mday : 1 ≤ numberAt time 8 ∧ numberAt time 8 ≤ 31
  hour : numberAt time 11 ≤ 23
  min : numberAt time 14 ≤ 59
  sec : numberAt time 17 ≤ 61

/-- A number field of `strptime` at two digits. After the first one it stops if the number would be
too large. -/
theorem strptimeNumber_two (lo hi : ℕ) {a b : Char} (ha : a.isDigit = true) (hb : b.isDigit = true)
    (rest : Text) :
    strptimeNumber lo hi 2 (a :: b :: rest) =
      if digitValue a * 10 ≤ hi then
        if lo ≤ 10 * digitValue a + digitValue b ∧ 10 * digitValue a + digitValue b ≤ hi then
          some (10 * digitValue a + digitValue b, rest)
        else none
      else if lo ≤ digitValue a ∧ digitValue a ≤ hi then some (digitValue a, b :: rest)
      else none := by
  have hspace : (a :: b :: rest).dropWhile isspace = a :: b :: rest :=
    List.dropWhile_cons_of_neg (by simp [isspace_of_isDigit ha])
  have htake : takeNumber hi 1 (digitValue a) (b :: rest) =
      if digitValue a * 10 ≤ hi then (10 * digitValue a + digitValue b, rest)
      else (digitValue a, b :: rest) := by
    simp only [takeNumber, hb, Bool.true_and, decide_eq_true_eq]
    rw [mul_comm (digitValue a) 10]
    rfl
  unfold strptimeNumber
  rw [hspace]
  dsimp only
  rw [if_pos ha, show takeNumber hi (2 - 1) (a.toNat - 48) (b :: rest) = _ from htake]
  split
  · rfl
  · rfl

/-- A field that is followed by its mark. -/
theorem strptimeNumber_mark (lo hi : ℕ) {a b d : Char} (ha : a.isDigit = true)
    (hb : b.isDigit = true) (hd : d.isDigit = false) (rest : Text) {r : ℕ × Text} {t : Text} :
    strptimeNumber lo hi 2 (a :: b :: d :: rest) = some r ∧ strptimeChar d r.2 = some t ↔
      (lo ≤ 10 * digitValue a + digitValue b ∧ 10 * digitValue a + digitValue b ≤ hi) ∧
        r = (10 * digitValue a + digitValue b, d :: rest) ∧ t = rest := by
  have hne : b ≠ d := by
    rintro rfl
    simp [hb] at hd
  rw [strptimeNumber_two lo hi ha hb]
  constructor
  · rintro ⟨hnumber, hchar⟩
    split at hnumber
    · obtain ⟨hrange, hr⟩ := Option.ite_none_right_eq_some.mp hnumber
      obtain rfl := Option.some.inj hr
      refine ⟨hrange, rfl, ?_⟩
      simpa [strptimeChar, eq_comm] using hchar
    · obtain ⟨-, hr⟩ := Option.ite_none_right_eq_some.mp hnumber
      obtain rfl := Option.some.inj hr
      simp [strptimeChar, hne] at hchar
  · rintro ⟨hrange, rfl, rfl⟩
    rw [if_pos (by omega), if_pos hrange]
    exact ⟨rfl, if_pos rfl⟩

/-- The day and the hour, between which `strptime` skips white space. -/
theorem strptimeNumber_day_hour {a b c d : Char} (ha : a.isDigit = true) (hb : b.isDigit = true)
    (hc : c.isDigit = true) (hd : d.isDigit = true) (rest : Text) {r s : ℕ × Text} {t : Text} :
    strptimeNumber 1 31 2 (a :: b :: ' ' :: c :: d :: ':' :: rest) = some r ∧
        strptimeNumber 0 23 2 (r.2.dropWhile isspace) = some s ∧ strptimeChar ':' s.2 = some t ↔
      ((1 ≤ 10 * digitValue a + digitValue b ∧ 10 * digitValue a + digitValue b ≤ 31) ∧
          0 ≤ 10 * digitValue c + digitValue d ∧ 10 * digitValue c + digitValue d ≤ 23) ∧
        r = (10 * digitValue a + digitValue b, ' ' :: c :: d :: ':' :: rest) ∧
          s = (10 * digitValue c + digitValue d, ':' :: rest) ∧ t = rest := by
  have hskip : (' ' :: c :: d :: ':' :: rest).dropWhile isspace = c :: d :: ':' :: rest := by
    rw [List.dropWhile_cons_of_pos (by decide),
      List.dropWhile_cons_of_neg (by simp [isspace_of_isDigit hc])]
  have hhour := strptimeNumber_mark 0 23 (r := s) (t := t) hc hd
    (show ':'.isDigit = false by decide) rest
  rw [strptimeNumber_two 1 31 ha hb]
  constructor
  · rintro ⟨hday, hrest⟩
    split at hday
    · obtain ⟨hrange, hr⟩ := Option.ite_none_right_eq_some.mp hday
      obtain rfl := Option.some.inj hr
      rw [hskip] at hrest
      obtain ⟨hhours, hs, ht⟩ := hhour.mp hrest
      exact ⟨⟨hrange, hhours⟩, rfl, hs, ht⟩
    · -- the second digit of the day is read as the hour, which no mark follows
      obtain ⟨-, hr⟩ := Option.ite_none_right_eq_some.mp hday
      obtain rfl := Option.some.inj hr
      obtain ⟨hnumber, hchar⟩ := hrest
      have hstop : (b :: ' ' :: c :: d :: ':' :: rest).dropWhile isspace =
          b :: ' ' :: c :: d :: ':' :: rest :=
        List.dropWhile_cons_of_neg (by simp [isspace_of_isDigit hb])
      unfold strptimeNumber at hnumber
      rw [hstop, hstop] at hnumber
      dsimp only at hnumber
      rw [if_pos hb] at hnumber
      obtain ⟨-, hs⟩ := Option.ite_none_right_eq_some.mp hnumber
      obtain rfl := Option.some.inj hs
      simp [takeNumber, strptimeChar] at hchar
  · rintro ⟨⟨hrange, hhours⟩, rfl, hs, ht⟩
    rw [if_pos (by omega), if_pos hrange]
    refine ⟨rfl, ?_⟩
    rw [hskip]
    exact hhour.mpr ⟨hhours, hs, ht⟩

/-- The characters of a text in the shape of a time. -/
theorem timeStamp_chars {time : Text} (h : chkTimeStamp time = true) :
    ∃ y₁ y₂ y₃ y₄ m₁ m₂ d₁ d₂ h₁ h₂ i₁ i₂ s₁ s₂ : Char,
      (∀ c ∈ [y₁, y₂, y₃, y₄, m₁, m₂, d₁, d₂, h₁, h₂, i₁, i₂, s₁, s₂], c.isDigit = true) ∧
        time = [y₁, y₂, y₃, y₄, '-', m₁, m₂, '-', d₁, d₂, ' ', h₁, h₂, ':', i₁, i₂, ':', s₁, s₂] := by
  have hdigit : ∀ {n : ℕ} {t : Text}, t ∈ (times digit n).lang →
      t.length = n ∧ ∀ c ∈ t, c.isDigit = true := of_mem_lang_times_cls
  have hmark : ∀ {d : Char} {t : Text}, t ∈ (chr d).lang → t = [d] := by
    rintro d t ⟨c, hc, rfl⟩
    rw [eq_of_beq hc]
  have hlang := chkTimeStamp_iff.mp h
  simp only [customTimeStampPattern, seqs, mem_lang_seq] at hlang
  obtain ⟨y, hy, _, ⟨_, hmark₁, _, ⟨m, hm, _, ⟨_, hmark₂, _, ⟨d, hd, _, ⟨_, hmark₃, _, ⟨hh, hhour, _,
    ⟨_, hmark₄, _, ⟨i, hi, _, ⟨_, hmark₅, s, hs, rfl⟩, rfl⟩, rfl⟩, rfl⟩, rfl⟩, rfl⟩, rfl⟩, rfl⟩, rfl⟩,
    rfl⟩ := hlang
  obtain rfl := hmark hmark₁
  obtain rfl := hmark hmark₂
  obtain rfl := hmark hmark₃
  obtain rfl := hmark hmark₄
  obtain rfl := hmark hmark₅
  obtain ⟨hylen, hy⟩ := hdigit hy
  obtain ⟨hmlen, hm⟩ := hdigit hm
  obtain ⟨hdlen, hd⟩ := hdigit hd
  obtain ⟨hhlen, hhour⟩ := hdigit hhour
  obtain ⟨hilen, hi⟩ := hdigit hi
  obtain ⟨hslen, hs⟩ := hdigit hs
  obtain ⟨m₁, m₂, rfl⟩ := List.length_eq_two.mp hmlen
  obtain ⟨d₁, d₂, rfl⟩ := List.length_eq_two.mp hdlen
  obtain ⟨h₁, h₂, rfl⟩ := List.length_eq_two.mp hhlen
  obtain ⟨i₁, i₂, rfl⟩ := List.length_eq_two.mp hilen
  obtain ⟨s₁, s₂, rfl⟩ := List.length_eq_two.mp hslen
  obtain ⟨y₁, y, rfl⟩ := List.exists_cons_of_length_eq_add_one hylen
  obtain ⟨y₂, y₃, y₄, rfl⟩ := List.length_eq_three.mp (Nat.succ.inj hylen)
  refine ⟨y₁, y₂, y₃, y₄, m₁, m₂, d₁, d₂, h₁, h₂, i₁, i₂, s₁, s₂, fun c hc => ?_, rfl⟩
  have hcases : c ∈ [y₁, y₂, y₃, y₄] ∨ c ∈ [m₁, m₂] ∨ c ∈ [d₁, d₂] ∨ c ∈ [h₁, h₂] ∨
      c ∈ [i₁, i₂] ∨ c ∈ [s₁, s₂] := by
    simpa [or_assoc] using hc
  rcases hcases with hc | hc | hc | hc | hc | hc
  · exact hy c hc
  · exact hm c hc
  · exact hd c hc
  · exact hhour c hc
  · exact hi c hc
  · exact hs c hc

/-- The steps of `strptime`. -/
theorem strptime_eq (text : Text) : strptime text =
    (strptimeNumber 0 9999 4 text).bind fun y => (strptimeChar '-' y.2).bind fun t =>
      (strptimeNumber 1 12 2 t).bind fun m => (strptimeChar '-' m.2).bind fun t =>
        (strptimeNumber 1 31 2 t).bind fun d =>
          (strptimeNumber 0 23 2 (d.2.dropWhile isspace)).bind fun h =>
            (strptimeChar ':' h.2).bind fun t =>
              (strptimeNumber 0 59 2 t).bind fun i => (strptimeChar ':' i.2).bind fun t =>
                (strptimeNumber 0 61 2 t).bind fun s =>
                  some (⟨y.1, m.1, d.1, h.1, i.1, s.1⟩, s.2) := rfl

/-- A year of four digits. -/
theorem strptimeNumber_year {a b c d : Char} (ha : a.isDigit = true) (hb : b.isDigit = true)
    (hc : c.isDigit = true) (hd : d.isDigit = true) (rest : Text) :
    ∃ year, strptimeNumber 0 9999 4 (a :: b :: c :: d :: rest) = some (year, rest) := by
  have hle : ∀ {c : Char}, c.isDigit = true → c.toNat - 48 ≤ 9 := by
    intro c hc
    simp only [Char.isDigit, Bool.and_eq_true, decide_eq_true_eq] at hc
    have hnine : c.toNat ≤ 57 := hc.2
    omega
  have ha9 := hle ha
  have hb9 := hle hb
  have hc9 := hle hc
  have hd9 := hle hd
  have hspace : (a :: b :: c :: d :: rest).dropWhile isspace = a :: b :: c :: d :: rest :=
    List.dropWhile_cons_of_neg (by simp [isspace_of_isDigit ha])
  have htake : takeNumber 9999 3 (a.toNat - 48) (b :: c :: d :: rest) =
      ((((a.toNat - 48) * 10 + (b.toNat - 48)) * 10 + (c.toNat - 48)) * 10 + (d.toNat - 48),
        rest) := by
    rw [takeNumber, if_pos, takeNumber, if_pos, takeNumber, if_pos, takeNumber]
    · rw [hd, Bool.true_and, decide_eq_true_eq]
      omega
    · rw [hc, Bool.true_and, decide_eq_true_eq]
      omega
    · rw [hb, Bool.true_and, decide_eq_true_eq]
      omega
  refine ⟨(((a.toNat - 48) * 10 + (b.toNat - 48)) * 10 + (c.toNat - 48)) * 10 + (d.toNat - 48), ?_⟩
  unfold strptimeNumber
  rw [hspace]
  dsimp only
  rw [if_pos ha, htake, if_pos]
  exact ⟨Nat.zero_le _, by omega⟩

/-- Of the texts in the shape of a time `strptime` reads the possible ones to their end. -/
theorem strptime_iff {time : Text} (h : chkTimeStamp time = true) :
    (∃ tm, strptime time = some (tm, [])) ↔ PossibleTime time := by
  obtain ⟨y₁, y₂, y₃, y₄, m₁, m₂, d₁, d₂, h₁, h₂, i₁, i₂, s₁, s₂, hall, rfl⟩ := timeStamp_chars h
  simp only [List.forall_mem_cons, List.not_mem_nil, false_implies, implies_true, and_true] at hall
  obtain ⟨hy₁, hy₂, hy₃, hy₄, hm₁, hm₂, hd₁, hd₂, hh₁, hh₂, hi₁, hi₂, hs₁, hs₂⟩ := hall
  have hdash : '-'.isDigit = false := by decide
  have hcolon : ':'.isDigit = false := by decide
  obtain ⟨year, hyear⟩ := strptimeNumber_year hy₁ hy₂ hy₃ hy₄
    ['-', m₁, m₂, '-', d₁, d₂, ' ', h₁, h₂, ':', i₁, i₂, ':', s₁, s₂]
  constructor
  · rintro ⟨tm, htime⟩
    rw [strptime_eq, hyear, Option.bind_some] at htime
    obtain ⟨_, hmark₁, htime⟩ := Option.bind_eq_some_iff.mp htime
    obtain rfl := Option.some.inj hmark₁
    obtain ⟨mon, hmon, htime⟩ := Option.bind_eq_some_iff.mp htime
    obtain ⟨_, hmark₂, htime⟩ := Option.bind_eq_some_iff.mp htime
    obtain ⟨hmonth, -, rfl⟩ := (strptimeNumber_mark 1 12 hm₁ hm₂ hdash _).mp ⟨hmon, hmark₂⟩
    obtain ⟨mday, hmday, htime⟩ := Option.bind_eq_some_iff.mp htime
    obtain ⟨hour, hhour, htime⟩ := Option.bind_eq_some_iff.mp htime
    obtain ⟨_, hmark₃, htime⟩ := Option.bind_eq_some_iff.mp htime
    obtain ⟨⟨hday, -, hhours⟩, -, -, rfl⟩ :=
      (strptimeNumber_day_hour hd₁ hd₂ hh₁ hh₂ _).mp ⟨hmday, hhour, hmark₃⟩
    obtain ⟨min, hmin, htime⟩ := Option.bind_eq_some_iff.mp htime
    obtain ⟨_, hmark₄, htime⟩ := Option.bind_eq_some_iff.mp htime
    obtain ⟨⟨-, hminute⟩, -, rfl⟩ := (strptimeNumber_mark 0 59 hi₁ hi₂ hcolon _).mp ⟨hmin, hmark₄⟩
    obtain ⟨sec, hsec, htime⟩ := Option.bind_eq_some_iff.mp htime
    obtain ⟨-, hend⟩ := Prod.mk.inj (Option.some.inj htime)
    rw [strptimeNumber_two 0 61 hs₁ hs₂] at hsec
    refine ⟨hmonth, hday, hhours, hminute, ?_⟩
    split at hsec
    · exact (Option.ite_none_right_eq_some.mp hsec).1.2
    · -- a digit is left over
      obtain ⟨-, hr⟩ := Option.ite_none_right_eq_some.mp hsec
      obtain rfl := Option.some.inj hr
      simp at hend
  · rintro ⟨hmonth, hday, hhours, hminute, hsecond⟩
    obtain ⟨hmon, -⟩ := (strptimeNumber_mark 1 12 hm₁ hm₂ hdash
      [d₁, d₂, ' ', h₁, h₂, ':', i₁, i₂, ':', s₁, s₂]).mpr ⟨hmonth, rfl, rfl⟩
    obtain ⟨hmday, hhour, -⟩ := (strptimeNumber_day_hour hd₁ hd₂ hh₁ hh₂
      [i₁, i₂, ':', s₁, s₂]).mpr ⟨⟨hday, Nat.zero_le _, hhours⟩, rfl, rfl, rfl⟩
    obtain ⟨hmin, -⟩ := (strptimeNumber_mark 0 59 hi₁ hi₂ hcolon [s₁, s₂]).mpr
      ⟨⟨Nat.zero_le _, hminute⟩, rfl, rfl⟩
    have hsec : strptimeNumber 0 61 2 [s₁, s₂] = some (10 * digitValue s₁ + digitValue s₂, []) := by
      change 10 * digitValue s₁ + digitValue s₂ ≤ 61 at hsecond
      rw [strptimeNumber_two 0 61 hs₁ hs₂, if_pos (by omega), if_pos ⟨Nat.zero_le _, hsecond⟩]
    have hmark : ∀ (d : Char) (t : Text), strptimeChar d (d :: t) = some t := fun d t => if_pos rfl
    rw [strptime_eq, hyear]
    simp only [Option.bind_some, hmark, hmon, hmday, hhour, hmin, hsec]
    exact ⟨_, rfl⟩

/-- A year that `strptime` reads has four digits at most, and there are up to two leap seconds. -/
theorem strptime_year {text rest : Text} {tm : Tm} (h : strptime text = some (tm, rest)) :
    (0 ≤ tm.year ∧ tm.year ≤ 9999) ∧ tm.sec ≤ 61 := by
  rw [strptime_eq] at h
  obtain ⟨year, hyear, h⟩ := Option.bind_eq_some_iff.mp h
  obtain ⟨_, -, h⟩ := Option.bind_eq_some_iff.mp h
  obtain ⟨_, -, h⟩ := Option.bind_eq_some_iff.mp h
  obtain ⟨_, -, h⟩ := Option.bind_eq_some_iff.mp h
  obtain ⟨_, -, h⟩ := Option.bind_eq_some_iff.mp h
  obtain ⟨_, -, h⟩ := Option.bind_eq_some_iff.mp h
  obtain ⟨_, -, h⟩ := Option.bind_eq_some_iff.mp h
  obtain ⟨_, -, h⟩ := Option.bind_eq_some_iff.mp h
  obtain ⟨_, -, h⟩ := Option.bind_eq_some_iff.mp h
  obtain ⟨sec, hsec, h⟩ := Option.bind_eq_some_iff.mp h
  obtain ⟨rfl, -⟩ := Prod.mk.inj (Option.some.inj h)
  exact ⟨⟨Int.natCast_nonneg _, Int.ofNat_le.mpr (strptimeNumber_bounds hyear).2⟩,
    (strptimeNumber_bounds hsec).2⟩

/-! ### The time of a request to gvmd -/

/-- The first second of 1970 in the count of the calendar. -/
def epoch : ℤ := second (dayNumber 1970 1 1) 0 0 0

/-- The time that a UTC time and date stands for. -/
def Tm.utc (tm : Tm) : ℤ := second (dayNumber tm.year tm.mon tm.mday) tm.hour tm.min tm.sec - epoch

/-- `gmtime_r`, which fails for a year that does not fit in an `int`. -/
def gmtime (time : ℤ) : Option Tm :=
  let d := Date.ofNumber (time / 86400 + dayNumber 1970 1 1)
  if -2 ^ 31 ≤ d.year - 1900 ∧ d.year - 1900 < 2 ^ 31 then
    some ⟨d.year, d.month, d.day, (time % 86400 / 3600).toNat, (time % 3600 / 60).toNat,
      (time % 60).toNat⟩
  else none

/-- The clock of the machine: `timelocal` in its time zone, and `getTime`. -/
structure LocalClock where
  timelocal : Tm → ℤ
  getTime : ℤ

namespace LocalClock

variable (clock : LocalClock)

/-- `asc2time` of a local time. What `strptime` leaves of the text is not looked at. -/
def asc2time (text : Text) : Option ℤ := (strptime text).map fun r => clock.timelocal r.1

/-- The UTC time that `local2SchedTime` prints. A schedule for once is at least 100 seconds ahead. -/
def localToSched (localTime : Text) (isOnce : Bool) : Option Tm :=
  (clock.asc2time localTime).bind fun time =>
    let currTime := clock.getTime + 100
    gmtime (if isOnce = true ∧ time < currTime then currTime else time)

/-- What the C library promises: the time zone is less than a day away from UTC (a time that cannot
be converted gives -1), and the current time is the one of a machine. -/
structure Regular : Prop where
  timelocal : ∀ tm : Tm, TmOk tm → (0 ≤ tm.year ∧ tm.year ≤ 9999) ∧ tm.sec ≤ 61 →
    clock.timelocal tm = -1 ∨ |clock.timelocal tm - tm.utc| < 86400
  getTime : 0 ≤ clock.getTime ∧ clock.getTime < 2 ^ 54

end LocalClock

/-- The environment with this clock. -/
def Env.withClock (env : Env) (clock : LocalClock) : Env :=
  { env with localToSched := clock.localToSched }

theorem second_gmtime {time : ℤ} {tm : Tm} (h : gmtime time = some tm) : tm.utc = time := by
  obtain ⟨-, htm⟩ := Option.ite_none_right_eq_some.mp h
  obtain rfl := Option.some.inj htm
  have hnumber := Date.number_ofNumber (time / 86400 + dayNumber 1970 1 1)
  unfold Date.number at hnumber
  simp only [Tm.utc, epoch, second, hnumber]
  omega

/-- Around the present every time has a date. -/
theorem gmtime_isSome {time : ℤ} (h : |time| < 2 ^ 55) : ∃ tm, gmtime time = some tm := by
  obtain ⟨hlow, hhigh⟩ := abs_lt.mp h
  have hepoch : dayNumber 1970 1 1 = 719163 := by decide
  have hyear : -2 ^ 31 ≤ (Date.ofNumber (time / 86400 + dayNumber 1970 1 1)).year - 1900 ∧
      (Date.ofNumber (time / 86400 + dayNumber 1970 1 1)).year - 1900 < 2 ^ 31 := by
    change -2 ^ 31 ≤ yearOf _ - 1900 ∧ yearOf _ - 1900 < 2 ^ 31
    rw [hepoch]
    unfold yearOf
    dsimp only
    split_ifs <;> omega
  exact ⟨_, if_pos hyear⟩

theorem daysBeforeMonth_le (year : ℤ) (month : ℕ) : daysBeforeMonth year month ≤ 31 * month := by
  induction month with
  | zero => exact le_rfl
  | succ month ih =>
    cases month with
    | zero => exact Nat.zero_le _
    | succ month =>
      have hle := daysInMonth_le_31 year (month + 1)
      rw [daysBeforeMonth]
      omega

/-- The times of four-digit years. -/
theorem Tm.abs_utc_lt {tm : Tm} (htm : TmOk tm) (hyear : (0 ≤ tm.year ∧ tm.year ≤ 9999) ∧ tm.sec ≤ 61) :
    |tm.utc| < 2 ^ 54 := by
  obtain ⟨⟨hlow, hhigh⟩, hsec⟩ := hyear
  have hepoch : epoch = 86400 * 719163 := by decide
  have hmonth := daysBeforeMonth_le tm.year tm.mon
  have hmon := htm.mon_le
  have hmday := htm.mday_le
  have hhour := htm.hour_le
  have hmin := htm.min_le
  simp only [Tm.utc, second, hepoch, dayNumber, daysBeforeYear]
  rw [abs_lt]
  omega

/-- The text of a UTC time. -/
theorem Tm.length_schedTime {time : ℤ} {tm : Tm} (h : gmtime time = some tm) :
    tm.schedTime.length < maxTimestampSize := by
  have htwo : ∀ {n : ℕ}, n < 100 → (twoDigits n).length ≤ 2 := by
    intro n hn
    have hlen := (Nat.length_toDigits_le_iff (b := 10) (n := n) (k := 2) (by decide) (by decide)).mpr
      hn
    unfold twoDigits
    split
    · rename_i hten
      have hone := (Nat.length_toDigits_le_iff (b := 10) (n := n) (k := 1) (by decide)
        (by decide)).mpr hten
      rw [List.length_cons]
      omega
    · exact hlen
  obtain ⟨hyear, htm⟩ := Option.ite_none_right_eq_some.mp h
  obtain rfl := Option.some.inj htm
  have hdecimal : (decimal (Date.ofNumber (time / 86400 + dayNumber 1970 1 1)).year).length ≤ 11 := by
    generalize (Date.ofNumber (time / 86400 + dayNumber 1970 1 1)).year = year at hyear
    have hten := (Nat.length_toDigits_le_iff (b := 10) (n := year.natAbs) (k := 10) (by decide)
      (by decide)).mpr (by omega)
    unfold decimal
    split
    · rw [List.length_cons]
      omega
    · omega
  have hmonth := (Date.ofNumber (time / 86400 + dayNumber 1970 1 1)).month_le
  have hday := (Date.ofNumber (time / 86400 + dayNumber 1970 1 1)).day_le
  have hlast := daysInMonth_le_31 (Date.ofNumber (time / 86400 + dayNumber 1970 1 1)).year
    (Date.ofNumber (time / 86400 + dayNumber 1970 1 1)).month
  have hmonthText := htwo (show (Date.ofNumber (time / 86400 + dayNumber 1970 1 1)).month < 100 by
    omega)
  have hdayText := htwo (show (Date.ofNumber (time / 86400 + dayNumber 1970 1 1)).day < 100 by omega)
  have hhourText := htwo (show (time % 86400 / 3600).toNat < 100 by omega)
  have hminText := htwo (show (time % 3600 / 60).toNat < 100 by omega)
  have hsecText := htwo (show (time % 60).toNat < 100 by omega)
  simp only [Tm.schedTime, List.length_append, maxTimestampSize]
  have hmarks : "T".toList.length = 1 ∧ "Z".toList.length = 1 := by decide
  omega

/-- A UTC time fits into the buffer for it. -/
theorem Tm.ofText_schedTime {time : ℤ} {utc : Tm} (h : gmtime time = some utc) :
    ∃ firstRun : CStr maxTimestampSize, CStr.ofText maxTimestampSize utc.schedTime = some firstRun := by
  have hnul : '\x00' ∉ utc.schedTime := by
    have htwo : ∀ n, '\x00' ∉ twoDigits n := fun n hmem => by
      simpa using isDigit_of_mem_twoDigits hmem
    simp only [Tm.schedTime, List.mem_append, htwo, nul_not_mem_decimal, false_or, or_false]
    decide
  exact Option.isSome_iff_exists.mp (CStr.ofText_isSome.mpr ⟨Tm.length_schedTime h, hnul⟩)

/-- `local2SchedTime` succeeds for what `strptime` reads. -/
theorem LocalClock.Regular.local2SchedTime {clock : LocalClock} (h : clock.Regular) (env : Env)
    {time rest : Text} {tm : Tm} (htime : strptime time = some (tm, rest)) (isOnce : Bool) :
    ∃ firstRun, (env.withClock clock).local2SchedTime time isOnce = some firstRun := by
  have hbound : |clock.timelocal tm| < 2 ^ 55 := by
    have hutc := Tm.abs_utc_lt (strptime_tmOk htime) (strptime_year htime)
    rw [abs_lt] at hutc ⊢
    rcases h.timelocal tm (strptime_tmOk htime) (strptime_year htime) with hfailed | hnear
    · omega
    · rw [abs_lt] at hnear
      omega
  have hnow := h.getTime
  have hsched : ∃ utc time', clock.localToSched time isOnce = some utc ∧ gmtime time' = some utc := by
    unfold LocalClock.localToSched LocalClock.asc2time
    rw [htime]
    dsimp only [Option.map_some, Option.bind_some]
    split
    · have hcurrent : |clock.getTime + 100| < 2 ^ 55 := by
        rw [abs_lt]
        omega
      obtain ⟨utc, hutc⟩ := gmtime_isSome hcurrent
      exact ⟨utc, _, hutc, hutc⟩
    · obtain ⟨utc, hutc⟩ := gmtime_isSome hbound
      exact ⟨utc, _, hutc, hutc⟩
  obtain ⟨utc, time', hutc, hgm⟩ := hsched
  obtain ⟨firstRun, hfirst⟩ := Tm.ofText_schedTime hgm
  have hne : time ≠ [] := by
    rintro rfl
    simp [strptime, strptimeNumber] at htime
  refine ⟨firstRun, ?_⟩
  unfold Env.local2SchedTime
  rw [if_neg (by simpa using hne)]
  change (clock.localToSched time isOnce).bind _ = _
  rw [hutc, Option.bind_some, hfirst]

/-! ### Both builders -/

/-- `formatCronTask` succeeds with every buffer that is large enough. -/
def CronBuilt (type : ℤ) (time list cmd : Text) : Prop :=
  ∃ content, FormatsAs type time list cmd content

/-- `local2SchedTime` succeeds, and `gvm_create_schedule` sends a request for a schedule of this
type with this list. -/
def RequestBuilt (env : Env) (name : Text) (type : ℤ) (time list : Text) : Prop :=
  ∃ firstRun rule, env.local2SchedTime time (type == icalDateOnce) = some firstRun ∧
    scheduleRule type list = some rule ∧
    (gvmCreateSchedule env name type firstRun.text list).sent =
      [.createSchedule name firstRun.text rule]

/-- The type is one of the four, the time exists, and the lists fit in the buffer of
`formatCronTask`. -/
structure Buildable (type : ℤ) (time list : Text) : Prop where
  known : 1 ≤ type ∧ type ≤ 4
  possible : PossibleTime time
  weekly : type = icalDateWeekly → (list.splitOn ',').length ≤ 63
  monthly : type = icalDateMonthly → (frontDays list).length < maxCommSize

/-- The lines of a crontab for a list that was checked. -/
theorem cronLines_isSome_iff {type : ℤ} {time list : Text}
    (h : chkScheduleParam type time list = true) (htype : type ≠ icalDateNone) (tm : Tm)
    (cmd : Text) :
    (∃ lines, cronLines type tm list cronUserName cmd = some lines) ↔
      (1 ≤ type ∧ type ≤ 4) ∧ (type = icalDateWeekly → (list.splitOn ',').length ≤ 63) ∧
        (type = icalDateMonthly → (frontDays list).length < maxCommSize) := by
  by_cases honce : type = icalDateOnce
  · subst honce
    simp [cronLines, icalDateOnce, icalDateWeekly, icalDateMonthly]
  by_cases hdaily : type = icalDateDaily
  · subst hdaily
    simp [cronLines, icalDateOnce, icalDateDaily, icalDateWeekly, icalDateMonthly]
  by_cases hweekly : type = icalDateWeekly
  · subst hweekly
    obtain ⟨ns, hne, hns, hsplit, hlist⟩ := weekly_codes h
    have hconv := convWeekDay_codes maxCommSize hne hns
    rw [← hlist] at hconv
    unfold cronLines
    rw [if_neg (by decide), if_neg (by decide), if_pos rfl, hconv, hsplit, List.length_map]
    constructor
    · rintro ⟨lines, hlines⟩
      obtain ⟨names, hnames, -⟩ := Option.map_eq_some_iff.mp hlines
      have hroom := (Option.ite_none_right_eq_some.mp hnames).1
      simp only [maxCommSize] at hroom
      exact ⟨by decide, fun _ => by omega, by simp [icalDateWeekly, icalDateMonthly]⟩
    · rintro ⟨-, hlen, -⟩
      have hroom := hlen rfl
      rw [if_pos (by simp only [maxCommSize]; omega)]
      exact ⟨_, rfl⟩
  by_cases hmonthly : type = icalDateMonthly
  · subst hmonthly
    obtain ⟨ns, rest, hlist⟩ := monthList_of_chk h
    rw [hlist.cronLines]
    constructor
    · rintro ⟨lines, hlines⟩
      have hroom := (Option.ite_none_right_eq_some.mp hlines).1
      exact ⟨by decide, by simp [icalDateWeekly, icalDateMonthly], fun _ => hroom⟩
    · rintro ⟨-, -, hroom⟩
      exact ⟨_, if_pos (hroom rfl)⟩
  · have hunknown : ¬(1 ≤ type ∧ type ≤ 4) := by
      simp only [icalDateOnce, icalDateDaily, icalDateWeekly, icalDateMonthly] at *
      omega
    simp [cronLines, honce, hdaily, hweekly, hmonthly, hunknown]

theorem scheduleRule_isSome {type : ℤ} (h : 1 ≤ type ∧ type ≤ 4) (list : Text) :
    ∃ rule, scheduleRule type list = some rule := by
  unfold scheduleRule
  split_ifs with honce hdaily hweekly hmonthly
  · exact ⟨_, rfl⟩
  · exact ⟨_, rfl⟩
  · exact ⟨_, rfl⟩
  · exact ⟨_, rfl⟩
  · simp only [icalDateOnce, icalDateDaily, icalDateWeekly, icalDateMonthly] at *
    omega

/-- **Both builders build.** Of the schedules that the checks accept exactly the buildable ones
become a crontab entry and a request to gvmd. -/
theorem schedulesBuilt_iff {clock : LocalClock} (hclock : clock.Regular) (env : Env)
    (name cmd : Text) {type : ℤ} {time list : Text} (h : chkScheduleParam type time list = true)
    (htype : type ≠ icalDateNone) :
    CronBuilt type time list cmd ∧ RequestBuilt (env.withClock clock) name type time list ↔
      Buildable type time list := by
  have hlines := fun tm => cronLines_isSome_iff h htype tm cmd
  have htime : chkTimeStamp time = true := by
    unfold chkScheduleParam at h
    rw [if_neg htype] at h
    by_contra hshape
    rw [if_neg hshape] at h
    simp at h
  constructor
  · rintro ⟨⟨content, hformat⟩, -⟩
    obtain ⟨tm, lines, hread, hprinted, -⟩ := formatsAs_iff.mp hformat
    obtain ⟨hknown, hweekly, hmonthly⟩ := (hlines tm).mp ⟨lines, hprinted⟩
    exact ⟨hknown, (strptime_iff htime).mp ⟨tm, hread⟩, hweekly, hmonthly⟩
  · rintro ⟨hknown, hpossible, hweekly, hmonthly⟩
    obtain ⟨tm, hread⟩ := (strptime_iff htime).mpr hpossible
    obtain ⟨lines, hprinted⟩ := (hlines tm).mpr ⟨hknown, hweekly, hmonthly⟩
    obtain ⟨firstRun, hfirst⟩ := hclock.local2SchedTime env hread (type == icalDateOnce)
    obtain ⟨rule, hrule⟩ := scheduleRule_isSome hknown list
    refine ⟨⟨_, formatsAs_iff.mpr ⟨tm, lines, hread, hprinted, rfl⟩⟩, firstRun, rule, hfirst, hrule,
      ?_⟩
    rw [gvmCreateSchedule, hrule]
    rfl

/-- The clock of a machine in UTC. -/
def utcClock : LocalClock := ⟨Tm.utc, 1714552200⟩

theorem regular_utcClock : utcClock.Regular :=
  ⟨fun _ _ _ => Or.inr (by simp [utcClock]), by decide⟩

theorem schedulesBuilt_iff_sample :
    CronBuilt icalDateWeekly "2024-05-01 08:30:00".toList "MO,FR".toList "/usr/sbin/scan".toList ∧
        RequestBuilt ((Env.smooth fun _ => none).withClock utcClock) "scan".toList icalDateWeekly
          "2024-05-01 08:30:00".toList "MO,FR".toList ↔
      Buildable icalDateWeekly "2024-05-01 08:30:00".toList "MO,FR".toList :=
  schedulesBuilt_iff regular_utcClock _ _ _ (by decide +kernel) (by decide)

/-- The checks let a thirteenth month and a fifth type through. -/
theorem not_schedulesBuilt_month :
    (chkScheduleParam icalDateDaily "2024-13-01 08:30:00".toList [] = true ∧
        ∀ cmd, ¬CronBuilt icalDateDaily "2024-13-01 08:30:00".toList [] cmd) ∧
      chkScheduleParam 5 "2024-05-01 08:30:00".toList "never".toList = true ∧
        ∀ env name, ¬RequestBuilt env name 5 "2024-05-01 08:30:00".toList "never".toList := by
  refine ⟨⟨by decide +kernel, fun cmd => ?_⟩, by decide +kernel, fun env name => ?_⟩
  · rintro ⟨content, hformat⟩
    obtain ⟨tm, lines, hread, -⟩ := formatsAs_iff.mp hformat
    have hnone : strptime "2024-13-01 08:30:00".toList = none := by decide +kernel
    rw [hnone] at hread
    exact absurd hread (by simp)
  · rintro ⟨firstRun, rule, -, hrule, -⟩
    have hnone : scheduleRule 5 "never".toList = none := by decide +kernel
    rw [hnone] at hrule
    exact absurd hrule (by simp)

end OpenvasTool
