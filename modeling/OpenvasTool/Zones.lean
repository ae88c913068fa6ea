import OpenvasTool.ScheduleBuilders

/-!
# Local times and their zone

`local2SchedTime` takes a wall-clock time to UTC with `tm_isdst` left at 0, so
`timelocal` reads every time as standard time; the other way `localtime_r` uses the
offset that is in force. Both meet in the middle except while daylight-saving time
moves the clocks.
-/

namespace OpenvasTool

open Posix Calendar

/-! ### Reading printed numbers -/

/-- A number field takes all digits of a number that is in its range. -/
theorem takeNumber_digits {hi : ℕ} {d : Char} (hd : d.isDigit = false) (rest : Text) :
    ∀ {n v : ℕ} {ds : Text}, (∀ c ∈ ds, c.isDigit = true) → ds.length ≤ n →
      Nat.ofDigitChars 10 ds v ≤ hi →
      takeNumber hi n v (ds ++ d :: rest) = (Nat.ofDigitChars 10 ds v, d :: rest) := by
  intro n v ds
  induction ds generalizing n v with
  | nil =>
    intro _ _ _
    cases n with
    | zero => simp [takeNumber]
    | succ n => simp [takeNumber, hd]
  | cons c ds ih =>
    intro hdigits hlength hle
    obtain ⟨n, rfl⟩ : ∃ m, n = m + 1 := ⟨n - 1, by simp at hlength; omega⟩
    rw [Nat.ofDigitChars_cons, Nat.ofDigitChars_eq_ofDigitChars_zero] at hle
    have hvalue : v * 10 ≤ hi := by
      have hpow : 1 ≤ 10 ^ ds.length := Nat.one_le_pow _ _ (by decide)
      have hmul : 1 * (10 * v + (c.toNat - '0'.toNat)) ≤
          10 ^ ds.length * (10 * v + (c.toNat - '0'.toNat)) := Nat.mul_le_mul_right _ hpow
      omega
    rw [List.cons_append, takeNumber, hdigits c (by simp), decide_eq_true hvalue, Bool.and_self,
      if_pos rfl, Nat.ofDigitChars_cons, mul_comm v 10]
    rw [← Nat.ofDigitChars_eq_ofDigitChars_zero] at hle
    exact ih (fun c hc => hdigits c (List.mem_cons_of_mem _ hc)) (by simpa using hlength) hle

/-- A field that is too short for a number stops before one of its digits. -/
theorem takeNumber_stops {hi : ℕ} (rest : Text) :
    ∀ {n v : ℕ} {ds : Text}, (∀ c ∈ ds, c.isDigit = true) → n < ds.length →
      ∃ v' c tail, takeNumber hi n v (ds ++ rest) = (v', c :: tail) ∧ c.isDigit = true := by
  intro n
  induction n with
  | zero =>
    intro v ds hdigits hlength
    obtain ⟨c, ds, rfl⟩ := List.exists_cons_of_length_pos hlength
    exact ⟨v, c, ds ++ rest, rfl, hdigits c (by simp)⟩
  | succ n ih =>
    intro v ds hdigits hlength
    obtain ⟨c, ds, rfl⟩ := List.exists_cons_of_length_pos (by omega : 0 < ds.length)
    rw [List.cons_append, takeNumber]
    split
    · exact ih (fun c hc => hdigits c (List.mem_cons_of_mem _ hc)) (by simpa using hlength)
    · exact ⟨v, c, ds ++ rest, rfl, hdigits c (by simp)⟩

/-- The digits of a number, the first one apart. -/
theorem toDigits_eq_cons (n : ℕ) :
    ∃ c ds, Nat.toDigits 10 n = c :: ds ∧ (∀ a ∈ c :: ds, a.isDigit = true) := by
  have hpos : 0 < (Nat.toDigits 10 n).length := Nat.length_toDigits_pos
  obtain ⟨c, ds, heq⟩ := List.exists_cons_of_length_pos hpos
  exact ⟨c, ds, heq, fun a ha => Nat.isDigit_of_mem_toDigits (by decide) (by decide) (heq ▸ ha)⟩

/-- A printed year of at most four digits is read back, and any other one does not end at its mark. -/
theorem strptimeNumber_decimal {d : Char} (hd : d.isDigit = false) (year : ℤ) (rest : Text) :
    ((strptimeNumber 0 9999 4 (decimal year ++ d :: rest)).bind fun y =>
        (strptimeChar d y.2).map fun t => (y.1, t)) =
      if 0 ≤ year ∧ year ≤ 9999 then some (year.toNat, rest) else none := by
  by_cases hneg : year < 0
  · have hminus : decimal year ++ d :: rest = '-' :: (Nat.toDigits 10 year.natAbs ++ d :: rest) := by
      simp [decimal, hneg]
    rw [hminus, if_neg (by omega)]
    simp [strptimeNumber, isspace]
  · obtain ⟨c, ds, hdigits, hall⟩ := toDigits_eq_cons year.toNat
    have hc : c.isDigit = true := hall c (by simp)
    have htext : decimal year ++ d :: rest = c :: (ds ++ d :: rest) := by
      rw [decimal, if_neg hneg, ← List.cons_append, ← hdigits]
      congr 2
      omega
    have hspace : (c :: (ds ++ d :: rest)).dropWhile isspace = c :: (ds ++ d :: rest) :=
      List.dropWhile_cons_of_neg (by simp [isspace_of_isDigit hc])
    have hvalue : Nat.ofDigitChars 10 ds (c.toNat - 48) = year.toNat := by
      have hten := @Nat.ofDigitChars_ten_toDigits year.toNat
      rw [hdigits, Nat.ofDigitChars_cons, mul_zero, zero_add] at hten
      exact hten
    have hlength := Nat.length_toDigits_le_iff (b := 10) (n := year.toNat) (k := 4) (by decide)
      (by decide)
    rw [hdigits, List.length_cons] at hlength
    rw [htext]
    unfold strptimeNumber
    rw [hspace]
    dsimp only
    rw [if_pos hc]
    by_cases hfour : year ≤ 9999
    · have htake : takeNumber 9999 (4 - 1) (c.toNat - 48) (ds ++ d :: rest) =
          (year.toNat, d :: rest) := by
        rw [takeNumber_digits hd rest (fun a ha => hall a (List.mem_cons_of_mem _ ha)) (by omega)
          (by omega), hvalue]
      have hrange : 0 ≤ year.toNat ∧ year.toNat ≤ 9999 := ⟨Nat.zero_le _, by omega⟩
      have hyear : 0 ≤ year ∧ year ≤ 9999 := ⟨by omega, hfour⟩
      rw [htake, if_pos hrange, if_pos hyear]
      simp [strptimeChar]
    · obtain ⟨v, a, tail, htake, ha⟩ := @takeNumber_stops 9999 (d :: rest) (4 - 1)
        (c.toNat - 48) ds (fun a ha => hall a (List.mem_cons_of_mem _ ha)) (by omega)
      have hne : a ≠ d := by
        rintro rfl
        simp [ha] at hd
      have hyear : ¬ (0 ≤ year ∧ year ≤ 9999) := fun h => hfour h.2
      rw [htake, if_neg hyear]
      split
      · simp [strptimeChar, hne]
      · rfl

/-! ### Two digits -/

theorem twoDigits_eq {n : ℕ} (h : n < 100) :
    twoDigits n = [(n / 10).digitChar, (n % 10).digitChar] := by
  unfold twoDigits
  split
  · rename_i hten
    rw [Nat.toDigits_of_lt_base hten, Nat.div_eq_of_lt hten, Nat.mod_eq_of_lt hten]
    rfl
  · rename_i hten
    rw [Nat.toDigits_of_base_le (by decide) (by omega), Nat.toDigits_of_lt_base (by omega)]
    rfl

theorem digitValue_digitChar {n : ℕ} (h : n < 10) : digitValue n.digitChar = n :=
  Nat.toNat_digitChar_sub_48_of_lt_ten h

theorem isDigit_digitChar {n : ℕ} (h : n < 10) : n.digitChar.isDigit = true := by
  simp [Nat.isDigit_digitChar, h]

/-- A printed time whose numbers are in their ranges is read back, if its year has four digits at
most. -/
theorem strptime_timeStamp {tm : Tm} (htm : TmOk tm) (hsec : tm.sec ≤ 61) :
    strptime tm.timeStamp = if 0 ≤ tm.year ∧ tm.year ≤ 9999 then some (tm, []) else none := by
  obtain ⟨hmonPos, hmonLe, hmdayPos, hmdayLe, hhour, hmin⟩ := htm
  have hten (n : ℕ) : n % 10 < 10 := Nat.mod_lt n (by decide)
  have hvalue {n : ℕ} (hn : n < 100) :
      10 * digitValue (n / 10).digitChar + digitValue (n % 10).digitChar = n := by
    rw [digitValue_digitChar (by omega), digitValue_digitChar (hten n)]
    omega
  have hdigits {n : ℕ} (hn : n < 100) :
      (n / 10).digitChar.isDigit = true ∧ (n % 10).digitChar.isDigit = true :=
    ⟨isDigit_digitChar (by omega), isDigit_digitChar (hten n)⟩
  have hdash : '-'.isDigit = false := by decide
  have hcolon : ':'.isDigit = false := by decide
  have hm := hdigits (by omega : tm.mon < 100)
  have hd := hdigits (by omega : tm.mday < 100)
  have hh := hdigits (by omega : tm.hour < 100)
  have hi := hdigits (by omega : tm.min < 100)
  have hs := hdigits (by omega : tm.sec < 100)
  have hmv := hvalue (by omega : tm.mon < 100)
  have hdv := hvalue (by omega : tm.mday < 100)
  have hhv := hvalue (by omega : tm.hour < 100)
  have hiv := hvalue (by omega : tm.min < 100)
  have hsv := hvalue (by omega : tm.sec < 100)
  have htext : tm.timeStamp = decimal tm.year ++ '-' :: (tm.mon / 10).digitChar ::
      (tm.mon % 10).digitChar :: '-' :: (tm.mday / 10).digitChar :: (tm.mday % 10).digitChar ::
      ' ' :: (tm.hour / 10).digitChar :: (tm.hour % 10).digitChar :: ':' ::
      (tm.min / 10).digitChar :: (tm.min % 10).digitChar :: ':' :: (tm.sec / 10).digitChar ::
      [(tm.sec % 10).digitChar] := by
    unfold Tm.timeStamp
    rw [twoDigits_eq (by omega : tm.mon < 100), twoDigits_eq (by omega : tm.mday < 100),
      twoDigits_eq (by omega : tm.hour < 100), twoDigits_eq (by omega : tm.min < 100),
      twoDigits_eq (by omega : tm.sec < 100)]
    simp
  have hdec := strptimeNumber_decimal hdash tm.year ((tm.mon / 10).digitChar ::
      (tm.mon % 10).digitChar :: '-' :: (tm.mday / 10).digitChar :: (tm.mday % 10).digitChar ::
      ' ' :: (tm.hour / 10).digitChar :: (tm.hour % 10).digitChar :: ':' ::
      (tm.min / 10).digitChar :: (tm.min % 10).digitChar :: ':' :: (tm.sec / 10).digitChar ::
      [(tm.sec % 10).digitChar])
  rw [htext, strptime_eq]
  by_cases hyear : 0 ≤ tm.year ∧ tm.year ≤ 9999
  · rw [if_pos hyear] at hdec ⊢
    obtain ⟨y, hnumber, hdec⟩ := Option.bind_eq_some_iff.mp hdec
    obtain ⟨t, hchar, heq⟩ := Option.map_eq_some_iff.mp hdec
    obtain ⟨hy, rfl⟩ := Prod.mk.inj heq
    rw [hnumber, Option.bind_some, hchar, Option.bind_some, hy]
    obtain ⟨hmon, -⟩ := (strptimeNumber_mark 1 12 hm.1 hm.2 hdash
      ((tm.mday / 10).digitChar :: (tm.mday % 10).digitChar :: ' ' :: (tm.hour / 10).digitChar ::
        (tm.hour % 10).digitChar :: ':' :: (tm.min / 10).digitChar :: (tm.min % 10).digitChar ::
        ':' :: (tm.sec / 10).digitChar :: [(tm.sec % 10).digitChar])).mpr
      ⟨⟨by omega, by omega⟩, rfl, rfl⟩
    obtain ⟨hmday, hhours, -⟩ := (strptimeNumber_day_hour hd.1 hd.2 hh.1 hh.2
      ((tm.min / 10).digitChar :: (tm.min % 10).digitChar :: ':' :: (tm.sec / 10).digitChar ::
        [(tm.sec % 10).digitChar])).mpr
      ⟨⟨⟨by omega, by omega⟩, Nat.zero_le _, by omega⟩, rfl, rfl, rfl⟩
    obtain ⟨hmins, -⟩ := (strptimeNumber_mark 0 59 hi.1 hi.2 hcolon
      ((tm.sec / 10).digitChar :: [(tm.sec % 10).digitChar])).mpr
      ⟨⟨Nat.zero_le _, by omega⟩, rfl, rfl⟩
    have hsecs : strptimeNumber 0 61 2 [(tm.sec / 10).digitChar, (tm.sec % 10).digitChar] =
        some (tm.sec, []) := by
      rw [strptimeNumber_two 0 61 hs.1 hs.2, hsv, digitValue_digitChar (by omega), if_pos (by omega),
        if_pos ⟨Nat.zero_le _, hsec⟩]
    have hmark : ∀ (d : Char) (t : Text), strptimeChar d (d :: t) = some t := fun d t => if_pos rfl
    simp only [Option.bind_some, hmark, hmon, hmday, hhours, hmins, hsecs, hmv, hdv, hhv, hiv]
    rw [Int.toNat_of_nonneg hyear.1]
  · rw [if_neg hyear, Option.bind_eq_none_iff] at hdec ⊢
    intro y hnumber
    rw [Option.map_eq_none_iff.mp (hdec y hnumber), Option.bind_none]

/-! ### Printed times are different -/

theorem decimal_injective : Function.Injective decimal := by
  intro v w heq
  have hsign : ∀ {v w : ℤ}, decimal v = decimal w → v < 0 → w < 0 := by
    intro v w heq hv
    by_contra hw
    rw [decimal, decimal, if_pos hv, if_neg hw] at heq
    have hmem : '-' ∈ Nat.toDigits 10 w.natAbs := heq ▸ List.mem_cons_self
    exact absurd (Nat.isDigit_of_mem_toDigits (by decide) (by decide) hmem) (by decide)
  have habs : Nat.toDigits 10 v.natAbs = Nat.toDigits 10 w.natAbs := by
    by_cases hv : v < 0
    · have hw := hsign heq hv
      rw [decimal, decimal, if_pos hv, if_pos hw] at heq
      exact List.tail_eq_of_cons_eq heq
    · have hw : ¬ w < 0 := fun hw => hv (hsign heq.symm hw)
      rwa [decimal, decimal, if_neg hv, if_neg hw] at heq
  have hnat : v.natAbs = w.natAbs := by
    rw [← leadingDigits_toDigits v.natAbs, habs, leadingDigits_toDigits]
  have hiff : v < 0 ↔ w < 0 := ⟨hsign heq, hsign heq.symm⟩
  omega

theorem twoDigits_inj {m n : ℕ} (hm : m < 100) (hn : n < 100) (h : twoDigits m = twoDigits n) :
    m = n := by
  rw [twoDigits_eq hm, twoDigits_eq hn] at h
  obtain ⟨htens, hones⟩ : (m / 10).digitChar = (n / 10).digitChar ∧
      (m % 10).digitChar = (n % 10).digitChar := by simpa using h
  have htens' := congrArg digitValue htens
  have hones' := congrArg digitValue hones
  rw [digitValue_digitChar (by omega), digitValue_digitChar (by omega)] at htens' hones'
  omega

theorem length_twoDigits {n : ℕ} (h : n < 100) : (twoDigits n).length = 2 := by
  rw [twoDigits_eq h]
  rfl

/-- Two UTC times with one text are the same. -/
theorem Tm.schedTime_inj {tm tm' : Tm} (htm : TmOk tm) (hsec : tm.sec ≤ 61) (htm' : TmOk tm')
    (hsec' : tm'.sec ≤ 61) (h : tm.schedTime = tm'.schedTime) : tm = tm' := by
  obtain ⟨-, hmon, -, hmday, hhour, hmin⟩ := htm
  obtain ⟨-, hmon', -, hmday', hhour', hmin'⟩ := htm'
  simp only [Tm.schedTime, List.append_assoc] at h
  have hlengths : ∀ {n : ℕ}, n < 100 → (twoDigits n).length = 2 := length_twoDigits
  obtain ⟨hyear, h⟩ := List.append_inj' h (by
    simp only [List.length_append]
    rw [hlengths (by omega : tm.mon < 100), hlengths (by omega : tm.mday < 100),
      hlengths (by omega : tm.hour < 100), hlengths (by omega : tm.min < 100),
      hlengths (by omega : tm.sec < 100), hlengths (by omega : tm'.mon < 100),
      hlengths (by omega : tm'.mday < 100), hlengths (by omega : tm'.hour < 100),
      hlengths (by omega : tm'.min < 100), hlengths (by omega : tm'.sec < 100)])
  have hfield {m n : ℕ} {s t : Text} (hm : m < 100) (hn : n < 100)
      (heq : twoDigits m ++ s = twoDigits n ++ t) : m = n ∧ s = t := by
    obtain ⟨hdigits, hrest⟩ := List.append_inj heq (by rw [hlengths hm, hlengths hn])
    exact ⟨twoDigits_inj hm hn hdigits, hrest⟩
  obtain ⟨hmonEq, h⟩ := hfield (by omega) (by omega) h
  obtain ⟨hmdayEq, h⟩ := hfield (by omega) (by omega) h
  obtain ⟨hhourEq, h⟩ := hfield (by omega) (by omega) (List.append_cancel_left h)
  obtain ⟨hminEq, h⟩ := hfield (by omega) (by omega) h
  obtain ⟨hsecEq, -⟩ := hfield (by omega) (by omega) h
  have hyearEq := decimal_injective hyear
  cases tm
  cases tm'
  simp_all

/-- What `gmtime_r` and `localtime_r` give is in the ranges of the fields. -/
theorem tmOk_gmtime {time : ℤ} {tm : Tm} (h : gmtime time = some tm) : TmOk tm ∧ tm.sec ≤ 59 := by
  obtain ⟨-, htm⟩ := Option.ite_none_right_eq_some.mp h
  obtain rfl := Option.some.inj htm
  refine ⟨⟨Date.month_pos _, Date.month_le _, Date.day_pos _, ?_, ?_, ?_⟩, ?_⟩
  · exact (Date.day_le _).trans (daysInMonth_le_31 _ _)
  · dsimp only
    omega
  · dsimp only
    omega
  · dsimp only
    omega

/-! ### A zone -/

/-- The rules of a time zone. -/
structure Zone where
  /-- The seconds that the clocks are ahead of UTC at an instant. -/
  offset : ℤ → ℤ
  /-- The seconds that standard time is ahead of UTC where the clocks show a reading. -/
  standard : ℤ → ℤ
  /-- The periods of daylight-saving time, each from its first instant to the one behind it. -/
  savings : List (ℤ × ℤ)
  /-- Outside of the periods the clocks show standard time. -/
  offset_eq : ∀ t, (∀ p ∈ savings, ¬(p.1 ≤ t ∧ t < p.2)) → offset t = standard (t + offset t)
  offset_lt : ∀ t, |offset t| < 2 ^ 31
  standard_lt : ∀ r, |standard r| < 2 ^ 31

namespace Zone

variable (zone : Zone)

/-- `localtime_r`. -/
def localtime (t : ℤ) : Option Tm := gmtime (t + zone.offset t)

/-- The local time stamp of an instant. -/
def display (t : ℤ) : Option Text := (zone.localtime t).map Tm.timeStamp

/-- `timelocal` of a time whose `tm_isdst` is 0. -/
def timelocal (tm : Tm) : ℤ := tm.utc - zone.standard tm.utc

/-- The clock of a machine in this zone, at an instant. -/
def clock (now : ℤ) : LocalClock where
  timelocal := zone.timelocal
  getTime := now

/-- The instant that `timelocal` makes of what the clocks show at an instant. -/
def standardInstant (t : ℤ) : ℤ := t + zone.offset t - zone.standard (t + zone.offset t)

/-- The instant that is scheduled. -/
def scheduled (now : ℤ) (isOnce : Bool) (t : ℤ) : ℤ :=
  if isOnce = true ∧ zone.standardInstant t < now + 100 then now + 100 else zone.standardInstant t

/-- What the user is promised: the UTC time of the schedule is displayed as the local time that was
given, or a time for once that is less than 100 seconds ahead is put off till then. -/
def Kept (env : Env) (now : ℤ) (isOnce : Bool) (text : Text) (t : ℤ) : Prop :=
  ∃ sched time utc, (env.withClock (zone.clock now)).local2SchedTime text isOnce = some sched ∧
    gmtime time = some utc ∧ sched.text = utc.schedTime ∧
    (zone.display utc.utc = some text ∨ isOnce = true ∧ t < now + 100 ∧ utc.utc = now + 100)

variable {zone}

/-- A time stamp whose year has more than four digits, or a sign, is not read. -/
theorem local2SchedTime_none {env : Env} {now t : ℤ} {isOnce : Bool} {tm : Tm}
    (htm : zone.localtime t = some tm) (hyear : ¬(0 ≤ tm.year ∧ tm.year ≤ 9999)) :
    (env.withClock (zone.clock now)).local2SchedTime tm.timeStamp isOnce = none := by
  obtain ⟨hok, hsec⟩ := tmOk_gmtime htm
  have hread := strptime_timeStamp hok (by omega)
  rw [if_neg hyear] at hread
  have hne : tm.timeStamp.isEmpty = false := by simp [Tm.timeStamp]
  unfold Env.local2SchedTime
  rw [hne, if_neg Bool.false_ne_true]
  change ((zone.clock now).localToSched tm.timeStamp isOnce).bind _ = none
  rw [LocalClock.localToSched, LocalClock.asc2time, hread]
  rfl

/-- Any other time stamp gives the UTC time of the scheduled instant. -/
theorem local2SchedTime_some {env : Env} {now t : ℤ} {isOnce : Bool} {tm : Tm}
    (hnow : 0 ≤ now ∧ now < 2 ^ 54) (htm : zone.localtime t = some tm)
    (hyear : 0 ≤ tm.year ∧ tm.year ≤ 9999) :
    ∃ sched utc, (env.withClock (zone.clock now)).local2SchedTime tm.timeStamp isOnce = some sched ∧
      gmtime (zone.scheduled now isOnce t) = some utc ∧ sched.text = utc.schedTime := by
  obtain ⟨hok, hsec⟩ := tmOk_gmtime htm
  have hread := strptime_timeStamp hok (by omega)
  rw [if_pos hyear] at hread
  have hreading : tm.utc = t + zone.offset t := second_gmtime htm
  have hinstant : zone.timelocal tm = zone.standardInstant t := by
    unfold Zone.timelocal standardInstant
    rw [hreading]
  have hbound : |zone.scheduled now isOnce t| < 2 ^ 55 := by
    have hutc := Tm.abs_utc_lt hok ⟨hyear, by omega⟩
    have hstandard := zone.standard_lt (t + zone.offset t)
    rw [hreading] at hutc
    unfold scheduled standardInstant
    rw [abs_lt] at hutc hstandard ⊢
    split <;> omega
  obtain ⟨utc, hutc⟩ := gmtime_isSome hbound
  have hsched : (zone.clock now).localToSched tm.timeStamp isOnce = some utc := by
    rw [LocalClock.localToSched, LocalClock.asc2time, hread, Option.map_some, Option.bind_some]
    change gmtime (if isOnce = true ∧ zone.timelocal tm < now + 100 then now + 100
      else zone.timelocal tm) = _
    rw [hinstant]
    exact hutc
  obtain ⟨sched, htext⟩ := Tm.ofText_schedTime hutc
  refine ⟨sched, utc, ?_, hutc, CStr.ofText_eq_some.mp htext⟩
  have hne : tm.timeStamp.isEmpty = false := by simp [Tm.timeStamp]
  unfold Env.local2SchedTime
  rw [hne, if_neg Bool.false_ne_true]
  change ((zone.clock now).localToSched tm.timeStamp isOnce).bind _ = _
  rw [hsched, Option.bind_some, htext]

/-- The promise, by the instant that is scheduled. -/
theorem Kept.iff {env : Env} {now t : ℤ} {isOnce : Bool} {tm : Tm}
    (hnow : 0 ≤ now ∧ now < 2 ^ 54) (htm : zone.localtime t = some tm) :
    zone.Kept env now isOnce tm.timeStamp t ↔ (0 ≤ tm.year ∧ tm.year ≤ 9999) ∧
      (zone.display (zone.scheduled now isOnce t) = some tm.timeStamp ∨
        isOnce = true ∧ t < now + 100 ∧ zone.scheduled now isOnce t = now + 100) := by
  constructor
  · rintro ⟨sched, time, utc, hcall, hutc, htext, hshown⟩
    by_cases hyear : 0 ≤ tm.year ∧ tm.year ≤ 9999
    · obtain ⟨sched', utc', hcall', hutc', htext'⟩ := @local2SchedTime_some zone env now t
        isOnce tm hnow htm hyear
      obtain rfl := Option.some.inj (hcall.symm.trans hcall')
      obtain ⟨hok, hsec⟩ := tmOk_gmtime hutc
      obtain ⟨hok', hsec'⟩ := tmOk_gmtime hutc'
      obtain rfl := Tm.schedTime_inj hok (by omega) hok' (by omega) (htext.symm.trans htext')
      rw [second_gmtime hutc'] at hshown
      exact ⟨hyear, hshown⟩
    · rw [local2SchedTime_none htm hyear] at hcall
      cases hcall
  · rintro ⟨hyear, hshown⟩
    obtain ⟨sched, utc, hcall, hutc, htext⟩ := @local2SchedTime_some zone env now t
      isOnce tm hnow htm hyear
    rw [← second_gmtime hutc] at hshown
    exact ⟨sched, _, utc, hcall, hutc, htext, hshown⟩

/-- Outside of the periods of daylight-saving time the promise is kept. -/
theorem kept_of_standard {env : Env} {now t : ℤ} {isOnce : Bool} {tm : Tm}
    (hnow : 0 ≤ now ∧ now < 2 ^ 54) (htm : zone.localtime t = some tm)
    (hyear : 0 ≤ tm.year ∧ tm.year ≤ 9999)
    (houtside : ∀ p ∈ zone.savings, ¬(p.1 ≤ t ∧ t < p.2)) :
    zone.Kept env now isOnce tm.timeStamp t := by
  have hsame : zone.standardInstant t = t := by
    have hoffset := zone.offset_eq t houtside
    unfold standardInstant
    omega
  rw [Kept.iff hnow htm]
  refine ⟨hyear, ?_⟩
  unfold scheduled
  rw [hsame]
  split
  · rename_i hsoon
    exact Or.inr ⟨hsoon.1, hsoon.2, rfl⟩
  · left
    rw [display, htm, Option.map_some]

/-- Instants with one time stamp are at the same reading of the clocks. -/
theorem reading_eq {t t' : ℤ} {tm : Tm} (htm : zone.localtime t = some tm)
    (hyear : 0 ≤ tm.year ∧ tm.year ≤ 9999) (h : zone.display t' = some tm.timeStamp) :
    t' + zone.offset t' = t + zone.offset t := by
  obtain ⟨tm', htm', htext⟩ := Option.map_eq_some_iff.mp h
  obtain ⟨hok, hsec⟩ := tmOk_gmtime htm
  obtain ⟨hok', hsec'⟩ := tmOk_gmtime htm'
  have hread := strptime_timeStamp hok (by omega)
  have hread' := strptime_timeStamp hok' (by omega)
  rw [if_pos hyear] at hread
  rw [htext, hread] at hread'
  obtain ⟨-, heq⟩ := Option.ite_none_right_eq_some.mp hread'.symm
  obtain rfl : tm' = tm := (Prod.mk.inj (Option.some.inj heq)).1
  rw [← second_gmtime htm, second_gmtime htm']

end Zone

/-- The time that the user asked for is kept exactly when its year has four digits at most and
daylight-saving time does not move the clocks then, or when it is for once and neither reading of it
is more than 100 seconds ahead. -/
theorem local2SchedTime_kept_iff (zone : Zone) (env : Env) {now : ℤ} (hnow : 0 ≤ now ∧ now < 2 ^ 54)
    (isOnce : Bool) {t : ℤ} {tm : Tm} (htm : zone.localtime t = some tm)
    (hunique : ∀ t', zone.display t' = some tm.timeStamp → t' = t) :
    zone.Kept env now isOnce tm.timeStamp t ↔
      (0 ≤ tm.year ∧ tm.year ≤ 9999) ∧
        (zone.offset t = zone.standard (t + zone.offset t) ∨
          isOnce = true ∧ t ≤ now + 100 ∧ zone.standardInstant t ≤ now + 100) := by
  rw [Zone.Kept.iff hnow htm]
  have hshown (t' : ℤ) : zone.display t' = some tm.timeStamp ↔ t' = t := by
    refine ⟨hunique t', ?_⟩
    rintro rfl
    rw [Zone.display, htm, Option.map_some]
  have hsame : zone.standardInstant t = t ↔ zone.offset t = zone.standard (t + zone.offset t) := by
    unfold Zone.standardInstant
    omega
  rw [hshown, ← hsame]
  refine and_congr_right fun _ => ?_
  unfold Zone.scheduled
  cases isOnce with
  | false => simp
  | true =>
    simp only [true_and]
    split <;> omega

/-- Central European time with the summer time of 2024. -/
def centralEurope : Zone where
  offset t := if 1711846800 ≤ t ∧ t < 1729990800 then 7200 else 3600
  standard _ := 3600
  savings := [(1711846800, 1729990800)]
  offset_eq t h := if_neg (h _ (List.mem_singleton_self _))
  offset_lt t := by split <;> decide
  standard_lt _ := by decide

/-- The readings of the clocks, except for an hour in spring and one in autumn. -/
theorem centralEurope_unique {t t' : ℤ} (ht : t < 1711846800 - 3600 ∨ 1711846800 ≤ t ∧ t < 1729990800 - 3600)
    (h : t' + centralEurope.offset t' = t + centralEurope.offset t) : t' = t := by
  simp only [centralEurope] at h
  split at h <;> split at h <;> omega

/-- A time in winter is kept. -/
theorem local2SchedTime_kept_iff_winter :
    centralEurope.localtime 1705303800 = some ⟨2024, 1, 15, 8, 30, 0⟩ ∧
      (centralEurope.Kept (.smooth fun _ => none) 1700000000 false
          (Tm.timeStamp ⟨2024, 1, 15, 8, 30, 0⟩) 1705303800 ↔
        (0 ≤ (2024 : ℤ) ∧ (2024 : ℤ) ≤ 9999) ∧
          (centralEurope.offset 1705303800 = centralEurope.standard (1705303800 + centralEurope.offset 1705303800) ∨
            false = true ∧ (1705303800 : ℤ) ≤ 1700000000 + 100 ∧
              centralEurope.standardInstant 1705303800 ≤ 1700000000 + 100)) := by
  have htm : centralEurope.localtime 1705303800 = some ⟨2024, 1, 15, 8, 30, 0⟩ := by decide +kernel
  exact ⟨htm, local2SchedTime_kept_iff centralEurope _ (by decide) false htm fun t' h =>
    centralEurope_unique (by decide) (Zone.reading_eq htm (by decide) h)⟩

/-- A time in summer is scheduled an hour late. -/
theorem not_kept_summer :
    ¬ ∀ (zone : Zone) (env : Env) (now : ℤ) (isOnce : Bool) (t : ℤ) (tm : Tm),
      0 ≤ now ∧ now < 2 ^ 54 → zone.localtime t = some tm →
      (∀ t', zone.display t' = some tm.timeStamp → t' = t) →
      zone.Kept env now isOnce tm.timeStamp t := by
  intro hclaim
  have htm : centralEurope.localtime 1719815400 = some ⟨2024, 7, 1, 8, 30, 0⟩ := by decide +kernel
  have hunique : ∀ t', centralEurope.display t' = some (Tm.timeStamp ⟨2024, 7, 1, 8, 30, 0⟩) →
      t' = 1719815400 := fun t' h =>
    centralEurope_unique (by decide) (Zone.reading_eq htm (by decide) h)
  have hkept := hclaim centralEurope (.smooth fun _ => none) 1700000000 false _ _ (by decide) htm
    hunique
  obtain ⟨-, hshown | ⟨honce, -⟩⟩ := (Zone.Kept.iff (by decide) htm).mp hkept
  · exact absurd (hunique _ hshown) (by decide)
  · cases honce

end OpenvasTool
