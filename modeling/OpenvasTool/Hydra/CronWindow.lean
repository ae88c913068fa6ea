import OpenvasTool.Hydra.MonthDays
import OpenvasTool.Hydra.TaskFile

/-!
# The time window of a cron entry

A crontab line has neither a year nor a start. The minutes at which the lines of
a stored schedule fire are compared with the first time of the schedule.
-/

namespace OpenvasTool

open Posix Posix.Cron Calendar

/-! ### The schedule -/

/-- The first time of a schedule. A day beyond the end of its month counts on into the next one, and
so does a second beyond the end of its minute. -/
def firstTime (tm : Tm) : ℤ := second (dayNumber tm.year tm.mon tm.mday) tm.hour tm.min tm.sec

/-- The minute of the time of day on another date. -/
def dueAt (tm : Tm) (d : Date) : ℤ := second d.number tm.hour tm.min 0

/-- The first day on which the minute of the time of day starts at this second or later. -/
def dayFrom (tm : Tm) (s : ℤ) : ℤ := (s - second 0 tm.hour tm.min 0 + 86399) / 86400

theorem dayFrom_le_number {tm : Tm} {s : ℤ} {d : Date} : dayFrom tm s ≤ d.number ↔ s ≤ dueAt tm d := by
  unfold dayFrom dueAt second
  omega

/-- The days of the week on which the line of a weekly schedule fires. A line with the name of
Tuesday never does. -/
def CronWeekDay (list : Text) (w : ℕ) : Prop :=
  "TU".toList ∉ list.splitOn ',' ∧ weekDayCode w ∈ list.splitOn ','

/-- The days of a month on which the lines of a monthly schedule fire. The line for the last day
does from the 28th on. -/
def CronMonthDay (list : Text) (n : ℕ) : Prop :=
  decimal n ∈ (list.splitOn ',').takeWhile (· ≠ "-1".toList) ∨
    "-1".toList ∈ list.splitOn ',' ∧ 28 ≤ n

/-- The days on which the lines of the schedule fire. -/
def CronDay (type : ℤ) (tm : Tm) (list : Text) (d : Date) : Prop :=
  if type = icalDateOnce then d.month = tm.mon ∧ d.day = tm.mday
  else if type = icalDateDaily then True
  else if type = icalDateWeekly then CronWeekDay list d.weekday
  else CronMonthDay list d.day

/-- From its creation on the entry fires at no minute before the first time of the schedule, and at
no other one if the schedule is for once. -/
def RespectsWindow (env : HydraEnv) (task : ListHydraTask) (created : ℤ) : Prop :=
  ∀ tm content, strptime task.firstScheduleTime.text = some (tm, []) →
    formatCronTask maxCacheSize task.scheduleType task.firstScheduleTime.text task.scheduleList.text
      cronUserName (startHydraCmd env.progPath task) = some content →
    ∀ t : Minute, Fires (content.splitOn '\n') t → created ≤ t.start →
      firstTime tm ≤ t.start ∧ (task.scheduleType = icalDateOnce → t.start = firstTime tm)

/-- The first time of a schedule for once is a date of no year. Else the days are compared: from the
creation on the first run of a daily schedule, the first one on each weekday of a weekly schedule
and the first one on each day of a monthly schedule do not come before the first time. -/
def WindowKept (task : ListHydraTask) (created : ℤ) : Prop :=
  ∀ tm, strptime task.firstScheduleTime.text = some (tm, []) →
    if task.scheduleType = icalDateOnce then ∀ year, daysInMonth year tm.mon < tm.mday
    else if task.scheduleType = icalDateDaily then dayFrom tm (firstTime tm) ≤ dayFrom tm created
    else if task.scheduleType = icalDateWeekly then
      ∀ w, w < 7 → CronWeekDay task.scheduleList.text w →
        dayFrom tm (firstTime tm) ≤ nextWeekday (dayFrom tm created) w
    else
      ∀ n, 1 ≤ n ∧ n ≤ 31 → CronMonthDay task.scheduleList.text n →
        dayFrom tm (firstTime tm) ≤ nextMonthDay (dayFrom tm created) n

/-! ### The minutes at which the lines fire -/

/-- The lines of a file fire when one of the printed entries does. -/
theorem fires_bodies {bodies : List Text} (h : ∀ body ∈ bodies, '\n' ∉ body) (t : Minute) :
    Fires ((bodies.map fun body => body ++ ['\n']).flatten.splitOn '\n') t ↔
      ∃ body ∈ bodies, ∃ e, Entry.read body = some e ∧ e.Fires t := by
  rw [Fires, Support.splitOn_lines h]
  simp [read_nil]

/-- An entry for one time of day fires on its days at this time. -/
theorem fires_entry {tm : Tm} {mday month wday : Field} (t : Minute) :
    (Entry.mk (.values [tm.min]) (.values [tm.hour]) mday month wday).Fires t ↔
      (t.hour = tm.hour ∧ t.minute = tm.min) ∧ month.Matches t.date.month ∧
        (Entry.mk (.values [tm.min]) (.values [tm.hour]) mday month wday).DayMatches t.date := by
  simp only [Entry.Fires, Field.values_matches, List.mem_singleton]
  tauto

section Lines

variable {tm : Tm} {list cmd : Text} {lines : List Text}

theorem quietly_newline (hcmd : '\n' ∉ cmd) : '\n' ∉ quietly cmd := by
  simp [quietly, hcmd]

/-- A file of one line. -/
theorem fires_single {fields : List Text} (hfields : ∀ f ∈ fields, '\n' ∉ f) (hcmd : '\n' ∉ cmd)
    (t : Minute) :
    Fires ([cronLine fields cronUserName (quietly cmd)].flatten.splitOn '\n') t ↔
      ∃ e, Entry.read (cronBody fields cronUserName (quietly cmd)) = some e ∧ e.Fires t := by
  have hfree : ∀ b ∈ [cronBody fields cronUserName (quietly cmd)], '\n' ∉ b := by
    intro b hb
    obtain rfl := List.mem_singleton.mp hb
    exact newline_not_mem_cronBody hfields (by decide) (quietly_newline hcmd)
  have hbodies := fires_bodies hfree t
  simp only [List.mem_singleton, exists_eq_left] at hbodies
  exact hbodies

theorem newline_not_mem_fields {fields : List Text} (h : ∀ f ∈ fields, '\n' ∉ f) (tm : Tm) :
    ∀ f ∈ [decimal tm.min, decimal tm.hour] ++ fields, '\n' ∉ f := by
  intro f hf
  rcases List.mem_append.mp hf with hf | hf
  · have hcases : f = decimal tm.min ∨ f = decimal tm.hour := by simpa using hf
    rcases hcases with rfl | rfl
    · exact newline_not_mem_decimal _
    · exact newline_not_mem_decimal _
  · exact h f hf

/-- The line of a schedule for once. -/
theorem fires_once (htm : TmOk tm) (hcmd : '\n' ∉ cmd)
    (hlines : cronLines icalDateOnce tm list cronUserName cmd = some lines) (t : Minute) :
    Fires (lines.flatten.splitOn '\n') t ↔
      (t.hour = tm.hour ∧ t.minute = tm.min) ∧ CronDay icalDateOnce tm list t.date := by
  unfold cronLines at hlines
  rw [if_pos rfl] at hlines
  obtain rfl := Option.some.inj hlines
  have hfree : ∀ f ∈ [decimal tm.mday, decimal tm.mon, "*".toList], '\n' ∉ f := by
    simp [newline_not_mem_decimal]
  have hwords : LineWords (decimal tm.min) (decimal tm.hour) (decimal tm.mday) (decimal tm.mon)
      "*".toList :=
    ⟨isWord_decimal _, isWord_decimal _, isWord_decimal _, isWord_decimal _, isWord_star⟩
  have hread : Entry.read (cronBody ([decimal tm.min, decimal tm.hour] ++
      [decimal tm.mday, decimal tm.mon, "*".toList]) cronUserName (quietly cmd)) =
      some ⟨.values [tm.min], .values [tm.hour], .values [tm.mday], .values [tm.mon], .star⟩ := by
    refine (hwords.read _).trans ?_
    rw [htm.readFields.1, htm.readFields.2,
      readField_number [] htm.mday_pos htm.mday_le, readField_number _ htm.mon_pos htm.mon_le]
    rfl
  rw [fires_single (newline_not_mem_fields hfree tm) hcmd, hread]
  simp only [Option.some.injEq, exists_eq_left', fires_entry, CronDay, if_true]
  rw [Entry.dayMatches_of_star (Or.inr rfl)]
  simp

/-- The line of a daily schedule. -/
theorem fires_daily (htm : TmOk tm) (hcmd : '\n' ∉ cmd)
    (hlines : cronLines icalDateDaily tm list cronUserName cmd = some lines) (t : Minute) :
    Fires (lines.flatten.splitOn '\n') t ↔
      (t.hour = tm.hour ∧ t.minute = tm.min) ∧ CronDay icalDateDaily tm list t.date := by
  unfold cronLines at hlines
  rw [if_neg (by decide), if_pos rfl] at hlines
  obtain rfl := Option.some.inj hlines
  have hwords : LineWords (decimal tm.min) (decimal tm.hour) "*".toList "*".toList "*".toList :=
    ⟨isWord_decimal _, isWord_decimal _, isWord_star, isWord_star, isWord_star⟩
  have hread : Entry.read (cronBody ([decimal tm.min, decimal tm.hour] ++
      ["*".toList, "*".toList, "*".toList]) cronUserName (quietly cmd)) =
      some ⟨.values [tm.min], .values [tm.hour], .star, .star, .star⟩ := by
    refine (hwords.read _).trans ?_
    rw [htm.readFields.1, htm.readFields.2]
    rfl
  rw [fires_single (newline_not_mem_fields (by decide) tm) hcmd, hread]
  simp only [Option.some.injEq, exists_eq_left', fires_entry]
  rw [Entry.dayMatches_of_star (Or.inr rfl), CronDay, if_neg (by decide), if_pos rfl]
  simp

/-- What crontab makes of the names of `WEEK_DAYS`. The name of Tuesday is not one of its own. -/
theorem readItem_weekDayName : ∀ n < 7, readItem 0 7 wdayNames (weekDayName n) =
    if n = 2 then none else some [n] := by
  intro n hn
  interval_cases n <;> decide

theorem weekDayName_chars : ∀ n < 7, weekDayName n ≠ [] ∧
    (weekDayName n).all (fun c => !isBlank c && c != '\n' && c != ',') = true := by
  intro n hn
  interval_cases n <;> decide

theorem not_mem_weekDayNames {ns : List ℕ} (hns : ∀ n ∈ ns, n < 7) {c : Char}
    (h : c ∈ [','].intercalate (ns.map weekDayName)) : isBlank c = false ∧ c ≠ '\n' := by
  rcases mem_intercalate_comma h with rfl | ⟨name, hname, hc⟩
  · decide
  · obtain ⟨n, hn, rfl⟩ := List.mem_map.mp hname
    have hall := List.all_eq_true.mp (weekDayName_chars n (hns n hn)).2 c hc
    simp only [Bool.and_eq_true, Bool.not_eq_true', bne_iff_ne] at hall
    exact hall.1

theorem isWord_weekDayNames {ns : List ℕ} (hne : ns ≠ []) (hns : ∀ n ∈ ns, n < 7) :
    IsWord ([','].intercalate (ns.map weekDayName)) := by
  refine ⟨?_, fun c hc => (not_mem_weekDayNames hns hc).1⟩
  obtain ⟨n, ns, rfl⟩ := List.exists_cons_of_ne_nil hne
  rw [List.map_cons, intercalate_comma]
  exact List.append_ne_nil_of_left_ne_nil (weekDayName_chars n (hns n (by simp))).1 _

/-- The field of a list of names. -/
theorem readField_weekDayNames {ns : List ℕ} (hne : ns ≠ []) (hns : ∀ n ∈ ns, n < 7) :
    readField 0 7 wdayNames ([','].intercalate (ns.map weekDayName)) =
      if 2 ∈ ns then none else some (.values ns) := by
  have hitems : (ns.map weekDayName).mapM (readItem 0 7 wdayNames) =
      if 2 ∈ ns then none else some (ns.map fun n => [n]) := by
    clear hne
    induction ns with
    | nil => rfl
    | cons n ns ih =>
      rw [List.map_cons, List.mapM_cons, readItem_weekDayName n (hns n (by simp)),
        ih fun m hm => hns m (by simp [hm])]
      by_cases htwo : n = 2
      · simp [htwo]
      · by_cases hmem : 2 ∈ ns
        · simp [hmem, htwo]
        · simp [hmem, htwo, Ne.symm htwo]
  rw [readField_intercalate 0 7 wdayNames (by simpa using hne), hitems]
  · split
    · rfl
    · rw [Option.map_some, ← List.flatMap_def, List.flatMap_singleton']
  · intro name hname
    obtain ⟨n, hn, rfl⟩ := List.mem_map.mp hname
    exact (weekDayName_facts n (hns n hn)).1
  · intro hstar
    obtain ⟨n, hn, heq⟩ := List.mem_map.mp (hstar ▸ List.mem_singleton_self ['*'])
    have hlen := (weekDayCode_find n (hns n hn)).choose_spec.choose_spec.2.2
    rw [heq] at hlen
    simp at hlen

theorem weekDayCode_injective : ∀ m < 7, ∀ n < 7, weekDayCode m = weekDayCode n → m = n := by
  decide

/-- The line of a weekly schedule. -/
theorem fires_weekly (htm : TmOk tm) (hcmd : '\n' ∉ cmd) {time : Text}
    (hchk : chkScheduleParam icalDateWeekly time list = true)
    (hlines : cronLines icalDateWeekly tm list cronUserName cmd = some lines) (t : Minute) :
    Fires (lines.flatten.splitOn '\n') t ↔
      (t.hour = tm.hour ∧ t.minute = tm.min) ∧ CronDay icalDateWeekly tm list t.date := by
  obtain ⟨ns, hne, hns, hsplit, hlist⟩ := weekly_codes hchk
  have hconv := convWeekDay_codes maxCommSize hne hns
  rw [← hlist] at hconv
  unfold cronLines at hlines
  rw [if_neg (by decide), if_neg (by decide), if_pos rfl, hconv] at hlines
  obtain ⟨names, hnames, rfl⟩ := Option.map_eq_some_iff.mp hlines
  obtain ⟨-, hnames⟩ := Option.ite_none_right_eq_some.mp hnames
  obtain rfl := Option.some.inj hnames
  have hword := isWord_weekDayNames hne hns
  have hfree : ∀ f ∈ ["*".toList, "*".toList, [','].intercalate (ns.map weekDayName)],
      '\n' ∉ f := by
    simp only [List.forall_mem_cons, List.not_mem_nil, false_implies, implies_true, and_true]
    exact ⟨by decide, by decide, fun hmem => (not_mem_weekDayNames hns hmem).2 rfl⟩
  have hwords : LineWords (decimal tm.min) (decimal tm.hour) "*".toList "*".toList
      ([','].intercalate (ns.map weekDayName)) :=
    ⟨isWord_decimal _, isWord_decimal _, isWord_star, isWord_star, hword⟩
  have hread : Entry.read (cronBody ([decimal tm.min, decimal tm.hour] ++
      ["*".toList, "*".toList, [','].intercalate (ns.map weekDayName)]) cronUserName
        (quietly cmd)) =
      if 2 ∈ ns then none
      else some ⟨.values [tm.min], .values [tm.hour], .star, .star,
        (Field.values ns).wrapSunday⟩ := by
    refine (hwords.read _).trans ?_
    rw [htm.readFields.1, htm.readFields.2, readField_weekDayNames hne hns]
    split <;> rfl
  have hwrap : (Field.values ns).wrapSunday = .values ns := by
    have hmod : ns.map (· % 7) = ns := by
      conv_rhs => rw [← List.map_id ns]
      exact List.map_congr_left fun n hn => Nat.mod_eq_of_lt (hns n hn)
    rw [Field.wrapSunday, hmod]
  have hcodes : ∀ m < 7, weekDayCode m ∈ ns.map weekDayCode ↔ m ∈ ns := by
    intro m hm
    constructor
    · intro hmem
      obtain ⟨n, hn, heq⟩ := List.mem_map.mp hmem
      rwa [← weekDayCode_injective n (hns n hn) m hm heq]
    · exact List.mem_map_of_mem
  have hday : CronDay icalDateWeekly tm list t.date ↔ 2 ∉ ns ∧ t.date.weekday ∈ ns := by
    rw [CronDay, if_neg (by decide), if_neg (by decide), if_pos rfl, CronWeekDay, hsplit,
      hcodes _ t.date.weekday_lt, show "TU".toList = weekDayCode 2 from rfl, hcodes 2 (by decide)]
  rw [fires_single (newline_not_mem_fields hfree tm) hcmd, hread, hwrap, hday]
  by_cases htwo : 2 ∈ ns
  · simp [htwo]
  · simp only [htwo, if_false, Option.some.injEq, exists_eq_left', fires_entry, not_false_eq_true,
      true_and]
    rw [Entry.dayMatches_of_star (Or.inl rfl)]
    simp

/-- The lines of a monthly schedule. -/
theorem fires_monthly (htm : TmOk tm) (hcmd : '\n' ∉ cmd) {time : Text}
    (hchk : chkScheduleParam icalDateMonthly time list = true)
    (hlines : cronLines icalDateMonthly tm list cronUserName cmd = some lines) (t : Minute) :
    Fires (lines.flatten.splitOn '\n') t ↔
      (t.hour = tm.hour ∧ t.minute = tm.min) ∧ CronDay icalDateMonthly tm list t.date := by
  obtain ⟨ns, rest, hlist⟩ := monthList_of_chk hchk
  rw [hlist.cronLines] at hlines
  obtain ⟨-, hlines⟩ := Option.ite_none_right_eq_some.mp hlines
  obtain rfl := Option.some.inj hlines
  have hentry : ∀ ns : List ℕ, (Entry.mk (.values [tm.min]) (.values [tm.hour]) (.values ns) .star
      .star).Fires t ↔ (t.hour = tm.hour ∧ t.minute = tm.min) ∧ t.date.day ∈ ns := by
    intro ns
    rw [fires_entry, Entry.dayMatches_of_star (Or.inr rfl)]
    simp
  have hday : CronDay icalDateMonthly tm list t.date ↔
      t.date.day ∈ ns ∨ (!rest.isEmpty) = true ∧ 28 ≤ t.date.day := by
    rw [CronDay, if_neg (by decide), if_neg (by decide), if_neg (by decide), CronMonthDay,
      hlist.cut.1,
      show decimal t.date.day = monthDayCode (some t.date.day) from rfl, monthDayCode_mem,
      hlist.tokens, show "-1".toList = monthDayCode none from rfl, monthDayCode_mem,
      hlist.not_isEmpty_iff]
    simp
  have hfront : (∃ body ∈ (if ns = [] then [] else [monthDaysBody tm
      ([','].intercalate (ns.map fun n : ℕ => decimal n)) (quietly cmd)]), ∃ e,
        Entry.read body = some e ∧ e.Fires t) ↔
      (t.hour = tm.hour ∧ t.minute = tm.min) ∧ t.date.day ∈ ns := by
    split
    · rename_i hne
      simp [hne]
    · rename_i hne
      simp only [List.mem_singleton, exists_eq_left, read_monthDaysBody htm _ (isWord_days hne)
        (readField_numbers [] hne hlist.days), Option.some.injEq, exists_eq_left', hentry]
  have hlast : (∃ body ∈ (if (!rest.isEmpty) = true then
      [monthDaysBody tm "28-31".toList (onLastDay cmd)] else []), ∃ e,
        Entry.read body = some e ∧ e.Fires t) ↔
      (t.hour = tm.hour ∧ t.minute = tm.min) ∧ (!rest.isEmpty) = true ∧ 28 ≤ t.date.day := by
    split
    · rename_i hrest
      have hword : IsWord "28-31".toList := ⟨by decide, List.all_iff_forall_prop.mp (by decide)⟩
      have hread : readField 1 31 [] "28-31".toList = some (.values [28, 29, 30, 31]) := by decide
      have hbound := daysInMonth_le_31 t.date.year t.date.month
      have hle := t.date.day_le
      have hrange : t.date.day ∈ [28, 29, 30, 31] ↔ 28 ≤ t.date.day := by
        simp only [List.mem_cons, List.not_mem_nil, or_false]
        omega
      simp only [List.mem_singleton, exists_eq_left, read_monthDaysBody htm _ hword hread,
        Option.some.injEq, exists_eq_left', hentry, hrange, hrest, true_and]
    · rename_i hrest
      simp [hrest]
  rw [fires_bodies (newline_not_mem_monthBodies hcmd), hday, monthBodies]
  simp only [List.mem_append, or_and_right, exists_or]
  rw [hfront, hlast, and_or_left]

/-- The minutes at which the lines of a schedule fire. -/
theorem fires_iff {type : ℤ} (htm : TmOk tm) (hcmd : '\n' ∉ cmd) {time : Text}
    (hchk : chkScheduleParam type time list = true)
    (hlines : cronLines type tm list cronUserName cmd = some lines) (t : Minute) :
    Fires (lines.flatten.splitOn '\n') t ↔
      (t.hour = tm.hour ∧ t.minute = tm.min) ∧ CronDay type tm list t.date := by
  by_cases honce : type = icalDateOnce
  · subst honce
    exact fires_once htm hcmd hlines t
  by_cases hdaily : type = icalDateDaily
  · subst hdaily
    exact fires_daily htm hcmd hlines t
  by_cases hweekly : type = icalDateWeekly
  · subst hweekly
    exact fires_weekly htm hcmd hchk hlines t
  by_cases hmonthly : type = icalDateMonthly
  · subst hmonthly
    exact fires_monthly htm hcmd hchk hlines t
  · simp [cronLines, honce, hdaily, hweekly, hmonthly] at hlines

end Lines

/-! ### The window -/

/-- A date that exists in some year exists in leap years without end. -/
theorem once_kept_iff {tm : Tm} (htm : TmOk tm) (created : ℤ) :
    (∀ d : Date, d.month = tm.mon ∧ d.day = tm.mday → created ≤ dueAt tm d →
      firstTime tm ≤ dueAt tm d ∧ dueAt tm d = firstTime tm) ↔
      ∀ year, daysInMonth year tm.mon < tm.mday := by
  constructor
  · intro hkept year
    by_contra hexists
    have hleap : tm.mday ≤ daysInMonth 2000 tm.mon :=
      (not_lt.mp hexists).trans (daysInMonth_le (by decide) year tm.mon)
    -- a period that is later than the creation and the first time
    obtain ⟨k, hk⟩ : ∃ k : ℤ, created < second (dayNumber 2000 tm.mon tm.mday + 146097 * k) 0 0 0 ∧
        firstTime tm < second (dayNumber 2000 tm.mon tm.mday + 146097 * k) 0 0 0 := by
      generalize dayNumber 2000 tm.mon tm.mday = day
      generalize firstTime tm = first
      refine ⟨max (max created first) 0 + max (-day) 0 + 1, ?_, ?_⟩
      · unfold second
        omega
      · unfold second
        omega
    have hmday : tm.mday ≤ daysInMonth (2000 + 400 * k) tm.mon := by
      rwa [daysInMonth_add_period]
    let d : Date := ⟨2000 + 400 * k, tm.mon, tm.mday, htm.mon_pos, htm.mon_le, htm.mday_pos, hmday⟩
    have hnumber : d.number = dayNumber 2000 tm.mon tm.mday + 146097 * k :=
      dayNumber_add_period k 2000 tm.mon tm.mday
    have hdue := hkept d ⟨rfl, rfl⟩
    simp only [dueAt, hnumber, second] at hdue hk
    omega
  · rintro hnever d ⟨hmon, hday⟩
    have hle := d.day_le
    rw [hmon, hday] at hle
    exact absurd (hnever d.year) (not_lt.mpr hle)

/-- The days on which the lines fire, compared by their numbers. -/
theorem days_kept_iff (tm : Tm) (created : ℤ) (P : Date → Prop) :
    (∀ d : Date, P d → created ≤ dueAt tm d → firstTime tm ≤ dueAt tm d) ↔
      ∀ d : Date, P d → dayFrom tm created ≤ d.number →
        dayFrom tm (firstTime tm) ≤ d.number := by
  simp only [dayFrom_le_number]

theorem daily_kept_iff (tm : Tm) (created : ℤ) :
    (∀ d : Date, created ≤ dueAt tm d → firstTime tm ≤ dueAt tm d) ↔
      dayFrom tm (firstTime tm) ≤ dayFrom tm created := by
  simp only [← dayFrom_le_number]
  constructor
  · intro hkept
    have hday := hkept (.ofNumber (dayFrom tm created))
    rw [Date.number_ofNumber] at hday
    exact hday le_rfl
  · exact fun hle d hd => hle.trans hd

theorem weekly_kept_iff (tm : Tm) (created : ℤ) (list : Text) :
    (∀ d : Date, CronWeekDay list d.weekday → created ≤ dueAt tm d → firstTime tm ≤ dueAt tm d) ↔
      ∀ w, w < 7 → CronWeekDay list w →
        dayFrom tm (firstTime tm) ≤ nextWeekday (dayFrom tm created) w := by
  rw [days_kept_iff]
  exact forall_le_number_iff Date.weekday_lt fun w hw => isLeast_nextWeekday _ hw

theorem monthly_kept_iff (tm : Tm) (created : ℤ) (list : Text) :
    (∀ d : Date, CronMonthDay list d.day → created ≤ dueAt tm d → firstTime tm ≤ dueAt tm d) ↔
      ∀ n, 1 ≤ n ∧ n ≤ 31 → CronMonthDay list n →
        dayFrom tm (firstTime tm) ≤ nextMonthDay (dayFrom tm created) n := by
  rw [days_kept_iff]
  exact forall_le_number_iff (fun d => ⟨d.day_pos, d.day_le.trans (daysInMonth_le_31 _ _)⟩)
    fun n hn => isLeast_nextMonthDay _ hn.1 hn.2

/-- The command of an entry is on one line. -/
theorem newline_not_mem_startHydraCmd {progPath : Text} {task : ListHydraTask}
    (hprog : '\n' ∉ progPath) (hid : chkUuid task.taskId.text = true)
    (hname : chkName task.taskName.text = true) : '\n' ∉ startHydraCmd progPath task := by
  have hnameFree : '\n' ∉ task.taskName.text := by
    intro hmem
    have hchar := forall_of_chkName (p := fun c => c ≠ '\n') hname
      (by rintro c hc rfl; exact absurd hc (by decide)) _ hmem
    exact hchar rfl
  have hidFree : '\n' ∉ task.taskId.text := by
    intro hmem
    have hchar := forall_of_chkUuid (p := fun c => c ≠ '\n') hid
      (by rintro c hc rfl; exact absurd hc (by decide)) (by decide) _ hmem
    exact hchar rfl
  unfold startHydraCmd
  simp only [List.mem_append, not_or]
  refine ⟨⟨⟨⟨⟨hprog, ?_⟩, hnameFree⟩, ?_⟩, hidFree⟩, ?_⟩
  · decide
  · decide
  · decide

/-- The lines of a stored schedule fire at its time of day on its days. -/
theorem respectsWindow_iff_days {env : HydraEnv} {w : HydraWorld} {input : Text}
    {task : ListHydraTask} (htask : getCreateHydraParam env input = some task)
    (hcode : (daemonCreateHydra env w input).code = .success)
    (htype : task.scheduleType ≠ icalDateNone) (hprog : '\n' ∉ env.progPath) (created : ℤ) :
    ∃ tm, strptime task.firstScheduleTime.text = some (tm, []) ∧ TmOk tm ∧
      (RespectsWindow env task created ↔
        ∀ d : Date, CronDay task.scheduleType tm task.scheduleList.text d → created ≤ dueAt tm d →
          firstTime tm ≤ dueAt tm d ∧
            (task.scheduleType = icalDateOnce → dueAt tm d = firstTime tm)) := by
  obtain ⟨content, hformat, -⟩ := daemonCreateHydra_cron htask hcode htype
  obtain ⟨hid, hname, -, -, hchk⟩ := getCreateHydraParam_checks htask
  change formatCronTask maxCacheSize task.scheduleType task.firstScheduleTime.text
    task.scheduleList.text cronUserName (startHydraCmd env.progPath task) = some content at hformat
  have hcmd := newline_not_mem_startHydraCmd hprog hid hname
  have hparts := hformat
  unfold formatCronTask at hparts
  split at hparts
  swap
  · simp at hparts
  rename_i tm htime
  obtain ⟨lines, hlines, hprint⟩ := Option.bind_eq_some_iff.mp hparts
  obtain rfl := printLines_eq_some hprint
  have htm := strptime_tmOk htime
  have hfires := fires_iff htm hcmd hchk hlines
  have hhour := htm.hour_le
  have hmin := htm.min_le
  refine ⟨tm, htime, htm, ?_⟩
  constructor
  · intro hrespects d hday
    let t : Minute := ⟨d, tm.hour, tm.min, by omega, by omega⟩
    exact hrespects tm _ htime hformat t ((hfires t).mpr ⟨⟨rfl, rfl⟩, hday⟩)
  · intro hdays tm' content' htime' hformat' t ht
    obtain ⟨rfl, -⟩ := Prod.mk.inj (Option.some.inj (htime.symm.trans htime'))
    obtain rfl := Option.some.inj (hformat.symm.trans hformat')
    obtain ⟨⟨hour, hminute⟩, hday⟩ := (hfires t).mp ht
    have hstart : t.start = dueAt tm t.date := by rw [Minute.start, dueAt, hour, hminute]
    rw [hstart]
    exact hdays t.date hday

/-- **The time window of a cron entry.** For every stored schedule and every second of its creation
the lines respect the first time exactly when the first runs from the creation on do. -/
theorem respectsWindow_iff {env : HydraEnv} {w : HydraWorld} {input : Text} {task : ListHydraTask}
    (htask : getCreateHydraParam env input = some task)
    (hcode : (daemonCreateHydra env w input).code = .success)
    (htype : task.scheduleType ≠ icalDateNone) (hprog : '\n' ∉ env.progPath) (created : ℤ) :
    RespectsWindow env task created ↔ WindowKept task created := by
  obtain ⟨tm, htime, htm, hdays⟩ := respectsWindow_iff_days htask hcode htype hprog created
  have hone : ∀ {P : Tm → Prop},
      (∀ tm', strptime task.firstScheduleTime.text = some (tm', []) → P tm') ↔ P tm := by
    intro P
    constructor
    · exact fun h => h tm htime
    · intro h tm' htime'
      obtain ⟨rfl, -⟩ := Prod.mk.inj (Option.some.inj (htime.symm.trans htime'))
      exact h
  rw [hdays, WindowKept, hone]
  by_cases honce : task.scheduleType = icalDateOnce
  · rw [if_pos honce, ← once_kept_iff htm created]
    simp [CronDay, honce]
  simp only [honce, if_false, false_implies, and_true, CronDay]
  by_cases hdaily : task.scheduleType = icalDateDaily
  · rw [if_pos hdaily, ← daily_kept_iff tm created]
    simp [hdaily]
  simp only [hdaily, if_false]
  by_cases hweekly : task.scheduleType = icalDateWeekly
  · simp only [hweekly, if_true]
    exact weekly_kept_iff tm created _
  · simp only [hweekly, if_false]
    exact monthly_kept_iff tm created _

/-- With seconds the run on the day of the first time comes before it. -/
example : ¬ dayFrom ⟨2024, 5, 1, 8, 30, 45⟩ (firstTime ⟨2024, 5, 1, 8, 30, 45⟩) ≤
    dayFrom ⟨2024, 5, 1, 8, 30, 45⟩ (second (dayNumber 2024 5 1) 8 0 0) := by decide

/-- A request to create the task `audit` with a daily schedule. -/
def sampleDailyCreate : Text :=
  "audit\x010\x0110.0.0.1\x01ssh\x01\x01users\x01words\x012\x012024-05-01 08:30:00\x01\x01".toList

/-- The task of the request. -/
def sampleDailyTask : ListHydraTask :=
  (getCreateHydraParam (.smooth 0) sampleDailyCreate).getD {}

theorem getCreateHydraParam_sampleDailyCreate :
    getCreateHydraParam (.smooth 0) sampleDailyCreate = some sampleDailyTask :=
  have hsome : (getCreateHydraParam (.smooth 0) sampleDailyCreate).isSome = true := by
    decide +kernel
  (Option.some_get hsome).symm.trans (congrArg some (Option.get_eq_getD _))

theorem daemonCreateHydra_sampleDailyCreate :
    (daemonCreateHydra (.smooth 0) sampleHydraState.world sampleDailyCreate).code = .success := by
  decide +kernel

/-- A task that is created in the night before its first time. -/
theorem respectsWindow_iff_sampleDailyCreate :
    RespectsWindow (.smooth 0) sampleDailyTask (second (dayNumber 2024 5 1) 0 0 0) ↔
      WindowKept sampleDailyTask (second (dayNumber 2024 5 1) 0 0 0) :=
  respectsWindow_iff (w := sampleHydraState.world) getCreateHydraParam_sampleDailyCreate
    daemonCreateHydra_sampleDailyCreate (by decide +kernel) (by decide +kernel) _

/-- A daily task that is created a month before its first time runs on the day of its creation. -/
theorem not_respectsWindow_sampleDailyCreate :
    getCreateHydraParam (.smooth 0) sampleDailyCreate = some sampleDailyTask ∧
      (daemonCreateHydra (.smooth 0) sampleHydraState.world sampleDailyCreate).code = .success ∧
      ¬RespectsWindow (.smooth 0) sampleDailyTask (second (dayNumber 2024 4 1) 0 0 0) := by
  refine ⟨getCreateHydraParam_sampleDailyCreate, daemonCreateHydra_sampleDailyCreate, ?_⟩
  obtain ⟨tm, htime, -, hdays⟩ := respectsWindow_iff_days getCreateHydraParam_sampleDailyCreate
    daemonCreateHydra_sampleDailyCreate (by decide +kernel) (by decide +kernel)
      (second (dayNumber 2024 4 1) 0 0 0)
  have hread : strptime sampleDailyTask.firstScheduleTime.text =
      some (⟨2024, 5, 1, 8, 30, 0⟩, []) := by decide +kernel
  obtain ⟨rfl, -⟩ := Prod.mk.inj (Option.some.inj (hread.symm.trans htime))
  rw [hdays]
  intro hkept
  let d : Date := ⟨2024, 4, 1, by decide, by decide, by decide, by decide⟩
  have hday : CronDay sampleDailyTask.scheduleType ⟨2024, 5, 1, 8, 30, 0⟩
      sampleDailyTask.scheduleList.text d := by
    have htype : sampleDailyTask.scheduleType = icalDateDaily := by decide +kernel
    simp [CronDay, htype, icalDateDaily, icalDateOnce]
  have hdue := (hkept d hday (by decide)).1
  exact absurd hdue (by decide)

end OpenvasTool
