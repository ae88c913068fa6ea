import OpenvasTool.Hydra.CronLines
import OpenvasTool.Hydra.DayLists

/-!
# Days of the month

The days on which the crontab lines of a monthly schedule run the command, and
the days that its list names.
-/

namespace OpenvasTool

open Posix Posix.Regex Posix.Cron Calendar

/-! ### The list -/

/-- A day in a list. The last day of the month is `none`. -/
def monthDayCode : Option ℕ → Text
  | none => "-1".toList
  | some n => decimal n

/-- The days of a list are days of a month. -/
def IsMonthDay (x : Option ℕ) : Prop := ∀ n ∈ x, 1 ≤ n ∧ n ≤ 31

theorem exists_digitChar {c : Char} (h : c.isDigit = true) : ∃ k < 10, c = Nat.digitChar k := by
  have hbounds : 48 ≤ c.toNat ∧ c.toNat ≤ 57 := Char.isDigit_iff_toNat.mp h
  obtain ⟨n, hn⟩ : ∃ n, c.toNat = n := ⟨_, rfl⟩
  have hc : c = Char.ofNat n := by rw [← hn, Char.ofNat_toNat]
  rw [hn] at hbounds
  refine ⟨n - 48, by omega, ?_⟩
  obtain ⟨hlow, hhigh⟩ := hbounds
  rw [hc]
  interval_cases n <;> rfl

theorem monthDayCode_of_mem_lang {tok : Text} (h : tok ∈ customMonthDayPattern.lang) :
    ∃ x, IsMonthDay x ∧ tok = monthDayCode x := by
  have hday : ∀ n, 1 ≤ n → n ≤ 31 → ∃ x, IsMonthDay x ∧ decimal (n : ℕ) = monthDayCode x :=
    fun n hlow hhigh => ⟨some n, fun m hm => by
      obtain rfl := Option.some.inj hm
      exact ⟨hlow, hhigh⟩, rfl⟩
  simp only [customMonthDayPattern, alts, seqs, digit, range, mem_lang_alt, mem_lang_seq,
    mem_lang_lit, mem_lang_cls] at h
  rcases h with ⟨c, hc, rfl⟩ | ⟨_, ⟨a, ha, rfl⟩, _, ⟨b, hb, rfl⟩, rfl⟩ | rfl | rfl | rfl
  · obtain ⟨k, hk, rfl⟩ := exists_digitChar
      (over_range (by decide) (by decide) (fun _ h => h) c hc : c.isDigit = true)
    have hpos : k ≠ 0 := by
      rintro rfl
      exact absurd hc (by decide)
    obtain ⟨x, hx, hcode⟩ := hday k (by omega) (by omega)
    rw [decimal_natCast, Nat.toDigits_of_lt_base hk] at hcode
    exact ⟨x, hx, hcode⟩
  · obtain ⟨j, hj, rfl⟩ := exists_digitChar
      (over_range (by decide) (by decide) (fun _ h => h) a ha : a.isDigit = true)
    obtain ⟨k, hk, rfl⟩ := exists_digitChar hb
    have htens : ∀ j < 10, (decide ('1' ≤ Nat.digitChar j) && decide (Nat.digitChar j ≤ '2')) =
        true → 1 ≤ j ∧ j ≤ 2 := by decide
    obtain ⟨hlow, hhigh⟩ := htens j hj ha
    obtain ⟨x, hx, hcode⟩ := hday (10 * j + k) (by omega) (by omega)
    rw [decimal_natCast, ← Nat.toDigits_append_toDigits (by decide) hlow hk,
      Nat.toDigits_of_lt_base hj, Nat.toDigits_of_lt_base hk] at hcode
    exact ⟨x, hx, hcode⟩
  · exact hday 30 (by decide) (by decide)
  · exact hday 31 (by decide) (by decide)
  · exact ⟨none, fun n hn => absurd hn (by simp), rfl⟩

/-- The numbers in front of the first `-1` of an accepted list, and the list from there on. -/
structure MonthList (list : Text) (ns : List ℕ) (rest : List (Option ℕ)) : Prop where
  days : ∀ n ∈ ns, 1 ≤ n ∧ n ≤ 31
  rest_days : ∀ x ∈ rest, IsMonthDay x
  rest_head : rest.head? = none ∧ ns ≠ [] ∨ rest.head? = some none
  tokens : list.splitOn ',' = (ns.map some ++ rest).map monthDayCode
  text : list = [','].intercalate ((ns.map some ++ rest).map monthDayCode)

/-- A list that `chkScheduleParam` accepts for a monthly schedule consists of days. -/
theorem monthList_of_chk {time list : Text}
    (h : chkScheduleParam icalDateMonthly time list = true) : ∃ ns rest, MonthList list ns rest := by
  have hlang : list ∈ (customMatchOrRepeat customMonthDayPattern).lang := by
    unfold chkScheduleParam at h
    rw [if_neg (by decide)] at h
    split at h
    · rw [if_neg (by decide), if_neg (by decide), if_pos rfl, regmatch_wholeMatch] at h
      exact h
    · simp at h
  have hover : customMonthDayPattern.Over fun c => c ≠ ',' := by
    apply over_customMonthDayPattern
    · rintro c hc rfl
      exact absurd hc (by decide)
    · decide
  obtain ⟨hne, hmem, hlist⟩ := tokens_of_mem_customMatchOrRepeat hover hlang
  obtain ⟨xs, hxs, heq⟩ := exists_map_of_forall fun tok htok =>
    monthDayCode_of_mem_lang (hmem tok htok)
  have hnumbers : ∀ ys : List (Option ℕ), (∀ y ∈ ys, y ≠ none) → (∀ y ∈ ys, IsMonthDay y) →
      ∃ ns : List ℕ, ys = ns.map some ∧ ∀ n ∈ ns, 1 ≤ n ∧ n ≤ 31 := by
    intro ys hsome hdays
    induction ys with
    | nil => exact ⟨[], rfl, by simp⟩
    | cons y ys ih =>
      obtain ⟨n, rfl⟩ := Option.ne_none_iff_exists'.mp (hsome y (by simp))
      obtain ⟨ns, rfl, hns⟩ := ih (fun z hz => hsome z (by simp [hz]))
        (fun z hz => hdays z (by simp [hz]))
      refine ⟨n :: ns, rfl, ?_⟩
      intro m hm
      rcases List.mem_cons.mp hm with rfl | hm
      · exact hdays (some m) (by simp) m rfl
      · exact hns m hm
  by_cases hlast : none ∈ xs
  · obtain ⟨ys, rest, rfl, hnot⟩ := List.eq_append_cons_of_mem hlast
    obtain ⟨ns, rfl, hns⟩ := hnumbers ys (fun y hy heq => hnot (heq ▸ hy))
      fun y hy => hxs y (by simp [hy])
    exact ⟨ns, none :: rest, hns, fun x hx => hxs x (by simp [hx]), Or.inr rfl, heq,
      by rw [← heq, hlist]⟩
  · obtain ⟨ns, rfl, hns⟩ := hnumbers xs (fun y hy heq => hlast (heq ▸ hy)) hxs
    refine ⟨ns, [], hns, by simp, Or.inl ⟨rfl, ?_⟩, by simpa using heq, by rw [List.append_nil, ← heq, hlist]⟩
    rintro rfl
    exact hne heq

/-- What follows the numbers begins with `-1`. -/
theorem MonthList.not_isEmpty_iff {list : Text} {ns : List ℕ} {rest : List (Option ℕ)}
    (h : MonthList list ns rest) : (!rest.isEmpty) = true ↔ none ∈ rest := by
  rcases h.rest_head with ⟨hnil, -⟩ | hhead
  · simp [List.head?_eq_none_iff.mp hnil]
  · obtain ⟨xs, rfl⟩ := List.head?_eq_some_iff.mp hhead
    simp

/-! ### `convMonthDay` -/

/-- The text of a list in front of the first `-1`. -/
def frontDays (list : Text) : Text := (strstr "-1".toList list).elim list Prod.fst

theorem intercalate_comma_append (xs : List Text) (y : Text) (ys : List Text) :
    [','].intercalate (xs ++ y :: ys) =
      (xs.flatMap fun x => x ++ [',']) ++ [','].intercalate (y :: ys) := by
  induction xs with
  | nil => rfl
  | cons x xs ih =>
    have hne : xs ++ y :: ys ≠ [] := by simp
    obtain ⟨z, zs, hzs⟩ := List.exists_cons_of_ne_nil hne
    rw [List.cons_append, hzs, List.intercalate_cons_cons, ← hzs, ih, List.flatMap_cons,
      List.append_assoc, List.append_assoc, List.append_assoc]

/-- Each token in front of the first `-1` is followed by a comma. -/
theorem flatMap_comma {xs : List Text} (hne : xs ≠ []) :
    (xs.flatMap fun x => x ++ [',']) = [','].intercalate xs ++ [','] := by
  induction xs with
  | nil => exact absurd rfl hne
  | cons x xs ih =>
    cases xs with
    | nil => simp
    | cons y ys =>
      rw [List.flatMap_cons, ih (by simp), List.intercalate_cons_cons, List.append_assoc,
        List.append_assoc, List.append_assoc]

/-- The text of the numbers in front of the first `-1`, with their commas. -/
def frontText (ns : List ℕ) : Text := ns.flatMap fun n : ℕ => decimal n ++ [',']

theorem dash_not_mem_frontText (ns : List ℕ) : '-' ∉ frontText ns := by
  intro hmem
  obtain ⟨n, -, hc⟩ := List.mem_flatMap.mp hmem
  rcases List.mem_append.mp hc with hc | hc
  · exact isDigit_not_mark (fun _ => isDigit_of_mem_decimal) (by decide) hc
  · exact absurd (List.mem_singleton.mp hc) (by decide)

theorem frontText_eq {ns : List ℕ} (hne : ns ≠ []) :
    frontText ns = [','].intercalate (ns.map fun n : ℕ => decimal n) ++ [','] := by
  rw [← flatMap_comma (by simpa using hne), List.flatMap_map, frontText]

theorem not_mem_days {ns : List ℕ} {d : Char} (hdigit : d.isDigit = false) (hcomma : d ≠ ',') :
    d ∉ [','].intercalate (ns.map fun n : ℕ => decimal n) := by
  intro hmem
  rcases mem_intercalate_comma hmem with heq | ⟨tok, htok, hmem⟩
  · exact hcomma heq
  · obtain ⟨n, -, rfl⟩ := List.mem_map.mp htok
    exact isDigit_not_mark (fun _ => isDigit_of_mem_decimal) hdigit hmem

theorem strstr_lastDay {before rest : Text} (hbefore : '-' ∉ before) :
    strstr "-1".toList (before ++ ("-1".toList ++ rest)) = some (before, "-1".toList ++ rest) := by
  apply strstr_append (List.prefix_append _ _)
  rintro x y rfl hy hpre
  obtain ⟨c, t, rfl⟩ := List.exists_cons_of_ne_nil hy
  have hc : '-' = c := (List.cons_prefix_cons.mp hpre).1
  exact hbefore (List.mem_append_right _ (hc ▸ List.mem_cons_self))

theorem strstr_lastDay_none {list : Text} (h : '-' ∉ list) : strstr "-1".toList list = none := by
  rw [Option.eq_none_iff_forall_not_mem]
  rintro ⟨before, rest⟩ hmem
  obtain ⟨rfl, hpre⟩ := strstr_eq_some hmem
  exact h (List.mem_append_right _ (hpre.subset (by decide)))

/-- `convMonthDay` keeps the numbers in front of the first `-1`. -/
theorem MonthList.convMonthDay {list : Text} {ns : List ℕ} {rest : List (Option ℕ)}
    (h : MonthList list ns rest) (maxlen : ℕ) :
    convMonthDay list maxlen =
      if (frontDays list).length < maxlen then
        some (!rest.isEmpty, [','].intercalate (ns.map fun n : ℕ => decimal n))
      else none := by
  have hcodes : (ns.map some).map monthDayCode = ns.map fun n : ℕ => decimal n := by
    simp [monthDayCode]
  have htext := h.text
  rw [List.map_append, hcodes] at htext
  rcases h.rest_head with ⟨hnil, hne⟩ | hlast
  · -- the list has no `-1`
    obtain rfl := List.head?_eq_none_iff.mp hnil
    rw [List.map_nil, List.append_nil] at htext
    have hdash : '-' ∉ list := by
      rw [htext]
      exact not_mem_days (by decide) (by decide)
    have hpos : 0 < list.length := by
      obtain ⟨n, ns, rfl⟩ := List.exists_cons_of_ne_nil hne
      have hlen := List.length_pos_iff.mpr (decimal_ne_nil n)
      rw [htext, List.map_cons, intercalate_comma, List.length_append]
      omega
    rw [OpenvasTool.convMonthDay, frontDays, strstr_lastDay_none hdash, ← htext]
    simp only [hpos, true_and, Option.elim_none, List.isEmpty_nil, Bool.not_true]
  · obtain ⟨xs, rfl⟩ := List.head?_eq_some_iff.mp hlast
    rw [List.map_cons, intercalate_comma_append, List.flatMap_map, monthDayCode,
      intercalate_comma] at htext
    change list = frontText ns ++ _ at htext
    have hkept : (if (frontText ns).getLast? = some ',' then (frontText ns).dropLast
        else frontText ns) = [','].intercalate (ns.map fun n : ℕ => decimal n) := by
      by_cases hne : ns = []
      · rw [hne]
        rfl
      · rw [frontText_eq hne, if_pos (by simp), List.dropLast_concat]
    rw [OpenvasTool.convMonthDay, frontDays, htext,
      strstr_lastDay (dash_not_mem_frontText ns)]
    simp only [Option.elim_some, hkept, List.isEmpty_cons, Bool.not_false]

/-! ### The days on which the lines run -/

/-- The command of the line for the last day of the month. -/
def onLastDay (cmd : Text) : Text :=
  cronLastMonthdayCmdPatt ++ " && (".toList ++ quietly cmd ++ ")".toList

/-- On this day the line runs the command: the entry fires, and the command is the given one,
or it is guarded by a test which succeeds on the last day of a month. -/
def LineRunsOn (cmd line : Text) (d : Date) : Prop :=
  (∃ e t, Entry.read line = some e ∧ e.Fires t ∧ t.date = d) ∧
    (command line = (quietly cmd).dropWhile isBlank ∨
      command line = onLastDay cmd ∧ d.day = daysInMonth d.year d.month)

/-- One of the lines of the file runs the command on this day. -/
def RunsOn (cmd content : Text) (d : Date) : Prop :=
  ∃ line ∈ content.splitOn '\n', LineRunsOn cmd line d

/-- The line of a monthly schedule with these days. -/
def monthDaysBody (tm : Tm) (days cmd : Text) : Text :=
  cronBody [decimal tm.min, decimal tm.hour, days, "*".toList, "*".toList] cronUserName cmd

theorem isWord_days {ns : List ℕ} (hne : ns ≠ []) :
    IsWord ([','].intercalate (ns.map fun n : ℕ => decimal n)) := by
  constructor
  · obtain ⟨n, ns, rfl⟩ := List.exists_cons_of_ne_nil hne
    rw [List.map_cons, intercalate_comma]
    exact List.append_ne_nil_of_left_ne_nil (decimal_ne_nil n) _
  · intro c hc
    by_contra hblank
    have hcases : c = ' ' ∨ c = '\t' := by
      simpa [isBlank, or_iff_not_imp_left] using hblank
    rcases hcases with rfl | rfl <;> exact not_mem_days (by decide) (by decide) hc

theorem lineWords_days (tm : Tm) {days : Text} (hdays : IsWord days) :
    LineWords (decimal tm.min) (decimal tm.hour) days "*".toList "*".toList :=
  ⟨isWord_decimal _, isWord_decimal _, hdays, isWord_star, isWord_star⟩

/-- The entry of a line with a list of numbers. -/
theorem read_monthDaysBody {tm : Tm} (htm : TmOk tm) {days : Text} (cmd : Text) {ns : List ℕ}
    (hdays : IsWord days) (hread : readField 1 31 [] days = some (.values ns)) :
    Entry.read (monthDaysBody tm days cmd) =
      some ⟨.values [tm.min], .values [tm.hour], .values ns, .star, .star⟩ := by
  rw [monthDaysBody, (lineWords_days tm hdays).read, htm.readFields.1, htm.readFields.2, hread]
  rfl

/-- The days on which a line with a list of numbers fires. -/
theorem fires_monthDaysBody {tm : Tm} (htm : TmOk tm) {days : Text} (cmd : Text) {ns : List ℕ}
    (hdays : IsWord days) (hread : readField 1 31 [] days = some (.values ns)) (d : Date) :
    (∃ e t, Entry.read (monthDaysBody tm days cmd) = some e ∧ e.Fires t ∧ t.date = d) ↔
      d.day ∈ ns := by
  rw [read_monthDaysBody htm cmd hdays hread]
  constructor
  · rintro ⟨e, t, he, hfires, rfl⟩
    obtain rfl := Option.some.inj he
    exact ((Entry.dayMatches_of_star (Or.inr rfl)).mp hfires.2.2.2).1
  · intro hday
    have hhour := htm.hour_le
    have hmin := htm.min_le
    refine ⟨_, ⟨d, tm.hour, tm.min, by omega, by omega⟩, rfl, ⟨?_, ?_, ?_, ?_⟩, rfl⟩
    · simp
    · simp
    · exact trivial
    · exact (Entry.dayMatches_of_star (Or.inr rfl)).mpr ⟨hday, trivial⟩

theorem lineRunsOn_days {tm : Tm} (htm : TmOk tm) {ns : List ℕ} (hne : ns ≠ [])
    (hns : ∀ n ∈ ns, 1 ≤ n ∧ n ≤ 31) (cmd : Text) (d : Date) :
    LineRunsOn cmd (monthDaysBody tm ([','].intercalate (ns.map fun n : ℕ => decimal n))
      (quietly cmd)) d ↔ d.day ∈ ns := by
  have hfires := fires_monthDaysBody htm (quietly cmd) (isWord_days hne)
    (readField_numbers [] hne hns) d
  have hcommand := (lineWords_days tm (isWord_days hne)).command (quietly cmd)
  rw [LineRunsOn, hfires]
  exact and_iff_left (Or.inl hcommand)

theorem lineRunsOn_last {tm : Tm} (htm : TmOk tm) (cmd : Text) (d : Date) :
    LineRunsOn cmd (monthDaysBody tm "28-31".toList (onLastDay cmd)) d ↔
      d.day = daysInMonth d.year d.month := by
  have hword : IsWord "28-31".toList := ⟨by decide, List.all_iff_forall_prop.mp (by decide)⟩
  have hread : readField 1 31 [] "28-31".toList = some (.values [28, 29, 30, 31]) := by decide
  have hcommand := (lineWords_days tm hword).command (onLastDay cmd)
  have hguard : (onLastDay cmd).dropWhile isBlank = onLastDay cmd := rfl
  rw [hguard] at hcommand
  have hother : onLastDay cmd ≠ (quietly cmd).dropWhile isBlank := by
    intro heq
    have hle := (List.dropWhile_sublist isBlank (l := quietly cmd)).length_le
    rw [← heq] at hle
    simp only [onLastDay, List.length_append] at hle
    have hpos : 0 < cronLastMonthdayCmdPatt.length := by decide
    omega
  rw [LineRunsOn, fires_monthDaysBody htm _ hword hread]
  constructor
  · rintro ⟨-, hquiet | ⟨-, hday⟩⟩
    · exact absurd (hcommand.symm.trans hquiet) hother
    · exact hday
  · intro hday
    refine ⟨?_, Or.inr ⟨hcommand, hday⟩⟩
    have hmax := daysInMonth_le_31 d.year d.month
    have hmin := le_daysInMonth_28 d.year d.month
    simp only [List.mem_cons, List.not_mem_nil, or_false]
    omega

/-- The lines of a monthly schedule without their newlines. -/
def monthBodies (tm : Tm) (ns : List ℕ) (last : Bool) (cmd : Text) : List Text :=
  (if ns = [] then []
    else [monthDaysBody tm ([','].intercalate (ns.map fun n : ℕ => decimal n)) (quietly cmd)]) ++
    if last then [monthDaysBody tm "28-31".toList (onLastDay cmd)] else []

theorem MonthList.cronLines {list : Text} {ns : List ℕ} {rest : List (Option ℕ)}
    (h : MonthList list ns rest) (tm : Tm) (cmd : Text) :
    cronLines icalDateMonthly tm list cronUserName cmd =
      if (frontDays list).length < maxCommSize then
        some ((monthBodies tm ns (!rest.isEmpty) cmd).map fun body => body ++ ['\n'])
      else none := by
  have hempty : ([','].intercalate (ns.map fun n : ℕ => decimal n)).isEmpty = decide (ns = []) := by
    by_cases hne : ns = []
    · simp [hne]
    · rw [decide_eq_false hne, List.isEmpty_eq_false_iff]
      exact (isWord_days hne).1
  unfold OpenvasTool.cronLines
  rw [if_neg (by decide), if_neg (by decide), if_neg (by decide), if_pos rfl,
    h.convMonthDay maxCommSize]
  split
  · rw [Option.map_some, monthBodies, List.map_append]
    simp only [hempty, decide_eq_true_eq, Option.some.injEq]
    congr 1
    · split <;> rfl
    · split <;> rfl
  · rfl

theorem newline_not_mem_monthBodies {tm : Tm} {ns : List ℕ} {last : Bool} {cmd : Text}
    (hcmd : '\n' ∉ cmd) : ∀ body ∈ monthBodies tm ns last cmd, '\n' ∉ body := by
  have hbody : ∀ days cmd : Text, '\n' ∉ days → '\n' ∉ cmd → '\n' ∉ monthDaysBody tm days cmd := by
    intro days cmd hdays hcmd
    apply newline_not_mem_cronBody _ (by decide) hcmd
    simp [newline_not_mem_decimal, hdays]
  have hquiet : '\n' ∉ quietly cmd := by
    simp [quietly, hcmd]
  intro body hmem
  rw [monthBodies, List.mem_append] at hmem
  rcases hmem with hmem | hmem
  · split at hmem
    · simp at hmem
    · obtain rfl := List.mem_singleton.mp hmem
      exact hbody _ _ (not_mem_days (by decide) (by decide)) hquiet
  · split at hmem
    · obtain rfl := List.mem_singleton.mp hmem
      apply hbody _ _ (by decide)
      simp only [onLastDay, List.mem_append, not_or]
      exact ⟨⟨⟨by decide, by decide⟩, hquiet⟩, by decide⟩
    · simp at hmem

/-- The lines run the command on the days in front of the first `-1` and, if there is one, on the
last day of every month. -/
theorem runsOn_monthBodies {tm : Tm} (htm : TmOk tm) {ns : List ℕ}
    (hns : ∀ n ∈ ns, 1 ≤ n ∧ n ≤ 31) (last : Bool) {cmd : Text} (hcmd : '\n' ∉ cmd) (d : Date) :
    RunsOn cmd ((monthBodies tm ns last cmd).map fun body => body ++ ['\n']).flatten d ↔
      d.day ∈ ns ∨ last = true ∧ d.day = daysInMonth d.year d.month := by
  rw [RunsOn, Support.splitOn_lines (newline_not_mem_monthBodies hcmd)]
  have hnil : ¬LineRunsOn cmd [] d := by
    rintro ⟨⟨e, t, he, -⟩, -⟩
    rw [read_nil] at he
    simp at he
  simp only [List.mem_append, List.mem_singleton, or_and_right, exists_or, exists_eq_left, hnil,
    or_false, monthBodies]
  refine or_congr ?_ ?_
  · split
    · rename_i hne
      simp [hne]
    · rename_i hne
      simpa using lineRunsOn_days htm hne hns cmd d
  · split
    · rename_i hlast
      simpa [hlast] using lineRunsOn_last htm cmd d
    · rename_i hlast
      simp [hlast]

/-! ### The days that a list names -/

/-- The list names this day, by its number or as the last day of the month. -/
def NamedDay (list : Text) (d : Date) : Prop :=
  decimal d.day ∈ list.splitOn ',' ∨
    "-1".toList ∈ list.splitOn ',' ∧ d.day = daysInMonth d.year d.month

theorem decimal_natCast_injective {m n : ℕ} (h : decimal m = decimal n) : m = n := by
  rw [decimal_natCast, decimal_natCast] at h
  rw [← leadingDigits_toDigits m, h, leadingDigits_toDigits]

theorem monthDayCode_injective {x y : Option ℕ} (h : monthDayCode x = monthDayCode y) : x = y := by
  have hdash : ∀ n : ℕ, decimal n ≠ "-1".toList := by
    intro n heq
    have hmem : '-' ∈ decimal n := by
      rw [heq]
      decide
    exact absurd (isDigit_of_mem_decimal hmem) (by decide)
  cases x with
  | none =>
    cases y with
    | none => rfl
    | some n => exact absurd h.symm (hdash n)
  | some m =>
    cases y with
    | none => exact absurd h (hdash m)
    | some n => rw [decimal_natCast_injective h]

/-- A day is in the list of codes just if its code is. -/
theorem monthDayCode_mem {x : Option ℕ} {xs : List (Option ℕ)} :
    monthDayCode x ∈ xs.map monthDayCode ↔ x ∈ xs :=
  List.mem_map_of_injective fun _ _ => monthDayCode_injective

theorem MonthList.namedDay {list : Text} {ns : List ℕ} {rest : List (Option ℕ)}
    (h : MonthList list ns rest) (d : Date) :
    NamedDay list d ↔ d.day ∈ ns ∨ some d.day ∈ rest ∨
      none ∈ rest ∧ d.day = daysInMonth d.year d.month := by
  have hday : decimal d.day ∈ list.splitOn ',' ↔ d.day ∈ ns ∨ some d.day ∈ rest := by
    rw [h.tokens, show decimal d.day = monthDayCode (some d.day) from rfl, monthDayCode_mem]
    simp
  have hlast : "-1".toList ∈ list.splitOn ',' ↔ none ∈ rest := by
    rw [h.tokens, show "-1".toList = monthDayCode none from rfl, monthDayCode_mem]
    simp
  rw [NamedDay, hday, hlast, or_assoc]

/-! ### The claim of the format -/

/-- `formatCronTask` succeeds for a monthly schedule, and in every month of every year its lines run
the command on the named days. -/
def MonthDaysKept (time list cmd : Text) : Prop :=
  ∃ content, FormatsAs icalDateMonthly time list cmd content ∧
    ∀ d, RunsOn cmd content d ↔ NamedDay list d

/-- What follows the first `-1` of a list names no further days. The 31st is a last day. -/
def LastDayEnds (list : Text) : Prop :=
  ∀ tok ∈ (list.splitOn ',').dropWhile (· ≠ "-1".toList),
    tok = "-1".toList ∨ tok = "31".toList ∨
      tok ∈ (list.splitOn ',').takeWhile (· ≠ "-1".toList)

instance : DecidablePred LastDayEnds := fun _ => List.decidableBAll _ _

/-- The list is cut in front of the first `-1`. -/
theorem MonthList.cut {list : Text} {ns : List ℕ} {rest : List (Option ℕ)}
    (h : MonthList list ns rest) :
    (list.splitOn ',').takeWhile (· ≠ "-1".toList) = (ns.map some).map monthDayCode ∧
      (list.splitOn ',').dropWhile (· ≠ "-1".toList) = rest.map monthDayCode := by
  have hfront : ∀ tok ∈ (ns.map some).map monthDayCode, decide (tok ≠ "-1".toList) = true := by
    intro tok htok
    obtain ⟨x, hx, rfl⟩ := List.mem_map.mp htok
    obtain ⟨n, -, rfl⟩ := List.mem_map.mp hx
    rw [decide_eq_true_eq]
    exact fun heq => Option.some_ne_none n (monthDayCode_injective heq)
  have hrest : (rest.map monthDayCode).takeWhile (fun tok => decide (tok ≠ "-1".toList)) = [] ∧
      (rest.map monthDayCode).dropWhile (fun tok => decide (tok ≠ "-1".toList)) =
        rest.map monthDayCode := by
    rcases h.rest_head with ⟨hnil, -⟩ | hlast
    · obtain rfl := List.head?_eq_none_iff.mp hnil
      exact ⟨rfl, rfl⟩
    · obtain ⟨xs, rfl⟩ := List.head?_eq_some_iff.mp hlast
      exact ⟨List.takeWhile_cons_of_neg (by simp [monthDayCode]),
        List.dropWhile_cons_of_neg (by simp [monthDayCode])⟩
  rw [h.tokens, List.map_append, List.takeWhile_append_of_pos hfront,
    List.dropWhile_append_of_pos hfront, hrest.1, hrest.2, List.append_nil]
  exact ⟨rfl, rfl⟩

theorem MonthList.lastDayEnds {list : Text} {ns : List ℕ} {rest : List (Option ℕ)}
    (h : MonthList list ns rest) : LastDayEnds list ↔ ∀ n, some n ∈ rest → n = 31 ∨ n ∈ ns := by
  obtain ⟨htake, hdrop⟩ := h.cut
  unfold LastDayEnds
  rw [htake, hdrop]
  constructor
  · intro hends n hn
    rcases hends _ (monthDayCode_mem.mpr hn) with hcode | hcode | hmem
    · exact absurd (monthDayCode_injective (y := none) hcode) (by simp)
    · exact Or.inl (decimal_natCast_injective hcode)
    · exact Or.inr (by simpa using monthDayCode_mem.mp hmem)
  · intro hends tok htok
    obtain ⟨x, hx, rfl⟩ := List.mem_map.mp htok
    cases x with
    | none => exact Or.inl rfl
    | some n =>
      rcases hends n hx with rfl | hn
      · exact Or.inr (Or.inl rfl)
      · exact Or.inr (Or.inr (monthDayCode_mem.mpr (List.mem_map_of_mem hn)))

/-- A monthly list is translated faithfully exactly when the time exists, the days in front of the
first `-1` fit in the buffer, and no further day is named behind it. -/
theorem monthDaysKept_iff {time list cmd : Text}
    (h : chkScheduleParam icalDateMonthly time list = true) (hcmd : '\n' ∉ cmd) :
    MonthDaysKept time list cmd ↔
      (∃ tm, strptime time = some (tm, [])) ∧ (frontDays list).length < maxCommSize ∧
        LastDayEnds list := by
  obtain ⟨ns, rest, hlist⟩ := monthList_of_chk h
  have hlast := hlist.not_isEmpty_iff
  rw [hlist.lastDayEnds]
  constructor
  · rintro ⟨content, hformat, hruns⟩
    obtain ⟨tm, lines, htime, hlines, rfl⟩ := formatsAs_iff.mp hformat
    rw [hlist.cronLines, Option.ite_none_right_eq_some, Option.some.injEq] at hlines
    obtain ⟨hroom, rfl⟩ := hlines
    refine ⟨⟨tm, htime⟩, hroom, fun n hn => ?_⟩
    obtain ⟨hlow, hhigh⟩ := hlist.rest_days _ hn n rfl
    -- in January only the 31st is the last day
    let d : Date := ⟨2024, 1, n, by decide, by decide, hlow, hhigh⟩
    have hday := (hruns d).mpr ((hlist.namedDay d).mpr (Or.inr (Or.inl hn)))
    rw [runsOn_monthBodies (strptime_tmOk htime) hlist.days _ hcmd] at hday
    rcases hday with hday | ⟨-, hday⟩
    · exact Or.inr hday
    · exact Or.inl hday
  · rintro ⟨⟨tm, htime⟩, hroom, hends⟩
    refine ⟨_, formatsAs_iff.mpr ⟨tm, _, htime, (hlist.cronLines tm cmd).trans (if_pos hroom), rfl⟩,
      fun d => ?_⟩
    rw [runsOn_monthBodies (strptime_tmOk htime) hlist.days _ hcmd, hlist.namedDay, hlast]
    constructor
    · rintro (hday | hday)
      · exact Or.inl hday
      · exact Or.inr (Or.inr hday)
    · rintro (hday | hday | hday)
      · exact Or.inl hday
      · rcases hends _ hday with heq | hmem
        · have hle := d.day_le
          have hmax := daysInMonth_le_31 d.year d.month
          refine Or.inr ⟨?_, by omega⟩
          rw [← hlast, Bool.not_eq_true', List.isEmpty_eq_false_iff]
          exact List.ne_nil_of_mem hday
        · exact Or.inl hmem
      · exact Or.inr hday

theorem monthDaysKept_iff_sample :
    MonthDaysKept "2024-05-01 08:30:00".toList "1,15,-1".toList "/usr/sbin/scan".toList ↔
      (∃ tm, strptime "2024-05-01 08:30:00".toList = some (tm, [])) ∧
        (frontDays "1,15,-1".toList).length < maxCommSize ∧ LastDayEnds "1,15,-1".toList :=
  monthDaysKept_iff (by decide +kernel) (by decide)

/-- The tenth is lost behind the last day. -/
theorem not_monthDaysKept_behindLast :
    chkScheduleParam icalDateMonthly "2024-05-01 08:30:00".toList "-1,10".toList = true ∧
      ¬MonthDaysKept "2024-05-01 08:30:00".toList "-1,10".toList "/usr/sbin/scan".toList := by
  refine ⟨by decide +kernel, ?_⟩
  rintro ⟨content, hformat, hruns⟩
  have hlist : MonthList "-1,10".toList [] [none, some 10] := by
    refine ⟨by simp, ?_, Or.inr rfl, by decide +kernel, by decide +kernel⟩
    simp [IsMonthDay]
  obtain ⟨tm, lines, htime, hlines, rfl⟩ := formatsAs_iff.mp hformat
  rw [hlist.cronLines, Option.ite_none_right_eq_some, Option.some.injEq] at hlines
  obtain ⟨-, rfl⟩ := hlines
  let d : Date := ⟨2024, 1, 10, by decide, by decide, by decide, by decide⟩
  have hday := (hruns d).mpr ((hlist.namedDay d).mpr (Or.inr (Or.inl (by simp [d]))))
  rw [runsOn_monthBodies (strptime_tmOk htime) hlist.days _ (by decide)] at hday
  rcases hday with hday | ⟨-, hday⟩
  · simp at hday
  · exact absurd hday (by decide)

end OpenvasTool
