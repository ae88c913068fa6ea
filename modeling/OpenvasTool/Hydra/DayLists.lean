import OpenvasTool.Hydra.Cron
import OpenvasTool.Alphabets
import OpenvasTool.Posix.Crontab

/-!
# Day lists

The lists of days that a schedule accepts, and what `convWeekDay` makes of the
days of the week.
-/

namespace OpenvasTool

open Posix Posix.Regex Posix.Cron

/-! ### Tokens -/

theorem intercalate_comma (tok : Text) (toks : List Text) :
    [','].intercalate (tok :: toks) = tok ++ toks.flatMap fun t => ',' :: t := by
  induction toks generalizing tok with
  | nil => simp
  | cons t toks ih => simp [List.intercalate_cons_cons, ih]

theorem mem_intercalate_comma {c : Char} {toks : List Text} (h : c ∈ [','].intercalate toks) :
    c = ',' ∨ ∃ tok ∈ toks, c ∈ tok := by
  cases toks with
  | nil => simp at h
  | cons tok toks =>
    rw [intercalate_comma, List.mem_append, List.mem_flatMap] at h
    rcases h with h | ⟨t, ht, h⟩
    · exact Or.inr ⟨tok, by simp, h⟩
    · rcases List.mem_cons.mp h with rfl | h
      · exact Or.inl rfl
      · exact Or.inr ⟨t, by simp [ht], h⟩

/-- A list of a schedule consists of tokens between commas. -/
theorem tokens_of_mem_customMatchOrRepeat {x : Regex} (hx : x.Over fun c => c ≠ ',') {list : Text}
    (h : list ∈ (customMatchOrRepeat x).lang) :
    list.splitOn ',' ≠ [] ∧ (∀ tok ∈ list.splitOn ',', tok ∈ x.lang) ∧
      [','].intercalate (list.splitOn ',') = list := by
  obtain ⟨tok, htok, tail, htail, rfl⟩ := mem_lang_seq.mp h
  obtain ⟨ws, rfl, hws⟩ := mem_lang_star.mp htail
  have htoks : ∃ toks : List Text, (∀ t ∈ toks, t ∈ x.lang) ∧
      ws.flatten = toks.flatMap fun t => ',' :: t := by
    clear htail h
    induction ws with
    | nil => exact ⟨[], by simp, rfl⟩
    | cons w ws ih =>
      obtain ⟨toks, hmem, hflat⟩ := ih fun v hv => hws v (by simp [hv])
      obtain ⟨comma, hcomma, t, ht, rfl⟩ := mem_lang_seq.mp (hws w (by simp))
      obtain ⟨c, hc, rfl⟩ := mem_lang_cls.mp hcomma
      obtain rfl := beq_iff_eq.mp hc
      refine ⟨t :: toks, ?_, by rw [List.flatten_cons, hflat]; rfl⟩
      intro u hu
      rcases List.mem_cons.mp hu with rfl | hu
      · exact ht
      · exact hmem u hu
  obtain ⟨toks, hmem, hflat⟩ := htoks
  have hall : ∀ t ∈ tok :: toks, t ∈ x.lang := by
    intro t ht
    rcases List.mem_cons.mp ht with rfl | ht
    · exact htok
    · exact hmem t ht
  have hlist : tok ++ ws.flatten = [','].intercalate (tok :: toks) := by
    rw [hflat, intercalate_comma]
  have hsplit : (tok ++ ws.flatten).splitOn ',' = tok :: toks := by
    rw [hlist]
    exact List.splitOn_intercalate ',' (fun t ht hcomma => hx.all_mem (hall t ht) _ hcomma rfl)
      (by simp)
  rw [hsplit]
  exact ⟨by simp, hall, hlist.symm⟩

/-- Tokens that are all codes of something form a list of codes. -/
theorem exists_map_of_forall {α : Type} {code : α → Text} {P : α → Prop} {toks : List Text}
    (h : ∀ tok ∈ toks, ∃ a, P a ∧ tok = code a) :
    ∃ as : List α, (∀ a ∈ as, P a) ∧ toks = as.map code := by
  induction toks with
  | nil => exact ⟨[], by simp, rfl⟩
  | cons tok toks ih =>
    obtain ⟨a, ha, rfl⟩ := h tok (by simp)
    obtain ⟨as, has, rfl⟩ := ih fun t ht => h t (by simp [ht])
    refine ⟨a :: as, ?_, rfl⟩
    intro b hb
    rcases List.mem_cons.mp hb with rfl | hb
    · exact ha
    · exact has b hb

/-! ### Days of the week -/

/-- The codes of the days of the week in a schedule, from Sunday on. -/
def icalWdayCodes : List Text := ["SU", "MO", "TU", "WE", "TH", "FR", "SA"].map String.toList

/-- The name that `WEEK_DAYS` has for a day of the week. -/
def weekDayName (n : ℕ) : Text := weekDays.getD n []

/-- The code of a day of the week. -/
def weekDayCode (n : ℕ) : Text := icalWdayCodes.getD n []

theorem weekDayCode_of_mem_lang {tok : Text} (h : tok ∈ customWeekDayPattern.lang) :
    ∃ n, n < 7 ∧ tok = weekDayCode n := by
  simp only [customWeekDayPattern, alts, mem_lang_alt, mem_lang_lit] at h
  rcases h with rfl | rfl | rfl | rfl | rfl | rfl | rfl
  exacts [⟨1, by decide, rfl⟩, ⟨2, by decide, rfl⟩, ⟨3, by decide, rfl⟩, ⟨4, by decide, rfl⟩,
    ⟨5, by decide, rfl⟩, ⟨6, by decide, rfl⟩, ⟨0, by decide, rfl⟩]

/-- The loop of `convWeekDay` finds the name of a code. -/
theorem weekDayCode_find : ∀ n < 7, ∃ a b, weekDayCode n = [a, b] ∧
    weekDays.find? (fun day => day.take 2 == [a, b]) = some (weekDayName n) ∧
    (weekDayName n).length = 3 := by
  intro n hn
  interval_cases n
  exacts [⟨'S', 'U', rfl, rfl, rfl⟩, ⟨'M', 'O', rfl, rfl, rfl⟩, ⟨'T', 'U', rfl, rfl, rfl⟩,
    ⟨'W', 'E', rfl, rfl, rfl⟩, ⟨'T', 'H', rfl, rfl, rfl⟩, ⟨'F', 'R', rfl, rfl, rfl⟩,
    ⟨'S', 'A', rfl, rfl, rfl⟩]

/-- Every code takes four bytes of the buffer. -/
theorem convWeekDayLoop_codes {maxlen : ℕ} {ns : List ℕ} (hne : ns ≠ []) (hns : ∀ n ∈ ns, n < 7)
    (dst : Text) :
    convWeekDayLoop maxlen dst ([','].intercalate (ns.map weekDayCode)) =
      if dst.length + 4 * ns.length < maxlen then
        some (dst ++ [','].intercalate (ns.map weekDayName))
      else none := by
  induction ns generalizing dst with
  | nil => exact absurd rfl hne
  | cons n ns ih =>
    obtain ⟨a, b, hcode, hfind, hlen⟩ := weekDayCode_find n (hns n (by simp))
    cases ns with
    | nil =>
      rw [List.map_singleton, List.intercalate_singleton, hcode, convWeekDayLoop, hfind]
      simp
    | cons m ns =>
      have hrest := ih (by simp) (fun k hk => hns k (by simp [hk])) (dst ++ weekDayName n ++ [','])
      rw [List.map_cons, List.map_cons, List.intercalate_cons_cons, ← List.map_cons, hcode]
      simp only [List.cons_append, List.nil_append]
      rw [convWeekDayLoop, hfind]
      dsimp only
      rw [if_pos rfl, hrest]
      simp only [List.map_cons, List.intercalate_cons_cons, List.length_append, List.length_cons, List.length_nil, hlen, List.append_assoc]
      by_cases hfits : dst.length + 4 * (ns.length + 1 + 1) < maxlen
      · rw [if_pos (by omega), if_pos (by omega), if_pos hfits]
      · rw [if_neg hfits]
        split
        · rw [if_neg (by omega)]
        · rfl

/-- A list that `chkScheduleParam` accepts for a weekly schedule consists of codes. -/
theorem weekly_codes {time list : Text} (h : chkScheduleParam icalDateWeekly time list = true) :
    ∃ ns : List ℕ, ns ≠ [] ∧ (∀ n ∈ ns, n < 7) ∧ list.splitOn ',' = ns.map weekDayCode ∧
      list = [','].intercalate (ns.map weekDayCode) := by
  have hlang : list ∈ (customMatchOrRepeat customWeekDayPattern).lang := by
    unfold chkScheduleParam at h
    rw [if_neg (by decide)] at h
    split at h
    · rw [if_neg (by decide), if_pos rfl, regmatch_wholeMatch] at h
      exact h
    · simp at h
  have hover : customWeekDayPattern.Over fun c => c ≠ ',' := by
    apply over_customWeekDayPattern
    rintro c hc rfl
    exact absurd hc (by decide)
  obtain ⟨hne, hmem, hlist⟩ := tokens_of_mem_customMatchOrRepeat hover hlang
  obtain ⟨ns, hns, heq⟩ := exists_map_of_forall fun tok htok =>
    weekDayCode_of_mem_lang (hmem tok htok)
  refine ⟨ns, ?_, hns, heq, by rw [← heq, hlist]⟩
  rintro rfl
  exact hne heq

theorem weekDayName_facts : ∀ n < 7, ',' ∉ weekDayName n ∧ ',' ∉ weekDayCode n ∧
    (weekDayCode n = "TU".toList ↔ n = 2) := by
  intro n hn
  interval_cases n <;> decide

/-- `convWeekDay` translates every code, if the buffer has room. -/
theorem convWeekDay_codes (maxlen : ℕ) {ns : List ℕ} (hne : ns ≠ []) (hns : ∀ n ∈ ns, n < 7) :
    convWeekDay ([','].intercalate (ns.map weekDayCode)) maxlen =
      if 4 * ns.length < maxlen then some ([','].intercalate (ns.map weekDayName)) else none := by
  have hlen : ∀ ns : List ℕ, ns ≠ [] → (∀ n ∈ ns, n < 7) →
      ([','].intercalate (ns.map weekDayName)).length + 1 = 4 * ns.length := by
    intro ns hne hns
    induction ns with
    | nil => exact absurd rfl hne
    | cons n ns ih =>
      obtain ⟨_, _, -, -, hthree⟩ := weekDayCode_find n (hns n (by simp))
      cases ns with
      | nil => simp [hthree]
      | cons m ns =>
        have hrest := ih (by simp) fun k hk => hns k (by simp [hk])
        simp only [List.map_cons, List.length_cons] at hrest ⊢
        rw [List.intercalate_cons_cons]
        simp only [List.length_append, List.length_singleton, hthree]
        omega
  have htotal := hlen ns hne hns
  have hpos : 0 < ns.length := List.length_pos_iff.mpr hne
  rw [convWeekDay, convWeekDayLoop_codes hne hns]
  simp only [List.length_nil, List.nil_append, Nat.zero_add]
  split
  · rw [Option.filter_some, if_pos]
    simp only [Bool.and_eq_true, decide_eq_true_eq]
    omega
  · rfl

/-! ### Names of crontab -/

/-- The names of the days of the week in a crontab, from Sunday on. -/
def cronWdayNames : List Text :=
  ["SUN", "MON", "TUE", "WED", "THU", "FRI", "SAT"].map String.toList

/-- A crontab name and a code of a schedule denote the same day of the week. -/
def SameWeekDay (name code : Text) : Prop :=
  ∃ n : ℕ, cronWdayNames[n]? = some name ∧ icalWdayCodes[n]? = some code

/-- Only the name of Tuesday is not the one of crontab. -/
theorem sameWeekDay_iff : ∀ n < 7, SameWeekDay (weekDayName n) (weekDayCode n) ↔ n ≠ 2 := by
  intro n hn
  by_cases htwo : n = 2
  · subst htwo
    constructor
    · rintro ⟨m, hname, -⟩
      exact absurd (List.mem_of_getElem? hname) (by decide)
    · simp
  · refine ⟨fun _ => htwo, fun _ => ⟨n, ?_⟩⟩
    interval_cases n
    exacts [⟨rfl, rfl⟩, ⟨rfl, rfl⟩, absurd rfl htwo, ⟨rfl, rfl⟩, ⟨rfl, rfl⟩, ⟨rfl, rfl⟩, ⟨rfl, rfl⟩]

/-- `convWeekDay` succeeds in the buffer of `formatCronTask`, and its names are valid and denote the
days of the list in their order. -/
def WeekDaysKept (list : Text) : Prop :=
  ∃ dst, convWeekDay list maxCommSize = some dst ∧
    List.Forall₂ SameWeekDay (dst.splitOn ',') (list.splitOn ',')

/-- A weekly list is translated faithfully exactly when it has no Tuesday and at most 63 days. -/
theorem weekDaysKept_iff {time list : Text}
    (h : chkScheduleParam icalDateWeekly time list = true) :
    WeekDaysKept list ↔
      (list.splitOn ',').length ≤ 63 ∧ "TU".toList ∉ list.splitOn ',' := by
  obtain ⟨ns, hne, hns, hsplit, hlist⟩ := weekly_codes h
  have hnames : ([','].intercalate (ns.map weekDayName)).splitOn ',' = ns.map weekDayName := by
    apply List.splitOn_intercalate
    · intro name hname
      obtain ⟨n, hn, rfl⟩ := List.mem_map.mp hname
      exact (weekDayName_facts n (hns n hn)).1
    · simpa using hne
  have htuesday : "TU".toList ∉ ns.map weekDayCode ↔ ∀ n ∈ ns, n ≠ 2 := by
    simp only [List.mem_map, not_exists, not_and]
    exact forall₂_congr fun n hn => not_congr (weekDayName_facts n (hns n hn)).2.2
  have hsame : List.Forall₂ SameWeekDay (ns.map weekDayName) (ns.map weekDayCode) ↔
      ∀ n ∈ ns, n ≠ 2 := by
    rw [List.forall₂_map_left_iff, List.forall₂_map_right_iff, List.forall₂_same]
    exact forall₂_congr fun n hn => sameWeekDay_iff n (hns n hn)
  have hconv := convWeekDay_codes maxCommSize hne hns
  rw [← hlist] at hconv
  unfold WeekDaysKept
  rw [hconv, hsplit, List.length_map, htuesday]
  constructor
  · rintro ⟨dst, hdst, hkept⟩
    rw [Option.ite_none_right_eq_some, Option.some.injEq] at hdst
    obtain ⟨hroom, rfl⟩ := hdst
    rw [hnames, hsame] at hkept
    exact ⟨by simp only [maxCommSize] at hroom; omega, hkept⟩
  · rintro ⟨hroom, hkept⟩
    refine ⟨_, if_pos (by simp only [maxCommSize]; omega), ?_⟩
    rw [hnames]
    exact hsame.mpr hkept

theorem weekDaysKept_iff_sample :
    WeekDaysKept "MO,FR,MO".toList ↔
      ("MO,FR,MO".toList.splitOn ',').length ≤ 63 ∧ "TU".toList ∉ "MO,FR,MO".toList.splitOn ',' :=
  weekDaysKept_iff (show chkScheduleParam icalDateWeekly "2024-05-01 08:30:00".toList
    "MO,FR,MO".toList = true by decide +kernel)

/-- Tuesday becomes a name that cron does not know. -/
theorem not_weekDaysKept_tuesday :
    chkScheduleParam icalDateWeekly "2024-05-01 08:30:00".toList "TU".toList = true ∧
      ¬WeekDaysKept "TU".toList := by
  refine ⟨by decide +kernel, ?_⟩
  rintro ⟨dst, hdst, hkept⟩
  have hconv : convWeekDay "TU".toList maxCommSize = some "TUS".toList := by decide +kernel
  rw [hconv] at hdst
  obtain rfl := Option.some.inj hdst
  rw [List.splitOn_eq_singleton (by decide), List.splitOn_eq_singleton (by decide)] at hkept
  obtain ⟨⟨n, hname, -⟩, -⟩ := List.forall₂_cons.mp hkept
  exact absurd (List.mem_of_getElem? hname) (by decide)

end OpenvasTool
