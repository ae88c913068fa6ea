import OpenvasTool.TaskOpenvas

/-!
# The characters of accepted texts

Which characters a text can contain once a check accepted it. The files, the
requests and the commands all rely on such facts, each for its own set of
characters, so the set is a parameter.
-/

namespace OpenvasTool

open Posix Posix.Regex

variable {p : Char → Prop}

/-! ### Patterns -/

theorem over_chr {d : Char} (h : p d) : (chr d).Over p := by
  intro c hc
  obtain rfl := beq_iff_eq.mp hc
  exact h

theorem over_lit_pair {a b : Char} (ha : p a) (hb : p b) : (lit [a, b]).Over p :=
  ⟨over_chr ha, over_chr hb, trivial⟩

/-- A range of digits. -/
theorem over_range {lo hi : Char} (hlo : '0' ≤ lo) (hhi : hi ≤ '9')
    (hdigit : ∀ c : Char, c.isDigit = true → p c) : (range lo hi).Over p := by
  intro c hc
  simp only [Bool.and_eq_true, decide_eq_true_eq] at hc
  have hge : '0' ≤ c := Char.le_trans hlo hc.1
  have hle : c ≤ '9' := Char.le_trans hc.2 hhi
  apply hdigit
  simp only [Char.isDigit, Bool.and_eq_true, decide_eq_true_eq]
  exact ⟨hge, hle⟩

theorem over_customMatchOrRepeat {x : Regex} (hx : x.Over p) (hcomma : p ',') :
    (customMatchOrRepeat x).Over p := ⟨hx, over_chr hcomma, hx⟩

theorem over_gvmNamePattern (h : ∀ c, gvmNameExcluded c = false → p c) : gvmNamePattern.Over p := h

theorem over_customIpPattern (hdigit : ∀ c : Char, c.isDigit = true → p c) (hdot : p '.') :
    customIpPattern.Over p := by
  have hnum : customIpNum.Over p :=
    ⟨hdigit, ⟨over_range (by decide) (by decide) hdigit, hdigit⟩,
      ⟨over_chr (hdigit '1' rfl), hdigit, hdigit⟩,
      ⟨over_chr (hdigit '2' rfl), over_range (by decide) (by decide) hdigit, hdigit⟩,
      over_lit_pair (hdigit '2' rfl) (hdigit '5' rfl),
      over_range (by decide) (by decide) hdigit⟩
  exact ⟨hnum, over_chr hdot, hnum⟩

theorem over_customIpRangePattern (hdigit : ∀ c : Char, c.isDigit = true → p c) (hdot : p '.')
    (hslash : p '/') (hdash : p '-') : customIpRangePattern.Over p := by
  have hip := over_customIpPattern hdigit hdot
  exact ⟨hip, ⟨hip, over_chr hslash, hdigit⟩, ⟨hip, over_chr hdash, hip⟩,
    hip, over_chr hdash, hdigit⟩

theorem over_customIpBlock (hdigit : ∀ c : Char, c.isDigit = true → p c) (hdot : p '.')
    (hslash : p '/') : customIpBlock.Over p :=
  ⟨over_customIpPattern hdigit hdot, over_chr hslash,
    ⟨over_chr (hdigit '1' rfl), over_range (by decide) (by decide) hdigit⟩,
    ⟨over_chr (hdigit '2' rfl), hdigit⟩, over_lit_pair (hdigit '3' rfl) (hdigit '0' rfl),
    over_lit_pair (hdigit '3' rfl) (hdigit '1' rfl)⟩

theorem over_customPortPattern (hdigit : ∀ c : Char, c.isDigit = true → p c) :
    customPortPattern.Over p := by
  have hfive := over_chr (hdigit '5' rfl)
  have hsix := over_chr (hdigit '6' rfl)
  have hclass : (cls fun c => "012".toList.contains c).Over p := by
    intro c hc
    apply hdigit
    simp only [String.reduceToList, List.contains_eq_mem, List.mem_cons, List.not_mem_nil, or_false,
      decide_eq_true_eq] at hc
    rcases hc with rfl | rfl | rfl <;> rfl
  exact ⟨⟨over_range (by decide) (by decide) hdigit, hdigit⟩,
    ⟨hsix, over_range (by decide) (by decide) hdigit, hdigit⟩,
    ⟨⟨hsix, hfive, trivial⟩, over_range (by decide) (by decide) hdigit, hdigit⟩,
    ⟨⟨hsix, hfive, hfive, trivial⟩, hclass, hdigit⟩,
    ⟨hsix, hfive, hfive, over_chr (hdigit '3' rfl), trivial⟩,
    over_range (by decide) (by decide) hdigit⟩

theorem over_customHostOrPort {x : Regex} (hx : x.Over p)
    (hdigit : ∀ c : Char, c.isDigit = true → p c) (hcolon : p ':') :
    (customHostOrPort x).Over p := ⟨hx, over_chr hcolon, over_customPortPattern hdigit⟩

theorem over_customWeekDayPattern (h : ∀ c : Char, c.isUpper = true → p c) :
    customWeekDayPattern.Over p := by
  have hday : ∀ a b : Char, a.isUpper = true → b.isUpper = true → (lit [a, b]).Over p :=
    fun a b ha hb => over_lit_pair (h a ha) (h b hb)
  exact ⟨hday _ _ rfl rfl, hday _ _ rfl rfl, hday _ _ rfl rfl, hday _ _ rfl rfl, hday _ _ rfl rfl,
    hday _ _ rfl rfl, hday _ _ rfl rfl⟩

theorem over_customMonthDayPattern (hdigit : ∀ c : Char, c.isDigit = true → p c) (hdash : p '-') :
    customMonthDayPattern.Over p :=
  ⟨over_range (by decide) (by decide) hdigit,
    ⟨over_range (by decide) (by decide) hdigit, hdigit⟩,
    over_lit_pair (hdigit '3' rfl) (hdigit '0' rfl), over_lit_pair (hdigit '3' rfl) (hdigit '1' rfl),
    over_lit_pair hdash (hdigit '1' rfl)⟩

/-! ### Checks -/

theorem forall_of_chkUuid {text : Text} (h : chkUuid text = true)
    (hdigit : ∀ c, isxdigit c = true → p c) (hdash : p '-') : ∀ c ∈ text, p c :=
  (over_uuidRegPattern hdigit hdash).all_mem (chkUuid_iff.mp h)

theorem forall_of_chkName {text : Text} (h : chkName text = true)
    (hname : ∀ c, gvmNameExcluded c = false → p c) : ∀ c ∈ text, p c :=
  (over_gvmNamePattern hname).all_mem (chkName_iff.mp h)

theorem forall_of_chkTimeStamp {text : Text} (h : chkTimeStamp text = true)
    (hdigit : ∀ c : Char, c.isDigit = true → p c) (hmarks : ∀ c ∈ ['-', ' ', ':'], p c) :
    ∀ c ∈ text, p c :=
  (over_customTimeStampPattern hdigit hmarks).all_mem (chkTimeStamp_iff.mp h)

theorem forall_of_chkHosts {text : Text} (h : chkHosts text = true)
    (hdigit : ∀ c : Char, c.isDigit = true → p c) (hmarks : ∀ c ∈ ['.', '/', '-', ','], p c) :
    ∀ c ∈ text, p c :=
  (over_customMatchOrRepeat (over_customIpRangePattern hdigit (hmarks '.' (by simp))
    (hmarks '/' (by simp)) (hmarks '-' (by simp))) (hmarks ',' (by simp))).all_mem
      (chkHosts_iff.mp h)

theorem forall_of_chkConfigInfo {ids names : Text} (h : chkConfigInfo ids names = true)
    (hdigit : ∀ c, isxdigit c = true → p c) (hdash : p '-') (hcomma : p ',')
    (hname : ∀ c, gvmNameExcluded c = false → p c) : (∀ c ∈ ids, p c) ∧ ∀ c ∈ names, p c := by
  obtain ⟨hids, hnames⟩ := chkConfigInfo_iff.mp h
  exact ⟨(over_customMatchOrRepeat (over_uuidRegPattern hdigit hdash) hcomma).all_mem hids,
    (over_customMatchOrRepeat (over_gvmNamePattern hname) hcomma).all_mem hnames⟩

/-- The time and the list of a schedule of a known type. -/
theorem forall_of_chkScheduleParam {type : ℤ} {time list : Text}
    (h : chkScheduleParam type time list = true) (hlow : 0 ≤ type) (hhigh : type ≤ 4)
    (hdigit : ∀ c : Char, c.isDigit = true → p c) (hupper : ∀ c : Char, c.isUpper = true → p c)
    (hmarks : ∀ c ∈ ['-', ',', ' ', ':'], p c) : (∀ c ∈ time, p c) ∧ ∀ c ∈ list, p c := by
  have hempty : ∀ {t : Text}, t.isEmpty = true → ∀ c ∈ t, p c := by
    intro t ht c hc
    rw [List.isEmpty_iff.mp ht] at hc
    simp at hc
  unfold chkScheduleParam at h
  split at h
  · rw [Bool.and_eq_true] at h
    exact ⟨hempty h.1, hempty h.2⟩
  rename_i hnone
  split at h
  swap
  · simp at h
  rename_i htime
  refine ⟨forall_of_chkTimeStamp htime hdigit fun c hc => hmarks c (by simp at hc ⊢; tauto), ?_⟩
  split at h
  · exact hempty h
  rename_i hdaily
  split at h
  · rw [regmatch_wholeMatch] at h
    exact (over_customMatchOrRepeat (over_customWeekDayPattern hupper)
      (hmarks ',' (by simp))).all_mem h
  rename_i hweekly
  split at h
  · rw [regmatch_wholeMatch] at h
    exact (over_customMatchOrRepeat (over_customMonthDayPattern hdigit (hmarks '-' (by simp)))
      (hmarks ',' (by simp))).all_mem h
  · -- a type of 0..4 is one of the known types
    simp only [icalDateNone, icalDateOnce, icalDateDaily, icalDateWeekly, icalDateMonthly,
      not_or] at *
    omega

/-- The time of a schedule is empty or a time stamp. -/
theorem chkScheduleParam_time {type : ℤ} {time list : Text}
    (h : chkScheduleParam type time list = true) :
    time ∈ (customMatchOrNull customTimeStampPattern).lang := by
  unfold chkScheduleParam at h
  rw [customMatchOrNull, mem_lang_opt]
  split at h
  · rw [Bool.and_eq_true] at h
    exact Or.inl (List.isEmpty_iff.mp h.1)
  · split at h
    · rename_i htime
      exact Or.inr (chkTimeStamp_iff.mp htime)
    · simp at h

/-! ### Excluded characters -/

/-- A class of characters that contains none of a list. -/
theorem not_mem_of_all {q : Char → Bool} {bad : List Char} (h : bad.all (fun d => !q d) = true)
    {c : Char} (hc : q c = true) : c ∉ bad := by
  intro hmem
  have hfalse := List.all_eq_true.mp h c hmem
  simp [hc] at hfalse

/-- A class of characters whose complement contains none of a list. -/
theorem not_mem_of_all_false {q : Char → Bool} {bad : List Char} (h : bad.all q = true)
    {c : Char} (hc : q c = false) : c ∉ bad := by
  intro hmem
  have htrue := List.all_eq_true.mp h c hmem
  simp [hc] at htrue

/-! ### The value of a key -/

/-- A text whose characters all match. -/
theorem mem_lang_star_of_chars {r : Regex} {text : Text} (h : ∀ c ∈ text, [c] ∈ r.lang) :
    text ∈ (star r).lang := by
  refine mem_lang_star.mpr ⟨text.map fun c => [c], ?_, ?_⟩
  · induction text with
    | nil => rfl
    | cons c text ih =>
      rw [List.map_cons, List.flatten_cons, ← ih fun d hd => h d (by simp [hd])]
      rfl
  · intro y hy
    obtain ⟨c, hc, rfl⟩ := List.mem_map.mp hy
    exact h c hc

/-- A text without quotes and backslashes is a value of `CUSTOM_COMM_PATTERN`. -/
theorem mem_customCommPattern {text : Text} (h : ∀ c ∈ text, customCommExcluded c = false) :
    text ∈ customCommPattern.lang :=
  mem_lang_star_of_chars fun c hc => mem_lang_ncls.mpr ⟨c, h c hc, rfl⟩

end OpenvasTool
