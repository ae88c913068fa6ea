import OpenvasTool.Base

/-!
# Checks and extractions

The text checks of `task_openvas.c` that client and daemon share, the lookup of
a key in a record, and the extraction of identifiers from answers. A check
function is `true` where the C function returns 0.
-/

namespace OpenvasTool

open Posix Posix.Regex

/-! ### Schedule types -/

/-- `ICAL_DATE_NONE`, ..., `ICAL_DATE_MONTHLY`, as the integers that requests and files carry. -/
abbrev icalDateNone : ℤ := 0
abbrev icalDateOnce : ℤ := 1
abbrev icalDateDaily : ℤ := 2
abbrev icalDateWeekly : ℤ := 3
abbrev icalDateMonthly : ℤ := 4

/-! ### Checks -/

/-- `regmatch`. -/
def regmatch (text : Text) (pattern : Pattern) : Bool := (pattern.regexec text).isSome

/-- `chkUuid`. -/
def chkUuid (text : Text) : Bool := regmatch text (customWholeMatch uuidRegPattern)

/-- `chkHosts`. -/
def chkHosts (text : Text) : Bool := regmatch text customWholeMatchIpsNormal

/-- `chkHostsExt`. -/
def chkHostsExt (text : Text) : Bool := regmatch text customWholeMatchIpsEx

/-- `chkName`. -/
def chkName (text : Text) : Bool := regmatch text (customWholeMatch gvmNamePattern)

/-- `chkTimeStamp`. -/
def chkTimeStamp (text : Text) : Bool := regmatch text (customWholeMatch customTimeStampPattern)

/-- `chkConfigInfo`. -/
def chkConfigInfo (ids names : Text) : Bool :=
  regmatch ids (customWholeMatch (customMatchOrRepeat uuidRegPattern)) &&
    regmatch names (customWholeMatch (customMatchOrRepeat gvmNamePattern))

/-- `isMultiUuid`: the pattern is not anchored. -/
def isMultiUuid (ids : Text) : Bool :=
  regmatch ids
    ⟨false, [.plain (seq uuidRegPattern (plus (seq (chr ',') uuidRegPattern)))], false, false⟩

/-- `chkScheduleParam`: a type outside the known ones only needs a time stamp. -/
def chkScheduleParam (type : ℤ) (scheduleTime scheduleList : Text) : Bool :=
  if type = icalDateNone then scheduleTime.isEmpty && scheduleList.isEmpty
  else if chkTimeStamp scheduleTime then
    if type = icalDateOnce ∨ type = icalDateDaily then scheduleList.isEmpty
    else if type = icalDateWeekly then
      regmatch scheduleList (customWholeMatch (customMatchOrRepeat customWeekDayPattern))
    else if type = icalDateMonthly then
      regmatch scheduleList (customWholeMatch (customMatchOrRepeat customMonthDayPattern))
    else true
  else false

/-! ### Records -/

/-- The pattern that `getPatternKey` compiles with `REG_NEWLINE`: one line `key="value"`. -/
def keyPattern (key : Text) (pattern : Regex) : Pattern :=
  ⟨true, [.plain (lit (key ++ "=\"".toList)), .group pattern.regNewline,
    .plain (lit "\"".toList)], true, true⟩

/-- `getPatternKey`, for a buffer of `n` bytes. -/
def getPatternKey (text key : Text) (pattern : Regex) (n : ℕ) : Option (CStr n) :=
  match (keyPattern key pattern).regexec text with
  | some [val] => CStr.ofText n val
  | _ => none

/-- `getPatternKeyInt`. -/
def getPatternKeyInt (text key : Text) (pattern : Regex) : Option ℤ :=
  match getPatternKey text key pattern maxCommMinSize with
  | none => none
  | some buf =>
      match buf.text with
      | c :: _ => if c.isDigit then some (atoi buf.text) else none
      | [] => none

/-! ### Answers of gvmd -/

/-- `chkRspStatusOk`: 0 for a status 2xx, 1 for another format, 2 for another status. -/
def chkRspStatusOk (cmd text : Text) : ℤ :=
  match Pattern.regexec ⟨true, [.plain (lit ("<".toList ++ cmd ++ "_response status=\"".toList)),
      .group (times digit 3), .plain (lit "\" ".toList)], false, false⟩ text with
  | some [val] => if val.head? = some '2' then 0 else 2
  | _ => 1

/-- The only reported group of an unanchored pattern, for a buffer of `n` bytes. -/
def extractGroup (parts : List Part) (text : Text) (n : ℕ) : Option (CStr n) :=
  match Pattern.regexec ⟨false, parts, false, false⟩ text with
  | some [val] => CStr.ofText n val
  | _ => none

/-- `extractTagUuid`: the identifier in the element `tag`. -/
def extractTagUuid (text tag : Text) (n : ℕ) : Option (CStr n) :=
  extractGroup [.plain (lit ("<".toList ++ tag ++ ">".toList)), .group uuidRegPattern,
    .plain (lit ("</".toList ++ tag ++ ">".toList))] text n

/-- `extractAttrUuid`: the attribute `id` of a successful answer, `DEF_XML_OK_RSP_MARK`. -/
def extractAttrUuid (text tag : Text) (n : ℕ) : Option (CStr n) :=
  extractGroup [.plain (seqs [lit ("<".toList ++ tag ++ " status=\"20".toList), digit,
      lit "\" status_text=\"".toList, star (ncls fun c => "\">".toList.contains c),
      lit "\" id=\"".toList]), .group uuidRegPattern,
    .plain (seqs [lit "\"".toList, opt (chr '/'), chr '>'])] text n

/-! ### What the checks accept -/

theorem regmatch_wholeMatch {text : Text} {r : Regex} :
    regmatch text (customWholeMatch r) = true ↔ text ∈ r.lang := Pattern.regexec_whole

theorem chkUuid_iff {text : Text} : chkUuid text = true ↔ text ∈ uuidRegPattern.lang :=
  regmatch_wholeMatch

theorem chkName_iff {text : Text} : chkName text = true ↔ text ∈ gvmNamePattern.lang :=
  regmatch_wholeMatch

theorem chkTimeStamp_iff {text : Text} :
    chkTimeStamp text = true ↔ text ∈ customTimeStampPattern.lang := regmatch_wholeMatch

theorem chkHosts_iff {text : Text} :
    chkHosts text = true ↔ text ∈ (customMatchOrRepeat customIpRangePattern).lang :=
  regmatch_wholeMatch

theorem chkHostsExt_iff {text : Text} :
    chkHostsExt text = true ↔ text ∈ (customMatchOrRepeatEx customIpRangePattern).lang :=
  regmatch_wholeMatch

theorem chkConfigInfo_iff {ids names : Text} :
    chkConfigInfo ids names = true ↔ ids ∈ (customMatchOrRepeat uuidRegPattern).lang ∧
      names ∈ (customMatchOrRepeat gvmNamePattern).lang := by
  simp only [chkConfigInfo, Bool.and_eq_true, regmatch_wholeMatch]

/-- The value of a key is in the language of its expression. -/
theorem getPatternKey_mem {text key : Text} {r : Regex} {n : ℕ} {val : CStr n}
    (h : getPatternKey text key r n = some val) : val.text ∈ r.regNewline.lang := by
  unfold getPatternKey at h
  split at h
  · rename_i caps hcaps
    obtain ⟨_, t, _, u, _, hm, _⟩ := Pattern.search_mem hcaps
    obtain ⟨w, _, s, _, v, hv, s', rest, _, hrest, w', _, s'', _, hnil, _⟩ :=
      (Pattern.mem_matchesAt.mp hm).2.1
    subst hnil
    simp only [List.cons.injEq, and_true] at hrest
    rw [CStr.ofText_eq_some.mp h, hrest]
    exact hv
  · simp at h

/-- The text that a group pattern extracts is in the language of the group. -/
theorem extractGroup_mem {before after r : Regex} {text : Text} {n : ℕ} {val : CStr n}
    (h : extractGroup [.plain before, .group r, .plain after] text n = some val) :
    val.text ∈ r.lang := by
  unfold extractGroup at h
  split at h
  · rename_i caps hcaps
    obtain ⟨_, t, _, u, _, hm, _⟩ := Pattern.search_mem hcaps
    obtain ⟨w, _, s, _, v, hv, s', rest, _, hrest, w', _, s'', _, hnil, _⟩ :=
      (Pattern.mem_matchesAt.mp hm).2.1
    subst hnil
    simp only [List.cons.injEq, and_true] at hrest
    rw [CStr.ofText_eq_some.mp h, hrest]
    exact hv
  · simp at h

theorem chkUuid_of_extractAttrUuid {text tag : Text} {n : ℕ} {uuid : CStr n}
    (h : extractAttrUuid text tag n = some uuid) : chkUuid uuid.text = true :=
  chkUuid_iff.mpr (extractGroup_mem h)

/-! ### The characters of identifiers and time stamps -/

theorem over_uuidRegPattern {p : Char → Prop} (hdigit : ∀ c, isxdigit c = true → p c)
    (hdash : p '-') : uuidRegPattern.Over p := by
  have hchr : ∀ c : Char, (c == '-') = true → p c := fun c hc => by
    obtain rfl := beq_iff_eq.mp hc
    exact hdash
  exact ⟨hdigit, hchr, hdigit, hchr, hdigit, hchr, hdigit, hchr, hdigit⟩

theorem over_customTimeStampPattern {p : Char → Prop} (hdigit : ∀ c : Char, c.isDigit = true → p c)
    (hmarks : ∀ c ∈ ['-', ' ', ':'], p c) : customTimeStampPattern.Over p := by
  have hchr : ∀ d ∈ ['-', ' ', ':'], ∀ c : Char, (c == d) = true → p c := fun d hd c hc => by
    obtain rfl := beq_iff_eq.mp hc
    exact hmarks c hd
  have hdash := hchr '-' (by simp)
  have hspace := hchr ' ' (by simp)
  have hcolon := hchr ':' (by simp)
  exact ⟨hdigit, hdash, hdigit, hdash, hdigit, hspace, hdigit, hcolon, hdigit, hcolon, hdigit⟩

/-- An identifier is not empty and stays on one line. -/
theorem mem_uuidRegPattern {text : Text} (h : text ∈ uuidRegPattern.lang) :
    text ≠ [] ∧ '\n' ∉ text := by
  constructor
  · rintro rfl
    rw [← Regex.accepts_iff] at h
    exact absurd h (by decide)
  · intro hmem
    have hover := (over_uuidRegPattern (p := (· ≠ '\n')) (fun c hc => by
      rintro rfl
      exact absurd hc (by decide)) (by decide)).all_mem h
    exact hover _ hmem rfl

/-- A time stamp stays on one line. -/
theorem newline_not_mem_timeStamp {text : Text} (h : text ∈ customTimeStampPattern.lang) :
    '\n' ∉ text := by
  intro hmem
  have hover := (over_customTimeStampPattern (p := (· ≠ '\n')) (fun c hc => by
    rintro rfl
    exact absurd hc (by decide)) (by simp)).all_mem h
  exact hover _ hmem rfl

/-- Of comma separated identifiers there are several exactly if there is a comma. -/
theorem isMultiUuid_iff {ids : Text} (h : ids ∈ (customMatchOrRepeat uuidRegPattern).lang) :
    isMultiUuid ids = true ↔ ',' ∈ ids := by
  unfold isMultiUuid regmatch
  rw [Pattern.regexec_infix]
  constructor
  · rintro ⟨w, hw, hinfix⟩
    obtain ⟨_, _, v, hv, rfl⟩ := mem_lang_seq.mp hw
    obtain ⟨x, hx, _, _, rfl⟩ := mem_lang_seq.mp hv
    obtain ⟨y, ⟨c, hc, rfl⟩, _, _, rfl⟩ := mem_lang_seq.mp hx
    obtain rfl := beq_iff_eq.mp hc
    exact hinfix.subset (by simp)
  · intro hcomma
    obtain ⟨u, hu, v, hv, rfl⟩ := mem_lang_seq.mp h
    obtain ⟨S, rfl, hS⟩ := mem_lang_star.mp hv
    have hfree : ',' ∉ u := by
      intro hmem
      have hover : uuidRegPattern.Over (· ≠ ',') := over_uuidRegPattern (fun c hc => by
        rintro rfl
        exact absurd hc (by decide)) (by decide)
      exact hover.all_mem hu _ hmem rfl
    cases S with
    | nil =>
      rw [List.flatten_nil, List.append_nil] at hcomma
      exact absurd hcomma hfree
    | cons x S =>
      have hplus : x ++ S.flatten ∈ (plus (seq (chr ',') uuidRegPattern)).lang :=
        mem_lang_seq.mpr ⟨x, hS x (by simp), S.flatten,
          mem_lang_star.mpr ⟨S, rfl, fun y hy => hS y (by simp [hy])⟩, rfl⟩
      exact ⟨u ++ (x ++ S.flatten), mem_lang_seq.mpr ⟨u, hu, _, hplus, rfl⟩, by simp⟩

end OpenvasTool
