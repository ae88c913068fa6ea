import OpenvasTool.Posix.Regexec
import OpenvasTool.Posix.CString

/-!
# Constants and patterns

The sizes, the delimiter, the record marks and the regular expressions of
`base_openvas.h`. A pattern macro becomes the syntax tree of its expression.
-/

namespace OpenvasTool

open Posix Posix.Regex

/-! ### Sizes -/

def maxCacheSize : ℕ := 0x1000000
def maxTaskFileSize : ℕ := 0xA00000

abbrev maxUuidSize : ℕ := 64
abbrev maxNameSize : ℕ := 64
abbrev maxCommSize : ℕ := 256
abbrev maxCommMinSize : ℕ := 32
abbrev maxTimestampSize : ℕ := 32
abbrev maxFilenamePathSize : ℕ := 256
abbrev maxScheduleListSize : ℕ := 256
abbrev maxMemListSize : ℕ := 4096
abbrev maxNvtNameSize : ℕ := 256

/-- The conversion of a buffer size to `int`. -/
def intOfSize (size : ℕ) : ℤ := Int.bmod size (2 ^ 32)

theorem intOfSize_bounds (size : ℕ) : intOfSize size ≤ size ∧ intOfSize size < 2 ^ 31 := by
  have hdiv := Int.bmod_add_bdiv (size : ℤ) (2 ^ 32)
  have hlow := Int.le_bmod (x := (size : ℤ)) (m := 2 ^ 32) (Nat.two_pow_pos 32)
  have hhigh := Int.bmod_lt (x := (size : ℤ)) (m := 2 ^ 32) (Nat.two_pow_pos 32)
  simp only [Nat.cast_pow, Nat.cast_ofNat] at hdiv hlow hhigh
  unfold intOfSize
  constructor <;> omega

/-- The sizes of all buffers that the program allocates are below this bound. -/
theorem intOfSize_of_lt {size : ℕ} (h : size < 2 ^ 31) : intOfSize size = size := by
  apply Int.bmod_eq_of_le <;> omega

/-- What is left of a buffer behind bytes that fit. -/
theorem intOfSize_sub {size n : ℕ} (h : n ≤ intOfSize size) :
    intOfSize (size - n) = intOfSize size - n := by
  have hbounds := intOfSize_bounds size
  have hle : n ≤ size := by omega
  have hsub : intOfSize (size - n) = Int.bmod (intOfSize size - n) (2 ^ 32) := by
    unfold intOfSize
    rw [Int.bmod_sub_bmod, ← Nat.cast_sub hle]
  rw [hsub]
  exact Int.bmod_eq_of_le (by omega) (by omega)

@[simp] theorem intOfSize_maxCacheSize : intOfSize maxCacheSize = maxCacheSize :=
  intOfSize_of_lt (by decide)

/-- What fits a work buffer. -/
theorem lt_intOfSize_maxCacheSize {n : ℕ} (h : n < maxCacheSize) : n < intOfSize maxCacheSize := by
  rwa [intOfSize_maxCacheSize, Nat.cast_lt]

/-! ### Fixed texts -/

/-- `OPENVAS_KB_DELIM`. -/
def openvasKbDelim : Char := '\x01'

/-- `OPENVAS_MSG_NAME`. -/
def openvasMsgName : Text := "openvas_msg_id".toList

/-- `TASK_INFO_BEG_MARK`. -/
def taskInfoBegMark : Text := "\n==========begin========\n".toList

/-- `TASK_INFO_END_MARK`. -/
def taskInfoEndMark : Text := "\n==========end==========\n".toList

/-- `DEF_OPENVAS_PORT_LIST_ID`. -/
def defOpenvasPortListId : CStr maxUuidSize :=
  ⟨"00000001-0000-0000-0000-000000000000".toList, by decide, by decide⟩

/-! ### Patterns -/

/-- `[[:xdigit:]]`. -/
def xdigit : Regex := cls isxdigit

/-- `[0-9]`. -/
def digit : Regex := cls Char.isDigit

/-- A single literal character. -/
def chr (c : Char) : Regex := cls (· == c)

/-- `UUID_REG_PATTERN`. -/
def uuidRegPattern : Regex :=
  seqs [times xdigit 8, chr '-', times xdigit 4, chr '-', times xdigit 4, chr '-',
    times xdigit 4, chr '-', times xdigit 12]

/-- The characters that `GVM_NAME_PATTERN` excludes. -/
def gvmNameExcluded (c : Char) : Bool :=
  "\\/#|'~`!^$,:;?\"&*%<>".toList.contains c || isspace c

/-- `GVM_NAME_PATTERN`. -/
def gvmNamePattern : Regex := rep (ncls gvmNameExcluded) 1 128

/-- The characters that `CUSTOM_COMM_PATTERN` excludes. -/
def customCommExcluded (c : Char) : Bool := "\\'`\"".toList.contains c

/-- `CUSTOM_COMM_PATTERN`. -/
def customCommPattern : Regex := star (ncls customCommExcluded)

/-- `CUSTOM_SCHEDULE_TYPE_PATTERN`. -/
def customScheduleTypePattern : Regex := digit

/-- `CUSTOM_ON_OFF_PATTERN`. -/
def customOnOffPattern : Regex := cls fun c => c == '0' || c == '1'

/-- `CUSTOM_DIGIT_NUM_PATTERN`. -/
def customDigitNumPattern : Regex := rep digit 1 3

/-- `CUSTOM_PORT_PATTERN`. -/
def customPortPattern : Regex :=
  alts (seqs [opt (range '1' '5'), rep digit 1 4])
    [seqs [chr '6', range '0' '4', times digit 3],
     seqs [lit "65".toList, range '0' '4', times digit 2],
     seqs [lit "655".toList, cls fun c => "012".toList.contains c, digit],
     seqs [lit "6553".toList, range '0' '5']]

/-- `CUSTOM_SERVICES_PATTERN`. -/
def customServicesPattern : Regex := star (cls fun c => c == '-' || c.isAlphanum || c == ',')

/-- `CUSTOM_TIME_STAMP_PATTERN`. -/
def customTimeStampPattern : Regex :=
  seqs [times digit 4, chr '-', times digit 2, chr '-', times digit 2, chr ' ',
    times digit 2, chr ':', times digit 2, chr ':', times digit 2]

/-- `CUSTOM_WEEK_DAY_PATTERN`. -/
def customWeekDayPattern : Regex :=
  alts (lit "MO".toList) [lit "TU".toList, lit "WE".toList, lit "TH".toList, lit "FR".toList,
    lit "SA".toList, lit "SU".toList]

/-- `CUSTOM_MONTH_DAY_PATTERN`. -/
def customMonthDayPattern : Regex :=
  alts (range '1' '9') [seqs [range '1' '2', digit], lit "30".toList, lit "31".toList,
    lit "-1".toList]

/-- `CUSTOM_IP_NUM`. -/
def customIpNum : Regex :=
  alts digit [seqs [range '1' '9', digit], seqs [chr '1', digit, digit],
    seqs [chr '2', range '0' '4', digit], seqs [lit "25".toList, range '0' '5']]

/-- `CUSTOM_IP_PATTERN`. -/
def customIpPattern : Regex := seqs [customIpNum, times (seqs [chr '.', customIpNum]) 3]

/-- `CUSTOM_IP_RANGE_PATTERN`. -/
def customIpRangePattern : Regex :=
  alts customIpPattern
    [seqs [customIpPattern, chr '/', rep digit 1 2],
     seqs [customIpPattern, chr '-', customIpPattern],
     seqs [customIpPattern, chr '-', rep digit 1 3]]

/-- `CUSTOM_IP_BLOCK`. -/
def customIpBlock : Regex :=
  seqs [customIpPattern, chr '/',
    alts (seqs [chr '1', range '6' '9']) [seqs [chr '2', digit], lit "30".toList, lit "31".toList]]

/-- `CUSTOM_MATCH_OR_NULL`. -/
def customMatchOrNull (x : Regex) : Regex := opt x

/-- `CUSTOM_MATCH_OR_REPEAT`. -/
def customMatchOrRepeat (x : Regex) : Regex := seq x (star (seq (chr ',') x))

/-- `CUSTOM_MATCH_OR_REPEAT_EX`. -/
def customMatchOrRepeatEx (x : Regex) : Regex :=
  seq x (star (seq (plus (cls fun c => c == ',' || isspace c)) x))

/-- `CUSTOM_HOST_OR_PORT`. -/
def customHostOrPort (x : Regex) : Regex := seq x (opt (seq (chr ':') customPortPattern))

/-- `CUSTOM_WHOLE_MATCH`. -/
def customWholeMatch (x : Regex) : Pattern := Pattern.whole x

/-- `CUSTOM_WHOLE_MATCH_IPS_EX`. -/
def customWholeMatchIpsEx : Pattern := customWholeMatch (customMatchOrRepeatEx customIpRangePattern)

/-- `CUSTOM_WHOLE_MATCH_IPS_NORMAL`. -/
def customWholeMatchIpsNormal : Pattern :=
  customWholeMatch (customMatchOrRepeat customIpRangePattern)

/-- `CUSTOM_WHOLE_MATCH_IP_LIST`. -/
def customWholeMatchIpList : Pattern :=
  customWholeMatch (customMatchOrRepeatEx (customHostOrPort customIpPattern))

/-- `CUSTOM_WHOLE_MATCH_IP_LIST_INTERN`. -/
def customWholeMatchIpListIntern : Pattern :=
  customWholeMatch (customMatchOrRepeat (customHostOrPort customIpPattern))

/-- `CUSTOM_WHOLE_MATCH_IP_BLOCK`. -/
def customWholeMatchIpBlock : Pattern := customWholeMatch (customHostOrPort customIpBlock)

end OpenvasTool
