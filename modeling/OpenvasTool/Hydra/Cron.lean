import OpenvasTool.Gvm.Data

/-!
# Cron entries

The functions of `hydra_business.c` that turn the schedule of a hydra task into
crontab lines, over the time parser of the C library.
-/

namespace OpenvasTool

open Posix

/-! ### `strptime` -/

/-- The digits of a number field of `strptime`: at most `n` digits, and none after which the
number would exceed the largest value. -/
def takeNumber (hi : ℕ) : ℕ → ℕ → Text → ℕ × Text
  | 0, val, text => (val, text)
  | _ + 1, val, [] => (val, [])
  | n + 1, val, c :: text =>
      if c.isDigit && decide (val * 10 ≤ hi) then
        takeNumber hi n (val * 10 + (c.toNat - 48)) text
      else (val, c :: text)

/-- A number field of `strptime`: leading white space, then at least one digit, and a value in the
range. -/
def strptimeNumber (lo hi n : ℕ) (text : Text) : Option (ℕ × Text) :=
  match text.dropWhile isspace with
  | c :: rest =>
      if c.isDigit then
        let r := takeNumber hi (n - 1) (c.toNat - 48) rest
        if lo ≤ r.1 ∧ r.1 ≤ hi then some r else none
      else none
  | [] => none

/-- An ordinary character of the format. -/
def strptimeChar (d : Char) : Text → Option Text
  | c :: rest => if c = d then some rest else none
  | [] => none

/-- `strptime` with `%Y-%m-%d %H:%M:%S`: the time and the text behind it. -/
def strptime (text : Text) : Option (Tm × Text) := do
  let (year, text) ← strptimeNumber 0 9999 4 text
  let text ← strptimeChar '-' text
  let (mon, text) ← strptimeNumber 1 12 2 text
  let text ← strptimeChar '-' text
  let (mday, text) ← strptimeNumber 1 31 2 text
  let (hour, text) ← strptimeNumber 0 23 2 (text.dropWhile isspace)
  let text ← strptimeChar ':' text
  let (min, text) ← strptimeNumber 0 59 2 text
  let text ← strptimeChar ':' text
  let (sec, text) ← strptimeNumber 0 61 2 text
  some (⟨year, mon, mday, hour, min, sec⟩, text)

/-! ### Day lists -/

/-- `WEEK_DAYS`. -/
def weekDays : List Text :=
  ["SUN".toList, "MON".toList, "TUS".toList, "WED".toList, "THU".toList, "FRI".toList,
    "SAT".toList]

/-- The loop of `convWeekDay`, with the text that was written so far. -/
def convWeekDayLoop (maxlen : ℕ) (dst : Text) : Text → Option Text
  | [] => some dst
  | [_] => none
  | a :: b :: rest =>
      match weekDays.find? fun day => day.take 2 == [a, b] with
      | none => none
      | some day =>
          if dst.length + 4 < maxlen then
            match rest with
            | [] => some (dst ++ day)
            | c :: rest =>
                if c = ',' then convWeekDayLoop maxlen (dst ++ day ++ [',']) rest else none
          else none

/-- `convWeekDay`. -/
def convWeekDay (src : Text) (maxlen : ℕ) : Option Text :=
  (convWeekDayLoop maxlen [] src).filter fun dst =>
    decide (0 < dst.length) && decide (dst.length < maxlen)

/-- `convMonthDay`: the days in front of `-1`, and whether there is a `-1`. -/
def convMonthDay (src : Text) (maxlen : ℕ) : Option (Bool × Text) :=
  match strstr "-1".toList src with
  | some (before, _) =>
      if before.length < maxlen then
        some (true, if before.getLast? = some ',' then before.dropLast else before)
      else none
  | none => if 0 < src.length ∧ src.length < maxlen then some (false, src) else none

/-! ### Lines -/

/-- `CRON_USER_NAME`. -/
def cronUserName : Text := "root".toList

/-- `CRON_LAST_MONTHDAY_CMD_PATT`. -/
def cronLastMonthdayCmdPatt : Text := "[ \x60date -d tomorrow +\\%e\x60 -eq 1 ]".toList

/-- A crontab line: the five time fields, the user and the command. -/
def cronLine (fields : List Text) (user cmd : Text) : Text :=
  fields.flatMap (fun f => f ++ " ".toList) ++ user ++ " ".toList ++ cmd ++ "\n".toList

/-- A command in the background, without output. -/
def quietly (cmd : Text) : Text := cmd ++ " >/dev/null&".toList

/-- The lines that `formatCronTask` prints into an unbounded buffer. -/
def cronLines (type : ℤ) (tm : Tm) (scheduleList user cmd : Text) : Option (List Text) :=
  let time := [decimal tm.min, decimal tm.hour]
  let any := "*".toList
  if type = icalDateOnce then
    some [cronLine (time ++ [decimal tm.mday, decimal tm.mon, any]) user (quietly cmd)]
  else if type = icalDateDaily then some [cronLine (time ++ [any, any, any]) user (quietly cmd)]
  else if type = icalDateWeekly then
    (convWeekDay scheduleList maxCommSize).map fun list =>
      [cronLine (time ++ [any, any, list]) user (quietly cmd)]
  else if type = icalDateMonthly then
    (convMonthDay scheduleList maxCommSize).map fun r =>
      (if r.2.isEmpty then [] else [cronLine (time ++ [r.2, any, any]) user (quietly cmd)]) ++
        if r.1 then
          [cronLine (time ++ ["28-31".toList, any, any]) user
            (cronLastMonthdayCmdPatt ++ " && (".toList ++ quietly cmd ++ ")".toList)]
        else []
  else none

/-- Print the lines one behind the other into a buffer of this capacity. -/
def printLines (capacity : ℕ) (lines : List Text) : Option Text :=
  lines.foldlM (fun buf line =>
    if line.length < capacity - buf.length then some (buf ++ line) else none) []

/-- `formatCronTask`. -/
def formatCronTask (capacity : ℕ) (type : ℤ) (timestamp scheduleList user cmd : Text) :
    Option Text :=
  match strptime timestamp with
  | some (tm, []) => (cronLines type tm scheduleList user cmd).bind (printLines capacity)
  | _ => none

end OpenvasTool
