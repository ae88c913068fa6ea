import OpenvasTool.Gvm.Requests
import OpenvasTool.Alphabets
import OpenvasTool.Posix.Shell

/-!
# The command line of gvm-cli

A request is formatted as XML into one work buffer, its double quotes are
escaped into the other one, and the result becomes an argument of a command
that a shell runs. Whatever the capacities of the buffers are, the shell reads
the complete XML text as one argument, or nothing is run at all.
-/

namespace OpenvasTool

open Posix Posix.Shell

/-! ### The XML texts -/

/-- The preferences of a new task. -/
def createTaskPreferences : Text :=
  "<preferences>".toList ++
    "<preference>".toList ++
    "<scanner_name>auto_delete</scanner_name>".toList ++
    "<value>keep</value>".toList ++
    "</preference>".toList ++
    "<preference>".toList ++
    "<scanner_name>auto_delete_data</scanner_name>".toList ++
    "<value>5</value>".toList ++
    "</preference>".toList ++
    "</preferences>".toList ++
    "</create_task>".toList

/-- The text of a new schedule up to its start. -/
def createScheduleHead : Text :=
  "</name>".toList ++
    "<timezone>UTC</timezone><icalendar>".toList ++
    "BEGIN:VCALENDAR\r\n".toList ++
    "VERSION:2.0\r\n".toList ++
    "PRODID:-//Greenbone.net//NONSGML Greenbone Security Manager 21.4.3//EN\r\n".toList ++
    "BEGIN:VEVENT\r\n".toList ++
    "DTSTART;TZID=UTC:".toList

/-- The text of a new schedule behind its rule. -/
def createScheduleTail : Text :=
  "END:VEVENT\r\n".toList ++
    "END:VCALENDAR\r\n".toList ++
    "</icalendar></create_schedule>".toList

/-- The XML text of a request, as the formats `REQ_GVM_*` define it. -/
def GvmRequest.xml : GvmRequest → Text
  | getVersion => "<get_version/>".toList
  | startTask taskId => "<start_task task_id=\"".toList ++ taskId ++ "\"/>".toList
  | stopTask taskId => "<stop_task task_id=\"".toList ++ taskId ++ "\"/>".toList
  | getReports reportId =>
      "<get_reports report_id=\"".toList ++ reportId ++ "\" details=\"0\"/>".toList
  | getTasks taskId =>
      "<get_tasks task_id=\"".toList ++ taskId ++ "\" details=\"0\" usage_type=\"scan\"/>".toList
  | getResults taskId reportId first rows =>
      "<get_results task_id=\"".toList ++ taskId ++ "\" filter=\"report_id=".toList ++ reportId ++
        " levels=hml first=".toList ++ decimal first ++ " rows=".toList ++ decimal rows ++
        "\"/>".toList
  | createTarget name hosts portlist =>
      "<create_target><name>wEb_".toList ++ name ++ "</name><hosts>".toList ++ hosts ++
        "</hosts><port_list id=\"".toList ++ portlist ++ "\"/></create_target>".toList
  | createTask name target config schedule =>
      "<create_task><name>wEb_".toList ++ name ++ "</name><target id=\"".toList ++ target ++
        "\"/><config id=\"".toList ++ config ++ "\"/>".toList ++
        (if schedule = [] then [] else "<schedule id=\"".toList ++ schedule ++ "\"/>".toList) ++
        createTaskPreferences
  | createSchedule name firstRun rule =>
      "<create_schedule><name>wEb_".toList ++ name ++ createScheduleHead ++ firstRun ++
        "\r\nDURATION:PT0S\r\n".toList ++ rule ++ createScheduleTail
  | createConfig name groupName groupId =>
      "<create_config><name>wEb_".toList ++ name ++ "</name><comment>".toList ++ groupName ++
        "</comment><usage_type>scan</usage_type><multi_copy>".toList ++ groupId ++
        "</multi_copy></create_config>".toList
  | deleteTask taskId => "<delete_task task_id=\"".toList ++ taskId ++ "\"/>".toList
  | deleteTarget targetId => "<delete_target target_id=\"".toList ++ targetId ++ "\"/>".toList
  | deleteSchedule scheduleId =>
      "<delete_schedule schedule_id=\"".toList ++ scheduleId ++ "\"/>".toList
  | deleteConfig configId => "<delete_config config_id=\"".toList ++ configId ++ "\"/>".toList

/-! ### Work buffers -/

/-- A work buffer: its capacity and the text it holds. -/
structure KbBuf where
  capacity : ℕ
  text : Text

/-- The text that `snprintf` leaves in a buffer that held `old`. -/
def snprintfText (size : ℕ) (old text : Text) : Text :=
  if size = 0 then old else text.take (size - 1)

/-- The value of `snprintf`: the whole length, or -1 where it is no `int`. -/
def snprintfCount (text : Text) : ℤ := if text.length < 2 ^ 31 then text.length else -1

/-- Format a text into a buffer. -/
def KbBuf.format (buf : KbBuf) (size : ℕ) (text : Text) : KbBuf :=
  { buf with text := snprintfText size buf.text text }

/-! ### Escaping -/

/-- The loop of `escapeXml`, on the rest of the text and with `cnt` characters written. -/
def escapeXmlLoop (maxlen cnt : ℤ) : Text → Option Text
  | [] => if 0 < cnt then some [] else none
  | c :: xml =>
      if cnt < maxlen - 1 then
        if c = '"' then
          if cnt < maxlen - 2 then
            (escapeXmlLoop maxlen (cnt + 2) xml).map fun out => '\\' :: '"' :: out
          else none
        else (escapeXmlLoop maxlen (cnt + 1) xml).map fun out => c :: out
      else none

/-- `escapeXml`: put a backslash before each double quote, if the result fits. -/
def escapeXml (xml : Text) (maxlen : ℤ) : Option Text := escapeXmlLoop maxlen 0 xml

theorem escapeXmlLoop_eq_some {xml out : Text} {maxlen cnt : ℤ}
    (h : escapeXmlLoop maxlen cnt xml = some out) : out = escapeQuotes xml := by
  induction xml generalizing cnt out with
  | nil =>
    simp only [escapeXmlLoop, Option.ite_none_right_eq_some, Option.some.injEq] at h
    exact h.2.symm
  | cons c xml ih =>
    rw [escapeQuotes_cons]
    rw [escapeXmlLoop] at h
    split at h
    swap
    · simp at h
    split at h
    · rename_i hquote
      split at h
      · obtain ⟨rest, hrest, rfl⟩ := Option.map_eq_some_iff.mp h
        rw [if_pos hquote, ih hrest]
        rfl
      · simp at h
    · rename_i hquote
      obtain ⟨rest, hrest, rfl⟩ := Option.map_eq_some_iff.mp h
      rw [if_neg hquote, ih hrest]
      rfl

/-- An escaped text is the whole text. -/
theorem escapeXml_eq_some {xml out : Text} {maxlen : ℤ} (h : escapeXml xml maxlen = some out) :
    out = escapeQuotes xml := escapeXmlLoop_eq_some h

theorem escapeXmlLoop_fits {xml : Text} {maxlen cnt : ℤ} (hcnt : 0 ≤ cnt)
    (hpos : 0 < cnt ∨ xml ≠ []) (hfits : cnt + (escapeQuotes xml).length < maxlen) :
    escapeXmlLoop maxlen cnt xml = some (escapeQuotes xml) := by
  induction xml generalizing cnt with
  | nil =>
    have hlt : 0 < cnt := by simpa using hpos
    rw [escapeXmlLoop, if_pos hlt, escapeQuotes_nil]
  | cons c xml ih =>
    rw [escapeQuotes_cons, List.length_append, Nat.cast_add] at hfits
    rw [escapeQuotes_cons, escapeXmlLoop]
    by_cases hquote : c = '"'
    · rw [if_pos hquote, List.length_cons, List.length_singleton] at hfits
      push_cast at hfits
      rw [if_pos (by omega), if_pos hquote, if_pos (by omega), if_pos hquote,
        ih (by omega) (Or.inl (by omega)) (by omega)]
      rfl
    · rw [if_neg hquote, List.length_singleton] at hfits
      push_cast at hfits
      rw [if_pos (by omega), if_neg hquote, if_neg hquote,
        ih (by omega) (Or.inl (by omega)) (by omega)]
      rfl

/-! ### Running gvm-cli -/

/-- The command line before the XML text, with the opening quote. -/
def gvmCmdHead : Text :=
  "/usr/local/openvas/python/bin/gvm-cli".toList ++
    " --timeout 5".toList ++
    " --gmp-username admin --gmp-password 123456".toList ++
    " tls --xml \"".toList

/-- The command line behind the XML text. -/
def gvmCmdTail : Text := "\" 2>&1 </dev/null".toList

/-- `GVM_CMD_MARK`, with the escaped text in it. -/
def gvmCmdMark (escaped : Text) : Text := gvmCmdHead ++ escaped ++ gvmCmdTail

/-- The return value of `procGvmTask`, and the string that `popen` got, if it was called. -/
structure GvmRun where
  code : ℤ
  popened : Option Text

/-- `procGvmTask` with its two work buffers; the request is in the first one. The parameter
`popen` is the output of a command line, or `none` when the process cannot be started. -/
def procGvmTaskBuf (popen : Text → Option Text) (cmd : Text) (cmdbuf outbuf : KbBuf) : GvmRun :=
  match escapeXml cmdbuf.text (intOfSize outbuf.capacity) with
  | none => ⟨-1, none⟩
  | some escaped =>
      let left := intOfSize cmdbuf.capacity
      let cnt := snprintfCount (gvmCmdMark escaped)
      if 0 < cnt ∧ cnt < left then
        let line := (cmdbuf.format (left % 2 ^ 64).toNat (gvmCmdMark escaped)).text
        { code :=
            match popen line with
            | none => -1
            | some output =>
                chkRspStatusOk cmd (cstring (output.take (intOfSize outbuf.capacity).toNat))
          popened := some line }
      else ⟨-1, none⟩

/-- A function `gvm_*` formats its request into the first buffer and calls `procGvmTask`. -/
def sendGvmRequest (popen : Text → Option Text) (req : GvmRequest) (tmpbuf outbuf : KbBuf) :
    GvmRun :=
  procGvmTaskBuf popen req.cmd (tmpbuf.format tmpbuf.capacity req.xml) outbuf

theorem snprintfText_of_lt {size : ℕ} {old text : Text} (h : text.length < size) :
    snprintfText size old text = text := by
  rw [snprintfText, if_neg (by omega)]
  apply List.take_of_length_le
  omega

/-- `procGvmTask` runs nothing, or the command line with the whole escaped text. -/
theorem procGvmTaskBuf_cases (popen : Text → Option Text) (cmd : Text) (cmdbuf outbuf : KbBuf) :
    ((procGvmTaskBuf popen cmd cmdbuf outbuf).code = -1 ∧
        (procGvmTaskBuf popen cmd cmdbuf outbuf).popened = none) ∨
      (((gvmCmdMark (escapeQuotes cmdbuf.text)).length : ℤ) < intOfSize cmdbuf.capacity ∧
        (procGvmTaskBuf popen cmd cmdbuf outbuf).popened =
          some (gvmCmdMark (escapeQuotes cmdbuf.text))) := by
  unfold procGvmTaskBuf
  split
  · exact Or.inl ⟨rfl, rfl⟩
  rename_i escaped hescaped
  obtain rfl := escapeXml_eq_some hescaped
  dsimp only
  split
  swap
  · exact Or.inl ⟨rfl, rfl⟩
  rename_i hcnt
  obtain ⟨hpos, hleft⟩ := hcnt
  right
  have hcount : snprintfCount (gvmCmdMark (escapeQuotes cmdbuf.text)) =
      (gvmCmdMark (escapeQuotes cmdbuf.text)).length := by
    unfold snprintfCount at hpos ⊢
    split at hpos
    · rename_i hint
      rw [if_pos hint]
    · omega
  rw [hcount] at hleft
  refine ⟨hleft, ?_⟩
  have hhigh := (intOfSize_bounds cmdbuf.capacity).2
  have hmod : intOfSize cmdbuf.capacity % 2 ^ 64 = intOfSize cmdbuf.capacity := by
    apply Int.emod_eq_of_lt <;> omega
  rw [KbBuf.format, hmod, snprintfText_of_lt (by omega)]

/-- The text in the first buffer is complete when a command is run for it. -/
theorem sendGvmRequest_cases (popen : Text → Option Text) (req : GvmRequest)
    (tmpbuf outbuf : KbBuf) :
    ((sendGvmRequest popen req tmpbuf outbuf).code = -1 ∧
        (sendGvmRequest popen req tmpbuf outbuf).popened = none) ∨
      (sendGvmRequest popen req tmpbuf outbuf).popened =
        some (gvmCmdMark (escapeQuotes req.xml)) := by
  unfold sendGvmRequest
  rcases procGvmTaskBuf_cases popen req.cmd (tmpbuf.format tmpbuf.capacity req.xml) outbuf with
    hnone | ⟨hlt, hsome⟩
  · exact Or.inl hnone
  right
  rw [hsome]
  -- a cut text fills the buffer, and the command around it would not fit
  have hcap := (intOfSize_bounds tmpbuf.capacity).1
  have hlen := length_le_escapeQuotes (snprintfText tmpbuf.capacity tmpbuf.text req.xml)
  simp only [KbBuf.format, gvmCmdMark, List.length_append] at hlt
  have hhead : 0 < gvmCmdHead.length := by decide
  by_cases hfits : req.xml.length < tmpbuf.capacity
  · rw [KbBuf.format, snprintfText_of_lt hfits]
  · exfalso
    unfold snprintfText at hlen hlt
    split at hlen
    · omega
    · rename_i hzero
      rw [if_neg hzero] at hlt
      rw [List.length_take] at hlen
      omega

/-! ### Characters -/

/-- The shell reads every character of the text as it stands, within double quotes and once its
double quotes are escaped. -/
def PlainText (text : Text) : Prop := ∀ c ∈ text, ¬IsSpecial c

namespace PlainText

theorem of_all {text : Text} (h : text.all (fun c => !decide (IsSpecial c)) = true) :
    PlainText text := by
  intro c hc
  simpa using List.all_eq_true.mp h c hc

theorem append {s t : Text} (hs : PlainText s) (ht : PlainText t) : PlainText (s ++ t) := by
  intro c hc
  rcases List.mem_append.mp hc with hc | hc
  · exact hs c hc
  · exact ht c hc

/-- A class of characters without the special ones. -/
theorem of_class {q : Char → Bool} (h : ['\\', '$', '`'].all (fun d => !q d) = true) {c : Char}
    (hc : q c = true) : ¬IsSpecial c := by
  have hmem := not_mem_of_all h hc
  simpa [IsSpecial] using hmem

theorem of_digit {c : Char} (h : c.isDigit = true) : ¬IsSpecial c := of_class (by decide) h

theorem of_xdigit {c : Char} (h : isxdigit c = true) : ¬IsSpecial c := of_class (by decide) h

theorem of_upper {c : Char} (h : c.isUpper = true) : ¬IsSpecial c := of_class (by decide) h

theorem of_nameChar {c : Char} (h : gvmNameExcluded c = false) : ¬IsSpecial c := by
  have hmem : c ∉ ['\\', '$', '`'] := not_mem_of_all_false (by decide) h
  simpa [IsSpecial] using hmem

theorem uuid {text : Text} (h : chkUuid text = true) : PlainText text :=
  forall_of_chkUuid h (fun _ => of_xdigit) (by decide)

theorem name {text : Text} (h : chkName text = true) : PlainText text :=
  forall_of_chkName h fun _ => of_nameChar

theorem hosts {text : Text} (h : chkHosts text = true) : PlainText text := by
  apply forall_of_chkHosts h fun _ => of_digit
  simp [IsSpecial]

theorem configInfo {ids names : Text} (h : chkConfigInfo ids names = true) :
    PlainText ids ∧ PlainText names :=
  forall_of_chkConfigInfo h (fun _ => of_xdigit) (by decide) (by decide) fun _ => of_nameChar

theorem decimal (v : ℤ) : PlainText (decimal v) := by
  intro c hc
  rcases mem_decimal hc with rfl | hdigit
  · decide
  · exact of_digit hdigit

theorem twoDigits (n : ℕ) : PlainText (twoDigits n) :=
  fun _ hc => of_digit (isDigit_of_mem_twoDigits hc)

theorem schedTime (tm : Tm) : PlainText tm.schedTime :=
  (((((((decimal _).append (twoDigits _)).append (twoDigits _)).append
    (of_all (by decide))).append (twoDigits _)).append (twoDigits _)).append
      (twoDigits _)).append (of_all (by decide))

/-- The recurrence rule of a checked schedule. -/
theorem scheduleRule {type : ℤ} {time list rule : Text}
    (hparam : chkScheduleParam type time list = true) (hrule : scheduleRule type list = some rule) :
    PlainText rule := by
  have hmarks : ∀ c ∈ ['-', ',', ' ', ':'], ¬IsSpecial c := by simp [IsSpecial]
  have hlist : 0 ≤ type → type ≤ 4 → PlainText list := fun hlow hhigh =>
    (forall_of_chkScheduleParam hparam hlow hhigh (fun _ => of_digit) (fun _ => of_upper) hmarks).2
  unfold OpenvasTool.scheduleRule at hrule
  split at hrule
  · obtain rfl := Option.some.inj hrule
    exact of_all rfl
  split at hrule
  · obtain rfl := Option.some.inj hrule
    exact of_all (by decide)
  split at hrule
  · rename_i hweekly
    obtain rfl := Option.some.inj hrule
    subst hweekly
    exact ((of_all (by decide)).append (hlist (by decide) (by decide))).append (of_all (by decide))
  split at hrule
  · rename_i hmonthly
    obtain rfl := Option.some.inj hrule
    subst hmonthly
    exact ((of_all (by decide)).append (hlist (by decide) (by decide))).append (of_all (by decide))
  · simp at hrule

/-- The start of a schedule in UTC. -/
theorem local2SchedTime {env : Env} {time : Text} {isOnce : Bool} {firstRun : CStr maxTimestampSize}
    (h : env.local2SchedTime time isOnce = some firstRun) : PlainText firstRun.text := by
  unfold Env.local2SchedTime at h
  split at h
  · obtain rfl := Option.some.inj h
    exact of_all rfl
  · obtain ⟨tm, -, htext⟩ := Option.bind_eq_some_iff.mp h
    rw [CStr.ofText_eq_some.mp htext]
    exact schedTime tm

end PlainText

/-! ### The requests of the daemon -/

/-- The requests that the functions `gvm_*` build from checked parameters. What a function does
not check itself has been checked when the record of the task was made. -/
inductive BuiltRequest (env : Env) : GvmRequest → Prop where
  | startTask {uuid req} : req ∈ (gvmStartTask env uuid).sent → BuiltRequest env req
  | stopTask {uuid req} : req ∈ (gvmStopTask env uuid).sent → BuiltRequest env req
  | queryTask {uuid req} : req ∈ (gvmQueryTask env uuid).sent → BuiltRequest env req
  | queryReport {uuid req} : req ∈ (gvmQueryReport env uuid).sent → BuiltRequest env req
  | queryResult {taskid reportid first rows req} :
      req ∈ (gvmQueryResult env taskid reportid first rows).sent → BuiltRequest env req
  | optionDeleteTask {uuid req} : req ∈ (gvmOptionDeleteTask env uuid).sent → BuiltRequest env req
  | optionDeleteTarget {uuid req} :
      req ∈ (gvmOptionDeleteTarget env uuid).sent → BuiltRequest env req
  | deleteSchedule {uuid req} : req ∈ (gvmDeleteSchedule env uuid).sent → BuiltRequest env req
  | deleteConfig {uuid req} : req ∈ (gvmDeleteConfig env uuid).sent → BuiltRequest env req
  | createTarget {name hosts portlist req} :
      req ∈ (gvmCreateTarget env name hosts portlist).sent → BuiltRequest env req
  | createTask {name target config schedule req} : schedule = [] ∨ chkUuid schedule = true →
      req ∈ (gvmCreateTask env name target config schedule).sent → BuiltRequest env req
  | createSchedule {name time list req} {type : ℤ} {firstRun : CStr maxTimestampSize} :
      chkName name = true → chkScheduleParam type time list = true →
      env.local2SchedTime time (type == icalDateOnce) = some firstRun →
      req ∈ (gvmCreateSchedule env name type firstRun.text list).sent → BuiltRequest env req
  | createConfigEx {name groupId groupName req} : chkName name = true →
      chkConfigInfo groupId groupName = true →
      req ∈ (gvmCreateConfigEx env name groupId groupName).sent → BuiltRequest env req

theorem mem_andThen_pure_sent {α β : Type*} {x : Sent α} {f : α → β} {r : GvmRequest} :
    r ∈ (x.andThen fun a => .pure (f a)).sent ↔ r ∈ x.sent := by
  rw [Sent.andThen_sent, Sent.pure_sent, List.append_nil]

theorem mem_createCommand_sent {env : Env} {req r : GvmRequest} :
    r ∈ (createCommand env req).sent ↔ r = req :=
  mem_andThen_pure_sent.trans List.mem_singleton

theorem mem_uuidCommand_sent {env : Env} {uuid : Text} {req r : GvmRequest} :
    r ∈ (uuidCommand env uuid req).sent ↔ chkUuid uuid = true ∧ r = req := by
  unfold uuidCommand
  split
  · rename_i huuid
    rw [procGvmTask, List.mem_singleton]
    exact ⟨fun h => ⟨huuid, h⟩, And.right⟩
  · rename_i huuid
    rw [Sent.pure_sent]
    constructor
    · simp
    · intro h
      exact absurd h.1 huuid

theorem plainText_createTaskPreferences : PlainText createTaskPreferences := by
  unfold createTaskPreferences
  repeat' apply PlainText.append
  all_goals exact .of_all (by simp [IsSpecial])

theorem plainText_createScheduleHead : PlainText createScheduleHead := by
  unfold createScheduleHead
  repeat' apply PlainText.append
  all_goals exact .of_all (by simp [IsSpecial])

theorem plainText_createScheduleTail : PlainText createScheduleTail := by
  unfold createScheduleTail
  repeat' apply PlainText.append
  all_goals exact .of_all (by simp [IsSpecial])

theorem plainText_deleted {uuid head tail : Text} (huuid : chkUuid uuid = true)
    (hhead : head.all (fun c => !decide (IsSpecial c)) = true)
    (htail : tail.all (fun c => !decide (IsSpecial c)) = true) : PlainText (head ++ uuid ++ tail) :=
  ((PlainText.of_all hhead).append (.uuid huuid)).append (.of_all htail)

/-- The XML text of a request from checked parameters. -/
theorem BuiltRequest.plainText {env : Env} {req : GvmRequest} (h : BuiltRequest env req) :
    PlainText req.xml := by
  cases h with
  | startTask h =>
    obtain ⟨huuid, rfl⟩ := mem_uuidCommand_sent.mp (mem_andThen_pure_sent.mp h)
    exact plainText_deleted huuid (by simp [IsSpecial]) (by simp [IsSpecial])
  | stopTask h =>
    obtain ⟨huuid, rfl⟩ := mem_uuidCommand_sent.mp h
    exact plainText_deleted huuid (by simp [IsSpecial]) (by simp [IsSpecial])
  | queryTask h =>
    obtain ⟨huuid, rfl⟩ := mem_uuidCommand_sent.mp h
    exact plainText_deleted huuid (by simp [IsSpecial]) (by simp [IsSpecial])
  | queryReport h =>
    obtain ⟨huuid, rfl⟩ := mem_uuidCommand_sent.mp h
    exact plainText_deleted huuid (by simp [IsSpecial]) (by simp [IsSpecial])
  | queryResult h =>
    unfold gvmQueryResult at h
    split at h
    swap
    · simp at h
    rename_i htask
    obtain ⟨hreport, rfl⟩ := mem_uuidCommand_sent.mp h
    exact ((((((plainText_deleted htask (by simp [IsSpecial]) (by simp [IsSpecial])).append (.uuid hreport)).append
      (.of_all (by simp [IsSpecial]))).append (.decimal _)).append (.of_all (by simp [IsSpecial]))).append
        (.decimal _)).append (.of_all (by simp [IsSpecial]))
  | optionDeleteTask h =>
    unfold gvmOptionDeleteTask at h
    split at h
    · simp at h
    obtain ⟨huuid, rfl⟩ := mem_uuidCommand_sent.mp (mem_andThen_pure_sent.mp h)
    exact plainText_deleted huuid (by simp [IsSpecial]) (by simp [IsSpecial])
  | optionDeleteTarget h =>
    unfold gvmOptionDeleteTarget at h
    split at h
    · simp at h
    obtain ⟨huuid, rfl⟩ := mem_uuidCommand_sent.mp (mem_andThen_pure_sent.mp h)
    exact plainText_deleted huuid (by simp [IsSpecial]) (by simp [IsSpecial])
  | deleteSchedule h =>
    obtain ⟨huuid, rfl⟩ := mem_uuidCommand_sent.mp (mem_andThen_pure_sent.mp h)
    exact plainText_deleted huuid (by simp [IsSpecial]) (by simp [IsSpecial])
  | deleteConfig h =>
    obtain ⟨huuid, rfl⟩ := mem_uuidCommand_sent.mp (mem_andThen_pure_sent.mp h)
    exact plainText_deleted huuid (by simp [IsSpecial]) (by simp [IsSpecial])
  | createTarget h =>
    unfold gvmCreateTarget at h
    split at h
    swap
    · simp at h
    rename_i hparams
    simp only [Bool.and_eq_true] at hparams
    obtain ⟨⟨hport, hhosts⟩, hname⟩ := hparams
    obtain rfl := mem_createCommand_sent.mp h
    exact ((((((PlainText.of_all (by simp [IsSpecial])).append (.name hname)).append
      (.of_all (by simp [IsSpecial]))).append (.hosts hhosts)).append (.of_all (by simp [IsSpecial]))).append
        (.uuid hport)).append (.of_all (by simp [IsSpecial]))
  | createTask hschedule h =>
    unfold gvmCreateTask at h
    split at h
    swap
    · simp at h
    rename_i schedule hparams
    simp only [Bool.and_eq_true] at hparams
    obtain ⟨⟨htarget, hconfig⟩, hname⟩ := hparams
    obtain rfl := mem_createCommand_sent.mp h
    have hpart : PlainText (if schedule = [] then [] else
        "<schedule id=\"".toList ++ schedule ++ "\"/>".toList) := by
      split
      · exact .of_all rfl
      · rename_i hne
        exact plainText_deleted (hschedule.resolve_left hne) (by simp [IsSpecial])
          (by simp [IsSpecial])
    exact ((((((((PlainText.of_all (by simp [IsSpecial])).append (.name hname)).append
      (.of_all (by simp [IsSpecial]))).append (.uuid htarget)).append (.of_all (by simp [IsSpecial]))).append
        (.uuid hconfig)).append (.of_all (by simp [IsSpecial]))).append hpart).append
          (plainText_createTaskPreferences)
  | createSchedule hname hparam htime h =>
    unfold gvmCreateSchedule at h
    split at h
    swap
    · simp at h
    rename_i rule hrule
    obtain rfl := mem_createCommand_sent.mp h
    exact ((((((PlainText.of_all (by simp [IsSpecial])).append (.name hname)).append
      (plainText_createScheduleHead)).append (.local2SchedTime htime)).append
        (.of_all (by simp [IsSpecial]))).append (.scheduleRule hparam hrule)).append
          (plainText_createScheduleTail)
  | createConfigEx hname hconfig h =>
    obtain ⟨hids, hnames⟩ := PlainText.configInfo hconfig
    obtain rfl := mem_createCommand_sent.mp h
    exact ((((((PlainText.of_all (by simp [IsSpecial])).append (.name hname)).append
      (.of_all (by simp [IsSpecial]))).append hnames).append (.of_all (by simp [IsSpecial]))).append hids).append
        (.of_all (by simp [IsSpecial]))

/-! ### What the shell runs -/

/-- The command `gvm-cli` with its fixed arguments, one XML text and the redirections. -/
def gvmCliTokens (xml : Text) : List Token :=
  ["/usr/local/openvas/python/bin/gvm-cli", "--timeout", "5", "--gmp-username", "admin",
      "--gmp-password", "123456", "tls", "--xml"].map (fun arg => .word arg.toList) ++
    [.word xml, .ioNumber "2".toList, .operator ">&".toList, .word "1".toList,
      .operator "<".toList, .word "/dev/null".toList]

/-- The shell reads the command line as `gvm-cli` with the original text as its argument. -/
theorem tokens_gvmCmdMark {xml : Text} (h : PlainText xml) :
    tokens (gvmCmdMark (escapeQuotes xml)) = some (gvmCliTokens xml) := by
  have hhead : Reading.run {} gvmCmdHead =
      some ⟨(gvmCliTokens []).take 9, .word [] true, .double⟩ := by decide +kernel
  have htail : Reading.run ⟨(gvmCliTokens []).take 9, .word xml true, .double⟩ gvmCmdTail =
      some ⟨(gvmCliTokens xml).take 14, .word "/dev/null".toList false, .plain⟩ := rfl
  exact tokens_quoted hhead h htail rfl

/-- A request from checked parameters runs nothing, or the shell reads the fixed command with
the complete XML text as one argument, for every capacity of the two work buffers. -/
theorem sendGvmRequest_tokens {env : Env} {req : GvmRequest} (hreq : BuiltRequest env req)
    (popen : Text → Option Text) (tmpbuf outbuf : KbBuf) :
    ((sendGvmRequest popen req tmpbuf outbuf).code = -1 ∧
        (sendGvmRequest popen req tmpbuf outbuf).popened = none) ∨
      ∃ line, (sendGvmRequest popen req tmpbuf outbuf).popened = some line ∧
        tokens line = some (gvmCliTokens req.xml) := by
  rcases sendGvmRequest_cases popen req tmpbuf outbuf with hnone | hsome
  · exact Or.inl hnone
  · exact Or.inr ⟨_, hsome, tokens_gvmCmdMark hreq.plainText⟩

/-- The request of a weekly schedule. -/
def sampleSchedule : GvmRequest :=
  .createSchedule "scan".toList "20240501T083000Z".toList
    "RRULE:FREQ=WEEKLY;BYDAY=MO,WE\r\n".toList

theorem builtRequest_sampleSchedule : BuiltRequest (.smooth fun _ => none) sampleSchedule := by
  have hname : chkName "scan".toList = true := by decide +kernel
  have hparam : chkScheduleParam icalDateWeekly "2024-05-01 08:30:00".toList "MO,WE".toList =
      true := by decide +kernel
  have htime : (Env.smooth fun _ => none).local2SchedTime "2024-05-01 08:30:00".toList
      (icalDateWeekly == icalDateOnce) =
        some ⟨"20240501T083000Z".toList, by decide, by decide⟩ := by decide +kernel
  exact .createSchedule hname hparam htime (mem_createCommand_sent.mpr (by decide +kernel))

theorem sendGvmRequest_tokens_sampleSchedule :
    ((sendGvmRequest (fun _ => none) sampleSchedule ⟨4096, []⟩ ⟨4096, []⟩).code = -1 ∧
        (sendGvmRequest (fun _ => none) sampleSchedule ⟨4096, []⟩ ⟨4096, []⟩).popened = none) ∨
      ∃ line, (sendGvmRequest (fun _ => none) sampleSchedule ⟨4096, []⟩ ⟨4096, []⟩).popened =
          some line ∧
        tokens line = some (gvmCliTokens sampleSchedule.xml) :=
  sendGvmRequest_tokens builtRequest_sampleSchedule _ _ _

/-! ### Work buffers that suffice -/

/-- A request that fits the work buffers is run, and its code is that of the answer. -/
theorem sendGvmRequest_fits {popen : Text → Option Text} {req : GvmRequest} {tmpbuf outbuf : KbBuf}
    (htmp : 2 * req.xml.length + 256 ≤ tmpbuf.capacity ∧ tmpbuf.capacity < 2 ^ 31)
    (hout : 2 * req.xml.length + 256 ≤ outbuf.capacity ∧ outbuf.capacity < 2 ^ 31) :
    sendGvmRequest popen req tmpbuf outbuf =
      { code :=
          match popen (gvmCmdMark (escapeQuotes req.xml)) with
          | none => -1
          | some output => chkRspStatusOk req.cmd (cstring (output.take outbuf.capacity))
        popened := some (gvmCmdMark (escapeQuotes req.xml)) } := by
  have hne : req.xml ≠ [] := by
    cases req <;> exact List.cons_ne_nil _ _
  have hlen := length_escapeQuotes_le req.xml
  have hfixed : (gvmCmdMark (escapeQuotes req.xml)).length = 121 + (escapeQuotes req.xml).length := by
    have hhead : gvmCmdHead.length = 104 := by decide
    have htail : gvmCmdTail.length = 17 := by decide
    simp only [gvmCmdMark, List.length_append]
    omega
  have hescape : escapeXml req.xml (intOfSize outbuf.capacity) = some (escapeQuotes req.xml) := by
    rw [intOfSize_of_lt hout.2]
    exact escapeXmlLoop_fits le_rfl (Or.inr hne) (by omega)
  have hcnt : snprintfCount (gvmCmdMark (escapeQuotes req.xml)) =
      (gvmCmdMark (escapeQuotes req.xml)).length := by
    rw [snprintfCount, if_pos (by omega)]
  have hmod : ((tmpbuf.capacity : ℤ) % 2 ^ 64).toNat = tmpbuf.capacity := by omega
  have hxml : (tmpbuf.format tmpbuf.capacity req.xml).text = req.xml :=
    snprintfText_of_lt (by omega)
  have hline : (((tmpbuf.format tmpbuf.capacity req.xml).format tmpbuf.capacity
      (gvmCmdMark (escapeQuotes req.xml))).text) = gvmCmdMark (escapeQuotes req.xml) :=
    snprintfText_of_lt (by omega)
  rw [sendGvmRequest, procGvmTaskBuf, hxml, hescape]
  dsimp only
  rw [show (tmpbuf.format tmpbuf.capacity req.xml).capacity = tmpbuf.capacity from rfl,
    intOfSize_of_lt htmp.2, intOfSize_of_lt hout.2, hcnt, if_pos ⟨by omega, by omega⟩, hmod, hline, Int.toNat_natCast]

/-- With buffers that suffice, `procGvmTask` has the answer that gvmd gives to the request, as far
as it fits the output buffer. -/
theorem procGvmTask_val_isSome {env : Env} {popen : Text → Option Text} {req : GvmRequest}
    {tmpbuf outbuf : KbBuf}
    (htmp : 2 * req.xml.length + 256 ≤ tmpbuf.capacity ∧ tmpbuf.capacity < 2 ^ 31)
    (hout : 2 * req.xml.length + 256 ≤ outbuf.capacity ∧ outbuf.capacity < 2 ^ 31)
    (henv : (env.gvmd req).map GvmRsp.text =
      (popen (gvmCmdMark (escapeQuotes req.xml))).map fun output =>
        cstring (output.take outbuf.capacity)) :
    (procGvmTask env req).val.isSome ↔ (sendGvmRequest popen req tmpbuf outbuf).code = 0 := by
  rw [sendGvmRequest_fits htmp hout, procGvmTask, Option.isSome_filter]
  cases hpopen : popen (gvmCmdMark (escapeQuotes req.xml)) with
  | none =>
    rw [hpopen, Option.map_none, Option.map_eq_none_iff] at henv
    rw [henv]
    simp
  | some output =>
    rw [hpopen, Option.map_some] at henv
    obtain ⟨rsp, hrsp, htext⟩ := Option.map_eq_some_iff.mp henv
    rw [hrsp, Option.any_some, htext]
    simp

end OpenvasTool
