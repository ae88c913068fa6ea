import OpenvasTool.Agreement
import OpenvasTool.Hydra.CronWindow
import OpenvasTool.Posix.Shell

/-!
# The start command of a cron entry

The name and the id of a scheduled task pass through the crontab line, the words
of the shell, the arguments of the program and the request text of the client
before the daemon reads them in a message. They arrive unchanged.
-/

namespace OpenvasTool

open Posix Posix.Regex Posix.Cron Posix.Shell Calendar

/-! ### The client -/

/-- `openvas_cmd_entry`: the message that the handler of the command sends. -/
def openvasCmdEntry (uuid : CStr maxUuidSize) (cmd param : Text) : Option Text := do
  let command ← ([.startTask, .stopTask, .deleteTask, .createTask, .startHydra, .stopHydra,
    .deleteHydra, .createHydra] : List PhpCommand).find? fun command =>
      -- `strcasecmp`
      command.cmd.map Char.toLower == cmd.map Char.toLower
  let param ← command.getParam param
  some (phpMessage uuid command param)

/-- `cliHydra`: the request text is cut off at the end of the buffer. -/
def cliHydra (uuid : CStr maxUuidSize) (cmd taskname taskid : Text) : Option Text :=
  openvasCmdEntry uuid cmd (("taskname=\"".toList ++ taskname ++ "\"&taskid=\"".toList ++ taskid ++
    "\"".toList).take (maxCacheSize - 1))

/-- `main` as a client, with the option 2. -/
def mainClient (uuid : CStr maxUuidSize) : List Text → Option Text
  | [_, option, cmd, taskname, taskid] =>
      if atoi option = 2 then cliHydra uuid cmd taskname taskid else none
  | _ => none

/-! ### The start command -/

/-- The words that start the program for a task. -/
def startWords (progPath : Text) (task : ListHydraTask) : List Text :=
  [progPath, "2".toList, "start_hydra".toList, task.taskName.text, task.taskId.text]

/-- A command in the background that writes to `/dev/null`. -/
def quietTokens (words : List Text) : List Token :=
  words.map .word ++ [.operator ">".toList, .word "/dev/null".toList, .operator "&".toList]

/-- Cron runs the command of the line whole, and the shell starts these words, alone or in a
subshell behind the test for the last day of the month. -/
def StartsWords (words : List Text) (line : Text) : Prop :=
  ∃ cmd, percentSplit (command line) = (cmd, none) ∧
    (ReadsAs cmd (quietTokens words) ∨
      ∃ sub, cmd = "[ \x60date -d tomorrow +%e\x60 -eq 1 ] && ".toList ++ sub ∧
        ReadsAs sub (.operator "(".toList :: quietTokens words ++ [.operator ")".toList]))

/-- A program path without characters special to the shell or to crontab. -/
def PlainPath (path : Text) : Prop := path ≠ [] ∧ ∀ c ∈ path, isQuotable c = false

/-! ### Reading the command -/

theorem quotable_of_name {text : Text} (h : chkName text = true) :
    ∀ c ∈ text, (¬IsSpecial c ∧ c ≠ '"') ∧ c ≠ '%' := by
  refine forall_of_chkName (p := fun c => (¬IsSpecial c ∧ c ≠ '"') ∧ c ≠ '%') h ?_
  intro c hc
  refine ⟨⟨?_, ?_⟩, ?_⟩
  · rintro (rfl | rfl | rfl) <;> exact absurd hc (by decide)
  · rintro rfl
    exact absurd hc (by decide)
  · rintro rfl
    exact absurd hc (by decide)

theorem quotable_of_uuid {text : Text} (h : chkUuid text = true) :
    ∀ c ∈ text, (¬IsSpecial c ∧ c ≠ '"') ∧ c ≠ '%' := by
  refine forall_of_chkUuid (p := fun c => (¬IsSpecial c ∧ c ≠ '"') ∧ c ≠ '%') h ?_ ?_
  · intro c hc
    refine ⟨⟨?_, ?_⟩, ?_⟩
    · rintro (rfl | rfl | rfl) <;> exact absurd hc (by decide)
    · rintro rfl
      exact absurd hc (by decide)
    · rintro rfl
      exact absurd hc (by decide)
  · decide

section Command

variable {progPath : Text} {task : ListHydraTask}

/-- After a quoted word the shell reads the redirection and the operator `&`. -/
theorem run_quiet (ts : List Token) (word : Text) :
    Reading.run ⟨ts, .word word true, .plain⟩ " >/dev/null&".toList =
      some ⟨ts ++ [.word word, .operator ">".toList, .word "/dev/null".toList],
        .operator "&".toList, .plain⟩ := by
  have hgreater : ∀ ts, Reading.run ⟨ts, .nothing, .plain⟩ ['>'] =
      some ⟨ts, .operator ['>'], .plain⟩ := by
    intro ts
    simp [Reading.run, Reading.step, Reading.close, Reading.pushOperator, Partial.close,
      isExpansion, isOperatorChar]
  have hand : ∀ ts value, Reading.run ⟨ts, .word value false, .plain⟩ ['&'] =
      some ⟨ts ++ [.word value], .operator ['&'], .plain⟩ := by
    intro ts value
    simp [Reading.run, Reading.step, Reading.close, Reading.pushOperator, Partial.close,
      isExpansion, isOperatorChar]
  have hnull := Reading.run_newWord (show "/dev/null".toList ≠ [] by decide)
    (List.all_iff_forall_prop.mp (by decide)) (ts ++ [.word word])
    (show ∀ value quoted, Partial.operator ['>'] ≠ .word value quoted by simp)
  rw [show " >/dev/null&".toList = ' ' :: (['>'] ++ ("/dev/null".toList ++ ['&'])) from rfl,
    Reading.run_blank, Reading.run_append_of (hgreater _), Reading.run_append_of hnull, hand]
  simp [Partial.close]

/-- Where a word can begin, the shell reads the words of the start command. -/
theorem run_startHydraCmd (hprog : PlainPath progPath) (hid : chkUuid task.taskId.text = true)
    (hname : chkName task.taskName.text = true) (ts : List Token) {current : Partial}
    (hword : ∀ value quoted, current ≠ .word value quoted) :
    Reading.run ⟨ts, current, .plain⟩ (quietly (startHydraCmd progPath task)) =
      some ⟨ts ++ current.close none ++ (startWords progPath task).map .word ++
        [.operator ">".toList, .word "/dev/null".toList], .operator "&".toList, .plain⟩ := by
  have hcmd : quietly (startHydraCmd progPath task) = progPath ++ ' ' :: ('2' :: ' ' ::
      '"' :: ("start_hydra".toList ++ '"' :: ' ' :: '"' :: (task.taskName.text ++ '"' :: ' ' ::
        '"' :: (task.taskId.text ++ '"' :: " >/dev/null&".toList)))) := by
    simp [quietly, startHydraCmd]
  have htwo : Reading.run ⟨ts ++ current.close none ++ [.word progPath], .nothing, .plain⟩ ['2'] =
      some ⟨ts ++ current.close none ++ [.word progPath], .word ['2'] false, .plain⟩ := by
    simp [Reading.run, Reading.step, Reading.push, Reading.close, Partial.close, isExpansion,
      isOperatorChar]
  have hstart : ∀ c ∈ "start_hydra".toList, ¬IsSpecial c ∧ c ≠ '"' :=
    List.all_iff_forall_prop.mp (by decide)
  rw [hcmd, Reading.run_append_of (Reading.run_newWord hprog.1 hprog.2 ts hword),
    Reading.run_blank, show ∀ rest : Text, '2' :: rest = ['2'] ++ rest from fun _ => rfl,
    Reading.run_append_of htwo, Reading.run_blank, Reading.run_quotedWord hstart, Reading.run_blank,
    Reading.run_quotedWord fun c hc => (quotable_of_name hname c hc).1, Reading.run_blank,
    Reading.run_quotedWord fun c hc => (quotable_of_uuid hid c hc).1, run_quiet]
  simp [startWords]

/-- The command of a line that runs it as it is. -/
theorem readsAs_quietly (hprog : PlainPath progPath) (hid : chkUuid task.taskId.text = true)
    (hname : chkName task.taskName.text = true) :
    ReadsAs (quietly (startHydraCmd progPath task)) (quietTokens (startWords progPath task)) := by
  intro ts
  refine ⟨_, run_startHydraCmd hprog hid hname ts (by simp), rfl, ?_⟩
  simp [Reading.close, Partial.close, quietTokens]

/-- The command in parentheses. -/
theorem readsAs_subshell (hprog : PlainPath progPath) (hid : chkUuid task.taskId.text = true)
    (hname : chkName task.taskName.text = true) :
    ReadsAs ("(".toList ++ quietly (startHydraCmd progPath task) ++ ")".toList)
      (.operator "(".toList :: quietTokens (startWords progPath task) ++
        [.operator ")".toList]) := by
  intro ts
  have hopen : Reading.run ⟨ts, .nothing, .plain⟩ "(".toList =
      some ⟨ts, .operator "(".toList, .plain⟩ := by
    simp [Reading.run, Reading.step, Reading.close, Reading.pushOperator, Partial.close,
      isExpansion, isOperatorChar]
  have hclose : ∀ ts, Reading.run ⟨ts, .operator "&".toList, .plain⟩ ")".toList =
      some ⟨ts ++ [.operator "&".toList], .operator ")".toList, .plain⟩ := by
    intro ts
    simp [Reading.run, Reading.step, Reading.close, Reading.pushOperator, Partial.close,
      isExpansion, isOperatorChar, operators]
  refine ⟨⟨ts ++ [.operator "(".toList] ++ (startWords progPath task).map .word ++
    [.operator ">".toList, .word "/dev/null".toList] ++ [.operator "&".toList],
      .operator ")".toList, .plain⟩, ?_, rfl, ?_⟩
  · rw [List.append_assoc, Reading.run_append_of hopen,
      Reading.run_append_of (run_startHydraCmd hprog hid hname ts (by simp))]
    exact hclose _
  · simp [Reading.close, Partial.close, quietTokens]

/-- A start command has no percent sign, and does not begin with a blank. -/
theorem percent_not_mem_quietly (hprog : PlainPath progPath) (hid : chkUuid task.taskId.text = true)
    (hname : chkName task.taskName.text = true) :
    '%' ∉ quietly (startHydraCmd progPath task) := by
  have hpath : '%' ∉ progPath := fun hmem => absurd (hprog.2 _ hmem) (by decide)
  have hnameFree : '%' ∉ task.taskName.text := fun hmem => (quotable_of_name hname _ hmem).2 rfl
  have hidFree : '%' ∉ task.taskId.text := fun hmem => (quotable_of_uuid hid _ hmem).2 rfl
  simp only [quietly, startHydraCmd, List.mem_append, not_or]
  exact ⟨⟨⟨⟨⟨⟨hpath, by decide⟩, hnameFree⟩, by decide⟩, hidFree⟩, by decide⟩, by decide⟩

theorem dropWhile_quietly (hprog : PlainPath progPath) :
    (quietly (startHydraCmd progPath task)).dropWhile isBlank =
      quietly (startHydraCmd progPath task) := by
  obtain ⟨c, rest, rfl⟩ := List.exists_cons_of_ne_nil hprog.1
  have hplain := hprog.2 c (by simp)
  have hblank : isBlank c = false := by
    simp only [isBlank, Bool.or_eq_false_iff, beq_eq_false_iff_ne]
    constructor
    · rintro rfl
      exact absurd hplain (by decide)
    · rintro rfl
      exact absurd hplain (by decide)
  unfold quietly startHydraCmd
  simp only [List.cons_append]
  exact List.dropWhile_cons_of_neg (by simp [hblank])

end Command

/-! ### The lines of the cron file -/

section Lines

variable {progPath : Text} {task : ListHydraTask} {minute hour mday month wday : Text}

/-- A line with the start command. -/
theorem startsWords_quietly (hprog : PlainPath progPath) (hid : chkUuid task.taskId.text = true)
    (hname : chkName task.taskName.text = true) (hwords : LineWords minute hour mday month wday) :
    StartsWords (startWords progPath task) (cronBody [minute, hour, mday, month, wday] cronUserName
      (quietly (startHydraCmd progPath task))) := by
  refine ⟨quietly (startHydraCmd progPath task), ?_, Or.inl (readsAs_quietly hprog hid hname)⟩
  rw [hwords.command, dropWhile_quietly hprog,
    percentSplit_of_not_mem (percent_not_mem_quietly hprog hid hname)]

/-- A line with the start command behind the test. -/
theorem startsWords_onLastDay (hprog : PlainPath progPath) (hid : chkUuid task.taskId.text = true)
    (hname : chkName task.taskName.text = true) (hwords : LineWords minute hour mday month wday) :
    StartsWords (startWords progPath task) (cronBody [minute, hour, mday, month, wday] cronUserName
      (onLastDay (startHydraCmd progPath task))) := by
  let guarded := "(".toList ++ quietly (startHydraCmd progPath task) ++ ")".toList
  have hfront : cronLastMonthdayCmdPatt ++ " && (".toList = "[ \x60date -d tomorrow +".toList ++
      '\\' :: '%' :: ("e\x60 -eq 1 ] && ".toList ++ "(".toList) := by decide +kernel
  have hguard : (onLastDay (startHydraCmd progPath task)).dropWhile isBlank =
      "[ \x60date -d tomorrow +".toList ++ '\\' :: '%' :: ("e\x60 -eq 1 ] && ".toList ++
        guarded) := by
    rw [onLastDay, hfront, show "[ \x60date -d tomorrow +".toList =
      '[' :: " \x60date -d tomorrow +".toList from by decide +kernel]
    simp only [List.cons_append, List.append_assoc, guarded]
    exact List.dropWhile_cons_of_neg (by decide)
  have hpercent : '%' ∉ guarded := by
    simp only [guarded, List.mem_append, not_or]
    exact ⟨⟨by decide, percent_not_mem_quietly hprog hid hname⟩, by decide⟩
  have htest : "[ \x60date -d tomorrow +".toList ++ '%' :: "e\x60 -eq 1 ] && ".toList =
      "[ \x60date -d tomorrow +%e\x60 -eq 1 ] && ".toList := by decide +kernel
  refine ⟨_, ?_, Or.inr ⟨guarded, rfl, readsAs_subshell hprog hid hname⟩⟩
  have hbefore : ∀ c ∈ "[ \x60date -d tomorrow +".toList, c ≠ '%' ∧ c ≠ '\\' :=
    List.all_iff_forall_prop.mp (by decide)
  have hbehind : ∀ c ∈ "e\x60 -eq 1 ] && ".toList, c ≠ '%' ∧ c ≠ '\\' :=
    List.all_iff_forall_prop.mp (by decide)
  rw [hwords.command, hguard, percentSplit_append _ hbefore, percentSplit,
    percentSplit_append _ hbehind, percentSplit_of_not_mem hpercent, ← htest]
  simp

/-- The lines of a schedule. -/
theorem startsWords_cronLines {tm : Tm} {type : ℤ} {time list : Text} {lines : List Text}
    (hprog : PlainPath progPath) (hid : chkUuid task.taskId.text = true)
    (hname : chkName task.taskName.text = true) (hchk : chkScheduleParam type time list = true)
    (hlines : cronLines type tm list cronUserName (startHydraCmd progPath task) = some lines) :
    ∃ bodies, bodies ≠ [] ∧ lines = bodies.map (fun body => body ++ ['\n']) ∧
      ∀ body ∈ bodies, '\n' ∉ body ∧ StartsWords (startWords progPath task) body := by
  have hcmd : '\n' ∉ startHydraCmd progPath task :=
    newline_not_mem_startHydraCmd (fun hmem => absurd (hprog.2 _ hmem) (by decide)) hid hname
  -- a file of one line
  have hsingle : ∀ mday month wday : Text,
      LineWords (decimal tm.min) (decimal tm.hour) mday month wday →
      (∀ f ∈ [mday, month, wday], '\n' ∉ f) →
      lines = [cronLine ([decimal tm.min, decimal tm.hour] ++ [mday, month, wday]) cronUserName
        (quietly (startHydraCmd progPath task))] →
      ∃ bodies, bodies ≠ [] ∧ lines = bodies.map (fun body => body ++ ['\n']) ∧
        ∀ body ∈ bodies, '\n' ∉ body ∧ StartsWords (startWords progPath task) body := by
    rintro mday month wday hwords hfields rfl
    refine ⟨[cronBody [decimal tm.min, decimal tm.hour, mday, month, wday] cronUserName
      (quietly (startHydraCmd progPath task))], by simp, rfl, ?_⟩
    intro body hbody
    obtain rfl := List.mem_singleton.mp hbody
    exact ⟨newline_not_mem_cronBody (newline_not_mem_fields hfields tm) (by decide)
      (quietly_newline hcmd), startsWords_quietly hprog hid hname hwords⟩
  by_cases honce : type = icalDateOnce
  · subst honce
    rw [cronLines, if_pos rfl] at hlines
    refine hsingle _ _ _ ?_ ?_ (Option.some.inj hlines).symm
    · exact ⟨isWord_decimal _, isWord_decimal _, isWord_decimal _, isWord_decimal _, isWord_star⟩
    · simp [newline_not_mem_decimal]
  by_cases hdaily : type = icalDateDaily
  · subst hdaily
    rw [cronLines, if_neg (by decide), if_pos rfl] at hlines
    refine hsingle _ _ _ ?_ (by decide) (Option.some.inj hlines).symm
    exact ⟨isWord_decimal _, isWord_decimal _, isWord_star, isWord_star, isWord_star⟩
  by_cases hweekly : type = icalDateWeekly
  · subst hweekly
    obtain ⟨ns, hne, hns, -, hlist⟩ := weekly_codes hchk
    have hconv := convWeekDay_codes maxCommSize hne hns
    rw [← hlist] at hconv
    rw [cronLines, if_neg (by decide), if_neg (by decide), if_pos rfl, hconv] at hlines
    obtain ⟨names, hnames, hlines⟩ := Option.map_eq_some_iff.mp hlines
    obtain ⟨-, hnames⟩ := Option.ite_none_right_eq_some.mp hnames
    obtain rfl := Option.some.inj hnames
    refine hsingle _ _ _ ?_ ?_ hlines.symm
    · exact ⟨isWord_decimal _, isWord_decimal _, isWord_star, isWord_star,
        isWord_weekDayNames hne hns⟩
    · simp only [List.forall_mem_cons, List.not_mem_nil, false_implies, implies_true, and_true]
      exact ⟨by decide, by decide, fun hmem => (not_mem_weekDayNames hns hmem).2 rfl⟩
  by_cases hmonthly : type = icalDateMonthly
  · subst hmonthly
    obtain ⟨ns, rest, hmonth⟩ := monthList_of_chk hchk
    rw [hmonth.cronLines] at hlines
    obtain ⟨-, hlines⟩ := Option.ite_none_right_eq_some.mp hlines
    refine ⟨monthBodies tm ns (!rest.isEmpty) (startHydraCmd progPath task), ?_,
      (Option.some.inj hlines).symm, fun body hbody => ⟨newline_not_mem_monthBodies hcmd body hbody,
        ?_⟩⟩
    · rcases hmonth.rest_head with ⟨-, hne⟩ | hhead
      · simp [monthBodies, hne]
      · obtain ⟨rest, rfl⟩ := List.head?_eq_some_iff.mp hhead
        simp [monthBodies]
    · rw [monthBodies, List.mem_append] at hbody
      rcases hbody with hbody | hbody
      · split at hbody
        · simp at hbody
        · rename_i hne
          obtain rfl := List.mem_singleton.mp hbody
          exact startsWords_quietly hprog hid hname (lineWords_days tm (isWord_days hne))
      · split at hbody
        · obtain rfl := List.mem_singleton.mp hbody
          have hdays : IsWord "28-31".toList := ⟨by decide, List.all_iff_forall_prop.mp (by decide)⟩
          exact startsWords_onLastDay hprog hid hname (lineWords_days tm hdays)
        · simp at hbody
  · simp [cronLines, honce, hdaily, hweekly, hmonthly] at hlines

end Lines

/-! ### The message of the client -/

/-- The request text of `cliHydra` has one reading. -/
theorem regexec_phpKeyHydra {name id : Text} (hname : name ∈ gvmNamePattern.lang)
    (hid : id ∈ uuidRegPattern.lang) :
    phpKeyHydraPattern.regexec ("taskname=\"".toList ++ name ++ "\"&taskid=\"".toList ++ id ++
      "\"".toList) = some [name, id] := by
  have hnameQuote : ∀ text ∈ gvmNamePattern.lang, '"' ∉ text := fun text htext hmem =>
    (quotable_of_name (chkName_iff.mpr htext) _ hmem).1.2 rfl
  have hidQuote : ∀ text ∈ uuidRegPattern.lang, '"' ∉ text := fun text htext hmem =>
    (quotable_of_uuid (chkUuid_iff.mpr htext) _ hmem).1.2 rfl
  rw [Pattern.regexec_of_bol rfl rfl]
  refine Pattern.here_eq_some (u := []) (Pattern.mem_matchesAt.mpr ⟨fun _ => rfl, ?_, fun _ => rfl⟩)
    ?_
  · refine ⟨"taskname=\"".toList, mem_lang_lit.mpr rfl, _, ?_, name, hname, _, _, rfl, rfl,
      "\"&".toList, mem_lang_lit.mpr rfl, _, rfl, "taskid=\"".toList, mem_lang_lit.mpr rfl, _, rfl,
      id, hid, _, _, rfl, rfl, "\"".toList, mem_lang_lit.mpr rfl, _, (List.append_nil _).symm, rfl,
      rfl⟩
    simp
  · intro caps u hmatch
    obtain ⟨-, hparts, heol⟩ := Pattern.mem_matchesAt.mp hmatch
    obtain ⟨key, hkey, t, htext, name', hname', t₁, caps₁, rfl, rfl, mark, hmark, t₂, rfl, key₂,
      hkey₂, t₃, rfl, id', hid', t₄, caps₂, rfl, rfl, close, hclose, t₅, rfl, rfl, rfl⟩ := hparts
    obtain rfl := mem_lang_lit.mp hkey
    obtain rfl := mem_lang_lit.mp hmark
    obtain rfl := mem_lang_lit.mp hkey₂
    obtain rfl := mem_lang_lit.mp hclose
    have hfront : name ++ '"' :: ("&taskid=\"".toList ++ (id ++ '"' :: [])) =
        name' ++ '"' :: ("&taskid=\"".toList ++ (id' ++ '"' :: t₅)) := by
      simpa using htext
    obtain ⟨rfl, hrest⟩ := append_delim_inj (hnameQuote _ hname) (hnameQuote _ hname') hfront
    obtain ⟨rfl, -⟩ := append_delim_inj (hidQuote _ hid) (hidQuote _ hid')
      (List.append_cancel_left hrest)
    rfl

/-- The command line of a start is turned into the message of the task. -/
theorem mainClient_startWords {progPath : Text} {task : ListHydraTask} (uuid : CStr maxUuidSize)
    (hid : chkUuid task.taskId.text = true) (hname : chkName task.taskName.text = true) :
    mainClient uuid (startWords progPath task) =
      some (phpMessage uuid .startHydra (.keyHydra ⟨task.taskName, task.taskId⟩)) := by
  have hlen : ("taskname=\"".toList ++ task.taskName.text ++ "\"&taskid=\"".toList ++
      task.taskId.text ++ "\"".toList).length ≤ maxCacheSize - 1 := by
    have hnameFits := task.taskName.fits
    have hidFits := task.taskId.fits
    simp only [List.length_append, String.reduceToList, List.length_cons, List.length_nil]
    unfold maxNameSize maxUuidSize at *
    unfold maxCacheSize
    omega
  have hparam : getPhpKeyHydradParam ("taskname=\"".toList ++ task.taskName.text ++
      "\"&taskid=\"".toList ++ task.taskId.text ++ "\"".toList) =
        some ⟨task.taskName, task.taskId⟩ := by
    rw [getPhpKeyHydradParam, regexec_phpKeyHydra (chkName_iff.mp hname) (chkUuid_iff.mp hid)]
    simp
  have hfind : ([.startTask, .stopTask, .deleteTask, .createTask, .startHydra, .stopHydra,
      .deleteHydra, .createHydra] : List PhpCommand).find? (fun command =>
        command.cmd.map Char.toLower == "start_hydra".toList.map Char.toLower) =
          some .startHydra := by decide
  have htwo : atoi "2".toList = 2 := by decide
  simp only [startWords, mainClient, htwo, if_true, cliHydra, List.take_of_length_le hlen,
    openvasCmdEntry, hfind, Option.bind_eq_bind, Option.bind_some, PhpCommand.getParam, hparam,
    Option.map_some]

/-! ### The whole way -/

/-- A token has no delimiter. -/
theorem delim_not_mem_requestToken {input rest : Text} {n : ℕ} {token : CStr n}
    (h : requestToken input n = some (token, rest)) : openvasKbDelim ∉ token.text := by
  rw [requestToken, toOption_eq_some] at h
  exact (getNextToken_eq_ok h).1

theorem delim_not_mem_taskName {env : HydraEnv} {input : Text} {task : ListHydraTask}
    (h : getCreateHydraParam env input = some task) : openvasKbDelim ∉ task.taskName.text := by
  unfold getCreateHydraParam at h
  obtain ⟨⟨name, input⟩, hname, h⟩ := Option.bind_eq_some_iff.mp h
  iterate 9 obtain ⟨⟨_, _⟩, _, h⟩ := Option.bind_eq_some_iff.mp h
  dsimp only at h
  split at h
  swap
  · simp at h
  obtain ⟨hostsType, hhosts, h⟩ := Option.bind_eq_some_iff.mp h
  obtain rfl := Option.some.inj h
  exact delim_not_mem_requestToken hname

/-- **A scheduled start reaches its own task.** The cron file of a stored task consists of lines that
start the program with the name and the id of the task, and the program, started with these words,
sends a message in which the daemon reads the same name and id. -/
theorem scheduledStart_reaches_task {env : HydraEnv} {w : HydraWorld} {input : Text}
    {task : ListHydraTask} (htask : getCreateHydraParam env input = some task)
    (hcode : (daemonCreateHydra env w input).code = .success)
    (htype : task.scheduleType ≠ icalDateNone) (hprog : PlainPath env.progPath) :
    (∃ bodies, bodies ≠ [] ∧
      (daemonCreateHydra env w input).world.files (hydraPaths task.taskId.text).cronFileNorm =
        some (bodies.map fun body => body ++ ['\n']).flatten ∧
      ∀ body ∈ bodies, '\n' ∉ body ∧ StartsWords (startWords env.progPath task) body) ∧
    ∀ src : UuidSource, ∃ message cmd rest started,
      mainClient (genUUID src) (startWords env.progPath task) = some message ∧
      processMsgTokens message = some (genUUID src, cmd, rest) ∧
      cmd.text = "start_hydra".toList ∧ getKeyHydraParam rest = some started ∧
      started.taskName = task.taskName ∧ started.taskId = task.taskId := by
  obtain ⟨hid, hname, -, -, hchk⟩ := getCreateHydraParam_checks htask
  constructor
  · obtain ⟨content, hformat, hfile⟩ := daemonCreateHydra_cron htask hcode htype
    change formatCronTask maxCacheSize task.scheduleType task.firstScheduleTime.text
      task.scheduleList.text cronUserName (startHydraCmd env.progPath task) = some content at hformat
    unfold formatCronTask at hformat
    split at hformat
    swap
    · simp at hformat
    obtain ⟨lines, hlines, hprint⟩ := Option.bind_eq_some_iff.mp hformat
    obtain rfl := printLines_eq_some hprint
    obtain ⟨bodies, hne, rfl, hbodies⟩ := startsWords_cronLines hprog hid hname hchk hlines
    exact ⟨bodies, hne, hfile, hbodies⟩
  · intro src
    obtain ⟨cmd, hcmd, htokens⟩ := processMsgTokens_phpMessage src .startHydra
      (.keyHydra ⟨task.taskName, task.taskId⟩)
    have hchecked : (PhpParam.keyHydra ⟨task.taskName, task.taskId⟩).Checked := ⟨hname, hid⟩
    obtain ⟨started, hstarted, hnameEq, hidEq⟩ :
        (PhpParam.keyHydra ⟨task.taskName, task.taskId⟩).ReadBy env _ :=
      (readBy_keyHydra_iff hchecked).mpr (delim_not_mem_taskName htask)
    exact ⟨_, cmd, _, started, mainClient_startWords _ hid hname, htokens, hcmd, hstarted, hnameEq,
      hidEq⟩

/-- The daily task `audit`. -/
theorem scheduledStart_reaches_sampleDailyTask :
    ∃ bodies, bodies ≠ [] ∧
      (daemonCreateHydra (.smooth 0) sampleHydraState.world sampleDailyCreate).world.files
          (hydraPaths sampleDailyTask.taskId.text).cronFileNorm =
        some (bodies.map fun body => body ++ ['\n']).flatten ∧
      ∀ body ∈ bodies, '\n' ∉ body ∧
        StartsWords (startWords (HydraEnv.smooth 0).progPath sampleDailyTask) body :=
  (scheduledStart_reaches_task getCreateHydraParam_sampleDailyCreate
    daemonCreateHydra_sampleDailyCreate (by decide +kernel)
      ⟨by decide +kernel, List.all_iff_forall_prop.mp (by decide +kernel)⟩).1

end OpenvasTool
