import OpenvasTool.Hosts
import OpenvasTool.Hydra.Daemon

/-!
# Client and daemon

Both sides check the parameters of a request, each with its own expressions. The
daemon obtains exactly what the client has checked when no field contains the
delimiter and the type of the schedule starts with a digit.
-/

namespace OpenvasTool

open Posix Posix.Regex

/-! ### Normalised hosts -/

/-- What the client normalises passes the check of the daemon. -/
theorem chkHosts_escapeHosts {n : ℕ} {hosts out : CStr n} (hchk : chkHostsExt hosts.text = true)
    (hout : escapeHosts hosts = some out) : chkHosts out.text = true := by
  obtain ⟨out', hnormal⟩ := escapeHosts_normalised hchk
  obtain rfl := Option.some.inj (hout.symm.trans hnormal.returned)
  exact hnormal.accepted

/-- The same for the hosts of a hydra request. -/
theorem chkHydraHostsIntern_escapeHydraHosts {n : ℕ} {type : ℤ} {hosts out : CStr n}
    (hchk : chkHydraHosts type hosts.text = true) (hout : escapeHydraHosts hosts = some out) :
    chkHydraHostsIntern type out.text = true := by
  obtain ⟨out', hnormal⟩ := escapeHydraHosts_normalised hchk
  obtain rfl := Option.some.inj (hout.symm.trans hnormal.returned)
  exact hnormal.accepted

/-! ### Schedules -/

/-- What stands behind the first delimiter. -/
def afterDelim (text : Text) : Text := (text.dropWhile (· != openvasKbDelim)).tail

theorem afterDelim_append {token rest : Text} (h : openvasKbDelim ∉ token) :
    afterDelim (token ++ openvasKbDelim :: rest) = rest := by
  have hall : ∀ c ∈ token, (c != openvasKbDelim) = true := by
    intro c hc
    rw [bne_iff_ne]
    rintro rfl
    exact h hc
  rw [afterDelim, List.dropWhile_append_of_pos hall]
  rfl

/-- The schedule of a create request reaches the daemon: its type starts with a digit, its list has
no delimiter, and what follows the first delimiter are the time and the list. A delimiter within the
type may only be followed by just these fields. -/
def ScheduleSent (type : CStr maxCommMinSize) (time : CStr maxTimestampSize)
    (list : CStr maxScheduleListSize) : Prop :=
  type.text.head?.map Char.isDigit = some true ∧ openvasKbDelim ∉ list.text ∧
    kbMessage [time.text, list.text] <+:
      afterDelim (kbMessage [type.text, time.text, list.text])

/-- The daemon reads the three fields of a schedule from the end of a message. -/
def ScheduleRead (text : Text) (type : ℤ) (time : CStr maxTimestampSize)
    (list : CStr maxScheduleListSize) : Prop :=
  ∃ r₁ r₂ r₃, requestTokenInt text = some (type, r₁) ∧
    requestToken r₁ maxTimestampSize = some (time, r₂) ∧
    requestToken r₂ maxScheduleListSize = some (list, r₃)

/-- A number ends before the delimiter. -/
theorem atoi_append_delim {token rest : Text} (hhead : token.head?.map Char.isDigit = some true) :
    atoi (token ++ openvasKbDelim :: rest) = atoi token := by
  obtain ⟨c, hc, hdigit⟩ := Option.map_eq_some_iff.mp hhead
  obtain ⟨t, rfl⟩ := List.head?_eq_some_iff.mp hc
  have hspace : isspace c = false := isspace_of_isDigit hdigit
  have hsign : c ≠ '-' ∧ c ≠ '+' := by
    constructor <;> rintro rfl <;> simp at hdigit
  have hvalue : ∀ u : Text, atoi (c :: u) = longToInt (leadingDigits (c :: u)) := by
    intro u
    unfold atoi
    rw [List.dropWhile_cons_of_neg (by simp [hspace])]
    split
    · rename_i heq
      exact absurd (List.cons.inj heq).1 hsign.1
    · rename_i heq
      exact absurd (List.cons.inj heq).1 hsign.2
    · rfl
  have hdigits : leadingDigits (c :: t ++ openvasKbDelim :: rest) = leadingDigits (c :: t) := by
    unfold leadingDigits
    congr 1
    rw [List.takeWhile_append]
    split
    · rename_i hall
      rw [List.takeWhile_cons_of_neg (by decide), List.append_nil]
      exact (List.takeWhile_eq_self_iff.mpr fun d hd =>
        List.takeWhile_eq_self_iff.mp (List.IsPrefix.eq_of_length (List.takeWhile_prefix _) hall)
          d hd).symm
    · rfl
  rw [List.cons_append, hvalue, ← List.cons_append, hdigits, hvalue]

/-- Exactly a sent schedule is read as it is. -/
theorem scheduleRead_iff (type : CStr maxCommMinSize) {time : CStr maxTimestampSize}
    (list : CStr maxScheduleListSize) (htime : openvasKbDelim ∉ time.text) :
    ScheduleRead (kbMessage [type.text, time.text, list.text]) (atoi type.text) time list ↔
      ScheduleSent type time list := by
  have hdelimited := delimited_kbMessage [type.text, time.text, list.text]
  constructor
  · rintro ⟨r₁, r₂, r₃, htype, htimeRead, hlistRead⟩
    obtain ⟨buf, hbuf, htext, hhead, -⟩ := (requestTokenInt_delimited hdelimited).mp htype
    rw [htext] at hdelimited
    have hr₁ := hdelimited.rest
    obtain ⟨-, heq₁⟩ := (requestToken_delimited hr₁).mp htimeRead
    rw [heq₁] at hr₁
    obtain ⟨hlist, heq₂⟩ := (requestToken_delimited hr₁.rest).mp hlistRead
    refine ⟨?_, hlist, ?_⟩
    · -- the first character of the message is that of the type, or the delimiter
      rw [kbMessage_cons] at htext
      obtain ⟨c, hc, hdigit⟩ := Option.map_eq_some_iff.mp hhead
      obtain ⟨t, hcons⟩ := List.head?_eq_some_iff.mp hc
      rw [hcons] at htext
      cases htypeText : type.text with
      | nil =>
        rw [htypeText] at htext
        obtain rfl := (List.cons.inj htext).1
        simp [openvasKbDelim] at hdigit
      | cons d u =>
        rw [htypeText] at htext
        obtain rfl := (List.cons.inj htext).1
        simp [hdigit]
    · rw [htext, afterDelim_append hbuf, heq₁, heq₂]
      exact ⟨r₃, by simp [kbMessage]⟩
  · rintro ⟨hhead, hlist, r₃, hprefix⟩
    -- the token that the daemon takes for the type, and the rest of the type
    obtain ⟨buf, u, hbuf, hsplit, htype⟩ : ∃ (buf : CStr maxCommMinSize) (u : Text),
        openvasKbDelim ∉ buf.text ∧
        kbMessage [type.text, time.text, list.text] = buf.text ++ openvasKbDelim :: u ∧
        (type.text = buf.text ∨ ∃ q, type.text = buf.text ++ openvasKbDelim :: q) := by
      by_cases hmem : openvasKbDelim ∈ type.text
      · obtain ⟨p, q, heq, hp⟩ := List.eq_append_cons_of_mem hmem
        have hlen := type.fits
        have hnul := type.nulFree
        rw [heq] at hlen hnul
        have hfits : p.length < maxCommMinSize := by
          rw [List.length_append] at hlen
          omega
        have hnulFree : '\x00' ∉ p := fun h => hnul (List.mem_append_left _ h)
        refine ⟨⟨p, hfits, hnulFree⟩, q ++ openvasKbDelim :: kbMessage [time.text, list.text], hp,
          ?_, Or.inr ⟨q, heq⟩⟩
        rw [kbMessage_cons, heq, List.append_assoc, List.cons_append]
      · exact ⟨type, _, hmem, kbMessage_cons _ _, Or.inl rfl⟩
    have hvalue : atoi type.text = atoi buf.text ∧
        buf.text.head?.map Char.isDigit = some true := by
      rcases htype with heq | ⟨q, heq⟩
      · exact ⟨by rw [heq], heq ▸ hhead⟩
      · have hbufHead : buf.text.head?.map Char.isDigit = some true := by
          rw [heq] at hhead
          cases hcons : buf.text with
          | nil =>
            rw [hcons] at hhead
            simp [openvasKbDelim] at hhead
          | cons c t =>
            rw [hcons] at hhead
            simpa using hhead
        exact ⟨by rw [heq, atoi_append_delim hbufHead], hbufHead⟩
    rw [hsplit, afterDelim_append hbuf, kbMessage_cons, List.append_assoc, List.cons_append]
      at hprefix
    have hread := (requestTokenInt_delimited hdelimited).mpr
      ⟨buf, hbuf, hsplit, hvalue.2, hvalue.1⟩
    rw [hsplit] at hdelimited
    have hu := hdelimited.rest
    rw [← hprefix] at hu
    refine ⟨u, kbMessage [list.text] ++ r₃, r₃, hread, ?_, ?_⟩
    · rw [← hprefix]
      exact (requestToken_delimited hu).mpr ⟨htime, rfl⟩
    · refine (requestToken_delimited hu.rest).mpr ⟨hlist, ?_⟩
      simp [kbMessage]

/-! ### What the client has checked -/

/-- The groups of a request text belong to the expressions of its fields. -/
theorem partsMatch_phpParts {fields : List (String × Regex)} {caps : List Text} {s u : Text}
    (h : PartsMatch (phpParts fields) caps s u) :
    List.Forall₂ (fun cap field => cap ∈ field.2.lang) caps fields := by
  induction fields generalizing caps s with
  | nil =>
    rw [h.1]
    exact .nil
  | cons field fields ih =>
    obtain ⟨key, r⟩ := field
    cases fields with
    | nil =>
      obtain ⟨_, _, _, _, w, hw, _, rest, _, rfl, _, _, _, _, rfl, _⟩ := h
      exact .cons hw .nil
    | cons field fields =>
      obtain ⟨_, _, _, _, w, hw, _, rest, _, rfl, _, _, _, _, hrest⟩ := h
      exact .cons hw (ih hrest)

theorem regexec_phpPattern {fields : List (String × Regex)} {text : Text} {caps : List Text}
    (h : (phpPattern fields).regexec text = some caps) :
    List.Forall₂ (fun cap field => cap ∈ field.2.lang) caps fields := by
  rw [Pattern.regexec_of_bol rfl rfl] at h
  obtain ⟨u, hu⟩ := Pattern.here_mem h
  exact partsMatch_phpParts (Pattern.mem_matchesAt.mp hu).2.1

/-- What the parsers of the client promise about the parameters, with the normalised hosts. -/
def PhpParam.Checked : PhpParam → Prop
  | keyTask p => chkName p.taskName.text = true ∧ chkUuid p.taskId.text = true ∧
      chkUuid p.targetId.text = true
  | createTask p => chkName p.taskName.text = true ∧
      chkConfigInfo p.groupId.text p.groupName.text = true ∧ chkHosts p.hosts.text = true ∧
      chkScheduleParam (atoi p.scheduleType.text) p.scheduleTime.text p.scheduleList.text = true
  | keyHydra p => chkName p.taskName.text = true ∧ chkUuid p.taskId.text = true
  | createHydra p => chkName p.taskName.text = true ∧
      chkHydraHostsIntern p.hostsType p.hosts.text = true ∧ chkLoginList p.loginList.text = true ∧
      chkPasswdList p.passwdList.text = true ∧ chkServices p.services.text = true ∧
      p.services.text ∈ customServicesPattern.lang ∧
      chkScheduleParam (atoi p.scheduleType.text) p.scheduleTime.text p.scheduleList.text = true

theorem checked_getPhpKeyTaskParam {text : Text} {p : PhpKeyTaskParam}
    (h : getPhpKeyTaskParam text = some p) : (PhpParam.keyTask p).Checked := by
  unfold getPhpKeyTaskParam at h
  split at h
  swap
  · simp at h
  rename_i caps hcaps
  obtain ⟨name, hname, h⟩ := Option.bind_eq_some_iff.mp h
  obtain ⟨id, hid, h⟩ := Option.bind_eq_some_iff.mp h
  obtain ⟨target, htarget, h⟩ := Option.bind_eq_some_iff.mp h
  obtain rfl := Option.some.inj h
  cases regexec_phpPattern hcaps with
  | cons hnameLang hrest =>
    cases hrest with
    | cons hidLang hrest =>
      cases hrest with
      | cons htargetLang hrest =>
        refine ⟨chkName_iff.mpr ?_, chkUuid_iff.mpr ?_, chkUuid_iff.mpr ?_⟩
        · rwa [CStr.ofText_eq_some.mp hname]
        · rwa [CStr.ofText_eq_some.mp hid]
        · rwa [CStr.ofText_eq_some.mp htarget]

theorem checked_getPhpKeyHydradParam {text : Text} {p : PhpKeyHydraParam}
    (h : getPhpKeyHydradParam text = some p) : (PhpParam.keyHydra p).Checked := by
  unfold getPhpKeyHydradParam at h
  split at h
  swap
  · simp at h
  rename_i caps hcaps
  obtain ⟨name, hname, h⟩ := Option.bind_eq_some_iff.mp h
  obtain ⟨id, hid, h⟩ := Option.bind_eq_some_iff.mp h
  obtain rfl := Option.some.inj h
  cases regexec_phpPattern hcaps with
  | cons hnameLang hrest =>
    cases hrest with
    | cons hidLang hrest =>
      refine ⟨chkName_iff.mpr ?_, chkUuid_iff.mpr ?_⟩
      · rwa [CStr.ofText_eq_some.mp hname]
      · rwa [CStr.ofText_eq_some.mp hid]

theorem checked_getPhpCreateTaskParam {input : Text} {p : PhpCreateTaskParam}
    (h : getPhpCreateTaskParam input = some p) : (PhpParam.createTask p).Checked := by
  unfold getPhpCreateTaskParam at h
  split at h
  swap
  · simp at h
  obtain ⟨name, -, h⟩ := Option.bind_eq_some_iff.mp h
  obtain ⟨groupId, -, h⟩ := Option.bind_eq_some_iff.mp h
  obtain ⟨groupName, -, h⟩ := Option.bind_eq_some_iff.mp h
  obtain ⟨raw, -, h⟩ := Option.bind_eq_some_iff.mp h
  obtain ⟨type, -, h⟩ := Option.bind_eq_some_iff.mp h
  obtain ⟨time, -, h⟩ := Option.bind_eq_some_iff.mp h
  obtain ⟨list, -, h⟩ := Option.bind_eq_some_iff.mp h
  split at h
  swap
  · simp at h
  rename_i hchecks
  simp only [Bool.and_eq_true] at hchecks
  obtain ⟨hosts, hhosts, h⟩ := Option.bind_eq_some_iff.mp h
  split at h
  swap
  · simp at h
  rename_i hschedule
  obtain rfl := Option.some.inj h
  exact ⟨hchecks.1.1, hchecks.1.2, chkHosts_escapeHosts hchecks.2 hhosts, hschedule⟩

theorem checked_getPhpCreateHydraParam {input : Text} {p : PhpCreateHydraParam}
    (h : getPhpCreateHydraParam input = some p) : (PhpParam.createHydra p).Checked := by
  unfold getPhpCreateHydraParam at h
  split at h
  swap
  · simp at h
  rename_i caps hcaps
  obtain ⟨name, -, h⟩ := Option.bind_eq_some_iff.mp h
  obtain ⟨hostsType, -, h⟩ := Option.bind_eq_some_iff.mp h
  obtain ⟨raw, -, h⟩ := Option.bind_eq_some_iff.mp h
  obtain ⟨services, hservices, h⟩ := Option.bind_eq_some_iff.mp h
  obtain ⟨opts, -, h⟩ := Option.bind_eq_some_iff.mp h
  obtain ⟨login, -, h⟩ := Option.bind_eq_some_iff.mp h
  obtain ⟨passwd, -, h⟩ := Option.bind_eq_some_iff.mp h
  obtain ⟨type, -, h⟩ := Option.bind_eq_some_iff.mp h
  obtain ⟨time, -, h⟩ := Option.bind_eq_some_iff.mp h
  obtain ⟨list, -, h⟩ := Option.bind_eq_some_iff.mp h
  split at h
  swap
  · simp at h
  rename_i hchecks
  simp only [Bool.and_eq_true] at hchecks
  obtain ⟨hosts, hhosts, h⟩ := Option.bind_eq_some_iff.mp h
  split at h
  swap
  · simp at h
  rename_i hrest
  rw [Bool.and_eq_true] at hrest
  obtain rfl := Option.some.inj h
  have hlang : services.text ∈ customServicesPattern.lang := by
    rw [CStr.ofText_eq_some.mp hservices]
    have hfields := regexec_phpPattern hcaps
    simp only [List.cons_append, List.forall₂_cons] at hfields
    exact hfields.2.2.2.1
  exact ⟨hchecks.1.1.1, chkHydraHostsIntern_escapeHydraHosts hchecks.1.1.2 hhosts, hchecks.1.2,
    hchecks.2, hrest.1, hlang, hrest.2⟩

/-- The parameters that the client sends have been checked. -/
theorem PhpCommand.checked_getParam {command : PhpCommand} {input : Text} {param : PhpParam}
    (h : command.getParam input = some param) : param.Checked := by
  cases command with
  | startTask | stopTask | deleteTask =>
    obtain ⟨p, hp, rfl⟩ := Option.map_eq_some_iff.mp h
    exact checked_getPhpKeyTaskParam hp
  | createTask =>
    obtain ⟨p, hp, rfl⟩ := Option.map_eq_some_iff.mp h
    exact checked_getPhpCreateTaskParam hp
  | startHydra | stopHydra | deleteHydra =>
    obtain ⟨p, hp, rfl⟩ := Option.map_eq_some_iff.mp h
    exact checked_getPhpKeyHydradParam hp
  | createHydra =>
    obtain ⟨p, hp, rfl⟩ := Option.map_eq_some_iff.mp h
    exact checked_getPhpCreateHydraParam hp

/-! ### What the daemon obtains -/

/-- The parser of the daemon accepts the text, and every field is the one that the client checked. -/
def PhpParam.ReadBy (env : HydraEnv) (text : Text) : PhpParam → Prop
  | keyTask p => ∃ task, getKeyTaskParam text = some task ∧
      task.taskInfo.taskName = p.taskName ∧ task.taskInfo.taskId = p.taskId ∧
      task.targetInfo.targetId = p.targetId
  | createTask p => ∃ task, getCreateTaskParam text = some task ∧
      task.taskInfo.taskName = p.taskName ∧ task.taskInfo.groupId = p.groupId ∧
      task.taskInfo.groupName = p.groupName ∧ task.targetInfo.hosts = p.hosts ∧
      task.taskInfo.scheduleType = atoi p.scheduleType.text ∧
      task.taskInfo.firstScheduleTime = p.scheduleTime ∧
      task.taskInfo.scheduleList = p.scheduleList
  | keyHydra p => ∃ task, getKeyHydraParam text = some task ∧
      task.taskName = p.taskName ∧ task.taskId = p.taskId
  | createHydra p => ∃ task, getCreateHydraParam env text = some task ∧
      task.taskName = p.taskName ∧ task.hostsType.toInt = p.hostsType ∧ task.hosts = p.hosts ∧
      task.services = p.services ∧ task.opts = p.opts ∧ task.loginList = p.loginList ∧
      task.passwdList = p.passwdList ∧ task.scheduleType = atoi p.scheduleType.text ∧
      task.firstScheduleTime = p.scheduleTime ∧ task.scheduleList = p.scheduleList

/-- The parameters that reach the daemon unchanged. -/
def PhpParam.Transmittable : PhpParam → Prop
  | keyTask p => openvasKbDelim ∉ p.taskName.text
  | createTask p => openvasKbDelim ∉ p.taskName.text ∧ openvasKbDelim ∉ p.groupName.text ∧
      ScheduleSent p.scheduleType p.scheduleTime p.scheduleList
  | keyHydra p => openvasKbDelim ∉ p.taskName.text
  | createHydra p => openvasKbDelim ∉ p.taskName.text ∧ openvasKbDelim ∉ p.opts.text ∧
      openvasKbDelim ∉ p.loginList.text ∧ openvasKbDelim ∉ p.passwdList.text ∧
      ScheduleSent p.scheduleType p.scheduleTime p.scheduleList

theorem delim_not_mem_uuid {text : Text} (h : chkUuid text = true) : openvasKbDelim ∉ text := by
  intro hmem
  have hne : ∀ c, isxdigit c = true → c ≠ openvasKbDelim := fun c hc =>
    fun heq => absurd (heq ▸ hc) (by decide)
  exact forall_of_chkUuid h hne (by decide) _ hmem rfl

theorem readBy_keyTask_iff {env : HydraEnv} {p : PhpKeyTaskParam}
    (hchecked : (PhpParam.keyTask p).Checked) :
    (PhpParam.keyTask p).ReadBy env (kbMessage (PhpParam.keyTask p).fields) ↔
      openvasKbDelim ∉ p.taskName.text := by
  obtain ⟨hname, hid, htarget⟩ := hchecked
  constructor
  · rintro ⟨task, hread, heq, -⟩
    obtain ⟨⟨name, r⟩, htoken, hread⟩ := Option.bind_eq_some_iff.mp hread
    obtain ⟨⟨_, _⟩, -, hread⟩ := Option.bind_eq_some_iff.mp hread
    obtain ⟨⟨_, _⟩, -, hread⟩ := Option.bind_eq_some_iff.mp hread
    dsimp only at hread
    split at hread
    swap
    · simp at hread
    obtain rfl := Option.some.inj hread
    obtain rfl : name = p.taskName := heq
    exact (requestToken_kbMessage_iff.mp htoken).1
  · intro hdelim
    have hread : getKeyTaskParam (kbMessage (PhpParam.keyTask p).fields) =
        some
          { taskInfo := { taskName := p.taskName, taskId := p.taskId }
            targetInfo := { targetName := .copy p.taskName, targetId := p.targetId } } := by
      simp only [PhpParam.fields, getKeyTaskParam, Option.bind_eq_bind,
        requestToken_kbMessage hdelim, requestToken_kbMessage (delim_not_mem_uuid hid),
        requestToken_kbMessage (delim_not_mem_uuid htarget), Option.bind_some, hname, hid, htarget,
        Bool.and_self, if_true]
    exact ⟨_, hread, rfl, rfl, rfl⟩

theorem readBy_keyHydra_iff {env : HydraEnv} {p : PhpKeyHydraParam}
    (hchecked : (PhpParam.keyHydra p).Checked) :
    (PhpParam.keyHydra p).ReadBy env (kbMessage (PhpParam.keyHydra p).fields) ↔
      openvasKbDelim ∉ p.taskName.text := by
  obtain ⟨hname, hid⟩ := hchecked
  constructor
  · rintro ⟨task, hread, heq, -⟩
    obtain ⟨⟨name, r⟩, htoken, hread⟩ := Option.bind_eq_some_iff.mp hread
    obtain ⟨⟨_, _⟩, -, hread⟩ := Option.bind_eq_some_iff.mp hread
    dsimp only at hread
    split at hread
    swap
    · simp at hread
    obtain rfl := Option.some.inj hread
    obtain rfl : name = p.taskName := heq
    exact (requestToken_kbMessage_iff.mp htoken).1
  · intro hdelim
    have hread : getKeyHydraParam (kbMessage (PhpParam.keyHydra p).fields) =
        some { taskName := p.taskName, taskId := p.taskId } := by
      simp only [PhpParam.fields, getKeyHydraParam, Option.bind_eq_bind,
        requestToken_kbMessage hdelim, requestToken_kbMessage (delim_not_mem_uuid hid),
        Option.bind_some, hname, hid, Bool.and_self, if_true]
    exact ⟨_, hread, rfl, rfl⟩

/-- The characters of hosts, groups and services exclude the delimiter. -/
theorem delim_not_mem_of_forall {text : Text} (h : ∀ c ∈ text, c ≠ openvasKbDelim) :
    openvasKbDelim ∉ text := fun hmem => h _ hmem rfl

theorem ne_delim_of_class {q : Char → Bool} (h : q openvasKbDelim = false) {c : Char}
    (hc : q c = true) : c ≠ openvasKbDelim := by
  rintro rfl
  simp [h] at hc

theorem delim_not_mem_time {type : ℤ} {time list : Text}
    (h : chkScheduleParam type time list = true) : openvasKbDelim ∉ time := by
  rcases mem_lang_opt.mp (chkScheduleParam_time h) with rfl | htime
  · simp
  · exact delim_not_mem_of_forall (forall_of_chkTimeStamp (chkTimeStamp_iff.mpr htime)
      (fun _ => ne_delim_of_class (by decide)) (by simp [openvasKbDelim]))

theorem delim_not_mem_groupId {ids names : Text} (h : chkConfigInfo ids names = true) :
    openvasKbDelim ∉ ids := by
  refine delim_not_mem_of_forall ?_
  exact (over_customMatchOrRepeat (over_uuidRegPattern (fun _ => ne_delim_of_class (by decide))
    (by decide)) (by decide)).all_mem (chkConfigInfo_iff.mp h).1

theorem delim_not_mem_hosts {hosts : Text} (h : chkHosts hosts = true) :
    openvasKbDelim ∉ hosts :=
  delim_not_mem_of_forall (forall_of_chkHosts h (fun _ => ne_delim_of_class (by decide))
    (by simp [openvasKbDelim]))

theorem readBy_createTask_iff {env : HydraEnv} {p : PhpCreateTaskParam}
    (hchecked : (PhpParam.createTask p).Checked) :
    (PhpParam.createTask p).ReadBy env (kbMessage (PhpParam.createTask p).fields) ↔
      (PhpParam.createTask p).Transmittable := by
  obtain ⟨hname, hgroups, hhosts, hschedule⟩ := hchecked
  have hscheduleRead := scheduleRead_iff p.scheduleType p.scheduleList
    (delim_not_mem_time hschedule)
  constructor
  · rintro ⟨task, hread, hnameEq, hidEq, hgroupEq, hhostsEq, htypeEq, htimeEq, hlistEq⟩
    obtain ⟨⟨name, r₁⟩, hnameTok, hread⟩ := Option.bind_eq_some_iff.mp hread
    obtain ⟨⟨groupId, r₂⟩, hidTok, hread⟩ := Option.bind_eq_some_iff.mp hread
    obtain ⟨⟨groupName, r₃⟩, hgroupTok, hread⟩ := Option.bind_eq_some_iff.mp hread
    obtain ⟨⟨hosts, r₄⟩, hhostsTok, hread⟩ := Option.bind_eq_some_iff.mp hread
    obtain ⟨⟨type, r₅⟩, htypeTok, hread⟩ := Option.bind_eq_some_iff.mp hread
    obtain ⟨⟨time, r₆⟩, htimeTok, hread⟩ := Option.bind_eq_some_iff.mp hread
    obtain ⟨⟨list, r₇⟩, hlistTok, hread⟩ := Option.bind_eq_some_iff.mp hread
    dsimp only at hread
    split at hread
    swap
    · simp at hread
    obtain rfl := Option.some.inj hread
    dsimp only at hnameEq hidEq hgroupEq hhostsEq htypeEq htimeEq hlistEq
    subst hnameEq hidEq hgroupEq hhostsEq htypeEq htimeEq hlistEq
    obtain ⟨hdelimName, rfl⟩ := requestToken_kbMessage_iff.mp hnameTok
    obtain ⟨-, rfl⟩ := requestToken_kbMessage_iff.mp hidTok
    obtain ⟨hdelimGroup, rfl⟩ := requestToken_kbMessage_iff.mp hgroupTok
    obtain ⟨-, rfl⟩ := requestToken_kbMessage_iff.mp hhostsTok
    exact ⟨hdelimName, hdelimGroup, hscheduleRead.mp ⟨_, _, _, htypeTok, htimeTok, hlistTok⟩⟩
  · rintro ⟨hdelimName, hdelimGroup, hsent⟩
    obtain ⟨r₁, r₂, r₃, htype, htime, hlist⟩ := hscheduleRead.mpr hsent
    have hread : getCreateTaskParam (kbMessage (PhpParam.createTask p).fields) =
        some
          { taskInfo :=
              { taskName := p.taskName
                groupId := p.groupId
                groupName := p.groupName
                scheduleType := atoi p.scheduleType.text
                firstScheduleTime := p.scheduleTime
                scheduleList := p.scheduleList }
            targetInfo :=
              { targetName := .copy p.taskName
                portlistId := defOpenvasPortListId
                hosts := p.hosts } } := by
      simp only [PhpParam.fields, getCreateTaskParam, Option.bind_eq_bind,
        requestToken_kbMessage hdelimName, requestToken_kbMessage (delim_not_mem_groupId hgroups),
        requestToken_kbMessage hdelimGroup, requestToken_kbMessage (delim_not_mem_hosts hhosts),
        htype, htime, hlist, Option.bind_some, hname, hgroups, hhosts, hschedule, Bool.and_self,
        if_true]
    exact ⟨_, hread, rfl, rfl, rfl, rfl, rfl, rfl, rfl⟩

theorem delim_not_mem_services {services : Text} (h : services ∈ customServicesPattern.lang) :
    openvasKbDelim ∉ services := by
  have hover : customServicesPattern.Over fun c => c ≠ openvasKbDelim := by
    rintro c hc rfl
    exact absurd hc (by decide)
  exact delim_not_mem_of_forall (hover.all_mem h)

theorem delim_not_mem_hydraHosts {type : ℤ} {hosts : Text}
    (h : chkHydraHostsIntern type hosts = true) : openvasKbDelim ∉ hosts := by
  have hdigit : ∀ c : Char, c.isDigit = true → c ≠ openvasKbDelim :=
    fun _ => ne_delim_of_class (by decide)
  have hmark : ∀ c ∈ ['.', '/', ':', ','], c ≠ openvasKbDelim := by simp [openvasKbDelim]
  have hdot := hmark '.' (by simp)
  unfold chkHydraHostsIntern at h
  split at h
  · rw [customWholeMatchIpListIntern, regmatch_wholeMatch] at h
    exact delim_not_mem_of_forall ((over_customMatchOrRepeat (over_customHostOrPort
      (over_customIpPattern hdigit hdot) hdigit (hmark ':' (by simp))) (hmark ',' (by simp))).all_mem
        h)
  · split at h
    · rw [customWholeMatchIpBlock, regmatch_wholeMatch] at h
      exact delim_not_mem_of_forall ((over_customHostOrPort (over_customIpBlock hdigit hdot
        (hmark '/' (by simp))) hdigit (hmark ':' (by simp))).all_mem h)
    · simp at h

/-- The type of the hosts is sent as a number. -/
theorem requestTokenInt_hostsType {v : ℤ} (h : v = 0 ∨ v = 1) (fields : List Text) :
    requestTokenInt (kbMessage (decimal v :: fields)) = some (v, kbMessage fields) := by
  rcases h with rfl | rfl
  · let zero : CStr maxCommMinSize := ⟨"0".toList, by decide, by decide⟩
    exact requestTokenInt_kbMessage (show openvasKbDelim ∉ zero.text by decide) rfl _
  · let one : CStr maxCommMinSize := ⟨"1".toList, by decide, by decide⟩
    exact requestTokenInt_kbMessage (show openvasKbDelim ∉ one.text by decide) rfl _

theorem hostsType_of_chkHydraHostsIntern {type : ℤ} {hosts : Text}
    (h : chkHydraHostsIntern type hosts = true) :
    (type = 0 ∨ type = 1) ∧ ∃ t : HostsType, HostsType.ofInt type = some t := by
  unfold chkHydraHostsIntern at h
  split at h
  · rename_i hlist
    exact ⟨Or.inl hlist, .ipList, by rw [hlist]; rfl⟩
  · split at h
    · rename_i hblock
      exact ⟨Or.inr hblock, .ipBlock, by rw [hblock]; rfl⟩
    · simp at h

theorem readBy_createHydra_iff {env : HydraEnv} {p : PhpCreateHydraParam}
    (hchecked : (PhpParam.createHydra p).Checked) :
    (PhpParam.createHydra p).ReadBy env (kbMessage (PhpParam.createHydra p).fields) ↔
      (PhpParam.createHydra p).Transmittable := by
  obtain ⟨hname, hhosts, hlogin, hpasswd, hservices, hservicesLang, hschedule⟩ := hchecked
  have hscheduleRead := scheduleRead_iff p.scheduleType p.scheduleList
    (delim_not_mem_time hschedule)
  obtain ⟨htypes, hostsType, hofInt⟩ := hostsType_of_chkHydraHostsIntern hhosts
  constructor
  · rintro ⟨task, hread, hnameEq, -, hhostsEq, hservicesEq, hoptsEq, hloginEq, hpasswdEq, htypeEq,
      htimeEq, hlistEq⟩
    obtain ⟨⟨name, r₁⟩, hnameTok, hread⟩ := Option.bind_eq_some_iff.mp hread
    obtain ⟨⟨type, r₂⟩, hhostsTypeTok, hread⟩ := Option.bind_eq_some_iff.mp hread
    obtain ⟨⟨hosts, r₃⟩, hhostsTok, hread⟩ := Option.bind_eq_some_iff.mp hread
    obtain ⟨⟨services, r₄⟩, hservicesTok, hread⟩ := Option.bind_eq_some_iff.mp hread
    obtain ⟨⟨opts, r₅⟩, hoptsTok, hread⟩ := Option.bind_eq_some_iff.mp hread
    obtain ⟨⟨login, r₆⟩, hloginTok, hread⟩ := Option.bind_eq_some_iff.mp hread
    obtain ⟨⟨passwd, r₇⟩, hpasswdTok, hread⟩ := Option.bind_eq_some_iff.mp hread
    obtain ⟨⟨scheduleType, r₈⟩, htypeTok, hread⟩ := Option.bind_eq_some_iff.mp hread
    obtain ⟨⟨time, r₉⟩, htimeTok, hread⟩ := Option.bind_eq_some_iff.mp hread
    obtain ⟨⟨list, r₁₀⟩, hlistTok, hread⟩ := Option.bind_eq_some_iff.mp hread
    dsimp only at hread
    split at hread
    swap
    · simp at hread
    obtain ⟨_, -, hread⟩ := Option.bind_eq_some_iff.mp hread
    obtain rfl := Option.some.inj hread
    dsimp only at hnameEq hhostsEq hservicesEq hoptsEq hloginEq hpasswdEq htypeEq htimeEq hlistEq
    subst hnameEq hhostsEq hservicesEq hoptsEq hloginEq hpasswdEq htypeEq htimeEq hlistEq
    obtain ⟨hdelimName, rfl⟩ := requestToken_kbMessage_iff.mp hnameTok
    rw [requestTokenInt_hostsType htypes, Option.some.injEq, Prod.mk.injEq] at hhostsTypeTok
    obtain ⟨-, rfl⟩ := hhostsTypeTok
    obtain ⟨-, rfl⟩ := requestToken_kbMessage_iff.mp hhostsTok
    obtain ⟨-, rfl⟩ := requestToken_kbMessage_iff.mp hservicesTok
    obtain ⟨hdelimOpts, rfl⟩ := requestToken_kbMessage_iff.mp hoptsTok
    obtain ⟨hdelimLogin, rfl⟩ := requestToken_kbMessage_iff.mp hloginTok
    obtain ⟨hdelimPasswd, rfl⟩ := requestToken_kbMessage_iff.mp hpasswdTok
    exact ⟨hdelimName, hdelimOpts, hdelimLogin, hdelimPasswd,
      hscheduleRead.mp ⟨_, _, _, htypeTok, htimeTok, hlistTok⟩⟩
  · rintro ⟨hdelimName, hdelimOpts, hdelimLogin, hdelimPasswd, hsent⟩
    obtain ⟨r₁, r₂, r₃, htype, htime, hlist⟩ := hscheduleRead.mpr hsent
    have hread : getCreateHydraParam env (kbMessage (PhpParam.createHydra p).fields) =
        some
          { taskId := genUUID env.uuid
            taskName := p.taskName
            hosts := p.hosts
            services := p.services
            opts := p.opts
            loginList := p.loginList
            passwdList := p.passwdList
            firstScheduleTime := p.scheduleTime
            scheduleList := p.scheduleList
            scheduleType := atoi p.scheduleType.text
            hostsType := hostsType } := by
      simp only [PhpParam.fields, getCreateHydraParam, Option.bind_eq_bind,
        requestToken_kbMessage hdelimName, requestTokenInt_hostsType htypes,
        requestToken_kbMessage (delim_not_mem_hydraHosts hhosts),
        requestToken_kbMessage (delim_not_mem_services hservicesLang),
        requestToken_kbMessage hdelimOpts, requestToken_kbMessage hdelimLogin,
        requestToken_kbMessage hdelimPasswd, htype, htime, hlist, Option.bind_some, hname, hhosts,
        hlogin, hpasswd, hservices, hschedule, hofInt, Bool.and_self, if_true]
    exact ⟨_, hread, rfl, HostsType.toInt_of_ofInt hofInt, rfl, rfl, rfl, rfl, rfl, rfl, rfl, rfl⟩

/-- The daemon takes the uuid and the command of the client from the message, and the parser of this
command accepts the rest and obtains every value as the client checked it. -/
def Agrees (env : HydraEnv) (uuid : CStr maxUuidSize) (command : PhpCommand) (param : PhpParam) :
    Prop :=
  ∃ cmd rest, processMsgTokens (phpMessage uuid command param) = some (uuid, cmd, rest) ∧
    cmd.text = command.cmd ∧ param.ReadBy env rest

/-- The daemon consumes the uuid and the command. -/
theorem processMsgTokens_phpMessage (src : UuidSource) (command : PhpCommand) (param : PhpParam) :
    ∃ cmd : CStr maxCommSize, cmd.text = command.cmd ∧
      processMsgTokens (phpMessage (genUUID src) command param) =
        some (genUUID src, cmd, kbMessage param.fields) := by
  have hcmd : command.cmd.length < maxCommSize ∧ '\x00' ∉ command.cmd ∧
      openvasKbDelim ∉ command.cmd := by
    cases command <;> decide
  have huuid : chkUuid (genUUID src).text = true := src.chkUuid_render
  let cmd : CStr maxCommSize := ⟨command.cmd, hcmd.1, hcmd.2.1⟩
  refine ⟨cmd, rfl, ?_⟩
  have htoken : requestToken (kbMessage (command.cmd :: param.fields)) maxCommSize =
      some (cmd, kbMessage param.fields) :=
    requestToken_kbMessage (show openvasKbDelim ∉ cmd.text from hcmd.2.2) param.fields
  simp only [processMsgTokens, phpMessage, Option.bind_eq_bind,
    requestToken_kbMessage (delim_not_mem_uuid huuid), htoken, Option.bind_some, huuid, if_true]

theorem agrees_iff_readBy {src : UuidSource} {env : HydraEnv} {command : PhpCommand}
    {param : PhpParam} :
    Agrees env (genUUID src) command param ↔ param.ReadBy env (kbMessage param.fields) := by
  obtain ⟨cmd, hcmd, htokens⟩ := processMsgTokens_phpMessage src command param
  constructor
  · rintro ⟨cmd', rest, htokens', -, h⟩
    rw [htokens, Option.some.injEq, Prod.mk.injEq, Prod.mk.injEq] at htokens'
    obtain ⟨-, -, rfl⟩ := htokens'
    exact h
  · intro h
    exact ⟨cmd, _, htokens, hcmd, h⟩

theorem readBy_iff {env : HydraEnv} {param : PhpParam} (hchecked : param.Checked) :
    param.ReadBy env (kbMessage param.fields) ↔ param.Transmittable := by
  cases param with
  | keyTask p => exact readBy_keyTask_iff hchecked
  | createTask p => exact readBy_createTask_iff hchecked
  | keyHydra p => exact readBy_keyHydra_iff hchecked
  | createHydra p => exact readBy_createHydra_iff hchecked

/-- For every request text that the client accepts, the daemon accepts the message and obtains the
checked values exactly when the parameters are transmittable. -/
theorem agrees_iff {command : PhpCommand} {input : Text} {param : PhpParam}
    (hparam : command.getParam input = some param) (src : UuidSource) (env : HydraEnv) :
    Agrees env (genUUID src) command param ↔ param.Transmittable :=
  agrees_iff_readBy.trans (readBy_iff (PhpCommand.checked_getParam hparam))

/-- A request to start a task. -/
def samplePhpKey : Text :=
  "taskname=\"scan\"&taskid=\"".toList ++ sampleUuid 'a' ++ "\"&targetid=\"".toList ++
    sampleUuid 'b' ++ "\"".toList

theorem agrees_iff_samplePhpKey :
    ∃ param, PhpCommand.startTask.getParam samplePhpKey = some param ∧
      (Agrees (.smooth 0) (genUUID (HydraEnv.smooth 0).uuid) .startTask param ↔
        param.Transmittable) := by
  have hsome : (PhpCommand.startTask.getParam samplePhpKey).isSome = true := by decide +kernel
  obtain ⟨param, hparam⟩ := Option.isSome_iff_exists.mp hsome
  exact ⟨param, hparam, agrees_iff hparam _ _⟩

/-- A create request without a schedule, in which the type of the schedule is left out. -/
def samplePhpCreate : Text :=
  "taskname=\"scan\"&group=\"".toList ++ sampleUuid 'a' ++
    "\"&groupname=\"full\"&hosts=\"10.0.0.1 , 10.0.0.2\"&schdule_type=\"".toList ++
    "\"&schedule_time=\"\"&schedule_list=\"\"".toList

/-- The client takes the missing type for 0, and the daemon rejects the message. -/
theorem not_agrees_samplePhpCreate :
    ∃ param, PhpCommand.createTask.getParam samplePhpCreate = some param ∧
      ∀ (src : UuidSource) (env : HydraEnv), ¬Agrees env (genUUID src) .createTask param := by
  have htype : (getPhpCreateTaskParam samplePhpCreate).any
      (fun p => p.scheduleType.text.isEmpty) = true := by decide +kernel
  obtain ⟨p, hp, hempty⟩ := (Option.any_eq_true _ _).mp htype
  have hparam : PhpCommand.createTask.getParam samplePhpCreate = some (.createTask p) := by
    rw [PhpCommand.getParam, hp, Option.map_some]
  refine ⟨.createTask p, hparam, fun src env hagrees => ?_⟩
  obtain ⟨-, -, hdigit, -⟩ :=
    (readBy_iff (PhpCommand.checked_getParam hparam)).mp (agrees_iff_readBy.mp hagrees)
  rw [List.isEmpty_iff.mp hempty] at hdigit
  simp at hdigit

end OpenvasTool
