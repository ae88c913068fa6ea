import OpenvasTool.Messages

/-!
# The client

The functions that the PHP extension calls: they check the text of a request,
normalise the hosts, and send the fields to the daemon as one message.
-/

namespace OpenvasTool

open Posix Posix.Regex

/-! ### Hosts -/

/-- The loop of `escapeHosts`: other characters than the kept ones become one comma. The flags are
`isDelim` and whether something has been written. -/
def escapeHostsLoop (keep : Char → Bool) : Bool → Bool → Text → Text
  | _, _, [] => []
  | isDelim, written, c :: hosts =>
      if keep c then c :: escapeHostsLoop keep false true hosts
      else if !isDelim && written then ',' :: escapeHostsLoop keep true true hosts
      else escapeHostsLoop keep isDelim written hosts

theorem length_escapeHostsLoop_le (keep : Char → Bool) (isDelim written : Bool) (hosts : Text) :
    (escapeHostsLoop keep isDelim written hosts).length ≤ hosts.length := by
  induction hosts generalizing isDelim written with
  | nil => simp [escapeHostsLoop]
  | cons c hosts ih =>
    have hkept := ih false true
    have hdelim := ih true true
    have hskip := ih isDelim written
    unfold escapeHostsLoop
    split
    · simpa using hkept
    · split
      · simpa using hdelim
      · rw [List.length_cons]
        omega

theorem mem_escapeHostsLoop {keep : Char → Bool} {isDelim written : Bool} {hosts : Text} {c : Char}
    (h : c ∈ escapeHostsLoop keep isDelim written hosts) : c = ',' ∨ c ∈ hosts := by
  induction hosts generalizing isDelim written with
  | nil => simp [escapeHostsLoop] at h
  | cons d hosts ih =>
    unfold escapeHostsLoop at h
    split at h
    · rcases List.mem_cons.mp h with rfl | h
      · simp
      · rcases ih h with h | h <;> simp [h]
    · split at h
      · rcases List.mem_cons.mp h with rfl | h
        · simp
        · rcases ih h with h | h <;> simp [h]
      · rcases ih h with h | h <;> simp [h]

/-- Erase the last comma. -/
def eraseLastComma (hosts : Text) : Text :=
  if hosts.getLast? = some ',' then hosts.dropLast else hosts

theorem eraseLastComma_sublist (hosts : Text) : (eraseLastComma hosts).Sublist hosts := by
  unfold eraseLastComma
  split
  · exact List.dropLast_sublist hosts
  · exact List.Sublist.refl hosts

/-- The two functions that normalise hosts in their buffer; no hosts at all are an error. -/
def escapeHostsWith (keep : Char → Bool) {n : ℕ} (hosts : CStr n) : Option (CStr n) :=
  let out := eraseLastComma (escapeHostsLoop keep false false hosts.text)
  have hsub := eraseLastComma_sublist (escapeHostsLoop keep false false hosts.text)
  if out = [] then none
  else some
    { text := out
      fits := by
        have hlen := length_escapeHostsLoop_le keep false false hosts.text
        exact lt_of_le_of_lt (hsub.length_le.trans hlen) hosts.fits
      nulFree := by
        intro hnul
        rcases mem_escapeHostsLoop (hsub.subset hnul) with hcomma | hmem
        · simp at hcomma
        · exact hosts.nulFree hmem }

/-- `escapeHosts`. -/
def escapeHosts {n : ℕ} (hosts : CStr n) : Option (CStr n) :=
  escapeHostsWith (fun c => c.isDigit || c == '/' || c == '.' || c == '-') hosts

/-- `escapeHydraHosts`. -/
def escapeHydraHosts {n : ℕ} (hosts : CStr n) : Option (CStr n) :=
  escapeHostsWith (fun c => c.isDigit || c == '/' || c == '.' || c == ':') hosts

/-- `chkHydraHosts`. -/
def chkHydraHosts (hostsType : ℤ) (hosts : Text) : Bool :=
  if hostsType = 0 then regmatch hosts customWholeMatchIpList
  else if hostsType = 1 then regmatch hosts customWholeMatchIpBlock
  else false

/-! ### Parameters -/

/-- The parts of a request text: every field as `key="value"`, joined by `&`. -/
def phpParts : List (String × Regex) → List Part
  | [] => []
  | [(key, r)] => [.plain (lit (key.toList ++ "=\"".toList)), .group r, .plain (lit "\"".toList)]
  | (key, r) :: fields =>
      .plain (lit (key.toList ++ "=\"".toList)) :: .group r :: .plain (lit "\"&".toList) ::
        phpParts fields

/-- The pattern of a request text. -/
def phpPattern (fields : List (String × Regex)) : Pattern := ⟨true, phpParts fields, true, false⟩

/-- `struct php_key_task_param`. -/
structure PhpKeyTaskParam where
  taskName : CStr maxNameSize
  taskId : CStr maxUuidSize
  targetId : CStr maxUuidSize

/-- `struct php_key_hydra_param`. -/
structure PhpKeyHydraParam where
  taskName : CStr maxNameSize
  taskId : CStr maxUuidSize

/-- `struct php_create_task_param`. -/
structure PhpCreateTaskParam where
  taskName : CStr maxNameSize
  groupName : CStr maxMemListSize
  groupId : CStr maxMemListSize
  hosts : CStr maxMemListSize
  scheduleType : CStr maxCommMinSize
  scheduleTime : CStr maxTimestampSize
  scheduleList : CStr maxScheduleListSize

/-- `struct php_create_hydra_param`. -/
structure PhpCreateHydraParam where
  hostsType : ℤ
  taskName : CStr maxNameSize
  hosts : CStr maxMemListSize
  services : CStr maxMemListSize
  opts : CStr maxMemListSize
  loginList : CStr maxMemListSize
  passwdList : CStr maxMemListSize
  scheduleType : CStr maxCommMinSize
  scheduleTime : CStr maxTimestampSize
  scheduleList : CStr maxScheduleListSize

def phpKeyTaskPattern : Pattern :=
  phpPattern [("taskname", gvmNamePattern), ("taskid", uuidRegPattern),
    ("targetid", uuidRegPattern)]

/-- `getPhpKeyTaskParam`. -/
def getPhpKeyTaskParam (text : Text) : Option PhpKeyTaskParam :=
  match phpKeyTaskPattern.regexec text with
  | some [taskName, taskId, targetId] => do
      let taskName ← CStr.ofText maxNameSize taskName
      let taskId ← CStr.ofText maxUuidSize taskId
      let targetId ← CStr.ofText maxUuidSize targetId
      some ⟨taskName, taskId, targetId⟩
  | _ => none

def phpKeyHydraPattern : Pattern :=
  phpPattern [("taskname", gvmNamePattern), ("taskid", uuidRegPattern)]

/-- `getPhpKeyHydradParam`. -/
def getPhpKeyHydradParam (text : Text) : Option PhpKeyHydraParam :=
  match phpKeyHydraPattern.regexec text with
  | some [taskName, taskId] => do
      let taskName ← CStr.ofText maxNameSize taskName
      let taskId ← CStr.ofText maxUuidSize taskId
      some ⟨taskName, taskId⟩
  | _ => none

/-- The fields of a schedule, at the end of both create requests. -/
def phpScheduleFields : List (String × Regex) :=
  [("schdule_type", customCommPattern), ("schedule_time", opt customCommPattern),
    ("schedule_list", customCommPattern)]

def phpCreateTaskPattern : Pattern :=
  phpPattern ([("taskname", customCommPattern), ("group", customCommPattern),
    ("groupname", customCommPattern), ("hosts", customCommPattern)] ++ phpScheduleFields)

/-- `getPhpCreateTaskParam`. -/
def getPhpCreateTaskParam (input : Text) : Option PhpCreateTaskParam :=
  match phpCreateTaskPattern.regexec input with
  | some [taskName, groupId, groupName, hosts, scheduleType, scheduleTime, scheduleList] => do
      let taskName ← CStr.ofText maxNameSize taskName
      let groupId ← CStr.ofText maxMemListSize groupId
      let groupName ← CStr.ofText maxMemListSize groupName
      let hosts ← CStr.ofText maxMemListSize hosts
      let scheduleType ← CStr.ofText maxCommMinSize scheduleType
      let scheduleTime ← CStr.ofText maxTimestampSize scheduleTime
      let scheduleList ← CStr.ofText maxScheduleListSize scheduleList
      if chkName taskName.text && chkConfigInfo groupId.text groupName.text &&
          chkHostsExt hosts.text then do
        let hosts ← escapeHosts hosts
        if chkScheduleParam (atoi scheduleType.text) scheduleTime.text scheduleList.text then
          some ⟨taskName, groupName, groupId, hosts, scheduleType, scheduleTime, scheduleList⟩
        else none
      else none
  | _ => none

def phpCreateHydraPattern : Pattern :=
  phpPattern ([("taskname", customCommPattern), ("hosts_type", customOnOffPattern),
    ("hosts", customCommPattern), ("services", customServicesPattern),
    ("opts", customCommPattern), ("login_list", customCommPattern),
    ("passwd_list", customCommPattern)] ++ phpScheduleFields)

/-- `getPhpCreateHydraParam`. -/
def getPhpCreateHydraParam (input : Text) : Option PhpCreateHydraParam :=
  match phpCreateHydraPattern.regexec input with
  | some [taskName, hostsType, hosts, services, opts, loginList, passwdList, scheduleType,
        scheduleTime, scheduleList] => do
      let taskName ← CStr.ofText maxNameSize taskName
      let hostsType ← CStr.ofText maxCommMinSize hostsType
      let hosts ← CStr.ofText maxMemListSize hosts
      let services ← CStr.ofText maxMemListSize services
      let opts ← CStr.ofText maxMemListSize opts
      let loginList ← CStr.ofText maxMemListSize loginList
      let passwdList ← CStr.ofText maxMemListSize passwdList
      let scheduleType ← CStr.ofText maxCommMinSize scheduleType
      let scheduleTime ← CStr.ofText maxTimestampSize scheduleTime
      let scheduleList ← CStr.ofText maxScheduleListSize scheduleList
      if chkName taskName.text && chkHydraHosts (atoi hostsType.text) hosts.text &&
          chkLoginList loginList.text && chkPasswdList passwdList.text then do
        let hosts ← escapeHydraHosts hosts
        if chkServices services.text &&
            chkScheduleParam (atoi scheduleType.text) scheduleTime.text scheduleList.text then
          some ⟨atoi hostsType.text, taskName, hosts, services, opts, loginList, passwdList,
            scheduleType, scheduleTime, scheduleList⟩
        else none
      else none
  | _ => none

/-! ### Messages -/

/-- The commands of the client. -/
inductive PhpCommand where
  | startTask | stopTask | deleteTask | createTask
  | startHydra | stopHydra | deleteHydra | createHydra
  deriving DecidableEq, Repr

/-- The name of a command in a message. -/
def PhpCommand.cmd : PhpCommand → Text
  | startTask => "start_task".toList
  | stopTask => "stop_task".toList
  | deleteTask => "delete_task".toList
  | createTask => "create_task".toList
  | startHydra => "start_hydra".toList
  | stopHydra => "stop_hydra".toList
  | deleteHydra => "delete_hydra".toList
  | createHydra => "create_hydra".toList

/-- The checked parameters of a request. -/
inductive PhpParam where
  | keyTask (param : PhpKeyTaskParam)
  | createTask (param : PhpCreateTaskParam)
  | keyHydra (param : PhpKeyHydraParam)
  | createHydra (param : PhpCreateHydraParam)

/-- The parser that `php_start_task` and the other functions use. -/
def PhpCommand.getParam : PhpCommand → Text → Option PhpParam
  | startTask, input => (getPhpKeyTaskParam input).map .keyTask
  | stopTask, input => (getPhpKeyTaskParam input).map .keyTask
  | deleteTask, input => (getPhpKeyTaskParam input).map .keyTask
  | createTask, input => (getPhpCreateTaskParam input).map .createTask
  | startHydra, input => (getPhpKeyHydradParam input).map .keyHydra
  | stopHydra, input => (getPhpKeyHydradParam input).map .keyHydra
  | deleteHydra, input => (getPhpKeyHydradParam input).map .keyHydra
  | createHydra, input => (getPhpCreateHydraParam input).map .createHydra

/-- The fields of a message, behind the uuid and the command. -/
def PhpParam.fields : PhpParam → List Text
  | keyTask p => [p.taskName.text, p.taskId.text, p.targetId.text]
  | createTask p =>
      [p.taskName.text, p.groupId.text, p.groupName.text, p.hosts.text, p.scheduleType.text,
        p.scheduleTime.text, p.scheduleList.text]
  | keyHydra p => [p.taskName.text, p.taskId.text]
  | createHydra p =>
      [p.taskName.text, decimal p.hostsType, p.hosts.text, p.services.text, p.opts.text,
        p.loginList.text, p.passwdList.text, p.scheduleType.text, p.scheduleTime.text,
        p.scheduleList.text]

/-- The message of a request; all fields together fit the buffer. -/
def phpMessage (uuid : CStr maxUuidSize) (command : PhpCommand) (param : PhpParam) : Text :=
  kbMessage (uuid.text :: command.cmd :: param.fields)

end OpenvasTool
