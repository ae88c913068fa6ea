import OpenvasTool.Gvm.Handlers
import OpenvasTool.Hydra.Uuid
import OpenvasTool.Support.Processes

/-!
# The data of a hydra task

The record of `hydra_business.h`, its environment, the checks of its fields and
the parameters of the hydra requests.
-/

namespace OpenvasTool

open Posix Posix.Regex Support

/-! ### Records -/

/-- `HOSTS_TYPE`. -/
inductive HostsType where
  | ipList | ipBlock
  deriving DecidableEq, Repr

/-- The integer of a hosts type, as requests and the task file have it. -/
def HostsType.toInt : HostsType → ℤ
  | ipList => 0
  | ipBlock => 1

/-- The cast to the enumeration. -/
def HostsType.ofInt (n : ℤ) : Option HostsType := [ipList, ipBlock].find? fun h => h.toInt == n

theorem HostsType.ofInt_toInt (h : HostsType) : ofInt h.toInt = some h := by cases h <;> rfl

theorem HostsType.toInt_of_ofInt {n : ℤ} {h : HostsType} (hn : ofInt n = some h) : h.toInt = n := by
  have hfound := List.find?_some hn
  simpa using hfound

/-- `struct ListHydraTask`, as `newHydraTask` leaves it. The link is the membership in the create
queue, and the paths are functions of the task id. -/
structure ListHydraTask where
  createTime : CStr maxTimestampSize := .empty
  modifyTime : CStr maxTimestampSize := .empty
  taskId : CStr maxUuidSize := .empty
  taskName : CStr maxNameSize := .empty
  hosts : CStr maxMemListSize := .empty
  services : CStr maxMemListSize := .empty
  opts : CStr maxMemListSize := .empty
  loginList : CStr maxMemListSize := .empty
  passwdList : CStr maxMemListSize := .empty
  firstScheduleTime : CStr maxTimestampSize := .empty
  scheduleList : CStr maxScheduleListSize := .empty
  scheduleType : ℤ := icalDateNone
  hostsType : HostsType := .ipList
  pid : ℕ := 0
  deriving DecidableEq

/-- `cmpHydraTime`. -/
def cmpHydraTime (task1 task2 : ListHydraTask) : ℤ :=
  strncmp maxTimestampSize task1.createTime.text task2.createTime.text

/-- `cmpHydraName`. -/
def cmpHydraName (task1 task2 : ListHydraTask) : ℤ :=
  strncmp maxNameSize task1.taskName.text task2.taskName.text

theorem comparison_cmpHydraName : Comparison cmpHydraName :=
  ⟨fun a b => strncmp_swap _ a.taskName.text b.taskName.text, strncmp_trans⟩

/-- Two tasks compare equal exactly when they have the same name. -/
theorem cmpHydraName_eq_zero {task1 task2 : ListHydraTask} :
    cmpHydraName task1 task2 = 0 ↔ task1.taskName = task2.taskName :=
  CStr.strncmp_eq_zero _ _

/-! ### Environment -/

/-- The outcomes of all system calls during one step of the hydra part. -/
structure HydraEnv extends Env where
  /-- What `genUUID` reads. -/
  uuid : UuidSource
  /-- `stat` of a file, apart from a missing one. -/
  stat : Text → Bool
  /-- The allocation and the reading of a file. -/
  read : Text → Bool
  /-- How many bytes the call with this number of `writeFile` or `appendFile` for a file stores,
  or `none` when the file cannot be opened. -/
  store : Text → ℕ → Option ℕ
  /-- `rename` to this file. -/
  rename : Text → Bool
  /-- `progPath`. -/
  progPath : Text
  /-- `fork`. -/
  fork : Option ℕ
  /-- `kill`. -/
  kill : Bool

/-! ### Checks -/

/-- `chkHydraHostsIntern`. -/
def chkHydraHostsIntern (hostsType : ℤ) (hosts : Text) : Bool :=
  if hostsType = 0 then regmatch hosts customWholeMatchIpListIntern
  else if hostsType = 1 then regmatch hosts customWholeMatchIpBlock
  else false

/-- `chkLoginList`. -/
def chkLoginList (text : Text) : Bool :=
  regmatch text (customWholeMatch (customMatchOrRepeat gvmNamePattern))

/-- `chkPasswdList`. -/
def chkPasswdList (text : Text) : Bool :=
  regmatch text (customWholeMatch (customMatchOrRepeat gvmNamePattern))

/-- `SYS_SERVICE_LIST`. -/
def sysServiceList : List Text :=
  ["ftp".toList, "ssh".toList, "telnet".toList, "rtsp".toList, "mysql".toList, "rdp".toList,
    "onvif".toList, "http-get".toList]

/-- The loop of `chkServices`; every token takes at least one byte of the text. -/
def chkServicesLoop : ℕ → Bool → Text → Bool
  | 0, _, _ => false
  | fuel + 1, hasService, text =>
      match getNextToken text ",".toList maxNameSize with
      | .ok (service, rest) =>
          if service.text ∈ sysServiceList then chkServicesLoop fuel true rest else false
      | .error .empty => hasService
      | .error _ => false

/-- `chkServices`. -/
def chkServices (text : Text) : Bool := chkServicesLoop (text.length + 1) false text

/-! ### Parameters -/

/-- `getKeyHydraParam`: the key task of a start, stop or delete request. -/
def getKeyHydraParam (input : Text) : Option ListHydraTask := do
  let (taskName, input) ← requestToken input maxNameSize
  let (taskId, _) ← requestToken input maxUuidSize
  if chkName taskName.text && chkUuid taskId.text then
    some { taskName := taskName, taskId := taskId }
  else none

/-- `getCreateHydraParam`: the task of a create request. -/
def getCreateHydraParam (env : HydraEnv) (input : Text) : Option ListHydraTask := do
  let (taskName, input) ← requestToken input maxNameSize
  let (hostsType, input) ← requestTokenInt input
  let (hosts, input) ← requestToken input maxMemListSize
  let (services, input) ← requestToken input maxMemListSize
  let (opts, input) ← requestToken input maxMemListSize
  let (loginList, input) ← requestToken input maxMemListSize
  let (passwdList, input) ← requestToken input maxMemListSize
  let (type, input) ← requestTokenInt input
  let (scheduleTime, input) ← requestToken input maxTimestampSize
  let (scheduleList, _) ← requestToken input maxScheduleListSize
  if chkName taskName.text && chkHydraHostsIntern hostsType hosts.text &&
      chkLoginList loginList.text && chkPasswdList passwdList.text &&
      chkServices services.text && chkScheduleParam type scheduleTime.text scheduleList.text then do
    let hostsType ← HostsType.ofInt hostsType
    some
      { taskId := genUUID env.uuid
        taskName := taskName
        hosts := hosts
        services := services
        opts := opts
        loginList := loginList
        passwdList := passwdList
        firstScheduleTime := scheduleTime
        scheduleList := scheduleList
        scheduleType := type
        hostsType := hostsType }
  else none

end OpenvasTool
