import OpenvasTool.TaskOpenvas
import OpenvasTool.LList

/-!
# The data of a GVM task

The records and enumerations of `openvas_business.h`, their initial values, the
setters of a task and the predicates on its check state.
-/

namespace OpenvasTool

open Posix

/-! ### Results of requests -/

/-- `GVM_ERR_CODE`. -/
inductive GvmErrCode where
  | fail | success | paramInvalid | internalFail | waitTimeout | taskNotFound
  | taskAlreadyExists | taskIsBusy | taskIsNotRunning | openvasProcFail | redisConn | gvmdConn
  deriving DecidableEq, Repr

/-- The integer that a handler returns. -/
def GvmErrCode.toInt : GvmErrCode → ℤ
  | fail => -1
  | success => 0
  | paramInvalid => 1
  | internalFail => 2
  | waitTimeout => 3
  | taskNotFound => 4
  | taskAlreadyExists => 5
  | taskIsBusy => 6
  | taskIsNotRunning => 7
  | openvasProcFail => 8
  | redisConn => 9
  | gvmdConn => 10

theorem GvmErrCode.toInt_injective : Function.Injective GvmErrCode.toInt := by
  intro a b h
  cases a <;> cases b <;> first | rfl | exact absurd h (by decide)

/-! ### Enumerations -/

/-- `GVM_TASK_STATUS`. -/
inductive GvmTaskStatus where
  | create | ready | waiting | running | done | stop | interrupt | error
  deriving DecidableEq, Repr

/-- The integer of a status, as the status file has it. -/
def GvmTaskStatus.toInt : GvmTaskStatus → ℤ
  | create => 0
  | ready => 1
  | waiting => 2
  | running => 3
  | done => 4
  | stop => 5
  | interrupt => 6
  | error => 7

/-- The cast to the enumeration for the values from `GVM_TASK_CREATE` to below `GVM_TASK_ERROR`. -/
def GvmTaskStatus.ofInt (n : ℤ) : Option GvmTaskStatus :=
  [create, ready, waiting, running, done, stop, interrupt].find? fun s => s.toInt == n

theorem GvmTaskStatus.ofInt_toInt {s : GvmTaskStatus} (h : s ≠ error) :
    ofInt s.toInt = some s := by
  cases s <;> first | rfl | exact absurd rfl h

/-- `GVM_TASK_CHK_TYPE`. -/
inductive GvmTaskChkType where
  | chkTask | chkReport | chkResult | chkDeleted
  deriving DecidableEq, Repr

/-- The integer of a check type, as the status file has it. -/
def GvmTaskChkType.toInt : GvmTaskChkType → ℤ
  | chkTask => 0
  | chkReport => 1
  | chkResult => 2
  | chkDeleted => 3

/-- The cast to the enumeration for the values below `GVM_TASK_CHK_END`. -/
def GvmTaskChkType.ofInt (n : ℤ) : Option GvmTaskChkType :=
  [chkTask, chkReport, chkResult, chkDeleted].find? fun c => c.toInt == n

theorem GvmTaskChkType.ofInt_toInt (c : GvmTaskChkType) : ofInt c.toInt = some c := by
  cases c <;> rfl

/-- `DEF_TASK_CHK_TIME_INTERVAL`. -/
def defTaskChkTimeInterval : GvmTaskChkType → ℤ
  | .chkTask => 300
  | .chkReport => 120
  | .chkResult => 5
  | .chkDeleted => 300

/-! ### Times -/

/-- `struct tm`, with the calendar year and month. -/
structure Tm where
  year : ℤ
  mon : ℕ
  mday : ℕ
  hour : ℕ
  min : ℕ
  sec : ℕ
  deriving DecidableEq, Repr

/-- The conversions `%m`, `%d`, `%H`, `%M` and `%S`. -/
def twoDigits (n : ℕ) : Text := if n < 10 then '0' :: Nat.toDigits 10 n else Nat.toDigits 10 n

/-- `strftime` with `%Y-%m-%d %H:%M:%S`. -/
def Tm.timeStamp (tm : Tm) : Text :=
  decimal tm.year ++ "-".toList ++ twoDigits tm.mon ++ "-".toList ++ twoDigits tm.mday ++
    " ".toList ++ twoDigits tm.hour ++ ":".toList ++ twoDigits tm.min ++ ":".toList ++
    twoDigits tm.sec

theorem isDigit_of_mem_twoDigits {n : ℕ} {c : Char} (h : c ∈ twoDigits n) : c.isDigit = true := by
  have hdigits : ∀ d ∈ Nat.toDigits 10 n, d.isDigit = true :=
    fun d hd => Nat.isDigit_of_mem_toDigits (by decide) (by decide) hd
  unfold twoDigits at h
  split at h
  · rcases List.mem_cons.mp h with rfl | h
    · rfl
    · exact hdigits c h
  · exact hdigits c h

/-- A time stamp stays on one line. -/
theorem Tm.timeStamp_newline_free (tm : Tm) : '\n' ∉ tm.timeStamp := by
  have htwo : ∀ n, '\n' ∉ twoDigits n := fun n h => by
    simpa using isDigit_of_mem_twoDigits h
  have hyear : '\n' ∉ decimal tm.year := fun h => by
    rcases mem_decimal h with h | h <;> simp at h
  simp only [Tm.timeStamp, List.mem_append, htwo, hyear, false_or, or_false]
  decide

/-- `strftime` with `CUSTOM_SCHEDULE_TIME_MARK`. -/
def Tm.schedTime (tm : Tm) : Text :=
  decimal tm.year ++ twoDigits tm.mon ++ twoDigits tm.mday ++ "T".toList ++
    twoDigits tm.hour ++ twoDigits tm.min ++ twoDigits tm.sec ++ "Z".toList

/-! ### Records -/

/-- `struct gvm_target_info`. -/
structure GvmTargetInfo where
  targetName : CStr maxNameSize := .empty
  targetId : CStr maxUuidSize := .empty
  portlistId : CStr maxUuidSize := .empty
  hosts : CStr maxMemListSize := .empty
  deriving DecidableEq

/-- `struct gvm_task_info`. -/
structure GvmTaskInfo where
  scheduleType : ℤ := icalDateNone
  configCreated : Bool := false
  scheduleCreated : Bool := false
  createTime : CStr maxTimestampSize := .empty
  modifyTime : CStr maxTimestampSize := .empty
  taskId : CStr maxUuidSize := .empty
  taskName : CStr maxNameSize := .empty
  groupId : CStr maxMemListSize := .empty
  groupName : CStr maxMemListSize := .empty
  configId : CStr maxUuidSize := .empty
  scheduleId : CStr maxUuidSize := .empty
  firstScheduleTime : CStr maxTimestampSize := .empty
  scheduleList : CStr maxScheduleListSize := .empty
  deriving DecidableEq

/-- `struct gvm_report_info`. -/
structure GvmReportInfo where
  reportCnt : ℤ := 0
  finishCnt : ℤ := 0
  progress : ℤ := 0
  status : GvmTaskStatus := .create
  startTime : CStr maxTimestampSize := .empty
  stopTime : CStr maxTimestampSize := .empty
  curReportId : CStr maxUuidSize := .empty
  lastReportId : CStr maxUuidSize := .empty
  deriving DecidableEq

/-- `struct ResultNvtInfo`. -/
structure ResultNvtInfo where
  resId : CStr maxUuidSize := .empty
  resName : CStr maxNvtNameSize := .empty
  resHost : CStr maxCommSize := .empty
  resPort : CStr maxCommSize := .empty
  resThreat : CStr maxCommMinSize := .empty
  resSeverity : CStr maxCommMinSize := .empty
  resCreateTime : CStr maxTimestampSize := .empty
  resCve : CStr maxCommMinSize := .empty
  deriving DecidableEq

/-- `struct gvm_result_info`, as `initGvmResultInfo` and `resetGvmResultInfo` leave it. -/
structure GvmResultInfo where
  totalCnt : ℤ := -1
  first : ℤ := 1
  rows : ℤ := 10
  done : Bool := false
  results : ListQueue ResultNvtInfo := .initListQue
  deriving DecidableEq

/-- `struct ListGvmTask`, as `newGvmTask` leaves it. The two links are the membership in the
queues, and the paths are functions of the task id. -/
structure ListGvmTask where
  taskInfo : GvmTaskInfo := {}
  targetInfo : GvmTargetInfo := {}
  reportInfo : GvmReportInfo := {}
  resultInfo : GvmResultInfo := {}
  chkType : GvmTaskChkType := .chkTask
  chkTime : ℤ := 0
  deriving DecidableEq

namespace ListGvmTask

/-! ### Setters -/

/-- `setTaskStatus`. -/
def setTaskStatus (task : ListGvmTask) (status : GvmTaskStatus) : ListGvmTask :=
  { task with reportInfo := { task.reportInfo with status := status } }

/-- `setTaskProgress`. -/
def setTaskProgress (task : ListGvmTask) (progress : ℤ) : ListGvmTask :=
  { task with reportInfo := { task.reportInfo with progress := progress } }

/-- `setTaskChkType`. -/
def setTaskChkType (task : ListGvmTask) (type : GvmTaskChkType) : ListGvmTask :=
  { task with chkType := type }

/-- `setTaskStartTime`: a time that comes from a buffer of the same size always fits. -/
def setTaskStartTime (task : ListGvmTask) (time : CStr maxTimestampSize) : ListGvmTask :=
  { task with reportInfo := { task.reportInfo with startTime := time } }

/-- `setTaskStopTime`. -/
def setTaskStopTime (task : ListGvmTask) (time : CStr maxTimestampSize) : ListGvmTask :=
  { task with reportInfo := { task.reportInfo with stopTime := time } }

/-- `setTaskNextChkTime`, with the reading `clk` of the monotonic clock. -/
def setTaskNextChkTime (task : ListGvmTask) (clk time : ℤ) : ListGvmTask :=
  { task with chkTime := if 0 < time then clk + time else 0 }

/-- `resetGvmResultInfo`. -/
def resetGvmResultInfo (task : ListGvmTask) : ListGvmTask := { task with resultInfo := {} }

/-! ### Predicates on the check state -/

/-- `chkTaskRunning`. -/
def chkTaskRunning (task : ListGvmTask) : Bool :=
  task.reportInfo.status == .waiting || task.reportInfo.status == .running

/-- `chkTaskDone`. -/
def chkTaskDone (task : ListGvmTask) : Bool :=
  task.reportInfo.status == .done || task.reportInfo.status == .stop ||
    task.reportInfo.status == .interrupt

/-- `chkTaskBusy`. -/
def chkTaskBusy (task : ListGvmTask) : Bool :=
  task.chkTaskRunning || task.chkType != .chkTask

/-- `isTaskChkTimeExpired`, with the reading `clk` of the monotonic clock. -/
def isTaskChkTimeExpired (task : ListGvmTask) (clk : ℤ) : Bool := decide (task.chkTime ≤ clk)

end ListGvmTask

/-! ### Comparisons -/

/-- `cmpGvmName`. -/
def cmpGvmName (task1 task2 : ListGvmTask) : ℤ :=
  strncmp maxNameSize task1.taskInfo.taskName.text task2.taskInfo.taskName.text

/-- `cmpGvmCreateTime`. -/
def cmpGvmCreateTime (task1 task2 : ListGvmTask) : ℤ :=
  strncmp maxTimestampSize task1.taskInfo.createTime.text task2.taskInfo.createTime.text

/-- `cmpGvmRunChkTime`: the difference of two `long long` is cut to an `int`. -/
def cmpGvmRunChkTime (task1 task2 : ListGvmTask) : ℤ :=
  Int.bmod (task1.chkTime - task2.chkTime) (2 ^ 32)

/-- `cmpNvtHost`. -/
def cmpNvtHost (nvt1 nvt2 : ResultNvtInfo) : ℤ :=
  strncmp maxCommSize nvt1.resHost.text nvt2.resHost.text

open Support in
theorem comparison_cmpGvmName : Comparison cmpGvmName :=
  ⟨fun a b => strncmp_swap _ a.taskInfo.taskName.text b.taskInfo.taskName.text, strncmp_trans⟩

open Support in
theorem comparison_cmpGvmCreateTime : Comparison cmpGvmCreateTime :=
  ⟨fun a b => strncmp_swap _ a.taskInfo.createTime.text b.taskInfo.createTime.text, strncmp_trans⟩

open Support in
theorem comparison_cmpNvtHost : Comparison cmpNvtHost :=
  ⟨fun a b => strncmp_swap _ a.resHost.text b.resHost.text, strncmp_trans⟩

/-- Two tasks compare equal exactly when they have the same name. -/
theorem cmpGvmName_eq_zero {task1 task2 : ListGvmTask} :
    cmpGvmName task1 task2 = 0 ↔ task1.taskInfo.taskName = task2.taskInfo.taskName :=
  CStr.strncmp_eq_zero _ _

end OpenvasTool
