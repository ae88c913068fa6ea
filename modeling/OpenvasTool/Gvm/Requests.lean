import OpenvasTool.Gvm.Env

/-!
# Commands to gvmd

The functions `gvm_*` of the daemon: check the parameters, send one command,
and take an identifier out of the answer. A function is `none` or `false` where
the C function does not return 0.
-/

namespace OpenvasTool

open Posix

variable (env : Env)

/-- `procGvmTask`, for a command that fits the work buffers. -/
def procGvmTask (req : GvmRequest) : Sent (Option GvmRsp) where
  val := (env.gvmd req).filter fun rsp => chkRspStatusOk req.cmd rsp.text == 0
  sent := [req]

/-- A command that is sent only for an identifier of the right form. -/
def uuidCommand (uuid : Text) (req : GvmRequest) : Sent (Option GvmRsp) :=
  if chkUuid uuid then procGvmTask env req else .pure none

/-- `gvm_start_task`. -/
def gvmStartTask (uuid : Text) : Sent (Option (CStr maxUuidSize)) :=
  (uuidCommand env uuid (.startTask uuid)).andThen fun rsp =>
    .pure (rsp.bind fun rsp => extractTagUuid rsp.text "report_id".toList maxUuidSize)

/-- `gvm_stop_task`. -/
def gvmStopTask (uuid : Text) : Sent (Option GvmRsp) := uuidCommand env uuid (.stopTask uuid)

/-- `gvm_query_report`. -/
def gvmQueryReport (uuid : Text) : Sent (Option GvmRsp) := uuidCommand env uuid (.getReports uuid)

/-- `gvm_query_task`. -/
def gvmQueryTask (uuid : Text) : Sent (Option GvmRsp) := uuidCommand env uuid (.getTasks uuid)

/-- `gvm_query_result`. -/
def gvmQueryResult (taskid reportid : Text) (first rows : ℤ) : Sent (Option GvmRsp) :=
  if chkUuid taskid then
    uuidCommand env reportid (.getResults taskid reportid first rows)
  else .pure none

/-- `gvm_option_delete_task`: nothing to do without an identifier. -/
def gvmOptionDeleteTask (uuid : Text) : Sent Bool :=
  if uuid.isEmpty then .pure true
  else (uuidCommand env uuid (.deleteTask uuid)).andThen fun rsp => .pure rsp.isSome

/-- `gvm_option_delete_target`: nothing to do without an identifier. -/
def gvmOptionDeleteTarget (uuid : Text) : Sent Bool :=
  if uuid.isEmpty then .pure true
  else (uuidCommand env uuid (.deleteTarget uuid)).andThen fun rsp => .pure rsp.isSome

/-- `gvm_delete_schedule`. -/
def gvmDeleteSchedule (uuid : Text) : Sent Bool :=
  (uuidCommand env uuid (.deleteSchedule uuid)).andThen fun rsp => .pure rsp.isSome

/-- `gvm_delete_config`. -/
def gvmDeleteConfig (uuid : Text) : Sent Bool :=
  (uuidCommand env uuid (.deleteConfig uuid)).andThen fun rsp => .pure rsp.isSome

/-- Send a command that creates an object and take its identifier out of the answer. -/
def createCommand (req : GvmRequest) : Sent (Option (CStr maxUuidSize)) :=
  (procGvmTask env req).andThen fun rsp =>
    .pure (rsp.bind fun rsp =>
      extractAttrUuid rsp.text (req.cmd ++ "_response".toList) maxUuidSize)

/-- `gvm_create_target`. -/
def gvmCreateTarget (name hosts portlist : Text) : Sent (Option (CStr maxUuidSize)) :=
  if chkUuid portlist && chkHosts hosts && chkName name then
    createCommand env (.createTarget name hosts portlist)
  else .pure none

/-- `gvm_create_task`. -/
def gvmCreateTask (name target config schedule : Text) : Sent (Option (CStr maxUuidSize)) :=
  if chkUuid target && chkUuid config && chkName name then
    createCommand env (.createTask name target config schedule)
  else .pure none

/-- The recurrence rule of a schedule, or `none` for an invalid type. -/
def scheduleRule (type : ℤ) (list : Text) : Option Text :=
  if type = icalDateOnce then some []
  else if type = icalDateDaily then some ("RRULE:FREQ=DAILY".toList ++ "\r\n".toList)
  else if type = icalDateWeekly then
    some ("RRULE:FREQ=WEEKLY;BYDAY=".toList ++ list ++ "\r\n".toList)
  else if type = icalDateMonthly then
    some ("RRULE:FREQ=MONTHLY;BYMONTHDAY=".toList ++ list ++ "\r\n".toList)
  else none

/-- `gvm_create_schedule`. -/
def gvmCreateSchedule (name : Text) (type : ℤ) (firstRun list : Text) :
    Sent (Option (CStr maxUuidSize)) :=
  match scheduleRule type list with
  | some rule => createCommand env (.createSchedule name firstRun rule)
  | none => .pure none

/-- `gvm_option_create_schedule`: success, and the record with the new identifier. -/
def gvmOptionCreateSchedule (info : GvmTaskInfo) : Sent (Bool × GvmTaskInfo) :=
  let info := { info with scheduleId := .empty, scheduleCreated := false }
  if info.scheduleType = icalDateNone then .pure (true, info)
  else
    match env.local2SchedTime info.firstScheduleTime.text (info.scheduleType == icalDateOnce) with
    | none => .pure (false, info)
    | some time =>
        (gvmCreateSchedule env info.taskName.text info.scheduleType time.text
          info.scheduleList.text).andThen fun
            | none => .pure (false, info)
            | some uuid => .pure (true, { info with scheduleId := uuid, scheduleCreated := true })

/-- `gvm_option_delete_schedule`: success, and the record after the deletion. -/
def gvmOptionDeleteSchedule (info : GvmTaskInfo) : Sent (Bool × GvmTaskInfo) :=
  if info.scheduleCreated then
    (gvmDeleteSchedule env info.scheduleId.text).andThen fun ok =>
      .pure (ok, if ok then { info with scheduleCreated := false } else info)
  else .pure (true, info)

/-- `gvm_create_config_ex`. -/
def gvmCreateConfigEx (name groupId groupName : Text) : Sent (Option (CStr maxUuidSize)) :=
  createCommand env (.createConfig name groupName groupId)

/-- `gvm_option_create_config`: a single group identifier is used as the config itself. -/
def gvmOptionCreateConfig (info : GvmTaskInfo) : Sent (Bool × GvmTaskInfo) :=
  if !isMultiUuid info.groupId.text then
    .pure (true, { info with configId := .copy info.groupId, configCreated := false })
  else
    (gvmCreateConfigEx env info.taskName.text info.groupId.text info.groupName.text).andThen fun
      | none => .pure (false, { info with configCreated := false })
      | some uuid => .pure (true, { info with configId := uuid, configCreated := true })

/-- `gvm_option_delete_config`: success, and the record after the deletion. -/
def gvmOptionDeleteConfig (info : GvmTaskInfo) : Sent (Bool × GvmTaskInfo) :=
  if info.configCreated then
    (gvmDeleteConfig env info.configId.text).andThen fun ok =>
      .pure (ok, if ok then { info with configCreated := false } else info)
  else .pure (true, info)

/-- `gvm_get_version` without a buffer for the version. -/
def gvmGetVersion : Sent Bool :=
  (procGvmTask env .getVersion).andThen fun rsp => .pure rsp.isSome

end OpenvasTool
