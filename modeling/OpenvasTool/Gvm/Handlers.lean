import OpenvasTool.Gvm.Requests
import OpenvasTool.Gvm.Store

/-!
# Request handlers

The parameters of a client request and the handlers `daemon_start_task`,
`daemon_stop_task`, `daemon_delete_task` and `daemon_create_task`.
-/

namespace OpenvasTool

open Posix

/-! ### Parameters -/

/-- The next token of a request, for a buffer of `n` bytes. -/
def requestToken (text : Text) (n : ℕ) : Option (CStr n × Text) :=
  (getNextToken text [openvasKbDelim] n).toOption

/-- The next integer token of a request. -/
def requestTokenInt (text : Text) : Option (ℤ × Text) :=
  (getNextTokenInt text [openvasKbDelim]).toOption

/-- `getKeyTaskParam`: the key task of a start, stop or delete request. -/
def getKeyTaskParam (input : Text) : Option ListGvmTask := do
  let (taskName, input) ← requestToken input maxNameSize
  let (taskId, input) ← requestToken input maxUuidSize
  let (targetId, _) ← requestToken input maxUuidSize
  if chkName taskName.text && chkUuid taskId.text && chkUuid targetId.text then
    some
      { taskInfo := { taskName := taskName, taskId := taskId }
        targetInfo := { targetName := .copy taskName, targetId := targetId } }
  else none

/-- `getCreateTaskParam`: the task of a create request, without identifiers. -/
def getCreateTaskParam (input : Text) : Option ListGvmTask := do
  let (taskName, input) ← requestToken input maxNameSize
  let (groupId, input) ← requestToken input maxMemListSize
  let (groupName, input) ← requestToken input maxMemListSize
  let (hosts, input) ← requestToken input maxMemListSize
  let (type, input) ← requestTokenInt input
  let (scheduleTime, input) ← requestToken input maxTimestampSize
  let (scheduleList, _) ← requestToken input maxScheduleListSize
  if chkName taskName.text && chkConfigInfo groupId.text groupName.text &&
      chkHosts hosts.text && chkScheduleParam type scheduleTime.text scheduleList.text then
    some
      { taskInfo :=
          { taskName := taskName
            groupId := groupId
            groupName := groupName
            scheduleType := type
            firstScheduleTime := scheduleTime
            scheduleList := scheduleList }
        targetInfo :=
          { targetName := .copy taskName
            portlistId := defOpenvasPortListId
            hosts := hosts } }
  else none

/-! ### Handlers -/

/-- What a step of the daemon leaves: the state, the code that a request returns, and the
commands that were sent to gvmd. -/
structure Outcome where
  world : World
  code : GvmErrCode
  sent : List GvmRequest

/-- The common beginning of the handlers for an existing task. -/
def withKeyTask (env : Env) (w : World) (input : Text) (body : Ptr → Outcome) : Outcome :=
  if env.alloc then
    match getKeyTaskParam input with
    | none => ⟨w, .paramInvalid, []⟩
    | some key =>
        if w.data.isGvmConnOk then
          match w.findGvmTask key with
          | none => ⟨w, .taskNotFound, []⟩
          | some p => body p
        else ⟨w, .gvmdConn, []⟩
  else ⟨w, .internalFail, []⟩

/-- Check a task in the next idle step. -/
def World.recheck (w : World) (env : Env) (p : Ptr) : World :=
  (w.setTask p ((w.task p).setTaskNextChkTime env.clkNext 0)).queGvmRunTask p

/-- `daemon_start_task`. -/
def daemonStartTask (env : Env) (w : World) (input : Text) : Outcome :=
  withKeyTask env w input fun p =>
    if (w.task p).chkTaskBusy then ⟨w, .taskIsBusy, []⟩
    else
      let r := gvmStartTask env (w.task p).taskInfo.taskId.text
      match r.val with
      | none => ⟨w, .openvasProcFail, r.sent⟩
      | some _ => ⟨w.recheck env p, .success, r.sent⟩

/-- `daemon_stop_task`. -/
def daemonStopTask (env : Env) (w : World) (input : Text) : Outcome :=
  withKeyTask env w input fun p =>
    if (w.task p).chkTaskRunning then
      let r := gvmStopTask env (w.task p).taskInfo.taskId.text
      match r.val with
      | none => ⟨w, .openvasProcFail, r.sent⟩
      | some _ => ⟨w.recheck env p, .success, r.sent⟩
    else ⟨w, .taskIsNotRunning, []⟩

/-- The deletion of the target and of the created objects of a task; failures are ignored. -/
def deleteTaskObjects (env : Env) (task : ListGvmTask) : Sent GvmTaskInfo :=
  (gvmOptionDeleteTarget env task.targetInfo.targetId.text).andThen fun _ =>
    (gvmOptionDeleteSchedule env task.taskInfo).andThen fun r =>
      (gvmOptionDeleteConfig env r.2).andThen fun r => .pure r.2

/-- `daemon_delete_task`. -/
def daemonDeleteTask (env : Env) (w : World) (input : Text) : Outcome :=
  withKeyTask env w input fun p =>
    if (w.task p).chkTaskBusy then ⟨w, .taskIsBusy, []⟩
    else
      let r := gvmOptionDeleteTask env (w.task p).taskInfo.taskId.text
      if r.val then
        let o := deleteTaskObjects env (w.task p)
        match delTaskRelationFiles env (w.setTask p { w.task p with taskInfo := o.val }) p with
        | (true, w) => ⟨w.freeGvmTask p, .success, r.sent ++ o.sent⟩
        | (false, w) =>
            ⟨w.setTask p ((w.task p).setTaskChkType .chkDeleted), .success, r.sent ++ o.sent⟩
      else ⟨w, .openvasProcFail, r.sent⟩

/-- The objects of a new task, in their order of creation: whether all could be created, and the
task with the identifiers that were obtained. -/
def createTaskObjects (env : Env) (task : ListGvmTask) : Sent (Bool × ListGvmTask) :=
  (gvmCreateTarget env task.targetInfo.targetName.text task.targetInfo.hosts.text
      task.targetInfo.portlistId.text).andThen fun
    | none => .pure (false, task)
    | some targetId =>
        let task := { task with targetInfo := { task.targetInfo with targetId := targetId } }
        (gvmOptionCreateSchedule env task.taskInfo).andThen fun r =>
          let task := { task with taskInfo := r.2 }
          if r.1 then
            (gvmOptionCreateConfig env task.taskInfo).andThen fun r =>
              let task := { task with taskInfo := r.2 }
              if r.1 then
                (gvmCreateTask env task.taskInfo.taskName.text task.targetInfo.targetId.text
                    task.taskInfo.configId.text task.taskInfo.scheduleId.text).andThen fun
                  | none => .pure (false, task)
                  | some taskId =>
                      .pure (true, { task with taskInfo := { task.taskInfo with taskId := taskId } })
              else .pure (false, task)
          else .pure (false, task)

/-- The end of `daemon_create_task` after a failure: what was created is deleted again. -/
def abandonTask (env : Env) (task : ListGvmTask) : Sent Unit :=
  (gvmOptionDeleteTask env task.taskInfo.taskId.text).andThen fun _ =>
    (deleteTaskObjects env task).andThen fun _ => .pure ()

/-- The record that a new task gets before it is stored. -/
def stampTask (env : Env) (task : ListGvmTask) : ListGvmTask :=
  let task :=
    { task with taskInfo := { task.taskInfo with
        createTime := env.nowTimeStamp
        modifyTime := .copy env.nowTimeStamp } }
  ((task.setTaskStatus .create).setTaskChkType .chkTask).setTaskNextChkTime env.clkNext
    (defTaskChkTimeInterval .chkTask)

/-- `daemon_create_task`. -/
def daemonCreateTask (env : Env) (w : World) (input : Text) : Outcome :=
  if env.alloc then
    match getCreateTaskParam input with
    | none => ⟨w, .paramInvalid, (abandonTask env {}).sent⟩
    | some task =>
        if w.data.isGvmConnOk then
          match w.findGvmTask task with
          | some _ => ⟨w, .taskAlreadyExists, (abandonTask env task).sent⟩
          | none =>
              let o := createTaskObjects env task
              if o.val.1 then
                let new := w.newTask (stampTask env o.val.2)
                match createTaskRelationFiles env new.2 new.1 with
                | (true, w) => ⟨w, .success, o.sent⟩
                | (false, w) =>
                    ⟨w.freeGvmTask new.1, .internalFail,
                      o.sent ++ (abandonTask env (stampTask env o.val.2)).sent⟩
              else ⟨w, .openvasProcFail, o.sent ++ (abandonTask env o.val.2).sent⟩
        else ⟨w, .gvmdConn, (abandonTask env task).sent⟩
  else ⟨w, .internalFail, []⟩

end OpenvasTool
