import OpenvasTool.CommMisc
import OpenvasTool.Gvm.Env

/-!
# The store of GVM tasks

The memory, the three indexes and the files of the daemon, with the operations
of `GvmTaskOperation`: insertion, lookup and deletion, the run queue, the task
file, the status files and the combined operations on memory and files.
-/

namespace OpenvasTool

open Posix

/-- The address of an allocated task. -/
abbrev Ptr := ℕ

/-- `struct GvmDataList`; the file name and the private directory never change. -/
structure GvmDataList where
  createque : ListQueue Ptr
  runque : ListQueue Ptr
  nameset : ListSet Ptr
  isGvmConnOk : Bool
  deriving DecidableEq

/-- The state of the daemon. An address below `next` that the heap does not map was freed. -/
structure World where
  data : GvmDataList
  heap : Ptr → Option ListGvmTask
  next : Ptr
  isLastStatusOk : Bool
  files : Files

namespace World

/-- The task at an address. -/
def task (w : World) (p : Ptr) : ListGvmTask := (w.heap p).getD {}

/-- Write the task at an address. -/
def setTask (w : World) (p : Ptr) (t : ListGvmTask) : World :=
  { w with heap := Function.update w.heap p (some t) }

/-- `newGvmTask`, with the values that its caller gives it. -/
def newTask (w : World) (t : ListGvmTask) : Ptr × World :=
  (w.next, { w.setTask w.next t with next := w.next + 1 })

/-- `freeGvmTask`. -/
def freeGvmTask (w : World) (p : Ptr) : World :=
  { w with heap := Function.update w.heap p none }

/-! ### Indexes -/

/-- `findGvmTask`. -/
def findGvmTask (w : World) (key : ListGvmTask) : Option Ptr :=
  w.data.nameset.searchListSet fun q => cmpGvmName (w.task q) key

/-- `addGvmTask`. -/
def addGvmTask (w : World) (realloc : Bool) (p : Ptr) : Option World :=
  (w.data.nameset.addToSet realloc (fun q => cmpGvmName (w.task q) (w.task p)) p).map fun s =>
    { w with data := { w.data with
        nameset := s
        createque :=
          w.data.createque.pushBack (fun q => cmpGvmCreateTime (w.task q) (w.task p)) p } }

/-- `delGvmTask`: the task with the name of the key leaves the name set and the create queue. -/
def delGvmTask (w : World) (key : ListGvmTask) : Option World :=
  (w.data.nameset.delFromSet fun q => cmpGvmName (w.task q) key).map fun r =>
    { w with data := { w.data with
        nameset := r.2
        createque := w.data.createque.delItem r.1 } }

/-- `addGvmRunTask`. -/
def addGvmRunTask (w : World) (p : Ptr) : World :=
  if p ∈ w.data.runque.items then w
  else { w with data := { w.data with
    runque := w.data.runque.pushBack (fun q => cmpGvmRunChkTime (w.task q) (w.task p)) p } }

/-- `delGvmRunTask`. -/
def delGvmRunTask (w : World) (p : Ptr) : World :=
  { w with data := { w.data with runque := w.data.runque.delItem p } }

/-- `queGvmRunTask`. -/
def queGvmRunTask (w : World) (p : Ptr) : World :=
  { w with data := { w.data with
    runque := w.data.runque.requeList (fun q => cmpGvmRunChkTime (w.task q) (w.task p)) p } }

end World

/-! ### Paths -/

/-- `DEF_GVM_PRIV_DATA_DIR`. -/
def defGvmPrivDataDir : Text := "/usr/local/openvas/gvm/var/private".toList

/-- The task file, `DEF_GVM_TASK_FILE_NAME`. -/
def gvmTaskFile : Text := defGvmPrivDataDir ++ "/".toList ++ "gvm_task_file".toList

/-- The temporary file next to the task file. -/
def gvmTaskFileTmp : Text := defGvmPrivDataDir ++ "/".toList ++ ".gvm_task_file".toList

/-- The paths of a task. -/
structure GvmPaths where
  taskDir : Text
  statusFile : Text
  statusFileTmp : Text
  resultFile : Text
  resultFileTmp : Text

/-- The paths of the task with this identifier. -/
def gvmPaths (taskId : Text) : GvmPaths :=
  let dir := defGvmPrivDataDir ++ "/".toList ++ "task_".toList ++ taskId
  { taskDir := dir
    statusFile := dir ++ "/".toList ++ "gvm_status_file".toList
    statusFileTmp := dir ++ "/".toList ++ ".gvm_status_file".toList
    resultFile := dir ++ "/".toList ++ "gvm_result_file".toList
    resultFileTmp := dir ++ "/".toList ++ ".gvm_result_file".toList }

/-- `prepareGvmPaths`: a path that is too long is an error. -/
def prepareGvmPaths (task : ListGvmTask) : Option GvmPaths :=
  let paths := gvmPaths task.taskInfo.taskId.text
  if paths.taskDir.length < maxFilenamePathSize ∧
      paths.statusFile.length < maxFilenamePathSize ∧
      paths.statusFileTmp.length < maxFilenamePathSize ∧
      paths.resultFile.length < maxFilenamePathSize ∧
      paths.resultFileTmp.length < maxFilenamePathSize then some paths
  else none

/-- With the private directory of the daemon every path fits. -/
@[simp] theorem prepareGvmPaths_eq (task : ListGvmTask) :
    prepareGvmPaths task = some (gvmPaths task.taskInfo.taskId.text) := by
  have hid := task.taskInfo.taskId.fits
  have hdir : defGvmPrivDataDir.length = 34 := rfl
  have hname : ∀ s : String, s.toList.length ≤ 16 →
      (defGvmPrivDataDir ++ "/".toList ++ "task_".toList ++ task.taskInfo.taskId.text ++
        "/".toList ++ s.toList).length < maxFilenamePathSize := by
    intro s hs
    have h1 : "/".toList.length = 1 := rfl
    have h2 : "task_".toList.length = 5 := rfl
    simp only [List.length_append, hdir, h1, h2, maxFilenamePathSize]
    simp only [maxUuidSize] at hid
    omega
  have hshort := hname "" (by decide)
  simp only [List.length_append] at hshort
  unfold prepareGvmPaths
  rw [if_pos]
  refine ⟨?_, hname _ (by decide), hname _ (by decide), hname _ (by decide),
    hname _ (by decide)⟩
  simp only [gvmPaths, List.length_append]
  omega

/-! ### Task file -/

/-- The fields of `TASK_FILE_FORMAT`. -/
def taskFields (task : ListGvmTask) : List (Text × Text) :=
  [("task_id".toList, task.taskInfo.taskId.text),
   ("task_name".toList, task.taskInfo.taskName.text),
   ("group_id".toList, task.taskInfo.groupId.text),
   ("group_name".toList, task.taskInfo.groupName.text),
   ("config_id".toList, task.taskInfo.configId.text),
   ("config_created".toList, decimal task.taskInfo.configCreated.toNat),
   ("target_id".toList, task.targetInfo.targetId.text),
   ("portlist_id".toList, task.targetInfo.portlistId.text),
   ("hosts".toList, task.targetInfo.hosts.text),
   ("schedule_type".toList, decimal task.taskInfo.scheduleType),
   ("schedule_id".toList, task.taskInfo.scheduleId.text),
   ("schedule_created".toList, decimal task.taskInfo.scheduleCreated.toNat),
   ("schedule_time".toList, task.taskInfo.firstScheduleTime.text),
   ("schedule_list".toList, task.taskInfo.scheduleList.text),
   ("create_time".toList, task.taskInfo.createTime.text)]

/-- `writeTaskRecord`: append a task to a buffer of this capacity. -/
def writeTaskRecord (capacity : ℕ) (buf : Text) (task : ListGvmTask) : Option Text :=
  writeRecord capacity buf (renderRecord (taskFields task))

/-- The text that `writeTaskFile` renders for the tasks of the create queue. -/
def writeTaskRecords (capacity : ℕ) (tasks : List ListGvmTask) : Option Text :=
  tasks.foldlM (writeTaskRecord capacity) []

/-- `writeTaskFile`: the return value and the files after it. -/
def writeTaskFile (env : Env) (w : World) : ℤ × Files :=
  match writeTaskRecords maxCacheSize (w.data.createque.items.map w.task) with
  | none => (-1, w.files)
  | some content => env.writeFileSafe content gvmTaskFile gvmTaskFileTmp w.files

/-- The body of the loop of `parseTaskRecord` up to the insertion. -/
def parseTaskFields (body : Text) : Option ListGvmTask := do
  let taskId ← getPatternKey body "task_id".toList uuidRegPattern maxUuidSize
  let taskName ← getPatternKey body "task_name".toList gvmNamePattern maxNameSize
  let groupId ← getPatternKey body "group_id".toList customCommPattern maxMemListSize
  let groupName ← getPatternKey body "group_name".toList customCommPattern maxMemListSize
  let configId ← getPatternKey body "config_id".toList uuidRegPattern maxUuidSize
  let configCreated ← getPatternKeyInt body "config_created".toList customOnOffPattern
  let targetId ← getPatternKey body "target_id".toList uuidRegPattern maxUuidSize
  let portlistId ← getPatternKey body "portlist_id".toList uuidRegPattern maxUuidSize
  let hosts ← getPatternKey body "hosts".toList customCommPattern maxMemListSize
  let type ← getPatternKeyInt body "schedule_type".toList customScheduleTypePattern
  let scheduleId ← getPatternKey body "schedule_id".toList
    (customMatchOrNull uuidRegPattern) maxUuidSize
  let scheduleCreated ← getPatternKeyInt body "schedule_created".toList customOnOffPattern
  let scheduleTime ← getPatternKey body "schedule_time".toList
    (customMatchOrNull customTimeStampPattern) maxTimestampSize
  let scheduleList ← getPatternKey body "schedule_list".toList customCommPattern
    maxScheduleListSize
  let createTime ← getPatternKey body "create_time".toList customTimeStampPattern maxTimestampSize
  if !chkHosts hosts.text then none
  else if !chkScheduleParam type scheduleTime.text scheduleList.text then none
  else
    some
      { taskInfo :=
          { scheduleType := type
            configCreated := configCreated != 0
            scheduleCreated := scheduleCreated != 0
            createTime := createTime
            modifyTime := .copy createTime
            taskId := taskId
            taskName := taskName
            groupId := groupId
            groupName := groupName
            configId := configId
            scheduleId := scheduleId
            firstScheduleTime := scheduleTime
            scheduleList := scheduleList }
        targetInfo :=
          { targetName := .copy taskName
            targetId := targetId
            portlistId := portlistId
            hosts := hosts } }

/-! ### Status file -/

/-- The fields of `TASK_STATUS_FILE_FORMAT`. -/
def statusFields (task : ListGvmTask) : List (Text × Text) :=
  [("task_id".toList, task.taskInfo.taskId.text),
   ("start_time".toList, task.reportInfo.startTime.text),
   ("stop_time".toList, task.reportInfo.stopTime.text),
   ("status".toList, decimal task.reportInfo.status.toInt),
   ("chk_type".toList, decimal task.chkType.toInt),
   ("progress".toList, decimal task.reportInfo.progress),
   ("report_id".toList, task.reportInfo.curReportId.text),
   ("last_report_id".toList, task.reportInfo.lastReportId.text),
   ("results".toList, [])]

/-- `writeTaskStatusFile`: the return value and the files after it. -/
def writeTaskStatusFile (env : Env) (task : ListGvmTask) (files : Files) : ℤ × Files :=
  match prepareGvmPaths task with
  | none => (-1, files)
  | some paths =>
      env.writeFileSafe (renderRecord (statusFields task)) paths.statusFile
        paths.statusFileTmp files

/-- `writeTaskResult`: the return value and the files after it. -/
def writeTaskResult (env : Env) (task : ListGvmTask) (outbuf : Text) (files : Files) :
    ℤ × Files :=
  match prepareGvmPaths task with
  | none => (-1, files)
  | some paths => env.writeFileSafe outbuf paths.resultFile paths.resultFileTmp files

/-- The fields that `parseTaskStatusRecord` reads from the body of a status record. -/
def parseStatusFields (body : Text) (task : ListGvmTask) : Option ListGvmTask := do
  let uuid ← getPatternKey body "task_id".toList uuidRegPattern maxUuidSize
  if uuid ≠ task.taskInfo.taskId then none
  else
    let startTime ← getPatternKey body "start_time".toList
      (customMatchOrNull customTimeStampPattern) maxTimestampSize
    let stopTime ← getPatternKey body "stop_time".toList
      (customMatchOrNull customTimeStampPattern) maxTimestampSize
    let status ← getPatternKeyInt body "status".toList customDigitNumPattern
    let status ← GvmTaskStatus.ofInt status
    let chkType ← getPatternKeyInt body "chk_type".toList customDigitNumPattern
    let chkType ← GvmTaskChkType.ofInt chkType
    let progress ← getPatternKeyInt body "progress".toList customDigitNumPattern
    if progress < 0 ∨ 100 < progress then none
    else
      let curReportId ← getPatternKey body "report_id".toList uuidRegPattern maxUuidSize
      let lastReportId ← getPatternKey body "last_report_id".toList
        (customMatchOrNull uuidRegPattern) maxUuidSize
      some
        { task with
          reportInfo :=
            { task.reportInfo with
              progress := progress
              status := status
              startTime := startTime
              stopTime := stopTime
              curReportId := curReportId
              lastReportId := lastReportId }
          chkType := chkType }

/-- `parseTaskStatusRecord`: a text without a complete record changes nothing. -/
def parseTaskStatusRecord (content : Text) (task : ListGvmTask) : Option ListGvmTask :=
  match nextRecord (cstring content) with
  | none => some task
  | some (body, _) => parseStatusFields body task

/-! ### Memory and files together -/

/-- `createTaskRelationFiles`: whether it returns 0, and the state after it. -/
def createTaskRelationFiles (env : Env) (w : World) (p : Ptr) : Bool × World :=
  match prepareGvmPaths (w.task p) with
  | none => (false, w)
  | some paths =>
      if env.mkdir paths.taskDir then
        match w.addGvmTask env.realloc p with
        | none => (false, { w with files := env.deleteDir paths.taskDir w.files })
        | some added =>
            match writeTaskFile env added with
            | (0, files) => (true, { added with files := files }.addGvmRunTask p)
            | (_, files) =>
                -- roll back
                (false, { (added.delGvmTask (added.task p)).getD added with
                  files := env.deleteDir paths.taskDir files })
      else (false, w)

/-- `delTaskRelationFiles`: whether it returns 0, and the state after it. -/
def delTaskRelationFiles (env : Env) (w : World) (p : Ptr) : Bool × World :=
  match prepareGvmPaths (w.task p) with
  | none => (false, w)
  | some paths =>
      match w.delGvmTask (w.task p) with
      | none => (false, w)
      | some deleted =>
          match writeTaskFile env deleted with
          | (0, files) =>
              (true, { deleted.delGvmRunTask p with
                files := env.deleteDir paths.taskDir files })
          | (_, files) =>
              -- roll back
              (false, { (deleted.addGvmTask env.realloc p).getD deleted with files := files })

end OpenvasTool
