import OpenvasTool.Gvm.Answers
import OpenvasTool.Gvm.Handlers

/-!
# The daemon

The background checks of `openvas_opts.c`, the start of the daemon from its
files, and the daemon as a transition system: between two steps it waits for
the next request, the next idle step or the next minute.
-/

namespace OpenvasTool

open Posix

/-! ### Background checks -/

/-- What a background check leaves for its task: success, the task, the time to its next check,
the files, and the commands that were sent. -/
structure Check where
  ok : Bool
  task : ListGvmTask
  interval : ℤ
  files : Files
  sent : List GvmRequest

/-- The body of `backend_query_task`. -/
def queryTask (env : Env) (task : ListGvmTask) (files : Files) : Check :=
  let r := gvmQueryTask env task.taskInfo.taskId.text
  match r.val.bind fun rsp => parseTask rsp.doc with
  | none => ⟨false, task, defTaskChkTimeInterval .chkTask, files, r.sent⟩
  | some info =>
      match updateTaskReport task info with
      | (false, task) => ⟨true, task, defTaskChkTimeInterval .chkTask, files, r.sent⟩
      | (true, task) =>
          let task :=
            { task with reportInfo := { task.reportInfo with
                reportCnt := info.reportCnt
                finishCnt := info.finishCnt } }
          let task := ((((task.setTaskStartTime info.startTime).setTaskStopTime
            info.stopTime).setTaskStatus .ready).setTaskProgress 0).setTaskChkType .chkReport
          ⟨true, task, 0, (writeTaskStatusFile env task files).2, r.sent⟩

/-- The check type and the interval after a report with a new status or progress. -/
def reportChkType (task : ListGvmTask) : ListGvmTask × ℤ :=
  if task.chkTaskRunning then (task, defTaskChkTimeInterval .chkReport)
  else if task.chkTaskDone then (task.setTaskChkType .chkResult, 0)
  else (task.setTaskChkType .chkTask, defTaskChkTimeInterval .chkTask)

/-- The body of `backend_query_report`. -/
def queryReport (env : Env) (task : ListGvmTask) (files : Files) : Check :=
  let r := gvmQueryReport env task.reportInfo.curReportId.text
  match r.val.bind fun rsp => parseReport env rsp.doc with
  | none => ⟨false, task, defTaskChkTimeInterval .chkReport, files, r.sent⟩
  | some info =>
      if info.status ≠ task.reportInfo.status ∨ info.progress ≠ task.reportInfo.progress then
        let c := reportChkType
          ((((task.setTaskStartTime info.startTime).setTaskStopTime info.stopTime).setTaskStatus
            info.status).setTaskProgress info.progress)
        ⟨true, c.1, c.2, (writeTaskStatusFile env c.1 files).2, r.sent⟩
      else ⟨true, task, defTaskChkTimeInterval .chkReport, files, r.sent⟩

/-- The query of `backend_query_result`: success, and the results collected so far. -/
def fetchResults (env : Env) (task : ListGvmTask) : Sent (Bool × GvmResultInfo) :=
  if task.resultInfo.done then .pure (true, task.resultInfo)
  else
    (gvmQueryResult env task.taskInfo.taskId.text task.reportInfo.curReportId.text
        task.resultInfo.first task.resultInfo.rows).andThen fun
      | none => .pure (false, task.resultInfo)
      | some rsp => .pure (parseResult env rsp.doc task.resultInfo)

/-- The body of `backend_query_result`. -/
def queryResult (env : Env) (task : ListGvmTask) (files : Files) : Check :=
  let r := fetchResults env task
  let task := { task with resultInfo := r.val.2 }
  if !r.val.1 then ⟨false, task, defTaskChkTimeInterval .chkResult, files, r.sent⟩
  else if !task.resultInfo.done then
    ⟨true, task, defTaskChkTimeInterval .chkResult, files, r.sent⟩
  else
    match printNvts maxCacheSize task.resultInfo.results with
    | none => ⟨false, task, defTaskChkTimeInterval .chkResult, files, r.sent⟩
    | some outbuf =>
        -- the return value of the result file is ignored
        let files := (writeTaskResult env task outbuf files).2
        let task := task.setTaskChkType .chkTask
        let files := (writeTaskStatusFile env task files).2
        ⟨true, task.resetGvmResultInfo, defTaskChkTimeInterval .chkTask, files, r.sent⟩

/-- The end of every check: set the time of the next check and requeue the task. -/
def World.finishCheck (w : World) (env : Env) (p : Ptr) (c : Check) : World :=
  { (w.setTask p (c.task.setTaskNextChkTime env.clkNext c.interval)).queGvmRunTask p with
    files := c.files }

/-- The check of the task at the head of the run queue, by its check type. -/
def checkTask (env : Env) (w : World) (p : Ptr) : World × List GvmRequest :=
  let task := w.task p
  match task.chkType with
  | .chkTask =>
      let c := queryTask env task w.files
      (w.finishCheck env p c, c.sent)
  | .chkReport =>
      let c := queryReport env task w.files
      (w.finishCheck env p c, c.sent)
  | .chkResult =>
      let c := queryResult env task w.files
      (w.finishCheck env p c, c.sent)
  | .chkDeleted =>
      match delTaskRelationFiles env w p with
      | (true, w) => (w.freeGvmTask p, [])
      | (false, w) =>
          ((w.setTask p ((w.task p).setTaskNextChkTime env.clkNext
            (defTaskChkTimeInterval .chkDeleted))).queGvmRunTask p, [])

/-- The task that `runGvmChecks` would check now. -/
def dueTask (env : Env) (w : World) : Option Ptr :=
  if w.data.isGvmConnOk then
    w.data.runque.getHead.filter fun p => (w.task p).isTaskChkTimeExpired env.clk
  else none

/-- `runGvmChecks`: whether a check was made, the state, and the commands that were sent. -/
def runGvmChecks (env : Env) (w : World) : Bool × World × List GvmRequest :=
  match dueTask env w with
  | none => (false, w, [])
  | some p => (true, checkTask env w p)

/-- `validateGvmConn`: two failures in a row clear the connection flag. -/
def validateGvmConn (env : Env) (w : World) : World × List GvmRequest :=
  let r := gvmGetVersion env
  if r.val then
    ({ w with isLastStatusOk := true, data := { w.data with isGvmConnOk := true } }, r.sent)
  else if w.isLastStatusOk then ({ w with isLastStatusOk := false }, r.sent)
  else ({ w with data := { w.data with isGvmConnOk := false } }, r.sent)

/-! ### Start -/

/-- The outcomes of the system calls during the start of the daemon. -/
structure BootEnv where
  /-- `createData` gets its memory. -/
  createData : Bool
  /-- `chkExists` of the private directory. -/
  privDir : Bool
  /-- `calloc` of the task for the record with this number. -/
  alloc : ℕ → Bool
  /-- `realloc` of the name set at the record with this number. -/
  realloc : ℕ → Bool
  /-- `stat` of a file, apart from a missing one. -/
  stat : Text → Bool
  /-- The allocation and the reading of a file. -/
  read : Text → Bool
  /-- `getClkTime` when the first check of a task is set. -/
  clk : Ptr → ℤ

/-- All system calls of the start succeed. -/
def BootEnv.smooth : BootEnv where
  createData := true
  privDir := true
  alloc := fun _ => true
  realloc := fun _ => true
  stat := fun _ => true
  read := fun _ => true
  clk := fun _ => 0

/-- `createData`. -/
def emptyWorld (files : Files) : World where
  data := ⟨.initListQue, .initListQue, .initListSet, false⟩
  heap := fun _ => none
  next := 0
  isLastStatusOk := true
  files := files

/-- One round of the loop of `parseTaskRecord`. -/
def loadRecord (env : BootEnv) (w : World) (record : ℕ × Text) : Option World :=
  if env.alloc record.1 then
    (parseTaskFields record.2).bind fun task =>
      (w.newTask task).2.addGvmTask (env.realloc record.1) (w.newTask task).1
  else none

/-- `parseTaskRecord`: the first failure ends the loop. -/
def parseTaskRecord (env : BootEnv) (w : World) (content : Text) : Option World :=
  ((records content).zipIdx.map Prod.swap).foldlM (loadRecord env) w

/-- `readTaskFile`: a missing or empty file is an empty store. -/
def readTaskFile (env : BootEnv) (w : World) : Option World :=
  match readTotalFile (env.stat gvmTaskFile) (env.read gvmTaskFile) (w.files gvmTaskFile) with
  | .ok content => parseTaskRecord env w content
  | .error .noFile => some w
  | .error .emptyFile => some w
  | .error _ => none

/-- `readTaskStatusFile`. -/
def readTaskStatusFile (env : BootEnv) (w : World) (p : Ptr) : Option World :=
  (prepareGvmPaths (w.task p)).bind fun paths =>
    match readTotalFile (env.stat paths.statusFile) (env.read paths.statusFile)
        (w.files paths.statusFile) with
    | .ok content => (parseTaskStatusRecord content (w.task p)).map (w.setTask p)
    | .error .noFile => some w
    | .error .emptyFile => some w
    | .error _ => none

/-- `readAllTaskStatusRecs`. -/
def readAllTaskStatusRecs (env : BootEnv) (w : World) : Option World :=
  w.data.createque.items.foldlM (readTaskStatusFile env) w

/-- `addTaskChecks`. -/
def addTaskChecks (env : BootEnv) (w : World) (p : Ptr) : World :=
  (w.setTask p ((w.task p).setTaskNextChkTime (env.clk p)
    (defTaskChkTimeInterval .chkTask))).addGvmRunTask p

/-- `addGvmChecks`. -/
def addGvmChecks (env : BootEnv) (w : World) : World :=
  w.data.createque.items.foldl (addTaskChecks env) w

/-- `initDaemon`, from the files that are there. -/
def initDaemon (env : BootEnv) (files : Files) : Option World :=
  if env.createData && env.privDir then do
    let w ← readTaskFile env (emptyWorld files)
    let w ← readAllTaskStatusRecs env w
    some (addGvmChecks env w)
  else none

/-! ### Steps -/

/-- What the message loop does next. -/
inductive Event where
  | startTask (input : Text)
  | stopTask (input : Text)
  | deleteTask (input : Text)
  | createTask (input : Text)
  | runGvmChecks
  | validateGvmConn

/-- One step of the message loop. -/
def daemonStep (env : Env) (w : World) : Event → Outcome
  | .startTask input => daemonStartTask env w input
  | .stopTask input => daemonStopTask env w input
  | .deleteTask input => daemonDeleteTask env w input
  | .createTask input => daemonCreateTask env w input
  | .runGvmChecks => ⟨(runGvmChecks env w).2.1, .success, (runGvmChecks env w).2.2⟩
  | .validateGvmConn => ⟨(validateGvmConn env w).1, .success, (validateGvmConn env w).2⟩

/-- The state after one step; the input is the event and the outcomes of its system calls. -/
def daemonNext (w : World) (i : Event × Env) : World := (daemonStep i.2 w i.1).world

/-! ### A small gvmd -/

/-- The identifier that consists of one digit. -/
def sampleUuid (digit : Char) : Text :=
  List.replicate 8 digit ++ '-' :: List.replicate 4 digit ++ '-' :: List.replicate 4 digit ++
    '-' :: List.replicate 4 digit ++ '-' :: List.replicate 12 digit

/-- An attribute of an answer. -/
def sampleAttr (name val : Text) : Text := ' ' :: name ++ "=\"".toList ++ val ++ "\"".toList

/-- The beginning of an answer with this status. -/
def sampleAnswer (req : GvmRequest) (status : Text) : Text :=
  '<' :: req.cmd ++ "_response".toList ++ sampleAttr "status".toList status ++
    sampleAttr "status_text".toList "OK".toList

/-- The successful answer to a command. -/
def okRsp (req : GvmRequest) (doc : Option Xml.Node) : GvmRsp :=
  ⟨sampleAnswer req "200".toList ++ "/>".toList, doc⟩

/-- The answer to a command that creates an object. -/
def createdRsp (req : GvmRequest) (uuid : Text) : GvmRsp :=
  ⟨sampleAnswer req "201".toList ++ sampleAttr "id".toList uuid ++ "/>".toList, none⟩

/-- The task and the report that this gvmd creates. -/
def sampleTaskId : CStr maxUuidSize := ⟨sampleUuid 'b', by decide, by decide⟩
def sampleReport : CStr maxUuidSize := ⟨sampleUuid 'e', by decide, by decide⟩

/-- A gvmd in which every command succeeds. -/
def sampleGvmd : GvmRequest → Option GvmRsp
  | .createTarget name hosts portlist =>
      some (createdRsp (.createTarget name hosts portlist) (sampleUuid 'a'))
  | .createTask name target config schedule =>
      some (createdRsp (.createTask name target config schedule) (sampleUuid 'b'))
  | .createSchedule name firstRun rule =>
      some (createdRsp (.createSchedule name firstRun rule) (sampleUuid 'c'))
  | .createConfig name groupName groupId =>
      some (createdRsp (.createConfig name groupName groupId) (sampleUuid 'd'))
  | .startTask id =>
      some ⟨sampleAnswer (.startTask id) "202".toList ++ "><report_id>".toList ++ sampleUuid 'e' ++
        "</report_id>".toList, none⟩
  | req => some (okRsp req none)

/-- An element without attributes that only has a text. -/
def textElement (name : String) (content : String) : Xml.Node :=
  .element name.toList [] [.text content.toList]

/-- The document of a task with one finished report. -/
def sampleTaskDoc : Xml.Node :=
  .element "get_tasks_response".toList [] [.element "task".toList [("id".toList, sampleUuid 'b')]
    [.element "report_count".toList [] [.text "1".toList, textElement "finished" "1"],
      .element "last_report".toList []
        [.element "report".toList [("id".toList, sampleUuid 'e')] []]]]

/-- The document of a report with this status. -/
def sampleReportDoc (status : String) : Xml.Node :=
  .element "get_reports_response".toList [] [.element "report".toList []
    [.element "report".toList [("id".toList, sampleUuid 'e')]
      [textElement "scan_start" "", textElement "scan_end" "",
        textElement "scan_run_status" status, .element "task".toList []
          [textElement "progress" "100"]]]]

/-- The document of a report without results. -/
def sampleResultDoc : Xml.Node :=
  .element "get_results_response".toList [] [.element "result_count".toList []
    [textElement "filtered" "0"]]

/-- A gvmd in which the started scan is over, without results. -/
def sampleScan : GvmRequest → Option GvmRsp
  | .getTasks id => some (okRsp (.getTasks id) (some sampleTaskDoc))
  | .getReports id => some (okRsp (.getReports id) (some (sampleReportDoc "Done")))
  | .getResults id report first rows =>
      some (okRsp (.getResults id report first rows) (some sampleResultDoc))
  | req => sampleGvmd req

/-- A request to create the task `scan` with a single config and without a schedule. -/
def sampleCreate : Text :=
  "scan\x01".toList ++ sampleUuid 'd' ++ "\x01Full\x0110.0.0.1\x010\x01\x01\x01".toList

/-- The key of the task `scan` in a request to start, stop or delete it. -/
def sampleKey : Text :=
  "scan\x01".toList ++ sampleUuid 'b' ++ "\x01".toList ++ sampleUuid 'a' ++ "\x01".toList

/-- The daemon gets its connection and creates the task `scan`. -/
def sampleSteps : List (Event × Env) :=
  [(.validateGvmConn, .smooth sampleGvmd), (.createTask sampleCreate, .smooth sampleGvmd)]

/-- A step that creates another task, to which gvmd gives the identifier of this digit. -/
def sampleCreateStep (name : String) (digit : Char) : Event × Env :=
  (.createTask (name.toList ++ '\x01' :: sampleUuid 'd' ++
      "\x01Full\x0110.0.0.1\x010\x01\x01\x01".toList),
    .smooth fun
      | .createTask name target config schedule =>
          some (createdRsp (.createTask name target config schedule) (sampleUuid digit))
      | req => sampleGvmd req)

/-- A step that deletes this task. -/
def sampleDeleteStep (name : String) (digit : Char) : Event × Env :=
  (.deleteTask (name.toList ++ '\x01' :: sampleUuid digit ++ '\x01' :: sampleUuid 'a' ++ ['\x01']),
    .smooth sampleGvmd)

/-- The same step when no file can be written. -/
def readOnlyStep (i : Event × Env) : Event × Env :=
  (i.1, { i.2 with write := fun _ => .openErr })

/-- Besides `scan`, whose report is found, the tasks `audit` and `probe` are created and deleted. The
files cannot be written when a further task is created and when `audit` is deleted. -/
def sampleMixedSteps : List (Event × Env) :=
  sampleSteps ++ [sampleCreateStep "audit" '1', readOnlyStep (sampleCreateStep "extra" '2'),
    sampleCreateStep "probe" '3', (.runGvmChecks, { Env.smooth sampleScan with clk := 2000 }),
    sampleDeleteStep "probe" '3', readOnlyStep (sampleDeleteStep "audit" '1')]

end OpenvasTool
