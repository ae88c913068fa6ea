import OpenvasTool.Gvm.StatusFile
import OpenvasTool.Php.Records
import OpenvasTool.Php.Results

/-!
# The tasks on the web page

`read_gvm_tasks` reads the task file and, for every task, its status file. Its
variables live across the records of a file. For the texts that the daemon writes
every pattern matches, so each task is shown with its own values.
-/

namespace OpenvasTool

open Posix Posix.Regex Support

/-! ### The status file -/

/-- The array that `read_gvm_task_status_file` returns. An unset variable is NULL, which is shown
as the empty text. -/
structure PageStatus where
  status : Text := []
  progress : Text := []
  reportId : Text := []
  result : Text := []
  deriving DecidableEq

/-- The status file of a task, as the page finds it. -/
def pageStatusFile (dir uuid : Text) : Text :=
  dir ++ "/task_".toList ++ uuid ++ "/gvm_status_file".toList

/-- The values of the record of a status file. -/
def readStatusContent (content : Text) : PageStatus where
  status := (pregMatch "status".toList digits content).getD []
  progress := (pregMatch "progress".toList digits content).getD []
  reportId := (pregMatch "report_id".toList lowerUuid content).getD []
  result := (pregMatch "results".toList anyText content).getD []

/-- `read_gvm_task_status_file`: the first record of this task counts. -/
def readGvmTaskStatusFile (files : Files) (dir uuid : Text) : PageStatus :=
  match files (pageStatusFile dir uuid) with
  | none => { status := "1".toList, progress := "0".toList }
  | some ctx =>
      match (pregSplit ctx.length ctx).find? fun content =>
          pregMatch "task_id".toList lowerUuid content == some uuid with
      | some content => readStatusContent content
      | none => {}

/-! ### The task file -/

/-- The variables of `read_gvm_tasks` that are set by patterns. -/
structure TaskVars where
  taskId : Text := []
  taskName : Text := []
  groupId : Text := []
  groupName : Text := []
  targetId : Text := []
  hosts : Text := []
  scheduleType : Text := []
  scheduleTime : Text := []
  scheduleList : Text := []
  createTime : Text := []
  deriving DecidableEq

/-- A variable keeps its value when its pattern does not match. -/
def readVar (key content old : Text) : Text := (pregMatch key anyText content).getD old

/-- The variables after a record with this identifier. -/
def TaskVars.read (vars : TaskVars) (taskId content : Text) : TaskVars where
  taskId := taskId
  taskName := readVar "task_name".toList content vars.taskName
  groupId := readVar "group_id".toList content vars.groupId
  groupName := readVar "group_name".toList content vars.groupName
  targetId := readVar "target_id".toList content vars.targetId
  hosts := readVar "hosts".toList content vars.hosts
  scheduleType := readVar "schedule_type".toList content vars.scheduleType
  scheduleTime := readVar "schedule_time".toList content vars.scheduleTime
  scheduleList := readVar "schedule_list".toList content vars.scheduleList
  createTime := readVar "create_time".toList content vars.createTime

/-- `get_gvm_schedule_name`, for a text of digits. -/
def getGvmScheduleName (scheduleType : Text) : Text :=
  if atoi scheduleType = 0 then "关闭定时".toList
  else if atoi scheduleType = 1 then "一次性".toList
  else if atoi scheduleType = 2 then "每天".toList
  else if atoi scheduleType = 3 then "每周".toList
  else if atoi scheduleType = 4 then "每月".toList
  else []

/-- `get_gvm_run_status_name`, for a text of digits. -/
def getGvmRunStatusName (status : Text) : Text :=
  if atoi status ≤ 1 then "未启动".toList
  else if atoi status = 2 then "等待运行".toList
  else if atoi status = 3 then "正在运行".toList
  else if atoi status = 4 then "已完成".toList
  else if atoi status = 5 then "手动停止".toList
  else "终止运行".toList

/-- The entry of a task. -/
structure PageTask where
  vars : TaskVars
  scheduleTypeName : Text
  status : Text
  progress : Text
  reportId : Text
  result : Text
  statusName : Text
  deriving DecidableEq

/-- The entry for these variables and this status. -/
def pageTask (vars : TaskVars) (status : PageStatus) (result : Text) : PageTask where
  vars := vars
  scheduleTypeName := getGvmScheduleName vars.scheduleType
  status := status.status
  progress := status.progress
  reportId := status.reportId
  result := result
  statusName := getGvmRunStatusName status.status

/-- `$data[$key] = $entry`: an existing key keeps its place. -/
def setEntry (data : List (Text × PageTask)) (key : Text) (entry : PageTask) :
    List (Text × PageTask) :=
  if data.any (·.1 == key) then data.map fun e => if e.1 = key then (key, entry) else e
  else data ++ [(key, entry)]

/-- The result file of a task, as `readNvtResult` finds it. -/
def pageResultFile (dir uuid : Text) : Text :=
  dir ++ "/task_".toList ++ uuid ++ "/gvm_result_file".toList

/-- The loop of `read_gvm_tasks`. -/
def readTaskContent (files : Files) (dir : Text) (state : TaskVars × List (Text × PageTask))
    (content : Text) : TaskVars × List (Text × PageTask) :=
  match pregMatch "task_id".toList lowerUuid content with
  | none => state
  | some taskId =>
      let vars := state.1.read taskId content
      let status := readGvmTaskStatusFile files dir vars.taskId
      let result := readNvtResult (files (pageResultFile dir vars.taskId))
      (vars, setEntry state.2 vars.taskName (pageTask vars status result))

/-- `read_gvm_tasks` for a task file with this text. -/
def readGvmTasks (files : Files) (dir ctx : Text) : List (Text × PageTask) :=
  ((pregSplit ctx.length ctx).foldl (readTaskContent files dir) ({}, [])).2

/-! ### Stored tasks -/

/-- A task that a create request stored, with lower-case identifiers. -/
structure StoredTask (t : ListGvmTask) : Prop where
  created : ∃ env input task, getCreateTaskParam input = some task ∧
    (createTaskObjects env task).val.1 = true ∧
    t.taskInfo = (stampTask env (createTaskObjects env task).val.2).taskInfo ∧
    t.targetInfo = (stampTask env (createTaskObjects env task).val.2).targetInfo
  taskId : t.taskInfo.taskId.text ∈ lowerUuid.lang
  configId : t.taskInfo.configId.text ∈ lowerUuid.lang
  targetId : t.targetInfo.targetId.text ∈ lowerUuid.lang
  portlistId : t.targetInfo.portlistId.text ∈ lowerUuid.lang
  scheduleId : t.taskInfo.scheduleId.text = [] ∨ t.taskInfo.scheduleId.text ∈ lowerUuid.lang

theorem newline_not_mem_lowerUuid {text : Text} (h : text ∈ lowerUuid.lang) : '\n' ∉ text :=
  fun hnl => over_lowerUuid.all_mem h _ hnl rfl

theorem newline_not_mem_nowTimeStamp (env : Env) : '\n' ∉ env.nowTimeStamp.text := by
  unfold Env.nowTimeStamp
  cases hnow : env.now.bind fun tm => CStr.ofText maxTimestampSize tm.timeStamp with
  | none => simp
  | some time =>
    obtain ⟨tm, _, htm⟩ := Option.bind_eq_some_iff.mp hnow
    rw [Option.getD_some, CStr.ofText_eq_some.mp htm]
    exact tm.timeStamp_newline_free

/-- The checks of the request hold of a stored task. -/
theorem StoredTask.checked {t : ListGvmTask} (h : StoredTask t) :
    CheckedTask t ∧ '\n' ∉ t.taskInfo.createTime.text := by
  obtain ⟨env, input, task, hparam, hok, hinfo, htarget⟩ := h.created
  have hchecked := checked_createdTask hparam hok
  have hcreate : t.taskInfo.createTime = env.nowTimeStamp := by
    rw [hinfo]
    rfl
  exact ⟨hchecked.congr hinfo htarget, hcreate ▸ newline_not_mem_nowTimeStamp env⟩

/-- The values of a stored task stay on their lines. -/
theorem StoredTask.cleanField {t : ListGvmTask} (h : StoredTask t) :
    ∀ f ∈ taskFields t, CleanField f := by
  obtain ⟨hchecked, hcreate⟩ := h.checked
  have hscheduleId : '\n' ∉ t.taskInfo.scheduleId.text := by
    rcases h.scheduleId with hnil | hid
    · simp [hnil]
    · exact newline_not_mem_lowerUuid hid
  exact hchecked.cleanField
    ⟨newline_not_mem_lowerUuid h.taskId, newline_not_mem_lowerUuid h.configId,
      newline_not_mem_lowerUuid h.targetId, newline_not_mem_lowerUuid h.portlistId, hscheduleId⟩
    hcreate

/-- A task that the page can read: its values stay on their lines, and its identifier is in lower
case. -/
structure PageRecord (t : ListGvmTask) : Prop where
  cleanField : ∀ f ∈ taskFields t, CleanField f
  taskId : t.taskInfo.taskId.text ∈ lowerUuid.lang

theorem StoredTask.pageRecord {t : ListGvmTask} (h : StoredTask t) : PageRecord t :=
  ⟨h.cleanField, h.taskId⟩

/-! ### Status files -/

/-- A record that `writeTaskStatusFile` wrote for the task `t`. -/
structure StatusRecord (t u : ListGvmTask) : Prop where
  taskId : u.taskInfo.taskId = t.taskInfo.taskId
  clean : StatusClean u
  status : u.reportInfo.status ≠ .error
  progress : 0 ≤ u.reportInfo.progress ∧ u.reportInfo.progress ≤ 100
  curReportId : u.reportInfo.curReportId.text = [] ∨ u.reportInfo.curReportId.text ∈ lowerUuid.lang
  lastReportId : u.reportInfo.lastReportId.text = [] ∨
    u.reportInfo.lastReportId.text ∈ lowerUuid.lang

theorem nodup_statusFields (u : ListGvmTask) : ((statusFields u).map Prod.fst).Nodup := by
  show statusKeys.Nodup
  decide

/-- What the page shows of a record, and of a task without one. -/
def shownStatus : Option ListGvmTask → PageStatus
  | none => { status := decimal GvmTaskStatus.ready.toInt, progress := decimal 0 }
  | some u =>
      { status := decimal u.reportInfo.status.toInt
        progress := decimal u.reportInfo.progress
        reportId := u.reportInfo.curReportId.text }

section Status

variable {t u : ListGvmTask} (h : StatusRecord t u)

include h

theorem StatusRecord.cleanField : ∀ f ∈ statusFields u, CleanField f := by
  have hid : ∀ {id : Text}, id = [] ∨ id ∈ lowerUuid.lang → '\n' ∉ id := by
    rintro id (rfl | hid)
    · simp
    · exact newline_not_mem_lowerUuid hid
  apply cleanField_of_keys
  · show ∀ key ∈ statusKeys, key ≠ [] ∧ '=' ∉ key ∧ '\n' ∉ key
    decide
  · simp only [statusFields, List.map_cons, List.map_nil, List.forall_mem_cons]
    exact ⟨h.clean.taskId, h.clean.startTime, h.clean.stopTime, newline_not_mem_decimal _,
      newline_not_mem_decimal _, newline_not_mem_decimal _, hid h.curReportId, hid h.lastReportId,
      by simp, by simp⟩

/-- The values of a status record are read back. -/
theorem StatusRecord.readStatusContent :
    OpenvasTool.readStatusContent (recordPiece (statusFields u) []) = shownStatus (some u) := by
  have hclean := h.cleanField
  have hnodup := nodup_statusFields u
  have hstatus : pregMatch "status".toList digits (recordPiece (statusFields u) []) =
      some (decimal u.reportInfo.status.toInt) := by
    apply pregMatch_of_lookup hclean hnodup over_digits rfl
    cases u.reportInfo.status <;> exact decimal_mem_digits _
  have hprogress : pregMatch "progress".toList digits (recordPiece (statusFields u) []) =
      some (decimal u.reportInfo.progress) := by
    apply pregMatch_of_lookup hclean hnodup over_digits rfl
    obtain ⟨n, hn⟩ := Int.eq_ofNat_of_zero_le h.progress.1
    rw [hn]
    exact decimal_mem_digits n
  have hreport : (pregMatch "report_id".toList lowerUuid (recordPiece (statusFields u) [])).getD [] =
      u.reportInfo.curReportId.text := by
    rcases h.curReportId with hnil | hid
    · rw [pregMatch_of_lookup_none hclean hnodup over_lowerUuid rfl (by
        rw [hnil]
        exact nil_not_mem_lowerUuid), hnil]
      rfl
    · rw [pregMatch_of_lookup hclean hnodup over_lowerUuid rfl hid]
      rfl
  have hresults : pregMatch "results".toList anyText (recordPiece (statusFields u) []) =
      some [] :=
    pregMatch_of_lookup hclean hnodup over_anyText rfl (mem_anyText (by simp)) []
  unfold OpenvasTool.readStatusContent
  rw [hstatus, hprogress, hreport, hresults]
  rfl

end Status

/-- A status file shows its record, or the task is shown as ready. -/
theorem readGvmTaskStatusFile_eq {files : Files} {dir : Text} {t : ListGvmTask}
    {record : Option ListGvmTask} (hid : t.taskInfo.taskId.text ∈ lowerUuid.lang)
    (hrecord : ∀ u ∈ record, StatusRecord t u)
    (hfile : files (pageStatusFile dir t.taskInfo.taskId.text) =
      record.map fun u => renderRecord (statusFields u)) :
    readGvmTaskStatusFile files dir t.taskInfo.taskId.text = shownStatus record := by
  unfold readGvmTaskStatusFile
  rw [hfile]
  cases record with
  | none => rfl
  | some u =>
    have hu := hrecord u rfl
    have hpos := List.length_pos_of_ne_nil (renderRecord_ne_nil (statusFields u))
    obtain ⟨n, hn⟩ : ∃ n, (renderRecord (statusFields u)).length = [statusFields u].length + n :=
      ⟨(renderRecord (statusFields u)).length - 1, by rw [List.length_singleton]; omega⟩
    have hsplit := pregSplit_records [statusFields u] (by simpa using hu.cleanField) n []
    rw [List.flatMap_singleton, List.append_nil, ← hn, pregSplit_nil] at hsplit
    have htaskId : pregMatch "task_id".toList lowerUuid (recordPiece (statusFields u) []) =
        some t.taskInfo.taskId.text := by
      apply pregMatch_of_lookup hu.cleanField (nodup_statusFields u) over_lowerUuid _ hid
      rw [← hu.taskId]
      rfl
    simp only [Option.map_some, hsplit, List.map_cons, List.cons_append, List.find?_cons, htaskId,
      beq_self_eq_true, hu.readStatusContent]

/-! ### The task file -/

/-- The variables for a task. -/
def TaskVars.of (t : ListGvmTask) : TaskVars where
  taskId := t.taskInfo.taskId.text
  taskName := t.taskInfo.taskName.text
  groupId := t.taskInfo.groupId.text
  groupName := t.taskInfo.groupName.text
  targetId := t.targetInfo.targetId.text
  hosts := t.targetInfo.hosts.text
  scheduleType := decimal t.taskInfo.scheduleType
  scheduleTime := t.taskInfo.firstScheduleTime.text
  scheduleList := t.taskInfo.scheduleList.text
  createTime := t.taskInfo.createTime.text

/-- The entry of a task with this status record. -/
def shownTask (files : Files) (dir : Text) (t : ListGvmTask) (record : Option ListGvmTask) :
    PageTask :=
  pageTask (.of t) (shownStatus record)
    (readNvtResult (files (pageResultFile dir t.taskInfo.taskId.text)))

theorem nodup_taskFields (t : ListGvmTask) : ((taskFields t).map Prod.fst).Nodup := by
  show taskKeys.Nodup
  decide

/-- Every pattern matches, so no variable keeps the value of an earlier record. -/
theorem PageRecord.readVar {t : ListGvmTask} (h : PageRecord t) {key val : Text}
    (hlookup : (taskFields t).lookup key = some val) (rest old : Text) :
    OpenvasTool.readVar key (recordPiece (taskFields t) rest) old = val := by
  have hnl : '\n' ∉ val := (h.cleanField _ (mem_of_lookup hlookup)).val_newline_free
  rw [OpenvasTool.readVar, pregMatch_of_lookup h.cleanField (nodup_taskFields t) over_anyText
    hlookup (mem_anyText hnl), Option.getD_some]

theorem PageRecord.read {t : ListGvmTask} (h : PageRecord t) (vars : TaskVars) (rest : Text) :
    vars.read t.taskInfo.taskId.text (recordPiece (taskFields t) rest) = .of t := by
  unfold TaskVars.read
  rw [h.readVar rfl, h.readVar rfl, h.readVar rfl, h.readVar rfl, h.readVar rfl, h.readVar rfl,
    h.readVar rfl, h.readVar rfl, h.readVar rfl]
  rfl

/-- A new key is appended. -/
theorem setEntry_new {data : List (Text × PageTask)} {key : Text} (hkey : key ∉ data.map Prod.fst)
    (entry : PageTask) : setEntry data key entry = data ++ [(key, entry)] :=
  if_neg (not_any_of_notMem hkey)

section Page

variable {files : Files} {dir : Text} {record : ListGvmTask → Option ListGvmTask}

/-- The status file of the task is absent, or it has this record. -/
structure StatusFile (files : Files) (dir : Text) (t : ListGvmTask) (record : Option ListGvmTask) :
    Prop where
  written : ∀ u ∈ record, StatusRecord t u
  file : files (pageStatusFile dir t.taskInfo.taskId.text) =
    record.map fun u => renderRecord (statusFields u)

/-- **One record** adds the entry of its task. -/
theorem readTaskContent_record {t : ListGvmTask} (h : PageRecord t)
    (hstatus : StatusFile files dir t (record t)) (vars : TaskVars)
    {data : List (Text × PageTask)} (hname : t.taskInfo.taskName.text ∉ data.map Prod.fst)
    (rest : Text) :
    readTaskContent files dir (vars, data) (recordPiece (taskFields t) rest) =
      (.of t, data ++ [(t.taskInfo.taskName.text, shownTask files dir t (record t))]) := by
  have htaskId : pregMatch "task_id".toList lowerUuid (recordPiece (taskFields t) rest) =
      some t.taskInfo.taskId.text :=
    pregMatch_of_lookup h.cleanField (nodup_taskFields t) over_lowerUuid rfl h.taskId rest
  have hread := readGvmTaskStatusFile_eq h.taskId hstatus.written hstatus.file
  unfold readTaskContent
  rw [htaskId]
  dsimp only
  rw [h.read]
  change (_, setEntry data t.taskInfo.taskName.text
    (pageTask _ (readGvmTaskStatusFile files dir t.taskInfo.taskId.text) _)) = _
  rw [hread, setEntry_new hname]
  rfl

/-- **All records** add the entries of their tasks. -/
theorem foldl_pageRecords {ts : List ListGvmTask} {pieces : List Text}
    (hpieces : List.Forall₂ (fun t piece => ∃ rest, piece = recordPiece (taskFields t) rest) ts pieces)
    (hts : ∀ t ∈ ts, PageRecord t)
    (hnames : ts.Pairwise fun t u => t.taskInfo.taskName ≠ u.taskInfo.taskName)
    (hstatus : ∀ t ∈ ts, StatusFile files dir t (record t)) (vars : TaskVars)
    {data : List (Text × PageTask)}
    (hnew : ∀ t ∈ ts, t.taskInfo.taskName.text ∉ data.map Prod.fst) :
    ∃ vars', pieces.foldl (readTaskContent files dir) (vars, data) =
      (vars', data ++ ts.map fun t =>
        (t.taskInfo.taskName.text, shownTask files dir t (record t))) := by
  exact foldl_records hpieces
    (fun t ht vars data rest hname =>
      readTaskContent_record (hts t ht) (hstatus t ht) vars hname rest)
    (hnames.imp fun hne heq => hne (CStr.ext heq)) vars hnew

/-- So it is for the tasks that create requests stored. -/
theorem foldl_readTaskContent {ts : List ListGvmTask} {pieces : List Text}
    (hpieces : List.Forall₂ (fun t piece => ∃ rest, piece = recordPiece (taskFields t) rest) ts pieces)
    (hts : ∀ t ∈ ts, StoredTask t)
    (hnames : ts.Pairwise fun t u => t.taskInfo.taskName ≠ u.taskInfo.taskName)
    (hstatus : ∀ t ∈ ts, StatusFile files dir t (record t)) (vars : TaskVars)
    {data : List (Text × PageTask)}
    (hnew : ∀ t ∈ ts, t.taskInfo.taskName.text ∉ data.map Prod.fst) :
    ∃ vars', pieces.foldl (readTaskContent files dir) (vars, data) =
      (vars', data ++ ts.map fun t =>
        (t.taskInfo.taskName.text, shownTask files dir t (record t))) :=
  foldl_pageRecords hpieces (fun t ht => (hts t ht).pageRecord) hnames hstatus vars hnew

end Page

/-- The pieces of a written task file are the records, and perhaps an empty piece. -/
theorem pieces_pageRecords {ts : List ListGvmTask} (hts : ∀ t ∈ ts, PageRecord t) {capacity : ℕ}
    {text : Text} (hwrite : writeTaskRecords capacity ts = some text) :
    ∃ pieces tail, pregSplit text.length text = pieces ++ tail ∧ (tail = [] ∨ tail = [[]]) ∧
      List.Forall₂ (fun t piece => ∃ rest, piece = recordPiece (taskFields t) rest) ts pieces := by
  have hclean : ∀ fields ∈ ts.map taskFields, ∀ f ∈ fields, CleanField f := by
    intro fields hfields
    obtain ⟨t, ht, rfl⟩ := List.mem_map.mp hfields
    exact (hts t ht).cleanField
  have hfold : ((ts.map taskFields).map renderRecord).foldlM (writeRecord capacity) [] =
      some text := by
    rw [List.map_map, List.foldlM_map]
    exact hwrite
  obtain ⟨pieces, tail, hsplit, htail, hpieces⟩ := pieces_writeRecords hclean hfold
  exact ⟨pieces, tail, hsplit, htail, List.forall₂_map_left_iff.mp hpieces⟩

theorem pieces_writeTaskRecords {ts : List ListGvmTask} (hts : ∀ t ∈ ts, StoredTask t) {capacity : ℕ}
    {text : Text} (hwrite : writeTaskRecords capacity ts = some text) :
    ∃ pieces tail, pregSplit text.length text = pieces ++ tail ∧ (tail = [] ∨ tail = [[]]) ∧
      List.Forall₂ (fun t piece => ∃ rest, piece = recordPiece (taskFields t) rest) ts pieces :=
  pieces_pageRecords (fun t ht => (hts t ht).pageRecord) hwrite

/-- **The web page shows what the daemon stored**: one entry for every task, under its name, with
the values of the task and of its own status record. -/
theorem readGvmTasks_writeTaskRecords {ts : List ListGvmTask} (hts : ∀ t ∈ ts, StoredTask t)
    (hnames : ts.Pairwise fun t u => t.taskInfo.taskName ≠ u.taskInfo.taskName)
    {files : Files} {dir : Text} {record : ListGvmTask → Option ListGvmTask}
    (hstatus : ∀ t ∈ ts, StatusFile files dir t (record t)) {capacity : ℕ} {text : Text}
    (hwrite : writeTaskRecords capacity ts = some text) :
    readGvmTasks files dir text =
      ts.map fun t => (t.taskInfo.taskName.text, shownTask files dir t (record t)) := by
  obtain ⟨pieces, tail, hsplit, htail, hpieces⟩ := pieces_writeTaskRecords hts hwrite
  obtain ⟨vars, hfold⟩ := foldl_readTaskContent hpieces hts hnames hstatus {}
    (show ∀ t ∈ ts, t.taskInfo.taskName.text ∉ ([] : List (Text × PageTask)).map Prod.fst by simp)
  unfold readGvmTasks
  rw [hsplit, List.foldl_append, hfold, List.nil_append]
  rcases htail with rfl | rfl
  · rfl
  · rw [List.foldl_cons, List.foldl_nil, readTaskContent, pregMatch_nil]

/-! ### A page with two tasks -/

/-- The task `scan` while its scan runs. -/
def sampleRunning : ListGvmTask :=
  { sampleTask with reportInfo :=
      { sampleTask.reportInfo with
        status := .running
        progress := 40
        curReportId := (CStr.ofText maxUuidSize (sampleUuid 'e')).getD .empty } }

/-- Only the task `scan` has a status file. -/
def sampleStatusFiles : Files := fun path =>
  if path = pageStatusFile defGvmPrivDataDir (sampleUuid 'b') then
    some (renderRecord (statusFields sampleRunning)) else none

def sampleStatus (t : ListGvmTask) : Option ListGvmTask :=
  if t.taskInfo.taskId.text = sampleUuid 'b' then some sampleRunning else none

/-- A task is stored when a request for it was accepted and its objects could be created. -/
theorem storedTask_of_create {t : ListGvmTask} (env : Env) (input : Text)
    (hsome : (getCreateTaskParam input).isSome = true)
    (hcreated : ∀ u ∈ getCreateTaskParam input, (createTaskObjects env u).val.1 = true ∧
      t.taskInfo = (stampTask env (createTaskObjects env u).val.2).taskInfo ∧
      t.targetInfo = (stampTask env (createTaskObjects env u).val.2).targetInfo)
    (hids : lowerUuid.accepts t.taskInfo.taskId.text = true ∧
      lowerUuid.accepts t.taskInfo.configId.text = true ∧
      lowerUuid.accepts t.targetInfo.targetId.text = true ∧
      lowerUuid.accepts t.targetInfo.portlistId.text = true ∧
      (t.taskInfo.scheduleId.text = [] ∨ lowerUuid.accepts t.taskInfo.scheduleId.text = true)) :
    StoredTask t := by
  obtain ⟨htaskId, hconfigId, htargetId, hportlistId, hscheduleId⟩ := hids
  obtain ⟨task, htask⟩ := Option.isSome_iff_exists.mp hsome
  exact ⟨⟨env, input, task, htask, hcreated task htask⟩,
    accepts_iff.mp htaskId, accepts_iff.mp hconfigId, accepts_iff.mp htargetId,
    accepts_iff.mp hportlistId, hscheduleId.imp_right accepts_iff.mp⟩

theorem stored_sampleTask : StoredTask sampleTask :=
  storedTask_of_create (.smooth sampleGvmd) sampleCreate (by decide +kernel)
    (by decide +kernel) (by decide +kernel)

theorem stored_sampleWeekly : StoredTask sampleWeekly :=
  storedTask_of_create sampleWeeklyStep.2 sampleWeeklyCreate
    (by decide +kernel) (by decide +kernel) (by decide +kernel)

theorem statusFile_sampleTask :
    StatusFile sampleStatusFiles defGvmPrivDataDir sampleTask (some sampleRunning) := by
  have hids : sampleTask.taskInfo.taskId.text = sampleUuid 'b' ∧
      lowerUuid.accepts sampleRunning.reportInfo.curReportId.text = true ∧
      sampleRunning.reportInfo.lastReportId.text = [] ∧
      sampleRunning.reportInfo.startTime.text = [] ∧
      sampleRunning.reportInfo.stopTime.text = [] := by decide +kernel
  obtain ⟨htaskId, hreportId, hlast, hstart, hstop⟩ := hids
  refine ⟨?_, by rw [htaskId]; exact if_pos rfl⟩
  intro u hu
  obtain rfl := Option.some.inj hu
  have htask : sampleRunning.taskInfo = sampleTask.taskInfo := by simp only [sampleRunning]
  refine ⟨by rw [htask], ⟨?_, ?_, ?_⟩, by simp [sampleRunning], by simp [sampleRunning],
    Or.inr (accepts_iff.mp hreportId), Or.inl hlast⟩
  · rw [htask]
    exact newline_not_mem_lowerUuid stored_sampleTask.taskId
  · simp [hstart]
  · simp [hstop]

/-- A running task on the page, and a scheduled one without a status file. -/
theorem readGvmTasks_writeTaskRecords_sampleTask :
    readGvmTasks sampleStatusFiles defGvmPrivDataDir (taskFileText [sampleTask, sampleWeekly]) =
      [(sampleTask.taskInfo.taskName.text,
        shownTask sampleStatusFiles defGvmPrivDataDir sampleTask (some sampleRunning)),
      (sampleWeekly.taskInfo.taskName.text,
        shownTask sampleStatusFiles defGvmPrivDataDir sampleWeekly none)] := by
  have hfacts : (taskFileText [sampleTask, sampleWeekly]).length < maxCacheSize ∧
      sampleTask.taskInfo.taskName ≠ sampleWeekly.taskInfo.taskName ∧
      sampleTask.taskInfo.taskId.text = sampleUuid 'b' ∧
      sampleWeekly.taskInfo.taskId.text ≠ sampleUuid 'b' ∧
      sampleStatusFiles (pageStatusFile defGvmPrivDataDir sampleWeekly.taskInfo.taskId.text) =
        none := by decide +kernel
  obtain ⟨hroom, hname, hscan, hweekly, hnone⟩ := hfacts
  have hrecord : sampleStatus sampleTask = some sampleRunning ∧ sampleStatus sampleWeekly = none :=
    ⟨if_pos hscan, if_neg hweekly⟩
  have hstatus : ∀ t ∈ [sampleTask, sampleWeekly],
      StatusFile sampleStatusFiles defGvmPrivDataDir t (sampleStatus t) := by
    simp only [List.forall_mem_cons, List.not_mem_nil, false_implies, implies_true, and_true]
    rw [hrecord.1, hrecord.2]
    exact ⟨statusFile_sampleTask, ⟨by simp, hnone⟩⟩
  have hpage := readGvmTasks_writeTaskRecords (by simp [stored_sampleTask, stored_sampleWeekly])
    (by simp [hname]) hstatus (writeTaskRecords_eq (lt_intOfSize_maxCacheSize hroom))
  rwa [List.map_cons, List.map_cons, List.map_nil, hrecord.1, hrecord.2] at hpage

end OpenvasTool
