import OpenvasTool.Hydra.Cron
import OpenvasTool.Hydra.Data

/-!
# The store of hydra tasks

The memory, the two indexes, the files and the child processes of the hydra
part, with the operations of `HydraTaskOperation`.
-/

namespace OpenvasTool

open Posix Support

/-- `struct HydraDataList`; the file name and the directories never change. -/
structure HydraDataList where
  createque : ListQueue Ptr
  nameset : ListSet Ptr
  deriving DecidableEq

/-- The state of the hydra part: its memory, the flag `g_has_child_exit`, the files and the
task processes. An address below `next` that the heap does not map was freed. -/
structure HydraWorld where
  data : HydraDataList
  heap : Ptr → Option ListHydraTask
  next : Ptr
  hasChildExit : Bool
  files : Files
  procs : Children Ptr

namespace HydraWorld

/-- The task at an address. -/
def task (w : HydraWorld) (p : Ptr) : ListHydraTask := (w.heap p).getD {}

/-- Write the task at an address. -/
def setTask (w : HydraWorld) (p : Ptr) (t : ListHydraTask) : HydraWorld :=
  { w with heap := Function.update w.heap p (some t) }

/-- `newHydraTask`, with the values that its caller gives it. -/
def newTask (w : HydraWorld) (t : ListHydraTask) : Ptr × HydraWorld :=
  (w.next, { w.setTask w.next t with next := w.next + 1 })

/-- `freeHydraTask`. -/
def freeHydraTask (w : HydraWorld) (p : Ptr) : HydraWorld :=
  { w with heap := Function.update w.heap p none }

/-! ### Indexes -/

/-- `findHydraTask`. -/
def findHydraTask (w : HydraWorld) (key : ListHydraTask) : Option Ptr :=
  w.data.nameset.searchListSet fun q => cmpHydraName (w.task q) key

/-- `addHydraTask`. -/
def addHydraTask (w : HydraWorld) (realloc : Bool) (p : Ptr) : Option HydraWorld :=
  (w.data.nameset.addToSet realloc (fun q => cmpHydraName (w.task q) (w.task p)) p).map fun s =>
    { w with data :=
        { nameset := s
          createque := w.data.createque.pushBack (fun q => cmpHydraTime (w.task q) (w.task p)) p } }

/-- `delHydraTask`: the task with the name of the key leaves both indexes. -/
def delHydraTask (w : HydraWorld) (key : ListHydraTask) : Option HydraWorld :=
  (w.data.nameset.delFromSet fun q => cmpHydraName (w.task q) key).map fun r =>
    { w with data :=
        { nameset := r.2
          createque := w.data.createque.delItem r.1 } }

end HydraWorld

/-! ### Paths -/

/-- `DEF_HYDRA_PRIV_DATA_DIR`. -/
def defHydraPrivDataDir : Text := "/usr/local/openvas/gvm/var/hydra".toList

/-- `m_task_templ_dir`. -/
def hydraTemplDir : Text := defHydraPrivDataDir ++ "/".toList ++ "templates".toList

/-- The task file, `DEF_HYDRA_TASK_FILE_NAME`. -/
def hydraTaskFile : Text := defHydraPrivDataDir ++ "/".toList ++ "hydra_task_file".toList

/-- The temporary file next to the task file. -/
def hydraTaskFileTmp : Text := defHydraPrivDataDir ++ "/".toList ++ ".hydra_task_file".toList

/-- The paths of a task, `HYDRA_PATH_TYPE`. -/
structure HydraPaths where
  taskDir : Text
  loginFile : Text
  loginFileTmp : Text
  passwdFile : Text
  passwdFileTmp : Text
  ipListFile : Text
  ipListFileTmp : Text
  cronFileNorm : Text
  taskGrpPidFile : Text

/-- The paths of the task with this identifier. -/
def hydraPaths (taskId : Text) : HydraPaths :=
  let dir := defHydraPrivDataDir ++ "/".toList ++ "task_".toList ++ taskId
  { taskDir := dir
    loginFile := dir ++ "/".toList ++ "hydra_login".toList
    loginFileTmp := dir ++ "/".toList ++ ".hydra_login".toList
    passwdFile := dir ++ "/".toList ++ "hydra_passwd".toList
    passwdFileTmp := dir ++ "/".toList ++ ".hydra_passwd".toList
    ipListFile := dir ++ "/".toList ++ "hydra_ip_list".toList
    ipListFileTmp := dir ++ "/".toList ++ ".hydra_ip_list".toList
    cronFileNorm := "/etc/cron.d".toList ++ "/".toList ++ "hydra_cron_norm_".toList ++ taskId
    taskGrpPidFile := dir ++ "/".toList ++ "hydra_task_proc.pid".toList }

/-- The paths in the order in which `prepareHydraPaths` prints them. -/
def HydraPaths.all (paths : HydraPaths) : List Text :=
  [paths.taskDir, paths.loginFile, paths.loginFileTmp, paths.passwdFile, paths.passwdFileTmp,
    paths.ipListFile, paths.ipListFileTmp, paths.cronFileNorm, paths.taskGrpPidFile]

/-- `prepareHydraPaths`: a path that is too long is an error. -/
def prepareHydraPaths (task : ListHydraTask) : Option HydraPaths :=
  let paths := hydraPaths task.taskId.text
  if paths.all.all fun path => decide (path.length < maxFilenamePathSize) then some paths else none

/-- With the directories of the daemon every path fits. -/
@[simp] theorem prepareHydraPaths_eq (task : ListHydraTask) :
    prepareHydraPaths task = some (hydraPaths task.taskId.text) := by
  have hid := task.taskId.fits
  have hfit : ∀ path ∈ (hydraPaths task.taskId.text).all, path.length < maxFilenamePathSize := by
    have hdir : defHydraPrivDataDir.length = 32 := rfl
    intro path hpath
    simp only [HydraPaths.all, hydraPaths, List.mem_cons, List.not_mem_nil, or_false] at hpath
    simp only [maxUuidSize] at hid
    rcases hpath with rfl | rfl | rfl | rfl | rfl | rfl | rfl | rfl | rfl <;>
      simp [hdir, maxFilenamePathSize] <;> omega
  unfold prepareHydraPaths
  rw [if_pos]
  simpa using hfit

/-! ### Task file -/

/-- The fields of `HYDRA_TASK_FILE_FORMAT`. -/
def hydraFields (task : ListHydraTask) : List (Text × Text) :=
  [("task_id".toList, task.taskId.text),
   ("task_name".toList, task.taskName.text),
   ("hosts_type".toList, decimal task.hostsType.toInt),
   ("hosts".toList, task.hosts.text),
   ("services".toList, task.services.text),
   ("opts".toList, task.opts.text),
   ("schedule_type".toList, decimal task.scheduleType),
   ("schedule_time".toList, task.firstScheduleTime.text),
   ("schedule_list".toList, task.scheduleList.text),
   ("create_time".toList, task.createTime.text)]

/-- `writeHydraRecord`: append a task to a buffer of this capacity. -/
def writeHydraRecord (capacity : ℕ) (buf : Text) (task : ListHydraTask) : Option Text :=
  writeRecord capacity buf (renderRecord (hydraFields task))

/-- The text that `writeHydraTaskFile` renders for the tasks of the create queue. -/
def writeHydraRecords (capacity : ℕ) (tasks : List ListHydraTask) : Option Text :=
  tasks.foldlM (writeHydraRecord capacity) []

/-- `writeHydraTaskFile`: the return value and the files after it. -/
def writeHydraTaskFile (env : HydraEnv) (w : HydraWorld) : ℤ × Files :=
  match writeHydraRecords maxCacheSize (w.data.createque.items.map w.task) with
  | none => (-1, w.files)
  | some content => env.writeFileSafe content hydraTaskFile hydraTaskFileTmp w.files

/-- The body of the loop of `parseHydraRecord` up to the insertion. -/
def parseHydraFields (body : Text) : Option ListHydraTask := do
  let taskId ← getPatternKey body "task_id".toList uuidRegPattern maxUuidSize
  let taskName ← getPatternKey body "task_name".toList gvmNamePattern maxNameSize
  let hostsType ← getPatternKeyInt body "hosts_type".toList customOnOffPattern
  let hosts ← getPatternKey body "hosts".toList customCommPattern maxMemListSize
  let services ← getPatternKey body "services".toList customServicesPattern maxMemListSize
  let opts ← getPatternKey body "opts".toList customCommPattern maxMemListSize
  let type ← getPatternKeyInt body "schedule_type".toList customScheduleTypePattern
  let scheduleTime ← getPatternKey body "schedule_time".toList
    (customMatchOrNull customTimeStampPattern) maxTimestampSize
  let scheduleList ← getPatternKey body "schedule_list".toList customCommPattern
    maxScheduleListSize
  let createTime ← getPatternKey body "create_time".toList customTimeStampPattern maxTimestampSize
  if chkName taskName.text && chkHydraHostsIntern hostsType hosts.text &&
      chkScheduleParam type scheduleTime.text scheduleList.text then do
    let hostsType ← HostsType.ofInt hostsType
    some
      { createTime := createTime
        modifyTime := .copy createTime
        taskId := taskId
        taskName := taskName
        hosts := hosts
        services := services
        opts := opts
        firstScheduleTime := scheduleTime
        scheduleList := scheduleList
        scheduleType := type
        hostsType := hostsType }
  else none

/-! ### Copying lists of files -/

/-- `writeFile` and `appendFile` behind an old content: the return value and the new content. -/
def storeBytes (stored : Option ℕ) (old : Option Text) (bytes : Text) : ℤ × Option Text :=
  match stored with
  | none => (-1, old)
  | some k =>
      if bytes.length ≤ k then (0, some (old.getD [] ++ bytes))
      else (-2, some (old.getD [] ++ bytes.take k))

/-- One file of `copyFileList`: its content goes to the destination, with a line break at the end.
The calls for the destination are counted from `n`, and the first one truncates it. -/
def copyContent (env : HydraEnv) (dst : Text) (n : ℕ) (content : Text) (files : Files) :
    ℤ × Files :=
  let old := if n = 0 then none else files dst
  let r := storeBytes (env.store dst n) old content
  let files := if n = 0 ∧ env.store dst n = none then files else files.set dst r.2
  if r.1 = 0 ∧ content.getLast? ≠ some '\n' then
    -- the return value of the line break is ignored
    (0, files.set dst (storeBytes (env.store dst (n + 1)) (files dst) "\n".toList).2)
  else (r.1, files)

/-- The loop of `copyFileList`; every name takes at least one byte of the list. -/
def copyFileLoop (env : HydraEnv) (basedir dst : Text) : ℕ → ℕ → Text → Files → ℤ × Files
  | 0, _, _, files => (-1, files)
  | fuel + 1, n, filelist, files =>
      match getNextToken filelist ",".toList maxFilenamePathSize with
      | .error .empty => (if 0 < n then 0 else 1, files)
      | .error _ => (-1, files)
      | .ok (name, rest) =>
          let path := basedir ++ "/".toList ++ name.text
          if name.text.isEmpty ∨ maxFilenamePathSize ≤ path.length then (-1, files)
          else
            match readTotalFile (env.stat path) (env.read path) (files path) with
            | .ok content =>
                match copyContent env dst n content files with
                | (0, files) => copyFileLoop env basedir dst fuel (n + 2) rest files
                | r => r
            | .error .noFile => (1, files)
            | .error .emptyFile => copyFileLoop env basedir dst fuel n rest files
            | .error _ => (-1, files)

/-- `copyFileList`. -/
def copyFileList (env : HydraEnv) (basedir filelist dst : Text) (files : Files) : ℤ × Files :=
  copyFileLoop env basedir dst (filelist.length + 1) 0 filelist files

/-- `copyFileListSafe`. -/
def copyFileListSafe (env : HydraEnv) (basedir filelist dst dstTmp : Text) (files : Files) :
    ℤ × Files :=
  match copyFileList env basedir filelist dstTmp files with
  | (0, files) =>
      if env.rename dst then (0, (files.set dst (files dstTmp)).set dstTmp none) else (-3, files)
  | r => r

/-- `writeFile` of the cron file, which is written directly. -/
def writeFile (env : HydraEnv) (content path : Text) (files : Files) : ℤ × Files :=
  let r := storeBytes (env.store path 0) none content
  (r.1, if env.store path 0 = none then files else files.set path r.2)

/-- `deleteFile`. -/
def deleteFile (env : HydraEnv) (path : Text) (files : Files) : Files :=
  if env.unlink path then files.set path none else files

/-! ### Files of a task -/

/-- `convIPsByLine`: the list with line breaks for the commas, if it fits. -/
def convIPsByLine (ips : Text) (maxlen : ℕ) : Option Text :=
  if 0 < ips.length ∧ ips.length ≤ maxlen - 2 ∧
      ips.all (fun c => c.isDigit || c == '.' || c == ':' || c == ',') then
    some (ips.map (fun c => if c = ',' then '\n' else c) ++ ['\n'])
  else none

/-- The command of a cron entry. -/
def startHydraCmd (progPath : Text) (task : ListHydraTask) : Text :=
  progPath ++ " 2 \"start_hydra\" \"".toList ++ task.taskName.text ++ "\" \"".toList ++
    task.taskId.text ++ "\"".toList

/-- `writeScheduleFiles`. -/
def writeScheduleFiles (env : HydraEnv) (task : ListHydraTask) (paths : HydraPaths)
    (files : Files) : ℤ × Files :=
  if task.scheduleType = icalDateNone then (0, files)
  else
    let cmd := startHydraCmd env.progPath task
    if cmd.length < maxCacheSize then
      match formatCronTask maxCacheSize task.scheduleType task.firstScheduleTime.text
          task.scheduleList.text cronUserName cmd with
      | none => (-1, files)
      | some content => writeFile env content paths.cronFileNorm files
    else (-1, files)

/-- The part of `writeHydraRelationFile` that writes the files below the directory of the task and
the cron file. -/
def writeHydraTaskDir (env : HydraEnv) (task : ListHydraTask) (paths : HydraPaths)
    (files : Files) : ℤ × Files :=
  match copyFileListSafe env hydraTemplDir task.loginList.text paths.loginFile
      paths.loginFileTmp files with
  | (0, files) =>
      match copyFileListSafe env hydraTemplDir task.passwdList.text paths.passwdFile
          paths.passwdFileTmp files with
      | (0, files) =>
          let r :=
            match task.hostsType with
            | .ipList =>
                match convIPsByLine task.hosts.text maxCacheSize with
                | none => (-1, files)
                | some ips => env.writeFileSafe ips paths.ipListFile paths.ipListFileTmp files
            | .ipBlock => (0, files)
          match r with
          | (0, files) => writeScheduleFiles env task paths files
          | r => r
      | r => r
  | r => r

/-- The rollback of `writeHydraRelationFile`. -/
def rollbackHydra (env : HydraEnv) (added : HydraWorld) (p : Ptr) (paths : HydraPaths)
    (files : Files) : HydraWorld :=
  { (added.delHydraTask (added.task p)).getD added with
    files := env.deleteDir paths.taskDir (deleteFile env paths.cronFileNorm files) }

/-- `writeHydraRelationFile`: whether it returns 0, and the state after it. -/
def writeHydraRelationFile (env : HydraEnv) (w : HydraWorld) (p : Ptr) : Bool × HydraWorld :=
  match prepareHydraPaths (w.task p) with
  | none => (false, w)
  | some paths =>
      match w.addHydraTask env.realloc p with
      | none => (false, w)
      | some added =>
          if env.mkdir paths.taskDir then
            match writeHydraTaskDir env (w.task p) paths w.files with
            | (0, files) =>
                match writeHydraTaskFile env { added with files := files } with
                | (0, files) => (true, { added with files := files })
                | (_, files) => (false, rollbackHydra env added p paths files)
            | (_, files) => (false, rollbackHydra env added p paths files)
          else (false, rollbackHydra env added p paths w.files)

/-- `delHydraRelationFiles`: whether it returns 0, and the state after it. -/
def delHydraRelationFiles (env : HydraEnv) (w : HydraWorld) (p : Ptr) : Bool × HydraWorld :=
  match prepareHydraPaths (w.task p) with
  | none => (false, w)
  | some paths =>
      match w.delHydraTask (w.task p) with
      | none => (false, w)
      | some deleted =>
          match writeHydraTaskFile env deleted with
          | (0, files) =>
              (true, { deleted with
                files := env.deleteDir paths.taskDir (deleteFile env paths.cronFileNorm files) })
          | (_, files) =>
              -- roll back
              (false, { (deleted.addHydraTask env.realloc p).getD deleted with files := files })

/-! ### Running a task -/

/-- The texts that `genCmdParams` prints into its buffer, one behind the other. -/
def cmdTexts (task : ListHydraTask) (paths : HydraPaths) : List Text :=
  ["/usr/bin/hydra".toList, "-I".toList, "-t".toList, "4".toList, "-T".toList, "8".toList,
    "-w".toList, "10".toList, "-o".toList, "-b".toList, "json".toList, "-L".toList,
    paths.loginFile, "-P".toList, paths.passwdFile, "-f".toList] ++
  (match task.hostsType with
    | .ipList => ["-M".toList, paths.ipListFile]
    | .ipBlock => ["-s".toList, task.hosts.text]) ++
  (if task.opts.text.isEmpty then [] else [task.opts.text])

/-- `left = buffer->m_capacity`: nothing fits a negative number. -/
def leftOf (capacity : ℕ) : ℕ := (intOfSize capacity).toNat

/-- Whether `genCmdParams` returns 0: every text is not empty and fits with its NUL. -/
def genCmdParams (capacity : ℕ) (task : ListHydraTask) (paths : HydraPaths) : Bool :=
  ((cmdTexts task paths).foldlM (fun left text =>
    if 0 < text.length ∧ text.length < left then some (left - (text.length + 1)) else none)
    (leftOf capacity)).isSome

/-- `runHydra` in the parent: the state after a successful fork. -/
def runHydra (env : HydraEnv) (w : HydraWorld) (p : Ptr) : Option HydraWorld :=
  (prepareHydraPaths (w.task p)).bind fun paths =>
    if genCmdParams maxCacheSize (w.task p) paths then
      (w.procs.fork env.fork p).map fun r =>
        { w.setTask p { w.task p with pid := r.1 } with procs := r.2 }
    else none

/-- `stopProc`: success, and the process that gets the signal. -/
def stopProc (env : HydraEnv) (pid : ℕ) : Bool × List ℕ :=
  if pid = 0 then (true, [])
  else if 1 < pid then (env.kill, [pid])
  else (false, [])

end OpenvasTool
