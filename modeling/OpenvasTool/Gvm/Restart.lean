import OpenvasTool.Gvm.Creation
import OpenvasTool.Gvm.StatusFile

/-!
# Stopping and starting the daemon

What the daemon holds in memory is in its two kinds of files: the task file has
the tasks of the create queue, and the status file of a task is absent as long
as the task never had a report. A restart then gives the same tasks with the
same check states.
-/

namespace OpenvasTool

open Posix Posix.Regex Support

/-! ### Reading the files again -/

/-- All system calls of the start succeed. -/
structure BootEnv.Succeeds (env : BootEnv) : Prop extends env.Memory where
  createData : env.createData = true
  privDir : env.privDir = true
  stat : ∀ path, env.stat path = true
  read : ∀ path, env.read path = true

/-- The task file has these tasks. -/
def TaskFileSaved (files : Files) (ts : List ListGvmTask) : Prop :=
  (files gvmTaskFile = none ∧ ts = []) ∨
    ∃ text, files gvmTaskFile = some text ∧ writeTaskRecords maxCacheSize ts = some text

/-- The status file of a task has its check state, or there is none and the task has had no
report. -/
def StatusSaved (files : Files) (t : ListGvmTask) : Prop :=
  (files (gvmPaths t.taskInfo.taskId.text).statusFile = none ∧ t.restored = t.persisted) ∨
    (files (gvmPaths t.taskInfo.taskId.text).statusFile = some (renderRecord (statusFields t)) ∧
      StorableStatus t)

theorem StatusSaved.congr {files files' : Files} {t : ListGvmTask} (h : StatusSaved files t)
    (hsame : files' (gvmPaths t.taskInfo.taskId.text).statusFile =
      files (gvmPaths t.taskInfo.taskId.text).statusFile) : StatusSaved files' t :=
  h.imp (fun hnone => ⟨hsame.trans hnone.1, hnone.2⟩) fun hsome => ⟨hsame.trans hsome.1, hsome.2⟩

/-- A task without the time of its next check. -/
def ListGvmTask.unscheduled (t : ListGvmTask) : ListGvmTask := { t with chkTime := 0 }

/-- A text that is neither empty nor too large is read. -/
theorem readTotalFile_ok {content : Text} (hlen : content.length ≤ maxTaskFileSize)
    (hne : content ≠ []) : readTotalFile true true (some content) = .ok content := by
  have hempty : content.isEmpty = false := by simpa using hne
  simp only [readTotalFile, if_true, if_neg (not_lt.mpr hlen), hempty, Bool.false_eq_true, if_false]

/-- Loading records changes neither the run queue nor the files. -/
theorem parseTaskRecord_frame {env : BootEnv} {w w' : World} {content : Text}
    (h : parseTaskRecord env w content = some w') :
    w'.data.runque = w.data.runque ∧ w'.files = w.files := by
  have hone : ∀ {v v' : World} {record : ℕ × Text}, loadRecord env v record = some v' →
      v'.data.runque = v.data.runque ∧ v'.files = v.files := by
    intro v v' record hv
    unfold loadRecord at hv
    split at hv
    · obtain ⟨t, _, hadd⟩ := Option.bind_eq_some_iff.mp hv
      obtain ⟨_, _, hfiles, hrun, _⟩ := World.addGvmTask_frame hadd
      exact ⟨hrun, hfiles⟩
    · simp at hv
  unfold parseTaskRecord at h
  generalize (records content).zipIdx.map Prod.swap = l at h
  induction l generalizing w with
  | nil =>
    obtain rfl : w = w' := by simpa using h
    exact ⟨rfl, rfl⟩
  | cons record l ih =>
    rw [List.foldlM_cons, Option.bind_eq_bind, Option.bind_eq_some_iff] at h
    obtain ⟨w1, hw1, h⟩ := h
    obtain ⟨hrun, hfiles⟩ := ih h
    exact ⟨hrun.trans (hone hw1).1, hfiles.trans (hone hw1).2⟩

/-- The first checks are scheduled, and nothing else changes. -/
theorem tasks_addGvmChecks {env : BootEnv} {w : World} (h : w.Indexed)
    (hrun : w.data.runque.Valid) :
    (addGvmChecks env w).tasks.map ListGvmTask.unscheduled =
      w.tasks.map ListGvmTask.unscheduled := by
  have hque : ∀ (ps : List Ptr) (v : World),
      (ps.foldl (addTaskChecks env) v).data.createque = v.data.createque := by
    intro ps
    induction ps with
    | nil => exact fun v => rfl
    | cons p ps ih =>
      intro v
      rw [List.foldl_cons, ih]
      unfold addTaskChecks World.addGvmRunTask
      split <;> rfl
  have hps : ∀ p ∈ w.data.createque.items, p ∈ w.data.nameset.data :=
    fun p hp => (h.create_iff p).mp hp
  obtain ⟨hidx, -, hset, -, -, hfrom⟩ := @World.Indexed.addChecks _ env _ h hrun hps
  show (((w.data.createque.items.foldl (addTaskChecks env) w).data.createque.items).map _).map _ = _
  rw [hque, World.tasks, List.map_map, List.map_map]
  refine List.map_congr_left fun p hp => ?_
  obtain ⟨t, time, ht, heq⟩ := hfrom p _ (hidx.stored_task (hset ▸ hps p hp))
  change ((w.data.createque.items.foldl (addTaskChecks env) w).task p).unscheduled = _
  rw [heq, Function.comp_apply, World.task_of_stored ht]
  rfl

section Read

variable {env : BootEnv} (henv : env.Succeeds)

include henv

/-- The task file gives the tasks without their check states. -/
theorem readTaskFile_saved {files : Files} {ts : List ListGvmTask} (hts : TaskList ts)
    (hsaved : TaskFileSaved files ts)
    (hsize : ∀ text ∈ files gvmTaskFile, text.length ≤ maxTaskFileSize) :
    ∃ w, readTaskFile env (emptyWorld files) = some w ∧ w.Indexed ∧
      w.data.runque = .initListQue ∧ w.files = files ∧
      w.tasks = ts.map ListGvmTask.persisted := by
  have hempty := World.indexed_emptyWorld files
  unfold readTaskFile
  rw [henv.stat, henv.read, show (emptyWorld files).files = files from rfl]
  rcases hsaved with ⟨hnone, rfl⟩ | ⟨text, htext, hwrite⟩
  · rw [hnone]
    exact ⟨emptyWorld files, rfl, hempty, rfl, rfl, rfl⟩
  have hlen := hsize text htext
  have hroom : (taskFileText ts).length < maxCacheSize := by
    have := length_writeTaskRecords hwrite
    simp only [maxTaskFileSize] at hlen
    simp only [maxCacheSize]
    omega
  obtain rfl : taskFileText ts = text :=
    Option.some.inj ((writeTaskRecords_eq (lt_intOfSize_maxCacheSize hroom)).symm.trans hwrite)
  rw [htext]
  cases ts with
  | nil => exact ⟨emptyWorld files, rfl, hempty, rfl, rfl, rfl⟩
  | cons t ts =>
    have hne : taskFileText (t :: ts) ≠ [] :=
      List.append_ne_nil_of_left_ne_nil (renderRecord_ne_nil _) _
    rw [readTotalFile_ok hlen hne]
    obtain ⟨w, hw, hidx, hmap⟩ := parseTaskRecord_taskFileText henv.toMemory hts files
    obtain ⟨hrun, hfiles⟩ := parseTaskRecord_frame hw
    exact ⟨w, hw, hidx, hrun, hfiles, hmap⟩

/-- The status file of one task. -/
theorem readTaskStatusFile_saved {w : World} {p : Ptr} {t : ListGvmTask}
    (htask : w.task p = t.persisted) (hsaved : StatusSaved w.files t) :
    ∃ w', readTaskStatusFile env w p = some w' ∧ w'.data = w.data ∧ w'.files = w.files ∧
      w'.task p = t.restored ∧ ∀ q, q ≠ p → w'.task q = w.task q := by
  have hid : (w.task p).taskInfo.taskId = t.taskInfo.taskId := by rw [htask]; rfl
  unfold readTaskStatusFile
  rw [prepareGvmPaths_eq, Option.bind_some, henv.stat, henv.read, hid]
  rcases hsaved with ⟨hnone, hfresh⟩ | ⟨hfile, hstatus⟩
  · rw [hnone]
    exact ⟨w, rfl, rfl, rfl, htask.trans hfresh.symm, fun _ _ => rfl⟩
  · rw [hfile, readTotalFile_ok hstatus.length_le (renderRecord_ne_nil _), htask]
    dsimp only
    rw [hstatus.parseTaskStatusRecord]
    refine ⟨w.setTask p t.restored, rfl, rfl, rfl, World.task_setTask_self w p _, fun q hq => ?_⟩
    rw [World.task_setTask, if_neg hq]

/-- The status files of several tasks. -/
theorem readStatusFiles_saved {ps : List Ptr} {ts : List ListGvmTask} {w : World}
    (hnodup : ps.Nodup) (hps : ps.map w.task = ts.map ListGvmTask.persisted)
    (hsaved : ∀ t ∈ ts, StatusSaved w.files t) :
    ∃ w', ps.foldlM (readTaskStatusFile env) w = some w' ∧ w'.data = w.data ∧
      ps.map w'.task = ts.map ListGvmTask.restored ∧ ∀ q ∉ ps, w'.task q = w.task q := by
  induction ps generalizing w ts with
  | nil =>
    obtain rfl := List.map_eq_nil_iff.mp hps.symm
    exact ⟨w, rfl, rfl, rfl, fun _ _ => rfl⟩
  | cons p ps ih =>
    obtain ⟨t, ts, rfl⟩ : ∃ t us, ts = t :: us := by
      cases ts with
      | nil => simp at hps
      | cons t ts => exact ⟨t, ts, rfl⟩
    obtain ⟨hnot, hnodup⟩ := List.nodup_cons.mp hnodup
    obtain ⟨hp, hps⟩ := List.cons.inj hps
    obtain ⟨w1, hw1, hdata, hfiles, hself, hother⟩ :=
      readTaskStatusFile_saved henv hp (hsaved t (by simp))
    have hkeep : ps.map w1.task = ts.map ListGvmTask.persisted := by
      rw [← hps]
      exact List.map_congr_left fun q hq => hother q fun heq => hnot (heq ▸ hq)
    obtain ⟨w', hw', hdata', hmap, hrest⟩ :=
      ih hnodup hkeep (fun u hu => hfiles ▸ hsaved u (by simp [hu]))
    refine ⟨w', ?_, hdata'.trans hdata, ?_, fun q hq => ?_⟩
    · rw [List.foldlM_cons, hw1]
      exact hw'
    · rw [List.map_cons, List.map_cons, hmap, hrest p hnot, hself]
    · rw [List.mem_cons, not_or] at hq
      rw [hrest q hq.2, hother q hq.1]

/-- **Saved tasks are restored**, in the same order and with their check states. -/
theorem initDaemon_saved {files : Files} {ts : List ListGvmTask} (hts : TaskList ts)
    (hsaved : TaskFileSaved files ts)
    (hsize : ∀ text ∈ files gvmTaskFile, text.length ≤ maxTaskFileSize)
    (hstatus : ∀ t ∈ ts, StatusSaved files t) :
    ∃ w, initDaemon env files = some w ∧ w.StoreConsistent ∧ w.files = files ∧
      w.tasks.map ListGvmTask.unscheduled = ts.map ListGvmTask.restored := by
  obtain ⟨w, hw, hidx, hrun, hfiles, htasks⟩ := readTaskFile_saved henv hts hsaved hsize
  obtain ⟨w', hw', hdata, hmap, _⟩ := readStatusFiles_saved henv hidx.createque.nodup htasks
    (hfiles.symm ▸ hstatus)
  obtain ⟨hidx', -, hfiles', -⟩ := hidx.readStatusFiles hidx.createque.nodup
    (fun p hp => (hidx.create_iff p).mp hp) hw'
  have hrun' : w'.data.runque = .initListQue := by rw [hdata, hrun]
  have hvalid : w'.data.runque.Valid := hrun' ▸ ListQueue.valid_initListQue
  have hps : ∀ p ∈ w'.data.createque.items, p ∈ w'.data.nameset.data :=
    fun p hp => (hidx'.create_iff p).mp hp
  obtain ⟨hidx3, hrun3, hset3, hmem3, hfiles3, -⟩ := @World.Indexed.addChecks _ env _ hidx' hvalid hps
  refine ⟨addGvmChecks env w', ?_, ⟨hidx3, hrun3, fun q => ?_⟩, ?_, ?_⟩
  · have hstart : readAllTaskStatusRecs env w = some w' := hw'
    simp [initDaemon, henv.createData, henv.privDir, hw, hstart]
  · change q ∈ (w'.data.createque.items.foldl (addTaskChecks env) w').data.runque.items ↔
      q ∈ (w'.data.createque.items.foldl (addTaskChecks env) w').data.nameset.data
    rw [hmem3, hset3, hrun', ← hidx'.create_iff]
    simp [ListQueue.initListQue]
  · exact hfiles3.trans (hfiles'.trans hfiles)
  · have hplain : w'.tasks = ts.map ListGvmTask.restored := by rw [World.tasks, hdata, hmap]
    rw [tasks_addGvmChecks hidx' hvalid, hplain, List.map_map]
    rfl

end Read

/-! ### Background checks -/

/-- What a check leaves when the status file can be written. -/
structure CheckSaved (files : Files) (t : ListGvmTask) (c : Check) : Prop where
  taskInfo : c.task.taskInfo = t.taskInfo
  targetInfo : c.task.targetInfo = t.targetInfo
  taskFile : c.files gvmTaskFile = files gvmTaskFile
  others : ∀ id, id ≠ t.taskInfo.taskId.text →
    c.files (gvmPaths id).statusFile = files (gvmPaths id).statusFile
  status : StatusSaved c.files c.task

/-- The two files of a task only have its record and its check state. -/
theorem StatusSaved.task_congr {files : Files} {t u : ListGvmTask} (h : StatusSaved files t)
    (hinfo : u.taskInfo = t.taskInfo) (htarget : u.targetInfo = t.targetInfo)
    (hreport : u.reportInfo = t.reportInfo) (htype : u.chkType = t.chkType) :
    StatusSaved files u := by
  have hpersisted : u.persisted = t.persisted := by
    simp only [ListGvmTask.persisted, hinfo, htarget]
  have hrestored : u.restored = t.restored := by
    simp only [ListGvmTask.restored, hpersisted, hreport, htype]
  have hfields : statusFields u = statusFields t := by
    simp only [statusFields, hinfo, hreport, htype]
  rcases h with ⟨hnone, hfresh⟩ | ⟨hsome, hok⟩
  · exact Or.inl ⟨hinfo ▸ hnone, by rw [hrestored, hpersisted, hfresh]⟩
  · refine Or.inr ⟨by rw [hinfo, hfields, hsome], ?_⟩
    exact ⟨hinfo ▸ hok.taskId, hreport ▸ hok.startTime, hreport ▸ hok.stopTime,
      hreport ▸ hok.status, hreport ▸ hok.progress, hreport ▸ hok.curReportId,
      hreport ▸ hok.lastReportId⟩

/-- The current report of a saved task is unset or a UUID. -/
theorem StatusSaved.curReportId {files : Files} {t : ListGvmTask} (h : StatusSaved files t) :
    t.reportInfo.curReportId.text ∈ (customMatchOrNull uuidRegPattern).lang := by
  rcases h with ⟨_, hfresh⟩ | ⟨_, hok⟩
  · have hcur : t.reportInfo.curReportId = .empty :=
      congrArg (fun u => u.reportInfo.curReportId) hfresh
    rw [hcur]
    exact mem_lang_opt.mpr (Or.inl rfl)
  · exact mem_lang_opt.mpr (Or.inr hok.curReportId)

/-- A task that is not checked for a new report has its status file. -/
theorem StatusSaved.storable {files : Files} {t : ListGvmTask} (h : StatusSaved files t)
    (htype : t.chkType ≠ .chkTask) : StorableStatus t := by
  rcases h with ⟨_, hfresh⟩ | ⟨_, hok⟩
  · exact absurd (congrArg ListGvmTask.chkType hfresh) htype
  · exact hok

section Checks

variable {env : Env} {files : Files} {t : ListGvmTask}

/-- A status file that could be written. -/
theorem writeTaskStatusFile_written
    (hwrite : env.write (gvmPaths t.taskInfo.taskId.text).statusFile = .ok) :
    (writeTaskStatusFile env t files).2 (gvmPaths t.taskInfo.taskId.text).statusFile =
      some (renderRecord (statusFields t)) := by
  unfold writeTaskStatusFile
  rw [prepareGvmPaths_eq]
  dsimp only
  unfold Env.writeFileSafe
  rw [hwrite]
  exact Function.update_self _ _ _

/-- A check without any news. -/
theorem checkSaved_kept (h : StatusSaved files t) {c : Check} (hfiles : c.files = files)
    (hinfo : c.task.taskInfo = t.taskInfo) (htarget : c.task.targetInfo = t.targetInfo)
    (hreport : c.task.reportInfo = t.reportInfo) (htype : c.task.chkType = t.chkType) :
    CheckSaved files t c := by
  subst hfiles
  exact ⟨hinfo, htarget, rfl, fun _ _ => rfl, h.task_congr hinfo htarget hreport htype⟩

/-- A check that wrote the status file of the changed task. -/
theorem checkSaved_written (u : ListGvmTask) (hinfo : u.taskInfo = t.taskInfo)
    (htarget : u.targetInfo = t.targetInfo) (hok : StorableStatus u)
    (hwrite : env.write (gvmPaths t.taskInfo.taskId.text).statusFile = .ok)
    (interval : ℤ) (sent : List GvmRequest) :
    CheckSaved files t ⟨true, u, interval, (writeTaskStatusFile env u files).2, sent⟩ := by
  obtain ⟨htask, hothers⟩ := writeTaskStatusFile_frame env u files
  rw [hinfo] at hothers
  rw [← hinfo] at hwrite
  exact ⟨hinfo, htarget, htask, hothers, Or.inr ⟨writeTaskStatusFile_written hwrite, hok⟩⟩

/-- The check for a new report. -/
theorem checkSaved_queryTask (h : StatusSaved files t)
    (hid : t.taskInfo.taskId.text ∈ uuidRegPattern.lang)
    (hwrite : env.write (gvmPaths t.taskInfo.taskId.text).statusFile = .ok)
    (hanswer : ∀ info, taskAnswer env t = some info →
      (offeredReport info).text ∈ (customMatchOrNull uuidRegPattern).lang) :
    CheckSaved files t (queryTask env t files) := by
  unfold queryTask
  dsimp only
  split
  · exact checkSaved_kept h rfl rfl rfl rfl rfl
  · rename_i info hinfo
    rcases updateTaskReport_cases t info with heq | ⟨hne, _, heq⟩
    · rw [heq]
      exact checkSaved_kept h rfl rfl rfl rfl rfl
    · rw [heq]
      obtain ⟨rsp, _, hparse⟩ := Option.bind_eq_some_iff.mp hinfo
      obtain ⟨hstart, hstop⟩ := parseTask_times hparse
      have hnil : ∀ r : Regex, [] ∈ (customMatchOrNull r).lang :=
        fun r => mem_lang_opt.mpr (Or.inl rfl)
      have hcur := (mem_lang_opt.mp (hanswer info hinfo)).resolve_left hne
      have hadopted : StorableStatus (adoptReport t info (offeredReport info)) := by
        refine ⟨hid, ?_, ?_, by simp [adoptReport], by simp [adoptReport], hcur, h.curReportId⟩
        · show info.startTime.text ∈ _
          rw [hstart]
          exact hnil _
        · show info.stopTime.text ∈ _
          rw [hstop]
          exact hnil _
      have hsaved : CheckSaved files t ⟨true, adoptReport t info (offeredReport info), 0,
          (writeTaskStatusFile env (adoptReport t info (offeredReport info)) files).2,
          (gvmQueryTask env t.taskInfo.taskId.text).sent⟩ :=
        checkSaved_written (t := t) (adoptReport t info (offeredReport info)) rfl rfl hadopted
          hwrite 0 _
      exact hsaved

/-- The check of the current report. -/
theorem checkSaved_queryReport (h : StatusSaved files t) (htype : t.chkType = .chkReport)
    (hwrite : env.write (gvmPaths t.taskInfo.taskId.text).statusFile = .ok)
    (htimes : ∀ info, reportAnswer env t = some info →
      info.startTime.text ∈ (customMatchOrNull customTimeStampPattern).lang ∧
        info.stopTime.text ∈ (customMatchOrNull customTimeStampPattern).lang) :
    CheckSaved files t (queryReport env t files) := by
  have hok := h.storable (by simp [htype])
  unfold queryReport
  dsimp only
  split
  · exact checkSaved_kept h rfl rfl rfl rfl rfl
  · rename_i info hinfo
    split
    swap
    · exact checkSaved_kept h rfl rfl rfl rfl rfl
    obtain ⟨hstart, hstop⟩ := htimes info hinfo
    obtain ⟨rsp, _, hparse⟩ := Option.bind_eq_some_iff.mp hinfo
    obtain ⟨-, -, hstatus, hprogress⟩ := parseReport_spec hparse
    have hpolled : StorableStatus (polledTask t info) :=
      ⟨hok.taskId, hstart, hstop, hstatus, hprogress, hok.curReportId, hok.lastReportId⟩
    have hsame : (reportChkType (polledTask t info)).1.taskInfo = t.taskInfo ∧
        (reportChkType (polledTask t info)).1.targetInfo = t.targetInfo ∧
        StorableStatus (reportChkType (polledTask t info)).1 := by
      rcases reportChkType_cases (polledTask t info) with ⟨_, heq⟩ | ⟨_, heq⟩ | ⟨_, _, heq⟩
      all_goals
        rw [heq]
        exact ⟨rfl, rfl, ⟨hpolled.taskId, hpolled.startTime, hpolled.stopTime, hpolled.status,
          hpolled.progress, hpolled.curReportId, hpolled.lastReportId⟩⟩
    exact checkSaved_written _ hsame.1 hsame.2.1 hsame.2.2 hwrite _ _

/-- The check for results. -/
theorem checkSaved_queryResult (h : StatusSaved files t) (htype : t.chkType = .chkResult)
    (hwrite : env.write (gvmPaths t.taskInfo.taskId.text).statusFile = .ok) :
    CheckSaved files t (queryResult env t files) := by
  have hok := h.storable (by simp [htype])
  unfold queryResult
  dsimp only
  split
  · exact checkSaved_kept h rfl rfl rfl rfl rfl
  split
  · exact checkSaved_kept h rfl rfl rfl rfl rfl
  split
  · exact checkSaved_kept h rfl rfl rfl rfl rfl
  · rename_i outbuf _
    set u : ListGvmTask :=
      { t with resultInfo := (fetchResults env t).val.2, chkType := .chkTask } with hu
    have huok : StorableStatus u :=
      ⟨hok.taskId, hok.startTime, hok.stopTime, hok.status, hok.progress, hok.curReportId,
        hok.lastReportId⟩
    set files' := (writeTaskResult env { t with resultInfo := (fetchResults env t).val.2 } outbuf
      files).2 with hfiles'
    obtain ⟨hresultTask, hresultStatus⟩ := writeTaskResult_frame env
      { t with resultInfo := (fetchResults env t).val.2 } outbuf files
    have hsaved : CheckSaved files' t ⟨true, u, 0, (writeTaskStatusFile env u files').2, []⟩ :=
      checkSaved_written (t := t) u rfl rfl huok hwrite 0 []
    refine ⟨rfl, rfl, hsaved.taskFile.trans hresultTask, fun id hid =>
      (hsaved.others id hid).trans (hresultStatus id), ?_⟩
    exact hsaved.status.task_congr rfl rfl rfl rfl

end Checks

/-! ### Creating and deleting -/

/-- A UUID has no slash. -/
theorem slash_not_mem_uuid {id : Text} (h : id ∈ uuidRegPattern.lang) : '/' ∉ id := by
  have hover : uuidRegPattern.Over (· ≠ '/') := over_uuidRegPattern (fun c hc => by
    rintro rfl
    exact absurd hc (by decide)) (by decide)
  exact fun hmem => hover.all_mem h _ hmem rfl

/-- The status files of other tasks are not in the directory of a task. -/
theorem not_taskDir_prefix_statusFile {id id' : Text} (hid' : '/' ∉ id')
    (hne : id' ≠ id) : ¬ taskDir id ++ "/".toList <+: (gvmPaths id').statusFile := by
  rintro ⟨rest, hrest⟩
  simp only [taskDir, gvmPaths, List.append_assoc] at hrest
  rw [List.append_cancel_left_eq, List.append_cancel_left_eq, List.append_cancel_left_eq] at hrest
  have heq : id' ++ '/' :: "gvm_status_file".toList = id ++ '/' :: rest := hrest.symm
  have hname : '/' ∉ "gvm_status_file".toList := by decide
  exact hne ((List.append_cons_inj_of_notMem hid' hname).mp heq).1

theorem statusFile_deleteDir {env : Env} {files : Files} {id id' : Text} (hid' : '/' ∉ id')
    (hne : id' ≠ id) :
    env.deleteDir (gvmPaths id).taskDir files (gvmPaths id').statusFile =
      files (gvmPaths id').statusFile := by
  unfold Env.deleteDir
  rw [if_neg]
  exact fun h => not_taskDir_prefix_statusFile hid' hne h.1

/-- A new task was linked and the task file was written. -/
theorem createTaskRelationFiles_success {env : Env} {w w' : World} {p : Ptr}
    (h : createTaskRelationFiles env w p = (true, w')) :
    w'.data.createque.items =
        insertLast (fun q => cmpGvmCreateTime (w.task q) (w.task p)) p w.data.createque.items ∧
      (∀ id, w'.files (gvmPaths id).statusFile = w.files (gvmPaths id).statusFile) ∧
      w'.files gvmTaskFile ≠ none := by
  unfold createTaskRelationFiles at h
  simp only [prepareGvmPaths_eq] at h
  split at h
  swap
  · simp at h
  split at h
  · simp at h
  rename_i added hadd
  obtain ⟨_, _, hfiles, _⟩ := World.addGvmTask_frame hadd
  obtain ⟨hwrite, hstatus⟩ := writeTaskFile_cases env added
  split at h
  swap
  · simp at h
  rename_i files heq
  obtain rfl := (Prod.mk.inj h).2
  simp only [heq, hfiles] at hwrite hstatus
  have hrun : (({ added with files := files } : World).addGvmRunTask p).files = files ∧
      (({ added with files := files } : World).addGvmRunTask p).data.createque =
        added.data.createque := by
    unfold World.addGvmRunTask
    split <;> exact ⟨rfl, rfl⟩
  rw [hrun.1, hrun.2]
  refine ⟨?_, hstatus, ?_⟩
  · obtain ⟨s, _, rfl⟩ := Option.map_eq_some_iff.mp hadd
    rfl
  · rcases hwrite with ⟨_, hfile⟩ | ⟨hcode, _⟩
    · have hnone : (writeTaskFile env added).1 ≠ -1 := by simp [heq]
      intro hfree
      rw [hfree] at hfile
      exact hnone (by simp [writeTaskFile, hfile])
    · exact absurd rfl hcode

/-- Without success only the directory of the new task changes. -/
theorem createTaskRelationFiles_failed {env : Env} {w w' : World} {p : Ptr}
    (h : createTaskRelationFiles env w p = (false, w')) {id : Text} (hslash' : '/' ∉ id)
    (hne : id ≠ (w.task p).taskInfo.taskId.text) :
    w'.files (gvmPaths id).statusFile = w.files (gvmPaths id).statusFile := by
  unfold createTaskRelationFiles at h
  simp only [prepareGvmPaths_eq] at h
  split at h
  swap
  · obtain rfl := (Prod.mk.inj h).2
    rfl
  split at h
  · obtain rfl := (Prod.mk.inj h).2
    exact statusFile_deleteDir hslash' hne
  rename_i added hadd
  obtain ⟨_, _, hfiles, _⟩ := World.addGvmTask_frame hadd
  have hstatus := (writeTaskFile_cases env added).2
  split at h
  · simp at h
  rename_i files _ heq
  obtain rfl := (Prod.mk.inj h).2
  simp only [heq, hfiles] at hstatus
  exact (statusFile_deleteDir hslash' hne).trans (hstatus id)

end OpenvasTool
