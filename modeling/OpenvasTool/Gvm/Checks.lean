import OpenvasTool.Gvm.Boot

/-!
# What the checks do to a task

Each of the three background checks leaves its task alone or changes it in one
way. These cases are all that later invariants need to know about the checks.
-/

namespace OpenvasTool

open Posix Support

/-- The task after it adopted the report `id`. -/
def adoptReport (t : ListGvmTask) (info : GvmReportInfo) (id : CStr maxUuidSize) : ListGvmTask :=
  { t with
    reportInfo :=
      { reportCnt := info.reportCnt
        finishCnt := info.finishCnt
        progress := 0
        status := .ready
        startTime := info.startTime
        stopTime := info.stopTime
        curReportId := id
        lastReportId := t.reportInfo.curReportId }
    chkType := .chkReport }

/-- The report that `updateTaskReport` considers. -/
def offeredReport (info : GvmReportInfo) : CStr maxUuidSize :=
  if info.curReportId.text ≠ [] then info.curReportId else info.lastReportId

theorem updateTaskReport_cases (t : ListGvmTask) (info : GvmReportInfo) :
    updateTaskReport t info = (false, t) ∨
      ((offeredReport info).text ≠ [] ∧ t.reportInfo.curReportId ≠ offeredReport info ∧
        updateTaskReport t info = (true, { t with reportInfo := { t.reportInfo with
          lastReportId := t.reportInfo.curReportId
          curReportId := offeredReport info } })) := by
  unfold updateTaskReport offeredReport
  dsimp only
  split
  · rename_i hcur
    split
    · rename_i hne
      exact Or.inr ⟨hcur, hne, rfl⟩
    · exact Or.inl rfl
  · split
    · rename_i hlast
      split
      · rename_i hne
        exact Or.inr ⟨hlast, hne, rfl⟩
      · exact Or.inl rfl
    · exact Or.inl rfl

/-- The answer to the query of a task. -/
def taskAnswer (env : Env) (t : ListGvmTask) : Option GvmReportInfo :=
  (gvmQueryTask env t.taskInfo.taskId.text).val.bind fun rsp => parseTask rsp.doc

/-- The answer to the query of the current report. -/
def reportAnswer (env : Env) (t : ListGvmTask) : Option GvmReportInfo :=
  (gvmQueryReport env t.reportInfo.curReportId.text).val.bind fun rsp => parseReport env rsp.doc

/-- A check for a new report keeps the task, or adopts the report that gvmd offers. -/
theorem queryTask_cases (env : Env) (t : ListGvmTask) (files : Files) :
    (queryTask env t files).task = t ∨
      ∃ info, taskAnswer env t = some info ∧ (offeredReport info).text ≠ [] ∧
        t.reportInfo.curReportId ≠ offeredReport info ∧
        (queryTask env t files).task = adoptReport t info (offeredReport info) := by
  unfold queryTask
  dsimp only
  split
  · exact Or.inl rfl
  · rename_i info hinfo
    rcases updateTaskReport_cases t info with heq | ⟨hid, hne, heq⟩
    · rw [heq]
      exact Or.inl rfl
    · rw [heq]
      exact Or.inr ⟨info, hinfo, hid, hne, rfl⟩

/-- The task after a poll that found another status or progress. -/
def polledTask (t : ListGvmTask) (info : GvmReportInfo) : ListGvmTask :=
  (((t.setTaskStartTime info.startTime).setTaskStopTime info.stopTime).setTaskStatus
    info.status).setTaskProgress info.progress

/-- A poll keeps the task, or takes over what changed. -/
theorem queryReport_cases (env : Env) (t : ListGvmTask) (files : Files) :
    (queryReport env t files).task = t ∨
      ∃ info, reportAnswer env t = some info ∧
        (info.status ≠ t.reportInfo.status ∨ info.progress ≠ t.reportInfo.progress) ∧
        (queryReport env t files).task = (reportChkType (polledTask t info)).1 := by
  unfold queryReport
  dsimp only
  split
  · exact Or.inl rfl
  · rename_i info hinfo
    split
    · rename_i hne
      exact Or.inr ⟨info, hinfo, hne, rfl⟩
    · exact Or.inl rfl

/-- A check for results goes on collecting, or ends with the text of all results. -/
theorem queryResult_cases (env : Env) (t : ListGvmTask) (files : Files) :
    (queryResult env t files).task = { t with resultInfo := (fetchResults env t).val.2 } ∨
      ∃ outbuf, (fetchResults env t).val.2.done = true ∧
        printNvts maxCacheSize (fetchResults env t).val.2.results = some outbuf ∧
        (queryResult env t files).task = { t with resultInfo := {}, chkType := .chkTask } := by
  unfold queryResult
  dsimp only
  split
  · exact Or.inl rfl
  · split
    · exact Or.inl rfl
    · rename_i hdone
      split
      · exact Or.inl rfl
      · rename_i outbuf hout
        exact Or.inr ⟨outbuf, by simpa using hdone, hout, rfl⟩

/-- The three outcomes of a poll, by the new status. -/
theorem reportChkType_cases (t : ListGvmTask) :
    (t.chkTaskRunning = true ∧ (reportChkType t).1 = t) ∨
      (t.chkTaskDone = true ∧ (reportChkType t).1 = t.setTaskChkType .chkResult) ∨
      (t.chkTaskRunning = false ∧ t.chkTaskDone = false ∧
        (reportChkType t).1 = t.setTaskChkType .chkTask) := by
  unfold reportChkType
  by_cases hrun : t.chkTaskRunning = true
  · exact Or.inl ⟨hrun, by rw [if_pos hrun]⟩
  · by_cases hdone : t.chkTaskDone = true
    · exact Or.inr (Or.inl ⟨hdone, by rw [if_neg hrun, if_pos hdone]⟩)
    · exact Or.inr (Or.inr ⟨by simpa using hrun, by simpa using hdone,
        by rw [if_neg hrun, if_neg hdone]⟩)

end OpenvasTool
