import OpenvasTool.Php.Tasks
import OpenvasTool.RestartRuns

/-!
# The web page while the daemon lives

The page reads the files that the daemon leaves, at any time, also while the
daemon is down. gvmd names its objects by lower-case UUIDs, which are the only
ones that the patterns of the page match. Then the page has one entry for every
task that the daemon holds in memory, with the state that it holds of it.
-/

namespace OpenvasTool

open Posix Posix.Regex Support

/-! ### What the page shows of a task in memory -/

/-- The state of a task that has a report; a task without one is shown as ready. -/
def liveRecord (t : ListGvmTask) : Option ListGvmTask :=
  if t.reportInfo.curReportId.text = [] then none else some t

theorem pageStatusFile_eq (uuid : Text) :
    pageStatusFile defGvmPrivDataDir uuid = (gvmPaths uuid).statusFile := by
  simp only [pageStatusFile, gvmPaths, List.append_assoc]
  rfl

/-- The identifiers that the page has to match. -/
structure LowerIds (t : ListGvmTask) : Prop where
  taskId : t.taskInfo.taskId.text ∈ lowerUuid.lang
  curReportId : t.reportInfo.curReportId.text = [] ∨ t.reportInfo.curReportId.text ∈ lowerUuid.lang
  lastReportId : t.reportInfo.lastReportId.text = [] ∨
    t.reportInfo.lastReportId.text ∈ lowerUuid.lang

theorem LowerIds.congr {t u : ListGvmTask} (h : LowerIds t)
    (hid : u.taskInfo.taskId = t.taskInfo.taskId)
    (hcur : u.reportInfo.curReportId = t.reportInfo.curReportId)
    (hlast : u.reportInfo.lastReportId = t.reportInfo.lastReportId) : LowerIds u :=
  ⟨hid ▸ h.taskId, hcur ▸ h.curReportId, hlast ▸ h.lastReportId⟩

theorem StorableTask.pageRecord {t : ListGvmTask} (h : StorableTask t) (hids : LowerIds t) :
    PageRecord t :=
  ⟨h.cleanField, hids.taskId⟩

/-- A time stamp or the empty text stays on its line. -/
theorem newline_not_mem_timeStampOrNull {text : Text}
    (h : text ∈ (customMatchOrNull customTimeStampPattern).lang) : '\n' ∉ text := by
  rcases mem_lang_opt.mp h with rfl | h
  · simp
  · exact newline_not_mem_timeStamp h

/-- A saved status file is one that the page can read. -/
theorem StatusSaved.statusFile {files : Files} {t : ListGvmTask} (h : StatusSaved files t)
    (hids : LowerIds t) : StatusFile files defGvmPrivDataDir t (liveRecord t) := by
  rcases h with ⟨hnone, hfresh⟩ | ⟨hsome, hok⟩
  · have hreport : t.restored.reportInfo = {} := congrArg ListGvmTask.reportInfo hfresh
    have hcur : t.restored.reportInfo.curReportId = .empty :=
      congrArg GvmReportInfo.curReportId hreport
    have hrecord : liveRecord t = none := if_pos (congrArg CStr.text hcur)
    rw [hrecord]
    exact ⟨by simp, by rw [pageStatusFile_eq, hnone]; rfl⟩
  · have hrecord : liveRecord t = some t := by
      refine if_neg fun hnil => ?_
      have hno : uuidRegPattern.accepts [] = false := by decide +kernel
      have hcur := hok.curReportId
      rw [hnil, ← accepts_iff, hno] at hcur
      cases hcur
    rw [hrecord]
    refine ⟨?_, by rw [pageStatusFile_eq, hsome]; rfl⟩
    intro u hu
    obtain rfl := Option.some.inj hu
    exact ⟨rfl, ⟨newline_not_mem_lowerUuid hids.taskId, newline_not_mem_timeStampOrNull hok.startTime,
      newline_not_mem_timeStampOrNull hok.stopTime⟩, hok.status, hok.progress, hids.curReportId,
      hids.lastReportId⟩

/-- The identifiers of the stored tasks are in lower case. -/
def World.LowerIds (w : World) : Prop := ∀ p t, w.stored p = some t → OpenvasTool.LowerIds t

/-- gvmd answers with lower-case UUIDs. -/
structure LowerAnswers (env : Env) (w : World) (e : Event) : Prop where
  reportIds : ∀ p t info, w.stored p = some t → taskAnswer env t = some info →
    (offeredReport info).text = [] ∨ (offeredReport info).text ∈ lowerUuid.lang
  newId : ∀ input t, e = .createTask input → getCreateTaskParam input = some t →
    (createTaskObjects env t).val.1 = true →
    (createTaskObjects env t).val.2.taskInfo.taskId.text ∈ lowerUuid.lang

/-- One step of the daemon on one task. -/
theorem LowerIds.taskStep {env : Env} {due deleting : Prop} {files files' : Files}
    {t t' : ListGvmTask} (h : LowerIds t)
    (hreport : ∀ info, taskAnswer env t = some info →
      (offeredReport info).text = [] ∨ (offeredReport info).text ∈ lowerUuid.lang)
    (hstep : TaskStep env due deleting files files' t t') : LowerIds t' := by
  cases hstep with
  | rescheduled => exact h.congr rfl rfl rfl
  | marked => exact h.congr rfl rfl rfl
  | queriedTask =>
    rcases queryTask_cases env t files with heq | ⟨info, hanswer, -, -, heq⟩
    · rw [heq]
      exact h.congr rfl rfl rfl
    · rw [heq]
      exact ⟨h.taskId, hreport info hanswer, h.curReportId⟩
  | queriedReport =>
    rcases queryReport_cases env t files with heq | ⟨info, -, -, heq⟩
    · rw [heq]
      exact h.congr rfl rfl rfl
    · rw [heq]
      rcases reportChkType_cases (polledTask t info) with ⟨-, hc⟩ | ⟨-, hc⟩ | ⟨-, -, hc⟩
      all_goals
        rw [hc]
        exact h.congr rfl rfl rfl
  | queriedResult =>
    rcases queryResult_cases env t files with heq | ⟨-, -, -, heq⟩
    all_goals
      rw [heq]
      exact h.congr rfl rfl rfl

namespace World.LowerIds

variable {env : Env} {w w' : World} (h : w.LowerIds) {p : Ptr}

include h

theorem updated {t : ListGvmTask} (hstored : w'.stored = Function.update w.stored p (some t))
    (ht : OpenvasTool.LowerIds t) : w'.LowerIds := by
  intro q u hq
  rw [hstored] at hq
  by_cases hqp : q = p
  · rw [hqp, Function.update_self] at hq
    exact Option.some.inj hq ▸ ht
  · rw [Function.update_of_ne hqp] at hq
    exact h q u hq

theorem removed (hstored : w'.stored = Function.update w.stored p none) : w'.LowerIds := by
  intro q u hq
  rw [hstored] at hq
  by_cases hqp : q = p
  · simp [hqp] at hq
  · rw [Function.update_of_ne hqp] at hq
    exact h q u hq

theorem recheck (hc : w.StoreConsistent) (hp : w.stored p = some (w.task p)) :
    (w.recheck env p).LowerIds :=
  h.updated (hc.recheck hp env).2 ((h p _ hp).congr rfl rfl rfl)

/-- **Every step of the daemon** keeps the identifiers in lower case. -/
theorem step {e : Event} (hc : w.StoreConsistent) (hanswers : LowerAnswers env w e) :
    (daemonNext w (e, env)).LowerIds := by
  rw [daemonNext]
  cases e with
  | startTask input =>
    rcases hc.daemonStartTask_cases env input with ⟨hw, -⟩ | ⟨-, p, -, -, hp, -, -, -, -, hw⟩
    · rw [daemonStep, hw]
      exact h
    · rw [daemonStep, hw]
      exact h.recheck hc hp
  | stopTask input =>
    rcases hc.daemonStopTask_cases env input with hw | ⟨p, hp, -, hw⟩
    · rw [daemonStep, hw]
      exact h
    · rw [daemonStep, hw]
      exact h.recheck hc hp
  | deleteTask input =>
    rcases hc.daemonDeleteTask_cases env input with
      ⟨hw, -⟩ | ⟨-, p, -, hp, -, -, -, -, -, hstored | hstored⟩
    · rw [daemonStep, hw]
      exact h
    · exact h.removed hstored
    · obtain ⟨a, b, hinfo⟩ := deleteTaskObjects_val env (w.task p)
      refine h.updated hstored ((h p _ hp).congr ?_ rfl rfl)
      rw [ListGvmTask.setTaskChkType, hinfo]
  | createTask input =>
    rcases hc.daemonCreateTask_cases env input with
      ⟨-, hstored, -, -⟩ | ⟨t0, t, hparam, hnew, -, -, rfl, hok, -, -, -, hstored⟩
    · intro q u hq
      exact h q u (hstored ▸ hq)
    · have hids : OpenvasTool.LowerIds (stampTask env (createTaskObjects env t0).val.2) :=
        ⟨hanswers.newId input t0 rfl hparam hok, Or.inl (by rw [hnew.reportInfo]; rfl),
          Or.inl (by rw [hnew.reportInfo]; rfl)⟩
      exact h.updated hstored hids
  | runGvmChecks =>
    rw [daemonStep, OpenvasTool.runGvmChecks]
    cases hdue : dueTask env w with
    | none => exact h
    | some p =>
      have hp := hc.stored_dueTask hdue
      obtain ⟨-, -, ⟨t', htask, hstored⟩ | ⟨-, hstored⟩⟩ :=
        hc.checkTask_cases hp env trivial False
      · exact h.updated hstored
          ((h p _ hp).taskStep (fun info => hanswers.reportIds p _ info hp) htask)
      · exact h.removed hstored
  | validateGvmConn =>
    obtain ⟨hstored, -⟩ := validateGvmConn_frame env w
    intro q u hq
    exact h q u (hstored ▸ hq)

/-- A start gives the tasks the identifiers that they had. -/
theorem restoredBy (hrestored : w.RestoredBy w') : w'.LowerIds := by
  intro q u hq
  obtain ⟨p, t, hp, ht⟩ := hrestored.known q u hq
  exact (h p t hp).congr ht.taskId (by rw [ht.reportInfo]; rfl) (by rw [ht.reportInfo]; rfl)

end World.LowerIds

/-! ### The whole life -/

/-- gvmd answers with lower-case UUIDs in every step. -/
def LifeLower : Life → LifeEvent → Prop
  | .up w, .step e env => LowerAnswers env w e
  | _, _ => True

/-- The files have the tasks that the daemon holds in memory, or held before it was stopped, and
the page can read their identifiers. -/
def Life.Readable : Life → Prop
  | .up w => w.Saved ∧ w.LowerIds
  | .down files => ∃ w : World, (w.Saved ∧ w.LowerIds) ∧ w.files = files

theorem Life.Readable.step {s : Life} (h : s.Readable) {event : LifeEvent}
    (hpromised : LifePromised s event) (hlower : LifeLower s event) :
    (lifeStep s event).Readable := by
  cases s with
  | up w =>
    cases event with
    | step e env => exact ⟨h.1.step hpromised, h.2.step h.1.consistent hlower⟩
    | stop => exact ⟨w, h, rfl⟩
    | start env => exact h
  | down files =>
    cases event with
    | step e env => exact h
    | stop => exact h
    | start env =>
      obtain ⟨w, ⟨hw, hids⟩, rfl⟩ := h
      rw [lifeStep]
      split
      · rename_i w' hstart
        obtain ⟨w'', hstart', hsaved, hrestored⟩ := hw.initDaemon env.succeeds_succeed
          (length_le_of_initDaemon hstart)
        obtain rfl := Option.some.inj ((initDaemon_succeed hstart).symm.trans hstart')
        exact ⟨hsaved, hids.restoredBy hrestored⟩
      · exact ⟨w, ⟨hw, hids⟩, rfl⟩

end OpenvasTool
