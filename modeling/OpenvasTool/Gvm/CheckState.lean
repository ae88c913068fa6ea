import OpenvasTool.Gvm.Consistency
import OpenvasTool.Gvm.Files
import OpenvasTool.Records

/-!
# The check state of a task

A task waits for a new report, polls its current report, or collects the results
of that report. Check type, status and report identifier agree in every state
that the daemon can reach, also when it starts again from the status files that
an earlier session left.
-/

namespace OpenvasTool

open Posix Support

/-! ### The invariant -/

/-- Check type, status and current report of a task agree. -/
structure CheckOk (t : ListGvmTask) : Prop where
  report : t.chkType = .chkReport → t.reportInfo.curReportId.text ≠ [] ∧
    (t.reportInfo.status = .ready ∨ t.reportInfo.status = .waiting ∨
      t.reportInfo.status = .running)
  result : t.chkType = .chkResult → t.reportInfo.curReportId.text ≠ [] ∧
    (t.reportInfo.status = .done ∨ t.reportInfo.status = .stop ∨
      t.reportInfo.status = .interrupt)
  idle : t.chkType = .chkTask ∨ t.chkType = .chkDeleted →
    t.reportInfo.status ≠ .waiting ∧ t.reportInfo.status ≠ .running

theorem chkTaskRunning_iff {t : ListGvmTask} : t.chkTaskRunning = true ↔
    t.reportInfo.status = .waiting ∨ t.reportInfo.status = .running := by
  simp [ListGvmTask.chkTaskRunning]

theorem chkTaskDone_iff {t : ListGvmTask} : t.chkTaskDone = true ↔
    t.reportInfo.status = .done ∨ t.reportInfo.status = .stop ∨
      t.reportInfo.status = .interrupt := by
  simp [ListGvmTask.chkTaskDone, or_assoc]

/-- A task is busy exactly when it does not wait for a new report. -/
theorem CheckOk.chkTaskBusy_iff {t : ListGvmTask} (h : CheckOk t) :
    t.chkTaskBusy = true ↔ t.chkType ≠ .chkTask := by
  simp only [ListGvmTask.chkTaskBusy, Bool.or_eq_true, chkTaskRunning_iff, bne_iff_ne]
  constructor
  · rintro (hrun | hne)
    · intro htask
      have hidle := h.idle (Or.inl htask)
      exact hrun.elim hidle.1 hidle.2
    · exact hne
  · exact Or.inr

theorem NewTask.checkOk {t : ListGvmTask} (h : NewTask t) : CheckOk t := by
  refine ⟨fun htype => ?_, fun htype => ?_, fun _ => ?_⟩
  · simp [h.chkType] at htype
  · simp [h.chkType] at htype
  · simp [h.reportInfo]

/-- The invariant only looks at the check type, the status and the current report. -/
theorem CheckOk.congr {t u : ListGvmTask} (h : CheckOk t) (htype : u.chkType = t.chkType)
    (hstatus : u.reportInfo.status = t.reportInfo.status)
    (hid : u.reportInfo.curReportId = t.reportInfo.curReportId) : CheckOk u := by
  constructor
  · rw [htype, hstatus, hid]
    exact h.report
  · rw [htype, hstatus, hid]
    exact h.result
  · rw [htype, hstatus]
    exact h.idle

theorem CheckOk.adoptReport {t : ListGvmTask} {info : GvmReportInfo} {id : CStr maxUuidSize}
    (hid : id.text ≠ []) : CheckOk (adoptReport t info id) :=
  ⟨fun _ => ⟨hid, Or.inl rfl⟩, fun h => by simp [OpenvasTool.adoptReport] at h,
    fun h => by simp [OpenvasTool.adoptReport] at h⟩

theorem CheckOk.polled {t : ListGvmTask} {info : GvmReportInfo} (htype : t.chkType = .chkReport)
    (hid : t.reportInfo.curReportId.text ≠ []) :
    CheckOk (reportChkType (polledTask t info)).1 := by
  have hid' : (polledTask t info).reportInfo.curReportId.text ≠ [] := hid
  have htype' : (polledTask t info).chkType = .chkReport := htype
  rcases reportChkType_cases (polledTask t info) with
    ⟨hrun, heq⟩ | ⟨hdone, heq⟩ | ⟨hrun, _, heq⟩
  · rw [heq]
    refine ⟨fun _ => ⟨hid', Or.inr (chkTaskRunning_iff.mp hrun)⟩, ?_, ?_⟩
    · simp [htype']
    · simp [htype']
  · rw [heq]
    exact ⟨by simp [ListGvmTask.setTaskChkType], fun _ => ⟨hid', chkTaskDone_iff.mp hdone⟩,
      by simp [ListGvmTask.setTaskChkType]⟩
  · rw [heq]
    have hnot : ¬ ((polledTask t info).reportInfo.status = .waiting ∨
        (polledTask t info).reportInfo.status = .running) := by
      rw [← chkTaskRunning_iff, hrun]
      simp
    exact ⟨by simp [ListGvmTask.setTaskChkType], by simp [ListGvmTask.setTaskChkType],
      fun _ => not_or.mp hnot⟩

/-- One step on a task keeps its check state consistent. -/
theorem CheckOk.taskStep {env : Env} {due deleting : Prop} {files files' : Files} {t t' : ListGvmTask}
    (h : CheckOk t) (hstep : TaskStep env due deleting files files' t t') : CheckOk t' := by
  cases hstep with
  | rescheduled time => exact h.congr rfl rfl rfl
  | marked a b _ hbusy =>
    have htype : t.chkType = .chkTask := by
      by_contra hne
      rw [h.chkTaskBusy_iff.mpr hne] at hbusy
      simp at hbusy
    exact ⟨by simp [ListGvmTask.setTaskChkType], by simp [ListGvmTask.setTaskChkType],
      fun _ => h.idle (Or.inl htype)⟩
  | queriedTask _ htype _ =>
    rcases queryTask_cases env t files with heq | ⟨info, _, hid, _, heq⟩
    · rw [heq]
      exact h.congr rfl rfl rfl
    · rw [heq]
      exact (CheckOk.adoptReport hid).congr rfl rfl rfl
  | queriedReport _ htype _ =>
    rcases queryReport_cases env t files with heq | ⟨info, _, _, heq⟩
    · rw [heq]
      exact h.congr rfl rfl rfl
    · rw [heq]
      exact (CheckOk.polled htype (h.report htype).1).congr rfl rfl rfl
  | queriedResult _ htype _ =>
    rcases queryResult_cases env t files with heq | ⟨_, _, _, heq⟩
    · rw [heq]
      exact h.congr rfl rfl rfl
    · rw [heq]
      refine ⟨?_, ?_, fun _ => ?_⟩
      · simp [ListGvmTask.setTaskNextChkTime]
      · simp [ListGvmTask.setTaskNextChkTime]
      · obtain ⟨_, hstatus⟩ := h.result htype
        constructor <;> intro hs <;> have hs' : t.reportInfo.status = _ := hs <;>
          simp [hs'] at hstatus

/-! ### The status file of a task -/

/-- The first fields of the status file stay on their lines. -/
structure StatusClean (t : ListGvmTask) : Prop where
  taskId : '\n' ∉ t.taskInfo.taskId.text
  startTime : '\n' ∉ t.reportInfo.startTime.text
  stopTime : '\n' ∉ t.reportInfo.stopTime.text

/-- The fields of the status file in front of the report identifiers. -/
def statusHead (t : ListGvmTask) : List (Text × Text) := (statusFields t).take 6

theorem StatusClean.statusHead {t : ListGvmTask} (h : StatusClean t) :
    ∀ f ∈ statusHead t, CleanField f := by
  refine cleanField_of_keys ?_ ?_
  · show ∀ key ∈ ["task_id".toList, "start_time".toList, "stop_time".toList, "status".toList,
      "chk_type".toList, "progress".toList], _
    decide
  · have hval := newline_not_mem_decimal
    simp only [OpenvasTool.statusHead, statusFields, List.take_succ_cons, List.take_zero,
      List.map_cons, List.map_nil, List.forall_mem_cons]
    exact ⟨h.taskId, h.startTime, h.stopTime, hval _, hval _, hval _, by simp⟩

theorem nulFree_statusFields (t : ListGvmTask) : '\x00' ∉ renderRecord (statusFields t) := by
  have hval := nul_not_mem_decimal
  refine nulFree_renderRecord ?_ ?_
  · show ∀ key ∈ ["task_id".toList, "start_time".toList, "stop_time".toList, "status".toList,
      "chk_type".toList, "progress".toList, "report_id".toList, "last_report_id".toList,
      "results".toList], _
    decide
  · simp only [statusFields, List.map_cons, List.map_nil, List.forall_mem_cons]
    exact ⟨t.taskInfo.taskId.nulFree, t.reportInfo.startTime.nulFree,
      t.reportInfo.stopTime.nulFree, hval _, hval _, hval _, t.reportInfo.curReportId.nulFree,
      t.reportInfo.lastReportId.nulFree, by simp, by simp⟩

/-- The body of a status record begins with its first fields that stay on their lines, also when a
later field holds a mark. -/
theorem nextRecord_statusFields {t : ListGvmTask} {k : ℕ} {body tail : Text}
    (hclean : ∀ f ∈ (statusFields t).take k, CleanField f)
    (hhead : (keyLines ((statusFields t).drop k) ++ taskInfoEndMark).head? ≠ some '=')
    (hrec : nextRecord (renderRecord (statusFields t)) = some (body, tail)) :
    ∃ x, body = keyLines ((statusFields t).take k) ++ x := by
  have hsplit : renderRecord (statusFields t) = taskInfoBegMark ++
      (keyLines ((statusFields t).take k) ++
        (keyLines ((statusFields t).drop k) ++ taskInfoEndMark)) := by
    rw [← List.append_assoc (keyLines _), ← keyLines_append, List.take_append_drop]
    simp only [renderRecord, List.append_assoc]
  rw [hsplit] at hrec
  exact nextRecord_prefix hclean hhead hrec

theorem GvmTaskStatus.toInt_of_ofInt {n : ℤ} {s : GvmTaskStatus} (h : ofInt n = some s) :
    s.toInt = n := by simpa using List.find?_some h

theorem GvmTaskStatus.toInt_injective : Function.Injective GvmTaskStatus.toInt := by
  intro a b h
  cases a <;> cases b <;> first | rfl | exact absurd h (by decide)

theorem GvmTaskChkType.toInt_of_ofInt {n : ℤ} {c : GvmTaskChkType} (h : ofInt n = some c) :
    c.toInt = n := by simpa using List.find?_some h

theorem GvmTaskChkType.toInt_injective : Function.Injective GvmTaskChkType.toInt := by
  intro a b h
  cases a <;> cases b <;> first | rfl | exact absurd h (by decide)

/-- One digit is read back by the pattern of small numbers. -/
theorem decimal_mem_customDigitNumPattern {n : ℕ} (h : n < 10) :
    decimal n ∈ customDigitNumPattern.lang := by
  rw [← Regex.accepts_iff]
  interval_cases n <;> decide

theorem over_customDigitNumPattern {p : Char → Prop} (h : ∀ c : Char, c.isDigit = true → p c) :
    customDigitNumPattern.Over p := h

/-- The status and the check type in a status file are those of the task that was written. -/
theorem getPatternKeyInt_statusHead {t : ListGvmTask} (h : StatusClean t) (x : Text) :
    getPatternKeyInt (keyLines (statusHead t) ++ x) "status".toList customDigitNumPattern =
        some t.reportInfo.status.toInt ∧
      getPatternKeyInt (keyLines (statusHead t) ++ x) "chk_type".toList customDigitNumPattern =
        some t.chkType.toInt := by
  have hquote : customDigitNumPattern.Over (· ≠ '\x22') := over_customDigitNumPattern fun c hc => by
    rintro rfl
    simp at hc
  have hstatus : ∃ n : ℕ, n < 10 ∧ t.reportInfo.status.toInt = n := by
    cases t.reportInfo.status
    exacts [⟨0, by decide, rfl⟩, ⟨1, by decide, rfl⟩, ⟨2, by decide, rfl⟩, ⟨3, by decide, rfl⟩,
      ⟨4, by decide, rfl⟩, ⟨5, by decide, rfl⟩, ⟨6, by decide, rfl⟩, ⟨7, by decide, rfl⟩]
  have htype : ∃ n : ℕ, n < 10 ∧ t.chkType.toInt = n := by
    cases t.chkType
    exacts [⟨0, by decide, rfl⟩, ⟨1, by decide, rfl⟩, ⟨2, by decide, rfl⟩, ⟨3, by decide, rfl⟩]
  obtain ⟨n, hn, hstatus⟩ := hstatus
  obtain ⟨m, hm, htype⟩ := htype
  rw [hstatus, htype]
  refine ⟨getPatternKeyInt_keyLines h.statusHead (by decide) ?_ hquote
      (decimal_mem_customDigitNumPattern hn) (by omega) x,
    getPatternKeyInt_keyLines h.statusHead (by decide) ?_ hquote
      (decimal_mem_customDigitNumPattern hm) (by omega) x⟩
  · rw [← hstatus]
    rfl
  · rw [← htype]
    rfl

/-- What the daemon reads back from a status file that it wrote. -/
structure StatusReadBack (t t0 t1 : ListGvmTask) : Prop where
  taskInfo : t1.taskInfo = t0.taskInfo
  resultInfo : t1.resultInfo = t0.resultInfo
  chkType : t1.chkType = t.chkType
  status : t1.reportInfo.status = t.reportInfo.status
  curReportId : t1.reportInfo.curReportId.text ∈ uuidRegPattern.lang
  sameReport : t.reportInfo.curReportId.text ∈ uuidRegPattern.lang →
    t1.reportInfo.curReportId = t.reportInfo.curReportId
  startTime : '\n' ∉ t1.reportInfo.startTime.text
  stopTime : '\n' ∉ t1.reportInfo.stopTime.text

theorem parseTaskStatusRecord_statusFields {t t0 t1 : ListGvmTask} (hclean : StatusClean t)
    (h : parseTaskStatusRecord (renderRecord (statusFields t)) t0 = some t1) :
    t1 = t0 ∨ StatusReadBack t t0 t1 := by
  have hinfo := parseTaskStatusRecord_taskInfo h
  unfold parseTaskStatusRecord at h
  rw [cstring_of_nulFree (nulFree_statusFields t)] at h
  split at h
  · exact Or.inl (Option.some.inj h).symm
  rename_i body tail hrec
  -- an identifier as the current report is read back as well
  have hreport : t.reportInfo.curReportId.text ∈ uuidRegPattern.lang →
      getPatternKey body "report_id".toList uuidRegPattern maxUuidSize =
        some t.reportInfo.curReportId := by
    intro hid
    have hkey : "report_id".toList ≠ [] ∧ '=' ∉ "report_id".toList ∧ '\n' ∉ "report_id".toList := by
      decide
    have hfield : CleanField ("report_id".toList, t.reportInfo.curReportId.text) :=
      ⟨hkey.1, hkey.2.1, hkey.2.2, (mem_uuidRegPattern hid).2⟩
    have htake : (statusFields t).take 7 =
        statusHead t ++ [("report_id".toList, t.reportInfo.curReportId.text)] := rfl
    have hclean7 : ∀ f ∈ (statusFields t).take 7, CleanField f := by
      intro f hf
      rw [htake, List.mem_append, List.mem_singleton] at hf
      rcases hf with hf | rfl
      · exact hclean.statusHead f hf
      · exact hfield
    have hhead : (keyLines ((statusFields t).drop 7) ++ taskInfoEndMark).head? ≠ some '=' := by
      show some 'l' ≠ some '='
      decide
    obtain ⟨x, rfl⟩ := nextRecord_statusFields hclean7 hhead hrec
    rw [getPatternKey_keyLines hclean7 (by decide) rfl
      (over_uuidRegPattern (fun c hc => by rintro rfl; exact absurd hc (by decide)) (by decide))
      hid x]
    exact CStr.ofText_text _
  have hhead : (keyLines ((statusFields t).drop 6) ++ taskInfoEndMark).head? ≠ some '=' := by
    show some 'r' ≠ some '='
    decide
  obtain ⟨x, hbody⟩ := nextRecord_statusFields hclean.statusHead hhead hrec
  change body = keyLines (statusHead t) ++ x at hbody
  subst hbody
  obtain ⟨hstatus, htype⟩ := getPatternKeyInt_statusHead hclean x
  have htime : ∀ {key : Text} {time : CStr maxTimestampSize},
      getPatternKey (keyLines (statusHead t) ++ x) key (customMatchOrNull customTimeStampPattern)
        maxTimestampSize = some time → '\n' ∉ time.text := by
    intro key time hkey
    rcases Regex.mem_lang_opt.mp (Regex.lang_regNewline_subset (getPatternKey_mem hkey)) with
      hnil | hmem
    · simp [hnil]
    · exact newline_not_mem_timeStamp hmem
  unfold parseStatusFields at h
  obtain ⟨_, _, h⟩ := Option.bind_eq_some_iff.mp h
  split at h
  · simp at h
  obtain ⟨startTime, hstart, h⟩ := Option.bind_eq_some_iff.mp h
  obtain ⟨stopTime, hstop, h⟩ := Option.bind_eq_some_iff.mp h
  obtain ⟨n, hn, h⟩ := Option.bind_eq_some_iff.mp h
  obtain ⟨status, hs, h⟩ := Option.bind_eq_some_iff.mp h
  obtain ⟨m, hm, h⟩ := Option.bind_eq_some_iff.mp h
  obtain ⟨chkType, hc, h⟩ := Option.bind_eq_some_iff.mp h
  obtain ⟨_, _, h⟩ := Option.bind_eq_some_iff.mp h
  split at h
  · simp at h
  obtain ⟨curReportId, hcur, h⟩ := Option.bind_eq_some_iff.mp h
  obtain ⟨_, _, h⟩ := Option.bind_eq_some_iff.mp h
  obtain rfl := Option.some.inj h
  refine Or.inr ⟨hinfo, rfl, ?_, ?_, Regex.lang_regNewline_subset (getPatternKey_mem hcur),
    ?_, htime hstart, htime hstop⟩
  · rw [htype, Option.some.injEq] at hm
    exact GvmTaskChkType.toInt_injective ((GvmTaskChkType.toInt_of_ofInt hc).trans hm.symm)
  · rw [hstatus, Option.some.injEq] at hn
    exact GvmTaskStatus.toInt_injective ((GvmTaskStatus.toInt_of_ofInt hs).trans hn.symm)
  · intro hid
    exact Option.some.inj (hcur.symm.trans (hreport hid))

/-! ### Clean times -/

theorem newline_not_mem_utc2LocalTime {env : Env} {utc : Text} {time : CStr maxTimestampSize}
    (h : env.utc2LocalTime utc = some time) : '\n' ∉ time.text := by
  unfold Env.utc2LocalTime at h
  split at h
  · obtain rfl := Option.some.inj h
    simp
  · obtain ⟨tm, _, htm⟩ := Option.bind_eq_some_iff.mp h
    rw [CStr.ofText_eq_some.mp htm]
    exact tm.timeStamp_newline_free

theorem parseTask_times {doc : Option Xml.Node} {info : GvmReportInfo}
    (h : parseTask doc = some info) : info.startTime = .empty ∧ info.stopTime = .empty := by
  unfold parseTask at h
  obtain ⟨root, _, h⟩ := Option.bind_eq_some_iff.mp h
  split at h
  · split at h
    · simp at h
    · obtain ⟨_, _, h⟩ := Option.bind_eq_some_iff.mp h
      obtain ⟨_, _, h⟩ := Option.bind_eq_some_iff.mp h
      dsimp only at h
      split at h
      · simp at h
      · split at h
        · simp at h
        · obtain rfl := Option.some.inj h
          exact ⟨rfl, rfl⟩
  · simp at h

theorem convRunStatusName_ne_error (val : Text) : convRunStatusName val ≠ .error := by
  unfold convRunStatusName
  split_ifs <;> simp

/-- The times, the status and the progress that a report can have. -/
theorem parseReport_spec {env : Env} {doc : Option Xml.Node} {info : GvmReportInfo}
    (h : parseReport env doc = some info) :
    (∃ utc, env.utc2LocalTime utc = some info.startTime) ∧
      (∃ utc, env.utc2LocalTime utc = some info.stopTime) ∧ info.status ≠ .error ∧
      0 ≤ info.progress ∧ info.progress ≤ 100 := by
  unfold parseReport at h
  obtain ⟨root, _, h⟩ := Option.bind_eq_some_iff.mp h
  split at h
  · obtain ⟨_, _, h⟩ := Option.bind_eq_some_iff.mp h
    dsimp only at h
    split at h
    · simp at h
    · obtain ⟨_, _, h⟩ := Option.bind_eq_some_iff.mp h
      obtain ⟨_, hstart, h⟩ := Option.bind_eq_some_iff.mp h
      obtain ⟨_, _, h⟩ := Option.bind_eq_some_iff.mp h
      obtain ⟨_, hstop, h⟩ := Option.bind_eq_some_iff.mp h
      obtain ⟨_, _, h⟩ := Option.bind_eq_some_iff.mp h
      obtain ⟨_, _, h⟩ := Option.bind_eq_some_iff.mp h
      obtain rfl := Option.some.inj h
      refine ⟨⟨_, hstart⟩, ⟨_, hstop⟩, convRunStatusName_ne_error _, ?_⟩
      dsimp only
      split <;> omega
  · simp at h

theorem NewTask.statusClean {t : ListGvmTask} (h : NewTask t) : StatusClean t := by
  refine ⟨(mem_uuidRegPattern (chkUuid_iff.mp h.taskId)).2, ?_, ?_⟩ <;> simp [h.reportInfo]

theorem StatusClean.congr {t u : ListGvmTask} (h : StatusClean t)
    (hid : u.taskInfo.taskId = t.taskInfo.taskId)
    (hstart : u.reportInfo.startTime = t.reportInfo.startTime)
    (hstop : u.reportInfo.stopTime = t.reportInfo.stopTime) : StatusClean u :=
  ⟨hid ▸ h.taskId, hstart ▸ h.startTime, hstop ▸ h.stopTime⟩

theorem StatusClean.taskStep {env : Env} {due deleting : Prop} {files files' : Files} {t t' : ListGvmTask}
    (h : StatusClean t) (hstep : TaskStep env due deleting files files' t t') : StatusClean t' := by
  cases hstep with
  | rescheduled time => exact h.congr rfl rfl rfl
  | marked a b _ _ => exact h.congr rfl rfl rfl
  | queriedTask _ _ _ =>
    rcases queryTask_cases env t files with heq | ⟨info, hanswer, _, _, heq⟩
    · rw [heq]
      exact h.congr rfl rfl rfl
    · rw [heq]
      obtain ⟨rsp, _, hparse⟩ := Option.bind_eq_some_iff.mp hanswer
      obtain ⟨hstart, hstop⟩ := parseTask_times hparse
      refine ⟨h.taskId, ?_, ?_⟩
      · show '\n' ∉ info.startTime.text
        simp [hstart]
      · show '\n' ∉ info.stopTime.text
        simp [hstop]
  | queriedReport _ _ _ =>
    rcases queryReport_cases env t files with heq | ⟨info, hanswer, _, heq⟩
    · rw [heq]
      exact h.congr rfl rfl rfl
    · obtain ⟨rsp, _, hparse⟩ := Option.bind_eq_some_iff.mp hanswer
      obtain ⟨⟨_, hstart⟩, ⟨_, hstop⟩, _⟩ := parseReport_spec hparse
      have hpolled : StatusClean (polledTask t info) :=
        ⟨h.taskId, newline_not_mem_utc2LocalTime hstart, newline_not_mem_utc2LocalTime hstop⟩
      rw [heq]
      rcases reportChkType_cases (polledTask t info) with ⟨_, htype⟩ | ⟨_, htype⟩ | ⟨_, _, htype⟩
      all_goals
        rw [htype]
        exact hpolled.congr rfl rfl rfl
  | queriedResult _ _ _ =>
    rcases queryResult_cases env t files with heq | ⟨_, _, _, heq⟩
    all_goals
      rw [heq]
      exact h.congr rfl rfl rfl

/-! ### Reachable states -/

/-- The states that the daemon can reach. It starts from a task file with distinct names, where
every status file is absent or was left by a reachable daemon, and makes any steps. -/
inductive Reachable : World → Prop
  | start {env : BootEnv} {files : Files} {w : World} (source : Text → World) :
      DistinctNames files →
      (∀ id, files (gvmPaths id).statusFile ≠ none → Reachable (source id)) →
      (∀ id, files (gvmPaths id).statusFile ≠ none →
        files (gvmPaths id).statusFile = (source id).files (gvmPaths id).statusFile) →
      initDaemon env files = some w → Reachable w
  | step {w : World} (env : Env) (e : Event) : Reachable w → Reachable (daemonStep env w e).world

/-- The invariant of the check states, in memory and in the status files. -/
structure CheckInvariant (w : World) : Prop where
  consistent : w.StoreConsistent
  checkOk : ∀ p t, w.stored p = some t → CheckOk t
  clean : ∀ p t, w.stored p = some t → StatusClean t
  disk : ∀ id content, w.files (gvmPaths id).statusFile = some content →
    ∃ t, CheckOk t ∧ StatusClean t ∧ content = renderRecord (statusFields t)

/-- A property of tasks that every step keeps and every new task has holds of all stored tasks
after a step. -/
theorem StoreStep.forall_stored {env : Env} {e : Event} {w w' : World} {P : ListGvmTask → Prop}
    (hstep : StoreStep env e w w') (hold : ∀ p t, w.stored p = some t → P t)
    (htask : ∀ p t t', w.stored p = some t → P t →
      TaskStep env (e = .runGvmChecks ∧ dueTask env w = some p) (∃ input, e = .deleteTask input)
        w.files w'.files t t' → P t')
    (hnew : ∀ t, NewTask t → P t) :
    ∀ p t, w'.stored p = some t → P t := by
  intro p u hp
  cases hstep with
  | same hstored => exact hold p u (hstored ▸ hp)
  | @task q t t' hq hts hstored =>
    rw [hstored] at hp
    by_cases hpq : p = q
    · subst hpq
      rw [Function.update_self] at hp
      obtain rfl := Option.some.inj hp
      exact htask p t _ hq (hold p t hq) hts
    · rw [Function.update_of_ne hpq] at hp
      exact hold p u hp
  | @removed q t _ _ hstored =>
    rw [hstored] at hp
    by_cases hpq : p = q
    · subst hpq
      simp at hp
    · rw [Function.update_of_ne hpq] at hp
      exact hold p u hp
  | @added t _ hadded hstored =>
    rw [hstored] at hp
    by_cases hpq : p = w.next
    · subst hpq
      rw [Function.update_self] at hp
      obtain rfl := Option.some.inj hp
      exact hnew _ hadded
    · rw [Function.update_of_ne hpq] at hp
      exact hold p u hp

theorem CheckInvariant.daemonStep {w : World} (h : CheckInvariant w) (env : Env) (e : Event) :
    CheckInvariant (daemonStep env w e).world := by
  obtain ⟨hcons, _, hstep⟩ := h.consistent.daemonStep_spec env e
  have hok := hstep.forall_stored h.checkOk (fun _ _ _ _ hP hts => hP.taskStep hts)
    fun _ hnew => hnew.checkOk
  have hclean := hstep.forall_stored h.clean (fun _ _ _ _ hP hts => hP.taskStep hts)
    fun _ hnew => hnew.statusClean
  refine ⟨hcons, hok, hclean, fun id content hc => ?_⟩
  rcases (h.consistent.fileStep_daemonStep env e).statusFile id content hc with
    hold | ⟨p, _, t, _, hp, _, hcontent, _⟩
  · exact h.disk id content hold
  · exact ⟨t, hok p t hp, hclean p t hp, hcontent⟩

/-- A task that the start of the daemon loaded. -/
theorem Loaded.checkOk {files : Files} {t : ListGvmTask}
    (hdisk : ∀ id content, files (gvmPaths id).statusFile = some content →
      ∃ u, CheckOk u ∧ StatusClean u ∧ content = renderRecord (statusFields u))
    (h : Loaded files t) : CheckOk t ∧ StatusClean t := by
  obtain ⟨body, t0, t1, time, hparse, hread, rfl⟩ := h
  have hnew := (parseTaskFields_spec hparse).2
  have hsame : CheckOk { t0 with chkTime := time } ∧ StatusClean { t0 with chkTime := time } :=
    ⟨hnew.checkOk.congr rfl rfl rfl, hnew.statusClean.congr rfl rfl rfl⟩
  rcases hread with rfl | ⟨content, hcontent, hstatus⟩
  · exact hsame
  obtain ⟨u, hu, hclean, rfl⟩ := hdisk _ _ hcontent
  rcases parseTaskStatusRecord_statusFields hclean hstatus with rfl | hback
  · exact hsame
  · have hid := (mem_uuidRegPattern hback.curReportId).1
    refine ⟨⟨?_, ?_, ?_⟩, ⟨?_, hback.startTime, hback.stopTime⟩⟩
    · show t1.chkType = _ → _
      rw [hback.chkType]
      exact fun htype => ⟨hid, hback.status ▸ (hu.report htype).2⟩
    · show t1.chkType = _ → _
      rw [hback.chkType]
      exact fun htype => ⟨hid, hback.status ▸ (hu.result htype).2⟩
    · show t1.chkType = _ ∨ t1.chkType = _ → _
      rw [hback.chkType]
      exact fun htype => hback.status ▸ hu.idle htype
    · show '\n' ∉ t1.taskInfo.taskId.text
      rw [hback.taskInfo]
      exact hnew.statusClean.taskId

theorem Reachable.checkInvariant {w : World} (h : Reachable w) : CheckInvariant w := by
  induction h with
  | @start env files w source hnames _ hsame hstart ih =>
    obtain ⟨hcons, hfiles, hloaded⟩ := initDaemon_spec hnames hstart
    have hdisk : ∀ id content, files (gvmPaths id).statusFile = some content →
        ∃ u, CheckOk u ∧ StatusClean u ∧ content = renderRecord (statusFields u) := by
      intro id content hc
      have hne : files (gvmPaths id).statusFile ≠ none := by simp [hc]
      exact (ih id hne).disk id content (hsame id hne ▸ hc)
    exact ⟨hcons, fun p t hp => ((hloaded p t hp).checkOk hdisk).1,
      fun p t hp => ((hloaded p t hp).checkOk hdisk).2, hfiles ▸ hdisk⟩
  | step env e _ ih => exact ih.daemonStep env e

/-- Status, check type and report identifiers did not change. -/
structure SameCheckState (t t' : ListGvmTask) : Prop where
  status : t'.reportInfo.status = t.reportInfo.status
  chkType : t'.chkType = t.chkType
  curReportId : t'.reportInfo.curReportId = t.reportInfo.curReportId
  lastReportId : t'.reportInfo.lastReportId = t.reportInfo.lastReportId

/-- A task that is marked as deleted is only rescheduled. -/
theorem TaskStep.sameCheckState {env : Env} {due deleting : Prop} {files files' : Files}
    {t t' : ListGvmTask} (h : TaskStep env due deleting files files' t t') (htype : t.chkType = .chkDeleted) : SameCheckState t t' := by
  cases h with
  | rescheduled time => exact ⟨rfl, rfl, rfl, rfl⟩
  | marked a b _ hbusy => simp [ListGvmTask.chkTaskBusy, htype] at hbusy
  | queriedTask _ hquery _ => simp [htype] at hquery
  | queriedReport _ hquery _ => simp [htype] at hquery
  | queriedResult _ hquery _ => simp [htype] at hquery

/-- A task that is marked as deleted keeps its check state until it is removed. -/
theorem World.StoreConsistent.deleted_step {w : World} (h : w.StoreConsistent) {p : Ptr}
    {t : ListGvmTask} (hp : w.stored p = some t) (htype : t.chkType = .chkDeleted) (env : Env)
    (e : Event) : (daemonStep env w e).world.stored p = none ∨
      ∃ t', (daemonStep env w e).world.stored p = some t' ∧ SameCheckState t t' := by
  have hsame : SameCheckState t t := ⟨rfl, rfl, rfl, rfl⟩
  cases (h.daemonStep_spec env e).2.2 with
  | same hstored => exact Or.inr ⟨t, hstored ▸ hp, hsame⟩
  | @task q u u' hq hts hstored =>
    by_cases hpq : p = q
    · subst hpq
      obtain rfl := Option.some.inj (hp.symm.trans hq)
      exact Or.inr ⟨u', by rw [hstored, Function.update_self], hts.sameCheckState htype⟩
    · exact Or.inr ⟨t, by rw [hstored, Function.update_of_ne hpq, hp], hsame⟩
  | @removed q u hq _ hstored =>
    by_cases hpq : p = q
    · subst hpq
      exact Or.inl (by rw [hstored, Function.update_self])
    · exact Or.inr ⟨t, by rw [hstored, Function.update_of_ne hpq, hp], hsame⟩
  | @added u _ _ hstored =>
    have hpq : p ≠ w.next := (h.lt_next (stored_eq_some.mp hp).1).ne
    exact Or.inr ⟨t, by rw [hstored, Function.update_of_ne hpq, hp], hsame⟩

/-- **The check states.** In every state that the daemon can reach the check type of each stored
task agrees with its status and its current report, the task is busy exactly when it does not wait
for a new report, and a task that is marked as deleted keeps its check state until it is removed. -/
theorem reachable_checkOk {w : World} (h : Reachable w) {p : Ptr} {t : ListGvmTask}
    (hp : w.stored p = some t) :
    CheckOk t ∧ (t.chkTaskBusy = true ↔ t.chkType ≠ .chkTask) ∧
      (t.chkType = .chkDeleted → ∀ env e, (daemonStep env w e).world.stored p = none ∨
        ∃ t', (daemonStep env w e).world.stored p = some t' ∧ SameCheckState t t') := by
  have hinv := h.checkInvariant
  have hok := hinv.checkOk p t hp
  exact ⟨hok, hok.chkTaskBusy_iff, fun htype => hinv.consistent.deleted_step hp htype⟩

theorem reachable_emptyWorld : Reachable (emptyWorld fun _ => none) :=
  .start (fun _ => emptyWorld fun _ => none) distinctNames_noFiles (fun _ h => absurd rfl h)
    (fun _ h => absurd rfl h) initDaemon_noFiles

theorem Reachable.next {w : World} (h : Reachable w) (i : Event × Env) :
    Reachable (daemonNext w i) := h.step i.2 i.1

theorem Reachable.run {w : World} (h : Reachable w) (is : List (Event × Env)) :
    Reachable (daemonRun w is) :=
  invariant_run (fun _ i hw => hw.next i) h is

theorem sampleSteps_nameset :
    (daemonRun (emptyWorld fun _ => none) sampleSteps).data.nameset.data = [0] := by
  decide +kernel

/-- A task whose report is polled, and one whose files could not be deleted. -/
theorem reachable_checkOk_sampleMixedSteps :
    let w := daemonRun (emptyWorld fun _ => none) sampleMixedSteps
    ((w.task 0).chkType = .chkReport ∧ CheckOk (w.task 0) ∧ (w.task 0).chkTaskBusy = true) ∧
      (w.task 1).chkType = .chkDeleted ∧ CheckOk (w.task 1) ∧
        ∀ env e, (daemonStep env w e).world.stored 1 = none ∨
          ∃ t', (daemonStep env w e).world.stored 1 = some t' ∧ SameCheckState (w.task 1) t' := by
  have hfacts : let w := daemonRun (emptyWorld fun _ => none) sampleMixedSteps
      w.data.nameset.data = [1, 0] ∧ (w.task 0).chkType = .chkReport ∧
        (w.task 1).chkType = .chkDeleted := by decide +kernel
  obtain ⟨hset, hzero, hone⟩ := hfacts
  have h := reachable_emptyWorld.run sampleMixedSteps
  have hstored := fun p hp => h.checkInvariant.consistent.toIndexed.stored_task (p := p) hp
  obtain ⟨hcheck, hbusy, -⟩ := reachable_checkOk h (hstored 0 (by rw [hset]; simp))
  obtain ⟨hcheck', -, hframe⟩ := reachable_checkOk h (hstored 1 (by rw [hset]; simp))
  exact ⟨⟨hzero, hcheck, hbusy.mpr (by simp [hzero])⟩, hone, hcheck', hframe hone⟩

end OpenvasTool
