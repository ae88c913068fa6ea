import OpenvasTool.Gvm.CheckState

/-!
# The results of a report

A task that waits for a new report and has a current one got the results of that
report into its result file, in every run in which the result file can be
written once the results are complete and no poll falls back from a changed
report to the status `New`. The statement covers any number of sessions of the
daemon.
-/

namespace OpenvasTool

open Posix Support

/-! ### Collected results -/

/-- Results that were read from answers to queries for this report of this task, and for no other
one. -/
inductive Collected (id r : CStr maxUuidSize) : GvmResultInfo → Prop
  | start : Collected id r {}
  | fetch {t : ListGvmTask} (env : Env) : t.taskInfo.taskId = id →
      t.reportInfo.curReportId = r → Collected id r t.resultInfo →
      Collected id r (fetchResults env t).val.2

/-- The current report of a task is known to gvmd once it was polled, and the results that the task
holds belong to it. -/
structure ReportOk (t : ListGvmTask) : Prop where
  known : t.chkType ≠ .chkReport → t.reportInfo.curReportId.text ≠ [] →
    t.reportInfo.curReportId.text ∈ uuidRegPattern.lang
  collected : Collected t.taskInfo.taskId t.reportInfo.curReportId t.resultInfo
  fresh : t.chkType ≠ .chkResult → t.resultInfo = {}

theorem NewTask.reportOk {t : ListGvmTask} (h : NewTask t) : ReportOk t := by
  refine ⟨fun _ hne => ?_, ?_, fun _ => h.resultInfo⟩
  · simp [h.reportInfo] at hne
  · rw [h.resultInfo]
    exact .start

/-- Only a report with the form of an identifier is polled. -/
theorem curReportId_of_reportAnswer {env : Env} {t : ListGvmTask} {info : GvmReportInfo}
    (h : reportAnswer env t = some info) : t.reportInfo.curReportId.text ∈ uuidRegPattern.lang := by
  obtain ⟨rsp, hrsp, _⟩ := Option.bind_eq_some_iff.mp h
  unfold gvmQueryReport uuidCommand at hrsp
  split at hrsp
  · rename_i hid
    exact chkUuid_iff.mp hid
  · simp at hrsp

theorem ReportOk.taskStep {env : Env} {due deleting : Prop} {files files' : Files} {t t' : ListGvmTask}
    (h : ReportOk t) (hstep : TaskStep env due deleting files files' t t') : ReportOk t' := by
  cases hstep with
  | rescheduled time => exact ⟨h.known, h.collected, h.fresh⟩
  | marked a b _ hbusy =>
    have htype : t.chkType = .chkTask := by
      simp only [ListGvmTask.chkTaskBusy, Bool.or_eq_false_iff, bne_eq_false_iff_eq] at hbusy
      exact hbusy.2
    exact ⟨fun _ => h.known (by simp [htype]), h.collected, fun _ => h.fresh (by simp [htype])⟩
  | queriedTask _ htype _ =>
    have hfresh := h.fresh (by simp [htype])
    rcases queryTask_cases env t files with heq | ⟨info, _, _, _, heq⟩
    · rw [heq]
      exact ⟨h.known, h.collected, h.fresh⟩
    · rw [heq]
      refine ⟨fun hne => absurd rfl hne, ?_, fun _ => hfresh⟩
      show Collected t.taskInfo.taskId (offeredReport info) t.resultInfo
      rw [hfresh]
      exact .start
  | queriedReport _ htype _ =>
    have hfresh := h.fresh (by simp [htype])
    rcases queryReport_cases env t files with heq | ⟨info, hanswer, _, heq⟩
    · rw [heq]
      exact ⟨h.known, h.collected, h.fresh⟩
    · have hid := curReportId_of_reportAnswer hanswer
      rw [heq]
      rcases reportChkType_cases (polledTask t info) with ⟨_, hc⟩ | ⟨_, hc⟩ | ⟨_, _, hc⟩
      all_goals
        rw [hc]
        exact ⟨fun _ _ => hid, h.collected, fun _ => hfresh⟩
  | queriedResult _ htype _ =>
    rcases queryResult_cases env t files with heq | ⟨_, _, _, heq⟩
    · rw [heq]
      exact ⟨h.known, .fetch env rfl rfl h.collected, fun hne => absurd htype hne⟩
    · rw [heq]
      exact ⟨fun _ => h.known (by simp [htype]), .start, fun _ => rfl⟩

/-- When the results of a report are complete and the result file can then be written, it holds
them. -/
theorem queryResult_written {env : Env} {t : ListGvmTask} {files : Files}
    (htype : t.chkType = .chkResult) (hdone : (queryResult env t files).task.chkType = .chkTask)
    (hkept : (fetchResults env t).val.2.done = true →
      env.write (gvmPaths t.taskInfo.taskId.text).resultFile = .ok) :
    ∃ outbuf, (fetchResults env t).val.2.done = true ∧
      printNvts maxCacheSize (fetchResults env t).val.2.results = some outbuf ∧
      env.write (gvmPaths t.taskInfo.taskId.text).resultFile = .ok ∧
      (queryResult env t files).files (gvmPaths t.taskInfo.taskId.text).resultFile =
        some outbuf := by
  unfold queryResult at hdone ⊢
  dsimp only at hdone ⊢
  split at hdone
  · simp [htype] at hdone
  split at hdone
  · simp [htype] at hdone
  rename_i hok hnot
  rw [if_neg hok, if_neg hnot]
  split at hdone
  · simp [htype] at hdone
  rename_i outbuf hout
  have hall : (fetchResults env t).val.2.done = true := by simpa using hnot
  have hwrite := hkept hall
  refine ⟨outbuf, hall, hout, hwrite, ?_⟩
  unfold writeTaskStatusFile writeTaskResult
  simp only [prepareGvmPaths_eq]
  rw [Env.writeFileSafe_other _ _ _ _ _ (statusFile_ne_resultFile _ _).symm
    (resultFile_ne_statusFileTmp _ _)]
  unfold Env.writeFileSafe
  rw [hwrite]
  simp [Files.set]

/-! ### The condition -/

theorem convRunStatusName_ne (val : Text) :
    convRunStatusName val ≠ .create ∧ convRunStatusName val ≠ .error := by
  unfold convRunStatusName
  split <;> [simp; split] <;> [simp; split] <;> [simp; split] <;> [simp; split] <;> simp

theorem parseReport_status {env : Env} {doc : Option Xml.Node} {info : GvmReportInfo}
    (h : parseReport env doc = some info) : info.status ≠ .create ∧ info.status ≠ .error := by
  unfold parseReport at h
  obtain ⟨root, _, h⟩ := Option.bind_eq_some_iff.mp h
  split at h
  · obtain ⟨_, _, h⟩ := Option.bind_eq_some_iff.mp h
    dsimp only at h
    split at h
    · simp at h
    · iterate 6 obtain ⟨_, _, h⟩ := Option.bind_eq_some_iff.mp h
      obtain rfl := Option.some.inj h
      exact convRunStatusName_ne _
  · simp at h

/-- The condition on a step: a check of results that are complete can write the result file, and a
poll does not find a changed report with the status `New`. -/
def KeepsReports (w : World) (i : Event × Env) : Prop :=
  ∀ p t, i.1 = .runGvmChecks → dueTask i.2 w = some p → w.stored p = some t →
    (t.chkType = .chkResult → (fetchResults i.2 t).val.2.done = true →
      i.2.write (gvmPaths t.taskInfo.taskId.text).resultFile = .ok) ∧
    (t.chkType = .chkReport → ∀ info, reportAnswer i.2 t = some info → info.status = .ready →
      info.status = t.reportInfo.status ∧ info.progress = t.reportInfo.progress)

/-- Under the condition a poll never gives a report up. -/
theorem chkType_queryReport {env : Env} {t : ListGvmTask} {files : Files}
    (htype : t.chkType = .chkReport)
    (hnew : ∀ info, reportAnswer env t = some info → info.status = .ready →
      info.status = t.reportInfo.status ∧ info.progress = t.reportInfo.progress) :
    (queryReport env t files).task.chkType ≠ .chkTask := by
  rcases queryReport_cases env t files with heq | ⟨info, hanswer, hchanged, heq⟩
  · rw [heq, htype]
    simp
  · rw [heq]
    rcases reportChkType_cases (polledTask t info) with ⟨_, hc⟩ | ⟨_, hc⟩ | ⟨hrun, hdone, _⟩
    · have htype' : (polledTask t info).chkType = .chkReport := htype
      rw [hc, htype']
      simp
    · rw [hc]
      simp [ListGvmTask.setTaskChkType]
    · obtain ⟨rsp, _, hparse⟩ := Option.bind_eq_some_iff.mp hanswer
      have hne := parseReport_status hparse
      have hstatus : (polledTask t info).reportInfo.status = info.status := rfl
      have hready : info.status = .ready := by
        rw [Bool.eq_false_iff, ne_eq, chkTaskRunning_iff, hstatus] at hrun
        rw [Bool.eq_false_iff, ne_eq, chkTaskDone_iff, hstatus] at hdone
        cases hs : info.status <;> simp_all
      obtain ⟨h1, h2⟩ := hnew info hanswer hready
      exact absurd hchanged (by simp [h1, h2])

/-! ### Written results -/

/-- The task at `p`, with the identifier `id`, has the current report `r`. -/
def HasCurrent (p : Ptr) (id r : CStr maxUuidSize) (w : World) : Prop :=
  ∃ t, w.stored p = some t ∧ t.taskInfo.taskId = id ∧ t.reportInfo.curReportId = r

/-- The step writes the result file of the task at `p`, and the file then holds the complete
results of the current report `r`. -/
def ResultWritten (p : Ptr) (id r : CStr maxUuidSize) (w : World) (i : Event × Env) : Prop :=
  ∃ t info outbuf, i.1 = .runGvmChecks ∧ dueTask i.2 w = some p ∧ w.stored p = some t ∧
    t.taskInfo.taskId = id ∧ t.reportInfo.curReportId = r ∧ t.chkType = .chkResult ∧
    Collected id r info ∧ info.done = true ∧
    printNvts maxCacheSize info.results = some outbuf ∧
    i.2.write (gvmPaths id.text).resultFile = .ok ∧
    (daemonNext w i).files (gvmPaths id.text).resultFile = some outbuf

/-- Some step of a session writes the results of the report. -/
def WroteIn (w0 : World) (is : List (Event × Env)) (id r : CStr maxUuidSize) : Prop :=
  ∃ pre i post p, is = pre ++ i :: post ∧ ResultWritten p id r (daemonRun w0 pre) i

theorem WroteIn.concat {w0 : World} {is : List (Event × Env)} {id r : CStr maxUuidSize}
    (h : WroteIn w0 is id r) (i : Event × Env) : WroteIn w0 (is ++ [i]) id r := by
  obtain ⟨pre, j, post, p, rfl, hw⟩ := h
  exact ⟨pre, j, post ++ [i], p, by simp, hw⟩

/-- The results of the current report were written: in this session while it was the current report
ever since, or `past` says so and it is the current report since the start of the session. -/
def Reported (past : CStr maxUuidSize → CStr maxUuidSize → Prop) (w0 : World)
    (is : List (Event × Env)) (p : Ptr) (id r : CStr maxUuidSize) : Prop :=
  Since daemonNext (ResultWritten p id r) (HasCurrent p id r) w0 is ∨
    (Throughout daemonNext (HasCurrent p id r) w0 is ∧ past id r)

theorem Reported.concat {past : CStr maxUuidSize → CStr maxUuidSize → Prop} {w0 : World}
    {is : List (Event × Env)} {p : Ptr} {id r : CStr maxUuidSize} {i : Event × Env}
    (h : Reported past w0 is p id r) (hcur : HasCurrent p id r (daemonRun w0 (is ++ [i]))) :
    Reported past w0 (is ++ [i]) p id r :=
  h.imp (·.later hcur) fun hpast => ⟨hpast.1.concat hcur, hpast.2⟩

theorem Reported.written {past : CStr maxUuidSize → CStr maxUuidSize → Prop} {w0 : World}
    {is : List (Event × Env)} {p : Ptr} {id r : CStr maxUuidSize}
    (h : Reported past w0 is p id r) : past id r ∨ WroteIn w0 is id r := by
  rcases h with ⟨pre, i, post, his, hevent, _⟩ | ⟨_, hpast⟩
  · exact Or.inr ⟨pre, i, post, p, his, hevent⟩
  · exact Or.inl hpast

/-! ### One session -/

/-- What holds after a list of steps of a session, where `past` are the results that earlier
sessions wrote. -/
structure SessionInvariant (past : CStr maxUuidSize → CStr maxUuidSize → Prop) (w0 : World)
    (is : List (Event × Env)) : Prop where
  check : CheckInvariant (daemonRun w0 is)
  report : ∀ p t, (daemonRun w0 is).stored p = some t → ReportOk t
  memory : ∀ p t, (daemonRun w0 is).stored p = some t → t.chkType = .chkTask →
    t.reportInfo.curReportId.text ≠ [] →
    Reported past w0 is p t.taskInfo.taskId t.reportInfo.curReportId
  disk : ∀ id content, (daemonRun w0 is).files (gvmPaths id).statusFile = some content →
    ∃ u, CheckOk u ∧ StatusClean u ∧ ReportOk u ∧ u.taskInfo.taskId.text = id ∧
      content = renderRecord (statusFields u) ∧ u.reportInfo.curReportId.text ≠ [] ∧
      (u.chkType = .chkTask → past u.taskInfo.taskId u.reportInfo.curReportId ∨
        WroteIn w0 is u.taskInfo.taskId u.reportInfo.curReportId)

/-- A task whose status file is written has a current report. -/
theorem HasReport.ne_nil {t0 t : ListGvmTask} (h : HasReport t0 t) (h0 : CheckOk t0) :
    t.reportInfo.curReportId.text ≠ [] := by
  rcases h with hne | ⟨htype, heq⟩
  · exact hne
  · rw [heq]
    exact htype.elim (fun hr => (h0.report hr).1) fun hr => (h0.result hr).1

namespace SessionInvariant

variable {past : CStr maxUuidSize → CStr maxUuidSize → Prop} {w0 : World}
  {is : List (Event × Env)} (h : SessionInvariant past w0 is) {i : Event × Env}

include h

/-- The step that a task takes on its way to wait for a new report. -/
theorem reported_taskStep (hkeep : KeepsReports (daemonRun w0 is) i) {p : Ptr}
    {t t' : ListGvmTask} (hp : (daemonRun w0 is).stored p = some t)
    (hp' : (daemonRun w0 (is ++ [i])).stored p = some t')
    (hstep : TaskStep i.2 (i.1 = .runGvmChecks ∧ dueTask i.2 (daemonRun w0 is) = some p)
      (∃ input, i.1 = .deleteTask input) (daemonRun w0 is).files (daemonRun w0 (is ++ [i])).files t t')
    (htype : t'.chkType = .chkTask) (hcur : t'.reportInfo.curReportId.text ≠ []) :
    Reported past w0 (is ++ [i]) p t'.taskInfo.taskId t'.reportInfo.curReportId := by
  have hnow : HasCurrent p t'.taskInfo.taskId t'.reportInfo.curReportId
      (daemonRun w0 (is ++ [i])) := ⟨t', hp', rfl, rfl⟩
  cases hstep with
  | rescheduled time => exact (h.memory p t hp htype hcur).concat hnow
  | marked a b _ _ => simp [ListGvmTask.setTaskChkType] at htype
  | queriedTask _ hquery _ =>
    rcases queryTask_cases i.2 t (daemonRun w0 is).files with heq | ⟨info, _, _, _, heq⟩
    · rw [heq] at hnow hcur ⊢
      exact (h.memory p t hp hquery hcur).concat hnow
    · rw [heq] at htype
      simp [ListGvmTask.setTaskNextChkTime, adoptReport] at htype
  | queriedReport hdue hquery _ =>
    exact absurd htype (chkType_queryReport hquery ((hkeep p t hdue.1 hdue.2 hp).2 hquery))
  | queriedResult hdue hquery hfiles =>
    have hkept := (hkeep p t hdue.1 hdue.2 hp).1 hquery
    obtain ⟨outbuf, hdone, hprint, hwrite, hfile⟩ := queryResult_written hquery htype hkept
    rcases queryResult_cases i.2 t (daemonRun w0 is).files with heq | ⟨_, _, _, heq⟩
    · rw [heq] at htype
      simp [ListGvmTask.setTaskNextChkTime, hquery] at htype
    · have hwritten : ResultWritten p t.taskInfo.taskId t.reportInfo.curReportId
          (daemonRun w0 is) i := by
        refine ⟨t, (fetchResults i.2 t).val.2, outbuf, hdue.1, hdue.2, hp, rfl, rfl, hquery,
          .fetch i.2 rfl rfl (h.report p t hp).collected, hdone, hprint, hwrite, ?_⟩
        rw [← hfile, ← hfiles]
        simp [daemonRun]
      rw [heq] at hnow ⊢
      exact Or.inl (.now hwritten hnow)

theorem step (hkeep : KeepsReports (daemonRun w0 is) i) :
    SessionInvariant past w0 (is ++ [i]) := by
  have hrun : daemonRun w0 (is ++ [i]) = (daemonStep i.2 (daemonRun w0 is) i.1).world := by
    simp [daemonRun, daemonNext]
  obtain ⟨_, _, hstep⟩ := h.check.consistent.daemonStep_spec i.2 i.1
  have hcheck := h.check.daemonStep i.2 i.1
  have hreport := hstep.forall_stored h.report (fun _ _ _ _ hP hts => hP.taskStep hts)
    fun _ hnew => hnew.reportOk
  rw [← hrun] at hstep hcheck hreport
  have hmemory : ∀ p t, (daemonRun w0 (is ++ [i])).stored p = some t → t.chkType = .chkTask →
      t.reportInfo.curReportId.text ≠ [] →
      Reported past w0 (is ++ [i]) p t.taskInfo.taskId t.reportInfo.curReportId := by
    intro p t hp htype hcur
    have hkept : (daemonRun w0 is).stored p = some t →
        Reported past w0 (is ++ [i]) p t.taskInfo.taskId t.reportInfo.curReportId :=
      fun hold => (h.memory p t hold htype hcur).concat ⟨t, hp, rfl, rfl⟩
    cases hstep with
    | same hstored => exact hkept (hstored ▸ hp)
    | @task q u u' hq hts hstored =>
      by_cases hpq : p = q
      · subst hpq
        have hp' := hp
        rw [hstored, Function.update_self] at hp'
        obtain rfl := Option.some.inj hp'
        exact h.reported_taskStep hkeep hq hp hts htype hcur
      · exact hkept (by rwa [hstored, Function.update_of_ne hpq] at hp)
    | @removed q u hq _ hstored =>
      by_cases hpq : p = q
      · subst hpq
        simp [hstored] at hp
      · exact hkept (by rwa [hstored, Function.update_of_ne hpq] at hp)
    | @added u _ hnew hstored =>
      by_cases hpq : p = (daemonRun w0 is).next
      · subst hpq
        have hp' := hp
        rw [hstored, Function.update_self] at hp'
        obtain rfl := Option.some.inj hp'
        simp [hnew.reportInfo] at hcur
      · exact hkept (by rwa [hstored, Function.update_of_ne hpq] at hp)
  refine ⟨hcheck, hreport, hmemory, fun id content hc => ?_⟩
  have hfiles := h.check.consistent.fileStep_daemonStep i.2 i.1
  rw [← hrun] at hfiles
  rcases hfiles.statusFile id content hc with hold | ⟨p, t0, t, hp0, hp, hid, hcontent, hhas⟩
  · obtain ⟨u, h1, h2, h3, h4, h5, h6, hwritten⟩ := h.disk id content hold
    exact ⟨u, h1, h2, h3, h4, h5, h6, fun htype => (hwritten htype).imp (fun hpast => hpast) (·.concat i)⟩
  · have hne := hhas.ne_nil (h.check.checkOk p t0 hp0)
    exact ⟨t, hcheck.checkOk p t hp, hcheck.clean p t hp, hreport p t hp, hid, hcontent, hne,
      fun htype => (hmemory p t hp htype hne).written⟩

omit h in
/-- The invariant holds along every session whose steps satisfy the condition. -/
theorem run (h : SessionInvariant past w0 []) {js : List (Event × Env)}
    (hjs : Along daemonNext KeepsReports w0 js) : SessionInvariant past w0 js := by
  induction js using List.reverseRecOn with
  | nil => exact h
  | append_singleton js i ih =>
    obtain ⟨hjs, hi⟩ := along_concat.mp hjs
    exact (ih hjs).step hi

end SessionInvariant

/-! ### All sessions -/

/-- The sessions of a daemon: the current one by its first state and its steps, and the earlier
ones. In the first session there is no status file; later every status file is absent or as the
session before left it. All steps satisfy `P`. -/
inductive Sessions (P : World → Event × Env → Prop) :
    World → List (Event × Env) → List (World × List (Event × Env)) → Prop
  | first {env : BootEnv} {files : Files} {w : World} {is : List (Event × Env)} :
      (∀ id, files (gvmPaths id).statusFile = none) → DistinctNames files →
      initDaemon env files = some w → Along daemonNext P w is → Sessions P w is []
  | restart {env : BootEnv} {files : Files} {w w' : World} {is is' : List (Event × Env)}
      {past : List (World × List (Event × Env))} : Sessions P w is past →
      (∀ id, files (gvmPaths id).statusFile ≠ none →
        files (gvmPaths id).statusFile = (daemonRun w is).files (gvmPaths id).statusFile) →
      DistinctNames files → initDaemon env files = some w' → Along daemonNext P w' is' →
      Sessions P w' is' ((w, is) :: past)

/-- Some session of the past writes the results of the report. -/
def WroteBefore (past : List (World × List (Event × Env))) (id r : CStr maxUuidSize) : Prop :=
  ∃ s ∈ past, WroteIn s.1 s.2 id r

/-- The start of a session from status files whose results were written. -/
theorem sessionInvariant_start {past : CStr maxUuidSize → CStr maxUuidSize → Prop}
    {env : BootEnv} {files : Files} {w : World} (hnames : DistinctNames files)
    (hstart : initDaemon env files = some w)
    (hdisk : ∀ id content, files (gvmPaths id).statusFile = some content →
      ∃ u, CheckOk u ∧ StatusClean u ∧ ReportOk u ∧ u.taskInfo.taskId.text = id ∧
        content = renderRecord (statusFields u) ∧ u.reportInfo.curReportId.text ≠ [] ∧
        (u.chkType = .chkTask → past u.taskInfo.taskId u.reportInfo.curReportId)) :
    SessionInvariant past w [] := by
  obtain ⟨hcons, hfiles, hloaded⟩ := initDaemon_spec hnames hstart
  have hdisk' : ∀ id content, files (gvmPaths id).statusFile = some content →
      ∃ u, CheckOk u ∧ StatusClean u ∧ content = renderRecord (statusFields u) := by
    intro id content hc
    obtain ⟨u, h1, h2, _, _, h5, _⟩ := hdisk id content hc
    exact ⟨u, h1, h2, h5⟩
  have hone : ∀ p t, w.stored p = some t → ReportOk t ∧ (t.chkType = .chkTask →
      t.reportInfo.curReportId.text ≠ [] →
      past t.taskInfo.taskId t.reportInfo.curReportId) := by
    intro p t hp
    obtain ⟨body, t0, t1, time, hparse, hread, rfl⟩ := hloaded p t hp
    have hnew := (parseTaskFields_spec hparse).2
    have hsame : ReportOk { t0 with chkTime := time } ∧ (t0.chkType = .chkTask →
        t0.reportInfo.curReportId.text ≠ [] →
        past t0.taskInfo.taskId t0.reportInfo.curReportId) := by
      refine ⟨⟨hnew.reportOk.known, hnew.reportOk.collected, hnew.reportOk.fresh⟩, ?_⟩
      intro _ hne
      simp [hnew.reportInfo] at hne
    rcases hread with rfl | ⟨content, hcontent, hstatus⟩
    · exact hsame
    obtain ⟨u, _, hclean, hu, hid, rfl, hne, hpast⟩ := hdisk _ _ hcontent
    rcases parseTaskStatusRecord_statusFields hclean hstatus with rfl | hback
    · exact hsame
    have hfresh : t1.resultInfo = {} := hback.resultInfo.trans hnew.resultInfo
    refine ⟨⟨fun _ _ => hback.curReportId, ?_, fun _ => hfresh⟩, fun htype _ => ?_⟩
    · show Collected t1.taskInfo.taskId t1.reportInfo.curReportId t1.resultInfo
      rw [hfresh]
      exact .start
    · have htype' : u.chkType = .chkTask := hback.chkType.symm.trans htype
      have hcur := hback.sameReport (hu.known (by simp [htype']) hne)
      have htaskId : u.taskInfo.taskId = t1.taskInfo.taskId := by
        rw [hback.taskInfo]
        exact CStr.ext hid
      show past t1.taskInfo.taskId t1.reportInfo.curReportId
      rw [hcur, ← htaskId]
      exact hpast htype'
  refine ⟨⟨hcons, fun p t hp => ((hloaded p t hp).checkOk hdisk').1,
      fun p t hp => ((hloaded p t hp).checkOk hdisk').2, fun id content hc => ?_⟩,
    fun p t hp => (hone p t hp).1, fun p t hp htype hne => ?_, fun id content hc => ?_⟩
  · exact hdisk' id content (hfiles ▸ hc)
  · exact Or.inr ⟨throughout_nil ⟨t, hp, rfl, rfl⟩, (hone p t hp).2 htype hne⟩
  · have hc' : files (gvmPaths id).statusFile = some content := hfiles ▸ hc
    obtain ⟨u, h1, h2, h3, h4, h5, h6, hpast⟩ := hdisk id content hc'
    exact ⟨u, h1, h2, h3, h4, h5, h6, fun htype => Or.inl (hpast htype)⟩

theorem Sessions.sessionInvariant {w : World} {is : List (Event × Env)}
    {past : List (World × List (Event × Env))} (h : Sessions KeepsReports w is past) :
    SessionInvariant (WroteBefore past) w is := by
  induction h with
  | first hnone hnames hstart halong =>
    refine (sessionInvariant_start hnames hstart fun id content hc => ?_).run halong
    simp [hnone id] at hc
  | @restart env files w w' is is' past _ hkept hnames hstart halong ih =>
    refine (sessionInvariant_start hnames hstart fun id content hc => ?_).run halong
    have hc' := hkept id (by simp [hc])
    rw [hc] at hc'
    obtain ⟨u, h1, h2, h3, h4, h5, h6, hwritten⟩ := ih.disk id content hc'.symm
    refine ⟨u, h1, h2, h3, h4, h5, h6, fun htype => ?_⟩
    rcases hwritten htype with ⟨s, hs, hwrote⟩ | hwrote
    · exact ⟨s, List.mem_cons_of_mem _ hs, hwrote⟩
    · exact ⟨(w, is), List.mem_cons_self, hwrote⟩

/-- **No report is dropped** while complete results can be written to the result file and no poll
falls back to a changed report with the status `New`: a task that waits for a new report and has a current report
got the results of that report written. Either this happened in this session and the report is the
current one ever since, or the task was loaded with this report and an earlier session did it. -/
theorem reported_of_keepsReports {w0 : World} {is : List (Event × Env)}
    {past : List (World × List (Event × Env))} (h : Sessions KeepsReports w0 is past) {p : Ptr}
    {t : ListGvmTask} (hp : (daemonRun w0 is).stored p = some t) (htype : t.chkType = .chkTask)
    (hcur : t.reportInfo.curReportId.text ≠ []) :
    Reported (WroteBefore past) w0 is p t.taskInfo.taskId t.reportInfo.curReportId :=
  h.sessionInvariant.memory p t hp htype hcur

/-- One background check at a time when every task is due. -/
def sampleCheck (write : Text → WriteOutcome) : Event × Env :=
  (.runGvmChecks, { Env.smooth sampleScan with clk := 2000, write := write })

/-- The scan of the new task is found, polled and collected; the last step writes like this. -/
def sampleScanSteps (write : Text → WriteOutcome) : List (Event × Env) :=
  sampleSteps ++ [sampleCheck fun _ => .ok, sampleCheck fun _ => .ok, sampleCheck write]

theorem sessions_sampleScanSteps {P : World → Event × Env → Prop} {is : List (Event × Env)}
    (h : Along daemonNext P (emptyWorld fun _ => none) is) :
    Sessions P (emptyWorld fun _ => none) is [] :=
  .first (fun _ => rfl) distinctNames_noFiles initDaemon_noFiles h

theorem stored_of_nameset {w : World} (h : Reachable w) (hset : w.data.nameset.data = [0]) :
    w.stored 0 = some (w.task 0) :=
  h.checkInvariant.consistent.toIndexed.stored_task (by rw [hset]; simp)

/-- In the sample scan every poll finds a report that is done. -/
theorem reportAnswer_sampleCheck {write : Text → WriteOutcome} {t : ListGvmTask}
    {info : GvmReportInfo} (h : reportAnswer (sampleCheck write).2 t = some info) :
    info.status = .done := by
  have hdone : (parseReport (sampleCheck write).2 (some (sampleReportDoc "Done"))).map
      GvmReportInfo.status = some .done := rfl
  obtain ⟨rsp, hrsp, hparse⟩ := Option.bind_eq_some_iff.mp h
  unfold gvmQueryReport uuidCommand at hrsp
  split at hrsp
  · simp only [procGvmTask, sampleCheck, Env.smooth, sampleScan, Option.filter_eq_some_iff,
      Option.some.injEq] at hrsp
    obtain ⟨rfl, _⟩ := hrsp
    change parseReport _ (some (sampleReportDoc "Done")) = some info at hparse
    rw [hparse] at hdone
    exact Option.some.inj hdone
  · simp at hrsp

theorem keepsReports_sampleCheck (w : World) : KeepsReports w (sampleCheck fun _ => .ok) := by
  intro p t _ _ _
  refine ⟨fun _ _ => rfl, fun _ info hanswer hready => ?_⟩
  rw [reportAnswer_sampleCheck hanswer] at hready
  simp at hready

/-- A request meets the condition. -/
theorem keepsReports_of_ne {w : World} {i : Event × Env} (h : i.1 ≠ .runGvmChecks) :
    KeepsReports w i := fun _ _ hrun _ _ => absurd hrun h

/-- The sample scan ends with a task that waits for a new report and whose results were written. -/
theorem reported_of_keepsReports_sampleScanSteps :
    let w := daemonRun (emptyWorld fun _ => none) (sampleScanSteps fun _ => .ok)
    Reported (WroteBefore []) (emptyWorld fun _ => none) (sampleScanSteps fun _ => .ok) 0
      (w.task 0).taskInfo.taskId (w.task 0).reportInfo.curReportId := by
  have hend : let w := daemonRun (emptyWorld fun _ => none) (sampleScanSteps fun _ => .ok)
      w.data.nameset.data = [0] ∧ (w.task 0).chkType = .chkTask ∧
        (w.task 0).reportInfo.curReportId.text ≠ [] := by decide +kernel
  have hkeep : Along daemonNext KeepsReports (emptyWorld fun _ => none)
      (sampleScanSteps fun _ => .ok) :=
    ⟨keepsReports_of_ne (by simp), keepsReports_of_ne (by simp), keepsReports_sampleCheck _,
      keepsReports_sampleCheck _, keepsReports_sampleCheck _, trivial⟩
  exact reported_of_keepsReports (sessions_sampleScanSteps hkeep) (stored_of_nameset
    (reachable_emptyWorld.run _) hend.1) hend.2.1 hend.2.2

/-- Only the result file of the sample task cannot be written. -/
def sampleWriteErr (path : Text) : WriteOutcome :=
  if path = (gvmPaths (sampleUuid 'b')).resultFile then .openErr else .ok

/-- The result file cannot be written, yet the task goes back to waiting for a new report. -/
theorem not_reported_sampleWriteErr :
    ¬ ∀ (w0 : World) (is : List (Event × Env)) (past : List (World × List (Event × Env))),
      Sessions (fun _ _ => True) w0 is past → ∀ p t, (daemonRun w0 is).stored p = some t →
        t.chkType = .chkTask → t.reportInfo.curReportId.text ≠ [] →
        Reported (WroteBefore past) w0 is p t.taskInfo.taskId t.reportInfo.curReportId := by
  intro hclaim
  have hend : let w := daemonRun (emptyWorld fun _ => none) (sampleScanSteps sampleWriteErr)
      w.data.nameset.data = [0] ∧ (w.task 0).chkType = .chkTask ∧
        (w.task 0).reportInfo.curReportId.text ≠ [] ∧
        (w.task 0).taskInfo.taskId.text = sampleUuid 'b' := by decide +kernel
  obtain ⟨hset, htask, hcur, hid⟩ := hend
  -- the results are collected by the last step only
  have hearly : ∀ k < 4, ((daemonRun (emptyWorld fun _ => none)
      ((sampleScanSteps sampleWriteErr).take k)).task 0).chkType ≠ .chkResult := by
    decide +kernel
  have hreported := hclaim _ _ [] (sessions_sampleScanSteps (along_of_forall (fun _ _ => trivial) _
    (sampleScanSteps sampleWriteErr))) 0 _ (stored_of_nameset
    (reachable_emptyWorld.run _) hset) htask hcur
  rcases hreported with ⟨pre, i, post, heq, ⟨t, _, _, _, _, hp, _, _, htype, _, _, _, hwrite, _⟩, _⟩ |
      ⟨_, s, hs, _⟩
  · have hpre : pre = (sampleScanSteps sampleWriteErr).take pre.length := by rw [heq]; simp
    have hi : (sampleScanSteps sampleWriteErr)[pre.length]? = some i := by rw [heq]; simp
    have hlen : pre.length < 5 := by
      have hsum : 5 = (pre ++ i :: post).length := congrArg List.length heq
      simp only [List.length_append, List.length_cons] at hsum
      omega
    rw [← World.task_of_stored hp, ← daemonRun, hpre] at htype
    by_cases hlast : pre.length < 4
    · exact hearly _ hlast htype
    · obtain rfl : sampleCheck sampleWriteErr = i := by
        rw [show pre.length = 4 by omega] at hi
        exact Option.some.inj hi
      rw [hid] at hwrite
      simp [sampleCheck, sampleWriteErr] at hwrite
  · simp at hs

end OpenvasTool
