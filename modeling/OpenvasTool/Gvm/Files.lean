import OpenvasTool.Gvm.Checks

/-!
# What one step does to the files

The task file changes only when the text of the stored tasks was written to it,
and a status file only when a check wrote the state of its own task, or when it
is deleted. The paths of different files never coincide.
-/

namespace OpenvasTool

open Posix Support

/-! ### Paths -/

/-- Texts with different endings of the same length differ. -/
theorem append_ne_append {x y s t : Text} (hlen : s.length = t.length) (hne : s ≠ t) :
    x ++ s ≠ y ++ t := fun h => hne (List.append_inj' h hlen).2

/-- The directory of a task. -/
def taskDir (id : Text) : Text := (gvmPaths id).taskDir

theorem statusFile_eq (id : Text) :
    (gvmPaths id).statusFile = (taskDir id ++ "/g".toList) ++ "vm_status_file".toList := by
  simp only [gvmPaths, taskDir, List.append_assoc]
  rfl

theorem statusFileTmp_eq (id : Text) :
    (gvmPaths id).statusFileTmp = taskDir id ++ "/.gvm_status_file".toList := by
  simp only [gvmPaths, taskDir, List.append_assoc]
  rfl

theorem resultFile_eq (id : Text) :
    (gvmPaths id).resultFile = (taskDir id ++ "/g".toList) ++ "vm_result_file".toList := by
  simp only [gvmPaths, taskDir, List.append_assoc]
  rfl

theorem resultFileTmp_eq (id : Text) :
    (gvmPaths id).resultFileTmp = taskDir id ++ "/.gvm_result_file".toList := by
  simp only [gvmPaths, taskDir, List.append_assoc]
  rfl

theorem statusFile_injective {id id' : Text}
    (h : (gvmPaths id).statusFile = (gvmPaths id').statusFile) : id = id' := by
  simp only [gvmPaths] at h
  exact List.append_cancel_left (List.append_cancel_right (List.append_cancel_right h))

theorem statusFile_ne_statusFileTmp (id id' : Text) :
    (gvmPaths id).statusFile ≠ (gvmPaths id').statusFileTmp := by
  have htmp : (gvmPaths id').statusFileTmp =
      (taskDir id' ++ "/".toList) ++ ".gvm_status_file".toList := by
    rw [statusFileTmp_eq, List.append_assoc]
    rfl
  have hfile : (gvmPaths id).statusFile = taskDir id ++ "/gvm_status_file".toList := by
    rw [statusFile_eq, List.append_assoc]
    rfl
  rw [hfile, htmp]
  exact append_ne_append (by decide) (by decide)

theorem statusFile_ne_resultFile (id id' : Text) :
    (gvmPaths id).statusFile ≠ (gvmPaths id').resultFile := by
  rw [statusFile_eq, resultFile_eq]
  exact append_ne_append (by decide) (by decide)

theorem statusFile_ne_resultFileTmp (id id' : Text) :
    (gvmPaths id).statusFile ≠ (gvmPaths id').resultFileTmp := by
  have htmp : (gvmPaths id').resultFileTmp =
      (taskDir id' ++ "/.g".toList) ++ "vm_result_file".toList := by
    rw [resultFileTmp_eq, List.append_assoc]
    rfl
  rw [statusFile_eq, htmp]
  exact append_ne_append (by decide) (by decide)

theorem resultFile_ne_statusFileTmp (id id' : Text) :
    (gvmPaths id).resultFile ≠ (gvmPaths id').statusFileTmp := by
  have htmp : (gvmPaths id').statusFileTmp =
      (taskDir id' ++ "/.g".toList) ++ "vm_status_file".toList := by
    rw [statusFileTmp_eq, List.append_assoc]
    rfl
  rw [resultFile_eq, htmp]
  exact append_ne_append (by decide) (by decide)

/-- A path that ends like neither form of the task file is a different one. -/
theorem ne_gvmTaskFile {x s : Text} (hlen : s.length = 13) (hne : s ≠ "gvm_task_file".toList) :
    x ++ s ≠ gvmTaskFile ∧ x ++ s ≠ gvmTaskFileTmp := by
  have htmp : gvmTaskFileTmp =
      (defGvmPrivDataDir ++ "/.".toList) ++ "gvm_task_file".toList := rfl
  refine ⟨append_ne_append hlen hne, ?_⟩
  rw [htmp]
  exact append_ne_append hlen hne

theorem statusFile_ne_gvmTaskFile (id : Text) :
    (gvmPaths id).statusFile ≠ gvmTaskFile ∧ (gvmPaths id).statusFile ≠ gvmTaskFileTmp := by
  have hfile : (gvmPaths id).statusFile =
      (taskDir id ++ "/gv".toList) ++ "m_status_file".toList := by
    rw [statusFile_eq, List.append_assoc, List.append_assoc]
    rfl
  rw [hfile]
  exact ne_gvmTaskFile (by decide) (by decide)

theorem gvmTaskFile_ne_gvmTaskFileTmp : gvmTaskFile ≠ gvmTaskFileTmp := by decide

/-- The files of a task are in its directory, the task file is not. -/
theorem not_taskDir_prefix_gvmTaskFile (id : Text) : ¬ taskDir id ++ "/".toList <+: gvmTaskFile := by
  intro h
  simp only [taskDir, gvmPaths, gvmTaskFile, List.append_assoc] at h
  rw [List.prefix_append_right_inj, List.prefix_append_right_inj] at h
  obtain ⟨t, ht⟩ := h
  have hhead : some 't' = some 'g' := congrArg List.head? ht
  simp at hhead

/-! ### Writing and deleting -/

namespace Env

variable (env : Env) (content normal tmp : Text) (files : Files)

/-- The file is replaced as a whole exactly when the return value is 0. -/
theorem writeFileSafe_normal (hne : normal ≠ tmp) :
    ((env.writeFileSafe content normal tmp files).1 = 0 ∧
        (env.writeFileSafe content normal tmp files).2 normal = some content) ∨
      ((env.writeFileSafe content normal tmp files).1 ≠ 0 ∧
        (env.writeFileSafe content normal tmp files).2 normal = files normal) := by
  unfold writeFileSafe
  split
  · exact Or.inl ⟨rfl, by simp [Files.set]⟩
  · exact Or.inr ⟨by simp, rfl⟩
  · exact Or.inr ⟨by simp, by simp [Files.set, hne]⟩
  · exact Or.inr ⟨by simp, by simp [Files.set, hne]⟩

/-- No other file than the two paths changes. -/
theorem writeFileSafe_other {path : Text} (hnormal : path ≠ normal) (htmp : path ≠ tmp) :
    (env.writeFileSafe content normal tmp files).2 path = files path := by
  unfold writeFileSafe
  split <;> simp [Files.set, hnormal, htmp]

theorem deleteDir_eq (dir path : Text) :
    env.deleteDir dir files path = none ∨ env.deleteDir dir files path = files path := by
  unfold deleteDir
  split
  · exact Or.inl rfl
  · exact Or.inr rfl

theorem deleteDir_gvmTaskFile (id : Text) :
    env.deleteDir (gvmPaths id).taskDir files gvmTaskFile = files gvmTaskFile := by
  unfold deleteDir
  rw [if_neg]
  exact fun h => not_taskDir_prefix_gvmTaskFile id h.1

end Env

/-! ### The files of one task -/

/-- The task has a current report, since it did before or since it adopted one. -/
def HasReport (t0 t : ListGvmTask) : Prop :=
  t.reportInfo.curReportId.text ≠ [] ∨
    ((t0.chkType = .chkReport ∨ t0.chkType = .chkResult) ∧
      t.reportInfo.curReportId = t0.reportInfo.curReportId)

/-- What a check that makes `t` of the task `t0` can do to the files that the daemon reads again:
it may write the status file of the task when the task has a report. -/
structure TaskFiles (t0 t : ListGvmTask) (files files' : Files) : Prop where
  taskFile : files' gvmTaskFile = files gvmTaskFile
  statusFile : ∀ id content, files' (gvmPaths id).statusFile = some content →
    files (gvmPaths id).statusFile = some content ∨
      (t.taskInfo.taskId.text = id ∧ content = renderRecord (statusFields t) ∧ HasReport t0 t)

theorem taskFiles_refl (t0 t : ListGvmTask) (files : Files) : TaskFiles t0 t files files :=
  ⟨rfl, fun _ _ h => Or.inl h⟩

theorem TaskFiles.trans {t0 t : ListGvmTask} {files files' files'' : Files}
    (h : TaskFiles t0 t files files') (h' : TaskFiles t0 t files' files'') :
    TaskFiles t0 t files files'' :=
  ⟨h'.taskFile.trans h.taskFile, fun id content hc =>
    (h'.statusFile id content hc).elim (h.statusFile id content) Or.inr⟩

/-- The task file stays, and so do the status files of other tasks. -/
theorem writeTaskStatusFile_frame (env : Env) (u : ListGvmTask) (files : Files) :
    (writeTaskStatusFile env u files).2 gvmTaskFile = files gvmTaskFile ∧
      ∀ id, id ≠ u.taskInfo.taskId.text → (writeTaskStatusFile env u files).2
        (gvmPaths id).statusFile = files (gvmPaths id).statusFile := by
  unfold writeTaskStatusFile
  rw [prepareGvmPaths_eq]
  dsimp only
  have hne := statusFile_ne_statusFileTmp
  refine ⟨?_, fun id hid => ?_⟩
  · refine Env.writeFileSafe_other _ _ _ _ _ (statusFile_ne_gvmTaskFile _).1.symm ?_
    rw [statusFileTmp_eq]
    have htmp : taskDir u.taskInfo.taskId.text ++ "/.gvm_status_file".toList =
        (taskDir u.taskInfo.taskId.text ++ "/.gv".toList) ++ "m_status_file".toList := by
      rw [List.append_assoc]
      rfl
    rw [htmp]
    exact (ne_gvmTaskFile (by decide) (by decide)).1.symm
  · exact Env.writeFileSafe_other _ _ _ _ _ (fun h => hid (statusFile_injective h)) (hne _ _)

/-- The status file is written, or it stays. -/
theorem writeTaskStatusFile_self (env : Env) (u : ListGvmTask) (files : Files) :
    ((writeTaskStatusFile env u files).1 = 0 ∧ (writeTaskStatusFile env u files).2
        (gvmPaths u.taskInfo.taskId.text).statusFile = some (renderRecord (statusFields u))) ∨
      ((writeTaskStatusFile env u files).1 ≠ 0 ∧ (writeTaskStatusFile env u files).2
        (gvmPaths u.taskInfo.taskId.text).statusFile =
          files (gvmPaths u.taskInfo.taskId.text).statusFile) := by
  unfold writeTaskStatusFile
  rw [prepareGvmPaths_eq]
  exact env.writeFileSafe_normal _ _ _ files (statusFile_ne_statusFileTmp _ _)

theorem taskFiles_writeTaskStatusFile (env : Env) {t0 t u : ListGvmTask} (files : Files)
    (hid : t.taskInfo.taskId = u.taskInfo.taskId) (hfields : statusFields t = statusFields u)
    (hreport : HasReport t0 t) : TaskFiles t0 t files (writeTaskStatusFile env u files).2 := by
  obtain ⟨htask, hothers⟩ := writeTaskStatusFile_frame env u files
  refine ⟨htask, fun id content hc => ?_⟩
  rw [hid, hfields]
  by_cases hid' : u.taskInfo.taskId.text = id
  · subst hid'
    rcases writeTaskStatusFile_self env u files with ⟨_, hw⟩ | ⟨_, hw⟩
    · rw [hw] at hc
      exact Or.inr ⟨rfl, (Option.some.inj hc).symm, hreport⟩
    · rw [hw] at hc
      exact Or.inl hc
  · rw [hothers id (Ne.symm hid')] at hc
    exact Or.inl hc

/-- The result file is none of the files that the daemon reads again. -/
theorem writeTaskResult_frame (env : Env) (u : ListGvmTask) (outbuf : Text) (files : Files) :
    (writeTaskResult env u outbuf files).2 gvmTaskFile = files gvmTaskFile ∧
      ∀ id, (writeTaskResult env u outbuf files).2 (gvmPaths id).statusFile =
        files (gvmPaths id).statusFile := by
  unfold writeTaskResult
  rw [prepareGvmPaths_eq]
  dsimp only
  refine ⟨?_, fun id => ?_⟩
  · have hfile : ∀ id, (gvmPaths id).resultFile =
        (taskDir id ++ "/gv".toList) ++ "m_result_file".toList := by
      intro id
      rw [resultFile_eq, List.append_assoc, List.append_assoc]
      rfl
    have htmp : ∀ id, (gvmPaths id).resultFileTmp =
        (taskDir id ++ "/.gv".toList) ++ "m_result_file".toList := by
      intro id
      rw [resultFileTmp_eq, List.append_assoc]
      rfl
    refine Env.writeFileSafe_other _ _ _ _ _ ?_ ?_
    · rw [hfile]
      exact (ne_gvmTaskFile (by decide) (by decide)).1.symm
    · rw [htmp]
      exact (ne_gvmTaskFile (by decide) (by decide)).1.symm
  · exact Env.writeFileSafe_other _ _ _ _ _ (statusFile_ne_resultFile _ _)
      (statusFile_ne_resultFileTmp _ _)

theorem taskFiles_writeTaskResult (env : Env) (t0 t u : ListGvmTask) (outbuf : Text)
    (files : Files) : TaskFiles t0 t files (writeTaskResult env u outbuf files).2 := by
  obtain ⟨htask, hstatus⟩ := writeTaskResult_frame env u outbuf files
  exact ⟨htask, fun id content hc => Or.inl (hstatus id ▸ hc)⟩

theorem taskFiles_queryTask (env : Env) (t : ListGvmTask) (files : Files) :
    TaskFiles t (queryTask env t files).task files (queryTask env t files).files := by
  unfold queryTask
  dsimp only
  split
  · exact taskFiles_refl _ _ _
  · rename_i info _
    rcases updateTaskReport_cases t info with heq | ⟨hid, _, heq⟩
    · rw [heq]
      exact taskFiles_refl _ _ _
    · rw [heq]
      exact taskFiles_writeTaskStatusFile env files rfl rfl (Or.inl hid)

theorem taskFiles_queryReport (env : Env) {t : ListGvmTask} (htype : t.chkType = .chkReport)
    (files : Files) :
    TaskFiles t (queryReport env t files).task files (queryReport env t files).files := by
  have hreport : ∀ u : ListGvmTask, u.reportInfo.curReportId = t.reportInfo.curReportId →
      HasReport t (reportChkType u).1 := by
    intro u hid
    refine Or.inr ⟨Or.inl htype, ?_⟩
    rcases reportChkType_cases u with ⟨_, heq⟩ | ⟨_, heq⟩ | ⟨_, _, heq⟩ <;> rw [heq] <;> exact hid
  unfold queryReport
  dsimp only
  split
  · exact taskFiles_refl _ _ _
  · split
    · exact taskFiles_writeTaskStatusFile env files rfl rfl (hreport _ rfl)
    · exact taskFiles_refl _ _ _

theorem taskFiles_queryResult (env : Env) {t : ListGvmTask} (htype : t.chkType = .chkResult)
    (files : Files) :
    TaskFiles t (queryResult env t files).task files (queryResult env t files).files := by
  unfold queryResult
  dsimp only
  split
  · exact taskFiles_refl _ _ _
  · split
    · exact taskFiles_refl _ _ _
    · split
      · exact taskFiles_refl _ _ _
      · exact (taskFiles_writeTaskResult _ _ _ _ _ _).trans
          (taskFiles_writeTaskStatusFile env _ rfl rfl (Or.inr ⟨Or.inr htype, rfl⟩))

/-! ### One step -/

/-- What one step of the daemon can do to the files that it reads again. -/
structure FileStep (w w' : World) : Prop where
  taskFile : w'.files gvmTaskFile = w.files gvmTaskFile ∨
    writeTaskRecords maxCacheSize (w'.data.createque.items.map w'.task) = w'.files gvmTaskFile
  statusFile : ∀ id content, w'.files (gvmPaths id).statusFile = some content →
    w.files (gvmPaths id).statusFile = some content ∨
      ∃ p t0 t, w.stored p = some t0 ∧ w'.stored p = some t ∧ t.taskInfo.taskId.text = id ∧
        content = renderRecord (statusFields t) ∧ HasReport t0 t

theorem fileStep_of_files_eq {w w' : World} (h : w'.files = w.files) : FileStep w w' :=
  ⟨Or.inl (congrFun h _), fun _ _ hc => Or.inl (h ▸ hc)⟩

/-- `writeTaskFile` replaces the task file by the text of the tasks, or leaves it alone. -/
theorem writeTaskFile_cases (env : Env) (w : World) :
    (((writeTaskFile env w).1 = 0 ∧
          writeTaskRecords maxCacheSize (w.data.createque.items.map w.task) =
            (writeTaskFile env w).2 gvmTaskFile) ∨
        ((writeTaskFile env w).1 ≠ 0 ∧ (writeTaskFile env w).2 gvmTaskFile = w.files gvmTaskFile)) ∧
      ∀ id, (writeTaskFile env w).2 (gvmPaths id).statusFile =
        w.files (gvmPaths id).statusFile := by
  unfold writeTaskFile
  split
  · exact ⟨Or.inr ⟨by simp, rfl⟩, fun _ => rfl⟩
  · rename_i content hcontent
    refine ⟨?_, fun id => Env.writeFileSafe_other _ _ _ _ _ (statusFile_ne_gvmTaskFile id).1
      (statusFile_ne_gvmTaskFile id).2⟩
    rcases env.writeFileSafe_normal content _ _ w.files gvmTaskFile_ne_gvmTaskFileTmp with
      ⟨hcode, hw⟩ | ⟨hcode, hw⟩
    · exact Or.inl ⟨hcode, by rw [hcontent, hw]⟩
    · exact Or.inr ⟨hcode, hw⟩

/-- What the combined operations on memory and files do to the files: the task file changes only
when they succeed. -/
structure RelationFiles (w : World) (r : Bool × World) : Prop where
  taskFile : (r.1 = false ∧ r.2.files gvmTaskFile = w.files gvmTaskFile) ∨ (r.1 = true ∧
    writeTaskRecords maxCacheSize (r.2.data.createque.items.map r.2.task) =
      r.2.files gvmTaskFile)
  statusFile : ∀ id content, r.2.files (gvmPaths id).statusFile = some content →
    w.files (gvmPaths id).statusFile = some content

/-- Deleted files are no longer there, the others are unchanged. -/
theorem some_of_deleteDir {env : Env} {dir path : Text} {files : Files} {content : Text}
    (h : env.deleteDir dir files path = some content) : files path = some content := by
  rcases env.deleteDir_eq files dir path with hdel | hdel
  · simp [hdel] at h
  · rwa [hdel] at h

theorem relationFiles_delTaskRelationFiles {w : World} (h : w.StoreConsistent) {p : Ptr}
    (hp : p ∈ w.data.nameset.data) (env : Env) :
    RelationFiles w (delTaskRelationFiles env w p) := by
  unfold delTaskRelationFiles
  simp only [prepareGvmPaths_eq, h.toIndexed.delGvmTask_eq hp]
  obtain ⟨hwrite, hstatus⟩ := writeTaskFile_cases env (w.unlink p)
  split
  · rename_i files heq
    simp only [heq] at hwrite hstatus
    refine ⟨?_, fun id content hc => ?_⟩
    · rcases hwrite with ⟨_, hfile⟩ | ⟨hcode, _⟩
      · refine Or.inr ⟨rfl, ?_⟩
        dsimp only
        rw [Env.deleteDir_gvmTaskFile]
        exact hfile
      · exact absurd rfl hcode
    · have hc' := some_of_deleteDir hc
      rw [hstatus id] at hc'
      exact hc'
  · rename_i code files hcode heq
    simp only [heq] at hwrite hstatus
    refine ⟨?_, fun id content hc => ?_⟩
    · rcases hwrite with ⟨hzero, _⟩ | ⟨_, hfile⟩
      · exact absurd hzero (by simpa using hcode)
      · exact Or.inl ⟨rfl, hfile⟩
    · exact (hstatus id).symm.trans hc

theorem relationFiles_createTaskRelationFiles (w : World) (p : Ptr) (env : Env) :
    RelationFiles w (createTaskRelationFiles env w p) := by
  unfold createTaskRelationFiles
  simp only [prepareGvmPaths_eq]
  split
  swap
  · exact ⟨Or.inl ⟨rfl, rfl⟩, fun _ _ hc => hc⟩
  split
  · refine ⟨Or.inl ⟨rfl, ?_⟩, fun _ _ hc => some_of_deleteDir hc⟩
    exact env.deleteDir_gvmTaskFile w.files (w.task p).taskInfo.taskId.text
  rename_i added hadd
  obtain ⟨_, _, hfiles, _⟩ := World.addGvmTask_frame hadd
  obtain ⟨hwrite, hstatus⟩ := writeTaskFile_cases env added
  rw [hfiles] at hwrite hstatus
  split
  · rename_i files heq
    simp only [heq] at hwrite hstatus
    have hrun : (({ added with files := files } : World).addGvmRunTask p).files = files ∧
        (({ added with files := files } : World).addGvmRunTask p).data.createque =
          added.data.createque ∧
        (({ added with files := files } : World).addGvmRunTask p).task = added.task := by
      unfold World.addGvmRunTask
      split <;> exact ⟨rfl, rfl, rfl⟩
    obtain ⟨hf, hq, ht⟩ := hrun
    refine ⟨?_, fun id content hc => ?_⟩
    · rcases hwrite with ⟨_, hfile⟩ | ⟨hcode, _⟩
      · refine Or.inr ⟨rfl, ?_⟩
        rw [hf, hq, ht]
        exact hfile
      · exact absurd rfl hcode
    · rw [hf, hstatus id] at hc
      exact hc
  · rename_i code files hcode heq
    simp only [heq] at hwrite hstatus
    refine ⟨?_, fun id content hc => ?_⟩
    · rcases hwrite with ⟨hzero, _⟩ | ⟨_, hfile⟩
      · exact absurd hzero (by simpa using hcode)
      · refine Or.inl ⟨rfl, ?_⟩
        dsimp only
        rw [Env.deleteDir_gvmTaskFile]
        exact hfile
    · exact (hstatus id).symm.trans (some_of_deleteDir hc)

/-- Freeing a task that is in no index does not change the text of the task file. -/
theorem map_task_freeGvmTask {w : World} (h : w.StoreConsistent) {p : Ptr}
    (hp : p ∉ w.data.nameset.data) :
    (w.freeGvmTask p).data.createque.items.map (w.freeGvmTask p).task =
      w.data.createque.items.map w.task := by
  refine List.map_congr_left fun q hq => ?_
  have hne : q ≠ p := by
    rintro rfl
    exact hp ((h.create_iff q).mp hq)
  simp [World.task, World.freeGvmTask, hne]

/-- A deletion that succeeded, after its task is freed; the memory changed before it. -/
theorem fileStep_delTaskRelationFiles {w0 w w' : World} (h : w.StoreConsistent) {p : Ptr}
    (hp : p ∈ w.data.nameset.data) {env : Env} (hfiles : w.files = w0.files)
    (hdel : delTaskRelationFiles env w p = (true, w')) : FileStep w0 (w'.freeGvmTask p) := by
  have hrel := relationFiles_delTaskRelationFiles h hp env
  rw [hdel] at hrel
  refine ⟨hrel.taskFile.imp (fun hsame => hfiles ▸ hsame.2) fun hw => ?_,
    fun id content hc => Or.inl (hfiles ▸ hrel.statusFile id _ hc)⟩
  rcases delTaskRelationFiles_spec h hp env with ⟨files, heq⟩ | ⟨w'', heq, _⟩
  · rw [hdel] at heq
    obtain rfl := (Prod.mk.inj heq).2
    have hc := (h.unlink hp).withFiles files
    have hnot : p ∉ ({ (w.unlink p).delGvmRunTask p with files := files } :
        World).data.nameset.data := fun hmem => (h.toIndexed.mem_unlink.mp hmem).1 rfl
    rw [map_task_freeGvmTask hc hnot]
    exact hw.2
  · simp [hdel] at heq

/-- A deletion that failed; the task is only marked or rescheduled after it. -/
theorem fileStep_delTaskRelationFiles_failed {w0 w w' w'' : World} (h : w.StoreConsistent) {p : Ptr}
    (hp : p ∈ w.data.nameset.data) {env : Env} (hfiles : w.files = w0.files)
    (hdel : delTaskRelationFiles env w p = (false, w')) (hfiles' : w''.files = w'.files) :
    FileStep w0 w'' := by
  have hrel := relationFiles_delTaskRelationFiles h hp env
  rw [hdel] at hrel
  refine ⟨Or.inl ?_, fun id content hc => Or.inl (hfiles ▸ hrel.statusFile id _ (hfiles' ▸ hc))⟩
  rcases hrel.taskFile with ⟨_, hsame⟩ | ⟨htrue, _⟩
  · rw [hfiles', ← hfiles]
    exact hsame
  · simp at htrue

theorem fileStep_daemonCreateTask (w : World) (env : Env) (input : Text) :
    FileStep w (daemonCreateTask env w input).world := by
  unfold daemonCreateTask
  split
  swap
  · exact fileStep_of_files_eq rfl
  split
  · exact fileStep_of_files_eq rfl
  split
  swap
  · exact fileStep_of_files_eq rfl
  split
  · exact fileStep_of_files_eq rfl
  dsimp only
  split
  swap
  · exact fileStep_of_files_eq rfl
  rename_i t0 _ _ _ _ _
  set t := stampTask env (createTaskObjects env t0).val.2
  have hrel := relationFiles_createTaskRelationFiles (w.newTask t).2 (w.newTask t).1 env
  split
  · rename_i w' hcreate
    rw [hcreate] at hrel
    exact ⟨hrel.taskFile.imp And.right And.right,
      fun id content hc => Or.inl (hrel.statusFile id content hc)⟩
  · rename_i w' hcreate
    rw [hcreate] at hrel
    refine ⟨Or.inl ?_, fun id content hc => Or.inl (hrel.statusFile id content hc)⟩
    rcases hrel.taskFile with ⟨_, hsame⟩ | ⟨htrue, _⟩
    · exact hsame
    · simp at htrue

namespace World.StoreConsistent

variable {w : World} (h : w.StoreConsistent)

include h

theorem fileStep_daemonDeleteTask (env : Env) (input : Text) :
    FileStep w (daemonDeleteTask env w input).world := by
  unfold daemonDeleteTask
  rcases h.withKeyTask_cases env input _ with ⟨hworld, _, _⟩ | ⟨key, p, hkey, hp, hname, heq⟩
  · rw [hworld]
    exact fileStep_of_files_eq rfl
  rw [heq]
  dsimp only
  split
  · exact fileStep_of_files_eq rfl
  split
  swap
  · exact fileStep_of_files_eq rfl
  obtain ⟨a, b, hinfo⟩ := deleteTaskObjects_val env (w.task p)
  have hmem := (stored_eq_some.mp hp).1
  have hc := h.setTask (t := { w.task p with taskInfo := (deleteTaskObjects env (w.task p)).val })
    hmem (by simp [hinfo])
  split
  · rename_i w' hdel
    exact fileStep_delTaskRelationFiles hc hmem rfl hdel
  · rename_i w' hdel
    exact fileStep_delTaskRelationFiles_failed hc hmem rfl hdel rfl

/-- A check of a stored task. -/
theorem fileStep_finishCheck {p : Ptr} {t : ListGvmTask} (hp : w.stored p = some t) (env : Env)
    (c : Check) (hinfo : c.task.taskInfo = t.taskInfo)
    (hfiles : TaskFiles t c.task w.files c.files) :
    FileStep w (w.finishCheck env p c) := by
  obtain ⟨_, hstored⟩ := h.finishCheck hp env c hinfo
  refine ⟨Or.inl hfiles.taskFile, fun id content hc => ?_⟩
  rcases hfiles.statusFile id content hc with
    hold | ⟨hid, hcontent, hreport⟩
  · exact Or.inl hold
  · exact Or.inr ⟨p, t, c.task.setTaskNextChkTime env.clkNext c.interval, hp,
      by rw [hstored, Function.update_self], hid, hcontent, hreport⟩

/-- **Every step of the daemon** keeps the files, except for the text of its tasks in the task
file and the states of its tasks in the status files. -/
theorem fileStep_daemonStep (env : Env) (e : Event) :
    FileStep w (daemonStep env w e).world := by
  cases e with
  | startTask input =>
    rcases h.daemonStartTask_cases env input with ⟨hw, _⟩ | ⟨_, p, _, _, _, _, _, _, _, hw⟩
    · rw [daemonStep, hw]
      exact fileStep_of_files_eq rfl
    · rw [daemonStep, hw]
      exact fileStep_of_files_eq rfl
  | stopTask input =>
    rcases h.daemonStopTask_cases env input with hw | ⟨p, _, _, hw⟩
    · rw [daemonStep, hw]
      exact fileStep_of_files_eq rfl
    · rw [daemonStep, hw]
      exact fileStep_of_files_eq rfl
  | deleteTask input => exact h.fileStep_daemonDeleteTask env input
  | createTask input => exact fileStep_daemonCreateTask w env input
  | runGvmChecks =>
    rw [daemonStep, OpenvasTool.runGvmChecks]
    cases hdue : dueTask env w with
    | none => exact fileStep_of_files_eq rfl
    | some p =>
      have hp := h.stored_dueTask hdue
      have hmem := (stored_eq_some.mp hp).1
      dsimp only
      unfold checkTask
      dsimp only
      split
      · exact h.fileStep_finishCheck hp env _ (queryTask_taskInfo _ _ _)
          (taskFiles_queryTask _ _ _)
      · rename_i htype
        exact h.fileStep_finishCheck hp env _ (queryReport_taskInfo _ _ _)
          (taskFiles_queryReport _ htype _)
      · rename_i htype
        exact h.fileStep_finishCheck hp env _ (queryResult_taskInfo _ _ _)
          (taskFiles_queryResult _ htype _)
      · split
        · rename_i hdel
          exact fileStep_delTaskRelationFiles h hmem rfl hdel
        · rename_i hdel
          exact fileStep_delTaskRelationFiles_failed h hmem rfl hdel rfl
  | validateGvmConn =>
    rw [daemonStep, OpenvasTool.validateGvmConn]
    dsimp only
    split <;> [skip; split] <;> exact fileStep_of_files_eq rfl

end World.StoreConsistent

end OpenvasTool
