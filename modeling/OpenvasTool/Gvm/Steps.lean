import OpenvasTool.Gvm.Indexes

/-!
# What one step can do

Every operation of the daemon acts on the abstract store like an insertion, an
update or a removal at one address, and keeps the indexes consistent. Later
invariants are derived from these facts and never look at the indexes again.
-/

namespace OpenvasTool

open Posix Support

/-! ### Creating and deleting a task with its files -/

namespace World

/-- After a failed operation on the indexes the same tasks are stored in the same memory. -/
structure SameStore (w w' : World) : Prop where
  consistent : w'.StoreConsistent
  heap_eq : w'.heap = w.heap
  next_eq : w'.next = w.next
  conn_eq : w'.data.isGvmConnOk = w.data.isGvmConnOk
  mem_iff : ∀ q, q ∈ w'.data.nameset.data ↔ q ∈ w.data.nameset.data

theorem SameStore.stored_eq {w w' : World} (h : w.SameStore w') : w'.stored = w.stored := by
  funext q
  simp only [stored, h.mem_iff, h.heap_eq]

/-- A deletion that was undone leaves the same tasks; the new position cannot fail, since the
deletion left room in the array. -/
theorem StoreConsistent.relink {w : World} (h : w.StoreConsistent) {p : Ptr}
    (hp : p ∈ w.data.nameset.data) (realloc : Bool) (files : Files) :
    w.SameStore
      { (((w.unlink p).addGvmTask realloc p).getD (w.unlink p)) with files := files } := by
  have hu := h.toIndexed.unlink hp
  have hsome : ((w.unlink p).addGvmTask realloc p).isSome := by
    unfold addGvmTask
    rw [Option.isSome_map]
    refine ListSet.addToSet_isSome (Or.inr ?_)
    have hpos : 0 < w.data.nameset.data.length := List.length_pos_of_mem hp
    have hsize := h.nameset.size_eq
    have hle := h.nameset.size_le
    simp only [World.unlink]
    omega
  obtain ⟨w', hw'⟩ := Option.isSome_iff_exists.mp hsome
  have hnew : p ∉ (w.unlink p).data.nameset.data := by simp [h.toIndexed.mem_unlink]
  have hnames : ∀ q ∈ (w.unlink p).data.nameset.data,
      ((w.unlink p).task q).taskInfo.taskName ≠ ((w.unlink p).task p).taskInfo.taskName := by
    intro q hq hname
    obtain ⟨hne, hmem⟩ := h.toIndexed.mem_unlink.mp hq
    exact hne (h.toIndexed.name_injective hmem hp hname)
  obtain ⟨hidx, hmem⟩ := hu.addGvmTask hnew (h.allocated p hp) hnames hw'
  obtain ⟨hheap, hnext, _, hrun, hconn⟩ := addGvmTask_frame hw'
  have hiff : ∀ q, q ∈ w'.data.nameset.data ↔ q ∈ w.data.nameset.data := by
    intro q
    rw [hmem, h.toIndexed.mem_unlink]
    constructor
    · rintro (rfl | hq)
      · exact hp
      · exact hq.2
    · intro hq
      by_cases heq : q = p
      · exact Or.inl heq
      · exact Or.inr ⟨heq, hq⟩
  rw [hw', Option.getD_some]
  refine ⟨StoreConsistent.withFiles ⟨hidx, ?_, fun q => ?_⟩ files, hheap, hnext, hconn, hiff⟩
  · rw [hrun]
    exact h.runque
  · rw [hrun, hiff]
    exact h.run_iff q

/-- An insertion that was undone leaves the same tasks. -/
theorem StoreConsistent.undo_add {w w' : World} (h : w.StoreConsistent) {realloc : Bool} {p : Ptr}
    (hp : p ∉ w.data.nameset.data) (halloc : (w.heap p).isSome)
    (hname : ∀ q ∈ w.data.nameset.data,
      (w.task q).taskInfo.taskName ≠ (w.task p).taskInfo.taskName)
    (hw : w.addGvmTask realloc p = some w') (files : Files) :
    w.SameStore { (w'.delGvmTask (w'.task p)).getD w' with files := files } := by
  obtain ⟨hidx, hmem⟩ := h.toIndexed.addGvmTask hp halloc hname hw
  obtain ⟨hheap, hnext, _, hrun, hconn⟩ := addGvmTask_frame hw
  have hp' : p ∈ w'.data.nameset.data := (hmem p).mpr (Or.inl rfl)
  have hu := hidx.unlink hp'
  have hiff : ∀ q, q ∈ (w'.unlink p).data.nameset.data ↔ q ∈ w.data.nameset.data := by
    intro q
    rw [hidx.mem_unlink, hmem]
    constructor
    · rintro ⟨hne, heq | hq⟩
      · exact absurd heq hne
      · exact hq
    · intro hq
      exact ⟨fun heq => hp (heq ▸ hq), Or.inr hq⟩
  rw [hidx.delGvmTask_eq hp', Option.getD_some]
  refine ⟨StoreConsistent.withFiles ⟨hu, ?_, fun q => ?_⟩ files, hheap, hnext, hconn, hiff⟩
  · show w'.data.runque.Valid
    rw [hrun]
    exact h.runque
  · show q ∈ w'.data.runque.items ↔ _
    rw [hrun, hiff]
    exact h.run_iff q

end World

/-- `delTaskRelationFiles` removes the task, or leaves the same tasks. -/
theorem delTaskRelationFiles_spec {w : World} (h : w.StoreConsistent) {p : Ptr}
    (hp : p ∈ w.data.nameset.data) (env : Env) :
    (∃ files, delTaskRelationFiles env w p =
        (true, { (w.unlink p).delGvmRunTask p with files := files })) ∨
      ∃ w', delTaskRelationFiles env w p = (false, w') ∧ w.SameStore w' := by
  unfold delTaskRelationFiles
  simp only [prepareGvmPaths_eq, h.toIndexed.delGvmTask_eq hp]
  split
  · exact Or.inl ⟨_, rfl⟩
  · exact Or.inr ⟨_, rfl, h.relink hp env.realloc _⟩

/-- `createTaskRelationFiles` links the new task, or leaves the same tasks. -/
theorem createTaskRelationFiles_spec {w : World} (h : w.StoreConsistent) {p : Ptr}
    (hp : p ∉ w.data.nameset.data) (halloc : (w.heap p).isSome)
    (hname : ∀ q ∈ w.data.nameset.data,
      (w.task q).taskInfo.taskName ≠ (w.task p).taskInfo.taskName) (env : Env) :
    (∃ w', createTaskRelationFiles env w p = (true, w') ∧ w'.StoreConsistent ∧
        w'.heap = w.heap ∧ w'.next = w.next ∧ w'.data.isGvmConnOk = w.data.isGvmConnOk ∧
        ∀ q, q ∈ w'.data.nameset.data ↔ q = p ∨ q ∈ w.data.nameset.data) ∨
      ∃ w', createTaskRelationFiles env w p = (false, w') ∧ w.SameStore w' := by
  unfold createTaskRelationFiles
  simp only [prepareGvmPaths_eq]
  split
  · split
    · exact Or.inr ⟨_, rfl, h.withFiles _, rfl, rfl, rfl, fun _ => Iff.rfl⟩
    · rename_i added hadd
      obtain ⟨hidx, hmem⟩ := h.toIndexed.addGvmTask hp halloc hname hadd
      obtain ⟨hheap, hnext, _, hrun, hconn⟩ := World.addGvmTask_frame hadd
      split
      · rename_i files _
        have hnot : p ∉ added.data.runque.items := by
          rw [hrun, h.run_iff]
          exact hp
        refine Or.inl ⟨_, rfl, ?_⟩
        simp only [World.addGvmRunTask, if_neg hnot]
        have hvalid : added.data.runque.Valid := hrun ▸ h.runque
        refine ⟨⟨⟨hidx.nameset, hidx.createque, hidx.create_iff, hidx.sorted, hidx.allocated,
          hidx.fresh⟩, hvalid.pushBack hnot, fun q => ?_⟩, hheap, hnext, hconn, hmem⟩
        show q ∈ (ListQueue.pushBack _ p added.data.runque).items ↔ _
        rw [ListQueue.mem_pushBack, hrun, h.run_iff]
        exact (hmem q).symm
      · exact Or.inr ⟨_, rfl, h.undo_add hp halloc hname hadd _⟩
  · exact Or.inr ⟨_, rfl, h, rfl, rfl, rfl, fun _ => Iff.rfl⟩

/-! ### One task -/

/-- What one step of the daemon can do to a stored task. Here `due` says that the step is a check
of this task, `deleting` that it is a request to delete a task, and `files'` are the files after
the step. -/
inductive TaskStep (env : Env) (due deleting : Prop) (files files' : Files) (t : ListGvmTask) :
    ListGvmTask → Prop
  /-- Only the time of the next check changes. -/
  | rescheduled (time : ℤ) :
      TaskStep env due deleting files files' t (t.setTaskNextChkTime env.clkNext time)
  /-- A deleted task could not be removed from the task file. -/
  | marked (scheduleCreated configCreated : Bool) : deleting → t.chkTaskBusy = false →
      TaskStep env due deleting files files' t ({ t with taskInfo := { t.taskInfo with
        scheduleCreated := scheduleCreated
        configCreated := configCreated } }.setTaskChkType .chkDeleted)
  /-- A check looked for a new report of the task. -/
  | queriedTask : due → t.chkType = .chkTask → files' = (queryTask env t files).files →
      TaskStep env due deleting files files' t
        ((queryTask env t files).task.setTaskNextChkTime env.clkNext
          (queryTask env t files).interval)
  /-- A check read the state of the current report. -/
  | queriedReport : due → t.chkType = .chkReport → files' = (queryReport env t files).files →
      TaskStep env due deleting files files' t
        ((queryReport env t files).task.setTaskNextChkTime env.clkNext
          (queryReport env t files).interval)
  /-- A check read results of the current report. -/
  | queriedResult : due → t.chkType = .chkResult → files' = (queryResult env t files).files →
      TaskStep env due deleting files files' t
        ((queryResult env t files).task.setTaskNextChkTime env.clkNext
          (queryResult env t files).interval)

/-- A task that was just created or loaded: it has an identifier, but no report yet. -/
structure NewTask (t : ListGvmTask) : Prop where
  taskId : chkUuid t.taskInfo.taskId.text = true
  reportInfo : t.reportInfo = {}
  resultInfo : t.resultInfo = {}
  chkType : t.chkType = .chkTask

/-- What one step of the daemon can do to the stored tasks. -/
inductive StoreStep (env : Env) (e : Event) (w w' : World) : Prop
  | same : w'.stored = w.stored → StoreStep env e w w'
  | task {p : Ptr} {t t' : ListGvmTask} : w.stored p = some t →
      TaskStep env (e = .runGvmChecks ∧ dueTask env w = some p) (∃ input, e = .deleteTask input)
        w.files w'.files t t' →
      w'.stored = Function.update w.stored p (some t') → StoreStep env e w w'
  | removed {p : Ptr} {t : ListGvmTask} : w.stored p = some t →
      t.chkType = .chkDeleted ∨ (∃ input, e = .deleteTask input) →
      w'.stored = Function.update w.stored p none → StoreStep env e w w'
  | added {t : ListGvmTask} : w.next < w'.next → NewTask t →
      w'.stored = Function.update w.stored w.next (some t) → StoreStep env e w w'

/-! ### Requests for an existing task -/

namespace World.StoreConsistent

variable {w : World} (h : w.StoreConsistent)

include h

/-- The handlers for an existing task fail without any change, or go on with a stored task that
has the name of the request. -/
theorem withKeyTask_cases (env : Env) (input : Text) (body : Ptr → Outcome) :
    ((withKeyTask env w input body).world = w ∧ (withKeyTask env w input body).sent = [] ∧
        (withKeyTask env w input body).code ≠ .success) ∨
      ∃ key p, getKeyTaskParam input = some key ∧ w.stored p = some (w.task p) ∧
        (w.task p).taskInfo.taskName = key.taskInfo.taskName ∧
        withKeyTask env w input body = body p := by
  unfold withKeyTask
  split
  · split
    · exact Or.inl ⟨rfl, rfl, by simp⟩
    · rename_i key hkey
      split
      · split
        · exact Or.inl ⟨rfl, rfl, by simp⟩
        · rename_i p hp
          obtain ⟨hmem, hname⟩ := h.toIndexed.findGvmTask_eq_some.mp hp
          exact Or.inr ⟨key, p, hkey, h.toIndexed.stored_task hmem, hname, rfl⟩
      · exact Or.inl ⟨rfl, rfl, by simp⟩
  · exact Or.inl ⟨rfl, rfl, by simp⟩

/-- A stored task is written and requeued. -/
theorem requeued {p : Ptr} {t t' : ListGvmTask} (hp : w.stored p = some t)
    (hname : t'.taskInfo.taskName = t.taskInfo.taskName) :
    ((w.setTask p t').queGvmRunTask p).StoreConsistent ∧
      ((w.setTask p t').queGvmRunTask p).stored = Function.update w.stored p (some t') := by
  have hmem := (stored_eq_some.mp hp).1
  rw [← task_of_stored hp] at hname
  exact ⟨(h.setTask hmem hname).queGvmRunTask p, stored_setTask hmem t'⟩

/-- `daemon_start_task` fails without any change, or starts a task that is not busy. -/
theorem daemonStartTask_cases (env : Env) (input : Text) :
    ((daemonStartTask env w input).world = w ∧ (daemonStartTask env w input).code ≠ .success) ∨
      ∃ key p r, getKeyTaskParam input = some key ∧ w.stored p = some (w.task p) ∧
        (w.task p).taskInfo.taskName = key.taskInfo.taskName ∧
        (w.task p).chkTaskBusy = false ∧
        (gvmStartTask env (w.task p).taskInfo.taskId.text).val = some r ∧
        (daemonStartTask env w input).code = .success ∧
        (daemonStartTask env w input).world = w.recheck env p := by
  unfold daemonStartTask
  rcases h.withKeyTask_cases env input _ with ⟨hworld, _, hcode⟩ | ⟨key, p, hkey, hp, hname, heq⟩
  · exact Or.inl ⟨hworld, hcode⟩
  · rw [heq]
    dsimp only
    split
    · exact Or.inl ⟨rfl, by simp⟩
    · rename_i hbusy
      split
      · exact Or.inl ⟨rfl, by simp⟩
      · rename_i r hr
        exact Or.inr ⟨key, p, r, hkey, hp, hname, by simpa using hbusy, hr, rfl, rfl⟩

/-- `daemon_stop_task` fails without any change, or stops a running task. -/
theorem daemonStopTask_cases (env : Env) (input : Text) :
    (daemonStopTask env w input).world = w ∨
      ∃ p, w.stored p = some (w.task p) ∧ (w.task p).chkTaskRunning = true ∧
        (daemonStopTask env w input).world = w.recheck env p := by
  unfold daemonStopTask
  rcases h.withKeyTask_cases env input _ with ⟨hworld, _, _⟩ | ⟨key, p, _, hp, _, heq⟩
  · exact Or.inl hworld
  · rw [heq]
    dsimp only
    split
    · rename_i hrun
      split
      · exact Or.inl rfl
      · exact Or.inr ⟨p, hp, hrun, rfl⟩
    · exact Or.inl rfl

/-- A recheck only resets the time of the next check of its task. -/
theorem recheck {p : Ptr} (hp : w.stored p = some (w.task p)) (env : Env) :
    (w.recheck env p).StoreConsistent ∧ (w.recheck env p).stored =
      Function.update w.stored p (some ((w.task p).setTaskNextChkTime env.clkNext 0)) :=
  h.requeued hp rfl

end World.StoreConsistent

theorem gvmOptionDeleteSchedule_val (env : Env) (info : GvmTaskInfo) :
    ∃ created, (gvmOptionDeleteSchedule env info).val.2 = { info with scheduleCreated := created } := by
  unfold gvmOptionDeleteSchedule
  split
  · simp only [Sent.andThen_val, Sent.pure_val]
    split
    · exact ⟨false, rfl⟩
    · exact ⟨info.scheduleCreated, rfl⟩
  · exact ⟨info.scheduleCreated, rfl⟩

theorem gvmOptionDeleteConfig_val (env : Env) (info : GvmTaskInfo) :
    ∃ created, (gvmOptionDeleteConfig env info).val.2 = { info with configCreated := created } := by
  unfold gvmOptionDeleteConfig
  split
  · simp only [Sent.andThen_val, Sent.pure_val]
    split
    · exact ⟨false, rfl⟩
    · exact ⟨info.configCreated, rfl⟩
  · exact ⟨info.configCreated, rfl⟩

/-- The deletions of the objects of a task only clear the flags of what was deleted. -/
theorem deleteTaskObjects_val (env : Env) (task : ListGvmTask) :
    ∃ scheduleCreated configCreated, (deleteTaskObjects env task).val =
      { task.taskInfo with
        scheduleCreated := scheduleCreated
        configCreated := configCreated } := by
  obtain ⟨a, ha⟩ := gvmOptionDeleteSchedule_val env task.taskInfo
  obtain ⟨b, hb⟩ := gvmOptionDeleteConfig_val env { task.taskInfo with scheduleCreated := a }
  refine ⟨a, b, ?_⟩
  simp only [deleteTaskObjects, Sent.andThen_val, Sent.pure_val, ha, hb]

namespace World

theorem stored_freeGvmTask {w : World} {p : Ptr} (hp : p ∉ w.data.nameset.data) :
    (w.freeGvmTask p).stored = w.stored := by
  funext q
  by_cases hq : q = p
  · subst hq
    have hnot : q ∉ (w.freeGvmTask q).data.nameset.data := hp
    simp [stored, hp, hnot]
  · simp [stored, freeGvmTask, hq]

namespace StoreConsistent

variable {w : World} (h : w.StoreConsistent)

include h

/-- A stored task is removed from all indexes and freed. -/
theorem removed {p : Ptr} (hp : p ∈ w.data.nameset.data) (files : Files) :
    ({ (w.unlink p).delGvmRunTask p with files := files }.freeGvmTask p).StoreConsistent ∧
      ({ (w.unlink p).delGvmRunTask p with files := files }.freeGvmTask p).stored =
        Function.update w.stored p none := by
  have hnot : p ∉ ({ (w.unlink p).delGvmRunTask p with files := files } :
      World).data.nameset.data := fun hmem => (h.toIndexed.mem_unlink.mp hmem).1 rfl
  refine ⟨((h.unlink hp).withFiles files).freeGvmTask hnot, ?_⟩
  rw [stored_freeGvmTask hnot]
  exact h.toIndexed.stored_unlink

/-- `daemon_delete_task` fails without any change, or it deletes a task that is not busy: the task
is removed, or it stays and is marked as deleted. -/
theorem daemonDeleteTask_cases (env : Env) (input : Text) :
    ((daemonDeleteTask env w input).world = w ∧ (daemonDeleteTask env w input).code ≠ .success) ∨
      ∃ key p, getKeyTaskParam input = some key ∧ w.stored p = some (w.task p) ∧
        (w.task p).taskInfo.taskName = key.taskInfo.taskName ∧
        (w.task p).chkTaskBusy = false ∧
        (daemonDeleteTask env w input).code = .success ∧
        (daemonDeleteTask env w input).world.next = w.next ∧
        (daemonDeleteTask env w input).world.StoreConsistent ∧
        ((daemonDeleteTask env w input).world.stored = Function.update w.stored p none ∨
          (daemonDeleteTask env w input).world.stored = Function.update w.stored p
            (some ({ w.task p with taskInfo := (deleteTaskObjects env (w.task p)).val
              }.setTaskChkType .chkDeleted))) := by
  unfold daemonDeleteTask
  rcases h.withKeyTask_cases env input _ with ⟨hworld, _, hcode⟩ | ⟨key, p, hkey, hp, hname, heq⟩
  · exact Or.inl ⟨hworld, hcode⟩
  rw [heq]
  dsimp only
  split
  · exact Or.inl ⟨rfl, by simp⟩
  rename_i hbusy
  split
  swap
  · exact Or.inl ⟨rfl, by simp⟩
  obtain ⟨a, b, hinfo⟩ := deleteTaskObjects_val env (w.task p)
  have hmem := (stored_eq_some.mp hp).1
  set t := { w.task p with taskInfo := (deleteTaskObjects env (w.task p)).val } with ht
  have hc := h.setTask (t := t) hmem (by simp [ht, hinfo])
  refine Or.inr ⟨key, p, hkey, hp, hname, by simpa using hbusy, ?_⟩
  rcases delTaskRelationFiles_spec hc hmem env with ⟨files, hdel⟩ | ⟨w', hdel, hsame⟩
  · rw [hdel]
    obtain ⟨hcons, hstored⟩ := hc.removed hmem files
    refine ⟨rfl, rfl, hcons, Or.inl ?_⟩
    rw [hstored, stored_setTask hmem, Function.update_idem]
  · rw [hdel]
    have hmem' : p ∈ w'.data.nameset.data := (hsame.mem_iff p).mpr hmem
    have htask : w'.task p = t := by
      simp only [task, hsame.heap_eq]
      exact task_setTask_self w p t
    refine ⟨rfl, hsame.next_eq, hsame.consistent.setTask hmem' rfl, Or.inr ?_⟩
    rw [stored_setTask hmem', hsame.stored_eq, stored_setTask hmem, Function.update_idem, htask]

end StoreConsistent

end World

/-! ### Creation -/

theorem chkUuid_createCommand {env : Env} {req : GvmRequest} {uuid : CStr maxUuidSize}
    (h : (createCommand env req).val = some uuid) : chkUuid uuid.text = true := by
  obtain ⟨rsp, _, hrsp⟩ := Option.bind_eq_some_iff.mp h
  exact chkUuid_of_extractAttrUuid hrsp

theorem chkUuid_gvmCreateTask {env : Env} {name target config schedule : Text}
    {uuid : CStr maxUuidSize}
    (h : (gvmCreateTask env name target config schedule).val = some uuid) :
    chkUuid uuid.text = true := by
  unfold gvmCreateTask at h
  split at h
  · exact chkUuid_createCommand h
  · simp at h

/-- A task without the identifiers of its objects in gvmd. -/
def ListGvmTask.withoutObjects (t : ListGvmTask) : ListGvmTask :=
  { t with
    taskInfo :=
      { t.taskInfo with
        taskId := .empty
        configId := .empty
        scheduleId := .empty
        scheduleCreated := false
        configCreated := false }
    targetInfo := { t.targetInfo with targetId := .empty } }

theorem withoutObjects_createSchedule (env : Env) (t : ListGvmTask) :
    { t with taskInfo := (gvmOptionCreateSchedule env t.taskInfo).val.2 }.withoutObjects =
      t.withoutObjects := by
  unfold gvmOptionCreateSchedule
  dsimp only
  split
  · rfl
  · split
    · rfl
    · rw [Sent.andThen_val]
      split <;> rfl

theorem withoutObjects_createConfig (env : Env) (t : ListGvmTask) :
    { t with taskInfo := (gvmOptionCreateConfig env t.taskInfo).val.2 }.withoutObjects =
      t.withoutObjects := by
  unfold gvmOptionCreateConfig
  split
  · rfl
  · rw [Sent.andThen_val]
    split <;> rfl

/-- The creation of the objects only fills in their identifiers. -/
theorem withoutObjects_createTaskObjects (env : Env) (t : ListGvmTask) :
    (createTaskObjects env t).val.2.withoutObjects = t.withoutObjects := by
  unfold createTaskObjects
  rw [Sent.andThen_val]
  split
  · rfl
  rename_i targetId _
  have htarget : { t with targetInfo := { t.targetInfo with targetId := targetId }
      }.withoutObjects = t.withoutObjects := rfl
  rw [Sent.andThen_val]
  have hschedule := (withoutObjects_createSchedule env _).trans htarget
  split
  swap
  · exact hschedule
  rw [Sent.andThen_val]
  have hconfig := (withoutObjects_createConfig env _).trans hschedule
  split
  swap
  · exact hconfig
  rw [Sent.andThen_val]
  split
  · exact hconfig
  · exact hconfig

/-- After a complete creation the task has the identifier of its gvmd task. -/
theorem chkUuid_createTaskObjects {env : Env} {t : ListGvmTask}
    (h : (createTaskObjects env t).val.1 = true) :
    chkUuid (createTaskObjects env t).val.2.taskInfo.taskId.text = true := by
  unfold createTaskObjects at h ⊢
  rw [Sent.andThen_val] at h ⊢
  split at h
  · simp at h
  rw [Sent.andThen_val] at h ⊢
  split at h
  swap
  · simp at h
  rename_i hschedule
  rw [if_pos hschedule]
  rw [Sent.andThen_val] at h ⊢
  split at h
  swap
  · simp at h
  rename_i hconfig
  rw [if_pos hconfig]
  rw [Sent.andThen_val] at h ⊢
  split at h
  · simp at h
  rename_i taskId htask
  exact chkUuid_gvmCreateTask htask

theorem getCreateTaskParam_reportInfo {input : Text} {t : ListGvmTask}
    (h : getCreateTaskParam input = some t) : t.reportInfo = {} ∧ t.resultInfo = {} := by
  simp only [getCreateTaskParam, Option.bind_eq_bind, Option.bind_eq_some_iff] at h
  obtain ⟨_, _, _, _, _, _, _, _, _, _, _, _, _, _, h⟩ := h
  split at h
  · obtain rfl := Option.some.inj h
    exact ⟨rfl, rfl⟩
  · simp at h

namespace World.StoreConsistent

variable {w : World} (h : w.StoreConsistent)

include h

/-- The stored tasks stay in the memory. -/
theorem heap_newTask (t : ListGvmTask) {q : Ptr} (hq : q ∈ w.data.nameset.data) :
    (w.newTask t).2.heap q = w.heap q := by
  have hne : q ≠ w.next := (h.lt_next hq).ne
  simp [World.newTask, World.setTask, hne]

/-- A new task under a new name can be linked. -/
theorem newTask_linkable {t : ListGvmTask}
    (hnames : ∀ p ∈ w.data.nameset.data, (w.task p).taskInfo.taskName ≠ t.taskInfo.taskName) :
    (w.newTask t).2.StoreConsistent ∧
      (w.newTask t).1 ∉ (w.newTask t).2.data.nameset.data ∧
      ((w.newTask t).2.heap (w.newTask t).1).isSome ∧
      ∀ q ∈ (w.newTask t).2.data.nameset.data, ((w.newTask t).2.task q).taskInfo.taskName ≠
        ((w.newTask t).2.task (w.newTask t).1).taskInfo.taskName := by
  have htask : (w.newTask t).2.task (w.newTask t).1 = t := task_setTask_self w w.next t
  refine ⟨h.newTask t, h.newTask_not_mem t, by simp [World.newTask, World.setTask], fun q hq => ?_⟩
  rw [htask]
  simp only [task, h.heap_newTask t hq]
  exact hnames q hq

/-- `daemon_create_task` leaves the same tasks, or adds a new one under a new name. -/
theorem daemonCreateTask_cases (env : Env) (input : Text) :
    ((daemonCreateTask env w input).world.StoreConsistent ∧
        (daemonCreateTask env w input).world.stored = w.stored ∧
        w.next ≤ (daemonCreateTask env w input).world.next ∧
        (daemonCreateTask env w input).code ≠ .success) ∨
      ∃ t0 t, getCreateTaskParam input = some t0 ∧ NewTask t ∧
        t.taskInfo.taskName = t0.taskInfo.taskName ∧
        (∀ p ∈ w.data.nameset.data, (w.task p).taskInfo.taskName ≠ t0.taskInfo.taskName) ∧
        t = stampTask env (createTaskObjects env t0).val.2 ∧
        (createTaskObjects env t0).val.1 = true ∧
        (daemonCreateTask env w input).code = .success ∧
        (daemonCreateTask env w input).world.next = w.next + 1 ∧
        (daemonCreateTask env w input).world.StoreConsistent ∧
        (daemonCreateTask env w input).world.stored =
          Function.update w.stored w.next (some t) := by
  unfold daemonCreateTask
  split
  swap
  · exact Or.inl ⟨h, rfl, le_rfl, by simp⟩
  split
  · exact Or.inl ⟨h, rfl, le_rfl, by simp⟩
  rename_i t0 ht0
  split
  swap
  · exact Or.inl ⟨h, rfl, le_rfl, by simp⟩
  split
  · exact Or.inl ⟨h, rfl, le_rfl, by simp⟩
  rename_i hfind
  have hnames := h.toIndexed.findGvmTask_eq_none.mp hfind
  dsimp only
  split
  swap
  · exact Or.inl ⟨h, rfl, le_rfl, by simp⟩
  rename_i hok
  set t := stampTask env (createTaskObjects env t0).val.2 with ht
  have hsame := withoutObjects_createTaskObjects env t0
  obtain ⟨hreport, hresult⟩ := getCreateTaskParam_reportInfo ht0
  have hname : t.taskInfo.taskName = t0.taskInfo.taskName :=
    congrArg (fun u => u.taskInfo.taskName) hsame
  have hreport' : (createTaskObjects env t0).val.2.reportInfo = t0.reportInfo := by
    have hinfo := congrArg ListGvmTask.reportInfo hsame
    exact hinfo
  have hresult' : (createTaskObjects env t0).val.2.resultInfo = t0.resultInfo := by
    have hinfo := congrArg ListGvmTask.resultInfo hsame
    exact hinfo
  have hnew : NewTask t := by
    refine ⟨chkUuid_createTaskObjects hok, ?_, hresult'.trans hresult, rfl⟩
    simp only [ht, stampTask, ListGvmTask.setTaskStatus, ListGvmTask.setTaskChkType,
      ListGvmTask.setTaskNextChkTime, hreport', hreport]
  -- the new task in memory, not yet linked
  obtain ⟨hc, hp, halloc, hnames'⟩ := h.newTask_linkable (t := t) (by rwa [hname])
  have hold := fun q hq => h.heap_newTask t (q := q) hq
  have hnewHeap : (w.newTask t).2.heap w.next = some t := by
    simp [World.newTask, World.setTask]
  rcases createTaskRelationFiles_spec hc hp halloc hnames' env with
    ⟨w', hcreate, hcons, hheap, hnext, _, hmem⟩ | ⟨w', hcreate, hsame'⟩
  · rw [hcreate]
    refine Or.inr ⟨t0, t, ht0, hnew, hname, hnames, rfl, hok, rfl, hnext, hcons, ?_⟩
    funext q
    by_cases hq : q = w.next
    · subst hq
      have hmemq : w.next ∈ w'.data.nameset.data := (hmem w.next).mpr (Or.inl rfl)
      simp only [stored, Function.update_self, if_pos hmemq, hheap, hnewHeap]
    · have hiff : q ∈ w'.data.nameset.data ↔ q ∈ w.data.nameset.data := by
        rw [hmem q]
        exact ⟨fun hor => hor.resolve_left hq, Or.inr⟩
      rw [Function.update_of_ne hq]
      by_cases hmemq : q ∈ w.data.nameset.data
      · simp only [stored, if_pos hmemq, if_pos (hiff.mpr hmemq), hheap, hold q hmemq]
      · simp only [stored, if_neg hmemq, if_neg (mt hiff.mp hmemq)]
  · rw [hcreate]
    have hnot : (w.newTask t).1 ∉ w'.data.nameset.data := mt (hsame'.mem_iff _).mp hp
    have hnext : w.next ≤ w'.next := hsame'.next_eq.symm ▸ Nat.le_succ w.next
    refine Or.inl ⟨hsame'.consistent.freeGvmTask hnot, ?_, hnext, by simp⟩
    rw [stored_freeGvmTask hnot, hsame'.stored_eq]
    funext q
    by_cases hmemq : q ∈ w.data.nameset.data
    · have hmemq' : q ∈ (w.newTask t).2.data.nameset.data := hmemq
      simp only [stored, if_pos hmemq, if_pos hmemq', hold q hmemq]
    · have hmemq' : q ∉ (w.newTask t).2.data.nameset.data := hmemq
      simp only [stored, if_neg hmemq, if_neg hmemq']

end World.StoreConsistent

/-! ### Background checks -/

theorem queryTask_taskInfo (env : Env) (t : ListGvmTask) (files : Files) :
    (queryTask env t files).task.taskInfo = t.taskInfo := by
  have hupdate : ∀ info, (updateTaskReport t info).2.taskInfo = t.taskInfo := by
    intro info
    unfold updateTaskReport
    dsimp only
    split <;> [skip; split] <;> first | rfl | (split <;> rfl)
  unfold queryTask
  dsimp only
  split
  · rfl
  · rename_i info _
    have hinfo := hupdate info
    split <;> rename_i htask <;> rw [htask] at hinfo <;> exact hinfo

theorem queryReport_taskInfo (env : Env) (t : ListGvmTask) (files : Files) :
    (queryReport env t files).task.taskInfo = t.taskInfo := by
  have htype : ∀ u : ListGvmTask, (reportChkType u).1.taskInfo = u.taskInfo := by
    intro u
    unfold reportChkType
    split <;> [skip; split] <;> rfl
  unfold queryReport
  dsimp only
  split
  · rfl
  · split
    · exact htype _
    · rfl

theorem queryResult_taskInfo (env : Env) (t : ListGvmTask) (files : Files) :
    (queryResult env t files).task.taskInfo = t.taskInfo := by
  unfold queryResult
  dsimp only
  split
  · rfl
  · split
    · rfl
    · split <;> rfl

namespace World.StoreConsistent

variable {w : World} (h : w.StoreConsistent)

include h

/-- A check writes its task and requeues it. -/
theorem finishCheck {p : Ptr} {t : ListGvmTask} (hp : w.stored p = some t) (env : Env) (c : Check)
    (hinfo : c.task.taskInfo = t.taskInfo) :
    (w.finishCheck env p c).StoreConsistent ∧ (w.finishCheck env p c).stored =
      Function.update w.stored p (some (c.task.setTaskNextChkTime env.clkNext c.interval)) := by
  have hname : (c.task.setTaskNextChkTime env.clkNext c.interval).taskInfo.taskName =
      t.taskInfo.taskName := congrArg GvmTaskInfo.taskName hinfo
  have hreq := h.requeued hp hname
  exact ⟨hreq.1.withFiles c.files, hreq.2⟩

/-- The due task is stored. -/
theorem stored_dueTask {env : Env} {p : Ptr} (hdue : dueTask env w = some p) :
    w.stored p = some (w.task p) := by
  unfold dueTask at hdue
  split at hdue
  · obtain ⟨hhead, _⟩ := Option.filter_eq_some_iff.mp hdue
    have hmem : p ∈ w.data.runque.items := List.mem_of_head? hhead
    exact h.toIndexed.stored_task ((h.run_iff p).mp hmem)
  · simp at hdue

/-- A check of a stored task updates it, or removes it when it is marked as deleted. -/
theorem checkTask_cases {p : Ptr} {t : ListGvmTask} (hp : w.stored p = some t) (env : Env)
    {due : Prop} (hdue : due) (deleting : Prop) :
    (checkTask env w p).1.StoreConsistent ∧ (checkTask env w p).1.next = w.next ∧
      ((∃ t', TaskStep env due deleting w.files (checkTask env w p).1.files t t' ∧
          (checkTask env w p).1.stored = Function.update w.stored p (some t')) ∨
        (t.chkType = .chkDeleted ∧
          (checkTask env w p).1.stored = Function.update w.stored p none)) := by
  have htask := task_of_stored hp
  have hmem := (stored_eq_some.mp hp).1
  unfold checkTask
  dsimp only
  rw [htask]
  split
  · rename_i htype
    obtain ⟨hcons, hstored⟩ := h.finishCheck hp env _ (queryTask_taskInfo env t w.files)
    exact ⟨hcons, rfl, Or.inl ⟨_, .queriedTask hdue htype rfl, hstored⟩⟩
  · rename_i htype
    obtain ⟨hcons, hstored⟩ := h.finishCheck hp env _ (queryReport_taskInfo env t w.files)
    exact ⟨hcons, rfl, Or.inl ⟨_, .queriedReport hdue htype rfl, hstored⟩⟩
  · rename_i htype
    obtain ⟨hcons, hstored⟩ := h.finishCheck hp env _ (queryResult_taskInfo env t w.files)
    exact ⟨hcons, rfl, Or.inl ⟨_, .queriedResult hdue htype rfl, hstored⟩⟩
  · rename_i htype
    rcases delTaskRelationFiles_spec h hmem env with ⟨files, hdel⟩ | ⟨w', hdel, hsame⟩
    · rw [hdel]
      obtain ⟨hcons, hstored⟩ := h.removed hmem files
      exact ⟨hcons, rfl, Or.inr ⟨htype, hstored⟩⟩
    · rw [hdel]
      have hp' : w'.stored p = some t := by rw [hsame.stored_eq, hp]
      have hname : (t.setTaskNextChkTime env.clkNext
          (defTaskChkTimeInterval .chkDeleted)).taskInfo.taskName = t.taskInfo.taskName := rfl
      have hreq := hsame.consistent.requeued hp' hname
      rw [hsame.stored_eq] at hreq
      dsimp only
      rw [task_of_stored hp']
      exact ⟨hreq.1, hsame.next_eq, Or.inl ⟨_, .rescheduled _, hreq.2⟩⟩

/-- **Every step of the daemon** keeps the indexes consistent and changes at most one task. -/
theorem daemonStep_spec (env : Env) (e : Event) :
    (daemonStep env w e).world.StoreConsistent ∧ w.next ≤ (daemonStep env w e).world.next ∧
      StoreStep env e w (daemonStep env w e).world := by
  cases e with
  | startTask input =>
    rcases h.daemonStartTask_cases env input with ⟨hw, _⟩ | ⟨_, p, _, _, hp, _, _, _, _, hw⟩
    · rw [daemonStep, hw]
      exact ⟨h, le_rfl, .same rfl⟩
    · obtain ⟨hcons, hstored⟩ := h.recheck hp env
      rw [daemonStep, hw]
      exact ⟨hcons, le_rfl, .task hp (.rescheduled 0) hstored⟩
  | stopTask input =>
    rcases h.daemonStopTask_cases env input with hw | ⟨p, hp, _, hw⟩
    · rw [daemonStep, hw]
      exact ⟨h, le_rfl, .same rfl⟩
    · obtain ⟨hcons, hstored⟩ := h.recheck hp env
      rw [daemonStep, hw]
      exact ⟨hcons, le_rfl, .task hp (.rescheduled 0) hstored⟩
  | deleteTask input =>
    rcases h.daemonDeleteTask_cases env input with
      ⟨hw, _⟩ | ⟨_, p, _, hp, _, hbusy, _, hnext, hcons, hstored | hstored⟩
    · rw [daemonStep, hw]
      exact ⟨h, le_rfl, .same rfl⟩
    · exact ⟨hcons, hnext.ge, .removed hp (Or.inr ⟨input, rfl⟩) hstored⟩
    · obtain ⟨a, b, hinfo⟩ := deleteTaskObjects_val env (w.task p)
      exact ⟨hcons, hnext.ge,
        .task hp (.marked a b ⟨input, rfl⟩ hbusy) (hinfo ▸ hstored)⟩
  | createTask input =>
    rcases h.daemonCreateTask_cases env input with
      ⟨hcons, hstored, hnext, _⟩ | ⟨_, t, _, hnew, _, _, _, _, _, hnext, hcons, hstored⟩
    · exact ⟨hcons, hnext, .same hstored⟩
    · have hlt : w.next < (daemonCreateTask env w input).world.next := hnext ▸ Nat.lt_succ_self _
      exact ⟨hcons, hlt.le, .added hlt hnew hstored⟩
  | runGvmChecks =>
    rw [daemonStep, OpenvasTool.runGvmChecks]
    cases hdue : dueTask env w with
    | none => exact ⟨h, le_rfl, .same rfl⟩
    | some p =>
      have hp := h.stored_dueTask hdue
      obtain ⟨hcons, hnext, ⟨t', hstep, hstored⟩ | ⟨htype, hstored⟩⟩ := h.checkTask_cases hp env
        (And.intro (rfl : Event.runGvmChecks = .runGvmChecks) hdue) _
      · exact ⟨hcons, hnext.ge, .task hp hstep hstored⟩
      · exact ⟨hcons, hnext.ge, .removed hp (Or.inl htype) hstored⟩
  | validateGvmConn =>
    rw [daemonStep, OpenvasTool.validateGvmConn]
    dsimp only
    have hidx : w.Indexed := h.toIndexed
    split <;> [skip; split] <;>
      exact ⟨⟨⟨hidx.nameset, hidx.createque, hidx.create_iff, hidx.sorted, hidx.allocated,
        hidx.fresh⟩, h.runque, h.run_iff⟩, le_rfl, .same rfl⟩

end World.StoreConsistent

end OpenvasTool
