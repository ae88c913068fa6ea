import OpenvasTool.Gvm.Files
import OpenvasTool.Hydra.TaskFile
import OpenvasTool.Messages

/-!
# The size of the task files

A task file is rendered into a work buffer of 16 MB, but the next start refuses a
file of more than 10 MB. So a file that was written can be read again exactly when
the records of the stored tasks stay below the smaller limit.
-/

namespace OpenvasTool

open Posix Support

/-! ### Reading what was written -/

/-- A successful `writeFileSafe` leaves the content. -/
theorem writeFileSafe_content {env : Env} {content normal tmp : Text} {files : Files}
    (h : (env.writeFileSafe content normal tmp files).1 = 0) :
    (env.writeFileSafe content normal tmp files).2 normal = some content := by
  unfold Env.writeFileSafe at h ⊢
  split at h
  · simp [Files.set]
  all_goals simp at h

theorem length_writeHydraRecords {ts : List ListHydraTask} {content : Text}
    (h : writeHydraRecords maxCacheSize ts = some content) :
    content.length = (hydraFileText ts).length := by
  have hrecs : ((ts.map fun t => renderRecord (hydraFields t)).foldlM (writeRecord maxCacheSize) []) =
      some content := by
    rw [List.foldlM_map]
    exact h
  rw [length_foldlM_writeRecord hrecs, List.length_nil, Nat.zero_add, hydraFileText,
    List.flatMap_def]

theorem writeHydraTaskFile_content {env : HydraEnv} {w : HydraWorld}
    (h : (writeHydraTaskFile env w).1 = 0) :
    ∃ content, writeHydraRecords maxCacheSize w.tasks = some content ∧
      (writeHydraTaskFile env w).2 hydraTaskFile = some content ∧
      content.length = (hydraFileText w.tasks).length := by
  unfold writeHydraTaskFile at h ⊢
  cases hwrite : writeHydraRecords maxCacheSize (w.data.createque.items.map w.task) with
  | none => simp [hwrite] at h
  | some content =>
    rw [hwrite] at h
    exact ⟨content, hwrite, writeFileSafe_content h, length_writeHydraRecords hwrite⟩

/-- A task name of five digits. -/
def manyName (i : ℕ) : Text := padded 10 5 (i % 100000)

theorem length_manyName (i : ℕ) : (manyName i).length = 5 :=
  length_padded (by decide) (by decide) (Nat.mod_lt _ (by decide))

theorem isDigit_of_mem_manyName {i : ℕ} {c : Char} (h : c ∈ manyName i) : c.isDigit = true := by
  rcases List.mem_append.mp h with h | h
  · rw [List.eq_of_mem_replicate h]
    decide
  · exact Nat.isDigit_of_mem_toDigits (by decide) (by decide) h

theorem chkName_manyName (i : ℕ) : chkName (manyName i) = true := by
  have hclass : ∀ c ∈ manyName i, gvmNameExcluded c = false := by
    intro c hc
    have hdigit := isDigit_of_mem_manyName hc
    unfold gvmNameExcluded
    rw [isspace_of_isDigit hdigit, Bool.or_false, List.contains_eq_mem, decide_eq_false_iff_not]
    exact not_mem_of_all (q := Char.isDigit) (by decide) hdigit
  rw [chkName_iff]
  refine Regex.mem_lang_rep.mpr ⟨(manyName i).map fun c => [c], by simp [length_manyName],
    by simp [length_manyName], ?_, fun y hy => ?_⟩
  · rw [← List.flatMap_def, List.flatMap_singleton']
  · obtain ⟨c, hc, rfl⟩ := List.mem_map.mp hy
    exact ⟨c, hclass c hc, rfl⟩

/-- The number of a name is read back. -/
theorem manyName_injective {i j : ℕ} (hi : i < 100000) (hj : j < 100000)
    (h : manyName i = manyName j) : i = j := by
  have hzeros : ∀ k n, leadingDigits (List.replicate k '0' ++ Nat.toDigits 10 n) = n := by
    intro k n
    induction k with
    | zero => exact leadingDigits_toDigits n
    | succ k ih =>
      rw [List.replicate_succ, List.cons_append]
      exact ih
  have hvalue : ∀ n, leadingDigits (manyName n) = n % 100000 := fun n => hzeros _ _
  have heq := congrArg leadingDigits h
  rw [hvalue, hvalue, Nat.mod_eq_of_lt hi, Nat.mod_eq_of_lt hj] at heq
  exact heq

/-- The name as a buffer. -/
def manyTaskName (i : ℕ) : CStr maxNameSize :=
  ⟨manyName i, by rw [length_manyName]; decide, fun h => by
    have hdigit := isDigit_of_mem_manyName h
    simp at hdigit⟩

/-- The identifiers of the sample gvmd as buffers. -/
def sampleTargetId : CStr maxUuidSize := ⟨sampleUuid 'a', by decide, by decide⟩
def sampleConfigId : CStr maxMemListSize := ⟨sampleUuid 'd', by decide, by decide⟩

/-- The parameters of the task with this number. -/
def manyParam (i : ℕ) : ListGvmTask where
  taskInfo :=
    { taskName := manyTaskName i
      groupId := sampleConfigId
      groupName := ⟨"Full".toList, by decide, by decide⟩ }
  targetInfo :=
    { targetName := .copy (manyTaskName i)
      portlistId := defOpenvasPortListId
      hosts := ⟨"10.0.0.1".toList, by decide, by decide⟩ }

/-- A request to create this task. -/
def manyCreate (i : ℕ) : Text :=
  kbMessage [manyName i, sampleUuid 'd', "Full".toList, "10.0.0.1".toList, "0".toList, [], []]

/-- The task with the identifiers that it gets. -/
def manyObjects (i : ℕ) : ListGvmTask :=
  { manyParam i with
    taskInfo := { (manyParam i).taskInfo with
      taskId := sampleTaskId
      configId := .copy (manyParam i).taskInfo.groupId }
    targetInfo := { (manyParam i).targetInfo with
      targetId := sampleTargetId } }

/-- The task as it is stored. -/
def manyTask (i : ℕ) : ListGvmTask := stampTask (.smooth sampleGvmd) (manyObjects i)

/-- All records have this length. -/
def manyLength : ℕ := (renderRecord (taskFields (manyTask 0))).length

theorem length_renderRecord_manyTask (i : ℕ) :
    (renderRecord (taskFields (manyTask i))).length = manyLength := by
  have hname : ∀ j, (manyTask j).taskInfo.taskName.text = manyName j := fun _ => rfl
  simp only [manyLength, renderRecord, taskFields, keyLines, List.flatMap_cons, List.flatMap_nil,
    keyLine, List.length_append, hname, length_manyName]
  rfl

theorem getCreateTaskParam_manyCreate (i : ℕ) :
    getCreateTaskParam (manyCreate i) = some (manyParam i) := by
  have hname : openvasKbDelim ∉ (manyTaskName i).text := fun h => by
    have hdigit := isDigit_of_mem_manyName h
    simp [openvasKbDelim] at hdigit
  have hchecks : (chkConfigInfo (sampleUuid 'd') "Full".toList && chkHosts "10.0.0.1".toList &&
      chkScheduleParam (atoi "0".toList) [] []) = true := by decide +kernel
  simp only [Bool.and_eq_true] at hchecks
  have hfields : openvasKbDelim ∉ sampleUuid 'd' ∧ openvasKbDelim ∉ "Full".toList ∧
      openvasKbDelim ∉ "10.0.0.1".toList := by decide
  have htype : openvasKbDelim ∉ "0".toList ∧ "0".toList.head?.map Char.isDigit = some true := by
    decide
  exact getCreateTaskParam_kbMessage (manyTaskName i) (manyParam i).taskInfo.groupId
    (manyParam i).taskInfo.groupName (manyParam i).targetInfo.hosts
    ⟨"0".toList, by decide, by decide⟩ .empty .empty hname hfields.1 hfields.2.1 hfields.2.2 htype.1
    htype.2 List.not_mem_nil List.not_mem_nil (by
      simp only [Bool.and_eq_true]
      exact ⟨⟨⟨chkName_manyName i, hchecks.1.1⟩, hchecks.1.2⟩, hchecks.2⟩)

/-- The identifier of a created object is read from the answer. -/
theorem createCommand_createdRsp {req : GvmRequest} {uuid : CStr maxUuidSize}
    (hreq : sampleGvmd req = some (createdRsp req uuid.text))
    (hstatus : chkRspStatusOk req.cmd (createdRsp req uuid.text).text = 0)
    (hid : extractAttrUuid (createdRsp req uuid.text).text (req.cmd ++ "_response".toList)
      maxUuidSize = some uuid) :
    (createCommand (.smooth sampleGvmd) req).val = some uuid := by
  have hgvmd : (Env.smooth sampleGvmd).gvmd req = some (createdRsp req uuid.text) := hreq
  simp only [createCommand, Sent.andThen_val, Sent.pure_val, procGvmTask, hgvmd, Option.filter_some,
    hstatus, beq_self_eq_true, if_true, Option.bind_some, hid]

theorem createTarget_sampleGvmd (name hosts portlist : Text) :
    (createCommand (.smooth sampleGvmd) (.createTarget name hosts portlist)).val =
      some sampleTargetId :=
  createCommand_createdRsp rfl
    (by decide +kernel : chkRspStatusOk (GvmRequest.createTarget [] [] []).cmd
      (createdRsp (.createTarget [] [] []) sampleTargetId.text).text = 0)
    (by decide +kernel : extractAttrUuid (createdRsp (.createTarget [] [] []) sampleTargetId.text).text
      ((GvmRequest.createTarget [] [] []).cmd ++ "_response".toList) maxUuidSize =
        some sampleTargetId)

theorem createTask_sampleGvmd (name target config schedule : Text) :
    (createCommand (.smooth sampleGvmd) (.createTask name target config schedule)).val =
      some sampleTaskId :=
  createCommand_createdRsp rfl
    (by decide +kernel : chkRspStatusOk (GvmRequest.createTask [] [] [] []).cmd
      (createdRsp (.createTask [] [] [] []) sampleTaskId.text).text = 0)
    (by decide +kernel : extractAttrUuid (createdRsp (.createTask [] [] [] []) sampleTaskId.text).text
      ((GvmRequest.createTask [] [] [] []).cmd ++ "_response".toList) maxUuidSize =
        some sampleTaskId)

/-- gvmd creates the objects of this task. -/
theorem createTaskObjects_manyParam (i : ℕ) :
    (createTaskObjects (.smooth sampleGvmd) (manyParam i)).val = (true, manyObjects i) := by
  have hname := chkName_manyName i
  have hclosed : chkUuid defOpenvasPortListId.text = true ∧ chkHosts "10.0.0.1".toList = true ∧
      chkUuid sampleTargetId.text = true ∧ chkUuid sampleConfigId.text = true ∧
      isMultiUuid sampleConfigId.text = false := by decide +kernel
  obtain ⟨hport, hhosts, htargetId, hconfigId, hmulti⟩ := hclosed
  have htarget : (gvmCreateTarget (.smooth sampleGvmd) (manyParam i).targetInfo.targetName.text
      (manyParam i).targetInfo.hosts.text (manyParam i).targetInfo.portlistId.text).val =
      some sampleTargetId := by
    have hcond : (chkUuid (manyParam i).targetInfo.portlistId.text &&
        chkHosts (manyParam i).targetInfo.hosts.text &&
        chkName (manyParam i).targetInfo.targetName.text) = true := by
      simp only [Bool.and_eq_true]
      refine ⟨⟨hport, hhosts⟩, ?_⟩
      rw [show (manyParam i).targetInfo.targetName = manyTaskName i from CStr.copy_self _]
      exact hname
    rw [gvmCreateTarget, if_pos hcond, createTarget_sampleGvmd]
  have hconfig : (gvmOptionCreateConfig (.smooth sampleGvmd) (manyParam i).taskInfo).val =
      (true, { (manyParam i).taskInfo with configId := .copy sampleConfigId }) := by
    have hcond : (!isMultiUuid (manyParam i).taskInfo.groupId.text) = true := by
      rw [Bool.not_eq_true']
      exact hmulti
    rw [gvmOptionCreateConfig, if_pos hcond]
    rfl
  have htask : ∀ config : Text, chkUuid config = true →
      (gvmCreateTask (.smooth sampleGvmd) (manyName i) sampleTargetId.text config []).val =
        some sampleTaskId := by
    intro config hid
    have hcond : (chkUuid sampleTargetId.text && chkUuid config && chkName (manyName i)) = true := by
      simp only [htargetId, hid, hname, Bool.and_self]
    rw [gvmCreateTask, if_pos hcond, createTask_sampleGvmd]
  have hschedule : (gvmOptionCreateSchedule (.smooth sampleGvmd) (manyParam i).taskInfo).val =
      (true, (manyParam i).taskInfo) := rfl
  rw [createTaskObjects, Sent.andThen_val, htarget]
  dsimp only
  rw [Sent.andThen_val, hschedule]
  dsimp only
  rw [if_pos rfl, Sent.andThen_val, hconfig]
  dsimp only
  rw [if_pos rfl, Sent.andThen_val]
  have hcopy : chkUuid (CStr.copy sampleConfigId : CStr maxUuidSize).text = true := by
    decide +kernel
  have hcreated : (gvmCreateTask (.smooth sampleGvmd) (manyParam i).taskInfo.taskName.text
      sampleTargetId.text (CStr.copy sampleConfigId : CStr maxUuidSize).text
      (manyParam i).taskInfo.scheduleId.text).val = some sampleTaskId := htask _ hcopy
  rw [hcreated]
  rfl

/-! #### The run -/

/-- The store after the first `n` of these requests. -/
structure ManyStore (n : ℕ) (w : World) : Prop where
  consistent : w.StoreConsistent
  conn : w.data.isGvmConnOk = true
  names : ∀ p t, w.stored p = some t → ∃ j < n, t.taskInfo.taskName = manyTaskName j
  length : (taskFileText w.tasks).length = n * manyLength

/-- A store whose records fit the work buffer can be written. -/
theorem writeTaskFile_smooth {gvmd : GvmRequest → Option GvmRsp} {w : World}
    (hroom : (taskFileText w.tasks).length < maxCacheSize) :
    (writeTaskFile (.smooth gvmd) w).1 = 0 := by
  have hwrite := writeTaskRecords_eq (lt_intOfSize_maxCacheSize hroom)
  unfold World.tasks at hwrite
  simp only [writeTaskFile, hwrite]
  rfl

/-- A new task adds its record to the task file. -/
theorem length_taskFileText_addGvmTask {w added : World} {t : ListGvmTask} (h : w.StoreConsistent)
    (hadd : (w.newTask t).2.addGvmTask true (w.newTask t).1 = some added) :
    (taskFileText added.tasks).length =
      (taskFileText w.tasks).length + (renderRecord (taskFields t)).length := by
  have hold : ∀ q ∈ w.data.createque.items, (w.newTask t).2.task q = w.task q := by
    intro q hq
    simp only [World.task, h.heap_newTask t ((h.create_iff q).mp hq)]
  have hself : (w.newTask t).2.task w.next = t := World.task_setTask_self w w.next t
  obtain ⟨s, _, rfl⟩ := Option.map_eq_some_iff.mp hadd
  have hperm : ∀ f : Ptr → ℤ, (taskFileText ((insertLast f w.next w.data.createque.items).map
      (w.newTask t).2.task)).length =
      (taskFileText w.tasks).length + (renderRecord (taskFields t)).length := by
    intro f
    have hlen := (((insertLast_perm f w.next w.data.createque.items).map
      (w.newTask t).2.task).flatMap_right fun u => renderRecord (taskFields u)).length_eq
    rw [List.map_cons, hself, List.map_congr_left hold, List.flatMap_cons, List.length_append] at hlen
    rw [Nat.add_comm]
    exact hlen
  exact hperm _

theorem ManyStore.next {n : ℕ} {w : World} (h : ManyStore n w) (hn : n < 100000)
    (hroom : (n + 1) * manyLength < maxCacheSize) :
    ManyStore (n + 1) (daemonCreateTask (.smooth sampleGvmd) w (manyCreate n)).world := by
  have hnew : ∀ p ∈ w.data.nameset.data,
      (w.task p).taskInfo.taskName ≠ (manyParam n).taskInfo.taskName := by
    intro p hp heq
    obtain ⟨j, hj, hname⟩ := h.names p _ (h.consistent.stored_task hp)
    have hnames := congrArg CStr.text (hname.symm.trans heq)
    exact hj.ne (manyName_injective (hj.trans hn) hn hnames)
  have hfind := h.consistent.toIndexed.findGvmTask_eq_none.mpr hnew
  have hsome : ((w.newTask (manyTask n)).2.addGvmTask true (w.newTask (manyTask n)).1).isSome := by
    unfold World.addGvmTask
    rw [Option.isSome_map]
    exact ListSet.addToSet_isSome (Or.inl rfl)
  obtain ⟨added, hadd⟩ := Option.isSome_iff_exists.mp hsome
  have hlen := length_taskFileText_addGvmTask h.consistent hadd
  rw [h.length, length_renderRecord_manyTask, ← Nat.succ_mul] at hlen
  have hcode : (writeTaskFile (.smooth sampleGvmd) added).1 = 0 :=
    writeTaskFile_smooth (hlen.trans_lt hroom)
  have hwrite : writeTaskFile (.smooth sampleGvmd) added =
      (0, (writeTaskFile (.smooth sampleGvmd) added).2) := Prod.ext hcode rfl
  obtain ⟨files, hwrite⟩ : ∃ files, writeTaskFile (.smooth sampleGvmd) added = (0, files) := ⟨_, hwrite⟩
  have hfiles : createTaskRelationFiles (.smooth sampleGvmd) (w.newTask (manyTask n)).2
      (w.newTask (manyTask n)).1 =
      (true, ({ added with files := files } : World).addGvmRunTask (w.newTask (manyTask n)).1) := by
    unfold createTaskRelationFiles
    rw [prepareGvmPaths_eq]
    dsimp only
    have hmkdir : ∀ dir, (Env.smooth sampleGvmd).mkdir dir = true := fun _ => rfl
    have hrealloc : (Env.smooth sampleGvmd).realloc = true := rfl
    rw [if_pos (hmkdir _), hrealloc, hadd]
    dsimp only
    rw [hwrite]
    rfl
  have hcreate : (daemonCreateTask (.smooth sampleGvmd) w (manyCreate n)).world =
      ({ added with files := files } : World).addGvmRunTask (w.newTask (manyTask n)).1 ∧
      (daemonCreateTask (.smooth sampleGvmd) w (manyCreate n)).code = .success := by
    have halloc : (Env.smooth sampleGvmd).alloc = true := rfl
    unfold daemonCreateTask
    rw [if_pos halloc, getCreateTaskParam_manyCreate]
    dsimp only
    rw [if_pos h.conn, hfind, createTaskObjects_manyParam]
    dsimp only
    rw [if_pos rfl]
    have hstamp : stampTask (.smooth sampleGvmd) (manyObjects n) = manyTask n := rfl
    rw [hstamp, hfiles]
    exact ⟨rfl, rfl⟩
  have htasks : ∀ p, (({ added with files := files } : World).addGvmRunTask p).tasks = added.tasks ∧
      (({ added with files := files } : World).addGvmRunTask p).data.isGvmConnOk =
        added.data.isGvmConnOk := by
    intro p
    unfold World.addGvmRunTask
    split <;> exact ⟨rfl, rfl⟩
  obtain ⟨_, _, _, _, hconn⟩ := World.addGvmTask_frame hadd
  rcases h.consistent.daemonCreateTask_cases (.smooth sampleGvmd) (manyCreate n) with
    ⟨_, _, _, hfail⟩ | ⟨t0, t, ht0, _, hname, _, _, _, _, _, hcons, hstored⟩
  · exact absurd hcreate.2 hfail
  · obtain rfl := Option.some.inj ((getCreateTaskParam_manyCreate n).symm.trans ht0)
    refine ⟨hcons, ?_, fun p u hp => ?_, ?_⟩
    · rw [hcreate.1, (htasks _).2, hconn]
      exact h.conn
    · rw [hstored] at hp
      by_cases hpn : p = w.next
      · rw [hpn, Function.update_self, Option.some.injEq] at hp
        exact ⟨n, Nat.lt_succ_self n, hp ▸ hname⟩
      · rw [Function.update_of_ne hpn] at hp
        obtain ⟨j, hj, hjname⟩ := h.names p u hp
        exact ⟨j, hj.trans (Nat.lt_succ_self n), hjname⟩
    · rw [hcreate.1, (htasks _).1, hlen]

end OpenvasTool
