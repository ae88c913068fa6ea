import OpenvasTool.Alphabets
import OpenvasTool.Gvm.Consistency
import OpenvasTool.Records
import Mathlib.Data.Bool.AllAny

/-!
# The task file

Rendering the tasks of the create queue and loading the text into an empty store
gives the same tasks in the same order.
-/

namespace OpenvasTool

open Posix Posix.Regex Support

/-! ### Stored tasks -/

/-- A task whose fields passed the checks of a request and came from gvmd and the clock. -/
structure StorableTask (t : ListGvmTask) : Prop where
  taskName : chkName t.taskInfo.taskName.text = true
  configInfo : chkConfigInfo t.taskInfo.groupId.text t.taskInfo.groupName.text = true
  hosts : chkHosts t.targetInfo.hosts.text = true
  scheduleType : 0 ≤ t.taskInfo.scheduleType ∧ t.taskInfo.scheduleType ≤ 4
  schedule : chkScheduleParam t.taskInfo.scheduleType t.taskInfo.firstScheduleTime.text
    t.taskInfo.scheduleList.text = true
  taskId : chkUuid t.taskInfo.taskId.text = true
  configId : chkUuid t.taskInfo.configId.text = true
  targetId : chkUuid t.targetInfo.targetId.text = true
  portlistId : chkUuid t.targetInfo.portlistId.text = true
  scheduleId : t.taskInfo.scheduleId.text = [] ∨ chkUuid t.taskInfo.scheduleId.text = true
  createTime : chkTimeStamp t.taskInfo.createTime.text = true

/-! ### Created tasks -/

/-- A task whose fields passed the checks of a create request. -/
structure CheckedTask (t : ListGvmTask) : Prop where
  taskName : chkName t.taskInfo.taskName.text = true
  configInfo : chkConfigInfo t.taskInfo.groupId.text t.taskInfo.groupName.text = true
  hosts : chkHosts t.targetInfo.hosts.text = true
  scheduleType : 0 ≤ t.taskInfo.scheduleType ∧ t.taskInfo.scheduleType ≤ 4
  schedule : chkScheduleParam t.taskInfo.scheduleType t.taskInfo.firstScheduleTime.text
    t.taskInfo.scheduleList.text = true

theorem CheckedTask.congr {t u : ListGvmTask} (h : CheckedTask t) (hinfo : u.taskInfo = t.taskInfo)
    (htarget : u.targetInfo = t.targetInfo) : CheckedTask u :=
  ⟨hinfo ▸ h.taskName, hinfo ▸ h.configInfo, htarget ▸ h.hosts, hinfo ▸ h.scheduleType,
    hinfo ▸ h.schedule⟩

/-- The schedule that was created has a known type. -/
theorem gvmOptionCreateSchedule_type {env : Env} {info : GvmTaskInfo}
    (h : (gvmOptionCreateSchedule env info).val.1 = true) :
    0 ≤ info.scheduleType ∧ info.scheduleType ≤ 4 := by
  unfold gvmOptionCreateSchedule at h
  dsimp only at h
  split at h
  · rename_i hnone
    simp [show info.scheduleType = 0 from hnone]
  · by_contra hrange
    have hrule : ∀ list, scheduleRule info.scheduleType list = none := by
      intro list
      have hunknown : info.scheduleType ≠ icalDateOnce ∧ info.scheduleType ≠ icalDateDaily ∧
          info.scheduleType ≠ icalDateWeekly ∧ info.scheduleType ≠ icalDateMonthly := by
        simp only [icalDateOnce, icalDateDaily, icalDateWeekly, icalDateMonthly]
        omega
      simp [scheduleRule, hunknown]
    split at h
    · simp at h
    · simp [gvmCreateSchedule, hrule] at h

theorem createTaskObjects_type {env : Env} {t : ListGvmTask}
    (h : (createTaskObjects env t).val.1 = true) :
    0 ≤ t.taskInfo.scheduleType ∧ t.taskInfo.scheduleType ≤ 4 := by
  unfold createTaskObjects at h
  rw [Sent.andThen_val] at h
  split at h
  · simp at h
  rw [Sent.andThen_val] at h
  split at h
  · rename_i hschedule
    exact gvmOptionCreateSchedule_type hschedule
  · simp at h

theorem scheduleId_gvmOptionCreateSchedule (env : Env) (info : GvmTaskInfo) :
    (gvmOptionCreateSchedule env info).val.2.scheduleId.text = [] ∨
      chkUuid (gvmOptionCreateSchedule env info).val.2.scheduleId.text = true := by
  unfold gvmOptionCreateSchedule
  dsimp only
  split
  · exact Or.inl rfl
  split
  · exact Or.inl rfl
  rw [Sent.andThen_val]
  split
  · exact Or.inl rfl
  · rename_i id hid
    unfold gvmCreateSchedule at hid
    split at hid
    · exact Or.inr (chkUuid_createCommand hid)
    · simp at hid

theorem scheduleId_gvmOptionCreateConfig (env : Env) (info : GvmTaskInfo) :
    (gvmOptionCreateConfig env info).val.2.scheduleId = info.scheduleId := by
  unfold gvmOptionCreateConfig
  split
  · rfl
  · rw [Sent.andThen_val]
    split <;> rfl

/-- A task is only created for valid identifiers. -/
theorem chkUuid_of_gvmCreateTask {env : Env} {name target config schedule : Text}
    {id : CStr maxUuidSize} (h : (gvmCreateTask env name target config schedule).val = some id) :
    chkUuid target = true ∧ chkUuid config = true := by
  unfold gvmCreateTask at h
  split at h
  · rename_i hchk
    simp only [Bool.and_eq_true] at hchk
    exact hchk.1
  · simp at h

/-- The identifiers of a complete task. -/
theorem createTaskObjects_ids {env : Env} {t : ListGvmTask}
    (h : (createTaskObjects env t).val.1 = true) :
    chkUuid (createTaskObjects env t).val.2.taskInfo.configId.text = true ∧
      chkUuid (createTaskObjects env t).val.2.targetInfo.targetId.text = true ∧
      ((createTaskObjects env t).val.2.taskInfo.scheduleId.text = [] ∨
        chkUuid (createTaskObjects env t).val.2.taskInfo.scheduleId.text = true) := by
  unfold createTaskObjects at h ⊢
  rw [Sent.andThen_val] at h ⊢
  split at h
  · simp at h
  rw [Sent.andThen_val] at h ⊢
  split at h
  swap
  · simp at h
  rename_i hschedule
  rw [if_pos hschedule]
  rw [Sent.andThen_val] at h ⊢
  split at h
  swap
  · simp at h
  rename_i hconfig
  rw [if_pos hconfig]
  rw [Sent.andThen_val] at h ⊢
  split at h
  · simp at h
  rename_i taskId htask
  have hchk := chkUuid_of_gvmCreateTask htask
  refine ⟨hchk.2, hchk.1, ?_⟩
  have hid := scheduleId_gvmOptionCreateSchedule env t.taskInfo
  have hkeep := scheduleId_gvmOptionCreateConfig env (gvmOptionCreateSchedule env t.taskInfo).val.2
  exact (congrArg (fun id : CStr maxUuidSize => id.text = [] ∨ chkUuid id.text = true) hkeep) ▸ hid

/-- What the checks of a create request say about the task that is stored. -/
theorem checked_createdTask {env : Env} {input : Text} {task : ListGvmTask}
    (hparam : getCreateTaskParam input = some task)
    (hok : (createTaskObjects env task).val.1 = true) :
    CheckedTask (stampTask env (createTaskObjects env task).val.2) := by
  have htype := createTaskObjects_type hok
  have hchecked : CheckedTask task.withoutObjects := by
    simp only [getCreateTaskParam, Option.bind_eq_bind, Option.bind_eq_some_iff] at hparam
    obtain ⟨_, _, _, _, _, _, _, _, _, _, _, _, _, _, hparam⟩ := hparam
    split at hparam
    · rename_i hchk
      simp only [Bool.and_eq_true] at hchk
      obtain rfl := Option.some.inj hparam
      exact ⟨hchk.1.1.1, hchk.1.1.2, hchk.1.2, htype, hchk.2⟩
    · simp at hparam
  rw [← withoutObjects_createTaskObjects env task] at hchecked
  exact ⟨hchecked.taskName, hchecked.configInfo, hchecked.hosts, hchecked.scheduleType,
    hchecked.schedule⟩

/-- The task of a successful request can be stored when the clock can be read. -/
theorem storable_createdTask {env : Env} {input : Text} {task : ListGvmTask}
    (hparam : getCreateTaskParam input = some task)
    (hok : (createTaskObjects env task).val.1 = true)
    (hnow : chkTimeStamp env.nowTimeStamp.text = true) :
    StorableTask (stampTask env (createTaskObjects env task).val.2) := by
  have hchecked := checked_createdTask hparam hok
  obtain ⟨hconfigId, htargetId, hscheduleId⟩ := createTaskObjects_ids hok
  have hportlistId : (createTaskObjects env task).val.2.targetInfo.portlistId =
      defOpenvasPortListId := by
    have hsame : (createTaskObjects env task).val.2.targetInfo.portlistId =
        task.targetInfo.portlistId :=
      congrArg (fun u => u.targetInfo.portlistId) (withoutObjects_createTaskObjects env task)
    rw [hsame]
    simp only [getCreateTaskParam, Option.bind_eq_bind, Option.bind_eq_some_iff] at hparam
    obtain ⟨_, _, _, _, _, _, _, _, _, _, _, _, _, _, hparam⟩ := hparam
    split at hparam
    · obtain rfl := Option.some.inj hparam
      rfl
    · simp at hparam
  have hportlist : chkUuid (createTaskObjects env task).val.2.targetInfo.portlistId.text = true := by
    rw [hportlistId]
    decide +kernel
  exact ⟨hchecked.taskName, hchecked.configInfo, hchecked.hosts, hchecked.scheduleType,
    hchecked.schedule, chkUuid_createTaskObjects hok, hconfigId, htargetId, hportlist, hscheduleId,
    hnow⟩

/-- What the task file keeps of a task. -/
def ListGvmTask.persisted (t : ListGvmTask) : ListGvmTask where
  taskInfo := { t.taskInfo with modifyTime := .copy t.taskInfo.createTime }
  targetInfo := { t.targetInfo with targetName := .copy t.taskInfo.taskName }

/-- The keys of the task file. -/
def taskKeys : List Text :=
  ["task_id".toList, "task_name".toList, "group_id".toList, "group_name".toList,
    "config_id".toList, "config_created".toList, "target_id".toList, "portlist_id".toList,
    "hosts".toList, "schedule_type".toList, "schedule_id".toList, "schedule_created".toList,
    "schedule_time".toList, "schedule_list".toList, "create_time".toList]

/-- The characters that no value of the task file contains. -/
def fileSpecial : List Char := ['\\', '\'', '\x60', '\x22', '\n']

theorem mem_customCommPattern_of {text : Text} (h : ∀ c ∈ text, c ∉ fileSpecial) :
    text ∈ customCommPattern.lang ∧ '\n' ∉ text := by
  refine ⟨mem_customCommPattern fun c hc => ?_, fun hnl => h _ hnl (by decide)⟩
  have hnot := h c hc
  simp only [fileSpecial, List.mem_cons, List.not_mem_nil, or_false, not_or] at hnot
  simp [customCommExcluded, hnot]

/-- The checks of a request keep the values on their lines. -/
theorem CheckedTask.cleanField {t : ListGvmTask} (h : CheckedTask t)
    (hids : '\n' ∉ t.taskInfo.taskId.text ∧ '\n' ∉ t.taskInfo.configId.text ∧
      '\n' ∉ t.targetInfo.targetId.text ∧ '\n' ∉ t.targetInfo.portlistId.text ∧
      '\n' ∉ t.taskInfo.scheduleId.text)
    (hcreate : '\n' ∉ t.taskInfo.createTime.text) : ∀ f ∈ taskFields t, CleanField f := by
  have hnl : ∀ {text : Text}, (∀ c ∈ text, c ≠ '\n') → '\n' ∉ text :=
    fun htext hmem => htext _ hmem rfl
  have hdigit : ∀ c : Char, c.isDigit = true → c ≠ '\n' := by
    rintro c hc rfl
    exact absurd hc (by decide)
  have hflag : ∀ b : Bool, '\n' ∉ decimal b.toNat := by
    intro b
    cases b <;> decide
  have hexcluded : ∀ c, gvmNameExcluded c = false → c ≠ '\n' := by
    rintro c hc rfl
    exact absurd hc (by decide)
  have hxdigit : ∀ c, isxdigit c = true → c ≠ '\n' := by
    rintro c hc rfl
    exact absurd hc (by decide)
  have hupper : ∀ c : Char, c.isUpper = true → c ≠ '\n' := by
    rintro c hc rfl
    exact absurd hc (by decide)
  have hgroup := forall_of_chkConfigInfo h.configInfo hxdigit (by decide) (by decide) hexcluded
  have htimes := forall_of_chkScheduleParam h.schedule h.scheduleType.1 h.scheduleType.2 hdigit hupper
    (List.all_iff_forall_prop.mp (by decide))
  have hhosts := forall_of_chkHosts h.hosts hdigit (List.all_iff_forall_prop.mp (by decide))
  obtain ⟨htaskId, hconfigId, htargetId, hportlistId, hscheduleId⟩ := hids
  apply cleanField_of_keys
  · show ∀ key ∈ taskKeys, key ≠ [] ∧ '=' ∉ key ∧ '\n' ∉ key
    decide
  · simp only [taskFields, List.map_cons, List.map_nil, List.forall_mem_cons]
    exact ⟨htaskId, hnl (forall_of_chkName h.taskName hexcluded), hnl hgroup.1, hnl hgroup.2, hconfigId,
      hflag _, htargetId, hportlistId, hnl hhosts, newline_not_mem_decimal _, hscheduleId, hflag _,
      hnl htimes.1, hnl htimes.2, hcreate, by simp⟩

namespace StorableTask

variable {t : ListGvmTask} (h : StorableTask t)

include h

theorem checked : CheckedTask t :=
  ⟨h.taskName, h.configInfo, h.hosts, h.scheduleType, h.schedule⟩

theorem fileChars_groups : (∀ c ∈ t.taskInfo.groupId.text, c ∉ fileSpecial) ∧
    ∀ c ∈ t.taskInfo.groupName.text, c ∉ fileSpecial :=
  forall_of_chkConfigInfo h.configInfo (fun _ => not_mem_of_all (by decide)) (by decide) (by decide)
    fun _ => not_mem_of_all_false (by decide)

theorem fileChars_hosts : ∀ c ∈ t.targetInfo.hosts.text, c ∉ fileSpecial :=
  forall_of_chkHosts h.hosts (fun _ => not_mem_of_all (by decide)) (by simp [fileSpecial])

theorem fileChars_schedule : (∀ c ∈ t.taskInfo.firstScheduleTime.text, c ∉ fileSpecial) ∧
    ∀ c ∈ t.taskInfo.scheduleList.text, c ∉ fileSpecial :=
  forall_of_chkScheduleParam h.schedule h.scheduleType.1 h.scheduleType.2
    (fun _ => not_mem_of_all (by decide)) (fun _ => not_mem_of_all (by decide))
    (by simp [fileSpecial])

/-- No value of the task file contains a newline. -/
theorem cleanField : ∀ f ∈ taskFields t, CleanField f := by
  have hid : ∀ {id : Text}, chkUuid id = true → '\n' ∉ id :=
    fun hchk => (mem_uuidRegPattern (chkUuid_iff.mp hchk)).2
  have hscheduleId : '\n' ∉ t.taskInfo.scheduleId.text := by
    rcases h.scheduleId with hnil | hchk
    · simp [hnil]
    · exact hid hchk
  exact h.checked.cleanField
    ⟨hid h.taskId, hid h.configId, hid h.targetId, hid h.portlistId, hscheduleId⟩
    (newline_not_mem_timeStamp (chkTimeStamp_iff.mp h.createTime))

end StorableTask

theorem nulFree_taskFields (t : ListGvmTask) : '\x00' ∉ renderRecord (taskFields t) := by
  apply nulFree_renderRecord
  · show ∀ key ∈ taskKeys, '\x00' ∉ key
    decide
  · have hdecimal := nul_not_mem_decimal
    simp only [taskFields, List.map_cons, List.map_nil, List.forall_mem_cons]
    exact ⟨CStr.nulFree _, CStr.nulFree _, CStr.nulFree _, CStr.nulFree _, CStr.nulFree _,
      hdecimal _, CStr.nulFree _, CStr.nulFree _, CStr.nulFree _, hdecimal _, CStr.nulFree _,
      hdecimal _, CStr.nulFree _, CStr.nulFree _, CStr.nulFree _, by simp⟩

/-! ### One record -/

theorem ne_quote_of {q : Char → Bool} (h : q '\x22' = false) : ∀ c, q c = true → c ≠ '\x22' := by
  rintro c hc rfl
  simp [h] at hc

/-- A text value is read back. -/
theorem StorableTask.getPatternKey {t : ListGvmTask} (h : StorableTask t) {key : Text} {r : Regex}
    {n : ℕ} {val : CStr n} (hkey : '=' ∉ key)
    (hlookup : (taskFields t).lookup key = some val.text) (hquote : r.Over (· ≠ '\x22'))
    (hval : val.text ∈ r.lang) :
    OpenvasTool.getPatternKey (keyLines (taskFields t)) key r n = some val := by
  have hread := getPatternKey_keyLines (n := n) h.cleanField hkey hlookup hquote hval []
  rw [List.append_nil, CStr.ofText_text] at hread
  exact hread

/-- An integer value is read back. -/
theorem StorableTask.getPatternKeyInt {t : ListGvmTask} (h : StorableTask t) {key : Text}
    {r : Regex} {n : ℕ} (hkey : '=' ∉ key)
    (hlookup : (taskFields t).lookup key = some (decimal n)) (hquote : r.Over (· ≠ '\x22'))
    (hval : decimal n ∈ r.lang) (hn : n < 1000) :
    OpenvasTool.getPatternKeyInt (keyLines (taskFields t)) key r = some (n : ℤ) := by
  have hread := getPatternKeyInt_keyLines h.cleanField hkey hlookup hquote hval hn []
  rwa [List.append_nil] at hread

theorem StorableTask.flag {t : ListGvmTask} (h : StorableTask t) {key : Text} {b : Bool}
    (hkey : '=' ∉ key) (hlookup : (taskFields t).lookup key = some (decimal b.toNat)) :
    OpenvasTool.getPatternKeyInt (keyLines (taskFields t)) key customOnOffPattern =
      some (b.toNat : ℤ) := by
  refine h.getPatternKeyInt hkey hlookup (ne_quote_of (by decide)) ?_ ?_
  · rw [← Regex.accepts_iff]
    cases b <;> decide
  · cases b <;> decide

/-- The record of a task is read back. -/
theorem StorableTask.parseTaskFields {t : ListGvmTask} (h : StorableTask t) :
    OpenvasTool.parseTaskFields (keyLines (taskFields t)) = some t.persisted := by
  have huuid : uuidRegPattern.Over (· ≠ '\x22') :=
    over_uuidRegPattern (ne_quote_of (by decide)) (by decide)
  have htime : customTimeStampPattern.Over (· ≠ '\x22') :=
    over_customTimeStampPattern (ne_quote_of (by decide)) (by simp)
  have hcomm : customCommPattern.Over (· ≠ '\x22') := by
    rintro c hc rfl
    exact absurd hc (by decide)
  have hname : gvmNamePattern.Over (· ≠ '\x22') := by
    rintro c hc rfl
    exact absurd hc (by decide)
  have hscheduleId : t.taskInfo.scheduleId.text ∈ (customMatchOrNull uuidRegPattern).lang :=
    mem_lang_opt.mpr (h.scheduleId.imp id chkUuid_iff.mp)
  obtain ⟨n, hn, htype⟩ : ∃ n : ℕ, n < 5 ∧ t.taskInfo.scheduleType = n := by
    obtain ⟨hlow, hhigh⟩ := h.scheduleType
    exact ⟨t.taskInfo.scheduleType.toNat, by omega, by omega⟩
  have hdigit : decimal n ∈ customScheduleTypePattern.lang := by
    rw [← Regex.accepts_iff]
    interval_cases n <;> decide
  have htaskId : OpenvasTool.getPatternKey (keyLines (taskFields t)) "task_id".toList uuidRegPattern
      maxUuidSize = some t.taskInfo.taskId := h.getPatternKey (by decide) rfl huuid (chkUuid_iff.mp h.taskId)
  have htaskName : OpenvasTool.getPatternKey (keyLines (taskFields t)) "task_name".toList gvmNamePattern
      maxNameSize = some t.taskInfo.taskName := h.getPatternKey (by decide) rfl hname (chkName_iff.mp h.taskName)
  have hgroupId : OpenvasTool.getPatternKey (keyLines (taskFields t)) "group_id".toList customCommPattern
      maxMemListSize = some t.taskInfo.groupId := h.getPatternKey (by decide) rfl hcomm (mem_customCommPattern_of h.fileChars_groups.1).1
  have hgroupName : OpenvasTool.getPatternKey (keyLines (taskFields t)) "group_name".toList customCommPattern
      maxMemListSize = some t.taskInfo.groupName := h.getPatternKey (by decide) rfl hcomm (mem_customCommPattern_of h.fileChars_groups.2).1
  have hconfigId : OpenvasTool.getPatternKey (keyLines (taskFields t)) "config_id".toList uuidRegPattern
      maxUuidSize = some t.taskInfo.configId := h.getPatternKey (by decide) rfl huuid (chkUuid_iff.mp h.configId)
  have hconfigCreated : OpenvasTool.getPatternKeyInt (keyLines (taskFields t))
      "config_created".toList customOnOffPattern = some (t.taskInfo.configCreated.toNat : ℤ) :=
    h.flag (by decide) rfl
  have htargetId : OpenvasTool.getPatternKey (keyLines (taskFields t)) "target_id".toList uuidRegPattern
      maxUuidSize = some t.targetInfo.targetId := h.getPatternKey (by decide) rfl huuid (chkUuid_iff.mp h.targetId)
  have hportlistId : OpenvasTool.getPatternKey (keyLines (taskFields t)) "portlist_id".toList uuidRegPattern
      maxUuidSize = some t.targetInfo.portlistId := h.getPatternKey (by decide) rfl huuid (chkUuid_iff.mp h.portlistId)
  have hhosts : OpenvasTool.getPatternKey (keyLines (taskFields t)) "hosts".toList customCommPattern
      maxMemListSize = some t.targetInfo.hosts := h.getPatternKey (by decide) rfl hcomm (mem_customCommPattern_of h.fileChars_hosts).1
  have hscheduleType : OpenvasTool.getPatternKeyInt (keyLines (taskFields t))
      "schedule_type".toList customScheduleTypePattern = some t.taskInfo.scheduleType := by
    have hlookup : (taskFields t).lookup "schedule_type".toList =
        some (decimal t.taskInfo.scheduleType) := rfl
    rw [htype] at hlookup ⊢
    exact h.getPatternKeyInt (by decide) hlookup (ne_quote_of (by decide)) hdigit (by omega)
  have hid : OpenvasTool.getPatternKey (keyLines (taskFields t)) "schedule_id".toList (customMatchOrNull uuidRegPattern)
      maxUuidSize = some t.taskInfo.scheduleId := h.getPatternKey (by decide) rfl huuid hscheduleId
  have hscheduleCreated : OpenvasTool.getPatternKeyInt (keyLines (taskFields t))
      "schedule_created".toList customOnOffPattern = some (t.taskInfo.scheduleCreated.toNat : ℤ) :=
    h.flag (by decide) rfl
  have hscheduleTime : OpenvasTool.getPatternKey (keyLines (taskFields t)) "schedule_time".toList (customMatchOrNull customTimeStampPattern)
      maxTimestampSize = some t.taskInfo.firstScheduleTime := h.getPatternKey (by decide) rfl htime (chkScheduleParam_time h.schedule)
  have hscheduleList : OpenvasTool.getPatternKey (keyLines (taskFields t)) "schedule_list".toList customCommPattern
      maxScheduleListSize = some t.taskInfo.scheduleList := h.getPatternKey (by decide) rfl hcomm (mem_customCommPattern_of h.fileChars_schedule.2).1
  have hcreateTime : OpenvasTool.getPatternKey (keyLines (taskFields t)) "create_time".toList customTimeStampPattern
      maxTimestampSize = some t.taskInfo.createTime := h.getPatternKey (by decide) rfl htime (chkTimeStamp_iff.mp h.createTime)
  have hflag : ∀ b : Bool, ((b.toNat : ℤ) != 0) = b := by
    intro b
    cases b <;> rfl
  unfold OpenvasTool.parseTaskFields
  simp only [htaskId, htaskName, hgroupId, hgroupName, hconfigId, hconfigCreated, htargetId,
    hportlistId, hhosts, hscheduleType, hid, hscheduleCreated, hscheduleTime, hscheduleList,
    hcreateTime, Option.bind_eq_bind, Option.bind_some, h.hosts, h.schedule, hflag, Bool.not_true]
  rfl

/-! ### The whole file -/

/-- All allocations of the start succeed. -/
structure BootEnv.Memory (env : BootEnv) : Prop where
  alloc : ∀ i, env.alloc i = true
  realloc : ∀ i, env.realloc i = true

/-- Tasks as the create queue holds them: storable, with distinct names and ordered by their
creation time. -/
structure TaskList (ts : List ListGvmTask) : Prop where
  storable : ∀ t ∈ ts, StorableTask t
  names : ts.Pairwise fun t u => t.taskInfo.taskName ≠ u.taskInfo.taskName
  sorted : ts.Pairwise fun t u => cmpGvmCreateTime t u ≤ 0

namespace World.Indexed

variable {w : World} (h : w.Indexed)

include h

/-- The record of a task with a new name and a late creation time goes to the end of the queue. -/
theorem loadRecord_storable {env : BootEnv} (henv : env.Memory) {t : ListGvmTask}
    (ht : StorableTask t)
    (hname : ∀ p ∈ w.data.nameset.data, (w.task p).taskInfo.taskName ≠ t.taskInfo.taskName)
    (hlast : ∀ p ∈ w.data.createque.items, cmpGvmCreateTime (w.task p) t ≤ 0) (i : ℕ) :
    ∃ w', OpenvasTool.loadRecord env w (i, keyLines (taskFields t)) = some w' ∧ w'.Indexed ∧
      w'.data.createque.items = w.data.createque.items ++ [w.next] ∧
      (∀ p ∈ w.data.createque.items, w'.task p = w.task p) ∧ w'.task w.next = t.persisted := by
  have hload : OpenvasTool.loadRecord env w (i, keyLines (taskFields t)) =
      (w.newTask t.persisted).2.addGvmTask (env.realloc i) (w.newTask t.persisted).1 := by
    unfold OpenvasTool.loadRecord
    rw [if_pos (henv.alloc i), ht.parseTaskFields, Option.bind_some]
  have hsome : ((w.newTask t.persisted).2.addGvmTask (env.realloc i)
      (w.newTask t.persisted).1).isSome := by
    unfold World.addGvmTask
    rw [Option.isSome_map]
    exact ListSet.addToSet_isSome (Or.inl (henv.realloc i))
  obtain ⟨w', hw'⟩ := Option.isSome_iff_exists.mp hsome
  have hw := hload.trans hw'
  obtain ⟨u, hu, hidx, hstored, hmem, _, _⟩ := h.loadRecord (fun name hread => by
    have hread' := (parseTaskFields_spec ht.parseTaskFields).1
    obtain rfl := Option.some.inj (hread'.symm.trans hread)
    exact hname) hw
  obtain rfl := Option.some.inj (ht.parseTaskFields.symm.trans hu)
  have htask : ∀ p ∈ w.data.createque.items, w'.task p = w.task p := by
    intro p hp
    have hold := (h.create_iff p).mp hp
    have hne : p ≠ w.next := (h.lt_next hold).ne
    have hp' := hidx.stored_task ((hmem p).mpr (Or.inr hold))
    rw [hstored, Function.update_of_ne hne, h.stored_task hold] at hp'
    exact (Option.some.inj hp').symm
  refine ⟨w', hw, hidx, ?_, htask, ?_⟩
  · obtain ⟨s, _, rfl⟩ := Option.map_eq_some_iff.mp hw'
    refine insertLast_eq_append fun q hq => ?_
    have hne : q ≠ w.next := (h.lt_next ((h.create_iff q).mp hq)).ne
    have hself : (w.newTask t.persisted).2.task (w.newTask t.persisted).1 = t.persisted :=
      World.task_setTask_self w w.next _
    have hq' : (w.newTask t.persisted).2.task q = w.task q := by
      have hset := World.task_setTask w w.next q t.persisted
      rwa [if_neg hne] at hset
    rw [hself, hq']
    exact hlast q hq
  · apply World.task_of_stored
    rw [hstored, Function.update_self]

/-- The records of a list of tasks are loaded behind the tasks that are there. -/
theorem loadRecords_storable {env : BootEnv} (henv : env.Memory) {ts : List ListGvmTask}
    (hts : TaskList ts)
    (hnames : ∀ t ∈ ts, ∀ p ∈ w.data.nameset.data,
      (w.task p).taskInfo.taskName ≠ t.taskInfo.taskName)
    (hlast : ∀ t ∈ ts, ∀ p ∈ w.data.createque.items, cmpGvmCreateTime (w.task p) t ≤ 0) (k : ℕ) :
    ∃ w', (((ts.map fun t => keyLines (taskFields t)).zipIdx k).map Prod.swap).foldlM
        (OpenvasTool.loadRecord env) w = some w' ∧ w'.Indexed ∧
      w'.data.createque.items.map w'.task =
        w.data.createque.items.map w.task ++ ts.map ListGvmTask.persisted := by
  induction ts generalizing w k with
  | nil => exact ⟨w, rfl, h, by simp⟩
  | cons t ts ih =>
    obtain ⟨hstorable, hnames', hsorted⟩ := hts
    obtain ⟨hname, hnames'⟩ := List.pairwise_cons.mp hnames'
    obtain ⟨hfirst, hsorted⟩ := List.pairwise_cons.mp hsorted
    obtain ⟨w1, hw1, hidx, hitems, hold, hnew⟩ := h.loadRecord_storable henv
      (hstorable t (by simp)) (hnames t (by simp)) (hlast t (by simp)) k
    have htasks : w1.data.createque.items.map w1.task =
        w.data.createque.items.map w.task ++ [t.persisted] := by
      rw [hitems, List.map_append, List.map_congr_left hold, List.map_singleton, hnew]
    -- the tasks of the queue after the first record
    have hmem : ∀ p ∈ w1.data.createque.items,
        (p ∈ w.data.createque.items ∧ w1.task p = w.task p) ∨ w1.task p = t.persisted := by
      intro p hp
      rw [hitems, List.mem_append, List.mem_singleton] at hp
      rcases hp with hp | rfl
      · exact Or.inl ⟨hp, hold p hp⟩
      · exact Or.inr hnew
    have hrest : ∃ w', (((ts.map fun t => keyLines (taskFields t)).zipIdx (k + 1)).map
        Prod.swap).foldlM (OpenvasTool.loadRecord env) w1 = some w' ∧ w'.Indexed ∧
        w'.data.createque.items.map w'.task =
          w1.data.createque.items.map w1.task ++ ts.map ListGvmTask.persisted := by
      apply ih hidx ⟨fun u hu => hstorable u (by simp [hu]), hnames', hsorted⟩
      · intro u hu p hp
        rcases hmem p ((hidx.create_iff p).mpr hp) with ⟨hpw, heq⟩ | heq
        · rw [heq]
          exact hnames u (by simp [hu]) p ((h.create_iff p).mp hpw)
        · rw [heq]
          exact hname u hu
      · intro u hu p hp
        rcases hmem p hp with ⟨hpw, heq⟩ | heq
        · rw [heq]
          exact hlast u (by simp [hu]) p hpw
        · rw [heq]
          exact hfirst u hu
    obtain ⟨w', hw', hidx', hmap⟩ := hrest
    refine ⟨w', ?_, hidx', ?_⟩
    · rw [List.map_cons, List.zipIdx_cons, List.map_cons, List.foldlM_cons]
      exact Option.bind_eq_some_iff.mpr ⟨w1, hw1, hw'⟩
    · rw [hmap, htasks, List.append_assoc, List.map_cons]
      rfl

end World.Indexed

/-- The text of the task file. -/
def taskFileText (ts : List ListGvmTask) : Text := ts.flatMap fun t => renderRecord (taskFields t)

/-- The tasks of the create queue. -/
def World.tasks (w : World) : List ListGvmTask := w.data.createque.items.map w.task

/-- A written text is as long as all records together. -/
theorem length_writeTaskRecords {capacity : ℕ} {ts : List ListGvmTask} {content : Text}
    (h : writeTaskRecords capacity ts = some content) :
    content.length = (taskFileText ts).length := by
  have hrecs : (ts.map fun t => renderRecord (taskFields t)).foldlM (writeRecord capacity) [] =
      some content := by
    rw [List.foldlM_map]
    exact h
  rw [length_foldlM_writeRecord hrecs, List.length_nil, Nat.zero_add, taskFileText,
    List.flatMap_def]

/-- With enough room all records are written one after the other. -/
theorem writeTaskRecords_eq {capacity : ℕ} {ts : List ListGvmTask}
    (hroom : (taskFileText ts).length < intOfSize capacity) :
    writeTaskRecords capacity ts = some (taskFileText ts) := by
  have hflat : (ts.map fun t => renderRecord (taskFields t)).flatten = taskFileText ts :=
    List.flatMap_def.symm
  have hne : ∀ r ∈ ts.map fun t => renderRecord (taskFields t), r ≠ [] := by
    intro r hr
    obtain ⟨t, _, rfl⟩ := List.mem_map.mp hr
    exact renderRecord_ne_nil _
  have hroom' : ((([] : Text).length +
      (ts.map fun t => renderRecord (taskFields t)).flatten.length : ℕ) : ℤ) <
      intOfSize capacity := by
    rw [hflat, List.length_nil, Nat.zero_add]
    exact hroom
  have hwrite := foldlM_writeRecord hne hroom'
  rw [hflat, List.nil_append, List.foldlM_map] at hwrite
  exact hwrite

theorem records_taskFileText {ts : List ListGvmTask} (hts : ∀ t ∈ ts, StorableTask t) :
    records (taskFileText ts) = ts.map fun t => keyLines (taskFields t) := by
  have hread : records ((ts.map taskFields).flatMap renderRecord) =
      (ts.map taskFields).map keyLines := by
    apply records_renderRecords
    · intro fields hfields
      obtain ⟨t, ht, rfl⟩ := List.mem_map.mp hfields
      exact (hts t ht).cleanField
    · intro fields hfields
      obtain ⟨t, _, rfl⟩ := List.mem_map.mp hfields
      exact nulFree_taskFields t
  rw [List.flatMap_map, List.map_map] at hread
  exact hread

/-- The text of a list of tasks is parsed into an empty store. -/
theorem parseTaskRecord_taskFileText {env : BootEnv} (henv : env.Memory) {ts : List ListGvmTask}
    (hts : TaskList ts) (files : Files) :
    ∃ w, parseTaskRecord env (emptyWorld files) (taskFileText ts) = some w ∧ w.Indexed ∧
      w.data.createque.items.map w.task = ts.map ListGvmTask.persisted := by
  have hempty := World.indexed_emptyWorld files
  have hnone : ∀ p, p ∉ (emptyWorld files).data.nameset.data := by
    intro p
    simp [emptyWorld, ListSet.initListSet]
  obtain ⟨w, hw, hidx, hmap⟩ := hempty.loadRecords_storable henv hts
    (fun _ _ p hp => absurd hp (hnone p))
    (fun _ _ p hp => absurd ((hempty.create_iff p).mp hp) (hnone p)) 0
  refine ⟨w, ?_, hidx, ?_⟩
  · unfold parseTaskRecord
    rw [records_taskFileText hts.storable]
    exact hw
  · rw [hmap]
    rfl

/-- **The task file round trip.** The text that is written for a list of tasks is parsed into the
same tasks in the same order. -/
theorem parseTaskRecord_writeTaskRecords {env : BootEnv} (henv : env.Memory)
    {ts : List ListGvmTask} (hts : TaskList ts) {capacity : ℕ}
    (hroom : (taskFileText ts).length < intOfSize capacity) (files : Files) :
    ∃ text w, writeTaskRecords capacity ts = some text ∧
      parseTaskRecord env (emptyWorld files) text = some w ∧ w.Indexed ∧
      w.data.createque.items.map w.task = ts.map ListGvmTask.persisted := by
  obtain ⟨w, hw⟩ := parseTaskRecord_taskFileText henv hts files
  exact ⟨taskFileText ts, w, writeTaskRecords_eq hroom, hw⟩

/-- The task `scan` as the daemon stores it. -/
def sampleTask : ListGvmTask := (daemonRun (emptyWorld fun _ => none) sampleSteps).task 0

/-- A request to create the task `audit` with a weekly schedule. -/
def sampleWeeklyCreate : Text :=
  "audit\x01".toList ++ sampleUuid '4' ++
    "\x01Base\x0110.0.0.2,10.0.0.3\x013\x012024-05-06 22:00:00\x01MO,FR\x01".toList

/-- The step that serves the request, a day later. -/
def sampleWeeklyStep : Event × Env :=
  (.createTask sampleWeeklyCreate,
    { Env.smooth fun
        | .createTarget name hosts portlist =>
            some (createdRsp (.createTarget name hosts portlist) (sampleUuid '2'))
        | .createTask name target config schedule =>
            some (createdRsp (.createTask name target config schedule) (sampleUuid '1'))
        | .createSchedule name firstRun rule =>
            some (createdRsp (.createSchedule name firstRun rule) (sampleUuid '3'))
        | req => sampleGvmd req with
      now := some ⟨2024, 5, 2, 9, 15, 0⟩ })

/-- The task `audit` as the daemon stores it; it has other values than `scan` in all fields but two. -/
def sampleWeekly : ListGvmTask :=
  (daemonRun (emptyWorld fun _ => none)
    [(.validateGvmConn, .smooth sampleGvmd), sampleWeeklyStep]).task 0

theorem storableTask_iff {t : ListGvmTask} : StorableTask t ↔
    chkName t.taskInfo.taskName.text = true ∧
      chkConfigInfo t.taskInfo.groupId.text t.taskInfo.groupName.text = true ∧
      chkHosts t.targetInfo.hosts.text = true ∧
      (0 ≤ t.taskInfo.scheduleType ∧ t.taskInfo.scheduleType ≤ 4) ∧
      chkScheduleParam t.taskInfo.scheduleType t.taskInfo.firstScheduleTime.text
        t.taskInfo.scheduleList.text = true ∧
      chkUuid t.taskInfo.taskId.text = true ∧ chkUuid t.taskInfo.configId.text = true ∧
      chkUuid t.targetInfo.targetId.text = true ∧ chkUuid t.targetInfo.portlistId.text = true ∧
      (t.taskInfo.scheduleId.text = [] ∨ chkUuid t.taskInfo.scheduleId.text = true) ∧
      chkTimeStamp t.taskInfo.createTime.text = true := by
  constructor
  · exact fun h => ⟨h.taskName, h.configInfo, h.hosts, h.scheduleType, h.schedule, h.taskId,
      h.configId, h.targetId, h.portlistId, h.scheduleId, h.createTime⟩
  · rintro ⟨h1, h2, h3, h4, h5, h6, h7, h8, h9, h10, h11⟩
    exact ⟨h1, h2, h3, h4, h5, h6, h7, h8, h9, h10, h11⟩

theorem storable_sampleTask : StorableTask sampleTask :=
  storableTask_iff.mpr (by decide +kernel)

theorem storable_sampleWeekly : StorableTask sampleWeekly :=
  storableTask_iff.mpr (by decide +kernel)

/-- A task file of two tasks with different values. -/
theorem parseTaskRecord_writeTaskRecords_sampleTask : ∃ text w,
    writeTaskRecords maxCacheSize [sampleTask, sampleWeekly] = some text ∧
      parseTaskRecord .smooth (emptyWorld fun _ => none) text = some w ∧ w.Indexed ∧
      w.data.createque.items.map w.task =
        [sampleTask, sampleWeekly].map ListGvmTask.persisted := by
  have hchecks : sampleTask.taskInfo.taskName ≠ sampleWeekly.taskInfo.taskName ∧
      cmpGvmCreateTime sampleTask sampleWeekly ≤ 0 ∧
      (taskFileText [sampleTask, sampleWeekly]).length < maxCacheSize := by decide +kernel
  obtain ⟨hname, htime, hroom⟩ := hchecks
  have hlist : TaskList [sampleTask, sampleWeekly] :=
    ⟨by simp [storable_sampleTask, storable_sampleWeekly], by simp [hname], by simp [htime]⟩
  exact parseTaskRecord_writeTaskRecords ⟨fun _ => rfl, fun _ => rfl⟩ hlist
    (lt_intOfSize_maxCacheSize hroom) _

end OpenvasTool
