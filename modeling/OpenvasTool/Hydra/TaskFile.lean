import OpenvasTool.Gvm.TaskFile
import OpenvasTool.Hydra.Creation

/-!
# The hydra task file

Every field of a created hydra task is checked against a set of characters that
the reader of the task file accepts, except for the options. So the text that is
written for a list of tasks is read back exactly when their options have none of
the characters that the reader rejects.
-/

namespace OpenvasTool

open Posix Posix.Regex Support

/-! ### Stored tasks -/

/-- The part of a task that the task file keeps. -/
def ListHydraTask.saved (t : ListHydraTask) : ListHydraTask :=
  { t with modifyTime := .empty, loginList := .empty, passwdList := .empty, pid := 0 }

/-- A task that `daemon_create_hydra` can have stored: a successful request stored it, and later
only its process changed. -/
def CreatedHydra (t : ListHydraTask) : Prop :=
  ∃ env w input task, getCreateHydraParam env input = some task ∧
    (daemonCreateHydra env w input).code = .success ∧ t.saved = (stampHydra env task).saved

/-- The options have none of the characters that the reader rejects, and the clock gave a time
stamp. -/
structure ReadableHydra (t : ListHydraTask) : Prop where
  opts : ∀ c ∈ t.opts.text, c ∉ fileSpecial
  createTime : chkTimeStamp t.createTime.text = true

/-- A task whose fields passed the checks of a create request. -/
structure CheckedHydra (t : ListHydraTask) : Prop where
  taskId : chkUuid t.taskId.text = true
  taskName : chkName t.taskName.text = true
  hosts : chkHydraHostsIntern t.hostsType.toInt t.hosts.text = true
  services : chkServices t.services.text = true
  scheduleType : 0 ≤ t.scheduleType ∧ t.scheduleType ≤ 4
  schedule : chkScheduleParam t.scheduleType t.firstScheduleTime.text t.scheduleList.text = true

/-- The schedule type of a task with cron lines is one of the known types. -/
theorem cronLines_type {type : ℤ} {tm : Tm} {list user cmd : Text}
    (h : (cronLines type tm list user cmd).isSome) : 0 ≤ type ∧ type ≤ 4 := by
  by_contra hrange
  have hunknown : type ≠ icalDateOnce ∧ type ≠ icalDateDaily ∧ type ≠ icalDateWeekly ∧
      type ≠ icalDateMonthly := by
    simp only [icalDateOnce, icalDateDaily, icalDateWeekly, icalDateMonthly]
    omega
  simp [cronLines, hunknown] at h

/-- A successful request wrote the files of a schedule of a known type. -/
theorem daemonCreateHydra_type {env : HydraEnv} {w : HydraWorld} {input : Text}
    {task : ListHydraTask} (htask : getCreateHydraParam env input = some task)
    (hcode : (daemonCreateHydra env w input).code = .success) :
    0 ≤ task.scheduleType ∧ task.scheduleType ≤ 4 := by
  have hcron := daemonCreateHydra_cron htask hcode
  by_cases hnone : task.scheduleType = icalDateNone
  · simp [hnone]
  · obtain ⟨content, hformat, -⟩ := hcron hnone
    unfold formatCronTask at hformat
    split at hformat
    · obtain ⟨lines, hlines, _⟩ := Option.bind_eq_some_iff.mp hformat
      exact cronLines_type (Option.isSome_iff_exists.mpr ⟨lines, hlines⟩)
    · simp at hformat

/-- What the checks of a create request say about the task. -/
theorem getCreateHydraParam_checks {env : HydraEnv} {input : Text} {task : ListHydraTask}
    (h : getCreateHydraParam env input = some task) :
    chkUuid task.taskId.text = true ∧ chkName task.taskName.text = true ∧
      chkHydraHostsIntern task.hostsType.toInt task.hosts.text = true ∧
      chkServices task.services.text = true ∧
      chkScheduleParam task.scheduleType task.firstScheduleTime.text task.scheduleList.text =
        true := by
  unfold getCreateHydraParam at h
  iterate 10 obtain ⟨⟨_, _⟩, _, h⟩ := Option.bind_eq_some_iff.mp h
  dsimp only at h
  split at h
  swap
  · simp at h
  rename_i hchecks
  obtain ⟨hostsType, hhosts, h⟩ := Option.bind_eq_some_iff.mp h
  obtain rfl := Option.some.inj h
  simp only [Bool.and_eq_true] at hchecks
  obtain ⟨⟨⟨⟨⟨hname, hhost⟩, _⟩, _⟩, hservices⟩, hschedule⟩ := hchecks
  rw [← HostsType.toInt_of_ofInt hhosts] at hhost
  exact ⟨env.uuid.chkUuid_render, hname, hhost, hservices, hschedule⟩

/-- The checks only look at what the task file keeps. -/
theorem checkedHydra_saved {t : ListHydraTask} : CheckedHydra t.saved ↔ CheckedHydra t :=
  ⟨fun h => ⟨h.taskId, h.taskName, h.hosts, h.services, h.scheduleType, h.schedule⟩,
    fun h => ⟨h.taskId, h.taskName, h.hosts, h.services, h.scheduleType, h.schedule⟩⟩

theorem CreatedHydra.checked {t : ListHydraTask} (h : CreatedHydra t) : CheckedHydra t := by
  obtain ⟨env, w, input, task, htask, hcode, hsaved⟩ := h
  obtain ⟨hid, hname, hhosts, hservices, hschedule⟩ := getCreateHydraParam_checks htask
  have htype := daemonCreateHydra_type htask hcode
  rw [← checkedHydra_saved, hsaved, checkedHydra_saved]
  exact ⟨hid, hname, hhosts, hservices, htype, hschedule⟩

/-! ### The characters of the fields -/

theorem forall_of_chkHydraHostsIntern {p : Char → Prop} {type : ℤ} {hosts : Text}
    (h : chkHydraHostsIntern type hosts = true) (hdigit : ∀ c : Char, c.isDigit = true → p c)
    (hmarks : ∀ c ∈ ['.', '/', ':', ','], p c) : ∀ c ∈ hosts, p c := by
  have hcolon := hmarks ':' (by simp)
  have hdot := hmarks '.' (by simp)
  unfold chkHydraHostsIntern at h
  split at h
  · exact (over_customMatchOrRepeat (over_customHostOrPort (over_customIpPattern hdigit hdot) hdigit
      hcolon) (hmarks ',' (by simp))).all_mem (regmatch_wholeMatch.mp h)
  · split at h
    · exact (over_customHostOrPort (over_customIpBlock hdigit hdot (hmarks '/' (by simp))) hdigit
        hcolon).all_mem (regmatch_wholeMatch.mp h)
    · simp at h

/-- The characters of a list of services. -/
def serviceChar (c : Char) : Bool := c == '-' || c.isAlphanum || c == ','

theorem forall_of_chkServicesLoop {fuel : ℕ} {hasService : Bool} {text : Text}
    (h : chkServicesLoop fuel hasService text = true) : ∀ c ∈ text, serviceChar c = true := by
  induction fuel generalizing hasService text with
  | zero => simp [chkServicesLoop] at h
  | succ fuel ih =>
    have hlist : sysServiceList.all (fun service => service.all serviceChar) = true := by
      decide +kernel
    simp only [List.all_eq_true] at hlist
    unfold chkServicesLoop at h
    split at h
    · rename_i service rest hnext
      split at h
      · rename_i hservice
        have hrest := ih h
        intro c hc
        rcases (getNextToken_eq_ok hnext).2 with rfl | ⟨rfl, rfl⟩
        · rcases List.mem_append.mp hc with hc | hc
          · exact hlist _ hservice c hc
          · rcases List.mem_cons.mp hc with rfl | hc
            · decide
            · exact hrest c hc
        · exact hlist _ hservice c hc
      · simp at h
    · rename_i hnext
      rw [getNextToken_eq_empty hnext]
      simp
    · simp at h

/-- A list of services is a value of `CUSTOM_SERVICES_PATTERN`. -/
theorem mem_customServicesPattern {text : Text} (h : chkServices text = true) :
    text ∈ customServicesPattern.lang := by
  refine mem_lang_star.mpr ⟨text.map fun c => [c], ?_, ?_⟩
  · rw [← List.flatMap_def, List.flatMap_singleton']
  · intro y hy
    obtain ⟨c, hc, rfl⟩ := List.mem_map.mp hy
    exact ⟨c, forall_of_chkServicesLoop h c hc, rfl⟩

theorem fileChars_services {text : Text} (h : chkServices text = true) :
    ∀ c ∈ text, c ∉ fileSpecial := fun c hc =>
  not_mem_of_all (by decide) (forall_of_chkServicesLoop h c hc)

namespace CheckedHydra

variable {t : ListHydraTask} (h : CheckedHydra t)

include h

theorem fileChars_hosts : ∀ c ∈ t.hosts.text, c ∉ fileSpecial :=
  forall_of_chkHydraHostsIntern h.hosts (fun _ => not_mem_of_all (by decide)) (by simp [fileSpecial])

theorem fileChars_schedule : (∀ c ∈ t.firstScheduleTime.text, c ∉ fileSpecial) ∧
    ∀ c ∈ t.scheduleList.text, c ∉ fileSpecial :=
  forall_of_chkScheduleParam h.schedule h.scheduleType.1 h.scheduleType.2
    (fun _ => not_mem_of_all (by decide)) (fun _ => not_mem_of_all (by decide))
    (by simp [fileSpecial])

/-- No value of a readable task contains a newline. -/
theorem cleanField (hread : ReadableHydra t) : ∀ f ∈ hydraFields t, CleanField f := by
  have hnl : ∀ {text : Text}, (∀ c ∈ text, c ∉ fileSpecial) → '\n' ∉ text :=
    fun htext => (mem_customCommPattern_of htext).2
  have hname : ∀ c ∈ t.taskName.text, c ∉ fileSpecial :=
    forall_of_chkName h.taskName fun _ => not_mem_of_all_false (by decide)
  apply cleanField_of_keys
  · show ∀ key ∈ ["task_id".toList, "task_name".toList, "hosts_type".toList, "hosts".toList,
      "services".toList, "opts".toList, "schedule_type".toList, "schedule_time".toList,
      "schedule_list".toList, "create_time".toList], key ≠ [] ∧ '=' ∉ key ∧ '\n' ∉ key
    decide
  · simp only [hydraFields, List.map_cons, List.map_nil, List.forall_mem_cons]
    exact ⟨(mem_uuidRegPattern (chkUuid_iff.mp h.taskId)).2, hnl hname, newline_not_mem_decimal _,
      hnl h.fileChars_hosts, hnl (fileChars_services h.services), hnl hread.opts,
      newline_not_mem_decimal _, hnl h.fileChars_schedule.1, hnl h.fileChars_schedule.2,
      newline_not_mem_timeStamp (chkTimeStamp_iff.mp hread.createTime), by simp⟩

end CheckedHydra

theorem nulFree_hydraFields (t : ListHydraTask) : '\x00' ∉ renderRecord (hydraFields t) := by
  apply nulFree_renderRecord
  · show ∀ key ∈ ["task_id".toList, "task_name".toList, "hosts_type".toList, "hosts".toList,
      "services".toList, "opts".toList, "schedule_type".toList, "schedule_time".toList,
      "schedule_list".toList, "create_time".toList], '\x00' ∉ key
    decide
  · have hdecimal := nul_not_mem_decimal
    simp only [hydraFields, List.map_cons, List.map_nil, List.forall_mem_cons]
    exact ⟨CStr.nulFree _, CStr.nulFree _, hdecimal _, CStr.nulFree _, CStr.nulFree _,
      CStr.nulFree _, hdecimal _, CStr.nulFree _, CStr.nulFree _, CStr.nulFree _, by simp⟩

/-! ### One record -/

/-- The task that a record is read back as. -/
def ListHydraTask.loaded (t : ListHydraTask) : ListHydraTask :=
  { t.saved with modifyTime := .copy t.createTime }

section OneRecord

variable {t : ListHydraTask} (hclean : ∀ f ∈ hydraFields t, CleanField f)

include hclean

/-- A text value is read back. -/
theorem getPatternKey_hydraFields {key : Text} {r : Regex} {n : ℕ} {val : CStr n}
    (hkey : '=' ∉ key) (hlookup : (hydraFields t).lookup key = some val.text)
    (hquote : r.Over (· ≠ '\x22')) (hval : val.text ∈ r.lang) :
    getPatternKey (keyLines (hydraFields t)) key r n = some val := by
  have hread := getPatternKey_keyLines (n := n) hclean hkey hlookup hquote hval []
  rwa [List.append_nil, CStr.ofText_text] at hread

/-- A small number is read back. -/
theorem getPatternKeyInt_hydraFields {key : Text} {r : Regex} {v : ℤ} (hkey : '=' ∉ key)
    (hlookup : (hydraFields t).lookup key = some (decimal v)) (hquote : r.Over (· ≠ '\x22'))
    (hrange : 0 ≤ v ∧ v ≤ 4) (hval : decimal v ∈ r.lang) :
    getPatternKeyInt (keyLines (hydraFields t)) key r = some v := by
  obtain ⟨n, rfl⟩ := Int.eq_ofNat_of_zero_le hrange.1
  have hread := getPatternKeyInt_keyLines hclean hkey hlookup hquote hval (by omega) []
  rwa [List.append_nil] at hread

end OneRecord

/-- The record of a readable task is read back. -/
theorem CheckedHydra.parseHydraFields {t : ListHydraTask} (h : CheckedHydra t)
    (hread : ReadableHydra t) :
    OpenvasTool.parseHydraFields (keyLines (hydraFields t)) = some t.loaded := by
  have hclean := h.cleanField hread
  have huuid : uuidRegPattern.Over (· ≠ '\x22') :=
    over_uuidRegPattern (ne_quote_of (by decide)) (by decide)
  have htime : customTimeStampPattern.Over (· ≠ '\x22') :=
    over_customTimeStampPattern (ne_quote_of (by decide)) (by simp)
  have hcomm : customCommPattern.Over (· ≠ '\x22') := by
    rintro c hc rfl
    exact absurd hc (by decide)
  have hname : gvmNamePattern.Over (· ≠ '\x22') := by
    rintro c hc rfl
    exact absurd hc (by decide)
  have hservice : customServicesPattern.Over (· ≠ '\x22') := by
    rintro c hc rfl
    exact absurd hc (by decide)
  have htypes : 0 ≤ t.hostsType.toInt ∧ t.hostsType.toInt ≤ 4 := by cases t.hostsType <;> decide
  have honoff : decimal t.hostsType.toInt ∈ customOnOffPattern.lang := by
    rw [← Regex.accepts_iff]
    cases t.hostsType <;> decide
  have hdigit : decimal t.scheduleType ∈ customScheduleTypePattern.lang := by
    obtain ⟨hlow, hhigh⟩ := h.scheduleType
    rw [← Regex.accepts_iff]
    interval_cases t.scheduleType <;> decide
  have htaskId : getPatternKey (keyLines (hydraFields t)) "task_id".toList uuidRegPattern
      maxUuidSize = some t.taskId :=
    getPatternKey_hydraFields hclean (by decide) rfl huuid (chkUuid_iff.mp h.taskId)
  have htaskName : getPatternKey (keyLines (hydraFields t)) "task_name".toList gvmNamePattern
      maxNameSize = some t.taskName :=
    getPatternKey_hydraFields hclean (by decide) rfl hname (chkName_iff.mp h.taskName)
  have hhostsType : getPatternKeyInt (keyLines (hydraFields t)) "hosts_type".toList
      customOnOffPattern = some t.hostsType.toInt :=
    getPatternKeyInt_hydraFields hclean (by decide) rfl (ne_quote_of (by decide)) htypes honoff
  have hhosts : getPatternKey (keyLines (hydraFields t)) "hosts".toList customCommPattern
      maxMemListSize = some t.hosts :=
    getPatternKey_hydraFields hclean (by decide) rfl hcomm
      (mem_customCommPattern_of h.fileChars_hosts).1
  have hservices : getPatternKey (keyLines (hydraFields t)) "services".toList
      customServicesPattern maxMemListSize = some t.services :=
    getPatternKey_hydraFields hclean (by decide) rfl hservice (mem_customServicesPattern h.services)
  have hopts : getPatternKey (keyLines (hydraFields t)) "opts".toList customCommPattern
      maxMemListSize = some t.opts :=
    getPatternKey_hydraFields hclean (by decide) rfl hcomm (mem_customCommPattern_of hread.opts).1
  have htype : getPatternKeyInt (keyLines (hydraFields t)) "schedule_type".toList
      customScheduleTypePattern = some t.scheduleType :=
    getPatternKeyInt_hydraFields hclean (by decide) rfl (ne_quote_of (by decide)) h.scheduleType
      hdigit
  have hscheduleTime : getPatternKey (keyLines (hydraFields t)) "schedule_time".toList
      (customMatchOrNull customTimeStampPattern) maxTimestampSize = some t.firstScheduleTime :=
    getPatternKey_hydraFields hclean (by decide) rfl htime (chkScheduleParam_time h.schedule)
  have hscheduleList : getPatternKey (keyLines (hydraFields t)) "schedule_list".toList
      customCommPattern maxScheduleListSize = some t.scheduleList :=
    getPatternKey_hydraFields hclean (by decide) rfl hcomm
      (mem_customCommPattern_of h.fileChars_schedule.2).1
  have hcreateTime : getPatternKey (keyLines (hydraFields t)) "create_time".toList
      customTimeStampPattern maxTimestampSize = some t.createTime :=
    getPatternKey_hydraFields hclean (by decide) rfl htime (chkTimeStamp_iff.mp hread.createTime)
  unfold OpenvasTool.parseHydraFields
  simp only [htaskId, htaskName, hhostsType, hhosts, hservices, hopts, htype, hscheduleTime,
    hscheduleList, hcreateTime, Option.bind_eq_bind, Option.bind_some, h.taskName, h.hosts,
    h.schedule, HostsType.ofInt_toInt, Bool.and_self, if_true]
  rfl

/-- A record that is read has readable options and a time stamp. -/
theorem readableHydra_of_parseHydraFields {body : Text} {t : ListHydraTask}
    (h : parseHydraFields body = some t) : ReadableHydra t := by
  unfold parseHydraFields at h
  iterate 5 obtain ⟨_, _, h⟩ := Option.bind_eq_some_iff.mp h
  obtain ⟨opts, hopts, h⟩ := Option.bind_eq_some_iff.mp h
  iterate 3 obtain ⟨_, _, h⟩ := Option.bind_eq_some_iff.mp h
  obtain ⟨createTime, htime, h⟩ := Option.bind_eq_some_iff.mp h
  split at h
  swap
  · simp at h
  obtain ⟨_, _, h⟩ := Option.bind_eq_some_iff.mp h
  obtain rfl := Option.some.inj h
  refine ⟨?_, chkTimeStamp_iff.mpr (lang_regNewline_subset (getPatternKey_mem htime))⟩
  have hover : customCommPattern.regNewline.Over (· ∉ fileSpecial) := by
    have hall : fileSpecial.all (fun c => customCommExcluded c || c == '\n') = true := by decide
    intro c hc
    exact not_mem_of_all_false hall hc
  exact hover.all_mem (getPatternKey_mem hopts)

/-! ### The whole file -/

/-- Tasks as the create queue holds them: stored by create requests, with distinct names and
ordered by their creation time. -/
structure HydraList (ts : List ListHydraTask) : Prop where
  created : ∀ t ∈ ts, CreatedHydra t
  names : ts.Pairwise fun t u => t.taskName ≠ u.taskName
  sorted : ts.Pairwise fun t u => cmpHydraTime t u ≤ 0

/-- The text of the hydra task file. -/
def hydraFileText (ts : List ListHydraTask) : Text := ts.flatMap fun t => renderRecord (hydraFields t)

/-- With enough room all records are written one after the other. -/
theorem writeHydraRecords_eq {capacity : ℕ} {ts : List ListHydraTask}
    (hroom : (hydraFileText ts).length < intOfSize capacity) :
    writeHydraRecords capacity ts = some (hydraFileText ts) := by
  have hflat : (ts.map fun t => renderRecord (hydraFields t)).flatten = hydraFileText ts :=
    List.flatMap_def.symm
  have hne : ∀ r ∈ ts.map fun t => renderRecord (hydraFields t), r ≠ [] := by
    intro r hr
    obtain ⟨t, _, rfl⟩ := List.mem_map.mp hr
    exact renderRecord_ne_nil _
  have hroom' : ((([] : Text).length +
      (ts.map fun t => renderRecord (hydraFields t)).flatten.length : ℕ) : ℤ) <
      intOfSize capacity := by
    rw [hflat, List.length_nil, Nat.zero_add]
    exact hroom
  have hwrite := foldlM_writeRecord hne hroom'
  rw [hflat, List.nil_append, List.foldlM_map] at hwrite
  exact hwrite

theorem records_hydraFileText {ts : List ListHydraTask}
    (hts : ∀ t ∈ ts, CheckedHydra t ∧ ReadableHydra t) :
    records (hydraFileText ts) = ts.map fun t => keyLines (hydraFields t) := by
  have hread : records ((ts.map hydraFields).flatMap renderRecord) =
      (ts.map hydraFields).map keyLines := by
    apply records_renderRecords
    · intro fields hfields
      obtain ⟨t, ht, rfl⟩ := List.mem_map.mp hfields
      exact (hts t ht).1.cleanField (hts t ht).2
    · intro fields hfields
      obtain ⟨t, _, rfl⟩ := List.mem_map.mp hfields
      exact nulFree_hydraFields t
  rw [List.flatMap_map, List.map_map] at hread
  exact hread

namespace HydraWorld

/-- The tasks in the create queue, in its order. -/
def tasks (w : HydraWorld) : List ListHydraTask := w.data.createque.items.map w.task

/-- Loading a record links a new task at the end of the heap. -/
theorem loadHydraRecord_eq_some {env : BootEnv} {w w' : HydraWorld} {r : ℕ × Text}
    (h : loadHydraRecord env w r = some w') :
    ∃ t, parseHydraFields r.2 = some t ∧
      w'.data.createque = w.data.createque.pushBack
        (fun q => cmpHydraTime ((w.newTask t).2.task q) t) w.next ∧
      ∀ q, w'.task q = if q = w.next then t else w.task q := by
  unfold loadHydraRecord at h
  split at h
  swap
  · simp at h
  obtain ⟨t, ht, hadd⟩ := Option.bind_eq_some_iff.mp h
  obtain ⟨s, _, rfl⟩ := Option.map_eq_some_iff.mp hadd
  have hself : (w.newTask t).2.task (w.newTask t).1 = t := task_setTask_self w w.next t
  refine ⟨t, ht, ?_, fun q => task_setTask w w.next q t⟩
  dsimp only
  rw [hself]
  rfl

/-- Every loaded task was read from a record. -/
theorem readable_of_loadHydraRecords {env : BootEnv} {l : List (ℕ × Text)} {w w' : HydraWorld}
    (hw : ∀ p ∈ w.data.createque.items, ReadableHydra (w.task p))
    (h : l.foldlM (loadHydraRecord env) w = some w') :
    ∀ p ∈ w'.data.createque.items, ReadableHydra (w'.task p) := by
  induction l generalizing w with
  | nil =>
    obtain rfl : w = w' := by simpa using h
    exact hw
  | cons r l ih =>
    rw [List.foldlM_cons, Option.bind_eq_bind, Option.bind_eq_some_iff] at h
    obtain ⟨w1, hw1, h⟩ := h
    obtain ⟨t, ht, hque, htask⟩ := loadHydraRecord_eq_some hw1
    refine ih (fun p hp => ?_) h
    rw [htask]
    split
    · exact readableHydra_of_parseHydraFields ht
    · rename_i hne
      rw [hque, ListQueue.mem_pushBack] at hp
      exact hw p (hp.resolve_left hne)

namespace Indexed

variable {w : HydraWorld} (h : w.Indexed)

include h

/-- The record of a task with a new name is loaded. -/
theorem loadHydraRecord_checked {env : BootEnv} (henv : env.Memory) {t : ListHydraTask}
    (ht : CheckedHydra t) (hread : ReadableHydra t)
    (hname : ∀ p u, w.stored p = some u → u.taskName ≠ t.taskName) (i : ℕ) :
    ∃ w', loadHydraRecord env w (i, keyLines (hydraFields t)) = some w' ∧ w'.Indexed ∧
      w'.stored = Function.update w.stored w.next (some t.loaded) ∧ w'.files = w.files ∧
      w'.procs = w.procs := by
  have hload : loadHydraRecord env w (i, keyLines (hydraFields t)) =
      (w.newTask t.loaded).2.addHydraTask (env.realloc i) (w.newTask t.loaded).1 := by
    unfold loadHydraRecord
    rw [if_pos (henv.alloc i), ht.parseHydraFields hread, Option.bind_some]
  have hsome : ((w.newTask t.loaded).2.addHydraTask (env.realloc i) (w.newTask t.loaded).1).isSome := by
    unfold addHydraTask
    rw [Option.isSome_map]
    exact ListSet.addToSet_isSome (Or.inl (henv.realloc i))
  obtain ⟨w', hw'⟩ := Option.isSome_iff_exists.mp hsome
  have hname' : ∀ p u, w.stored p = some u → u.taskName ≠ t.loaded.taskName := hname
  obtain ⟨hidx, hstored, _, hfiles, hprocs, _⟩ := h.newTask_add hname' hw'
  exact ⟨w', hload.trans hw', hidx, hstored, hfiles, hprocs⟩

/-- With a late creation time it goes to the end of the queue. -/
theorem loadHydraRecord_readable {env : BootEnv} (henv : env.Memory) {t : ListHydraTask}
    (ht : CheckedHydra t) (hread : ReadableHydra t)
    (hname : ∀ u ∈ w.tasks, u.taskName ≠ t.taskName)
    (hlast : ∀ u ∈ w.tasks, cmpHydraTime u t ≤ 0) (i : ℕ) :
    ∃ w', loadHydraRecord env w (i, keyLines (hydraFields t)) = some w' ∧ w'.Indexed ∧
      w'.tasks = w.tasks ++ [t.loaded] := by
  obtain ⟨w', hw', hidx, -⟩ := h.loadHydraRecord_checked henv ht hread (fun p u hp => by
    have hmem : u ∈ w.tasks := List.mem_map.mpr ⟨p, (h.items.que_iff p).mpr (stored_eq_some.mp hp).1,
      task_of_stored hp⟩
    exact hname u hmem) i
  obtain ⟨u, hu, hque, htask⟩ := loadHydraRecord_eq_some hw'
  obtain rfl := Option.some.inj ((ht.parseHydraFields hread).symm.trans hu)
  -- the new address is not in the queue
  have hne : ∀ q ∈ w.data.createque.items, q ≠ w.next := fun q hq =>
    (h.lt_next ((h.items.que_iff q).mp hq)).ne
  have hitems : w'.data.createque.items = w.data.createque.items ++ [w.next] := by
    rw [hque]
    refine insertLast_eq_append fun q hq => ?_
    have hq' : (w.newTask t.loaded).2.task q = w.task q := by
      have hset := task_setTask w w.next q t.loaded
      rwa [if_neg (hne q hq)] at hset
    rw [hq']
    exact hlast _ (List.mem_map_of_mem hq)
  refine ⟨w', hw', hidx, ?_⟩
  have hold : w.data.createque.items.map w'.task = w.tasks :=
    List.map_congr_left fun q hq => by rw [htask, if_neg (hne q hq)]
  rw [tasks, hitems, List.map_append, hold, List.map_singleton, htask, if_pos rfl]

/-- The records of a list of tasks are loaded behind the tasks that are there. -/
theorem loadHydraRecords_readable {env : BootEnv} (henv : env.Memory) {ts : List ListHydraTask}
    (hts : ∀ t ∈ ts, CheckedHydra t ∧ ReadableHydra t)
    (hnames : (w.tasks ++ ts).Pairwise fun t u => t.taskName ≠ u.taskName)
    (hsorted : (w.tasks ++ ts).Pairwise fun t u => cmpHydraTime t u ≤ 0) (k : ℕ) :
    ∃ w', (((ts.map fun t => keyLines (hydraFields t)).zipIdx k).map Prod.swap).foldlM
        (loadHydraRecord env) w = some w' ∧
      w'.tasks = w.tasks ++ ts.map ListHydraTask.loaded := by
  induction ts generalizing w k with
  | nil => exact ⟨w, rfl, by simp⟩
  | cons t ts ih =>
    have hbefore : ∀ {R : ListHydraTask → ListHydraTask → Prop},
        (w.tasks ++ t :: ts).Pairwise R → ∀ u ∈ w.tasks, R u t := fun hpair u hu =>
      (List.pairwise_append.mp hpair).2.2 u hu t (by simp)
    -- a loaded task compares like the task of its record
    have hafter : ∀ {R : ListHydraTask → ListHydraTask → Prop},
        (∀ u, (R t u → R t.loaded u) ∧ (R u t → R u t.loaded)) →
        (w.tasks ++ t :: ts).Pairwise R → (w.tasks ++ [t.loaded] ++ ts).Pairwise R := by
      intro R hR hpair
      rw [List.append_assoc, List.singleton_append]
      obtain ⟨hold, hnew, hcross⟩ := List.pairwise_append.mp hpair
      obtain ⟨hfirst, hrest⟩ := List.pairwise_cons.mp hnew
      refine List.pairwise_append.mpr ⟨hold, List.pairwise_cons.mpr
        ⟨fun u hu => (hR u).1 (hfirst u hu), hrest⟩, fun a ha b hb => ?_⟩
      rcases List.mem_cons.mp hb with rfl | hb
      · exact (hR a).2 (hcross a ha t (by simp))
      · exact hcross a ha b (by simp [hb])
    obtain ⟨w1, hw1, hidx, htasks⟩ := h.loadHydraRecord_readable henv (hts t (by simp)).1
      (hts t (by simp)).2 (hbefore hnames) (hbefore hsorted) k
    obtain ⟨w', hw', htasks'⟩ := ih hidx (fun u hu => hts u (by simp [hu]))
      (by rw [htasks]; exact hafter (fun _ => ⟨id, id⟩) hnames)
      (by rw [htasks]; exact hafter (fun _ => ⟨id, id⟩) hsorted) (k + 1)
    refine ⟨w', ?_, ?_⟩
    · rw [List.map_cons, List.zipIdx_cons, List.map_cons, List.foldlM_cons]
      exact Option.bind_eq_some_iff.mpr ⟨w1, hw1, hw'⟩
    · rw [htasks', htasks, List.append_assoc]
      rfl

end Indexed

end HydraWorld

/-- The text that is written for these tasks is read back as the same tasks in the same order. -/
def ReadBack (env : BootEnv) (capacity : ℕ) (files : Files) (ts : List ListHydraTask) : Prop :=
  ∃ text w, writeHydraRecords capacity ts = some text ∧
    parseHydraRecord env (emptyHydraWorld files) text = some w ∧
    w.tasks.map ListHydraTask.saved = ts.map ListHydraTask.saved

theorem readableHydra_saved {t : ListHydraTask} : ReadableHydra t.saved ↔ ReadableHydra t :=
  ⟨fun h => ⟨h.opts, h.createTime⟩, fun h => ⟨h.opts, h.createTime⟩⟩

/-- Only readable tasks are read back. -/
theorem ReadBack.readable {env : BootEnv} {capacity : ℕ} {files : Files} {ts : List ListHydraTask}
    (h : ReadBack env capacity files ts) : ∀ t ∈ ts, ReadableHydra t := by
  obtain ⟨text, w, _, hparse, hsaved⟩ := h
  intro t ht
  have hloaded := HydraWorld.readable_of_loadHydraRecords (fun p hp => by
    simp [emptyHydraWorld, ListQueue.initListQue] at hp) hparse
  have hmem : t.saved ∈ w.tasks.map ListHydraTask.saved := by
    rw [hsaved]
    exact List.mem_map_of_mem ht
  obtain ⟨u, hu, heq⟩ := List.mem_map.mp hmem
  obtain ⟨p, hp, rfl⟩ := List.mem_map.mp hu
  rw [← readableHydra_saved, ← heq, readableHydra_saved]
  exact hloaded p hp

/-- **The hydra task file round trip** succeeds exactly for tasks with readable options. -/
theorem readBack_iff {env : BootEnv} (henv : env.Memory) {ts : List ListHydraTask}
    (hts : HydraList ts) {capacity : ℕ} (hroom : (hydraFileText ts).length < intOfSize capacity)
    (files : Files) : ReadBack env capacity files ts ↔ ∀ t ∈ ts, ReadableHydra t := by
  constructor
  · exact ReadBack.readable
  · intro hread
    have hchecked : ∀ t ∈ ts, CheckedHydra t ∧ ReadableHydra t := fun t ht =>
      ⟨(hts.created t ht).checked, hread t ht⟩
    have hempty : (emptyHydraWorld files).tasks = [] := rfl
    obtain ⟨w, hw, htasks⟩ := (HydraWorld.indexed_emptyHydraWorld files).loadHydraRecords_readable
      henv hchecked (by rw [hempty]; exact hts.names) (by rw [hempty]; exact hts.sorted) 0
    refine ⟨hydraFileText ts, w, writeHydraRecords_eq hroom, ?_, ?_⟩
    · unfold parseHydraRecord
      rw [records_hydraFileText hchecked]
      exact hw
    · rw [htasks, hempty, List.nil_append, List.map_map]
      rfl

/-- A request to create a task with this name and these options. -/
def sampleOptsCreate (name opts : Text) : Text :=
  name ++ "\x010\x0110.0.0.1\x01ssh\x01".toList ++ opts ++ "\x01users\x01words\x010\x01\x01\x01".toList

/-- The task that a request creates in an empty store. -/
def sampleAccepted (input : Text) : ListHydraTask :=
  stampHydra (.smooth 0) ((getCreateHydraParam (.smooth 0) input).getD {})

theorem createdHydra_sampleAccepted {input : Text}
    (hparam : (getCreateHydraParam (.smooth 0) input).isSome)
    (hcode : (daemonCreateHydra (.smooth 0) (emptyHydraWorld sampleHydraFiles) input).code =
      .success) : CreatedHydra (sampleAccepted input) := by
  obtain ⟨task, htask⟩ := Option.isSome_iff_exists.mp hparam
  refine ⟨.smooth 0, emptyHydraWorld sampleHydraFiles, input, task, htask, hcode, ?_⟩
  rw [sampleAccepted, htask, Option.getD_some]

/-- Two tasks with readable options are read back. -/
theorem readBack_iff_sampleOptsCreate :
    ReadBack .smooth maxCacheSize (fun _ => none)
      [sampleAccepted (sampleOptsCreate "audit".toList []),
        sampleAccepted (sampleOptsCreate "other".toList "-s 2222".toList)] := by
  let t := sampleAccepted (sampleOptsCreate "audit".toList [])
  let u := sampleAccepted (sampleOptsCreate "other".toList "-s 2222".toList)
  have ht : CreatedHydra t := createdHydra_sampleAccepted (by decide +kernel) (by decide +kernel)
  have hu : CreatedHydra u := createdHydra_sampleAccepted (by decide +kernel) (by decide +kernel)
  have hfacts : t.taskName ≠ u.taskName ∧ cmpHydraTime t u ≤ 0 ∧
      (hydraFileText [t, u]).length < maxCacheSize ∧
      t.opts.text.all (fun c => !fileSpecial.contains c) = true ∧
      chkTimeStamp t.createTime.text = true ∧
      u.opts.text.all (fun c => !fileSpecial.contains c) = true ∧
      chkTimeStamp u.createTime.text = true := by decide +kernel
  obtain ⟨hname, htime, hroom, htopts, htstamp, huopts, hustamp⟩ := hfacts
  simp only [List.all_eq_true, Bool.not_eq_true', List.contains_eq_mem, decide_eq_false_iff_not]
    at htopts huopts
  have hlist : HydraList [t, u] := ⟨by simp [ht, hu], by simp [hname], by simp [htime]⟩
  refine (readBack_iff ⟨fun _ => rfl, fun _ => rfl⟩ hlist
    (lt_intOfSize_maxCacheSize hroom) _).mpr fun x hx => ?_
  rcases List.mem_cons.mp hx with rfl | hx
  · exact ⟨htopts, htstamp⟩
  · obtain rfl := List.mem_singleton.mp hx
    exact ⟨huopts, hustamp⟩

/-- A task whose options have a quote is created, and its file cannot be read. -/
theorem not_readBack_sampleOptsCreate :
    ¬ ∀ ts, HydraList ts → (hydraFileText ts).length < maxCacheSize →
      ReadBack .smooth maxCacheSize (fun _ => none) ts := by
  intro hclaim
  let t := sampleAccepted (sampleOptsCreate "audit".toList "-m \"/login\"".toList)
  have ht : CreatedHydra t := createdHydra_sampleAccepted (by decide +kernel) (by decide +kernel)
  have hfacts : (hydraFileText [t]).length < maxCacheSize ∧ '\x22' ∈ t.opts.text := by
    decide +kernel
  have hread := (hclaim [t] ⟨by simp [ht], by simp, by simp⟩ hfacts.1).readable t (by simp)
  exact hread.opts _ hfacts.2 (by simp [fileSpecial])

end OpenvasTool
