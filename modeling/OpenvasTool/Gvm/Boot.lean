import OpenvasTool.Gvm.Steps

/-!
# The store after the start

When the records of the task file have distinct names, the start of the daemon
leaves consistent indexes, and every stored task comes from a record of the task
file and, if there is one, from its status file.
-/

namespace OpenvasTool

open Posix Support

/-- The task names of the records of a task file. -/
def recordNames (content : Text) : List (CStr maxNameSize) :=
  (records content).filterMap fun body =>
    getPatternKey body "task_name".toList gvmNamePattern maxNameSize

/-- The task file, if there is one, has records with pairwise distinct task names. -/
def DistinctNames (files : Files) : Prop :=
  ∀ content, files gvmTaskFile = some content → (recordNames content).Nodup

/-- A task as the start of the daemon leaves it: read from a record of the task file, then from
its status file if there is one, and scheduled for its first check. -/
def Loaded (files : Files) (t : ListGvmTask) : Prop :=
  ∃ body t0 t1 time, parseTaskFields body = some t0 ∧
    (t1 = t0 ∨ ∃ content, files (gvmPaths t0.taskInfo.taskId.text).statusFile = some content ∧
      parseTaskStatusRecord content t0 = some t1) ∧
    t = { t1 with chkTime := time }

/-! ### The task file -/

theorem readTotalFile_eq_ok {stat read : Bool} {file : Option Text} {content : Text}
    (h : readTotalFile stat read file = .ok content) : file = some content := by
  unfold readTotalFile at h
  split at h
  · split at h
    · simp at h
    · split at h <;> [skip; split at h <;> [skip; split at h]] <;>
        first
          | (obtain rfl := Except.ok.inj h; rfl)
          | simp at h
  · simp at h

/-- A parsed task has the name of its record and no report yet. -/
theorem parseTaskFields_spec {body : Text} {t : ListGvmTask} (h : parseTaskFields body = some t) :
    getPatternKey body "task_name".toList gvmNamePattern maxNameSize =
      some t.taskInfo.taskName ∧ NewTask t := by
  unfold parseTaskFields at h
  obtain ⟨_, hid, h⟩ := Option.bind_eq_some_iff.mp h
  obtain ⟨name, hname, h⟩ := Option.bind_eq_some_iff.mp h
  iterate 13 obtain ⟨_, _, h⟩ := Option.bind_eq_some_iff.mp h
  split at h
  · simp at h
  · split at h
    · simp at h
    · obtain rfl := Option.some.inj h
      exact ⟨hname, chkUuid_iff.mpr (Regex.lang_regNewline_subset (getPatternKey_mem hid)), rfl,
        rfl, rfl⟩

namespace World.Indexed

variable {w : World}

/-- A record with a new name adds one task to the name set and the create queue. -/
theorem loadRecord (h : w.Indexed) {env : BootEnv} {i : ℕ} {body : Text} {w' : World}
    (hnames : ∀ name, getPatternKey body "task_name".toList gvmNamePattern maxNameSize =
      some name → ∀ p ∈ w.data.nameset.data, (w.task p).taskInfo.taskName ≠ name)
    (hw : loadRecord env w (i, body) = some w') :
    ∃ t, parseTaskFields body = some t ∧ w'.Indexed ∧
      w'.stored = Function.update w.stored w.next (some t) ∧
      (∀ q, q ∈ w'.data.nameset.data ↔ q = w.next ∨ q ∈ w.data.nameset.data) ∧
      w'.data.runque = w.data.runque ∧ w'.files = w.files := by
  unfold OpenvasTool.loadRecord at hw
  split at hw
  swap
  · simp at hw
  obtain ⟨t, ht, hadd⟩ := Option.bind_eq_some_iff.mp hw
  have hne : ∀ q ∈ w.data.nameset.data, q ≠ w.next := fun q hq => (h.lt_next hq).ne
  have hheap : ∀ q, q ≠ w.next → (w.newTask t).2.heap q = w.heap q := by
    intro q hq
    simp [World.newTask, World.setTask, hq]
  have hself : (w.newTask t).2.heap w.next = some t := by simp [World.newTask, World.setTask]
  have hnewIdx : (w.newTask t).2.Indexed := by
    refine h.transfer rfl rfl ?_ ?_ ?_
    · intro q hq
      simp only [task, hheap q (hne q hq)]
    · intro q hq
      rw [hheap q (hne q hq)]
      exact h.allocated q hq
    · intro q hq
      have hlt : w.next < q := hq
      rw [hheap q hlt.ne']
      exact h.fresh q hlt.le
  have hname := (parseTaskFields_spec ht).1
  obtain ⟨hidx, hmem⟩ := hnewIdx.addGvmTask (p := w.next) (fun hp => hne _ hp rfl)
    (by simp [hself]) (by
      intro q hq
      rw [task_eq_of_heap hself]
      simp only [task, hheap q (hne q hq)]
      exact hnames _ hname q hq) hadd
  obtain ⟨hheap', _, hfiles, hrun, _⟩ := addGvmTask_frame hadd
  refine ⟨t, ht, hidx, ?_, hmem, hrun, hfiles⟩
  funext q
  by_cases hq : q = w.next
  · subst hq
    have hmemq := (hmem w.next).mpr (Or.inl rfl)
    simp only [stored, if_pos hmemq, hheap', hself, Function.update_self]
  · have hiff : q ∈ w'.data.nameset.data ↔ q ∈ w.data.nameset.data := by
      rw [hmem q]
      exact ⟨fun hor => hor.resolve_left hq, Or.inr⟩
    simp only [stored, hiff, hheap', hheap q hq, Function.update_of_ne hq]

/-- Records with pairwise distinct new names load into consistent indexes. -/
theorem loadRecords {env : BootEnv} {l : List (ℕ × Text)} {w' : World} (h : w.Indexed)
    (hnodup : (l.filterMap fun r =>
      getPatternKey r.2 "task_name".toList gvmNamePattern maxNameSize).Nodup)
    (hnew : ∀ r ∈ l, ∀ name, getPatternKey r.2 "task_name".toList gvmNamePattern maxNameSize =
      some name → ∀ p ∈ w.data.nameset.data, (w.task p).taskInfo.taskName ≠ name)
    (hw : l.foldlM (OpenvasTool.loadRecord env) w = some w') :
    w'.Indexed ∧ w'.data.runque = w.data.runque ∧ w'.files = w.files ∧
      ∀ p t, w'.stored p = some t → w.stored p = some t ∨ ∃ body, parseTaskFields body = some t := by
  induction l generalizing w with
  | nil =>
    obtain rfl : w = w' := by simpa using hw
    exact ⟨h, rfl, rfl, fun p t hp => Or.inl hp⟩
  | cons r l ih =>
    rw [List.foldlM_cons, Option.bind_eq_bind, Option.bind_eq_some_iff] at hw
    obtain ⟨w1, hw1, hw⟩ := hw
    obtain ⟨t, ht, hidx, hstored, hmem, hrun, hfiles⟩ := h.loadRecord (hnew r (by simp)) hw1
    have hname := (parseTaskFields_spec ht).1
    rw [List.filterMap_cons, hname] at hnodup
    have hnext : w1.stored w.next = some t := by rw [hstored, Function.update_self]
    have hnew' : ∀ r' ∈ l, ∀ name,
        getPatternKey r'.2 "task_name".toList gvmNamePattern maxNameSize = some name →
        ∀ p ∈ w1.data.nameset.data, (w1.task p).taskInfo.taskName ≠ name := by
      intro r' hr' name hr'name p hp
      by_cases hpn : p = w.next
      · subst hpn
        rw [task_of_stored hnext]
        rintro rfl
        exact (List.nodup_cons.mp hnodup).1 (List.mem_filterMap.mpr ⟨r', hr', hr'name⟩)
      · have hpw := ((hmem p).mp hp).resolve_left hpn
        have htask : w1.task p = w.task p := by
          have hp1 := hidx.stored_task hp
          rw [hstored, Function.update_of_ne hpn, h.stored_task hpw] at hp1
          exact (Option.some.inj hp1).symm
        rw [htask]
        exact hnew r' (by simp [hr']) name hr'name p hpw
    obtain ⟨hidx', hrun', hfiles', hfrom⟩ := ih hidx (List.nodup_cons.mp hnodup).2 hnew' hw
    refine ⟨hidx', hrun'.trans hrun, hfiles'.trans hfiles, fun p u hp => ?_⟩
    rcases hfrom p u hp with hp1 | hbody
    · rw [hstored] at hp1
      by_cases hpn : p = w.next
      · subst hpn
        rw [Function.update_self] at hp1
        exact Or.inr ⟨r.2, ht.trans hp1⟩
      · rw [Function.update_of_ne hpn] at hp1
        exact Or.inl hp1
    · exact Or.inr hbody

end World.Indexed

/-- The task file is loaded into consistent indexes. -/
theorem readTaskFile_spec {env : BootEnv} {files : Files} {w : World} (hnames : DistinctNames files)
    (hw : readTaskFile env (emptyWorld files) = some w) :
    w.Indexed ∧ w.data.runque = .initListQue ∧ w.files = files ∧
      ∀ p t, w.stored p = some t → ∃ body, parseTaskFields body = some t := by
  have hempty := World.indexed_emptyWorld files
  unfold readTaskFile at hw
  split at hw
  · rename_i content hread
    have hnodup := hnames content (readTotalFile_eq_ok hread)
    unfold parseTaskRecord at hw
    have hfilter : (((records content).zipIdx.map Prod.swap).filterMap fun r =>
        getPatternKey r.2 "task_name".toList gvmNamePattern maxNameSize) = recordNames content := by
      rw [List.filterMap_map, recordNames]
      conv_rhs => rw [← List.zipIdx_map_fst 0 (records content), List.filterMap_map]
      rfl
    obtain ⟨hidx, hrun, hf, hfrom⟩ := hempty.loadRecords (hfilter ▸ hnodup) (by
      intro r _ name _ p hp
      simp [emptyWorld, ListSet.initListSet] at hp) hw
    refine ⟨hidx, hrun, hf, fun p t hp => ?_⟩
    rcases hfrom p t hp with hp | hbody
    · rw [World.stored_emptyWorld] at hp
      simp at hp
    · exact hbody
  all_goals
    first
      | (obtain rfl := Option.some.inj hw
         exact ⟨hempty, rfl, rfl, fun p t hp => by simp [World.stored_emptyWorld] at hp⟩)
      | simp at hw

/-! ### The status files -/

/-- A status record touches neither the task and target records nor the results. -/
theorem parseTaskStatusRecord_frame {content : Text} {t t' : ListGvmTask}
    (h : parseTaskStatusRecord content t = some t') :
    t'.taskInfo = t.taskInfo ∧ t'.targetInfo = t.targetInfo ∧ t'.resultInfo = t.resultInfo := by
  unfold parseTaskStatusRecord at h
  split at h
  · obtain rfl := Option.some.inj h
    exact ⟨rfl, rfl, rfl⟩
  · rename_i body _ _
    unfold parseStatusFields at h
    obtain ⟨_, _, h⟩ := Option.bind_eq_some_iff.mp h
    split at h
    · simp at h
    · iterate 7 obtain ⟨_, _, h⟩ := Option.bind_eq_some_iff.mp h
      split at h
      · simp at h
      · iterate 2 obtain ⟨_, _, h⟩ := Option.bind_eq_some_iff.mp h
        obtain rfl := Option.some.inj h
        exact ⟨rfl, rfl, rfl⟩

theorem parseTaskStatusRecord_taskInfo {content : Text} {t t' : ListGvmTask}
    (h : parseTaskStatusRecord content t = some t') : t'.taskInfo = t.taskInfo :=
  (parseTaskStatusRecord_frame h).1

theorem parseTaskStatusRecord_resultInfo {content : Text} {t t' : ListGvmTask}
    (h : parseTaskStatusRecord content t = some t') : t'.resultInfo = t.resultInfo :=
  (parseTaskStatusRecord_frame h).2.2

/-- The outcome of reading the status file of one task. -/
def StatusRead (files : Files) (t t' : ListGvmTask) : Prop :=
  t' = t ∨ ∃ content, files (gvmPaths t.taskInfo.taskId.text).statusFile = some content ∧
    parseTaskStatusRecord content t = some t'

theorem StatusRead.taskInfo {files : Files} {t t' : ListGvmTask} (h : StatusRead files t t') :
    t'.taskInfo = t.taskInfo := by
  rcases h with rfl | ⟨content, _, hparse⟩
  · rfl
  · exact parseTaskStatusRecord_taskInfo hparse

namespace World.Indexed

variable {w : World}

/-- Reading one status file updates its task. -/
theorem readTaskStatusFile (h : w.Indexed) {env : BootEnv} {p : Ptr} {t : ListGvmTask} {w' : World}
    (hp : w.stored p = some t) (hw : readTaskStatusFile env w p = some w') :
    w'.Indexed ∧ w'.data = w.data ∧ w'.files = w.files ∧
      ∃ t', StatusRead w.files t t' ∧ w'.stored = Function.update w.stored p (some t') := by
  have hself : w.stored = Function.update w.stored p (some t) := by
    rw [← hp, Function.update_eq_self]
  have htask := task_of_stored hp
  unfold OpenvasTool.readTaskStatusFile at hw
  rw [prepareGvmPaths_eq, Option.bind_some, htask] at hw
  split at hw
  · rename_i content hread
    obtain ⟨t', ht', rfl⟩ := Option.map_eq_some_iff.mp hw
    have hmem := (stored_eq_some.mp hp).1
    have hinfo := parseTaskStatusRecord_taskInfo ht'
    refine ⟨h.setTask hmem (by rw [hinfo, htask]), rfl, rfl, t', ?_, stored_setTask hmem t'⟩
    exact Or.inr ⟨content, readTotalFile_eq_ok hread, ht'⟩
  all_goals
    first
      | (obtain rfl := Option.some.inj hw
         exact ⟨h, rfl, rfl, t, Or.inl rfl, hself⟩)
      | simp at hw

/-- Reading the status files of several distinct tasks. -/
theorem readStatusFiles {env : BootEnv} {ps : List Ptr} {w' : World} (h : w.Indexed)
    (hnodup : ps.Nodup) (hps : ∀ p ∈ ps, p ∈ w.data.nameset.data)
    (hw : ps.foldlM (OpenvasTool.readTaskStatusFile env) w = some w') :
    w'.Indexed ∧ w'.data = w.data ∧ w'.files = w.files ∧
      ∀ p t', w'.stored p = some t' →
        ∃ t, w.stored p = some t ∧ StatusRead w.files t t' ∧ (p ∉ ps → t' = t) := by
  induction ps generalizing w with
  | nil =>
    obtain rfl : w = w' := by simpa using hw
    exact ⟨h, rfl, rfl, fun p t hp => ⟨t, hp, Or.inl rfl, fun _ => rfl⟩⟩
  | cons q ps ih =>
    rw [List.foldlM_cons, Option.bind_eq_bind, Option.bind_eq_some_iff] at hw
    obtain ⟨w1, hw1, hw⟩ := hw
    obtain ⟨hq, hnodup⟩ := List.nodup_cons.mp hnodup
    have hqs := h.stored_task (hps q (by simp))
    obtain ⟨hidx, hdata, hfiles, u, hread, hstored⟩ := h.readTaskStatusFile hqs hw1
    obtain ⟨hidx', hdata', hfiles', hfrom⟩ :=
      ih hidx hnodup (fun p hp => hdata ▸ hps p (by simp [hp])) hw
    refine ⟨hidx', hdata'.trans hdata, hfiles'.trans hfiles, fun p t' hp => ?_⟩
    obtain ⟨t, ht, hst, hself⟩ := hfrom p t' hp
    rw [hfiles] at hst
    rw [hstored] at ht
    by_cases hpq : p = q
    · subst hpq
      rw [Function.update_self] at ht
      obtain rfl := Option.some.inj ht
      exact ⟨_, hqs, hself hq ▸ hread, fun hnot => absurd (by simp) hnot⟩
    · rw [Function.update_of_ne hpq] at ht
      exact ⟨t, ht, hst, fun hnot => hself fun hmem => hnot (by simp [hmem])⟩

/-! ### The run queue -/

/-- Adding tasks to the run queue schedules their first checks. -/
theorem addChecks {env : BootEnv} {ps : List Ptr} (h : w.Indexed) (hrun : w.data.runque.Valid)
    (hps : ∀ p ∈ ps, p ∈ w.data.nameset.data) :
    (ps.foldl (addTaskChecks env) w).Indexed ∧
      (ps.foldl (addTaskChecks env) w).data.runque.Valid ∧
      (ps.foldl (addTaskChecks env) w).data.nameset = w.data.nameset ∧
      (∀ q, q ∈ (ps.foldl (addTaskChecks env) w).data.runque.items ↔
        q ∈ w.data.runque.items ∨ q ∈ ps) ∧
      (ps.foldl (addTaskChecks env) w).files = w.files ∧
      ∀ p t', (ps.foldl (addTaskChecks env) w).stored p = some t' →
        ∃ t time, w.stored p = some t ∧ t' = { t with chkTime := time } := by
  induction ps generalizing w with
  | nil => exact ⟨h, hrun, rfl, by simp, rfl, fun p t hp => ⟨t, t.chkTime, hp, rfl⟩⟩
  | cons q ps ih =>
    have hq := hps q (by simp)
    set u := (w.task q).setTaskNextChkTime (env.clk q) (defTaskChkTimeInterval .chkTask) with hu
    have hset : (w.setTask q u).Indexed := h.setTask hq rfl
    -- one task written and put into the run queue
    have hone : (addTaskChecks env w q).Indexed ∧ (addTaskChecks env w q).data.runque.Valid ∧
        (addTaskChecks env w q).data.nameset = w.data.nameset ∧
        (∀ r, r ∈ (addTaskChecks env w q).data.runque.items ↔
          r ∈ w.data.runque.items ∨ r = q) ∧
        (addTaskChecks env w q).files = w.files ∧
        (addTaskChecks env w q).stored = Function.update w.stored q (some u) := by
      unfold addTaskChecks addGvmRunTask
      split
      · rename_i hmem
        refine ⟨hset, hrun, rfl, fun r => ?_, rfl, stored_setTask hq u⟩
        constructor
        · exact Or.inl
        · rintro (hr | rfl)
          · exact hr
          · exact hmem
      · rename_i hmem
        refine ⟨⟨hset.nameset, hset.createque, hset.create_iff, hset.sorted, hset.allocated,
          hset.fresh⟩, hrun.pushBack hmem, rfl, fun r => ?_, rfl, stored_setTask hq u⟩
        rw [ListQueue.mem_pushBack, or_comm]
        rfl
    obtain ⟨hidx1, hrun1, hset1, hmem1, hfiles1, hstored1⟩ := hone
    obtain ⟨hidx, hrun', hset', hmem', hfiles', hfrom⟩ :=
      ih hidx1 hrun1 (fun p hp => hset1 ▸ hps p (by simp [hp]))
    refine ⟨hidx, hrun', hset'.trans hset1, fun r => ?_, hfiles'.trans hfiles1, fun p t' hp => ?_⟩
    · rw [List.foldl_cons, hmem', hmem1, List.mem_cons, or_assoc]
    · obtain ⟨t, time, ht, rfl⟩ := hfrom p t' hp
      rw [hstored1] at ht
      by_cases hpq : p = q
      · subst hpq
        rw [Function.update_self] at ht
        obtain rfl := Option.some.inj ht
        exact ⟨w.task p, time, h.stored_task hq, rfl⟩
      · rw [Function.update_of_ne hpq] at ht
        exact ⟨t, time, ht, rfl⟩

end World.Indexed

/-- **The start of the daemon** from a task file with distinct names leaves consistent indexes, and
the stored tasks are those of the files. -/
theorem initDaemon_spec {env : BootEnv} {files : Files} {w : World} (hnames : DistinctNames files)
    (hw : initDaemon env files = some w) :
    w.StoreConsistent ∧ w.files = files ∧ ∀ p t, w.stored p = some t → Loaded files t := by
  unfold initDaemon at hw
  split at hw
  swap
  · simp at hw
  obtain ⟨w1, hw1, hw⟩ := Option.bind_eq_some_iff.mp hw
  obtain ⟨w2, hw2, hw⟩ := Option.bind_eq_some_iff.mp hw
  obtain rfl := Option.some.inj hw
  obtain ⟨hidx1, hrun1, hfiles1, hfrom1⟩ := readTaskFile_spec hnames hw1
  obtain ⟨hidx2, hdata2, hfiles2, hfrom2⟩ := hidx1.readStatusFiles hidx1.createque.nodup
    (fun p hp => (hidx1.create_iff p).mp hp) hw2
  have hvalid : w2.data.runque.Valid := by
    rw [hdata2, hrun1]
    exact ListQueue.valid_initListQue
  obtain ⟨hidx3, hrun3, hset3, hmem3, hfiles3, hfrom3⟩ := hidx2.addChecks hvalid
    (fun p hp => (hidx2.create_iff p).mp hp)
  refine ⟨⟨hidx3, hrun3, fun q => ?_⟩, hfiles3.trans (hfiles2.trans hfiles1), fun p t hp => ?_⟩
  · show q ∈ (w2.data.createque.items.foldl (addTaskChecks env) w2).data.runque.items ↔
      q ∈ (w2.data.createque.items.foldl (addTaskChecks env) w2).data.nameset.data
    rw [hmem3, hset3, hidx2.create_iff, hdata2, hrun1]
    simp [ListQueue.initListQue]
  · obtain ⟨t1, time, ht1, rfl⟩ := hfrom3 p t hp
    obtain ⟨t0, ht0, hread, _⟩ := hfrom2 p t1 ht1
    obtain ⟨body, hbody⟩ := hfrom1 p t0 ht0
    rw [hfiles1] at hread
    exact ⟨body, t0, t1, time, hbody, hread, rfl⟩

theorem distinctNames_noFiles : DistinctNames fun _ => none := fun _ h => by simp at h

/-- Without files the daemon starts with no task. -/
theorem initDaemon_noFiles :
    initDaemon .smooth (fun _ => none) = some (emptyWorld fun _ => none) := rfl

end OpenvasTool
