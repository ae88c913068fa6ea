import OpenvasTool.Gvm.Consistency

/-!
# The check scheduler

The time of the next check of a task changes while the task is linked in the run
queue. Every such change is followed by a requeue, so the queue stays ordered by
these times and its head is the task that is due first.
-/

namespace OpenvasTool

open Posix Support

/-- A reading of the monotonic clock for which the time of the next check fits an `int`. -/
def ClockOk (clk : ℤ) : Prop := 0 ≤ clk ∧ clk < 2 ^ 31 - 300

/-- A time between two such times differs from another by less than the range of an `int`. -/
def CheckTimeOk (time : ℤ) : Prop := 0 ≤ time ∧ time < 2 ^ 31

theorem checkTimeOk_set (t : ListGvmTask) {clk time : ℤ} (hclk : ClockOk clk) (htime : time ≤ 300) :
    CheckTimeOk (t.setTaskNextChkTime clk time).chkTime := by
  obtain ⟨hlow, hhigh⟩ := hclk
  unfold CheckTimeOk ListGvmTask.setTaskNextChkTime
  dsimp only
  split <;> omega

theorem cmpGvmRunChkTime_eq {t u : ListGvmTask} (ht : CheckTimeOk t.chkTime)
    (hu : CheckTimeOk u.chkTime) : cmpGvmRunChkTime t u = t.chkTime - u.chkTime := by
  obtain ⟨ht0, ht1⟩ := ht
  obtain ⟨hu0, hu1⟩ := hu
  exact Int.bmod_eq_of_le (by omega) (by omega)

/-- The order of the times. -/
theorem comparison_sub : Comparison fun a b : ℤ => a - b := by
  constructor
  · intro a b
    omega
  · intro a b c hab hbc
    omega

/-! ### Ordered lists of tasks -/

/-- The tasks of a list are ordered by the times of their next checks. -/
structure OrderedBy (time : Ptr → ℤ) (ps : List Ptr) : Prop where
  bounded : ∀ p ∈ ps, CheckTimeOk (time p)
  sorted : ps.Pairwise fun p q => time p ≤ time q

namespace OrderedBy

variable {time time' : Ptr → ℤ} {ps qs : List Ptr}

theorem congr (h : OrderedBy time ps) (heq : ∀ p ∈ ps, time' p = time p) :
    OrderedBy time' ps := by
  refine ⟨fun p hp => heq p hp ▸ h.bounded p hp, ?_⟩
  refine List.Pairwise.imp_of_mem (fun {p q} hp hq hle => ?_) h.sorted
  rw [heq p hp, heq q hq]
  exact hle

theorem sublist (h : OrderedBy time ps) (hsub : qs.Sublist ps) : OrderedBy time qs :=
  ⟨fun p hp => h.bounded p (hsub.subset hp), h.sorted.sublist hsub⟩

/-- Insertion by the comparison of the run queue, which cannot overflow here. -/
theorem insertLast {w : World} {p : Ptr} (h : OrderedBy (fun q => (w.task q).chkTime) ps)
    (hp : CheckTimeOk (w.task p).chkTime) :
    OrderedBy (fun q => (w.task q).chkTime)
      (Support.insertLast (fun q => cmpGvmRunChkTime (w.task q) (w.task p)) p ps) := by
  rw [insertLast_congr fun q hq => cmpGvmRunChkTime_eq (h.bounded q hq) hp]
  have hascending : Ascending (fun p q => (w.task p).chkTime - (w.task q).chkTime) ps :=
    List.Pairwise.imp (fun hle => Int.sub_nonpos_of_le hle) h.sorted
  have hinserted := hascending.insertLast (comparison_sub.comap fun q => (w.task q).chkTime) (x := p)
  refine ⟨fun q hq => ?_, List.Pairwise.imp (fun hle => Int.le_of_sub_nonpos hle) hinserted⟩
  rcases mem_insertLast.mp hq with rfl | hq
  · exact hp
  · exact h.bounded q hq

/-- The head of the list has the earliest time. -/
theorem head_le (h : OrderedBy time ps) {p : Ptr} (hp : ps.head? = some p) :
    ∀ q ∈ ps, time p ≤ time q := by
  obtain ⟨qs, rfl⟩ := List.head?_eq_some_iff.mp hp
  intro q hq
  rcases List.mem_cons.mp hq with rfl | hq
  · exact le_rfl
  · exact (List.pairwise_cons.mp h.sorted).1 q hq

end OrderedBy

namespace World

/-- The run queue is ordered by the times of the next checks. -/
def Scheduled (w : World) : Prop := OrderedBy (fun p => (w.task p).chkTime) w.data.runque.items

namespace Scheduled

variable {w w' : World}

/-- Nothing that matters for the schedule changed. -/
theorem congr (h : w.Scheduled) (hrun : w'.data.runque.items = w.data.runque.items)
    (htime : ∀ p ∈ w.data.runque.items, (w'.task p).chkTime = (w.task p).chkTime) :
    w'.Scheduled := by
  unfold Scheduled
  rw [hrun]
  exact OrderedBy.congr h htime

/-- A linked task gets a new time and is requeued. -/
theorem requeue (h : w.Scheduled) (hcons : w.StoreConsistent) {p : Ptr}
    (hp : p ∈ w.data.nameset.data) {t : ListGvmTask} (ht : CheckTimeOk t.chkTime) :
    ((w.setTask p t).queGvmRunTask p).Scheduled := by
  have hmem : p ∈ w.data.runque.items := (hcons.run_iff p).mpr hp
  have hitems : ((w.setTask p t).queGvmRunTask p).data.runque.items =
      Support.insertLast (fun q => cmpGvmRunChkTime ((w.setTask p t).task q)
        ((w.setTask p t).task p)) p (w.data.runque.items.erase p) := by
    show (ListQueue.requeList _ p w.data.runque).items = _
    unfold ListQueue.requeList ListQueue.delItem ListQueue.pushBack
    rw [if_pos hmem, if_pos hmem]
  have hrest : OrderedBy (fun q => ((w.setTask p t).task q).chkTime)
      (w.data.runque.items.erase p) := by
    refine OrderedBy.congr (OrderedBy.sublist h List.erase_sublist) fun q hq => ?_
    have hne : q ≠ p := ((hcons.runque.nodup.mem_erase_iff).mp hq).1
    rw [task_setTask, if_neg hne]
  unfold Scheduled
  rw [hitems]
  have ht' : CheckTimeOk ((w.setTask p t).task p).chkTime := by rwa [task_setTask_self]
  exact OrderedBy.insertLast hrest ht'

/-- A new task is put into the run queue. -/
theorem addGvmRunTask (h : w.Scheduled) {p : Ptr} (hp : CheckTimeOk (w.task p).chkTime) :
    (w.addGvmRunTask p).Scheduled := by
  unfold World.addGvmRunTask
  split
  · exact h
  · exact OrderedBy.insertLast h hp

/-- Freeing a task that is not in the run queue. -/
theorem freeGvmTask (h : w.Scheduled) {p : Ptr} (hp : p ∉ w.data.runque.items) :
    (w.freeGvmTask p).Scheduled := by
  refine h.congr rfl fun q hq => ?_
  have hne : q ≠ p := fun heq => hp (heq ▸ hq)
  simp [World.task, World.freeGvmTask, hne]

/-- A new task is in memory, but not in the run queue. -/
theorem newTask (h : w.Scheduled) (hcons : w.StoreConsistent) (t : ListGvmTask) :
    (w.newTask t).2.Scheduled := by
  refine h.congr rfl fun q hq => ?_
  simp only [task, hcons.heap_newTask t ((hcons.run_iff q).mp hq)]

end Scheduled

/-- The run queue and the memory do not take part in an insertion into the other indexes. -/
theorem runque_addGvmTask_getD (w : World) (realloc : Bool) (p : Ptr) :
    ((w.addGvmTask realloc p).getD w).data.runque = w.data.runque ∧
      ((w.addGvmTask realloc p).getD w).heap = w.heap := by
  cases hadd : w.addGvmTask realloc p with
  | none => exact ⟨rfl, rfl⟩
  | some w' =>
    obtain ⟨hheap, _, _, hrun, _⟩ := addGvmTask_frame hadd
    exact ⟨hrun, hheap⟩

theorem runque_delGvmTask_getD (w : World) (key : ListGvmTask) :
    ((w.delGvmTask key).getD w).data.runque = w.data.runque ∧
      ((w.delGvmTask key).getD w).heap = w.heap := by
  cases hdel : w.delGvmTask key with
  | none => exact ⟨rfl, rfl⟩
  | some w' =>
    obtain ⟨r, _, rfl⟩ := Option.map_eq_some_iff.mp hdel
    exact ⟨rfl, rfl⟩

theorem Scheduled.of_eq {w w' : World} (h : w.Scheduled) (hrun : w'.data.runque = w.data.runque)
    (hheap : w'.heap = w.heap) : w'.Scheduled := by
  refine h.congr (by rw [hrun]) fun q _ => ?_
  simp only [task, hheap]

end World

open World

/-! ### The operations -/

/-- Storing a new task that has the time of its first check. -/
theorem scheduled_createTaskRelationFiles {w : World} (h : w.Scheduled) (env : Env) {p : Ptr}
    (hp : CheckTimeOk (w.task p).chkTime) : (createTaskRelationFiles env w p).2.Scheduled := by
  unfold createTaskRelationFiles
  simp only [prepareGvmPaths_eq]
  split
  swap
  · exact h
  split
  · exact h.of_eq rfl rfl
  rename_i added hadd
  obtain ⟨hheap, _, _, hrun, _⟩ := addGvmTask_frame hadd
  have hadded : added.Scheduled := h.of_eq hrun hheap
  have htime : CheckTimeOk (added.task p).chkTime := by
    simp only [World.task, hheap]
    exact hp
  split
  · rename_i files _
    have hfiles : ({ added with files := files } : World).Scheduled := hadded.of_eq rfl rfl
    exact hfiles.addGvmRunTask htime
  · obtain ⟨hrun', hheap'⟩ := runque_delGvmTask_getD added (added.task p)
    exact hadded.of_eq hrun' hheap'

/-- A deletion that failed leaves the run queue alone. -/
theorem scheduled_delTaskRelationFiles_failed {w w' : World} (h : w.Scheduled) {env : Env}
    {p : Ptr} (hdel : delTaskRelationFiles env w p = (false, w')) : w'.Scheduled := by
  unfold delTaskRelationFiles at hdel
  simp only [prepareGvmPaths_eq] at hdel
  split at hdel
  · obtain rfl := (Prod.mk.inj hdel).2
    exact h
  rename_i deleted hdeleted
  obtain ⟨r, _, rfl⟩ := Option.map_eq_some_iff.mp hdeleted
  split at hdel
  · simp at hdel
  · obtain rfl := (Prod.mk.inj hdel).2
    obtain ⟨hrun, hheap⟩ := runque_addGvmTask_getD { w with data := { w.data with
      nameset := r.2, createque := w.data.createque.delItem r.1 } } env.realloc p
    exact h.of_eq hrun hheap

/-- A task that was removed leaves the run queue. -/
theorem scheduled_removed {w : World} (h : w.Scheduled) (hcons : w.StoreConsistent) (p : Ptr)
    (files : Files) :
    ({ (w.unlink p).delGvmRunTask p with files := files }.freeGvmTask p).Scheduled := by
  have hdel : ({ (w.unlink p).delGvmRunTask p with files := files } : World).Scheduled := by
    have hsub : (w.data.runque.delItem p).items.Sublist w.data.runque.items := by
      unfold ListQueue.delItem
      split
      · exact List.erase_sublist
      · exact List.Sublist.refl _
    exact OrderedBy.sublist h hsub
  exact hdel.freeGvmTask fun hmem => (hcons.runque.mem_delItem.mp hmem).1 rfl

/-- A request that fails to store its task does not put it into the run queue. -/
theorem runque_createTaskRelationFiles_failed (w : World) (env : Env) (p : Ptr) :
    (createTaskRelationFiles env w p).1 = false →
      (createTaskRelationFiles env w p).2.data.runque.items = w.data.runque.items := by
  unfold createTaskRelationFiles
  simp only [prepareGvmPaths_eq]
  split
  swap
  · exact fun _ => rfl
  split
  · exact fun _ => rfl
  rename_i added hadd
  obtain ⟨_, _, _, hrun, _⟩ := addGvmTask_frame hadd
  split
  · simp
  · intro _
    show ((added.delGvmTask (added.task p)).getD added).data.runque.items = _
    rw [(runque_delGvmTask_getD added (added.task p)).1, hrun]

/-! The times to the next check are at most 300 seconds. -/

theorem defTaskChkTimeInterval_le (type : GvmTaskChkType) : defTaskChkTimeInterval type ≤ 300 := by
  cases type <;> decide

theorem interval_queryTask_le (env : Env) (t : ListGvmTask) (files : Files) :
    (queryTask env t files).interval ≤ 300 := by
  unfold queryTask
  dsimp only
  split
  · exact defTaskChkTimeInterval_le .chkTask
  · split
    · exact defTaskChkTimeInterval_le .chkTask
    · show (0 : ℤ) ≤ 300
      omega

theorem interval_reportChkType_le (t : ListGvmTask) : (reportChkType t).2 ≤ 300 := by
  unfold reportChkType
  split
  · exact defTaskChkTimeInterval_le .chkReport
  · split
    · show (0 : ℤ) ≤ 300
      omega
    · exact defTaskChkTimeInterval_le .chkTask

theorem interval_queryReport_le (env : Env) (t : ListGvmTask) (files : Files) :
    (queryReport env t files).interval ≤ 300 := by
  unfold queryReport
  dsimp only
  split
  · exact defTaskChkTimeInterval_le .chkReport
  · split
    · exact interval_reportChkType_le _
    · exact defTaskChkTimeInterval_le .chkReport

theorem interval_queryResult_le (env : Env) (t : ListGvmTask) (files : Files) :
    (queryResult env t files).interval ≤ 300 := by
  unfold queryResult
  dsimp only
  split
  · exact defTaskChkTimeInterval_le .chkResult
  · split
    · exact defTaskChkTimeInterval_le .chkResult
    · split
      · exact defTaskChkTimeInterval_le .chkResult
      · exact defTaskChkTimeInterval_le .chkTask

namespace World.StoreConsistent

variable {w : World} (hcons : w.StoreConsistent) (h : w.Scheduled)

include hcons h

/-- A task is due at once. -/
theorem scheduled_recheck {p : Ptr} (hp : w.stored p = some (w.task p)) {env : Env}
    (hclk : ClockOk env.clkNext) : (w.recheck env p).Scheduled :=
  h.requeue hcons (stored_eq_some.mp hp).1 (checkTimeOk_set _ hclk (by decide))

theorem scheduled_finishCheck {p : Ptr} (hp : p ∈ w.data.nameset.data) {env : Env}
    (hclk : ClockOk env.clkNext) (c : Check) (htime : c.interval ≤ 300) :
    (w.finishCheck env p c).Scheduled := by
  have hreq := h.requeue hcons hp (checkTimeOk_set c.task hclk htime)
  exact hreq.of_eq rfl rfl

/-- A check requeues its task, or removes it. -/
theorem scheduled_checkTask {p : Ptr} (hp : w.stored p = some (w.task p)) {env : Env}
    (hclk : ClockOk env.clkNext) : (checkTask env w p).1.Scheduled := by
  have hmem := (stored_eq_some.mp hp).1
  unfold checkTask
  dsimp only
  split
  · exact hcons.scheduled_finishCheck h hmem hclk _ (interval_queryTask_le _ _ _)
  · exact hcons.scheduled_finishCheck h hmem hclk _ (interval_queryReport_le _ _ _)
  · exact hcons.scheduled_finishCheck h hmem hclk _ (interval_queryResult_le _ _ _)
  · rcases delTaskRelationFiles_spec hcons hmem env with ⟨files, hdel⟩ | ⟨w', hdel, hsame⟩
    · rw [hdel]
      exact scheduled_removed h hcons p files
    · rw [hdel]
      have hmem' : p ∈ w'.data.nameset.data := (hsame.mem_iff p).mpr hmem
      exact (scheduled_delTaskRelationFiles_failed h hdel).requeue hsame.consistent hmem'
        (checkTimeOk_set _ hclk (by decide))

theorem scheduled_daemonDeleteTask (env : Env) (input : Text) :
    (daemonDeleteTask env w input).world.Scheduled := by
  unfold daemonDeleteTask
  rcases hcons.withKeyTask_cases env input _ with ⟨hworld, _, _⟩ | ⟨_, p, _, hp, _, heq⟩
  · rw [hworld]
    exact h
  rw [heq]
  dsimp only
  split
  · exact h
  split
  swap
  · exact h
  obtain ⟨a, b, hinfo⟩ := deleteTaskObjects_val env (w.task p)
  have hmem := (stored_eq_some.mp hp).1
  set t := { w.task p with taskInfo := (deleteTaskObjects env (w.task p)).val } with ht
  have hc := hcons.setTask (t := t) hmem (by simp [ht, hinfo])
  have hset : (w.setTask p t).Scheduled := by
    refine h.congr rfl fun q _ => ?_
    rw [task_setTask]
    split
    · rename_i hqp
      rw [hqp]
    · rfl
  rcases delTaskRelationFiles_spec hc hmem env with ⟨files, hdel⟩ | ⟨w', hdel, _⟩
  · rw [hdel]
    exact scheduled_removed hset hc p files
  · rw [hdel]
    refine (scheduled_delTaskRelationFiles_failed hset hdel).congr rfl fun q _ => ?_
    rw [task_setTask]
    split
    · rename_i hqp
      rw [hqp]
      rfl
    · rfl

theorem scheduled_daemonCreateTask {env : Env} (hclk : ClockOk env.clkNext) (input : Text) :
    (daemonCreateTask env w input).world.Scheduled := by
  unfold daemonCreateTask
  split
  swap
  · exact h
  split
  · exact h
  rename_i t0 _
  split
  swap
  · exact h
  split
  · exact h
  dsimp only
  split
  swap
  · exact h
  set t := stampTask env (createTaskObjects env t0).val.2
  have hnew := h.newTask hcons t
  have htime : CheckTimeOk ((w.newTask t).2.task (w.newTask t).1).chkTime := by
    have htask : (w.newTask t).2.task (w.newTask t).1 = t := task_setTask_self w w.next t
    rw [htask]
    exact checkTimeOk_set _ hclk (by decide)
  have hcreate := scheduled_createTaskRelationFiles hnew env htime
  have hfail := runque_createTaskRelationFiles_failed (w.newTask t).2 env (w.newTask t).1
  split
  · rename_i w' heq
    rw [heq] at hcreate
    exact hcreate
  · rename_i w' heq
    rw [heq] at hcreate hfail
    refine hcreate.freeGvmTask fun hmem => ?_
    rw [hfail rfl] at hmem
    exact (hcons.lt_next ((hcons.run_iff _).mp hmem)).ne rfl

/-- **Every step keeps the run queue ordered.** -/
theorem scheduled_daemonStep {env : Env} (hclk : ClockOk env.clkNext) (e : Event) :
    (daemonStep env w e).world.Scheduled := by
  cases e with
  | startTask input =>
    rcases hcons.daemonStartTask_cases env input with ⟨hw, _⟩ | ⟨_, p, _, _, hp, _, _, _, _, hw⟩
    · rw [daemonStep, hw]
      exact h
    · rw [daemonStep, hw]
      exact hcons.scheduled_recheck h hp hclk
  | stopTask input =>
    rcases hcons.daemonStopTask_cases env input with hw | ⟨p, hp, _, hw⟩
    · rw [daemonStep, hw]
      exact h
    · rw [daemonStep, hw]
      exact hcons.scheduled_recheck h hp hclk
  | deleteTask input => exact hcons.scheduled_daemonDeleteTask h env input
  | createTask input => exact hcons.scheduled_daemonCreateTask h hclk input
  | runGvmChecks =>
    rw [daemonStep, OpenvasTool.runGvmChecks]
    cases hdue : dueTask env w with
    | none => exact h
    | some p => exact hcons.scheduled_checkTask h (hcons.stored_dueTask hdue) hclk
  | validateGvmConn =>
    rw [daemonStep, OpenvasTool.validateGvmConn]
    dsimp only
    split <;> [skip; split] <;> exact h.of_eq rfl rfl

end World.StoreConsistent

/-! ### The start of the daemon -/

/-- The first checks of several new tasks. -/
theorem scheduled_addTaskChecks {env : BootEnv} (hclk : ∀ p, ClockOk (env.clk p)) {ps : List Ptr}
    {w : World} (h : w.Scheduled) (hnodup : ps.Nodup)
    (hnew : ∀ p ∈ ps, p ∉ w.data.runque.items) :
    (ps.foldl (addTaskChecks env) w).Scheduled := by
  induction ps generalizing w with
  | nil => exact h
  | cons p ps ih =>
    obtain ⟨hp, hnodup⟩ := List.nodup_cons.mp hnodup
    have hnewp : p ∉ w.data.runque.items := hnew p (by simp)
    set t := (w.task p).setTaskNextChkTime (env.clk p) (defTaskChkTimeInterval .chkTask) with ht
    have hset : (w.setTask p t).Scheduled := by
      refine h.congr rfl fun q hq => ?_
      have hne : q ≠ p := fun heq => hnewp (heq ▸ hq)
      rw [task_setTask, if_neg hne]
    have htime : CheckTimeOk ((w.setTask p t).task p).chkTime := by
      rw [task_setTask_self, ht]
      exact checkTimeOk_set _ (hclk p) (defTaskChkTimeInterval_le _)
    rw [List.foldl_cons]
    refine ih (hset.addGvmRunTask htime) hnodup fun q hq hmem => ?_
    unfold addTaskChecks World.addGvmRunTask at hmem
    rw [if_neg (show p ∉ (w.setTask p t).data.runque.items from hnewp)] at hmem
    rcases ListQueue.mem_pushBack.mp hmem with rfl | hold
    · exact hp hq
    · exact hnew q (by simp [hq]) hold

/-- The daemon starts with an ordered run queue. -/
theorem scheduled_initDaemon {env : BootEnv} {files : Files} {w : World}
    (hnames : DistinctNames files) (hw : initDaemon env files = some w)
    (hclk : ∀ p, ClockOk (env.clk p)) : w.Scheduled := by
  unfold initDaemon at hw
  split at hw
  swap
  · simp at hw
  obtain ⟨w1, hw1, hw⟩ := Option.bind_eq_some_iff.mp hw
  obtain ⟨w2, hw2, hw⟩ := Option.bind_eq_some_iff.mp hw
  obtain rfl := Option.some.inj hw
  obtain ⟨hidx1, hrun1, _, _⟩ := readTaskFile_spec hnames hw1
  obtain ⟨hidx2, hdata2, _, _⟩ := hidx1.readStatusFiles hidx1.createque.nodup
    (fun p hp => (hidx1.create_iff p).mp hp) hw2
  have hempty : w2.data.runque.items = [] := by
    rw [hdata2, hrun1]
    rfl
  have h2 : w2.Scheduled := by
    unfold World.Scheduled
    rw [hempty]
    exact ⟨by simp, List.Pairwise.nil⟩
  exact scheduled_addTaskChecks hclk h2 hidx2.createque.nodup (by simp [hempty])

/-- Every run of the daemon keeps the run queue ordered. -/
theorem scheduled_run {w : World} (hcons : w.StoreConsistent) (h : w.Scheduled)
    {is : List (Event × Env)} (hclk : ∀ i ∈ is, ClockOk i.2.clkNext) :
    (daemonRun w is).Scheduled := by
  induction is generalizing w with
  | nil => exact h
  | cons i is ih =>
    have hstep := hcons.scheduled_daemonStep h (hclk i (by simp)) i.1
    exact ih (hcons.daemonStep_spec i.2 i.1).1 hstep fun j hj => hclk j (by simp [hj])

/-! ### Due tasks -/

/-- The task is stored and the time of its next check has come. -/
def World.DueAt (w : World) (clk : ℤ) (p : Ptr) : Prop :=
  ∃ t, w.stored p = some t ∧ t.chkTime ≤ clk

/-- With the connection to gvmd, the checker makes a check exactly when a stored task is due, and
then it checks a due task, one with the earliest time of all stored tasks. -/
structure World.ChecksDue (w : World) (env : Env) : Prop where
  check_iff : (runGvmChecks env w).1 = true ↔ ∃ p, w.DueAt env.clk p
  earliest : (runGvmChecks env w).1 = true → ∃ p, w.DueAt env.clk p ∧
    (∀ q u, w.stored q = some u → (w.task p).chkTime ≤ u.chkTime) ∧
    (runGvmChecks env w).2 = checkTask env w p

/-- The head of an ordered run queue is due if any stored task is. -/
theorem World.Scheduled.checksDue {w : World} (h : w.Scheduled) (hcons : w.StoreConsistent)
    {env : Env} (hconn : w.data.isGvmConnOk = true) : w.ChecksDue env := by
  have hmem : ∀ q u, w.stored q = some u → q ∈ w.data.runque.items :=
    fun q u hq => (hcons.run_iff q).mpr (stored_eq_some.mp hq).1
  have hhead : dueTask env w = w.data.runque.items.head?.filter fun p =>
      (w.task p).isTaskChkTimeExpired env.clk := by
    unfold dueTask
    rw [if_pos hconn]
    rfl
  cases hdue : dueTask env w with
  | none =>
    have hnone : (runGvmChecks env w).1 = false := by
      unfold OpenvasTool.runGvmChecks
      rw [hdue]
    refine ⟨?_, by simp [hnone]⟩
    rw [hnone]
    constructor
    · simp
    · rintro ⟨q, u, hq, htime⟩
      -- the head is at least as early as the due task
      obtain ⟨p, hp⟩ : ∃ p, w.data.runque.items.head? = some p :=
        ⟨_, List.head?_eq_some_head (List.ne_nil_of_mem (hmem q u hq))⟩
      have hle := OrderedBy.head_le h hp q (hmem q u hq)
      rw [hhead, hp, Option.filter_some] at hdue
      have hexpired : (w.task p).isTaskChkTimeExpired env.clk = true := by
        rw [task_of_stored hq] at hle
        unfold ListGvmTask.isTaskChkTimeExpired
        rw [decide_eq_true_iff]
        omega
      rw [if_pos hexpired] at hdue
      simp at hdue
  | some p =>
    have hsome : runGvmChecks env w = (true, checkTask env w p) := by
      unfold OpenvasTool.runGvmChecks
      rw [hdue]
    have hp := hcons.stored_dueTask hdue
    rw [hhead] at hdue
    obtain ⟨hphead, hexpired⟩ := Option.filter_eq_some_iff.mp hdue
    have hpdue : w.DueAt env.clk p := ⟨w.task p, hp, of_decide_eq_true hexpired⟩
    refine ⟨⟨fun _ => ⟨p, hpdue⟩, fun _ => by rw [hsome]⟩, fun _ => ⟨p, hpdue, ?_, by rw [hsome]⟩⟩
    intro q u hq
    have hle := OrderedBy.head_le h hphead q (hmem q u hq)
    rwa [task_of_stored hq] at hle

/-- **The scheduler never misses a due task.** In every state between two steps the run queue is
ordered by the times of the next checks, and with the connection to gvmd exactly the due tasks
cause a check, the earliest one first. -/
theorem checksDue_run {env : BootEnv} {files : Files} {w : World} (hnames : DistinctNames files)
    (hstart : initDaemon env files = some w) (hboot : ∀ p, ClockOk (env.clk p))
    {is : List (Event × Env)} (hclk : ∀ i ∈ is, ClockOk i.2.clkNext) :
    (((daemonRun w is).data.runque.items.map (daemonRun w is).task).Pairwise fun t u =>
        t.chkTime ≤ u.chkTime) ∧
      ((daemonRun w is).data.isGvmConnOk = true →
        ∀ env', (daemonRun w is).ChecksDue env') := by
  have hcons := (initDaemon_spec hnames hstart).1
  have h := scheduled_run hcons (scheduled_initDaemon hnames hstart hboot) hclk
  exact ⟨List.pairwise_map.mpr h.sorted, fun hconn env' => h.checksDue (hcons.run is) hconn⟩

/-- Of two tasks one is due at once, and the other 300 seconds after its creation. -/
theorem checksDue_run_sampleMixedSteps :
    let w := daemonRun (emptyWorld fun _ => none) sampleMixedSteps
    w.data.runque.items.map (fun p => (w.task p).chkTime) = [0, 1300] ∧
      ((w.data.runque.items.map w.task).Pairwise fun t u => t.chkTime ≤ u.chkTime) ∧
      w.ChecksDue (.smooth sampleGvmd) := by
  have hclk : ∀ i ∈ sampleMixedSteps, ClockOk i.2.clkNext := by
    have hsame : ∀ i ∈ sampleMixedSteps, i.2.clkNext = 1000 := by decide +kernel
    intro i hi
    rw [hsame i hi]
    exact ⟨by decide, by decide⟩
  have hconn : (daemonRun (emptyWorld fun _ => none) sampleMixedSteps).data.isGvmConnOk = true := by
    decide +kernel
  have hrun := checksDue_run distinctNames_noFiles initDaemon_noFiles
    (fun _ => ⟨le_rfl, show (0 : ℤ) < 2 ^ 31 - 300 by decide⟩) hclk
  exact ⟨by decide +kernel, hrun.1, hrun.2 hconn _⟩

end OpenvasTool
