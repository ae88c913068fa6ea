import OpenvasTool.FileLimit
import OpenvasTool.Php.HydraTasks
import OpenvasTool.RestartRuns

/-!
# The life of the hydra part

The hydra part runs, is stopped between two steps and is started again, any
number of times, while the task processes and the rest of the program change
other files. As long as the options of new tasks can be read back, a start finds
every task of the last run, without its process, and the web page has an entry
for every task at any time.
-/

namespace OpenvasTool

open Posix Posix.Regex Support

/-! ### The tasks of a store -/

namespace HydraWorld.Indexed

variable {w w' : HydraWorld} (h : w.Indexed)

include h

theorem mem_createque_iff {p : Ptr} : p ∈ w.data.createque.items ↔ (w.stored p).isSome := by
  constructor
  · intro hp
    rw [h.stored_task ((h.items.que_iff p).mp hp)]
    rfl
  · intro hp
    obtain ⟨t, ht⟩ := Option.isSome_iff_exists.mp hp
    exact (h.items.que_iff p).mpr (stored_eq_some.mp ht).1

theorem mem_tasks {t : ListHydraTask} : t ∈ w.tasks ↔ ∃ p, w.stored p = some t := by
  constructor
  · intro ht
    obtain ⟨p, hp, rfl⟩ := List.mem_map.mp ht
    exact ⟨p, h.stored_task ((h.items.que_iff p).mp hp)⟩
  · rintro ⟨p, hp⟩
    refine List.mem_map.mpr ⟨p, h.mem_createque_iff.mpr ?_, task_of_stored hp⟩
    rw [hp]
    rfl

/-- Stores with the same values have them as often. -/
theorem tasks_perm {β : Type*} (h' : w'.Indexed) {f : ListHydraTask → β}
    (hstored : ∀ p, (w'.stored p).map f = (w.stored p).map f) :
    (w'.tasks.map f).Perm (w.tasks.map f) := by
  have hmem : ∀ p, p ∈ w'.data.createque.items ↔ p ∈ w.data.createque.items := by
    intro p
    rw [h'.mem_createque_iff, h.mem_createque_iff, ← Option.isSome_map, hstored, Option.isSome_map]
  have hitems := (List.perm_ext_iff_of_nodup h'.items.que.nodup h.items.que.nodup).mpr hmem
  have hsame : ∀ p ∈ w.data.createque.items, f (w'.task p) = f (w.task p) := by
    intro p hp
    have hp' := hstored p
    rw [h'.stored_task ((h'.items.que_iff p).mp ((hmem p).mpr hp)),
      h.stored_task ((h.items.que_iff p).mp hp)] at hp'
    exact Option.some.inj hp'
  have hmap := hitems.map fun p => f (w'.task p)
  rw [List.map_congr_left hsame] at hmap
  rw [tasks, tasks, List.map_map, List.map_map]
  exact hmap

/-- A new task is added to the others. -/
theorem tasks_added (h' : w'.Indexed) {p : Ptr} {t : ListHydraTask} (hp : w.stored p = none)
    (hstored : w'.stored = Function.update w.stored p (some t)) : w'.tasks.Perm (t :: w.tasks) := by
  have hnew : p ∉ w.data.createque.items := by
    rw [h.mem_createque_iff, hp]
    simp
  have hmem : ∀ q, q ∈ w'.data.createque.items ↔ q ∈ p :: w.data.createque.items := by
    intro q
    rw [h'.mem_createque_iff, List.mem_cons, h.mem_createque_iff, hstored]
    by_cases hqp : q = p
    · simp [hqp]
    · rw [Function.update_of_ne hqp]
      simp [hqp]
  have hitems := (List.perm_ext_iff_of_nodup h'.items.que.nodup
    (List.nodup_cons.mpr ⟨hnew, h.items.que.nodup⟩)).mpr hmem
  have hself : w'.task p = t := task_of_stored (by rw [hstored, Function.update_self])
  have hold : ∀ q ∈ w.data.createque.items, w'.task q = w.task q := by
    intro q hq
    have hqp : q ≠ p := fun heq => hnew (heq ▸ hq)
    apply task_of_stored
    rw [hstored, Function.update_of_ne hqp]
    exact h.stored_task ((h.items.que_iff q).mp hq)
  have htasks := hitems.map w'.task
  rw [List.map_cons, hself, List.map_congr_left hold] at htasks
  exact htasks

/-- The names of the tasks are distinct. -/
theorem nodup_taskNames : (w.tasks.map ListHydraTask.taskName).Nodup := by
  rw [tasks, List.map_map]
  refine h.items.que.nodup.map_on fun p hp q hq heq => ?_
  exact h.name_injective (h.stored_task ((h.items.que_iff p).mp hp))
    (h.stored_task ((h.items.que_iff q).mp hq)) heq

end HydraWorld.Indexed

/-! ### What the files have -/

/-- A task as create requests store it, whose options can be read back. -/
structure HydraRecord (t : ListHydraTask) : Prop where
  checked : CheckedHydra t
  readable : ReadableHydra t
  taskId : t.taskId.text ∈ lowerUuid.lang

/-- Only what the task file keeps matters. -/
theorem HydraRecord.congr {t u : ListHydraTask} (h : HydraRecord t) (hsaved : u.saved = t.saved) :
    HydraRecord u := by
  have hid : u.saved.taskId = t.saved.taskId := congrArg ListHydraTask.taskId hsaved
  refine ⟨checkedHydra_saved.mp ?_, readableHydra_saved.mp ?_, ?_⟩
  · rw [hsaved]
    exact checkedHydra_saved.mpr h.checked
  · rw [hsaved]
    exact readableHydra_saved.mpr h.readable
  · change u.saved.taskId.text ∈ _
    rw [hid]
    exact h.taskId

theorem HydraRecord.pageRecord {t : ListHydraTask} (h : HydraRecord t) : HydraPageRecord t :=
  ⟨h.checked.cleanField h.readable, h.taskId⟩

/-- The hydra task file has these tasks. -/
def HydraFileSaved (files : Files) (ts : List ListHydraTask) : Prop :=
  (files hydraTaskFile = none ∧ ts = []) ∨
    ∃ text, files hydraTaskFile = some text ∧ writeHydraRecords maxCacheSize ts = some text

theorem HydraFileSaved.congr {files files' : Files} {ts : List ListHydraTask}
    (h : HydraFileSaved files ts) (hsame : files' hydraTaskFile = files hydraTaskFile) :
    HydraFileSaved files' ts := by
  unfold HydraFileSaved
  rw [hsame]
  exact h

/-- The files have the stored tasks, and the tasks can be read back. -/
structure HydraWorld.Saved (w : HydraWorld) : Prop where
  pids : w.PidsOwned
  records : ∀ t ∈ w.tasks, HydraRecord t
  onDisk : ∃ ts, HydraFileSaved w.files ts ∧
    (ts.map ListHydraTask.saved).Perm (w.tasks.map ListHydraTask.saved)

namespace HydraWorld.Saved

variable {w w' : HydraWorld}

/-- The tasks on disk have what the tasks in memory have. -/
theorem record_of_mem (h : w.Saved) {ts : List ListHydraTask}
    (hperm : (ts.map ListHydraTask.saved).Perm (w.tasks.map ListHydraTask.saved)) :
    ∀ t ∈ ts, HydraRecord t := by
  intro t ht
  obtain ⟨u, hu, heq⟩ := List.mem_map.mp (hperm.mem_iff.mp (List.mem_map_of_mem ht))
  exact (h.records u hu).congr heq.symm

theorem nodup_of_perm (h : w.Saved) {ts : List ListHydraTask}
    (hperm : (ts.map ListHydraTask.saved).Perm (w.tasks.map ListHydraTask.saved)) :
    (ts.map ListHydraTask.taskName).Nodup := by
  have hnames := hperm.map ListHydraTask.taskName
  rw [List.map_map, List.map_map] at hnames
  exact hnames.nodup_iff.mpr h.pids.indexed.nodup_taskNames

/-- A step that changes neither the task file nor what it keeps of the tasks. -/
theorem kept (h : w.Saved) (hpids : w'.PidsOwned)
    (hstored : ∀ p, (w'.stored p).map ListHydraTask.saved = (w.stored p).map ListHydraTask.saved)
    (hfile : w'.files hydraTaskFile = w.files hydraTaskFile) : w'.Saved := by
  have hperm := h.pids.indexed.tasks_perm hpids.indexed hstored
  obtain ⟨ts, hsaved, hts⟩ := h.onDisk
  exact ⟨hpids, h.record_of_mem hperm, ts, hsaved.congr hfile, hts.trans hperm.symm⟩

/-- A step that writes the task file. -/
theorem written (hpids : w'.PidsOwned) (hrecords : ∀ t ∈ w'.tasks, HydraRecord t)
    (hfile : HydraFileSaved w'.files w'.tasks) : w'.Saved :=
  ⟨hpids, hrecords, w'.tasks, hfile, .refl _⟩

end HydraWorld.Saved

/-! ### Writing the task file -/

theorem writeHydraTaskFile_saved {env : HydraEnv} {w : HydraWorld}
    (h : (writeHydraTaskFile env w).1 = 0) : HydraFileSaved (writeHydraTaskFile env w).2 w.tasks := by
  obtain ⟨content, hwrite, hfile, -⟩ := writeHydraTaskFile_content h
  exact Or.inr ⟨content, hfile, hwrite⟩

/-- A write that fails leaves the task file alone. -/
theorem writeHydraTaskFile_unwritten {env : HydraEnv} {w : HydraWorld} {code : ℤ} {files : Files}
    (h : writeHydraTaskFile env w = (code, files)) (hcode : code ≠ 0) :
    files hydraTaskFile = w.files hydraTaskFile := by
  obtain rfl : (writeHydraTaskFile env w).1 = code := congrArg Prod.fst h
  obtain rfl : (writeHydraTaskFile env w).2 = files := congrArg Prod.snd h
  exact writeHydraTaskFile_failed hcode (by decide)

/-- The files below a task directory and the cron files are not the task file. -/
theorem rollback_hydraTaskFile (env : HydraEnv) (files : Files) (id : Text) :
    env.deleteDir (hydraPaths id).taskDir (deleteFile env (hydraPaths id).cronFileNorm files)
      hydraTaskFile = files hydraTaskFile := by
  have hcron : hydraTaskFile ≠ (hydraPaths id).cronFileNorm := (cronFileNorm_ne id).1.symm
  have hdelete : deleteFile env (hydraPaths id).cronFileNorm files hydraTaskFile =
      files hydraTaskFile := by
    unfold deleteFile
    split
    · simp [Files.set, hcron]
    · rfl
  unfold Env.deleteDir
  rw [if_neg fun hbelow => (not_below_hydraTaskFile id).1 hbelow.1, hdelete]

/-- A creation that fails leaves the task file alone; one that succeeds has written it. -/
theorem writeHydraRelationFile_saved {env : HydraEnv} {w : HydraWorld} {p : Ptr}
    {r : Bool × HydraWorld} (hr : writeHydraRelationFile env w p = r) :
    (r.1 = false → r.2.files hydraTaskFile = w.files hydraTaskFile) ∧
      (r.1 = true → HydraFileSaved r.2.files r.2.tasks) := by
  have hdir : ∀ r', writeHydraTaskDir env (w.task p) (hydraPaths (w.task p).taskId.text) w.files = r' →
      r'.2 hydraTaskFile = w.files hydraTaskFile := by
    rintro r' rfl
    exact writeHydraTaskDir_other (not_hydraOwns_hydraTaskFile _).1
  subst hr
  unfold writeHydraRelationFile
  rw [prepareHydraPaths_eq]
  dsimp only
  split
  · exact ⟨fun _ => rfl, fun h => nomatch h⟩
  · rename_i added hadded
    split
    swap
    · exact ⟨fun _ => rollback_hydraTaskFile env _ _, fun h => nomatch h⟩
    split
    · rename_i files hfiles
      have hkept := hdir _ hfiles
      split
      · rename_i files' hwrite
        refine ⟨(fun h => nomatch h), fun _ => ?_⟩
        have hsaved := writeHydraTaskFile_saved (congrArg Prod.fst hwrite)
        rw [hwrite] at hsaved
        exact hsaved
      · rename_i code files' hcode hwrite
        have hsame := writeHydraTaskFile_unwritten hwrite hcode
        exact ⟨fun _ => (rollback_hydraTaskFile env _ _).trans (hsame.trans hkept),
          fun h => nomatch h⟩
    · rename_i code files hcode hfiles
      exact ⟨fun _ => (rollback_hydraTaskFile env _ _).trans (hdir _ hfiles), fun h => nomatch h⟩

/-- A deletion that fails leaves the task file alone; one that succeeds has written it. -/
theorem delHydraRelationFiles_saved {env : HydraEnv} {w : HydraWorld} {p : Ptr}
    {r : Bool × HydraWorld} (hr : delHydraRelationFiles env w p = r) :
    (r.1 = false → r.2.files hydraTaskFile = w.files hydraTaskFile) ∧
      (r.1 = true → HydraFileSaved r.2.files r.2.tasks) := by
  subst hr
  unfold delHydraRelationFiles
  rw [prepareHydraPaths_eq]
  dsimp only
  split
  · exact ⟨fun _ => rfl, fun h => nomatch h⟩
  · rename_i deleted hdeleted
    obtain ⟨r', _, rfl⟩ := Option.map_eq_some_iff.mp hdeleted
    split
    · rename_i files hwrite
      refine ⟨(fun h => nomatch h), fun _ => ?_⟩
      have hsaved := writeHydraTaskFile_saved (congrArg Prod.fst hwrite)
      rw [hwrite] at hsaved
      exact hsaved.congr (rollback_hydraTaskFile env _ _)
    · rename_i code files hcode hwrite
      have hsame := writeHydraTaskFile_unwritten hwrite hcode
      exact ⟨fun _ => hsame, fun h => nomatch h⟩

/-! ### Steps -/

/-- What is assumed about a create request: its options have none of the characters that the reader
of the task file rejects, and the clock gives a time stamp. -/
def HydraPromised (env : HydraEnv) (e : HydraEvent) : Prop :=
  ∀ input task, e = .createHydra input → getCreateHydraParam env input = some task →
    ReadableHydra (stampHydra env task)

/-- `genUUID` prints lower-case digits, which the page can match. -/
theorem genUUID_mem_lowerUuid (s : UuidSource) : (genUUID s).text ∈ lowerUuid.lang := by
  obtain ⟨a, b, c, d, e, ha, hb, hc, hd, he, hall, hrender⟩ := s.render_groups_of
    (p := fun c => (c.isDigit || ('a' ≤ c && c ≤ 'f')) = true) (by decide)
  rw [show (genUUID s).text = s.render from rfl, hrender]
  exact mem_lang_groups ha hb hc hd he hall

/-- The record of a task that a create request stored. -/
theorem hydraRecord_created {env : HydraEnv} {w : HydraWorld} {input : Text} {task : ListHydraTask}
    (htask : getCreateHydraParam env input = some task)
    (hcode : (daemonCreateHydra env w input).code = .success)
    (hread : ReadableHydra (stampHydra env task)) : HydraRecord (stampHydra env task) where
  checked := CreatedHydra.checked ⟨env, w, input, task, htask, hcode, rfl⟩
  readable := hread
  taskId := by
    change task.taskId.text ∈ _
    rw [getCreateHydraParam_taskId htask]
    exact genUUID_mem_lowerUuid _

/-- A new process changes nothing that the task file keeps. -/
theorem saved_update {w w' : HydraWorld} {p : Ptr} {t t' : ListHydraTask}
    (hp : w.stored p = some t) (hstored : w'.stored = Function.update w.stored p (some t'))
    (hsaved : t'.saved = t.saved) (q : Ptr) :
    (w'.stored q).map ListHydraTask.saved = (w.stored q).map ListHydraTask.saved := by
  rw [hstored]
  by_cases hqp : q = p
  · rw [hqp, Function.update_self, hp, Option.map_some, Option.map_some, hsaved]
  · rw [Function.update_of_ne hqp]

/-- The task file keeps no process. -/
theorem HydraWorld.Indexed.setPid_saved {w : HydraWorld} (h : w.Indexed) {p : Ptr}
    {t : ListHydraTask} (hp : w.stored p = some t) (pid : ℕ) (q : Ptr) :
    ((w.setTask p { w.task p with pid := pid }).stored q).map ListHydraTask.saved =
      (w.stored q).map ListHydraTask.saved := by
  obtain ⟨-, hstored⟩ := h.setTask { w.task p with pid := pid } hp (by rw [task_of_stored hp])
  refine saved_update hp hstored ?_ q
  rw [task_of_stored hp]
  rfl

/-- The handlers for an existing task run their body on a stored task. -/
theorem HydraWorld.Indexed.withKeyHydra_of {P : HydraOutcome → Prop} {w : HydraWorld}
    (h : w.Indexed) {env : HydraEnv} {input : Text} {body : Ptr → HydraOutcome}
    (hfail : ∀ code, P (.fail w code)) (hbody : ∀ p t, w.stored p = some t → P (body p)) :
    P (OpenvasTool.withKeyHydra env w input body) := by
  unfold OpenvasTool.withKeyHydra
  split
  swap
  · exact hfail _
  split
  · exact hfail _
  split
  · exact hfail _
  · rename_i p hfind
    obtain ⟨t, hp, -⟩ := h.findHydraTask_eq_some.mp hfind
    exact hbody p t hp

namespace HydraWorld.Saved

variable {w : HydraWorld} (h : w.Saved) {env : HydraEnv}

include h

theorem daemonStartHydra (input : Text)
    (hpids : (daemonStartHydra env w input).world.PidsOwned) :
    (OpenvasTool.daemonStartHydra env w input).world.Saved := by
  revert hpids
  refine h.pids.indexed.withKeyHydra_of (P := fun o => o.world.PidsOwned → o.world.Saved)
    (fun _ _ => h) fun p t hp => ?_
  split
  · exact fun _ => h
  split
  · exact fun _ => h
  · rename_i w' hrun
    intro hpids
    unfold runHydra at hrun
    rw [prepareHydraPaths_eq, Option.bind_some] at hrun
    split at hrun
    swap
    · simp at hrun
    obtain ⟨r, hfork, rfl⟩ := Option.map_eq_some_iff.mp hrun
    exact h.kept hpids (h.pids.indexed.setPid_saved hp r.1) rfl

theorem daemonStopHydra (input : Text) (hpids : (daemonStopHydra env w input).world.PidsOwned) :
    (OpenvasTool.daemonStopHydra env w input).world.Saved := by
  revert hpids
  refine h.pids.indexed.withKeyHydra_of (P := fun o => o.world.PidsOwned → o.world.Saved)
    (fun _ _ => h) fun p t hp => ?_
  split
  · exact fun _ => h
  split
  · intro hpids
    exact h.kept hpids (h.pids.indexed.setPid_saved hp 0) rfl
  · exact fun _ => h

theorem daemonDeleteHydra (input : Text)
    (hpids : (daemonDeleteHydra env w input).world.PidsOwned) :
    (OpenvasTool.daemonDeleteHydra env w input).world.Saved := by
  revert hpids
  refine h.pids.indexed.withKeyHydra_of (P := fun o => o.world.PidsOwned → o.world.Saved)
    (fun _ _ => h) fun p t hp => ?_
  split
  · exact fun _ => h
  split
  · rename_i w' hdel
    intro hpids
    obtain ⟨hkept, -, hstored⟩ := h.pids.indexed.delHydraRelationFiles env hp hdel
    rw [if_pos rfl] at hstored
    have hgone : w'.stored p = none := by rw [hstored, Function.update_self]
    obtain ⟨-, hfreed⟩ := hkept.indexed.freeHydraTask hgone
    have hperm := hpids.indexed.tasks_perm hkept.indexed (f := ListHydraTask.saved)
      fun q => by rw [hfreed]
    refine ⟨hpids, fun u hu => ?_, w'.tasks, (delHydraRelationFiles_saved hdel).2 rfl, hperm⟩
    obtain ⟨q, hq⟩ := hpids.indexed.mem_tasks.mp hu
    rw [hfreed, hstored] at hq
    by_cases hqp : q = p
    · simp [hqp] at hq
    · rw [Function.update_of_ne hqp] at hq
      exact h.records u (h.pids.indexed.mem_tasks.mpr ⟨q, hq⟩)
  · rename_i w' hdel
    intro hpids
    obtain ⟨-, -, hstored⟩ := h.pids.indexed.delHydraRelationFiles env hp hdel
    rw [if_neg Bool.false_ne_true] at hstored
    refine h.kept hpids (fun q => ?_) ((delHydraRelationFiles_saved hdel).1 rfl)
    change (w'.stored q).map _ = _
    rw [hstored]

theorem daemonCreateHydra {input : Text} (hpromised : HydraPromised env (.createHydra input))
    (hpids : (daemonCreateHydra env w input).world.PidsOwned) :
    (OpenvasTool.daemonCreateHydra env w input).world.Saved := by
  have hidx := h.pids.indexed
  have hrecord : ∀ task, getCreateHydraParam env input = some task →
      (OpenvasTool.daemonCreateHydra env w input).code = .success →
        HydraRecord (stampHydra env task) := fun task htask hcode =>
    hydraRecord_created htask hcode (hpromised input task rfl htask)
  unfold OpenvasTool.daemonCreateHydra at hpids hrecord ⊢
  split
  swap
  · exact h
  rename_i halloc
  rw [if_pos halloc] at hpids hrecord
  split
  · exact h
  rename_i task htask
  rw [htask] at hpids hrecord
  dsimp only at hpids hrecord
  split
  · exact h
  rename_i hfind
  rw [hfind] at hpids hrecord
  have hname : ∀ p u, w.stored p = some u → u.taskName ≠ (stampHydra env task).taskName :=
    hidx.findHydraTask_eq_none.mp hfind
  dsimp only at hpids hrecord ⊢
  split
  · rename_i w' hwrite
    rw [hwrite] at hpids hrecord
    obtain ⟨-, -, -, -, hstored⟩ := hidx.writeHydraRelationFile env hname hwrite
    rw [if_pos rfl] at hstored
    refine written hpids (fun t ht => ?_) ((writeHydraRelationFile_saved hwrite).2 rfl)
    obtain ⟨q, hq⟩ := hpids.indexed.mem_tasks.mp ht
    change w'.stored q = some t at hq
    rw [hstored] at hq
    by_cases hqn : q = w.next
    · rw [hqn, Function.update_self, Option.some.injEq] at hq
      exact hq ▸ hrecord task rfl rfl
    · rw [Function.update_of_ne hqn] at hq
      exact h.records t (hidx.mem_tasks.mpr ⟨q, hq⟩)
  · rename_i w' hwrite
    rw [hwrite] at hpids
    obtain ⟨hidx', -, -, -, hstored⟩ := hidx.writeHydraRelationFile env hname hwrite
    rw [if_neg Bool.false_ne_true] at hstored
    have hgone : w'.stored w.next = none := by rw [hstored, hidx.stored_next]
    obtain ⟨-, hfreed⟩ := hidx'.freeHydraTask hgone
    refine h.kept hpids (fun q => ?_) ((writeHydraRelationFile_saved hwrite).1 rfl)
    change ((w'.freeHydraTask w.next).stored q).map _ = _
    rw [hfreed, hstored]

/-- A request keeps the files and the store together. -/
theorem request {e : HydraEvent} {o : HydraOutcome} (ho : hydraRequest env w e = some o)
    (hpromised : HydraPromised env e) : o.world.Saved := by
  have hpids := h.pids.request ho
  cases e with
  | startHydra input =>
    obtain rfl := Option.some.inj ho
    exact h.daemonStartHydra input hpids
  | stopHydra input =>
    obtain rfl := Option.some.inj ho
    exact h.daemonStopHydra input hpids
  | deleteHydra input =>
    obtain rfl := Option.some.inj ho
    exact h.daemonDeleteHydra input hpids
  | createHydra input =>
    obtain rfl := Option.some.inj ho
    exact h.daemonCreateHydra hpromised hpids
  | _ => simp [hydraRequest] at ho

/-- The loop over the create queue only changes a process. -/
theorem chgChildTask_saved (pid : ℕ) :
    (∀ q, ((w.chgChildTask pid).stored q).map ListHydraTask.saved =
      (w.stored q).map ListHydraTask.saved) ∧ (w.chgChildTask pid).files = w.files := by
  unfold HydraWorld.chgChildTask
  split
  · exact ⟨fun _ => rfl, rfl⟩
  · rename_i p hfind
    have hp := h.pids.indexed.stored_task
      ((h.pids.indexed.items.que_iff p).mp (List.mem_of_find?_eq_some hfind))
    exact ⟨h.pids.indexed.setPid_saved hp 0, rfl⟩

end HydraWorld.Saved

/-- The monitor and the operating system change neither the files nor what they keep. -/
theorem HydraWorld.Saved.system {s : HydraState} (h : s.world.Saved) (e : HydraEvent) :
    (∀ q, ((hydraSystem s e).world.stored q).map ListHydraTask.saved =
      (s.world.stored q).map ListHydraTask.saved) ∧
      (hydraSystem s e).world.files = s.world.files := by
  unfold hydraSystem
  split
  · split <;> exact ⟨fun _ => rfl, rfl⟩
  · exact ⟨fun _ => rfl, rfl⟩
  · split <;> exact ⟨fun _ => rfl, rfl⟩
  · split
    · split
      · exact h.chgChildTask_saved _
      · exact ⟨fun _ => rfl, rfl⟩
    · exact ⟨fun _ => rfl, rfl⟩
  · split <;> exact ⟨fun _ => rfl, rfl⟩
  · exact ⟨fun _ => rfl, rfl⟩

/-- **Every step** keeps the files and the store together. -/
theorem HydraWorld.Saved.next {s : HydraState} (h : s.world.Saved) {e : HydraEvent}
    {env : HydraEnv} (hpromised : HydraPromised env e) : (hydraNext s (e, env)).world.Saved := by
  unfold hydraNext HydraState.request
  split
  · rename_i o ho
    split at ho
    · exact h.request ho hpromised
    · simp at ho
  · obtain ⟨hstored, hfiles⟩ := h.system e
    exact h.kept (h.pids.system e) hstored (congrFun hfiles _)

/-! ### The start -/

/-- The records of tasks with new names are loaded. -/
theorem HydraWorld.Indexed.loadHydraRecords_checked {env : BootEnv} (henv : env.Memory)
    {ts : List ListHydraTask} (hts : ∀ t ∈ ts, CheckedHydra t ∧ ReadableHydra t) {w : HydraWorld}
    (h : w.Indexed) (hnames : ((w.tasks ++ ts).map ListHydraTask.taskName).Nodup) (k : ℕ) :
    ∃ w', (((ts.map fun t => keyLines (hydraFields t)).zipIdx k).map Prod.swap).foldlM
        (loadHydraRecord env) w = some w' ∧ w'.Indexed ∧ w'.files = w.files ∧
      w'.procs = w.procs ∧ w'.tasks.Perm (w.tasks ++ ts.map ListHydraTask.loaded) := by
  induction ts generalizing w k with
  | nil => exact ⟨w, rfl, h, rfl, rfl, by simp⟩
  | cons t ts ih =>
    have hnew : ∀ p u, w.stored p = some u → u.taskName ≠ t.taskName := by
      intro p u hp heq
      rw [List.map_append, List.nodup_append] at hnames
      exact hnames.2.2 _ (List.mem_map_of_mem (h.mem_tasks.mpr ⟨p, hp⟩)) t.taskName (by simp) heq
    obtain ⟨w1, hload, hidx, hstored, hfiles, hprocs⟩ := h.loadHydraRecord_checked henv
      (hts t (by simp)).1 (hts t (by simp)).2 hnew k
    have htasks := h.tasks_added hidx h.stored_next hstored
    have hnames1 : ((w1.tasks ++ ts).map ListHydraTask.taskName).Nodup := by
      have hperm := ((htasks.append_right ts).map ListHydraTask.taskName)
      refine hperm.nodup_iff.mpr (((List.perm_middle (a := t.loaded)).map _).nodup_iff.mp ?_)
      rw [List.map_append, List.map_cons] at hnames ⊢
      exact hnames
    obtain ⟨w', hfold, hidx', hfiles', hprocs', hperm⟩ := ih (fun u hu => hts u (by simp [hu])) hidx
      hnames1 (k + 1)
    refine ⟨w', ?_, hidx', hfiles'.trans hfiles, hprocs'.trans hprocs, ?_⟩
    · rw [List.map_cons, List.zipIdx_cons, List.map_cons, List.foldlM_cons]
      exact Option.bind_eq_some_iff.mpr ⟨w1, hload, hfold⟩
    · exact hperm.trans ((htasks.append_right _).trans List.perm_middle.symm)

/-- The tasks after a start are those of before, without their processes. -/
structure HydraWorld.RestoredBy (w w' : HydraWorld) : Prop where
  tasks : (w'.tasks.map ListHydraTask.saved).Perm (w.tasks.map ListHydraTask.saved)
  stopped : ∀ t ∈ w'.tasks, t.pid = 0

/-- A store without processes owns what it has. -/
theorem HydraWorld.Indexed.pidsOwned {w : HydraWorld} (h : w.Indexed)
    (hpids : ∀ t ∈ w.tasks, t.pid = 0) (hprocs : w.procs = .empty) : w.PidsOwned where
  indexed := h
  owned p t hp hne := absurd (hpids t (h.mem_tasks.mpr ⟨p, hp⟩)) hne
  owner_lt pid p hown := by
    rw [hprocs] at hown
    exact absurd hown Children.not_owns_empty

/-- What the task file has is read back. -/
theorem readHydraTaskFile_saved {env : BootEnv} (henv : env.Succeeds) {files : Files}
    {ts : List ListHydraTask} (hts : ∀ t ∈ ts, CheckedHydra t ∧ ReadableHydra t)
    (hnames : (ts.map ListHydraTask.taskName).Nodup) (hsaved : HydraFileSaved files ts)
    (hsize : ∀ text ∈ files hydraTaskFile, text.length ≤ maxTaskFileSize) :
    ∃ w, readHydraTaskFile env (emptyHydraWorld files) = some w ∧ w.Indexed ∧ w.files = files ∧
      w.procs = .empty ∧ w.tasks.Perm (ts.map ListHydraTask.loaded) := by
  have hempty := HydraWorld.indexed_emptyHydraWorld files
  unfold readHydraTaskFile
  rw [henv.stat, henv.read, show (emptyHydraWorld files).files = files from rfl]
  rcases hsaved with ⟨hnone, rfl⟩ | ⟨text, htext, hwrite⟩
  · rw [hnone]
    exact ⟨_, rfl, hempty, rfl, rfl, .refl _⟩
  have hlen := hsize text htext
  have hroom : (hydraFileText ts).length < maxCacheSize := by
    have := length_writeHydraRecords hwrite
    simp only [maxTaskFileSize] at hlen
    simp only [maxCacheSize]
    omega
  obtain rfl : hydraFileText ts = text :=
    Option.some.inj ((writeHydraRecords_eq (lt_intOfSize_maxCacheSize hroom)).symm.trans hwrite)
  rw [htext]
  cases ts with
  | nil => exact ⟨_, rfl, hempty, rfl, rfl, .refl _⟩
  | cons t ts =>
    have hne : hydraFileText (t :: ts) ≠ [] :=
      List.append_ne_nil_of_left_ne_nil (renderRecord_ne_nil _) _
    obtain ⟨w, hw, hidx, hfiles, hprocs, htasks⟩ := hempty.loadHydraRecords_checked henv.toMemory hts
      hnames 0
    refine ⟨w, ?_, hidx, hfiles, hprocs, htasks⟩
    rw [readTotalFile_ok hlen hne]
    dsimp only
    unfold parseHydraRecord
    rw [records_hydraFileText hts]
    exact hw

/-- **A start loads the tasks** that the files have, unless the task file is too large. -/
theorem HydraWorld.Saved.initHydra {w : HydraWorld} (h : w.Saved) {env : BootEnv}
    (henv : env.Succeeds)
    (hsize : ∀ text ∈ w.files hydraTaskFile, text.length ≤ maxTaskFileSize) :
    ∃ w', OpenvasTool.initHydra env true w.files = some w' ∧ w'.Saved ∧ w.RestoredBy w' := by
  obtain ⟨ts, hsaved, hperm⟩ := h.onDisk
  have hts := h.record_of_mem hperm
  obtain ⟨w', hread, hidx, hfiles, hprocs, htasks⟩ := readHydraTaskFile_saved henv
    (fun t ht => ⟨(hts t ht).checked, (hts t ht).readable⟩) (h.nodup_of_perm hperm) hsaved hsize
  have hloaded : (w'.tasks.map ListHydraTask.saved).Perm (ts.map ListHydraTask.saved) := by
    have hmap := htasks.map ListHydraTask.saved
    rw [List.map_map] at hmap
    exact hmap
  have hstopped : ∀ t ∈ w'.tasks, t.pid = 0 := by
    intro t ht
    obtain ⟨u, -, rfl⟩ := List.mem_map.mp (htasks.mem_iff.mp ht)
    rfl
  refine ⟨w', ?_, ⟨hidx.pidsOwned hstopped hprocs, h.record_of_mem (hloaded.trans hperm), ts, ?_,
    hloaded.symm⟩, hloaded.trans hperm, hstopped⟩
  · rw [OpenvasTool.initHydra, henv.createData, henv.privDir]
    exact hread
  · rw [hfiles]
    exact hsaved

theorem loadHydraRecord_succeed {env : BootEnv} {w w' : HydraWorld} {record : ℕ × Text}
    (h : loadHydraRecord env w record = some w') : loadHydraRecord env.succeed w record = some w' := by
  unfold loadHydraRecord at h ⊢
  split at h
  swap
  · simp at h
  obtain ⟨t, ht, hadd⟩ := Option.bind_eq_some_iff.mp h
  obtain ⟨s, hs, hw⟩ := Option.map_eq_some_iff.mp hadd
  refine Option.bind_eq_some_iff.mpr ⟨t, ht, Option.map_eq_some_iff.mpr ⟨s, ?_, hw⟩⟩
  exact ListSet.addToSet_succeed hs

theorem readHydraTaskFile_succeed {env : BootEnv} {w w' : HydraWorld}
    (h : readHydraTaskFile env w = some w') : readHydraTaskFile env.succeed w = some w' := by
  unfold readHydraTaskFile at h ⊢
  generalize hr : readTotalFile (env.stat hydraTaskFile) (env.read hydraTaskFile)
    (w.files hydraTaskFile) = r at h
  rcases readTotalFile_succeed hr with hr' | rfl
  · rw [(BootEnv.succeeds_succeed env).stat, (BootEnv.succeeds_succeed env).read, hr']
    split at h
    · exact foldlM_succeed (fun _ _ _ => loadHydraRecord_succeed) h
    · exact h
    · exact h
    · simp at h
  · simp at h

/-- A start that succeeds is one in which nothing failed. -/
theorem initHydra_succeed {env : BootEnv} {templDir : Bool} {files : Files} {w : HydraWorld}
    (h : initHydra env templDir files = some w) : initHydra env.succeed true files = some w := by
  unfold initHydra at h ⊢
  split at h
  swap
  · simp at h
  exact readHydraTaskFile_succeed h

/-- The hydra part does not start from a task file that is too large. -/
theorem length_le_of_initHydra {env : BootEnv} {templDir : Bool} {files : Files} {w : HydraWorld}
    (h : initHydra env templDir files = some w) :
    ∀ text ∈ files hydraTaskFile, text.length ≤ maxTaskFileSize := by
  intro text htext
  by_contra hlarge
  have hread : readTotalFile true true (files hydraTaskFile) = .error .tooLarge := by
    rw [Option.mem_def.mp htext]
    simp only [readTotalFile, if_true, if_pos (not_le.mp hlarge)]
  have hsome := initHydra_succeed h
  have hnone : readHydraTaskFile env.succeed (emptyHydraWorld files) = none := by
    unfold readHydraTaskFile
    rw [(BootEnv.succeeds_succeed env).stat, (BootEnv.succeeds_succeed env).read,
      show (emptyHydraWorld files).files = files from rfl, hread]
  rw [initHydra, (BootEnv.succeeds_succeed env).createData, (BootEnv.succeeds_succeed env).privDir,
    hnone] at hsome
  simp at hsome

/-- Any start that succeeds loads the tasks that the files have. -/
theorem HydraWorld.Saved.restarted {w : HydraWorld} (h : w.Saved) {env : BootEnv} {templDir : Bool}
    {w' : HydraWorld} (hstart : OpenvasTool.initHydra env templDir w.files = some w') :
    w'.Saved ∧ w.RestoredBy w' := by
  obtain ⟨w'', hstart', hsaved⟩ := h.initHydra env.succeeds_succeed (length_le_of_initHydra hstart)
  obtain rfl := Option.some.inj ((initHydra_succeed hstart).symm.trans hstart')
  exact hsaved

/-! ### The whole life -/

/-- The hydra part runs, or it does not and only the files are there. -/
inductive HydraLife where
  | up (s : HydraState)
  | down (files : Files)

/-- A step of the running hydra part, a change of files by others, its end between two steps, or
the next start. -/
inductive HydraLifeEvent where
  | step (e : HydraEvent) (env : HydraEnv)
  | outside (files : Files)
  | stop
  | start (env : BootEnv) (templDir : Bool)

/-- A start that fails leaves the files alone. -/
def hydraLifeStep : HydraLife → HydraLifeEvent → HydraLife
  | .up s, .step e env => .up (hydraNext s (e, env))
  | .up s, .outside files => .up { s with world := { s.world with files := files } }
  | .up s, .stop => .down s.world.files
  | .down _, .outside files => .down files
  | .down files, .start env templDir =>
      match initHydra env templDir files with
      | some w => .up ⟨w, .idle⟩
      | none => .down files
  | s, _ => s

/-- The files of the hydra part. -/
def HydraLife.files : HydraLife → Files
  | .up s => s.world.files
  | .down files => files

/-- What is assumed about the steps: nobody else changes the hydra task file. -/
def HydraLifePromised : HydraLife → HydraLifeEvent → Prop
  | .up _, .step e env => HydraPromised env e
  | s, .outside files => files hydraTaskFile = s.files hydraTaskFile
  | _, _ => True

/-- The files have the tasks that the hydra part holds in memory, or held before it was stopped. -/
def HydraLife.Saved : HydraLife → Prop
  | .up s => s.world.Saved
  | .down files => ∃ w : HydraWorld, w.Saved ∧ w.files = files

theorem HydraWorld.Saved.outside {w : HydraWorld} (h : w.Saved) {files : Files}
    (hfile : files hydraTaskFile = w.files hydraTaskFile) :
    ({ w with files := files } : HydraWorld).Saved :=
  h.kept ⟨h.pids.indexed.congr rfl rfl rfl, h.pids.owned, h.pids.owner_lt⟩ (fun _ => rfl) hfile

theorem HydraLife.Saved.step {s : HydraLife} (h : s.Saved) {event : HydraLifeEvent}
    (hpromised : HydraLifePromised s event) : (hydraLifeStep s event).Saved := by
  cases s with
  | up s =>
    cases event with
    | step e env => exact HydraWorld.Saved.next h hpromised
    | outside files => exact HydraWorld.Saved.outside h hpromised
    | stop => exact ⟨s.world, h, rfl⟩
    | start env templDir => exact h
  | down files =>
    obtain ⟨w, hw, rfl⟩ := h
    cases event with
    | step e env => exact ⟨w, hw, rfl⟩
    | outside files => exact ⟨_, hw.outside hpromised, rfl⟩
    | stop => exact ⟨w, hw, rfl⟩
    | start env templDir =>
      rw [hydraLifeStep]
      split
      · rename_i w' hstart
        exact (hw.restarted hstart).1
      · exact ⟨w, hw, rfl⟩

theorem HydraWorld.saved_emptyHydraWorld {files : Files} (hnone : files hydraTaskFile = none) :
    (emptyHydraWorld files).Saved where
  pids := (indexed_emptyHydraWorld files).pidsOwned (fun _ ht => nomatch ht) rfl
  records _ ht := nomatch ht
  onDisk := ⟨[], Or.inl ⟨hnone, rfl⟩, .refl _⟩

/-- In every life the files and the store stay together. -/
theorem HydraLife.Saved.run {files : Files} (hnone : files hydraTaskFile = none)
    {events : List HydraLifeEvent} (h : Along hydraLifeStep HydraLifePromised (.down files) events) :
    (Support.run hydraLifeStep (.down files) events).Saved :=
  h.invariant (fun _ _ hp (hs : HydraLife.Saved _) => hs.step hp)
    ⟨emptyHydraWorld files, HydraWorld.saved_emptyHydraWorld hnone, rfl⟩

end OpenvasTool
