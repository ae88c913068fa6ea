import OpenvasTool.Gvm.Boot
import OpenvasTool.Support.Runs

/-!
# The store over whole runs

From a task file with distinct names, every sequence of requests and background
steps leaves the three indexes with the same tasks, whatever gvmd answers and
whichever allocations and file writes fail.
-/

namespace OpenvasTool

open Posix Support

/-- The state of the daemon after a start and a list of steps. -/
def daemonRun (w : World) (is : List (Event × Env)) : World := run daemonNext w is

/-- Consistency is an invariant of all runs. -/
theorem World.StoreConsistent.run {w : World} (h : w.StoreConsistent) (is : List (Event × Env)) :
    (daemonRun w is).StoreConsistent :=
  invariant_run (fun _ i hw => (hw.daemonStep_spec i.2 i.1).1) h is

/-- A freed address: it was allocated once and holds no task any more. -/
def World.Freed (w : World) (p : Ptr) : Prop := p < w.next ∧ w.heap p = none

/-- An address that was used before and is in no index now never gets into an index again. -/
theorem World.StoreConsistent.retired_step {w : World} (h : w.StoreConsistent) {p : Ptr}
    (hlt : p < w.next) (hp : w.stored p = none) (env : Env) (e : Event) :
    p < (daemonStep env w e).world.next ∧ (daemonStep env w e).world.stored p = none := by
  obtain ⟨_, hnext, hstep⟩ := h.daemonStep_spec env e
  refine ⟨hlt.trans_le hnext, ?_⟩
  cases hstep with
  | same hstored => rw [hstored, hp]
  | @task q t t' hq _ hstored =>
    have hne : p ≠ q := by
      rintro rfl
      simp [hp] at hq
    rw [hstored, Function.update_of_ne hne, hp]
  | @removed q t hq _ hstored =>
    have hne : p ≠ q := by
      rintro rfl
      simp [hp] at hq
    rw [hstored, Function.update_of_ne hne, hp]
  | added _ _ hstored => rw [hstored, Function.update_of_ne hlt.ne, hp]

theorem World.StoreConsistent.retired_run {w : World} (h : w.StoreConsistent) {p : Ptr}
    (hlt : p < w.next) (hp : w.stored p = none) (is : List (Event × Env)) :
    (daemonRun w is).stored p = none := by
  induction is generalizing w with
  | nil => exact hp
  | cons i is ih =>
    obtain ⟨hlt', hp'⟩ := h.retired_step hlt hp i.2 i.1
    exact ih (h.daemonStep_spec i.2 i.1).1 hlt' hp'

/-- The three indexes hold exactly these tasks, each once and under its own name. -/
structure World.HoldsExactly (w : World) (tasks : Finset Ptr) : Prop where
  nameset : w.data.nameset.data.Nodup ∧ w.data.nameset.data.toFinset = tasks
  createque : w.data.createque.items.Nodup ∧ w.data.createque.items.toFinset = tasks
  runque : w.data.runque.items.Nodup ∧ w.data.runque.items.toFinset = tasks
  nameset_size : w.data.nameset.size = tasks.card
  createque_cnt : w.data.createque.cnt = tasks.card
  runque_cnt : w.data.runque.cnt = tasks.card
  names : ∀ p ∈ tasks, ∀ q ∈ tasks,
    (w.task p).taskInfo.taskName = (w.task q).taskInfo.taskName → p = q
  ascending : w.data.nameset.data.Pairwise fun p q => cmpGvmName (w.task p) (w.task q) < 0

theorem World.StoreConsistent.holdsExactly {w : World} (h : w.StoreConsistent) :
    w.HoldsExactly w.data.nameset.data.toFinset := by
  have hcard := List.toFinset_card_of_nodup h.nameset.nodup
  have hcreate : w.data.createque.items.Perm w.data.nameset.data :=
    (List.perm_ext_iff_of_nodup h.createque.nodup h.nameset.nodup).mpr h.create_iff
  have hrun : w.data.runque.items.Perm w.data.nameset.data :=
    (List.perm_ext_iff_of_nodup h.runque.nodup h.nameset.nodup).mpr h.run_iff
  refine ⟨⟨h.nameset.nodup, rfl⟩, ⟨h.createque.nodup, ?_⟩, ⟨h.runque.nodup, ?_⟩, ?_, ?_, ?_, ?_,
    h.sorted⟩
  · ext p
    simp [h.create_iff]
  · ext p
    simp [h.run_iff]
  · rw [hcard]
    exact h.nameset.size_eq
  · rw [hcard, ← hcreate.length_eq]
    exact h.createque.cnt_eq
  · rw [hcard, ← hrun.length_eq]
    exact h.runque.cnt_eq
  · intro p hp q hq hname
    exact h.toIndexed.name_injective (List.mem_toFinset.mp hp) (List.mem_toFinset.mp hq) hname

/-- **Store consistency.** In every state between two steps the three indexes hold exactly one set
of tasks, and no task that was freed so far is in it. -/
theorem storeConsistent_run {env : BootEnv} {files : Files} {w0 : World}
    (hnames : DistinctNames files) (hstart : initDaemon env files = some w0)
    (is : List (Event × Env)) :
    ∃ tasks, (daemonRun w0 is).HoldsExactly tasks ∧
      ∀ before after p, is = before ++ after → (daemonRun w0 before).Freed p → p ∉ tasks := by
  have h := (initDaemon_spec hnames hstart).1.run is
  refine ⟨_, h.holdsExactly, ?_⟩
  rintro before after p rfl ⟨hlt, hfreed⟩ hp
  have hbefore := (initDaemon_spec hnames hstart).1.run before
  have hnone := hbefore.retired_run hlt
    (hbefore.toIndexed.stored_eq_none.mpr (hbefore.toIndexed.not_mem_of_heap_none hfreed)) after
  rw [daemonRun, run_append] at h hp
  exact h.toIndexed.stored_eq_none.mp hnone (List.mem_toFinset.mp hp)

/-- Two tasks are left: a report of one is polled, and the files of the other could not be deleted. A
third one was freed. -/
theorem storeConsistent_run_sampleMixedSteps :
    let w := daemonRun (emptyWorld fun _ => none)
    ((w sampleMixedSteps).data.nameset.data = [1, 0] ∧
        ((w sampleMixedSteps).task 0).chkType = .chkReport ∧
        ((w sampleMixedSteps).task 1).chkType = .chkDeleted ∧
        (w sampleMixedSteps).next = 4) ∧
      ∃ tasks, (w sampleMixedSteps).HoldsExactly tasks ∧
        ∀ before after p, sampleMixedSteps = before ++ after → (w before).Freed p → p ∉ tasks :=
  ⟨by decide +kernel, storeConsistent_run distinctNames_noFiles initDaemon_noFiles _⟩

end OpenvasTool
