import OpenvasTool.Gvm.Daemon

/-!
# Consistent indexes

The invariant of the three indexes of the store, and what each operation of the
store does to it. The run queue is filled only at the end of the start, so the
invariant of the other two indexes is stated on its own.
-/

namespace OpenvasTool

open Posix Support

namespace World

@[simp] theorem task_setTask_self (w : World) (p : Ptr) (t : ListGvmTask) :
    (w.setTask p t).task p = t := by simp [task, setTask]

theorem task_setTask (w : World) (p q : Ptr) (t : ListGvmTask) :
    (w.setTask p t).task q = if q = p then t else w.task q := by
  by_cases h : q = p <;> simp [task, setTask, h]

@[simp] theorem data_setTask (w : World) (p : Ptr) (t : ListGvmTask) :
    (w.setTask p t).data = w.data := rfl

@[simp] theorem next_setTask (w : World) (p : Ptr) (t : ListGvmTask) :
    (w.setTask p t).next = w.next := rfl

@[simp] theorem files_setTask (w : World) (p : Ptr) (t : ListGvmTask) :
    (w.setTask p t).files = w.files := rfl

theorem heap_setTask (w : World) (p q : Ptr) (t : ListGvmTask) :
    (w.setTask p t).heap q = if q = p then some t else w.heap q := by
  by_cases h : q = p <;> simp [setTask, h]

theorem task_eq_of_heap {w : World} {p : Ptr} {t : ListGvmTask} (h : w.heap p = some t) :
    w.task p = t := by simp [task, h]

/-- A task leaves the name set and the create queue. -/
def unlink (w : World) (p : Ptr) : World :=
  { w with data := { w.data with
      nameset :=
        { w.data.nameset with
          data := w.data.nameset.data.erase p
          size := w.data.nameset.size - 1 }
      createque := w.data.createque.delItem p } }

/-- The order of the name set. -/
def cmpName (w : World) (p q : Ptr) : ℤ := cmpGvmName (w.task p) (w.task q)

theorem comparison_cmpName (w : World) : Comparison w.cmpName := comparison_cmpGvmName.comap w.task

/-- Name set and create queue hold the same allocated tasks, with pairwise distinct names. -/
structure Indexed (w : World) : Prop where
  nameset : w.data.nameset.Valid
  createque : w.data.createque.Valid
  create_iff : ∀ p, p ∈ w.data.createque.items ↔ p ∈ w.data.nameset.data
  sorted : StrictAscending w.cmpName w.data.nameset.data
  allocated : ∀ p ∈ w.data.nameset.data, (w.heap p).isSome
  fresh : ∀ p, w.next ≤ p → w.heap p = none

/-- The run queue holds the same tasks as well. -/
structure StoreConsistent (w : World) : Prop extends w.Indexed where
  runque : w.data.runque.Valid
  run_iff : ∀ p, p ∈ w.data.runque.items ↔ p ∈ w.data.nameset.data

theorem indexed_emptyWorld (files : Files) : (emptyWorld files).Indexed where
  nameset := ListSet.valid_initListSet
  createque := ListQueue.valid_initListQue
  create_iff := by simp [emptyWorld, ListQueue.initListQue, ListSet.initListSet]
  sorted := by simp [emptyWorld, ListSet.initListSet, StrictAscending]
  allocated := by simp [emptyWorld, ListSet.initListSet]
  fresh := by simp [emptyWorld]

namespace Indexed

variable {w : World}

theorem lt_next (h : w.Indexed) {p : Ptr} (hp : p ∈ w.data.nameset.data) : p < w.next := by
  by_contra hge
  have := h.allocated p hp
  rw [h.fresh p (not_lt.mp hge)] at this
  simp at this

theorem not_mem_of_heap_none (h : w.Indexed) {p : Ptr} (hp : w.heap p = none) :
    p ∉ w.data.nameset.data := by
  intro hmem
  have := h.allocated p hmem
  simp [hp] at this

/-- Distinct tasks of the store have distinct names. -/
theorem name_injective (h : w.Indexed) {p q : Ptr} (hp : p ∈ w.data.nameset.data)
    (hq : q ∈ w.data.nameset.data)
    (hname : (w.task p).taskInfo.taskName = (w.task q).taskInfo.taskName) : p = q := by
  by_contra hne
  exact h.sorted.ne_zero w.comparison_cmpName hp hq hne (cmpGvmName_eq_zero.mpr hname)

theorem separated (h : w.Indexed) (key : ListGvmTask) :
    Separated (fun q => cmpGvmName (w.task q) key) w.data.nameset.data := by
  refine List.Pairwise.imp (fun {p q} hpq hp => ?_) h.sorted
  by_contra hq
  exact absurd (comparison_cmpGvmName.lt_of_lt_of_le hpq (not_lt.mp hq)) (not_lt.mpr hp)

/-- The lookup finds exactly the stored task with the name of the key. -/
theorem findGvmTask_eq_some (h : w.Indexed) {key : ListGvmTask} {p : Ptr} :
    w.findGvmTask key = some p ↔
      p ∈ w.data.nameset.data ∧ (w.task p).taskInfo.taskName = key.taskInfo.taskName := by
  rw [← cmpGvmName_eq_zero]
  exact h.nameset.searchListSet_eq_some (h.separated key)

theorem findGvmTask_eq_none (h : w.Indexed) {key : ListGvmTask} :
    w.findGvmTask key = none ↔
      ∀ p ∈ w.data.nameset.data, (w.task p).taskInfo.taskName ≠ key.taskInfo.taskName := by
  simp only [← cmpGvmName_eq_zero, ne_eq]
  exact h.nameset.searchListSet_eq_none (h.separated key)

/-- Deleting by the name of a stored task unlinks this task. -/
theorem delGvmTask_eq (h : w.Indexed) {p : Ptr} (hp : p ∈ w.data.nameset.data) :
    w.delGvmTask (w.task p) = some (w.unlink p) := by
  unfold World.delGvmTask
  rw [h.nameset.delFromSet_of_mem (h.separated _) hp (cmpGvmName_eq_zero.mpr rfl)]
  rfl

theorem mem_unlink (h : w.Indexed) {p q : Ptr} :
    q ∈ (w.unlink p).data.nameset.data ↔ q ≠ p ∧ q ∈ w.data.nameset.data :=
  h.nameset.nodup.mem_erase_iff

theorem unlink (h : w.Indexed) {p : Ptr} (hp : p ∈ w.data.nameset.data) :
    (w.unlink p).Indexed where
  nameset := h.nameset.erase hp
  createque := h.createque.delItem
  create_iff q := by
    rw [h.mem_unlink, ← h.create_iff]
    exact h.createque.mem_delItem
  sorted := h.sorted.sublist (List.erase_sublist)
  allocated q hq := h.allocated q (h.mem_unlink.mp hq).2
  fresh := h.fresh

/-- The state after a task was linked into the name set and the create queue. -/
theorem addGvmTask (h : w.Indexed) {realloc : Bool} {p : Ptr} {w' : World}
    (hnew : p ∉ w.data.nameset.data) (halloc : (w.heap p).isSome)
    (hname : ∀ q ∈ w.data.nameset.data,
      (w.task q).taskInfo.taskName ≠ (w.task p).taskInfo.taskName)
    (hw : w.addGvmTask realloc p = some w') :
    w'.Indexed ∧ (∀ q, q ∈ w'.data.nameset.data ↔ q = p ∨ q ∈ w.data.nameset.data) := by
  obtain ⟨s, hs, rfl⟩ := Option.map_eq_some_iff.mp hw
  obtain ⟨hvalid, hdata⟩ := h.nameset.addToSet hnew hs
  have hmem : ∀ q, q ∈ s.data ↔ q = p ∨ q ∈ w.data.nameset.data := by
    intro q
    rw [hdata, mem_insertLast]
  refine ⟨⟨hvalid, ?_, ?_, ?_, ?_, h.fresh⟩, hmem⟩
  · exact h.createque.pushBack fun hc => hnew ((h.create_iff p).mp hc)
  · intro q
    rw [hmem, ListQueue.mem_pushBack, h.create_iff]
  · have hsorted := h.sorted.insertLast w.comparison_cmpName (x := p)
      fun q hq => mt cmpGvmName_eq_zero.mp (hname q hq)
    change StrictAscending w.cmpName s.data
    rwa [hdata]
  · intro q hq
    rcases (hmem q).mp hq with rfl | hq
    · exact halloc
    · exact h.allocated q hq

end Indexed

/-- After an insertion only the name set and the create queue differ. -/
theorem addGvmTask_frame {w w' : World} {realloc : Bool} {p : Ptr}
    (hw : w.addGvmTask realloc p = some w') :
    w'.heap = w.heap ∧ w'.next = w.next ∧ w'.files = w.files ∧
      w'.data.runque = w.data.runque ∧ w'.data.isGvmConnOk = w.data.isGvmConnOk := by
  obtain ⟨s, _, rfl⟩ := Option.map_eq_some_iff.mp hw
  exact ⟨rfl, rfl, rfl, rfl, rfl⟩

/-! ### The stored tasks -/

/-- The abstract store: the tasks that the indexes hold, by their address. -/
def stored (w : World) (p : Ptr) : Option ListGvmTask :=
  if p ∈ w.data.nameset.data then w.heap p else none

theorem stored_eq_some {w : World} {p : Ptr} {t : ListGvmTask} :
    w.stored p = some t ↔ p ∈ w.data.nameset.data ∧ w.heap p = some t := by
  unfold stored
  split <;> simp_all

theorem task_of_stored {w : World} {p : Ptr} {t : ListGvmTask} (h : w.stored p = some t) :
    w.task p = t := task_eq_of_heap (stored_eq_some.mp h).2

theorem stored_emptyWorld (files : Files) (p : Ptr) : (emptyWorld files).stored p = none := by
  simp [stored, emptyWorld, ListSet.initListSet]

theorem stored_setTask {w : World} {p : Ptr} (hp : p ∈ w.data.nameset.data) (t : ListGvmTask) :
    (w.setTask p t).stored = Function.update w.stored p (some t) := by
  funext q
  by_cases hq : q = p
  · subst hq
    simp [stored, hp, heap_setTask]
  · simp [stored, heap_setTask, hq]

namespace Indexed

variable {w w' : World}

theorem stored_task (h : w.Indexed) {p : Ptr} (hp : p ∈ w.data.nameset.data) :
    w.stored p = some (w.task p) := by
  obtain ⟨t, ht⟩ := Option.isSome_iff_exists.mp (h.allocated p hp)
  rw [stored_eq_some, task_eq_of_heap ht]
  exact ⟨hp, ht⟩

theorem stored_eq_none (h : w.Indexed) {p : Ptr} :
    w.stored p = none ↔ p ∉ w.data.nameset.data := by
  constructor
  · intro hnone hp
    rw [h.stored_task hp] at hnone
    simp at hnone
  · intro hp
    simp [stored, hp]

theorem stored_unlink (h : w.Indexed) {p : Ptr} :
    (w.unlink p).stored = Function.update w.stored p none := by
  funext q
  by_cases hq : q = p
  · subst hq
    simp [stored, h.mem_unlink]
  · have hheap : (w.unlink p).heap = w.heap := rfl
    simp [stored, h.mem_unlink, hq, hheap]

/-- Changes to the memory that keep the names of the stored tasks keep the indexes consistent. -/
theorem transfer (h : w.Indexed) (hset : w'.data.nameset = w.data.nameset)
    (hcreate : w'.data.createque = w.data.createque)
    (hname : ∀ p ∈ w.data.nameset.data,
      (w'.task p).taskInfo.taskName = (w.task p).taskInfo.taskName)
    (halloc : ∀ p ∈ w.data.nameset.data, (w'.heap p).isSome)
    (hfresh : ∀ p, w'.next ≤ p → w'.heap p = none) : w'.Indexed where
  nameset := hset ▸ h.nameset
  createque := hcreate ▸ h.createque
  create_iff p := by rw [hset, hcreate]; exact h.create_iff p
  sorted := by
    rw [hset]
    refine List.Pairwise.imp_of_mem (fun {p q} hp hq hlt => ?_) h.sorted
    simpa only [cmpName, cmpGvmName, hname p hp, hname q hq] using hlt
  allocated := by rw [hset]; exact halloc
  fresh := hfresh

theorem setTask (h : w.Indexed) {p : Ptr} {t : ListGvmTask} (hp : p ∈ w.data.nameset.data)
    (hname : t.taskInfo.taskName = (w.task p).taskInfo.taskName) : (w.setTask p t).Indexed := by
  refine h.transfer rfl rfl (fun q hq => ?_) (fun q hq => ?_) (fun q hq => ?_)
  · rw [task_setTask]
    split
    · rename_i hqp
      rw [hname, hqp]
    · rfl
  · rw [heap_setTask]
    split
    · rfl
    · exact h.allocated q hq
  · have hlt := h.lt_next hp
    rw [heap_setTask, if_neg (hlt.trans_le hq).ne']
    exact h.fresh q hq

end Indexed

namespace StoreConsistent

variable {w : World}

theorem withFiles (h : w.StoreConsistent) (files : Files) :
    ({ w with files := files } : World).StoreConsistent :=
  ⟨⟨h.nameset, h.createque, h.create_iff, h.sorted, h.allocated, h.fresh⟩, h.runque, h.run_iff⟩

theorem setTask (h : w.StoreConsistent) {p : Ptr} {t : ListGvmTask}
    (hp : p ∈ w.data.nameset.data)
    (hname : t.taskInfo.taskName = (w.task p).taskInfo.taskName) :
    (w.setTask p t).StoreConsistent := ⟨h.toIndexed.setTask hp hname, h.runque, h.run_iff⟩

theorem queGvmRunTask (h : w.StoreConsistent) (p : Ptr) : (w.queGvmRunTask p).StoreConsistent :=
  ⟨⟨h.nameset, h.createque, h.create_iff, h.sorted, h.allocated, h.fresh⟩, h.runque.requeList,
    fun q => h.runque.mem_requeList.trans (h.run_iff q)⟩

theorem freeGvmTask (h : w.StoreConsistent) {p : Ptr} (hp : p ∉ w.data.nameset.data) :
    (w.freeGvmTask p).StoreConsistent := by
  have hheap : ∀ q ∈ w.data.nameset.data, (w.freeGvmTask p).heap q = w.heap q := by
    intro q hq
    have hne : q ≠ p := fun heq => hp (heq ▸ hq)
    simp [World.freeGvmTask, hne]
  refine ⟨h.toIndexed.transfer rfl rfl ?_ ?_ ?_, h.runque, h.run_iff⟩
  · intro q hq
    simp only [task, hheap q hq]
  · intro q hq
    rw [hheap q hq]
    exact h.allocated q hq
  · intro q hq
    by_cases hqp : q = p
    · simp [World.freeGvmTask, hqp]
    · simpa [World.freeGvmTask, hqp] using h.fresh q hq

theorem newTask (h : w.StoreConsistent) (t : ListGvmTask) : (w.newTask t).2.StoreConsistent := by
  have hheap : ∀ q, q ≠ w.next → (w.newTask t).2.heap q = w.heap q := by
    intro q hq
    simp [World.newTask, World.setTask, hq]
  have hne : ∀ q ∈ w.data.nameset.data, q ≠ w.next := fun q hq => (h.lt_next hq).ne
  refine ⟨h.toIndexed.transfer rfl rfl ?_ ?_ ?_, h.runque, h.run_iff⟩
  · intro q hq
    simp only [task, hheap q (hne q hq)]
  · intro q hq
    rw [hheap q (hne q hq)]
    exact h.allocated q hq
  · intro q hq
    have hlt : w.next < q := hq
    rw [hheap q hlt.ne']
    exact h.fresh q hlt.le

/-- A new task is in none of the indexes. -/
theorem newTask_not_mem (h : w.StoreConsistent) (t : ListGvmTask) :
    (w.newTask t).1 ∉ (w.newTask t).2.data.nameset.data := fun hp => (h.lt_next hp).ne rfl

theorem unlink (h : w.StoreConsistent) {p : Ptr} (hp : p ∈ w.data.nameset.data) :
    ((w.unlink p).delGvmRunTask p).StoreConsistent := by
  have hu := h.toIndexed.unlink hp
  refine ⟨⟨hu.nameset, hu.createque, hu.create_iff, hu.sorted, hu.allocated, hu.fresh⟩,
    h.runque.delItem, fun q => ?_⟩
  have hmem : q ∈ ((w.unlink p).delGvmRunTask p).data.runque.items ↔
      q ≠ p ∧ q ∈ w.data.runque.items := h.runque.mem_delItem
  rw [hmem, h.run_iff]
  exact (h.toIndexed.mem_unlink).symm

end StoreConsistent

end World

end OpenvasTool
