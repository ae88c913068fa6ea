import OpenvasTool.Hydra.Daemon
import OpenvasTool.Index

/-!
# Consistent indexes of the hydra store

The invariant of the name set and the create queue, and what the operations on
them do to the stored tasks.
-/

namespace OpenvasTool

open Posix Support

namespace HydraWorld

@[simp] theorem task_setTask_self (w : HydraWorld) (p : Ptr) (t : ListHydraTask) :
    (w.setTask p t).task p = t := by simp [task, setTask]

theorem task_setTask (w : HydraWorld) (p q : Ptr) (t : ListHydraTask) :
    (w.setTask p t).task q = if q = p then t else w.task q := by
  by_cases h : q = p <;> simp [task, setTask, h]

theorem task_eq_of_heap {w : HydraWorld} {p : Ptr} {t : ListHydraTask} (h : w.heap p = some t) :
    w.task p = t := by simp [task, h]

@[simp] theorem hasChildExit_chgChildTask (w : HydraWorld) (pid : ℕ) :
    (w.chgChildTask pid).hasChildExit = w.hasChildExit := by
  unfold chgChildTask
  split <;> rfl

/-- Name set and create queue hold the same allocated tasks, with pairwise distinct names. -/
structure Indexed (w : HydraWorld) : Prop where
  items : SameItems cmpHydraName w.task w.data.nameset w.data.createque
  allocated : ∀ p ∈ w.data.nameset.data, (w.heap p).isSome
  fresh : ∀ p, w.next ≤ p → w.heap p = none

/-- The abstract store: the tasks that the indexes hold, by their address. -/
def stored (w : HydraWorld) (p : Ptr) : Option ListHydraTask :=
  if p ∈ w.data.nameset.data then w.heap p else none

theorem stored_eq_some {w : HydraWorld} {p : Ptr} {t : ListHydraTask} :
    w.stored p = some t ↔ p ∈ w.data.nameset.data ∧ w.heap p = some t := by
  unfold stored
  split <;> simp_all

theorem task_of_stored {w : HydraWorld} {p : Ptr} {t : ListHydraTask} (h : w.stored p = some t) :
    w.task p = t := task_eq_of_heap (stored_eq_some.mp h).2

theorem indexed_emptyHydraWorld (files : Files) : (emptyHydraWorld files).Indexed where
  items := SameItems.init
  allocated := by simp [emptyHydraWorld, ListSet.initListSet]
  fresh := by simp [emptyHydraWorld]

theorem stored_emptyHydraWorld (files : Files) (p : Ptr) :
    (emptyHydraWorld files).stored p = none := by
  simp [stored, emptyHydraWorld, ListSet.initListSet]

namespace Indexed

variable {w w' : HydraWorld}

/-- Only the indexes and the heap matter. -/
theorem congr (h : w.Indexed) (hdata : w'.data = w.data) (hheap : w'.heap = w.heap)
    (hnext : w'.next = w.next) : w'.Indexed := by
  have htask : w'.task = w.task := by
    funext p
    simp only [task, hheap]
  exact ⟨by rw [hdata, htask]; exact h.items, by rw [hdata, hheap]; exact h.allocated,
    by rw [hnext, hheap]; exact h.fresh⟩

theorem lt_next (h : w.Indexed) {p : Ptr} (hp : p ∈ w.data.nameset.data) : p < w.next := by
  by_contra hge
  have hsome := h.allocated p hp
  rw [h.fresh p (not_lt.mp hge)] at hsome
  simp at hsome

theorem stored_task (h : w.Indexed) {p : Ptr} (hp : p ∈ w.data.nameset.data) :
    w.stored p = some (w.task p) := by
  obtain ⟨t, ht⟩ := Option.isSome_iff_exists.mp (h.allocated p hp)
  rw [stored_eq_some, task_eq_of_heap ht]
  exact ⟨hp, ht⟩

theorem lt_next_of_stored (h : w.Indexed) {p : Ptr} {t : ListHydraTask} (hp : w.stored p = some t) :
    p < w.next := h.lt_next (stored_eq_some.mp hp).1

theorem stored_next (h : w.Indexed) : w.stored w.next = none := by
  by_contra hne
  obtain ⟨t, ht⟩ := Option.ne_none_iff_exists'.mp hne
  exact absurd (h.lt_next_of_stored ht) (lt_irrefl _)

/-- The lookup finds exactly the stored task with the name of the key. -/
theorem findHydraTask_eq_some (h : w.Indexed) {key : ListHydraTask} {p : Ptr} :
    w.findHydraTask key = some p ↔ ∃ t, w.stored p = some t ∧ t.taskName = key.taskName := by
  rw [findHydraTask, h.items.search_eq_some comparison_cmpHydraName, cmpHydraName_eq_zero]
  constructor
  · rintro ⟨hp, hname⟩
    exact ⟨_, h.stored_task hp, hname⟩
  · rintro ⟨t, ht, hname⟩
    exact ⟨(stored_eq_some.mp ht).1, by rw [task_of_stored ht, hname]⟩

theorem findHydraTask_eq_none (h : w.Indexed) {key : ListHydraTask} :
    w.findHydraTask key = none ↔ ∀ p t, w.stored p = some t → t.taskName ≠ key.taskName := by
  rw [Option.eq_none_iff_forall_ne_some]
  constructor
  · intro hnone p t hp hname
    exact hnone p (h.findHydraTask_eq_some.mpr ⟨t, hp, hname⟩)
  · intro hne p hsome
    obtain ⟨t, hp, hname⟩ := h.findHydraTask_eq_some.mp hsome
    exact hne p t hp hname

/-- Stored tasks with the same name are the same. -/
theorem name_injective (h : w.Indexed) {p q : Ptr} {t u : ListHydraTask} (hp : w.stored p = some t)
    (hq : w.stored q = some u) (hname : t.taskName = u.taskName) : p = q := by
  refine h.items.eq_of_zero comparison_cmpHydraName (stored_eq_some.mp hp).1
    (stored_eq_some.mp hq).1 (cmpHydraName_eq_zero.mpr ?_)
  rw [task_of_stored hp, task_of_stored hq, hname]

/-! ### The operations -/

theorem setTask (h : w.Indexed) {p : Ptr} {t : ListHydraTask} (t' : ListHydraTask) (hp : w.stored p = some t)
    (hname : t'.taskName = t.taskName) :
    (w.setTask p t').Indexed ∧ (w.setTask p t').stored = Function.update w.stored p (some t') := by
  obtain ⟨hmem, hheap⟩ := stored_eq_some.mp hp
  have hnames : ∀ q, ((w.setTask p t').task q).taskName = (w.task q).taskName := by
    intro q
    rw [task_setTask]
    split
    · rename_i hqp
      rw [hname, hqp, task_eq_of_heap hheap]
    · rfl
  constructor
  · refine ⟨h.items.congr fun x _ y _ => by simp only [cmpHydraName, hnames], fun q hq => ?_,
      fun q hq => ?_⟩
    · by_cases hqp : q = p
      · simp [HydraWorld.setTask, hqp]
      · simpa [HydraWorld.setTask, hqp] using h.allocated q hq
    · have hqp : q ≠ p := (lt_of_lt_of_le (h.lt_next hmem) hq).ne'
      simpa [HydraWorld.setTask, hqp] using h.fresh q hq
  · funext q
    by_cases hqp : q = p
    · subst hqp
      rw [Function.update_self]
      exact stored_eq_some.mpr ⟨hmem, by simp [HydraWorld.setTask]⟩
    · simp [stored, HydraWorld.setTask, hqp]

/-- A new task with a new name is linked into both indexes. -/
theorem newTask_add (h : w.Indexed) {t : ListHydraTask} {realloc : Bool}
    (hname : ∀ p u, w.stored p = some u → u.taskName ≠ t.taskName)
    (hw : (w.newTask t).2.addHydraTask realloc w.next = some w') :
    w'.Indexed ∧ w'.stored = Function.update w.stored w.next (some t) ∧
      w'.next = w.next + 1 ∧ w'.files = w.files ∧ w'.procs = w.procs ∧
      w'.hasChildExit = w.hasChildExit ∧ w'.heap = Function.update w.heap w.next (some t) := by
  obtain ⟨s, hs, rfl⟩ := Option.map_eq_some_iff.mp hw
  have hheap : (w.newTask t).2.heap = Function.update w.heap w.next (some t) := rfl
  have hnext : ∀ q ∈ w.data.nameset.data, q ≠ w.next := fun q hq => (h.lt_next hq).ne
  have hself : (w.newTask t).2.task w.next = t := task_eq_of_heap (by simp [hheap])
  have htask : ∀ q, q ≠ w.next → (w.newTask t).2.task q = w.task q := by
    intro q hq
    simp [task, hheap, hq]
  have hitems : SameItems cmpHydraName (w.newTask t).2.task w.data.nameset w.data.createque :=
    h.items.congr fun x hx y hy => by rw [htask x (hnext x hx), htask y (hnext y hy)]
  obtain ⟨hadd, hmem⟩ := hitems.add comparison_cmpHydraName
    (fun q => cmpHydraTime ((w.newTask t).2.task q) ((w.newTask t).2.task w.next))
    (fun hp => hnext _ hp rfl) (fun q hq => by
      rw [hself, htask q (hnext q hq), Ne, cmpHydraName_eq_zero]
      exact hname q _ (h.stored_task hq)) hs
  refine ⟨⟨hadd, fun q hq => ?_, fun q hq => ?_⟩, ?_, rfl, rfl, rfl, rfl, hheap⟩
  · change ((w.newTask t).2.heap q).isSome = true
    rcases (hmem q).mp hq with rfl | hq
    · simp [hheap]
    · rw [hheap, Function.update_of_ne (hnext q hq)]
      exact h.allocated q hq
  · have hlt : w.next < q := hq
    change (w.newTask t).2.heap q = none
    rw [hheap, Function.update_of_ne hlt.ne']
    exact h.fresh q hlt.le
  · funext q
    by_cases hq : q = w.next
    · subst hq
      rw [Function.update_self]
      exact stored_eq_some.mpr ⟨(hmem _).mpr (Or.inl rfl), by
        change (w.newTask t).2.heap w.next = some t
        simp [hheap]⟩
    · have hiff : q ∈ s.data ↔ q ∈ w.data.nameset.data := by
        rw [hmem q]
        exact ⟨fun hor => hor.resolve_left hq, Or.inr⟩
      have hq' : (w.newTask t).2.heap q = w.heap q := by rw [hheap, Function.update_of_ne hq]
      rw [Function.update_of_ne hq]
      simp only [stored, hiff, hq']

/-- A stored task is unlinked by its own name. -/
theorem delHydraTask (h : w.Indexed) {p : Ptr} {t : ListHydraTask} (hp : w.stored p = some t) :
    ∃ w', w.delHydraTask (w.task p) = some w' ∧ w'.Indexed ∧
      w'.stored = Function.update w.stored p none ∧ w'.heap = w.heap ∧ w'.next = w.next ∧
      w'.procs = w.procs ∧ w'.hasChildExit = w.hasChildExit ∧ w'.files = w.files ∧
      w'.data.nameset.size < w'.data.nameset.capacity := by
  have hmem := (stored_eq_some.mp hp).1
  obtain ⟨s, hs, hitems, hdata⟩ := h.items.delete comparison_cmpHydraName hmem
  have hsize : s.size < s.capacity := by
    have hdel := h.items.set.delFromSet_of_mem (h.items.separated comparison_cmpHydraName _) hmem
      (cmpHydraName_eq_zero.mpr rfl)
    rw [hs, Option.some.injEq, Prod.mk.injEq] at hdel
    have hpos : 0 < w.data.nameset.data.length := List.length_pos_of_mem hmem
    have hle := h.items.set.size_le
    have heq := h.items.set.size_eq
    rw [hdel.2]
    simp only
    omega
  refine ⟨{ w with data := { nameset := s, createque := w.data.createque.delItem p } },
    by rw [HydraWorld.delHydraTask, hs]; rfl, ⟨hitems, fun q hq => ?_, h.fresh⟩, ?_, rfl, rfl, rfl,
    rfl, rfl, hsize⟩
  · exact h.allocated q ((hdata q).mp hq).2
  · funext q
    by_cases hq : q = p
    · subst hq
      simp [stored, hdata]
    · have hiff : q ∈ s.data ↔ q ∈ w.data.nameset.data := by simp [hdata, hq]
      rw [Function.update_of_ne hq]
      simp only [stored, hiff]

/-- An unlinked task is linked again: there is room for it. -/
theorem relink (h : w.Indexed) {p : Ptr} {t : ListHydraTask} (realloc : Bool)
    (hheap : w.heap p = some t) (hp : w.stored p = none)
    (hname : ∀ q u, w.stored q = some u → u.taskName ≠ t.taskName)
    (hroom : w.data.nameset.size < w.data.nameset.capacity) :
    ∃ w', w.addHydraTask realloc p = some w' ∧ w'.Indexed ∧
      w'.stored = Function.update w.stored p (some t) ∧ w'.heap = w.heap ∧ w'.next = w.next ∧
      w'.procs = w.procs ∧ w'.hasChildExit = w.hasChildExit := by
  have hnot : p ∉ w.data.nameset.data := by
    intro hmem
    rw [stored_eq_some.mpr ⟨hmem, hheap⟩] at hp
    simp at hp
  have htask := task_eq_of_heap hheap
  obtain ⟨s, hs⟩ := Option.isSome_iff_exists.mp
    (show (w.data.nameset.addToSet realloc (fun q => cmpHydraName (w.task q) (w.task p)) p).isSome
      from ListSet.addToSet_isSome (Or.inr hroom))
  obtain ⟨hadd, hmem⟩ := h.items.add comparison_cmpHydraName
    (fun q => cmpHydraTime (w.task q) (w.task p)) hnot (fun q hq => by
      rw [htask, Ne, cmpHydraName_eq_zero]
      exact hname q _ (h.stored_task hq)) hs
  refine ⟨{ w with data := { nameset := s, createque := w.data.createque.pushBack _ p } },
    by rw [HydraWorld.addHydraTask, hs]; rfl, ⟨hadd, fun q hq => ?_, h.fresh⟩, ?_, rfl, rfl, rfl,
    rfl⟩
  · rcases (hmem q).mp hq with rfl | hq
    · simp [hheap]
    · exact h.allocated q hq
  · funext q
    by_cases hq : q = p
    · subst hq
      rw [Function.update_self]
      exact stored_eq_some.mpr ⟨(hmem _).mpr (Or.inl rfl), hheap⟩
    · have hiff : q ∈ s.data ↔ q ∈ w.data.nameset.data := by
        rw [hmem q]
        exact ⟨fun hor => hor.resolve_left hq, Or.inr⟩
      rw [Function.update_of_ne hq]
      simp only [stored, hiff]

/-- Freeing a task that is in no index. -/
theorem freeHydraTask (h : w.Indexed) {p : Ptr} (hp : w.stored p = none) :
    (w.freeHydraTask p).Indexed ∧ (w.freeHydraTask p).stored = w.stored := by
  have hnot : p ∉ w.data.nameset.data := by
    intro hmem
    rw [h.stored_task hmem] at hp
    simp at hp
  have hheap : ∀ q, q ≠ p → (w.freeHydraTask p).heap q = w.heap q := by
    intro q hq
    simp [HydraWorld.freeHydraTask, hq]
  have hne : ∀ q ∈ w.data.nameset.data, q ≠ p := fun q hq heq => hnot (heq ▸ hq)
  refine ⟨⟨h.items.congr fun x hx y hy => ?_, fun q hq => ?_, fun q hq => ?_⟩, ?_⟩
  · simp only [task, hheap x (hne x hx), hheap y (hne y hy)]
  · rw [hheap q (hne q hq)]
    exact h.allocated q hq
  · by_cases hqp : q = p
    · simp [HydraWorld.freeHydraTask, hqp]
    · rw [hheap q hqp]
      exact h.fresh q hq
  · funext q
    have hdata : (w.freeHydraTask p).data = w.data := rfl
    by_cases hq : q ∈ w.data.nameset.data
    · simp only [stored, hdata, hq, if_true, hheap q (hne q hq)]
    · simp only [stored, hdata, hq, if_false]

end Indexed

end HydraWorld

end OpenvasTool
