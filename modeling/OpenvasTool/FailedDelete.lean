import OpenvasTool.Gvm.CheckState
import OpenvasTool.Hydra.Creation
import OpenvasTool.Hydra.Pids

/-!
# A deletion that fails

A task is unlinked before the task file is written, and linked again when that
fails. The name set is as before then; the create queue is only if no task behind
this one has the same time.
-/

namespace OpenvasTool

open Posix Support

/-! ### Removal and insertion -/

section Reinsert

variable {α : Type*} {f : α → ℤ} {x : α} {front back : List α}

/-- The list is cut behind the last element that is not greater. -/
theorem rdropWhile_append_greater (hback : ∀ y ∈ back, 0 < f y) (hfront : ∀ y ∈ front.getLast?, f y ≤ 0) :
    (front ++ back).rdropWhile (fun y => decide (0 < f y)) = front ∧
      (front ++ back).rtakeWhile (fun y => decide (0 < f y)) = back := by
  induction back using List.reverseRecOn with
  | nil =>
    have hlast : ∀ hne : front ≠ [], ¬decide (0 < f (front.getLast hne)) = true := by
      intro hne
      have hle := hfront _ (List.getLast?_eq_some_getLast hne)
      simpa using hle
    rw [List.append_nil]
    exact ⟨List.rdropWhile_eq_self_iff.mpr hlast, List.rtakeWhile_eq_nil_iff.mpr hlast⟩
  | append_singleton back y ih =>
    obtain ⟨hdrop, htake⟩ := ih fun z hz => hback z (by simp [hz])
    have hy : 0 < f y := hback y (by simp)
    rw [← List.append_assoc, List.rdropWhile_concat_pos _ _ _ (by simpa using hy),
      List.rtakeWhile_concat_pos _ _ _ (by simpa using hy), hdrop, htake]
    exact ⟨rfl, rfl⟩

/-- An element goes back to its place exactly when all behind it are greater and the one in front
of it is not. -/
theorem insertLast_append_iff (hx : x ∉ front ++ back) :
    insertLast f x (front ++ back) = front ++ x :: back ↔
      (∀ y ∈ back, 0 < f y) ∧ ∀ y ∈ front.getLast?, f y ≤ 0 := by
  constructor
  · intro heq
    have hnot : x ∉ front ∧ x ∉ back := by simpa using hx
    obtain ⟨hdrop, -, htake⟩ := (List.append_cons_inj_of_notMem
      (fun hmem => hx ((List.rdropWhile_prefix _ _).subset hmem))
      (fun hmem => hx ((List.rtakeWhile_suffix _ _).subset hmem))).mp heq
    constructor
    · intro y hy
      rw [← htake] at hy
      simpa using List.mem_rtakeWhile_imp hy
    · intro y hy
      have hne : front ≠ [] := by
        rintro rfl
        simp at hy
      have hlast := List.rdropWhile_last_not (fun y => decide (0 < f y)) (front ++ back)
        (by rw [hdrop]; exact hne)
      simp only [hdrop] at hlast
      have hfront : front.getLast hne = y := by
        rw [List.getLast?_eq_some_getLast hne] at hy
        exact Option.some.inj hy
      rw [hfront] at hlast
      simpa using hlast
  · rintro ⟨hback, hfront⟩
    obtain ⟨hdrop, htake⟩ := rdropWhile_append_greater hback hfront
    rw [insertLast, hdrop, htake]

/-- The element is the last one with its key, and the key of the one in front of it is not
greater. -/
def LastOfKey (f : α → ℤ) (x : α) (xs : List α) : Prop :=
  ∀ front back, xs = front ++ x :: back → (∀ y ∈ back, 0 < f y) ∧ ∀ y ∈ front.getLast?, f y ≤ 0

variable {xs : List α}

theorem insertLast_erase_iff [DecidableEq α] (hnodup : xs.Nodup) (hx : x ∈ xs) :
    insertLast f x (xs.erase x) = xs ↔ LastOfKey f x xs := by
  obtain ⟨front, back, rfl⟩ := List.append_of_mem hx
  have hnot : x ∉ front ∧ x ∉ back := by
    have hmiddle := (List.nodup_middle.mp hnodup)
    simpa using (List.nodup_cons.mp hmiddle).1
  have herase : (front ++ x :: back).erase x = front ++ back := by
    rw [List.erase_append_right _ hnot.1, List.erase_cons_head]
  rw [herase, insertLast_append_iff (by simpa using hnot)]
  constructor
  · rintro hlast front' back' heq
    obtain ⟨rfl, -, rfl⟩ := (List.append_cons_inj_of_notMem hnot.1 hnot.2).mp heq
    exact hlast
  · exact fun h => h front back rfl

/-- In a strictly ascending list every element is. -/
theorem lastOfKey_of_strictAscending {cmp : α → α → ℤ} (h : Comparison cmp)
    (hxs : StrictAscending cmp xs) : LastOfKey (fun y => cmp y x) x xs := by
  rintro front back rfl
  obtain ⟨-, hback, hfront⟩ := List.pairwise_append.mp hxs
  constructor
  · intro y hy
    have hlt := (List.pairwise_cons.mp hback).1 y hy
    have hswap := h.swap x y
    change 0 < cmp y x
    omega
  · intro y hy
    exact (hfront y (List.mem_of_getLast? hy) x (by simp)).le

/-- Linking an unlinked element of a valid set again. -/
theorem addToSet_erase [DecidableEq α] {s : ListSet α} (h : s.Valid) {cmp : α → α → ℤ} (hcmp : Comparison cmp)
    (hsorted : StrictAscending cmp s.data) (hx : x ∈ s.data) (alloc : Bool) :
    ListSet.addToSet alloc (fun y => cmp y x) x
      { s with data := s.data.erase x, size := s.size - 1 } = some s := by
  have hpos : 0 < s.data.length := List.length_pos_of_mem hx
  have hsize := h.size_eq
  have hle := h.size_le
  unfold ListSet.addToSet ListSet.growArray
  rw [if_neg (by simp only; omega), Option.map_some]
  simp only [(insertLast_erase_iff h.nodup hx).mpr (lastOfKey_of_strictAscending hcmp hsorted)]
  rw [Nat.sub_add_cancel (by omega)]

/-- Linking an unlinked element of a valid queue again. -/
theorem pushBack_delItem_iff [DecidableEq α] {q : ListQueue α} (h : q.Valid) (hx : x ∈ q.items) :
    (q.delItem x).pushBack f x = q ↔ LastOfKey f x q.items := by
  rw [← insertLast_erase_iff h.nodup hx]
  unfold ListQueue.delItem ListQueue.pushBack
  rw [if_pos hx]
  constructor
  · intro heq
    exact congrArg ListQueue.items heq
  · intro heq
    simp only [heq, Int.sub_add_cancel]

end Reinsert

/-! ### What a failed deletion leaves -/

/-- A write that fails touches nothing but its temporary file. -/
theorem Env.writeFileSafe_failed {env : Env} {content normal tmp : Text} {files : Files}
    (hne : normal ≠ tmp) (h : (env.writeFileSafe content normal tmp files).1 ≠ 0) {path : Text}
    (hpath : path ≠ tmp) : (env.writeFileSafe content normal tmp files).2 path = files path := by
  by_cases hnormal : path = normal
  · subst hnormal
    rcases env.writeFileSafe_normal content path tmp files hne with hdone | hfailed
    · exact absurd hdone.1 h
    · exact hfailed.2
  · exact env.writeFileSafe_other _ _ _ _ hnormal hpath

theorem writeTaskFile_failed {env : Env} {w : World} (h : (writeTaskFile env w).1 ≠ 0) {path : Text}
    (hpath : path ≠ gvmTaskFileTmp) : (writeTaskFile env w).2 path = w.files path := by
  unfold writeTaskFile at h ⊢
  split at h
  · rfl
  · exact Env.writeFileSafe_failed gvmTaskFile_ne_gvmTaskFileTmp h hpath

theorem writeHydraTaskFile_failed {env : HydraEnv} {w : HydraWorld}
    (h : (writeHydraTaskFile env w).1 ≠ 0) {path : Text} (hpath : path ≠ hydraTaskFileTmp) :
    (writeHydraTaskFile env w).2 path = w.files path := by
  unfold writeHydraTaskFile at h ⊢
  split at h
  · rfl
  · exact Env.writeFileSafe_failed (by decide) h hpath

/-- The system calls when the task file cannot be opened for writing. -/
def HydraEnv.readOnly : HydraEnv := { HydraEnv.smooth 0 with write := fun _ => .openErr }

theorem readOnly_writeTaskFile (w : World) :
    (writeTaskFile HydraEnv.readOnly.toEnv w).1 ≠ 0 := by
  unfold writeTaskFile
  split
  · simp
  · simp [Env.writeFileSafe, HydraEnv.readOnly]

theorem readOnly_writeHydraTaskFile (w : HydraWorld) : (writeHydraTaskFile .readOnly w).1 ≠ 0 := by
  unfold writeHydraTaskFile
  split
  · simp
  · simp [Env.writeFileSafe, HydraEnv.readOnly]

/-- Both indexes are as before with the item in them, and so are all files but the temporary
one. -/
structure Undone (item : Ptr) (tmp : Text) (set set' : ListSet Ptr) (que que' : ListQueue Ptr)
    (files files' : Files) : Prop where
  nameset : set' = set
  createque : que' = que
  linked : item ∈ set'.data ∧ item ∈ que'.items
  files : ∀ path, path ≠ tmp → files' path = files path

namespace World

/-- The deletion of a task left nothing behind. -/
def DeleteUndone (w : World) (p : Ptr) (w' : World) : Prop :=
  Undone p gvmTaskFileTmp w.data.nameset w'.data.nameset w.data.createque w'.data.createque w.files
    w'.files

/-- No task behind this one in the create queue has the same time, and the one in front of it has
no later one. -/
def LastOfTime (w : World) (p : Ptr) : Prop :=
  LastOfKey (fun q => cmpGvmCreateTime (w.task q) (w.task p)) p w.data.createque.items

/-- The task at the place in the create queue where it is linked again. -/
def relinked (w : World) (p : Ptr) : World :=
  { w with data := { w.data with
      createque := (w.data.createque.delItem p).pushBack
        (fun q => cmpGvmCreateTime (w.task q) (w.task p)) p } }

namespace Indexed

variable {w : World} {p : Ptr}

/-- `addGvmTask` after `delGvmTask`. -/
theorem addGvmTask_unlink (h : w.Indexed) (hp : p ∈ w.data.nameset.data) (realloc : Bool) :
    (w.unlink p).addGvmTask realloc p = some (w.relinked p) := by
  have hset := addToSet_erase h.nameset w.comparison_cmpName h.sorted hp realloc
  exact Option.map_eq_some_iff.mpr ⟨w.data.nameset, hset, rfl⟩

/-- The outcome of the write decides. -/
theorem delTaskRelationFiles_cases (h : w.Indexed) (hp : p ∈ w.data.nameset.data) (env : Env) :
    ((writeTaskFile env (w.unlink p)).1 = 0 ∧ (delTaskRelationFiles env w p).1 = true) ∨
      (writeTaskFile env (w.unlink p)).1 ≠ 0 ∧
        delTaskRelationFiles env w p =
          (false, { w.relinked p with files := (writeTaskFile env (w.unlink p)).2 }) := by
  unfold delTaskRelationFiles
  rw [prepareGvmPaths_eq, h.delGvmTask_eq hp]
  dsimp only
  rw [h.addGvmTask_unlink hp]
  generalize writeTaskFile env (w.unlink p) = r
  split
  · exact Or.inl ⟨rfl, rfl⟩
  · rename_i code files hcode
    exact Or.inr ⟨hcode, rfl⟩

/-- A failed deletion is undone exactly if the task goes back to its place in the create queue. -/
theorem deleteUndone_iff (h : w.Indexed) (hp : p ∈ w.data.nameset.data) {env : Env}
    (hfailed : (delTaskRelationFiles env w p).1 = false) :
    w.DeleteUndone p (delTaskRelationFiles env w p).2 ↔ w.LastOfTime p := by
  have hque := (h.create_iff p).mpr hp
  rcases h.delTaskRelationFiles_cases hp env with ⟨-, hdone⟩ | ⟨hcode, heq⟩
  · rw [hdone] at hfailed
    simp at hfailed
  · rw [heq, World.LastOfTime, ← pushBack_delItem_iff h.createque hque]
    constructor
    · exact fun hundone => hundone.createque
    · intro hqueue
      have hmem : p ∈ (w.relinked p).data.createque.items := by
        rw [show (w.relinked p).data.createque = w.data.createque from hqueue]
        exact hque
      exact ⟨rfl, hqueue, ⟨hp, hmem⟩, fun path hpath => writeTaskFile_failed hcode hpath⟩

end Indexed

end World

namespace HydraWorld

/-- The deletion of a task left nothing behind. -/
def DeleteUndone (w : HydraWorld) (p : Ptr) (w' : HydraWorld) : Prop :=
  Undone p hydraTaskFileTmp w.data.nameset w'.data.nameset w.data.createque w'.data.createque w.files
    w'.files

/-- The same for hydra tasks. -/
def LastOfTime (w : HydraWorld) (p : Ptr) : Prop :=
  LastOfKey (fun q => cmpHydraTime (w.task q) (w.task p)) p w.data.createque.items

/-- The task at the place in the create queue where it is linked again. -/
def relinked (w : HydraWorld) (p : Ptr) : HydraWorld :=
  { w with data := { w.data with
      createque := (w.data.createque.delItem p).pushBack
        (fun q => cmpHydraTime (w.task q) (w.task p)) p } }

namespace Indexed

variable {w : HydraWorld} {p : Ptr}

/-- `addHydraTask` after `delHydraTask`. -/
theorem addHydraTask_unlink (h : w.Indexed) (hp : p ∈ w.data.nameset.data) (realloc : Bool) :
    (w.unlink p).addHydraTask realloc p = some (w.relinked p) := by
  have hset := addToSet_erase h.items.set (comparison_cmpHydraName.comap w.task) h.items.sorted hp
    realloc
  exact Option.map_eq_some_iff.mpr ⟨w.data.nameset, hset, rfl⟩

/-- The outcome of the write decides. -/
theorem delHydraRelationFiles_cases (h : w.Indexed) (hp : p ∈ w.data.nameset.data)
    (env : HydraEnv) :
    ((writeHydraTaskFile env (w.unlink p)).1 = 0 ∧
        (OpenvasTool.delHydraRelationFiles env w p).1 = true) ∨
      (writeHydraTaskFile env (w.unlink p)).1 ≠ 0 ∧
        OpenvasTool.delHydraRelationFiles env w p =
          (false, { w.relinked p with files := (writeHydraTaskFile env (w.unlink p)).2 }) := by
  unfold OpenvasTool.delHydraRelationFiles
  rw [prepareHydraPaths_eq, h.delHydraTask_eq hp]
  dsimp only
  rw [h.addHydraTask_unlink hp]
  generalize writeHydraTaskFile env (w.unlink p) = r
  split
  · exact Or.inl ⟨rfl, rfl⟩
  · rename_i code files hcode
    exact Or.inr ⟨hcode, rfl⟩

/-- A failed deletion is undone exactly if the task goes back to its place in the create queue. -/
theorem deleteUndone_iff (h : w.Indexed) (hp : p ∈ w.data.nameset.data) {env : HydraEnv}
    (hfailed : (OpenvasTool.delHydraRelationFiles env w p).1 = false) :
    w.DeleteUndone p (OpenvasTool.delHydraRelationFiles env w p).2 ↔ w.LastOfTime p := by
  have hque := (h.items.que_iff p).mpr hp
  rcases h.delHydraRelationFiles_cases hp env with ⟨-, hdone⟩ | ⟨hcode, heq⟩
  · rw [hdone] at hfailed
    simp at hfailed
  · rw [heq, HydraWorld.LastOfTime, ← pushBack_delItem_iff h.items.que hque]
    constructor
    · exact fun hundone => hundone.createque
    · intro hqueue
      have hmem : p ∈ (w.relinked p).data.createque.items := by
        rw [show (w.relinked p).data.createque = w.data.createque from hqueue]
        exact hque
      exact ⟨rfl, hqueue, ⟨hp, hmem⟩, fun path hpath => writeHydraTaskFile_failed hcode hpath⟩

end Indexed

end HydraWorld

/-! ### Both kinds -/

/-- **A failed deletion.** It leaves the store of either kind and the files as they were, whatever
failed, exactly for the tasks that are the last ones of their time in the create queue. -/
theorem failedDelete_iff {w : World} (h : w.Indexed) {p : Ptr} (hp : p ∈ w.data.nameset.data)
    {v : HydraWorld} (hv : v.Indexed) {q : Ptr} (hq : q ∈ v.data.nameset.data) :
    ((∀ env, (delTaskRelationFiles env w p).1 = false →
        w.DeleteUndone p (delTaskRelationFiles env w p).2) ↔ w.LastOfTime p) ∧
      ((∀ env, (delHydraRelationFiles env v q).1 = false →
        v.DeleteUndone q (delHydraRelationFiles env v q).2) ↔ v.LastOfTime q) := by
  constructor
  · constructor
    · intro hundone
      have hfailed : (delTaskRelationFiles HydraEnv.readOnly.toEnv w p).1 = false := by
        rcases h.delTaskRelationFiles_cases hp HydraEnv.readOnly.toEnv with ⟨hcode, -⟩ | ⟨-, heq⟩
        · exact absurd hcode (readOnly_writeTaskFile _)
        · rw [heq]
      exact (h.deleteUndone_iff hp hfailed).mp (hundone _ hfailed)
    · exact fun hlast env hfailed => (h.deleteUndone_iff hp hfailed).mpr hlast
  · constructor
    · intro hundone
      have hfailed : (delHydraRelationFiles .readOnly v q).1 = false := by
        rcases hv.delHydraRelationFiles_cases hq .readOnly with ⟨hcode, -⟩ | ⟨-, heq⟩
        · exact absurd hcode (readOnly_writeHydraTaskFile _)
        · rw [heq]
      exact (hv.deleteUndone_iff hq hfailed).mp (hundone _ hfailed)
    · exact fun hlast env hfailed => (hv.deleteUndone_iff hq hfailed).mpr hlast

/-- A second task is created in the second of the first one. -/
def sampleTwinSteps : List (HydraEvent × HydraEnv) :=
  [(.createHydra sampleHydraCreate, .smooth 0),
    (.createHydra "other\x010\x0110.0.0.1\x01ssh\x01\x01users\x01words\x010\x01\x01\x01".toList,
      { HydraEnv.smooth 0 with
        uuid := { (HydraEnv.smooth 0).uuid with word := (HydraEnv.smooth 0).uuid.rand } })]

/-- The store of hydra tasks after some steps. -/
def sampleHydraStore (is : List (HydraEvent × HydraEnv)) : HydraWorld := (hydraRun sampleHydraState is).world

theorem indexed_sampleHydraStore (is : List (HydraEvent × HydraEnv)) :
    (sampleHydraStore is).Indexed := by
  have h : (sampleHydraStore is).PidsOwned :=
    invariant_run pidsOwned_hydraNext hydraStart_sampleHydraState.pidsOwned is
  exact h.indexed

/-- The sample task for gvmd and the first of two hydra tasks. -/
theorem failedDelete_iff_sampleTwinSteps :
    ((∀ env, (delTaskRelationFiles env (daemonRun (emptyWorld fun _ => none) sampleSteps) 0).1 =
        false → (daemonRun (emptyWorld fun _ => none) sampleSteps).DeleteUndone 0
          (delTaskRelationFiles env (daemonRun (emptyWorld fun _ => none) sampleSteps) 0).2) ↔
        (daemonRun (emptyWorld fun _ => none) sampleSteps).LastOfTime 0) ∧
      ((∀ env, (delHydraRelationFiles env (sampleHydraStore sampleTwinSteps) 0).1 = false →
        (sampleHydraStore sampleTwinSteps).DeleteUndone 0
          (delHydraRelationFiles env (sampleHydraStore sampleTwinSteps) 0).2) ↔
        (sampleHydraStore sampleTwinSteps).LastOfTime 0) :=
  failedDelete_iff (reachable_emptyWorld.run sampleSteps).checkInvariant.consistent.toIndexed
    (by rw [sampleSteps_nameset]; simp) (indexed_sampleHydraStore sampleTwinSteps)
    (by decide +kernel)

/-- When the first of two tasks of the same second cannot be deleted, it moves behind the other. -/
theorem not_deleteUndone_sampleTwinSteps :
    (delHydraRelationFiles .readOnly (sampleHydraStore sampleTwinSteps) 0).1 = false ∧
      ¬(sampleHydraStore sampleTwinSteps).DeleteUndone 0
        (delHydraRelationFiles .readOnly (sampleHydraStore sampleTwinSteps) 0).2 := by
  have hfacts : 0 ∈ (sampleHydraStore sampleTwinSteps).data.nameset.data ∧
      (sampleHydraStore sampleTwinSteps).data.createque.items = [0, 1] ∧
      cmpHydraTime ((sampleHydraStore sampleTwinSteps).task 1)
        ((sampleHydraStore sampleTwinSteps).task 0) = 0 ∧
      (delHydraRelationFiles .readOnly (sampleHydraStore sampleTwinSteps) 0).1 = false := by
    decide +kernel
  obtain ⟨hmem, hitems, htie, hfailed⟩ := hfacts
  refine ⟨hfailed, fun hundone => ?_⟩
  have hlast := ((indexed_sampleHydraStore sampleTwinSteps).deleteUndone_iff hmem hfailed).mp hundone
  have hlater := (hlast [] [1] hitems).1 1 (by simp)
  simp only at hlater
  omega

end OpenvasTool
