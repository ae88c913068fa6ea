import OpenvasTool.Hydra.Creation
import OpenvasTool.Hydra.Pids
import OpenvasTool.Gvm.TaskFile

/-!
# The names of loaded tasks

The loaders link every record of a task file, also one with the name of an earlier
record. The store is sound exactly when no two records have the same name.
-/

namespace OpenvasTool

open Posix Support

/-! ### Loading by steps -/

/-- When every step of a loader adds the name of its record, the loaded names are those of the
records. -/
theorem names_perm_of_foldlM {σ ρ ν : Type*} {step : σ → ρ → Option σ} (names : σ → List ν)
    (nameOf : ρ → Option ν) (inv : σ → Prop)
    (hstep : ∀ s r s', inv s → step s r = some s' →
      inv s' ∧ ∃ n, nameOf r = some n ∧ (names s').Perm (n :: names s))
    {l : List ρ} {s s' : σ} (hs : inv s) (h : l.foldlM step s = some s') :
    (names s').Perm (l.filterMap nameOf ++ names s) := by
  induction l generalizing s with
  | nil =>
    obtain rfl : s = s' := by simpa using h
    exact .refl _
  | cons r l ih =>
    rw [List.foldlM_cons, Option.bind_eq_bind, Option.bind_eq_some_iff] at h
    obtain ⟨mid, hmid, h⟩ := h
    obtain ⟨hinv, n, hn, hperm⟩ := hstep s r mid hs hmid
    rw [List.filterMap_cons, hn]
    have hrest : (names s').Perm (l.filterMap nameOf ++ n :: names s) :=
      (ih hinv h).trans (hperm.append_left _)
    exact hrest.trans List.perm_middle

section AddToSet

variable {α : Type*} {s s' : ListSet α} {alloc : Bool} {cmp : α → ℤ} {x : α}

theorem data_addToSet (h : s.addToSet alloc cmp x = some s') : s'.data = insertLast cmp x s.data := by
  obtain ⟨g, hg, rfl⟩ := Option.map_eq_some_iff.mp h
  unfold ListSet.growArray at hg
  split at hg
  · obtain ⟨-, hg⟩ := Option.ite_none_right_eq_some.mp hg
    obtain rfl := Option.some.inj hg
    rfl
  · obtain rfl := Option.some.inj hg
    rfl

/-- The names after an insertion that keeps the records of the others. -/
theorem names_addToSet {β ν : Type*} {val val' : α → β} (name : β → ν)
    (hval : ∀ y ∈ s.data, val' y = val y) (h : s.addToSet alloc cmp x = some s') :
    (s'.data.map fun y => name (val' y)).Perm
      (name (val' x) :: s.data.map fun y => name (val y)) := by
  have hold : (s.data.map fun y => name (val' y)) = s.data.map fun y => name (val y) :=
    List.map_congr_left fun y hy => by rw [hval y hy]
  rw [data_addToSet h, ← hold]
  exact (insertLast_perm cmp x s.data).map _

/-- The addresses stay below the next free one. -/
theorem lt_succ_of_addToSet {s s' : ListSet Ptr} {cmp : Ptr → ℤ} {next : Ptr}
    (hlt : ∀ p ∈ s.data, p < next) (h : s.addToSet alloc cmp next = some s') :
    ∀ p ∈ s'.data, p < next + 1 := by
  intro p hp
  rw [data_addToSet h, mem_insertLast] at hp
  rcases hp with rfl | hp
  · exact Nat.lt_succ_self p
  · exact Nat.lt_succ_of_lt (hlt p hp)

end AddToSet

/-- What reading a file that is there gives. -/
theorem readTotalFile_some (stat read : Bool) (content : Text) :
    readTotalFile stat read (some content) = .ok content ∨
      readTotalFile stat read (some content) = .error .emptyFile ∧ content = [] ∨
      readTotalFile stat read (some content) = .error .tooLarge ∨
      readTotalFile stat read (some content) = .error .ioError := by
  unfold readTotalFile
  split
  · dsimp only
    split_ifs with hlarge hempty
    · simp
    · simp [List.isEmpty_iff.mp hempty]
    · simp
    · simp
  · simp

/-- The numbered records have the names of the records. -/
theorem filterMap_zipIdx {ν : Type*} (nameOf : Text → Option ν) (content : Text) :
    ((records content).zipIdx.map Prod.swap).filterMap (fun r => nameOf r.2) =
      (records content).filterMap nameOf := by
  rw [List.filterMap_map]
  conv_rhs => rw [← List.zipIdx_map_fst 0 (records content), List.filterMap_map]
  rfl

/-! ### Tasks for gvmd -/

namespace World

/-- The names in the name set. -/
def names (w : World) : List (CStr maxNameSize) :=
  w.data.nameset.data.map fun p => (w.task p).taskInfo.taskName

/-- No two tasks have the same name, the name set is in strict order, both indexes hold the same
tasks, and a deletion unlinks from both of them the task that the lookup found. -/
structure Unambiguous (w : World) : Prop where
  names : w.names.Nodup
  ascending : StrictAscending w.cmpName w.data.nameset.data
  same : ∀ p, p ∈ w.data.createque.items ↔ p ∈ w.data.nameset.data
  unlinks : ∀ key p, w.findGvmTask key = some p → w.delGvmTask (w.task p) = some (w.unlink p)

theorem Indexed.unambiguous {w : World} (h : w.Indexed) : w.Unambiguous where
  names := by
    refine List.Nodup.map_on (fun p hp q hq hname => ?_) h.nameset.nodup
    exact h.name_injective hp hq hname
  ascending := h.sorted
  same := h.create_iff
  unlinks key p hfind := h.delGvmTask_eq (h.findGvmTask_eq_some.mp hfind).1

/-- A record adds its name. -/
theorem names_loadRecord {env : BootEnv} {w w' : World} {r : ℕ × Text}
    (h : ∀ p ∈ w.data.nameset.data, p < w.next) (hw : loadRecord env w r = some w') :
    (∀ p ∈ w'.data.nameset.data, p < w'.next) ∧
      ∃ name, getPatternKey r.2 "task_name".toList gvmNamePattern maxNameSize = some name ∧
        w'.names.Perm (name :: w.names) := by
  unfold loadRecord at hw
  split at hw
  swap
  · simp at hw
  obtain ⟨t, ht, hadd⟩ := Option.bind_eq_some_iff.mp hw
  obtain ⟨s, hs, rfl⟩ := Option.map_eq_some_iff.mp hadd
  have htask : ∀ q ∈ w.data.nameset.data, (w.newTask t).2.task q = w.task q := by
    intro q hq
    simp [World.newTask, World.setTask, World.task, (h q hq).ne]
  have hself : (w.newTask t).2.task w.next = t := by simp [World.newTask, World.setTask, World.task]
  have hperm := names_addToSet (fun t : ListGvmTask => t.taskInfo.taskName) htask hs
  rw [show (w.newTask t).2.task (w.newTask t).1 = t from hself] at hperm
  exact ⟨lt_succ_of_addToSet h hs, t.taskInfo.taskName, (parseTaskFields_spec ht).1, hperm⟩

end World

/-- The loaded names are those of the records. -/
theorem names_readTaskFile {env : BootEnv} {files : Files} {w : World} {content : Text}
    (hcontent : files gvmTaskFile = some content)
    (hw : readTaskFile env (emptyWorld files) = some w) : w.names.Perm (recordNames content) := by
  unfold readTaskFile at hw
  rw [show (emptyWorld files).files gvmTaskFile = some content from hcontent] at hw
  rcases readTotalFile_some (env.stat gvmTaskFile) (env.read gvmTaskFile) content with
    hread | ⟨hread, rfl⟩ | hread | hread
  · rw [hread] at hw
    have hperm := names_perm_of_foldlM World.names
      (fun r => getPatternKey r.2 "task_name".toList gvmNamePattern maxNameSize)
      (fun w => ∀ p ∈ w.data.nameset.data, p < w.next)
      (fun _ _ _ hlt hstep => World.names_loadRecord hlt hstep)
      (by simp [emptyWorld, ListSet.initListSet]) hw
    rwa [show (emptyWorld files).names = [] from rfl, List.append_nil, filterMap_zipIdx fun body =>
      getPatternKey body "task_name".toList gvmNamePattern maxNameSize] at hperm
  · rw [hread] at hw
    obtain rfl := Option.some.inj hw
    exact .refl _
  · simp [hread] at hw
  · simp [hread] at hw

/-- The store after reading a task file is sound exactly when its records have distinct names. -/
theorem unambiguous_readTaskFile_iff {env : BootEnv} {files : Files} {w : World}
    (hw : readTaskFile env (emptyWorld files) = some w) :
    w.Unambiguous ↔ DistinctNames files := by
  constructor
  · intro hsound content hcontent
    exact (names_readTaskFile hcontent hw).nodup_iff.mp hsound.names
  · intro hnames
    exact (readTaskFile_spec hnames hw).1.unambiguous

/-! ### Hydra tasks -/

namespace HydraWorld

/-- The names in the name set. -/
def names (w : HydraWorld) : List (CStr maxNameSize) :=
  w.data.nameset.data.map fun p => (w.task p).taskName

/-- The same for hydra tasks. -/
structure Unambiguous (w : HydraWorld) : Prop where
  names : w.names.Nodup
  ascending : StrictAscending (fun p q => cmpHydraName (w.task p) (w.task q)) w.data.nameset.data
  same : ∀ p, p ∈ w.data.createque.items ↔ p ∈ w.data.nameset.data
  unlinks : ∀ key p, w.findHydraTask key = some p → w.delHydraTask (w.task p) = some (w.unlink p)

theorem Indexed.unambiguous {w : HydraWorld} (h : w.Indexed) : w.Unambiguous where
  names := by
    refine List.Nodup.map_on (fun p hp q hq hname => ?_) h.items.set.nodup
    exact h.items.eq_of_zero comparison_cmpHydraName hp hq (cmpHydraName_eq_zero.mpr hname)
  ascending := h.items.sorted
  same := h.items.que_iff
  unlinks key p hfind := by
    have hmem := ((h.items.search_eq_some comparison_cmpHydraName).mp hfind).1
    exact h.delHydraTask_eq hmem

/-- A record adds its name. -/
theorem names_loadHydraRecord {env : BootEnv} {w w' : HydraWorld} {r : ℕ × Text}
    (h : ∀ p ∈ w.data.nameset.data, p < w.next) (hw : loadHydraRecord env w r = some w') :
    (∀ p ∈ w'.data.nameset.data, p < w'.next) ∧
      ∃ name, hydraRecordName r.2 = some name ∧ w'.names.Perm (name :: w.names) := by
  unfold loadHydraRecord at hw
  split at hw
  swap
  · simp at hw
  obtain ⟨t, ht, hadd⟩ := Option.bind_eq_some_iff.mp hw
  obtain ⟨s, hs, rfl⟩ := Option.map_eq_some_iff.mp hadd
  have htask : ∀ q ∈ w.data.nameset.data, (w.newTask t).2.task q = w.task q := by
    intro q hq
    simp [HydraWorld.newTask, HydraWorld.setTask, HydraWorld.task, (h q hq).ne]
  have hself : (w.newTask t).2.task (w.newTask t).1 = t := by
    simp [HydraWorld.newTask, HydraWorld.setTask, HydraWorld.task]
  have hperm := names_addToSet (fun t : ListHydraTask => t.taskName) htask hs
  rw [hself] at hperm
  exact ⟨lt_succ_of_addToSet h hs, t.taskName, (parseHydraFields_spec ht).1, hperm⟩

end HydraWorld

/-- The loaded names are those of the records. -/
theorem names_readHydraTaskFile {env : BootEnv} {files : Files} {w : HydraWorld} {content : Text}
    (hcontent : files hydraTaskFile = some content)
    (hw : readHydraTaskFile env (emptyHydraWorld files) = some w) :
    w.names.Perm (hydraRecordNames content) := by
  unfold readHydraTaskFile at hw
  rw [show (emptyHydraWorld files).files hydraTaskFile = some content from hcontent] at hw
  rcases readTotalFile_some (env.stat hydraTaskFile) (env.read hydraTaskFile) content with
    hread | ⟨hread, rfl⟩ | hread | hread
  · rw [hread] at hw
    have hperm := names_perm_of_foldlM HydraWorld.names (fun r => hydraRecordName r.2)
      (fun w => ∀ p ∈ w.data.nameset.data, p < w.next)
      (fun _ _ _ hlt hstep => HydraWorld.names_loadHydraRecord hlt hstep)
      (by simp [emptyHydraWorld, ListSet.initListSet]) hw
    rwa [show (emptyHydraWorld files).names = [] from rfl, List.append_nil,
      filterMap_zipIdx hydraRecordName] at hperm
  · rw [hread] at hw
    obtain rfl := Option.some.inj hw
    exact .refl _
  · simp [hread] at hw
  · simp [hread] at hw

/-- The same for the hydra task file. -/
theorem unambiguous_readHydraTaskFile_iff {env : BootEnv} {files : Files} {w : HydraWorld}
    (hw : readHydraTaskFile env (emptyHydraWorld files) = some w) :
    w.Unambiguous ↔ DistinctHydraNames files := by
  constructor
  · intro hsound content hcontent
    exact (names_readHydraTaskFile hcontent hw).nodup_iff.mp hsound.names
  · intro hnames
    exact (initHydra_spec hnames (show initHydra { env with createData := true, privDir := true }
      true files = some w from hw)).1.unambiguous

/-! ### Both kinds -/

/-- **Duplicate names in a task file.** A loaded store is sound exactly when the records of its
file have pairwise distinct names. -/
theorem unambiguous_iff (env : BootEnv) (files : Files) :
    (∀ w, readTaskFile env (emptyWorld files) = some w → (w.Unambiguous ↔ DistinctNames files)) ∧
      ∀ w, readHydraTaskFile env (emptyHydraWorld files) = some w →
        (w.Unambiguous ↔ DistinctHydraNames files) :=
  ⟨fun _ hw => unambiguous_readTaskFile_iff hw, fun _ hw => unambiguous_readHydraTaskFile_iff hw⟩

/-- With enough memory records that can be parsed are loaded whatever is there already. -/
theorem loadRecords_isSome {env : BootEnv} (henv : env.Memory) {l : List (ℕ × Text)}
    (hl : ∀ r ∈ l, (parseTaskFields r.2).isSome) (w : World) :
    (l.foldlM (loadRecord env) w).isSome := by
  induction l generalizing w with
  | nil => rfl
  | cons r l ih =>
    obtain ⟨t, ht⟩ := Option.isSome_iff_exists.mp (hl r (by simp))
    have hadd : (loadRecord env w r).isSome := by
      unfold loadRecord
      rw [if_pos (henv.alloc r.1), ht, Option.bind_some]
      unfold World.addGvmTask
      rw [Option.isSome_map]
      exact ListSet.addToSet_isSome (Or.inl (henv.realloc r.1))
    obtain ⟨mid, hmid⟩ := Option.isSome_iff_exists.mp hadd
    rw [List.foldlM_cons, hmid]
    exact ih (fun r' hr' => hl r' (by simp [hr'])) mid

theorem readTaskFile_isSome {env : BootEnv} (henv : env.Memory) {files : Files} {content : Text}
    (hread : readTotalFile (env.stat gvmTaskFile) (env.read gvmTaskFile) (files gvmTaskFile) =
      .ok content) (hall : ∀ body ∈ records content, (parseTaskFields body).isSome) :
    (readTaskFile env (emptyWorld files)).isSome := by
  unfold readTaskFile
  rw [show (emptyWorld files).files gvmTaskFile = files gvmTaskFile from rfl, hread]
  refine loadRecords_isSome henv (fun r hr => ?_) _
  obtain ⟨⟨body, i⟩, hbody, rfl⟩ := List.mem_map.mp hr
  exact hall body (List.fst_mem_of_mem_zipIdx hbody)

/-- A task file with the record of the task `scan` twice. -/
def twinFiles : Files := fun path =>
  if path = gvmTaskFile then some (taskFileText [sampleTask, sampleTask]) else none

theorem records_twinFiles : records (taskFileText [sampleTask, sampleTask]) =
    [keyLines (taskFields sampleTask), keyLines (taskFields sampleTask)] :=
  records_taskFileText (by simp [storable_sampleTask])

theorem readTaskFile_twinFiles : (readTaskFile .smooth (emptyWorld twinFiles)).isSome := by
  have hlen : (taskFileText [sampleTask, sampleTask]).isEmpty = false ∧
      (taskFileText [sampleTask, sampleTask]).length ≤ maxTaskFileSize := by decide +kernel
  have hread : readTotalFile true true (twinFiles gvmTaskFile) =
      .ok (taskFileText [sampleTask, sampleTask]) := by
    simp [twinFiles, readTotalFile, hlen.1, not_lt.mpr hlen.2]
  refine readTaskFile_isSome ⟨fun _ => rfl, fun _ => rfl⟩ hread ?_
  rw [records_twinFiles]
  intro body hbody
  have heq : body = keyLines (taskFields sampleTask) := by simpa using hbody
  rw [heq, storable_sampleTask.parseTaskFields]
  rfl

/-- The equivalence at the file with the record of the task `scan` twice. -/
theorem unambiguous_iff_twinFiles : ∃ w, readTaskFile .smooth (emptyWorld twinFiles) = some w ∧
    (w.Unambiguous ↔ DistinctNames twinFiles) := by
  obtain ⟨w, hw⟩ := Option.isSome_iff_exists.mp readTaskFile_twinFiles
  exact ⟨w, hw, (unambiguous_iff .smooth twinFiles).1 w hw⟩

/-- Both records are loaded under the same name. -/
theorem not_unambiguous_twinFiles :
    ∃ w, readTaskFile .smooth (emptyWorld twinFiles) = some w ∧ ¬w.Unambiguous := by
  obtain ⟨w, hw⟩ := Option.isSome_iff_exists.mp readTaskFile_twinFiles
  refine ⟨w, hw, fun hsound => ?_⟩
  have hperm := names_readTaskFile (if_pos rfl) hw
  have hname := (parseTaskFields_spec storable_sampleTask.parseTaskFields).1
  have hnames : recordNames (taskFileText [sampleTask, sampleTask]) =
      [sampleTask.persisted.taskInfo.taskName, sampleTask.persisted.taskInfo.taskName] := by
    rw [recordNames, records_twinFiles]
    simp only [List.filterMap_cons, hname, List.filterMap_nil]
  rw [hnames] at hperm
  have htwice := hperm.nodup_iff.mp hsound.names
  simp at htwice

end OpenvasTool
