import OpenvasTool.FileLimit

/-!
# Rendering a task file as a whole

`snprintf` returns the length that a record wants and keeps one byte of the
buffer for the terminating NUL, but the fit test of a record compares with all
bytes that are left. So a task file is rendered as a whole or not at all, except
when the records of the create queue fill the buffer to its last byte.
-/

namespace OpenvasTool

open Posix Support

/-- `writeTaskFile` with a work buffer of this capacity. -/
def writeTaskFileIn (capacity : ℕ) (env : Env) (w : World) : ℤ × Files :=
  match writeTaskRecords capacity (w.data.createque.items.map w.task) with
  | none => (-1, w.files)
  | some content => env.writeFileSafe content gvmTaskFile gvmTaskFileTmp w.files

/-- `writeHydraTaskFile` with a work buffer of this capacity. -/
def writeHydraTaskFileIn (capacity : ℕ) (env : HydraEnv) (w : HydraWorld) : ℤ × Files :=
  match writeHydraRecords capacity (w.data.createque.items.map w.task) with
  | none => (-1, w.files)
  | some content => env.writeFileSafe content hydraTaskFile hydraTaskFileTmp w.files

theorem writeTaskFile_eq (env : Env) (w : World) :
    writeTaskFile env w = writeTaskFileIn maxCacheSize env w := rfl

theorem writeHydraTaskFile_eq (env : HydraEnv) (w : HydraWorld) :
    writeHydraTaskFile env w = writeHydraTaskFileIn maxCacheSize env w := rfl

/-- The rendered text is that of all tasks, and the file at the path stays when nothing is rendered. -/
structure WholeOrNot (rendered : Option Text) (text : Text) (files : Files) (path : Text)
    (result : ℤ × Files) : Prop where
  whole : ∀ content, rendered = some content → content = text ∧ '\x00' ∉ content
  kept : rendered = none → result.1 ≠ 0 ∧ result.2 path = files path

/-- Tasks with these fields are rendered whole, exactly unless they fill the buffer. -/
theorem renderTasks_whole_iff {τ : Type*} {fields : τ → List (Text × Text)}
    (hnul : ∀ t, '\x00' ∉ renderRecord (fields t)) {capacity : ℕ} {ts : List τ} :
    (∀ content, ts.foldlM (fun buf t => writeRecord capacity buf (renderRecord (fields t))) [] =
        some content → content = (ts.flatMap fun t => renderRecord (fields t)) ∧ '\x00' ∉ content) ↔
      (ts ≠ [] → ((ts.flatMap fun t => renderRecord (fields t)).length : ℤ) ≠
        intOfSize capacity) := by
  have hflat : (ts.map fun t => renderRecord (fields t)).flatten =
      ts.flatMap fun t => renderRecord (fields t) := List.flatMap_def.symm
  have hne : ∀ r ∈ ts.map fun t => renderRecord (fields t), r ≠ [] := by
    intro r hr
    obtain ⟨t, _, rfl⟩ := List.mem_map.mp hr
    exact renderRecord_ne_nil _
  have hfree : '\x00' ∉ (ts.map fun t => renderRecord (fields t)).flatten := by
    rw [hflat, List.mem_flatMap]
    rintro ⟨t, _, hin⟩
    exact hnul t hin
  have hiff := @foldlM_writeRecord_whole_iff capacity _ hne hfree
  rwa [List.foldlM_map, hflat, ne_eq, List.map_eq_nil_iff] at hiff

/-- Without a rendered text `writeTaskFile` fails and leaves all files alone. -/
theorem writeTaskFileIn_none {capacity : ℕ} {env : Env} {w : World}
    (h : writeTaskRecords capacity w.tasks = none) :
    (writeTaskFileIn capacity env w).1 ≠ 0 ∧ (writeTaskFileIn capacity env w).2 = w.files := by
  unfold World.tasks at h
  simp [writeTaskFileIn, h]

theorem writeHydraTaskFileIn_none {capacity : ℕ} {env : HydraEnv} {w : HydraWorld}
    (h : writeHydraRecords capacity w.tasks = none) :
    (writeHydraTaskFileIn capacity env w).1 ≠ 0 ∧
      (writeHydraTaskFileIn capacity env w).2 = w.files := by
  unfold HydraWorld.tasks at h
  simp [writeHydraTaskFileIn, h]

/-- **A task file is rendered whole or not at all**, exactly unless the records of a create queue
that is not empty have as many bytes as the program counts in the buffer. -/
theorem wholeOrNot_iff (capacity : ℕ) (env : Env) (w : World) (henv : HydraEnv) (hw : HydraWorld) :
    (WholeOrNot (writeTaskRecords capacity w.tasks) (taskFileText w.tasks) w.files gvmTaskFile
        (writeTaskFileIn capacity env w) ↔
      (w.tasks ≠ [] → ((taskFileText w.tasks).length : ℤ) ≠ intOfSize capacity)) ∧
    (WholeOrNot (writeHydraRecords capacity hw.tasks) (hydraFileText hw.tasks) hw.files
        hydraTaskFile (writeHydraTaskFileIn capacity henv hw) ↔
      (hw.tasks ≠ [] → ((hydraFileText hw.tasks).length : ℤ) ≠ intOfSize capacity)) := by
  constructor
  · rw [taskFileText, ← renderTasks_whole_iff nulFree_taskFields]
    constructor
    · exact WholeOrNot.whole
    · intro hwhole
      refine ⟨hwhole, fun hnone => ?_⟩
      obtain ⟨hcode, hfiles⟩ := @writeTaskFileIn_none capacity env w hnone
      exact ⟨hcode, congrFun hfiles _⟩
  · rw [hydraFileText, ← renderTasks_whole_iff nulFree_hydraFields]
    constructor
    · exact WholeOrNot.whole
    · intro hwhole
      refine ⟨hwhole, fun hnone => ?_⟩
      obtain ⟨hcode, hfiles⟩ := @writeHydraTaskFileIn_none capacity henv hw hnone
      exact ⟨hcode, congrFun hfiles _⟩

/-! ### A store that fills the buffer -/

/-- A host list of 272 characters. -/
def fullHosts : CStr maxMemListSize :=
  ⟨"100.0.0.100".toList ++ (List.replicate 29 ",10.0.0.1".toList).flatten, by decide +kernel,
    by decide +kernel⟩

/-- The task that fills the buffer behind 34378 others. -/
def fullTask : ListGvmTask :=
  { manyTask 34378 with targetInfo := { (manyTask 34378).targetInfo with hosts := fullHosts } }

/-- A create queue with `n` tasks and then this one. -/
def storeWith (n : ℕ) (last : ListGvmTask) : World :=
  { emptyWorld (fun _ => none) with
    data := { (emptyWorld fun _ => none).data with createque := ⟨List.range (n + 1), n + 1⟩ }
    heap := fun p => some (if p < n then manyTask p else last)
    next := n + 1 }

theorem length_taskFileText_manyTasks (n : ℕ) :
    (taskFileText ((List.range n).map manyTask)).length = n * manyLength := by
  induction n with
  | zero => simp [taskFileText]
  | succ n ih =>
    unfold taskFileText at ih ⊢
    rw [List.range_succ, List.map_append, List.flatMap_append, List.length_append, ih]
    simp only [List.map_cons, List.map_nil, List.flatMap_cons, List.flatMap_nil, List.append_nil,
      length_renderRecord_manyTask]
    rw [Nat.succ_mul]

theorem tasks_storeWith (n : ℕ) (last : ListGvmTask) :
    (storeWith n last).tasks = (List.range n).map manyTask ++ [last] := by
  have hfront : (List.range n).map (storeWith n last).task = (List.range n).map manyTask := by
    apply List.map_congr_left
    intro p hp
    simp [World.task, storeWith, List.mem_range.mp hp]
  have hlast : (storeWith n last).task n = last := by simp [World.task, storeWith]
  change (List.range (n + 1)).map (storeWith n last).task = _
  rw [List.range_succ, List.map_append, hfront, List.map_singleton, hlast]

/-- The records of these tasks have exactly 16 MB, and the last one loses its last byte. -/
theorem not_wholeOrNot_storeWith :
    ¬ ∀ capacity env w, WholeOrNot (writeTaskRecords capacity w.tasks) (taskFileText w.tasks)
      w.files gvmTaskFile (writeTaskFileIn capacity env w) := by
  intro hclaim
  have hwhole := (hclaim maxCacheSize (.smooth sampleGvmd) (storeWith 34378 fullTask)).whole
  have hsizes : 34378 * manyLength + (renderRecord (taskFields fullTask)).length = maxCacheSize := by
    decide +kernel
  have hfull : (taskFileText (storeWith 34378 fullTask).tasks).length = maxCacheSize := by
    have hmany := length_taskFileText_manyTasks 34378
    unfold taskFileText at hmany ⊢
    rw [tasks_storeWith, List.flatMap_append, List.length_append, hmany, List.flatMap_singleton]
    exact hsizes
  have hne : (storeWith 34378 fullTask).tasks ≠ [] := by simp [tasks_storeWith]
  refine (renderTasks_whole_iff nulFree_taskFields).mp hwhole hne ?_
  rw [intOfSize_maxCacheSize]
  exact congrArg Nat.cast hfull

end OpenvasTool
