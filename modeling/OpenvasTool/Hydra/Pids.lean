import OpenvasTool.Gvm.Boot
import OpenvasTool.Hydra.Steps

/-!
# The processes of the stored tasks

In every reachable state a process id in a stored task is that of a process that
was forked for this task and not waited for yet, so a signal never hits a
foreign process.
-/

namespace OpenvasTool

open Posix Support

/-! ### Start -/

/-- The task name of a record of a hydra task file. -/
def hydraRecordName (body : Text) : Option (CStr maxNameSize) :=
  getPatternKey body "task_name".toList gvmNamePattern maxNameSize

/-- The task names of the records of a hydra task file. -/
def hydraRecordNames (content : Text) : List (CStr maxNameSize) :=
  (records content).filterMap hydraRecordName

/-- The hydra task file, if there is one, has records with pairwise distinct task names. -/
def DistinctHydraNames (files : Files) : Prop :=
  ∀ content, files hydraTaskFile = some content → (hydraRecordNames content).Nodup

/-- A parsed task has the name of its record and no process. -/
theorem parseHydraFields_spec {body : Text} {t : ListHydraTask}
    (h : parseHydraFields body = some t) :
    hydraRecordName body = some t.taskName ∧ t.pid = 0 := by
  unfold parseHydraFields at h
  obtain ⟨_, _, h⟩ := Option.bind_eq_some_iff.mp h
  obtain ⟨name, hname, h⟩ := Option.bind_eq_some_iff.mp h
  iterate 8 obtain ⟨_, _, h⟩ := Option.bind_eq_some_iff.mp h
  split at h
  · obtain ⟨_, _, h⟩ := Option.bind_eq_some_iff.mp h
    obtain rfl := Option.some.inj h
    exact ⟨hname, rfl⟩
  · simp at h

/-- Records with pairwise distinct new names load into consistent indexes. -/
theorem HydraWorld.Indexed.loadHydraRecords {env : BootEnv} {l : List (ℕ × Text)}
    {w w' : HydraWorld} (done : List (CStr maxNameSize)) (h : w.Indexed)
    (hdone : ∀ p t, w.stored p = some t → t.taskName ∈ done ∧ t.pid = 0)
    (hnodup : (done ++ l.filterMap fun r => hydraRecordName r.2).Nodup)
    (hw : l.foldlM (loadHydraRecord env) w = some w') :
    w'.Indexed ∧ (∀ p t, w'.stored p = some t → t.pid = 0) ∧ w'.procs = w.procs ∧
      w'.hasChildExit = w.hasChildExit := by
  induction l generalizing w done with
  | nil =>
    obtain rfl : w = w' := by simpa using hw
    exact ⟨h, fun p t hp => (hdone p t hp).2, rfl, rfl⟩
  | cons r l ih =>
    rw [List.foldlM_cons, Option.bind_eq_bind, Option.bind_eq_some_iff] at hw
    obtain ⟨w1, hw1, hw⟩ := hw
    unfold loadHydraRecord at hw1
    split at hw1
    swap
    · simp at hw1
    obtain ⟨t, ht, hadd⟩ := Option.bind_eq_some_iff.mp hw1
    obtain ⟨hname, hpid⟩ := parseHydraFields_spec ht
    rw [List.filterMap_cons, hname] at hnodup
    have hnew : t.taskName ∉ done := fun hmem =>
      (List.nodup_append.mp hnodup).2.2 _ hmem _ (by simp) rfl
    obtain ⟨hidx, hstored, _, _, hprocs, hflag, _⟩ := h.newTask_add (fun p u hp hu =>
      hnew (hu ▸ (hdone p u hp).1)) hadd
    have hdone' : ∀ p u, w1.stored p = some u → u.taskName ∈ done ++ [t.taskName] ∧ u.pid = 0 := by
      intro p u hp
      rw [hstored] at hp
      by_cases hpn : p = w.next
      · rw [hpn, Function.update_self, Option.some.injEq] at hp
        rw [← hp]
        exact ⟨by simp, hpid⟩
      · rw [Function.update_of_ne hpn] at hp
        exact ⟨List.mem_append_left _ (hdone p u hp).1, (hdone p u hp).2⟩
    obtain ⟨hidx', hpids, hprocs', hflag'⟩ := ih _ hidx hdone'
      (by rwa [List.append_assoc, List.singleton_append]) hw
    exact ⟨hidx', hpids, hprocs'.trans hprocs, hflag'.trans hflag⟩

/-- After the start no task has a process. -/
theorem initHydra_spec {env : BootEnv} {templDir : Bool} {files : Files} {w : HydraWorld}
    (hnames : DistinctHydraNames files) (hw : initHydra env templDir files = some w) :
    w.Indexed ∧ (∀ p t, w.stored p = some t → t.pid = 0) ∧ w.procs = .empty ∧
      w.hasChildExit = false := by
  have hempty := HydraWorld.indexed_emptyHydraWorld files
  have hnone : ∀ p t, (emptyHydraWorld files).stored p ≠ some t := fun p t hp => by
    simp [HydraWorld.stored_emptyHydraWorld] at hp
  have hstart : ∀ w', some (emptyHydraWorld files) = some w' → w'.Indexed ∧
      (∀ p t, w'.stored p = some t → t.pid = 0) ∧ w'.procs = .empty ∧ w'.hasChildExit = false := by
    rintro w' heq
    obtain rfl := Option.some.inj heq
    exact ⟨hempty, fun p t hp => absurd hp (hnone p t), rfl, rfl⟩
  unfold initHydra at hw
  split at hw
  swap
  · simp at hw
  unfold readHydraTaskFile at hw
  split at hw
  · rename_i content hread
    have hfilter : (((records content).zipIdx.map Prod.swap).filterMap fun r =>
        hydraRecordName r.2) = hydraRecordNames content := by
      rw [List.filterMap_map, hydraRecordNames]
      conv_rhs => rw [← List.zipIdx_map_fst 0 (records content), List.filterMap_map]
      rfl
    refine hempty.loadHydraRecords [] (fun p t hp => absurd hp (hnone p t)) ?_ hw
    rw [List.nil_append, hfilter]
    exact hnames content (readTotalFile_eq_ok hread)
  · exact hstart w hw
  · exact hstart w hw
  · simp at hw

/-! ### Ownership -/

/-- The process of a stored task was forked for this task and not waited for, and processes are
only forked for addresses that were allocated. -/
structure HydraWorld.PidsOwned (w : HydraWorld) : Prop where
  indexed : w.Indexed
  owned : ∀ p t, w.stored p = some t → t.pid ≠ 0 → w.procs.Owns t.pid p
  owner_lt : ∀ pid p, w.procs.Owns pid p → p < w.next

namespace HydraWorld.PidsOwned

variable {w : HydraWorld}

/-- No two stored tasks share a process. -/
theorem pid_injective (h : w.PidsOwned) {p q : Ptr} {t u : ListHydraTask}
    (hp : w.stored p = some t) (hq : w.stored q = some u) (hne : t.pid ≠ 0)
    (heq : t.pid = u.pid) : p = q :=
  (h.owned p t hp hne).unique (heq ▸ h.owned q u hq (heq ▸ hne))

/-- The invariant only looks at the indexes, the stored tasks and the processes. -/
theorem frame (h : w.PidsOwned) {w' : HydraWorld} (hkept : HydraKept w w')
    (hprocs : w'.procs = w.procs)
    (hstored : ∀ p t, w'.stored p = some t → t.pid ≠ 0 → w.stored p = some t) : w'.PidsOwned where
  indexed := hkept.indexed
  owned p t hp hne := hprocs ▸ h.owned p t (hstored p t hp hne) hne
  owner_lt pid p hown := (h.owner_lt pid p (hprocs ▸ hown)).trans_le hkept.next_le

/-- The updated task has no process, so the others are those of the old store. -/
theorem stored_of_update {p : Ptr} {new : Option ListHydraTask} {w' : HydraWorld}
    (hstored : w'.stored = Function.update w.stored p new) (hnew : ∀ t, new = some t → t.pid = 0)
    (q : Ptr) (u : ListHydraTask) (hq : w'.stored q = some u) (hne : u.pid ≠ 0) :
    w.stored q = some u := by
  rw [hstored] at hq
  by_cases hqp : q = p
  · rw [hqp, Function.update_self] at hq
    exact absurd (hnew u hq) hne
  · rwa [Function.update_of_ne hqp] at hq

theorem keyEffect (h : w.PidsOwned) {env : HydraEnv} {p : Ptr} {t : ListHydraTask}
    {o : HydraOutcome} (hp : w.stored p = some t) (hkept : HydraKept w o.world)
    (he : KeyEffect env w p t o) : o.world.PidsOwned := by
  cases he with
  | nothing hstored hprocs => exact h.frame hkept hprocs fun q u hq _ => hstored ▸ hq
  | signalled _ hstored hprocs => exact h.frame hkept hprocs fun q u hq _ => hstored ▸ hq
  | stopped _ hstored hprocs =>
    exact h.frame hkept hprocs (stored_of_update hstored fun u hu => by
      obtain rfl := Option.some.inj hu
      rfl)
  | removed _ hstored hprocs =>
    exact h.frame hkept hprocs (stored_of_update hstored fun u hu => by simp at hu)
  | started r hidle hfork hstored hprocs =>
    refine ⟨hkept.indexed, fun q u hq hne => ?_, fun pid q hown => ?_⟩
    · rw [hprocs, Children.owns_fork hfork]
      rw [hstored] at hq
      by_cases hqp : q = p
      · rw [hqp, Function.update_self, Option.some.injEq] at hq
        exact Or.inl ⟨by rw [← hq], hqp⟩
      · rw [Function.update_of_ne hqp] at hq
        exact Or.inr (h.owned q u hq hne)
    · rw [hprocs, Children.owns_fork hfork] at hown
      refine lt_of_lt_of_le ?_ hkept.next_le
      rcases hown with ⟨_, rfl⟩ | hown
      · exact h.indexed.lt_next_of_stored hp
      · exact h.owner_lt pid q hown

/-- A request keeps the invariant. -/
theorem request (h : w.PidsOwned) {env : HydraEnv} {e : HydraEvent} {o : HydraOutcome}
    (ho : hydraRequest env w e = some o) : o.world.PidsOwned := by
  have hkey : ∀ {input o}, KeyRequest env w input o → o.world.PidsOwned := by
    intro input o hreq
    cases hreq with
    | noMemory _ ho => exact ho ▸ h
    | invalid _ _ ho => exact ho ▸ h
    | notFound _ _ _ _ ho => exact ho ▸ h
    | found key p t _ _ hp _ hkept heffect => exact h.keyEffect hp hkept heffect
  unfold hydraRequest at ho
  split at ho
  · exact Option.some.inj ho ▸ hkey (h.indexed.daemonStartHydra env _)
  · exact Option.some.inj ho ▸ hkey (h.indexed.daemonStopHydra env _)
  · exact Option.some.inj ho ▸ hkey (h.indexed.daemonDeleteHydra env _)
  · rename_i input
    obtain rfl := Option.some.inj ho
    obtain ⟨hkept, hprocs, _, _, heffect⟩ := h.indexed.daemonCreateHydra env input
    cases heffect with
    | nothing hstored => exact h.frame hkept hprocs fun q u hq _ => hstored ▸ hq
    | added t hpid hstored =>
      exact h.frame hkept hprocs (stored_of_update hstored fun u hu => Option.some.inj hu ▸ hpid)
  · simp at ho

/-- The end of a process with the loop over the create queue: the task that had the process loses
it, and all other stored tasks stay as they are. -/
theorem chgChildTask (h : w.PidsOwned) (pid : ℕ) :
    (w.chgChildTask pid).Indexed ∧ (w.chgChildTask pid).next = w.next ∧
      ∀ q u, (w.chgChildTask pid).stored q = some u → u.pid ≠ 0 →
        w.stored q = some u ∧ u.pid ≠ pid := by
  have hmem : ∀ q, q ∈ w.data.createque.items ↔ q ∈ w.data.nameset.data := h.indexed.items.que_iff
  unfold HydraWorld.chgChildTask
  split
  · rename_i hnone
    refine ⟨h.indexed, rfl, fun q u hq _ => ⟨hq, fun heq => ?_⟩⟩
    have hq' := List.find?_eq_none.mp hnone q ((hmem q).mpr (stored_eq_some.mp hq).1)
    rw [task_of_stored hq] at hq'
    simp [heq] at hq'
  · rename_i p hfind
    have hp := h.indexed.stored_task ((hmem p).mp (List.mem_of_find?_eq_some hfind))
    have hpid : (w.task p).pid = pid := by simpa using List.find?_some hfind
    obtain ⟨hidx, hstored⟩ := h.indexed.setTask { w.task p with pid := 0 } hp rfl
    refine ⟨hidx, rfl, fun q u hq hne => ?_⟩
    have hq' := stored_of_update hstored (fun v hv => by
      obtain rfl := Option.some.inj hv
      rfl) q u hq hne
    refine ⟨hq', fun heq => ?_⟩
    have hqp : q = p := h.pid_injective hq' hp hne (heq.trans hpid.symm)
    rw [hqp, hstored, Function.update_self, Option.some.injEq] at hq
    exact hne (by rw [← hq])

/-- The monitor and the operating system keep the invariant. -/
theorem system {s : HydraState} (h : s.world.PidsOwned) (e : HydraEvent) :
    (hydraSystem s e).world.PidsOwned := by
  have hflag : ∀ b, ({ s.world with hasChildExit := b } : HydraWorld).PidsOwned := fun b =>
    ⟨h.indexed.congr rfl rfl rfl, h.owned, h.owner_lt⟩
  unfold hydraSystem
  split
  · rename_i pid
    split
    · exact ⟨h.indexed.congr rfl rfl rfl, fun p t hp hne =>
        Children.owns_exit.mpr (h.owned p t hp hne), fun pid p hown =>
        h.owner_lt pid p (Children.owns_exit.mp hown)⟩
    · exact h
  · exact hflag true
  · split <;> exact h
  · split
    · split
      · rename_i pid _
        obtain ⟨hidx, hnext, hstored⟩ := h.chgChildTask pid
        refine ⟨hidx.congr rfl rfl rfl, fun p t hp hne => ?_, fun pid' p hown => ?_⟩
        · obtain ⟨hp', hpid⟩ := hstored p t hp hne
          exact Children.owns_reap.mpr ⟨hpid, h.owned p t hp' hne⟩
        · exact hnext ▸ h.owner_lt pid' p (Children.owns_reap.mp hown).2
      · exact h
    · exact h
  · split
    · exact hflag false
    · exact h
  · exact h

end HydraWorld.PidsOwned

/-- Ownership is an invariant of every step. -/
theorem pidsOwned_hydraNext (s : HydraState) (i : HydraEvent × HydraEnv) (h : s.world.PidsOwned) :
    (hydraNext s i).world.PidsOwned := by
  unfold hydraNext HydraState.request
  split
  · rename_i o ho
    split at ho
    · exact h.request ho
    · simp at ho
  · exact h.system i.1

/-- The states after a start of the daemon from a task file with distinct names. -/
structure HydraStart (s : HydraState) : Prop where
  idle : s.phase = .idle
  loaded : ∃ env templDir files, DistinctHydraNames files ∧
    initHydra env templDir files = some s.world

theorem HydraStart.pidsOwned {s : HydraState} (h : HydraStart s) : s.world.PidsOwned := by
  obtain ⟨env, templDir, files, hnames, hstart⟩ := h.loaded
  obtain ⟨hidx, hpids, hprocs, _⟩ := initHydra_spec hnames hstart
  exact ⟨hidx, fun p t hp hne => absurd (hpids p t hp) hne, fun pid p hown => by
    rw [hprocs] at hown
    exact absurd hown Children.not_owns_empty⟩

/-- Without a task file the daemon starts with an empty store. -/
theorem hydraStart_sampleHydraState : HydraStart sampleHydraState := by
  have hnone : sampleHydraFiles hydraTaskFile = none := by decide +kernel
  refine ⟨rfl, .smooth, true, sampleHydraFiles, fun content h => by simp [hnone] at h, ?_⟩
  simp [initHydra, readHydraTaskFile, BootEnv.smooth, emptyHydraWorld, hnone, readTotalFile,
    sampleHydraState]

/-- **Signals hit own processes.** In every state after a start and any steps, the process of a
stored task was forked for this task and not waited for, no two stored tasks share a process, and
a stop request only signals the process of the stored task that it names. -/
theorem pidsOwned_run {s0 : HydraState} (hstart : HydraStart s0)
    (is : List (HydraEvent × HydraEnv)) :
    let s := hydraRun s0 is
    (∀ p t, s.world.stored p = some t → t.pid ≠ 0 → s.world.procs.Owns t.pid p) ∧
      (∀ p q t u, s.world.stored p = some t → s.world.stored q = some u → t.pid ≠ 0 →
        t.pid = u.pid → p = q) ∧
      ∀ env input o, s.request env (.stopHydra input) = some o → ∀ pid ∈ o.signals,
        ∃ key p t, getKeyHydraParam input = some key ∧ s.world.stored p = some t ∧
          t.taskName = key.taskName ∧ t.pid = pid ∧ s.world.procs.Owns pid p := by
  intro s
  have h : s.world.PidsOwned := invariant_run pidsOwned_hydraNext hstart.pidsOwned is
  refine ⟨h.owned, fun p q t u hp hq hne heq => h.pid_injective hp hq hne heq, ?_⟩
  intro env input o ho pid hpid
  unfold HydraState.request at ho
  split at ho
  swap
  · simp at ho
  obtain rfl := Option.some.inj ho
  cases h.indexed.daemonStopHydra env input with
  | noMemory _ ho => simp [ho, HydraOutcome.fail] at hpid
  | invalid _ _ ho => simp [ho, HydraOutcome.fail] at hpid
  | notFound _ _ _ _ ho => simp [ho, HydraOutcome.fail] at hpid
  | found key p t _ hkey hp hname _ heffect =>
    have hown : t.pid ≠ 0 → pid = t.pid → ∃ key p t, getKeyHydraParam input = some key ∧
        s.world.stored p = some t ∧ t.taskName = key.taskName ∧ t.pid = pid ∧
        s.world.procs.Owns pid p := by
      rintro hbusy rfl
      exact ⟨key, p, t, hkey, hp, hname, rfl, h.owned p t hp hbusy⟩
    cases heffect with
    | nothing _ _ hsignals => simp [hsignals] at hpid
    | started _ _ _ _ _ hsignals => simp [hsignals] at hpid
    | removed _ _ _ hsignals => simp [hsignals] at hpid
    | stopped hbusy _ _ hsignals => exact hown hbusy (by simpa [hsignals] using hpid)
    | signalled hbusy _ _ hsignals => exact hown hbusy (by simpa [hsignals] using hpid)

/-- The started task `audit` has process 4711, and stopping it signals this process. -/
theorem pidsOwned_run_sampleHydraSteps :
    let s := hydraRun sampleHydraState (sampleHydraSteps.take 2)
    (s.world.task 0).pid = 4711 ∧
      (∀ p t, s.world.stored p = some t → t.pid ≠ 0 → s.world.procs.Owns t.pid p) ∧
      ∀ env input o, s.request env (.stopHydra input) = some o → ∀ pid ∈ o.signals,
        ∃ key p t, getKeyHydraParam input = some key ∧ s.world.stored p = some t ∧
          t.taskName = key.taskName ∧ t.pid = pid ∧ s.world.procs.Owns pid p := by
  intro s
  have h := pidsOwned_run hydraStart_sampleHydraState (sampleHydraSteps.take 2)
  exact ⟨by decide +kernel, h.1, h.2.2⟩

end OpenvasTool
