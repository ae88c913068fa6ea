import OpenvasTool.Hydra.Indexes

/-!
# What a hydra request can do

Every request acts on the stored tasks and on the task processes in one of a few
ways, and keeps the indexes consistent. Later invariants are derived from these
facts and never look at the indexes or the files again.
-/

namespace OpenvasTool

open Posix Support

/-! ### Requests for an existing task -/

/-- What a request for the stored task `t` at `p` does. -/
inductive KeyEffect (env : HydraEnv) (w : HydraWorld) (p : Ptr) (t : ListHydraTask)
    (o : HydraOutcome) : Prop
  | nothing (hstored : o.world.stored = w.stored) (hprocs : o.world.procs = w.procs)
      (hsignals : o.signals = []) (hremoved : o.removed = [])
  | started (r : ℕ × Children Ptr) (hidle : t.pid = 0) (hfork : w.procs.fork env.fork p = some r)
      (hstored : o.world.stored = Function.update w.stored p (some { t with pid := r.1 }))
      (hprocs : o.world.procs = r.2) (hsignals : o.signals = []) (hremoved : o.removed = [])
  | stopped (hbusy : t.pid ≠ 0)
      (hstored : o.world.stored = Function.update w.stored p (some { t with pid := 0 }))
      (hprocs : o.world.procs = w.procs) (hsignals : o.signals = [t.pid]) (hremoved : o.removed = [])
  | signalled (hbusy : t.pid ≠ 0) (hstored : o.world.stored = w.stored)
      (hprocs : o.world.procs = w.procs) (hsignals : o.signals = [t.pid]) (hremoved : o.removed = [])
  | removed (hidle : t.pid = 0) (hstored : o.world.stored = Function.update w.stored p none)
      (hprocs : o.world.procs = w.procs) (hsignals : o.signals = []) (hremoved : o.removed = [p])

/-- The memory that a request leaves: consistent, with the flag as it was. -/
structure HydraKept (w w' : HydraWorld) : Prop where
  indexed : w'.Indexed
  next_le : w.next ≤ w'.next
  flag : w'.hasChildExit = w.hasChildExit

theorem HydraWorld.Indexed.kept {w : HydraWorld} (h : w.Indexed) : HydraKept w w := ⟨h, le_rfl, rfl⟩

/-- What a key request can do: fail without any effect, or act on the task with its name. -/
inductive KeyRequest (env : HydraEnv) (w : HydraWorld) (input : Text) (o : HydraOutcome) : Prop
  | noMemory (halloc : env.alloc = false) (ho : o = .fail w .internalFail)
  | invalid (halloc : env.alloc = true) (hkey : getKeyHydraParam input = none)
      (ho : o = .fail w .paramInvalid)
  | notFound (key : ListHydraTask) (halloc : env.alloc = true)
      (hkey : getKeyHydraParam input = some key)
      (hnone : ∀ p t, w.stored p = some t → t.taskName ≠ key.taskName)
      (ho : o = .fail w .taskNotFound)
  | found (key : ListHydraTask) (p : Ptr) (t : ListHydraTask) (halloc : env.alloc = true)
      (hkey : getKeyHydraParam input = some key) (hp : w.stored p = some t)
      (hname : t.taskName = key.taskName) (hkept : HydraKept w o.world)
      (heffect : KeyEffect env w p t o)

namespace HydraWorld.Indexed

variable {w : HydraWorld}

/-- A key request is described by what its body does for the stored task that was found. -/
theorem withKeyHydra (h : w.Indexed) (env : HydraEnv) (input : Text)
    {body : Ptr → HydraOutcome}
    (hbody : ∀ p t, w.stored p = some t → HydraKept w (body p).world ∧ KeyEffect env w p t (body p)) :
    KeyRequest env w input (withKeyHydra env w input body) := by
  unfold OpenvasTool.withKeyHydra
  split
  · rename_i halloc
    split
    · rename_i hkey
      exact .invalid halloc hkey rfl
    · rename_i key hkey
      split
      · rename_i hfind
        exact .notFound key halloc hkey (h.findHydraTask_eq_none.mp hfind) rfl
      · rename_i p hfind
        obtain ⟨t, hp, hname⟩ := h.findHydraTask_eq_some.mp hfind
        obtain ⟨hkept, heffect⟩ := hbody p t hp
        exact .found key p t halloc hkey hp hname hkept heffect
  · rename_i halloc
    exact .noMemory (by simpa using halloc) rfl

theorem daemonStartHydra (h : w.Indexed) (env : HydraEnv) (input : Text) :
    KeyRequest env w input (daemonStartHydra env w input) := by
  refine h.withKeyHydra env input fun p t hp => ?_
  have htask := task_of_stored hp
  rw [htask]
  split
  · exact ⟨h.kept, .nothing rfl rfl rfl rfl⟩
  · rename_i hidle
    have hidle : t.pid = 0 := by simpa using hidle
    split
    · exact ⟨h.kept, .nothing rfl rfl rfl rfl⟩
    · rename_i w' hrun
      obtain ⟨paths, _, hrun⟩ := Option.bind_eq_some_iff.mp hrun
      split at hrun
      · obtain ⟨r, hfork, rfl⟩ := Option.map_eq_some_iff.mp hrun
        rw [htask]
        have hset := h.setTask { t with pid := r.1 } hp rfl
        exact ⟨⟨hset.1.congr rfl rfl rfl, le_rfl, rfl⟩, .started r hidle hfork hset.2 rfl rfl rfl⟩
      · simp at hrun

theorem daemonStopHydra (h : w.Indexed) (env : HydraEnv) (input : Text) :
    KeyRequest env w input (daemonStopHydra env w input) := by
  refine h.withKeyHydra env input fun p t hp => ?_
  have htask := task_of_stored hp
  rw [htask]
  split
  · exact ⟨h.kept, .nothing rfl rfl rfl rfl⟩
  · rename_i hbusy
    have hset := h.setTask { t with pid := 0 } hp rfl
    have hsignals : ∀ {r : Bool × List ℕ}, stopProc env t.pid = r → r.2 = [] ∧ r.1 = false ∨
        r.2 = [t.pid] := by
      rintro r rfl
      unfold stopProc
      rw [if_neg hbusy]
      split
      · exact Or.inr rfl
      · exact Or.inl ⟨rfl, rfl⟩
    split
    · rename_i signals hstop
      rcases hsignals hstop with ⟨_, hfalse⟩ | hone
      · simp at hfalse
      · exact ⟨⟨hset.1, le_rfl, rfl⟩, .stopped hbusy hset.2 rfl hone rfl⟩
    · rename_i signals hstop
      rcases hsignals hstop with ⟨hnil, _⟩ | hone
      · exact ⟨h.kept, .nothing rfl rfl hnil rfl⟩
      · exact ⟨h.kept, .signalled hbusy rfl rfl hone rfl⟩

/-- What `delHydraRelationFiles` does to a stored task: it is unlinked, or it stays linked. -/
theorem delHydraRelationFiles (h : w.Indexed) (env : HydraEnv) {p : Ptr} {t : ListHydraTask}
    (hp : w.stored p = some t) {r : Bool × HydraWorld} (hr : delHydraRelationFiles env w p = r) :
    HydraKept w r.2 ∧ r.2.procs = w.procs ∧
      r.2.stored = if r.1 then Function.update w.stored p none else w.stored := by
  obtain ⟨hmem, hheap⟩ := stored_eq_some.mp hp
  obtain ⟨d, hdel, hidx, hstored, hdheap, hnext, hprocs, hflag, _, hroom⟩ := h.delHydraTask hp
  unfold OpenvasTool.delHydraRelationFiles at hr
  rw [prepareHydraPaths_eq, hdel] at hr
  dsimp only at hr
  split at hr
  · subst hr
    exact ⟨⟨hidx.congr rfl rfl rfl, hnext.ge, hflag⟩, hprocs, hstored⟩
  · have hgone : d.stored p = none := by rw [hstored, Function.update_self]
    obtain ⟨w', hadd, hidx', hstored', hheap', hnext', hprocs', hflag'⟩ :=
      hidx.relink env.realloc (hdheap ▸ hheap) hgone (fun q u hq hname => by
        rw [hstored] at hq
        by_cases hqp : q = p
        · simp [hqp] at hq
        · rw [Function.update_of_ne hqp] at hq
          exact hqp (h.name_injective hq hp hname)) hroom
    rw [hadd, Option.getD_some] at hr
    subst hr
    refine ⟨⟨hidx'.congr rfl rfl rfl, (hnext'.trans hnext).ge, hflag'.trans hflag⟩,
      hprocs'.trans hprocs, ?_⟩
    refine hstored'.trans ?_
    rw [if_neg Bool.false_ne_true, hstored, Function.update_idem, ← hp, Function.update_eq_self]

theorem daemonDeleteHydra (h : w.Indexed) (env : HydraEnv) (input : Text) :
    KeyRequest env w input (daemonDeleteHydra env w input) := by
  refine h.withKeyHydra env input fun p t hp => ?_
  rw [task_of_stored hp]
  split
  · exact ⟨h.kept, .nothing rfl rfl rfl rfl⟩
  · rename_i hidle
    have hidle : t.pid = 0 := by simpa using hidle
    split
    · rename_i w' hdel
      obtain ⟨hkept, hprocs, hstored⟩ := h.delHydraRelationFiles env hp hdel
      rw [if_pos rfl] at hstored
      have hgone : w'.stored p = none := by rw [hstored, Function.update_self]
      obtain ⟨hfree, hfreed⟩ := hkept.indexed.freeHydraTask hgone
      exact ⟨⟨hfree, hkept.next_le, hkept.flag⟩, .removed hidle (hfreed.trans hstored) hprocs rfl rfl⟩
    · rename_i w' hdel
      obtain ⟨hkept, hprocs, hstored⟩ := h.delHydraRelationFiles env hp hdel
      exact ⟨hkept, .nothing hstored hprocs rfl rfl⟩

end HydraWorld.Indexed

/-- What holds of every failure and of the body holds of a key request. -/
theorem withKeyHydra_of {P : HydraOutcome → Prop} {env : HydraEnv} {w : HydraWorld} {input : Text}
    {body : Ptr → HydraOutcome} (hfail : ∀ code, P (.fail w code)) (hbody : ∀ p, P (body p)) :
    P (withKeyHydra env w input body) := by
  unfold withKeyHydra
  split
  · split
    · exact hfail _
    · split
      · exact hfail _
      · exact hbody _
  · exact hfail _

/-- A stop request neither forks nor waits nor removes a directory. -/
theorem daemonStopHydra_frame (env : HydraEnv) (w : HydraWorld) (input : Text) :
    (daemonStopHydra env w input).world.procs = w.procs ∧
      (daemonStopHydra env w input).removed = [] := by
  refine withKeyHydra_of (P := fun o => o.world.procs = w.procs ∧ o.removed = [])
    (fun code => ⟨rfl, rfl⟩) fun p => ?_
  split
  · exact ⟨rfl, rfl⟩
  · split <;> exact ⟨rfl, rfl⟩

/-! ### Creation -/

/-- What a create request does: nothing to the stored tasks, or one new task without a process. -/
inductive CreateEffect (w : HydraWorld) (o : HydraOutcome) : Prop
  | nothing (hstored : o.world.stored = w.stored)
  | added (t : ListHydraTask) (hpid : t.pid = 0)
      (hstored : o.world.stored = Function.update w.stored w.next (some t))
      (hnext : o.world.next = w.next + 1)

/-- A new hydra task has no process. -/
theorem getCreateHydraParam_pid {env : HydraEnv} {input : Text} {t : ListHydraTask}
    (h : getCreateHydraParam env input = some t) : t.pid = 0 := by
  unfold getCreateHydraParam at h
  iterate 10 obtain ⟨⟨_, _⟩, _, h⟩ := Option.bind_eq_some_iff.mp h
  dsimp only at h
  split at h
  · obtain ⟨_, _, h⟩ := Option.bind_eq_some_iff.mp h
    obtain rfl := Option.some.inj h
    rfl
  · simp at h

namespace HydraWorld.Indexed

variable {w : HydraWorld}

/-- What `writeHydraRelationFile` does to a new task: it is linked, or it is in no index. -/
theorem writeHydraRelationFile (h : w.Indexed) (env : HydraEnv) {t : ListHydraTask}
    (hname : ∀ p u, w.stored p = some u → u.taskName ≠ t.taskName) {r : Bool × HydraWorld}
    (hr : writeHydraRelationFile env (w.newTask t).2 w.next = r) :
    r.2.Indexed ∧ r.2.next = w.next + 1 ∧ r.2.procs = w.procs ∧
      r.2.hasChildExit = w.hasChildExit ∧
      r.2.stored = if r.1 then Function.update w.stored w.next (some t) else w.stored := by
  unfold OpenvasTool.writeHydraRelationFile at hr
  rw [prepareHydraPaths_eq] at hr
  dsimp only at hr
  cases hadd : (w.newTask t).2.addHydraTask env.realloc w.next with
  | none =>
    -- the task is only allocated
    rw [hadd] at hr
    subst hr
    have hheap : ∀ q ∈ w.data.nameset.data, (w.newTask t).2.heap q = w.heap q := by
      intro q hq
      simp [HydraWorld.newTask, HydraWorld.setTask, (h.lt_next hq).ne]
    refine ⟨⟨h.items.congr fun x hx y hy => ?_, fun q hq => ?_, fun q hq => ?_⟩, rfl, rfl, rfl, ?_⟩
    · simp only [HydraWorld.task, hheap x hx, hheap y hy]
    · rw [hheap q hq]
      exact h.allocated q hq
    · have hlt : w.next < q := hq
      simpa [HydraWorld.newTask, HydraWorld.setTask, hlt.ne'] using h.fresh q hlt.le
    · funext q
      by_cases hq : q ∈ w.data.nameset.data
      · have hdata : (w.newTask t).2.data = w.data := rfl
        simp only [stored, hdata, hq, if_true, hheap q hq, Bool.false_eq_true, if_false]
      · have hdata : (w.newTask t).2.data = w.data := rfl
        simp only [stored, hdata, hq, Bool.false_eq_true, if_false]
  | some added =>
    obtain ⟨hidx, hstored, hnext, _, hprocs, hflag, _⟩ := h.newTask_add hname hadd
    have hself : added.stored w.next = some t := by rw [hstored, Function.update_self]
    have hrollback : ∀ paths files, (rollbackHydra env added w.next paths files).Indexed ∧
        (rollbackHydra env added w.next paths files).next = w.next + 1 ∧
        (rollbackHydra env added w.next paths files).procs = w.procs ∧
        (rollbackHydra env added w.next paths files).hasChildExit = w.hasChildExit ∧
        (rollbackHydra env added w.next paths files).stored = w.stored := by
      intro paths files
      obtain ⟨d, hdel, hdidx, hdstored, _, hdnext, hdprocs, hdflag, _, _⟩ := hidx.delHydraTask hself
      unfold rollbackHydra
      rw [hdel, Option.getD_some]
      refine ⟨hdidx.congr rfl rfl rfl, hdnext.trans hnext, hdprocs.trans hprocs,
        hdflag.trans hflag, hdstored.trans ?_⟩
      rw [hstored, Function.update_idem, ← h.stored_next, Function.update_eq_self]
    have hdone : ∀ files, ({ added with files := files } : HydraWorld).Indexed :=
      fun files => hidx.congr rfl rfl rfl
    rw [hadd] at hr
    dsimp only at hr
    split at hr <;> [split at hr <;> [split at hr; skip]; skip]
    all_goals subst hr
    · exact ⟨hdone _, hnext, hprocs, hflag, hstored⟩
    all_goals exact hrollback _ _

theorem daemonCreateHydra (h : w.Indexed) (env : HydraEnv) (input : Text) :
    HydraKept w (daemonCreateHydra env w input).world ∧
      (daemonCreateHydra env w input).world.procs = w.procs ∧
      (daemonCreateHydra env w input).signals = [] ∧
      (daemonCreateHydra env w input).removed = [] ∧
      CreateEffect w (daemonCreateHydra env w input) := by
  have hfail : ∀ code, HydraKept w (HydraOutcome.fail w code).world ∧
      (HydraOutcome.fail w code).world.procs = w.procs ∧
      (HydraOutcome.fail w code).signals = [] ∧ (HydraOutcome.fail w code).removed = [] ∧
      CreateEffect w (.fail w code) := fun code => ⟨h.kept, rfl, rfl, rfl, .nothing rfl⟩
  unfold OpenvasTool.daemonCreateHydra
  split
  swap
  · exact hfail _
  split
  · exact hfail _
  rename_i task htask
  split
  · exact hfail _
  rename_i hfind
  have hname : ∀ p u, w.stored p = some u → u.taskName ≠ (stampHydra env task).taskName :=
    h.findHydraTask_eq_none.mp hfind
  have hpid : task.pid = 0 := getCreateHydraParam_pid htask
  dsimp only
  split
  · rename_i w' hwrite
    obtain ⟨hidx, hnext, hprocs, hflag, hstored⟩ := h.writeHydraRelationFile env hname hwrite
    rw [if_pos rfl] at hstored
    exact ⟨⟨hidx, hnext ▸ Nat.le_succ _, hflag⟩, hprocs, rfl, rfl,
      .added (stampHydra env task) hpid hstored hnext⟩
  · rename_i w' hwrite
    obtain ⟨hidx, hnext, hprocs, hflag, hstored⟩ := h.writeHydraRelationFile env hname hwrite
    rw [if_neg Bool.false_ne_true] at hstored
    have hgone : w'.stored w.next = none := by rw [hstored, h.stored_next]
    obtain ⟨hfree, hfreed⟩ := hidx.freeHydraTask hgone
    exact ⟨⟨hfree, (Nat.le_succ _).trans hnext.ge, hflag⟩, hprocs, rfl, rfl,
      .nothing (hfreed.trans hstored)⟩

end HydraWorld.Indexed

end OpenvasTool
