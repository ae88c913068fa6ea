import OpenvasTool.Gvm.Consistency
import OpenvasTool.Hydra.Pids

/-!
# Which task a request acts on

A request to start, stop or delete a task carries the name and the identifiers of
the task. The handlers check the form of the identifiers and look the task up by
its name alone: the request acts on the stored task with this name, whatever its
identifiers are, and on no other task.
-/

namespace OpenvasTool

open Posix Support

/-! ### GVM tasks -/

/-- The command is about an object of this task. -/
def GvmRequest.IsFor (t : ListGvmTask) : GvmRequest → Prop
  | .startTask id => id = t.taskInfo.taskId.text
  | .stopTask id => id = t.taskInfo.taskId.text
  | .deleteTask id => id = t.taskInfo.taskId.text
  | .deleteTarget id => id = t.targetInfo.targetId.text
  | .deleteSchedule id => id = t.taskInfo.scheduleId.text
  | .deleteConfig id => id = t.taskInfo.configId.text
  | _ => False

/-- The request acts on the stored task with this name: every other task stays as it is, no task is
added, the commands are about the named task, and without such a task nothing happens. -/
structure ActsByName (w : World) (name : CStr maxNameSize) (o : Outcome) : Prop where
  others : ∀ p t, w.stored p = some t → t.taskInfo.taskName ≠ name → o.world.stored p = some t
  no_new : ∀ p, w.stored p = none → o.world.stored p = none
  sent : ∀ req ∈ o.sent, ∃ p t, w.stored p = some t ∧ t.taskInfo.taskName = name ∧ req.IsFor t
  absent : (∀ p t, w.stored p = some t → t.taskInfo.taskName ≠ name) →
    o.world = w ∧ o.sent = [] ∧
      o.code = if w.data.isGvmConnOk then .taskNotFound else .gvmdConn

section Commands

variable (env : Env) (t : ListGvmTask)

theorem mem_sent_uuidCommand {uuid : Text} {req req' : GvmRequest}
    (h : req' ∈ (uuidCommand env uuid req).sent) : req' = req := by
  unfold uuidCommand at h
  split at h
  · exact List.mem_singleton.mp h
  · simp at h

theorem isFor_gvmStartTask : ∀ req ∈ (gvmStartTask env t.taskInfo.taskId.text).sent, req.IsFor t := by
  intro req h
  rw [gvmStartTask, Sent.andThen_sent, Sent.pure_sent, List.append_nil] at h
  rw [mem_sent_uuidCommand env h]
  rfl

theorem isFor_gvmStopTask : ∀ req ∈ (gvmStopTask env t.taskInfo.taskId.text).sent, req.IsFor t := by
  intro req h
  rw [mem_sent_uuidCommand env h]
  rfl

/-- A deletion command without a result of interest. -/
theorem mem_sent_delete {uuid : Text} {req req' : GvmRequest}
    (h : req' ∈ ((uuidCommand env uuid req).andThen fun rsp => .pure rsp.isSome).sent) :
    req' = req := by
  rw [Sent.andThen_sent, Sent.pure_sent, List.append_nil] at h
  exact mem_sent_uuidCommand env h

theorem isFor_gvmOptionDeleteTask :
    ∀ req ∈ (gvmOptionDeleteTask env t.taskInfo.taskId.text).sent, req.IsFor t := by
  intro req h
  unfold gvmOptionDeleteTask at h
  split at h
  · simp at h
  · rw [mem_sent_delete env h]
    rfl

/-- The objects of a deleted task are those of its record. -/
theorem isFor_deleteTaskObjects : ∀ req ∈ (deleteTaskObjects env t).sent, req.IsFor t := by
  have hconfig : (gvmOptionDeleteSchedule env t.taskInfo).val.2.configId = t.taskInfo.configId := by
    obtain ⟨created, heq⟩ := gvmOptionDeleteSchedule_val env t.taskInfo
    rw [heq]
  intro req h
  simp only [deleteTaskObjects, Sent.andThen_sent, Sent.pure_sent, List.append_nil,
    List.mem_append] at h
  rcases h with h | h | h
  · unfold gvmOptionDeleteTarget at h
    split at h
    · simp at h
    · rw [mem_sent_delete env h]
      rfl
  · unfold gvmOptionDeleteSchedule at h
    split at h
    · rw [Sent.andThen_sent, Sent.pure_sent, List.append_nil] at h
      rw [mem_sent_delete env h]
      rfl
    · simp at h
  · unfold gvmOptionDeleteConfig at h
    split at h
    · rw [Sent.andThen_sent, Sent.pure_sent, List.append_nil] at h
      rw [mem_sent_delete env h]
      exact congrArg CStr.text hconfig
    · simp at h

end Commands

namespace World.StoreConsistent

variable {w : World}

/-- A handler acts by name when its body only changes the task that was found. -/
theorem withKeyTask_byName (h : w.StoreConsistent) {env : Env} {input : Text} {key : ListGvmTask}
    {body : Ptr → Outcome} (halloc : env.alloc = true) (hkey : getKeyTaskParam input = some key)
    (hbody : ∀ p t, w.stored p = some t → t.taskInfo.taskName = key.taskInfo.taskName →
      withKeyTask env w input body = body p →
      (∀ q, q ≠ p → (body p).world.stored q = w.stored q) ∧ ∀ req ∈ (body p).sent, req.IsFor t) :
    ActsByName w key.taskInfo.taskName (withKeyTask env w input body) := by
  by_cases hconn : w.data.isGvmConnOk = true
  · cases hfind : w.findGvmTask key with
    | none =>
      have heq : withKeyTask env w input body = ⟨w, .taskNotFound, []⟩ := by
        simp only [withKeyTask, halloc, hkey, hconn, hfind, if_true]
      rw [heq]
      exact ⟨fun p t hp _ => hp, fun p hp => hp, fun req hreq => absurd hreq List.not_mem_nil,
        fun _ => ⟨rfl, rfl, by rw [if_pos hconn]⟩⟩
    | some p =>
      obtain ⟨hmem, hname⟩ := h.toIndexed.findGvmTask_eq_some.mp hfind
      have hp := h.toIndexed.stored_task hmem
      have heq : withKeyTask env w input body = body p := by
        simp only [withKeyTask, halloc, hkey, hconn, hfind, if_true]
      obtain ⟨hothers, hsent⟩ := hbody p _ hp hname heq
      rw [heq]
      refine ⟨fun q t hq hne => ?_, fun q hq => ?_, fun req hreq => ⟨p, _, hp, hname, hsent req hreq⟩,
        fun habsent => absurd hname (habsent p _ hp)⟩
      · have hqp : q ≠ p := by
          rintro rfl
          rw [hp, Option.some.injEq] at hq
          exact hne (hq ▸ hname)
        exact (hothers q hqp).trans hq
      · have hqp : q ≠ p := by
          rintro rfl
          simp [hp] at hq
        exact (hothers q hqp).trans hq
  · have heq : withKeyTask env w input body = ⟨w, .gvmdConn, []⟩ := by
      simp only [withKeyTask, halloc, hkey, hconn, if_true, Bool.false_eq_true, if_false]
    rw [heq]
    exact ⟨fun p t hp _ => hp, fun p hp => hp, fun req hreq => absurd hreq List.not_mem_nil,
      fun _ => ⟨rfl, rfl, by rw [if_neg hconn]⟩⟩

/-- A requeued task is the only one that changes. -/
theorem recheck_others (h : w.StoreConsistent) {p : Ptr} {t : ListGvmTask}
    (hp : w.stored p = some t) (env : Env) {q : Ptr} (hq : q ≠ p) :
    (w.recheck env p).stored q = w.stored q := by
  have hself : w.stored p = some (w.task p) := by rw [hp, task_of_stored hp]
  rw [(h.recheck hself env).2, Function.update_of_ne hq]

theorem daemonStartTask_byName (h : w.StoreConsistent) {env : Env} {input : Text}
    {key : ListGvmTask} (halloc : env.alloc = true) (hkey : getKeyTaskParam input = some key) :
    ActsByName w key.taskInfo.taskName (daemonStartTask env w input) := by
  refine h.withKeyTask_byName halloc hkey fun p t hp _ _ => ?_
  rw [task_of_stored hp]
  split
  · exact ⟨fun _ _ => rfl, by simp⟩
  · dsimp only
    split
    · exact ⟨fun _ _ => rfl, isFor_gvmStartTask env t⟩
    · exact ⟨fun q hq => h.recheck_others hp env hq, isFor_gvmStartTask env t⟩

theorem daemonStopTask_byName (h : w.StoreConsistent) {env : Env} {input : Text}
    {key : ListGvmTask} (halloc : env.alloc = true) (hkey : getKeyTaskParam input = some key) :
    ActsByName w key.taskInfo.taskName (daemonStopTask env w input) := by
  refine h.withKeyTask_byName halloc hkey fun p t hp _ _ => ?_
  rw [task_of_stored hp]
  split
  · dsimp only
    split
    · exact ⟨fun _ _ => rfl, isFor_gvmStopTask env t⟩
    · exact ⟨fun q hq => h.recheck_others hp env hq, isFor_gvmStopTask env t⟩
  · exact ⟨fun _ _ => rfl, by simp⟩

theorem daemonDeleteTask_byName (h : w.StoreConsistent) {env : Env} {input : Text}
    {key : ListGvmTask} (halloc : env.alloc = true) (hkey : getKeyTaskParam input = some key) :
    ActsByName w key.taskInfo.taskName (daemonDeleteTask env w input) := by
  refine h.withKeyTask_byName halloc hkey fun p t hp hname heq => ⟨fun q hq => ?_, ?_⟩
  · -- the task of the known effect is the one that was found
    rw [← heq]
    change (daemonDeleteTask env w input).world.stored q = w.stored q
    rcases h.daemonDeleteTask_cases env input with
      ⟨hworld, _⟩ | ⟨key', p', hkey', hp', hname', _, _, _, _, hstored⟩
    · rw [hworld]
    · obtain rfl : key = key' := Option.some.inj (hkey.symm.trans hkey')
      have hpp : p' = p := h.toIndexed.name_injective (stored_eq_some.mp hp').1
        (stored_eq_some.mp hp).1 (by rw [hname', task_of_stored hp, hname])
      subst hpp
      rcases hstored with hstored | hstored <;> rw [hstored, Function.update_of_ne hq]
  · rw [task_of_stored hp]
    intro req hreq
    split at hreq
    · simp at hreq
    · dsimp only at hreq
      split at hreq
      · have happend : req ∈ (gvmOptionDeleteTask env t.taskInfo.taskId.text).sent ++
            (deleteTaskObjects env t).sent := by
          split at hreq <;> exact hreq
        rcases List.mem_append.mp happend with hreq | hreq
        · exact isFor_gvmOptionDeleteTask env t req hreq
        · exact isFor_deleteTaskObjects env t req hreq
      · exact isFor_gvmOptionDeleteTask env t req hreq

end World.StoreConsistent

/-- The outcome of a start, stop or delete request for a GVM task. -/
def gvmKeyRequest (env : Env) (w : World) : Event → Option (Text × Outcome)
  | .startTask input => some (input, daemonStartTask env w input)
  | .stopTask input => some (input, daemonStopTask env w input)
  | .deleteTask input => some (input, daemonDeleteTask env w input)
  | _ => none

/-! ### Hydra tasks -/

/-- The request acts on the stored hydra task with this name: every other task stays as it is, no
task is added, signals and removed directories are those of the named task, and without such a task
nothing happens. -/
structure HydraActsByName (w : HydraWorld) (name : CStr maxNameSize) (o : HydraOutcome) : Prop where
  others : ∀ p t, w.stored p = some t → t.taskName ≠ name → o.world.stored p = some t
  no_new : ∀ p, w.stored p = none → o.world.stored p = none
  signals : ∀ pid ∈ o.signals, ∃ p t, w.stored p = some t ∧ t.taskName = name ∧ t.pid = pid
  removed : ∀ p ∈ o.removed, ∃ t, w.stored p = some t ∧ t.taskName = name
  absent : (∀ p t, w.stored p = some t → t.taskName ≠ name) → o = .fail w .taskNotFound

/-- What a request for the stored task at `p` does concerns this task only. -/
theorem KeyEffect.frame {env : HydraEnv} {w : HydraWorld} {p : Ptr} {t : ListHydraTask}
    {o : HydraOutcome} (h : KeyEffect env w p t o) :
    (∀ q, q ≠ p → o.world.stored q = w.stored q) ∧ (∀ pid ∈ o.signals, t.pid = pid) ∧
      ∀ q ∈ o.removed, q = p := by
  cases h with
  | nothing hstored _ hsignals hremoved =>
    exact ⟨fun q _ => by rw [hstored], by simp [hsignals], by simp [hremoved]⟩
  | started _ _ _ hstored _ hsignals hremoved =>
    exact ⟨fun q hq => by rw [hstored, Function.update_of_ne hq], by simp [hsignals],
      by simp [hremoved]⟩
  | stopped _ hstored _ hsignals hremoved =>
    exact ⟨fun q hq => by rw [hstored, Function.update_of_ne hq], by simp [hsignals],
      by simp [hremoved]⟩
  | signalled _ hstored _ hsignals hremoved =>
    exact ⟨fun q _ => by rw [hstored], by simp [hsignals], by simp [hremoved]⟩
  | removed _ hstored _ hsignals hremoved =>
    exact ⟨fun q hq => by rw [hstored, Function.update_of_ne hq], by simp [hsignals],
      by simp [hremoved]⟩

/-- A key request acts by name. -/
theorem KeyRequest.byName {env : HydraEnv} {w : HydraWorld} {input : Text} {o : HydraOutcome}
    (h : KeyRequest env w input o) {key : ListHydraTask} (halloc : env.alloc = true)
    (hkey : getKeyHydraParam input = some key) : HydraActsByName w key.taskName o := by
  cases h with
  | noMemory hfalse => simp [halloc] at hfalse
  | invalid _ hnone => simp [hkey] at hnone
  | notFound key' _ hkey' hnone ho =>
    obtain rfl := Option.some.inj (hkey.symm.trans hkey')
    subst ho
    exact ⟨fun p t hp _ => hp, fun p hp => hp, fun pid h => absurd h List.not_mem_nil,
      fun p h => absurd h List.not_mem_nil, fun _ => rfl⟩
  | found key' p t _ hkey' hp hname _ heffect =>
    obtain rfl := Option.some.inj (hkey.symm.trans hkey')
    obtain ⟨hothers, hsignals, hremoved⟩ := heffect.frame
    refine ⟨fun q u hq hne => ?_, fun q hq => ?_, fun pid h => ⟨p, t, hp, hname, hsignals pid h⟩,
      fun q h => ⟨t, hremoved q h ▸ hp, hname⟩, fun habsent => absurd hname (habsent p t hp)⟩
    · have hqp : q ≠ p := by
        rintro rfl
        rw [hp, Option.some.injEq] at hq
        exact hne (hq ▸ hname)
      exact (hothers q hqp).trans hq
    · have hqp : q ≠ p := by
        rintro rfl
        simp [hp] at hq
      exact (hothers q hqp).trans hq

/-- The outcome of a start, stop or delete request for a hydra task. -/
def hydraKeyRequest (env : HydraEnv) (w : HydraWorld) : HydraEvent → Option (Text × HydraOutcome)
  | .startHydra input => some (input, daemonStartHydra env w input)
  | .stopHydra input => some (input, daemonStopHydra env w input)
  | .deleteHydra input => some (input, daemonDeleteHydra env w input)
  | _ => none

theorem HydraWorld.Indexed.hydraKeyRequest {w : HydraWorld} (h : w.Indexed) {env : HydraEnv}
    {e : HydraEvent} {input : Text} {o : HydraOutcome}
    (ho : hydraKeyRequest env w e = some (input, o)) : KeyRequest env w input o := by
  cases e with
  | startHydra text =>
    obtain ⟨rfl, rfl⟩ := Prod.mk.inj (Option.some.inj ho)
    exact h.daemonStartHydra env _
  | stopHydra text =>
    obtain ⟨rfl, rfl⟩ := Prod.mk.inj (Option.some.inj ho)
    exact h.daemonStopHydra env _
  | deleteHydra text =>
    obtain ⟨rfl, rfl⟩ := Prod.mk.inj (Option.some.inj ho)
    exact h.daemonDeleteHydra env _
  | createHydra _ => simp [OpenvasTool.hydraKeyRequest] at ho
  | childExit _ => simp [OpenvasTool.hydraKeyRequest] at ho
  | otherExit => simp [OpenvasTool.hydraKeyRequest] at ho
  | monitor => simp [OpenvasTool.hydraKeyRequest] at ho
  | waitpid _ => simp [OpenvasTool.hydraKeyRequest] at ho
  | clear => simp [OpenvasTool.hydraKeyRequest] at ho

theorem World.StoreConsistent.gvmKeyRequest_byName {w : World} (h : w.StoreConsistent) {env : Env}
    {e : Event} {input : Text} {o : Outcome} (ho : gvmKeyRequest env w e = some (input, o))
    {key : ListGvmTask} (halloc : env.alloc = true) (hkey : getKeyTaskParam input = some key) :
    ActsByName w key.taskInfo.taskName o := by
  cases e with
  | startTask text =>
    obtain ⟨rfl, rfl⟩ := Prod.mk.inj (Option.some.inj ho)
    exact h.daemonStartTask_byName halloc hkey
  | stopTask text =>
    obtain ⟨rfl, rfl⟩ := Prod.mk.inj (Option.some.inj ho)
    exact h.daemonStopTask_byName halloc hkey
  | deleteTask text =>
    obtain ⟨rfl, rfl⟩ := Prod.mk.inj (Option.some.inj ho)
    exact h.daemonDeleteTask_byName halloc hkey
  | createTask _ => simp [gvmKeyRequest] at ho
  | runGvmChecks => simp [gvmKeyRequest] at ho
  | validateGvmConn => simp [gvmKeyRequest] at ho

/-! ### Both kinds of tasks -/

/-- **Requests act by name.** In every state that the daemon reaches, an accepted start, stop or
delete request acts on the stored task with its name only, whatever the identifiers are. -/
theorem actsByName_run {env0 : BootEnv} {files : Files} {w0 : World} {s0 : HydraState}
    (hnames : DistinctNames files) (hgvm : initDaemon env0 files = some w0)
    (hhydra : HydraStart s0) (is : List (Event × Env)) (js : List (HydraEvent × HydraEnv)) :
    (∀ env e input key o, gvmKeyRequest env (daemonRun w0 is) e = some (input, o) →
        env.alloc = true → getKeyTaskParam input = some key →
        ActsByName (daemonRun w0 is) key.taskInfo.taskName o) ∧
      ∀ env e input key o, hydraKeyRequest env (hydraRun s0 js).world e = some (input, o) →
        env.alloc = true → getKeyHydraParam input = some key →
        HydraActsByName (hydraRun s0 js).world key.taskName o := by
  constructor
  · intro env e input key o ho halloc hkey
    have h := (initDaemon_spec hnames hgvm).1.run is
    exact h.gvmKeyRequest_byName ho halloc hkey
  · intro env e input key o ho halloc hkey
    have h := invariant_run pidsOwned_hydraNext hhydra.pidsOwned js
    exact (h.indexed.hydraKeyRequest ho).byName halloc hkey

/-- The key of the task `scan` with the identifiers of another task. -/
def sampleStaleKey : Text :=
  "scan\x01".toList ++ sampleUuid '7' ++ "\x01".toList ++ sampleUuid '8' ++ "\x01".toList

/-- The key of the task `audit` with the identifier of another task. -/
def sampleStaleHydraKey : Text := "audit\x01".toList ++ sampleUuid '7' ++ "\x01".toList

/-- Requests with the identifiers of other tasks act on the tasks `scan` and `audit` alone. -/
theorem actsByName_run_sampleSteps : ∃ key hydraKey,
    getKeyTaskParam sampleStaleKey = some key ∧ getKeyHydraParam sampleStaleHydraKey = some hydraKey ∧
      ActsByName (daemonRun (emptyWorld fun _ => none) sampleSteps) key.taskInfo.taskName
        (daemonStartTask (.smooth sampleGvmd) (daemonRun (emptyWorld fun _ => none) sampleSteps)
          sampleStaleKey) ∧
      HydraActsByName (hydraRun sampleHydraState (sampleHydraSteps.take 2)).world hydraKey.taskName
        (daemonStopHydra (.smooth 0) (hydraRun sampleHydraState (sampleHydraSteps.take 2)).world
          sampleStaleHydraKey) := by
  have hkey : (getKeyTaskParam sampleStaleKey).isSome := by decide +kernel
  have hhydraKey : (getKeyHydraParam sampleStaleHydraKey).isSome := by decide +kernel
  obtain ⟨key, hkey⟩ := Option.isSome_iff_exists.mp hkey
  obtain ⟨hydraKey, hhydraKey⟩ := Option.isSome_iff_exists.mp hhydraKey
  have h := actsByName_run distinctNames_noFiles initDaemon_noFiles hydraStart_sampleHydraState
    sampleSteps (sampleHydraSteps.take 2)
  exact ⟨key, hydraKey, hkey, hhydraKey, h.1 _ (.startTask sampleStaleKey) _ _ _ rfl rfl hkey,
    h.2 _ (.stopHydra sampleStaleHydraKey) _ _ _ rfl rfl hhydraKey⟩

/-- A start request with the identifiers of no stored task starts the stored task with its name,
and a stop request signals the process of a task with another identifier. -/
theorem acts_on_other_identifiers :
    (∃ key t, getKeyTaskParam sampleStaleKey = some key ∧
      (daemonRun (emptyWorld fun _ => none) sampleSteps).stored 0 = some t ∧
      t.taskInfo.taskName = key.taskInfo.taskName ∧ t.taskInfo.taskId ≠ key.taskInfo.taskId ∧
      t.targetInfo.targetId ≠ key.targetInfo.targetId ∧
      GvmRequest.startTask t.taskInfo.taskId.text ∈ (daemonStartTask (.smooth sampleGvmd)
        (daemonRun (emptyWorld fun _ => none) sampleSteps) sampleStaleKey).sent) ∧
      ∃ key t, getKeyHydraParam sampleStaleHydraKey = some key ∧
        (hydraRun sampleHydraState (sampleHydraSteps.take 2)).world.stored 0 = some t ∧
        t.taskName = key.taskName ∧ t.taskId ≠ key.taskId ∧
        (daemonStopHydra (.smooth 0) (hydraRun sampleHydraState (sampleHydraSteps.take 2)).world
          sampleStaleHydraKey).signals = [t.pid] := by
  let w := daemonRun (emptyWorld fun _ => none) sampleSteps
  let s := hydraRun sampleHydraState (sampleHydraSteps.take 2)
  have hgvm : (getKeyTaskParam sampleStaleKey).any fun key => (w.stored 0).any fun t =>
      t.taskInfo.taskName = key.taskInfo.taskName ∧ t.taskInfo.taskId ≠ key.taskInfo.taskId ∧
        t.targetInfo.targetId ≠ key.targetInfo.targetId ∧
        GvmRequest.startTask t.taskInfo.taskId.text ∈
          (daemonStartTask (.smooth sampleGvmd) w sampleStaleKey).sent := by decide +kernel
  have hhydra : (getKeyHydraParam sampleStaleHydraKey).any fun key => (s.world.stored 0).any fun t =>
      t.taskName = key.taskName ∧ t.taskId ≠ key.taskId ∧
        (daemonStopHydra (.smooth 0) s.world sampleStaleHydraKey).signals = [t.pid] := by
    decide +kernel
  constructor
  · obtain ⟨key, hkey, h⟩ := (Option.any_eq_true _ _).mp hgvm
    obtain ⟨t, ht, h⟩ := (Option.any_eq_true _ _).mp h
    exact ⟨key, t, hkey, ht, of_decide_eq_true h⟩
  · obtain ⟨key, hkey, h⟩ := (Option.any_eq_true _ _).mp hhydra
    obtain ⟨t, ht, h⟩ := (Option.any_eq_true _ _).mp h
    exact ⟨key, t, hkey, ht, of_decide_eq_true h⟩

end OpenvasTool
