import OpenvasTool.Gvm.Files

/-!
# The creation of a task is atomic

A request to create a task makes up to four objects in gvmd, one after the other,
and then stores the task. The half-filled record of the task says at every point
which objects exist already, so that the common end of all failures can delete
exactly these.
-/

namespace OpenvasTool

open Posix Posix.Regex Support

/-! ### The objects of gvmd -/

/-- The kinds of objects that the daemon creates in gvmd. -/
inductive GvmKind where
  | task
  | target
  | schedule
  | config
  deriving DecidableEq, Repr

/-- The objects that exist in gvmd, by the kind and the identifier. -/
abbrev GvmObjects := GvmKind → Finset Text

/-- The kind of object that a command creates. -/
def GvmRequest.creates : GvmRequest → Option GvmKind
  | createTask _ _ _ _ => some .task
  | createTarget _ _ _ => some .target
  | createSchedule _ _ _ => some .schedule
  | createConfig _ _ _ => some .config
  | _ => none

/-- The object that a command deletes. -/
def GvmRequest.deletes : GvmRequest → Option (GvmKind × Text)
  | deleteTask id => some (.task, id)
  | deleteTarget id => some (.target, id)
  | deleteSchedule id => some (.schedule, id)
  | deleteConfig id => some (.config, id)
  | _ => none

/-- The command that deletes an object. -/
def GvmKind.delete : GvmKind → Text → GvmRequest
  | task => .deleteTask
  | target => .deleteTarget
  | schedule => .deleteSchedule
  | config => .deleteConfig

namespace GvmObjects

/-- One command: it has no effect, or it creates the object of which it returns the identifier, or
it deletes an object. -/
def exec (env : Env) (g : GvmObjects) (req : GvmRequest) : GvmObjects :=
  match req.creates, (createCommand env req).val with
  | some kind, some id => Function.update g kind (insert id.text (g kind))
  | _, _ =>
      match req.deletes with
      | some (kind, id) =>
          if (procGvmTask env req).val.isSome then Function.update g kind ((g kind).erase id) else g
      | none => g

/-- The commands of a step, one after the other. -/
def execAll (env : Env) (g : GvmObjects) (sent : List GvmRequest) : GvmObjects :=
  sent.foldl (exec env) g

variable (env : Env) (g : GvmObjects)

@[simp] theorem execAll_nil : execAll env g [] = g := rfl

@[simp] theorem execAll_cons (req : GvmRequest) (sent : List GvmRequest) :
    execAll env g (req :: sent) = execAll env (exec env g req) sent := rfl

@[simp] theorem execAll_append (sent sent' : List GvmRequest) :
    execAll env g (sent ++ sent') = execAll env (execAll env g sent) sent' :=
  List.foldl_append

variable {env g}

theorem exec_create {req : GvmRequest} {kind : GvmKind} {id : CStr maxUuidSize}
    (hkind : req.creates = some kind) (hid : (createCommand env req).val = some id) :
    exec env g req = Function.update g kind (insert id.text (g kind)) := by
  simp only [exec, hkind, hid]

/-- A command that creates an object deletes none. -/
theorem deletes_of_creates {req : GvmRequest} {kind : GvmKind} (h : req.creates = some kind) :
    req.deletes = none := by
  cases req <;> first | rfl | simp [GvmRequest.creates] at h

theorem exec_create_failed {req : GvmRequest} {kind : GvmKind} (hkind : req.creates = some kind)
    (hid : (createCommand env req).val = none) : exec env g req = g := by
  simp only [exec, hkind, hid, deletes_of_creates hkind]

@[simp] theorem creates_delete (kind : GvmKind) (id : Text) : (kind.delete id).creates = none := by
  cases kind <;> rfl

@[simp] theorem deletes_delete (kind : GvmKind) (id : Text) :
    (kind.delete id).deletes = some (kind, id) := by
  cases kind <;> rfl

theorem exec_delete {kind : GvmKind} {id : Text}
    (h : (procGvmTask env (kind.delete id)).val.isSome) :
    exec env g (kind.delete id) = Function.update g kind ((g kind).erase id) := by
  simp only [exec, creates_delete, deletes_delete, h, if_true]

end GvmObjects

/-- How gvmd answers: a command that creates an object either fails or returns a fresh identifier,
and the new object can be deleted again. -/
def GvmdAtomic (env : Env) (g : GvmObjects) : Prop :=
  ∀ (req : GvmRequest) (kind : GvmKind) (id : CStr maxUuidSize), req.creates = some kind →
    (createCommand env req).val = some id →
      id.text ∉ g kind ∧ (procGvmTask env (kind.delete id.text)).val.isSome

/-! ### What a half-filled task owns -/

/-- The objects that were created for a task, as its record says. -/
def ListGvmTask.owned (t : ListGvmTask) : GvmObjects
  | .task => if t.taskInfo.taskId.text = [] then ∅ else {t.taskInfo.taskId.text}
  | .target => if t.targetInfo.targetId.text = [] then ∅ else {t.targetInfo.targetId.text}
  | .schedule => if t.taskInfo.scheduleCreated then {t.taskInfo.scheduleId.text} else ∅
  | .config => if t.taskInfo.configCreated then {t.taskInfo.configId.text} else ∅

/-- gvmd has gained exactly these objects, and all of them can be deleted. -/
structure Gained (env : Env) (g g' owned : GvmObjects) : Prop where
  objects : ∀ kind, g' kind = g kind ∪ owned kind
  fresh : ∀ kind, ∀ id ∈ owned kind, id ∉ g kind
  uuid : ∀ kind, ∀ id ∈ owned kind, chkUuid id = true
  deletable : ∀ kind, ∀ id ∈ owned kind, (procGvmTask env (kind.delete id)).val.isSome

/-- The sent command deletes the only object of this kind, if there is one. -/
def DeletesOwned (owned : GvmObjects) (kind : GvmKind) (id : Text) (sent : List GvmRequest) :
    Prop :=
  owned kind = ∅ ∧ sent = [] ∨ owned kind = {id} ∧ sent = [kind.delete id]

theorem ne_nil_of_chkUuid {id : Text} (h : chkUuid id = true) : id ≠ [] :=
  (mem_uuidRegPattern (chkUuid_iff.mp h)).1

namespace Gained

variable {env : Env} {g g' owned : GvmObjects}

/-- Nothing was gained yet. -/
theorem start (env : Env) (g : GvmObjects) : Gained env g g fun _ => ∅ := by
  constructor
  · intro kind
    rw [Finset.union_empty]
  all_goals
    intro kind id hid
    exact absurd hid (Finset.notMem_empty id)

/-- A successful creation. -/
theorem create (hg : GvmdAtomic env g) (h : Gained env g g' owned) {req : GvmRequest}
    {kind : GvmKind} {id : CStr maxUuidSize} (hkind : req.creates = some kind)
    (hid : (createCommand env req).val = some id) (hempty : owned kind = ∅) :
    Gained env g (g'.exec env req) (Function.update owned kind {id.text}) := by
  obtain ⟨hfresh, hdelete⟩ := hg req kind id hkind hid
  have hcases : ∀ k, ∀ x ∈ Function.update owned kind {id.text} k,
      (k = kind ∧ x = id.text) ∨ x ∈ owned k := by
    intro k x hx
    by_cases hk : k = kind
    · subst hk
      rw [Function.update_self, Finset.mem_singleton] at hx
      exact Or.inl ⟨rfl, hx⟩
    · rw [Function.update_of_ne hk] at hx
      exact Or.inr hx
  constructor
  · intro k
    rw [GvmObjects.exec_create hkind hid]
    by_cases hk : k = kind
    · subst hk
      rw [Function.update_self, Function.update_self, h.objects, hempty, Finset.union_empty,
        Finset.insert_eq, Finset.union_comm]
    · rw [Function.update_of_ne hk, Function.update_of_ne hk, h.objects]
  · intro k x hx
    rcases hcases k x hx with ⟨rfl, rfl⟩ | hold
    · exact hfresh
    · exact h.fresh k x hold
  · intro k x hx
    rcases hcases k x hx with ⟨rfl, rfl⟩ | hold
    · exact chkUuid_createCommand hid
    · exact h.uuid k x hold
  · intro k x hx
    rcases hcases k x hx with ⟨rfl, rfl⟩ | hold
    · exact hdelete
    · exact h.deletable k x hold

/-- The deletion of the only object of a kind. -/
theorem delete (h : Gained env g g' owned) {kind : GvmKind} {id : Text}
    (hid : owned kind = {id}) :
    Gained env g (g'.exec env (kind.delete id)) (Function.update owned kind ∅) := by
  have hmem : id ∈ owned kind := by rw [hid]; exact Finset.mem_singleton_self id
  have hold : ∀ k, ∀ x ∈ Function.update owned kind ∅ k, x ∈ owned k := by
    intro k x hx
    by_cases hk : k = kind
    · subst hk
      rw [Function.update_self] at hx
      exact absurd hx (Finset.notMem_empty x)
    · rwa [Function.update_of_ne hk] at hx
  refine ⟨fun k => ?_, fun k x hx => h.fresh k x (hold k x hx),
    fun k x hx => h.uuid k x (hold k x hx), fun k x hx => h.deletable k x (hold k x hx)⟩
  rw [GvmObjects.exec_delete (h.deletable kind id hmem)]
  by_cases hk : k = kind
  · subst hk
    rw [Function.update_self, Function.update_self, h.objects, hid, Finset.union_empty]
    ext x
    rw [Finset.mem_erase, Finset.mem_union, Finset.mem_singleton]
    constructor
    · rintro ⟨hne, hx⟩
      exact hx.resolve_right hne
    · intro hx
      refine ⟨?_, Or.inl hx⟩
      rintro rfl
      exact h.fresh k x hmem hx
  · rw [Function.update_of_ne hk, Function.update_of_ne hk, h.objects]

/-- A part of the creation that sends at most one command. -/
theorem option_create (hg : GvmdAtomic env g) (h : Gained env g g' owned)
    {r : Sent (Option (CStr maxUuidSize))} {req : GvmRequest} {kind : GvmKind}
    (hr : r.val = none ∧ r.sent = [] ∨ r = createCommand env req)
    (hkind : req.creates = some kind) (hempty : owned kind = ∅) :
    (r.val = none → Gained env g (g'.execAll env r.sent) owned) ∧
      ∀ id, r.val = some id →
        Gained env g (g'.execAll env r.sent) (Function.update owned kind {id.text}) := by
  rcases hr with ⟨hnone, hsent⟩ | rfl
  · rw [hsent]
    refine ⟨fun _ => h, fun id hid => ?_⟩
    rw [hnone] at hid
    simp at hid
  · have hsent : (createCommand env req).sent = [req] := rfl
    rw [hsent, GvmObjects.execAll_cons, GvmObjects.execAll_nil]
    refine ⟨fun hnone => ?_, fun id hid => h.create hg hkind hid hempty⟩
    rwa [GvmObjects.exec_create_failed hkind hnone]

/-- A part of the clean-up that sends at most one command. -/
theorem option_delete (h : Gained env g g' owned) {kind : GvmKind} {id : Text}
    {sent : List GvmRequest} (hsent : DeletesOwned owned kind id sent) :
    Gained env g (g'.execAll env sent) (Function.update owned kind ∅) := by
  rcases hsent with ⟨hempty, rfl⟩ | ⟨hid, rfl⟩
  · rw [Function.update_eq_self_iff.mpr hempty.symm]
    exact h
  · exact h.delete hid

end Gained

/-! ### Creating the objects -/

theorem gvmCreateTarget_eq (env : Env) (name hosts portlist : Text) :
    ((gvmCreateTarget env name hosts portlist).val = none ∧
        (gvmCreateTarget env name hosts portlist).sent = []) ∨
      gvmCreateTarget env name hosts portlist =
        createCommand env (.createTarget name hosts portlist) := by
  unfold gvmCreateTarget
  split
  · exact Or.inr rfl
  · exact Or.inl ⟨rfl, rfl⟩

theorem gvmCreateTask_eq (env : Env) (name target config schedule : Text) :
    ((gvmCreateTask env name target config schedule).val = none ∧
        (gvmCreateTask env name target config schedule).sent = []) ∨
      gvmCreateTask env name target config schedule =
        createCommand env (.createTask name target config schedule) := by
  unfold gvmCreateTask
  split
  · exact Or.inr rfl
  · exact Or.inl ⟨rfl, rfl⟩

theorem gvmCreateSchedule_eq (env : Env) (name : Text) (type : ℤ) (firstRun list : Text) :
    ∃ rule, ((gvmCreateSchedule env name type firstRun list).val = none ∧
        (gvmCreateSchedule env name type firstRun list).sent = []) ∨
      gvmCreateSchedule env name type firstRun list =
        createCommand env (.createSchedule name firstRun rule) := by
  unfold gvmCreateSchedule
  split
  · rename_i rule _
    exact ⟨rule, Or.inr rfl⟩
  · exact ⟨[], Or.inl ⟨rfl, rfl⟩⟩

/-- The schedule of a task: none is needed, or its creation fails, or it is recorded. -/
theorem gvmOptionCreateSchedule_cases (env : Env) (info : GvmTaskInfo) :
    ∃ r : Sent (Option (CStr maxUuidSize)), ∃ req : GvmRequest, req.creates = some .schedule ∧
      (r.val = none ∧ r.sent = [] ∨ r = createCommand env req) ∧
      (gvmOptionCreateSchedule env info).sent = r.sent ∧
      (r.val = none ∧ (gvmOptionCreateSchedule env info).val =
          (decide (info.scheduleType = icalDateNone),
            { info with scheduleId := .empty, scheduleCreated := false }) ∨
        info.scheduleType ≠ icalDateNone ∧ ∃ id, r.val = some id ∧
          (gvmOptionCreateSchedule env info).val =
            (true, { info with scheduleId := id, scheduleCreated := true })) := by
  have hnone : ∃ req : GvmRequest, req.creates = some .schedule := ⟨.createSchedule [] [] [], rfl⟩
  obtain ⟨req, hreq⟩ := hnone
  unfold gvmOptionCreateSchedule
  dsimp only
  split
  · rename_i htype
    refine ⟨.pure none, req, hreq, Or.inl ⟨rfl, rfl⟩, rfl, Or.inl ⟨rfl, ?_⟩⟩
    rw [decide_eq_true htype]
    rfl
  · rename_i htype
    split
    · refine ⟨.pure none, req, hreq, Or.inl ⟨rfl, rfl⟩, rfl, Or.inl ⟨rfl, ?_⟩⟩
      rw [decide_eq_false htype]
      rfl
    · rename_i time _
      obtain ⟨rule, hr⟩ := gvmCreateSchedule_eq env info.taskName.text info.scheduleType time.text
        info.scheduleList.text
      refine ⟨_, _, rfl, hr, ?_, ?_⟩
      · rw [Sent.andThen_sent]
        split <;> exact List.append_nil _
      · rw [Sent.andThen_val]
        split
        · rename_i hval
          refine Or.inl ⟨hval, ?_⟩
          rw [decide_eq_false htype]
          rfl
        · rename_i id hval
          exact Or.inr ⟨htype, id, hval, rfl⟩

/-- The config of a task: a single group is the config, or its creation fails, or it is
recorded. -/
theorem gvmOptionCreateConfig_cases (env : Env) (info : GvmTaskInfo) :
    (isMultiUuid info.groupId.text = false ∧ gvmOptionCreateConfig env info =
        .pure (true, { info with configId := .copy info.groupId, configCreated := false })) ∨
      isMultiUuid info.groupId.text = true ∧ ∃ req : GvmRequest, req.creates = some .config ∧
        (gvmOptionCreateConfig env info).sent = (createCommand env req).sent ∧
        ((createCommand env req).val = none ∧
            (gvmOptionCreateConfig env info).val = (false, { info with configCreated := false }) ∨
          ∃ id, (createCommand env req).val = some id ∧ (gvmOptionCreateConfig env info).val =
            (true, { info with configId := id, configCreated := true })) := by
  unfold gvmOptionCreateConfig
  split
  · rename_i hmulti
    exact Or.inl ⟨by simpa using hmulti, rfl⟩
  · rename_i hmulti
    refine Or.inr ⟨by simpa using hmulti,
      .createConfig info.taskName.text info.groupName.text info.groupId.text, rfl, ?_, ?_⟩
    · rw [Sent.andThen_sent]
      split <;> exact List.append_nil _
    · rw [Sent.andThen_val]
      split
      · rename_i hval
        exact Or.inl ⟨hval, rfl⟩
      · rename_i id hval
        exact Or.inr ⟨id, hval, rfl⟩

/-- A task with all its objects, as a successful creation leaves it. -/
structure Complete (t : ListGvmTask) : Prop where
  taskId : t.taskInfo.taskId.text ≠ []
  targetId : t.targetInfo.targetId.text ≠ []
  scheduleCreated : t.taskInfo.scheduleCreated = decide (t.taskInfo.scheduleType ≠ icalDateNone)
  configCreated : t.taskInfo.configCreated = isMultiUuid t.taskInfo.groupId.text

/-! The record of a task with one more object. -/

theorem owned_target (t : ListGvmTask) {id : CStr maxUuidSize} (h : id.text ≠ []) :
    { t with targetInfo := { t.targetInfo with targetId := id } }.owned =
      Function.update t.owned .target {id.text} := by
  funext kind
  cases kind <;> simp [ListGvmTask.owned, h]

theorem owned_task (t : ListGvmTask) {id : CStr maxUuidSize} (h : id.text ≠ []) :
    { t with taskInfo := { t.taskInfo with taskId := id } }.owned =
      Function.update t.owned .task {id.text} := by
  funext kind
  cases kind <;> simp [ListGvmTask.owned, h]

theorem owned_schedule (t : ListGvmTask) (id : CStr maxUuidSize) (created : Bool) :
    { t with taskInfo := { t.taskInfo with scheduleId := id, scheduleCreated := created } }.owned =
      Function.update t.owned .schedule (if created then {id.text} else ∅) := by
  funext kind
  cases kind <;> simp [ListGvmTask.owned]

theorem owned_config (t : ListGvmTask) (id : CStr maxUuidSize) (created : Bool) :
    { t with taskInfo := { t.taskInfo with configId := id, configCreated := created } }.owned =
      Function.update t.owned .config (if created then {id.text} else ∅) := by
  funext kind
  cases kind <;> simp [ListGvmTask.owned]

/-- The creation of the schedule. -/
theorem gained_createSchedule {env : Env} {g g' : GvmObjects} (hg : GvmdAtomic env g)
    {t : ListGvmTask} (h : Gained env g g' t.owned) (hempty : t.owned .schedule = ∅) :
    Gained env g (g'.execAll env (gvmOptionCreateSchedule env t.taskInfo).sent)
        { t with taskInfo := (gvmOptionCreateSchedule env t.taskInfo).val.2 }.owned ∧
      (∀ kind, kind ≠ .schedule →
        { t with taskInfo := (gvmOptionCreateSchedule env t.taskInfo).val.2 }.owned kind =
          t.owned kind) ∧
      ((gvmOptionCreateSchedule env t.taskInfo).val.1 = true →
        (gvmOptionCreateSchedule env t.taskInfo).val.2.scheduleCreated =
          decide (t.taskInfo.scheduleType ≠ icalDateNone)) := by
  obtain ⟨r, req, hkind, hr, hsent, hval⟩ := gvmOptionCreateSchedule_cases env t.taskInfo
  obtain ⟨hfail, hdone⟩ := h.option_create hg hr hkind hempty
  rw [hsent]
  rcases hval with ⟨hnone, hval⟩ | ⟨htype, id, hid, hval⟩
  · rw [hval]
    have howned := owned_schedule t .empty false
    rw [if_neg (by simp), Function.update_eq_self_iff.mpr hempty.symm] at howned
    rw [howned]
    refine ⟨hfail hnone, fun _ _ => rfl, fun htype => ?_⟩
    simpa using htype
  · rw [hval]
    have howned := owned_schedule t id true
    rw [if_pos rfl] at howned
    rw [howned]
    refine ⟨hdone id hid, fun kind hne => Function.update_of_ne hne _ _, fun _ => ?_⟩
    exact (decide_eq_true htype).symm

/-- The creation of the config. -/
theorem gained_createConfig {env : Env} {g g' : GvmObjects} (hg : GvmdAtomic env g)
    {t : ListGvmTask} (h : Gained env g g' t.owned) (hempty : t.owned .config = ∅) :
    Gained env g (g'.execAll env (gvmOptionCreateConfig env t.taskInfo).sent)
        { t with taskInfo := (gvmOptionCreateConfig env t.taskInfo).val.2 }.owned ∧
      (∀ kind, kind ≠ .config →
        { t with taskInfo := (gvmOptionCreateConfig env t.taskInfo).val.2 }.owned kind =
          t.owned kind) ∧
      ((gvmOptionCreateConfig env t.taskInfo).val.1 = true →
        (gvmOptionCreateConfig env t.taskInfo).val.2.configCreated =
          isMultiUuid t.taskInfo.groupId.text) := by
  rcases gvmOptionCreateConfig_cases env t.taskInfo with
    ⟨hmulti, heq⟩ | ⟨hmulti, req, hkind, hsent, hval⟩
  · rw [heq]
    have howned := owned_config t (.copy t.taskInfo.groupId) false
    rw [if_neg (by simp), Function.update_eq_self_iff.mpr hempty.symm] at howned
    simp only [Sent.pure_val, Sent.pure_sent]
    rw [howned]
    exact ⟨h, fun _ _ => rfl, fun _ => hmulti.symm⟩
  obtain ⟨hfail, hdone⟩ := h.option_create hg (Or.inr rfl) hkind hempty
  rw [hsent]
  rcases hval with ⟨hnone, hval⟩ | ⟨id, hid, hval⟩
  · rw [hval]
    have howned := owned_config t t.taskInfo.configId false
    rw [if_neg (by simp), Function.update_eq_self_iff.mpr hempty.symm] at howned
    rw [howned]
    exact ⟨hfail hnone, fun _ _ => rfl, by simp⟩
  · rw [hval]
    have howned := owned_config t id true
    rw [if_pos rfl] at howned
    rw [howned]
    exact ⟨hdone id hid, fun kind hne => Function.update_of_ne hne _ _, fun _ => hmulti.symm⟩

theorem scheduleCreated_gvmOptionCreateConfig (env : Env) (info : GvmTaskInfo) :
    (gvmOptionCreateConfig env info).val.2.scheduleCreated = info.scheduleCreated := by
  rcases gvmOptionCreateConfig_cases env info with
    ⟨_, heq⟩ | ⟨_, _, _, _, ⟨_, hval⟩ | ⟨_, _, hval⟩⟩
  · rw [heq]
    rfl
  · rw [hval]
  · rw [hval]

/-- At the end of the creation, complete or not, gvmd has gained what the task owns. -/
theorem gained_createTaskObjects {env : Env} {g : GvmObjects} (hg : GvmdAtomic env g)
    {t : ListGvmTask} (hempty : t.owned = fun _ => ∅) :
    Gained env g (g.execAll env (createTaskObjects env t).sent)
        (createTaskObjects env t).val.2.owned ∧
      ((createTaskObjects env t).val.1 = true → Complete (createTaskObjects env t).val.2) := by
  have hstart : Gained env g g t.owned := hempty ▸ Gained.start env g
  unfold createTaskObjects
  rw [Sent.andThen_val, Sent.andThen_sent, GvmObjects.execAll_append]
  obtain ⟨hfail, hdone⟩ := hstart.option_create hg (gvmCreateTarget_eq env
    t.targetInfo.targetName.text t.targetInfo.hosts.text t.targetInfo.portlistId.text) rfl
    (congrFun hempty _)
  split
  · rename_i hval
    exact ⟨hfail hval, by simp⟩
  rename_i targetId hval
  have h1 := hdone _ hval
  have htarget : targetId.text ≠ [] :=
    ne_nil_of_chkUuid (h1.uuid .target _ (by simp))
  rw [← owned_target t htarget] at h1
  dsimp only
  set t1 := { t with targetInfo := { t.targetInfo with targetId := targetId } } with ht1
  have hkinds : ∀ kind, kind ≠ .target → t1.owned kind = ∅ := by
    intro kind hne
    rw [ht1, owned_target t htarget, Function.update_of_ne hne, hempty]
  rw [Sent.andThen_val, Sent.andThen_sent, GvmObjects.execAll_append]
  obtain ⟨h2, hkeep2, hschedule⟩ := gained_createSchedule hg h1 (hkinds .schedule (by simp))
  have htype : (gvmOptionCreateSchedule env t1.taskInfo).val.2.scheduleType =
      t1.taskInfo.scheduleType :=
    congrArg (fun u => u.taskInfo.scheduleType) (withoutObjects_createSchedule env t1)
  set t2 := { t1 with taskInfo := (gvmOptionCreateSchedule env t1.taskInfo).val.2 } with ht2
  split
  swap
  · exact ⟨h2, by simp⟩
  rename_i hok
  rw [Sent.andThen_val, Sent.andThen_sent, GvmObjects.execAll_append]
  obtain ⟨h3, hkeep3, hconfig⟩ := gained_createConfig hg h2
    ((hkeep2 .config (by simp)).trans (hkinds .config (by simp)))
  have hsame := withoutObjects_createConfig env t2
  have hflag : (gvmOptionCreateConfig env t2.taskInfo).val.2.scheduleCreated =
      t2.taskInfo.scheduleCreated := scheduleCreated_gvmOptionCreateConfig env t2.taskInfo
  have htype' : (gvmOptionCreateConfig env t2.taskInfo).val.2.scheduleType =
      t2.taskInfo.scheduleType := congrArg (fun u => u.taskInfo.scheduleType) hsame
  have hgroup : (gvmOptionCreateConfig env t2.taskInfo).val.2.groupId = t2.taskInfo.groupId :=
    congrArg (fun u => u.taskInfo.groupId) hsame
  set t3 := { t2 with taskInfo := (gvmOptionCreateConfig env t2.taskInfo).val.2 } with ht3
  split
  swap
  · exact ⟨h3, by simp⟩
  rename_i hok'
  rw [Sent.andThen_val, Sent.andThen_sent, GvmObjects.execAll_append]
  obtain ⟨hfail, hdone⟩ := h3.option_create hg (gvmCreateTask_eq env t3.taskInfo.taskName.text
    t3.targetInfo.targetId.text t3.taskInfo.configId.text t3.taskInfo.scheduleId.text) rfl
    (((hkeep3 .task (by simp)).trans (hkeep2 .task (by simp))).trans (hkinds .task (by simp)))
  split
  · rename_i hval
    exact ⟨hfail hval, by simp⟩
  rename_i taskId hval
  have h4 := hdone _ hval
  have htask : taskId.text ≠ [] := ne_nil_of_chkUuid (h4.uuid .task _ (by simp))
  rw [← owned_task t3 htask] at h4
  refine ⟨h4, fun _ => ⟨htask, htarget, ?_, ?_⟩⟩
  · show t3.taskInfo.scheduleCreated = decide (t3.taskInfo.scheduleType ≠ icalDateNone)
    rw [show t3.taskInfo.scheduleType = t1.taskInfo.scheduleType from htype'.trans htype]
    exact hflag.trans (hschedule hok)
  · show t3.taskInfo.configCreated = isMultiUuid t3.taskInfo.groupId.text
    rw [show t3.taskInfo.groupId = t2.taskInfo.groupId from hgroup]
    exact hconfig hok'

/-! ### Deleting them again -/

theorem sent_uuidCommand {env : Env} {uuid : Text} (h : chkUuid uuid = true) (req : GvmRequest) :
    (uuidCommand env uuid req).sent = [req] := by
  rw [uuidCommand, if_pos h]
  rfl

theorem DeletesOwned.update {owned : GvmObjects} {kind k : GvmKind} {id : Text}
    {sent : List GvmRequest} (h : DeletesOwned owned kind id sent) (hk : kind ≠ k) :
    DeletesOwned (Function.update owned k ∅) kind id sent := by
  unfold DeletesOwned
  rw [Function.update_of_ne hk]
  exact h

theorem DeletesOwned.mem {owned : GvmObjects} {kind : GvmKind} {id : Text}
    {sent : List GvmRequest} (h : DeletesOwned owned kind id sent) {req : GvmRequest}
    (hreq : req ∈ sent) {k : GvmKind} {x : Text} (hdel : req.deletes = some (k, x)) :
    x ∈ owned k := by
  rcases h with ⟨_, rfl⟩ | ⟨hid, rfl⟩
  · simp at hreq
  · obtain rfl := List.mem_singleton.mp hreq
    rw [GvmObjects.deletes_delete, Option.some.injEq, Prod.mk.injEq] at hdel
    obtain ⟨rfl, rfl⟩ := hdel
    rw [hid]
    exact Finset.mem_singleton_self id

section Clean

variable (env : Env) {t : ListGvmTask}
  (huuid : ∀ kind, ∀ id ∈ t.owned kind, chkUuid id = true)

include huuid

theorem deletesOwned_task : DeletesOwned t.owned .task t.taskInfo.taskId.text
    (gvmOptionDeleteTask env t.taskInfo.taskId.text).sent := by
  have huuid := huuid .task
  unfold gvmOptionDeleteTask
  by_cases hid : t.taskInfo.taskId.text = []
  · left
    simp [ListGvmTask.owned, hid]
  · right
    have howned : t.owned .task = {t.taskInfo.taskId.text} := by simp [ListGvmTask.owned, hid]
    rw [howned] at huuid
    rw [if_neg (by simpa using hid), Sent.andThen_sent,
      sent_uuidCommand (huuid _ (Finset.mem_singleton_self _))]
    exact ⟨howned, rfl⟩

theorem deletesOwned_target : DeletesOwned t.owned .target t.targetInfo.targetId.text
    (gvmOptionDeleteTarget env t.targetInfo.targetId.text).sent := by
  have huuid := huuid .target
  unfold gvmOptionDeleteTarget
  by_cases hid : t.targetInfo.targetId.text = []
  · left
    simp [ListGvmTask.owned, hid]
  · right
    have howned : t.owned .target = {t.targetInfo.targetId.text} := by
      simp [ListGvmTask.owned, hid]
    rw [howned] at huuid
    rw [if_neg (by simpa using hid), Sent.andThen_sent,
      sent_uuidCommand (huuid _ (Finset.mem_singleton_self _))]
    exact ⟨howned, rfl⟩

theorem deletesOwned_schedule : DeletesOwned t.owned .schedule t.taskInfo.scheduleId.text
    (gvmOptionDeleteSchedule env t.taskInfo).sent := by
  have huuid := huuid .schedule
  unfold gvmOptionDeleteSchedule
  split
  · rename_i hcreated
    right
    have howned : t.owned .schedule = {t.taskInfo.scheduleId.text} := by
      simp [ListGvmTask.owned, hcreated]
    rw [howned] at huuid
    rw [Sent.andThen_sent, gvmDeleteSchedule, Sent.andThen_sent,
      sent_uuidCommand (huuid _ (Finset.mem_singleton_self _))]
    exact ⟨howned, rfl⟩
  · rename_i hcreated
    left
    simp [ListGvmTask.owned, hcreated]

/-- The deletion of the schedule before does not touch the config of the record. -/
theorem deletesOwned_config (created : Bool) :
    DeletesOwned t.owned .config t.taskInfo.configId.text
      (gvmOptionDeleteConfig env { t.taskInfo with scheduleCreated := created }).sent := by
  have huuid := huuid .config
  unfold gvmOptionDeleteConfig
  split
  · rename_i hcreated
    have hcreated' : t.taskInfo.configCreated = true := hcreated
    right
    have howned : t.owned .config = {t.taskInfo.configId.text} := by
      simp [ListGvmTask.owned, hcreated']
    rw [howned] at huuid
    rw [Sent.andThen_sent, gvmDeleteConfig, Sent.andThen_sent,
      sent_uuidCommand (huuid _ (Finset.mem_singleton_self _))]
    exact ⟨howned, rfl⟩
  · rename_i hcreated
    have hcreated' : ¬ t.taskInfo.configCreated = true := hcreated
    left
    simp [ListGvmTask.owned, hcreated']

end Clean

theorem sent_abandonTask (env : Env) (t : ListGvmTask) : ∃ created,
    (abandonTask env t).sent = (gvmOptionDeleteTask env t.taskInfo.taskId.text).sent ++
      ((gvmOptionDeleteTarget env t.targetInfo.targetId.text).sent ++
        ((gvmOptionDeleteSchedule env t.taskInfo).sent ++
          (gvmOptionDeleteConfig env
            { t.taskInfo with scheduleCreated := created }).sent)) := by
  obtain ⟨created, hinfo⟩ := gvmOptionDeleteSchedule_val env t.taskInfo
  refine ⟨created, ?_⟩
  simp only [abandonTask, deleteTaskObjects, Sent.andThen_sent, Sent.pure_sent, hinfo,
    List.append_nil]

/-- The common end of all failures deletes exactly what was gained, and nothing else. -/
theorem execAll_abandonTask {env : Env} {g g' : GvmObjects} {t : ListGvmTask}
    (h : Gained env g g' t.owned) :
    g'.execAll env (abandonTask env t).sent = g ∧
      ∀ req ∈ (abandonTask env t).sent, ∀ kind id, req.deletes = some (kind, id) → id ∉ g kind := by
  obtain ⟨created, hsent⟩ := sent_abandonTask env t
  have htask := deletesOwned_task env h.uuid
  have htarget := deletesOwned_target env h.uuid
  have hschedule := deletesOwned_schedule env h.uuid
  have hconfig := deletesOwned_config env h.uuid created
  rw [hsent]
  constructor
  · have hend := (((h.option_delete htask).option_delete (htarget.update (by simp))).option_delete
      ((hschedule.update (by simp)).update (by simp))).option_delete
      (((hconfig.update (by simp)).update (by simp)).update (by simp))
    rw [GvmObjects.execAll_append, GvmObjects.execAll_append, GvmObjects.execAll_append]
    funext kind
    rw [hend.objects]
    cases kind <;> simp [Function.update]
  · intro req hreq kind id hdel
    refine h.fresh kind id ?_
    simp only [List.mem_append] at hreq
    rcases hreq with hreq | hreq | hreq | hreq
    · exact htask.mem hreq hdel
    · exact htarget.mem hreq hdel
    · exact hschedule.mem hreq hdel
    · exact hconfig.mem hreq hdel

/-! ### Storing the task -/

/-- The indexes hold the same tasks in the same places. -/
structure World.SameIndexes (w w' : World) : Prop where
  nameset : w'.data.nameset.data = w.data.nameset.data
  size : w'.data.nameset.size = w.data.nameset.size
  createque : w'.data.createque = w.data.createque
  runque : w'.data.runque = w.data.runque

/-- An insertion that was undone restores the indexes. -/
theorem sameIndexes_undo_add {w w' : World} (h : w.Indexed) {realloc : Bool} {p : Ptr}
    (hp : p ∉ w.data.nameset.data) (halloc : (w.heap p).isSome)
    (hname : ∀ q ∈ w.data.nameset.data,
      (w.task q).taskInfo.taskName ≠ (w.task p).taskInfo.taskName)
    (hw : w.addGvmTask realloc p = some w') :
    w.SameIndexes ((w'.delGvmTask (w'.task p)).getD w') := by
  obtain ⟨hidx, hmem⟩ := h.addGvmTask hp halloc hname hw
  rw [hidx.delGvmTask_eq ((hmem p).mpr (Or.inl rfl)), Option.getD_some]
  obtain ⟨s, hs, rfl⟩ := Option.map_eq_some_iff.mp hw
  obtain ⟨hvalid, hdata⟩ := h.nameset.addToSet hp hs
  have hsize := h.nameset.size_eq
  have hsize' := hvalid.size_eq
  have hqueue : p ∉ w.data.createque.items := fun hq => hp ((h.create_iff p).mp hq)
  rw [hdata, length_insertLast] at hsize'
  refine ⟨?_, ?_, ListQueue.delItem_pushBack hqueue, rfl⟩
  · simp only [World.unlink, hdata]
    exact erase_insertLast hp
  · simp only [World.unlink]
    omega

/-- When the task cannot be stored the indexes are those of before. -/
theorem sameIndexes_createTaskRelationFiles {w w' : World} (h : w.StoreConsistent) {p : Ptr}
    (hp : p ∉ w.data.nameset.data) (halloc : (w.heap p).isSome)
    (hname : ∀ q ∈ w.data.nameset.data,
      (w.task q).taskInfo.taskName ≠ (w.task p).taskInfo.taskName) {env : Env}
    (hfail : createTaskRelationFiles env w p = (false, w')) : w.SameIndexes w' := by
  unfold createTaskRelationFiles at hfail
  simp only [prepareGvmPaths_eq] at hfail
  split at hfail
  swap
  · obtain rfl := (Prod.mk.inj hfail).2
    exact ⟨rfl, rfl, rfl, rfl⟩
  split at hfail
  · obtain rfl := (Prod.mk.inj hfail).2
    exact ⟨rfl, rfl, rfl, rfl⟩
  rename_i added hadd
  split at hfail
  · simp at hfail
  · obtain rfl := (Prod.mk.inj hfail).2
    have hsame := sameIndexes_undo_add h.toIndexed hp halloc hname hadd
    exact ⟨hsame.nameset, hsame.size, hsame.createque, hsame.runque⟩

/-! ### The whole request -/

/-- The number of comma separated identifiers. -/
def groupCount (ids : Text) : ℕ := ids.count ',' + 1

/-- gvmd has gained exactly one object of this kind. -/
def GainsOne (g g' : GvmObjects) (kind : GvmKind) (id : Text) : Prop :=
  g' kind = insert id (g kind) ∧ id ∉ g kind

/-- What a successful request to create a task leaves. -/
structure Created (env : Env) (g g' : GvmObjects) (w w' : World) (t0 t : ListGvmTask) : Prop where
  request : t.withoutObjects = (stampTask env t0).withoutObjects
  target : GainsOne g g' .target t.targetInfo.targetId.text
  task : GainsOne g g' .task t.taskInfo.taskId.text
  schedule : t0.taskInfo.scheduleType ≠ icalDateNone →
    GainsOne g g' .schedule t.taskInfo.scheduleId.text
  noSchedule : t0.taskInfo.scheduleType = icalDateNone → g' .schedule = g .schedule
  config : 1 < groupCount t0.taskInfo.groupId.text → GainsOne g g' .config t.taskInfo.configId.text
  noConfig : groupCount t0.taskInfo.groupId.text = 1 → g' .config = g .config
  consistent : w'.StoreConsistent
  fresh : w.stored w.next = none
  stored : w'.stored = Function.update w.stored w.next (some t)
  taskFile : writeTaskRecords maxCacheSize (w'.data.createque.items.map w'.task) =
    w'.files gvmTaskFile

theorem getCreateTaskParam_spec {input : Text} {t : ListGvmTask}
    (h : getCreateTaskParam input = some t) : (t.owned = fun _ => ∅) ∧
      t.taskInfo.groupId.text ∈ (customMatchOrRepeat uuidRegPattern).lang := by
  simp only [getCreateTaskParam, Option.bind_eq_bind, Option.bind_eq_some_iff] at h
  obtain ⟨_, _, _, _, _, _, _, _, _, _, _, _, _, _, h⟩ := h
  split at h
  · rename_i hchk
    simp only [Bool.and_eq_true] at hchk
    obtain rfl := Option.some.inj h
    refine ⟨?_, (chkConfigInfo_iff.mp hchk.1.1.2).1⟩
    funext kind
    cases kind <;> simp [ListGvmTask.owned]
  · simp at h

/-- The objects of a complete task. -/
theorem Complete.owned {t : ListGvmTask} (h : Complete t) :
    t.owned .task = {t.taskInfo.taskId.text} ∧ t.owned .target = {t.targetInfo.targetId.text} := by
  simp [ListGvmTask.owned, h.taskId, h.targetId]

theorem Gained.gainsOne {env : Env} {g g' owned : GvmObjects} (h : Gained env g g' owned)
    {kind : GvmKind} {id : Text} (hid : owned kind = {id}) : GainsOne g g' kind id := by
  refine ⟨?_, h.fresh kind id (by rw [hid]; exact Finset.mem_singleton_self id)⟩
  rw [h.objects, hid, Finset.union_comm, Finset.insert_eq]

/-- What a failed request to create a task leaves. -/
structure Unchanged (g g' : GvmObjects) (w w' : World) : Prop where
  objects : g' = g
  indexes : w.SameIndexes w'
  stored : w'.stored = w.stored
  taskFile : w'.files gvmTaskFile = w.files gvmTaskFile

/-- No command of the step deletes an object that existed before it. -/
def SparesOld (g : GvmObjects) (sent : List GvmRequest) : Prop :=
  ∀ req ∈ sent, ∀ kind id, req.deletes = some (kind, id) → id ∉ g kind

/-- The commands of the creation delete nothing. -/
theorem deletes_createTaskObjects (env : Env) (t : ListGvmTask) :
    ∀ req ∈ (createTaskObjects env t).sent, req.deletes = none := by
  have hcreate : ∀ {r : Sent (Option (CStr maxUuidSize))} {req : GvmRequest} {kind : GvmKind},
      r.val = none ∧ r.sent = [] ∨ r = createCommand env req → req.creates = some kind →
        ∀ q ∈ r.sent, q.deletes = none := by
    rintro r req kind (⟨_, hsent⟩ | rfl) hkind q hq
    · simp [hsent] at hq
    · obtain rfl : q = req := List.mem_singleton.mp hq
      exact GvmObjects.deletes_of_creates hkind
  have hschedule : ∀ info, ∀ q ∈ (gvmOptionCreateSchedule env info).sent, q.deletes = none := by
    intro info q hq
    obtain ⟨r, req, hkind, hr, hsent, _⟩ := gvmOptionCreateSchedule_cases env info
    exact hcreate hr hkind q (hsent ▸ hq)
  have hconfig : ∀ info, ∀ q ∈ (gvmOptionCreateConfig env info).sent, q.deletes = none := by
    intro info q hq
    rcases gvmOptionCreateConfig_cases env info with ⟨_, heq⟩ | ⟨_, req, hkind, hsent, _⟩
    · simp [heq] at hq
    · exact hcreate (Or.inr rfl) hkind q (hsent ▸ hq)
  intro req hreq
  unfold createTaskObjects at hreq
  rw [Sent.andThen_sent, List.mem_append] at hreq
  rcases hreq with hreq | hreq
  · exact hcreate (gvmCreateTarget_eq env _ _ _) rfl req hreq
  split at hreq
  · simp at hreq
  rw [Sent.andThen_sent, List.mem_append] at hreq
  rcases hreq with hreq | hreq
  · exact hschedule _ req hreq
  split at hreq
  swap
  · simp at hreq
  rw [Sent.andThen_sent, List.mem_append] at hreq
  rcases hreq with hreq | hreq
  · exact hconfig _ req hreq
  split at hreq
  swap
  · simp at hreq
  rw [Sent.andThen_sent, List.mem_append] at hreq
  rcases hreq with hreq | hreq
  · exact hcreate (gvmCreateTask_eq env _ _ _ _) rfl req hreq
  split at hreq <;> simp at hreq

section Request

variable {env : Env} {g : GvmObjects} {w : World}

/-- A failure before anything was created. -/
theorem abandon_untouched {t : ListGvmTask} (hempty : t.owned = fun _ => ∅) :
    Unchanged g (g.execAll env (abandonTask env t).sent) w w ∧
      SparesOld g (abandonTask env t).sent := by
  have hstart : Gained env g g t.owned := hempty ▸ Gained.start env g
  obtain ⟨hobjects, hold⟩ := execAll_abandonTask hstart
  exact ⟨⟨hobjects, ⟨rfl, rfl, rfl, rfl⟩, rfl, rfl⟩, hold⟩

/-- A failure after some objects were created. -/
theorem abandon_gained {sent : List GvmRequest} {t : ListGvmTask}
    (h : Gained env g (g.execAll env sent) t.owned) (hsent : ∀ req ∈ sent, req.deletes = none) :
    g.execAll env (sent ++ (abandonTask env t).sent) = g ∧
      SparesOld g (sent ++ (abandonTask env t).sent) := by
  obtain ⟨hobjects, hold⟩ := execAll_abandonTask h
  refine ⟨by rw [GvmObjects.execAll_append, hobjects], fun req hreq kind id hdel => ?_⟩
  rcases List.mem_append.mp hreq with hreq | hreq
  · rw [hsent req hreq] at hdel
    simp at hdel
  · exact hold req hreq kind id hdel

end Request

/-- A complete creation, stored under its new address. -/
theorem created_of_complete {env : Env} {g : GvmObjects} {w w' : World} {t0 : ListGvmTask}
    (hgained : Gained env g (g.execAll env (createTaskObjects env t0).sent)
      (createTaskObjects env t0).val.2.owned)
    (hcomplete : Complete (createTaskObjects env t0).val.2)
    (hgroups : t0.taskInfo.groupId.text ∈ (customMatchOrRepeat uuidRegPattern).lang)
    (hcons : w'.StoreConsistent) (hfresh : w.stored w.next = none)
    (hstored : w'.stored = Function.update w.stored w.next
      (some (stampTask env (createTaskObjects env t0).val.2)))
    (hfile : writeTaskRecords maxCacheSize (w'.data.createque.items.map w'.task) =
      w'.files gvmTaskFile) :
    Created env g (g.execAll env (createTaskObjects env t0).sent) w w' t0
      (stampTask env (createTaskObjects env t0).val.2) := by
  have hsame := withoutObjects_createTaskObjects env t0
  have htype : (createTaskObjects env t0).val.2.taskInfo.scheduleType = t0.taskInfo.scheduleType :=
    congrArg (fun u => u.taskInfo.scheduleType) hsame
  have hids : (createTaskObjects env t0).val.2.taskInfo.groupId = t0.taskInfo.groupId :=
    congrArg (fun u => u.taskInfo.groupId) hsame
  obtain ⟨howned, howned'⟩ := hcomplete.owned
  have hschedule := hcomplete.scheduleCreated
  have hconfig := hcomplete.configCreated
  rw [htype] at hschedule
  rw [hids] at hconfig
  have hmulti := isMultiUuid_iff hgroups
  constructor
  · exact congrArg (stampTask env) hsame
  · exact hgained.gainsOne howned'
  · exact hgained.gainsOne howned
  · intro hne
    have hid : (createTaskObjects env t0).val.2.owned .schedule =
        {(createTaskObjects env t0).val.2.taskInfo.scheduleId.text} := by
      simp [ListGvmTask.owned, hschedule, hne]
    exact hgained.gainsOne hid
  · intro hnone
    rw [hgained.objects]
    simp [ListGvmTask.owned, hschedule, hnone]
  · intro hseveral
    have hcomma : ',' ∈ t0.taskInfo.groupId.text := by
      rw [← List.count_pos_iff]
      simp only [groupCount] at hseveral
      omega
    have hid : (createTaskObjects env t0).val.2.owned .config =
        {(createTaskObjects env t0).val.2.taskInfo.configId.text} := by
      simp [ListGvmTask.owned, hconfig, hmulti.mpr hcomma]
    exact hgained.gainsOne hid
  · intro hone
    have hcomma : ',' ∉ t0.taskInfo.groupId.text := by
      rw [← List.count_eq_zero]
      simp only [groupCount] at hone
      omega
    rw [hgained.objects]
    simp [ListGvmTask.owned, hconfig, Bool.eq_false_iff.mpr (mt hmulti.mp hcomma)]
  · exact hcons
  · exact hfresh
  · exact hstored
  · exact hfile

/-- **The creation of a task is atomic.** A request that fails leaves the objects of gvmd, the
indexes and the task file as they were; one that succeeds leaves exactly one new task with its
objects. No object that existed before is deleted. -/
theorem daemonCreateTask_atomic {w : World} (h : w.StoreConsistent) {env : Env} {g : GvmObjects}
    (hg : GvmdAtomic env g) (input : Text) :
    ((daemonCreateTask env w input).code ≠ .success →
        Unchanged g (g.execAll env (daemonCreateTask env w input).sent) w
          (daemonCreateTask env w input).world) ∧
      ((daemonCreateTask env w input).code = .success →
        ∃ t0 t, getCreateTaskParam input = some t0 ∧
          Created env g (g.execAll env (daemonCreateTask env w input).sent) w
            (daemonCreateTask env w input).world t0 t) ∧
      SparesOld g (daemonCreateTask env w input).sent := by
  have hcases := h.daemonCreateTask_cases env input
  unfold daemonCreateTask at hcases ⊢
  split
  swap
  · exact ⟨fun _ => ⟨rfl, ⟨rfl, rfl, rfl, rfl⟩, rfl, rfl⟩, by simp, by simp [SparesOld]⟩
  rename_i halloc
  rw [if_pos halloc] at hcases
  split
  · have hempty : ListGvmTask.owned {} = fun _ => ∅ := by
      funext kind
      cases kind <;> simp [ListGvmTask.owned]
    obtain ⟨hsame, hold⟩ := abandon_untouched hempty
    exact ⟨fun _ => hsame, by simp, hold⟩
  rename_i t0 ht0
  obtain ⟨hempty, hgroups⟩ := getCreateTaskParam_spec ht0
  simp only [ht0] at hcases
  split
  swap
  · obtain ⟨hsame, hold⟩ := abandon_untouched hempty
    exact ⟨fun _ => hsame, by simp, hold⟩
  rename_i hconn
  rw [if_pos hconn] at hcases
  split
  · obtain ⟨hsame, hold⟩ := abandon_untouched hempty
    exact ⟨fun _ => hsame, by simp, hold⟩
  rename_i hfind
  simp only [hfind] at hcases
  obtain ⟨hgained, hcomplete⟩ := gained_createTaskObjects hg hempty
  have hdeletes := deletes_createTaskObjects env t0
  dsimp only
  split
  swap
  · obtain ⟨hobjects, hold⟩ := abandon_gained hgained hdeletes
    exact ⟨fun _ => ⟨hobjects, ⟨rfl, rfl, rfl, rfl⟩, rfl, rfl⟩, by simp, hold⟩
  rename_i hok
  simp only [hok, if_true] at hcases
  have hname : (stampTask env (createTaskObjects env t0).val.2).taskInfo.taskName =
      t0.taskInfo.taskName :=
    congrArg (fun u => u.taskInfo.taskName) (withoutObjects_createTaskObjects env t0)
  have howned : (stampTask env (createTaskObjects env t0).val.2).owned =
      (createTaskObjects env t0).val.2.owned := by
    funext kind
    cases kind <;> rfl
  have hrel := relationFiles_createTaskRelationFiles
    (w.newTask (stampTask env (createTaskObjects env t0).val.2)).2
    (w.newTask (stampTask env (createTaskObjects env t0).val.2)).1 env
  split
  · rename_i w' hcreate
    rw [hcreate] at hcases hrel
    simp only [ne_eq, not_true_eq_false, and_false, false_or] at hcases
    obtain ⟨t0', t, heq, _, _, _, rfl, _, _, _, hcons, hstored⟩ := hcases
    obtain rfl := Option.some.inj heq
    have hnotin : w.next ∉ w.data.nameset.data := fun hmem => (h.lt_next hmem).ne rfl
    refine ⟨fun hne => absurd rfl hne, fun _ =>
      ⟨t0, stampTask env (createTaskObjects env t0).val.2, ht0, ?_⟩, fun req hreq kind id hdel => ?_⟩
    · exact created_of_complete hgained (hcomplete hok) hgroups hcons
        (h.toIndexed.stored_eq_none.mpr hnotin) hstored
        (hrel.taskFile.resolve_left fun hno => by simp at hno).2
    · rw [hdeletes req hreq] at hdel
      simp at hdel
  · rename_i w' hcreate
    rw [hcreate] at hcases hrel
    have hnames := h.toIndexed.findGvmTask_eq_none.mp hfind
    obtain ⟨hc, hp, hheap, hnames'⟩ :=
      h.newTask_linkable (t := stampTask env (createTaskObjects env t0).val.2) (by rwa [hname])
    have hsame := sameIndexes_createTaskRelationFiles hc hp hheap hnames' hcreate
    rw [← howned] at hgained
    obtain ⟨hobjects, hspares⟩ := abandon_gained hgained hdeletes
    rcases hcases with ⟨_, hstored, _⟩ | ⟨_, _, _, _, _, _, _, _, hcode, _⟩
    · refine ⟨fun _ => ⟨hobjects, ⟨hsame.nameset, hsame.size, hsame.createque, hsame.runque⟩,
        hstored, ?_⟩, by simp, hspares⟩
      exact (hrel.taskFile.resolve_right fun hno => by simp at hno).2
    · simp at hcode

/-- The daemon without tasks, connected to gvmd. -/
def sampleConnected : World :=
  (daemonStep (.smooth sampleGvmd) (emptyWorld fun _ => none) .validateGvmConn).world

theorem gvmdAtomic_sampleGvmd : GvmdAtomic (.smooth sampleGvmd) fun _ => ∅ := by
  intro req kind id _ _
  have hdelete : ∀ kind, (procGvmTask (.smooth sampleGvmd) (GvmKind.delete kind [])).val.isSome := by
    intro kind
    cases kind <;> decide +kernel
  refine ⟨Finset.notMem_empty _, ?_⟩
  have hkind := hdelete kind
  -- the answer does not depend on the identifier
  cases kind <;> exact hkind

/-- The creation of the sample task in an empty gvmd. -/
theorem daemonCreateTask_atomic_sampleCreate :
    let o := daemonCreateTask (.smooth sampleGvmd) sampleConnected sampleCreate
    ∃ t0 t, getCreateTaskParam sampleCreate = some t0 ∧
      Created (.smooth sampleGvmd) (fun _ => ∅)
        (GvmObjects.execAll (.smooth sampleGvmd) (fun _ => ∅) o.sent) sampleConnected o.world
        t0 t := by
  have hcode : (daemonCreateTask (.smooth sampleGvmd) sampleConnected sampleCreate).code =
      .success := by decide +kernel
  have hcons : sampleConnected.StoreConsistent :=
    ((initDaemon_spec distinctNames_noFiles initDaemon_noFiles).1.daemonStep_spec _ _).1
  exact (daemonCreateTask_atomic hcons gvmdAtomic_sampleGvmd sampleCreate).2.1 hcode

end OpenvasTool
