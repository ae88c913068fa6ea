import OpenvasTool.Gvm.Reports

/-!
# A started task is busy

The request to start a task does not change its cached state, so the task only
becomes busy when a background check adopts the new report. From then on every
request to start or to delete it is rejected until a poll has seen the report end.
-/

namespace OpenvasTool

open Posix Support

/-! ### Requests and observations -/

/-- The text of a request names the stored task at `p`. -/
def NamedBy (w : World) (p : Ptr) (input : Text) : Prop :=
  ∃ key t, getKeyTaskParam input = some key ∧ w.stored p = some t ∧
    t.taskInfo.taskName = key.taskInfo.taskName

/-- The event is a request to start or to delete the task at `p`. -/
def RequestFor (w : World) (p : Ptr) : Event → Prop
  | .startTask input => NamedBy w p input
  | .deleteTask input => NamedBy w p input
  | _ => False

/-- The step starts the task at `p`: it returns 0, and the new report is `r`. -/
def Started (p : Ptr) (r : CStr maxUuidSize) (w : World) (i : Event × Env) : Prop :=
  ∃ input, i.1 = .startTask input ∧ NamedBy w p input ∧
    (daemonStartTask i.2 w input).code = .success ∧
    (gvmStartTask i.2 (w.task p).taskInfo.taskId.text).val = some r

/-- The step is a check that reads a terminal status of the report `r` of the task at `p`. -/
def ObservedFinished (p : Ptr) (r : CStr maxUuidSize) (w : World) (i : Event × Env) : Prop :=
  ∃ t info, i.1 = .runGvmChecks ∧ dueTask i.2 w = some p ∧ w.stored p = some t ∧
    t.chkType = .chkReport ∧ t.reportInfo.curReportId = r ∧ reportAnswer i.2 t = some info ∧
    (info.status = .done ∨ info.status = .stop ∨ info.status = .interrupt)

/-- The step returns that the task is busy, and sends no command to gvmd. -/
def RejectedBusy (w : World) (i : Event × Env) : Prop :=
  (daemonStep i.2 w i.1).code = .taskIsBusy ∧ (daemonStep i.2 w i.1).sent = []

/-- The condition on a step after a start: a request to start or to delete the task is processed
when the new report was adopted or while an older one is still checked, with memory and a
connection, and a poll of the new report does not find it changed with the status `New`. -/
structure AfterAdoption (p : Ptr) (r : CStr maxUuidSize) (w : World) (i : Event × Env) : Prop where
  adopted : RequestFor w p i.1 →
    (w.task p).reportInfo.curReportId = r ∨ (w.task p).chkType ≠ .chkTask
  served : RequestFor w p i.1 → i.2.alloc = true ∧ w.data.isGvmConnOk = true
  polled : i.1 = .runGvmChecks → dueTask i.2 w = some p → ∀ t, w.stored p = some t →
    t.chkType = .chkReport → t.reportInfo.curReportId = r →
    ∀ info, reportAnswer i.2 t = some info → info.status = .ready →
      info.status = t.reportInfo.status ∧ info.progress = t.reportInfo.progress

/-- The started task is stored; once the new report is adopted it is polled. -/
def Pending (p : Ptr) (r : CStr maxUuidSize) (w : World) : Prop :=
  w.StoreConsistent ∧ ∃ t, w.stored p = some t ∧ t.chkType ≠ .chkDeleted ∧
    (t.reportInfo.curReportId = r → t.chkType = .chkReport)

/-! ### Handlers -/

/-- With memory and a connection the handlers find the task that the request names. -/
theorem withKeyTask_eq {w : World} (h : w.StoreConsistent) {env : Env} {p : Ptr} {input : Text}
    (hnamed : NamedBy w p input) (halloc : env.alloc = true) (hconn : w.data.isGvmConnOk = true)
    (body : Ptr → Outcome) : withKeyTask env w input body = body p := by
  obtain ⟨key, t, hkey, hp, hname⟩ := hnamed
  have hmem := (World.stored_eq_some.mp hp).1
  have hfind : w.findGvmTask key = some p :=
    h.toIndexed.findGvmTask_eq_some.mpr ⟨hmem, by rw [World.task_of_stored hp]; exact hname⟩
  unfold withKeyTask
  simp only [halloc, hkey, hconn, hfind, if_true]

/-- A busy task is neither started nor deleted. -/
theorem rejectedBusy_of_busy {w : World} (h : w.StoreConsistent) {p : Ptr} {i : Event × Env}
    (hreq : RequestFor w p i.1) (halloc : i.2.alloc = true) (hconn : w.data.isGvmConnOk = true)
    (hbusy : (w.task p).chkTaskBusy = true) : RejectedBusy w i := by
  obtain ⟨e, env⟩ := i
  unfold RejectedBusy
  cases e with
  | startTask input =>
    dsimp only [daemonStep]
    unfold daemonStartTask
    rw [withKeyTask_eq h hreq halloc hconn, if_pos hbusy]
    exact ⟨rfl, rfl⟩
  | deleteTask input =>
    dsimp only [daemonStep]
    unfold daemonDeleteTask
    rw [withKeyTask_eq h hreq halloc hconn, if_pos hbusy]
    exact ⟨rfl, rfl⟩
  | stopTask input => exact hreq.elim
  | createTask input => exact hreq.elim
  | runGvmChecks => exact hreq.elim
  | validateGvmConn => exact hreq.elim

theorem chkTaskBusy_of_ne {t : ListGvmTask} (h : t.chkType ≠ .chkTask) : t.chkTaskBusy = true := by
  simp [ListGvmTask.chkTaskBusy, h]

/-- Under the condition a request finds the started task busy. -/
theorem AfterAdoption.busy {p : Ptr} {r : CStr maxUuidSize} {w : World} {i : Event × Env}
    (h : AfterAdoption p r w i) (hreq : RequestFor w p i.1) {t : ListGvmTask}
    (hp : w.stored p = some t)
    (hreport : t.reportInfo.curReportId = r → t.chkType = .chkReport) : t.chkTaskBusy = true := by
  have hadopted := h.adopted hreq
  rw [World.task_of_stored hp] at hadopted
  refine chkTaskBusy_of_ne ?_
  rcases hadopted with hcur | hne
  · simp [hreport hcur]
  · exact hne

/-! ### From the start to the end of the report -/

/-- A successful start leaves a task that still waits for its new report. -/
theorem Started.pending {p : Ptr} {r : CStr maxUuidSize} {w : World} {i : Event × Env}
    (h : w.StoreConsistent) (hstart : Started p r w i)
    (hnew : (w.task p).reportInfo.curReportId ≠ r) : Pending p r (daemonNext w i) := by
  obtain ⟨e, env⟩ := i
  obtain ⟨input, rfl, ⟨key, t, hkey, hp, hname⟩, hcode, _⟩ := hstart
  rcases h.daemonStartTask_cases env input with
    ⟨_, hfail⟩ | ⟨key', q, _, hkey', hq, hname', hbusy, _, _, hworld⟩
  · exact absurd hcode hfail
  · obtain rfl := Option.some.inj (hkey.symm.trans hkey')
    have htask := World.task_of_stored hp
    obtain rfl : q = p := h.toIndexed.name_injective (World.stored_eq_some.mp hq).1
      (World.stored_eq_some.mp hp).1 (by rw [hname', htask, hname])
    obtain ⟨hcons, hstored⟩ := h.recheck hq env
    have hidle : (w.task q).chkType = .chkTask := by
      simp only [ListGvmTask.chkTaskBusy, Bool.or_eq_false_iff, bne_eq_false_iff_eq] at hbusy
      exact hbusy.2
    have hworld' : daemonNext w (.startTask input, env) = w.recheck env q := hworld
    rw [hworld']
    refine ⟨hcons, (w.task q).setTaskNextChkTime env.clkNext 0,
      by rw [hstored, Function.update_self], ?_, fun heq => absurd heq hnew⟩
    show (w.task q).chkType ≠ _
    simp [hidle]

/-- A check of the started task adopts the new report, polls it until it ends, or is about an
older report. -/
theorem Pending.taskStep {p : Ptr} {r : CStr maxUuidSize} {w w' : World} {i : Event × Env}
    {t t' : ListGvmTask} (hp : w.stored p = some t) (htype : t.chkType ≠ .chkDeleted)
    (hreport : t.reportInfo.curReportId = r → t.chkType = .chkReport)
    (hcond : AfterAdoption p r w i) (hend : ¬ ObservedFinished p r w i)
    (hdel : ¬ ∃ input, i.1 = .deleteTask input)
    (hstep : TaskStep i.2 (i.1 = .runGvmChecks ∧ dueTask i.2 w = some p)
      (∃ input, i.1 = .deleteTask input) w.files w'.files t t') :
    t'.chkType ≠ .chkDeleted ∧ (t'.reportInfo.curReportId = r → t'.chkType = .chkReport) := by
  cases hstep with
  | rescheduled time => exact ⟨htype, hreport⟩
  | marked a b hdeleting _ => exact absurd hdeleting hdel
  | queriedTask _ hquery _ =>
    rcases queryTask_cases i.2 t w.files with heq | ⟨info, _, _, _, heq⟩
    · rw [heq]
      exact ⟨htype, hreport⟩
    · rw [heq]
      exact ⟨by simp [ListGvmTask.setTaskNextChkTime, adoptReport], fun _ => rfl⟩
  | queriedReport hdue hquery _ =>
    rcases queryReport_cases i.2 t w.files with heq | ⟨info, hanswer, hchanged, heq⟩
    · rw [heq]
      exact ⟨htype, hreport⟩
    · rw [heq]
      rcases reportChkType_cases (polledTask t info) with ⟨_, hc⟩ | ⟨hdone, hc⟩ | ⟨_, _, hc⟩
      · rw [hc]
        exact ⟨htype, hreport⟩
      · rw [hc]
        refine ⟨by simp [ListGvmTask.setTaskNextChkTime, ListGvmTask.setTaskChkType], fun hcur => ?_⟩
        exact absurd ⟨t, info, hdue.1, hdue.2, hp, hquery, hcur, hanswer, chkTaskDone_iff.mp hdone⟩
          hend
      · rw [hc]
        refine ⟨by simp [ListGvmTask.setTaskNextChkTime, ListGvmTask.setTaskChkType], fun hcur => ?_⟩
        exact absurd (congrArg ListGvmTask.chkType (heq.trans hc))
          (chkType_queryReport hquery (hcond.polled hdue.1 hdue.2 t hp hquery hcur))
  | queriedResult _ hquery _ =>
    have hother : t.reportInfo.curReportId ≠ r := fun hcur => by simp [hreport hcur] at hquery
    rcases queryResult_cases i.2 t w.files with heq | ⟨_, _, _, heq⟩
    · rw [heq]
      exact ⟨htype, hreport⟩
    · rw [heq]
      exact ⟨by simp [ListGvmTask.setTaskNextChkTime], fun hcur => absurd hcur hother⟩

/-- One step under the condition, before the end of the report is observed. -/
theorem Pending.step {p : Ptr} {r : CStr maxUuidSize} {w : World} {i : Event × Env}
    (h : Pending p r w) (hcond : AfterAdoption p r w i) (hend : ¬ ObservedFinished p r w i) :
    Pending p r (daemonNext w i) := by
  obtain ⟨hcons, t, hp, htype, hreport⟩ := h
  obtain ⟨hcons', _, hstep⟩ := hcons.daemonStep_spec i.2 i.1
  have hkeep : (daemonNext w i).stored p = some t → Pending p r (daemonNext w i) :=
    fun hp' => ⟨hcons', t, hp', htype, hreport⟩
  by_cases hdel : ∃ input, i.1 = .deleteTask input
  · -- a deletion of this task finds it busy
    obtain ⟨e, env⟩ := i
    obtain ⟨input, rfl⟩ := hdel
    rcases hcons.daemonDeleteTask_cases env input with
      ⟨hworld, _⟩ | ⟨key, q, hkey, hq, hname, hbusy, _, _, _, hstored⟩
    · have hworld' : daemonNext w (.deleteTask input, env) = w := hworld
      exact hkeep (by rw [hworld', hp])
    · have hpq : p ≠ q := by
        rintro rfl
        rw [World.task_of_stored hp, hcond.busy ⟨key, _, hkey, hq, hname⟩ hp hreport] at hbusy
        simp at hbusy
      refine hkeep ?_
      rcases hstored with hs | hs
      · exact (congrFun hs p).trans (by rw [Function.update_of_ne hpq, hp])
      · exact (congrFun hs p).trans (by rw [Function.update_of_ne hpq, hp])
  · cases hstep with
    | same hstored => exact hkeep (by rw [daemonNext, hstored, hp])
    | @task q u u' hq hts hstored =>
      by_cases hpq : p = q
      · subst hpq
        obtain rfl := Option.some.inj (hp.symm.trans hq)
        obtain ⟨htype', hreport'⟩ := Pending.taskStep hp htype hreport hcond hend hdel hts
        exact ⟨hcons', u', by rw [daemonNext, hstored, Function.update_self], htype', hreport'⟩
      · exact hkeep (by rw [daemonNext, hstored, Function.update_of_ne hpq, hp])
    | @removed q u hq hcause hstored =>
      by_cases hpq : p = q
      · subst hpq
        obtain rfl := Option.some.inj (hp.symm.trans hq)
        exact hcause.elim (fun hd => absurd hd htype) fun hd => absurd hd hdel
      · exact hkeep (by rw [daemonNext, hstored, Function.update_of_ne hpq, hp])
    | @added u _ _ hstored =>
      have hpq : p ≠ w.next := (hcons.lt_next (World.stored_eq_some.mp hp).1).ne
      exact hkeep (by rw [daemonNext, hstored, Function.update_of_ne hpq, hp])

/-- **A started task is busy until it is observed finished**, when the requests for it come after
the adoption of its new report or while an older one is checked: in every run from a successful
start, as long as no check has read a terminal status of that report, every request to start or to
delete the task is rejected as busy and sends nothing. -/
theorem rejectedBusy_of_afterAdoption {w : World} (h : Reachable w) {p : Ptr}
    {r : CStr maxUuidSize} {i : Event × Env} (hstart : Started p r w i)
    (hnew : (w.task p).reportInfo.curReportId ≠ r) {js : List (Event × Env)}
    (hjs : Along daemonNext (fun w j => AfterAdoption p r w j ∧ ¬ ObservedFinished p r w j)
      (daemonNext w i) js) {j : Event × Env}
    (hj : AfterAdoption p r (daemonRun (daemonNext w i) js) j)
    (hreq : RequestFor (daemonRun (daemonNext w i) js) p j.1) :
    RejectedBusy (daemonRun (daemonNext w i) js) j := by
  have hpending : Pending p r (daemonRun (daemonNext w i) js) :=
    hjs.invariant (fun _ _ hc hpend => hpend.step hc.1 hc.2)
      (hstart.pending h.checkInvariant.consistent hnew)
  obtain ⟨hcons, t, hp, _, hreport⟩ := hpending
  refine rejectedBusy_of_busy hcons hreq (hj.served hreq).1 (hj.served hreq).2 ?_
  rw [World.task_of_stored hp]
  exact hj.busy hreq hp hreport

/-- A request to start the sample task. -/
def sampleStart : Event × Env := (.startTask sampleKey, .smooth sampleGvmd)

/-- The state in which the sample task was created. -/
def sampleCreated : World := daemonRun (emptyWorld fun _ => none) sampleSteps

/-- The sample request names the sample task in every state that holds it. -/
theorem namedBy_sampleKey {w : World} (h : Reachable w) (hset : w.data.nameset.data = [0])
    (hname : (getKeyTaskParam sampleKey).map (·.taskInfo.taskName) =
      some (w.task 0).taskInfo.taskName) : NamedBy w 0 sampleKey := by
  obtain ⟨key, hkey, heq⟩ := Option.map_eq_some_iff.mp hname
  exact ⟨key, _, hkey, stored_of_nameset h hset, heq.symm⟩

theorem reachable_sampleCreated : Reachable sampleCreated := reachable_emptyWorld.run sampleSteps

/-- The first start of the sample task succeeds with a new report. -/
theorem started_sampleStart : Started 0 sampleReport sampleCreated sampleStart ∧
    (sampleCreated.task 0).reportInfo.curReportId ≠ sampleReport := by
  have hfacts : sampleCreated.data.nameset.data = [0] ∧
      (getKeyTaskParam sampleKey).map (·.taskInfo.taskName) =
        some (sampleCreated.task 0).taskInfo.taskName ∧
      (daemonStartTask sampleStart.2 sampleCreated sampleKey).code = .success ∧
      (gvmStartTask sampleStart.2 (sampleCreated.task 0).taskInfo.taskId.text).val =
        some sampleReport ∧
      (sampleCreated.task 0).reportInfo.curReportId ≠ sampleReport := by decide +kernel
  obtain ⟨hset, hname, hcode, hreport, hnew⟩ := hfacts
  exact ⟨⟨sampleKey, rfl, namedBy_sampleKey reachable_sampleCreated hset hname, hcode, hreport⟩,
    hnew⟩

/-- The state after the first start and a check. -/
def sampleChecked : World :=
  daemonRun (daemonNext sampleCreated sampleStart) [sampleCheck fun _ => .ok]

/-- After a check that adopts the new report a second start is rejected. -/
theorem rejectedBusy_of_afterAdoption_sampleStart : RejectedBusy sampleChecked sampleStart := by
  have hadopted : sampleChecked.data.nameset.data = [0] ∧
      (getKeyTaskParam sampleKey).map (·.taskInfo.taskName) =
        some (sampleChecked.task 0).taskInfo.taskName ∧
      (sampleChecked.task 0).reportInfo.curReportId = sampleReport ∧
      sampleChecked.data.isGvmConnOk = true := by decide +kernel
  have hidle : ((daemonNext sampleCreated sampleStart).task 0).chkType = .chkTask := by
    decide +kernel
  obtain ⟨hset, hname, hcur, hconn⟩ := hadopted
  have hreach : Reachable sampleChecked := (reachable_sampleCreated.next sampleStart).run _
  have hcheck : AfterAdoption 0 sampleReport (daemonNext sampleCreated sampleStart)
      (sampleCheck fun _ => .ok) := by
    refine ⟨fun h => h.elim, fun h => h.elim, fun _ _ t hp htype => ?_⟩
    rw [← World.task_of_stored hp, hidle] at htype
    simp at htype
  have hend : ¬ ObservedFinished 0 sampleReport (daemonNext sampleCreated sampleStart)
      (sampleCheck fun _ => .ok) := by
    rintro ⟨t, _, _, _, hp, htype, _⟩
    rw [← World.task_of_stored hp, hidle] at htype
    simp at htype
  have hnamed := namedBy_sampleKey hreach hset hname
  have hstart : AfterAdoption 0 sampleReport sampleChecked sampleStart :=
    ⟨fun _ => Or.inl hcur, fun _ => ⟨rfl, hconn⟩, fun h => by simp [sampleStart] at h⟩
  have hjs : Along daemonNext
      (fun w j => AfterAdoption 0 sampleReport w j ∧ ¬ ObservedFinished 0 sampleReport w j)
      (daemonNext sampleCreated sampleStart) [sampleCheck fun _ => .ok] :=
    ⟨⟨hcheck, hend⟩, trivial⟩
  rw [sampleChecked] at hstart hnamed ⊢
  exact rejectedBusy_of_afterAdoption reachable_sampleCreated started_sampleStart.1
    started_sampleStart.2 hjs hstart hnamed

/-- Two requests to start the same task, one right after the other, both succeed. -/
theorem not_rejectedBusy_sampleStart :
    ¬ ∀ w, Reachable w → ∀ p r i, Started p r w i → (w.task p).reportInfo.curReportId ≠ r →
      ∀ js j, Along daemonNext (fun w j => ¬ ObservedFinished p r w j) (daemonNext w i) js →
        RequestFor (daemonRun (daemonNext w i) js) p j.1 → j.2.alloc = true →
        (daemonRun (daemonNext w i) js).data.isGvmConnOk = true →
        RejectedBusy (daemonRun (daemonNext w i) js) j := by
  intro hclaim
  have hsecond : (daemonNext sampleCreated sampleStart).data.nameset.data = [0] ∧
      (getKeyTaskParam sampleKey).map (·.taskInfo.taskName) =
        some ((daemonNext sampleCreated sampleStart).task 0).taskInfo.taskName ∧
      (daemonNext sampleCreated sampleStart).data.isGvmConnOk = true ∧
      (daemonStep sampleStart.2 (daemonNext sampleCreated sampleStart) sampleStart.1).code =
        .success := by decide +kernel
  obtain ⟨hset, hname, hconn, hcode⟩ := hsecond
  have hreach := reachable_sampleCreated.next sampleStart
  have hnamed := namedBy_sampleKey hreach hset hname
  have hrejected := hclaim sampleCreated reachable_sampleCreated 0 sampleReport sampleStart
    started_sampleStart.1 started_sampleStart.2 [] sampleStart trivial
  rw [daemonRun, run_nil] at hrejected
  have hrejected := hrejected hnamed rfl hconn
  have hbusy : GvmErrCode.success = .taskIsBusy := hcode.symm.trans hrejected.1
  simp at hbusy

end OpenvasTool
