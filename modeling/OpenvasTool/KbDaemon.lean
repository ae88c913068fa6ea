import OpenvasTool.Gvm.Consistency
import OpenvasTool.Hydra.Pids
import OpenvasTool.KbRecovery

/-!
# The daemon behind its message queue

The handlers of `openvas_opts.c` and the background work as the service of the message loop. What
the clients send, however it travels, takes the daemon through a run of its own steps, whose
requests are those of the clients in order; so what holds of every run of the daemon holds behind
the queue.
-/

namespace OpenvasTool

open Posix Support

/-! ### The handlers -/

/-- The handler of a command, as a step of the gvm part or of the hydra part. -/
def handlerEvent : PhpCommand → Text → Event ⊕ HydraEvent
  | .startTask, param => .inl (.startTask param)
  | .stopTask, param => .inl (.stopTask param)
  | .deleteTask, param => .inl (.deleteTask param)
  | .createTask, param => .inl (.createTask param)
  | .startHydra, param => .inr (.startHydra param)
  | .stopHydra, param => .inr (.stopHydra param)
  | .deleteHydra, param => .inr (.deleteHydra param)
  | .createHydra, param => .inr (.createHydra param)

/-- What the daemon does between the requests. -/
inductive DaemonWork where
  | runGvmChecks
  | validateGvmConn
  | hydra (e : HydraEvent)

/-- The outcomes of the system calls of a step, and the work that is next between the requests. -/
structure DaemonInput where
  env : HydraEnv
  work : DaemonWork

/-- The daemon: its tasks and its hydra tasks. -/
abbrev DaemonState := World × HydraState

/-- The handlers `daemon_*` and the work in between. A request has to wait until
`monitorHydraTask` has returned. -/
def daemonService : Service DaemonState DaemonInput where
  handle := fun w i command param =>
    match handlerEvent command param with
    | .inl e =>
        let o := daemonStep i.env.toEnv w.1 e
        some ((o.world, w.2), o.code)
    | .inr e =>
        (w.2.request i.env e).map fun o => ((w.1, { w.2 with world := o.world }), o.code)
  background := fun w i =>
    match i.work with
    | .runGvmChecks => (daemonNext w.1 (.runGvmChecks, i.env.toEnv), w.2)
    | .validateGvmConn => (daemonNext w.1 (.validateGvmConn, i.env.toEnv), w.2)
    | .hydra e => (w.1, hydraSystem w.2 e)

/-! ### Runs of the daemon -/

/-- The step is a request of a client. -/
def Event.isRequest : Event → Bool
  | .runGvmChecks => false
  | .validateGvmConn => false
  | _ => true

/-- The step is a request of a client. -/
def HydraEvent.isRequest : HydraEvent → Bool
  | .startHydra _ => true
  | .stopHydra _ => true
  | .deleteHydra _ => true
  | .createHydra _ => true
  | _ => false

/-- Steps of both parts from a state, with these requests. -/
structure DaemonRuns (w₀ w : DaemonState) (served : List (PhpCommand × Text × GvmErrCode))
    (steps : List (Event × Env)) (hydraSteps : List (HydraEvent × HydraEnv)) : Prop where
  gvm : w.1 = daemonRun w₀.1 steps
  hydra : w.2 = hydraRun w₀.2 hydraSteps
  requests : (steps.map Prod.fst).filter Event.isRequest =
    served.filterMap fun r => (handlerEvent r.1 r.2.1).getLeft?
  hydraRequests : (hydraSteps.map Prod.fst).filter HydraEvent.isRequest =
    served.filterMap fun r => (handlerEvent r.1 r.2.1).getRight?

theorem daemonRun_concat (w : World) (is : List (Event × Env)) (i : Event × Env) :
    daemonRun w (is ++ [i]) = daemonNext (daemonRun w is) i := run_append w is [i]

theorem hydraRun_concat (s : HydraState) (is : List (HydraEvent × HydraEnv))
    (i : HydraEvent × HydraEnv) : hydraRun s (is ++ [i]) = hydraNext (hydraRun s is) i :=
  run_append s is [i]

theorem isRequest_handlerEvent (command : PhpCommand) (param : Text) :
    match handlerEvent command param with
    | .inl e => e.isRequest = true
    | .inr e => e.isRequest = true := by
  cases command <;> rfl

namespace DaemonRuns

variable {w₀ w : DaemonState} {served : List (PhpCommand × Text × GvmErrCode)}
  {steps : List (Event × Env)} {hydraSteps : List (HydraEvent × HydraEnv)}

theorem gvmStep (h : DaemonRuns w₀ w served steps hydraSteps) (i : Event × Env)
    (hi : i.1.isRequest = false) :
    DaemonRuns w₀ (daemonNext w.1 i, w.2) served (steps ++ [i]) hydraSteps where
  gvm := by rw [h.gvm, daemonRun_concat]
  hydra := h.hydra
  requests := by simp [hi, h.requests]
  hydraRequests := h.hydraRequests

/-- Work of the hydra part in between. -/
theorem system (h : DaemonRuns w₀ w served steps hydraSteps) (env : HydraEnv) (e : HydraEvent) :
    ∃ hydraSteps', DaemonRuns w₀ (w.1, hydraSystem w.2 e) served steps hydraSteps' := by
  by_cases he : e.isRequest = true
  · have hsame : hydraSystem w.2 e = w.2 := by
      cases e <;> simp_all [HydraEvent.isRequest, hydraSystem]
    rw [hsame]
    exact ⟨hydraSteps, h⟩
  · have hnone : w.2.request env e = none := by
      cases e <;> simp_all [HydraEvent.isRequest, HydraState.request, hydraRequest]
    have hnext : hydraNext w.2 (e, env) = hydraSystem w.2 e := by
      rw [hydraNext, hnone]
    refine ⟨hydraSteps ++ [(e, env)], h.gvm, ?_, h.requests, ?_⟩
    · rw [← hnext, h.hydra, hydraRun_concat]
    · simpa [he] using h.hydraRequests

/-- A request. -/
theorem handle (h : DaemonRuns w₀ w served steps hydraSteps) {w' : DaemonState} {i : DaemonInput}
    {command : PhpCommand} {param : Text} {code : GvmErrCode}
    (hcall : daemonService.handle w i command param = some (w', code)) :
    ∃ steps' hydraSteps',
      DaemonRuns w₀ w' (served ++ [(command, param, code)]) steps' hydraSteps' := by
  have hrequest := isRequest_handlerEvent command param
  simp only [daemonService] at hcall
  cases hevent : handlerEvent command param with
  | inl e =>
    rw [hevent] at hcall hrequest
    obtain ⟨rfl, -⟩ := Prod.mk.inj (Option.some.inj hcall)
    refine ⟨steps ++ [(e, i.env.toEnv)], hydraSteps, ?_, h.hydra, ?_, ?_⟩
    · show daemonNext w.1 (e, i.env.toEnv) = _
      rw [h.gvm, daemonRun_concat]
    · simpa [hrequest, hevent] using h.requests
    · simpa [hevent] using h.hydraRequests
  | inr e =>
    rw [hevent] at hcall hrequest
    obtain ⟨o, ho, heq⟩ := Option.map_eq_some_iff.mp hcall
    obtain ⟨rfl, -⟩ := Prod.mk.inj heq
    refine ⟨steps, hydraSteps ++ [(e, i.env)], h.gvm, ?_, ?_, ?_⟩
    · have hnext : hydraNext w.2 (e, i.env) = { w.2 with world := o.world } := by
        rw [hydraNext, ho]
      rw [← hnext, h.hydra, hydraRun_concat]
    · simpa [hevent] using h.requests
    · simpa [hrequest, hevent] using h.hydraRequests

end DaemonRuns

/-- What the service reaches, the daemon reaches by its steps. -/
theorem Service.Reach.daemonRuns {w₀ w : DaemonState}
    {served : List (PhpCommand × Text × GvmErrCode)} (h : daemonService.Reach w₀ w served) :
    ∃ steps hydraSteps, DaemonRuns w₀ w served steps hydraSteps := by
  induction h with
  | start => exact ⟨[], [], rfl, rfl, rfl, rfl⟩
  | background i _ ih =>
    obtain ⟨steps, hydraSteps, hruns⟩ := ih
    simp only [daemonService]
    split
    · exact ⟨_, hydraSteps, hruns.gvmStep _ rfl⟩
    · exact ⟨_, hydraSteps, hruns.gvmStep _ rfl⟩
    · rename_i e _
      obtain ⟨hydraSteps', hruns'⟩ := hruns.system i.env e
      exact ⟨steps, hydraSteps', hruns'⟩
  | request _ hcall ih =>
    obtain ⟨steps, hydraSteps, hruns⟩ := ih
    exact hruns.handle hcall

/-! ### The daemon serves its clients -/

/-- In every interleaving and whatever breaks, from a start of the daemon: its state is reached by
its own steps, whose requests are those of the clients in the order in which they were pushed. So
the indexes of the tasks hold exactly one set of tasks, and every process of a hydra task is its
own. -/
theorem runs_daemon (ρ : Type*) [RedisServer ρ] {ι : Type*} [DecidableEq ι] (q : ι → KbRequest)
    {env : BootEnv} {files : Files} {w₀ : World} {s₀ : HydraState} (hnames : DistinctNames files)
    (hstart : initDaemon env files = some w₀) (hhydra : HydraStart s₀)
    (events : List (KbEvent ι DaemonInput)) :
    ∃ (order : List (ι × GvmErrCode)) (steps : List (Event × Env))
      (hydraSteps : List (HydraEvent × HydraEnv)),
      (order.map fun r => (q r.1).msg).Sublist
          ((KbSystem.init ρ (w₀, s₀)).runs daemonService q events).mail.sent ∧
        DaemonRuns (w₀, s₀) ((KbSystem.init ρ (w₀, s₀)).runs daemonService q events).world
          (order.map fun r => (q r.1).served r.2) steps hydraSteps ∧
        (∃ tasks, ((KbSystem.init ρ (w₀, s₀)).runs daemonService q events).world.1.HoldsExactly
          tasks) ∧
        ((KbSystem.init ρ (w₀, s₀)).runs daemonService q events).world.2.world.PidsOwned := by
  have h : ((KbSystem.init ρ (w₀, s₀)).runs daemonService q events).Delivers q :=
    KbSystem.delivers_runs (KbSystem.delivers_init _) events
  obtain ⟨order, hserves⟩ := KbSystem.exists_serves ρ daemonService q (w₀, s₀) events
  obtain ⟨steps, hydraSteps, hruns⟩ := hserves.world.daemonRuns
  refine ⟨order, steps, hydraSteps, hserves.sublist h, hruns, ?_, ?_⟩
  · rw [hruns.gvm]
    exact ⟨_, ((initDaemon_spec hnames hstart).1.run steps).holdsExactly⟩
  · rw [hruns.hydra]
    exact invariant_run pidsOwned_hydraNext hhydra.pidsOwned hydraSteps

/-- The daemon starts without files, and a client asks it to start a task. -/
theorem runs_daemon_sample :
    ∃ steps hydraSteps served,
      DaemonRuns (emptyWorld fun _ => none, sampleHydraState)
        ((KbSystem.init Redis (emptyWorld fun _ => none, sampleHydraState)).runs daemonService
          sampleRequests [.daemon soundAttempt 0 true, .client true soundAttempt,
            .client true soundAttempt, .daemon soundAttempt 0 true,
            .handler ⟨.smooth 0, .runGvmChecks⟩]).world served steps hydraSteps := by
  obtain ⟨order, steps, hydraSteps, -, hruns, -⟩ := runs_daemon Redis sampleRequests
    distinctNames_noFiles initDaemon_noFiles hydraStart_sampleHydraState _
  exact ⟨steps, hydraSteps, _, hruns⟩

/-! ### Every request is answered -/

/-- Waiting for an ended child leaves fewer children. -/
theorem length_reap_lt {τ : Type*} {c : Children τ} {pid : ℕ} (h : c.Ended pid) :
    (c.reap pid).list.length < c.list.length := by
  obtain ⟨owner, hmem⟩ := h
  apply List.length_filter_lt_length_iff_exists.mpr
  exact ⟨_, hmem, by simp⟩

/-- `monitorHydraTask` waits for every ended child once and returns. -/
theorem exists_idle_of_waiting {s : HydraState} (hphase : s.phase = .waiting) :
    ∃ es : List HydraEvent, (es.foldl hydraSystem s).phase = .idle := by
  induction hlen : s.world.procs.list.length using Nat.strong_induction_on generalizing s with
  | _ n ih =>
    cases hwait : s.world.procs.waitpid 0 with
    | none =>
      refine ⟨[.waitpid 0, .clear], ?_⟩
      simp [hydraSystem, hphase, hwait]
    | some pid =>
      have hstep : hydraSystem s (.waitpid 0) =
          { s with world := { s.world.chgChildTask pid with procs := s.world.procs.reap pid } } := by
        simp [hydraSystem, hphase, hwait]
      have hless := length_reap_lt (Children.waitpid_eq_some hwait)
      obtain ⟨es, hes⟩ := ih _ (hlen ▸ hless)
        (s := { s with world := { s.world.chgChildTask pid with procs := s.world.procs.reap pid } })
        hphase rfl
      exact ⟨.waitpid 0 :: es, by rw [List.foldl_cons, hstep]; exact hes⟩

theorem exists_idle (s : HydraState) :
    ∃ es : List HydraEvent, (es.foldl hydraSystem s).phase = .idle := by
  cases hphase : s.phase with
  | idle => exact ⟨[], hphase⟩
  | waiting => exact exists_idle_of_waiting hphase
  | clearing => exact ⟨[.clear], by simp [hydraSystem, hphase]⟩

/-- An input for the work of the hydra part. -/
def hydraInput (e : HydraEvent) : DaemonInput := ⟨.smooth 0, .hydra e⟩

/-- The daemon comes back to its requests. -/
theorem ready_daemonService : daemonService.Ready := by
  intro w command param
  obtain ⟨es, hidle⟩ := exists_idle w.2
  refine ⟨es.map hydraInput, hydraInput .monitor, ?_⟩
  have hback : (es.map hydraInput).foldl daemonService.background w =
      (w.1, es.foldl hydraSystem w.2) := by
    clear hidle
    induction es generalizing w with
    | nil => rfl
    | cons e es ih => exact ih (w.1, hydraSystem w.2 e)
  rw [hback]
  cases command <;> simp [daemonService, handlerEvent, HydraState.request, hidle, hydraRequest]

/-- From every reachable state in which the daemon runs, reads its queue and has not met an error
since its last poll, and for every call that waits and whose message is in the queue: by rounds of
the daemon alone, in which nothing breaks, it comes to a state in which the next round of the call
returns the result of its own request. -/
theorem daemon_answers (ρ : Type*) [RedisServer ρ] {ι : Type*} [DecidableEq ι] {q : ι → KbRequest}
    (hinj : Function.Injective fun k => (q k).name) (w : DaemonState)
    (before : List (KbEvent ι DaemonInput)) {s : KbSystem ρ ι DaemonState}
    (hs : (KbSystem.init ρ w).runs daemonService q before = s) (hcalm : s.Calm)
    (hrun : s.loop.isRun = true) {k : ι} (hwait : (s.calls k).phase = .wait)
    (hmem : (q k).msg ∈ s.mail.waiting) :
    ∃ s', s.Continues daemonService q s' ∧ ∃ code, ((q k).msg, code) ∈ s'.answered ∧
      ((s'.client q k soundAttempt).calls k).phase = .done code.toInt :=
  KbSystem.exists_answer hinj ready_daemonService w before hs hcalm hrun hwait hmem

/-- A client asked the daemon to start a task. -/
theorem daemon_answers_sample :
    ∃ s' code, ((sampleRequests true).msg, code) ∈ s'.answered ∧
      ((KbSystem.client sampleRequests s' true soundAttempt).calls true).phase =
        (.done code.toInt : SendPhase) ∧
      KbSystem.Continues daemonService sampleRequests
        ((KbSystem.init Redis (emptyWorld fun _ => none, sampleHydraState)).runs daemonService
          sampleRequests [.daemon soundAttempt 0 true, .client true soundAttempt,
            .client true soundAttempt]) s' := by
  obtain ⟨s', hcont, code, hmem, hdone⟩ := daemon_answers Redis (k := true)
    sampleRequests_injective (emptyWorld fun _ => none, sampleHydraState)
    [.daemon soundAttempt 0 true, .client true soundAttempt, .client true soundAttempt] rfl
    ⟨by decide +kernel, by decide +kernel⟩ (by decide +kernel) (by decide +kernel)
    (by decide +kernel)
  exact ⟨s', code, hmem, hdone, hcont⟩

end OpenvasTool
