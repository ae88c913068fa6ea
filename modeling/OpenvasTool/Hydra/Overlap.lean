import OpenvasTool.Hydra.Pids

/-!
# One process per task

A stop request clears the process of a task at once, but the process itself ends
later. Until then the task can be started again or deleted. When no such request
comes, every task has at most one live process and no directory is removed under
a live one.
-/

namespace OpenvasTool

open Posix Support

/-- Every stored task has at most one live process. -/
def OneProcess (s : HydraState) : Prop :=
  ∀ p t, s.world.stored p = some t → ∀ pid pid', s.world.procs.Live pid p →
    s.world.procs.Live pid' p → pid = pid'

/-- The step removes no directory of a task with a live process. -/
def RemovesOver (s : HydraState) (i : HydraEvent × HydraEnv) : Prop :=
  ∀ o, s.request i.2 i.1 = some o → ∀ p ∈ o.removed, ∀ pid, ¬ s.world.procs.Live pid p

/-- One process per task along a run: in every state, and at every removal of a directory. -/
def OneProcessAlong (s : HydraState) (is : List (HydraEvent × HydraEnv)) : Prop :=
  Throughout hydraNext OneProcess s is ∧ Along hydraNext RemovesOver s is

/-- A start or delete request that finds its task without a process comes when no process of this
task is alive any more. -/
def StartsOver (s : HydraState) (i : HydraEvent × HydraEnv) : Prop :=
  ∀ input, i.1 = .startHydra input ∨ i.1 = .deleteHydra input →
    ∀ key p t, getKeyHydraParam input = some key → s.world.stored p = some t →
      t.taskName = key.taskName → t.pid = 0 → ∀ pid, ¬ s.world.procs.Live pid p

/-- The invariant: every address was forked at most one live process. -/
structure ExclusivePids (s : HydraState) : Prop where
  owned : s.world.PidsOwned
  one : ∀ p pid pid', s.world.procs.Live pid p → s.world.procs.Live pid' p → pid = pid'

namespace ExclusivePids

variable {s : HydraState}

theorem oneProcess (h : ExclusivePids s) : OneProcess s := fun p _ _ => h.one p

/-- What a request on the stored task `t` does under the condition. -/
theorem keyEffect (h : ExclusivePids s) {env : HydraEnv} {p : Ptr} {t : ListHydraTask}
    {o : HydraOutcome} (hover : t.pid = 0 → ∀ pid, ¬ s.world.procs.Live pid p)
    (he : KeyEffect env s.world p t o) :
    (∀ q pid pid', o.world.procs.Live pid q → o.world.procs.Live pid' q → pid = pid') ∧
      ∀ q ∈ o.removed, ∀ pid, ¬ s.world.procs.Live pid q := by
  cases he with
  | nothing _ hprocs _ hremoved => exact ⟨hprocs ▸ h.one, by simp [hremoved]⟩
  | signalled _ _ hprocs _ hremoved => exact ⟨hprocs ▸ h.one, by simp [hremoved]⟩
  | stopped _ _ hprocs _ hremoved => exact ⟨hprocs ▸ h.one, by simp [hremoved]⟩
  | removed hidle _ hprocs _ hremoved =>
    refine ⟨hprocs ▸ h.one, fun q hq => ?_⟩
    rw [hremoved, List.mem_singleton] at hq
    exact hq ▸ hover hidle
  | started r hidle hfork _ hprocs _ hremoved =>
    refine ⟨fun q pid pid' hlive hlive' => ?_, by simp [hremoved]⟩
    rw [hprocs, Children.live_fork hfork] at hlive hlive'
    -- the started task had no live process
    rcases hlive with ⟨rfl, rfl⟩ | hold <;> rcases hlive' with ⟨rfl, hq⟩ | hold'
    · rfl
    · exact absurd hold' (hover hidle pid')
    · exact absurd (hq ▸ hold) (hover hidle pid)
    · exact h.one q pid pid' hold hold'

/-- A start or delete request under the condition. -/
theorem keyRequest (h : ExclusivePids s) {i : HydraEvent × HydraEnv} (hover : StartsOver s i)
    {input : Text} (hi : i.1 = .startHydra input ∨ i.1 = .deleteHydra input) {o : HydraOutcome}
    (ho : KeyRequest i.2 s.world input o) :
    (∀ q pid pid', o.world.procs.Live pid q → o.world.procs.Live pid' q → pid = pid') ∧
      ∀ q ∈ o.removed, ∀ pid, ¬ s.world.procs.Live pid q := by
  cases ho with
  | noMemory _ ho => exact ho ▸ ⟨h.one, by simp [HydraOutcome.fail]⟩
  | invalid _ _ ho => exact ho ▸ ⟨h.one, by simp [HydraOutcome.fail]⟩
  | notFound _ _ _ _ ho => exact ho ▸ ⟨h.one, by simp [HydraOutcome.fail]⟩
  | found key p t _ hkey hp hname _ heffect =>
    exact h.keyEffect (hover input hi key p t hkey hp hname) heffect

/-- A request under the condition. -/
theorem request (h : ExclusivePids s) {i : HydraEvent × HydraEnv} (hover : StartsOver s i)
    {o : HydraOutcome} (ho : hydraRequest i.2 s.world i.1 = some o) :
    (∀ q pid pid', o.world.procs.Live pid q → o.world.procs.Live pid' q → pid = pid') ∧
      ∀ q ∈ o.removed, ∀ pid, ¬ s.world.procs.Live pid q := by
  have hframe : o.world.procs = s.world.procs → o.removed = [] →
      (∀ q pid pid', o.world.procs.Live pid q → o.world.procs.Live pid' q → pid = pid') ∧
        ∀ q ∈ o.removed, ∀ pid, ¬ s.world.procs.Live pid q :=
    fun hprocs hremoved => ⟨hprocs ▸ h.one, by simp [hremoved]⟩
  unfold hydraRequest at ho
  split at ho
  · rename_i input hi
    exact h.keyRequest hover (Or.inl hi)
      (Option.some.inj ho ▸ h.owned.indexed.daemonStartHydra i.2 input)
  · rename_i input _
    obtain ⟨hprocs, hremoved⟩ := daemonStopHydra_frame i.2 s.world input
    obtain rfl := Option.some.inj ho
    exact hframe hprocs hremoved
  · rename_i input hi
    exact h.keyRequest hover (Or.inr hi)
      (Option.some.inj ho ▸ h.owned.indexed.daemonDeleteHydra i.2 input)
  · rename_i input _
    obtain ⟨_, hprocs, _, hremoved, _⟩ := h.owned.indexed.daemonCreateHydra i.2 input
    obtain rfl := Option.some.inj ho
    exact hframe hprocs hremoved
  · simp at ho

/-- The monitor and the operating system start no process. -/
theorem system_live (s : HydraState) (e : HydraEvent) {pid : ℕ} {p : Ptr}
    (hlive : (hydraSystem s e).world.procs.Live pid p) : s.world.procs.Live pid p := by
  unfold hydraSystem at hlive
  split at hlive
  · split at hlive
    · exact (Children.live_exit.mp hlive).2
    · exact hlive
  · exact hlive
  · split at hlive <;> exact hlive
  · split at hlive
    · split at hlive
      · exact (Children.live_reap.mp hlive).2
      · exact hlive
    · exact hlive
  · split at hlive <;> exact hlive
  · exact hlive

/-- A step under the condition keeps the invariant and removes no directory of a live process. -/
theorem next (h : ExclusivePids s) {i : HydraEvent × HydraEnv} (hover : StartsOver s i) :
    ExclusivePids (hydraNext s i) ∧ RemovesOver s i := by
  have howned := pidsOwned_hydraNext s i h.owned
  unfold hydraNext at howned ⊢
  cases ho : s.request i.2 i.1 with
  | none =>
    rw [ho] at howned
    refine ⟨⟨howned, fun p pid pid' hlive hlive' => ?_⟩, fun o hsome => by simp [ho] at hsome⟩
    exact h.one p pid pid' (system_live s i.1 hlive) (system_live s i.1 hlive')
  | some o =>
    rw [ho] at howned
    have hreq : hydraRequest i.2 s.world i.1 = some o := by
      unfold HydraState.request at ho
      split at ho
      · exact ho
      · simp at ho
    obtain ⟨hone, hremoved⟩ := h.request hover hreq
    refine ⟨⟨howned, hone⟩, fun o' hsome => ?_⟩
    rw [ho, Option.some.injEq] at hsome
    exact hsome ▸ hremoved

end ExclusivePids

theorem HydraStart.exclusivePids {s : HydraState} (h : HydraStart s) : ExclusivePids s := by
  refine ⟨h.pidsOwned, fun p pid pid' hlive => ?_⟩
  obtain ⟨env, templDir, files, hnames, hstart⟩ := h.loaded
  rw [(initHydra_spec hnames hstart).2.2.1] at hlive
  exact absurd hlive.owns Children.not_owns_empty

/-- **One process per task.** In every run in which no task is started again or deleted before its
stopped process has ended, every stored task always has at most one live process, and the directory
of a task is only removed when its process is over. -/
theorem oneProcessAlong_of_startsOver {s0 : HydraState} (hstart : HydraStart s0)
    {is : List (HydraEvent × HydraEnv)} (hover : Along hydraNext StartsOver s0 is) :
    OneProcessAlong s0 is := by
  have hinv := hstart.exclusivePids
  clear hstart
  induction is generalizing s0 with
  | nil => exact ⟨throughout_nil hinv.oneProcess, trivial⟩
  | cons i is ih =>
    obtain ⟨hnext, hremoves⟩ := hinv.next hover.1
    obtain ⟨hone, halong⟩ := ih hover.2 hnext
    exact ⟨throughout_cons.mpr ⟨hinv.oneProcess, hone⟩, hremoves, halong⟩

/-! ### Runs of the task `audit` -/

/-- The task is stopped and started again at once. -/
def sampleRestart : List (HydraEvent × HydraEnv) :=
  sampleHydraSteps ++ [(.startHydra sampleHydraKey, .smooth 4712)]

/-- Both processes of the task are live after that. -/
theorem not_oneProcessAlong_sampleRestart : ¬ OneProcessAlong sampleHydraState sampleRestart := by
  have hboth : (hydraRun sampleHydraState sampleRestart).world.procs.Live 4711 0 ∧
      (hydraRun sampleHydraState sampleRestart).world.procs.Live 4712 0 ∧
      ((hydraRun sampleHydraState sampleRestart).world.stored 0).isSome := by decide +kernel
  rintro ⟨hone, _⟩
  obtain ⟨hfirst, hsecond, hsome⟩ := hboth
  obtain ⟨t, ht⟩ := Option.isSome_iff_exists.mp hsome
  have heq : 4711 = 4712 := hone sampleRestart List.prefix_rfl 0 t ht 4711 4712 hfirst hsecond
  omega

/-- Without live processes every request is admitted. -/
theorem startsOver_of_none_live {s : HydraState} (i : HydraEvent × HydraEnv)
    (h : (s.world.procs.list.all fun child => !child.live) = true) : StartsOver s i := by
  intro _ _ key p t _ _ _ _ pid hlive
  have := List.all_eq_true.mp h _ hlive
  simp at this

/-- The task is started again after its process has ended. -/
theorem oneProcessAlong_sampleHydraSteps : OneProcessAlong sampleHydraState
    (sampleHydraSteps ++ [(.childExit 4711, .smooth 0), (.startHydra sampleHydraKey, .smooth 4712)]) := by
  refine oneProcessAlong_of_startsOver hydraStart_sampleHydraState ?_
  have hother : ∀ (s : HydraState) (e : HydraEvent) (env : HydraEnv),
      (∀ input, e ≠ .startHydra input ∧ e ≠ .deleteHydra input) → StartsOver s (e, env) := by
    rintro s e env hne input (rfl | rfl)
    · exact absurd rfl (hne input).1
    · exact absurd rfl (hne input).2
  refine ⟨hother _ _ _ (by simp), startsOver_of_none_live _ ?_, hother _ _ _ (by simp),
    hother _ _ _ (by simp), startsOver_of_none_live _ ?_, trivial⟩ <;> decide +kernel

end OpenvasTool
