import OpenvasTool.Hydra.Pids

/-!
# Ended processes and the flag

The handler of `SIGCHLD` only sets a flag, and `monitorHydraTask` waits for the
ended processes before it clears the flag. A process that ends between the last
call of `waitpid` and the clearing is forgotten; without such an end every
process that was not waited for is announced by the flag.
-/

namespace OpenvasTool

open Posix Support

/-- Outside of `monitorHydraTask`, an ended process that was not waited for is announced. -/
def Announced (s : HydraState) : Prop :=
  s.phase = .idle → ∀ pid, s.world.procs.Ended pid → s.world.hasChildExit = true

/-- No task process ends between the last call of `waitpid` and the clearing of the flag. -/
def ExitsBeforeClearing (s : HydraState) (i : HydraEvent × HydraEnv) : Prop :=
  ∀ pid, i.1 = .childExit pid → s.world.procs.isLive pid = true → s.phase ≠ .clearing

/-- The flag at every position of the daemon: while it waits the flag is set, and when it is about
to clear the flag all ended processes have been waited for. -/
structure FlagInv (s : HydraState) : Prop where
  owned : s.world.PidsOwned
  idle : Announced s
  waiting : s.phase = .waiting → s.world.hasChildExit = true
  clearing : s.phase = .clearing → ∀ pid, ¬ s.world.procs.Ended pid

/-- A request keeps the flag and the ended processes. -/
theorem HydraWorld.PidsOwned.request_ended {w : HydraWorld} (h : w.PidsOwned) {env : HydraEnv}
    {e : HydraEvent} {o : HydraOutcome} (ho : hydraRequest env w e = some o) :
    o.world.hasChildExit = w.hasChildExit ∧
      ∀ pid, o.world.procs.Ended pid ↔ w.procs.Ended pid := by
  have hkey : ∀ {input}, KeyRequest env w input o → o.world.hasChildExit = w.hasChildExit ∧
      ∀ pid, o.world.procs.Ended pid ↔ w.procs.Ended pid := by
    intro input hreq
    cases hreq with
    | noMemory _ ho => exact ho ▸ ⟨rfl, fun _ => Iff.rfl⟩
    | invalid _ _ ho => exact ho ▸ ⟨rfl, fun _ => Iff.rfl⟩
    | notFound _ _ _ _ ho => exact ho ▸ ⟨rfl, fun _ => Iff.rfl⟩
    | found key p t _ _ _ _ hkept heffect =>
      refine ⟨hkept.flag, fun pid => ?_⟩
      cases heffect with
      | nothing _ hprocs => rw [hprocs]
      | signalled _ _ hprocs => rw [hprocs]
      | stopped _ _ hprocs => rw [hprocs]
      | removed _ _ hprocs => rw [hprocs]
      | started r _ hfork _ hprocs => rw [hprocs, Children.ended_fork hfork]
  unfold hydraRequest at ho
  split at ho
  · exact hkey (Option.some.inj ho ▸ h.indexed.daemonStartHydra env _)
  · exact hkey (Option.some.inj ho ▸ h.indexed.daemonStopHydra env _)
  · exact hkey (Option.some.inj ho ▸ h.indexed.daemonDeleteHydra env _)
  · obtain ⟨hkept, hprocs, _⟩ := h.indexed.daemonCreateHydra env _
    obtain rfl := Option.some.inj ho
    exact ⟨hkept.flag, fun pid => by rw [hprocs]⟩
  · simp at ho

namespace FlagInv

variable {s : HydraState}

/-- The steps of `monitorHydraTask` and of the operating system keep the invariant, if no process
ends in front of the clearing. -/
theorem system (h : FlagInv s) {i : HydraEvent × HydraEnv} (hexit : ExitsBeforeClearing s i) :
    FlagInv (hydraSystem s i.1) := by
  have howned := h.owned.system i.1
  generalize hs : hydraSystem s i.1 = s' at howned ⊢
  unfold hydraSystem at hs
  split at hs
  · rename_i pid hi
    split at hs
    · rename_i hlive
      subst hs
      exact ⟨howned, fun _ _ _ => rfl, fun _ => rfl,
        fun hclearing => absurd hclearing (hexit pid hi hlive)⟩
    · exact hs ▸ h
  · subst hs
    exact ⟨howned, fun _ _ _ => rfl, fun _ => rfl, h.clearing⟩
  · split at hs
    · rename_i hflag
      subst hs
      exact ⟨howned, fun hidle => by simp at hidle, fun _ => hflag.2,
        fun hclearing => by simp at hclearing⟩
    · exact hs ▸ h
  · split at hs
    · rename_i hwaiting
      split at hs
      · rename_i pid _
        subst hs
        have hflag : (s.world.chgChildTask pid).hasChildExit = true := by
          rw [HydraWorld.hasChildExit_chgChildTask]
          exact h.waiting hwaiting
        exact ⟨howned, fun _ _ _ => hflag, fun _ => hflag, fun hclearing => by
          rw [hwaiting] at hclearing
          simp at hclearing⟩
      · rename_i hwait
        subst hs
        exact ⟨howned, fun hidle => by simp at hidle, fun hphase => by simp at hphase,
          fun _ pid => Children.waitpid_eq_none hwait⟩
    · exact hs ▸ h
  · split at hs
    · rename_i hclearing
      subst hs
      exact ⟨howned, fun _ pid hended => absurd hended (h.clearing hclearing pid),
        fun hphase => by simp at hphase, fun hphase => by simp at hphase⟩
    · exact hs ▸ h
  · exact hs ▸ h

/-- Every step keeps the invariant, if no process ends in front of the clearing. -/
theorem next (h : FlagInv s) {i : HydraEvent × HydraEnv} (hexit : ExitsBeforeClearing s i) :
    FlagInv (hydraNext s i) := by
  have howned := pidsOwned_hydraNext s i h.owned
  have hsystem := h.system hexit
  unfold hydraNext HydraState.request at *
  by_cases hidle : s.phase = .idle
  · rw [if_pos hidle] at howned ⊢
    cases ho : hydraRequest i.2 s.world i.1 with
    | none => exact hsystem
    | some o =>
      rw [ho] at howned
      obtain ⟨hflag, hended⟩ := h.owned.request_ended ho
      refine ⟨howned, fun _ pid hpid => ?_, fun hphase => ?_, fun hphase => ?_⟩
      · exact hflag.trans (h.idle hidle pid ((hended pid).mp hpid))
      · exact absurd (hidle.symm.trans hphase) (by decide)
      · exact absurd (hidle.symm.trans hphase) (by decide)
  · rw [if_neg hidle]
    exact hsystem

end FlagInv

theorem HydraStart.flagInv {s : HydraState} (h : HydraStart s) : FlagInv s := by
  obtain ⟨env, templDir, files, hnames, hstart⟩ := h.loaded
  have hprocs := (initHydra_spec hnames hstart).2.2.1
  refine ⟨h.pidsOwned, fun _ pid hended => ?_, fun hphase => ?_, fun hphase => ?_⟩
  · rw [hprocs] at hended
    exact absurd hended Children.not_ended_empty
  · exact absurd (h.idle.symm.trans hphase) (by decide)
  · exact absurd (h.idle.symm.trans hphase) (by decide)

/-- **No forgotten process.** In every run in which no task process ends between the last call of
`waitpid` and the clearing of the flag, the flag announces every ended process that was not waited
for whenever `monitorHydraTask` is not executing. -/
theorem announced_of_exitsBeforeClearing {s0 : HydraState} (hstart : HydraStart s0)
    {is : List (HydraEvent × HydraEnv)} (hexits : Along hydraNext ExitsBeforeClearing s0 is) :
    Announced (hydraRun s0 is) :=
  have hflag : FlagInv (hydraRun s0 is) :=
    hexits.invariant (fun _ _ hexit h => h.next hexit) hstart.flagInv
  hflag.idle

/-! ### Runs of the task `audit` -/

/-- `monitorHydraTask` runs because another child ended, and the task process ends while it does. -/
def sampleMonitor : List (HydraEvent × HydraEnv) :=
  sampleHydraSteps ++ [(.otherExit, .smooth 0), (.monitor, .smooth 0), (.waitpid 0, .smooth 0),
    (.childExit 4711, .smooth 0), (.clear, .smooth 0)]

/-- The task process ended between the last call of `waitpid` and the clearing: it is forgotten. -/
theorem not_announced_sampleMonitor : ¬ Announced (hydraRun sampleHydraState sampleMonitor) := by
  have hfacts : (hydraRun sampleHydraState sampleMonitor).phase = .idle ∧
      4711 ∈ (hydraRun sampleHydraState sampleMonitor).world.procs.ended ∧
      (hydraRun sampleHydraState sampleMonitor).world.hasChildExit = false := by decide +kernel
  obtain ⟨hidle, hended, hflag⟩ := hfacts
  intro h
  have htrue := h hidle 4711 (Children.mem_ended.mp hended)
  rw [hflag] at htrue
  exact Bool.false_ne_true htrue

/-- The task process ends before `monitorHydraTask` begins. -/
theorem announced_sampleHydraSteps : Announced (hydraRun sampleHydraState
    (sampleHydraSteps ++ [(.childExit 4711, .smooth 0)])) := by
  refine announced_of_exitsBeforeClearing hydraStart_sampleHydraState ?_
  have hother : ∀ (s : HydraState) (e : HydraEvent) (env : HydraEnv), (∀ pid, e ≠ .childExit pid) →
      ExitsBeforeClearing s (e, env) := fun s e env hne pid he => absurd he (hne pid)
  refine ⟨hother _ _ _ (by simp), hother _ _ _ (by simp), hother _ _ _ (by simp),
    fun _ _ _ => ?_, trivial⟩
  decide +kernel

end OpenvasTool
