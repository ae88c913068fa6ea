import OpenvasTool.Hydra.CmdLine
import OpenvasTool.Support.Runs
import OpenvasTool.Support.Split

/-!
# The services of a task

The task process runs hydra for one service after the other and waits for each.
The signal that stops the task only sets a flag, which is tested in front of the
next service and when a signal interrupts `waitpid`. The handler may run between
any two steps of the process.
-/

namespace OpenvasTool

open Posix Support

/-! ### The task process -/

/-- The child of `execvSafe`. Up to `execv` it has the signal handlers of the task process. -/
inductive ChildPhase where
  | forked
  | executing
  | ended
  deriving DecidableEq, Repr

/-- The child that the task process has not waited for. -/
structure ExecChild where
  pid : ℕ
  phase : ChildPhase
  deriving DecidableEq, Repr

/-- `SIGTERM` from `killProc`: the handler that ignores it is in place up to `execv`. -/
def ExecChild.terminate (c : ExecChild) : ExecChild :=
  if c.phase = .executing then { c with phase := .ended } else c

/-- The positions of the task process after `handleChildSignal`, each in front of a statement. -/
inductive TaskPos where
  /-- `createPidFile` in `onStartTask` -/
  | startPid
  /-- the condition of the loop in `runHydraTask` -/
  | loop
  /-- `getNextToken` -/
  | token
  /-- `snprintf` of the output file -/
  | format
  /-- `execvSafe` -/
  | exec
  /-- `g_curr_task->m_pid = childPid` -/
  | record
  /-- the call of `waitpid` -/
  | wait
  /-- within `waitpid` -/
  | blocked
  /-- the condition behind `waitpid`, which a signal interrupted -/
  | interrupted
  /-- `waitpid` returned the child -/
  | waited
  /-- `killProc` in `onEndTask` -/
  | kill
  /-- `exit` -/
  | done
  deriving DecidableEq, Repr

/-- The task process: `service`, `outfile` and `saveptr` of `runHydraTask`, `childPid` of
`waitExecTask`, `m_pid` and the flag, and the arguments of the calls of `execvSafe` so far. -/
structure TaskProc where
  pos : TaskPos := .startPid
  saveptr : Text
  service : Text := []
  outfile : Text := []
  childPid : ℕ := 0
  pid : ℕ := 0
  hasStopTask : Bool := false
  ret : ℤ := 0
  child : Option ExecChild := none
  execs : List (List Text) := []
  deriving DecidableEq

/-- What the system answers to a statement: the process id of `fork`, and whether the file can be
written. -/
structure TaskEnv where
  fork : Option ℕ
  pidFile : Bool
  deriving DecidableEq, Repr

/-- The output file of a service. -/
def outfilePath (task : ListHydraTask) (service : Text) : Text :=
  (hydraPaths task.taskId.text).taskDir ++ "/".toList ++ "hydra_output_".toList ++ service

namespace TaskProc

/-- `waitpid` for the child: it returns an ended child, and it blocks on another one. -/
def waitpid (s : TaskProc) : TaskProc :=
  match s.child.filter fun c => c.pid == s.childPid with
  | some c =>
      if c.phase = .ended then { s with child := none, pos := .waited }
      else { s with pos := .blocked }
  | none =>
      if s.hasStopTask then { s with ret := 0, pos := .loop } else { s with ret := -1, pos := .kill }

/-- `killProc` in `onEndTask`, with the test in `killSafe`. -/
def killProc (s : TaskProc) : TaskProc :=
  if s.pid ≠ 0 ∧ 1 < s.pid then
    { s with child := s.child.map fun c => if c.pid = s.pid then c.terminate else c }
  else s

/-- The next statement of `onStartTask`, `runHydraTask`, `waitExecTask` or `onEndTask`. -/
def exec (task : ListHydraTask) (cmds : CmdParams) (env : TaskEnv) (s : TaskProc) : TaskProc :=
  match s.pos with
  | .startPid => if env.pidFile then { s with pos := .loop } else { s with ret := -1, pos := .kill }
  | .loop => if s.hasStopTask then { s with pos := .kill } else { s with pos := .token }
  | .token =>
      match getNextToken s.saveptr ",".toList maxNameSize with
      | .ok (service, rest) => { s with service := service.text, saveptr := rest, pos := .format }
      | .error .empty => { s with ret := 0, pos := .kill }
      | .error _ => { s with ret := -1, pos := .kill }
  | .format =>
      let path := outfilePath task s.service
      if path.length < maxFilenamePathSize then { s with outfile := path, pos := .exec }
      else { s with outfile := path.take (maxFilenamePathSize - 1), ret := -1, pos := .kill }
  | .exec =>
      -- the entries of `cmds` point into the two arrays
      let s := { s with execs := s.execs ++ [cmds.argv s.service s.outfile] }
      match env.fork.filter fun pid => decide (1 < pid) with
      | some pid => { s with childPid := pid, child := some ⟨pid, .forked⟩, pos := .record }
      | none => { s with ret := -1, pos := .kill }
  | .record => { s with pid := s.childPid, pos := .wait }
  | .wait => s.waitpid
  | .blocked => s.waitpid
  | .interrupted =>
      if s.hasStopTask then { s with ret := 0, pos := .loop } else { s with pos := .wait }
  | .waited => { s with pid := 0, ret := 0, pos := .loop }
  | .kill => { s.killProc with pos := .done }
  | .done => s

/-- A handler has run: a blocked `waitpid` returns with `EINTR`. -/
def interrupt (s : TaskProc) : TaskProc :=
  if s.pos = .blocked then { s with pos := .interrupted } else s

/-- `hydraStopHandler`. -/
def stop (s : TaskProc) : TaskProc := { s.interrupt with hasStopTask := true }

end TaskProc

/-- What happens next: a statement of the process, one of the handlers, or a step of the child. -/
inductive TaskEvent where
  | next (env : TaskEnv)
  | stop
  | signal
  | childExec
  | childEnd
  deriving DecidableEq, Repr

/-- One step. -/
def taskProcNext (task : ListHydraTask) (cmds : CmdParams) (s : TaskProc) : TaskEvent → TaskProc
  | .next env => s.exec task cmds env
  | .stop => s.stop
  | .signal => s.interrupt
  | .childExec =>
      { s with child := s.child.map fun c =>
          if c.phase = .forked then { c with phase := .executing } else c }
  | .childEnd => { s with child := s.child.map fun c => { c with phase := .ended } }

/-- The task process after `handleChildSignal`. -/
def taskProcStart (task : ListHydraTask) : TaskProc := { saveptr := task.services.text }

/-- The state after these events. -/
def taskProcRun (task : ListHydraTask) (cmds : CmdParams) (es : List TaskEvent) : TaskProc :=
  run (taskProcNext task cmds) (taskProcStart task) es

/-! ### What is promised -/

/-- The services of the list. -/
def serviceTokens (task : ListHydraTask) : List Text := splitNoEmpty ',' task.services.text

/-- The arguments of hydra for a service: the entries of `cmds` with its name and its file. -/
def serviceArgv (task : ListHydraTask) (cmds : CmdParams) (service : Text) : List Text :=
  cmds.argv service (outfilePath task service)

/-- The child has not ended. -/
def TaskProc.ChildAlive (s : TaskProc) : Prop := ∃ c, s.child = some c ∧ c.phase ≠ .ended

/-- The calls so far are those for a prefix of the list, each once and in order. -/
def RunsOneByOne (task : ListHydraTask) (cmds : CmdParams) (s : TaskProc) : Prop :=
  ∃ k, s.execs = ((serviceTokens task).take k).map (serviceArgv task cmds)

/-- After a stop in `s` the process in `t` has made no further call, does not block on a live child
and, when it exits, has terminated its child. -/
structure StopHonoured (s t : TaskProc) : Prop where
  execs : t.execs = s.execs
  not_blocked : ¬(t.pos = .blocked ∧ t.ChildAlive)
  terminated : t.pos = .done → ¬t.ChildAlive

/-- The positions at which a stop comes too late: the flag has been found unset for a service that
is not waited for yet, or the child would still ignore `SIGTERM`. -/
def StopGap (s : TaskProc) : Prop :=
  match s.pos with
  | .token => s.saveptr ≠ []
  | .format => True
  | .exec => True
  | .record => s.ChildAlive
  | .wait => s.ChildAlive
  | .blocked => ∃ c, s.child = some c ∧ c.phase = .forked
  | .interrupted => ∃ c, s.child = some c ∧ c.phase = .forked
  | _ => False

/-- Neither a stop nor a call that fails. -/
def Undisturbed (_ : TaskProc) : TaskEvent → Prop
  | .next env => env.pidFile = true ∧ ∃ pid, env.fork = some pid ∧ 1 < pid
  | .stop => False
  | _ => True

/-! ### The tokens of an accepted list -/

/-- What is left of an accepted list behind a token. -/
def AcceptedRest (text : Text) : Prop := ∃ fuel, chkServicesLoop fuel true text = true

theorem acceptedRest_of_chkServices {services : Text} (h : chkServices services = true) :
    AcceptedRest services := by
  refine ⟨services.length + 1, ?_⟩
  unfold chkServices chkServicesLoop at h
  unfold chkServicesLoop
  cases htoken : getNextToken services ",".toList maxNameSize with
  | ok token =>
    rw [htoken] at h
    exact h
  | error e =>
    rw [htoken] at h
    cases e <;> simp_all

/-- The rest is empty, or the next token is a known service and leaves such a rest. -/
theorem AcceptedRest.cases {text : Text} (h : AcceptedRest text) :
    text = [] ∨ ∃ service rest, getNextToken text ",".toList maxNameSize = .ok (service, rest) ∧
      service.text ∈ sysServiceList ∧ AcceptedRest rest ∧
      splitNoEmpty ',' text = service.text :: splitNoEmpty ',' rest := by
  obtain ⟨fuel, h⟩ := h
  cases fuel with
  | zero => simp [chkServicesLoop] at h
  | succ fuel =>
    unfold chkServicesLoop at h
    cases htoken : getNextToken text ",".toList maxNameSize with
    | error e =>
      left
      rw [htoken] at h
      cases e with
      | empty =>
        unfold getNextToken at htoken
        split at htoken
        · rename_i hempty
          exact List.isEmpty_iff.mp hempty
        · dsimp only at htoken
          split at htoken
          · simp at htoken
          · simp at htoken
      | tooLong => simp at h
      | notDigit => simp at h
    | ok token =>
      obtain ⟨service, rest⟩ := token
      rw [htoken] at h
      dsimp only at h
      split at h
      swap
      · simp at h
      rename_i hservice
      refine Or.inr ⟨service, rest, rfl, hservice, ⟨fuel, h⟩, ?_⟩
      have hne : service.text ≠ [] := by
        intro hnil
        rw [hnil] at hservice
        exact absurd hservice (by decide)
      have hparts : getNextToken text [','] maxNameSize = .ok (service, rest) := htoken
      obtain ⟨hcomma, htext | ⟨htext, rfl⟩⟩ := getNextToken_eq_ok hparts
      · rw [htext, splitNoEmpty, List.splitOn_append_cons_self_of_not_mem hcomma]
        simp [splitNoEmpty, hne]
      · rw [htext, splitNoEmpty, List.splitOn_eq_singleton hcomma]
        simp [splitNoEmpty, hne]

/-! ### The calls -/

section Calls

variable {task : ListHydraTask} {cmds : CmdParams} {s : TaskProc}

/-- The token that has been read and not passed on. -/
def TaskProc.pending (s : TaskProc) : List Text :=
  if s.pos = .format ∨ s.pos = .exec then [s.service] else []

/-- The tokens of the list are those of the calls, the one in the array and those of the rest. -/
structure CallsInv (task : ListHydraTask) (cmds : CmdParams) (s : TaskProc) : Prop where
  accepted : AcceptedRest s.saveptr
  calls : ∃ called, serviceTokens task = called ++ (s.pending ++ splitNoEmpty ',' s.saveptr) ∧
    s.execs = called.map (serviceArgv task cmds)
  service : s.pos = .format ∨ s.pos = .exec → s.service ∈ sysServiceList
  outfile : s.pos = .exec → s.outfile = outfilePath task s.service

theorem CallsInv.runsOneByOne (h : CallsInv task cmds s) : RunsOneByOne task cmds s := by
  obtain ⟨called, htokens, hexecs⟩ := h.calls
  refine ⟨called.length, ?_⟩
  rw [hexecs, htokens, List.take_left]

/-- The path of an output file fits its array. -/
theorem length_outfilePath_lt (task : ListHydraTask) {service : Text}
    (h : service ∈ sysServiceList) : (outfilePath task service).length < maxFilenamePathSize := by
  have hid := task.taskId.fits
  have hdir : defHydraPrivDataDir.length = 32 := rfl
  have hservice : service.length ≤ 8 := by
    have hall : ∀ t ∈ sysServiceList, t.length ≤ 8 := by decide
    exact hall service h
  unfold maxUuidSize at hid
  simp only [outfilePath, hydraPaths, List.length_append, hdir, String.reduceToList,
    List.length_cons, List.length_nil, maxFilenamePathSize]
  omega

/-- A position at which no token is waiting in the array. -/
theorem CallsInv.move (h : CallsInv task cmds s) {t : TaskProc} (hsave : t.saveptr = s.saveptr)
    (hexecs : t.execs = s.execs) (hs : s.pos ≠ .format ∧ s.pos ≠ .exec)
    (ht : t.pos ≠ .format ∧ t.pos ≠ .exec) : CallsInv task cmds t := by
  have hpending : t.pending = s.pending := by
    simp [TaskProc.pending, hs.1, hs.2, ht.1, ht.2]
  refine ⟨hsave ▸ h.accepted, ?_, fun hpos => ?_, fun hpos => absurd hpos ht.2⟩
  · rw [hpending, hsave, hexecs]
    exact h.calls
  · rcases hpos with hpos | hpos
    · exact absurd hpos ht.1
    · exact absurd hpos ht.2

theorem CallsInv.waitpid (h : CallsInv task cmds s) (hs : s.pos ≠ .format ∧ s.pos ≠ .exec) :
    CallsInv task cmds s.waitpid := by
  unfold TaskProc.waitpid
  split
  · split
    · exact h.move rfl rfl hs (by simp)
    · exact h.move rfl rfl hs (by simp)
  · split
    · exact h.move rfl rfl hs (by simp)
    · exact h.move rfl rfl hs (by simp)

/-- `getNextToken` takes the next token of the list. -/
theorem CallsInv.token (h : CallsInv task cmds s) (hpos : s.pos = .token) (env : TaskEnv) :
    CallsInv task cmds (s.exec task cmds env) := by
  have hs : s.pos ≠ .format ∧ s.pos ≠ .exec := by simp [hpos]
  obtain ⟨called, htokens, hexecs⟩ := h.calls
  have hpending : s.pending = [] := by simp [TaskProc.pending, hpos]
  unfold TaskProc.exec
  rw [hpos]
  dsimp only
  rcases h.accepted.cases with hnil | ⟨service, rest, htoken, hservice, hrest, hsplit⟩
  · have htoken : getNextToken s.saveptr ",".toList maxNameSize = .error .empty := by
      rw [hnil]
      rfl
    rw [htoken]
    exact h.move rfl rfl hs (by simp)
  · rw [htoken]
    refine ⟨hrest, ⟨called, ?_, hexecs⟩, fun _ => hservice, fun hexec => by simp at hexec⟩
    rw [htokens, hpending, hsplit]
    simp [TaskProc.pending]

/-- `snprintf` of the output file has room. -/
theorem CallsInv.format (h : CallsInv task cmds s) (hpos : s.pos = .format) (env : TaskEnv) :
    CallsInv task cmds (s.exec task cmds env) := by
  have hservice := h.service (Or.inl hpos)
  obtain ⟨called, htokens, hexecs⟩ := h.calls
  unfold TaskProc.exec
  rw [hpos]
  dsimp only
  rw [if_pos (length_outfilePath_lt task hservice)]
  refine ⟨h.accepted, ⟨called, ?_, hexecs⟩, fun _ => hservice, fun _ => rfl⟩
  rw [htokens]
  simp [TaskProc.pending, hpos]

/-- `execvSafe` gets the arguments of the token in the array. -/
theorem CallsInv.call (h : CallsInv task cmds s) (hpos : s.pos = .exec) (env : TaskEnv) :
    CallsInv task cmds (s.exec task cmds env) := by
  obtain ⟨called, htokens, hexecs⟩ := h.calls
  have hfile := h.outfile hpos
  have hpending : s.pending = [s.service] := by simp [TaskProc.pending, hpos]
  have hcalled : ∃ called', serviceTokens task = called' ++ splitNoEmpty ',' s.saveptr ∧
      s.execs ++ [cmds.argv s.service s.outfile] = called'.map (serviceArgv task cmds) := by
    refine ⟨called ++ [s.service], ?_, ?_⟩
    · rw [htokens, hpending, List.append_assoc]
    · rw [hexecs, hfile, List.map_append]
      rfl
  unfold TaskProc.exec
  rw [hpos]
  dsimp only
  split
  · exact ⟨h.accepted, by simpa [TaskProc.pending] using hcalled, by simp, by simp⟩
  · exact ⟨h.accepted, by simpa [TaskProc.pending] using hcalled, by simp, by simp⟩

/-- A statement keeps the invariant. -/
theorem CallsInv.exec (h : CallsInv task cmds s) (env : TaskEnv) :
    CallsInv task cmds (s.exec task cmds env) := by
  have hmove : ∀ {t : TaskProc}, t.saveptr = s.saveptr → t.execs = s.execs →
      s.pos ≠ .format ∧ s.pos ≠ .exec → t.pos ≠ .format ∧ t.pos ≠ .exec →
      CallsInv task cmds t := fun hsave hexecs hs ht => h.move hsave hexecs hs ht
  cases hpos : s.pos with
  | token => exact h.token hpos env
  | format => exact h.format hpos env
  | exec => exact h.call hpos env
  | startPid | loop | interrupted =>
    simp only [TaskProc.exec, hpos]
    split
    · exact hmove rfl rfl (by simp [hpos]) (by simp)
    · exact hmove rfl rfl (by simp [hpos]) (by simp)
  | record | waited =>
    simp only [TaskProc.exec, hpos]
    exact hmove rfl rfl (by simp [hpos]) (by simp)
  | wait | blocked =>
    simp only [TaskProc.exec, hpos]
    exact h.waitpid (by simp [hpos])
  | kill =>
    simp only [TaskProc.exec, hpos]
    refine hmove ?_ ?_ (by simp [hpos]) (by simp)
    · unfold TaskProc.killProc
      split <;> rfl
    · unfold TaskProc.killProc
      split <;> rfl
  | done =>
    simp only [TaskProc.exec, hpos]
    exact h

/-- A handler keeps the invariant. -/
theorem CallsInv.interrupt (h : CallsInv task cmds s) : CallsInv task cmds s.interrupt := by
  unfold TaskProc.interrupt
  split
  · rename_i hpos
    exact h.move rfl rfl (by simp [hpos]) (by simp)
  · exact h

/-- Every event keeps the invariant. -/
theorem CallsInv.next (h : CallsInv task cmds s) (e : TaskEvent) :
    CallsInv task cmds (taskProcNext task cmds s e) := by
  cases e with
  | next env => exact h.exec env
  | stop =>
    have hint := h.interrupt
    exact ⟨hint.accepted, hint.calls, hint.service, hint.outfile⟩
  | signal => exact h.interrupt
  | childExec => exact ⟨h.accepted, h.calls, h.service, h.outfile⟩
  | childEnd => exact ⟨h.accepted, h.calls, h.service, h.outfile⟩

theorem callsInv_start (hchk : chkServices task.services.text = true) :
    CallsInv task cmds (taskProcStart task) :=
  ⟨acceptedRest_of_chkServices hchk, ⟨[], rfl, rfl⟩, by simp [taskProcStart],
    by simp [taskProcStart]⟩

/-- The invariant holds after every run. -/
theorem callsInv_run (hchk : chkServices task.services.text = true) (es : List TaskEvent) :
    CallsInv task cmds (taskProcRun task cmds es) :=
  invariant_run (fun _ e h => h.next e) (callsInv_start hchk) es

/-! ### The child -/

/-- The child at every position: there is one while it is waited for, and after that only one that a
stop has left. -/
def ChildInv (s : TaskProc) : Prop :=
  match s.pos with
  | .record => ∃ c, s.child = some c ∧ c.pid = s.childPid ∧ 1 < c.pid
  | .wait | .blocked | .interrupted =>
      ∃ c, s.child = some c ∧ c.pid = s.childPid ∧ 1 < c.pid ∧ s.pid = c.pid
  | .loop | .kill | .done => ∀ c, s.child = some c → s.hasStopTask = true ∧ 1 < c.pid ∧ s.pid = c.pid
  | _ => s.child = none

/-- A waiting process has a child, and `waitpid` finds it. -/
theorem waitpid_eq {c : ExecChild} (hchild : s.child = some c) (hpid : c.pid = s.childPid) :
    s.waitpid = if c.phase = .ended then { s with child := none, pos := .waited }
      else { s with pos := .blocked } := by
  have hfound : s.child.filter (fun c => c.pid == s.childPid) = some c := by
    simp [hchild, hpid, Option.filter]
  unfold TaskProc.waitpid
  rw [hfound]

theorem ChildInv.waitpid {c : ExecChild} (hchild : s.child = some c) (hpid : c.pid = s.childPid)
    (hpos : 1 < c.pid) (hown : s.pid = c.pid) : ChildInv s.waitpid := by
  rw [waitpid_eq hchild hpid]
  split
  · exact rfl
  · exact ⟨c, hchild, hpid, hpos, hown⟩

/-- `killProc` keeps the id of the child. -/
theorem killProc_child {c : ExecChild} (h : s.killProc.child = some c) :
    ∃ d, s.child = some d ∧ d.pid = c.pid := by
  unfold TaskProc.killProc at h
  split at h
  · obtain ⟨d, hd, rfl⟩ := Option.map_eq_some_iff.mp h
    refine ⟨d, hd, ?_⟩
    unfold ExecChild.terminate
    split
    · split <;> rfl
    · rfl
  · exact ⟨c, h, rfl⟩

@[simp] theorem killProc_pid (s : TaskProc) : s.killProc.pid = s.pid := by
  unfold TaskProc.killProc
  split <;> rfl

@[simp] theorem killProc_hasStopTask (s : TaskProc) :
    s.killProc.hasStopTask = s.hasStopTask := by
  unfold TaskProc.killProc
  split <;> rfl

@[simp] theorem killProc_execs (s : TaskProc) : s.killProc.execs = s.execs := by
  unfold TaskProc.killProc
  split <;> rfl

theorem ChildInv.exec (h : ChildInv s) (env : TaskEnv) : ChildInv (s.exec task cmds env) := by
  unfold ChildInv at h
  cases hpos : s.pos with
  | startPid =>
    simp only [hpos] at h
    simp only [TaskProc.exec, hpos]
    split <;> simp [ChildInv, h]
  | loop =>
    simp only [hpos] at h
    simp only [TaskProc.exec, hpos]
    split
    · exact h
    · rename_i hstop
      cases hchild : s.child with
      | none => exact rfl
      | some c => exact absurd (h c hchild).1 hstop
  | token | format =>
    simp only [hpos] at h
    simp only [TaskProc.exec, hpos]
    split <;> simp [ChildInv, h]
  | exec =>
    simp only [hpos] at h
    simp only [TaskProc.exec, hpos]
    split
    · rename_i pid hfork
      have hpid : 1 < pid := by
        have hfilter := (Option.filter_eq_some_iff.mp hfork).2
        simpa using hfilter
      exact ⟨⟨pid, .forked⟩, rfl, rfl, hpid⟩
    · simp [ChildInv, h]
  | record =>
    simp only [hpos] at h
    obtain ⟨c, hchild, hpid, hone⟩ := h
    simp only [TaskProc.exec, hpos]
    exact ⟨c, hchild, hpid, hone, hpid.symm⟩
  | wait | blocked =>
    simp only [hpos] at h
    obtain ⟨c, hchild, hpid, hone, hown⟩ := h
    simp only [TaskProc.exec, hpos]
    exact ChildInv.waitpid hchild hpid hone hown
  | interrupted =>
    simp only [hpos] at h
    obtain ⟨c, hchild, hpid, hone, hown⟩ := h
    simp only [TaskProc.exec, hpos]
    split
    · rename_i hstop
      intro d hd
      obtain rfl := Option.some.inj (hchild.symm.trans hd)
      exact ⟨hstop, hone, hown⟩
    · exact ⟨c, hchild, hpid, hone, hown⟩
  | waited =>
    simp only [hpos] at h
    simp only [TaskProc.exec, hpos]
    simp [ChildInv, h]
  | kill =>
    simp only [hpos] at h
    simp only [TaskProc.exec, hpos]
    intro c hc
    obtain ⟨d, hd, hpid⟩ := killProc_child hc
    have hkept := h d hd
    rw [hpid] at hkept
    simpa using hkept
  | done =>
    simp only [TaskProc.exec, hpos]
    simpa only [ChildInv, hpos] using h

/-- A handler keeps the child, and its position is one at which the child is waited for. -/
theorem ChildInv.interrupt (h : ChildInv s) : ChildInv s.interrupt := by
  unfold TaskProc.interrupt
  split
  · rename_i hpos
    simpa only [ChildInv, hpos] using h
  · exact h

/-- The child does something and keeps its id. -/
theorem ChildInv.mapChild (h : ChildInv s) {f : ExecChild → ExecChild}
    (hf : ∀ c, (f c).pid = c.pid) : ChildInv { s with child := s.child.map f } := by
  have hsome : ∀ P : ℕ → Prop, (∃ c, s.child = some c ∧ P c.pid) →
      ∃ c, s.child.map f = some c ∧ P c.pid := by
    rintro P ⟨c, hchild, hc⟩
    exact ⟨f c, by rw [hchild, Option.map_some], by rwa [hf]⟩
  have hall : ∀ P : ℕ → Prop, (∀ c, s.child = some c → P c.pid) →
      ∀ c, s.child.map f = some c → P c.pid := by
    intro P hchild c hc
    obtain ⟨d, hd, rfl⟩ := Option.map_eq_some_iff.mp hc
    rw [hf]
    exact hchild d hd
  unfold ChildInv at h ⊢
  cases hpos : s.pos with
  | record =>
    simp only [hpos] at h
    exact hsome (fun pid => pid = s.childPid ∧ 1 < pid) h
  | wait | blocked | interrupted =>
    simp only [hpos] at h
    exact hsome (fun pid => pid = s.childPid ∧ 1 < pid ∧ s.pid = pid) h
  | loop | kill | done =>
    simp only [hpos] at h
    exact hall (fun pid => s.hasStopTask = true ∧ 1 < pid ∧ s.pid = pid) h
  | startPid | token | format | exec | waited =>
    simp only [hpos] at h
    simp [h]

/-- The flag only matters where a child may be left. -/
theorem ChildInv.setFlag (h : ChildInv s) : ChildInv { s with hasStopTask := true } := by
  unfold ChildInv at h ⊢
  cases hpos : s.pos with
  | loop | kill | done =>
    simp only [hpos] at h
    exact fun c hc => ⟨rfl, (h c hc).2⟩
  | _ =>
    simp only [hpos] at h
    exact h

theorem ChildInv.next (h : ChildInv s) (e : TaskEvent) :
    ChildInv (taskProcNext task cmds s e) := by
  cases e with
  | next env => exact h.exec env
  | stop => exact h.interrupt.setFlag
  | signal => exact h.interrupt
  | childExec =>
    refine h.mapChild fun c => ?_
    split <;> rfl
  | childEnd => exact h.mapChild fun _ => rfl

theorem childInv_run (es : List TaskEvent) : ChildInv (taskProcRun task cmds es) := by
  have hstep : ∀ s e, ChildInv s → ChildInv (taskProcNext task cmds s e) := fun _ e h => h.next e
  have hstart : ChildInv (taskProcStart task) := rfl
  exact invariant_run hstep hstart es

/-! ### A run without a stop -/

/-- Without a stop and without a failure the process ends behind the last token. -/
structure Completing (task : ListHydraTask) (cmds : CmdParams) (s : TaskProc) : Prop where
  calls : CallsInv task cmds s
  child : ChildInv s
  flag : s.hasStopTask = false
  ended : s.pos = .kill ∨ s.pos = .done → s.saveptr = []

@[simp] theorem killProc_saveptr (s : TaskProc) : s.killProc.saveptr = s.saveptr := by
  unfold TaskProc.killProc
  split <;> rfl

/-- A statement that succeeds does not end the loop in front of a token. -/
theorem Completing.exec (h : Completing task cmds s) {env : TaskEnv}
    (hfile : env.pidFile = true) {pid : ℕ} (hfork : env.fork = some pid) (hpid : 1 < pid) :
    Completing task cmds (s.exec task cmds env) := by
  have hcalls := h.calls.exec env
  have hchild : ChildInv (s.exec task cmds env) := h.child.exec env
  suffices hrest : (s.exec task cmds env).hasStopTask = false ∧
      ((s.exec task cmds env).pos = .kill ∨ (s.exec task cmds env).pos = .done →
        (s.exec task cmds env).saveptr = []) from ⟨hcalls, hchild, hrest.1, hrest.2⟩
  have hflag := h.flag
  have hinv := h.child
  unfold ChildInv at hinv
  cases hpos : s.pos with
  | startPid => simp [TaskProc.exec, hpos, hfile, hflag]
  | loop => simp [TaskProc.exec, hpos, hflag]
  | token =>
    rcases h.calls.accepted.cases with hnil | ⟨service, rest, htoken, -⟩
    · have htoken : getNextToken s.saveptr ",".toList maxNameSize = .error .empty := by
        rw [hnil]
        rfl
      simp only [TaskProc.exec, hpos, htoken]
      exact ⟨hflag, fun _ => hnil⟩
    · simp only [TaskProc.exec, hpos, htoken]
      exact ⟨hflag, by simp⟩
  | format =>
    have hroom := length_outfilePath_lt task (h.calls.service (Or.inl hpos))
    simp [TaskProc.exec, hpos, hroom, hflag]
  | exec => simp [TaskProc.exec, hpos, hfork, Option.filter, hpid, hflag]
  | record => simp [TaskProc.exec, hpos, hflag]
  | wait | blocked =>
    simp only [hpos] at hinv
    obtain ⟨c, hc, hown, -⟩ := hinv
    simp only [TaskProc.exec, hpos, waitpid_eq hc hown]
    split
    · exact ⟨hflag, by simp⟩
    · exact ⟨hflag, by simp⟩
  | interrupted => simp [TaskProc.exec, hpos, hflag]
  | waited => simp [TaskProc.exec, hpos, hflag]
  | kill =>
    have hsave := h.ended (Or.inl hpos)
    simp [TaskProc.exec, hpos, hflag, hsave]
  | done =>
    have hsave := h.ended (Or.inr hpos)
    simp [TaskProc.exec, hpos, hflag, hsave]

theorem Completing.interrupt (h : Completing task cmds s) : Completing task cmds s.interrupt := by
  have hcalls := h.calls.interrupt
  have hchild := h.child.interrupt
  unfold TaskProc.interrupt at *
  split at hcalls
  · rename_i hpos
    rw [if_pos hpos] at hchild ⊢
    exact ⟨hcalls, hchild, h.flag, by simp⟩
  · rename_i hpos
    rw [if_neg hpos]
    exact h

theorem Completing.next (h : Completing task cmds s) {e : TaskEvent} (he : Undisturbed s e) :
    Completing task cmds (taskProcNext task cmds s e) := by
  have hchild : ChildInv (taskProcNext task cmds s e) := h.child.next e
  cases e with
  | next env =>
    obtain ⟨hfile, pid, hfork, hpid⟩ := he
    exact h.exec hfile hfork hpid
  | stop => exact he.elim
  | signal => exact h.interrupt
  | childExec => exact ⟨h.calls.next .childExec, hchild, h.flag, h.ended⟩
  | childEnd => exact ⟨h.calls.next .childEnd, hchild, h.flag, h.ended⟩

/-- Without a stop and without a failure the calls are those for the whole list. -/
theorem execs_of_undisturbed (hchk : chkServices task.services.text = true) {es : List TaskEvent}
    (hes : Along (taskProcNext task cmds) Undisturbed (taskProcStart task) es)
    (hdone : (taskProcRun task cmds es).pos = .done) :
    (taskProcRun task cmds es).execs = (serviceTokens task).map (serviceArgv task cmds) := by
  have hstart : Completing task cmds (taskProcStart task) :=
    ⟨callsInv_start hchk, rfl, rfl, by simp [taskProcStart]⟩
  have hend := hes.invariant (fun _ _ he h => h.next he) hstart
  change Completing task cmds (taskProcRun task cmds es) at hend
  obtain ⟨called, htokens, hexecs⟩ := hend.calls.calls
  have hpending : (taskProcRun task cmds es).pending = [] := by
    simp [TaskProc.pending, hdone]
  have hsave : splitNoEmpty ',' (taskProcRun task cmds es).saveptr = [] := by
    rw [hend.ended (Or.inr hdone)]
    rfl
  rw [hexecs, htokens, hpending, hsave, List.append_nil, List.append_nil]

/-! ### A stop in time -/

/-- After a stop in time no call follows: the process is at no position that leads to one, its child
executes hydra or has ended, and it waits for an ended one only. -/
structure Winding (execs : List (List Text)) (s : TaskProc) : Prop where
  flag : s.hasStopTask = true
  execs_eq : s.execs = execs
  child : ChildInv s
  phase : ∀ c, s.child = some c → c.phase ≠ .forked
  pos : match s.pos with
    | .token => s.saveptr = []
    | .format | .exec | .blocked => False
    | .record | .wait | .done => ¬s.ChildAlive
    | _ => True

variable {execs : List (List Text)}

theorem Winding.stopHonoured (h : Winding execs s) {t : TaskProc} (ht : t.execs = execs) :
    StopHonoured t s := by
  have hpos := h.pos
  refine ⟨h.execs_eq.trans ht.symm, ?_, ?_⟩
  · rintro ⟨hblocked, -⟩
    rw [hblocked] at hpos
    exact hpos
  · intro hdone
    rw [hdone] at hpos
    exact hpos

/-- `killProc` ends a child that executes hydra. -/
theorem not_childAlive_killProc (h : ∀ c, s.child = some c → c.phase ≠ .forked)
    (hown : ∀ c, s.child = some c → 1 < c.pid ∧ s.pid = c.pid) : ¬s.killProc.ChildAlive := by
  rintro ⟨c, hc, halive⟩
  obtain ⟨d, hd, -⟩ := killProc_child hc
  obtain ⟨hone, hpid⟩ := hown d hd
  have hphase := h d hd
  unfold TaskProc.killProc at hc
  rw [if_pos ⟨by omega, by omega⟩, hd] at hc
  obtain rfl := Option.some.inj hc
  change (if d.pid = s.pid then d.terminate else d).phase ≠ .ended at halive
  rw [if_pos hpid.symm] at halive
  unfold ExecChild.terminate at halive
  split at halive
  · exact halive rfl
  · rename_i hnot
    cases hd : d.phase with
    | forked => exact hphase hd
    | executing => exact hnot hd
    | ended => exact halive hd

theorem Winding.exec (h : Winding execs s) (env : TaskEnv) :
    Winding execs (s.exec task cmds env) := by
  have hchild : ChildInv (s.exec task cmds env) := h.child.exec env
  obtain ⟨hflag, hexecs, hinv, hphase, hat⟩ := h
  unfold ChildInv at hinv
  cases hpos : s.pos with
  | startPid =>
    simp only [TaskProc.exec, hpos] at hchild ⊢
    split at hchild
    · rename_i hfile
      rw [if_pos hfile]
      exact ⟨hflag, hexecs, hchild, hphase, trivial⟩
    · rename_i hfile
      rw [if_neg hfile]
      exact ⟨hflag, hexecs, hchild, hphase, trivial⟩
  | loop =>
    simp only [TaskProc.exec, hpos, hflag, if_true] at hchild ⊢
    exact ⟨rfl, hexecs, hchild, hphase, trivial⟩
  | token =>
    rw [hpos] at hat
    have htoken : getNextToken s.saveptr ",".toList maxNameSize = .error .empty := by
      rw [hat]
      rfl
    simp only [TaskProc.exec, hpos, htoken] at hchild ⊢
    exact ⟨hflag, hexecs, hchild, hphase, trivial⟩
  | format | exec | blocked =>
    rw [hpos] at hat
    exact hat.elim
  | record =>
    rw [hpos] at hat
    simp only [TaskProc.exec, hpos] at hchild ⊢
    exact ⟨hflag, hexecs, hchild, hphase, hat⟩
  | wait =>
    rw [hpos] at hat
    simp only [hpos] at hinv
    obtain ⟨c, hc, hown, -⟩ := hinv
    have hended : c.phase = .ended := by
      by_contra hne
      exact hat ⟨c, hc, hne⟩
    simp only [TaskProc.exec, hpos, waitpid_eq hc hown, if_pos hended] at hchild ⊢
    exact ⟨hflag, hexecs, hchild, by simp, trivial⟩
  | interrupted =>
    simp only [TaskProc.exec, hpos, hflag, if_true] at hchild ⊢
    exact ⟨rfl, hexecs, hchild, hphase, trivial⟩
  | waited =>
    simp only [TaskProc.exec, hpos] at hchild ⊢
    exact ⟨hflag, hexecs, hchild, hphase, trivial⟩
  | kill =>
    simp only [hpos] at hinv
    simp only [TaskProc.exec, hpos] at hchild ⊢
    have hdead := not_childAlive_killProc hphase fun c hc => (hinv c hc).2
    refine ⟨by simpa using hflag, by simpa using hexecs, hchild, ?_, hdead⟩
    intro c hc hforked
    exact hdead ⟨c, hc, by simp [hforked]⟩
  | done =>
    simp only [TaskProc.exec, hpos]
    exact ⟨hflag, hexecs, by simpa only [ChildInv, hpos] using hinv, hphase,
      by simpa only [hpos] using hat⟩

/-- The child goes on; it ends or executes its program. -/
theorem Winding.mapChild (h : Winding execs s) {f : ExecChild → ExecChild}
    (hpid : ∀ c, (f c).pid = c.pid) (hphase : ∀ c, (f c).phase ≠ .forked)
    (hended : ∀ c, c.phase = .ended → (f c).phase = .ended) :
    Winding execs { s with child := s.child.map f } := by
  refine ⟨h.flag, h.execs_eq, h.child.mapChild hpid, ?_, ?_⟩
  · intro c hc
    obtain ⟨d, -, rfl⟩ := Option.map_eq_some_iff.mp hc
    exact hphase d
  · have hdead : ¬s.ChildAlive → ¬TaskProc.ChildAlive { s with child := s.child.map f } := by
      rintro hdead ⟨c, hc, halive⟩
      obtain ⟨d, hd, rfl⟩ := Option.map_eq_some_iff.mp hc
      exact hdead ⟨d, hd, fun hphase => halive (hended d hphase)⟩
    have hpos := h.pos
    cases hs : s.pos with
    | record | wait | done =>
      rw [hs] at hpos
      exact hdead hpos
    | _ =>
      rw [hs] at hpos
      exact hpos

theorem interrupt_of_ne (h : s.pos ≠ .blocked) : s.interrupt = s := if_neg h

theorem Winding.next (h : Winding execs s) (e : TaskEvent) :
    Winding execs (taskProcNext task cmds s e) := by
  have hint : s.interrupt = s := by
    apply interrupt_of_ne
    intro hblocked
    have hpos := h.pos
    rw [hblocked] at hpos
    exact hpos
  cases e with
  | next env => exact h.exec env
  | stop =>
    change Winding execs { s.interrupt with hasStopTask := true }
    rw [hint]
    exact ⟨rfl, h.execs_eq, h.child.setFlag, h.phase, h.pos⟩
  | signal =>
    change Winding execs s.interrupt
    rw [hint]
    exact h
  | childExec =>
    refine h.mapChild (fun c => ?_) (fun c => ?_) fun c hc => ?_
    · split <;> rfl
    · split
      · simp
      · assumption
    · rw [if_neg (by simp [hc])]
      exact hc
  | childEnd => exact h.mapChild (fun _ => rfl) (by simp) (by simp)

/-- A stop outside of the gap is in time. -/
theorem winding_stop (hinv : ChildInv s) (hflag : s.hasStopTask = false) (hgap : ¬StopGap s) :
    Winding s.execs s.stop := by
  have hchild := hinv.interrupt.setFlag
  have hexecs : s.interrupt.execs = s.execs := by
    unfold TaskProc.interrupt
    split <;> rfl
  have hsame : s.interrupt.child = s.child := by
    unfold TaskProc.interrupt
    split <;> rfl
  unfold StopGap at hgap
  unfold ChildInv at hinv
  refine ⟨rfl, hexecs, hchild, ?_, ?_⟩
  · intro c hc hforked
    change s.interrupt.child = some c at hc
    rw [hsame] at hc
    have halive : s.ChildAlive := ⟨c, hc, by simp [hforked]⟩
    cases hpos : s.pos with
    | startPid | token | format | exec | waited => simp [hpos, hc] at hinv
    | loop | kill | done =>
      simp only [hpos] at hinv
      exact absurd (hinv c hc).1 (by simp [hflag])
    | record | wait =>
      rw [hpos] at hgap
      exact hgap halive
    | blocked | interrupted =>
      rw [hpos] at hgap
      exact hgap ⟨c, hc, hforked⟩
  · change match s.interrupt.pos with
      | .token => s.interrupt.saveptr = []
      | .format | .exec | .blocked => False
      | .record | .wait | .done => ¬s.interrupt.ChildAlive
      | _ => True
    by_cases hblocked : s.pos = .blocked
    · simp [TaskProc.interrupt, hblocked]
    rw [interrupt_of_ne hblocked]
    cases hpos : s.pos with
    | blocked => exact hblocked hpos
    | token =>
      rw [hpos] at hgap
      exact not_not.mp hgap
    | format | exec =>
      rw [hpos] at hgap
      exact hgap trivial
    | record | wait =>
      rw [hpos] at hgap
      exact hgap
    | done =>
      simp only [hpos] at hinv
      rintro ⟨c, hc, -⟩
      exact absurd (hinv c hc).1 (by simp [hflag])
    | startPid | loop | interrupted | waited | kill => trivial

/-- **A stop in time.** After it the process honours the stop in every continuation. -/
theorem stopHonoured_of_not_gap (hinv : ChildInv s) (hflag : s.hasStopTask = false)
    (hgap : ¬StopGap s) (es : List TaskEvent) :
    StopHonoured s (run (taskProcNext task cmds) s.stop es) := by
  have hstep : ∀ t e, Winding s.execs t → Winding s.execs (taskProcNext task cmds t e) :=
    fun _ e h => h.next e
  exact (invariant_run hstep (winding_stop hinv hflag hgap) es).stopHonoured rfl

/-! ### A stop in the gap -/

/-- In front of `execvSafe` the call follows. -/
theorem call_follows (env : TaskEnv) (hcalls : CallsInv task cmds s)
    (hpos : s.pos = .token ∧ s.saveptr ≠ [] ∨ s.pos = .format ∨ s.pos = .exec) :
    ∃ es, (run (taskProcNext task cmds) s es).execs ≠ s.execs := by
  have hexec : ∀ t : TaskProc, t.pos = .exec → (t.exec task cmds env).execs ≠ t.execs := by
    intro t ht
    simp only [TaskProc.exec, ht]
    split <;> simp
  have hformat : ∀ t : TaskProc, CallsInv task cmds t → t.pos = .format →
      (run (taskProcNext task cmds) t [.next env, .next env]).execs ≠ t.execs := by
    intro t ht hpos
    have hroom := length_outfilePath_lt task (ht.service (Or.inl hpos))
    have hnext : t.exec task cmds env =
        { t with outfile := outfilePath task t.service, pos := .exec } := by
      simp only [TaskProc.exec, hpos, if_pos hroom]
    have hcall := hexec (t.exec task cmds env) (by rw [hnext])
    have hsame : (t.exec task cmds env).execs = t.execs := by rw [hnext]
    rw [hsame] at hcall
    exact hcall
  rcases hpos with ⟨hpos, hrest⟩ | hpos | hpos
  · obtain hnil | ⟨service, rest, htoken, -⟩ := hcalls.accepted.cases
    · exact absurd hnil hrest
    · refine ⟨[.next env, .next env, .next env], ?_⟩
      have hnext : s.exec task cmds env =
          { s with service := service.text, saveptr := rest, pos := .format } := by
        simp only [TaskProc.exec, hpos, htoken]
      have hcall := hformat (s.exec task cmds env) (hcalls.exec env) (by rw [hnext])
      have hsame : (s.exec task cmds env).execs = s.execs := by rw [hnext]
      rw [hsame] at hcall
      exact hcall
  · exact ⟨[.next env, .next env], hformat s hcalls hpos⟩
  · exact ⟨[.next env], hexec s hpos⟩

/-- In front of `waitpid` the process blocks on a live child. -/
theorem block_follows (env : TaskEnv) (hinv : ChildInv s) (halive : s.ChildAlive)
    (hpos : s.pos = .record ∨ s.pos = .wait) :
    ∃ es, (run (taskProcNext task cmds) s es).pos = .blocked ∧
      (run (taskProcNext task cmds) s es).ChildAlive := by
  have hwait : ∀ t : TaskProc, ChildInv t → t.ChildAlive → t.pos = .wait →
      (t.exec task cmds env).pos = .blocked ∧ (t.exec task cmds env).ChildAlive := by
    rintro t ht ⟨c, hc, halive⟩ hpos
    unfold ChildInv at ht
    simp only [hpos] at ht
    obtain ⟨d, hd, hown, -⟩ := ht
    obtain rfl := Option.some.inj (hc.symm.trans hd)
    simp only [TaskProc.exec, hpos, waitpid_eq hc hown, if_neg halive]
    exact ⟨trivial, c, hc, halive⟩
  rcases hpos with hpos | hpos
  · refine ⟨[.next env, .next env], ?_⟩
    have hnext : s.exec task cmds env = { s with pid := s.childPid, pos := .wait } := by
      simp only [TaskProc.exec, hpos]
    have halive' : (s.exec task cmds env).ChildAlive := by
      rw [hnext]
      exact halive
    exact hwait (s.exec task cmds env) (hinv.exec env) halive' (by rw [hnext])
  · exact ⟨[.next env], hwait s hinv halive hpos⟩

/-- A child in front of `execv` survives the end of the task. -/
theorem survivor_follows (env : TaskEnv) {c : ExecChild} (hflag : s.hasStopTask = true)
    (hc : s.child = some c) (hforked : c.phase = .forked) (hpos : s.pos = .interrupted) :
    ∃ es, (run (taskProcNext task cmds) s es).pos = .done ∧
      (run (taskProcNext task cmds) s es).ChildAlive := by
  refine ⟨[.next env, .next env, .next env], ?_⟩
  let t : TaskProc := { s with hasStopTask := true, ret := 0, pos := .kill }
  have hthree : run (taskProcNext task cmds) s [.next env, .next env, .next env] =
      { t.killProc with pos := .done } := by
    simp only [run_cons, run_nil, taskProcNext, TaskProc.exec, hpos, hflag, if_true]
    rfl
  rw [hthree]
  refine ⟨rfl, c, ?_, by simp [hforked]⟩
  change t.killProc.child = some c
  unfold TaskProc.killProc
  split
  · simp [t, hc, ExecChild.terminate, hforked]
  · exact hc

/-- In the gap some continuation does not honour the stop. -/
theorem exists_not_stopHonoured (hcalls : CallsInv task cmds s) (hinv : ChildInv s)
    (hgap : StopGap s) : ∃ es, ¬StopHonoured s (run (taskProcNext task cmds) s.stop es) := by
  let env : TaskEnv := ⟨none, true⟩
  have hstopCalls : CallsInv task cmds s.stop := hcalls.next .stop
  have hstopInv : ChildInv s.stop := hinv.interrupt.setFlag
  unfold StopGap at hgap
  cases hpos : s.pos with
  | startPid | loop | waited | kill | done =>
    rw [hpos] at hgap
    exact hgap.elim
  | token | format | exec =>
    have hint : s.interrupt = s := interrupt_of_ne (by simp [hpos])
    have hstop : s.stop = { s with hasStopTask := true } := by rw [TaskProc.stop, hint]
    have hbefore : s.stop.pos = .token ∧ s.stop.saveptr ≠ [] ∨ s.stop.pos = .format ∨
        s.stop.pos = .exec := by
      rw [hstop]
      rw [hpos] at hgap
      simp_all
    obtain ⟨es, hes⟩ := call_follows env hstopCalls hbefore
    have hsame : s.stop.execs = s.execs := by rw [hstop]
    exact ⟨es, fun h => hes (h.execs.trans hsame.symm)⟩
  | record | wait =>
    have hint : s.interrupt = s := interrupt_of_ne (by simp [hpos])
    have hstop : s.stop = { s with hasStopTask := true } := by rw [TaskProc.stop, hint]
    have hbefore : s.stop.pos = .record ∨ s.stop.pos = .wait := by
      rw [hstop]
      simp [hpos]
    have halive : s.stop.ChildAlive := by
      rw [hstop]
      rw [hpos] at hgap
      exact hgap
    have hblock : ∃ es, (run (taskProcNext task cmds) s.stop es).pos = .blocked ∧
        (run (taskProcNext task cmds) s.stop es).ChildAlive :=
      block_follows env hstopInv halive hbefore
    obtain ⟨es, hes⟩ := hblock
    exact ⟨es, fun h => h.not_blocked hes⟩
  | blocked | interrupted =>
    rw [hpos] at hgap
    obtain ⟨c, hc, hforked⟩ := hgap
    have hchild : s.stop.child = some c := by
      unfold TaskProc.stop TaskProc.interrupt
      split <;> exact hc
    have hbefore : s.stop.pos = .interrupted := by
      simp [TaskProc.stop, TaskProc.interrupt, hpos]
    have hsurvive : ∃ es, (run (taskProcNext task cmds) s.stop es).pos = .done ∧
        (run (taskProcNext task cmds) s.stop es).ChildAlive :=
      survivor_follows env rfl hchild hforked hbefore
    obtain ⟨es, hdone, halive⟩ := hsurvive
    exact ⟨es, fun h => h.terminated hdone halive⟩

/-! ### Every position of the signal -/

/-- A statement does not touch the flag. -/
theorem hasStopTask_exec (s : TaskProc) (env : TaskEnv) :
    (s.exec task cmds env).hasStopTask = s.hasStopTask := by
  have hwait : s.waitpid.hasStopTask = s.hasStopTask := by
    unfold TaskProc.waitpid
    split
    · split <;> rfl
    · split <;> rfl
  cases hpos : s.pos with
  | wait | blocked => simpa only [TaskProc.exec, hpos] using hwait
  | kill => simp [TaskProc.exec, hpos]
  | record | waited | done => simp only [TaskProc.exec, hpos]
  | startPid | loop | interrupted | token | format | exec =>
    simp only [TaskProc.exec, hpos]
    split <;> rfl

/-- Without a stop the flag is not set. -/
theorem hasStopTask_run {es : List TaskEvent} (hes : ∀ e ∈ es, e ≠ .stop) :
    (taskProcRun task cmds es).hasStopTask = false := by
  have hstep : ∀ (s : TaskProc) (e : TaskEvent), e ≠ .stop →
      (taskProcNext task cmds s e).hasStopTask = s.hasStopTask := by
    intro s e he
    cases e with
    | next env => exact hasStopTask_exec s env
    | stop => exact absurd rfl he
    | signal =>
      change s.interrupt.hasStopTask = s.hasStopTask
      unfold TaskProc.interrupt
      split <;> rfl
    | childExec => rfl
    | childEnd => rfl
  unfold taskProcRun
  generalize hstart : taskProcStart task = s
  have hflag : s.hasStopTask = false := by
    rw [← hstart]
    rfl
  clear hstart
  induction es generalizing s with
  | nil => exact hflag
  | cons e es ih =>
    refine ih (fun d hd => hes d (by simp [hd])) _ ?_
    rw [hstep s e (hes e (by simp)), hflag]

end Calls

/-- **Services run one by one, and when a stop is honoured.** In every run the calls are those for a
prefix of the list, each with the name and the file of its own service, and for the whole list when
nothing disturbs the process. A stop at a position is honoured in every continuation exactly when
the position is not in the gap. -/
theorem services_stop_iff {task : ListHydraTask} (hchk : chkServices task.services.text = true)
    (cmds : CmdParams) :
    (∀ es, RunsOneByOne task cmds (taskProcRun task cmds es)) ∧
    (∀ es, Along (taskProcNext task cmds) Undisturbed (taskProcStart task) es →
      (taskProcRun task cmds es).pos = .done →
      (taskProcRun task cmds es).execs = (serviceTokens task).map (serviceArgv task cmds)) ∧
    ∀ es, (∀ e ∈ es, e ≠ .stop) →
      ((∀ es', StopHonoured (taskProcRun task cmds es)
          (taskProcRun task cmds (es ++ .stop :: es'))) ↔
        ¬StopGap (taskProcRun task cmds es)) := by
  refine ⟨fun es => (callsInv_run hchk es).runsOneByOne, fun es => execs_of_undisturbed hchk, ?_⟩
  intro es hes
  have hafter : ∀ es', taskProcRun task cmds (es ++ .stop :: es') =
      run (taskProcNext task cmds) (taskProcRun task cmds es).stop es' := fun es' => by
    rw [taskProcRun, run_append, run_cons]
    rfl
  simp only [hafter]
  constructor
  · intro hhonoured hgap
    obtain ⟨es', hnot⟩ := exists_not_stopHonoured (callsInv_run hchk es) (childInv_run es) hgap
    exact hnot (hhonoured es')
  · intro hgap es'
    exact stopHonoured_of_not_gap (childInv_run es) (hasStopTask_run hes) hgap es'

/-- The task for one service, and the arguments that its process has prepared. -/
def sampleServicesTask : ListHydraTask := sampleAccepted (sampleBlockCreate "10.0.0.0/24".toList)

def sampleServicesCmds : CmdParams :=
  (fillCmdParams maxCacheSize sampleServicesTask
    (hydraPaths sampleServicesTask.taskId.text)).getD {}

theorem chkServices_sampleServicesTask : chkServices sampleServicesTask.services.text = true := by
  decide +kernel

/-- The task for two services. -/
def sampleTwoServices : ListHydraTask :=
  sampleAccepted "audit\x010\x0110.0.0.1\x01ssh,ftp\x01\x01users\x01words\x010\x01\x01\x01".toList

def sampleTwoCmds : CmdParams :=
  (fillCmdParams maxCacheSize sampleTwoServices (hydraPaths sampleTwoServices.taskId.text)).getD {}

/-- hydra is started for the first service and ends, and then the process waits for the second. -/
def sampleSecondService : List TaskEvent :=
  let next (pid : ℕ) : TaskEvent := .next ⟨some pid, true⟩
  next 2 :: List.replicate 5 (next 2) ++ [.childExec, next 2, .childEnd, next 2, next 2] ++
    List.replicate 5 (next 3) ++ [.childExec, next 3]

/-- A stop during the second service is honoured. -/
theorem services_stop_iff_sample :
    let s := taskProcRun sampleTwoServices sampleTwoCmds sampleSecondService
    (s.pos = .blocked ∧ serviceTokens sampleTwoServices = ["ssh".toList, "ftp".toList] ∧
        s.execs =
          (serviceTokens sampleTwoServices).map (serviceArgv sampleTwoServices sampleTwoCmds)) ∧
      ∀ es', StopHonoured s
        (taskProcRun sampleTwoServices sampleTwoCmds (sampleSecondService ++ .stop :: es')) := by
  have hchk : chkServices sampleTwoServices.services.text = true := by decide +kernel
  have hchild : (taskProcRun sampleTwoServices sampleTwoCmds sampleSecondService).pos = .blocked ∧
      (taskProcRun sampleTwoServices sampleTwoCmds sampleSecondService).child =
        some ⟨3, .executing⟩ := by decide +kernel
  have hgap : ¬StopGap (taskProcRun sampleTwoServices sampleTwoCmds sampleSecondService) := by
    rw [StopGap, hchild.1]
    rintro ⟨c, hc, hforked⟩
    rw [hchild.2] at hc
    obtain rfl := Option.some.inj hc
    simp at hforked
  exact ⟨by decide +kernel,
    ((services_stop_iff hchk sampleTwoCmds).2.2 sampleSecondService (by decide)).mpr hgap⟩

/-- A stop right behind the test of the loop: hydra is started once more, and the process blocks on
its child. -/
theorem not_stopHonoured_behind_loop :
    chkServices sampleServicesTask.services.text = true ∧
      ¬∀ es es' : List TaskEvent, (∀ e ∈ es, e ≠ .stop) →
        StopHonoured (taskProcRun sampleServicesTask sampleServicesCmds es)
          (taskProcRun sampleServicesTask sampleServicesCmds (es ++ .stop :: es')) := by
  refine ⟨chkServices_sampleServicesTask, fun hclaim => ?_⟩
  let next : TaskEvent := .next ⟨some 2, true⟩
  have hhonoured := hclaim [next, next] [next, next, next, .childExec, next, next] (by decide)
  refine hhonoured.not_blocked ⟨by decide +kernel, ⟨2, .executing⟩, by decide +kernel, by decide⟩

end OpenvasTool
