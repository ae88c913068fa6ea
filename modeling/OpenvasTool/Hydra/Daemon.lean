import OpenvasTool.Gvm.Daemon
import OpenvasTool.Hydra.Store
import OpenvasTool.Support.Runs

/-!
# The hydra requests and the monitor

The handlers `daemon_start_hydra`, `daemon_stop_hydra`, `daemon_delete_hydra` and
`daemon_create_hydra`, the start from the task file, and the hydra part as a
transition system. `monitorHydraTask` takes several steps, between which task
processes may end; the handler of `SIGCHLD` runs when a process ends.
-/

namespace OpenvasTool

open Posix Support

/-! ### Handlers -/

/-- What a request leaves: the state, the returned code, the processes that got a signal, and the
tasks whose directory `delHydraRelationFiles` removed. -/
structure HydraOutcome where
  world : HydraWorld
  code : GvmErrCode
  signals : List ℕ
  removed : List Ptr

/-- A request that fails without any effect. -/
def HydraOutcome.fail (w : HydraWorld) (code : GvmErrCode) : HydraOutcome := ⟨w, code, [], []⟩

/-- The common beginning of the handlers for an existing task. -/
def withKeyHydra (env : HydraEnv) (w : HydraWorld) (input : Text) (body : Ptr → HydraOutcome) :
    HydraOutcome :=
  if env.alloc then
    match getKeyHydraParam input with
    | none => .fail w .paramInvalid
    | some key =>
        match w.findHydraTask key with
        | none => .fail w .taskNotFound
        | some p => body p
  else .fail w .internalFail

/-- `daemon_start_hydra`. -/
def daemonStartHydra (env : HydraEnv) (w : HydraWorld) (input : Text) : HydraOutcome :=
  withKeyHydra env w input fun p =>
    if (w.task p).pid ≠ 0 then .fail w .taskIsBusy
    else
      match runHydra env w p with
      | none => .fail w .internalFail
      | some w => ⟨w, .success, [], []⟩

/-- `daemon_stop_hydra`. -/
def daemonStopHydra (env : HydraEnv) (w : HydraWorld) (input : Text) : HydraOutcome :=
  withKeyHydra env w input fun p =>
    if (w.task p).pid = 0 then .fail w .taskIsNotRunning
    else
      match stopProc env (w.task p).pid with
      | (true, signals) => ⟨w.setTask p { w.task p with pid := 0 }, .success, signals, []⟩
      | (false, signals) => ⟨w, .internalFail, signals, []⟩

/-- `daemon_delete_hydra`. -/
def daemonDeleteHydra (env : HydraEnv) (w : HydraWorld) (input : Text) : HydraOutcome :=
  withKeyHydra env w input fun p =>
    if (w.task p).pid ≠ 0 then .fail w .taskIsBusy
    else
      match delHydraRelationFiles env w p with
      | (true, w) => ⟨w.freeHydraTask p, .success, [], [p]⟩
      | (false, w) => .fail w .internalFail

/-- The record that a new task gets before it is stored. -/
def stampHydra (env : HydraEnv) (task : ListHydraTask) : ListHydraTask :=
  { task with
    createTime := env.nowTimeStamp
    modifyTime := .copy env.nowTimeStamp }

/-- `daemon_create_hydra`. -/
def daemonCreateHydra (env : HydraEnv) (w : HydraWorld) (input : Text) : HydraOutcome :=
  if env.alloc then
    match getCreateHydraParam env input with
    | none => .fail w .paramInvalid
    | some task =>
        match w.findHydraTask task with
        | some _ => .fail w .taskAlreadyExists
        | none =>
            let new := w.newTask (stampHydra env task)
            match writeHydraRelationFile env new.2 new.1 with
            | (true, w) => ⟨w, .success, [], []⟩
            | (false, w) => .fail (w.freeHydraTask new.1) .internalFail
  else .fail w .internalFail

/-! ### Start -/

/-- `createHydraData` after `hydraSignal`. -/
def emptyHydraWorld (files : Files) : HydraWorld where
  data := ⟨.initListQue, .initListSet⟩
  heap := fun _ => none
  next := 0
  hasChildExit := false
  files := files
  procs := .empty

/-- One round of the loop of `parseHydraRecord`. -/
def loadHydraRecord (env : BootEnv) (w : HydraWorld) (record : ℕ × Text) : Option HydraWorld :=
  if env.alloc record.1 then
    (parseHydraFields record.2).bind fun task =>
      (w.newTask task).2.addHydraTask (env.realloc record.1) (w.newTask task).1
  else none

/-- `parseHydraRecord`: the first failure ends the loop. -/
def parseHydraRecord (env : BootEnv) (w : HydraWorld) (content : Text) : Option HydraWorld :=
  ((records content).zipIdx.map Prod.swap).foldlM (loadHydraRecord env) w

/-- `readHydraTaskFile`: a missing or empty file is an empty store. -/
def readHydraTaskFile (env : BootEnv) (w : HydraWorld) : Option HydraWorld :=
  match readTotalFile (env.stat hydraTaskFile) (env.read hydraTaskFile) (w.files hydraTaskFile) with
  | .ok content => parseHydraRecord env w content
  | .error .noFile => some w
  | .error .emptyFile => some w
  | .error _ => none

/-- `initHydra`, from the files that are there; `templDir` is `chkExists` of the templates. -/
def initHydra (env : BootEnv) (templDir : Bool) (files : Files) : Option HydraWorld :=
  if env.createData && env.privDir && templDir then readHydraTaskFile env (emptyHydraWorld files)
  else none

/-! ### Steps -/

/-- `for_each` over the create queue with `chgChildTask`: the first task with this process. -/
def HydraWorld.chgChildTask (w : HydraWorld) (pid : ℕ) : HydraWorld :=
  match w.data.createque.items.find? fun p => (w.task p).pid == pid with
  | none => w
  | some p => w.setTask p { w.task p with pid := 0 }

/-- Where the daemon is in `monitorHydraTask`: outside, in front of a call of `waitpid`, or in
front of the statement that clears the flag. -/
inductive MonitorPhase where
  | idle | waiting | clearing
  deriving DecidableEq, Repr

/-- The hydra part with the position of the daemon. -/
structure HydraState where
  world : HydraWorld
  phase : MonitorPhase

/-- What happens next. A request comes when `monitorHydraTask` is not executing; a task process
ends, or another child of the daemon does, at any time. -/
inductive HydraEvent where
  | startHydra (input : Text)
  | stopHydra (input : Text)
  | deleteHydra (input : Text)
  | createHydra (input : Text)
  | childExit (pid : ℕ)
  | otherExit
  | monitor
  | waitpid (preferred : ℕ)
  | clear

/-- The request of an event. -/
def hydraRequest (env : HydraEnv) (w : HydraWorld) : HydraEvent → Option HydraOutcome
  | .startHydra input => some (daemonStartHydra env w input)
  | .stopHydra input => some (daemonStopHydra env w input)
  | .deleteHydra input => some (daemonDeleteHydra env w input)
  | .createHydra input => some (daemonCreateHydra env w input)
  | _ => none

/-- The request that the daemon handles in a step. -/
def HydraState.request (s : HydraState) (env : HydraEnv) (e : HydraEvent) : Option HydraOutcome :=
  if s.phase = .idle then hydraRequest env s.world e else none

/-- The steps of `monitorHydraTask` and of the operating system. -/
def hydraSystem (s : HydraState) : HydraEvent → HydraState
  | .childExit pid =>
      if s.world.procs.isLive pid then
        -- the process ends and `hydraTaskChild` runs
        { s with world := { s.world with procs := s.world.procs.exit pid, hasChildExit := true } }
      else s
  | .otherExit => { s with world := { s.world with hasChildExit := true } }
  | .monitor =>
      if s.phase = .idle ∧ s.world.hasChildExit = true then { s with phase := .waiting } else s
  | .waitpid preferred =>
      if s.phase = .waiting then
        match s.world.procs.waitpid preferred with
        | some pid =>
            { s with world := { s.world.chgChildTask pid with procs := s.world.procs.reap pid } }
        | none => { s with phase := .clearing }
      else s
  | .clear =>
      if s.phase = .clearing then ⟨{ s.world with hasChildExit := false }, .idle⟩ else s
  | _ => s

/-- The state after one step; the input is the event and the outcomes of its system calls. -/
def hydraNext (s : HydraState) (i : HydraEvent × HydraEnv) : HydraState :=
  match s.request i.2 i.1 with
  | some o => { s with world := o.world }
  | none => hydraSystem s i.1

/-- The run from a state. -/
def hydraRun : HydraState → List (HydraEvent × HydraEnv) → HydraState := run hydraNext

/-! ### A small system -/

/-- All system calls succeed, and `fork` gives this process. -/
def HydraEnv.smooth (pid : ℕ) : HydraEnv :=
  { Env.smooth (fun _ => none) with
    uuid := ⟨0, 124, 4, 1, 8, 30, 0, 77, 1⟩
    stat := fun _ => true
    read := fun _ => true
    store := fun _ _ => some 1000
    rename := fun _ => true
    progPath := "/usr/local/openvas/bin/gvm_tool".toList
    fork := some pid
    kill := true }

/-- The directories with two word lists. -/
def sampleHydraFiles : Files :=
  (Files.set (fun _ => none) (hydraTemplDir ++ "/users".toList) (some "root\n".toList)).set
    (hydraTemplDir ++ "/words".toList) (some "secret\n".toList)

/-- A request to create the task `audit` without a schedule. -/
def sampleHydraCreate : Text :=
  "audit\x010\x0110.0.0.1\x01ssh\x01\x01users\x01words\x010\x01\x01\x01".toList

/-- The key of the task `audit` in a request to start, stop or delete it. -/
def sampleHydraKey : Text :=
  "audit\x01".toList ++ (genUUID (HydraEnv.smooth 0).uuid).text ++ "\x01".toList

/-- The hydra part after the start. -/
def sampleHydraState : HydraState := ⟨emptyHydraWorld sampleHydraFiles, .idle⟩

/-- The task `audit` is created, started and stopped. -/
def sampleHydraSteps : List (HydraEvent × HydraEnv) :=
  [(.createHydra sampleHydraCreate, .smooth 0), (.startHydra sampleHydraKey, .smooth 4711),
    (.stopHydra sampleHydraKey, .smooth 0)]

end OpenvasTool
