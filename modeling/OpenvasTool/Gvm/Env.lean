import OpenvasTool.Gvm.Data
import OpenvasTool.Support.Xml

/-!
# The environment of the daemon

The daemon allocates memory, writes files, reads clocks and runs `gvm-cli`. The
outcomes of all these calls during one step of the daemon are an `Env`. In one
step every command of gvmd and every file is used at most once, so an outcome
is a function of the request or of the path.
-/

namespace OpenvasTool

open Posix

/-! ### gvmd -/

/-- The commands that are sent to gvmd, with the parameters of their XML text. -/
inductive GvmRequest where
  | getVersion
  | startTask (taskId : Text)
  | stopTask (taskId : Text)
  | getReports (reportId : Text)
  | getTasks (taskId : Text)
  | getResults (taskId reportId : Text) (first rows : ℤ)
  | createTarget (name hosts portlist : Text)
  | createTask (name target config schedule : Text)
  | createSchedule (name firstRun rule : Text)
  | createConfig (name groupName groupId : Text)
  | deleteTask (taskId : Text)
  | deleteTarget (targetId : Text)
  | deleteSchedule (scheduleId : Text)
  | deleteConfig (configId : Text)
  deriving DecidableEq, Repr

/-- The command name, by which the answer is checked. -/
def GvmRequest.cmd : GvmRequest → Text
  | getVersion => "get_version".toList
  | startTask _ => "start_task".toList
  | stopTask _ => "stop_task".toList
  | getReports _ => "get_reports".toList
  | getTasks _ => "get_tasks".toList
  | getResults _ _ _ _ => "get_results".toList
  | createTarget _ _ _ => "create_target".toList
  | createTask _ _ _ _ => "create_task".toList
  | createSchedule _ _ _ => "create_schedule".toList
  | createConfig _ _ _ => "create_config".toList
  | deleteTask _ => "delete_task".toList
  | deleteTarget _ => "delete_target".toList
  | deleteSchedule _ => "delete_schedule".toList
  | deleteConfig _ => "delete_config".toList

/-- The output of `gvm-cli`: its text, and the document that the XML parser makes of it,
if it is well formed and memory suffices. -/
structure GvmRsp where
  text : Text
  doc : Option Xml.Node

/-! ### Files -/

/-- The outcome of `writeFileSafe`; a failed write leaves a part of the temporary file. -/
inductive WriteOutcome where
  | ok
  | openErr
  | writeErr (written : Text)
  | renameErr
  deriving DecidableEq, Repr

/-- The regular files and their contents. -/
abbrev Files := Text → Option Text

/-- The content of one file changes. -/
def Files.set (files : Files) (path : Text) (content : Option Text) : Files :=
  Function.update files path content

/-! ### One step -/

/-- The outcomes of all system calls during one step of the daemon. -/
structure Env where
  /-- `calloc` of the task that the step builds. -/
  alloc : Bool
  /-- `realloc` of the name set. -/
  realloc : Bool
  /-- `calloc` of the result with this number in an answer. -/
  allocNvt : ℕ → Bool
  /-- The answer of gvmd, or `none` when `popen` fails. -/
  gvmd : GvmRequest → Option GvmRsp
  /-- `createDir` returns a nonnegative value. -/
  mkdir : Text → Bool
  /-- `writeFileSafe` to this file. -/
  write : Text → WriteOutcome
  /-- `deleteDir` removes this file. -/
  unlink : Text → Bool
  /-- `getClkTime` at the expiry test. -/
  clk : ℤ
  /-- `getClkTime` when the next check is set. -/
  clkNext : ℤ
  /-- `getTime` and `localtime_r`. -/
  now : Option Tm
  /-- `strptime` and `timegm` of a UTC time, then `localtime_r`. -/
  utcToLocal : Text → Option Tm
  /-- The broken-down UTC time that `local2SchedTime` formats. -/
  localToSched : Text → Bool → Option Tm

namespace Env

variable (env : Env)

/-- `nowTimeStamp`; the buffer stays empty when a call fails. -/
def nowTimeStamp : CStr maxTimestampSize :=
  (env.now.bind fun tm => CStr.ofText maxTimestampSize tm.timeStamp).getD .empty

/-- `utc2LocalTime`: an empty time stays empty. -/
def utc2LocalTime (utc : Text) : Option (CStr maxTimestampSize) :=
  if utc.isEmpty then some .empty
  else (env.utcToLocal utc).bind fun tm => CStr.ofText maxTimestampSize tm.timeStamp

/-- `local2SchedTime`. -/
def local2SchedTime (localTime : Text) (isOnce : Bool) : Option (CStr maxTimestampSize) :=
  if localTime.isEmpty then some .empty
  else (env.localToSched localTime isOnce).bind fun tm =>
    CStr.ofText maxTimestampSize tm.schedTime

/-- `writeFileSafe`: write the temporary file, then rename it. The code is 0, -1, -2 or -3. -/
def writeFileSafe (content normalFile tmpFile : Text) (files : Files) : ℤ × Files :=
  match env.write normalFile with
  | .ok => (0, (files.set tmpFile none).set normalFile (some content))
  | .openErr => (-1, files)
  | .writeErr written => (-2, files.set tmpFile (some written))
  | .renameErr => (-3, files.set tmpFile (some content))

/-- `deleteDir`: the files below the directory are removed, as far as that succeeds. -/
def deleteDir (dir : Text) (files : Files) : Files := fun path =>
  if (dir ++ "/".toList) <+: path ∧ env.unlink path = true then none else files path

end Env

/-- All system calls succeed, at a fixed time, and gvmd gives these answers. -/
def Env.smooth (gvmd : GvmRequest → Option GvmRsp) : Env where
  alloc := true
  realloc := true
  allocNvt := fun _ => true
  gvmd := gvmd
  mkdir := fun _ => true
  write := fun _ => .ok
  unlink := fun _ => true
  clk := 1000
  clkNext := 1000
  now := some ⟨2024, 5, 1, 8, 30, 0⟩
  utcToLocal := fun _ => some ⟨2024, 5, 1, 8, 30, 0⟩
  localToSched := fun _ _ => some ⟨2024, 5, 1, 8, 30, 0⟩

/-! ### Sending commands -/

/-- A result together with the commands that were sent to gvmd for it. -/
structure Sent (α : Type*) where
  val : α
  sent : List GvmRequest

namespace Sent

variable {α β : Type*}

/-- A result that needs no command. -/
def pure (a : α) : Sent α := ⟨a, []⟩

/-- Go on with the result. -/
def andThen (x : Sent α) (f : α → Sent β) : Sent β := ⟨(f x.val).val, x.sent ++ (f x.val).sent⟩

@[simp] theorem pure_val (a : α) : (pure a).val = a := rfl
@[simp] theorem pure_sent (a : α) : (pure a).sent = [] := rfl

@[simp] theorem andThen_val (x : Sent α) (f : α → Sent β) :
    (x.andThen f).val = (f x.val).val := rfl

@[simp] theorem andThen_sent (x : Sent α) (f : α → Sent β) :
    (x.andThen f).sent = x.sent ++ (f x.val).sent := rfl

end Sent

end OpenvasTool
