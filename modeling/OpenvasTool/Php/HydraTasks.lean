import OpenvasTool.Hydra.TaskFile
import OpenvasTool.Php.Tasks

/-!
# The hydra tasks on the web page

`read_hydra_task` reads the hydra task file like `read_gvm_tasks` reads the other
one, with other keys. The status of a task is what the process of the task leaves
in its process file.
-/

namespace OpenvasTool

open Posix Posix.Regex Support

/-! ### The process file -/

/-- The variables of `read_hydra_task` that are set by patterns. -/
structure HydraVars where
  taskId : Text := []
  taskName : Text := []
  hostsType : Text := []
  hosts : Text := []
  services : Text := []
  opts : Text := []
  scheduleType : Text := []
  scheduleTime : Text := []
  scheduleList : Text := []
  createTime : Text := []
  deriving DecidableEq

/-- The variables after a record with this identifier. -/
def HydraVars.read (vars : HydraVars) (taskId content : Text) : HydraVars where
  taskId := taskId
  taskName := readVar "task_name".toList content vars.taskName
  hostsType := readVar "hosts_type".toList content vars.hostsType
  hosts := readVar "hosts".toList content vars.hosts
  services := readVar "services".toList content vars.services
  opts := readVar "opts".toList content vars.opts
  scheduleType := readVar "schedule_type".toList content vars.scheduleType
  scheduleTime := readVar "schedule_time".toList content vars.scheduleTime
  scheduleList := readVar "schedule_list".toList content vars.scheduleList
  createTime := readVar "create_time".toList content vars.createTime

/-- A task that the page can read: its values stay on their lines, and its identifier is in lower
case. -/
structure HydraPageRecord (t : ListHydraTask) : Prop where
  cleanField : ∀ f ∈ hydraFields t, CleanField f
  taskId : t.taskId.text ∈ lowerUuid.lang

/-- The variables for a task. -/
def HydraVars.of (t : ListHydraTask) : HydraVars where
  taskId := t.taskId.text
  taskName := t.taskName.text
  hostsType := decimal t.hostsType.toInt
  hosts := t.hosts.text
  services := t.services.text
  opts := t.opts.text
  scheduleType := decimal t.scheduleType
  scheduleTime := t.firstScheduleTime.text
  scheduleList := t.scheduleList.text
  createTime := t.createTime.text

theorem nodup_hydraFields (t : ListHydraTask) : ((hydraFields t).map Prod.fst).Nodup := by
  show ["task_id".toList, "task_name".toList, "hosts_type".toList, "hosts".toList,
    "services".toList, "opts".toList, "schedule_type".toList, "schedule_time".toList,
    "schedule_list".toList, "create_time".toList].Nodup
  decide

/-- Every pattern matches, so no variable keeps the value of an earlier record. -/
theorem HydraPageRecord.readVar {t : ListHydraTask} (h : HydraPageRecord t) {key val : Text}
    (hlookup : (hydraFields t).lookup key = some val) (rest old : Text) :
    OpenvasTool.readVar key (recordPiece (hydraFields t) rest) old = val := by
  have hnl : '\n' ∉ val := (h.cleanField _ (mem_of_lookup hlookup)).val_newline_free
  rw [OpenvasTool.readVar, pregMatch_of_lookup h.cleanField (nodup_hydraFields t) over_anyText
    hlookup (mem_anyText hnl), Option.getD_some]

theorem HydraPageRecord.read {t : ListHydraTask} (h : HydraPageRecord t) (vars : HydraVars)
    (rest : Text) : vars.read t.taskId.text (recordPiece (hydraFields t) rest) = .of t := by
  unfold HydraVars.read
  rw [h.readVar rfl, h.readVar rfl, h.readVar rfl, h.readVar rfl, h.readVar rfl, h.readVar rfl,
    h.readVar rfl, h.readVar rfl, h.readVar rfl]
  rfl

section Page

variable {files : Files} {dir : Text}

end Page

end OpenvasTool
