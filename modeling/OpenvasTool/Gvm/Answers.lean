import OpenvasTool.Gvm.Env

/-!
# Answers of gvmd

Reading the documents that gvmd returns for tasks, reports and results, and the
text of the result file (`openvas_opts.c`).
-/

namespace OpenvasTool

open Posix Xml

/-! ### Nodes -/

/-- `getNodeAttr`: 0, -1 for a missing attribute, -2 for one that is too long. -/
def getNodeAttr (node : Xml.Node) (name : Text) (n : ℕ) : ℤ × CStr (n + 1) :=
  match node.attr name with
  | none => (-1, .empty)
  | some val =>
      match CStr.ofText (n + 1) val with
      | some buf => (0, buf)
      | none => (-2, .empty)

/-- `findChildNode`: the first child element with this name. -/
def findChildNode (node : Xml.Node) (name : Text) : Option Xml.Node :=
  node.children.find? (Xml.Node.isElement name)

/-- `findSimpleNode`, for a path given by its element names. -/
def findSimpleNode (node : Xml.Node) : List Text → Option Xml.Node
  | [] => some node
  | name :: path => (findChildNode node name).bind fun child => findSimpleNode child path

/-- `getNodeText` of an element. -/
def getNodeText (node : Xml.Node) (n : ℕ) : ℤ × CStr (n + 1) :=
  match CStr.ofText (n + 1) node.directText with
  | some buf => (0, buf)
  | none => (-2, .empty)

/-- `findSimpleNodeText`, and `findChildNodeText` for a path of one name: 1 if not found. -/
def findSimpleNodeText (node : Xml.Node) (path : List Text) (n : ℕ) : ℤ × CStr (n + 1) :=
  match findSimpleNode node path with
  | some subnode => getNodeText subnode n
  | none => (1, .empty)

/-- `findSimpleNodeAttr`: 1 if the node is not found, -1 for any error of the attribute. -/
def findSimpleNodeAttr (node : Xml.Node) (path : List Text) (attrName : Text) (n : ℕ) :
    ℤ × CStr (n + 1) :=
  match findSimpleNode node path with
  | some subnode =>
      let r := getNodeAttr subnode attrName n
      (if r.1 = 0 then 0 else -1, r.2)
  | none => (1, .empty)

/-- The text of an element, where any error ends the reading of the answer. -/
def requiredText (node : Xml.Node) (path : List Text) (n : ℕ) : Option (CStr (n + 1)) :=
  let r := findSimpleNodeText node path n
  if r.1 = 0 then some r.2 else none

/-- `convRunStatusName`. -/
def convRunStatusName (val : Text) : GvmTaskStatus :=
  if val = "Running".toList then .running
  else if val = "Queued".toList ∨ val = "Requested".toList ∨ val = "Delete Requested".toList ∨
      val = "Ultimate Delete Requested".toList then .waiting
  else if val = "New".toList then .ready
  else if val = "Done".toList then .done
  else if val = "Stopped".toList ∨ val = "Stop Requested".toList then .stop
  else .interrupt

/-! ### Tasks and reports -/

/-- `parseTask`: the report identifiers of a task. -/
def parseTask (doc : Option Xml.Node) : Option GvmReportInfo := do
  let root ← doc
  match root.select ["get_tasks_response".toList, "task".toList] with
  | [cur] =>
      if (getNodeAttr cur "id".toList 63).1 = -1 then none
      else
        let reportCnt ← requiredText cur ["report_count".toList] 255
        let finishCnt ← requiredText cur ["report_count".toList, "finished".toList] 255
        let curReport :=
          findSimpleNodeAttr cur ["current_report".toList, "report".toList] "id".toList 63
        let lastReport :=
          findSimpleNodeAttr cur ["last_report".toList, "report".toList] "id".toList 63
        if curReport.1 = -1 then none
        else if lastReport.1 = -1 then none
        else
          some
            { reportCnt := atoi reportCnt.text
              finishCnt := atoi finishCnt.text
              curReportId := curReport.2
              lastReportId := lastReport.2 }
  | _ => none

/-- `parseReport`: the status and the progress of a report. -/
def parseReport (env : Env) (doc : Option Xml.Node) : Option GvmReportInfo := do
  let root ← doc
  match root.select ["get_reports_response".toList, "report".toList] with
  | [cur] =>
      let child ← findChildNode cur "report".toList
      let id := getNodeAttr child "id".toList 63
      if id.1 ≠ 0 then none
      else
        let scanStart ← requiredText child ["scan_start".toList] 255
        let startTime ← env.utc2LocalTime scanStart.text
        let scanEnd ← requiredText child ["scan_end".toList] 255
        let stopTime ← env.utc2LocalTime scanEnd.text
        let runStatus ← requiredText child ["scan_run_status".toList] 255
        let progress ← requiredText child ["task".toList, "progress".toList] 255
        some
          { curReportId := id.2
            startTime := startTime
            stopTime := stopTime
            status := convRunStatusName runStatus.text
            progress :=
              if atoi progress.text < 0 ∨ 100 < atoi progress.text then 0
              else atoi progress.text }
  | _ => none

/-- `updateTaskReport`: whether a new report is adopted, and the task after that. The current
report of the answer has priority over its last report. -/
def updateTaskReport (task : ListGvmTask) (info : GvmReportInfo) : Bool × ListGvmTask :=
  let adopt (id : CStr maxUuidSize) : Bool × ListGvmTask :=
    if task.reportInfo.curReportId ≠ id then
      (true, { task with reportInfo := { task.reportInfo with
          lastReportId := task.reportInfo.curReportId
          curReportId := id } })
    else (false, task)
  if info.curReportId.text ≠ [] then adopt info.curReportId
  else if info.lastReportId.text ≠ [] then adopt info.lastReportId
  else (false, task)

/-! ### Results -/

/-- One result of an answer, or `none` when a field is missing or too long. -/
def parseNvt (env : Env) (cur : Xml.Node) : Option ResultNvtInfo := do
  let id := getNodeAttr cur "id".toList 63
  if id.1 ≠ 0 then none
  else
    let resName ← requiredText cur ["name".toList] 255
    let resThreat ← requiredText cur ["threat".toList] 31
    let resSeverity ← requiredText cur ["severity".toList] 31
    let resPort ← requiredText cur ["port".toList] 255
    let resHost ← requiredText cur ["host".toList] 255
    let created ← requiredText cur ["creation_time".toList] 255
    let resCreateTime ← env.utc2LocalTime created.text
    let resCve ← requiredText cur ["nvt".toList, "cvss_base".toList] 31
    some
      { resId := id.2
        resName := resName
        resHost := resHost
        resPort := resPort
        resThreat := resThreat
        resSeverity := resSeverity
        resCreateTime := resCreateTime
        resCve := resCve }

/-- The loop over the results of an answer: the first failure ends it, what was read stays. -/
def parseNvts (env : Env) : ℕ → List Xml.Node → ListQueue ResultNvtInfo →
    Bool × ListQueue ResultNvtInfo
  | _, [], results => (true, results)
  | i, cur :: nodes, results =>
      if env.allocNvt i then
        match parseNvt env cur with
        | some nvt =>
            parseNvts env (i + 1) nodes (results.pushBack (fun old => cmpNvtHost old nvt) nvt)
        | none => (false, results)
      else (false, results)

/-- The part of `parseResult` in front of the loop: the total is read only once. -/
def readTotalCnt (root : Xml.Node) (info : GvmResultInfo) : Option ℤ × GvmResultInfo :=
  if info.totalCnt < 0 then
    match root.select ["get_results_response".toList, "result_count".toList,
        "filtered".toList] with
    | [node] =>
        match getNodeText node 255 with
        | (0, val) =>
            if atoi val.text < 0 then (none, { info with totalCnt := atoi val.text })
            else (some (atoi val.text), { info with totalCnt := atoi val.text })
        | _ => (none, info)
    | _ => (none, info)
  else (some info.totalCnt, info)

/-- `parseResult`: success, and the results collected so far. -/
def parseResult (env : Env) (doc : Option Xml.Node) (info : GvmResultInfo) : Bool × GvmResultInfo :=
  match doc with
  | none => (false, info)
  | some root =>
      let finish (r : Bool × GvmResultInfo) : Bool × GvmResultInfo :=
        (r.1, { r.2 with first := r.2.results.cnt + 1 })
      match readTotalCnt root info with
      | (none, info) => finish (false, info)
      | (some total, info) =>
          if total = 0 then finish (true, { info with done := true })
          else
            match root.select ["get_results_response".toList, "result".toList] with
            | [] => finish (false, info)
            | nodes =>
                match parseNvts env 0 nodes info.results with
                | (true, results) =>
                    finish (true, { info with
                      results := results
                      done := info.done || info.totalCnt == results.cnt })
                | (false, results) => finish (false, { info with results := results })

/-- The line of one result, `RESULT_NVT_INFO_FORMAT`. -/
def nvtLine (nvt : ResultNvtInfo) : Text :=
  "|".toList ++ nvt.resHost.text ++ "|".toList ++ nvt.resName.text ++ "|".toList ++
    nvt.resThreat.text ++ "|".toList ++ nvt.resSeverity.text ++ "|".toList ++
    nvt.resPort.text ++ "|".toList ++ nvt.resCve.text ++ "|".toList ++
    nvt.resCreateTime.text ++ "|\n".toList

/-- `printNvtInfo`, in a buffer of this capacity that already holds `buf`. -/
def printNvtInfo (capacity : ℕ) (buf : Text) (nvt : ResultNvtInfo) : Option Text :=
  let size := intOfSize (capacity - buf.length)
  if maxCommSize < size then
    if (nvtLine nvt).length < size then some (buf ++ nvtLine nvt) else none
  else none

/-- `printNvts`. -/
def printNvts (capacity : ℕ) (results : ListQueue ResultNvtInfo) : Option Text :=
  results.items.foldlM (printNvtInfo capacity) []

end OpenvasTool
