import OpenvasTool.Gvm.Results
import OpenvasTool.Support.Split

/-!
# Complete downloads

While gvmd serves one fixed report, every check for results stores the next
results of it, each once, whatever queries and allocations fail in between. When
the task waits for a new report again, the text of the result file has one line
per result, unless a field of a result has a newline itself.
-/

namespace OpenvasTool

open Posix Support Xml

/-- A report that gvmd serves: the elements of its results, and what is stored of them. -/
structure ServedReport where
  nodes : List Xml.Node
  nvts : List ResultNvtInfo

/-- gvmd serves this report in answer to the query that a step sends: every result fits its
buffers, the count is the number of results, and the page has the results from `m_first` on. -/
structure Serves (r : ServedReport) (env : Env) (t : ListGvmTask) : Prop where
  readable : r.nodes.map (parseNvt env) = r.nvts.map some
  count : ∀ rsp root, resultAnswer env t = some rsp → rsp.doc = some root →
    ∃ node, root.select ["get_results_response".toList, "result_count".toList,
      "filtered".toList] = [node] ∧ node.directText = decimal r.nvts.length
  page : ∀ rsp root, resultAnswer env t = some rsp → rsp.doc = some root →
    pageNodes root =
      (r.nodes.drop (t.resultInfo.first - 1).toNat).take t.resultInfo.rows.toNat

/-- The output buffer has room for the lines of all results. -/
def ServedReport.HasRoom (r : ServedReport) : Prop := (r.nvts.flatMap nvtLine).length < maxCacheSize

/-- The first `n` results are stored, each once and stably sorted by host, and the next query asks
for the result behind them. The total is unknown or the number of all results, and the download is
complete exactly when the total is known and all results are stored. -/
structure Fetched (r : ServedReport) (info : GvmResultInfo) (n : ℕ) : Prop where
  le : n ≤ r.nvts.length
  sorted : StablySorted cmpNvtHost (r.nvts.take n) info.results.items
  cnt : info.results.cnt = n
  first : info.first = n + 1
  rows : info.rows = 10
  total : (info.totalCnt = -1 ∧ n = 0) ∨ info.totalCnt = r.nvts.length
  done : info.done = true ↔ 0 ≤ info.totalCnt ∧ n = r.nvts.length

theorem fetched_empty (r : ServedReport) : Fetched r {} 0 :=
  ⟨Nat.zero_le _, .nil, rfl, rfl, rfl, Or.inl ⟨rfl, rfl⟩, by simp⟩

/-! ### One answer -/

theorem stablySorted_pushNvts {xs : List ResultNvtInfo} {results : ListQueue ResultNvtInfo}
    (h : StablySorted cmpNvtHost xs results.items) (nvts : List ResultNvtInfo) :
    StablySorted cmpNvtHost (xs ++ nvts) (pushNvts results nvts).items := by
  induction nvts generalizing xs results with
  | nil => simpa [OpenvasTool.pushNvts] using h
  | cons nvt nvts ih =>
    have hone : StablySorted cmpNvtHost (xs ++ [nvt])
        (results.pushBack (fun old => cmpNvtHost old nvt) nvt).items :=
      h.insertLast comparison_cmpNvtHost nvt
    have hall := ih hone
    rwa [List.append_assoc, List.singleton_append] at hall

/-- Of a page of readable results those in front of the first failing allocation are stored. -/
theorem parsedNvts_eq_take {env : Env} {nodes : List Xml.Node} {nvts : List ResultNvtInfo}
    (h : nodes.map (parseNvt env) = nvts.map some) (i : ℕ) :
    parsedNvts env i nodes =
      nvts.take ((List.range' i nodes.length).takeWhile env.allocNvt).length := by
  induction nodes generalizing nvts i with
  | nil => rfl
  | cons cur nodes ih =>
    cases nvts with
    | nil => simp at h
    | cons nvt nvts =>
      obtain ⟨hcur, hrest⟩ := List.cons.inj h
      rw [List.length_cons, List.range'_succ, parsedNvts]
      by_cases halloc : env.allocNvt i = true
      · rw [if_pos halloc, hcur, List.takeWhile_cons_of_pos halloc, List.length_cons,
          List.take_succ_cons, ← ih hrest (i + 1)]
      · rw [if_neg halloc, List.takeWhile_cons_of_neg halloc]
        rfl

/-- How many results of a page with this many results a check stores: those in front of the first
failing allocation, when gvmd answers its query with a document. -/
def storedBy (env : Env) (t : ListGvmTask) (rows : ℕ) : ℕ :=
  if ((resultAnswer env t).bind GvmRsp.doc).isSome then
    ((List.range rows).takeWhile env.allocNvt).length
  else 0

@[simp] theorem storedBy_zero (env : Env) (t : ListGvmTask) : storedBy env t 0 = 0 := by
  simp [storedBy]

theorem storedBy_failed {env : Env} {t : ListGvmTask}
    (h : (resultAnswer env t).bind GvmRsp.doc = none) (rows : ℕ) : storedBy env t rows = 0 := by
  simp [storedBy, h]

theorem storedBy_answered {env : Env} {t : ListGvmTask} {rsp : GvmRsp} {root : Xml.Node}
    (hrsp : resultAnswer env t = some rsp) (hdoc : rsp.doc = some root) (rows : ℕ) :
    storedBy env t rows = ((List.range rows).takeWhile env.allocNvt).length := by
  simp [storedBy, hrsp, hdoc]

/-- There are so few results that `atoi` reads their number. -/
theorem ServedReport.HasRoom.length_lt {r : ServedReport} (h : r.HasRoom) :
    r.nvts.length < 2 ^ 31 := by
  have hline : ∀ nvts : List ResultNvtInfo, nvts.length ≤ (nvts.flatMap nvtLine).length := by
    intro nvts
    induction nvts with
    | nil => simp
    | cons nvt nvts ih =>
      have hpos : 0 < (nvtLine nvt).length := by
        unfold nvtLine
        exact List.length_pos_of_ne_nil (List.append_ne_nil_of_right_ne_nil _ (by decide))
      rw [List.flatMap_cons, List.length_append, List.length_cons]
      omega
  have hle := hline r.nvts
  unfold ServedReport.HasRoom maxCacheSize at h
  omega

/-- The count of an answer, as the total. -/
theorem readTotalCnt_served {root node : Xml.Node} {info : GvmResultInfo} {n : ℕ} (hn : n < 2 ^ 31)
    (hnode : root.select ["get_results_response".toList, "result_count".toList,
      "filtered".toList] = [node]) (htext : node.directText = decimal n)
    (htotal : info.totalCnt = -1 ∨ info.totalCnt = n) :
    readTotalCnt root info = (some (n : ℤ), { info with totalCnt := n }) := by
  unfold readTotalCnt
  rcases htotal with hunknown | hknown
  · have hlen : (decimal (n : ℤ)).length < 256 := by
      rw [decimal_natCast]
      have hten : (Nat.toDigits 10 n).length ≤ 10 :=
        (Nat.length_toDigits_le_iff (by omega) (by omega)).mpr (by omega)
      omega
    obtain ⟨buf, hbuf⟩ := Option.isSome_iff_exists.mp
      (CStr.ofText_isSome.mpr ⟨hlen, nul_not_mem_decimal n⟩)
    have hget : getNodeText node 255 = (0, buf) := by
      unfold getNodeText
      rw [htext, hbuf]
    have hatoi : atoi buf.text = n := by
      rw [CStr.ofText_eq_some.mp hbuf, atoi_decimal hn]
    rw [if_pos (by omega), hnode]
    simp only [hget, hatoi]
    rw [if_neg (by omega)]
  · rw [if_neg (by omega), ← hknown]

theorem storedBy_le (env : Env) (t : ListGvmTask) (rows : ℕ) : storedBy env t rows ≤ rows := by
  unfold storedBy
  split
  · have hprefix := (List.takeWhile_prefix (l := List.range rows) env.allocNvt).length_le
    rwa [List.length_range] at hprefix
  · exact Nat.zero_le _

/-- The page of an answer has the next ten results, and those in front of the first failing
allocation are stored. -/
theorem Fetched.page {r : ServedReport} {env : Env} {t : ListGvmTask} {n : ℕ}
    (h : Fetched r t.resultInfo n) (hserves : Serves r env t) {rsp : GvmRsp} {root : Xml.Node}
    (hrsp : resultAnswer env t = some rsp) (hdoc : rsp.doc = some root) :
    (pageNodes root).length = min 10 (r.nvts.length - n) ∧
      parsedNvts env 0 (pageNodes root) =
        (r.nvts.drop n).take (storedBy env t (min 10 (r.nvts.length - n))) := by
  have hpage := hserves.page rsp root hrsp hdoc
  have hfirst : (t.resultInfo.first - 1).toNat = n := by
    rw [h.first]
    omega
  have hrows : t.resultInfo.rows.toNat = 10 := by
    rw [h.rows]
    rfl
  rw [hfirst, hrows] at hpage
  have hlength : r.nodes.length = r.nvts.length := by
    have hmap := congrArg List.length hserves.readable
    simpa using hmap
  have hpagelen : (pageNodes root).length = min 10 (r.nvts.length - n) := by
    rw [hpage, List.length_take, List.length_drop, hlength]
  have hreadable : (pageNodes root).map (parseNvt env) = ((r.nvts.drop n).take 10).map some := by
    rw [hpage, List.map_take, List.map_drop, hserves.readable, List.map_take, List.map_drop]
  have hle := storedBy_le env t (min 10 (r.nvts.length - n))
  refine ⟨hpagelen, ?_⟩
  rw [parsedNvts_eq_take hreadable 0, hpagelen, ← List.range_eq_range', ← storedBy_answered hrsp hdoc,
    List.take_take, Nat.min_eq_left (by omega)]

/-- **One check** stores the next results of the report, as many as the answered query and the
allocations allow. -/
theorem Fetched.fetch {r : ServedReport} (hroom : r.HasRoom) {env : Env} {t : ListGvmTask} {n : ℕ}
    (h : Fetched r t.resultInfo n) (hserves : Serves r env t) :
    Fetched r (fetchResults env t).val.2 (n + storedBy env t (min 10 (r.nvts.length - n))) := by
  rw [fetchResults_val]
  split
  · rename_i hdone
    have hall := (h.done.mp hdone).2
    rw [← hall, Nat.sub_self, Nat.min_zero, storedBy_zero]
    exact h
  rename_i hnot
  have hdone : t.resultInfo.done = false := by simpa using hnot
  split
  · rename_i hrsp
    rw [storedBy_failed (by simp [hrsp])]
    exact h
  rename_i rsp hrsp
  cases hdoc : rsp.doc with
  | none =>
    rw [storedBy_failed (by simp [hrsp, hdoc])]
    exact h
  | some root =>
    obtain ⟨node, hnode, htext⟩ := hserves.count rsp root hrsp hdoc
    have htotal := readTotalCnt_served hroom.length_lt hnode htext (h.total.imp_left And.left)
    have hle := h.le
    by_cases hzero : r.nvts.length = 0
    · -- a report without results
      obtain rfl : n = 0 := by omega
      rw [hzero] at htotal ⊢
      rw [parseResult_zero htotal, Nat.zero_sub, Nat.min_zero, storedBy_zero]
      refine ⟨Nat.zero_le _, h.sorted, h.cnt, ?_, h.rows, Or.inr ?_, ?_⟩
      · show t.resultInfo.results.cnt + 1 = _
        rw [h.cnt]
      · simp [hzero]
      · simp [hzero]
    obtain ⟨hpagelen, hstored⟩ := h.page hserves hrsp hdoc
    have hkle := storedBy_le env t (min 10 (r.nvts.length - n))
    generalize storedBy env t (min 10 (r.nvts.length - n)) = k at hstored hkle ⊢
    have hlen : (parsedNvts env 0 (pageNodes root)).length = k := by
      rw [hstored, List.length_take, List.length_drop]
      omega
    have hcnt : (pushNvts t.resultInfo.results (parsedNvts env 0 (pageNodes root))).cnt =
        (n + k : ℕ) := by
      rw [cnt_pushNvts, hlen, h.cnt, Nat.cast_add]
    rw [parseResult_page env htotal (by omega)]
    refine ⟨by omega, ?_, hcnt, ?_, h.rows, Or.inr rfl, ?_⟩
    · rw [List.take_add, ← hstored]
      exact stablySorted_pushNvts h.sorted _
    · show (pushNvts t.resultInfo.results _).cnt + 1 = _
      rw [hcnt]
    · have hopen : ¬ (0 ≤ t.resultInfo.totalCnt ∧ n = r.nvts.length) := by
        rw [← h.done, hdone]
        simp
      have hlt : n < r.nvts.length := by
        rcases h.total with ⟨_, hn⟩ | hknown
        · omega
        · refine lt_of_le_of_ne hle fun heq => hopen ⟨by omega, heq⟩
      have hpos : 0 < (pageNodes root).length := by omega
      simp only [hdone, Bool.false_or, Bool.and_eq_true, pageComplete, decide_eq_true_eq, hpos,
        true_and, beq_iff_eq, hlen, hcnt]
      constructor
      · rintro ⟨_, heq⟩
        omega
      · rintro ⟨_, heq⟩
        omega

/-! ### The result file -/

/-- What is printed is the line of every result. -/
theorem printNvts_eq {capacity : ℕ} {results : ListQueue ResultNvtInfo} {outbuf : Text}
    (h : printNvts capacity results = some outbuf) :
    outbuf = (results.items.map nvtLine).flatten := by
  have hfold : ∀ (items : List ResultNvtInfo) (buf : Text),
      items.foldlM (printNvtInfo capacity) buf = some outbuf →
        outbuf = buf ++ (items.map nvtLine).flatten := by
    intro items
    induction items with
    | nil =>
      intro buf hbuf
      obtain rfl := Option.some.inj hbuf
      simp
    | cons nvt items ih =>
      intro buf hbuf
      rw [List.foldlM_cons, Option.bind_eq_bind, Option.bind_eq_some_iff] at hbuf
      obtain ⟨buf', hline, hrest⟩ := hbuf
      have hbuf' : buf' = buf ++ nvtLine nvt := by
        unfold printNvtInfo at hline
        dsimp only at hline
        split at hline
        · split at hline
          · exact (Option.some.inj hline).symm
          · simp at hline
        · simp at hline
      rw [ih buf' hrest, hbuf', List.map_cons, List.flatten_cons, List.append_assoc]
  exact hfold results.items [] h

/-- The fields of a result in the order of `RESULT_NVT_INFO_FORMAT`. -/
def nvtFields (nvt : ResultNvtInfo) : List Text :=
  [nvt.resHost.text, nvt.resName.text, nvt.resThreat.text, nvt.resSeverity.text,
    nvt.resPort.text, nvt.resCve.text, nvt.resCreateTime.text]

/-- A printed line without its newline. -/
def nvtBody (nvt : ResultNvtInfo) : Text :=
  '|' :: ((nvtFields nvt).map fun field => field ++ ['|']).flatten

theorem append_bars (a b c d e f g : Text) :
    "|".toList ++ a ++ "|".toList ++ b ++ "|".toList ++ c ++ "|".toList ++ d ++ "|".toList ++ e ++
        "|".toList ++ f ++ "|".toList ++ g ++ "|\n".toList =
      '|' :: ([a, b, c, d, e, f, g].map fun field => field ++ ['|']).flatten ++ ['\n'] := by
  simp

theorem nvtLine_eq (nvt : ResultNvtInfo) : nvtLine nvt = nvtBody nvt ++ ['\n'] :=
  append_bars _ _ _ _ _ _ _

theorem map_nvtLine (nvts : List ResultNvtInfo) :
    nvts.map nvtLine = (nvts.map nvtBody).map fun body => body ++ ['\n'] := by
  rw [List.map_map]
  exact List.map_congr_left fun nvt _ => nvtLine_eq nvt

theorem newline_not_mem_nvtBody_iff {nvt : ResultNvtInfo} :
    '\n' ∉ nvtBody nvt ↔ ∀ field ∈ nvtFields nvt, '\n' ∉ field := by
  simp [nvtBody]

/-- No field of a served result has a newline. -/
def ServedReport.OneLine (r : ServedReport) : Prop :=
  ∀ nvt ∈ r.nvts, ∀ field ∈ nvtFields nvt, '\n' ∉ field

/-- The text of the results, stably sorted by host. It has as many lines as there are results exactly
when no field has a newline, and then one for each result. -/
structure ServedReport.Printed (r : ServedReport) (text : Text) : Prop where
  sorted : ∃ nvts, StablySorted cmpNvtHost r.nvts nvts ∧ text = (nvts.map nvtLine).flatten ∧
    (r.OneLine → text.splitOn '\n' = nvts.map nvtBody ++ [[]])
  lines : text.count '\n' = r.nvts.length ↔ r.OneLine

theorem ServedReport.printed {r : ServedReport} {nvts : List ResultNvtInfo}
    (h : StablySorted cmpNvtHost r.nvts nvts) : r.Printed (nvts.map nvtLine).flatten := by
  have hbodies : (∀ body ∈ nvts.map nvtBody, '\n' ∉ body) ↔ r.OneLine := by
    simp only [List.forall_mem_map, newline_not_mem_nvtBody_iff, ServedReport.OneLine]
    exact forall_congr' fun nvt => imp_congr_left h.perm.mem_iff
  refine ⟨⟨nvts, h, rfl, fun hone => ?_⟩, ?_⟩
  · rw [map_nvtLine]
    exact splitOn_lines (hbodies.mpr hone)
  · have hcount :
        ((nvts.map nvtBody).map fun body => body ++ ['\n']).flatten.count '\n' =
          (nvts.map nvtBody).length ↔ ∀ body ∈ nvts.map nvtBody, '\n' ∉ body :=
      count_lines_eq_length_iff
    rw [List.length_map, h.perm.length_eq, hbodies] at hcount
    rwa [map_nvtLine]

/-- The last check of a download: all results are stored, the task waits for a new report and
forgets the results, and their text is printed for the result file. -/
structure Completed (r : ServedReport) (env : Env) (t : ListGvmTask) (files : Files) : Prop where
  chkType : (queryResult env t files).task.chkType = .chkTask
  resultInfo : (queryResult env t files).task.resultInfo = {}
  all : Fetched r (fetchResults env t).val.2 r.nvts.length
  text : ∃ text, r.Printed text ∧
    printNvts maxCacheSize (fetchResults env t).val.2.results = some text ∧
    (env.write (gvmPaths t.taskInfo.taskId.text).resultFile = .ok →
      (queryResult env t files).files (gvmPaths t.taskInfo.taskId.text).resultFile = some text)

/-- One check for results goes on with the download or completes it. -/
theorem Fetched.queryResult {r : ServedReport} {env : Env} {t : ListGvmTask} (files : Files) {n : ℕ}
    (h : Fetched r (fetchResults env t).val.2 n) (htype : t.chkType = .chkResult) :
    ((OpenvasTool.queryResult env t files).task.chkType = .chkResult ∧
        (OpenvasTool.queryResult env t files).task.resultInfo = (fetchResults env t).val.2) ∨
      Completed r env t files := by
  rcases queryResult_cases env t files with heq | ⟨outbuf, hdone, hprint, heq⟩
  · refine Or.inl ⟨?_, ?_⟩
    · rw [heq]
      exact htype
    · rw [heq]
  · rw [(h.done.mp hdone).2] at h
    have hsorted := h.sorted
    rw [List.take_length] at hsorted
    have hchk : (OpenvasTool.queryResult env t files).task.chkType = .chkTask := by rw [heq]
    refine Or.inr ⟨hchk, by rw [heq], h, _, r.printed hsorted, ?_, ?_⟩
    · rw [← printNvts_eq hprint]
      exact hprint
    · intro hwrite
      obtain ⟨outbuf', _, hprint', _, hfile⟩ := queryResult_written htype hchk fun _ => hwrite
      rw [hfile, printNvts_eq hprint']

/-! ### All checks -/

/-- One check for results of a task, as the daemon leaves the task. -/
def resultStep (t : ListGvmTask) (i : Env × Files) : ListGvmTask :=
  (queryResult i.1 t i.2).task.setTaskNextChkTime i.1.clkNext (queryResult i.1 t i.2).interval

/-- The task still collects results, and gvmd serves this report. -/
def Collecting (r : ServedReport) (t : ListGvmTask) (i : Env × Files) : Prop :=
  t.chkType = .chkResult ∧ Serves r i.1 t

/-- One check: the first results of the report are stored, then the next ones of the page too, up to
the first failure, and the task keeps them or the download is complete. -/
def FetchesNext (r : ServedReport) (t : ListGvmTask) (i : Env × Files) : Prop :=
  ∃ n, Fetched r t.resultInfo n ∧
    Fetched r (fetchResults i.1 t).val.2 (n + storedBy i.1 t (min 10 (r.nvts.length - n))) ∧
    ((resultStep t i).resultInfo = (fetchResults i.1 t).val.2 ∨ Completed r i.1 t i.2)

/-- **Every download is complete.** From its first check on, with any failures of queries and
allocations, every check stores the next results of the report, each once. After them either the
task still collects results and has the first ones, or the last check has completed the download.
The text for the result file then has one line per result exactly when no field has a newline. -/
theorem completed_of_collecting {r : ServedReport} (hroom : r.HasRoom) {t : ListGvmTask}
    (htype : t.chkType = .chkResult) (hempty : t.resultInfo = {}) {is : List (Env × Files)}
    (h : Along resultStep (Collecting r) t is) :
    Along resultStep (FetchesNext r) t is ∧
      (((run resultStep t is).chkType = .chkResult ∧
          ∃ n, Fetched r (run resultStep t is).resultInfo n) ∨
        ((run resultStep t is).chkType = .chkTask ∧ (run resultStep t is).resultInfo = {} ∧
          ∃ before last, is = before ++ [last] ∧
            Completed r last.1 (run resultStep t before) last.2)) := by
  induction is using List.reverseRecOn with
  | nil =>
    refine ⟨trivial, Or.inl ⟨htype, 0, ?_⟩⟩
    rw [run_nil, hempty]
    exact fetched_empty r
  | append_singleton is i ih =>
    obtain ⟨his, hi, hserves⟩ := along_concat.mp h
    have hlast : run resultStep t (is ++ [i]) = resultStep (run resultStep t is) i := by simp
    obtain ⟨halong, ⟨_, n, hfetched⟩ | ⟨hend, _⟩⟩ := ih his
    · have hmore := hfetched.fetch hroom hserves
      rw [hlast, along_concat]
      rcases hmore.queryResult i.2 hi with ⟨hchk, hkept⟩ | hcompleted
      · have hnext : (resultStep (run resultStep t is) i).resultInfo =
            (fetchResults i.1 (run resultStep t is)).val.2 := hkept
        refine ⟨⟨halong, n, hfetched, hmore, Or.inl hnext⟩, Or.inl ⟨hchk, ?_⟩⟩
        rw [hnext]
        exact ⟨_, hmore⟩
      · exact ⟨⟨halong, n, hfetched, hmore, Or.inr hcompleted⟩,
          Or.inr ⟨hcompleted.chkType, hcompleted.resultInfo, is, i, rfl, hcompleted⟩⟩
    · simp [hend] at hi

/-- A report of the results with these names. -/
def sampleServed (names : List String) : ServedReport where
  nodes := names.map sampleNameNode
  nvts := parsedNvts sampleResultEnv 0 (names.map sampleNameNode)

/-- gvmd serves the results of these names. -/
def sampleServing (names : List String) : GvmRequest → Option GvmRsp
  | .getResults id report first rows =>
      some (okRsp (.getResults id report first rows) (some (sampleNamesPage
        (String.ofList (decimal names.length))
        ((names.drop (first - 1).toNat).take rows.toNat))))
  | req => sampleScan req

/-- A check in which gvmd serves the results, and so many of them can be allocated. -/
def sampleFetch (names : List String) (room : ℕ) : Env × Files :=
  ({ Env.smooth (sampleServing names) with allocNvt := fun i => i < room }, fun _ => none)

/-- A task whose report is over. -/
def sampleCollecting : ListGvmTask where
  taskInfo := { taskId := sampleTaskId }
  reportInfo := { curReportId := sampleReport }
  chkType := .chkResult

/-- Two results. -/
def sampleNames : List String := ["Telnet", "rsh"]

/-- One result with a newline in its name. -/
def sampleBroken : List String := ["Telnet\nrsh"]

theorem collecting_sampleFetch {names : List String} (hnames : names ∈ [sampleNames, sampleBroken])
    (room : ℕ) {t : ListGvmTask} (htype : t.chkType = .chkResult) :
    Collecting (sampleServed names) t (sampleFetch names room) := by
  have hreadable : (sampleServed names).nodes.map (parseNvt sampleResultEnv) =
      (sampleServed names).nvts.map some := by
    revert names
    decide +kernel
  have hcount : names.length = (sampleServed names).nvts.length := by
    have hlength := congrArg List.length hreadable
    rw [List.length_map, List.length_map] at hlength
    rw [← hlength, sampleServed, List.length_map]
  refine ⟨htype, ⟨hreadable, fun rsp root hrsp hdoc => ?_, fun rsp root hrsp hdoc => ?_⟩⟩
  all_goals
    obtain rfl := Option.some.inj (gvmd_of_resultAnswer hrsp)
    obtain rfl := Option.some.inj hdoc
  · refine ⟨_, select_sampleNamesPage _ _, ?_⟩
    rw [← hcount]
    simp [textElement, Xml.Node.directText, Xml.Node.children]
  · rw [pageNodes_sampleNamesPage, List.map_take, List.map_drop]
    rfl

theorem hasRoom_sampleServed {names : List String} (hnames : names ∈ [sampleNames, sampleBroken]) :
    (sampleServed names).HasRoom := by
  unfold ServedReport.HasRoom
  revert names
  decide +kernel

/-- The second result cannot be allocated in the first check, and the second check fetches it. -/
theorem completed_of_collecting_sampleNames :
    let is := [sampleFetch sampleNames 1, sampleFetch sampleNames 10]
    let r := sampleServed sampleNames
    (run resultStep sampleCollecting is).chkType = .chkTask ∧
      Along resultStep (FetchesNext r) sampleCollecting is ∧
      (((run resultStep sampleCollecting is).chkType = .chkResult ∧
          ∃ n, Fetched r (run resultStep sampleCollecting is).resultInfo n) ∨
        ((run resultStep sampleCollecting is).chkType = .chkTask ∧
          (run resultStep sampleCollecting is).resultInfo = {} ∧
          ∃ before last, is = before ++ [last] ∧
            Completed r last.1 (run resultStep sampleCollecting before) last.2)) := by
  have hnames : sampleNames ∈ [sampleNames, sampleBroken] := List.mem_cons_self
  have hfirst : (resultStep sampleCollecting (sampleFetch sampleNames 1)).chkType = .chkResult := by
    decide +kernel
  refine ⟨by decide +kernel, ?_⟩
  exact completed_of_collecting (hasRoom_sampleServed hnames) rfl rfl
    ⟨collecting_sampleFetch hnames 1 rfl, collecting_sampleFetch hnames 10 hfirst, trivial⟩

/-- The result with a newline in its name gives two lines. -/
theorem not_oneLineEach_sampleBroken :
    ¬ ∀ (r : ServedReport) (t : ListGvmTask) (before : List (Env × Files)) (last : Env × Files),
      r.HasRoom → t.chkType = .chkResult → t.resultInfo = {} →
        Along resultStep (Collecting r) t (before ++ [last]) →
        (run resultStep t (before ++ [last])).chkType = .chkTask →
        last.1.write (gvmPaths t.taskInfo.taskId.text).resultFile = .ok →
          ∃ text, (queryResult last.1 (run resultStep t before) last.2).files
              (gvmPaths t.taskInfo.taskId.text).resultFile = some text ∧
            text.count '\n' = r.nvts.length := by
  intro hclaim
  have hnames : sampleBroken ∈ [sampleNames, sampleBroken] := by simp
  obtain ⟨text, hfile, hcount⟩ := hclaim (sampleServed sampleBroken) sampleCollecting []
    (sampleFetch sampleBroken 10) (hasRoom_sampleServed hnames) rfl rfl
    ⟨collecting_sampleFetch hnames 10 rfl, trivial⟩ (by decide +kernel) rfl
  have htwo : ((queryResult (sampleFetch sampleBroken 10).1 sampleCollecting
      (sampleFetch sampleBroken 10).2).files
        (gvmPaths sampleCollecting.taskInfo.taskId.text).resultFile).map (List.count '\n') =
      some 2 := by decide +kernel
  have hone : (sampleServed sampleBroken).nvts.length = 1 := by decide +kernel
  rw [run_nil] at hfile
  rw [hfile, Option.map_some, hcount, hone] at htwo
  exact absurd htwo (by decide)

end OpenvasTool
