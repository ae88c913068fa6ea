import OpenvasTool.Gvm.Reports

/-!
# The download of results

The results of a report come in pages. The total is read from the first answer,
every answer appends the results that could be read from it, and the download is
complete when the number of results is the total.
-/

namespace OpenvasTool

open Posix Support Xml

/-! ### One answer -/

/-- The results of a page that come in front of the first one that cannot be stored. -/
def parsedNvts (env : Env) : ℕ → List Xml.Node → List ResultNvtInfo
  | _, [] => []
  | i, cur :: nodes =>
      if env.allocNvt i then
        match parseNvt env cur with
        | some nvt => nvt :: parsedNvts env (i + 1) nodes
        | none => []
      else []

theorem length_parsedNvts_le (env : Env) (i : ℕ) (nodes : List Xml.Node) :
    (parsedNvts env i nodes).length ≤ nodes.length := by
  induction nodes generalizing i with
  | nil => simp [parsedNvts]
  | cons cur nodes ih =>
    have hle := ih (i + 1)
    unfold parsedNvts
    split
    · split
      · simp only [List.length_cons]
        omega
      · simp
    · simp

/-- Append results one after the other. -/
def pushNvts (results : ListQueue ResultNvtInfo) (nvts : List ResultNvtInfo) :
    ListQueue ResultNvtInfo :=
  nvts.foldl (fun queue nvt => queue.pushBack (fun old => cmpNvtHost old nvt) nvt) results

@[simp] theorem cnt_pushNvts (results : ListQueue ResultNvtInfo) (nvts : List ResultNvtInfo) :
    (pushNvts results nvts).cnt = results.cnt + nvts.length := by
  induction nvts generalizing results with
  | nil => simp [pushNvts]
  | cons nvt nvts ih =>
    have hpush := ih (results.pushBack (fun old => cmpNvtHost old nvt) nvt)
    have hcnt : (results.pushBack (fun old => cmpNvtHost old nvt) nvt).cnt = results.cnt + 1 := rfl
    simp only [pushNvts, List.foldl_cons] at hpush ⊢
    rw [hpush, hcnt]
    push_cast [List.length_cons]
    omega

/-- The loop over a page stores what could be read, and succeeds when that is everything. -/
theorem parseNvts_eq (env : Env) (i : ℕ) (nodes : List Xml.Node) (results : ListQueue ResultNvtInfo) :
    parseNvts env i nodes results =
      ((parsedNvts env i nodes).length == nodes.length,
        pushNvts results (parsedNvts env i nodes)) := by
  induction nodes generalizing i results with
  | nil => rfl
  | cons cur nodes ih =>
    unfold parseNvts parsedNvts
    split
    · cases hnvt : parseNvt env cur with
      | none => simp [pushNvts]
      | some nvt => simp [ih, pushNvts]
    · simp [pushNvts]

/-- The results of an answer. -/
def pageNodes (root : Xml.Node) : List Xml.Node :=
  root.select ["get_results_response".toList, "result".toList]

/-- The total is known, or an answer fixes it, or it stays unknown. -/
theorem readTotalCnt_cases (root : Xml.Node) (info : GvmResultInfo) :
    (0 ≤ info.totalCnt ∧ readTotalCnt root info = (some info.totalCnt, info)) ∨
      (info.totalCnt < 0 ∧ ∃ total, 0 ≤ total ∧
        readTotalCnt root info = (some total, { info with totalCnt := total })) ∨
      (info.totalCnt < 0 ∧ ∃ total, total < 0 ∧
        readTotalCnt root info = (none, { info with totalCnt := total })) := by
  unfold readTotalCnt
  split
  · rename_i hunknown
    refine Or.inr ?_
    have hsame : info = { info with totalCnt := info.totalCnt } := rfl
    split
    · split
      · split
        · rename_i hneg
          exact Or.inr ⟨hunknown, _, hneg, rfl⟩
        · rename_i hneg
          exact Or.inl ⟨hunknown, _, not_lt.mp hneg, rfl⟩
      · exact Or.inr ⟨hunknown, info.totalCnt, hunknown, by rw [← hsame]⟩
    · exact Or.inr ⟨hunknown, info.totalCnt, hunknown, by rw [← hsame]⟩
  · rename_i hknown
    exact Or.inl ⟨not_lt.mp hknown, rfl⟩

/-- Without a total nothing is stored. -/
theorem parseResult_unknown {env : Env} {root : Xml.Node} {info info' : GvmResultInfo}
    (h : readTotalCnt root info = (none, info')) :
    parseResult env (some root) info = (false, { info' with first := info'.results.cnt + 1 }) := by
  unfold parseResult
  dsimp only
  rw [h]

/-- A report without results is complete at once. -/
theorem parseResult_zero {env : Env} {root : Xml.Node} {info info' : GvmResultInfo}
    (h : readTotalCnt root info = (some 0, info')) :
    parseResult env (some root) info =
      (true, { info' with done := true, first := info'.results.cnt + 1 }) := by
  unfold parseResult
  dsimp only
  rw [h]
  rfl

/-- The page is not empty and all its results could be stored. -/
def pageComplete (env : Env) (root : Xml.Node) : Bool :=
  0 < (pageNodes root).length && (parsedNvts env 0 (pageNodes root)).length == (pageNodes root).length

/-- An answer with results: what could be read is stored, and a complete page may be the last. -/
theorem parseResult_page (env : Env) {root : Xml.Node} {info info' : GvmResultInfo} {total : ℤ}
    (h : readTotalCnt root info = (some total, info')) (htotal : total ≠ 0) :
    parseResult env (some root) info =
      (pageComplete env root,
        { info' with
          first := (pushNvts info'.results (parsedNvts env 0 (pageNodes root))).cnt + 1
          results := pushNvts info'.results (parsedNvts env 0 (pageNodes root))
          done := info'.done || (pageComplete env root && info'.totalCnt ==
            (pushNvts info'.results (parsedNvts env 0 (pageNodes root))).cnt) }) := by
  unfold parseResult pageComplete
  dsimp only
  rw [h]
  dsimp only
  rw [if_neg htotal]
  unfold pageNodes
  split
  · rename_i hempty
    rw [hempty]
    simp [parsedNvts, pushNvts]
  · rename_i hne
    have hpos : 0 < (root.select ["get_results_response".toList, "result".toList]).length :=
      List.length_pos_of_ne_nil hne
    rw [parseNvts_eq]
    simp only [hpos, decide_true, Bool.true_and]
    split
    · rename_i heq
      obtain ⟨hok, rfl⟩ := Prod.mk.inj heq
      rw [hok]
      rfl
    · rename_i heq
      obtain ⟨hok, rfl⟩ := Prod.mk.inj heq
      rw [hok]
      simp

/-- The answer of gvmd to the query for the next results. -/
def resultAnswer (env : Env) (t : ListGvmTask) : Option GvmRsp :=
  (gvmQueryResult env t.taskInfo.taskId.text t.reportInfo.curReportId.text t.resultInfo.first
    t.resultInfo.rows).val

/-- The answer is what gvmd says to the query. -/
theorem gvmd_of_resultAnswer {env : Env} {t : ListGvmTask} {rsp : GvmRsp}
    (h : resultAnswer env t = some rsp) :
    env.gvmd (.getResults t.taskInfo.taskId.text t.reportInfo.curReportId.text t.resultInfo.first
      t.resultInfo.rows) = some rsp := by
  unfold resultAnswer gvmQueryResult uuidCommand at h
  split at h
  · split at h
    · exact (Option.filter_eq_some_iff.mp h).1
    · simp at h
  · simp at h

/-- A check reads one more answer, unless the download is complete or the query fails. -/
theorem fetchResults_val (env : Env) (t : ListGvmTask) :
    (fetchResults env t).val =
      if t.resultInfo.done then (true, t.resultInfo)
      else
        match resultAnswer env t with
        | none => (false, t.resultInfo)
        | some rsp => parseResult env rsp.doc t.resultInfo := by
  unfold fetchResults resultAnswer
  split
  · rfl
  · rw [Sent.andThen_val]
    cases (gvmQueryResult env t.taskInfo.taskId.text t.reportInfo.curReportId.text
      t.resultInfo.first t.resultInfo.rows).val with
    | none => rfl
    | some rsp => rfl

/-! ### The state of a download -/

/-- As long as the total is unknown nothing is stored. Then the download is complete exactly when
the number of results is the total, and before that results are missing. -/
structure Downloading (info : GvmResultInfo) : Prop where
  nonneg : 0 ≤ info.results.cnt
  unknown : info.totalCnt < 0 → info.done = false ∧ info.results.cnt = 0
  known : 0 ≤ info.totalCnt → (info.done = true ∧ info.results.cnt = info.totalCnt) ∨
    (info.done = false ∧ info.results.cnt < info.totalCnt)
  rows : 1 ≤ info.rows

theorem downloading_empty : Downloading {} :=
  ⟨le_rfl, fun _ => ⟨rfl, rfl⟩, fun h => absurd h (by decide), by decide⟩

/-- The answer brings no more results than are missing to the total, or a result that cannot be
stored comes before the last missing one. -/
def AnswerFits (env : Env) (root : Xml.Node) (info : GvmResultInfo) : Prop :=
  ∀ total info', readTotalCnt root info = (some total, info') → total ≠ 0 →
    ((pageNodes root).length : ℤ) ≤ total - info.results.cnt ∨
      ((parsedNvts env 0 (pageNodes root)).length : ℤ) < total - info.results.cnt

namespace Downloading

variable {info : GvmResultInfo}

/-- The three outcomes of reading the total. -/
theorem total_cases (h : Downloading info) (root : Xml.Node) (hdone : info.done = false) :
    (∃ total, 0 < total ∧ info.results.cnt < total ∧
        readTotalCnt root info = (some total, { info with totalCnt := total })) ∨
      (info.results.cnt = 0 ∧
        readTotalCnt root info = (some 0, { info with totalCnt := 0 })) ∨
      (info.results.cnt = 0 ∧ ∃ total, total < 0 ∧
        readTotalCnt root info = (none, { info with totalCnt := total })) := by
  have hnonneg := h.nonneg
  rcases readTotalCnt_cases root info with ⟨hknown, heq⟩ | ⟨hunknown, total, htotal, heq⟩ |
    ⟨hunknown, total, htotal, heq⟩
  · rcases h.known hknown with ⟨htrue, _⟩ | ⟨_, hlt⟩
    · simp [hdone] at htrue
    · exact Or.inl ⟨info.totalCnt, by omega, hlt, heq⟩
  · have hcnt := (h.unknown hunknown).2
    rcases htotal.eq_or_lt with rfl | hpos
    · exact Or.inr (Or.inl ⟨hcnt, heq⟩)
    · exact Or.inl ⟨total, hpos, by omega, heq⟩
  · exact Or.inr (Or.inr ⟨(h.unknown hunknown).2, total, htotal, heq⟩)

/-- An answer that fits goes on with the download or completes it. -/
theorem parse (h : Downloading info) (hdone : info.done = false) {env : Env} {root : Xml.Node}
    (hfits : AnswerFits env root info) : Downloading (parseResult env (some root) info).2 := by
  have hnonneg := h.nonneg
  rcases h.total_cases root hdone with ⟨total, hpos, hlt, heq⟩ | ⟨hcnt, heq⟩ |
    ⟨hcnt, total, htotal, heq⟩
  · rw [parseResult_page env heq hpos.ne']
    have hle := length_parsedNvts_le env 0 (pageNodes root)
    refine ⟨?_, fun hneg => ?_, fun _ => ?_, h.rows⟩
    · simp only [cnt_pushNvts]
      omega
    · have hneg' : total < 0 := hneg
      omega
    simp only [cnt_pushNvts, hdone, Bool.false_or, Bool.and_eq_true, beq_iff_eq,
      Bool.and_eq_false_iff, beq_eq_false_iff_ne, pageComplete, decide_eq_true_eq,
      decide_eq_false_iff_not]
    rcases hfits total _ heq hpos.ne' with hpage | hgood <;> omega
  · rw [parseResult_zero heq]
    exact ⟨hnonneg, fun hneg => absurd hneg (lt_irrefl (0 : ℤ)), fun _ => Or.inl ⟨rfl, hcnt⟩, h.rows⟩
  · rw [parseResult_unknown heq]
    exact ⟨hnonneg, fun _ => ⟨hdone, hcnt⟩, fun hknown => absurd hknown (not_le.mpr htotal), h.rows⟩

end Downloading

/-! ### Finishing a download -/

/-- Read answers one after the other. -/
def readAnswers (info : GvmResultInfo) (answers : List (Env × Xml.Node)) : GvmResultInfo :=
  answers.foldl (fun info a => (parseResult a.1 (some a.2) info).2) info

/-- No more results than the known total are stored, the download is complete as soon as there are
that many, and some sequence of answers of at most `m_rows` results each completes it. -/
structure CanComplete (info : GvmResultInfo) : Prop where
  bounded : 0 ≤ info.totalCnt → info.results.cnt ≤ info.totalCnt
  prompt : 0 ≤ info.totalCnt → info.results.cnt = info.totalCnt → info.done = true
  finish : info.done = false → ∃ answers : List (Env × Xml.Node),
    (∀ a ∈ answers, ((pageNodes a.2).length : ℤ) ≤ info.rows) ∧
      (readAnswers info answers).done = true

/-- A result of this name with all the elements that are read. -/
def sampleNameNode (name : String) : Xml.Node :=
  .element "result".toList [("id".toList, sampleUuid '1')]
    [textElement "name" name, textElement "threat" "High", textElement "severity" "7.5",
      textElement "port" "23/tcp", textElement "host" "10.0.0.1", textElement "creation_time" "",
      .element "nvt".toList [] [textElement "cvss_base" "7.5"]]

def sampleResultNode : Xml.Node := sampleNameNode "Telnet"

/-- An answer with this total and the results of these names. -/
def sampleNamesPage (total : String) (names : List String) : Xml.Node :=
  .element "get_results_response".toList []
    (.element "result_count".toList [] [textElement "filtered" total] :: names.map sampleNameNode)

/-- An answer with this total and this many results. -/
def sampleResultPage (total : String) (n : ℕ) : Xml.Node :=
  sampleNamesPage total (List.replicate n "Telnet")

/-- All calls succeed. -/
def sampleResultEnv : Env := .smooth fun _ => none

theorem pageNodes_sampleNamesPage (total : String) (names : List String) :
    pageNodes (sampleNamesPage total names) = names.map sampleNameNode := by
  have hselect : ∀ names : List String, (names.map sampleNameNode).flatMap
      (Xml.Node.select ["result".toList]) = names.map sampleNameNode := by
    intro names
    induction names with
    | nil => rfl
    | cons name names ih =>
      rw [List.map_cons, List.flatMap_cons, ih]
      rfl
  exact hselect names

theorem select_sampleNamesPage (total : String) (names : List String) :
    (sampleNamesPage total names).select ["get_results_response".toList, "result_count".toList,
      "filtered".toList] = [textElement "filtered" total] := by
  have hselect : ∀ names : List String, (names.map sampleNameNode).flatMap
      (Xml.Node.select ["result_count".toList, "filtered".toList]) = [] := by
    intro names
    induction names with
    | nil => rfl
    | cons name names ih =>
      rw [List.map_cons, List.flatMap_cons, ih]
      rfl
  exact congrArg (textElement "filtered" total :: ·) (hselect names)

theorem pageNodes_sampleResultPage (total : String) (n : ℕ) :
    pageNodes (sampleResultPage total n) = List.replicate n sampleResultNode := by
  rw [sampleResultPage, pageNodes_sampleNamesPage, List.map_replicate]
  rfl

theorem parsedNvts_sampleResultNode :
    (parsedNvts sampleResultEnv 0 [sampleResultNode]).length = 1 := by decide +kernel

/-- Answers with one result each complete every download that is going on. -/
theorem Downloading.finish {info : GvmResultInfo} (h : Downloading info) (hdone : info.done = false)
    {n : ℕ} (hn : (info.totalCnt - info.results.cnt).toNat = n) :
    ∃ answers : List (Env × Xml.Node),
      (∀ a ∈ answers, ((pageNodes a.2).length : ℤ) ≤ info.rows) ∧
        (readAnswers info answers).done = true := by
  have hrows := h.rows
  induction n generalizing info with
  | zero =>
    -- the total is unknown, so an answer without results completes the download
    have hunknown : info.totalCnt < 0 := by
      by_contra hknown
      rcases h.known (not_lt.mp hknown) with ⟨htrue, _⟩ | ⟨_, hlt⟩
      · simp [hdone] at htrue
      · omega
    refine ⟨[(sampleResultEnv, sampleResultPage "0" 0)], ?_, ?_⟩
    · intro a ha
      obtain rfl := List.mem_singleton.mp ha
      rw [pageNodes_sampleResultPage]
      simp only [List.length_replicate]
      omega
    · have hzero : readTotalCnt (sampleResultPage "0" 0) info =
          (some 0, { info with totalCnt := 0 }) := by
        unfold readTotalCnt
        rw [if_pos hunknown]
        rfl
      show (parseResult _ _ info).2.done = true
      rw [parseResult_zero hzero]
  | succ n ih =>
    by_cases hunknown : info.totalCnt < 0
    · have hcnt := (h.unknown hunknown).2
      omega
    have hlt : info.results.cnt < info.totalCnt := by omega
    have hnonneg := h.nonneg
    set root := sampleResultPage "0" 1
    have hknown : readTotalCnt root info = (some info.totalCnt, info) := by
      unfold readTotalCnt
      rw [if_neg hunknown]
    have hnodes : pageNodes root = [sampleResultNode] := pageNodes_sampleResultPage "0" 1
    have hfits : AnswerFits sampleResultEnv root info := by
      intro total info' heq _
      obtain ⟨htotal, rfl⟩ := Prod.mk.inj (hknown.symm.trans heq)
      obtain rfl := Option.some.inj htotal
      refine Or.inl ?_
      rw [hnodes, List.length_singleton]
      omega
    have hnext := h.parse hdone hfits
    have hpage := parseResult_page sampleResultEnv hknown (by omega)
    by_cases hdone' : (parseResult sampleResultEnv (some root) info).2.done = true
    · refine ⟨[(sampleResultEnv, root)], ?_, hdone'⟩
      intro a ha
      obtain rfl := List.mem_singleton.mp ha
      rw [hnodes, List.length_singleton]
      omega
    · obtain ⟨answers, hrowsle, hfinish⟩ := ih hnext (by simpa using hdone') (by
        rw [hpage]
        simp only [cnt_pushNvts, hnodes, parsedNvts_sampleResultNode]
        omega) hnext.rows
      refine ⟨(sampleResultEnv, root) :: answers, ?_, hfinish⟩
      intro a ha
      rcases List.mem_cons.mp ha with rfl | ha
      · rw [hnodes, List.length_singleton]
        omega
      · have hle := hrowsle a ha
        rw [hpage] at hle
        exact hle

theorem Downloading.canComplete {info : GvmResultInfo} (h : Downloading info) :
    CanComplete info := by
  refine ⟨fun hknown => ?_, fun hknown hcnt => ?_, fun hdone => h.finish hdone rfl⟩
  · rcases h.known hknown with ⟨_, heq⟩ | ⟨_, hlt⟩ <;> omega
  · rcases h.known hknown with ⟨hdone, _⟩ | ⟨_, hlt⟩
    · exact hdone
    · omega

/-- After an answer that does not fit, too many results are stored, or just as many as the total
without the download being complete. -/
theorem not_canComplete_of_not_answerFits {info : GvmResultInfo}
    (hdone : info.done = false) {env : Env} {root : Xml.Node} (hfits : ¬ AnswerFits env root info) :
    (parseResult env (some root) info).2.done = false ∧
      ¬ CanComplete (parseResult env (some root) info).2 := by
  unfold AnswerFits at hfits
  push Not at hfits
  obtain ⟨total, info', heq, htotal, hpage, hgood⟩ := hfits
  have hinfo : info' = { info with totalCnt := total } ∧ 0 ≤ total := by
    rcases readTotalCnt_cases root info with ⟨hknown, hread⟩ | ⟨_, n, hn, hread⟩ | ⟨_, n, _, hread⟩
    · obtain ⟨hsome, rfl⟩ := Prod.mk.inj (hread.symm.trans heq)
      obtain rfl := Option.some.inj hsome
      exact ⟨rfl, hknown⟩
    · obtain ⟨hsome, rfl⟩ := Prod.mk.inj (hread.symm.trans heq)
      obtain rfl := Option.some.inj hsome
      exact ⟨rfl, hn⟩
    · simp [hread] at heq
  obtain ⟨rfl, hnonneg⟩ := hinfo
  have hle := length_parsedNvts_le env 0 (pageNodes root)
  rw [parseResult_page env heq htotal]
  have hnot : (pageComplete env root && total ==
      (pushNvts info.results (parsedNvts env 0 (pageNodes root))).cnt) = false := by
    simp only [cnt_pushNvts, Bool.and_eq_false_iff, beq_eq_false_iff_ne, pageComplete]
    by_cases hall : (parsedNvts env 0 (pageNodes root)).length = (pageNodes root).length
    · right
      omega
    · left
      right
      exact hall
  have hdone' : (info.done || (pageComplete env root && total ==
      (pushNvts info.results (parsedNvts env 0 (pageNodes root))).cnt)) = false := by
    rw [hdone, hnot]
    rfl
  refine ⟨hdone', fun hcan => ?_⟩
  have hbounded := hcan.bounded hnonneg
  have hprompt := hcan.prompt hnonneg
  simp only [cnt_pushNvts] at hbounded hprompt
  have hcnt : info.results.cnt + ((parsedNvts env 0 (pageNodes root)).length : ℤ) = total := by
    omega
  rw [cnt_pushNvts] at hdone'
  rw [hprompt hcnt] at hdone'
  simp at hdone'

/-! ### The result phase in runs of the daemon -/

theorem Downloading.fetch {env : Env} {t : ListGvmTask} (h : Downloading t.resultInfo)
    (hfits : ∀ rsp root, t.resultInfo.done = false → resultAnswer env t = some rsp →
      rsp.doc = some root → AnswerFits env root t.resultInfo) :
    Downloading (fetchResults env t).val.2 := by
  rw [fetchResults_val]
  split
  · exact h
  rename_i hdone
  split
  · exact h
  rename_i rsp hrsp
  cases hdoc : rsp.doc with
  | none => exact h
  | some root =>
    have hdone' : t.resultInfo.done = false := by simpa using hdone
    exact h.parse hdone' (hfits rsp root hdone' hrsp hdoc)

/-- Only the checks for results touch the results of a task. -/
theorem TaskStep.resultInfo {env : Env} {due deleting : Prop} {files files' : Files}
    {t t' : ListGvmTask} (h : TaskStep env due deleting files files' t t') :
    t'.resultInfo = t.resultInfo ∨ t'.resultInfo = {} ∨
      (due ∧ t.chkType = .chkResult ∧ t'.resultInfo = (fetchResults env t).val.2) := by
  cases h with
  | rescheduled time => exact Or.inl rfl
  | marked a b _ _ => exact Or.inl rfl
  | queriedTask _ _ _ =>
    rcases queryTask_cases env t files with heq | ⟨_, _, _, _, heq⟩ <;> rw [heq] <;> exact Or.inl rfl
  | queriedReport _ _ _ =>
    rcases queryReport_cases env t files with heq | ⟨info, _, _, heq⟩
    · rw [heq]
      exact Or.inl rfl
    · rw [heq]
      rcases reportChkType_cases (polledTask t info) with ⟨_, hc⟩ | ⟨_, hc⟩ | ⟨_, _, hc⟩ <;>
        rw [hc] <;> exact Or.inl rfl
  | queriedResult hdue htype _ =>
    rcases queryResult_cases env t files with heq | ⟨_, _, _, heq⟩
    · rw [heq]
      exact Or.inr (Or.inr ⟨hdue, htype, rfl⟩)
    · rw [heq]
      exact Or.inr (Or.inl rfl)

/-- The condition on a step: the answer that a check for results reads fits. -/
def AnswersFit (w : World) (i : Event × Env) : Prop :=
  ∀ p t rsp root, i.1 = .runGvmChecks → dueTask i.2 w = some p → w.stored p = some t →
    t.chkType = .chkResult → t.resultInfo.done = false → resultAnswer i.2 t = some rsp →
    rsp.doc = some root → AnswerFits i.2 root t.resultInfo

/-- The invariant of the downloads. -/
structure DownloadInvariant (w : World) : Prop where
  consistent : w.StoreConsistent
  downloading : ∀ p t, w.stored p = some t → Downloading t.resultInfo

/-- Every stored task can still complete its download. -/
def CanCompleteAll (w : World) : Prop := ∀ p t, w.stored p = some t → CanComplete t.resultInfo

namespace DownloadInvariant

variable {w : World} (h : DownloadInvariant w)

include h

theorem canCompleteAll : CanCompleteAll w := fun p t hp => (h.downloading p t hp).canComplete

theorem next {i : Event × Env} (hfits : AnswersFit w i) : DownloadInvariant (daemonNext w i) := by
  obtain ⟨hcons, _, hstep⟩ := h.consistent.daemonStep_spec i.2 i.1
  refine ⟨hcons, hstep.forall_stored h.downloading (fun p t t' hp hdown hts => ?_) fun t hnew => ?_⟩
  · rcases hts.resultInfo with heq | heq | ⟨⟨hcheck, hdue⟩, htype, heq⟩ <;> rw [heq]
    · exact hdown
    · exact downloading_empty
    · exact hdown.fetch fun rsp root => hfits p t rsp root hcheck hdue hp htype
  · rw [hnew.resultInfo]
    exact downloading_empty

/-- A step that does not meet the condition leaves a task that cannot complete its download. -/
theorem leave {i : Event × Env} (hfits : ¬ AnswersFit w i) : ¬ CanCompleteAll (daemonNext w i) := by
  obtain ⟨e, env⟩ := i
  unfold AnswersFit at hfits
  push Not at hfits
  obtain ⟨p, t, rsp, root, he, hdue, hp, htype, hdone, hrsp, hdoc, hfits⟩ := hfits
  obtain rfl : e = .runGvmChecks := he
  obtain ⟨hdone', hcan⟩ := not_canComplete_of_not_answerFits hdone hfits
  have hfetch : (fetchResults env t).val.2 = (parseResult env (some root) t.resultInfo).2 := by
    rw [fetchResults_val, if_neg (by simp [hdone]), hrsp]
    show (parseResult env rsp.doc t.resultInfo).2 = _
    rw [hdoc]
  have htask : (queryResult env t w.files).task =
      { t with resultInfo := (fetchResults env t).val.2 } := by
    rcases queryResult_cases env t w.files with heq | ⟨_, htrue, _, _⟩
    · exact heq
    · rw [hfetch, hdone'] at htrue
      simp at htrue
  have hworld : daemonNext w (.runGvmChecks, env) =
      w.finishCheck env p (queryResult env t w.files) := by
    show (OpenvasTool.runGvmChecks env w).2.1 = _
    rw [OpenvasTool.runGvmChecks, hdue]
    show (checkTask env w p).1 = _
    unfold checkTask
    dsimp only
    rw [World.task_of_stored hp, htype]
  have hstored := (h.consistent.finishCheck hp env _ (queryResult_taskInfo env t w.files)).2
  intro hall
  have hp' : (daemonNext w (.runGvmChecks, env)).stored p =
      some ((queryResult env t w.files).task.setTaskNextChkTime env.clkNext
        (queryResult env t w.files).interval) := by
    rw [hworld, hstored, Function.update_self]
  have hlast := hall p _ hp'
  rw [htask] at hlast
  exact hcan (hfetch ▸ hlast)

end DownloadInvariant

theorem downloadInvariant_initDaemon {env : BootEnv} {files : Files} {w : World}
    (hnames : DistinctNames files) (hstart : initDaemon env files = some w) :
    DownloadInvariant w := by
  obtain ⟨hcons, _, hloaded⟩ := initDaemon_spec hnames hstart
  refine ⟨hcons, fun p t hp => ?_⟩
  obtain ⟨body, t0, t1, time, hparse, hread, rfl⟩ := hloaded p t hp
  have hnew := (parseTaskFields_spec hparse).2.resultInfo
  have hsame : t1.resultInfo = t0.resultInfo := by
    rcases hread with rfl | ⟨content, _, hstatus⟩
    · rfl
    · exact parseTaskStatusRecord_resultInfo hstatus
  show Downloading t1.resultInfo
  rw [hsame, hnew]
  exact downloading_empty

/-- **The result phase can finish exactly as long as the answers fit.** In a run of the daemon no
stored task ever holds more results than its known total, each is complete as soon as the total is
reached, and each can still complete its download, if and only if every answer that a check for
results reads brings at most as many results as are missing (or fails before the last of them). -/
theorem canCompleteAll_iff_answersFit {env : BootEnv} {files : Files} {w : World}
    (hnames : DistinctNames files) (hstart : initDaemon env files = some w)
    (is : List (Event × Env)) :
    Throughout daemonNext CanCompleteAll w is ↔ Along daemonNext AnswersFit w is :=
  throughout_iff_along (fun _ h => h.canCompleteAll) (fun _ _ hfits h => h.next hfits)
    (fun _ _ hfits h => h.leave hfits) (downloadInvariant_initDaemon hnames hstart)

/-- Every answer of gvmd has at most `m_rows` results. -/
def PagesBounded (_ : World) (i : Event × Env) : Prop :=
  ∀ req rsp root, i.2.gvmd req = some rsp → rsp.doc = some root →
    ((pageNodes root).length : ℤ) ≤ ({} : GvmResultInfo).rows

/-- The sample gvmd, with a page of this many results. -/
def sampleGrowing (total : String) (n : ℕ) : GvmRequest → Option GvmRsp
  | .getResults id report first rows =>
      some (okRsp (.getResults id report first rows) (some (sampleResultPage total n)))
  | req => sampleScan req

/-- A check at a time when every task is due, with this page. -/
def sampleGrowingCheck (total : String) (n : ℕ) : Event × Env :=
  (.runGvmChecks, { Env.smooth (sampleGrowing total n) with clk := 2000 })

/-- A check of a task that does not collect results meets the condition. -/
theorem answersFit_of_chkType {w : World} {i : Event × Env}
    (h : dueTask i.2 w = some 0 ∧ (w.task 0).chkType ≠ .chkResult) : AnswersFit w i := by
  obtain ⟨hdue, htype⟩ := h
  intro p t _ _ _ hp ht hresult
  obtain rfl := Option.some.inj (hdue.symm.trans hp)
  rw [World.task_of_stored ht] at htype
  exact absurd hresult htype

/-- So does a page with as many results as are missing, or fewer. -/
theorem answersFit_of_page {w : World} {total : String} {n : ℕ} {m : ℤ}
    (h : dueTask (sampleGrowingCheck total n).2 w = some 0 ∧
      (readTotalCnt (sampleResultPage total n) (w.task 0).resultInfo).1 = some m ∧
      n ≤ m - (w.task 0).resultInfo.results.cnt) :
    AnswersFit w (sampleGrowingCheck total n) := by
  obtain ⟨hdue, htotal, hfits⟩ := h
  intro p t rsp root _ hp ht _ _ hrsp hdoc
  obtain rfl := Option.some.inj (hdue.symm.trans hp)
  obtain rfl := Option.some.inj (gvmd_of_resultAnswer hrsp)
  obtain rfl := Option.some.inj hdoc
  rw [World.task_of_stored ht] at htotal hfits
  intro m' info' hread _
  rw [hread] at htotal
  obtain rfl := Option.some.inj htotal
  refine Or.inl ?_
  rwa [pageNodes_sampleResultPage, List.length_replicate]

/-- The scan ends with two results, which come one after the other. -/
def samplePagesSteps : List (Event × Env) :=
  sampleSteps ++ List.replicate 4 (sampleGrowingCheck "2" 1)

/-- After the first result the task still collects them, and the second one completes the download. -/
theorem canCompleteAll_iff_answersFit_samplePagesSteps :
    (Along daemonNext AnswersFit (emptyWorld fun _ => none) samplePagesSteps ∧
      ((daemonRun (emptyWorld fun _ => none) (samplePagesSteps.take 5)).task 0).resultInfo.first = 2 ∧
      ((daemonRun (emptyWorld fun _ => none) samplePagesSteps).task 0).chkType = .chkTask) ∧
    (Throughout daemonNext CanCompleteAll (emptyWorld fun _ => none) samplePagesSteps ↔
      Along daemonNext AnswersFit (emptyWorld fun _ => none) samplePagesSteps) := by
  have hrequest : ∀ w i, i.1 ≠ .runGvmChecks → AnswersFit w i :=
    fun _ _ hne _ _ _ _ he => absurd he hne
  refine ⟨⟨⟨hrequest _ _ (by simp), hrequest _ _ (by simp), ?_, ?_, ?_, ?_, trivial⟩,
    by decide +kernel⟩,
    canCompleteAll_iff_answersFit distinctNames_noFiles initDaemon_noFiles samplePagesSteps⟩
  · exact answersFit_of_chkType (by decide +kernel)
  · exact answersFit_of_chkType (by decide +kernel)
  · exact answersFit_of_page (m := 2) (by decide +kernel)
  · exact answersFit_of_page (m := 2) (by decide +kernel)

/-- The scan ends with eleven results; after the first page there are twelve. -/
def sampleGrowingSteps : List (Event × Env) :=
  sampleSteps ++ [sampleGrowingCheck "11" 10, sampleGrowingCheck "11" 10,
    sampleGrowingCheck "11" 10, sampleGrowingCheck "12" 2]

theorem pagesBounded_sampleGvmd (w : World) (e : Event) :
    PagesBounded w (e, .smooth sampleGvmd) := by
  intro req rsp root hrsp hroot
  cases req <;> obtain rfl := Option.some.inj hrsp <;> cases hroot

theorem pagesBounded_sampleGrowingCheck (w : World) (total : String) {n : ℕ} (hn : n ≤ 10) :
    PagesBounded w (sampleGrowingCheck total n) := by
  intro req rsp root hrsp hroot
  cases req <;> obtain rfl := Option.some.inj hrsp
  case getResults id report first rows =>
    obtain rfl := Option.some.inj hroot
    rw [pageNodes_sampleResultPage, List.length_replicate]
    show (n : ℤ) ≤ 10
    omega
  all_goals
    cases hroot
  all_goals decide

/-- When results arrive between two pages, the number of results passes the latched total. -/
theorem not_canCompleteAll_sampleGrowingSteps :
    ¬ ∀ is, Along daemonNext PagesBounded (emptyWorld fun _ => none) is →
      Throughout daemonNext CanCompleteAll (emptyWorld fun _ => none) is := by
  intro hclaim
  have hbounded : Along daemonNext PagesBounded (emptyWorld fun _ => none) sampleGrowingSteps :=
    ⟨pagesBounded_sampleGvmd _ _, pagesBounded_sampleGvmd _ _,
      pagesBounded_sampleGrowingCheck _ _ le_rfl, pagesBounded_sampleGrowingCheck _ _ le_rfl,
      pagesBounded_sampleGrowingCheck _ _ le_rfl,
      pagesBounded_sampleGrowingCheck _ _ (by omega), trivial⟩
  have hgood : CanCompleteAll (daemonRun (emptyWorld fun _ => none) sampleGrowingSteps) :=
    hclaim _ hbounded _ List.prefix_rfl
  have hlast : (daemonRun (emptyWorld fun _ => none) sampleGrowingSteps).data.nameset.data = [0] ∧
      ((daemonRun (emptyWorld fun _ => none) sampleGrowingSteps).task 0).resultInfo.totalCnt = 11 ∧
      ((daemonRun (emptyWorld fun _ => none) sampleGrowingSteps).task 0).resultInfo.results.cnt =
        12 := by decide +kernel
  obtain ⟨hset, htotal, hcnt⟩ := hlast
  have hreach := reachable_emptyWorld.run sampleGrowingSteps
  have hp := stored_of_nameset hreach hset
  have hbound := (hgood 0 _ hp).bounded
  rw [htotal, hcnt] at hbound
  exact absurd (hbound (by decide)) (by decide)

end OpenvasTool
