import OpenvasTool.Gvm.CheckState
import OpenvasTool.Gvm.TaskFile

/-!
# The status file of a task

The record that is written for a task is read back into the task that the task
file keeps. The values have to be such that the patterns of the reader match
them.
-/

namespace OpenvasTool

open Posix Posix.Regex Support

/-- The keys of the status file. -/
def statusKeys : List Text :=
  ["task_id".toList, "start_time".toList, "stop_time".toList, "status".toList, "chk_type".toList,
    "progress".toList, "report_id".toList, "last_report_id".toList, "results".toList]

/-- The values of a status record that the reader accepts. -/
structure StorableStatus (t : ListGvmTask) : Prop where
  taskId : t.taskInfo.taskId.text ∈ uuidRegPattern.lang
  startTime : t.reportInfo.startTime.text ∈ (customMatchOrNull customTimeStampPattern).lang
  stopTime : t.reportInfo.stopTime.text ∈ (customMatchOrNull customTimeStampPattern).lang
  status : t.reportInfo.status ≠ .error
  progress : 0 ≤ t.reportInfo.progress ∧ t.reportInfo.progress ≤ 100
  curReportId : t.reportInfo.curReportId.text ∈ uuidRegPattern.lang
  lastReportId : t.reportInfo.lastReportId.text ∈ (customMatchOrNull uuidRegPattern).lang

/-- A task as its two files keep it. -/
def ListGvmTask.restored (t : ListGvmTask) : ListGvmTask :=
  { t.persisted with
    reportInfo :=
      { progress := t.reportInfo.progress
        status := t.reportInfo.status
        startTime := t.reportInfo.startTime
        stopTime := t.reportInfo.stopTime
        curReportId := t.reportInfo.curReportId
        lastReportId := t.reportInfo.lastReportId }
    chkType := t.chkType }

/-- Lines of short keys and values are short. -/
theorem length_keyLines_le {fields : List (Text × Text)} {k v : ℕ}
    (h : ∀ f ∈ fields, f.1.length ≤ k ∧ f.2.length ≤ v) :
    (keyLines fields).length ≤ fields.length * (k + v + 4) := by
  induction fields with
  | nil => simp [keyLines]
  | cons f fields ih =>
    have hrest := ih fun g hg => h g (by simp [hg])
    obtain ⟨hkey, hval⟩ := h f (by simp)
    have hline : (keyLine f.1 f.2).length = f.1.length + f.2.length + 4 := by
      simp only [keyLine, List.length_append]
      have hmarks : "=\"".toList.length = 2 ∧ "\"\n".toList.length = 2 := by decide
      omega
    rw [keyLines_cons, List.length_append, List.length_cons, hline, Nat.add_mul]
    omega

/-- A number of at most three digits takes at most three characters. -/
theorem length_decimal_le {n : ℕ} (h : n < 1000) : (decimal n).length ≤ 3 := by
  rw [decimal_natCast]
  exact (Nat.length_toDigits_le_iff (by decide) (by decide)).mpr (by omega)

theorem GvmTaskStatus.toInt_eq_natCast (s : GvmTaskStatus) : ∃ n : ℕ, n ≤ 100 ∧ s.toInt = n := by
  cases s
  exacts [⟨0, by omega, rfl⟩, ⟨1, by omega, rfl⟩, ⟨2, by omega, rfl⟩, ⟨3, by omega, rfl⟩,
    ⟨4, by omega, rfl⟩, ⟨5, by omega, rfl⟩, ⟨6, by omega, rfl⟩, ⟨7, by omega, rfl⟩]

theorem GvmTaskChkType.toInt_eq_natCast (c : GvmTaskChkType) : ∃ n : ℕ, n ≤ 100 ∧ c.toInt = n := by
  cases c
  exacts [⟨0, by omega, rfl⟩, ⟨1, by omega, rfl⟩, ⟨2, by omega, rfl⟩, ⟨3, by omega, rfl⟩]

/-- One to three digits are read back by the pattern of numbers. -/
theorem decimal_mem_customDigitNumPattern' {n : ℕ} (h : n ≤ 100) :
    decimal n ∈ customDigitNumPattern.lang := by
  have hall : (List.range 101).all (fun n => customDigitNumPattern.accepts (decimal n)) = true := by
    decide +kernel
  rw [← Regex.accepts_iff]
  exact List.all_eq_true.mp hall n (List.mem_range.mpr (by omega))

namespace StorableStatus

variable {t : ListGvmTask} (h : StorableStatus t)

include h

theorem progress_eq_natCast : ∃ n : ℕ, n ≤ 100 ∧ t.reportInfo.progress = n := by
  obtain ⟨hlow, hhigh⟩ := h.progress
  exact ⟨t.reportInfo.progress.toNat, by omega, by omega⟩

theorem cleanField : ∀ f ∈ statusFields t, CleanField f := by
  have hval := newline_not_mem_decimal
  have htime : ∀ {time : Text}, time ∈ (customMatchOrNull customTimeStampPattern).lang →
      '\n' ∉ time := by
    intro time hmem
    rcases mem_lang_opt.mp hmem with rfl | hstamp
    · simp
    · exact newline_not_mem_timeStamp hstamp
  have hlast : '\n' ∉ t.reportInfo.lastReportId.text := by
    rcases mem_lang_opt.mp h.lastReportId with hnil | hid
    · simp [hnil]
    · exact (mem_uuidRegPattern hid).2
  apply cleanField_of_keys
  · show ∀ key ∈ statusKeys, key ≠ [] ∧ '=' ∉ key ∧ '\n' ∉ key
    decide
  · simp only [statusFields, List.map_cons, List.map_nil, List.forall_mem_cons]
    exact ⟨(mem_uuidRegPattern h.taskId).2, htime h.startTime, htime h.stopTime, hval _, hval _,
      hval _, (mem_uuidRegPattern h.curReportId).2, hlast, by simp, by simp⟩

/-- A status file is never too large for the reader. -/
theorem length_le : (renderRecord (statusFields t)).length ≤ maxTaskFileSize := by
  obtain ⟨s, hs, hstatus⟩ := t.reportInfo.status.toInt_eq_natCast
  obtain ⟨c, hc, htype⟩ := t.chkType.toInt_eq_natCast
  obtain ⟨n, hn, hprogress⟩ := h.progress_eq_natCast
  have hvals : ∀ f ∈ statusFields t, f.1.length ≤ 64 ∧ f.2.length ≤ 64 := by
    have htext : ∀ {m : ℕ} (s : CStr m), m ≤ 64 → s.text.length ≤ 64 := fun s hm => by
      have := s.fits
      omega
    have hdecimal : ∀ {k : ℕ}, k ≤ 100 → (decimal k).length ≤ 64 := fun {k} hk => by
      have := length_decimal_le (n := k) (by omega)
      omega
    have hkeys : ∀ key ∈ statusKeys, key.length ≤ 64 := by decide
    simp only [statusKeys, List.forall_mem_cons] at hkeys
    obtain ⟨h1, h2, h3, h4, h5, h6, h7, h8, h9, -⟩ := hkeys
    simp only [statusFields, List.forall_mem_cons, hstatus, htype, hprogress]
    exact ⟨⟨h1, htext _ (by decide)⟩, ⟨h2, htext _ (by decide)⟩, ⟨h3, htext _ (by decide)⟩,
      ⟨h4, hdecimal hs⟩, ⟨h5, hdecimal hc⟩, ⟨h6, hdecimal hn⟩, ⟨h7, htext _ (by decide)⟩,
      ⟨h8, htext _ (by decide)⟩, ⟨h9, by simp⟩, by simp⟩
  have hlen := length_keyLines_le hvals
  have hfields : (statusFields t).length = 9 := rfl
  have hmarks : taskInfoBegMark.length ≤ 64 ∧ taskInfoEndMark.length ≤ 64 := by decide
  simp only [renderRecord, List.length_append, maxTaskFileSize]
  omega

/-- A text value is read back. -/
theorem getPatternKey {key : Text} {r : Regex} {n : ℕ} {val : CStr n} (hkey : '=' ∉ key)
    (hlookup : (statusFields t).lookup key = some val.text) (hquote : r.Over (· ≠ '\x22'))
    (hval : val.text ∈ r.lang) :
    OpenvasTool.getPatternKey (keyLines (statusFields t)) key r n = some val := by
  have hread := getPatternKey_keyLines (n := n) h.cleanField hkey hlookup hquote hval []
  rw [List.append_nil, CStr.ofText_text] at hread
  exact hread

/-- A number is read back. -/
theorem getPatternKeyInt {key : Text} {n : ℕ} (hkey : '=' ∉ key)
    (hlookup : (statusFields t).lookup key = some (decimal n)) (hn : n ≤ 100) :
    OpenvasTool.getPatternKeyInt (keyLines (statusFields t)) key customDigitNumPattern =
      some (n : ℤ) := by
  have hquote : customDigitNumPattern.Over (· ≠ '\x22') := over_customDigitNumPattern fun c hc => by
    rintro rfl
    simp at hc
  have hread := getPatternKeyInt_keyLines h.cleanField hkey hlookup hquote
    (decimal_mem_customDigitNumPattern' hn) (by omega) []
  rwa [List.append_nil] at hread

/-- **The status record is read back** into the task that the task file keeps. -/
theorem parseTaskStatusRecord :
    OpenvasTool.parseTaskStatusRecord (renderRecord (statusFields t)) t.persisted =
      some t.restored := by
  have huuid : uuidRegPattern.Over (· ≠ '\x22') :=
    over_uuidRegPattern (ne_quote_of (by decide)) (by decide)
  have hstamp : customTimeStampPattern.Over (· ≠ '\x22') :=
    over_customTimeStampPattern (ne_quote_of (by decide)) (by simp)
  obtain ⟨s, hs, hstatus⟩ := t.reportInfo.status.toInt_eq_natCast
  obtain ⟨c, hc, htype⟩ := t.chkType.toInt_eq_natCast
  obtain ⟨n, hn, hprogress⟩ := h.progress_eq_natCast
  have hid : OpenvasTool.getPatternKey (keyLines (statusFields t)) "task_id".toList uuidRegPattern
      maxUuidSize = some t.taskInfo.taskId := h.getPatternKey (by decide) rfl huuid h.taskId
  have hstart : OpenvasTool.getPatternKey (keyLines (statusFields t)) "start_time".toList
      (customMatchOrNull customTimeStampPattern) maxTimestampSize = some t.reportInfo.startTime :=
    h.getPatternKey (by decide) rfl hstamp h.startTime
  have hstop : OpenvasTool.getPatternKey (keyLines (statusFields t)) "stop_time".toList
      (customMatchOrNull customTimeStampPattern) maxTimestampSize = some t.reportInfo.stopTime :=
    h.getPatternKey (by decide) rfl hstamp h.stopTime
  have hstatus' : OpenvasTool.getPatternKeyInt (keyLines (statusFields t)) "status".toList
      customDigitNumPattern = some t.reportInfo.status.toInt := by
    rw [hstatus]
    apply h.getPatternKeyInt (by decide) _ hs
    rw [← hstatus]
    rfl
  have htype' : OpenvasTool.getPatternKeyInt (keyLines (statusFields t)) "chk_type".toList
      customDigitNumPattern = some t.chkType.toInt := by
    rw [htype]
    apply h.getPatternKeyInt (by decide) _ hc
    rw [← htype]
    rfl
  have hprogress' : OpenvasTool.getPatternKeyInt (keyLines (statusFields t)) "progress".toList
      customDigitNumPattern = some t.reportInfo.progress := by
    rw [hprogress]
    apply h.getPatternKeyInt (by decide) _ hn
    rw [← hprogress]
    rfl
  have hcur : OpenvasTool.getPatternKey (keyLines (statusFields t)) "report_id".toList uuidRegPattern
      maxUuidSize = some t.reportInfo.curReportId :=
    h.getPatternKey (by decide) rfl huuid h.curReportId
  have hlast : OpenvasTool.getPatternKey (keyLines (statusFields t)) "last_report_id".toList
      (customMatchOrNull uuidRegPattern) maxUuidSize = some t.reportInfo.lastReportId :=
    h.getPatternKey (by decide) rfl huuid h.lastReportId
  have hsame : ¬ t.taskInfo.taskId ≠ t.persisted.taskInfo.taskId := fun hne => hne rfl
  have hrange : ¬ (t.reportInfo.progress < 0 ∨ 100 < t.reportInfo.progress) := by
    have := h.progress
    omega
  have hrecord := nextRecord_renderRecord h.cleanField []
  rw [List.append_nil] at hrecord
  unfold OpenvasTool.parseTaskStatusRecord
  rw [cstring_of_nulFree (nulFree_statusFields t), hrecord]
  dsimp only
  unfold parseStatusFields
  simp only [hid, hsame, hstart, hstop, hstatus', htype', hprogress', hcur, hlast, hrange,
    Option.bind_eq_bind, Option.bind_some, GvmTaskStatus.ofInt_toInt h.status,
    GvmTaskChkType.ofInt_toInt, if_false]
  rfl

end StorableStatus

end OpenvasTool
