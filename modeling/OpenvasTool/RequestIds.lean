import OpenvasTool.Hydra.CronStart
import OpenvasTool.Hydra.TaskFile

/-!
# Request ids

`genUUID` of `comm_misc.c` from the values it obtains from the system. Whatever these are, the id
has the shape of an identifier, so the daemon answers the request that carries it, and a hydra
task that is stored under it is read back from the task file.
-/

namespace OpenvasTool

open Posix Posix.Regex

/-! ### What `genUUID` obtains -/

/-- The fields of `struct tm` that `genUUID` prints. -/
structure StructTm where
  tmYear : ℤ
  tmMon : ℤ
  tmMday : ℤ
  tmHour : ℤ
  tmMin : ℤ
  tmSec : ℤ

/-- A time as `localtime_r` breaks it down, leap seconds included. -/
structure StructTm.Valid (tm : StructTm) : Prop where
  mon : 0 ≤ tm.tmMon ∧ tm.tmMon ≤ 11
  mday : 1 ≤ tm.tmMday ∧ tm.tmMday ≤ 31
  hour : 0 ≤ tm.tmHour ∧ tm.tmHour ≤ 23
  min : 0 ≤ tm.tmMin ∧ tm.tmMin ≤ 59
  sec : 0 ≤ tm.tmSec ∧ tm.tmSec ≤ 60

/-- The clock, its broken-down local time, the thread id, the address of the buffer and the word
of `getDevRand`. -/
structure UuidInputs where
  tvSec : ℤ
  tvUsec : ℤ
  tm : StructTm
  gettid : ℤ
  bufAddr : Fin (2 ^ 64)
  devRand : Fin (2 ^ 32)

/-- The conversion `%02d`: the sign counts as one of the two characters. -/
def decimal02 (v : ℤ) : Text :=
  if v < 0 then '-' :: padded 10 1 v.natAbs else padded 10 2 v.natAbs

namespace UuidInputs

variable (s : UuidInputs)

/-- The sum of the address and the clock, as an `unsigned long long`. -/
def ullTmp : ℕ := ((s.bufAddr.val + s.tvSec + s.tvUsec) % 2 ^ 64).toNat

/-- The first word of the identifier, as an `unsigned int`. -/
def rand0 : ℕ := (s.ullTmp % 2 ^ 32 + s.ullTmp / 2 ^ 32) % 2 ^ 32

/-- The year cut to an `unsigned char`. -/
def year : ℕ := (s.tm.tmYear % 2 ^ 8).toNat

/-- The last two bytes of the thread id. -/
def tid : ℕ := (s.gettid % 2 ^ 32).toNat % 2 ^ 16

/-- What the format of `genUUID` prints. -/
def format : Text :=
  padded 16 8 s.rand0 ++ "-".toList ++ (padded 16 2 s.year ++ decimal02 (s.tm.tmMon + 1)) ++
    "-".toList ++ (decimal02 s.tm.tmMday ++ decimal02 s.tm.tmHour) ++ "-".toList ++
    (decimal02 s.tm.tmMin ++ decimal02 s.tm.tmSec) ++ "-".toList ++
    (padded 16 4 s.tid ++ padded 16 8 s.devRand.val)

/-- `genUUID` for a buffer of this size: the return value and the content of the buffer. -/
def genUUID (maxlen : ℤ) : ℤ × Text :=
  let buf := s.format.take (maxUuidSize - 1)
  let len := s.format.length
  if len < maxlen then (0, buf.take len) else (-1, [])

variable {s}

/-- The words as they enter the identifier. -/
def source (htm : s.tm.Valid) : UuidSource where
  word := ⟨s.rand0, Nat.mod_lt _ (by decide)⟩
  year := ⟨s.year, by unfold UuidInputs.year; omega⟩
  mon := ⟨s.tm.tmMon.toNat, by have := htm.mon; omega⟩
  mday := ⟨s.tm.tmMday.toNat, by have := htm.mday; omega⟩
  hour := ⟨s.tm.tmHour.toNat, by have := htm.hour; omega⟩
  min := ⟨s.tm.tmMin.toNat, by have := htm.min; omega⟩
  sec := ⟨s.tm.tmSec.toNat, by have := htm.sec; omega⟩
  tid := ⟨s.tid, Nat.mod_lt _ (by decide)⟩
  rand := s.devRand

theorem decimal02_of_nonneg {v : ℤ} (h : 0 ≤ v) : decimal02 v = padded 10 2 v.toNat := by
  rw [decimal02, if_neg (by omega)]
  congr 1
  omega

theorem format_eq (htm : s.tm.Valid) : s.format = (source htm).render := by
  have hmon : (s.tm.tmMon + 1).toNat = s.tm.tmMon.toNat + 1 := by
    have := htm.mon
    omega
  have hmon0 : 0 ≤ s.tm.tmMon + 1 := by
    have := htm.mon
    omega
  have hmday0 : 0 ≤ s.tm.tmMday := by
    have := htm.mday
    omega
  rw [format, decimal02_of_nonneg hmon0, decimal02_of_nonneg hmday0,
    decimal02_of_nonneg htm.hour.1, decimal02_of_nonneg htm.min.1, decimal02_of_nonneg htm.sec.1,
    hmon]
  rfl

/-- With a buffer for identifiers `genUUID` succeeds, and nothing is cut off. -/
theorem genUUID_eq (htm : s.tm.Valid) :
    s.genUUID maxUuidSize = (0, (OpenvasTool.genUUID (source htm)).text) := by
  have hlen : s.format.length = 36 := by rw [format_eq htm, UuidSource.length_render]
  have hfits : ((36 : ℕ) : ℤ) < (maxUuidSize : ℕ) := by decide
  have htake : s.format.take (maxUuidSize - 1) = s.format :=
    List.take_of_length_le (by rw [hlen]; decide)
  simp only [genUUID]
  rw [htake, hlen, if_pos hfits, ← hlen, List.take_length, format_eq htm]
  rfl

end UuidInputs

/-! ### The id in a request -/

/-- The handlers of `openvas_business.c`. -/
def gHds : List PhpCommand :=
  [.startTask, .stopTask, .deleteTask, .createTask, .startHydra, .stopHydra, .deleteHydra,
    .createHydra]

/-- `processMsg`, given what the handlers return: the return value, and the reply that is pushed
under the id of the request. -/
def processMsg (handle : PhpCommand → Text → GvmErrCode) (input : Text) :
    GvmErrCode × Option (CStr maxUuidSize × GvmErrCode) :=
  match processMsgTokens input with
  | none => (.paramInvalid, none)
  | some (uuid, cmd, param) =>
    let ret :=
      match gHds.find? fun phd => phd.cmd = cmd.text with
      | some phd => handle phd param
      | none => .paramInvalid
    (ret, some (uuid, ret))

/-- Every command finds its own handler. -/
theorem find_gHds (command : PhpCommand) :
    (gHds.find? fun phd => phd.cmd = command.cmd) = some command := by
  cases command <;> decide

/-- The handler of the command runs, and its result is pushed under the id. -/
theorem processMsg_phpMessage (handle : PhpCommand → Text → GvmErrCode) (src : UuidSource)
    (command : PhpCommand) (param : PhpParam) :
    processMsg handle (phpMessage (genUUID src) command param) =
      (handle command (kbMessage param.fields),
        some (genUUID src, handle command (kbMessage param.fields))) := by
  obtain ⟨cmd, hcmd, htokens⟩ := processMsgTokens_phpMessage src command param
  simp only [processMsg, htokens, hcmd, find_gHds]

/-- The parser of the hydra requests accepts an identifier behind a name. -/
theorem getKeyHydraParam_kbMessage {name : CStr maxNameSize} {id : CStr maxUuidSize}
    (hname : chkName name.text = true) (hdelim : openvasKbDelim ∉ name.text)
    (hid : chkUuid id.text = true) :
    getKeyHydraParam (kbMessage [name.text, id.text]) =
      some { taskName := name, taskId := id } := by
  simp only [getKeyHydraParam, Option.bind_eq_bind, requestToken_kbMessage hdelim,
    requestToken_kbMessage (delim_not_mem_uuid hid), Option.bind_some, hname, hid, Bool.and_self,
    if_true]

/-- So does the client when a user or a cron line names the task by it. -/
theorem getPhpKeyHydradParam_request {name : CStr maxNameSize} {id : CStr maxUuidSize}
    (hname : chkName name.text = true) (hid : chkUuid id.text = true) :
    getPhpKeyHydradParam ("taskname=\"".toList ++ name.text ++ "\"&taskid=\"".toList ++ id.text ++
      "\"".toList) = some ⟨name, id⟩ := by
  rw [getPhpKeyHydradParam, regexec_phpKeyHydra (chkName_iff.mp hname) (chkUuid_iff.mp hid)]
  simp

/-! ### The id in the task file -/

/-- The id of a record is read back, whatever its other fields are. -/
theorem getPatternKey_taskId {task : ListHydraTask} (hid : chkUuid task.taskId.text = true)
    (rest : Text) :
    getPatternKey (keyLines (hydraFields task) ++ rest) "task_id".toList uuidRegPattern
      maxUuidSize = some task.taskId := by
  have hclean : ∀ f ∈ [("task_id".toList, task.taskId.text)], CleanField f := by
    apply cleanField_of_keys
    · show ∀ key ∈ ["task_id".toList], key ≠ [] ∧ '=' ∉ key ∧ '\n' ∉ key
      decide
    · simpa using (mem_uuidRegPattern (chkUuid_iff.mp hid)).2
  have hquote : uuidRegPattern.Over (· ≠ '\x22') :=
    over_uuidRegPattern (ne_quote_of (by decide)) (by decide)
  have hsplit : keyLines (hydraFields task) ++ rest =
      keyLines [("task_id".toList, task.taskId.text)] ++
        (keyLines (hydraFields task).tail ++ rest) := by
    simp [keyLines, hydraFields]
  rw [hsplit, getPatternKey_keyLines hclean (by decide) rfl hquote (chkUuid_iff.mp hid),
    CStr.ofText_text]

/-! ### Every generated id -/

/-- For every valid local time, thread, address and random word `genUUID` succeeds with an id of
the right shape. The daemon answers every request under it, the parsers of the hydra requests
accept it, and it is read back from the record of the hydra task that is created with it. -/
theorem genUUID_wellFormed (s : UuidInputs) (htm : s.tm.Valid) :
    ∃ src : UuidSource, s.genUUID maxUuidSize = (0, (genUUID src).text) ∧
      (∃ a b c d e : Text,
        a.length = 8 ∧ b.length = 4 ∧ c.length = 4 ∧ d.length = 4 ∧ e.length = 12 ∧
          (∀ x ∈ a ++ b ++ c ++ d ++ e, isxdigit x = true) ∧
          (genUUID src).text = a ++ '-' :: (b ++ '-' :: (c ++ '-' :: (d ++ '-' :: e)))) ∧
      chkUuid (genUUID src).text = true ∧
      (∀ (handle : PhpCommand → Text → GvmErrCode) (command : PhpCommand) (param : PhpParam),
        processMsg handle (phpMessage (genUUID src) command param) =
          (handle command (kbMessage param.fields),
            some (genUUID src, handle command (kbMessage param.fields)))) ∧
      (∀ name : CStr maxNameSize, chkName name.text = true →
        getPhpKeyHydradParam ("taskname=\"".toList ++ name.text ++ "\"&taskid=\"".toList ++
            (genUUID src).text ++ "\"".toList) = some ⟨name, genUUID src⟩ ∧
          (openvasKbDelim ∉ name.text → getKeyHydraParam (kbMessage [name.text,
            (genUUID src).text]) = some { taskName := name, taskId := genUUID src })) ∧
      (∀ env input task, env.uuid = src → getCreateHydraParam env input = some task →
        ∀ rest, getPatternKey (keyLines (hydraFields task) ++ rest) "task_id".toList
          uuidRegPattern maxUuidSize = some (genUUID src)) ∧
      ∀ env w input task t, env.uuid = src → getCreateHydraParam env input = some task →
        (daemonCreateHydra env w input).code = .success → t.saved = (stampHydra env task).saved →
        ReadableHydra t → parseHydraFields (keyLines (hydraFields t)) = some t.loaded := by
  refine ⟨UuidInputs.source htm, UuidInputs.genUUID_eq htm, ?_, ?_, ?_, ?_, ?_, ?_⟩
  · exact (UuidInputs.source htm).render_groups
  · exact (UuidInputs.source htm).chkUuid_render
  · intro handle command param
    exact processMsg_phpMessage handle _ command param
  · intro name hname
    have hid : chkUuid (genUUID (UuidInputs.source htm)).text = true :=
      (UuidInputs.source htm).chkUuid_render
    exact ⟨getPhpKeyHydradParam_request hname hid,
      fun hdelim => getKeyHydraParam_kbMessage hname hdelim hid⟩
  · intro env input task huuid htask rest
    have hid : task.taskId = genUUID (UuidInputs.source htm) :=
      (getCreateHydraParam_taskId htask).trans (congrArg genUUID huuid)
    rw [← hid]
    exact getPatternKey_taskId (getCreateHydraParam_checks htask).1 rest
  · intro env w input task t _ htask hcode hsaved hread
    have hcreated : CreatedHydra t := ⟨env, w, input, task, htask, hcode, hsaved⟩
    exact hcreated.checked.parseHydraFields hread

/-- The leap second at the end of 2016. -/
def sampleUuidInputs : UuidInputs where
  tvSec := 1483228799
  tvUsec := 999999
  tm := { tmYear := 116, tmMon := 11, tmMday := 31, tmHour := 23, tmMin := 59, tmSec := 60 }
  gettid := 4242
  bufAddr := 140737488347136
  devRand := ⟨7, by decide⟩

theorem genUUID_wellFormed_sample :
    ∃ src : UuidSource, sampleUuidInputs.genUUID maxUuidSize = (0, (genUUID src).text) := by
  have htm : sampleUuidInputs.tm.Valid := by constructor <;> decide
  obtain ⟨src, hsrc, -⟩ := genUUID_wellFormed sampleUuidInputs htm
  exact ⟨src, hsrc⟩

end OpenvasTool
