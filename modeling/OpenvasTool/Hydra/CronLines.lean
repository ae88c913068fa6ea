import OpenvasTool.Hydra.Cron
import OpenvasTool.Posix.Crontab
import OpenvasTool.Support.Split

/-!
# The lines of a crontab

What cron reads from the lines that `formatCronTask` prints, and the values that
`strptime` gives them.
-/

namespace OpenvasTool

open Posix Posix.Cron Calendar

/-! ### The printed time -/

theorem strptimeNumber_bounds {lo hi n v : ℕ} {text rest : Text}
    (h : strptimeNumber lo hi n text = some (v, rest)) : lo ≤ v ∧ v ≤ hi := by
  unfold strptimeNumber at h
  split at h
  · split at h
    · dsimp only at h
      split at h
      · rename_i hbounds
        obtain ⟨rfl, -⟩ := Prod.mk.inj (Option.some.inj h)
        exact hbounds
      · simp at h
    · simp at h
  · simp at h

/-- The values of a time are in the ranges of its fields. -/
structure TmOk (tm : Tm) : Prop where
  mon_pos : 1 ≤ tm.mon
  mon_le : tm.mon ≤ 12
  mday_pos : 1 ≤ tm.mday
  mday_le : tm.mday ≤ 31
  hour_le : tm.hour ≤ 23
  min_le : tm.min ≤ 59

theorem strptime_tmOk {text rest : Text} {tm : Tm} (h : strptime text = some (tm, rest)) :
    TmOk tm := by
  obtain ⟨⟨year, _⟩, -, h⟩ := Option.bind_eq_some_iff.mp h
  obtain ⟨_, -, h⟩ := Option.bind_eq_some_iff.mp h
  obtain ⟨⟨mon, _⟩, hmon, h⟩ := Option.bind_eq_some_iff.mp h
  obtain ⟨_, -, h⟩ := Option.bind_eq_some_iff.mp h
  obtain ⟨⟨mday, _⟩, hmday, h⟩ := Option.bind_eq_some_iff.mp h
  obtain ⟨⟨hour, _⟩, hhour, h⟩ := Option.bind_eq_some_iff.mp h
  obtain ⟨_, -, h⟩ := Option.bind_eq_some_iff.mp h
  obtain ⟨⟨min, _⟩, hmin, h⟩ := Option.bind_eq_some_iff.mp h
  obtain ⟨_, -, h⟩ := Option.bind_eq_some_iff.mp h
  obtain ⟨⟨sec, _⟩, -, h⟩ := Option.bind_eq_some_iff.mp h
  obtain ⟨rfl, -⟩ := Prod.mk.inj (Option.some.inj h)
  obtain ⟨hmonPos, hmonLe⟩ := strptimeNumber_bounds hmon
  obtain ⟨hmdayPos, hmdayLe⟩ := strptimeNumber_bounds hmday
  exact ⟨hmonPos, hmonLe, hmdayPos, hmdayLe, (strptimeNumber_bounds hhour).2,
    (strptimeNumber_bounds hmin).2⟩

/-! ### Printing -/

/-- A buffer with room for all lines holds them one behind the other. -/
theorem printLines_large {lines : List Text} {capacity : ℕ}
    (h : lines.flatten.length < capacity) : printLines capacity lines = some lines.flatten := by
  have hloop : ∀ buf : Text, buf.length + lines.flatten.length < capacity →
      lines.foldlM (fun buf line =>
        if line.length < capacity - buf.length then some (buf ++ line) else none) buf =
        some (buf ++ lines.flatten) := by
    clear h
    induction lines with
    | nil => intro buf _; simp
    | cons line lines ih =>
      intro buf hbuf
      simp only [List.flatten_cons, List.length_append] at hbuf
      rw [List.foldlM_cons, if_pos (by omega), Option.bind_eq_bind, Option.bind_some,
        ih _ (by rw [List.length_append]; omega), List.flatten_cons, List.append_assoc]
  exact hloop [] (by simpa using h)

theorem printLines_eq_some {lines : List Text} {capacity : ℕ} {content : Text}
    (h : printLines capacity lines = some content) : content = lines.flatten := by
  have hloop : ∀ buf : Text, lines.foldlM (fun buf line =>
      if line.length < capacity - buf.length then some (buf ++ line) else none) buf =
        some content → content = buf ++ lines.flatten := by
    clear h
    induction lines with
    | nil =>
      intro buf h
      simpa [eq_comm] using h
    | cons line lines ih =>
      intro buf h
      obtain ⟨buf', hstep, h⟩ := Option.bind_eq_some_iff.mp h
      obtain ⟨-, hbuf⟩ := Option.ite_none_right_eq_some.mp hstep
      obtain rfl := Option.some.inj hbuf
      rw [ih _ h, List.flatten_cons, List.append_assoc]
  simpa using hloop [] h

/-- What `formatCronTask` prints into every buffer that is large enough. -/
def FormatsAs (type : ℤ) (time list cmd content : Text) : Prop :=
  ∃ n, ∀ capacity, n ≤ capacity →
    formatCronTask capacity type time list cronUserName cmd = some content

theorem formatsAs_iff {type : ℤ} {time list cmd content : Text} :
    FormatsAs type time list cmd content ↔
      ∃ tm lines, strptime time = some (tm, []) ∧
        cronLines type tm list cronUserName cmd = some lines ∧ content = lines.flatten := by
  constructor
  · rintro ⟨n, h⟩
    have hformat := h n le_rfl
    unfold formatCronTask at hformat
    split at hformat
    · rename_i tm htime
      obtain ⟨lines, hlines, hprint⟩ := Option.bind_eq_some_iff.mp hformat
      exact ⟨tm, lines, htime, hlines, printLines_eq_some hprint⟩
    · simp at hformat
  · rintro ⟨tm, lines, htime, hlines, rfl⟩
    refine ⟨lines.flatten.length + 1, fun capacity hcapacity => ?_⟩
    simp only [formatCronTask, htime, hlines, Option.bind_some]
    exact printLines_large (by omega)

/-! ### Reading -/

/-- A crontab line without its newline. -/
def cronBody (fields : List Text) (user cmd : Text) : Text :=
  fields.flatMap (fun f => f ++ " ".toList) ++ user ++ " ".toList ++ cmd

theorem newline_not_mem_cronBody {fields : List Text} {user cmd : Text}
    (hfields : ∀ f ∈ fields, '\n' ∉ f) (huser : '\n' ∉ user) (hcmd : '\n' ∉ cmd) :
    '\n' ∉ cronBody fields user cmd := by
  simp only [cronBody, List.mem_append, List.mem_flatMap, not_or, not_exists, not_and]
  refine ⟨⟨⟨?_, huser⟩, by decide⟩, hcmd⟩
  intro f hf
  exact ⟨hfields f hf, by decide⟩

/-- The words before the command. -/
structure LineWords (minute hour mday month wday : Text) : Prop where
  minute : IsWord minute
  hour : IsWord hour
  mday : IsWord mday
  month : IsWord month
  wday : IsWord wday

theorem isWord_cronUserName : IsWord cronUserName := ⟨by decide, List.all_iff_forall_prop.mp (by decide)⟩

theorem isWord_star : IsWord "*".toList := ⟨by decide, List.all_iff_forall_prop.mp (by decide)⟩

section Line

variable {minute hour mday month wday : Text}

theorem LineWords.read (h : LineWords minute hour mday month wday) (cmd : Text) :
    Entry.read (cronBody [minute, hour, mday, month, wday] cronUserName cmd) = (do
      let minute ← readField 0 59 [] minute
      let hour ← readField 0 23 [] hour
      let mday ← readField 1 31 [] mday
      let month ← readField 1 12 monthNames month
      let wday ← readField 0 7 wdayNames wday
      some ⟨minute, hour, mday, month, wday.wrapSunday⟩) := by
  rw [← Entry.read_words (cronUserName ++ ' ' :: cmd) h.minute h.hour h.mday h.month h.wday]
  simp [cronBody]

theorem LineWords.command (h : LineWords minute hour mday month wday) (cmd : Text) :
    Cron.command (cronBody [minute, hour, mday, month, wday] cronUserName cmd) =
      cmd.dropWhile isBlank := by
  rw [← command_words cmd h.minute h.hour h.mday h.month h.wday isWord_cronUserName]
  simp [cronBody]

end Line

/-- The fields of the time of day. -/
theorem TmOk.readFields {tm : Tm} (h : TmOk tm) :
    readField 0 59 [] (decimal tm.min) = some (.values [tm.min]) ∧
      readField 0 23 [] (decimal tm.hour) = some (.values [tm.hour]) :=
  ⟨readField_number [] (Nat.zero_le _) h.min_le, readField_number [] (Nat.zero_le _) h.hour_le⟩

/-- A line that is not an entry, as the empty one behind the last newline. -/
theorem read_nil : Entry.read [] = none := by decide

end OpenvasTool
