import OpenvasTool.Posix.CString
import OpenvasTool.Support.Calendar
import Mathlib.Data.Bool.AllAny

/-!
# Crontab entries

How cron reads a line of a crontab, and the minutes at which the command of the
line is started. An entry has no year: it fires in every year. A line that is
not an entry never fires. Step values are left out.
-/

namespace Posix.Cron

open Posix Calendar

/-! ### Entries -/

/-- A time field: `*`, or the values that it lists. -/
inductive Field where
  | star
  | values (vs : List ℕ)
  deriving DecidableEq, Repr

/-- The field allows this value. -/
def Field.Matches : Field → ℕ → Prop
  | star, _ => True
  | values vs, n => n ∈ vs

instance (f : Field) (n : ℕ) : Decidable (f.Matches n) :=
  match f with
  | .star => .isTrue trivial
  | .values vs => inferInstanceAs (Decidable (n ∈ vs))

@[simp] theorem Field.star_matches (n : ℕ) : Field.star.Matches n := trivial

@[simp] theorem Field.values_matches (vs : List ℕ) (n : ℕ) :
    (Field.values vs).Matches n ↔ n ∈ vs := Iff.rfl

/-- The time fields of a line. -/
structure Entry where
  minute : Field
  hour : Field
  mday : Field
  month : Field
  wday : Field
  deriving DecidableEq, Repr

/-- The day of the month and the day of the week: if both are restricted, one of them suffices. -/
def Entry.DayMatches (e : Entry) (d : Date) : Prop :=
  if e.mday = .star ∨ e.wday = .star then e.mday.Matches d.day ∧ e.wday.Matches d.weekday
  else e.mday.Matches d.day ∨ e.wday.Matches d.weekday

/-- The entry fires at this minute. -/
def Entry.Fires (e : Entry) (t : Minute) : Prop :=
  e.minute.Matches t.minute ∧ e.hour.Matches t.hour ∧ e.month.Matches t.date.month ∧
    e.DayMatches t.date

theorem Entry.dayMatches_of_star {e : Entry} (h : e.mday = .star ∨ e.wday = .star) {d : Date} :
    e.DayMatches d ↔ e.mday.Matches d.day ∧ e.wday.Matches d.weekday := by
  rw [DayMatches, if_pos h]

/-! ### Reading a line -/

/-- The names of the months and of the days of the week, without regard to case. -/
def monthNames : List Text :=
  ["jan", "feb", "mar", "apr", "may", "jun", "jul", "aug", "sep", "oct", "nov", "dec"].map
    String.toList

def wdayNames : List Text := ["sun", "mon", "tue", "wed", "thu", "fri", "sat"].map String.toList

/-- A number, or a name by its place behind the first value. -/
def readValue (names : List Text) (first : ℕ) (text : Text) : Option ℕ :=
  if text ≠ [] ∧ text.all Char.isDigit then some (leadingDigits text)
  else (names.idxOf? (text.map Char.toLower)).map (first + ·)

/-- A value or a range of values. -/
def readItem (lo hi : ℕ) (names : List Text) (text : Text) : Option (List ℕ) :=
  match text.splitOn '-' with
  | [a] => do
      let v ← readValue names lo a
      if lo ≤ v ∧ v ≤ hi then some [v] else none
  | [a, b] => do
      let v ← readValue names lo a
      let w ← readValue names lo b
      if lo ≤ v ∧ v ≤ w ∧ w ≤ hi then some (List.range' v (w + 1 - v)) else none
  | _ => none

/-- A time field: `*` or a list of items. -/
def readField (lo hi : ℕ) (names : List Text) (text : Text) : Option Field :=
  if text = ['*'] then some .star
  else ((text.splitOn ',').mapM (readItem lo hi names)).map fun vs => .values vs.flatten

/-- The blanks between the fields. -/
def isBlank (c : Char) : Bool := c == ' ' || c == '\t'

/-- The next word of a line, and the rest behind it. -/
def nextWord (line : Text) : Text × Text :=
  let line := line.dropWhile isBlank
  (line.takeWhile fun c => !isBlank c, line.dropWhile fun c => !isBlank c)

/-- Sunday is the day 0 and the day 7. -/
def Field.wrapSunday : Field → Field
  | star => star
  | values vs => values (vs.map (· % 7))

/-- The time fields at the beginning of a line. -/
def Entry.read (line : Text) : Option Entry := do
  let (minute, line) := nextWord line
  let (hour, line) := nextWord line
  let (mday, line) := nextWord line
  let (month, line) := nextWord line
  let (wday, _) := nextWord line
  let minute ← readField 0 59 [] minute
  let hour ← readField 0 23 [] hour
  let mday ← readField 1 31 [] mday
  let month ← readField 1 12 monthNames month
  let wday ← readField 0 7 wdayNames wday
  some ⟨minute, hour, mday, month, wday.wrapSunday⟩

/-- The command of a line, behind the time fields and the user. -/
def command (line : Text) : Text :=
  let (_, line) := nextWord line
  let (_, line) := nextWord line
  let (_, line) := nextWord line
  let (_, line) := nextWord line
  let (_, line) := nextWord line
  let (_, line) := nextWord line
  line.dropWhile isBlank

/-- The percent signs of a command: up to the first one it is run, and what follows is its input. A
backslash keeps a percent sign. -/
def percentSplit : Text → Text × Option Text
  | [] => ([], none)
  | '\\' :: '%' :: rest => ('%' :: (percentSplit rest).1, (percentSplit rest).2)
  | '\\' :: c :: rest => ('\\' :: c :: (percentSplit rest).1, (percentSplit rest).2)
  | '%' :: rest => ([], some rest)
  | c :: rest => (c :: (percentSplit rest).1, (percentSplit rest).2)

/-- One of the lines fires at this minute. -/
def Fires (lines : List Text) (t : Minute) : Prop :=
  ∃ line ∈ lines, ∃ e, Entry.read line = some e ∧ e.Fires t

/-! ### Rules -/

/-- A command without a percent sign is run as it is. -/
theorem percentSplit_of_not_mem {text : Text} (h : '%' ∉ text) : percentSplit text = (text, none) := by
  induction text using percentSplit.induct with
  | case1 => rfl
  | case2 rest ih => simp at h
  | case3 c rest hc ih =>
    rw [percentSplit, ih (by simp_all)]
    intro hpercent
    simp [hpercent] at h
  | case4 rest => simp at h
  | case5 c rest hescaped hback hpercent ih =>
    rw [percentSplit, ih (by simp_all)]
    · exact hescaped
    · exact hback
    · exact hpercent

/-- A beginning without a percent sign and a backslash is kept. -/
theorem percentSplit_append {front : Text} (rest : Text)
    (h : ∀ c ∈ front, c ≠ '%' ∧ c ≠ '\\') :
    percentSplit (front ++ rest) = (front ++ (percentSplit rest).1, (percentSplit rest).2) := by
  induction front with
  | nil => rfl
  | cons c front ih =>
    obtain ⟨hpercent, hback⟩ := h c (by simp)
    rw [List.cons_append, percentSplit, ih fun d hd => h d (by simp [hd])]
    · rfl
    · simp [hback]
    · simp [hback]
    · exact hpercent

/-- A word of a line. -/
def IsWord (word : Text) : Prop := word ≠ [] ∧ ∀ c ∈ word, isBlank c = false

theorem nextWord_append {word rest : Text} (h : IsWord word) :
    nextWord (word ++ ' ' :: rest) = (word, ' ' :: rest) := by
  obtain ⟨c, t, rfl⟩ := List.exists_cons_of_ne_nil h.1
  have hall : ∀ d ∈ c :: t, (!isBlank d) = true := fun d hd => by simp [h.2 d hd]
  unfold nextWord
  rw [List.cons_append, List.dropWhile_cons_of_neg (by simp [h.2 c]), ← List.cons_append]
  dsimp only
  rw [List.takeWhile_append_of_pos hall, List.dropWhile_append_of_pos hall,
    List.takeWhile_cons_of_neg (by decide), List.dropWhile_cons_of_neg (by decide),
    List.append_nil]

theorem nextWord_blank_append {word rest : Text} (h : IsWord word) :
    nextWord (' ' :: (word ++ ' ' :: rest)) = (word, ' ' :: rest) := by
  have hnext : nextWord (word ++ ' ' :: rest) = (word, ' ' :: rest) := nextWord_append h
  unfold nextWord at hnext ⊢
  rwa [List.dropWhile_cons_of_pos (by decide)]

/-- The five words at the beginning of a line are its time fields. -/
theorem Entry.read_words {minute hour mday month wday : Text} (rest : Text) (hminute : IsWord minute)
    (hhour : IsWord hour) (hmday : IsWord mday) (hmonth : IsWord month) (hwday : IsWord wday) :
    Entry.read (minute ++ ' ' :: (hour ++ ' ' :: (mday ++ ' ' :: (month ++ ' ' :: (wday ++
        ' ' :: rest))))) = (do
      let minute ← readField 0 59 [] minute
      let hour ← readField 0 23 [] hour
      let mday ← readField 1 31 [] mday
      let month ← readField 1 12 monthNames month
      let wday ← readField 0 7 wdayNames wday
      some ⟨minute, hour, mday, month, wday.wrapSunday⟩) := by
  simp only [Entry.read, nextWord_append hminute, nextWord_blank_append hhour,
    nextWord_blank_append hmday, nextWord_blank_append hmonth, nextWord_blank_append hwday]

/-- The command begins behind the sixth word. -/
theorem command_words {minute hour mday month wday user : Text} (rest : Text) (hminute : IsWord minute)
    (hhour : IsWord hour) (hmday : IsWord mday) (hmonth : IsWord month) (hwday : IsWord wday)
    (huser : IsWord user) :
    command (minute ++ ' ' :: (hour ++ ' ' :: (mday ++ ' ' :: (month ++ ' ' :: (wday ++
        ' ' :: (user ++ ' ' :: rest)))))) = rest.dropWhile isBlank := by
  simp only [command, nextWord_append hminute, nextWord_blank_append hhour,
    nextWord_blank_append hmday, nextWord_blank_append hmonth, nextWord_blank_append hwday,
    nextWord_blank_append huser]
  exact List.dropWhile_cons_of_pos (by decide)

theorem readValue_digits {names : List Text} {lo n : ℕ} {text : Text} (hne : text ≠ [])
    (hdigits : ∀ c ∈ text, c.isDigit = true) (hn : leadingDigits text = n) :
    readValue names lo text = some n := by
  rw [readValue, if_pos ⟨hne, List.all_eq_true.mpr hdigits⟩, hn]

theorem readItem_value {lo hi n : ℕ} {names : List Text} {text : Text} (hdash : '-' ∉ text)
    (hvalue : readValue names lo text = some n) :
    readItem lo hi names text = if lo ≤ n ∧ n ≤ hi then some [n] else none := by
  simp [readItem, List.splitOn_eq_singleton hdash, hvalue]

/-- A field that lists items. -/
theorem readField_intercalate (lo hi : ℕ) (names : List Text) {items : List Text} (hne : items ≠ [])
    (hcomma : ∀ item ∈ items, ',' ∉ item) (hstar : items ≠ [['*']]) :
    readField lo hi names ([','].intercalate items) =
      (items.mapM (readItem lo hi names)).map fun vs => .values vs.flatten := by
  have hsplit := List.splitOn_intercalate ',' hcomma hne
  unfold readField
  rw [if_neg, hsplit]
  intro heq
  rw [heq, List.splitOn_eq_singleton (by decide)] at hsplit
  exact hstar hsplit.symm

theorem isDigit_not_mark {text : Text} (hdigits : ∀ c ∈ text, c.isDigit = true) {d : Char}
    (hd : d.isDigit = false) : d ∉ text := fun hmem => by
  simp [hdigits d hmem] at hd

theorem isWord_of_isDigit {text : Text} (hne : text ≠ []) (h : ∀ c ∈ text, c.isDigit = true) :
    IsWord text := by
  refine ⟨hne, fun c hc => ?_⟩
  have hdigit := h c hc
  simp only [isBlank, Bool.or_eq_false_iff, beq_eq_false_iff_ne]
  constructor <;> (rintro rfl; simp at hdigit)

theorem isDigit_of_mem_decimal {n : ℕ} {c : Char} (h : c ∈ decimal n) : c.isDigit = true := by
  rw [decimal_natCast] at h
  exact Nat.isDigit_of_mem_toDigits (by decide) (by decide) h

theorem decimal_ne_nil (n : ℕ) : decimal n ≠ [] := by
  rw [decimal_natCast]
  exact Nat.toDigits_ne_nil

theorem isWord_decimal (n : ℕ) : IsWord (decimal n) :=
  isWord_of_isDigit (decimal_ne_nil n) fun _ => isDigit_of_mem_decimal

theorem readItem_decimal {lo hi n : ℕ} (names : List Text) (hlo : lo ≤ n) (hhi : n ≤ hi) :
    readItem lo hi names (decimal n) = some [n] := by
  have hdigits : ∀ c ∈ decimal n, c.isDigit = true := fun _ => isDigit_of_mem_decimal
  have hvalue : leadingDigits (decimal n) = n := by
    rw [decimal_natCast, leadingDigits_toDigits]
  rw [readItem_value (isDigit_not_mark hdigits (by decide))
    (readValue_digits (decimal_ne_nil n) hdigits hvalue), if_pos ⟨hlo, hhi⟩]

/-- A field that lists numbers. -/
theorem readField_numbers {lo hi : ℕ} (names : List Text) {ns : List ℕ} (hne : ns ≠ [])
    (hns : ∀ n ∈ ns, lo ≤ n ∧ n ≤ hi) :
    readField lo hi names ([','].intercalate (ns.map fun n : ℕ => decimal n)) =
      some (.values ns) := by
  have hmark : ∀ n : ℕ, ∀ c ∈ [',', '*'], c ∉ decimal n := by
    intro n c hc
    apply isDigit_not_mark fun _ => isDigit_of_mem_decimal
    rcases List.mem_pair.mp hc with rfl | rfl <;> decide
  have hitems : (ns.map fun n : ℕ => decimal n).mapM (readItem lo hi names) =
      some (ns.map fun n => [n]) := by
    clear hne
    induction ns with
    | nil => rfl
    | cons n ns ih =>
      obtain ⟨hlo, hhi⟩ := hns n (by simp)
      rw [List.map_cons, List.mapM_cons, readItem_decimal names hlo hhi,
        ih fun m hm => hns m (by simp [hm])]
      rfl
  rw [readField_intercalate lo hi names (by simpa using hne), hitems, Option.map_some,
    ← List.flatMap_def, List.flatMap_singleton']
  · intro item hitem
    obtain ⟨n, -, rfl⟩ := List.mem_map.mp hitem
    exact hmark n ',' (by simp)
  · intro hstar
    obtain ⟨n, -, hn⟩ := List.mem_map.mp (hstar ▸ List.mem_singleton_self ['*'])
    exact hmark n '*' (by simp) (hn ▸ List.mem_singleton_self '*')

/-- A field that is one number. -/
theorem readField_number {lo hi n : ℕ} (names : List Text) (hlo : lo ≤ n) (hhi : n ≤ hi) :
    readField lo hi names (decimal n) = some (.values [n]) := by
  have hread := readField_numbers names (show [n] ≠ [] by simp)
    (by simpa using (⟨hlo, hhi⟩ : lo ≤ n ∧ n ≤ hi))
  rwa [List.map_singleton, List.intercalate_singleton] at hread

@[simp] theorem readField_star (lo hi : ℕ) (names : List Text) :
    readField lo hi names ['*'] = some .star := if_pos rfl

end Posix.Cron
