import OpenvasTool.Posix.Regex
import Mathlib.Data.List.TakeWhile
import Mathlib.Tactic.Linarith
import Mathlib.Tactic.IntervalCases

/-!
# C strings

Bounded buffers, comparison, searching and number conversion as the C library
defines them, on the contents of C strings.
-/

namespace Posix

/-- The content of a `char[n]` object: a text that fits with its terminating NUL. -/
@[ext] structure CStr (n : ℕ) where
  text : Text
  fits : text.length < n
  nulFree : '\x00' ∉ text
  deriving DecidableEq

namespace CStr

/-- Store a text in a buffer of `n` bytes if it fits. -/
def ofText (n : ℕ) (t : Text) : Option (CStr n) :=
  if h : t.length < n ∧ '\x00' ∉ t then some ⟨t, h.1, h.2⟩ else none

@[simp] theorem ofText_text {n : ℕ} (s : CStr n) : ofText n s.text = some s := by
  simp [ofText, s.fits, s.nulFree]

theorem ofText_eq_some {n : ℕ} {t : Text} {s : CStr n} : ofText n t = some s ↔ s.text = t := by
  unfold ofText
  split
  · rw [Option.some.injEq, CStr.ext_iff]
    exact eq_comm
  · rename_i h
    constructor
    · simp
    · rintro rfl
      exact absurd ⟨s.fits, s.nulFree⟩ h

theorem ofText_isSome {n : ℕ} {t : Text} :
    (ofText n t).isSome ↔ t.length < n ∧ '\x00' ∉ t := by
  unfold ofText
  split <;> simp_all

/-- A zeroed buffer. -/
def empty {n : ℕ} : CStr (n + 1) := ⟨[], Nat.succ_pos n, by simp⟩

@[simp] theorem empty_text {n : ℕ} : (empty : CStr (n + 1)).text = [] := rfl

/-- `strncpy` into a buffer of `n + 1` bytes whose last byte stays NUL. -/
def copy {m n : ℕ} (s : CStr m) : CStr (n + 1) :=
  ⟨s.text.take n, by simp, fun h => s.nulFree (List.mem_of_mem_take h)⟩

theorem copy_text {m n : ℕ} {s : CStr m} (h : s.text.length ≤ n) :
    (copy s : CStr (n + 1)).text = s.text := List.take_of_length_le h

@[simp] theorem copy_self {n : ℕ} (s : CStr (n + 1)) : copy s = s :=
  CStr.ext (copy_text (Nat.le_of_lt_succ s.fits))

end CStr

/-- The C string at the start of a byte buffer: everything before the first NUL. -/
def cstring (bytes : Text) : Text := bytes.takeWhile (· != '\x00')

theorem cstring_of_nulFree {t : Text} (h : '\x00' ∉ t) : cstring t = t := by
  refine List.takeWhile_eq_self_iff.mpr fun c hc => ?_
  have hne : c ≠ '\x00' := fun heq => h (heq ▸ hc)
  simpa using hne

/-! ### Comparison -/

/-- `strncmp`: the comparison of at most `n` bytes of two texts. -/
def strncmp : ℕ → Text → Text → ℤ
  | 0, _, _ => 0
  | _ + 1, [], [] => 0
  | _ + 1, [], _ :: _ => -1
  | _ + 1, _ :: _, [] => 1
  | n + 1, a :: s, b :: t => if a = b then strncmp n s t else (a.toNat : ℤ) - b.toNat

theorem strncmp_swap (n : ℕ) (s t : Text) : strncmp n t s = -strncmp n s t := by
  induction n generalizing s t with
  | zero => simp [strncmp]
  | succ n ih =>
    cases s with
    | nil => cases t <;> simp [strncmp]
    | cons a s =>
      cases t with
      | nil => simp [strncmp]
      | cons b t =>
        by_cases h : a = b
        · simp [strncmp, h, ih s t]
        · simp [strncmp, h, Ne.symm h]

private theorem toNat_ne {a b : Char} (h : a ≠ b) : a.toNat ≠ b.toNat :=
  fun heq => h (Char.toNat_inj.mp heq)

theorem strncmp_trans {n : ℕ} {s t u : Text} (hst : strncmp n s t ≤ 0) (htu : strncmp n t u ≤ 0) :
    strncmp n s u ≤ 0 := by
  induction n generalizing s t u with
  | zero => simp [strncmp]
  | succ n ih =>
    match s, t, u with
    | [], _, [] => simp [strncmp]
    | [], _, _ :: _ => simp [strncmp]
    | _ :: _, [], _ => simp [strncmp] at hst
    | _ :: _, _ :: _, [] => simp [strncmp] at htu
    | a :: s, b :: t, c :: u =>
      simp only [strncmp] at hst htu ⊢
      by_cases hab : a = b
      · subst hab
        by_cases hac : a = c
        · simp only [hac, if_true] at hst htu ⊢
          exact ih hst htu
        · simpa only [if_neg hac] using htu
      · rw [if_neg hab] at hst
        have hne := toNat_ne hab
        by_cases hbc : b = c
        · subst hbc
          rwa [if_neg hab]
        · rw [if_neg hbc] at htu
          have hac : a ≠ c := by
            rintro rfl
            omega
          rw [if_neg hac]
          omega

theorem strncmp_eq_zero {n : ℕ} {s t : Text} : strncmp n s t = 0 ↔ s.take n = t.take n := by
  induction n generalizing s t with
  | zero => simp [strncmp]
  | succ n ih =>
    match s, t with
    | [], [] => simp [strncmp]
    | [], _ :: _ => simp [strncmp]
    | _ :: _, [] => simp [strncmp]
    | a :: s, b :: t =>
      by_cases h : a = b
      · simp [strncmp, h, ih]
      · have := toNat_ne h
        simp only [strncmp, h, if_false, List.take_succ_cons, List.cons.injEq, false_and,
          iff_false]
        omega

/-- Two buffers of the same size compare equal exactly when their contents agree. -/
theorem CStr.strncmp_eq_zero {n : ℕ} (s t : CStr n) : strncmp n s.text t.text = 0 ↔ s = t := by
  rw [Posix.strncmp_eq_zero, List.take_of_length_le s.fits.le, List.take_of_length_le t.fits.le]
  exact CStr.ext_iff.symm

/-! ### Searching -/

/-- `strstr`: the text before the first occurrence of the needle, and the text from it on. -/
def strstr (needle : Text) : Text → Option (Text × Text)
  | [] => if needle = [] then some ([], []) else none
  | c :: s =>
      if needle.isPrefixOf (c :: s) then some ([], c :: s)
      else (strstr needle s).map fun m => (c :: m.1, m.2)

/-- A needle that begins nowhere in `before` is searched behind it. -/
theorem strstr_skip {needle before rest : Text}
    (hbefore : ∀ x y, before = x ++ y → y ≠ [] → ¬ needle <+: y ++ rest) :
    strstr needle (before ++ rest) = (strstr needle rest).map fun m => (before ++ m.1, m.2) := by
  induction before with
  | nil => simp
  | cons c before ih =>
    have hno : ¬ needle <+: c :: (before ++ rest) := hbefore [] (c :: before) rfl (by simp)
    have hih := ih fun x y hxy hy => hbefore (c :: x) y (by simp [hxy]) hy
    simp only [List.cons_append, strstr, List.isPrefixOf_iff_prefix, hno, if_false, hih,
      Option.map_map]
    rfl

/-- A needle is found at the start of a text that begins with it. -/
theorem strstr_self {needle rest : Text} (h : needle <+: rest) :
    strstr needle rest = some ([], rest) := by
  cases rest with
  | nil => simp [strstr, List.prefix_nil.mp h]
  | cons c rest => simp only [strstr, List.isPrefixOf_iff_prefix.mpr h, if_true]

/-- A needle that begins at `rest` and nowhere before is found there. -/
theorem strstr_append {needle before rest : Text} (hrest : needle <+: rest)
    (hbefore : ∀ x y, before = x ++ y → y ≠ [] → ¬ needle <+: y ++ rest) :
    strstr needle (before ++ rest) = some (before, rest) := by
  rw [strstr_skip hbefore, strstr_self hrest]
  simp

theorem strstr_eq_some {needle s before rest : Text} (h : strstr needle s = some (before, rest)) :
    s = before ++ rest ∧ needle <+: rest := by
  induction s generalizing before rest with
  | nil =>
    simp only [strstr] at h
    split at h
    · rename_i hn
      simp only [Option.some.injEq, Prod.mk.injEq] at h
      obtain ⟨rfl, rfl⟩ := h
      simp [hn]
    · simp at h
  | cons c s ih =>
    simp only [strstr] at h
    split at h
    · rename_i hp
      simp only [Option.some.injEq, Prod.mk.injEq] at h
      obtain ⟨rfl, rfl⟩ := h
      exact ⟨rfl, List.isPrefixOf_iff_prefix.mp hp⟩
    · obtain ⟨⟨b, r⟩, hb, heq⟩ := Option.map_eq_some_iff.mp h
      simp only [Prod.mk.injEq] at heq
      obtain ⟨rfl, rfl⟩ := heq
      obtain ⟨rfl, hpre⟩ := ih hb
      exact ⟨rfl, hpre⟩

/-- Searching one byte splits the text at its first occurrence. -/
theorem strstr_char {d : Char} {before rest : Text} (h : d ∉ before) :
    strstr [d] (before ++ d :: rest) = some (before, d :: rest) := by
  apply strstr_append (by simp)
  rintro x y rfl hy hpre
  cases y with
  | nil => exact hy rfl
  | cons c y =>
    have hc : d = c := by simpa using hpre
    exact h (by simp [hc])

/-- A text splits in only one way at the first occurrence of a byte. -/
theorem append_delim_inj {d : Char} {a b x y : Text} (ha : d ∉ a) (hb : d ∉ b)
    (h : a ++ d :: x = b ++ d :: y) : a = b ∧ x = y := by
  have hsplit : strstr [d] (a ++ d :: x) = some (a, d :: x) := strstr_char ha
  rw [h, strstr_char hb] at hsplit
  simpa [eq_comm] using hsplit

/-- The text before the first occurrence of a byte does not contain it. -/
theorem strstr_char_some {d : Char} {s before rest : Text} (h : strstr [d] s = some (before, rest)) :
    d ∉ before ∧ ∃ t, rest = d :: t ∧ s = before ++ d :: t := by
  obtain ⟨hs, t, ht⟩ := strstr_eq_some h
  refine ⟨?_, t, ht.symm, by rw [hs, ← ht]; rfl⟩
  clear hs ht t
  induction s generalizing before with
  | nil => simp [strstr] at h
  | cons c s ih =>
    simp only [strstr] at h
    split at h
    · simp only [Option.some.injEq, Prod.mk.injEq] at h
      simp [← h.1]
    · rename_i hp
      obtain ⟨⟨b, r⟩, hb, heq⟩ := Option.map_eq_some_iff.mp h
      simp only [Prod.mk.injEq] at heq
      obtain ⟨rfl, rfl⟩ := heq
      have hdc : d ≠ c := by simpa using hp
      simp [hdc, ih hb]

/-! ### Character classes and numbers -/

/-- `isspace` in the C locale. -/
def isspace (c : Char) : Bool := c == ' ' || ('\t' ≤ c && c ≤ '\r')

/-- `isxdigit` in the C locale. -/
def isxdigit (c : Char) : Bool :=
  c.isDigit || ('a' ≤ c && c ≤ 'f') || ('A' ≤ c && c ≤ 'F')

/-- The value of the leading decimal digits of a text. -/
def leadingDigits (t : Text) : ℕ :=
  (t.takeWhile Char.isDigit).foldl (fun n c => 10 * n + (c.toNat - 48)) 0

/-- `strtol` saturates at the range of `long`, the cast to `int` keeps the low 32 bits. -/
def longToInt (v : ℤ) : ℤ := Int.bmod (max (-2 ^ 63) (min (2 ^ 63 - 1) v)) (2 ^ 32)

/-- `atoi`. -/
def atoi (t : Text) : ℤ :=
  match t.dropWhile isspace with
  | '-' :: r => longToInt (-(leadingDigits r : ℤ))
  | '+' :: r => longToInt (leadingDigits r)
  | r => longToInt (leadingDigits r)

/-- The conversion `%d`. -/
def decimal (v : ℤ) : Text :=
  if v < 0 then '-' :: Nat.toDigits 10 v.natAbs else Nat.toDigits 10 v.natAbs

theorem decimal_natCast (n : ℕ) : decimal n = Nat.toDigits 10 n := by simp [decimal]

/-- Every character of a number is a digit or the sign. -/
theorem mem_decimal {v : ℤ} {c : Char} (h : c ∈ decimal v) : c = '-' ∨ c.isDigit = true := by
  unfold decimal at h
  split at h
  · rcases List.mem_cons.mp h with rfl | h
    · exact Or.inl rfl
    · exact Or.inr (Nat.isDigit_of_mem_toDigits (by decide) (by decide) h)
  · exact Or.inr (Nat.isDigit_of_mem_toDigits (by decide) (by decide) h)

theorem newline_not_mem_decimal (v : ℤ) : '\n' ∉ decimal v := fun h => by
  rcases mem_decimal h with h | h <;> simp at h

theorem nul_not_mem_decimal (v : ℤ) : '\x00' ∉ decimal v := fun h => by
  rcases mem_decimal h with h | h <;> simp at h

theorem leadingDigits_toDigits (n : ℕ) : leadingDigits (Nat.toDigits 10 n) = n := by
  unfold leadingDigits
  rw [List.takeWhile_eq_self_iff.mpr fun c hc =>
    Nat.isDigit_of_mem_toDigits (by decide) (by decide) hc]
  exact Nat.ofDigitChars_ten_toDigits

theorem isspace_of_isDigit {c : Char} (h : c.isDigit = true) : isspace c = false := by
  have hge : 48 ≤ c.toNat := by
    simp only [Char.isDigit, Bool.and_eq_true, decide_eq_true_eq] at h
    exact UInt32.le_iff_toNat_le.mp h.1
  unfold isspace
  rw [Bool.or_eq_false_iff]
  refine ⟨?_, ?_⟩
  · rw [beq_eq_false_iff_ne]
    rintro rfl
    exact absurd hge (by decide)
  · rw [Bool.and_eq_false_iff]
    refine Or.inr (decide_eq_false fun hle => ?_)
    have hle' : c.toNat ≤ 13 := UInt32.le_iff_toNat_le.mp hle
    omega

theorem longToInt_natCast {n : ℕ} (h : n < 2 ^ 31) : longToInt n = n := by
  have hlong : max (-2 ^ 63) (min (2 ^ 63 - 1) (n : ℤ)) = n := by omega
  unfold longToInt
  rw [hlong]
  exact Int.bmod_eq_of_le (by omega) (by omega)

/-- `atoi` reads a printed number back. -/
theorem atoi_decimal {n : ℕ} (h : n < 2 ^ 31) : atoi (decimal n) = n := by
  obtain ⟨c, t, ht⟩ := List.exists_cons_of_ne_nil (Nat.toDigits_ne_nil (n := n) (b := 10))
  have hdigit : c.isDigit = true :=
    Nat.isDigit_of_mem_toDigits (b := 10) (n := n) (by decide) (by decide) (by simp [ht])
  have hsign : c ≠ '-' ∧ c ≠ '+' := by
    constructor <;> rintro rfl <;> simp at hdigit
  have hvalue : longToInt (leadingDigits (c :: t)) = n := by
    rw [← ht, leadingDigits_toDigits, longToInt_natCast h]
  rw [decimal_natCast, ht]
  unfold atoi
  rw [List.dropWhile_cons_of_neg (by simp [isspace_of_isDigit hdigit])]
  split
  · rename_i heq
    exact absurd (List.cons.inj heq).1 hsign.1
  · rename_i heq
    exact absurd (List.cons.inj heq).1 hsign.2
  · exact hvalue

end Posix
