import OpenvasTool.Alphabets

/-!
# Generated identifiers

The identifiers that `genUUID` of `comm_misc.c` prints. Each of them has the
shape of an identifier, whatever the clock, the thread and the random words are.
-/

namespace OpenvasTool

open Posix Posix.Regex

/-- What `genUUID` reads: the broken-down local time, the thread id and two words that depend on
the address of a buffer, the time and the random device. The ranges are those of `localtime_r`;
the month counts from 0 and the year is cut to a byte. -/
structure UuidSource where
  word : Fin (2 ^ 32)
  year : Fin 256
  mon : Fin 12
  mday : Fin 32
  hour : Fin 24
  min : Fin 60
  sec : Fin 61
  tid : Fin (2 ^ 16)
  rand : Fin (2 ^ 32)

/-- A number in this base, filled with zeros up to this width. -/
def padded (base width n : ℕ) : Text :=
  List.replicate (width - (Nat.toDigits base n).length) '0' ++ Nat.toDigits base n

/-- The text that `genUUID` prints. -/
def UuidSource.render (s : UuidSource) : Text :=
  padded 16 8 s.word.val ++ "-".toList ++ (padded 16 2 s.year.val ++ padded 10 2 (s.mon.val + 1)) ++
    "-".toList ++ (padded 10 2 s.mday.val ++ padded 10 2 s.hour.val) ++ "-".toList ++
    (padded 10 2 s.min.val ++ padded 10 2 s.sec.val) ++ "-".toList ++
    (padded 16 4 s.tid.val ++ padded 16 8 s.rand.val)

/-- A number below a power of the base takes exactly the given width. -/
theorem length_padded {base width n : ℕ} (hbase : 1 < base) (hwidth : 0 < width)
    (hn : n < base ^ width) : (padded base width n).length = width := by
  have hlen := (Nat.length_toDigits_le_iff hbase hwidth).mpr hn
  simp only [padded, List.length_append, List.length_replicate]
  omega

/-- A property of all digits of the base holds of the digits of a number. -/
theorem of_mem_toDigits {p : Char → Prop} {base n : ℕ} (hbase : 1 < base)
    (hdigit : ∀ d < base, p d.digitChar) {c : Char} (hc : c ∈ Nat.toDigits base n) : p c := by
  induction n using Nat.strongRecOn with
  | ind n ih =>
    rw [Nat.toDigits_eq_if hbase] at hc
    split at hc
    · rename_i hlt
      rw [List.mem_singleton.mp hc]
      exact hdigit n hlt
    · rcases List.mem_append.mp hc with hc | hc
      · exact ih (n / base) (Nat.div_lt_self (by omega) hbase) hc
      · rw [List.mem_singleton.mp hc]
        exact hdigit _ (Nat.mod_lt n (by omega))

/-- So it is for a padded number. -/
theorem of_mem_padded {p : Char → Prop} {base width n : ℕ} (hbase : 1 < base)
    (hdigit : ∀ d < base, p d.digitChar) {c : Char} (hc : c ∈ padded base width n) : p c := by
  rcases List.mem_append.mp hc with hzero | hc
  · rw [List.eq_of_mem_replicate hzero]
    exact hdigit 0 (by omega)
  · exact of_mem_toDigits hbase hdigit hc

/-- A counted repetition of a class matches the texts of that length from the class. -/
theorem mem_lang_times_cls {p : Char → Bool} {n : ℕ} {t : Text} (hlen : t.length = n)
    (hall : ∀ c ∈ t, p c = true) : t ∈ (times (cls p) n).lang := by
  refine mem_lang_rep.mpr ⟨t.map fun c => [c], by simp [hlen], by simp [hlen], ?_, ?_⟩
  · clear hlen hall
    induction t with
    | nil => rfl
    | cons c t ih => simp [← ih]
  · intro y hy
    obtain ⟨c, hc, rfl⟩ := List.mem_map.mp hy
    exact ⟨c, hall c hc, rfl⟩

/-- Five groups of characters of a class, of the right lengths and joined by dashes. -/
theorem mem_lang_groups {p : Char → Bool} {a b c d e : Text} (ha : a.length = 8) (hb : b.length = 4)
    (hc : c.length = 4) (hd : d.length = 4) (he : e.length = 12)
    (hall : ∀ x ∈ a ++ b ++ c ++ d ++ e, p x = true) :
    a ++ '-' :: (b ++ '-' :: (c ++ '-' :: (d ++ '-' :: e))) ∈
      (seqs [times (cls p) 8, chr '-', times (cls p) 4, chr '-', times (cls p) 4, chr '-',
        times (cls p) 4, chr '-', times (cls p) 12]).lang := by
  have hdash : ['-'] ∈ (chr '-').lang := ⟨'-', rfl, rfl⟩
  have hgroup : ∀ {t : Text} {n : ℕ}, t.length = n → (∀ x ∈ t, x ∈ a ++ b ++ c ++ d ++ e) →
      t ∈ (times (cls p) n).lang :=
    fun hlen hsub => mem_lang_times_cls hlen fun x hx => hall x (hsub x hx)
  refine mem_lang_seq.mpr ⟨a, hgroup ha (by simp +contextual), _, mem_lang_seq.mpr ⟨['-'], hdash, _,
    mem_lang_seq.mpr ⟨b, hgroup hb (by simp +contextual), _, mem_lang_seq.mpr ⟨['-'], hdash, _,
    mem_lang_seq.mpr ⟨c, hgroup hc (by simp +contextual), _, mem_lang_seq.mpr ⟨['-'], hdash, _,
    mem_lang_seq.mpr ⟨d, hgroup hd (by simp +contextual), _, mem_lang_seq.mpr ⟨['-'], hdash, e,
    hgroup he (by simp +contextual), rfl⟩, rfl⟩, rfl⟩, rfl⟩, rfl⟩, rfl⟩, rfl⟩, rfl⟩

/-- With hexadecimal digits they are an identifier. -/
theorem chkUuid_groups {a b c d e : Text} (ha : a.length = 8) (hb : b.length = 4)
    (hc : c.length = 4) (hd : d.length = 4) (he : e.length = 12)
    (hall : ∀ x ∈ a ++ b ++ c ++ d ++ e, isxdigit x = true) :
    chkUuid (a ++ '-' :: (b ++ '-' :: (c ++ '-' :: (d ++ '-' :: e)))) = true :=
  chkUuid_iff.mpr (mem_lang_groups ha hb hc hd he hall)

namespace UuidSource

variable (s : UuidSource)

/-- The identifier consists of five groups of digits of the base 16. -/
theorem render_groups_of {p : Char → Prop} (hdigit : ∀ d < 16, p d.digitChar) :
    ∃ a b c d e : Text,
      a.length = 8 ∧ b.length = 4 ∧ c.length = 4 ∧ d.length = 4 ∧ e.length = 12 ∧
        (∀ x ∈ a ++ b ++ c ++ d ++ e, p x) ∧
        s.render = a ++ '-' :: (b ++ '-' :: (c ++ '-' :: (d ++ '-' :: e))) := by
  have hhex : ∀ {width n : ℕ} {c : Char}, c ∈ padded 16 width n → p c :=
    of_mem_padded (by decide) hdigit
  have hdec : ∀ {width n : ℕ} {c : Char}, c ∈ padded 10 width n → p c :=
    of_mem_padded (by decide) fun d hd => hdigit d (hd.trans (by decide))
  have hten : ∀ {n : ℕ}, n < 100 → (padded 10 2 n).length = 2 :=
    fun h => length_padded (by decide) (by decide) h
  have hword : (padded 16 8 s.word.val).length = 8 := length_padded (by decide) (by decide) s.word.2
  have hrand : (padded 16 8 s.rand.val).length = 8 := length_padded (by decide) (by decide) s.rand.2
  have htid : (padded 16 4 s.tid.val).length = 4 := length_padded (by decide) (by decide) s.tid.2
  have hyear : (padded 16 2 s.year.val).length = 2 := length_padded (by decide) (by decide) s.year.2
  have hmon : (padded 10 2 (s.mon.val + 1)).length = 2 := hten (by have := s.mon.2; omega)
  have hmday : (padded 10 2 s.mday.val).length = 2 := hten (by have := s.mday.2; omega)
  have hhour : (padded 10 2 s.hour.val).length = 2 := hten (by have := s.hour.2; omega)
  have hmin : (padded 10 2 s.min.val).length = 2 := hten (by have := s.min.2; omega)
  have hsec : (padded 10 2 s.sec.val).length = 2 := hten (by have := s.sec.2; omega)
  refine ⟨padded 16 8 s.word.val, padded 16 2 s.year.val ++ padded 10 2 (s.mon.val + 1),
    padded 10 2 s.mday.val ++ padded 10 2 s.hour.val,
    padded 10 2 s.min.val ++ padded 10 2 s.sec.val,
    padded 16 4 s.tid.val ++ padded 16 8 s.rand.val, hword, by simp [hyear, hmon],
    by simp [hmday, hhour], by simp [hmin, hsec], by simp [htid, hrand], fun x hx => ?_,
    by simp [render]⟩
  simp only [List.mem_append] at hx
  rcases hx with (((hx | hx | hx) | hx | hx) | hx | hx) | hx | hx
  exacts [hhex hx, hhex hx, hdec hx, hdec hx, hdec hx, hdec hx, hdec hx, hhex hx, hhex hx]

/-- The digits are hexadecimal. -/
theorem render_groups : ∃ a b c d e : Text,
    a.length = 8 ∧ b.length = 4 ∧ c.length = 4 ∧ d.length = 4 ∧ e.length = 12 ∧
      (∀ x ∈ a ++ b ++ c ++ d ++ e, isxdigit x = true) ∧
      s.render = a ++ '-' :: (b ++ '-' :: (c ++ '-' :: (d ++ '-' :: e))) :=
  s.render_groups_of (by decide)

theorem chkUuid_render : chkUuid s.render = true := by
  obtain ⟨a, b, c, d, e, ha, hb, hc, hd, he, hall, hrender⟩ := s.render_groups
  rw [hrender]
  exact chkUuid_groups ha hb hc hd he hall

theorem length_render : s.render.length = 36 := by
  obtain ⟨a, b, c, d, e, ha, hb, hc, hd, he, _, hrender⟩ := s.render_groups
  rw [hrender]
  simp [ha, hb, hc, hd, he]

theorem nul_not_mem_render : '\x00' ∉ s.render := by
  intro hnul
  have hne : ∀ c, isxdigit c = true → c ≠ '\x00' := fun c hc heq =>
    absurd (heq ▸ hc) (by decide)
  exact forall_of_chkUuid s.chkUuid_render hne (by decide) _ hnul rfl

end UuidSource

/-- `genUUID`: the identifier always fits. -/
def genUUID (s : UuidSource) : CStr maxUuidSize :=
  ⟨s.render, by rw [s.length_render]; decide, s.nul_not_mem_render⟩

end OpenvasTool
