import Mathlib.Computability.Language
import Mathlib.Data.List.MinMax

/-!
# Extended regular expressions

The syntax of POSIX extended regular expressions, their languages, and an
executable matcher. A matcher that has to report sub-matches must know every
way to split a text, so the matcher here enumerates the possible remainders of
a text after a match of the expression. `mem_rests` says that this enumeration
is exactly the language.
-/

namespace Posix

/-- The content of a C string: the bytes before the terminating NUL. -/
abbrev Text := List Char

instance : LawfulBEq Text := inferInstance

/-- Extended regular expressions. `cls` is a matching bracket expression and
`ncls` a nonmatching one (`[^...]`); `rep r lo hi` is the interval `r{lo,hi}`. -/
inductive Regex where
  | eps : Regex
  | cls (p : Char → Bool) : Regex
  | ncls (p : Char → Bool) : Regex
  | seq (r s : Regex) : Regex
  | alt (r s : Regex) : Regex
  | star (r : Regex) : Regex
  | rep (r : Regex) (lo hi : ℕ) : Regex

namespace Regex

/-- The literal text `w`. -/
def lit : Text → Regex
  | [] => eps
  | c :: w => seq (cls (· == c)) (lit w)

/-- The optional expression `(r)?`. -/
def opt (r : Regex) : Regex := rep r 0 1

/-- The nonempty iteration `(r)+`. -/
def plus (r : Regex) : Regex := seq r (star r)

/-- The exact iteration `r{n}`. -/
def times (r : Regex) (n : ℕ) : Regex := rep r n n

/-- The bracket expression `[lo-hi]`. -/
def range (lo hi : Char) : Regex := cls fun c => decide (lo ≤ c) && decide (c ≤ hi)

/-- The juxtaposition of several expressions. -/
def seqs : List Regex → Regex
  | [] => eps
  | [r] => r
  | r :: rs => seq r (seqs rs)

/-- The alternation `r|alts`. -/
def alts (r : Regex) : List Regex → Regex
  | [] => r
  | s :: rs => alt r (alts s rs)

/-- Compilation with `REG_NEWLINE`: a nonmatching list does not match a newline. -/
def regNewline : Regex → Regex
  | eps => eps
  | cls p => cls p
  | ncls p => ncls fun c => p c || c == '\n'
  | seq r s => seq r.regNewline s.regNewline
  | alt r s => alt r.regNewline s.regNewline
  | star r => star r.regNewline
  | rep r lo hi => rep r.regNewline lo hi

/-- The set of texts that an expression matches completely. -/
def lang : Regex → Language Char
  | eps => 1
  | cls p => {w | ∃ c, p c = true ∧ w = [c]}
  | ncls p => {w | ∃ c, p c = false ∧ w = [c]}
  | seq r s => r.lang * s.lang
  | alt r s => r.lang + s.lang
  | star r => KStar.kstar r.lang
  | rep r lo hi => {w | ∃ k, lo ≤ k ∧ k ≤ max lo hi ∧ w ∈ r.lang ^ k}

theorem mem_lang_cls {p : Char → Bool} {w : Text} :
    w ∈ (cls p).lang ↔ ∃ c, p c = true ∧ w = [c] := Iff.rfl

theorem mem_lang_ncls {p : Char → Bool} {w : Text} :
    w ∈ (ncls p).lang ↔ ∃ c, p c = false ∧ w = [c] := Iff.rfl

theorem mem_lang_seq {r s : Regex} {w : Text} :
    w ∈ (seq r s).lang ↔ ∃ u ∈ r.lang, ∃ v ∈ s.lang, u ++ v = w := Language.mem_mul

theorem mem_lang_alt {r s : Regex} {w : Text} :
    w ∈ (alt r s).lang ↔ w ∈ r.lang ∨ w ∈ s.lang := Language.mem_add _ _ _

theorem mem_lang_star {r : Regex} {w : Text} :
    w ∈ (star r).lang ↔ ∃ S : List Text, w = S.flatten ∧ ∀ y ∈ S, y ∈ r.lang :=
  Language.mem_kstar

theorem mem_lang_rep {r : Regex} {lo hi : ℕ} {w : Text} :
    w ∈ (rep r lo hi).lang ↔
      ∃ S : List Text, lo ≤ S.length ∧ S.length ≤ max lo hi ∧ w = S.flatten ∧
        ∀ y ∈ S, y ∈ r.lang := by
  constructor
  · rintro ⟨_, hlo, hhi, hw⟩
    obtain ⟨S, rfl, rfl, hS⟩ := Language.mem_pow.mp hw
    exact ⟨S, hlo, hhi, rfl, hS⟩
  · rintro ⟨S, hlo, hhi, rfl, hS⟩
    exact ⟨S.length, hlo, hhi, Language.mem_pow.mpr ⟨S, rfl, rfl, hS⟩⟩

end Regex

/-! ### Remainders -/

/-- Remainders after exactly `n` matches of `f`. -/
def powRests (f : Text → List Text) : ℕ → Text → List Text
  | 0, s => [s]
  | n + 1, s => (f s).flatMap (powRests f n)

/-- Remainders after at most `n` matches of `f`, longer matches first. -/
def uptoRests (f : Text → List Text) : ℕ → Text → List Text
  | 0, s => [s]
  | n + 1, s => (f s).flatMap (uptoRests f n) ++ [s]

/-- Remainders after any number of matches of `f` that each consume something.
The first argument bounds the number of matches; the length of the text suffices. -/
def starRests (f : Text → List Text) : ℕ → Text → List Text
  | 0, s => [s]
  | n + 1, s => ((f s).filter fun t => t.length < s.length).flatMap (starRests f n) ++ [s]

/-- All remainders of a text after a match of the expression at its start. -/
def Regex.rests : Regex → Text → List Text
  | .eps, s => [s]
  | .cls _, [] => []
  | .cls p, c :: s => if p c then [s] else []
  | .ncls _, [] => []
  | .ncls p, c :: s => if p c then [] else [s]
  | .seq r t, s => (r.rests s).flatMap t.rests
  | .alt r t, s => r.rests s ++ t.rests s
  | .star r, s => starRests r.rests s.length s
  | .rep r lo hi, s => (powRests r.rests lo s).flatMap (uptoRests r.rests (hi - lo))

/-- The expression matches the complete text. -/
def Regex.accepts (r : Regex) (s : Text) : Bool := (r.rests s).contains []

/-- `f` enumerates exactly the remainders of matches of the language `L`. -/
def Enumerates (f : Text → List Text) (L : Language Char) : Prop :=
  ∀ s t, t ∈ f s ↔ ∃ w ∈ L, s = w ++ t

theorem Enumerates.powRests {f : Text → List Text} {L : Language Char} (h : Enumerates f L)
    (n : ℕ) : Enumerates (powRests f n) (L ^ n) := by
  induction n with
  | zero =>
    intro s t
    simp [Posix.powRests, Language.mem_one, eq_comm]
  | succ n ih =>
    intro s t
    simp only [Posix.powRests, List.mem_flatMap, h _ _, ih _ _, pow_succ', Language.mem_mul]
    constructor
    · rintro ⟨u, ⟨v, hv, rfl⟩, w, hw, rfl⟩
      exact ⟨v ++ w, ⟨v, hv, w, hw, rfl⟩, by simp⟩
    · rintro ⟨_, ⟨v, hv, w, hw, rfl⟩, rfl⟩
      exact ⟨w ++ t, ⟨v, hv, by simp⟩, w, hw, rfl⟩

theorem Enumerates.uptoRests {f : Text → List Text} {L : Language Char} (h : Enumerates f L)
    (n : ℕ) (s t : Text) : t ∈ uptoRests f n s ↔ ∃ j ≤ n, ∃ w ∈ L ^ j, s = w ++ t := by
  induction n generalizing s with
  | zero => simp [Posix.uptoRests, Language.mem_one, eq_comm]
  | succ n ih =>
    simp only [Posix.uptoRests, List.mem_append, List.mem_flatMap, List.mem_singleton, h _ _, ih]
    constructor
    · rintro (⟨u, ⟨v, hv, rfl⟩, j, hj, w, hw, rfl⟩ | rfl)
      · refine ⟨j + 1, by omega, v ++ w, ?_, by simp⟩
        rw [pow_succ', Language.mem_mul]
        exact ⟨v, hv, w, hw, rfl⟩
      · exact ⟨0, by omega, [], by simp [Language.mem_one], rfl⟩
    · rintro ⟨j, hj, w, hw, rfl⟩
      cases j with
      | zero =>
        right
        simp only [pow_zero, Language.mem_one] at hw
        simp [hw]
      | succ j =>
        left
        rw [pow_succ', Language.mem_mul] at hw
        obtain ⟨u, hu, v, hv, rfl⟩ := hw
        exact ⟨v ++ t, ⟨u, hu, by simp⟩, j, by omega, v, hv, rfl⟩

theorem Enumerates.starRests {f : Text → List Text} {L : Language Char} (h : Enumerates f L)
    {n : ℕ} {s : Text} (hn : s.length ≤ n) (t : Text) :
    t ∈ starRests f n s ↔ ∃ w ∈ KStar.kstar L, s = w ++ t := by
  induction n generalizing s with
  | zero =>
    have hs : s = [] := List.length_eq_zero_iff.mp (by omega)
    subst hs
    simp only [Posix.starRests, List.mem_singleton]
    constructor
    · rintro rfl
      exact ⟨[], Language.nil_mem_kstar L, rfl⟩
    · rintro ⟨w, _, hw⟩
      exact (List.append_eq_nil_iff.mp hw.symm).2
  | succ n ih =>
    simp only [Posix.starRests, List.mem_append, List.mem_flatMap, List.mem_filter,
      decide_eq_true_eq, List.mem_singleton]
    constructor
    · rintro (⟨u, ⟨hu, hlt⟩, ht⟩ | rfl)
      · obtain ⟨v, hv, rfl⟩ := (h _ _).mp hu
        obtain ⟨w, hw, rfl⟩ := (ih (by omega)).mp ht
        refine ⟨v ++ w, ?_, by simp⟩
        rw [Language.mem_kstar] at hw ⊢
        obtain ⟨S, rfl, hS⟩ := hw
        exact ⟨v :: S, rfl, by simpa using ⟨hv, hS⟩⟩
      · exact ⟨[], Language.nil_mem_kstar L, rfl⟩
    · rintro ⟨w, hw, rfl⟩
      obtain ⟨S, rfl, hS⟩ := Language.mem_kstar_iff_exists_nonempty.mp hw
      cases S with
      | nil => right; simp
      | cons v S =>
        left
        obtain ⟨hv, hne⟩ := hS v (by simp)
        have hpos : 0 < v.length := List.length_pos_of_ne_nil hne
        refine ⟨S.flatten ++ t, ⟨(h _ _).mpr ⟨v, hv, by simp⟩, by simpa using hpos⟩, ?_⟩
        refine (ih (by simp at hn ⊢; omega)).mpr ⟨S.flatten, ?_, rfl⟩
        exact Language.mem_kstar.mpr ⟨S, rfl, fun y hy => (hS y (by simp [hy])).1⟩

/-- The enumeration of remainders is exactly the language of the expression. -/
theorem Regex.mem_rests (r : Regex) : Enumerates r.rests r.lang := by
  induction r with
  | eps =>
    intro s t
    simp [rests, lang, Language.mem_one, eq_comm]
  | cls p =>
    intro s t
    cases s with
    | nil => simp [rests, mem_lang_cls]
    | cons c s =>
      simp only [rests, mem_lang_cls]
      constructor
      · split
        · rename_i hp
          intro ht
          exact ⟨[c], ⟨c, hp, rfl⟩, by simp [List.mem_singleton.mp ht]⟩
        · simp
      · rintro ⟨_, ⟨d, hd, rfl⟩, heq⟩
        obtain ⟨rfl, rfl⟩ : c = d ∧ s = t := by simpa using heq
        simp [hd]
  | ncls p =>
    intro s t
    cases s with
    | nil => simp [rests, mem_lang_ncls]
    | cons c s =>
      simp only [rests, mem_lang_ncls]
      constructor
      · split
        · simp
        · rename_i hp
          intro ht
          exact ⟨[c], ⟨c, by simpa using hp, rfl⟩, by simp [List.mem_singleton.mp ht]⟩
      · rintro ⟨_, ⟨d, hd, rfl⟩, heq⟩
        obtain ⟨rfl, rfl⟩ : c = d ∧ s = t := by simpa using heq
        simp [hd]
  | seq r u ihr ihu =>
    intro s t
    simp only [rests, mem_lang_seq, List.mem_flatMap, ihr _ _, ihu _ _]
    constructor
    · rintro ⟨_, ⟨v, hv, rfl⟩, w, hw, rfl⟩
      exact ⟨v ++ w, ⟨v, hv, w, hw, rfl⟩, by simp⟩
    · rintro ⟨_, ⟨v, hv, w, hw, rfl⟩, rfl⟩
      exact ⟨w ++ t, ⟨v, hv, by simp⟩, w, hw, rfl⟩
  | alt r u ihr ihu =>
    intro s t
    simp only [rests, mem_lang_alt, List.mem_append, ihr _ _, ihu _ _]
    constructor
    · rintro (⟨w, hw, rfl⟩ | ⟨w, hw, rfl⟩)
      · exact ⟨w, Or.inl hw, rfl⟩
      · exact ⟨w, Or.inr hw, rfl⟩
    · rintro ⟨w, hw | hw, rfl⟩
      · exact Or.inl ⟨w, hw, rfl⟩
      · exact Or.inr ⟨w, hw, rfl⟩
  | star r ih =>
    intro s t
    exact ih.starRests le_rfl t
  | rep r lo hi ih =>
    intro s t
    simp only [rests, List.mem_flatMap, ih.powRests lo _ _, ih.uptoRests]
    constructor
    · rintro ⟨_, ⟨v, hv, rfl⟩, j, hj, w, hw, rfl⟩
      refine ⟨v ++ w, ⟨lo + j, by omega, by omega, ?_⟩, by simp⟩
      rw [pow_add, Language.mem_mul]
      exact ⟨v, hv, w, hw, rfl⟩
    · rintro ⟨_, ⟨k, hlo, hhi, hw⟩, rfl⟩
      obtain ⟨j, rfl⟩ := Nat.exists_eq_add_of_le hlo
      rw [pow_add, Language.mem_mul] at hw
      obtain ⟨v, hv, w, hw, rfl⟩ := hw
      exact ⟨w ++ t, ⟨v, hv, by simp⟩, j, by omega, w, hw, rfl⟩

/-- The matcher decides membership in the language. -/
theorem Regex.accepts_iff {r : Regex} {s : Text} : r.accepts s = true ↔ s ∈ r.lang := by
  simp [accepts, r.mem_rests _ _]

namespace Regex

/-! ### Rules for the languages -/

@[simp] theorem mem_lang_lit {v w : Text} : w ∈ (lit v).lang ↔ w = v := by
  induction v generalizing w with
  | nil => simp [lit, lang, Language.mem_one]
  | cons c v ih =>
    simp only [lit, mem_lang_seq, mem_lang_cls, ih]
    constructor
    · rintro ⟨_, ⟨d, hd, rfl⟩, _, rfl, rfl⟩
      simp_all
    · rintro rfl
      exact ⟨[c], ⟨c, by simp, rfl⟩, v, rfl, rfl⟩

@[simp] theorem mem_lang_opt {r : Regex} {w : Text} :
    w ∈ (opt r).lang ↔ w = [] ∨ w ∈ r.lang := by
  unfold opt
  rw [mem_lang_rep]
  constructor
  · rintro ⟨S, _, hlen, rfl, hS⟩
    match S, hlen with
    | [], _ => exact Or.inl rfl
    | [v], _ => exact Or.inr (by simpa using hS)
  · rintro (rfl | hw)
    · exact ⟨[], by simp, by simp, rfl, by simp⟩
    · exact ⟨[w], by simp, by simp, by simp, by simpa using hw⟩

/-- Every character class of the expression is contained in `p`. -/
def Over (p : Char → Prop) : Regex → Prop
  | eps => True
  | cls q => ∀ c, q c = true → p c
  | ncls q => ∀ c, q c = false → p c
  | seq r s => r.Over p ∧ s.Over p
  | alt r s => r.Over p ∧ s.Over p
  | star r => r.Over p
  | rep r _ _ => r.Over p

/-- An expression whose classes are contained in `p` matches only texts over `p`. -/
theorem Over.all_mem {p : Char → Prop} {r : Regex} (h : r.Over p) {w : Text} (hw : w ∈ r.lang) :
    ∀ c ∈ w, p c := by
  induction r generalizing w with
  | eps =>
    have : w = [] := by simpa [lang, Language.mem_one] using hw
    simp [this]
  | cls q =>
    obtain ⟨c, hc, rfl⟩ := hw
    simpa using h c hc
  | ncls q =>
    obtain ⟨c, hc, rfl⟩ := hw
    simpa using h c hc
  | seq r s ihr ihs =>
    obtain ⟨u, hu, v, hv, rfl⟩ := mem_lang_seq.mp hw
    intro c hc
    rcases List.mem_append.mp hc with hc | hc
    · exact ihr h.1 hu c hc
    · exact ihs h.2 hv c hc
  | alt r s ihr ihs =>
    rcases mem_lang_alt.mp hw with hw | hw
    · exact ihr h.1 hw
    · exact ihs h.2 hw
  | star r ih =>
    obtain ⟨S, rfl, hS⟩ := mem_lang_star.mp hw
    intro c hc
    obtain ⟨y, hy, hc⟩ := List.mem_flatten.mp hc
    exact ih h (hS y hy) c hc
  | rep r lo hi ih =>
    obtain ⟨S, _, _, rfl, hS⟩ := mem_lang_rep.mp hw
    intro c hc
    obtain ⟨y, hy, hc⟩ := List.mem_flatten.mp hc
    exact ih h (hS y hy) c hc

/-- `REG_NEWLINE` removes texts from the language and never adds one. -/
theorem lang_regNewline_subset {r : Regex} {w : Text} (hw : w ∈ r.regNewline.lang) :
    w ∈ r.lang := by
  induction r generalizing w with
  | eps => exact hw
  | cls p => exact hw
  | ncls p =>
    obtain ⟨c, hc, rfl⟩ := hw
    simp only [Bool.or_eq_false_iff] at hc
    exact ⟨c, hc.1, rfl⟩
  | seq r s ihr ihs =>
    obtain ⟨u, hu, v, hv, rfl⟩ := mem_lang_seq.mp hw
    exact mem_lang_seq.mpr ⟨u, ihr hu, v, ihs hv, rfl⟩
  | alt r s ihr ihs =>
    exact mem_lang_alt.mpr ((mem_lang_alt.mp hw).imp ihr ihs)
  | star r ih =>
    obtain ⟨S, rfl, hS⟩ := mem_lang_star.mp hw
    exact mem_lang_star.mpr ⟨S, rfl, fun y hy => ih (hS y hy)⟩
  | rep r lo hi ih =>
    obtain ⟨S, hlo, hhi, rfl, hS⟩ := mem_lang_rep.mp hw
    exact mem_lang_rep.mpr ⟨S, hlo, hhi, rfl, fun y hy => ih (hS y hy)⟩

/-- A match without a newline survives compilation with `REG_NEWLINE`. -/
theorem mem_lang_regNewline {r : Regex} {w : Text} (hw : w ∈ r.lang) (hnl : '\n' ∉ w) :
    w ∈ r.regNewline.lang := by
  induction r generalizing w with
  | eps => exact hw
  | cls p => exact hw
  | ncls p =>
    obtain ⟨c, hc, rfl⟩ := hw
    have hne : c ≠ '\n' := fun h => hnl (by simp [h])
    exact ⟨c, by simp [hc, hne], rfl⟩
  | seq r s ihr ihs =>
    obtain ⟨u, hu, v, hv, rfl⟩ := mem_lang_seq.mp hw
    simp only [List.mem_append, not_or] at hnl
    exact mem_lang_seq.mpr ⟨u, ihr hu hnl.1, v, ihs hv hnl.2, rfl⟩
  | alt r s ihr ihs =>
    exact mem_lang_alt.mpr ((mem_lang_alt.mp hw).imp (ihr · hnl) (ihs · hnl))
  | star r ih =>
    obtain ⟨S, rfl, hS⟩ := mem_lang_star.mp hw
    refine mem_lang_star.mpr ⟨S, rfl, fun y hy => ih (hS y hy) fun h => hnl ?_⟩
    exact List.mem_flatten.mpr ⟨y, hy, h⟩
  | rep r lo hi ih =>
    obtain ⟨S, hlo, hhi, rfl, hS⟩ := mem_lang_rep.mp hw
    refine mem_lang_rep.mpr ⟨S, hlo, hhi, rfl, fun y hy => ih (hS y hy) fun h => hnl ?_⟩
    exact List.mem_flatten.mpr ⟨y, hy, h⟩

end Regex

end Posix
