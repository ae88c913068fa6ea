import OpenvasTool.Posix.Regex
import Mathlib.Data.List.DropRight
import Mathlib.Data.List.Infix

/-!
# Perl-compatible patterns for keys

Matchers for patterns `(\b|^)key\s?=`, which look for a key in front of an equals
sign anywhere in a text, and for the marks at which a text is cut. In texts of lines
`key = value` the search of a key ends on the line of this key, provided that no value
mentions another one.
-/

namespace Preg

open Posix

/-! ### Patterns -/

/-- `\w`. -/
def isWord (c : Char) : Bool := c.isAlphanum || c == '_'

/-- `\s`. -/
def isSpace (c : Char) : Bool := c == ' ' || (9 ≤ c.toNat && c.toNat ≤ 13)

/-- `\b` between two characters. -/
def boundary (prev next : Option Char) : Bool := prev.any isWord != next.any isWord

/-- `\s?`. What follows it in the patterns here is never white space, so nothing is given back. -/
def optSpace : Text → Text
  | [] => []
  | c :: s => if isSpace c then s else c :: s

/-- `=`. -/
def equals : Text → Option Text
  | [] => none
  | c :: s => if c = '=' then some s else none

/-- `key\s?=`: what follows a match at the start. -/
def keyEquals (key s : Text) : Option Text :=
  if key <+: s then equals (optSpace (s.drop key.length)) else none

section Search

variable {α : Type*}

/-- A match of `(\b|^)key\s?=` at this position, and of `value` behind it. -/
def here (key : Text) (value : Text → Option α) (prev : Option Char) (s : Text) : Option α :=
  if prev.isNone || boundary prev s.head? then (keyEquals key s).bind value else none

/-- The leftmost match, from a position whose preceding character is `prev`. -/
def search (key : Text) (value : Text → Option α) : Option Char → Text → Option α
  | prev, [] => here key value prev []
  | prev, c :: s =>
      match here key value prev (c :: s) with
      | some v => some v
      | none => search key value (some c) s

end Search

/-- `(.*)`. -/
def restOfLine (s : Text) : Option Text := some (s.takeWhile fun c => c != '\n')

/-- `\s?([[:digit:]]{n,})`. -/
def digits (n : ℕ) (s : Text) : Option Text :=
  let ds := (optSpace s).takeWhile Char.isDigit
  if n ≤ ds.length then some ds else none

/-- `\s*\n`: the white space is given back up to its last line break. -/
def skipBlankLines (s : Text) : Option Text :=
  let w := s.takeWhile isSpace
  if '\n' ∈ w then some (w.rtakeWhile (· != '\n') ++ s.dropWhile isSpace) else none

/-- The leftmost match of a mark: what stands before and behind it. -/
def findMark (mark : Text → Option Text) : Text → Option (Text × Text)
  | [] => (mark []).map fun rest => ([], rest)
  | c :: s =>
      match mark (c :: s) with
      | some rest => some ([], rest)
      | none => (findMark mark s).map fun p => (c :: p.1, p.2)

/-- `preg_split`; the fuel bounds the number of cuts, the length of the text suffices. -/
def split (mark : Text → Option Text) : ℕ → Text → List Text
  | 0, s => [s]
  | n + 1, s =>
      match findMark mark s with
      | none => [s]
      | some (before, rest) => before :: split mark n rest

/-! ### Keys -/

/-- A key is a word. -/
def IsKey (key : Text) : Prop := key ≠ [] ∧ key.all isWord = true

instance (key : Text) : Decidable (IsKey key) := inferInstanceAs (Decidable (_ ∧ _))

/-- The text contains the key, followed by an equals sign. -/
def mentions (key text : Text) : Bool := text.tails.any fun t => (keyEquals key t).isSome

/-- What can follow a line: nothing, or further lines that do not start with an equals sign. -/
def LineEnd (s : Text) : Prop := s = [] ∨ ∃ rest, s = '\n' :: rest ∧ rest.head? ≠ some '='

theorem isSpace_of_isWord {c : Char} (h : isWord c = true) : isSpace c = false := by
  by_contra hspace
  simp only [isSpace, Bool.not_eq_false, Bool.or_eq_true, beq_iff_eq, Bool.and_eq_true,
    decide_eq_true_eq] at hspace
  have hcode : c.toNat = 32 ∨ c.toNat = 9 ∨ c.toNat = 10 ∨ c.toNat = 11 ∨ c.toNat = 12 ∨
      c.toNat = 13 := by
    rcases hspace with rfl | hspace
    · exact Or.inl rfl
    · omega
  have hchar : ∀ n, c.toNat = n → c = Char.ofNat n := fun n hn => by rw [← hn, Char.ofNat_toNat]
  rcases hcode with hn | hn | hn | hn | hn | hn <;>
    exact absurd (hchar _ hn ▸ h) (by decide)

/-! ### One key -/

section Key

variable {key s t : Text}

theorem IsKey.word_of_mem (h : IsKey key) {c : Char} (hc : c ∈ key) : isWord c = true :=
  List.all_eq_true.mp h.2 c hc

theorem IsKey.not_mem (h : IsKey key) {c : Char} (hc : isWord c = false) : c ∉ key :=
  fun hmem => by simp [h.word_of_mem hmem] at hc

theorem LineEnd.nil : LineEnd [] := Or.inl rfl

theorem LineEnd.head?_ne (h : LineEnd s) {c : Char} (hc : c ≠ '\n') : s.head? ≠ some c := by
  rcases h with rfl | ⟨rest, rfl, _⟩
  · simp
  · simpa using Ne.symm hc

theorem LineEnd.equals_eq_none (h : LineEnd s) : equals s = none := by
  rcases h with rfl | ⟨rest, rfl, _⟩
  · rfl
  · simp [equals]

/-- Behind a line there is no `\s?=`. -/
theorem LineEnd.equals_optSpace (h : LineEnd s) : equals (optSpace s) = none := by
  rcases h with rfl | ⟨rest, rfl, hrest⟩
  · rfl
  · rw [optSpace, if_pos (by decide)]
    cases rest with
    | nil => rfl
    | cons c rest =>
      rw [equals, if_neg]
      simpa using hrest

theorem equals_append {c : Char} (t s : Text) :
    equals (c :: (t ++ s)) = (equals (c :: t)).map (· ++ s) := by
  by_cases hc : c = '=' <;> simp [equals, hc]

theorem keyEquals_nil (hkey : IsKey key) : keyEquals key [] = none := by
  simp [keyEquals, hkey.1]

theorem keyEquals_cons (hkey : IsKey key) {c : Char} (hc : isWord c = false) (s : Text) :
    keyEquals key (c :: s) = none := by
  rw [keyEquals, if_neg]
  intro hprefix
  obtain ⟨d, key, rfl⟩ := List.exists_cons_of_ne_nil hkey.1
  obtain rfl := (List.cons_prefix_cons.mp hprefix).1
  exact hkey.not_mem hc List.mem_cons_self

theorem equals_optSpace_eq_none (h : '=' ∉ s) : equals (optSpace s) = none := by
  have hequals : ∀ u : Text, '=' ∉ u → equals u = none := by
    intro u hu
    cases u with
    | nil => rfl
    | cons c u =>
      simp only [List.mem_cons, not_or] at hu
      rw [equals, if_neg (Ne.symm hu.1)]
  cases s with
  | nil => rfl
  | cons c s =>
    rw [optSpace]
    split
    · exact hequals s fun hmem => h (List.mem_cons_of_mem c hmem)
    · exact hequals _ h

theorem keyEquals_eq_none (h : '=' ∉ s) : keyEquals key s = none := by
  rw [keyEquals]
  split
  · exact equals_optSpace_eq_none fun hmem => h (List.mem_of_mem_drop hmem)
  · rfl

theorem mentions_eq_false (h : '=' ∉ t) : mentions key t = false := by
  rw [mentions, List.any_eq_false]
  intro u hu
  have hsuffix := (List.mem_tails u t).mp hu
  have hnone : keyEquals key u = none := keyEquals_eq_none fun hmem => h (hsuffix.subset hmem)
  simp [hnone]

theorem keyEquals_self (key s : Text) : keyEquals key (key ++ s) = equals (optSpace s) := by
  rw [keyEquals, if_pos (List.prefix_append _ _), List.drop_left]

/-- A match of a key lies on one line. -/
theorem keyEquals_append (hkey : IsKey key) (hs : LineEnd s) (t : Text) :
    keyEquals key (t ++ s) = (keyEquals key t).map (· ++ s) := by
  by_cases hprefix : key <+: t
  · obtain ⟨r, rfl⟩ := hprefix
    rw [List.append_assoc, keyEquals_self, keyEquals_self]
    cases r with
    | nil => exact hs.equals_optSpace
    | cons c r =>
      rw [List.cons_append, optSpace, optSpace]
      split
      · cases r with
        | nil => exact hs.equals_eq_none
        | cons d r => exact equals_append r s
      · exact equals_append r s
  · have hlong : ¬key <+: t ++ s := by
      intro hkeys
      rcases List.prefix_or_prefix_of_prefix hkeys (List.prefix_append t s) with hin | ⟨r, rfl⟩
      · exact hprefix hin
      · rw [List.prefix_append_right_inj] at hkeys
        cases r with
        | nil => exact hprefix (by simp)
        | cons c r =>
          obtain ⟨rest, rfl⟩ := hkeys
          have hc : isWord c = true := hkey.word_of_mem (c := c) (by simp)
          have hnl : c = '\n' := by
            by_contra hne
            exact hs.head?_ne hne rfl
          simp [hnl, isWord] at hc
    rw [keyEquals, if_neg hlong, keyEquals, if_neg hprefix]
    rfl

/-- Another key does not match where a key and a blank stand. -/
theorem keyEquals_other (hkey : IsKey key) (hname : IsKey t) (hne : key ≠ t) (s : Text) :
    keyEquals key (t ++ ' ' :: s) = none := by
  by_cases hprefix : key <+: t ++ ' ' :: s
  · rcases List.prefix_or_prefix_of_prefix hprefix (List.prefix_append t _) with
      ⟨r, rfl⟩ | ⟨r, rfl⟩
    · cases r with
      | nil => exact absurd (List.append_nil key).symm hne
      | cons c r =>
        have hc : isWord c = true := hname.word_of_mem (c := c) (by simp)
        have heq : c ≠ '=' := by
          rintro rfl
          simp [isWord] at hc
        rw [List.append_assoc, keyEquals_self, List.cons_append, optSpace,
          if_neg (by simp [isSpace_of_isWord hc]), equals, if_neg heq]
    · rw [List.prefix_append_right_inj] at hprefix
      cases r with
      | nil => exact absurd (List.append_nil t) hne
      | cons c r =>
        obtain rfl := (List.cons_prefix_cons.mp hprefix).1
        exact absurd (by simp) (hkey.not_mem (c := ' ') (by decide))
  · rw [keyEquals, if_neg hprefix]

end Key

/-! ### Searching -/

section Search

variable {α : Type*} {key : Text} {value : Text → Option α} {prev : Option Char} {s t : Text}

theorem here_eq_none (h : keyEquals key s = none) : here key value prev s = none := by
  simp [here, h]

/-- No match starts inside a word. -/
theorem here_inside (hkey : IsKey key) {d : Char} (hd : isWord d = true) (s : Text) :
    here key value (some d) s = none := by
  cases s with
  | nil => exact here_eq_none (keyEquals_nil hkey)
  | cons c s =>
    by_cases hc : isWord c = true
    · simp [here, boundary, hc, hd]
    · exact here_eq_none (keyEquals_cons hkey (by simpa using hc) s)

theorem here_self (hkey : IsKey key) (hprev : prev.any isWord = false) (s : Text) :
    here key value prev (key ++ s) = (equals (optSpace s)).bind value := by
  have hhead : (key ++ s).head?.any isWord = true := by
    obtain ⟨c, key, rfl⟩ := List.exists_cons_of_ne_nil hkey.1
    simpa using hkey.word_of_mem (c := c) (by simp)
  have hboundary : boundary prev (key ++ s).head? = true := by
    rw [boundary, hprev, hhead]
    rfl
  rw [here, hboundary, Bool.or_true, if_pos rfl, keyEquals_self]

theorem search_of_here {v : α} (h : here key value prev s = some v) :
    search key value prev s = some v := by
  cases s with
  | nil => exact h
  | cons c s => simp [search, h]

theorem search_cons {c : Char} (h : here key value prev (c :: s) = none) :
    search key value prev (c :: s) = search key value (some c) s := by
  simp [search, h]

theorem search_nil (hkey : IsKey key) : search key value prev [] = none :=
  here_eq_none (keyEquals_nil hkey)

/-- What is found was read somewhere. -/
theorem exists_of_search {v : α} (h : search key value prev s = some v) :
    ∃ t, value t = some v := by
  have hhere : ∀ {prev s}, here key value prev s = some v → ∃ t, value t = some v := by
    intro prev s h
    unfold here at h
    split at h
    · obtain ⟨t, _, ht⟩ := Option.bind_eq_some_iff.mp h
      exact ⟨t, ht⟩
    · simp at h
  induction s generalizing prev with
  | nil => exact hhere h
  | cons c s ih =>
    cases hc : here key value prev (c :: s) with
    | some u =>
      rw [search_of_here hc] at h
      exact hhere (hc.trans h)
    | none =>
      rw [search_cons hc] at h
      exact ih h

/-- The search behind a line break is the search from the start. -/
theorem search_newline (hkey : IsKey key) (s : Text) :
    search key value (some '\n') s = search key value none s := by
  cases s with
  | nil => rw [search_nil hkey, search_nil hkey]
  | cons c s =>
    have hhere : here key value (some '\n') (c :: s) = here key value none (c :: s) := by
      by_cases hc : isWord c = true
      · have hnl : isWord '\n' = false := by decide
        simp [here, boundary, hc, hnl]
      · have hnone := keyEquals_cons hkey (by simpa using hc) s
        rw [here_eq_none hnone, here_eq_none hnone]
    rw [search, search, hhere]

theorem search_newline_cons (hkey : IsKey key) (s : Text) :
    search key value prev ('\n' :: s) = search key value none s := by
  rw [search_cons (here_eq_none (keyEquals_cons hkey (by decide) s)), search_newline hkey]

theorem search_lineEnd (hkey : IsKey key) (hs : LineEnd s) (prev : Option Char) :
    search key value prev s = search key value none s := by
  rcases hs with rfl | ⟨rest, rfl, _⟩
  · rw [search_nil hkey, search_nil hkey]
  · rw [search_newline_cons hkey, search_newline_cons hkey]

/-- A text without an equals sign has no key. -/
theorem search_eq_none (hs : '=' ∉ s) (prev : Option Char) : search key value prev s = none := by
  induction s generalizing prev with
  | nil => exact here_eq_none (keyEquals_eq_none hs)
  | cons c s ih =>
    rw [search_cons (here_eq_none (keyEquals_eq_none hs))]
    exact ih (fun hmem => hs (List.mem_cons_of_mem c hmem)) (some c)

theorem mentions_cons {c : Char} (h : mentions key (c :: t) = false) :
    keyEquals key (c :: t) = none ∧ mentions key t = false := by
  simp only [mentions, List.tails_cons, List.any_cons, Bool.or_eq_false_iff] at h
  exact ⟨by simpa using h.1, h.2⟩

/-- The search passes over a text that does not mention the key. -/
theorem search_unmentioned (hkey : IsKey key) (hs : LineEnd s) (hfree : mentions key t = false)
    (prev : Option Char) : search key value prev (t ++ s) = search key value none s := by
  induction t generalizing prev with
  | nil => exact search_lineEnd hkey hs prev
  | cons c t ih =>
    obtain ⟨hnone, hrest⟩ := mentions_cons hfree
    have hhere : keyEquals key (c :: (t ++ s)) = none := by
      rw [← List.cons_append, keyEquals_append hkey hs, hnone]
      rfl
    rw [List.cons_append, search_cons (here_eq_none hhere), ih hrest]

/-- The search passes over the rest of a word. -/
theorem search_word (hkey : IsKey key) (ht : ∀ c ∈ t, isWord c = true) {d : Char}
    (hd : isWord d = true) (s : Text) :
    ∃ prev, search key value (some d) (t ++ s) = search key value prev s := by
  induction t generalizing d with
  | nil => exact ⟨some d, rfl⟩
  | cons c t ih =>
    obtain ⟨prev, hprev⟩ := ih (fun e he => ht e (by simp [he])) (ht c (by simp))
    exact ⟨prev, by rw [List.cons_append, search_cons (here_inside hkey hd _), hprev]⟩

end Search

/-! ### Lines `key = value` -/

/-- The line of a field. -/
def assignment (field : Text × Text) : Text := field.1 ++ ' ' :: '=' :: ' ' :: field.2

/-- The lines of a record. -/
def block (fields : List (Text × Text)) : Text := ['\n'].intercalate (fields.map assignment)

/-- The same lines, each behind a line break. -/
def lines (fields : List (Text × Text)) : Text := fields.flatMap fun f => '\n' :: assignment f

/-- Fields from which the given keys can be read: every key is a word, every value stays on its
line, and no value mentions one of the given keys, its own apart. -/
structure Readable (keys : List Text) (fields : List (Text × Text)) : Prop where
  key : ∀ f ∈ fields, IsKey f.1
  line : ∀ f ∈ fields, '\n' ∉ f.2
  apart : ∀ f ∈ fields, ∀ k ∈ keys, k ≠ f.1 → mentions k f.2 = false

theorem Readable.tail {keys : List Text} {f : Text × Text} {fields : List (Text × Text)}
    (h : Readable keys (f :: fields)) : Readable keys fields where
  key g hg := h.key g (by simp [hg])
  line g hg := h.line g (by simp [hg])
  apart g hg := h.apart g (by simp [hg])

theorem lines_cons (f : Text × Text) (fields : List (Text × Text)) (s : Text) :
    lines (f :: fields) ++ s = '\n' :: (assignment f ++ (lines fields ++ s)) := by
  simp [lines]

theorem block_cons (f : Text × Text) (fields : List (Text × Text)) :
    block (f :: fields) = assignment f ++ lines fields := by
  induction fields generalizing f with
  | nil => simp [block, lines]
  | cons g fields ih =>
    have hblock : block (f :: g :: fields) = assignment f ++ '\n' :: block (g :: fields) := by
      simp [block]
    rw [hblock, ih g]
    simp [lines]

theorem head?_assignment {f : Text × Text} (hf : IsKey f.1) (s : Text) :
    (assignment f ++ s).head?.any isWord = true := by
  obtain ⟨c, key, hkey⟩ := List.exists_cons_of_ne_nil hf.1
  have hc : isWord c = true := hf.word_of_mem (c := c) (by simp [hkey])
  simp [assignment, hkey, hc]

theorem lineEnd_lines {fields : List (Text × Text)} (hkeys : ∀ f ∈ fields, IsKey f.1) {s : Text}
    (hs : LineEnd s) : LineEnd (lines fields ++ s) := by
  cases fields with
  | nil => exact hs
  | cons f fields =>
    rw [lines_cons]
    refine Or.inr ⟨_, rfl, fun heq => ?_⟩
    have hword := head?_assignment (hkeys f (by simp)) (lines fields ++ s)
    rw [heq] at hword
    simp [isWord] at hword

section Lines

variable {α : Type*} {key : Text} {value : Text → Option α} {prev : Option Char} {s : Text}
variable {keys : List Text} {fields : List (Text × Text)}

/-- The search passes over a line that is not read at its key. -/
theorem search_assignment {f : Text × Text} (hkey : IsKey key) (hf : IsKey f.1) (hs : LineEnd s)
    (hhere : here key value prev (assignment f ++ s) = none)
    (hfree : mentions key f.2 = false) :
    search key value prev (assignment f ++ s) = search key value none s := by
  obtain ⟨name, v⟩ := f
  obtain ⟨c, word, rfl⟩ := List.exists_cons_of_ne_nil hf.1
  have hword : ∀ d ∈ word, isWord d = true := fun d hd => hf.word_of_mem (by simp [hd])
  have hshape : assignment (c :: word, v) ++ s =
      c :: (word ++ ' ' :: '=' :: ' ' :: (v ++ s)) := by simp [assignment]
  rw [hshape] at hhere ⊢
  obtain ⟨prev', hprev⟩ : ∃ prev', search key value (some c)
      (word ++ ' ' :: '=' :: ' ' :: (v ++ s)) =
        search key value prev' (' ' :: '=' :: ' ' :: (v ++ s)) :=
    search_word hkey hword (hf.word_of_mem (by simp)) _
  rw [search_cons hhere, hprev, search_cons (here_eq_none (keyEquals_cons hkey (by decide) _)),
    search_cons (here_eq_none (keyEquals_cons hkey (by decide) _)),
    search_cons (here_eq_none (keyEquals_cons hkey (by decide) _)),
    search_unmentioned hkey hs hfree]

theorem here_assignment_other {f : Text × Text} (hkey : IsKey key) (hf : IsKey f.1)
    (hne : key ≠ f.1) (s : Text) : here key value prev (assignment f ++ s) = none := by
  apply here_eq_none
  rw [assignment, List.append_assoc]
  exact keyEquals_other hkey hf hne _

theorem here_assignment_self (hkey : IsKey key) (hprev : prev.any isWord = false) (v s : Text) :
    here key value prev (assignment (key, v) ++ s) = value (' ' :: (v ++ s)) := by
  rw [assignment, List.append_assoc, here_self hkey hprev]
  simp [optSpace, equals, isSpace]

theorem lookup_cons_other {f : Text × Text} (hne : key ≠ f.1) :
    (f :: fields).lookup key = fields.lookup key := by
  have hbeq : (key == f.1) = false := by simpa using hne
  rw [List.lookup_cons, hbeq]

/-- The lines in front of the key's own line are passed over. -/
theorem search_lines_cons_other {f : Text × Text} (h : Readable keys (f :: fields))
    (hmem : key ∈ keys) (hkey : IsKey key) (hne : key ≠ f.1) (hs : LineEnd s) :
    search key value prev (lines (f :: fields) ++ s) =
      search key value none (lines fields ++ s) := by
  have hf := h.key f (by simp)
  have hrest := lineEnd_lines h.tail.key hs
  rw [lines_cons, search_newline_cons hkey, search_assignment hkey hf hrest
    (here_assignment_other hkey hf hne _) (h.apart f (by simp) key hmem hne)]

/-- A key without a line is not found in the lines. -/
theorem search_lines_none (h : Readable keys fields) (hmem : key ∈ keys) (hkey : IsKey key)
    (hlookup : fields.lookup key = none) (hs : LineEnd s) (prev : Option Char) :
    search key value prev (lines fields ++ s) = search key value none s := by
  induction fields generalizing prev with
  | nil => exact search_lineEnd hkey hs prev
  | cons f fields ih =>
    have hne : key ≠ f.1 := by
      rintro rfl
      simp at hlookup
    rw [lookup_cons_other hne] at hlookup
    rw [search_lines_cons_other h hmem hkey hne hs, ih h.tail hlookup]

/-- The search ends on the first line of the key when its value is accepted. -/
theorem search_lines_some (h : Readable keys fields) (hmem : key ∈ keys) (hkey : IsKey key)
    {v : Text} (hlookup : fields.lookup key = some v) {out : α}
    (hvalue : ∀ rest, LineEnd rest → value (' ' :: (v ++ rest)) = some out) (hs : LineEnd s)
    (prev : Option Char) : search key value prev (lines fields ++ s) = some out := by
  induction fields generalizing prev with
  | nil => simp at hlookup
  | cons f fields ih =>
    by_cases hne : key = f.1
    · obtain ⟨name, u⟩ := f
      obtain rfl : key = name := hne
      obtain rfl : u = v := by simpa using hlookup
      rw [lines_cons, search_newline_cons hkey]
      apply search_of_here
      rw [here_assignment_self hkey rfl, hvalue _ (lineEnd_lines h.tail.key hs)]
    · rw [lookup_cons_other hne] at hlookup
      rw [search_lines_cons_other h hmem hkey hne hs, ih h.tail hlookup]

/-- The only line of a key is passed over when its value is not accepted. -/
theorem search_lines_failed (h : Readable keys fields) (hmem : key ∈ keys) (hkey : IsKey key)
    (hcount : (fields.map Prod.fst).count key ≤ 1) {v : Text}
    (hlookup : fields.lookup key = some v)
    (hvalue : ∀ rest, LineEnd rest → value (' ' :: (v ++ rest)) = none)
    (hfree : mentions key v = false) (hs : LineEnd s) (prev : Option Char) :
    search key value prev (lines fields ++ s) = search key value none s := by
  induction fields generalizing prev with
  | nil => simp at hlookup
  | cons f fields ih =>
    by_cases hne : key = f.1
    · obtain ⟨name, u⟩ := f
      obtain rfl : key = name := hne
      obtain rfl : u = v := by simpa using hlookup
      have hnone : fields.lookup key = none := by
        rw [List.map_cons, List.count_cons_self] at hcount
        have hzero : (fields.map Prod.fst).count key = 0 := by omega
        rw [List.lookup_eq_none_iff]
        intro g hg
        have hother : key ≠ g.1 := by
          rintro rfl
          exact List.count_eq_zero.mp hzero (List.mem_map_of_mem hg)
        simpa using hother
      have hrest := lineEnd_lines h.tail.key hs
      rw [lines_cons, search_newline_cons hkey, search_assignment hkey (h.key _ (by simp)) hrest
        ((here_assignment_self hkey rfl u _).trans (hvalue _ hrest)) hfree,
        search_lines_none h.tail hmem hkey hnone hs]
    · rw [lookup_cons_other hne] at hlookup
      rw [List.map_cons, List.count_cons_of_ne (Ne.symm hne)] at hcount
      rw [search_lines_cons_other h hmem hkey hne hs, ih h.tail hcount hlookup]

/-- The search in a record is the search in its lines. -/
theorem search_block (hkey : IsKey key) (hne : fields ≠ []) (s : Text) :
    search key value none (block fields ++ s) = search key value none (lines fields ++ s) := by
  obtain ⟨f, fields, rfl⟩ := List.exists_cons_of_ne_nil hne
  rw [block_cons, lines_cons, search_newline_cons hkey, List.append_assoc]

end Lines

/-! ### Values -/

theorem takeWhile_append_lineEnd {p : Char → Bool} (hp : p '\n' = false) (v : Text) {s : Text}
    (hs : LineEnd s) : (v ++ s).takeWhile p = v.takeWhile p := by
  rw [List.takeWhile_append]
  split
  · rename_i hall
    have hnone : s.takeWhile p = [] := by
      rcases hs with rfl | ⟨rest, rfl, _⟩
      · rfl
      · simp [hp]
    rw [hnone, List.append_nil]
    exact (List.takeWhile_prefix p).eq_of_length hall |>.symm
  · rfl

theorem restOfLine_value {v s : Text} (hv : '\n' ∉ v) (hs : LineEnd s) :
    restOfLine (' ' :: (v ++ s)) = some (' ' :: v) := by
  have hline : v.takeWhile (fun c => c != '\n') = v := by
    rw [List.takeWhile_eq_self_iff]
    intro c hc
    have hne : c ≠ '\n' := fun heq => hv (heq ▸ hc)
    simpa using hne
  have htake := takeWhile_append_lineEnd (p := fun c => c != '\n') (by decide) v hs
  rw [restOfLine, List.takeWhile_cons_of_pos (by decide), htake, hline]

theorem digits_value {v s : Text} (n : ℕ) (hs : LineEnd s) :
    digits n (' ' :: (v ++ s)) =
      if n ≤ (v.takeWhile Char.isDigit).length then some (v.takeWhile Char.isDigit) else none := by
  have htake := takeWhile_append_lineEnd (p := Char.isDigit) (by decide) v hs
  simp only [digits, optSpace, show isSpace ' ' = true from rfl, if_true, htake]

theorem isDigit_of_digits {n : ℕ} {s ds : Text} (h : digits n s = some ds) :
    n ≤ ds.length ∧ ∀ c ∈ ds, c.isDigit = true := by
  simp only [digits] at h
  split at h
  · rename_i hlen
    obtain rfl := Option.some.inj h
    exact ⟨hlen, fun c hc => List.mem_takeWhile_imp hc⟩
  · simp at h

/-! ### Marks -/

section Marks

variable {mark : Text → Option Text} {s t : Text}

theorem findMark_of_mark {rest : Text} (h : mark s = some rest) :
    findMark mark s = some ([], rest) := by
  cases s with
  | nil => simp [findMark, h]
  | cons c s => simp [findMark, h]

theorem findMark_cons {c : Char} (h : mark (c :: s) = none) :
    findMark mark (c :: s) = (findMark mark s).map fun p => (c :: p.1, p.2) := by
  simp [findMark, h]

/-- A mark that starts with a line break is not found inside a line. -/
theorem findMark_line (hmark : ∀ c u, c ≠ '\n' → mark (c :: u) = none) (ht : '\n' ∉ t) :
    findMark mark (t ++ s) = (findMark mark s).map fun p => (t ++ p.1, p.2) := by
  induction t with
  | nil => simp
  | cons c t ih =>
    simp only [List.mem_cons, not_or] at ht
    rw [List.cons_append, findMark_cons (hmark c _ (Ne.symm ht.1)), ih ht.2, Option.map_map]
    rfl

end Marks

end Preg
