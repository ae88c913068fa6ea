import OpenvasTool.Posix.Regex

/-!
# Searching and sub-matches

`regexec` looks for the leftmost match of a pattern, takes the longest match
that starts there, and reports the texts of the parenthesised groups. The
patterns are sequences of plain and reported parts between optional anchors.
With `REG_NEWLINE` the anchors also match next to a newline.
-/

namespace Posix

/-- One factor of a pattern: an expression, or a group whose text is reported. -/
inductive Part where
  | plain (r : Regex) : Part
  | group (r : Regex) : Part

/-- A compiled pattern: its parts, its anchors and the `REG_NEWLINE` flag. -/
structure Pattern where
  bol : Bool
  parts : List Part
  eol : Bool
  newline : Bool

/-- All matches of the parts at the start of a text, as group texts and remainder. -/
def candidates : List Part → Text → List (List Text × Text)
  | [], s => [([], s)]
  | .plain r :: ps, s => (r.rests s).flatMap (candidates ps)
  | .group r :: ps, s => (r.rests s).flatMap fun t =>
      (candidates ps t).map fun m => (s.take (s.length - t.length) :: m.1, m.2)

/-- The parts match the text `s` with group texts `caps` and remainder `u`. -/
def PartsMatch : List Part → List Text → Text → Text → Prop
  | [], caps, s, u => caps = [] ∧ s = u
  | .plain r :: ps, caps, s, u => ∃ w ∈ r.lang, ∃ t, s = w ++ t ∧ PartsMatch ps caps t u
  | .group r :: ps, caps, s, u =>
      ∃ w ∈ r.lang, ∃ t rest, s = w ++ t ∧ caps = w :: rest ∧ PartsMatch ps rest t u

/-- The candidate enumeration is exactly the matching relation. -/
theorem mem_candidates {ps : List Part} {caps : List Text} {s u : Text} :
    (caps, u) ∈ candidates ps s ↔ PartsMatch ps caps s u := by
  induction ps generalizing caps s with
  | nil => simp [candidates, PartsMatch, eq_comm]
  | cons p ps ih =>
    cases p with
    | plain r =>
      simp only [candidates, PartsMatch, List.mem_flatMap, r.mem_rests _ _, ih]
      constructor
      · rintro ⟨t, ⟨w, hw, rfl⟩, h⟩
        exact ⟨w, hw, t, rfl, h⟩
      · rintro ⟨w, hw, t, rfl, h⟩
        exact ⟨t, ⟨w, hw, rfl⟩, h⟩
    | group r =>
      simp only [candidates, PartsMatch, List.mem_flatMap, List.mem_map, r.mem_rests _ _,
        Prod.mk.injEq, Prod.exists]
      constructor
      · rintro ⟨t, ⟨w, hw, rfl⟩, rest, _, h, rfl, rfl⟩
        exact ⟨w, hw, t, rest, rfl, by simp, ih.mp h⟩
      · rintro ⟨w, hw, t, rest, rfl, rfl, h⟩
        exact ⟨t, ⟨w, hw, rfl⟩, rest, u, ih.mpr h, by simp, rfl⟩

/-- The position after the character `prev` (`none` at the start) is a line start. -/
def atBol (newline : Bool) : Option Char → Bool
  | none => true
  | some c => newline && c == '\n'

/-- The position before the text is a line end. -/
def atEol (newline : Bool) : Text → Bool
  | [] => true
  | c :: _ => newline && c == '\n'

namespace Pattern

/-- The matches of a pattern that start at this position. -/
def matchesAt (p : Pattern) (prev : Option Char) (s : Text) : List (List Text × Text) :=
  if p.bol && !atBol p.newline prev then []
  else (candidates p.parts s).filter fun m => !p.eol || atEol p.newline m.2

/-- The groups of the longest match that starts at this position. -/
def here (p : Pattern) (prev : Option Char) (s : Text) : Option (List Text) :=
  (List.argmin (fun m => m.2.length) (p.matchesAt prev s)).map Prod.fst

/-- Search from a position whose preceding character is `prev`. -/
def search (p : Pattern) : Option Char → Text → Option (List Text)
  | prev, [] => p.here prev []
  | prev, c :: s =>
      match p.here prev (c :: s) with
      | some caps => some caps
      | none => p.search (some c) s

/-- The groups of the leftmost longest match, or `none` when nothing matches. -/
def regexec (p : Pattern) (text : Text) : Option (List Text) := p.search none text

theorem mem_matchesAt {p : Pattern} {prev : Option Char} {s u : Text} {caps : List Text} :
    (caps, u) ∈ p.matchesAt prev s ↔
      (p.bol = true → atBol p.newline prev = true) ∧ PartsMatch p.parts caps s u ∧
        (p.eol = true → atEol p.newline u = true) := by
  unfold matchesAt
  split
  · rename_i h
    simp only [Bool.and_eq_true, Bool.not_eq_true'] at h
    simp [h.1, h.2]
  · rename_i h
    simp only [Bool.and_eq_true, Bool.not_eq_true', not_and, Bool.not_eq_false] at h
    rw [List.mem_filter, mem_candidates]
    simp only [Bool.or_eq_true, Bool.not_eq_true']
    constructor
    · rintro ⟨hm, he⟩
      exact ⟨h, hm, fun heol => he.resolve_left (by simp [heol])⟩
    · rintro ⟨_, hm, he⟩
      refine ⟨hm, ?_⟩
      by_cases heol : p.eol = true
      · exact Or.inr (he heol)
      · exact Or.inl (by simpa using heol)

/-- A reported match is a match at this position. -/
theorem here_mem {p : Pattern} {prev : Option Char} {s : Text} {caps : List Text}
    (h : p.here prev s = some caps) : ∃ u, (caps, u) ∈ p.matchesAt prev s := by
  obtain ⟨⟨caps', u⟩, hm, rfl⟩ := Option.map_eq_some_iff.mp h
  exact ⟨u, List.argmin_mem hm⟩

theorem here_eq_none {p : Pattern} {prev : Option Char} {s : Text} :
    p.here prev s = none ↔ ∀ caps u, (caps, u) ∉ p.matchesAt prev s := by
  simp only [here, Option.map_eq_none_iff, List.argmin_eq_none, List.eq_nil_iff_forall_not_mem,
    Prod.forall]

/-- When all matches at a position report the same groups, these are the result. -/
theorem here_eq_some {p : Pattern} {prev : Option Char} {s u : Text} {caps : List Text}
    (hmem : (caps, u) ∈ p.matchesAt prev s)
    (huniq : ∀ caps' u', (caps', u') ∈ p.matchesAt prev s → caps' = caps) :
    p.here prev s = some caps := by
  cases h : p.here prev s with
  | none => exact absurd hmem (here_eq_none.mp h caps u)
  | some caps' =>
    obtain ⟨u', hu'⟩ := here_mem h
    rw [huniq caps' u' hu']

/-- When a match is the longest one at its position and the only one of its length, its groups are
the result. -/
theorem here_eq_some_of_longest {p : Pattern} {prev : Option Char} {s u : Text} {caps : List Text}
    (hmem : (caps, u) ∈ p.matchesAt prev s)
    (hlongest : ∀ caps' u', (caps', u') ∈ p.matchesAt prev s →
      u.length ≤ u'.length ∧ (u'.length = u.length → caps' = caps)) :
    p.here prev s = some caps := by
  unfold here
  cases h : List.argmin (fun m => m.2.length) (p.matchesAt prev s) with
  | none =>
    rw [List.argmin_eq_none.mp h] at hmem
    simp at hmem
  | some m =>
    obtain ⟨hle, heq⟩ := hlongest m.1 m.2 (List.argmin_mem h)
    have hmin : m.2.length ≤ u.length :=
      List.le_of_mem_argmin (f := fun m : List Text × Text => m.2.length) hmem h
    rw [Option.map_some, heq (le_antisymm hmin hle)]

theorem search_of_here {p : Pattern} {prev : Option Char} {s : Text} {caps : List Text}
    (h : p.here prev s = some caps) : p.search prev s = some caps := by
  cases s with
  | nil => exact h
  | cons c s => simp [search, h]

theorem search_cons {p : Pattern} {prev : Option Char} {c : Char} {s : Text}
    (h : p.here prev (c :: s) = none) : p.search prev (c :: s) = p.search (some c) s := by
  simp [search, h]

/-- Every reported result is a match at some position of the text. -/
theorem search_mem {p : Pattern} {prev : Option Char} {s : Text} {caps : List Text}
    (h : p.search prev s = some caps) :
    ∃ before t prev' u, s = before ++ t ∧ (caps, u) ∈ p.matchesAt prev' t ∧
      (before = [] → prev' = prev) := by
  induction s generalizing prev with
  | nil =>
    obtain ⟨u, hu⟩ := here_mem h
    exact ⟨[], [], prev, u, rfl, hu, fun _ => rfl⟩
  | cons c s ih =>
    cases hh : p.here prev (c :: s) with
    | some caps' =>
      rw [search_of_here hh, Option.some.injEq] at h
      subst h
      obtain ⟨u, hu⟩ := here_mem hh
      exact ⟨[], c :: s, prev, u, rfl, hu, fun _ => rfl⟩
    | none =>
      rw [search_cons hh] at h
      obtain ⟨before, t, prev', u, rfl, hu, _⟩ := ih h
      exact ⟨c :: before, t, prev', u, rfl, hu, by simp⟩

/-- A match at some position makes the search succeed. -/
theorem search_isSome {p : Pattern} {prev : Option Char} {before t u : Text} {caps : List Text}
    (h : ∀ prev', (caps, u) ∈ p.matchesAt prev' t) :
    (p.search prev (before ++ t)).isSome := by
  induction before generalizing prev with
  | nil =>
    cases hh : p.here prev t with
    | none => exact absurd (h prev) (here_eq_none.mp hh caps u)
    | some caps' => simp [search_of_here hh]
  | cons c before ih =>
    cases hh : p.here prev (c :: (before ++ t)) with
    | some caps' => simp [search_of_here hh]
    | none => rw [List.cons_append, search_cons hh]; exact ih

/-- A pattern anchored to the start of the text only matches at the first position. -/
theorem search_none_of_bol {p : Pattern} (hbol : p.bol = true) (hnl : p.newline = false)
    (c : Char) (s : Text) : p.search (some c) s = none := by
  have hnone : ∀ d t, p.here (some d) t = none := by
    intro d t
    rw [here_eq_none]
    intro caps u h
    have := (mem_matchesAt.mp h).1 hbol
    simp [atBol, hnl] at this
  induction s generalizing c with
  | nil => exact hnone c []
  | cons d s ih => rw [search_cons (hnone c _), ih d]

/-- The result for an anchored pattern without `REG_NEWLINE` is decided at the start. -/
theorem regexec_of_bol {p : Pattern} (hbol : p.bol = true) (hnl : p.newline = false)
    (s : Text) : p.regexec s = p.here none s := by
  unfold regexec
  cases hh : p.here none s with
  | some caps => exact search_of_here hh
  | none =>
    cases s with
    | nil => exact hh
    | cons c s => rw [search_cons hh, search_none_of_bol hbol hnl]

/-- With `REG_NEWLINE`, an anchored pattern without a match at the start of a line
continues at the next line. -/
theorem search_next_line {p : Pattern} (hbol : p.bol = true) (hnl : p.newline = true)
    {prev : Option Char} {line rest : Text} (hline : '\n' ∉ line)
    (hhere : p.here prev (line ++ '\n' :: rest) = none) :
    p.search prev (line ++ '\n' :: rest) = p.search (some '\n') rest := by
  induction line generalizing prev with
  | nil => exact search_cons hhere
  | cons c line ih =>
    rw [List.cons_append] at hhere ⊢
    rw [search_cons hhere]
    simp only [List.mem_cons, not_or] at hline
    apply ih hline.2
    rw [here_eq_none]
    intro caps u h
    have := (mem_matchesAt.mp h).1 hbol
    have hc : c ≠ '\n' := fun hc => hline.1 hc.symm
    simp [atBol, hnl, hc] at this

/-- The pattern `^r$`. -/
def whole (r : Regex) : Pattern := ⟨true, [.plain r], true, false⟩

/-- A pattern `^r$` matches exactly the texts of the language of `r`. -/
theorem regexec_whole {r : Regex} {s : Text} :
    ((whole r).regexec s).isSome ↔ s ∈ r.lang := by
  rw [regexec_of_bol rfl rfl, Option.isSome_iff_ne_none, ne_eq, here_eq_none]
  simp only [mem_matchesAt, whole, PartsMatch, not_forall, not_not]
  constructor
  · rintro ⟨_, u, _, ⟨w, hw, t, rfl, _, rfl⟩, he⟩
    have he' := he trivial
    cases t with
    | nil => simpa using hw
    | cons c t => simp [atEol] at he'
  · intro hs
    exact ⟨[], [], fun _ => rfl, ⟨s, hs, [], by simp, rfl, rfl⟩, fun _ => rfl⟩

/-- An unanchored expression matches exactly the texts that contain one of its texts. -/
theorem regexec_infix {r : Regex} {newline : Bool} {s : Text} :
    (regexec ⟨false, [.plain r], false, newline⟩ s).isSome ↔ ∃ w ∈ r.lang, w <:+: s := by
  constructor
  · intro h
    obtain ⟨caps, hcaps⟩ := Option.isSome_iff_exists.mp h
    obtain ⟨before, t, _, u, rfl, hm, _⟩ := search_mem hcaps
    obtain ⟨_, ⟨w, hw, rest, rfl, _⟩, _⟩ := mem_matchesAt.mp hm
    exact ⟨w, hw, before, rest, by simp⟩
  · rintro ⟨w, hw, before, rest, rfl⟩
    rw [List.append_assoc]
    have hmatch : ∀ prev, ([], rest) ∈
        matchesAt ⟨false, [.plain r], false, newline⟩ prev (w ++ rest) := by
      intro prev
      rw [mem_matchesAt]
      exact ⟨by simp, ⟨w, hw, rest, rfl, rfl, rfl⟩, by simp⟩
    exact search_isSome hmatch

end Pattern

end Posix
