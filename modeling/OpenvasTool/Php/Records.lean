import OpenvasTool.Alphabets
import OpenvasTool.Records

/-!
# Reading records with the patterns of the web page

The page cuts a file at the end marks and searches every piece with unanchored
patterns for a line `key="value"`. On rendered records the pieces are the records
and the search finds the value of the key.
-/

namespace OpenvasTool

open Posix Posix.Regex

/-! ### Patterns -/

/-- `/\nkey=\"(r)\"\n/`. There is at most one repetition in `r`, so the greedy match is the longest
one. -/
def pregPattern (key : Text) (r : Regex) : Pattern :=
  ⟨false, [.plain (lit ('\n' :: (key ++ "=\"".toList))), .group r, .plain (lit "\"\n".toList)],
    false, false⟩

/-- `preg_match` with this pattern: the text of its group. -/
def pregMatch (key : Text) (r : Regex) (content : Text) : Option Text :=
  ((pregPattern key r).regexec content).bind List.head?

/-- `.*`, which stays on its line. -/
def anyText : Regex := star (ncls (· == '\n'))

/-- `[0-9]+`. -/
def digits : Regex := plus digit

/-- `[0-9a-f]`. -/
def lowerHexDigit : Regex := cls fun c => c.isDigit || ('a' ≤ c && c ≤ 'f')

/-- `[0-9a-f]{8}-[0-9a-f]{4}-[0-9a-f]{4}-[0-9a-f]{4}-[0-9a-f]{12}`. -/
def lowerUuid : Regex :=
  seqs [times lowerHexDigit 8, chr '-', times lowerHexDigit 4, chr '-', times lowerHexDigit 4,
    chr '-', times lowerHexDigit 4, chr '-', times lowerHexDigit 12]

theorem over_anyText : anyText.Over (· ≠ '\n') := by
  rintro c hc rfl
  simp at hc

theorem mem_anyText {text : Text} (h : '\n' ∉ text) : text ∈ anyText.lang := by
  apply mem_lang_star_of_chars
  intro c hc
  have hne : c ≠ '\n' := fun heq => h (heq ▸ hc)
  exact mem_lang_ncls.mpr ⟨c, by simpa using hne, rfl⟩

theorem over_digits : digits.Over (· ≠ '\n') := by
  have hdigit : ∀ c : Char, c.isDigit = true → c ≠ '\n' := by
    rintro c hc rfl
    exact absurd hc (by decide)
  exact ⟨hdigit, hdigit⟩

theorem decimal_mem_digits (n : ℕ) : decimal n ∈ digits.lang := by
  have hdigit : ∀ c ∈ decimal n, c.isDigit = true := by
    intro c hc
    rw [decimal_natCast] at hc
    exact Nat.isDigit_of_mem_toDigits (by decide) (by decide) hc
  have hne : decimal n ≠ [] := by
    rw [decimal_natCast]
    exact Nat.toDigits_ne_nil
  obtain ⟨c, text, htext⟩ := List.exists_cons_of_ne_nil hne
  rw [htext] at hdigit ⊢
  have hfirst : [c] ∈ digit.lang := ⟨c, hdigit c (by simp), rfl⟩
  have hrest : text ∈ (star digit).lang :=
    mem_lang_star_of_chars fun d hd => ⟨d, hdigit d (by simp [hd]), rfl⟩
  exact mem_lang_seq.mpr ⟨[c], hfirst, text, hrest, rfl⟩

theorem over_lowerUuid : lowerUuid.Over (· ≠ '\n') := by
  have hhex : lowerHexDigit.Over (· ≠ '\n') := by
    rintro c hc rfl
    exact absurd hc (by decide)
  have hdash : (chr '-').Over (· ≠ '\n') := over_chr (by decide)
  exact ⟨hhex, hdash, hhex, hdash, hhex, hdash, hhex, hdash, hhex⟩

theorem nil_not_mem_lowerUuid : ([] : Text) ∉ lowerUuid.lang := by
  intro h
  have hno : lowerUuid.accepts [] = false := by decide +kernel
  rw [accepts_iff.mpr h] at hno
  simp at hno

/-- `preg_split` at the end marks; every piece but the last takes at least one byte. -/
def pregSplit : ℕ → Text → List Text
  | 0, ctx => [ctx]
  | fuel + 1, ctx =>
      match strstr taskInfoEndMark ctx with
      | none => [ctx]
      | some (before, rest) => before :: pregSplit fuel (rest.drop taskInfoEndMark.length)

/-! ### Lookup of a key -/

section Lookup

variable {key : Text} {r : Regex} {prev : Option Char} {s u rest : Text} {caps : List Text}

/-- What a match consists of. -/
theorem pregPattern_match (h : (caps, u) ∈ (pregPattern key r).matchesAt prev s) :
    ∃ val ∈ r.lang, caps = [val] ∧
      s = '\n' :: (key ++ '=' :: ('\x22' :: (val ++ '\x22' :: ('\n' :: u)))) := by
  obtain ⟨_, hparts, _⟩ := Pattern.mem_matchesAt.mp h
  obtain ⟨w, hw, t, rfl, val, hval, t', rest, rfl, rfl, w', hw', t'', rfl, rfl, rfl⟩ := hparts
  rw [mem_lang_lit] at hw hw'
  subst hw hw'
  exact ⟨val, hval, rfl, by simp⟩

/-- The search passes over everything in front of the next line break. -/
theorem search_skip_text {line : Text} (hline : '\n' ∉ line) (prev : Option Char) (rest : Text) :
    ∃ prev', (pregPattern key r).search prev (line ++ rest) =
      (pregPattern key r).search prev' rest := by
  induction line generalizing prev with
  | nil => exact ⟨prev, rfl⟩
  | cons c line ih =>
    simp only [List.mem_cons, not_or] at hline
    obtain ⟨prev', hprev⟩ := ih hline.2 (some c)
    refine ⟨prev', ?_⟩
    rw [List.cons_append, Pattern.search_cons, hprev]
    rw [Pattern.here_eq_none]
    intro caps u h
    obtain ⟨_, _, _, heq⟩ := pregPattern_match h
    exact hline.1 (List.cons.inj heq).1.symm

/-- The line `key="value"` behind a line break. -/
theorem newline_keyLine (key val rest : Text) :
    '\n' :: (keyLine key val ++ rest) =
      '\n' :: (key ++ '=' :: ('\x22' :: (val ++ '\x22' :: ('\n' :: rest)))) := by
  simp [keyLine_eq]

/-- A value ends at the last quote of its line. -/
theorem value_inj {a b x y : Text} (ha : '\n' ∉ a) (hb : '\n' ∉ b)
    (h : a ++ '\x22' :: ('\n' :: x) = b ++ '\x22' :: ('\n' :: y)) : a = b := by
  have hlines : (a ++ ['\x22']) ++ '\n' :: x = (b ++ ['\x22']) ++ '\n' :: y := by simpa using h
  exact List.append_cancel_right
    (append_delim_inj (by simp [ha]) (by simp [hb]) hlines).1

/-- A match on the line of a field is about its key and its value. -/
theorem pregPattern_match_field {f : Text × Text} (hf : CleanField f) (hkey : '=' ∉ key)
    (hover : r.Over (· ≠ '\n'))
    (h : (caps, u) ∈ (pregPattern key r).matchesAt prev ('\n' :: (keyLine f.1 f.2 ++ rest))) :
    f.1 = key ∧ f.2 ∈ r.lang ∧ caps = [f.2] := by
  obtain ⟨val, hval, rfl, heq⟩ := pregPattern_match h
  rw [newline_keyLine] at heq
  obtain ⟨hname, hrest⟩ := append_delim_inj hf.key_eq_free hkey (List.cons.inj heq).2
  have hclean : '\n' ∉ val := fun hnl => hover.all_mem hval _ hnl rfl
  obtain rfl := value_inj hf.val_newline_free hclean (List.cons.inj hrest).2
  exact ⟨hname, hval, rfl⟩

/-- The search passes over a line with another key or a value that does not match. -/
theorem search_skip_field {f : Text × Text} (hf : CleanField f) (hkey : '=' ∉ key)
    (hover : r.Over (· ≠ '\n')) (hother : f.1 = key → f.2 ∉ r.lang) (prev : Option Char)
    (rest : Text) :
    ∃ prev', (pregPattern key r).search prev ('\n' :: (keyLine f.1 f.2 ++ rest)) =
      (pregPattern key r).search prev' ('\n' :: rest) := by
  have hline : keyLine f.1 f.2 ++ rest =
      (f.1 ++ '=' :: ('\x22' :: (f.2 ++ ['\x22']))) ++ '\n' :: rest := by simp [keyLine_eq]
  have hfree : '\n' ∉ f.1 ++ '=' :: ('\x22' :: (f.2 ++ ['\x22'])) := by
    simp [hf.key_newline_free, hf.val_newline_free]
  rw [Pattern.search_cons, hline]
  · exact search_skip_text hfree _ _
  · rw [Pattern.here_eq_none]
    intro caps u h
    obtain ⟨hname, hval, _⟩ := pregPattern_match_field hf hkey hover h
    exact hother hname hval

/-- The search finds the value on the line of its key. -/
theorem search_field {f : Text × Text} (hf : CleanField f) (hkey : '=' ∉ f.1)
    (hover : r.Over (· ≠ '\n')) (hval : f.2 ∈ r.lang) (prev : Option Char) (rest : Text) :
    (pregPattern f.1 r).search prev ('\n' :: (keyLine f.1 f.2 ++ rest)) = some [f.2] := by
  apply Pattern.search_of_here
  refine Pattern.here_eq_some (u := rest) ?_ fun caps' u' h =>
    (pregPattern_match_field hf hkey hover h).2.2
  rw [newline_keyLine, Pattern.mem_matchesAt]
  refine ⟨by simp [pregPattern], ⟨'\n' :: (f.1 ++ "=\"".toList), by simp,
    f.2 ++ '\x22' :: ('\n' :: rest), by simp, f.2, hval, '\x22' :: ('\n' :: rest), [], rfl, rfl,
    "\"\n".toList, by simp, rest, rfl, rfl, rfl⟩, by simp [pregPattern]⟩

/-- The lookup of a key in rendered fields gives the first value of this key that matches, and
otherwise goes on behind them. -/
theorem search_fields {fields : List (Text × Text)} (hclean : ∀ f ∈ fields, CleanField f)
    (hkey : '=' ∉ key) (hover : r.Over (· ≠ '\n')) (prev : Option Char) (rest : Text) :
    ∃ prev', (pregPattern key r).search prev ('\n' :: (keyLines fields ++ rest)) =
      match fields.find? fun f => f.1 == key && r.accepts f.2 with
      | some f => some [f.2]
      | none => (pregPattern key r).search prev' ('\n' :: rest) := by
  induction fields generalizing prev with
  | nil => exact ⟨prev, rfl⟩
  | cons f fields ih =>
    have hf := hclean f (by simp)
    rw [keyLines_cons, List.append_assoc]
    by_cases hfound : (f.1 == key && r.accepts f.2) = true
    · rw [List.find?_cons_of_pos (by simpa using hfound)]
      simp only [Bool.and_eq_true, beq_iff_eq, accepts_iff] at hfound
      obtain ⟨rfl, hval⟩ := hfound
      exact ⟨prev, search_field hf hkey hover hval prev _⟩
    · rw [List.find?_cons_of_neg (by simpa using hfound)]
      have hother : f.1 = key → f.2 ∉ r.lang := by
        intro hname hval
        simp [hname, accepts_iff.mpr hval] at hfound
      obtain ⟨prev1, hskip⟩ := search_skip_field hf hkey hover hother prev (keyLines fields ++ rest)
      obtain ⟨prev2, hrest⟩ := ih (fun g hg => hclean g (by simp [hg])) prev1
      exact ⟨prev2, hskip.trans hrest⟩

end Lookup

/-- With distinct keys the only candidate is the field of the key. -/
theorem find?_field {fields : List (Text × Text)} {key val : Text}
    (hnodup : (fields.map Prod.fst).Nodup) (hlookup : fields.lookup key = some val)
    (p : Text → Bool) : (fields.find? fun f => f.1 == key && p f.2) =
      if p val then some (key, val) else none := by
  induction fields with
  | nil => simp at hlookup
  | cons f fields ih =>
    rw [List.map_cons, List.nodup_cons] at hnodup
    rw [List.lookup_cons] at hlookup
    by_cases hf : key = f.1
    · subst hf
      obtain rfl : f.2 = val := by simpa using hlookup
      have hrest : (fields.find? fun g => g.1 == f.1 && p g.2) = none := by
        rw [List.find?_eq_none]
        intro g hg heq
        simp only [Bool.and_eq_true, beq_iff_eq] at heq
        exact hnodup.1 (heq.1 ▸ List.mem_map_of_mem hg)
      by_cases hp : p f.2 = true
      · simp [hp]
      · simp [hp, hrest]
    · have hne : (key == f.1) = false := by simpa using hf
      have hbeq : (f.1 == key) = false := by simpa using Ne.symm hf
      rw [List.find?_cons_of_neg (by simp [hbeq])]
      exact ih hnodup.2 (by simpa [hne] using hlookup)

theorem mem_of_lookup {fields : List (Text × Text)} {key val : Text}
    (h : fields.lookup key = some val) : (key, val) ∈ fields := by
  induction fields with
  | nil => simp at h
  | cons f fields ih =>
    rw [List.lookup_cons] at h
    split at h
    · rename_i hkey
      obtain rfl : key = f.1 := by simpa using hkey
      obtain rfl := Option.some.inj h
      exact List.mem_cons_self
    · exact List.mem_cons_of_mem _ (ih h)

/-! ### Pieces -/

/-- The piece of a record, with what follows its lines. -/
def recordPiece (fields : List (Text × Text)) (rest : Text) : Text :=
  taskInfoBegMark ++ (keyLines fields ++ rest)

/-- The begin mark without its last line break. -/
def begMarkLine : Text := "==========begin========".toList

theorem recordPiece_eq (fields : List (Text × Text)) (rest : Text) :
    recordPiece fields rest = '\n' :: (begMarkLine ++ '\n' :: (keyLines fields ++ rest)) := rfl

section Pieces

variable {fields : List (Text × Text)} {key : Text} {r : Regex} {rest : Text}

/-- The search passes over the begin mark. -/
theorem search_recordPiece (hne : key ≠ []) (hkey : '=' ∉ key) (fields : List (Text × Text))
    (rest : Text) : ∃ prev, (pregPattern key r).regexec (recordPiece fields rest) =
      (pregPattern key r).search prev ('\n' :: (keyLines fields ++ rest)) := by
  rw [Pattern.regexec, recordPiece_eq, Pattern.search_cons]
  · exact search_skip_text (by decide) _ _
  · rw [Pattern.here_eq_none]
    intro caps u h
    obtain ⟨val, _, _, heq⟩ := pregPattern_match h
    obtain ⟨c, key, rfl⟩ := List.exists_cons_of_ne_nil hne
    have hc : '=' = c := (List.cons.inj (List.cons.inj heq).2).1
    exact hkey (hc ▸ List.mem_cons_self)

/-- A key is read with its first value that matches. -/
theorem pregMatch_recordPiece (hclean : ∀ f ∈ fields, CleanField f) (hne : key ≠ [])
    (hkey : '=' ∉ key) (hover : r.Over (· ≠ '\n')) {f : Text × Text}
    (hfind : (fields.find? fun f => f.1 == key && r.accepts f.2) = some f) (rest : Text) :
    pregMatch key r (recordPiece fields rest) = some f.2 := by
  obtain ⟨prev, hprev⟩ := search_recordPiece (r := r) hne hkey fields rest
  obtain ⟨prev', hsearch⟩ := search_fields hclean hkey hover prev rest
  rw [hfind] at hsearch
  rw [pregMatch, hprev, hsearch]
  rfl

/-- A key without a value that matches is not found. -/
theorem pregMatch_recordPiece_none (hclean : ∀ f ∈ fields, CleanField f) (hne : key ≠ [])
    (hkey : '=' ∉ key) (hover : r.Over (· ≠ '\n'))
    (hfind : (fields.find? fun f => f.1 == key && r.accepts f.2) = none) :
    pregMatch key r (recordPiece fields []) = none := by
  obtain ⟨prev, hprev⟩ := search_recordPiece (r := r) hne hkey fields []
  obtain ⟨prev', hsearch⟩ := search_fields hclean hkey hover prev []
  rw [hfind] at hsearch
  have hshort : ∀ (p : Option Char) (s : Text), s.length ≤ 1 → (pregPattern key r).here p s = none := by
    intro p s hs
    rw [Pattern.here_eq_none]
    intro caps u h
    obtain ⟨val, _, _, rfl⟩ := pregPattern_match h
    simp at hs
  have hend : (pregPattern key r).search prev' ['\n'] = none := by
    rw [Pattern.search_cons (hshort _ _ (by simp))]
    exact hshort _ [] (by simp)
  rw [pregMatch, hprev, hsearch]
  simp [hend]

/-- The value of a key is read back if it matches. -/
theorem pregMatch_of_lookup (hclean : ∀ f ∈ fields, CleanField f)
    (hnodup : (fields.map Prod.fst).Nodup) (hover : r.Over (· ≠ '\n')) {val : Text}
    (hlookup : fields.lookup key = some val) (hval : val ∈ r.lang) (rest : Text) :
    pregMatch key r (recordPiece fields rest) = some val := by
  have hf := hclean _ (mem_of_lookup hlookup)
  have hfind := find?_field hnodup hlookup r.accepts
  rw [if_pos (accepts_iff.mpr hval)] at hfind
  exact pregMatch_recordPiece hclean hf.key_ne_nil hf.key_eq_free hover hfind rest

/-- A value that does not match is not read. -/
theorem pregMatch_of_lookup_none (hclean : ∀ f ∈ fields, CleanField f)
    (hnodup : (fields.map Prod.fst).Nodup) (hover : r.Over (· ≠ '\n')) {val : Text}
    (hlookup : fields.lookup key = some val) (hval : val ∉ r.lang) :
    pregMatch key r (recordPiece fields []) = none := by
  have hf := hclean _ (mem_of_lookup hlookup)
  have hfind := find?_field hnodup hlookup r.accepts
  rw [if_neg (mt accepts_iff.mp hval)] at hfind
  exact pregMatch_recordPiece_none hclean hf.key_ne_nil hf.key_eq_free hover hfind

theorem head?_keyLines (hclean : ∀ f ∈ fields, CleanField f) :
    (keyLines fields).head? ≠ some '=' := by
  cases fields with
  | nil => simp [keyLines]
  | cons f fields =>
    have hf := hclean f (by simp)
    obtain ⟨c, key, hkey⟩ := List.exists_cons_of_ne_nil hf.key_ne_nil
    have hne := hf.key_eq_free
    simp only [hkey, List.mem_cons, not_or] at hne
    simpa [keyLines_cons, keyLine_eq, hkey] using fun heq => hne.1 heq.symm

/-- No end mark begins in front of the end of a record. -/
theorem no_endMark_recordPiece (hclean : ∀ f ∈ fields, CleanField f)
    (hrest : rest.head? ≠ some '=') :
    ∀ x y, recordPiece fields [] = x ++ y → y ≠ [] → ¬ taskInfoEndMark <+: y ++ rest := by
  have hbody : MarkFree ('\n' :: keyLines fields) := by
    intro x y h
    cases x with
    | nil =>
      obtain rfl := (List.cons.inj h).2
      exact head?_keyLines hclean
    | cons c x => exact markFree_keyLines hclean x y (List.cons.inj h).2
  intro x y h hy
  have hsplit : ('\n' :: begMarkLine) ++ ('\n' :: keyLines fields) = x ++ y := by
    rw [← h, recordPiece_eq, List.append_nil]
    rfl
  rcases List.append_eq_append_iff.mp hsplit with ⟨z, -, hz⟩ | ⟨z, hz, rfl⟩
  · exact hbody.no_endMark hrest z y hz hy
  · intro hpre
    cases z with
    | nil => exact hbody.no_endMark hrest [] _ rfl (by simp) hpre
    | cons c z =>
      cases x with
      | nil =>
        -- the two marks differ behind their first characters
        obtain ⟨t, ht⟩ := hpre
        have hcut := congrArg (List.take 12) ht
        rw [← List.nil_append (c :: z), ← hz, List.append_assoc,
          List.take_append_of_le_length (by decide), List.take_append_of_le_length (by decide)]
          at hcut
        exact absurd hcut (by decide)
      | cons d x =>
        -- the text begins inside the line of the begin mark
        have hc : c ∈ begMarkLine := by
          rw [(List.cons.inj hz).2]
          simp
        have hmark : taskInfoEndMark = '\n' :: taskInfoEndMark.tail := rfl
        rw [hmark, List.cons_append, List.cons_append, List.cons_prefix_cons] at hpre
        rw [← hpre.1] at hc
        exact absurd hc (by decide)

/-- The end mark of a record is found where it was written. -/
theorem strstr_recordPiece (hclean : ∀ f ∈ fields, CleanField f) (rest : Text) :
    strstr taskInfoEndMark (renderRecord fields ++ rest) =
      some (recordPiece fields [], taskInfoEndMark ++ rest) := by
  have htext : renderRecord fields ++ rest =
      recordPiece fields [] ++ (taskInfoEndMark ++ rest) := by
    simp [renderRecord, recordPiece]
  rw [htext]
  exact strstr_append (List.prefix_append _ _)
    (no_endMark_recordPiece hclean (show some '\n' ≠ some '=' by decide))

/-- A record whose end mark is cut off is one piece. -/
theorem strstr_recordPiece_none (hclean : ∀ f ∈ fields, CleanField f)
    (hrest : rest.head? ≠ some '=') (hnone : strstr taskInfoEndMark rest = none) :
    strstr taskInfoEndMark (recordPiece fields rest) = none := by
  have htext : recordPiece fields rest = recordPiece fields [] ++ rest := by simp [recordPiece]
  rw [htext, strstr_skip (no_endMark_recordPiece hclean hrest), hnone]
  rfl

end Pieces

/-- The pieces of a list of rendered records, and of what follows them. -/
theorem pregSplit_records (recs : List (List (Text × Text)))
    (hclean : ∀ fields ∈ recs, ∀ f ∈ fields, CleanField f) (fuel : ℕ) (rest : Text) :
    pregSplit (recs.length + fuel) (recs.flatMap renderRecord ++ rest) =
      recs.map (recordPiece · []) ++ pregSplit fuel rest := by
  induction recs with
  | nil => simp
  | cons fields recs ih =>
    have hfuel : (fields :: recs).length + fuel = (recs.length + fuel) + 1 := by
      rw [List.length_cons]
      omega
    rw [hfuel, List.flatMap_cons, List.append_assoc, pregSplit,
      strstr_recordPiece (hclean fields (by simp))]
    simp only [List.drop_left]
    rw [ih fun fields hfields => hclean fields (by simp [hfields])]
    rfl

theorem pregSplit_nil (fuel : ℕ) : pregSplit fuel [] = [[]] := by
  cases fuel <;> rfl

/-- A record whose end mark lost its line break is one piece. -/
theorem pregSplit_cut {fields : List (Text × Text)} (hclean : ∀ f ∈ fields, CleanField f)
    (fuel : ℕ) : pregSplit fuel ((renderRecord fields).dropLast ++ ['\x00']) =
      [recordPiece fields (taskInfoEndMark.dropLast ++ ['\x00'])] := by
  have htext : (renderRecord fields).dropLast ++ ['\x00'] =
      recordPiece fields (taskInfoEndMark.dropLast ++ ['\x00']) := by
    have hmark : taskInfoEndMark ≠ [] := by decide
    rw [renderRecord, List.dropLast_append_of_ne_nil hmark]
    simp [recordPiece]
  rw [htext]
  cases fuel with
  | zero => rfl
  | succ fuel => rw [pregSplit, strstr_recordPiece_none hclean (by decide) (by decide)]

theorem pregMatch_nil (key : Text) (r : Regex) : pregMatch key r [] = none := by
  have hnone : (pregPattern key r).here none [] = none := by
    rw [Pattern.here_eq_none]
    intro caps u h
    obtain ⟨val, _, _, heq⟩ := pregPattern_match h
    simp at heq
  rw [pregMatch, Pattern.regexec, Pattern.search, hnone]
  rfl

/-! ### Texts that fill the buffer -/

/-- What is rendered are all records, where a last one that fills the buffer ends with a NUL. -/
theorem foldlM_writeRecord_cases {capacity : ℕ} {recs : List Text} {buf content : Text}
    (h : recs.foldlM (writeRecord capacity) buf = some content) :
    content = buf ++ recs.flatten ∨ ∃ init last, recs = init ++ [last] ∧
      content = buf ++ init.flatten ++ (last.dropLast ++ ['\x00']) := by
  induction recs generalizing buf with
  | nil =>
    obtain rfl := Option.some.inj h
    exact .inl (by simp)
  | cons r recs ih =>
    rw [List.foldlM_cons] at h
    obtain ⟨mid, hmid, h⟩ := Option.bind_eq_some_iff.mp h
    have hleft := left_of_writeRecord hmid
    obtain ⟨-, ⟨-, rfl⟩ | ⟨hfull, rfl⟩⟩ := writeRecord_eq_some.mp hmid
    · rcases ih h with rfl | ⟨init, last, rfl, rfl⟩
      · exact .inl (by simp)
      · exact .inr ⟨r :: init, last, by simp, by simp⟩
    · -- nothing is left, so this was the last record
      have hlast : recs = [] := by
        by_contra hrecs
        have hle := flatten_length_le_left hrecs h
        cases recs with
        | nil => exact hrecs rfl
        | cons next recs =>
          rw [List.foldlM_cons] at h
          obtain ⟨_, hnext, _⟩ := Option.bind_eq_some_iff.mp h
          have hpos := (writeRecord_eq_some.mp hnext).1
          rw [List.flatten_cons, List.length_append] at hle
          omega
      subst hlast
      obtain rfl := Option.some.inj h
      exact .inr ⟨[], r, rfl, by simp⟩

/-- The pieces of rendered records are the records, and perhaps an empty piece. -/
theorem pieces_writeRecords {recs : List (List (Text × Text))}
    (hclean : ∀ fields ∈ recs, ∀ f ∈ fields, CleanField f) {capacity : ℕ} {text : Text}
    (hwrite : (recs.map renderRecord).foldlM (writeRecord capacity) [] = some text) :
    ∃ pieces tail, pregSplit text.length text = pieces ++ tail ∧ (tail = [] ∨ tail = [[]]) ∧
      List.Forall₂ (fun fields piece => ∃ rest, piece = recordPiece fields rest) recs pieces := by
  have hpieces : ∀ rs : List (List (Text × Text)),
      List.Forall₂ (fun fields piece => ∃ rest, piece = recordPiece fields rest) rs
        (rs.map (recordPiece · [])) := by
    intro rs
    induction rs with
    | nil => exact .nil
    | cons r rs ih => exact .cons ⟨[], rfl⟩ ih
  rcases foldlM_writeRecord_cases hwrite with rfl | ⟨init, last, hrecs, rfl⟩
  · -- the text has room behind it
    have hle := length_le_renderRecords recs
    rw [List.nil_append, ← List.flatMap_def]
    obtain ⟨n, hn⟩ := Nat.exists_eq_add_of_le hle
    have hsplit := pregSplit_records recs hclean n []
    rw [List.append_nil, ← hn, pregSplit_nil] at hsplit
    exact ⟨_, [[]], hsplit, .inr rfl, hpieces recs⟩
  · -- the last record fills the buffer
    obtain ⟨front, r, rfl⟩ : ∃ front r, recs = front ++ [r] := by
      have hne : recs ≠ [] := by
        rintro rfl
        simp at hrecs
      exact ⟨recs.dropLast, recs.getLast hne, (List.dropLast_append_getLast hne).symm⟩
    rw [List.map_append, List.map_singleton] at hrecs
    obtain ⟨rfl, hlast⟩ := List.append_inj' hrecs rfl
    obtain rfl := (List.cons.inj hlast).1
    have hle := length_le_renderRecords front
    rw [List.nil_append, ← List.flatMap_def]
    have hlen : front.length ≤
        (front.flatMap renderRecord ++ ((renderRecord r).dropLast ++ ['\x00'])).length := by
      rw [List.length_append]
      omega
    obtain ⟨n, hn⟩ := Nat.exists_eq_add_of_le hlen
    have hsplit := pregSplit_records front (fun fields hf => hclean fields (List.mem_append_left _ hf))
      n ((renderRecord r).dropLast ++ ['\x00'])
    rw [← hn, pregSplit_cut (hclean r (by simp))] at hsplit
    refine ⟨_, [], by rw [hsplit, List.append_nil], .inl rfl, ?_⟩
    exact List.rel_append (hpieces front) (.cons ⟨_, rfl⟩ .nil)

/-! ### Tables -/

/-- A key that the table does not have. -/
theorem not_any_of_notMem {E : Type*} {data : List (Text × E)} {key : Text}
    (hkey : key ∉ data.map Prod.fst) : ¬ data.any (·.1 == key) = true := by
  intro hany
  obtain ⟨e, he, heq⟩ := List.any_eq_true.mp hany
  exact hkey (List.mem_map.mpr ⟨e, he, by simpa using heq⟩)

/-- A loop over the pieces in which each record with a new key adds an entry: **all records** add
their entries. -/
theorem foldl_records {T V E : Type*} {step : V × List (Text × E) → Text → V × List (Text × E)}
    {fields : T → List (Text × Text)} {key : T → Text} {vars : T → V} {entry : T → E} {ts : List T}
    {pieces : List Text}
    (hpieces : List.Forall₂ (fun t piece => ∃ rest, piece = recordPiece (fields t) rest) ts pieces)
    (hstep : ∀ t ∈ ts, ∀ v data rest, key t ∉ data.map Prod.fst →
      step (v, data) (recordPiece (fields t) rest) = (vars t, data ++ [(key t, entry t)]))
    (hkeys : ts.Pairwise fun t u => key t ≠ key u) (v : V) {data : List (Text × E)}
    (hnew : ∀ t ∈ ts, key t ∉ data.map Prod.fst) :
    ∃ v', pieces.foldl step (v, data) = (v', data ++ ts.map fun t => (key t, entry t)) := by
  induction hpieces generalizing v data with
  | nil => exact ⟨v, by simp⟩
  | @cons t piece ts pieces hpiece _ ih =>
    obtain ⟨rest, rfl⟩ := hpiece
    rw [List.pairwise_cons] at hkeys
    have hnext : ∀ u ∈ ts, key u ∉ (data ++ [(key t, entry t)]).map Prod.fst := by
      intro u hu hmem
      rw [List.map_append, List.mem_append] at hmem
      rcases hmem with hmem | hmem
      · exact hnew u (by simp [hu]) hmem
      · have hsame : key u = key t := by simpa using hmem
        exact hkeys.1 u hu hsame.symm
    rw [List.foldl_cons, hstep t (by simp) v data rest (hnew t (by simp))]
    obtain ⟨v', hv⟩ := ih (fun u hu => hstep u (by simp [hu])) hkeys.2 (vars t) hnext
    exact ⟨v', by rw [hv]; simp⟩

end OpenvasTool
