import OpenvasTool.CommMisc
import OpenvasTool.TaskOpenvas

/-!
# Reading back rendered records

The lookup of a key in a rendered record finds the value of its line, and the
marks of a record are found where they were written. The task files, the status
files and the hydra task file are all instances.
-/

namespace OpenvasTool

open Posix Posix.Regex

/-- A key and a value that stay on their line. -/
structure CleanField (f : Text × Text) : Prop where
  key_ne_nil : f.1 ≠ []
  key_eq_free : '=' ∉ f.1
  key_newline_free : '\n' ∉ f.1
  val_newline_free : '\n' ∉ f.2

/-- Fields are clean when their keys and their values are. -/
theorem cleanField_of_keys {fields : List (Text × Text)}
    (hkeys : ∀ key ∈ fields.map Prod.fst, key ≠ [] ∧ '=' ∉ key ∧ '\n' ∉ key)
    (hvals : ∀ val ∈ fields.map Prod.snd, '\n' ∉ val) : ∀ f ∈ fields, CleanField f := by
  intro f hf
  obtain ⟨hne, heq, hnl⟩ := hkeys f.1 (List.mem_map_of_mem hf)
  exact ⟨hne, heq, hnl, hvals f.2 (List.mem_map_of_mem hf)⟩

/-- The character before a position is a line break, or there is none. -/
def AtLineStart (prev : Option Char) : Prop := atBol true prev = true

theorem atLineStart_none : AtLineStart none := rfl

theorem atLineStart_newline : AtLineStart (some '\n') := rfl

theorem keyLine_eq (key val : Text) :
    keyLine key val = key ++ '=' :: ('\x22' :: (val ++ ['\x22'])) ++ ['\n'] := by
  simp [keyLine]

theorem keyLines_cons (f : Text × Text) (fields : List (Text × Text)) :
    keyLines (f :: fields) = keyLine f.1 f.2 ++ keyLines fields := rfl

theorem keyLines_append (fields fields' : List (Text × Text)) :
    keyLines (fields ++ fields') = keyLines fields ++ keyLines fields' := List.flatMap_append

/-! ### Lookup of a key -/

/-- What a match of a key pattern at a position consists of. -/
theorem keyPattern_match {key : Text} {r : Regex} {prev : Option Char} {s u : Text}
    {caps : List Text} (h : (caps, u) ∈ (keyPattern key r).matchesAt prev s) :
    ∃ val ∈ r.regNewline.lang, caps = [val] ∧
      s = key ++ '=' :: ('\x22' :: (val ++ '\x22' :: u)) ∧ atEol true u = true := by
  obtain ⟨_, hparts, heol⟩ := Pattern.mem_matchesAt.mp h
  obtain ⟨w, hw, t, rfl, val, hval, t', rest, rfl, rfl, w', hw', t'', rfl, rfl, rfl⟩ := hparts
  rw [mem_lang_lit] at hw hw'
  subst hw hw'
  exact ⟨val, hval, rfl, by simp, heol rfl⟩

/-- The search for a key passes over the line of another key. -/
theorem search_skip_line {key : Text} {r : Regex} {prev : Option Char} {f : Text × Text}
    (hf : CleanField f) (hkey : '=' ∉ key) (hne : f.1 ≠ key) (rest : Text) :
    (keyPattern key r).search prev (keyLine f.1 f.2 ++ rest) =
      (keyPattern key r).search (some '\n') rest := by
  have hline : keyLine f.1 f.2 ++ rest =
      (f.1 ++ '=' :: ('\x22' :: (f.2 ++ ['\x22']))) ++ '\n' :: rest := by
    simp [keyLine_eq]
  rw [hline]
  apply Pattern.search_next_line rfl rfl
  · simp [hf.key_newline_free, hf.val_newline_free]
  · rw [Pattern.here_eq_none]
    intro caps u hm
    obtain ⟨val, _, _, hs, _⟩ := keyPattern_match hm
    rw [List.append_assoc, List.cons_append] at hs
    exact hne (append_delim_inj hf.key_eq_free hkey hs).1

/-- The search for a key finds the value of its line, when the expression excludes the quote. -/
theorem search_key_line {key val : Text} {r : Regex} {prev : Option Char}
    (hprev : AtLineStart prev) (hquote : r.Over (· ≠ '\x22')) (hval : val ∈ r.lang)
    (hnl : '\n' ∉ val) (rest : Text) :
    (keyPattern key r).search prev (keyLine key val ++ rest) = some [val] := by
  have hfree : ∀ w ∈ r.lang, '\x22' ∉ w := fun w hw hmem => hquote.all_mem hw _ hmem rfl
  have hline : keyLine key val ++ rest =
      key ++ '=' :: ('\x22' :: (val ++ '\x22' :: ('\n' :: rest))) := by
    simp [keyLine_eq]
  apply Pattern.search_of_here
  rw [hline]
  refine Pattern.here_eq_some (u := '\n' :: rest) ?_ ?_
  · rw [Pattern.mem_matchesAt]
    refine ⟨fun _ => hprev, ⟨key ++ "=\"".toList, by simp, val ++ '\x22' :: ('\n' :: rest),
      by simp, val, mem_lang_regNewline hval hnl, '\x22' :: ('\n' :: rest), [], rfl, rfl,
      "\"".toList, by simp, '\n' :: rest, rfl, rfl, rfl⟩, fun _ => rfl⟩
  · intro caps' u' hm
    obtain ⟨val', hval', rfl, hs, _⟩ := keyPattern_match hm
    have hs' : val ++ '\x22' :: ('\n' :: rest) = val' ++ '\x22' :: u' := by
      have hcancel := List.append_cancel_left hs
      simpa using hcancel
    rw [(append_delim_inj (hfree _ hval) (hfree _ (lang_regNewline_subset hval')) hs').1]

/-- The lookup of a key in rendered fields gives the first value of that key. -/
theorem search_keyLines {fields : List (Text × Text)} {key val : Text} {r : Regex}
    {prev : Option Char} (hprev : AtLineStart prev) (hclean : ∀ f ∈ fields, CleanField f)
    (hkey : '=' ∉ key) (hlookup : fields.lookup key = some val) (hquote : r.Over (· ≠ '\x22'))
    (hval : val ∈ r.lang) (rest : Text) :
    (keyPattern key r).search prev (keyLines fields ++ rest) = some [val] := by
  induction fields generalizing prev with
  | nil => simp at hlookup
  | cons f fields ih =>
    have hf := hclean f (by simp)
    have hcons : (f :: fields).lookup key =
        match key == f.1 with
        | true => some f.2
        | false => fields.lookup key := List.lookup_cons
    rw [hcons] at hlookup
    rw [keyLines_cons, List.append_assoc]
    by_cases heq : key = f.1
    · subst heq
      have hfv : f.2 = val := by simpa using hlookup
      subst hfv
      exact search_key_line hprev hquote hval hf.val_newline_free _
    · have hbeq : (key == f.1) = false := by simpa using heq
      rw [search_skip_line hf hkey (Ne.symm heq)]
      exact ih atLineStart_newline (fun g hg => hclean g (by simp [hg]))
        (by simpa [hbeq] using hlookup)

/-- `getPatternKey` reads a rendered value back. -/
theorem getPatternKey_keyLines {fields : List (Text × Text)} {key val : Text} {r : Regex} {n : ℕ}
    (hclean : ∀ f ∈ fields, CleanField f) (hkey : '=' ∉ key)
    (hlookup : fields.lookup key = some val) (hquote : r.Over (· ≠ '\x22'))
    (hval : val ∈ r.lang) (rest : Text) :
    getPatternKey (keyLines fields ++ rest) key r n = CStr.ofText n val := by
  unfold getPatternKey Pattern.regexec
  rw [search_keyLines atLineStart_none hclean hkey hlookup hquote hval]

/-- `getPatternKeyInt` reads a rendered number back. -/
theorem getPatternKeyInt_keyLines {fields : List (Text × Text)} {key : Text} {r : Regex} {n : ℕ}
    (hclean : ∀ f ∈ fields, CleanField f) (hkey : '=' ∉ key)
    (hlookup : fields.lookup key = some (decimal n)) (hquote : r.Over (· ≠ '\x22'))
    (hval : decimal n ∈ r.lang) (hn : n < 1000) (rest : Text) :
    getPatternKeyInt (keyLines fields ++ rest) key r = some (n : ℤ) := by
  have hlen : (decimal n).length < maxCommMinSize := by
    rw [decimal_natCast]
    have := (Nat.length_toDigits_le_iff (b := 10) (n := n) (k := 3) (by decide) (by decide)).mpr
      (by omega)
    simp only [maxCommMinSize]
    omega
  have hnul := nul_not_mem_decimal n
  obtain ⟨buf, hbuf⟩ := Option.isSome_iff_exists.mp (CStr.ofText_isSome.mpr ⟨hlen, hnul⟩)
  have htext := CStr.ofText_eq_some.mp hbuf
  unfold getPatternKeyInt
  rw [getPatternKey_keyLines hclean hkey hlookup hquote hval, hbuf]
  dsimp only
  rw [htext]
  obtain ⟨c, t, ht⟩ := List.exists_cons_of_ne_nil (Nat.toDigits_ne_nil (n := n) (b := 10))
  have hdigit : c.isDigit = true :=
    Nat.isDigit_of_mem_toDigits (b := 10) (n := n) (by decide) (by decide) (by simp [ht])
  have hvalue := atoi_decimal (n := n) (by omega)
  rw [decimal_natCast, ht] at hvalue ⊢
  simp only [hdigit, if_true, hvalue]

/-! ### Marks -/

/-- Every line break of the text is followed by something that does not start a mark. -/
def MarkFree (s : Text) : Prop := ∀ x y, s = x ++ '\n' :: y → y.head? ≠ some '='

theorem markFree_keyLines {fields : List (Text × Text)} (hclean : ∀ f ∈ fields, CleanField f) :
    MarkFree (keyLines fields) := by
  induction fields with
  | nil =>
    intro x y h
    simp [keyLines] at h
  | cons f fields ih =>
    have hf := hclean f (by simp)
    have ih := ih fun g hg => hclean g (by simp [hg])
    have hline : keyLines (f :: fields) =
        (f.1 ++ '=' :: ('\x22' :: (f.2 ++ ['\x22']))) ++ '\n' :: keyLines fields := by
      simp [keyLines_cons, keyLine_eq]
    have hfree : '\n' ∉ f.1 ++ '=' :: ('\x22' :: (f.2 ++ ['\x22'])) := by
      simp [hf.key_newline_free, hf.val_newline_free]
    intro x y h
    rw [hline] at h
    by_cases hx : '\n' ∈ x
    · -- the line break lies in a later line
      obtain ⟨x1, x2, rfl, hx1⟩ := List.eq_append_cons_of_mem hx
      rw [List.append_assoc x1, List.cons_append] at h
      exact ih x2 y (append_delim_inj hfree hx1 h).2
    · obtain ⟨_, rfl⟩ := append_delim_inj hfree hx h
      cases fields with
      | nil => simp [keyLines]
      | cons g fields =>
        have hg := hclean g (by simp)
        obtain ⟨c, key, hkey⟩ := List.exists_cons_of_ne_nil hg.key_ne_nil
        have hne := hg.key_eq_free
        simp only [hkey, List.mem_cons, not_or] at hne
        simpa [keyLines_cons, keyLine_eq, hkey] using fun heq => hne.1 heq.symm

/-- No end mark begins inside a text without marks. -/
theorem MarkFree.no_endMark {body rest : Text} (h : MarkFree body)
    (hrest : rest.head? ≠ some '=') :
    ∀ x y, body = x ++ y → y ≠ [] → ¬ taskInfoEndMark <+: y ++ rest := by
  rintro x y rfl hy hpre
  obtain ⟨c, y', rfl⟩ := List.exists_cons_of_ne_nil hy
  have hmark : taskInfoEndMark = '\n' :: '=' :: "=========end==========\n".toList := rfl
  rw [hmark, List.cons_append, List.cons_prefix_cons] at hpre
  obtain ⟨rfl, hpre⟩ := hpre
  cases y' with
  | nil =>
    rw [List.nil_append] at hpre
    obtain ⟨t, rfl⟩ := hpre
    exact hrest rfl
  | cons d y' =>
    rw [List.cons_append, List.cons_prefix_cons] at hpre
    exact h x (d :: y') rfl (congrArg some hpre.1.symm)

/-- The end mark behind a text without marks is found where it was written. -/
theorem strstr_endMark {body : Text} (h : MarkFree body) (rest : Text) :
    strstr taskInfoEndMark (body ++ (taskInfoEndMark ++ rest)) =
      some (body, taskInfoEndMark ++ rest) :=
  strstr_append (List.prefix_append _ _)
    (h.no_endMark (show some '\n' ≠ some '=' by decide))

/-- The next record of a text that begins with a rendered record. -/
theorem nextRecord_renderRecord {fields : List (Text × Text)} (hclean : ∀ f ∈ fields, CleanField f)
    (rest : Text) : nextRecord (renderRecord fields ++ rest) = some (keyLines fields, rest) := by
  have htext : renderRecord fields ++ rest =
      taskInfoBegMark ++ (keyLines fields ++ (taskInfoEndMark ++ rest)) := by
    simp [renderRecord]
  unfold nextRecord
  rw [htext, strstr_self (List.prefix_append _ _)]
  simp only [List.drop_left, strstr_endMark (markFree_keyLines hclean)]

/-- The body of a record begins with its first fields, also when a later field holds a mark. -/
theorem nextRecord_prefix {fields : List (Text × Text)} (hclean : ∀ f ∈ fields, CleanField f)
    {rest body tail : Text} (hrest : rest.head? ≠ some '=')
    (h : nextRecord (taskInfoBegMark ++ (keyLines fields ++ rest)) = some (body, tail)) :
    ∃ x, body = keyLines fields ++ x := by
  unfold nextRecord at h
  rw [strstr_self (List.prefix_append _ _)] at h
  simp only [List.drop_left,
    strstr_skip ((markFree_keyLines hclean).no_endMark hrest)] at h
  split at h
  · simp at h
  · rename_i hfound
    obtain ⟨m, _, hm⟩ := Option.map_eq_some_iff.mp hfound
    simp only [Option.some.injEq, Prod.mk.injEq] at h hm
    exact ⟨m.1, by rw [← h.1, hm.1]⟩

theorem renderRecord_ne_nil (fields : List (Text × Text)) : renderRecord fields ≠ [] := by
  rw [renderRecord, List.append_assoc]
  exact List.append_ne_nil_of_left_ne_nil (by decide) _

/-- The bodies of several rendered records. -/
theorem recordsFrom_renderRecords {recs : List (List (Text × Text))}
    (hclean : ∀ fields ∈ recs, ∀ f ∈ fields, CleanField f) {fuel : ℕ}
    (hfuel : recs.length ≤ fuel) :
    recordsFrom fuel (recs.flatMap renderRecord) = recs.map keyLines := by
  induction recs generalizing fuel with
  | nil => cases fuel <;> rfl
  | cons fields recs ih =>
    obtain ⟨fuel, rfl⟩ : ∃ k, fuel = k + 1 := ⟨fuel - 1, by simp at hfuel; omega⟩
    have hfuel' : recs.length ≤ fuel := by simpa using hfuel
    have hih := ih (fun g hg => hclean g (by simp [hg])) hfuel'
    simp only [recordsFrom, List.flatMap_cons, List.map_cons,
      nextRecord_renderRecord (hclean fields (by simp)), hih]

theorem length_le_renderRecords (recs : List (List (Text × Text))) :
    recs.length ≤ (recs.flatMap renderRecord).length := by
  induction recs with
  | nil => simp
  | cons fields recs ih =>
    have hpos := List.length_pos_of_ne_nil (renderRecord_ne_nil fields)
    simp only [List.length_cons, List.flatMap_cons, List.length_append]
    omega

/-- A record of NUL-free keys and values has no NUL. -/
theorem nulFree_renderRecord {fields : List (Text × Text)}
    (hkeys : ∀ key ∈ fields.map Prod.fst, '\x00' ∉ key)
    (hvals : ∀ val ∈ fields.map Prod.snd, '\x00' ∉ val) : '\x00' ∉ renderRecord fields := by
  intro hin
  simp only [renderRecord, keyLines, List.mem_append, List.mem_flatMap, keyLine] at hin
  rcases hin with (hin | ⟨f, hf, hin⟩) | hin
  · exact absurd hin (by decide)
  · have h1 := hkeys f.1 (List.mem_map_of_mem hf)
    have h2 := hvals f.2 (List.mem_map_of_mem hf)
    simp [h1, h2] at hin
  · exact absurd hin (by decide)

/-- The bodies of the records of a file that was rendered. -/
theorem records_renderRecords {recs : List (List (Text × Text))}
    (hclean : ∀ fields ∈ recs, ∀ f ∈ fields, CleanField f)
    (hnul : ∀ fields ∈ recs, '\x00' ∉ renderRecord fields) :
    records (recs.flatMap renderRecord) = recs.map keyLines := by
  have hfree : '\x00' ∉ recs.flatMap renderRecord := by
    rw [List.mem_flatMap]
    rintro ⟨fields, hmem, hin⟩
    exact hnul fields hmem hin
  unfold records
  rw [cstring_of_nulFree hfree]
  exact recordsFrom_renderRecords hclean (length_le_renderRecords recs)

/-! ### Rendering into a buffer -/

/-- One record is appended as a whole, or without its last byte when it fills the buffer. -/
theorem writeRecord_eq_some {capacity : ℕ} {buf record out : Text} :
    writeRecord capacity buf record = some out ↔ 0 < record.length ∧
      (record.length < intOfSize (capacity - buf.length) ∧ out = buf ++ record ∨
        record.length = intOfSize (capacity - buf.length) ∧
          out = buf ++ (record.dropLast ++ ['\x00'])) := by
  unfold writeRecord
  dsimp only
  constructor
  · intro h
    split at h
    · rename_i hfit
      split at h
      · rename_i hfull
        refine ⟨hfit.1, .inr ⟨hfull, ?_⟩⟩
        rw [← Option.some.inj h, List.dropLast_eq_take, List.append_assoc]
      · rename_i hroom
        exact ⟨hfit.1, .inl ⟨lt_of_le_of_ne hfit.2 hroom, (Option.some.inj h).symm⟩⟩
    · simp at h
  · rintro ⟨hpos, ⟨hlt, rfl⟩ | ⟨heq, rfl⟩⟩
    · rw [if_pos ⟨hpos, hlt.le⟩, if_neg hlt.ne]
    · rw [if_pos ⟨hpos, heq.le⟩, if_pos heq, List.dropLast_eq_take, List.append_assoc]

/-- In both cases the buffer grows by the length of the record. -/
theorem length_of_writeRecord {capacity : ℕ} {buf record out : Text}
    (h : writeRecord capacity buf record = some out) :
    out.length = buf.length + record.length := by
  obtain ⟨hpos, ⟨-, rfl⟩ | ⟨-, rfl⟩⟩ := writeRecord_eq_some.mp h
  · rw [List.length_append]
  · simp only [List.length_append, List.length_dropLast, List.length_singleton]
    omega

/-- Records that leave room in the buffer are appended one after the other. -/
theorem foldlM_writeRecord {capacity : ℕ} {recs : List Text} {buf : Text}
    (hne : ∀ r ∈ recs, r ≠ [])
    (hroom : ((buf.length + recs.flatten.length : ℕ) : ℤ) < intOfSize capacity) :
    recs.foldlM (writeRecord capacity) buf = some (buf ++ recs.flatten) := by
  induction recs generalizing buf with
  | nil => simp
  | cons r recs ih =>
    simp only [List.flatten_cons, List.length_append] at hroom
    have hpos := List.length_pos_of_ne_nil (hne r (by simp))
    have hleft : intOfSize (capacity - buf.length) = intOfSize capacity - buf.length :=
      intOfSize_sub (by omega)
    have hone : writeRecord capacity buf r = some (buf ++ r) :=
      writeRecord_eq_some.mpr ⟨hpos, .inl ⟨by omega, rfl⟩⟩
    rw [List.foldlM_cons, hone, Option.bind_eq_bind, Option.bind_some,
      ih (fun s hs => hne s (by simp [hs])) (by simp only [List.length_append]; omega)]
    simp

/-- Whatever is rendered has the length of all records together. -/
theorem length_foldlM_writeRecord {capacity : ℕ} {recs : List Text} {buf content : Text}
    (h : recs.foldlM (writeRecord capacity) buf = some content) :
    content.length = buf.length + recs.flatten.length := by
  induction recs generalizing buf with
  | nil =>
    obtain rfl : buf = content := by simpa using h
    simp
  | cons r recs ih =>
    rw [List.foldlM_cons, Option.bind_eq_bind, Option.bind_eq_some_iff] at h
    obtain ⟨mid, hmid, h⟩ := h
    rw [ih h, length_of_writeRecord hmid, List.flatten_cons, List.length_append]
    omega

/-- What is left behind a record. -/
theorem left_of_writeRecord {capacity : ℕ} {buf record out : Text}
    (h : writeRecord capacity buf record = some out) :
    intOfSize (capacity - out.length) = intOfSize (capacity - buf.length) - record.length := by
  have hfit : (record.length : ℤ) ≤ intOfSize (capacity - buf.length) := by
    obtain ⟨-, ⟨hlt, -⟩ | ⟨heq, -⟩⟩ := writeRecord_eq_some.mp h
    · exact hlt.le
    · exact heq.le
  rw [length_of_writeRecord h, ← Nat.sub_sub, intOfSize_sub hfit]

/-- All records fit what is left of the buffer. -/
theorem flatten_length_le_left {capacity : ℕ} {recs : List Text} {buf content : Text}
    (hrecs : recs ≠ []) (h : recs.foldlM (writeRecord capacity) buf = some content) :
    recs.flatten.length ≤ intOfSize (capacity - buf.length) := by
  induction recs generalizing buf with
  | nil => exact absurd rfl hrecs
  | cons r recs ih =>
    rw [List.foldlM_cons, Option.bind_eq_bind, Option.bind_eq_some_iff] at h
    obtain ⟨mid, hmid, h⟩ := h
    have hleft := left_of_writeRecord hmid
    rw [List.flatten_cons, List.length_append]
    by_cases hlast : recs = []
    · subst hlast
      obtain ⟨-, ⟨hlt, -⟩ | ⟨heq, -⟩⟩ := writeRecord_eq_some.mp hmid
      · simpa using hlt.le
      · simpa using heq.le
    · have hrest := ih hlast h
      push_cast
      omega

/-- Records that fill the buffer to its last byte lose this byte to the terminating NUL. -/
theorem foldlM_writeRecord_full {capacity : ℕ} {recs : List Text} (hne : ∀ r ∈ recs, r ≠ [])
    (hrecs : recs ≠ []) (hfull : recs.flatten.length = intOfSize capacity) :
    recs.foldlM (writeRecord capacity) [] = some (recs.flatten.dropLast ++ ['\x00']) := by
  obtain ⟨init, last, rfl⟩ := (List.eq_nil_or_concat' recs).resolve_left hrecs
  have hlast : last ≠ [] := hne last (by simp)
  have hpos := List.length_pos_of_ne_nil hlast
  rw [List.flatten_append, List.flatten_singleton, List.length_append] at hfull
  have hinit : init.foldlM (writeRecord capacity) [] = some init.flatten := by
    apply foldlM_writeRecord fun r hr => hne r (by simp [hr])
    simp only [List.length_nil]
    omega
  have hleft : intOfSize (capacity - init.flatten.length) =
      intOfSize capacity - init.flatten.length := intOfSize_sub (by omega)
  have hstep : writeRecord capacity init.flatten last =
      some (init.flatten ++ (last.dropLast ++ ['\x00'])) :=
    writeRecord_eq_some.mpr ⟨hpos, .inr ⟨by omega, rfl⟩⟩
  rw [List.foldlM_append, hinit, Option.bind_eq_bind, Option.bind_some, List.flatten_append,
    List.flatten_singleton, List.dropLast_append_of_ne_nil hlast]
  simp [hstep]

/-- What is rendered is the text of all records, exactly unless they have as many bytes as the
buffer. -/
theorem foldlM_writeRecord_whole_iff {capacity : ℕ} {recs : List Text} (hne : ∀ r ∈ recs, r ≠ [])
    (hnul : '\x00' ∉ recs.flatten) :
    (∀ content, recs.foldlM (writeRecord capacity) [] = some content →
        content = recs.flatten ∧ '\x00' ∉ content) ↔
      (recs ≠ [] → (recs.flatten.length : ℤ) ≠ intOfSize capacity) := by
  constructor
  · intro hwhole hrecs hfull
    have hnul := (hwhole _ (foldlM_writeRecord_full hne hrecs hfull)).2
    apply hnul
    simp
  · intro hfree content hcontent
    by_cases hrecs : recs = []
    · subst hrecs
      obtain rfl : [] = content := by simpa using hcontent
      simp
    · have hle := flatten_length_le_left hrecs hcontent
      rw [List.length_nil, Nat.sub_zero] at hle
      have hroom : ((([] : Text).length + recs.flatten.length : ℕ) : ℤ) < intOfSize capacity := by
        rw [List.length_nil, Nat.zero_add]
        exact lt_of_le_of_ne hle (hfree hrecs)
      rw [foldlM_writeRecord hne hroom, Option.some.injEq, List.nil_append] at hcontent
      exact ⟨hcontent.symm, hcontent ▸ hnul⟩

end OpenvasTool
