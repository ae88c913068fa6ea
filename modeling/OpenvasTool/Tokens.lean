import OpenvasTool.CommMisc

/-!
# The token iterator

`getNextToken` of `comm_misc.c` as its callers use it: one call after the other, each writing
into a buffer of its own size and moving the save pointer forward. What the calls return is
compared with the text they go through. The position of the needle is converted to `int`, so a
token of 4 GiB or more could look like a short one; the texts of the program have at most 16 MiB.
-/

namespace OpenvasTool

open Posix

/-- What a caller keeps between two calls: its buffer, and the text still to be read. -/
structure TokenIter where
  buf : Text
  saveptr : Text
  deriving DecidableEq

/-- A buffer size: an `int` that is not negative. -/
abbrev BufSize := Fin (2 ^ 31)

/-- The conversion of a pointer difference to `int`. -/
def intOfDiff (diff : ℕ) : ℤ :=
  if diff % 2 ^ 32 < 2 ^ 31 then (diff % 2 ^ 32 : ℕ) else (diff % 2 ^ 32 : ℕ) - 2 ^ 32

theorem intOfDiff_fits (diff : ℕ) (maxlen : BufSize) :
    0 ≤ intOfDiff diff ∧ intOfDiff diff < (maxlen : ℕ) ↔ diff % 2 ^ 32 < maxlen := by
  have hmax := maxlen.isLt
  unfold intOfDiff
  split <;> omega

theorem intOfDiff_toNat {diff : ℕ} {maxlen : BufSize} (h : diff % 2 ^ 32 < maxlen) :
    (intOfDiff diff).toNat = diff % 2 ^ 32 := by
  have hmax := maxlen.isLt
  unfold intOfDiff
  split <;> omega

namespace TokenIter

/-- `getNextToken` with its buffer and its save pointer. -/
def getNextToken (text needle : Text) (maxlen : BufSize) (s : TokenIter) : ℤ × TokenIter :=
  if text.isEmpty then (1, s)
  else
    let psz := strstr needle text
    let cnt : ℤ :=
      match psz with
      | some (before, _) => intOfDiff before.length
      | none => intOfDiff (min text.length maxlen)
    if 0 ≤ cnt ∧ cnt < (maxlen : ℕ) then
      (0, { buf := text.take cnt.toNat
            saveptr :=
              match psz with
              | some (_, found) => found.drop needle.length
              | none => text.drop cnt.toNat })
    else (-1, s)

/-- The token at the start of a text. -/
def firstToken (needle text : Text) : Text := (strstr needle text).elim text Prod.fst

theorem length_firstToken_le (needle text : Text) :
    (firstToken needle text).length ≤ text.length := by
  unfold firstToken
  cases hfound : strstr needle text with
  | none => exact le_rfl
  | some r =>
    have htext := congrArg List.length (strstr_eq_some hfound).1
    rw [List.length_append] at htext
    simp only [Option.elim_some]
    omega

/-- What one call does: the text is read, a token in front of a needle, the last token, or a
token that does not fit. -/
inductive Call (needle : Text) (maxlen : BufSize) (s : TokenIter) : ℤ × TokenIter → Prop where
  | empty : s.saveptr = [] → Call needle maxlen s (1, s)
  | delimited {before rest : Text} : s.saveptr = before ++ needle ++ rest → s.saveptr ≠ [] →
      strstr needle s.saveptr = some (before, needle ++ rest) →
      before.length % 2 ^ 32 < maxlen →
      Call needle maxlen s (0, ⟨before.take (before.length % 2 ^ 32), rest⟩)
  | last : s.saveptr ≠ [] → strstr needle s.saveptr = none → s.saveptr.length < maxlen →
      Call needle maxlen s (0, ⟨s.saveptr, []⟩)
  | tooLong : s.saveptr ≠ [] →
      (∀ before found, strstr needle s.saveptr = some (before, found) →
        maxlen ≤ before.length % 2 ^ 32) →
      (strstr needle s.saveptr = none → maxlen ≤ s.saveptr.length) →
      Call needle maxlen s (-1, s)

theorem getNextToken_call (needle : Text) (maxlen : BufSize) (s : TokenIter) :
    Call needle maxlen s (getNextToken s.saveptr needle maxlen s) := by
  have hmax := maxlen.isLt
  unfold getNextToken
  by_cases hempty : s.saveptr = []
  · rw [if_pos (by simp [hempty])]
    exact .empty hempty
  rw [if_neg (by simpa using hempty)]
  cases hfound : strstr needle s.saveptr with
  | some r =>
    obtain ⟨before, found⟩ := r
    obtain ⟨htext, rest, rfl⟩ := strstr_eq_some hfound
    simp only [intOfDiff_fits]
    by_cases hfits : before.length % 2 ^ 32 < maxlen
    · have htake : s.saveptr.take (before.length % 2 ^ 32) =
          before.take (before.length % 2 ^ 32) := by
        rw [htext, List.take_append_of_le_length (Nat.mod_le _ _)]
      rw [if_pos hfits, intOfDiff_toNat hfits, htake, List.drop_left]
      exact .delimited (by simpa using htext) hempty hfound hfits
    · rw [if_neg hfits]
      refine .tooLong hempty ?_ (by simp [hfound])
      intro b f hbf
      obtain ⟨rfl, rfl⟩ := Prod.mk.inj (Option.some.inj (hfound.symm.trans hbf))
      exact Nat.le_of_not_lt hfits
  | none =>
    have hmin : min s.saveptr.length maxlen % 2 ^ 32 = min s.saveptr.length maxlen :=
      Nat.mod_eq_of_lt (by omega)
    simp only [intOfDiff_fits, hmin]
    by_cases hfits : s.saveptr.length < maxlen
    · have hlt : min s.saveptr.length maxlen < maxlen := by omega
      have hlen : min s.saveptr.length maxlen = s.saveptr.length := by omega
      rw [if_pos hlt, intOfDiff_toNat (hmin.trans_lt hlt), hmin, hlen, List.take_length,
        List.drop_length]
      exact .last hempty hfound hfits
    · rw [if_neg (by omega)]
      exact .tooLong hempty (by simp [hfound]) fun _ => Nat.le_of_not_lt hfits

/-- A call either leaves buffer and save pointer alone, or moves forward in the text. -/
theorem Call.advances {needle : Text} (hneedle : needle ≠ []) {maxlen : BufSize} {s : TokenIter}
    {r : ℤ × TokenIter} (h : Call needle maxlen s r) :
    r.1 ≠ 0 ∧ r.2 = s ∨
      r.1 = 0 ∧ r.2.saveptr <:+ s.saveptr ∧ r.2.saveptr.length < s.saveptr.length := by
  have hpos := List.length_pos_iff.mpr hneedle
  cases h with
  | empty _ => exact Or.inl ⟨by simp, rfl⟩
  | tooLong _ _ _ => exact Or.inl ⟨by simp, rfl⟩
  | @delimited before rest htext _ _ _ =>
    refine Or.inr ⟨rfl, ⟨before ++ needle, htext.symm⟩, ?_⟩
    simp only [htext, List.length_append]
    omega
  | last hne _ _ =>
    exact Or.inr ⟨rfl, List.nil_suffix, List.length_pos_iff.mpr hne⟩

/-- A token in front of a needle that fits is returned whole. -/
theorem getNextToken_of_found {needle before rest : Text} {maxlen : BufSize} {s : TokenIter}
    (hne : s.saveptr ≠ []) (hfound : strstr needle s.saveptr = some (before, needle ++ rest))
    (hlen : before.length < maxlen) :
    getNextToken s.saveptr needle maxlen s = (0, ⟨before, rest⟩) := by
  have hmod : before.length % 2 ^ 32 = before.length := by
    have hmax := maxlen.isLt
    exact Nat.mod_eq_of_lt (by omega)
  rcases hcall : getNextToken s.saveptr needle maxlen s with ⟨ret, next⟩
  have h := hcall ▸ getNextToken_call needle maxlen s
  cases h with
  | empty hempty => exact absurd hempty hne
  | delimited _ _ hfound' _ =>
    rw [hfound, Option.some.injEq, Prod.mk.injEq, List.append_cancel_left_eq] at hfound'
    obtain ⟨rfl, rfl⟩ := hfound'
    rw [hmod, List.take_length]
  | last _ hnone _ => simp [hfound] at hnone
  | tooLong _ hsome _ =>
    have hle := hsome before (needle ++ rest) hfound
    omega

/-- A token that does not fit is refused, unless its length in front of a needle is cut by the
conversion to `int`. -/
theorem getNextToken_tooLong_iff {needle : Text} {maxlen : BufSize} {s : TokenIter}
    (hne : s.saveptr ≠ []) (hlong : maxlen ≤ (firstToken needle s.saveptr).length) :
    getNextToken s.saveptr needle maxlen s = (-1, s) ↔
      strstr needle s.saveptr = none ∨ maxlen ≤ (firstToken needle s.saveptr).length % 2 ^ 32 := by
  rcases hcall : getNextToken s.saveptr needle maxlen s with ⟨ret, next⟩
  have h := hcall ▸ getNextToken_call needle maxlen s
  cases h with
  | empty hempty => exact absurd hempty hne
  | delimited _ _ hfound hfits =>
    refine iff_of_false (by simp) ?_
    rintro (hnone | hle)
    · rw [hfound] at hnone
      exact absurd hnone (by simp)
    · rw [firstToken, hfound] at hle
      exact absurd hfits (Nat.not_lt.mpr hle)
  | last _ hfound hfits =>
    rw [firstToken, hfound] at hlong
    exact absurd hfits (Nat.not_lt.mpr hlong)
  | tooLong _ hsome _ =>
    refine iff_of_true rfl ?_
    cases hfound : strstr needle s.saveptr with
    | none => exact Or.inl rfl
    | some r => exact Or.inr (by simpa [firstToken, hfound] using hsome r.1 r.2 hfound)

/-- On texts of less than 4 GiB the call is the reader that the request handlers use. -/
theorem getNextToken_eq_reader {needle : Text} {maxlen : BufSize} {s : TokenIter}
    (hnul : '\x00' ∉ s.saveptr) (hsize : s.saveptr.length < 2 ^ 32) :
    getNextToken s.saveptr needle maxlen s =
      match OpenvasTool.getNextToken s.saveptr needle maxlen with
      | .ok (buf, rest) => (0, ⟨buf.text, rest⟩)
      | .error .empty => (1, s)
      | .error _ => (-1, s) := by
  rcases hcall : getNextToken s.saveptr needle maxlen s with ⟨ret, next⟩
  have h := hcall ▸ getNextToken_call needle maxlen s
  unfold OpenvasTool.getNextToken
  cases h with
  | empty hempty => simp [hempty]
  | @delimited before rest htext hne hfound hfits =>
    have hmod : before.length % 2 ^ 32 = before.length := by
      apply Nat.mod_eq_of_lt
      simp only [htext, List.length_append] at hsize
      omega
    have hbuf : '\x00' ∉ before := fun h => hnul (by simp [htext, h])
    rw [hmod] at hfits
    rw [hmod, List.take_length]
    simp [hne, hfound, CStr.ofText, hfits, hbuf]
  | last hne hfound hfits => simp [hne, hfound, CStr.ofText, hfits, hnul]
  | tooLong hne hsome hnone =>
    cases hfound : strstr needle s.saveptr with
    | none => simp [hne, CStr.ofText, Nat.not_lt.mpr (hnone hfound)]
    | some r =>
      have hlong : ¬ r.1.length < maxlen := by
        have hle := hsome r.1 r.2 hfound
        have hmod := Nat.mod_le r.1.length (2 ^ 32)
        omega
      simp [hne, CStr.ofText, hlong]

/-! ### Going through a text -/

/-- The tokens of successive calls, and the last result with what the caller then holds. -/
structure Run where
  tokens : List Text
  ret : ℤ
  iter : TokenIter
  deriving DecidableEq

/-- Calls with buffers of these sizes, each behind the token before, until one returns no token. -/
def readTokens (needle : Text) : List BufSize → TokenIter → Run
  | [], s => ⟨[], 0, s⟩
  | maxlen :: sizes, s =>
    let (ret, next) := getNextToken s.saveptr needle maxlen s
    if ret = 0 then
      let run := readTokens needle sizes next
      { run with tokens := next.buf :: run.tokens }
    else ⟨[], ret, next⟩

variable {needle : Text} {maxlen : BufSize} {sizes : List BufSize} {s next : TokenIter}

theorem readTokens_of_token (h : getNextToken s.saveptr needle maxlen s = (0, next)) :
    readTokens needle (maxlen :: sizes) s =
      ⟨next.buf :: (readTokens needle sizes next).tokens, (readTokens needle sizes next).ret,
        (readTokens needle sizes next).iter⟩ := by
  simp [readTokens, h]

theorem readTokens_of_stop {ret : ℤ} (h : getNextToken s.saveptr needle maxlen s = (ret, next))
    (hret : ret ≠ 0) : readTokens needle (maxlen :: sizes) s = ⟨[], ret, next⟩ := by
  simp [readTokens, h, hret]

/-- The calls come to an end when there are more of them than bytes in the text. -/
theorem readTokens_terminates (hneedle : needle ≠ []) (hsizes : s.saveptr.length < sizes.length) :
    (readTokens needle sizes s).ret ≠ 0 := by
  induction sizes generalizing s with
  | nil => simp at hsizes
  | cons maxlen sizes ih =>
    rw [List.length_cons] at hsizes
    rcases hcall : getNextToken s.saveptr needle maxlen s with ⟨ret, next⟩
    rcases (hcall ▸ getNextToken_call needle maxlen s).advances hneedle with
      ⟨hret, -⟩ | ⟨hret, -, hlt⟩
    · rwa [readTokens_of_stop hcall hret]
    · dsimp only at hret hlt
      subst hret
      rw [readTokens_of_token hcall]
      apply ih
      omega

theorem readTokens_of_read (h : s.saveptr = []) :
    (readTokens needle sizes s).tokens = [] ∧ (readTokens needle sizes s).iter = s := by
  cases sizes with
  | nil => exact ⟨rfl, rfl⟩
  | cons maxlen sizes =>
    rw [readTokens_of_stop (by rw [h]; rfl) one_ne_zero]
    exact ⟨rfl, rfl⟩

/-- Result 1 means that the text is read. -/
theorem readTokens_ret_one (h : (readTokens needle sizes s).ret = 1) :
    (readTokens needle sizes s).iter.saveptr = [] := by
  induction sizes generalizing s with
  | nil => simp [readTokens] at h
  | cons maxlen sizes ih =>
    rcases hcall : getNextToken s.saveptr needle maxlen s with ⟨ret, next⟩
    have hshape := hcall ▸ getNextToken_call needle maxlen s
    cases hshape with
    | empty hempty =>
      rwa [readTokens_of_stop hcall one_ne_zero]
    | delimited _ _ _ _ =>
      rw [readTokens_of_token hcall] at h ⊢
      exact ih h
    | last _ _ _ =>
      rw [readTokens_of_token hcall] at h ⊢
      exact ih h
    | tooLong _ _ _ =>
      rw [readTokens_of_stop hcall (by simp)] at h
      simp at h

/-! ### Joining the tokens again -/

/-- Tokens, each followed by the needle. -/
def terminated (needle : Text) (tokens : List Text) : Text :=
  (tokens.map fun token => token ++ needle).flatten

/-- The text consists of the tokens, each followed by the needle, and of what is still to be read;
or it is read to its end, and the needle stands only between the tokens. -/
def Rejoins (needle text : Text) (tokens : List Text) (saveptr : Text) : Prop :=
  text = terminated needle tokens ++ saveptr ∨
    saveptr = [] ∧ tokens ≠ [] ∧ text = needle.intercalate tokens

theorem rejoins_cons (hneedle : needle ≠ []) {token rest saveptr : Text} {tokens : List Text} :
    Rejoins needle (token ++ needle ++ rest) (token :: tokens) saveptr ↔
      Rejoins needle rest tokens saveptr := by
  cases tokens with
  | nil => simp [Rejoins, terminated, hneedle]
  | cons t tokens => simp [Rejoins, terminated, List.intercalate_cons_cons]

/-- `strstr` finds the first occurrence. -/
theorem strstr_first {text before found x y : Text}
    (hfound : strstr needle text = some (before, found)) (htext : text = x ++ needle ++ y) :
    before.length ≤ x.length := by
  induction text generalizing before x with
  | nil =>
    simp only [List.nil_eq, List.append_eq_nil_iff] at htext
    simp_all [strstr]
  | cons c text ih =>
    simp only [strstr] at hfound
    split at hfound
    · obtain ⟨rfl, rfl⟩ := Prod.mk.inj (Option.some.inj hfound)
      simp
    · rename_i hno
      obtain ⟨⟨b, f⟩, hbf, heq⟩ := Option.map_eq_some_iff.mp hfound
      obtain ⟨rfl, rfl⟩ := Prod.mk.inj heq
      cases x with
      | nil => exact absurd (List.isPrefixOf_iff_prefix.mpr ⟨y, htext.symm⟩) hno
      | cons d x =>
        have hlen := ih hbf (List.cons.inj htext).2
        simpa using hlen

/-- A token that is cut short does not give the text back. -/
theorem not_rejoins_of_cut {text before rest token saveptr : Text} {tokens : List Text}
    (hfound : strstr needle text = some (before, needle ++ rest))
    (hcut : token.length < before.length) : ¬ Rejoins needle text (token :: tokens) saveptr := by
  have hfirst : ∀ y, text ≠ token ++ needle ++ y := by
    intro y htext
    have hle := strstr_first hfound htext
    omega
  rintro (htext | ⟨-, -, htext⟩)
  · apply hfirst (terminated needle tokens ++ saveptr)
    simpa [terminated] using htext
  · cases tokens with
    | nil =>
      have hlen := congrArg List.length ((strstr_eq_some hfound).1.symm.trans htext)
      simp at hlen
      omega
    | cons t tokens =>
      apply hfirst (needle.intercalate (t :: tokens))
      simpa [List.intercalate_cons_cons] using htext

/-- The first token in front of a needle that does not fit its buffer is not mistaken for a
shorter one. -/
def Unwrapped (needle : Text) : List BufSize → Text → Prop
  | [], _ => True
  | maxlen :: sizes, text =>
    match strstr needle text with
    | some (before, found) =>
      if before.length < maxlen then Unwrapped needle sizes (found.drop needle.length)
      else maxlen ≤ before.length % 2 ^ 32
    | none => True

theorem rejoins_iff_unwrapped (hneedle : needle ≠ []) :
    Rejoins needle s.saveptr (readTokens needle sizes s).tokens
        (readTokens needle sizes s).iter.saveptr ↔ Unwrapped needle sizes s.saveptr := by
  induction sizes generalizing s with
  | nil => exact iff_of_true (Or.inl rfl) trivial
  | cons maxlen sizes ih =>
    rcases hcall : getNextToken s.saveptr needle maxlen s with ⟨ret, next⟩
    have hshape := hcall ▸ getNextToken_call needle maxlen s
    cases hshape with
    | empty hempty =>
      rw [readTokens_of_stop hcall one_ne_zero, hempty]
      exact iff_of_true (Or.inl rfl) (by simp [Unwrapped, strstr, hneedle])
    | @delimited before rest htext _ hfound hfits =>
      rw [readTokens_of_token hcall, Unwrapped, hfound]
      simp only [List.drop_left]
      by_cases hlen : before.length < maxlen
      · have hmod : before.length % 2 ^ 32 = before.length := by
          have hmax := maxlen.isLt
          exact Nat.mod_eq_of_lt (by omega)
        rw [if_pos hlen, hmod, List.take_length, htext, rejoins_cons hneedle]
        exact ih (s := ⟨before, rest⟩)
      · rw [if_neg hlen]
        refine iff_of_false (not_rejoins_of_cut hfound ?_) (by omega)
        rw [List.length_take]
        omega
    | last hne hfound _ =>
      rw [readTokens_of_token hcall, Unwrapped, hfound]
      have hread : (readTokens needle sizes ⟨s.saveptr, []⟩).tokens = [] ∧
          (readTokens needle sizes ⟨s.saveptr, []⟩).iter = ⟨s.saveptr, []⟩ :=
        readTokens_of_read rfl
      rw [hread.1, hread.2]
      exact iff_of_true (Or.inr ⟨rfl, by simp, by simp⟩) trivial
    | tooLong hne hsome _ =>
      rw [readTokens_of_stop hcall (by simp)]
      refine iff_of_true (Or.inl rfl) ?_
      rw [Unwrapped]
      cases hfound : strstr needle s.saveptr with
      | none => trivial
      | some r =>
        have hle := hsome r.1 r.2 hfound
        have hmod := Nat.mod_le r.1.length (2 ^ 32)
        dsimp only
        rwa [if_neg (by omega)]

/-- Tokens that fit, each followed by the delimiter, are returned in their order. -/
theorem readTokens_terminated {d : Char} {tokens : List Text} {more : List BufSize}
    (hfits : List.Forall₂ (fun (token : Text) (n : BufSize) => d ∉ token ∧ token.length < n)
      tokens sizes) (htext : s.saveptr = terminated [d] tokens) :
    (readTokens [d] (sizes ++ maxlen :: more) s).tokens = tokens ∧
      (readTokens [d] (sizes ++ maxlen :: more) s).ret = 1 := by
  induction hfits generalizing s with
  | nil =>
    have hcall : getNextToken s.saveptr [d] maxlen s = (1, s) := by
      rw [htext]
      rfl
    rw [List.nil_append, readTokens_of_stop hcall one_ne_zero]
    exact ⟨rfl, rfl⟩
  | @cons token n tokens sizes hfit hrest ih =>
    obtain ⟨hd, hlen⟩ := hfit
    have hsave : s.saveptr = token ++ d :: terminated [d] tokens := by
      simpa [terminated] using htext
    have hcall : getNextToken s.saveptr [d] n s = (0, ⟨token, terminated [d] tokens⟩) :=
      getNextToken_of_found (by simp [hsave]) (hsave ▸ strstr_char hd) hlen
    rw [List.cons_append, readTokens_of_token hcall]
    obtain ⟨htokens, hret⟩ := ih (s := ⟨token, terminated [d] tokens⟩) rfl
    exact ⟨congrArg (token :: ·) htokens, hret⟩

/-- Below 4 GiB no token is mistaken for a shorter one. -/
theorem unwrapped_of_length_lt (text : Text) (hsize : text.length < 2 ^ 32) :
    Unwrapped needle sizes text := by
  induction sizes generalizing text with
  | nil => trivial
  | cons maxlen sizes ih =>
    rw [Unwrapped]
    cases hfound : strstr needle text with
    | none => trivial
    | some r =>
      have htext := congrArg List.length (strstr_eq_some hfound).1
      rw [List.length_append] at htext
      have hmod : r.1.length % 2 ^ 32 = r.1.length := Nat.mod_eq_of_lt (by omega)
      dsimp only
      split
      · apply ih
        rw [List.length_drop]
        omega
      · rw [hmod]
        omega

/-- The iterator returns fitting tokens as they are; on every text it moves forward, comes to an
end and leaves its state alone when it returns no token. It gives the text back, and refuses a
token that does not fit, exactly when no length in front of a needle is cut to a fitting one. -/
theorem tokens_rejoin_iff (hneedle : needle ≠ []) (sizes : List BufSize) (s : TokenIter) :
    (∀ d tokens fitting last more (t : TokenIter),
      List.Forall₂ (fun (token : Text) (n : BufSize) => d ∉ token ∧ token.length < n)
        tokens fitting → t.saveptr = terminated [d] tokens →
      (readTokens [d] (fitting ++ last :: more) t).tokens = tokens ∧
        (readTokens [d] (fitting ++ last :: more) t).ret = 1) ∧
    (∀ (maxlen : BufSize) (t : TokenIter),
      (getNextToken t.saveptr needle maxlen t).1 ≠ 0 ∧
          (getNextToken t.saveptr needle maxlen t).2 = t ∨
        (getNextToken t.saveptr needle maxlen t).1 = 0 ∧
          (getNextToken t.saveptr needle maxlen t).2.saveptr <:+ t.saveptr ∧
          (getNextToken t.saveptr needle maxlen t).2.saveptr.length < t.saveptr.length) ∧
    (s.saveptr.length < sizes.length → (readTokens needle sizes s).ret ≠ 0) ∧
    ((readTokens needle sizes s).ret = 1 → (readTokens needle sizes s).iter.saveptr = []) ∧
    (Rejoins needle s.saveptr (readTokens needle sizes s).tokens
        (readTokens needle sizes s).iter.saveptr ↔ Unwrapped needle sizes s.saveptr) ∧
    ∀ (maxlen : BufSize) (t : TokenIter), t.saveptr ≠ [] →
      maxlen ≤ (firstToken needle t.saveptr).length →
      (getNextToken t.saveptr needle maxlen t = (-1, t) ↔
        strstr needle t.saveptr = none ∨
          maxlen ≤ (firstToken needle t.saveptr).length % 2 ^ 32) := by
  refine ⟨?_, ?_, ?_, ?_, ?_, ?_⟩
  · intro d tokens fitting last more t hfits htext
    exact readTokens_terminated hfits htext
  · intro maxlen t
    exact (getNextToken_call needle maxlen t).advances hneedle
  · exact readTokens_terminates hneedle
  · exact readTokens_ret_one
  · exact rejoins_iff_unwrapped hneedle
  · intro maxlen t hne hlong
    exact getNextToken_tooLong_iff hne hlong

/-- **The iterator splits and rejoins** every text of less than 4 GiB: it returns fitting tokens as
they are and in their order, moves forward, comes to an end, gives the text back, and refuses a token
that does not fit without touching its state. -/
theorem tokens_rejoin (hneedle : needle ≠ []) (sizes : List BufSize) (s : TokenIter)
    (hsize : s.saveptr.length < 2 ^ 32) :
    (∀ d tokens fitting last more (t : TokenIter),
      List.Forall₂ (fun (token : Text) (n : BufSize) => d ∉ token ∧ token.length < n)
        tokens fitting → t.saveptr = terminated [d] tokens →
      (readTokens [d] (fitting ++ last :: more) t).tokens = tokens ∧
        (readTokens [d] (fitting ++ last :: more) t).ret = 1) ∧
    (∀ (maxlen : BufSize) (t : TokenIter),
      (getNextToken t.saveptr needle maxlen t).1 ≠ 0 ∧
          (getNextToken t.saveptr needle maxlen t).2 = t ∨
        (getNextToken t.saveptr needle maxlen t).1 = 0 ∧
          (getNextToken t.saveptr needle maxlen t).2.saveptr <:+ t.saveptr ∧
          (getNextToken t.saveptr needle maxlen t).2.saveptr.length < t.saveptr.length) ∧
    (s.saveptr.length < sizes.length → (readTokens needle sizes s).ret ≠ 0) ∧
    ((readTokens needle sizes s).ret = 1 → (readTokens needle sizes s).iter.saveptr = []) ∧
    Rejoins needle s.saveptr (readTokens needle sizes s).tokens
      (readTokens needle sizes s).iter.saveptr ∧
    ∀ maxlen : BufSize, s.saveptr ≠ [] → maxlen ≤ (firstToken needle s.saveptr).length →
      getNextToken s.saveptr needle maxlen s = (-1, s) := by
  obtain ⟨hfitting, hcalls, hends, hread, hrejoins, hlong⟩ := tokens_rejoin_iff hneedle sizes s
  refine ⟨hfitting, hcalls, hends, hread, hrejoins.mpr (unwrapped_of_length_lt _ hsize), ?_⟩
  intro maxlen hne hmaxlen
  refine (hlong maxlen s hne hmaxlen).mpr ?_
  have hle := length_firstToken_le needle s.saveptr
  rw [Nat.mod_eq_of_lt (by omega)]
  exact Or.inr hmaxlen

/-- A message whose second token is empty and whose last one has no delimiter. -/
theorem tokens_rejoin_sample :
    Rejoins [';'] "1;;ab".toList (readTokens [';'] [4, 4, 4, 4] ⟨[], "1;;ab".toList⟩).tokens
      (readTokens [';'] [4, 4, 4, 4] ⟨[], "1;;ab".toList⟩).iter.saveptr :=
  (tokens_rejoin (by simp) [4, 4, 4, 4] ⟨[], "1;;ab".toList⟩ (by decide)).2.2.2.2.1

/-- A token whose length is a multiple of 4 GiB is returned as an empty one. -/
theorem not_rejoins_of_multiple {n : ℕ} (hn : 2 ^ 32 ≤ n) (hmod : n % 2 ^ 32 = 0) :
    ¬ Rejoins [','] (List.replicate n 'a' ++ [','])
      (readTokens [','] [1] ⟨[], List.replicate n 'a' ++ [',']⟩).tokens
      (readTokens [','] [1] ⟨[], List.replicate n 'a' ++ [',']⟩).iter.saveptr := by
  have hfound : strstr [','] (List.replicate n 'a' ++ [',']) =
      some (List.replicate n 'a', [',']) := strstr_char (by simp [List.mem_replicate])
  have hone : ((1 : BufSize) : ℕ) = 1 := rfl
  rw [rejoins_iff_unwrapped (s := ⟨[], List.replicate n 'a' ++ [',']⟩) (by simp), Unwrapped, hfound]
  dsimp only
  rw [List.length_replicate, hone, if_neg (by omega)]
  omega

/-- The bound on the text cannot be left out. -/
theorem not_rejoins_four_gib :
    ¬ ∀ (needle : Text) (sizes : List BufSize) (s : TokenIter), needle ≠ [] →
      Rejoins needle s.saveptr (readTokens needle sizes s).tokens
        (readTokens needle sizes s).iter.saveptr := fun h =>
  not_rejoins_of_multiple (n := 2 ^ 32) le_rfl (Nat.mod_self _)
    (h [','] [1] ⟨[], List.replicate (2 ^ 32) 'a' ++ [',']⟩ (by simp))

end TokenIter

end OpenvasTool
