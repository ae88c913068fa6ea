import OpenvasTool.Base

/-!
# Tokens, files and records

The token reader and the file reader of `comm_misc.c`, and the records between
begin and end marks that both task files and the status files consist of.
-/

namespace OpenvasTool

open Posix

/-! ### Tokens -/

/-- The results 1, -1 and -2 of the token readers. -/
inductive TokenError where
  | empty
  | tooLong
  | notDigit
  deriving DecidableEq, Repr

/-- `getNextToken`: the token in a buffer of `n` bytes, and the text behind the needle. -/
def getNextToken (text needle : Text) (n : ℕ) : Except TokenError (CStr n × Text) :=
  if text.isEmpty then .error .empty
  else
    let (token, rest) :=
      match strstr needle text with
      | some (before, found) => (before, found.drop needle.length)
      | none => (text, [])
    match CStr.ofText n token with
    | some buf => .ok (buf, rest)
    | none => .error .tooLong

/-- A token is what stands in front of the delimiter, or the whole text without one. -/
theorem getNextToken_eq_ok {text rest : Text} {d : Char} {n : ℕ} {buf : CStr n}
    (h : getNextToken text [d] n = .ok (buf, rest)) :
    d ∉ buf.text ∧ (text = buf.text ++ d :: rest ∨ text = buf.text ∧ rest = []) := by
  unfold getNextToken at h
  split at h
  · simp at h
  cases hfound : strstr [d] text with
  | none =>
    rw [hfound] at h
    dsimp only at h
    split at h
    · rename_i tok htok
      obtain ⟨rfl, rfl⟩ := Prod.mk.inj (Except.ok.inj h)
      rw [CStr.ofText_eq_some.mp htok]
      refine ⟨fun hmem => ?_, Or.inr ⟨rfl, rfl⟩⟩
      obtain ⟨x, y, rfl, hx⟩ := List.eq_append_cons_of_mem hmem
      simp [strstr_char hx] at hfound
    · simp at h
  | some r =>
    obtain ⟨before, found⟩ := r
    obtain ⟨hnot, t, rfl, rfl⟩ := strstr_char_some hfound
    rw [hfound] at h
    dsimp only at h
    split at h
    · rename_i tok htok
      obtain ⟨rfl, rfl⟩ := Prod.mk.inj (Except.ok.inj h)
      rw [CStr.ofText_eq_some.mp htok]
      exact ⟨hnot, Or.inl rfl⟩
    · simp at h

/-- The token in front of a delimiter. -/
theorem getNextToken_append {rest : Text} {d : Char} {n : ℕ} {buf : CStr n} (hd : d ∉ buf.text) :
    getNextToken (buf.text ++ d :: rest) [d] n = .ok (buf, rest) := by
  simp [getNextToken, strstr_char hd]

theorem getNextToken_eq_empty {text needle : Text} {n : ℕ}
    (h : getNextToken text needle n = .error .empty) : text = [] := by
  unfold getNextToken at h
  split at h
  · rename_i hempty
    exact List.isEmpty_iff.mp hempty
  · dsimp only at h
    split at h <;> simp at h

/-- `getNextTokenInt`. -/
def getNextTokenInt (text needle : Text) : Except TokenError (ℤ × Text) := do
  let (buf, rest) ← getNextToken text needle maxCommMinSize
  match buf.text with
  | c :: _ => if c.isDigit then .ok (atoi buf.text, rest) else .error .notDigit
  | [] => .error .notDigit

/-! ### Reading a file -/

/-- Why `readTotalFile` does not return 0: the results 1 and 2, the size check, other errors. -/
inductive ReadError where
  | noFile
  | emptyFile
  | tooLarge
  | ioError
  deriving DecidableEq, Repr

/-- `readTotalFile`, given the outcomes of `stat` and of the allocation and reading. -/
def readTotalFile (stat read : Bool) (file : Option Text) : Except ReadError Text :=
  if stat then
    match file with
    | none => .error .noFile
    | some content =>
        if maxTaskFileSize < content.length then .error .tooLarge
        else if content.isEmpty then .error .emptyFile
        else if read then .ok content
        else .error .ioError
  else .error .ioError

/-! ### Records -/

/-- One line `key="value"` of a record. -/
def keyLine (key val : Text) : Text := key ++ "=\"".toList ++ val ++ "\"\n".toList

/-- The lines of a record between its marks. -/
def keyLines (fields : List (Text × Text)) : Text := fields.flatMap fun f => keyLine f.1 f.2

/-- A record with its marks. -/
def renderRecord (fields : List (Text × Text)) : Text :=
  taskInfoBegMark ++ keyLines fields ++ taskInfoEndMark

/-- The body of the next record, and the text behind its end mark. -/
def nextRecord (psz : Text) : Option (Text × Text) :=
  match strstr taskInfoBegMark psz with
  | none => none
  | some (_, beg) =>
      match strstr taskInfoEndMark (beg.drop taskInfoBegMark.length) with
      | none => none
      | some (body, stop) => some (body, stop.drop taskInfoEndMark.length)

/-- The bodies of the records of a text, where `fuel` bounds their number. -/
def recordsFrom : ℕ → Text → List Text
  | 0, _ => []
  | fuel + 1, psz =>
      match nextRecord psz with
      | none => []
      | some (body, rest) => body :: recordsFrom fuel rest

/-- The bodies of the records of a file; every record takes at least one byte. -/
def records (content : Text) : List Text := recordsFrom content.length (cstring content)

/-- One step of rendering a list of records into a buffer of this capacity. When the record has as
many bytes as `left`, `snprintf` writes its terminating NUL over the last one. -/
def writeRecord (capacity : ℕ) (buf record : Text) : Option Text :=
  let left := intOfSize (capacity - buf.length)
  if 0 < record.length ∧ record.length ≤ left then
    if record.length = left then some (buf ++ record.take (record.length - 1) ++ ['\x00'])
    else some (buf ++ record)
  else none

end OpenvasTool
