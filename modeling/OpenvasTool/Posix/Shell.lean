import OpenvasTool.Posix.Regex

/-!
# Shell words

How the POSIX shell splits a command into words and operators: the rules of
quoting with a backslash, with apostrophes and with double quotes. A command
that needs an expansion, a comment or a pattern has no reading here, and neither
has one that ends within quotes.
-/

namespace Posix.Shell

open Posix

/-! ### Tokens -/

/-- A token of the shell language. The digits before a redirection are an `ioNumber`. -/
inductive Token where
  | word (value : Text)
  | ioNumber (digits : Text)
  | operator (symbol : Text)
  deriving DecidableEq, Repr

/-- The quoting at a place of the command. -/
inductive Quoting where
  | plain
  | escaped
  | single
  | double
  | doubleEscaped
  deriving DecidableEq, Repr

/-- The token that is being read. -/
inductive Partial where
  | nothing
  | word (value : Text) (quoted : Bool)
  | operator (symbol : Text)
  deriving DecidableEq, Repr

/-- What has been read of a command. -/
structure Reading where
  tokens : List Token := []
  current : Partial := .nothing
  quoting : Quoting := .plain
  deriving DecidableEq, Repr

/-! ### Reading a command -/

/-- The operators, and their beginnings. -/
def operators : List Text :=
  ["&", "&&", "(", ")", ";", ";;", "\n", "|", "||", "<", "<<", "<<-", ">", ">>", "<&", ">&",
    "<>", ">|"].map String.toList

/-- The characters that start an operator. -/
def isOperatorChar (c : Char) : Bool := "&();\n|<>".toList.contains c

/-- The characters that ask for an expansion outside of quotes. -/
def isExpansion (c : Char) : Bool := "$`*?[~#".toList.contains c

/-- The token that ends before the character `next`. -/
def Partial.close (next : Option Char) : Partial → List Token
  | nothing => []
  | operator symbol => [.operator symbol]
  | word value quoted =>
      if !quoted && value.all Char.isDigit && (next == some '<' || next == some '>') then
        [.ioNumber value]
      else [.word value]

namespace Reading

/-- The current token ends. -/
def close (r : Reading) (next : Option Char) : Reading :=
  { r with tokens := r.tokens ++ r.current.close next, current := .nothing }

/-- Some text belongs to the current word. -/
def push (r : Reading) (text : Text) (quoted : Bool) : Reading :=
  match r.current with
  | .word value before => { r with current := .word (value ++ text) (before || quoted) }
  | _ => { r.close none with current := .word text quoted }

/-- The reading goes on with this quoting. -/
def quote (r : Reading) (quoting : Quoting) : Reading := { r with quoting := quoting }

/-- A character of an operator. -/
def pushOperator (r : Reading) (c : Char) : Reading :=
  match r.current with
  | .operator symbol =>
      if operators.contains (symbol ++ [c]) then { r with current := .operator (symbol ++ [c]) }
      else { r.close (some c) with current := .operator [c] }
  | _ => { r.close (some c) with current := .operator [c] }

/-- The next character of a command. -/
def step (r : Reading) (c : Char) : Option Reading :=
  match r.quoting with
  | .plain =>
      if c = '\\' then some (r.quote .escaped)
      else if c = '\'' then some ((r.push [] true).quote .single)
      else if c = '"' then some ((r.push [] true).quote .double)
      else if isExpansion c then none
      else if isOperatorChar c then some (r.pushOperator c)
      else if c = ' ' ∨ c = '\t' then some (r.close none)
      else some (r.push [c] false)
  | .escaped =>
      -- an escaped newline joins two lines
      if c = '\n' then some (r.quote .plain) else some ((r.push [c] true).quote .plain)
  | .single => if c = '\'' then some (r.quote .plain) else some (r.push [c] true)
  | .double =>
      if c = '"' then some (r.quote .plain)
      else if c = '\\' then some (r.quote .doubleEscaped)
      else if c = '$' ∨ c = '`' then none
      else some (r.push [c] true)
  | .doubleEscaped =>
      -- within double quotes a backslash quotes only these characters
      if c = '$' ∨ c = '`' ∨ c = '"' ∨ c = '\\' then some ((r.push [c] true).quote .double)
      else if c = '\n' then some (r.quote .double)
      else some ((r.push ['\\', c] true).quote .double)

/-- The reading of a text from here on. -/
def run (r : Reading) (text : Text) : Option Reading := text.foldlM step r

theorem run_append (r : Reading) (s t : Text) :
    r.run (s ++ t) = (r.run s).bind fun r => r.run t := List.foldlM_append

theorem run_append_of {r r' : Reading} {s : Text} (h : r.run s = some r') (t : Text) :
    r.run (s ++ t) = r'.run t := by
  rw [run_append, h, Option.bind_some]

end Reading

/-- The tokens of a command, if it needs no expansion. -/
def tokens (command : Text) : Option (List Token) :=
  (Reading.run {} command).bind fun r =>
    if r.quoting = .plain then some (r.close none).tokens else none

theorem tokens_of_run {command : Text} {r : Reading} (h : Reading.run {} command = some r)
    (hplain : r.quoting = .plain) : tokens command = some (r.close none).tokens := by
  rw [tokens, h, Option.bind_some, if_pos hplain]

/-! ### Texts in double quotes -/

/-- A text with a backslash before each double quote. -/
def escapeQuotes (text : Text) : Text :=
  text.flatMap fun c => if c = '"' then ['\\', '"'] else [c]

/-- The characters that keep a meaning within double quotes, apart from the quote itself. -/
def IsSpecial (c : Char) : Prop := c = '\\' ∨ c = '$' ∨ c = '`'

instance : DecidablePred IsSpecial := fun _ => inferInstanceAs (Decidable (_ ∨ _))

@[simp] theorem escapeQuotes_nil : escapeQuotes [] = [] := rfl

theorem escapeQuotes_cons (c : Char) (text : Text) :
    escapeQuotes (c :: text) = (if c = '"' then ['\\', '"'] else [c]) ++ escapeQuotes text := rfl

theorem length_le_escapeQuotes (text : Text) : text.length ≤ (escapeQuotes text).length := by
  induction text with
  | nil => simp
  | cons c text ih =>
    rw [escapeQuotes_cons, List.length_append, List.length_cons]
    split <;> simp <;> omega

theorem length_escapeQuotes_le (text : Text) : (escapeQuotes text).length ≤ 2 * text.length := by
  induction text with
  | nil => simp
  | cons c text ih =>
    rw [escapeQuotes_cons, List.length_append, List.length_cons]
    split <;> simp <;> omega

/-- Within double quotes the shell reads one escaped character as the character. -/
theorem Reading.run_escaped_char (ts : List Token) (value : Text) {c : Char} (hc : ¬IsSpecial c) :
    Reading.run ⟨ts, .word value true, .double⟩ (if c = '"' then ['\\', '"'] else [c]) =
      some ⟨ts, .word (value ++ [c]) true, .double⟩ := by
  simp only [IsSpecial, not_or] at hc
  obtain ⟨hback, hdollar, htick⟩ := hc
  by_cases hquote : c = '"'
  · subst hquote
    rfl
  · rw [if_neg hquote]
    simp [run, step, push, hquote, hback, hdollar, htick]

/-- Within double quotes the shell reads an escaped text as the text itself. -/
theorem Reading.run_escapeQuotes {ts : List Token} {text : Text}
    (htext : ∀ c ∈ text, ¬IsSpecial c) (value : Text) :
    Reading.run ⟨ts, .word value true, .double⟩ (escapeQuotes text) =
      some ⟨ts, .word (value ++ text) true, .double⟩ := by
  induction text generalizing value with
  | nil => simp [run]
  | cons c text ih =>
    have hhead := run_escaped_char ts value (htext c (by simp))
    rw [escapeQuotes_cons, run_append_of hhead, ih (fun d hd => htext d (by simp [hd])),
      List.append_assoc, List.singleton_append]

/-- A command of the form `before "text" after`, where `before` ends with the opening quote
and `after` starts with the closing one. -/
theorem tokens_quoted {before after text : Text} {ts : List Token} {r : Reading}
    (hbefore : Reading.run {} before = some ⟨ts, .word [] true, .double⟩)
    (htext : ∀ c ∈ text, ¬IsSpecial c)
    (hafter : Reading.run ⟨ts, .word text true, .double⟩ after = some r)
    (hplain : r.quoting = .plain) :
    tokens (before ++ escapeQuotes text ++ after) = some (r.close none).tokens := by
  apply tokens_of_run _ hplain
  rw [List.append_assoc, Reading.run_append_of hbefore,
    Reading.run_append_of (Reading.run_escapeQuotes htext []), List.nil_append]
  exact hafter

/-! ### Words without quotes -/

/-- The characters that have to be quoted to stand for themselves. -/
def isQuotable (c : Char) : Bool := "|&;<>()$`\\\"' \t\n*?[#~=%".toList.contains c

/-- Where a word can begin, whatever has been read before, the text is read as these tokens. -/
def ReadsAs (text : Text) (ts' : List Token) : Prop :=
  ∀ ts, ∃ r, Reading.run ⟨ts, .nothing, .plain⟩ text = some r ∧ r.quoting = .plain ∧
    (r.close none).tokens = ts ++ ts'

theorem ReadsAs.tokens {text : Text} {ts' : List Token} (h : ReadsAs text ts') :
    tokens text = some ts' := by
  obtain ⟨r, hrun, hplain, htokens⟩ := h []
  rw [tokens_of_run hrun hplain, htokens, List.nil_append]

@[simp] theorem Partial.close_word_none (value : Text) (quoted : Bool) :
    (Partial.word value quoted).close none = [.word value] := by
  simp [Partial.close]

/-- A character that needs no quotes belongs to the word. -/
theorem Reading.step_of_not_quotable {c : Char} (hc : isQuotable c = false) (ts : List Token)
    (current : Partial) :
    Reading.step ⟨ts, current, .plain⟩ c = some (Reading.push ⟨ts, current, .plain⟩ [c] false) := by
  have hne : ∀ d ∈ "|&;<>()$`\\\"' \t\n*?[#~=%".toList, c ≠ d := by
    rintro d hd rfl
    rw [isQuotable, List.contains_iff_mem.mpr hd] at hc
    cases hc
  have hexpansion : isExpansion c = false := by
    rw [isExpansion, List.contains_eq_mem, decide_eq_false_iff_not]
    intro hmem
    exact hne c ((by decide : "$`*?[~#".toList ⊆ "|&;<>()$`\\\"' \t\n*?[#~=%".toList) hmem) rfl
  have hoperator : isOperatorChar c = false := by
    rw [isOperatorChar, List.contains_eq_mem, decide_eq_false_iff_not]
    intro hmem
    exact hne c ((by decide : "&();\n|<>".toList ⊆ "|&;<>()$`\\\"' \t\n*?[#~=%".toList) hmem) rfl
  unfold Reading.step
  dsimp only
  rw [if_neg (hne _ (by decide)), if_neg (hne _ (by decide)), if_neg (hne _ (by decide)),
    hexpansion, hoperator, if_neg Bool.false_ne_true, if_neg Bool.false_ne_true,
    if_neg (not_or.mpr ⟨hne _ (by decide), hne _ (by decide)⟩)]

/-- A text that needs no quotes goes on with the word. -/
theorem Reading.run_word {text : Text} (h : ∀ c ∈ text, isQuotable c = false) (ts : List Token)
    (value : Text) (quoted : Bool) :
    Reading.run ⟨ts, .word value quoted, .plain⟩ text =
      some ⟨ts, .word (value ++ text) quoted, .plain⟩ := by
  induction text generalizing value with
  | nil => simp [run]
  | cons c text ih =>
    have hstep := step_of_not_quotable (h c (by simp)) ts (.word value quoted)
    rw [run, List.foldlM_cons, hstep, Option.bind_eq_bind, Option.bind_some]
    have hrest := ih (fun d hd => h d (by simp [hd])) (value ++ [c])
    rw [List.append_assoc, List.singleton_append] at hrest
    have hpush : push ⟨ts, .word value quoted, .plain⟩ [c] false =
        ⟨ts, .word (value ++ [c]) quoted, .plain⟩ := by simp [push]
    rw [hpush]
    exact hrest

/-- A word that needs no quotes begins, and ends an operator. -/
theorem Reading.run_newWord {text : Text} (hne : text ≠ []) (h : ∀ c ∈ text, isQuotable c = false)
    (ts : List Token) {current : Partial} (hword : ∀ value quoted, current ≠ .word value quoted) :
    Reading.run ⟨ts, current, .plain⟩ text =
      some ⟨ts ++ current.close none, .word text false, .plain⟩ := by
  obtain ⟨c, text, rfl⟩ := List.exists_cons_of_ne_nil hne
  have hstep := step_of_not_quotable (h c (by simp)) ts current
  rw [run, List.foldlM_cons, hstep, Option.bind_eq_bind, Option.bind_some]
  have htext : ∀ d ∈ text, isQuotable d = false := fun d hd => h d (by simp [hd])
  have hrest := run_word htext (ts ++ current.close none) [c] false
  rw [List.singleton_append] at hrest
  have hpush : push ⟨ts, current, .plain⟩ [c] false =
      ⟨ts ++ current.close none, .word [c] false, .plain⟩ := by
    cases current with
    | word value quoted => exact absurd rfl (hword value quoted)
    | nothing => rfl
    | operator symbol => rfl
  rw [hpush]
  exact hrest

/-- A blank ends a word. -/
theorem Reading.run_blank (ts : List Token) (value : Text) (quoted : Bool) (text : Text) :
    Reading.run ⟨ts, .word value quoted, .plain⟩ (' ' :: text) =
      Reading.run ⟨ts ++ [.word value], .nothing, .plain⟩ text := by
  have hstep : Reading.step ⟨ts, .word value quoted, .plain⟩ ' ' =
      some (Reading.close ⟨ts, .word value quoted, .plain⟩ none) := rfl
  rw [run, List.foldlM_cons, hstep, Option.bind_eq_bind, Option.bind_some, close,
    Partial.close_word_none]
  rfl

/-- A text in double quotes, without a character that is special there. -/
theorem Reading.run_quoted {text : Text} (h : ∀ c ∈ text, ¬IsSpecial c ∧ c ≠ '"') (ts : List Token)
    (value : Text) :
    Reading.run ⟨ts, .word value true, .double⟩ text =
      some ⟨ts, .word (value ++ text) true, .double⟩ := by
  have hescape : escapeQuotes text = text := by
    clear ts value
    induction text with
    | nil => rfl
    | cons c text ih =>
      rw [escapeQuotes_cons, if_neg (h c (by simp)).2, ih fun d hd => h d (by simp [hd])]
      rfl
  have hrun : Reading.run ⟨ts, .word value true, .double⟩ (escapeQuotes text) =
      some ⟨ts, .word (value ++ text) true, .double⟩ :=
    run_escapeQuotes (fun c hc => (h c hc).1) value
  rwa [hescape] at hrun

/-- A word in double quotes. -/
theorem Reading.run_quotedWord {text : Text} (h : ∀ c ∈ text, ¬IsSpecial c ∧ c ≠ '"')
    (ts : List Token) (rest : Text) :
    Reading.run ⟨ts, .nothing, .plain⟩ ('"' :: (text ++ '"' :: rest)) =
      Reading.run ⟨ts, .word text true, .plain⟩ rest := by
  have hopen : Reading.run ⟨ts, .nothing, .plain⟩ ['"'] = some ⟨ts, .word [] true, .double⟩ := by
    simp [run, step, push, quote, close, Partial.close]
  have hclose : Reading.run ⟨ts, .word text true, .double⟩ ['"'] =
      some ⟨ts, .word text true, .plain⟩ := by simp [run, step, quote]
  rw [← List.singleton_append, run_append_of hopen, run_append_of (run_quoted h ts []),
    ← List.singleton_append, List.nil_append, run_append_of hclose]

end Posix.Shell
