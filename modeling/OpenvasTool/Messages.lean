import OpenvasTool.Hydra.Data

/-!
# Messages

The texts that a client sends to the daemon: the fields of a request, each one
followed by the delimiter. What the daemon reads back from such a text, token by
token.
-/

namespace OpenvasTool

open Posix

/-- The text of a message, or of its last part: every field ends with the delimiter. -/
def kbMessage (fields : List Text) : Text := fields.flatMap fun f => f ++ [openvasKbDelim]

theorem kbMessage_cons (f : Text) (fields : List Text) :
    kbMessage (f :: fields) = f ++ openvasKbDelim :: kbMessage fields := by
  simp [kbMessage]

/-- A field without the delimiter is the next token. -/
theorem requestToken_kbMessage {n : ℕ} {buf : CStr n} (h : openvasKbDelim ∉ buf.text)
    (fields : List Text) :
    requestToken (kbMessage (buf.text :: fields)) n = some (buf, kbMessage fields) := by
  rw [kbMessage_cons, requestToken, getNextToken_append h]
  rfl

/-- An integer field is the next token when it begins with a digit. -/
theorem requestTokenInt_kbMessage {buf : CStr maxCommMinSize} (h : openvasKbDelim ∉ buf.text)
    (hdigit : (buf.text.head?.map Char.isDigit) = some true) (fields : List Text) :
    requestTokenInt (kbMessage (buf.text :: fields)) = some (atoi buf.text, kbMessage fields) := by
  obtain ⟨c, hc, hdigit⟩ := Option.map_eq_some_iff.mp hdigit
  obtain ⟨rest, hbuf⟩ := List.head?_eq_some_iff.mp hc
  rw [kbMessage_cons, requestTokenInt, getNextTokenInt, getNextToken_append h]
  simp [Bind.bind, Except.bind, hbuf, hdigit, Except.toOption]

/-- A text that is empty or ends with the delimiter. -/
def Delimited (text : Text) : Prop := text = [] ∨ ∃ t, text = t ++ [openvasKbDelim]

theorem delimited_kbMessage (fields : List Text) : Delimited (kbMessage fields) := by
  rcases List.eq_nil_or_concat fields with rfl | ⟨before, f, rfl⟩
  · exact Or.inl rfl
  · refine Or.inr ⟨kbMessage before ++ f, ?_⟩
    simp [kbMessage]

/-- A delimited text stays so when a token is taken from it. -/
theorem Delimited.rest {token rest : Text} (h : Delimited (token ++ openvasKbDelim :: rest)) :
    Delimited rest := by
  rcases h with h | ⟨t, ht⟩
  · simp at h
  · rcases List.eq_nil_or_concat rest with rfl | ⟨before, c, rfl⟩
    · exact Or.inl rfl
    · rw [List.concat_eq_append, ← List.cons_append, ← List.append_assoc] at ht
      obtain ⟨-, hlast⟩ := List.append_inj' ht rfl
      exact Or.inr ⟨before, by rw [List.concat_eq_append, hlast]⟩

/-- A token of a delimited text is followed by the delimiter. -/
theorem getNextToken_delimited {text rest : Text} {n : ℕ} {buf : CStr n} (h : Delimited text) :
    getNextToken text [openvasKbDelim] n = .ok (buf, rest) ↔
      openvasKbDelim ∉ buf.text ∧ text = buf.text ++ openvasKbDelim :: rest := by
  constructor
  · intro hok
    obtain ⟨hnot, heq | ⟨heq, -⟩⟩ := getNextToken_eq_ok hok
    · exact ⟨hnot, heq⟩
    · exfalso
      rcases h with rfl | ⟨t, rfl⟩
      · simp [getNextToken] at hok
      · rw [← heq] at hnot
        simp at hnot
  · rintro ⟨hnot, rfl⟩
    exact getNextToken_append hnot

theorem toOption_eq_some {ε α : Type*} {e : Except ε α} {a : α} :
    e.toOption = some a ↔ e = .ok a := by
  cases e <;> simp [Except.toOption]

theorem requestToken_delimited {text rest : Text} {n : ℕ} {buf : CStr n} (h : Delimited text) :
    requestToken text n = some (buf, rest) ↔
      openvasKbDelim ∉ buf.text ∧ text = buf.text ++ openvasKbDelim :: rest := by
  rw [requestToken, toOption_eq_some, getNextToken_delimited h]

theorem requestTokenInt_delimited {text rest : Text} {v : ℤ} (h : Delimited text) :
    requestTokenInt text = some (v, rest) ↔
      ∃ buf : CStr maxCommMinSize, openvasKbDelim ∉ buf.text ∧
        text = buf.text ++ openvasKbDelim :: rest ∧
        buf.text.head?.map Char.isDigit = some true ∧ v = atoi buf.text := by
  rw [requestTokenInt, toOption_eq_some, getNextTokenInt]
  constructor
  · intro hok
    cases hbuf : getNextToken text [openvasKbDelim] maxCommMinSize with
    | error e => simp [hbuf, Bind.bind, Except.bind] at hok
    | ok r =>
      obtain ⟨buf, rest'⟩ := r
      obtain ⟨hnot, htext⟩ := (getNextToken_delimited h).mp hbuf
      rw [hbuf] at hok
      dsimp only [Bind.bind, Except.bind] at hok
      split at hok
      swap
      · simp at hok
      rename_i c t hcons
      split at hok
      swap
      · simp at hok
      rename_i hdigit
      obtain ⟨rfl, rfl⟩ := Prod.mk.inj (Except.ok.inj hok)
      exact ⟨buf, hnot, htext, by simp [hcons, hdigit], rfl⟩
  · rintro ⟨buf, hnot, htext, hhead, rfl⟩
    obtain ⟨c, hc, hdigit⟩ := Option.map_eq_some_iff.mp hhead
    obtain ⟨t, hcons⟩ := List.head?_eq_some_iff.mp hc
    rw [(getNextToken_delimited h).mpr ⟨hnot, htext⟩]
    simp [Bind.bind, Except.bind, hcons, hdigit]

/-- The first token of a message is its first field when that has no delimiter. -/
theorem requestToken_kbMessage_iff {n : ℕ} {buf : CStr n} {fields : List Text} {rest : Text} :
    requestToken (kbMessage (buf.text :: fields)) n = some (buf, rest) ↔
      openvasKbDelim ∉ buf.text ∧ rest = kbMessage fields := by
  rw [requestToken_delimited (delimited_kbMessage _), kbMessage_cons]
  simp [eq_comm]

/-- The uuid and the command that `processMsg` takes from a message, and the text that is left for
the handler. -/
def processMsgTokens (input : Text) : Option (CStr maxUuidSize × CStr maxCommSize × Text) := do
  let (uuid, input) ← requestToken input maxUuidSize
  let (cmd, input) ← requestToken input maxCommSize
  if chkUuid uuid.text then some (uuid, cmd, input) else none

/-- What the daemon reads from the message of a create request. -/
theorem getCreateTaskParam_kbMessage (taskName : CStr maxNameSize)
    (groupId groupName hosts : CStr maxMemListSize) (type : CStr maxCommMinSize)
    (scheduleTime : CStr maxTimestampSize) (scheduleList : CStr maxScheduleListSize)
    (hname : openvasKbDelim ∉ taskName.text) (hgroupId : openvasKbDelim ∉ groupId.text)
    (hgroupName : openvasKbDelim ∉ groupName.text) (hhosts : openvasKbDelim ∉ hosts.text)
    (htype : openvasKbDelim ∉ type.text)
    (hdigit : (type.text.head?.map Char.isDigit) = some true)
    (htime : openvasKbDelim ∉ scheduleTime.text) (hlist : openvasKbDelim ∉ scheduleList.text)
    (hchecks : (chkName taskName.text && chkConfigInfo groupId.text groupName.text &&
      chkHosts hosts.text &&
      chkScheduleParam (atoi type.text) scheduleTime.text scheduleList.text) = true) :
    getCreateTaskParam (kbMessage [taskName.text, groupId.text, groupName.text, hosts.text,
        type.text, scheduleTime.text, scheduleList.text]) =
      some
        { taskInfo :=
            { taskName := taskName
              groupId := groupId
              groupName := groupName
              scheduleType := atoi type.text
              firstScheduleTime := scheduleTime
              scheduleList := scheduleList }
          targetInfo :=
            { targetName := .copy taskName
              portlistId := defOpenvasPortListId
              hosts := hosts } } := by
  simp only [getCreateTaskParam, Option.bind_eq_bind, requestToken_kbMessage hname,
    requestToken_kbMessage hgroupId, requestToken_kbMessage hgroupName,
    requestToken_kbMessage hhosts, requestTokenInt_kbMessage htype hdigit,
    requestToken_kbMessage htime, requestToken_kbMessage hlist, Option.bind_some, hchecks, if_true]

end OpenvasTool
