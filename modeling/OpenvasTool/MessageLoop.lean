import OpenvasTool.Gvm.Data
import OpenvasTool.Support.Runs

/-!
# The message loop

`startKbMsg` of `openvas_business.c` for every sequence of results of `recvKbMsg`. A ledger of the
actions of the loop counts the connection errors and the seconds waited since the last poll that
reached the queue; by it a message is due unless it comes after three errors or more.
-/

namespace OpenvasTool

open Posix Support

/-- What `recvKbMsg` finds: a message, an empty queue or a broken connection. -/
inductive RecvKbMsg where
  | message (inbuf : Text)
  | empty
  | connError
  deriving DecidableEq

/-- What the loop does. -/
inductive LoopAction where
  | clearKb
  | recvKbMsg (found : RecvKbMsg)
  | processMsg (inbuf : Text)
  | processIdle
  | sleep
  | doEveryLoop
  deriving DecidableEq

/-- What one turn of the loop meets: the result of a poll, the result of `processIdle`, and whether
`g_isRun` is still set at the end of the turn. -/
structure LoopTurn where
  found : RecvKbMsg
  hasMore : ℤ
  isRun : Bool

structure LoopState where
  gId : ℕ
  timeout : ℤ
  inbuf : Text
  isRun : Bool
  log : List LoopAction
  deriving DecidableEq

/-- `INTERVAL_TIME`. -/
def intervalTime : List ℕ := [10, 20, 30, 60]

def maxIntervalCnt : ℕ := intervalTime.length - 1

namespace LoopState

/-- Note an action. -/
def act (s : LoopState) (a : LoopAction) : LoopState := { s with log := s.log ++ [a] }

/-- The end of a turn. -/
def endTurn (s : LoopState) (turn : LoopTurn) : LoopState :=
  let s := { s with isRun := turn.isRun }
  if s.isRun then s.act .doEveryLoop else s

/-- One turn of the loop of `startKbMsg`. -/
def loopTurn (s : LoopState) (turn : LoopTurn) : LoopState :=
  if s.isRun then
    if s.timeout ≤ 0 then
      let s := s.act (.recvKbMsg turn.found)
      match turn.found with
      | .empty =>
        let s := { s with gId := 0, inbuf := [] }.act .processIdle
        { s with timeout := if turn.hasMore = 0 then 1 else 0 }.endTurn turn
      | .message inbuf =>
        let s := { s with inbuf := inbuf }
        if s.gId = 0 then (s.act (.processMsg s.inbuf)).endTurn turn
        else if s.gId < maxIntervalCnt then
          ({ s with gId := 0 }.act (.processMsg s.inbuf)).endTurn turn
        else
          -- the queue was out of reach for a minute, and its requests are stale
          { s.act .clearKb with gId := 0, isRun := turn.isRun }
      | .connError =>
        { s with
          inbuf := []
          timeout := intervalTime.getD s.gId 0
          gId := if s.gId < maxIntervalCnt then s.gId + 1 else s.gId }.endTurn turn
    else { s.act .sleep with timeout := s.timeout - 1 }.endTurn turn
  else s

end LoopState

/-- `startKbMsg`: the return value and the state behind the loop. Without a connection object there
is no loop. -/
def startKbMsg (kbCreate : Bool) (turns : List LoopTurn) : ℤ × LoopState :=
  let s : LoopState := { gId := 0, timeout := 0, inbuf := [], isRun := true, log := [] }
  if kbCreate then (0, run LoopState.loopTurn (s.act .clearKb) turns) else (-1, s)

/-! ### What is due -/

/-- The connection errors since the last poll that reached the queue, the seconds waited since the
first of them, and the messages that have to be processed. -/
structure Ledger where
  errors : ℕ := 0
  waits : ℕ := 0
  due : List Text := []
  deriving DecidableEq

def Ledger.after (l : Ledger) : LoopAction → Ledger
  | .recvKbMsg (.message inbuf) =>
    { due := if 3 ≤ l.errors then l.due else l.due ++ [inbuf] }
  | .recvKbMsg .empty => { due := l.due }
  | .recvKbMsg .connError => { l with errors := l.errors + 1 }
  | .sleep => if l.errors = 0 then l else { l with waits := l.waits + 1 }
  | _ => l

def ledger (log : List LoopAction) : Ledger := log.foldl Ledger.after {}

/-- The messages that were processed. -/
def processed (log : List LoopAction) : List Text :=
  log.filterMap fun a =>
    match a with
    | .processMsg inbuf => some inbuf
    | _ => none

@[simp] theorem ledger_append (log actions : List LoopAction) :
    ledger (log ++ actions) = actions.foldl Ledger.after (ledger log) := by
  simp [ledger]

@[simp] theorem processed_append (log actions : List LoopAction) :
    processed (log ++ actions) = processed log ++ processed actions := by
  simp [processed]

/-- What the polls found. -/
def polls (log : List LoopAction) : List RecvKbMsg :=
  log.filterMap fun a =>
    match a with
    | .recvKbMsg found => some found
    | _ => none

@[simp] theorem polls_append (log actions : List LoopAction) :
    polls (log ++ actions) = polls log ++ polls actions := by
  simp [polls]

/-- What may come next in a log: the queue is cleared at the start or instead of processing a
message behind three errors, which were waited for a minute; a message is processed, and the idle
work done, right after the poll. -/
def Allowed (log : List LoopAction) : LoopAction → Prop
  | .clearKb => log = [] ∨ ∃ before inbuf, log = before ++ [.recvKbMsg (.message inbuf)] ∧
      3 ≤ (ledger before).errors
  | .processMsg inbuf => ∃ before, log = before ++ [.recvKbMsg (.message inbuf)] ∧
      (ledger before).errors < 3
  | .processIdle => ∃ before, log = before ++ [.recvKbMsg .empty]
  | .recvKbMsg (.message _) => 3 ≤ (ledger log).errors → 60 ≤ (ledger log).waits
  | _ => True

/-- Every action of the log was allowed behind those before it. -/
def Ordered (log : List LoopAction) : Prop :=
  ∀ before a after, log = before ++ a :: after → Allowed before a

theorem ordered_nil : Ordered [] := by
  intro before a after h
  simp at h

theorem ordered_append {log : List LoopAction} {a : LoopAction} (h : Ordered log)
    (ha : Allowed log a) : Ordered (log ++ [a]) := by
  intro before b after heq
  rcases List.eq_nil_or_concat after with rfl | ⟨after', c, rfl⟩
  · obtain ⟨rfl, hb⟩ := List.append_inj' heq rfl
    obtain rfl : a = b := by simpa using hb
    exact ha
  · rw [List.concat_eq_append, ← List.cons_append, ← List.append_assoc] at heq
    obtain ⟨hlog, -⟩ := List.append_inj' heq rfl
    exact h before b after' hlog

/-! ### The loop -/

/-- The seconds to wait behind this many errors in a row. -/
def waitTime (errors : ℕ) : ℕ :=
  ((List.range errors).map fun i => intervalTime.getD (min i maxIntervalCnt) 0).sum

theorem waitTime_succ (errors : ℕ) :
    waitTime (errors + 1) = waitTime errors + intervalTime.getD (min errors maxIntervalCnt) 0 := by
  simp [waitTime, List.range_succ]

/-- Three errors in a row are waited for a minute. -/
theorem sixty_le_waitTime {errors : ℕ} (h : 3 ≤ errors) : 60 ≤ waitTime errors := by
  induction errors, h using Nat.le_induction with
  | base => decide
  | succ errors _ ih =>
    rw [waitTime_succ]
    omega

/-- The back-off index counts the errors in a row, and what is left to wait for them is in the
timeout; the messages that are due are processed. -/
structure LoopInv (s : LoopState) : Prop where
  gId : s.gId = min (ledger s.log).errors maxIntervalCnt
  timeout : 0 ≤ s.timeout
  waits : (waitTime (ledger s.log).errors : ℤ) ≤ (ledger s.log).waits + s.timeout
  ordered : Ordered s.log
  due : processed s.log = (ledger s.log).due

namespace LoopInv

variable {s : LoopState}

theorem endTurn (h : LoopInv s) (turn : LoopTurn) : LoopInv (s.endTurn turn) := by
  unfold LoopState.endTurn
  dsimp only
  split
  · refine ⟨?_, h.timeout, ?_, ordered_append h.ordered trivial, ?_⟩
    · simpa [LoopState.act, Ledger.after] using h.gId
    · simpa [LoopState.act, Ledger.after] using h.waits
    · simpa [LoopState.act, Ledger.after, processed] using h.due
  · exact ⟨h.gId, h.timeout, h.waits, h.ordered, h.due⟩

/-- At a poll the errors in a row have been waited for. -/
theorem sixty_le_waits (h : LoopInv s) (hpoll : s.timeout ≤ 0)
    (herrors : 3 ≤ (ledger s.log).errors) : 60 ≤ (ledger s.log).waits := by
  have hwait := sixty_le_waitTime herrors
  have hwaits := h.waits
  omega

/-- Polls are in order: nothing is popped behind three errors before a minute has passed. -/
theorem ordered_poll (h : LoopInv s) (hpoll : s.timeout ≤ 0) (found : RecvKbMsg) :
    Ordered (s.log ++ [.recvKbMsg found]) := by
  apply ordered_append h.ordered
  cases found with
  | message inbuf => exact h.sixty_le_waits hpoll
  | empty => trivial
  | connError => trivial

theorem empty (h : LoopInv s) (hpoll : s.timeout ≤ 0) {timeout : ℤ} (htimeout : 0 ≤ timeout) :
    LoopInv { s with
      gId := 0
      inbuf := []
      timeout := timeout
      log := s.log ++ [.recvKbMsg .empty] ++ [.processIdle] } := by
  refine ⟨?_, htimeout, ?_, ordered_append (h.ordered_poll hpoll _) ⟨s.log, rfl⟩, ?_⟩
  · simp [Ledger.after]
  · simpa [Ledger.after, waitTime] using htimeout
  · simpa [Ledger.after, processed] using h.due

theorem message (h : LoopInv s) (hpoll : s.timeout ≤ 0) (hid : s.gId < maxIntervalCnt)
    (inbuf : Text) :
    LoopInv { s with
      gId := 0
      inbuf := inbuf
      log := s.log ++ [.recvKbMsg (.message inbuf)] ++ [.processMsg inbuf] } := by
  have hfew : (ledger s.log).errors < 3 := by
    have hgId := h.gId
    unfold maxIntervalCnt intervalTime at *
    simp only [List.length_cons, List.length_nil] at *
    omega
  refine ⟨?_, h.timeout, ?_, ordered_append (h.ordered_poll hpoll _) ⟨s.log, rfl, hfew⟩, ?_⟩
  · simp [Ledger.after]
  · simpa [Ledger.after, waitTime] using h.timeout
  · have hdue : ¬ 3 ≤ (ledger s.log).errors := Nat.not_le.mpr hfew
    simp [Ledger.after, hdue, ← h.due, processed]

theorem stale (h : LoopInv s) (hpoll : s.timeout ≤ 0) (hid : ¬ s.gId < maxIntervalCnt)
    (inbuf : Text) (isRun : Bool) :
    LoopInv { s with
      gId := 0
      inbuf := inbuf
      isRun := isRun
      log := s.log ++ [.recvKbMsg (.message inbuf)] ++ [.clearKb] } := by
  have hmany : 3 ≤ (ledger s.log).errors := by
    have hgId := h.gId
    unfold maxIntervalCnt intervalTime at *
    simp only [List.length_cons, List.length_nil] at *
    omega
  refine ⟨?_, h.timeout, ?_,
    ordered_append (h.ordered_poll hpoll _) (Or.inr ⟨s.log, inbuf, rfl, hmany⟩), ?_⟩
  · simp [Ledger.after]
  · simpa [Ledger.after, waitTime] using h.timeout
  · simp [Ledger.after, hmany, ← h.due, processed]

theorem connError (h : LoopInv s) (hpoll : s.timeout ≤ 0) :
    LoopInv { s with
      inbuf := []
      timeout := intervalTime.getD s.gId 0
      gId := if s.gId < maxIntervalCnt then s.gId + 1 else s.gId
      log := s.log ++ [.recvKbMsg .connError] } := by
  have hgId := h.gId
  have hwaits := h.waits
  refine ⟨?_, Int.natCast_nonneg _, ?_, h.ordered_poll hpoll _, ?_⟩
  · simp only [ledger_append, List.foldl_cons, List.foldl_nil, Ledger.after]
    split <;> omega
  · simp only [ledger_append, List.foldl_cons, List.foldl_nil, Ledger.after, waitTime_succ,
      ← hgId, Nat.cast_add]
    omega
  · simpa [Ledger.after, processed] using h.due

theorem sleep (h : LoopInv s) (hwait : ¬ s.timeout ≤ 0) :
    LoopInv { s with timeout := s.timeout - 1, log := s.log ++ [.sleep] } := by
  have hwaits := h.waits
  refine ⟨?_, by dsimp only; omega, ?_, ordered_append h.ordered trivial, ?_⟩
  · simp only [ledger_append, List.foldl_cons, List.foldl_nil, Ledger.after]
    split <;> exact h.gId
  · simp only [ledger_append, List.foldl_cons, List.foldl_nil, Ledger.after]
    split
    · rename_i hnone
      rw [hnone]
      have hzero : waitTime 0 = 0 := rfl
      omega
    · dsimp only
      omega
  · simp only [processed_append, ledger_append, List.foldl_cons, List.foldl_nil, Ledger.after]
    split <;> simpa [processed] using h.due

/-- Every turn keeps the books. -/
theorem loopTurn (h : LoopInv s) (turn : LoopTurn) : LoopInv (s.loopTurn turn) := by
  unfold LoopState.loopTurn
  by_cases hrun : s.isRun = true
  swap
  · rwa [if_neg hrun]
  rw [if_pos hrun]
  by_cases hpoll : s.timeout ≤ 0
  swap
  · rw [if_neg hpoll]
    exact (h.sleep hpoll).endTurn turn
  rw [if_pos hpoll]
  cases turn.found with
  | empty =>
    apply LoopInv.endTurn
    apply h.empty hpoll
    split <;> simp
  | message inbuf =>
    by_cases hzero : s.gId = 0
    · simp only [LoopState.act, hzero, if_true]
      have hmsg := h.message hpoll (by rw [hzero]; decide) inbuf
      exact hmsg.endTurn turn
    · by_cases hid : s.gId < maxIntervalCnt
      · simp only [LoopState.act, hzero, if_false, hid, if_true]
        exact (h.message hpoll hid inbuf).endTurn turn
      · simp only [LoopState.act, hzero, if_false, hid]
        exact h.stale hpoll hid inbuf turn.isRun
  | connError => exact (h.connError hpoll).endTurn turn

end LoopInv

/-- In front of the loop the queue is cleared. -/
def LoopState.start : LoopState :=
  { gId := 0, timeout := 0, inbuf := [], isRun := true, log := [.clearKb] }

theorem loopInv_start : LoopInv .start := by
  refine ⟨rfl, le_rfl, by decide, ?_, rfl⟩
  exact ordered_append ordered_nil (Or.inl rfl)

theorem loopInv_startKbMsg (kbCreate : Bool) (turns : List LoopTurn) :
    LoopInv (startKbMsg kbCreate turns).2 := by
  unfold startKbMsg
  split
  · exact invariant_run (fun s turn h => h.loopTurn turn) loopInv_start turns
  · exact ⟨rfl, le_rfl, by decide, ordered_nil, rfl⟩

/-! ### The polls -/

/-- What the turns find that poll: those of a running loop that has nothing left to wait. -/
def polledTurns : LoopState → List LoopTurn → List RecvKbMsg
  | _, [] => []
  | s, turn :: turns =>
    (if s.isRun ∧ s.timeout ≤ 0 then [turn.found] else []) ++ polledTurns (s.loopTurn turn) turns

theorem polls_act (s : LoopState) (a : LoopAction) :
    polls (s.act a).log = polls s.log ++ polls [a] := by
  rw [LoopState.act, polls_append]

theorem polls_endTurn (s : LoopState) (turn : LoopTurn) :
    polls (s.endTurn turn).log = polls s.log := by
  unfold LoopState.endTurn
  dsimp only
  split
  · rw [polls_act]
    exact List.append_nil _
  · rfl

/-- A turn notes its poll, and no other one. -/
theorem polls_loopTurn (s : LoopState) (turn : LoopTurn) :
    polls (s.loopTurn turn).log =
      polls s.log ++ if s.isRun ∧ s.timeout ≤ 0 then [turn.found] else [] := by
  unfold LoopState.loopTurn
  by_cases hrun : s.isRun = true
  swap
  · simp [hrun]
  by_cases hpoll : s.timeout ≤ 0
  swap
  · rw [if_pos hrun, if_neg hpoll, if_neg fun h => hpoll h.2, polls_endTurn]
    exact polls_act s .sleep
  rw [if_pos hrun, if_pos hpoll, if_pos (And.intro hrun hpoll)]
  have hact : ∀ a, polls [a] = [] →
      polls ((s.act (.recvKbMsg turn.found)).act a).log = polls s.log ++ [turn.found] := by
    intro a ha
    rw [polls_act, polls_act, ha, List.append_nil]
    rfl
  cases hfound : turn.found with
  | empty =>
    rw [hfound] at hact
    dsimp only
    rw [polls_endTurn]
    exact hact .processIdle rfl
  | message inbuf =>
    rw [hfound] at hact
    dsimp only
    split_ifs
    · rw [polls_endTurn]
      exact hact (.processMsg inbuf) rfl
    · rw [polls_endTurn]
      exact hact (.processMsg inbuf) rfl
    · exact hact .clearKb rfl
  | connError =>
    dsimp only
    rw [polls_endTurn]
    exact polls_act s (.recvKbMsg .connError)

theorem polls_run (s : LoopState) (turns : List LoopTurn) :
    polls (run LoopState.loopTurn s turns).log = polls s.log ++ polledTurns s turns := by
  induction turns generalizing s with
  | nil => simp [polledTurns]
  | cons turn turns ih =>
    rw [run_cons, ih, polls_loopTurn, polledTurns, List.append_assoc]

/-- However the polls end and whenever the loop is stopped: the popped messages are processed once
and in their order, except behind three connection errors in a row or more, which were waited for a
minute. The queue is only cleared then and at the start, the idle work is only done behind a poll
that found the queue empty, and the back-off index is in range. The polls of the log are those of
the turns in which the loop runs and has nothing left to wait. -/
theorem startKbMsg_processes (kbCreate : Bool) (turns : List LoopTurn) :
    processed (startKbMsg kbCreate turns).2.log = (ledger (startKbMsg kbCreate turns).2.log).due ∧
      Ordered (startKbMsg kbCreate turns).2.log ∧
      (startKbMsg kbCreate turns).2.gId < intervalTime.length ∧
      polls (startKbMsg kbCreate turns).2.log =
        if kbCreate then polledTurns .start turns else [] := by
  have h := loopInv_startKbMsg kbCreate turns
  refine ⟨h.due, h.ordered, ?_, ?_⟩
  · rw [h.gId]
    exact (Nat.min_le_right _ _).trans_lt (by decide)
  · unfold startKbMsg
    cases kbCreate with
    | false => rfl
    | true => exact polls_run .start turns

end OpenvasTool
